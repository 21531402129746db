import CloudGaming.Host.Files
import CloudGaming.Host.JsonText
/-!
# SecretStore — the credentials of the host, encrypted for its user

One JSON object maps names to the hexadecimal text of what `CryptProtectData` gives.  Every call reads the file and writes
it back whole.  `Secrets` is what the store is for: a map from names to values, on which a call takes effect once or, where
it fails or its process is killed, perhaps not at all.  One process uses the store at a time.
-/
namespace CloudGaming
namespace Host
namespace SecretStore

open Async (Prog Ending Explained perform perform_explained AllDrawn)
open ConfigStore (Document JsonText)
open Files

/-! ## Names and encodings -/

/-- `ValidName` -/
def validName (name : String) : Bool :=
  name ≠ "" && name.length ≤ 64 && name.toList.all fun c => c.isAlphanum || c = '-' || c = '_'

def digits : List Char := "0123456789abcdef".toList

/-- `Hex` -/
def hex (data : Bytes) : String :=
  .ofList (data.flatMap fun b => [digits.getD (b.toNat / 16) '0', digits.getD (b.toNat % 16) '0'])

/-- The lambda `digit` of `Unhex`. -/
def digit (c : Char) : Option Nat :=
  if '0' ≤ c ∧ c ≤ '9' then some (c.toNat - 48)
  else if 'a' ≤ c ∧ c ≤ 'f' then some (c.toNat - 97 + 10)
  else if 'A' ≤ c ∧ c ≤ 'F' then some (c.toNat - 65 + 10)
  else none

def unhexDigits : List Char → Option Bytes
  | [] => some []
  | high :: low :: rest => do
    let high ← digit high
    let low ← digit low
    return (high * 16 + low).toUInt8 :: (← unhexDigits rest)
  | [_] => none

/-- `Unhex` -/
def unhex (input : String) : Option Bytes := unhexDigits input.toList

theorem digit_digits : ∀ n < 16, digit (digits.getD n '0') = some n := by decide

/-- **The encoding is undone.** -/
theorem unhex_hex (data : Bytes) : unhex (hex data) = some data := by
  rw [unhex, hex, String.toList_ofList]
  induction data with
  | nil => rfl
  | cons b data ih =>
    have hb : b.toNat < 256 := b.toNat_lt
    have hsplit : (b.toNat / 16 * 16 + b.toNat % 16).toUInt8 = b := by
      rw [Nat.div_add_mod']
      exact UInt8.ofNat_toNat
    rw [List.flatMap_cons]
    simp only [List.cons_append, List.nil_append, unhexDigits, digit_digits _ (by omega : b.toNat / 16 < 16),
      digit_digits _ (Nat.mod_lt b.toNat (by omega : 16 > 0)), ih, hsplit, Option.bind_eq_bind, Option.bind_some,
      Option.pure_def]

/-! ## The calls -/

section
variable (lib : JsonText)

/-- `LoadFile`; a file that cannot be opened is read as an empty text. -/
def loadFile : Prog sig (Except String Document) := do
  let found ← Prog.send (σ := sig) .fileExists
  if found then
    let text ← Prog.send (σ := sig) .read
    match lib.parse (Option.getD text []) with
    | .error what => pure (.error what)
    | .ok values => if values.value.isObject then pure (.ok values) else pure (.error "Secret store is corrupt")
  else pure (.ok Document.empty)

/-- `SaveFile`; the stream is closed by its destructor, behind the last look at it. -/
def saveFile (values : Document) : Prog sig (Except String Unit) := do
  match ← Prog.send (σ := sig) .createDirectories with
  | .error what => pure (.error what)
  | .ok _ =>
    match ← Prog.send (σ := sig) (.protect .directory) with
    | .error aclError => pure (.error aclError)
    | .ok _ =>
      let _ ← Prog.send (σ := sig) .openTemporary
      let good ← Prog.send (σ := sig) (.write (lib.dump values ++ [10]))
      let _ ← Prog.send (σ := sig) .close
      if good then
        match ← Prog.send (σ := sig) (.protect .temporary) with
        | .error aclError =>
          let _ ← Prog.send (σ := sig) .deleteTemporary
          pure (.error aclError)
        | .ok _ =>
          match ← Prog.send (σ := sig) .move with
          | .error code =>
            let _ ← Prog.send (σ := sig) .deleteTemporary
            pure (.error ("Could not replace secret store: " ++ toString code))
          | .ok _ => Prog.send (σ := sig) (.protect .file)
      else pure (.error "Could not write secret store")

/-- `Set` -/
def set (name : String) (value : Bytes) : Prog sig (Except String Unit) :=
  if !validName name || 16384 < value.length then pure (.error "Invalid secret name or value")
  else do
    match ← Prog.send (σ := sig) (.cryptProtectData value) with
    | .error code => pure (.error ("DPAPI encryption failed: " ++ toString code))
    | .ok output =>
      match ← loadFile lib with
      | .error error => pure (.error error)
      | .ok values => saveFile lib (values.set name ⟨.str (hex output), .str _⟩)

/-- `Get`: a value, nothing, or nothing and an error. -/
def get (name : String) : Prog sig (Except String (Option Bytes)) :=
  if !validName name then pure (.error "Invalid secret name")
  else do
    match ← loadFile lib with
    | .error error => pure (.error error)
    | .ok values =>
      match (values.value.field? name).bind Json.str? with
      | none => pure (.ok none)
      | some text =>
        match unhex text with
        | none => pure (.error "Secret encoding is corrupt")
        | some encrypted =>
          match ← Prog.send (σ := sig) (.cryptUnprotectData encrypted) with
          | .error code => pure (.error ("DPAPI decryption failed: " ++ toString code))
          | .ok output => pure (.ok (some output))

/-- `Remove` -/
def remove (name : String) : Prog sig (Except String Unit) :=
  if !validName name then pure (.error "Invalid secret name")
  else do
    match ← loadFile lib with
    | .error error => pure (.error error)
    | .ok values => saveFile lib (values.erase name)

end

/-! ## What is stored -/

section
variable (lib : JsonText) (sys : System)

def entry (values : Document) (name : String) : Option Bytes :=
  (((values.value.field? name).bind Json.str?).bind unhex).bind sys.unprotect

/-- The object in the file; none is an empty one. -/
def stored : Option Bytes → Option Document
  | none => some Document.empty
  | some text =>
    match lib.parse text with
    | .error _ => none
    | .ok values => if values.value.isObject then some values else none

/-- The secrets in the file; nothing can be had from one that is corrupt. -/
def secrets (file : Option Bytes) (name : String) : Option Bytes :=
  (stored lib file).bind fun values => entry sys values name

/-- What the store relies on.  The library reads back a line with a document it holds; it holds what it reads, and keeps
holding it when a member is set to a hexadecimal text or erased; an empty text is an error, and an error has a text.  What
was encrypted for the user is decrypted for the user. -/
structure Relies (held : Document → Prop) : Prop where
  parse_dump : ∀ doc, held doc → lib.parse (lib.dump doc ++ [10]) = .ok doc
  held_parse : ∀ text doc, lib.parse text = .ok doc → held doc
  held_empty : held Document.empty
  held_set : ∀ doc name data, held doc → validName name = true → held (doc.set name ⟨.str (hex data), .str _⟩)
  held_erase : ∀ doc name, held doc → held (doc.erase name)
  parse_nil : ∀ doc, lib.parse [] ≠ .ok doc
  parse_error : ∀ text error, lib.parse text = .error error → error ≠ ""
  unprotect : ∀ salt value, sys.unprotect (sys.protect salt value) = some value

end

/-- Two failures go unnoticed: that of the look whether there is a file, and that of the stream's destructor. -/
def Noticed : Cmd → Draw → Prop
  | .fileExists, .fails _ => False
  | .close, .fails _ => False
  | _, _ => True

section
variable {lib : JsonText} {sys : System} {held : Document → Prop}

/-- What `LoadFile` returns is what is stored; it changes nothing. -/
theorem wp_loadFile (hr : Relies lib sys held) {R : Ending (Except String Document) → Disk → Prop} {d : Disk}
    (hkilled : R .killed d) (herror : ∀ error, error ≠ "" → R (.returned (.error error)) d)
    (hok : ∀ values, stored lib d.file = some values → held values → values.value.isObject = true →
      R (.returned (.ok values)) d) : (loadFile lib).wp (device sys) Noticed R d := by
  refine wp_reports (fun _ => d.file.isSome) (fun _ => false) (fun _ => rfl) hkilled (fun _ _ => ?_) nofun
  cases hfile : d.file with
  | none => exact hok Document.empty (by rw [hfile]; rfl) hr.held_empty rfl
  | some text =>
    have hread : ∀ found : Option Bytes, (found = some text ∨ found = none) →
        Prog.wp (device sys) Noticed (match lib.parse (Option.getD found []) with
          | .error what => pure (.error what)
          | .ok values =>
            if values.value.isObject then pure (.ok values) else pure (.error "Secret store is corrupt")) R d := by
      rintro found (rfl | rfl)
      · have hstored : stored lib d.file = _ := congrArg (stored lib) hfile
        rw [stored] at hstored
        rw [Option.getD_some]
        cases hp : lib.parse text with
        | error what => exact herror what (hr.parse_error _ _ hp)
        | ok values =>
          rw [hp] at hstored
          dsimp only at hstored ⊢
          split
          · rename_i hobj
            exact hok values (by rw [hstored, if_pos hobj]) (hr.held_parse _ _ hp) hobj
          · exact herror _ (by decide)
      · cases hp : lib.parse [] with
        | error what =>
          rw [Option.getD_none, hp]
          exact herror what (hr.parse_error _ _ hp)
        | ok values => exact absurd hp (hr.parse_nil values)
    refine wp_reports (fun _ => d.file) (fun _ => none) (fun _ => rfl) hkilled (fun _ _ => ?_) fun _ _ => ?_
    · exact hread d.file (.inl hfile)
    · exact hread none (.inr rfl)

/-- `SaveFile` replaces the store as a whole, as long as the stream's destructor writes what is buffered. -/
theorem wp_saveFile {values : Document} {d : Disk} {old : Option Bytes} (hold : d.file = old) :
    (saveFile lib values).wp (device sys) Noticed (Replaces old (lib.dump values ++ [10])) d := by
  refine wp_before nofun hold fun _ r _ _ hold => ?_
  cases r with
  | error what => exact wp_refused (.inl hold)
  | ok _ =>
    refine wp_before nofun hold fun _ r _ _ hold => ?_
    cases r with
    | error aclError => exact wp_refused (.inl hold)
    | ok _ =>
      refine wp_before nofun hold fun _ opened _ hopen hold => ?_
      refine wp_before nofun hold fun _ good _ hwrite hold => ?_
      refine wp_before nofun hold fun l _ hl hclose hold => ?_
      cases good with
      | false => exact wp_refused (.inl hold)
      | true =>
        have hnofail : ∀ n, l ≠ .fails n := fun n he => by
          subst he
          exact hl
        have ht := temporary_close (written_write (good_open hopen) hwrite) (.inr hnofail) hclose
        refine wp_reports (fun _ => .ok ()) (fun n => .error (sys.message n)) (fun _ => rfl) (.kept nofun hold)
          (fun _ _ => ?_) fun _ _ => wp_before_refused nofun (.inl hold)
        exact wp_move hold ht (fun _ h => wp_protect_file h) fun _ _ h => wp_before_refused nofun h

/-! ## The store as a map -/

/-- A map on which a call takes effect once, or not at all where it does not say that it did. -/
def Writes (success : Prop) (a b c : String → Option Bytes) : Prop := (b = a ∧ ¬success) ∨ b = c

theorem secrets_of_stored {values : Document} {file : Option Bytes} (h : stored lib file = some values) :
    secrets lib sys file = entry sys values := by
  funext name
  rw [secrets, h, Option.bind_some]

/-- What was written is stored. -/
theorem stored_dump (hr : Relies lib sys held) {values : Document} (hheld : held values)
    (hobj : values.value.isObject = true) : stored lib (some (lib.dump values ++ [10])) = some values := by
  rw [stored, hr.parse_dump values hheld]
  exact if_pos hobj

theorem entry_set (hr : Relies lib sys held) {values : Document} (hobj : values.value.isObject = true) (name : String)
    (salt : Nat) (value : Bytes) :
    entry sys (values.set name ⟨.str (hex (sys.protect salt value)), .str _⟩) =
      Function.update (entry sys values) name (some value) := by
  funext k
  rw [entry, ConfigStore.Document.field?_set hobj]
  by_cases hk : k = name
  · subst hk
    simp [Json.str?, unhex_hex, hr.unprotect]
  · rw [if_neg hk, Function.update_of_ne hk, entry]

theorem entry_erase {values : Document} (name : String) :
    entry sys (values.erase name) = Function.update (entry sys values) name none := by
  funext k
  rw [entry, ConfigStore.Document.field?_erase]
  by_cases hk : k = name
  · subst hk
    simp
  · rw [if_neg hk, Function.update_of_ne hk, entry]

/-- A write back of what was loaded, changed. -/
theorem wp_writes (hr : Relies lib sys held) {values : Document} {d : Disk} {a b : String → Option Bytes}
    (hd : secrets lib sys d.file = a) (hheld : held values) (hobj : values.value.isObject = true)
    (hb : entry sys values = b) : (saveFile lib values).wp (device sys) Noticed
      (fun e d' => Writes (e = .returned (.ok ())) a (secrets lib sys d'.file) b) d := by
  have hnew : secrets lib sys (some (lib.dump values ++ [10])) = b :=
    (secrets_of_stored (stored_dump hr hheld hobj)).trans hb
  refine Prog.wp_mono (fun e d' h => ?_) (wp_saveFile rfl)
  obtain ⟨hfile, hdone⟩ := h
  rcases hfile with hfile | hfile
  · by_cases he : e = .returned (.ok ())
    · exact .inr (by rw [hdone he, hnew])
    · exact .inl ⟨by rw [hfile, hd], he⟩
  · exact .inr (by rw [hfile, hnew])

theorem wp_set (hr : Relies lib sys held) (name : String) (value : Bytes) {d : Disk} {a : String → Option Bytes}
    (hd : secrets lib sys d.file = a) : (set lib name value).wp (device sys) Noticed
      (fun e d' => Writes (e = .returned (.ok ())) a (secrets lib sys d'.file) (Function.update a name (some value)) ∧
        (e = .returned (.ok ()) → validName name = true ∧ value.length ≤ 16384)) d := by
  rw [set]
  by_cases hbad : (!validName name || decide (16384 < value.length)) = true
  · rw [if_pos hbad]
    exact ⟨.inl ⟨hd, nofun⟩, nofun⟩
  rw [if_neg hbad]
  simp only [Bool.or_eq_true, Bool.not_eq_true', decide_eq_true_eq, not_or, Bool.not_eq_false, Nat.not_lt] at hbad
  refine wp_reports (fun n => .ok (sys.protect n value)) (fun n => .error n) (fun _ => rfl) ⟨.inl ⟨hd, nofun⟩, nofun⟩
    (fun n _ => ?_) fun n _ => ⟨.inl ⟨hd, nofun⟩, nofun⟩
  refine Prog.wp_bind (wp_loadFile hr ⟨.inl ⟨hd, nofun⟩, nofun⟩ (fun _ _ => ⟨.inl ⟨hd, nofun⟩, nofun⟩) ?_)
  intro values hstored hheld hobj
  have hb : entry sys (values.set name ⟨.str (hex (sys.protect n value)), .str _⟩) =
      Function.update a name (some value) := by
    rw [entry_set hr hobj, ← hd, secrets_of_stored hstored]
  refine Prog.wp_mono (fun e d' h => ⟨h, fun _ => hbad⟩) (wp_writes hr hd (hr.held_set values name _ hheld hbad.1) ?_ hb)
  rw [ConfigStore.Document.isObject_set]
  exact hobj

theorem wp_remove (hr : Relies lib sys held) (name : String) {d : Disk} {a : String → Option Bytes}
    (hd : secrets lib sys d.file = a) : (remove lib name).wp (device sys) Noticed
      (fun e d' => Writes (e = .returned (.ok ())) a (secrets lib sys d'.file) (Function.update a name none)) d := by
  rw [remove]
  split
  · exact .inl ⟨hd, nofun⟩
  refine Prog.wp_bind (wp_loadFile hr (.inl ⟨hd, nofun⟩) (fun _ _ => .inl ⟨hd, nofun⟩) ?_)
  intro values hstored hheld hobj
  refine wp_writes hr hd (hr.held_erase values name hheld) ?_ ?_
  · rw [ConfigStore.Document.isObject_erase]
    exact hobj
  · rw [entry_erase, ← hd, secrets_of_stored hstored]

theorem error_ne_empty (n : Nat) : "DPAPI decryption failed: " ++ toString n ≠ "" := by
  intro h
  have := congrArg String.length h
  rw [String.length_append] at this
  simp at this

/-- What `Get` finds is what is there; where it finds nothing and has no error, nothing is there. -/
def Finds (name : String) (a : String → Option Bytes) : Ending (Except String (Option Bytes)) → Prop
  | .returned (.ok found) => a name = found
  | .returned (.error error) => error ≠ ""
  | .threw => False
  | .killed => True

theorem wp_get (hr : Relies lib sys held) (name : String) {d : Disk} {a : String → Option Bytes}
    (hd : secrets lib sys d.file = a) : (get lib name).wp (device sys) Noticed
      (fun e d' => Finds name a e ∧ secrets lib sys d'.file = a) d := by
  rw [get]
  split
  · exact ⟨(by decide : "Invalid secret name" ≠ ""), hd⟩
  refine Prog.wp_bind (wp_loadFile hr ⟨trivial, hd⟩ (fun _ he => ⟨he, hd⟩) ?_)
  intro values hstored _ _
  have ha : a name = (((values.value.field? name).bind Json.str?).bind unhex).bind sys.unprotect := by
    rw [← hd, secrets_of_stored hstored, entry]
  dsimp only
  cases hfield : (values.value.field? name).bind Json.str? with
  | none =>
    rw [hfield] at ha
    exact ⟨ha, hd⟩
  | some text =>
    rw [hfield, Option.bind_some] at ha
    dsimp only
    cases htext : unhex text with
    | none => exact ⟨(by decide : "Secret encoding is corrupt" ≠ ""), hd⟩
    | some encrypted =>
      rw [htext, Option.bind_some] at ha
      refine wp_reports (c := .cryptUnprotectData encrypted)
        (fun _ => ((sys.unprotect encrypted).map .ok).getD (.error 13)) (fun n => .error n) (fun _ => rfl)
        ⟨trivial, hd⟩ (fun _ _ => ?_) fun n _ => ⟨error_ne_empty n, hd⟩
      cases hvalue : sys.unprotect encrypted with
      | none => exact ⟨error_ne_empty 13, hd⟩
      | some value => exact ⟨ha.trans hvalue, hd⟩

/-! ## Runs -/

inductive Call where
  | set (name : String) (value : Bytes)
  | get (name : String)
  | remove (name : String)

inductive Answer where
  | wrote (r : Except String Unit)
  | found (r : Except String (Option Bytes))

def call (lib : JsonText) : Call → Prog sig Answer
  | .set name value => do return .wrote (← set lib name value)
  | .get name => do return .found (← get lib name)
  | .remove name => do return .wrote (← remove lib name)

/-- A call of the map from names to values. -/
def Secrets : Call → Ending Answer → (String → Option Bytes) → (String → Option Bytes) → Prop
  | .set name value, e, a, b =>
    Writes (e = .returned (.wrote (.ok ()))) a b (Function.update a name (some value)) ∧
      (e = .returned (.wrote (.ok ())) → validName name = true ∧ value.length ≤ 16384)
  | .remove name, e, a, b => Writes (e = .returned (.wrote (.ok ()))) a b (Function.update a name none)
  | .get name, e, a, b => b = a ∧ ∀ found, e = .returned (.found (.ok found)) → a name = found

/-- The calls that leave the secret `name` alone. -/
def Call.Leaves (name : String) : Call → Prop
  | .set n _ => n ≠ name
  | .get _ => True
  | .remove n => n ≠ name

theorem Secrets.leaves {name : String} {op : Call} {e : Ending Answer} {a b : String → Option Bytes}
    (hop : op.Leaves name) (h : Secrets op e a b) : b name = a name := by
  have hupdate : ∀ {n : String} {v : Option Bytes} {p : Prop}, n ≠ name → Writes p a b (Function.update a n v) →
      b name = a name := fun hn h => by
    rcases h with ⟨rfl, -⟩ | rfl
    · rfl
    · exact Function.update_of_ne (Ne.symm hn) _ _
  cases op with
  | set n value => exact hupdate hop h.1
  | remove n => exact hupdate hop h
  | get n => rw [h.1]

theorem wp_call (hr : Relies lib sys held) (op : Call) (d : Disk) (a : String → Option Bytes)
    (hd : secrets lib sys d.file = a) :
    (call lib op).wp (device sys) Noticed (fun e d' => ∃ b, Secrets op e a b ∧ secrets lib sys d'.file = b) d := by
  have hwrote : ∀ e : Ending (Except String Unit), e.map Answer.wrote = .returned (.wrote (.ok ())) →
      e = .returned (.ok ()) := fun e he => by
      cases e with
      | returned r => cases he; rfl
      | threw => cases he
      | killed => cases he
  have hmap : ∀ e : Ending (Except String Unit), (e.map Answer.wrote = .returned (.wrote (.ok ()))) =
      (e = .returned (.ok ())) :=
    fun e => propext ⟨hwrote e, fun he => by rw [he]; rfl⟩
  cases op with
  | set name value =>
    refine Prog.wp_map (Prog.wp_mono (fun e d' h => ⟨_, ?_, rfl⟩) (wp_set hr name value hd))
    simpa only [Secrets, hmap] using h
  | remove name =>
    refine Prog.wp_map (Prog.wp_mono (fun e d' h => ⟨_, ?_, rfl⟩) (wp_remove hr name hd))
    simpa only [Secrets, hmap] using h
  | get name =>
    refine Prog.wp_map (Prog.wp_mono (fun e d' h => ⟨a, ⟨rfl, fun found he => ?_⟩, h.2⟩) (wp_get hr name hd))
    cases e with
    | returned r => cases he; exact h.1
    | threw => cases he
    | killed => cases he

/-- **The store is a map from names to values, across failures and kills.**  In any run of calls each of which meets any
failures that are noticed and may be killed at any point, the file always holds the map that the calls made so far give:
every `Set` and `Remove` that says so has taken effect, every other one has or has not, whole, and a `Get` finds what is in
the map then. -/
theorem secrets_explained (hr : Relies lib sys held) {calls : List (Call × List Draw)} {d : Disk}
    (hdrawn : AllDrawn (device sys) Noticed (call lib) d calls) :
    Explained Secrets (secrets lib sys d.file) (perform (device sys) (call lib) d calls).1
      (secrets lib sys (perform (device sys) (call lib) d calls).2.file) := by
  obtain ⟨b, hes, hb⟩ := perform_explained (fun d a => secrets lib sys d.file = a)
    (fun op d a => wp_call hr op d a) rfl hdrawn
  rw [hb]
  exact hes

end

/-! ## A library and a system -/

/-- An encryption that keeps the salt in front. -/
def sampleSystem : System where
  message n := "SetFileSecurity failed: " ++ toString n
  protect salt value := salt.toUInt8 :: value.map (· ^^^ salt.toUInt8)
  unprotect
    | [] => none
    | salt :: value => some (value.map (· ^^^ salt))

theorem lt_of_isAlphanum {c : Char} (h : c.isAlphanum = true) : c.toNat < 256 := by
  have hle : ∀ n : UInt32, n.toNat < 256 → c.val ≤ n → c.toNat < 256 := fun n hn hc =>
    Nat.lt_of_le_of_lt (UInt32.le_iff_toNat_le.1 hc) hn
  have hclass : (c.isUpper || c.isLower || c.isDigit) = true := h
  rw [Bool.or_eq_true, Bool.or_eq_true] at hclass
  rcases hclass with (hupper | hlower) | hdigit
  · have hrange : 65 ≤ c.val ∧ c.val ≤ 90 := of_decide_eq_true hupper
    exact hle 90 (by decide) hrange.2
  · have hrange : (decide (97 ≤ c.val) && decide (c.val ≤ 122)) = true := hlower
    rw [Bool.and_eq_true, decide_eq_true_eq, decide_eq_true_eq] at hrange
    exact hle 122 (by decide) hrange.2
  · have hrange : (decide (48 ≤ c.val) && decide (c.val ≤ 57)) = true := hdigit
    rw [Bool.and_eq_true, decide_eq_true_eq, decide_eq_true_eq] at hrange
    exact hle 57 (by decide) hrange.2

theorem plain_name {name : String} (h : validName name = true) : ConfigStore.Flat.isPlainText name = true := by
  rw [validName, Bool.and_eq_true, List.all_eq_true] at h
  refine List.all_eq_true.2 fun c hc => ?_
  have hclass := h.2 c hc
  rw [ConfigStore.Flat.isPlainChar, Bool.and_eq_true, decide_eq_true_eq, decide_eq_true_eq]
  refine ⟨fun he => ?_, ?_⟩
  · subst he
    exact absurd hclass (by decide)
  · rw [Bool.or_eq_true, Bool.or_eq_true, decide_eq_true_eq, decide_eq_true_eq] at hclass
    rcases hclass with (halnum | rfl) | rfl
    · exact lt_of_isAlphanum halnum
    · decide
    · decide

theorem plain_hex (data : Bytes) : ConfigStore.Flat.isPlainText (hex data) = true := by
  refine List.all_eq_true.2 fun c hc => ?_
  rw [hex, String.toList_ofList] at hc
  obtain ⟨b, -, hb⟩ := List.mem_flatMap.1 hc
  have hdigits : ∀ n < 16, ConfigStore.Flat.isPlainChar (digits.getD n '0') = true := by decide
  have hlt : b.toNat < 256 := b.toNat_lt
  rcases List.mem_pair.1 hb with rfl | rfl
  · exact hdigits _ (by omega)
  · exact hdigits _ (by omega)

/-- **A library for flat objects is all the store relies on.** -/
theorem relies_flat : Relies ConfigStore.Flat.library sampleSystem ConfigStore.Flat.Held where
  parse_dump _ h := ConfigStore.Flat.parse_dump h
  held_parse _ _ h := ConfigStore.Flat.held_parse h
  held_empty := ⟨[], rfl, rfl⟩
  held_set _ name data h hname := h.set (by
    rw [ConfigStore.Flat.isPlain, plain_name hname, plain_hex data]
    rfl)
  held_erase _ name h := h.erase name
  parse_nil _ h := by cases h
  parse_error text error h := by
    obtain rfl := ConfigStore.Flat.error_parse h
    exact (by decide : "parse error" ≠ "")
  unprotect salt value := by
    have hback : (value.map (· ^^^ salt.toUInt8)).map (· ^^^ salt.toUInt8) = value := by
      rw [List.map_map]
      refine (List.map_congr_left fun b _ => ?_).trans (List.map_id value)
      rw [Function.comp_apply, UInt8.xor_assoc, UInt8.xor_self, UInt8.xor_zero, id]
    exact congrArg some hback

theorem noticed_of_goes {l : Draw} (h : ∀ n, l ≠ .fails n) (c : Cmd) : Noticed c l := by
  cases l with
  | fails n => exact absurd rfl (h n)
  | goes n => cases c <;> trivial
  | killed n => cases c <;> trivial

/-- A secret that is stored, one whose call is killed in the move, and a look at both. -/
def sampleCalls : List (Call × List Draw) :=
  [(.set "hostSecret" (Bytes.ascii "first"), List.replicate 10 (.goes 3)),
    (.set "turnUsername" (Bytes.ascii "second"), List.replicate 9 (.goes 3) ++ [.killed 1]),
    (.get "hostSecret", List.replicate 3 (.goes 0)), (.get "turnUsername", List.replicate 3 (.goes 0))]

theorem secrets_explained_sample :
    Explained Secrets (secrets ConfigStore.Flat.library sampleSystem none)
      (perform (device sampleSystem) (call ConfigStore.Flat.library) ⟨none, none, [], false⟩ sampleCalls).1
      (secrets ConfigStore.Flat.library sampleSystem
        (perform (device sampleSystem) (call ConfigStore.Flat.library) ⟨none, none, [], false⟩ sampleCalls).2.file) :=
  secrets_explained (d := ⟨none, none, [], false⟩) relies_flat
    (Async.allDrawn_of_draws _ _ _ fun call hcall l hl => noticed_of_goes (by
      revert l
      revert call
      simp [sampleCalls]))

end SecretStore
end Host
end CloudGaming
