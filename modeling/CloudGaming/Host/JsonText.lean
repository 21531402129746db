import CloudGaming.Host.Bytes
import CloudGaming.Host.ConfigStore
/-!
# JsonText — documents as text

What the JSON library writes for a document and what it reads from a text are parameters, `JsonText`.
-/
namespace CloudGaming
namespace Host
namespace ConfigStore

/-- `parse` gives the text of the exception where it throws. -/
structure JsonText where
  parse : Bytes → Except String Document
  dump : Document → Bytes

/-! ## Members -/

/-- `nlohmann::json::object()` -/
def Document.empty : Document := ⟨.obj [], .obj List.Pairwise.nil nofun⟩

/-- `erase(key)`, at an object. -/
def eraseMember (key : String) : Json → Json
  | .obj fields => .obj (fields.filter (·.1 ≠ key))
  | j => j

def Document.erase (doc : Document) (key : String) : Document where
  value := eraseMember key doc.value
  ordered := by
    have := doc.ordered
    generalize doc.value = j at this
    cases this with
    | obj hsorted hmembers =>
      exact .obj (hsorted.filter _) fun field hf => hmembers field (List.mem_filter.1 hf).1
    | _ => constructor <;> assumption

theorem lookup_filter_ne (key k : String) (fields : List (String × Json)) :
    (fields.filter (·.1 ≠ key)).lookup k = if k = key then none else fields.lookup k := by
  induction fields with
  | nil => simp
  | cons field fields ih =>
    obtain ⟨a, v⟩ := field
    rw [List.filter_cons, lookup_cons]
    by_cases ha : a = key
    · subst ha
      simp only [ne_eq, not_true, decide_false, Bool.false_eq_true, if_false, ih]
      split <;> rfl
    · simp only [ne_eq, ha, not_false_iff, decide_true, if_true, lookup_cons, ih]
      by_cases hka : k = a
      · rw [if_pos hka, if_neg (hka ▸ ha), if_pos hka]
      · rw [if_neg hka, if_neg hka]

theorem Document.field?_erase (doc : Document) (key k : String) :
    (doc.erase key).value.field? k = if k = key then none else doc.value.field? k := by
  change (eraseMember key doc.value).field? k = _
  cases doc.value with
  | obj fields => exact lookup_filter_ne key k fields
  | _ => exact (ite_self none).symm

theorem Document.isObject_erase (doc : Document) (key : String) :
    (doc.erase key).value.isObject = doc.value.isObject := by
  change (eraseMember key doc.value).isObject = _
  cases doc.value <;> rfl

/-- What passes the checks is an object. -/
theorem isObject_of_valid (cast : ℚ → Int) {config : Document} (h : (validateAndMigrate cast config).verdict = .valid) :
    (validateAndMigrate cast config).config.value.isObject = true := by
  have hagain := (validateAndMigrate_valid cast h).1
  cases hobj : (validateAndMigrate cast config).config.value.isObject with
  | true => rfl
  | false =>
    rw [validateAndMigrate, if_pos (by simp [hobj])] at hagain
    have hverdict := congrArg Outcome.verdict hagain
    cases hverdict

/-! ## Flat objects

A library for objects whose members are texts that need no escapes.  -/

namespace Flat

/-- A character that stands for itself in a text, a byte long. -/
def isPlainChar (c : Char) : Bool := c ≠ '"' && c.toNat < 256

def isPlainText (s : String) : Bool := s.toList.all isPlainChar

abbrev Member := String × String

def quoted (s : String) : List Char := '"' :: (s.toList ++ ['"'])

def member (m : Member) : List Char := quoted m.1 ++ ':' :: quoted m.2

def rest : List Member → List Char
  | [] => ['}']
  | m :: ms => ',' :: (member m ++ rest ms)

def text : List Member → List Char
  | [] => ['{', '}']
  | m :: ms => '{' :: (member m ++ rest ms)

def readText : List Char → Option (String × List Char)
  | '"' :: cs =>
    match cs.dropWhile (· ≠ '"') with
    | _ :: cs' => some (.ofList (cs.takeWhile (· ≠ '"')), cs')
    | [] => none
  | _ => none

def readMember (cs : List Char) : Option (Member × List Char) := do
  let (key, cs) ← readText cs
  match cs with
  | ':' :: cs => do
    let (value, cs) ← readText cs
    return ((key, value), cs)
  | _ => none

/-- What follows a member; `fuel` bounds the members. -/
def readRest : Nat → List Char → Option (List Member)
  | _, ['}', '\n'] => some []
  | fuel + 1, ',' :: cs => do
    let (m, cs) ← readMember cs
    return m :: (← readRest fuel cs)
  | _, _ => none

def read : List Char → Option (List Member)
  | ['{', '}', '\n'] => some []
  | '{' :: cs => do
    let (m, cs) ← readMember cs
    return m :: (← readRest cs.length cs)
  | _ => none

theorem readText_quoted {s : String} (h : isPlainText s = true) (cs : List Char) :
    readText (quoted s ++ cs) = some (s, cs) := by
  have hne : ∀ c ∈ s.toList, (decide (c ≠ '"')) = true := fun c hc => by
    have := List.all_eq_true.1 h c hc
    rw [isPlainChar, Bool.and_eq_true] at this
    exact this.1
  have hcs : quoted s ++ cs = '"' :: (s.toList ++ '"' :: cs) := by simp [quoted]
  rw [hcs, readText, List.dropWhile_append_of_pos hne, List.takeWhile_append_of_pos hne]
  simp

theorem readMember_member {m : Member} (h : isPlainText m.1 = true ∧ isPlainText m.2 = true) (cs : List Char) :
    readMember (member m ++ cs) = some (m, cs) := by
  rw [member, List.append_assoc, List.cons_append, readMember, readText_quoted h.1]
  simp only [Option.bind_eq_bind, Option.bind_some, readText_quoted h.2, Option.pure_def]

theorem readRest_rest {ms : List Member} (h : ∀ m ∈ ms, isPlainText m.1 = true ∧ isPlainText m.2 = true) {fuel : Nat}
    (hfuel : ms.length ≤ fuel) : readRest fuel (rest ms ++ ['\n']) = some ms := by
  induction ms generalizing fuel with
  | nil => cases fuel <;> rfl
  | cons m ms ih =>
    obtain ⟨fuel, rfl⟩ : ∃ n, fuel = n + 1 := ⟨fuel - 1, by simp at hfuel; omega⟩
    rw [rest, List.cons_append, List.append_assoc, readRest, readMember_member (h m List.mem_cons_self)]
    simp only [Option.bind_eq_bind, Option.bind_some,
      ih (fun m hm => h m (List.mem_cons_of_mem _ hm)) (Nat.le_of_succ_le_succ hfuel), Option.pure_def]

theorem length_rest (ms : List Member) : ms.length < (rest ms).length := by
  induction ms with
  | nil => decide
  | cons m ms ih =>
    rw [rest, List.length_cons, List.length_cons, List.length_append]
    omega

/-- **A line with a flat object is read back.** -/
theorem read_text {ms : List Member} (h : ∀ m ∈ ms, isPlainText m.1 = true ∧ isPlainText m.2 = true) :
    read (text ms ++ ['\n']) = some ms := by
  cases ms with
  | nil => rfl
  | cons m ms =>
    have hlength := length_rest ms
    rw [text, List.cons_append, List.append_assoc, read, readMember_member (h m List.mem_cons_self)]
    · simp only [Option.bind_eq_bind, Option.bind_some, Option.pure_def]
      rw [readRest_rest (fun m hm => h m (List.mem_cons_of_mem _ hm))]
      · rfl
      · rw [List.length_append]
        omega
    · simp [member, quoted]

def isPlain (m : Member) : Bool := isPlainText m.1 && isPlainText m.2

def object (ms : List Member) : Json := .obj (ms.map fun m => (m.1, .str m.2))

theorem ordered_object {ms : List Member} (h : ms.Pairwise fun a b => a.1 < b.1) : Ordered (object ms) := by
  refine .obj (List.pairwise_map.2 h) fun field hf => ?_
  obtain ⟨m, -, rfl⟩ := List.mem_map.1 hf
  exact .str m.2

def document (ms : List Member) : Option Document :=
  if h : (ms.Pairwise fun a b => a.1 < b.1) ∧ ms.all isPlain = true then some ⟨object ms, ordered_object h.1⟩ else none

def members : Json → List Member
  | .obj fields => fields.map fun field => (field.1, field.2.str?.getD "")
  | _ => []

def bytes (cs : List Char) : Bytes := cs.map fun c => c.toNat.toUInt8

/-- The document is an object of plain texts. -/
def Held (doc : Document) : Prop := ∃ ms : List Member, ms.all isPlain = true ∧ doc.value = object ms

def library : JsonText where
  parse text := (((read (Bytes.chars text)).bind document).map Except.ok).getD (.error "parse error")
  dump doc := bytes (text (members doc.value))

theorem chars_bytes {cs : List Char} (h : ∀ c ∈ cs, c.toNat < 256) : Bytes.chars (bytes cs) = cs := by
  rw [Bytes.chars, bytes, List.map_map]
  refine (List.map_congr_left fun c hc => ?_).trans (List.map_id cs)
  have hc : c.toNat.toUInt8.toNat = c.toNat := by
    rw [Nat.toUInt8, UInt8.toNat_ofNat']
    exact Nat.mod_eq_of_lt (h c hc)
  simp only [Function.comp_apply, hc, id]
  exact Char.ofNat_toNat c

theorem members_object (ms : List Member) : members (object ms) = ms := by
  rw [object, members, List.map_map]
  exact List.map_id ms

theorem lt_of_plain {s : String} (h : isPlainText s = true) : ∀ c ∈ s.toList, c.toNat < 256 := fun c hc => by
  have := List.all_eq_true.1 h c hc
  rw [isPlainChar, Bool.and_eq_true, decide_eq_true_eq, decide_eq_true_eq] at this
  exact this.2

theorem lt_member {m : Member} (h : isPlain m = true) : ∀ c ∈ member m, c.toNat < 256 := by
  rw [isPlain, Bool.and_eq_true] at h
  intro c hc
  simp only [member, quoted, List.mem_append, List.mem_cons, List.not_mem_nil, or_false] at hc
  rcases hc with (rfl | hc | rfl) | rfl | rfl | hc | rfl
  · decide
  · exact lt_of_plain h.1 c hc
  · decide
  · decide
  · decide
  · exact lt_of_plain h.2 c hc
  · decide

theorem lt_rest {ms : List Member} (h : ms.all isPlain = true) : ∀ c ∈ rest ms, c.toNat < 256 := by
  induction ms with
  | nil =>
    intro c hc
    obtain rfl := List.mem_singleton.1 hc
    decide
  | cons m ms ih =>
    rw [List.all_cons, Bool.and_eq_true] at h
    intro c hc
    rcases List.mem_cons.1 hc with rfl | hc
    · decide
    rcases List.mem_append.1 hc with hc | hc
    · exact lt_member h.1 c hc
    · exact ih h.2 c hc

theorem lt_text {ms : List Member} (h : ms.all isPlain = true) : ∀ c ∈ text ms, c.toNat < 256 := by
  cases ms with
  | nil =>
    intro c hc
    rcases List.mem_pair.1 hc with rfl | rfl
    · decide
    · decide
  | cons m ms =>
    rw [List.all_cons, Bool.and_eq_true] at h
    intro c hc
    rcases List.mem_cons.1 hc with rfl | hc
    · decide
    rcases List.mem_append.1 hc with hc | hc
    · exact lt_member h.1 c hc
    · exact lt_rest h.2 c hc

theorem document_of_value {doc : Document} {ms : List Member} (hplain : ms.all isPlain = true)
    (hdoc : doc.value = object ms) : document ms = some doc := by
  obtain ⟨value, ordered⟩ := doc
  subst hdoc
  have hsorted : ms.Pairwise fun a b => a.1 < b.1 := by
    cases ordered with
    | obj hsorted _ => exact (List.pairwise_map (f := fun m : Member => (m.1, Json.str m.2))).1 hsorted
  rw [document, dif_pos ⟨hsorted, hplain⟩]

/-- **A line with a document that is held is read back.** -/
theorem parse_dump {doc : Document} (h : Held doc) : library.parse (library.dump doc ++ [10]) = .ok doc := by
  obtain ⟨ms, hplain, hdoc⟩ := h
  have hall : ∀ m ∈ ms, isPlainText m.1 = true ∧ isPlainText m.2 = true := fun m hm => by
    have := List.all_eq_true.1 hplain m hm
    rwa [isPlain, Bool.and_eq_true] at this
  have hchars : Bytes.chars (library.dump doc ++ [10]) = text ms ++ ['\n'] := by
    have hline : library.dump doc ++ [10] = bytes (text ms ++ ['\n']) := by
      change bytes (text (members doc.value)) ++ [10] = _
      rw [hdoc, members_object, bytes, bytes, List.map_append]
      rfl
    rw [hline, chars_bytes]
    intro c hc
    rcases List.mem_append.1 hc with hc | hc
    · exact lt_text hplain c hc
    · rw [List.mem_singleton.1 hc]
      decide
  change (((read (Bytes.chars (library.dump doc ++ [10]))).bind document).map Except.ok).getD _ = _
  rw [hchars, read_text hall, Option.bind_some, document_of_value hplain hdoc]
  rfl

theorem held_parse {t : Bytes} {doc : Document} (h : library.parse t = .ok doc) : Held doc := by
  change (((read (Bytes.chars t)).bind document).map Except.ok).getD _ = _ at h
  cases hd : (read (Bytes.chars t)).bind document with
  | none =>
    rw [hd] at h
    cases h
  | some doc' =>
    rw [hd] at h
    obtain rfl : doc' = doc := Except.ok.inj h
    obtain ⟨ms, -, hms⟩ := Option.bind_eq_some_iff.1 hd
    rw [document] at hms
    split at hms
    · rename_i hgood
      obtain rfl := Option.some.inj hms
      exact ⟨ms, hgood.2, rfl⟩
    · cases hms

theorem error_parse {t : Bytes} {error : String} (h : library.parse t = .error error) : error = "parse error" := by
  change (((read (Bytes.chars t)).bind document).map Except.ok).getD _ = _ at h
  cases hd : (read (Bytes.chars t)).bind document with
  | none =>
    rw [hd] at h
    exact (Except.error.inj h).symm
  | some doc' =>
    rw [hd] at h
    cases h

theorem assign_object (key s : String) (ms : List Member) :
    ∃ ns : List Member, assign key (.str s) (ms.map fun m => (m.1, .str m.2)) = ns.map (fun m => (m.1, .str m.2)) ∧
      ∀ n ∈ ns, n = (key, s) ∨ n ∈ ms := by
  induction ms with
  | nil => exact ⟨[(key, s)], rfl, fun n hn => .inl (List.mem_singleton.1 hn)⟩
  | cons m ms ih =>
    obtain ⟨ns, hns, hmem⟩ := ih
    rw [List.map_cons, assign]
    split
    · refine ⟨(key, s) :: ms, rfl, fun n hn => ?_⟩
      exact (List.mem_cons.1 hn).imp_right (List.mem_cons_of_mem _)
    · split
      · exact ⟨(key, s) :: m :: ms, rfl, fun n hn => List.mem_cons.1 hn⟩
      · refine ⟨m :: ns, by rw [hns]; rfl, fun n hn => ?_⟩
        rcases List.mem_cons.1 hn with rfl | hn
        · exact .inr List.mem_cons_self
        · exact (hmem n hn).imp_right (List.mem_cons_of_mem _)

theorem Held.set {doc : Document} (h : Held doc) {key s : String} (hm : isPlain (key, s) = true) :
    Held (doc.set key ⟨.str s, .str s⟩) := by
  obtain ⟨ms, hplain, hdoc⟩ := h
  obtain ⟨ns, hns, hmem⟩ := assign_object key s ms
  refine ⟨ns, List.all_eq_true.2 fun n hn => ?_, ?_⟩
  · rcases hmem n hn with rfl | hn
    · exact hm
    · exact List.all_eq_true.1 hplain n hn
  · change setMember key (.str s) doc.value = _
    rw [hdoc, object, setMember, hns, object]

theorem Held.erase {doc : Document} (h : Held doc) (key : String) : Held (doc.erase key) := by
  obtain ⟨ms, hplain, hdoc⟩ := h
  refine ⟨ms.filter (·.1 ≠ key), List.all_eq_true.2 fun m hm => ?_, ?_⟩
  · exact List.all_eq_true.1 hplain m (List.mem_filter.1 hm).1
  · change eraseMember key doc.value = _
    rw [hdoc, object, eraseMember, object, List.filter_map]
    rfl

end Flat

end ConfigStore
end Host
end CloudGaming
