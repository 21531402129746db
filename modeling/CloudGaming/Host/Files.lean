import CloudGaming.Async.Crash
import CloudGaming.Host.Bytes
/-!
# Files — a file that is replaced as a whole

The secret store, the configuration and the game inventory are each written to a temporary file beside the one in use,
which `MoveFileExW` then replaces.  A `Draw` says what the system makes of one call: it goes, it fails with an error code,
or the process is killed in it; its number is also how many buffered bytes have reached the disk by then, or the salt of an
encryption.  The three writers differ in when they look at their stream.
-/
namespace CloudGaming
namespace Host
namespace Files

open Async (Sig Prog Device Ending)

inductive Draw where
  | goes (n : Nat)
  | fails (n : Nat)
  | killed (n : Nat)
  deriving DecidableEq

/-- What `ProtectForCurrentUserAndSystem` is given. -/
inductive Target where
  | directory | temporary | file
  deriving DecidableEq

inductive Cmd where
  | fileExists
  | read
  | createDirectories
  | protect (target : Target)
  | openTemporary
  | write (text : Bytes)
  | flush
  | close
  | deleteTemporary
  | move
  | cryptProtectData (input : Bytes)
  | cryptUnprotectData (input : Bytes)
  deriving DecidableEq

abbrev Reply : Cmd → Type
  | .fileExists => Bool
  | .read => Option Bytes
  | .createDirectories => Except String Unit
  | .protect _ => Except String Unit
  | .openTemporary => Bool
  | .write _ => Bool
  | .flush => Bool
  | .close => Bool
  | .deleteTemporary => Unit
  | .move => Except Nat Unit
  | .cryptProtectData _ => Except Nat Bytes
  | .cryptUnprotectData _ => Except Nat Bytes

abbrev sig : Sig where
  Cmd := Cmd
  Reply := Reply
  Call := Empty
  Answer := Empty.elim

/-- The text of an error the system reports, and its encryption for the current user. -/
structure System where
  message : Nat → String
  protect : Nat → Bytes → Bytes
  unprotect : Bytes → Option Bytes

/-- The file in use and the temporary one, and the stream that is open on the temporary one. -/
structure Disk where
  file : Option Bytes
  temporary : Option Bytes
  buffer : Bytes
  good : Bool
  deriving DecidableEq

/-- `n` buffered bytes go to the disk. -/
def Disk.pass (d : Disk) (n : Nat) : Disk :=
  { d with temporary := d.temporary.map (· ++ d.buffer.take n), buffer := d.buffer.drop n }

def Disk.spill (d : Disk) : Disk := d.pass d.buffer.length

def Disk.moved (d : Disk) : Disk :=
  match d.temporary with
  | some text => { d with file := some text, temporary := none }
  | none => d

/-- A call that changes nothing here. -/
def reports {α : Type} (d : Disk) (goes : Nat → α) (fails : Nat → α) : Draw → Option (Option α) × Disk
  | .goes n => (some (some (goes n)), d)
  | .fails n => (some (some (fails n)), d)
  | .killed _ => (none, d)

variable (sys : System)

/-- The stream's buffer on its way to the disk; a bad stream writes nothing. -/
def putThrough (d : Disk) (all : Bool) : Draw → Option (Option Bool) × Disk
  | .goes n => if d.good then (some (some true), if all then d.spill else d.pass n) else (some (some false), d)
  | .fails n => (some (some false), if d.good then { d.pass n with good := false } else d)
  | .killed n => (none, if d.good then d.pass n else d)

def exec : (c : Cmd) → Draw → Disk → Option (Option (Reply c)) × Disk
  | .fileExists, l, d => reports d (fun _ => d.file.isSome) (fun _ => false) l
  | .read, l, d => reports d (fun _ => d.file) (fun _ => none) l
  | .createDirectories, l, d => reports d (fun _ => .ok ()) (fun n => .error (sys.message n)) l
  | .protect _, l, d => reports d (fun _ => .ok ()) (fun n => .error (sys.message n)) l
  | .openTemporary, .goes _, d => (some (some true), { d with temporary := some [], buffer := [], good := true })
  | .openTemporary, .fails _, d => (some (some false), { d with buffer := [], good := false })
  | .openTemporary, .killed n, d => (none, if n = 0 then d else { d with temporary := some [] })
  | .write text, l, d => putThrough { d with buffer := d.buffer ++ text } false l
  | .flush, l, d => putThrough d true l
  | .close, .goes _, d => (some (some d.good), d.spill)
  | .close, .fails n, d => (some (some false), { d.pass n with buffer := [], good := false })
  | .close, .killed n, d => (none, d.pass n)
  | .deleteTemporary, .goes _, d => (some (some ()), { d with temporary := none })
  | .deleteTemporary, .fails _, d => (some (some ()), d)
  | .deleteTemporary, .killed n, d => (none, if n = 0 then d else { d with temporary := none })
  | .move, .goes _, d => (some (some (if d.temporary.isSome then .ok () else .error 2)), d.moved)
  | .move, .fails n, d => (some (some (.error n)), d)
  | .move, .killed n, d => (none, if n = 0 then d else d.moved)
  | .cryptProtectData input, l, d => reports d (fun n => .ok (sys.protect n input)) (fun n => .error n) l
  | .cryptUnprotectData input, l, d =>
    reports d (fun _ => ((sys.unprotect input).map .ok).getD (.error 13)) (fun n => .error n) l

def device : Device sig Draw Disk where
  exec := exec sys
  call := fun o _ => o.elim

/-! ## What a call can do -/

section
variable {sys} {d : Disk} {l : Draw}

@[simp] theorem Disk.file_pass (n : Nat) : (d.pass n).file = d.file := rfl

@[simp] theorem Disk.file_spill : d.spill.file = d.file := rfl

theorem file_reports {α : Type} (goes fails : Nat → α) : (reports d goes fails l).2 = d := by
  cases l <;> rfl

theorem file_putThrough (all : Bool) : (putThrough d all l).2.file = d.file := by
  cases l with
  | goes n =>
    rw [putThrough]
    split
    · cases all <;> rfl
    · rfl
  | fails n =>
    rw [putThrough]
    dsimp only
    split <;> rfl
  | killed n =>
    rw [putThrough]
    dsimp only
    split <;> rfl

/-- **Only the move touches the file in use.** -/
theorem file_exec {c : Cmd} (hc : c ≠ .move) : (exec sys c l d).2.file = d.file := by
  cases c with
  | move => exact absurd rfl hc
  | write text => exact file_putThrough (d := { d with buffer := d.buffer ++ text }) false
  | flush => exact file_putThrough true
  | openTemporary =>
    cases l with
    | goes n => rfl
    | fails n => rfl
    | killed n =>
      simp only [exec]
      split <;> rfl
  | close => cases l <;> rfl
  | deleteTemporary =>
    cases l with
    | goes n => rfl
    | fails n => rfl
    | killed n =>
      simp only [exec]
      split <;> rfl
  | _ => exact congrArg Disk.file (file_reports _ _)

theorem putThrough_ne_throw {all : Bool} : (putThrough d all l).1 ≠ some none := by
  cases l with
  | goes n =>
    rw [putThrough]
    split <;> nofun
  | fails n => nofun
  | killed n => nofun

/-- No call throws: an exception of the library is a reply. -/
theorem exec_ne_throw {c : Cmd} : (exec sys c l d).1 ≠ some none := by
  cases c with
  | write text => exact putThrough_ne_throw
  | flush => exact putThrough_ne_throw
  | _ => cases l <;> nofun

theorem file_move : (exec sys .move l d).2.file = d.file ∨ (∃ text, d.temporary = some text) ∧
    (exec sys .move l d).2.file = d.temporary := by
  have hmoved : d.moved.file = d.file ∨ (∃ text, d.temporary = some text) ∧ d.moved.file = d.temporary := by
    unfold Disk.moved
    cases h : d.temporary with
    | none => exact .inl rfl
    | some text => exact .inr ⟨⟨text, rfl⟩, rfl⟩
  cases l with
  | goes n => exact hmoved
  | fails n => exact .inl rfl
  | killed n =>
    simp only [exec]
    split
    · exact .inl rfl
    · exact hmoved

theorem file_move_ok {text : Bytes} (ht : d.temporary = some text) (h : (exec sys .move l d).1 = some (some (.ok ()))) :
    (exec sys .move l d).2.file = some text := by
  cases l with
  | goes n => simp [exec, Disk.moved, ht]
  | fails n => simp [exec] at h
  | killed n => simp [exec] at h

/-- What the stream has been given is on the disk or in its buffer, as long as the stream is good. -/
structure Written (text : Bytes) (d : Disk) : Prop where
  good : d.good = true
  temporary : d.temporary.map (· ++ d.buffer) = some text

theorem Written.pass {text : Bytes} (h : Written text d) (n : Nat) : Written text (d.pass n) where
  good := h.good
  temporary := by
    obtain ⟨t, ht, hb⟩ := Option.map_eq_some_iff.1 h.temporary
    rw [Disk.pass, ht, Option.map_some, Option.map_some, List.append_assoc, List.take_append_drop, hb]

theorem written_open (h : (exec sys .openTemporary l d).1 = some (some true)) :
    Written [] (exec sys .openTemporary l d).2 := by
  cases l with
  | goes n => exact ⟨rfl, rfl⟩
  | fails n => simp [exec] at h
  | killed n => simp [exec] at h

theorem good_open {r : Bool} (h : (exec sys .openTemporary l d).1 = some (some r))
    (hg : (exec sys .openTemporary l d).2.good = true) : Written [] (exec sys .openTemporary l d).2 := by
  cases l with
  | goes n => exact written_open rfl
  | fails n => simp [exec] at hg
  | killed n => simp [exec] at h

theorem putThrough_true {all : Bool} (h : (putThrough d all l).1 = some (some true)) :
    d.good = true ∧ ((putThrough d all l).2 = d.spill ∨ ∃ n, (putThrough d all l).2 = d.pass n) := by
  cases l with
  | goes n =>
    rw [putThrough] at h ⊢
    split at h
    · rename_i hg
      rw [if_pos hg]
      refine ⟨hg, ?_⟩
      cases all
      · exact .inr ⟨n, rfl⟩
      · exact .inl rfl
    · simp at h
  | fails n => simp [putThrough] at h
  | killed n => simp [putThrough] at h

theorem Written.of_put {text : Bytes} {all : Bool} (hd : d.good = true → Written text d)
    (h : (putThrough d all l).1 = some (some true)) : Written text (putThrough d all l).2 := by
  obtain ⟨hg, heq | ⟨n, heq⟩⟩ := putThrough_true h
  · exact heq ▸ (hd hg).pass d.buffer.length
  · exact heq ▸ (hd hg).pass n

/-- A stream that a call leaves good was good, and the call went. -/
theorem putThrough_good {all : Bool} {r : Bool} (h : (putThrough d all l).1 = some (some r))
    (hg : (putThrough d all l).2.good = true) : (putThrough d all l).1 = some (some true) := by
  cases l with
  | goes n =>
    rw [putThrough] at hg ⊢
    split
    · rfl
    · rename_i hbad
      rw [if_neg hbad] at hg
      exact absurd hg hbad
  | fails n =>
    rw [putThrough] at hg
    dsimp only at hg
    split at hg
    · simp at hg
    · rename_i hbad
      exact absurd hg hbad
  | killed n => simp [putThrough] at h

theorem written_write {text : Bytes} (hd : d.good = true → Written [] d)
    (h : (exec sys (.write text) l d).1 = some (some true)) : Written text (exec sys (.write text) l d).2 := by
  refine Written.of_put (d := { d with buffer := d.buffer ++ text }) (fun hg => ?_) h
  obtain ⟨t, ht, hb⟩ := Option.map_eq_some_iff.1 (hd hg).temporary
  obtain ⟨rfl, hbuffer⟩ := List.append_eq_nil_iff.1 hb
  refine ⟨hg, ?_⟩
  rw [ht, hbuffer]
  rfl

theorem good_write {text : Bytes} {r : Bool} (hd : d.good = true → Written [] d)
    (h : (exec sys (.write text) l d).1 = some (some r)) (hg : (exec sys (.write text) l d).2.good = true) :
    Written text (exec sys (.write text) l d).2 := by
  have hput : (putThrough { d with buffer := d.buffer ++ text } false l).1 = some (some true) := putThrough_good h hg
  exact written_write hd hput

/-- A flush that went left nothing in the buffer. -/
theorem temporary_flush {text : Bytes} (hd : d.good = true → Written text d)
    (h : (exec sys .flush l d).1 = some (some true)) :
    Written text (exec sys .flush l d).2 ∧ (exec sys .flush l d).2.buffer = [] := by
  refine ⟨Written.of_put hd h, ?_⟩
  have hg := (putThrough_true h).1
  cases l with
  | goes n => simp [exec, putThrough, hg, Disk.spill, Disk.pass]
  | fails n => simp [exec, putThrough] at h
  | killed n => simp [exec, putThrough] at h

theorem Written.temporary_spill {text : Bytes} (h : Written text d) : d.spill.temporary = some text := by
  obtain ⟨t, ht, hb⟩ := Option.map_eq_some_iff.1 h.temporary
  rw [Disk.spill, Disk.pass, ht, Option.map_some, List.take_length, hb]

/-- **What was written is on the disk after the close, unless the close failed with something still buffered.** -/
theorem temporary_close {text : Bytes} (hd : Written text d) (hl : d.buffer = [] ∨ ∀ n, l ≠ .fails n)
    {r : Bool} (h : (exec sys .close l d).1 = some (some r)) : (exec sys .close l d).2.temporary = some text := by
  cases l with
  | goes n => exact hd.temporary_spill
  | fails n =>
    rcases hl with hb | hl
    · have ht := hd.temporary
      rw [hb] at ht
      simp only [List.append_nil, Option.map_id'] at ht
      simp [exec, Disk.pass, ht, hb]
    · exact absurd rfl (hl n)
  | killed n => simp [exec] at h

/-- A close that leaves the stream good has put everything on the disk. -/
theorem written_of_close {text : Bytes} (h : (exec sys .close l d).1 = some (some true))
    (hd : d.good = true → Written text d) : (exec sys .close l d).2.temporary = some text := by
  cases l with
  | goes n =>
    simp only [exec, Option.some.injEq] at h
    exact (hd h).temporary_spill
  | fails n => simp [exec] at h
  | killed n => simp [exec] at h

end

/-! ## The file, whatever the system makes of the calls -/

section
variable {sys} {ok : Cmd → Draw → Prop} {α : Type} {R : Ending α → Disk → Prop} {d : Disk}

/-- **A call that is not the move**: the file in use is the one before it, killed or not. -/
theorem wp_still {c : Cmd} {f : Reply c → Prog sig α} (hc : c ≠ .move)
    (hkilled : ∀ d', d'.file = d.file → R .killed d')
    (hafter : ∀ l r, ok c l → (exec sys c l d).1 = some (some r) → (exec sys c l d).2.file = d.file →
      (f r).wp (device sys) ok R (exec sys c l d).2) : (Prog.send (σ := sig) c >>= f).wp (device sys) ok R d :=
  Prog.wp_send_bind (hkilled d rfl) (fun _ _ _ => hkilled _ (file_exec hc)) (fun _ _ h => absurd h exec_ne_throw)
    (fun l r hl hr => hafter l r hl hr (file_exec hc))

/-- A call that changes nothing. -/
theorem wp_reports {c : Cmd} {f : Reply c → Prog sig α} (goes fails : Nat → Reply c)
    (hc : ∀ l, exec sys c l d = reports d goes fails l) (hkilled : R .killed d)
    (hgoes : ∀ n, ok c (.goes n) → (f (goes n)).wp (device sys) ok R d)
    (hfails : ∀ n, ok c (.fails n) → (f (fails n)).wp (device sys) ok R d) :
    (Prog.send (σ := sig) c >>= f).wp (device sys) ok R d := by
  refine ⟨hkilled, fun l hl => ?_⟩
  rw [show (device sys).exec c l d = reports d goes fails l from hc l]
  cases l with
  | goes n => exact hgoes n hl
  | fails n => exact hfails n hl
  | killed n => exact hkilled

/-- A writer leaves the file as it was or the text in its place, and has written it where it says so. -/
def Replaces (old : Option Bytes) (text : Bytes) (e : Ending (Except String Unit)) (d : Disk) : Prop :=
  (d.file = old ∨ d.file = some text) ∧ (e = .returned (.ok ()) → d.file = some text)

variable {old : Option Bytes} {text : Bytes}

theorem Replaces.kept {e : Ending (Except String Unit)} (he : e ≠ .returned (.ok ())) (h : d.file = old) :
    Replaces old text e d := ⟨.inl h, fun h' => absurd h' he⟩

theorem Replaces.done {e : Ending (Except String Unit)} (h : d.file = some text) : Replaces old text e d :=
  ⟨.inr h, fun _ => h⟩

/-- A call before the move. -/
theorem wp_before {c : Cmd} {f : Reply c → Prog sig (Except String Unit)} (hc : c ≠ .move) (hold : d.file = old)
    (hafter : ∀ l r, ok c l → (exec sys c l d).1 = some (some r) → (exec sys c l d).2.file = old →
      (f r).wp (device sys) ok (Replaces old text) (exec sys c l d).2) :
    (Prog.send (σ := sig) c >>= f).wp (device sys) ok (Replaces old text) d :=
  wp_still hc (fun _ h => .kept nofun (h.trans hold)) fun l r hl hr hfile => hafter l r hl hr (hfile.trans hold)

theorem wp_refused {error : String} (hold : d.file = old ∨ d.file = some text) :
    (pure (.error error) : Prog sig (Except String Unit)).wp (device sys) ok (Replaces old text) d := ⟨hold, nofun⟩

/-- A call before a refusal. -/
theorem wp_before_refused {c : Cmd} {error : String} (hc : c ≠ .move) (hold : d.file = old ∨ d.file = some text) :
    (Prog.send (σ := sig) c >>= fun _ => pure (.error error)).wp (device sys) ok (Replaces old text) d :=
  wp_still hc (fun _ h => ⟨h ▸ hold, nofun⟩) fun _ _ _ _ h => wp_refused (h ▸ hold)

/-- The last call, with the file in place: what it reports is what the writer reports. -/
theorem wp_protect_file (h : d.file = some text) :
    (Prog.send (σ := sig) (.protect .file)).wp (device sys) ok (Replaces old text) d := by
  have hfile : ∀ l, (exec sys (.protect .file) l d).2.file = some text := fun _ =>
    (file_exec (c := .protect .file) nofun).trans h
  refine Prog.wp_await (.done h) (fun l _ _ => .done (hfile l)) fun l r _ hr => ?_
  cases r with
  | none => exact absurd hr exec_ne_throw
  | some r => exact .done (hfile l)

/-- **The move**, with the text on the disk. -/
theorem wp_move {f : Except Nat Unit → Prog sig (Except String Unit)} (hold : d.file = old) (ht : d.temporary = some text)
    (hok : ∀ d', d'.file = some text → (f (.ok ())).wp (device sys) ok (Replaces old text) d')
    (herror : ∀ n d', (d'.file = old ∨ d'.file = some text) → (f (.error n)).wp (device sys) ok (Replaces old text) d') :
    (Prog.send (σ := sig) .move >>= f).wp (device sys) ok (Replaces old text) d := by
  have hcases : ∀ l, (exec sys .move l d).2.file = old ∨ (exec sys .move l d).2.file = some text := fun l =>
    file_move.imp hold.subst fun h => h.2.trans ht
  refine Prog.wp_send_bind (.kept nofun hold) (fun l _ _ => ?_) (fun _ _ h => absurd h exec_ne_throw) fun l r _ hr => ?_
  · exact ⟨hcases l, nofun⟩
  · cases r with
    | ok u => exact hok _ (file_move_ok ht hr)
    | error n => exact herror n _ (hcases l)

end

end Files
end Host
end CloudGaming
