import CloudGaming.Async.Along
import CloudGaming.Host.Bytes
import CloudGaming.Host.Redaction
import Mathlib.Algebra.GroupWithZero.Nat
import Mathlib.Logic.Function.Basic
/-!
# Diagnostics — the host's log files and the console they copy

`host.jsonl` is number 0, `host.1.jsonl` to `host.5.jsonl` are the rotated files.  Operations on the directory ignore
their errors, so `Draw` says of each whether it takes effect.  What a file holds is the list of what was appended to it.
A tee passes the console's text on and logs its lines; a wide one has code units.
-/
namespace CloudGaming
namespace Host
namespace Diagnostics

open Async

/-! ## Log files -/

/-- `kMaxLogBytes` -/
def maxLogBytes : Nat := 5 * 1024 * 1024

/-- `kLogFiles` -/
def logFiles : Nat := 5

abbrev Files := Nat → Option (List Bytes)

def size (file : List Bytes) : Nat := (file.map List.length).sum

structure Draw where
  /-- `create_directories` -/
  directory : Bool
  sizeKnown : Bool
  removes : Nat → Bool
  /-- By the number of the file that is renamed. -/
  renames : Nat → Bool
  opens : Bool
  /-- How many bytes of the record reach the file. -/
  written : Nat
  timestamp : String
  thread : Nat

def remove (d : Draw) (i : Nat) (files : Files) : Files :=
  if d.removes i then Function.update files i none else files

/-- `rename` of number `i` to the next number, where it exists. -/
def rename (d : Draw) (i : Nat) (files : Files) : Files :=
  match files i with
  | none => files
  | some file => if d.renames i then Function.update (Function.update files (i + 1) (some file)) i none else files

/-- The loop of `RotateLocked`, from this number down to 1. -/
def rotateFrom (d : Draw) : Nat → Files → Files
  | 0, files => files
  | i + 1, files => rotateFrom d i (rename d (i + 1) (remove d (i + 2) files))

def rotateLocked (d : Draw) (files : Files) : Files :=
  match files 0 with
  | none => files
  | some file =>
    if d.sizeKnown && decide (size file < maxLogBytes) then files
    else rename d 0 (remove d 1 (rotateFrom d (logFiles - 1) files))

/-- The active file after these records were appended to it, which creates it. -/
def append (records : List Bytes) (files : Files) : Files :=
  Function.update files 0 (some ((files 0).getD [] ++ records))

/-- What the files below a number hold, the oldest first. -/
def kept : Nat → Files → List Bytes
  | 0, _ => []
  | n + 1, files => (files n).getD [] ++ kept n files

/-! ## The console -/

inductive Sink where
  | cout
  | cerr
  | wcout
  | wcerr
  deriving DecidableEq

def Sink.severity : Sink → String
  | .cout => "INFO"
  | .cerr => "ERROR"
  | .wcout => "INFO"
  | .wcerr => "ERROR"

/-- `Process`: the lines that the text completes, and the one it leaves. -/
def process : List Nat → List Nat → List (List Nat) × List Nat
  | line, [] => ([], line)
  | line, c :: text =>
    if c = 10 then
      let r := process [] text
      (if line = [] then r.1 else line :: r.1, r.2)
    else if c = 13 then process line text
    else process (line ++ [c]) text

/-! ## Logging -/

inductive Value where
  | text (b : Bytes)
  | number (n : Nat)

/-- What the records go through: the conversion of wide text, `Redact` and `dump`, which throws where a text is not
UTF-8. -/
structure Library where
  utf8 : List Nat → Bytes
  redact : Bytes → Bytes
  dump : List (String × Value) → Option Bytes

structure Entry where
  severity : String
  category : String
  message : Bytes
  details : Bytes := []

structure Tee where
  line : List Nat := []
  /-- History: the text that was passed on, and the lines that were logged. -/
  accepted : List Nat := []
  logged : List (List Nat) := []

structure Logger where
  initialized : Bool := false
  tees : Option (Sink → Tee) := none
  files : Files := fun _ => none
  recordsWritten : Nat := 0
  writeFailures : Nat := 0
  /-- History: what reached the disk, and the calls that went as far as the files. -/
  written : List Bytes := []
  entries : List Entry := []

variable (lib : Library) (pid : Nat)

def record (d : Draw) (e : Entry) : List (String × Value) :=
  [("category", .text (Bytes.ascii e.category))] ++
    (if e.details = [] then [] else [("details", .text (lib.redact e.details))]) ++
    [("message", .text (lib.redact e.message)), ("pid", .number pid), ("severity", .text (Bytes.ascii e.severity)),
      ("thread", .number d.thread), ("timestamp", .text (Bytes.ascii d.timestamp))]

namespace Logger

/-- `Initialize`, which captures the console. -/
def init (s : Logger) (d : Draw) : Option Logger :=
  if s.initialized then some s
  else if d.directory then some { s with initialized := true, tees := some (s.tees.getD fun _ => {}) }
  else none

/-- `Log` once the log is initialized. -/
def write (s : Logger) (d : Draw) (e : Entry) : Logger :=
  let s := { s with files := rotateLocked d s.files, entries := s.entries ++ [e] }
  if !d.opens then { s with writeFailures := s.writeFailures + 1 }
  else match lib.dump (record lib pid d e) with
    | none => { s with files := append [] s.files, writeFailures := s.writeFailures + 1 }
    | some line =>
      let stored := (line ++ [10]).take d.written
      { s with
        files := append [stored] s.files
        recordsWritten := s.recordsWritten + 1
        written := s.written ++ [stored] }

def log (s : Logger) (d : Draw) (e : Entry) : Logger :=
  match s.init d with
  | none => s
  | some s => s.write lib pid d e

/-- A line of the console as `Log` is called with it. -/
def consoleEntry (sink : Sink) (line : List Nat) : Entry where
  severity := sink.severity
  category := "CONSOLE"
  message :=
    match sink with
    | .cout | .cerr => line.map UInt8.ofNat
    | .wcout | .wcerr => lib.utf8 line

def logLines (sink : Sink) : Logger → List (Draw × List Nat) → Logger
  | s, [] => s
  | s, (d, line) :: lines => logLines sink (s.log lib pid d (consoleEntry lib sink line)) lines

/-- The text that the console has taken, with a draw for each line it completes. -/
def console (s : Logger) (sink : Sink) (text : List Nat) (draws : Nat → Draw) : Logger :=
  match s.tees with
  | none => s
  | some tees =>
    let tee := tees sink
    let r := process tee.line text
    let tee := { line := r.2, accepted := tee.accepted ++ text, logged := tee.logged ++ r.1 }
    logLines lib pid sink { s with tees := some (Function.update tees sink tee) } (r.1.mapIdx fun i line => (draws i, line))

end Logger

inductive Event where
  | init (d : Draw)
  | log (d : Draw) (e : Entry)
  | console (sink : Sink) (text : List Nat) (draws : Nat → Draw)
  | shutdown

def step (s : Logger) : Event → Option Logger
  | .init d => some ((s.init d).getD s)
  | .log d e => some (s.log lib pid d e)
  | .console sink text draws => some (s.console lib pid sink text draws)
  | .shutdown => some { s with initialized := false, tees := none }

/-! ## What the files keep -/

section
variable {lib pid} {d : Draw} {files other : Files} {n i : Nat}

theorem kept_congr (h : ∀ i < n, files i = other i) : kept n files = kept n other := by
  induction n with
  | zero => rfl
  | succ n ih => rw [kept, kept, h n n.lt_succ_self, ih fun i hi => h i (Nat.lt_succ_of_lt hi)]

theorem kept_remove (n : Nat) : (kept n (remove d i files)).Sublist (kept n files) := by
  unfold remove
  split
  · induction n with
    | zero => exact .slnil
    | succ n ih =>
      refine List.Sublist.append ?_ ih
      by_cases hn : n = i
      · subst hn
        rw [Function.update_self]
        exact List.nil_sublist _
      · rw [Function.update_of_ne hn]
  · exact .refl _

/-- A file that is renamed comes where the older one was, which is lost with it. -/
theorem kept_rename (hn : i + 2 ≤ n) : (kept n (rename d i files)).Sublist (kept n files) := by
  unfold rename
  split
  · exact .refl _
  · rename_i file hfile
    split
    · induction n, hn using Nat.le_induction with
      | base =>
        have hbelow : kept i (Function.update (Function.update files (i + 1) (some file)) i none) = kept i files :=
          kept_congr fun j hj => by
            rw [Function.update_of_ne (Nat.ne_of_lt hj), Function.update_of_ne (Nat.ne_of_lt (Nat.lt_succ_of_lt hj))]
        rw [kept, kept, kept, kept, hbelow, Function.update_of_ne (Nat.succ_ne_self i), Function.update_self,
          Function.update_self, hfile]
        exact List.sublist_append_right _ _
      | succ n hn ih =>
        refine List.Sublist.append ?_ ih
        rw [Function.update_of_ne (by omega), Function.update_of_ne (by omega)]
    · exact .refl _

theorem kept_rotateFrom {k : Nat} (hk : k + 2 ≤ n) (files : Files) :
    (kept n (rotateFrom d k files)).Sublist (kept n files) := by
  induction k generalizing files with
  | zero => exact .refl _
  | succ k ih => exact (ih (by omega) _).trans ((kept_rename (by omega)).trans (kept_remove n))

/-- **Rotating reorders nothing**, whatever fails in it. -/
theorem kept_rotateLocked (d : Draw) (files : Files) : (kept 6 (rotateLocked d files)).Sublist (kept 6 files) := by
  unfold rotateLocked
  split
  · exact .refl _
  · split
    · exact .refl _
    · exact (kept_rename (by decide)).trans ((kept_remove 6).trans (kept_rotateFrom (by decide) files))

theorem kept_append (records : List Bytes) (n : Nat) (files : Files) :
    kept (n + 1) (append records files) = kept (n + 1) files ++ records := by
  induction n with
  | zero =>
    rw [kept, kept, kept, kept, append, Function.update_self, Option.getD_some, List.append_nil, List.append_nil]
  | succ n ih =>
    rw [kept, ih, append, Function.update_of_ne n.succ_ne_zero, ← List.append_assoc]
    rfl

/-! ### Rotating where nothing fails -/

structure Draw.Works (d : Draw) : Prop where
  sizeKnown : d.sizeKnown = true
  removes : ∀ i, d.removes i = true
  renames : ∀ i, d.renames i = true

theorem rename_remove (hd : d.Works) (i : Nat) (files : Files) :
    rename d i (remove d (i + 1) files) = Function.update (Function.update files (i + 1) (files i)) i none := by
  rw [remove, if_pos (hd.removes _), rename, Function.update_of_ne (Nat.succ_ne_self i).symm]
  split
  · rename_i hnone
    rw [hnone, ← hnone]
    funext j
    by_cases hj : j = i
    · subst hj
      rw [Function.update_self, Function.update_of_ne (Nat.succ_ne_self j).symm, hnone]
    · rw [Function.update_of_ne hj]
  · rename_i file hfile
    rw [if_pos (hd.renames _), hfile, Function.update_idem]

theorem rotateFrom_works (hd : d.Works) (k : Nat) (files : Files) (j : Nat) : rotateFrom d k files j =
    if 2 ≤ j ∧ j ≤ k + 1 then files (j - 1) else if j = 1 ∧ 1 ≤ k then none else files j := by
  induction k generalizing files with
  | zero => rw [rotateFrom, if_neg (by omega), if_neg (by omega)]
  | succ k ih =>
    rw [rotateFrom, rename_remove hd, ih]
    simp only [Function.update_apply]
    grind

/-- Where nothing fails every file goes up by one, and the fifth is lost. -/
theorem rotateLocked_works (hd : d.Works) {file : List Bytes} (hfile : files 0 = some file)
    (hbig : maxLogBytes ≤ size file) (j : Nat) :
    rotateLocked d files j = if j = 0 then none else if j ≤ 5 then files (j - 1) else files j := by
  have hrotate : rotateLocked d files = rename d 0 (remove d 1 (rotateFrom d 4 files)) := by
    rw [rotateLocked, hfile]
    exact if_neg (by simp [hd.sizeKnown, Nat.not_lt.2 hbig])
  rw [hrotate, rename_remove hd]
  simp only [Function.update_apply, rotateFrom_works hd]
  grind

/-- The log of a host on which no operation on its files has failed. -/
structure Retained (files : Files) (written : List Bytes) : Prop where
  suffix : kept 6 files <:+ written
  full : ∀ i file, 1 ≤ i → i ≤ 5 → files i = some file → maxLogBytes ≤ size file
  packed : ∀ i, 1 ≤ i → i < 5 → files i = none → files (i + 1) = none
  complete : files 5 = none → kept 6 files = written
  bounded : ∀ i file, files i = some file → size file.dropLast < maxLogBytes

variable {written : List Bytes}

theorem kept_six (files : Files) : kept 6 files = (files 5).getD [] ++ ((files 4).getD [] ++ ((files 3).getD [] ++
    ((files 2).getD [] ++ ((files 1).getD [] ++ ((files 0).getD [] ++ []))))) := rfl

theorem Retained.rotate (h : Retained files written) (hd : d.Works) : Retained (rotateLocked d files) written ∧
    ∀ file, rotateLocked d files 0 = some file → size file < maxLogBytes := by
  cases hfile : files 0 with
  | none =>
    have hsame : rotateLocked d files = files := by rw [rotateLocked, hfile]
    rw [hsame]
    exact ⟨h, fun file hf => by rw [hfile] at hf; cases hf⟩
  | some active =>
    by_cases hbig : maxLogBytes ≤ size active
    · have hshift := rotateLocked_works hd hfile hbig
      refine ⟨?_, fun file hf => by rw [hshift, if_pos rfl] at hf; cases hf⟩
      have hkept : kept 6 files = (files 5).getD [] ++ kept 6 (rotateLocked d files) := by
        simp [kept_six, hshift]
      refine ⟨?_, ?_, ?_, ?_, ?_⟩
      · exact (hkept ▸ List.suffix_append _ _).trans h.suffix
      · intro i file h1 h5 hi
        rw [hshift, if_neg (by omega), if_pos h5] at hi
        rcases Nat.eq_or_lt_of_le h1 with rfl | hgt
        · obtain rfl := Option.some.inj (hi.symm.trans hfile)
          exact hbig
        · exact h.full (i - 1) file (by omega) (by omega) hi
      · intro i h1 h5 hi
        rw [hshift, if_neg (by omega), if_pos (by omega)] at hi ⊢
        rcases Nat.eq_or_lt_of_le h1 with rfl | hgt
        · rw [hfile] at hi
          cases hi
        · have := h.packed (i - 1) (by omega) (by omega) hi
          rwa [show i - 1 + 1 = i + 1 - 1 by omega] at this
      · intro hfive
        rw [hshift, if_neg (by omega), if_pos (Nat.le_refl 5)] at hfive
        have hnone : files 5 = none := h.packed 4 (by omega) (by omega) hfive
        rw [← h.complete hnone, hkept, hnone]
        rfl
      · intro i file hi
        rw [hshift] at hi
        split at hi
        · cases hi
        · split at hi
          · exact h.bounded _ _ hi
          · exact h.bounded _ _ hi
    · have hsame : rotateLocked d files = files := by
        rw [rotateLocked, hfile]
        exact if_pos (by simp [hd.sizeKnown, Nat.lt_of_not_le hbig])
      rw [hsame]
      exact ⟨h, fun file hf => Option.some.inj (hfile.symm.trans hf) ▸ Nat.lt_of_not_le hbig⟩

theorem Retained.append (h : Retained files written) (hsmall : ∀ file, files 0 = some file → size file < maxLogBytes)
    (records : List Bytes) (hone : records.length ≤ 1) : Retained (append records files) (written ++ records) where
  suffix := by
    rw [kept_append]
    obtain ⟨lost, hlost⟩ := h.suffix
    exact ⟨lost, by rw [← hlost, List.append_assoc]⟩
  full i file h1 h5 hi := by
    rw [Diagnostics.append, Function.update_of_ne (by omega)] at hi
    exact h.full i file h1 h5 hi
  packed i h1 h5 hi := by
    rw [Diagnostics.append, Function.update_of_ne (by omega)] at hi ⊢
    exact h.packed i h1 h5 hi
  complete hfive := by
    rw [Diagnostics.append, Function.update_of_ne (by omega)] at hfive
    rw [kept_append, h.complete hfive]
  bounded i file hi := by
    by_cases h0 : i = 0
    · subst h0
      rw [Diagnostics.append, Function.update_self] at hi
      obtain rfl := Option.some.inj hi
      match records, hone with
      | [], _ =>
        rw [List.append_nil]
        cases hf : files 0 with
        | none => exact Nat.zero_lt_succ _
        | some file => exact h.bounded 0 file hf
      | [record], _ =>
        rw [List.dropLast_concat]
        cases hf : files 0 with
        | none => exact Nat.zero_lt_succ _
        | some file => exact hsmall file hf
    · rw [Diagnostics.append, Function.update_of_ne h0] at hi
      exact h.bounded i file hi

end

/-! ## Runs -/

section
variable {lib pid} {s t : Logger} {d : Draw} {e : Entry} {ok : Draw → Prop}

/-- All that a write does to the files: they are rotated, and at most one record is appended. -/
theorem write_cases (lib : Library) (pid : Nat) (s : Logger) (d : Draw) (e : Entry) :
    ∃ records : List Bytes, records.length ≤ 1 ∧ (s.write lib pid d e).written = s.written ++ records ∧
    (s.write lib pid d e).recordsWritten = s.recordsWritten + records.length ∧
    ((s.write lib pid d e).files = append records (rotateLocked d s.files) ∨
      (records = [] ∧ (s.write lib pid d e).files = rotateLocked d s.files)) := by
  unfold Logger.write
  dsimp only
  split
  · exact ⟨[], Nat.zero_le 1, (List.append_nil _).symm, rfl, .inr ⟨rfl, rfl⟩⟩
  · split
    · exact ⟨[], Nat.zero_le 1, (List.append_nil _).symm, rfl, .inl rfl⟩
    · exact ⟨[_], Nat.le_refl 1, rfl, rfl, .inl rfl⟩

/-- A property of the files and the counters that every write keeps. -/
def Keeps (lib : Library) (pid : Nat) (ok : Draw → Prop) (P : Files → List Bytes → Nat → Prop) : Prop :=
  ∀ (s : Logger) d e, ok d → P s.files s.written s.recordsWritten →
    P (s.write lib pid d e).files (s.write lib pid d e).written (s.write lib pid d e).recordsWritten

def Event.All (ok : Draw → Prop) : Event → Prop
  | .init _ => True
  | .log d _ => ok d
  | .console _ _ draws => ∀ i, ok (draws i)
  | .shutdown => True

theorem init_cases (hs : s.init d = some t) : t.files = s.files ∧ t.written = s.written ∧
    t.recordsWritten = s.recordsWritten ∧ t.entries = s.entries := by
  unfold Logger.init at hs
  split at hs
  · exact Option.some.inj hs ▸ ⟨rfl, rfl, rfl, rfl⟩
  · split at hs
    · exact Option.some.inj hs ▸ ⟨rfl, rfl, rfl, rfl⟩
    · cases hs

variable {P : Files → List Bytes → Nat → Prop}

theorem Keeps.log (h : Keeps lib pid ok P) (hd : ok d) (hP : P s.files s.written s.recordsWritten) :
    P (s.log lib pid d e).files (s.log lib pid d e).written (s.log lib pid d e).recordsWritten := by
  unfold Logger.log
  split
  · exact hP
  · rename_i u hu
    obtain ⟨hf, hw, hr, -⟩ := init_cases hu
    exact h u d e hd (by rwa [hf, hw, hr])

theorem Keeps.logLines (h : Keeps lib pid ok P) (sink : Sink) {lines : List (Draw × List Nat)}
    (hlines : ∀ x ∈ lines, ok x.1) (hP : P s.files s.written s.recordsWritten) :
    P (s.logLines lib pid sink lines).files (s.logLines lib pid sink lines).written
      (s.logLines lib pid sink lines).recordsWritten := by
  induction lines generalizing s with
  | nil => exact hP
  | cons x lines ih =>
    obtain ⟨d, line⟩ := x
    exact ih (fun y hy => hlines y (List.mem_cons_of_mem _ hy)) (h.log (hlines _ List.mem_cons_self) hP)

theorem Keeps.step (h : Keeps lib pid ok P) {event : Event} (hok : event.All ok)
    (hP : P s.files s.written s.recordsWritten) (hs : step lib pid s event = some t) :
    P t.files t.written t.recordsWritten := by
  cases event with
  | init d =>
    obtain rfl := Option.some.inj hs
    cases hu : s.init d with
    | none => exact hP
    | some u =>
      obtain ⟨hf, hw, hr, -⟩ := init_cases hu
      rwa [Option.getD_some, hf, hw, hr]
  | log d e =>
    obtain rfl := Option.some.inj hs
    exact h.log hok hP
  | console sink text draws =>
    obtain rfl := Option.some.inj hs
    unfold Logger.console
    split
    · exact hP
    · refine h.logLines sink (fun x hx => ?_) hP
      obtain ⟨i, hi, rfl⟩ := List.mem_mapIdx.1 hx
      exact hok i
  | shutdown => exact Option.some.inj hs ▸ hP

/-- What is kept comes in the order it was written in. -/
def InOrder (files : Files) (written : List Bytes) (recordsWritten : Nat) : Prop :=
  (kept 6 files).Sublist written ∧ recordsWritten = written.length

theorem keeps_inOrder : Keeps lib pid (fun _ => True) InOrder := by
  rintro s d e - ⟨hkept, hcount⟩
  obtain ⟨records, -, hwritten, hrecords, hfiles⟩ := write_cases lib pid s d e
  have hrotated : (kept 6 (rotateLocked d s.files)).Sublist s.written := (kept_rotateLocked d s.files).trans hkept
  refine ⟨?_, by rw [hrecords, hwritten, List.length_append, hcount]⟩
  rcases hfiles with hfiles | ⟨rfl, hfiles⟩
  · rw [hfiles, kept_append, hwritten]
    exact hrotated.append (.refl _)
  · rw [hfiles, hwritten, List.append_nil]
    exact hrotated

theorem keeps_retained : Keeps lib pid Draw.Works fun files written _ => Retained files written := by
  intro s d e hd h
  obtain ⟨records, hone, hwritten, -, hfiles⟩ := write_cases lib pid s d e
  obtain ⟨hrotated, hsmall⟩ := h.rotate hd
  rcases hfiles with hfiles | ⟨rfl, hfiles⟩
  · rw [hfiles, hwritten]
    exact hrotated.append hsmall records hone
  · rw [hfiles, hwritten, List.append_nil]
    exact hrotated

theorem size_append (a b : List Bytes) : size (a ++ b) = size a + size b := by
  rw [size, size, size, List.map_append, List.sum_append]

/-- Either nothing has been lost or all five rotated files are full. -/
theorem Retained.enough {files : Files} {written : List Bytes} (h : Retained files written) :
    kept 6 files = written ∨ 5 * maxLogBytes ≤ size (kept 6 files) := by
  by_cases h5 : files 5 = none
  · exact .inl (h.complete h5)
  · right
    have h4 : files 4 ≠ none := fun hnone => h5 (h.packed 4 (by decide) (by decide) hnone)
    have h3 : files 3 ≠ none := fun hnone => h4 (h.packed 3 (by decide) (by decide) hnone)
    have h2 : files 2 ≠ none := fun hnone => h3 (h.packed 2 (by decide) (by decide) hnone)
    have h1 : files 1 ≠ none := fun hnone => h2 (h.packed 1 (by decide) (by decide) hnone)
    have hfull (i : Nat) (hpos : 1 ≤ i) (hle : i ≤ 5) (hi : files i ≠ none) : maxLogBytes ≤ size ((files i).getD []) := by
      obtain ⟨file, hfile⟩ := Option.ne_none_iff_exists'.1 hi
      rw [hfile]
      exact h.full i file hpos hle hfile
    have := hfull 5 (by decide) (by decide) h5
    have := hfull 4 (by decide) (by decide) h4
    have := hfull 3 (by decide) (by decide) h3
    have := hfull 2 (by decide) (by decide) h2
    have := hfull 1 (by decide) (by decide) h1
    rw [kept_six, size_append, size_append, size_append, size_append, size_append]
    omega

/-- **The log never reorders, repeats or invents a record**, whatever fails on its files; where nothing fails it keeps the
newest records, all of them or at least those of the last 25 MiB, and no file grows once it has 5 MiB. -/
theorem log_kept (lib : Library) (pid : Nat) (events : List Event) :
    Throughout (step lib pid)
        (fun s => (kept 6 s.files).Sublist s.written ∧ s.recordsWritten = s.written.length) {} events ∧
      ((∀ event ∈ events, event.All Draw.Works) →
        Throughout (step lib pid) (fun s => kept 6 s.files <:+ s.written ∧
          (kept 6 s.files = s.written ∨ 5 * maxLogBytes ≤ size (kept 6 s.files)) ∧
          ∀ i file, s.files i = some file → size file.dropLast < maxLogBytes) {} events) := by
  constructor
  · have hinit : InOrder (fun _ => none) [] 0 := ⟨.slnil, rfl⟩
    refine Throughout.of_along (c := fun _ _ => True) (fun s event t h _ hs => ?_) hinit along_true
    have hall : event.All fun _ => True := by cases event <;> simp [Event.All]
    exact keeps_inOrder.step hall h hs
  · intro hworks
    have hinit : Retained (fun _ => none) [] :=
      ⟨List.suffix_rfl, nofun, fun _ _ _ _ => rfl, fun _ => rfl, nofun⟩
    have hall : Throughout (step lib pid) (fun s : Logger => Retained s.files s.written) {} events :=
      Throughout.of_along (c := fun _ event => event.All Draw.Works)
        (fun s event t h hok hs => keeps_retained.step hok h hs) hinit (along_of_forall hworks)
    exact hall.mono fun s h => ⟨h.suffix, h.enough, h.bounded⟩

end

/-- `dump` of texts that need no escape. -/
def sampleValue : Value → Bytes
  | .text b => Bytes.ascii "\"" ++ b ++ Bytes.ascii "\""
  | .number n => Bytes.ascii (toString n)

def sampleLibrary : Library where
  utf8 line := line.map UInt8.ofNat
  redact := id
  dump fields := some (Bytes.ascii "\x7b" ++
    (List.intercalate (Bytes.ascii ",") (fields.map fun f => Bytes.ascii ("\"" ++ f.1 ++ "\":") ++ sampleValue f.2)) ++
    Bytes.ascii "\x7d")

def sampleDraw : Draw := ⟨true, true, fun _ => true, fun _ => true, true, 1000, "2026-01-02T03:04:05", 7⟩

def sampleEvents : List Event :=
  [.init sampleDraw, .log sampleDraw ⟨"INFO", "GAME", Bytes.ascii "started", []⟩,
   .console .cerr [104, 105, 13, 10, 10, 104] fun _ => sampleDraw]

theorem log_kept_sample :
    Throughout (step sampleLibrary 1)
        (fun s => (kept 6 s.files).Sublist s.written ∧ s.recordsWritten = s.written.length) {} sampleEvents ∧
      Throughout (step sampleLibrary 1) (fun s => kept 6 s.files <:+ s.written ∧
          (kept 6 s.files = s.written ∨ 5 * maxLogBytes ≤ size (kept 6 s.files)) ∧
          ∀ i file, s.files i = some file → size file.dropLast < maxLogBytes) {} sampleEvents :=
  ⟨(log_kept sampleLibrary 1 sampleEvents).1, (log_kept sampleLibrary 1 sampleEvents).2 (by
    have hworks : sampleDraw.Works := ⟨rfl, fun _ => rfl, fun _ => rfl⟩
    simp only [sampleEvents, List.forall_mem_cons]
    exact ⟨trivial, hworks, fun _ => hworks, nofun⟩)⟩

example : ((after (step sampleLibrary 1) {} sampleEvents).map fun s => (s.files 0).map List.length) =
    some (some 2) := by decide +kernel

/-! ## The lines of the console -/

theorem process_append (line a b : List Nat) : process line (a ++ b) =
    ((process line a).1 ++ (process (process line a).2 b).1, (process (process line a).2 b).2) := by
  induction a generalizing line with
  | nil => rfl
  | cons c a ih =>
    rw [List.cons_append, process, process]
    split
    · rw [ih]
      split
      · rfl
      · rfl
    · split
      · exact ih line
      · exact ih _

section
variable {lib pid} {s t : Logger} {d : Draw} {e : Entry} {sink : Sink}

/-- The tees stand while the log is initialized, and what one logged is what its text asks for. -/
structure Teed (lib : Library) (s : Logger) : Prop where
  initialized : ∀ tees, s.tees = some tees → s.initialized = true
  lines : ∀ tees, s.tees = some tees → ∀ sink, process [] (tees sink).accepted = ((tees sink).logged, (tees sink).line)
  entries : ∀ tees, s.tees = some tees → ∀ sink,
    ((tees sink).logged.map (Logger.consoleEntry lib sink)).Sublist s.entries

theorem write_keeps (lib : Library) (pid : Nat) (s : Logger) (d : Draw) (e : Entry) :
    (s.write lib pid d e).initialized = s.initialized ∧ (s.write lib pid d e).tees = s.tees ∧
      (s.write lib pid d e).entries = s.entries ++ [e] := by
  unfold Logger.write
  dsimp only
  split
  · exact ⟨rfl, rfl, rfl⟩
  · split <;> exact ⟨rfl, rfl, rfl⟩

theorem Teed.init (h : Teed lib s) (hs : s.init d = some t) : Teed lib t ∧ t.initialized = true := by
  unfold Logger.init at hs
  split at hs
  · rename_i hinit
    exact Option.some.inj hs ▸ ⟨h, hinit⟩
  · split at hs
    · obtain rfl := Option.some.inj hs
      cases htees : s.tees with
      | none =>
        refine ⟨⟨fun _ _ => rfl, ?_, ?_⟩, rfl⟩
        · intro tees ht sink
          obtain rfl := Option.some.inj ht
          rfl
        · intro tees ht sink
          obtain rfl := Option.some.inj ht
          exact List.nil_sublist _
      | some old => exact absurd (h.initialized old htees) ‹_›
    · cases hs

theorem Teed.write (h : Teed lib s) : Teed lib (s.write lib pid d e) := by
  obtain ⟨hinit, htees, hentries⟩ := write_keeps lib pid s d e
  refine ⟨fun tees ht => hinit ▸ h.initialized tees (htees ▸ ht), fun tees ht => h.lines tees (htees ▸ ht), ?_⟩
  intro tees ht sink
  rw [hentries]
  exact (h.entries tees (htees ▸ ht) sink).trans (List.sublist_append_left _ _)

theorem Teed.log (h : Teed lib s) : Teed lib (s.log lib pid d e) := by
  unfold Logger.log
  split
  · exact h
  · rename_i u hu
    exact (h.init hu).1.write

/-- While the log is initialized each line is handed to the files. -/
theorem logLines_keeps (lib : Library) (pid : Nat) (sink : Sink) (lines : List (Draw × List Nat)) {s : Logger}
    (hs : s.initialized = true) :
    (s.logLines lib pid sink lines).initialized = true ∧ (s.logLines lib pid sink lines).tees = s.tees ∧
      (s.logLines lib pid sink lines).entries = s.entries ++ lines.map fun x => Logger.consoleEntry lib sink x.2 := by
  induction lines generalizing s with
  | nil => exact ⟨hs, rfl, (List.append_nil _).symm⟩
  | cons x lines ih =>
    obtain ⟨d, line⟩ := x
    have hlog : s.log lib pid d (Logger.consoleEntry lib sink line) =
        s.write lib pid d (Logger.consoleEntry lib sink line) := by
      rw [Logger.log, Logger.init, if_pos hs]
    obtain ⟨hinit, htees, hentries⟩ := write_keeps lib pid s d (Logger.consoleEntry lib sink line)
    rw [Logger.logLines, hlog]
    obtain ⟨hinit', htees', hentries'⟩ := ih (hinit.trans hs)
    refine ⟨hinit', htees'.trans htees, ?_⟩
    rw [hentries', hentries, List.map_cons, List.append_assoc, List.singleton_append]

theorem Teed.console (h : Teed lib s) (text : List Nat) (draws : Nat → Draw) :
    Teed lib (s.console lib pid sink text draws) := by
  unfold Logger.console
  split
  · exact h
  · rename_i tees htees
    dsimp only
    generalize hr : process (tees sink).line text = r
    obtain ⟨completed, line⟩ := r
    dsimp only
    have hlogged := logLines_keeps lib pid sink
      (completed.mapIdx fun i line => (draws i, line))
      (s := { s with tees := some (Function.update tees sink ⟨line, (tees sink).accepted ++ text,
        (tees sink).logged ++ completed⟩) }) (h.initialized tees htees)
    obtain ⟨hinit, htees', hentries⟩ := hlogged
    have hmap : (completed.mapIdx fun i line => (draws i, line)).map (fun x => Logger.consoleEntry lib sink x.2) =
        completed.map (Logger.consoleEntry lib sink) := List.ext_getElem (by simp) fun i h _ => by simp
    rw [hmap] at hentries
    refine ⟨fun _ _ => hinit, ?_, ?_⟩
    · intro now hnow u
      obtain rfl := Option.some.inj (hnow.symm.trans htees')
      by_cases hu : u = sink
      · subst hu
        rw [Function.update_self, process_append, h.lines tees htees, hr]
      · rw [Function.update_of_ne hu]
        exact h.lines tees htees u
    · intro now hnow u
      obtain rfl := Option.some.inj (hnow.symm.trans htees')
      rw [hentries]
      by_cases hu : u = sink
      · subst hu
        rw [Function.update_self, List.map_append]
        exact (h.entries tees htees u).append (.refl _)
      · rw [Function.update_of_ne hu]
        exact (h.entries tees htees u).trans (List.sublist_append_left _ _)

theorem Teed.step (h : Teed lib s) {event : Event} (hs : Diagnostics.step lib pid s event = some t) : Teed lib t := by
  cases event with
  | init d =>
    obtain rfl := Option.some.inj hs
    cases hu : s.init d with
    | none => exact h
    | some u => exact (h.init hu).1
  | log d e => exact Option.some.inj hs ▸ h.log
  | console sink text draws => exact Option.some.inj hs ▸ h.console text draws
  | shutdown => exact Option.some.inj hs ▸ ⟨nofun, nofun, nofun⟩

end

end Diagnostics
end Host
end CloudGaming
