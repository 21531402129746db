import CloudGaming.Host.Files
import CloudGaming.Host.GameInventory
import CloudGaming.Host.JsonText
/-!
# SavedFiles — the configuration and the game inventory on the disk

Both look at their stream before the move, `ConfigStore::Save` after a flush and `SaveState` after the close, so that
neither replaces a file by less than it wrote.  What the JSON library writes for a document, and what it reads back, are
parameters.
-/
namespace CloudGaming
namespace Host

open Async (Prog Ending Explained perform perform_explained map_fst_perform allDrawn_of_draws AllDrawn)
open Files

/-! ## The inventory -/

namespace GameInventory

/-- `SaveState` from the directory on; `none` is a text that `dump` refuses, after the stream has been opened. -/
def saveText (text : Option Bytes) : Prog sig (Except String Unit) := do
  match ← Prog.send (σ := sig) .createDirectories with
  | .error what => pure (.error what)
  | .ok _ =>
    match ← Prog.send (σ := sig) (.protect .directory) with
    | .error aclError => pure (.error aclError)
    | .ok _ =>
      let _ ← Prog.send (σ := sig) .openTemporary
      match text with
      | none =>
        let _ ← Prog.send (σ := sig) .close
        pure (.error "invalid UTF-8")
      | some text =>
        let _ ← Prog.send (σ := sig) (.write text)
        let good ← Prog.send (σ := sig) .close
        if good then
          match ← Prog.send (σ := sig) .move with
          | .error _ =>
            let _ ← Prog.send (σ := sig) .deleteTemporary
            pure (.error "Could not save game inventory")
          | .ok _ => Prog.send (σ := sig) (.protect .file)
        else
          let _ ← Prog.send (σ := sig) .deleteTemporary
          pure (.error "Could not save game inventory")

/-- **`SaveState` replaces the inventory as a whole**, whatever the system makes of its calls. -/
theorem saveText_replaces {sys : Files.System} {ok : Files.Cmd → Draw → Prop} {text : Bytes} {d : Disk} {old : Option Bytes}
    (hold : d.file = old) : (saveText (some text)).wp (device sys) ok (Replaces old text) d := by
  refine wp_before nofun hold fun _ r _ _ hold => ?_
  cases r with
  | error what => exact wp_refused (.inl hold)
  | ok _ =>
    refine wp_before nofun hold fun _ r _ _ hold => ?_
    cases r with
    | error aclError => exact wp_refused (.inl hold)
    | ok _ =>
      refine wp_before nofun hold fun _ opened _ hopen hold => ?_
      refine wp_before nofun hold fun _ _ _ hwrite hold => ?_
      refine wp_before nofun hold fun l good _ hclose hold => ?_
      cases good with
      | false => exact wp_before_refused nofun (.inl hold)
      | true =>
        have hwritten := written_of_close hclose (good_write (good_open hopen) hwrite)
        refine wp_move hold hwritten (fun _ h => wp_protect_file h) fun _ _ h => wp_before_refused nofun h

end GameInventory

/-! ## The configuration -/

namespace ConfigStore

/-- `Save` from the directory on. -/
def saveText (text : Bytes) : Prog sig (Except String Unit) := do
  match ← Prog.send (σ := sig) .createDirectories with
  | .error what => pure (.error what)
  | .ok _ =>
    match ← Prog.send (σ := sig) (.protect .directory) with
    | .error aclError => pure (.error aclError)
    | .ok _ =>
      let opened ← Prog.send (σ := sig) .openTemporary
      if opened then
        let _ ← Prog.send (σ := sig) (.write text)
        let flushed ← Prog.send (σ := sig) .flush
        let _ ← Prog.send (σ := sig) .close
        if flushed then
          match ← Prog.send (σ := sig) (.protect .temporary) with
          | .error aclError =>
            let _ ← Prog.send (σ := sig) .deleteTemporary
            pure (.error aclError)
          | .ok _ =>
            match ← Prog.send (σ := sig) .move with
            | .error code =>
              let _ ← Prog.send (σ := sig) .deleteTemporary
              pure (.error ("Atomic configuration replacement failed: " ++ toString code))
            | .ok _ => Prog.send (σ := sig) (.protect .file)
        else pure (.error "Cannot flush temporary configuration")
      else
        let _ ← Prog.send (σ := sig) .close
        pure (.error "Cannot create temporary configuration")

/-- **`Save` replaces the configuration as a whole**, whatever the system makes of its calls. -/
theorem saveText_replaces {sys : Files.System} {ok : Files.Cmd → Draw → Prop} {text : Bytes} {d : Disk} {old : Option Bytes}
    (hold : d.file = old) : (saveText text).wp (device sys) ok (Replaces old text) d := by
  refine wp_before nofun hold fun _ r _ _ hold => ?_
  cases r with
  | error what => exact wp_refused (.inl hold)
  | ok _ =>
    refine wp_before nofun hold fun _ r _ _ hold => ?_
    cases r with
    | error aclError => exact wp_refused (.inl hold)
    | ok _ =>
      refine wp_before nofun hold fun _ opened _ hopen hold => ?_
      cases opened with
      | false => exact wp_before_refused nofun (.inl hold)
      | true =>
        refine wp_before nofun hold fun _ _ _ hwrite hold => ?_
        refine wp_before nofun hold fun _ flushed _ hflush hold => ?_
        refine wp_before nofun hold fun _ _ _ hclose hold => ?_
        cases flushed with
        | false => exact wp_refused (.inl hold)
        | true =>
          obtain ⟨hwritten, hempty⟩ := temporary_flush (good_write (good_open hopen) hwrite) hflush
          have ht := temporary_close hwritten (.inl hempty) hclose
          refine wp_before nofun hold fun l r _ _ hold => ?_
          rw [show (exec sys (.protect .temporary) l _).2 = _ from Files.file_reports _ _] at hold ⊢
          cases r with
          | error aclError => exact wp_before_refused nofun (.inl hold)
          | ok _ => exact wp_move hold ht (fun _ h => wp_protect_file h) fun _ _ h => wp_before_refused nofun h

section
variable (cast : ℚ → Int) (lib : JsonText)

/-- `Save`; the checks stand before the `try`. -/
def save (config : Document) : Prog sig (Except String Unit) :=
  match (validateAndMigrate cast config).verdict with
  | .rejected error => pure (.error error)
  | .thrown => .throw
  | .valid => saveText (lib.dump (validateAndMigrate cast config).config ++ [10])

/-- `ReadJson` of what is on the disk, `none` where it cannot be opened; `path` is in its errors. -/
def readJson (path : String) : Option Bytes → Except String Document
  | none => .error ("Cannot open " ++ path)
  | some text =>
    if 1024 * 1024 < text.length then .error "Configuration exceeds the 1 MiB limit"
    else
      match lib.parse text with
      | .error what => .error ("Cannot parse " ++ path ++ ": " ++ what)
      | .ok value => if value.value.isObject then .ok value else .error "Configuration root must be an object"

/-- What one `Save` may do to the file. -/
def SaveStep (config : Document) (e : Ending (Except String Unit)) (a b : Option Bytes) : Prop :=
  (b = a ∧ e ≠ .returned (.ok ())) ∨
    (validateAndMigrate cast config).verdict = .valid ∧ b = some (lib.dump (validateAndMigrate cast config).config ++ [10])

variable {cast lib}

theorem save_step {sys : Files.System} {ok : Files.Cmd → Draw → Prop} (config : Document) (d : Disk) (a : Option Bytes)
    (ha : d.file = a) :
    (save cast lib config).wp (device sys) ok (fun e d' => ∃ b, SaveStep cast lib config e a b ∧ d'.file = b) d := by
  unfold save
  cases hv : (validateAndMigrate cast config).verdict with
  | rejected error => exact ⟨a, .inl ⟨rfl, nofun⟩, ha⟩
  | thrown => exact ⟨a, .inl ⟨rfl, nofun⟩, ha⟩
  | valid =>
    refine Prog.wp_mono (fun e d' h => ⟨d'.file, ?_, rfl⟩) (saveText_replaces ha)
    obtain ⟨hfile, hdone⟩ := h
    rcases hfile with hfile | hfile
    · by_cases he : e = .returned (.ok ())
      · exact .inr ⟨hv, hdone he⟩
      · exact .inl ⟨hfile, he⟩
    · exact .inr ⟨hv, hfile⟩

/-- **The configuration on the disk is never torn.**  After any calls of `Save`, whatever the system made of each of them
and wherever the process was killed, the file is the one there was and no call succeeded, or it is what one call wrote
and no later one succeeded; then it reads back as that call's configuration, which passes the checks as it is. -/
theorem saved_configuration {sys : Files.System} (path : String) {d : Disk} {calls : List (Document × List Draw)}
    (hparse : ∀ call ∈ calls, lib.parse (lib.dump (validateAndMigrate cast call.1).config ++ [10]) =
      .ok (validateAndMigrate cast call.1).config) :
    let r := perform (device sys) (save cast lib) d calls
    (r.2.file = d.file ∧ ∀ x ∈ r.1, x.2 ≠ .returned (.ok ())) ∨
      ∃ before x after, r.1 = before ++ x :: after ∧ (∀ y ∈ after, y.2 ≠ .returned (.ok ())) ∧
        r.2.file = some (lib.dump (validateAndMigrate cast x.1).config ++ [10]) ∧
        ((lib.dump (validateAndMigrate cast x.1).config).length < 1024 * 1024 →
          readJson lib path r.2.file = .ok (validateAndMigrate cast x.1).config) ∧
        validateAndMigrate cast (validateAndMigrate cast x.1).config =
          ⟨(validateAndMigrate cast x.1).config, false, .valid⟩ := by
  dsimp only
  have hmap := map_fst_perform (device sys) (save cast lib) d calls
  have hdrawn : AllDrawn (device sys) (fun _ _ => True) (save cast lib) d calls :=
    allDrawn_of_draws _ _ _ fun _ _ _ _ _ => trivial
  obtain ⟨b, hes, hb⟩ := perform_explained (fun d a => d.file = a) (fun config d a => save_step config d a) rfl hdrawn
  rcases hes.last (fun e : Ending (Except String Unit) => e = .returned (.ok ()))
      (fun config b => (validateAndMigrate cast config).verdict = .valid ∧
        b = some (lib.dump (validateAndMigrate cast config).config ++ [10])) (fun _ _ _ _ h => h) with
    ⟨rfl, hnone⟩ | ⟨before, x, after, heq, ⟨hvalid, rfl⟩, hnone⟩
  · exact .inl ⟨hb, hnone⟩
  · have hx : x.1 ∈ calls.map Prod.fst := by
      rw [← hmap, heq]
      exact List.mem_map_of_mem (List.mem_append_right _ List.mem_cons_self)
    obtain ⟨call, hcall, hxcall⟩ := List.mem_map.1 hx
    have hread := hparse call hcall
    rw [hxcall] at hread
    have hobj := isObject_of_valid cast hvalid
    refine .inr ⟨before, x, after, heq, hnone, hb, fun hlength => ?_, (validateAndMigrate_valid cast hvalid).1⟩
    rw [hb, readJson, if_neg (by rw [List.length_append, List.length_singleton]; omega), hread]
    exact if_pos hobj

end

/-! ### A configuration -/

def sampleConfiguration : Document where
  value := .obj [("host", .obj [("targetProcessName", .str "game.exe"), ("video", .obj [])]), ("network", .obj []),
    ("schemaVersion", .int 1)]
  ordered := by
    have hempty : Ordered (.obj []) := .obj List.Pairwise.nil nofun
    have hhost : Ordered (.obj [("targetProcessName", .str "game.exe"), ("video", .obj [])]) := by
      refine .obj (by decide) ?_
      simp [Ordered.str, hempty]
    refine .obj (by decide) ?_
    simp [Ordered.int, hhost, hempty]

/-- `dump(2)` of the configuration. -/
def sampleText : Bytes :=
  Bytes.ascii "\x7b\n  \"host\": \x7b\n    \"targetProcessName\": \"game.exe\",\n    \"video\": \x7b\x7d\n  \x7d,\n" ++
    Bytes.ascii "  \"network\": \x7b\x7d,\n  \"schemaVersion\": 1\n\x7d"

/-- A library that knows this text. -/
def sampleLibrary : JsonText where
  parse text := if text = sampleText ++ [10] then .ok sampleConfiguration else .error "parse error"
  dump _ := sampleText

theorem saved_configuration_sample :
    let r := perform (device ⟨fun _ => "", fun _ v => v, some⟩) (save truncate sampleLibrary) ⟨none, none, [], false⟩
      [(sampleConfiguration, List.replicate 12 (.goes 9)), (sampleConfiguration, [.goes 0, .goes 0, .goes 0, .killed 40])]
    (r.2.file = none ∧ ∀ x ∈ r.1, x.2 ≠ .returned (.ok ())) ∨
      ∃ before x after, r.1 = before ++ x :: after ∧ (∀ y ∈ after, y.2 ≠ .returned (.ok ())) ∧
        r.2.file = some (sampleText ++ [10]) ∧
        (sampleText.length < 1024 * 1024 →
          readJson sampleLibrary "config.json" r.2.file = .ok (validateAndMigrate truncate x.1).config) ∧
        validateAndMigrate truncate (validateAndMigrate truncate x.1).config =
          ⟨(validateAndMigrate truncate x.1).config, false, .valid⟩ :=
  saved_configuration "config.json" fun call hcall => by
    have hconfig : call.1 = sampleConfiguration := by
      simp only [List.mem_cons, List.not_mem_nil, or_false] at hcall
      rcases hcall with rfl | rfl <;> rfl
    rw [hconfig, show (validateAndMigrate truncate sampleConfiguration).config = sampleConfiguration from rfl]
    have hread : (if sampleText ++ [10] = sampleText ++ [10] then .ok sampleConfiguration else .error "parse error" :
        Except String Document) = .ok sampleConfiguration := if_pos rfl
    exact hread

end ConfigStore

end Host
end CloudGaming
