import CloudGaming.Async.Along
import CloudGaming.Host.UpdateManager
/-!
# TrayUpdates — updates from the tray window

The window's thread runs the handlers.  A message box pumps messages while it is open, so that handlers nest and the one
that opened it goes on when it is answered; the boxes are a stack.  `updateThread_` checks and installs, and posts what
came of it.
-/
namespace CloudGaming
namespace Host
namespace TrayUpdates

open Async
open ConfigStore (JsonText)
open UpdateManager

/-- `updateThread_` while it can be joined. -/
inductive Job where
  | check (config : Json)
  | install (update : Result)
  | finished

inductive Message where
  | checked (result : Result)
  | installed (error : Option String)

inductive Box where
  | notice
  /-- "Download and install it now?" -/
  | prompt (update : Result)
  /-- "The verified installer has started." -/
  | leaving

/-- An installer that was started, and what the call that did it met. -/
structure Started where
  update : Result
  out : UpdateManager.Outside
  launch : Launch

structure Tray where
  window : Bool := true
  busy : Bool := false
  thread : Option Job := none
  posted : List Message := []
  boxes : List Box := []
  /-- `std::terminate`: the thread was assigned while it could be joined. -/
  terminated : Bool := false
  accepted : List Result := []
  started : List Started := []

inductive Event where
  /-- The button, with what `ConfigStore::Load` gives. -/
  | click (loaded : Except String Json)
  /-- The thread comes to its end; `posts` says whether `PostMessageW` succeeds. -/
  | finish (out : UpdateManager.Outside) (posts : Bool)
  | dispatch
  /-- The innermost box closes. -/
  | answer (yes : Bool)
  | exit

def Job.running : Option Job → Bool
  | some (.check _) => true
  | some (.install _) => true
  | _ => false

namespace Tray

/-- `updateThread_ = std::thread(...)` -/
def startThread (s : Tray) (job : Job) : Tray :=
  if s.thread.isSome then { s with terminated := true } else { s with thread := some job }

/-- `join`, where the thread has nothing left to do. -/
def join (s : Tray) : Option Tray := if Job.running s.thread then none else some { s with thread := none }

def post (s : Tray) (posts : Bool) (message : Message) : Tray :=
  { s with thread := some .finished, posted := if posts && s.window then s.posted ++ [message] else s.posted }

def checkForUpdates (s : Tray) (loaded : Except String Json) : Option Tray :=
  if s.busy then some s
  else s.join.map fun s =>
    match loaded with
    | .error _ => { s with boxes := .notice :: s.boxes }
    | .ok config => startThread { s with busy := true } (.check config)

def handleUpdateCheck (s : Tray) (result : Result) : Option Tray :=
  s.join.map fun s =>
    { s with busy := false, boxes := (if result.status = .available then .prompt result else .notice) :: s.boxes }

def handleUpdateInstall (s : Tray) (error : Option String) : Option Tray :=
  s.join.map fun s => { s with busy := false, boxes := (if error.isSome then .notice else .leaving) :: s.boxes }

/-- What the handler that opened the box does after it. -/
def goOn (s : Tray) (yes : Bool) : Box → Tray
  | .notice => s
  | .leaving => { s with window := false }
  | .prompt update =>
    if yes && s.window then
      startThread { s with busy := true, accepted := s.accepted ++ [update] } (.install update)
    else s

variable (b : Build) (lib : JsonText)

def step (s : Tray) (event : Event) : Option Tray :=
  if s.terminated then none
  else match event with
    | .click loaded => if s.window then s.checkForUpdates loaded else none
    | .finish out posts =>
      match s.thread with
      | some (.check config) => some (s.post posts (.checked (check b lib out config)))
      | some (.install update) =>
        match downloadVerifyAndLaunch b out update with
        | .error error => some (s.post posts (.installed (some error)))
        | .ok launch =>
          let s : Tray := { s with started := s.started ++ [⟨update, out, launch⟩] }
          some (s.post posts (.installed none))
      | _ => none
    | .dispatch =>
      match s.window, s.posted with
      | true, .checked result :: posted => handleUpdateCheck { s with posted } result
      | true, .installed error :: posted => handleUpdateInstall { s with posted } error
      | _, _ => none
    | .answer yes =>
      match s.boxes with
      | [] => none
      | box :: boxes => some (goOn { s with boxes } yes box)
    | .exit => if s.window then some { s with window := false } else none

end Tray

/-! ## What is started -/

section
variable (b : Build) (lib : JsonText)

/-- Some check of this build offers the update. -/
def IsOffered (update : Result) : Prop := ∃ out config, Offered b lib out config update

/-- The update that is being installed. -/
def installing : Option Job → List Result
  | some (.install update) => [update]
  | _ => []

structure Sound (s : Tray) : Prop where
  posted : ∀ result, .checked result ∈ s.posted → result.status = .available → IsOffered b lib result
  boxes : ∀ update, .prompt update ∈ s.boxes → IsOffered b lib update
  accepted : ∀ update ∈ s.accepted, IsOffered b lib update
  started : ∀ one ∈ s.started, Verified b one.out one.update one.launch
  order : (s.started.map Started.update ++ installing s.thread).Sublist s.accepted

variable {b lib} {s t : Tray}

theorem sound_initial : Sound b lib {} where
  posted _ h := absurd h List.not_mem_nil
  boxes _ h := absurd h List.not_mem_nil
  accepted _ h := absurd h List.not_mem_nil
  started _ h := absurd h List.not_mem_nil
  order := .slnil

/-- The state with its thread joined; joining ends an installation only where it has ended. -/
theorem Sound.join (h : Sound b lib s) (hj : s.join = some t) : Sound b lib t ∧ t.thread = none := by
  unfold Tray.join at hj
  split at hj
  · cases hj
  · obtain rfl := Option.some.inj hj
    refine ⟨⟨h.posted, h.boxes, h.accepted, h.started, ?_⟩, rfl⟩
    change (s.started.map Started.update ++ []).Sublist s.accepted
    rw [List.append_nil]
    exact (List.sublist_append_left _ _).trans h.order

theorem Sound.push (h : Sound b lib s) (busy : Bool) {box : Box}
    (hbox : ∀ update, box = .prompt update → IsOffered b lib update) :
    Sound b lib { s with busy, boxes := box :: s.boxes } where
  posted := h.posted
  boxes update hm := by
    rcases List.mem_cons.1 hm with heq | hm
    · exact hbox update heq.symm
    · exact h.boxes update hm
  accepted := h.accepted
  started := h.started
  order := h.order

theorem Sound.finished (h : Sound b lib s) : Sound b lib { s with thread := some .finished } where
  posted := h.posted
  boxes := h.boxes
  accepted := h.accepted
  started := h.started
  order := by
    change (s.started.map Started.update ++ []).Sublist s.accepted
    rw [List.append_nil]
    exact (List.sublist_append_left _ _).trans h.order

theorem Sound.launched (h : Sound b lib s) {one : Started} (hthread : s.thread = some (.install one.update))
    (hone : Verified b one.out one.update one.launch) :
    Sound b lib { s with started := s.started ++ [one], thread := some .finished } where
  posted := h.posted
  boxes := h.boxes
  accepted := h.accepted
  started other hm := by
    rcases List.mem_append.1 hm with hm | hm
    · exact h.started other hm
    · exact List.mem_singleton.1 hm ▸ hone
  order := by
    have horder := h.order
    rw [hthread] at horder
    change ((s.started ++ [one]).map Started.update ++ []).Sublist s.accepted
    rw [List.append_nil, List.map_append]
    exact horder

theorem Sound.post (h : Sound b lib { s with thread := some .finished }) {message : Message} (posts : Bool)
    (hm : ∀ result, message = .checked result → result.status = .available → IsOffered b lib result) :
    Sound b lib (s.post posts message) where
  posted result hr hs := by
    unfold Tray.post at hr
    dsimp only at hr
    split at hr
    · rcases List.mem_append.1 hr with hr | hr
      · exact h.posted result hr hs
      · exact hm result (List.mem_singleton.1 hr).symm hs
    · exact h.posted result hr hs
  boxes := h.boxes
  accepted := h.accepted
  started := h.started
  order := h.order

theorem Sound.startThread (h : Sound b lib s) {job : Job}
    (horder : (s.started.map Started.update ++ installing (some job)).Sublist s.accepted) :
    Sound b lib (s.startThread job) := by
  unfold Tray.startThread
  split
  · exact ⟨h.posted, h.boxes, h.accepted, h.started, h.order⟩
  · exact ⟨h.posted, h.boxes, h.accepted, h.started, horder⟩

theorem Sound.checkForUpdates (h : Sound b lib s) {loaded : Except String Json}
    (hs : s.checkForUpdates loaded = some t) : Sound b lib t := by
  unfold Tray.checkForUpdates at hs
  split at hs
  · exact Option.some.inj hs ▸ h
  · obtain ⟨u, hj, rfl⟩ := Option.map_eq_some_iff.1 hs
    obtain ⟨hu, hthread⟩ := h.join hj
    cases loaded with
    | error e => exact hu.push u.busy nofun
    | ok config =>
      have horder := hu.order
      rw [hthread] at horder
      exact Sound.startThread (s := { u with busy := true })
        ⟨hu.posted, hu.boxes, hu.accepted, hu.started, hu.order⟩ horder

theorem Sound.goOn (h : Sound b lib s) (yes : Bool) {box : Box}
    (hbox : ∀ update, box = .prompt update → IsOffered b lib update) : Sound b lib (s.goOn yes box) := by
  cases box with
  | notice => exact h
  | leaving => exact ⟨h.posted, h.boxes, h.accepted, h.started, h.order⟩
  | prompt update =>
    unfold Tray.goOn
    dsimp only
    split
    · refine Sound.startThread (s := { s with busy := true, accepted := s.accepted ++ [update] })
        ⟨h.posted, h.boxes, ?_, h.started, ?_⟩ ?_
      · intro r hr
        rcases List.mem_append.1 hr with hr | hr
        · exact h.accepted r hr
        · exact List.mem_singleton.1 hr ▸ hbox update rfl
      · exact h.order.trans (List.sublist_append_left _ _)
      · exact List.Sublist.append ((List.sublist_append_left _ _).trans h.order) (List.Sublist.refl [update])
    · exact h

theorem Sound.step (h : Sound b lib s) {event : Event} (hs : Tray.step b lib s event = some t) : Sound b lib t := by
  unfold Tray.step at hs
  split at hs
  · cases hs
  · cases event with
    | click loaded =>
      dsimp only at hs
      split at hs
      · exact h.checkForUpdates hs
      · cases hs
    | finish out posts =>
      dsimp only at hs
      split at hs
      · rename_i config hthread
        obtain rfl := Option.some.inj hs
        refine h.finished.post posts fun result heq hstatus => ?_
        obtain rfl := Message.checked.inj heq
        exact ⟨out, config, check_available hstatus⟩
      · rename_i update hthread
        have horder := h.order
        rw [hthread] at horder
        have hoffered : IsOffered b lib update :=
          h.accepted update (horder.subset (List.mem_append_right _ List.mem_cons_self))
        split at hs
        · obtain rfl := Option.some.inj hs
          exact h.finished.post posts nofun
        · rename_i launch hlaunch
          obtain rfl := Option.some.inj hs
          obtain ⟨found, config, hfound⟩ := hoffered
          have hone : Verified b out update launch := verified_of_offered hfound hlaunch
          exact Sound.post (s := { s with started := s.started ++ [⟨update, out, launch⟩] })
            (h.launched hthread hone) posts nofun
      · cases hs
    | dispatch =>
      dsimp only at hs
      split at hs
      · rename_i result posted hwindow hposted
        obtain ⟨u, hj, rfl⟩ := Option.map_eq_some_iff.1 hs
        have hrest : Sound b lib { s with posted } :=
          ⟨fun r hr => h.posted r (hposted ▸ List.mem_cons_of_mem _ hr), h.boxes, h.accepted, h.started, h.order⟩
        refine (hrest.join hj).1.push false fun update hbox => ?_
        split at hbox
        · rename_i hstatus
          obtain rfl := Box.prompt.inj hbox
          exact h.posted _ (hposted ▸ List.mem_cons_self) hstatus
        · cases hbox
      · rename_i error posted hwindow hposted
        obtain ⟨u, hj, rfl⟩ := Option.map_eq_some_iff.1 hs
        have hrest : Sound b lib { s with posted } :=
          ⟨fun r hr => h.posted r (hposted ▸ List.mem_cons_of_mem _ hr), h.boxes, h.accepted, h.started, h.order⟩
        refine (hrest.join hj).1.push false fun update hbox => ?_
        split at hbox <;> cases hbox
      · cases hs
    | answer yes =>
      dsimp only at hs
      split at hs
      · cases hs
      · rename_i box boxes hboxes
        have hrest : Sound b lib { s with boxes } :=
          ⟨h.posted, fun u hu => h.boxes u (hboxes ▸ List.mem_cons_of_mem _ hu), h.accepted, h.started, h.order⟩
        refine Option.some.inj hs ▸ hrest.goOn yes fun update heq => ?_
        exact h.boxes update (hboxes ▸ heq ▸ List.mem_cons_self)
    | exit =>
      dsimp only at hs
      split at hs
      · exact Option.some.inj hs ▸ ⟨h.posted, h.boxes, h.accepted, h.started, h.order⟩
      · cases hs

end

/-! ## One thread -/

def Box.isPrompt : Box → Bool
  | .prompt _ => true
  | _ => false

/-- No click is handled while the question is open. -/
def NotOverPrompt (s : Tray) : Event → Prop
  | .click _ => s.boxes.countP Box.isPrompt = 0
  | _ => True

/-- The checks and installations that run, have something to report or wait for the answer. -/
def Tray.pending (s : Tray) : Nat := s.posted.length + (Job.running s.thread).toNat + s.boxes.countP Box.isPrompt

structure Single (s : Tray) : Prop where
  alive : s.terminated = false
  one : s.pending ≤ 1
  idle : s.busy = false → Job.running s.thread = false ∧ s.posted = []
  prompt : 0 < s.boxes.countP Box.isPrompt → s.busy = false ∧ s.thread = none

section
variable {b : Build} {lib : JsonText} {s t : Tray}

theorem running_of_join (hj : s.join = some t) : Job.running s.thread = false ∧ t = { s with thread := none } := by
  unfold Tray.join at hj
  split at hj
  · cases hj
  · rename_i hrunning
    exact ⟨by simpa using hrunning, (Option.some.inj hj).symm⟩

theorem Single.checkForUpdates (h : Single s) (hprompt : s.boxes.countP Box.isPrompt = 0) {loaded : Except String Json}
    (hs : s.checkForUpdates loaded = some t) : Single t := by
  unfold Tray.checkForUpdates at hs
  split at hs
  · exact Option.some.inj hs ▸ h
  · rename_i hbusy
    obtain ⟨u, hj, rfl⟩ := Option.map_eq_some_iff.1 hs
    obtain ⟨hrunning, rfl⟩ := running_of_join hj
    have hposted : s.posted = [] := (h.idle (by simpa using hbusy)).2
    cases loaded with
    | error e =>
      have hnone : (Box.notice :: s.boxes).countP Box.isPrompt = 0 := hprompt
      refine ⟨h.alive, ?_, fun _ => ⟨rfl, hposted⟩, fun hpos => absurd hpos (by rw [hnone]; exact Nat.lt_irrefl 0)⟩
      simp [Tray.pending, hposted, hnone, Job.running]
    | ok config =>
      refine ⟨h.alive, ?_, nofun, fun hpos => absurd hpos (hprompt ▸ Nat.lt_irrefl 0)⟩
      simp [Tray.pending, Tray.startThread, hposted, hprompt, Job.running]

theorem Single.post (h : Single s) (hrunning : Job.running s.thread = true) (posts : Bool) (message : Message)
    (started : List Started) : Single (Tray.post { s with started } posts message) := by
  have hone := h.one
  unfold Tray.pending at hone
  rw [hrunning, Bool.toNat_true] at hone
  have hposted : s.posted = [] := List.eq_nil_of_length_eq_zero (by omega)
  have hprompt : s.boxes.countP Box.isPrompt = 0 := by omega
  have hbusy : s.busy = true := by
    cases hb : s.busy with
    | true => rfl
    | false => exact absurd hrunning (by rw [(h.idle hb).1]; exact Bool.false_ne_true)
  refine ⟨h.alive, ?_, fun hb => absurd hb (by simp [Tray.post, hbusy]),
    fun hpos => absurd hpos (by simp [Tray.post, hprompt])⟩
  unfold Tray.post Tray.pending
  dsimp only
  rw [hprompt, hposted]
  split
  · exact Nat.le_refl 1
  · exact Nat.zero_le 1

/-- A message is handled only after the thread that posted it. -/
theorem Single.handled (h : Single s) {message : Message} {posted : List Message} (hposted : s.posted = message :: posted)
    (box : Box) : Single { s with posted, thread := none, busy := false, boxes := box :: s.boxes } := by
  have hone := h.one
  unfold Tray.pending at hone
  rw [hposted, List.length_cons] at hone
  have hnil : posted = [] := List.eq_nil_of_length_eq_zero (by omega)
  have hprompt : s.boxes.countP Box.isPrompt = 0 := by omega
  refine ⟨h.alive, ?_, fun _ => ⟨rfl, hnil⟩, fun _ => ⟨rfl, rfl⟩⟩
  unfold Tray.pending
  dsimp only
  rw [hnil, List.countP_cons, hprompt]
  split
  · exact Nat.le_refl 1
  · exact Nat.zero_le 1

theorem Single.goOn (h : Single s) {box : Box} {boxes : List Box} (hboxes : s.boxes = box :: boxes) (yes : Bool) :
    Single (Tray.goOn { s with boxes } yes box) := by
  have hcount : s.boxes.countP Box.isPrompt = boxes.countP Box.isPrompt + (if box.isPrompt then 1 else 0) := by
    rw [hboxes, List.countP_cons]
  have hone := h.one
  unfold Tray.pending at hone
  have hle : boxes.countP Box.isPrompt ≤ s.boxes.countP Box.isPrompt := by omega
  have hless : Single { s with boxes } :=
    ⟨h.alive, by unfold Tray.pending; dsimp only; omega, h.idle, fun hpos => h.prompt (Nat.lt_of_lt_of_le hpos hle)⟩
  cases box with
  | notice => exact hless
  | leaving => exact ⟨hless.alive, hless.one, hless.idle, hless.prompt⟩
  | prompt update =>
    change _ = boxes.countP Box.isPrompt + 1 at hcount
    obtain ⟨hbusy, hthread⟩ := h.prompt (by omega)
    have hnone : boxes.countP Box.isPrompt = 0 := by omega
    have hposted : s.posted = [] := (h.idle hbusy).2
    unfold Tray.goOn
    dsimp only
    split
    · rw [Tray.startThread, if_neg (by simp [hthread])]
      refine ⟨h.alive, ?_, nofun, fun hpos => absurd hpos (by simp [hnone])⟩
      simp [Tray.pending, hposted, hnone, Job.running]
    · exact hless

theorem Single.step (h : Single s) {event : Event} (hclick : NotOverPrompt s event)
    (hs : Tray.step b lib s event = some t) : Single t := by
  unfold Tray.step at hs
  split at hs
  · cases hs
  · cases event with
    | click loaded =>
      dsimp only at hs
      split at hs
      · exact h.checkForUpdates hclick hs
      · cases hs
    | finish out posts =>
      dsimp only at hs
      split at hs
      · rename_i config hthread
        exact Option.some.inj hs ▸ h.post (hthread ▸ rfl) posts _ s.started
      · rename_i update hthread
        split at hs
        · exact Option.some.inj hs ▸ h.post (hthread ▸ rfl) posts _ s.started
        · exact Option.some.inj hs ▸ h.post (hthread ▸ rfl) posts _ _
      · cases hs
    | dispatch =>
      dsimp only at hs
      split at hs
      · rename_i result posted hwindow hposted
        obtain ⟨u, hj, rfl⟩ := Option.map_eq_some_iff.1 hs
        obtain ⟨-, rfl⟩ := running_of_join hj
        exact h.handled hposted _
      · rename_i error posted hwindow hposted
        obtain ⟨u, hj, rfl⟩ := Option.map_eq_some_iff.1 hs
        obtain ⟨-, rfl⟩ := running_of_join hj
        exact h.handled hposted _
      · cases hs
    | answer yes =>
      dsimp only at hs
      split at hs
      · cases hs
      · rename_i box boxes hboxes
        exact Option.some.inj hs ▸ h.goOn hboxes yes
    | exit =>
      dsimp only at hs
      split at hs
      · exact Option.some.inj hs ▸ ⟨h.alive, h.one, h.idle, h.prompt⟩
      · cases hs

/-- **The thread is never assigned while it can be joined, as long as no click is handled over the open question**: at
most one check or installation runs, is reported or waits for the answer.  A click over it followed by a yes ends the
process. -/
theorem update_thread_single (b : Build) (lib : JsonText) {events : List Event}
    (h : Along (Tray.step b lib) NotOverPrompt {} events) :
    Throughout (Tray.step b lib) (fun s => s.terminated = false ∧ s.pending ≤ 1) {} events ∧
      ∀ s update boxes config, after (Tray.step b lib) {} events = some s → s.window = true →
        s.boxes = .prompt update :: boxes →
        ∃ t, after (Tray.step b lib) s [.click (.ok config), .answer true] = some t ∧ t.terminated = true := by
  have hinit : Single {} := ⟨rfl, Nat.zero_le 1, fun _ => ⟨rfl, rfl⟩, fun hpos => absurd hpos (Nat.lt_irrefl 0)⟩
  have hall : Throughout (Tray.step b lib) Single {} events :=
    Throughout.of_along (fun s e t hs hc hst => hs.step hc hst) hinit h
  refine ⟨hall.mono fun s hs => ⟨hs.alive, hs.one⟩, fun s update boxes config hs hwindow hboxes => ?_⟩
  have hsingle : Single s := hall.after hs
  obtain ⟨hbusy, hthread⟩ := hsingle.prompt (List.countP_pos_iff.2 ⟨_, hboxes ▸ List.mem_cons_self, rfl⟩)
  have hclick : Tray.step b lib s (.click (.ok config)) =
      some { s with busy := true, thread := some (.check config) } := by
    simp [Tray.step, hsingle.alive, hwindow, Tray.checkForUpdates, hbusy, Tray.join, hthread, Job.running,
      Tray.startThread]
  have hyes : Tray.step b lib { s with busy := true, thread := some (.check config) } (.answer true) =
      some { s with
        busy := true
        thread := some (.check config)
        boxes
        accepted := s.accepted ++ [update]
        terminated := true } := by
    simp [Tray.step, hsingle.alive, hwindow, hboxes, Tray.goOn, Tray.startThread]
  exact ⟨_, by rw [after, hclick, Option.bind_some, after, hyes]; rfl, rfl⟩

end

/-! ### A run -/

def sampleBuild : Build where
  feedUrl := "https://updates.example/host.json"
  certSha256 := "AA:" ++ String.ofList (List.replicate 62 'a')
  certSha256Next := ""
  version := "0.1.0"

def sampleManifest : ConfigStore.Document where
  value := .obj [("channel", .str "stable"), ("downloadUrl", .str "https://updates.example/host.msi"),
    ("minimumOs", .str "10.0.19045"), ("product", .str "Cloud Gaming Host"),
    ("publishedUtc", .str "2026-01-02T03:04:05Z"), ("schemaVersion", .int 1),
    ("sha256", .str "ba7816bf8f01cfea414140de5dae2223b00361a396177a9cb410ff61f20015ad"), ("size", .int 3),
    ("version", .str "0.2.0")]
  ordered := .obj (by decide) (by simp [ConfigStore.Ordered.str, ConfigStore.Ordered.int])

def sampleText : Bytes :=
  Bytes.ascii "\x7b\"channel\":\"stable\",\"downloadUrl\":\"https://updates.example/host.msi\"," ++
    Bytes.ascii "\"minimumOs\":\"10.0.19045\",\"product\":\"Cloud Gaming Host\"," ++
    Bytes.ascii "\"publishedUtc\":\"2026-01-02T03:04:05Z\",\"schemaVersion\":1,\"sha256\":" ++
    Bytes.ascii "\"ba7816bf8f01cfea414140de5dae2223b00361a396177a9cb410ff61f20015ad\",\"size\":3," ++
    Bytes.ascii "\"version\":\"0.2.0\"\x7d"

/-- A library that knows this text. -/
def sampleLibrary : JsonText where
  parse text := if text = sampleText then .ok sampleManifest else .error "parse error"
  dump _ := sampleText

/-- The digest of `abc`. -/
def sampleDigest : Bytes :=
  [0xba, 0x78, 0x16, 0xbf, 0x8f, 0x01, 0xcf, 0xea, 0x41, 0x41, 0x40, 0xde, 0x5d, 0xae, 0x22, 0x23,
   0xb0, 0x03, 0x61, 0xa3, 0x96, 0x17, 0x7a, 0x9c, 0xb4, 0x10, 0xff, 0x61, 0xf2, 0x00, 0x15, 0xad]

def sampleOutside : UpdateManager.Outside where
  crackUrl url :=
    if [sampleBuild.feedUrl, sampleBuild.feedUrl ++ ".p7s", "https://updates.example/host.msi"].contains url then
      some ⟨true, "updates.example", 443, 0, 0⟩
    else none
  exchange url :=
    let body := if url = sampleBuild.feedUrl then sampleText else Bytes.ascii "abc"
    ⟨true, true, true, some 200, [.available body.length (some body), .available 0 none]⟩
  signer manifest signature :=
    if manifest = sampleText ∧ signature = Bytes.ascii "abc" then some ⟨some (List.replicate 32 0xaa), true⟩ else none
  windows := some [10, 0, 22631]
  hash bytes := if bytes = Bytes.ascii "abc" then some sampleDigest else none
  random := some (List.replicate 16 7)
  createDirectories := true
  protect := .ok ()
  writeFile := true
  trust file := file = Bytes.ascii "abc"
  authenticodeSigner file := if file = Bytes.ascii "abc" then some (List.replicate 32 0xaa) else none
  systemDirectory := true
  shellExecute := true

def sampleEvents : List Event :=
  [.click (.ok (.obj [])), .finish sampleOutside true, .dispatch, .answer true, .finish sampleOutside true, .dispatch,
   .answer false]

instance (s : Tray) : DecidablePred (NotOverPrompt s)
  | .click _ => inferInstanceAs (Decidable (_ = _))
  | .finish _ _ => .isTrue trivial
  | .dispatch => .isTrue trivial
  | .answer _ => .isTrue trivial
  | .exit => .isTrue trivial

theorem update_thread_single_sample :
    Throughout (Tray.step sampleBuild sampleLibrary) (fun s => s.terminated = false ∧ s.pending ≤ 1) {} sampleEvents ∧
      ∀ s update boxes config, after (Tray.step sampleBuild sampleLibrary) {} sampleEvents = some s → s.window = true →
        s.boxes = .prompt update :: boxes →
        ∃ t, after (Tray.step sampleBuild sampleLibrary) s [.click (.ok config), .answer true] = some t ∧
          t.terminated = true :=
  update_thread_single sampleBuild sampleLibrary (by decide +kernel)

end TrayUpdates
end Host
end CloudGaming
