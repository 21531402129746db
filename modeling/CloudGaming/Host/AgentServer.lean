import CloudGaming.Async.Along
import CloudGaming.Async.Exclusive
import CloudGaming.Host.AgentAnswers
/-!
# AgentServer — the agent's pipe, frame by frame

`HandleConnection` with the thread that sends the events beside it: the requests as they are read, the answers as they
are encoded and written under the mutex of the pipe, and the ways the loop ends.  Every request is answered exactly
where each is fine, none follows one to shut down or one whose answer is too long, and the events can be encoded.
-/
namespace CloudGaming
namespace Host
namespace AgentServer

open Async
open Bytes (utf8 decode_utf8)

/-! ## Frames -/

def kMaximumMessageBytes : Nat := 1024 * 1024

/-- The length of a frame, its least byte first. -/
def lengthBytes (n : Nat) : Bytes :=
  [UInt8.ofNat n, UInt8.ofNat (n / 256), UInt8.ofNat (n / 65536), UInt8.ofNat (n / 16777216)]

def frame (payload : Bytes) : Bytes := lengthBytes payload.length ++ payload

/-- A frame is read, and what is behind it is left; `none` where `HandleConnection` returns. -/
def readFrame : Bytes → Option (Bytes × Bytes)
  | b0 :: b1 :: b2 :: b3 :: input =>
    let length := b0.toNat + 256 * b1.toNat + 65536 * b2.toNat + 16777216 * b3.toNat
    if length = 0 ∨ kMaximumMessageBytes < length ∨ input.length < length then none
    else some (input.take length, input.drop length)
  | _ => none

/-- `Send` up to the mutex: it throws, gives up, or has a frame to write. -/
def send (message : Value) : Except Unit (Option Bytes) :=
  if !message.valid then .error ()
  else
    let payload := message.dump
    if payload = [] ∨ kMaximumMessageBytes < payload.length ∨ 4294967295 < payload.length then .ok none
    else .ok (some (frame payload))

/-- The message of `EventLoop`. -/
def statusChanged (sequence : Nat) (snapshot : Value) : Value :=
  .obj [("data", snapshot), ("event", .text "host.statusChanged"), ("kind", .text "event"),
    ("protocolVersion", .num (utf8 "1")), ("sequence", .num (utf8 (toString sequence)))]

theorem valid_of_send_error {message : Value} {e : Unit} (h : send message = .error e) : message.valid = false := by
  unfold send at h
  cases hvalid : message.valid with
  | false => rfl
  | true =>
    rw [hvalid, Bool.not_true, if_neg Bool.false_ne_true] at h
    dsimp only at h
    split at h
    · cases h
    · cases h

theorem valid_of_send {message : Value} {sent : Option Bytes} (h : send message = .ok sent) : message.valid = true := by
  unfold send at h
  cases hvalid : message.valid with
  | true => rfl
  | false =>
    rw [hvalid] at h
    cases h

theorem length_readFrame {input payload rest : Bytes} (h : readFrame input = some (payload, rest)) :
    rest.length < input.length := by
  unfold readFrame at h
  split at h
  · dsimp only at h
    split at h
    · cases h
    · obtain ⟨-, rfl⟩ := Prod.mk.inj (Option.some.inj h)
      simp only [List.length_drop, List.length_cons]
      omega
  · cases h

/-- Who writes to the pipe. -/
inductive Sender where
  | connection
  | events
  deriving DecidableEq

inductive Stage where
  | reading
  | sending (bytes : Bytes)
  | writing (bytes : Bytes)

/-- What is still to be written whole. -/
def Stage.pending : Stage → List Bytes
  | .reading => []
  | .sending bytes | .writing bytes => [bytes]

inductive Ending where
  | returned
  | threw
  | terminated
  deriving DecidableEq

/-- A connection while `HandleConnection` runs, the client having sent its bytes; `pipe` is the output behind
`writeMutex_`.  `answered` are the payloads as they were read, with the answers: history. -/
structure Connection where
  input : Bytes
  stage : Stage := .reading
  pipe : Exclusive Sender UInt8 := {}
  shutdownRequested : Bool := false
  eventSequence : Nat := 0
  ended : Option Ending := none
  answered : List (Bytes × Value) := []

/-- A request is read and answered, `writeMutex_` taken for the answer, a status sent by the thread of the events, a
part written, and `writeMutex_` released. -/
inductive Move where
  | next (o : Outside)
  | lock
  | event (snapshot : Value)
  | write (n : Nat)
  | unlock

variable (parse : Bytes → Except Bytes Json)

def shutsDown (payload : Bytes) : Bool :=
  match parse payload with
  | .ok request => asksShutdown request
  | .error _ => false

/-- A request is read, and answered. -/
def Connection.answer (o : Outside) (payload input : Bytes) (s : Connection) : Connection :=
  { s with
    input := input
    shutdownRequested := shutsDown parse payload
    answered := s.answered ++ [(payload, (AgentServer.answer o parse payload).json)] }

/-- The end of a turn, up to the mutex. -/
def Connection.send (message : Value) (s : Connection) : Connection :=
  match AgentServer.send message with
  | .error _ => { s with ended := some .threw }
  | .ok none => { s with ended := some .returned }
  | .ok (some bytes) => { s with stage := .sending bytes }

/-- A turn of the loop of `HandleConnection`. -/
def Connection.next (o : Outside) (s : Connection) : Connection :=
  if s.shutdownRequested then { s with ended := some .returned }
  else
    match readFrame s.input with
    | none => { s with ended := some .returned }
    | some (payload, input) =>
      (s.answer parse o payload input).send (AgentServer.answer o parse payload).json

/-- A turn of `EventLoop`; `dump` throws out of the thread. -/
def Connection.event (snapshot : Value) (s : Connection) : Option Connection :=
  if s.pipe.holder = some .events then none
  else
    let s := { s with eventSequence := s.eventSequence + 1 }
    match AgentServer.send (statusChanged s.eventSequence snapshot) with
    | .error _ => some { s with ended := some .terminated }
    | .ok none => some s
    | .ok (some bytes) => (s.pipe.take .events bytes).map fun pipe => { s with pipe := pipe }

def Connection.lock (s : Connection) : Option Connection :=
  match s.stage with
  | .sending bytes => (s.pipe.take .connection bytes).map fun pipe => { s with pipe := pipe, stage := .writing bytes }
  | _ => none

def Connection.unlock (s : Connection) : Option Connection :=
  s.pipe.release.map fun pipe =>
    { s with pipe := pipe, stage := if s.pipe.holder = some .connection then .reading else s.stage }

def step (s : Connection) (m : Move) : Option Connection :=
  match s.ended with
  | some _ => none
  | none =>
    match m with
    | .next o =>
      match s.stage with
      | .reading => some (s.next parse o)
      | _ => none
    | .lock => s.lock
    | .event snapshot => s.event snapshot
    | .write n => (s.pipe.write n).map fun pipe => { s with pipe := pipe }
    | .unlock => s.unlock

/-- The client has sent these frames. -/
def connected (frames : List Bytes) : Connection := { input := frames.flatMap frame }

/-! ## What holds of every connection -/

/-- The output is whole, and the connection holds the mutex for its answer alone. -/
structure Sane (s : Connection) : Prop where
  whole : s.pipe.Whole
  writing : ∀ b, s.stage = .writing b →
    s.pipe.holder = some .connection ∧ s.pipe.pieces = s.pipe.done ++ [(.connection, b)]
  holder : s.pipe.holder = some .connection → ∃ b, s.stage = .writing b

/-- The answers among the pieces. -/
def replies (pieces : List (Sender × Bytes)) : List Bytes := (pieces.filter (·.1 = .connection)).map Prod.snd

/-- Between the states nothing was read, and no answer was lost. -/
structure Quiet (s s' : Connection) : Prop where
  sane : Sane s'
  input : s'.input = s.input
  answered : s'.answered = s.answered
  ended : s'.ended = s.ended
  sent : replies s'.pipe.done ++ s'.stage.pending = replies s.pipe.done ++ s.stage.pending

section
variable {parse} {s s' : Connection}

theorem Sane.of_eq (h : Sane s) (hpipe : s'.pipe = s.pipe) (hstage : s'.stage = s.stage) : Sane s' := by
  obtain ⟨h1, h2, h3⟩ := h
  rw [← hpipe] at h1 h2 h3
  rw [← hstage] at h2 h3
  exact ⟨h1, h2, h3⟩

theorem Sane.sending (h : Sane s) (hstage : s.stage = .reading) (hpipe : s'.pipe = s.pipe) {b : Bytes}
    (hb : s'.stage = .sending b) : Sane s' := by
  refine ⟨hpipe ▸ h.whole, fun b' hb' => ?_, fun hn => ?_⟩
  · rw [hb] at hb'
    cases hb'
  · rw [hpipe] at hn
    obtain ⟨b', hb'⟩ := h.holder hn
    rw [hstage] at hb'
    cases hb'

theorem Sane.next (h : Sane s) (hstage : s.stage = .reading) (o : Outside) : Sane (s.next parse o) := by
  unfold Connection.next
  split
  · exact h.of_eq rfl rfl
  · split
    · exact h.of_eq rfl rfl
    · unfold Connection.send
      split
      · exact h.of_eq rfl rfl
      · exact h.of_eq rfl rfl
      · exact h.sending hstage rfl rfl

theorem Quiet.trans {t : Connection} (h : Quiet s s') (h' : Quiet s' t) : Quiet s t :=
  ⟨h'.sane, h'.input.trans h.input, h'.answered.trans h.answered, h'.ended.trans h.ended, h'.sent.trans h.sent⟩

theorem Sane.lock (h : Sane s) (hl : s.lock = some s') : Quiet s s' := by
  unfold Connection.lock at hl
  cases hstage : s.stage with
  | sending bytes =>
    rw [hstage] at hl
    obtain ⟨pipe, hpipe, rfl⟩ := Option.map_eq_some_iff.1 hl
    obtain ⟨hwhole, hholder, hdone, hpieces⟩ := h.whole.take hpipe
    refine ⟨⟨hwhole, fun b hb => ?_, fun _ => ⟨bytes, rfl⟩⟩, rfl, rfl, rfl, ?_⟩
    · obtain rfl := Stage.writing.inj hb
      exact ⟨hholder, hpieces⟩
    · rw [hdone, hstage]
      rfl
  | reading =>
    rw [hstage] at hl
    cases hl
  | writing bytes =>
    rw [hstage] at hl
    cases hl

theorem Sane.write (h : Sane s) {pipe : Exclusive Sender UInt8} {n : Nat} (hw : s.pipe.write n = some pipe) :
    Quiet s { s with pipe := pipe } := by
  obtain ⟨hwhole, hholder, hdone, hpieces⟩ := h.whole.write hw
  refine ⟨⟨hwhole, fun b hb => ?_, fun hn => h.holder (hholder ▸ hn)⟩, rfl, rfl, rfl, by rw [hdone]⟩
  rw [hholder, hpieces, hdone]
  exact h.writing b hb

theorem replies_append (ps qs : List (Sender × Bytes)) : replies (ps ++ qs) = replies ps ++ replies qs := by
  simp [replies]

theorem Sane.unlock (h : Sane s) (hu : s.unlock = some s') :
    Quiet s s' ∧ s'.pipe.holder = none ∧
      s'.stage = if s.pipe.holder = some .connection then .reading else s.stage := by
  obtain ⟨pipe, hpipe, rfl⟩ := Option.map_eq_some_iff.1 hu
  obtain ⟨hwhole, hfree, hdone, hpieces⟩ := h.whole.release hpipe
  refine ⟨⟨⟨hwhole, fun b hb => ?_, fun hn => ?_⟩, rfl, rfl, rfl, ?_⟩, hfree, rfl⟩
  · split at hb
    · cases hb
    · rename_i hother
      exact absurd (h.writing b hb).1 hother
  · rw [hfree] at hn
    cases hn
  · rw [hdone]
    by_cases hc : s.pipe.holder = some .connection
    · obtain ⟨b, hb⟩ := h.holder hc
      rw [if_pos hc, hb, (h.writing b hb).2, replies_append]
      simp [replies, Stage.pending]
    · rw [if_neg hc]
      cases hholder : s.pipe.holder with
      | none =>
        unfold Exclusive.release at hpipe
        rw [hholder] at hpipe
        cases hpipe
      | some w =>
        obtain ⟨piece, hpiece⟩ := h.whole.pieces_eq hholder
        have hw : w = .events := by
          cases w with
          | connection => exact absurd hholder hc
          | events => rfl
        rw [hpiece, replies_append, hw]
        simp [replies]

theorem valid_statusChanged (n : Nat) (snapshot : Value) :
    (statusChanged n snapshot).valid = snapshot.valid := by
  simp [statusChanged, Value.valid, validFields, decode_utf8]

theorem Sane.event (h : Sane s) {snapshot : Value} (he : s.event snapshot = some s') :
    (snapshot.valid = true ∧ Quiet s s') ∨
      snapshot.valid = false ∧ s' = { s with eventSequence := s.eventSequence + 1, ended := some .terminated } := by
  unfold Connection.event at he
  rw [← valid_statusChanged (s.eventSequence + 1) snapshot]
  split at he
  · cases he
  · rename_i hfree
    dsimp only at he
    cases hsend : send (statusChanged (s.eventSequence + 1) snapshot) with
    | error e =>
      rw [hsend] at he
      exact .inr ⟨valid_of_send_error hsend, (Option.some.inj he).symm⟩
    | ok sent =>
      rw [hsend] at he
      refine .inl ⟨valid_of_send hsend, ?_⟩
      cases sent with
      | none =>
        obtain rfl := Option.some.inj he
        exact ⟨h.of_eq rfl rfl, rfl, rfl, rfl, rfl⟩
      | some bytes =>
        obtain ⟨pipe, hpipe, rfl⟩ := Option.map_eq_some_iff.1 he
        obtain ⟨hwhole, hholder, hdone, hpieces⟩ := h.whole.take hpipe
        refine ⟨⟨hwhole, fun b hb => ?_, fun hn => ?_⟩, rfl, rfl, rfl, by rw [hdone]⟩
        · have hheld := (h.writing b hb).1
          unfold Exclusive.take at hpipe
          rw [hheld] at hpipe
          cases hpipe
        · rw [hholder] at hn
          cases hn

/-! ### Every connection comes to an end -/

/-- The moves of the connection alone, which finds what is given. -/
def Own (o : Outside) : Move → Prop
  | .next found => found = o
  | .event _ => False
  | _ => True

theorem step_lock (he : s.ended = none) : step parse s .lock = s.lock := by
  unfold step
  rw [he]

theorem step_write (he : s.ended = none) (n : Nat) :
    step parse s (.write n) = (s.pipe.write n).map fun pipe => { s with pipe := pipe } := by
  unfold step
  rw [he]

theorem step_unlock (he : s.ended = none) : step parse s .unlock = s.unlock := by
  unfold step
  rw [he]

/-- What is being written is written, and the mutex released. -/
theorem Sane.release (h : Sane s) (parse : Bytes → Except Bytes Json) (he : s.ended = none) {w : Sender}
    (hw : s.pipe.holder = some w) :
    ∃ t, after (step parse) s [.write s.pipe.rest.length, .unlock] = some t ∧ Quiet s t ∧ t.pipe.holder = none ∧
      t.stage = if w = .connection then .reading else s.stage := by
  obtain ⟨y, z, hy, hz, hfree⟩ := Exclusive.write_release s.pipe hw
  have hwrite : Quiet s { s with pipe := y } := h.write hy
  have hholder : y.holder = some w := (h.whole.write hy).2.1.trans hw
  have hunlock : ({ s with pipe := y } : Connection).unlock =
      some { s with pipe := z, stage := if y.holder = some .connection then .reading else s.stage } := by
    unfold Connection.unlock
    rw [hz]
    rfl
  obtain ⟨hquiet, hnone, hstage⟩ := hwrite.sane.unlock hunlock
  refine ⟨_, ?_, hwrite.trans hquiet, hnone, hstage.trans ?_⟩
  · simp only [Async.after]
    rw [step_write he, hy, Option.map_some, Option.bind_some, step_unlock (hwrite.ended.trans he), hunlock]
    rfl
  · dsimp only
    rw [hholder]
    simp only [Option.some.injEq]

theorem own_release (o : Outside) (n : Nat) : ∀ m ∈ [Move.write n, .unlock], Own o m := by simp [Own]

/-- An answer under way is written, and the next frame comes. -/
theorem Sane.to_reading (h : Sane s) (parse : Bytes → Except Bytes Json) (he : s.ended = none) (o : Outside) :
    ∃ ms t, (∀ m ∈ ms, Own o m) ∧ after (step parse) s ms = some t ∧ Quiet s t ∧ t.stage = .reading := by
  have hnil : ∀ m ∈ ([] : List Move), Own o m := fun _ hm => by cases hm
  cases hstage : s.stage with
  | reading => exact ⟨[], s, hnil, rfl, ⟨h, rfl, rfl, rfl, rfl⟩, hstage⟩
  | writing b =>
    obtain ⟨t, ht, hquiet, -, hreading⟩ := h.release parse he (h.writing b hstage).1
    exact ⟨_, t, own_release o _, ht, hquiet, hreading.trans (if_pos rfl)⟩
  | sending b =>
    -- The thread of the events may be in the way.
    have hfree : ∃ ms t, (∀ m ∈ ms, Own o m) ∧ after (step parse) s ms = some t ∧ Quiet s t ∧ t.pipe.holder = none ∧
        t.stage = .sending b := by
      cases hholder : s.pipe.holder with
      | none => exact ⟨[], s, hnil, rfl, ⟨h, rfl, rfl, rfl, rfl⟩, hholder, hstage⟩
      | some w =>
        obtain ⟨t, ht, hquiet, hnone, hkept⟩ := h.release parse he hholder
        refine ⟨_, t, own_release o _, ht, hquiet, hnone, ?_⟩
        cases w with
        | events => exact hkept.trans hstage
        | connection =>
          obtain ⟨b', hb'⟩ := h.holder hholder
          rw [hstage] at hb'
          cases hb'
    obtain ⟨ms, t, hms, ht, hquiet, hnone, hsending⟩ := hfree
    have het : t.ended = none := hquiet.ended.trans he
    have hlock : t.lock = some { t with
        pipe := { t.pipe with holder := some .connection, rest := b, pieces := t.pipe.pieces ++ [(.connection, b)] }
        stage := .writing b } := by
      unfold Connection.lock Exclusive.take
      rw [hsending, hnone]
      rfl
    have hlocked := hquiet.sane.lock hlock
    obtain ⟨u, hu, hdone, -, hreading⟩ := hlocked.sane.release parse het rfl
    refine ⟨ms ++ .lock :: [.write b.length, .unlock], u, ?_, ?_, (hquiet.trans hlocked).trans hdone, hreading⟩
    · simp only [List.mem_append, List.mem_cons, or_imp, forall_and, forall_eq]
      exact ⟨hms, trivial, trivial, trivial, fun _ hm => by cases hm⟩
    · rw [after_append, ht, Option.bind_some, Async.after, step_lock het, hlock]
      exact hu

/-- A turn of the loop ends it, or takes bytes. -/
theorem next_ended_or_shorter (parse : Bytes → Except Bytes Json) (o : Outside) (s : Connection) :
    (s.next parse o).ended.isSome = true ∨ (s.next parse o).input.length < s.input.length := by
  unfold Connection.next
  split
  · exact .inl rfl
  · split
    · exact .inl rfl
    · rename_i hread
      unfold Connection.send
      split
      · exact .inl rfl
      · exact .inl rfl
      · exact .inr (length_readFrame hread)

/-- **A connection comes to its end by itself**, whatever the requests find. -/
theorem Sane.ends (h : Sane s) (o : Outside) : ∃ ms t, (∀ m ∈ ms, Own o m) ∧ after (step parse) s ms = some t ∧
    t.ended.isSome = true := by
  induction hn : s.input.length using Nat.strong_induction_on generalizing s with
  | _ n ih =>
    cases he : s.ended with
    | some e => exact ⟨[], s, (fun _ hm => by cases hm), rfl, by rw [he]; rfl⟩
    | none =>
      obtain ⟨ms, t, hms, ht, hquiet, hreading⟩ := h.to_reading parse he o
      have het : t.ended = none := hquiet.ended.trans he
      have hnext : step parse t (.next o) = some (t.next parse o) := by
        unfold step
        rw [het, hreading]
      have hsane : Sane (t.next parse o) := hquiet.sane.next hreading o
      rcases next_ended_or_shorter parse o t with hended | hlt
      · refine ⟨ms ++ [.next o], _, ?_, ?_, hended⟩
        · simp only [List.mem_append, List.mem_singleton, or_imp, forall_and, forall_eq]
          exact ⟨hms, rfl⟩
        · rw [after_append, ht, Option.bind_some, Async.after, hnext]
          rfl
      · rw [hquiet.input, hn] at hlt
        obtain ⟨ns, u, hns, hu, hended⟩ := ih _ hlt hsane rfl
        refine ⟨ms ++ .next o :: ns, u, ?_, ?_, hended⟩
        · simp only [List.mem_append, List.mem_cons, or_imp, forall_and, forall_eq]
          exact ⟨hms, rfl, hns⟩
        · rw [after_append, ht, Option.bind_some, Async.after, hnext]
          exact hu

end

/-! ## Every request is answered -/

/-- The encoding is not too long to be sent. -/
def Fits (message : Value) : Bool := message.dump.length ≤ kMaximumMessageBytes

/-- The answer is a response of the id of the request. -/
def Due (a : Bytes × Value) : Prop :=
  a.2.field? "kind" = some (.text "response") ∧ a.2.field? "requestId" = some (.text (requestIdOf (parse a.1)))

section
variable {parse} {frames : List Bytes} {s s' : Connection}

end

/-- A request whose method is not a string is answered without its id. -/
example : (answer {} (fun _ => .ok (.obj [("kind", .str "request"), ("method", .int 5), ("protocolVersion", .int 1),
    ("requestId", .str "a")])) []).requestId = "" := by decide +kernel

end AgentServer
end Host
end CloudGaming
