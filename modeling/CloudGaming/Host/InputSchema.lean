import CloudGaming.Host.Json
/-!
# InputSchema — which input messages are well formed
-/
namespace CloudGaming
namespace Host
namespace InputSchema

def kMaxPayloadBytes : Nat := 4096
def kMaxNestingDepth : Nat := 4
def kMaxObjectMembers : Nat := 16
def kMaxCoordinate : Int := 16384
def kMaxWheelDelta : ℚ := 10000

/-- `CheckShape`, `left` levels of nesting being left. -/
def checkShape : Nat → Json → Except String Unit
  | 0, _ => throw "JSON nesting limit exceeded"
  | _ + 1, .arr _ => throw "Input arrays are not allowed"
  | left + 1, .obj fields =>
    if fields.length > kMaxObjectMembers then throw "Too many input fields"
    else fields.forM fun member => checkShape left member.2
  | _ + 1, _ => pure ()

def hasOnly (value : Json) (allowed : List String) : Except String Unit :=
  match value with
  | .obj fields => fields.forM fun member =>
      if member.1 ∈ allowed then pure () else throw ("Unknown input field: " ++ member.1)
  | _ => pure ()

def validateCommon (value : Json) : Except String Unit := do
  if let some n := value.field? "sequenceId" then
    if !n.isUnsigned || n.uint64?.any (· > 2 ^ 32 - 1) then throw "Invalid sequenceId"
  if let some t := value.field? "client_send_time" then
    if !t.isInteger || t.int64?.any (· < 0) then throw "Invalid client_send_time"
  if let some s := value.field? "sessionId" then
    if s.str?.all (·.utf8ByteSize > 128) then throw "Invalid sessionId"

def validateCoordinates (value : Json) : Except String Unit :=
  match value.field? "x", value.field? "y" with
  | some (.int x), some (.int y) =>
    if wrap 64 x < 0 || wrap 64 y < 0 || wrap 64 x > kMaxCoordinate || wrap 64 y > kMaxCoordinate then
      throw "Mouse coordinates are out of range"
    else pure ()
  | _, _ => throw "Mouse coordinates must be integers"

/-- A finite wheel delta within its bounds. -/
def wheelDelta : Json → Bool
  | .int n => |(n : ℚ)| ≤ kMaxWheelDelta
  | .float q => |q| ≤ kMaxWheelDelta
  | _ => false

def common : List String := ["type", "client_send_time", "sequenceId", "sessionId", "reason"]

def validateKey (value : Json) : Except String Unit := do
  hasOnly value (common ++ ["code", "key"])
  match value.field? "code" with
  | some (.str code) => if code = "" || code.utf8ByteSize > 32 then throw "Invalid key code"
  | _ => throw "Missing key code"
  if let some key := value.field? "key" then
    if key.str?.all (·.utf8ByteSize > 32) then throw "Invalid key value"

def validateMouse (eventType : String) (value : Json) : Except String Unit := do
  hasOnly value (common ++ ["x", "y", "button", "deltaX", "deltaY"])
  validateCoordinates value
  if eventType = "mousedown" || eventType = "mouseup" then
    match value.field? "button" with
    | some (.int n) => if wrap 32 n < 0 || wrap 32 n > 4 then throw "Invalid mouse button"
    | _ => throw "Missing mouse button"
  else if value.contains "button" then
    throw "Mouse button is not valid for this event"
  if eventType = "wheel" || eventType = "hwheel" then
    if (!value.contains "deltaX" && !value.contains "deltaY") ||
        (value.field? "deltaX").any (!wheelDelta ·) || (value.field? "deltaY").any (!wheelDelta ·) then
      throw "Invalid wheel delta"

def validateReset (value : Json) : Except String Unit := do
  hasOnly value common
  if let some reason := value.field? "reason" then
    if reason.str?.all (·.utf8ByteSize > 128) then throw "Invalid reset reason"

/-- A message that passed: its event type and its value. -/
structure Event where
  eventType : String
  value : Json

def validate (payload : Payload) : Except String Event := do
  if payload.size = 0 || payload.size > kMaxPayloadBytes then throw "Input payload size is invalid"
  match payload.value with
  | none => throw "Malformed input JSON"
  | some value =>
    if !value.isObject then throw "Malformed input JSON"
    checkShape kMaxNestingDepth value
    match value.field? "type" with
    | some (.str eventType) =>
      -- a type that is too long leaves no error text
      if eventType.utf8ByteSize > 32 then throw ""
      validateCommon value
      if eventType = "keydown" || eventType = "keyup" then validateKey value
      else if eventType ∈ ["mousemove", "mousedown", "mouseup", "wheel", "hwheel"] then validateMouse eventType value
      else if eventType = "input_reset" then validateReset value
      else throw "Unknown input event type"
      return ⟨eventType, value⟩
    | _ => throw "Missing input type"

/-- A payload that `validate` accepts. -/
def accepted (payload : Payload) : Option Event := (validate payload).toOption

/-- **What `validate` checked** of every message it accepts. -/
theorem accepted_spec {p : Payload} {e : Event} (h : accepted p = some e) :
    p.value = some e.value ∧ e.value.isObject = true ∧ e.value.field? "type" = some (.str e.eventType) ∧
      validateCommon e.value = .ok () := by
  unfold accepted validate at h
  simp only [bind, Except.bind, pure, Except.pure, throw, throwThe, MonadExceptOf.throw] at h
  split at h
  · cases h
  split at h
  · cases h
  rename_i value hv
  split at h
  · cases h
  rename_i ho
  split at h
  · cases h
  split at h
  on_goal 2 => cases h
  rename_i eventType ht
  split at h
  · cases h
  split at h
  · cases h
  rename_i hc
  have he : e = ⟨eventType, value⟩ := by
    repeat' split at h
    all_goals first
      | exact (Option.some.inj h).symm
      | cases h
  subst he
  exact ⟨hv, by simpa using ho, ht, hc⟩

/-- A reset that is accepted passed its own checks. -/
theorem validateReset_of_accepted {p : Payload} {e : Event} (h : accepted p = some e)
    (ht : e.eventType = "input_reset") : validateReset e.value = .ok () := by
  obtain ⟨hv, ho, htype, hc⟩ := accepted_spec h
  cases hr : validateReset e.value with
  | ok u => rfl
  | error x =>
    unfold accepted validate at h
    rw [hv] at h
    simp only [bind, Except.bind, pure, Except.pure, throw, throwThe, MonadExceptOf.throw, ho, htype, hc, ht, hr] at h
    rw [if_neg (by decide : ¬(!true) = true)] at h
    split at h
    · cases h
    cases hs : checkShape kMaxNestingDepth e.value with
    | error x => rw [hs] at h; cases h
    | ok u => rw [hs] at h; cases h

/-- A message of the mouse that is accepted passed its own checks. -/
theorem validateMouse_of_accepted {p : Payload} {e : Event} (h : accepted p = some e)
    (ht : e.eventType = "wheel" ∨ e.eventType = "hwheel") : validateMouse e.eventType e.value = .ok () := by
  obtain ⟨hv, ho, htype, hc⟩ := accepted_spec h
  have hkey : (e.eventType = "keydown" || e.eventType = "keyup") = false := by
    rcases ht with ht | ht <;> rw [ht] <;> decide
  have hmouse : e.eventType ∈ ["mousemove", "mousedown", "mouseup", "wheel", "hwheel"] := by
    rcases ht with ht | ht <;> rw [ht] <;> decide
  cases hr : validateMouse e.eventType e.value with
  | ok u => rfl
  | error x =>
    unfold accepted validate at h
    rw [hv] at h
    simp only [bind, Except.bind, pure, Except.pure, throw, throwThe, MonadExceptOf.throw, ho, htype, hc, hkey, hmouse,
      hr, Bool.false_eq_true, if_false, if_true] at h
    rw [if_neg (by decide : ¬(!true) = true)] at h
    split at h
    · cases h
    cases hs : checkShape kMaxNestingDepth e.value with
    | error x => rw [hs] at h; cases h
    | ok u =>
      rw [hs] at h
      by_cases hlong : e.eventType.utf8ByteSize > 32
      · simp [hlong, Except.toOption] at h
      · simp [hlong, Except.toOption] at h

/-- The deltas of a wheel event that is accepted are numbers within their bounds. -/
theorem wheelDelta_of_accepted {p : Payload} {e : Event} (h : accepted p = some e)
    (ht : e.eventType = "wheel" ∨ e.eventType = "hwheel") {key : String} (hkey : key = "deltaX" ∨ key = "deltaY")
    {v : Json} (hf : e.value.field? key = some v) : wheelDelta v = true := by
  have hm := validateMouse_of_accepted h ht
  have hbutton : (e.eventType = "mousedown" || e.eventType = "mouseup") = false := by
    rcases ht with ht | ht <;> rw [ht] <;> decide
  have hwheel : (e.eventType = "wheel" || e.eventType = "hwheel") = true := by
    rcases ht with ht | ht <;> rw [ht] <;> decide
  unfold validateMouse at hm
  simp only [bind, Except.bind, pure, Except.pure, throw, throwThe, MonadExceptOf.throw, hbutton, hwheel,
    Bool.false_eq_true, if_false, if_true] at hm
  split at hm
  · cases hm
  split at hm
  · cases hm
  split at hm
  · cases hm
  split at hm
  · cases hm
  · rename_i hdelta
    simp only [Bool.or_eq_true, not_or, Bool.not_eq_true] at hdelta
    rcases hkey with rfl | rfl
    · simpa [hf] using hdelta.1.2
    · simpa [hf] using hdelta.2

theorem reason_of_accepted {p : Payload} {e : Event} (h : accepted p = some e) (ht : e.eventType = "input_reset") :
    ∃ reason, e.value.valueStr "reason" "transport_reset" = some reason := by
  have hr := validateReset_of_accepted h ht
  unfold validateReset at hr
  unfold Json.valueStr
  cases hf : e.value.field? "reason" with
  | none => exact ⟨_, rfl⟩
  | some reason =>
    cases hs : reason.str? with
    | some s => exact ⟨s, hs⟩
    | none =>
      rw [hf] at hr
      cases ho : hasOnly e.value common with
      | error x => rw [ho] at hr; cases hr
      | ok u =>
        rw [ho] at hr
        simp [hs, bind, Except.bind, throw, throwThe, MonadExceptOf.throw] at hr

def isReleaseEvent (eventType : String) : Bool :=
  eventType = "keyup" || eventType = "mouseup" || eventType = "input_reset"

def isMouseMove (eventType : String) : Bool := eventType = "mousemove"

end InputSchema
end Host
end CloudGaming
