import CloudGaming.Host.InputSchema
import Mathlib.Data.Nat.Digits.Lemmas
/-!
# Message — the input messages of the browser, and their texts

A message is an object of scalars; its text matters for its length in bytes and for what it parses to, the fields in key
order.  A key message is accepted where its sequence number has 32 bits, a wheel message where its deltas are within
bounds, and any other one always.
-/
namespace CloudGaming
namespace Client

open Host (Json Payload InputSchema.accepted InputSchema.validate)

/-! ## Texts -/

/-- What the doubles of the browser do: their sum, and the length of their text, which has 17 digits at most. -/
structure Doubles where
  add : ℚ → ℚ → ℚ
  size : ℚ → Nat
  size_le : ∀ q, size q ≤ 25

/-- The bytes of a character within quotes. -/
def escapedSize (c : Char) : Nat :=
  if c.toNat ∈ [8, 9, 10, 12, 13, 34, 92] then 2 else if c.toNat < 32 then 6 else c.utf8Size

def quotedSize (s : String) : Nat := (s.toList.map escapedSize).sum + 2

def decimalSize (n : Nat) : Nat := max 1 (Nat.digits 10 n).length

inductive Value where
  | null
  | nat (n : Nat)
  | number (q : ℚ)
  | str (s : String)

def Value.json : Value → Json
  | null => .null
  -- what reads as an integer of 64 bits parses to one
  | nat n => if n < 2 ^ 64 then .int n else .float n
  | number q => if q.den = 1 ∧ -2 ^ 63 ≤ q.num ∧ q.num < 2 ^ 64 then .int q.num else .float q
  | str s => .str s

def Value.size (d : Doubles) : Value → Nat
  | null => 4
  | nat n => decimalSize n
  | number q => d.size q
  | str s => quotedSize s

/-- The text of an object with these fields, which are in key order. -/
def stringify (d : Doubles) (fields : List (String × Value)) : Payload where
  size := (fields.map fun f => quotedSize f.1 + f.2.size d + 2).sum + 1
  value := some (.obj (fields.map fun f => (f.1, f.2.json)))

theorem escapedSize_le (c : Char) : escapedSize c ≤ 6 * c.utf8Size := by
  have := c.utf8Size_pos
  unfold escapedSize
  split
  · omega
  · split <;> omega

theorem utf8ByteSize_ofList (l : List Char) : (String.ofList l).utf8ByteSize = (l.map Char.utf8Size).sum := by
  induction l with
  | nil => rfl
  | cons c l ih =>
    have hsplit : String.ofList (c :: l) = String.singleton c ++ String.ofList l := by
      rw [String.singleton_eq_ofList, ← String.ofList_append]
      rfl
    rw [hsplit, String.utf8ByteSize_append, String.utf8ByteSize_singleton, ih, List.map_cons, List.sum_cons]

theorem quotedSize_le (s : String) : quotedSize s ≤ 6 * s.utf8ByteSize + 2 := by
  have hl : ∀ l : List Char, (l.map escapedSize).sum ≤ 6 * (l.map Char.utf8Size).sum := by
    intro l
    induction l with
    | nil => simp
    | cons c l ih =>
      have := escapedSize_le c
      simp only [List.map_cons, List.sum_cons]
      omega
  have := hl s.toList
  rw [← utf8ByteSize_ofList, String.ofList_toList] at this
  unfold quotedSize
  omega

theorem decimalSize_le {n k : Nat} (h : n < 10 ^ (k + 1)) : decimalSize n ≤ k + 1 :=
  max_le (Nat.le_add_left 1 k) ((Nat.digits_length_le_iff (by decide) n).2 h)

/-! ## What the page reads -/

/-- A session id has at most 128 bytes. -/
structure SessionId where
  text : String
  fits : text.utf8ByteSize ≤ 128

/-- The code of a key event that has one. -/
structure Code where
  text : String
  ne : text ≠ ""
  fits : text.utf8ByteSize ≤ 32

/-- The key of a key event. -/
structure KeyName where
  text : String
  fits : text.utf8ByteSize ≤ 32

/-- `Date.now()`. -/
structure Time where
  ms : Nat
  fits : ms ≤ 8640000000000000

/-- A pixel of the canvas, which has at most 16385 on a side. -/
structure Pixel where
  val : Nat
  fits : val ≤ 16384

structure Position where
  x : Pixel
  y : Pixel

abbrev Button := Fin 5

/-- Why everything is released. -/
inductive Reason where
  | windowBlur | pageHide | documentHidden | signalingClosed

def Reason.text : Reason → String
  | windowBlur => "window_blur"
  | pageHide => "page_hide"
  | documentHidden => "document_hidden"
  | signalingClosed => "signaling_closed"

/-! ## The messages -/

structure KeyData where
  key : KeyName
  code : Code
  down : Bool
  clientSendTime : Time
  reason : Option Reason := none

structure ButtonData where
  down : Bool
  button : Button
  position : Position
  clientSendTime : Time
  reason : Option Reason := none

structure WheelData where
  position : Position
  deltaX : ℚ
  deltaY : ℚ
  clientSendTime : Time

structure MoveData where
  position : Position
  clientSendTime : Time

def reasonField (reason : Option Reason) : List (String × Value) := (reason.map fun r => ("reason", .str r.text)).toList

def sessionValue (sessionId : Option SessionId) : Value := (sessionId.map fun s => .str s.text).getD .null

def KeyData.fields (m : KeyData) (sessionId : Option SessionId) (sequenceId : Nat) : List (String × Value) :=
  [("client_send_time", .nat m.clientSendTime.ms), ("code", .str m.code.text), ("key", .str m.key.text)] ++
    reasonField m.reason ++
    [("sequenceId", .nat sequenceId), ("sessionId", sessionValue sessionId),
      ("type", .str (if m.down then "keydown" else "keyup"))]

def ButtonData.fields (m : ButtonData) (sessionId : Option SessionId) : List (String × Value) :=
  [("button", .nat m.button), ("client_send_time", .nat m.clientSendTime.ms)] ++ reasonField m.reason ++
    [("sessionId", sessionValue sessionId), ("type", .str (if m.down then "mousedown" else "mouseup")),
      ("x", .nat m.position.x.val), ("y", .nat m.position.y.val)]

def WheelData.fields (m : WheelData) (sessionId : Option SessionId) : List (String × Value) :=
  [("client_send_time", .nat m.clientSendTime.ms), ("deltaX", .number m.deltaX), ("deltaY", .number m.deltaY),
    ("sessionId", sessionValue sessionId), ("type", .str "wheel"), ("x", .nat m.position.x.val),
    ("y", .nat m.position.y.val)]

def MoveData.fields (m : MoveData) (sessionId : Option SessionId) : List (String × Value) :=
  [("client_send_time", .nat m.clientSendTime.ms), ("sessionId", sessionValue sessionId), ("type", .str "mousemove"),
    ("x", .nat m.position.x.val), ("y", .nat m.position.y.val)]

/-! ## What the schema makes of them -/

section schema

open Host.InputSchema

theorem forM_ok {α : Type} {f : α → Except String Unit} {l : List α} (h : ∀ a ∈ l, f a = .ok ()) :
    l.forM f = .ok () := by
  induction l with
  | nil => rfl
  | cons a l ih =>
    have htail := ih fun b hb => h b (List.mem_cons_of_mem a hb)
    simp only [List.forM, h a List.mem_cons_self] at htail ⊢
    exact htail

theorem checkShape_json (v : Value) (left : Nat) : checkShape (left + 1) v.json = .ok () := by
  cases v with
  | nat n | number q =>
    simp only [Value.json]
    split <;> rfl
  | _ => rfl

theorem checkShape_fields {fields : List (String × Value)} (h : fields.length ≤ 16) :
    checkShape kMaxNestingDepth (.obj (fields.map fun f => (f.1, f.2.json))) = .ok () := by
  simp only [kMaxNestingDepth, checkShape, List.length_map, kMaxObjectMembers, Nat.not_lt.2 h, if_false]
  refine forM_ok fun f hf => ?_
  obtain ⟨g, -, rfl⟩ := List.mem_map.1 hf
  exact checkShape_json g.2 2

theorem hasOnly_fields {fields : List (String × Value)} {allowed : List String} (h : ∀ f ∈ fields, f.1 ∈ allowed) :
    hasOnly (.obj (fields.map fun f => (f.1, f.2.json))) allowed = .ok () := by
  refine forM_ok fun f hf => ?_
  obtain ⟨g, hg, rfl⟩ := List.mem_map.1 hf
  simp only [h g hg, if_true]
  rfl

theorem field?_fields (fields : List (String × Value)) (key : String) :
    Json.field? (.obj (fields.map fun f => (f.1, f.2.json))) key = (fields.lookup key).map Value.json := by
  change (fields.map fun f => (f.1, f.2.json)).lookup key = _
  induction fields with
  | nil => rfl
  | cons f fields ih =>
    rw [List.map_cons, List.lookup_cons, List.lookup_cons]
    split
    · rfl
    · exact ih

/-- The check of one kind of event. -/
def validateKind (eventType : String) (value : Json) : Except String Unit :=
  if eventType = "keydown" || eventType = "keyup" then validateKey value
  else if eventType ∈ ["mousemove", "mousedown", "mouseup", "wheel", "hwheel"] then validateMouse eventType value
  else if eventType = "input_reset" then validateReset value
  else throw "Unknown input event type"

/-- A text that is not too long is accepted where the common fields and those of its kind are. -/
theorem isSome_accepted {d : Doubles} {fields : List (String × Value)} {t : String}
    (hsize : (stringify d fields).size ≤ kMaxPayloadBytes) (hlength : fields.length ≤ 16)
    (htype : fields.lookup "type" = some (.str t)) (ht : t.utf8ByteSize ≤ 32) :
    (accepted (stringify d fields)).isSome ↔
      validateCommon (.obj (fields.map fun f => (f.1, f.2.json))) = .ok () ∧
        validateKind t (.obj (fields.map fun f => (f.1, f.2.json))) = .ok () := by
  have hne : (stringify d fields).size ≠ 0 := by simp [stringify]
  have hfield : Json.field? (.obj (fields.map fun f => (f.1, f.2.json))) "type" = some (.str t) := by
    rw [field?_fields, htype]
    rfl
  unfold accepted validate
  simp only [bind, Except.bind, pure, Except.pure, throw, throwThe, MonadExceptOf.throw]
  rw [if_neg (by simpa [hne] using hsize)]
  simp only [stringify, Json.isObject, checkShape_fields hlength, hfield]
  rw [if_neg (by decide), if_neg (Nat.not_lt.2 ht)]
  unfold validateKind
  generalize Json.obj (fields.map fun f => (f.1, f.2.json)) = value
  cases validateCommon value with
  | error e => simp [Except.toOption]
  | ok u =>
    dsimp only
    split
    · cases validateKey value <;> simp [Except.toOption]
    · split
      · cases validateMouse t value <;> simp [Except.toOption]
      · split
        · cases validateReset value <;> simp [Except.toOption]
        · simp [Except.toOption, throw, throwThe, MonadExceptOf.throw]

theorem wrap_nat {n bits : Nat} (h : n < 2 ^ bits) : Host.wrap (bits + 1) n = n := by
  have h' : (n : Int) < 2 ^ bits := by exact_mod_cast h
  unfold Host.wrap
  rw [Nat.add_sub_cancel, pow_succ, Int.emod_eq_of_lt (by positivity) (by omega)]
  omega

theorem json_nat {n : Nat} (h : n < 2 ^ 64) : (Value.nat n).json = .int n := if_pos h

theorem uint64?_nat {n : Nat} (h : n < 2 ^ 64) : (Json.int n).uint64? = some n := by
  simp only [Json.uint64?, Json.int64?, Host.wrap, Option.map_some, Option.some.injEq]
  rw [← Int.emod_emod_of_dvd _ (dvd_refl ((2 : Int) ^ 64)), Int.sub_emod, Int.emod_emod_of_dvd _ (dvd_refl _),
    ← Int.sub_emod]
  norm_num
  omega

/-- The common fields. -/
theorem validateCommon_iff {fields : List (String × Value)} (sequenceId : Option Nat) (time : Time) (s : SessionId)
    (hseq : fields.lookup "sequenceId" = sequenceId.map .nat)
    (htime : fields.lookup "client_send_time" = some (.nat time.ms))
    (hsession : fields.lookup "sessionId" = some (.str s.text)) :
    validateCommon (.obj (fields.map fun f => (f.1, f.2.json))) = .ok () ↔ ∀ n ∈ sequenceId, n < 2 ^ 32 := by
  have hlt : time.ms < 2 ^ 63 := Nat.lt_of_le_of_lt time.fits (by norm_num)
  have htime' : ¬(!(Value.nat time.ms).json.isInteger || (Value.nat time.ms).json.int64?.any (· < 0)) = true := by
    rw [json_nat (Nat.lt_of_lt_of_le hlt (by norm_num : 2 ^ 63 ≤ 2 ^ 64))]
    simp [Json.isInteger, Json.int64?, wrap_nat hlt]
  have hsession' : ¬(Value.str s.text).json.str?.all (·.utf8ByteSize > 128) = true := by
    have := s.fits
    simpa [Value.json, Json.str?] using this
  unfold validateCommon
  rw [field?_fields, field?_fields, field?_fields, hseq, htime, hsession]
  simp only [Option.map_some]
  rw [if_neg htime', if_neg hsession']
  cases sequenceId with
  | none => simp [pure, Except.pure]
  | some n =>
    have hn : ((!(Value.nat n).json.isUnsigned || (Value.nat n).json.uint64?.any (· > 2 ^ 32 - 1)) = true) ↔
        ¬n < 2 ^ 32 := by
      by_cases h : n < 2 ^ 64
      · rw [json_nat h, uint64?_nat h]
        simp [Json.isUnsigned]
        omega
      · simp only [Value.json, if_neg h, Json.isUnsigned]
        simp
        omega
    simp only [Option.map_some]
    by_cases h : n < 2 ^ 32
    · rw [if_neg (mt hn.1 (not_not.2 h))]
      simpa [pure, Except.pure] using h
    · rw [if_pos (hn.2 h)]
      simpa [bind, Except.bind, throw, throwThe, MonadExceptOf.throw] using h

/-! ### Sizes -/

theorem size_stringify_le {d : Doubles} {fields : List (String × Value)} (h : ∀ f ∈ fields, f.1.utf8ByteSize ≤ 16) :
    (stringify d fields).size ≤ 100 * fields.length + (fields.map (·.2.size d)).sum + 1 := by
  have hsum : (fields.map fun f => quotedSize f.1 + f.2.size d + 2).sum ≤
      100 * fields.length + (fields.map (·.2.size d)).sum := by
    induction fields with
    | nil => simp
    | cons f fields ih =>
      have hname := quotedSize_le f.1
      have hbound := h f List.mem_cons_self
      have htail := ih fun g hg => h g (List.mem_cons_of_mem f hg)
      simp only [List.map_cons, List.sum_cons, List.length_cons]
      omega
  exact Nat.succ_le_succ hsum

theorem size_reason_le (d : Doubles) (reason : Option Reason) :
    ((reasonField reason).map (·.2.size d)).sum ≤ 98 ∧ (reasonField reason).length ≤ 1 := by
  cases reason with
  | none => simp [reasonField]
  | some r =>
    have hr : r.text.utf8ByteSize ≤ 16 := by cases r <;> decide
    have := quotedSize_le r.text
    simp only [reasonField, Option.map_some, Option.toList_some, List.map_cons, List.map_nil, List.sum_cons,
      List.sum_nil, Value.size, List.length_cons, List.length_nil]
    omega

theorem name_reason {reason : Option Reason} {f : String × Value} (h : f ∈ reasonField reason) : f.1 = "reason" := by
  cases reason with
  | none => cases h
  | some r => exact congrArg Prod.fst (List.mem_singleton.1 h)

theorem size_session_le (d : Doubles) (sessionId : SessionId) : (sessionValue (some sessionId)).size d ≤ 770 := by
  have := quotedSize_le sessionId.text
  have := sessionId.fits
  simp only [sessionValue, Option.map_some, Option.getD_some, Value.size]
  omega

theorem size_time_le (d : Doubles) (t : Time) : (Value.nat t.ms).size d ≤ 16 :=
  decimalSize_le (Nat.lt_of_le_of_lt t.fits (by norm_num))

theorem size_pixel_le (d : Doubles) (p : Pixel) : (Value.nat p.val).size d ≤ 5 :=
  decimalSize_le (Nat.lt_of_le_of_lt p.fits (by norm_num))

variable {d : Doubles} {sessionId : SessionId}

/-! ### Names -/

theorem KeyData.name_fields {m : KeyData} {id : Option SessionId} {n : Nat} {f : String × Value}
    (h : f ∈ m.fields id n) : f.1 ∈ common ++ ["code", "key"] := by
  simp only [KeyData.fields, List.mem_append, List.mem_cons, List.not_mem_nil, or_false] at h
  rcases h with ((rfl | rfl | rfl) | h) | rfl | rfl | rfl
  on_goal 4 => rw [name_reason h]; decide
  all_goals
    dsimp only
    decide

theorem ButtonData.name_fields {m : ButtonData} {id : Option SessionId} {f : String × Value} (h : f ∈ m.fields id) :
    f.1 ∈ common ++ ["x", "y", "button", "deltaX", "deltaY"] := by
  simp only [ButtonData.fields, List.mem_append, List.mem_cons, List.not_mem_nil, or_false] at h
  rcases h with ((rfl | rfl) | h) | rfl | rfl | rfl | rfl
  on_goal 3 => rw [name_reason h]; decide
  all_goals
    dsimp only
    decide

theorem WheelData.name_fields {m : WheelData} {id : Option SessionId} {f : String × Value} (h : f ∈ m.fields id) :
    f.1 ∈ common ++ ["x", "y", "button", "deltaX", "deltaY"] := by
  simp only [WheelData.fields, List.mem_cons, List.not_mem_nil, or_false] at h
  rcases h with rfl | rfl | rfl | rfl | rfl | rfl | rfl
  all_goals
    dsimp only
    decide

theorem MoveData.name_fields {m : MoveData} {id : Option SessionId} {f : String × Value} (h : f ∈ m.fields id) :
    f.1 ∈ common ++ ["x", "y", "button", "deltaX", "deltaY"] := by
  simp only [MoveData.fields, List.mem_cons, List.not_mem_nil, or_false] at h
  rcases h with rfl | rfl | rfl | rfl | rfl
  all_goals
    dsimp only
    decide

/-- The names the schema knows are short. -/
theorem short_of_mem {allowed : List String} {name : String}
    (hallowed : allowed = common ++ ["code", "key"] ∨ allowed = common ++ ["x", "y", "button", "deltaX", "deltaY"])
    (h : name ∈ allowed) : name.utf8ByteSize ≤ 16 := by
  have hkey : ∀ n ∈ common ++ ["code", "key"], n.utf8ByteSize ≤ 16 := by decide
  have hmouse : ∀ n ∈ common ++ ["x", "y", "button", "deltaX", "deltaY"], n.utf8ByteSize ≤ 16 := by decide
  rcases hallowed with rfl | rfl
  · exact hkey name h
  · exact hmouse name h

/-! ### Lengths -/

theorem size_key_le (m : KeyData) {sequenceId : Nat} (h : sequenceId < 2 ^ 32) :
    (stringify d (m.fields (some sessionId) sequenceId)).size ≤ kMaxPayloadBytes := by
  obtain ⟨hreason, hlength⟩ := size_reason_le d m.reason
  have hsession := size_session_le d sessionId
  have htime := size_time_le d m.clientSendTime
  have hkey := quotedSize_le m.key.text
  have hcode := quotedSize_le m.code.text
  have hkey' := m.key.fits
  have hcode' := m.code.fits
  have hseq : decimalSize sequenceId ≤ 10 := decimalSize_le (Nat.lt_trans h (by norm_num))
  have htype : quotedSize (if m.down then "keydown" else "keyup") ≤ 62 := by cases m.down <;> decide
  refine Nat.le_trans (size_stringify_le fun f hf => short_of_mem (.inl rfl) (m.name_fields hf)) ?_
  simp only [KeyData.fields, List.map_append, List.sum_append, List.length_append, List.map_cons, List.map_nil,
    List.sum_cons, List.sum_nil, List.length_cons, List.length_nil, Value.size, kMaxPayloadBytes] at *
  omega

theorem size_button_le (m : ButtonData) :
    (stringify d (m.fields (some sessionId))).size ≤ kMaxPayloadBytes := by
  obtain ⟨hreason, hlength⟩ := size_reason_le d m.reason
  have hsession := size_session_le d sessionId
  have htime := size_time_le d m.clientSendTime
  have hx := size_pixel_le d m.position.x
  have hy := size_pixel_le d m.position.y
  have hbutton : decimalSize m.button ≤ 1 := decimalSize_le (Nat.lt_trans m.button.isLt (by norm_num))
  have htype : quotedSize (if m.down then "mousedown" else "mouseup") ≤ 62 := by cases m.down <;> decide
  refine Nat.le_trans (size_stringify_le fun f hf => short_of_mem (.inr rfl) (m.name_fields hf)) ?_
  simp only [ButtonData.fields, List.map_append, List.sum_append, List.length_append, List.map_cons, List.map_nil,
    List.sum_cons, List.sum_nil, List.length_cons, List.length_nil, Value.size, kMaxPayloadBytes] at *
  omega

theorem size_wheel_le (m : WheelData) : (stringify d (m.fields (some sessionId))).size ≤ kMaxPayloadBytes := by
  have hsession := size_session_le d sessionId
  have htime := size_time_le d m.clientSendTime
  have hx := size_pixel_le d m.position.x
  have hy := size_pixel_le d m.position.y
  have hdx := d.size_le m.deltaX
  have hdy := d.size_le m.deltaY
  have htype : quotedSize "wheel" ≤ 62 := by decide
  refine Nat.le_trans (size_stringify_le fun f hf => short_of_mem (.inr rfl) (m.name_fields hf)) ?_
  simp only [WheelData.fields, List.map_cons, List.map_nil, List.sum_cons, List.sum_nil, List.length_cons,
    List.length_nil, Value.size, kMaxPayloadBytes] at *
  omega

theorem size_move_le (m : MoveData) : (stringify d (m.fields (some sessionId))).size ≤ kMaxPayloadBytes := by
  have hsession := size_session_le d sessionId
  have htime := size_time_le d m.clientSendTime
  have hx := size_pixel_le d m.position.x
  have hy := size_pixel_le d m.position.y
  have htype : quotedSize "mousemove" ≤ 62 := by decide
  refine Nat.le_trans (size_stringify_le fun f hf => short_of_mem (.inr rfl) (m.name_fields hf)) ?_
  simp only [MoveData.fields, List.map_cons, List.map_nil, List.sum_cons, List.sum_nil, List.length_cons,
    List.length_nil, Value.size, kMaxPayloadBytes] at *
  omega

/-! ### Acceptance -/

/-- What is accepted has common fields that are. -/
theorem common_of_accepted {fields : List (String × Value)} (h : (accepted (stringify d fields)).isSome) :
    validateCommon (.obj (fields.map fun f => (f.1, f.2.json))) = .ok () := by
  obtain ⟨e, he⟩ := Option.isSome_iff_exists.1 h
  obtain ⟨hv, -, -, hc⟩ := Host.InputSchema.accepted_spec he
  exact Option.some.inj hv ▸ hc

theorem validateKey_fields (m : KeyData) (sequenceId : Nat) :
    validateKey (.obj ((m.fields (some sessionId) sequenceId).map fun f => (f.1, f.2.json))) = .ok () := by
  have honly : hasOnly (.obj ((m.fields (some sessionId) sequenceId).map fun f => (f.1, f.2.json)))
      (common ++ ["code", "key"]) = .ok () := hasOnly_fields fun _ hf => m.name_fields hf
  have hcode : (m.fields (some sessionId) sequenceId).lookup "code" = some (.str m.code.text) := rfl
  have hkey : (m.fields (some sessionId) sequenceId).lookup "key" = some (.str m.key.text) := rfl
  have hcode' : ¬(m.code.text = "" ∨ m.code.text.utf8ByteSize > 32) := by
    have := m.code.fits
    simpa [m.code.ne] using this
  have hkey' : ¬m.key.text.utf8ByteSize > 32 := Nat.not_lt.2 m.key.fits
  unfold validateKey
  rw [honly, field?_fields, field?_fields, hcode, hkey]
  simp only [Option.map_some, Value.json, Json.str?, Option.all_some, Bool.or_eq_true, decide_eq_true_eq]
  rw [if_neg hcode', if_neg hkey']
  rfl

/-- **A key message is accepted where its sequence number has 32 bits.** -/
theorem accepted_key_iff (m : KeyData) (sequenceId : Nat) :
    (accepted (stringify d (m.fields (some sessionId) sequenceId))).isSome ↔ sequenceId < 2 ^ 32 := by
  have hseq : (m.fields (some sessionId) sequenceId).lookup "sequenceId" = some (.nat sequenceId) := by
    rcases m with ⟨_, _, _, _, _ | r⟩ <;> rfl
  have hsession : (m.fields (some sessionId) sequenceId).lookup "sessionId" = some (.str sessionId.text) := by
    rcases m with ⟨_, _, _, _, _ | r⟩ <;> rfl
  have htype : (m.fields (some sessionId) sequenceId).lookup "type" =
      some (.str (if m.down then "keydown" else "keyup")) := by
    rcases m with ⟨_, _, _, _, _ | r⟩ <;> rfl
  have hcommon := validateCommon_iff (some sequenceId) m.clientSendTime sessionId hseq rfl hsession
  refine ⟨fun h => hcommon.1 (common_of_accepted h) _ rfl, fun h => ?_⟩
  refine (isSome_accepted (size_key_le m h) ?_ htype ?_).2 ⟨hcommon.2 fun n hn => ?_, ?_⟩
  · have := (size_reason_le d m.reason).2
    simp only [KeyData.fields, List.length_append, List.length_cons, List.length_nil]
    omega
  · cases m.down <;> decide
  · cases hn
    exact h
  · rw [← validateKey_fields m sequenceId]
    cases m.down <;> rfl

theorem validateCoordinates_fields {fields : List (String × Value)} {p : Position}
    (hx : fields.lookup "x" = some (.nat p.x.val)) (hy : fields.lookup "y" = some (.nat p.y.val)) :
    validateCoordinates (.obj (fields.map fun f => (f.1, f.2.json))) = .ok () := by
  have hint : ∀ q : Pixel, (Value.nat q.val).json = .int q.val ∧ Host.wrap 64 q.val = q.val := fun q =>
    ⟨json_nat (Nat.lt_of_le_of_lt q.fits (by norm_num)), wrap_nat (Nat.lt_of_le_of_lt q.fits (by norm_num))⟩
  have hle := p.x.fits
  have hle' := p.y.fits
  unfold validateCoordinates
  rw [field?_fields, field?_fields, hx, hy]
  simp only [Option.map_some, (hint _).1, (hint _).2, kMaxCoordinate]
  rw [if_neg]
  · rfl
  · simp only [Bool.or_eq_true, decide_eq_true_eq]
    omega

theorem validateMouse_button (m : ButtonData) : validateMouse (if m.down then "mousedown" else "mouseup")
    (.obj ((m.fields (some sessionId)).map fun f => (f.1, f.2.json))) = .ok () := by
  have honly : hasOnly (.obj ((m.fields (some sessionId)).map fun f => (f.1, f.2.json)))
      (common ++ ["x", "y", "button", "deltaX", "deltaY"]) = .ok () := hasOnly_fields fun _ hf => m.name_fields hf
  have hx : (m.fields (some sessionId)).lookup "x" = some (.nat m.position.x.val) := by
    rcases m with ⟨_, _, _, _, _ | r⟩ <;> rfl
  have hy : (m.fields (some sessionId)).lookup "y" = some (.nat m.position.y.val) := by
    rcases m with ⟨_, _, _, _, _ | r⟩ <;> rfl
  have hbutton : Json.field? (.obj ((m.fields (some sessionId)).map fun f => (f.1, f.2.json))) "button" =
      some (.int m.button) := by
    rw [field?_fields]
    exact congrArg some (json_nat (Nat.lt_trans m.button.isLt (by norm_num)))
  have hwrap : Host.wrap 32 (m.button : Nat) = (m.button : Nat) := wrap_nat (Nat.lt_trans m.button.isLt (by norm_num))
  have hrange : ¬(decide (Host.wrap 32 (m.button : Nat) < 0) || decide (Host.wrap 32 (m.button : Nat) > 4)) = true := by
    have := m.button.isLt
    rw [hwrap, Bool.or_eq_true, decide_eq_true_eq, decide_eq_true_eq]
    omega
  unfold validateMouse
  rw [honly, validateCoordinates_fields hx hy, hbutton]
  simp only [hrange, bind, Except.bind, pure, Except.pure]
  cases m.down <;> rfl

theorem accepted_button (m : ButtonData) : (accepted (stringify d (m.fields (some sessionId)))).isSome := by
  have hsession : (m.fields (some sessionId)).lookup "sessionId" = some (.str sessionId.text) := by
    rcases m with ⟨_, _, _, _, _ | r⟩ <;> rfl
  have hseq : (m.fields (some sessionId)).lookup "sequenceId" = none := by rcases m with ⟨_, _, _, _, _ | r⟩ <;> rfl
  have htype : (m.fields (some sessionId)).lookup "type" = some (.str (if m.down then "mousedown" else "mouseup")) := by
    rcases m with ⟨_, _, _, _, _ | r⟩ <;> rfl
  have hcommon := validateCommon_iff none m.clientSendTime sessionId hseq rfl hsession
  refine (isSome_accepted (size_button_le m) ?_ htype ?_).2 ⟨hcommon.2 fun n hn => (by cases hn), ?_⟩
  · have := (size_reason_le d m.reason).2
    simp only [ButtonData.fields, List.length_append, List.length_cons, List.length_nil]
    omega
  · cases m.down <;> decide
  · rw [← validateMouse_button m]
    cases m.down <;> rfl

theorem accepted_move (m : MoveData) : (accepted (stringify d (m.fields (some sessionId)))).isSome := by
  have honly : hasOnly (.obj ((m.fields (some sessionId)).map fun f => (f.1, f.2.json)))
      (common ++ ["x", "y", "button", "deltaX", "deltaY"]) = .ok () := hasOnly_fields fun _ hf => m.name_fields hf
  have hcommon := @validateCommon_iff (m.fields (some sessionId)) none m.clientSendTime sessionId rfl rfl rfl
  refine (isSome_accepted (t := "mousemove") (size_move_le m) (by simp [MoveData.fields]) rfl (by decide)).2
    ⟨hcommon.2 fun n hn => (by cases hn), ?_⟩
  change validateMouse "mousemove" _ = _
  unfold validateMouse
  rw [honly, validateCoordinates_fields (p := m.position) rfl rfl]
  rfl

theorem validateMouse_wheel (m : WheelData) :
    validateMouse "wheel" (.obj ((m.fields (some sessionId)).map fun f => (f.1, f.2.json))) = .ok () ↔
      |m.deltaX| ≤ kMaxWheelDelta ∧ |m.deltaY| ≤ kMaxWheelDelta := by
  have honly : hasOnly (.obj ((m.fields (some sessionId)).map fun f => (f.1, f.2.json)))
      (common ++ ["x", "y", "button", "deltaX", "deltaY"]) = .ok () := hasOnly_fields fun _ hf => m.name_fields hf
  have hdelta : ∀ q : ℚ, wheelDelta (Value.number q).json = decide (|q| ≤ kMaxWheelDelta) := by
    intro q
    simp only [Value.json]
    split
    · rename_i h
      simp only [wheelDelta, (Rat.den_eq_one_iff q).1 h.1]
    · rfl
  have hx : Json.field? (.obj ((m.fields (some sessionId)).map fun f => (f.1, f.2.json))) "deltaX" =
      some (Value.number m.deltaX).json := by
    rw [field?_fields]
    rfl
  have hy : Json.field? (.obj ((m.fields (some sessionId)).map fun f => (f.1, f.2.json))) "deltaY" =
      some (Value.number m.deltaY).json := by
    rw [field?_fields]
    rfl
  have hbutton : Json.field? (.obj ((m.fields (some sessionId)).map fun f => (f.1, f.2.json))) "button" = none := by
    rw [field?_fields]
    rfl
  unfold validateMouse Json.contains
  rw [honly, validateCoordinates_fields (p := m.position) rfl rfl, hx, hy, hbutton]
  by_cases h : |m.deltaX| ≤ kMaxWheelDelta ∧ |m.deltaY| ≤ kMaxWheelDelta
  · refine iff_of_true ?_ h
    simp [bind, Except.bind, pure, Except.pure, hdelta, h.1, h.2]
  · refine iff_of_false ?_ h
    have hlt : |m.deltaX| ≤ kMaxWheelDelta → kMaxWheelDelta < |m.deltaY| :=
      fun hle => not_le.1 fun hle' => h ⟨hle, hle'⟩
    simpa [bind, Except.bind, pure, Except.pure, hdelta, throw, throwThe, MonadExceptOf.throw] using hlt

/-- **A wheel message is accepted where its deltas are within bounds.** -/
theorem accepted_wheel_iff (m : WheelData) : (accepted (stringify d (m.fields (some sessionId)))).isSome ↔
    |m.deltaX| ≤ kMaxWheelDelta ∧ |m.deltaY| ≤ kMaxWheelDelta := by
  have hcommon := @validateCommon_iff (m.fields (some sessionId)) none m.clientSendTime sessionId rfl rfl rfl
  rw [isSome_accepted (t := "wheel") (size_wheel_le m) (by simp [WheelData.fields]) rfl (by decide)]
  change _ ∧ validateMouse "wheel" _ = _ ↔ _
  rw [validateMouse_wheel]
  exact and_iff_right (hcommon.2 fun n hn => by cases hn)

end schema

end Client
end CloudGaming
