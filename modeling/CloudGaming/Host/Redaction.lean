import CloudGaming.Host.Json
import Mathlib.Data.List.Infix
/-!
# Redaction — what a support bundle tells of two documents

`SanitizeJson` replaces the values under the keys it takes for secret, and passes the strings elsewhere through
`redact`, the regular expressions of `Redact`; the results hold whatever these do.  `Agree` says that two documents have
one shape and differ, besides what is under certain keys, in strings that are told apart no further.
-/
namespace CloudGaming
namespace Host
namespace Redaction

/-! ## The keys -/

/-- The name in lower case: `std::tolower` knows the letters of ASCII only. -/
def lowered (key : String) : List Char := key.toList.map Char.toLower

/-- `find(needle) != npos`. -/
def finds (name : List Char) (needle : String) : Bool := decide (needle.toList <:+: name)

def identifiers : List String := ["roomid", "pairingcode", "sessionid", "hostid"]

/-- The keys whose values `SanitizeJson` replaces. -/
def redacts (key : String) : Bool :=
  decide (lowered key ∈ identifiers.map (·.toList)) || finds (lowered key) "secret" || finds (lowered key) "token" ||
    finds (lowered key) "password" || finds (lowered key) "credential"

/-- The keys whose values are documented as redacted. -/
def secret (key : String) : Bool := redacts key || finds (lowered key) "authorization"

/-! ## `SanitizeJson` -/

section

variable (redact : String → String)

mutual

def sanitize : Json → Json
  | .obj fields => .obj (sanitizeFields fields)
  | .arr items => .arr (sanitizeItems items)
  | .str s => .str (redact s)
  | j => j

def sanitizeFields : List (String × Json) → List (String × Json)
  | [] => []
  | (key, child) :: rest =>
    (key, if redacts key then .str "[REDACTED]" else sanitize child) :: sanitizeFields rest

def sanitizeItems : List Json → List Json
  | [] => []
  | child :: rest => sanitize child :: sanitizeItems rest

end

end

/-! ## Two documents -/

section

/- Under the keys of `hidden` the documents may differ; `same` says when two strings count as one. -/
variable (hidden : String → Bool) (same : String → String → Prop)

mutual

def Agree : Json → Json → Prop
  | .null, .null => True
  | .bool a, .bool b => a = b
  | .int a, .int b => a = b
  | .float a, .float b => a = b
  | .str a, .str b => same a b
  | .arr xs, .arr ys => AgreeItems xs ys
  | .obj xs, .obj ys => AgreeFields xs ys
  | _, _ => False

def AgreeItems : List Json → List Json → Prop
  | [], [] => True
  | x :: xs, y :: ys => Agree x y ∧ AgreeItems xs ys
  | _, _ => False

def AgreeFields : List (String × Json) → List (String × Json) → Prop
  | [], [] => True
  | (k, x) :: xs, (l, y) :: ys => k = l ∧ (hidden k = true ∨ Agree x y) ∧ AgreeFields xs ys
  | _, _ => False

end

end

/-- Two documents that differ only in values under secret keys. -/
def DifferInSecrets : Json → Json → Prop := Agree secret (· = ·)

section

variable (redact : String → String)

/-- Two documents that differ only in what the sanitizer hides. -/
def Alike : Json → Json → Prop := Agree redacts fun s t => redact s = redact t

mutual

/-- The values under a secret key that the sanitizer does not know, an authorization, are alike. -/
def AuthorizationAlike : Json → Json → Prop
  | .arr xs, .arr ys => AuthorizationAlikeItems xs ys
  | .obj xs, .obj ys => AuthorizationAlikeFields xs ys
  | _, _ => True

def AuthorizationAlikeItems : List Json → List Json → Prop
  | x :: xs, y :: ys => AuthorizationAlike x y ∧ AuthorizationAlikeItems xs ys
  | _, _ => True

def AuthorizationAlikeFields : List (String × Json) → List (String × Json) → Prop
  | (k, x) :: xs, (_, y) :: ys =>
    (redacts k = true ∨ (if secret k then Alike redact x y else AuthorizationAlike x y)) ∧
      AuthorizationAlikeFields xs ys
  | _, _ => True

end

end

/-! ## What the sanitizer tells apart -/

section

variable {redact : String → String}

mutual

/-- **The sanitizer makes one document of two exactly where they are alike.** -/
theorem sanitize_eq_iff : ∀ d e : Json, sanitize redact d = sanitize redact e ↔ Alike redact d e
  | .null, e => by cases e <;> simp [sanitize, Alike, Agree]
  | .bool a, e => by cases e <;> simp [sanitize, Alike, Agree]
  | .int a, e => by cases e <;> simp [sanitize, Alike, Agree]
  | .float a, e => by cases e <;> simp [sanitize, Alike, Agree]
  | .str a, e => by cases e <;> simp [sanitize, Alike, Agree]
  | .arr xs, e => by
    cases e with
    | arr ys =>
      have h := sanitizeItems_eq_iff xs ys
      simp [sanitize, Alike, Agree, h]
    | _ => simp [sanitize, Alike, Agree]
  | .obj xs, e => by
    cases e with
    | obj ys =>
      have h := sanitizeFields_eq_iff xs ys
      simp [sanitize, Alike, Agree, h]
    | _ => simp [sanitize, Alike, Agree]

theorem sanitizeItems_eq_iff : ∀ xs ys : List Json, sanitizeItems redact xs = sanitizeItems redact ys ↔
    AgreeItems redacts (fun s t => redact s = redact t) xs ys
  | [], [] => by simp [AgreeItems]
  | [], y :: ys => by simp [sanitizeItems, AgreeItems]
  | x :: xs, [] => by simp [sanitizeItems, AgreeItems]
  | x :: xs, y :: ys => by
    rw [sanitizeItems, sanitizeItems, List.cons.injEq, sanitize_eq_iff x y, sanitizeItems_eq_iff xs ys, AgreeItems]
    rfl

theorem sanitizeFields_eq_iff : ∀ xs ys : List (String × Json), sanitizeFields redact xs = sanitizeFields redact ys ↔
    AgreeFields redacts (fun s t => redact s = redact t) xs ys
  | [], [] => by simp [AgreeFields]
  | [], (l, y) :: ys => by simp [sanitizeFields, AgreeFields]
  | (k, x) :: xs, [] => by simp [sanitizeFields, AgreeFields]
  | (k, x) :: xs, (l, y) :: ys => by
    have h := sanitize_eq_iff x y
    rw [sanitizeFields, sanitizeFields, List.cons.injEq, Prod.mk.injEq, sanitizeFields_eq_iff xs ys, AgreeFields,
      and_assoc]
    refine and_congr_right fun hk => and_congr_left fun _ => ?_
    subst hk
    by_cases hr : redacts k = true
    · simp [hr]
    · rw [if_neg hr, if_neg hr, or_iff_right hr]
      exact h

end

mutual

/-- Documents that differ in secrets only are alike where their authorizations are. -/
theorem alike_iff : ∀ d e : Json, DifferInSecrets d e → (Alike redact d e ↔ AuthorizationAlike redact d e)
  | .null, e, h => by cases e <;> simp_all [DifferInSecrets, Alike, Agree, AuthorizationAlike]
  | .bool a, e, h => by cases e <;> simp_all [DifferInSecrets, Alike, Agree, AuthorizationAlike]
  | .int a, e, h => by cases e <;> simp_all [DifferInSecrets, Alike, Agree, AuthorizationAlike]
  | .float a, e, h => by cases e <;> simp_all [DifferInSecrets, Alike, Agree, AuthorizationAlike]
  | .str a, e, h => by cases e <;> simp_all [DifferInSecrets, Alike, Agree, AuthorizationAlike]
  | .arr xs, e, h => by
    cases e with
    | arr ys =>
      have hi := alikeItems_iff xs ys h
      simpa [Alike, Agree, AuthorizationAlike] using hi
    | _ => exact absurd h (by simp [DifferInSecrets, Agree])
  | .obj xs, e, h => by
    cases e with
    | obj ys =>
      have hf := alikeFields_iff xs ys h
      simpa [Alike, Agree, AuthorizationAlike] using hf
    | _ => exact absurd h (by simp [DifferInSecrets, Agree])

theorem alikeItems_iff : ∀ xs ys : List Json, AgreeItems secret (· = ·) xs ys →
    (AgreeItems redacts (fun s t => redact s = redact t) xs ys ↔ AuthorizationAlikeItems redact xs ys)
  | [], [], _ => by simp [AgreeItems, AuthorizationAlikeItems]
  | [], y :: ys, h => absurd h (by simp [AgreeItems])
  | x :: xs, [], h => absurd h (by simp [AgreeItems])
  | x :: xs, y :: ys, h => by
    rw [AgreeItems] at h ⊢
    rw [AuthorizationAlikeItems, alikeItems_iff xs ys h.2]
    exact and_congr_left fun _ => alike_iff x y h.1

theorem alikeFields_iff : ∀ xs ys : List (String × Json), AgreeFields secret (· = ·) xs ys →
    (AgreeFields redacts (fun s t => redact s = redact t) xs ys ↔ AuthorizationAlikeFields redact xs ys)
  | [], [], _ => by simp [AgreeFields, AuthorizationAlikeFields]
  | [], y :: ys, h => absurd h (by simp [AgreeFields])
  | x :: xs, [], h => absurd h (by simp [AgreeFields])
  | (k, x) :: xs, (l, y) :: ys, h => by
    rw [AgreeFields] at h ⊢
    obtain ⟨hk, hxy, hrest⟩ := h
    rw [AuthorizationAlikeFields, alikeFields_iff xs ys hrest, ← and_assoc, and_iff_right hk]
    refine and_congr_left fun _ => or_congr_right ?_
    by_cases hs : secret k = true
    · rw [if_pos hs]
      exact Iff.rfl
    · rw [if_neg hs]
      exact alike_iff x y (hxy.resolve_left hs)

end

end

/-- **The sanitizer hides every difference in secrets, but for those in authorizations**: two documents that differ only
under secret keys give one output exactly where the values under a key that tells of an authorization and of none of
the other secrets are alike. -/
theorem sanitize_eq_iff_authorizations (redact : String → String) (d e : Json) (h : DifferInSecrets d e) :
    sanitize redact d = sanitize redact e ↔ AuthorizationAlike redact d e :=
  (sanitize_eq_iff d e).trans (alike_iff d e h)

/-- The headers of a request to the matchmaker, with its token. -/
def headers (token : String) (authorization : Int) : Json :=
  .obj [("Authorization", .int authorization), ("accessToken", .str token)]

theorem differInSecrets_headers (t u : String) (a b : Int) : DifferInSecrets (headers t a) (headers u b) :=
  ⟨rfl, .inl (by decide), rfl, .inl (by decide), trivial⟩

theorem sanitize_headers : sanitize id (headers "a" 1) = sanitize id (headers "b" 1) :=
  (sanitize_eq_iff_authorizations id (headers "a" 1) (headers "b" 1) (differInSecrets_headers "a" "b" 1 1)).2
    ⟨.inr rfl, .inl (by decide), trivial⟩

/-- **The value of an authorization comes through**, whatever is done to strings. -/
theorem not_sanitize_eq :
    ¬ ∃ redact, ∀ d e, DifferInSecrets d e → sanitize redact d = sanitize redact e := by
  rintro ⟨redact, h⟩
  have heq := h (headers "a" 1) (headers "a" 2) (differInSecrets_headers "a" "a" 1 2)
  obtain ⟨-, hauth, -⟩ := (sanitize_eq_iff (headers "a" 1) (headers "a" 2)).1 heq
  have hone : (1 : Int) = 2 := hauth.resolve_left (by decide)
  exact absurd hone (by decide)

end Redaction
end Host
end CloudGaming
