import CloudGaming.Async.Interleave
/-!
# Among — a program and what goes on around it

`Prog.Within` bounds what a program may do, whatever it is told: the commands it may await and the calls it may make.
`Prog.runAmong` runs a program in surroundings that act while it awaits: a turn says what becomes of a command, and what
the surroundings do before it reaches the store and before the program goes on.
-/
namespace CloudGaming
namespace Async

variable {σ : Sig} {W L E α β : Type}

namespace Prog

/-! ## Programs by what they may do -/

/-- Every command the program may execute satisfies `P` and every call it may make `O`, whatever it is told. -/
def Within (P : σ.Cmd → Prop) (O : σ.Call → Prop) : Prog σ α → Prop
  | ret _ => True
  | throw => True
  | await c k => P c ∧ ∀ r, Within P O (k r)
  | call o k => O o ∧ ∀ a, Within P O (k a)

section within
variable {P : σ.Cmd → Prop} {O : σ.Call → Prop}

theorem within_send {c : σ.Cmd} (h : P c) : (send c : Prog σ _).Within P O := by
  refine ⟨h, fun r => ?_⟩
  cases r <;> trivial

theorem within_invoke {o : σ.Call} (h : O o) : (invoke o : Prog σ _).Within P O := ⟨h, fun _ => trivial⟩

theorem Within.graft {p : Prog σ α} {f : α → Prog σ β} {q : Prog σ β} (h : p.Within P O)
    (hf : ∀ a, (f a).Within P O) (hq : q.Within P O) : (p.graft f q).Within P O := by
  induction p with
  | ret a => exact hf a
  | throw => exact hq
  | await c k ih => exact ⟨h.1, fun r => ih r (h.2 r)⟩
  | call o k ih => exact ⟨h.1, fun a => ih a (h.2 a)⟩

theorem Within.bind {p : Prog σ α} {f : α → Prog σ β} (h : p.Within P O) (hf : ∀ a, (f a).Within P O) :
    (p >>= f).Within P O := by
  rw [bind_eq_graft]
  exact h.graft hf trivial

theorem Within.tryCatch {p q : Prog σ α} (h : p.Within P O) (hq : q.Within P O) : (p.tryCatch q).Within P O := by
  rw [tryCatch_eq_graft]
  exact h.graft (fun _ => trivial) hq

theorem Within.mono {P' : σ.Cmd → Prop} {O' : σ.Call → Prop} (hP : ∀ c, P c → P' c) (hO : ∀ o, O o → O' o)
    {p : Prog σ α} (h : p.Within P O) : p.Within P' O' := by
  induction p with
  | ret a => trivial
  | throw => trivial
  | await c k ih => exact ⟨hP c h.1, fun r => ih r (h.2 r)⟩
  | call o k ih => exact ⟨hO o h.1, fun a => ih a (h.2 a)⟩

end within

/-! ## Programs by what they may return -/

/-- Every value the program may return satisfies `P`, whatever it is told. -/
def Yields (P : α → Prop) : Prog σ α → Prop
  | ret a => P a
  | throw => True
  | await _ k => ∀ r, Yields P (k r)
  | call _ k => ∀ a, Yields P (k a)

section yields
variable {P : α → Prop} {Q : β → Prop}

theorem yields_any (p : Prog σ α) : p.Yields fun _ => True := by
  induction p with
  | ret a => trivial
  | throw => trivial
  | await c k ih => exact ih
  | call o k ih => exact ih

theorem Yields.bind {p : Prog σ α} {f : α → Prog σ β} (h : p.Yields P) (hf : ∀ a, P a → (f a).Yields Q) :
    (p >>= f).Yields Q := by
  induction p with
  | ret a => exact hf a h
  | throw => trivial
  | await c k ih => exact fun r => ih r (h r)
  | call o k ih => exact fun a => ih a (h a)

/-- What follows a program whose value does not matter. -/
theorem yields_bind {p : Prog σ α} {f : α → Prog σ β} (hf : ∀ a, (f a).Yields Q) : (p >>= f).Yields Q :=
  p.yields_any.bind fun a _ => hf a

end yields

/-! ## Programs in their surroundings -/

/-- What becomes of a command, and what the surroundings do before it reaches the store and before the program goes on. -/
structure Turn (W : Type) where
  fate : Fate := .answered
  before : W → W := id
  after : W → W := id

/-- The program in its surroundings, command number `i` having its turn `turns i`. -/
def runAmong (M : Machine σ W) (turns : Nat → Turn W) : Prog σ α → Nat → W → Outcome α W
  | ret a, i, w => ⟨some a, i, w⟩
  | throw, i, w => ⟨none, i, w⟩
  | await c k, i, w =>
    let w := (turns i).before w
    match (turns i).fate with
    | .answered => runAmong M turns (k (some (M.exec c w).1)) (i + 1) ((turns i).after (M.exec c w).2)
    | .rejected => runAmong M turns (k none) (i + 1) ((turns i).after w)
    | .lost => runAmong M turns (k none) (i + 1) ((turns i).after (M.exec c w).2)
  | call o k, i, w => runAmong M turns (k (M.call o w).1) i (M.call o w).2

section among
variable (M : Machine σ W) (turns : Nat → Turn W)

/-- What follows starts on the world and the command number the program left. -/
theorem runAmong_graft (p : Prog σ α) (f : α → Prog σ β) (q : Prog σ β) (i : Nat) (w : W) :
    runAmong M turns (p.graft f q) i w = match (runAmong M turns p i w).result with
      | some a => runAmong M turns (f a) (runAmong M turns p i w).next (runAmong M turns p i w).world
      | none => runAmong M turns q (runAmong M turns p i w).next (runAmong M turns p i w).world := by
  induction p generalizing i w with
  | ret a => rfl
  | throw => rfl
  | await c k ih =>
    simp only [graft, runAmong]
    cases (turns i).fate with
    | answered => exact ih _ _ _
    | rejected => exact ih _ _ _
    | lost => exact ih _ _ _
  | call o k ih => exact ih _ _ _

theorem runAmong_bind (p : Prog σ α) (f : α → Prog σ β) (i : Nat) (w : W) :
    runAmong M turns (p >>= f) i w = match (runAmong M turns p i w).result with
      | some a => runAmong M turns (f a) (runAmong M turns p i w).next (runAmong M turns p i w).world
      | none => ⟨none, (runAmong M turns p i w).next, (runAmong M turns p i w).world⟩ := by
  rw [bind_eq_graft]
  exact runAmong_graft M turns p f throw i w

/-- A thrown body continues with the handler, on the world and the command number it left. -/
theorem runAmong_tryCatch (p q : Prog σ α) (i : Nat) (w : W) :
    runAmong M turns (p.tryCatch q) i w = match (runAmong M turns p i w).result with
      | some _ => runAmong M turns p i w
      | none => runAmong M turns q (runAmong M turns p i w).next (runAmong M turns p i w).world := by
  rw [tryCatch_eq_graft, runAmong_graft]
  cases h : (runAmong M turns p i w).result with
  | some a =>
    change (⟨some a, _, _⟩ : Outcome α W) = runAmong M turns p i w
    rw [← h]
  | none => rfl

theorem runAmong_invoke_bind (o : σ.Call) (f : σ.Answer o → Prog σ β) (i : Nat) (w : W) :
    runAmong M turns (invoke o >>= f) i w = runAmong M turns (f (M.call o w).1) i (M.call o w).2 := rfl

/-- A command whose failure is caught: what follows is told the reply, or that there is none. -/
theorem runAmong_settled (c : σ.Cmd) (f : Option (σ.Reply c) → Prog σ β) (i : Nat) (w : W) :
    runAmong M turns ((send c >>= fun r => ret (some r)).tryCatch (ret none) >>= f) i w =
      match (turns i).fate with
      | .answered => runAmong M turns (f (some (M.exec c ((turns i).before w)).1)) (i + 1)
          ((turns i).after (M.exec c ((turns i).before w)).2)
      | .rejected => runAmong M turns (f none) (i + 1) ((turns i).after ((turns i).before w))
      | .lost => runAmong M turns (f none) (i + 1) ((turns i).after (M.exec c ((turns i).before w)).2) := rfl

variable {M turns} {P : σ.Cmd → Prop} {O : σ.Call → Prop} {I : W → Prop}

/-- **What the commands and calls of a program keep, and its surroundings, the program keeps.** -/
theorem Within.runAmong (hexec : ∀ c w, P c → I w → I (M.exec c w).2) (hcall : ∀ o w, O o → I w → I (M.call o w).2)
    (hbefore : ∀ i w, I w → I ((turns i).before w)) (hafter : ∀ i w, I w → I ((turns i).after w)) {p : Prog σ α}
    (h : p.Within P O) {i : Nat} {w : W} (hI : I w) : I (p.runAmong M turns i w).world := by
  induction p generalizing i w with
  | ret a => exact hI
  | throw => exact hI
  | await c k ih =>
    have hw := hbefore i w hI
    simp only [Prog.runAmong]
    cases (turns i).fate with
    | answered => exact ih _ (h.2 _) (hafter i _ (hexec c _ h.1 hw))
    | rejected => exact ih _ (h.2 _) (hafter i _ hw)
    | lost => exact ih _ (h.2 _) (hafter i _ (hexec c _ h.1 hw))
  | call o k ih => exact ih _ (h.2 _) (hcall o w h.1 hI)

theorem Yields.runAmong {Q : α → Prop} {p : Prog σ α} (h : p.Yields Q) {i : Nat} {w : W} {a : α}
    (ha : (p.runAmong M turns i w).result = some a) : Q a := by
  induction p generalizing i w with
  | ret b => cases ha; exact h
  | throw => cases ha
  | await c k ih =>
    simp only [Prog.runAmong] at ha
    cases hfate : (turns i).fate with
    | answered =>
      rw [hfate] at ha
      exact ih _ (h _) ha
    | rejected =>
      rw [hfate] at ha
      exact ih _ (h _) ha
    | lost =>
      rw [hfate] at ha
      exact ih _ (h _) ha
  | call o k ih => exact ih _ (h _) ha

end among

end Prog

/-! ## Programs that are safe by what they may do -/

section safe
variable {S : System σ W L E} {g : Guard σ W L} {I : W → Prop} {R : Nat → W → W → Prop} {t : Nat}

/-- A program is safe if each command it may execute is, and each call, with what the thread knows of the world. -/
theorem safe_of_within {P : σ.Cmd → Prop} {O : σ.Call → Prop} {J : W → Prop} (hrely : ∀ w w', R t w w' → J w → J w')
    (hexec : ∀ c l w, P c → g c l w → I w → J w →
      I (S.machine.exec c w).2 ∧ (∀ u, u ≠ t → R u w (S.machine.exec c w).2) ∧ J (S.machine.exec c w).2)
    (hcall : ∀ o w, O o → I w → J w →
      I (S.machine.call o w).2 ∧ (∀ u, u ≠ t → R u w (S.machine.call o w).2) ∧ J (S.machine.call o w).2)
    {p : Prog σ α} (hp : p.Within P O) {l : L} {w : W} (hJ : J w) : Safe S g I R t p (fun _ _ w => J w) l w := by
  induction p generalizing l w with
  | ret a => exact hJ
  | throw => exact hJ
  | await c k ih =>
    intro w' hw hI
    have hJ' := hrely w w' hw hJ
    refine ⟨ih none (hp.2 none) hJ', fun hg => ?_⟩
    obtain ⟨hI', hR', hJ''⟩ := hexec c l w' hp.1 hg hI hJ'
    exact ⟨hI', hR', ih _ (hp.2 _) hJ'', ih _ (hp.2 _) hJ''⟩
  | call o k ih =>
    intro w' hw hI
    obtain ⟨hI', hR', hJ'⟩ := hcall o w' hp.1 hI (hrely w w' hw hJ)
    exact ⟨hI', hR', ih _ (hp.2 _) hJ'⟩

variable {l : L} {w : W}

/-- What a program keeps is there when it returns. -/
theorem Safe.returned {J : W → Prop} {p : Prog σ α} (h : Safe S g I R t p (fun _ _ w => J w) l w) :
    Safe S g I R t p (Returns fun _ _ w => J w) l w := by
  refine h.mono fun r l w hr => ?_
  cases r with
  | none => trivial
  | some a => exact hr

/-- What a program may return is known of the value it does return. -/
theorem Safe.yields {P : α → Prop} {Q : α → L → W → Prop} {p : Prog σ α} (h : Safe S g I R t p (Returns Q) l w)
    (hp : p.Yields P) : Safe S g I R t p (Returns fun a l w => P a ∧ Q a l w) l w := by
  induction p generalizing l w with
  | ret a => exact ⟨hp, h⟩
  | throw => trivial
  | await c k ih =>
    intro w' hw hI
    obtain ⟨h0, h1⟩ := h w' hw hI
    refine ⟨ih _ h0 (hp none), fun hg => ?_⟩
    obtain ⟨hI', hR', hs, hn⟩ := h1 hg
    exact ⟨hI', hR', ih _ hs (hp _), ih _ hn (hp none)⟩
  | call o k ih =>
    intro w' hw hI
    obtain ⟨hI', hR', hs⟩ := h w' hw hI
    exact ⟨hI', hR', ih _ hs (hp _)⟩

end safe

end Async
end CloudGaming
