import Mathlib.Tactic.TypeStar
/-!
# Prog — asynchronous programs over a shared store

A program awaits the commands of a store and makes synchronous calls between two awaits.  An awaited command may be
rejected: the continuation then receives `none`, which an unguarded `await` turns into `throw`.  `Prog.run` executes a
program alone, every command being answered; `Prog.runFaulty` lets a fault plan reject commands, before or after they
take effect.  Interleaved execution is in `Interleave`.
-/
namespace CloudGaming
namespace Async

/-- The commands a program awaits and the calls it makes, each with the type of its answer. -/
structure Sig where
  Cmd : Type
  Reply : Cmd → Type
  Call : Type
  Answer : Call → Type

/-- An asynchronous program that ends with an `α` or throws. -/
inductive Prog (σ : Sig) (α : Type) : Type where
  | ret (a : α)
  | throw
  | await (c : σ.Cmd) (k : Option (σ.Reply c) → Prog σ α)
  | call (o : σ.Call) (k : σ.Answer o → Prog σ α)

/-- What the store does with a command, and what the process does on a call. -/
structure Machine (σ : Sig) (W : Type) where
  exec : (c : σ.Cmd) → W → σ.Reply c × W
  call : (o : σ.Call) → W → σ.Answer o × W

variable {σ : Sig} {W α β : Type}

namespace Prog

def bind : Prog σ α → (α → Prog σ β) → Prog σ β
  | ret a, f => f a
  | throw, _ => throw
  | await c k, f => await c (fun r => (k r).bind f)
  | call o k, f => call o (fun a => (k a).bind f)

instance : Monad (Prog σ) where
  pure := ret
  bind := bind

/-- `try p catch { h }`. -/
def tryCatch : Prog σ α → Prog σ α → Prog σ α
  | ret a, _ => ret a
  | throw, h => h
  | await c k, h => await c (fun r => (k r).tryCatch h)
  | call o k, h => call o (fun a => (k a).tryCatch h)

/-- `await c`: a rejected command throws. -/
def send (c : σ.Cmd) : Prog σ (σ.Reply c) := await c (fun r => r.elim throw ret)

def invoke (o : σ.Call) : Prog σ (σ.Answer o) := call o ret

@[simp] theorem pure_eq (a : α) : (pure a : Prog σ α) = ret a := rfl

@[simp] theorem ret_bind (a : α) (f : α → Prog σ β) : (ret a >>= f) = f a := rfl

@[simp] theorem throw_bind (f : α → Prog σ β) : (throw >>= f) = throw := rfl

@[simp] theorem await_bind (c : σ.Cmd) (k : Option (σ.Reply c) → Prog σ α) (f : α → Prog σ β) :
    (await c k >>= f) = await c (fun r => k r >>= f) := rfl

@[simp] theorem call_bind (o : σ.Call) (k : σ.Answer o → Prog σ α) (f : α → Prog σ β) :
    (call o k >>= f) = call o (fun a => k a >>= f) := rfl

@[simp] theorem ret_tryCatch (a : α) (h : Prog σ α) : (ret a).tryCatch h = ret a := rfl

@[simp] theorem throw_tryCatch (h : Prog σ α) : (throw : Prog σ α).tryCatch h = h := rfl

/-- `f` follows where the program ends, `h` where it throws. -/
def graft : Prog σ α → (α → Prog σ β) → Prog σ β → Prog σ β
  | ret a, f, _ => f a
  | throw, _, h => h
  | await c k, f, h => await c (fun r => (k r).graft f h)
  | call o k, f, h => call o (fun a => (k a).graft f h)

theorem bind_eq_graft (p : Prog σ α) (f : α → Prog σ β) : (p >>= f) = p.graft f throw := by
  induction p with
  | ret a => rfl
  | throw => rfl
  | await c k ih => exact congrArg (await c) (funext fun r => ih r)
  | call o k ih => exact congrArg (call o) (funext fun a => ih a)

theorem tryCatch_eq_graft (p h : Prog σ α) : p.tryCatch h = p.graft ret h := by
  induction p with
  | ret a => rfl
  | throw => rfl
  | await c k ih => exact congrArg (await c) (funext fun r => ih r)
  | call o k ih => exact congrArg (call o) (funext fun a => ih a)

theorem bind_ret (p : Prog σ α) : (p >>= ret) = p := by
  induction p with
  | ret a => rfl
  | throw => rfl
  | await c k ih => exact congrArg (await c) (funext fun r => ih r)
  | call o k ih => exact congrArg (call o) (funext fun a => ih a)

theorem bind_assoc' {γ : Type} (p : Prog σ α) (f : α → Prog σ β) (g : β → Prog σ γ) :
    (p >>= f) >>= g = p >>= fun a => f a >>= g := by
  induction p with
  | ret a => rfl
  | throw => rfl
  | await c k ih => exact congrArg (await c) (funext fun r => ih r)
  | call o k ih => exact congrArg (call o) (funext fun a => ih a)

instance : LawfulMonad (Prog σ) := LawfulMonad.mk' (Prog σ) bind_ret (fun _ _ => rfl) bind_assoc'

/-- The program alone on the store, every command answered.  The result is `none` where it throws. -/
def run (M : Machine σ W) : Prog σ α → W → Option α × W
  | ret a, w => (some a, w)
  | throw, w => (none, w)
  | await c k, w => run M (k (some (M.exec c w).1)) (M.exec c w).2
  | call o k, w => run M (k (M.call o w).1) (M.call o w).2

section run
variable (M : Machine σ W)

@[simp] theorem run_ret (a : α) (w : W) : run M (ret a) w = (some a, w) := rfl

@[simp] theorem run_throw (w : W) : run M (throw : Prog σ α) w = (none, w) := rfl

@[simp] theorem run_send (c : σ.Cmd) (w : W) : run M (send c) w = (some (M.exec c w).1, (M.exec c w).2) := rfl

@[simp] theorem run_invoke (o : σ.Call) (w : W) : run M (invoke o) w = (some (M.call o w).1, (M.call o w).2) := rfl

/-- Running a sequence runs the second program on the world the first one leaves. -/
theorem run_bind (p : Prog σ α) (f : α → Prog σ β) (w : W) :
    run M (p >>= f) w = match run M p w with
      | (some a, w') => run M (f a) w'
      | (none, w') => (none, w') := by
  induction p generalizing w with
  | ret a => rfl
  | throw => rfl
  | await c k ih => exact ih _ _
  | call o k ih => exact ih _ _

theorem run_bind_some {p : Prog σ α} {w w' : W} {a : α} (h : run M p w = (some a, w')) (f : α → Prog σ β) :
    run M (p >>= f) w = run M (f a) w' := by
  rw [run_bind, h]

theorem run_send_bind (c : σ.Cmd) (f : σ.Reply c → Prog σ β) (w : W) :
    run M (send c >>= f) w = run M (f (M.exec c w).1) (M.exec c w).2 := rfl

theorem run_invoke_bind (o : σ.Call) (f : σ.Answer o → Prog σ β) (w : W) :
    run M (invoke o >>= f) w = run M (f (M.call o w).1) (M.call o w).2 := rfl

theorem run_tryCatch_some {p : Prog σ α} {w w' : W} {a : α} (h : run M p w = (some a, w')) (q : Prog σ α) :
    run M (p.tryCatch q) w = (some a, w') := by
  induction p generalizing w with
  | ret b => exact h
  | throw => simp at h
  | await c k ih => exact ih _ h
  | call o k ih => exact ih _ h

/-- A loop whose body ends on every world it meets ends, and the worlds it meets follow one another by the body. -/
theorem run_forM_cons {p : α → Prog σ Unit} {w w' : W} {a : α} (as : List α) (h : run M (p a) w = (some (), w')) :
    run M ((a :: as).forM p) w = run M (as.forM p) w' :=
  run_bind_some M h (fun _ => as.forM p)

/-- **A relation kept by every body is kept by the loop**, which ends when its bodies do; a body may rely on what holds of
its own element from the start, as long as the bodies of the other elements leave it. -/
theorem run_forM (R : W → W → Prop) (hrefl : ∀ w, R w w) (htrans : ∀ a b c, R a b → R b c → R a c) (Due : W → α → Prop)
    {p : α → Prog σ Unit} (hp : ∀ a w, Due w a → ∃ w', run M (p a) w = (some (), w') ∧ R w w' ∧
      ∀ b, b ≠ a → Due w b → Due w' b) :
    ∀ (as : List α) (w : W), as.Nodup → (∀ a ∈ as, Due w a) → ∃ w', run M (as.forM p) w = (some (), w') ∧ R w w'
  | [], w, _, _ => ⟨w, rfl, hrefl w⟩
  | a :: as, w, hn, hd => by
    obtain ⟨hna, hn⟩ := List.nodup_cons.1 hn
    obtain ⟨w₁, h₁, r₁, hdue⟩ := hp a w (hd a List.mem_cons_self)
    have hd₁ : ∀ b ∈ as, Due w₁ b := fun b hb => hdue b (fun he => hna (he ▸ hb)) (hd b (List.mem_cons_of_mem _ hb))
    obtain ⟨w₂, h₂, r₂⟩ := run_forM R hrefl htrans Due hp as w₁ hn hd₁
    exact ⟨w₂, by rw [run_forM_cons M as h₁, h₂], htrans _ _ _ r₁ r₂⟩

/-- **A loop over distinct elements reaches the body of one of them**: the bodies before it keep `T`, its own turns `T` into
`Q`, and those after it keep `Q`. -/
theorem run_forM_at (Due : W → α → Prop) {T Q : W → Prop} {a : α} {p : α → Prog σ Unit}
    (hbefore : ∀ b w, b ≠ a → Due w b → T w → ∃ w', run M (p b) w = (some (), w') ∧ T w' ∧ ∀ c, c ≠ b → Due w c → Due w' c)
    (hat : ∀ w, Due w a → T w → ∃ w', run M (p a) w = (some (), w') ∧ Q w' ∧ ∀ c, c ≠ a → Due w c → Due w' c)
    (hafter : ∀ b w, b ≠ a → Due w b → Q w → ∃ w', run M (p b) w = (some (), w') ∧ Q w' ∧ ∀ c, c ≠ b → Due w c → Due w' c) :
    ∀ (as : List α) (w : W), as.Nodup → a ∈ as → (∀ b ∈ as, Due w b) → T w →
      ∃ w', run M (as.forM p) w = (some (), w') ∧ Q w'
  | [], _, _, ha, _, _ => by cases ha
  | b :: as, w, hn, ha, hd, hT => by
    obtain ⟨hnb, hn⟩ := List.nodup_cons.1 hn
    have hrest : ∀ {w'}, (∀ c, c ≠ b → Due w c → Due w' c) → ∀ c ∈ as, Due w' c :=
      fun hdue c hc => hdue c (fun he => hnb (he ▸ hc)) (hd c (List.mem_cons_of_mem _ hc))
    by_cases hba : b = a
    · subst hba
      obtain ⟨w₁, h₁, hQ, hdue⟩ := hat w (hd b List.mem_cons_self) hT
      obtain ⟨w₂, h₂, hQ₂⟩ := run_forM M (fun w w' => Q w → Q w') (fun _ h => h) (fun _ _ _ h h' hq => h' (h hq))
        (fun w c => c ≠ b ∧ Due w c ∧ Q w) (fun c w hc => by
          obtain ⟨w', h', hq, hdue'⟩ := hafter c w hc.1 hc.2.1 hc.2.2
          exact ⟨w', h', fun _ => hq, fun d hdc hd' => ⟨hd'.1, hdue' d hdc hd'.2.1, hq⟩⟩)
        as w₁ hn fun c hc => ⟨fun he => hnb (he ▸ hc), hrest hdue c hc, hQ⟩
      exact ⟨w₂, by rw [run_forM_cons M as h₁, h₂], hQ₂ hQ⟩
    · obtain ⟨w₁, h₁, hT₁, hdue⟩ := hbefore b w hba (hd b List.mem_cons_self) hT
      have hmem : a ∈ as := (List.mem_cons.1 ha).resolve_left (Ne.symm hba)
      obtain ⟨w₂, h₂, hQ⟩ := run_forM_at Due hbefore hat hafter as w₁ hn hmem (hrest hdue) hT₁
      exact ⟨w₂, by rw [run_forM_cons M as h₁, h₂], hQ⟩

/-! ### Programs by the commands they may execute -/

/-- Every command the program may execute satisfies `P`, whatever it is told. -/
def All (P : σ.Cmd → Prop) : Prog σ α → Prop
  | ret _ => True
  | throw => True
  | await c k => P c ∧ ∀ r, All P (k r)
  | call _ k => ∀ a, All P (k a)

variable {P : σ.Cmd → Prop}

theorem all_send {c : σ.Cmd} (h : P c) : (send c : Prog σ _).All P := by
  refine ⟨h, fun r => ?_⟩
  cases r <;> trivial

theorem All.graft {p : Prog σ α} {f : α → Prog σ β} {q : Prog σ β} (h : p.All P) (hf : ∀ a, (f a).All P)
    (hq : q.All P) : (p.graft f q).All P := by
  induction p with
  | ret a => exact hf a
  | throw => exact hq
  | await c k ih => exact ⟨h.1, fun r => ih r (h.2 r)⟩
  | call o k ih => exact fun a => ih a (h a)

theorem All.bind {p : Prog σ α} {f : α → Prog σ β} (h : p.All P) (hf : ∀ a, (f a).All P) : (p >>= f).All P := by
  rw [bind_eq_graft]
  exact h.graft hf trivial

theorem All.tryCatch {p q : Prog σ α} (h : p.All P) (hq : q.All P) : (p.tryCatch q).All P := by
  rw [tryCatch_eq_graft]
  exact h.graft (fun _ => trivial) hq

theorem All.mono {Q : σ.Cmd → Prop} (hPQ : ∀ c, P c → Q c) {p : Prog σ α} (h : p.All P) : p.All Q := by
  induction p with
  | ret a => trivial
  | throw => trivial
  | await c k ih => exact ⟨hPQ c h.1, fun r => ih r (h.2 r)⟩
  | call o k ih => exact fun a => ih a (h a)

variable {M} {I : W → Prop}

/-- What its commands and calls keep, the program keeps. -/
theorem All.run (hexec : ∀ c w, P c → I w → I (M.exec c w).2) (hcall : ∀ o w, I w → I (M.call o w).2) {p : Prog σ α}
    (h : p.All P) {w : W} (hI : I w) : I (Prog.run M p w).2 := by
  induction p generalizing w with
  | ret a => exact hI
  | throw => exact hI
  | await c k ih => exact ih _ (h.2 _) (hexec c w h.1 hI)
  | call o k ih => exact ih _ (h _) (hcall o w hI)

/-- What holds after the first program, and is carried on by the second, holds after both. -/
theorem run_bind_of {J : W → Prop} {p : Prog σ α} {f : α → Prog σ β} {w : W} (hp : I (Prog.run M p w).2)
    (hthrow : ∀ w, I w → J w) (hf : ∀ a w, I w → J (Prog.run M (f a) w).2) : J (Prog.run M (p >>= f) w).2 := by
  rw [run_bind]
  cases h : Prog.run M p w with
  | mk r w' =>
    rw [h] at hp
    cases r with
    | none => exact hthrow w' hp
    | some a => exact hf a w' hp

end run

end Prog

/-! ## Faults -/

/-- What becomes of a command: it is answered, it is rejected, or it takes effect and its reply is lost. -/
inductive Fate where
  | answered | rejected | lost
  deriving DecidableEq, Repr

/-- How a program ended, the number of the next command, and the world it left. -/
structure Outcome (α W : Type) where
  result : Option α
  next : Nat
  world : W

namespace Prog

/-- The program alone on the store, command number `i` meeting the fate `plan i`. -/
def runFaulty (M : Machine σ W) (plan : Nat → Fate) : Prog σ α → Nat → W → Outcome α W
  | ret a, i, w => ⟨some a, i, w⟩
  | throw, i, w => ⟨none, i, w⟩
  | await c k, i, w => match plan i with
    | .answered => runFaulty M plan (k (some (M.exec c w).1)) (i + 1) (M.exec c w).2
    | .rejected => runFaulty M plan (k none) (i + 1) w
    | .lost => runFaulty M plan (k none) (i + 1) (M.exec c w).2
  | call o k, i, w => runFaulty M plan (k (M.call o w).1) i (M.call o w).2

section faulty
variable (M : Machine σ W) (plan : Nat → Fate)

/-- Without faults the faulty run is the run. -/
theorem runFaulty_answered (p : Prog σ α) (i : Nat) (w : W) :
    (runFaulty M (fun _ => .answered) p i w).result = (run M p w).1 ∧
      (runFaulty M (fun _ => .answered) p i w).world = (run M p w).2 := by
  induction p generalizing i w with
  | ret a => exact ⟨rfl, rfl⟩
  | throw => exact ⟨rfl, rfl⟩
  | await c k ih => exact ih _ _ _
  | call o k ih => exact ih _ _ _

/-- What follows starts on the world and the command number the program left. -/
theorem runFaulty_graft (p : Prog σ α) (f : α → Prog σ β) (q : Prog σ β) (i : Nat) (w : W) :
    runFaulty M plan (p.graft f q) i w = match (runFaulty M plan p i w).result with
      | some a => runFaulty M plan (f a) (runFaulty M plan p i w).next (runFaulty M plan p i w).world
      | none => runFaulty M plan q (runFaulty M plan p i w).next (runFaulty M plan p i w).world := by
  induction p generalizing i w with
  | ret a => rfl
  | throw => rfl
  | await c k ih =>
    simp only [graft, runFaulty]
    cases plan i with
    | answered => exact ih _ _ _
    | rejected => exact ih _ _ _
    | lost => exact ih _ _ _
  | call o k ih => exact ih _ _ _

theorem runFaulty_bind (p : Prog σ α) (f : α → Prog σ β) (i : Nat) (w : W) :
    runFaulty M plan (p >>= f) i w = match (runFaulty M plan p i w).result with
      | some a => runFaulty M plan (f a) (runFaulty M plan p i w).next (runFaulty M plan p i w).world
      | none => ⟨none, (runFaulty M plan p i w).next, (runFaulty M plan p i w).world⟩ := by
  rw [bind_eq_graft]
  exact runFaulty_graft M plan p f throw i w

/-- A thrown body continues with the handler, on the world and the command number it left. -/
theorem runFaulty_tryCatch (p q : Prog σ α) (i : Nat) (w : W) :
    runFaulty M plan (p.tryCatch q) i w = match (runFaulty M plan p i w).result with
      | some _ => runFaulty M plan p i w
      | none => runFaulty M plan q (runFaulty M plan p i w).next (runFaulty M plan p i w).world := by
  rw [tryCatch_eq_graft, runFaulty_graft]
  cases h : (runFaulty M plan p i w).result with
  | some a =>
    change (⟨some a, _, _⟩ : Outcome α W) = runFaulty M plan p i w
    rw [← h]
  | none => rfl

variable {plan} {i : Nat}

theorem runFaulty_send_bind_answered (h : plan i = .answered) (c : σ.Cmd) (f : σ.Reply c → Prog σ β) (w : W) :
    runFaulty M plan (send c >>= f) i w = runFaulty M plan (f (M.exec c w).1) (i + 1) (M.exec c w).2 := by
  simp [send, runFaulty, h]

theorem runFaulty_send_bind_rejected (h : plan i = .rejected) (c : σ.Cmd) (f : σ.Reply c → Prog σ β) (w : W) :
    runFaulty M plan (send c >>= f) i w = ⟨none, i + 1, w⟩ := by
  simp [send, runFaulty, h]

theorem runFaulty_send_bind_lost (h : plan i = .lost) (c : σ.Cmd) (f : σ.Reply c → Prog σ β) (w : W) :
    runFaulty M plan (send c >>= f) i w = ⟨none, i + 1, (M.exec c w).2⟩ := by
  simp [send, runFaulty, h]

theorem runFaulty_invoke_bind (o : σ.Call) (f : σ.Answer o → Prog σ β) (w : W) :
    runFaulty M plan (invoke o >>= f) i w = runFaulty M plan (f (M.call o w).1) i (M.call o w).2 := rfl

/-- A command whose reply and effect are not needed: the program goes on, or throws on the same world. -/
theorem runFaulty_send_bind_still {c : σ.Cmd} {w : W} (hc : (M.exec c w).2 = w) (f : σ.Reply c → Prog σ β) :
    runFaulty M plan (send c >>= f) i w =
      if plan i = .answered then runFaulty M plan (f (M.exec c w).1) (i + 1) w else ⟨none, i + 1, w⟩ := by
  cases h : plan i with
  | answered => rw [runFaulty_send_bind_answered M h, hc, if_pos rfl]
  | rejected => rw [runFaulty_send_bind_rejected M h, if_neg nofun]
  | lost => rw [runFaulty_send_bind_lost M h, hc, if_neg nofun]

end faulty

end Prog

end Async
end CloudGaming
