import CloudGaming.Async.Prog
/-!
# Crash — programs whose process may be killed

A device decides what becomes of a command by what it draws: the command is answered, it throws, or the process is killed
in it.  A run whose draws are used up is killed before the next command.  `Prog.wp` is the weakest precondition of a
postcondition that also says what a kill leaves; `perform` is one call after another on what the calls before it left,
and `perform_explained` matches it with the calls of an abstract object.
-/
namespace CloudGaming
namespace Async

/-- How a program ended. -/
inductive Ending (α : Type) where
  | returned (a : α)
  | threw
  | killed
  deriving DecidableEq, Repr

def Ending.map {α β : Type} (f : α → β) : Ending α → Ending β
  | .returned a => .returned (f a)
  | .threw => .threw
  | .killed => .killed

/-- What a command does on a draw: `none` where the process is killed in it, `some none` where it throws. -/
structure Device (σ : Sig) (Λ W : Type) where
  exec : (c : σ.Cmd) → Λ → W → Option (Option (σ.Reply c)) × W
  call : (o : σ.Call) → W → σ.Answer o × W

variable {σ : Sig} {Λ W α β : Type}

namespace Prog

def play (D : Device σ Λ W) : Prog σ α → List Λ → W → Ending α × W
  | ret a, _, w => (.returned a, w)
  | throw, _, w => (.threw, w)
  | await _ _, [], w => (.killed, w)
  | await c k, l :: ls, w => match D.exec c l w with
    | (none, w') => (.killed, w')
    | (some r, w') => (k r).play D ls w'
  | call o k, ls, w => (k (D.call o w).1).play D ls (D.call o w).2

/-- Every draw of the run is one that `ok` allows of its command. -/
def Drawn (D : Device σ Λ W) (ok : σ.Cmd → Λ → Prop) : Prog σ α → List Λ → W → Prop
  | ret _, _, _ => True
  | throw, _, _ => True
  | await _ _, [], _ => True
  | await c k, l :: ls, w => ok c l ∧ match D.exec c l w with
    | (none, _) => True
    | (some r, w') => (k r).Drawn D ok ls w'
  | call o k, ls, w => (k (D.call o w).1).Drawn D ok ls (D.call o w).2

/-- What has to hold for the program to end, on allowed draws, as `R` says. -/
def wp (D : Device σ Λ W) (ok : σ.Cmd → Λ → Prop) : Prog σ α → (Ending α → W → Prop) → W → Prop
  | ret a, R, w => R (.returned a) w
  | throw, R, w => R .threw w
  | await c k, R, w => R .killed w ∧ ∀ l, ok c l → match D.exec c l w with
    | (none, w') => R .killed w'
    | (some r, w') => (k r).wp D ok R w'
  | call o k, R, w => (k (D.call o w).1).wp D ok R (D.call o w).2

section wp
variable {D : Device σ Λ W} {ok : σ.Cmd → Λ → Prop} {R R' : Ending α → W → Prop} {w : W}

@[simp] theorem wp_ret (a : α) : (ret a : Prog σ α).wp D ok R w ↔ R (.returned a) w := Iff.rfl

@[simp] theorem wp_throw : (throw : Prog σ α).wp D ok R w ↔ R .threw w := Iff.rfl

theorem drawn_await_cons {c : σ.Cmd} {k : Option (σ.Reply c) → Prog σ α} {l : Λ} {ls : List Λ} :
    (await c k).Drawn D ok (l :: ls) w ↔ ok c l ∧ match D.exec c l w with
      | (none, _) => True
      | (some r, w') => (k r).Drawn D ok ls w' := by
  rw [Drawn]

theorem wp_call (o : σ.Call) (k : σ.Answer o → Prog σ α) :
    (call o k).wp D ok R w ↔ (k (D.call o w).1).wp D ok R (D.call o w).2 := Iff.rfl

/-- **A command**: the kill before it, the kill in it, and what follows its answer. -/
theorem wp_await {c : σ.Cmd} {k : Option (σ.Reply c) → Prog σ α} (hbefore : R .killed w)
    (hin : ∀ l, ok c l → (D.exec c l w).1 = none → R .killed (D.exec c l w).2)
    (hafter : ∀ l r, ok c l → (D.exec c l w).1 = some r → (k r).wp D ok R (D.exec c l w).2) : (await c k).wp D ok R w := by
  refine ⟨hbefore, fun l hl => ?_⟩
  have hkill := hin l hl
  have hrest := fun r => hafter l r hl
  cases h : D.exec c l w with
  | mk reply w' =>
    rw [h] at hkill hrest
    cases reply with
    | none => exact hkill rfl
    | some r => exact hrest r rfl

/-- A command that never throws, followed by the rest of the program. -/
theorem wp_send_bind {c : σ.Cmd} {f : σ.Reply c → Prog σ α} (hbefore : R .killed w)
    (hin : ∀ l, ok c l → (D.exec c l w).1 = none → R .killed (D.exec c l w).2)
    (hthrow : ∀ l, ok c l → (D.exec c l w).1 = some none → R .threw (D.exec c l w).2)
    (hafter : ∀ l r, ok c l → (D.exec c l w).1 = some (some r) → (f r).wp D ok R (D.exec c l w).2) :
    (send c >>= f).wp D ok R w := by
  refine wp_await hbefore hin fun l r hl hr => ?_
  cases r with
  | none => exact hthrow l hl hr
  | some r => exact hafter l r hl hr

theorem wp_mono (h : ∀ e w, R e w → R' e w) : ∀ {p : Prog σ α} {w : W}, p.wp D ok R w → p.wp D ok R' w := by
  intro p
  induction p with
  | ret a => exact fun hp => h _ _ hp
  | throw => exact fun hp => h _ _ hp
  | await c k ih =>
    intro w hp
    refine ⟨h _ _ hp.1, fun l hl => ?_⟩
    have hpl := hp.2 l hl
    cases hx : D.exec c l w with
    | mk reply w' =>
      rw [hx] at hpl
      cases reply with
      | none => exact h _ _ hpl
      | some r => exact ih r hpl
  | call o k ih => exact fun hp => ih _ hp

/-- **A sequence**: what the first program returns is what the second has to start from. -/
theorem wp_bind {p : Prog σ β} {f : β → Prog σ α} (hp : p.wp D ok (fun e w' => match e with
      | .returned b => (f b).wp D ok R w'
      | .threw => R .threw w'
      | .killed => R .killed w') w) : (p >>= f).wp D ok R w := by
  induction p generalizing w with
  | ret b => exact hp
  | throw => exact hp
  | await c k ih =>
    refine ⟨hp.1, fun l hl => ?_⟩
    have hpl := hp.2 l hl
    cases hx : D.exec c l w with
    | mk reply w' =>
      rw [hx] at hpl
      cases reply with
      | none => exact hpl
      | some r => exact ih r hpl
  | call o k ih => exact ih _ hp

/-- What a program returns, as part of something else. -/
theorem wp_map {p : Prog σ β} {f : β → α} (hp : p.wp D ok (fun e => R (e.map f)) w) :
    (p >>= fun b => pure (f b)).wp D ok R w := by
  refine wp_bind (wp_mono (fun e w h => ?_) hp)
  cases e <;> exact h

/-- **A weakest precondition is about the runs**: from a world that meets it, a run on allowed draws ends as it says. -/
theorem play_of_wp : ∀ {p : Prog σ α} {ls : List Λ} {w : W}, p.wp D ok R w → p.Drawn D ok ls w →
    R (p.play D ls w).1 (p.play D ls w).2 := by
  intro p
  induction p with
  | ret a => exact fun hp _ => hp
  | throw => exact fun hp _ => hp
  | await c k ih =>
    intro ls w hp hd
    cases ls with
    | nil => exact hp.1
    | cons l ls =>
      obtain ⟨hl, hd⟩ := drawn_await_cons.1 hd
      have hpl := hp.2 l hl
      rw [play]
      cases hx : D.exec c l w with
      | mk reply w' =>
        rw [hx] at hpl hd
        cases reply with
        | none => exact hpl
        | some r => exact ih r hpl hd
  | call o k ih => exact fun hp hd => ih _ hp hd

/-- Draws that are allowed of every command are allowed of those the run draws them for. -/
theorem drawn_of_draws : ∀ {p : Prog σ α} {ls : List Λ} {w : W}, (∀ l ∈ ls, ∀ c, ok c l) → p.Drawn D ok ls w := by
  intro p
  induction p with
  | ret a => exact fun _ => trivial
  | throw => exact fun _ => trivial
  | await c k ih =>
    intro ls w hok
    cases ls with
    | nil => exact trivial
    | cons l ls =>
      refine drawn_await_cons.2 ⟨hok l List.mem_cons_self c, ?_⟩
      cases hx : D.exec c l w with
      | mk reply w' =>
        cases reply with
        | none => trivial
        | some r => exact ih r fun l hl => hok l (List.mem_cons_of_mem _ hl)
  | call o k ih => exact fun hok => ih _ hok

end wp

end Prog

/-! ## One call after another -/

section perform
variable {Op A : Type} (D : Device σ Λ W) (ok : σ.Cmd → Λ → Prop) (prog : Op → Prog σ α)

/-- The calls with how each ended; a call starts on the world that the one before it left, killed or not. -/
def perform : W → List (Op × List Λ) → List (Op × Ending α) × W
  | w, [] => ([], w)
  | w, (op, ls) :: calls =>
    let r := (prog op).play D ls w
    let rest := perform r.2 calls
    ((op, r.1) :: rest.1, rest.2)

/-- Every draw of every call is allowed. -/
def AllDrawn : W → List (Op × List Λ) → Prop
  | _, [] => True
  | w, (op, ls) :: calls => (prog op).Drawn D ok ls w ∧ AllDrawn ((prog op).play D ls w).2 calls

/-- The endings are those of an abstract object that goes from `a` to `b`, call by call as `T` allows. -/
def Explained (T : Op → Ending α → A → A → Prop) : A → List (Op × Ending α) → A → Prop
  | a, [], b => a = b
  | a, (op, e) :: es, b => ∃ m, T op e a m ∧ Explained T m es b

variable {D ok prog} {T : Op → Ending α → A → A → Prop}

/-- **Calls that each go as the abstract object allows, killed or not, do so one after another.** -/
theorem perform_explained (Rep : W → A → Prop)
    (h : ∀ op w a, Rep w a → (prog op).wp D ok (fun e w' => ∃ b, T op e a b ∧ Rep w' b) w)
    {calls : List (Op × List Λ)} {w : W} {a : A} (hw : Rep w a) (hd : AllDrawn D ok prog w calls) :
    ∃ b, Explained T a (perform D prog w calls).1 b ∧ Rep (perform D prog w calls).2 b := by
  induction calls generalizing w a with
  | nil => exact ⟨a, rfl, hw⟩
  | cons c calls ih =>
    obtain ⟨op, ls⟩ := c
    obtain ⟨m, hT, hm⟩ := Prog.play_of_wp (h op w a hw) hd.1
    obtain ⟨b, hes, hb⟩ := ih hm hd.2
    exact ⟨b, ⟨m, hT, hes⟩, hb⟩

/-- Where a call that is not done leaves the object alone or sets it, and a call that is done sets it, the object is as the
last call that was done, or a later one, set it. -/
theorem Explained.last (Done : Ending α → Prop) (Sets : Op → A → Prop)
    (hT : ∀ op e a b, T op e a b → (b = a ∧ ¬Done e) ∨ Sets op b) {es : List (Op × Ending α)} {a b : A}
    (h : Explained T a es b) : (b = a ∧ ∀ x ∈ es, ¬Done x.2) ∨
      ∃ before x after, es = before ++ x :: after ∧ Sets x.1 b ∧ ∀ y ∈ after, ¬Done y.2 := by
  induction es generalizing a with
  | nil => exact .inl ⟨h.symm, nofun⟩
  | cons x es ih =>
    obtain ⟨m, hm, hes⟩ := h
    rcases ih hes with ⟨rfl, hnone⟩ | ⟨before, y, after, rfl, hset, hnone⟩
    · rcases hT x.1 x.2 a b hm with ⟨rfl, hx⟩ | hset
      · refine .inl ⟨rfl, fun y hy => ?_⟩
        rcases List.mem_cons.1 hy with rfl | hy
        · exact hx
        · exact hnone y hy
      · exact .inr ⟨[], x, es, rfl, hset, hnone⟩
    · exact .inr ⟨x :: before, y, after, rfl, hset, hnone⟩

/-- What no call makes untrue stays true. -/
theorem Explained.keeps {I : A → Prop} (hI : ∀ op e a b, T op e a b → I a → I b) {es : List (Op × Ending α)} {a b : A}
    (h : Explained T a es b) (ha : I a) : I b := by
  induction es generalizing a with
  | nil => exact h ▸ ha
  | cons y es ih =>
    obtain ⟨m, hm, hes⟩ := h
    exact ih hes (hI _ _ _ _ hm ha)

/-- What a call says of the object when it ends is so at the end, where no call makes it untrue. -/
theorem Explained.says (Says : Op × Ending α → A → Prop) (hsay : ∀ op e a b, T op e a b → Says (op, e) b)
    (hstay : ∀ op e a b x, T op e a b → Says x a → Says x b) {es : List (Op × Ending α)} {a b : A}
    (h : Explained T a es b) : ∀ x ∈ es, Says x b := by
  induction es generalizing a with
  | nil => exact nofun
  | cons y es ih =>
    obtain ⟨m, hm, hes⟩ := h
    intro x hx
    rcases List.mem_cons.1 hx with rfl | hx
    · exact hes.keeps (fun op e a b hT => hstay op e a b _ hT) (hsay _ _ _ _ hm)
    · exact ih hes x hx

variable (D ok prog)

theorem map_fst_perform (w : W) (calls : List (Op × List Λ)) :
    (perform D prog w calls).1.map Prod.fst = calls.map Prod.fst := by
  induction calls generalizing w with
  | nil => rfl
  | cons c calls ih => exact congrArg (c.1 :: ·) (ih _)

theorem allDrawn_of_draws {w : W} {calls : List (Op × List Λ)} (hok : ∀ call ∈ calls, ∀ l ∈ call.2, ∀ c, ok c l) :
    AllDrawn D ok prog w calls := by
  induction calls generalizing w with
  | nil => exact trivial
  | cons call calls ih =>
    exact ⟨Prog.drawn_of_draws (hok call List.mem_cons_self), ih fun c hc => hok c (List.mem_cons_of_mem _ hc)⟩

end perform

end Async
end CloudGaming
