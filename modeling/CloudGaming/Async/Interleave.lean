import CloudGaming.Async.Prog
import Mathlib.Logic.Relation
/-!
# Interleave — programs running concurrently on one store

A pool is a store and the programs running on it, numbered in the order of their starts.  One step executes the command
a program awaits, resumes a program whose reply has arrived up to its next await, starts a program, or lets the
surroundings act: commands and the synchronous code between two awaits are atomic, everything else may be interleaved.
Every thread carries a ghost value that records what it has been told (`System.note`); no program reads it.

`Safe` is the rely-guarantee judgement: thread `t` keeps the invariant `I` and moves the world only along the relations
`R u` of the others, whatever the others do along `R t` between its steps.  `good_of_reach` is its soundness for every
interleaving.
-/
namespace CloudGaming
namespace Async

variable {σ : Sig} {W L E α β : Type}

/-- A running program, with its ghost value. -/
structure Thread (σ : Sig) (L : Type) where
  prog : Prog σ Unit
  ghost : L

structure Pool (σ : Sig) (W L : Type) where
  world : W
  threads : List (Thread σ L)

/-- The store, the programs that may start as thread `n`, what the surroundings do, and the bookkeeping of the ghosts. -/
structure System (σ : Sig) (W L E : Type) where
  machine : Machine σ W
  spawn : Nat → Prog σ Unit → Prop
  ambient : E → W → W
  may : E → Prop
  fresh : L
  note : (c : σ.Cmd) → W → L → L

namespace Prog

/-- The synchronous code up to the next await. -/
def settle (M : Machine σ W) : Prog σ α → W → Prog σ α × W
  | ret a, w => (ret a, w)
  | throw, w => (throw, w)
  | await c k, w => (await c k, w)
  | call o k, w => settle M (k (M.call o w).1) (M.call o w).2

/-- The program with its result dropped. -/
def discard (p : Prog σ α) : Prog σ Unit := p >>= fun _ => ret ()

end Prog

/-- A guard on the commands that take effect, read at the ghost of the thread and the world before. -/
abbrev Guard (σ : Sig) (W L : Type) := (c : σ.Cmd) → L → W → Prop

/-- One step of a pool in which every executed command meets the guard `g`. -/
inductive Step (S : System σ W L E) (g : Guard σ W L) : Pool σ W L → Pool σ W L → Prop
  | start {w ts} (p : Prog σ Unit) (hp : S.spawn ts.length p) : Step S g ⟨w, ts⟩ ⟨w, ts ++ [⟨p, S.fresh⟩]⟩
  | exec {w ts} (i : Nat) {c k l} (hi : ts[i]? = some ⟨.await c k, l⟩) (hg : g c l w) :
      Step S g ⟨w, ts⟩ ⟨(S.machine.exec c w).2, ts.set i ⟨k (some (S.machine.exec c w).1), S.note c w l⟩⟩
  -- the command took effect but its reply was lost
  | lose {w ts} (i : Nat) {c k l} (hi : ts[i]? = some ⟨.await c k, l⟩) (hg : g c l w) :
      Step S g ⟨w, ts⟩ ⟨(S.machine.exec c w).2, ts.set i ⟨k none, S.note c w l⟩⟩
  | reject {w ts} (i : Nat) {c k l} (hi : ts[i]? = some ⟨.await c k, l⟩) : Step S g ⟨w, ts⟩ ⟨w, ts.set i ⟨k none, l⟩⟩
  | resume {w ts} (i : Nat) {o k l} (hi : ts[i]? = some ⟨.call o k, l⟩) :
      Step S g ⟨w, ts⟩ ⟨((Prog.call o k).settle S.machine w).2, ts.set i ⟨((Prog.call o k).settle S.machine w).1, l⟩⟩
  | ambient {w ts} (e : E) (he : S.may e) : Step S g ⟨w, ts⟩ ⟨S.ambient e w, ts⟩

/-- The pools a system reaches from the world `w₀`, no program running. -/
def Reach (S : System σ W L E) (g : Guard σ W L) (w₀ : W) (p : Pool σ W L) : Prop :=
  Relation.ReflTransGen (Step S g) ⟨w₀, []⟩ p

/-- No guard: the system as it is. -/
def anyCommand : Guard σ W L := fun _ _ _ => True

theorem Step.mono {S : System σ W L E} {g g' : Guard σ W L} (h : ∀ c l w, g c l w → g' c l w) {p q : Pool σ W L}
    (hs : Step S g p q) : Step S g' p q := by
  cases hs with
  | start p hp => exact .start p hp
  | exec i hi hg => exact .exec i hi (h _ _ _ hg)
  | lose i hi hg => exact .lose i hi (h _ _ _ hg)
  | reject i hi => exact .reject i hi
  | resume i hi => exact .resume i hi
  | ambient e he => exact .ambient e he

theorem Reach.mono {S : System σ W L E} {g g' : Guard σ W L} (h : ∀ c l w, g c l w → g' c l w) {w₀ : W} {p : Pool σ W L}
    (hr : Reach S g w₀ p) : Reach S g' w₀ p := Relation.ReflTransGen.mono (fun _ _ => Step.mono h) _ _ hr

/-! ## Schedules -/

/-- One entry of a schedule: start a program, let the surroundings act, or let thread `i` make its next step. -/
inductive Choice (σ : Sig) (E : Type) where
  | start (p : Prog σ Unit)
  | ambient (e : E)
  | go (i : Nat)

/-- Thread `i` makes its next step; nothing happens if it has ended. -/
def Pool.go (S : System σ W L E) (i : Nat) (p : Pool σ W L) : Pool σ W L :=
  match p.threads[i]? with
  | some ⟨.await c k, l⟩ => ⟨(S.machine.exec c p.world).2,
      p.threads.set i ⟨k (some (S.machine.exec c p.world).1), S.note c p.world l⟩⟩
  | some ⟨.call o k, l⟩ => ⟨((Prog.call o k).settle S.machine p.world).2,
      p.threads.set i ⟨((Prog.call o k).settle S.machine p.world).1, l⟩⟩
  | _ => p

def Pool.play (S : System σ W L E) : List (Choice σ E) → Pool σ W L → Pool σ W L
  | [], p => p
  | .start q :: cs, p => play S cs ⟨p.world, p.threads ++ [⟨q, S.fresh⟩]⟩
  | .ambient e :: cs, p => play S cs ⟨S.ambient e p.world, p.threads⟩
  | .go i :: cs, p => play S cs (p.go S i)

/-- Whether a schedule only does what the system may, `n` threads having started before it. -/
def Legal (S : System σ W L E) : Nat → List (Choice σ E) → Prop
  | _, [] => True
  | n, .start q :: cs => S.spawn n q ∧ Legal S (n + 1) cs
  | n, .ambient e :: cs => S.may e ∧ Legal S n cs
  | n, .go _ :: cs => Legal S n cs

/-- Whether every command a schedule executes from the pool meets the guard. -/
def Kept (S : System σ W L E) (g : Guard σ W L) : List (Choice σ E) → Pool σ W L → Prop
  | [], _ => True
  | .start q :: cs, p => Kept S g cs ⟨p.world, p.threads ++ [⟨q, S.fresh⟩]⟩
  | .ambient e :: cs, p => Kept S g cs ⟨S.ambient e p.world, p.threads⟩
  | .go i :: cs, p =>
    (match p.threads[i]? with
      | some ⟨.await c _, l⟩ => g c l p.world
      | _ => True) ∧ Kept S g cs (p.go S i)

instance decidableKept (S : System σ W L E) (g : Guard σ W L) [∀ c l w, Decidable (g c l w)] :
    ∀ (cs : List (Choice σ E)) (p : Pool σ W L), Decidable (Kept S g cs p)
  | [], _ => isTrue trivial
  | .start _ :: cs, _ => decidableKept S g cs _
  | .ambient _ :: cs, _ => decidableKept S g cs _
  | .go i :: cs, p =>
    match h : p.threads[i]? with
    | some ⟨.await c _, l⟩ =>
      have := decidableKept S g cs (p.go S i)
      decidable_of_iff (g c l p.world ∧ Kept S g cs (p.go S i)) (by simp [Kept, h])
    | some ⟨.call .., _⟩ | some ⟨.ret _, _⟩ | some ⟨.throw, _⟩ | none =>
      have := decidableKept S g cs (p.go S i)
      decidable_of_iff (Kept S g cs (p.go S i)) (by simp [Kept, h])

theorem length_go (S : System σ W L E) (i : Nat) (p : Pool σ W L) : (p.go S i).threads.length = p.threads.length := by
  unfold Pool.go
  split <;> simp

theorem kept_any (S : System σ W L E) : ∀ (cs : List (Choice σ E)) (p : Pool σ W L), Kept S anyCommand cs p
  | [], _ => trivial
  | .start _ :: cs, _ => kept_any S cs _
  | .ambient _ :: cs, _ => kept_any S cs _
  | .go _ :: cs, _ => ⟨by split <;> trivial, kept_any S cs _⟩

theorem reach_go (S : System σ W L E) (g : Guard σ W L) (i : Nat) (p : Pool σ W L)
    (h : ∀ c k l, p.threads[i]? = some ⟨.await c k, l⟩ → g c l p.world) :
    Relation.ReflTransGen (Step S g) p (p.go S i) := by
  unfold Pool.go
  split
  · rename_i c k l hi
    exact .single (.exec i hi (h c k l hi))
  · rename_i o k l hi
    exact .single (.resume i hi)
  · exact .refl

/-- **A legal schedule reaches the pool it plays.** -/
theorem reach_play (S : System σ W L E) (g : Guard σ W L) : ∀ (cs : List (Choice σ E)) (p : Pool σ W L),
    Legal S p.threads.length cs → Kept S g cs p → Relation.ReflTransGen (Step S g) p (p.play S cs)
  | [], _, _, _ => .refl
  | .start q :: cs, p, h, hk => .head (.start q h.1) (reach_play S g cs _ (by simpa using h.2) hk)
  | .ambient e :: cs, p, h, hk => .head (.ambient e h.1) (reach_play S g cs _ h.2 hk)
  | .go i :: cs, p, h, hk =>
    (reach_go S g i p fun c k l hi => by have := hk.1; rwa [hi] at this).trans
      (reach_play S g cs _ (by rw [length_go]; exact h) hk.2)

/-! ## Rely-guarantee -/

section safe
variable (S : System σ W L E) (g : Guard σ W L) (I : W → Prop) (R : Nat → W → W → Prop) (t : Nat)

/-- From the world `w` thread `t` keeps `I` and moves along the relations of the others, under interference along `R t`,
and ends in `Q`.  A command may be rejected, or take effect without its reply; where the guard forbids a command it is
never executed. -/
def Safe : Prog σ α → (Option α → L → W → Prop) → L → W → Prop
  | .ret a, Q, l, w => Q (some a) l w
  | .throw, Q, l, w => Q none l w
  | .await c k, Q, l, w => ∀ w', R t w w' → I w' →
      Safe (k none) Q l w' ∧
      (g c l w' → I (S.machine.exec c w').2 ∧ (∀ u, u ≠ t → R u w' (S.machine.exec c w').2) ∧
        Safe (k (some (S.machine.exec c w').1)) Q (S.note c w' l) (S.machine.exec c w').2 ∧
        Safe (k none) Q (S.note c w' l) (S.machine.exec c w').2)
  | .call o k, Q, l, w => ∀ w', R t w w' → I w' →
      I (S.machine.call o w').2 ∧ (∀ u, u ≠ t → R u w' (S.machine.call o w').2) ∧
        Safe (k (S.machine.call o w').1) Q l (S.machine.call o w').2

variable {S g I R t}

/-- What follows starts from any world the program may end or throw in. -/
theorem Safe.graft {Q : Option α → L → W → Prop} {Q' : Option β → L → W → Prop} {p : Prog σ α} {f : α → Prog σ β}
    {q : Prog σ β} {l : L} {w : W} (h : Safe S g I R t p Q l w)
    (hsome : ∀ a l w, Q (some a) l w → Safe S g I R t (f a) Q' l w)
    (hnone : ∀ l w, Q none l w → Safe S g I R t q Q' l w) : Safe S g I R t (p.graft f q) Q' l w := by
  induction p generalizing l w with
  | ret a => exact hsome _ _ _ h
  | throw => exact hnone _ _ h
  | await c k ih =>
    intro w' hw hI
    obtain ⟨h0, h1⟩ := h w' hw hI
    refine ⟨ih _ h0, fun hg => ?_⟩
    obtain ⟨hI', hR', hs, hn⟩ := h1 hg
    exact ⟨hI', hR', ih _ hs, ih _ hn⟩
  | call o k ih =>
    intro w' hw hI
    obtain ⟨hI', hR', hs⟩ := h w' hw hI
    exact ⟨hI', hR', ih _ hs⟩

/-- The second program starts from any world the first may end in. -/
theorem Safe.bind {Q : Option α → L → W → Prop} {Q' : Option β → L → W → Prop} {p : Prog σ α} {f : α → Prog σ β} {l : L}
    {w : W} (h : Safe S g I R t p Q l w) (hnone : ∀ l w, Q none l w → Q' none l w)
    (hsome : ∀ a l w, Q (some a) l w → Safe S g I R t (f a) Q' l w) : Safe S g I R t (p >>= f) Q' l w := by
  rw [Prog.bind_eq_graft]
  exact h.graft hsome hnone

/-- The handler starts from any world the body may throw in. -/
theorem Safe.tryCatch {Q Q' : Option α → L → W → Prop} {p q : Prog σ α} {l : L} {w : W} (h : Safe S g I R t p Q l w)
    (hsome : ∀ a l w, Q (some a) l w → Q' (some a) l w) (hnone : ∀ l w, Q none l w → Safe S g I R t q Q' l w) :
    Safe S g I R t (p.tryCatch q) Q' l w := by
  rw [Prog.tryCatch_eq_graft]
  exact h.graft hsome hnone

theorem Safe.mono {Q Q' : Option α → L → W → Prop} (hQ : ∀ r l w, Q r l w → Q' r l w) {p : Prog σ α} {l : L} {w : W}
    (h : Safe S g I R t p Q l w) : Safe S g I R t p Q' l w := by
  rw [← Prog.bind_ret p]
  exact h.bind (hQ none) fun a => hQ (some a)

theorem safe_send {c : σ.Cmd} {Q : Option (σ.Reply c) → L → W → Prop} {l : L} {w : W}
    (h : ∀ w', R t w w' → I w' → Q none l w' ∧
      (g c l w' → I (S.machine.exec c w').2 ∧ (∀ u, u ≠ t → R u w' (S.machine.exec c w').2) ∧
        Q (some (S.machine.exec c w').1) (S.note c w' l) (S.machine.exec c w').2 ∧
        Q none (S.note c w' l) (S.machine.exec c w').2)) : Safe S g I R t (Prog.send c) Q l w := h

theorem safe_invoke {o : σ.Call} {Q : Option (σ.Answer o) → L → W → Prop} {l : L} {w : W}
    (h : ∀ w', R t w w' → I w' → I (S.machine.call o w').2 ∧ (∀ u, u ≠ t → R u w' (S.machine.call o w').2) ∧
      Q (some (S.machine.call o w').1) l (S.machine.call o w').2) : Safe S g I R t (Prog.invoke o) Q l w := h

/-- The program returns with `P`; nothing is said where it throws. -/
def Returns (P : α → L → W → Prop) : Option α → L → W → Prop
  | some a => P a
  | none => fun _ _ => True

/-- The pool asks nothing of the way a thread ends. -/
def Ended : Option α → L → W → Prop := Returns fun _ _ _ => True

theorem Safe.seq {P : α → L → W → Prop} {Q : β → L → W → Prop} {p : Prog σ α} {f : α → Prog σ β} {l : L} {w : W}
    (h : Safe S g I R t p (Returns P) l w) (hf : ∀ a l w, P a l w → Safe S g I R t (f a) (Returns Q) l w) :
    Safe S g I R t (p >>= f) (Returns Q) l w := h.bind (fun _ _ _ => trivial) hf

theorem Safe.returns {P Q : α → L → W → Prop} {p : Prog σ α} {l : L} {w : W} (h : Safe S g I R t p (Returns P) l w)
    (hPQ : ∀ a l w, P a l w → Q a l w) : Safe S g I R t p (Returns Q) l w := by
  refine h.mono fun r l w hr => ?_
  cases r with
  | none => trivial
  | some a => exact hPQ a l w hr

theorem Safe.ended {P : α → L → W → Prop} {p : Prog σ α} {l : L} {w : W} (h : Safe S g I R t p (Returns P) l w) :
    Safe S g I R t p Ended l w := h.returns fun _ _ _ _ => trivial

theorem Safe.discard {p : Prog σ α} {l : L} {w : W} (h : Safe S g I R t p Ended l w) :
    Safe S g I R t p.discard Ended l w := h.seq (fun _ _ _ _ => trivial)

/-- A fact that no step of the thread and no interference destroys comes out of the program with the result. -/
theorem Safe.frame {F : W → Prop} (hrely : ∀ w w', R t w w' → F w → F w') (hexec : ∀ c w, F w → F (S.machine.exec c w).2)
    (hcall : ∀ o w, F w → F (S.machine.call o w).2) {Q : Option α → L → W → Prop} {p : Prog σ α} {l : L} {w : W}
    (h : Safe S g I R t p Q l w) (hF : F w) : Safe S g I R t p (fun r l w => Q r l w ∧ F w) l w := by
  induction p generalizing l w with
  | ret a => exact ⟨h, hF⟩
  | throw => exact ⟨h, hF⟩
  | await c k ih =>
    intro w' hw hI
    obtain ⟨h0, h1⟩ := h w' hw hI
    have hF' := hrely w w' hw hF
    refine ⟨ih _ h0 hF', fun hg => ?_⟩
    obtain ⟨hI', hR', hs, hn⟩ := h1 hg
    exact ⟨hI', hR', ih _ hs (hexec c w' hF'), ih _ hn (hexec c w' hF')⟩
  | call o k ih =>
    intro w' hw hI
    obtain ⟨hI', hR', hs⟩ := h w' hw hI
    exact ⟨hI', hR', ih _ hs (hcall o w' (hrely w w' hw hF))⟩

/-- A loop is safe if its body is safe from every world. -/
theorem safe_forM {p : α → Prog σ Unit} (hp : ∀ a l w, Safe S g I R t (p a) Ended l w) :
    ∀ (as : List α) (l : L) (w : W), Safe S g I R t (as.forM p) Ended l w
  | [], _, _ => trivial
  | a :: as, l, w => (hp a l w).seq fun _ l' w' _ => safe_forM hp as l' w'

section run
variable (hrefl : ∀ u w, R u w w) (htrans : ∀ u a b c, R u a b → R u b c → R u a c)

include htrans in
theorem Safe.interfere {p : Prog σ α} {l : L} {w w' : W} (h : Safe S g I R t p Ended l w) (hw : R t w w') :
    Safe S g I R t p Ended l w' := by
  cases p with
  | ret a => trivial
  | throw => trivial
  | await c k => exact fun w'' hw' hI => h w'' (htrans _ _ _ _ hw hw') hI
  | call o k => exact fun w'' hw' hI => h w'' (htrans _ _ _ _ hw hw') hI

include hrefl htrans in
theorem Safe.settle {p : Prog σ α} {l : L} {w : W} (h : Safe S g I R t p Ended l w) (hI : I w) :
    I (p.settle S.machine w).2 ∧ (∀ u, u ≠ t → R u w (p.settle S.machine w).2) ∧
      Safe S g I R t (p.settle S.machine w).1 Ended l (p.settle S.machine w).2 := by
  induction p generalizing w with
  | ret a => exact ⟨hI, fun u _ => hrefl u w, h⟩
  | throw => exact ⟨hI, fun u _ => hrefl u w, h⟩
  | await c k => exact ⟨hI, fun u _ => hrefl u w, h⟩
  | call o k ih =>
    obtain ⟨hI', hR', hs⟩ := h w (hrefl t w) hI
    obtain ⟨hI'', hR'', hs'⟩ := ih _ hs hI'
    exact ⟨hI'', fun u hu => htrans _ _ _ _ (hR' u hu) (hR'' u hu), hs'⟩

/-- The invariant holds, every thread is safe, and nobody has acted for a thread that has not started. -/
structure Good (S : System σ W L E) (g : Guard σ W L) (I : W → Prop) (R : Nat → W → W → Prop) (w₀ : W) (p : Pool σ W L) :
    Prop where
  inv : I p.world
  threads : ∀ i t, p.threads[i]? = some t → Safe S g I R i t.prog Ended t.ghost p.world
  unborn : ∀ n, p.threads.length ≤ n → R n w₀ p.world

include htrans in
/-- The stepping thread is replaced by a safe one and the others tolerate the move. -/
theorem Good.set {w₀ w w' : W} {ts : List (Thread σ L)} {i : Nat} {u v : Thread σ L} (h : Good S g I R w₀ ⟨w, ts⟩)
    (hi : ts[i]? = some u) (hI : I w') (hR : ∀ n, n ≠ i → R n w w')
    (hv : Safe S g I R i v.prog Ended v.ghost w') : Good S g I R w₀ ⟨w', ts.set i v⟩ where
  inv := hI
  threads := by
    intro j t hj
    have hlt : i < ts.length := (List.getElem?_eq_some_iff.1 hi).1
    by_cases hij : j = i
    · subst hij
      rw [List.getElem?_set_self hlt, Option.some.injEq] at hj
      subst hj; exact hv
    · rw [List.getElem?_set_ne (Ne.symm hij)] at hj
      exact (h.threads j t hj).interfere htrans (hR j hij)
  unborn := by
    intro n hn
    have hlt : i < ts.length := (List.getElem?_eq_some_iff.1 hi).1
    rw [List.length_set] at hn
    exact htrans _ _ _ _ (h.unborn n hn) (hR n (by omega))

variable {w₀ : W} (hspawn : ∀ n p, S.spawn n p → ∀ w, I w → R n w₀ w → Safe S g I R n p Ended S.fresh w)
  (hamb : ∀ e w, S.may e → I w → I (S.ambient e w) ∧ ∀ u, R u w (S.ambient e w))
include hrefl htrans hspawn hamb

/-- **One step of any interleaving keeps a pool good.** -/
theorem Good.step {p q : Pool σ W L} (h : Good S g I R w₀ p) (hs : Step S g p q) : Good S g I R w₀ q := by
  cases hs with
  | @start w ts p hp =>
    refine ⟨h.inv, fun j t hj => ?_, fun n hn => h.unborn n (by simp at hn; exact Nat.le_of_succ_le hn)⟩
    rcases Nat.lt_trichotomy j ts.length with hlt | rfl | hgt
    · exact h.threads j t (by rwa [List.getElem?_append_left hlt] at hj)
    · rw [List.getElem?_concat_length, Option.some.injEq] at hj
      subst hj; exact hspawn _ p hp w h.inv (h.unborn _ (Nat.le_refl _))
    · rw [List.getElem?_eq_none (by simp; omega)] at hj; cases hj
  | exec i hi hg =>
    obtain ⟨hI, hR, hs, -⟩ := (h.threads _ _ hi _ (hrefl _ _) h.inv).2 hg
    exact h.set htrans hi hI hR hs
  | lose i hi hg =>
    obtain ⟨hI, hR, -, hs⟩ := (h.threads _ _ hi _ (hrefl _ _) h.inv).2 hg
    exact h.set htrans hi hI hR hs
  | reject i hi =>
    have hs := (h.threads _ _ hi _ (hrefl _ _) h.inv).1
    exact h.set htrans hi h.inv (fun u _ => hrefl u _) hs
  | resume i hi =>
    obtain ⟨hI, hR, hs⟩ := (h.threads _ _ hi).settle hrefl htrans h.inv
    exact h.set htrans hi hI hR hs
  | ambient e he =>
    obtain ⟨hI, hR⟩ := hamb e _ he h.inv
    exact ⟨hI, fun j t hj => (h.threads j t hj).interfere htrans (hR j),
      fun n hn => htrans _ _ _ _ (h.unborn n hn) (hR n)⟩

/-- **Every pool an interleaving reaches is good.** -/
theorem good_of_reach (h₀ : I w₀) {p : Pool σ W L} (h : Reach S g w₀ p) : Good S g I R w₀ p := by
  induction h with
  | refl => exact ⟨h₀, fun i t ht => by simp at ht, fun n _ => hrefl n _⟩
  | tail _ hs ih => exact ih.step hrefl htrans hspawn hamb hs

end run

/-- **A safe program alone**: whatever commands are rejected, it keeps the invariant and ends as promised. -/
theorem Safe.runFaulty (hrefl : ∀ w, R t w w) (hg : ∀ c l w, g c l w) (plan : Nat → Fate)
    {Q : Option α → L → W → Prop} {p : Prog σ α} (i : Nat) {l : L} {w : W} (h : Safe S g I R t p Q l w) (hI : I w) :
    I (p.runFaulty S.machine plan i w).world ∧
      ∃ l', Q (p.runFaulty S.machine plan i w).result l' (p.runFaulty S.machine plan i w).world := by
  induction p generalizing i l w with
  | ret a => exact ⟨hI, l, h⟩
  | throw => exact ⟨hI, l, h⟩
  | await c k ih =>
    obtain ⟨hrejected, h⟩ := h w (hrefl w) hI
    obtain ⟨hI', -, hanswered, hlost⟩ := h (hg c l w)
    unfold Prog.runFaulty
    cases plan i with
    | answered => exact ih _ (i + 1) hanswered hI'
    | rejected => exact ih _ (i + 1) hrejected hI
    | lost => exact ih _ (i + 1) hlost hI'
  | call o k ih =>
    obtain ⟨hI', -, h⟩ := h w (hrefl w) hI
    exact ih _ i h hI'

end safe

end Async
end CloudGaming
