/-
# Computations that fail without rolling back

A C++ member function that returns early with an error leaves behind every field it has
assigned so far.  `Proc σ α` is that kind of computation: a state transformer whose result is
a value or an error text, and whose state is the state REACHED in either case.  It is not
`StateT σ (Except String)`, which forgets the state of a failed run.

The module gives the monad, the few operations programs are written with, and two ways to
reason about them:

* `wp`, the weakest precondition of a postcondition that sees the result and the final state,
  with one introduction rule per operation, so that a long sequence of fallible steps is
  walked through once;
* `Preserves`, for predicates that every step keeps no matter whether it fails.

`Succeeds` says of a computation that it does not fail.  A `Triple` is for computations that may
be stopped: an error means that they have not come to an end, and there is an assertion for that.
-/
import Mathlib.Tactic.Common

/-- A computation over the state `σ` that yields an `α` or an error text.  The state reached
is kept in both cases. -/
def Proc (σ α : Type) : Type := σ → Except String α × σ

namespace Proc

variable {σ τ α β : Type}

/-! ## 1. The monad -/

instance : Monad (Proc σ) where
  pure a := fun s => (.ok a, s)
  bind x f := fun s =>
    match x s with
    | (.ok a, s') => f a s'
    | (.error e, s') => (.error e, s')

/-- Return early with the error `e`. -/
def fail (e : String) : Proc σ α := fun s => (.error e, s)

/-- Read the state. -/
def get : Proc σ σ := fun s => (.ok s, s)

/-- Assign to the state. -/
def modify (f : σ → σ) : Proc σ Unit := fun s => (.ok (), f s)

/-- Check the result of a pure fallible call; an error is passed on behind the text `p`. -/
def ofExcept (p : String) (r : Except String α) : Proc σ α := fun s =>
  match r with
  | .ok a => (.ok a, s)
  | .error e => (.error (p ++ e), s)

/-- Return early with `e` unless `p` holds. -/
def require (p : Prop) [Decidable p] (e : String) : Proc σ Unit :=
  if p then pure () else fail e

/-- Pass the errors of `x` on behind the text `p`. -/
def within (p : String) (x : Proc σ α) : Proc σ α := fun s =>
  match x s with
  | (.ok a, s') => (.ok a, s')
  | (.error e, s') => (.error (p ++ e), s')

/-- Run `x` and hand its result, error or not, to the caller. -/
def attempt (x : Proc σ α) : Proc σ (Except String α) := fun s =>
  match x s with
  | (r, s') => (.ok r, s')

/-- Run a computation on a component of the state. -/
def zoom (get : σ → τ) (set : τ → σ → σ) (x : Proc τ α) : Proc σ α := fun s =>
  match x (get s) with
  | (r, t) => (r, set t s)

@[simp] theorem pure_apply (a : α) (s : σ) : (pure a : Proc σ α) s = (.ok a, s) := rfl

theorem bind_apply (x : Proc σ α) (f : α → Proc σ β) (s : σ) :
    (x >>= f) s = match x s with
      | (.ok a, s') => f a s'
      | (.error e, s') => (.error e, s') := rfl

theorem bind_ok {x : Proc σ α} {s s' : σ} {a : α} (h : x s = (.ok a, s')) (f : α → Proc σ β) :
    (x >>= f) s = f a s' := by
  rw [bind_apply, h]

theorem bind_error {x : Proc σ α} {s s' : σ} {e : String} (h : x s = (.error e, s'))
    (f : α → Proc σ β) : (x >>= f) s = (.error e, s') := by
  rw [bind_apply, h]

@[simp] theorem fail_apply (e : String) (s : σ) : (fail e : Proc σ α) s = (.error e, s) := rfl

@[simp] theorem get_apply (s : σ) : (get : Proc σ σ) s = (.ok s, s) := rfl

@[simp] theorem modify_apply (f : σ → σ) (s : σ) : modify f s = (.ok (), f s) := rfl

@[simp] theorem ofExcept_ok (p : String) (a : α) (s : σ) :
    (ofExcept p (.ok a) : Proc σ α) s = (.ok a, s) := rfl

@[simp] theorem require_pos {p : Prop} [Decidable p] (h : p) (e : String) :
    (require p e : Proc σ Unit) = pure () := if_pos h

theorem within_ok {x : Proc σ α} {s s' : σ} {a : α} (h : x s = (.ok a, s')) (p : String) :
    within p x s = (.ok a, s') := by
  rw [within, h]

theorem within_error {x : Proc σ α} {s s' : σ} {e : String} (h : x s = (.error e, s'))
    (p : String) : within p x s = (.error (p ++ e), s') := by
  rw [within, h]

/-- The text of an error does not matter to the state. -/
theorem within_state (p : String) (x : Proc σ α) (s : σ) : (within p x s).2 = (x s).2 := by
  rw [within]
  rcases x s with ⟨_ | a, s'⟩ <;> rfl

theorem attempt_apply {x : Proc σ α} {s s' : σ} {r : Except String α} (h : x s = (r, s')) :
    attempt x s = (.ok r, s') := by
  rw [attempt, h]

@[simp] theorem pure_bind (a : α) (f : α → Proc σ β) : ((pure a : Proc σ α) >>= f) = f a := rfl

theorem bind_assoc {γ : Type} (x : Proc σ α) (f : α → Proc σ β) (g : β → Proc σ γ) :
    ((x >>= f) >>= g) = (x >>= fun a => f a >>= g) := by
  funext s
  rcases hx : x s with ⟨_ | a, t⟩ <;> simp only [bind_apply, hx]

/-- A computation whose result is only renamed. -/
theorem bind_pure_apply (x : Proc σ α) (f : α → β) (s : σ) :
    (x >>= fun a => pure (f a)) s = ((x s).1.map f, (x s).2) := by
  rcases hx : x s with ⟨_ | a, t⟩ <;> simp [bind_apply, hx, Except.map]

@[simp] theorem ofExcept_ok_bind (p : String) (a : α) (f : α → Proc σ β) :
    (ofExcept p (.ok a) >>= f) = f a := rfl

@[simp] theorem get_bind_apply (f : σ → Proc σ β) (s : σ) : (get >>= f) s = f s s := rfl

@[simp] theorem modify_bind_apply (g : σ → σ) (f : Unit → Proc σ β) (s : σ) :
    (modify g >>= f) s = f () (g s) := rfl

/-- A sequence succeeds exactly when both of its parts do. -/
theorem bind_eq_ok_iff {x : Proc σ α} {f : α → Proc σ β} {s s' : σ} {b : β} :
    (x >>= f) s = (.ok b, s') ↔ ∃ a t, x s = (.ok a, t) ∧ f a t = (.ok b, s') := by
  rw [bind_apply]
  rcases hx : x s with ⟨_ | a, t⟩ <;> simp

theorem within_eq_ok_iff {x : Proc σ α} {p : String} {s s' : σ} {a : α} :
    within p x s = (.ok a, s') ↔ x s = (.ok a, s') := by
  unfold within
  rcases x s with ⟨_ | a, t⟩ <;> simp

theorem ofExcept_eq_ok_iff {p : String} {r : Except String α} {s s' : σ} {a : α} :
    (ofExcept p r : Proc σ α) s = (.ok a, s') ↔ r = .ok a ∧ s = s' := by
  unfold ofExcept
  cases r <;> simp

theorem require_eq_ok_iff {p : Prop} [Decidable p] {e : String} {s s' : σ} {u : Unit} :
    (require p e : Proc σ Unit) s = (.ok u, s') ↔ p ∧ s = s' := by
  unfold require
  split <;> simp [*]

/-! ## 2. Weakest preconditions -/

/-- `wp x Q s`: run from `s`, the computation `x` ends with a result and a state that
satisfy `Q`. -/
def wp (x : Proc σ α) (Q : Except String α → σ → Prop) (s : σ) : Prop := Q (x s).1 (x s).2

variable {x : Proc σ α} {f : α → Proc σ β} {Q : Except String β → σ → Prop} {s : σ}

theorem wp_apply {Q : Except String α → σ → Prop} : wp x Q s ↔ Q (x s).1 (x s).2 := Iff.rfl

theorem wp_mono {Q Q' : Except String α → σ → Prop} (h : wp x Q s)
    (himp : ∀ r s', Q r s' → Q' r s') : wp x Q' s := himp _ _ h

theorem wp_of_eq {Q : Except String α → σ → Prop} {r : Except String α} {s' : σ}
    (h : x s = (r, s')) (hQ : Q r s') : wp x Q s := by
  rw [wp, h]
  exact hQ

/-- The rule for a sequence: pick an intermediate assertion `R`, carry its error case to the
end and its success case into the rest of the program. -/
theorem wp_bind {R : Except String α → σ → Prop} (hx : wp x R s)
    (herr : ∀ e s', R (.error e) s' → Q (.error e) s')
    (hok : ∀ a s', R (.ok a) s' → wp (f a) Q s') : wp (x >>= f) Q s := by
  unfold wp at hx ⊢
  rw [bind_apply]
  rcases hr : x s with ⟨_ | a, s'⟩
  · rw [hr] at hx
    exact herr _ _ hx
  · rw [hr] at hx
    exact hok _ _ hx

/-- The rule for a sequence whose intermediate assertion is the one needed. -/
theorem wp_seq (h : wp x (fun r s' => match r with
    | .ok a => wp (f a) Q s'
    | .error e => Q (.error e) s') s) : wp (x >>= f) Q s :=
  wp_bind h (fun _ _ he => he) fun _ _ ha => ha

theorem wp_of_bind_ok {a : α} {s' : σ} (h : x s = (.ok a, s')) (hf : wp (f a) Q s') :
    wp (x >>= f) Q s := by
  unfold wp
  rw [bind_ok h]
  exact hf

theorem wp_pure {a : α} {Q : Except String α → σ → Prop} (h : Q (.ok a) s) :
    wp (pure a) Q s := h

theorem wp_fail {e : String} {Q : Except String α → σ → Prop} (h : Q (.error e) s) :
    wp (fail e) Q s := h

theorem wp_modify {g : σ → σ} {Q : Except String Unit → σ → Prop} (h : Q (.ok ()) (g s)) :
    wp (modify g) Q s := h

theorem wp_get_bind {f : σ → Proc σ β} (h : wp (f s) Q s) : wp (get >>= f) Q s := h

theorem wp_modify_bind {g : σ → σ} {f : Unit → Proc σ β} (h : wp (f ()) Q (g s)) :
    wp (modify g >>= f) Q s := h

theorem wp_ofExcept_bind {p : String} {r : Except String α}
    (herr : ∀ e, r = .error e → Q (.error (p ++ e)) s)
    (hok : ∀ a, r = .ok a → wp (f a) Q s) : wp (ofExcept p r >>= f) Q s := by
  cases r with
  | error e => exact herr e rfl
  | ok a => exact hok a rfl

theorem wp_ofExcept {p : String} {r : Except String α} {Q : Except String α → σ → Prop}
    (herr : ∀ e, r = .error e → Q (.error (p ++ e)) s) (hok : ∀ a, r = .ok a → Q (.ok a) s) :
    wp (ofExcept p r) Q s := by
  cases r with
  | error e => exact herr e rfl
  | ok a => exact hok a rfl

theorem wp_require_bind {p : Prop} [Decidable p] {e : String} {f : Unit → Proc σ β}
    (herr : ¬ p → Q (.error e) s) (hok : p → wp (f ()) Q s) : wp (require p e >>= f) Q s := by
  by_cases h : p
  · rw [require_pos h]
    exact hok h
  · rw [require, if_neg h]
    exact herr h

/-- The rule for a step on a component: its outcome is carried back into the whole state. -/
theorem wp_zoom_bind {get : σ → τ} {set : τ → σ → σ} {x : Proc τ α}
    (h : wp x (fun r t => match r with
      | .ok a => wp (f a) Q (set t s)
      | .error e => Q (.error e) (set t s)) (get s)) : wp (zoom get set x >>= f) Q s := by
  unfold wp at h ⊢
  rw [bind_apply]
  unfold zoom
  rcases hr : x (get s) with ⟨_ | a, t⟩ <;> rw [hr] at h <;> exact h

theorem wp_zoom {get : σ → τ} {set : τ → σ → σ} {x : Proc τ α} {Q : Except String α → σ → Prop}
    (h : wp x (fun r t => Q r (set t s)) (get s)) : wp (zoom get set x) Q s := h

theorem wp_attempt {Q : Except String (Except String α) → σ → Prop}
    (h : wp x (fun r s' => Q (.ok r) s') s) : wp (attempt x) Q s := h

/-! ## 3. Predicates that every step keeps -/

/-- Every run of `x`, failed or not, keeps the predicate `I`. -/
def Preserves (I : σ → Prop) (x : Proc σ α) : Prop := ∀ s, I s → I (x s).2

namespace Preserves

variable {I : σ → Prop}

theorem pure (a : α) : Preserves I (Pure.pure a : Proc σ α) := fun _ h => h

theorem fail (e : String) : Preserves I (Proc.fail e : Proc σ α) := fun _ h => h

theorem get : Preserves I (Proc.get : Proc σ σ) := fun _ h => h

theorem modify {f : σ → σ} (h : ∀ s, I s → I (f s)) : Preserves I (Proc.modify f) := h

theorem ofExcept (p : String) (r : Except String α) :
    Preserves I (Proc.ofExcept p r : Proc σ α) := by
  intro s h
  cases r <;> exact h

theorem require (p : Prop) [Decidable p] (e : String) :
    Preserves I (Proc.require p e : Proc σ Unit) := by
  intro s h
  unfold Proc.require
  split <;> exact h

theorem bind (hx : Preserves I x) (hf : ∀ a, Preserves I (f a)) : Preserves I (x >>= f) := by
  intro s h
  have h1 := hx s h
  rw [bind_apply]
  rcases hr : x s with ⟨_ | a, s'⟩
  · rw [hr] at h1
    exact h1
  · rw [hr] at h1
    exact hf a s' h1

theorem within (p : String) (hx : Preserves I x) : Preserves I (Proc.within p x) := by
  intro s h
  have h1 := hx s h
  unfold Proc.within
  rcases hr : x s with ⟨_ | a, s'⟩ <;> rw [hr] at h1 <;> exact h1

theorem attempt (hx : Preserves I x) : Preserves I (Proc.attempt x) := fun s h => hx s h

theorem ite {p : Prop} [Decidable p] {x y : Proc σ α} (hx : Preserves I x)
    (hy : Preserves I y) : Preserves I (if p then x else y) := by
  split
  · exact hx
  · exact hy

/-- A predicate on a component is kept by a computation on that component that keeps it, and
the other components do not matter to it. -/
theorem zoom {get : σ → τ} {set : τ → σ → σ} {x : Proc τ α}
    (h : ∀ s, I s → I (set (x (get s)).2 s)) : Preserves I (Proc.zoom get set x) := h

end Preserves

/-! ## 4. Computations that do not fail -/

/-- `x` ends with a value, wherever it starts. -/
def Succeeds (x : Proc σ α) : Prop := ∀ s, ∃ a, (x s).1 = .ok a

namespace Succeeds

theorem pure (a : α) : Succeeds (Pure.pure a : Proc σ α) := fun _ => ⟨a, rfl⟩

theorem get : Succeeds (Proc.get : Proc σ σ) := fun s => ⟨s, rfl⟩

theorem modify (f : σ → σ) : Succeeds (Proc.modify f) := fun _ => ⟨(), rfl⟩

theorem attempt (x : Proc σ α) : Succeeds (Proc.attempt x) := fun s => ⟨(x s).1, rfl⟩

theorem bind {x : Proc σ α} {f : α → Proc σ β} (hx : Succeeds x) (hf : ∀ a, Succeeds (f a)) :
    Succeeds (x >>= f) := by
  intro s
  obtain ⟨a, ha⟩ := hx s
  rw [Proc.bind_ok (Prod.ext ha rfl)]
  exact hf a _

theorem ite {p : Prop} [Decidable p] {x y : Proc σ α} (hx : Succeeds x) (hy : Succeeds y) :
    Succeeds (if p then x else y) := by
  split
  · exact hx
  · exact hy

end Succeeds

/-! ## 5. Computations that may be stopped -/

/-- Run from a state in `P`, the computation returns in a state in `Q`, or it stops in one in
`I`. -/
def Triple (I P : σ → Prop) (x : Proc σ α) (Q : α → σ → Prop) : Prop :=
  ∀ s, P s → wp x (fun r s' => match r with
    | .ok a => Q a s'
    | .error _ => I s') s

namespace Triple

variable {I P A : σ → Prop} {x : Proc σ α} {f : α → Proc σ β} {R : α → σ → Prop}
  {Q : β → σ → Prop}

theorem mono {R' : α → σ → Prop} (h : Triple I A x R') (hpre : ∀ s, P s → A s)
    (hpost : ∀ a s, R' a s → R a s) : Triple I P x R := by
  intro s hs
  refine wp_mono (h s (hpre s hs)) fun r s' hr => ?_
  cases r with
  | error e => exact hr
  | ok a => exact hpost a s' hr

theorem pure (a : α) (h : ∀ s, P s → R a s) : Triple I P (Pure.pure a) R := h

theorem fail (e : String) (h : ∀ s, P s → I s) : Triple I P (Proc.fail e : Proc σ α) R := h

theorem modify {g : σ → σ} {R : Unit → σ → Prop} (h : ∀ s, P s → R () (g s)) :
    Triple I P (Proc.modify g) R := h

/-- The rule for a sequence. -/
theorem bind (hx : Triple I P x R) (hf : ∀ a, Triple I (R a) (f a) Q) :
    Triple I P (x >>= f) Q := by
  intro s hs
  refine wp_bind (hx s hs) (fun _ _ h => h) fun a s' ha => ?_
  exact hf a s' ha

/-- What is known before is known behind a read. -/
theorem get_bind {f : σ → Proc σ β} (h : ∀ a, Triple I (fun s => a = s ∧ P s) (f a) Q) :
    Triple I P (Proc.get >>= f) Q := fun s hs => h s s ⟨rfl, hs⟩

theorem ite {p : Prop} [Decidable p] {x y : Proc σ α} (hx : p → Triple I P x R)
    (hy : ¬ p → Triple I P y R) : Triple I P (if p then x else y) R := by
  split
  · rename_i hp
    exact hx hp
  · rename_i hp
    exact hy hp

end Triple

end Proc
