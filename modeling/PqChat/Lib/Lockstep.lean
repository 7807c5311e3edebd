/-
# Two programs side by side

Two implementations of one interface are compared by running them from related states:
`Lockstep x y Q E s t` says that `x` from `s` and `y` from `t` both succeed, with results and
states that satisfy `Q`, or both fail, in states that satisfy `E`.  Error texts are not compared.

A step that both programs take is walked through on both sides at once (`bind`,
`require_bind`, `ofExcept_bind`); a step of one side alone is taken by `left` or `right`.

`Refines R x y` is for two programs of one result type whose error texts do count: from states
that `R` relates they return the same, and after a success the states are related again.
-/
import PqChat.Lib.Sql

/-- Two outcomes are both successes, or both failures. -/
def BothEnd {σ τ α β : Type} (Q : α → β → σ → τ → Prop) (E : σ → τ → Prop) :
    Except String α × σ → Except String β × τ → Prop
  | (.ok a, s'), (.ok b, t') => Q a b s' t'
  | (.error _, s'), (.error _, t') => E s' t'
  | _, _ => False

/-- `x` and `y` both succeed, or both fail. -/
def Lockstep {σ τ α β : Type} (x : Proc σ α) (y : Proc τ β) (Q : α → β → σ → τ → Prop)
    (E : σ → τ → Prop) (s : σ) (t : τ) : Prop := BothEnd Q E (x s) (y t)

namespace Lockstep

variable {σ τ α β γ δ : Type} {x : Proc σ α} {y : Proc τ β} {f : α → Proc σ γ}
  {g : β → Proc τ δ} {Q Q' : α → β → σ → τ → Prop} {R : γ → δ → σ → τ → Prop}
  {E : σ → τ → Prop} {s s' : σ} {t t' : τ}

/-! ## 1. Steps of both sides -/

theorem pure {a : α} {b : β} (h : Q a b s t) :
    Lockstep (Pure.pure a : Proc σ α) (Pure.pure b : Proc τ β) Q E s t := h

theorem fail {e e' : String} (h : E s t) :
    Lockstep (Proc.fail e : Proc σ α) (Proc.fail e' : Proc τ β) Q E s t := h

theorem imp {E' : σ → τ → Prop} (h : Lockstep x y Q E s t)
    (hQ : ∀ a b s' t', Q a b s' t' → Q' a b s' t') (hE : ∀ s' t', E s' t' → E' s' t') :
    Lockstep x y Q' E' s t := by
  unfold Lockstep at h ⊢
  rcases hx : x s with ⟨_ | a, s'⟩ <;> rcases hy : y t with ⟨_ | b, t'⟩ <;> rw [hx, hy] at h
  · exact hE s' t' h
  · exact h.elim
  · exact h.elim
  · exact hQ a b s' t' h

theorem bind (hx : Lockstep x y Q E s t)
    (hf : ∀ a b s' t', Q a b s' t' → Lockstep (f a) (g b) R E s' t') :
    Lockstep (x >>= f) (y >>= g) R E s t := by
  unfold Lockstep at hx ⊢
  rw [Proc.bind_apply, Proc.bind_apply]
  rcases hs : x s with ⟨_ | a, s'⟩ <;> rcases ht : y t with ⟨_ | b, t'⟩ <;> rw [hs, ht] at hx
  · exact hx
  · exact hx.elim
  · exact hx.elim
  · exact hf a b s' t' hx

theorem ofExcept_bind {r : Except String α} {p q : String} {g : α → Proc τ δ} (hE : E s t)
    (hf : ∀ a, r = .ok a → Lockstep (f a) (g a) R E s t) :
    Lockstep (Proc.ofExcept p r >>= f) (Proc.ofExcept q r >>= g) R E s t := by
  cases r with
  | error e => exact hE
  | ok a => exact hf a rfl

theorem require_bind {p q : Prop} [Decidable p] [Decidable q] {e e' : String}
    {f : Unit → Proc σ γ} {g : Unit → Proc τ δ} (hpq : p ↔ q) (hE : E s t)
    (hf : p → Lockstep (f ()) (g ()) R E s t) :
    Lockstep (Proc.require p e >>= f) (Proc.require q e' >>= g) R E s t := by
  by_cases hp : p
  · rw [Proc.require_pos hp, Proc.require_pos (hpq.mp hp)]
    exact hf hp
  · rw [Proc.require, if_neg hp, Proc.require, if_neg fun hq => hp (hpq.mpr hq)]
    exact hE

/-- One computation on a component of either state. -/
theorem zoom {σ₀ τ₀ : Type} {get : σ → σ₀} {set : σ₀ → σ → σ} {get' : τ → τ₀}
    {set' : τ₀ → τ → τ} {x : Proc σ₀ α} {y : Proc τ₀ β}
    (h : Lockstep x y (fun a b s' t' => Q a b (set s' s) (set' t' t))
      (fun s' t' => E (set s' s) (set' t' t)) (get s) (get' t)) :
    Lockstep (Proc.zoom get set x) (Proc.zoom get' set' y) Q E s t := by
  unfold Lockstep at h ⊢
  unfold Proc.zoom
  rcases hx : x (get s) with ⟨_ | a, s'⟩ <;> rcases hy : y (get' t) with ⟨_ | b, t'⟩ <;>
    rw [hx, hy] at h <;> exact h

/-! ## 2. Steps of one side -/

theorem left {y : Proc τ δ} {a : α} (hx : x s = (.ok a, s'))
    (h : Lockstep (f a) y R E s' t) : Lockstep (x >>= f) y R E s t := by
  unfold Lockstep at h ⊢
  rw [Proc.bind_ok hx]
  exact h

theorem right {x : Proc σ γ} {b : β} (hy : y t = (.ok b, t'))
    (h : Lockstep x (g b) R E s t') : Lockstep x (y >>= g) R E s t := by
  unfold Lockstep at h ⊢
  rw [Proc.bind_ok hy]
  exact h

/-- Both sides end here. -/
theorem of_ok {a : α} {b : β} (hx : x s = (.ok a, s')) (hy : y t = (.ok b, t'))
    (h : Q a b s' t') : Lockstep x y Q E s t := by
  unfold Lockstep
  rw [hx, hy]
  exact h

theorem of_error {e e' : String} (hx : x s = (.error e, s')) (hy : y t = (.error e', t'))
    (h : E s' t') : Lockstep x y Q E s t := by
  unfold Lockstep
  rw [hx, hy]
  exact h

/-- A step of the right side that is a statement, or several, on a reliable database. -/
theorem right_leaves {T : Type} {h : Sql.Holder τ T} {x : Proc σ γ} {b : β} {tables : T}
    (hy : Sql.Leaves h y t b tables)
    (hg : ∀ d, d.Reliable → d.saved = (h.get t).saved → d.tables = tables →
      Lockstep x (g b) R E s (h.set d t)) : Lockstep x (y >>= g) R E s t := by
  obtain ⟨d, hy, hd, hsaved, htables⟩ := hy
  exact right hy (hg d hd hsaved htables)

/-- The right side ends with such a step. -/
theorem right_leaves_end {T : Type} {h : Sql.Holder τ T} {a : α} {b : β} {tables : T}
    (hx : x s = (.ok a, s')) (hy : Sql.Leaves h y t b tables)
    (hQ : ∀ d, d.Reliable → d.saved = (h.get t).saved → d.tables = tables →
      Q a b s' (h.set d t)) : Lockstep x y Q E s t := by
  obtain ⟨d, hy, hd, hsaved, htables⟩ := hy
  exact of_ok hx hy (hQ d hd hsaved htables)

theorem left_require {p : Prop} [Decidable p] {e : String} {f : Unit → Proc σ γ} {y : Proc τ δ}
    (hp : p) (h : Lockstep (f ()) y R E s t) : Lockstep (Proc.require p e >>= f) y R E s t := by
  rw [Proc.require_pos hp]
  exact h

theorem right_require {q : Prop} [Decidable q] {e : String} {x : Proc σ γ} {g : Unit → Proc τ δ}
    (hq : q) (h : Lockstep x (g ()) R E s t) : Lockstep x (Proc.require q e >>= g) R E s t := by
  rw [Proc.require_pos hq]
  exact h

/-- What the outcome tells a caller that does not look at error texts. -/
theorem toOption_eq {x : Proc σ α} {y : Proc τ α} {Q : α → α → σ → τ → Prop}
    (h : Lockstep x y Q E s t) (hQ : ∀ a b s' t', Q a b s' t' → a = b) :
    (x s).1.toOption = (y t).1.toOption := by
  unfold Lockstep at h
  rcases hx : x s with ⟨_ | a, s'⟩ <;> rcases hy : y t with ⟨_ | b, t'⟩ <;> rw [hx, hy] at h
  · rfl
  · exact h.elim
  · exact h.elim
  · exact congrArg some (hQ a b s' t' h)

/-- What is true of the states whichever way it ended. -/
theorem states {I : σ → τ → Prop} (h : Lockstep x y Q E s t)
    (hQ : ∀ a b s' t', Q a b s' t' → I s' t') (hE : ∀ s' t', E s' t' → I s' t') :
    I (x s).2 (y t).2 := by
  unfold Lockstep at h
  rcases hx : x s with ⟨_ | a, s'⟩ <;> rcases hy : y t with ⟨_ | b, t'⟩ <;> rw [hx, hy] at h
  · exact hE _ _ h
  · exact h.elim
  · exact h.elim
  · exact hQ _ _ _ _ h

end Lockstep

/-! ## 3. The same program over two kinds of state -/

/-- From related states `x` and `y` return the same; after a success the states are related. -/
def Refines {σ τ α : Type} (R : σ → τ → Prop) (x : Proc σ α) (y : Proc τ α) : Prop :=
  ∀ s t, R s t → (x s).1 = (y t).1 ∧ ∀ a, (x s).1 = .ok a → R (x s).2 (y t).2

namespace Refines

variable {σ τ α β : Type} {R : σ → τ → Prop} {x : Proc σ α} {y : Proc τ α} {f : α → Proc σ β}
  {g : α → Proc τ β}

theorem pure (a : α) : Refines R (Pure.pure a : Proc σ α) (Pure.pure a : Proc τ α) :=
  fun _ _ h => ⟨rfl, fun _ _ => h⟩

theorem bind (hx : Refines R x y) (hf : ∀ a, Refines R (f a) (g a)) :
    Refines R (x >>= f) (y >>= g) := by
  intro s t h
  obtain ⟨hresult, hstates⟩ := hx s t h
  rw [Proc.bind_apply, Proc.bind_apply]
  rcases hs : x s with ⟨_ | a, s'⟩ <;> rcases ht : y t with ⟨_ | b, t'⟩ <;>
    rw [hs, ht] at hresult hstates
  · exact ⟨congrArg Except.error (Except.error.inj hresult), nofun⟩
  · cases hresult
  · cases hresult
  · obtain rfl := Except.ok.inj hresult
    exact hf a s' t' (hstates a rfl)

theorem require (p : Prop) [Decidable p] (e : String) :
    Refines R (Proc.require p e : Proc σ Unit) (Proc.require p e : Proc τ Unit) := by
  intro s t h
  by_cases hp : p
  · rw [Proc.require_pos hp, Proc.require_pos hp]
    exact ⟨rfl, fun _ _ => h⟩
  · rw [Proc.require, if_neg hp, Proc.require, if_neg hp]
    refine ⟨rfl, fun _ ha => ?_⟩
    cases ha

theorem ite {p : Prop} [Decidable p] {x' : Proc σ α} {y' : Proc τ α} (hx : Refines R x y)
    (hx' : Refines R x' y') :
    Refines R (if p then x else x') (if p then y else y') := by
  split
  · exact hx
  · exact hx'

end Refines
