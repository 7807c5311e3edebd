/-
# Results that are told apart by their text

A result holds a value or a text, and it counts as a success when the text is EMPTY.  So there is
a third kind of result beside a value and a reason: a failure without a text, which counts as a
success and holds nothing.  To read the value of such a result is undefined; a run that does so
ends as a `Proc` that fails.

* `Proper`: a result that counts as a success holds a value;
* `checked`: the way programs use a result, `if (!r.ok()) return Err(r.error());`
* `Speaks`: a computation whose errors are not empty, so that its results are proper.
-/
import PqChat.Lib.Proc

/-- A result as an object: an optional value, and a text. -/
structure TextResult (ε α : Type) where
  value : Option α
  error : List ε
  deriving DecidableEq, Repr

namespace TextResult

variable {ε σ α β : Type}

/-! ## 1. The object -/

def ok (a : α) : TextResult ε α := ⟨some a, []⟩

def err (error : List ε) : TextResult ε α := ⟨none, error⟩

def isOk (r : TextResult ε α) : Bool := r.error.isEmpty

/-- Read the value; there may be none. -/
def get (r : TextResult ε α) : Proc σ α :=
  match r.value with
  | some a => pure a
  | none => Proc.fail "the result holds no value"

/-- The result of a call whose errors are strings. -/
def ofExcept (text : String → List ε) : Except String α → TextResult ε α
  | .ok a => ok a
  | .error e => err (text e)

/-- A result that counts as a success holds a value. -/
def Proper (r : TextResult ε α) : Prop := r.isOk → r.value.isSome

instance (r : TextResult ε α) : Decidable r.Proper := inferInstanceAs (Decidable (_ → _))

@[simp] theorem isOk_ok (a : α) : (ok a : TextResult ε α).isOk = true := rfl

theorem isOk_err_iff {error : List ε} : (err error : TextResult ε α).isOk = true ↔ error = [] :=
  List.isEmpty_iff

theorem proper_ok (a : α) : (ok a : TextResult ε α).Proper := fun _ => rfl

theorem proper_err {error : List ε} (h : error ≠ []) : (err error : TextResult ε α).Proper :=
  fun hok => absurd (isOk_err_iff.mp hok) h

/-- The texts of a program are not empty where its strings are not. -/
theorem proper_ofExcept {text : String → List ε} (htext : ∀ e, text e = [] → e = "")
    {r : Except String α} (h : ∀ e, r = .error e → e ≠ "") : (ofExcept text r).Proper := by
  cases r with
  | ok a => exact proper_ok a
  | error e => exact proper_err fun he => h e rfl (htext e he)

/-- `if (!r.ok()) return Err(r.error());`, and on with `x`. -/
def checked (r : TextResult ε α) (x : Proc σ (TextResult ε β)) : Proc σ (TextResult ε β) :=
  if r.isOk then x else pure (err r.error)

theorem checked_pos {r : TextResult ε α} (h : r.isOk = true) (x : Proc σ (TextResult ε β)) :
    checked r x = x := if_pos h

theorem checked_neg {r : TextResult ε α} (h : ¬ r.isOk = true) (x : Proc σ (TextResult ε β)) :
    checked r x = pure (err r.error) := if_neg h

end TextResult

/-! ## 2. Errors that are not empty -/

/-- No error of the computation is the empty string. -/
def Proc.Speaks {σ α : Type} (x : Proc σ α) : Prop := ∀ s e, (x s).1 = .error e → e ≠ ""

namespace Proc.Speaks

variable {σ τ α β : Type} {x : Proc σ α}

theorem pure (a : α) : Speaks (Pure.pure a : Proc σ α) := fun _ _ h => nomatch h

theorem get : Speaks (Proc.get : Proc σ σ) := fun _ _ h => nomatch h

theorem fail {e : String} (h : e ≠ "") : Speaks (Proc.fail e : Proc σ α) := by
  intro s e' he
  obtain rfl := Except.error.inj he
  exact h

theorem bind {f : α → Proc σ β} (hx : Speaks x) (hf : ∀ a, Speaks (f a)) : Speaks (x >>= f) := by
  intro s e he
  rw [bind_apply] at he
  rcases hs : x s with ⟨e' | a, s'⟩ <;> rw [hs] at he
  · obtain rfl := Except.error.inj he
    exact hx s e' (by rw [hs])
  · exact hf a s' e he

theorem require (p : Prop) [Decidable p] {e : String} (h : e ≠ "") :
    Speaks (Proc.require p e : Proc σ Unit) := by
  unfold Proc.require
  split
  · exact .pure ()
  · exact .fail h

theorem ite {p : Prop} [Decidable p] {y : Proc σ α} (hx : Speaks x) (hy : Speaks y) :
    Speaks (if p then x else y) := by
  split
  · exact hx
  · exact hy

/-- Behind a text of one's own, an error may be anything. -/
theorem within {p : String} (h : p ≠ "") (x : Proc σ α) : Speaks (Proc.within p x) := by
  intro s e he
  unfold Proc.within at he
  rcases hs : x s with ⟨e' | a, s'⟩ <;> rw [hs] at he
  · obtain rfl := Except.error.inj he
    exact fun hempty => h (String.append_eq_empty_iff.mp hempty).1
  · cases he

theorem ofExcept {p : String} {r : Except String α} (h : ∀ e, r = .error e → e ≠ "") :
    Speaks (Proc.ofExcept p r : Proc σ α) := by
  intro s e he
  cases r with
  | ok a => cases he
  | error e' =>
    obtain rfl := Except.error.inj he
    exact fun hempty => h e' rfl (String.append_eq_empty_iff.mp hempty).2

theorem zoom {get : σ → τ} {set : τ → σ → σ} {y : Proc τ α} (h : Speaks y) :
    Speaks (Proc.zoom get set y) := fun s => h (get s)

end Proc.Speaks
