/-
# Histories of a machine

A machine takes one action after another; what it has done is the list of the actions, NEWEST
FIRST.  A moment of the past is then a suffix of the list, and `a :: earlier <:+ actions` says
that `a` was taken when `earlier` had been taken before it.

* `after_induction`: what holds at the start and is kept by every action holds now;
* `since`: what holds now and did not hold at the start goes back to ONE action that made it
  true, and has held ever since.  Most questions of the kind "who put this here" are answered by
  it, with one lemma that says which actions can make the thing true, and one that says which
  actions would have undone it.
-/
import Mathlib.Data.List.Infix

namespace History

variable {σ α : Type}

/-- The state after the actions, newest first. -/
def after (step : α → σ → σ) (s₀ : σ) : List α → σ
  | [] => s₀
  | a :: earlier => step a (after step s₀ earlier)

variable {step : α → σ → σ} {s₀ : σ} {actions : List α}

@[simp] theorem after_nil : after step s₀ [] = s₀ := rfl

@[simp] theorem after_cons (a : α) (earlier : List α) :
    after step s₀ (a :: earlier) = step a (after step s₀ earlier) := rfl

theorem after_append (later earlier : List α) :
    after step s₀ (later ++ earlier) = after step (after step s₀ earlier) later := by
  induction later with
  | nil => rfl
  | cons a later ih => exact congrArg (step a) ih

theorem after_induction {I : σ → Prop} (h₀ : I s₀) (hstep : ∀ a s, I s → I (step a s))
    (actions : List α) : I (after step s₀ actions) := by
  induction actions with
  | nil => exact h₀
  | cons a earlier ih => exact hstep a _ ih

/-- What holds now was made true by one action and has held since. -/
theorem since {P : σ → Prop} (h₀ : ¬ P s₀) (h : P (after step s₀ actions)) :
    ∃ a earlier, a :: earlier <:+ actions ∧ ¬ P (after step s₀ earlier) ∧
      P (after step s₀ (a :: earlier)) ∧
      ∀ b between, b :: between <:+ actions → a :: earlier <:+ between →
        P (after step s₀ between) ∧ P (after step s₀ (b :: between)) := by
  induction actions with
  | nil => exact absurd h h₀
  | cons a earlier ih =>
    by_cases hP : P (after step s₀ earlier)
    · obtain ⟨a', earlier', hsuf, hnot, hmade, hsince⟩ := ih hP
      refine ⟨a', earlier', hsuf.trans (List.suffix_cons a earlier), hnot, hmade, ?_⟩
      intro b between hb hbetween
      rcases List.suffix_cons_iff.mp hb with he | hb
      · obtain ⟨rfl, rfl⟩ := List.cons.inj he
        exact ⟨hP, h⟩
      · exact hsince b between hb hbetween
    · refine ⟨a, earlier, List.suffix_refl _, hP, h, ?_⟩
      -- nothing lies between the newest action and now
      intro b between hb hbetween
      have h1 := hb.length_le
      have h2 := hbetween.length_le
      simp only [List.length_cons] at h1 h2
      omega

/-- Two moments of one past are comparable. -/
theorem suffix_total {l₁ l₂ : List α} (h₁ : l₁ <:+ actions) (h₂ : l₂ <:+ actions) :
    l₁ <:+ l₂ ∨ l₂ <:+ l₁ := List.suffix_or_suffix_of_suffix h₁ h₂

/-- Of two actions of one past, one was taken before the other, or they are one. -/
theorem cases_of_suffix {a b : α} {e₁ e₂ : List α} (h₁ : a :: e₁ <:+ actions)
    (h₂ : b :: e₂ <:+ actions) : a :: e₁ <:+ e₂ ∨ b :: e₂ <:+ e₁ ∨ (a = b ∧ e₁ = e₂) := by
  rcases suffix_total h₁ h₂ with h | h
  · rcases List.suffix_cons_iff.mp h with he | h
    · exact Or.inr (Or.inr (List.cons.inj he))
    · exact Or.inl h
  · rcases List.suffix_cons_iff.mp h with he | h
    · obtain ⟨rfl, rfl⟩ := List.cons.inj he
      exact Or.inr (Or.inr ⟨rfl, rfl⟩)
    · exact Or.inr (Or.inl h)

end History
