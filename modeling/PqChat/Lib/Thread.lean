/-
# Threads that call a shared object

A THREAD makes one call of a shared object after another and ends with a result or an error
text; what it does next depends on the answers it has got.  A call is atomic, and between two
calls of one thread the others may make any number of calls.

`Thread C A R` is such a program: `C` are the calls, `A c` is what the call `c` returns, `R` is
the result.  An error of a call ends the thread, unless it looks at the answer itself.

* `Allows` and `Ends` are the way to reason about one thread: every call it makes, and the result
  it ends with, is allowed by the answers it has got before, whatever these were;
* a `Pool` runs any number of threads in any order and keeps for each of them the calls it has
  made with their answers, so that what `Allows` and `Ends` say of the program is a fact about
  every thread of every history (`Pool.allowed`, `Pool.ended`).
-/
import PqChat.Lib.Proc
import PqChat.Lib.Map
import PqChat.Lib.History

/-- A program that makes calls and ends with a result or an error text. -/
inductive Thread (C : Type) (A : C → Type) (R : Type) : Type
  | finished (r : Except String R)
  | calls (c : C) (next : Except String (A c) → Thread C A R)

namespace Thread

variable {C : Type} {A : C → Type} {R R' : Type}

/-! ## 1. Programs -/

def bind : Thread C A R → (R → Thread C A R') → Thread C A R'
  | finished (.ok a), f => f a
  | finished (.error e), _ => finished (.error e)
  | calls c next, f => calls c fun r => (next r).bind f

instance : Monad (Thread C A) where
  pure a := finished (.ok a)
  bind := bind

/-- Make a call; its error is the thread's. -/
def perform (c : C) : Thread C A (A c) := calls c finished

/-- Check the result of a pure fallible function. -/
def ofExcept (r : Except String R) : Thread C A R := finished r

/-- End with `e` unless `p` holds. -/
def require (p : Prop) [Decidable p] (e : String) : Thread C A Unit :=
  if p then pure () else finished (.error e)

/-! ## 2. What the calls of a thread follow on -/

/-- A call and its answer. -/
structure Made (C : Type) (A : C → Type) where
  call : C
  answer : Except String (A call)

/-- Every call is allowed by `P`, which sees the calls made before, newest first, with their
answers. -/
def Allows (P : List (Made C A) → C → Prop) (made : List (Made C A)) : Thread C A R → Prop
  | finished _ => True
  | calls c next => P made c ∧ ∀ r, (next r).Allows P (⟨c, r⟩ :: made)

variable {P : List (Made C A) → C → Prop} {made : List (Made C A)}

theorem allows_pure (a : R) : (pure a : Thread C A R).Allows P made := trivial

theorem allows_error (e : String) : (finished (.error e) : Thread C A R).Allows P made := trivial

theorem allows_perform_bind {c : C} {f : A c → Thread C A R} (hc : P made c)
    (hf : ∀ a, (f a).Allows P (⟨c, .ok a⟩ :: made)) : (perform c >>= f).Allows P made := by
  refine ⟨hc, fun r => ?_⟩
  cases r with
  | ok a => exact hf a
  | error e => exact allows_error e

theorem allows_ofExcept_bind {r : Except String R} {f : R → Thread C A R'}
    (hf : ∀ a, r = .ok a → (f a).Allows P made) : (ofExcept r >>= f).Allows P made := by
  cases r with
  | ok a => exact hf a rfl
  | error e => exact allows_error e

theorem allows_ofExcept (r : Except String R) :
    (ofExcept r : Thread C A R).Allows P made := trivial

theorem allows_require_bind {p : Prop} [Decidable p] {e : String} {f : Unit → Thread C A R}
    (hf : p → (f ()).Allows P made) : (require p e >>= f).Allows P made := by
  by_cases hp : p
  · rw [require, if_pos hp]
    exact hf hp
  · rw [require, if_neg hp]
    exact allows_error e

/-! ## 3. What a thread ends with -/

/-- The result and the calls that have led to it, newest first, are in `Q`. -/
def Ends (Q : List (Made C A) → Except String R → Prop) (made : List (Made C A)) :
    Thread C A R → Prop
  | finished r => Q made r
  | calls c next => ∀ r, (next r).Ends Q (⟨c, r⟩ :: made)

variable {Q : List (Made C A) → Except String R → Prop}

theorem ends_pure {a : R} (h : Q made (.ok a)) : (pure a : Thread C A R).Ends Q made := h

theorem ends_ofExcept {r : Except String R} (h : Q made r) :
    (ofExcept r : Thread C A R).Ends Q made := h

theorem ends_perform_bind {c : C} {f : A c → Thread C A R}
    (he : ∀ e, Q (⟨c, .error e⟩ :: made) (.error e))
    (hf : ∀ a, (f a).Ends Q (⟨c, .ok a⟩ :: made)) : (perform c >>= f).Ends Q made := by
  intro r
  cases r with
  | ok a => exact hf a
  | error e => exact he e

theorem ends_ofExcept_bind {r : Except String R'} {f : R' → Thread C A R}
    (he : ∀ e, Q made (.error e)) (hf : ∀ a, r = .ok a → (f a).Ends Q made) :
    (ofExcept r >>= f).Ends Q made := by
  cases r with
  | ok a => exact hf a rfl
  | error e => exact he e

theorem ends_require_bind {p : Prop} [Decidable p] {e : String} {f : Unit → Thread C A R}
    (he : Q made (.error e)) (hf : p → (f ()).Ends Q made) :
    (require p e >>= f).Ends Q made := by
  by_cases hp : p
  · rw [require, if_pos hp]
    exact hf hp
  · rw [require, if_neg hp]
    exact he

end Thread

open Thread

/-! ## 4. Pools -/

/-- A thread at work: its job, the calls it has made, newest first, and what is left of it. -/
structure Pool.Task (J C : Type) (A : C → Type) (R : Type) where
  job : J
  made : List (Made C A)
  rest : Thread C A R

/-- The shared object, and the threads at work by their names. -/
structure Pool (I J C : Type) (A : C → Type) (R S : Type) where
  shared : S
  task : Map I (Pool.Task J C A R)

/-- A thread takes a job, or it goes one step. -/
inductive Pool.Action (I J : Type)
  | start (i : I) (job : J)
  | run (i : I)

namespace Pool

variable {I J C : Type} {A : C → Type} {R S : Type} [DecidableEq I]

/-- The next call of a thread is `c`. -/
def Calls (p : Pool I J C A R S) (i : I) (t : Task J C A R) (c : C) : Prop :=
  p.task.get i = some t ∧ ∃ next, t.rest = .calls c next

variable (body : I → J → Thread C A R) (exec : (c : C) → Proc S (A c))

/-- One action.  A thread that is at work takes no new job; one that has finished is free. -/
def step : Action I J → Pool I J C A R S → Pool I J C A R S
  | .start i job, p =>
    match p.task.get i with
    | none => { p with task := p.task.set i ⟨job, [], body i job⟩ }
    | some _ => p
  | .run i, p =>
    match p.task.get i with
    | none => p
    | some t =>
      match t.rest with
      | .finished _ => { p with task := p.task.erase i }
      | .calls c next =>
        let r := (exec c p.shared).1
        { shared := (exec c p.shared).2
          task := p.task.set i { t with made := ⟨c, r⟩ :: t.made, rest := next r } }

/-- The pool after the actions, newest first, from a state in which no thread is at work. -/
def after (s₀ : S) (actions : List (Action I J)) : Pool I J C A R S :=
  History.after (step body exec) ⟨s₀, ∅⟩ actions

/-- What an action can do to the shared object. -/
theorem shared_step (a : Action I J) (p : Pool I J C A R S) :
    (step body exec a p).shared = p.shared ∨ ∃ i t c, a = .run i ∧ p.Calls i t c ∧
      (step body exec a p).shared = (exec c p.shared).2 := by
  cases a with
  | start i job =>
    refine Or.inl ?_
    unfold step
    dsimp only
    split <;> rfl
  | run i =>
    unfold step
    dsimp only
    split
    · exact Or.inl rfl
    · rename_i t ht
      split
      · exact Or.inl rfl
      · rename_i c next hnext
        exact Or.inr ⟨i, t, c, rfl, ⟨ht, next, hnext⟩, rfl⟩

variable {body exec}

/-- The thread is where its program gets with the answers it has had. -/
def Follows (body : I → J → Thread C A R) (i : I) (t : Task J C A R) : Prop :=
  (∀ P, (body i t.job).Allows P [] → t.rest.Allows P t.made) ∧
    ∀ Q, (body i t.job).Ends Q [] → t.rest.Ends Q t.made

/-- What an action can do to a thread: nothing, start it, or take it through its next call. -/
theorem task_step {a : Action I J} {p : Pool I J C A R S} {i : I} {t : Task J C A R}
    (ht : (step body exec a p).task.get i = some t) :
    p.task.get i = some t ∨ (∃ job, a = .start i job ∧ t = ⟨job, [], body i job⟩) ∨
    ∃ t₀ c next, a = .run i ∧ p.task.get i = some t₀ ∧ t₀.rest = .calls c next ∧
      t = ⟨t₀.job, ⟨c, (exec c p.shared).1⟩ :: t₀.made, next (exec c p.shared).1⟩ := by
  cases a with
  | start j job =>
    unfold step at ht
    dsimp only at ht
    split at ht
    · rw [Map.get_set] at ht
      split at ht
      · rename_i hi
        subst hi
        exact Or.inr (Or.inl ⟨job, rfl, (Option.some.inj ht).symm⟩)
      · exact Or.inl ht
    · exact Or.inl ht
  | run j =>
    unfold step at ht
    dsimp only at ht
    split at ht
    · exact Or.inl ht
    · rename_i t₀ ht₀
      split at ht
      · rw [Map.get_erase] at ht
        split at ht
        · cases ht
        · exact Or.inl ht
      · rename_i c next hnext
        rw [Map.get_set] at ht
        split at ht
        · rename_i hi
          subst hi
          exact Or.inr (Or.inr ⟨t₀, c, next, rfl, ht₀, hnext, (Option.some.inj ht).symm⟩)
        · exact Or.inl ht

theorem follows_step (a : Action I J) (p : Pool I J C A R S)
    (h : ∀ i t, p.task.get i = some t → Follows body i t) :
    ∀ i t, (step body exec a p).task.get i = some t → Follows body i t := by
  intro i t ht
  rcases task_step ht with ht | ⟨job, -, rfl⟩ | ⟨t₀, c, next, -, ht₀, hnext, rfl⟩
  · exact h i t ht
  · exact ⟨fun P hP => hP, fun Q hQ => hQ⟩
  · refine ⟨fun P hP => ?_, fun Q hQ => ?_⟩
    · have hallows := (h i t₀ ht₀).1 P hP
      rw [hnext] at hallows
      exact hallows.2 _
    · have hends := (h i t₀ ht₀).2 Q hQ
      rw [hnext] at hends
      exact hends _

theorem follows_after {s₀ : S} {actions : List (Action I J)} {i : I} {t : Task J C A R}
    (ht : (after body exec s₀ actions).task.get i = some t) : Follows body i t :=
  History.after_induction
    (I := fun p : Pool I J C A R S => ∀ i t, p.task.get i = some t → Follows body i t)
    (nofun : ∀ i t, (⟨s₀, ∅⟩ : Pool I J C A R S).task.get i = some t → Follows body i t)
    (fun a p h => follows_step a p h) actions i t ht

/-- **What the program allows is what every thread of every history does.** -/
theorem allowed {P : J → List (Made C A) → C → Prop} (hbody : ∀ i j, (body i j).Allows (P j) [])
    {s₀ : S} {actions : List (Action I J)} {i : I} {t : Task J C A R} {c : C}
    (hcalls : (after body exec s₀ actions).Calls i t c) : P t.job t.made c := by
  obtain ⟨ht, next, hnext⟩ := hcalls
  have hallows := (follows_after ht).1 (P t.job) (hbody i t.job)
  rw [hnext] at hallows
  exact hallows.1

/-- **What the program ends with is what every thread of every history ends with.** -/
theorem ended {Q : J → List (Made C A) → Except String R → Prop}
    (hbody : ∀ i j, (body i j).Ends (Q j) []) {s₀ : S} {actions : List (Action I J)} {i : I}
    {t : Task J C A R} {r : Except String R}
    (ht : (after body exec s₀ actions).task.get i = some t) (hr : t.rest = .finished r) :
    Q t.job t.made r := by
  have hends := (follows_after ht).2 (Q t.job) (hbody i t.job)
  rw [hr] at hends
  exact hends

/-- A thread has been given its job. -/
theorem started {s₀ : S} {actions : List (Action I J)} {i : I} {t : Task J C A R}
    (ht : (after body exec s₀ actions).task.get i = some t) : .start i t.job ∈ actions := by
  induction actions generalizing t with
  | nil => cases ht
  | cons a earlier ih =>
    rcases task_step ht with ht | ⟨job, rfl, rfl⟩ | ⟨t₀, c, next, -, ht₀, -, rfl⟩
    · exact List.mem_cons_of_mem _ (ih ht)
    · exact List.mem_cons_self
    · exact List.mem_cons_of_mem _ (ih (t := t₀) ht₀)

/-- What a thread has been answered is what the shared object answered at that time. -/
theorem answered {s₀ : S} {actions : List (Action I J)} {i : I} {t : Task J C A R}
    {m : Made C A} (ht : (after body exec s₀ actions).task.get i = some t) (hm : m ∈ t.made) :
    ∃ earlier, .run i :: earlier <:+ actions ∧
      m.answer = (exec m.call (after body exec s₀ earlier).shared).1 := by
  induction actions generalizing t with
  | nil => cases ht
  | cons a earlier ih =>
    have hlater : (∃ before, .run i :: before <:+ earlier ∧
        m.answer = (exec m.call (after body exec s₀ before).shared).1) →
        ∃ before, .run i :: before <:+ a :: earlier ∧
          m.answer = (exec m.call (after body exec s₀ before).shared).1 := by
      rintro ⟨before, hbefore, hanswer⟩
      exact ⟨before, hbefore.trans (List.suffix_cons a earlier), hanswer⟩
    rcases task_step ht with ht | ⟨job, rfl, rfl⟩ | ⟨t₀, c, next, rfl, ht₀, -, rfl⟩
    · exact hlater (ih ht hm)
    · cases hm
    · rcases List.mem_cons.mp hm with rfl | hm
      · exact ⟨earlier, List.suffix_refl _, rfl⟩
      · exact hlater (ih ht₀ hm)

/-! ## 5. The calls of a pool -/

/-- The call that an action makes. -/
def callOf (p : Pool I J C A R S) : Action I J → Option C
  | .start _ _ => none
  | .run i =>
    match p.task.get i with
    | none => none
    | some t =>
      match t.rest with
      | .finished _ => none
      | .calls c _ => some c

variable (body : I → J → Thread C A R) (exec : (c : C) → Proc S (A c))

/-- The calls of a history, newest first. -/
def journal (s₀ : S) : List (Action I J) → List C
  | [] => []
  | a :: earlier => (callOf (after body exec s₀ earlier) a).toList ++ journal s₀ earlier

theorem shared_of_callOf (a : Action I J) (p : Pool I J C A R S) :
    (step body exec a p).shared =
      History.after (fun c s => (exec c s).2) p.shared (callOf p a).toList := by
  cases a with
  | start i job =>
    unfold step
    dsimp only
    split <;> rfl
  | run i =>
    unfold step callOf
    dsimp only
    split
    · rfl
    · split <;> rfl

/-- **The shared object is where its calls have brought it**, whichever threads made them. -/
theorem shared_after (s₀ : S) (actions : List (Action I J)) :
    (after body exec s₀ actions).shared =
      History.after (fun c s => (exec c s).2) s₀ (journal body exec s₀ actions) := by
  induction actions with
  | nil => rfl
  | cons a earlier ih =>
    rw [journal, History.after_append, ← ih]
    exact shared_of_callOf body exec a _

end Pool
