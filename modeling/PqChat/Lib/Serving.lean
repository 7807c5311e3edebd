/-
# What a thread has taken and done

A thread of a `Pool` takes one job after another.  `taken` are its jobs, and `done` those it has
finished with, each with the calls that were made for it and with its result.

A client that waits for the answer to a request before it makes the next one is a `log` of requests
and answers.  If the requests that have come to the thread are among the first of the log, and the
answers of the log among the first that the thread has given, then the log is what the thread has
done (`log_eq_done`): nothing is missing, nothing is there twice, and each answer is to its request.
-/
import PqChat.Lib.Thread

open Thread

namespace Pool

variable {I J C : Type} {A : C → Type} {R S : Type} [DecidableEq I]

/-! ## 1. Jobs -/

/-- A job that a thread has finished with. -/
structure Done (J C : Type) (A : C → Type) (R : Type) where
  job : J
  made : List (Made C A)
  result : Except String R

/-- The job that the thread takes by an action. -/
def takes (p : Pool I J C A R S) (i : I) : Action I J → Option J
  | .start j job => if j = i ∧ (p.task.get i).isNone then some job else none
  | .run _ => none

def Task.done (t : Task J C A R) : Option (Done J C A R) :=
  match t.rest with
  | .finished r => some ⟨t.job, t.made, r⟩
  | .calls _ _ => none

/-- What the thread has finished with by an action. -/
def finishes (p : Pool I J C A R S) (i : I) : Action I J → Option (Done J C A R)
  | .start _ _ => none
  | .run j => if j = i then (p.task.get i).bind Task.done else none

variable (body : I → J → Thread C A R) (exec : (c : C) → Proc S (A c)) (s₀ : S) (i : I)

/-- The jobs that a thread has taken, newest first. -/
def taken : List (Action I J) → List J
  | [] => []
  | a :: earlier => (takes (after body exec s₀ earlier) i a).toList ++ taken earlier

/-- What a thread has done, newest first. -/
def done : List (Action I J) → List (Done J C A R)
  | [] => []
  | a :: earlier => (finishes (after body exec s₀ earlier) i a).toList ++ done earlier

/-- The job of the thread, if it is at work. -/
def current (p : Pool I J C A R S) : List J := ((p.task.get i).map Task.job).toList

variable {body exec s₀ i}

/-- A job is taken, is worked on, and is done. -/
theorem takes_finishes (a : Action I J) (p : Pool I J C A R S) :
    (takes p i a).toList ++ current i p =
      current i (step body exec a p) ++ ((finishes p i a).map Done.job).toList := by
  unfold current
  cases a with
  | start j job =>
    by_cases hj : j = i
    · subst hj
      cases htask : p.task.get j with
      | none => simp [takes, finishes, step, htask]
      | some t => simp [takes, finishes, step, htask]
    · have hi : i ≠ j := fun h => hj h.symm
      cases htask : p.task.get j with
      | none => simp [takes, finishes, step, htask, hj, Map.get_set, hi]
      | some t => simp [takes, finishes, step, htask, hj]
  | run j =>
    by_cases hj : j = i
    · subst hj
      cases htask : p.task.get j with
      | none => simp [takes, finishes, step, htask]
      | some t =>
        cases hrest : t.rest with
        | finished r => simp [takes, finishes, step, htask, hrest, Task.done]
        | calls c next => simp [takes, finishes, step, htask, hrest, Task.done]
    · have hi : i ≠ j := fun h => hj h.symm
      cases htask : p.task.get j with
      | none => simp [takes, finishes, step, htask, hj]
      | some t =>
        cases hrest : t.rest with
        | finished r => simp [takes, finishes, step, htask, hrest, hj, Map.get_erase, hi]
        | calls c next => simp [takes, finishes, step, htask, hrest, hj, Map.get_set, hi]

/-- **The jobs that a thread has taken are those it has done, and the one it is at.** -/
theorem taken_eq (actions : List (Action I J)) :
    taken body exec s₀ i actions = current i (after body exec s₀ actions) ++
      (done body exec s₀ i actions).map Done.job := by
  induction actions with
  | nil => rfl
  | cons a earlier ih =>
    have hstep : (takes (after body exec s₀ earlier) i a).toList ++
        current i (after body exec s₀ earlier) = current i (after body exec s₀ (a :: earlier)) ++
          ((finishes (after body exec s₀ earlier) i a).map Done.job).toList := takes_finishes a _
    rw [taken, done, ih, ← List.append_assoc, hstep, List.append_assoc, List.map_append,
      Option.toList_map]

theorem exists_task_of_finishes {a : Action I J} {p : Pool I J C A R S} {d : Done J C A R}
    (h : finishes p i a = some d) :
    ∃ t, p.task.get i = some t ∧ t.job = d.job ∧ t.made = d.made ∧ t.rest = .finished d.result := by
  cases a with
  | start j job => cases h
  | run j =>
    rw [finishes] at h
    split at h
    · obtain ⟨t, ht, hdone⟩ := Option.bind_eq_some_iff.mp h
      rw [Task.done] at hdone
      split at hdone
      · rename_i r hrest
        obtain rfl := Option.some.inj hdone
        exact ⟨t, ht, rfl, rfl, hrest⟩
      · cases hdone
    · cases h

/-- What is done has been finished at some time. -/
theorem exists_task_of_done {actions : List (Action I J)} {d : Done J C A R}
    (h : d ∈ done body exec s₀ i actions) :
    ∃ earlier t, earlier <:+ actions ∧ (after body exec s₀ earlier).task.get i = some t ∧
      t.job = d.job ∧ t.made = d.made ∧ t.rest = .finished d.result := by
  induction actions with
  | nil => cases h
  | cons a earlier ih =>
    rcases List.mem_append.mp h with h | h
    · obtain ⟨t, ht⟩ := exists_task_of_finishes (Option.mem_toList.mp h)
      exact ⟨earlier, t, List.suffix_cons a earlier, ht⟩
    · obtain ⟨before, t, hbefore, ht⟩ := ih h
      exact ⟨before, t, hbefore.trans (List.suffix_cons a earlier), ht⟩

/-- What the program ends with is what is done. -/
theorem done_ended {Q : J → List (Made C A) → Except String R → Prop}
    (hbody : ∀ i j, (body i j).Ends (Q j) []) {actions : List (Action I J)} {d : Done J C A R}
    (h : d ∈ done body exec s₀ i actions) : Q d.job d.made d.result := by
  obtain ⟨earlier, t, -, ht, hjob, hmade, hrest⟩ := exists_task_of_done h
  have hended := ended hbody ht hrest
  rwa [hjob, hmade] at hended

/-- A call that a thread has made, and when. -/
theorem made_called {actions : List (Action I J)} {t : Task J C A R}
    (ht : (after body exec s₀ actions).task.get i = some t) {m : Made C A} (hm : m ∈ t.made) :
    ∃ earlier t₁, .run i :: earlier <:+ actions ∧ t₁.job = t.job ∧
      (after body exec s₀ earlier).Calls i t₁ m.call ∧
      m.answer = (exec m.call (after body exec s₀ earlier).shared).1 := by
  induction actions generalizing t with
  | nil => cases ht
  | cons a earlier ih =>
    rcases task_step ht with ht | ⟨job, rfl, rfl⟩ | ⟨t₀, c, next, rfl, ht₀, hnext, rfl⟩
    · obtain ⟨before, t₁, hbefore, hcalled⟩ := ih ht hm
      exact ⟨before, t₁, hbefore.trans (List.suffix_cons a earlier), hcalled⟩
    · cases hm
    · rcases List.mem_cons.mp hm with rfl | hm
      · exact ⟨earlier, t₀, List.suffix_refl _, rfl, ⟨ht₀, next, hnext⟩, rfl⟩
      · obtain ⟨before, t₁, hbefore, hcalled⟩ := ih ht₀ hm
        exact ⟨before, t₁, hbefore.trans (List.suffix_cons _ earlier), hcalled⟩

/-- A call of what is done, and when. -/
theorem done_called {actions : List (Action I J)} {d : Done J C A R} {m : Made C A}
    (h : d ∈ done body exec s₀ i actions) (hm : m ∈ d.made) :
    ∃ earlier t, .run i :: earlier <:+ actions ∧ t.job = d.job ∧
      (after body exec s₀ earlier).Calls i t m.call ∧
      m.answer = (exec m.call (after body exec s₀ earlier).shared).1 := by
  obtain ⟨earlier, t, hearlier, ht, hjob, hmade, -⟩ := exists_task_of_done h
  obtain ⟨before, t₁, hbefore, hjob₁, hcalled⟩ := made_called ht (hmade ▸ hm)
  exact ⟨before, t₁, hbefore.trans hearlier, hjob₁.trans hjob, hcalled⟩

/-! ## 2. Requests and answers -/

theorem map_eq_of_length_filterMap {α β : Type} {f : α → Option β} {l : List α}
    (h : l.length ≤ (l.filterMap f).length) : l.map f = (l.filterMap f).map some := by
  induction l with
  | nil => rfl
  | cons a l ih =>
    have hle := List.length_filterMap_le f l
    cases ha : f a with
    | none =>
      rw [List.filterMap_cons_none ha, List.length_cons] at h
      omega
    | some b =>
      rw [List.filterMap_cons_some ha, List.length_cons, List.length_cons] at h
      rw [List.filterMap_cons_some ha, List.map_cons, List.map_cons, ha, ih (by omega)]

variable {B : Type} {answer : Done J C A R → Option B} {log : List (J × B)}

/-- **What the client has exchanged is what the thread has done**, in the same order.  It is enough
to compare what has come to one side with what has left the other. -/
theorem log_eq_done {actions : List (Action I J)}
    (hrequests : (taken body exec s₀ i actions).reverse <+: log.map Prod.fst)
    (hanswers : log.map Prod.snd <+: (done body exec s₀ i actions).reverse.filterMap answer) :
    log.map (fun x => (x.1, some x.2)) =
      (done body exec s₀ i actions).reverse.map fun d => (d.job, answer d) := by
  generalize hdone : (done body exec s₀ i actions).reverse = served at hanswers
  have htaken : (taken body exec s₀ i actions).reverse = _ := congrArg List.reverse
    (taken_eq actions)
  rw [List.reverse_append, ← List.map_reverse, hdone] at htaken
  have hjobs : served.map Done.job <+: log.map Prod.fst := by
    rw [htaken] at hrequests
    exact (List.prefix_append _ _).trans hrequests
  have hlog := hanswers.length_le
  have hserved := hjobs.length_le
  have hfilter := List.length_filterMap_le answer served
  rw [List.length_map] at hlog hserved
  rw [List.length_map] at hserved
  -- all of them are of the same length
  have hjobs := hjobs.eq_of_length (by rw [List.length_map, List.length_map]; omega)
  have hanswers := hanswers.eq_of_length (by rw [List.length_map]; omega)
  have hall := map_eq_of_length_filterMap (f := answer) (l := served) (by omega)
  rw [← hanswers, List.map_map] at hall
  rw [← List.zip_map', ← List.zip_map', hjobs]
  exact congrArg _ hall.symm

end Pool
