/-
# Reading a queue behind cumulative acknowledgements

Things arrive one after the other, under growing keys.  The LOG has all of them; the QUEUE has
those that have not been deleted, which is an end of the log.  A consumer reads the queue from
its front and names the last key it is done with when it reads again: everything up to that key
is deleted then.  The request or its answer may get lost, so the consumer asks again with the
same key and may have been heard before.

`At log queue done ack` says where a consumer is: the log is what it is DONE with and, behind
it, what the acknowledgement `ack`, which has yet to be carried out, will leave of the queue.
Every event keeps it:

* something arrives (`At.arrive`);
* a read is heard (`At.heard`), and answered (`At.answered`);
* the next thing is done (`At.next`).

So a consumer is done with things in the order in which they have arrived, skips none, is done
with none twice, and what is deleted is what it is done with (`At.removed_prefix`).  A consumer
that has lost its memory and starts again from an old acknowledgement is somewhere, too
(`Queue.resume`).
-/
import Mathlib.Data.List.DropRight
import Mathlib.Data.List.Infix
import Mathlib.Order.Lattice

namespace Consumer

variable {α κ : Type} [LinearOrder κ] {key : α → κ} {log queue removed done rest : List α}
  {ack : Option κ} {x : α}

/-! ## 1. Acknowledgements -/

/-- What an acknowledgement leaves of a queue. -/
def acked (key : α → κ) : Option κ → List α → List α
  | none, queue => queue
  | some a, queue => queue.dropWhile fun x => key x ≤ a

theorem acked_suffix (key : α → κ) (ack : Option κ) (queue : List α) :
    acked key ack queue <:+ queue := by
  cases ack with
  | none => exact List.suffix_refl _
  | some a => exact List.dropWhile_suffix _

/-- To be heard twice is to be heard once. -/
theorem acked_acked (key : α → κ) (ack : Option κ) (queue : List α) :
    acked key ack (acked key ack queue) = acked key ack queue := by
  cases ack with
  | none => rfl
  | some a => exact List.dropWhile_idempotent _ _

theorem acked_append (h : ∀ a ∈ ack, a < key x) :
    acked key ack (queue ++ [x]) = acked key ack queue ++ [x] := by
  cases ack with
  | none => rfl
  | some a =>
    have hx : ¬ key x ≤ a := not_le.mpr (h a rfl)
    rw [acked, acked, List.dropWhile_append]
    split
    · rename_i hempty
      rw [List.isEmpty_iff.mp hempty]
      simp [hx]
    · rfl

/-! ## 2. Queues -/

/-- A queue is an end of a log with growing keys. -/
structure Queue (key : α → κ) (log queue : List α) : Prop where
  sorted : log.Pairwise fun x y => key x < key y
  suffix : queue <:+ log

theorem Queue.arrive (h : Queue key log queue) (hx : ∀ y ∈ log, key y < key x) :
    Queue key (log ++ [x]) (queue ++ [x]) := by
  constructor
  · rw [List.pairwise_append]
    refine ⟨h.sorted, List.pairwise_singleton _ _, fun y hy z hz => ?_⟩
    rw [List.mem_singleton.mp hz]
    exact hx y hy
  · obtain ⟨gone, rfl⟩ := h.suffix
    exact ⟨gone, by simp⟩

theorem Queue.acked (h : Queue key log queue) (ack : Option κ) :
    Queue key log (acked key ack queue) :=
  ⟨h.sorted, (acked_suffix key ack queue).trans h.suffix⟩

/-- In a log with growing keys the keys tell the entries apart. -/
theorem Queue.nodup (h : Queue key log queue) : (log.map key).Nodup := by
  rw [List.Nodup, List.pairwise_map]
  exact h.sorted.imp fun hlt => hlt.ne

/-- Acknowledging an entry deletes it and what came before it. -/
theorem Queue.acked_key (h : Queue key log queue) (hlog : log = done ++ x :: rest)
    (hqueue : x :: rest <:+ queue) : Consumer.acked key (some (key x)) queue = rest := by
  obtain ⟨gone, hgone⟩ := h.suffix
  obtain ⟨before, rfl⟩ := hqueue
  have hsorted := h.sorted
  rw [← hgone, List.pairwise_append, List.pairwise_append] at hsorted
  obtain ⟨-, ⟨-, hxs, hbefore⟩, -⟩ := hsorted
  have hread : ∀ y ∈ before ++ [x], decide (key y ≤ key x) = true := by
    intro y hy
    rcases List.mem_append.mp hy with hy | hy
    · exact decide_eq_true (hbefore y hy x List.mem_cons_self).le
    · rw [List.mem_singleton.mp hy]
      exact decide_eq_true le_rfl
  rw [Consumer.acked, ← List.singleton_append, ← List.append_assoc,
    List.dropWhile_append_of_pos hread]
  cases rest with
  | nil => rfl
  | cons y rest =>
    have hy : key x < key y := (List.pairwise_cons.mp hxs).1 y List.mem_cons_self
    rw [List.dropWhile_cons_of_neg (by simpa using hy)]

/-! ## 3. Consumers -/

/-- Where a consumer is. -/
structure At (key : α → κ) (log queue done : List α) (ack : Option κ) : Prop
    extends Queue key log queue where
  split : log = done ++ acked key ack queue
  known : ∀ a ∈ ack, ∃ x ∈ log, key x = a

namespace At

theorem arrive (h : At key log queue done ack) (hx : ∀ y ∈ log, key y < key x) :
    At key (log ++ [x]) (queue ++ [x]) done ack := by
  refine ⟨h.toQueue.arrive hx, ?_, fun a ha => ?_⟩
  · have hnew : ∀ a ∈ ack, a < key x := by
      intro a ha
      obtain ⟨y, hy, rfl⟩ := h.known a ha
      exact hx y hy
    rw [acked_append hnew, ← List.append_assoc, ← h.split]
  · obtain ⟨y, hy, hkey⟩ := h.known a ha
    exact ⟨y, List.mem_append_left _ hy, hkey⟩

theorem arrives {new : List α} (h : At key log queue done ack)
    (hsorted : (log ++ new).Pairwise fun x y => key x < key y) :
    At key (log ++ new) (queue ++ new) done ack := by
  induction new using List.reverseRecOn with
  | nil => simpa using h
  | append_singleton new x ih =>
    rw [← List.append_assoc] at hsorted
    obtain ⟨hbefore, -, hx⟩ := List.pairwise_append.mp hsorted
    rw [← List.append_assoc, ← List.append_assoc]
    exact (ih hbefore).arrive fun y hy => hx y hy x List.mem_cons_self

/-- The acknowledgement is carried out, and the consumer does not know. -/
theorem heard (h : At key log queue done ack) : At key log (acked key ack queue) done ack :=
  ⟨h.toQueue.acked ack, by rw [acked_acked, ← h.split], h.known⟩

/-- The acknowledgement is carried out, and the consumer knows. -/
theorem answered (h : At key log queue done ack) : At key log (acked key ack queue) done none :=
  ⟨h.toQueue.acked ack, h.split, by simp⟩

/-- The consumer is done with what comes next. -/
theorem next (h : At key log queue done ack) (hx : acked key ack queue = x :: rest) :
    At key log queue (done ++ [x]) (some (key x)) := by
  have hlog : log = done ++ x :: rest := by rw [← hx, ← h.split]
  refine ⟨h.toQueue, ?_, fun a ha => ?_⟩
  · rw [h.toQueue.acked_key hlog (hx ▸ acked_suffix key ack queue), hlog]
    simp
  · obtain rfl := Option.mem_some_iff.mp ha
    exact ⟨x, by rw [hlog]; simp, rfl⟩

theorem next_acked (h : At key log queue done ack) (hx : acked key ack queue = x :: rest) :
    acked key (some (key x)) queue = rest :=
  h.toQueue.acked_key (by rw [← hx, ← h.split]) (hx ▸ acked_suffix key ack queue)

/-- **What is deleted is what the consumer is done with.** -/
theorem removed_prefix (h : At key log queue done ack) (hlog : log = removed ++ queue) :
    removed <+: done := by
  obtain ⟨read, hread⟩ := acked_suffix key ack queue
  have hsplit : removed ++ read ++ acked key ack queue = done ++ acked key ack queue := by
    rw [List.append_assoc, hread, ← hlog, ← h.split]
  rw [← List.append_cancel_right hsplit]
  exact List.prefix_append _ _

/-- What an acknowledgement covers is done. -/
theorem mem_done {a : κ} (h : At key log queue done (some a)) (hx : x ∈ log) (ha : key x ≤ a) :
    x ∈ done := by
  have hsorted := h.sorted
  rw [h.split] at hx hsorted
  refine (List.mem_append.mp hx).resolve_right fun hleft => ?_
  -- the first entry that is left is not covered, and so none is
  rw [Consumer.acked] at hleft hsorted
  cases hrest : queue.dropWhile fun x => key x ≤ a with
  | nil =>
    rw [hrest] at hleft
    exact absurd hleft List.not_mem_nil
  | cons y rest =>
    have hy : ¬ key y ≤ a := by
      have hfirst := List.head_dropWhile_not (fun x => decide (key x ≤ a)) (l := queue)
        (by simp [hrest])
      simpa [hrest] using hfirst
    rw [hrest] at hleft hsorted
    rcases List.mem_cons.mp hleft with rfl | hleft
    · exact hy ha
    · have hlt := (List.pairwise_cons.mp (List.pairwise_append.mp hsorted).2.1).1 x hleft
      exact hy (hlt.le.trans ha)

theorem done_prefix (h : At key log queue done ack) : done <+: log :=
  ⟨_, h.split.symm⟩

end At

/-- **Any acknowledgement of something known leaves the consumer somewhere**: it is done with
what was deleted before and with what it acknowledges. -/
theorem Queue.resume (h : Queue key log queue) (hlog : log = removed ++ queue)
    (hknown : ∀ a ∈ ack, ∃ x ∈ log, key x = a) :
    ∃ done, At key log queue done ack ∧ ∀ x ∈ done, x ∈ removed ∨ ∃ a ∈ ack, key x ≤ a := by
  obtain ⟨read, hread⟩ := acked_suffix key ack queue
  refine ⟨removed ++ read, ⟨h, ?_, hknown⟩, fun x hx => ?_⟩
  · rw [List.append_assoc, hread, hlog]
  · refine (List.mem_append.mp hx).imp_right fun hx => ?_
    cases ack with
    | none =>
      rw [Consumer.acked, List.append_left_eq_self] at hread
      rw [hread] at hx
      exact absurd hx List.not_mem_nil
    | some a =>
      refine ⟨a, rfl, ?_⟩
      have htake : read = queue.takeWhile fun x => key x ≤ a := by
        have hsplit := List.takeWhile_append_dropWhile (p := fun x => decide (key x ≤ a))
          (l := queue)
        exact List.append_cancel_right (hread.trans hsplit.symm)
      rw [htake] at hx
      exact of_decide_eq_true (List.mem_takeWhile_imp hx :)

end Consumer
