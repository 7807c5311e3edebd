/-
# Sliding windows

A rate limiter keeps the times of the attempts it has let through, oldest first.  Before it
decides on a new attempt it drops from the front of this BUCKET what has left the window, and it
lets the attempt through when fewer than `limit` times are left.

Nothing is said here about what a time is, only when one time has `expired` at another.  The
LOG is what a limiter would keep if it never dropped anything.

* `Guards`: everything in the log that has not expired is in the bucket; a limiter may keep more;
* `Bounded`: of the times in any span, at most `limit` are in the log.  A SPAN is a set of times
  none of which has expired at another.
* `Recalls`: what is left after dropping is exactly what of the log has not expired;
* `Exact`: the bucket recalls the log, and no more than `limit` times have not expired.

`Guards` is kept by dropping and by the passing of time, and it is what makes `Bounded` hold
again after the next attempt.  `Exact` is kept if what expires first has come first.
-/
import Mathlib.Data.List.Basic

namespace Window

variable {T : Type} {expired : T → T → Prop} {now now' : T} {bucket bucket' log : List T}
  {limit : Nat}

/-! ## 1. What is dropped from the front -/

section Front

variable {α : Type} {l : List α}

/-- If a test fails from some entry on, what is dropped is what passes it. -/
theorem filter_eq_dropWhile {p : α → Bool}
    (h : l.Pairwise fun a b => p b → p a) : (l.filter fun a => !p a) = l.dropWhile p := by
  induction l with
  | nil => rfl
  | cons a rest ih =>
    rw [List.pairwise_cons] at h
    by_cases ha : p a
    · rw [List.dropWhile_cons_of_pos ha, List.filter_cons_of_neg (by simp [ha]), ih h.2]
    · rw [List.dropWhile_cons_of_neg ha, List.filter_eq_self]
      intro b hb
      rcases List.mem_cons.mp hb with rfl | hb
      · simp [ha]
      · have hpb : p b = false := Bool.eq_false_iff.mpr fun hpb => ha (h.1 b hb hpb)
        simp [hpb]

theorem dropWhile_congr {p q : α → Bool} (h : ∀ a ∈ l, p a = q a) :
    l.dropWhile p = l.dropWhile q := by
  induction l with
  | nil => rfl
  | cons a rest ih =>
    rw [List.forall_mem_cons] at h
    rw [List.dropWhile_cons, List.dropWhile_cons, h.1, ih h.2]

end Front

/-! ## 2. Spans -/

/-- No time of the span has expired at another. -/
def Span (expired : T → T → Prop) (S : T → Bool) : Prop :=
  ∀ t u, S t = true → S u = true → ¬ expired t u

/-- Every span has at most `limit` times of the log. -/
def Bounded (expired : T → T → Prop) (limit : Nat) (log : List T) : Prop :=
  ∀ S : T → Bool, Span expired S → log.countP S ≤ limit

theorem bounded_nil : Bounded expired limit [] := fun _ _ => Nat.zero_le _

/-- A part of a bounded log is bounded. -/
theorem Bounded.sublist (hb : Bounded expired limit log) {part : List T}
    (hsub : part.Sublist log) : Bounded expired limit part := by
  intro S hS
  calc
    part.countP S ≤ log.countP S := hsub.countP_le
    _ ≤ limit := hb S hS

/-! ## 3. Buckets -/

variable [DecidableRel expired]

/-- Drop what has left the window. -/
def trim (expired : T → T → Prop) [DecidableRel expired] (now : T) (bucket : List T) : List T :=
  bucket.dropWhile fun t => expired t now

/-- What has not expired is in the bucket. -/
def Guards (expired : T → T → Prop) [DecidableRel expired] (now : T) (bucket log : List T) :
    Prop :=
  (log.filter fun t => ¬ expired t now).Sublist bucket

theorem guards_nil : Guards expired now bucket [] := List.nil_sublist _

/-- What has expired stays expired. -/
theorem Guards.later (h : Guards expired now bucket log)
    (hmono : ∀ t, expired t now → expired t now') : Guards expired now' bucket log := by
  refine List.Sublist.trans (List.monotone_filter_right log fun t ht => ?_) h
  simp only [decide_eq_true_eq] at ht ⊢
  exact fun hexpired => ht (hmono t hexpired)

/-- What has not expired is not dropped. -/
theorem filter_sublist_trim (now : T) (bucket : List T) :
    (bucket.filter fun t => ¬ expired t now).Sublist (trim expired now bucket) := by
  induction bucket with
  | nil => exact List.nil_sublist _
  | cons t bucket ih =>
    by_cases ht : expired t now
    · rw [trim, List.dropWhile_cons_of_pos (by simpa using ht), List.filter_cons_of_neg]
      · exact ih
      · simpa using ht
    · rw [trim, List.dropWhile_cons_of_neg (by simpa using ht)]
      exact List.filter_sublist

/-- Dropping what has expired keeps the guard. -/
theorem Guards.trim (h : Guards expired now bucket log) :
    Guards expired now (trim expired now bucket) log := by
  have hfilter := List.Sublist.filter (fun t => decide (¬ expired t now)) h
  rw [List.filter_filter] at hfilter
  simp only [Bool.and_self] at hfilter
  exact hfilter.trans (filter_sublist_trim now bucket)

/-- An attempt that is recorded is guarded. -/
theorem Guards.record (h : Guards expired now bucket log) (t : T) :
    Guards expired now (bucket ++ [t]) (log ++ [t]) := by
  rw [Guards, List.filter_append]
  exact List.Sublist.append h List.filter_sublist

/-- **A limiter that lets an attempt through only when fewer than `limit` times are left keeps
every span within the limit.** -/
theorem Bounded.record (hb : Bounded expired limit log) (h : Guards expired now bucket log)
    (hlimit : bucket.length < limit) : Bounded expired limit (log ++ [now]) := by
  intro S hS
  rw [List.countP_append, List.countP_singleton]
  by_cases hnow : S now = true
  · -- what lies in a span with `now` has not expired
    have hsub : (log.filter S).Sublist (log.filter fun t => ¬ expired t now) :=
      List.monotone_filter_right log fun t ht => decide_eq_true (hS t now ht hnow)
    have hle := (hsub.trans h).length_le
    rw [List.countP_eq_length_filter, if_pos hnow]
    omega
  · rw [if_neg hnow]
    exact hb S hS

/-! ## 4. Times in order -/

/-- What expires first comes first. -/
def InOrder (expired : T → T → Prop) (log : List T) : Prop :=
  log.Pairwise fun t u => ∀ now, expired u now → expired t now

theorem InOrder.trim_eq_filter (h : InOrder expired log) (now : T) :
    trim expired now log = log.filter fun t => ¬ expired t now := by
  have hfirst : log.Pairwise fun t u =>
      decide (expired u now) = true → decide (expired t now) = true := by
    refine h.imp fun htu hu => ?_
    exact decide_eq_true (htu now (of_decide_eq_true hu))
  rw [trim, ← filter_eq_dropWhile hfirst]
  exact List.filter_congr fun t _ => (decide_not ..).symm

/-- What is dropped now need not have been dropped before. -/
theorem trim_trim (hmono : ∀ t, expired t now → expired t now') (bucket : List T) :
    trim expired now' (trim expired now bucket) = trim expired now' bucket := by
  induction bucket with
  | nil => rfl
  | cons t bucket ih =>
    by_cases ht : expired t now
    · rw [trim, trim, List.dropWhile_cons_of_pos (by simpa using ht), trim,
        List.dropWhile_cons_of_pos (by simpa using hmono t ht)]
      exact ih
    · rw [trim, trim, List.dropWhile_cons_of_neg (by simpa using ht), trim]

/-- The bucket holds what has not expired, and maybe something ahead of it that has. -/
def Recalls (expired : T → T → Prop) [DecidableRel expired] (now : T) (bucket log : List T) :
    Prop :=
  trim expired now bucket = log.filter fun t => ¬ expired t now

theorem recalls_nil : Recalls expired now [] [] := rfl

/-- What has expired stays expired. -/
theorem Recalls.later (h : Recalls expired now bucket log) (horder : InOrder expired log)
    (hmono : ∀ t, expired t now → expired t now') : Recalls expired now' bucket log := by
  have hleft : InOrder expired (log.filter fun t => ¬ expired t now) := horder.filter _
  rw [Recalls, ← trim_trim hmono, h, hleft.trim_eq_filter, List.filter_filter]
  refine List.filter_congr fun t _ => ?_
  by_cases ht : expired t now
  · simp [ht, hmono t ht]
  · simp [ht]

theorem Recalls.trim (h : Recalls expired now bucket log) :
    Recalls expired now (trim expired now bucket) log := by
  rw [Recalls, trim_trim fun _ => id]
  exact h

/-- An attempt is recorded behind what has not expired. -/
theorem Recalls.record (h : Recalls expired now bucket log) (hnow : ¬ expired now now) :
    Recalls expired now (Window.trim expired now bucket ++ [now]) (log ++ [now]) := by
  have hfresh : ∀ t ∈ (log ++ [now]).filter fun t => ¬ expired t now, ¬ expired t now :=
    fun t ht => of_decide_eq_true (List.mem_filter.mp ht).2
  have hleft : Window.trim expired now bucket ++ [now] =
      (log ++ [now]).filter fun t => ¬ expired t now := by
    rw [h, List.filter_append, List.filter_cons_of_pos (by simpa using hnow), List.filter_nil]
  rw [Recalls, hleft, Window.trim]
  rcases hfilter : (log ++ [now]).filter fun t => ¬ expired t now with _ | ⟨t, rest⟩
  · rfl
  · rw [List.dropWhile_cons_of_neg]
    simpa using hfresh t (hfilter ▸ List.mem_cons_self)

/-! ## 5. Exact limits -/

/-- What has not expired can be counted in the bucket, and the limit has been kept. -/
structure Exact (expired : T → T → Prop) [DecidableRel expired] (limit : Nat) (now : T)
    (bucket log : List T) : Prop where
  recalls : Recalls expired now bucket log
  inOrder : InOrder expired log
  within : (log.filter fun t => ¬ expired t now).length ≤ limit

namespace Exact

theorem nil : Exact expired limit now [] [] := ⟨recalls_nil, List.Pairwise.nil, Nat.zero_le _⟩

theorem later (h : Exact expired limit now bucket log)
    (hmono : ∀ t, expired t now → expired t now') : Exact expired limit now' bucket log := by
  refine ⟨h.recalls.later h.inOrder hmono, h.inOrder, Nat.le_trans ?_ h.within⟩
  refine (List.monotone_filter_right log fun t ht => ?_).length_le
  simp only [decide_eq_true_eq] at ht ⊢
  exact fun hexpired => ht (hmono t hexpired)

theorem trim (h : Exact expired limit now bucket log) :
    Exact expired limit now (Window.trim expired now bucket) log :=
  ⟨h.recalls.trim, h.inOrder, h.within⟩

/-- What is left after dropping is what counts. -/
theorem length_trim (h : Exact expired limit now bucket log) :
    (Window.trim expired now bucket).length = log.countP fun t => ¬ expired t now := by
  rw [h.recalls, List.countP_eq_length_filter]

theorem countP_le (h : Exact expired limit now bucket log) :
    (log.countP fun t => ¬ expired t now) ≤ limit := by
  rw [List.countP_eq_length_filter]
  exact h.within

/-- **An attempt that is recorded below the limit is counted from now on.** -/
theorem record (h : Exact expired limit now bucket log) (hnow : ¬ expired now now)
    (hlast : ∀ t ∈ log, ∀ later, expired now later → expired t later)
    (hlimit : (Window.trim expired now bucket).length < limit) :
    Exact expired limit now (Window.trim expired now bucket ++ [now]) (log ++ [now]) := by
  refine ⟨h.recalls.record hnow, ?_, ?_⟩
  · refine List.pairwise_append.mpr ⟨h.inOrder, List.pairwise_singleton _ _, fun t ht u hu => ?_⟩
    rw [List.mem_singleton.mp hu]
    exact hlast t ht
  · rw [List.filter_append, ← h.recalls, List.length_append]
    exact Nat.le_trans (Nat.add_le_add_left (List.length_filter_le _ _) _) hlimit

end Exact

end Window
