/-
# The mailbox of a shared server

Envelopes come to the mailbox of a user one after the other, under ids that count up, and the
user drains it.  The log of a shared server says what has come so far (`deliveries`); what is in
the mailbox is an end of that (`Mailbox`).

A call of the server either leaves the mailbox of the user alone or adds one envelope to it
(`Stores.Receives`), unless it is a drain by the user.  A drain by the user is an event of a
consumer behind cumulative acknowledgements (`ReadsAt.call`), whether it is answered or not.
-/
import PqChat.Lib.Consumer
import PqChat.Server.Paging
import PqChat.Service.Shared

set_option linter.unusedSectionVars false

namespace PqChat

variable {B S : Type}

/-! ## 1. What arrives -/

/-- The id of an entry as a number. -/
def StoredEnvelope.number (entry : StoredEnvelope B) : Nat := entry.inboxId.toNat

/-- What a call has added to the mailbox of a user. -/
def Entry.arrivals (stores : S → Stores B) (userId : B) (e : Entry B S) :
    List (StoredEnvelope B) :=
  ((stores e.after).inbox userId).drop ((stores e.before).inbox userId).length

/-- All that has come to the mailbox, oldest first. -/
def deliveries (stores : S → Stores B) (userId : B) : List (Entry B S) → List (StoredEnvelope B)
  | [] => []
  | e :: log => deliveries stores userId log ++ e.arrivals stores userId

/-- What a call does to a mailbox that is not drained by it. -/
inductive Stores.Receives (userId : B) (before after : Stores B) : Prop
  | nothing (inbox : after.inbox userId = before.inbox userId)
  | arrival (entry : StoredEnvelope B)
    (inbox : after.inbox userId = before.inbox userId ++ [entry])
    (number : entry.number = before.last userId + 1)
    (last : after.last userId = before.last userId + 1)

/-- How far the ids are counted up by a call. -/
def Stores.Counts (before after : Stores B) : Prop :=
  ∀ u, before.last u ≤ after.last u ∧ after.last u ≤ before.last u + 1

section Receives

variable [ByteString B] [DecidableEq B] {c : Crypto B} {userId : B} {before after : Stores B}

theorem Stores.counts_of_eq (h : after.last = before.last) : before.Counts after := by
  intro u
  rw [h]
  exact ⟨le_rfl, Nat.le_succ _⟩

theorem Stores.Published.receives {bundle : PrekeyBundle B} {r : Result Unit}
    (h : before.Published c bundle r after) :
    before.Receives userId after ∧ before.Counts after :=
  ⟨.nothing (congrFun h.inbox userId), Stores.counts_of_eq h.last⟩

theorem Stores.Acquired.receives {u : B} {r : Result (PrekeyBundle B)}
    (h : before.Acquired u r after) : before.Receives userId after ∧ before.Counts after :=
  ⟨.nothing (congrFun h.inbox userId), Stores.counts_of_eq h.last⟩

theorem Stores.Drained.receives {u : B} {ack : Option UInt64}
    {r : Result (List (InboxEnvelope B))} (h : before.Drained u ack r after) (hu : u ≠ userId) :
    before.Receives userId after ∧ before.Counts after :=
  ⟨.nothing (h.others userId hu.symm), Stores.counts_of_eq h.last⟩

theorem Stores.Enqueued.receives {u : B} {envelope : Envelope B} {survives : Prop}
    {r : Result Unit} (h : before.Enqueued u envelope survives r after)
    (hlast : before.last u + 1 < 2 ^ 64) :
    before.Receives userId after ∧ before.Counts after := by
  rcases r with e | ⟨⟩
  · rw [h.refused e rfl]
    exact ⟨.nothing rfl, Stores.counts_of_eq rfl⟩
  · obtain ⟨entry, -, hinbox, hid⟩ := h.accepted rfl
    obtain ⟨hnumber, hnext, hcounts⟩ := hid hlast
    refine ⟨?_, hcounts⟩
    by_cases hu : userId = u
    · subst hu
      exact .arrival entry (by rw [hinbox, Function.update_self]) hnumber hnext
    · exact .nothing (by rw [hinbox, Function.update_of_ne hu])

end Receives

/-! ## 2. The mailbox of a shared server -/

section Mailbox

variable (invariant : S → Prop) (stores : S → Stores B) (userId : B)

/-- The mailbox of the user holds an end of what has arrived, and the ids count up. -/
structure Mailbox (s : Shared B S) : Prop where
  invariant : invariant s.base
  queue : Consumer.Queue StoredEnvelope.number (deliveries stores userId s.log)
    ((stores s.base).inbox userId)
  le_last : ∀ entry ∈ deliveries stores userId s.log, entry.number ≤ (stores s.base).last userId
  last_le : ∀ u, (stores s.base).last u ≤ s.log.length

/-- Where a client is in the mailbox. -/
def ReadsAt (s : Shared B S) (done : List (StoredEnvelope B)) (ack : Option UInt64) : Prop :=
  Consumer.At StoredEnvelope.number (deliveries stores userId s.log) ((stores s.base).inbox userId)
    done (ack.map UInt64.toNat)

/-- In between envelopes have arrived and nothing else has happened to the mailbox. -/
def Follows (s₀ s : Shared B S) : Prop :=
  ∃ new, deliveries stores userId s.log = deliveries stores userId s₀.log ++ new ∧
    (stores s.base).inbox userId = (stores s₀.base).inbox userId ++ new

/-- What an acknowledgement covers has arrived, and has been handled. -/
structure Covered (handled : List (StoredEnvelope B)) (log : List (Entry B S)) (a : UInt64) :
    Prop where
  known : ∃ entry ∈ deliveries stores userId log, entry.number = a.toNat
  handled : ∀ entry ∈ deliveries stores userId log, entry.number ≤ a.toNat → entry ∈ handled

/-- What a drain by the user leads to, from `s₀` on. -/
structure DrainedAt (s₀ : Shared B S) (done : List (StoredEnvelope B)) (ack : Option UInt64)
    (r : Result (List (InboxEnvelope B))) (s : Shared B S) : Prop where
  mailbox : Mailbox invariant stores userId s
  log : deliveries stores userId s₀.log <+: deliveries stores userId s.log
  reads : ReadsAt stores userId s done ack
  page : ∀ page, r = .ok page → ReadsAt stores userId s done none ∧
    page.map InboxEnvelope.stored <+: (stores s.base).inbox userId

variable {invariant stores userId} {s₀ s : Shared B S} {done : List (StoredEnvelope B)}
  {ack : Option UInt64}

theorem Follows.refl (s : Shared B S) : Follows stores userId s s :=
  ⟨[], by simp, by simp⟩

theorem Follows.trans {s₁ : Shared B S} (h : Follows stores userId s₀ s)
    (h₁ : Follows stores userId s s₁) : Follows stores userId s₀ s₁ := by
  obtain ⟨new, harrived, hinbox⟩ := h
  obtain ⟨new₁, harrived₁, hinbox₁⟩ := h₁
  refine ⟨new ++ new₁, ?_, ?_⟩
  · rw [harrived₁, harrived, List.append_assoc]
  · rw [hinbox₁, hinbox, List.append_assoc]

theorem ReadsAt.follows (h : ReadsAt stores userId s₀ done ack)
    (hs : Mailbox invariant stores userId s) (hf : Follows stores userId s₀ s) :
    ReadsAt stores userId s done ack := by
  obtain ⟨new, harrived, hinbox⟩ := hf
  have hsorted := hs.queue.sorted
  rw [harrived] at hsorted
  rw [ReadsAt, harrived, hinbox]
  exact h.arrives hsorted

theorem ReadsAt.covered (h : ReadsAt stores userId s done ack) {a : UInt64}
    (ha : ack = some a) : Covered stores userId done s.log a := by
  subst ha
  exact ⟨h.known _ rfl, fun entry hentry hle => h.mem_done hentry hle⟩

theorem Covered.mono {handled handled' : List (StoredEnvelope B)} {log : List (Entry B S)}
    {a : UInt64} (h : Covered stores userId handled log a) (hsub : handled ⊆ handled') :
    Covered stores userId handled' log a :=
  ⟨h.known, fun entry hentry hle => hsub (h.handled entry hentry hle)⟩

theorem Follows.log_prefix (hf : Follows stores userId s₀ s) :
    deliveries stores userId s₀.log <+: deliveries stores userId s.log := by
  obtain ⟨new, harrived, -⟩ := hf
  exact ⟨new, harrived.symm⟩

theorem Covered.grows {handled : List (StoredEnvelope B)} {a : UInt64}
    (h : Covered stores userId handled s₀.log a) (hs : Mailbox invariant stores userId s)
    (hlog : deliveries stores userId s₀.log <+: deliveries stores userId s.log) :
    Covered stores userId handled s.log a := by
  obtain ⟨new, hnew⟩ := hlog
  have hsorted := hs.queue.sorted
  rw [← hnew, List.pairwise_append] at hsorted
  obtain ⟨first, hfirst, hnumber⟩ := h.known
  refine ⟨⟨first, ?_, hnumber⟩, fun entry hentry hle => ?_⟩
  · rw [← hnew]
    exact List.mem_append_left _ hfirst
  · rw [← hnew] at hentry
    refine h.handled entry ((List.mem_append.mp hentry).resolve_right fun hlate => ?_) hle
    -- what has come since has a greater id
    have hlt := hsorted.2.2 first hfirst entry hlate
    omega

/-- Something is received, or not. -/
theorem Mailbox.receive {e : Entry B S} (h : Mailbox invariant stores userId s)
    (hinv : invariant e.after) (hbefore : e.before = s.base)
    (hreceives : (stores s.base).Receives userId (stores e.after))
    (hcounts : (stores s.base).Counts (stores e.after)) :
    let s' : Shared B S := { s with base := e.after, log := e :: s.log }
    Mailbox invariant stores userId s' ∧ Follows stores userId s s' := by
  have harrivals : ∀ new, (stores e.after).inbox userId = (stores s.base).inbox userId ++ new →
      e.arrivals stores userId = new := by
    intro new hnew
    rw [Entry.arrivals, hbefore, hnew, List.drop_left]
  have hlast : ∀ u, (stores e.after).last u ≤ (e :: s.log).length := fun u =>
    (hcounts u).2.trans (Nat.succ_le_succ (h.last_le u))
  cases hreceives with
  | nothing hinbox =>
    have hnew : deliveries stores userId (e :: s.log) = deliveries stores userId s.log := by
      rw [deliveries, harrivals [] (by rw [hinbox, List.append_nil]), List.append_nil]
    refine ⟨⟨hinv, ?_, ?_, hlast⟩, [], ?_, ?_⟩
    · rw [hnew, hinbox]
      exact h.queue
    · rw [hnew]
      exact fun entry hentry => (h.le_last entry hentry).trans (hcounts userId).1
    · rw [hnew, List.append_nil]
    · rw [hinbox, List.append_nil]
  | arrival entry hinbox hnumber hnext =>
    have hnew : deliveries stores userId (e :: s.log) =
        deliveries stores userId s.log ++ [entry] := by
      rw [deliveries, harrivals [entry] hinbox]
    refine ⟨⟨hinv, ?_, ?_, hlast⟩, [entry], hnew, hinbox⟩
    · rw [hnew, hinbox]
      refine h.queue.arrive fun other hother => ?_
      have hle := h.le_last other hother
      omega
    · rw [hnew]
      intro other hother
      rcases List.mem_append.mp hother with hother | hother
      · exact (h.le_last other hother).trans (hcounts userId).1
      · rw [List.mem_singleton.mp hother, hnumber, hnext]

end Mailbox

/-! ## 3. Calls -/

section Calls

variable [ByteString B] [DecidableEq B] {c : Crypto B} {api : ServerApi B S}
  {invariant : S → Prop} {stores : S → Stores B} {survives : Envelope B → Prop} {userId : B}
  {s₀ s : Shared B S}

/-- The server of an operation that does not call `DrainInbox`. -/
def ServerApi.undrained {S : Type} (server : ServerApi B S) : ServerApi B S :=
  { server with drainInbox := fun _ _ => Proc.fail "" }

/-- Since `s₀` envelopes have come, and nothing has been drained. -/
structure Grown (invariant : S → Prop) (stores : S → Stores B) (userId : B)
    (s₀ s : Shared B S) : Prop where
  length : s₀.log.length ≤ s.log.length
  follows : s.log.length < 2 ^ 63 →
    Mailbox invariant stores userId s ∧ Follows stores userId s₀ s

/-- A call that drains nothing. -/
theorem Grown.exec {α : Type} {deed : Result α → Deed B} {x : Proc S α}
    (h : Grown invariant stores userId s₀ s)
    (hx : ∀ t, invariant t → (∀ u, (stores t).last u + 1 < 2 ^ 64) →
      Proc.wp x (fun _ t' => invariant t' ∧ (stores t).Receives userId (stores t') ∧
        (stores t).Counts (stores t')) t) :
    Grown invariant stores userId s₀ (Shared.exec deed x s).2 := by
  refine ⟨h.length.trans (Nat.le_succ _), fun hfew => ?_⟩
  have hlog : s.log.length + 1 < 2 ^ 63 := hfew
  obtain ⟨hs, hf⟩ := h.follows (by omega)
  have hlast : ∀ u, (stores s.base).last u + 1 < 2 ^ 64 := by
    intro u
    have := hs.last_le u
    omega
  obtain ⟨hinv, hreceives, hcounts⟩ := hx s.base hs.invariant hlast
  obtain ⟨hs', hf'⟩ := hs.receive (e := ⟨s.base, (x s.base).2, deed (x s.base).1⟩) hinv rfl
    hreceives hcounts
  exact ⟨hs', hf.trans hf'⟩

variable (hservice : StoreService c api invariant stores survives)
include hservice

theorem publish_receives (bundle : PrekeyBundle B) (t : S) (ht : invariant t) :
    Proc.wp (api.publishBundle bundle) (fun _ t' => invariant t' ∧
      (stores t).Receives userId (stores t') ∧ (stores t).Counts (stores t')) t :=
  Proc.wp_mono (hservice.publishBundle bundle t ht) fun _ _ h => ⟨h.1, h.2.receives⟩

theorem acquire_receives (u : B) (t : S) (ht : invariant t) :
    Proc.wp (api.acquireBundleForSession u) (fun _ t' => invariant t' ∧
      (stores t).Receives userId (stores t') ∧ (stores t).Counts (stores t')) t :=
  Proc.wp_mono (hservice.acquireBundleForSession u t ht) fun _ _ h => ⟨h.1, h.2.receives⟩

theorem enqueue_receives (u : B) (envelope : Envelope B) (t : S) (ht : invariant t)
    (hlast : ∀ u, (stores t).last u + 1 < 2 ^ 64) :
    Proc.wp (api.enqueueEnvelope u envelope) (fun _ t' => invariant t' ∧
      (stores t).Receives userId (stores t') ∧ (stores t).Counts (stores t')) t :=
  Proc.wp_mono (hservice.enqueueEnvelope u envelope t ht) fun _ _ h =>
    ⟨h.1, h.2.receives (hlast u)⟩

theorem drain_receives {u : B} (hu : u ≠ userId) (ack : Option UInt64) (t : S)
    (ht : invariant t) :
    Proc.wp (api.drainInbox u ack) (fun _ t' => invariant t' ∧
      (stores t).Receives userId (stores t') ∧ (stores t).Counts (stores t')) t :=
  Proc.wp_mono (hservice.drainInbox u ack t ht) fun _ _ h => ⟨h.1, h.2.receives hu⟩

/-- Calls of others. -/
theorem Grown.visit (h : Grown invariant stores userId s₀ s) {v : Visit B}
    (hv : v.Foreign userId) : Grown invariant stores userId s₀ (s.visit api v) := by
  cases v with
  | publish bundle => exact h.exec fun t ht _ => publish_receives hservice bundle t ht
  | acquire u => exact h.exec fun t ht _ => acquire_receives hservice u t ht
  | enqueue u envelope => exact h.exec fun t ht hl => enqueue_receives hservice u envelope t ht hl
  | drain u ack => exact h.exec fun t ht _ => drain_receives hservice hv ack t ht

theorem Grown.visited (h : Grown invariant stores userId s₀ s) (hv : s.Foreign userId) :
    Grown invariant stores userId s₀ (s.visited api) := by
  suffices hfold : ∀ (visits : List (Visit B)) (s : Shared B S),
      (∀ v ∈ visits, v.Foreign userId) → Grown invariant stores userId s₀ s →
      Grown invariant stores userId s₀ (visits.foldl (Shared.visit api) s) by
    obtain ⟨hlength, hfollows⟩ := hfold _ _ (hv s.calls) h
    refine ⟨hlength, fun hfew => ?_⟩
    obtain ⟨hs, hf⟩ := hfollows hfew
    exact ⟨⟨hs.invariant, hs.queue, hs.le_last, hs.last_le⟩, hf⟩
  intro visits
  induction visits with
  | nil => exact fun _ _ h => h
  | cons v visits ih =>
    intro s hv h
    rw [List.forall_mem_cons] at hv
    exact ih _ hv.2 (h.visit hservice hv.1)

omit hservice in
theorem foreign_visited (hv : s.Foreign userId) : (s.visited api).Foreign userId := by
  rw [Shared.Foreign, Shared.visited_visits]
  exact hv

omit hservice in
theorem foreign_call {α : Type} (deed : Result α → Deed B) (x : Proc S α)
    (hv : s.Foreign userId) : (Shared.call api deed x s).2.Foreign userId := by
  have hv' : (s.visited api).Foreign userId := foreign_visited hv
  rw [Shared.call]
  split
  · exact hv'
  · exact hv'
  · exact hv'

/-- A call of the client that drains nothing. -/
theorem Grown.call {α : Type} {deed : Result α → Deed B} {x : Proc S α}
    (h : Grown invariant stores userId s₀ s) (hv : s.Foreign userId)
    (hx : ∀ t, invariant t → (∀ u, (stores t).last u + 1 < 2 ^ 64) →
      Proc.wp x (fun _ t' => invariant t' ∧ (stores t).Receives userId (stores t') ∧
        (stores t).Counts (stores t')) t) :
    Grown invariant stores userId s₀ (Shared.call api deed x s).2 := by
  have hvisited := h.visited hservice hv
  rw [Shared.call]
  split
  · exact hvisited.exec hx
  · exact hvisited
  · exact hvisited.exec hx

/-- The calls of a client, apart from `DrainInbox`. -/
theorem grown_quiet :
    (sharedApi api).undrained.Quiet
      (Shared.observer userId (Grown invariant stores userId s₀)) where
  publishBundle bundle _ hs := ⟨foreign_call _ _ hs.1,
    hs.2.call hservice hs.1 fun t ht _ => publish_receives hservice bundle t ht⟩
  acquireBundle u _ hs := ⟨foreign_call _ _ hs.1,
    hs.2.call hservice hs.1 fun t ht _ => acquire_receives hservice u t ht⟩
  drainInbox _ _ _ hs := hs

theorem grown_enqueues :
    (sharedApi api).undrained.Enqueues
      (Shared.observer userId (Grown invariant stores userId s₀)) :=
  fun u envelope _ hs => ⟨foreign_call _ _ hs.1,
    hs.2.call hservice hs.1 fun t ht hl => enqueue_receives hservice u envelope t ht hl⟩

omit [ByteString B] [DecidableEq B] hservice in
/-- What an acknowledgement leaves. -/
theorem eq_acked {ack : Option UInt64} {before after : List (StoredEnvelope B)}
    (h : Stores.Acked ack before after) (hack : ∀ a, ack = some a → a.toNat < 2 ^ 63) :
    after = Consumer.acked StoredEnvelope.number (ack.map UInt64.toNat) before := by
  cases ack with
  | none => exact h.none rfl
  | some a =>
    rw [h.some a rfl (hack a rfl)]
    exact Window.dropWhile_congr fun entry _ => decide_eq_decide.mpr UInt64.le_iff_toNat_le

variable {done : List (StoredEnvelope B)} {ack : Option UInt64}

/-- The user drains the mailbox. -/
theorem ReadsAt.exec (h : ReadsAt stores userId s done ack)
    (hs : Mailbox invariant stores userId s) (hfew : s.log.length < 2 ^ 63) :
    Proc.wp (Shared.exec (fun _ => Deed.other) (api.drainInbox userId ack))
      (DrainedAt invariant stores userId s done ack) s := by
  obtain ⟨hinv, hdrained⟩ := hservice.drainInbox userId ack s.base hs.invariant
  have hack : ∀ a, ack = some a → a.toNat < 2 ^ 63 := by
    intro a ha
    obtain ⟨entry, hentry, hnumber⟩ := (h.covered ha).known
    have hle := hs.le_last entry hentry
    have hlog := hs.last_le userId
    omega
  let after := (stores (api.drainInbox userId ack s.base).2).inbox userId
  let log' : List (Entry B S) := ⟨s.base, (api.drainInbox userId ack s.base).2, .other⟩ :: s.log
  have hlog : deliveries stores userId log' = deliveries stores userId s.log := by
    have hshort := (hdrained.suffix userId).length_le
    rw [deliveries, Entry.arrivals, List.drop_eq_nil_of_le hshort, List.append_nil]
  have hacked : ∀ page, (api.drainInbox userId ack s.base).1 = .ok page →
      after = Consumer.acked StoredEnvelope.number (ack.map UInt64.toNat)
        ((stores s.base).inbox userId) := fun page hpage =>
    eq_acked (hdrained.accepted page hpage).1 hack
  have hread : Consumer.At StoredEnvelope.number (deliveries stores userId log') after done
      (ack.map UInt64.toNat) := by
    rw [hlog]
    cases hr : (api.drainInbox userId ack s.base).1 with
    | error e =>
      rcases hdrained.refused e hr with hsame | hsame
      · rw [show after = _ from hsame]
        exact h
      · rw [show after = _ from eq_acked hsame hack]
        exact h.heard
    | ok page =>
      rw [hacked page hr]
      exact h.heard
  refine ⟨⟨hinv, hread.toQueue, fun entry hentry => ?_, fun u => ?_⟩, ?_, hread,
    fun page hpage => ⟨?_, (hdrained.accepted page hpage).2⟩⟩
  · have hentry' : entry ∈ deliveries stores userId log' := hentry
    rw [hlog] at hentry'
    exact (hs.le_last entry hentry').trans_eq (congrFun hdrained.last userId).symm
  · exact (congrFun hdrained.last u).trans_le ((hs.last_le u).trans (Nat.le_succ _))
  · change _ <+: deliveries stores userId log'
    rw [hlog]
  · have hanswered := h.answered
    rw [← hacked page hpage, ← hlog] at hanswered
    exact hanswered

/-- **The user drains the mailbox, and the request or the answer may get lost.** -/
theorem ReadsAt.call (h : ReadsAt stores userId s done ack)
    (hs : Mailbox invariant stores userId s) (hv : s.Foreign userId)
    (hfew : ((sharedApi api).drainInbox userId ack s).2.log.length < 2 ^ 63) :
    Proc.wp ((sharedApi api).drainInbox userId ack)
      (DrainedAt invariant stores userId s done ack) s := by
  have hgrown : Grown invariant stores userId s (s.visited api) :=
    Grown.visited hservice ⟨le_rfl, fun _ => ⟨hs, .refl s⟩⟩ hv
  have hexec : (s.visited api).log.length < 2 ^ 63 →
      Proc.wp (Shared.exec (fun _ => Deed.other) (api.drainInbox userId ack))
        (DrainedAt invariant stores userId s done ack) (s.visited api) := by
    intro hfew
    obtain ⟨hs', hf⟩ := hgrown.follows hfew
    refine Proc.wp_mono ((h.follows hs' hf).exec hservice hs' hfew) fun _ _ hd => ?_
    exact ⟨hd.mailbox, hf.log_prefix.trans hd.log, hd.reads, hd.page⟩
  have hcall : (sharedApi api).drainInbox userId ack =
      Shared.call api (fun _ => Deed.other) (api.drainInbox userId ack) := rfl
  rw [hcall, Shared.call] at hfew
  rw [hcall, Proc.wp, Shared.call]
  cases hfate : s.fate s.calls with
  | answered =>
    rw [hfate] at hfew
    exact hexec (Nat.lt_of_succ_lt hfew)
  | requestLost e =>
    rw [hfate] at hfew
    obtain ⟨hs', hf⟩ := hgrown.follows hfew
    exact ⟨hs', hf.log_prefix, h.follows hs' hf, fun _ h => by cases h⟩
  | answerLost e =>
    rw [hfate] at hfew
    have hd := hexec (Nat.lt_of_succ_lt hfew)
    exact ⟨hd.mailbox, hd.log, hd.reads, fun _ h => by cases h⟩

/-- The log only grows. -/
theorem length_log_call (u : B) (ack : Option UInt64) (hv : s.Foreign userId)
    (hs : s.log.length < 2 ^ 63 → Mailbox invariant stores userId s) :
    s.log.length ≤ ((sharedApi api).drainInbox u ack s).2.log.length := by
  have hgrown : Grown invariant stores userId s (s.visited api) :=
    Grown.visited hservice ⟨le_rfl, fun hfew => ⟨hs hfew, .refl s⟩⟩ hv
  have hcall : (sharedApi api).drainInbox u ack =
      Shared.call api (fun _ => Deed.other) (api.drainInbox u ack) := rfl
  rw [hcall, Shared.call]
  cases s.fate s.calls with
  | answered => exact hgrown.length.trans (Nat.le_succ _)
  | requestLost e => exact hgrown.length
  | answerLost e => exact hgrown.length.trans (Nat.le_succ _)

end Calls

end PqChat
