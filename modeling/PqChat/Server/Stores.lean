/-
# Bundles and mailboxes

What the four calls of a client do to a server, without the tables and maps they do it with: the
server holds for each user a bundle with the one-time keys that are left, and a mailbox.  A
`StoreService` is an implementation of the calls that does just that; `InMemoryServer` is one.

The ids of a mailbox count up, and `last` is the last one given out.  `InMemoryServer` counts in
64 bits, so that is said only as long as the next id is a 64-bit number.
-/
import PqChat.Lib.Window
import PqChat.Server.InMemory

namespace PqChat

variable {B S : Type}

/-! ## 1. What is stored -/

/-- An entry of a mailbox, with what it is read back as. -/
structure StoredEnvelope (B : Type) where
  inboxId : UInt64
  content : Result (Envelope B)

/-- The entry that an item of a page comes from. -/
def InboxEnvelope.stored (item : InboxEnvelope B) : StoredEnvelope B :=
  ⟨item.inboxId, .ok item.envelope⟩

/-- The bundles, with the one-time keys that are left, and the mailboxes. -/
@[ext] structure Stores (B : Type) where
  bundle : B → Option (PrekeyBundle B)
  inbox : B → List (StoredEnvelope B)
  last : B → Nat

namespace Stores

section Calls

variable [ByteString B] [DecidableEq B]

/-- `PublishBundle`: the bundle takes the place of the one before. -/
structure Published (c : Crypto B) (before : Stores B) (bundle : PrekeyBundle B)
    (r : Result Unit) (after : Stores B) : Prop where
  inbox : after.inbox = before.inbox
  last : after.last = before.last
  refused : ∀ e, r = .error e → after.bundle = before.bundle
  accepted : r = .ok () → verifyPrekeyBundleSignatures c bundle = .ok () ∧
    after.bundle = Function.update before.bundle bundle.userId (some bundle)

/-- One key of each kind is handed out and leaves its pool, or none is. -/
inductive HandsOut (before : Stores B) (userId : B) (bundle : PrekeyBundle B) :
    (after : Stores B) → Prop
  | pair (stored : PrekeyBundle B) (ec pq : OneTimePrekey B) (ecs pqs : List (OneTimePrekey B))
      (after : Stores B) (hstored : before.bundle userId = some stored)
      (hec : stored.oneTimeEc = ec :: ecs) (hpq : stored.oneTimePq = pq :: pqs)
      (hec' : bundle.oneTimeEc = [ec]) (hpq' : bundle.oneTimePq = [pq])
      (hafter : after.bundle = Function.update before.bundle userId
        (some { stored with oneTimeEc := ecs, oneTimePq := pqs })) :
      HandsOut before userId bundle after
  | none (after : Stores B) (hec : bundle.oneTimeEc = []) (hpq : bundle.oneTimePq = [])
      (hafter : after.bundle = before.bundle) : HandsOut before userId bundle after

/-- `AcquireBundleForSession`. -/
structure Acquired (before : Stores B) (userId : B) (r : Result (PrekeyBundle B))
    (after : Stores B) : Prop where
  inbox : after.inbox = before.inbox
  last : after.last = before.last
  refused : ∀ e, r = .error e → after.bundle = before.bundle
  accepted : ∀ bundle, r = .ok bundle → HandsOut before userId bundle after

/-- `EnqueueEnvelope`: the envelope comes to the end of the mailbox, under a new id. -/
structure Enqueued (before : Stores B) (userId : B) (envelope : Envelope B)
    (survives : Prop) (r : Result Unit) (after : Stores B) : Prop where
  bundle : after.bundle = before.bundle
  refused : ∀ e, r = .error e → after = before
  accepted : r = .ok () → ∃ entry, (survives → entry.content = .ok envelope) ∧
    after.inbox = Function.update before.inbox userId (before.inbox userId ++ [entry]) ∧
    (before.last userId + 1 < 2 ^ 64 → entry.inboxId.toNat = before.last userId + 1 ∧
      after.last userId = before.last userId + 1 ∧
      ∀ u, before.last u ≤ after.last u ∧ after.last u ≤ before.last u + 1)

end Calls

/-- What an acknowledgement leaves of a mailbox.  `SqliteStore` compares ids as signed
numbers. -/
structure Acked (ack : Option UInt64) (before after : List (StoredEnvelope B)) : Prop where
  suffix : after <:+ before
  none : ack = none → after = before
  some : ∀ a : UInt64, ack = some a → a.toNat < 2 ^ 63 →
    after = before.dropWhile fun entry => entry.inboxId ≤ a

/-- `DrainInbox`: what is acknowledged goes, and a page of what is left is returned.  A call
that fails may have acknowledged. -/
structure Drained (before : Stores B) (userId : B) (ack : Option UInt64)
    (r : Result (List (InboxEnvelope B))) (after : Stores B) : Prop where
  bundle : after.bundle = before.bundle
  last : after.last = before.last
  others : ∀ u, u ≠ userId → after.inbox u = before.inbox u
  refused : ∀ e, r = .error e → after.inbox userId = before.inbox userId ∨
    Acked ack (before.inbox userId) (after.inbox userId)
  accepted : ∀ page, r = .ok page → Acked ack (before.inbox userId) (after.inbox userId) ∧
    page.map InboxEnvelope.stored <+: after.inbox userId

/-- A call of `DrainInbox` only shortens mailboxes, from the front. -/
theorem Drained.suffix [DecidableEq B] {before after : Stores B} {userId : B}
    {ack : Option UInt64} {r : Result (List (InboxEnvelope B))}
    (h : before.Drained userId ack r after) (u : B) : after.inbox u <:+ before.inbox u := by
  by_cases hu : u = userId
  · subst hu
    cases r with
    | error e =>
      rcases h.refused e rfl with h | h
      · rw [h]
      · exact h.suffix
    | ok page => exact (h.accepted page rfl).1.suffix
  · rw [h.others u hu]

end Stores

/-- An implementation of the four calls.  `survives` are the envelopes that are read back as
they were written. -/
structure StoreService [ByteString B] [DecidableEq B] (c : Crypto B) (api : ServerApi B S)
    (invariant : S → Prop) (stores : S → Stores B) (survives : Envelope B → Prop) : Prop where
  publishBundle : ∀ bundle s, invariant s → Proc.wp (api.publishBundle bundle)
    (fun r s' => invariant s' ∧ (stores s).Published c bundle r (stores s')) s
  acquireBundleForSession : ∀ userId s, invariant s → Proc.wp (api.acquireBundleForSession userId)
    (fun r s' => invariant s' ∧ (stores s).Acquired userId r (stores s')) s
  enqueueEnvelope : ∀ userId envelope s, invariant s →
    Proc.wp (api.enqueueEnvelope userId envelope)
    (fun r s' => invariant s' ∧
      (stores s).Enqueued userId envelope (survives envelope) r (stores s')) s
  drainInbox : ∀ userId ack s, invariant s → Proc.wp (api.drainInbox userId ack)
    (fun r s' => invariant s' ∧ (stores s).Drained userId ack r (stores s')) s

/-! ## 2. InMemoryServer -/

namespace InMemoryServer

/-- The bundle that a `BundleStore` stands for. -/
def BundleStore.bundle (store : BundleStore B) : PrekeyBundle B :=
  { store.baseBundle with oneTimeEc := store.oneTimeEcPool, oneTimePq := store.oneTimePqPool }

/-- What is stored for the users. -/
def stores (s : InMemoryServer B) : Stores B where
  bundle u := (s.bundles.get u).map BundleStore.bundle
  inbox u := ((s.inbox.get u).getD []).map InboxEnvelope.stored
  last u := ((s.nextInboxIdByUser.get u).getD 0).toNat

section Store

variable [ByteString B] [DecidableEq B] {c : Crypto B}

theorem publishBundle_stores (bundle : PrekeyBundle B) (s : InMemoryServer B) :
    Proc.wp (publishBundle c bundle) (fun r s' => s.stores.Published c bundle r s'.stores) s := by
  have hrefused : ∀ e, s.stores.Published c bundle (.error e) s.stores := fun e =>
    ⟨rfl, rfl, fun _ _ => rfl, nofun⟩
  refine Proc.wp_require_bind (fun _ => hrefused _) fun _ => ?_
  refine Proc.wp_require_bind (fun _ => hrefused _) fun _ => ?_
  refine Proc.wp_ofExcept_bind (fun e _ => hrefused _) fun _ hverify => ?_
  refine Proc.wp_modify ⟨rfl, rfl, nofun, fun _ => ⟨hverify, ?_⟩⟩
  exact Map.comp_get_set (Option.map BundleStore.bundle) s.bundles _ _

omit [ByteString B] in
theorem acquireBundleForSession_stores (userId : B) (s : InMemoryServer B) :
    Proc.wp (acquireBundleForSession userId)
      (fun r s' => s.stores.Acquired userId r s'.stores) s := by
  unfold acquireBundleForSession
  refine Proc.wp_get_bind ?_
  split
  · exact Proc.wp_fail ⟨rfl, rfl, fun _ _ => rfl, nofun⟩
  · rename_i store hstore
    have hstored : s.stores.bundle userId = some store.bundle :=
      congrArg (Option.map BundleStore.bundle) hstore
    dsimp only
    split
    · rename_i ec ecs pq pqs hec hpq
      refine Proc.wp_modify_bind (Proc.wp_pure ⟨rfl, rfl, nofun, fun bundle hb => ?_⟩)
      obtain rfl := Except.ok.inj hb
      refine .pair store.bundle ec pq ecs pqs _ hstored hec hpq rfl rfl ?_
      exact Map.comp_get_set (Option.map BundleStore.bundle) s.bundles _ _
    · refine Proc.wp_pure ⟨rfl, rfl, nofun, fun bundle hb => ?_⟩
      obtain rfl := Except.ok.inj hb
      exact .none _ rfl rfl rfl

omit [ByteString B] in
theorem enqueueEnvelope_stores (userId : B) (envelope : Envelope B) (survives : Prop)
    (s : InMemoryServer B) :
    Proc.wp (enqueueEnvelope userId envelope)
      (fun r s' => s.stores.Enqueued userId envelope survives r s'.stores) s := by
  refine Proc.wp_modify ⟨rfl, nofun, fun _ => ?_⟩
  refine ⟨⟨(s.nextInboxIdByUser.get userId).getD 0 + 1, .ok envelope⟩, fun _ => rfl, ?_, ?_⟩
  · refine (Map.comp_get_set (fun l => (l.getD []).map InboxEnvelope.stored) s.inbox _ _).trans ?_
    exact congrArg (Function.update s.stores.inbox userId) List.map_append
  · intro hlast
    have hnext : ((s.nextInboxIdByUser.get userId).getD 0 + 1).toNat =
        s.stores.last userId + 1 := by
      rw [UInt64.toNat_add, UInt64.toNat_one]
      exact Nat.mod_eq_of_lt hlast
    have hafter := Map.comp_get_set (fun n => (n.getD 0).toNat) s.nextInboxIdByUser userId
      ((s.nextInboxIdByUser.get userId).getD 0 + 1)
    refine ⟨hnext, (congrFun hafter userId).trans ?_, fun u => ?_⟩
    · rw [Function.update_self]
      exact hnext
    · by_cases hu : u = userId
      · subst hu
        have hu : _ = s.stores.last u + 1 := (congrFun hafter u).trans
          ((Function.update_self u _ _).trans hnext)
        exact ⟨(Nat.le_succ _).trans_eq hu.symm, hu.le⟩
      · have hu := (congrFun hafter u).trans (Function.update_of_ne hu _ _)
        exact ⟨hu.symm.le, hu.le.trans (Nat.le_succ _)⟩

omit [DecidableEq B] in
/-- The page is what it was, and a part of the entries that come. -/
theorem prefix_of_drainPage {entries out page : List (InboxEnvelope B)} {total : Nat}
    (h : drainPage out total entries = .ok page) : page <+: out ++ entries := by
  induction entries generalizing out total with
  | nil =>
    obtain rfl := Except.ok.inj h
    exact List.prefix_append _ _
  | cons entry rest ih =>
    rw [drainPage] at h
    obtain ⟨encoded, -, h⟩ := Result.bind_eq_ok.mp h
    dsimp only at h
    split at h
    · obtain rfl := Except.ok.inj h
      exact List.prefix_append _ _
    · have := ih h
      rwa [List.append_assoc, List.singleton_append] at this

theorem drainInbox_stores (userId : B) (ack : Option UInt64) (s : InMemoryServer B) :
    Proc.wp (drainInbox userId ack)
      (fun r s' => s.stores.Drained userId ack r s'.stores) s := by
  unfold drainInbox
  refine Proc.wp_get_bind ?_
  split
  · rename_i hnone
    -- a mailbox that was never written to is empty
    have hempty : s.stores.inbox userId = [] :=
      congrArg (fun l => (Option.getD l []).map InboxEnvelope.stored) hnone
    refine Proc.wp_pure ⟨rfl, rfl, fun _ _ => rfl, nofun, fun page hpage => ?_⟩
    obtain rfl := Except.ok.inj hpage
    rw [hempty]
    exact ⟨⟨List.suffix_refl _, fun _ => rfl, fun _ _ _ => rfl⟩, List.nil_prefix⟩
  · rename_i entries hentries
    have hbefore : s.stores.inbox userId = entries.map InboxEnvelope.stored :=
      congrArg (fun l => (Option.getD l []).map InboxEnvelope.stored) hentries
    -- the rest of the call, for the entries that are kept
    have hrest : ∀ kept : List (InboxEnvelope B),
        Stores.Acked ack (entries.map InboxEnvelope.stored) (kept.map InboxEnvelope.stored) →
        Proc.wp (do
            Proc.modify fun s => { s with inbox := s.inbox.set userId kept }
            Proc.ofExcept "" (drainPage [] 0 kept))
          (fun r s' => s.stores.Drained userId ack r s'.stores) s := by
      intro kept hacked
      rw [← hbefore] at hacked
      have hafter := Map.comp_get_set (fun l => (l.getD []).map InboxEnvelope.stored) s.inbox
        userId kept
      have hself : ({ s with inbox := s.inbox.set userId kept } : InMemoryServer B).stores.inbox
          userId = kept.map InboxEnvelope.stored :=
        (congrFun hafter userId).trans (Function.update_self _ _ _)
      rw [← hself] at hacked
      have hothers : ∀ u, u ≠ userId → _ = s.stores.inbox u := fun u hu =>
        (congrFun hafter u).trans (Function.update_of_ne hu _ _)
      refine Proc.wp_modify_bind (Proc.wp_ofExcept (fun e _ => ?_) fun page hpage => ?_)
      · exact ⟨rfl, rfl, hothers, fun _ _ => Or.inr hacked, nofun⟩
      · refine ⟨rfl, rfl, hothers, nofun, fun page' hpage' => ?_⟩
        obtain rfl := Except.ok.inj hpage'
        have hprefix := (prefix_of_drainPage hpage).map InboxEnvelope.stored
        rw [List.nil_append, ← hself] at hprefix
        exact ⟨hacked, hprefix⟩
    cases ack with
    | none => exact hrest entries ⟨List.suffix_refl _, fun _ => rfl, nofun⟩
    | some a =>
      refine hrest _ ⟨(List.dropWhile_suffix _).map _, nofun, fun b hb _ => ?_⟩
      obtain rfl := Option.some.inj hb
      rw [List.dropWhile_map]
      rfl

variable (c)

/-- **The in-memory server keeps bundles and mailboxes.** -/
theorem storeService : StoreService c (serverApi c) (fun _ => True) stores fun _ => True where
  publishBundle bundle s _ :=
    Proc.wp_mono (publishBundle_stores bundle s) fun _ _ h => ⟨trivial, h⟩
  acquireBundleForSession userId s _ :=
    Proc.wp_mono (acquireBundleForSession_stores userId s) fun _ _ h => ⟨trivial, h⟩
  enqueueEnvelope userId envelope s _ :=
    Proc.wp_mono (enqueueEnvelope_stores userId envelope True s) fun _ _ h => ⟨trivial, h⟩
  drainInbox userId ack s _ :=
    Proc.wp_mono (drainInbox_stores userId ack s) fun _ _ h => ⟨trivial, h⟩

end Store

end InMemoryServer

end PqChat
