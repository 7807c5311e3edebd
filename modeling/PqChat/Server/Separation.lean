/-
# What a call leaves alone

The authentication calls do not touch bundles and mailboxes, and the calls on these do not touch
accounts.  On the database that includes the transactions that are rolled back.
-/
import PqChat.Server.Backend
import PqChat.Server.SqliteStores
import PqChat.Server.Tcp

namespace PqChat

open ByteString Sql

/-- A predicate on the server object is kept by a computation on the object that keeps it. -/
theorem Hosted.preserves_on {σ α : Type} {F : σ → Prop} {x : Proc σ α}
    (hx : Proc.Preserves F x) :
    Proc.Preserves (fun s : Hosted σ => F s.object) (Hosted.on x) := fun s hs => hx s.object hs

theorem preserves_nowUnix {σ : Type} {F : σ → Prop} :
    Proc.Preserves (fun s : Hosted σ => F s.object) nowUnix := fun _ hs => hs

theorem preserves_randomBytes {σ : Type} {F : σ → Prop} (n : Nat) :
    Proc.Preserves (fun s : Hosted σ => F s.object) (randomBytes n) := fun _ hs => hs

theorem preserves_randomHex {σ : Type} {F : σ → Prop} (n : Nat) :
    Proc.Preserves (fun s : Hosted σ => F s.object) (randomHex n) := by
  refine .bind (preserves_randomBytes n) fun data => ?_
  cases data with
  | none => exact .pure _
  | some data => exact .pure _

/-! ## 1. InMemoryServer -/

namespace InMemoryServer

variable (c : ServerCrypto) (s₀ : InMemoryServer Bytes) (A : Map Bytes Bytes → Prop)

/-- The bundles and the mailboxes are those of `s₀`, and the accounts satisfy `A`. -/
def SameStores (s : InMemoryServer Bytes) : Prop :=
  s.bundles = s₀.bundles ∧ s.inbox = s₀.inbox ∧ s.nextInboxIdByUser = s₀.nextInboxIdByUser ∧
    A s.transportIdentities

variable {c s₀ A}

theorem SameStores.stores {s : InMemoryServer Bytes} (h : SameStores s₀ A s) :
    s.stores = s₀.stores := by
  rw [InMemoryServer.stores, h.1, h.2.1, h.2.2.1]
  rfl

theorem preserves_register (request : RegisterRequest Bytes) :
    Proc.Preserves (SameStores s₀ fun _ => True) (registerTransportIdentity c request) := by
  refine .bind (.ofExcept _ _) fun _ => .bind .get fun s => ?_
  split
  · exact .bind (.ofExcept _ _) fun _ => .modify fun _ h => h
  · split
    · exact .bind (.require _ _) fun _ => .modify fun _ h => h
    · exact .pure _

theorem preserves_begin (request : AuthBeginRequest Bytes) :
    Proc.Preserves (fun s : Hosted (InMemoryServer Bytes) => SameStores s₀ A s.object)
      (beginTransportAuthentication request) := by
  refine .bind preserves_nowUnix fun _ => ?_
  refine .bind (Hosted.preserves_on (.modify fun _ h => h)) fun _ => ?_
  refine .bind (.require _ _) fun _ => .bind (.require _ _) fun _ => ?_
  refine .bind (Hosted.preserves_on (.zoom fun _ h => h)) fun _ => ?_
  refine .bind .get fun _ => .bind (.require _ _) fun _ => ?_
  refine .bind (preserves_randomHex 16) fun _ => .bind (preserves_randomBytes 32) fun nonce => ?_
  cases nonce with
  | none => exact .fail _
  | some nonce =>
    refine .bind (.require _ _) fun _ => ?_
    exact .bind (Hosted.preserves_on (.modify fun _ h => h)) fun _ => .pure _

theorem preserves_finish (request : AuthFinishRequest Bytes) :
    Proc.Preserves (fun s : Hosted (InMemoryServer Bytes) => SameStores s₀ A s.object)
      (finishTransportAuthentication c request) := by
  refine .bind preserves_nowUnix fun _ => ?_
  refine .bind (Hosted.preserves_on (.modify fun _ h => h)) fun _ => ?_
  refine .bind (.ofExcept _ _) fun _ => ?_
  refine .bind (Hosted.preserves_on (.zoom fun _ h => h)) fun _ => .bind .get fun s => ?_
  split
  · exact .fail _
  · refine .bind (.require _ _) fun _ => .bind (.require _ _) fun _ => ?_
    refine .bind (.require _ _) fun _ => ?_
    refine .bind (Hosted.preserves_on (.modify fun _ h => h)) fun _ => ?_
    split
    · exact .fail _
    · refine .bind (.require _ _) fun _ => .bind (preserves_randomBytes 32) fun token => ?_
      cases token with
      | none => exact .fail _
      | some token => exact .bind (Hosted.preserves_on (.modify fun _ h => h)) fun _ => .pure _

theorem preserves_authenticate (sessionToken : Bytes) :
    Proc.Preserves (fun s : Hosted (InMemoryServer Bytes) => SameStores s₀ A s.object)
      (authenticateSessionToken sessionToken) := by
  refine .bind preserves_nowUnix fun _ => ?_
  refine .bind (Hosted.preserves_on (.modify fun _ h => h)) fun _ => ?_
  refine .bind (.require _ _) fun _ => .bind .get fun s => ?_
  split
  · exact .fail _
  · exact .bind (.require _ _) fun _ => .pure _

theorem preserves_revoke (sessionToken : Bytes) :
    Proc.Preserves (SameStores s₀ A) (revokeSessionToken sessionToken) :=
  .bind (.require _ _) fun _ => .bind .get fun _ => .bind (.require _ _) fun _ =>
    .modify fun _ h => h

/-- The four calls on bundles and mailboxes leave the accounts alone. -/
theorem preserves_accounts_publish (bundle : PrekeyBundle Bytes) :
    Proc.Preserves (fun s : InMemoryServer Bytes => A s.transportIdentities)
      (publishBundle c.toCrypto bundle) :=
  .bind (.require _ _) fun _ => .bind (.require _ _) fun _ => .bind (.ofExcept _ _) fun _ =>
    .modify fun _ h => h

theorem preserves_accounts_acquire (userId : Bytes) :
    Proc.Preserves (fun s : InMemoryServer Bytes => A s.transportIdentities)
      (acquireBundleForSession userId) := by
  refine .bind .get fun s => ?_
  split
  · exact .fail _
  · split
    · exact .bind (.modify fun _ h => h) fun _ => .pure _
    · exact .pure _

theorem preserves_accounts_enqueue (userId : Bytes) (envelope : Envelope Bytes) :
    Proc.Preserves (fun s : InMemoryServer Bytes => A s.transportIdentities)
      (enqueueEnvelope userId envelope) := .modify fun _ h => h

theorem preserves_accounts_drain (userId : Bytes) (ack : Option UInt64) :
    Proc.Preserves (fun s : InMemoryServer Bytes => A s.transportIdentities)
      (drainInbox userId ack) := by
  refine .bind .get fun s => ?_
  split
  · exact .pure _
  · exact .bind (.modify fun _ h => h) fun _ => .ofExcept _ _

end InMemoryServer

/-! ## 2. SqliteStore -/

namespace SqliteStore

variable (t₀ : Tables) (A : Map Bytes Bytes → Prop)

/-- The bundles and the mailboxes are those of `t₀`, and the accounts satisfy `A`. -/
def Tables.SameStores (t : Tables) : Prop :=
  t.bundles = t₀.bundles ∧ t.oneTimeEc = t₀.oneTimeEc ∧ t.oneTimePq = t₀.oneTimePq ∧
    t.inbox = t₀.inbox ∧ A t.accounts

/-- The tables of the authentication calls are those of `t₀`. -/
def Tables.SameAuth (t : Tables) : Prop :=
  t.accounts = t₀.accounts ∧ t.authChallenges = t₀.authChallenges ∧ t.sessions = t₀.sessions

variable {c : ServerCrypto} {t₀ A}

theorem Tables.SameStores.stores {t : Tables} (h : Tables.SameStores t₀ A t) :
    t.stores = t₀.stores := by
  rw [Tables.stores, h.1, h.2.1, h.2.2.1, h.2.2.2.1]
  rfl

theorem Tables.SameStores.ordered {t : Tables} (h : Tables.SameStores t₀ A t) (h₀ : t₀.Ordered) :
    t.Ordered := by
  obtain ⟨hb, hec, hpq, hinbox, -⟩ := h
  exact ⟨hb ▸ h₀.base, hec ▸ h₀.oneTimeEc, hpq ▸ h₀.oneTimePq, hinbox ▸ h₀.inbox⟩

theorem Tables.SameAuth.users {t : Tables} (h : Tables.SameAuth t₀ t) (h₀ : t₀.Users) :
    t.Users := by
  obtain ⟨ha, hc, hs⟩ := h
  exact ⟨ha ▸ h₀.account, hc ▸ h₀.challenge, hs ▸ h₀.session⟩

theorem preserves_cleanup (now : UInt64) :
    Proc.Preserves (Db.Keeps (Tables.SameStores t₀ A)) (cleanupAuthState now) :=
  .bind (preserves_update fun _ h => h) fun _ => preserves_update fun _ h => h

theorem preserves_register (request : RegisterRequest Bytes) :
    Proc.Preserves (fun s : SqliteStore => s.db.Keeps (Tables.SameStores t₀ fun _ => True))
      (registerTransportIdentity c request) := by
  refine .bind (.ofExcept _ _) fun _ => ?_
  refine .bind (connection.preserves_on (preserves_query _)) fun row => .bind .get fun s => ?_
  cases row with
  | some existing =>
    dsimp only
    split
    · refine .bind (.require _ _) fun _ => preserves_transaction connection ?_
      refine .bind (connection.preserves_on (preserves_update fun _ h => h)) fun _ => ?_
      exact connection.preserves_on (preserves_update fun _ h => h)
    · exact .pure _
  | none =>
    refine .bind (.ofExcept _ _) fun _ => connection.preserves_on (preserves_exec ?_)
    intro t t' a hf h
    split at hf
    · cases hf
    · obtain ⟨rfl, -⟩ := Prod.mk.inj (Except.ok.inj hf)
      exact h

theorem preserves_begin (request : AuthBeginRequest Bytes) :
    Proc.Preserves (fun s : Hosted SqliteStore => s.object.db.Keeps (Tables.SameStores t₀ A))
      (beginTransportAuthentication request) := by
  refine .bind (preserves_nowUnix (F := fun s : SqliteStore => s.db.Keeps _)) fun now => ?_
  refine .bind (hostedConnection.preserves_on (preserves_cleanup now)) fun _ => ?_
  refine .bind (.require _ _) fun _ => .bind (.require _ _) fun _ => ?_
  refine .bind (Hosted.preserves_on (F := fun s : SqliteStore => s.db.Keeps _)
    (.zoom fun _ h => h)) fun _ => ?_
  refine .bind (hostedConnection.preserves_on (preserves_queryRow _)) fun _ => ?_
  refine .bind (.require _ _) fun _ => ?_
  refine .bind (preserves_randomHex (F := fun s : SqliteStore => s.db.Keeps _) 16) fun _ => ?_
  refine .bind (preserves_randomBytes (F := fun s : SqliteStore => s.db.Keeps _) 32) fun nonce => ?_
  cases nonce with
  | none => exact .fail _
  | some nonce =>
    refine .bind (.require _ _) fun _ => ?_
    refine .bind (hostedConnection.preserves_on (preserves_exec ?_)) fun _ => .pure _
    intro t t' a hf h
    split at hf
    · cases hf
    · obtain ⟨rfl, -⟩ := Prod.mk.inj (Except.ok.inj hf)
      exact h

theorem preserves_consume (request : AuthFinishRequest Bytes) :
    Proc.Preserves (fun s : Hosted SqliteStore => s.object.db.Keeps (Tables.SameStores t₀ A))
      (consumeChallenge request) := by
  refine preserves_transaction hostedConnection ?_
  refine .bind (hostedConnection.preserves_on (preserves_queryRow _)) fun row => ?_
  cases row with
  | none => exact .fail _
  | some challenge =>
    refine .bind (.require _ _) fun _ => ?_
    refine .bind (preserves_nowUnix (F := fun s : SqliteStore => s.db.Keeps _)) fun _ => ?_
    refine .bind (.require _ _) fun _ => .bind (.require _ _) fun _ => ?_
    refine .bind (hostedConnection.preserves_on (preserves_exec ?_)) fun _ => .require _ _
    intro t t' a hf h
    split at hf
    · split at hf
      · obtain ⟨rfl, -⟩ := Prod.mk.inj (Except.ok.inj hf)
        exact h
      · obtain ⟨rfl, -⟩ := Prod.mk.inj (Except.ok.inj hf)
        exact h
    · obtain ⟨rfl, -⟩ := Prod.mk.inj (Except.ok.inj hf)
      exact h

theorem preserves_finish (request : AuthFinishRequest Bytes) :
    Proc.Preserves (fun s : Hosted SqliteStore => s.object.db.Keeps (Tables.SameStores t₀ A))
      (finishTransportAuthentication c request) := by
  refine .bind (preserves_nowUnix (F := fun s : SqliteStore => s.db.Keeps _)) fun now => ?_
  refine .bind (hostedConnection.preserves_on (preserves_cleanup now)) fun _ => ?_
  refine .bind (.ofExcept _ _) fun _ => ?_
  refine .bind (Hosted.preserves_on (F := fun s : SqliteStore => s.db.Keeps _)
    (.zoom fun _ h => h)) fun _ => ?_
  refine .bind (preserves_consume request) fun _ => ?_
  refine .bind (hostedConnection.preserves_on (preserves_queryRow _)) fun row => ?_
  cases row with
  | none => exact .fail _
  | some key =>
    refine .bind (.require _ _) fun _ => ?_
    refine .bind (preserves_randomBytes (F := fun s : SqliteStore => s.db.Keeps _) 32)
      fun token => ?_
    cases token with
    | none => exact .fail _
    | some token =>
      refine .bind .get fun _ => .bind (.ofExcept _ _) fun _ => ?_
      refine .bind (hostedConnection.preserves_on (preserves_exec ?_)) fun _ => .pure _
      intro t t' a hf h
      split at hf
      · cases hf
      · obtain ⟨rfl, -⟩ := Prod.mk.inj (Except.ok.inj hf)
        exact h

theorem preserves_authenticate (sessionToken : Bytes) :
    Proc.Preserves (fun s : Hosted SqliteStore => s.object.db.Keeps (Tables.SameStores t₀ A))
      (authenticateSessionToken c sessionToken) := by
  refine .bind (preserves_nowUnix (F := fun s : SqliteStore => s.db.Keeps _)) fun now => ?_
  refine .bind (hostedConnection.preserves_on (preserves_cleanup now)) fun _ => ?_
  refine .bind (.require _ _) fun _ => .bind .get fun _ => .bind (.ofExcept _ _) fun _ => ?_
  refine .bind (hostedConnection.preserves_on (preserves_queryRow _)) fun row => ?_
  cases row with
  | none => exact .fail _
  | some session => exact .bind (.require _ _) fun _ => .bind (.require _ _) fun _ => .pure _

theorem preserves_revoke (sessionToken : Bytes) :
    Proc.Preserves (fun s : SqliteStore => s.db.Keeps (Tables.SameStores t₀ A))
      (revokeSessionToken c sessionToken) := by
  refine .bind (.require _ _) fun _ => .bind .get fun _ => .bind (.ofExcept _ _) fun _ => ?_
  refine .bind (connection.preserves_on (preserves_queryRow _)) fun row => ?_
  refine .bind (.require _ _) fun _ => ?_
  refine .bind (connection.preserves_on (preserves_exec ?_)) fun _ => .require _ _
  intro t t' a hf h
  split at hf
  · obtain ⟨rfl, -⟩ := Prod.mk.inj (Except.ok.inj hf)
    exact h
  · obtain ⟨rfl, -⟩ := Prod.mk.inj (Except.ok.inj hf)
    exact h

/-- New rows of a table leave alone what the rest of the tables says. -/
theorem preserves_insertRows {F : Tables → Prop} (name : String)
    (get : Tables → RowTable (OneTimePrekey Bytes))
    (set : RowTable (OneTimePrekey Bytes) → Tables → Tables)
    (hset : ∀ table t, F t → F (set table t)) (userId : Bytes)
    (keys : List (OneTimePrekey Bytes)) :
    Proc.Preserves (Db.Keeps F) (insertRows name get set userId keys) := by
  induction keys with
  | nil => exact .pure _
  | cons key rest ih =>
    refine .bind (preserves_exec fun t t' a hf h => ?_) fun _ => ih
    obtain ⟨table, -, rfl⟩ := insertOneTime_eq_ok hf
    exact hset table t h

/-- The four calls on bundles and mailboxes leave the tables of the authentication calls
alone. -/
theorem preserves_auth_publish (bundle : PrekeyBundle Bytes) :
    Proc.Preserves (fun s : SqliteStore => s.db.Keeps (Tables.SameAuth t₀))
      (publishBundle c.toCrypto bundle) := by
  refine .bind (.require _ _) fun _ => .bind (.require _ _) fun _ => .bind (.ofExcept _ _)
    fun _ => preserves_transaction connection ?_
  refine .bind (connection.preserves_on (preserves_exec fun t t' a hf h => ?_)) fun _ => ?_
  · obtain rfl := upsertBundle_eq_ok hf
    exact h
  refine .bind (connection.preserves_on (preserves_update fun _ h => h)) fun _ => ?_
  refine .bind (connection.preserves_on (preserves_update fun _ h => h)) fun _ => ?_
  refine .bind (connection.preserves_on
    (preserves_insertRows _ Tables.oneTimeEc setOneTimeEc (fun _ _ h => h) _ _)) fun _ => ?_
  exact connection.preserves_on
    (preserves_insertRows _ Tables.oneTimePq setOneTimePq (fun _ _ h => h) _ _)

theorem preserves_auth_acquire (userId : Bytes) :
    Proc.Preserves (fun s : SqliteStore => s.db.Keeps (Tables.SameAuth t₀))
      (acquireBundleForSession userId) := by
  refine preserves_transaction connection ?_
  refine .bind (connection.preserves_on (preserves_queryRow _)) fun row => ?_
  cases row with
  | none => exact .fail _
  | some stored =>
    refine .bind (connection.preserves_on (preserves_query _)) fun ec => ?_
    refine .bind (connection.preserves_on (preserves_query _)) fun pq => ?_
    split
    · refine .bind (connection.preserves_on (preserves_update fun _ h => h)) fun _ => ?_
      exact .bind (connection.preserves_on (preserves_update fun _ h => h)) fun _ => .pure _
    · exact .pure _

theorem preserves_auth_enqueue (userId : Bytes) (envelope : Envelope Bytes) :
    Proc.Preserves (fun s : SqliteStore => s.db.Keeps (Tables.SameAuth t₀))
      (enqueueEnvelope userId envelope) := by
  refine .bind (.ofExcept _ _) fun _ => connection.preserves_on (preserves_exec ?_)
  intro t t' a hf h
  obtain ⟨table, -, ht⟩ := Result.bind_eq_ok.mp hf
  obtain ⟨rfl, -⟩ := Prod.mk.inj (Except.ok.inj ht)
  exact h

theorem preserves_auth_drain (userId : Bytes) (ack : Option UInt64) :
    Proc.Preserves (fun s : SqliteStore => s.db.Keeps (Tables.SameAuth t₀))
      (drainInbox userId ack) := by
  refine preserves_transaction connection ?_
  cases ack with
  | none =>
    refine .bind (connection.preserves_on (preserves_query _)) fun _ => .ofExcept _ _
  | some a =>
    refine .bind (connection.preserves_on (preserves_update fun _ h => h)) fun _ => ?_
    exact .bind (connection.preserves_on (preserves_query _)) fun _ => .ofExcept _ _

end SqliteStore

end PqChat
