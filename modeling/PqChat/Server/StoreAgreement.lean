/-
# The two servers agree on bundles and mailboxes

`InMemoryServer` and `SqliteStore` are run side by side on the same calls of clients.  One counts
the ids of a mailbox for each user, the other has the keys of one table for all; `issued u` lists
the keys that the database has given out for `u`, oldest first, and the in-memory server's id of
an envelope is its place in that list, counted from one.  The list only grows, so what the two
servers have once called an envelope they go on calling it.

Before it stores a bundle the in-memory server makes the checks of `Publishable`, and so does the
database, where a row with an empty blob is then refused as well.  The servers agree on a run
exactly when it publishes no such bundle.

A page ends where the database has selected 128 rows or the next row would exceed the size; the
in-memory server serialises each envelope again to find its size.  A stored row is the encoding of
its envelope and there is no other, so both end at the same envelope.
-/
import PqChat.Lib.Lockstep
import PqChat.Lib.History
import PqChat.Server.Backend
import PqChat.Server.SqliteStores

namespace PqChat

open ByteString Sql

/-! ## 1. Calls and replies -/

/-- A call of a client.  An acknowledgement is the id of an entry on either server. -/
inductive ClientCall
  | publish (bundle : PrekeyBundle Bytes)
  | acquire (userId : Bytes)
  | enqueue (userId : Bytes) (envelope : Envelope Bytes)
  | drain (userId : Bytes) (ack : Option (UInt64 × UInt64))
  deriving DecidableEq, Repr

/-- What a call that succeeds returns. -/
inductive ClientReply
  | done
  | bundle (bundle : PrekeyBundle Bytes)
  | page (items : List (InboxEnvelope Bytes))
  deriving DecidableEq, Repr

/-- The reply, less the ids of its entries. -/
def ClientReply.withoutIds : ClientReply → ClientReply
  | .page items => .page (items.map fun item => { item with inboxId := 0 })
  | reply => reply

/-- Make a call; `side` picks the acknowledged id that is this server's. -/
def ServerApi.client {S : Type} (api : ServerApi Bytes S) (side : UInt64 × UInt64 → UInt64) :
    ClientCall → Proc S ClientReply
  | .publish bundle => do
    api.publishBundle bundle
    pure .done
  | .acquire userId => do
    let bundle ← api.acquireBundleForSession userId
    pure (.bundle bundle)
  | .enqueue userId envelope => do
    api.enqueueEnvelope userId envelope
    pure .done
  | .drain userId ack => do
    let items ← api.drainInbox userId (ack.map side)
    pure (.page items)

/-! ## 2. The relation -/

/-- Two ids of one envelope: its place in the list, and the key at that place. -/
def SameId (issued : List Nat) (a b : UInt64) : Prop :=
  ∃ n, a.toNat = n + 1 ∧ issued[n]? = some b.toNat

/-- Two entries of a mailbox, on either server. -/
structure SameEntry (issued : List Nat) (entry entry' : StoredEnvelope Bytes) : Prop where
  id : SameId issued entry.inboxId entry'.inboxId
  content : entry.content = entry'.content

/-- The two servers are in step. -/
structure StoresInStep (issued : Bytes → List Nat) (s : InMemoryServer Bytes) (t : SqliteStore) :
    Prop where
  reliable : t.db.Reliable
  ordered : t.Ordered
  bundles : t.stores.bundle = s.stores.bundle
  filed : ∀ u bundle, s.stores.bundle u = some bundle →
    bundle.userId = u ∧ bundle.version = kProtocolVersion ∧ bundle.cipherSuite = kCipherSuite
  inbox : ∀ u, List.Forall₂ (SameEntry (issued u)) (s.stores.inbox u) (t.stores.inbox u)
  next : ∀ u, s.stores.last u = (issued u).length
  increasing : ∀ u, (issued u).Pairwise (· < ·)
  le_last : ∀ u, ∀ i ∈ issued u, i ≤ t.stores.last u
  few : ∀ u, (issued u).length ≤ t.stores.last u

section Ids

variable {issued issued' : List Nat} {a a' b b' : UInt64}

theorem SameId.mono (h : SameId issued a b) (hle : issued <+: issued') : SameId issued' a b := by
  obtain ⟨n, ha, hb⟩ := h
  obtain ⟨later, rfl⟩ := hle
  obtain ⟨hn, -⟩ := List.getElem?_eq_some_iff.mp hb
  exact ⟨n, ha, (List.getElem?_append_left hn).trans hb⟩

/-- Ids of one user come in the same order on both servers. -/
theorem SameId.lt_iff (h : issued.Pairwise (· < ·)) (hab : SameId issued a b)
    (hab' : SameId issued a' b') : a < a' ↔ b < b' := by
  obtain ⟨n, ha, hb⟩ := hab
  obtain ⟨m, ha', hb'⟩ := hab'
  rw [UInt64.lt_iff_toNat_lt, UInt64.lt_iff_toNat_lt, ha, ha', Nat.add_lt_add_iff_right]
  obtain ⟨hn, hb⟩ := List.getElem?_eq_some_iff.mp hb
  obtain ⟨hm, hb'⟩ := List.getElem?_eq_some_iff.mp hb'
  rw [List.pairwise_iff_getElem] at h
  rw [← hb, ← hb']
  rcases Nat.lt_trichotomy n m with hlt | rfl | hgt
  · exact iff_of_true hlt (h n m hn hm hlt)
  · exact iff_of_false (Nat.lt_irrefl n) (Nat.lt_irrefl _)
  · exact iff_of_false (Nat.lt_asymm hgt) (Nat.lt_asymm (h m n hm hn hgt))

theorem SameId.le_iff (h : issued.Pairwise (· < ·)) (hab : SameId issued a b)
    (hab' : SameId issued a' b') : a ≤ a' ↔ b ≤ b' := by
  rw [← UInt64.not_lt, ← UInt64.not_lt, hab'.lt_iff h hab]

theorem SameId.eq_iff (h : issued.Pairwise (· < ·)) (hab : SameId issued a b)
    (hab' : SameId issued a' b') : a = a' ↔ b = b' := by
  have hle := hab.le_iff h hab'
  have hge := hab'.le_iff h hab
  refine ⟨fun heq => ?_, fun heq => ?_⟩
  · exact UInt64.le_antisymm (hle.mp (UInt64.le_of_eq heq)) (hge.mp (UInt64.le_of_eq heq.symm))
  · exact UInt64.le_antisymm (hle.mpr (UInt64.le_of_eq heq)) (hge.mpr (UInt64.le_of_eq heq.symm))

end Ids

/-- Lists that are related item by item stay so when as much is dropped from both. -/
theorem forall₂_dropWhile {α β : Type} {R : α → β → Prop} {p : α → Bool} {q : β → Bool}
    {l : List α} {l' : List β} (h : List.Forall₂ R l l') (hpq : ∀ a b, R a b → p a = q b) :
    List.Forall₂ R (l.dropWhile p) (l'.dropWhile q) := by
  induction h with
  | nil => exact .nil
  | @cons a b l l' hab hrest ih =>
    rw [List.dropWhile_cons, List.dropWhile_cons, hpq a b hab]
    split
    · exact ih
    · exact .cons hab hrest

theorem forall₂_getElem? {α β : Type} {R : α → β → Prop} {l : List α} {l' : List β}
    (h : List.Forall₂ R l l') {n : Nat} {a : α} {b : β} (ha : l[n]? = some a)
    (hb : l'[n]? = some b) : R a b := by
  induction h generalizing n with
  | nil => cases ha
  | cons hab _ ih =>
    cases n with
    | zero =>
      obtain rfl := Option.some.inj ha
      obtain rfl := Option.some.inj hb
      exact hab
    | succ n => exact ih ha hb

/-- Two items of a page, on either server. -/
structure SameItem (issued : List Nat) (item item' : InboxEnvelope Bytes) : Prop where
  id : SameId issued item.inboxId item'.inboxId
  envelope : item.envelope = item'.envelope

/-- A row is the encoding of the envelope that it is read back as. -/
theorem serializeEnvelope_of_deserialize {bytes : Bytes} {envelope : Envelope Bytes}
    (h : deserializeEnvelope bytes = .ok envelope) : serializeEnvelope envelope = .ok bytes :=
  (serialize_deserialize .envelope bytes envelope h).1

section Pages

variable {issued : List Nat}

/-- **Both pages end at the same envelope.** -/
theorem drainPage_same {entries : List (InboxEnvelope Bytes)}
    {rows : List (SqliteStore.Row Bytes)}
    (h : List.Forall₂ (SameEntry issued) (entries.map InboxEnvelope.stored)
      (rows.map SqliteStore.Row.stored)) {out out' : List (InboxEnvelope Bytes)} (total : Nat)
    (hout : List.Forall₂ (SameItem issued) out out')
    (hsize : out.length ≤ kMaxDrainInboxBatchItems) :
    ∃ page page', InMemoryServer.drainPage out total entries = .ok page ∧
      SqliteStore.drainPage out' total (rows.take (kMaxDrainInboxBatchItems - out.length)) =
        .ok page' ∧ List.Forall₂ (SameItem issued) page page' := by
  induction entries generalizing rows out out' total with
  | nil =>
    rw [List.map_nil, List.forall₂_nil_left_iff, List.map_eq_nil_iff] at h
    subst h
    exact ⟨out, out', rfl, by rw [List.take_nil]; rfl, hout⟩
  | cons entry entries ih =>
    obtain ⟨head, tail, hentry, hrest, hrows⟩ := List.forall₂_cons_left_iff.mp h
    obtain ⟨row, rows, rfl, rfl, rfl⟩ := List.map_eq_cons_iff.mp hrows
    have hread : deserializeEnvelope row.value = .ok entry.envelope := hentry.content.symm
    rw [InMemoryServer.drainPage, serializeEnvelope_of_deserialize hread]
    change ∃ page page', (if out ≠ [] ∧ (out.length ≥ kMaxDrainInboxBatchItems ∨
        total + (row.value.length + 8 + 8) > kMaxDrainInboxBatchBytes) then Except.ok out
      else InMemoryServer.drainPage (out ++ [entry]) (total + (row.value.length + 8 + 8)) entries) =
        .ok page ∧ _
    rcases Nat.lt_or_eq_of_le hsize with hlt | hfull
    · -- the database has selected the row
      obtain ⟨left, hleft⟩ : ∃ left, kMaxDrainInboxBatchItems - out.length = left + 1 :=
        ⟨kMaxDrainInboxBatchItems - out.length - 1, by omega⟩
      rw [hleft, List.take_succ_cons, SqliteStore.drainPage, hread]
      have hnil : out ≠ [] ↔ out' ≠ [] := by
        rw [ne_eq, ne_eq, ← List.length_eq_zero_iff, ← List.length_eq_zero_iff, hout.length_eq]
      by_cases hcut : out' ≠ [] ∧ total + (row.value.length + 8 + 8) > kMaxDrainInboxBatchBytes
      · rw [if_pos ⟨hnil.mpr hcut.1, .inr hcut.2⟩, if_pos hcut]
        exact ⟨out, out', rfl, rfl, hout⟩
      · rw [if_neg fun h => hcut ⟨hnil.mp h.1, h.2.resolve_left (Nat.not_le_of_lt hlt)⟩,
          if_neg hcut]
        have hitem : SameItem issued entry ⟨UInt64.ofNat row.rowid, entry.envelope⟩ :=
          ⟨hentry.id, rfl⟩
        have hstep := ih hrest (total + (row.value.length + 8 + 8))
          (List.rel_append hout (.cons hitem .nil)) (by rw [List.length_append]; exact hlt)
        rw [List.length_append, List.length_singleton, ← Nat.sub_sub, hleft] at hstep
        exact hstep
    · -- the page is full
      have hne : out ≠ [] := by
        rintro rfl
        cases hfull
      rw [hfull, Nat.sub_self, List.take_zero, if_pos ⟨hne, .inl (Nat.le_refl _)⟩]
      exact ⟨out, out', rfl, rfl, hout⟩

end Pages

/-! ## 3. The calls on the database -/

namespace SqliteStore

/-- A table after a row has been inserted. -/
def RowTable.push {α : Type} (table : RowTable α) (userId : Bytes) (value : α) : RowTable α :=
  ⟨table.rows ++ [⟨table.last + 1, userId, value⟩], table.last + 1⟩

/-- A table after several rows of one user have been inserted. -/
def RowTable.append {α : Type} (userId : Bytes) : List α → RowTable α → RowTable α
  | [], table => table
  | value :: rest, table => append userId rest (table.push userId value)

section Statements

variable {t : SqliteStore} {d : Db Tables}

/-- Nothing is left to do. -/
theorem leaves_pure {α : Type} (hd : d.Reliable) (a : α) :
    Leaves connection (pure a) (connection.set d t) a d.tables :=
  ⟨d, rfl, hd, rfl, rfl⟩

theorem insert_eq {α : Type} {table : RowTable α} (h : table.last + 1 < 2 ^ 63) (userId : Bytes)
    (value : α) : table.insert userId value = .ok (table.push userId value) := if_pos h

theorem insertOneTime_of_ok {name : String} {get : Tables → RowTable (OneTimePrekey Bytes)}
    {set : RowTable (OneTimePrekey Bytes) → Tables → Tables} {userId : Bytes}
    {key : OneTimePrekey Bytes} {t : Tables} (hroom : (get t).last + 1 < 2 ^ 63)
    (hfilled : key.publicKey ≠ []) :
    insertOneTime name get set userId key t = .ok (set ((get t).push userId key) t, ()) := by
  have hcheck : checkNotNull name [("public_key", key.publicKey)] = .ok () :=
    checkNotNull_eq_ok_iff.mpr (List.forall_mem_singleton.mpr hfilled)
  rw [insertOneTime, insert_eq hroom]
  exact congrArg (· >>= fun _ => _) hcheck

theorem insertRows_of_ok {name : String} {get : Tables → RowTable (OneTimePrekey Bytes)}
    {set : RowTable (OneTimePrekey Bytes) → Tables → Tables}
    (hget : ∀ table t, get (set table t) = table)
    (hset : ∀ table table' t, set table (set table' t) = set table t)
    (hself : ∀ t, set (get t) t = t) (userId : Bytes) (keys : List (OneTimePrekey Bytes))
    (hd : d.Reliable) (hroom : (get d.tables).last + keys.length < 2 ^ 63)
    (hfilled : ∀ key ∈ keys, key.publicKey ≠ []) :
    ∃ d', insertRows name get set userId keys d = (.ok (), d') ∧ d'.Reliable ∧
      d'.saved = d.saved ∧ d'.tables = set ((get d.tables).append userId keys) d.tables := by
  induction keys generalizing d with
  | nil => exact ⟨d, rfl, hd, rfl, (hself d.tables).symm⟩
  | cons key rest ih =>
    obtain ⟨hkey, hrest⟩ := List.forall_mem_cons.mp hfilled
    have hlast : (get d.tables).last + 1 < 2 ^ 63 := by
      rw [List.length_cons] at hroom
      omega
    have hins : insertOneTime name get set userId key d.tables =
        .ok (set ((get d.tables).push userId key) d.tables, ()) :=
      insertOneTime_of_ok hlast hkey
    have hexec := exec_of_ok hd hins
    have hroom' : (get (set ((get d.tables).push userId key) d.tables)).last + rest.length <
        2 ^ 63 := by
      rw [hget]
      rw [List.length_cons] at hroom
      change (get d.tables).last + 1 + rest.length < 2 ^ 63
      omega
    obtain ⟨d', hrun, hd', hsaved, htables⟩ := ih (d := d.moved _) hd hroom' hrest
    refine ⟨d', (Proc.bind_ok hexec _).trans hrun, hd', hsaved, htables.trans ?_⟩
    change set ((get (set _ d.tables)).append userId rest) (set _ d.tables) = _
    rw [hget, hset]
    rfl

theorem leaves_insertRows (name : String) (get : Tables → RowTable (OneTimePrekey Bytes))
    (set : RowTable (OneTimePrekey Bytes) → Tables → Tables)
    (hget : ∀ table t, get (set table t) = table)
    (hset : ∀ table table' t, set table (set table' t) = set table t)
    (hself : ∀ t, set (get t) t = t) (userId : Bytes) (keys : List (OneTimePrekey Bytes))
    (hd : t.db.Reliable) (hroom : (get t.db.tables).last + keys.length < 2 ^ 63)
    (hfilled : ∀ key ∈ keys, key.publicKey ≠ []) :
    Leaves connection (connection.on (insertRows name get set userId keys)) t ()
      (set ((get t.db.tables).append userId keys) t.db.tables) := by
  obtain ⟨d, hrun, hd, hsaved, htables⟩ :=
    insertRows_of_ok hget hset hself userId keys hd hroom hfilled
  exact ⟨d, Holder.on_of_ok hrun, hd, hsaved, htables⟩

/-- There are keys left for the one-time keys of the bundle. -/
structure Tables.RoomForKeys (t : Tables) (bundle : PrekeyBundle Bytes) : Prop where
  oneTimeEc : t.oneTimeEc.last + bundle.oneTimeEc.length < 2 ^ 63
  oneTimePq : t.oneTimePq.last + bundle.oneTimePq.length < 2 ^ 63

/-- No blob of the bundle is empty, those of its one-time keys included. -/
structure Filled (bundle : PrekeyBundle Bytes) : Prop where
  columns : ∀ column ∈ bundleColumns bundle, column.2 ≠ []
  oneTimeEc : ∀ key ∈ bundle.oneTimeEc, key.publicKey ≠ []
  oneTimePq : ∀ key ∈ bundle.oneTimePq, key.publicKey ≠ []

theorem filled_of_insertRows {name : String} {get : Tables → RowTable (OneTimePrekey Bytes)}
    {set : RowTable (OneTimePrekey Bytes) → Tables → Tables} {userId : Bytes}
    {keys : List (OneTimePrekey Bytes)} {d' : Db Tables}
    (h : insertRows name get set userId keys d = (.ok (), d')) :
    ∀ key ∈ keys, key.publicKey ≠ [] := by
  induction keys generalizing d with
  | nil => exact List.forall_mem_nil _
  | cons key rest ih =>
    obtain ⟨_, d₁, hkey, hrest⟩ := Proc.bind_eq_ok_iff.mp h
    obtain ⟨t', hinsert⟩ := of_exec hkey
    obtain ⟨_, -, hinsert⟩ := Result.bind_eq_ok.mp hinsert
    obtain ⟨_, hcheck, -⟩ := Result.bind_eq_ok.mp hinsert
    exact List.forall_mem_cons.mpr
      ⟨checkNotNull_eq_ok_iff.mp hcheck _ List.mem_cons_self, ih hrest⟩

/-- What is published has no empty blob. -/
theorem filled_of_publishBundle {c : Crypto Bytes} {bundle : PrekeyBundle Bytes}
    {t' : SqliteStore} (h : publishBundle c bundle t = (.ok (), t')) : Filled bundle := by
  obtain ⟨_, t₁, -, h⟩ := Proc.bind_eq_ok_iff.mp h
  obtain ⟨_, t₂, -, h⟩ := Proc.bind_eq_ok_iff.mp h
  obtain ⟨_, t₃, -, h⟩ := Proc.bind_eq_ok_iff.mp h
  obtain ⟨t₄, t₉, h⟩ := body_of_transaction h
  obtain ⟨_, t₅, hrow, h⟩ := Proc.bind_eq_ok_iff.mp h
  obtain ⟨_, t₆, -, h⟩ := Proc.bind_eq_ok_iff.mp h
  obtain ⟨_, t₇, -, h⟩ := Proc.bind_eq_ok_iff.mp h
  obtain ⟨_, t₈, hec, hpq⟩ := Proc.bind_eq_ok_iff.mp h
  obtain ⟨_, hrow, -⟩ := Holder.on_eq_ok hrow
  obtain ⟨_, hec, -⟩ := Holder.on_eq_ok hec
  obtain ⟨_, hpq, -⟩ := Holder.on_eq_ok hpq
  obtain ⟨_, hrow⟩ := of_exec hrow
  obtain ⟨_, hcheck, -⟩ := Result.bind_eq_ok.mp hrow
  exact ⟨checkNotNull_eq_ok_iff.mp hcheck, filled_of_insertRows hec, filled_of_insertRows hpq⟩

/-- The tables after a bundle has been published. -/
def Tables.withBundle (bundle : PrekeyBundle Bytes) (t : Tables) : Tables :=
  { t with
    bundles := t.bundles.set bundle.userId { bundle with oneTimeEc := [], oneTimePq := [] }
    oneTimeEc := RowTable.append bundle.userId bundle.oneTimeEc
      { t.oneTimeEc with rows := t.oneTimeEc.rows.filter (·.userId ≠ bundle.userId) }
    oneTimePq := RowTable.append bundle.userId bundle.oneTimePq
      { t.oneTimePq with rows := t.oneTimePq.rows.filter (·.userId ≠ bundle.userId) } }

theorem leaves_publishBundle {c : Crypto Bytes} {bundle : PrekeyBundle Bytes}
    (hd : t.db.Reliable) (hclosed : t.db.saved = none)
    (hversion : bundle.version = kProtocolVersion)
    (hsuite : bundle.cipherSuite = kCipherSuite)
    (hverify : verifyPrekeyBundleSignatures c bundle = .ok ())
    (hfilled : Filled bundle) (hroom : t.db.tables.RoomForKeys bundle) :
    Leaves connection (publishBundle c bundle) t () (t.db.tables.withBundle bundle) := by
  unfold publishBundle
  rw [Proc.require_pos hversion, Proc.pure_bind, Proc.require_pos hsuite, Proc.pure_bind, hverify,
    Proc.ofExcept_ok_bind]
  refine leaves_transaction hd hclosed ?_
  rintro ⟨_, _, _, _⟩ hd (rfl : _ = _)
  refine leaves_bind (leaves_exec hd (congrArg (· >>= fun _ => _)
    (checkNotNull_eq_ok_iff.mpr hfilled.columns))) ?_
  rintro ⟨_, _, _, _⟩ hd₁ - (rfl : _ = _)
  refine leaves_bind (leaves_update hd₁ rfl) ?_
  rintro ⟨_, _, _, _⟩ hd₂ - (rfl : _ = _)
  refine leaves_bind (leaves_update hd₂ rfl) ?_
  rintro ⟨_, _, _, _⟩ hd₃ - (rfl : _ = _)
  refine leaves_bind (leaves_insertRows _ Tables.oneTimeEc setOneTimeEc (fun _ _ => rfl)
    (fun _ _ _ => rfl) (fun _ => rfl) _ _ hd₃ hroom.oneTimeEc hfilled.oneTimeEc) ?_
  rintro ⟨_, _, _, _⟩ hd₄ - (rfl : _ = _)
  exact leaves_insertRows _ Tables.oneTimePq setOneTimePq (fun _ _ => rfl) (fun _ _ _ => rfl)
    (fun _ => rfl) _ _ hd₄ hroom.oneTimePq hfilled.oneTimePq

/-- There is a key left for an envelope. -/
def Tables.RoomForEnvelope (t : Tables) : Prop := t.inbox.last + 1 < 2 ^ 63

theorem leaves_enqueueEnvelope (userId : Bytes) {serialized : Bytes} {envelope : Envelope Bytes}
    (hd : t.db.Reliable) (hserialized : serializeEnvelope envelope = .ok serialized)
    (hroom : t.db.tables.RoomForEnvelope) :
    Leaves connection (enqueueEnvelope userId envelope) t ()
      { t.db.tables with inbox := t.db.tables.inbox.push userId serialized } := by
  unfold enqueueEnvelope
  rw [hserialized, Proc.ofExcept_ok_bind]
  exact leaves_exec hd (congrArg (· >>= _) (insert_eq hroom userId serialized))

/-- A mailbox table after an acknowledgement. -/
def acked (userId : Bytes) (ack : Option UInt64) (inbox : RowTable Bytes) : RowTable Bytes :=
  match ack with
  | none => inbox
  | some a => ackInbox userId a inbox

theorem leaves_selectPage {userId : Bytes} {page : List (InboxEnvelope Bytes)}
    (hd : t.db.Reliable)
    (hpage : drainPage [] 0 (selectInbox userId kMaxDrainInboxBatchItems t.db.tables.inbox) =
      .ok page) :
    Leaves connection (do
        let rows ← connection.on
          (query fun t => selectInbox userId kMaxDrainInboxBatchItems t.inbox)
        Proc.ofExcept "" (drainPage [] 0 rows)) t page t.db.tables := by
  refine leaves_bind (leaves_query hd rfl) ?_
  rintro ⟨_, _, _, _⟩ hd - (rfl : _ = _)
  change Leaves connection (Proc.ofExcept "" (drainPage [] 0
    (selectInbox userId kMaxDrainInboxBatchItems t.db.tables.inbox))) _ _ _
  rw [hpage]
  exact leaves_pure hd page

theorem leaves_drainInbox {userId : Bytes} {ack : Option UInt64}
    {page : List (InboxEnvelope Bytes)} (hd : t.db.Reliable) (hclosed : t.db.saved = none)
    (hpage : drainPage [] 0 (selectInbox userId kMaxDrainInboxBatchItems
      (acked userId ack t.db.tables.inbox)) = .ok page) :
    Leaves connection (drainInbox userId ack) t page
      { t.db.tables with inbox := acked userId ack t.db.tables.inbox } := by
  refine leaves_transaction hd hclosed ?_
  rintro ⟨_, _, _, _⟩ hd (rfl : _ = _)
  cases ack with
  | none => exact leaves_selectPage hd hpage
  | some a =>
    refine leaves_bind (leaves_update hd rfl) ?_
    rintro ⟨_, _, _, _⟩ hd - (rfl : _ = _)
    exact leaves_selectPage hd hpage

/-- A stored bundle as it is read back. -/
def readBundle (userId : Bytes) (stored : PrekeyBundle Bytes) : PrekeyBundle Bytes :=
  { stored with
    userId, version := cString stored.version, cipherSuite := cString stored.cipherSuite }

section Acquire

variable {userId : Bytes} {stored : PrekeyBundle Bytes}

theorem leaves_acquire_pair (hd : t.db.Reliable) (hclosed : t.db.saved = none)
    (hstored : t.db.tables.bundles.get userId = some stored) {ec pq : Row (OneTimePrekey Bytes)}
    (hec : firstRow t.db.tables.oneTimeEc userId = some ec)
    (hpq : firstRow t.db.tables.oneTimePq userId = some pq) :
    Leaves connection (acquireBundleForSession userId) t
      { readBundle userId stored with oneTimeEc := [ec.value], oneTimePq := [pq.value] }
      { t.db.tables with
        oneTimeEc := { t.db.tables.oneTimeEc with
          rows := t.db.tables.oneTimeEc.rows.filter (·.rowid ≠ ec.rowid) }
        oneTimePq := { t.db.tables.oneTimePq with
          rows := t.db.tables.oneTimePq.rows.filter (·.rowid ≠ pq.rowid) } } := by
  refine leaves_transaction hd hclosed ?_
  rintro ⟨_, _, _, _⟩ hd (rfl : _ = _)
  refine leaves_bind (leaves_queryRow hd hstored) ?_
  rintro ⟨_, _, _, _⟩ hd - (rfl : _ = _)
  refine leaves_bind (leaves_query hd hec) ?_
  rintro ⟨_, _, _, _⟩ hd - (rfl : _ = _)
  refine leaves_bind (leaves_query hd hpq) ?_
  rintro ⟨_, _, _, _⟩ hd - (rfl : _ = _)
  refine leaves_bind (leaves_update hd rfl) ?_
  rintro ⟨_, _, _, _⟩ hd - (rfl : _ = _)
  refine leaves_bind (leaves_update hd rfl) ?_
  rintro ⟨_, _, _, _⟩ hd - (rfl : _ = _)
  exact leaves_pure hd _

theorem leaves_acquire_none (hd : t.db.Reliable) (hclosed : t.db.saved = none)
    (hstored : t.db.tables.bundles.get userId = some stored)
    (hnone : firstRow t.db.tables.oneTimeEc userId = none ∨
      firstRow t.db.tables.oneTimePq userId = none) :
    Leaves connection (acquireBundleForSession userId) t (readBundle userId stored)
      t.db.tables := by
  refine leaves_transaction hd hclosed ?_
  rintro ⟨_, _, _, _⟩ hd (rfl : _ = _)
  refine leaves_bind (leaves_queryRow hd hstored) ?_
  rintro ⟨_, _, _, _⟩ hd - (rfl : _ = _)
  refine leaves_bind (leaves_query hd rfl) ?_
  rintro ⟨_, _, _, _⟩ hd - (rfl : _ = _)
  refine leaves_bind (leaves_query hd rfl) ?_
  rintro ⟨_, _, _, _⟩ hd - (rfl : _ = _)
  dsimp only
  split
  · rename_i ec pq hec hpq
    rcases hnone with h | h
    · cases h.symm.trans hec
    · cases h.symm.trans hpq
  · exact leaves_pure hd _

/-- Without a bundle the transaction is rolled back. -/
theorem acquire_refused (hd : t.db.Reliable) (hclosed : t.db.saved = none)
    (hstored : t.db.tables.bundles.get userId = none) :
    ∃ d, acquireBundleForSession userId t =
        (.error "no prekey bundle for user", connection.set d t) ∧ d.Reliable ∧ d.saved = none ∧
      d.tables = t.db.tables := by
  refine ⟨_, @transaction_of_error _ _ _ connection _ t
    (connection.set (t.db.begun.moved t.db.tables) t) _ hd hclosed ?_ rfl, hd, rfl, rfl⟩
  refine (Proc.bind_ok (Holder.on_of_ok (queryRow_of_ok (d := t.db.begun) hd _)) _).trans ?_
  simp only [show t.db.begun.tables.bundles.get userId = none from hstored]
  rfl

end Acquire

end Statements

end SqliteStore

/-! ## 4. One call -/

section Steps

variable {c : Crypto Bytes} {issued : Bytes → List Nat} {s s' : InMemoryServer Bytes}
  {t t' : SqliteStore}

/-- A call that leaves the mailboxes alone. -/
theorem StoresInStep.of_bundles (h : StoresInStep issued s t) (hreliable : t'.db.Reliable)
    (hordered : t'.Ordered) (hinbox : s'.stores.inbox = s.stores.inbox)
    (hinbox' : t'.stores.inbox = t.stores.inbox) (hlast : s'.stores.last = s.stores.last)
    (hlast' : t'.stores.last = t.stores.last) (hbundles : t'.stores.bundle = s'.stores.bundle)
    (hfiled : ∀ u bundle, s'.stores.bundle u = some bundle →
      bundle.userId = u ∧ bundle.version = kProtocolVersion ∧ bundle.cipherSuite = kCipherSuite) :
    StoresInStep issued s' t' where
  reliable := hreliable
  ordered := hordered
  bundles := hbundles
  filed := hfiled
  inbox := by
    rw [hinbox, hinbox']
    exact h.inbox
  next := by
    rw [hlast]
    exact h.next
  increasing := h.increasing
  le_last := by
    rw [hlast']
    exact h.le_last
  few := by
    rw [hlast']
    exact h.few

/-- A call that has only moved the connection. -/
theorem StoresInStep.of_tables (h : StoresInStep issued s t) {d : Db SqliteStore.Tables}
    (hd : d.Reliable) (hclosed : d.saved = none) (htables : d.tables = t.db.tables) :
    StoresInStep issued s { t with db := d } := by
  have hstores : ({ t with db := d } : SqliteStore).stores = t.stores :=
    congrArg SqliteStore.Tables.stores htables
  have hordered : ({ t with db := d } : SqliteStore).Ordered :=
    ⟨hclosed, htables.symm ▸ h.ordered.tables⟩
  exact h.of_bundles hd hordered rfl (congrArg Stores.inbox hstores) rfl
    (congrArg Stores.last hstores) ((congrArg Stores.bundle hstores).trans h.bundles) h.filed

/-- The checks of `PublishBundle`, which the two servers share. -/
structure Publishable (c : Crypto Bytes) (bundle : PrekeyBundle Bytes) : Prop where
  version : bundle.version = kProtocolVersion
  cipherSuite : bundle.cipherSuite = kCipherSuite
  signatures : verifyPrekeyBundleSignatures c bundle = .ok ()

/-- In memory nothing else is checked. -/
theorem InMemoryServer.publishBundle_eq_ok {bundle : PrekeyBundle Bytes}
    (h : Publishable c bundle) (s : InMemoryServer Bytes) :
    ∃ s', InMemoryServer.publishBundle c bundle s = (.ok (), s') := by
  unfold InMemoryServer.publishBundle
  rw [Proc.require_pos h.version, Proc.pure_bind, Proc.require_pos h.cipherSuite, Proc.pure_bind,
    h.signatures, Proc.ofExcept_ok_bind]
  exact ⟨_, rfl⟩

theorem publish_inStep {bundle : PrekeyBundle Bytes} (h : StoresInStep issued s t)
    (hfilled : Publishable c bundle → SqliteStore.Filled bundle)
    (hroom : t.db.tables.RoomForKeys bundle) :
    Lockstep (InMemoryServer.publishBundle c bundle) (SqliteStore.publishBundle c bundle)
      (fun _ _ => StoresInStep issued) (StoresInStep issued) s t := by
  by_cases hversion : bundle.version = kProtocolVersion
  swap
  · unfold InMemoryServer.publishBundle SqliteStore.publishBundle
    exact Lockstep.require_bind Iff.rfl h fun hok => absurd hok hversion
  by_cases hsuite : bundle.cipherSuite = kCipherSuite
  swap
  · unfold InMemoryServer.publishBundle SqliteStore.publishBundle
    exact Lockstep.require_bind Iff.rfl h fun _ =>
      Lockstep.require_bind Iff.rfl h fun hok => absurd hok hsuite
  rcases hverify : verifyPrekeyBundleSignatures c bundle with e | _
  · unfold InMemoryServer.publishBundle SqliteStore.publishBundle
    exact Lockstep.require_bind Iff.rfl h fun _ => Lockstep.require_bind Iff.rfl h fun _ =>
      Lockstep.ofExcept_bind h fun a ha => absurd (hverify.symm.trans ha) nofun
  -- both publish
  have hpublishable : Publishable c bundle := ⟨hversion, hsuite, hverify⟩
  obtain ⟨d, hy, hd, -, -⟩ := SqliteStore.leaves_publishBundle h.reliable h.ordered.closed hversion
    hsuite hverify (hfilled hpublishable) hroom
  obtain ⟨s', hx⟩ := InMemoryServer.publishBundle_eq_ok hpublishable s
  refine Lockstep.of_ok hx hy ?_
  have hmem := InMemoryServer.publishBundle_stores (c := c) bundle s
  have hsql := SqliteStore.publishBundle_stores (c := c) bundle h.ordered
  rw [Proc.wp_apply, hx] at hmem
  rw [Proc.wp_apply, hy] at hsql
  obtain ⟨hordered, hsql⟩ := hsql
  obtain ⟨-, hbundle⟩ := hmem.accepted rfl
  obtain ⟨-, hbundle'⟩ := hsql.accepted rfl
  refine h.of_bundles hd hordered hmem.inbox hsql.inbox hmem.last hsql.last ?_ fun u b hb => ?_
  · exact hbundle'.trans ((congrArg (Function.update · _ _) h.bundles).trans hbundle.symm)
  · have hget := (congrFun hbundle u).symm.trans hb
    by_cases hu : u = bundle.userId
    · subst hu
      rw [Function.update_self] at hget
      obtain rfl := Option.some.inj hget
      exact ⟨rfl, hversion, hsuite⟩
    · rw [Function.update_of_ne hu] at hget
      exact h.filed u b hget

/-- What a handed-out bundle says about what is left. -/
theorem handsOut_unique {before before' after after' : Stores Bytes} {userId : Bytes}
    {bundle : PrekeyBundle Bytes} (h : before.HandsOut userId bundle after)
    (h' : before'.HandsOut userId bundle after') (hsame : before'.bundle = before.bundle) :
    after'.bundle = after.bundle := by
  cases h with
  | pair stored ec pq ecs pqs _ hstored hec hpq hec' _ hafter =>
    cases h' with
    | pair stored₁ ec₁ pq₁ ecs₁ pqs₁ _ hstored₁ hec₁ hpq₁ hec₁' _ hafter₁ =>
      rw [hsame, hstored] at hstored₁
      obtain rfl := Option.some.inj hstored₁
      obtain ⟨-, rfl⟩ := List.cons.inj (hec.symm.trans hec₁)
      obtain ⟨-, rfl⟩ := List.cons.inj (hpq.symm.trans hpq₁)
      rw [hafter, hafter₁, hsame]
    | none _ hec₁ => exact absurd (hec'.symm.trans hec₁) nofun
  | none _ hec hpq hafter =>
    cases h' with
    | pair _ _ _ _ _ _ _ _ _ hec₁' => exact absurd (hec.symm.trans hec₁') nofun
    | none _ _ _ hafter₁ => rw [hafter, hafter₁, hsame]

/-- Both servers hand out the bundle. -/
theorem StoresInStep.acquired (h : StoresInStep issued s t) {userId : Bytes}
    {bundle : PrekeyBundle Bytes} (hreliable : t'.db.Reliable)
    (hx : InMemoryServer.acquireBundleForSession userId s = (.ok bundle, s'))
    (hy : SqliteStore.acquireBundleForSession userId t = (.ok bundle, t')) :
    StoresInStep issued s' t' := by
  have hmem := InMemoryServer.acquireBundleForSession_stores userId s
  have hsql := SqliteStore.acquireBundleForSession_stores userId h.ordered
  rw [Proc.wp_apply, hx] at hmem
  rw [Proc.wp_apply, hy] at hsql
  obtain ⟨hordered, hsql⟩ := hsql
  have hout := hmem.accepted bundle rfl
  have hout' := hsql.accepted bundle rfl
  refine h.of_bundles hreliable hordered hmem.inbox hsql.inbox hmem.last hsql.last
    (handsOut_unique hout hout' h.bundles) fun u b hb => ?_
  cases hout with
  | pair stored ec pq ecs pqs _ hstored _ _ _ _ hafter =>
    rw [hafter] at hb
    by_cases hu : u = userId
    · subst hu
      rw [Function.update_self] at hb
      obtain rfl := Option.some.inj hb
      exact h.filed u stored hstored
    · rw [Function.update_of_ne hu] at hb
      exact h.filed u b hb
  | none _ _ _ hafter =>
    rw [hafter] at hb
    exact h.filed u b hb

theorem SqliteStore.firstRow_eq_head? {α : Type} (table : SqliteStore.RowTable α) (u : Bytes) :
    SqliteStore.firstRow table u = (table.of u).head? := by
  rw [SqliteStore.RowTable.of, List.head?_filter]
  rfl

theorem SqliteStore.firstRow_eq_none_iff {α : Type} (table : SqliteStore.RowTable α) (u : Bytes) :
    SqliteStore.firstRow table u = none ↔ (table.of u).map SqliteStore.Row.value = [] := by
  rw [SqliteStore.firstRow_eq_head?, List.head?_eq_none_iff, List.map_eq_nil_iff]

/-- The stored bundle is read back as it was published. -/
theorem StoresInStep.readBundle_eq (h : StoresInStep issued s t) {userId : Bytes}
    {stored : PrekeyBundle Bytes} {store : InMemoryServer.BundleStore Bytes}
    (hstored : t.db.tables.bundles.get userId = some stored)
    (hstore : s.bundles.get userId = some store) (ecs pqs : List (OneTimePrekey Bytes)) :
    { SqliteStore.readBundle userId stored with oneTimeEc := ecs, oneTimePq := pqs } =
        { store.baseBundle with oneTimeEc := ecs, oneTimePq := pqs } ∧
      (t.db.tables.oneTimeEc.of userId).map SqliteStore.Row.value = store.oneTimeEcPool ∧
      (t.db.tables.oneTimePq.of userId).map SqliteStore.Row.value = store.oneTimePqPool := by
  have hget : s.stores.bundle userId = some store.bundle :=
    congrArg (Option.map InMemoryServer.BundleStore.bundle) hstore
  obtain ⟨huser, hversion, hsuite⟩ := h.filed userId store.bundle hget
  have hsame : some { stored with
      oneTimeEc := (t.db.tables.oneTimeEc.of userId).map SqliteStore.Row.value
      oneTimePq := (t.db.tables.oneTimePq.of userId).map SqliteStore.Row.value } =
      some store.bundle := by
    rw [← hget, ← h.bundles]
    simp only [SqliteStore.stores, SqliteStore.Tables.stores, hstored, Option.map_some]
  have hbundle := Option.some.inj hsame
  refine ⟨?_, congrArg PrekeyBundle.oneTimeEc hbundle, congrArg PrekeyBundle.oneTimePq hbundle⟩
  have hbase := congrArg
    (fun b : PrekeyBundle Bytes => { b with oneTimeEc := ecs, oneTimePq := pqs }) hbundle
  refine Eq.trans ?_ hbase
  rw [← hbundle] at huser hversion hsuite
  have hclean : ∀ {x y : Bytes}, x = y → cString y = y → cString x = x := by
    rintro x _ rfl h
    exact h
  simp only [SqliteStore.readBundle, ← show stored.userId = userId from huser,
    hclean (show stored.version = _ from hversion) (by decide),
    hclean (show stored.cipherSuite = _ from hsuite) (by decide)]

theorem acquire_inStep {userId : Bytes} (h : StoresInStep issued s t) :
    Lockstep (InMemoryServer.acquireBundleForSession userId)
      (SqliteStore.acquireBundleForSession userId)
      (fun a b s' t' => a = b ∧ StoresInStep issued s' t') (StoresInStep issued) s t := by
  have hclosed := h.ordered.closed
  have hsame := congrFun h.bundles userId
  rcases hstore : s.bundles.get userId with _ | store <;>
    rcases hstored : t.db.tables.bundles.get userId with _ | stored
  · -- nobody has published for the user
    obtain ⟨d, hy, hd, hsaved, htables⟩ := SqliteStore.acquire_refused h.reliable hclosed hstored
    refine Lockstep.of_error (e := "no prekey bundle for user") ?_ hy
      (h.of_tables hd hsaved htables)
    rw [InMemoryServer.acquireBundleForSession, Proc.get_bind_apply, hstore]
    rfl
  · simp [SqliteStore.stores, SqliteStore.Tables.stores, InMemoryServer.stores, hstore,
      hstored] at hsame
  · simp [SqliteStore.stores, SqliteStore.Tables.stores, InMemoryServer.stores, hstore,
      hstored] at hsame
  obtain ⟨hread, hecs, hpqs⟩ := h.readBundle_eq hstored hstore [] []
  by_cases hpools : store.oneTimeEcPool = [] ∨ store.oneTimePqPool = []
  · -- a pool is empty
    have hrows : SqliteStore.firstRow t.db.tables.oneTimeEc userId = none ∨
        SqliteStore.firstRow t.db.tables.oneTimePq userId = none := by
      rw [SqliteStore.firstRow_eq_none_iff, SqliteStore.firstRow_eq_none_iff, hecs, hpqs]
      exact hpools
    obtain ⟨d, hy, hd, -, -⟩ := SqliteStore.leaves_acquire_none h.reliable hclosed hstored hrows
    obtain ⟨hec, hpq⟩ := h.ordered.tables.base hstored
    have hbundle : SqliteStore.readBundle userId stored =
        { store.baseBundle with oneTimeEc := [], oneTimePq := [] } := by
      rw [← hread]
      simp only [SqliteStore.readBundle, hec, hpq]
    rw [hbundle] at hy
    have hx : InMemoryServer.acquireBundleForSession userId s =
        (.ok { store.baseBundle with oneTimeEc := [], oneTimePq := [] }, s) := by
      rw [InMemoryServer.acquireBundleForSession, Proc.get_bind_apply, hstore]
      dsimp only
      rcases hpools with hnil | hnil
      · rw [hnil]
        rfl
      · rw [hnil]
        cases store.oneTimeEcPool <;> rfl
    exact Lockstep.of_ok hx hy ⟨rfl, h.acquired hd hx hy⟩
  · -- one key of each kind
    obtain ⟨hec, hpq⟩ := not_or.mp hpools
    obtain ⟨ec, ecs, hec⟩ := List.exists_cons_of_ne_nil hec
    obtain ⟨pq, pqs, hpq⟩ := List.exists_cons_of_ne_nil hpq
    rw [hec] at hecs
    rw [hpq] at hpqs
    obtain ⟨ecRow, ecRows, hecRows, rfl, -⟩ := List.map_eq_cons_iff.mp hecs
    obtain ⟨pqRow, pqRows, hpqRows, rfl, -⟩ := List.map_eq_cons_iff.mp hpqs
    have hecFirst : SqliteStore.firstRow t.db.tables.oneTimeEc userId = some ecRow := by
      rw [SqliteStore.firstRow_eq_head?, hecRows]
      rfl
    have hpqFirst : SqliteStore.firstRow t.db.tables.oneTimePq userId = some pqRow := by
      rw [SqliteStore.firstRow_eq_head?, hpqRows]
      rfl
    obtain ⟨d, hy, hd, -, -⟩ := SqliteStore.leaves_acquire_pair h.reliable hclosed hstored
      hecFirst hpqFirst
    rw [(h.readBundle_eq hstored hstore [ecRow.value] [pqRow.value]).1] at hy
    have hx : ∃ s', InMemoryServer.acquireBundleForSession userId s = (.ok
        { store.baseBundle with oneTimeEc := [ecRow.value], oneTimePq := [pqRow.value] }, s') := by
      rw [InMemoryServer.acquireBundleForSession, Proc.get_bind_apply, hstore]
      dsimp only
      rw [hec, hpq]
      exact ⟨_, rfl⟩
    obtain ⟨s', hx⟩ := hx
    exact Lockstep.of_ok hx hy ⟨rfl, h.acquired hd hx hy⟩

theorem enqueue_inStep {userId : Bytes} {envelope : Envelope Bytes} {bytes : Bytes}
    (h : StoresInStep issued s t) (hread : deserializeEnvelope bytes = .ok envelope)
    (hroom : t.db.tables.RoomForEnvelope) :
    Lockstep (InMemoryServer.enqueueEnvelope userId envelope)
      (SqliteStore.enqueueEnvelope userId envelope)
      (fun _ _ => StoresInStep (Function.update issued userId
        (issued userId ++ [t.db.tables.inbox.last + 1])))
      (StoresInStep issued) s t := by
  have hserialized := serializeEnvelope_of_deserialize hread
  obtain ⟨d, hy, hd, -, -⟩ := SqliteStore.leaves_enqueueEnvelope userId h.reliable hserialized
    hroom
  obtain ⟨s', hx, hlast⟩ : ∃ s', InMemoryServer.enqueueEnvelope userId envelope s = (.ok (), s') ∧
      s'.stores.last = Function.update s.stores.last userId
        ((s.nextInboxIdByUser.get userId).getD 0 + 1).toNat :=
    ⟨_, rfl, Map.comp_get_set (fun n => (Option.getD n 0).toNat) s.nextInboxIdByUser userId _⟩
  refine Lockstep.of_ok hx hy ?_
  have hmem := InMemoryServer.enqueueEnvelope_stores userId envelope True s
  have hsql := SqliteStore.enqueueEnvelope_stores userId envelope h.ordered
  rw [Proc.wp_apply, hx] at hmem
  rw [Proc.wp_apply, hy] at hsql
  obtain ⟨hordered, hsql⟩ := hsql
  have hsurvives : SqliteStore.Survives envelope := by
    intro bytes' hbytes'
    obtain rfl := Except.ok.inj (hserialized.symm.trans hbytes')
    exact hread
  obtain ⟨entry, hcontent, hinbox, hnext⟩ := hmem.accepted rfl
  obtain ⟨entry', hcontent', hinbox', hnext'⟩ := hsql.accepted rfl
  -- neither counter is at its end
  have hfew := h.few userId
  have hroom' : t.stores.last userId + 1 < 2 ^ 63 := hroom
  rw [h.next userId] at hnext
  obtain ⟨hid, hlastUser, -⟩ := hnext (by omega)
  obtain ⟨hid', hlastUser', -⟩ := hnext' (by omega)
  have hlast' : ∀ u, (SqliteStore.connection.set d t).stores.last u = t.db.tables.inbox.last + 1 :=
    fun _ => hlastUser'
  have hsame : SameEntry (issued userId ++ [t.db.tables.inbox.last + 1]) entry entry' := by
    refine ⟨⟨(issued userId).length, hid, ?_⟩, (hcontent trivial).trans (hcontent' hsurvives).symm⟩
    rw [List.getElem?_concat_length, hid']
    rfl
  have hbound : ∀ u, ∀ i ∈ issued u, i ≤ t.db.tables.inbox.last := h.le_last
  have hlengths : ∀ u, (issued u).length ≤ t.db.tables.inbox.last := h.few
  refine ⟨hd, hordered, hsql.bundle.trans (h.bundles.trans hmem.bundle.symm), ?_, ?_, ?_, ?_, ?_,
    ?_⟩
  · rw [hmem.bundle]
    exact h.filed
  · intro u
    rw [hinbox, hinbox']
    by_cases hu : u = userId
    · subst hu
      rw [Function.update_self, Function.update_self, Function.update_self]
      exact List.rel_append ((h.inbox u).imp fun _ _ hab =>
        ⟨hab.id.mono (List.prefix_append _ _), hab.content⟩) (.cons hsame .nil)
    · rw [Function.update_of_ne hu, Function.update_of_ne hu, Function.update_of_ne hu]
      exact h.inbox u
  · intro u
    by_cases hu : u = userId
    · subst hu
      rw [hlastUser, Function.update_self, List.length_append]
      rfl
    · rw [hlast, Function.update_of_ne hu, Function.update_of_ne hu]
      exact h.next u
  · intro u
    by_cases hu : u = userId
    · subst hu
      rw [Function.update_self, List.pairwise_append]
      refine ⟨h.increasing u, List.pairwise_singleton _ _, fun i hi j hj => ?_⟩
      rw [List.mem_singleton.mp hj]
      exact Nat.lt_succ_of_le (hbound u i hi)
    · rw [Function.update_of_ne hu]
      exact h.increasing u
  · intro u i hi
    rw [hlast']
    by_cases hu : u = userId
    · subst hu
      rw [Function.update_self] at hi
      rcases List.mem_append.mp hi with hi | hi
      · exact (hbound u i hi).trans (Nat.le_succ _)
      · rw [List.mem_singleton.mp hi]
    · rw [Function.update_of_ne hu] at hi
      exact (hbound u i hi).trans (Nat.le_succ _)
  · intro u
    rw [hlast']
    by_cases hu : u = userId
    · subst hu
      rw [Function.update_self, List.length_append]
      exact Nat.succ_le_succ (hlengths u)
    · rw [Function.update_of_ne hu]
      exact (hlengths u).trans (Nat.le_succ _)

/-- A mailbox after an acknowledgement. -/
def InMemoryServer.acked (ack : Option UInt64) (entries : List (InboxEnvelope Bytes)) :
    List (InboxEnvelope Bytes) :=
  match ack with
  | none => entries
  | some a => entries.dropWhile fun entry => entry.inboxId ≤ a

theorem InMemoryServer.drainInbox_of_page {userId : Bytes} {ack : Option UInt64}
    {page : List (InboxEnvelope Bytes)}
    (hpage : InMemoryServer.drainPage [] 0
      (InMemoryServer.acked ack ((s.inbox.get userId).getD [])) = .ok page) :
    ∃ s', InMemoryServer.drainInbox userId ack s = (.ok page, s') ∧
      s'.stores.bundle = s.stores.bundle ∧ s'.stores.last = s.stores.last ∧
      s'.stores.inbox = Function.update s.stores.inbox userId
        ((InMemoryServer.acked ack ((s.inbox.get userId).getD [])).map InboxEnvelope.stored) := by
  unfold InMemoryServer.drainInbox
  rw [Proc.get_bind_apply]
  rcases hentries : s.inbox.get userId with _ | entries
  · -- a mailbox that was never written to is empty
    have hempty : InMemoryServer.acked ack ((none : Option (List (InboxEnvelope Bytes))).getD []) =
        [] := by
      cases ack <;> rfl
    have hinbox : s.stores.inbox userId = [] :=
      congrArg (fun l => (Option.getD l []).map InboxEnvelope.stored) hentries
    rw [hentries, hempty] at hpage
    obtain rfl := Except.ok.inj hpage
    refine ⟨s, rfl, rfl, rfl, ?_⟩
    rw [hempty, List.map_nil, ← hinbox, Function.update_eq_self]
  · rw [hentries] at hpage
    refine ⟨{ s with inbox := s.inbox.set userId (InMemoryServer.acked ack entries) }, ?_, rfl, rfl,
      Map.comp_get_set (fun l => (l.getD []).map InboxEnvelope.stored) s.inbox userId _⟩
    cases ack with
    | none =>
      change Proc.ofExcept ""
        (InMemoryServer.drainPage [] 0 (InMemoryServer.acked none entries)) _ = _
      rw [show InMemoryServer.drainPage [] 0 (InMemoryServer.acked none entries) = _ from hpage]
      rfl
    | some a =>
      change Proc.ofExcept ""
        (InMemoryServer.drainPage [] 0 (InMemoryServer.acked (some a) entries)) _ = _
      rw [show InMemoryServer.drainPage [] 0 (InMemoryServer.acked (some a) entries) = _ from hpage]
      rfl

/-- What is acknowledged goes from both mailboxes. -/
theorem StoresInStep.acked (h : StoresInStep issued s t) {userId : Bytes}
    {ack : Option (UInt64 × UInt64)}
    (hack : ∀ a ∈ ack, SameId (issued userId) a.1 a.2) :
    List.Forall₂ (SameEntry (issued userId))
      ((InMemoryServer.acked (ack.map Prod.fst) ((s.inbox.get userId).getD [])).map
        InboxEnvelope.stored)
      (((SqliteStore.acked userId (ack.map Prod.snd) t.db.tables.inbox).of userId).map
        SqliteStore.Row.stored) := by
  cases ack with
  | none => exact h.inbox userId
  | some a =>
    have hsame := hack a rfl
    have hrows := (SqliteStore.ackInbox_of h.ordered.tables.inbox userId a.2).1.some a.2 rfl ?_
    · rw [Option.map_some, Option.map_some]
      change List.Forall₂ _ ((List.dropWhile _ _).map _)
        (((SqliteStore.ackInbox userId a.2 t.db.tables.inbox).of userId).map _)
      rw [hrows]
      have hkept := forall₂_dropWhile (p := fun entry => entry.inboxId ≤ a.1)
        (q := fun entry => entry.inboxId ≤ a.2) (h.inbox userId) fun entry entry' hentry =>
          decide_eq_decide.mpr (hentry.id.le_iff (h.increasing userId) hsame)
      change List.Forall₂ _ ((((s.inbox.get userId).getD []).map _).dropWhile _) _ at hkept
      rw [List.dropWhile_map] at hkept
      exact hkept
    · obtain ⟨n, -, hn⟩ := hsame
      have hle := h.le_last userId _ (List.mem_of_getElem? hn)
      exact hle.trans_lt h.ordered.tables.inbox.last_lt

theorem drain_inStep {userId : Bytes} {ack : Option (UInt64 × UInt64)}
    (h : StoresInStep issued s t) (hack : ∀ a ∈ ack, SameId (issued userId) a.1 a.2) :
    Lockstep (InMemoryServer.drainInbox userId (ack.map Prod.fst))
      (SqliteStore.drainInbox userId (ack.map Prod.snd))
      (fun page page' s' t' => List.Forall₂ (SameItem (issued userId)) page page' ∧
        StoresInStep issued s' t') (StoresInStep issued) s t := by
  have hkept := h.acked hack
  obtain ⟨page, page', hpage, hpage', hsame⟩ := drainPage_same hkept 0 .nil (Nat.zero_le _)
  obtain ⟨s', hx, hbundle, hlast, hinbox⟩ := InMemoryServer.drainInbox_of_page hpage
  obtain ⟨d, hy, hd, -, htables⟩ := SqliteStore.leaves_drainInbox h.reliable h.ordered.closed hpage'
  refine Lockstep.of_ok hx hy ⟨hsame, ?_⟩
  have hsql := SqliteStore.drainInbox_stores userId (ack.map Prod.snd) h.ordered
  rw [Proc.wp_apply, hy] at hsql
  obtain ⟨hordered, hsql⟩ := hsql
  refine ⟨hd, hordered, hsql.bundle.trans (h.bundles.trans hbundle.symm), ?_, fun u => ?_, ?_,
    h.increasing, ?_, ?_⟩
  · rw [hbundle]
    exact h.filed
  · rw [hinbox]
    by_cases hu : u = userId
    · subst hu
      rw [Function.update_self]
      have hrows : (SqliteStore.connection.set d t).stores.inbox u =
          ((SqliteStore.acked u (ack.map Prod.snd) t.db.tables.inbox).of u).map
            SqliteStore.Row.stored :=
        congrArg (fun tables : SqliteStore.Tables => tables.stores.inbox u) htables
      rw [hrows]
      exact hkept
    · rw [Function.update_of_ne hu, hsql.others u hu]
      exact h.inbox u
  · rw [hlast]
    exact h.next
  · rw [hsql.last]
    exact h.le_last
  · rw [hsql.last]
    exact h.few

/-- Every statement of the call finds room for its rows. -/
def SqliteStore.Tables.Room (t : SqliteStore.Tables) : ClientCall → Prop
  | .publish bundle => t.RoomForKeys bundle
  | .enqueue _ _ => t.RoomForEnvelope
  | _ => True

/-- Two replies to a call that say the same. -/
structure SameReply (issued : Bytes → List Nat) (call : ClientCall) (r r' : ClientReply) :
    Prop where
  content : r.withoutIds = r'.withoutIds
  ids : ∀ user ack, call = .drain user ack → ∀ items items', r = .page items → r' = .page items' →
    List.Forall₂ (SameItem (issued user)) items items'

theorem withoutIds_page {issued : List Nat} {items items' : List (InboxEnvelope Bytes)}
    (h : List.Forall₂ (SameItem issued) items items') :
    (ClientReply.page items).withoutIds = (ClientReply.page items').withoutIds := by
  refine congrArg ClientReply.page ?_
  induction h with
  | nil => rfl
  | @cons item item' items items' hitem _ ih =>
    rw [List.map_cons, List.map_cons, ih, hitem.envelope]

/-- **One call**: the servers stay in step, and both succeed and say the same or both fail. -/
theorem client_inStep (call : ClientCall) (h : StoresInStep issued s t)
    (hfilled : ∀ bundle, call = .publish bundle → Publishable c bundle →
      SqliteStore.Filled bundle)
    (haccepted : ∀ user envelope, call = .enqueue user envelope →
      ∃ bytes, deserializeEnvelope bytes = .ok envelope)
    (hroom : t.db.tables.Room call)
    (hack : ∀ user a, call = .drain user (some a) → SameId (issued user) a.1 a.2) :
    Lockstep ((InMemoryServer.serverApi c).client Prod.fst call)
      ((SqliteStore.serverApi c).client Prod.snd call)
      (fun r r' s' t' => ∃ issued', (∀ u, issued u <+: issued' u) ∧ StoresInStep issued' s' t' ∧
        SameReply issued' call r r') (StoresInStep issued) s t := by
  have hrefl : ∀ u, issued u <+: issued u := fun u => List.prefix_refl _
  cases call with
  | publish bundle =>
    exact Lockstep.bind (publish_inStep h (hfilled bundle rfl) hroom) fun _ _ s' t' h' =>
      .pure ⟨issued, hrefl, h', rfl, nofun⟩
  | acquire userId =>
    refine Lockstep.bind (acquire_inStep h) ?_
    rintro bundle _ s' t' ⟨rfl, h'⟩
    exact .pure ⟨issued, hrefl, h', rfl, nofun⟩
  | enqueue userId envelope =>
    obtain ⟨bytes, hread⟩ := haccepted userId envelope rfl
    refine Lockstep.bind (enqueue_inStep h hread hroom) fun _ _ s' t' h' =>
      .pure ⟨_, fun u => ?_, h', rfl, nofun⟩
    by_cases hu : u = userId
    · subst hu
      rw [Function.update_self]
      exact List.prefix_append _ _
    · rw [Function.update_of_ne hu]
  | drain userId ack =>
    refine Lockstep.bind (drain_inStep h fun a ha => hack userId a (congrArg _ ha)) ?_
    rintro page page' s' t' ⟨hpage, h'⟩
    refine .pure ⟨issued, hrefl, h', withoutIds_page hpage, ?_⟩
    rintro _ _ ⟨⟩ _ _ ⟨⟩ ⟨⟩
    exact hpage

end Steps

/-! ## 5. Whole runs -/

section Runs

variable {S : Type}

/-- The server after the calls, newest first. -/
def ServerApi.afterClient (api : ServerApi Bytes S) (side : UInt64 × UInt64 → UInt64) (s₀ : S)
    (calls : List ClientCall) : S :=
  History.after (fun call s => (api.client side call s).2) s₀ calls

/-- What a call returned that was made after the earlier ones. -/
def ServerApi.clientReply (api : ServerApi Bytes S) (side : UInt64 × UInt64 → UInt64) (s₀ : S)
    (call : ClientCall) (earlier : List ClientCall) : Result ClientReply :=
  (api.client side call (api.afterClient side s₀ earlier)).1

theorem ServerApi.afterClient_cons (api : ServerApi Bytes S) (side : UInt64 × UInt64 → UInt64)
    (s₀ : S) (call : ClientCall) (earlier : List ClientCall) :
    api.afterClient side s₀ (call :: earlier) =
      (api.client side call (api.afterClient side s₀ earlier)).2 := rfl

/-- The two servers, started with empty stores; every statement on the database succeeds. -/
structure EmptyStores (s₀ : InMemoryServer Bytes) (t₀ : SqliteStore) : Prop where
  memory : ∃ secret, s₀ = InMemoryServer.init secret
  database : ∃ hmacSecret secret, t₀ = SqliteStore.init (fun _ => .ok) hmacSecret secret

/-- The two replies are pages, and `a` and `b` are ids of one place in them. -/
def SamePlace (r r' : Result ClientReply) (a b : UInt64) : Prop :=
  ∃ (items items' : List (InboxEnvelope Bytes)) (n : Nat) (item item' : InboxEnvelope Bytes),
    r = .ok (.page items) ∧ r' = .ok (.page items') ∧ items[n]? = some item ∧
      items'[n]? = some item' ∧ item.inboxId = a ∧ item'.inboxId = b

theorem SameReply.sameId {issued : Bytes → List Nat} {call : ClientCall} {r r' : ClientReply}
    (h : SameReply issued call r r') {user : Bytes} {ack : Option (UInt64 × UInt64)}
    (hcall : call = .drain user ack) {a b : UInt64} (hab : SamePlace (.ok r) (.ok r') a b) :
    SameId (issued user) a b := by
  obtain ⟨items, items', n, item, item', hr, hr', hn, hn', rfl, rfl⟩ := hab
  exact (forall₂_getElem? (h.ids user ack hcall _ _ (Except.ok.inj hr) (Except.ok.inj hr')) hn
    hn').id

variable (c : Crypto Bytes) (s₀ : InMemoryServer Bytes) (t₀ : SqliteStore)

/-- The two servers have returned `a` and `b` to the user for one place of one page. -/
def Returned (user : Bytes) (calls : List ClientCall) (a b : UInt64) : Prop :=
  ∃ ack earlier, .drain user ack :: earlier <:+ calls ∧ SamePlace
    ((InMemoryServer.serverApi c).clientReply Prod.fst s₀ (.drain user ack) earlier)
    ((SqliteStore.serverApi c).clientReply Prod.snd t₀ (.drain user ack) earlier) a b

/-- The calls of a run: the envelopes are ones that the wire decoder accepts, an acknowledged id
is one that the server has returned to the user before, and no `INSERT` fails for want of a
key. -/
structure ClientRun (calls : List ClientCall) : Prop where
  accepted : ∀ user envelope, .enqueue user envelope ∈ calls →
    ∃ bytes, deserializeEnvelope bytes = .ok envelope
  acks : ∀ user a earlier, .drain user (some a) :: earlier <:+ calls →
    Returned c s₀ t₀ user earlier a.1 a.2
  room : ∀ call earlier, call :: earlier <:+ calls →
    ((SqliteStore.serverApi c).afterClient Prod.snd t₀ earlier).db.tables.Room call

/-- No bundle that passes the checks of `PublishBundle` has an empty blob. -/
def PublishesFilled (calls : List ClientCall) : Prop :=
  ∀ bundle, .publish bundle ∈ calls → Publishable c bundle → SqliteStore.Filled bundle

variable {c s₀ t₀} {calls earlier : List ClientCall}

theorem PublishesFilled.suffix (h : PublishesFilled c calls) (hsuf : earlier <:+ calls) :
    PublishesFilled c earlier := fun bundle hmem => h bundle (hsuf.subset hmem)

theorem ClientRun.suffix (h : ClientRun c s₀ t₀ calls) (hsuf : earlier <:+ calls) :
    ClientRun c s₀ t₀ earlier where
  accepted user envelope hmem := h.accepted user envelope (hsuf.subset hmem)
  acks user a before hb := h.acks user a before (hb.trans hsuf)
  room call before hb := h.room call before (hb.trans hsuf)

theorem EmptyStores.inStep (h : EmptyStores s₀ t₀) : StoresInStep (fun _ => []) s₀ t₀ := by
  obtain ⟨⟨secret, rfl⟩, hmacSecret, secret', rfl⟩ := h
  refine ⟨fun _ => rfl, SqliteStore.ordered_init _ _ _, rfl, nofun, fun _ => .nil, fun _ => rfl,
    fun _ => .nil, nofun, fun _ => Nat.zero_le _⟩

/-- One more call. -/
theorem ClientRun.lockstep {call : ClientCall} (hrun : ClientRun c s₀ t₀ (call :: earlier))
    (hfilled : PublishesFilled c (call :: earlier)) {issued : Bytes → List Nat}
    (h : StoresInStep issued ((InMemoryServer.serverApi c).afterClient Prod.fst s₀ earlier)
      ((SqliteStore.serverApi c).afterClient Prod.snd t₀ earlier))
    (hids : ∀ user a b, Returned c s₀ t₀ user earlier a b → SameId (issued user) a b) :
    Lockstep ((InMemoryServer.serverApi c).client Prod.fst call)
      ((SqliteStore.serverApi c).client Prod.snd call)
      (fun r r' s' t' => ∃ issued', (∀ u, issued u <+: issued' u) ∧ StoresInStep issued' s' t' ∧
        SameReply issued' call r r') (StoresInStep issued)
      ((InMemoryServer.serverApi c).afterClient Prod.fst s₀ earlier)
      ((SqliteStore.serverApi c).afterClient Prod.snd t₀ earlier) := by
  refine client_inStep call h ?_ ?_ (hrun.room call earlier (List.suffix_refl _)) ?_
  · rintro bundle rfl
    exact hfilled bundle List.mem_cons_self
  · rintro user envelope rfl
    exact hrun.accepted user envelope List.mem_cons_self
  · rintro user a rfl
    exact hids user _ _ (hrun.acks user a earlier (List.suffix_refl _))

/-- The servers stay in step, and the ids they have returned are in the lists. -/
theorem EmptyStores.inStep_after (h : EmptyStores s₀ t₀) (hrun : ClientRun c s₀ t₀ calls)
    (hfilled : PublishesFilled c calls) :
    ∃ issued, StoresInStep issued ((InMemoryServer.serverApi c).afterClient Prod.fst s₀ calls)
        ((SqliteStore.serverApi c).afterClient Prod.snd t₀ calls) ∧
      ∀ user a b, Returned c s₀ t₀ user calls a b → SameId (issued user) a b := by
  induction calls with
  | nil =>
    refine ⟨_, h.inStep, ?_⟩
    rintro user a b ⟨ack, earlier, hsuf, -⟩
    exact absurd (List.suffix_nil.mp hsuf) nofun
  | cons call earlier ih =>
    obtain ⟨issued, hin, hids⟩ := ih (hrun.suffix (List.suffix_cons call earlier))
      (hfilled.suffix (List.suffix_cons call earlier))
    have hstep := hrun.lockstep hfilled hin hids
    -- an id that was returned before, or by the new call
    have hcases : ∀ user a b, Returned c s₀ t₀ user (call :: earlier) a b →
        Returned c s₀ t₀ user earlier a b ∨ (∃ ack, call = .drain user ack) ∧ SamePlace
          ((InMemoryServer.serverApi c).clientReply Prod.fst s₀ call earlier)
          ((SqliteStore.serverApi c).clientReply Prod.snd t₀ call earlier) a b := by
      rintro user a b ⟨ack, before, hsuf, hplace⟩
      rcases List.suffix_cons_iff.mp hsuf with he | hsuf
      · obtain ⟨rfl, rfl⟩ := List.cons.inj he
        exact Or.inr ⟨⟨ack, rfl⟩, hplace⟩
      · exact Or.inl ⟨ack, before, hsuf, hplace⟩
    unfold Lockstep at hstep
    unfold ServerApi.clientReply at hcases
    rw [ServerApi.afterClient_cons, ServerApi.afterClient_cons]
    rcases hx : (InMemoryServer.serverApi c).client Prod.fst call
        ((InMemoryServer.serverApi c).afterClient Prod.fst s₀ earlier) with ⟨_ | r, s'⟩ <;>
      rcases hy : (SqliteStore.serverApi c).client Prod.snd call
        ((SqliteStore.serverApi c).afterClient Prod.snd t₀ earlier) with ⟨_ | r', t'⟩ <;>
      rw [hx, hy] at hstep hcases <;> dsimp only
    · refine ⟨issued, hstep, fun user a b hab => ?_⟩
      rcases hcases user a b hab with hab | ⟨-, _, _, _, _, _, hr, -⟩
      · exact hids user a b hab
      · cases hr
    · exact hstep.elim
    · exact hstep.elim
    · obtain ⟨issued', hle, hin', hsame⟩ := hstep
      refine ⟨issued', hin', fun user a b hab => ?_⟩
      rcases hcases user a b hab with hab | ⟨⟨ack, hcall⟩, hplace⟩
      · exact (hids user a b hab).mono (hle user)
      · exact hsame.sameId hcall hplace

/-- A relation that is a bijection between its two sides and keeps the order. -/
def OrderBijection (R : UInt64 → UInt64 → Prop) : Prop :=
  ∀ a b a' b', R a b → R a' b' → (a = a' ↔ b = b') ∧ (a < a' ↔ b < b')

/-- The same calls succeed, with the same bundles and the same envelopes in the same order. -/
def SameReplies (c : Crypto Bytes) (s₀ : InMemoryServer Bytes) (t₀ : SqliteStore)
    (calls : List ClientCall) : Prop :=
  ∀ call earlier, call :: earlier <:+ calls →
    ((InMemoryServer.serverApi c).clientReply Prod.fst s₀ call earlier).toOption.map
        ClientReply.withoutIds =
      ((SqliteStore.serverApi c).clientReply Prod.snd t₀ call earlier).toOption.map
        ClientReply.withoutIds

theorem EmptyStores.sameReplies (h : EmptyStores s₀ t₀) (hrun : ClientRun c s₀ t₀ calls)
    (hfilled : PublishesFilled c calls) : SameReplies c s₀ t₀ calls := by
  intro call earlier hsuf
  have hearlier := (List.suffix_cons call earlier).trans hsuf
  obtain ⟨issued, hin, hids⟩ := h.inStep_after (hrun.suffix hearlier) (hfilled.suffix hearlier)
  have hstep := (hrun.suffix hsuf).lockstep (hfilled.suffix hsuf) hin hids
  unfold Lockstep at hstep
  unfold ServerApi.clientReply
  rcases hx : (InMemoryServer.serverApi c).client Prod.fst call
      ((InMemoryServer.serverApi c).afterClient Prod.fst s₀ earlier) with ⟨_ | r, s'⟩ <;>
    rcases hy : (SqliteStore.serverApi c).client Prod.snd call
      ((SqliteStore.serverApi c).afterClient Prod.snd t₀ earlier) with ⟨_ | r', t'⟩ <;>
    rw [hx, hy] at hstep
  · rfl
  · exact hstep.elim
  · exact hstep.elim
  · obtain ⟨issued', -, -, hsame⟩ := hstep
    exact congrArg some hsame.content

/-- In memory the publication succeeds, so it does on the database, where nothing is empty. -/
theorem SameReplies.filled (h : SameReplies c s₀ t₀ calls) : PublishesFilled c calls := by
  intro bundle hmem hpublishable
  obtain ⟨later, earlier, rfl⟩ := List.append_of_mem hmem
  have hsame := h (.publish bundle) earlier (List.suffix_append _ _)
  obtain ⟨s', hx⟩ := InMemoryServer.publishBundle_eq_ok hpublishable
    ((InMemoryServer.serverApi c).afterClient Prod.fst s₀ earlier)
  have hmemory : (InMemoryServer.serverApi c).clientReply Prod.fst s₀ (.publish bundle) earlier =
      .ok .done := congrArg Prod.fst (Proc.bind_ok hx _)
  rw [hmemory] at hsame
  unfold ServerApi.clientReply at hsame
  rcases hy : (SqliteStore.serverApi c).client Prod.snd (.publish bundle)
      ((SqliteStore.serverApi c).afterClient Prod.snd t₀ earlier) with ⟨_ | reply, t'⟩
  · rw [hy] at hsame
    cases hsame
  · obtain ⟨_, _, hpublish, -⟩ := Proc.bind_eq_ok_iff.mp hy
    exact SqliteStore.filled_of_publishBundle hpublish

theorem EmptyStores.orderBijection (h : EmptyStores s₀ t₀) (hrun : ClientRun c s₀ t₀ calls)
    (hfilled : PublishesFilled c calls) (user : Bytes) :
    OrderBijection (Returned c s₀ t₀ user calls) := by
  intro a b a' b' hab hab'
  obtain ⟨issued, hin, hids⟩ := h.inStep_after hrun hfilled
  have hincreasing := hin.increasing user
  exact ⟨(hids user a b hab).eq_iff hincreasing (hids user a' b' hab'),
    (hids user a b hab).lt_iff hincreasing (hids user a' b' hab')⟩

/-- **The two servers agree on bundles and mailboxes** in exactly the runs that publish no empty
blob: the same calls succeed and say the same, and the ids of a user's envelopes correspond. -/
theorem backends_agree_on_stores (h : EmptyStores s₀ t₀) (hrun : ClientRun c s₀ t₀ calls) :
    (SameReplies c s₀ t₀ calls ∧ ∀ user, OrderBijection (Returned c s₀ t₀ user calls)) ↔
      PublishesFilled c calls := by
  refine ⟨fun hagree => hagree.1.filled, fun hfilled => ?_⟩
  exact ⟨h.sameReplies hrun hfilled, h.orderBijection hrun hfilled⟩

end Runs

/-! ### A letter to Bob -/

namespace Backend.Bob

def user : Bytes := text "bob"

def letter : Envelope Bytes :=
  .fromChat ⟨text "session", text "alice", user, ⟨none, 0, 0, 0⟩, [], [7]⟩

def sign (message : Bytes) : Bytes :=
  (ServerCrypto.transparent.ed25519Sign [1] message).toOption.getD []

/-- A bundle of Bob's with a key of each kind, signed with the key `[1]`. -/
def bundle (identityDh : Bytes) : PrekeyBundle Bytes :=
  let ec := sign (buildEcPrekeySignInput 1 [3])
  let pq := sign (buildPqPrekeySignInput 1 [4])
  let unsigned : PrekeyBundle Bytes :=
    ⟨user, [1], [1], identityDh, ⟨1, [3], ec, ec⟩, ⟨1, [4], pq, pq⟩, [⟨2, [5]⟩], [⟨2, [6]⟩], [], [],
      kProtocolVersion, kCipherSuite⟩
  let signature := sign (buildBundleSignInput unsigned)
  { unsigned with bundleSignatureEd25519 := signature, bundleSignatureMldsa65 := signature }

/-- Bob publishes and somebody takes his keys, and he gets his letter and acknowledges it. -/
def calls : List ClientCall :=
  [.drain user (some (1, 1)), .drain user none, .enqueue user letter, .acquire user,
    .publish (bundle [2])]

def memory : InMemoryServer Bytes := InMemoryServer.init []

def database : SqliteStore := SqliteStore.init (fun _ => .ok) [9] []

theorem emptyStores : EmptyStores memory database := ⟨⟨_, rfl⟩, _, _, rfl⟩

theorem clientRun : ClientRun ServerCrypto.transparent.toCrypto memory database calls where
  accepted := by
    intro user envelope hmem
    simp only [calls, List.mem_cons, reduceCtorEq, ClientCall.enqueue.injEq, List.not_mem_nil,
      or_false, false_or] at hmem
    rw [hmem.2]
    exact ⟨letter.encoding, by decide +kernel⟩
  acks := by
    intro user a earlier hsuf
    simp only [calls, List.suffix_cons_iff, List.cons.injEq, ClientCall.drain.injEq,
      Option.some.injEq, reduceCtorEq, false_and, and_false, List.suffix_nil, or_false] at hsuf
    obtain ⟨⟨rfl, rfl⟩, rfl⟩ := hsuf
    exact ⟨none, _, List.suffix_refl _, [⟨1, letter⟩], [⟨1, letter⟩], 0, ⟨1, letter⟩, ⟨1, letter⟩,
      by decide +kernel, by decide +kernel, rfl, rfl, rfl, rfl⟩
  room := by
    intro call earlier hsuf
    simp only [calls, List.suffix_cons_iff, List.cons.injEq, List.suffix_nil, reduceCtorEq,
      or_false] at hsuf
    rcases hsuf with ⟨rfl, rfl⟩ | ⟨rfl, rfl⟩ | ⟨rfl, rfl⟩ | ⟨rfl, rfl⟩ | ⟨rfl, rfl⟩
    · trivial
    · trivial
    · change ((SqliteStore.serverApi _).afterClient Prod.snd database
        [.acquire user, .publish (bundle [2])]).db.tables.inbox.last + 1 < 2 ^ 63
      decide +kernel
    · trivial
    · exact ⟨by decide, by decide⟩

theorem publishesFilled : PublishesFilled ServerCrypto.transparent.toCrypto calls := by
  intro published hmem _
  simp only [calls, List.mem_cons, reduceCtorEq, ClientCall.publish.injEq, List.not_mem_nil,
    or_false, false_or] at hmem
  rw [hmem]
  exact ⟨by decide +kernel, by decide +kernel, by decide +kernel⟩

end Backend.Bob

theorem backends_agree_on_stores_bob :
    SameReplies ServerCrypto.transparent.toCrypto Backend.Bob.memory Backend.Bob.database
        Backend.Bob.calls ∧
      ∀ user, OrderBijection (Returned ServerCrypto.transparent.toCrypto Backend.Bob.memory
        Backend.Bob.database user Backend.Bob.calls) :=
  (backends_agree_on_stores Backend.Bob.emptyStores Backend.Bob.clientRun).mpr
    Backend.Bob.publishesFilled

/-- **An empty key divides the servers**: the signed bundle has no identity DH key.  The decoder
accepts it, in memory it is published, and the database refuses the NULL. -/
theorem emptyKey_not_agreed :
    EmptyStores Backend.Bob.memory Backend.Bob.database ∧
      ClientRun ServerCrypto.transparent.toCrypto Backend.Bob.memory Backend.Bob.database
        [.publish (Backend.Bob.bundle [])] ∧
      (∃ bytes, deserializePrekeyBundle bytes = .ok (Backend.Bob.bundle [])) ∧
      (∀ key ∈ (Backend.Bob.bundle []).oneTimeEc ++ (Backend.Bob.bundle []).oneTimePq,
        key.publicKey ≠ []) ∧
      (InMemoryServer.publishBundle ServerCrypto.transparent.toCrypto (Backend.Bob.bundle [])
        Backend.Bob.memory).1 = .ok () ∧
      (SqliteStore.publishBundle ServerCrypto.transparent.toCrypto (Backend.Bob.bundle [])
        Backend.Bob.database).1 =
          .error "NOT NULL constraint failed: bundles.identity_dh_public_key" ∧
      ¬ SameReplies ServerCrypto.transparent.toCrypto Backend.Bob.memory Backend.Bob.database
        [.publish (Backend.Bob.bundle [])] := by
  refine ⟨Backend.Bob.emptyStores, ⟨?_, ?_, ?_⟩, ?_, ?_, ?_, ?_, ?_⟩
  · intro user envelope hmem
    cases List.mem_singleton.mp hmem
  · intro user a earlier hsuf
    simp only [List.suffix_cons_iff, List.cons.injEq, reduceCtorEq, false_and, List.suffix_nil,
      or_false] at hsuf
  · intro call earlier hsuf
    simp only [List.suffix_cons_iff, List.cons.injEq, List.suffix_nil, reduceCtorEq,
      or_false] at hsuf
    obtain ⟨rfl, rfl⟩ := hsuf
    exact ⟨by decide, by decide⟩
  · exact ⟨(serializePrekeyBundle (Backend.Bob.bundle [])).toOption.getD [], by decide +kernel⟩
  · decide +kernel
  · decide +kernel
  · decide +kernel
  · exact fun h => absurd (h _ [] (List.suffix_refl _)) (by decide +kernel)

end PqChat
