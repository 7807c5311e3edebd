/-
# Mailboxes, page by page

A mailbox is read in pages, and what has been read is acknowledged with the request of the next
page.  Each server cuts the pages in a loop of its own; what comes out is `nextPage` of what the
acknowledgement has left (`drains`), and `nextPage` is the longest beginning within the limits
(`nextPage_spec`).  So reading on until a page is empty returns the whole mailbox.

What an acknowledgement removes depends on the server.  `SqliteStore` binds the id as a signed
number, and an id from 2 ^ 63 on is a negative one there: it removes nothing.
-/
import PqChat.Server.Delivery

namespace PqChat

open ByteString TcpServer

/-! ## 1. Pages -/

/-- Within the limits on a page. -/
structure Admissible (page : List (InboxEnvelope Bytes)) : Prop where
  items : page.length ≤ kMaxDrainInboxBatchItems
  bytes : (page.map InboxEnvelope.estimatedSize).sum ≤ kMaxDrainInboxBatchBytes

/-- The next page of a mailbox: the longest beginning within the limits, or the first entry if
that alone exceeds them. -/
inductive NextPage (entries : List (InboxEnvelope Bytes)) : List (InboxEnvelope Bytes) → Prop
  | longest (page : List (InboxEnvelope Bytes)) (first : page <+: entries)
      (admissible : Admissible page)
      (longest : ∀ other, other <+: entries → Admissible other → other.length ≤ page.length)
      (small : ∀ entry ∈ entries.head?, entry.estimatedSize ≤ kMaxDrainInboxBatchBytes) :
      NextPage entries page
  | single (entry : InboxEnvelope Bytes) (rest : List (InboxEnvelope Bytes))
      (entries_eq : entries = entry :: rest)
      (large : kMaxDrainInboxBatchBytes < entry.estimatedSize) : NextPage entries [entry]

/-- What follows on a page of `items` entries and `total` bytes. -/
def fillPage : Nat → Nat → List (InboxEnvelope Bytes) → List (InboxEnvelope Bytes)
  | _, _, [] => []
  | items, total, entry :: entries =>
    if items < kMaxDrainInboxBatchItems ∧
        total + entry.estimatedSize ≤ kMaxDrainInboxBatchBytes then
      entry :: fillPage (items + 1) (total + entry.estimatedSize) entries
    else []

def nextPage : List (InboxEnvelope Bytes) → List (InboxEnvelope Bytes)
  | [] => []
  | first :: entries => first :: fillPage 1 first.estimatedSize entries

section Pages

variable {entries page : List (InboxEnvelope Bytes)} {items total : Nat}

theorem fillPage_prefix : fillPage items total entries <+: entries := by
  fun_induction fillPage items total entries with
  | case1 items total => exact List.prefix_refl _
  | case2 items total entry entries hfits ih => exact List.cons_prefix_cons.mpr ⟨rfl, ih⟩
  | case3 items total entry entries hfull => exact List.nil_prefix

theorem fillPage_admissible (hitems : items ≤ kMaxDrainInboxBatchItems)
    (htotal : total ≤ kMaxDrainInboxBatchBytes) :
    items + (fillPage items total entries).length ≤ kMaxDrainInboxBatchItems ∧
    total + ((fillPage items total entries).map InboxEnvelope.estimatedSize).sum ≤
      kMaxDrainInboxBatchBytes := by
  fun_induction fillPage items total entries with
  | case1 items total => exact ⟨hitems, htotal⟩
  | case2 items total entry entries hfits ih =>
    obtain ⟨hcount, hsum⟩ := ih hfits.1 hfits.2
    rw [List.length_cons, List.map_cons, List.sum_cons]
    omega
  | case3 items total entry entries hfull => exact ⟨hitems, htotal⟩

/-- No more than that fits. -/
theorem fillPage_longest {other : List (InboxEnvelope Bytes)} (hother : other <+: entries)
    (hitems : items + other.length ≤ kMaxDrainInboxBatchItems)
    (htotal : total + (other.map InboxEnvelope.estimatedSize).sum ≤ kMaxDrainInboxBatchBytes) :
    other.length ≤ (fillPage items total entries).length := by
  induction other generalizing items total entries with
  | nil => exact Nat.zero_le _
  | cons entry other ih =>
    obtain ⟨rest, rfl⟩ := hother
    rw [List.length_cons] at hitems
    rw [List.map_cons, List.sum_cons] at htotal
    rw [List.cons_append, fillPage, if_pos ⟨by omega, by omega⟩, List.length_cons,
      List.length_cons]
    exact Nat.succ_le_succ (ih (List.prefix_append _ _) (by omega) (by omega))

/-- **A page is the longest beginning that is within the limits**, or one entry that is not. -/
theorem nextPage_spec (entries : List (InboxEnvelope Bytes)) :
    NextPage entries (nextPage entries) := by
  cases entries with
  | nil =>
    refine .longest [] (List.prefix_refl _) ⟨Nat.zero_le _, Nat.zero_le _⟩ ?_ nofun
    intro other hother _
    rw [List.prefix_nil.mp hother]
  | cons first entries =>
    rw [nextPage]
    rcases Nat.lt_or_ge kMaxDrainInboxBatchBytes first.estimatedSize with hlarge | hsmall
    · have hfull : fillPage 1 first.estimatedSize entries = [] := by
        cases entries with
        | nil => rfl
        | cons entry entries => exact if_neg fun h => by omega
      rw [hfull]
      exact .single first entries rfl hlarge
    · have hone : 1 ≤ kMaxDrainInboxBatchItems := by decide
      have hpage : 1 + (fillPage 1 first.estimatedSize entries).length ≤
            kMaxDrainInboxBatchItems ∧
          first.estimatedSize +
            ((fillPage 1 first.estimatedSize entries).map InboxEnvelope.estimatedSize).sum ≤
              kMaxDrainInboxBatchBytes := fillPage_admissible hone hsmall
      obtain ⟨hitems, hbytes⟩ := hpage
      refine .longest _ (List.cons_prefix_cons.mpr ⟨rfl, fillPage_prefix⟩) ⟨?_, ?_⟩ ?_ ?_
      · rw [List.length_cons, Nat.add_comm]
        exact hitems
      · rw [List.map_cons, List.sum_cons]
        exact hbytes
      · intro other hother hadmissible
        cases other with
        | nil => exact Nat.zero_le _
        | cons entry other =>
          obtain ⟨rfl, hrest⟩ := List.cons_prefix_cons.mp hother
          have hcount := hadmissible.items
          have hsum := hadmissible.bytes
          rw [List.length_cons] at hcount
          rw [List.map_cons, List.sum_cons] at hsum
          rw [List.length_cons, List.length_cons]
          exact Nat.succ_le_succ (fillPage_longest hrest (by omega) hsum)
      · intro entry hentry
        obtain rfl := Option.some.inj hentry
        exact hsmall

theorem nextPage_prefix : nextPage entries <+: entries := by
  cases entries with
  | nil => exact List.prefix_refl _
  | cons first entries => exact List.cons_prefix_cons.mpr ⟨rfl, fillPage_prefix⟩

/-- A page is empty only if there is nothing to return. -/
theorem nextPage_eq_nil_iff : nextPage entries = [] ↔ entries = [] := by
  cases entries <;> simp [nextPage]

end Pages

/-! ## 2. The loops of the servers -/

/-- An envelope that `DeserializeEnvelope` can produce. -/
def Produced (envelope : Envelope Bytes) : Prop :=
  ∃ bytes, deserializeEnvelope bytes = .ok envelope

theorem Produced.serialize {envelope : Envelope Bytes} (h : Produced envelope) :
    serializeEnvelope envelope = .ok envelope.encoding := by
  obtain ⟨bytes, hbytes⟩ := h
  exact serializeEnvelope_eq (decodes_envelope.put_decode _ _ hbytes).2.1.1

theorem InMemoryServer.drainPage_eq {entries out : List (InboxEnvelope Bytes)} {total : Nat}
    (hentries : ∀ entry ∈ entries, Produced entry.envelope) (hout : out ≠ []) :
    InMemoryServer.drainPage out total entries =
      .ok (out ++ fillPage out.length total entries) := by
  induction entries generalizing out total with
  | nil => rw [fillPage, List.append_nil]; rfl
  | cons entry entries ih =>
    obtain ⟨hentry, hrest⟩ := List.forall_mem_cons.mp hentries
    rw [InMemoryServer.drainPage, hentry.serialize]
    change (if out ≠ [] ∧ (out.length ≥ kMaxDrainInboxBatchItems ∨
        total + entry.estimatedSize > kMaxDrainInboxBatchBytes) then .ok out
      else InMemoryServer.drainPage (out ++ [entry]) (total + entry.estimatedSize) entries) = _
    rw [fillPage]
    by_cases hfits : out.length < kMaxDrainInboxBatchItems ∧
      total + entry.estimatedSize ≤ kMaxDrainInboxBatchBytes
    · rw [if_pos hfits, if_neg fun h => by omega,
        ih hrest (List.append_ne_nil_of_right_ne_nil _ (List.cons_ne_nil _ _)),
        List.length_append, List.append_assoc]
      rfl
    · rw [if_neg hfits, if_pos ⟨hout, by omega⟩, List.append_nil]

theorem InMemoryServer.drainPage_nextPage {entries : List (InboxEnvelope Bytes)}
    (hentries : ∀ entry ∈ entries, Produced entry.envelope) :
    InMemoryServer.drainPage [] 0 entries = .ok (nextPage entries) := by
  cases entries with
  | nil => rfl
  | cons first entries =>
    obtain ⟨hfirst, hrest⟩ := List.forall_mem_cons.mp hentries
    rw [InMemoryServer.drainPage, hfirst.serialize]
    change InMemoryServer.drainPage [first] (0 + first.estimatedSize) entries = _
    rw [Nat.zero_add, InMemoryServer.drainPage_eq hrest (List.cons_ne_nil _ _)]
    rfl

/-- A row that is read as `entry`. -/
theorem SqliteStore.drainPage_cons {row : SqliteStore.Row Bytes} {entry : InboxEnvelope Bytes}
    (h : row.stored = entry.stored) (out : List (InboxEnvelope Bytes)) (total : Nat)
    (rows : List (SqliteStore.Row Bytes)) :
    SqliteStore.drainPage out total (row :: rows) =
      if out ≠ [] ∧ total + entry.estimatedSize > kMaxDrainInboxBatchBytes then .ok out
      else SqliteStore.drainPage (out ++ [entry]) (total + entry.estimatedSize) rows := by
  have hread : deserializeEnvelope row.value = .ok entry.envelope :=
    congrArg StoredEnvelope.content h
  have hid : UInt64.ofNat row.rowid = entry.inboxId := congrArg StoredEnvelope.inboxId h
  have hsize : row.value.length + 8 + 8 = entry.estimatedSize := by
    rw [InboxEnvelope.estimatedSize, ← (decodes_envelope.put_decode _ _ hread).1]
  rw [SqliteStore.drainPage, hsize, hread, hid]
  rfl

theorem SqliteStore.drainPage_eq {rows : List (SqliteStore.Row Bytes)}
    {entries out : List (InboxEnvelope Bytes)} {total : Nat}
    (hrows : rows.map SqliteStore.Row.stored = entries.map InboxEnvelope.stored) (hout : out ≠ [])
    (hitems : out.length ≤ kMaxDrainInboxBatchItems) :
    SqliteStore.drainPage out total (rows.take (kMaxDrainInboxBatchItems - out.length)) =
      .ok (out ++ fillPage out.length total entries) := by
  induction entries generalizing rows out total with
  | nil =>
    rw [List.map_nil, List.map_eq_nil_iff] at hrows
    rw [hrows, List.take_nil, fillPage, List.append_nil]
    rfl
  | cons entry entries ih =>
    obtain ⟨row, rows, rfl, hrow, hrest⟩ := List.map_eq_cons_iff.mp hrows
    rw [fillPage]
    rcases Nat.lt_or_eq_of_le hitems with hlt | hfull
    · -- the row has been selected
      obtain ⟨left, hleft⟩ : ∃ left, kMaxDrainInboxBatchItems - out.length = left + 1 :=
        ⟨kMaxDrainInboxBatchItems - out.length - 1, by omega⟩
      rw [hleft, List.take_succ_cons, drainPage_cons hrow]
      by_cases hfits : total + entry.estimatedSize ≤ kMaxDrainInboxBatchBytes
      · have hstep := @ih rows (out ++ [entry]) (total + entry.estimatedSize) hrest
          (List.append_ne_nil_of_right_ne_nil _ (List.cons_ne_nil _ _))
          (by rw [List.length_append]; exact hlt)
        rw [List.length_append, List.length_singleton, ← Nat.sub_sub, hleft,
          List.append_assoc] at hstep
        rw [if_neg fun h => by omega, if_pos ⟨hlt, hfits⟩]
        exact hstep
      · rw [if_pos ⟨hout, by omega⟩, if_neg fun h => hfits h.2, List.append_nil]
    · -- the page is full
      rw [hfull, Nat.sub_self, List.take_zero, if_neg fun h => Nat.lt_irrefl _ h.1,
        List.append_nil]
      rfl

theorem SqliteStore.drainPage_nextPage {rows : List (SqliteStore.Row Bytes)}
    {entries : List (InboxEnvelope Bytes)}
    (hrows : rows.map SqliteStore.Row.stored = entries.map InboxEnvelope.stored) :
    SqliteStore.drainPage [] 0 (rows.take kMaxDrainInboxBatchItems) = .ok (nextPage entries) := by
  cases entries with
  | nil =>
    rw [List.map_nil, List.map_eq_nil_iff] at hrows
    rw [hrows]
    rfl
  | cons first entries =>
    obtain ⟨row, rows, rfl, hrow, hrest⟩ := List.map_eq_cons_iff.mp hrows
    have hitems : 1 ≤ kMaxDrainInboxBatchItems := by decide
    rw [show kMaxDrainInboxBatchItems = kMaxDrainInboxBatchItems - 1 + 1 from rfl,
      List.take_succ_cons, drainPage_cons hrow, if_neg fun h => h.1 rfl, Nat.zero_add]
    exact drainPage_eq hrest (List.cons_ne_nil _ _) hitems

/-! ## 3. What a call does -/

theorem stored_injective : Function.Injective (InboxEnvelope.stored : InboxEnvelope Bytes → _) := by
  rintro ⟨id, envelope⟩ ⟨id', envelope'⟩ h
  obtain ⟨rfl, henvelope⟩ := StoredEnvelope.mk.inj h
  obtain rfl := Except.ok.inj henvelope
  rfl

theorem SqliteStore.drainInbox_spec (userId : Bytes) (ack : Option UInt64) {s : SqliteStore}
    (hs : s.Ordered) :
    Proc.wp (drainInbox userId ack) (fun r s' =>
      (∀ e, r = .error e → s'.db.tables = s.db.tables) ∧
      ∀ page, r = .ok page →
        s'.db.tables = { s.db.tables with inbox := acked userId ack s.db.tables.inbox } ∧
        drainPage [] 0 (selectInbox userId kMaxDrainInboxBatchItems
          (acked userId ack s.db.tables.inbox)) = .ok page) s := by
  refine Proc.wp_mono (Sql.wp_transaction_inside (h := connection) (G := fun page t =>
    t = { s.db.tables with inbox := acked userId ack s.db.tables.inbox } ∧
    drainPage [] 0 (selectInbox userId kMaxDrainInboxBatchItems
      (acked userId ack s.db.tables.inbox)) = .ok page) hs.closed
    fun s' hs' => ?_) fun _ _ h => ⟨h.2.1, h.2.2⟩
  replace hs' : s'.db.tables = s.db.tables := hs'
  have hselect : ∀ s₁ : SqliteStore,
      s₁.db.tables = { s.db.tables with inbox := acked userId ack s.db.tables.inbox } →
      Sql.Inside connection (do
        let rows ← connection.on
          (Sql.query fun t => selectInbox userId kMaxDrainInboxBatchItems t.inbox)
        Proc.ofExcept "" (drainPage [] 0 rows))
        (fun page t => t = { s.db.tables with inbox := acked userId ack s.db.tables.inbox } ∧
          drainPage [] 0 (selectInbox userId kMaxDrainInboxBatchItems
            (acked userId ack s.db.tables.inbox)) = .ok page) s₁ := by
    intro s₁ h₁
    refine Sql.inside_query_bind fun s₂ h₂ => Sql.inside_ofExcept fun page hpage => ?_
    replace hpage : drainPage [] 0 (selectInbox userId kMaxDrainInboxBatchItems
      s₁.db.tables.inbox) = .ok page := hpage
    rw [h₁] at hpage
    exact ⟨h₂.trans h₁, hpage⟩
  cases ack with
  | none => exact hselect s' hs'
  | some a =>
    refine Sql.inside_update_bind fun s₁ h₁ => hselect s₁ ?_
    rw [← hs']
    exact h₁

namespace Backend

/-- Whether an acknowledgement covers an id.  `SqliteStore` compares them as signed numbers. -/
def acknowledges : Backend → Option UInt64 → UInt64 → Bool
  | _, none, _ => false
  | inMemoryServer, some a, id => id ≤ a
  | sqliteStore, some a, id => (id.toNat : Int) ≤ a.toInt64.toInt

/-- What an acknowledgement leaves. -/
def kept (b : Backend) (ack : Option UInt64) (entries : List (InboxEnvelope Bytes)) :
    List (InboxEnvelope Bytes) :=
  entries.filter fun entry => !b.acknowledges ack entry.inboxId

/-- The mailboxes hold envelopes that can be read, in the order of their ids. -/
structure Mailboxes (b : Backend) (s : b.State) : Prop where
  ordered : b.Ordered s
  produced : ∀ u, ∀ entry ∈ (b.stores s).inbox u,
    ∃ envelope, entry.content = .ok envelope ∧ Produced envelope
  increasing : ∀ u, ((b.stores s).inbox u).Pairwise fun entry entry' =>
    entry.inboxId < entry'.inboxId

theorem exists_entries {mailbox : List (StoredEnvelope Bytes)}
    (h : ∀ entry ∈ mailbox, ∃ envelope, entry.content = .ok envelope ∧ Produced envelope) :
    ∃ entries : List (InboxEnvelope Bytes), mailbox = entries.map InboxEnvelope.stored := by
  induction mailbox with
  | nil => exact ⟨[], rfl⟩
  | cons entry mailbox ih =>
    obtain ⟨⟨envelope, hcontent, -⟩, hrest⟩ := List.forall_mem_cons.mp h
    obtain ⟨entries, rfl⟩ := ih hrest
    refine ⟨⟨entry.inboxId, envelope⟩ :: entries, ?_⟩
    rw [List.map_cons, InboxEnvelope.stored, ← hcontent]

section Drain

variable {c : ServerCrypto} {b : Backend} {s s' : b.State} {u : Bytes} {ack : Option UInt64}
  {entries : List (InboxEnvelope Bytes)}

theorem Mailboxes.produced_of (h : b.Mailboxes s)
    (hentries : (b.stores s).inbox u = entries.map InboxEnvelope.stored) :
    ∀ entry ∈ entries, Produced entry.envelope := by
  intro entry hentry
  obtain ⟨envelope, hcontent, hproduced⟩ := h.produced u entry.stored
    (hentries ▸ List.mem_map_of_mem hentry)
  obtain rfl := Except.ok.inj hcontent
  exact hproduced

theorem Mailboxes.increasing_of (h : b.Mailboxes s)
    (hentries : (b.stores s).inbox u = entries.map InboxEnvelope.stored) :
    entries.Pairwise fun entry entry' => entry.inboxId < entry'.inboxId := by
  have hsorted := h.increasing u
  rw [hentries, List.pairwise_map] at hsorted
  exact hsorted

theorem map_kept (b : Backend) (ack : Option UInt64) (entries : List (InboxEnvelope Bytes)) :
    (b.kept ack entries).map InboxEnvelope.stored =
      (entries.map InboxEnvelope.stored).filter fun entry => !b.acknowledges ack entry.inboxId := by
  rw [kept, List.filter_map]
  rfl

/-- A mailbox of which a part is left. -/
theorem Mailboxes.of_kept (h : b.Mailboxes s) (hordered : b.Ordered s')
    (hentries : (b.stores s).inbox u = entries.map InboxEnvelope.stored)
    (hinbox : (b.stores s').inbox =
      Function.update (b.stores s).inbox u ((b.kept ack entries).map InboxEnvelope.stored)) :
    b.Mailboxes s' := by
  have hsub : ∀ v, ((b.stores s').inbox v).Sublist ((b.stores s).inbox v) := by
    intro v
    rw [hinbox]
    by_cases hv : v = u
    · subst hv
      rw [Function.update_self, hentries]
      exact List.filter_sublist.map _
    · rw [Function.update_of_ne hv]
  exact ⟨hordered, fun v entry hentry => h.produced v entry ((hsub v).subset hentry),
    fun v => (h.increasing v).sublist (hsub v)⟩

end Drain

/-- What a call of `DrainInbox` does to a mailbox of `entries`. -/
structure Drains (c : ServerCrypto) (b : Backend) (u : Bytes) (ack : Option UInt64)
    (entries : List (InboxEnvelope Bytes)) (s : b.State) : Prop where
  mailboxes : b.Mailboxes ((b.api c).drainInbox u ack s).2
  refused : ∀ e, ((b.api c).drainInbox u ack s).1 = .error e →
    b.stores ((b.api c).drainInbox u ack s).2 = b.stores s
  accepted : ∀ page, ((b.api c).drainInbox u ack s).1 = .ok page →
    page = nextPage (b.kept ack entries) ∧
    (b.stores ((b.api c).drainInbox u ack s).2).inbox =
      Function.update (b.stores s).inbox u ((b.kept ack entries).map InboxEnvelope.stored)
  reliable : b.Reliable s → (∃ page, ((b.api c).drainInbox u ack s).1 = .ok page) ∧
    b.Reliable ((b.api c).drainInbox u ack s).2

theorem Drains.of_run {c : ServerCrypto} {b : Backend} {s s' : b.State} {u : Bytes}
    {ack : Option UInt64} {entries : List (InboxEnvelope Bytes)} (hs : b.Mailboxes s)
    (hentries : (b.stores s).inbox u = entries.map InboxEnvelope.stored)
    (hordered : b.Ordered s') (hreliable : b.Reliable s → b.Reliable s')
    (hrun : (b.api c).drainInbox u ack s = (.ok (nextPage (b.kept ack entries)), s'))
    (hinbox : (b.stores s').inbox =
      Function.update (b.stores s).inbox u ((b.kept ack entries).map InboxEnvelope.stored)) :
    b.Drains c u ack entries s := by
  refine ⟨?_, ?_, ?_, ?_⟩ <;> rw [hrun]
  · exact hs.of_kept hordered hentries hinbox
  · exact nofun
  · exact fun page hpage => ⟨(Except.ok.inj hpage).symm, hinbox⟩
  · exact fun h => ⟨⟨_, rfl⟩, hreliable h⟩

theorem inMemory_drains (c : ServerCrypto) {s : inMemoryServer.State}
    (hs : inMemoryServer.Mailboxes s) {u : Bytes} {entries : List (InboxEnvelope Bytes)}
    (hentries : (inMemoryServer.stores s).inbox u = entries.map InboxEnvelope.stored)
    (ack : Option UInt64) : inMemoryServer.Drains c u ack entries s := by
  have hmailbox : ((InMemoryServer.inbox s.object).get u).getD [] = entries :=
    stored_injective.list_map hentries
  have hacked : InMemoryServer.acked ack entries = inMemoryServer.kept ack entries := by
    cases ack with
    | none => exact (List.filter_eq_self.mpr fun _ _ => rfl).symm
    | some a =>
      refine (Window.filter_eq_dropWhile ((hs.increasing_of hentries).imp fun hlt hle => ?_)).symm
      exact decide_eq_true (UInt64.le_trans (UInt64.le_of_lt hlt) (of_decide_eq_true hle))
  have hpage : InMemoryServer.drainPage [] 0 (InMemoryServer.acked ack
      (((InMemoryServer.inbox s.object).get u).getD [])) =
        .ok (nextPage (inMemoryServer.kept ack entries)) := by
    rw [hmailbox, hacked]
    exact InMemoryServer.drainPage_nextPage fun entry hentry =>
      hs.produced_of hentries entry (List.mem_of_mem_filter hentry)
  obtain ⟨s', hdrain, -, -, hinbox⟩ := InMemoryServer.drainInbox_of_page hpage
  rw [hmailbox, hacked] at hinbox
  have hrun : (inMemoryServer.api c).drainInbox u ack s =
      (.ok (nextPage (inMemoryServer.kept ack entries)), { s with object := s' }) := by
    refine Prod.ext (congrArg Prod.fst hdrain :) ?_
    exact congrArg (fun t => ({ s with object := t } : inMemoryServer.State))
      (congrArg Prod.snd hdrain)
  exact .of_run hs hentries trivial (fun _ => trivial) hrun hinbox

/-- The rows of the users after an acknowledgement. -/
theorem acked_stores {t : SqliteStore.Tables} (ht : t.inbox.Ordered) (u : Bytes)
    (ack : Option UInt64) {entries : List (InboxEnvelope Bytes)}
    (hentries : t.stores.inbox u = entries.map InboxEnvelope.stored) :
    ({ t with inbox := SqliteStore.acked u ack t.inbox } : SqliteStore.Tables).stores.inbox =
      Function.update t.stores.inbox u
        ((sqliteStore.kept ack entries).map InboxEnvelope.stored) := by
  rw [map_kept, ← hentries]
  funext v
  change ((SqliteStore.acked u ack t.inbox).of v).map SqliteStore.Row.stored = _
  cases ack with
  | none =>
    have hall : (t.stores.inbox u).filter (fun entry => !acknowledges sqliteStore none
        entry.inboxId) = t.stores.inbox u := List.filter_eq_self.mpr fun _ _ => rfl
    rw [hall, Function.update_eq_self]
    rfl
  | some a =>
    by_cases hv : v = u
    · subst hv
      rw [Function.update_self]
      change _ = ((t.inbox.of v).map SqliteStore.Row.stored).filter _
      rw [List.filter_map]
      refine congrArg (List.map SqliteStore.Row.stored) ?_
      rw [SqliteStore.acked, SqliteStore.ackInbox, SqliteStore.RowTable.of,
        SqliteStore.RowTable.of, List.filter_filter, List.filter_filter]
      refine List.filter_congr fun row hrow => ?_
      have hid : (UInt64.ofNat row.rowid).toNat = row.rowid := UInt64.toNat_ofNat_of_lt
        ((ht.le_last row hrow).trans_lt (ht.last_lt.trans (by decide)))
      by_cases huser : row.userId = v
      · simp only [huser, true_and, decide_true, Bool.true_and, Bool.and_true, decide_not,
          acknowledges, SqliteStore.Row.stored, hid, Function.comp_apply]
      · simp [huser]
    · rw [Function.update_of_ne hv]
      exact congrArg (List.map SqliteStore.Row.stored) ((SqliteStore.ackInbox_of ht u a).2 v hv)

theorem sqlite_drains (c : ServerCrypto) {s : sqliteStore.State} (hs : sqliteStore.Mailboxes s)
    {u : Bytes} {entries : List (InboxEnvelope Bytes)}
    (hentries : (sqliteStore.stores s).inbox u = entries.map InboxEnvelope.stored)
    (ack : Option UInt64) : sqliteStore.Drains c u ack entries s := by
  have hordered : SqliteStore.Ordered s.object := hs.ordered
  have hinbox := acked_stores hordered.tables.inbox u ack hentries
  have hpage : SqliteStore.drainPage [] 0 (SqliteStore.selectInbox u kMaxDrainInboxBatchItems
      (SqliteStore.acked u ack (SqliteStore.db s.object).tables.inbox)) =
        .ok (nextPage (sqliteStore.kept ack entries)) :=
    SqliteStore.drainPage_nextPage ((congrFun hinbox u).trans (Function.update_self _ _ _))
  obtain ⟨hrefused, haccepted⟩ := SqliteStore.drainInbox_spec u ack hordered
  have hordered' := (SqliteStore.drainInbox_stores u ack hordered).1
  have hrun : ∀ {r : Result (List (InboxEnvelope Bytes))} {s₁ : SqliteStore},
      SqliteStore.drainInbox u ack s.object = (r, s₁) →
      (sqliteStore.api c).drainInbox u ack s = (r, { s with object := s₁ }) := by
    intro r s₁ h
    refine Prod.ext (congrArg Prod.fst h :) ?_
    exact congrArg (fun t => ({ s with object := t } : sqliteStore.State)) (congrArg Prod.snd h)
  rcases hcall : SqliteStore.drainInbox u ack s.object with ⟨e | page, s₁⟩
  · rw [hcall] at hrefused hordered'
    have hstores : sqliteStore.stores { s with object := s₁ } = sqliteStore.stores s :=
      congrArg SqliteStore.Tables.stores (hrefused e rfl)
    refine ⟨?_, ?_, ?_, ?_⟩ <;> rw [hrun hcall]
    · exact ⟨hordered', hstores ▸ hs.produced, hstores ▸ hs.increasing⟩
    · exact fun _ _ => hstores
    · exact nofun
    · -- if every statement succeeds, a page is returned
      intro hreliable
      obtain ⟨_, hdrain, -⟩ := SqliteStore.leaves_drainInbox hreliable hordered.closed hpage
      cases hcall.symm.trans hdrain
  · rw [hcall] at haccepted hordered'
    obtain ⟨htables, hreturned⟩ := haccepted page rfl
    obtain rfl := Except.ok.inj (hreturned.symm.trans hpage)
    refine .of_run hs hentries (show sqliteStore.Ordered { s with object := s₁ } from hordered')
      (fun hreliable => ?_) (hrun hcall) ?_
    · obtain ⟨d, hdrain, hd, -⟩ := SqliteStore.leaves_drainInbox hreliable hordered.closed hpage
      obtain rfl : s₁ = _ := congrArg Prod.snd (hcall.symm.trans hdrain)
      exact hd
    · exact (congrArg (fun t => (SqliteStore.Tables.stores t).inbox) htables).trans hinbox

/-- **What `DrainInbox` does**, on either server. -/
theorem drains (c : ServerCrypto) {b : Backend} {s : b.State} (hs : b.Mailboxes s) {u : Bytes}
    {entries : List (InboxEnvelope Bytes)}
    (hentries : (b.stores s).inbox u = entries.map InboxEnvelope.stored) (ack : Option UInt64) :
    b.Drains c u ack entries s := by
  cases b with
  | inMemoryServer => exact inMemory_drains c hs hentries ack
  | sqliteStore => exact sqlite_drains c hs hentries ack

/-! ## 4. Mailboxes of a running server -/

/-- The ids that have been given out after at most `n` calls. -/
structure Numbered (b : Backend) (n : Nat) (s : b.State) : Prop where
  mailboxes : b.Mailboxes s
  le_last : ∀ u, ∀ entry ∈ (b.stores s).inbox u, entry.inboxId.toNat ≤ (b.stores s).last u
  last_le : ∀ u, (b.stores s).last u ≤ n

theorem survives_of_produced {b : Backend} {envelope : Envelope Bytes} (h : Produced envelope) :
    b.Survives envelope := by
  refine survives_of_sqlite fun bytes hbytes => ?_
  obtain ⟨bytes', hread⟩ := h
  rw [serializeEnvelope_of_deserialize hread] at hbytes
  rwa [← Except.ok.inj hbytes]

theorem produced_of_request {payload : Bytes} {request : EnqueueRequest Bytes}
    (h : deserializeEnqueueRequest payload = .ok request) : Produced request.envelope := by
  obtain ⟨-, ⟨hformed, hsmall⟩, hfits, hsize⟩ := decodes_enqueueRequest.put_decode _ _ h
  rw [putEnqueueRequest, List.length_append, length_putBytes, length_putBytes] at hsize
  exact ⟨_, decodes_envelope.decode_put _ ⟨hformed, hsmall.right⟩ ⟨hfits.right, by omega⟩⟩

section Numbered

variable {c : ServerCrypto} {b : Backend} {s s' : b.State} {n : Nat}

/-- A call that puts nothing into a mailbox. -/
theorem Numbered.shrink (h : b.Numbered n s) (hordered : b.Ordered s')
    (hsub : ∀ u, ((b.stores s').inbox u).Sublist ((b.stores s).inbox u))
    (hlast : (b.stores s').last = (b.stores s).last) : b.Numbered (n + 1) s' where
  mailboxes := ⟨hordered,
    fun u entry hentry => h.mailboxes.produced u entry ((hsub u).subset hentry),
    fun u => (h.mailboxes.increasing u).sublist (hsub u)⟩
  le_last u entry hentry := by
    rw [hlast]
    exact h.le_last u entry ((hsub u).subset hentry)
  last_le u := by
    rw [hlast]
    exact (h.last_le u).trans (Nat.le_succ n)

/-- An envelope comes to the end of a mailbox. -/
theorem Numbered.enqueued (h : b.Numbered n s) (hordered : b.Ordered s') {u : Bytes}
    {envelope : Envelope Bytes} {r : Result Unit} (hproduced : Produced envelope)
    (hn : n + 1 < 2 ^ 64)
    (heffect : (b.stores s).Enqueued u envelope (b.Survives envelope) r (b.stores s')) :
    b.Numbered (n + 1) s' := by
  rcases r with e | ⟨⟩
  · have heq := heffect.refused e rfl
    exact h.shrink hordered (fun u => by rw [heq]) (by rw [heq])
  obtain ⟨entry, hcontent, hinbox, hid⟩ := heffect.accepted rfl
  obtain ⟨hentry, hself, hlast⟩ :=
    hid (lt_of_le_of_lt (Nat.succ_le_succ (h.last_le u)) hn)
  have hother : ∀ {v}, v ≠ u → (b.stores s').inbox v = (b.stores s).inbox v := fun hv => by
    rw [hinbox, Function.update_of_ne hv]
  have hu : (b.stores s').inbox u = (b.stores s).inbox u ++ [entry] := by
    rw [hinbox, Function.update_self]
  refine ⟨⟨hordered, fun v => ?_, fun v => ?_⟩, fun v => ?_, fun v => ?_⟩
  · by_cases hv : v = u
    · subst hv
      rw [hu, List.forall_mem_append]
      refine ⟨h.mailboxes.produced v, List.forall_mem_singleton.mpr ?_⟩
      exact ⟨envelope, hcontent (survives_of_produced hproduced), hproduced⟩
    · rw [hother hv]
      exact h.mailboxes.produced v
  · by_cases hv : v = u
    · subst hv
      rw [hu, List.pairwise_append]
      refine ⟨h.mailboxes.increasing v, List.pairwise_singleton _ _,
        fun first hfirst last hlast => ?_⟩
      obtain rfl := List.mem_singleton.mp hlast
      rw [UInt64.lt_iff_toNat_lt, hentry]
      exact Nat.lt_succ_of_le (h.le_last v first hfirst)
    · rw [hother hv]
      exact h.mailboxes.increasing v
  · by_cases hv : v = u
    · subst hv
      rw [hu, List.forall_mem_append]
      refine ⟨fun first hfirst => (h.le_last v first hfirst).trans (hlast v).1, ?_⟩
      exact List.forall_mem_singleton.mpr (hentry.trans hself.symm).le
    · rw [hother hv]
      exact fun first hfirst => (h.le_last v first hfirst).trans (hlast v).1
  · exact (hlast v).2.trans (Nat.succ_le_succ (h.last_le v))

theorem Numbered.step (h : b.Numbered n s) (hordered : b.Ordered s') {call : TcpServer.Call}
    {r : Except String call.Answer} (heffect : Effect c b call r s s')
    (hproduced : ∀ u envelope, call = .enqueueEnvelope u envelope → Produced envelope)
    (hn : n + 1 < 2 ^ 64) : b.Numbered (n + 1) s' := by
  -- a call that leaves the stores alone
  have hsame : b.stores s' = b.stores s → b.Numbered (n + 1) s' := fun heq =>
    h.shrink hordered (fun u => by rw [heq]) (by rw [heq])
  cases call with
  | publishBundle bundle =>
    exact h.shrink hordered (fun u => by rw [heffect.1.inbox]) heffect.1.last
  | acquireBundleForSession userId =>
    exact h.shrink hordered (fun u => by rw [heffect.1.inbox]) heffect.1.last
  | enqueueEnvelope userId envelope =>
    exact h.enqueued hordered (hproduced _ _ rfl) hn heffect.1
  | drainInbox userId ack =>
    exact h.shrink hordered (fun u => (heffect.1.suffix u).sublist) heffect.1.last
  | registerTransportIdentity request => exact hsame heffect
  | _ => exact hsame heffect.1

end Numbered

section Histories

variable {c : ServerCrypto} {b : Backend} {peerAddr : Connection → Bytes}
  {s₀ : TcpServer b.Object}

theorem Formed.ordered {s : b.State} (h : b.Formed s) : b.Ordered s := by
  cases b with
  | inMemoryServer => trivial
  | sqliteStore => exact h.2

/-- Nothing has been numbered yet. -/
theorem Fresh.last {s : b.State} (h : b.Fresh s) (u : Bytes) : (b.stores s).last u = 0 := by
  cases b with
  | inMemoryServer =>
    obtain ⟨token, hs⟩ := h
    exact congrArg (fun t => (InMemoryServer.stores t).last u) hs
  | sqliteStore =>
    obtain ⟨outcome, hmacSecret, token, hs⟩ := h
    exact congrArg (fun t => (SqliteStore.stores t).last u) hs

theorem numbered_after (h₀ : b.Fresh s₀.api) {actions : List Action}
    (hfew : actions.length < 2 ^ 64) :
    b.Numbered actions.length (b.afterFrames c peerAddr s₀ actions).shared.api := by
  induction actions with
  | nil =>
    have hempty := fun u => (h₀.stores u).1
    refine ⟨⟨h₀.ordered, fun u => ?_, fun u => ?_⟩, fun u => ?_, fun u => (Fresh.last h₀ u).le⟩
    · exact (hempty u).symm ▸ nofun
    · exact (hempty u).symm ▸ List.Pairwise.nil
    · exact (hempty u).symm ▸ nofun
  | cons a actions ih =>
    rw [List.length_cons] at hfew
    have hbefore := ih (Nat.lt_of_succ_lt hfew)
    have hordered := Formed.ordered (formed_after c peerAddr h₀ (a :: actions))
    rcases action_effect c peerAddr h₀ a actions with h | ⟨i, t, call, rfl, hmakes, heffect⟩
    · have hstores : b.stores (b.afterFrames c peerAddr s₀ (a :: actions)).shared.api =
          b.stores (b.afterFrames c peerAddr s₀ actions).shared.api := h.1
      exact hbefore.shrink hordered (fun u => by rw [hstores]) (by rw [hstores])
    · refine hbefore.step hordered heffect ?_ hfew
      -- what is enqueued has been decoded
      rintro u envelope rfl
      obtain ⟨authenticated, _, -, -, hrequest⟩ := hmakes.handsOver
      exact produced_of_request hrequest

/-- **The mailboxes of a running server are in order**, whatever frames it has handled. -/
theorem mailboxes_after (h₀ : b.Fresh s₀.api) {actions : List Action}
    (hfew : actions.length < 2 ^ 64) :
    b.Mailboxes (b.afterFrames c peerAddr s₀ actions).shared.api :=
  (numbered_after h₀ hfew).mailboxes

end Histories

/-! ## 5. Acknowledgements -/

/-- The entries that an acknowledgement is meant to remove are those up to its id. -/
structure AcksExactly (c : ServerCrypto) (b : Backend) (u : Bytes) (a : UInt64) (s : b.State) :
    Prop where
  accepted : ∀ page, ((b.api c).drainInbox u (some a) s).1 = .ok page →
    (b.stores ((b.api c).drainInbox u (some a) s).2).inbox u =
      ((b.stores s).inbox u).filter (fun entry => ¬ entry.inboxId ≤ a) ∧
    ∃ remaining, (b.stores ((b.api c).drainInbox u (some a) s).2).inbox u =
      remaining.map InboxEnvelope.stored ∧ NextPage remaining page
  others : ∀ v, v ≠ u →
    (b.stores ((b.api c).drainInbox u (some a) s).2).inbox v = (b.stores s).inbox v
  refused : ∀ e, ((b.api c).drainInbox u (some a) s).1 = .error e →
    (b.stores ((b.api c).drainInbox u (some a) s).2).inbox = (b.stores s).inbox

/-- The same server, with other failures of the database to come. -/
def withOutcomes : (b : Backend) → (Nat → Sql.Outcome) → b.State → b.State
  | inMemoryServer, _, s => s
  | sqliteStore, outcome, ⟨host, object⟩ =>
    ⟨host, { object with db := { SqliteStore.db object with outcome := outcome } }⟩

section Acks

variable {c : ServerCrypto} {b : Backend} {s : b.State}

theorem stores_withOutcomes (outcome : Nat → Sql.Outcome) :
    b.stores (b.withOutcomes outcome s) = b.stores s := by
  cases b <;> rfl

theorem Mailboxes.withOutcomes (h : b.Mailboxes s) (outcome : Nat → Sql.Outcome) :
    b.Mailboxes (b.withOutcomes outcome s) := by
  refine ⟨?_, ?_, ?_⟩
  · cases b with
    | inMemoryServer => trivial
    | sqliteStore => exact ⟨h.ordered.closed, h.ordered.tables⟩
  · rw [stores_withOutcomes]
    exact h.produced
  · rw [stores_withOutcomes]
    exact h.increasing

/-- Below 2 ^ 63 the two comparisons agree. -/
theorem acknowledges_of_lt {a : UInt64} (h : b = sqliteStore → a.toNat < 2 ^ 63) (id : UInt64) :
    b.acknowledges (some a) id = decide (id ≤ a) := by
  cases b with
  | inMemoryServer => rfl
  | sqliteStore =>
    refine decide_eq_decide.mpr ?_
    rw [SqliteStore.toInt64_of_lt (h rfl), Nat.cast_le, UInt64.le_iff_toNat_le]

/-- From 2 ^ 63 on an id is negative, and nothing is acknowledged. -/
theorem not_acknowledges {a : UInt64} (h : 2 ^ 63 ≤ a.toNat) (id : UInt64) :
    sqliteStore.acknowledges (some a) id = false := by
  refine decide_eq_false fun hle => ?_
  have hneg : a.toInt64.toInt < 0 := by
    change a.toBitVec.toInt < 0
    rw [BitVec.toInt_neg_iff, UInt64.toNat_toBitVec]
    omega
  omega

/-- A call changes the mailbox of its user at most. -/
theorem Drains.others {u : Bytes} {ack : Option UInt64} {entries : List (InboxEnvelope Bytes)}
    (h : b.Drains c u ack entries s) {v : Bytes} (hv : v ≠ u) :
    (b.stores ((b.api c).drainInbox u ack s).2).inbox v = (b.stores s).inbox v := by
  rcases hr : ((b.api c).drainInbox u ack s).1 with e | page
  · rw [h.refused e hr]
  · rw [(h.accepted page hr).2, Function.update_of_ne hv]

theorem acksExactly_of (hs : b.Mailboxes s) {u : Bytes} {a : UInt64}
    (h : b = sqliteStore → a.toNat < 2 ^ 63 ∨ (b.stores s).inbox u = []) :
    b.AcksExactly c u a s := by
  obtain ⟨entries, hentries⟩ := exists_entries (hs.produced u)
  have hdrains := drains c hs hentries (some a)
  have hkept : (b.kept (some a) entries).map InboxEnvelope.stored =
      ((b.stores s).inbox u).filter fun entry => ¬ entry.inboxId ≤ a := by
    rw [map_kept, ← hentries]
    by_cases hempty : (b.stores s).inbox u = []
    · rw [hempty]
      rfl
    · refine List.filter_congr fun entry _ => ?_
      rw [acknowledges_of_lt fun hb => (h hb).resolve_right hempty, decide_not]
  refine ⟨fun page hpage => ?_, fun v hv => hdrains.others hv, fun e he => ?_⟩
  · obtain ⟨rfl, hinbox⟩ := hdrains.accepted page hpage
    have hafter := (congrFun hinbox u).trans (Function.update_self u _ _)
    exact ⟨hafter.trans hkept, _, hafter, nextPage_spec _⟩
  · rw [hdrains.refused e he]

theorem lt_of_sqlite {s : sqliteStore.State} (hs : sqliteStore.Mailboxes s) {u : Bytes}
    {entry : StoredEnvelope Bytes} (hentry : entry ∈ (sqliteStore.stores s).inbox u) :
    entry.inboxId.toNat < 2 ^ 63 := by
  have hordered : SqliteStore.Ordered s.object := hs.ordered
  obtain ⟨row, hrow, rfl⟩ := List.mem_map.mp hentry
  have hlt := hordered.tables.inbox.rowid_lt hrow
  exact (UInt64.toNat_ofNat_of_lt (hlt.trans (by decide))).trans_lt hlt

variable (c b s)

/-- **An acknowledgement removes the entries up to its id**, on `SqliteStore` if that is below
2 ^ 63 or there are none. -/
theorem ack_semantics (hs : b.Mailboxes s) (u : Bytes) (a : UInt64) :
    (∀ outcome, b.AcksExactly c u a (b.withOutcomes outcome s)) ↔
      (b = sqliteStore → a.toNat < 2 ^ 63 ∨ (b.stores s).inbox u = []) := by
  refine ⟨?_, fun h outcome => ?_⟩
  · rintro h rfl
    by_contra hno
    obtain ⟨hlarge, hne⟩ := not_or.mp hno
    obtain ⟨entry, hentry⟩ := List.exists_mem_of_ne_nil _ hne
    have hs' := hs.withOutcomes fun _ => .ok
    rw [← stores_withOutcomes fun _ => .ok] at hentry
    obtain ⟨entries, hentries⟩ := exists_entries (hs'.produced u)
    have hdrains := drains c hs' hentries (some a)
    -- the page comes, and nothing is removed
    obtain ⟨page, hpage⟩ := (hdrains.reliable fun _ => rfl).1
    have hafter := (congrFun (hdrains.accepted page hpage).2 u).trans (Function.update_self u _ _)
    have hall : sqliteStore.kept (some a) entries = entries :=
      List.filter_eq_self.mpr fun entry _ => by rw [not_acknowledges (not_lt.mp hlarge)]; rfl
    rw [hall, ← hentries, ((h _).accepted page hpage).1] at hafter
    rw [← hafter, List.mem_filter, decide_eq_true_eq, UInt64.le_iff_toNat_le] at hentry
    have hlt := lt_of_sqlite hs' (List.mem_of_mem_filter (hafter ▸ hentry.1))
    omega
  · rw [← stores_withOutcomes outcome] at h
    exact acksExactly_of (hs.withOutcomes outcome) h

end Acks

namespace Alice

/-- The server when Alice has written to Bob. -/
def mailbox : sqliteStore.State :=
  (sqliteStore.afterFrames ServerCrypto.transparent (fun _ => text "10.0.0.1") server
    frames).shared.api

/-- Alice writes to a user. -/
def post (u : Bytes) : List Action :=
  handled TcpCommand.kEnqueueEnvelope (do
    let request ← serializeEnqueueRequest
      ⟨u, .fromChat ⟨text "session", user, u, ⟨none, 0, 0, 0⟩, [], [7]⟩⟩
    serializeAuthenticatedPayload ⟨drawn 2 32, request⟩)

/-- The server when she has written to Bob once more than a page holds, and to Carol. -/
def busy : sqliteStore.State :=
  (sqliteStore.afterFrames ServerCrypto.transparent (fun _ => text "10.0.0.1") server
    (post (text "carol") ++ (List.replicate 128 (post (text "bob"))).flatten ++
      frames)).shared.api

theorem mailboxes_busy : sqliteStore.Mailboxes busy :=
  mailboxes_after fresh_store (by decide +kernel)

theorem busy_inbox : ((sqliteStore.stores busy).inbox (text "bob")).length = 129 ∧
    ((sqliteStore.stores busy).inbox (text "carol")).length = 1 := by decide +kernel

end Alice

/-- Bob acknowledges a page, and Carol's letter stays. -/
theorem ack_semantics_alice : ((sqliteStore.stores Alice.busy).inbox (text "bob")).length = 129 ∧
    ((sqliteStore.stores Alice.busy).inbox (text "carol")).length = 1 ∧
    sqliteStore.AcksExactly ServerCrypto.transparent (text "bob") 128
      (sqliteStore.withOutcomes (fun _ => .ok) Alice.busy) :=
  ⟨Alice.busy_inbox.1, Alice.busy_inbox.2,
    (ack_semantics ServerCrypto.transparent sqliteStore Alice.busy Alice.mailboxes_busy
      (text "bob") 128).mpr (fun _ => Or.inl (by decide)) _⟩

/-- The letter has the id 1, and is still there when 2 ^ 63 has been acknowledged. -/
theorem not_acksExactly : ¬ sqliteStore.AcksExactly ServerCrypto.transparent (text "bob")
    9223372036854775808 Alice.mailbox := by
  intro h
  obtain ⟨hpage, hleft, hremoved⟩ :
      (((sqliteStore.api ServerCrypto.transparent).drainInbox (text "bob")
        (some 9223372036854775808) Alice.mailbox).1).toOption.isSome = true ∧
      ((sqliteStore.stores ((sqliteStore.api ServerCrypto.transparent).drainInbox
        (text "bob") (some 9223372036854775808) Alice.mailbox).2).inbox (text "bob")).length = 1 ∧
      (((sqliteStore.stores Alice.mailbox).inbox (text "bob")).filter fun entry =>
        ¬ entry.inboxId ≤ 9223372036854775808).length = 0 := by decide +kernel
  rcases hr : ((sqliteStore.api ServerCrypto.transparent).drainInbox (text "bob")
      (some 9223372036854775808) Alice.mailbox).1 with e | page
  · rw [hr] at hpage
    cases hpage
  · rw [(h.accepted page hr).1, hremoved] at hleft
    cases hleft

/-! ## 6. Page after page -/

/-- The loop of a client: a page is requested with the last id of the page before, until one is
empty.  `fuel` bounds the requests. -/
def drainLoop {S : Type} (api : IServerApi S) (u : Bytes) :
    Nat → Option UInt64 → Proc S (Option (List (List (InboxEnvelope Bytes))))
  | 0, _ => pure none
  | fuel + 1, ack => do
    let page ← api.drainInbox u ack
    match page.getLast? with
    | none => pure (some [])
    | some last => do
      let pages ← drainLoop api u fuel (some last.inboxId)
      pure (pages.map (page :: ·))

/-- The pages of a mailbox. -/
inductive Paged : List (InboxEnvelope Bytes) → List (List (InboxEnvelope Bytes)) → Prop
  | done : Paged [] []
  | page (page rest : List (InboxEnvelope Bytes)) (pages : List (List (InboxEnvelope Bytes)))
      (hnext : NextPage (page ++ rest) page) (hpage : page ≠ []) (hrest : Paged rest pages) :
      Paged (page ++ rest) (page :: pages)

theorem Paged.flatten_eq {entries : List (InboxEnvelope Bytes)}
    {pages : List (List (InboxEnvelope Bytes))} (h : Paged entries pages) :
    pages.flatten = entries := by
  induction h with
  | done => rfl
  | page page rest pages hnext hpage hrest ih => rw [List.flatten_cons, ih]

section Loop

variable {c : ServerCrypto} {b : Backend} {s : b.State} {u : Bytes}

theorem kept_none (b : Backend) (entries : List (InboxEnvelope Bytes)) :
    b.kept none entries = entries := by
  refine List.filter_eq_self.mpr fun entry _ => ?_
  cases b <;> rfl

/-- An acknowledgement of the last id of a page leaves what is behind the page. -/
theorem kept_page (hs : b.Mailboxes s) {page rest : List (InboxEnvelope Bytes)}
    (hentries : (b.stores s).inbox u = (page ++ rest).map InboxEnvelope.stored)
    {last : InboxEnvelope Bytes} (hlast : page.getLast? = some last) :
    b.kept (some last.inboxId) (page ++ rest) = rest := by
  have hincreasing := hs.increasing_of hentries
  obtain ⟨before, rfl⟩ := List.getLast?_eq_some_iff.mp hlast
  have hsmall : b = sqliteStore → last.inboxId.toNat < 2 ^ 63 := by
    rintro rfl
    have hmem : last.stored ∈ (sqliteStore.stores s).inbox u := by
      rw [hentries]
      exact List.mem_map_of_mem (by simp)
    exact lt_of_sqlite hs hmem
  have hfilter : ∀ entries : List (InboxEnvelope Bytes), b.kept (some last.inboxId) entries =
      entries.filter fun entry => ¬ entry.inboxId ≤ last.inboxId := fun entries =>
    List.filter_congr fun entry _ => by rw [acknowledges_of_lt hsmall, decide_not]
  rw [hfilter, List.filter_append]
  rw [List.pairwise_append, List.pairwise_append] at hincreasing
  obtain ⟨⟨-, -, hbefore⟩, -, hbehind⟩ := hincreasing
  have hgone : (before ++ [last]).filter (fun entry => ¬ entry.inboxId ≤ last.inboxId) = [] := by
    refine List.filter_eq_nil_iff.mpr fun entry hentry => ?_
    rw [decide_eq_true_eq, not_not]
    rcases List.mem_append.mp hentry with hentry | hentry
    · exact UInt64.le_of_lt (hbefore entry hentry last (List.mem_singleton_self _))
    · rw [List.mem_singleton.mp hentry]
      exact UInt64.le_refl _
  have hstays : rest.filter (fun entry => ¬ entry.inboxId ≤ last.inboxId) = rest := by
    refine List.filter_eq_self.mpr fun entry hentry => decide_eq_true ?_
    exact UInt64.not_le.mpr (hbehind last (List.mem_append_right _ (List.mem_singleton_self _))
      entry hentry)
  rw [hgone, hstays, List.nil_append]

/-- What the loop returns from a mailbox of which `remaining` is left behind `ack`. -/
structure Loops (c : ServerCrypto) (b : Backend) (u : Bytes) (fuel : Nat) (ack : Option UInt64)
    (remaining : List (InboxEnvelope Bytes)) (s : b.State) : Prop where
  returns : ∀ pages s', drainLoop (b.api c) u fuel ack s = (.ok (some pages), s') →
    Paged remaining pages
  terminates : remaining.length < fuel → (drainLoop (b.api c) u fuel ack s).1 ≠ .ok none
  succeeds : b.Reliable s → remaining.length < fuel →
    ∃ pages s', drainLoop (b.api c) u fuel ack s = (.ok (some pages), s')

theorem drainLoop_error {fuel : Nat} {ack : Option UInt64} {e : String} {s₁ : b.State}
    (hcall : (b.api c).drainInbox u ack s = (.error e, s₁)) :
    drainLoop (b.api c) u (fuel + 1) ack s = (.error e, s₁) := by
  rw [drainLoop, Proc.bind_error hcall]

theorem drainLoop_end {fuel : Nat} {ack : Option UInt64} {s₁ : b.State}
    (hcall : (b.api c).drainInbox u ack s = (.ok [], s₁)) :
    drainLoop (b.api c) u (fuel + 1) ack s = (.ok (some []), s₁) := by
  rw [drainLoop, Proc.bind_ok hcall]
  rfl

theorem drainLoop_page {fuel : Nat} {ack : Option UInt64} {page : List (InboxEnvelope Bytes)}
    {s₁ : b.State} {last : InboxEnvelope Bytes}
    (hcall : (b.api c).drainInbox u ack s = (.ok page, s₁)) (hlast : page.getLast? = some last) :
    drainLoop (b.api c) u (fuel + 1) ack s =
      ((drainLoop (b.api c) u fuel (some last.inboxId) s₁).1.map (Option.map (page :: ·)),
        (drainLoop (b.api c) u fuel (some last.inboxId) s₁).2) := by
  rw [drainLoop, Proc.bind_ok hcall]
  simp only [hlast]
  exact Proc.bind_pure_apply _ _ _

theorem loops (hs : b.Mailboxes s) {entries : List (InboxEnvelope Bytes)}
    (hentries : (b.stores s).inbox u = entries.map InboxEnvelope.stored) (fuel : Nat)
    (ack : Option UInt64) : b.Loops c u fuel ack (b.kept ack entries) s := by
  induction fuel generalizing s ack entries with
  | zero =>
    exact ⟨nofun, fun h => absurd h (Nat.not_lt_zero _), fun _ h => absurd h (Nat.not_lt_zero _)⟩
  | succ fuel ih =>
    have hdrains := drains c hs hentries ack
    rcases hcall : (b.api c).drainInbox u ack s with ⟨e | page, s₁⟩
    · refine ⟨?_, ?_, fun hreliable _ => ?_⟩
      · rw [drainLoop_error hcall]
        exact nofun
      · rw [drainLoop_error hcall]
        exact fun _ => nofun
      · obtain ⟨page, hpage⟩ := (hdrains.reliable hreliable).1
        rw [hcall] at hpage
        cases hpage
    obtain ⟨rfl, hinbox⟩ := hdrains.accepted page (congrArg Prod.fst hcall)
    have hs₁ := hdrains.mailboxes
    have hreliable₁ := fun h => (hdrains.reliable h).2
    rw [hcall] at hinbox hs₁ hreliable₁
    rcases hlast : (nextPage (b.kept ack entries)).getLast? with _ | last
    · -- the page is empty
      have hempty := List.getLast?_eq_none_iff.mp hlast
      rw [hempty] at hcall
      rw [nextPage_eq_nil_iff.mp hempty]
      refine ⟨fun pages s' h => ?_, ?_, fun _ _ => ⟨[], s₁, drainLoop_end hcall⟩⟩
      · rw [drainLoop_end hcall] at h
        obtain rfl := Option.some.inj (Except.ok.inj (congrArg Prod.fst h))
        exact .done
      · rw [drainLoop_end hcall]
        exact fun _ => nofun
    · obtain ⟨rest, hrest⟩ : nextPage (b.kept ack entries) <+: b.kept ack entries :=
        nextPage_prefix
      have hafter := (congrFun hinbox u).trans (Function.update_self u _ _)
      rw [← hrest] at hafter
      have hnext := ih hs₁ hafter (some last.inboxId)
      rw [kept_page hs₁ hafter hlast] at hnext
      have hpage : nextPage (b.kept ack entries) ≠ [] := by
        intro h
        rw [h] at hlast
        cases hlast
      have hshorter : (b.kept ack entries).length < fuel + 1 → rest.length < fuel := by
        intro h
        have hpos := List.length_pos_of_ne_nil hpage
        rw [← hrest, List.length_append] at h
        omega
      refine ⟨fun pages s' h => ?_, fun hfuel => ?_, fun hreliable hfuel => ?_⟩
      · rw [drainLoop_page hcall hlast] at h
        obtain ⟨hresult, -⟩ := Prod.mk.inj h
        rcases hloop : drainLoop (b.api c) u fuel (some last.inboxId) s₁ with
          ⟨e | _ | pages', s₂⟩ <;> rw [hloop] at hresult <;> cases hresult
        have hpaged := Paged.page _ rest pages' (hrest.symm ▸ nextPage_spec _) hpage
          (hnext.returns pages' s₂ hloop)
        rwa [hrest] at hpaged
      · rw [drainLoop_page hcall hlast]
        have hterminates := hnext.terminates (hshorter hfuel)
        rcases hloop : drainLoop (b.api c) u fuel (some last.inboxId) s₁ with ⟨e | _ | pages', s₂⟩
        · exact nofun
        · exact absurd (congrArg Prod.fst hloop) hterminates
        · exact nofun
      · obtain ⟨pages, s₂, hloop⟩ := hnext.succeeds (hreliable₁ hreliable) (hshorter hfuel)
        refine ⟨nextPage (b.kept ack entries) :: pages, s₂, ?_⟩
        rw [drainLoop_page hcall hlast, hloop]
        rfl

variable (c b s)

/-- What reading a mailbox to its end returns. -/
structure ReadsAll (u : Bytes) (entries : List (InboxEnvelope Bytes)) : Prop where
  /-- The pages are cut as they should be, and contain every entry once, in the order of the ids. -/
  returns : ∀ fuel pages s', drainLoop (b.api c) u fuel none s = (.ok (some pages), s') →
    Paged entries pages ∧ pages.flatten = entries ∧
      entries.Pairwise fun entry entry' => entry.inboxId < entry'.inboxId
  terminates : ∀ fuel, entries.length < fuel → (drainLoop (b.api c) u fuel none s).1 ≠ .ok none
  succeeds : b.Reliable s → ∀ fuel, entries.length < fuel →
    ∃ pages s', drainLoop (b.api c) u fuel none s = (.ok (some pages), s')
  /-- A page is empty only if the mailbox is. -/
  empty : ∀ ack s', (b.api c).drainInbox u ack s = (.ok [], s') → (b.stores s').inbox u = []

/-- **A mailbox is read completely**, page by page. -/
theorem paging_complete (hs : b.Mailboxes s) (u : Bytes) {entries : List (InboxEnvelope Bytes)}
    (hentries : (b.stores s).inbox u = entries.map InboxEnvelope.stored) :
    ReadsAll c b s u entries := by
  have hloops : ∀ fuel, b.Loops c u fuel none entries s := fun fuel => by
    have h := loops (c := c) hs hentries fuel none
    rwa [kept_none] at h
  refine ⟨fun fuel pages s' h => ?_, fun fuel => (hloops fuel).terminates,
    fun hreliable fuel => (hloops fuel).succeeds hreliable, fun ack s' h => ?_⟩
  · have hpaged := (hloops fuel).returns pages s' h
    exact ⟨hpaged, hpaged.flatten_eq, hs.increasing_of hentries⟩
  · obtain ⟨hpage, hinbox⟩ := (drains c hs hentries ack).accepted [] (congrArg Prod.fst h)
    rw [h] at hinbox
    rw [hinbox, Function.update_self, nextPage_eq_nil_iff.mp hpage.symm]
    rfl

end Loop

theorem paging_complete_alice : ∃ entries : List (InboxEnvelope Bytes), entries.length = 129 ∧
    (drainLoop (sqliteStore.api ServerCrypto.transparent) (text "bob") 3 none
      Alice.busy).1.toOption.map (Option.map (List.map List.length)) = some (some [128, 1]) ∧
    ReadsAll ServerCrypto.transparent sqliteStore Alice.busy (text "bob") entries := by
  have hpages : (drainLoop (sqliteStore.api ServerCrypto.transparent) (text "bob") 3 none
      Alice.busy).1.toOption.map (Option.map (List.map List.length)) = some (some [128, 1]) := by
    decide +kernel
  have hletters := Alice.busy_inbox.1
  obtain ⟨entries, hentries⟩ := exists_entries (Alice.mailboxes_busy.produced (text "bob"))
  rw [hentries, List.length_map] at hletters
  exact ⟨entries, hletters, hpages, paging_complete ServerCrypto.transparent sqliteStore Alice.busy
    Alice.mailboxes_busy (text "bob") hentries⟩

end Backend

end PqChat
