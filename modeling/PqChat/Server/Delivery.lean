/-
# Every response can be delivered

A response that is larger than a frame is not sent: `WriteFrame` refuses it, the server ignores
that, and the client waits.  What the server hands out it has been given in frames before, so the
question is one of overheads.  A request wraps an envelope in a token (40 bytes with both length
fields), a user id and a length field; a page wraps it in a count, an id and a length field, which
is less.  Beyond its first envelope a page stays below half a frame.

So the bound is carried by the stored data: an envelope in a mailbox, and a published bundle, are
what a frame had room for (`Carried`, `CarriedBundle`), and that is an invariant of the histories.
-/
import PqChat.Wire.Sizes
import PqChat.Server.Authorisation
import PqChat.Server.StoreAgreement

namespace PqChat

open ByteString Codec TcpServer

/-! ## 1. Frames -/

/-- `tcp_wire.h`. -/
def kMaxFramePayloadBytes : UInt32 := 1024 * 1024

namespace TcpStatus

def kOk : UInt32 := 0
def kError : UInt32 := 1

end TcpStatus

/-- `LoadU32`, of the first bytes of a buffer. -/
def loadU32 : Bytes → UInt32
  | a :: b :: c :: d :: _ => ofBe32 a b c d
  | _ => 0

/-- `StoreU32`. -/
def storeU32 (value : UInt32) : Bytes := be32 value

/-- `WriteFrame` and `WriteFrameTls`: the bytes that are sent. -/
def writeFrame (type : UInt32) (payload : Bytes) : Result Bytes :=
  if payload.length > kMaxFramePayloadBytes.toNat then .error "frame payload too large"
  else .ok (storeU32 type ++ storeU32 (UInt32.ofNat payload.length) ++ payload)

/-- `ReadExact`, on what the peer sends before it closes the connection. -/
def readExact (len : Nat) : Reader Bytes := fun input =>
  if input.length < len then
    (.error (if input = [] then "eof" else "socket closed mid-frame"), [])
  else (.ok (input.take len), input.drop len)

/-- `ReadFrame` and `ReadFrameTls`. -/
def readFrame : Reader Frame := do
  let header ← readExact 8
  let type := loadU32 header
  let payloadLen := loadU32 (header.drop 4)
  Proc.require (¬ payloadLen > kMaxFramePayloadBytes) "frame payload too large"
  let payload ← readExact payloadLen.toNat
  pure ⟨type, payload⟩

theorem readExact_append {b : Bytes} {len : Nat} (h : b.length = len) (rest : Bytes) :
    readExact len (b ++ rest) = (.ok b, rest) := by
  rw [readExact, if_neg (by rw [List.length_append]; omega), List.take_left' h, List.drop_left' h]

theorem loadU32_storeU32 (v : UInt32) (rest : Bytes) : loadU32 (storeU32 v ++ rest) = v :=
  ofBe32_be32 v

/-- A frame that fits is read as it was written. -/
theorem readFrame_writeFrame (type : UInt32) {payload : Bytes}
    (h : payload.length ≤ kMaxFramePayloadBytes.toNat) :
    ∃ bytes, writeFrame type payload = .ok bytes ∧
      ∀ rest, readFrame (bytes ++ rest) = (.ok ⟨type, payload⟩, rest) := by
  refine ⟨_, if_neg (not_lt.mpr h), fun rest => ?_⟩
  have hlen : (UInt32.ofNat payload.length).toNat = payload.length :=
    UInt32.toNat_ofNat_of_lt' (h.trans_lt kMaxFramePayloadBytes.toNat_lt)
  have hheader : (storeU32 type ++ storeU32 (UInt32.ofNat payload.length)).length = 8 := rfl
  have hsize : ¬ UInt32.ofNat payload.length > kMaxFramePayloadBytes := by
    rw [gt_iff_lt, UInt32.lt_iff_toNat_lt, hlen]
    exact not_lt.mpr h
  have htype : loadU32 (storeU32 type ++ storeU32 (UInt32.ofNat payload.length)) = type :=
    loadU32_storeU32 _ _
  have hcount : loadU32 ((storeU32 type ++ storeU32 (UInt32.ofNat payload.length)).drop 4) =
      UInt32.ofNat payload.length := loadU32_storeU32 _ []
  rw [List.append_assoc, readFrame, Proc.bind_ok (readExact_append hheader _)]
  rw [htype, hcount, Proc.require_pos hsize, Proc.pure_bind, hlen,
    Proc.bind_ok (readExact_append rfl rest)]
  rfl

/-! ## 2. The size of a page -/

/-- `estimated_size` of an entry. -/
def InboxEnvelope.estimatedSize (item : InboxEnvelope Bytes) : Nat :=
  item.envelope.encoding.length + 8 + 8

/-- The limits on a page: a number of entries and, beyond the first of them, a size. -/
structure PageWithin (page : List (InboxEnvelope Bytes)) : Prop where
  items : page.length ≤ kMaxDrainInboxBatchItems
  bytes : page.length ≤ 1 ∨
    (page.map InboxEnvelope.estimatedSize).sum ≤ kMaxDrainInboxBatchBytes

theorem pageWithin_nil : PageWithin [] := ⟨Nat.zero_le _, Or.inl (Nat.zero_le _)⟩

theorem sum_snoc (page : List (InboxEnvelope Bytes)) (item : InboxEnvelope Bytes) :
    ((page ++ [item]).map InboxEnvelope.estimatedSize).sum =
      (page.map InboxEnvelope.estimatedSize).sum + item.estimatedSize := by
  rw [List.map_append, List.sum_append]
  rfl

/-- An entry that passes the check of the loops is added. -/
theorem PageWithin.snoc {page : List (InboxEnvelope Bytes)} (h : PageWithin page)
    (item : InboxEnvelope Bytes) (hitems : page ≠ [] → page.length < kMaxDrainInboxBatchItems)
    (hbytes : page ≠ [] → (page.map InboxEnvelope.estimatedSize).sum + item.estimatedSize ≤
      kMaxDrainInboxBatchBytes) : PageWithin (page ++ [item]) := by
  by_cases hpage : page = []
  · subst hpage
    exact ⟨show 1 ≤ kMaxDrainInboxBatchItems by decide, Or.inl (Nat.le_refl _)⟩
  · refine ⟨?_, Or.inr ?_⟩
    · rw [List.length_append]
      exact hitems hpage
    · rw [sum_snoc]
      exact hbytes hpage

/-- The page that a loop returns: it can be formed, it keeps the limits, and there is something
in it if there is anything to return. -/
def FormsPage (r : Result (List (InboxEnvelope Bytes))) (nothing : Prop) : Prop :=
  ∃ page, r = .ok page ∧ PageWithin page ∧ (page = [] → nothing)

theorem InMemoryServer.drainPage_forms {entries out : List (InboxEnvelope Bytes)}
    (hentries : ∀ entry ∈ entries, entry.envelope.WellFormed) (hout : PageWithin out) :
    FormsPage (InMemoryServer.drainPage out (out.map InboxEnvelope.estimatedSize).sum entries)
      (out = [] ∧ entries = []) := by
  induction entries generalizing out with
  | nil => exact ⟨out, rfl, hout, fun h => ⟨h, rfl⟩⟩
  | cons entry entries ih =>
    obtain ⟨hentry, hrest⟩ := List.forall_mem_cons.mp hentries
    rw [InMemoryServer.drainPage, serializeEnvelope_eq hentry]
    change FormsPage (if out ≠ [] ∧ (out.length ≥ kMaxDrainInboxBatchItems ∨
        (out.map InboxEnvelope.estimatedSize).sum + entry.estimatedSize >
          kMaxDrainInboxBatchBytes) then .ok out
      else InMemoryServer.drainPage (out ++ [entry])
        ((out.map InboxEnvelope.estimatedSize).sum + entry.estimatedSize) entries) _
    split
    · rename_i hcut
      exact ⟨out, rfl, hout, fun h => absurd h hcut.1⟩
    · rename_i hcut
      rw [← sum_snoc]
      obtain ⟨page, hpage, hwithin, hempty⟩ := ih hrest (hout.snoc entry
        (fun hne => not_le.mp fun h => hcut ⟨hne, Or.inl h⟩)
        fun hne => not_lt.mp fun h => hcut ⟨hne, Or.inr h⟩)
      refine ⟨page, hpage, hwithin, fun h => ?_⟩
      exact absurd (hempty h).1 (List.append_ne_nil_of_right_ne_nil _ (List.cons_ne_nil _ _))

theorem SqliteStore.drainPage_forms {rows : List (SqliteStore.Row Bytes)}
    {out : List (InboxEnvelope Bytes)}
    (hrows : ∀ row ∈ rows, ∃ envelope, deserializeEnvelope row.value = .ok envelope)
    (hout : PageWithin out) (hlen : out.length + rows.length ≤ kMaxDrainInboxBatchItems) :
    FormsPage (SqliteStore.drainPage out (out.map InboxEnvelope.estimatedSize).sum rows)
      (out = [] ∧ rows = []) := by
  induction rows generalizing out with
  | nil => exact ⟨out, rfl, hout, fun h => ⟨h, rfl⟩⟩
  | cons row rows ih =>
    obtain ⟨⟨envelope, hread⟩, hrest⟩ := List.forall_mem_cons.mp hrows
    rw [List.length_cons] at hlen
    generalize hitem : (⟨UInt64.ofNat row.rowid, envelope⟩ : InboxEnvelope Bytes) = item
    have hsize : row.value.length + 8 + 8 = item.estimatedSize := by
      rw [← hitem, InboxEnvelope.estimatedSize, ← (decodes_envelope.put_decode _ _ hread).1]
    rw [SqliteStore.drainPage, hsize]
    split
    · rename_i hcut
      exact ⟨out, rfl, hout, fun h => absurd h hcut.1⟩
    · rename_i hcut
      rw [hread]
      change FormsPage (SqliteStore.drainPage (out ++ [⟨UInt64.ofNat row.rowid, envelope⟩]) _
        rows) _
      rw [hitem, ← sum_snoc]
      obtain ⟨page, hpage, hwithin, hempty⟩ := ih hrest (hout.snoc item
        (fun _ => by omega) fun hne => not_lt.mp fun h => hcut ⟨hne, h⟩)
        (by rw [List.length_append, List.length_singleton]; omega)
      refine ⟨page, hpage, hwithin, fun h => ?_⟩
      exact absurd (hempty h).1 (List.append_ne_nil_of_right_ne_nil _ (List.cons_ne_nil _ _))

/-- What a response weighs: less than its page was estimated at. -/
theorem length_putInboxEnvelopeVector (items : List (InboxEnvelope Bytes)) :
    (putInboxEnvelopeVector items).length + 4 * items.length =
      (items.map InboxEnvelope.estimatedSize).sum + 4 := by
  have hitems : (items.flatMap fun item =>
      putU64 item.inboxId ++ putBytes item.envelope.encoding).length + 4 * items.length =
      (items.map InboxEnvelope.estimatedSize).sum := by
    induction items with
    | nil => rfl
    | cons item items ih =>
      have hid : (putU64 item.inboxId).length = 8 := rfl
      rw [List.flatMap_cons, List.length_append, List.length_append, length_putBytes, hid,
        List.map_cons, List.sum_cons, ← ih, InboxEnvelope.estimatedSize, List.length_cons]
      omega
  have hcount : (putU32 (UInt32.ofNat items.length)).length = 4 := rfl
  rw [putInboxEnvelopeVector, List.length_append, hcount, ← hitems]
  omega

/-- A page fits into a frame if every envelope did. -/
theorem PageWithin.length_le {page : List (InboxEnvelope Bytes)} (h : PageWithin page)
    (hitems : ∀ item ∈ page,
      item.envelope.encoding.length + 48 ≤ kMaxFramePayloadBytes.toNat) :
    (putInboxEnvelopeVector page).length ≤ kMaxFramePayloadBytes.toNat := by
  have hlen := length_putInboxEnvelopeVector page
  have hmax : kMaxFramePayloadBytes.toNat = 1024 * 1024 := rfl
  rcases h.bytes with hone | hbytes
  · rcases Nat.le_one_iff_eq_zero_or_eq_one.mp hone with hzero | hone
    · obtain rfl := List.eq_nil_of_length_eq_zero hzero
      rw [List.map_nil, List.sum_nil, List.length_nil] at hlen
      omega
    · obtain ⟨item, rfl⟩ := List.length_eq_one_iff.mp hone
      have hitem := hitems item (List.mem_singleton_self _)
      rw [List.map_singleton, List.sum_singleton, InboxEnvelope.estimatedSize,
        List.length_singleton] at hlen
      omega
  · rw [kMaxDrainInboxBatchBytes] at hbytes
    omega

/-! ## 3. What the calls return -/

/-- What is handed out of a stored bundle: the first one-time key of each kind, or none. -/
def PrekeyBundle.forSession (stored : PrekeyBundle Bytes) : PrekeyBundle Bytes :=
  match stored.oneTimeEc, stored.oneTimePq with
  | ec :: _, pq :: _ => { stored with oneTimeEc := [ec], oneTimePq := [pq] }
  | _, _ => { stored with oneTimeEc := [], oneTimePq := [] }

/-- The text columns of the bundle are read back as they were written, and it is filed under its
user. -/
structure Filed (userId : Bytes) (stored : PrekeyBundle Bytes) : Prop where
  userId : stored.userId = userId
  version : stored.version = kProtocolVersion
  cipherSuite : stored.cipherSuite = kCipherSuite

theorem Filed.readBundle {userId : Bytes} {stored : PrekeyBundle Bytes}
    (h : Filed userId stored) : SqliteStore.readBundle userId stored = stored := by
  obtain ⟨_, _, _, _, _, _, _, _, _, _, _, _⟩ := stored
  obtain ⟨rfl, rfl, rfl⟩ := h
  have hversion : cString (kProtocolVersion : Bytes) = kProtocolVersion := by decide
  have hsuite : cString (kCipherSuite : Bytes) = kCipherSuite := by decide
  simp only [SqliteStore.readBundle, hversion, hsuite]

theorem InMemoryServer.acquire_forSession (userId : Bytes) (s : InMemoryServer Bytes) :
    Proc.wp (acquireBundleForSession userId) (fun r _ => ∀ bundle, r = .ok bundle →
      ∃ stored, s.stores.bundle userId = some stored ∧ bundle = stored.forSession) s := by
  unfold acquireBundleForSession
  refine Proc.wp_get_bind ?_
  split
  · exact Proc.wp_fail nofun
  · rename_i store hstore
    have hstored : s.stores.bundle userId = some store.bundle :=
      congrArg (Option.map BundleStore.bundle) hstore
    have hout : ∀ {ecs pqs : List (OneTimePrekey Bytes)}, store.bundle.forSession =
        { store.baseBundle with oneTimeEc := ecs, oneTimePq := pqs } →
        ∀ bundle, Except.ok (ε := String)
          { store.baseBundle with oneTimeEc := ecs, oneTimePq := pqs } = .ok bundle →
        ∃ stored, s.stores.bundle userId = some stored ∧ bundle = stored.forSession := by
      intro ecs pqs h bundle hbundle
      exact ⟨_, hstored, (Except.ok.inj hbundle).symm.trans h.symm⟩
    dsimp only
    split
    · rename_i ec ecs pq pqs hec hpq
      refine Proc.wp_modify_bind (Proc.wp_pure (hout ?_))
      simp only [PrekeyBundle.forSession, BundleStore.bundle, hec, hpq]
    · rename_i hnone
      refine Proc.wp_pure (hout ?_)
      unfold PrekeyBundle.forSession
      split
      · rename_i ec ecs pq pqs hec hpq
        exact absurd hpq (hnone ec ecs pq pqs hec)
      · rfl

theorem SqliteStore.acquire_forSession {userId : Bytes} {s : SqliteStore} (hs : s.Ordered)
    (hfiled : ∀ stored, s.stores.bundle userId = some stored → Filed userId stored) :
    Proc.wp (acquireBundleForSession userId) (fun r _ => ∀ bundle, r = .ok bundle →
      ∃ stored, s.stores.bundle userId = some stored ∧ bundle = stored.forSession) s := by
  refine Proc.wp_mono (Sql.wp_transaction_inside (h := connection)
    (G := fun bundle _ => ∃ stored, s.stores.bundle userId = some stored ∧
      bundle = stored.forSession) hs.closed fun s' hs' => ?_) fun _ _ h bundle hb => h.2.2 bundle hb
  replace hs' : s'.db.tables = s.db.tables := hs'
  refine Sql.inside_queryRow_bind fun r s₁ hr h₁ => ?_
  replace h₁ : s₁.db.tables = s.db.tables := h₁.trans hs'
  cases r with
  | none => exact Sql.inside_fail _
  | some row =>
    have hrow : s.db.tables.bundles.get userId = some row := by
      rcases hr with hr | hr
      · cases hr
      · rw [← hs']
        exact hr.symm
    have hstored : s.stores.bundle userId = some { row with
        oneTimeEc := (s.db.tables.oneTimeEc.of userId).map Row.value
        oneTimePq := (s.db.tables.oneTimePq.of userId).map Row.value } :=
      congrArg (Option.map _) hrow
    have hread : ∀ ecs pqs, { readBundle userId row with oneTimeEc := ecs, oneTimePq := pqs } =
        { row with oneTimeEc := ecs, oneTimePq := pqs } := by
      intro ecs pqs
      exact congrArg (fun b : PrekeyBundle Bytes => { b with oneTimeEc := ecs, oneTimePq := pqs })
        (hfiled _ hstored).readBundle
    obtain ⟨hbaseEc, hbasePq⟩ := hs.tables.base hrow
    refine Sql.inside_query_bind fun s₂ h₂ => Sql.inside_query_bind fun s₃ _ => ?_
    replace h₂ : s₂.db.tables = s.db.tables := h₂.trans h₁
    -- the two selections read the tables of the beginning
    have hec₁ : firstRow s₁.db.tables.oneTimeEc userId = (s.db.tables.oneTimeEc.of userId).head? :=
      by rw [h₁, firstRow_eq_head?]
    have hpq₂ : firstRow s₂.db.tables.oneTimePq userId = (s.db.tables.oneTimePq.of userId).head? :=
      by rw [h₂, firstRow_eq_head?]
    dsimp only
    split
    · rename_i ec pq hec hpq
      replace hec := hec₁.symm.trans hec
      replace hpq := hpq₂.symm.trans hpq
      obtain ⟨ecs, hecs⟩ := List.head?_eq_some_iff.mp hec
      obtain ⟨pqs, hpqs⟩ := List.head?_eq_some_iff.mp hpq
      refine Sql.inside_update_bind fun s₄ _ => Sql.inside_update_bind fun s₅ _ =>
        Sql.inside_pure ⟨_, hstored, ?_⟩
      rw [hecs, hpqs]
      exact hread [ec.value] [pq.value]
    · rename_i hnone
      refine Sql.inside_pure ⟨_, hstored, ?_⟩
      unfold PrekeyBundle.forSession
      split
      · rename_i ec ecs pq pqs hec hpq
        obtain ⟨ecRow, ecRows, hecRows, -, -⟩ := List.map_eq_cons_iff.mp hec
        obtain ⟨pqRow, pqRows, hpqRows, -, -⟩ := List.map_eq_cons_iff.mp hpq
        exact (hnone ecRow pqRow (hec₁.trans (congrArg List.head? hecRows))
          (hpq₂.trans (congrArg List.head? hpqRows))).elim
      · refine Eq.trans ?_ (hread [] [])
        rw [readBundle, hbaseEc, hbasePq]

/-- An envelope that a frame had room for, with the token, the user id and the length fields of
an enqueue request. -/
structure Carried (envelope : Envelope Bytes) : Prop where
  wellFormed : envelope.WellFormed
  small : envelope.parts.Small
  fits : envelope.parts.Fits
  size : envelope.encoding.length + 48 ≤ kMaxFramePayloadBytes.toNat

/-- An entry that holds such an envelope. -/
def StoredEnvelope.Holds (entry : StoredEnvelope Bytes) : Prop :=
  ∃ envelope, entry.content = .ok envelope ∧ Carried envelope

theorem InMemoryServer.drain_forms {userId : Bytes} (ack : Option UInt64)
    {s : InMemoryServer Bytes} (hs : ∀ entry ∈ s.stores.inbox userId, entry.Holds) :
    FormsPage (drainInbox userId ack s).1
      ((drainInbox userId ack s).2.stores.inbox userId = []) := by
  have hkept : ∀ entry ∈ acked ack ((s.inbox.get userId).getD []), entry.envelope.WellFormed := by
    intro entry hentry
    have hmem : entry ∈ (s.inbox.get userId).getD [] := by
      cases ack with
      | none => exact hentry
      | some a => exact (List.dropWhile_sublist _).subset hentry
    obtain ⟨envelope, hcontent, hcarried⟩ := hs _ (List.mem_map_of_mem hmem)
    obtain rfl := Except.ok.inj hcontent
    exact hcarried.wellFormed
  obtain ⟨page, hpage, hwithin, hempty⟩ := drainPage_forms hkept pageWithin_nil
  obtain ⟨s', hdrain, -, -, hinbox⟩ := drainInbox_of_page hpage
  rw [hdrain]
  refine ⟨page, rfl, hwithin, fun h => ?_⟩
  rw [hinbox, Function.update_self, (hempty h).2, List.map_nil]

theorem SqliteStore.selectPage_forms {userId : Bytes} {inbox : RowTable Bytes}
    (hinbox : ∀ entry ∈ (inbox.of userId).map Row.stored, entry.Holds) :
    FormsPage (drainPage [] 0 (selectInbox userId kMaxDrainInboxBatchItems inbox))
      ((inbox.of userId).map Row.stored = []) := by
  have hread : ∀ row ∈ selectInbox userId kMaxDrainInboxBatchItems inbox,
      ∃ envelope, deserializeEnvelope row.value = .ok envelope := by
    intro row hrow
    obtain ⟨envelope, hcontent, -⟩ := hinbox _ (List.mem_map_of_mem (List.mem_of_mem_take hrow))
    exact ⟨envelope, hcontent⟩
  have hlen : (selectInbox userId kMaxDrainInboxBatchItems inbox).length ≤
      kMaxDrainInboxBatchItems := List.length_take_le _ _
  obtain ⟨page, hpage, hwithin, hempty⟩ := drainPage_forms hread pageWithin_nil
    (by rwa [List.length_nil, Nat.zero_add])
  refine ⟨page, hpage, hwithin, fun h => ?_⟩
  have hrows : (inbox.of userId).take kMaxDrainInboxBatchItems = [] := (hempty h).2
  rcases List.take_eq_nil_iff.mp hrows with hzero | hnil
  · cases hzero
  · rw [hnil, List.map_nil]

theorem SqliteStore.drain_forms {userId : Bytes} {ack : Option UInt64} {s : SqliteStore}
    (hs : s.Ordered) (hinbox : ∀ entry ∈ s.stores.inbox userId, entry.Holds)
    {page : List (InboxEnvelope Bytes)} (hpage : (drainInbox userId ack s).1 = .ok page) :
    FormsPage (drainInbox userId ack s).1
      ((drainInbox userId ack s).2.stores.inbox userId = []) := by
  have hselected : Proc.wp (drainInbox userId ack) (fun r s' => ∀ page, r = .ok page →
      drainPage [] 0 (selectInbox userId kMaxDrainInboxBatchItems s'.db.tables.inbox) =
        .ok page) s := by
    refine Proc.wp_mono (Sql.wp_transaction_inside (h := connection) (G := fun page t =>
      drainPage [] 0 (selectInbox userId kMaxDrainInboxBatchItems t.inbox) = .ok page) hs.closed
      fun s' _ => ?_) fun _ _ h page hb => h.2.2 page hb
    have hselect : ∀ s₁, Sql.Inside connection (do
        let rows ← connection.on
          (Sql.query fun t => selectInbox userId kMaxDrainInboxBatchItems t.inbox)
        Proc.ofExcept "" (drainPage [] 0 rows))
        (fun page t => drainPage [] 0 (selectInbox userId kMaxDrainInboxBatchItems t.inbox) =
          .ok page) s₁ := fun s₁ => Sql.inside_query_bind fun s₂ h₂ =>
      Sql.inside_ofExcept fun page hpage => by
        rw [h₂]
        exact hpage
    cases ack with
    | none => exact hselect s'
    | some a => exact Sql.inside_update_bind fun s₁ _ => hselect s₁
  obtain ⟨-, hdrained⟩ := drainInbox_stores userId ack hs
  have hafter : ∀ entry ∈ (drainInbox userId ack s).2.stores.inbox userId, entry.Holds :=
    fun entry hentry => hinbox entry ((hdrained.suffix userId).subset hentry)
  obtain ⟨page', hpage', hwithin, hempty⟩ := selectPage_forms hafter
  rw [hselected page hpage] at hpage'
  obtain rfl := Except.ok.inj hpage'
  exact ⟨page, hpage, hwithin, hempty⟩

/-- If every statement succeeds, a page is returned. -/
theorem SqliteStore.drain_ok {userId : Bytes} {ack : Option UInt64} {s : SqliteStore}
    (hs : s.Ordered) (hreliable : s.db.Reliable)
    (hinbox : ∀ entry ∈ s.stores.inbox userId, entry.Holds) :
    ∃ page, (drainInbox userId ack s).1 = .ok page := by
  have hkept : ∀ entry ∈ ((acked userId ack s.db.tables.inbox).of userId).map Row.stored,
      entry.Holds := by
    intro entry hentry
    refine hinbox entry ?_
    cases ack with
    | none => exact hentry
    | some a => exact (ackInbox_of hs.tables.inbox userId a).1.suffix.subset hentry
  obtain ⟨page, hpage, -, -⟩ := selectPage_forms hkept
  obtain ⟨_, hdrain, -⟩ := leaves_drainInbox hreliable hs.closed hpage
  exact ⟨page, congrArg Prod.fst hdrain⟩

/-! ## 4. What a frame has room for -/

/-- A bundle that a frame had room for. -/
structure CarriedBundle (bundle : PrekeyBundle Bytes) : Prop where
  small : bundle.parts.Small
  fits : bundle.parts.Fits
  size : (putPrekeyBundle bundle).length ≤ kMaxFramePayloadBytes.toNat

section Sizes

variable {payload : Bytes}

/-- The overhead of a token. -/
theorem length_authenticated {authenticated : AuthenticatedPayload Bytes}
    (h : deserializeAuthenticatedPayload payload = .ok authenticated) :
    payload.length = authenticated.sessionToken.length + authenticated.payload.length + 8 := by
  obtain ⟨rfl, -, -⟩ := WireType.authenticatedPayload.decodes.put_decode _ _ h
  change (Writer.bytes (Writer.bytes [] authenticated.sessionToken)
    authenticated.payload).length = _
  rw [writer_bytes, writer_bytes, List.nil_append, List.length_append, length_putBytes,
    length_putBytes]
  omega

theorem Parts.Small.right {p q : Parts} (h : (p ++ q).Small) : q.Small :=
  ⟨fun x hx => h.1 x (List.mem_append_right _ hx), fun x hx => h.2.1 x (List.mem_append_right _ hx),
    fun n hn => h.2.2 n (List.mem_append_right _ hn)⟩

theorem Parts.Fits.right {p q : Parts} (h : (p ++ q).Fits) : q.Fits :=
  ⟨fun x hx => h.1 x (List.mem_append_right _ hx), fun x hx => h.2.1 x (List.mem_append_right _ hx),
    fun n hn => h.2.2 n (List.mem_append_right _ hn)⟩

theorem carried_of_request {request : EnqueueRequest Bytes}
    (h : deserializeEnqueueRequest payload = .ok request)
    (hsize : payload.length + 40 ≤ kMaxFramePayloadBytes.toNat) : Carried request.envelope := by
  obtain ⟨rfl, ⟨hformed, hsmall⟩, hfits, -⟩ := decodes_enqueueRequest.put_decode _ _ h
  rw [putEnqueueRequest, List.length_append, length_putBytes, length_putBytes] at hsize
  exact ⟨hformed, hsmall.right, hfits.right, by omega⟩

theorem carriedBundle_of_payload {bundle : PrekeyBundle Bytes}
    (h : deserializePrekeyBundle payload = .ok bundle)
    (hsize : payload.length ≤ kMaxFramePayloadBytes.toNat) : CarriedBundle bundle := by
  obtain ⟨rfl, ⟨-, hsmall⟩, hfits, -⟩ := WireType.prekeyBundle.decodes.put_decode _ _ h
  exact ⟨hsmall, hfits, hsize⟩

/-- The fields of a bundle other than the one-time keys do not depend on them. -/
theorem length_putPrekeyBundle (bundle : PrekeyBundle Bytes)
    (ecs pqs : List (OneTimePrekey Bytes)) :
    (putPrekeyBundle { bundle with oneTimeEc := ecs, oneTimePq := pqs }).length =
      (putPrekeyBundle { bundle with oneTimeEc := [], oneTimePq := [] }).length +
        (ecs.flatMap putOneTimePrekey).length + (pqs.flatMap putOneTimePrekey).length := by
  have hu32 : ∀ v, (putU32 v).length = 4 := fun _ => rfl
  simp only [putPrekeyBundle, serializePrekeyBundle, writer_string, writer_bytes, writeOneTime_eq,
    Except.toOption, Option.getD_some, List.length_append, List.flatMap_nil, List.length_nil, hu32]
  rw [writeSignedPrekey_eq, writeSignedPrekey_eq]
  simp only [List.length_append]
  omega

/-- A bundle with fewer one-time keys needs no more room. -/
theorem CarriedBundle.sublist {bundle : PrekeyBundle Bytes} (h : CarriedBundle bundle)
    {ecs pqs : List (OneTimePrekey Bytes)} (hecs : ecs.Sublist bundle.oneTimeEc)
    (hpqs : pqs.Sublist bundle.oneTimePq) :
    CarriedBundle { bundle with oneTimeEc := ecs, oneTimePq := pqs } := by
  have hfields : ∀ x ∈ (PrekeyBundle.parts
      { bundle with oneTimeEc := ecs, oneTimePq := pqs }).fields, x ∈ bundle.parts.fields := by
    intro x hx
    simp only [PrekeyBundle.parts, parts_append, List.mem_append, List.mem_map] at hx ⊢
    rcases hx with ((hx | ⟨key, hkey | hkey, rfl⟩) | hx) | hx
    · exact Or.inl (Or.inl (Or.inl hx))
    · exact Or.inl (Or.inl (Or.inr ⟨key, Or.inl (hecs.subset hkey), rfl⟩))
    · exact Or.inl (Or.inl (Or.inr ⟨key, Or.inr (hpqs.subset hkey), rfl⟩))
    · exact Or.inl (Or.inr hx)
    · exact Or.inr hx
  have hcounts : ∀ {max : Nat}, (∀ n ∈ bundle.parts.counts, n ≤ max) → ∀ n ∈ (PrekeyBundle.parts
      { bundle with oneTimeEc := ecs, oneTimePq := pqs }).counts, n ≤ max := by
    intro max hmax n hn
    have hcounts : bundle.parts.counts = [bundle.oneTimeEc.length, bundle.oneTimePq.length] := rfl
    rw [hcounts] at hmax
    rcases List.mem_pair.mp (show n ∈ [ecs.length, pqs.length] from hn) with rfl | rfl
    · exact hecs.length_le.trans (hmax _ (List.mem_cons_self ..))
    · exact hpqs.length_le.trans (hmax _ (List.mem_cons_of_mem _ (List.mem_cons_self ..)))
  refine ⟨⟨h.small.1, fun x hx => h.small.2.1 x (hfields x hx), fun n hn => ?_⟩,
    ⟨h.fits.1, fun x hx => h.fits.2.1 x (hfields x hx), hcounts h.fits.2.2⟩, ?_⟩
  · exact Nat.lt_succ_of_le (hcounts (fun n hn => Nat.le_of_lt_succ (h.small.2.2 n hn)) n hn)
  · have hsub := length_putPrekeyBundle bundle ecs pqs
    have hfull : (putPrekeyBundle bundle).length = _ :=
      length_putPrekeyBundle bundle bundle.oneTimeEc bundle.oneTimePq
    have hec := (hecs.flatMap putOneTimePrekey).length_le
    have hpq := (hpqs.flatMap putOneTimePrekey).length_le
    have hsize := h.size
    omega

theorem CarriedBundle.leftOf {bundle published : PrekeyBundle Bytes} (h : CarriedBundle published)
    (hleft : Backend.LeftOf bundle published) : CarriedBundle bundle := by
  obtain ⟨ecs, pqs, hecs, hpqs, rfl⟩ := hleft
  exact h.sublist hecs.sublist hpqs.sublist

theorem CarriedBundle.forSession {bundle : PrekeyBundle Bytes} (h : CarriedBundle bundle) :
    CarriedBundle bundle.forSession := by
  unfold PrekeyBundle.forSession
  split
  · rename_i ec ecs pq pqs hec hpq
    refine h.sublist ?_ ?_
    · rw [hec]
      exact (List.nil_sublist ecs).cons_cons ec
    · rw [hpq]
      exact (List.nil_sublist pqs).cons_cons pq
  · exact h.sublist (List.nil_sublist _) (List.nil_sublist _)

end Sizes

/-- `WriteFrame` sends the response, and the client reads and decodes it. -/
def Arrives {α : Type} (deserialize : Bytes → Result α) (value : α) (response : Bytes) : Prop :=
  response.length ≤ kMaxFramePayloadBytes.toNat ∧
  (∃ bytes, writeFrame TcpStatus.kOk response = .ok bytes ∧
    ∀ rest, readFrame (bytes ++ rest) = (.ok ⟨TcpStatus.kOk, response⟩, rest)) ∧
  deserialize response = .ok value

theorem arrives_of_le {α : Type} {deserialize : Bytes → Result α} {value : α} {response : Bytes}
    (hlen : response.length ≤ kMaxFramePayloadBytes.toNat)
    (hread : deserialize response = .ok value) : Arrives deserialize value response :=
  ⟨hlen, readFrame_writeFrame TcpStatus.kOk hlen, hread⟩

theorem frame_le_input : kMaxFramePayloadBytes.toNat ≤ kMaxSerializedInputBytes := by decide

theorem CarriedBundle.arrives {bundle : PrekeyBundle Bytes} (h : CarriedBundle bundle) :
    ∃ response, serializePrekeyBundle bundle = .ok response ∧
      Arrives deserializePrekeyBundle bundle response := by
  refine ⟨putPrekeyBundle bundle, rfl, arrives_of_le h.size ?_⟩
  exact WireType.prekeyBundle.decodes.decode_put bundle ⟨trivial, h.small⟩
    ⟨h.fits, h.size.trans frame_le_input⟩

theorem PageWithin.arrives {page : List (InboxEnvelope Bytes)} (h : PageWithin page)
    (hitems : ∀ item ∈ page, Carried item.envelope) :
    ∃ response, serializeInboxEnvelopeVector page = .ok response ∧
      Arrives deserializeInboxEnvelopeVector page response := by
  have hlen := h.length_le fun item hitem => (hitems item hitem).size
  have hcount : page.length ≤ 128 := h.items
  have hsize : ∀ {envelope : Envelope Bytes}, Carried envelope →
      envelope.encoding.length ≤ 1024 * 1024 := fun hcarried =>
    (Nat.le_add_right _ 48).trans hcarried.size
  refine ⟨_, serializeInboxEnvelopeVector_eq fun item hitem => (hitems item hitem).wellFormed,
    arrives_of_le hlen ?_⟩
  refine decodes_inboxEnvelopeVector.decode_put page ⟨?_, ?_⟩ ⟨?_, hlen.trans frame_le_input⟩
  · exact List.forall_mem_map.mpr fun item hitem => (hitems item hitem).wellFormed
  · refine (envelopesParts_small _).mpr ⟨?_, List.forall_mem_map.mpr fun item hitem => ?_⟩
    · rw [List.length_map]
      omega
    · exact ⟨(hsize (hitems item hitem)).trans_lt (by decide), (hitems item hitem).small⟩
  · refine (envelopesParts_fits _).mpr ⟨?_, List.forall_mem_map.mpr fun item hitem => ?_⟩
    · rw [List.length_map]
      omega
    · exact ⟨hsize (hitems item hitem), (hitems item hitem).fits⟩

/-! ## 5. What a thread hands over and sends back -/

namespace TcpServer

/-- The frame carries the bytes behind a token that has been accepted. -/
def Behind (frame : Frame) (made : Made) (p : Bytes → Prop) : Prop :=
  ∃ authenticated userId, deserializeAuthenticatedPayload frame.payload = .ok authenticated ∧
    ⟨.authenticateSessionToken authenticated.sessionToken, .ok userId⟩ ∈ made ∧
    p authenticated.payload

/-- What is handed over to be stored has come in the frame. -/
def HandsOver (frame : Frame) (made : Made) : Call → Prop
  | .publishBundle bundle =>
    Behind frame made fun payload => deserializePrekeyBundle payload = .ok bundle
  | .enqueueEnvelope userId envelope =>
    Behind frame made fun payload => deserializeEnqueueRequest payload = .ok ⟨userId, envelope⟩
  | _ => True

theorem handleFrame_handsOver (peerAddr : Bytes) (frame : Frame) :
    (handleFrame peerAddr frame).Allows (HandsOver frame) [] := by
  refine Thread.allows_perform_bind trivial fun _ => ?_
  split
  · refine Thread.allows_ofExcept_bind fun request _ => ?_
    refine Thread.allows_perform_bind trivial fun _ => ?_
    exact Thread.allows_perform_bind trivial fun _ => Thread.allows_pure _
  split
  · refine Thread.allows_ofExcept_bind fun request _ => ?_
    refine Thread.allows_perform_bind trivial fun _ => ?_
    exact Thread.allows_perform_bind trivial fun _ => Thread.allows_ofExcept _
  split
  · refine Thread.allows_ofExcept_bind fun request _ => ?_
    refine Thread.allows_perform_bind trivial fun _ => ?_
    exact Thread.allows_perform_bind trivial fun _ => Thread.allows_ofExcept _
  refine Thread.allows_ofExcept_bind fun authenticated hauthenticated => ?_
  refine Thread.allows_perform_bind trivial fun (sessionUser : Bytes) => ?_
  split
  · exact Thread.allows_perform_bind trivial fun _ => Thread.allows_pure _
  split
  · refine Thread.allows_ofExcept_bind fun bundle hbundle => ?_
    refine Thread.allows_require_bind fun _ => ?_
    refine Thread.allows_perform_bind ?_ fun _ => Thread.allows_pure _
    exact ⟨authenticated, sessionUser, hauthenticated, List.mem_cons_self, hbundle⟩
  split
  · refine Thread.allows_ofExcept_bind fun user _ => ?_
    exact Thread.allows_perform_bind trivial fun _ => Thread.allows_ofExcept _
  split
  · refine Thread.allows_ofExcept_bind fun request hrequest => ?_
    refine Thread.allows_ofExcept_bind fun names _ => ?_
    refine Thread.allows_require_bind fun _ => Thread.allows_require_bind fun _ => ?_
    refine Thread.allows_perform_bind ?_ fun _ => Thread.allows_pure _
    exact ⟨authenticated, sessionUser, hauthenticated, List.mem_cons_self, hrequest⟩
  split
  · refine Thread.allows_ofExcept_bind fun request _ => ?_
    refine Thread.allows_require_bind fun _ => ?_
    exact Thread.allows_perform_bind trivial fun _ => Thread.allows_ofExcept _
  · exact Thread.allows_ofExcept _

/-- What is sent back for a request of a bundle or of a mailbox is the encoding of what the
server object has answered to it. -/
structure Responds (frame : Frame) (made : Made) (response : Bytes) : Prop where
  acquire : frame.command = TcpCommand.kAcquireBundle → ∃ userId bundle,
    Behind frame made (fun payload => deserializeString payload = .ok userId) ∧
    ⟨.acquireBundleForSession userId, .ok bundle⟩ ∈ made ∧
    serializePrekeyBundle bundle = .ok response
  drain : frame.command = TcpCommand.kDrainInbox → ∃ userId ack page,
    Behind frame made (fun payload => deserializeDrainInboxRequest payload = .ok ⟨userId, ack⟩) ∧
    ⟨.drainInbox userId ack, .ok page⟩ ∈ made ∧
    serializeInboxEnvelopeVector page = .ok response

theorem handleFrame_responds (peerAddr : Bytes) (frame : Frame) :
    (handleFrame peerAddr frame).Ends
      (fun made r => ∀ response, r = .ok response → Responds frame made response) [] := by
  have hfail : ∀ {made : Made} (e : String), ∀ response, (.error e : Result Bytes) = .ok response →
      Responds frame made response := by
    rintro made e response ⟨⟩
  -- the answer to another command
  have hother : ∀ {made : Made} {r : Result Bytes} {command : UInt32}, frame.command = command →
      command ≠ TcpCommand.kAcquireBundle → command ≠ TcpCommand.kDrainInbox →
      ∀ response, r = .ok response → Responds frame made response := by
    rintro made r _ rfl hacquire hdrain response -
    exact ⟨fun h => absurd h hacquire, fun h => absurd h hdrain⟩
  refine Thread.ends_perform_bind (fun e => hfail e) fun _ => ?_
  split
  · rename_i hcommand
    refine Thread.ends_ofExcept_bind (fun e => hfail e) fun request _ => ?_
    refine Thread.ends_perform_bind (fun e => hfail e) fun _ => ?_
    refine Thread.ends_perform_bind (fun e => hfail e) fun _ => ?_
    exact Thread.ends_pure (hother hcommand (by decide) (by decide))
  split
  · rename_i hcommand
    refine Thread.ends_ofExcept_bind (fun e => hfail e) fun request _ => ?_
    refine Thread.ends_perform_bind (fun e => hfail e) fun _ => ?_
    refine Thread.ends_perform_bind (fun e => hfail e) fun _ => ?_
    exact Thread.ends_ofExcept (hother hcommand (by decide) (by decide))
  split
  · rename_i hcommand
    refine Thread.ends_ofExcept_bind (fun e => hfail e) fun request _ => ?_
    refine Thread.ends_perform_bind (fun e => hfail e) fun _ => ?_
    refine Thread.ends_perform_bind (fun e => hfail e) fun _ => ?_
    exact Thread.ends_ofExcept (hother hcommand (by decide) (by decide))
  refine Thread.ends_ofExcept_bind (fun e => hfail e) fun authenticated hauthenticated => ?_
  refine Thread.ends_perform_bind (fun e => hfail e) fun (sessionUser : Bytes) => ?_
  split
  · rename_i hcommand
    refine Thread.ends_perform_bind (fun e => hfail e) fun _ => ?_
    exact Thread.ends_pure (hother hcommand (by decide) (by decide))
  split
  · rename_i hcommand
    refine Thread.ends_ofExcept_bind (fun e => hfail e) fun bundle _ => ?_
    refine Thread.ends_require_bind (hfail _) fun _ => ?_
    refine Thread.ends_perform_bind (fun e => hfail e) fun _ => ?_
    exact Thread.ends_pure (hother hcommand (by decide) (by decide))
  split
  · rename_i hcommand
    refine Thread.ends_ofExcept_bind (fun e => hfail e) fun user huser => ?_
    refine Thread.ends_perform_bind (fun e => hfail e) fun bundle => ?_
    refine Thread.ends_ofExcept fun response hresponse => ⟨fun _ => ?_, fun h => ?_⟩
    · refine ⟨user, bundle, ⟨authenticated, sessionUser, hauthenticated, ?_, huser⟩,
        List.mem_cons_self, hresponse⟩
      exact List.mem_cons_of_mem _ List.mem_cons_self
    · exact absurd (hcommand.symm.trans h) (by decide)
  split
  · rename_i hcommand
    refine Thread.ends_ofExcept_bind (fun e => hfail e) fun request _ => ?_
    refine Thread.ends_ofExcept_bind (fun e => hfail e) fun names _ => ?_
    refine Thread.ends_require_bind (hfail _) fun _ => ?_
    refine Thread.ends_require_bind (hfail _) fun _ => ?_
    refine Thread.ends_perform_bind (fun e => hfail e) fun _ => ?_
    exact Thread.ends_pure (hother hcommand (by decide) (by decide))
  split
  · rename_i hcommand
    refine Thread.ends_ofExcept_bind (fun e => hfail e) fun request hrequest => ?_
    refine Thread.ends_require_bind (hfail _) fun huser => ?_
    refine Thread.ends_perform_bind (fun e => hfail e) fun page => ?_
    refine Thread.ends_ofExcept fun response hresponse => ⟨fun h => ?_, fun _ => ?_⟩
    · exact absurd (hcommand.symm.trans h) (by decide)
    · refine ⟨sessionUser, request.ackUpToInboxId, page,
        ⟨authenticated, sessionUser, hauthenticated, ?_, ?_⟩, List.mem_cons_self, hresponse⟩
      · exact List.mem_cons_of_mem _ List.mem_cons_self
      · rw [← huser]
        exact hrequest
  · exact Thread.ends_ofExcept (hfail _)

end TcpServer

/-! ## 6. Histories of frames -/

namespace Backend

/-- The statements that are still to come succeed. -/
def Reliable : (b : Backend) → b.State → Prop
  | inMemoryServer, _ => True
  | sqliteStore, s => (SqliteStore.db s.object).Reliable

section Calls

variable {c : ServerCrypto} {b : Backend} {s : b.State}

/-- A token that is accepted has 32 bytes. -/
theorem length_of_authenticate {token userId : Bytes}
    (h : ((b.api c).authenticateSessionToken token s).1 = .ok userId) : token.length = 32 := by
  cases b with
  | inMemoryServer =>
    obtain ⟨_, _, -, hrest⟩ := Proc.bind_eq_ok_iff.mp (Prod.ext h rfl)
    obtain ⟨_, _, -, hrest⟩ := Proc.bind_eq_ok_iff.mp hrest
    obtain ⟨_, _, hsize, -⟩ := Proc.bind_eq_ok_iff.mp hrest
    exact (Proc.require_eq_ok_iff.mp hsize).1
  | sqliteStore =>
    obtain ⟨_, _, -, hrest⟩ := Proc.bind_eq_ok_iff.mp (Prod.ext h rfl)
    obtain ⟨_, _, -, hrest⟩ := Proc.bind_eq_ok_iff.mp hrest
    obtain ⟨_, _, hsize, -⟩ := Proc.bind_eq_ok_iff.mp hrest
    exact (Proc.require_eq_ok_iff.mp hsize).1

/-- A bundle that is accepted has the version and the cipher suite of the protocol. -/
theorem version_of_publish {bundle : PrekeyBundle Bytes}
    (h : ((b.api c).publishBundle bundle s).1 = .ok ()) :
    bundle.version = kProtocolVersion ∧ bundle.cipherSuite = kCipherSuite := by
  cases b with
  | inMemoryServer =>
    obtain ⟨_, _, hversion, hrest⟩ := Proc.bind_eq_ok_iff.mp
      (show InMemoryServer.publishBundle c.toCrypto bundle s.object = (.ok (), _) from
        Prod.ext h rfl)
    obtain ⟨_, _, hsuite, -⟩ := Proc.bind_eq_ok_iff.mp hrest
    exact ⟨(Proc.require_eq_ok_iff.mp hversion).1, (Proc.require_eq_ok_iff.mp hsuite).1⟩
  | sqliteStore =>
    obtain ⟨_, _, hversion, hrest⟩ := Proc.bind_eq_ok_iff.mp
      (show SqliteStore.publishBundle c.toCrypto bundle s.object = (.ok (), _) from
        Prod.ext h rfl)
    obtain ⟨_, _, hsuite, -⟩ := Proc.bind_eq_ok_iff.mp hrest
    exact ⟨(Proc.require_eq_ok_iff.mp hversion).1, (Proc.require_eq_ok_iff.mp hsuite).1⟩

/-- A bundle is handed out as it is stored. -/
theorem acquire_forSession (hs : b.Formed s) {userId : Bytes}
    (hfiled : ∀ stored, (b.stores s).bundle userId = some stored → Filed userId stored)
    {bundle : PrekeyBundle Bytes}
    (h : ((b.api c).acquireBundleForSession userId s).1 = .ok bundle) :
    ∃ stored, (b.stores s).bundle userId = some stored ∧ bundle = stored.forSession := by
  cases b with
  | inMemoryServer => exact InMemoryServer.acquire_forSession userId s.object bundle h
  | sqliteStore => exact SqliteStore.acquire_forSession hs.2 hfiled bundle h

theorem drain_forms (hs : b.Formed s) {userId : Bytes} {ack : Option UInt64}
    (hinbox : ∀ entry ∈ (b.stores s).inbox userId, entry.Holds)
    {page : List (InboxEnvelope Bytes)}
    (h : ((b.api c).drainInbox userId ack s).1 = .ok page) :
    FormsPage ((b.api c).drainInbox userId ack s).1
      ((b.stores ((b.api c).drainInbox userId ack s).2).inbox userId = []) := by
  cases b with
  | inMemoryServer => exact InMemoryServer.drain_forms _ hinbox
  | sqliteStore => exact SqliteStore.drain_forms hs.2 hinbox h

theorem drain_ok (hs : b.Formed s) (hreliable : b.Reliable s) {userId : Bytes}
    {ack : Option UInt64} (hinbox : ∀ entry ∈ (b.stores s).inbox userId, entry.Holds) :
    ∃ page, ((b.api c).drainInbox userId ack s).1 = .ok page := by
  cases b with
  | inMemoryServer =>
    obtain ⟨page, hpage, -⟩ := InMemoryServer.drain_forms ack hinbox
    exact ⟨page, hpage⟩
  | sqliteStore => exact SqliteStore.drain_ok hs.2 hreliable hinbox

end Calls

/-- Every frame is one that `ReadFrame` lets through. -/
def FramesFit (actions : List Action) : Prop :=
  ∀ i frame, .start i frame ∈ actions → frame.payload.length ≤ kMaxFramePayloadBytes.toNat

theorem FramesFit.suffix {actions earlier : List Action} (h : FramesFit actions)
    (hearlier : earlier <:+ actions) : FramesFit earlier :=
  fun i frame hframe => h i frame (hearlier.subset hframe)

section Histories

variable {c : ServerCrypto} {b : Backend} {peerAddr : Connection → Bytes}
  {s₀ : TcpServer b.Object}

/-- Behind a token there are 40 bytes less. -/
theorem behind_size {actions : List Action} (hframes : FramesFit actions) {i : Connection}
    {t : Task} (ht : (b.afterFrames c peerAddr s₀ actions).task.get i = some t)
    {p : Bytes → Prop} (h : Behind t.job t.made p) :
    ∃ payload, p payload ∧ payload.length + 40 ≤ kMaxFramePayloadBytes.toNat := by
  obtain ⟨authenticated, userId, hauthenticated, hmade, hp⟩ := h
  refine ⟨authenticated.payload, hp, ?_⟩
  have hframe := hframes i t.job (Pool.started ht)
  obtain ⟨earlier, -, hanswer⟩ := Pool.answered ht hmade
  have htoken := length_of_authenticate (b := b) (c := c) hanswer.symm
  have hlen := length_authenticated hauthenticated
  omega

theorem Makes.handsOver {actions : List Action} {t : Task} {call : TcpServer.Call}
    {i : Connection} {earlier : List Action} (h : b.Makes c peerAddr s₀ actions t call i earlier) :
    HandsOver t.job t.made call :=
  Pool.allowed (P := HandsOver) (fun i frame => handleFrame_handsOver (peerAddr i) frame) h.2

theorem Makes.behind_size {actions : List Action} {t : Task} {call : TcpServer.Call}
    {i : Connection} {earlier : List Action} (h : b.Makes c peerAddr s₀ actions t call i earlier)
    (hframes : FramesFit actions) {p : Bytes → Prop} (hbehind : Behind t.job t.made p) :
    ∃ payload, p payload ∧ payload.length + 40 ≤ kMaxFramePayloadBytes.toNat :=
  Backend.behind_size (hframes.suffix ((List.suffix_cons _ _).trans h.1)) h.2.1 hbehind

theorem inbox_holds (h₀ : b.Fresh s₀.api) {actions : List Action} (hframes : FramesFit actions)
    {u : Bytes} : ∀ entry ∈ (b.storesAfter c peerAddr s₀ actions).inbox u, entry.Holds := by
  intro entry hentry
  obtain ⟨envelope, sender, hcontent, -, t, i, earlier, hmakes, -⟩ := inbox_enqueued h₀ hentry
  have hbehind : Behind t.job t.made
      fun payload => deserializeEnqueueRequest payload = .ok ⟨u, envelope⟩ := hmakes.handsOver
  obtain ⟨payload, hrequest, hsize⟩ := hmakes.behind_size hframes hbehind
  exact ⟨envelope, hcontent, carried_of_request hrequest hsize⟩

theorem bundle_carried (h₀ : b.Fresh s₀.api) {actions : List Action}
    (hframes : FramesFit actions) {u : Bytes} {bundle : PrekeyBundle Bytes}
    (hbundle : (b.storesAfter c peerAddr s₀ actions).bundle u = some bundle) :
    CarriedBundle bundle := by
  obtain ⟨published, hleft, -, -, t, i, earlier, hmakes, -⟩ := bundle_published h₀ hbundle
  have hbehind : Behind t.job t.made
      fun payload => deserializePrekeyBundle payload = .ok published := hmakes.handsOver
  obtain ⟨payload, hpublished, hsize⟩ := hmakes.behind_size hframes hbehind
  exact (carriedBundle_of_payload hpublished ((Nat.le_add_right _ 40).trans hsize)).leftOf hleft

theorem bundle_filed (h₀ : b.Fresh s₀.api) {actions : List Action} {u : Bytes}
    {bundle : PrekeyBundle Bytes}
    (hbundle : (b.storesAfter c peerAddr s₀ actions).bundle u = some bundle) :
    Filed u bundle := by
  induction actions generalizing bundle with
  | nil =>
    rw [show (b.storesAfter c peerAddr s₀ []).bundle u = none from (h₀.stores u).2] at hbundle
    cases hbundle
  | cons a actions ih =>
    rcases action_effect c peerAddr h₀ a actions with h | ⟨i, t, call, rfl, hmakes, heffect⟩
    · rw [h.1] at hbundle
      exact ih hbundle
    · rcases heffect.bundle hbundle with ⟨before, hbefore, hleft⟩ | ⟨rfl, huser, -⟩
      · obtain ⟨ecs, pqs, -, -, rfl⟩ := hleft
        exact ⟨(ih hbefore).userId, (ih hbefore).version, (ih hbefore).cipherSuite⟩
      · rcases hanswer : b.answer c peerAddr s₀ (.publishBundle bundle) actions with e | _
        · -- a call that is refused leaves the bundle from before
          rw [show (b.storesAfter c peerAddr s₀ (.run i :: actions)).bundle =
            (b.storesAfter c peerAddr s₀ actions).bundle from
          heffect.1.refused e hanswer] at hbundle
          exact ih hbundle
        · obtain ⟨hversion, hsuite⟩ := version_of_publish (b := b) (c := c) hanswer
          exact ⟨huser, hversion, hsuite⟩

variable (c b peerAddr s₀)

/-- The bundles and the mailboxes after one more call. -/
def storesLeft (call : TcpServer.Call) (actions : List Action) : Stores Bytes :=
  b.stores (exec (b.api c) call (b.afterFrames c peerAddr s₀ actions).shared).2.api

/-- The answer to a request of a bundle arrives, and is what is stored. -/
def BundleArrives (actions : List Action) (userId : Bytes) (bundle : PrekeyBundle Bytes)
    (response : Bytes) : Prop :=
  serializePrekeyBundle bundle = .ok response ∧ Arrives deserializePrekeyBundle bundle response ∧
  ∃ stored, (b.storesAfter c peerAddr s₀ actions).bundle userId = some stored ∧
    bundle = stored.forSession

/-- The answer to a request of a mailbox arrives.  It is the beginning of what the mailbox holds
after the acknowledgement, and nothing only if that is empty. -/
def PageArrives (actions : List Action) (userId : Bytes) (ack : Option UInt64)
    (page : List (InboxEnvelope Bytes)) (response : Bytes) : Prop :=
  serializeInboxEnvelopeVector page = .ok response ∧
  Arrives deserializeInboxEnvelopeVector page response ∧
  page.map InboxEnvelope.stored <+:
    (b.storesLeft c peerAddr s₀ (.drainInbox userId ack) actions).inbox userId ∧
  (page = [] → (b.storesLeft c peerAddr s₀ (.drainInbox userId ack) actions).inbox userId = [])

/-- What the server hands out after a history of frames. -/
structure Delivers (actions : List Action) : Prop where
  acquire : ∀ userId bundle,
    b.answer c peerAddr s₀ (.acquireBundleForSession userId) actions = .ok bundle →
    ∃ response, b.BundleArrives c peerAddr s₀ actions userId bundle response
  drain : ∀ userId ack page, b.answer c peerAddr s₀ (.drainInbox userId ack) actions = .ok page →
    ∃ response, b.PageArrives c peerAddr s₀ actions userId ack page response
  /-- No envelope keeps a mailbox from being read. -/
  unblocked : ∀ userId ack, b.Reliable (b.afterFrames c peerAddr s₀ actions).shared.api →
    ∃ page, b.answer c peerAddr s₀ (.drainInbox userId ack) actions = .ok page
  /-- What a thread sends back is the answer to what its frame has asked for. -/
  sent : ∀ i t response, (b.afterFrames c peerAddr s₀ actions).task.get i = some t →
    t.rest = .finished (.ok response) →
    (t.job.command = TcpCommand.kAcquireBundle → ∃ userId bundle earlier, earlier <:+ actions ∧
      Behind t.job t.made (fun payload => deserializeString payload = .ok userId) ∧
      b.BundleArrives c peerAddr s₀ earlier userId bundle response) ∧
    (t.job.command = TcpCommand.kDrainInbox → ∃ userId ack page earlier, earlier <:+ actions ∧
      Behind t.job t.made
        (fun payload => deserializeDrainInboxRequest payload = .ok ⟨userId, ack⟩) ∧
      b.PageArrives c peerAddr s₀ earlier userId ack page response)

variable {c b peerAddr s₀}

theorem bundle_arrives (h₀ : b.Fresh s₀.api) {actions : List Action} (hframes : FramesFit actions)
    {userId : Bytes} {bundle : PrekeyBundle Bytes}
    (h : b.answer c peerAddr s₀ (.acquireBundleForSession userId) actions = .ok bundle) :
    ∃ response, b.BundleArrives c peerAddr s₀ actions userId bundle response := by
  have hformed := formed_after c peerAddr h₀ actions
  obtain ⟨stored, hstored, rfl⟩ := acquire_forSession hformed
    (fun stored hstored => bundle_filed h₀ hstored) h
  obtain ⟨response, hresponse, harrives⟩ := (bundle_carried h₀ hframes hstored).forSession.arrives
  exact ⟨response, hresponse, harrives, stored, hstored, rfl⟩

theorem page_arrives (h₀ : b.Fresh s₀.api) {actions : List Action} (hframes : FramesFit actions)
    {userId : Bytes} {ack : Option UInt64} {page : List (InboxEnvelope Bytes)}
    (h : b.answer c peerAddr s₀ (.drainInbox userId ack) actions = .ok page) :
    ∃ response, b.PageArrives c peerAddr s₀ actions userId ack page response := by
  have hformed := formed_after c peerAddr h₀ actions
  have hholds : ∀ entry ∈ (b.storesAfter c peerAddr s₀ actions).inbox userId, entry.Holds :=
    inbox_holds h₀ hframes
  obtain ⟨page', hpage', hwithin, hempty⟩ := drain_forms hformed hholds h
  obtain rfl := Except.ok.inj (h.symm.trans hpage')
  have hdrained := (exec_effect c b (.drainInbox userId ack) hformed).2.1
  obtain ⟨hacked, hfirst⟩ := hdrained.accepted page h
  have hitems : ∀ item ∈ page, Carried item.envelope := by
    intro item hitem
    have hstored := hacked.suffix.subset (hfirst.subset (List.mem_map_of_mem hitem))
    obtain ⟨envelope, hcontent, hcarried⟩ := hholds _ hstored
    obtain rfl := Except.ok.inj hcontent
    exact hcarried
  obtain ⟨response, hresponse, harrives⟩ := hwithin.arrives hitems
  exact ⟨response, hresponse, harrives, hfirst, hempty⟩

variable (c b peerAddr)

/-- **Every response can be delivered.** -/
theorem responses_delivered (h₀ : b.Fresh s₀.api) (actions : List Action)
    (hframes : FramesFit actions) : b.Delivers c peerAddr s₀ actions where
  acquire _ _ h := bundle_arrives h₀ hframes h
  drain _ _ _ h := page_arrives h₀ hframes h
  unblocked _ _ hreliable :=
    drain_ok (formed_after c peerAddr h₀ actions) hreliable (inbox_holds h₀ hframes)
  sent i t response ht hrest := by
    have hresponds := Pool.ended
      (Q := fun frame made r => ∀ response, r = .ok response → Responds frame made response)
      (fun i frame => handleFrame_responds (peerAddr i) frame) ht hrest response rfl
    refine ⟨fun hcommand => ?_, fun hcommand => ?_⟩
    · obtain ⟨userId, bundle, hbehind, hmade, hresponse⟩ := hresponds.acquire hcommand
      obtain ⟨earlier, hearlier, hanswer⟩ := Pool.answered ht hmade
      have hsuffix := (List.suffix_cons _ _).trans hearlier
      obtain ⟨response', harrives⟩ := bundle_arrives h₀ (hframes.suffix hsuffix) hanswer.symm
      obtain rfl := Except.ok.inj (hresponse.symm.trans harrives.1)
      exact ⟨userId, bundle, earlier, hsuffix, hbehind, harrives⟩
    · obtain ⟨userId, ack, page, hbehind, hmade, hresponse⟩ := hresponds.drain hcommand
      obtain ⟨earlier, hearlier, hanswer⟩ := Pool.answered ht hmade
      have hsuffix := (List.suffix_cons _ _).trans hearlier
      obtain ⟨response', harrives⟩ := page_arrives h₀ (hframes.suffix hsuffix) hanswer.symm
      obtain rfl := Except.ok.inj (hresponse.symm.trans harrives.1)
      exact ⟨userId, ack, page, earlier, hsuffix, hbehind, harrives⟩

end Histories

namespace Alice

theorem framesFit_frames : FramesFit frames := by
  have h : frames.all (fun a => match a with
      | .start _ frame => frame.payload.length ≤ kMaxFramePayloadBytes.toNat
      | .run _ => true) = true := by decide +kernel
  intro i frame hframe
  exact of_decide_eq_true (List.all_eq_true.mp h _ hframe)

end Alice

theorem responses_delivered_alice :
    (sqliteStore.answer ServerCrypto.transparent (fun _ => text "10.0.0.1") Alice.server
      (.drainInbox (text "bob") none) Alice.frames).map
        (fun page : List (InboxEnvelope Bytes) => page.map InboxEnvelope.envelope) =
      .ok [Alice.letter] ∧
    sqliteStore.Delivers ServerCrypto.transparent (fun _ => text "10.0.0.1") Alice.server
      Alice.frames := by
  refine ⟨by decide +kernel, ?_⟩
  exact responses_delivered ServerCrypto.transparent sqliteStore _ Alice.fresh_store Alice.frames
    Alice.framesFit_frames

end Backend

end PqChat
