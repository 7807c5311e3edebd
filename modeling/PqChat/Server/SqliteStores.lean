/-
# Bundles and mailboxes in the database

`SqliteStore` is a `StoreService` too.  The rows of a user are found again by filters over the
whole table; the keys of a table only grow, so the rows of a user are in the order in which they
were written, and the comparison with an acknowledged id cuts off a first part of them.
-/
import PqChat.Server.Sqlite
import PqChat.Server.Stores
import PqChat.Wire.RoundTrip

namespace PqChat

open ByteString Sql

namespace SqliteStore

/-! ## 1. Tables with growing keys -/

section Rows

variable {α : Type}

/-- The keys grow, and fit into a signed 64-bit number. -/
structure RowTable.Ordered (table : RowTable α) : Prop where
  increasing : table.rows.Pairwise fun row row' => row.rowid < row'.rowid
  le_last : ∀ row ∈ table.rows, row.rowid ≤ table.last
  last_lt : table.last < 2 ^ 63

/-- The rows of a user. -/
def RowTable.of (table : RowTable α) (userId : Bytes) : List (Row α) :=
  table.rows.filter (·.userId = userId)

variable {table table' : RowTable α} {userId u : Bytes}

theorem RowTable.Ordered.filter (h : table.Ordered) (p : Row α → Bool) :
    RowTable.Ordered { table with rows := table.rows.filter p } :=
  ⟨h.increasing.filter p, fun row hrow => h.le_last row (List.mem_of_mem_filter hrow),
    h.last_lt⟩

theorem RowTable.Ordered.increasing_of (h : table.Ordered) (userId : Bytes) :
    (table.of userId).Pairwise fun row row' => row.rowid < row'.rowid := h.increasing.filter _

theorem RowTable.Ordered.rowid_lt (h : table.Ordered) {row : Row α}
    (hrow : row ∈ table.of userId) : row.rowid < 2 ^ 63 :=
  (h.le_last row (List.mem_of_mem_filter hrow)).trans_lt h.last_lt

/-- A key belongs to one row. -/
theorem RowTable.Ordered.eq_of_rowid_eq (h : table.Ordered) {row row' : Row α}
    (hrow : row ∈ table.rows) (hrow' : row' ∈ table.rows) (hid : row.rowid = row'.rowid) :
    row = row' :=
  List.inj_on_of_nodup_map (List.pairwise_map.mpr (h.increasing.imp Nat.ne_of_lt)) hrow hrow' hid

theorem mem_of {row : Row α} : row ∈ table.of u ↔ row ∈ table.rows ∧ row.userId = u := by
  rw [RowTable.of, List.mem_filter, decide_eq_true_eq]

/-- `INSERT`: a new row at the end. -/
theorem RowTable.insert_eq_ok {value : α} (h : table.insert userId value = .ok table') :
    table.last + 1 < 2 ^ 63 ∧
      table' = ⟨table.rows ++ [⟨table.last + 1, userId, value⟩], table.last + 1⟩ := by
  unfold RowTable.insert at h
  split at h
  · exact ⟨by assumption, (Except.ok.inj h).symm⟩
  · cases h

theorem RowTable.Ordered.insert {value : α} (hT : table.Ordered)
    (h : table.insert userId value = .ok table') : table'.Ordered := by
  obtain ⟨hlast, rfl⟩ := RowTable.insert_eq_ok h
  refine ⟨?_, ?_, hlast⟩
  · rw [List.pairwise_append]
    refine ⟨hT.increasing, List.pairwise_singleton _ _, fun row hrow row' hrow' => ?_⟩
    rw [List.mem_singleton.mp hrow']
    exact Nat.lt_succ_of_le (hT.le_last row hrow)
  · intro row hrow
    rcases List.mem_append.mp hrow with hrow | hrow
    · exact (hT.le_last row hrow).trans (Nat.le_succ _)
    · rw [List.mem_singleton.mp hrow]

theorem RowTable.of_insert {value : α} (h : table.insert userId value = .ok table') (u : Bytes) :
    table'.of u = if u = userId then table.of u ++ [⟨table.last + 1, userId, value⟩]
      else table.of u := by
  obtain ⟨-, rfl⟩ := RowTable.insert_eq_ok h
  by_cases hu : u = userId
  · subst hu
    simp [RowTable.of]
  · simp [RowTable.of, hu, Ne.symm hu]

/-- `DELETE … WHERE user_id = ?`. -/
theorem RowTable.of_deleteUser (table : RowTable α) (userId u : Bytes) :
    RowTable.of { table with rows := table.rows.filter (·.userId ≠ userId) } u =
      if u = userId then [] else table.of u := by
  rw [RowTable.of, RowTable.of, List.filter_filter]
  by_cases hu : u = userId
  · subst hu
    rw [if_pos rfl, List.filter_eq_nil_iff]
    intro row _
    simp
  · rw [if_neg hu]
    refine List.filter_congr fun row _ => ?_
    by_cases hrow : row.userId = u
    · simp [hrow, hu]
    · simp [hrow]

/-- `DELETE … WHERE rowid = ?` for the first row of a user. -/
theorem RowTable.Ordered.of_deleteRow (h : table.Ordered) {row : Row α}
    (hfirst : firstRow table userId = some row) :
    (∃ rest, table.of userId = row :: rest ∧
      RowTable.of { table with rows := table.rows.filter (·.rowid ≠ row.rowid) } userId = rest) ∧
    ∀ u, u ≠ userId →
      RowTable.of { table with rows := table.rows.filter (·.rowid ≠ row.rowid) } u =
        table.of u := by
  have hmem : row ∈ table.rows := List.mem_of_find?_eq_some hfirst
  have huser : row.userId = userId := by
    unfold firstRow at hfirst
    simpa using List.find?_some hfirst
  -- the two filters commute
  have hcomm : ∀ u, RowTable.of { table with rows := table.rows.filter (·.rowid ≠ row.rowid) } u =
      (table.of u).filter (·.rowid ≠ row.rowid) := by
    intro u
    rw [RowTable.of, RowTable.of, List.filter_filter, List.filter_filter]
    exact List.filter_congr fun _ _ => Bool.and_comm _ _
  refine ⟨?_, fun u hu => ?_⟩
  · have hhead : (table.of userId).head? = some row := by
      rw [RowTable.of, List.head?_filter]
      exact hfirst
    obtain ⟨rest, hrest⟩ := List.head?_eq_some_iff.mp hhead
    refine ⟨rest, hrest, ?_⟩
    have hlt := h.increasing_of userId
    rw [hrest, List.pairwise_cons] at hlt
    rw [hcomm, hrest, List.filter_cons_of_neg (by simp), List.filter_eq_self]
    intro row' hrow'
    exact decide_eq_true (Nat.ne_of_gt (hlt.1 row' hrow'))
  · rw [hcomm, List.filter_eq_self]
    intro row' hrow'
    obtain ⟨hmem', huser'⟩ := mem_of.mp hrow'
    refine decide_eq_true fun hid => hu ?_
    rw [← huser', h.eq_of_rowid_eq hmem' hmem hid, huser]

end Rows

/-! ## 2. The store -/

/-- The rows of `bundles` hold no one-time keys, and the keys of the other tables grow. -/
structure Tables.Ordered (t : Tables) : Prop where
  base : ∀ {u row}, t.bundles.get u = some row → row.oneTimeEc = [] ∧ row.oneTimePq = []
  oneTimeEc : t.oneTimeEc.Ordered
  oneTimePq : t.oneTimePq.Ordered
  inbox : t.inbox.Ordered

/-- An entry of a mailbox. -/
def Row.stored (row : Row Bytes) : StoredEnvelope Bytes :=
  ⟨UInt64.ofNat row.rowid, deserializeEnvelope row.value⟩

/-- What is stored for the users. -/
def Tables.stores (t : Tables) : Stores Bytes where
  bundle u := (t.bundles.get u).map fun row =>
    { row with oneTimeEc := (t.oneTimeEc.of u).map Row.value
               oneTimePq := (t.oneTimePq.of u).map Row.value }
  inbox u := (t.inbox.of u).map Row.stored
  last _ := t.inbox.last

/-- What is stored for the users. -/
def stores (s : SqliteStore) : Stores Bytes := s.db.tables.stores

/-- The bundle of one user has changed. -/
theorem Tables.bundle_eq_update {t t' : Tables} {userId : Bytes} (row : PrekeyBundle Bytes)
    {ecs pqs : List (OneTimePrekey Bytes)} (hrow : t'.bundles.get userId = some row)
    (hecs : (t'.oneTimeEc.of userId).map Row.value = ecs)
    (hpqs : (t'.oneTimePq.of userId).map Row.value = pqs)
    (hothers : ∀ u, u ≠ userId → t'.bundles.get u = t.bundles.get u ∧
      t'.oneTimeEc.of u = t.oneTimeEc.of u ∧ t'.oneTimePq.of u = t.oneTimePq.of u) :
    t'.stores.bundle = Function.update t.stores.bundle userId
      (some { row with oneTimeEc := ecs, oneTimePq := pqs }) := by
  funext u
  by_cases hu : u = userId
  · subst hu
    rw [Function.update_self]
    simp only [stores, hrow, hecs, hpqs, Option.map_some]
  · obtain ⟨hb, hec, hpq⟩ := hothers u hu
    rw [Function.update_of_ne hu]
    simp only [stores, hb, hec, hpq]

/-- No transaction is open, and the tables are in order. -/
structure Ordered (s : SqliteStore) : Prop where
  closed : s.db.saved = none
  tables : s.db.tables.Ordered

theorem ordered_init (outcome : Nat → Outcome) (hmacSecret token : Bytes) :
    Ordered (init outcome hmacSecret token) := by
  have hempty : ∀ {α : Type}, (⟨[], 0⟩ : RowTable α).Ordered :=
    ⟨List.Pairwise.nil, nofun, Nat.two_pow_pos 63⟩
  exact ⟨rfl, ⟨nofun, hempty, hempty, hempty⟩⟩

/-- The envelopes that are read back as they were written. -/
def Survives (envelope : Envelope Bytes) : Prop :=
  ∀ bytes, serializeEnvelope envelope = .ok bytes → deserializeEnvelope bytes = .ok envelope

section Calls

variable {c : Crypto Bytes}

/-- The rows of a user have been followed by new ones. -/
structure RowTable.Grows {α : Type} (userId : Bytes) (values : List α)
    (before after : RowTable α) : Prop where
  ordered : after.Ordered
  values : (after.of userId).map Row.value = (before.of userId).map Row.value ++ values
  others : ∀ u, u ≠ userId → after.of u = before.of u

/-- No blob column of the row is empty. -/
theorem checkNotNull_eq_ok_iff {table : String} {columns : List (String × Bytes)} :
    checkNotNull table columns = .ok () ↔ ∀ column ∈ columns, column.2 ≠ [] := by
  induction columns with
  | nil => exact iff_of_true rfl nofun
  | cons column rest ih =>
    obtain ⟨name, value⟩ := column
    rw [checkNotNull, List.forall_mem_cons]
    by_cases hvalue : value = []
    · rw [if_pos hvalue]
      exact iff_of_false (by rintro ⟨⟩) fun h => h.1 hvalue
    · rw [if_neg hvalue, ih]
      exact (and_iff_right hvalue).symm

theorem upsertBundle_eq_ok {bundle : PrekeyBundle Bytes} {t t' : Tables} {a : Unit}
    (h : upsertBundle bundle t = .ok (t', a)) :
    t' = { t with
      bundles := t.bundles.set bundle.userId
        { bundle with oneTimeEc := [], oneTimePq := [] } } := by
  obtain ⟨_, -, ht⟩ := Result.bind_eq_ok.mp h
  exact (Prod.mk.inj (Except.ok.inj ht)).1.symm

theorem insertOneTime_eq_ok {name : String} {get : Tables → RowTable (OneTimePrekey Bytes)}
    {set : RowTable (OneTimePrekey Bytes) → Tables → Tables} {userId : Bytes}
    {key : OneTimePrekey Bytes} {t t' : Tables} {a : Unit}
    (h : insertOneTime name get set userId key t = .ok (t', a)) :
    ∃ table, (get t).insert userId key = .ok table ∧ t' = set table t := by
  obtain ⟨table, htable, ht⟩ := Result.bind_eq_ok.mp h
  obtain ⟨_, -, ht⟩ := Result.bind_eq_ok.mp ht
  exact ⟨table, htable, (Prod.mk.inj (Except.ok.inj ht)).1.symm⟩

theorem insertRows_spec (name : String) (get : Tables → RowTable (OneTimePrekey Bytes))
    (set : RowTable (OneTimePrekey Bytes) → Tables → Tables)
    (hget : ∀ table t, get (set table t) = table)
    (hset : ∀ table table' t, set table (set table' t) = set table t)
    (hself : ∀ t, set (get t) t = t) (userId : Bytes) (keys : List (OneTimePrekey Bytes))
    (d : Db Tables) (hT : (get d.tables).Ordered) :
    Proc.wp (insertRows name get set userId keys) (fun r d' => d'.saved = d.saved ∧
      ∀ a, r = .ok a → ∃ table, d'.tables = set table d.tables ∧
        RowTable.Grows userId keys (get d.tables) table) d := by
  induction keys generalizing d with
  | nil =>
    refine Proc.wp_pure ⟨rfl, fun _ _ => ⟨get d.tables, (hself _).symm, ⟨hT, ?_, fun _ _ => rfl⟩⟩⟩
    rw [List.append_nil]
  | cons key rest ih =>
    refine Proc.wp_seq (wp_exec (fun _ _ _ => ⟨rfl, nofun⟩) fun t a n hf => ?_)
    obtain ⟨table, htable, rfl⟩ := insertOneTime_eq_ok hf
    have hof := RowTable.of_insert htable
    have hT' : (get (set table d.tables)).Ordered := by
      rw [hget]
      exact hT.insert htable
    refine Proc.wp_mono (ih { d with tables := set table d.tables, used := n } hT')
      fun r d' hr => ⟨hr.1, fun a ha => ?_⟩
    obtain ⟨table', hd', hgrows⟩ := hr.2 a ha
    rw [hget] at hgrows
    refine ⟨table', hd'.trans (hset _ _ _), ⟨hgrows.ordered, ?_, fun u hu => ?_⟩⟩
    · rw [hgrows.values, hof, if_pos rfl, List.map_append, List.append_assoc]
      rfl
    · rw [hgrows.others u hu, hof, if_neg hu]

/-- A call that is one transaction: it fails and changes nothing, or it ends with the tables of
its body. -/
theorem wp_transaction_stores {α : Type} {body : Proc SqliteStore α}
    {Q : Result α → Stores Bytes → Prop} {s : SqliteStore} (hs : s.Ordered)
    (herror : ∀ e, Q (.error e) s.stores)
    (hbody : ∀ s' : SqliteStore, s'.db.tables = s.db.tables →
      Inside connection body (fun a t => t.Ordered ∧ Q (.ok a) t.stores) s') :
    Proc.wp (transaction connection body) (fun r s' => s'.Ordered ∧ Q r s'.stores) s := by
  refine Proc.wp_mono (wp_transaction_inside hs.closed hbody) fun r s' hr => ?_
  obtain ⟨hclosed, hsame, hok⟩ := hr
  cases r with
  | error e =>
    have htables : s'.db.tables = s.db.tables := hsame e rfl
    have hstores : s'.stores = s.stores := congrArg Tables.stores htables
    exact ⟨⟨hclosed, htables ▸ hs.tables⟩, hstores ▸ herror e⟩
  | ok a => exact ⟨⟨hclosed, (hok a rfl).1⟩, (hok a rfl).2⟩

theorem publishBundle_stores (bundle : PrekeyBundle Bytes) {s : SqliteStore} (hs : s.Ordered) :
    Proc.wp (publishBundle c bundle)
      (fun r s' => s'.Ordered ∧ s.stores.Published c bundle r s'.stores) s := by
  have hrefused : ∀ e, s.stores.Published c bundle (.error e) s.stores := fun e =>
    ⟨rfl, rfl, fun _ _ => rfl, nofun⟩
  refine Proc.wp_require_bind (fun _ => ⟨hs, hrefused _⟩) fun _ => ?_
  refine Proc.wp_require_bind (fun _ => ⟨hs, hrefused _⟩) fun _ => ?_
  refine Proc.wp_ofExcept_bind (fun e _ => ⟨hs, hrefused _⟩) fun _ hverify => ?_
  refine wp_transaction_stores hs hrefused fun s' hs' => ?_
  have hordered : s'.db.tables.Ordered := hs' ▸ hs.tables
  refine inside_exec_bind fun t₁ _ s₁ hrow h₁ => inside_update_bind fun s₂ h₂ =>
    inside_update_bind fun s₃ h₃ => ?_
  obtain rfl := upsertBundle_eq_ok hrow
  -- the tables before the new keys come in
  have ht : (connection.get s₃).tables = { s.db.tables with
      bundles := s.db.tables.bundles.set bundle.userId
        { bundle with oneTimeEc := [], oneTimePq := [] }
      oneTimeEc := { s.db.tables.oneTimeEc with
        rows := s.db.tables.oneTimeEc.rows.filter (·.userId ≠ bundle.userId) }
      oneTimePq := { s.db.tables.oneTimePq with
        rows := s.db.tables.oneTimePq.rows.filter (·.userId ≠ bundle.userId) } } := by
    rw [h₃, h₂, h₁, ← hs']
    rfl
  refine inside_bind (P := fun _ t => ∃ ec, t = setOneTimeEc ec (connection.get s₃).tables ∧
    RowTable.Grows bundle.userId bundle.oneTimeEc (connection.get s₃).tables.oneTimeEc ec)
    (insertRows_spec _ Tables.oneTimeEc setOneTimeEc (fun _ _ => rfl) (fun _ _ _ => rfl)
      (fun _ => rfl) _ _ _ ?_) ?_
  · rw [ht]
    exact hs.tables.oneTimeEc.filter _
  rintro _ s₄ ⟨ec, h₄, hec⟩
  refine inside_on (Proc.wp_mono (insertRows_spec _ Tables.oneTimePq setOneTimePq
    (fun _ _ => rfl) (fun _ _ _ => rfl) (fun _ => rfl) _ _ _ ?_)
    fun r d hr => ⟨hr.1, fun a ha => ?_⟩)
  · rw [h₄, ht]
    exact hs.tables.oneTimePq.filter _
  obtain ⟨pq, hd, hpq⟩ := hr.2 a ha
  rw [h₄] at hd hpq
  rw [ht] at hd hec hpq
  rw [hd]
  refine ⟨⟨?_, hec.ordered, hpq.ordered, hs.tables.inbox⟩, rfl, rfl, nofun, fun _ => ⟨hverify, ?_⟩⟩
  · intro u row hrow
    change (s.db.tables.bundles.set _ _).get u = some row at hrow
    rw [Map.get_set] at hrow
    split at hrow
    · obtain rfl := Option.some.inj hrow
      exact ⟨rfl, rfl⟩
    · exact hs.tables.base hrow
  · refine Tables.bundle_eq_update { bundle with oneTimeEc := [], oneTimePq := [] }
      (Map.get_set_self _ _ _) ?_ ?_ fun u hu => ⟨Map.get_set_of_ne _ hu _, ?_, ?_⟩
    · refine hec.values.trans ?_
      rw [RowTable.of_deleteUser, if_pos rfl]
      rfl
    · have hdeleted := RowTable.of_deleteUser s.db.tables.oneTimePq bundle.userId bundle.userId
      rw [if_pos rfl] at hdeleted
      exact hpq.values.trans (congrArg (fun l => List.map Row.value l ++ _) hdeleted)
    · refine (hec.others u hu).trans ?_
      rw [RowTable.of_deleteUser, if_neg hu]
    · refine (hpq.others u hu).trans ((RowTable.of_deleteUser _ _ _).trans ?_)
      rw [if_neg hu]

theorem acquireBundleForSession_stores (userId : Bytes) {s : SqliteStore} (hs : s.Ordered) :
    Proc.wp (acquireBundleForSession userId)
      (fun r s' => s'.Ordered ∧ s.stores.Acquired userId r s'.stores) s := by
  refine wp_transaction_stores hs (fun e => ⟨rfl, rfl, fun _ _ => rfl, fun _ h => by cases h⟩)
    fun s' hs' => ?_
  refine inside_queryRow_bind fun r s₁ hr h₁ => ?_
  replace h₁ : s₁.db.tables = s.db.tables := h₁.trans hs'
  cases r with
  | none => exact inside_fail _
  | some stored =>
    have hstored : s.db.tables.bundles.get userId = some stored := by
      rcases hr with hr | hr
      · cases hr
      · rw [← hs']
        exact hr.symm
    refine inside_query_bind fun s₂ h₂ => inside_query_bind fun s₃ h₃ => ?_
    replace h₂ : s₂.db.tables = s.db.tables := h₂.trans h₁
    replace h₃ : s₃.db.tables = s.db.tables := h₃.trans h₂
    have hnone : ∀ bundle : PrekeyBundle Bytes, bundle.oneTimeEc = [] → bundle.oneTimePq = [] →
        Inside connection (pure bundle)
          (fun a t => t.Ordered ∧ s.stores.Acquired userId (.ok a) t.stores) s₃ := by
      intro bundle hec hpq
      refine inside_pure ?_
      change s₃.db.tables.Ordered ∧ s.stores.Acquired userId (.ok bundle) s₃.db.tables.stores
      rw [h₃]
      refine ⟨hs.tables, rfl, rfl, fun _ h => (by cases h), fun b hb => ?_⟩
      obtain rfl := Except.ok.inj hb
      exact .none _ hec hpq rfl
    obtain ⟨hbaseEc, hbasePq⟩ := hs.tables.base hstored
    dsimp only
    split
    · rename_i ec pq hec hpq
      replace hec : firstRow s.db.tables.oneTimeEc userId = some ec := by
        rw [← h₁]
        exact hec
      replace hpq : firstRow s.db.tables.oneTimePq userId = some pq := by
        rw [← h₂]
        exact hpq
      refine inside_update_bind fun s₄ h₄ => inside_update_bind fun s₅ h₅ => inside_pure ?_
      have ht : (connection.get s₅).tables = { s.db.tables with
          oneTimeEc := { s.db.tables.oneTimeEc with
            rows := s.db.tables.oneTimeEc.rows.filter (·.rowid ≠ ec.rowid) }
          oneTimePq := { s.db.tables.oneTimePq with
            rows := s.db.tables.oneTimePq.rows.filter (·.rowid ≠ pq.rowid) } } := by
        rw [h₅, h₄, ← h₃]
        rfl
      obtain ⟨⟨ecs, hecs, hecs'⟩, hecOthers⟩ := hs.tables.oneTimeEc.of_deleteRow hec
      obtain ⟨⟨pqs, hpqs, hpqs'⟩, hpqOthers⟩ := hs.tables.oneTimePq.of_deleteRow hpq
      rw [ht]
      refine ⟨⟨hs.tables.base, hs.tables.oneTimeEc.filter _, hs.tables.oneTimePq.filter _,
        hs.tables.inbox⟩, rfl, rfl, fun _ h => (by cases h), fun b hb => ?_⟩
      obtain rfl := Except.ok.inj hb
      have hbefore : s.stores.bundle userId = some { stored with
          oneTimeEc := ec.value :: ecs.map Row.value
          oneTimePq := pq.value :: pqs.map Row.value } := by
        simp only [stores, Tables.stores, hstored, hecs, hpqs, Option.map_some, List.map_cons]
      refine .pair _ ec.value pq.value _ _ _ hbefore rfl rfl rfl rfl ?_
      exact Tables.bundle_eq_update stored hstored (congrArg (List.map Row.value) hecs')
        (congrArg (List.map Row.value) hpqs') fun u hu => ⟨rfl, hecOthers u hu, hpqOthers u hu⟩
    · exact hnone _ hbaseEc hbasePq

theorem enqueueEnvelope_stores (userId : Bytes) (envelope : Envelope Bytes) {s : SqliteStore}
    (hs : s.Ordered) :
    Proc.wp (enqueueEnvelope userId envelope) (fun r s' => s'.Ordered ∧
      s.stores.Enqueued userId envelope (Survives envelope) r s'.stores) s := by
  refine Proc.wp_ofExcept_bind (fun e _ => ⟨hs, rfl, fun _ _ => rfl, nofun⟩)
    fun serialized hserialized => ?_
  refine Holder.wp_on (wp_exec (fun e n _ => ?_) fun t a n hf => ?_)
  · exact ⟨⟨hs.closed, hs.tables⟩, rfl, fun _ _ => rfl, nofun⟩
  obtain ⟨inbox, hinsert, ht⟩ := Result.bind_eq_ok.mp hf
  obtain ⟨rfl, -⟩ := Prod.mk.inj (Except.ok.inj ht)
  have hof := RowTable.of_insert hinsert
  have hordered := hs.tables.inbox.insert hinsert
  obtain ⟨hlast, hinbox⟩ := RowTable.insert_eq_ok hinsert
  refine ⟨⟨hs.closed, hs.tables.base, hs.tables.oneTimeEc, hs.tables.oneTimePq, hordered⟩, rfl,
    nofun, fun _ => ?_⟩
  refine ⟨Row.stored ⟨s.db.tables.inbox.last + 1, userId, serialized⟩,
    fun hsurvives => hsurvives _ hserialized, ?_, fun _ => ?_⟩
  · funext u
    change (inbox.of u).map Row.stored = _
    rw [hof]
    by_cases hu : u = userId
    · subst hu
      rw [if_pos rfl, Function.update_self, List.map_append]
      rfl
    · rw [if_neg hu, Function.update_of_ne hu]
      rfl
  · have hnext : inbox.last = s.db.tables.inbox.last + 1 := congrArg RowTable.last hinbox
    refine ⟨?_, hnext, fun u => ⟨(Nat.le_succ _).trans_eq hnext.symm, hnext.le⟩⟩
    change (UInt64.ofNat (s.db.tables.inbox.last + 1)).toNat = s.db.tables.inbox.last + 1
    exact UInt64.toNat_ofNat_of_lt (hlast.trans (by decide))

/-- The page is what it was, and a part of the rows that come. -/
theorem prefix_of_drainPage {rows : List (Row Bytes)} {out page : List (InboxEnvelope Bytes)}
    {total : Nat} (h : drainPage out total rows = .ok page) :
    page.map InboxEnvelope.stored <+: out.map InboxEnvelope.stored ++ rows.map Row.stored := by
  induction rows generalizing out total with
  | nil =>
    obtain rfl := Except.ok.inj h
    exact List.prefix_append _ _
  | cons row rest ih =>
    rw [drainPage] at h
    split at h
    · obtain rfl := Except.ok.inj h
      exact List.prefix_append _ _
    · obtain ⟨envelope, henvelope, h⟩ := Result.bind_eq_ok.mp h
      have hrest := ih h
      have hrow : Row.stored row =
          InboxEnvelope.stored ⟨UInt64.ofNat row.rowid, envelope⟩ := by
        rw [Row.stored, henvelope]
        rfl
      rw [List.map_append, List.append_assoc] at hrest
      rw [List.map_cons, hrow]
      exact hrest

theorem toInt64_of_lt {a : UInt64} (h : a.toNat < 2 ^ 63) : a.toInt64.toInt = a.toNat := by
  change a.toBitVec.toInt = _
  rw [BitVec.toInt_eq_toNat_of_lt]
  · rfl
  · rw [UInt64.toNat_toBitVec]
    omega

/-- The acknowledged rows of a user are the first ones. -/
theorem ackInbox_of {inbox : RowTable Bytes} (hT : inbox.Ordered) (userId : Bytes) (a : UInt64) :
    Stores.Acked (some a) ((inbox.of userId).map Row.stored)
      (((ackInbox userId a inbox).of userId).map Row.stored) ∧
    ∀ u, u ≠ userId → (ackInbox userId a inbox).of u = inbox.of u := by
  have hself : (ackInbox userId a inbox).of userId =
      (inbox.of userId).dropWhile fun row => (row.rowid : Int) ≤ a.toInt64.toInt := by
    have hfirst : (inbox.of userId).Pairwise fun row row' =>
        decide ((row'.rowid : Int) ≤ a.toInt64.toInt) →
          decide ((row.rowid : Int) ≤ a.toInt64.toInt) := by
      refine (hT.increasing_of userId).imp fun hlt hle => ?_
      rw [decide_eq_true_eq] at hle ⊢
      omega
    rw [← Window.filter_eq_dropWhile hfirst, ackInbox, RowTable.of, RowTable.of, List.filter_filter,
      List.filter_filter]
    refine List.filter_congr fun row _ => ?_
    by_cases hrow : row.userId = userId
    · simp only [hrow, true_and, decide_true, Bool.true_and, Bool.and_true, decide_not]
    · simp [hrow]
  refine ⟨?_, fun u hu => ?_⟩
  · rw [hself]
    refine ⟨(List.dropWhile_suffix _).map _, nofun, fun b hb hlt => ?_⟩
    obtain rfl := Option.some.inj hb
    -- below 2 ^ 63 the signed comparison is the unsigned one
    rw [List.dropWhile_map]
    refine congrArg (List.map Row.stored) (Window.dropWhile_congr fun row hrow => ?_)
    have hid := hT.rowid_lt hrow
    have hnat : (UInt64.ofNat row.rowid).toNat = row.rowid :=
      UInt64.toNat_ofNat_of_lt (hid.trans (by decide))
    refine decide_eq_decide.mpr ?_
    change _ ↔ UInt64.ofNat row.rowid ≤ a
    rw [toInt64_of_lt hlt, UInt64.le_iff_toNat_le, hnat, Nat.cast_le]
  · rw [ackInbox, RowTable.of, RowTable.of, List.filter_filter]
    refine List.filter_congr fun row _ => ?_
    by_cases hrow : row.userId = u <;> simp [hrow, hu]

theorem drainInbox_stores (userId : Bytes) (ack : Option UInt64) {s : SqliteStore}
    (hs : s.Ordered) :
    Proc.wp (drainInbox userId ack)
      (fun r s' => s'.Ordered ∧ s.stores.Drained userId ack r s'.stores) s := by
  refine wp_transaction_stores hs
    (fun e => ⟨rfl, rfl, fun _ _ => rfl, fun _ _ => Or.inl rfl, nofun⟩) fun s' hs' => ?_
  -- the rest of the call, for the rows that are kept
  have hrest : ∀ (inbox : RowTable Bytes) (s₁ : SqliteStore),
      s₁.db.tables = { s.db.tables with inbox } → inbox.Ordered →
      inbox.last = s.db.tables.inbox.last →
      Stores.Acked ack (s.stores.inbox userId) ((inbox.of userId).map Row.stored) →
      (∀ u, u ≠ userId → inbox.of u = s.db.tables.inbox.of u) →
      Inside connection (do
          let rows ← connection.on
            (query fun t => selectInbox userId kMaxDrainInboxBatchItems t.inbox)
          Proc.ofExcept "" (drainPage [] 0 rows))
        (fun page t => t.Ordered ∧ s.stores.Drained userId ack (.ok page) t.stores) s₁ := by
    intro inbox s₁ h₁ hordered hlast hacked hothers
    refine inside_query_bind fun s₂ h₂ => inside_ofExcept fun page hpage => ?_
    rw [h₂]
    change s₁.db.tables.Ordered ∧ s.stores.Drained userId ack (.ok page) s₁.db.tables.stores
    have hrows : selectInbox userId kMaxDrainInboxBatchItems (connection.get s₁).tables.inbox <+:
        inbox.of userId := by
      change selectInbox userId kMaxDrainInboxBatchItems s₁.db.tables.inbox <+: _
      rw [h₁]
      exact List.take_prefix _ _
    rw [h₁]
    refine ⟨⟨hs.tables.base, hs.tables.oneTimeEc, hs.tables.oneTimePq, hordered⟩, rfl,
      funext fun _ => hlast, fun u hu => congrArg (List.map Row.stored) (hothers u hu), nofun,
      fun page' hpage' => ?_⟩
    obtain rfl := Except.ok.inj hpage'
    exact ⟨hacked, (prefix_of_drainPage hpage).trans (hrows.map Row.stored)⟩
  cases ack with
  | none =>
    refine hrest s.db.tables.inbox s' hs' hs.tables.inbox rfl ?_ fun _ _ => rfl
    exact ⟨List.suffix_refl _, fun _ => rfl, nofun⟩
  | some a =>
    obtain ⟨hacked, hothers⟩ := ackInbox_of hs.tables.inbox userId a
    refine inside_update_bind fun s₁ h₁ => ?_
    refine hrest (ackInbox userId a s.db.tables.inbox) s₁ ?_ (hs.tables.inbox.filter _) rfl hacked
      hothers
    rw [← hs']
    exact h₁

end Calls

/-- **The database keeps bundles and mailboxes.** -/
theorem storeService (c : Crypto Bytes) :
    StoreService c (serverApi c) Ordered stores Survives where
  publishBundle bundle _ hs := publishBundle_stores bundle hs
  acquireBundleForSession userId _ hs := acquireBundleForSession_stores userId hs
  enqueueEnvelope userId envelope _ hs := enqueueEnvelope_stores userId envelope hs
  drainInbox userId ack _ hs := drainInbox_stores userId ack hs

end SqliteStore

end PqChat
