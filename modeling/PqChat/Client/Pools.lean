/-
# The pools of one-time keys

Each kind of one-time keys has a pool, and a message names its keys by their ids.  So the ids must
lead to one key each, across both pools: `erase` takes the first key with an id, and a second one
would stay behind.

`GenerateUniqueOneTimePrekeyId` looks a random id up in both pools, as they are when it is called,
and gives up after 32 attempts.  A refill adds to the end of a pool, one key at a time, so what was
there stays where it was (`refillEc_spec`), no matter at which key it gives up.
-/
import PqChat.Client.Keys

set_option linter.unusedSectionVars false

namespace PqChat

variable {B S : Type} [ByteString B] [DecidableEq B]

/-! ## 1. The invariant -/

/-- All one-time keys. -/
def Client.oneTimeKeys (cl : Client B) : List (OneTimeKey B) :=
  cl.oneTimeEcPool ++ cl.oneTimePqPool

/-- The ids are not zero and lead to one key each, and the two parts of a key were generated
together. -/
structure Client.Pooled (trace : List (Event B)) (cl : Client B) : Prop where
  nonzero : ∀ key ∈ cl.oneTimeKeys, key.publicPart.id ≠ 0
  distinct : (cl.oneTimeKeys.map (·.publicPart.id)).Nodup
  ec : ∀ key ∈ cl.oneTimeEcPool, key.publicPart.publicKey = key.privatePart.publicKey ∧
    .x25519 key.privatePart ∈ trace
  pq : ∀ key ∈ cl.oneTimePqPool, key.publicPart.publicKey = key.privatePart.publicKey ∧
    .mlkem key.privatePart ∈ trace

namespace Client.Pooled

variable {trace trace' : List (Event B)} {cl cl' : Client B}

theorem mono (h : cl.Pooled trace) (ht : trace <:+ trace') : cl.Pooled trace' :=
  ⟨h.nonzero, h.distinct, fun key hk => ⟨(h.ec key hk).1, ht.subset (h.ec key hk).2⟩,
    fun key hk => ⟨(h.pq key hk).1, ht.subset (h.pq key hk).2⟩⟩

/-- Some keys may go. -/
theorem sublist (h : cl.Pooled trace) (hec : cl'.oneTimeEcPool.Sublist cl.oneTimeEcPool)
    (hpq : cl'.oneTimePqPool.Sublist cl.oneTimePqPool) : cl'.Pooled trace := by
  have hkeys : cl'.oneTimeKeys.Sublist cl.oneTimeKeys := hec.append hpq
  exact ⟨fun key hk => h.nonzero key (hkeys.subset hk), h.distinct.sublist (hkeys.map _),
    fun key hk => h.ec key (hec.subset hk), fun key hk => h.pq key (hpq.subset hk)⟩

theorem same (h : cl.Pooled trace) (hec : cl'.oneTimeEcPool = cl.oneTimeEcPool)
    (hpq : cl'.oneTimePqPool = cl.oneTimePqPool) : cl'.Pooled trace :=
  h.sublist (hec ▸ List.Sublist.refl _) (hpq ▸ List.Sublist.refl _)

/-- An id that is in use is the id of one of the keys. -/
theorem idInUse_iff {id : UInt32} :
    cl.idInUse id ↔ ∃ key ∈ cl.oneTimeKeys, key.publicPart.id = id := by
  simp only [Client.idInUse, Client.oneTimeKeys, List.mem_append]
  constructor
  · rintro (⟨key, hk, he⟩ | ⟨key, hk, he⟩)
    · exact ⟨key, Or.inl hk, he⟩
    · exact ⟨key, Or.inr hk, he⟩
  · rintro ⟨key, hk | hk, he⟩
    · exact Or.inl ⟨key, hk, he⟩
    · exact Or.inr ⟨key, hk, he⟩

/-- A key with an unused id may come, anywhere. -/
theorem add (h : cl.Pooled trace) {id : UInt32} {pair : KeyPair B} (h0 : id ≠ 0)
    (hid : ¬ cl.idInUse id) {keys : List (OneTimeKey B)}
    (hperm : keys.Perm (cl.oneTimeKeys ++ [OneTimeKey.make id pair])) :
    (∀ key ∈ keys, key.publicPart.id ≠ 0) ∧ (keys.map (·.publicPart.id)).Nodup := by
  constructor
  · intro key hk
    rcases List.mem_append.mp (hperm.mem_iff.mp hk) with hk | hk
    · exact h.nonzero key hk
    · rw [List.mem_singleton.mp hk]
      exact h0
  · rw [(hperm.map _).nodup_iff]
    exact nodup_ids_append h.distinct fun key hk he => hid (idInUse_iff.mpr ⟨key, hk, he⟩)

/-- The keys are reloaded as they were. -/
theorem reload (h : cl.Pooled trace) : cl.reload.Pooled trace := by
  have hmap : ∀ pool : List (OneTimeKey B),
      (∀ key ∈ pool, key.publicPart.publicKey = key.privatePart.publicKey) →
      pool.map OneTimeKey.reload = pool := by
    intro pool hpool
    refine (List.map_congr_left fun key hk => ?_).trans (List.map_id _)
    rw [OneTimeKey.reload, hpool key hk]
    rfl
  exact h.same (hmap _ fun key hk => (h.ec key hk).1) (hmap _ fun key hk => (h.pq key hk).1)

/-- An id that leads to a key is one of the ids. -/
theorem id_mem_of_find {pool : List (OneTimeKey B)} {id : UInt32} {key : OneTimeKey B}
    (h : findOneTimeKey pool id = some key) : id ∈ pool.map (·.publicPart.id) := by
  rw [findOneTimeKey] at h
  exact List.mem_map.mpr ⟨key, List.mem_of_find?_eq_some h, by simpa using List.find?_some h⟩

/-- Once the keys of a handshake are erased, no key has one of their ids. -/
theorem accepted {c : Crypto B} {message : InitialMessage B} (h : cl.Pooled trace)
    (run : ResponderRun c cl message) : ∀ key ∈ run.accepted.oneTimeKeys,
      key.publicPart.id ≠ run.ecId ∧ key.publicPart.id ≠ run.pqId := by
  have hids := h.distinct
  rw [Client.oneTimeKeys, List.map_append, List.nodup_append] at hids
  obtain ⟨hec, hpq, hcross⟩ := hids
  have hecId := id_mem_of_find run.ec_found
  have hpqId := id_mem_of_find run.pq_found
  intro key hk
  rcases List.mem_append.mp hk with hk | hk
  · exact ⟨id_ne_of_mem_erase hec hk,
      hcross _ (List.mem_map_of_mem (List.mem_of_mem_eraseP hk)) _ hpqId⟩
  · exact ⟨(hcross _ hecId _ (List.mem_map_of_mem (List.mem_of_mem_eraseP hk))).symm,
      id_ne_of_mem_erase hpq hk⟩

end Client.Pooled

theorem Move.pooled {P : Crypto B → Prop} {v : Observer S} {w w' : World B S}
    (hm : Move P v w w') (h : w.client.Pooled w.trace) : w'.client.Pooled w'.trace := by
  have h' := h.mono hm.trace_suffix
  cases hm with
  | @addEc _ _ pair id hc hgen h0 hid hlen =>
    have hkeys : (w.client.oneTimeEcPool ++ [OneTimeKey.make id pair] ++
        w.client.oneTimePqPool).Perm (w.client.oneTimeKeys ++ [OneTimeKey.make id pair]) := by
      rw [Client.oneTimeKeys, List.append_assoc, List.append_assoc]
      exact List.perm_append_comm.append_left _
    obtain ⟨hnonzero, hdistinct⟩ := h.add h0 hid hkeys
    refine ⟨hnonzero, hdistinct, fun key hk => ?_, h'.pq⟩
    rcases List.mem_append.mp hk with hk | hk
    · exact h'.ec key hk
    · rw [List.mem_singleton.mp hk]
      exact ⟨rfl, List.mem_cons_self ..⟩
  | @addPq _ _ pair id hc hgen h0 hid hlen =>
    have hkeys : (w.client.oneTimeEcPool ++ (w.client.oneTimePqPool ++
        [OneTimeKey.make id pair])).Perm (w.client.oneTimeKeys ++ [OneTimeKey.make id pair]) := by
      rw [Client.oneTimeKeys, List.append_assoc]
    obtain ⟨hnonzero, hdistinct⟩ := h.add h0 hid hkeys
    refine ⟨hnonzero, hdistinct, h'.ec, fun key hk => ?_⟩
    rcases List.mem_append.mp hk with hk | hk
    · exact h'.pq key hk
    · rw [List.mem_singleton.mp hk]
      exact ⟨rfl, List.mem_cons_self ..⟩
  | accept => exact h'.sublist List.eraseP_sublist List.eraseP_sublist
  | _ => exact h'.same rfl rfl

theorem Reach.pooled {P : Crypto B → Prop} {w : World B S} (h : Reach P true w) :
    w.client.Pooled w.trace := by
  have key := h.invariant (D := fun w => ∀ d, w.disk = some d → d.Pooled w.trace)
    (I := fun w => w.client.Pooled w.trace ∧ ∀ d, w.disk = some d → d.Pooled w.trace)
    ?_ ?_ ?_ ?_ ?_
  · exact (key.2 rfl).1
  · intro w hd _ d hd'
    rw [hd] at hd'
    cases hd'
  · intro w w₁ hD hb
    cases hb with
    | load saved n hdisk => exact ⟨(hD saved hdisk).reload, hD⟩
    | identity hc userId d n run =>
      refine ⟨⟨nofun, List.nodup_nil, nofun, nofun⟩, fun d hd => (hD d hd).mono ?_⟩
      exact (List.suffix_cons _ _).trans ((List.suffix_cons _ _).trans (List.suffix_cons _ _))
  · intro w w₁ hI hm
    refine ⟨hm.pooled hI.1, ?_⟩
    have ht := hm.trace_suffix
    cases hm with
    | save =>
      intro d hd
      obtain rfl := Option.some.inj hd
      exact hI.1
    | _ => exact fun d hd => (hI.2 d hd).mono ht
  · exact fun w hI => hI.2
  · intro w w₁ hD hd ht d hd'
    exact (hD d (hd ▸ hd')).mono ht

/-! ## 2. The refill -/

section Refill

variable {c : Crypto B}

/-- The EC loop adds keys to the end of its pool, as many as are missing if nothing fails, and
leaves the other pool alone. -/
theorem refillEc_spec : ∀ (missing : Nat) (w : World B S), ∃ added,
    (refillEc c missing w).2.client.oneTimeEcPool = w.client.oneTimeEcPool ++ added ∧
    (refillEc c missing w).2.client.oneTimePqPool = w.client.oneTimePqPool ∧
    ((refillEc c missing w).1 = .ok () → added.length = missing)
  | 0, w => ⟨[], (List.append_nil _).symm, rfl, fun _ => rfl⟩
  | missing + 1, w => by
    rw [refillEc]
    rcases generateX25519_cases (c := c) w with ⟨pair, -, hrun⟩ | ⟨e, hrun⟩
    · rw [Proc.bind_ok (Proc.within_ok hrun _)]
      obtain ⟨n, hw', -⟩ := generateUniqueOneTimePrekeyId_spec (c := c) 32
        { w with drawn := w.drawn + 1, trace := .x25519 pair :: w.trace }
      rcases hr : generateUniqueOneTimePrekeyId c 32
        { w with drawn := w.drawn + 1, trace := .x25519 pair :: w.trace } with ⟨e | id, w'⟩
      · rw [hr] at hw'
        subst hw'
        rw [Proc.bind_error hr]
        exact ⟨[], (List.append_nil _).symm, rfl, fun h => by cases h⟩
      · rw [hr] at hw'
        subst hw'
        rw [Proc.bind_ok hr, modifyClient, Proc.modify_bind_apply]
        obtain ⟨added, hec, hpq, hlen⟩ := refillEc_spec missing _
        refine ⟨OneTimeKey.make id pair :: added, ?_, hpq, fun h => ?_⟩
        · rw [hec, List.append_assoc]
          rfl
        · rw [List.length_cons, hlen h]
    · rw [Proc.bind_error (Proc.within_error hrun _)]
      exact ⟨[], (List.append_nil _).symm, rfl, fun h => by cases h⟩

theorem refillPq_spec : ∀ (missing : Nat) (w : World B S), ∃ added,
    (refillPq c missing w).2.client.oneTimePqPool = w.client.oneTimePqPool ++ added ∧
    (refillPq c missing w).2.client.oneTimeEcPool = w.client.oneTimeEcPool ∧
    ((refillPq c missing w).1 = .ok () → added.length = missing)
  | 0, w => ⟨[], (List.append_nil _).symm, rfl, fun _ => rfl⟩
  | missing + 1, w => by
    rw [refillPq]
    rcases generateMlKem_cases (c := c) w with ⟨pair, -, hrun⟩ | ⟨e, hrun⟩
    · rw [Proc.bind_ok (Proc.within_ok hrun _)]
      obtain ⟨n, hw', -⟩ := generateUniqueOneTimePrekeyId_spec (c := c) 32
        { w with drawn := w.drawn + 1, trace := .mlkem pair :: w.trace }
      rcases hr : generateUniqueOneTimePrekeyId c 32
        { w with drawn := w.drawn + 1, trace := .mlkem pair :: w.trace } with ⟨e | id, w'⟩
      · rw [hr] at hw'
        subst hw'
        rw [Proc.bind_error hr]
        exact ⟨[], (List.append_nil _).symm, rfl, fun h => by cases h⟩
      · rw [hr] at hw'
        subst hw'
        rw [Proc.bind_ok hr, modifyClient, Proc.modify_bind_apply]
        obtain ⟨added, hpq, hec, hlen⟩ := refillPq_spec missing _
        refine ⟨OneTimeKey.make id pair :: added, ?_, hec, fun h => ?_⟩
        · rw [hpq, List.append_assoc]
          rfl
        · rw [List.length_cons, hlen h]
    · rw [Proc.bind_error (Proc.within_error hrun _)]
      exact ⟨[], (List.append_nil _).symm, rfl, fun h => by cases h⟩

/-- What a refill does to the pools. -/
structure Refilled (ok : Prop) (cl cl' : Client B) : Prop where
  ec : cl.oneTimeEcPool <+: cl'.oneTimeEcPool
  pq : cl.oneTimePqPool <+: cl'.oneTimePqPool
  full : ok → kOneTimePrekeyPoolTarget ≤ cl'.oneTimeEcPool.length ∧
    kOneTimePrekeyPoolTarget ≤ cl'.oneTimePqPool.length

/-- **A refill drops nothing**, and fills both pools if it succeeds. -/
theorem refillOneTimePrekeyPools_refilled (w : World B S) :
    Refilled ((refillOneTimePrekeyPools c w).1 = .ok ()) w.client
      (refillOneTimePrekeyPools c w).2.client := by
  rw [refillOneTimePrekeyPools, Proc.get_bind_apply]
  obtain ⟨ecs, hec, hpq, hecs⟩ := refillEc_spec (c := c)
    (kOneTimePrekeyPoolTarget - w.client.oneTimeEcPool.length) w
  rcases hr : refillEc c (kOneTimePrekeyPoolTarget - w.client.oneTimeEcPool.length) w with
    ⟨e | u, w₁⟩
  · rw [hr] at hec hpq
    rw [Proc.bind_error hr]
    exact ⟨hec ▸ List.prefix_append _ _, hpq ▸ List.prefix_rfl, fun h => by cases h⟩
  · rw [hr] at hec hpq hecs
    rw [Proc.bind_ok hr]
    obtain ⟨pqs, hpq', hec', hpqs⟩ := refillPq_spec (c := c)
      (kOneTimePrekeyPoolTarget - w.client.oneTimePqPool.length) w₁
    rw [hpq] at hpq'
    rw [hec] at hec'
    refine ⟨hec' ▸ List.prefix_append _ _, hpq' ▸ List.prefix_append _ _, fun h => ?_⟩
    rw [hec', hpq', List.length_append, List.length_append, hecs rfl, hpqs h]
    omega

end Refill

/-! ## 3. All states -/

/-- **The pools of every client of a run** are sound; a handshake that is accepted leaves no key
with an id it has used, and a refill drops nothing and fills both pools if it succeeds. -/
theorem one_time_pools {P : Crypto B → Prop} {w : World B S} (h : Reach P true w) :
    w.client.Pooled w.trace ∧
    (∀ c message plaintext w', handleInitialMessage c message w = (.ok plaintext, w') →
      ∃ ecId pqId, message.selectedPrekeys.oneTimeEcId = some ecId ∧
        message.selectedPrekeys.oneTimePqId = some pqId ∧
        ∀ key ∈ w'.client.oneTimeKeys, key.publicPart.id ≠ ecId ∧ key.publicPart.id ≠ pqId) ∧
    ∀ c, Refilled ((refillOneTimePrekeyPools c w).1 = .ok ()) w.client
      (refillOneTimePrekeyPools c w).2.client := by
  refine ⟨h.pooled, fun c message plaintext w' hcall => ?_,
    fun c => refillOneTimePrekeyPools_refilled w⟩
  rcases handleInitialMessage_cases (c := c) (P := P) (v := .any) message w with
    ⟨run, he⟩ | ⟨e, w₁, he, -⟩
  · rw [hcall] at he
    obtain rfl := (Prod.ext_iff.mp he).2
    exact ⟨run.ecId, run.pqId, run.ecId_eq, run.pqId_eq, h.pooled.accepted run⟩
  · rw [hcall] at he
    cases (Prod.ext_iff.mp he).1

/-- A world without a state file. -/
def vacant : World Symbolic.Str Unit where
  client := Client.blank []
  server := ()
  disk := none
  entropy n := n + 1
  drawn := 0
  diskOutcome _ := .ok
  diskUses := 0
  trace := []

/-- A client that has just been created has sixteen keys of each kind. -/
theorem one_time_pools_created : ∃ w : World Symbolic.Str Unit,
    Reach (· = Crypto.symbolic) true w ∧ w.client.oneTimeKeys.length = 32 ∧
      w.client.Pooled w.trace := by
  have h := Reach.create (P := (· = Crypto.symbolic)) rfl (ByteString.text "alice")
    (.start vacant rfl rfl)
  rw [show (create Crypto.symbolic (ByteString.text "alice") vacant).1.isOk = true by
    decide +kernel] at h
  exact ⟨_, h, by decide +kernel, (one_time_pools h).1⟩

end PqChat
