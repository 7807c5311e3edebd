/-
# One-time keys are handed out once, until they are published again

`AcquireBundleForSession` takes the keys it hands out from the pool of the bundle.  The client
drops a key only when a handshake with it arrives, and publishes its WHOLE pool again when it
publishes; the server takes that as the new pool.  A key that is out and has not come back yet
is then in the pool again, and is handed out a second time.

What keeps this from happening is that no published bundle has a key that is already out
(`Unreturned`).  The invariant: what is left in the pool and what has been handed out are
distinct, all together (`Reserved`).
-/
import PqChat.Service.Shared
import PqChat.Server.Authorisation

set_option linter.unusedSectionVars false

namespace PqChat

variable {B S : Type} [ByteString B] [DecidableEq B]

/-! ## 1. What is handed out -/

/-- A kind of one-time keys: `PrekeyBundle.oneTimeEc` or `PrekeyBundle.oneTimePq`. -/
abbrev KeyKind (B : Type) := PrekeyBundle B → List (OneTimePrekey B)

/-- The keys that an entry of the log hands out. -/
def Entry.handedOut (userId : B) (kind : KeyKind B) (e : Entry B S) : List (OneTimePrekey B) :=
  match e.deed with
  | .acquired u bundle => if u = userId then kind bundle else []
  | _ => []

/-- All keys of a user that have been handed out. -/
def handedOut (userId : B) (kind : KeyKind B) (log : List (Entry B S)) : List (OneTimePrekey B) :=
  log.flatMap (Entry.handedOut userId kind)

/-- No key is returned by two calls of `AcquireBundleForSession`. -/
structure HandedOutOnce (userId : B) (log : List (Entry B S)) : Prop where
  ec : (handedOut userId PrekeyBundle.oneTimeEc log).Nodup
  pq : (handedOut userId PrekeyBundle.oneTimePq log).Nodup

/-- If this publishes for the user, then no key that the older entry hands out. -/
def Deed.Clean (userId : B) (older : Entry B S) : Deed B → Prop
  | .published bundle => bundle.userId = userId →
    (∀ k ∈ bundle.oneTimeEc, k ∉ older.handedOut userId PrekeyBundle.oneTimeEc) ∧
    ∀ k ∈ bundle.oneTimePq, k ∉ older.handedOut userId PrekeyBundle.oneTimePq
  | _ => True

instance (userId : B) (older : Entry B S) : ∀ d : Deed B, Decidable (d.Clean userId older)
  | .published _ => inferInstanceAs (Decidable (_ → _ ∧ _))
  | .acquired _ _ | .other => .isTrue trivial

/-- No bundle that the user publishes has a key that has been handed out before. -/
def Unreturned (userId : B) (log : List (Entry B S)) : Prop :=
  log.Pairwise fun e older => e.deed.Clean userId older

instance (userId : B) (log : List (Entry B S)) : Decidable (Unreturned userId log) :=
  inferInstanceAs (Decidable (List.Pairwise _ _))

/-! ## 2. The invariant -/

/-- The keys of a kind that are left. -/
def Stores.left (userId : B) (kind : KeyKind B) (st : Stores B) : List (OneTimePrekey B) :=
  (st.bundle userId).elim [] kind

/-- The keys that are left and those that are out are distinct. -/
structure Reserved (userId : B) (st : Stores B) (log : List (Entry B S)) : Prop where
  ec : (st.left userId PrekeyBundle.oneTimeEc ++ handedOut userId PrekeyBundle.oneTimeEc log).Nodup
  pq : (st.left userId PrekeyBundle.oneTimePq ++ handedOut userId PrekeyBundle.oneTimePq log).Nodup

section Steps

variable {userId : B} {kind : KeyKind B} {st st' : Stores B} {log : List (Entry B S)}
  {e : Entry B S}

theorem Stores.left_congr (h : st'.bundle userId = st.bundle userId) :
    st'.left userId kind = st.left userId kind :=
  congrArg (Option.elim · [] kind) h

theorem handedOut_cons : handedOut userId kind (e :: log) =
    e.handedOut userId kind ++ handedOut userId kind log := List.flatMap_cons

/-- An entry that hands out no key of the user and leaves the bundle alone. -/
theorem Reserved.same (h : Reserved userId st log) (hb : st'.bundle userId = st.bundle userId)
    (he : ∀ kind, e.handedOut userId kind = []) : Reserved userId st' (e :: log) := by
  refine ⟨?_, ?_⟩
  · rw [Stores.left_congr hb, handedOut_cons, he, List.nil_append]
    exact h.ec
  · rw [Stores.left_congr hb, handedOut_cons, he, List.nil_append]
    exact h.pq

/-- A key goes from one list to the other. -/
theorem nodup_handOver {k : OneTimePrekey B} {ks out : List (OneTimePrekey B)}
    (h : (k :: ks ++ out).Nodup) : (ks ++ ([k] ++ out)).Nodup :=
  List.perm_middle.nodup_iff.mpr h

theorem Reserved.acquired {u : B} {bundle : PrekeyBundle B} (h : Reserved userId st log)
    (hacquired : st.HandsOut u bundle st') (he : e.deed = .acquired u bundle) :
    Reserved userId st' (e :: log) := by
  have hout : ∀ kind : KeyKind B, e.handedOut userId kind =
      if u = userId then kind bundle else [] := fun kind => by rw [Entry.handedOut, he]
  cases hacquired with
  | pair stored ec pq ecs pqs _ hstored hec hpq hec' hpq' hafter =>
    by_cases hu : u = userId
    · subst hu
      have hleft : ∀ kind : KeyKind B, st.left u kind = kind stored := fun kind => by
        rw [Stores.left, hstored, Option.elim_some]
      have hleft' : ∀ kind : KeyKind B, st'.left u kind =
          kind { stored with oneTimeEc := ecs, oneTimePq := pqs } := fun kind => by
        rw [Stores.left, hafter, Function.update_self, Option.elim_some]
      refine ⟨?_, ?_⟩
      · rw [hleft', handedOut_cons, hout, if_pos rfl, hec']
        refine nodup_handOver ?_
        rw [← hec, ← hleft PrekeyBundle.oneTimeEc]
        exact h.ec
      · rw [hleft', handedOut_cons, hout, if_pos rfl, hpq']
        refine nodup_handOver ?_
        rw [← hpq, ← hleft PrekeyBundle.oneTimePq]
        exact h.pq
    · refine h.same ?_ fun kind => by rw [hout, if_neg hu]
      rw [hafter, Function.update_of_ne (Ne.symm hu)]
  | none _ hec hpq hafter =>
    have hb : st'.bundle userId = st.bundle userId := congrFun hafter userId
    refine ⟨?_, ?_⟩
    · rw [Stores.left_congr hb, handedOut_cons, hout, hec, ite_self, List.nil_append]
      exact h.ec
    · rw [Stores.left_congr hb, handedOut_cons, hout, hpq, ite_self, List.nil_append]
      exact h.pq

/-- What an entry publishes shares nothing with what is out. -/
theorem disjoint_handedOut {keys : List (OneTimePrekey B)}
    (h : ∀ older ∈ log, ∀ k ∈ keys, k ∉ older.handedOut userId kind) :
    keys.Disjoint (handedOut userId kind log) := by
  intro k hk hout
  obtain ⟨older, hmem, hk'⟩ := List.mem_flatMap.mp hout
  exact h older hmem k hk hk'

theorem Reserved.published {bundle : PrekeyBundle B} (h : Reserved userId st log)
    (hb : st'.bundle = Function.update st.bundle bundle.userId (some bundle))
    (hnodup : bundle.userId = userId → bundle.oneTimeEc.Nodup ∧ bundle.oneTimePq.Nodup)
    (he : e.deed = .published bundle) (hclean : ∀ older ∈ log, e.deed.Clean userId older) :
    Reserved userId st' (e :: log) := by
  have hout : ∀ kind : KeyKind B, e.handedOut userId kind = [] := fun kind => by
    rw [Entry.handedOut, he]
  rw [he] at hclean
  by_cases hu : bundle.userId = userId
  · have hleft : ∀ kind : KeyKind B, st'.left userId kind = kind bundle := fun kind => by
      rw [Stores.left, hb, ← hu, Function.update_self, Option.elim_some]
    obtain ⟨hec, hpq⟩ := hnodup hu
    refine ⟨?_, ?_⟩
    · rw [hleft, handedOut_cons, hout, List.nil_append]
      exact hec.append (List.nodup_append.mp h.ec).2.1
        (disjoint_handedOut fun older ho => (hclean older ho hu).1)
    · rw [hleft, handedOut_cons, hout, List.nil_append]
      exact hpq.append (List.nodup_append.mp h.pq).2.1
        (disjoint_handedOut fun older ho => (hclean older ho hu).2)
  · refine h.same ?_ hout
    rw [hb, Function.update_of_ne (Ne.symm hu)]

end Steps

/-! ## 3. Runs -/

section Runs

variable {c : Crypto B} {api : ServerApi B S} {invariant : S → Prop} {stores : S → Stores B}
  {survives : Envelope B → Prop} {userId : B}

/-- The invariant of the server, as long as no key has come back. -/
def Shared.Reserves (invariant : S → Prop) (stores : S → Stores B) (userId : B)
    (s : Shared B S) : Prop :=
  invariant s.base ∧ (Unreturned userId s.log → Reserved userId (stores s.base) s.log)

theorem Shared.reserves_publish (h : StoreService c api invariant stores survives)
    {bundle : PrekeyBundle B}
    (hnodup : bundle.userId = userId → bundle.oneTimeEc.Nodup ∧ bundle.oneTimePq.Nodup)
    {s : Shared B S} (hs : s.Reserves invariant stores userId) :
    (Shared.exec (.ofPublish bundle) (api.publishBundle bundle) s).2.Reserves invariant stores
      userId := by
  obtain ⟨hinv, hpublished⟩ := h.publishBundle bundle s.base hs.1
  refine ⟨hinv, fun hun => ?_⟩
  obtain ⟨hclean, hun⟩ := List.pairwise_cons.mp hun
  cases hr : (api.publishBundle bundle s.base).1 with
  | error e =>
    rw [hr] at hpublished
    refine (hs.2 hun).same (congrFun (hpublished.refused e rfl) userId) fun kind => ?_
    rw [Entry.handedOut, hr, Deed.ofPublish]
  | ok u =>
    rw [hr] at hpublished
    refine (hs.2 hun).published (hpublished.accepted rfl).2 hnodup ?_ hclean
    rw [hr]
    rfl

theorem Shared.kept_reserves (h : StoreService c api invariant stores survives) :
    Shared.Kept api userId (Shared.Reserves invariant stores userId) := by
  have hother : ∀ {s : Shared B S} {base : S}, s.Reserves invariant stores userId →
      invariant base → (stores base).bundle = (stores s.base).bundle →
      Shared.Reserves invariant stores userId
        { s with base, log := ⟨s.base, base, .other⟩ :: s.log } := fun hs hinv hb =>
    ⟨hinv, fun hun => (hs.2 (List.pairwise_cons.mp hun).2).same (congrFun hb userId)
      fun _ => rfl⟩
  have hacquire : ∀ u (s : Shared B S), s.Reserves invariant stores userId →
      (Shared.exec (.ofAcquire u) (api.acquireBundleForSession u) s).2.Reserves invariant stores
        userId := by
    intro u s hs
    obtain ⟨hinv, hacquired⟩ := h.acquireBundleForSession u s.base hs.1
    refine ⟨hinv, fun hun => ?_⟩
    have hres := hs.2 (List.pairwise_cons.mp hun).2
    cases hr : (api.acquireBundleForSession u s.base).1 with
    | error e =>
      rw [hr] at hacquired
      refine hres.same (congrFun (hacquired.refused e rfl) userId) fun kind => ?_
      rw [Entry.handedOut, hr, Deed.ofAcquire]
    | ok bundle =>
      rw [hr] at hacquired
      refine hres.acquired (hacquired.accepted bundle rfl) ?_
      rw [hr]
      rfl
  have henqueue : ∀ u e (s : Shared B S), s.Reserves invariant stores userId →
      (Shared.exec (fun _ => .other) (api.enqueueEnvelope u e) s).2.Reserves invariant stores
        userId := fun u e s hs =>
    have he := h.enqueueEnvelope u e s.base hs.1
    hother hs he.1 he.2.bundle
  have hdrain : ∀ u a (s : Shared B S), s.Reserves invariant stores userId →
      (Shared.exec (fun _ => .other) (api.drainInbox u a) s).2.Reserves invariant stores
        userId := fun u a s hs =>
    have hd := h.drainInbox u a s.base hs.1
    hother hs hd.1 hd.2.bundle
  refine ⟨fun _ _ hs => hs, fun s v hv hs => ?_, hacquire, henqueue, hdrain⟩
  cases v with
  | publish bundle => exact Shared.reserves_publish h (fun hu => absurd hu hv) hs
  | acquire u => exact hacquire u s hs
  | enqueue u e => exact henqueue u e s hs
  | drain u a => exact hdrain u a s hs

/-- The state files of a client have distinct ids. -/
def DiskDistinct (w : World B S) : Prop := ∀ d, w.disk = some d → d.DistinctIds

theorem Move.diskDistinct {P : Crypto B → Prop} {v : Observer S} {w w' : World B S}
    (hm : Move P v w w') (hcl : w.client.DistinctIds) (h : DiskDistinct w) : DiskDistinct w' := by
  cases hm with
  | save =>
    intro d hd
    obtain rfl := Option.some.inj hd
    exact hcl
  | _ => exact h

/-- **One-time keys are handed out once**, by any server that keeps bundles, as long as none of
them is published again. -/
theorem SharedRun.handedOutOnce (hservice : StoreService c api invariant stores survives)
    {P : Crypto B → Prop} {G : Crypto B → Op B → World B (Shared B S) → Prop}
    {w₀ w : World B (Shared B S)} {alive : Bool} (hdisk : w₀.disk = none)
    (hinv : invariant w₀.server.base) (hbundle : (stores w₀.server.base).bundle userId = none)
    (hlog : w₀.server.log = []) (hforeign : w₀.server.Foreign userId)
    (run : SharedRun P api G userId w₀ alive w) (hun : Unreturned userId w.server.log) :
    HandedOutOnce userId w.server.log := by
  let J := Shared.Reserves (S := S) invariant stores userId
  have hkept : Shared.Kept api userId J := Shared.kept_reserves hservice
  let D : World B (Shared B S) → Prop := fun w =>
    (w.server.Foreign userId ∧ J w.server) ∧ DiskDistinct w
  let I : World B (Shared B S) → Prop := fun w => D w ∧ w.client.DistinctIds
  have hmove : ∀ w w₁ : World B (Shared B S), I w → Move P (Shared.observer userId J) w w₁ →
      I w₁ := fun w w₁ hI hm =>
    ⟨⟨Moves.observed (.single hm) hI.1.1, hm.diskDistinct hI.2 hI.1.2⟩, hm.distinctIds hI.2⟩
  have key := run.invariant (I := I) (D := D) hkept.otherwise trivial ?_ ?_ hmove
    (fun _ h => h.1) ?_ ?_ ?_
  · have hres := key.1.1.2.2 hun
    exact ⟨(List.nodup_append.mp hres.ec).2.1, (List.nodup_append.mp hres.pq).2.1⟩
  · refine ⟨⟨hforeign, hinv, fun _ => ?_⟩, fun d hd => ?_⟩
    · rw [hlog]
      constructor <;> simp [Stores.left, hbundle, handedOut]
    · rw [hdisk] at hd
      cases hd
  · intro w w₁ hD hb _
    have hids := hb.distinctIds hD.2
    cases hb with
    | load => exact ⟨hD, hids⟩
    | identity => exact ⟨hD, hids⟩
  · intro w w₁ hD hd hm
    refine ⟨hm.observed hD.1, fun d hd' => hD.2 d ?_⟩
    rw [← hd, hd']
  · intro d op w w' hd _ _ hI
    -- the bundle of a client whose ids are distinct
    have hcall : ((sharedApi api).publishBundle (w'.client.buildPrekeyBundle d)
        w'.server).2.Foreign userId ∧
        J ((sharedApi api).publishBundle (w'.client.buildPrekeyBundle d) w'.server).2 :=
      hkept.call hI.1.1.1 hI.1.1.2 fun s _ hs =>
        Shared.reserves_publish hservice (fun _ => hI.2.bundle d) hs
    have hmoves := publishPrekeys_of_call (P := P) (v := Shared.observer userId J) d
      (sharedApi api) w'
    refine Moves.induct hmove ?_ hmoves
    exact ⟨⟨hcall, hI.1.2⟩, hI.2⟩
  · intro w u hu
    have hserver : w.server.Foreign userId ∧ J w.server →
        (w.server.visit api u).Foreign userId ∧ J (w.server.visit api u) := fun h =>
      ⟨by rw [Shared.Foreign, Shared.visit_visits]; exact h.1, hkept.visit _ u hu h.2⟩
    exact ⟨fun h => ⟨hserver h.1, h.2⟩, fun h => ⟨⟨hserver h.1.1, h.1.2⟩, h.2⟩⟩

end Runs

/-! ## 4. The two servers -/

namespace Backend

/-- **One-time keys are handed out once**, on either server, in every run in which no published
bundle has a key that is already out. -/
theorem handed_out_once (c : ServerCrypto) (b : Backend) {P : Crypto Bytes → Prop}
    {G : Crypto Bytes → Op Bytes → World Bytes (Shared Bytes b.State) → Prop} {userId : Bytes}
    {w₀ w : World Bytes (Shared Bytes b.State)} {alive : Bool} (hdisk : w₀.disk = none)
    (hfresh : b.Fresh w₀.server.base) (hlog : w₀.server.log = [])
    (hforeign : w₀.server.Foreign userId)
    (run : SharedRun P (b.api c).toServerApi G userId w₀ alive w)
    (hun : Unreturned userId w.server.log) : HandedOutOnce userId w.server.log :=
  run.handedOutOnce (b.storeService c) hdisk hfresh.ordered (hfresh.stores userId).2 hlog hforeign
    hun

/-! ### A publisher -/

namespace Publisher

/-- A server that has just been started. -/
def base : (b : Backend) → b.State
  | inMemoryServer => ⟨Alice.host, InMemoryServer.init []⟩
  | sqliteStore => Alice.store

/-- Nothing has happened yet, and nothing gets lost. -/
def start (b : Backend) : World Bytes (Shared Bytes b.State) where
  client := Client.blank []
  server := ⟨base b, fun _ => [], fun _ => .answered, 0, []⟩
  disk := none
  entropy n := n + 1
  drawn := 0
  diskOutcome _ := .ok
  diskUses := 0
  trace := []

theorem fresh_base (b : Backend) : b.Fresh (base b) := by
  cases b with
  | inMemoryServer => exact ⟨_, rfl⟩
  | sqliteStore => exact Alice.fresh_store

/-- The client is created. -/
def created (b : Backend) : World Bytes (Shared Bytes b.State) :=
  (create ServerCrypto.transparent.toCrypto Alice.user (start b)).2

/-- It makes a call. -/
def calls (b : Backend) (op : Op Bytes) (w : World Bytes (Shared Bytes b.State)) :
    World Bytes (Shared Bytes b.State) :=
  (op.run ServerCrypto.transparent.toCrypto
    (sharedApi (b.api ServerCrypto.transparent).toServerApi) w).2

/-- Someone acquires a bundle. -/
def acquires (b : Backend) (w : World Bytes (Shared Bytes b.State)) :
    World Bytes (Shared Bytes b.State) :=
  { w with server :=
    w.server.visit (b.api ServerCrypto.transparent).toServerApi (.acquire Alice.user) }

/-- The client publishes once, and two bundles are acquired. -/
def served (b : Backend) : World Bytes (Shared Bytes b.State) :=
  acquires b (acquires b (calls b .publish (created b)))

/-- The client publishes again in between. -/
def republished (b : Backend) : World Bytes (Shared Bytes b.State) :=
  acquires b (calls b .publish (acquires b (calls b .publish (created b))))

/-- The runs of the client. -/
abbrev Runs (b : Backend) : Bool → World Bytes (Shared Bytes b.State) → Prop :=
  SharedRun (· = ServerCrypto.transparent.toCrypto) (b.api ServerCrypto.transparent).toServerApi
    (fun _ _ _ => True) Alice.user (start b)

theorem runs_created (b : Backend) : Runs b true (created b) := by
  have hok : (create ServerCrypto.transparent.toCrypto Alice.user (start b)).1.isOk = true := by
    cases b <;> decide +kernel
  have h : Runs b _ (created b) := .create rfl .start
  rwa [hok] at h

theorem runs_calls {b : Backend} {w : World Bytes (Shared Bytes b.State)} (op : Op Bytes)
    (h : Runs b true w) : Runs b true (calls b op w) :=
  .op (P := (· = ServerCrypto.transparent.toCrypto)) rfl op trivial h

theorem runs_acquires {b : Backend} {w : World Bytes (Shared Bytes b.State)} {alive : Bool}
    (h : Runs b alive w) : Runs b alive (acquires b w) := .visit _ trivial h

end Publisher

open Publisher in
/-- Two bundles are acquired from one that was published once. -/
theorem handed_out_once_alice :
    (Runs sqliteStore true (served sqliteStore) ∧
      (handedOut Alice.user PrekeyBundle.oneTimeEc (served sqliteStore).server.log).length = 2) ∧
    HandedOutOnce Alice.user (served sqliteStore).server.log := by
  have hrun : Runs sqliteStore true (served sqliteStore) :=
    runs_acquires (runs_acquires (runs_calls _ (runs_created _)))
  obtain ⟨htwo, hfew⟩ :
      (handedOut Alice.user PrekeyBundle.oneTimeEc (served sqliteStore).server.log).length = 2 ∧
        Unreturned Alice.user (served sqliteStore).server.log := by decide +kernel
  exact ⟨⟨hrun, htwo⟩, handed_out_once ServerCrypto.transparent sqliteStore rfl (fresh_base _) rfl
    (fun _ _ h => absurd h List.not_mem_nil) hrun hfew⟩

open Publisher in
/-- **A client that publishes again while a key is out gets it handed out twice**, on either
server. -/
theorem handed_out_twice :
    (Runs inMemoryServer true (republished inMemoryServer) ∧
      ¬ HandedOutOnce Alice.user (republished inMemoryServer).server.log) ∧
    Runs sqliteStore true (republished sqliteStore) ∧
      ¬ HandedOutOnce Alice.user (republished sqliteStore).server.log := by
  have hrun : ∀ b, Runs b true (republished b) := fun b =>
    runs_acquires (runs_calls _ (runs_acquires (runs_calls _ (runs_created b))))
  obtain ⟨hmemory, hstore⟩ :
      ¬ (handedOut Alice.user PrekeyBundle.oneTimeEc
        (republished inMemoryServer).server.log).Nodup ∧
      ¬ (handedOut Alice.user PrekeyBundle.oneTimeEc
        (republished sqliteStore).server.log).Nodup := by decide +kernel
  exact ⟨⟨hrun _, fun h => hmemory h.ec⟩, hrun _, fun h => hstore h.ec⟩

end Backend

end PqChat
