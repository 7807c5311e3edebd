/-
# Published one-time keys and the state file

A bundle promises that its owner can answer with the private halves of its keys.  The process
that made them can; after a crash only what is in the state file can be answered with.

`Create` saves the keys it has generated before anyone can publish them.  `ProcessInbox` does not:
it refills the pools, publishes them, and saves afterwards.  If the process stops in between, or
the save fails, the server hands out keys whose private halves are gone.

What keeps this from happening is that a bundle is published only when the state file has all
keys of the pools (`PrekeysSaved`).  The invariant: a key that has been published and not used is
in the state file, and as long as the process is up, in its pool.
-/
import PqChat.Service.Shared
import PqChat.Client.Pools
import PqChat.Session.Agreement
import PqChat.Server.InMemory

set_option linter.unusedSectionVars false

namespace PqChat

variable {B S : Type}

/-! ## 1. What must not get lost -/

/-- The two kinds of one-time keys. -/
inductive PrekeyKind
  | ec
  | pq

namespace PrekeyKind

/-- The pool of a kind. -/
def pool : PrekeyKind → Client B → List (OneTimeKey B)
  | ec, cl => cl.oneTimeEcPool
  | pq, cl => cl.oneTimePqPool

/-- The keys of a bundle. -/
def offered : PrekeyKind → PrekeyBundle B → List (OneTimePrekey B)
  | ec, bundle => bundle.oneTimeEc
  | pq, bundle => bundle.oneTimePq

/-- Of the two keys of a handshake, the one of the kind. -/
def among : PrekeyKind → OneTimeKey B → OneTimeKey B → OneTimeKey B
  | ec, ecKey, _ => ecKey
  | pq, _, pqKey => pqKey

/-- The event of a generated pair. -/
def generated : PrekeyKind → KeyPair B → Event B
  | ec => .x25519
  | pq => .mlkem

end PrekeyKind

/-- A bundle of the user with this key has been accepted. -/
def Deed.Offers (kind : PrekeyKind) (userId : B) (k : OneTimePrekey B) : Deed B → Prop
  | .published bundle => bundle.userId = userId ∧ k ∈ kind.offered bundle
  | _ => False

/-- The server has accepted a bundle of the user with this key. -/
def Offered (kind : PrekeyKind) (userId : B) (log : List (Entry B S)) (k : OneTimePrekey B) :
    Prop :=
  ∃ e ∈ log, e.deed.Offers kind userId k

/-- A handshake with this key has been accepted. -/
def Event.Consumes (kind : PrekeyKind) (k : OneTimePrekey B) : Event B → Prop
  | .accepted _ ec pq _ => (kind.among ec pq).publicPart = k
  | _ => False

/-- A handshake that was accepted has used the key. -/
def Consumed (kind : PrekeyKind) (trace : List (Event B)) (k : OneTimePrekey B) : Prop :=
  ∃ e ∈ trace, e.Consumes kind k

instance [DecidableEq B] (kind : PrekeyKind) (userId : B) (k : OneTimePrekey B) :
    DecidablePred (Deed.Offers kind userId k)
  | .published _ => inferInstanceAs (Decidable (_ ∧ _))
  | .acquired _ _ | .other => .isFalse id

instance [DecidableEq B] (kind : PrekeyKind) (userId : B) (log : List (Entry B S))
    (k : OneTimePrekey B) : Decidable (Offered kind userId log k) :=
  inferInstanceAs (Decidable (∃ e ∈ log, e.deed.Offers kind userId k))

instance [DecidableEq B] (kind : PrekeyKind) (k : OneTimePrekey B) :
    DecidablePred (Event.Consumes kind k)
  | .accepted _ _ _ _ => inferInstanceAs (Decidable (_ = _))
  | .x25519 _ | .mlkem _ | .seal _ _ _ _ | .receivedBundle _ | .receivedInitial _
  | .receivedChat _ | .initiated _ _ => .isFalse id

instance [DecidableEq B] (kind : PrekeyKind) (trace : List (Event B)) (k : OneTimePrekey B) :
    Decidable (Consumed kind trace k) :=
  inferInstanceAs (Decidable (∃ e ∈ trace, e.Consumes kind k))

/-- The key is in its pool, with the private half it was generated with. -/
def Client.Keeps (kind : PrekeyKind) (trace : List (Event B)) (cl : Client B)
    (k : OneTimePrekey B) : Prop :=
  ∃ key ∈ kind.pool cl, key.publicPart = k ∧ key.privatePart.publicKey = k.publicKey ∧
    kind.generated key.privatePart ∈ trace

/-- What is published and not used is in the state file. -/
def Recoverable (userId : B) (w : World B (Shared B S)) : Prop :=
  ∀ kind k, Offered kind userId w.server.log k → ¬ Consumed kind w.trace k →
    ∃ saved, w.disk = some saved ∧ saved.Keeps kind w.trace k

/-- The state file has all one-time keys of the client. -/
def World.PrekeysSaved (w : World B S) : Prop :=
  ∃ saved, w.disk = some saved ∧ ∀ kind : PrekeyKind, kind.pool w.client ⊆ kind.pool saved

/-! ## 2. Runs with crashes -/

variable [ByteString B] [DecidableEq B]

/-- The calls of the client that do not publish. -/
def Shared.calling (api : ServerApi B S) : Observer (Shared B S) where
  quiet s s' := s' = s ∨ (∃ u, s' = ((sharedApi api).acquireBundleForSession u s).2) ∨
    ∃ u a, s' = ((sharedApi api).drainInbox u a s).2
  enqueue s s' := ∃ u e, s' = ((sharedApi api).enqueueEnvelope u e s).2
  verify := True
  refl _ := Or.inl rfl

/-- A step of a client that is up.  Every call is a sequence of them (`Op.run_steps`).  `ready` is
a condition on the worlds in which a bundle is published. -/
inductive ClientStep (P : Crypto B → Prop) (api : ServerApi B S)
    (ready : World B (Shared B S) → Prop) : World B (Shared B S) → World B (Shared B S) → Prop
  | move {w w₁ : World B (Shared B S)} (hm : Move P (Shared.calling api) w w₁) :
    ClientStep P api ready w w₁
  | publish {w : World B (Shared B S)} (c : Crypto B) (hready : ready w) :
    ClientStep P api ready w { w with
      server := ((sharedApi api).publishBundle (w.client.buildPrekeyBundle c) w.server).2 }

/-- Any number of steps. -/
abbrev ClientSteps (P : Crypto B → Prop) (api : ServerApi B S)
    (ready : World B (Shared B S) → Prop) : World B (Shared B S) → World B (Shared B S) → Prop :=
  Relation.ReflTransGen (ClientStep P api ready)

/-- A world on the way through `Create`: before a client is up, or from there on. -/
inductive Starting (P : Crypto B → Prop) (api : ServerApi B S) (userId : B)
    (w : World B (Shared B S)) : World B (Shared B S) → Prop
  | early {w₁ : World B (Shared B S)} (hdisk : w₁.disk = w.disk)
    (hm : Moves P (Shared.calling api) { w with client := Client.blank userId } w₁) :
    Starting P api userId w w₁
  | booted {w₁ w₂ : World B (Shared B S)} (hb : Boot P w w₁)
    (hfrom : (∃ saved, w.disk = some saved ∧ w₁.client = saved.reload) ∨ StateMissing userId w)
    (hm : Moves P (Shared.calling api) w₁ w₂) : Starting P api userId w w₂

/-- The world in which the call publishes, if it does, is ready for it. -/
def Op.PublishesWhen (ready : World B (Shared B S) → Prop) (c : Crypto B) (api : ServerApi B S)
    (op : Op B) (w : World B (Shared B S)) : Prop :=
  ∀ w', op.publishPoint c (sharedApi api) w = some w' → ready w'

/-- The runs of the client of a user, with calls of others in between.  A process may stop at
every step of a call, and of `Create`. -/
inductive CrashRun (P : Crypto B → Prop) (api : ServerApi B S)
    (ready : World B (Shared B S) → Prop) (userId : B) (w₀ : World B (Shared B S)) :
    Bool → World B (Shared B S) → Prop
  | start : CrashRun P api ready userId w₀ false w₀
  | create {alive : Bool} {w : World B (Shared B S)} {c : Crypto B} (hc : P c)
    (h : CrashRun P api ready userId w₀ alive w) :
    CrashRun P api ready userId w₀ (create c userId w).1.isOk (create c userId w).2
  | op {w : World B (Shared B S)} {c : Crypto B} (hc : P c) (op : Op B)
    (hready : op.PublishesWhen ready c api w) (h : CrashRun P api ready userId w₀ true w) :
    CrashRun P api ready userId w₀ true (op.run c (sharedApi api) w).2
  | visit {alive : Bool} {w : World B (Shared B S)} (v : Visit B) (hv : v.Foreign userId)
    (h : CrashRun P api ready userId w₀ alive w) :
    CrashRun P api ready userId w₀ alive { w with server := w.server.visit api v }
  | crash {w w₁ : World B (Shared B S)} (hsteps : ClientSteps P api ready w w₁)
    (h : CrashRun P api ready userId w₀ true w) : CrashRun P api ready userId w₀ false w₁
  | crashStarting {alive : Bool} {w w₁ : World B (Shared B S)}
    (hsteps : Starting P api userId w w₁) (h : CrashRun P api ready userId w₀ alive w) :
    CrashRun P api ready userId w₀ false w₁

section Steps

variable {P : Crypto B → Prop} {api : ServerApi B S} {ready : World B (Shared B S) → Prop}
  {userId : B} {c : Crypto B}

theorem Shared.calling_otherwise (api : ServerApi B S) :
    (sharedApi api).Otherwise (Shared.calling api) where
  acquireBundle u _ := Or.inr (Or.inl ⟨u, rfl⟩)
  enqueueEnvelope u e _ := ⟨u, e, rfl⟩
  drainInbox u a _ := Or.inr (Or.inr ⟨u, a, rfl⟩)

theorem ClientSteps.of_moves {w w₁ : World B (Shared B S)}
    (h : Moves P (Shared.calling api) w w₁) : ClientSteps P api ready w w₁ :=
  Relation.ReflTransGen.mono (fun _ _ => ClientStep.move) _ _ h

/-- **A call is a sequence of steps.** -/
theorem Op.run_steps (hc : P c) (op : Op B) {w : World B (Shared B S)}
    (hready : op.PublishesWhen ready c api w) :
    ClientSteps P api ready w (op.run c (sharedApi api) w).2 := by
  have hpoint := op.run_of_publishPoint hc (Shared.calling_otherwise api) (fun _ => trivial) w
  rcases hw' : op.publishPoint c (sharedApi api) w with _ | w'
  · rw [hw'] at hpoint
    exact .of_moves hpoint
  · rw [hw'] at hpoint
    refine (ClientSteps.of_moves hpoint.1).trans (.head (.publish c (hready w' hw')) ?_)
    exact (ClientSteps.of_moves (publishPrekeys_of_call c (sharedApi api) w')).trans
      (ClientSteps.of_moves hpoint.2)

/-- `Create` ends on its way. -/
theorem create_starting (hc : P c) (userId : B) (w : World B (Shared B S)) :
    Starting P api userId w (create c userId w).2 := by
  rcases create_boot (v := Shared.calling api) hc userId w with
    ⟨w₁, hb, hfrom, hm⟩ | ⟨-, hd, hm, -⟩
  · exact .booted hb hfrom hm
  · exact .early hd hm

end Steps

/-! ## 3. The invariant -/

/-- What `w` says about a key that is published and not used, of a place that has keys. -/
def Covers (userId : B) (w : World B (Shared B S))
    (place : PrekeyKind → OneTimePrekey B → Prop) : Prop :=
  ∀ kind k, Offered kind userId w.server.log k → Consumed kind w.trace k ∨ place kind k

/-- The key is in its pool. -/
def Client.Pools (cl : Client B) (kind : PrekeyKind) (k : OneTimePrekey B) : Prop :=
  k ∈ (kind.pool cl).map OneTimeKey.publicPart

/-- The key is in the state file. -/
def World.Saved (w : World B S) (kind : PrekeyKind) (k : OneTimePrekey B) : Prop :=
  ∃ saved, w.disk = some saved ∧ saved.Pools kind k

/-- The invariant while no client is up. -/
structure Down (userId : B) (w : World B (Shared B S)) : Prop where
  foreign : w.server.Foreign userId
  readable : w.Readable
  pooled : ∀ saved, w.disk = some saved → saved.Pooled w.trace
  covers : Covers userId w w.Saved

/-- The invariant while a client is up. -/
structure Up (userId : B) (w : World B (Shared B S)) : Prop extends Down userId w where
  client_pooled : w.client.Pooled w.trace
  client_covers : Covers userId w w.client.Pools

section Invariant

variable {P : Crypto B → Prop} {v : Observer S} {api : ServerApi B S} {userId : B} {c : Crypto B}

theorem Consumed.mono {kind : PrekeyKind} {t t' : List (Event B)} {k : OneTimePrekey B}
    (h : Consumed kind t k) (ht : t <:+ t') : Consumed kind t' k := by
  obtain ⟨e, he, hk⟩ := h
  exact ⟨e, ht.subset he, hk⟩

theorem offered_cons {kind : PrekeyKind} {e : Entry B S} {log : List (Entry B S)}
    {k : OneTimePrekey B} : Offered kind userId (e :: log) k ↔
      e.deed.Offers kind userId k ∨ Offered kind userId log k := by
  simp only [Offered, List.mem_cons, exists_eq_or_imp]

/-- What is offered is in a fixed set, as long as the user does not publish. -/
theorem Shared.kept_offered (api : ServerApi B S) (userId : B)
    (keys : PrekeyKind → OneTimePrekey B → Prop) :
    Shared.Kept api userId fun s => ∀ kind k, Offered kind userId s.log k → keys kind k := by
  have hexec : ∀ {α : Type} {deed : Result α → Deed B} {x : Proc S α} (s : Shared B S),
      (∀ r kind k, ¬ (deed r).Offers kind userId k) →
      (∀ kind k, Offered kind userId s.log k → keys kind k) →
      ∀ kind k, Offered kind userId (Shared.exec deed x s).2.log k → keys kind k :=
    fun s hdeed hs kind k hk =>
      (offered_cons.mp hk).elim (fun h => absurd h (hdeed _ kind k)) (hs kind k)
  have hacquire : ∀ u (r : Result (PrekeyBundle B)) kind k,
      ¬ (Deed.ofAcquire u r).Offers kind userId k := by
    intro u r kind k
    cases r <;> exact id
  refine ⟨fun _ _ hs => hs, fun s v hv hs => ?_, fun u s => hexec s (hacquire u),
    fun _ _ s => hexec s fun _ _ _ => id, fun _ _ s => hexec s fun _ _ _ => id⟩
  cases v with
  | publish bundle =>
    refine hexec s (fun r kind k => ?_) hs
    cases r with
    | error e => exact id
    | ok u => exact fun h => hv h.1
  | acquire u => exact hexec s (hacquire u) hs
  | enqueue u e => exact hexec s (fun _ _ _ => id) hs
  | drain u a => exact hexec s (fun _ _ _ => id) hs

/-- A move offers nothing new. -/
theorem Move.offered {w w₁ : World B (Shared B S)} (hm : Move P (Shared.calling api) w w₁)
    (hf : w.server.Foreign userId) : w₁.server.Foreign userId ∧
      ∀ kind k, Offered kind userId w₁.server.log k → Offered kind userId w.server.log k := by
  have hother := (Shared.kept_offered api userId fun kind k =>
    Offered kind userId w.server.log k).otherwise
  have hself : w.server.Foreign userId ∧
      ∀ kind k, Offered kind userId w.server.log k → Offered kind userId w.server.log k :=
    ⟨hf, fun _ _ h => h⟩
  cases hm with
  | env s drawn uses hq =>
    rcases hq with rfl | ⟨u, rfl⟩ | ⟨u, a, rfl⟩
    · exact hself
    · exact hother.acquireBundle u _ hself
    · exact hother.drainInbox u a _ hself
  | enqueue s h =>
    obtain ⟨u, e, rfl⟩ := h
    exact hother.enqueueEnvelope u e _ hself
  | _ => exact hself

/-- Erasing by id takes the key that the id leads to. -/
theorem mem_erase_or_found {pool : List (OneTimeKey B)} {id : UInt32} {key found : OneTimeKey B}
    (hnd : (pool.map (·.publicPart.id)).Nodup) (hk : key ∈ pool)
    (hfound : findOneTimeKey pool id = some found) :
    key ∈ eraseOneTimeKey pool id ∨ key = found := by
  by_cases he : key.publicPart.id = id
  · rw [← he, findOneTimeKey_of_mem hnd hk] at hfound
    exact Or.inr (Option.some.inj hfound)
  · exact Or.inl ((List.mem_eraseP_of_neg (by simpa using he)).mpr hk)

/-- A key that leaves its pool has been used. -/
theorem Move.pools {w w₁ : World B S} (hm : Move P v w w₁) (h : w.client.Pooled w.trace)
    {kind : PrekeyKind} {k : OneTimePrekey B} (hk : w.client.Pools kind k) :
    Consumed kind w₁.trace k ∨ w₁.client.Pools kind k := by
  have hgrow : ∀ {pool added : List (OneTimeKey B)}, k ∈ pool.map OneTimeKey.publicPart →
      k ∈ (pool ++ added).map OneTimeKey.publicPart := fun hk => by
    rw [List.map_append]
    exact List.mem_append_left _ hk
  cases hm with
  | addEc =>
    cases kind with
    | ec => exact Or.inr (hgrow hk)
    | pq => exact Or.inr hk
  | addPq =>
    cases kind with
    | ec => exact Or.inr hk
    | pq => exact Or.inr (hgrow hk)
  | @accept c message hc hm run =>
    obtain ⟨key, hkey, rfl⟩ := List.mem_map.mp hk
    have hids := h.distinct
    rw [Client.oneTimeKeys, List.map_append, List.nodup_append] at hids
    have hused : ∀ kind : PrekeyKind, key = kind.among run.ec run.pq →
        Consumed kind (.accepted message run.ec run.pq run.plaintext :: w.trace) key.publicPart :=
      fun kind he => ⟨_, List.mem_cons_self, congrArg OneTimeKey.publicPart he.symm⟩
    cases kind with
    | ec =>
      rcases mem_erase_or_found hids.1 hkey run.ec_found with hleft | hec
      · exact Or.inr (List.mem_map_of_mem hleft)
      · exact Or.inl (hused .ec hec)
    | pq =>
      rcases mem_erase_or_found hids.2.1 hkey run.pq_found with hleft | hpq
      · exact Or.inr (List.mem_map_of_mem hleft)
      · exact Or.inl (hused .pq hpq)
  | _ => cases kind <;> exact Or.inr hk

theorem Move.diskOutcome_eq {w w₁ : World B S} (hm : Move P v w w₁) :
    w₁.diskOutcome = w.diskOutcome := by
  cases hm <;> rfl

theorem Moves.diskOutcome_eq {w w₁ : World B S} (hm : Moves P v w w₁) :
    w₁.diskOutcome = w.diskOutcome := by
  induction hm with
  | refl => rfl
  | tail _ hm ih => exact hm.diskOutcome_eq.trans ih

/-- The state file has the pools as they are. -/
theorem World.PrekeysSaved.of_pools {w : World B S}
    (h : w.disk.map (fun saved => (saved.oneTimeEcPool, saved.oneTimePqPool)) =
      some (w.client.oneTimeEcPool, w.client.oneTimePqPool)) : w.PrekeysSaved := by
  obtain ⟨saved, hsaved, hpools⟩ := Option.map_eq_some_iff.mp h
  obtain ⟨hec, hpq⟩ := Prod.mk.inj hpools
  refine ⟨saved, hsaved, fun kind key hkey => ?_⟩
  cases kind with
  | ec => exact (congrArg (key ∈ ·) hec).mpr hkey
  | pq => exact (congrArg (key ∈ ·) hpq).mpr hkey

/-- A move that does not save leaves the state file alone. -/
theorem Move.disk_cases {w w₁ : World B S} (hm : Move P v w w₁) :
    w₁.disk = w.disk ∨ (w₁.disk = some w.client ∧ w₁.client = w.client) := by
  cases hm with
  | save => exact Or.inr ⟨rfl, rfl⟩
  | _ => exact Or.inl rfl

/-- **A move keeps the invariant.** -/
theorem Up.move {w w₁ : World B (Shared B S)} (h : Up userId w)
    (hm : Move P (Shared.calling api) w w₁) : Up userId w₁ := by
  obtain ⟨hforeign, hoffered⟩ := hm.offered h.foreign
  have ht := hm.trace_suffix
  have hclient : Covers userId w₁ w₁.client.Pools := by
    intro kind k hk
    rcases h.client_covers kind k (hoffered kind k hk) with hused | hin
    · exact Or.inl (hused.mono ht)
    · exact hm.pools h.client_pooled hin
  refine ⟨⟨hforeign, ?_, ?_, ?_⟩, hm.pooled h.client_pooled, hclient⟩
  · rw [World.Readable, hm.diskOutcome_eq]
    exact h.readable
  · intro saved hsaved
    rcases hm.disk_cases with hd | ⟨hd, hcl⟩
    · exact (h.pooled saved (hd ▸ hsaved)).mono ht
    · obtain rfl := Option.some.inj (hd.symm.trans hsaved)
      exact h.client_pooled.mono ht
  · intro kind k hk
    rcases hm.disk_cases with hd | ⟨hd, hcl⟩
    · rcases h.covers kind k (hoffered kind k hk) with hused | ⟨saved, hsaved, hin⟩
      · exact Or.inl (hused.mono ht)
      · exact Or.inr ⟨saved, hd.trans hsaved, hin⟩
    · exact (hclient kind k hk).imp_right fun hin => ⟨_, hd, hcl ▸ hin⟩

/-- The bundle of a client has the keys of its pools. -/
theorem offered_bundle (kind : PrekeyKind) (cl : Client B) :
    kind.offered (cl.buildPrekeyBundle c) = (kind.pool cl).map OneTimeKey.publicPart := by
  cases kind <;> rfl

/-- **Publishing keeps the invariant**, if the keys are saved. -/
theorem Up.publish {w : World B (Shared B S)} (h : Up userId w) (c : Crypto B)
    (hsaved : w.PrekeysSaved) : Up userId { w with
      server := ((sharedApi api).publishBundle (w.client.buildPrekeyBundle c) w.server).2 } := by
  have hkept := Shared.kept_offered api userId fun kind k =>
    Offered kind userId w.server.log k ∨ w.client.Pools kind k
  have hpublish : ∀ s : Shared B S, s.Foreign userId →
      (∀ kind k, Offered kind userId s.log k → Offered kind userId w.server.log k ∨
        w.client.Pools kind k) →
      ∀ kind k, Offered kind userId (Shared.exec (.ofPublish (w.client.buildPrekeyBundle c))
        (api.publishBundle (w.client.buildPrekeyBundle c)) s).2.log k →
        Offered kind userId w.server.log k ∨ w.client.Pools kind k := by
    intro s _ hs kind k hk
    rcases offered_cons.mp hk with hnew | hk
    · refine Or.inr ?_
      cases hr : (api.publishBundle (w.client.buildPrekeyBundle c) s.base).1 with
      | error e =>
        rw [hr] at hnew
        exact hnew.elim
      | ok u =>
        rw [hr] at hnew
        rw [Client.Pools, ← offered_bundle (c := c)]
        exact hnew.2
    · exact hs kind k hk
  have hcall := hkept.call h.foreign (fun _ _ => Or.inl) hpublish
  obtain ⟨saved, hdisk, hsub⟩ := hsaved
  refine ⟨⟨hcall.1, h.readable, h.pooled, fun kind k hk => ?_⟩, h.client_pooled,
    fun kind k hk => ?_⟩
  · rcases hcall.2 kind k hk with hk | hin
    · exact h.covers kind k hk
    · exact Or.inr ⟨saved, hdisk, List.map_subset _ (hsub kind) hin⟩
  · exact (hcall.2 kind k hk).elim (h.client_covers kind k) Or.inr

theorem Up.steps {w w₁ : World B (Shared B S)} (h : Up userId w)
    (hsteps : ClientSteps P api World.PrekeysSaved w w₁) : Up userId w₁ := by
  induction hsteps with
  | refl => exact h
  | tail _ hstep ih =>
    cases hstep with
    | move hm => exact ih.move hm
    | publish c hsaved => exact ih.publish c hsaved

/-- A reloaded client has the keys of the state file. -/
theorem Client.pools_reload (saved : Client B) (kind : PrekeyKind) (k : OneTimePrekey B) :
    saved.reload.Pools kind k ↔ saved.Pools kind k := by
  have hmap : ∀ pool : List (OneTimeKey B),
      (pool.map OneTimeKey.reload).map OneTimeKey.publicPart = pool.map OneTimeKey.publicPart :=
    fun pool => List.map_map
  cases kind
  · exact iff_of_eq (congrArg (k ∈ ·) (hmap _))
  · exact iff_of_eq (congrArg (k ∈ ·) (hmap _))

/-- **A client that comes up** has what is not used. -/
theorem Down.boot {w w₁ : World B (Shared B S)} (h : Down userId w) (hb : Boot P w w₁)
    (hfrom : (∃ saved, w.disk = some saved ∧ w₁.client = saved.reload) ∨ StateMissing userId w) :
    Up userId w₁ := by
  have hreload : ∀ {saved}, w.disk = some saved → Covers userId w saved.reload.Pools := by
    intro saved hdisk kind k hk
    refine (h.covers kind k hk).imp_right ?_
    rintro ⟨saved', hdisk', hin⟩
    obtain rfl := Option.some.inj (hdisk.symm.trans hdisk')
    exact (Client.pools_reload saved kind k).mpr hin
  cases hb with
  | load saved n hdisk =>
    exact ⟨⟨h.foreign, h.readable, h.pooled, h.covers⟩, (h.pooled saved hdisk).reload,
      hreload hdisk⟩
  | identity hc u d n run =>
    have ht : w.trace <:+ .mlkem run.spkPq :: .x25519 run.spkEc :: .x25519 run.dhKey :: w.trace :=
      List.suffix_append [_, _, _] _
    refine ⟨⟨h.foreign, h.readable, fun saved hsaved => (h.pooled saved hsaved).mono ht,
      fun kind k hk => (h.covers kind k hk).imp_left (·.mono ht)⟩,
      ⟨List.forall_mem_nil _, List.nodup_nil, List.forall_mem_nil _, List.forall_mem_nil _⟩,
      fun kind k hk => ?_⟩
    -- there is no state file, so nothing is left of what has been published
    rcases hfrom with ⟨saved, hdisk, hclient⟩ | hmissing
    · dsimp only at hclient ⊢
      rw [hclient]
      exact (hreload hdisk kind k hk).imp_left (·.mono ht)
    · refine (h.covers kind k hk).imp (·.mono ht) ?_
      rintro ⟨saved, hdisk, -⟩
      rw [hmissing.disk h.readable] at hdisk
      cases hdisk

/-- A `Create` that has not come to a client yet. -/
theorem Down.early {w w₁ : World B (Shared B S)} (h : Down userId w) (hdisk : w₁.disk = w.disk)
    (hm : Moves P (Shared.calling api) { w with client := Client.blank userId } w₁) :
    Down userId w₁ := by
  have ht : w.trace <:+ w₁.trace := hm.trace_suffix
  have hserver : w₁.server.Foreign userId ∧
      ∀ kind k, Offered kind userId w₁.server.log k → Offered kind userId w.server.log k := by
    clear hdisk ht
    induction hm with
    | refl => exact ⟨h.foreign, fun _ _ hk => hk⟩
    | tail _ hm ih =>
      obtain ⟨hforeign, hoffered⟩ := hm.offered ih.1
      exact ⟨hforeign, fun kind k hk => ih.2 kind k (hoffered kind k hk)⟩
  refine ⟨hserver.1, ?_, fun saved hsaved => (h.pooled saved (hdisk ▸ hsaved)).mono ht,
    fun kind k hk => ?_⟩
  · rw [World.Readable, hm.diskOutcome_eq]
    exact h.readable
  · refine (h.covers kind k (hserver.2 kind k hk)).imp (·.mono ht) ?_
    rintro ⟨saved, hsaved, hin⟩
    exact ⟨saved, hdisk.trans hsaved, hin⟩

/-- On the way through `Create` the invariants hold. -/
theorem Down.starting {w w₁ : World B (Shared B S)} (h : Down userId w)
    (hs : Starting P api userId w w₁) : Down userId w₁ := by
  cases hs with
  | early hdisk hm => exact h.early hdisk hm
  | booted hb hfrom hm => exact ((h.boot hb hfrom).steps (ClientSteps.of_moves hm)).toDown

/-- A call of someone else. -/
theorem Covers.visit {w : World B (Shared B S)} {place : PrekeyKind → OneTimePrekey B → Prop}
    (h : Covers userId w place) (u : Visit B) (hu : u.Foreign userId) :
    Covers userId { w with server := w.server.visit api u } place := fun kind k hk =>
  h kind k ((Shared.kept_offered api userId fun kind k => Offered kind userId w.server.log k).visit
    w.server u hu (fun _ _ hk => hk) kind k hk)

theorem Down.visit {w : World B (Shared B S)} (h : Down userId w) (u : Visit B)
    (hu : u.Foreign userId) : Down userId { w with server := w.server.visit api u } := by
  refine ⟨?_, h.readable, h.pooled, h.covers.visit u hu⟩
  rw [Shared.Foreign, Shared.visit_visits]
  exact h.foreign

end Invariant

/-! ## 4. All runs -/

theorem CrashRun.invariant {P : Crypto B → Prop} {api : ServerApi B S} {userId : B}
    {w₀ w : World B (Shared B S)} {alive : Bool} (hstart : Down userId w₀)
    (h : CrashRun P api World.PrekeysSaved userId w₀ alive w) :
    Down userId w ∧ (alive = true → Up userId w) := by
  induction h with
  | start => exact ⟨hstart, nofun⟩
  | @create alive w c hc _ ih =>
    rcases create_boot (v := Shared.calling api) hc userId w with
      ⟨w₁, hb, hfrom, hm⟩ | ⟨⟨e, he⟩, hd, hm, -⟩
    · have hup := (ih.1.boot hb hfrom).steps (ClientSteps.of_moves hm)
      exact ⟨hup.toDown, fun _ => hup⟩
    · refine ⟨ih.1.early hd hm, fun hok => ?_⟩
      rw [he] at hok
      cases hok
  | op hc op hready _ ih =>
    have hup := (ih.2 rfl).steps (op.run_steps hc hready)
    exact ⟨hup.toDown, fun _ => hup⟩
  | @visit alive w u hu _ ih =>
    refine ⟨ih.1.visit u hu, fun halive => ?_⟩
    have hup := ih.2 halive
    exact ⟨hup.toDown.visit u hu, hup.client_pooled, hup.client_covers.visit u hu⟩
  | crash hsteps _ ih => exact ⟨((ih.2 rfl).steps hsteps).toDown, nofun⟩
  | crashStarting hsteps _ ih => exact ⟨ih.1.starting hsteps, nofun⟩

/-- A key that is in its pool has its private half. -/
theorem Client.Pooled.keeps {cl : Client B} {trace : List (Event B)} (h : cl.Pooled trace)
    {kind : PrekeyKind} {k : OneTimePrekey B} (hk : cl.Pools kind k) :
    cl.Keeps kind trace k := by
  obtain ⟨key, hkey, rfl⟩ := List.mem_map.mp hk
  cases kind with
  | ec => exact ⟨key, hkey, rfl, (h.ec key hkey).1.symm, (h.ec key hkey).2⟩
  | pq => exact ⟨key, hkey, rfl, (h.pq key hkey).1.symm, (h.pq key hkey).2⟩

/-- **What is published is recoverable**, in every run in which it is saved before it is
published. -/
theorem published_recoverable {P : Crypto B → Prop} {api : ServerApi B S} {userId : B}
    {w₀ w : World B (Shared B S)} {alive : Bool} (hdisk : w₀.disk = none)
    (hreadable : w₀.Readable) (hlog : w₀.server.log = []) (hforeign : w₀.server.Foreign userId)
    (h : CrashRun P api World.PrekeysSaved userId w₀ alive w) : Recoverable userId w := by
  have hstart : Down userId w₀ := by
    refine ⟨hforeign, hreadable, fun saved hsaved => ?_, fun kind k hk => ?_⟩
    · rw [hdisk] at hsaved
      cases hsaved
    · obtain ⟨e, he, -⟩ := hk
      rw [hlog] at he
      exact absurd he List.not_mem_nil
  intro kind k hk hunused
  obtain ⟨hdown, -⟩ := h.invariant hstart
  obtain ⟨saved, hsaved, hin⟩ := (hdown.covers kind k hk).resolve_left hunused
  exact ⟨saved, hsaved, (hdown.pooled saved hsaved).keeps hin⟩

/-! ## 5. Bob answers Alice -/

namespace BobAnswers

open AliceBob Symbolic ByteString

/-- A server with its clients. -/
abbrev Served := World Str (Shared Str (InMemoryServer Str))

/-- The server in memory. -/
def office : ServerApi Str (InMemoryServer Str) := InMemoryServer.serverApi Crypto.symbolic

/-- Bob's computer before anything has happened.  From the access `full` on, the disk is full. -/
def outset (full : Nat) : Served where
  client := Client.blank empty
  server := ⟨InMemoryServer.init [], fun _ => [], fun _ => .answered, 0, []⟩
  disk := none
  entropy n := 1001 + n
  drawn := 0
  diskOutcome n := if n < full then .ok else .failed "disk full"
  diskUses := 0
  trace := []

/-- Bob calls. -/
def calls (op : Op Str) (w : Served) : Served := (op.run Crypto.symbolic (sharedApi office) w).2

/-- Someone else calls. -/
def visits (v : Visit Str) (w : Served) : Served :=
  { w with server := w.server.visit office v }

/-- Bob is created, publishes, and verifies Alice. -/
def ready (full : Nat) : Served :=
  let created := (create Crypto.symbolic (text "bob") (outset full)).2
  let published := calls .publish created
  let met := calls (.initiate (text "alice") (text "hi"))
    (visits (.publish (alice₀.client.buildPrekeyBundle Crypto.symbolic)) published)
  calls (.verifyPeer (text "alice") (safetyNumber alice₀.client)) met

/-- What Alice sends to a client whose bundle she has acquired. -/
def letters (peer : Client Str) : List (Envelope Str) :=
  (initiateSession Crypto.symbolic (towards peer) (text "bob") (text "hello")
    (meet alice₀ peer)).2.server

/-- Alice writes to Bob. -/
def written (full : Nat) : Served :=
  (letters (ready full).client).foldl (fun w letter => visits (.enqueue (text "bob") letter) w)
    (visits (.acquire (text "bob")) (ready full))

/-- Any run of Bob's client. -/
abbrev Bobs (ready : Served → Prop) (full : Nat) : Bool → Served → Prop :=
  CrashRun (· = Crypto.symbolic) office ready (text "bob") (outset full)

theorem bobs_call {condition : Served → Prop} {full : Nat} {w : Served} (op : Op Str)
    (hready : op.PublishesWhen condition Crypto.symbolic office w)
    (h : Bobs condition full true w) : Bobs condition full true (calls op w) :=
  .op (P := (· = Crypto.symbolic)) rfl op hready h

theorem bobs_ready {condition : Served → Prop} {full : Nat}
    (hcreated : (create Crypto.symbolic (text "bob") (outset full)).1.isOk = true)
    (hpublish : condition (create Crypto.symbolic (text "bob") (outset full)).2) :
    Bobs condition full true (ready full) := by
  have h : Bobs condition full _ _ := .create (P := (· = Crypto.symbolic)) rfl .start
  rw [hcreated] at h
  have hpublished := bobs_call .publish (fun w' hw' => Option.some.inj hw' ▸ hpublish) h
  refine bobs_call (.verifyPeer _ _) (fun _ hw' => by cases hw') ?_
  refine bobs_call (.initiate _ _) (fun _ hw' => by cases hw') ?_
  have halice : alice₀.client.userId ≠ text "bob" := by decide +kernel
  exact .visit (.publish _) halice hpublished

theorem bobs_written {condition : Served → Prop} {full : Nat}
    (h : Bobs condition full true (ready full)) : Bobs condition full true (written full) := by
  have hfold : ∀ (letters : List (Envelope Str)) (w : Served), Bobs condition full true w →
      Bobs condition full true
        (letters.foldl (fun w letter => visits (.enqueue (text "bob") letter) w) w) := by
    intro letters
    induction letters with
    | nil => exact fun _ h => h
    | cons letter letters ih => exact fun w h => ih _ (.visit _ trivial h)
  exact hfold _ _ (.visit _ trivial h)

/-- The key that a client has added last. -/
def newest (cl : Client Str) : OneTimePrekey Str :=
  (cl.oneTimeEcPool.map OneTimeKey.publicPart).getLastD ⟨0, empty⟩

end BobAnswers

open BobAnswers ByteString in
/-- Bob publishes, and Alice's letter has arrived. -/
theorem published_recoverable_bob : Bobs World.PrekeysSaved 4 true (written 4) ∧
    Offered .ec (text "bob") (written 4).server.log (newest (written 4).client) ∧
    Recoverable (text "bob") (written 4) := by
  obtain ⟨hcreated, hpools, hoffered⟩ :
      (create Crypto.symbolic (text "bob") (outset 4)).1.isOk = true ∧
      (create Crypto.symbolic (text "bob") (outset 4)).2.disk.map
        (fun saved => (saved.oneTimeEcPool, saved.oneTimePqPool)) =
          some ((create Crypto.symbolic (text "bob") (outset 4)).2.client.oneTimeEcPool,
            (create Crypto.symbolic (text "bob") (outset 4)).2.client.oneTimePqPool) ∧
      Offered .ec (text "bob") (written 4).server.log (newest (written 4).client) := by
    decide +kernel
  have hrun : Bobs World.PrekeysSaved 4 true (written 4) :=
    bobs_written (bobs_ready hcreated (.of_pools hpools))
  have hreadable : (outset 4).Readable := by
    intro n
    dsimp only [outset]
    split
    · exact ⟨by simp, by simp⟩
    · exact ⟨by simp, by simp⟩
  refine ⟨hrun, hoffered, published_recoverable rfl hreadable rfl ?_ hrun⟩
  exact fun _ _ h => absurd h List.not_mem_nil

open BobAnswers ByteString in
/-- **A refilled pool is published before it is saved**: Bob answers Alice, publishes a new key,
and the disk is full. -/
theorem not_recoverable : ¬ ∀ w, Bobs (fun _ => True) 4 true w → Recoverable (text "bob") w := by
  intro h
  let w := calls .processInbox (written 4)
  obtain ⟨hcreated, hoffered, hunused, hlost⟩ :
      (create Crypto.symbolic (text "bob") (outset 4)).1.isOk = true ∧
      Offered .ec (text "bob") w.server.log (newest w.client) ∧
      ¬ Consumed .ec w.trace (newest w.client) ∧
      w.disk.map (fun d => decide (newest w.client ∈
        d.oneTimeEcPool.map OneTimeKey.publicPart)) = some false := by decide +kernel
  have hrun : Bobs (fun _ => True) 4 true w :=
    bobs_call _ (fun _ _ => trivial) (bobs_written (bobs_ready hcreated trivial))
  obtain ⟨saved, hsaved, key, hkey, hpart, -⟩ := h _ hrun .ec _ hoffered hunused
  rw [hsaved, Option.map_some, Option.some.injEq, decide_eq_false_iff_not] at hlost
  exact hlost (List.mem_map.mpr ⟨key, hkey, hpart⟩)

end PqChat
