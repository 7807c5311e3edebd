/-
# The two ends of a handshake agree

`InitiateSession` and `HandleInitialMessage` are two separate pieces of code that must build
the same transcript, the same key material in the same order, and opposite splits of it.  The
main result, `handshake_correct`, is that they do: if the initiator succeeds on a bundle of
the responder, then the responder, as long as it still holds the two one-time keys and has not
seen the handshake, accepts the message, gets the plaintext back, drops exactly the two
one-time keys, and both hold MIRRORED sessions.

The argument is one construction: from a complete run of the initiator (`SealedInitiation`)
build a complete run of the responder (`ResponderRun`), field by field.
-/
import PqChat.Client.Keys

set_option linter.unusedSectionVars false

namespace PqChat

open ByteString

variable {B S T : Type} [ByteString B] [DecidableEq B] {c : Crypto B}

/-! ## 1. What agreement means -/

/-- The sessions of the two ends of a conversation in which nothing is under way. -/
structure SessionState.Mirrors (s s' : SessionState B) : Prop where
  sessionId : s.sessionId = s'.sessionId
  rootKey : s.rootKey = s'.rootKey
  sendChain : s.sendChainKey = s'.recvChainKey
  recvChain : s.recvChainKey = s'.sendChainKey
  sendCounter : s.sendCounter = s'.recvCounter
  recvCounter : s.recvCounter = s'.sendCounter
  localRatchet : s.localRatchetKey.publicKey = s'.remoteRatchetPublic
  remoteRatchet : s.remoteRatchetPublic = s'.localRatchetKey.publicKey

theorem SessionState.Mirrors.symm {s s' : SessionState B} (h : s.Mirrors s') : s'.Mirrors s :=
  ⟨h.sessionId.symm, h.rootKey.symm, h.recvChain.symm, h.sendChain.symm, h.recvCounter.symm,
    h.sendCounter.symm, h.remoteRatchet.symm, h.localRatchet.symm⟩

/-- A bundle as a server hands it out: the bundle a client has published, with some of its
one-time keys. -/
def AcquiredFrom (c : Crypto B) (published : Client B) (bundle : PrekeyBundle B) : Prop :=
  ∃ ecs pqs, bundle = { published.buildPrekeyBundle c with oneTimeEc := ecs, oneTimePq := pqs }

/-- The client still holds the one-time keys at the head of a bundle: the very keys, not only
keys under the same ids. -/
structure Client.Holds (cl : Client B) (bundle : PrekeyBundle B) : Prop where
  ec : ∀ key, bundle.oneTimeEc.head? = some key → ∃ k ∈ cl.oneTimeEcPool, k.publicPart = key
  pq : ∀ key, bundle.oneTimePq.head? = some key → ∃ k ∈ cl.oneTimePqPool, k.publicPart = key

/-- The client has verified the identity of `peer`. -/
def Client.HasVerified (cl peer : Client B) : Prop :=
  ∃ id, cl.trustedPeerIdentities.lookup peer.userId = some id ∧
    id.signPublicKey = peer.identitySignKey.publicKey ∧
    id.mldsaPublicKey = peer.identityMldsaKey.publicKey ∧
    id.dhPublicKey = peer.identityDhKey.publicKey ∧ id.verified = true

/-! ## 2. Looking up and erasing one-time keys -/

theorem findOneTimeKey_of_mem {pool : List (OneTimeKey B)} {k : OneTimeKey B}
    (hnd : (pool.map (·.publicPart.id)).Nodup) (hk : k ∈ pool) :
    findOneTimeKey pool k.publicPart.id = some k := by
  induction pool with
  | nil => cases hk
  | cons x rest ih =>
    rw [List.map_cons, List.nodup_cons] at hnd
    rcases List.mem_cons.mp hk with rfl | hk'
    · simp [findOneTimeKey]
    · have hne : x.publicPart.id ≠ k.publicPart.id := fun he =>
        hnd.1 (he ▸ List.mem_map.mpr ⟨k, hk', rfl⟩)
      simpa [findOneTimeKey, hne] using ih hnd.2 hk'

theorem eraseOneTimeKey_of_mem {pool : List (OneTimeKey B)} {k : OneTimeKey B}
    (hnd : (pool.map (·.publicPart.id)).Nodup) (hk : k ∈ pool) :
    eraseOneTimeKey pool k.publicPart.id = pool.erase k := by
  induction pool with
  | nil => cases hk
  | cons x rest ih =>
    rw [List.map_cons, List.nodup_cons] at hnd
    rcases List.mem_cons.mp hk with rfl | hk'
    · simp [eraseOneTimeKey]
    · have hne : x.publicPart.id ≠ k.publicPart.id := fun he =>
        hnd.1 (he ▸ List.mem_map.mpr ⟨k, hk', rfl⟩)
      have hne' : x ≠ k := fun he => hne (by rw [he])
      have hstep : eraseOneTimeKey (x :: rest) k.publicPart.id =
          x :: eraseOneTimeKey rest k.publicPart.id := by
        simp [eraseOneTimeKey, hne]
      rw [hstep, ih hnd.2 hk', List.erase_cons_tail (by simpa using hne')]

/-! ## 3. The responder's run -/

/-- The responder splits the key material the other way round. -/
theorem deriveHandshakeKeys_swap {ikm th : B} {keys : HandshakeKeys B}
    (h : deriveHandshakeKeys c ikm th true = .ok keys) :
    deriveHandshakeKeys c ikm th false = .ok ⟨keys.root, keys.recv, keys.send⟩ := by
  rw [deriveHandshakeKeys, Result.bind_eq_ok] at h ⊢
  obtain ⟨material, hm, h⟩ := h
  obtain rfl := Except.ok.inj h
  exact ⟨material, hm, rfl⟩

theorem computeSafetyNumber_total (hlaw : c.Lawful) (peer k₁ k₂ k₃ : B) :
    ∃ n, computeSafetyNumber c peer k₁ k₂ k₃ = .ok n := by
  obtain ⟨y, hy⟩ := hlaw.sha256_total (appendBytes (appendBytes (appendBytes (appendBytes
    (appendBytes empty (text "pqchat_peer_safety_number_v1")) peer) k₁) k₂) k₃)
  exact ⟨hexEncode y, by rw [computeSafetyNumber]; simp [hy, bind, Except.bind, pure, Except.pure]⟩

/-- The long-term part of a bundle is that of the client. -/
structure PrekeyBundle.OwnedBy (bundle : PrekeyBundle B) (cl : Client B) : Prop where
  userId : bundle.userId = cl.userId
  sign : bundle.identitySignPublicKey = cl.identitySignKey.publicKey
  mldsa : bundle.identityMldsaPublicKey = cl.identityMldsaKey.publicKey
  dh : bundle.identityDhPublicKey = cl.identityDhKey.publicKey
  spkEc : bundle.signedPrekeyEc = cl.signedPrekeyEcPublic
  spkPq : bundle.signedPrekeyPq = cl.signedPrekeyPqPublic

theorem AcquiredFrom.ownedBy {published cl : Client B} {bundle : PrekeyBundle B}
    (h : AcquiredFrom c published bundle) (hs : published.SameIdentity cl) :
    bundle.OwnedBy cl := by
  obtain ⟨ecs, pqs, rfl⟩ := h
  exact ⟨hs.userId, congrArg KeyPair.publicKey hs.sign, congrArg KeyPair.publicKey hs.mldsa,
    congrArg KeyPair.publicKey hs.dh, hs.spkEcPublic, hs.spkPqPublic⟩

/-- **From a complete run of the initiator, a complete run of the responder.** -/
theorem exists_responderRun (hlaw : c.Lawful) {a b : Client B} {peer plaintext : B}
    {bundle : PrekeyBundle B} (hA : a.Genuine c) (hB : b.Genuine c) (hown : bundle.OwnedBy b)
    (huser : bundle.userId = peer) (hholds : b.Holds bundle) (hverified : b.HasVerified a)
    (run : SealedInitiation c a peer bundle plaintext)
    (hunseen : ¬ b.hasSeenInitialReplayGuard run.message.sessionId run.message.transcriptHash) :
    ∃ r : ResponderRun c b run.message, r.plaintext = plaintext ∧
      r.keys = ⟨run.keys.root, run.keys.recv, run.keys.send⟩ ∧
      r.nextChainKey = run.nextChainKey ∧
      (r.ec ∈ b.oneTimeEcPool ∧ r.ecId = r.ec.publicPart.id) ∧
      (r.pq ∈ b.oneTimePqPool ∧ r.pqId = r.pq.publicPart.id) := by
  obtain ⟨kEc, hkEc, hkEcPub⟩ := hholds.ec run.ec run.ec_head
  obtain ⟨kPq, hkPq, hkPqPub⟩ := hholds.pq run.pq run.pq_head
  obtain ⟨hEcPub, _, hEcGen⟩ := hB.ec kEc hkEc
  obtain ⟨hPqPub, _, hPqGen⟩ := hB.pq kPq hkPq
  obtain ⟨_, hsign⟩ := hA.sign
  obtain ⟨_, hmldsa⟩ := hA.mldsa
  obtain ⟨_, hAdh⟩ := hA.dh
  obtain ⟨_, hBdh⟩ := hB.dh
  obtain ⟨_, hspk⟩ := hB.spkEc
  obtain ⟨_, hspkPq⟩ := hB.spkPq
  have hpub : bundle.signedPrekeyEc.publicKey = b.signedPrekeyEcPrivate.publicKey := by
    rw [hown.spkEc, hB.spkEc_public]
  -- the four shared secrets and the two encapsulated ones, seen from the other side
  have hdh1 := hlaw.sharedSecret_comm hAdh hspk (hpub ▸ run.dh1_ok)
  have hdh2 := hlaw.sharedSecret_comm run.eph_ok hBdh (hown.dh ▸ run.dh2_ok)
  have hdh3 := hlaw.sharedSecret_comm run.eph_ok hspk (hpub ▸ run.dh3_ok)
  have hdh4 : c.x25519SharedSecret kEc.privatePart.privateKey run.eph.publicKey
      = .ok run.dh4 := by
    refine hlaw.sharedSecret_comm run.eph_ok hEcGen ?_
    rw [← hEcPub, hkEcPub]
    exact run.dh4_ok
  have hss : c.mlkem768Decapsulate b.signedPrekeyPqPrivate.privateKey run.kemSpk.ciphertext
      = .ok run.kemSpk.sharedSecret := by
    refine hlaw.decapsulate_encapsulate (r := run.spkSeed) hspkPq ?_
    rw [← hB.spkPq_public, ← hown.spkPq]
    exact run.kemSpk_ok
  have hss' : c.mlkem768Decapsulate kPq.privatePart.privateKey run.kemOpk.ciphertext
      = .ok run.kemOpk.sharedSecret := by
    refine hlaw.decapsulate_encapsulate (r := run.opkSeed) hPqGen ?_
    rw [← hPqPub, hkPqPub]
    exact run.kemOpk_ok
  -- the same fifteen transcript fields
  have hfields : responderTranscript b run.message = run.fields := by
    simp only [responderTranscript, SealedInitiation.message, InitiatorAgreement.message,
      InitiatorRun.agreement, InitiatorRun.fields, initiatorTranscript, hown.sign, hown.mldsa,
      hown.dh]
  let r : ResponderRun c b run.message :=
    { unseen := hunseen
      signedIds_eq := ⟨congrArg SignedPrekey.id hown.spkEc, congrArg SignedPrekey.id hown.spkPq⟩
      hash_ok := hfields ▸ run.hash_ok
      signature_ok := hlaw.ed25519Verify_sign hsign run.sign_ok
      signatureMldsa_ok := hlaw.mldsa65Verify_sign hmldsa run.signMldsa_ok
      number_ok := computeSafetyNumber_total hlaw _ _ _ _
      identity_ok := hverified
      ecId := kEc.publicPart.id, pqId := kPq.publicPart.id
      kemCiphertext := run.kemOpk.ciphertext, ec := kEc, pq := kPq
      dh1 := run.dh1, dh2 := run.dh2, dh3 := run.dh3, dh4 := run.dh4
      ssSpkPq := run.kemSpk.sharedSecret, ssOpkPq := run.kemOpk.sharedSecret
      keys := ⟨run.keys.root, run.keys.recv, run.keys.send⟩
      messageKey := run.messageKey, nextChainKey := run.nextChainKey, plaintext := plaintext
      toUser_eq := huser.symm.trans hown.userId
      version_eq := rfl, suite_eq := rfl
      ecId_eq := by rw [hkEcPub]; rfl
      pqId_eq := by rw [hkPqPub]; rfl
      kem_eq := rfl
      dh1_ok := hdh1, dh2_ok := hdh2, dh3_ok := hdh3
      ec_found := findOneTimeKey_of_mem hB.ec_ids hkEc
      dh4_ok := hdh4, ssSpk_ok := hss
      pq_found := findOneTimeKey_of_mem hB.pq_ids hkPq
      ssOpk_ok := hss'
      keys_ok := deriveHandshakeKeys_swap run.keys_ok
      step_ok := run.step_ok
      open_ok := hlaw.open_seal run.seal_ok }
  exact ⟨r, rfl, rfl, rfl, ⟨hkEc, rfl⟩, hkPq, rfl⟩

/-! ## 4. The handshake -/

theorem saveLocalState_ok {w w' : World B S} {u : Unit}
    (h : saveLocalState w = (.ok u, w')) :
    w' = { w with disk := some w.client, diskUses := w.diskUses + 1 } := by
  rw [saveLocalState, Proc.get_bind_apply] at h
  simp only [Proc.bind_eq_ok_iff, Proc.require_eq_ok_iff] at h
  obtain ⟨_, _, ⟨-, rfl⟩, _, _, ⟨-, rfl⟩, h⟩ := h
  obtain ⟨_, w₁, h₁, h₂⟩ := h
  obtain ⟨-, rfl⟩ := Prod.mk.inj h₁
  rcases ho : w.diskOutcome w.diskUses with _ | e | e
  · rw [ho] at h₂
    exact (Prod.mk.inj h₂).2.symm
  · rw [ho] at h₂
    cases (Prod.mk.inj h₂).1
  · rw [ho] at h₂
    cases (Prod.mk.inj h₂).1

theorem enqueueAndSave_ok {server : ServerApi B S} {peer : B} {envelope : Envelope B}
    {w w' : World B S} (h : enqueueAndSave server peer envelope w = (.ok (), w')) :
    server.enqueueEnvelope peer envelope w.server = (.ok (), w'.server) ∧
      w'.client = w.client ∧ w'.trace = w.trace ∧ w'.disk = some w.client := by
  rw [enqueueAndSave, Proc.bind_eq_ok_iff] at h
  obtain ⟨u, w₁, h₁, h₂⟩ := h
  rw [callServer, Proc.zoom] at h₁
  obtain ⟨hr, rfl⟩ := Prod.mk.inj h₁
  obtain rfl := saveLocalState_ok (Proc.within_eq_ok_iff.mp h₂)
  exact ⟨Prod.ext hr rfl, rfl, rfl, rfl⟩

/-- What an accepted handshake leaves on the two sides: the responder has lost exactly the two
one-time keys the message names, and the sessions are mirrored, at the counters of one message
sent and received. -/
structure Handshaken (message : InitialMessage B) (a' b b' : Client B) : Prop where
  ec : ∃ k ∈ b.oneTimeEcPool, message.selectedPrekeys.oneTimeEcId = some k.publicPart.id ∧
    b'.oneTimeEcPool = b.oneTimeEcPool.erase k
  pq : ∃ k ∈ b.oneTimePqPool, message.selectedPrekeys.oneTimePqId = some k.publicPart.id ∧
    b'.oneTimePqPool = b.oneTimePqPool.erase k
  sessions : ∃ s s', a'.sessionsByPeer.lookup b.userId = some s ∧
    b'.sessionsByPeer.lookup a'.userId = some s' ∧ s.Mirrors s' ∧
    s.sendCounter = 1 ∧ s.recvCounter = 0

/-- The responder accepts the message of a complete run of the initiator. -/
theorem handleInitialMessage_of_initiation (hlaw : c.Lawful) {a : Client B} {b : World B T}
    {peer plaintext : B} {bundle : PrekeyBundle B} (hA : a.Genuine c) (hB : b.client.Genuine c)
    (hown : bundle.OwnedBy b.client) (huser : bundle.userId = peer)
    (hholds : b.client.Holds bundle) (hverified : b.client.HasVerified a)
    (run : SealedInitiation c a peer bundle plaintext)
    (hunseen : ¬ b.client.hasSeenInitialReplayGuard run.message.sessionId
      run.message.transcriptHash) :
    ∃ b', handleInitialMessage c run.message b = (.ok plaintext, b') ∧
      Handshaken run.message
        ((a.remember run.fields.sessionId run.transcriptHash).withSession peer run.session)
        b.client b'.client := by
  obtain ⟨r, hp, hkeys, hnext, ⟨hec, hecId⟩, hpq, hpqId⟩ :=
    exists_responderRun hlaw hA hB hown huser hholds hverified run hunseen
  refine ⟨b.accepted r, (handleInitialMessage_of_run r).trans (by rw [hp]), ?_⟩
  have hpeer : b.client.userId = peer := hown.userId.symm.trans huser
  have hpub : bundle.signedPrekeyEc.publicKey = b.client.signedPrekeyEcPrivate.publicKey := by
    rw [hown.spkEc, hB.spkEc_public]
  refine ⟨⟨r.ec, hec, hecId ▸ r.ecId_eq, ?_⟩, ⟨r.pq, hpq, hpqId ▸ r.pqId_eq, ?_⟩, run.session,
    responderSession b.client run.message r.keys r.nextChainKey, ?_, ?_, ?_, rfl, rfl⟩
  · exact (congrArg _ hecId).trans (eraseOneTimeKey_of_mem hB.ec_ids hec)
  · exact (congrArg _ hpqId).trans (eraseOneTimeKey_of_mem hB.pq_ids hpq)
  · rw [hpeer]
    exact Client.lookup_withSession ..
  · exact Finmap.lookup_insert _
  · rw [hkeys, hnext]
    exact ⟨rfl, rfl, rfl, rfl, rfl, rfl, rfl, hpub⟩

/-- A successful `InitiateSession` is a complete run whose message has been enqueued. -/
theorem initiateSession_ok {server : ServerApi B S} {peer plaintext : B} {a a' : World B S}
    (h : initiateSession c server peer plaintext a = (.ok (), a')) :
    ∃ (bundle : PrekeyBundle B) (s s' : S)
      (run : SealedInitiation c a.client peer bundle plaintext),
      FetchedBundle c server peer a bundle s ∧
      server.enqueueEnvelope peer (.fromInitial run.message) s = (.ok (), s') ∧
      a'.server = s' ∧ a'.trace = run.events ++ .receivedBundle bundle :: a.trace ∧
      a'.client = (a.client.remember run.fields.sessionId run.transcriptHash).withSession peer
        run.session := by
  rcases initiateSession_cases (P := (· = c)) (v := .any) rfl server.quiet_any
    peer plaintext a with ⟨e, w', he, -⟩ | ⟨bundle, s, n, run, hf, -, -, hrun⟩
  · rw [h] at he
    cases (Prod.mk.inj he).1
  · obtain ⟨hsent, hclient, htrace, -⟩ := enqueueAndSave_ok (hrun.symm.trans h)
    exact ⟨bundle, s, a'.server, run, hf, hsent, rfl, htrace, hclient⟩

/-- **Handshake correctness.**  A successful `InitiateSession` on a bundle of the responder
enqueues a message that the responder, in whatever state it is by then, accepts, provided it
still holds the two one-time keys, has verified the initiator and has not seen the
handshake. -/
theorem handshake_correct (hlaw : c.Lawful) {server : ServerApi B S} {a a' : World B S}
    {peer plaintext : B} {bundle : PrekeyBundle B} {published : Client B}
    (ha : Reach (· = c) true a)
    (hacq : (server.acquireBundleForSession peer a.server).1 = .ok bundle)
    (hbundle : AcquiredFrom c published bundle)
    (hinit : initiateSession c server peer plaintext a = (.ok (), a')) :
    ∃ message s, server.enqueueEnvelope peer (.fromInitial message) s = (.ok (), a'.server) ∧
      ∀ b : World B T, Reach (· = c) true b → published.SameIdentity b.client →
        b.client.HasVerified a.client → b.client.Holds bundle →
        ¬ b.client.hasSeenInitialReplayGuard message.sessionId message.transcriptHash →
        ∃ b', handleInitialMessage c message b = (.ok plaintext, b') ∧
          Handshaken message a'.client b.client b'.client := by
  obtain ⟨fetched, s, s', run, hf, hsent, rfl, -, hclient⟩ := initiateSession_ok hinit
  obtain rfl : bundle = fetched := by
    rw [hf.acquired] at hacq
    exact (Except.ok.inj hacq).symm
  refine ⟨run.message, s, hsent, fun b hb hsame hverified hholds hunseen => ?_⟩
  rw [hclient]
  exact handleInitialMessage_of_initiation hlaw (ha.genuine.2 rfl) (hb.genuine.2 rfl)
    (hbundle.ownedBy hsame) hf.user_eq hholds hverified run hunseen

/-! ## 5. Two clients -/

/-- The sending end of a FIFO mailbox.  The state is what has been enqueued for the peer and is
not delivered yet, oldest first; `bundle` is what the peer has published. -/
def mailbox (bundle : Option (PrekeyBundle B)) : ServerApi B (List (Envelope B)) where
  publishBundle _ := pure ()
  acquireBundleForSession _ :=
    match bundle with
    | none => Proc.fail "no prekey bundle for user"
    | some bundle => pure { bundle with
      oneTimeEc := bundle.oneTimeEc.take 1
      oneTimePq := bundle.oneTimePq.take 1 }
  enqueueEnvelope _ envelope := Proc.modify (· ++ [envelope])
  drainInbox _ _ := pure []

namespace AliceBob

open Symbolic

/-- A world before anything has happened.  The seeds are the numbers from `first` on. -/
def start (first : Nat) : World Str (List (Envelope Str)) where
  client := Client.blank empty
  server := []
  disk := none
  entropy n := first + n
  drawn := 0
  diskOutcome _ := .ok
  diskUses := 0
  trace := []

@[irreducible] def alice₀ : World Str (List (Envelope Str)) :=
  (create Crypto.symbolic (text "alice") (start 1)).2

@[irreducible] def bob₀ : World Str (List (Envelope Str)) :=
  (create Crypto.symbolic (text "bob") (start 1001)).2

/-- The mailbox towards a client. -/
def towards (peer : Client Str) : ServerApi Str (List (Envelope Str)) :=
  mailbox (some (peer.buildPrekeyBundle Crypto.symbolic))

/-- The safety number of a client, as it is read out to its peer. -/
def safetyNumber (peer : Client Str) : Str :=
  ((computeSafetyNumber Crypto.symbolic peer.userId peer.identitySignKey.publicKey
    peer.identityMldsaKey.publicKey peer.identityDhKey.publicKey).toOption).getD []

/-- Run into the unverified identity of the peer, then verify it. -/
def meet (w : World Str (List (Envelope Str))) (peer : Client Str) :
    World Str (List (Envelope Str)) :=
  let met := ((Op.initiate peer.userId []).run Crypto.symbolic (towards peer) w).2
  ((Op.verifyPeer peer.userId (safetyNumber peer)).run Crypto.symbolic (towards peer) met).2

/-- Alice and Bob: two clients on the ideal provider, each created on an empty state file, that
have verified each other's identity. -/
@[irreducible] def alice : World Str (List (Envelope Str)) := meet alice₀ bob₀.client

@[irreducible, inherit_doc alice]
def bob : World Str (List (Envelope Str)) := meet bob₀ alice₀.client

theorem reach_meet {w : World Str (List (Envelope Str))} (peer : Client Str)
    (h : Reach (· = Crypto.symbolic) true w) :
    Reach (· = Crypto.symbolic) true (meet w peer) := by
  have h₁ : Reach (· = Crypto.symbolic) true
      ((Op.initiate peer.userId []).run Crypto.symbolic (towards peer) w).2 := by
    refine .op ?_ _ _ h
    rfl
  refine .op ?_ _ _ h₁
  rfl

/-- What it takes to get there. -/
theorem created :
    (create Crypto.symbolic (text "alice") (start 1)).1.isOk = true ∧
    (create Crypto.symbolic (text "bob") (start 1001)).1.isOk = true ∧
    bob.client.trustedPeerIdentities.lookup alice.client.userId =
      some ⟨alice.client.identitySignKey.publicKey, alice.client.identityMldsaKey.publicKey,
        alice.client.identityDhKey.publicKey, true⟩ ∧
    bob.client.seenInitialSessions.seen = ∅ ∧ bob.client.seenInitialTranscripts.seen = ∅ := by
  decide +kernel

theorem reach_alice : Reach (· = Crypto.symbolic) true alice := by
  have h := Reach.create (B := Str) (P := (· = Crypto.symbolic)) rfl (text "alice")
    (.start (start 1) rfl rfl)
  rw [created.1] at h
  unfold alice alice₀
  exact reach_meet _ h

theorem reach_bob : Reach (· = Crypto.symbolic) true bob := by
  have h := Reach.create (B := Str) (P := (· = Crypto.symbolic)) rfl (text "bob")
    (.start (start 1001) rfl rfl)
  rw [created.2.1] at h
  unfold bob bob₀
  exact reach_meet _ h

theorem bob_hasVerified_alice : bob.client.HasVerified alice.client :=
  ⟨⟨alice.client.identitySignKey.publicKey, alice.client.identityMldsaKey.publicKey,
    alice.client.identityDhKey.publicKey, true⟩, created.2.2.1, rfl, rfl, rfl, rfl⟩

theorem bob_unseen (sessionId transcriptHash : Str) :
    ¬ bob.client.hasSeenInitialReplayGuard sessionId transcriptHash := by
  obtain ⟨-, -, -, h₁, h₂⟩ := created
  simp [Client.hasSeenInitialReplayGuard, h₁, h₂]

/-- The bundle the mailbox towards a client answers with. -/
def acquired (peer : Client Str) : PrekeyBundle Str :=
  { peer.buildPrekeyBundle Crypto.symbolic with
    oneTimeEc := (peer.oneTimeEcPool.map OneTimeKey.publicPart).take 1
    oneTimePq := (peer.oneTimePqPool.map OneTimeKey.publicPart).take 1 }

theorem holds_acquired (peer : Client Str) : peer.Holds (acquired peer) := by
  have head : ∀ {pool : List (OneTimeKey Str)} {key : OneTimePrekey Str},
      ((pool.map OneTimeKey.publicPart).take 1).head? = some key →
      ∃ k ∈ pool, k.publicPart = key := by
    intro pool key h
    exact List.mem_map.mp (List.mem_of_mem_take (List.mem_of_mem_head? h))
  exact ⟨fun _ => head, fun _ => head⟩

end AliceBob

theorem handshake_correct_alice_bob :
    ∃ message s, (AliceBob.towards AliceBob.bob.client).enqueueEnvelope (text "bob")
        (.fromInitial message) s =
        (.ok (), (initiateSession Crypto.symbolic (AliceBob.towards AliceBob.bob.client)
          (text "bob") (text "hello") AliceBob.alice).2.server) ∧
      ∃ b', handleInitialMessage Crypto.symbolic message AliceBob.bob = (.ok (text "hello"), b') ∧
        Handshaken message (initiateSession Crypto.symbolic
          (AliceBob.towards AliceBob.bob.client) (text "bob") (text "hello")
          AliceBob.alice).2.client AliceBob.bob.client b'.client := by
  have hinit : (initiateSession Crypto.symbolic (AliceBob.towards AliceBob.bob.client)
      (text "bob") (text "hello") AliceBob.alice).1 = .ok () := by decide +kernel
  obtain ⟨message, s, hsent, hall⟩ := handshake_correct (T := List (Envelope Symbolic.Str))
    Crypto.symbolic_lawful AliceBob.reach_alice rfl
    ⟨_, _, (rfl : AliceBob.acquired AliceBob.bob.client = _)⟩ (Prod.ext hinit rfl)
  exact ⟨message, s, hsent, hall AliceBob.bob AliceBob.reach_bob .rfl
    AliceBob.bob_hasVerified_alice (AliceBob.holds_acquired _) (AliceBob.bob_unseen _ _)⟩

end PqChat
