/-
# What a client can do, move by move

Every operation of a client is a sequence of MOVES: small transitions that each change the
members of the client, the state file and the history at once, and that carry what was checked
and computed for them.  `Move` lists them all.  The results of this module are of one shape
(`Op.run_moves`, `create_moves`): the world after a call, failed or not, is reached from the
world before it by moves.  An invariant of clients is then proved move by move, and never needs
the text of an operation again.

Two moves are long because what happens in between leaves no trace if it fails: the whole of a
handshake as initiator, from the ephemeral key to the stored session, and as responder.
`InitiatorRun` and `ResponderRun` record the intermediate values of the two.
-/
import PqChat.Client.Inbox
import Mathlib.Logic.Relation

set_option linter.unusedSectionVars false

namespace PqChat

open ByteString

variable {B S : Type} [ByteString B] [DecidableEq B]

/-! ## 1. The two ends of a handshake -/

/-- The values a successful `agreeAsInitiator` went through. -/
structure InitiatorRun (c : Crypto B) (cl : Client B) (peerUser : B)
    (bundle : PrekeyBundle B) where
  random : B
  ephSeed : Nat
  eph : KeyPair B
  ec : OneTimePrekey B
  pq : OneTimePrekey B
  dh1 : B
  dh2 : B
  dh3 : B
  dh4 : B
  spkSeed : Nat
  kemSpk : EncapResult B
  opkSeed : Nat
  kemOpk : EncapResult B
  transcriptHash : B
  signature : B
  signatureMldsa : B
  keys : HandshakeKeys B
  ec_head : bundle.oneTimeEc.head? = some ec
  pq_head : bundle.oneTimePq.head? = some pq
  eph_ok : c.x25519Generate ephSeed = .ok eph
  dh1_ok : c.x25519SharedSecret cl.identityDhKey.privateKey bundle.signedPrekeyEc.publicKey
    = .ok dh1
  dh2_ok : c.x25519SharedSecret eph.privateKey bundle.identityDhPublicKey = .ok dh2
  dh3_ok : c.x25519SharedSecret eph.privateKey bundle.signedPrekeyEc.publicKey = .ok dh3
  dh4_ok : c.x25519SharedSecret eph.privateKey ec.publicKey = .ok dh4
  kemSpk_ok : c.mlkem768Encapsulate spkSeed bundle.signedPrekeyPq.publicKey = .ok kemSpk
  kemOpk_ok : c.mlkem768Encapsulate opkSeed pq.publicKey = .ok kemOpk
  hash_ok : computeInitialTranscriptHash c (initiatorTranscript cl peerUser bundle
    (hexEncode random) eph.publicKey ec pq kemSpk.ciphertext kemOpk.ciphertext)
    = .ok transcriptHash
  sign_ok : c.ed25519Sign cl.identitySignKey.privateKey transcriptHash = .ok signature
  signMldsa_ok : c.mldsa65Sign cl.identityMldsaKey.privateKey transcriptHash
    = .ok signatureMldsa
  keys_ok : deriveHandshakeKeys c
    (concat [dh1, dh2, dh3, kemSpk.sharedSecret, dh4, kemOpk.sharedSecret])
    transcriptHash true = .ok keys

namespace InitiatorRun

variable {c : Crypto B} {cl : Client B} {peerUser : B} {bundle : PrekeyBundle B}

/-- The transcript of the run. -/
def fields (run : InitiatorRun c cl peerUser bundle) : InitialTranscriptFields B :=
  initiatorTranscript cl peerUser bundle (hexEncode run.random) run.eph.publicKey run.ec run.pq
    run.kemSpk.ciphertext run.kemOpk.ciphertext

/-- What the run returns. -/
def agreement (run : InitiatorRun c cl peerUser bundle) : InitiatorAgreement B :=
  ⟨run.fields, run.eph, run.transcriptHash, run.signature, run.signatureMldsa, run.keys⟩

end InitiatorRun

/-- A run of `InitiateSession` up to and including the seal of the initial message. -/
structure SealedInitiation (c : Crypto B) (cl : Client B) (peerUser : B)
    (bundle : PrekeyBundle B) (plaintext : B) extends InitiatorRun c cl peerUser bundle where
  messageKey : B
  nextChainKey : B
  ciphertext : B
  step_ok : deriveMessageKeyAndNextChain c keys.send 0 = .ok (messageKey, nextChainKey)
  seal_ok : aeadSeal c messageKey (nonceFromCounter 0) plaintext transcriptHash = .ok ciphertext

namespace SealedInitiation

variable {c : Crypto B} {cl : Client B} {peerUser plaintext : B} {bundle : PrekeyBundle B}

/-- The initial message of the run. -/
def message (run : SealedInitiation c cl peerUser bundle plaintext) : InitialMessage B :=
  run.agreement.message (nonceFromCounter 0) run.ciphertext

/-- The session of the run. -/
def session (run : SealedInitiation c cl peerUser bundle plaintext) : SessionState B :=
  run.agreement.session peerUser bundle run.nextChainKey

/-- What the run adds to the history. -/
def events (run : SealedInitiation c cl peerUser bundle plaintext) : List (Event B) :=
  [.initiated run.message plaintext,
    .seal run.messageKey (nonceFromCounter 0) plaintext run.transcriptHash,
    .x25519 run.eph]

end SealedInitiation

/-- What `checkInitialMessage` has established when it comes to the identity of the sender. -/
structure AnnouncedInitial (c : Crypto B) (cl : Client B) (message : InitialMessage B) :
    Prop where
  unseen : ¬ cl.hasSeenInitialReplayGuard message.sessionId message.transcriptHash
  signedIds_eq : message.selectedPrekeys.signedPrekeyEcId = cl.signedPrekeyEcPublic.id ∧
    message.selectedPrekeys.signedPrekeyPqId = cl.signedPrekeyPqPublic.id
  hash_ok : computeInitialTranscriptHash c (responderTranscript cl message)
    = .ok message.transcriptHash
  signature_ok : c.ed25519Verify message.initiatorIdentitySignPublicKey message.transcriptHash
    message.handshakeSignatureEd25519 = .ok ()
  signatureMldsa_ok : c.mldsa65Verify message.initiatorIdentityMldsaPublicKey
    message.transcriptHash message.handshakeSignatureMldsa65 = .ok ()
  number_ok : ∃ n, computeSafetyNumber c message.fromUser
    message.initiatorIdentitySignPublicKey message.initiatorIdentityMldsaPublicKey
    message.initiatorIdentityDhPublicKey = .ok n

/-- What `checkInitialMessage` has established. -/
structure CheckedInitial (c : Crypto B) (cl : Client B) (message : InitialMessage B) :
    Prop extends AnnouncedInitial c cl message where
  identity_ok : ∃ id, cl.trustedPeerIdentities.lookup message.fromUser = some id ∧
    id.signPublicKey = message.initiatorIdentitySignPublicKey ∧
    id.mldsaPublicKey = message.initiatorIdentityMldsaPublicKey ∧
    id.dhPublicKey = message.initiatorIdentityDhPublicKey ∧ id.verified = true

/-- The values a successful `handleInitialMessage` went through. -/
structure ResponderRun (c : Crypto B) (cl : Client B) (message : InitialMessage B)
    extends CheckedInitial c cl message where
  ecId : UInt32
  pqId : UInt32
  kemCiphertext : B
  ec : OneTimeKey B
  pq : OneTimeKey B
  dh1 : B
  dh2 : B
  dh3 : B
  dh4 : B
  ssSpkPq : B
  ssOpkPq : B
  keys : HandshakeKeys B
  messageKey : B
  nextChainKey : B
  plaintext : B
  toUser_eq : message.toUser = cl.userId
  version_eq : message.version = kProtocolVersion
  suite_eq : message.cipherSuite = kCipherSuite
  ecId_eq : message.selectedPrekeys.oneTimeEcId = some ecId
  pqId_eq : message.selectedPrekeys.oneTimePqId = some pqId
  kem_eq : message.kemCiphertextOneTimePq = some kemCiphertext
  dh1_ok : c.x25519SharedSecret cl.signedPrekeyEcPrivate.privateKey
    message.initiatorIdentityDhPublicKey = .ok dh1
  dh2_ok : c.x25519SharedSecret cl.identityDhKey.privateKey
    message.initiatorEphemeralEcPublicKey = .ok dh2
  dh3_ok : c.x25519SharedSecret cl.signedPrekeyEcPrivate.privateKey
    message.initiatorEphemeralEcPublicKey = .ok dh3
  ec_found : findOneTimeKey cl.oneTimeEcPool ecId = some ec
  dh4_ok : c.x25519SharedSecret ec.privatePart.privateKey
    message.initiatorEphemeralEcPublicKey = .ok dh4
  ssSpk_ok : c.mlkem768Decapsulate cl.signedPrekeyPqPrivate.privateKey
    message.kemCiphertextSignedPq = .ok ssSpkPq
  pq_found : findOneTimeKey cl.oneTimePqPool pqId = some pq
  ssOpk_ok : c.mlkem768Decapsulate pq.privatePart.privateKey kemCiphertext = .ok ssOpkPq
  keys_ok : deriveHandshakeKeys c (concat [dh1, dh2, dh3, ssSpkPq, dh4, ssOpkPq])
    message.transcriptHash false = .ok keys
  step_ok : deriveMessageKeyAndNextChain c keys.recv 0 = .ok (messageKey, nextChainKey)
  open_ok : aeadOpen c messageKey message.initialNonce message.initialCiphertext
    message.transcriptHash = .ok plaintext

/-- Both guards with a handshake remembered. -/
def Client.remember (cl : Client B) (sessionId transcriptHash : B) : Client B :=
  { cl with
    seenInitialSessions := (cl.seenInitialSessions.push sessionId).evict
    seenInitialTranscripts :=
      (cl.seenInitialTranscripts.push (hexEncode transcriptHash)).evict }

/-- The client after an accepted initial message. -/
def ResponderRun.accepted {c : Crypto B} {cl : Client B} {message : InitialMessage B}
    (run : ResponderRun c cl message) : Client B :=
  { cl.remember message.sessionId message.transcriptHash with
    oneTimeEcPool := eraseOneTimeKey cl.oneTimeEcPool run.ecId
    oneTimePqPool := eraseOneTimeKey cl.oneTimePqPool run.pqId
    prekeysDirty := true
    sessionsByPeer := cl.sessionsByPeer.insert message.fromUser
      (responderSession cl message run.keys run.nextChainKey) }

/-- The client after a stored session. -/
def Client.withSession (cl : Client B) (peer : B) (s : SessionState B) : Client B :=
  { cl with sessionsByPeer := cl.sessionsByPeer.insert peer s }

/-! ## 2. Moves -/

/-- The values of the ratchet step of `SendMessage`. -/
structure SendRatchetRun (c : Crypto B) (session : SessionState B) where
  seed : Nat
  newRatchet : KeyPair B
  dh : B
  chainKey : B
  rootKey : B
  due : session.ratchetDue
  generate_ok : c.x25519Generate seed = .ok newRatchet
  dh_ok : c.x25519SharedSecret newRatchet.privateKey session.remoteRatchetPublic = .ok dh
  mix_ok : deriveRatchetRootAndChain c dh session.rootKey = .ok (chainKey, rootKey)

/-- The session after the ratchet step of `SendMessage`. -/
def SendRatchetRun.session {c : Crypto B} {session : SessionState B}
    (run : SendRatchetRun c session) : SessionState B :=
  { session with
    localRatchetKey := run.newRatchet
    sendChainKey := run.chainKey
    rootKey := run.rootKey
    previousSendChainLength := session.sendCounter
    sendCounter := 0 }

/-- The values of the encryption of `SendMessage`. -/
structure SealChatRun (c : Crypto B) (userId peerUser : B) (session : SessionState B)
    (header : MessageHeader B) (plaintext : B) where
  messageKey : B
  nextChainKey : B
  ad : B
  ciphertext : B
  ad_ok : buildChatAssociatedData c (chatMessage userId peerUser session header) = .ok ad
  step_ok : deriveMessageKeyAndNextChain c session.sendChainKey session.sendCounter
    = .ok (messageKey, nextChainKey)
  seal_ok : aeadSeal c messageKey (nonceFromCounter session.sendCounter) plaintext ad
    = .ok ciphertext

/-- The session after the encryption of `SendMessage`. -/
def SealChatRun.session {c : Crypto B} {userId peerUser plaintext : B}
    {session : SessionState B} {header : MessageHeader B}
    (run : SealChatRun c userId peerUser session header plaintext) : SessionState B :=
  { session with sendChainKey := run.nextChainKey, sendCounter := session.sendCounter + 1 }

/-- Something that comes in from outside. -/
def Event.IsInput : Event B → Prop
  | .receivedBundle _ | .receivedInitial _ | .receivedChat _ => True
  | _ => False

/-- What is known of the server: how `EnqueueEnvelope` may change its state, and how the other
calls may; and whether a peer may be marked as verified. -/
structure Observer (S : Type) where
  quiet : S → S → Prop
  enqueue : S → S → Prop
  verify : Prop
  refl : ∀ s, quiet s s

/-- Nothing is known. -/
def Observer.any : Observer S := ⟨fun _ _ => True, fun _ _ => True, True, fun _ => trivial⟩

/-- The transitions of a client.  `P` says which providers may serve a move -- one provider,
or any provider that is the ideal one with failures -- and `v` what the calls of the server may
do. -/
inductive Move (P : Crypto B → Prop) (v : Observer S) : World B S → World B S → Prop
  | env (w : World B S) (s : S) (drawn diskUses : Nat) (h : v.quiet w.server s) :
    Move P v w { w with server := s, drawn, diskUses }
  | enqueue (w : World B S) (s : S) (h : v.enqueue w.server s) :
    Move P v w { w with server := s }
  | save (w : World B S) : Move P v w { w with disk := some w.client }
  | input (w : World B S) (e : Event B) (h : e.IsInput) :
    Move P v w { w with trace := e :: w.trace }
  | generate (w : World B S) {c : Crypto B} {seed : Nat} {pair : KeyPair B} (hc : P c)
    (h : c.x25519Generate seed = .ok pair) :
    Move P v w { w with trace := .x25519 pair :: w.trace }
  | generateKem (w : World B S) {c : Crypto B} {seed : Nat} {pair : KeyPair B} (hc : P c)
    (h : c.mlkem768Generate seed = .ok pair) :
    Move P v w { w with trace := .mlkem pair :: w.trace }
  | flags (w : World B S) (dirty : Bool) (pending : Option UInt64) :
    Move P v w { w with client :=
      { w.client with prekeysDirty := dirty, pendingInboxAckUpToId := pending } }
  | rememberPeer (w : World B S) (peer : B) (id : PeerIdentity B)
    (h : w.client.trustedPeerIdentities.lookup peer = none) (hv : id.verified = false) :
    Move P v w { w with client :=
      { w.client with
        trustedPeerIdentities := w.client.trustedPeerIdentities.insert peer id } }
  | verifyPeer (w : World B S) (peer : B) (id : PeerIdentity B)
    (h : w.client.trustedPeerIdentities.lookup peer = some id) (hv : v.verify) :
    Move P v w { w with client :=
      { w.client with
        trustedPeerIdentities :=
          w.client.trustedPeerIdentities.insert peer { id with verified := true } } }
  | addEc (w : World B S) {c : Crypto B} {seed : Nat} {pair : KeyPair B} {id : UInt32}
    (hc : P c) (h : c.x25519Generate seed = .ok pair) (h0 : id ≠ 0)
    (hid : ¬ w.client.idInUse id)
    (hlen : w.client.oneTimeEcPool.length < kOneTimePrekeyPoolTarget) :
    Move P v w { w with
      trace := .x25519 pair :: w.trace
      client :=
      { w.client with
        oneTimeEcPool := w.client.oneTimeEcPool ++ [OneTimeKey.make id pair]
        prekeysDirty := true } }
  | addPq (w : World B S) {c : Crypto B} {seed : Nat} {pair : KeyPair B} {id : UInt32}
    (hc : P c) (h : c.mlkem768Generate seed = .ok pair) (h0 : id ≠ 0)
    (hid : ¬ w.client.idInUse id)
    (hlen : w.client.oneTimePqPool.length < kOneTimePrekeyPoolTarget) :
    Move P v w { w with
      trace := .mlkem pair :: w.trace
      client :=
      { w.client with
        oneTimePqPool := w.client.oneTimePqPool ++ [OneTimeKey.make id pair]
        prekeysDirty := true } }
  | ratchet (w : World B S) {c : Crypto B} {peer : B} {s : SessionState B} (hc : P c)
    (hs : w.client.sessionsByPeer.lookup peer = some s) (run : SendRatchetRun c s) :
    Move P v w { w with
      trace := .x25519 run.newRatchet :: w.trace
      client := w.client.withSession peer run.session }
  | sealChat (w : World B S) {c : Crypto B} {peer plaintext : B} {s : SessionState B}
    {header : MessageHeader B} (hc : P c)
    (hs : w.client.sessionsByPeer.lookup peer = some s) (hd : ¬ s.ratchetDue)
    (run : SealChatRun c w.client.userId peer s header plaintext) :
    Move P v w { w with
      trace := .seal run.messageKey (nonceFromCounter s.sendCounter) plaintext run.ad :: w.trace
      client := w.client.withSession peer run.session }
  | sealInitial (w : World B S) {c : Crypto B} {peer plaintext : B} {bundle : PrekeyBundle B}
    (hc : P c) (hb : .receivedBundle bundle ∈ w.trace)
    (run : SealedInitiation c w.client peer bundle plaintext) :
    Move P v w { w with trace := run.events ++ w.trace }
  | initiate (w : World B S) {c : Crypto B} {peer plaintext : B} {bundle : PrekeyBundle B}
    (hc : P c) (hb : .receivedBundle bundle ∈ w.trace)
    (run : SealedInitiation c w.client peer bundle plaintext)
    (hid : ∃ id, w.client.trustedPeerIdentities.lookup peer = some id ∧
      id.signPublicKey = bundle.identitySignPublicKey ∧
      id.mldsaPublicKey = bundle.identityMldsaPublicKey ∧
      id.dhPublicKey = bundle.identityDhPublicKey ∧ id.verified = true) :
    Move P v w { w with
      trace := run.events ++ w.trace
      client := (w.client.remember run.fields.sessionId run.transcriptHash).withSession peer
        run.session }
  | receiveChat (w : World B S) {c : Crypto B} {message : ChatMessage B} {s : SessionState B}
    (hc : P c) (hm : .receivedChat message ∈ w.trace)
    (hs : w.client.sessionsByPeer.lookup message.fromUser = some s) :
    Move P v w { w with
      client := w.client.withSession message.fromUser (receiveChat c message s).2 }
  | accept (w : World B S) {c : Crypto B} {message : InitialMessage B} (hc : P c)
    (hm : .receivedInitial message ∈ w.trace) (run : ResponderRun c w.client message) :
    Move P v w { w with
      trace := .accepted message run.ec run.pq run.plaintext :: w.trace
      client := run.accepted }

/-- Any number of moves. -/
abbrev Moves (P : Crypto B → Prop) (v : Observer S) : World B S → World B S → Prop :=
  Relation.ReflTransGen (Move P v)

/-- The calls of a server other than `EnqueueEnvelope` do what the observer says. -/
structure ServerApi.Quiet (server : ServerApi B S) (v : Observer S) : Prop where
  publishBundle : ∀ b s, v.quiet s (server.publishBundle b s).2
  acquireBundle : ∀ u s, v.quiet s (server.acquireBundleForSession u s).2
  drainInbox : ∀ u a s, v.quiet s (server.drainInbox u a s).2

/-- And so does `EnqueueEnvelope`. -/
def ServerApi.Enqueues (server : ServerApi B S) (v : Observer S) : Prop :=
  ∀ peer e s, v.enqueue s (server.enqueueEnvelope peer e s).2

theorem ServerApi.quiet_any (server : ServerApi B S) : server.Quiet .any :=
  ⟨fun _ _ => trivial, fun _ _ => trivial, fun _ _ _ => trivial⟩

theorem ServerApi.enqueues_any (server : ServerApi B S) : server.Enqueues .any :=
  fun _ _ _ => trivial

/-! ## 3. Elementary operations -/

section Elementary

variable {P : Crypto B → Prop} {v : Observer S} {w₀ : World B S} {c : Crypto B}

open Proc (Preserves)

theorem preserves_move {f : World B S → World B S} (h : ∀ w, Move P v w (f w)) :
    Preserves (Moves P v w₀) (Proc.modify f) :=
  Preserves.modify fun w hw => hw.tail (h w)

theorem callServer_moves {β : Type} {x : Proc S β} (h : ∀ s, v.quiet s (x s).2) :
    Preserves (Moves P v w₀) (callServer x) :=
  Preserves.zoom fun w hw => hw.tail (.env w _ w.drawn w.diskUses (h w.server))

theorem saveLocalState_moves :
    Preserves (Moves P v w₀) (saveLocalState : Proc (World B S) Unit) := by
  refine .bind .get fun w => .bind (.require _ _) fun _ => .bind (.require _ _) fun _ => ?_
  refine .bind (preserves_move fun w => .env w w.server w.drawn _ (v.refl _)) fun _ => ?_
  have hsave : Preserves (Moves P v w₀)
      (Proc.modify fun w : World B S => { w with disk := some w.client }) :=
    preserves_move .save
  split
  · exact hsave
  · exact .fail _
  · exact .bind hsave fun _ => .fail _

theorem setFlags_moves (f : Client B → Bool × Option UInt64) :
    Preserves (Moves P v w₀) (modifyClient fun cl =>
      { cl with prekeysDirty := (f cl).1, pendingInboxAckUpToId := (f cl).2 }) :=
  preserves_move fun w => .flags w _ _

theorem generateX25519_of_ok {w : World B S} {pair : KeyPair B}
    (h : c.x25519Generate (w.entropy w.drawn) = .ok pair) :
    generateX25519 c w =
      (.ok pair, { w with drawn := w.drawn + 1, trace := .x25519 pair :: w.trace }) := by
  simp [generateX25519, Proc.bind_apply, draw, Proc.ofExcept, h, record]

/-- The two outcomes of the generation of an X25519 key. -/
theorem generateX25519_cases (w : World B S) :
    (∃ pair, c.x25519Generate (w.entropy w.drawn) = .ok pair ∧
      generateX25519 c w =
        (.ok pair, { w with drawn := w.drawn + 1, trace := .x25519 pair :: w.trace })) ∨
    ∃ e, generateX25519 c w = (.error e, { w with drawn := w.drawn + 1 }) := by
  rcases h : c.x25519Generate (w.entropy w.drawn) with e | pair
  · refine Or.inr ⟨"" ++ e, ?_⟩
    simp [generateX25519, Proc.bind_apply, draw, Proc.ofExcept, h]
  · exact Or.inl ⟨pair, rfl, generateX25519_of_ok h⟩

theorem generateMlKem_cases (w : World B S) :
    (∃ pair, c.mlkem768Generate (w.entropy w.drawn) = .ok pair ∧
      generateMlKem c w =
        (.ok pair, { w with drawn := w.drawn + 1, trace := .mlkem pair :: w.trace })) ∨
    ∃ e, generateMlKem c w = (.error e, { w with drawn := w.drawn + 1 }) := by
  rcases h : c.mlkem768Generate (w.entropy w.drawn) with e | pair
  · refine Or.inr ⟨"" ++ e, ?_⟩
    simp [generateMlKem, Proc.bind_apply, draw, Proc.ofExcept, h]
  · refine Or.inl ⟨pair, rfl, ?_⟩
    simp [generateMlKem, Proc.bind_apply, draw, Proc.ofExcept, h, record]

/-! ## 4. Peers, prekeys and publishing -/

theorem verifyOrRememberPeerIdentity_moves (peer k₁ k₂ k₃ : B) :
    Preserves (Moves P v w₀)
      (verifyOrRememberPeerIdentity c peer k₁ k₂ k₃ : Proc (World B S) Unit) := by
  refine .bind (.ofExcept _ _) fun number => ?_
  intro w hw
  rw [Proc.bind_apply, Proc.get_apply]
  dsimp only
  rcases hl : w.client.trustedPeerIdentities.lookup peer with _ | id
  · have h1 : Moves P v w₀ { w with client :=
        { w.client with
          trustedPeerIdentities :=
            w.client.trustedPeerIdentities.insert peer ⟨k₁, k₂, k₃, false⟩ } } :=
      hw.tail (.rememberPeer w peer _ hl rfl)
    exact Preserves.bind (.within _ saveLocalState_moves) (fun _ => .fail _) _ h1
  · exact Preserves.bind (.require _ _) (fun _ => .require _ _) w hw

/-- An identity passes exactly if it is known, unchanged and verified; then nothing changes. -/
theorem verifyOrRememberPeerIdentity_eq_ok {peer k₁ k₂ k₃ : B} {w w' : World B S} {u : Unit} :
    verifyOrRememberPeerIdentity c peer k₁ k₂ k₃ w = (.ok u, w') ↔
      (∃ n, computeSafetyNumber c peer k₁ k₂ k₃ = .ok n) ∧ w' = w ∧
      ∃ id, w.client.trustedPeerIdentities.lookup peer = some id ∧
        id.signPublicKey = k₁ ∧ id.mldsaPublicKey = k₂ ∧ id.dhPublicKey = k₃ ∧
        id.verified = true := by
  rw [verifyOrRememberPeerIdentity]
  simp only [Proc.bind_eq_ok_iff, Proc.ofExcept_eq_ok_iff, Proc.get_apply]
  rcases hl : w.client.trustedPeerIdentities.lookup peer with _ | id
  · constructor
    · rintro ⟨n, t, ⟨-, rfl⟩, t', w₁, h, h'⟩
      obtain ⟨rfl, rfl⟩ : t' = w ∧ w₁ = w := by simpa [eq_comm] using h
      rw [hl] at h'
      simp [Proc.bind_eq_ok_iff] at h'
    · rintro ⟨-, -, id, h, -⟩
      cases h
  · constructor
    · rintro ⟨n, t, ⟨hn, rfl⟩, t', w₁, h, h'⟩
      obtain ⟨rfl, rfl⟩ : t' = w ∧ w₁ = w := by simpa [eq_comm] using h
      rw [hl] at h'
      simp only [Proc.bind_eq_ok_iff, Proc.require_eq_ok_iff] at h'
      obtain ⟨-, -, ⟨⟨h1, h2, h3⟩, rfl⟩, h4, rfl⟩ := h'
      exact ⟨⟨n, hn⟩, rfl, id, rfl, h1, h2, h3, h4⟩
    · rintro ⟨⟨n, hn⟩, rfl, id', hid, h1, h2, h3, h4⟩
      obtain rfl : id = id' := by simpa using hid
      refine ⟨n, w', ⟨hn, rfl⟩, w', w', rfl, ?_⟩
      rw [hl]
      simp only [Proc.bind_eq_ok_iff, Proc.require_eq_ok_iff]
      exact ⟨(), w', ⟨⟨h1, h2, h3⟩, rfl⟩, h4, rfl⟩

theorem verifyPeerSafetyNumber_moves (hv : v.verify) (peer number : B) :
    Preserves (Moves P v w₀)
      (verifyPeerSafetyNumber c peer number : Proc (World B S) Unit) := by
  intro w hw
  rw [verifyPeerSafetyNumber, Proc.bind_apply, Proc.get_apply]
  dsimp only
  rcases hl : w.client.trustedPeerIdentities.lookup peer with _ | id
  · exact hw
  · dsimp only
    rw [Proc.bind_apply]
    rcases computeSafetyNumber c peer id.signPublicKey id.mldsaPublicKey id.dhPublicKey
      with e | computed
    · exact hw
    · rw [Proc.ofExcept_ok]
      dsimp only
      rw [Proc.bind_apply]
      by_cases hn : computed = number
      · rw [Proc.require_pos hn]
        exact Preserves.within _ saveLocalState_moves _ (hw.tail (.verifyPeer w peer id hl hv))
      · rw [Proc.require, if_neg hn]
        exact hw

theorem publishPrekeys_moves {server : ServerApi B S} (hq : server.Quiet v) :
    Preserves (Moves P v w₀) (publishPrekeys c server) := by
  refine .bind .get fun w => .bind (callServer_moves (hq.publishBundle _)) fun _ => ?_
  exact .bind (setFlags_moves fun cl => (false, cl.pendingInboxAckUpToId)) fun _ =>
    .within _ saveLocalState_moves

/-- An id is returned only if it is not zero and not in use. -/
theorem generateUniqueOneTimePrekeyId_spec : ∀ (attempts : Nat) (w : World B S),
    ∃ n, (generateUniqueOneTimePrekeyId c attempts w).2 = { w with drawn := n } ∧
      ∀ id, (generateUniqueOneTimePrekeyId c attempts w).1 = .ok id →
        id ≠ 0 ∧ ¬ w.client.idInUse id
  | 0, w => ⟨w.drawn, rfl, fun id h => by cases h⟩
  | attempts + 1, w => by
    rw [generateUniqueOneTimePrekeyId, Proc.bind_apply, draw]
    dsimp only
    rw [Proc.bind_apply]
    rcases c.randUint32 (w.entropy w.drawn) with e | candidate
    · exact ⟨w.drawn + 1, rfl, fun id h => by cases h⟩
    · rw [Proc.ofExcept_ok]
      dsimp only
      rw [Proc.bind_apply, Proc.get_apply]
      dsimp only
      split
      · obtain ⟨n, h1, h2⟩ :=
          generateUniqueOneTimePrekeyId_spec attempts { w with drawn := w.drawn + 1 }
        exact ⟨n, h1, h2⟩
      · rename_i h
        refine ⟨w.drawn + 1, rfl, fun id hid => ?_⟩
        obtain rfl : candidate = id := by simpa using hid
        exact not_or.mp h

/-- The EC loop, for no more keys than are missing.  It leaves the other pool alone. -/
theorem refillEc_moves (hc : P c) : ∀ (missing : Nat) (w : World B S), Moves P v w₀ w →
    missing ≤ kOneTimePrekeyPoolTarget - w.client.oneTimeEcPool.length →
    Moves P v w₀ (refillEc c missing w).2 ∧
      (refillEc c missing w).2.client.oneTimePqPool = w.client.oneTimePqPool
  | 0, _, hw, _ => ⟨hw, rfl⟩
  | missing + 1, w, hw, hlen => by
    rw [refillEc, Proc.bind_apply]
    rcases generateX25519_cases (c := c) w with ⟨pair, hgen, hrun⟩ | ⟨e, hrun⟩
    · rw [Proc.within_ok hrun]
      dsimp only
      rw [Proc.bind_apply]
      obtain ⟨n, hw', hid⟩ := generateUniqueOneTimePrekeyId_spec (c := c) 32
        { w with drawn := w.drawn + 1, trace := .x25519 pair :: w.trace }
      rcases hr : generateUniqueOneTimePrekeyId c 32
        { w with drawn := w.drawn + 1, trace := .x25519 pair :: w.trace } with ⟨e | id, w'⟩
      · rw [hr] at hw'
        subst hw'
        have h1 := hw.tail (.generate w hc hgen)
        exact ⟨h1.tail (.env _ w.server n w.diskUses (v.refl _)), rfl⟩
      · rw [hr] at hw' hid
        subst hw'
        obtain ⟨h0, huse⟩ := hid id rfl
        have h1 := hw.tail (.addEc w hc hgen h0 huse (by omega))
        have hroom : missing ≤ kOneTimePrekeyPoolTarget - (w.client.oneTimeEcPool.length + 1) := by
          omega
        refine refillEc_moves hc missing _ (h1.tail (.env _ w.server n w.diskUses (v.refl _))) ?_
        rw [List.length_append, List.length_singleton]
        exact hroom
    · rw [Proc.within, hrun]
      exact ⟨hw.tail (.env _ w.server _ w.diskUses (v.refl _)), rfl⟩

theorem refillPq_moves (hc : P c) : ∀ (missing : Nat) (w : World B S), Moves P v w₀ w →
    missing ≤ kOneTimePrekeyPoolTarget - w.client.oneTimePqPool.length →
    Moves P v w₀ (refillPq c missing w).2
  | 0, _, hw, _ => hw
  | missing + 1, w, hw, hlen => by
    rw [refillPq, Proc.bind_apply]
    rcases generateMlKem_cases (c := c) w with ⟨pair, hgen, hrun⟩ | ⟨e, hrun⟩
    · rw [Proc.within_ok hrun]
      dsimp only
      rw [Proc.bind_apply]
      obtain ⟨n, hw', hid⟩ := generateUniqueOneTimePrekeyId_spec (c := c) 32
        { w with drawn := w.drawn + 1, trace := .mlkem pair :: w.trace }
      rcases hr : generateUniqueOneTimePrekeyId c 32
        { w with drawn := w.drawn + 1, trace := .mlkem pair :: w.trace } with ⟨e | id, w'⟩
      · rw [hr] at hw'
        subst hw'
        have h1 := hw.tail (.generateKem w hc hgen)
        exact h1.tail (.env _ w.server n w.diskUses (v.refl _))
      · rw [hr] at hw' hid
        subst hw'
        obtain ⟨h0, huse⟩ := hid id rfl
        have h1 := hw.tail (.addPq w hc hgen h0 huse (by omega))
        have hroom : missing ≤ kOneTimePrekeyPoolTarget - (w.client.oneTimePqPool.length + 1) := by
          omega
        refine refillPq_moves hc missing _ (h1.tail (.env _ w.server n w.diskUses (v.refl _))) ?_
        rw [List.length_append, List.length_singleton]
        exact hroom
    · rw [Proc.within, hrun]
      exact hw.tail (.env _ w.server _ w.diskUses (v.refl _))

theorem refillOneTimePrekeyPools_moves (hc : P c) :
    Preserves (Moves P v w₀) (refillOneTimePrekeyPools c : Proc (World B S) Unit) := by
  intro w hw
  rw [refillOneTimePrekeyPools, Proc.get_bind_apply, Proc.bind_apply]
  obtain ⟨hm, hpq⟩ := refillEc_moves hc _ w hw le_rfl
  rcases hr : refillEc c (kOneTimePrekeyPoolTarget - w.client.oneTimeEcPool.length) w with
    ⟨e | u, w'⟩
  · rw [hr] at hm
    exact hm
  · rw [hr] at hm hpq
    exact refillPq_moves hc _ w' hm (by rw [hpq])

/-! ## 5. Sending -/

theorem encryptChainStep_of_ok {chainKey key next nonce plaintext ad ct : B} {counter : UInt64}
    (hk : deriveMessageKeyAndNextChain c chainKey counter = .ok (key, next))
    (hs : aeadSeal c key nonce plaintext ad = .ok ct) (w : World B S) :
    encryptChainStep c chainKey counter nonce plaintext ad w =
      (.ok (ct, next), { w with trace := .seal key nonce plaintext ad :: w.trace }) := by
  simp [encryptChainStep, sealRecorded, Proc.bind_apply, Proc.ofExcept, hk, hs, record]

/-- A seal is recorded exactly when it succeeds. -/
theorem encryptChainStep_cases (chainKey : B) (counter : UInt64) (nonce plaintext ad : B)
    (w : World B S) :
    (∃ key next ct, deriveMessageKeyAndNextChain c chainKey counter = .ok (key, next) ∧
      aeadSeal c key nonce plaintext ad = .ok ct ∧
      encryptChainStep c chainKey counter nonce plaintext ad w =
        (.ok (ct, next), { w with trace := .seal key nonce plaintext ad :: w.trace })) ∨
    ∃ e, encryptChainStep c chainKey counter nonce plaintext ad w = (.error e, w) := by
  rcases hk : deriveMessageKeyAndNextChain c chainKey counter with e | ⟨key, next⟩
  · exact Or.inr ⟨"" ++ e, by simp [encryptChainStep, Proc.bind_apply, Proc.ofExcept, hk]⟩
  · rcases hs : aeadSeal c key nonce plaintext ad with e | ct
    · refine Or.inr ⟨"" ++ e, ?_⟩
      simp [encryptChainStep, sealRecorded, Proc.bind_apply, Proc.ofExcept, hk, hs]
    · exact Or.inl ⟨key, next, ct, rfl, hs, encryptChainStep_of_ok hk hs w⟩

/-- The header of a ratcheting message. -/
def SendRatchetRun.header {s : SessionState B} (run : SendRatchetRun c s) : MessageHeader B :=
  { senderRatchetPublicKey := some run.newRatchet.publicKey
    previousChainLength := s.previousSendChainLength
    flags := 1 }

/-- The ways the ratchet step of `SendMessage` can end: not due, done, or failed with or
without a new key in hand. -/
theorem sendRatchet_cases (peer : B) (s : SessionState B) (w : World B S) :
    (¬ s.ratchetDue ∧ sendRatchet c peer s w = (.ok (s, {}), w)) ∨
    (∃ run : SendRatchetRun c s, run.seed = w.entropy w.drawn ∧
      sendRatchet c peer s w = (.ok (run.session, run.header),
        { w with
          drawn := w.drawn + 1
          trace := .x25519 run.newRatchet :: w.trace
          client := w.client.withSession peer run.session })) ∨
    (∃ e pair seed, c.x25519Generate seed = .ok pair ∧ sendRatchet c peer s w = (.error e,
      { w with drawn := w.drawn + 1, trace := .x25519 pair :: w.trace })) ∨
    ∃ e, sendRatchet c peer s w = (.error e, { w with drawn := w.drawn + 1 }) := by
  by_cases hd : s.ratchetDue
  · right
    rw [sendRatchet, if_pos hd, Proc.bind_apply]
    rcases generateX25519_cases (c := c) w with ⟨pair, hgen, hrun⟩ | ⟨e, hrun⟩
    · rw [Proc.within_ok hrun]
      dsimp only
      rcases hdh : c.x25519SharedSecret pair.privateKey s.remoteRatchetPublic with e | dh
      · exact Or.inr (Or.inl ⟨"ratchet DH failed: " ++ e, pair, _, hgen, rfl⟩)
      · rcases hmix : deriveRatchetRootAndChain c dh s.rootKey with e | ⟨ck, rk⟩
        · refine Or.inr (Or.inl ⟨"ratchet KDF failed: " ++ e, pair, _, hgen, ?_⟩)
          simp [Proc.bind_apply, Proc.ofExcept, hmix]
        · refine Or.inl ⟨⟨_, pair, dh, ck, rk, hd, hgen, hdh, hmix⟩, rfl, ?_⟩
          simp [Proc.bind_apply, Proc.ofExcept, hmix, setSession, modifyClient,
            SendRatchetRun.session, SendRatchetRun.header, Client.withSession]
    · rw [Proc.within, hrun]
      exact Or.inr (Or.inr ⟨_, rfl⟩)
  · exact Or.inl ⟨hd, by rw [sendRatchet, if_neg hd]; rfl⟩

theorem sendRatchet_of_run (peer : B) {s : SessionState B} (run : SendRatchetRun c s)
    {w : World B S} (hseed : run.seed = w.entropy w.drawn) :
    sendRatchet c peer s w = (.ok (run.session, run.header),
      { w with
        drawn := w.drawn + 1
        trace := .x25519 run.newRatchet :: w.trace
        client := w.client.withSession peer run.session }) := by
  have hgen := generateX25519_of_ok (w := w) (hseed ▸ run.generate_ok)
  rw [sendRatchet, if_pos run.due, Proc.bind_ok (Proc.within_ok hgen _), run.dh_ok,
    Proc.ofExcept_ok_bind, run.mix_ok, Proc.ofExcept_ok_bind]
  rfl

theorem SendRatchetRun.not_due {s : SessionState B} (run : SendRatchetRun c s) :
    ¬ run.session.ratchetDue := by
  simp [SessionState.ratchetDue, SendRatchetRun.session]

/-- The message of a sealed chat. -/
def SealChatRun.message {userId peer plaintext : B} {s : SessionState B}
    {header : MessageHeader B} (run : SealChatRun c userId peer s header plaintext) :
    ChatMessage B :=
  { chatMessage userId peer s header with ciphertext := run.ciphertext }

theorem sealStep_of_run {userId peer plaintext : B} {s : SessionState B}
    {header : MessageHeader B} (run : SealChatRun c userId peer s header plaintext)
    (w : World B S) :
    sealStep c userId peer (s, header) plaintext w = (.ok run.message,
      { w with
        trace := .seal run.messageKey (nonceFromCounter s.sendCounter) plaintext run.ad :: w.trace
        client := w.client.withSession peer run.session }) := by
  have hseal := encryptChainStep_of_ok run.step_ok run.seal_ok w
  rw [sealStep]
  dsimp only
  rw [run.ad_ok, Proc.ofExcept_ok_bind]
  exact Proc.bind_ok (Proc.within_ok hseal _) _

theorem sealStep_cases (userId peer : B) (step : SessionState B × MessageHeader B)
    (plaintext : B) (w : World B S) :
    (∃ run : SealChatRun c userId peer step.1 step.2 plaintext,
      sealStep c userId peer step plaintext w = (.ok run.message,
        { w with
          trace := .seal run.messageKey (nonceFromCounter step.1.sendCounter) plaintext run.ad
            :: w.trace
          client := w.client.withSession peer run.session })) ∨
    ∃ e, sealStep c userId peer step plaintext w = (.error e, w) := by
  rcases had : buildChatAssociatedData c (chatMessage userId peer step.1 step.2) with e | ad
  · exact Or.inr ⟨"chat AD failed: " ++ e, by simp [sealStep, Proc.bind_apply, Proc.ofExcept, had]⟩
  · have hrun₁ : (Proc.ofExcept "chat AD failed: " (buildChatAssociatedData c
        (chatMessage userId peer step.1 step.2)) : Proc (World B S) B) w = (.ok ad, w) := by
      rw [had]
      rfl
    rcases encryptChainStep_cases (c := c) step.1.sendChainKey step.1.sendCounter
      (nonceFromCounter step.1.sendCounter) plaintext ad w with
      ⟨key, next, ct, hk, hs, hrun⟩ | ⟨e, hrun⟩
    · exact Or.inl ⟨⟨key, next, ad, ct, had, hk, hs⟩, sealStep_of_run _ w⟩
    · refine Or.inr ⟨"message encryption failed: " ++ e, (Proc.bind_ok hrun₁ _).trans ?_⟩
      exact Proc.bind_error (Proc.within_error hrun _) _

@[simp] theorem Client.lookup_withSession (cl : Client B) (peer : B) (s : SessionState B) :
    (cl.withSession peer s).sessionsByPeer.lookup peer = some s :=
  Finmap.lookup_insert _

theorem Client.lookup_withSession_ne {cl : Client B} {peer peer' : B} (h : peer' ≠ peer)
    (s : SessionState B) :
    (cl.withSession peer s).sessionsByPeer.lookup peer' = cl.sessionsByPeer.lookup peer' :=
  Finmap.lookup_insert_of_ne _ h

theorem sealStep_moves (hc : P c) {w : World B S} {peer : B}
    {step : SessionState B × MessageHeader B} (plaintext : B)
    (hs : w.client.sessionsByPeer.lookup peer = some step.1) (hd : ¬ step.1.ratchetDue)
    (hw : Moves P v w₀ w) :
    Moves P v w₀ (sealStep c w.client.userId peer step plaintext w).2 := by
  rcases sealStep_cases (c := c) w.client.userId peer step plaintext w with
    ⟨run, hrun⟩ | ⟨e, hrun⟩
  · rw [hrun]
    exact hw.tail (.sealChat w hc hs hd run)
  · rw [hrun]
    exact hw

theorem sealChat_moves (hc : P c) {w : World B S} {peer : B} {s : SessionState B}
    (plaintext : B) (hs : w.client.sessionsByPeer.lookup peer = some s)
    (hw : Moves P v w₀ w) : Moves P v w₀ (sealChat c peer s plaintext w).2 := by
  rw [sealChat, Proc.bind_apply, Proc.get_apply]
  dsimp only
  rcases sendRatchet_cases (c := c) peer s w with
    ⟨hd, hrun⟩ | ⟨run, -, hrun⟩ | ⟨e, pair, seed, hgen, hrun⟩ | ⟨e, hrun⟩
  · rw [Proc.bind_ok hrun]
    exact sealStep_moves hc plaintext hs hd hw
  · rw [Proc.bind_ok hrun]
    have h1 := (hw.tail (.ratchet w hc hs run)).tail
      (.env _ w.server (w.drawn + 1) w.diskUses (v.refl _))
    exact sealStep_moves hc plaintext (Client.lookup_withSession ..) run.not_due h1
  · rw [Proc.bind_error hrun]
    exact (hw.tail (.generate w hc hgen)).tail (.env _ w.server (w.drawn + 1) w.diskUses (v.refl _))
  · rw [Proc.bind_error hrun]
    exact hw.tail (.env _ w.server _ w.diskUses (v.refl _))

theorem enqueueAndSave_moves {server : ServerApi B S} (he : server.Enqueues v) (peer : B)
    (envelope : Envelope B) : Preserves (Moves P v w₀) (enqueueAndSave server peer envelope) :=
  .bind (.zoom fun w hw => hw.tail (.enqueue w _ (he peer envelope w.server))) fun _ =>
    .within _ saveLocalState_moves

theorem sendMessage_moves (hc : P c) {server : ServerApi B S} (he : server.Enqueues v)
    (peer plaintext : B) :
    Preserves (Moves P v w₀) (sendMessage c server peer plaintext) := by
  intro w hw
  rw [sendMessage, Proc.bind_apply, Proc.get_apply]
  dsimp only
  rcases hl : w.client.sessionsByPeer.lookup peer with _ | s
  · exact hw
  · dsimp only
    have h1 := sealChat_moves (v := v) hc plaintext hl hw
    rw [Proc.bind_apply]
    rcases hr : sealChat c peer s plaintext w with ⟨e | message, w'⟩
    · rw [hr] at h1
      exact h1
    · rw [hr] at h1
      exact enqueueAndSave_moves he peer _ _ h1

/-! ## 6. Receiving chat messages -/

theorem handleChatMessage_moves (hc : P c) (message : ChatMessage B) :
    Preserves (Moves P v w₀) (handleChatMessage c message : Proc (World B S) B) := by
  intro w hw
  have h1 : Moves P v w₀ { w with trace := .receivedChat message :: w.trace } :=
    hw.tail (.input w _ trivial)
  show Proc.wp (handleChatMessage c message) (fun _ => Moves P v w₀) w
  refine Proc.wp_modify_bind (Proc.wp_get_bind (Proc.wp_require_bind (fun _ => h1) fun _ => ?_))
  dsimp only
  rcases hl : w.client.sessionsByPeer.lookup message.fromUser with _ | s
  · exact h1
  · refine Proc.wp_require_bind (fun _ => h1) fun _ => ?_
    exact h1.tail (.receiveChat _ hc (List.mem_cons_self ..) hl)

/-! ## 7. Initiating -/

/-- What `InitiateSession` knows of a bundle when it comes to the identity of the peer. -/
structure OfferedBundle (c : Crypto B) (server : ServerApi B S) (peer : B) (w : World B S)
    (bundle : PrekeyBundle B) (s : S) : Prop where
  acquired : server.acquireBundleForSession peer w.server = (.ok bundle, s)
  user_eq : bundle.userId = peer
  version_eq : bundle.version = kProtocolVersion
  suite_eq : bundle.cipherSuite = kCipherSuite
  signatures_ok : verifyPrekeyBundleSignatures c bundle = .ok ()
  number_ok : ∃ n, computeSafetyNumber c peer bundle.identitySignPublicKey
    bundle.identityMldsaPublicKey bundle.identityDhPublicKey = .ok n

/-- What `InitiateSession` knows of a bundle it goes on with. -/
structure FetchedBundle (c : Crypto B) (server : ServerApi B S) (peer : B) (w : World B S)
    (bundle : PrekeyBundle B) (s : S) : Prop extends OfferedBundle c server peer w bundle s where
  identity_ok : ∃ id, w.client.trustedPeerIdentities.lookup peer = some id ∧
    id.signPublicKey = bundle.identitySignPublicKey ∧
    id.mldsaPublicKey = bundle.identityMldsaPublicKey ∧
    id.dhPublicKey = bundle.identityDhPublicKey ∧ id.verified = true

/-- The world once a bundle has been fetched. -/
def World.fetched (w : World B S) (bundle : PrekeyBundle B) (s : S) : World B S :=
  { w with server := s, trace := .receivedBundle bundle :: w.trace }

theorem fetchPeerBundle_of_fetched {server : ServerApi B S} {peer : B} {w : World B S}
    {bundle : PrekeyBundle B} {s : S} (h : FetchedBundle c server peer w bundle s) :
    fetchPeerBundle c server peer w = (.ok bundle, w.fetched bundle s) := by
  have hknown := verifyOrRememberPeerIdentity_eq_ok (c := c) (u := ()) (w := w.fetched bundle s)
    |>.mpr ⟨h.number_ok, rfl, h.identity_ok⟩
  rw [fetchPeerBundle, Proc.bind_ok (Proc.within_ok (callServer_of_eq h.acquired) _), record,
    Proc.modify_bind_apply, Proc.require_pos h.user_eq, Proc.require_pos h.version_eq,
    Proc.require_pos h.suite_eq, h.signatures_ok]
  exact Proc.bind_ok hknown _

theorem fetchPeerBundle_spec {server : ServerApi B S} (hq : server.Quiet v) (peer : B)
    (w : World B S) :
    Proc.wp (fetchPeerBundle c server peer) (fun r w' => Moves P v w w' ∧
      ∀ bundle, r = .ok bundle → ∃ s, FetchedBundle c server peer w bundle s ∧
        w' = w.fetched bundle s) w := by
  have hq' := hq.acquireBundle peer w.server
  rcases ha : server.acquireBundleForSession peer w.server with ⟨e | bundle, s⟩
  · rw [ha] at hq'
    refine Proc.wp_of_eq (Proc.bind_error (Proc.within_error (callServer_of_eq ha) _) _)
      ⟨?_, nofun⟩
    exact .single (.env w s w.drawn w.diskUses hq')
  · rw [ha] at hq'
    have hm : Moves P v w (w.fetched bundle s) :=
      .tail (.single (.env w s w.drawn w.diskUses hq')) (.input _ (.receivedBundle bundle) trivial)
    refine Proc.wp_of_bind_ok (Proc.within_ok (callServer_of_eq ha) _) (Proc.wp_modify_bind ?_)
    refine Proc.wp_require_bind (fun _ => ⟨hm, nofun⟩) fun huser => ?_
    refine Proc.wp_require_bind (fun _ => ⟨hm, nofun⟩) fun hversion => ?_
    refine Proc.wp_require_bind (fun _ => ⟨hm, nofun⟩) fun hsuite => ?_
    refine Proc.wp_ofExcept_bind (fun _ _ => ⟨hm, nofun⟩) fun _ hverify => ?_
    refine Proc.wp_bind (R := fun r w' => Moves P v w w' ∧
      (r = .ok () → w' = w.fetched bundle s ∧ FetchedBundle c server peer w bundle s))
      ⟨?_, fun h => ?_⟩ (fun e w' h => ⟨h.1, nofun⟩) fun _ w' h => ⟨h.1, fun b hb => ?_⟩
    · exact verifyOrRememberPeerIdentity_moves _ _ _ _ _ hm
    · obtain ⟨hnum, hsame, hid⟩ := verifyOrRememberPeerIdentity_eq_ok.mp (Prod.ext h rfl)
      exact ⟨hsame, ⟨⟨ha, huser, hversion, hsuite, hverify, hnum⟩, hid⟩⟩
    · obtain rfl : bundle = b := by simpa using hb
      exact ⟨s, (h.2 rfl).2, (h.2 rfl).1⟩

/-- `NewSessionId` draws one seed. -/
theorem newSessionId_cases (w : World B S) :
    (∃ random, c.randBytes16 (w.entropy w.drawn) = .ok random ∧
      newSessionId c w = (.ok (hexEncode random), { w with drawn := w.drawn + 1 })) ∨
    ∃ e, newSessionId c w = (.error e, { w with drawn := w.drawn + 1 }) := by
  rcases h : c.randBytes16 (w.entropy w.drawn) with e | random
  · refine Or.inr ⟨"" ++ e, ?_⟩
    simp [newSessionId, Proc.bind_apply, draw, Proc.ofExcept, h]
  · refine Or.inl ⟨random, rfl, ?_⟩
    simp [newSessionId, Proc.bind_apply, draw, Proc.ofExcept, h]

theorem encapsulate_cases (publicKey : B) (w : World B S) :
    (∃ result, c.mlkem768Encapsulate (w.entropy w.drawn) publicKey = .ok result ∧
      encapsulate c publicKey w = (.ok result, { w with drawn := w.drawn + 1 })) ∨
    ∃ e, encapsulate c publicKey w = (.error e, { w with drawn := w.drawn + 1 }) := by
  rcases h : c.mlkem768Encapsulate (w.entropy w.drawn) publicKey with e | result
  · refine Or.inr ⟨"" ++ e, ?_⟩
    simp [encapsulate, Proc.bind_apply, draw, Proc.ofExcept, h]
  · refine Or.inl ⟨result, rfl, ?_⟩
    simp [encapsulate, Proc.bind_apply, draw, Proc.ofExcept, h]

/-- The seeds of the run are the next four that are drawn. -/
structure InitiatorRun.Drawn {cl : Client B} {peer : B} {bundle : PrekeyBundle B}
    (run : InitiatorRun c cl peer bundle) (w : World B S) : Prop where
  random_ok : c.randBytes16 (w.entropy w.drawn) = .ok run.random
  ephSeed_eq : run.ephSeed = w.entropy (w.drawn + 1)
  spkSeed_eq : run.spkSeed = w.entropy (w.drawn + 2)
  opkSeed_eq : run.opkSeed = w.entropy (w.drawn + 3)

/-- The ways the key agreement of the initiator can end: with a complete run, or in an error
with or without an ephemeral key in hand. -/
inductive InitiatorOutcome (c : Crypto B) (peer : B) (bundle : PrekeyBundle B)
    (w : World B S) : Result (InitiatorAgreement B) → World B S → Prop
  | agreed (n : Nat) (run : InitiatorRun c w.client peer bundle) (h : run.Drawn w) :
    InitiatorOutcome c peer bundle w (.ok run.agreement)
      { w with drawn := n, trace := .x25519 run.eph :: w.trace }
  | keyed (n : Nat) (e : String) {seed : Nat} {pair : KeyPair B}
    (h : c.x25519Generate seed = .ok pair) :
    InitiatorOutcome c peer bundle w (.error e)
      { w with drawn := n, trace := .x25519 pair :: w.trace }
  | failed (n : Nat) (e : String) :
    InitiatorOutcome c peer bundle w (.error e) { w with drawn := n }

/-- The key agreement of a run whose seeds are the ones drawn. -/
theorem agreeAsInitiator_of_run {peer : B} {bundle : PrekeyBundle B} {w : World B S}
    (run : InitiatorRun c w.client peer bundle) (h : run.Drawn w) :
    agreeAsInitiator c peer bundle w = (.ok run.agreement,
      { w with drawn := w.drawn + 4, trace := .x25519 run.eph :: w.trace }) := by
  obtain ⟨ecs, hec⟩ := List.head?_eq_some_iff.mp run.ec_head
  obtain ⟨pqs, hpq⟩ := List.head?_eq_some_iff.mp run.pq_head
  have hid : newSessionId c w = (.ok (hexEncode run.random), { w with drawn := w.drawn + 1 }) := by
    simp [newSessionId, Proc.bind_apply, draw, Proc.ofExcept, h.random_ok]
  have heph := generateX25519_of_ok (w := { w with drawn := w.drawn + 1 })
    (h.ephSeed_eq ▸ run.eph_ok)
  have hencapsulate : ∀ {key : B} {result : EncapResult B} {seed : Nat} (w' : World B S),
      c.mlkem768Encapsulate seed key = .ok result → seed = w'.entropy w'.drawn →
      encapsulate c key w' = (.ok result, { w' with drawn := w'.drawn + 1 }) := by
    intro key result seed w' hok hseed
    simp [encapsulate, Proc.bind_apply, draw, Proc.ofExcept, ← hseed, hok]
  have hspk := hencapsulate
    { w with drawn := w.drawn + 2, trace := .x25519 run.eph :: w.trace } run.kemSpk_ok h.spkSeed_eq
  have hopk := hencapsulate
    { w with drawn := w.drawn + 3, trace := .x25519 run.eph :: w.trace } run.kemOpk_ok h.opkSeed_eq
  rw [agreeAsInitiator, Proc.bind_ok hid, hec, hpq]
  dsimp only
  rw [Proc.bind_ok (Proc.within_ok heph _), Proc.get_bind_apply]
  dsimp only
  rw [run.dh1_ok, Proc.ofExcept_ok_bind, run.dh2_ok, Proc.ofExcept_ok_bind, run.dh3_ok,
    Proc.ofExcept_ok_bind, run.dh4_ok, Proc.ofExcept_ok_bind,
    Proc.bind_ok (Proc.within_ok hspk _), Proc.bind_ok (Proc.within_ok hopk _), run.hash_ok,
    Proc.ofExcept_ok_bind, run.sign_ok, Proc.ofExcept_ok_bind, run.signMldsa_ok,
    Proc.ofExcept_ok_bind, run.keys_ok, Proc.ofExcept_ok_bind]
  rfl

theorem agreeAsInitiator_outcome (peer : B) (bundle : PrekeyBundle B) (w : World B S) :
    Proc.wp (agreeAsInitiator c peer bundle) (InitiatorOutcome c peer bundle w) w := by
  rcases newSessionId_cases (c := c) w with ⟨random, hrandom, h₁⟩ | ⟨e, h₁⟩
  swap
  · exact Proc.wp_of_eq (Proc.bind_error h₁ _) (.failed _ _)
  refine Proc.wp_of_bind_ok h₁ ?_
  rcases hec : bundle.oneTimeEc with _ | ⟨ec, ecs⟩
  · exact .failed _ _
  rcases hpq : bundle.oneTimePq with _ | ⟨pq, pqs⟩
  · exact .failed _ _
  rcases generateX25519_cases (c := c) { w with drawn := w.drawn + 1 } with
    ⟨eph, hgen, h₂⟩ | ⟨e, h₂⟩
  swap
  · exact Proc.wp_of_eq (Proc.bind_error (Proc.within_error h₂ _) _) (.failed _ _)
  refine Proc.wp_of_bind_ok (Proc.within_ok h₂ _) (Proc.wp_get_bind ?_)
  -- from here on an error leaves the ephemeral key behind
  refine Proc.wp_ofExcept_bind (fun _ _ => .keyed _ _ hgen) fun dh1 hdh1 => ?_
  refine Proc.wp_ofExcept_bind (fun _ _ => .keyed _ _ hgen) fun dh2 hdh2 => ?_
  refine Proc.wp_ofExcept_bind (fun _ _ => .keyed _ _ hgen) fun dh3 hdh3 => ?_
  refine Proc.wp_ofExcept_bind (fun _ _ => .keyed _ _ hgen) fun dh4 hdh4 => ?_
  rcases encapsulate_cases (c := c) bundle.signedPrekeyPq.publicKey
    { w with drawn := w.drawn + 1 + 1, trace := .x25519 eph :: w.trace } with
    ⟨kemSpk, hspk, h₃⟩ | ⟨e, h₃⟩
  swap
  · exact Proc.wp_of_eq (Proc.bind_error (Proc.within_error h₃ _) _) (.keyed _ _ hgen)
  refine Proc.wp_of_bind_ok (Proc.within_ok h₃ _) ?_
  rcases encapsulate_cases (c := c) pq.publicKey
    { w with drawn := w.drawn + 1 + 1 + 1, trace := .x25519 eph :: w.trace } with
    ⟨kemOpk, hopk, h₄⟩ | ⟨e, h₄⟩
  swap
  · exact Proc.wp_of_eq (Proc.bind_error (Proc.within_error h₄ _) _) (.keyed _ _ hgen)
  refine Proc.wp_of_bind_ok (Proc.within_ok h₄ _) ?_
  refine Proc.wp_ofExcept_bind (fun _ _ => .keyed _ _ hgen) fun th hth => ?_
  refine Proc.wp_ofExcept_bind (fun _ _ => .keyed _ _ hgen) fun sig hsig => ?_
  refine Proc.wp_ofExcept_bind (fun _ _ => .keyed _ _ hgen) fun sigMldsa hsigMldsa => ?_
  refine Proc.wp_ofExcept_bind (fun _ _ => .keyed _ _ hgen) fun keys hkeys => ?_
  let run : InitiatorRun c w.client peer bundle :=
    { random, eph, ec, pq, dh1, dh2, dh3, dh4, kemSpk, kemOpk, keys
      ephSeed := _, spkSeed := _, opkSeed := _
      transcriptHash := th, signature := sig, signatureMldsa := sigMldsa
      ec_head := by rw [hec]; rfl
      pq_head := by rw [hpq]; rfl
      eph_ok := hgen, dh1_ok := hdh1, dh2_ok := hdh2, dh3_ok := hdh3, dh4_ok := hdh4
      kemSpk_ok := hspk, kemOpk_ok := hopk, hash_ok := hth, sign_ok := hsig
      signMldsa_ok := hsigMldsa, keys_ok := hkeys }
  exact .agreed _ run ⟨hrandom, rfl, rfl, rfl⟩

theorem sealInitial_of_sealed {cl : Client B} {peer plaintext : B} {bundle : PrekeyBundle B}
    (sealed : SealedInitiation c cl peer bundle plaintext) (w : World B S) :
    sealInitial c peer bundle sealed.agreement plaintext
        { w with trace := .x25519 sealed.eph :: w.trace } =
      (.ok (sealed.message, sealed.session), { w with trace := sealed.events ++ w.trace }) := by
  have hseal := encryptChainStep_of_ok sealed.step_ok sealed.seal_ok
    { w with trace := .x25519 sealed.eph :: w.trace }
  exact Proc.bind_ok (Proc.within_ok hseal _) _

/-- Sealing the initial message completes the run, or it changes nothing. -/
theorem sealInitial_cases {cl : Client B} {peer : B} {bundle : PrekeyBundle B}
    (run : InitiatorRun c cl peer bundle) (plaintext : B) (w : World B S) :
    (∃ sealed : SealedInitiation c cl peer bundle plaintext, sealed.toInitiatorRun = run) ∨
    ∃ e, sealInitial c peer bundle run.agreement plaintext w = (.error e, w) := by
  rcases encryptChainStep_cases (c := c) run.keys.send 0 (nonceFromCounter 0) plaintext
    run.transcriptHash w with ⟨key, next, ct, hkey, hseal, -⟩ | ⟨e, hstep⟩
  · exact Or.inl ⟨{ run with
      messageKey := key, nextChainKey := next, ciphertext := ct
      step_ok := hkey, seal_ok := hseal }, rfl⟩
  · exact Or.inr ⟨_, Proc.bind_error (Proc.within_error hstep _) _⟩

/-- Remembering a handshake that has been seen changes nothing. -/
theorem rememberInitialReplayGuards_cases (sessionId transcriptHash : B) (w : World B S) :
    (¬ w.client.hasSeenInitialReplayGuard sessionId transcriptHash ∧
      rememberInitialReplayGuards sessionId transcriptHash w =
        (.ok (), { w with client := w.client.remember sessionId transcriptHash })) ∨
    (w.client.hasSeenInitialReplayGuard sessionId transcriptHash ∧
      ∃ e, rememberInitialReplayGuards sessionId transcriptHash w = (.error e, w)) := by
  by_cases hs : sessionId ∈ w.client.seenInitialSessions.seen
  · refine Or.inr ⟨Or.inl hs, "duplicate initial session id rejected", ?_⟩
    simp [rememberInitialReplayGuards, Proc.bind_apply, Proc.require, hs]
  · by_cases ht : hexEncode transcriptHash ∈ w.client.seenInitialTranscripts.seen
    · refine Or.inr ⟨Or.inr ht, "duplicate initial transcript rejected", ?_⟩
      simp [rememberInitialReplayGuards, Proc.bind_apply, hs, ht, modifyClient,
        ReplayGuard.push, ReplayGuard.retract, Finset.erase_insert hs]
    · refine Or.inl ⟨fun h => h.elim hs ht, ?_⟩
      simp [rememberInitialReplayGuards, Proc.bind_apply, hs, ht, modifyClient,
        Client.remember]

/-- The world once an initial message is sealed and its session stored. -/
def World.initiated (w : World B S) (n : Nat) {peer plaintext : B} {bundle : PrekeyBundle B}
    (run : SealedInitiation c w.client peer bundle plaintext) : World B S :=
  { w with
    drawn := n
    trace := run.events ++ w.trace
    client := (w.client.remember run.fields.sessionId run.transcriptHash).withSession peer
      run.session }

/-- `InitiateSession` fails early, or it ends with `enqueueAndSave` of the message of a
complete run. -/
theorem initiateSession_cases {server : ServerApi B S} (hc : P c) (hq : server.Quiet v)
    (peer plaintext : B) (w : World B S) :
    (∃ e w', initiateSession c server peer plaintext w = (.error e, w') ∧ Moves P v w w') ∨
    ∃ (bundle : PrekeyBundle B) (s : S) (n : Nat)
      (run : SealedInitiation c (w.fetched bundle s).client peer bundle plaintext),
      FetchedBundle c server peer w bundle s ∧
      ¬ w.client.hasSeenInitialReplayGuard run.fields.sessionId run.transcriptHash ∧
      Moves P v w ((w.fetched bundle s).initiated n run) ∧
      initiateSession c server peer plaintext w =
        enqueueAndSave server peer (.fromInitial run.message)
          ((w.fetched bundle s).initiated n run) := by
  obtain ⟨hm, hf⟩ := fetchPeerBundle_spec (c := c) (P := P) hq peer w
  rcases h₁ : fetchPeerBundle c server peer w with ⟨e | bundle, w₁⟩
  · rw [h₁] at hm
    exact Or.inl ⟨e, w₁, Proc.bind_error h₁ _, hm⟩
  rw [h₁] at hm hf
  obtain ⟨s, hfetch, rfl : w₁ = w.fetched bundle s⟩ := hf bundle rfl
  have hb : Event.receivedBundle bundle ∈ (w.fetched bundle s).trace := List.mem_cons_self ..
  rw [initiateSession, Proc.bind_ok h₁]
  have ho := agreeAsInitiator_outcome (c := c) peer bundle (w.fetched bundle s)
  rcases h₂ : agreeAsInitiator c peer bundle (w.fetched bundle s) with ⟨r, w₂⟩
  rw [Proc.wp, h₂] at ho
  cases ho with
  | failed n e =>
    exact Or.inl ⟨e, _, Proc.bind_error h₂ _, hm.tail (.env _ _ n _ (v.refl _))⟩
  | keyed n e hgen =>
    exact Or.inl ⟨e, _, Proc.bind_error h₂ _,
      (hm.tail (.generate _ hc hgen)).tail (.env _ _ n _ (v.refl _))⟩
  | agreed n run hdrawn =>
    rw [Proc.bind_ok h₂]
    let w₂ : World B S := { w.fetched bundle s with drawn := n }
    rcases sealInitial_cases run plaintext { w₂ with trace := .x25519 run.eph :: w₂.trace } with
      ⟨sealed, rfl⟩ | ⟨e, h₃⟩
    swap
    · exact Or.inl ⟨e, _, Proc.bind_error h₃ _,
        (hm.tail (.generate _ hc run.eph_ok)).tail (.env _ _ n _ (v.refl _))⟩
    rw [Proc.bind_ok (sealInitial_of_sealed sealed w₂)]
    rcases rememberInitialReplayGuards_cases sealed.fields.sessionId sealed.transcriptHash
        { w₂ with trace := sealed.events ++ w₂.trace } with ⟨hseen, h₄⟩ | ⟨-, e, h₄⟩
    · refine Or.inr ⟨bundle, s, n, sealed, hfetch, hseen, ?_, Proc.bind_ok h₄ _⟩
      exact (hm.tail (.initiate _ hc hb sealed hfetch.identity_ok)).tail
        (.env _ _ n _ (v.refl _))
    · refine Or.inl ⟨e, _, Proc.bind_error h₄ _, ?_⟩
      exact (hm.tail (.sealInitial _ hc hb sealed)).tail (.env _ _ n _ (v.refl _))

/-- A handshake that `InitiateSession` is ready to send: what the server answers, the checks of the
bundle against the client, the derivations from the next four seeds, and the replay guards. -/
structure ReadyInitiation (c : Crypto B) (server : ServerApi B S) (peer p : B)
    (w : World B S) where
  bundle : PrekeyBundle B
  answered : S
  handshake : SealedInitiation c w.client peer bundle p
  fetched : FetchedBundle c server peer w bundle answered
  drawn : handshake.Drawn w
  unseen : ¬ w.client.hasSeenInitialReplayGuard handshake.fields.sessionId
    handshake.transcriptHash

/-- `InitiateSession` up to the point where the session is stored. -/
def prepareInitial (c : Crypto B) (server : ServerApi B S) (peer p : B) :
    Proc (World B S) (InitialMessage B × SessionState B) := do
  let bundle ← fetchPeerBundle c server peer
  let agreement ← agreeAsInitiator c peer bundle
  let sealed ← sealInitial c peer bundle agreement p
  rememberInitialReplayGuards agreement.fields.sessionId agreement.transcriptHash
  pure sealed

theorem initiateSession_eq (server : ServerApi B S) (peer p : B) :
    initiateSession c server peer p = (prepareInitial c server peer p >>= fun sealed => do
      setSession peer sealed.2
      enqueueAndSave server peer (.fromInitial sealed.1)) := by
  simp only [initiateSession, prepareInitial, Proc.bind_assoc, Proc.pure_bind]

/-- A handshake that is ready is what `InitiateSession` stores and hands over. -/
theorem prepareInitial_of_ready {server : ServerApi B S} {peer p : B} {w : World B S}
    (ready : ReadyInitiation c server peer p w) :
    ∃ w₁, prepareInitial c server peer p w =
      (.ok (ready.handshake.message, ready.handshake.session), w₁) ∧
      w₁.server = ready.answered := by
  let w₁ := w.fetched ready.bundle ready.answered
  let w₂ : World B S := { w₁ with drawn := w₁.drawn + 4 }
  have hagree : agreeAsInitiator c peer ready.bundle w₁ = (.ok ready.handshake.agreement,
      { w₂ with trace := .x25519 ready.handshake.eph :: w₂.trace }) :=
    agreeAsInitiator_of_run (w := w₁) ready.handshake.toInitiatorRun
      ⟨ready.drawn.random_ok, ready.drawn.ephSeed_eq, ready.drawn.spkSeed_eq,
        ready.drawn.opkSeed_eq⟩
  rw [prepareInitial, Proc.bind_ok (fetchPeerBundle_of_fetched ready.fetched),
    Proc.bind_ok hagree, Proc.bind_ok (sealInitial_of_sealed ready.handshake w₂)]
  rcases rememberInitialReplayGuards_cases ready.handshake.fields.sessionId
      ready.handshake.transcriptHash
      { w₂ with trace := ready.handshake.events ++ w₂.trace } with ⟨-, h⟩ | ⟨hseen, -⟩
  · exact ⟨_, Proc.bind_ok h _, rfl⟩
  · exact absurd hseen ready.unseen

/-- And nothing else is. -/
theorem ready_of_prepareInitial {server : ServerApi B S} {peer p : B} {w w₁ : World B S}
    {m : InitialMessage B} {s : SessionState B}
    (h : prepareInitial c server peer p w = (.ok (m, s), w₁)) :
    ∃ ready : ReadyInitiation c server peer p w,
      ready.handshake.message = m ∧ ready.handshake.session = s ∧ w₁.server = ready.answered ∧
      w₁.client = w.client.remember ready.handshake.fields.sessionId
        ready.handshake.transcriptHash ∧ w₁.disk = w.disk := by
  obtain ⟨bundle, w₂, hfetch, h⟩ := Proc.bind_eq_ok_iff.mp h
  obtain ⟨-, hf⟩ := fetchPeerBundle_spec (c := c) (P := fun _ => True) server.quiet_any peer w
  rw [hfetch] at hf
  obtain ⟨answered, hfetched, rfl : w₂ = w.fetched bundle answered⟩ := hf bundle rfl
  obtain ⟨agreement, w₃, hagree, h⟩ := Proc.bind_eq_ok_iff.mp h
  have ho := agreeAsInitiator_outcome (c := c) peer bundle (w.fetched bundle answered)
  rw [Proc.wp, hagree] at ho
  cases ho with
  | agreed n run hdrawn =>
    obtain ⟨sealed, w₄, hseal, h⟩ := Proc.bind_eq_ok_iff.mp h
    let w₃ : World B S := { w.fetched bundle answered with drawn := n }
    rcases sealInitial_cases run p { w₃ with trace := .x25519 run.eph :: w₃.trace } with
      ⟨handshake, rfl⟩ | ⟨e, herr⟩
    swap
    · cases (Prod.mk.inj (herr.symm.trans hseal)).1
    obtain ⟨hsealed, rfl⟩ := Prod.mk.inj ((sealInitial_of_sealed handshake w₃).symm.trans hseal)
    obtain rfl := Except.ok.inj hsealed
    obtain ⟨_, w₅, hguard, h⟩ := Proc.bind_eq_ok_iff.mp h
    rcases rememberInitialReplayGuards_cases handshake.agreement.fields.sessionId
        handshake.agreement.transcriptHash _ with ⟨hunseen, hok⟩ | ⟨-, e, herr⟩
    swap
    · cases (Prod.mk.inj (herr.symm.trans hguard)).1
    obtain ⟨-, rfl⟩ := Prod.mk.inj (hok.symm.trans hguard)
    obtain ⟨hpair, rfl⟩ := Prod.mk.inj h
    obtain ⟨rfl, rfl⟩ := Prod.mk.inj (Except.ok.inj hpair)
    exact ⟨⟨bundle, answered, handshake, hfetched,
      ⟨hdrawn.random_ok, hdrawn.ephSeed_eq, hdrawn.spkSeed_eq, hdrawn.opkSeed_eq⟩, hunseen⟩,
      rfl, rfl, rfl, rfl, rfl⟩

theorem initiateSession_moves {server : ServerApi B S} (hc : P c) (hq : server.Quiet v)
    (he : server.Enqueues v) (peer plaintext : B) :
    Preserves (Moves P v w₀) (initiateSession c server peer plaintext) := by
  intro w hw
  rcases initiateSession_cases hc hq peer plaintext w with
    ⟨e, w', h, hm⟩ | ⟨bundle, s, n, run, -, -, hm, h⟩
  · rw [h]
    exact hw.trans hm
  · rw [h]
    exact enqueueAndSave_moves he peer _ _ (hw.trans hm)

/-! ## 8. Responding -/

/-- The key agreement of the responder, spelled out. -/
theorem agreeAsResponder_eq_ok {cl : Client B} {message : InitialMessage B}
    {ecId pqId : UInt32} {kemOpk : B} {a : ResponderAgreement B} :
    agreeAsResponder c cl message ecId pqId kemOpk = .ok a ↔
      ∃ dh1 dh2 dh3 dh4 ssSpkPq ssOpkPq,
        c.x25519SharedSecret cl.signedPrekeyEcPrivate.privateKey
          message.initiatorIdentityDhPublicKey = .ok dh1 ∧
        c.x25519SharedSecret cl.identityDhKey.privateKey
          message.initiatorEphemeralEcPublicKey = .ok dh2 ∧
        c.x25519SharedSecret cl.signedPrekeyEcPrivate.privateKey
          message.initiatorEphemeralEcPublicKey = .ok dh3 ∧
        findOneTimeKey cl.oneTimeEcPool ecId = some a.ec ∧
        c.x25519SharedSecret a.ec.privatePart.privateKey
          message.initiatorEphemeralEcPublicKey = .ok dh4 ∧
        c.mlkem768Decapsulate cl.signedPrekeyPqPrivate.privateKey
          message.kemCiphertextSignedPq = .ok ssSpkPq ∧
        findOneTimeKey cl.oneTimePqPool pqId = some a.pq ∧
        c.mlkem768Decapsulate a.pq.privatePart.privateKey kemOpk = .ok ssOpkPq ∧
        deriveHandshakeKeys c (concat [dh1, dh2, dh3, ssSpkPq, dh4, ssOpkPq])
          message.transcriptHash false = .ok a.keys := by
  rw [agreeAsResponder]
  simp only [Result.bind_eq_ok, Result.within_eq_ok]
  constructor
  · rintro ⟨dh1, h1, dh2, h2, dh3, h3, h⟩
    rcases hec : findOneTimeKey cl.oneTimeEcPool ecId with _ | ec
    · rw [hec] at h
      cases h
    · rw [hec] at h
      simp only [Result.bind_eq_ok, Result.within_eq_ok] at h
      obtain ⟨dh4, h4, ss, h5, h⟩ := h
      rcases hpq : findOneTimeKey cl.oneTimePqPool pqId with _ | pq
      · rw [hpq] at h
        cases h
      · rw [hpq] at h
        simp only [Result.bind_eq_ok, Result.within_eq_ok] at h
        obtain ⟨ss', h6, keys, h7, h⟩ := h
        obtain rfl : (⟨ec, pq, keys⟩ : ResponderAgreement B) = a := by
          simpa [pure, Except.pure] using h
        exact ⟨dh1, dh2, dh3, dh4, ss, ss', h1, h2, h3, rfl, h4, h5, rfl, h6, h7⟩
  · rintro ⟨dh1, dh2, dh3, dh4, ss, ss', h1, h2, h3, hec, h4, h5, hpq, h6, h7⟩
    refine ⟨dh1, h1, dh2, h2, dh3, h3, ?_⟩
    rw [hec]
    simp only [Result.bind_eq_ok, Result.within_eq_ok]
    refine ⟨dh4, h4, ss, h5, ?_⟩
    rw [hpq]
    simp only [Result.bind_eq_ok, Result.within_eq_ok]
    exact ⟨ss', h6, a.keys, h7, rfl⟩

theorem decryptChainStep_eq_ok {chainKey : B} {counter : UInt64} {nonce ct ad : B}
    {opened : B × B} :
    decryptChainStep c chainKey counter nonce ct ad = .ok opened ↔
      ∃ key, deriveMessageKeyAndNextChain c chainKey counter = .ok (key, opened.2) ∧
        aeadOpen c key nonce ct ad = .ok opened.1 := by
  rw [decryptChainStep]
  simp only [Result.bind_eq_ok]
  constructor
  · rintro ⟨⟨key, next⟩, hk, p, hp, h⟩
    obtain rfl : (p, next) = opened := by simpa [pure, Except.pure] using h
    exact ⟨key, hk, hp⟩
  · rintro ⟨key, hk, hp⟩
    exact ⟨(key, opened.2), hk, opened.1, hp, rfl⟩

/-- The world once an initial message is accepted. -/
def World.accepted (w : World B S) {message : InitialMessage B}
    (run : ResponderRun c w.client message) : World B S :=
  { w with
    trace := .accepted message run.ec run.pq run.plaintext :: .receivedInitial message :: w.trace
    client := run.accepted }

/-- **`HandleInitialMessage` accepts exactly the messages of a complete run.** -/
theorem handleInitialMessage_of_run {w : World B S} {message : InitialMessage B}
    (run : ResponderRun c w.client message) :
    handleInitialMessage c message w = (.ok run.plaintext, w.accepted run) := by
  have hcheck : checkInitialMessage c message
      { w with trace := .receivedInitial message :: w.trace } =
      (.ok (), { w with trace := .receivedInitial message :: w.trace }) := by
    have hid := verifyOrRememberPeerIdentity_eq_ok (c := c) (u := ())
      (w := { w with trace := .receivedInitial message :: w.trace }) |>.mpr
      ⟨run.number_ok, rfl, run.identity_ok⟩
    rw [checkInitialMessage, Proc.get_bind_apply, Proc.require_pos run.unseen,
      Proc.require_pos run.signedIds_eq, run.hash_ok, run.signature_ok, run.signatureMldsa_ok]
    simpa using hid
  have hagree : agreeAsResponder c w.client message run.ecId run.pqId run.kemCiphertext =
      .ok ⟨run.ec, run.pq, run.keys⟩ :=
    agreeAsResponder_eq_ok.mpr ⟨_, _, _, _, _, _, run.dh1_ok, run.dh2_ok, run.dh3_ok,
      run.ec_found, run.dh4_ok, run.ssSpk_ok, run.pq_found, run.ssOpk_ok, run.keys_ok⟩
  have hopen : decryptChainStep c run.keys.recv 0 message.initialNonce
      message.initialCiphertext message.transcriptHash = .ok (run.plaintext, run.nextChainKey) :=
    decryptChainStep_eq_ok.mpr ⟨_, run.step_ok, run.open_ok⟩
  have hguard : rememberInitialReplayGuards message.sessionId message.transcriptHash
      { w with trace := .receivedInitial message :: w.trace } =
      (.ok (), { w with
        trace := .receivedInitial message :: w.trace
        client := w.client.remember message.sessionId message.transcriptHash }) := by
    rcases rememberInitialReplayGuards_cases message.sessionId message.transcriptHash
      { w with trace := .receivedInitial message :: w.trace } with ⟨-, h⟩ | ⟨h, -⟩
    · exact h
    · exact absurd h run.unseen
  rw [handleInitialMessage, record, Proc.modify_bind_apply, Proc.get_bind_apply,
    Proc.require_pos run.toUser_eq, Proc.require_pos run.version_eq,
    Proc.require_pos run.suite_eq, run.ecId_eq, run.pqId_eq, run.kem_eq]
  simp only [Proc.pure_bind]
  rw [Proc.bind_ok hcheck, hagree, Proc.ofExcept_ok_bind, hopen, Proc.ofExcept_ok_bind,
    Proc.bind_ok hguard]
  rfl

theorem checkInitialMessage_spec (message : InitialMessage B) {w : World B S}
    (hm : Moves P v w₀ w) :
    Proc.wp (checkInitialMessage c message) (fun r w' => Moves P v w₀ w' ∧
      (r = .ok () → w' = w ∧ CheckedInitial c w.client message)) w := by
  refine Proc.wp_get_bind ?_
  refine Proc.wp_require_bind (fun _ => ⟨hm, nofun⟩) fun hunseen => ?_
  refine Proc.wp_require_bind (fun _ => ⟨hm, nofun⟩) fun hids => ?_
  refine Proc.wp_ofExcept_bind (fun _ _ => ⟨hm, nofun⟩) fun th hth => ?_
  refine Proc.wp_require_bind (fun _ => ⟨hm, nofun⟩) fun heq => ?_
  subst heq
  refine Proc.wp_ofExcept_bind (fun _ _ => ⟨hm, nofun⟩) fun _ hsig => ?_
  refine Proc.wp_ofExcept_bind (fun _ _ => ⟨hm, nofun⟩) fun _ hsigMldsa => ?_
  refine ⟨verifyOrRememberPeerIdentity_moves _ _ _ _ _ hm, fun h => ?_⟩
  obtain ⟨hnum, hsame, hid⟩ := verifyOrRememberPeerIdentity_eq_ok.mp (Prod.ext h rfl)
  exact ⟨hsame, ⟨⟨hunseen, hids, hth, hsig, hsigMldsa, hnum⟩, hid⟩⟩

/-- `HandleInitialMessage` accepts with a complete run, or fails. -/
theorem handleInitialMessage_cases (message : InitialMessage B) (w : World B S) :
    (∃ run : ResponderRun c w.client message,
      handleInitialMessage c message w = (.ok run.plaintext, w.accepted run)) ∨
    ∃ e w', handleInitialMessage c message w = (.error e, w') ∧ Moves P v w w' := by
  let w₁ : World B S := { w with trace := .receivedInitial message :: w.trace }
  have hm : Moves P v w w₁ := .single (.input w _ trivial)
  suffices h : Proc.wp (handleInitialMessage c message) (fun r w' =>
      (∃ run : ResponderRun c w.client message, r = .ok run.plaintext ∧ w' = w.accepted run) ∨
      ∃ e, r = .error e ∧ Moves P v w w') w by
    rcases h with ⟨run, hr, hw⟩ | ⟨e, hr, hw⟩
    · exact Or.inl ⟨run, Prod.ext hr hw⟩
    · exact Or.inr ⟨e, _, Prod.ext hr rfl, hw⟩
  refine Proc.wp_modify_bind (Proc.wp_get_bind ?_)
  refine Proc.wp_require_bind (fun _ => Or.inr ⟨_, rfl, hm⟩) fun huser => ?_
  refine Proc.wp_require_bind (fun _ => Or.inr ⟨_, rfl, hm⟩) fun hversion => ?_
  refine Proc.wp_require_bind (fun _ => Or.inr ⟨_, rfl, hm⟩) fun hsuite => ?_
  rcases hec : message.selectedPrekeys.oneTimeEcId with _ | ecId
  · exact Or.inr ⟨_, rfl, hm⟩
  rcases hpq : message.selectedPrekeys.oneTimePqId with _ | pqId
  · exact Or.inr ⟨_, rfl, hm⟩
  rcases hkem : message.kemCiphertextOneTimePq with _ | kem
  · exact Or.inr ⟨_, rfl, hm⟩
  refine Proc.wp_bind (checkInitialMessage_spec message (w := w₁) hm)
    (fun e w' h => Or.inr ⟨e, rfl, h.1⟩) fun u w' h => ?_
  obtain ⟨rfl, hchecked⟩ := h.2 rfl
  refine Proc.wp_ofExcept_bind (fun _ _ => Or.inr ⟨_, rfl, hm⟩) fun a ha => ?_
  obtain ⟨dh1, dh2, dh3, dh4, ss, ss', h1, h2, h3, hecf, h4, h5, hpqf, h6, h7⟩ :=
    agreeAsResponder_eq_ok.mp ha
  refine Proc.wp_ofExcept_bind (fun _ _ => Or.inr ⟨_, rfl, hm⟩) fun opened hopen => ?_
  obtain ⟨key, hk, hp⟩ := decryptChainStep_eq_ok.mp hopen
  let run : ResponderRun c w.client message :=
    { hchecked with
      ecId, pqId, kemCiphertext := kem, ec := a.ec, pq := a.pq, dh1, dh2, dh3, dh4
      ssSpkPq := ss, ssOpkPq := ss', keys := a.keys, messageKey := key
      nextChainKey := opened.2, plaintext := opened.1, toUser_eq := huser
      version_eq := hversion, suite_eq := hsuite, ecId_eq := hec, pqId_eq := hpq, kem_eq := hkem
      dh1_ok := h1, dh2_ok := h2, dh3_ok := h3, ec_found := hecf, dh4_ok := h4, ssSpk_ok := h5
      pq_found := hpqf, ssOpk_ok := h6, keys_ok := h7, step_ok := hk, open_ok := hp }
  rcases rememberInitialReplayGuards_cases message.sessionId message.transcriptHash w₁ with
    ⟨-, h⟩ | ⟨-, e, h⟩
  · exact Proc.wp_of_bind_ok h (Or.inl ⟨run, rfl, rfl⟩)
  · exact Proc.wp_of_eq (Proc.bind_error h _) (Or.inr ⟨e, rfl, hm⟩)

theorem handleInitialMessage_moves (hc : P c) (message : InitialMessage B) :
    Preserves (Moves P v w₀) (handleInitialMessage c message : Proc (World B S) B) := by
  intro w hw
  rcases handleInitialMessage_cases (c := c) (P := P) (v := v) message w with
    ⟨run, h⟩ | ⟨e, w', h, hm⟩
  · rw [h]
    let w₁ : World B S := { w with trace := .receivedInitial message :: w.trace }
    have h1 : Moves P v w₀ w₁ := hw.tail (.input w _ trivial)
    exact h1.tail (.accept w₁ hc (List.mem_cons_self ..) run)
  · rw [h]
    exact hw.trans hm

/-! ## 9. Whole operations -/

theorem handleEnvelope_moves (hc : P c) (envelope : Envelope B) :
    Preserves (Moves P v w₀) (handleEnvelope c envelope : Proc (World B S) B) := by
  rw [handleEnvelope]
  split
  · exact handleInitialMessage_moves hc _
  · exact handleChatMessage_moves hc _
  · exact .fail _

theorem processItems_moves (hc : P c) : ∀ items : List (InboxEnvelope B),
    Preserves (Moves P v w₀) (processItems c items : Proc (World B S) (BatchResult B))
  | [] => .pure _
  | item :: rest => by
    refine .bind (.attempt (handleEnvelope_moves hc _)) fun status => ?_
    cases status with
    | error e => exact .pure _
    | ok plaintext => exact .bind (processItems_moves hc rest) fun _ => .pure _

theorem drainPasses_moves {server : ServerApi B S} (hc : P c)
    (hq : ∀ u a s, v.quiet s (server.drainInbox u a s).2) : ∀ passes ack plaintexts,
      Preserves (Moves P v w₀) (drainPasses c server passes ack plaintexts)
  | 0, _, _ => .pure _
  | passes + 1, ack, plaintexts => by
    refine .bind .get fun w => .bind (.attempt (callServer_moves (hq _ _))) ?_
    rintro (e | items)
    · refine .bind (setFlags_moves fun cl =>
        (cl.prekeysDirty, ack.or cl.pendingInboxAckUpToId)) fun _ => ?_
      exact .ite (.fail _) (.pure _)
    · refine .bind (setFlags_moves fun cl => (cl.prekeysDirty, none)) fun _ => ?_
      refine .ite (.pure _) (.bind (processItems_moves hc items) fun batch => ?_)
      refine .bind (setFlags_moves fun cl =>
        (cl.prekeysDirty, batch.maxAckableInboxId.or cl.pendingInboxAckUpToId)) fun _ => ?_
      rcases batch.error with _ | e
      · exact drainPasses_moves hc hq passes _ _
      · exact .pure _

theorem republishIfDirty_moves {server : ServerApi B S} (hc : P c) (hq : server.Quiet v)
    (firstError : Option String) :
    Preserves (Moves P v w₀) (republishIfDirty c server firstError) := by
  refine .bind .get fun w => .ite ?_ (.pure _)
  refine .bind (.attempt (refillOneTimePrekeyPools_moves hc)) fun refill => ?_
  rcases refill with e | u
  · rcases firstError with _ | e'
    · exact .pure _
    · refine .bind (.attempt (publishPrekeys_moves hq)) ?_
      rintro (e'' | u)
      · exact .pure _
      · exact .bind (setFlags_moves fun cl => (false, cl.pendingInboxAckUpToId)) fun _ => .pure _
  · refine .bind (.attempt (publishPrekeys_moves hq)) ?_
    rintro (e | u)
    · exact .pure _
    · exact .bind (setFlags_moves fun cl => (false, cl.pendingInboxAckUpToId)) fun _ => .pure _

theorem processInbox_moves {server : ServerApi B S} (hc : P c) (hq : server.Quiet v) :
    Preserves (Moves P v w₀) (processInbox c server) := by
  refine .bind .get fun w => .bind (drainPasses_moves hc hq.drainInbox _ _ _) fun drained => ?_
  refine .bind (republishIfDirty_moves hc hq _) fun firstError => ?_
  split
  · exact .fail _
  · refine .bind (.attempt saveLocalState_moves) fun save => ?_
    split
    · exact .fail _
    · exact .pure _

/-- The two operations that call `EnqueueEnvelope`. -/
def Op.IsSend : Op B → Prop
  | .initiate .. | .send .. => True
  | _ => False

/-- The operation that marks a peer as verified. -/
def Op.IsVerify : Op B → Prop
  | .verifyPeer .. => True
  | _ => False

/-- **Every operation, failed or not, is a sequence of moves.** -/
theorem Op.run_moves {server : ServerApi B S} (hc : P c) (hq : server.Quiet v) (op : Op B)
    (he : op.IsSend → server.Enqueues v) (hv : op.IsVerify → v.verify) (w : World B S) :
    Moves P v w (op.run c server w).2 := by
  have key : Preserves (Moves P v w) (op.run c server) := by
    cases op with
    | publish => exact .bind (publishPrekeys_moves hq) fun _ => .pure _
    | verifyPeer peer number =>
      exact .bind (verifyPeerSafetyNumber_moves (hv trivial) _ _) fun _ => .pure _
    | initiate peer plaintext =>
      exact .bind (initiateSession_moves hc hq (he trivial) _ _) fun _ => .pure _
    | send peer plaintext => exact .bind (sendMessage_moves hc (he trivial) _ _) fun _ => .pure _
    | processInbox => exact processInbox_moves hc hq
    | handleInitial message => exact .bind (handleInitialMessage_moves hc _) fun _ => .pure _
    | handleChat message => exact .bind (handleChatMessage_moves hc _) fun _ => .pure _
    | refill => exact .bind (refillOneTimePrekeyPools_moves hc) fun _ => .pure _
  exact key w .refl

end Elementary

end PqChat
