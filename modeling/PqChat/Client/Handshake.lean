/-
# The handshake

`InitiateSession` and `HandleInitialMessage`, with the pinning of peer identities and the
replay guards they use.  The two functions rebuild the same transcript and the same key
material from opposite ends; each is cut here into the steps of the source, so that the two
ends can be compared step by step.
-/
import PqChat.Client.Ratchet

namespace PqChat

open ByteString

variable {B S : Type} [ByteString B] [DecidableEq B] (c : Crypto B)

/-! ## 1. Peer identities -/

/-- `ComputeSafetyNumber`. -/
def computeSafetyNumber (peerUser signPublicKey mldsaPublicKey dhPublicKey : B) : Result B := do
  let out := appendBytes empty (text "pqchat_peer_safety_number_v1")
  let out := appendBytes out peerUser
  let out := appendBytes out signPublicKey
  let out := appendBytes out mldsaPublicKey
  let out := appendBytes out dhPublicKey
  let hash ← c.sha256 out
  pure (hexEncode hash)

/-- `VerifyOrRememberPeerIdentity`: it succeeds only for an identity that is known, unchanged
and verified.  An unknown identity is remembered as unverified, and saved. -/
def verifyOrRememberPeerIdentity (peerUser signPublicKey mldsaPublicKey dhPublicKey : B) :
    Proc (World B S) Unit := do
  let safetyNumber ← Proc.ofExcept ""
    (computeSafetyNumber c peerUser signPublicKey mldsaPublicKey dhPublicKey)
  let unverified := "peer identity is not verified; safety number: " ++ display safetyNumber
  let w ← Proc.get
  match w.client.trustedPeerIdentities.lookup peerUser with
  | none => do
    modifyClient fun cl => { cl with
      trustedPeerIdentities := cl.trustedPeerIdentities.insert peerUser
        ⟨signPublicKey, mldsaPublicKey, dhPublicKey, false⟩ }
    Proc.within "persist local state failed: " saveLocalState
    Proc.fail unverified
  | some existing => do
    Proc.require (existing.signPublicKey = signPublicKey ∧
        existing.mldsaPublicKey = mldsaPublicKey ∧ existing.dhPublicKey = dhPublicKey)
      "peer identity key mismatch for trusted contact"
    Proc.require (existing.verified = true) unverified

/-- `VerifyPeerSafetyNumber`. -/
def verifyPeerSafetyNumber (peerUser expectedSafetyNumber : B) : Proc (World B S) Unit := do
  let w ← Proc.get
  match w.client.trustedPeerIdentities.lookup peerUser with
  | none => Proc.fail "peer identity not known"
  | some peer => do
    let computed ← Proc.ofExcept ""
      (computeSafetyNumber c peerUser peer.signPublicKey peer.mldsaPublicKey peer.dhPublicKey)
    Proc.require (computed = expectedSafetyNumber) "peer safety number mismatch"
    modifyClient fun cl => { cl with
      trustedPeerIdentities := cl.trustedPeerIdentities.insert peerUser
        { peer with verified := true } }
    Proc.within "persist local state failed: " saveLocalState

/-! ## 2. Replay guards -/

/-- Insert into the set and push to the back of the deque. -/
def ReplayGuard.push (g : ReplayGuard B) (x : B) : ReplayGuard B :=
  ⟨insert x g.seen, g.order ++ [x]⟩

/-- Undo a `push`: erase from the set, and pop the back of the deque if it is `x`. -/
def ReplayGuard.retract (g : ReplayGuard B) (x : B) : ReplayGuard B :=
  ⟨g.seen.erase x, if g.order.getLast? = some x then g.order.dropLast else g.order⟩

/-- Drop the oldest entries while there are more than `max` of them. -/
def evictOldest (max : Nat) (seen : Finset B) : List B → ReplayGuard B
  | [] => ⟨seen, []⟩
  | oldest :: rest =>
    if max < rest.length + 1 then evictOldest max (seen.erase oldest) rest
    else ⟨seen, oldest :: rest⟩

def ReplayGuard.evict (g : ReplayGuard B) : ReplayGuard B :=
  evictOldest kMaxInitialReplayGuards g.seen g.order

/-- `RememberInitialReplayGuards`. -/
def rememberInitialReplayGuards (sessionId transcriptHash : B) : Proc (World B S) Unit := do
  let transcriptKey := hexEncode transcriptHash
  let w ← Proc.get
  Proc.require (sessionId ∉ w.client.seenInitialSessions.seen)
    "duplicate initial session id rejected"
  modifyClient fun cl => { cl with
    seenInitialSessions := cl.seenInitialSessions.push sessionId }
  if transcriptKey ∈ w.client.seenInitialTranscripts.seen then do
    modifyClient fun cl => { cl with
      seenInitialSessions := cl.seenInitialSessions.retract sessionId }
    Proc.fail "duplicate initial transcript rejected"
  else
    modifyClient fun cl => { cl with
      seenInitialSessions := cl.seenInitialSessions.evict
      seenInitialTranscripts := (cl.seenInitialTranscripts.push transcriptKey).evict }

/-- `HasSeenInitialReplayGuard`. -/
def Client.hasSeenInitialReplayGuard (cl : Client B) (sessionId transcriptHash : B) : Prop :=
  sessionId ∈ cl.seenInitialSessions.seen ∨
    hexEncode transcriptHash ∈ cl.seenInitialTranscripts.seen

instance (cl : Client B) (sessionId transcriptHash : B) :
    Decidable (cl.hasSeenInitialReplayGuard sessionId transcriptHash) :=
  inferInstanceAs (Decidable (_ ∨ _))

/-! ## 3. Initiating -/

/-- `NewSessionId`: sixteen random bytes in hexadecimal. -/
def newSessionId : Proc (World B S) B := do
  let seed ← draw
  let random ← Proc.ofExcept "" (c.randBytes16 seed)
  pure (hexEncode random)

/-- `MlKem768::Encapsulate`. -/
def encapsulate (publicKey : B) : Proc (World B S) (EncapResult B) := do
  let seed ← draw
  Proc.ofExcept "" (c.mlkem768Encapsulate seed publicKey)

/-- The first part of `InitiateSession`: acquire the peer's bundle and check it. -/
def fetchPeerBundle (server : ServerApi B S) (peerUser : B) :
    Proc (World B S) (PrekeyBundle B) := do
  let bundle ← Proc.within "failed to fetch peer bundle: "
    (callServer (server.acquireBundleForSession peerUser))
  record (.receivedBundle bundle)
  Proc.require (bundle.userId = peerUser) "peer bundle user mismatch"
  Proc.require (bundle.version = kProtocolVersion)
    "peer bundle uses unsupported protocol version"
  Proc.require (bundle.cipherSuite = kCipherSuite) "peer bundle uses unsupported cipher suite"
  Proc.ofExcept "peer bundle verification failed: " (verifyPrekeyBundleSignatures c bundle)
  verifyOrRememberPeerIdentity c peerUser bundle.identitySignPublicKey
    bundle.identityMldsaPublicKey bundle.identityDhPublicKey
  pure bundle

/-- The transcript fields the initiator fills in. -/
def initiatorTranscript (cl : Client B) (peerUser : B) (bundle : PrekeyBundle B)
    (sessionId ephPublic : B) (ec pq : OneTimePrekey B) (kemSpk kemOpk : B) :
    InitialTranscriptFields B where
  sessionId := sessionId
  fromUser := cl.userId
  toUser := peerUser
  version := kProtocolVersion
  cipherSuite := kCipherSuite
  initiatorIdentitySignPublicKey := cl.identitySignKey.publicKey
  initiatorIdentityMldsaPublicKey := cl.identityMldsaKey.publicKey
  initiatorIdentityDhPublicKey := cl.identityDhKey.publicKey
  responderIdentitySignPublicKey := bundle.identitySignPublicKey
  responderIdentityMldsaPublicKey := bundle.identityMldsaPublicKey
  responderIdentityDhPublicKey := bundle.identityDhPublicKey
  initiatorEphemeralEcPublicKey := ephPublic
  selectedPrekeys :=
    { signedPrekeyEcId := bundle.signedPrekeyEc.id
      signedPrekeyPqId := bundle.signedPrekeyPq.id
      oneTimeEcId := some ec.id
      oneTimePqId := some pq.id }
  kemCiphertextSignedPq := kemSpk
  kemCiphertextOneTimePq := some kemOpk

/-- What `InitiateSession` has computed when it starts to fill in the session and the
message. -/
structure InitiatorAgreement (B : Type) where
  fields : InitialTranscriptFields B
  eph : KeyPair B
  transcriptHash : B
  signatureEd25519 : B
  signatureMldsa65 : B
  keys : HandshakeKeys B

/-- The middle part of `InitiateSession`: session id, key agreement, transcript, signatures
and keys. -/
def agreeAsInitiator (peerUser : B) (bundle : PrekeyBundle B) :
    Proc (World B S) (InitiatorAgreement B) := do
  let sessionId ← newSessionId c
  match bundle.oneTimeEc, bundle.oneTimePq with
  | ec :: _, pq :: _ => do
    let eph ← Proc.within "ephemeral keygen failed: " (generateX25519 c)
    let w ← Proc.get
    let dh1 ← Proc.ofExcept "dh1 failed: " (c.x25519SharedSecret
      w.client.identityDhKey.privateKey bundle.signedPrekeyEc.publicKey)
    let dh2 ← Proc.ofExcept "dh2 failed: " (c.x25519SharedSecret
      eph.privateKey bundle.identityDhPublicKey)
    let dh3 ← Proc.ofExcept "dh3 failed: " (c.x25519SharedSecret
      eph.privateKey bundle.signedPrekeyEc.publicKey)
    let dh4 ← Proc.ofExcept "dh4 failed: " (c.x25519SharedSecret eph.privateKey ec.publicKey)
    let kemSpk ← Proc.within "KEM encaps to signed prekey failed: "
      (encapsulate c bundle.signedPrekeyPq.publicKey)
    let kemOpk ← Proc.within "KEM encaps to one-time prekey failed: "
      (encapsulate c pq.publicKey)
    let fields := initiatorTranscript w.client peerUser bundle sessionId eph.publicKey ec pq
      kemSpk.ciphertext kemOpk.ciphertext
    let transcriptHash ← Proc.ofExcept "transcript hash failed: "
      (computeInitialTranscriptHash c fields)
    let signature ← Proc.ofExcept "handshake ed25519 signature failed: "
      (c.ed25519Sign w.client.identitySignKey.privateKey transcriptHash)
    let signatureMldsa ← Proc.ofExcept "handshake mldsa signature failed: "
      (c.mldsa65Sign w.client.identityMldsaKey.privateKey transcriptHash)
    let keys ← Proc.ofExcept "handshake key schedule failed: " (deriveHandshakeKeys c
      (concat [dh1, dh2, dh3, kemSpk.sharedSecret, dh4, kemOpk.sharedSecret])
      transcriptHash true)
    pure ⟨fields, eph, transcriptHash, signature, signatureMldsa, keys⟩
  | _, _ => Proc.fail "peer has no one-time prekeys available"

/-- The initial message, before the ciphertext is filled in. -/
def InitiatorAgreement.message (a : InitiatorAgreement B) (nonce ciphertext : B) :
    InitialMessage B where
  sessionId := a.fields.sessionId
  fromUser := a.fields.fromUser
  toUser := a.fields.toUser
  version := kProtocolVersion
  cipherSuite := kCipherSuite
  initiatorIdentitySignPublicKey := a.fields.initiatorIdentitySignPublicKey
  initiatorIdentityMldsaPublicKey := a.fields.initiatorIdentityMldsaPublicKey
  initiatorIdentityDhPublicKey := a.fields.initiatorIdentityDhPublicKey
  initiatorEphemeralEcPublicKey := a.eph.publicKey
  selectedPrekeys := a.fields.selectedPrekeys
  kemCiphertextSignedPq := a.fields.kemCiphertextSignedPq
  kemCiphertextOneTimePq := a.fields.kemCiphertextOneTimePq
  transcriptHash := a.transcriptHash
  handshakeSignatureEd25519 := a.signatureEd25519
  handshakeSignatureMldsa65 := a.signatureMldsa65
  initialNonce := nonce
  initialCiphertext := ciphertext

/-- The session the initiator starts with, once the initial message is sealed: the chain key
has moved on and the send counter is 1. -/
def InitiatorAgreement.session (a : InitiatorAgreement B) (peerUser : B)
    (bundle : PrekeyBundle B) (nextChainKey : B) : SessionState B where
  sessionId := a.fields.sessionId
  peerUser := peerUser
  isInitiator := true
  rootKey := a.keys.root
  sendChainKey := nextChainKey
  recvChainKey := a.keys.recv
  sendCounter := 1
  localRatchetKey := a.eph
  remoteRatchetPublic := bundle.signedPrekeyEc.publicKey

/-- The initial message of an agreement, sealed at counter 0, and the session that goes with
it. -/
def sealInitial (peerUser : B) (bundle : PrekeyBundle B) (a : InitiatorAgreement B)
    (plaintext : B) : Proc (World B S) (InitialMessage B × SessionState B) := do
  let sealed ← Proc.within "encrypt initial payload failed: "
    (encryptChainStep c a.keys.send 0 (nonceFromCounter 0) plaintext a.transcriptHash)
  let message := a.message (nonceFromCounter 0) sealed.1
  record (.initiated message plaintext)
  pure (message, a.session peerUser bundle sealed.2)

/-- `InitiateSession`. -/
def initiateSession (server : ServerApi B S) (peerUser initialPlaintext : B) :
    Proc (World B S) Unit := do
  let bundle ← fetchPeerBundle c server peerUser
  let agreement ← agreeAsInitiator c peerUser bundle
  let sealed ← sealInitial c peerUser bundle agreement initialPlaintext
  rememberInitialReplayGuards agreement.fields.sessionId agreement.transcriptHash
  setSession peerUser sealed.2
  enqueueAndSave server peerUser (.fromInitial sealed.1)

/-! ## 4. Responding -/

/-- The transcript fields the responder fills in from the message and its own identity. -/
def responderTranscript (cl : Client B) (message : InitialMessage B) :
    InitialTranscriptFields B where
  sessionId := message.sessionId
  fromUser := message.fromUser
  toUser := message.toUser
  version := message.version
  cipherSuite := message.cipherSuite
  initiatorIdentitySignPublicKey := message.initiatorIdentitySignPublicKey
  initiatorIdentityMldsaPublicKey := message.initiatorIdentityMldsaPublicKey
  initiatorIdentityDhPublicKey := message.initiatorIdentityDhPublicKey
  responderIdentitySignPublicKey := cl.identitySignKey.publicKey
  responderIdentityMldsaPublicKey := cl.identityMldsaKey.publicKey
  responderIdentityDhPublicKey := cl.identityDhKey.publicKey
  initiatorEphemeralEcPublicKey := message.initiatorEphemeralEcPublicKey
  selectedPrekeys := message.selectedPrekeys
  kemCiphertextSignedPq := message.kemCiphertextSignedPq
  kemCiphertextOneTimePq := message.kemCiphertextOneTimePq

/-- `std::find_if` by id in a one-time pool. -/
def findOneTimeKey (pool : List (OneTimeKey B)) (id : UInt32) : Option (OneTimeKey B) :=
  pool.find? fun key => key.publicPart.id = id

/-- `erase` of what `findOneTimeKey` has found. -/
def eraseOneTimeKey (pool : List (OneTimeKey B)) (id : UInt32) : List (OneTimeKey B) :=
  pool.eraseP fun key => key.publicPart.id = id

/-- The one-time keys a handshake used up and the keys it led to. -/
structure ResponderAgreement (B : Type) where
  ec : OneTimeKey B
  pq : OneTimeKey B
  keys : HandshakeKeys B

/-- The key agreement of `HandleInitialMessage`. -/
def agreeAsResponder (cl : Client B) (message : InitialMessage B) (ecId pqId : UInt32)
    (kemOpk : B) : Result (ResponderAgreement B) := do
  let dh1 ← Result.within "dh1 failed: " (c.x25519SharedSecret
    cl.signedPrekeyEcPrivate.privateKey message.initiatorIdentityDhPublicKey)
  let dh2 ← Result.within "dh2 failed: " (c.x25519SharedSecret
    cl.identityDhKey.privateKey message.initiatorEphemeralEcPublicKey)
  let dh3 ← Result.within "dh3 failed: " (c.x25519SharedSecret
    cl.signedPrekeyEcPrivate.privateKey message.initiatorEphemeralEcPublicKey)
  match findOneTimeKey cl.oneTimeEcPool ecId with
  | none => throw "one-time EC key id unavailable"
  | some ec => do
    let dh4 ← Result.within "dh4 failed: " (c.x25519SharedSecret
      ec.privatePart.privateKey message.initiatorEphemeralEcPublicKey)
    let ssSpkPq ← Result.within "decapsulate signed PQ prekey failed: "
      (c.mlkem768Decapsulate cl.signedPrekeyPqPrivate.privateKey message.kemCiphertextSignedPq)
    match findOneTimeKey cl.oneTimePqPool pqId with
    | none => throw "one-time PQ key id unavailable"
    | some pq => do
      let ssOpkPq ← Result.within "decapsulate one-time PQ prekey failed: "
        (c.mlkem768Decapsulate pq.privatePart.privateKey kemOpk)
      let keys ← Result.within "handshake key schedule failed: " (deriveHandshakeKeys c
        (concat [dh1, dh2, dh3, ssSpkPq, dh4, ssOpkPq]) message.transcriptHash false)
      pure ⟨ec, pq, keys⟩

/-- The session the responder starts with, once the initial message is opened. -/
def responderSession (cl : Client B) (message : InitialMessage B) (keys : HandshakeKeys B)
    (nextChainKey : B) : SessionState B where
  sessionId := message.sessionId
  peerUser := message.fromUser
  isInitiator := false
  rootKey := keys.root
  sendChainKey := keys.send
  recvChainKey := nextChainKey
  recvCounter := 1
  localRatchetKey := cl.signedPrekeyEcPrivate
  remoteRatchetPublic := message.initiatorEphemeralEcPublicKey

/-- The checks of `HandleInitialMessage` that do not look at the one-time keys. -/
def checkInitialMessage (message : InitialMessage B) : Proc (World B S) Unit := do
  let w ← Proc.get
  Proc.require (¬ w.client.hasSeenInitialReplayGuard message.sessionId message.transcriptHash)
    "duplicate initial handshake rejected"
  Proc.require (message.selectedPrekeys.signedPrekeyEcId = w.client.signedPrekeyEcPublic.id ∧
      message.selectedPrekeys.signedPrekeyPqId = w.client.signedPrekeyPqPublic.id)
    "initial message selected unknown signed prekey id"
  let transcriptHash ← Proc.ofExcept "transcript hash failed: "
    (computeInitialTranscriptHash c (responderTranscript w.client message))
  Proc.require (transcriptHash = message.transcriptHash) "transcript hash mismatch"
  Proc.ofExcept "handshake ed25519 signature invalid: "
    (c.ed25519Verify message.initiatorIdentitySignPublicKey message.transcriptHash
      message.handshakeSignatureEd25519)
  Proc.ofExcept "handshake mldsa signature invalid: "
    (c.mldsa65Verify message.initiatorIdentityMldsaPublicKey message.transcriptHash
      message.handshakeSignatureMldsa65)
  verifyOrRememberPeerIdentity c message.fromUser message.initiatorIdentitySignPublicKey
    message.initiatorIdentityMldsaPublicKey message.initiatorIdentityDhPublicKey

/-- `HandleInitialMessage`.  The result is the plaintext it pushes to its output vector. -/
def handleInitialMessage (message : InitialMessage B) : Proc (World B S) B := do
  record (.receivedInitial message)
  let w ← Proc.get
  Proc.require (message.toUser = w.client.userId) "initial message recipient mismatch"
  Proc.require (message.version = kProtocolVersion)
    "initial message uses unsupported protocol version"
  Proc.require (message.cipherSuite = kCipherSuite)
    "initial message uses unsupported cipher suite"
  match message.selectedPrekeys.oneTimeEcId, message.selectedPrekeys.oneTimePqId,
      message.kemCiphertextOneTimePq with
  | some ecId, some pqId, some kemOpk => do
    checkInitialMessage c message
    let agreement ← Proc.ofExcept "" (agreeAsResponder c w.client message ecId pqId kemOpk)
    let opened ← Proc.ofExcept "initial payload decrypt failed: "
      (decryptChainStep c agreement.keys.recv 0 message.initialNonce message.initialCiphertext
        message.transcriptHash)
    rememberInitialReplayGuards message.sessionId message.transcriptHash
    modifyClient fun cl => { cl with
      oneTimeEcPool := eraseOneTimeKey cl.oneTimeEcPool ecId
      oneTimePqPool := eraseOneTimeKey cl.oneTimePqPool pqId
      prekeysDirty := true
      sessionsByPeer := cl.sessionsByPeer.insert message.fromUser
        (responderSession cl message agreement.keys opened.2) }
    record (.accepted message agreement.ec agreement.pq opened.1)
    pure opened.1
  | _, _, _ => Proc.fail "initial message must include one-time EC and PQ prekeys"

end PqChat
