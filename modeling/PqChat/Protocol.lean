/-
# Messages and prekey bundles

The wire types of `protocol/messages.h` and `protocol/prekey_bundle.h`, the canonical byte
strings that are hashed or signed, and the check of a bundle's signatures.  Every canonical
string is a domain tag followed by length-prefixed fields.
-/
import PqChat.Crypto

namespace PqChat

open ByteString

variable {B : Type}

/-! ## 1. Types -/

/-- `PrekeySelection`. -/
structure PrekeySelection where
  signedPrekeyEcId : UInt32
  signedPrekeyPqId : UInt32
  oneTimeEcId : Option UInt32
  oneTimePqId : Option UInt32
  deriving DecidableEq, Repr

/-- `InitialMessage`. -/
structure InitialMessage (B : Type) where
  sessionId : B
  fromUser : B
  toUser : B
  version : B
  cipherSuite : B
  initiatorIdentitySignPublicKey : B
  initiatorIdentityMldsaPublicKey : B
  initiatorIdentityDhPublicKey : B
  initiatorEphemeralEcPublicKey : B
  selectedPrekeys : PrekeySelection
  kemCiphertextSignedPq : B
  kemCiphertextOneTimePq : Option B
  transcriptHash : B
  handshakeSignatureEd25519 : B
  handshakeSignatureMldsa65 : B
  initialNonce : B
  initialCiphertext : B
  deriving DecidableEq, Repr

/-- `InitialTranscriptFields`. -/
structure InitialTranscriptFields (B : Type) where
  sessionId : B
  fromUser : B
  toUser : B
  version : B
  cipherSuite : B
  initiatorIdentitySignPublicKey : B
  initiatorIdentityMldsaPublicKey : B
  initiatorIdentityDhPublicKey : B
  responderIdentitySignPublicKey : B
  responderIdentityMldsaPublicKey : B
  responderIdentityDhPublicKey : B
  initiatorEphemeralEcPublicKey : B
  selectedPrekeys : PrekeySelection
  kemCiphertextSignedPq : B
  kemCiphertextOneTimePq : Option B
  deriving DecidableEq, Repr

/-- `MessageHeader`. -/
structure MessageHeader (B : Type) where
  senderRatchetPublicKey : Option B := none
  previousChainLength : UInt64 := 0
  messageNumber : UInt64 := 0
  flags : UInt32 := 0
  deriving DecidableEq, Repr

/-- `ChatMessage`. -/
structure ChatMessage (B : Type) where
  sessionId : B
  fromUser : B
  toUser : B
  header : MessageHeader B
  nonce : B
  ciphertext : B
  deriving DecidableEq, Repr

/-- `EnvelopeType`. -/
inductive EnvelopeType
  | kInitial
  | kChat
  deriving DecidableEq, Repr

/-- `Envelope`: the type tag and the two optional payloads are independent fields. -/
structure Envelope (B : Type) where
  type : EnvelopeType
  initial : Option (InitialMessage B)
  chat : Option (ChatMessage B)
  deriving DecidableEq, Repr

def Envelope.fromInitial (m : InitialMessage B) : Envelope B := ⟨.kInitial, some m, none⟩

def Envelope.fromChat (m : ChatMessage B) : Envelope B := ⟨.kChat, none, some m⟩

/-- `InboxEnvelope`. -/
structure InboxEnvelope (B : Type) where
  inboxId : UInt64
  envelope : Envelope B
  deriving DecidableEq, Repr

/-- `SignedPrekeyEc` and `SignedPrekeyPq`, which have the same fields. -/
structure SignedPrekey (B : Type) where
  id : UInt32
  publicKey : B
  signatureEd25519 : B
  signatureMldsa65 : B
  deriving DecidableEq, Repr

/-- `OneTimePrekeyEc` and `OneTimePrekeyPq`, which have the same fields. -/
structure OneTimePrekey (B : Type) where
  id : UInt32
  publicKey : B
  deriving DecidableEq, Repr

/-- `PrekeyBundle`. -/
structure PrekeyBundle (B : Type) where
  userId : B
  identitySignPublicKey : B
  identityMldsaPublicKey : B
  identityDhPublicKey : B
  signedPrekeyEc : SignedPrekey B
  signedPrekeyPq : SignedPrekey B
  oneTimeEc : List (OneTimePrekey B)
  oneTimePq : List (OneTimePrekey B)
  bundleSignatureEd25519 : B
  bundleSignatureMldsa65 : B
  version : B
  cipherSuite : B
  deriving DecidableEq, Repr

/-! ## 2. Canonical strings -/

section Canonical

variable [ByteString B] [DecidableEq B] (c : Crypto B)

def kProtocolVersion : B := text "pqchat-v1"

def kCipherSuite : B := text "X25519+ML-KEM-768+ChaCha20-Poly1305+HKDF-SHA256"

/-- The string `ComputeInitialTranscriptHash` hashes. -/
def initialTranscript (fields : InitialTranscriptFields B) : B :=
  let out := appendBytes empty (text "pqchat_initial_transcript_v1")
  let out := appendBytes out fields.sessionId
  let out := appendBytes out fields.fromUser
  let out := appendBytes out fields.toUser
  let out := appendBytes out fields.version
  let out := appendBytes out fields.cipherSuite
  let out := appendBytes out fields.initiatorIdentitySignPublicKey
  let out := appendBytes out fields.initiatorIdentityMldsaPublicKey
  let out := appendBytes out fields.initiatorIdentityDhPublicKey
  let out := appendBytes out fields.responderIdentitySignPublicKey
  let out := appendBytes out fields.responderIdentityMldsaPublicKey
  let out := appendBytes out fields.responderIdentityDhPublicKey
  let out := appendBytes out fields.initiatorEphemeralEcPublicKey
  let out := appendUint32 out fields.selectedPrekeys.signedPrekeyEcId
  let out := appendUint32 out fields.selectedPrekeys.signedPrekeyPqId
  let out := appendOption appendUint32 out fields.selectedPrekeys.oneTimeEcId
  let out := appendOption appendUint32 out fields.selectedPrekeys.oneTimePqId
  let out := appendBytes out fields.kemCiphertextSignedPq
  appendOption appendBytes out fields.kemCiphertextOneTimePq

/-- `ComputeInitialTranscriptHash`. -/
def computeInitialTranscriptHash (fields : InitialTranscriptFields B) : Result B :=
  if fields.version ≠ kProtocolVersion then .error "unsupported initial message version"
  else if fields.cipherSuite ≠ kCipherSuite then
    .error "unsupported initial message cipher suite"
  else c.sha256 (initialTranscript fields)

/-- The string `BuildChatAssociatedData` hashes. -/
def chatAssociatedData (message : ChatMessage B) : B :=
  let out := appendBytes empty (text "pqchat_chat_ad_v1")
  let out := appendBytes out message.sessionId
  let out := appendBytes out message.fromUser
  let out := appendBytes out message.toUser
  let out := appendUint64 out message.header.previousChainLength
  let out := appendUint64 out message.header.messageNumber
  let out := appendUint32 out message.header.flags
  appendOption appendBytes out message.header.senderRatchetPublicKey

/-- `BuildChatAssociatedData`. -/
def buildChatAssociatedData (message : ChatMessage B) : Result B :=
  c.sha256 (chatAssociatedData message)

/-- `ToTagged`. -/
def toTagged (tag : String) (keyId : UInt32) (key : B) : B :=
  appendBytes (appendUint32 (appendBytes empty (text tag)) keyId) key

def buildEcPrekeySignInput (keyId : UInt32) (publicKey : B) : B :=
  toTagged "pqchat_ec_prekey_v1" keyId publicKey

def buildPqPrekeySignInput (keyId : UInt32) (publicKey : B) : B :=
  toTagged "pqchat_pq_prekey_v1" keyId publicKey

/-- The fields of a signed prekey inside a bundle's signed string. -/
def appendSignedPrekey (out : B) (key : SignedPrekey B) : B :=
  let out := appendUint32 out key.id
  let out := appendBytes out key.publicKey
  let out := appendBytes out key.signatureEd25519
  appendBytes out key.signatureMldsa65

/-- `BuildBundleSignInput`.  The one-time prekeys are NOT part of it. -/
def buildBundleSignInput (bundle : PrekeyBundle B) : B :=
  let out := appendBytes empty (text "pqchat_bundle_sig_v2")
  let out := appendBytes out bundle.userId
  let out := appendBytes out bundle.identitySignPublicKey
  let out := appendBytes out bundle.identityMldsaPublicKey
  let out := appendBytes out bundle.identityDhPublicKey
  let out := appendSignedPrekey out bundle.signedPrekeyEc
  let out := appendSignedPrekey out bundle.signedPrekeyPq
  let out := appendBytes out bundle.version
  appendBytes out bundle.cipherSuite

/-- A call whose error is passed on behind a text. -/
def Result.within {α : Type} (p : String) (r : Result α) : Result α :=
  r.mapError (p ++ ·)

omit [ByteString B] [DecidableEq B] in
theorem Result.within_eq_ok {α : Type} {p : String} {r : Result α} {a : α} :
    Result.within p r = .ok a ↔ r = .ok a := by
  cases r <;> simp [Result.within, Except.mapError]

omit [ByteString B] [DecidableEq B] in
theorem Result.bind_eq_ok {α β : Type} {r : Result α} {f : α → Result β} {b : β} :
    (r >>= f) = .ok b ↔ ∃ a, r = .ok a ∧ f a = .ok b := by
  cases r <;> simp [bind, Except.bind]

/-- `VerifyPrekeyBundleSignatures`. -/
def verifyPrekeyBundleSignatures (bundle : PrekeyBundle B) : Result Unit := do
  if bundle.version ≠ kProtocolVersion then throw "unsupported bundle version"
  if bundle.cipherSuite ≠ kCipherSuite then throw "unsupported bundle cipher suite"
  let ecInput := buildEcPrekeySignInput bundle.signedPrekeyEc.id bundle.signedPrekeyEc.publicKey
  Result.within "signed_prekey_ec ed25519 signature invalid: "
    (c.ed25519Verify bundle.identitySignPublicKey ecInput bundle.signedPrekeyEc.signatureEd25519)
  Result.within "signed_prekey_ec mldsa signature invalid: "
    (c.mldsa65Verify bundle.identityMldsaPublicKey ecInput
      bundle.signedPrekeyEc.signatureMldsa65)
  let pqInput := buildPqPrekeySignInput bundle.signedPrekeyPq.id bundle.signedPrekeyPq.publicKey
  Result.within "signed_prekey_pq ed25519 signature invalid: "
    (c.ed25519Verify bundle.identitySignPublicKey pqInput bundle.signedPrekeyPq.signatureEd25519)
  Result.within "signed_prekey_pq mldsa signature invalid: "
    (c.mldsa65Verify bundle.identityMldsaPublicKey pqInput
      bundle.signedPrekeyPq.signatureMldsa65)
  let bundleInput := buildBundleSignInput bundle
  Result.within "bundle ed25519 signature invalid: "
    (c.ed25519Verify bundle.identitySignPublicKey bundleInput bundle.bundleSignatureEd25519)
  Result.within "bundle mldsa signature invalid: "
    (c.mldsa65Verify bundle.identityMldsaPublicKey bundleInput bundle.bundleSignatureMldsa65)

end Canonical

end PqChat
