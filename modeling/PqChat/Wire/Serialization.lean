/-
# The wire format

`protocol/serialization.cpp`.  The `Writer` appends, so a serializer is the list of its fields
in order; it is written for any kind of byte string.  The `Reader` works on bytes: its state is
what is left of the input, and every failed read carries the error text of the source.

Writers know no limits.  Readers do: `kMaxStringBytes` for a string, `kMaxFieldBytes` for other
bytes, a number of items for a list, and `kMaxSerializedInputBytes` for the whole input.
-/
import PqChat.Lib.Codec
import PqChat.Transport

namespace PqChat

open ByteString Codec

/-- `std::vector<uint8_t>`. -/
abbrev Bytes := List UInt8

def kMaxSerializedInputBytes : Nat := 8 * 1024 * 1024
def kMaxFieldBytes : UInt32 := 1024 * 1024
def kMaxStringBytes : UInt32 := 64 * 1024
def kMaxOneTimePrekeys : UInt32 := 4096
def kMaxEnvelopeVectorItems : UInt32 := 4096

/-! ## 1. The writer -/

namespace Writer

variable {B : Type} [ByteString B]

def u8 (out : B) (value : UInt8) : B := out ++ ofBytes [value]

def u32 (out : B) (value : UInt32) : B := appendUint32 out value

def u64 (out : B) (value : UInt64) : B := appendUint64 out value

def bytes (out value : B) : B := u32 out (UInt32.ofNat (size value)) ++ value

def string (out value : B) : B := bytes out value

/-- A tag, and the value if there is one: `OptionalU32` and `OptionalBytes`. -/
def optional {α : Type} (put : B → α → B) (out : B) : Option α → B
  | none => u8 out 0
  | some value => put (u8 out 1) value

def optionalU32 (out : B) (value : Option UInt32) : B := optional u32 out value

def optionalBytes (out : B) (value : Option B) : B := optional bytes out value

end Writer

section Serialize

variable {B : Type} [ByteString B]

def writePrekeySelection (out : B) (selection : PrekeySelection) : B :=
  let out := Writer.u32 out selection.signedPrekeyEcId
  let out := Writer.u32 out selection.signedPrekeyPqId
  let out := Writer.optionalU32 out selection.oneTimeEcId
  Writer.optionalU32 out selection.oneTimePqId

def writeMessageHeader (out : B) (header : MessageHeader B) : B :=
  let out := Writer.optionalBytes out header.senderRatchetPublicKey
  let out := Writer.u64 out header.previousChainLength
  let out := Writer.u64 out header.messageNumber
  Writer.u32 out header.flags

def writeInitialMessage (out : B) (message : InitialMessage B) : B :=
  let out := Writer.string out message.sessionId
  let out := Writer.string out message.fromUser
  let out := Writer.string out message.toUser
  let out := Writer.string out message.version
  let out := Writer.string out message.cipherSuite
  let out := Writer.bytes out message.initiatorIdentitySignPublicKey
  let out := Writer.bytes out message.initiatorIdentityMldsaPublicKey
  let out := Writer.bytes out message.initiatorIdentityDhPublicKey
  let out := Writer.bytes out message.initiatorEphemeralEcPublicKey
  let out := writePrekeySelection out message.selectedPrekeys
  let out := Writer.bytes out message.kemCiphertextSignedPq
  let out := Writer.optionalBytes out message.kemCiphertextOneTimePq
  let out := Writer.bytes out message.transcriptHash
  let out := Writer.bytes out message.handshakeSignatureEd25519
  let out := Writer.bytes out message.handshakeSignatureMldsa65
  let out := Writer.bytes out message.initialNonce
  Writer.bytes out message.initialCiphertext

def writeChatMessage (out : B) (message : ChatMessage B) : B :=
  let out := Writer.string out message.sessionId
  let out := Writer.string out message.fromUser
  let out := Writer.string out message.toUser
  let out := writeMessageHeader out message.header
  let out := Writer.bytes out message.nonce
  Writer.bytes out message.ciphertext

/-- `WriteSignedPrekeyEc` and `WriteSignedPrekeyPq`. -/
def writeSignedPrekey (out : B) (spk : SignedPrekey B) : B :=
  let out := Writer.u32 out spk.id
  let out := Writer.bytes out spk.publicKey
  let out := Writer.bytes out spk.signatureEd25519
  Writer.bytes out spk.signatureMldsa65

/-- `WriteOneTimeEc` and `WriteOneTimePq`. -/
def writeOneTime (out : B) (oneTime : List (OneTimePrekey B)) : B :=
  oneTime.foldl (fun out key => Writer.bytes (Writer.u32 out key.id) key.publicKey)
    (Writer.u32 out (UInt32.ofNat oneTime.length))

def serializePrekeyBundle (bundle : PrekeyBundle B) : Result B :=
  let out := Writer.string empty bundle.userId
  let out := Writer.bytes out bundle.identitySignPublicKey
  let out := Writer.bytes out bundle.identityMldsaPublicKey
  let out := Writer.bytes out bundle.identityDhPublicKey
  let out := writeSignedPrekey out bundle.signedPrekeyEc
  let out := writeSignedPrekey out bundle.signedPrekeyPq
  let out := writeOneTime out bundle.oneTimeEc
  let out := writeOneTime out bundle.oneTimePq
  let out := Writer.bytes out bundle.bundleSignatureEd25519
  let out := Writer.bytes out bundle.bundleSignatureMldsa65
  let out := Writer.string out bundle.version
  .ok (Writer.string out bundle.cipherSuite)

def serializeEnvelope (envelope : Envelope B) : Result B :=
  match envelope.type with
  | .kInitial =>
    match envelope.initial with
    | none => .error "serialize envelope failed: initial payload missing"
    | some message => .ok (writeInitialMessage (Writer.u8 empty 0) message)
  | .kChat =>
    match envelope.chat with
    | none => .error "serialize envelope failed: chat payload missing"
    | some message => .ok (writeChatMessage (Writer.u8 empty 1) message)

/-- The loop of `SerializeEnvelopeVector`. -/
def writeEnvelopes (out : B) : List (Envelope B) → Result B
  | [] => .ok out
  | envelope :: rest => do
    let encoded ← serializeEnvelope envelope
    writeEnvelopes (Writer.bytes out encoded) rest

def serializeEnvelopeVector (envelopes : List (Envelope B)) : Result B :=
  writeEnvelopes (Writer.u32 empty (UInt32.ofNat envelopes.length)) envelopes

/-- The loop of `SerializeInboxEnvelopeVector`. -/
def writeInboxEnvelopes (out : B) : List (InboxEnvelope B) → Result B
  | [] => .ok out
  | item :: rest => do
    let encoded ← serializeEnvelope item.envelope
    writeInboxEnvelopes (Writer.bytes (Writer.u64 out item.inboxId) encoded) rest

def serializeInboxEnvelopeVector (envelopes : List (InboxEnvelope B)) : Result B :=
  writeInboxEnvelopes (Writer.u32 empty (UInt32.ofNat envelopes.length)) envelopes

def serializeString (value : B) : Result B := .ok (Writer.string empty value)

def serializeEnqueueRequest (request : EnqueueRequest B) : Result B := do
  let envelope ← serializeEnvelope request.envelope
  let out := Writer.string empty request.userId
  pure (Writer.bytes out envelope)

def serializeDrainInboxRequest (request : DrainInboxRequest B) : Result B :=
  let out := Writer.string empty request.userId
  .ok (Writer.optional Writer.u64 out request.ackUpToInboxId)

def serializeRegisterRequest (request : RegisterRequest B) : Result B :=
  let out := Writer.string empty request.userId
  let out := Writer.bytes out request.transportAuthPublicKey
  let out := Writer.string out request.registrationToken
  let out := Writer.bytes out request.proofSignatureMldsa65
  .ok (Writer.optionalBytes out request.rotationSignatureMldsa65)

def serializeAuthBeginRequest (request : AuthBeginRequest B) : Result B :=
  let out := Writer.string empty request.userId
  .ok (Writer.bytes out request.clientNonce)

def serializeAuthBeginResponse (response : AuthBeginResponse B) : Result B :=
  let out := Writer.string empty response.challengeId
  let out := Writer.bytes out response.serverNonce
  .ok (Writer.u64 out response.expiresAtUnix)

def serializeAuthFinishRequest (request : AuthFinishRequest B) : Result B :=
  let out := Writer.string empty request.userId
  let out := Writer.string out request.challengeId
  let out := Writer.bytes out request.clientNonce
  let out := Writer.bytes out request.serverNonce
  let out := Writer.u64 out request.expiresAtUnix
  .ok (Writer.bytes out request.signatureMldsa65)

def serializeAuthFinishResponse (response : AuthFinishResponse B) : Result B :=
  let out := Writer.bytes empty response.sessionToken
  .ok (Writer.u64 out response.expiresAtUnix)

def serializeAuthenticatedPayload (payload : AuthenticatedPayload B) : Result B :=
  let out := Writer.bytes empty payload.sessionToken
  .ok (Writer.bytes out payload.payload)

end Serialize

/-! ## 2. The reader -/

/-- The state of a `Reader` is the input from `pos_` on. -/
abbrev Reader (α : Type) := Proc Bytes α

namespace Reader

def u8 : Reader UInt8 := fun input =>
  match input with
  | a :: rest => (.ok a, rest)
  | rest => (.error "unexpected EOF while reading u8", rest)

def u32 : Reader UInt32 := fun input =>
  match input with
  | a :: b :: c :: d :: rest => (.ok (ofBe32 a b c d), rest)
  | rest => (.error "unexpected EOF while reading u32", rest)

def u64 : Reader UInt64 := fun input =>
  if input.length < 8 then (.error "unexpected EOF while reading u64", input)
  else (.ok (ofBe64 (input.take 8)), input.drop 8)

def limitU32 (value max : UInt32) (label : String) : Reader Unit :=
  Proc.require (value ≤ max) ("decoded " ++ label ++ " exceeds limit")

/-- The last part of `Bytes`: the next `len` bytes. -/
def take (len : Nat) : Reader Bytes := fun input =>
  if input.length < len then (.error "unexpected EOF while reading bytes", input)
  else (.ok (input.take len), input.drop len)

/-- `Bytes` with its limit and its label. -/
def bytesUpTo (maxLen : UInt32) (label : String) : Reader Bytes := do
  let len ← u32
  limitU32 len maxLen label
  take len.toNat

def bytes : Reader Bytes := bytesUpTo kMaxFieldBytes "bytes"

def string : Reader Bytes := bytesUpTo kMaxStringBytes "string"

/-- `OptionalU32` and `OptionalBytes`. -/
def optional {α : Type} (error : String) (get : Reader α) : Reader (Option α) := do
  let present ← u8
  if present = 0 then pure none
  else if present ≠ 1 then Proc.fail error
  else do
    let value ← get
    pure (some value)

def optionalU32 : Reader (Option UInt32) := optional "invalid optional u32 tag" u32

def optionalBytes : Reader (Option Bytes) := optional "invalid optional bytes tag" bytes

/-- The check that nothing is left. -/
def finished (error : String) : Reader Unit := do
  let rest ← Proc.get
  Proc.require (rest = []) error

end Reader

def readPrekeySelection : Reader PrekeySelection := do
  let signedPrekeyEcId ← Reader.u32
  let signedPrekeyPqId ← Reader.u32
  let oneTimeEcId ← Reader.optionalU32
  let oneTimePqId ← Reader.optionalU32
  pure ⟨signedPrekeyEcId, signedPrekeyPqId, oneTimeEcId, oneTimePqId⟩

def readMessageHeader : Reader (MessageHeader Bytes) := do
  let senderRatchetPublicKey ← Reader.optionalBytes
  let previousChainLength ← Reader.u64
  let messageNumber ← Reader.u64
  let flags ← Reader.u32
  pure ⟨senderRatchetPublicKey, previousChainLength, messageNumber, flags⟩

def readInitialMessage : Reader (InitialMessage Bytes) := do
  let sessionId ← Reader.string
  let fromUser ← Reader.string
  let toUser ← Reader.string
  let version ← Reader.string
  let cipherSuite ← Reader.string
  let initiatorIdentitySignPublicKey ← Reader.bytes
  let initiatorIdentityMldsaPublicKey ← Reader.bytes
  let initiatorIdentityDhPublicKey ← Reader.bytes
  let initiatorEphemeralEcPublicKey ← Reader.bytes
  let selectedPrekeys ← readPrekeySelection
  let kemCiphertextSignedPq ← Reader.bytes
  let kemCiphertextOneTimePq ← Reader.optionalBytes
  let transcriptHash ← Reader.bytes
  let handshakeSignatureEd25519 ← Reader.bytes
  let handshakeSignatureMldsa65 ← Reader.bytes
  let initialNonce ← Reader.bytes
  let initialCiphertext ← Reader.bytes
  pure ⟨sessionId, fromUser, toUser, version, cipherSuite, initiatorIdentitySignPublicKey,
    initiatorIdentityMldsaPublicKey, initiatorIdentityDhPublicKey,
    initiatorEphemeralEcPublicKey, selectedPrekeys, kemCiphertextSignedPq,
    kemCiphertextOneTimePq, transcriptHash, handshakeSignatureEd25519,
    handshakeSignatureMldsa65, initialNonce, initialCiphertext⟩

def readChatMessage : Reader (ChatMessage Bytes) := do
  let sessionId ← Reader.string
  let fromUser ← Reader.string
  let toUser ← Reader.string
  let header ← readMessageHeader
  let nonce ← Reader.bytes
  let ciphertext ← Reader.bytes
  pure ⟨sessionId, fromUser, toUser, header, nonce, ciphertext⟩

/-- `ReadSignedPrekeyEc` and `ReadSignedPrekeyPq`. -/
def readSignedPrekey : Reader (SignedPrekey Bytes) := do
  let id ← Reader.u32
  let publicKey ← Reader.bytes
  let signatureEd25519 ← Reader.bytes
  let signatureMldsa65 ← Reader.bytes
  pure ⟨id, publicKey, signatureEd25519, signatureMldsa65⟩

def readOneTimePrekey : Reader (OneTimePrekey Bytes) := do
  let id ← Reader.u32
  let publicKey ← Reader.bytes
  pure ⟨id, publicKey⟩

/-- `ReadOneTimeEc` and `ReadOneTimePq`, which differ in the label. -/
def readOneTime (label : String) : Reader (List (OneTimePrekey Bytes)) := do
  let count ← Reader.u32
  Reader.limitU32 count kMaxOneTimePrekeys label
  readMany readOneTimePrekey count.toNat

/-! ## 3. Deserializers -/

def validateInputSize (bytes : Bytes) (label : String) : Result Unit :=
  if bytes.length > kMaxSerializedInputBytes then .error (label ++ " too large") else .ok ()

/-- The common shape: check the size of the input, read the fields, and check that nothing is
left. -/
def deserializeWith {α : Type} (label what : String) (read : Reader α) (bytes : Bytes) :
    Result α := do
  validateInputSize bytes label
  let reader : Reader α := do
    let value ← Proc.within ("decode " ++ what ++ " failed: ") read
    Reader.finished ("decode " ++ what ++ " failed: trailing bytes")
    pure value
  (reader bytes).1

def readPrekeyBundle : Reader (PrekeyBundle Bytes) := do
  let userId ← Reader.string
  let identitySignPublicKey ← Reader.bytes
  let identityMldsaPublicKey ← Reader.bytes
  let identityDhPublicKey ← Reader.bytes
  let signedPrekeyEc ← readSignedPrekey
  let signedPrekeyPq ← readSignedPrekey
  let oneTimeEc ← readOneTime "one-time EC prekey count"
  let oneTimePq ← readOneTime "one-time PQ prekey count"
  let bundleSignatureEd25519 ← Reader.bytes
  let bundleSignatureMldsa65 ← Reader.bytes
  let version ← Reader.string
  let cipherSuite ← Reader.string
  pure ⟨userId, identitySignPublicKey, identityMldsaPublicKey, identityDhPublicKey,
    signedPrekeyEc, signedPrekeyPq, oneTimeEc, oneTimePq, bundleSignatureEd25519,
    bundleSignatureMldsa65, version, cipherSuite⟩

def deserializePrekeyBundle (bytes : Bytes) : Result (PrekeyBundle Bytes) :=
  deserializeWith "prekey bundle payload" "prekey bundle" readPrekeyBundle bytes

/-- The tag decides what is read. -/
def readEnvelope : Reader (Envelope Bytes) := do
  let tag ← Proc.within "decode envelope failed: " Reader.u8
  if tag = 0 then do
    let initial ← Proc.within "decode initial message failed: " readInitialMessage
    pure (.fromInitial initial)
  else if tag = 1 then do
    let chat ← Proc.within "decode chat message failed: " readChatMessage
    pure (.fromChat chat)
  else Proc.fail "decode envelope failed: unknown tag"

def deserializeEnvelope (bytes : Bytes) : Result (Envelope Bytes) := do
  validateInputSize bytes "envelope payload"
  let reader : Reader (Envelope Bytes) := do
    let envelope ← readEnvelope
    Reader.finished "decode envelope failed: trailing bytes"
    pure envelope
  (reader bytes).1

/-- One round of the loop of `DeserializeEnvelopeVector`. -/
def readEnvelopeItem : Reader (Envelope Bytes) := do
  let encoded ← Proc.within "decode envelope vector item failed: " Reader.bytes
  Proc.ofExcept "" (deserializeEnvelope encoded)

def readEnvelopes : Reader (List (Envelope Bytes)) := do
  let count ← Proc.within "decode envelope vector failed: " Reader.u32
  Proc.within "decode envelope vector failed: "
    (Reader.limitU32 count kMaxEnvelopeVectorItems "envelope vector count")
  readMany readEnvelopeItem count.toNat

def deserializeEnvelopeVector (bytes : Bytes) : Result (List (Envelope Bytes)) := do
  validateInputSize bytes "envelope vector payload"
  let reader : Reader (List (Envelope Bytes)) := do
    let out ← readEnvelopes
    Reader.finished "decode envelope vector failed: trailing bytes"
    pure out
  (reader bytes).1

/-- One round of the loop of `DeserializeInboxEnvelopeVector`. -/
def readInboxEnvelopeItem : Reader (InboxEnvelope Bytes) := do
  let inboxId ← Proc.within "decode inbox envelope vector item failed: " Reader.u64
  let encoded ← Proc.within "decode inbox envelope vector item failed: " Reader.bytes
  let envelope ← Proc.ofExcept "" (deserializeEnvelope encoded)
  pure ⟨inboxId, envelope⟩

def readInboxEnvelopes : Reader (List (InboxEnvelope Bytes)) := do
  let count ← Proc.within "decode inbox envelope vector failed: " Reader.u32
  Proc.within "decode inbox envelope vector failed: "
    (Reader.limitU32 count kMaxEnvelopeVectorItems "inbox envelope vector count")
  readMany readInboxEnvelopeItem count.toNat

def deserializeInboxEnvelopeVector (bytes : Bytes) : Result (List (InboxEnvelope Bytes)) := do
  validateInputSize bytes "inbox envelope vector payload"
  let reader : Reader (List (InboxEnvelope Bytes)) := do
    let out ← readInboxEnvelopes
    Reader.finished "decode inbox envelope vector failed: trailing bytes"
    pure out
  (reader bytes).1

def deserializeString (bytes : Bytes) : Result Bytes :=
  deserializeWith "string payload" "string" Reader.string bytes

/-- The envelope is decoded after the check for trailing bytes. -/
def deserializeEnqueueRequest (bytes : Bytes) : Result (EnqueueRequest Bytes) := do
  let fields ← deserializeWith "enqueue request payload" "enqueue request" (do
    let userId ← Reader.string
    let envelopeBytes ← Reader.bytes
    pure (userId, envelopeBytes)) bytes
  let envelope ← deserializeEnvelope fields.2
  pure ⟨fields.1, envelope⟩

/-- The acknowledgement of a `DrainInboxRequest`. -/
def readAck : Reader (Option UInt64) := do
  let hasAck ← Reader.u8
  if hasAck = 1 then do
    let id ← Reader.u64
    pure (some id)
  else if hasAck ≠ 0 then Proc.fail "invalid ack tag"
  else pure none

def readDrainInboxRequest : Reader (DrainInboxRequest Bytes) := do
  let userId ← Reader.string
  let ackUpToInboxId ← readAck
  pure ⟨userId, ackUpToInboxId⟩

def deserializeDrainInboxRequest (bytes : Bytes) : Result (DrainInboxRequest Bytes) :=
  deserializeWith "drain inbox request payload" "drain inbox request" readDrainInboxRequest bytes

def readRegisterRequest : Reader (RegisterRequest Bytes) := do
  let userId ← Reader.string
  let transportAuthPublicKey ← Reader.bytes
  let registrationToken ← Reader.string
  let proofSignatureMldsa65 ← Reader.bytes
  let rotationSignatureMldsa65 ← Reader.optionalBytes
  pure ⟨userId, transportAuthPublicKey, registrationToken, proofSignatureMldsa65,
    rotationSignatureMldsa65⟩

def deserializeRegisterRequest (bytes : Bytes) : Result (RegisterRequest Bytes) :=
  deserializeWith "register request payload" "register request" readRegisterRequest bytes

def readAuthBeginRequest : Reader (AuthBeginRequest Bytes) := do
  let userId ← Reader.string
  let clientNonce ← Reader.bytes
  pure ⟨userId, clientNonce⟩

def deserializeAuthBeginRequest (bytes : Bytes) : Result (AuthBeginRequest Bytes) :=
  deserializeWith "auth begin request payload" "auth begin request" readAuthBeginRequest bytes

def readAuthBeginResponse : Reader (AuthBeginResponse Bytes) := do
  let challengeId ← Reader.string
  let serverNonce ← Reader.bytes
  let expiresAtUnix ← Reader.u64
  pure ⟨challengeId, serverNonce, expiresAtUnix⟩

def deserializeAuthBeginResponse (bytes : Bytes) : Result (AuthBeginResponse Bytes) :=
  deserializeWith "auth begin response payload" "auth begin response" readAuthBeginResponse bytes

def readAuthFinishRequest : Reader (AuthFinishRequest Bytes) := do
  let userId ← Reader.string
  let challengeId ← Reader.string
  let clientNonce ← Reader.bytes
  let serverNonce ← Reader.bytes
  let expiresAtUnix ← Reader.u64
  let signatureMldsa65 ← Reader.bytes
  pure ⟨userId, challengeId, clientNonce, serverNonce, expiresAtUnix, signatureMldsa65⟩

def deserializeAuthFinishRequest (bytes : Bytes) : Result (AuthFinishRequest Bytes) :=
  deserializeWith "auth finish request payload" "auth finish request" readAuthFinishRequest bytes

def readAuthFinishResponse : Reader (AuthFinishResponse Bytes) := do
  let sessionToken ← Reader.bytes
  let expiresAtUnix ← Reader.u64
  pure ⟨sessionToken, expiresAtUnix⟩

def deserializeAuthFinishResponse (bytes : Bytes) : Result (AuthFinishResponse Bytes) :=
  deserializeWith "auth finish response payload" "auth finish response" readAuthFinishResponse
    bytes

def readAuthenticatedPayload : Reader (AuthenticatedPayload Bytes) := do
  let sessionToken ← Reader.bytes
  let payload ← Reader.bytes
  pure ⟨sessionToken, payload⟩

def deserializeAuthenticatedPayload (bytes : Bytes) : Result (AuthenticatedPayload Bytes) :=
  deserializeWith "authenticated payload" "authenticated payload" readAuthenticatedPayload bytes

end PqChat
