/-
# Prekeys, the inbox, and creation

`RefillOneTimePrekeyPools`, `BuildPrekeyBundle`, `PublishPrekeys`, `ProcessInbox` and
`Create`.  The loops of the source are recursions on the number of rounds they can make: a
refill makes as many rounds as keys are missing, the search for an unused id at most 32, the
inbox at most `kMaxInboxDrainPasses`.

The last section lists the operations of a client as data, so that a run is a list of them.
-/
import PqChat.Client.Handshake

namespace PqChat

open ByteString

variable {B S : Type} [ByteString B] [DecidableEq B] (c : Crypto B)

/-! ## 1. One-time prekeys -/

/-- The lambda `id_in_use` of `GenerateUniqueOneTimePrekeyId`. -/
def Client.idInUse (cl : Client B) (candidate : UInt32) : Prop :=
  (∃ key ∈ cl.oneTimeEcPool, key.publicPart.id = candidate) ∨
    ∃ key ∈ cl.oneTimePqPool, key.publicPart.id = candidate

instance (cl : Client B) (candidate : UInt32) : Decidable (cl.idInUse candidate) :=
  inferInstanceAs (Decidable (_ ∨ _))

/-- `GenerateUniqueOneTimePrekeyId`, with the number of attempts left. -/
def generateUniqueOneTimePrekeyId : Nat → Proc (World B S) UInt32
  | 0 => Proc.fail "failed to generate unique one-time prekey id"
  | attempts + 1 => do
    let seed ← draw
    let candidate ← Proc.ofExcept "" (c.randUint32 seed)
    let w ← Proc.get
    if candidate = 0 ∨ w.client.idInUse candidate then generateUniqueOneTimePrekeyId attempts
    else pure candidate

/-- A fresh key under an unused id. -/
def OneTimeKey.make (id : UInt32) (pair : KeyPair B) : OneTimeKey B :=
  ⟨⟨id, pair.publicKey⟩, pair⟩

/-- The EC loop of `RefillOneTimePrekeyPools`, for as many keys as are missing. -/
def refillEc : Nat → Proc (World B S) Unit
  | 0 => pure ()
  | missing + 1 => do
    let pair ← Proc.within "one-time EC keygen failed: " (generateX25519 c)
    let id ← generateUniqueOneTimePrekeyId c 32
    modifyClient fun cl => { cl with
      oneTimeEcPool := cl.oneTimeEcPool ++ [OneTimeKey.make id pair]
      prekeysDirty := true }
    refillEc missing

/-- The PQ loop of `RefillOneTimePrekeyPools`. -/
def refillPq : Nat → Proc (World B S) Unit
  | 0 => pure ()
  | missing + 1 => do
    let pair ← Proc.within "one-time PQ keygen failed: " (generateMlKem c)
    let id ← generateUniqueOneTimePrekeyId c 32
    modifyClient fun cl => { cl with
      oneTimePqPool := cl.oneTimePqPool ++ [OneTimeKey.make id pair]
      prekeysDirty := true }
    refillPq missing

/-- `RefillOneTimePrekeyPools`. -/
def refillOneTimePrekeyPools : Proc (World B S) Unit := do
  let w ← Proc.get
  refillEc c (kOneTimePrekeyPoolTarget - w.client.oneTimeEcPool.length)
  refillPq c (kOneTimePrekeyPoolTarget - w.client.oneTimePqPool.length)

/-! ## 2. Publishing -/

/-- A signature that could not be made is left empty. -/
def signatureOrEmpty (r : Result B) : B := r.toOption.getD empty

/-- The bundle of a client without the signature over it. -/
def Client.unsignedBundle (cl : Client B) : PrekeyBundle B where
  userId := cl.userId
  identitySignPublicKey := cl.identitySignKey.publicKey
  identityMldsaPublicKey := cl.identityMldsaKey.publicKey
  identityDhPublicKey := cl.identityDhKey.publicKey
  signedPrekeyEc := cl.signedPrekeyEcPublic
  signedPrekeyPq := cl.signedPrekeyPqPublic
  oneTimeEc := cl.oneTimeEcPool.map OneTimeKey.publicPart
  oneTimePq := cl.oneTimePqPool.map OneTimeKey.publicPart
  bundleSignatureEd25519 := empty
  bundleSignatureMldsa65 := empty
  version := kProtocolVersion
  cipherSuite := kCipherSuite

/-- `BuildPrekeyBundle`. -/
def Client.buildPrekeyBundle (cl : Client B) : PrekeyBundle B :=
  let bundleSignInput := buildBundleSignInput cl.unsignedBundle
  { cl.unsignedBundle with
    bundleSignatureEd25519 :=
      signatureOrEmpty (c.ed25519Sign cl.identitySignKey.privateKey bundleSignInput)
    bundleSignatureMldsa65 :=
      signatureOrEmpty (c.mldsa65Sign cl.identityMldsaKey.privateKey bundleSignInput) }

/-- `PublishPrekeys`. -/
def publishPrekeys (server : ServerApi B S) : Proc (World B S) Unit := do
  let w ← Proc.get
  callServer (server.publishBundle (w.client.buildPrekeyBundle c))
  modifyClient fun cl => { cl with prekeysDirty := false }
  Proc.within "persist local state failed: " saveLocalState

/-! ## 3. The inbox -/

/-- The dispatch of `ProcessInbox` on the type of an envelope. -/
def handleEnvelope (envelope : Envelope B) : Proc (World B S) B :=
  match envelope.type, envelope.initial, envelope.chat with
  | .kInitial, some message, _ => handleInitialMessage c message
  | .kChat, _, some message => handleChatMessage c message
  | _, _, _ => Proc.fail "invalid envelope"

/-- What one batch of envelopes led to. -/
structure BatchResult (B : Type) where
  plaintexts : List B
  maxAckableInboxId : Option UInt64
  error : Option String

/-- The inner loop of `ProcessInbox`: it stops at the first envelope that fails. -/
def processItems : List (InboxEnvelope B) → Proc (World B S) (BatchResult B)
  | [] => pure ⟨[], none, none⟩
  | item :: rest => do
    let status ← Proc.attempt (handleEnvelope c item.envelope)
    match status with
    | .error e => pure ⟨[], none, some e⟩
    | .ok plaintext => do
      let result ← processItems rest
      pure ⟨plaintext :: result.plaintexts,
        result.maxAckableInboxId.or (some item.inboxId), result.error⟩

/-- The outer loop of `ProcessInbox`, with the passes left, the acknowledgement to send and
the plaintexts so far.  The error it returns is `first_error`. -/
def drainPasses (server : ServerApi B S) : Nat → Option UInt64 → List B →
    Proc (World B S) (List B × Option String)
  | 0, _, plaintexts => pure (plaintexts, none)
  | passes + 1, ackToSend, plaintexts => do
    let w ← Proc.get
    let drained ← Proc.attempt (callServer (server.drainInbox w.client.userId ackToSend))
    match drained with
    | .error e => do
      modifyClient fun cl => { cl with
        pendingInboxAckUpToId := ackToSend.or cl.pendingInboxAckUpToId }
      if plaintexts = [] then Proc.fail ("drain inbox failed: " ++ e)
      else pure (plaintexts, some ("drain inbox failed: " ++ e))
    | .ok items => do
      modifyClient fun cl => { cl with pendingInboxAckUpToId := none }
      if items = [] then pure (plaintexts, none)
      else do
        let batch ← processItems c items
        modifyClient fun cl => { cl with
          pendingInboxAckUpToId := batch.maxAckableInboxId.or cl.pendingInboxAckUpToId }
        match batch.error with
        | some e => pure (plaintexts ++ batch.plaintexts, some e)
        | none =>
          drainPasses server passes batch.maxAckableInboxId (plaintexts ++ batch.plaintexts)

/-- The refill and republish of `ProcessInbox`.  A failed refill is reported, and stops the
republish, only if nothing else has failed before. -/
def republishIfDirty (server : ServerApi B S) (firstError : Option String) :
    Proc (World B S) (Option String) := do
  let w ← Proc.get
  if w.client.prekeysDirty then do
    let refill ← Proc.attempt (refillOneTimePrekeyPools c)
    match refill, firstError with
    | .error e, none => pure (some ("prekey pool refill failed: " ++ e))
    | _, _ => do
      let publish ← Proc.attempt (publishPrekeys c server)
      match publish with
      | .error e => pure (firstError.or (some ("prekey republish failed: " ++ e)))
      | .ok _ => do
        modifyClient fun cl => { cl with prekeysDirty := false }
        pure firstError
  else pure firstError

/-- `ProcessInbox`. -/
def processInbox (server : ServerApi B S) : Proc (World B S) (List B) := do
  let w ← Proc.get
  let drained ← drainPasses c server kMaxInboxDrainPasses w.client.pendingInboxAckUpToId []
  let firstError ← republishIfDirty c server drained.2
  match drained.1, firstError with
  | [], some e => Proc.fail e
  | plaintexts, _ => do
    let save ← Proc.attempt saveLocalState
    match save, plaintexts with
    | .error e, [] => Proc.fail ("persist local state failed: " ++ e)
    | _, _ => pure plaintexts

/-! ## 4. Creation -/

/-- The signatures over a new signed prekey. -/
def signPrekey (signKey mldsaKey : KeyPair B) (id : UInt32) (publicKey input : B)
    (what : String) : Proc (World B S) (SignedPrekey B) := do
  let signature ← Proc.ofExcept ("signed prekey " ++ what ++ " signature failed: ")
    (c.ed25519Sign signKey.privateKey input)
  let signatureMldsa ← Proc.ofExcept ("signed prekey " ++ what ++ " ML-DSA signature failed: ")
    (c.mldsa65Sign mldsaKey.privateKey input)
  pure ⟨id, publicKey, signature, signatureMldsa⟩

/-- The identity and the signed prekeys of a new client. -/
def freshIdentity : Proc (World B S) Unit := do
  let signSeed ← draw
  let signKey ← Proc.ofExcept "identity Ed25519 keygen failed: " (c.ed25519Generate signSeed)
  let mldsaSeed ← draw
  let mldsaKey ← Proc.ofExcept "identity ML-DSA keygen failed: " (c.mldsa65Generate mldsaSeed)
  let dhKey ← Proc.within "identity X25519 keygen failed: " (generateX25519 c)
  let spkEc ← Proc.within "signed prekey EC keygen failed: " (generateX25519 c)
  let spkEcPublic ← signPrekey c signKey mldsaKey 1 spkEc.publicKey
    (buildEcPrekeySignInput 1 spkEc.publicKey) "EC"
  let spkPq ← Proc.within "signed prekey PQ keygen failed: " (generateMlKem c)
  let spkPqPublic ← signPrekey c signKey mldsaKey 1 spkPq.publicKey
    (buildPqPrekeySignInput 1 spkPq.publicKey) "PQ"
  modifyClient fun cl => { cl with
    identitySignKey := signKey, identityMldsaKey := mldsaKey, identityDhKey := dhKey
    signedPrekeyEcPublic := spkEcPublic, signedPrekeyEcPrivate := spkEc
    signedPrekeyPqPublic := spkPqPublic, signedPrekeyPqPrivate := spkPq }

/-- `Create`: the stored client if there is one, a new one if there is none. -/
def create (userId : B) : Proc (World B S) Unit := do
  modifyClient fun _ => Client.blank userId
  let loadState ← Proc.attempt loadLocalState
  match loadState with
  | .ok _ => do
    Proc.within "state load prekey refill failed: " (refillOneTimePrekeyPools c)
    Proc.within "state persist failed: " saveLocalState
  | .error e => do
    Proc.require (e = "state file missing") ("failed loading local state: " ++ e)
    freshIdentity c
    Proc.within "one-time prekey pool init failed: " (refillOneTimePrekeyPools c)
    Proc.within "state persist failed: " saveLocalState

/-! ## 5. Operations as data -/

/-- A call of a member function that can change something.  The last three are private: they
are what `ProcessInbox` is made of. -/
inductive Op (B : Type)
  | publish
  | verifyPeer (peerUser safetyNumber : B)
  | initiate (peerUser plaintext : B)
  | send (peerUser plaintext : B)
  | processInbox
  | handleInitial (message : InitialMessage B)
  | handleChat (message : ChatMessage B)
  | refill
  deriving DecidableEq, Repr

/-- Make the call.  The value is the list of plaintexts it outputs. -/
def Op.run (server : ServerApi B S) : Op B → Proc (World B S) (List B)
  | .publish => do publishPrekeys c server; pure []
  | .verifyPeer peerUser safetyNumber => do
    verifyPeerSafetyNumber c peerUser safetyNumber; pure []
  | .initiate peerUser plaintext => do initiateSession c server peerUser plaintext; pure []
  | .send peerUser plaintext => do sendMessage c server peerUser plaintext; pure []
  | .processInbox => PqChat.processInbox c server
  | .handleInitial message => do let plaintext ← handleInitialMessage c message; pure [plaintext]
  | .handleChat message => do let plaintext ← handleChatMessage c message; pure [plaintext]
  | .refill => do refillOneTimePrekeyPools c; pure []

end PqChat
