/-
# Key schedule, sending and receiving chat messages

`SendMessage` and `HandleChatMessage` with the derivations they share.  Both assign to the
session IN PLACE while they go: a call that fails late leaves what it has assigned so far.
That is why they are `Proc`s and why the session is written back where the source writes it.
-/
import PqChat.Client.State

namespace PqChat

open ByteString

variable {B S : Type} [ByteString B] [DecidableEq B] (c : Crypto B)

/-! ## 1. Key schedule -/

/-- `DeriveKeyMaterial`. -/
def deriveKeyMaterial (ikm salt : B) (label : String) (context : B) (outLen : Nat) : Result B :=
  c.hkdfSha256 ikm salt (concat [text label, context]) outLen

/-- The three keys `DeriveHandshakeKeys` returns. -/
structure HandshakeKeys (B : Type) where
  root : B
  send : B
  recv : B

/-- `DeriveHandshakeKeys`: the initiator sends on the second 32 bytes and receives on the
third, the responder the other way round. -/
def deriveHandshakeKeys (ikm transcriptHash : B) (initiator : Bool) :
    Result (HandshakeKeys B) := do
  let material ← deriveKeyMaterial c ikm empty "pqchat_handshake_keys_v1" transcriptHash 96
  let c1 := slice material 32 64
  let c2 := slice material 64 96
  if initiator then pure ⟨slice material 0 32, c1, c2⟩
  else pure ⟨slice material 0 32, c2, c1⟩

/-- `DeriveMessageKeyAndNextChain`: the message key and the next chain key. -/
def deriveMessageKeyAndNextChain (chainKey : B) (counter : UInt64) : Result (B × B) := do
  let bytes ← deriveKeyMaterial c chainKey empty "pqchat_chain_step_v1"
    (ofBytes (be64 counter)) 64
  pure (slice bytes 0 32, slice bytes 32 64)

/-- `DeriveRatchetRootAndChain`: the new chain key and the new root key. -/
def deriveRatchetRootAndChain (dh rootKey : B) : Result (B × B) := do
  let bytes ← deriveKeyMaterial c dh rootKey "pqchat_ratchet_step_v1" empty 64
  pure (slice bytes 0 32, slice bytes 32 64)

/-- `EncryptChainStep`: the ciphertext and the advanced chain key. -/
def encryptChainStep (chainKey : B) (counter : UInt64) (nonce plaintext ad : B) :
    Proc (World B S) (B × B) := do
  let keys ← Proc.ofExcept "" (deriveMessageKeyAndNextChain c chainKey counter)
  let ciphertext ← sealRecorded c keys.1 nonce plaintext ad
  pure (ciphertext, keys.2)

/-- `DecryptChainStep`: the plaintext and the advanced chain key. -/
def decryptChainStep (chainKey : B) (counter : UInt64) (nonce ciphertext ad : B) :
    Result (B × B) := do
  let keys ← deriveMessageKeyAndNextChain c chainKey counter
  let plaintext ← aeadOpen c keys.1 nonce ciphertext ad
  pure (plaintext, keys.2)

/-! ## 2. Sending -/

/-- Is the next send a ratcheting one? -/
def SessionState.ratchetDue (session : SessionState B) : Prop :=
  0 < session.sendCounter ∧ session.sendCounter % kRatchetInterval = 0

instance (session : SessionState B) : Decidable session.ratchetDue :=
  inferInstanceAs (Decidable (_ ∧ _))

/-- The ratchet step of `SendMessage`, with the header it prepares.  The session is stored as
soon as the new keys are known, before anything is encrypted. -/
def sendRatchet (peerUser : B) (session : SessionState B) :
    Proc (World B S) (SessionState B × MessageHeader B) :=
  if session.ratchetDue then do
    let newRatchet ← Proc.within "ratchet keygen failed: " (generateX25519 c)
    let dh ← Proc.ofExcept "ratchet DH failed: "
      (c.x25519SharedSecret newRatchet.privateKey session.remoteRatchetPublic)
    let mixed ← Proc.ofExcept "ratchet KDF failed: "
      (deriveRatchetRootAndChain c dh session.rootKey)
    let ratcheted := { session with
      localRatchetKey := newRatchet
      sendChainKey := mixed.1
      rootKey := mixed.2
      previousSendChainLength := session.sendCounter
      sendCounter := 0 }
    setSession peerUser ratcheted
    pure (ratcheted,
      { senderRatchetPublicKey := some newRatchet.publicKey
        previousChainLength := session.previousSendChainLength
        flags := 1 })
  else pure (session, {})

/-- `EnqueueEnvelope` followed by `SaveLocalState`, the end of both sending operations. -/
def enqueueAndSave (server : ServerApi B S) (peerUser : B) (envelope : Envelope B) :
    Proc (World B S) Unit := do
  callServer (server.enqueueEnvelope peerUser envelope)
  Proc.within "persist local state failed: " saveLocalState

/-- The message `SendMessage` encrypts for, before the ciphertext is filled in. -/
def chatMessage (userId peerUser : B) (session : SessionState B) (header : MessageHeader B) :
    ChatMessage B where
  sessionId := session.sessionId
  fromUser := userId
  toUser := peerUser
  header := { header with messageNumber := session.sendCounter }
  nonce := nonceFromCounter session.sendCounter
  ciphertext := empty

/-- The encryption of `SendMessage`: seal under the next message key and store the advanced
session. -/
def sealStep (userId peerUser : B) (step : SessionState B × MessageHeader B) (plaintext : B) :
    Proc (World B S) (ChatMessage B) := do
  let message := chatMessage userId peerUser step.1 step.2
  let ad ← Proc.ofExcept "chat AD failed: " (buildChatAssociatedData c message)
  let sealed ← Proc.within "message encryption failed: "
    (encryptChainStep c step.1.sendChainKey step.1.sendCounter message.nonce plaintext ad)
  setSession peerUser { step.1 with
    sendChainKey := sealed.2
    sendCounter := step.1.sendCounter + 1 }
  pure { message with ciphertext := sealed.1 }

/-- `SendMessage` up to the point where the message is ready to be enqueued. -/
def sealChat (peerUser : B) (session : SessionState B) (plaintext : B) :
    Proc (World B S) (ChatMessage B) := do
  let w ← Proc.get
  let step ← sendRatchet c peerUser session
  sealStep c w.client.userId peerUser step plaintext

/-- `SendMessage`. -/
def sendMessage (server : ServerApi B S) (peerUser plaintext : B) : Proc (World B S) Unit := do
  let w ← Proc.get
  match w.client.sessionsByPeer.lookup peerUser with
  | none => Proc.fail "no active session with peer"
  | some session => do
    let message ← sealChat c peerUser session plaintext
    enqueueAndSave server peerUser (.fromChat message)

/-! ## 3. Receiving -/

/-- The ratchet step of `HandleChatMessage`.  It is taken on the header alone, before the
message number is checked and before anything is decrypted. -/
def recvRatchet (message : ChatMessage B) : Proc (SessionState B) Unit := do
  let session ← Proc.get
  match message.header.senderRatchetPublicKey with
  | none => pure ()
  | some newRemote =>
    if newRemote = session.remoteRatchetPublic then pure ()
    else do
      let dh ← Proc.ofExcept "ratchet DH failed: "
        (c.x25519SharedSecret session.localRatchetKey.privateKey newRemote)
      let mixed ← Proc.ofExcept "ratchet KDF failed: "
        (deriveRatchetRootAndChain c dh session.rootKey)
      Proc.modify fun s => { s with
        recvChainKey := mixed.1
        rootKey := mixed.2
        remoteRatchetPublic := newRemote
        recvCounter := 0 }

/-- What `HandleChatMessage` does to the session it has found. -/
def receiveChat (message : ChatMessage B) : Proc (SessionState B) B := do
  recvRatchet c message
  let session ← Proc.get
  Proc.require (message.header.messageNumber = session.recvCounter)
    "replay or out-of-order message rejected"
  let ad ← Proc.ofExcept "chat AD failed: " (buildChatAssociatedData c message)
  let opened ← Proc.ofExcept "chat decrypt failed: "
    (decryptChainStep c session.recvChainKey session.recvCounter message.nonce
      message.ciphertext ad)
  Proc.modify fun s => { s with recvChainKey := opened.2, recvCounter := s.recvCounter + 1 }
  pure opened.1

/-- Run a computation on the session with a peer. -/
def onSession {α : Type} (peer : B) (session : SessionState B) (x : Proc (SessionState B) α) :
    Proc (World B S) α :=
  Proc.zoom (fun _ => session)
    (fun s w => { w with client :=
      { w.client with sessionsByPeer := w.client.sessionsByPeer.insert peer s } }) x

/-- `HandleChatMessage`.  The result is the plaintext it pushes to its output vector. -/
def handleChatMessage (message : ChatMessage B) : Proc (World B S) B := do
  record (.receivedChat message)
  let w ← Proc.get
  Proc.require (message.toUser = w.client.userId) "chat message recipient mismatch"
  match w.client.sessionsByPeer.lookup message.fromUser with
  | none => Proc.fail "no session for incoming chat message"
  | some session => do
    Proc.require (session.sessionId = message.sessionId) "session id mismatch"
    onSession message.fromUser session (receiveChat c message)

end PqChat
