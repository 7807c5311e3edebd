/-
# The state of a client and of its surroundings

`Client B` is the object of `client.h`.  Its member functions also touch things outside the
object: the server, the state file, the random number generator.  `World B S` puts these
together: a client, a server of any state type `S`, the content of the state file, and two
TAPES that say what the environment answers -- the seeds the generator draws and the outcome
of each access to the state file.

`World.trace` is a GHOST field: the history, newest first, of the generated keys, of the seals
made, and of what came in from outside.  No function reads it.
-/
import PqChat.Lib.Proc
import PqChat.Protocol
import Mathlib.Data.Finmap

namespace PqChat

open ByteString

variable {B S : Type}

/-! ## 1. The client -/

/-- `Client::SessionState`. -/
structure SessionState (B : Type) where
  sessionId : B
  peerUser : B
  isInitiator : Bool
  rootKey : B
  sendChainKey : B
  recvChainKey : B
  sendCounter : UInt64 := 0
  recvCounter : UInt64 := 0
  previousSendChainLength : UInt64 := 0
  localRatchetKey : KeyPair B
  remoteRatchetPublic : B
  deriving DecidableEq, Repr

/-- `OneTimeEc` and `OneTimePq`, which have the same shape. -/
structure OneTimeKey (B : Type) where
  publicPart : OneTimePrekey B
  privatePart : KeyPair B
  deriving DecidableEq, Repr

/-- `Client::PeerIdentity`. -/
structure PeerIdentity (B : Type) where
  signPublicKey : B
  mldsaPublicKey : B
  dhPublicKey : B
  verified : Bool
  deriving DecidableEq, Repr

/-- A bounded set of strings: `seen_initial_session_ids_` with `seen_initial_session_order_`,
and the same for the transcript hashes.  The deque remembers the order of insertion. -/
structure ReplayGuard (B : Type) where
  seen : Finset B
  order : List B

/-- An `unordered_map`: the order of its entries has no meaning. -/
abbrev Table (K V : Type) := Finmap fun _ : K => V

/-- `Client`. -/
structure Client (B : Type) where
  userId : B
  identitySignKey : KeyPair B
  identityMldsaKey : KeyPair B
  identityDhKey : KeyPair B
  signedPrekeyEcPublic : SignedPrekey B
  signedPrekeyEcPrivate : KeyPair B
  signedPrekeyPqPublic : SignedPrekey B
  signedPrekeyPqPrivate : KeyPair B
  oneTimeEcPool : List (OneTimeKey B)
  oneTimePqPool : List (OneTimeKey B)
  prekeysDirty : Bool
  pendingInboxAckUpToId : Option UInt64
  trustedPeerIdentities : Table B (PeerIdentity B)
  sessionsByPeer : Table B (SessionState B)
  seenInitialSessions : ReplayGuard B
  seenInitialTranscripts : ReplayGuard B

def kRatchetInterval : UInt64 := 10
def kOneTimePrekeyPoolTarget : Nat := 16
def kMaxInboxDrainPasses : Nat := 64
def kMaxInitialReplayGuards : Nat := 4096
def kMaxPersistedSessions : Nat := 256
def kMaxPersistedPeers : Nat := 1024

/-- The members of a default-constructed client: empty strings, no keys. -/
def Client.blank [ByteString B] (userId : B) : Client B :=
  let pair : KeyPair B := ⟨empty, empty⟩
  let prekey : SignedPrekey B := ⟨0, empty, empty, empty⟩
  { userId, identitySignKey := pair, identityMldsaKey := pair, identityDhKey := pair
    signedPrekeyEcPublic := prekey, signedPrekeyEcPrivate := pair
    signedPrekeyPqPublic := prekey, signedPrekeyPqPrivate := pair
    oneTimeEcPool := [], oneTimePqPool := [], prekeysDirty := false
    pendingInboxAckUpToId := none, trustedPeerIdentities := ∅, sessionsByPeer := ∅
    seenInitialSessions := ⟨∅, []⟩, seenInitialTranscripts := ⟨∅, []⟩ }

/-! ## 2. The surroundings -/

/-- The four calls of `IServerApi` that a client makes, on a server with state `S`. -/
structure ServerApi (B S : Type) where
  publishBundle : PrekeyBundle B → Proc S Unit
  acquireBundleForSession : B → Proc S (PrekeyBundle B)
  enqueueEnvelope : B → Envelope B → Proc S Unit
  drainInbox : B → Option UInt64 → Proc S (List (InboxEnvelope B))

/-- What happens to one access to the state file.  `unsynced` is a write whose rename took
place and whose directory could not be synced: the new state IS on disk, and the caller gets
an error. -/
inductive DiskOutcome
  | ok
  | failed (e : String)
  | unsynced (e : String)
  deriving DecidableEq, Repr

/-- An entry of the history. -/
inductive Event (B : Type)
  /-- `X25519::GenerateKeyPair` returned this pair. -/
  | x25519 (pair : KeyPair B)
  /-- `MlKem768::GenerateKeyPair` returned this pair. -/
  | mlkem (pair : KeyPair B)
  /-- A call of `Seal` by `InitiateSession` or `SendMessage` succeeded. -/
  | seal (key nonce plaintext ad : B)
  /-- The server answered with this bundle. -/
  | receivedBundle (bundle : PrekeyBundle B)
  /-- `HandleInitialMessage` was called. -/
  | receivedInitial (message : InitialMessage B)
  /-- `HandleChatMessage` was called. -/
  | receivedChat (message : ChatMessage B)
  /-- `InitiateSession` made this message for this plaintext. -/
  | initiated (message : InitialMessage B) (plaintext : B)
  /-- `HandleInitialMessage` accepted this message with these one-time keys. -/
  | accepted (message : InitialMessage B) (ec pq : OneTimeKey B) (plaintext : B)
  deriving DecidableEq, Repr

/-- A client with its server, its state file and its environment. -/
structure World (B S : Type) where
  client : Client B
  server : S
  disk : Option (Client B)
  entropy : Nat → Nat
  drawn : Nat
  diskOutcome : Nat → DiskOutcome
  diskUses : Nat
  trace : List (Event B)

/-! ## 3. Elementary operations -/

/-- Assign to the members of the client. -/
def modifyClient (f : Client B → Client B) : Proc (World B S) Unit :=
  Proc.modify fun w => { w with client := f w.client }

/-- Add to the history. -/
def record (e : Event B) : Proc (World B S) Unit :=
  Proc.modify fun w => { w with trace := e :: w.trace }

/-- Draw a seed. -/
def draw : Proc (World B S) Nat := fun w =>
  (.ok (w.entropy w.drawn), { w with drawn := w.drawn + 1 })

/-- Call the server. -/
def callServer {α : Type} (x : Proc S α) : Proc (World B S) α :=
  Proc.zoom World.server (fun s w => { w with server := s }) x

theorem callServer_of_eq {α : Type} {x : Proc S α} {r : Except String α} {s : S} {w : World B S}
    (h : x w.server = (r, s)) : callServer x w = (r, { w with server := s }) := by
  rw [callServer, Proc.zoom, h]

/-- Store the session with a peer. -/
def setSession [DecidableEq B] (peer : B) (s : SessionState B) : Proc (World B S) Unit :=
  modifyClient fun cl => { cl with sessionsByPeer := cl.sessionsByPeer.insert peer s }

section Primitives

variable (c : Crypto B)

/-- `X25519::GenerateKeyPair`. -/
def generateX25519 : Proc (World B S) (KeyPair B) := do
  let seed ← draw
  let pair ← Proc.ofExcept "" (c.x25519Generate seed)
  record (.x25519 pair)
  pure pair

/-- `MlKem768::GenerateKeyPair`. -/
def generateMlKem : Proc (World B S) (KeyPair B) := do
  let seed ← draw
  let pair ← Proc.ofExcept "" (c.mlkem768Generate seed)
  record (.mlkem pair)
  pure pair

/-- `AeadChaCha20Poly1305::Seal`, as `InitiateSession` and `SendMessage` call it. -/
def sealRecorded [ByteString B] (key nonce plaintext ad : B) : Proc (World B S) B := do
  let ciphertext ← Proc.ofExcept "" (aeadSeal c key nonce plaintext ad)
  record (.seal key nonce plaintext ad)
  pure ciphertext

end Primitives

/-! ## 4. The state file -/

/-- `SaveLocalState`.  What is written is the client itself; the byte format is not modelled
here.  The two size limits are checked before anything is written. -/
def saveLocalState : Proc (World B S) Unit := do
  let w ← Proc.get
  Proc.require (w.client.trustedPeerIdentities.keys.card ≤ kMaxPersistedPeers)
    "too many trusted peer identities to persist"
  Proc.require (w.client.sessionsByPeer.keys.card ≤ kMaxPersistedSessions)
    "too many sessions to persist"
  Proc.modify fun w => { w with diskUses := w.diskUses + 1 }
  match w.diskOutcome w.diskUses with
  | .ok => Proc.modify fun w => { w with disk := some w.client }
  | .failed e => Proc.fail e
  | .unsynced e => do
    Proc.modify fun w => { w with disk := some w.client }
    Proc.fail e

/-- The sets of the replay guards are not stored: they are rebuilt from the deques. -/
def ReplayGuard.reload [DecidableEq B] (g : ReplayGuard B) : ReplayGuard B :=
  ⟨g.order.toFinset, g.order⟩

/-- The public half of a one-time key is stored once, with its id. -/
def OneTimeKey.reload (k : OneTimeKey B) : OneTimeKey B :=
  { k with privatePart := ⟨k.privatePart.privateKey, k.publicPart.publicKey⟩ }

/-- What `LoadLocalState` makes of a stored client. -/
def Client.reload [DecidableEq B] (saved : Client B) : Client B :=
  { saved with
    signedPrekeyEcPrivate :=
      ⟨saved.signedPrekeyEcPrivate.privateKey, saved.signedPrekeyEcPublic.publicKey⟩
    signedPrekeyPqPrivate :=
      ⟨saved.signedPrekeyPqPrivate.privateKey, saved.signedPrekeyPqPublic.publicKey⟩
    oneTimeEcPool := saved.oneTimeEcPool.map OneTimeKey.reload
    oneTimePqPool := saved.oneTimePqPool.map OneTimeKey.reload
    seenInitialSessions := saved.seenInitialSessions.reload
    seenInitialTranscripts := saved.seenInitialTranscripts.reload }

/-- The decoding part of `LoadLocalState`, with the limits it puts on the counts. -/
def restoreState [DecidableEq B] (saved : Client B) : Proc (World B S) Unit := do
  let w ← Proc.get
  Proc.require (saved.userId = w.client.userId) "local state user mismatch"
  Proc.require (saved.oneTimeEcPool.length ≤ kOneTimePrekeyPoolTarget * 64)
    "decode local state one-time ec count failed: decoded one-time ec count exceeds limit"
  Proc.require (saved.oneTimePqPool.length ≤ kOneTimePrekeyPoolTarget * 64)
    "decode local state one-time pq count failed: decoded one-time pq count exceeds limit"
  Proc.require (saved.trustedPeerIdentities.keys.card ≤ kMaxPersistedPeers)
    "decode local state trusted peers failed: decoded trusted peer count exceeds limit"
  Proc.require (saved.sessionsByPeer.keys.card ≤ kMaxPersistedSessions)
    "decode local state sessions failed: decoded session count exceeds limit"
  Proc.require (saved.seenInitialSessions.order.length ≤ kMaxInitialReplayGuards)
    ("decode local state replay sessions failed: " ++
      "decoded seen initial session count exceeds limit")
  Proc.require (saved.seenInitialTranscripts.order.length ≤ kMaxInitialReplayGuards)
    ("decode local state replay transcripts failed: " ++
      "decoded seen initial transcript count exceeds limit")
  modifyClient fun _ => saved.reload

/-- `LoadLocalState`. -/
def loadLocalState [DecidableEq B] : Proc (World B S) Unit := do
  let w ← Proc.get
  match w.disk with
  | none => Proc.fail "state file missing"
  | some saved => do
    Proc.modify fun w => { w with diskUses := w.diskUses + 1 }
    match w.diskOutcome w.diskUses with
    | .failed e | .unsynced e => Proc.fail e
    | .ok => restoreState saved

end PqChat
