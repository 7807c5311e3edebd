/-
# The bytes of the state file

`World.disk` holds a client.  This module goes down to the bytes: what `SaveLocalState` writes and
what `LoadLocalState` makes of a file, each field by field as the source has them, with the
encrypted wrapper around the payload.  The path, the directory and the calls of the file system
stay with `DiskOutcome`.

The two functions are separate hand-kept sequences of about forty fields.  `yields_localState`
walks along both of them at once: the reader takes off what the writer has put there, makes the
checks of `restoreState` in the same order with the same texts, and ends with `Client.reload`.  So
the model of the state file used elsewhere is what the bytes do (`loadLocalState_file`), and a
client within the limits is read back as it was (`loadLocalState_saveLocalState`).

The entries of an `unordered_map` are written in the order of an iteration.  That order is an
argument here, and no result depends on it.
-/
import PqChat.Lib.Map
import PqChat.Wire.RoundTrip
import PqChat.Client.Keys

namespace PqChat

open ByteString Codec

namespace StateFile

def kLocalStatePayloadMagic : Bytes := ascii "pqchat_client_state_payload_v2"
def kLocalStateEncryptedMagic : Bytes := ascii "pqchat_client_state_encrypted_v1"
def kMaxStateFileBytes : Nat := 16 * 1024 * 1024
def kStateEncryptionSaltBytes : Nat := 16
def kStateEncryptionKeyBytes : Nat := 32
def kStatePbkdf2Iterations : Nat := 210000

/-! ## 1. The provider and the environment -/

/-- The operations of `MlDsa65` and of `MlKem768` on stored private keys. -/
structure PrivateKeys where
  exportPrivateKey : (privateKey : Bytes) → Result Bytes
  keyPairFromRaw : (privateKey publicKey : Bytes) → Result Bytes

/-- `FromPrivateKey`. -/
def PrivateKeys.fromPrivateKey (keys : PrivateKeys) (privateKey publicKey : Bytes) :
    Result (KeyPair Bytes) := do
  let key ← keys.keyPairFromRaw privateKey publicKey
  pure ⟨key, publicKey⟩

/-- Bytes of a fixed length. -/
abbrev Block (n : Nat) := { b : Bytes // b.length = n }

/-- What the state file needs of OpenSSL. -/
structure Provider where
  crypto : Crypto Bytes
  mldsa : PrivateKeys
  mlkem : PrivateKeys
  /-- `PKCS5_PBKDF2_HMAC` with SHA-256: `none` if it does not return 1. -/
  pbkdf2Hmac : (passphrase salt : Bytes) → (iterations : Nat) → (n : Nat) → Option (Block n)

/-- The length of an ML-DSA-65 private key. -/
def mldsaPrivateKeySize : Nat := 4032

/-- The length of an ML-KEM-768 private key. -/
def mlkemPrivateKeySize : Nat := 2400

/-- What the two functions find around them.  `none` is a variable that is not set, or a call of
`RAND_bytes` that fails. -/
structure Environment where
  passphrase : Option Bytes
  salt : Option (Block kStateEncryptionSaltBytes)
  nonce : Option (Block kNonceSize)

/-! ## 2. Fields -/

/-- A call of a `StateWriter`.  `Bytes`, `Secure` and `String` write the same. -/
inductive Field
  | u8 (value : UInt8)
  | u32 (value : UInt32)
  | u64 (value : UInt64)
  | bytes (value : Bytes)

/-- What the call appends. -/
def Field.put : Field → Bytes
  | .u8 value => [value]
  | .u32 value => putU32 value
  | .u64 value => putU64 value
  | .bytes value => putBytes value

/-- The calls of a `StateWriter`, in their order. -/
abbrev StateWriter := List Field

/-- `StateWriter::Take`. -/
def StateWriter.take (writer : StateWriter) : Bytes := writer.flatMap Field.put

/-- A flag. -/
def Field.flag (b : Bool) : Field := .u8 (if b then 1 else 0)

/-- The size of a container. -/
def Field.size (n : Nat) : Field := .u32 (UInt32.ofNat n)

namespace StateReader

/-- `Bytes`, `Secure` and `String`.  The other calls of a `StateReader` are those of `Reader`, word
for word; this one has no limit but the input. -/
def bytes : Reader Bytes := do
  let len ← Reader.u32
  Reader.take len.toNat

/-- The size of a container, within its limit. -/
def count (max : Nat) (label what : String) : Reader Nat := Proc.within what do
  let count ← Reader.u32
  Reader.limitU32 count (UInt32.ofNat max) label
  pure count.toNat

end StateReader

/-! ## 3. The wrapper -/

def readStatePassphrase (env : Environment) : Result Bytes :=
  match env.passphrase with
  | none | some [] => .error "PQCHAT_STATE_PASSPHRASE is required for encrypted local state"
  | some passphrase => .ok passphrase

def deriveStateEncryptionKey (p : Provider) (passphrase salt : Bytes) : Result Bytes :=
  if salt.length ≠ kStateEncryptionSaltBytes then .error "invalid state encryption salt"
  else
    match p.pbkdf2Hmac passphrase salt kStatePbkdf2Iterations kStateEncryptionKeyBytes with
    | none => .error "PBKDF2 state key derivation failed"
    | some key => .ok key.val

/-- `RAND_bytes`. -/
def drawn {n : Nat} : Option (Block n) → Result Bytes
  | none => .error "RAND_bytes failed"
  | some b => .ok b.val

def encryptStatePayload (p : Provider) (env : Environment) (plaintext : Bytes) : Result Bytes := do
  let passphrase ← readStatePassphrase env
  let salt ← drawn env.salt
  let key ← deriveStateEncryptionKey p passphrase salt
  let nonce ← drawn env.nonce
  let ciphertext ← Result.within "state encryption failed: "
    (aeadSeal p.crypto key nonce plaintext kLocalStateEncryptedMagic)
  pure (StateWriter.take
    [.bytes kLocalStateEncryptedMagic, .bytes salt, .bytes nonce, .bytes ciphertext])

/-- The fields behind the magic of an encrypted file. -/
def readWrapper : Reader (Bytes × Bytes × Bytes) := do
  let fields ← Proc.within "decode local state wrapper failed: " do
    let salt ← StateReader.bytes
    let nonce ← StateReader.bytes
    let ciphertext ← StateReader.bytes
    pure (salt, nonce, ciphertext)
  Reader.finished "decode local state wrapper failed: trailing bytes"
  pure fields

/-- `UnwrapStatePayload`.  A payload that was never encrypted is its own wrapper. -/
def unwrapStatePayload (p : Provider) (env : Environment) (file : Bytes) : Result Bytes :=
  match Proc.within "decode local state wrapper failed: " StateReader.bytes file with
  | (.error e, _) => .error e
  | (.ok magic, rest) =>
    if magic = kLocalStatePayloadMagic then .ok file
    else if magic ≠ kLocalStateEncryptedMagic then .error "unsupported local state format"
    else do
      let (salt, nonce, ciphertext) ← (readWrapper rest).1
      let passphrase ← readStatePassphrase env
      let key ← deriveStateEncryptionKey p passphrase salt
      Result.within "state decryption failed: "
        (aeadOpen p.crypto key nonce ciphertext kLocalStateEncryptedMagic)

/-! ## 4. `SaveLocalState` -/

/-- A signed prekey with its private half. -/
def writeSignedPrekey (spk : SignedPrekey Bytes) (privateKey : Bytes) : StateWriter :=
  [.u32 spk.id, .bytes spk.publicKey, .bytes spk.signatureEd25519, .bytes spk.signatureMldsa65,
    .bytes privateKey]

/-- A one-time key. -/
def writeOneTime (key : OneTimePrekey Bytes) (privateKey : Bytes) : StateWriter :=
  [.u32 key.id, .bytes key.publicKey, .bytes privateKey]

/-- The loop over `one_time_ec_pool_`. -/
def writeOneTimeEc (pool : List (OneTimeKey Bytes)) : StateWriter :=
  pool.flatMap fun key => writeOneTime key.publicPart key.privatePart.privateKey

/-- The loop over `one_time_pq_pool_`. -/
def writeOneTimePq (p : Provider) : List (OneTimeKey Bytes) → Result StateWriter
  | [] => .ok []
  | key :: pool => do
    let priv ← Result.within "export one-time pq private key failed: "
      (p.mlkem.exportPrivateKey key.privatePart.privateKey)
    let writer ← writeOneTimePq p pool
    pure (writeOneTime key.publicPart priv ++ writer)

/-- `pending_inbox_ack_up_to_id_`. -/
def writePendingAck : Option UInt64 → StateWriter
  | none => [.flag false]
  | some id => [.flag true, .u64 id]

/-- An entry of `trusted_peer_identities_`. -/
def writePeer (e : Sigma fun _ : Bytes => PeerIdentity Bytes) : StateWriter :=
  [.bytes e.1, .bytes e.2.signPublicKey, .bytes e.2.mldsaPublicKey, .bytes e.2.dhPublicKey,
    .flag e.2.verified]

/-- An entry of `sessions_by_peer_`. -/
def writeSession (e : Sigma fun _ : Bytes => SessionState Bytes) : StateWriter :=
  [.bytes e.1, .bytes e.2.sessionId, .bytes e.2.peerUser, .flag e.2.isInitiator,
    .bytes e.2.rootKey, .bytes e.2.sendChainKey, .bytes e.2.recvChainKey, .u64 e.2.sendCounter,
    .u64 e.2.recvCounter, .u64 e.2.previousSendChainLength,
    .bytes e.2.localRatchetKey.privateKey, .bytes e.2.localRatchetKey.publicKey,
    .bytes e.2.remoteRatchetPublic]

/-- The iterations over the two tables. -/
structure Iteration where
  peers : List (Sigma fun _ : Bytes => PeerIdentity Bytes)
  sessions : List (Sigma fun _ : Bytes => SessionState Bytes)

/-- The calls of `SaveLocalState`, with what it exports. -/
def localStateFields (cl : Client Bytes) (order : Iteration)
    (identityMldsaPrivate signedPrekeyPqPrivate : Bytes) (oneTimePq : StateWriter) :
    List StateWriter :=
  [[.bytes kLocalStatePayloadMagic, .bytes cl.userId, .bytes kProtocolVersion],
    [.bytes cl.identitySignKey.privateKey, .bytes cl.identitySignKey.publicKey],
    [.bytes identityMldsaPrivate, .bytes cl.identityMldsaKey.publicKey],
    [.bytes cl.identityDhKey.privateKey, .bytes cl.identityDhKey.publicKey],
    writeSignedPrekey cl.signedPrekeyEcPublic cl.signedPrekeyEcPrivate.privateKey,
    writeSignedPrekey cl.signedPrekeyPqPublic signedPrekeyPqPrivate,
    [.size cl.oneTimeEcPool.length], writeOneTimeEc cl.oneTimeEcPool,
    [.size cl.oneTimePqPool.length], oneTimePq,
    [.flag cl.prekeysDirty], writePendingAck cl.pendingInboxAckUpToId,
    [.size cl.trustedPeerIdentities.keys.card], order.peers.flatMap writePeer,
    [.size cl.sessionsByPeer.keys.card], order.sessions.flatMap writeSession,
    [.size cl.seenInitialSessions.order.length], cl.seenInitialSessions.order.map .bytes,
    [.size cl.seenInitialTranscripts.order.length], cl.seenInitialTranscripts.order.map .bytes]

/-- The payload. -/
def writeLocalState (p : Provider) (cl : Client Bytes) (order : Iteration) :
    Result StateWriter := do
  let identityMldsaPrivate ← Result.within "export identity mldsa private key failed: "
    (p.mldsa.exportPrivateKey cl.identityMldsaKey.privateKey)
  let signedPrekeyPqPrivate ← Result.within "export signed prekey pq private key failed: "
    (p.mlkem.exportPrivateKey cl.signedPrekeyPqPrivate.privateKey)
  let oneTimePq ← writeOneTimePq p cl.oneTimePqPool
  if cl.trustedPeerIdentities.keys.card > kMaxPersistedPeers then
    .error "too many trusted peer identities to persist"
  else if cl.sessionsByPeer.keys.card > kMaxPersistedSessions then
    .error "too many sessions to persist"
  else
    .ok (localStateFields cl order identityMldsaPrivate signedPrekeyPqPrivate oneTimePq).flatten

/-- `SaveLocalState`: the bytes given to `WriteAllFileAtomic`. -/
def saveLocalState (p : Provider) (env : Environment) (cl : Client Bytes) (order : Iteration) :
    Result Bytes := do
  let writer ← writeLocalState p cl order
  encryptStatePayload p env writer.take

/-! ## 5. `LoadLocalState` -/

/-- `ReadAllFile`, of a file that can be read. -/
def readAllFile : Option Bytes → Result Bytes
  | none => .error "state file missing"
  | some file =>
    if file.length > kMaxStateFileBytes then .error "state file too large" else .ok file

def readHeader : Reader (Bytes × Bytes × Bytes) := do
  let magic ← StateReader.bytes
  let storedUser ← StateReader.bytes
  let storedVersion ← StateReader.bytes
  pure (magic, storedUser, storedVersion)

/-- A private key and its public key. -/
def readKeyPair : Reader (KeyPair Bytes) := do
  let privateKey ← StateReader.bytes
  let publicKey ← StateReader.bytes
  pure ⟨privateKey, publicKey⟩

def readSignedPrekey : Reader (SignedPrekey Bytes × Bytes) := do
  let id ← Reader.u32
  let publicKey ← StateReader.bytes
  let signatureEd25519 ← StateReader.bytes
  let signatureMldsa65 ← StateReader.bytes
  let privateKey ← StateReader.bytes
  pure (⟨id, publicKey, signatureEd25519, signatureMldsa65⟩, privateKey)

def readOneTime : Reader (OneTimePrekey Bytes × Bytes) := do
  let id ← Reader.u32
  let publicKey ← StateReader.bytes
  let privateKey ← StateReader.bytes
  pure (⟨id, publicKey⟩, privateKey)

/-- The body of the loop that fills `one_time_ec_pool_`. -/
def readOneTimeEc : Reader (OneTimeKey Bytes) := do
  let (publicPart, privateKey) ←
    Proc.within "decode local state one-time ec key failed: " readOneTime
  pure ⟨publicPart, ⟨privateKey, publicPart.publicKey⟩⟩

/-- The body of the loop that fills `one_time_pq_pool_`. -/
def readOneTimePq (p : Provider) : Reader (OneTimeKey Bytes) := do
  let (publicPart, privateBytes) ←
    Proc.within "decode local state one-time pq key failed: " readOneTime
  let pair ← Proc.ofExcept "restore one-time pq key failed: "
    (p.mlkem.fromPrivateKey privateBytes publicPart.publicKey)
  pure ⟨publicPart, pair⟩

def readPendingAck : Reader (Option UInt64) := do
  let hasPendingAck ← Proc.within "decode local state pending ack tag failed: " Reader.u8
  if hasPendingAck = 1 then do
    let pendingAck ← Proc.within "decode local state pending ack failed: " Reader.u64
    pure (some pendingAck)
  else if hasPendingAck = 0 then pure none
  else Proc.fail "decode local state pending ack tag invalid"

def readPeer : Reader (Sigma fun _ : Bytes => PeerIdentity Bytes) :=
  Proc.within "decode local state trusted peer failed: " do
    let peerUser ← StateReader.bytes
    let signPublicKey ← StateReader.bytes
    let mldsaPublicKey ← StateReader.bytes
    let dhPublicKey ← StateReader.bytes
    let verified ← Reader.u8
    pure ⟨peerUser, ⟨signPublicKey, mldsaPublicKey, dhPublicKey, verified != 0⟩⟩

def readSession : Reader (Sigma fun _ : Bytes => SessionState Bytes) :=
  Proc.within "decode local state session failed: " do
    let peerKey ← StateReader.bytes
    let sessionId ← StateReader.bytes
    let peerUser ← StateReader.bytes
    let isInitiator ← Reader.u8
    let rootKey ← StateReader.bytes
    let sendChainKey ← StateReader.bytes
    let recvChainKey ← StateReader.bytes
    let sendCounter ← Reader.u64
    let recvCounter ← Reader.u64
    let previousSendChainLength ← Reader.u64
    let ratchetPrivate ← StateReader.bytes
    let ratchetPublic ← StateReader.bytes
    let remoteRatchetPublic ← StateReader.bytes
    pure ⟨peerKey,
      { sessionId, peerUser, isInitiator := isInitiator != 0, rootKey, sendChainKey, recvChainKey
        sendCounter, recvCounter, previousSendChainLength
        localRatchetKey := ⟨ratchetPrivate, ratchetPublic⟩, remoteRatchetPublic }⟩

/-- The entries are assigned one after the other: a later one replaces an earlier one. -/
def tableOf {V : Type} (entries : List (Sigma fun _ : Bytes => V)) : Table Bytes V :=
  entries.foldl (fun table e => table.insert e.1 e.2) ∅

/-- The fields of the payload.  `Create`, the only caller, drops the object when this fails, so the
members assigned by then are not kept. -/
def readLocalState (p : Provider) (userId : Bytes) : Reader (Client Bytes) := do
  let (magic, storedUser, storedVersion) ←
    Proc.within "decode local state header failed: " readHeader
  Proc.require (magic = kLocalStatePayloadMagic) "unsupported local state format"
  Proc.require (storedUser = userId) "local state user mismatch"
  Proc.require (storedVersion = kProtocolVersion) "local state protocol version mismatch"
  let identitySignKey ←
    Proc.within "decode local state identity sign key failed: " readKeyPair
  let storedMldsa ← Proc.within "decode local state identity mldsa key failed: " readKeyPair
  let identityMldsaKey ← Proc.ofExcept "restore identity mldsa key failed: "
    (p.mldsa.fromPrivateKey storedMldsa.privateKey storedMldsa.publicKey)
  let identityDhKey ← Proc.within "decode local state identity dh key failed: " readKeyPair
  let (signedPrekeyEcPublic, signedPrekeyEcPrivate) ←
    Proc.within "decode local state signed prekey ec failed: " readSignedPrekey
  let (signedPrekeyPqPublic, signedPrekeyPqBytes) ←
    Proc.within "decode local state signed prekey pq failed: " readSignedPrekey
  let signedPrekeyPqPrivate ← Proc.ofExcept "restore signed prekey pq failed: "
    (p.mlkem.fromPrivateKey signedPrekeyPqBytes signedPrekeyPqPublic.publicKey)
  let oneTimeEcCount ← StateReader.count (kOneTimePrekeyPoolTarget * 64) "one-time ec count"
    "decode local state one-time ec count failed: "
  let oneTimeEcPool ← readMany readOneTimeEc oneTimeEcCount
  let oneTimePqCount ← StateReader.count (kOneTimePrekeyPoolTarget * 64) "one-time pq count"
    "decode local state one-time pq count failed: "
  let oneTimePqPool ← readMany (readOneTimePq p) oneTimePqCount
  let prekeysDirty ← Proc.within "decode local state prekeys_dirty failed: " Reader.u8
  let pendingInboxAckUpToId ← readPendingAck
  let trustedCount ← StateReader.count kMaxPersistedPeers "trusted peer count"
    "decode local state trusted peers failed: "
  let peers ← readMany readPeer trustedCount
  let sessionsCount ← StateReader.count kMaxPersistedSessions "session count"
    "decode local state sessions failed: "
  let sessions ← readMany readSession sessionsCount
  let seenSessionCount ← StateReader.count kMaxInitialReplayGuards "seen initial session count"
    "decode local state replay sessions failed: "
  let seenSessions ← readMany
    (Proc.within "decode local state replay session entry failed: " StateReader.bytes)
    seenSessionCount
  let seenTranscriptCount ← StateReader.count kMaxInitialReplayGuards
    "seen initial transcript count" "decode local state replay transcripts failed: "
  let seenTranscripts ← readMany
    (Proc.within "decode local state replay transcript entry failed: " StateReader.bytes)
    seenTranscriptCount
  pure
    { userId, identitySignKey, identityMldsaKey, identityDhKey
      signedPrekeyEcPublic
      signedPrekeyEcPrivate := ⟨signedPrekeyEcPrivate, signedPrekeyEcPublic.publicKey⟩
      signedPrekeyPqPublic, signedPrekeyPqPrivate, oneTimeEcPool, oneTimePqPool
      prekeysDirty := prekeysDirty != 0
      pendingInboxAckUpToId
      trustedPeerIdentities := tableOf peers
      sessionsByPeer := tableOf sessions
      seenInitialSessions := ⟨seenSessions.toFinset, seenSessions⟩
      seenInitialTranscripts := ⟨seenTranscripts.toFinset, seenTranscripts⟩ }

/-- `LoadLocalState`. -/
def loadLocalState (p : Provider) (env : Environment) (userId : Bytes) (disk : Option Bytes) :
    Result (Client Bytes) := do
  let file ← readAllFile disk
  let payload ← unwrapStatePayload p env file
  let reader : Reader (Client Bytes) := do
    let client ← readLocalState p userId
    Reader.finished "decode local state failed: trailing bytes"
    pure client
  (reader payload).1

/-! ## 6. What is written is read -/

section Fields

variable {α : Type}

/-- Every byte string that is written is shorter than 2^32. -/
def StateWriter.Small (writer : StateWriter) : Prop := ∀ b, .bytes b ∈ writer → b.length < 2 ^ 32

namespace StateWriter

theorem small_flatten {groups : List StateWriter} :
    Small groups.flatten ↔ ∀ writer ∈ groups, writer.Small := by
  simp only [Small, List.mem_flatten]
  exact ⟨fun h w hw b hb => h b ⟨w, hw, hb⟩, fun h b ⟨w, hw, hb⟩ => h w hw b hb⟩

@[simp] theorem small_nil : Small [] := nofun

@[simp] theorem small_bytes {b : Bytes} {writer : StateWriter} :
    Small (.bytes b :: writer) ↔ b.length < 2 ^ 32 ∧ writer.Small := by
  simp [Small, or_imp, forall_and]

@[simp] theorem small_u8 {v : UInt8} {writer : StateWriter} :
    Small (.u8 v :: writer) ↔ writer.Small := by
  simp [Small]

@[simp] theorem small_u32 {v : UInt32} {writer : StateWriter} :
    Small (.u32 v :: writer) ↔ writer.Small := by
  simp [Small]

@[simp] theorem small_u64 {v : UInt64} {writer : StateWriter} :
    Small (.u64 v :: writer) ↔ writer.Small := by
  simp [Small]

@[simp] theorem small_flag {v : Bool} {writer : StateWriter} :
    Small (.flag v :: writer) ↔ writer.Small := small_u8

@[simp] theorem small_append {writer writer' : StateWriter} :
    Small (writer ++ writer') ↔ writer.Small ∧ writer'.Small := by
  simp [Small, or_imp, forall_and]

theorem small_flatMap {put : α → StateWriter} {l : List α} :
    Small (l.flatMap put) ↔ ∀ x ∈ l, (put x).Small := by
  rw [List.flatMap, small_flatten, List.forall_mem_map]

@[simp] theorem take_nil : take [] = [] := rfl

@[simp] theorem take_cons (field : Field) (writer : StateWriter) :
    take (field :: writer) = field.put ++ take writer := rfl

@[simp] theorem take_append (writer writer' : StateWriter) :
    take (writer ++ writer') = take writer ++ take writer' := List.flatMap_append

/-- What is written is no shorter than any of its strings. -/
theorem small_of_length {writer : StateWriter} (h : writer.take.length < 2 ^ 32) :
    writer.Small := by
  induction writer with
  | nil => exact small_nil
  | cons field writer ih =>
    rw [take_cons, List.length_append] at h
    have htail := ih (lt_of_le_of_lt (Nat.le_add_left ..) h)
    cases field with
    | u8 | u32 | u64 => simpa using htail
    | bytes b =>
      simp only [Field.put, putBytes, List.length_append] at h
      exact small_bytes.mpr ⟨by omega, htail⟩

theorem take_flatMap (put : α → StateWriter) (l : List α) :
    take (l.flatMap put) = l.flatMap fun x => (put x).take := List.flatMap_assoc

end StateWriter

theorem yields_u8 (v : UInt8) : Yields Reader.u8 (Field.u8 v).put (.ok v) :=
  inverts_u8.yields trivial trivial trivial

theorem yields_u32 (v : UInt32) : Yields Reader.u32 (Field.u32 v).put (.ok v) :=
  inverts_u32.yields trivial trivial trivial

theorem yields_u64 (v : UInt64) : Yields Reader.u64 (Field.u64 v).put (.ok v) :=
  inverts_u64.yields trivial trivial trivial

theorem yields_bytes {b : Bytes} (hb : b.length < 2 ^ 32) :
    Yields StateReader.bytes (Field.bytes b).put (.ok b) := by
  refine (yields_u32 _).bind ?_
  rw [UInt32.toNat_ofNat_of_lt' hb]
  exact (inverts_take b.length).yields rfl trivial trivial

/-- A flag is any value but zero. -/
theorem flag_ne_zero (b : Bool) : ((if b then 1 else 0 : UInt8) != 0) = b := by
  cases b <;> rfl

/-- The rule for one field. -/
theorem yields_field {β : Type} {get : Reader β} {k : β → Reader α} {field : Field}
    {writer : StateWriter} {b : β} {r : Except String α} (h : Yields get field.put (.ok b))
    (hk : Yields (k b) writer.take r) : Yields (get >>= k) (StateWriter.take (field :: writer)) r :=
  h.bind hk

theorem yields_one {get : Reader α} {field : Field} {r : Except String α}
    (h : Yields get field.put r) : Yields get (StateWriter.take [field]) r := by
  rwa [StateWriter.take_cons, StateWriter.take_nil, List.append_nil]

/-- The rule for a group of fields. -/
theorem yields_group {β : Type} {get : Reader β} {k : β → Reader α} {writer : StateWriter}
    {groups : List StateWriter} {b : β} {r : Except String α}
    (h : Yields get writer.take (.ok b))
    (hk : Yields (k b) (StateWriter.take groups.flatten) r) :
    Yields (get >>= k) (StateWriter.take (writer :: groups).flatten) r := by
  rw [List.flatten_cons, StateWriter.take_append]
  exact h.bind hk

/-- The rule for the size of a container: the reader stops where the program of checks does. -/
theorem yields_count {σ : Type} {n max : Nat} {label what e : String} {k : Nat → Reader α}
    {groups : List StateWriter} {x : Proc σ Unit} {s : σ} {a : α} (hn : n < 2 ^ 32)
    (hmax : max < 2 ^ 32) (he : e = what ++ ("decoded " ++ label ++ " exceeds limit"))
    (hk : n ≤ max → Yields (k n) (StateWriter.take groups.flatten) (checked x s a)) :
    Yields (StateReader.count max label what >>= k)
      (StateWriter.take ([.size n] :: groups).flatten)
      (checked (Proc.require (n ≤ max) e >>= fun _ => x) s a) := by
  have hle : UInt32.ofNat n ≤ UInt32.ofNat max ↔ n ≤ max := by
    rw [UInt32.le_iff_toNat_le, UInt32.toNat_ofNat_of_lt' hn, UInt32.toNat_ofNat_of_lt' hmax]
  by_cases h : n ≤ max
  · have hcount : Yields (StateReader.count max label what) (StateWriter.take [.size n])
        (.ok n) := by
      refine Yields.within (yields_field (yields_u32 _) ?_) what
      refine Yields.require_bind (hle.mpr h) ?_
      rw [UInt32.toNat_ofNat_of_lt' hn]
      exact .pure n
    rw [Proc.require_pos h]
    exact yields_group hcount (hk h)
  · have hlimit : Yields (Reader.limitU32 (UInt32.ofNat n) (UInt32.ofNat max) label) []
        (.error ("decoded " ++ label ++ " exceeds limit")) := by
      rw [Reader.limitU32, Proc.require, if_neg (mt hle.mp h)]
      exact fun _ => rfl
    rw [Proc.require, if_neg h, he, List.flatten_cons, StateWriter.take_append]
    exact ((yields_field (yields_u32 _) hlimit.stop).within_error what).stop

end Fields

/-! ## 7. The groups of fields -/

section Groups

theorem yields_header {magic user version : Bytes}
    (h : StateWriter.Small [.bytes magic, .bytes user, .bytes version]) :
    Yields readHeader (StateWriter.take [.bytes magic, .bytes user, .bytes version])
      (.ok (magic, user, version)) := by
  simp only [StateWriter.small_bytes] at h
  obtain ⟨h₁, h₂, h₃, -⟩ := h
  refine yields_field (yields_bytes h₁) (yields_field (yields_bytes h₂) ?_)
  exact yields_field (yields_bytes h₃) (.pure _)

theorem yields_keyPair (pair : KeyPair Bytes)
    (h : StateWriter.Small [.bytes pair.privateKey, .bytes pair.publicKey]) :
    Yields readKeyPair (StateWriter.take [.bytes pair.privateKey, .bytes pair.publicKey])
      (.ok pair) := by
  simp only [StateWriter.small_bytes] at h
  obtain ⟨h₁, h₂, -⟩ := h
  exact yields_field (yields_bytes h₁) (yields_field (yields_bytes h₂) (.pure _))

theorem yields_signedPrekey {spk : SignedPrekey Bytes} {priv : Bytes}
    (h : (writeSignedPrekey spk priv).Small) :
    Yields readSignedPrekey (writeSignedPrekey spk priv).take (.ok (spk, priv)) := by
  simp only [writeSignedPrekey, StateWriter.small_u32, StateWriter.small_bytes] at h
  obtain ⟨h₁, h₂, h₃, h₄, -⟩ := h
  refine yields_field (yields_u32 _) (yields_field (yields_bytes h₁) ?_)
  refine yields_field (yields_bytes h₂) (yields_field (yields_bytes h₃) ?_)
  exact yields_field (yields_bytes h₄) (.pure _)

theorem yields_oneTime {key : OneTimePrekey Bytes} {priv : Bytes}
    (h : (writeOneTime key priv).Small) :
    Yields readOneTime (writeOneTime key priv).take (.ok (key, priv)) := by
  simp only [writeOneTime, StateWriter.small_u32, StateWriter.small_bytes] at h
  obtain ⟨h₁, h₂, -⟩ := h
  refine yields_field (yields_u32 _) (yields_field (yields_bytes h₁) ?_)
  exact yields_field (yields_bytes h₂) (.pure _)

theorem yields_oneTimeEc {pool : List (OneTimeKey Bytes)} (h : (writeOneTimeEc pool).Small) :
    Yields (readMany readOneTimeEc pool.length) (writeOneTimeEc pool).take
      (.ok (pool.map OneTimeKey.reload)) := by
  rw [writeOneTimeEc, StateWriter.take_flatMap]
  refine .readMany OneTimeKey.reload fun key hkey => ?_
  have hfields := (yields_oneTime (StateWriter.small_flatMap.mp h key hkey)).within
    "decode local state one-time ec key failed: "
  rw [← List.append_nil (StateWriter.take _)]
  exact hfields.bind (.pure _)

/-- Export and import of a private key are inverse, beside the public key. -/
def PrivateKeys.Inverse (keys : PrivateKeys) (privateKey publicKey : Bytes) : Prop :=
  ∀ stored, keys.exportPrivateKey privateKey = .ok stored →
    keys.keyPairFromRaw stored publicKey = .ok privateKey

theorem PrivateKeys.Inverse.fromPrivateKey {keys : PrivateKeys} {priv pub stored : Bytes}
    (h : keys.Inverse priv pub) (he : keys.exportPrivateKey priv = .ok stored) :
    keys.fromPrivateKey stored pub = .ok ⟨priv, pub⟩ := by
  rw [PrivateKeys.fromPrivateKey, h stored he]
  rfl

theorem yields_oneTimePq {p : Provider} {pool : List (OneTimeKey Bytes)} {writer : StateWriter}
    (hp : ∀ key ∈ pool, p.mlkem.Inverse key.privatePart.privateKey key.publicPart.publicKey)
    (hw : writeOneTimePq p pool = .ok writer) (h : writer.Small) :
    Yields (readMany (readOneTimePq p) pool.length) writer.take
      (.ok (pool.map OneTimeKey.reload)) := by
  induction pool generalizing writer with
  | nil =>
    obtain rfl := Except.ok.inj hw
    exact .pure []
  | cons key pool ih =>
    obtain ⟨hkey, hpool⟩ := List.forall_mem_cons.mp hp
    obtain ⟨priv, hexport, hw⟩ := Result.bind_eq_ok.mp hw
    obtain ⟨rest, hrest, hw⟩ := Result.bind_eq_ok.mp hw
    obtain rfl := Except.ok.inj hw
    obtain ⟨h₁, h₂⟩ := StateWriter.small_append.mp h
    have hread : Yields (readOneTimePq p) (writeOneTime key.publicPart priv).take
        (.ok key.reload) := by
      rw [← List.append_nil (StateWriter.take _)]
      refine ((yields_oneTime h₁).within _).bind ?_
      exact .ofExcept_bind (hkey.fromPrivateKey (Result.within_eq_ok.mp hexport)) (.pure _)
    rw [StateWriter.take_append]
    exact hread.readMany_cons (ih hpool hrest h₂)

theorem yields_pendingAck (pending : Option UInt64) :
    Yields readPendingAck (writePendingAck pending).take (.ok pending) := by
  cases pending with
  | none => exact yields_field ((yields_u8 0).within _) (.pure none)
  | some id =>
    exact yields_field ((yields_u8 1).within _) (yields_field ((yields_u64 id).within _) (.pure _))

theorem yields_peer {e : Sigma fun _ : Bytes => PeerIdentity Bytes} (h : (writePeer e).Small) :
    Yields readPeer (writePeer e).take (.ok e) := by
  simp only [writePeer, StateWriter.small_flag, StateWriter.small_bytes] at h
  obtain ⟨h₁, h₂, h₃, h₄, -⟩ := h
  refine Yields.within ?_ _
  refine yields_field (yields_bytes h₁) (yields_field (yields_bytes h₂) ?_)
  refine yields_field (yields_bytes h₃) (yields_field (yields_bytes h₄) ?_)
  refine yields_field (yields_u8 _) ?_
  rw [flag_ne_zero]
  exact .pure e

theorem yields_session {e : Sigma fun _ : Bytes => SessionState Bytes}
    (h : (writeSession e).Small) : Yields readSession (writeSession e).take (.ok e) := by
  simp only [writeSession, StateWriter.small_flag, StateWriter.small_bytes,
    StateWriter.small_u64] at h
  obtain ⟨h₁, h₂, h₃, h₄, h₅, h₆, h₇, h₈, h₉, -⟩ := h
  refine Yields.within ?_ _
  refine yields_field (yields_bytes h₁) (yields_field (yields_bytes h₂) ?_)
  refine yields_field (yields_bytes h₃) (yields_field (yields_u8 _) ?_)
  refine yields_field (yields_bytes h₄) (yields_field (yields_bytes h₅) ?_)
  refine yields_field (yields_bytes h₆) (yields_field (yields_u64 _) ?_)
  refine yields_field (yields_u64 _) (yields_field (yields_u64 _) ?_)
  refine yields_field (yields_bytes h₇) (yields_field (yields_bytes h₈) ?_)
  refine yields_field (yields_bytes h₉) ?_
  rw [flag_ne_zero]
  exact .pure e

/-- Values that are written one after the other. -/
theorem yields_list {α : Type} {get : Reader α} {put : α → StateWriter} {l : List α}
    (hsmall : StateWriter.Small (l.flatMap put))
    (h : ∀ x, (put x).Small → Yields get (put x).take (.ok x)) :
    Yields (readMany get l.length) (StateWriter.take (l.flatMap put)) (.ok l) := by
  have hread : Yields (readMany get l.length) (l.flatMap fun x => (put x).take)
      (.ok (l.map id)) :=
    .readMany id fun x hx => h x (StateWriter.small_flatMap.mp hsmall x hx)
  rw [List.map_id] at hread
  rwa [StateWriter.take_flatMap]

/-- A deque of strings. -/
theorem yields_strings {order : List Bytes} {what : String}
    (h : StateWriter.Small (order.map .bytes)) :
    Yields (readMany (Proc.within what StateReader.bytes) order.length)
      (StateWriter.take (order.map .bytes)) (.ok order) := by
  have horder : order.map Field.bytes = order.flatMap fun b => [.bytes b] :=
    List.map_eq_flatMap
  rw [horder] at h ⊢
  refine yields_list h fun b hb => ?_
  exact yields_one ((yields_bytes (StateWriter.small_bytes.mp hb).1).within what)

end Groups

/-! ## 8. The payload -/

section Payload

variable {S : Type} {p : Provider}

/-- Export and import are inverse on the private keys that are exported. -/
structure Restorable (p : Provider) (cl : Client Bytes) : Prop where
  identityMldsa :
    p.mldsa.Inverse cl.identityMldsaKey.privateKey cl.identityMldsaKey.publicKey
  signedPrekeyPq :
    p.mlkem.Inverse cl.signedPrekeyPqPrivate.privateKey cl.signedPrekeyPqPublic.publicKey
  oneTimePq : ∀ key ∈ cl.oneTimePqPool,
    p.mlkem.Inverse key.privatePart.privateKey key.publicPart.publicKey

/-- The order in which the two tables are iterated over. -/
structure Iteration.Of (order : Iteration) (cl : Client Bytes) : Prop where
  peers : cl.trustedPeerIdentities.Iterates order.peers
  sessions : cl.sessionsByPeer.Iterates order.sessions

/-- The sizes of the containers fit into their 32 bits. -/
structure Countable (cl : Client Bytes) : Prop where
  ec : cl.oneTimeEcPool.length < 2 ^ 32
  pq : cl.oneTimePqPool.length < 2 ^ 32
  sessions : cl.seenInitialSessions.order.length < 2 ^ 32
  transcripts : cl.seenInitialTranscripts.order.length < 2 ^ 32

/-- What `writeLocalState` has exported and checked. -/
theorem writeLocalState_eq_ok {cl : Client Bytes} {order : Iteration} {writer : StateWriter}
    (h : writeLocalState p cl order = .ok writer) :
    ∃ mldsa pq pool, p.mldsa.exportPrivateKey cl.identityMldsaKey.privateKey = .ok mldsa ∧
      p.mlkem.exportPrivateKey cl.signedPrekeyPqPrivate.privateKey = .ok pq ∧
      writeOneTimePq p cl.oneTimePqPool = .ok pool ∧
      cl.trustedPeerIdentities.keys.card ≤ kMaxPersistedPeers ∧
      cl.sessionsByPeer.keys.card ≤ kMaxPersistedSessions ∧
      writer = (localStateFields cl order mldsa pq pool).flatten := by
  obtain ⟨mldsa, hmldsa, h⟩ := Result.bind_eq_ok.mp h
  obtain ⟨pq, hpq, h⟩ := Result.bind_eq_ok.mp h
  obtain ⟨pool, hpool, h⟩ := Result.bind_eq_ok.mp h
  split at h
  · cases h
  · split at h
    · cases h
    · rename_i hpeers hsessions
      exact ⟨mldsa, pq, pool, Result.within_eq_ok.mp hmldsa, Result.within_eq_ok.mp hpq, hpool,
        not_lt.mp hpeers, not_lt.mp hsessions, (Except.ok.inj h).symm⟩

/-- **The reader does to the payload what `restoreState` does to the client it holds.**  The proof
goes along the fields; the checks of the two functions come in the same order. -/
theorem yields_localState {cl : Client Bytes} {order : Iteration} {writer : StateWriter}
    {userId : Bytes} {w : World Bytes S} (hw : w.client.userId = userId) (hp : Restorable p cl)
    (horder : order.Of cl) (hcount : Countable cl)
    (hwrite : writeLocalState p cl order = .ok writer)
    (hsmall : writer.Small) :
    Yields (readLocalState p userId) writer.take (checked (restoreState cl) w cl.reload) := by
  obtain ⟨mldsa, pq, pool, hmldsa, hpq, hpool, hpeers, hsessions, rfl⟩ :=
    writeLocalState_eq_ok hwrite
  simp only [localStateFields, StateWriter.small_flatten, List.forall_mem_cons,
    List.not_mem_nil, false_imp_iff, implies_true, and_true] at hsmall
  obtain ⟨hs₁, hs₂, hs₃, hs₄, hs₅, hs₆, -, hs₇, -, hs₈, -, -, -, hs₁₀, -, hs₁₁, -, hs₁₂, -,
    hs₁₃⟩ := hsmall
  subst hw
  refine yields_group ((yields_header hs₁).within _) (.require_bind rfl ?_)
  refine .checked fun huser => .require_bind rfl ?_
  refine yields_group ((yields_keyPair cl.identitySignKey hs₂).within _) ?_
  refine yields_group ((yields_keyPair ⟨mldsa, _⟩ hs₃).within _) ?_
  refine .ofExcept_bind (hp.identityMldsa.fromPrivateKey hmldsa) ?_
  refine yields_group ((yields_keyPair cl.identityDhKey hs₄).within _) ?_
  refine yields_group ((yields_signedPrekey hs₅).within _) ?_
  refine yields_group ((yields_signedPrekey hs₆).within _) ?_
  refine .ofExcept_bind (hp.signedPrekeyPq.fromPrivateKey hpq) ?_
  refine yields_count hcount.ec (by decide) (by decide) fun _ => ?_
  refine yields_group (yields_oneTimeEc hs₇) ?_
  refine yields_count hcount.pq (by decide) (by decide) fun _ => ?_
  refine yields_group (yields_oneTimePq hp.oneTimePq hpool hs₈) ?_
  refine yields_group (yields_one ((yields_u8 _).within _)) ?_
  refine yields_group (yields_pendingAck _) ?_
  rw [← horder.peers.length_eq, ← horder.sessions.length_eq]
  refine yields_count (horder.peers.length_eq ▸ hpeers.trans_lt (by decide)) (by decide)
    (by decide) fun _ => ?_
  refine yields_group (yields_list hs₁₀ fun _ => yields_peer) ?_
  refine yields_count (horder.sessions.length_eq ▸ hsessions.trans_lt (by decide)) (by decide)
    (by decide) fun _ => ?_
  refine yields_group (yields_list hs₁₁ fun _ => yields_session) ?_
  refine yields_count hcount.sessions (by decide) (by decide) fun _ => ?_
  refine yields_group (yields_strings hs₁₂) ?_
  refine yields_count hcount.transcripts (by decide) (by decide) fun _ => ?_
  refine yields_group (yields_strings hs₁₃) ?_
  rw [flag_ne_zero, tableOf, tableOf, horder.peers.foldl_insert, horder.sessions.foldl_insert,
    ← huser]
  exact .pure _

end Payload

/-! ## 9. The file -/

section File

variable {S : Type} {p : Provider} {env env' : Environment}

/-- `Open` inverts `Seal`. -/
def Provider.OpensSeals (p : Provider) : Prop := ∀ {key nonce plaintext ad ciphertext : Bytes},
  aeadSeal p.crypto key nonce plaintext ad = .ok ciphertext →
    aeadOpen p.crypto key nonce ciphertext ad = .ok plaintext

theorem drawn_eq_ok {n : Nat} {x : Option (Block n)} {b : Bytes} (h : drawn x = .ok b) :
    b.length = n := by
  rcases x with _ | b'
  · cases h
  · obtain rfl := Except.ok.inj h
    exact b'.property

/-- The values of a successful `encryptStatePayload`. -/
theorem encryptStatePayload_eq_ok {plaintext file : Bytes}
    (h : encryptStatePayload p env plaintext = .ok file) :
    ∃ passphrase salt key nonce ciphertext, readStatePassphrase env = .ok passphrase ∧
      salt.length = kStateEncryptionSaltBytes ∧ nonce.length = kNonceSize ∧
      deriveStateEncryptionKey p passphrase salt = .ok key ∧
      aeadSeal p.crypto key nonce plaintext kLocalStateEncryptedMagic = .ok ciphertext ∧
      file = StateWriter.take
        [.bytes kLocalStateEncryptedMagic, .bytes salt, .bytes nonce, .bytes ciphertext] := by
  obtain ⟨passphrase, hpass, h⟩ := Result.bind_eq_ok.mp h
  obtain ⟨salt, hsalt, h⟩ := Result.bind_eq_ok.mp h
  obtain ⟨key, hkey, h⟩ := Result.bind_eq_ok.mp h
  obtain ⟨nonce, hnonce, h⟩ := Result.bind_eq_ok.mp h
  obtain ⟨ciphertext, hseal, h⟩ := Result.bind_eq_ok.mp h
  exact ⟨passphrase, salt, key, nonce, ciphertext, hpass, drawn_eq_ok hsalt, drawn_eq_ok hnonce,
    hkey, Result.within_eq_ok.mp hseal, (Except.ok.inj h).symm⟩

/-- A file that was written under the same passphrase is unwrapped to its payload. -/
theorem unwrapStatePayload_encryptStatePayload (hp : p.OpensSeals)
    (hpass : env'.passphrase = env.passphrase) {plaintext file : Bytes}
    (h : encryptStatePayload p env plaintext = .ok file) (hfile : file.length < 2 ^ 32) :
    unwrapStatePayload p env' file = .ok plaintext := by
  obtain ⟨passphrase, salt, key, nonce, ciphertext, hread, hsalt, hnonce, hkey, hseal, rfl⟩ :=
    encryptStatePayload_eq_ok h
  have hciphertext : ciphertext.length < 2 ^ 32 := by
    refine lt_of_le_of_lt ?_ hfile
    simp only [StateWriter.take_cons, StateWriter.take_nil, Field.put, putBytes,
      List.length_append]
    omega
  have hwrapper : readWrapper
      (StateWriter.take [.bytes salt, .bytes nonce, .bytes ciphertext]) =
      (.ok (salt, nonce, ciphertext), []) := by
    have hfields : Yields readHeader
        (StateWriter.take [.bytes salt, .bytes nonce, .bytes ciphertext])
        (.ok (salt, nonce, ciphertext)) := by
      refine yields_header ?_
      simp only [StateWriter.small_bytes, StateWriter.small_nil, hsalt, hnonce, and_true]
      exact ⟨by decide, by decide, hciphertext⟩
    have hread := hfields.within "decode local state wrapper failed: " []
    rw [List.append_nil] at hread
    exact Proc.bind_ok hread _
  have hmagic := (yields_bytes (b := kLocalStateEncryptedMagic) (by decide)).within
    "decode local state wrapper failed: "
    (StateWriter.take [.bytes salt, .bytes nonce, .bytes ciphertext])
  have hread' : readStatePassphrase env' = .ok passphrase := by
    rw [readStatePassphrase, hpass]
    exact hread
  rw [unwrapStatePayload, StateWriter.take_cons, hmagic]
  dsimp only
  rw [if_neg (by decide), if_neg (by simp), hwrapper, hread']
  refine Result.bind_eq_ok.mpr ⟨_, rfl, Result.bind_eq_ok.mpr ⟨_, rfl, ?_⟩⟩
  exact Result.bind_eq_ok.mpr ⟨key, hkey, Result.within_eq_ok.mpr (hp hseal)⟩

/-- **What `LoadLocalState` makes of a file that `SaveLocalState` has written is what
`restoreState` makes of the client it was written for.** -/
theorem loadLocalState_file (hp : p.OpensSeals) (hpass : env'.passphrase = env.passphrase)
    {cl : Client Bytes} {order : Iteration} (hrestore : Restorable p cl) (horder : order.Of cl)
    (hcount : Countable cl)
    (hsmall : ∀ writer, writeLocalState p cl order = .ok writer → writer.Small) {file : Bytes}
    (hsave : saveLocalState p env cl order = .ok file) (hfile : file.length ≤ kMaxStateFileBytes)
    (w : World Bytes S) :
    loadLocalState p env' w.client.userId (some file) =
      checked (restoreState cl) w cl.reload := by
  obtain ⟨writer, hwrite, hencrypt⟩ := Result.bind_eq_ok.mp hsave
  have hread : readAllFile (some file) = .ok file := if_neg (not_lt.mpr hfile)
  have hunwrap := unwrapStatePayload_encryptStatePayload hp hpass hencrypt
    (hfile.trans_lt (by decide))
  have hstate := yields_localState (w := w) rfl hrestore horder hcount hwrite (hsmall _ hwrite)
  have hload : loadLocalState p env' w.client.userId (some file) =
      ((do
        let client ← readLocalState p w.client.userId
        Reader.finished "decode local state failed: trailing bytes"
        pure client) writer.take).1 := by
    rw [loadLocalState, hread]
    show (unwrapStatePayload p env' file >>= _) = _
    rw [hunwrap]
    rfl
  rw [hload]
  rcases hr : checked (restoreState cl) w cl.reload with e | client
  · rw [hr] at hstate
    have h := hstate []
    rw [List.append_nil] at h
    rw [Proc.bind_error (Prod.ext h rfl)]
  · rw [hr] at hstate
    have h := hstate []
    rw [List.append_nil] at h
    rw [Proc.bind_ok h]
    rfl

end File

/-! ## 10. A client within the limits -/

section Limits

variable {B S : Type} [DecidableEq B]

/-- The public key of a signed or one-time prekey is the same in both of its parts. -/
structure KeysPaired (cl : Client B) : Prop where
  ec : cl.signedPrekeyEcPublic.publicKey = cl.signedPrekeyEcPrivate.publicKey
  pq : cl.signedPrekeyPqPublic.publicKey = cl.signedPrekeyPqPrivate.publicKey
  oneTimeEc : ∀ key ∈ cl.oneTimeEcPool, key.publicPart.publicKey = key.privatePart.publicKey
  oneTimePq : ∀ key ∈ cl.oneTimePqPool, key.publicPart.publicKey = key.privatePart.publicKey

/-- The set of a replay guard holds what its deque holds. -/
def Settled (guard : ReplayGuard B) : Prop := guard.seen = guard.order.toFinset

instance (guard : ReplayGuard B) : Decidable (Settled guard) :=
  inferInstanceAs (Decidable (_ = _))

theorem Settled.reload {guard : ReplayGuard B} (h : Settled guard) : guard.reload = guard := by
  rw [ReplayGuard.reload, ← h]

/-- What `LoadLocalState` asks of the containers. -/
structure WithinLimits (cl : Client B) : Prop where
  ec : cl.oneTimeEcPool.length ≤ kOneTimePrekeyPoolTarget * 64
  pq : cl.oneTimePqPool.length ≤ kOneTimePrekeyPoolTarget * 64
  peers : cl.trustedPeerIdentities.keys.card ≤ kMaxPersistedPeers
  sessions : cl.sessionsByPeer.keys.card ≤ kMaxPersistedSessions
  seenSessions : cl.seenInitialSessions.order.length ≤ kMaxInitialReplayGuards
  seenTranscripts : cl.seenInitialTranscripts.order.length ≤ kMaxInitialReplayGuards

theorem WithinLimits.countable {cl : Client Bytes} (h : WithinLimits cl) : Countable cl where
  ec := h.ec.trans_lt (by decide)
  pq := h.pq.trans_lt (by decide)
  sessions := h.seenSessions.trans_lt (by decide)
  transcripts := h.seenTranscripts.trans_lt (by decide)

omit [DecidableEq B] in
theorem KeysPaired.map_reload {pool : List (OneTimeKey B)}
    (h : ∀ key ∈ pool, key.publicPart.publicKey = key.privatePart.publicKey) :
    pool.map OneTimeKey.reload = pool := by
  refine (List.map_congr_left fun key hkey => ?_).trans (List.map_id _)
  rw [OneTimeKey.reload, h key hkey]
  rfl

/-- Such a client is reloaded as it was. -/
theorem KeysPaired.reload {cl : Client B} (h : KeysPaired cl)
    (hsessions : Settled cl.seenInitialSessions)
    (htranscripts : Settled cl.seenInitialTranscripts) : cl.reload = cl := by
  rw [Client.reload, h.ec, h.pq, map_reload h.oneTimeEc, map_reload h.oneTimePq, hsessions.reload,
    htranscripts.reload]

theorem checked_restoreState {cl : Client B} (h : WithinLimits cl) {w : World B S}
    (hw : cl.userId = w.client.userId) : checked (restoreState cl) w cl.reload = .ok cl.reload := by
  have hrun : restoreState cl w = (.ok (), { w with client := cl.reload }) := by
    rw [restoreState, Proc.get_bind_apply, Proc.require_pos hw, Proc.require_pos h.ec,
      Proc.require_pos h.pq, Proc.require_pos h.peers, Proc.require_pos h.sessions,
      Proc.require_pos h.seenSessions, Proc.require_pos h.seenTranscripts]
    rfl
  rw [checked, hrun]
  rfl

/-- **The state file holds the client.**  What `SaveLocalState` has written, in whatever order it
went over the tables, `LoadLocalState` reads back. -/
theorem loadLocalState_saveLocalState {p : Provider} {env env' : Environment}
    (hp : p.OpensSeals) (hpass : env'.passphrase = env.passphrase) {cl : Client Bytes}
    {order : Iteration} (hrestore : Restorable p cl) (horder : order.Of cl)
    (hlimits : WithinLimits cl) (hpaired : KeysPaired cl)
    (hsessions : Settled cl.seenInitialSessions)
    (htranscripts : Settled cl.seenInitialTranscripts)
    (hsmall : ∀ writer, writeLocalState p cl order = .ok writer → writer.Small) {file : Bytes}
    (hsave : saveLocalState p env cl order = .ok file)
    (hfile : file.length ≤ kMaxStateFileBytes) :
    loadLocalState p env' cl.userId (some file) = .ok cl := by
  let w : World Bytes Unit :=
    { client := cl, server := (), disk := none, entropy := id, drawn := 0
      diskOutcome := fun _ => .ok, diskUses := 0, trace := [] }
  have hload := loadLocalState_file hp hpass hrestore horder hlimits.countable hsmall hsave hfile w
  rw [checked_restoreState hlimits rfl, hpaired.reload hsessions htranscripts] at hload
  exact hload

end Limits

/-! ## 11. An instance -/

section Instance

/-- Crypto that keeps its laws and no secrets: a private key is its public key, a signature is the
message under the key, and a ciphertext is the plaintext with a tag. -/
def transparentCrypto : Crypto Bytes where
  sha256 x := .ok ((x ++ List.replicate 32 0).take 32)
  hkdfSha256 ikm _ _ n := .ok ((ikm ++ List.replicate n 0).take n)
  evpSeal _ _ plaintext _ := .ok (plaintext ++ List.replicate kTagSize 0)
  evpOpen _ _ ciphertext _ := .ok (ciphertext.take (ciphertext.length - kTagSize))
  x25519Generate n := .ok ⟨be32 (.ofNat n), be32 (.ofNat n)⟩
  x25519SharedSecret a b :=
    if b.length ≤ 32 then .ok (List.zipWith (· ^^^ ·) a b) else .error "new_raw_public_key failed"
  ed25519Generate n := .ok ⟨be32 (.ofNat n), be32 (.ofNat n)⟩
  ed25519Sign key message := .ok (key ++ message)
  ed25519Verify key message signature :=
    if signature = key ++ message then .ok () else .error "signature verification failed"
  mldsa65Generate n := .ok ⟨be32 (.ofNat n), be32 (.ofNat n)⟩
  mldsa65Sign key message := .ok (key ++ message)
  mldsa65Verify key message signature :=
    if signature = key ++ message then .ok () else .error "signature verification failed"
  mlkem768Generate n := .ok ⟨be32 (.ofNat n), be32 (.ofNat n)⟩
  mlkem768Encapsulate n key := .ok ⟨be32 (.ofNat n), List.zipWith (· ^^^ ·) key (be32 (.ofNat n))⟩
  mlkem768Decapsulate key ciphertext := .ok (List.zipWith (· ^^^ ·) key ciphertext)
  randBytes16 n := .ok (be32 (.ofNat n) ++ List.replicate 12 0)
  randUint32 n := .ok (.ofNat n)

/-- A private key of four bytes is exported with a padding. -/
def paddedKeys (size : Nat) : PrivateKeys where
  exportPrivateKey key := .ok (key ++ List.replicate (size - 4) 0)
  keyPairFromRaw stored _ := .ok (stored.take 4)

def transparent : Provider where
  crypto := transparentCrypto
  mldsa := paddedKeys mldsaPrivateKeySize
  mlkem := paddedKeys mlkemPrivateKeySize
  pbkdf2Hmac _ _ _ n := some ⟨List.replicate n 0, List.length_replicate⟩

def someEnvironment : Environment where
  passphrase := some (ascii "correct horse battery staple")
  salt := some ⟨List.replicate kStateEncryptionSaltBytes 7, List.length_replicate⟩
  nonce := some ⟨List.replicate kNonceSize 9, List.length_replicate⟩

theorem transparent_opensSeals : transparent.OpensSeals := by
  intro key nonce plaintext ad ciphertext h
  unfold aeadSeal at h
  split_ifs at h with hkey hnonce
  obtain rfl := Except.ok.inj h
  have hsize : ¬ size (plaintext ++ List.replicate kTagSize (0 : UInt8)) < kTagSize := by
    show ¬ (plaintext ++ List.replicate kTagSize (0 : UInt8)).length < kTagSize
    simp
  rw [aeadOpen, if_neg hkey, if_neg hnonce, if_neg hsize]
  simp [transparent, transparentCrypto]

theorem paddedKeys_inverse {size : Nat} {privateKey publicKey : Bytes}
    (h : privateKey.length = 4) : (paddedKeys size).Inverse privateKey publicKey := by
  intro stored hexport
  obtain rfl := Except.ok.inj hexport
  exact congrArg Except.ok (List.take_left' h)

/-- A client with an entry in each of its containers. -/
def alice : Client Bytes :=
  let pair : KeyPair Bytes := ⟨be32 1, be32 1⟩
  let session : SessionState Bytes :=
    { sessionId := ascii "5e", peerUser := ascii "bob", isInitiator := true, rootKey := [3]
      sendChainKey := [4], recvChainKey := [5], sendCounter := 2, recvCounter := 1
      localRatchetKey := pair, remoteRatchetPublic := [6] }
  { Client.blank (ascii "alice") with
    identityMldsaKey := pair
    signedPrekeyPqPublic := ⟨1, pair.publicKey, [7], [8]⟩
    signedPrekeyPqPrivate := pair
    oneTimeEcPool := [OneTimeKey.make 8 pair]
    oneTimePqPool := [OneTimeKey.make 9 pair]
    prekeysDirty := true
    pendingInboxAckUpToId := some 7
    trustedPeerIdentities := (∅ : Table Bytes _).insert (ascii "bob") ⟨[1], [2], [3], true⟩
    sessionsByPeer := (∅ : Table Bytes _).insert (ascii "bob") session
    seenInitialSessions := ⟨{ascii "5e"}, [ascii "5e"]⟩
    seenInitialTranscripts := ⟨{ascii "7a"}, [ascii "7a"]⟩ }

/-- Her tables have one entry each. -/
def aliceOrder : Iteration where
  peers := [⟨ascii "bob", ⟨[1], [2], [3], true⟩⟩]
  sessions := (alice.sessionsByPeer.lookup (ascii "bob")).toList.map fun s => ⟨ascii "bob", s⟩

theorem loadLocalState_saveLocalState_alice :
    ∃ file, saveLocalState transparent someEnvironment alice aliceOrder = .ok file ∧
      loadLocalState transparent someEnvironment alice.userId (some file) = .ok alice := by
  let file := (saveLocalState transparent someEnvironment alice aliceOrder).toOption.getD []
  have hsave : saveLocalState transparent someEnvironment alice aliceOrder = .ok file := rfl
  have horder : aliceOrder.Of alice := ⟨rfl, rfl⟩
  refine ⟨file, hsave, loadLocalState_saveLocalState transparent_opensSeals rfl
    ⟨paddedKeys_inverse rfl, paddedKeys_inverse rfl, fun key hkey => ?_⟩ horder
    ⟨by decide, by decide, by decide, by decide, by decide, by decide⟩
    ⟨rfl, rfl, by simp [alice, OneTimeKey.make], by simp [alice, OneTimeKey.make]⟩
    (by decide) (by decide) (fun writer h => ?_) hsave (by decide +kernel)⟩
  · obtain rfl := List.mem_singleton.mp hkey
    exact paddedKeys_inverse rfl
  · obtain rfl : _ = writer := Except.ok.inj h
    exact StateWriter.small_of_length (by decide +kernel)

end Instance

end StateFile

end PqChat
