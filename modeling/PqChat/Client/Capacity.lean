/-
# What fits into the state file

`SaveLocalState` refuses more than 1024 peers and more than 256 sessions; `LoadLocalState` refuses
more entries than it expects and a file of more than 16 MiB.  Two kinds of containers are kept below
their limits where they grow: a pool is refilled up to sixteen keys, and a replay guard evicts its
oldest entries (`Bounded`).  For the others no limit is looked at before the file is written, and
for the size of the file not even then: the peers, the sessions, and the strings that peers choose
grow as long as messages come in.

So a client of a run can be stored and loaded exactly when its peers, its sessions and the sum of
its strings are within the limits (`storable_iff`).
-/
import PqChat.Client.StateFile
import Mathlib.Tactic.Ring

set_option linter.unusedSectionVars false

namespace PqChat

open ByteString Codec StateFile

/-! ## 1. What stays small in every run -/

section Bounded

variable {B S : Type} [ByteString B] [DecidableEq B]

/-- The containers that are kept below their limits where they grow. -/
structure Bounded (cl : Client B) : Prop where
  ec : cl.oneTimeEcPool.length ≤ kOneTimePrekeyPoolTarget
  pq : cl.oneTimePqPool.length ≤ kOneTimePrekeyPoolTarget
  sessions : cl.seenInitialSessions.order.length ≤ kMaxInitialReplayGuards
  transcripts : cl.seenInitialTranscripts.order.length ≤ kMaxInitialReplayGuards

theorem evictOldest_length_le (max : Nat) (seen : Finset B) (order : List B) :
    (evictOldest max seen order).order.length ≤ max := by
  induction order generalizing seen with
  | nil => exact Nat.zero_le _
  | cons oldest rest ih =>
    rw [evictOldest]
    split
    · exact ih _
    · rename_i h
      exact not_lt.mp h

theorem evict_length_le (guard : ReplayGuard B) :
    guard.evict.order.length ≤ kMaxInitialReplayGuards :=
  evictOldest_length_le _ _ _

/-- A step adds a key only to a pool that is not full, and evicts after it has remembered. -/
theorem Move.bounded {P : Crypto B → Prop} {v : Observer S} {w w' : World B S}
    (hm : Move P v w w') (h : Bounded w.client) : Bounded w'.client := by
  have herase : ∀ {pool : List (OneTimeKey B)} {id : UInt32},
      pool.length ≤ kOneTimePrekeyPoolTarget →
        (eraseOneTimeKey pool id).length ≤ kOneTimePrekeyPoolTarget :=
    fun hpool => List.length_eraseP_le.trans hpool
  cases hm with
  | addEc hc hgen h0 hfree hlen =>
    refine ⟨?_, h.pq, h.sessions, h.transcripts⟩
    rw [List.length_append, List.length_singleton]
    exact hlen
  | addPq hc hgen h0 hfree hlen =>
    refine ⟨h.ec, ?_, h.sessions, h.transcripts⟩
    rw [List.length_append, List.length_singleton]
    exact hlen
  | initiate => exact ⟨h.ec, h.pq, evict_length_le _, evict_length_le _⟩
  | accept => exact ⟨herase h.ec, herase h.pq, evict_length_le _, evict_length_le _⟩
  | _ => exact ⟨h.ec, h.pq, h.sessions, h.transcripts⟩

theorem Bounded.reload {cl : Client B} (h : Bounded cl) : Bounded cl.reload :=
  ⟨(List.length_map _).trans_le h.ec, (List.length_map _).trans_le h.pq, h.sessions,
    h.transcripts⟩

/-- The public keys stay paired, too. -/
theorem Move.keysPaired {P : Crypto B → Prop} {v : Observer S} {w w' : World B S}
    (hm : Move P v w w') (h : KeysPaired w.client) : KeysPaired w'.client := by
  have hadd : ∀ {pool : List (OneTimeKey B)} {id : UInt32} {pair : KeyPair B},
      (∀ key ∈ pool, key.publicPart.publicKey = key.privatePart.publicKey) →
        ∀ key ∈ pool ++ [OneTimeKey.make id pair],
          key.publicPart.publicKey = key.privatePart.publicKey := by
    intro pool id pair hpool key hkey
    rcases List.mem_append.mp hkey with hkey | hkey
    · exact hpool key hkey
    · rw [List.mem_singleton.mp hkey]
      rfl
  cases hm with
  | addEc => exact ⟨h.ec, h.pq, hadd h.oneTimeEc, h.oneTimePq⟩
  | addPq => exact ⟨h.ec, h.pq, h.oneTimeEc, hadd h.oneTimePq⟩
  | accept =>
    exact ⟨h.ec, h.pq, fun key hkey => h.oneTimeEc key (List.mem_of_mem_eraseP hkey),
      fun key hkey => h.oneTimePq key (List.mem_of_mem_eraseP hkey)⟩
  | _ => exact ⟨h.ec, h.pq, h.oneTimeEc, h.oneTimePq⟩

theorem keysPaired_reload (cl : Client B) : KeysPaired cl.reload := by
  have hpool : ∀ pool : List (OneTimeKey B), ∀ key ∈ pool.map OneTimeKey.reload,
      key.publicPart.publicKey = key.privatePart.publicKey := by
    intro pool key hkey
    obtain ⟨key, -, rfl⟩ := List.mem_map.mp hkey
    rfl
  exact ⟨rfl, rfl, hpool _, hpool _⟩

/-- **Every client of a run is bounded, and its keys are paired.** -/
theorem Reach.bounded {P : Crypto B → Prop} {w : World B S} (h : Reach P true w) :
    Bounded w.client ∧ KeysPaired w.client := by
  have key := h.invariant (D := fun w => ∀ d, w.disk = some d → Bounded d)
    (I := fun w => (Bounded w.client ∧ KeysPaired w.client) ∧ ∀ d, w.disk = some d → Bounded d)
    ?_ ?_ ?_ ?_ ?_
  · exact (key.2 rfl).1
  · intro w hd _ d hd'
    rw [hd] at hd'
    cases hd'
  · intro w w₁ hD hb
    cases hb with
    | load saved n hdisk => exact ⟨⟨(hD saved hdisk).reload, keysPaired_reload saved⟩, hD⟩
    | identity hc userId d n run =>
      exact ⟨⟨⟨Nat.zero_le _, Nat.zero_le _, Nat.zero_le _, Nat.zero_le _⟩,
        ⟨rfl, rfl, nofun, nofun⟩⟩, hD⟩
  · intro w w₁ hI hm
    refine ⟨⟨hm.bounded hI.1.1, hm.keysPaired hI.1.2⟩, ?_⟩
    cases hm with
    | save =>
      intro d hd
      obtain rfl := Option.some.inj hd
      exact hI.1.1
    | _ => exact hI.2
  · exact fun w hI => hI.2
  · intro w w₁ hD hd _
    rw [hd]
    exact hD

end Bounded

/-! ## 2. The size of the file -/

namespace StateFile

/-- The bytes that a field takes. -/
def Field.length : Field → Nat
  | .u8 _ => 1
  | .u32 _ => 4
  | .u64 _ => 8
  | .bytes b => 4 + b.length

def StateWriter.length (writer : StateWriter) : Nat := (writer.map Field.length).sum

namespace StateWriter

@[simp] theorem length_nil : length [] = 0 := rfl

@[simp] theorem length_cons (field : Field) (writer : StateWriter) :
    length (field :: writer) = field.length + length writer := rfl

@[simp] theorem length_append (writer writer' : StateWriter) :
    length (writer ++ writer') = writer.length + writer'.length := by
  rw [length, List.map_append, List.sum_append]
  rfl

theorem length_flatMap {α : Type} (put : α → StateWriter) (l : List α) :
    length (l.flatMap put) = (l.map fun x => (put x).length).sum := by
  induction l with
  | nil => rfl
  | cons x l ih => rw [List.flatMap_cons, length_append, ih, List.map_cons, List.sum_cons]

theorem length_take (writer : StateWriter) : writer.take.length = writer.length := by
  induction writer with
  | nil => rfl
  | cons field writer ih =>
    have hfield : field.put.length = field.length := by
      cases field with
      | u8 | u32 | u64 => rfl
      | bytes b =>
        rw [Field.put, putBytes, List.length_append]
        rfl
    rw [take_cons, List.length_append, ih, hfield, length_cons]

end StateWriter

/-- What an entry of the peers takes: four strings and a flag. -/
def peerSize (e : Sigma fun _ : Bytes => PeerIdentity Bytes) : Nat :=
  17 + e.1.length + e.2.signPublicKey.length + e.2.mldsaPublicKey.length +
    e.2.dhPublicKey.length

/-- What an entry of the sessions takes: nine strings, a flag and three counters. -/
def sessionSize (e : Sigma fun _ : Bytes => SessionState Bytes) : Nat :=
  61 + e.1.length + e.2.sessionId.length + e.2.peerUser.length + e.2.rootKey.length +
    e.2.sendChainKey.length + e.2.recvChainKey.length + e.2.localRatchetKey.privateKey.length +
    e.2.localRatchetKey.publicKey.length + e.2.remoteRatchetPublic.length

/-- A signed prekey: an id and four strings. -/
def signedPrekeySize (spk : SignedPrekey Bytes) (privateSize : Nat) : Nat :=
  20 + spk.publicKey.length + spk.signatureEd25519.length + spk.signatureMldsa65.length +
    privateSize

/-- A key pair as two strings. -/
def keyPairSize (privateSize : Nat) (publicKey : Bytes) : Nat :=
  8 + privateSize + publicKey.length

/-- What is the same for good once a client is created: its name and its long-term keys. -/
def identitySize (cl : Client Bytes) : Nat :=
  12 + kLocalStatePayloadMagic.length + cl.userId.length + (kProtocolVersion : Bytes).length +
    keyPairSize cl.identitySignKey.privateKey.length cl.identitySignKey.publicKey +
    keyPairSize mldsaPrivateKeySize cl.identityMldsaKey.publicKey +
    keyPairSize cl.identityDhKey.privateKey.length cl.identityDhKey.publicKey +
    signedPrekeySize cl.signedPrekeyEcPublic cl.signedPrekeyEcPrivate.privateKey.length +
    signedPrekeySize cl.signedPrekeyPqPublic mlkemPrivateKeySize

def peersSize (cl : Client Bytes) : Nat :=
  (cl.trustedPeerIdentities.entries.map peerSize).sum

/-- The deque of a guard. -/
def guardSize (order : List Bytes) : Nat := (order.map fun b => 4 + b.length).sum

/-- What a client takes in the payload. -/
def payloadSize (cl : Client Bytes) : Nat :=
  identitySize cl +
    (4 + (cl.oneTimeEcPool.map fun key =>
      12 + key.publicPart.publicKey.length + key.privatePart.privateKey.length).sum) +
    (4 + (cl.oneTimePqPool.map fun key =>
      12 + key.publicPart.publicKey.length + mlkemPrivateKeySize).sum) +
    (if cl.pendingInboxAckUpToId.isSome then 10 else 2) +
    (4 + peersSize cl) + (4 + (cl.sessionsByPeer.entries.map sessionSize).sum) +
    (4 + guardSize cl.seenInitialSessions.order) +
    (4 + guardSize cl.seenInitialTranscripts.order)

/-- The wrapper around the payload: four strings, and the tag. -/
def wrapperSize : Nat :=
  16 + kLocalStateEncryptedMagic.length + kStateEncryptionSaltBytes + kNonceSize + kTagSize

/-- What the file takes. -/
def fileSize (cl : Client Bytes) : Nat := wrapperSize + payloadSize cl

theorem length_oneTimePq {p : Provider} {pool : List (OneTimeKey Bytes)} {writer : StateWriter}
    (hp : ∀ key ∈ pool, ∀ stored, p.mlkem.exportPrivateKey key.privatePart.privateKey = .ok stored →
      stored.length = mlkemPrivateKeySize)
    (hw : writeOneTimePq p pool = .ok writer) :
    writer.length = (pool.map fun key =>
      12 + key.publicPart.publicKey.length + mlkemPrivateKeySize).sum := by
  induction pool generalizing writer with
  | nil =>
    obtain rfl := Except.ok.inj hw
    rfl
  | cons key pool ih =>
    obtain ⟨hkey, hpool⟩ := List.forall_mem_cons.mp hp
    obtain ⟨priv, hexport, hw⟩ := Result.bind_eq_ok.mp hw
    obtain ⟨rest, hrest, hw⟩ := Result.bind_eq_ok.mp hw
    obtain rfl := Except.ok.inj hw
    have hpriv := hkey priv (Result.within_eq_ok.mp hexport)
    rw [StateWriter.length_append, ih hpool hrest, List.map_cons, List.sum_cons]
    simp only [writeOneTime, StateWriter.length_cons, StateWriter.length_nil, Field.length, hpriv]
    omega

/-- The sum over a table does not depend on the order of the iteration. -/
theorem sum_iterates {V : Type} {table : Table Bytes V} {l : List (Sigma fun _ : Bytes => V)}
    (h : table.Iterates l) (f : (Sigma fun _ : Bytes => V) → Nat) :
    (l.map f).sum = (table.entries.map f).sum := by
  rw [h, Multiset.map_coe, Multiset.sum_coe]

/-- The size of the payload is the sum of what its fields take. -/
theorem length_localStateFields {cl : Client Bytes} {order : Iteration}
    (horder : order.Of cl) {mldsa pq : Bytes} {pool : StateWriter}
    (hmldsa : mldsa.length = mldsaPrivateKeySize) (hpq : pq.length = mlkemPrivateKeySize)
    (hpool : pool.length = (cl.oneTimePqPool.map fun key =>
      12 + key.publicPart.publicKey.length + mlkemPrivateKeySize).sum) :
    StateWriter.length (localStateFields cl order mldsa pq pool).flatten = payloadSize cl := by
  have hec : (writeOneTimeEc cl.oneTimeEcPool).length = (cl.oneTimeEcPool.map fun key =>
      12 + key.publicPart.publicKey.length + key.privatePart.privateKey.length).sum := by
    rw [writeOneTimeEc, StateWriter.length_flatMap]
    congr 1
    refine List.map_congr_left fun key _ => ?_
    simp only [writeOneTime, StateWriter.length_cons, StateWriter.length_nil, Field.length]
    omega
  have hpeers : StateWriter.length (order.peers.flatMap writePeer) =
      peersSize cl := by
    rw [StateWriter.length_flatMap, peersSize, ← sum_iterates horder.peers]
    congr 1
    refine List.map_congr_left fun e _ => ?_
    simp only [writePeer, peerSize, StateWriter.length_cons, StateWriter.length_nil, Field.length,
      Field.flag]
    omega
  have hsessions : StateWriter.length (order.sessions.flatMap writeSession) =
      (cl.sessionsByPeer.entries.map sessionSize).sum := by
    rw [StateWriter.length_flatMap, ← sum_iterates horder.sessions]
    congr 1
    refine List.map_congr_left fun e _ => ?_
    simp only [writeSession, sessionSize, StateWriter.length_cons, StateWriter.length_nil,
      Field.length, Field.flag]
    omega
  have hstrings : ∀ order : List Bytes, StateWriter.length (order.map .bytes) =
      guardSize order := fun order => by
    rw [StateWriter.length, List.map_map]
    rfl
  have hack : (writePendingAck cl.pendingInboxAckUpToId).length + 1 =
      if cl.pendingInboxAckUpToId.isSome then 10 else 2 := by
    rcases cl.pendingInboxAckUpToId with _ | id <;> rfl
  simp only [localStateFields, List.flatten_cons, List.flatten_nil, StateWriter.length_append,
    StateWriter.length_cons, StateWriter.length_nil, hec, hpeers, hsessions, hstrings, hpool,
    writeSignedPrekey, Field.length, Field.size, Field.flag, hmldsa, hpq]
  simp only [payloadSize, identitySize, keyPairSize, signedPrekeySize, ← hack]
  ring

/-! ## 3. When a client can be stored -/

def x25519KeySize : Nat := 32
def mlkemPublicKeySize : Nat := 1184

/-- OpenSSL and the environment do their work: keys are exported and imported, nothing fails, there
is a passphrase, and keys have the sizes of their schemes.  A public key of another size is not
taken for a shared secret. -/
structure Works (p : Provider) (env : Environment) : Prop where
  passphrase : ∃ a rest, env.passphrase = some (a :: rest)
  salt : ∃ salt, env.salt = some salt
  nonce : ∃ nonce, env.nonce = some nonce
  pbkdf2 : ∀ passphrase salt iterations n, ∃ key,
    p.pbkdf2Hmac passphrase salt iterations n = some key
  evpSeal : ∀ key nonce plaintext ad, key.length = kKeySize → nonce.length = kNonceSize →
    ∃ ciphertext, p.crypto.evpSeal key nonce plaintext ad = .ok ciphertext ∧
      ciphertext.length = plaintext.length + kTagSize
  opens : p.OpensSeals
  mldsa : ∀ n pair, p.crypto.mldsa65Generate n = .ok pair → ∃ stored,
    p.mldsa.exportPrivateKey pair.privateKey = .ok stored ∧
      stored.length = mldsaPrivateKeySize ∧
      p.mldsa.keyPairFromRaw stored pair.publicKey = .ok pair.privateKey
  mlkem : ∀ n pair, p.crypto.mlkem768Generate n = .ok pair → ∃ stored,
    p.mlkem.exportPrivateKey pair.privateKey = .ok stored ∧
      stored.length = mlkemPrivateKeySize ∧
      p.mlkem.keyPairFromRaw stored pair.publicKey = .ok pair.privateKey
  x25519Generate : ∀ n pair, p.crypto.x25519Generate n = .ok pair →
    pair.privateKey.length ≤ x25519KeySize ∧ pair.publicKey.length ≤ x25519KeySize
  x25519SharedSecret : ∀ privateKey peerPublicKey secret,
    p.crypto.x25519SharedSecret privateKey peerPublicKey = .ok secret →
      peerPublicKey.length ≤ x25519KeySize
  mlkemGenerate : ∀ n pair, p.crypto.mlkem768Generate n = .ok pair →
    pair.publicKey.length ≤ mlkemPublicKeySize

/-- `SaveLocalState` succeeds, and `LoadLocalState` on the file it wrote. -/
def Storable (p : Provider) (env : Environment) (cl : Client Bytes) : Prop :=
  ∀ order : Iteration, order.Of cl → ∃ file, saveLocalState p env cl order = .ok file ∧
    ∀ env' : Environment, env'.passphrase = env.passphrase →
      ∃ cl', loadLocalState p env' cl.userId (some file) = .ok cl'

/-- The peers, the sessions and the strings are within the limits. -/
structure Fits (cl : Client Bytes) : Prop where
  peers : cl.trustedPeerIdentities.keys.card ≤ kMaxPersistedPeers
  sessions : cl.sessionsByPeer.keys.card ≤ kMaxPersistedSessions
  size : fileSize cl ≤ kMaxStateFileBytes

section Store

variable {p : Provider} {env : Environment} {cl : Client Bytes} {order : Iteration}

theorem exists_order (cl : Client Bytes) : ∃ order : Iteration, order.Of cl := by
  obtain ⟨peers, hpeers⟩ := Quot.exists_rep cl.trustedPeerIdentities.entries
  obtain ⟨sessions, hsessions⟩ := Quot.exists_rep cl.sessionsByPeer.entries
  exact ⟨⟨peers, sessions⟩, ⟨hpeers.symm, hsessions.symm⟩⟩

/-- The keys that the generators made can be restored. -/
theorem Works.restorable (h : Works p env) (hcl : cl.Genuine p.crypto) : Restorable p cl := by
  have hpq : ∀ {n pair publicKey}, p.crypto.mlkem768Generate n = .ok pair →
      publicKey = pair.publicKey → p.mlkem.Inverse pair.privateKey publicKey := by
    intro n pair publicKey hgen hpublic stored hexport
    obtain ⟨stored', hexport', -, himport⟩ := h.mlkem n pair hgen
    obtain rfl := Except.ok.inj (hexport'.symm.trans hexport)
    rw [hpublic]
    exact himport
  refine ⟨fun stored hexport => ?_, ?_, fun key hkey => ?_⟩
  · obtain ⟨n, hgen⟩ := hcl.mldsa
    obtain ⟨stored', hexport', -, himport⟩ := h.mldsa n _ hgen
    obtain rfl := Except.ok.inj (hexport'.symm.trans hexport)
    exact himport
  · obtain ⟨n, hgen⟩ := hcl.spkPq
    exact hpq hgen hcl.spkPq_public
  · obtain ⟨hpublic, n, hgen⟩ := hcl.pq key hkey
    exact hpq hgen hpublic

theorem Works.writeOneTimePq (h : Works p env) {pool : List (OneTimeKey Bytes)}
    (hpool : ∀ key ∈ pool, key.Genuine p.crypto.mlkem768Generate) :
    ∃ writer, StateFile.writeOneTimePq p pool = .ok writer := by
  induction pool with
  | nil => exact ⟨[], rfl⟩
  | cons key pool ih =>
    obtain ⟨⟨-, n, hgen⟩, hpool⟩ := List.forall_mem_cons.mp hpool
    obtain ⟨stored, hexport, -, -⟩ := h.mlkem n _ hgen
    obtain ⟨writer, hwriter⟩ := ih hpool
    refine ⟨writeOneTime key.publicPart stored ++ writer, ?_⟩
    rw [StateFile.writeOneTimePq, hexport, hwriter]
    rfl

/-- The calls of `SaveLocalState` are made exactly within the two limits, and take as much as has
been summed up. -/
theorem Works.writeLocalState (h : Works p env) (hcl : cl.Genuine p.crypto)
    (horder : order.Of cl) (hpeers : cl.trustedPeerIdentities.keys.card ≤ kMaxPersistedPeers)
    (hsessions : cl.sessionsByPeer.keys.card ≤ kMaxPersistedSessions) :
    ∃ writer, StateFile.writeLocalState p cl order = .ok writer ∧
      writer.take.length = payloadSize cl := by
  obtain ⟨n, hgen⟩ := hcl.mldsa
  obtain ⟨mldsa, hmldsa, hmldsaSize, -⟩ := h.mldsa n _ hgen
  obtain ⟨m, hgen⟩ := hcl.spkPq
  obtain ⟨pq, hpq, hpqSize, -⟩ := h.mlkem m _ hgen
  obtain ⟨pool, hpool⟩ := h.writeOneTimePq hcl.pq
  refine ⟨_, ?_, (StateWriter.length_take _).trans
    (length_localStateFields horder hmldsaSize hpqSize (length_oneTimePq ?_ hpool))⟩
  · rw [StateFile.writeLocalState, hmldsa, hpq, hpool]
    show (if _ then _ else if _ then _ else _ : Result StateWriter) = _
    rw [if_neg (not_lt.mpr hpeers), if_neg (not_lt.mpr hsessions)]
  · intro key hkey stored hexport
    obtain ⟨-, k, hgen⟩ := hcl.pq key hkey
    obtain ⟨stored', hexport', hsize, -⟩ := h.mlkem k _ hgen
    obtain rfl := Except.ok.inj (hexport'.symm.trans hexport)
    exact hsize

theorem Works.encrypt (h : Works p env) (plaintext : Bytes) :
    ∃ file, encryptStatePayload p env plaintext = .ok file ∧
      file.length = wrapperSize + plaintext.length := by
  obtain ⟨a, rest, hpass⟩ := h.passphrase
  obtain ⟨salt, hsalt⟩ := h.salt
  obtain ⟨nonce, hnonce⟩ := h.nonce
  obtain ⟨key, hkey⟩ := h.pbkdf2 (a :: rest) salt.val kStatePbkdf2Iterations
    kStateEncryptionKeyBytes
  obtain ⟨ciphertext, hseal, hsize⟩ := h.evpSeal key.val nonce.val plaintext
    kLocalStateEncryptedMagic key.property nonce.property
  have hread : readStatePassphrase env = .ok (a :: rest) := by
    rw [readStatePassphrase, hpass]
  have hderive : deriveStateEncryptionKey p (a :: rest) salt.val = .ok key.val := by
    rw [deriveStateEncryptionKey, if_neg (not_not.mpr salt.property), hkey]
  have hsealed : aeadSeal p.crypto key.val nonce.val plaintext kLocalStateEncryptedMagic =
      .ok ciphertext := by
    have hk : ¬ size key.val ≠ kKeySize := not_not.mpr key.property
    have hn : ¬ size nonce.val ≠ kNonceSize := not_not.mpr nonce.property
    rw [aeadSeal, if_neg hk, if_neg hn]
    exact hseal
  refine ⟨StateWriter.take [.bytes kLocalStateEncryptedMagic, .bytes salt.val, .bytes nonce.val,
    .bytes ciphertext], ?_, ?_⟩
  · rw [encryptStatePayload, hread, hsalt, hnonce]
    show (deriveStateEncryptionKey p (a :: rest) salt.val >>= _) = _
    rw [hderive]
    show (Result.within _ (aeadSeal p.crypto key.val nonce.val plaintext _) >>= _) = _
    rw [hsealed]
    rfl
  · rw [StateWriter.length_take]
    simp only [StateWriter.length_cons, StateWriter.length_nil, Field.length, salt.property,
      nonce.property, hsize, wrapperSize]
    ring

/-- `SaveLocalState` knows two limits. -/
theorem Works.save (h : Works p env) (hcl : cl.Genuine p.crypto) (horder : order.Of cl)
    (hpeers : cl.trustedPeerIdentities.keys.card ≤ kMaxPersistedPeers)
    (hsessions : cl.sessionsByPeer.keys.card ≤ kMaxPersistedSessions) :
    ∃ file, saveLocalState p env cl order = .ok file ∧ file.length = fileSize cl := by
  obtain ⟨writer, hwriter, hsize⟩ := h.writeLocalState hcl horder hpeers hsessions
  obtain ⟨file, hfile, hlength⟩ := h.encrypt writer.take
  refine ⟨file, Result.bind_eq_ok.mpr ⟨writer, hwriter, hfile⟩, ?_⟩
  rw [hlength, hsize, fileSize]

/-- **A client of a run can be stored exactly when its peers, its sessions and its strings are
within the limits.**  The other limits of the two functions are never reached. -/
theorem storable_iff (h : Works p env) (hcl : cl.Genuine p.crypto) (hb : Bounded cl) :
    Storable p env cl ↔ Fits cl := by
  constructor
  · intro hstore
    obtain ⟨order, horder⟩ := exists_order cl
    obtain ⟨file, hsave, hload⟩ := hstore order horder
    obtain ⟨writer, hwrite, -⟩ := Result.bind_eq_ok.mp hsave
    obtain ⟨-, -, -, -, -, -, hpeers, hsessions, -⟩ := writeLocalState_eq_ok hwrite
    obtain ⟨file', hsave', hlength⟩ := h.save hcl horder hpeers hsessions
    obtain rfl := Except.ok.inj (hsave'.symm.trans hsave)
    obtain ⟨cl', hload⟩ := hload env rfl
    obtain ⟨bytes, hread, -⟩ := Result.bind_eq_ok.mp hload
    refine ⟨hpeers, hsessions, ?_⟩
    rw [← hlength]
    rw [readAllFile] at hread
    split at hread
    · cases hread
    · rename_i hsize
      exact not_lt.mp hsize
  · intro hfits order horder
    obtain ⟨file, hsave, hlength⟩ := h.save hcl horder hfits.peers hfits.sessions
    have hpools : kOneTimePrekeyPoolTarget ≤ kOneTimePrekeyPoolTarget * 64 := by decide
    have hlimits : WithinLimits cl := ⟨hb.ec.trans hpools, hb.pq.trans hpools, hfits.peers,
      hfits.sessions, hb.sessions, hb.transcripts⟩
    refine ⟨file, hsave, fun env' hpass => ⟨cl.reload, ?_⟩⟩
    let w : World Bytes Unit :=
      { client := cl, server := (), disk := none, entropy := id, drawn := 0
        diskOutcome := fun _ => .ok, diskUses := 0, trace := [] }
    have hsmall : ∀ writer, StateFile.writeLocalState p cl order = .ok writer → writer.Small := by
      intro writer hwrite
      obtain ⟨writer', hwrite', hsize⟩ :=
        h.writeLocalState hcl horder hfits.peers hfits.sessions
      obtain rfl := Except.ok.inj (hwrite'.symm.trans hwrite)
      have hmax : payloadSize cl ≤ kMaxStateFileBytes := by
        refine le_trans ?_ hfits.size
        rw [fileSize]
        omega
      exact StateWriter.small_of_length (hsize ▸ hmax.trans_lt (by decide))
    rw [← checked_restoreState hlimits (w := w) rfl]
    exact loadLocalState_file h.opens hpass (h.restorable hcl) horder hlimits.countable hsmall
      hsave (hlength ▸ hfits.size) w

end Store

end StateFile

end PqChat
