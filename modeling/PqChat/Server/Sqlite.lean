/-
# SqliteStore

`sqlite_store.cpp`.  The tables are those of `InitSchema`, less the audit log, which nothing
reads.  A table with a primary key is a map; a table with an `AUTOINCREMENT` key is the list of
its rows in the order of their keys, with the counter of `sqlite_sequence`.

A text column is read back as a C string, up to its first zero byte.  A `uint64_t` is stored as
the `sqlite3_int64` with the same bits, so SQL compares times and ids as SIGNED numbers.

`BindBlob` binds an empty vector as NULL, and every blob column is `NOT NULL`.  Only `PublishBundle`
meets that: the other calls check the sizes of the vectors they bind, or bind an encoding, which is
never empty.
-/
import PqChat.Lib.Sql
import PqChat.Server.Api

namespace PqChat

open ByteString Sql

/-! ## 1. The tables -/

/-- A row of `sessions`. -/
structure SqliteStore.SessionRow where
  userId : Bytes
  issuedAtUnix : UInt64
  expiresAtUnix : UInt64
  revoked : Bool := false
  deriving DecidableEq, Repr

/-- A row of a table whose key is `AUTOINCREMENT`. -/
structure SqliteStore.Row (α : Type) where
  rowid : Nat
  userId : Bytes
  value : α
  deriving DecidableEq, Repr

/-- A table whose key is `AUTOINCREMENT`; `last` is the largest key ever given out. -/
structure SqliteStore.RowTable (α : Type) where
  rows : List (SqliteStore.Row α)
  last : Nat
  deriving DecidableEq, Repr

/-- The tables.  A row of `bundles` is a bundle without one-time keys. -/
structure SqliteStore.Tables where
  accounts : Map Bytes Bytes
  authChallenges : Map Bytes ChallengeState
  sessions : Map Bytes SqliteStore.SessionRow
  bundles : Map Bytes (PrekeyBundle Bytes)
  oneTimeEc : SqliteStore.RowTable (OneTimePrekey Bytes)
  oneTimePq : SqliteStore.RowTable (OneTimePrekey Bytes)
  inbox : SqliteStore.RowTable Bytes

/-- `SqliteStore`. -/
structure SqliteStore where
  db : Db SqliteStore.Tables
  tokenHmacSecret : Bytes
  authBeginAttempts : Buckets
  authFinishAttempts : Buckets
  requiredRegistrationToken : Bytes

/-- What is left of a text column when it is read as a C string. -/
def cString (value : Bytes) : Bytes := value.takeWhile (· ≠ 0)

namespace SqliteStore

/-- The tables that `InitSchema` creates in a new database. -/
def Tables.init : Tables :=
  { accounts := ∅, authChallenges := ∅, sessions := ∅, bundles := ∅, oneTimeEc := ⟨[], 0⟩
    oneTimePq := ⟨[], 0⟩, inbox := ⟨[], 0⟩ }

/-- `Open` on a new database. -/
def init (outcome : Nat → Outcome) (tokenHmacSecret requiredRegistrationToken : Bytes) :
    SqliteStore :=
  { db := ⟨Tables.init, none, outcome, 0⟩, tokenHmacSecret, authBeginAttempts := ∅
    authFinishAttempts := ∅, requiredRegistrationToken }

/-- `INSERT` into a table whose key is `AUTOINCREMENT`: the largest key cannot be exceeded. -/
def RowTable.insert {α : Type} (table : RowTable α) (userId : Bytes) (value : α) :
    Except String (RowTable α) :=
  if table.last + 1 < 2 ^ 63 then
    .ok ⟨table.rows ++ [⟨table.last + 1, userId, value⟩], table.last + 1⟩
  else .error "database or disk is full"

/-- The connection of a store. -/
def connection : Holder SqliteStore Tables where
  get := db
  set d s := { s with db := d }
  get_set _ _ := rfl
  set_set _ _ _ := rfl

/-- The connection of a store on its host. -/
def hostedConnection : Holder (Hosted SqliteStore) Tables where
  get s := s.object.db
  set d s := { s with object := { s.object with db := d } }
  get_set _ _ := rfl
  set_set _ _ _ := rfl

/-! ## 2. Authentication -/

section Auth

variable (c : ServerCrypto)

/-- `CleanupAuthState`. -/
def cleanupAuthState (now : UInt64) : Proc (Db Tables) Unit := do
  update fun t => { t with authChallenges := t.authChallenges.sweep fun _ challenge =>
    !(challenge.used || challenge.expiresAtUnix.toInt64 < now.toInt64) }
  update fun t => { t with sessions := t.sessions.sweep fun _ session =>
    !(session.expiresAtUnix.toInt64 < now.toInt64) }

/-- `HashToken`. -/
def hashToken (s : SqliteStore) (token : Bytes) : Result Bytes :=
  c.hmacSha256 s.tokenHmacSecret token

/-- The new key and the end of all sessions, in one transaction. -/
def replaceKey (request : RegisterRequest Bytes) : Proc SqliteStore Unit :=
  transaction connection do
    connection.on (update fun t => { t with
      accounts := t.accounts.adjust request.userId fun _ => request.transportAuthPublicKey })
    connection.on (update fun t => { t with
      sessions := t.sessions.mapValues fun session =>
        if session.userId = request.userId then { session with revoked := true }
        else session })

/-- `RegisterTransportIdentity`. -/
def registerTransportIdentity (request : RegisterRequest Bytes) : Proc SqliteStore Unit := do
  Proc.ofExcept "" (checkRegisterRequest c request)
  let row ← connection.on (query fun t => t.accounts.get request.userId)
  let s ← Proc.get
  match row with
  | some existing =>
    if existing ≠ request.transportAuthPublicKey then do
      Proc.require
        (rotated c existing request ∨ recovered c s.requiredRegistrationToken existing request)
        ("transport identity already registered with different key " ++
          "(rotation/recovery required)")
      replaceKey request
    else pure ()
  | none => do
    Proc.ofExcept "" (checkFirstRegistration c s.requiredRegistrationToken request)
    connection.on (exec fun t =>
      match t.accounts.get request.userId with
      | some _ => .error "UNIQUE constraint failed: accounts.user_id"
      | none => .ok ({ t with
          accounts := t.accounts.set request.userId request.transportAuthPublicKey }, ()))

/-- `BeginTransportAuthentication`. -/
def beginTransportAuthentication (request : AuthBeginRequest Bytes) :
    Proc (Hosted SqliteStore) (AuthBeginResponse Bytes) := do
  let now ← nowUnix
  hostedConnection.on (cleanupAuthState now)
  Proc.require (isValidUserId request.userId) "invalid user_id"
  Proc.require (request.clientNonce.length = kExpectedAuthNonceBytes) "invalid client nonce size"
  Hosted.on (Proc.zoom authBeginAttempts (fun b s => { s with authBeginAttempts := b })
    (enforceRateLimit request.userId now kMaxAuthBeginAttemptsPerWindow kAuthRateWindowSeconds
      "auth begin rate limit exceeded"))
  let row ← hostedConnection.on (queryRow fun t => t.accounts.get request.userId)
  Proc.require (row ≠ none) "authentication failed"
  let challengeId ← randomHex 16
  let nonce ← randomBytes 32
  match nonce with
  | none => Proc.fail "RNG failed"
  | some serverNonce => do
    Proc.require (challengeId ≠ []) "RNG failed"
    let expiresAtUnix := now + 60
    let state : ChallengeState :=
      { userId := request.userId, clientNonce := request.clientNonce, serverNonce, expiresAtUnix }
    hostedConnection.on (exec fun t =>
      match t.authChallenges.get challengeId with
      | some _ => .error "UNIQUE constraint failed: auth_challenges.challenge_id"
      | none => .ok ({ t with authChallenges := t.authChallenges.set challengeId state }, ()))
    pure ⟨challengeId, serverNonce, expiresAtUnix⟩

/-- The first part of `FinishTransportAuthentication`: the challenge is checked and used up in a
transaction of its own.  The clock is read again for the expiry. -/
def consumeChallenge (request : AuthFinishRequest Bytes) : Proc (Hosted SqliteStore) Unit :=
  transaction hostedConnection do
    let row ← hostedConnection.on (queryRow fun t => t.authChallenges.get request.challengeId)
    match row with
    | none => Proc.fail "unknown challenge"
    | some challenge => do
      Proc.require (challenge.used = false) "challenge already used"
      let now ← nowUnix
      Proc.require (¬ now > challenge.expiresAtUnix) "challenge expired"
      Proc.require ({ challenge with userId := cString challenge.userId }.Matches request)
        "challenge mismatch"
      let changes ← hostedConnection.on (exec fun t =>
        match t.authChallenges.get request.challengeId with
        | some challenge =>
          if challenge.used then .ok (t, 0)
          else .ok ({ t with authChallenges :=
            t.authChallenges.set request.challengeId { challenge with used := true } }, 1)
        | none => .ok (t, 0))
      Proc.require (changes = 1) "challenge already used"

/-- `FinishTransportAuthentication`. -/
def finishTransportAuthentication (request : AuthFinishRequest Bytes) :
    Proc (Hosted SqliteStore) (AuthFinishResponse Bytes) := do
  let now ← nowUnix
  hostedConnection.on (cleanupAuthState now)
  Proc.ofExcept "" (checkFinishRequest request)
  Hosted.on (Proc.zoom authFinishAttempts (fun b s => { s with authFinishAttempts := b })
    (enforceRateLimit request.userId now kMaxAuthFinishAttemptsPerWindow kAuthRateWindowSeconds
      "auth finish rate limit exceeded"))
  consumeChallenge request
  let row ← hostedConnection.on (queryRow fun t => t.accounts.get request.userId)
  match row with
  | none => Proc.fail "authentication failed"
  | some transportAuthPub => do
    Proc.require (authSignatureOk c transportAuthPub request) "auth signature invalid"
    match ← randomBytes 32 with
    | none => Proc.fail "RAND_bytes failed"
    | some sessionToken => do
      let expiresAtUnix := now + 900
      let s ← Proc.get
      let tokenHash ← Proc.ofExcept "" (hashToken c s.object sessionToken)
      let session : SessionRow := { userId := request.userId, issuedAtUnix := now, expiresAtUnix }
      hostedConnection.on (exec fun t =>
        match t.sessions.get tokenHash with
        | some _ => .error "UNIQUE constraint failed: sessions.token_hash"
        | none => .ok ({ t with sessions := t.sessions.set tokenHash session }, ()))
      pure ⟨sessionToken, expiresAtUnix⟩

/-- `AuthenticateSessionToken`. -/
def authenticateSessionToken (sessionToken : Bytes) : Proc (Hosted SqliteStore) Bytes := do
  let now ← nowUnix
  hostedConnection.on (cleanupAuthState now)
  Proc.require (sessionToken.length = kExpectedSessionTokenBytes) "invalid session token size"
  let s ← Proc.get
  let tokenHash ← Proc.ofExcept "" (hashToken c s.object sessionToken)
  let row ← hostedConnection.on (queryRow fun t => t.sessions.get tokenHash)
  match row with
  | none => Proc.fail "invalid session"
  | some session => do
    Proc.require (session.revoked = false) "session revoked"
    Proc.require (¬ now > session.expiresAtUnix) "session expired"
    pure (cString session.userId)

/-- `RevokeSessionToken`. -/
def revokeSessionToken (sessionToken : Bytes) : Proc SqliteStore Unit := do
  Proc.require (sessionToken.length = kExpectedSessionTokenBytes) "invalid session token size"
  let s ← Proc.get
  let tokenHash ← Proc.ofExcept "" (hashToken c s sessionToken)
  let row ← connection.on (queryRow fun t => t.sessions.get tokenHash)
  Proc.require (row ≠ none) "invalid session"
  let changes ← connection.on (exec fun t =>
    match t.sessions.get tokenHash with
    | some session =>
      .ok ({ t with sessions := t.sessions.set tokenHash { session with revoked := true } }, 1)
    | none => .ok (t, 0))
  Proc.require (changes = 1) "invalid session"

end Auth

/-! ## 3. Bundles and mailboxes -/

section Store

variable (c : Crypto Bytes)

/-- `DELETE … WHERE user_id = ?` on a table of one-time keys. -/
def replaceRows {α : Type} (get : Tables → RowTable α) (set : RowTable α → Tables → Tables)
    (userId : Bytes) : Proc (Db Tables) Unit :=
  update fun t => set { get t with rows := (get t).rows.filter (·.userId ≠ userId) } t

/-- The `NOT NULL` constraints on the blob columns of a row, in the order of the columns. -/
def checkNotNull (table : String) : List (String × Bytes) → Except String Unit
  | [] => .ok ()
  | (column, value) :: rest =>
    if value = [] then .error ("NOT NULL constraint failed: " ++ table ++ "." ++ column)
    else checkNotNull table rest

/-- The blob columns of `bundles`. -/
def bundleColumns (bundle : PrekeyBundle Bytes) : List (String × Bytes) :=
  [("identity_sign_public_key", bundle.identitySignPublicKey),
    ("identity_mldsa_public_key", bundle.identityMldsaPublicKey),
    ("identity_dh_public_key", bundle.identityDhPublicKey),
    ("spk_ec_public_key", bundle.signedPrekeyEc.publicKey),
    ("spk_ec_sig_ed25519", bundle.signedPrekeyEc.signatureEd25519),
    ("spk_ec_sig_mldsa65", bundle.signedPrekeyEc.signatureMldsa65),
    ("spk_pq_public_key", bundle.signedPrekeyPq.publicKey),
    ("spk_pq_sig_ed25519", bundle.signedPrekeyPq.signatureEd25519),
    ("spk_pq_sig_mldsa65", bundle.signedPrekeyPq.signatureMldsa65),
    ("bundle_sig_ed25519", bundle.bundleSignatureEd25519),
    ("bundle_sig_mldsa65", bundle.bundleSignatureMldsa65)]

/-- `INSERT INTO bundles … ON CONFLICT(user_id) DO UPDATE`. -/
def upsertBundle (bundle : PrekeyBundle Bytes) (t : Tables) : Except String (Tables × Unit) := do
  checkNotNull "bundles" (bundleColumns bundle)
  let row := { bundle with oneTimeEc := [], oneTimePq := [] }
  pure ({ t with bundles := t.bundles.set bundle.userId row }, ())

/-- `InsertOneTimeEc` and `InsertOneTimePq`. -/
def insertOneTime (name : String) (get : Tables → RowTable (OneTimePrekey Bytes))
    (set : RowTable (OneTimePrekey Bytes) → Tables → Tables) (userId : Bytes)
    (key : OneTimePrekey Bytes) (t : Tables) : Except String (Tables × Unit) := do
  let table ← (get t).insert userId key
  checkNotNull name [("public_key", key.publicKey)]
  pure (set table t, ())

/-- `InsertOneTimeEc` and `InsertOneTimePq` for each key of a list. -/
def insertRows (name : String) (get : Tables → RowTable (OneTimePrekey Bytes))
    (set : RowTable (OneTimePrekey Bytes) → Tables → Tables) (userId : Bytes) :
    List (OneTimePrekey Bytes) → Proc (Db Tables) Unit
  | [] => pure ()
  | key :: rest => do
    exec (insertOneTime name get set userId key)
    insertRows name get set userId rest

def setOneTimeEc (table : RowTable (OneTimePrekey Bytes)) (t : Tables) : Tables :=
  { t with oneTimeEc := table }

def setOneTimePq (table : RowTable (OneTimePrekey Bytes)) (t : Tables) : Tables :=
  { t with oneTimePq := table }

/-- `PublishBundle`. -/
def publishBundle (bundle : PrekeyBundle Bytes) : Proc SqliteStore Unit := do
  Proc.require (bundle.version = kProtocolVersion) "unsupported bundle version"
  Proc.require (bundle.cipherSuite = kCipherSuite) "unsupported bundle cipher suite"
  Proc.ofExcept "invalid prekey bundle signatures: " (verifyPrekeyBundleSignatures c bundle)
  transaction connection do
    connection.on (exec (upsertBundle bundle))
    connection.on (replaceRows Tables.oneTimeEc setOneTimeEc bundle.userId)
    connection.on (replaceRows Tables.oneTimePq setOneTimePq bundle.userId)
    connection.on
      (insertRows "one_time_ec" Tables.oneTimeEc setOneTimeEc bundle.userId bundle.oneTimeEc)
    connection.on
      (insertRows "one_time_pq" Tables.oneTimePq setOneTimePq bundle.userId bundle.oneTimePq)

/-- `SELECT … WHERE user_id = ? ORDER BY rowid LIMIT 1`. -/
def firstRow {α : Type} (table : RowTable α) (userId : Bytes) : Option (Row α) :=
  table.rows.find? (·.userId = userId)

/-- `DELETE … WHERE rowid = ?`. -/
def deleteRow {α : Type} (get : Tables → RowTable α) (set : RowTable α → Tables → Tables)
    (rowid : Nat) : Proc (Db Tables) Unit :=
  update fun t => set { get t with rows := (get t).rows.filter (·.rowid ≠ rowid) } t

/-- `AcquireBundleForSession`. -/
def acquireBundleForSession (userId : Bytes) : Proc SqliteStore (PrekeyBundle Bytes) :=
  transaction connection do
    let row ← connection.on (queryRow fun t => t.bundles.get userId)
    match row with
    | none => Proc.fail "no prekey bundle for user"
    | some stored => do
      let bundle := { stored with
        userId, version := cString stored.version, cipherSuite := cString stored.cipherSuite }
      let ec ← connection.on (query fun t => firstRow t.oneTimeEc userId)
      let pq ← connection.on (query fun t => firstRow t.oneTimePq userId)
      match ec, pq with
      | some ec, some pq => do
        connection.on (deleteRow Tables.oneTimeEc setOneTimeEc ec.rowid)
        connection.on (deleteRow Tables.oneTimePq setOneTimePq pq.rowid)
        pure { bundle with oneTimeEc := [ec.value], oneTimePq := [pq.value] }
      | _, _ => pure bundle

/-- `EnqueueEnvelope`. -/
def enqueueEnvelope (userId : Bytes) (envelope : Envelope Bytes) : Proc SqliteStore Unit := do
  let serialized ← Proc.ofExcept "" (serializeEnvelope envelope)
  connection.on (exec fun t => do
    let inbox ← t.inbox.insert userId serialized
    pure ({ t with inbox }, ()))

/-- The loop of `DrainInbox` over the selected rows. -/
def drainPage (out : List (InboxEnvelope Bytes)) (totalPayloadBytes : Nat) :
    List (Row Bytes) → Result (List (InboxEnvelope Bytes))
  | [] => .ok out
  | row :: rest => do
    let estimatedSize := row.value.length + 8 + 8
    if out ≠ [] ∧ totalPayloadBytes + estimatedSize > kMaxDrainInboxBatchBytes then pure out
    else do
      let envelope ← deserializeEnvelope row.value
      drainPage (out ++ [⟨UInt64.ofNat row.rowid, envelope⟩]) (totalPayloadBytes + estimatedSize)
        rest

/-- `DELETE FROM inbox WHERE user_id = ? AND id <= ?`. -/
def ackInbox (userId : Bytes) (ack : UInt64) (inbox : RowTable Bytes) : RowTable Bytes :=
  { inbox with rows := inbox.rows.filter fun row =>
      ¬ (row.userId = userId ∧ (row.rowid : Int) ≤ ack.toInt64.toInt) }

/-- `SELECT id, envelope FROM inbox WHERE user_id = ? ORDER BY id LIMIT ?`. -/
def selectInbox (userId : Bytes) (limit : Nat) (inbox : RowTable Bytes) : List (Row Bytes) :=
  (inbox.rows.filter (·.userId = userId)).take limit

/-- `DrainInbox`. -/
def drainInbox (userId : Bytes) (ackUpToInboxId : Option UInt64) :
    Proc SqliteStore (List (InboxEnvelope Bytes)) :=
  transaction connection do
    match ackUpToInboxId with
    | none => pure ()
    | some ack => connection.on (update fun t => { t with inbox := ackInbox userId ack t.inbox })
    let rows ← connection.on (query fun t => selectInbox userId kMaxDrainInboxBatchItems t.inbox)
    Proc.ofExcept "" (drainPage [] 0 rows)

/-- The calls a client makes. -/
def serverApi : ServerApi Bytes SqliteStore where
  publishBundle := publishBundle c
  acquireBundleForSession := acquireBundleForSession
  enqueueEnvelope := enqueueEnvelope
  drainInbox := drainInbox

end Store

/-- `SqliteStore` as an `IServerApi`. -/
def api (c : ServerCrypto) : IServerApi (Hosted SqliteStore) where
  publishBundle bundle := Hosted.on (publishBundle c.toCrypto bundle)
  acquireBundleForSession userId := Hosted.on (acquireBundleForSession userId)
  enqueueEnvelope userId envelope := Hosted.on (enqueueEnvelope userId envelope)
  drainInbox userId ack := Hosted.on (drainInbox userId ack)
  registerTransportIdentity request := Hosted.on (registerTransportIdentity c request)
  beginTransportAuthentication := beginTransportAuthentication
  finishTransportAuthentication := finishTransportAuthentication c
  authenticateSessionToken := authenticateSessionToken c
  revokeSessionToken token := Hosted.on (revokeSessionToken c token)

end SqliteStore

end PqChat
