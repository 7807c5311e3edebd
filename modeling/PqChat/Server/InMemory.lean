/-
# InMemoryServer

`in_memory_server.cpp`.  The object is a record of maps; each call runs under one lock, so a
call is a function of the object.  Bundles and mailboxes do not look at the bytes they hold and
are written for any kind of byte string; the authentication calls work on bytes.
-/
import PqChat.Server.Api

namespace PqChat

open ByteString

/-! ## 1. The object -/

/-- `InMemoryServer::BundleStore`. -/
structure InMemoryServer.BundleStore (B : Type) where
  baseBundle : PrekeyBundle B
  oneTimeEcPool : List (OneTimePrekey B)
  oneTimePqPool : List (OneTimePrekey B)
  deriving DecidableEq, Repr

/-- `InMemoryServer::SessionState`. -/
structure InMemoryServer.SessionState where
  userId : Bytes
  expiresAtUnix : UInt64
  deriving DecidableEq, Repr

/-- `InMemoryServer`.  An `InboxEntry` has the fields of an `InboxEnvelope`. -/
structure InMemoryServer (B : Type) where
  bundles : Map B (InMemoryServer.BundleStore B)
  inbox : Map B (List (InboxEnvelope B))
  nextInboxIdByUser : Map B UInt64
  transportIdentities : Map Bytes Bytes
  challenges : Map Bytes ChallengeState
  sessions : Map Bytes InMemoryServer.SessionState
  authBeginAttempts : Buckets
  authFinishAttempts : Buckets
  requiredRegistrationToken : Bytes

namespace InMemoryServer

/-- The constructor. -/
def init {B : Type} (requiredRegistrationToken : Bytes) : InMemoryServer B :=
  { bundles := ∅, inbox := ∅, nextInboxIdByUser := ∅, transportIdentities := ∅, challenges := ∅
    sessions := ∅, authBeginAttempts := ∅, authFinishAttempts := ∅, requiredRegistrationToken }

/-! ## 2. Authentication -/

section Auth

variable (c : ServerCrypto)

/-- `CleanupAuthState`. -/
def cleanupAuthState (now : UInt64) (s : InMemoryServer Bytes) : InMemoryServer Bytes :=
  let trimBuckets (buckets : Buckets) : Buckets :=
    (buckets.mapValues (trimWindow now kAuthRateWindowSeconds)).sweep fun _ window =>
      !window.isEmpty
  { s with
    challenges := s.challenges.sweep fun _ challenge =>
      !(challenge.used || challenge.expiresAtUnix < now)
    sessions := s.sessions.sweep fun _ session => !(session.expiresAtUnix < now)
    authBeginAttempts := trimBuckets s.authBeginAttempts
    authFinishAttempts := trimBuckets s.authFinishAttempts }

/-- `RegisterTransportIdentity`. -/
def registerTransportIdentity (request : RegisterRequest Bytes) :
    Proc (InMemoryServer Bytes) Unit := do
  Proc.ofExcept "" (checkRegisterRequest c request)
  let s ← Proc.get
  match s.transportIdentities.get request.userId with
  | none => do
    Proc.ofExcept "" (checkFirstRegistration c s.requiredRegistrationToken request)
    Proc.modify fun s =>
      { s with transportIdentities :=
          s.transportIdentities.set request.userId request.transportAuthPublicKey }
  | some existing =>
    if existing ≠ request.transportAuthPublicKey then do
      Proc.require
        (rotated c existing request ∨ recovered c s.requiredRegistrationToken existing request)
        ("transport identity already registered with different key " ++
          "(rotation/recovery required)")
      Proc.modify fun s =>
        { s with
          transportIdentities :=
            s.transportIdentities.set request.userId request.transportAuthPublicKey
          sessions := s.sessions.sweep fun _ session => session.userId ≠ request.userId }
    else pure ()

/-- `BeginTransportAuthentication`. -/
def beginTransportAuthentication (request : AuthBeginRequest Bytes) :
    Proc (Hosted (InMemoryServer Bytes)) (AuthBeginResponse Bytes) := do
  let now ← nowUnix
  Hosted.on (Proc.modify (cleanupAuthState now))
  Proc.require (isValidUserId request.userId) "invalid user_id"
  Proc.require (request.clientNonce.length = kExpectedAuthNonceBytes) "invalid client nonce size"
  Hosted.on (Proc.zoom authBeginAttempts (fun b s => { s with authBeginAttempts := b })
    (enforceRateLimit request.userId now kMaxAuthBeginAttemptsPerWindow kAuthRateWindowSeconds
      "auth begin rate limit exceeded"))
  let s ← Proc.get
  Proc.require (s.object.transportIdentities.get request.userId ≠ none) "authentication failed"
  let challengeId ← randomHex 16
  let serverNonce ← randomBytes 32
  let expiresAtUnix := now + 60
  match serverNonce with
  | none => Proc.fail "RNG failed"
  | some serverNonce => do
    Proc.require (challengeId ≠ [] ∧ serverNonce ≠ []) "RNG failed"
    let state : ChallengeState :=
      { userId := request.userId, clientNonce := request.clientNonce, serverNonce, expiresAtUnix }
    Hosted.on (Proc.modify fun s =>
      { s with challenges := s.challenges.set challengeId state })
    pure ⟨challengeId, serverNonce, expiresAtUnix⟩

/-- `FinishTransportAuthentication`.  The challenge is used up before the signature is
checked. -/
def finishTransportAuthentication (request : AuthFinishRequest Bytes) :
    Proc (Hosted (InMemoryServer Bytes)) (AuthFinishResponse Bytes) := do
  let now ← nowUnix
  Hosted.on (Proc.modify (cleanupAuthState now))
  Proc.ofExcept "" (checkFinishRequest request)
  Hosted.on (Proc.zoom authFinishAttempts (fun b s => { s with authFinishAttempts := b })
    (enforceRateLimit request.userId now kMaxAuthFinishAttemptsPerWindow kAuthRateWindowSeconds
      "auth finish rate limit exceeded"))
  let s ← Proc.get
  match s.object.challenges.get request.challengeId with
  | none => Proc.fail "unknown challenge"
  | some challenge => do
    Proc.require (challenge.used = false) "challenge already used"
    Proc.require (challenge.Matches request) "challenge mismatch"
    Proc.require (¬ now > challenge.expiresAtUnix) "challenge expired"
    Hosted.on (Proc.modify fun s =>
      { s with challenges := s.challenges.set request.challengeId { challenge with used := true } })
    match s.object.transportIdentities.get request.userId with
    | none => Proc.fail "authentication failed"
    | some publicKey => do
      Proc.require (authSignatureOk c publicKey request) "auth signature invalid"
      match ← randomBytes 32 with
      | none => Proc.fail "RNG failed"
      | some sessionToken => do
        let expiresAtUnix := now + 900
        Hosted.on (Proc.modify fun s =>
          { s with sessions :=
              s.sessions.set (hexEncode sessionToken) ⟨request.userId, expiresAtUnix⟩ })
        pure ⟨sessionToken, expiresAtUnix⟩

/-- `AuthenticateSessionToken`. -/
def authenticateSessionToken (sessionToken : Bytes) :
    Proc (Hosted (InMemoryServer Bytes)) Bytes := do
  let now ← nowUnix
  Hosted.on (Proc.modify (cleanupAuthState now))
  Proc.require (sessionToken.length = kExpectedSessionTokenBytes) "invalid session token size"
  let s ← Proc.get
  match s.object.sessions.get (hexEncode sessionToken) with
  | none => Proc.fail "invalid session"
  | some session => do
    Proc.require (¬ now > session.expiresAtUnix) "session expired"
    pure session.userId

/-- `RevokeSessionToken`. -/
def revokeSessionToken (sessionToken : Bytes) : Proc (InMemoryServer Bytes) Unit := do
  Proc.require (sessionToken.length = kExpectedSessionTokenBytes) "invalid session token size"
  let s ← Proc.get
  Proc.require (s.sessions.get (hexEncode sessionToken) ≠ none) "invalid session"
  Proc.modify fun s => { s with sessions := s.sessions.erase (hexEncode sessionToken) }

end Auth

/-! ## 3. Bundles and mailboxes -/

section Store

variable {B : Type} [ByteString B] [DecidableEq B] (c : Crypto B)

/-- `PublishBundle`. -/
def publishBundle (bundle : PrekeyBundle B) : Proc (InMemoryServer B) Unit := do
  Proc.require (bundle.version = kProtocolVersion) "unsupported bundle version"
  Proc.require (bundle.cipherSuite = kCipherSuite) "unsupported bundle cipher suite"
  Proc.ofExcept "invalid prekey bundle signatures: " (verifyPrekeyBundleSignatures c bundle)
  Proc.modify fun s =>
    { s with bundles := s.bundles.set bundle.userId ⟨bundle, bundle.oneTimeEc, bundle.oneTimePq⟩ }

/-- `AcquireBundleForSession`: one key of each kind leaves its pool, or none does. -/
def acquireBundleForSession (userId : B) : Proc (InMemoryServer B) (PrekeyBundle B) := do
  let s ← Proc.get
  match s.bundles.get userId with
  | none => Proc.fail "no prekey bundle for user"
  | some store =>
    match store.oneTimeEcPool, store.oneTimePqPool with
    | ec :: ecRest, pq :: pqRest => do
      let store' := { store with oneTimeEcPool := ecRest, oneTimePqPool := pqRest }
      Proc.modify fun s => { s with bundles := s.bundles.set userId store' }
      pure { store.baseBundle with oneTimeEc := [ec], oneTimePq := [pq] }
    | _, _ => pure { store.baseBundle with oneTimeEc := [], oneTimePq := [] }

/-- `EnqueueEnvelope`. -/
def enqueueEnvelope (userId : B) (envelope : Envelope B) : Proc (InMemoryServer B) Unit :=
  Proc.modify fun s =>
    let nextId := (s.nextInboxIdByUser.get userId).getD 0 + 1
    { s with
      nextInboxIdByUser := s.nextInboxIdByUser.set userId nextId
      inbox := s.inbox.set userId ((s.inbox.get userId).getD [] ++ [⟨nextId, envelope⟩]) }

/-- The loop of `DrainInbox`: `out` is the page so far, `totalPayloadBytes` its size.  The first
entry is always taken. -/
def drainPage (out : List (InboxEnvelope B)) (totalPayloadBytes : Nat) :
    List (InboxEnvelope B) → Result (List (InboxEnvelope B))
  | [] => .ok out
  | entry :: rest => do
    let encoded ← serializeEnvelope entry.envelope
    let estimatedSize := size encoded + 8 + 8
    if out ≠ [] ∧ (out.length ≥ kMaxDrainInboxBatchItems ∨
        totalPayloadBytes + estimatedSize > kMaxDrainInboxBatchBytes) then pure out
    else drainPage (out ++ [entry]) (totalPayloadBytes + estimatedSize) rest

/-- `DrainInbox`.  What is acknowledged is dropped first, also when the rest fails. -/
def drainInbox (userId : B) (ackUpToInboxId : Option UInt64) :
    Proc (InMemoryServer B) (List (InboxEnvelope B)) := do
  let s ← Proc.get
  match s.inbox.get userId with
  | none => pure []
  | some entries => do
    let entries := match ackUpToInboxId with
      | none => entries
      | some ack => entries.dropWhile fun entry => entry.inboxId ≤ ack
    Proc.modify fun s => { s with inbox := s.inbox.set userId entries }
    Proc.ofExcept "" (drainPage [] 0 entries)

/-- The calls a client makes. -/
def serverApi : ServerApi B (InMemoryServer B) where
  publishBundle := publishBundle c
  acquireBundleForSession := acquireBundleForSession
  enqueueEnvelope := enqueueEnvelope
  drainInbox := drainInbox

end Store

/-- `InMemoryServer` as an `IServerApi`. -/
def api (c : ServerCrypto) : IServerApi (Hosted (InMemoryServer Bytes)) where
  publishBundle bundle := Hosted.on (publishBundle c.toCrypto bundle)
  acquireBundleForSession userId := Hosted.on (acquireBundleForSession userId)
  enqueueEnvelope userId envelope := Hosted.on (enqueueEnvelope userId envelope)
  drainInbox userId ack := Hosted.on (drainInbox userId ack)
  registerTransportIdentity request := Hosted.on (registerTransportIdentity c request)
  beginTransportAuthentication := beginTransportAuthentication
  finishTransportAuthentication := finishTransportAuthentication c
  authenticateSessionToken := authenticateSessionToken
  revokeSessionToken token := Hosted.on (revokeSessionToken token)

end InMemoryServer

end PqChat
