/-
# What the two servers share

`IServerApi` with its nine calls, and the helpers that `in_memory_server.cpp` and
`sqlite_store.cpp` both contain, word for word the same: limits, checks of ids and sizes,
hexadecimal decoding, provisioning tokens, rate limits.

A server runs on a HOST that answers with the time and with random bytes.  Both answers are
tapes, as they are for a client: nothing is assumed about the clock, not even that it does not
go back.
-/
import PqChat.Lib.Map
import PqChat.Client.State
import PqChat.Wire.Serialization

namespace PqChat

open ByteString

/-! ## 1. The interface -/

/-- `IServerApi`. -/
structure IServerApi (S : Type) extends ServerApi Bytes S where
  registerTransportIdentity : RegisterRequest Bytes → Proc S Unit
  beginTransportAuthentication : AuthBeginRequest Bytes → Proc S (AuthBeginResponse Bytes)
  finishTransportAuthentication : AuthFinishRequest Bytes → Proc S (AuthFinishResponse Bytes)
  authenticateSessionToken : Bytes → Proc S Bytes
  revokeSessionToken : Bytes → Proc S Unit

/-- The primitives a server calls: those of a client, and `HmacSha256(key, data)`. -/
structure ServerCrypto extends Crypto Bytes where
  hmacSha256 : (key data : Bytes) → Result Bytes

/-- A provider that hides nothing: a hash is its input, a signature is the public key and the
message.  It is used to run a server on fixed inputs. -/
def ServerCrypto.transparent : ServerCrypto :=
  let sign (key message : Bytes) : Bytes := key ++ message ++ List.replicate 64 0
  let pair (n : Nat) : KeyPair Bytes := ⟨[UInt8.ofNat n], [UInt8.ofNat n]⟩
  let verify (key message signature : Bytes) : Result Unit :=
    if signature = sign key message then .ok () else .error "signature verification failed"
  { sha256 x := .ok x
    hkdfSha256 ikm salt info n := .ok ((ikm ++ salt ++ info).take n)
    evpSeal _ _ plaintext ad := .ok (plaintext ++ ad)
    evpOpen _ _ ciphertext ad := .ok (ciphertext.take (ciphertext.length - ad.length))
    x25519Generate n := .ok (pair n)
    x25519SharedSecret key peer := .ok (List.zipWith (· + ·) key peer)
    ed25519Generate n := .ok (pair n)
    ed25519Sign key message := .ok (sign key message)
    ed25519Verify := verify
    mldsa65Generate n := .ok (pair n)
    mldsa65Sign key message := .ok (sign key message)
    mldsa65Verify := verify
    mlkem768Generate n := .ok (pair n)
    mlkem768Encapsulate n key := .ok ⟨[UInt8.ofNat n], key⟩
    mlkem768Decapsulate key _ := .ok key
    randBytes16 n := .ok [UInt8.ofNat n]
    randUint32 n := .ok (UInt32.ofNat n)
    hmacSha256 key data := .ok (key ++ data) }

/-! ## 2. The host -/

/-- What the operating system answers: the readings of the clock, and for each call of
`RAND_bytes` the stream of bytes it takes from, or nothing if the call fails. -/
structure Host where
  clock : Nat → UInt64
  clockReads : Nat
  random : Nat → Option (Nat → UInt8)
  draws : Nat

/-- A server object on its host. -/
structure Hosted (σ : Type) where
  host : Host
  object : σ

namespace Hosted

variable {σ α : Type}

/-- The reading of the clock that comes next. -/
def now (s : Hosted σ) : UInt64 := s.host.clock s.host.clockReads

/-- The state after a reading of the clock. -/
def tick (s : Hosted σ) : Hosted σ :=
  { s with host := { s.host with clockReads := s.host.clockReads + 1 } }

@[simp] theorem tick_object (s : Hosted σ) : s.tick.object = s.object := rfl

/-- Run a computation on the server object. -/
def on (x : Proc σ α) : Proc (Hosted σ) α :=
  Proc.zoom Hosted.object (fun t s => { s with object := t }) x

end Hosted

/-- `NowUnix`. -/
def nowUnix {σ : Type} : Proc (Hosted σ) UInt64 := fun s => (.ok s.now, s.tick)

/-- `RandomBytes`: nothing if `RAND_bytes` fails. -/
def randomBytes {σ : Type} (bytes : Nat) : Proc (Hosted σ) (Option Bytes) := fun s =>
  (.ok ((s.host.random s.host.draws).map fun stream => (List.range bytes).map stream),
    { s with host := { s.host with draws := s.host.draws + 1 } })

/-- `RandomHex`: the empty string if `RAND_bytes` fails. -/
def randomHex {σ : Type} (bytes : Nat) : Proc (Hosted σ) Bytes := do
  match ← randomBytes bytes with
  | none => pure []
  | some data => pure (hexEncode data)

section Random

variable {σ α : Type} {s : Hosted σ} {Q : Except String α → Hosted σ → Prop} {n : Nat}

/-- A draw does not touch the object. -/
theorem wp_randomBytes_bind {f : Option Bytes → Proc (Hosted σ) α}
    (h : ∀ x s₁, s₁.object = s.object → Proc.wp (f x) Q s₁) : Proc.wp (randomBytes n >>= f) Q s :=
  Proc.wp_of_bind_ok rfl (h _ _ rfl)

theorem wp_randomHex_bind {f : Bytes → Proc (Hosted σ) α}
    (h : ∀ x s₁, s₁.object = s.object → Proc.wp (f x) Q s₁) : Proc.wp (randomHex n >>= f) Q s := by
  unfold randomHex
  rw [Proc.bind_assoc]
  refine wp_randomBytes_bind fun x s₁ hs₁ => ?_
  cases x with
  | none => exact h _ _ hs₁
  | some data => exact h _ _ hs₁

end Random

/-! ## 3. Limits and checks -/

def kMaxUserIdBytes : Nat := 64
def kMaxTransportAuthPublicKeyBytes : Nat := 8192
def kExpectedAuthNonceBytes : Nat := 32
def kExpectedSessionTokenBytes : Nat := 32
def kMinMlDsaSignatureBytes : Nat := 64
def kMaxMlDsaSignatureBytes : Nat := 8192
def kChallengeIdHexBytes : Nat := 32
def kMaxDrainInboxBatchItems : Nat := 128
def kMaxDrainInboxBatchBytes : Nat := 512 * 1024
def kAuthRateWindowSeconds : UInt64 := 60
def kMaxAuthBeginAttemptsPerWindow : Nat := 30
def kMaxAuthFinishAttemptsPerWindow : Nat := 30

/-- The characters of a user id: lower-case letters, digits, `-`, `_` and `.`. -/
def isUserIdByte (ch : UInt8) : Bool :=
  (97 ≤ ch && ch ≤ 122) || (48 ≤ ch && ch ≤ 57) || ch == 45 || ch == 95 || ch == 46

/-- `IsValidUserId`. -/
def isValidUserId (userId : Bytes) : Bool :=
  !(userId.isEmpty || userId.length > kMaxUserIdBytes) && userId.all isUserIdByte

/-- `HexValue`; `none` stands for -1. -/
def hexValue (ch : UInt8) : Option UInt8 :=
  if 48 ≤ ch ∧ ch ≤ 57 then some (ch - 48)
  else if 97 ≤ ch ∧ ch ≤ 102 then some (10 + (ch - 97))
  else if 65 ≤ ch ∧ ch ≤ 70 then some (10 + (ch - 65))
  else none

/-- `IsValidHexString`. -/
def isValidHexString (value : Bytes) : Bool := value.all fun ch => (hexValue ch).isSome

/-- `IsValidChallengeId`. -/
def isValidChallengeId (challengeId : Bytes) : Bool :=
  challengeId.length == kChallengeIdHexBytes && isValidHexString challengeId

/-- The loop of `DecodeHex`, two digits at a time. -/
def decodeHexPairs : Bytes → Result Bytes
  | hi :: lo :: rest =>
    match hexValue hi, hexValue lo with
    | some h, some l => do
      let out ← decodeHexPairs rest
      pure ((h <<< 4 ||| l) :: out)
    | _, _ => .error "invalid hex character"
  | _ => .ok []

/-- `DecodeHex`. -/
def decodeHex (hex : Bytes) : Result Bytes :=
  if hex.length % 2 ≠ 0 then .error "invalid hex length" else decodeHexPairs hex

/-- `VerifyProvisioningToken`. -/
def verifyProvisioningToken (c : ServerCrypto) (provisioningSecret userId tokenHex : Bytes) :
    Result Unit :=
  match c.hmacSha256 provisioningSecret userId with
  | .error _ => .error "failed to derive registration token"
  | .ok expected =>
    if tokenHex.length ≠ expected.length * 2 then .error "invalid registration token"
    else match decodeHex tokenHex with
      | .error _ => .error "invalid registration token"
      | .ok provided =>
        if expected.length ≠ provided.length then .error "invalid registration token"
        else if expected ≠ provided then .error "invalid registration token"
        else .ok ()

/-- The checks at the head of `RegisterTransportIdentity`. -/
def checkRegisterRequest (c : ServerCrypto) (request : RegisterRequest Bytes) : Result Unit :=
  if ¬ isValidUserId request.userId then
    .error "invalid user_id (allowed: lowercase a-z, 0-9, '-', '_', '.', max 64)"
  else if request.transportAuthPublicKey = [] ∨
      request.transportAuthPublicKey.length > kMaxTransportAuthPublicKeyBytes then
    .error "invalid transport auth public key size"
  else if request.proofSignatureMldsa65.length < kMinMlDsaSignatureBytes ∨
      request.proofSignatureMldsa65.length > kMaxMlDsaSignatureBytes then
    .error "invalid registration proof signature size"
  else if request.rotationSignatureMldsa65.any fun sig =>
      sig.length < kMinMlDsaSignatureBytes || sig.length > kMaxMlDsaSignatureBytes then
    .error "invalid rotation signature size"
  else if ¬ (c.mldsa65Verify request.transportAuthPublicKey
      (buildTransportRegisterSignInput request.userId request.transportAuthPublicKey)
      request.proofSignatureMldsa65).isOk then
    .error "transport identity registration proof invalid"
  else .ok ()

/-- The check of a first registration: a token is asked for if a secret is configured. -/
def checkFirstRegistration (c : ServerCrypto) (secret : Bytes) (request : RegisterRequest Bytes) :
    Result Unit :=
  if secret ≠ [] then verifyProvisioningToken c secret request.userId request.registrationToken
  else .ok ()

/-- `rotated`: the old key has signed the new one. -/
def rotated (c : ServerCrypto) (existing : Bytes) (request : RegisterRequest Bytes) : Bool :=
  match request.rotationSignatureMldsa65 with
  | none => false
  | some sig =>
    (c.mldsa65Verify existing
      (buildTransportRegisterRotateSignInput request.userId existing
        request.transportAuthPublicKey) sig).isOk

/-- `recovered`: a provisioning token stands in for the signature. -/
def recovered (c : ServerCrypto) (secret existing : Bytes) (request : RegisterRequest Bytes) :
    Bool :=
  !rotated c existing request && secret ≠ [] &&
    (verifyProvisioningToken c secret request.userId request.registrationToken).isOk

/-- The checks of `FinishTransportAuthentication` on the request alone. -/
def checkFinishRequest (request : AuthFinishRequest Bytes) : Result Unit :=
  if ¬ isValidUserId request.userId then .error "invalid user_id"
  else if ¬ isValidChallengeId request.challengeId then .error "invalid challenge id"
  else if request.clientNonce.length ≠ kExpectedAuthNonceBytes ∨
      request.serverNonce.length ≠ kExpectedAuthNonceBytes then
    .error "invalid auth nonce size"
  else if request.signatureMldsa65.length < kMinMlDsaSignatureBytes ∨
      request.signatureMldsa65.length > kMaxMlDsaSignatureBytes then
    .error "invalid auth signature size"
  else .ok ()

/-- The check of the signature in `FinishTransportAuthentication`. -/
def authSignatureOk (c : ServerCrypto) (publicKey : Bytes) (request : AuthFinishRequest Bytes) :
    Bool :=
  (c.mldsa65Verify publicKey
    (buildTransportAuthSignInput request.userId request.clientNonce request.serverNonce
      request.challengeId request.expiresAtUnix) request.signatureMldsa65).isOk

/-! ## 4. Rate limits -/

/-- The attempts of each user, oldest first. -/
abbrev Buckets := Map Bytes (List UInt64)

/-- Drop the attempts that have left the window. -/
def trimWindow (now windowSeconds : UInt64) (bucket : List UInt64) : List UInt64 :=
  bucket.dropWhile fun t => t + windowSeconds ≤ now

/-- `EnforceRateLimit`. -/
def enforceRateLimit (userId : Bytes) (now : UInt64) (maxAttempts : Nat) (windowSeconds : UInt64)
    (errorText : String) : Proc Buckets Unit := do
  let buckets ← Proc.get
  let bucket := trimWindow now windowSeconds ((buckets.get userId).getD [])
  if bucket.length ≥ maxAttempts then do
    Proc.modify fun b => b.set userId bucket
    Proc.fail errorText
  else Proc.modify fun b => b.set userId (bucket ++ [now])

/-- Whatever the limit says, only the attempts have changed. -/
theorem wp_enforceRateLimit {userId : Bytes} {now : UInt64} {maxAttempts : Nat}
    {windowSeconds : UInt64} {errorText : String} {buckets : Buckets}
    {Q : Except String Unit → Buckets → Prop} (herr : ∀ b, Q (.error errorText) b)
    (hok : ∀ b, Q (.ok ()) b) :
    Proc.wp (enforceRateLimit userId now maxAttempts windowSeconds errorText) Q buckets := by
  unfold enforceRateLimit
  refine Proc.wp_get_bind ?_
  dsimp only
  split
  · exact Proc.wp_modify_bind (Proc.wp_fail (herr _))
  · exact Proc.wp_modify (hok _)

/-! ## 5. Stored state of the two servers -/

/-- `ChallengeState`, and a row of `auth_challenges`. -/
structure ChallengeState where
  userId : Bytes
  clientNonce : Bytes
  serverNonce : Bytes
  expiresAtUnix : UInt64
  used : Bool := false
  deriving DecidableEq, Repr

/-- The request repeats the challenge. -/
def ChallengeState.Matches (challenge : ChallengeState) (request : AuthFinishRequest Bytes) :
    Prop :=
  challenge.userId = request.userId ∧ challenge.clientNonce = request.clientNonce ∧
    challenge.serverNonce = request.serverNonce ∧
    challenge.expiresAtUnix = request.expiresAtUnix

instance (challenge : ChallengeState) (request : AuthFinishRequest Bytes) :
    Decidable (challenge.Matches request) := inferInstanceAs (Decidable (_ ∧ _ ∧ _ ∧ _))

end PqChat
