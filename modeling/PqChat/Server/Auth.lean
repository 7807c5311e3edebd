/-
# The authentication service

What the five authentication calls are FOR, without tables, hashes and clean-up: every user has
at most one registered key, there are open challenges, and there are tokens that stand for a
user until some time.  `AuthStep` lists everything a call may do to these three.

`AuthService` is a server that refines this service: an invariant, a view of its state, and the
proof that each of its calls is one of the steps.  About every such server, over every history
of calls, `AuthService.granted` says where an accepted token comes from.
-/
import PqChat.Lib.History
import PqChat.Server.Api

namespace PqChat

open ByteString

/-! ## 1. Calls -/

/-- A call of the authentication interface. -/
inductive AuthCall
  | register (request : RegisterRequest Bytes)
  | beginAuth (request : AuthBeginRequest Bytes)
  | finishAuth (request : AuthFinishRequest Bytes)
  | authenticate (sessionToken : Bytes)
  | revoke (sessionToken : Bytes)
  deriving DecidableEq, Repr

/-- What a call that succeeds returns. -/
inductive AuthReply
  | done
  | challenge (response : AuthBeginResponse Bytes)
  | token (response : AuthFinishResponse Bytes)
  | user (userId : Bytes)
  deriving DecidableEq, Repr

/-- Make a call. -/
def IServerApi.auth {S : Type} (api : IServerApi S) : AuthCall → Proc S AuthReply
  | .register request => do
    api.registerTransportIdentity request
    pure .done
  | .beginAuth request => do
    let response ← api.beginTransportAuthentication request
    pure (.challenge response)
  | .finishAuth request => do
    let response ← api.finishTransportAuthentication request
    pure (.token response)
  | .authenticate sessionToken => do
    let userId ← api.authenticateSessionToken sessionToken
    pure (.user userId)
  | .revoke sessionToken => do
    api.revokeSessionToken sessionToken
    pure .done

/-! ## 2. The service -/

/-- The user a token stands for, and until when. -/
structure Grant where
  userId : Bytes
  expiresAtUnix : UInt64
  deriving DecidableEq, Repr

/-- The state of the service.  A challenge is open while it can still be answered. -/
structure AuthView where
  key : Bytes → Option Bytes
  challenge : Bytes → Option ChallengeState
  session : Bytes → Option Grant

namespace AuthView

/-- Time has passed: challenges and sessions may be gone. -/
structure Swept (v v' : AuthView) : Prop where
  key : v'.key = v.key
  challenge : ∀ {id challenge}, v'.challenge id = some challenge → v.challenge id = some challenge
  session : ∀ {token grant}, v'.session token = some grant → v.session token = some grant

theorem Swept.refl (v : AuthView) : v.Swept v := ⟨rfl, id, id⟩

theorem Swept.trans {v₁ v₂ v₃ : AuthView} (h : v₁.Swept v₂) (h' : v₂.Swept v₃) : v₁.Swept v₃ :=
  ⟨h'.key.trans h.key, fun hc => h.challenge (h'.challenge hc),
    fun hs => h.session (h'.session hs)⟩

/-- Register a key. -/
def withKey (v : AuthView) (userId publicKey : Bytes) : AuthView :=
  { v with key := fun u => if u = userId then some publicKey else v.key u }

/-- End the sessions of a user. -/
def endSessions (v : AuthView) (userId : Bytes) : AuthView :=
  { v with session := fun token => (v.session token).filter (·.userId ≠ userId) }

/-- Open a challenge. -/
def openChallenge (v : AuthView) (id : Bytes) (challenge : ChallengeState) : AuthView :=
  { v with challenge := fun i => if i = id then some challenge else v.challenge i }

/-- Close a challenge. -/
def closeChallenge (v : AuthView) (id : Bytes) : AuthView :=
  { v with challenge := fun i => if i = id then none else v.challenge i }

/-- Let a token stand for a user. -/
def openSession (v : AuthView) (token : Bytes) (grant : Grant) : AuthView :=
  { v with session := fun t => if t = token then some grant else v.session t }

/-- Let a token stand for nobody. -/
def closeSession (v : AuthView) (token : Bytes) : AuthView :=
  { v with session := fun t => if t = token then none else v.session t }

end AuthView

/-- The token is the hexadecimal form of the user's code under the provisioning secret. -/
def ProvisioningToken (c : ServerCrypto) (secret userId token : Bytes) : Prop :=
  ∃ mac, c.hmacSha256 secret userId = .ok mac ∧ decodeHex token = .ok mac

/-- The holder of the new key has signed for this user and this key. -/
def ProvesPossession (c : ServerCrypto) (request : RegisterRequest Bytes) : Prop :=
  c.mldsa65Verify request.transportAuthPublicKey
    (buildTransportRegisterSignInput request.userId request.transportAuthPublicKey)
    request.proofSignatureMldsa65 = .ok ()

/-- The holder of the old key has signed for this user, the old key and the new key. -/
def SignsRotation (c : ServerCrypto) (existing : Bytes) (request : RegisterRequest Bytes) : Prop :=
  ∃ sig, request.rotationSignatureMldsa65 = some sig ∧
    c.mldsa65Verify existing
      (buildTransportRegisterRotateSignInput request.userId existing
        request.transportAuthPublicKey) sig = .ok ()

/-- The signature over the challenge verifies under the key. -/
def SignsChallenge (c : ServerCrypto) (publicKey : Bytes) (request : AuthFinishRequest Bytes) :
    Prop :=
  c.mldsa65Verify publicKey
    (buildTransportAuthSignInput request.userId request.clientNonce request.serverNonce
      request.challengeId request.expiresAtUnix) request.signatureMldsa65 = .ok ()

/-- Everything a call may do.  `secret` is the provisioning secret, `now` the time the call reads
first, `check` the time it compares the expiry of a challenge with. -/
inductive AuthStep (c : ServerCrypto) (secret : Bytes) (now check : UInt64) (v : AuthView) :
    AuthCall → Result AuthReply → AuthView → Prop
  | registerRefused (request : RegisterRequest Bytes) (e : String) :
    AuthStep c secret now check v (.register request) (.error e) v
  | registerSame (request : RegisterRequest Bytes)
    (hkey : v.key request.userId = some request.transportAuthPublicKey) :
    AuthStep c secret now check v (.register request) (.ok .done) v
  | registerFirst (request : RegisterRequest Bytes) (huser : isValidUserId request.userId)
    (hsize : request.transportAuthPublicKey.length ≤ kMaxTransportAuthPublicKeyBytes)
    (hproof : ProvesPossession c request) (hkey : v.key request.userId = none)
    (htoken : secret ≠ [] →
      ProvisioningToken c secret request.userId request.registrationToken) :
    AuthStep c secret now check v (.register request) (.ok .done)
      (v.withKey request.userId request.transportAuthPublicKey)
  | registerReplace (request : RegisterRequest Bytes) (existing : Bytes)
    (huser : isValidUserId request.userId)
    (hsize : request.transportAuthPublicKey.length ≤ kMaxTransportAuthPublicKeyBytes)
    (hproof : ProvesPossession c request) (hkey : v.key request.userId = some existing)
    (hne : existing ≠ request.transportAuthPublicKey)
    (hauth : SignsRotation c existing request ∨
      secret ≠ [] ∧ ProvisioningToken c secret request.userId request.registrationToken) :
    AuthStep c secret now check v (.register request) (.ok .done)
      ((v.withKey request.userId request.transportAuthPublicKey).endSessions request.userId)
  | refused (call : AuthCall) (e : String) (hcall : ∀ request, call ≠ .register request)
    (hsig : ∀ request, call = .finishAuth request → e ≠ "auth signature invalid")
    {v' : AuthView} (hswept : v.Swept v') :
    AuthStep c secret now check v call (.error e) v'
  | begun (request : AuthBeginRequest Bytes) (response : AuthBeginResponse Bytes) {v₁ : AuthView}
    (hswept : v.Swept v₁) :
    AuthStep c secret now check v (.beginAuth request) (.ok (.challenge response))
      (v₁.openChallenge response.challengeId
        ⟨request.userId, request.clientNonce, response.serverNonce, response.expiresAtUnix, false⟩)
  | rejected (request : AuthFinishRequest Bytes) (e : String) {v₁ : AuthView}
    (hswept : v.Swept v₁) {challenge : ChallengeState}
    (hopen : v₁.challenge request.challengeId = some challenge) :
    AuthStep c secret now check v (.finishAuth request) (.error e)
      (v₁.closeChallenge request.challengeId)
  | finished (request : AuthFinishRequest Bytes) (response : AuthFinishResponse Bytes)
    {v₁ : AuthView} (hswept : v.Swept v₁) {challenge : ChallengeState}
    (hopen : v₁.challenge request.challengeId = some challenge)
    (hmatch : challenge.Matches request) (htime : check ≤ request.expiresAtUnix)
    {publicKey : Bytes} (hkey : v.key request.userId = some publicKey)
    (hsig : SignsChallenge c publicKey request) (hexp : response.expiresAtUnix = now + 900) :
    AuthStep c secret now check v (.finishAuth request) (.ok (.token response))
      ((v₁.closeChallenge request.challengeId).openSession response.sessionToken
        ⟨request.userId, response.expiresAtUnix⟩)
  | authenticated (token : Bytes) {v₁ : AuthView} (hswept : v.Swept v₁) {grant : Grant}
    (hsession : v₁.session token = some grant) (htime : now ≤ grant.expiresAtUnix) :
    AuthStep c secret now check v (.authenticate token) (.ok (.user grant.userId)) v₁
  | revoked (token : Bytes) :
    AuthStep c secret now check v (.revoke token) (.ok .done) (v.closeSession token)

/-! ## 3. What the checks of a server establish -/

theorem Except.eq_ok_of_isOk {e : Result Unit} (h : e.isOk = true) : e = .ok () := by
  cases e with
  | error e => cases h
  | ok u => rfl

/-- What a request for registration has passed. -/
theorem checkRegisterRequest_ok {c : ServerCrypto} {request : RegisterRequest Bytes} {u : Unit}
    (h : checkRegisterRequest c request = .ok u) : isValidUserId request.userId ∧
      request.transportAuthPublicKey.length ≤ kMaxTransportAuthPublicKeyBytes ∧
      ProvesPossession c request := by
  unfold checkRegisterRequest at h
  split at h
  · cases h
  split at h
  · cases h
  split at h
  · cases h
  split at h
  · cases h
  split at h
  · cases h
  case isFalse huser hsize _ _ hproof =>
    push Not at huser hsize hproof
    exact ⟨huser, hsize.2, Except.eq_ok_of_isOk hproof⟩

theorem checkFinishRequest_ok {request : AuthFinishRequest Bytes} {u : Unit}
    (h : checkFinishRequest request = .ok u) : isValidUserId request.userId := by
  unfold checkFinishRequest at h
  split at h
  · cases h
  case isFalse huser =>
    push Not at huser
    exact huser

theorem checkFinishRequest_error {request : AuthFinishRequest Bytes} {e : String}
    (h : checkFinishRequest request = .error e) : "" ++ e ≠ "auth signature invalid" := by
  unfold checkFinishRequest at h
  split at h
  · cases h
    decide
  split at h
  · cases h
    decide
  split at h
  · cases h
    decide
  split at h
  · cases h
    decide
  · cases h

theorem provisioningToken_of_ok {c : ServerCrypto} {secret userId token : Bytes} {u : Unit}
    (h : verifyProvisioningToken c secret userId token = .ok u) :
    ProvisioningToken c secret userId token := by
  unfold verifyProvisioningToken at h
  split at h
  · cases h
  case h_2 expected hmac =>
    split at h
    · cases h
    split at h
    · cases h
    case h_2 provided hdecode =>
      split at h
      · cases h
      split at h
      · cases h
      case isFalse heq =>
        push Not at heq
        exact ⟨expected, hmac, heq ▸ hdecode⟩

theorem checkFirstRegistration_ok {c : ServerCrypto} {secret : Bytes}
    {request : RegisterRequest Bytes} {u : Unit}
    (h : checkFirstRegistration c secret request = .ok u) (hs : secret ≠ []) :
    ProvisioningToken c secret request.userId request.registrationToken := by
  rw [checkFirstRegistration, if_pos hs] at h
  exact provisioningToken_of_ok h

theorem signsRotation_of_rotated {c : ServerCrypto} {existing : Bytes}
    {request : RegisterRequest Bytes} (h : rotated c existing request = true) :
    SignsRotation c existing request := by
  unfold rotated at h
  split at h
  · cases h
  case h_2 sig hsig => exact ⟨sig, hsig, Except.eq_ok_of_isOk h⟩

/-- What stands behind a replacement of a key. -/
theorem replacement_authorised {c : ServerCrypto} {secret existing : Bytes}
    {request : RegisterRequest Bytes}
    (h : rotated c existing request ∨ recovered c secret existing request) :
    SignsRotation c existing request ∨
      secret ≠ [] ∧ ProvisioningToken c secret request.userId request.registrationToken := by
  rcases h with h | h
  · exact Or.inl (signsRotation_of_rotated h)
  · unfold recovered at h
    simp only [Bool.and_eq_true, decide_eq_true_eq] at h
    exact Or.inr ⟨h.1.2, provisioningToken_of_ok (Except.eq_ok_of_isOk h.2)⟩

/-! ## 4. What one step can do -/

namespace AuthStep

variable {c : ServerCrypto} {secret : Bytes} {now check : UInt64} {v v' : AuthView}
  {call : AuthCall} {reply : Result AuthReply}

theorem of_eq (h : AuthStep c secret now check v call reply v') {v₁ : AuthView} (heq : v₁ = v') :
    AuthStep c secret now check v call reply v₁ := heq ▸ h

/-- A registered key is replaced or stays; it is not removed. -/
theorem key_ne_none (h : AuthStep c secret now check v call reply v') {u : Bytes}
    (hu : v.key u ≠ none) : v'.key u ≠ none := by
  cases h with
  | registerRefused | registerSame | revoked => exact hu
  | registerFirst | registerReplace =>
    simp only [AuthView.withKey, AuthView.endSessions]
    split
    · exact Option.some_ne_none _
    · exact hu
  | refused _ _ _ _ hswept => rwa [hswept.key]
  | begun _ _ hswept => exact hswept.key ▸ hu
  | rejected _ _ hswept => exact hswept.key ▸ hu
  | finished _ _ hswept => exact hswept.key ▸ hu
  | authenticated _ hswept => rwa [hswept.key]

/-- Keys that are too long are not registered. -/
theorem key_size (h : AuthStep c secret now check v call reply v')
    (hsize : ∀ {u key}, v.key u = some key → key.length ≤ kMaxTransportAuthPublicKeyBytes)
    {u key : Bytes} (hkey : v'.key u = some key) :
    key.length ≤ kMaxTransportAuthPublicKeyBytes := by
  cases h with
  | registerRefused | registerSame | revoked => exact hsize hkey
  | registerFirst _ _ hnew | registerReplace _ _ _ hnew =>
    simp only [AuthView.withKey, AuthView.endSessions] at hkey
    split at hkey
    · obtain rfl := Option.some.inj hkey
      exact hnew
    · exact hsize hkey
  | refused _ _ _ _ hswept => exact hsize (hswept.key ▸ hkey)
  | begun _ _ hswept => exact hsize (hswept.key ▸ hkey)
  | rejected _ _ hswept => exact hsize (hswept.key ▸ hkey)
  | finished _ _ hswept => exact hsize (hswept.key ▸ hkey)
  | authenticated _ hswept => exact hsize (hswept.key ▸ hkey)

/-- If the key of a user is replaced, no session of that user is left. -/
theorem session_of_key_ne (h : AuthStep c secret now check v call reply v') {u : Bytes}
    (hu : v.key u ≠ none) (hne : v'.key u ≠ v.key u) {token : Bytes} {grant : Grant}
    (hs : v'.session token = some grant) : grant.userId ≠ u := by
  cases h with
  | registerRefused | registerSame | revoked => exact absurd rfl hne
  | registerFirst request _ _ _ hkey =>
    simp only [AuthView.withKey] at hne
    split at hne
    case isTrue heq =>
      rw [heq] at hu
      exact absurd hkey hu
    · exact absurd rfl hne
  | registerReplace request =>
    simp only [AuthView.withKey, AuthView.endSessions] at hne hs
    split at hne
    case isTrue heq =>
      have hfilter := (Option.filter_eq_some_iff.mp hs).2
      rw [heq]
      simpa using hfilter
    · exact absurd rfl hne
  | refused _ _ _ _ hswept => exact absurd (congrFun hswept.key u) hne
  | begun _ _ hswept => exact absurd (congrFun hswept.key u) hne
  | rejected _ _ hswept => exact absurd (congrFun hswept.key u) hne
  | finished _ _ hswept => exact absurd (congrFun hswept.key u) hne
  | authenticated _ hswept => exact absurd (congrFun hswept.key u) hne

/-- A token that starts to stand for a user was returned by a `Finish` that passed all checks. -/
theorem session_made (h : AuthStep c secret now check v call reply v') {token : Bytes}
    {grant : Grant} (hnot : v.session token ≠ some grant) (hs : v'.session token = some grant) :
    ∃ request response challenge publicKey, call = .finishAuth request ∧
      reply = .ok (.token response) ∧ response.sessionToken = token ∧
      grant = ⟨request.userId, now + 900⟩ ∧
      v.challenge request.challengeId = some challenge ∧ challenge.Matches request ∧
      check ≤ request.expiresAtUnix ∧ v.key request.userId = some publicKey ∧
      SignsChallenge c publicKey request := by
  cases h with
  | registerRefused | registerSame | registerFirst => exact absurd hs hnot
  | registerReplace => exact absurd (Option.filter_eq_some_iff.mp hs).1 hnot
  | refused _ _ _ _ hswept => exact absurd (hswept.session hs) hnot
  | begun _ _ hswept => exact absurd (hswept.session hs) hnot
  | rejected _ _ hswept => exact absurd (hswept.session hs) hnot
  | @finished request response v₁ hswept challenge hopen hmatch htime publicKey hkey hsig hexp =>
    simp only [AuthView.openSession, AuthView.closeChallenge] at hs
    split at hs
    case isTrue htok =>
      refine ⟨request, response, challenge, publicKey, rfl, rfl, htok.symm, ?_,
        hswept.challenge hopen, hmatch, htime, hkey, hsig⟩
      rw [← Option.some.inj hs, hexp]
    · exact absurd (hswept.session hs) hnot
  | authenticated _ hswept => exact absurd (hswept.session hs) hnot
  | revoked =>
    simp only [AuthView.closeSession] at hs
    split at hs
    · cases hs
    · exact absurd hs hnot

/-- A challenge is opened by `Begin`. -/
theorem challenge_made (h : AuthStep c secret now check v call reply v') {id : Bytes}
    {challenge : ChallengeState} (hnot : v.challenge id ≠ some challenge)
    (hopen : v'.challenge id = some challenge) :
    ∃ request response, call = .beginAuth request ∧ reply = .ok (.challenge response) ∧
      response.challengeId = id ∧
      challenge = ⟨request.userId, request.clientNonce, response.serverNonce,
        response.expiresAtUnix, false⟩ := by
  cases h with
  | registerRefused | registerSame | registerFirst | registerReplace | revoked =>
    exact absurd hopen hnot
  | refused _ _ _ _ hswept => exact absurd (hswept.challenge hopen) hnot
  | begun request response hswept =>
    simp only [AuthView.openChallenge] at hopen
    split at hopen
    case isTrue hid => exact ⟨request, response, rfl, rfl, hid.symm, (Option.some.inj hopen).symm⟩
    · exact absurd (hswept.challenge hopen) hnot
  | rejected _ _ hswept =>
    simp only [AuthView.closeChallenge] at hopen
    split at hopen
    · cases hopen
    · exact absurd (hswept.challenge hopen) hnot
  | finished _ _ hswept =>
    simp only [AuthView.openSession, AuthView.closeChallenge] at hopen
    split at hopen
    · cases hopen
    · exact absurd (hswept.challenge hopen) hnot
  | authenticated _ hswept => exact absurd (hswept.challenge hopen) hnot

/-- The call is a `Finish` that uses up the challenge with this id: it returns a token, or it
reports a bad signature, or the challenge is open before and not after. -/
def Consumes (v : AuthView) (call : AuthCall) (reply : Result AuthReply) (v' : AuthView)
    (id : Bytes) : Prop :=
  ∃ request, call = .finishAuth request ∧ request.challengeId = id ∧
    ((∃ response, reply = .ok (.token response)) ∨ reply = .error "auth signature invalid" ∨
      v.challenge id ≠ none ∧ v'.challenge id = none)

/-- A challenge that is used up was open and is closed. -/
theorem of_consumes (h : AuthStep c secret now check v call reply v') {id : Bytes}
    (hc : Consumes v call reply v' id) : v.challenge id ≠ none ∧ v'.challenge id = none := by
  obtain ⟨request, rfl, rfl, hc⟩ := hc
  cases h with
  | refused _ _ _ hsig =>
    rcases hc with ⟨_, hc⟩ | hc | hc
    · cases hc
    · exact absurd (Except.error.inj hc) (hsig _ rfl)
    · exact hc
  | rejected _ _ hswept hopen =>
    have hv := hswept.challenge hopen
    exact ⟨by rw [hv]; exact Option.some_ne_none _, if_pos rfl⟩
  | finished _ _ hswept hopen =>
    have hv := hswept.challenge hopen
    exact ⟨by rw [hv]; exact Option.some_ne_none _, if_pos rfl⟩

theorem session_of_revoke {token : Bytes}
    (h : AuthStep c secret now check v (.revoke token) (.ok .done) v') :
    v'.session token = none := by
  cases h
  exact if_pos rfl

theorem of_authenticate {token u : Bytes}
    (h : AuthStep c secret now check v (.authenticate token) (.ok (.user u)) v') :
    ∃ grant, v.session token = some grant ∧ grant.userId = u ∧ now ≤ grant.expiresAtUnix := by
  cases h with
  | authenticated _ hswept hsession htime => exact ⟨_, hswept.session hsession, rfl, htime⟩

end AuthStep

/-! ## 5. Histories -/

section Histories

variable {S : Type}

/-- The state after the calls, newest first. -/
def IServerApi.afterAuth (api : IServerApi S) (s₀ : S) (calls : List AuthCall) : S :=
  History.after (fun call s => (api.auth call s).2) s₀ calls

/-- What a call returned that was made after the earlier ones. -/
def IServerApi.authReply (api : IServerApi S) (s₀ : S) (call : AuthCall)
    (earlier : List AuthCall) : Result AuthReply :=
  (api.auth call (api.afterAuth s₀ earlier)).1

/-- No two calls of `Begin` return the same challenge id. -/
def DistinctChallenges (api : IServerApi S) (s₀ : S) (calls : List AuthCall) : Prop :=
  ∀ {request request' response response' earlier earlier'},
    .beginAuth request :: earlier <:+ calls → .beginAuth request' :: earlier' <:+ calls →
    api.authReply s₀ (.beginAuth request) earlier = .ok (.challenge response) →
    api.authReply s₀ (.beginAuth request') earlier' = .ok (.challenge response') →
    response.challengeId = response'.challengeId → earlier = earlier'

/-- An earlier `Begin` returned the challenge that the request answers, for the same user and
nonces, and no `Finish` has used it up. -/
structure Challenged (api : IServerApi S) (view : S → AuthView) (s₀ : S)
    (request : AuthFinishRequest Bytes) (earlier : List AuthCall) : Prop where
  issued : ∃ (begun : AuthBeginRequest Bytes) (response : AuthBeginResponse Bytes)
    (before : List AuthCall), .beginAuth begun :: before <:+ earlier ∧
    api.authReply s₀ (.beginAuth begun) before = .ok (.challenge response) ∧
    begun.userId = request.userId ∧ begun.clientNonce = request.clientNonce ∧
    response.challengeId = request.challengeId ∧ response.serverNonce = request.serverNonce ∧
    response.expiresAtUnix = request.expiresAtUnix
  unused : ∀ call before, call :: before <:+ earlier →
    ¬ AuthStep.Consumes (view (api.afterAuth s₀ before)) call (api.authReply s₀ call before)
      (view (api.afterAuth s₀ (call :: before))) request.challengeId

/-- The call of `Finish` that an accepted token goes back to. -/
structure GrantedBy (c : ServerCrypto) (api : IServerApi S) (view : S → AuthView)
    (now check : S → UInt64) (s₀ : S) (calls : List AuthCall) (token userId : Bytes) (n : UInt64)
    (request : AuthFinishRequest Bytes) (response : AuthFinishResponse Bytes)
    (earlier : List AuthCall) : Prop where
  called : .finishAuth request :: earlier <:+ calls
  returned : api.authReply s₀ (.finishAuth request) earlier = .ok (.token response)
  sameToken : response.sessionToken = token
  sameUser : request.userId = userId
  lifetime : n.toNat ≤ (now (api.afterAuth s₀ earlier)).toNat + 900
  challenged : Challenged api view s₀ request earlier
  inTime : check (api.afterAuth s₀ earlier) ≤ request.expiresAtUnix
  signed : ∃ publicKey, (view (api.afterAuth s₀ earlier)).key userId = some publicKey ∧
    SignsChallenge c publicKey request
  sameKey : ∀ registration before, .register registration :: before <:+ calls →
    .finishAuth request :: earlier <:+ before →
    (view (api.afterAuth s₀ (.register registration :: before))).key userId =
      (view (api.afterAuth s₀ before)).key userId
  notRevoked : ∀ before, .revoke token :: before <:+ calls →
    .finishAuth request :: earlier <:+ before → api.authReply s₀ (.revoke token) before ≠ .ok .done

/-- A server whose calls are steps of the service. -/
structure AuthService (c : ServerCrypto) (S : Type) where
  api : IServerApi S
  Inv : S → Prop
  view : S → AuthView
  secret : S → Bytes
  now : S → UInt64
  check : S → UInt64
  inv_step : ∀ call s, Inv s → Inv (api.auth call s).2
  step : ∀ call s, Inv s → AuthStep c (secret s) (now s) (check s) (view s) call
    (api.auth call s).1 (view (api.auth call s).2)

namespace AuthService

variable {c : ServerCrypto} (A : AuthService c S) {s₀ : S} {calls earlier : List AuthCall}
  {call : AuthCall}

theorem inv_after (h₀ : A.Inv s₀) (calls : List AuthCall) : A.Inv (A.api.afterAuth s₀ calls) :=
  History.after_induction h₀ A.inv_step calls

theorem step_after (h₀ : A.Inv s₀) (call : AuthCall) (earlier : List AuthCall) :
    AuthStep c (A.secret (A.api.afterAuth s₀ earlier)) (A.now (A.api.afterAuth s₀ earlier))
      (A.check (A.api.afterAuth s₀ earlier)) (A.view (A.api.afterAuth s₀ earlier)) call
      (A.api.authReply s₀ call earlier) (A.view (A.api.afterAuth s₀ (call :: earlier))) :=
  A.step call _ (A.inv_after h₀ earlier)

/-- A key that was registered at some time is registered at all later times. -/
theorem key_ne_none (h₀ : A.Inv s₀) {later : List AuthCall} (hle : earlier <:+ later) {u : Bytes}
    (hu : (A.view (A.api.afterAuth s₀ earlier)).key u ≠ none) :
    (A.view (A.api.afterAuth s₀ later)).key u ≠ none := by
  induction later with
  | nil => rwa [← List.suffix_nil.mp hle]
  | cons call later ih =>
    rcases List.suffix_cons_iff.mp hle with rfl | hle
    · exact hu
    · exact (A.step_after h₀ call later).key_ne_none (ih hle)

/-- An open challenge was opened by a `Begin` and has been open since. -/
theorem challenge_since (h₀ : A.Inv s₀) (hnone : ∀ id, (A.view s₀).challenge id = none)
    {id : Bytes} {challenge : ChallengeState}
    (hopen : (A.view (A.api.afterAuth s₀ calls)).challenge id = some challenge) :
    ∃ request response before, .beginAuth request :: before <:+ calls ∧
      A.api.authReply s₀ (.beginAuth request) before = .ok (.challenge response) ∧
      response.challengeId = id ∧
      challenge = ⟨request.userId, request.clientNonce, response.serverNonce,
        response.expiresAtUnix, false⟩ ∧
      ∀ b between, b :: between <:+ calls → .beginAuth request :: before <:+ between →
        (A.view (A.api.afterAuth s₀ between)).challenge id = some challenge ∧
        (A.view (A.api.afterAuth s₀ (b :: between))).challenge id = some challenge := by
  have hnot : ¬ (A.view s₀).challenge id = some challenge := by
    rw [hnone]
    exact nofun
  obtain ⟨call, before, hsuf, hbefore, hmade, hsince⟩ :=
    History.since (P := fun s => (A.view s).challenge id = some challenge) hnot hopen
  obtain ⟨request, response, rfl, hreply, hid, rfl⟩ :=
    (A.step_after h₀ call before).challenge_made hbefore hmade
  exact ⟨request, response, before, hsuf, hreply, hid, rfl, hsince⟩

/-- The challenge that a `Finish` answers, if it is open. -/
theorem challenged (h₀ : A.Inv s₀) (hnone : ∀ id, (A.view s₀).challenge id = none)
    (hids : DistinctChallenges A.api s₀ calls) (hsub : earlier <:+ calls)
    {request : AuthFinishRequest Bytes} {challenge : ChallengeState}
    (hopen : (A.view (A.api.afterAuth s₀ earlier)).challenge request.challengeId = some challenge)
    (hmatch : challenge.Matches request) : Challenged A.api A.view s₀ request earlier := by
  obtain ⟨begun, response, before, hsuf, hreply, hid, rfl, hsince⟩ :=
    A.challenge_since h₀ hnone hopen
  obtain ⟨huser, hclient, hserver, hexp⟩ := hmatch
  refine ⟨⟨begun, response, before, hsuf, hreply, huser, hclient, hid, hserver, hexp⟩, ?_⟩
  intro call past hpast hconsumes
  obtain ⟨hwas, hgone⟩ := (A.step_after h₀ call past).of_consumes hconsumes
  rcases History.cases_of_suffix hpast hsuf with hb | hb | ⟨rfl, rfl⟩
  · -- used up before it was issued: then an earlier `Begin` had issued the same id
    obtain ⟨challenge', hopen'⟩ := Option.ne_none_iff_exists'.mp hwas
    obtain ⟨begun', response', before', hsuf', hreply', hid', -, -⟩ :=
      A.challenge_since h₀ hnone hopen'
    have hpast' : past <:+ before := (List.suffix_cons call past).trans hb
    have heq : before' = before :=
      hids (hsuf'.trans (hpast'.trans ((List.suffix_cons _ _).trans (hsuf.trans hsub))))
        (hsuf.trans hsub) hreply' hreply (hid'.trans hid.symm)
    have h1 := (hsuf'.trans hpast').length_le
    rw [heq, List.length_cons] at h1
    omega
  · -- used up since then: but it has been open
    rw [(hsince call past hpast hb).2] at hgone
    cases hgone
  · obtain ⟨_, hcall, -⟩ := hconsumes
    cases hcall

/-- An accepted token goes back to a `Finish`. -/
theorem granted (h₀ : A.Inv s₀) (hchallenge : ∀ id, (A.view s₀).challenge id = none)
    (hsession : ∀ token, (A.view s₀).session token = none)
    (hids : DistinctChallenges A.api s₀ calls) {token userId : Bytes}
    (h : A.api.authReply s₀ (.authenticate token) calls = .ok (.user userId)) :
    ∃ request response earlier,
      GrantedBy c A.api A.view A.now A.check s₀ calls token userId
        (A.now (A.api.afterAuth s₀ calls)) request response earlier := by
  have hstep := A.step_after h₀ (.authenticate token) calls
  rw [h] at hstep
  obtain ⟨grant, hgrant, huser, htime⟩ := hstep.of_authenticate
  have hnot : ¬ (A.view s₀).session token = some grant := by
    rw [hsession]
    exact nofun
  obtain ⟨call, earlier, hsuf, hbefore, hmade, hsince⟩ :=
    History.since (P := fun s => (A.view s).session token = some grant) hnot hgrant
  obtain ⟨request, response, challenge, publicKey, rfl, hreply, htoken, rfl, hopen, hmatch, hcheck,
    hkey, hsig⟩ := (A.step_after h₀ call earlier).session_made hbefore hmade
  obtain rfl : request.userId = userId := huser
  have hearlier : earlier <:+ calls := (List.suffix_cons _ _).trans hsuf
  refine ⟨request, response, earlier, hsuf, hreply, htoken, rfl, ?_,
    A.challenged h₀ hchallenge hids hearlier hopen hmatch, hcheck, ⟨publicKey, hkey, hsig⟩, ?_, ?_⟩
  · -- the sum may wrap around, which only makes it smaller
    have h1 := UInt64.le_iff_toNat_le.mp htime
    rw [UInt64.toNat_add] at h1
    exact h1.trans (Nat.mod_le _ _)
  · intro registration before hb hafter
    by_contra hne
    have hu : (A.view (A.api.afterAuth s₀ before)).key request.userId ≠ none := by
      refine A.key_ne_none h₀ ((List.suffix_cons _ _).trans hafter) ?_
      rw [hkey]
      exact Option.some_ne_none _
    exact (A.step_after h₀ _ before).session_of_key_ne hu hne (hsince _ before hb hafter).2 rfl
  · intro before hb hafter hrevoked
    have hstep := A.step_after h₀ (.revoke token) before
    rw [hrevoked] at hstep
    cases hstep.session_of_revoke.symm.trans (hsince _ before hb hafter).2

end AuthService

end Histories

end PqChat
