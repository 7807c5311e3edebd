/-
# Tokens and keys on either server

Two results about the authentication calls, for `InMemoryServer` and for `SqliteStore` alike,
over every history of calls with any contents and any clock.

* A token that is accepted goes back to a `Finish` that answered a fresh challenge under the key
  of its user, and nothing has happened since that should have ended it.
* The key of a user changes only with the consent of whoever may give it, and the sessions of
  that user end with it.
-/
import PqChat.Server.InMemoryAuth
import PqChat.Server.SqliteAuth
import PqChat.Wire.Canonical

namespace PqChat

open ByteString

/-! ## 1. The two servers -/

/-- The two implementations of `IServerApi` on the side of the server. -/
inductive Backend
  | inMemoryServer
  | sqliteStore
  deriving DecidableEq, Repr

namespace Backend

/-- The server object. -/
def Object : Backend → Type
  | inMemoryServer => InMemoryServer Bytes
  | sqliteStore => SqliteStore

abbrev State (b : Backend) : Type := Hosted b.Object

def api (c : ServerCrypto) : (b : Backend) → IServerApi b.State
  | inMemoryServer => InMemoryServer.api c
  | sqliteStore => SqliteStore.api c

/-- The registered keys, the open challenges and the sessions. -/
def authView (c : ServerCrypto) : (b : Backend) → b.State → AuthView
  | inMemoryServer, s => InMemoryServer.authView s.object
  | sqliteStore, s => SqliteStore.authView c s.object

/-- The provisioning secret. -/
def secret : (b : Backend) → b.State → Bytes
  | inMemoryServer, s => InMemoryServer.requiredRegistrationToken s.object
  | sqliteStore, s => SqliteStore.requiredRegistrationToken s.object

/-- The time that the next call reads first. -/
def now (b : Backend) (s : b.State) : UInt64 := s.now

/-- The time that a `Finish` compares the expiry of a challenge with: `SqliteStore` reads the
clock again. -/
def check : (b : Backend) → b.State → UInt64
  | inMemoryServer, s => s.now
  | sqliteStore, s => s.tick.now

/-- A server that has just been started, on an empty database. -/
def Fresh : (b : Backend) → b.State → Prop
  | inMemoryServer, s => ∃ token, s.object = InMemoryServer.init token
  | sqliteStore, s => ∃ outcome hmacSecret token,
    s.object = SqliteStore.init outcome hmacSecret token

/-- The hash under which tokens are stored tells them apart, and the texts of SQLite are not the
store's own. -/
def Assumes (c : ServerCrypto) : (b : Backend) → b.State → Prop
  | inMemoryServer, _ => True
  | sqliteStore, s => SqliteStore.Assumes c s.object

/-! ### A user on the database

Alice registers a key, authenticates with it and replaces it. -/

namespace Alice

/-- A clock that stands still, and bytes that count up. -/
def host : Host :=
  { clock := fun _ => 1000, clockReads := 0
    random := fun n => some fun i => UInt8.ofNat (n + i), draws := 0 }

/-- A new database without failures and without a provisioning secret. -/
def store : sqliteStore.State := ⟨host, SqliteStore.init (fun _ => .ok) [9] []⟩

def sign (key message : Bytes) : Bytes := key ++ message ++ List.replicate 64 0

def user : Bytes := text "alice"

def registration (key : Bytes) : RegisterRequest Bytes :=
  { userId := user, transportAuthPublicKey := key, registrationToken := []
    proofSignatureMldsa65 := sign key (buildTransportRegisterSignInput user key)
    rotationSignatureMldsa65 := none }

def rotation (old key : Bytes) : RegisterRequest Bytes :=
  { registration key with
    rotationSignatureMldsa65 :=
      some (sign old (buildTransportRegisterRotateSignInput user old key)) }

def clientNonce : Bytes := List.replicate 32 1

/-- The bytes of the `n`-th draw. -/
def drawn (n bytes : Nat) : Bytes := (List.range bytes).map fun i => UInt8.ofNat (n + i)

def finish : AuthFinishRequest Bytes :=
  let challengeId := hexEncode (drawn 0 16)
  { userId := user, challengeId, clientNonce, serverNonce := drawn 1 32, expiresAtUnix := 1060
    signatureMldsa65 := sign [5] (buildTransportAuthSignInput user clientNonce (drawn 1 32)
      challengeId 1060) }

/-- Newest first. -/
def calls : List AuthCall :=
  [.finishAuth finish, .beginAuth ⟨user, clientNonce⟩, .register (registration [5])]

theorem fresh_store : sqliteStore.Fresh store := ⟨_, _, _, rfl⟩

theorem assumes_store : sqliteStore.Assumes ServerCrypto.transparent store := by
  refine ⟨?_, ?_⟩
  · rintro e ⟨n, he | he⟩
    · cases he
    · cases he
  · intro token token' h htoken htoken'
    have heq : [9] ++ token = [9] ++ token' := by
      have := htoken.trans htoken'.symm
      exact Except.ok.inj this
    exact List.append_cancel_left heq

theorem distinctChallenges_calls (api : IServerApi sqliteStore.State) :
    DistinctChallenges api store calls := by
  have hbegin : ∀ {request earlier}, .beginAuth request :: earlier <:+ calls →
      earlier = [.register (registration [5])] := by
    intro request earlier h
    simp only [calls, List.suffix_cons_iff, List.cons.injEq, reduceCtorEq, false_and, false_or,
      List.suffix_nil, or_false] at h
    exact h.2
  intro _ _ _ _ _ _ h h' _ _ _
  exact (hbegin h).trans (hbegin h').symm

end Alice

/-! ## 2. Tokens -/

/-- **A session token is sound.**  If a token is accepted for a user at time `n`, then an earlier
`Finish` returned it for that user at most 900 seconds before; that call answered, in time, a
challenge that `Begin` had issued for the same user and nonces and that no `Finish` had used up;
its signature verified under the key registered at that time; and since then the key of the user
has not changed and the token has not been revoked. -/
theorem session_token_soundness (c : ServerCrypto) (b : Backend) {s₀ : b.State}
    (h₀ : b.Fresh s₀) (hassumes : b.Assumes c s₀) {calls : List AuthCall}
    (hids : DistinctChallenges (b.api c) s₀ calls) {token userId : Bytes}
    (h : (b.api c).authReply s₀ (.authenticate token) calls = .ok (.user userId)) :
    ∃ request response earlier,
      GrantedBy c (b.api c) (b.authView c) b.now b.check s₀ calls token userId
        (b.now ((b.api c).afterAuth s₀ calls)) request response earlier := by
  cases b with
  | inMemoryServer =>
    obtain ⟨secret, hs₀⟩ := h₀
    refine (InMemoryServer.authService c).granted trivial ?_ ?_ hids h
    · intro id
      change (s₀.object.authView).challenge id = none
      rw [hs₀]
      rfl
    · intro t
      change (s₀.object.authView).session t = none
      rw [hs₀]
      rfl
  | sqliteStore =>
    obtain ⟨outcome, hmacSecret, secret, hs₀⟩ := h₀
    have hwf : SqliteStore.WellFormed s₀.object := by
      rw [hs₀]
      exact SqliteStore.wellFormed_init outcome hmacSecret secret
    refine (SqliteStore.authService c).granted ⟨hwf, hassumes⟩ ?_ ?_ hids h
    · intro id
      change (SqliteStore.authView c s₀.object).challenge id = none
      rw [hs₀]
      rfl
    · intro t
      change (SqliteStore.authView c s₀.object).session t = none
      rw [hs₀]
      simp only [SqliteStore.authView, SqliteStore.Tables.authView]
      split
      · rfl
      · rfl

theorem session_token_alice :
    (sqliteStore.api ServerCrypto.transparent).authReply Alice.store
      (.authenticate (Alice.drawn 2 32)) Alice.calls = .ok (.user Alice.user) ∧
    ∃ request response earlier,
      GrantedBy ServerCrypto.transparent (sqliteStore.api ServerCrypto.transparent)
        (sqliteStore.authView ServerCrypto.transparent) sqliteStore.now sqliteStore.check
        Alice.store Alice.calls (Alice.drawn 2 32) Alice.user
        (sqliteStore.now ((sqliteStore.api ServerCrypto.transparent).afterAuth Alice.store
          Alice.calls)) request response earlier := by
  have h : (sqliteStore.api ServerCrypto.transparent).authReply Alice.store
      (.authenticate (Alice.drawn 2 32)) Alice.calls = .ok (.user Alice.user) := by
    decide +kernel
  exact ⟨h, session_token_soundness ServerCrypto.transparent sqliteStore Alice.fresh_store
    Alice.assumes_store (Alice.distinctChallenges_calls _) h⟩

/-! ## 3. Keys -/

/-- Nothing but the call of one of the builders of signed strings gives this string. -/
def SignedExactly (x : Canonical) : Prop := ∀ y : Canonical, y.Short → y.bytes = x.bytes → y = x

theorem signedExactly_of_short {x : Canonical} (hx : x.Short) (hcovered : x.covered = x)
    (hinj : ∀ y : Canonical, y.covered = x → y = x) : SignedExactly x := by
  intro y hy h
  refine hinj y ?_
  rw [← hcovered]
  exact Canonical.covered_eq_of_bytes_eq hy hx h

theorem length_of_isValidUserId {userId : Bytes} (h : isValidUserId userId) :
    userId.length ≤ kMaxUserIdBytes := by
  simp only [isValidUserId, Bool.and_eq_true, Bool.not_eq_true', Bool.or_eq_false_iff,
    decide_eq_false_iff_not, gt_iff_lt, not_lt] at h
  exact h.1.2

theorem signedExactly_register {userId key : Bytes} (hu : isValidUserId userId)
    (hk : key.length ≤ kMaxTransportAuthPublicKeyBytes) :
    SignedExactly (.transportRegister userId key) := by
  have hlen := length_of_isValidUserId hu
  rw [kMaxUserIdBytes] at hlen
  rw [kMaxTransportAuthPublicKeyBytes] at hk
  refine signedExactly_of_short ?_ rfl ?_
  · intro x hx
    simp only [Canonical.components, List.mem_cons, List.not_mem_nil, or_false] at hx
    rcases hx with rfl | rfl <;> omega
  · intro y hy
    cases y <;> first | exact hy | cases hy

theorem signedExactly_rotate {userId old key : Bytes} (hu : isValidUserId userId)
    (ho : old.length ≤ kMaxTransportAuthPublicKeyBytes)
    (hk : key.length ≤ kMaxTransportAuthPublicKeyBytes) :
    SignedExactly (.transportRegisterRotate userId old key) := by
  have hlen := length_of_isValidUserId hu
  rw [kMaxUserIdBytes] at hlen
  rw [kMaxTransportAuthPublicKeyBytes] at ho hk
  refine signedExactly_of_short ?_ rfl ?_
  · intro x hx
    simp only [Canonical.components, List.mem_cons, List.not_mem_nil, or_false] at hx
    rcases hx with rfl | rfl | rfl <;> omega
  · intro y hy
    cases y <;> first | exact hy | cases hy

/-- What a call of `RegisterTransportIdentity` may do, and on what grounds. -/
structure Registers (c : ServerCrypto) (secret : Bytes) (v : AuthView)
    (request : RegisterRequest Bytes) (reply : Result AuthReply) (v' : AuthView) : Prop where
  error : ∀ e, reply = .error e → v'.key = v.key ∧ v'.session = v.session
  change : ∀ u, v'.key u ≠ v.key u → reply = .ok .done ∧ u = request.userId ∧
    isValidUserId u ∧ v'.key u = some request.transportAuthPublicKey ∧
    ProvesPossession c request ∧
    SignedExactly (.transportRegister u request.transportAuthPublicKey)
  first : ∀ u, v'.key u ≠ v.key u → v.key u = none → secret ≠ [] →
    ProvisioningToken c secret u request.registrationToken
  replacement : ∀ u old, v'.key u ≠ v.key u → v.key u = some old →
    SignsRotation c old request ∧
      SignedExactly (.transportRegisterRotate u old request.transportAuthPublicKey) ∨
    secret ≠ [] ∧ ProvisioningToken c secret u request.registrationToken
  sessions : ∀ u old, v'.key u ≠ v.key u → v.key u = some old →
    ∀ token, v'.session token = (v.session token).filter (·.userId ≠ u)

/-- One step of the service, for a registration. -/
theorem registers_of_step {c : ServerCrypto} {secret : Bytes} {now check : UInt64}
    {v v' : AuthView} {request : RegisterRequest Bytes} {reply : Result AuthReply}
    (hsize : ∀ {u key}, v.key u = some key → key.length ≤ kMaxTransportAuthPublicKeyBytes)
    (h : AuthStep c secret now check v (.register request) reply v') :
    Registers c secret v request reply v' := by
  have hsame : ∀ {reply}, Registers c secret v request reply v := fun {_} =>
    ⟨fun _ _ => ⟨rfl, rfl⟩, fun _ hne => absurd rfl hne, fun _ hne => absurd rfl hne,
      fun _ _ hne => absurd rfl hne, fun _ _ hne => absurd rfl hne⟩
  have hchanged : ∀ {u k : Bytes}, (v.withKey request.userId k).key u ≠ v.key u →
      u = request.userId := by
    intro u k hne
    by_contra hu
    exact hne (if_neg hu)
  cases h with
  | registerRefused | registerSame => exact hsame
  | refused _ _ hcall => exact absurd rfl (hcall request)
  | registerFirst _ huser hnew hproof hkey htoken =>
    refine ⟨nofun, fun u hne => ?_, fun u hne _ => ?_, fun u old hne hold => ?_,
      fun u old hne hold => ?_⟩
    · obtain rfl := hchanged hne
      exact ⟨rfl, rfl, huser, if_pos rfl, hproof, signedExactly_register huser hnew⟩
    · obtain rfl := hchanged hne
      exact htoken
    · obtain rfl := hchanged hne
      rw [hkey] at hold
      cases hold
    · obtain rfl := hchanged hne
      rw [hkey] at hold
      cases hold
  | registerReplace _ existing huser hnew hproof hkey hne' hauth =>
    refine ⟨nofun, fun u hne => ?_, fun u hne hnone => ?_, fun u old hne hold => ?_,
      fun u old hne _ token => ?_⟩
    · obtain rfl := hchanged hne
      exact ⟨rfl, rfl, huser, if_pos rfl, hproof, signedExactly_register huser hnew⟩
    · obtain rfl := hchanged hne
      rw [hkey] at hnone
      cases hnone
    · obtain rfl := hchanged hne
      obtain rfl := Option.some.inj (hkey.symm.trans hold)
      exact hauth.imp_left fun hsig => ⟨hsig, signedExactly_rotate huser (hsize hkey) hnew⟩
    · obtain rfl := hchanged hne
      rfl

theorem inMemory_after (c : ServerCrypto) {s₀ : Hosted (InMemoryServer Bytes)} {secret : Bytes}
    (hs₀ : s₀.object = InMemoryServer.init secret) (calls : List AuthCall) :
    let s := (InMemoryServer.api c).afterAuth s₀ calls
    s.object.requiredRegistrationToken = s₀.object.requiredRegistrationToken ∧
      ∀ {u key}, s.object.authView.key u = some key →
        key.length ≤ kMaxTransportAuthPublicKeyBytes := by
  induction calls with
  | nil =>
    refine ⟨rfl, ?_⟩
    intro u key hkey
    rw [IServerApi.afterAuth, History.after_nil, hs₀] at hkey
    cases hkey
  | cons call earlier ih =>
    have hstep := InMemoryServer.auth_step c call ((InMemoryServer.api c).afterAuth s₀ earlier)
    exact ⟨hstep.secret.trans ih.1, hstep.step.key_size ih.2⟩

theorem sqlite_after (c : ServerCrypto) {s₀ : Hosted SqliteStore}
    {outcome : Nat → Sql.Outcome} {hmacSecret secret : Bytes}
    (hs₀ : s₀.object = SqliteStore.init outcome hmacSecret secret) (calls : List AuthCall) :
    let s := (SqliteStore.api c).afterAuth s₀ calls
    SqliteStore.SameSetup s₀.object s.object ∧ SqliteStore.WellFormed s.object := by
  induction calls with
  | nil =>
    refine ⟨⟨rfl, rfl, rfl⟩, ?_⟩
    rw [IServerApi.afterAuth, History.after_nil, hs₀]
    exact SqliteStore.wellFormed_init outcome hmacSecret secret
  | cons call earlier ih =>
    have hstep := SqliteStore.auth_step c call ih.2
    exact ⟨ih.1.trans hstep.setup, hstep.wellFormed⟩

/-- **A transport key changes only with consent.**  For a first registration that is the holder
of the new key and, with a provisioning secret, a token; for a replacement it is the holder of
the new key and the holder of the old key or, with a provisioning secret, a token.  The
signatures are over exactly this user and these keys.  A refused call changes nothing, and a
replacement ends the sessions of this user and of nobody else. -/
theorem key_change_authorised (c : ServerCrypto) (b : Backend) {s₀ : b.State} (h₀ : b.Fresh s₀)
    (calls : List AuthCall) (request : RegisterRequest Bytes) :
    Registers c (b.secret s₀) (b.authView c ((b.api c).afterAuth s₀ calls)) request
      ((b.api c).authReply s₀ (.register request) calls)
      (b.authView c ((b.api c).afterAuth s₀ (.register request :: calls))) := by
  cases b with
  | inMemoryServer =>
    obtain ⟨secret, hs₀⟩ := h₀
    obtain ⟨hsecret, hsize⟩ := inMemory_after c hs₀ calls
    have hstep := InMemoryServer.auth_step c (.register request)
      ((InMemoryServer.api c).afterAuth s₀ calls)
    exact registers_of_step hsize (hsecret ▸ hstep.step)
  | sqliteStore =>
    obtain ⟨outcome, hmacSecret, secret, hs₀⟩ := h₀
    obtain ⟨hsetup, hwf⟩ := sqlite_after c hs₀ calls
    have hstep := SqliteStore.register_auth_step c request hwf
    exact registers_of_step hwf.users.account (hsetup.secret ▸ hstep.step trivial)

theorem key_change_alice :
    (sqliteStore.api ServerCrypto.transparent).authReply Alice.store
      (.register (Alice.rotation [5] [6])) Alice.calls = .ok .done ∧
    Registers ServerCrypto.transparent [] (sqliteStore.authView ServerCrypto.transparent
        ((sqliteStore.api ServerCrypto.transparent).afterAuth Alice.store Alice.calls))
      (Alice.rotation [5] [6])
      ((sqliteStore.api ServerCrypto.transparent).authReply Alice.store
        (.register (Alice.rotation [5] [6])) Alice.calls)
      (sqliteStore.authView ServerCrypto.transparent
        ((sqliteStore.api ServerCrypto.transparent).afterAuth Alice.store
          (.register (Alice.rotation [5] [6]) :: Alice.calls))) := by
  refine ⟨by decide +kernel, ?_⟩
  exact key_change_authorised ServerCrypto.transparent sqliteStore Alice.fresh_store Alice.calls
    (Alice.rotation [5] [6])

end Backend

end PqChat
