/-
# The two servers agree on authentication

`InMemoryServer` and `SqliteStore` are run side by side on the same calls, with the same clock
and the same random bytes.  `AuthInStep` is the relation between them: the same accounts, the same
challenges, the same tokens that stand for a user, and attempts that count the same from now on,
although one server trims all buckets at every call and the other only the one it looks at.

Each call keeps the relation and ends the same way on both (`register_inStep` and so on), where
three things are excluded, each of which the two servers do differently:

* a token that is revoked twice, or after its session has been ended by a new key: the row is
  still there, marked, and `SqliteStore` reports success;
* times from 2^63 on, which SQL compares as negative numbers;
* a challenge that expires during the `Finish` that answers it: `SqliteStore` reads the clock a
  second time.
-/
import PqChat.Lib.Lockstep
import PqChat.Server.Backend

namespace PqChat

open ByteString Sql

/-! ## 1. The same clock -/

/-- When a call happens: the first reading of the clock, and the later ones. -/
structure Moment where
  now : UInt64
  later : UInt64
  deriving DecidableEq, Repr

/-- The server at that moment. -/
def Hosted.at {σ : Type} (s : Hosted σ) (m : Moment) : Hosted σ :=
  { s with host := { s.host with
      clock := fun n => if n = 0 then m.now else m.later
      clockReads := 0 } }

section Moments

variable {S : Type} (api : IServerApi (Hosted S))

/-- Make a call at a moment. -/
def IServerApi.authAt (a : AuthCall × Moment) : Proc (Hosted S) AuthReply := fun s =>
  api.auth a.1 (s.at a.2)

/-- The server after the calls, newest first. -/
def IServerApi.afterAuthAt (s₀ : Hosted S) (actions : List (AuthCall × Moment)) : Hosted S :=
  History.after (fun a s => (api.authAt a s).2) s₀ actions

end Moments

/-- The clock does not go back. -/
def Clockwise (actions : List (AuthCall × Moment)) : Prop :=
  (∀ a ∈ actions, a.2.now ≤ a.2.later) ∧ actions.Pairwise fun a earlier => earlier.2.later ≤ a.2.now

/-! ## 2. Attempts -/

/-- From the time `last` on, the attempts of every user count the same. -/
def SameRates (last : UInt64) (b b' : Buckets) : Prop :=
  ∀ user now, last ≤ now → trimWindow now kAuthRateWindowSeconds ((b.get user).getD []) =
    trimWindow now kAuthRateWindowSeconds ((b'.get user).getD [])

/-- What is trimmed now need not have been trimmed before. -/
theorem trimWindow_trimWindow {now now' : UInt64} (h : now ≤ now') (window : UInt64)
    (bucket : List UInt64) :
    trimWindow now' window (trimWindow now window bucket) = trimWindow now' window bucket := by
  induction bucket with
  | nil => rfl
  | cons t bucket ih =>
    by_cases ht : t + window ≤ now
    · have ht' : t + window ≤ now' := UInt64.le_trans ht h
      rw [trimWindow, trimWindow, List.dropWhile_cons_of_pos (by simpa using ht), trimWindow,
        List.dropWhile_cons_of_pos (by simpa using ht')]
      exact ih
    · rw [trimWindow, trimWindow, List.dropWhile_cons_of_neg (by simpa using ht), trimWindow]

namespace SameRates

variable {last now : UInt64} {b b' : Buckets}

theorem later (h : SameRates last b b') (hle : last ≤ now) : SameRates now b b' :=
  fun user _ hn => h user _ (UInt64.le_trans hle hn)

/-- One side trims its buckets. -/
theorem trimmed (h : SameRates now b b') : SameRates now
    ((b.mapValues (trimWindow now kAuthRateWindowSeconds)).sweep fun _ w => !w.isEmpty) b' := by
  intro user now' hle
  have hget : (((b.mapValues (trimWindow now kAuthRateWindowSeconds)).sweep
      fun _ w => !w.isEmpty).get user).getD [] =
        trimWindow now kAuthRateWindowSeconds ((b.get user).getD []) :=
    Map.getD_sweep_nonempty b rfl user
  rw [hget, trimWindow_trimWindow hle, h user now' hle]

theorem set (h : SameRates now b b') (user : Bytes) (bucket : List UInt64) :
    SameRates now (b.set user bucket) (b'.set user bucket) := by
  intro user' now' hle
  rw [Map.get_set, Map.get_set]
  split
  · rfl
  · exact h user' now' hle

/-- `EnforceRateLimit` decides the same on both sides. -/
theorem enforceRateLimit (h : SameRates now b b') (user : Bytes) (max : Nat) (errorText : String) :
    Lockstep (enforceRateLimit user now max kAuthRateWindowSeconds errorText)
      (enforceRateLimit user now max kAuthRateWindowSeconds errorText)
      (fun _ _ b b' => SameRates now b b') (SameRates now) b b' := by
  unfold PqChat.enforceRateLimit
  refine Lockstep.left rfl (Lockstep.right rfl ?_)
  dsimp only
  rw [h user now (UInt64.le_refl _)]
  split
  · exact Lockstep.left rfl (Lockstep.right rfl (Lockstep.fail (h.set _ _)))
  · exact Lockstep.of_ok rfl rfl (h.set _ _)

end SameRates

/-! ## 3. The relation -/

/-- The id is the hexadecimal form of sixteen bytes that the host has given out. -/
def Host.DrewId (host : Host) (id : Bytes) : Prop :=
  ∃ n < host.draws, ∃ stream, host.random n = some stream ∧
    id = hexEncode ((List.range 16).map stream)

/-- The hash is that of thirty-two bytes that the host has given out. -/
def Host.DrewToken (hash : Bytes → Result Bytes) (host : Host) (h : Bytes) : Prop :=
  ∃ n < host.draws, ∃ stream, host.random n = some stream ∧
    hash ((List.range 32).map stream) = .ok h

/-- The random bytes are distinct: two draws differ in their first sixteen bytes. -/
def DistinctDraws (random : Nat → Option (Nat → UInt8)) : Prop :=
  ∀ m n stream stream', random m = some stream → random n = some stream' →
    (List.range 16).map stream = (List.range 16).map stream' → m = n

/-- The hash under which tokens are stored always succeeds and tells tokens apart. -/
structure TellsTokens (hash : Bytes → Result Bytes) : Prop where
  total : ∀ token, ∃ h, hash token = .ok h
  injective : SqliteStore.Tables.HashInjective hash

/-- The two servers are in step; `last` is the time of the last call. -/
structure AuthInStep (c : ServerCrypto) (hash : Bytes → Result Bytes) (last : UInt64)
    (s : Hosted (InMemoryServer Bytes)) (t : Hosted SqliteStore) : Prop where
  random : t.host.random = s.host.random
  draws : t.host.draws = s.host.draws
  distinct : DistinctDraws s.host.random
  reliable : t.object.db.Reliable
  closed : t.object.db.saved = none
  hashes : c.hmacSha256 t.object.tokenHmacSecret = hash
  secret : t.object.requiredRegistrationToken = s.object.requiredRegistrationToken
  accounts : t.object.db.tables.accounts = s.object.transportIdentities
  challenges : t.object.db.tables.authChallenges = s.object.challenges
  sessions : (t.object.db.tables.authView hash).session = s.object.authView.session
  users : t.object.db.tables.Users
  beginRates : SameRates last s.object.authBeginAttempts t.object.authBeginAttempts
  finishRates : SameRates last s.object.authFinishAttempts t.object.authFinishAttempts
  ids : ∀ id challenge, s.object.challenges.get id = some challenge → s.host.DrewId id
  tokens : ∀ h row, t.object.db.tables.sessions.get h = some row → s.host.DrewToken hash h

/-- The stored times compare with `now` as signed numbers the way they do as unsigned ones. -/
structure SqliteStore.Tables.Signed (t : SqliteStore.Tables) (now : UInt64) : Prop where
  challenges : ∀ id challenge, t.authChallenges.get id = some challenge →
    (challenge.expiresAtUnix.toInt64 < now.toInt64 ↔ challenge.expiresAtUnix < now)
  sessions : ∀ h row, t.sessions.get h = some row →
    (row.expiresAtUnix.toInt64 < now.toInt64 ↔ row.expiresAtUnix < now)

theorem Option.filter_congr_of {α : Type} {o : Option α} {p q : α → Bool}
    (h : ∀ a, o = some a → p a = q a) : o.filter p = o.filter q := by
  cases o with
  | none => rfl
  | some a => rw [Option.filter_some, Option.filter_some, h a rfl]

theorem Map.sweep_congr {K V : Type} {m : Map K V} {p q : K → V → Bool}
    (h : ∀ k v, m.get k = some v → p k v = q k v) : m.sweep p = m.sweep q := by
  refine Map.ext fun k => ?_
  rw [Map.get_sweep, Map.get_sweep]
  exact Option.filter_congr_of (h k)

/-- The sessions that are left when some rows are swept. -/
theorem InMemoryServer.session_sweep (s : InMemoryServer Bytes) (p : UInt64 → Bool) :
    { s with sessions := s.sessions.sweep fun _ x => p x.expiresAtUnix }.authView.session =
      fun token => (s.authView.session token).filter fun grant => p grant.expiresAtUnix := by
  funext token
  simp only [InMemoryServer.authView, Map.get_sweep]
  rcases s.sessions.get (hexEncode token) with _ | x
  · rfl
  · by_cases hp : p x.expiresAtUnix = true <;> simp [Option.filter, hp]

theorem SqliteStore.Tables.session_sweep (t : SqliteStore.Tables) (hash : Bytes → Result Bytes)
    (p : UInt64 → Bool) :
    ({ t with sessions := t.sessions.sweep fun _ x => p x.expiresAtUnix }.authView hash).session =
      fun token => ((t.authView hash).session token).filter fun grant => p grant.expiresAtUnix := by
  funext token
  simp only [SqliteStore.Tables.authView, Map.get_sweep]
  rcases hash token with e | h
  · rfl
  · dsimp only
    rcases t.sessions.get h with _ | x
    · rfl
    · by_cases hp : p x.expiresAtUnix = true <;> by_cases hr : x.revoked = true <;>
        simp [Option.filter, hp, hr]

/-- The tables after `CleanupAuthState`. -/
def SqliteStore.Tables.cleaned (now : UInt64) (t : SqliteStore.Tables) : SqliteStore.Tables :=
  { t with
    authChallenges := t.authChallenges.sweep fun _ challenge =>
      !(challenge.used || challenge.expiresAtUnix.toInt64 < now.toInt64)
    sessions := t.sessions.sweep fun _ session =>
      !(session.expiresAtUnix.toInt64 < now.toInt64) }

section Calls

variable {c : ServerCrypto} {hash : Bytes → Result Bytes} {last now : UInt64}
  {s : Hosted (InMemoryServer Bytes)} {t : Hosted SqliteStore}

/-- The stored times of the view are those of the rows. -/
theorem SqliteStore.Tables.Signed.session {t : SqliteStore.Tables} (h : t.Signed now)
    {token : Bytes} {grant : Grant} (hg : (t.authView hash).session token = some grant) :
    grant.expiresAtUnix.toInt64 < now.toInt64 ↔ grant.expiresAtUnix < now := by
  unfold SqliteStore.Tables.authView at hg
  dsimp only at hg
  split at hg
  · cases hg
  · obtain ⟨row, hrow, rfl⟩ := Option.map_eq_some_iff.mp hg
    exact h.sessions _ row (Option.filter_eq_some_iff.mp hrow).1

/-- Both servers clean up. -/
theorem AuthInStep.cleanup (h : AuthInStep c hash last s t) (hle : last ≤ now)
    (hsigned : t.object.db.tables.Signed now) {d : Db SqliteStore.Tables} (hd : d.Reliable)
    (hsaved : d.saved = t.object.db.saved)
    (htables : d.tables = t.object.db.tables.cleaned now) :
    AuthInStep c hash now { s with object := s.object.cleanupAuthState now }
      { t with object := { t.object with db := d } } where
  random := h.random
  draws := h.draws
  distinct := h.distinct
  reliable := hd
  closed := hsaved.trans h.closed
  hashes := h.hashes
  secret := h.secret
  accounts := by
    rw [htables]
    exact h.accounts
  challenges := by
    rw [htables]
    change t.object.db.tables.authChallenges.sweep _ = s.object.challenges.sweep _
    rw [← h.challenges]
    refine Map.sweep_congr fun id challenge hget => ?_
    simp only [hsigned.challenges id challenge hget]
  sessions := by
    rw [htables]
    change ({ t.object.db.tables with
      sessions := t.object.db.tables.sessions.sweep _ }.authView hash).session = _
    rw [SqliteStore.Tables.session_sweep _ hash fun e => !(e.toInt64 < now.toInt64)]
    refine Eq.trans ?_ (InMemoryServer.session_sweep s.object fun e => !(e < now)).symm
    funext token
    rw [← h.sessions]
    refine Option.filter_congr_of fun grant hgrant => ?_
    simp only [hsigned.session hgrant]
  users := by
    rw [htables]
    exact (h.users.sweepChallenges _ _).sweepSessions _ _
  beginRates := (h.beginRates.later hle).trimmed
  finishRates := (h.finishRates.later hle).trimmed
  ids := fun id challenge hget => h.ids id challenge (Map.get_sweep_eq_some.mp hget).1
  tokens := by
    rw [htables]
    exact fun h' row hget => h.tokens h' row (Map.get_sweep_eq_some.mp hget).1

theorem SqliteStore.leaves_cleanup (h : t.object.db.Reliable) (now : UInt64) :
    Leaves SqliteStore.hostedConnection
      (SqliteStore.hostedConnection.on (SqliteStore.cleanupAuthState now)) t ()
      (t.object.db.tables.cleaned now) := by
  refine ⟨{ t.object.db with
    tables := t.object.db.tables.cleaned now, used := t.object.db.used + 1 + 1 },
    Holder.on_of_ok ?_, h, rfl, rfl⟩
  refine (Proc.bind_ok (update_of_ok h _) _).trans ?_
  exact update_of_ok (d := t.object.db.moved _) h _

/-! ## 4. The calls -/

/-- The connection has moved on, with the same tables. -/
theorem AuthInStep.moved (h : AuthInStep c hash last s t) {d : Db SqliteStore.Tables}
    (hd : d.Reliable)
    (hsaved : d.saved = t.object.db.saved) (htables : d.tables = t.object.db.tables) :
    AuthInStep c hash last s { t with object := { t.object with db := d } } :=
  { h with
    reliable := hd
    closed := hsaved.trans h.closed
    accounts := (congrArg SqliteStore.Tables.accounts htables).trans h.accounts
    challenges := (congrArg SqliteStore.Tables.authChallenges htables).trans h.challenges
    sessions := by
      rw [htables]
      exact h.sessions
    users := by
      rw [htables]
      exact h.users
    tokens := by
      rw [htables]
      exact h.tokens }

/-- A user has registered a first key. -/
theorem AuthInStep.withKey (h : AuthInStep c hash last s t) {userId publicKey : Bytes}
    (hsize : publicKey.length ≤ kMaxTransportAuthPublicKeyBytes) {d : Db SqliteStore.Tables}
    (hd : d.Reliable) (hsaved : d.saved = t.object.db.saved)
    (htables : d.tables = { t.object.db.tables with
      accounts := t.object.db.tables.accounts.set userId publicKey }) :
    AuthInStep c hash last
      { s with object := { s.object with
        transportIdentities := s.object.transportIdentities.set userId publicKey } }
      { t with object := { t.object with db := d } } :=
  { h with
    reliable := hd
    closed := hsaved.trans h.closed
    accounts := by
      rw [htables, ← h.accounts]
    challenges := (congrArg SqliteStore.Tables.authChallenges htables).trans h.challenges
    sessions := by
      rw [htables]
      exact h.sessions
    users := by
      rw [htables]
      exact h.users.setKey _ userId hsize
    tokens := by
      rw [htables]
      exact h.tokens }

/-- A user has replaced the key. -/
theorem AuthInStep.replaceKey (h : AuthInStep c hash last s t) {userId publicKey existing : Bytes}
    (hkey : s.object.transportIdentities.get userId = some existing)
    (hsize : publicKey.length ≤ kMaxTransportAuthPublicKeyBytes) {d : Db SqliteStore.Tables}
    (hd : d.Reliable) (hsaved : d.saved = t.object.db.saved)
    (htables : d.tables = t.object.db.tables.replaceKey userId publicKey) :
    AuthInStep c hash last
      { s with object := { s.object with
        transportIdentities := s.object.transportIdentities.set userId publicKey
        sessions := s.object.sessions.sweep fun _ session => session.userId ≠ userId } }
      { t with object := { t.object with db := d } } :=
  { h with
    reliable := hd
    closed := hsaved.trans h.closed
    accounts := by
      rw [htables]
      refine Map.ext fun u => ?_
      change (t.object.db.tables.accounts.adjust userId _).get u = _
      rw [h.accounts, Map.get_adjust, Map.get_set]
      split
      · rename_i hu
        rw [hu, hkey]
        rfl
      · rfl
    challenges := (congrArg SqliteStore.Tables.authChallenges htables).trans h.challenges
    sessions := by
      rw [htables, InMemoryServer.authView_replaceKey,
        SqliteStore.Tables.authView_replaceKey _ h.users (by rw [h.accounts]; exact hkey)]
      simp only [AuthView.endSessions, AuthView.withKey, h.sessions]
    users := by
      rw [htables]
      exact h.users.replaceKey _ userId hsize
    tokens := by
      rw [htables]
      intro h' row hget
      obtain ⟨row', hrow', -⟩ := Option.map_eq_some_iff.mp hget
      exact h.tokens h' row' hrow' }

theorem SqliteStore.leaves_replaceKey {o : SqliteStore} (hd : o.db.Reliable)
    (hclosed : o.db.saved = none) (request : RegisterRequest Bytes) :
    Leaves SqliteStore.connection (SqliteStore.replaceKey request) o ()
      (o.db.tables.replaceKey request.userId request.transportAuthPublicKey) := by
  refine leaves_transaction hd hclosed fun d hd' htables => ?_
  refine leaves_bind (leaves_update hd' rfl) fun d' hd'' _ htables' => ?_
  refine leaves_update hd'' ?_
  change SqliteStore.Tables.mk d'.tables.accounts d'.tables.authChallenges
    (d'.tables.sessions.mapValues _) d'.tables.bundles d'.tables.oneTimeEc d'.tables.oneTimePq
    d'.tables.inbox = _
  rw [htables']
  change SqliteStore.Tables.mk (d.tables.accounts.adjust _ _) d.tables.authChallenges
    (d.tables.sessions.mapValues _) d.tables.bundles d.tables.oneTimeEc d.tables.oneTimePq
    d.tables.inbox = _
  rw [htables]
  rfl

theorem register_inStep (request : RegisterRequest Bytes) (h : AuthInStep c hash last s t) :
    Lockstep (Hosted.on (InMemoryServer.registerTransportIdentity c request))
      (Hosted.on (SqliteStore.registerTransportIdentity c request))
      (fun _ _ => AuthInStep c hash last) (AuthInStep c hash last) s t := by
  refine Lockstep.zoom (Lockstep.ofExcept_bind h fun _ hcheck => ?_)
  obtain ⟨-, hsize, -⟩ := checkRegisterRequest_ok hcheck
  have hrow : (SqliteStore.connection.get t.object).tables.accounts.get request.userId =
      s.object.transportIdentities.get request.userId := by
    rw [← h.accounts]
    rfl
  refine Lockstep.right_leaves (leaves_query h.reliable hrow) fun d hd hsaved htables => ?_
  refine Lockstep.left rfl (Lockstep.right rfl ?_)
  have h₁ := h.moved hd hsaved htables
  have hsecret : (SqliteStore.connection.set d t.object).requiredRegistrationToken =
      s.object.requiredRegistrationToken := h.secret
  rw [hsecret]
  rcases hkey : s.object.transportIdentities.get request.userId with _ | existing
  · -- a first registration
    refine Lockstep.ofExcept_bind h₁ fun _ _ => ?_
    have hnone : (SqliteStore.connection.get
        (SqliteStore.connection.set d t.object)).tables.accounts.get request.userId = none := by
      change d.tables.accounts.get request.userId = none
      rw [htables, ← hkey, ← h.accounts]
      rfl
    refine Lockstep.right_leaves_end rfl (leaves_exec (a := ()) hd (t := { d.tables with
      accounts := d.tables.accounts.set request.userId request.transportAuthPublicKey }) ?_)
      fun d' hd' hsaved' htables' => h₁.withKey hsize hd' hsaved' htables'
    dsimp only
    rw [hnone]
    rfl
  · dsimp only
    split
    · refine Lockstep.require_bind Iff.rfl h₁ fun _ => ?_
      refine Lockstep.right_leaves_end rfl
        (SqliteStore.leaves_replaceKey hd (hsaved.trans h.closed) request)
        fun d' hd' hsaved' htables' => h₁.replaceKey hkey hsize hd' hsaved' htables'
    · exact Lockstep.pure h₁

/-- The clock has been read. -/
theorem AuthInStep.ticked (h : AuthInStep c hash last s t) : AuthInStep c hash last s.tick t.tick :=
  { h with }

theorem AuthInStep.right_ticked (h : AuthInStep c hash last s t) :
    AuthInStep c hash last s t.tick :=
  { h with }

/-- The bytes that the next draw gives out are not those of an earlier one. -/
theorem AuthInStep.fresh_id (h : AuthInStep c hash last s t) {stream : Nat → UInt8}
    (hstream : s.host.random s.host.draws = some stream) :
    t.object.db.tables.authChallenges.get (hexEncode ((List.range 16).map stream)) = none := by
  rw [h.challenges]
  refine Option.eq_none_iff_forall_not_mem.mpr fun challenge hget => ?_
  obtain ⟨n, hn, stream', hstream', hid⟩ := h.ids _ challenge hget
  have hsame := h.distinct _ _ _ _ hstream hstream' (hexEncode_inj hid)
  omega

theorem AuthInStep.fresh_token (h : AuthInStep c hash last s t) (htokens : TellsTokens hash)
    {stream : Nat → UInt8} (hstream : s.host.random s.host.draws = some stream) {k : Bytes}
    (hk : hash ((List.range 32).map stream) = .ok k) :
    t.object.db.tables.sessions.get k = none := by
  refine Option.eq_none_iff_forall_not_mem.mpr fun row hget => ?_
  obtain ⟨n, hn, stream', hstream', hk'⟩ := h.tokens _ row hget
  have hbytes := htokens.injective hk hk'
  have htake := congrArg (List.take 16) hbytes
  rw [← List.map_take, ← List.map_take] at htake
  have hsame := h.distinct _ _ _ _ hstream hstream' htake
  omega

theorem Host.DrewId.mono {host : Host} {id : Bytes} (h : host.DrewId id) :
    { host with draws := host.draws + 1 }.DrewId id := by
  obtain ⟨n, hn, stream, hstream, hid⟩ := h
  exact ⟨n, Nat.lt_succ_of_lt hn, stream, hstream, hid⟩

theorem Host.DrewToken.mono {host : Host} {k : Bytes} (h : host.DrewToken hash k) :
    { host with draws := host.draws + 1 }.DrewToken hash k := by
  obtain ⟨n, hn, stream, hstream, hk⟩ := h
  exact ⟨n, Nat.lt_succ_of_lt hn, stream, hstream, hk⟩

/-- The state after a draw. -/
def Hosted.drawn {σ : Type} (s : Hosted σ) : Hosted σ :=
  { s with host := { s.host with draws := s.host.draws + 1 } }

/-- Both hosts have drawn. -/
theorem AuthInStep.drawn (h : AuthInStep c hash last s t) :
    AuthInStep c hash last s.drawn t.drawn :=
  { h with
    draws := congrArg Nat.succ h.draws
    ids := fun id challenge hget => (h.ids id challenge hget).mono
    tokens := fun k row hget => (h.tokens k row hget).mono }

theorem nowUnix_apply {σ : Type} (s : Hosted σ) : nowUnix s = (.ok s.now, s.tick) := rfl

theorem randomBytes_apply {σ : Type} (n : Nat) (s : Hosted σ) : randomBytes n s =
    (.ok ((s.host.random s.host.draws).map fun stream => (List.range n).map stream), s.drawn) := rfl

theorem randomHex_apply {σ : Type} (n : Nat) (s : Hosted σ) : randomHex n s =
    (.ok (((s.host.random s.host.draws).map fun stream =>
      hexEncode ((List.range n).map stream)).getD []), s.drawn) := by
  rw [randomHex, Proc.bind_ok (randomBytes_apply n s)]
  rcases s.host.random s.host.draws with _ | stream <;> rfl

/-- A challenge has been stored. -/
theorem AuthInStep.withChallenge (h : AuthInStep c hash last s t) {id : Bytes}
    (challenge : ChallengeState) (huser : 0 ∉ challenge.userId) (hid : s.host.DrewId id)
    {d : Db SqliteStore.Tables} (hd : d.Reliable) (hsaved : d.saved = t.object.db.saved)
    (htables : d.tables = { t.object.db.tables with
      authChallenges := t.object.db.tables.authChallenges.set id challenge }) :
    AuthInStep c hash last
      { s with object := { s.object with challenges := s.object.challenges.set id challenge } }
      { t with object := { t.object with db := d } } :=
  { h with
    reliable := hd
    closed := hsaved.trans h.closed
    accounts := (congrArg SqliteStore.Tables.accounts htables).trans h.accounts
    challenges := by
      rw [htables, ← h.challenges]
    sessions := by
      rw [htables]
      exact h.sessions
    users := by
      rw [htables]
      exact h.users.setChallenge _ id huser
    ids := by
      intro id' challenge' hget
      change (s.object.challenges.set id challenge).get id' = _ at hget
      rw [Map.get_set] at hget
      split at hget
      · rename_i he
        exact he ▸ hid
      · exact h.ids id' challenge' hget
    tokens := by
      rw [htables]
      exact h.tokens }

/-- Both servers store a challenge with a new id. -/
theorem AuthInStep.storeChallenge (h : AuthInStep c hash last s t) {id : Bytes}
    {challenge : ChallengeState} (huser : 0 ∉ challenge.userId) (hid : s.host.DrewId id)
    (hfresh : t.object.db.tables.authChallenges.get id = none) :
    Lockstep
      (Hosted.on (Proc.modify fun s : InMemoryServer Bytes =>
        { s with challenges := s.challenges.set id challenge }))
      (SqliteStore.hostedConnection.on (exec fun t =>
        match t.authChallenges.get id with
        | some _ => .error "UNIQUE constraint failed: auth_challenges.challenge_id"
        | none => .ok ({ t with authChallenges := t.authChallenges.set id challenge }, ())))
      (fun _ _ => AuthInStep c hash last) (AuthInStep c hash last) s t := by
  refine Lockstep.right_leaves_end rfl (leaves_exec (a := ()) (t := { t.object.db.tables with
    authChallenges := t.object.db.tables.authChallenges.set id challenge }) h.reliable ?_)
    fun d hd hsaved htables => h.withChallenge _ huser hid hd hsaved htables
  change (match t.object.db.tables.authChallenges.get id with
    | some _ => _
    | none => _) = _
  rw [hfresh]
  rfl

section Rules

variable {α β : Type} {f : Unit → Proc (Hosted (InMemoryServer Bytes)) α}
  {g : Unit → Proc (Hosted SqliteStore) β}
  {R : α → β → Hosted (InMemoryServer Bytes) → Hosted SqliteStore → Prop}
  {E : Hosted (InMemoryServer Bytes) → Hosted SqliteStore → Prop}
  {user : Bytes} {max : Nat} {errorText : String}

/-- The limit of `Begin` decides the same. -/
theorem AuthInStep.beginLimit_bind (h : AuthInStep c hash now s t)
    (hf : ∀ b b',
      AuthInStep c hash now { s with object := { s.object with authBeginAttempts := b } }
        { t with object := { t.object with authBeginAttempts := b' } } →
      Lockstep (f ()) (g ()) R (AuthInStep c hash now)
        { s with object := { s.object with authBeginAttempts := b } }
        { t with object := { t.object with authBeginAttempts := b' } }) :
    Lockstep
      (Hosted.on (Proc.zoom InMemoryServer.authBeginAttempts
        (fun b s => { s with authBeginAttempts := b })
        (enforceRateLimit user now max kAuthRateWindowSeconds errorText)) >>= f)
      (Hosted.on (Proc.zoom SqliteStore.authBeginAttempts
        (fun b s => { s with authBeginAttempts := b })
        (enforceRateLimit user now max kAuthRateWindowSeconds errorText)) >>= g)
      R (AuthInStep c hash now) s t := by
  have hlimit := h.beginRates.enforceRateLimit user max errorText
  refine Lockstep.bind (Q := fun _ _ s' t' => ∃ b b',
      s' = { s with object := { s.object with authBeginAttempts := b } } ∧
        t' = { t with object := { t.object with authBeginAttempts := b' } } ∧ SameRates now b b')
    (Lockstep.zoom (Lockstep.zoom (Lockstep.imp hlimit ?_ ?_))) ?_
  · exact fun _ _ b b' hb => ⟨b, b', rfl, rfl, hb⟩
  · exact fun b b' hb => { h with beginRates := hb }
  · rintro _ _ _ _ ⟨b, b', rfl, rfl, hb⟩
    exact hf b b' { h with beginRates := hb }

/-- The limit of `Finish` decides the same. -/
theorem AuthInStep.finishLimit_bind (h : AuthInStep c hash now s t)
    (hf : ∀ b b',
      AuthInStep c hash now { s with object := { s.object with authFinishAttempts := b } }
        { t with object := { t.object with authFinishAttempts := b' } } →
      Lockstep (f ()) (g ()) R (AuthInStep c hash now)
        { s with object := { s.object with authFinishAttempts := b } }
        { t with object := { t.object with authFinishAttempts := b' } }) :
    Lockstep
      (Hosted.on (Proc.zoom InMemoryServer.authFinishAttempts
        (fun b s => { s with authFinishAttempts := b })
        (enforceRateLimit user now max kAuthRateWindowSeconds errorText)) >>= f)
      (Hosted.on (Proc.zoom SqliteStore.authFinishAttempts
        (fun b s => { s with authFinishAttempts := b })
        (enforceRateLimit user now max kAuthRateWindowSeconds errorText)) >>= g)
      R (AuthInStep c hash now) s t := by
  have hlimit := h.finishRates.enforceRateLimit user max errorText
  refine Lockstep.bind (Q := fun _ _ s' t' => ∃ b b',
      s' = { s with object := { s.object with authFinishAttempts := b } } ∧
        t' = { t with object := { t.object with authFinishAttempts := b' } } ∧ SameRates now b b')
    (Lockstep.zoom (Lockstep.zoom (Lockstep.imp hlimit ?_ ?_))) ?_
  · exact fun _ _ b b' hb => ⟨b, b', rfl, rfl, hb⟩
  · exact fun b b' hb => { h with finishRates := hb }
  · rintro _ _ _ _ ⟨b, b', rfl, rfl, hb⟩
    exact hf b b' { h with finishRates := hb }

/-- The database finds the key that the other server has. -/
theorem AuthInStep.account_right {x : Proc (Hosted (InMemoryServer Bytes)) α}
    {g : Option Bytes → Proc (Hosted SqliteStore) β} (h : AuthInStep c hash last s t)
    (hg : ∀ d, AuthInStep c hash last s { t with object := { t.object with db := d } } →
      Lockstep x (g (s.object.transportIdentities.get user)) R E s
        { t with object := { t.object with db := d } }) :
    Lockstep x (SqliteStore.hostedConnection.on (queryRow fun t => t.accounts.get user) >>= g)
      R E s t := by
  have hrow : (SqliteStore.hostedConnection.get t).tables.accounts.get user =
      s.object.transportIdentities.get user := by
    rw [← h.accounts]
    rfl
  exact Lockstep.right_leaves (leaves_queryRow h.reliable hrow) fun d hd hsaved htables =>
    hg d (h.moved hd hsaved htables)

/-- Both sides draw the same bytes. -/
theorem AuthInStep.randomBytes_bind {f : Option Bytes → Proc (Hosted (InMemoryServer Bytes)) α}
    {g : Option Bytes → Proc (Hosted SqliteStore) β} {n : Nat} (h : AuthInStep c hash last s t)
    (hf : ∀ x, x = ((s.host.random s.host.draws).map fun stream => (List.range n).map stream) →
      AuthInStep c hash last s.drawn t.drawn → Lockstep (f x) (g x) R E s.drawn t.drawn) :
    Lockstep (randomBytes n >>= f) (randomBytes n >>= g) R E s t := by
  have hsame := randomBytes_apply n t
  rw [h.random, h.draws] at hsame
  exact Lockstep.left (randomBytes_apply n s) (Lockstep.right hsame (hf _ rfl h.drawn))

theorem AuthInStep.randomHex_bind {f : Bytes → Proc (Hosted (InMemoryServer Bytes)) α}
    {g : Bytes → Proc (Hosted SqliteStore) β} {n : Nat} (h : AuthInStep c hash last s t)
    (hf : ∀ x, x = (((s.host.random s.host.draws).map fun stream =>
        hexEncode ((List.range n).map stream)).getD []) →
      AuthInStep c hash last s.drawn t.drawn → Lockstep (f x) (g x) R E s.drawn t.drawn) :
    Lockstep (randomHex n >>= f) (randomHex n >>= g) R E s t := by
  have hsame := randomHex_apply n t
  rw [h.random, h.draws] at hsame
  exact Lockstep.left (randomHex_apply n s) (Lockstep.right hsame (hf _ rfl h.drawn))

end Rules

theorem begin_inStep (request : AuthBeginRequest Bytes) (h : AuthInStep c hash last s t)
    (hnow : t.now = s.now) (hle : last ≤ s.now) (hsigned : t.object.db.tables.Signed s.now) :
    Lockstep (InMemoryServer.beginTransportAuthentication request)
      (SqliteStore.beginTransportAuthentication request)
      (fun a b s' t' => a = b ∧ AuthInStep c hash s.now s' t') (AuthInStep c hash s.now) s t := by
  unfold InMemoryServer.beginTransportAuthentication SqliteStore.beginTransportAuthentication
  refine Lockstep.left rfl (Lockstep.right rfl ?_)
  rw [hnow]
  refine Lockstep.left rfl ?_
  refine Lockstep.right_leaves (SqliteStore.leaves_cleanup (t := t.tick) h.reliable s.now)
    fun d hd hsaved htables => ?_
  have h₁ := h.ticked.cleanup hle hsigned hd hsaved htables
  refine Lockstep.require_bind Iff.rfl h₁ fun huser => ?_
  refine Lockstep.require_bind Iff.rfl h₁ fun _ => ?_
  refine h₁.beginLimit_bind fun b b' h₂ => ?_
  refine Lockstep.left rfl ?_
  refine h₂.account_right fun d h₃ => ?_
  refine Lockstep.require_bind Iff.rfl h₃ fun _ => ?_
  refine h₃.randomHex_bind fun id hid h₄ => h₄.randomBytes_bind fun nonce hnonce h₅ => ?_
  rcases nonce with _ | nonce
  · exact Lockstep.fail h₅
  have hlength : nonce ≠ [] := by
    rintro rfl
    obtain ⟨stream, -, hbytes⟩ := Option.map_eq_some_iff.mp hnonce.symm
    have hlen := congrArg List.length hbytes
    rw [List.length_map, List.length_range] at hlen
    cases hlen
  refine Lockstep.require_bind (and_iff_left hlength) h₅ fun hne => ?_
  obtain ⟨stream, hstream, rfl⟩ : ∃ stream, s.host.random s.host.draws = some stream ∧
      id = hexEncode ((List.range 16).map stream) := by
    have hrandom : id = ((s.host.random s.host.draws).map _).getD [] := hid
    rcases hs : s.host.random s.host.draws with _ | stream
    · rw [hs] at hrandom
      exact absurd hrandom hne.1
    · exact ⟨stream, rfl, by rw [hrandom, hs]; rfl⟩
  refine Lockstep.bind (h₅.storeChallenge (not_mem_of_isValidUserId huser) ?_ (h₃.fresh_id hstream))
    fun _ _ _ _ h => Lockstep.pure ⟨rfl, h⟩
  exact ⟨s.host.draws, Nat.lt_succ_of_lt (Nat.lt_succ_self _), stream, hstream, rfl⟩

/-! ### Finish -/

/-- The tables after a challenge has been used up. -/
def SqliteStore.Tables.useChallenge (t : SqliteStore.Tables) (id : Bytes)
    (challenge : ChallengeState) : SqliteStore.Tables :=
  { t with authChallenges := t.authChallenges.set id { challenge with used := true } }

/-- The stored challenge is open at the time that is read next, and the request repeats it. -/
def SqliteStore.Accepts (t : Hosted SqliteStore) (request : AuthFinishRequest Bytes)
    (challenge : ChallengeState) : Prop :=
  challenge.used = false ∧ ¬ t.now > challenge.expiresAtUnix ∧
    { challenge with userId := cString challenge.userId }.Matches request

theorem SqliteStore.consumeChallenge_of_accepts {request : AuthFinishRequest Bytes}
    {challenge : ChallengeState} (hd : t.object.db.Reliable) (hclosed : t.object.db.saved = none)
    (hget : t.object.db.tables.authChallenges.get request.challengeId = some challenge)
    (h : SqliteStore.Accepts t request challenge) :
    ∃ d, SqliteStore.consumeChallenge request t =
        (.ok (), SqliteStore.hostedConnection.set d t.tick) ∧ d.Reliable ∧ d.saved = none ∧
      d.tables = t.object.db.tables.useChallenge request.challengeId challenge := by
  obtain ⟨hused, htime, hmatch⟩ := h
  let t₁ : Hosted SqliteStore := SqliteStore.hostedConnection.set
    { t.object.db with
      tables := t.object.db.tables.useChallenge request.challengeId challenge
      saved := some t.object.db.tables
      used := t.object.db.used + 1 + 1 + 1 } t.tick
  refine ⟨_, (@transaction_of_ok _ _ _ SqliteStore.hostedConnection _ t t₁ () hd hclosed ?_
    hd).trans rfl, hd, rfl, rfl⟩
  refine (Proc.bind_ok (Holder.on_of_ok (queryRow_of_ok (d := t.object.db.begun) hd _)) _).trans ?_
  simp only [show t.object.db.begun.tables.authChallenges.get request.challengeId =
    some challenge from hget]
  rw [Proc.require_pos hused, Proc.pure_bind]
  refine (Proc.bind_ok (nowUnix_apply _) _).trans ?_
  change (Proc.require (¬ t.now > challenge.expiresAtUnix) _ >>= _) _ = _
  rw [Proc.require_pos htime, Proc.pure_bind, Proc.require_pos hmatch, Proc.pure_bind]
  refine (Proc.bind_ok (Holder.on_of_ok (exec_of_ok (d := (t.object.db.begun.moved _)) hd
    (a := 1) (t := t.object.db.tables.useChallenge request.challengeId challenge) ?_)) _).trans rfl
  change (match t.object.db.tables.authChallenges.get request.challengeId with
    | some challenge => _
    | none => _) = _
  rw [hget]
  exact (if_neg (by rw [hused]; decide)).trans rfl

/-- The call fails and leaves the tables; the clock may have been read. -/
def SqliteStore.Refuses (x : Proc (Hosted SqliteStore) Unit) (t : Hosted SqliteStore) : Prop :=
  ∃ e d t₁, x t = (.error e, SqliteStore.hostedConnection.set d t₁) ∧ (t₁ = t ∨ t₁ = t.tick) ∧
    d.Reliable ∧ d.saved = none ∧ d.tables = t.object.db.tables

/-- A transaction whose body fails before it has changed anything. -/
theorem SqliteStore.refuses_transaction {body : Proc (Hosted SqliteStore) Unit} {e : String}
    {t₁ : Hosted SqliteStore} (hd : t.object.db.Reliable) (hclosed : t.object.db.saved = none)
    (ht₁ : t₁ = t ∨ t₁ = t.tick)
    (hbody : body (SqliteStore.hostedConnection.set t.object.db.begun t) = (.error e,
      SqliteStore.hostedConnection.set (t.object.db.begun.moved t.object.db.tables) t₁)) :
    SqliteStore.Refuses (transaction SqliteStore.hostedConnection body) t :=
  ⟨e, _, t₁, (transaction_of_error hd hclosed hbody rfl).trans
    (congrArg _ (SqliteStore.hostedConnection.set_set _ _ _)), ht₁, hd, rfl, rfl⟩

theorem SqliteStore.consumeChallenge_refuses {request : AuthFinishRequest Bytes}
    (hd : t.object.db.Reliable) (hclosed : t.object.db.saved = none)
    (h : ∀ challenge, t.object.db.tables.authChallenges.get request.challengeId = some challenge →
      ¬ SqliteStore.Accepts t request challenge) :
    SqliteStore.Refuses (SqliteStore.consumeChallenge request) t := by
  have hfind : ∀ {f : Option ChallengeState → Proc (Hosted SqliteStore) Unit}, _ :=
    fun {f} => Proc.bind_ok (Holder.on_of_ok (h := SqliteStore.hostedConnection)
      (s := SqliteStore.hostedConnection.set t.object.db.begun t)
      (queryRow_of_ok (d := t.object.db.begun) hd
        fun t => t.authChallenges.get request.challengeId)) f
  unfold SqliteStore.consumeChallenge
  rcases hget : t.object.db.tables.authChallenges.get request.challengeId with _ | challenge
  · refine SqliteStore.refuses_transaction (e := "unknown challenge") hd hclosed (.inl rfl)
      (hfind.trans ?_)
    simp only [show t.object.db.begun.tables.authChallenges.get request.challengeId = none
      from hget]
    rfl
  have hbegun : t.object.db.begun.tables.authChallenges.get request.challengeId =
    some challenge := hget
  by_cases hused : challenge.used = false
  · by_cases htime : ¬ t.now > challenge.expiresAtUnix
    · have hmatch : ¬ { challenge with userId := cString challenge.userId }.Matches request :=
        fun hmatch => h challenge hget ⟨hused, htime, hmatch⟩
      refine SqliteStore.refuses_transaction (e := "challenge mismatch") hd hclosed (.inr rfl)
        (hfind.trans ?_)
      simp only [hbegun]
      rw [Proc.require_pos hused, Proc.pure_bind]
      refine (Proc.bind_ok (nowUnix_apply _) _).trans ?_
      change (Proc.require (¬ t.now > challenge.expiresAtUnix) _ >>= _) _ = _
      rw [Proc.require_pos htime, Proc.pure_bind, Proc.require, if_neg hmatch]
      rfl
    · refine SqliteStore.refuses_transaction (e := "challenge expired") hd hclosed (.inr rfl)
        (hfind.trans ?_)
      simp only [hbegun]
      rw [Proc.require_pos hused, Proc.pure_bind]
      refine (Proc.bind_ok (nowUnix_apply _) _).trans ?_
      change (Proc.require (¬ t.now > challenge.expiresAtUnix) _ >>= _) _ = _
      rw [Proc.require, if_neg htime]
      rfl
  · refine SqliteStore.refuses_transaction (e := "challenge already used") hd hclosed (.inl rfl)
      (hfind.trans ?_)
    simp only [hbegun]
    rw [Proc.require, if_neg hused]
    rfl

/-- One side fails where it stands, the other in a statement that leaves the tables. -/
theorem AuthInStep.refused {α β : Type} {x : Proc (Hosted (InMemoryServer Bytes)) α}
    {y : Proc (Hosted SqliteStore) Unit} {g : Unit → Proc (Hosted SqliteStore) β}
    {R : α → β → Hosted (InMemoryServer Bytes) → Hosted SqliteStore → Prop} {e : String}
    (h : AuthInStep c hash last s t) (hx : x s = (.error e, s)) (hy : SqliteStore.Refuses y t) :
    Lockstep x (y >>= g) R (AuthInStep c hash last) s t := by
  obtain ⟨e', d, t₁, hy, ht₁, hd, hsaved, htables⟩ := hy
  refine Lockstep.of_error hx (Proc.bind_error hy g) ?_
  rcases ht₁ with rfl | rfl
  · exact h.moved hd (hsaved.trans h.closed.symm) htables
  · exact h.right_ticked.moved hd (hsaved.trans h.closed.symm) htables

/-- A session has been stored under a new token. -/
theorem AuthInStep.storeSession (h : AuthInStep c hash last s t) (htokens : TellsTokens hash)
    {token k : Bytes} (hk : hash token = .ok k) (hdrew : s.host.DrewToken hash k)
    (row : SqliteStore.SessionRow) (huser : 0 ∉ row.userId) (hrevoked : row.revoked = false)
    (hfresh : t.object.db.tables.sessions.get k = none) :
    Lockstep
      (Hosted.on (Proc.modify fun s : InMemoryServer Bytes =>
        { s with sessions :=
            s.sessions.set (hexEncode token) ⟨row.userId, row.expiresAtUnix⟩ }))
      (SqliteStore.hostedConnection.on (exec fun t =>
        match t.sessions.get k with
        | some _ => .error "UNIQUE constraint failed: sessions.token_hash"
        | none => .ok ({ t with sessions := t.sessions.set k row }, ())))
      (fun _ _ => AuthInStep c hash last) (AuthInStep c hash last) s t := by
  refine Lockstep.right_leaves_end rfl (leaves_exec (a := ()) (t := { t.object.db.tables with
    sessions := t.object.db.tables.sessions.set k row }) h.reliable ?_)
    fun d hd hsaved htables => ?_
  · change (match t.object.db.tables.sessions.get k with
      | some _ => _
      | none => _) = _
    rw [hfresh]
    rfl
  · have htables' : d.tables = { t.object.db.tables with
      sessions := t.object.db.tables.sessions.set k row } := htables
    exact { h with
      reliable := hd
      closed := hsaved.trans h.closed
      accounts := (congrArg SqliteStore.Tables.accounts htables').trans h.accounts
      challenges := (congrArg SqliteStore.Tables.authChallenges htables').trans h.challenges
      sessions := by
        change (d.tables.authView hash).session = _
        rw [htables', SqliteStore.Tables.authView_setSession _ htokens.injective hk huser hrevoked]
        refine Eq.trans ?_ (congrArg AuthView.session (InMemoryServer.authView_setSession s.object
          token ⟨row.userId, row.expiresAtUnix⟩)).symm
        simp only [AuthView.openSession, h.sessions]
      users := by
        change d.tables.Users
        rw [htables']
        exact h.users.setSession _ k huser
      tokens := by
        change ∀ h' row', d.tables.sessions.get h' = some row' → _
        rw [htables']
        intro h' row' hget
        rw [Map.get_set] at hget
        split at hget
        · rename_i he
          exact he ▸ hdrew
        · exact h.tokens h' row' hget }

/-- Both servers look up the challenge, check it and use it up. -/
theorem AuthInStep.challenge_bind {α β : Type} (request : AuthFinishRequest Bytes)
    {f : Unit → Proc (Hosted (InMemoryServer Bytes)) α} {g : Unit → Proc (Hosted SqliteStore) β}
    {R : α → β → Hosted (InMemoryServer Bytes) → Hosted SqliteStore → Prop}
    (h : AuthInStep c hash last s t)
    (hopen : ∀ challenge, s.object.challenges.get request.challengeId = some challenge →
      ¬ now > challenge.expiresAtUnix ∧ ¬ t.now > challenge.expiresAtUnix)
    (hf : ∀ d challenge,
      AuthInStep c hash last
        { s with object := s.object.useChallenge request.challengeId challenge }
        { t.tick with object := { t.object with db := d } } →
      Lockstep (f ()) (g ()) R (AuthInStep c hash last)
        { s with object := s.object.useChallenge request.challengeId challenge }
        { t.tick with object := { t.object with db := d } }) :
    Lockstep
      (match s.object.challenges.get request.challengeId with
      | none => Proc.fail "unknown challenge"
      | some challenge => do
        Proc.require (challenge.used = false) "challenge already used"
        Proc.require (challenge.Matches request) "challenge mismatch"
        Proc.require (¬ now > challenge.expiresAtUnix) "challenge expired"
        Hosted.on (Proc.modify fun s : InMemoryServer Bytes =>
          { s with challenges :=
              s.challenges.set request.challengeId { challenge with used := true } }) >>= f)
      (SqliteStore.consumeChallenge request >>= g) R (AuthInStep c hash last) s t := by
  rcases hget : s.object.challenges.get request.challengeId with _ | challenge
  · refine h.refused rfl (SqliteStore.consumeChallenge_refuses h.reliable h.closed ?_)
    intro challenge' hget'
    rw [h.challenges, hget] at hget'
    cases hget'
  have hstored := h.challenges.symm ▸ hget
  have hname := cString_eq (h.users.challenge hstored)
  have hrefuses : ¬ (challenge.used = false ∧ challenge.Matches request) →
      SqliteStore.Refuses (SqliteStore.consumeChallenge request) t := by
    refine fun hno => SqliteStore.consumeChallenge_refuses h.reliable h.closed ?_
    intro challenge' hget' hacc
    obtain rfl := Option.some.inj (hstored.symm.trans hget')
    obtain ⟨hused, -, hmatch⟩ := hacc
    rw [hname] at hmatch
    exact hno ⟨hused, hmatch⟩
  by_cases hused : challenge.used = false
  · by_cases hmatch : challenge.Matches request
    · obtain ⟨hnow, hlater⟩ := hopen challenge hget
      refine Lockstep.left_require hused (Lockstep.left_require hmatch ?_)
      refine Lockstep.left_require hnow ?_
      obtain ⟨d, hconsume, hd, hsaved, htables⟩ := SqliteStore.consumeChallenge_of_accepts
        h.reliable h.closed hstored ⟨hused, hlater, by rwa [hname]⟩
      refine Lockstep.left rfl (Lockstep.right hconsume ?_)
      have huser : 0 ∉ challenge.userId := h.users.challenge hstored
      exact hf d challenge (h.right_ticked.withChallenge
        { challenge with used := true } huser (h.ids _ challenge hget) hd
        (hsaved.trans h.closed.symm) htables)
    · refine h.refused (e := "challenge mismatch") ?_ (hrefuses fun hacc => hmatch hacc.2)
      dsimp only
      rw [Proc.require_pos hused, Proc.pure_bind, Proc.require, if_neg hmatch]
      rfl
  · refine h.refused (e := "challenge already used") ?_ (hrefuses fun hacc => hused hacc.1)
    dsimp only
    rw [Proc.require, if_neg hused]
    rfl

theorem finish_inStep (request : AuthFinishRequest Bytes) (h : AuthInStep c hash last s t)
    (hnow : t.now = s.now) (hle : last ≤ s.now) (hsigned : t.object.db.tables.Signed s.now)
    (htokens : TellsTokens hash)
    (hexpires : ∀ challenge, s.object.challenges.get request.challengeId = some challenge →
      challenge.expiresAtUnix < t.tick.now → challenge.expiresAtUnix < s.now) :
    Lockstep (InMemoryServer.finishTransportAuthentication c request)
      (SqliteStore.finishTransportAuthentication c request)
      (fun a b s' t' => a = b ∧ AuthInStep c hash s.now s' t') (AuthInStep c hash s.now) s t := by
  unfold InMemoryServer.finishTransportAuthentication SqliteStore.finishTransportAuthentication
  refine Lockstep.left rfl (Lockstep.right rfl ?_)
  rw [hnow]
  refine Lockstep.left rfl ?_
  refine Lockstep.right_leaves (SqliteStore.leaves_cleanup (t := t.tick) h.reliable s.now)
    fun d hd hsaved htables => ?_
  have h₁ := h.ticked.cleanup hle hsigned hd hsaved htables
  refine Lockstep.ofExcept_bind h₁ fun _ hcheck => ?_
  have huser : 0 ∉ request.userId := not_mem_of_isValidUserId (checkFinishRequest_ok hcheck)
  refine h₁.finishLimit_bind fun b b' h₂ => ?_
  refine Lockstep.left rfl ?_
  -- what is left after the cleanup expires in the future of both readings
  have hopen : ∀ challenge,
      (s.object.cleanupAuthState s.now).challenges.get request.challengeId = some challenge →
      ¬ s.now > challenge.expiresAtUnix ∧ ¬ t.tick.now > challenge.expiresAtUnix := by
    intro challenge hget
    obtain ⟨hget, hkept⟩ := Map.get_sweep_eq_some.mp hget
    have hnot : ¬ challenge.expiresAtUnix < s.now := by
      intro hlt
      simp [hlt] at hkept
    exact ⟨hnot, fun hlt => hnot (hexpires challenge hget hlt)⟩
  refine h₂.challenge_bind request hopen fun d challenge h₃ => ?_
  refine h₃.account_right fun d h₄ => ?_
  -- both look the same account up
  split
  · rename_i hleft
    split
    · exact Lockstep.fail h₄
    · rename_i publicKey hright
      cases hleft.symm.trans hright
  rename_i publicKey hleft
  split
  · rename_i hright
    cases hleft.symm.trans hright
  rename_i publicKey' hright
  obtain rfl : publicKey = publicKey' := Option.some.inj (hleft.symm.trans hright)
  refine Lockstep.require_bind Iff.rfl h₄ fun _ => ?_
  refine h₄.randomBytes_bind fun token hbytes h₅ => ?_
  rcases token with _ | token
  · exact Lockstep.fail h₅
  obtain ⟨k, hk⟩ := htokens.total token
  obtain ⟨stream, hstream, rfl⟩ := Option.map_eq_some_iff.mp hbytes.symm
  have hdrew : s.drawn.host.DrewToken hash k :=
    ⟨s.host.draws, Nat.lt_succ_self _, stream, hstream, hk⟩
  have hhash := congrArg (Proc.ofExcept (σ := Hosted SqliteStore) "")
    ((congrFun h₅.hashes _).trans hk)
  refine Lockstep.right rfl (Lockstep.right (congrFun hhash _) ?_)
  refine Lockstep.bind (h₅.storeSession htokens hk hdrew
    ⟨request.userId, s.now, s.now + 900, false⟩ huser rfl
    (h₄.fresh_token htokens hstream hk)) fun _ _ _ _ h => Lockstep.pure ⟨rfl, h⟩

/-! ### Authenticate and Revoke -/

/-- A token stands for the same user on both servers. -/
theorem AuthInStep.session_eq (h : AuthInStep c hash last s t) {token k : Bytes}
    (hk : hash token = .ok k) :
    ((t.object.db.tables.sessions.get k).filter (! ·.revoked)).map
        (fun row => (⟨cString row.userId, row.expiresAtUnix⟩ : Grant)) =
      (s.object.sessions.get (hexEncode token)).map fun x => ⟨x.userId, x.expiresAtUnix⟩ := by
  have hsame := congrFun h.sessions token
  simp only [SqliteStore.Tables.authView, hk] at hsame
  exact hsame

theorem authenticate_inStep (token : Bytes) (h : AuthInStep c hash last s t) (hnow : t.now = s.now)
    (hle : last ≤ s.now) (hsigned : t.object.db.tables.Signed s.now)
    (htokens : TellsTokens hash) :
    Lockstep (InMemoryServer.authenticateSessionToken token)
      (SqliteStore.authenticateSessionToken c token)
      (fun a b s' t' => a = b ∧ AuthInStep c hash s.now s' t') (AuthInStep c hash s.now) s t := by
  unfold InMemoryServer.authenticateSessionToken SqliteStore.authenticateSessionToken
  refine Lockstep.left rfl (Lockstep.right rfl ?_)
  rw [hnow]
  refine Lockstep.left rfl ?_
  refine Lockstep.right_leaves (SqliteStore.leaves_cleanup (t := t.tick) h.reliable s.now)
    fun d hd hsaved htables => ?_
  have h₁ := h.ticked.cleanup hle hsigned hd hsaved htables
  refine Lockstep.require_bind Iff.rfl h₁ fun _ => ?_
  obtain ⟨k, hk⟩ := htokens.total token
  have hhash := congrArg (Proc.ofExcept (σ := Hosted SqliteStore) "")
    ((congrFun h₁.hashes token).trans hk)
  refine Lockstep.left rfl (Lockstep.right rfl (Lockstep.right (congrFun hhash _) ?_))
  refine Lockstep.right_leaves (leaves_queryRow h₁.reliable rfl) fun d' hd' hsaved' htables' => ?_
  have h₂ := h₁.moved hd' hsaved' htables'
  have hsession : ((d.tables.sessions.get k).filter (! ·.revoked)).map
      (fun row => (⟨cString row.userId, row.expiresAtUnix⟩ : Grant)) =
    ((s.object.cleanupAuthState s.now).sessions.get (hexEncode token)).map
      fun x => ⟨x.userId, x.expiresAtUnix⟩ := h₁.session_eq hk
  have hleft : (InMemoryServer.cleanupAuthState s.now s.tick.object).sessions =
      (s.object.cleanupAuthState s.now).sessions := rfl
  have hright : (SqliteStore.hostedConnection.get
      (SqliteStore.hostedConnection.set d t.tick)).tables.sessions = d.tables.sessions := rfl
  dsimp only
  rw [hleft, hright]
  rcases hrow : d.tables.sessions.get k with _ | row <;> rw [hrow] at hsession
  · rw [Option.map_eq_none_iff.mp hsession.symm]
    exact Lockstep.fail h₂
  cases hrevoked : row.revoked with
  | true =>
    rw [Option.filter_some, hrevoked] at hsession
    rw [Option.map_eq_none_iff.mp hsession.symm]
    dsimp only
    rw [Proc.require, if_neg (by rw [hrevoked]; decide)]
    exact Lockstep.fail h₂
  | false =>
    rw [Option.filter_some, hrevoked] at hsession
    obtain ⟨session, hget, hgrant⟩ := Option.map_eq_some_iff.mp hsession.symm
    obtain ⟨huser, hexpires⟩ := Grant.mk.inj hgrant
    rw [hget]
    refine Lockstep.right_require hrevoked (Lockstep.require_bind ?_ h₂ fun _ => ?_)
    · rw [hexpires]
    · exact Lockstep.pure ⟨huser, h₂⟩

/-- The tables after a session has been revoked. -/
def SqliteStore.Tables.revoke (t : SqliteStore.Tables) (k : Bytes) (row : SqliteStore.SessionRow) :
    SqliteStore.Tables :=
  { t with sessions := t.sessions.set k { row with revoked := true } }

/-- A token has been revoked. -/
theorem AuthInStep.revoked (h : AuthInStep c hash last s t) (htokens : TellsTokens hash)
    {token k : Bytes} (hk : hash token = .ok k) {row : SqliteStore.SessionRow}
    (hrow : t.object.db.tables.sessions.get k = some row) {d : Db SqliteStore.Tables}
    (hd : d.Reliable) (hsaved : d.saved = t.object.db.saved)
    (htables : d.tables = t.object.db.tables.revoke k row) :
    AuthInStep c hash last
      { s with object := { s.object with
        sessions := s.object.sessions.erase (hexEncode token) } }
      { t with object := { t.object with db := d } } :=
  { h with
    reliable := hd
    closed := hsaved.trans h.closed
    accounts := (congrArg SqliteStore.Tables.accounts htables).trans h.accounts
    challenges := (congrArg SqliteStore.Tables.authChallenges htables).trans h.challenges
    sessions := by
      rw [htables]
      refine (congrArg AuthView.session (SqliteStore.Tables.authView_revokeSession _
        htokens.injective hk rfl)).trans ?_
      refine Eq.trans ?_ (congrArg AuthView.session (InMemoryServer.authView_eraseSession s.object
        token)).symm
      simp only [AuthView.closeSession, h.sessions]
    users := by
      rw [htables]
      have huser : 0 ∉ row.userId := h.users.session hrow
      exact h.users.setSession _ k huser
    tokens := by
      rw [htables]
      intro h' row' hget
      change (t.object.db.tables.sessions.set k _).get h' = _ at hget
      rw [Map.get_set] at hget
      split at hget
      · rename_i he
        exact he ▸ h.tokens k row hrow
      · exact h.tokens h' row' hget }

theorem revoke_inStep (token : Bytes) (h : AuthInStep c hash last s t) (htokens : TellsTokens hash)
    (hlive : ∀ k row, hash token = .ok k → t.object.db.tables.sessions.get k = some row →
      row.revoked = false) :
    Lockstep (Hosted.on (InMemoryServer.revokeSessionToken token))
      (Hosted.on (SqliteStore.revokeSessionToken c token))
      (fun _ _ => AuthInStep c hash last) (AuthInStep c hash last) s t := by
  refine Lockstep.zoom (Lockstep.require_bind Iff.rfl h fun _ => ?_)
  obtain ⟨k, hk⟩ := htokens.total token
  have hhash := congrArg (Proc.ofExcept (σ := SqliteStore) "")
    ((congrFun h.hashes token).trans hk)
  refine Lockstep.left rfl (Lockstep.right rfl (Lockstep.right (congrFun hhash _) ?_))
  refine Lockstep.right_leaves (leaves_queryRow h.reliable rfl) fun d hd hsaved htables => ?_
  have h₁ := h.moved hd hsaved htables
  have hsession := h.session_eq hk
  change Lockstep (Proc.require (s.object.sessions.get (hexEncode token) ≠ none) _ >>= _)
    (Proc.require (t.object.db.tables.sessions.get k ≠ none) _ >>= _) _ _ _ _
  rcases hrow : t.object.db.tables.sessions.get k with _ | row <;> rw [hrow] at hsession
  · rw [Option.map_eq_none_iff.mp hsession.symm]
    exact Lockstep.require_bind (iff_of_false (fun hne => hne rfl) fun hne => hne rfl) h₁
      fun hne => absurd rfl hne
  rw [Option.filter_some, hlive k row hk hrow] at hsession
  obtain ⟨session, hget, -⟩ := Option.map_eq_some_iff.mp hsession.symm
  refine Lockstep.require_bind (by rw [hget]; exact iff_of_true nofun nofun) h₁ fun _ => ?_
  have hrow' : d.tables.sessions.get k = some row :=
    (congrArg (fun tables : SqliteStore.Tables => tables.sessions.get k) htables).trans hrow
  refine Lockstep.right_leaves (leaves_exec (a := 1) (t := d.tables.revoke k row) hd ?_)
    fun d' hd' hsaved' htables' => ?_
  · change (match d.tables.sessions.get k with
      | some session => _
      | none => _) = _
    rw [hrow']
    rfl
  · rw [Proc.require_pos rfl]
    exact Lockstep.of_ok rfl rfl (h₁.revoked htokens hk hrow' hd' hsaved' htables')

/-! ## 5. Whole runs -/

/-- What the two servers do differently does not happen in this call. -/
structure SqliteStore.Regular (hash : Bytes → Result Bytes) (t : Hosted SqliteStore)
    (call : AuthCall) : Prop where
  signed : (∀ request, call ≠ .register request) → (∀ token, call ≠ .revoke token) →
    t.object.db.tables.Signed t.now
  expires : ∀ request, call = .finishAuth request →
    ∀ challenge, t.object.db.tables.authChallenges.get request.challengeId = some challenge →
      challenge.expiresAtUnix < t.tick.now → challenge.expiresAtUnix < t.now
  live : ∀ token, call = .revoke token → ∀ k row, hash token = .ok k →
    t.object.db.tables.sessions.get k = some row → row.revoked = false

theorem AuthInStep.later (h : AuthInStep c hash last s t) (hle : last ≤ now) :
    AuthInStep c hash now s t :=
  { h with
    beginRates := h.beginRates.later hle
    finishRates := h.finishRates.later hle }

/-- Every call keeps the servers in step, and both succeed with the same reply or both fail. -/
theorem auth_inStep (call : AuthCall) (h : AuthInStep c hash last s t) (hnow : t.now = s.now)
    (hle : last ≤ s.now) (htokens : TellsTokens hash) (hregular : SqliteStore.Regular hash t call) :
    Lockstep ((InMemoryServer.api c).auth call) ((SqliteStore.api c).auth call)
      (fun a b s' t' => a = b ∧ AuthInStep c hash s.now s' t') (AuthInStep c hash s.now) s t := by
  have hsigned := hnow ▸ hregular.signed
  have hexpires := hnow ▸ hregular.expires
  rw [h.challenges] at hexpires
  cases call with
  | register request =>
    exact Lockstep.bind (register_inStep request (h.later hle)) fun _ _ _ _ h => .pure ⟨rfl, h⟩
  | beginAuth request =>
    refine Lockstep.bind (begin_inStep request h hnow hle (hsigned nofun nofun)) ?_
    rintro _ _ _ _ ⟨rfl, h⟩
    exact .pure ⟨rfl, h⟩
  | finishAuth request =>
    refine Lockstep.bind (finish_inStep request h hnow hle (hsigned nofun nofun) htokens
      (hexpires request rfl)) ?_
    rintro _ _ _ _ ⟨rfl, h⟩
    exact .pure ⟨rfl, h⟩
  | authenticate token =>
    refine Lockstep.bind (authenticate_inStep token h hnow hle (hsigned nofun nofun) htokens) ?_
    rintro _ _ _ _ ⟨rfl, h⟩
    exact .pure ⟨rfl, h⟩
  | revoke token =>
    exact Lockstep.bind (revoke_inStep token (h.later hle) htokens (hregular.live token rfl))
      fun _ _ _ _ h => .pure ⟨rfl, h⟩

end Calls

/-- The two servers have just been started: with the same secret and the same random bytes,
which are distinct, and the database is new and every statement on it succeeds. -/
structure Started (c : ServerCrypto) (secret hmacSecret : Bytes)
    (s₀ : Hosted (InMemoryServer Bytes)) (t₀ : Hosted SqliteStore) : Prop where
  memory : s₀.object = InMemoryServer.init secret
  store : t₀.object = SqliteStore.init (fun _ => .ok) hmacSecret secret
  random : t₀.host.random = s₀.host.random
  draws : t₀.host.draws = s₀.host.draws
  distinct : DistinctDraws s₀.host.random
  tokens : TellsTokens (c.hmacSha256 hmacSecret)

section Runs

variable {c : ServerCrypto} {secret hmacSecret : Bytes} {s₀ : Hosted (InMemoryServer Bytes)}
  {t₀ : Hosted SqliteStore} {actions : List (AuthCall × Moment)}

theorem Started.inStep (h : Started c secret hmacSecret s₀ t₀) :
    AuthInStep c (c.hmacSha256 hmacSecret) 0 s₀ t₀ := by
  obtain ⟨hs, ht, hrandom, hdraws, hdistinct, -⟩ := h
  obtain ⟨host, object⟩ := s₀
  obtain ⟨host', object'⟩ := t₀
  dsimp only at hs ht
  subst hs ht
  exact {
    random := hrandom
    draws := hdraws
    distinct := hdistinct
    reliable := fun _ => rfl
    closed := rfl
    hashes := rfl
    secret := rfl
    accounts := rfl
    challenges := rfl
    sessions := by
      funext token
      simp only [SqliteStore.Tables.authView]
      rcases c.hmacSha256 hmacSecret token with _ | k
      · rfl
      · rfl
    users := ⟨nofun, nofun, nofun⟩
    beginRates := fun _ _ _ => rfl
    finishRates := fun _ _ _ => rfl
    ids := nofun
    tokens := nofun }

/-- Every step of the run is one that both servers take alike. -/
def RegularRun (c : ServerCrypto) (hmacSecret : Bytes) (t₀ : Hosted SqliteStore)
    (actions : List (AuthCall × Moment)) : Prop :=
  ∀ a earlier, a :: earlier <:+ actions → SqliteStore.Regular (c.hmacSha256 hmacSecret)
    (((SqliteStore.api c).afterAuthAt t₀ earlier).at a.2) a.1

theorem AuthInStep.at {hash : Bytes → Result Bytes} {last : UInt64}
    {s : Hosted (InMemoryServer Bytes)} {t : Hosted SqliteStore} (h : AuthInStep c hash last s t)
    (m : Moment) : AuthInStep c hash last (s.at m) (t.at m) := { h with }

/-- One more action. -/
theorem AuthInStep.step {hash : Bytes → Result Bytes} {last : UInt64}
    {s : Hosted (InMemoryServer Bytes)} {t : Hosted SqliteStore} (h : AuthInStep c hash last s t)
    (htokens : TellsTokens hash) (a : AuthCall × Moment) (hle : last ≤ a.2.now)
    (hregular : SqliteStore.Regular hash (t.at a.2) a.1) :
    ((InMemoryServer.api c).authAt a s).1.toOption = ((SqliteStore.api c).authAt a t).1.toOption ∧
      AuthInStep c hash a.2.now ((InMemoryServer.api c).authAt a s).2
        ((SqliteStore.api c).authAt a t).2 := by
  have hstep := auth_inStep a.1 (h.at a.2) rfl hle htokens hregular
  exact ⟨hstep.toOption_eq fun _ _ _ _ hQ => hQ.1,
    hstep.states (fun _ _ _ _ hQ => hQ.2) fun _ _ hE => hE⟩

/-- The servers stay in step. -/
theorem Started.inStep_after (h : Started c secret hmacSecret s₀ t₀) (hclock : Clockwise actions)
    (hregular : RegularRun c hmacSecret t₀ actions) :
    ∃ last, AuthInStep c (c.hmacSha256 hmacSecret) last
        ((InMemoryServer.api c).afterAuthAt s₀ actions)
        ((SqliteStore.api c).afterAuthAt t₀ actions) ∧
      ∀ n, (∀ a ∈ actions, a.2.later ≤ n) → last ≤ n := by
  induction actions with
  | nil => exact ⟨0, h.inStep, fun n _ => UInt64.zero_le⟩
  | cons a earlier ih =>
    obtain ⟨hreadings, horder⟩ := hclock
    obtain ⟨hnewest, horder⟩ := List.pairwise_cons.mp horder
    obtain ⟨last, hin, hlast⟩ := ih ⟨fun b hb => hreadings b (List.mem_cons_of_mem a hb), horder⟩
      fun b before hsuf => hregular b before (hsuf.trans (List.suffix_cons a earlier))
    refine ⟨a.2.now, (hin.step h.tokens a (hlast _ hnewest)
      (hregular a earlier (List.suffix_refl _))).2, fun n hn => ?_⟩
    exact UInt64.le_trans (hreadings a List.mem_cons_self) (hn a List.mem_cons_self)

/-- **The two servers agree on authentication**, as long as no step of the run is one that they
take differently: the same calls succeed, with the same replies. -/
theorem backends_agree_on_auth (h : Started c secret hmacSecret s₀ t₀)
    (hclock : Clockwise actions) (hregular : RegularRun c hmacSecret t₀ actions)
    {a : AuthCall × Moment} {earlier : List (AuthCall × Moment)} (hsuf : a :: earlier <:+ actions) :
    ((InMemoryServer.api c).authAt a ((InMemoryServer.api c).afterAuthAt s₀ earlier)).1.toOption =
      ((SqliteStore.api c).authAt a ((SqliteStore.api c).afterAuthAt t₀ earlier)).1.toOption := by
  have hbefore : earlier <:+ actions := (List.suffix_cons a earlier).trans hsuf
  have hclock' : Clockwise (a :: earlier) :=
    ⟨fun b hb => hclock.1 b (hsuf.subset hb), hclock.2.sublist hsuf.sublist⟩
  obtain ⟨hnewest, horder⟩ := List.pairwise_cons.mp hclock'.2
  obtain ⟨last, hin, hlast⟩ := h.inStep_after
    ⟨fun b hb => hclock'.1 b (List.mem_cons_of_mem a hb), horder⟩
    fun b before hb => hregular b before (hb.trans hbefore)
  exact (hin.step h.tokens a (hlast _ hnewest) (hregular a earlier hsuf)).1

end Runs

/-! ### Alice on both servers -/

namespace Backend.Alice

/-- The host of Alice's server; `RAND_bytes` fails before its bytes repeat. -/
def finiteHost : Host :=
  { host with random := fun n => if n < 256 then host.random n else none }

def memory : Hosted (InMemoryServer Bytes) := ⟨finiteHost, InMemoryServer.init []⟩

def database : Hosted SqliteStore := ⟨finiteHost, SqliteStore.init (fun _ => .ok) [9] []⟩

theorem started : Started ServerCrypto.transparent [] [9] memory database where
  memory := rfl
  store := rfl
  random := rfl
  draws := rfl
  distinct := by
    intro m n stream stream' hm hn hsame
    have hstream : ∀ {k : Nat} {stream : Nat → UInt8}, memory.host.random k = some stream →
        k < 256 ∧ stream 0 = UInt8.ofNat k := by
      intro k stream h
      change (if k < 256 then host.random k else none) = some stream at h
      split at h
      · rename_i hk
        exact ⟨hk, by rw [← Option.some.inj h]; rfl⟩
      · cases h
    obtain ⟨hm, hfirst⟩ := hstream hm
    obtain ⟨hn, hfirst'⟩ := hstream hn
    have hbyte : stream 0 = stream' 0 := (List.cons.inj hsame).1
    rw [hfirst, hfirst'] at hbyte
    have hmod := congrArg UInt8.toNat hbyte
    rw [UInt8.toNat_ofNat', UInt8.toNat_ofNat', Nat.mod_eq_of_lt hm, Nat.mod_eq_of_lt hn] at hmod
    exact hmod
  tokens := {
    total := fun token => ⟨[9] ++ token, rfl⟩
    injective := by
      intro token token' h htoken htoken'
      have heq : [9] ++ token = [9] ++ token' := Except.ok.inj (htoken.trans htoken'.symm)
      exact List.append_cancel_left heq }

/-- A clock that stands still. -/
def noon : Moment := ⟨1000, 1000⟩

theorem clockwise (calls : List AuthCall) : Clockwise (calls.map fun call => (call, noon)) := by
  refine ⟨fun a ha => ?_,
    List.pairwise_map.mpr (List.pairwise_of_forall fun _ _ => UInt64.le_refl _)⟩
  obtain ⟨call, -, rfl⟩ := List.mem_map.mp ha
  exact UInt64.le_refl _

/-- Alice revokes her token. -/
def revoke : AuthCall × Moment := (.revoke (drawn 2 32), noon)

/-- Alice has registered, and begins to authenticate. -/
def begin : AuthCall × Moment := (.beginAuth ⟨user, clientNonce⟩, noon)

def registered : List (AuthCall × Moment) := [(.register (registration [5]), noon)]

/-- She answers the challenge, shows her token and revokes it. -/
def visit : List (AuthCall × Moment) :=
  revoke :: (.authenticate (drawn 2 32), noon) :: (.finishAuth finish, noon) :: begin :: registered

/-! The tables, call after call. -/

def tablesRegistered : SqliteStore.Tables :=
  { SqliteStore.Tables.init with accounts := (∅ : Map Bytes Bytes).set user [5] }

def tablesBegun : SqliteStore.Tables :=
  { tablesRegistered.cleaned 1000 with
    authChallenges := (tablesRegistered.cleaned 1000).authChallenges.set finish.challengeId
      ⟨user, clientNonce, drawn 1 32, 1060, false⟩ }

def tablesFinished : SqliteStore.Tables :=
  { tablesBegun.cleaned 1000 with
    authChallenges := (tablesBegun.cleaned 1000).authChallenges.set finish.challengeId
      ⟨user, clientNonce, drawn 1 32, 1060, true⟩
    sessions := (tablesBegun.cleaned 1000).sessions.set ([9] ++ drawn 2 32)
      ⟨user, 1000, 1900, false⟩ }

def tablesAfter (actions : List (AuthCall × Moment)) : SqliteStore.Tables :=
  ((SqliteStore.api ServerCrypto.transparent).afterAuthAt database actions).object.db.tables

set_option maxRecDepth 20000 in
theorem tablesAfter_visit : tablesAfter (visit.drop 4) = tablesRegistered ∧
    tablesAfter (visit.drop 3) = tablesBegun ∧ tablesAfter (visit.drop 2) = tablesFinished ∧
    tablesAfter (visit.drop 1) = tablesFinished.cleaned 1000 := ⟨rfl, rfl, rfl, rfl⟩

/-- The tables of a visit at noon. -/
structure Timely (t : SqliteStore.Tables) : Prop where
  challenges : ∀ id challenge, t.authChallenges.get id = some challenge →
    challenge.expiresAtUnix = 1060
  sessions : ∀ k row, t.sessions.get k = some row → row.expiresAtUnix = 1900 ∧ row.revoked = false

theorem Timely.cleaned {t : SqliteStore.Tables} (h : Timely t) (now : UInt64) :
    Timely (t.cleaned now) :=
  ⟨fun id challenge hget => h.challenges id challenge (Option.filter_eq_some_iff.mp hget).1,
    fun k row hget => h.sessions k row (Option.filter_eq_some_iff.mp hget).1⟩

theorem timely_registered : Timely tablesRegistered := ⟨nofun, nofun⟩

theorem timely_begun : Timely tablesBegun := by
  refine ⟨fun id challenge hget => ?_, (timely_registered.cleaned 1000).sessions⟩
  rw [tablesBegun, Map.get_set] at hget
  split at hget
  · rw [← Option.some.inj hget]
  · exact (timely_registered.cleaned 1000).challenges id challenge hget

theorem timely_finished : Timely tablesFinished := by
  refine ⟨fun id challenge hget => ?_, fun k row hget => ?_⟩
  · rw [tablesFinished, Map.get_set] at hget
    split at hget
    · rw [← Option.some.inj hget]
    · exact (timely_begun.cleaned 1000).challenges id challenge hget
  · rw [tablesFinished, Map.get_set] at hget
    split at hget
    · rw [← Option.some.inj hget]
      exact ⟨rfl, rfl⟩
    · exact (timely_begun.cleaned 1000).sessions k row hget

/-- At noon nothing expires, and no session has been ended. -/
theorem Timely.regular {hash : Bytes → Result Bytes} {t : Hosted SqliteStore}
    (h : Timely t.object.db.tables) (call : AuthCall) :
    SqliteStore.Regular hash (t.at noon) call := by
  refine ⟨fun _ _ => ⟨fun id challenge hget => ?_, fun k row hget => ?_⟩,
    fun _ _ _ _ hexpired => hexpired, fun _ _ k row _ hget => (h.sessions k row hget).2⟩
  · rw [h.challenges id challenge hget]
    exact iff_of_false (by decide : ¬ UInt64.toInt64 1060 < UInt64.toInt64 1000)
      (by decide : ¬ (1060 : UInt64) < 1000)
  · rw [(h.sessions k row hget).1]
    exact iff_of_false (by decide : ¬ UInt64.toInt64 1900 < UInt64.toInt64 1000)
      (by decide : ¬ (1900 : UInt64) < 1000)

theorem timely_visit (n : Nat) : Timely (tablesAfter (visit.drop (n + 1))) := by
  obtain ⟨hregistered, hbegun, hfinished, hcleaned⟩ := tablesAfter_visit
  match n with
  | 0 => exact hcleaned ▸ timely_finished.cleaned 1000
  | 1 => exact hfinished ▸ timely_finished
  | 2 => exact hbegun ▸ timely_begun
  | 3 => exact hregistered ▸ timely_registered
  | n + 4 =>
    have hnone : visit.drop (n + 4 + 1) = [] := List.drop_eq_nil_of_le (Nat.le_add_left 5 n)
    have hinit : Timely SqliteStore.Tables.init := ⟨nofun, nofun⟩
    rw [hnone]
    exact hinit

theorem regularRun_visit : RegularRun ServerCrypto.transparent [9] database visit := by
  intro a earlier hsuf
  have hnoon : a.2 = noon := by
    have hvisit : ∀ b ∈ visit, b.2 = noon := by decide
    exact hvisit a (hsuf.subset List.mem_cons_self)
  have hearlier : earlier = visit.drop (visit.length - (a :: earlier).length + 1) := by
    rw [← List.tail_drop, ← List.suffix_iff_eq_drop.mp hsuf, List.tail_cons]
  rw [hnoon]
  refine Timely.regular ?_ a.1
  rw [hearlier]
  exact timely_visit _

end Backend.Alice

theorem backends_agree_on_auth_alice :
    ((InMemoryServer.api ServerCrypto.transparent).authAt Backend.Alice.revoke
        ((InMemoryServer.api ServerCrypto.transparent).afterAuthAt Backend.Alice.memory
          Backend.Alice.visit.tail)).1.toOption =
      ((SqliteStore.api ServerCrypto.transparent).authAt Backend.Alice.revoke
        ((SqliteStore.api ServerCrypto.transparent).afterAuthAt Backend.Alice.database
          Backend.Alice.visit.tail)).1.toOption ∧
    ((SqliteStore.api ServerCrypto.transparent).authAt Backend.Alice.revoke
      ((SqliteStore.api ServerCrypto.transparent).afterAuthAt Backend.Alice.database
        Backend.Alice.visit.tail)).1.toOption = some .done :=
  ⟨backends_agree_on_auth Backend.Alice.started
    (Backend.Alice.clockwise (Backend.Alice.visit.map Prod.fst)) Backend.Alice.regularRun_visit
    (List.suffix_refl _), by decide +kernel⟩

/-- Alice revokes her token twice: one server refuses the second time, the other does not. -/
theorem revoked_twice :
    Started ServerCrypto.transparent [] [9] Backend.Alice.memory Backend.Alice.database ∧
      Clockwise (Backend.Alice.revoke :: Backend.Alice.revoke ::
        Backend.Alice.calls.map fun call => (call, Backend.Alice.noon)) ∧
      ((InMemoryServer.api ServerCrypto.transparent).authAt Backend.Alice.revoke
        ((InMemoryServer.api ServerCrypto.transparent).afterAuthAt Backend.Alice.memory
          (Backend.Alice.revoke ::
            Backend.Alice.calls.map fun call => (call, Backend.Alice.noon)))).1.toOption = none ∧
      ((SqliteStore.api ServerCrypto.transparent).authAt Backend.Alice.revoke
        ((SqliteStore.api ServerCrypto.transparent).afterAuthAt Backend.Alice.database
          (Backend.Alice.revoke ::
            Backend.Alice.calls.map fun call => (call, Backend.Alice.noon)))).1.toOption =
        some .done := by
  refine ⟨Backend.Alice.started, ?_, by decide +kernel, by decide +kernel⟩
  exact Backend.Alice.clockwise (.revoke (Backend.Alice.drawn 2 32) ::
    .revoke (Backend.Alice.drawn 2 32) :: Backend.Alice.calls)

end PqChat
