/-
# SqliteStore refines the authentication service

The same as for the other server, with three differences: every statement can fail, a challenge
is used up in a transaction, and a revoked session stays in its table, marked.

A session is stored under the hash of its token, so the hash has to tell tokens apart.  The
texts of users are read back as C strings, so none may contain a zero byte; user ids that pass
`IsValidUserId` do not.
-/
import PqChat.Server.Auth
import PqChat.Server.Sqlite
import Mathlib.Data.List.TakeWhile

namespace PqChat

open ByteString Sql

/-! ## 1. C strings -/

theorem cString_eq {value : Bytes} (h : 0 ∉ value) : cString value = value := by
  refine List.takeWhile_eq_self_iff.mpr fun b hb => ?_
  simp only [ne_eq, decide_not, Bool.not_eq_true', decide_eq_false_iff_not]
  rintro rfl
  exact h hb

theorem not_mem_of_isValidUserId {userId : Bytes} (h : isValidUserId userId) : 0 ∉ userId := by
  intro hmem
  simp only [isValidUserId, Bool.and_eq_true, List.all_eq_true] at h
  exact absurd (h.2 0 hmem) (by decide)

/-! ## 2. The view -/

namespace SqliteStore

/-- The tables as an authentication service, for a given hash of tokens. -/
def Tables.authView (hash : Bytes → Result Bytes) (t : Tables) : AuthView where
  key u := t.accounts.get u
  challenge id := (t.authChallenges.get id).filter (! ·.used)
  session token := match hash token with
    | .error _ => none
    | .ok h => ((t.sessions.get h).filter (! ·.revoked)).map fun row =>
      ⟨cString row.userId, row.expiresAtUnix⟩

/-- The users in the tables are C strings, and the keys are not too long. -/
structure Tables.Users (t : Tables) : Prop where
  account : ∀ {userId key}, t.accounts.get userId = some key →
    key.length ≤ kMaxTransportAuthPublicKeyBytes
  challenge : ∀ {id challenge}, t.authChallenges.get id = some challenge → 0 ∉ challenge.userId
  session : ∀ {hash row}, t.sessions.get hash = some row → 0 ∉ row.userId

namespace Tables

variable (hash : Bytes → Result Bytes) (t : Tables)

theorem authView_setChallenge (id : Bytes) {challenge : ChallengeState}
    (hused : challenge.used = false) :
    { t with authChallenges := t.authChallenges.set id challenge }.authView hash =
      (t.authView hash).openChallenge id challenge := by
  unfold authView AuthView.openChallenge
  congr 1
  funext i
  by_cases hi : i = id
  · simp [hi, Option.filter, hused]
  · simp [hi, Map.get_set]

theorem authView_useChallenge (id : Bytes) {challenge : ChallengeState}
    (hused : challenge.used = true) :
    { t with authChallenges := t.authChallenges.set id challenge }.authView hash =
      (t.authView hash).closeChallenge id := by
  unfold authView AuthView.closeChallenge
  congr 1
  funext i
  by_cases hi : i = id
  · simp [hi, Option.filter, hused]
  · simp [hi, Map.get_set]

theorem authView_sweepChallenges (p : Bytes → ChallengeState → Bool) :
    (t.authView hash).Swept
      ({ t with authChallenges := t.authChallenges.sweep p }.authView hash) where
  key := rfl
  challenge := by
    intro id challenge h
    obtain ⟨h, hused⟩ := Option.filter_eq_some_iff.mp h
    exact Option.filter_eq_some_iff.mpr ⟨(Map.get_sweep_eq_some.mp h).1, hused⟩
  session := fun h => h

theorem authView_sweepSessions (q : Bytes → SessionRow → Bool) :
    (t.authView hash).Swept ({ t with sessions := t.sessions.sweep q }.authView hash) where
  key := rfl
  challenge := fun h => h
  session := by
    intro token grant h
    unfold authView at h ⊢
    dsimp only at h ⊢
    cases hh : hash token with
    | error e => simp [hh] at h
    | ok k =>
      rw [hh] at h
      obtain ⟨row, hrow, hgrant⟩ := Option.map_eq_some_iff.mp h
      obtain ⟨hrow, hrevoked⟩ := Option.filter_eq_some_iff.mp hrow
      exact Option.map_eq_some_iff.mpr ⟨row, Option.filter_eq_some_iff.mpr
        ⟨(Map.get_sweep_eq_some.mp hrow).1, hrevoked⟩, hgrant⟩

/-- The hash tells tokens apart. -/
def HashInjective (hash : Bytes → Result Bytes) : Prop :=
  ∀ ⦃token token' h : Bytes⦄, hash token = .ok h → hash token' = .ok h → token = token'

variable {hash}

theorem authView_setSession (hinj : HashInjective hash) {token h : Bytes}
    (htoken : hash token = .ok h) {row : SessionRow} (huser : 0 ∉ row.userId)
    (hrevoked : row.revoked = false) :
    { t with sessions := t.sessions.set h row }.authView hash =
      (t.authView hash).openSession token ⟨row.userId, row.expiresAtUnix⟩ := by
  unfold authView AuthView.openSession
  congr 1
  funext token'
  by_cases ht : token' = token
  · simp [ht, htoken, Option.filter, hrevoked, cString_eq huser]
  · cases hh : hash token' with
    | error e => simp [ht, hh]
    | ok h' =>
      have hne : h' ≠ h := fun heq => ht (hinj hh (heq ▸ htoken))
      simp [ht, hh, Map.get_set_of_ne _ hne]

theorem authView_revokeSession (hinj : HashInjective hash) {token h : Bytes}
    (htoken : hash token = .ok h) {row : SessionRow} (hrevoked : row.revoked = true) :
    { t with sessions := t.sessions.set h row }.authView hash =
      (t.authView hash).closeSession token := by
  unfold authView AuthView.closeSession
  congr 1
  funext token'
  by_cases ht : token' = token
  · simp [ht, htoken, Option.filter, hrevoked]
  · cases hh : hash token' with
    | error e => simp [ht, hh]
    | ok h' =>
      have hne : h' ≠ h := fun heq => ht (hinj hh (heq ▸ htoken))
      simp [ht, hh, Map.get_set_of_ne _ hne]

/-- The tables after `replaceKey`. -/
def replaceKey (userId publicKey : Bytes) : Tables :=
  { t with
    accounts := t.accounts.adjust userId fun _ => publicKey
    sessions := t.sessions.mapValues fun session =>
      if session.userId = userId then { session with revoked := true } else session }

theorem authView_replaceKey (husers : t.Users) {userId publicKey existing : Bytes}
    (hkey : t.accounts.get userId = some existing) :
    (t.replaceKey userId publicKey).authView hash =
      ((t.authView hash).withKey userId publicKey).endSessions userId := by
  unfold authView AuthView.withKey AuthView.endSessions replaceKey
  congr 1
  · funext u
    by_cases hu : u = userId
    · simp [Map.get_adjust, hu, hkey]
    · simp [Map.get_adjust, hu]
  · funext token
    cases hh : hash token with
    | error e => simp [hh]
    | ok h =>
      cases hrow : t.sessions.get h with
      | none => simp [hh, Map.get_mapValues, hrow]
      | some row =>
        have huser := cString_eq (husers.session hrow)
        by_cases hu : row.userId = userId
        · subst hu
          cases hr : row.revoked <;>
            simp [hh, Map.get_mapValues, hrow, Option.filter, hr, huser]
        · cases hr : row.revoked <;>
            simp [hh, Map.get_mapValues, hrow, Option.filter, hu, hr, huser]

theorem Users.setKey (husers : t.Users) (userId : Bytes) {publicKey : Bytes}
    (hsize : publicKey.length ≤ kMaxTransportAuthPublicKeyBytes) :
    { t with accounts := t.accounts.set userId publicKey }.Users where
  account := by
    intro u key hget
    rw [Map.get_set] at hget
    split at hget
    · obtain rfl := Option.some.inj hget
      exact hsize
    · exact husers.account hget
  challenge := husers.challenge
  session := husers.session

theorem Users.replaceKey (husers : t.Users) (userId : Bytes) {publicKey : Bytes}
    (hsize : publicKey.length ≤ kMaxTransportAuthPublicKeyBytes) :
    (t.replaceKey userId publicKey).Users where
  account := by
    intro u key hget
    unfold Tables.replaceKey at hget
    rw [Map.get_adjust] at hget
    split at hget
    · obtain ⟨_, -, rfl⟩ := Option.map_eq_some_iff.mp hget
      exact hsize
    · exact husers.account hget
  challenge := husers.challenge
  session := by
    intro h row hget
    obtain ⟨row', hrow', rfl⟩ := Option.map_eq_some_iff.mp hget
    have huser : 0 ∉ row'.userId := husers.session hrow'
    split
    · exact huser
    · exact huser

theorem Users.setChallenge (husers : t.Users) (id : Bytes) {challenge : ChallengeState}
    (huser : 0 ∉ challenge.userId) :
    { t with authChallenges := t.authChallenges.set id challenge }.Users where
  account := husers.account
  challenge := by
    intro i challenge' hget
    rw [Map.get_set] at hget
    split at hget
    · obtain rfl := Option.some.inj hget
      exact huser
    · exact husers.challenge hget
  session := husers.session

theorem Users.setSession (husers : t.Users) (h : Bytes) {row : SessionRow}
    (huser : 0 ∉ row.userId) : { t with sessions := t.sessions.set h row }.Users where
  account := husers.account
  challenge := husers.challenge
  session := by
    intro i row' hget
    rw [Map.get_set] at hget
    split at hget
    · obtain rfl := Option.some.inj hget
      exact huser
    · exact husers.session hget

theorem Users.sweepChallenges (husers : t.Users) (p : Bytes → ChallengeState → Bool) :
    { t with authChallenges := t.authChallenges.sweep p }.Users where
  account := husers.account
  challenge hget := husers.challenge (Map.get_sweep_eq_some.mp hget).1
  session := husers.session

theorem Users.sweepSessions (husers : t.Users) (q : Bytes → SessionRow → Bool) :
    { t with sessions := t.sessions.sweep q }.Users where
  account := husers.account
  challenge := husers.challenge
  session hget := husers.session (Map.get_sweep_eq_some.mp hget).1

end Tables

/-! ## 3. The store between two calls -/

variable (c : ServerCrypto)

/-- The store as an authentication service. -/
def authView (s : SqliteStore) : AuthView :=
  s.db.tables.authView (c.hmacSha256 s.tokenHmacSecret)

/-- No transaction is open, and the users are C strings. -/
structure WellFormed (s : SqliteStore) : Prop where
  closed : s.db.saved = none
  users : s.db.tables.Users

theorem wellFormed_init (outcome : Nat → Outcome) (hmacSecret token : Bytes) :
    WellFormed (init outcome hmacSecret token) :=
  ⟨rfl, ⟨nofun, nofun, nofun⟩⟩

/-- What does not change: the secrets and the tape. -/
structure SameSetup (s s' : SqliteStore) : Prop where
  secret : s'.requiredRegistrationToken = s.requiredRegistrationToken
  hmac : s'.tokenHmacSecret = s.tokenHmacSecret
  outcome : s'.db.outcome = s.db.outcome

theorem SameSetup.trans {s₁ s₂ s₃ : SqliteStore} (h : SameSetup s₁ s₂) (h' : SameSetup s₂ s₃) :
    SameSetup s₁ s₃ :=
  ⟨h'.secret.trans h.secret, h'.hmac.trans h.hmac, h'.outcome.trans h.outcome⟩

/-- Nothing has happened so far, except that challenges and sessions may be gone. -/
structure Reaches (s s' : SqliteStore) : Prop where
  setup : SameSetup s s'
  wellFormed : WellFormed s'
  view : (s.authView c).Swept (s'.authView c)

/-- The call, seen as a step, as far as the store is concerned under the assumption `P`. -/
structure IsStep (P : Prop) (now check : UInt64) (s : SqliteStore) (call : AuthCall)
    (reply : Result AuthReply) (s' : SqliteStore) : Prop where
  setup : SameSetup s s'
  wellFormed : WellFormed s'
  step : P → AuthStep c s.requiredRegistrationToken now check (s.authView c) call reply
    (s'.authView c)

/-- No statement reports the text of a bad signature. -/
def NoClash (s : SqliteStore) : Prop := ∀ e, s.db.Reports e → e ≠ "auth signature invalid"

/-- The hash of the store tells tokens apart. -/
def HashInjective (s : SqliteStore) : Prop :=
  Tables.HashInjective (c.hmacSha256 s.tokenHmacSecret)

/-- What is assumed of the host and of the hash. -/
def Assumes (s : SqliteStore) : Prop := NoClash s ∧ HashInjective c s

variable {c}

theorem Reaches.refl {s : SqliteStore} (h : WellFormed s) : Reaches c s s :=
  ⟨⟨rfl, rfl, rfl⟩, h, .refl _⟩

theorem Reaches.trans {s₁ s₂ s₃ : SqliteStore} (h : Reaches c s₁ s₂) (h' : Reaches c s₂ s₃) :
    Reaches c s₁ s₃ := ⟨h.setup.trans h'.setup, h'.wellFormed, h.view.trans h'.view⟩

theorem Reaches.refused {P : Prop} {now check : UInt64} {s s' : SqliteStore} {call : AuthCall}
    {e : String} (h : Reaches c s s') (hcall : ∀ request, call ≠ .register request)
    (he : P → e ≠ "auth signature invalid") : IsStep c P now check s call (.error e) s' :=
  ⟨h.setup, h.wellFormed, fun hP => .refused call e hcall (fun _ _ => he hP) h.view⟩

theorem Reaches.refused_of_ne {P : Prop} {now check : UInt64} {s s' : SqliteStore}
    {call : AuthCall} {e : String} (h : Reaches c s s')
    (hcall : ∀ request, call ≠ .register request)
    (hcall' : ∀ request, call ≠ .finishAuth request) :
    IsStep c P now check s call (.error e) s' :=
  ⟨h.setup, h.wellFormed, fun _ =>
    .refused call e hcall (fun _ he => absurd he (hcall' _)) h.view⟩

/-- A statement that only moves the tape. -/
theorem Reaches.same {s₀ s : SqliteStore} (h : Reaches c s₀ s) (n : Nat) :
    Reaches c s₀ { s with db := { s.db with used := n } } :=
  ⟨h.setup.trans ⟨rfl, rfl, rfl⟩, ⟨h.wellFormed.closed, h.wellFormed.users⟩, h.view⟩

/-- A statement that leaves other tables, in which challenges or sessions are gone. -/
theorem Reaches.update {s₀ s : SqliteStore} (h : Reaches c s₀ s) {t : Tables} (husers : t.Users)
    (hview : (s.authView c).Swept (t.authView (c.hmacSha256 s.tokenHmacSecret))) (n : Nat) :
    Reaches c s₀ { s with db := { s.db with tables := t, used := n } } :=
  ⟨h.setup.trans ⟨rfl, rfl, rfl⟩, ⟨h.wellFormed.closed, husers⟩, h.view.trans hview⟩

section Rules

variable {α : Type} {s : Hosted SqliteStore} {f : Unit → Proc (Hosted SqliteStore) α}
  {Q : Except String α → Hosted SqliteStore → Prop} {s₀ : SqliteStore}
  {userId : Bytes} {now windowSeconds : UInt64} {maxAttempts : Nat} {errorText : String}

/-- `CleanupAuthState`: it may stop half way. -/
theorem wp_cleanup_bind (hs : Reaches c s₀ s.object)
    (herr : ∀ e s₁, Reaches c s₀ s₁.object → s.object.db.Reports e → Q (.error e) s₁)
    (hok : ∀ s₁, s₁.host = s.host → Reaches c s₀ s₁.object → Proc.wp (f ()) Q s₁) :
    Proc.wp (hostedConnection.on (cleanupAuthState now) >>= f) Q s := by
  refine Holder.wp_on_bind (Proc.wp_seq (wp_update (fun e n he => ?_) fun n => ?_))
  · exact herr e _ (hs.same n) he
  have hs₁ := fun p => hs.update (hs.wellFormed.users.sweepChallenges _ p)
    (Tables.authView_sweepChallenges _ _ p) n
  refine wp_update (fun e n he => ?_) fun n => ?_
  · exact herr e _ ((hs₁ _).same n) he
  · exact hok _ rfl ((hs₁ _).update ((hs₁ _).wellFormed.users.sweepSessions _ _)
      (Tables.authView_sweepSessions _ _ _) n)

theorem wp_beginLimit_bind (hs : Reaches c s₀ s.object)
    (herr : ∀ s₁, Reaches c s₀ s₁.object → Q (.error errorText) s₁)
    (hok : ∀ s₁, s₁.host = s.host → Reaches c s₀ s₁.object → Proc.wp (f ()) Q s₁) :
    Proc.wp (Hosted.on (Proc.zoom authBeginAttempts (fun b s => { s with authBeginAttempts := b })
      (enforceRateLimit userId now maxAttempts windowSeconds errorText)) >>= f) Q s :=
  have hreach : ∀ b, Reaches c s₀ { s.object with authBeginAttempts := b } := fun _ =>
    ⟨⟨hs.setup.secret, hs.setup.hmac, hs.setup.outcome⟩,
      ⟨hs.wellFormed.closed, hs.wellFormed.users⟩, hs.view⟩
  Proc.wp_zoom_bind (Proc.wp_zoom (wp_enforceRateLimit (fun _ => herr _ (hreach _))
    fun _ => hok _ rfl (hreach _)))

theorem wp_finishLimit_bind (hs : Reaches c s₀ s.object)
    (herr : ∀ s₁, Reaches c s₀ s₁.object → Q (.error errorText) s₁)
    (hok : ∀ s₁, s₁.host = s.host → Reaches c s₀ s₁.object → Proc.wp (f ()) Q s₁) :
    Proc.wp (Hosted.on (Proc.zoom authFinishAttempts
      (fun b s => { s with authFinishAttempts := b })
      (enforceRateLimit userId now maxAttempts windowSeconds errorText)) >>= f) Q s :=
  have hreach : ∀ b, Reaches c s₀ { s.object with authFinishAttempts := b } := fun _ =>
    ⟨⟨hs.setup.secret, hs.setup.hmac, hs.setup.outcome⟩,
      ⟨hs.wellFormed.closed, hs.wellFormed.users⟩, hs.view⟩
  Proc.wp_zoom_bind (Proc.wp_zoom (wp_enforceRateLimit (fun _ => herr _ (hreach _))
    fun _ => hok _ rfl (hreach _)))

end Rules

/-! ## 4. Registration -/

section Register

variable (c)

/-- A refused registration leaves everything as it was, apart from the tape. -/
theorem registerRefused_step {now check : UInt64} {s s' : SqliteStore}
    (request : RegisterRequest Bytes) (e : String) (hsetup : SameSetup s s')
    (hwf : WellFormed s') (htables : s'.db.tables = s.db.tables) :
    IsStep c True now check s (.register request) (.error e) s' := by
  refine ⟨hsetup, hwf, fun _ => ?_⟩
  have hview : s'.authView c = s.authView c := by rw [authView, authView, htables, hsetup.hmac]
  rw [hview]
  exact .registerRefused request e

theorem replaceKey_step (now check : UInt64) {request : RegisterRequest Bytes} {s : SqliteStore}
    (hwf : WellFormed s) {existing : Bytes} (huser : isValidUserId request.userId)
    (hsize : request.transportAuthPublicKey.length ≤ kMaxTransportAuthPublicKeyBytes)
    (hproof : ProvesPossession c request)
    (hkey : s.db.tables.accounts.get request.userId = some existing)
    (hne : existing ≠ request.transportAuthPublicKey)
    (hauth : SignsRotation c existing request ∨ s.requiredRegistrationToken ≠ [] ∧
      ProvisioningToken c s.requiredRegistrationToken request.userId request.registrationToken) :
    Proc.wp (replaceKey request)
      (fun r s' => IsStep c True now check s (.register request) (r.map fun _ => .done) s') s := by
  unfold replaceKey
  -- every error puts the old tables back
  have hrefused : ∀ {e : String} {n : Nat}, IsStep c True now check s (.register request) (.error e)
      { s with db := { s.db with saved := none, used := n } } :=
    registerRefused_step c request _ ⟨rfl, rfl, rfl⟩ ⟨rfl, hwf.users⟩ rfl
  refine wp_transaction hwf.closed (fun e n _ => ?_) fun n => ?_
  · have hgoal := hrefused (e := e) (n := n)
    rwa [← hwf.closed] at hgoal
  refine Holder.wp_on_bind (wp_update (fun e n _ => ⟨rfl, hrefused⟩) fun n => ?_)
  refine Holder.wp_on (wp_update (fun e n _ => ⟨rfl, hrefused⟩) fun n => ?_)
  refine ⟨rfl, fun e n _ => hrefused, fun n => ⟨⟨rfl, rfl, rfl⟩, ⟨rfl, ?_⟩, fun _ => ?_⟩⟩
  · exact hwf.users.replaceKey _ _ hsize
  · exact (AuthStep.registerReplace request existing huser hsize hproof hkey hne hauth).of_eq
      (Tables.authView_replaceKey _ hwf.users hkey)

theorem register_step (now check : UInt64) (request : RegisterRequest Bytes) {s : SqliteStore}
    (hwf : WellFormed s) :
    Proc.wp (registerTransportIdentity c request)
      (fun r s' => IsStep c True now check s (.register request) (r.map fun _ => .done) s') s := by
  unfold registerTransportIdentity
  have hwf' : ∀ n, WellFormed { s with db := { s.db with used := n } } := fun n =>
    ⟨hwf.closed, hwf.users⟩
  have hrefused : ∀ {e : String} {n : Nat}, IsStep c True now check s (.register request) (.error e)
      { s with db := { s.db with used := n } } :=
    registerRefused_step c request _ ⟨rfl, rfl, rfl⟩ ⟨hwf.closed, hwf.users⟩ rfl
  refine Proc.wp_ofExcept_bind (fun e _ => hrefused) fun _ hcheck => ?_
  obtain ⟨huser, hsize, hproof⟩ := checkRegisterRequest_ok hcheck
  refine Holder.wp_on_bind (wp_query (fun e n _ => hrefused) fun n => ?_)
  refine Proc.wp_get_bind ?_
  dsimp only [connection]
  cases hkey : s.db.tables.accounts.get request.userId with
  | none =>
    refine Proc.wp_ofExcept_bind (fun e _ => hrefused) fun _ htoken => ?_
    refine Holder.wp_on (wp_exec (fun e n _ => hrefused) fun t _ n hf => ?_)
    dsimp only [connection] at hf
    rw [hkey] at hf
    cases hf
    exact ⟨⟨rfl, rfl, rfl⟩, ⟨hwf.closed, hwf.users.setKey _ _ hsize⟩,
      fun _ => .registerFirst request huser hsize hproof hkey (checkFirstRegistration_ok htoken)⟩
  | some existing =>
    by_cases hne : existing ≠ request.transportAuthPublicKey
    · simp only [if_pos hne]
      refine Proc.wp_require_bind (fun _ => hrefused) fun hauth => ?_
      refine Proc.wp_mono (replaceKey_step c now check (hwf' n) huser hsize hproof hkey hne
        (replacement_authorised hauth)) fun r s' hr => ?_
      exact ⟨⟨hr.setup.secret, hr.setup.hmac, hr.setup.outcome⟩, hr.wellFormed, hr.step⟩
    · simp only [if_neg hne]
      push Not at hne
      exact Proc.wp_pure ⟨⟨rfl, rfl, rfl⟩, hwf' n, fun _ => .registerSame request (hne ▸ hkey)⟩

end Register

/-! ## 5. The other calls -/

section Calls

variable (c)

theorem SameSetup.noClash {s s' : SqliteStore} (h : SameSetup s s') (hs : NoClash s) :
    NoClash s' := by
  intro e he
  obtain ⟨n, he⟩ := he
  rw [h.outcome] at he
  exact hs e ⟨n, he⟩

theorem SameSetup.hashInjective {s s' : SqliteStore} (h : SameSetup s s')
    (hs : HashInjective c s) : HashInjective c s' := by
  rw [HashInjective, h.hmac]
  exact hs

theorem begin_step (request : AuthBeginRequest Bytes) {s : Hosted SqliteStore}
    (hs : WellFormed s.object) :
    Proc.wp (beginTransportAuthentication request)
      (fun r s' => IsStep c (Assumes c s.object) s.now s.tick.now s.object (.beginAuth request)
        (r.map .challenge) s'.object) s := by
  unfold beginTransportAuthentication
  have hrefl : Reaches c s.object s.tick.object := .refl hs
  refine Proc.wp_of_bind_ok rfl (wp_cleanup_bind hrefl (fun e s₁ hs₁ he => ?_) fun s₁ _ hs₁ => ?_)
  · exact hs₁.refused_of_ne nofun nofun
  refine Proc.wp_require_bind (fun _ => hs₁.refused_of_ne nofun nofun) fun huser => ?_
  refine Proc.wp_require_bind (fun _ => hs₁.refused_of_ne nofun nofun) fun _ => ?_
  refine wp_beginLimit_bind hs₁ (fun _ h => h.refused_of_ne nofun nofun) fun s₂ _ hs₂ => ?_
  refine Holder.wp_on_bind (wp_queryRow (fun e n he => ?_) fun row n _ => ?_)
  · exact (hs₂.same n).refused_of_ne nofun nofun
  refine Proc.wp_require_bind (fun _ => (hs₂.same n).refused_of_ne nofun nofun) fun _ => ?_
  refine wp_randomHex_bind fun challengeId s₃ hs₃ => wp_randomBytes_bind fun nonce s₄ hs₄ => ?_
  obtain hs₄ : Reaches c s.object s₄.object := by
    rw [hs₄, hs₃]
    exact hs₂.same n
  cases nonce with
  | none => exact Proc.wp_fail (hs₄.refused_of_ne nofun nofun)
  | some serverNonce =>
    refine Proc.wp_require_bind (fun _ => hs₄.refused_of_ne nofun nofun) fun _ => ?_
    refine Holder.wp_on_bind (wp_exec (fun e n _ => (hs₄.same n).refused_of_ne nofun nofun)
      fun t _ n hf => ?_)
    split at hf
    · cases hf
    cases hf
    refine Proc.wp_pure ⟨hs₄.setup.trans ⟨rfl, rfl, rfl⟩, ⟨hs₄.wellFormed.closed,
      hs₄.wellFormed.users.setChallenge _ _ (not_mem_of_isValidUserId huser)⟩, fun _ => ?_⟩
    exact (AuthStep.begun request ⟨challengeId, serverNonce, s.now + 60⟩ hs₄.view).of_eq
      (Tables.authView_setChallenge _ _ _ rfl)

/-- What `consumeChallenge` ends with: the challenge is used up, or nothing has happened. -/
def ConsumeEnds (c : ServerCrypto) (request : AuthFinishRequest Bytes) (check : UInt64)
    (s₀ s : SqliteStore) (r : Result Unit) (s' : SqliteStore) : Prop :=
  match r with
  | .error e => Reaches c s₀ s' ∧ (NoClash s₀ → e ≠ "auth signature invalid")
  | .ok () => SameSetup s₀ s' ∧ WellFormed s' ∧
    s'.authView c = (s.authView c).closeChallenge request.challengeId ∧
    check ≤ request.expiresAtUnix ∧
    ∃ challenge, (s.authView c).challenge request.challengeId = some challenge ∧
      challenge.Matches request

theorem consumeChallenge_ends (request : AuthFinishRequest Bytes) {s₀ : SqliteStore}
    {s : Hosted SqliteStore} (hs : Reaches c s₀ s.object) :
    Proc.wp (consumeChallenge request)
      (fun r s' => ConsumeEnds c request s.now s₀ s.object r s'.object) s := by
  unfold consumeChallenge
  have hnoClash : ∀ e, s.object.db.Reports e → NoClash s₀ → e ≠ "auth signature invalid" :=
    fun e he hn => hs.setup.noClash hn e he
  -- every error puts the old tables back
  have hback : ∀ {e : String} {n : Nat}, (NoClash s₀ → e ≠ "auth signature invalid") →
      ConsumeEnds c request s.now s₀ s.object (.error e)
        { s.object with db := { s.object.db with saved := none, used := n } } := fun he =>
    ⟨⟨hs.setup.trans ⟨rfl, rfl, rfl⟩, ⟨rfl, hs.wellFormed.users⟩, hs.view⟩, he⟩
  refine wp_transaction hs.wellFormed.closed (fun e n he => ⟨hs.same n, hnoClash e he⟩) fun n => ?_
  refine Holder.wp_on_bind (wp_queryRow (fun e n he => ⟨rfl, hback (hnoClash e he)⟩)
    fun row n hrow => ?_)
  cases row with
  | none => exact Proc.wp_fail ⟨rfl, hback fun _ => by decide⟩
  | some challenge =>
    have hget : s.object.db.tables.authChallenges.get request.challengeId = some challenge := by
      rcases hrow with hrow | hrow
      · cases hrow
      · exact hrow.symm
    refine Proc.wp_require_bind (fun _ => ⟨rfl, hback fun _ => by decide⟩) fun hused => ?_
    refine Proc.wp_of_bind_ok rfl ?_
    refine Proc.wp_require_bind (fun _ => ⟨rfl, hback fun _ => by decide⟩) fun htime => ?_
    refine Proc.wp_require_bind (fun _ => ⟨rfl, hback fun _ => by decide⟩) fun hmatch => ?_
    rw [cString_eq (hs.wellFormed.users.challenge hget)] at hmatch
    refine Holder.wp_on_bind (wp_exec (fun e n he => ⟨rfl, hback ?_⟩) fun t changes n hf => ?_)
    · rcases he with he | he
      · exact hnoClash e he
      · dsimp only [hostedConnection, Hosted.tick] at he
        simp [hget, hused] at he
    · dsimp only [hostedConnection, Hosted.tick] at hf
      simp only [hget, hused, Bool.false_eq_true, if_false, Except.ok.injEq, Prod.mk.injEq] at hf
      obtain ⟨rfl, rfl⟩ := hf
      have hend : ∀ n, ConsumeEnds c request s.now s₀ s.object (.ok ()) { s.object with
          db := { s.object.db with
            saved := none
            used := n
            tables := { s.object.db.tables with
              authChallenges := s.object.db.tables.authChallenges.set request.challengeId
                { challenge with used := true } } } } := by
        intro n
        refine ⟨hs.setup.trans ⟨rfl, rfl, rfl⟩, ⟨rfl, ?_⟩, ?_, ?_, challenge, ?_, hmatch⟩
        · have huser : 0 ∉ challenge.userId := hs.wellFormed.users.challenge hget
          exact hs.wellFormed.users.setChallenge _ _ huser
        · exact Tables.authView_useChallenge _ _ _ rfl
        · rw [← hmatch.2.2.2]
          exact UInt64.not_lt.mp htime
        · simp [authView, Tables.authView, hget, Option.filter, hused]
      exact ⟨rfl, fun e n he => hback (hnoClash e he), fun n => hend n⟩

theorem finish_step (request : AuthFinishRequest Bytes) {s : Hosted SqliteStore}
    (hs : WellFormed s.object) :
    Proc.wp (finishTransportAuthentication c request)
      (fun r s' => IsStep c (Assumes c s.object) s.now s.tick.now s.object (.finishAuth request)
        (r.map .token) s'.object) s := by
  unfold finishTransportAuthentication
  have hrefl : Reaches c s.object s.tick.object := .refl hs
  refine Proc.wp_of_bind_ok rfl (wp_cleanup_bind hrefl (fun e s₁ hs₁ he => ?_) fun s₁ hh₁ hs₁ => ?_)
  · exact hs₁.refused nofun fun hP => hP.1 e he
  refine Proc.wp_ofExcept_bind (fun e he => hs₁.refused nofun fun _ => checkFinishRequest_error he)
    fun _ hcheck => ?_
  refine wp_finishLimit_bind hs₁ (fun _ h => h.refused nofun fun _ => by decide)
    fun s₂ hh₂ hs₂ => ?_
  refine Proc.wp_bind (consumeChallenge_ends c request hs₂) (fun e s₃ hend => ?_)
    fun _ s₃ hend => ?_
  · exact hend.1.refused nofun fun hP => hend.2 hP.1
  obtain ⟨hsetup, hwf, hview, htime, challenge, hopen, hmatch⟩ := hend
  rw [show s₂.now = s.tick.now by rw [Hosted.now, Hosted.now, hh₂, hh₁]] at htime
  -- from here on every error leaves the challenge used up
  have hrejected : ∀ {e : String} {s' : SqliteStore}, SameSetup s₃.object s' → WellFormed s' →
      s'.authView c = s₃.object.authView c →
      IsStep c (Assumes c s.object) s.now s.tick.now s.object (.finishAuth request) (.error e) s' :=
    fun hsetup' hwf' hview' => ⟨hsetup.trans hsetup', hwf', fun _ =>
      (AuthStep.rejected request _ hs₂.view hopen).of_eq (hview'.trans hview)⟩
  have hsame : ∀ n, WellFormed { s₃.object with db := { s₃.object.db with used := n } } :=
    fun n => ⟨hwf.closed, hwf.users⟩
  refine Holder.wp_on_bind (wp_queryRow (fun e n _ => ?_) fun row n hrow => ?_)
  · exact hrejected ⟨rfl, rfl, rfl⟩ (hsame n) rfl
  cases row with
  | none => exact Proc.wp_fail (hrejected ⟨rfl, rfl, rfl⟩ (hsame n) rfl)
  | some publicKey =>
    have hkey : s.object.db.tables.accounts.get request.userId = some publicKey := by
      have hsame := congrFun (congrArg AuthView.key hview) request.userId
      have hkeys := congrFun hs₂.view.key request.userId
      rcases hrow with hrow | hrow
      · cases hrow
      · exact (hrow.trans (hsame.trans hkeys)).symm
    refine Proc.wp_require_bind (fun _ => hrejected ⟨rfl, rfl, rfl⟩ (hsame n) rfl) fun hsig => ?_
    refine wp_randomBytes_bind fun token s₄ hs₄ => ?_
    obtain ⟨hsetup₄, hwf₄, hview₄⟩ : SameSetup s₃.object s₄.object ∧ WellFormed s₄.object ∧
        s₄.object.authView c = s₃.object.authView c := by
      rw [hs₄]
      exact ⟨⟨rfl, rfl, rfl⟩, hsame n, rfl⟩
    cases token with
    | none => exact Proc.wp_fail (hrejected hsetup₄ hwf₄ hview₄)
    | some token =>
      refine Proc.wp_get_bind ?_
      refine Proc.wp_ofExcept_bind (fun e _ => hrejected hsetup₄ hwf₄ hview₄) fun hash hhash => ?_
      refine Holder.wp_on_bind (wp_exec (fun e n _ => ?_) fun t _ n hf => ?_)
      · exact hrejected (hsetup₄.trans ⟨rfl, rfl, rfl⟩) ⟨hwf₄.closed, hwf₄.users⟩ hview₄
      · split at hf
        · cases hf
        cases hf
        have huser : 0 ∉ request.userId := not_mem_of_isValidUserId (checkFinishRequest_ok hcheck)
        refine Proc.wp_pure ⟨(hsetup.trans hsetup₄).trans ⟨rfl, rfl, rfl⟩,
          ⟨hwf₄.closed, hwf₄.users.setSession _ _ huser⟩, fun hP => ?_⟩
        have hinj := (hsetup.trans hsetup₄).hashInjective c hP.2
        refine (AuthStep.finished request ⟨token, s.now + 900⟩ hs₂.view hopen hmatch htime hkey
          (Except.eq_ok_of_isOk hsig) rfl).of_eq ?_
        rw [← hview, ← hview₄]
        exact Tables.authView_setSession _ hinj hhash huser rfl

theorem authenticate_step (token : Bytes) {s : Hosted SqliteStore} (hs : WellFormed s.object) :
    Proc.wp (authenticateSessionToken c token)
      (fun r s' => IsStep c (Assumes c s.object) s.now s.tick.now s.object (.authenticate token)
        (r.map .user) s'.object) s := by
  unfold authenticateSessionToken
  have hrefl : Reaches c s.object s.tick.object := .refl hs
  refine Proc.wp_of_bind_ok rfl (wp_cleanup_bind hrefl (fun e s₁ hs₁ he => ?_) fun s₁ _ hs₁ => ?_)
  · exact hs₁.refused_of_ne nofun nofun
  refine Proc.wp_require_bind (fun _ => hs₁.refused_of_ne nofun nofun) fun _ => ?_
  refine Proc.wp_get_bind ?_
  refine Proc.wp_ofExcept_bind (fun e _ => hs₁.refused_of_ne nofun nofun) fun hash hhash => ?_
  refine Holder.wp_on_bind (wp_queryRow (fun e n he => ?_) fun row n hrow => ?_)
  · exact (hs₁.same n).refused_of_ne nofun nofun
  cases row with
  | none => exact Proc.wp_fail ((hs₁.same n).refused_of_ne nofun nofun)
  | some session =>
    have hget : s₁.object.db.tables.sessions.get hash = some session := by
      rcases hrow with hrow | hrow
      · cases hrow
      · exact hrow.symm
    refine Proc.wp_require_bind (fun _ => (hs₁.same n).refused_of_ne nofun nofun) fun hlive => ?_
    refine Proc.wp_require_bind (fun _ => (hs₁.same n).refused_of_ne nofun nofun) fun htime => ?_
    have hgrant : (s₁.object.authView c).session token =
        some ⟨cString session.userId, session.expiresAtUnix⟩ := by
      rw [hashToken] at hhash
      simp [authView, Tables.authView, hhash, hget, Option.filter, hlive]
    exact Proc.wp_pure ⟨(hs₁.same n).setup, (hs₁.same n).wellFormed,
      fun _ => .authenticated token hs₁.view hgrant (UInt64.not_lt.mp htime)⟩

theorem revoke_step (now check : UInt64) (token : Bytes) {s : SqliteStore} (hs : WellFormed s) :
    Proc.wp (revokeSessionToken c token)
      (fun r s' => IsStep c (Assumes c s) now check s (.revoke token) (r.map fun _ => .done) s')
      s := by
  unfold revokeSessionToken
  have hrefl : Reaches c s s := .refl hs
  refine Proc.wp_require_bind (fun _ => hrefl.refused_of_ne nofun nofun) fun _ => ?_
  refine Proc.wp_get_bind ?_
  refine Proc.wp_ofExcept_bind (fun e _ => hrefl.refused_of_ne nofun nofun) fun hash hhash => ?_
  refine Holder.wp_on_bind (wp_queryRow (fun e n _ => (hrefl.same n).refused_of_ne nofun nofun)
    fun row n _ => ?_)
  refine Proc.wp_require_bind (fun _ => (hrefl.same n).refused_of_ne nofun nofun) fun _ => ?_
  refine Holder.wp_on_bind (wp_exec (fun e n _ => (hrefl.same n).refused_of_ne nofun nofun)
    fun t changes n hf => ?_)
  split at hf
  case h_1 session hget =>
    obtain ⟨rfl, rfl⟩ := Prod.mk.inj (Except.ok.inj hf)
    have huser : 0 ∉ session.userId := hs.users.session hget
    exact Proc.wp_pure ⟨⟨rfl, rfl, rfl⟩,
      ⟨hs.closed, hs.users.setSession _ _ huser⟩,
      fun hP => (AuthStep.revoked token).of_eq
        (Tables.authView_revokeSession _ hP.2 hhash rfl)⟩
  case h_2 =>
    obtain ⟨rfl, rfl⟩ := Prod.mk.inj (Except.ok.inj hf)
    exact Proc.wp_fail ((hrefl.same n).refused_of_ne nofun nofun)

theorem IsStep.inv {P : Prop} {now check : UInt64} {s s' : SqliteStore} {call : AuthCall}
    {reply : Result AuthReply} (h : IsStep c P now check s call reply s') (hs : Assumes c s) :
    WellFormed s' ∧ Assumes c s' :=
  ⟨h.wellFormed, h.setup.noClash hs.1, h.setup.hashInjective c hs.2⟩

/-- A registration is a step of the service without further assumptions. -/
theorem register_auth_step (request : RegisterRequest Bytes) {s : Hosted SqliteStore}
    (hs : WellFormed s.object) :
    IsStep c True s.now s.tick.now s.object (.register request)
      ((api c).auth (.register request) s).1 ((api c).auth (.register request) s).2.object := by
  rw [IServerApi.auth, Proc.bind_pure_apply]
  exact register_step c s.now s.tick.now request hs

/-- Every call is a step of the service. -/
theorem auth_step (call : AuthCall) {s : Hosted SqliteStore} (hs : WellFormed s.object) :
    IsStep c (Assumes c s.object) s.now s.tick.now s.object call ((api c).auth call s).1
      ((api c).auth call s).2.object := by
  cases call with
  | register request =>
    have hstep := register_auth_step c request hs
    exact ⟨hstep.setup, hstep.wellFormed, fun _ => hstep.step trivial⟩
  | beginAuth request =>
    rw [IServerApi.auth, Proc.bind_pure_apply]
    exact begin_step c request hs
  | finishAuth request =>
    rw [IServerApi.auth, Proc.bind_pure_apply]
    exact finish_step c request hs
  | authenticate token =>
    rw [IServerApi.auth, Proc.bind_pure_apply]
    exact authenticate_step c token hs
  | revoke token =>
    rw [IServerApi.auth, Proc.bind_pure_apply]
    exact revoke_step c s.now s.tick.now token hs

/-- `SqliteStore` is an authentication service. -/
def authService : AuthService c (Hosted SqliteStore) where
  api := api c
  Inv s := WellFormed s.object ∧ Assumes c s.object
  view s := s.object.authView c
  secret s := s.object.requiredRegistrationToken
  now s := s.now
  check s := s.tick.now
  inv_step call _ hs := (auth_step c call hs.1).inv c hs.2
  step call _ hs := (auth_step c call hs.1).step hs.2

end Calls

end SqliteStore

end PqChat
