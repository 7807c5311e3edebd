/-
# InMemoryServer refines the authentication service

One lemma for each call: what it leaves behind, seen through `authView`, is a step of the
service.  A session is stored under the hexadecimal form of its token, which is read back
without loss.
-/
import PqChat.Server.Auth
import PqChat.Server.InMemory

namespace PqChat

open ByteString

/-! ## 1. Tokens in hexadecimal -/

theorem hexByte_inj {a b : UInt8} (h₁ : hexDigit (a >>> 4) = hexDigit (b >>> 4))
    (h₂ : hexDigit (a &&& 15) = hexDigit (b &&& 15)) : a = b := by
  -- both digits of a byte can be read back, and the byte is put together from them
  have key : ∀ n < 256, hexValue (hexDigit (UInt8.ofNat n >>> 4)) = some (UInt8.ofNat n >>> 4) ∧
      hexValue (hexDigit (UInt8.ofNat n &&& 15)) = some (UInt8.ofNat n &&& 15) ∧
      ((UInt8.ofNat n >>> 4) <<< 4 ||| (UInt8.ofNat n &&& 15)) = UInt8.ofNat n := by
    decide +kernel
  obtain ⟨ha₁, ha₂, ha₃⟩ := key a.toNat a.toNat_lt
  obtain ⟨hb₁, hb₂, hb₃⟩ := key b.toNat b.toNat_lt
  rw [UInt8.ofNat_toNat] at ha₁ ha₂ ha₃ hb₁ hb₂ hb₃
  have e₁ := Option.some.inj ((ha₁.symm.trans (congrArg hexValue h₁)).trans hb₁)
  have e₂ := Option.some.inj ((ha₂.symm.trans (congrArg hexValue h₂)).trans hb₂)
  rw [← ha₃, ← hb₃, e₁, e₂]

theorem hexEncode_inj {x y : Bytes} (h : hexEncode x = hexEncode y) : x = y := by
  induction x generalizing y with
  | nil =>
    cases y with
    | nil => rfl
    | cons b y => cases h
  | cons a x ih =>
    cases y with
    | nil => cases h
    | cons b y =>
      obtain ⟨h₁, h⟩ := List.cons.inj h
      obtain ⟨h₂, h⟩ := List.cons.inj h
      rw [hexByte_inj h₁ h₂, ih h]

/-! ## 2. The view -/

namespace InMemoryServer

/-- The server as an authentication service. -/
def authView (s : InMemoryServer Bytes) : AuthView where
  key u := s.transportIdentities.get u
  challenge id := (s.challenges.get id).filter (! ·.used)
  session token := (s.sessions.get (hexEncode token)).map fun x => ⟨x.userId, x.expiresAtUnix⟩

/-- Nothing has happened so far, except that challenges and sessions may be gone. -/
structure Reaches (s s' : InMemoryServer Bytes) : Prop where
  secret : s'.requiredRegistrationToken = s.requiredRegistrationToken
  view : s.authView.Swept s'.authView

theorem Reaches.trans {s₁ s₂ s₃ : InMemoryServer Bytes} (h : Reaches s₁ s₂) (h' : Reaches s₂ s₃) :
    Reaches s₁ s₃ := ⟨h'.secret.trans h.secret, h.view.trans h'.view⟩

/-- The call made on the object, seen as a step. -/
structure IsStep (c : ServerCrypto) (now : UInt64) (s : InMemoryServer Bytes) (call : AuthCall)
    (reply : Result AuthReply) (s' : InMemoryServer Bytes) : Prop where
  secret : s'.requiredRegistrationToken = s.requiredRegistrationToken
  step : AuthStep c s.requiredRegistrationToken now now s.authView call reply s'.authView

theorem Reaches.refused {c : ServerCrypto} {now : UInt64} {s s' : InMemoryServer Bytes}
    {call : AuthCall} {e : String} (h : Reaches s s') (hcall : ∀ request, call ≠ .register request)
    (he : e ≠ "auth signature invalid") : IsStep c now s call (.error e) s' :=
  ⟨h.secret, .refused call e hcall (fun _ _ => he) h.view⟩

theorem reaches_cleanup (now : UInt64) (s : InMemoryServer Bytes) :
    Reaches s (s.cleanupAuthState now) where
  secret := rfl
  view := {
    key := rfl
    challenge := by
      intro id challenge h
      obtain ⟨h, hused⟩ := Option.filter_eq_some_iff.mp h
      exact Option.filter_eq_some_iff.mpr ⟨(Map.get_sweep_eq_some.mp h).1, hused⟩
    session := by
      intro token grant h
      obtain ⟨session, hs, hgrant⟩ := Option.map_eq_some_iff.mp h
      exact Option.map_eq_some_iff.mpr ⟨session, (Map.get_sweep_eq_some.mp hs).1, hgrant⟩ }

section Rules

variable {α : Type} {s : Hosted (InMemoryServer Bytes)}
  {f : Unit → Proc (Hosted (InMemoryServer Bytes)) α}
  {Q : Except String α → Hosted (InMemoryServer Bytes) → Prop} {s₀ : InMemoryServer Bytes}
  {userId : Bytes} {now windowSeconds : UInt64} {maxAttempts : Nat} {errorText : String}

theorem wp_cleanup_bind (h : ∀ s₁, Reaches s.object s₁.object → Proc.wp (f ()) Q s₁) :
    Proc.wp (Hosted.on (Proc.modify (cleanupAuthState now)) >>= f) Q s :=
  Proc.wp_of_bind_ok rfl (h _ (reaches_cleanup now s.object))

theorem wp_beginLimit_bind (hs : Reaches s₀ s.object)
    (herr : ∀ s₁, Reaches s₀ s₁.object → Q (.error errorText) s₁)
    (hok : ∀ s₁, Reaches s₀ s₁.object → Proc.wp (f ()) Q s₁) :
    Proc.wp (Hosted.on (Proc.zoom authBeginAttempts (fun b s => { s with authBeginAttempts := b })
      (enforceRateLimit userId now maxAttempts windowSeconds errorText)) >>= f) Q s :=
  Proc.wp_zoom_bind (Proc.wp_zoom (wp_enforceRateLimit (fun _ => herr _ ⟨hs.secret, hs.view⟩)
    fun _ => hok _ ⟨hs.secret, hs.view⟩))

theorem wp_finishLimit_bind (hs : Reaches s₀ s.object)
    (herr : ∀ s₁, Reaches s₀ s₁.object → Q (.error errorText) s₁)
    (hok : ∀ s₁, Reaches s₀ s₁.object → Proc.wp (f ()) Q s₁) :
    Proc.wp (Hosted.on (Proc.zoom authFinishAttempts
      (fun b s => { s with authFinishAttempts := b })
      (enforceRateLimit userId now maxAttempts windowSeconds errorText)) >>= f) Q s :=
  Proc.wp_zoom_bind (Proc.wp_zoom (wp_enforceRateLimit (fun _ => herr _ ⟨hs.secret, hs.view⟩)
    fun _ => hok _ ⟨hs.secret, hs.view⟩))

end Rules

theorem authView_setChallenge (s : InMemoryServer Bytes) (id : Bytes) {challenge : ChallengeState}
    (hused : challenge.used = false) :
    { s with challenges := s.challenges.set id challenge }.authView =
      s.authView.openChallenge id challenge := by
  unfold authView AuthView.openChallenge
  congr 1
  funext i
  by_cases hi : i = id
  · simp [hi, Option.filter, hused]
  · simp [hi, Map.get_set]

/-- The object with a challenge marked as used. -/
def useChallenge (s : InMemoryServer Bytes) (id : Bytes) (challenge : ChallengeState) :
    InMemoryServer Bytes :=
  { s with challenges := s.challenges.set id { challenge with used := true } }

theorem authView_useChallenge (s : InMemoryServer Bytes) (id : Bytes)
    (challenge : ChallengeState) :
    (s.useChallenge id challenge).authView = s.authView.closeChallenge id := by
  unfold authView AuthView.closeChallenge useChallenge
  congr 1
  funext i
  by_cases hi : i = id
  · simp [hi, Option.filter]
  · simp [hi, Map.get_set]

theorem authView_setSession (s : InMemoryServer Bytes) (token : Bytes) (session : SessionState) :
    { s with sessions := s.sessions.set (hexEncode token) session }.authView =
      s.authView.openSession token ⟨session.userId, session.expiresAtUnix⟩ := by
  unfold authView AuthView.openSession
  congr 1
  funext t
  by_cases ht : t = token
  · simp [ht]
  · have hne : hexEncode t ≠ hexEncode token := fun h => ht (hexEncode_inj h)
    simp [ht, Map.get_set_of_ne _ hne]

theorem authView_eraseSession (s : InMemoryServer Bytes) (token : Bytes) :
    { s with sessions := s.sessions.erase (hexEncode token) }.authView =
      s.authView.closeSession token := by
  unfold authView AuthView.closeSession
  congr 1
  funext t
  by_cases ht : t = token
  · simp [ht]
  · have hne : hexEncode t ≠ hexEncode token := fun h => ht (hexEncode_inj h)
    simp [ht, Map.get_erase, hne]

theorem authView_replaceKey (s : InMemoryServer Bytes) (userId publicKey : Bytes) :
    { s with
      transportIdentities := s.transportIdentities.set userId publicKey
      sessions := s.sessions.sweep fun _ session => session.userId ≠ userId }.authView =
      (s.authView.withKey userId publicKey).endSessions userId := by
  unfold authView AuthView.withKey AuthView.endSessions
  congr 1
  funext token
  simp only [Map.get_sweep]
  cases s.sessions.get (hexEncode token) with
  | none => rfl
  | some session => by_cases hu : session.userId = userId <;> simp [Option.filter, hu]

/-! ## 3. The calls -/

section Calls

variable (c : ServerCrypto)

theorem register_step (now : UInt64) (request : RegisterRequest Bytes) (s : InMemoryServer Bytes) :
    Proc.wp (registerTransportIdentity c request)
      (fun r s' => IsStep c now s (.register request) (r.map fun _ => .done) s') s := by
  unfold registerTransportIdentity
  refine Proc.wp_ofExcept_bind (fun e _ => ⟨rfl, .registerRefused request _⟩) fun _ hcheck => ?_
  obtain ⟨huser, hsize, hproof⟩ := checkRegisterRequest_ok hcheck
  refine Proc.wp_get_bind ?_
  cases hkey : s.transportIdentities.get request.userId with
  | none =>
    refine Proc.wp_ofExcept_bind (fun e _ => ⟨rfl, .registerRefused request _⟩) fun _ htoken => ?_
    exact ⟨rfl, .registerFirst request huser hsize hproof hkey (checkFirstRegistration_ok htoken)⟩
  | some existing =>
    by_cases hne : existing ≠ request.transportAuthPublicKey
    · simp only [if_pos hne]
      refine Proc.wp_require_bind (fun _ => ⟨rfl, .registerRefused request _⟩) fun hauth => ?_
      refine Proc.wp_modify ⟨rfl, ?_⟩
      rw [authView_replaceKey]
      exact .registerReplace request existing huser hsize hproof hkey hne
        (replacement_authorised hauth)
    · simp only [if_neg hne]
      push Not at hne
      exact ⟨rfl, .registerSame request (hne ▸ hkey)⟩

theorem begin_step (request : AuthBeginRequest Bytes) (s : Hosted (InMemoryServer Bytes)) :
    Proc.wp (beginTransportAuthentication request)
      (fun r s' => IsStep c s.now s.object (.beginAuth request) (r.map .challenge) s'.object)
      s := by
  unfold beginTransportAuthentication
  refine Proc.wp_of_bind_ok rfl (wp_cleanup_bind fun s₁ hs₁ => ?_)
  refine Proc.wp_require_bind (fun _ => hs₁.refused nofun (by decide)) fun _ => ?_
  refine Proc.wp_require_bind (fun _ => hs₁.refused nofun (by decide)) fun _ => ?_
  refine wp_beginLimit_bind hs₁ (fun _ h => h.refused nofun (by decide)) fun s₂ hs₂ => ?_
  refine Proc.wp_get_bind ?_
  refine Proc.wp_require_bind (fun _ => hs₂.refused nofun (by decide)) fun _ => ?_
  refine wp_randomHex_bind fun challengeId s₃ hs₃ => wp_randomBytes_bind fun nonce s₄ hs₄ => ?_
  obtain hs₄ : Reaches s.object s₄.object := by
    rw [hs₄, hs₃]
    exact hs₂
  cases nonce with
  | none => exact Proc.wp_fail (hs₄.refused nofun (by decide))
  | some serverNonce =>
    refine Proc.wp_require_bind (fun _ => hs₄.refused nofun (by decide)) fun _ => ?_
    refine Proc.wp_of_bind_ok rfl (Proc.wp_pure ⟨hs₄.secret, ?_⟩)
    dsimp only
    rw [authView_setChallenge _ _ rfl]
    exact .begun request ⟨challengeId, serverNonce, s.now + 60⟩ hs₄.view

theorem finish_step (request : AuthFinishRequest Bytes) (s : Hosted (InMemoryServer Bytes)) :
    Proc.wp (finishTransportAuthentication c request)
      (fun r s' => IsStep c s.now s.object (.finishAuth request) (r.map .token) s'.object) s := by
  unfold finishTransportAuthentication
  refine Proc.wp_of_bind_ok rfl (wp_cleanup_bind fun s₁ hs₁ => ?_)
  refine Proc.wp_ofExcept_bind (fun e he => hs₁.refused nofun (checkFinishRequest_error he))
    fun _ _ => ?_
  refine wp_finishLimit_bind hs₁ (fun _ h => h.refused nofun (by decide)) fun s₂ hs₂ => ?_
  refine Proc.wp_get_bind ?_
  cases hchallenge : s₂.object.challenges.get request.challengeId with
  | none => exact Proc.wp_fail (hs₂.refused nofun (by decide))
  | some challenge =>
    refine Proc.wp_require_bind (fun _ => hs₂.refused nofun (by decide)) fun hused => ?_
    refine Proc.wp_require_bind (fun _ => hs₂.refused nofun (by decide)) fun hmatch => ?_
    refine Proc.wp_require_bind (fun _ => hs₂.refused nofun (by decide)) fun htime => ?_
    have hopen : s₂.object.authView.challenge request.challengeId = some challenge := by
      simp [authView, hchallenge, Option.filter, hused]
    have hrejected : ∀ e, IsStep c s.now s.object (.finishAuth request) (.error e)
        (s₂.object.useChallenge request.challengeId challenge) := by
      intro e
      refine ⟨hs₂.secret, ?_⟩
      rw [authView_useChallenge]
      exact .rejected request e hs₂.view hopen
    refine Proc.wp_of_bind_ok rfl ?_
    cases hkey : s₂.object.transportIdentities.get request.userId with
    | none => exact Proc.wp_fail (hrejected _)
    | some publicKey =>
      refine Proc.wp_require_bind (fun _ => hrejected _) fun hsig => ?_
      refine wp_randomBytes_bind fun token s₃ hs₃ => ?_
      cases token with
      | none =>
        refine Proc.wp_fail ?_
        rw [hs₃]
        exact hrejected _
      | some token =>
        refine Proc.wp_of_bind_ok rfl (Proc.wp_pure ?_)
        dsimp only
        rw [hs₃]
        have hview := authView_setSession (s₂.object.useChallenge request.challengeId challenge)
          token ⟨request.userId, s.now + 900⟩
        rw [authView_useChallenge] at hview
        have hexp : s.now ≤ request.expiresAtUnix := by
          rw [← hmatch.2.2.2]
          exact UInt64.not_lt.mp htime
        have hkey' : s.object.authView.key request.userId = some publicKey :=
          (congrFun hs₂.view.key request.userId).symm.trans hkey
        exact ⟨hs₂.secret, hview ▸ .finished request ⟨token, s.now + 900⟩ hs₂.view hopen hmatch hexp
          hkey' (Except.eq_ok_of_isOk hsig) rfl⟩

theorem authenticate_step (token : Bytes) (s : Hosted (InMemoryServer Bytes)) :
    Proc.wp (authenticateSessionToken token)
      (fun r s' => IsStep c s.now s.object (.authenticate token) (r.map .user) s'.object) s := by
  unfold authenticateSessionToken
  refine Proc.wp_of_bind_ok rfl (wp_cleanup_bind fun s₁ hs₁ => ?_)
  refine Proc.wp_require_bind (fun _ => hs₁.refused nofun (by decide)) fun _ => ?_
  refine Proc.wp_get_bind ?_
  cases hsession : s₁.object.sessions.get (hexEncode token) with
  | none => exact Proc.wp_fail (hs₁.refused nofun (by decide))
  | some session =>
    refine Proc.wp_require_bind (fun _ => hs₁.refused nofun (by decide)) fun htime => ?_
    have hgrant : s₁.object.authView.session token =
        some ⟨session.userId, session.expiresAtUnix⟩ := by
      simp [authView, hsession]
    exact Proc.wp_pure ⟨hs₁.secret, .authenticated token hs₁.view hgrant (UInt64.not_lt.mp htime)⟩

theorem revoke_step (now : UInt64) (token : Bytes) (s : InMemoryServer Bytes) :
    Proc.wp (revokeSessionToken token)
      (fun r s' => IsStep c now s (.revoke token) (r.map fun _ => .done) s') s := by
  have hrefl : Reaches s s := ⟨rfl, .refl _⟩
  unfold revokeSessionToken
  refine Proc.wp_require_bind (fun _ => hrefl.refused nofun (by decide)) fun _ => ?_
  refine Proc.wp_get_bind ?_
  refine Proc.wp_require_bind (fun _ => hrefl.refused nofun (by decide)) fun _ => ?_
  refine Proc.wp_modify ⟨rfl, ?_⟩
  rw [authView_eraseSession]
  exact .revoked token

/-- Every call is a step of the service. -/
theorem auth_step (call : AuthCall) (s : Hosted (InMemoryServer Bytes)) :
    IsStep c s.now s.object call ((api c).auth call s).1 ((api c).auth call s).2.object := by
  cases call with
  | register request =>
    rw [IServerApi.auth, Proc.bind_pure_apply]
    exact register_step c s.now request s.object
  | beginAuth request =>
    rw [IServerApi.auth, Proc.bind_pure_apply]
    exact begin_step c request s
  | finishAuth request =>
    rw [IServerApi.auth, Proc.bind_pure_apply]
    exact finish_step c request s
  | authenticate token =>
    rw [IServerApi.auth, Proc.bind_pure_apply]
    exact authenticate_step c token s
  | revoke token =>
    rw [IServerApi.auth, Proc.bind_pure_apply]
    exact revoke_step c s.now token s.object

/-- `InMemoryServer` is an authentication service. -/
def authService : AuthService c (Hosted (InMemoryServer Bytes)) where
  api := api c
  Inv _ := True
  view s := s.object.authView
  secret s := s.object.requiredRegistrationToken
  now s := s.now
  check s := s.now
  inv_step _ _ _ := trivial
  step call s _ := (auth_step c call s).step

end Calls

end InMemoryServer

end PqChat
