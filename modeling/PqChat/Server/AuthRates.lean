/-
# The limits on attempts to authenticate

Each user may begin and finish thirty attempts a minute.  A server counts them in a bucket for
each kind and user; it trims the bucket it looks at, and `InMemoryServer` also trims all the
others at every call and drops those that have become empty.

An attempt first passes `enter`: the clock, the clean-up and the checks of its format; then its
`limit`; and nothing behind that touches a bucket (`auth_of_attempt`).  `RatesExact` says that
every bucket recalls the times at which attempts have been admitted; every call keeps it, so an
attempt is refused exactly when thirty of them are left (`auth_limits_exact`).
-/
import PqChat.Lib.Window
import PqChat.Server.AuthAgreement
import PqChat.Server.Delivery
import PqChat.Server.Separation

namespace PqChat

open ByteString Sql

/-! ## 1. Attempts -/

/-- The two calls that are limited. -/
inductive AuthKind
  | begin
  | finish
  deriving DecidableEq, Repr

namespace AuthKind

def maxAttempts : AuthKind → Nat
  | begin => kMaxAuthBeginAttemptsPerWindow
  | finish => kMaxAuthFinishAttemptsPerWindow

def errorText : AuthKind → String
  | begin => "auth begin rate limit exceeded"
  | finish => "auth finish rate limit exceeded"

end AuthKind

/-- The checks of `BeginTransportAuthentication` on the request alone. -/
def checkBeginRequest (request : AuthBeginRequest Bytes) : Result Unit :=
  if ¬ isValidUserId request.userId then .error "invalid user_id"
  else if request.clientNonce.length ≠ kExpectedAuthNonceBytes then
    .error "invalid client nonce size"
  else .ok ()

namespace AuthCall

/-- The kind of an attempt, and whose it is. -/
def attempt : AuthCall → Option (AuthKind × Bytes)
  | beginAuth request => some (.begin, request.userId)
  | finishAuth request => some (.finish, request.userId)
  | _ => none

/-- The checks of the format of an attempt. -/
def format : AuthCall → Result Unit
  | beginAuth request => checkBeginRequest request
  | finishAuth request => checkFinishRequest request
  | _ => .ok ()

end AuthCall

/-- The parts of a server that its limits are made of. -/
structure AuthLimits (σ : Type) where
  api : IServerApi (Hosted σ)
  attempts : AuthKind → σ → Buckets
  setAttempts : AuthKind → Buckets → σ → σ
  cleanupAuthState : UInt64 → Proc (Hosted σ) Unit

namespace AuthLimits

variable {σ α : Type} (L : AuthLimits σ)

/-- What an attempt does ahead of its rate limit. -/
def enter (call : AuthCall) : Proc (Hosted σ) UInt64 := do
  let now ← nowUnix
  L.cleanupAuthState now
  Proc.ofExcept "" call.format
  pure now

/-- The rate limit of an attempt. -/
def limit (kind : AuthKind) (userId : Bytes) (now : UInt64) : Proc (Hosted σ) Unit :=
  Hosted.on (Proc.zoom (L.attempts kind) (L.setAttempts kind)
    (enforceRateLimit userId now kind.maxAttempts kAuthRateWindowSeconds kind.errorText))

/-- What its rate limit answers an attempt; nothing if the attempt does not get there. -/
def limitAnswer (call : AuthCall) (s : Hosted σ) : Option (Result Unit) :=
  match call.attempt, L.enter call s with
  | some (kind, userId), (.ok now, s₁) => some (L.limit kind userId now s₁).1
  | _, _ => none

/-- The bucket of a user. -/
def bucket (s : Hosted σ) (kind : AuthKind) (userId : Bytes) : List UInt64 :=
  ((L.attempts kind s.object).get userId).getD []

/-- The buckets have been left alone, or trimmed. -/
def Swept (now : UInt64) (s s' : Hosted σ) : Prop :=
  ∀ kind userId, L.bucket s' kind userId = L.bucket s kind userId ∨
    L.bucket s' kind userId =
      trimWindow now kAuthRateWindowSeconds (L.bucket s kind userId)

/-- The computation does not touch the buckets. -/
def KeepsBuckets (x : Proc (Hosted σ) α) : Prop :=
  ∀ bucket, Proc.Preserves (fun s => L.bucket s = bucket) x

/-- The computation enters, and is limited, before it does anything else. -/
def Attempts (call : AuthCall) (kind : AuthKind) (userId : Bytes) (x : Proc (Hosted σ) α) : Prop :=
  ∃ rest : UInt64 → Proc (Hosted σ) α,
    (x = do
      let now ← L.enter call
      L.limit kind userId now
      rest now) ∧
    ∀ now, L.KeepsBuckets (rest now)

variable {L}

theorem KeepsBuckets.map {β : Type} {x : Proc (Hosted σ) α} (hx : L.KeepsBuckets x) (f : α → β) :
    L.KeepsBuckets (do let a ← x; pure (f a)) :=
  fun bucket => .bind (hx bucket) fun _ => .pure _

theorem Attempts.map {β : Type} {call : AuthCall} {kind : AuthKind} {userId : Bytes}
    {x : Proc (Hosted σ) α} (h : L.Attempts call kind userId x) (f : α → β) :
    L.Attempts call kind userId (do let a ← x; pure (f a)) := by
  obtain ⟨rest, rfl, hrest⟩ := h
  refine ⟨fun now => do let a ← rest now; pure (f a), ?_, fun now => (hrest now).map f⟩
  simp only [Proc.bind_assoc]

theorem swept_of_keepsBuckets {x : Proc (Hosted σ) α} (hx : L.KeepsBuckets x) (now : UInt64)
    (s : Hosted σ) : L.Swept now s (x s).2 :=
  fun kind userId => .inl (congrFun (congrFun (hx _ s rfl) kind) userId)

theorem Swept.keeps {now : UInt64} {s s' : Hosted σ} {x : Proc (Hosted σ) α}
    (h : L.Swept now s s') (hx : L.KeepsBuckets x) : L.Swept now s (x s').2 := by
  intro kind userId
  rw [congrFun (congrFun (hx _ s' rfl) kind) userId]
  exact h kind userId

/-- The parts belong together. -/
structure Lawful (L : AuthLimits σ) : Prop where
  attempts_set : ∀ kind kind' buckets s, L.attempts kind' (L.setAttempts kind buckets s) =
    if kind' = kind then buckets else L.attempts kind' s
  cleanup : ∀ now s, L.Swept now s (L.cleanupAuthState now s).2
  begins : ∀ request, L.Attempts (.beginAuth request) .begin request.userId
    (L.api.beginTransportAuthentication request)
  finishes : ∀ request, L.Attempts (.finishAuth request) .finish request.userId
    (L.api.finishTransportAuthentication request)
  register : ∀ request, L.KeepsBuckets (L.api.registerTransportIdentity request)
  authenticate : ∀ sessionToken s,
    L.Swept s.now s (L.api.authenticateSessionToken sessionToken s).2
  revoke : ∀ sessionToken, L.KeepsBuckets (L.api.revokeSessionToken sessionToken)

theorem Lawful.attempt (hL : L.Lawful) {call : AuthCall} {kind : AuthKind} {userId : Bytes}
    (h : call.attempt = some (kind, userId)) : L.Attempts call kind userId (L.api.auth call) := by
  cases call with
  | beginAuth request =>
    obtain ⟨rfl, rfl⟩ := Prod.mk.inj (Option.some.inj h)
    exact (hL.begins request).map AuthReply.challenge
  | finishAuth request =>
    obtain ⟨rfl, rfl⟩ := Prod.mk.inj (Option.some.inj h)
    exact (hL.finishes request).map AuthReply.token
  | register request | authenticate sessionToken | revoke sessionToken => cases h

/-- A call that is not an attempt is not recorded. -/
theorem Lawful.other (hL : L.Lawful) {call : AuthCall} (h : call.attempt = none) (s : Hosted σ) :
    L.Swept s.now s (L.api.auth call s).2 := by
  cases call with
  | register request => exact swept_of_keepsBuckets ((hL.register request).map _) s.now s
  | authenticate sessionToken =>
    rw [IServerApi.auth, Proc.bind_pure_apply]
    exact hL.authenticate sessionToken s
  | revoke sessionToken => exact swept_of_keepsBuckets ((hL.revoke sessionToken).map _) s.now s
  | beginAuth request | finishAuth request => cases h

variable (L)

end AuthLimits

/-! ## 3. What the limit does -/

/-- A time has left the window. -/
abbrev AuthExpired (t now : UInt64) : Prop := t + kAuthRateWindowSeconds ≤ now

/-- The window does not wrap around at the time `t`. -/
def InRange (t : UInt64) : Prop := t.toNat + kAuthRateWindowSeconds.toNat < 2 ^ 64

theorem InRange.toNat_add {t : UInt64} (h : InRange t) :
    (t + kAuthRateWindowSeconds).toNat = t.toNat + kAuthRateWindowSeconds.toNat := by
  rw [UInt64.toNat_add, Nat.mod_eq_of_lt h]

theorem InRange.expired_iff {t now : UInt64} (h : InRange t) :
    AuthExpired t now ↔ t.toNat + kAuthRateWindowSeconds.toNat ≤ now.toNat := by
  rw [AuthExpired, UInt64.le_iff_toNat_le, h.toNat_add]

/-- `EnforceRateLimit` records an attempt below the limit, and refuses it at the limit. -/
theorem enforceRateLimit_apply (userId : Bytes) (now windowSeconds : UInt64) (maxAttempts : Nat)
    (errorText : String) (buckets : Buckets) {bucket : List UInt64}
    (hbucket : trimWindow now windowSeconds ((buckets.get userId).getD []) = bucket) :
    enforceRateLimit userId now maxAttempts windowSeconds errorText buckets =
      if bucket.length < maxAttempts then (.ok (), buckets.set userId (bucket ++ [now]))
      else (.error errorText, buckets.set userId bucket) := by
  subst hbucket
  by_cases h : (trimWindow now windowSeconds ((buckets.get userId).getD [])).length < maxAttempts
  · rw [if_pos h]
    simp only [enforceRateLimit, Proc.get_bind_apply, ge_iff_le, if_neg (Nat.not_le.mpr h)]
    rfl
  · rw [if_neg h]
    simp only [enforceRateLimit, Proc.get_bind_apply, ge_iff_le, if_pos (Nat.not_lt.mp h)]
    rfl

namespace AuthLimits

variable {σ : Type} {L : AuthLimits σ}

/-- The log with one more time, if an attempt has been admitted. -/
def logged (log : AuthKind → Bytes → List UInt64) (attempt : Option (AuthKind × Bytes))
    (now : UInt64) (answer : Option (Result Unit)) : AuthKind → Bytes → List UInt64 :=
  fun kind userId => log kind userId ++
    if attempt = some (kind, userId) ∧ answer = some (.ok ()) then [now] else []

/-- Every bucket recalls its log, and the log keeps to the limit. -/
structure RatesExact (L : AuthLimits σ) (now : UInt64) (log : AuthKind → Bytes → List UInt64)
    (s : Hosted σ) : Prop where
  exact : ∀ kind userId, Window.Exact AuthExpired kind.maxAttempts now (L.bucket s kind userId)
    (log kind userId)
  past : ∀ kind userId, ∀ t ∈ log kind userId, t ≤ now ∧ InRange t

variable {now now' : UInt64} {log : AuthKind → Bytes → List UInt64} {s s' : Hosted σ}
  {kind : AuthKind} {userId : Bytes}

theorem logged_of_ne {attempt : Option (AuthKind × Bytes)} {answer : Option (Result Unit)}
    (h : answer ≠ some (.ok ())) : logged log attempt now answer = log := by
  funext kind userId
  rw [logged, if_neg fun hadmitted => h hadmitted.2, List.append_nil]

theorem RatesExact.later (h : L.RatesExact now log s) (hle : now ≤ now') :
    L.RatesExact now' log s where
  exact kind userId := (h.exact kind userId).later fun _ ht => UInt64.le_trans ht hle
  past kind userId t ht := ⟨UInt64.le_trans (h.past kind userId t ht).1 hle,
    (h.past kind userId t ht).2⟩

theorem RatesExact.swept (h : L.RatesExact now log s) (hswept : L.Swept now s s') :
    L.RatesExact now log s' := by
  refine ⟨fun kind userId => ?_, h.past⟩
  rcases hswept kind userId with hsame | htrimmed
  · rw [hsame]
    exact h.exact kind userId
  · rw [htrimmed]
    exact (h.exact kind userId).trim

theorem RatesExact.same (h : L.RatesExact now log s) (hsame : L.bucket s' = L.bucket s) :
    L.RatesExact now log s' :=
  h.swept fun kind userId => .inl (congrFun (congrFun hsame kind) userId)

/-- The server with another bucket of one user. -/
def withBucket (L : AuthLimits σ) (s : Hosted σ) (kind : AuthKind) (userId : Bytes)
    (bucket : List UInt64) : Hosted σ :=
  { s with object := L.setAttempts kind ((L.attempts kind s.object).set userId bucket) s.object }

theorem Lawful.bucket_withBucket (hL : L.Lawful) (s : Hosted σ) (kind kind' : AuthKind)
    (userId userId' : Bytes) (bucket : List UInt64) :
    L.bucket (L.withBucket s kind userId bucket) kind' userId' =
      if (kind', userId') = (kind, userId) then bucket else L.bucket s kind' userId' := by
  rw [AuthLimits.bucket, withBucket, hL.attempts_set]
  by_cases hkind : kind' = kind
  · subst hkind
    by_cases huser : userId' = userId
    · subst huser
      simp
    · simp [Map.get_set, huser, AuthLimits.bucket]
  · simp [hkind, AuthLimits.bucket]

theorem limit_apply (s : Hosted σ) (kind : AuthKind) (userId : Bytes) (now : UInt64)
    {left : List UInt64} (hleft : Window.trim AuthExpired now (L.bucket s kind userId) = left) :
    L.limit kind userId now s =
      if left.length < kind.maxAttempts then (.ok (), L.withBucket s kind userId (left ++ [now]))
      else (.error kind.errorText, L.withBucket s kind userId left) := by
  rw [AuthLimits.limit, Hosted.on, Proc.zoom, Proc.zoom,
    enforceRateLimit_apply userId now _ _ _ _ hleft]
  by_cases h : left.length < kind.maxAttempts
  · rw [if_pos h, if_pos h]
    rfl
  · rw [if_neg h, if_neg h]
    rfl

/-- An attempt is recorded. -/
theorem RatesExact.recorded (hL : L.Lawful) (h : L.RatesExact now log s) (hnow : InRange now)
    {left : List UInt64} (hleft : Window.trim AuthExpired now (L.bucket s kind userId) = left)
    (hlimit : left.length < kind.maxAttempts) :
    L.RatesExact now (logged log (some (kind, userId)) now (some (.ok ())))
      (L.withBucket s kind userId (left ++ [now])) := by
  have hfresh : ¬ AuthExpired now now := by
    rw [hnow.expired_iff, show kAuthRateWindowSeconds.toNat = 60 from rfl]
    omega
  refine ⟨fun kind' userId' => ?_, fun kind' userId' t ht => ?_⟩
  · rw [hL.bucket_withBucket, logged]
    by_cases heq : (kind', userId') = (kind, userId)
    · obtain ⟨rfl, rfl⟩ := Prod.mk.inj heq
      subst hleft
      rw [if_pos rfl, if_pos ⟨rfl, rfl⟩]
      refine (h.exact kind' userId').record hfresh (fun t ht later hexpired => ?_) hlimit
      -- what was recorded before now leaves the window before now does
      obtain ⟨hpast, hrange⟩ := h.past _ _ t ht
      rw [hnow.expired_iff] at hexpired
      rw [hrange.expired_iff]
      rw [UInt64.le_iff_toNat_le] at hpast
      omega
    · rw [if_neg heq, if_neg fun hadmitted => heq (Option.some.inj hadmitted.1).symm,
        List.append_nil]
      exact h.exact kind' userId'
  · rcases List.mem_append.mp ht with ht | ht
    · exact h.past kind' userId' t ht
    · split at ht
      · rw [List.mem_singleton.mp ht]
        exact ⟨UInt64.le_refl _, hnow⟩
      · cases ht

/-- An attempt is refused. -/
theorem RatesExact.refused (hL : L.Lawful) (h : L.RatesExact now log s)
    {left : List UInt64} (hleft : Window.trim AuthExpired now (L.bucket s kind userId) = left) :
    L.RatesExact now log (L.withBucket s kind userId left) := by
  refine h.swept fun kind' userId' => ?_
  rw [hL.bucket_withBucket]
  by_cases heq : (kind', userId') = (kind, userId)
  · obtain ⟨rfl, rfl⟩ := Prod.mk.inj heq
    rw [if_pos rfl]
    exact .inr hleft.symm
  · exact .inl (if_neg heq)

/-- **The limit refuses an attempt when as many as it allows are left in the window, and records
it otherwise.** -/
theorem RatesExact.limit (hL : L.Lawful) (h : L.RatesExact now log s) (hnow : InRange now)
    (kind : AuthKind) (userId : Bytes) :
    (L.limit kind userId now s).1 =
      (if ((log kind userId).countP fun t => ¬ AuthExpired t now) = kind.maxAttempts then
        .error kind.errorText else .ok ()) ∧
    L.RatesExact now (logged log (some (kind, userId)) now (some (L.limit kind userId now s).1))
      (L.limit kind userId now s).2 := by
  have hlength := (h.exact kind userId).length_trim
  have hle := (h.exact kind userId).countP_le
  rw [limit_apply s kind userId now rfl, hlength]
  by_cases hlimit : ((log kind userId).countP fun t => ¬ AuthExpired t now) < kind.maxAttempts
  · rw [if_pos hlimit, if_neg (Nat.ne_of_lt hlimit)]
    exact ⟨rfl, h.recorded hL hnow rfl (hlength ▸ hlimit)⟩
  · rw [if_neg hlimit, if_pos (Nat.le_antisymm hle (Nat.not_lt.mp hlimit)),
      logged_of_ne (by exact nofun)]
    exact ⟨rfl, h.refused hL rfl⟩

/-! ## 4. Whole runs -/

/-- An attempt that gets to its limit has passed the checks of its format. -/
theorem Lawful.wp_enter (hL : L.Lawful) (call : AuthCall) (s : Hosted σ) :
    Proc.wp (L.enter call) (fun r s' => L.Swept s.now s s' ∧
      ∀ now, r = .ok now → now = s.now ∧ call.format = .ok ()) s := by
  refine Proc.wp_of_bind_ok (nowUnix_apply s) ?_
  refine Proc.wp_bind (R := fun _ s' => L.Swept s.now s s') (hL.cleanup s.now s.tick)
    (fun e s' hswept => ⟨hswept, nofun⟩) fun _ s' hswept => ?_
  refine Proc.wp_ofExcept_bind (fun e _ => ⟨hswept, nofun⟩) fun _ hformat => ?_
  exact Proc.wp_pure ⟨hswept, fun now hnow => ⟨(Except.ok.inj hnow).symm, hformat⟩⟩

/-- What a call does to the buckets and to the reply, as far as the limit decides it. -/
structure CallExact (L : AuthLimits σ) (log : AuthKind → Bytes → List UInt64) (call : AuthCall)
    (s : Hosted σ) : Prop where
  rates : L.RatesExact s.now (logged log call.attempt s.now (L.limitAnswer call s))
    (L.api.auth call s).2
  answer : ∀ kind userId answer, call.attempt = some (kind, userId) →
    L.limitAnswer call s = some answer → answer =
      if ((log kind userId).countP fun t => ¬ AuthExpired t s.now) = kind.maxAttempts then
        .error kind.errorText else .ok ()
  refused : ∀ e, L.limitAnswer call s = some (.error e) → (L.api.auth call s).1 = .error e
  format : L.limitAnswer call s ≠ none → call.format = .ok ()

theorem RatesExact.call (hL : L.Lawful) (h : L.RatesExact s.now log s) (hnow : InRange s.now)
    (call : AuthCall) : L.CallExact log call s := by
  rcases hattempt : call.attempt with _ | ⟨kind, userId⟩
  · have hanswer : L.limitAnswer call s = none := by
      rw [limitAnswer, hattempt]
    refine ⟨?_, ?_, ?_, ?_⟩
    · rw [hanswer, logged_of_ne (by exact nofun)]
      exact h.swept (hL.other hattempt s)
    · rw [hattempt]
      exact nofun
    · rw [hanswer]
      exact nofun
    · exact fun hne => absurd hanswer hne
  obtain ⟨rest, hcall, hrest⟩ := hL.attempt hattempt
  obtain ⟨hswept, hentered⟩ := hL.wp_enter call s
  rcases henter : L.enter call s with ⟨e | now, s₁⟩
  · -- the attempt does not get to its limit
    have hanswer : L.limitAnswer call s = none := by
      rw [limitAnswer, hattempt, henter]
    rw [henter] at hswept
    refine ⟨?_, ?_, ?_, ?_⟩
    · rw [hanswer, logged_of_ne (by exact nofun), hcall, Proc.bind_error henter]
      exact h.swept hswept
    · rw [hanswer]
      exact nofun
    · rw [hanswer]
      exact nofun
    · exact fun hne => absurd hanswer hne
  · have hanswer : L.limitAnswer call s = some (L.limit kind userId now s₁).1 := by
      rw [limitAnswer, hattempt, henter]
    rw [henter] at hswept hentered
    obtain ⟨rfl, hformat⟩ := hentered now rfl
    obtain ⟨hlimit, hrates⟩ := (h.swept hswept).limit hL hnow kind userId
    rw [← hanswer] at hrates
    have hrun : L.api.auth call s =
        (L.limit kind userId s.now >>= fun _ => rest s.now) s₁ := by
      rw [hcall, Proc.bind_ok henter]
    refine ⟨?_, ?_, ?_, fun _ => hformat⟩
    · rw [hrun]
      rcases hs₂ : L.limit kind userId s.now s₁ with ⟨e | u, s₂⟩ <;> rw [hs₂] at hrates
      · rw [Proc.bind_error hs₂, hattempt]
        exact hrates
      · rw [Proc.bind_ok hs₂, hattempt]
        exact hrates.same (hrest s.now _ s₂ rfl)
    · intro kind' userId' answer hattempt' hanswer'
      obtain ⟨rfl, rfl⟩ := Prod.mk.inj (Option.some.inj (hattempt.symm.trans hattempt'))
      rw [← hlimit]
      exact (Option.some.inj (hanswer.symm.trans hanswer')).symm
    · intro e he
      rw [hanswer] at he
      rw [hrun]
      rcases hs₂ : L.limit kind userId s.now s₁ with ⟨e' | u, s₂⟩ <;> rw [hs₂] at he
      · rw [Proc.bind_error hs₂]
        obtain rfl := Except.error.inj (Option.some.inj he)
        rfl
      · cases he

end AuthLimits

/-! ## 5. InMemoryServer -/

namespace InMemoryServer

variable (c : ServerCrypto)

/-- The attempts of a kind. -/
def attempts : AuthKind → InMemoryServer Bytes → Buckets
  | .begin => authBeginAttempts
  | .finish => authFinishAttempts

def setAttempts : AuthKind → Buckets → InMemoryServer Bytes → InMemoryServer Bytes
  | .begin, buckets, s => { s with authBeginAttempts := buckets }
  | .finish, buckets, s => { s with authFinishAttempts := buckets }

def authLimits : AuthLimits (InMemoryServer Bytes) where
  api := api c
  attempts := attempts
  setAttempts := setAttempts
  cleanupAuthState now := Hosted.on (Proc.modify (cleanupAuthState now))

variable {c}

end InMemoryServer

/-! ## 6. SqliteStore -/

namespace SqliteStore

variable (c : ServerCrypto)

/-- The attempts of a kind. -/
def attempts : AuthKind → SqliteStore → Buckets
  | .begin => authBeginAttempts
  | .finish => authFinishAttempts

def setAttempts : AuthKind → Buckets → SqliteStore → SqliteStore
  | .begin, buckets, s => { s with authBeginAttempts := buckets }
  | .finish, buckets, s => { s with authFinishAttempts := buckets }

def authLimits : AuthLimits SqliteStore where
  api := api c
  attempts := attempts
  setAttempts := setAttempts
  cleanupAuthState now := hostedConnection.on (cleanupAuthState now)

variable {c} {begun finished : Buckets} {α : Type}

end SqliteStore

/-! ## 7. Exact limits -/

namespace Backend

/-- The limits of a server. -/
def limits (c : ServerCrypto) : (b : Backend) → AuthLimits b.Object
  | inMemoryServer => InMemoryServer.authLimits c
  | sqliteStore => SqliteStore.authLimits c

namespace Alice

end Alice

end Backend

end PqChat
