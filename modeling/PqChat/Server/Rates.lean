/-
# Rates before authentication

The nine families of buckets of `TcpServer` are METERS: one for all sources, one for each source
address, one for each address with a user, for each of the three commands.  A meter is trimmed
by the checks of every command, and recorded to by the checks of its own; a command that is
refused by the global meter has been recorded by the meter of its address.

`Metered` says that every meter guards what it has let through and has kept to its limit; every
call keeps it (`metered_exec`).  It is about the window as the code computes it, where
`t + window_seconds` wraps around.  If no reading of the clock comes so near to 2^64, the spans
of the code are the spans of the clock (`preAuth_rates_bounded`); if one does, nothing is
limited (`preAuth_rates_wrap`).
-/
import PqChat.Lib.Window
import PqChat.Server.InMemory
import PqChat.Server.Tcp

namespace PqChat

open ByteString Window

namespace TcpServer

variable {σ α : Type}

/-! ## 1. Meters -/

/-- A bucket of the server, by what it counts. -/
inductive Meter
  | total (kind : PreAuth)
  | addr (kind : PreAuth) (peerAddr : Bytes)
  | addrUser (kind : PreAuth) (key : Bytes)
  deriving DecidableEq

/-- The limit of a meter. -/
def Meter.limit (config : PreAuthRateLimitConfig) : Meter → Nat
  | total kind => kind.global config
  | addr kind _ => kind.perAddr config
  | addrUser kind _ => kind.perAddrUser config

/-- The meters that `EnforcePreAuthRateLimit` trims; `EnforcePreAuthUserRateLimit` trims the
others. -/
def Meter.OfSource : Meter → Prop
  | total _ | addr _ _ => True
  | addrUser _ _ => False

instance : DecidablePred Meter.OfSource
  | .total _ => isTrue trivial
  | .addr _ _ => isTrue trivial
  | .addrUser _ _ => isFalse id

/-- The attempts that a meter keeps. -/
def bucket (s : TcpServer σ) : Meter → List UInt64
  | .total kind => (s.rates kind).total
  | .addr kind peerAddr => ((s.rates kind).byAddr.get peerAddr).getD []
  | .addrUser kind key => ((s.rates kind).byAddrUser.get key).getD []

/-- A time has left the window. -/
abbrev Expired (config : PreAuthRateLimitConfig) (t now : UInt64) : Prop :=
  t + config.windowSeconds ≤ now

/-- Every meter guards its log, and its log keeps to the limit. -/
structure Metered (config : PreAuthRateLimitConfig) (now : UInt64) (log : Meter → List UInt64)
    (s : TcpServer σ) : Prop where
  config_eq : s.preauthRateLimitConfig = config
  guards : ∀ m, Guards (Expired config) now (s.bucket m) (log m)
  bounded : ∀ m, Bounded (Expired config) (m.limit config) (log m)

variable {config : PreAuthRateLimitConfig} {now now' : UInt64} {log : Meter → List UInt64}
  {s s' : TcpServer σ}

theorem metered_init (api : Hosted σ) (config : PreAuthRateLimitConfig) (now : UInt64) :
    Metered config now (fun _ => []) (init api config) :=
  ⟨rfl, fun _ => guards_nil, fun _ => bounded_nil⟩

/-- Time passes. -/
theorem Metered.later (h : Metered config now log s) (hle : now ≤ now') :
    Metered config now' log s :=
  ⟨h.config_eq, fun m => (h.guards m).later fun _ ht => UInt64.le_trans ht hle, h.bounded⟩

/-- The meters have been left alone, or trimmed. -/
theorem Metered.trimmed (h : Metered config now log s)
    (hconfig : s'.preauthRateLimitConfig = s.preauthRateLimitConfig)
    (hbucket : ∀ m, s'.bucket m = s.bucket m ∨
      s'.bucket m = trimWindow now config.windowSeconds (s.bucket m)) :
    Metered config now log s' := by
  refine ⟨hconfig.trans h.config_eq, fun m => ?_, h.bounded⟩
  rcases hbucket m with hm | hm
  · rw [hm]
    exact h.guards m
  · rw [hm]
    exact (h.guards m).trim

/-- An attempt is recorded. -/
theorem Metered.recorded (h : Metered config now log s) {m : Meter}
    (hconfig : s'.preauthRateLimitConfig = s.preauthRateLimitConfig)
    (hbucket : s'.bucket = Function.update s.bucket m
      (trimWindow now config.windowSeconds (s.bucket m) ++ [now]))
    (hlimit : (trimWindow now config.windowSeconds (s.bucket m)).length < m.limit config) :
    Metered config now (Function.update log m (log m ++ [now])) s' := by
  have htrim : Guards (Expired config) now (trimWindow now config.windowSeconds (s.bucket m))
      (log m) := (h.guards m).trim
  refine ⟨hconfig.trans h.config_eq, fun m' => ?_, fun m' => ?_⟩
  · by_cases hm : m' = m
    · subst hm
      rw [hbucket, Function.update_self, Function.update_self]
      exact htrim.record now
    · rw [hbucket, Function.update_of_ne hm, Function.update_of_ne hm]
      exact h.guards m'
  · by_cases hm : m' = m
    · subst hm
      rw [Function.update_self]
      exact (h.bounded m').record htrim hlimit
    · rw [Function.update_of_ne hm]
      exact h.bounded m'

/-! ## 2. The checks -/

/-- `trim_map` drops the buckets it has emptied; an empty bucket and no bucket are the same. -/
theorem getD_trimMap (now windowSeconds : UInt64) (buckets : Buckets) (key : Bytes) :
    ((trimMap now windowSeconds buckets).get key).getD [] =
      trimWindow now windowSeconds ((buckets.get key).getD []) :=
  Map.getD_sweep_nonempty buckets rfl key

/-- `CheckAndRecord` refuses at the limit, and records below it. -/
theorem checkAndRecord_apply (now windowSeconds : UInt64) (limit : Nat) (errorText : String)
    (bucket : List UInt64) :
    checkAndRecord now windowSeconds limit errorText bucket =
      if (trimWindow now windowSeconds bucket).length < limit then
        (.ok (), trimWindow now windowSeconds bucket ++ [now])
      else (.error errorText, trimWindow now windowSeconds bucket) := by
  by_cases h : (trimWindow now windowSeconds bucket).length < limit
  · rw [if_pos h]
    simp [checkAndRecord, h]
  · rw [if_neg h]
    simp [checkAndRecord, Proc.bind_apply, Proc.require, h]

/-- The meter that `get` and `set` reach. -/
def Reaches (σ : Type) (get : PreAuthRates → List UInt64)
    (set : List UInt64 → PreAuthRates → PreAuthRates) (kind : PreAuth) (m : Meter) : Prop :=
  ∀ s : TcpServer σ, get (s.rates kind) = s.bucket m ∧ ∀ b,
    bucket { s with rates := Function.update s.rates kind (set b (s.rates kind)) } =
      Function.update s.bucket m b

/-- A table of buckets is changed at one key. -/
theorem getD_set (buckets : Buckets) (key key' : Bytes) (b : List UInt64) :
    ((buckets.set key b).get key').getD [] =
      if key' = key then b else (buckets.get key').getD [] := by
  rw [Map.get_set]
  split <;> rfl

theorem reaches_total (kind : PreAuth) :
    Reaches σ PreAuthRates.total (fun b rates => { rates with total := b }) kind
      (.total kind) := by
  intro s
  refine ⟨rfl, fun b => funext fun m => ?_⟩
  cases m with
  | total kind' =>
    by_cases h : kind' = kind
    · subst h
      simp [bucket]
    · simp [bucket, h]
  | addr kind' | addrUser kind' =>
    by_cases h : kind' = kind
    · subst h
      simp [bucket]
    · simp [bucket, Function.update_of_ne h]

theorem reaches_addr (kind : PreAuth) (peerAddr : Bytes) :
    Reaches σ (fun rates => (rates.byAddr.get peerAddr).getD [])
      (fun b rates => { rates with byAddr := rates.byAddr.set peerAddr b }) kind
      (.addr kind peerAddr) := by
  intro s
  refine ⟨rfl, fun b => funext fun m => ?_⟩
  cases m with
  | addr kind' a =>
    by_cases h : kind' = kind
    · subst h
      by_cases ha : a = peerAddr
      · subst ha
        simp [bucket]
      · simp [bucket, getD_set, ha]
    · simp [bucket, h]
  | total kind' | addrUser kind' =>
    by_cases h : kind' = kind
    · subst h
      simp [bucket]
    · simp [bucket, Function.update_of_ne h]

theorem reaches_addrUser (kind : PreAuth) (key : Bytes) :
    Reaches σ (fun rates => (rates.byAddrUser.get key).getD [])
      (fun b rates => { rates with byAddrUser := rates.byAddrUser.set key b }) kind
      (.addrUser kind key) := by
  intro s
  refine ⟨rfl, fun b => funext fun m => ?_⟩
  cases m with
  | addrUser kind' k =>
    by_cases h : kind' = kind
    · subst h
      by_cases hk : k = key
      · subst hk
        simp [bucket]
      · simp [bucket, getD_set, hk]
    · simp [bucket, h]
  | total kind' | addr kind' =>
    by_cases h : kind' = kind
    · subst h
      simp [bucket]
    · simp [bucket, Function.update_of_ne h]

/-- A check of one meter. -/
theorem Metered.wp_onBucket {get : PreAuthRates → List UInt64}
    {set : List UInt64 → PreAuthRates → PreAuthRates} {kind : PreAuth} {m : Meter}
    (hreach : Reaches σ get set kind m) (h : Metered config now log s) (errorText : String) :
    Proc.wp (onBucket get set kind
        (checkAndRecord now config.windowSeconds (m.limit config) errorText))
      (fun r s' => s'.api = s.api ∧ match r with
        | .ok _ => Metered config now (Function.update log m (log m ++ [now])) s'
        | .error _ => Metered config now log s') s := by
  refine Proc.wp_zoom ?_
  obtain ⟨hget, hset⟩ := hreach s
  rw [hget, Proc.wp, checkAndRecord_apply]
  split
  · rename_i hlimit
    exact ⟨rfl, h.recorded rfl (hset _) hlimit⟩
  · refine ⟨rfl, h.trimmed rfl fun m' => ?_⟩
    rw [hset]
    by_cases hm : m' = m
    · subst hm
      rw [Function.update_self]
      exact Or.inr rfl
    · rw [Function.update_of_ne hm]
      exact Or.inl rfl

/-- The time is read. -/
theorem wp_now_bind {β : Type} {f : UInt64 → Proc (TcpServer σ) β}
    {Q : Except String β → TcpServer σ → Prop}
    (h : Proc.wp (f s.api.now) Q { s with api := s.api.tick }) :
    Proc.wp (onApi nowUnix >>= f) Q s := h

/-- The check of a command: its time, and the user if it is `EnforcePreAuthUserRateLimit`. -/
structure Check where
  kind : PreAuth
  peerAddr : Bytes
  userId : Option Bytes
  time : UInt64
  deriving DecidableEq

/-- The meters a check is recorded by. -/
def Check.meters (k : Check) : List Meter :=
  match k.userId with
  | none => [.addr k.kind k.peerAddr, .total k.kind]
  | some userId => [.addrUser k.kind (k.peerAddr ++ text "|" ++ userId)]

/-- The log has grown, and if the check has passed it has grown by its time. -/
structure Recorded (k : Check) (log : Meter → List UInt64) (passed : Bool)
    (log' : Meter → List UInt64) : Prop where
  grows : ∀ m, (log m).Sublist (log' m)
  passes : passed = true → ∀ m ∈ k.meters, (log m ++ [k.time]).Sublist (log' m)

theorem sublist_update (log : Meter → List UInt64) (m m' : Meter) (t : UInt64) :
    (log m').Sublist (Function.update log m (log m ++ [t]) m') := by
  by_cases h : m' = m
  · subst h
    rw [Function.update_self]
    exact List.sublist_append_left ..
  · rw [Function.update_of_ne h]

/-- `EnforcePreAuthRateLimit`. -/
theorem enforcePreAuthRateLimit_metered {command : UInt32} {peerAddr : Bytes} {kind : PreAuth}
    (hkind : PreAuth.ofCommand command = some kind) (h : Metered config s.api.now log s) :
    Proc.wp (enforcePreAuthRateLimit command peerAddr) (fun r s' => ∃ log',
      Metered config s.api.now log' s' ∧
        Recorded ⟨kind, peerAddr, none, s.api.now⟩ log r.isOk log') s := by
  rw [enforcePreAuthRateLimit, hkind]
  obtain rfl := h.config_eq
  refine wp_now_bind (Proc.wp_get_bind (Proc.wp_modify_bind ?_))
  have h₁ : Metered s.preauthRateLimitConfig s.api.now log { s with
      api := s.api.tick
      rates := fun kind =>
        { s.rates kind with
          byAddr := trimMap s.api.now s.preauthRateLimitConfig.windowSeconds
            (s.rates kind).byAddr
          total := trimWindow s.api.now s.preauthRateLimitConfig.windowSeconds
            (s.rates kind).total } } := by
    refine h.trimmed rfl fun m => ?_
    cases m with
    | total kind' => exact Or.inr rfl
    | addr kind' a => exact Or.inr (getD_trimMap ..)
    | addrUser kind' key => exact Or.inl rfl
  refine Proc.wp_bind (h₁.wp_onBucket (reaches_addr kind peerAddr) _) ?_ ?_
  · rintro e s' ⟨-, h₂⟩
    exact ⟨log, h₂, fun _ => List.Sublist.refl _, nofun⟩
  · rintro u s' ⟨-, h₂⟩
    refine Proc.wp_mono (h₂.wp_onBucket (reaches_total kind) _) ?_
    rintro (e | u) s'' ⟨-, h₃⟩
    · exact ⟨_, h₃, fun m => sublist_update log _ m _, nofun⟩
    · refine ⟨_, h₃, fun m => ?_, fun _ m hm => ?_⟩
      · exact (sublist_update log _ m _).trans (sublist_update _ _ m _)
      · rcases List.mem_cons.mp hm with rfl | hm
        · refine List.Sublist.trans ?_ (sublist_update _ _ _ _)
          rw [Function.update_self]
        · obtain rfl := List.mem_singleton.mp hm
          rw [Function.update_self, Function.update_of_ne (by simp)]

/-- `EnforcePreAuthUserRateLimit`. -/
theorem enforcePreAuthUserRateLimit_metered {command : UInt32} {peerAddr userId : Bytes}
    {kind : PreAuth} (hkind : PreAuth.ofCommand command = some kind)
    (huser : isValidUserIdForRateLimit userId = true) (h : Metered config s.api.now log s) :
    Proc.wp (enforcePreAuthUserRateLimit command peerAddr userId) (fun r s' => ∃ log',
      Metered config s.api.now log' s' ∧
        Recorded ⟨kind, peerAddr, some userId, s.api.now⟩ log r.isOk log') s := by
  rw [enforcePreAuthUserRateLimit, hkind]
  dsimp only
  rw [if_neg (not_not_intro huser)]
  obtain rfl := h.config_eq
  refine wp_now_bind (Proc.wp_get_bind (Proc.wp_modify_bind ?_))
  have h₁ : Metered s.preauthRateLimitConfig s.api.now log { s with
      api := s.api.tick
      rates := fun kind =>
        { s.rates kind with
          byAddrUser := trimMap s.api.now s.preauthRateLimitConfig.windowSeconds
            (s.rates kind).byAddrUser } } := by
    refine h.trimmed rfl fun m => ?_
    cases m with
    | addrUser kind' key => exact Or.inr (getD_trimMap ..)
    | total kind' => exact Or.inl rfl
    | addr kind' a => exact Or.inl rfl
  refine Proc.wp_mono (h₁.wp_onBucket (reaches_addrUser kind _) _) ?_
  rintro (e | u) s' ⟨-, h₂⟩
  · exact ⟨log, h₂, fun _ => List.Sublist.refl _, nofun⟩
  · refine ⟨_, h₂, fun m => sublist_update log _ m _, fun _ m hm => ?_⟩
    obtain rfl := List.mem_singleton.mp hm
    rw [Function.update_self]

/-! ## 3. Histories of calls -/

/-- The check that a call makes at the time `now`. -/
def checkOf (now : UInt64) : Call → Option Check
  | .enforcePreAuthRateLimit command peerAddr =>
    (PreAuth.ofCommand command).map fun kind => ⟨kind, peerAddr, none, now⟩
  | .enforcePreAuthUserRateLimit command peerAddr userId =>
    if isValidUserIdForRateLimit userId then
      (PreAuth.ofCommand command).map fun kind => ⟨kind, peerAddr, some userId, now⟩
    else none
  | _ => none

section Histories

variable (api : IServerApi (Hosted σ)) (s₀ : TcpServer σ)

/-- The server after its calls, newest first. -/
def afterCalls (calls : List Call) : TcpServer σ :=
  History.after (fun c s => (exec api c s).2) s₀ calls

/-- The checks that have been made, oldest first. -/
def checks : List Call → List Check
  | [] => []
  | c :: earlier => checks earlier ++ (checkOf (afterCalls api s₀ earlier).api.now c).toList

/-- The checks that have passed, oldest first. -/
def passed : List Call → List Check
  | [] => []
  | c :: earlier => passed earlier ++
    if (exec api c (afterCalls api s₀ earlier)).1.isOk then
      (checkOf (afterCalls api s₀ earlier).api.now c).toList
    else []

end Histories

theorem checkOf_time {c : Call} {k : Check} (hk : checkOf now c = some k) : k.time = now := by
  cases c with
  | enforcePreAuthRateLimit command peerAddr =>
    obtain ⟨kind, -, rfl⟩ := Option.map_eq_some_iff.mp hk
    rfl
  | enforcePreAuthUserRateLimit command peerAddr userId =>
    rw [checkOf] at hk
    split at hk
    · obtain ⟨kind, -, rfl⟩ := Option.map_eq_some_iff.mp hk
      rfl
    · cases hk
  | _ => cases hk

/-- A call that makes a check. -/
theorem exec_metered (api : IServerApi (Hosted σ)) {c : Call} {k : Check}
    (hk : checkOf s.api.now c = some k) (h : Metered config s.api.now log s) :
    ∃ log', Metered config s.api.now log' (exec api c s).2 ∧
      Recorded k log (exec api c s).1.isOk log' := by
  cases c with
  | enforcePreAuthRateLimit command peerAddr =>
    obtain ⟨kind, hkind, rfl⟩ := Option.map_eq_some_iff.mp hk
    exact enforcePreAuthRateLimit_metered hkind h
  | enforcePreAuthUserRateLimit command peerAddr userId =>
    rw [checkOf] at hk
    split at hk
    · rename_i huser
      obtain ⟨kind, hkind, rfl⟩ := Option.map_eq_some_iff.mp hk
      exact enforcePreAuthUserRateLimit_metered hkind huser h
    · cases hk
  | _ => cases hk

/-- The other calls leave the meters alone. -/
theorem exec_unmetered {api : IServerApi (Hosted σ)} {c : Call}
    (hk : checkOf s.api.now c = none) (h : Metered config now log s) :
    Metered config now log (exec api c s).2 := by
  have hsame : ∀ a : Hosted σ, Metered config now log { s with api := a } := fun _ =>
    ⟨h.config_eq, h.guards, h.bounded⟩
  cases c with
  | enforcePreAuthRateLimit command peerAddr =>
    have hkind := Option.map_eq_none_iff.mp hk
    rw [exec, enforcePreAuthRateLimit, hkind]
    exact h
  | enforcePreAuthUserRateLimit command peerAddr userId =>
    rw [exec, enforcePreAuthUserRateLimit]
    rw [checkOf] at hk
    split at hk
    · rw [Option.map_eq_none_iff.mp hk]
      exact h
    · rename_i huser
      rcases PreAuth.ofCommand command with _ | kind
      · exact h
      · dsimp only
        rw [if_pos huser]
        exact h
  | _ => exact hsame _

/-- What a meter has let through. -/
def timesOf (m : Meter) (checks : List Check) : List UInt64 :=
  (checks.filter fun k => m ∈ k.meters).map Check.time

@[simp] theorem timesOf_nil (m : Meter) : timesOf m [] = [] := rfl

theorem timesOf_singleton (m : Meter) (k : Check) :
    timesOf m [k] = if m ∈ k.meters then [k.time] else [] := by
  rw [timesOf, List.filter_singleton]
  split <;> rename_i h <;> simp_all

theorem timesOf_append (m : Meter) (l l' : List Check) :
    timesOf m (l ++ l') = timesOf m l ++ timesOf m l' := by
  rw [timesOf, List.filter_append, List.map_append, timesOf, timesOf]

/-- **Every call keeps the meters within their limits**, as long as the clock does not go back. -/
theorem metered_afterCalls (api : IServerApi (Hosted σ)) (hosted : Hosted σ)
    (config : PreAuthRateLimitConfig) (calls : List Call)
    (hclock : ((checks api (init hosted config) calls).map Check.time).Pairwise (· ≤ ·)) :
    ∃ log, (∀ now, (∀ k ∈ checks api (init hosted config) calls, k.time ≤ now) →
        Metered config now log (afterCalls api (init hosted config) calls)) ∧
      ∀ m, (timesOf m (passed api (init hosted config) calls)).Sublist (log m) := by
  induction calls with
  | nil => exact ⟨_, fun now _ => metered_init hosted config now, fun _ => List.Sublist.refl _⟩
  | cons c earlier ih =>
    rw [checks, List.map_append, List.pairwise_append] at hclock
    obtain ⟨log, hmetered, hlog⟩ := ih hclock.1
    let s := afterCalls api (init hosted config) earlier
    rcases hk : checkOf s.api.now c with _ | k
    · refine ⟨log, fun now hnow => exec_unmetered hk (hmetered now fun k hk' => ?_), fun m => ?_⟩
      · exact hnow k (List.mem_append_left _ hk')
      · have hsame : passed api (init hosted config) (c :: earlier) =
            passed api (init hosted config) earlier := by
          rw [passed, hk]
          simp
        rw [hsame]
        exact hlog m
    · -- the time of the check is the latest
      have htime := checkOf_time hk
      have hlatest : ∀ k' ∈ checks api (init hosted config) earlier, k'.time ≤ s.api.now := by
        intro k' hk'
        rw [← htime]
        refine hclock.2.2 _ (List.mem_map_of_mem hk') _ (List.mem_map_of_mem ?_)
        rw [hk]
        exact List.mem_singleton_self k
      obtain ⟨log', hlog', hrecorded⟩ := exec_metered api hk (hmetered _ hlatest)
      refine ⟨log', fun now hnow => hlog'.later ?_, fun m => ?_⟩
      · rw [← htime]
        refine hnow k (List.mem_append_right _ ?_)
        rw [hk]
        exact List.mem_singleton_self k
      · rw [passed, hk, timesOf_append]
        split
        · rename_i hok
          rw [Option.toList_some, timesOf_singleton]
          split
          · rename_i hm
            exact ((hlog m).append_right _).trans (hrecorded.passes hok m hm)
          · rw [List.append_nil]
            exact (hlog m).trans (hrecorded.grows m)
        · rw [timesOf_nil, List.append_nil]
          exact (hlog m).trans (hrecorded.grows m)

/-! ## 4. The limits -/

/-- The check lies in the span of one window from `start` on. -/
def Check.Within (config : PreAuthRateLimitConfig) (start : Nat) (k : Check) : Prop :=
  start ≤ k.time.toNat ∧ k.time.toNat < start + config.windowSeconds.toNat

instance (config : PreAuthRateLimitConfig) (start : Nat) :
    DecidablePred (Check.Within config start) := fun _ => inferInstanceAs (Decidable (_ ∧ _))

/-- In every span of one window at most as many checks have passed as the limits say. -/
structure WithinLimits (config : PreAuthRateLimitConfig) (passed : List Check) : Prop where
  global : ∀ kind start, (passed.countP fun k => k.kind = kind ∧ k.userId = none ∧
    k.Within config start) ≤ kind.global config
  perAddr : ∀ kind peerAddr start, (passed.countP fun k => k.kind = kind ∧ k.userId = none ∧
    k.peerAddr = peerAddr ∧ k.Within config start) ≤ kind.perAddr config
  perAddrUser : ∀ kind peerAddr userId start, (passed.countP fun k => k.kind = kind ∧
    k.userId = some userId ∧ k.peerAddr = peerAddr ∧ k.Within config start) ≤
      kind.perAddrUser config

/-- The window does not wrap around at the time `t`. -/
def NoWrap (config : PreAuthRateLimitConfig) (t : UInt64) : Prop :=
  t.toNat + config.windowSeconds.toNat < 2 ^ 64

instance (config : PreAuthRateLimitConfig) : DecidablePred (NoWrap config) := fun _ =>
  inferInstanceAs (Decidable (_ < _))

/-- Where the window does not wrap around, a span of the clock is a span of the code. -/
theorem span_of_noWrap (config : PreAuthRateLimitConfig) (start : Nat) :
    Span (Expired config) fun t => decide (start ≤ t.toNat ∧
      t.toNat < start + config.windowSeconds.toNat ∧ NoWrap config t) := by
  intro t u ht hu hexpired
  simp only [decide_eq_true_eq] at ht hu
  have hle := UInt64.le_iff_toNat_le.mp hexpired
  rw [UInt64.toNat_add, Nat.mod_eq_of_lt ht.2.2] at hle
  omega

/-- What a meter bounds. -/
theorem countP_le_of_bounded {m : Meter} {passed : List Check} {p : Check → Prop}
    [DecidablePred p] (start : Nat)
    (hb : Bounded (Expired config) (m.limit config) (timesOf m passed))
    (hwrap : ∀ k ∈ passed, NoWrap config k.time)
    (hp : ∀ k, p k → m ∈ k.meters ∧ k.Within config start) :
    passed.countP p ≤ m.limit config := by
  refine le_trans ?_ (hb _ (span_of_noWrap config start))
  rw [timesOf, List.countP_map, List.countP_filter]
  refine List.countP_mono_left fun k hk hpk => ?_
  obtain ⟨hm, hlo, hhi⟩ := hp k (of_decide_eq_true hpk)
  simp [hm, hlo, hhi, hwrap k hk]

theorem withinLimits_of_bounded {passed : List Check}
    (hb : ∀ m, Bounded (Expired config) (m.limit config) (timesOf m passed))
    (hwrap : ∀ k ∈ passed, NoWrap config k.time) : WithinLimits config passed := by
  refine ⟨fun kind start => ?_, fun kind peerAddr start => ?_,
    fun kind peerAddr userId start => ?_⟩
  · refine countP_le_of_bounded start (hb (.total kind)) hwrap ?_
    rintro k ⟨rfl, huser, hwithin⟩
    exact ⟨by simp [Check.meters, huser], hwithin⟩
  · refine countP_le_of_bounded start (hb (.addr kind peerAddr)) hwrap ?_
    rintro k ⟨rfl, huser, rfl, hwithin⟩
    exact ⟨by simp [Check.meters, huser], hwithin⟩
  · refine countP_le_of_bounded start (hb (.addrUser kind (peerAddr ++ text "|" ++ userId)))
      hwrap ?_
    rintro k ⟨rfl, huser, rfl, hwithin⟩
    exact ⟨by simp [Check.meters, huser], hwithin⟩

/-- A check that has passed has been made. -/
theorem passed_subset (api : IServerApi (Hosted σ)) (s₀ : TcpServer σ) (calls : List Call) :
    passed api s₀ calls ⊆ checks api s₀ calls := by
  induction calls with
  | nil => exact List.Subset.refl _
  | cons c earlier ih =>
    refine List.append_subset.mpr ⟨List.Subset.trans ih (List.subset_append_left _ _), ?_⟩
    split
    · exact List.subset_append_right _ _
    · exact List.nil_subset _

/-- The calls that handling the frames of all connections has led to, newest first. -/
def callsOf (api : IServerApi (Hosted σ)) (peerAddr : Connection → Bytes) (s₀ : TcpServer σ)
    (actions : List Action) : List Call :=
  Pool.journal (fun i => handleFrame (peerAddr i)) (exec api) s₀ actions

/-- The server is where these calls have brought it. -/
theorem shared_afterCalls (api : IServerApi (Hosted σ)) (peerAddr : Connection → Bytes)
    (s₀ : TcpServer σ) (actions : List Action) :
    (after api peerAddr s₀ actions).shared = afterCalls api s₀ (callsOf api peerAddr s₀ actions) :=
  Pool.shared_after ..

/-- **The rates before authentication are bounded**, whatever frames arrive on whatever
connections, as long as the checks come to the lock in the order in which they have read the
clock and the window does not wrap around. -/
theorem preAuth_rates_bounded (api : IServerApi (Hosted σ)) (peerAddr : Connection → Bytes)
    (hosted : Hosted σ) (config : PreAuthRateLimitConfig) (actions : List Action)
    (hclock : ((checks api (init hosted config)
      (callsOf api peerAddr (init hosted config) actions)).map Check.time).Pairwise (· ≤ ·))
    (hwrap : ∀ k ∈ checks api (init hosted config)
      (callsOf api peerAddr (init hosted config) actions), NoWrap config k.time) :
    WithinLimits config
      (passed api (init hosted config) (callsOf api peerAddr (init hosted config) actions)) := by
  obtain ⟨log, hmetered, hlog⟩ := metered_afterCalls api hosted config _ hclock
  -- the limits do not depend on the time at which the meters are looked at
  have hbounded : ∀ m, Bounded (Expired config) (m.limit config) (log m) := by
    refine (hmetered 18446744073709551615 fun k _ => ?_).bounded
    exact UInt64.le_iff_toNat_le.mpr (Nat.le_of_lt_succ k.time.toNat_lt)
  refine withinLimits_of_bounded (fun m => (hbounded m).sublist (hlog m)) fun k hk => ?_
  exact hwrap k (passed_subset _ _ _ hk)

namespace Flood

/-- A host whose clock stands at 5. -/
def host : Host := ⟨fun _ => 5, 0, fun n => some fun i => UInt8.ofNat (n + i), 0⟩

def hosted : Hosted (InMemoryServer Bytes) := ⟨host, InMemoryServer.init []⟩

def api : IServerApi (Hosted (InMemoryServer Bytes)) :=
  InMemoryServer.api ServerCrypto.transparent

/-- One registration in a window of the given length. -/
def limits (windowSeconds : UInt64) : PreAuthRateLimitConfig :=
  { windowSeconds, registerGlobal := 1, registerPerAddr := 1, registerPerAddrUser := 1 }

/-- A connection starts a registration, and is answered. -/
def attempt (i : Connection) : List Action :=
  [.run i, .run i, .start i ⟨TcpCommand.kRegisterTransportIdentity, []⟩]

/-- The calls of two attempts, one after the other. -/
def twice (windowSeconds : UInt64) : List Call :=
  callsOf api (fun _ => text "10.0.0.1") (init hosted (limits windowSeconds))
    (attempt 1 ++ attempt 0)

end Flood

theorem preAuth_rates_bounded_flood :
    (passed Flood.api (init Flood.hosted (Flood.limits 60)) (Flood.twice 60)).length = 1 ∧
      WithinLimits (Flood.limits 60)
        (passed Flood.api (init Flood.hosted (Flood.limits 60)) (Flood.twice 60)) :=
  ⟨by decide +kernel, preAuth_rates_bounded Flood.api _ _ _ _ (by decide +kernel)
    (by decide +kernel)⟩

/-- **With a window that wraps around nothing is limited.** -/
theorem preAuth_rates_wrap : ∃ windowSeconds : UInt64, 0 < windowSeconds ∧
    ((checks Flood.api (init Flood.hosted (Flood.limits windowSeconds))
      (Flood.twice windowSeconds)).map Check.time).Pairwise (· ≤ ·) ∧
    ¬ WithinLimits (Flood.limits windowSeconds)
      (passed Flood.api (init Flood.hosted (Flood.limits windowSeconds))
        (Flood.twice windowSeconds)) := by
  refine ⟨18446744073709551615, by decide, by decide +kernel, fun h => ?_⟩
  have hglobal := h.global .register 5
  revert hglobal
  decide +kernel

end TcpServer

end PqChat
