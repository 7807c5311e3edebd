/-
# A server that is shared

A client is not alone with its server.  Before each of its calls others may have made theirs,
and its own call may get lost: the request on the way there, or the answer on the way back.
`Shared B S` is a server of any kind together with the two TAPES that decide this, and
`sharedApi` are the four calls as the client sees them.

The field `log` is a GHOST: what the server has done, newest first, with its state before and
after.  No call reads it.

A run (`SharedRun`) is made of calls of `Create`, of the member functions of the client, and of
calls of the server by others in between.
-/
import PqChat.Client.Publishing

set_option linter.unusedSectionVars false

namespace PqChat

variable {B S α : Type}

/-! ## 1. The calls -/

/-- A call of the server by someone else. -/
inductive Visit (B : Type)
  | publish (bundle : PrekeyBundle B)
  | acquire (userId : B)
  | enqueue (userId : B) (envelope : Envelope B)
  | drain (userId : B) (ackUpTo : Option UInt64)

/-- What becomes of a call. -/
inductive Fate
  | answered
  | requestLost (e : String)
  | answerLost (e : String)

/-- What a call has led to. -/
inductive Deed (B : Type)
  | published (bundle : PrekeyBundle B)
  | acquired (userId : B) (bundle : PrekeyBundle B)
  | other
  deriving DecidableEq

/-- An entry of the log. -/
structure Entry (B S : Type) where
  before : S
  after : S
  deed : Deed B

/-- A server with what is going on around it. -/
structure Shared (B S : Type) where
  base : S
  visits : Nat → List (Visit B)
  fate : Nat → Fate
  calls : Nat
  log : List (Entry B S)

/-- A bundle that was accepted. -/
def Deed.ofPublish (bundle : PrekeyBundle B) : Result Unit → Deed B
  | .ok _ => .published bundle
  | .error _ => .other

/-- A bundle that was handed out. -/
def Deed.ofAcquire (userId : B) : Result (PrekeyBundle B) → Deed B
  | .ok bundle => .acquired userId bundle
  | .error _ => .other

namespace Shared

/-- The server does something. -/
def exec (deed : Result α → Deed B) (x : Proc S α) : Proc (Shared B S) α := fun s =>
  ((x s.base).1,
    { s with base := (x s.base).2, log := ⟨s.base, (x s.base).2, deed (x s.base).1⟩ :: s.log })

/-- Someone else's call. -/
def visit (api : ServerApi B S) (s : Shared B S) : Visit B → Shared B S
  | .publish bundle => (exec (.ofPublish bundle) (api.publishBundle bundle) s).2
  | .acquire userId => (exec (.ofAcquire userId) (api.acquireBundleForSession userId) s).2
  | .enqueue userId envelope =>
    (exec (fun _ => .other) (api.enqueueEnvelope userId envelope) s).2
  | .drain userId ackUpTo => (exec (fun _ => .other) (api.drainInbox userId ackUpTo) s).2

/-- The calls of the others that come first. -/
def visited (api : ServerApi B S) (s : Shared B S) : Shared B S :=
  { (s.visits s.calls).foldl (visit api) s with calls := s.calls + 1 }

/-- A call of the client. -/
def call (api : ServerApi B S) (deed : Result α → Deed B) (x : Proc S α) :
    Proc (Shared B S) α := fun s =>
  match s.fate s.calls with
  | .answered => exec deed x (s.visited api)
  | .requestLost e => (.error e, s.visited api)
  | .answerLost e => (.error e, (exec deed x (s.visited api)).2)

end Shared

/-- The calls as the client sees them. -/
def sharedApi (api : ServerApi B S) : ServerApi B (Shared B S) where
  publishBundle bundle := Shared.call api (.ofPublish bundle) (api.publishBundle bundle)
  acquireBundleForSession userId :=
    Shared.call api (.ofAcquire userId) (api.acquireBundleForSession userId)
  enqueueEnvelope userId envelope :=
    Shared.call api (fun _ => .other) (api.enqueueEnvelope userId envelope)
  drainInbox userId ackUpTo := Shared.call api (fun _ => .other) (api.drainInbox userId ackUpTo)

/-! ## 2. Runs -/

/-- Others neither publish for the user nor empty the user's mailbox: the server lets nobody do
that but the user. -/
def Visit.Foreign (userId : B) : Visit B → Prop
  | .publish bundle => bundle.userId ≠ userId
  | .drain u _ => u ≠ userId
  | .acquire _ | .enqueue _ _ => True

/-- All that comes on the tape is foreign. -/
def Shared.Foreign (userId : B) (s : Shared B S) : Prop := ∀ n, ∀ v ∈ s.visits n, v.Foreign userId

variable [ByteString B] [DecidableEq B]

/-- The runs of the client of a user from a given start.  `G` is a condition on each of its
calls; the flag says whether the last `Create` succeeded. -/
inductive SharedRun (P : Crypto B → Prop) (api : ServerApi B S)
    (G : Crypto B → Op B → World B (Shared B S) → Prop) (userId : B)
    (w₀ : World B (Shared B S)) : Bool → World B (Shared B S) → Prop
  | start : SharedRun P api G userId w₀ false w₀
  | create {alive : Bool} {w : World B (Shared B S)} {c : Crypto B} (hc : P c)
    (h : SharedRun P api G userId w₀ alive w) :
    SharedRun P api G userId w₀ (create c userId w).1.isOk (create c userId w).2
  | op {w : World B (Shared B S)} {c : Crypto B} (hc : P c) (op : Op B) (hG : G c op w)
    (h : SharedRun P api G userId w₀ true w) :
    SharedRun P api G userId w₀ true (op.run c (sharedApi api) w).2
  | visit {alive : Bool} {w : World B (Shared B S)} (v : Visit B) (hv : v.Foreign userId)
    (h : SharedRun P api G userId w₀ alive w) :
    SharedRun P api G userId w₀ alive { w with server := w.server.visit api v }

/-! ## 3. Invariants -/

/-- What a property of the server needs to be kept by all but the bundles of the client. -/
structure Shared.Kept (api : ServerApi B S) (userId : B) (J : Shared B S → Prop) : Prop where
  calls : ∀ s n, J s → J { s with calls := n }
  visit : ∀ s v, v.Foreign userId → J s → J (s.visit api v)
  acquire : ∀ u s, J s →
    J (exec (.ofAcquire u) (api.acquireBundleForSession u) s).2
  enqueue : ∀ u e s, J s → J (exec (fun _ => .other) (api.enqueueEnvelope u e) s).2
  drain : ∀ u a s, J s → J (exec (fun _ => .other) (api.drainInbox u a) s).2

namespace Shared

variable {api : ServerApi B S} {userId : B} {J : Shared B S → Prop}

@[simp] theorem exec_visits (deed : Result α → Deed B) (x : Proc S α) (s : Shared B S) :
    (exec deed x s).2.visits = s.visits := rfl

@[simp] theorem visit_visits (api : ServerApi B S) (s : Shared B S) (v : Visit B) :
    (s.visit api v).visits = s.visits := by
  cases v <;> rfl

theorem Kept.foldl (h : Kept api userId J) {visits : List (Visit B)} :
    ∀ {s : Shared B S}, (∀ v ∈ visits, v.Foreign userId) → J s →
      J (visits.foldl (Shared.visit api) s) := by
  induction visits with
  | nil => exact fun _ hs => hs
  | cons v visits ih =>
    intro s hv hs
    exact ih (fun v' h' => hv v' (List.mem_cons_of_mem _ h'))
      (h.visit s v (hv v (List.mem_cons_self ..)) hs)

theorem visits_foldl (visits : List (Visit B)) (s : Shared B S) :
    (visits.foldl (Shared.visit api) s).visits = s.visits := by
  induction visits generalizing s with
  | nil => rfl
  | cons v visits ih => rw [List.foldl_cons, ih, visit_visits]

@[simp] theorem visited_visits (s : Shared B S) : (s.visited api).visits = s.visits :=
  visits_foldl _ s

theorem Kept.visited (h : Kept api userId J) {s : Shared B S} (hv : s.Foreign userId)
    (hs : J s) : J (s.visited api) :=
  h.calls _ _ (h.foldl (hv _) hs)

/-- A call of the client keeps what the others and its own effect keep. -/
theorem Kept.call (h : Kept api userId J) {deed : Result α → Deed B} {x : Proc S α}
    {s : Shared B S} (hv : s.Foreign userId) (hs : J s)
    (hx : ∀ s, s.Foreign userId → J s → J (exec deed x s).2) :
    (call api deed x s).2.Foreign userId ∧ J (call api deed x s).2 := by
  have hv' : (s.visited api).Foreign userId := by
    rw [Foreign, visited_visits]
    exact hv
  have hs' := h.visited hv hs
  rw [Shared.call]
  split
  · exact ⟨hv', hx _ hv' hs'⟩
  · exact ⟨hv', hs'⟩
  · exact ⟨hv', hx _ hv' hs'⟩

/-- The observer of a property of the server. -/
def observer (userId : B) (J : Shared B S → Prop) : Observer (Shared B S) where
  quiet s s' := s.Foreign userId ∧ J s → s'.Foreign userId ∧ J s'
  enqueue s s' := s.Foreign userId ∧ J s → s'.Foreign userId ∧ J s'
  verify := True
  refl _ h := h

theorem Kept.otherwise (h : Kept api userId J) :
    (sharedApi api).Otherwise (observer userId J) where
  acquireBundle u _ hs := h.call hs.1 hs.2 fun s _ => h.acquire u s
  enqueueEnvelope u e _ hs := h.call hs.1 hs.2 fun s _ => h.enqueue u e s
  drainInbox u a _ hs := h.call hs.1 hs.2 fun s _ => h.drain u a s

end Shared

/-- Moves keep what they are observed to keep. -/
theorem Moves.observed {P : Crypto B → Prop} {userId : B} {J : Shared B S → Prop}
    {w w' : World B (Shared B S)} (hm : Moves P (Shared.observer userId J) w w')
    (h : w.server.Foreign userId ∧ J w.server) : w'.server.Foreign userId ∧ J w'.server := by
  induction hm with
  | refl => exact h
  | tail _ hm ih =>
    cases hm with
    | env _ _ _ hq => exact hq ih
    | enqueue _ hq => exact hq ih
    | _ => exact ih

/-- What every move keeps, any number of moves keep. -/
theorem Moves.induct {P : Crypto B → Prop} {v : Observer S} {I : World B S → Prop}
    (hmove : ∀ w w₁, I w → Move P v w w₁ → I w₁) {w w' : World B S} (h : I w)
    (hm : Moves P v w w') : I w' := by
  induction hm with
  | refl => exact h
  | tail _ hm ih => exact hmove _ _ ih hm

/-- **The rule for invariants of runs.**  It asks for the moves of the client, for its bundles,
and for the calls of others. -/
theorem SharedRun.invariant {P : Crypto B → Prop} {api : ServerApi B S}
    {G : Crypto B → Op B → World B (Shared B S) → Prop} {userId : B}
    {w₀ w : World B (Shared B S)} {alive : Bool} {v : Observer (Shared B S)}
    {I D : World B (Shared B S) → Prop}
    (hs : (sharedApi api).Otherwise v) (hv : v.verify) (hstart : D w₀)
    (hboot : ∀ w w₁, D w → Boot P w w₁ →
      (∃ saved, w.disk = some saved ∧ w₁.client = saved.reload) ∨ StateMissing userId w → I w₁)
    (hmove : ∀ w w₁, I w → Move P v w w₁ → I w₁)
    (hdown : ∀ w, I w → D w)
    (hfail : ∀ w w₁, D w → w₁.disk = w.disk →
      Moves P v { w with client := Client.blank userId } w₁ → D w₁)
    (hpublish : ∀ c op w w', P c → G c op w → op.publishPoint c (sharedApi api) w = some w' →
      I w' → I (publishPrekeys c (sharedApi api) w').2)
    (hvisit : ∀ w u, u.Foreign userId →
      (D w → D { w with server := w.server.visit api u }) ∧
      (I w → I { w with server := w.server.visit api u }))
    (h : SharedRun P api G userId w₀ alive w) : D w ∧ (alive = true → I w) := by
  have hmoves : ∀ w w₁, I w → Moves P v w w₁ → I w₁ := fun _ _ => Moves.induct hmove
  induction h with
  | start => exact ⟨hstart, nofun⟩
  | @create alive w c hc _ ih =>
    rcases create_boot (v := v) hc userId w with ⟨w₁, hb, hfrom, hm⟩ | ⟨⟨e, he⟩, hd, hm, -⟩
    · have hI := hmoves _ _ (hboot _ _ ih.1 hb hfrom) hm
      exact ⟨hdown _ hI, fun _ => hI⟩
    · refine ⟨hfail w _ ih.1 hd hm, fun h => ?_⟩
      rw [he] at h
      cases h
  | @op w c hc op hG _ ih =>
    have hpoint := op.run_of_publishPoint hc hs (fun _ => hv) w
    have hI : I (op.run c (sharedApi api) w).2 := by
      rcases hw' : op.publishPoint c (sharedApi api) w with _ | w'
      · rw [hw'] at hpoint
        exact hmoves _ _ (ih.2 rfl) hpoint
      · rw [hw'] at hpoint
        exact hmoves _ _ (hpublish c op w w' hc hG hw' (hmoves _ _ (ih.2 rfl) hpoint.1)) hpoint.2
    exact ⟨hdown _ hI, fun _ => hI⟩
  | visit u hu _ ih =>
    exact ⟨(hvisit _ u hu).1 ih.1, fun ha => (hvisit _ u hu).2 (ih.2 ha)⟩

end PqChat
