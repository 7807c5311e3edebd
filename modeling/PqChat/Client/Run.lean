/-
# Runs of a client

A run starts with an empty state file and an empty history, and goes on with calls of `Create`
and, while a client is up, of its member functions.  Each call has a server and a provider of
its own: the only thing fixed from call to call is what the calls left behind.

`Create` may be called at ANY time: what was in memory is gone then, which is what a crash
between two calls is.  A crash inside a call is a call whose remaining accesses to the server,
the state file and the provider fail, so the runs of this module include it.
-/
import PqChat.Client.Moves

set_option linter.unusedSectionVars false

namespace PqChat

open ByteString

variable {B S : Type} [ByteString B] [DecidableEq B]

/-! ## 1. Creation -/

/-- The values of a successful `freshIdentity`. -/
structure IdentityRun (c : Crypto B) where
  signSeed : Nat
  signKey : KeyPair B
  mldsaSeed : Nat
  mldsaKey : KeyPair B
  dhSeed : Nat
  dhKey : KeyPair B
  spkEcSeed : Nat
  spkEc : KeyPair B
  spkPqSeed : Nat
  spkPq : KeyPair B
  ecSignature : B
  ecSignatureMldsa : B
  pqSignature : B
  pqSignatureMldsa : B
  signKey_ok : c.ed25519Generate signSeed = .ok signKey
  mldsaKey_ok : c.mldsa65Generate mldsaSeed = .ok mldsaKey
  dhKey_ok : c.x25519Generate dhSeed = .ok dhKey
  spkEc_ok : c.x25519Generate spkEcSeed = .ok spkEc
  spkPq_ok : c.mlkem768Generate spkPqSeed = .ok spkPq
  ecSignature_ok : c.ed25519Sign signKey.privateKey (buildEcPrekeySignInput 1 spkEc.publicKey)
    = .ok ecSignature
  ecSignatureMldsa_ok : c.mldsa65Sign mldsaKey.privateKey
    (buildEcPrekeySignInput 1 spkEc.publicKey) = .ok ecSignatureMldsa
  pqSignature_ok : c.ed25519Sign signKey.privateKey (buildPqPrekeySignInput 1 spkPq.publicKey)
    = .ok pqSignature
  pqSignatureMldsa_ok : c.mldsa65Sign mldsaKey.privateKey
    (buildPqPrekeySignInput 1 spkPq.publicKey) = .ok pqSignatureMldsa

/-- The client with the new identity. -/
def IdentityRun.install {c : Crypto B} (run : IdentityRun c) (cl : Client B) : Client B :=
  { cl with
    identitySignKey := run.signKey
    identityMldsaKey := run.mldsaKey
    identityDhKey := run.dhKey
    signedPrekeyEcPublic := ⟨1, run.spkEc.publicKey, run.ecSignature, run.ecSignatureMldsa⟩
    signedPrekeyEcPrivate := run.spkEc
    signedPrekeyPqPublic := ⟨1, run.spkPq.publicKey, run.pqSignature, run.pqSignatureMldsa⟩
    signedPrekeyPqPrivate := run.spkPq }

/-- How a client comes up: from the state file, or with a new identity. -/
inductive Boot (P : Crypto B → Prop) (w : World B S) : World B S → Prop
  | load (saved : Client B) (diskUses : Nat) (h : w.disk = some saved) :
    Boot P w { w with client := saved.reload, diskUses }
  | identity {c : Crypto B} (hc : P c) (userId : B) (drawn diskUses : Nat)
    (run : IdentityRun c) :
    Boot P w { w with
      client := run.install (Client.blank userId)
      trace := .mlkem run.spkPq :: .x25519 run.spkEc :: .x25519 run.dhKey :: w.trace
      drawn
      diskUses }

section Create

variable {P : Crypto B → Prop} {v : Observer S} {c : Crypto B}

theorem restoreState_cases (saved : Client B) (w : World B S) :
    restoreState saved w = (.ok (), { w with client := saved.reload }) ∨
    ∃ e, restoreState saved w = (.error e, w) := by
  suffices h : Proc.wp (restoreState saved) (fun r w' =>
      (r = .ok () ∧ w' = { w with client := saved.reload }) ∨ ∃ e, r = .error e ∧ w' = w) w by
    rcases h with ⟨hr, hw⟩ | ⟨e, hr, hw⟩
    · exact Or.inl (Prod.ext hr hw)
    · exact Or.inr ⟨e, Prod.ext hr hw⟩
  refine Proc.wp_get_bind (Proc.wp_require_bind (fun _ => Or.inr ⟨_, rfl, rfl⟩) fun _ => ?_)
  refine Proc.wp_require_bind (fun _ => Or.inr ⟨_, rfl, rfl⟩) fun _ => ?_
  refine Proc.wp_require_bind (fun _ => Or.inr ⟨_, rfl, rfl⟩) fun _ => ?_
  refine Proc.wp_require_bind (fun _ => Or.inr ⟨_, rfl, rfl⟩) fun _ => ?_
  refine Proc.wp_require_bind (fun _ => Or.inr ⟨_, rfl, rfl⟩) fun _ => ?_
  refine Proc.wp_require_bind (fun _ => Or.inr ⟨_, rfl, rfl⟩) fun _ => ?_
  refine Proc.wp_require_bind (fun _ => Or.inr ⟨_, rfl, rfl⟩) fun _ => ?_
  exact Or.inl ⟨rfl, rfl⟩

/-- A state that cannot be decoded is not reported missing. -/
theorem restoreState_ne_missing (saved : Client B) (w : World B S) :
    (restoreState saved w).1 ≠ .error "state file missing" := by
  have hne : ∀ {e : String}, e ≠ "state file missing" →
      (.error e : Result Unit) ≠ .error "state file missing" := fun h he =>
    h (Except.error.inj he)
  suffices h : Proc.wp (restoreState saved)
      (fun r _ => r ≠ .error "state file missing") w from h
  refine Proc.wp_get_bind (Proc.wp_require_bind (fun _ => hne (by decide)) fun _ => ?_)
  refine Proc.wp_require_bind (fun _ => hne (by decide)) fun _ => ?_
  refine Proc.wp_require_bind (fun _ => hne (by decide)) fun _ => ?_
  refine Proc.wp_require_bind (fun _ => hne (by decide)) fun _ => ?_
  refine Proc.wp_require_bind (fun _ => hne (by decide)) fun _ => ?_
  refine Proc.wp_require_bind (fun _ => hne (by decide)) fun _ => ?_
  exact Proc.wp_require_bind (fun _ => hne (by decide)) fun _ => Proc.wp_modify nofun

/-- `LoadLocalState` restores what is in the state file, or changes nothing. -/
theorem loadLocalState_cases (w : World B S) :
    ∃ n, (∃ saved, w.disk = some saved ∧
      loadLocalState w = (.ok (), { w with client := saved.reload, diskUses := n })) ∨
    ∃ e, loadLocalState w = (.error e, { w with diskUses := n }) := by
  obtain ⟨client, server, disk, entropy, drawn, outcome, uses, trace⟩ := w
  rw [loadLocalState, Proc.get_bind_apply]
  rcases disk with _ | saved
  · exact ⟨uses, Or.inr ⟨_, rfl⟩⟩
  · refine ⟨uses + 1, ?_⟩
    dsimp only
    rw [Proc.modify_bind_apply]
    rcases outcome uses with _ | e | e
    · rcases restoreState_cases saved ⟨client, server, some saved, entropy, drawn, outcome,
        uses + 1, trace⟩ with h | ⟨e, h⟩
      · exact Or.inl ⟨saved, rfl, h⟩
      · exact Or.inr ⟨e, h⟩
    · exact Or.inr ⟨e, rfl⟩
    · exact Or.inr ⟨e, rfl⟩

theorem signPrekey_cases (signKey mldsaKey : KeyPair B) (id : UInt32) (publicKey input : B)
    (what : String) (w : World B S) :
    (∃ sig sigMldsa, c.ed25519Sign signKey.privateKey input = .ok sig ∧
      c.mldsa65Sign mldsaKey.privateKey input = .ok sigMldsa ∧
      signPrekey c signKey mldsaKey id publicKey input what w =
        (.ok ⟨id, publicKey, sig, sigMldsa⟩, w)) ∨
    ∃ e, signPrekey c signKey mldsaKey id publicKey input what w = (.error e, w) := by
  rcases h₁ : c.ed25519Sign signKey.privateKey input with e | sig
  · exact Or.inr ⟨_, by rw [signPrekey, h₁]; rfl⟩
  · rcases h₂ : c.mldsa65Sign mldsaKey.privateKey input with e | sigMldsa
    · exact Or.inr ⟨_, by rw [signPrekey, h₁, h₂]; rfl⟩
    · exact Or.inl ⟨sig, sigMldsa, rfl, rfl, by rw [signPrekey, h₁, h₂]; rfl⟩

/-- All that has been added to the history are generated keys. -/
def Generates (w w' : World B S) : Prop :=
  ∃ es, w'.trace = es ++ w.trace ∧ ∀ e ∈ es, (∃ pair, e = .x25519 pair) ∨ ∃ pair, e = .mlkem pair

/-- A new identity is set up as a whole or not at all; keys may have been generated in either
case. -/
theorem freshIdentity_cases (hc : P c) (w : World B S) :
    (∃ (n : Nat) (run : IdentityRun c), freshIdentity c w = (.ok (),
      { w with
        client := run.install w.client
        trace := .mlkem run.spkPq :: .x25519 run.spkEc :: .x25519 run.dhKey :: w.trace
        drawn := n })) ∨
    ∃ e w', freshIdentity c w = (.error e, w') ∧ w'.disk = w.disk ∧ Moves P v w w' ∧
      Generates w w' := by
  suffices h : Proc.wp (freshIdentity c) (fun r w' =>
      (∃ (n : Nat) (run : IdentityRun c), r = .ok () ∧ w' =
        { w with
          client := run.install w.client
          trace := .mlkem run.spkPq :: .x25519 run.spkEc :: .x25519 run.dhKey :: w.trace
          drawn := n }) ∨
      ∃ e, r = .error e ∧ w'.disk = w.disk ∧ Moves P v w w' ∧ Generates w w') w by
    rcases h with ⟨n, run, hr, hw⟩ | ⟨e, hr, hw⟩
    · exact Or.inl ⟨n, run, Prod.ext hr hw⟩
    · exact Or.inr ⟨e, _, Prod.ext hr rfl, hw⟩
  -- the worlds in which the generation stops, by the keys in hand
  let Stops : World B S → Prop := fun w' => Moves P v w w' ∧ Generates w w'
  have hm₀ : ∀ n, Stops { w with drawn := n } := fun n =>
    ⟨.single (.env w w.server n w.diskUses (v.refl _)), [], rfl, nofun⟩
  have hm₁ : ∀ {seed pair} n, c.x25519Generate seed = .ok pair →
      Stops { w with drawn := n, trace := .x25519 pair :: w.trace } :=
    fun n h => ⟨(hm₀ n).1.tail (.generate _ hc h), [_], rfl, by simp⟩
  have hm₂ : ∀ {seed seed' pair pair'} n, c.x25519Generate seed = .ok pair →
      c.x25519Generate seed' = .ok pair' → Stops
        { w with drawn := n, trace := .x25519 pair' :: .x25519 pair :: w.trace } :=
    fun n h h' => ⟨(hm₁ n h).1.tail (.generate _ hc h'), [_, _], rfl, by simp⟩
  have hm₃ : ∀ {seed seed' seed'' pair pair' pair''} n, c.x25519Generate seed = .ok pair →
      c.x25519Generate seed' = .ok pair' → c.mlkem768Generate seed'' = .ok pair'' →
      Stops { w with
        drawn := n, trace := .mlkem pair'' :: .x25519 pair' :: .x25519 pair :: w.trace } :=
    fun n h h' h'' => ⟨(hm₂ n h h').1.tail (.generateKem _ hc h''), [_, _, _], rfl, by simp⟩
  refine Proc.wp_of_bind_ok (x := draw) rfl
    (Proc.wp_ofExcept_bind (fun _ _ => Or.inr ⟨_, rfl, rfl, hm₀ _⟩) fun signKey hsign => ?_)
  refine Proc.wp_of_bind_ok (x := draw) rfl
    (Proc.wp_ofExcept_bind (fun _ _ => Or.inr ⟨_, rfl, rfl, hm₀ _⟩) fun mldsaKey hmldsa => ?_)
  rcases generateX25519_cases (c := c) { w with drawn := w.drawn + 1 + 1 } with
    ⟨dhKey, hdh, h₁⟩ | ⟨e, h₁⟩
  swap
  · exact Proc.wp_of_eq (Proc.bind_error (Proc.within_error h₁ _) _)
      (Or.inr ⟨_, rfl, rfl, hm₀ _⟩)
  refine Proc.wp_of_bind_ok (Proc.within_ok h₁ _) ?_
  rcases generateX25519_cases (c := c)
    { w with drawn := w.drawn + 1 + 1 + 1, trace := .x25519 dhKey :: w.trace } with
    ⟨spkEc, hspkEc, h₂⟩ | ⟨e, h₂⟩
  swap
  · exact Proc.wp_of_eq (Proc.bind_error (Proc.within_error h₂ _) _)
      (Or.inr ⟨_, rfl, rfl, hm₁ _ hdh⟩)
  refine Proc.wp_of_bind_ok (Proc.within_ok h₂ _) ?_
  rcases signPrekey_cases (c := c) signKey mldsaKey 1 spkEc.publicKey
    (buildEcPrekeySignInput 1 spkEc.publicKey) "EC"
    { w with
      drawn := w.drawn + 1 + 1 + 1 + 1
      trace := .x25519 spkEc :: .x25519 dhKey :: w.trace } with
    ⟨ecSig, ecSigMldsa, hecSig, hecSigMldsa, h₃⟩ | ⟨e, h₃⟩
  swap
  · exact Proc.wp_of_eq (Proc.bind_error h₃ _) (Or.inr ⟨_, rfl, rfl, hm₂ _ hdh hspkEc⟩)
  refine Proc.wp_of_bind_ok h₃ ?_
  rcases generateMlKem_cases (c := c)
    { w with
      drawn := w.drawn + 1 + 1 + 1 + 1
      trace := .x25519 spkEc :: .x25519 dhKey :: w.trace } with
    ⟨spkPq, hspkPq, h₄⟩ | ⟨e, h₄⟩
  swap
  · exact Proc.wp_of_eq (Proc.bind_error (Proc.within_error h₄ _) _)
      (Or.inr ⟨_, rfl, rfl, hm₂ _ hdh hspkEc⟩)
  refine Proc.wp_of_bind_ok (Proc.within_ok h₄ _) ?_
  rcases signPrekey_cases (c := c) signKey mldsaKey 1 spkPq.publicKey
    (buildPqPrekeySignInput 1 spkPq.publicKey) "PQ"
    { w with
      drawn := w.drawn + 1 + 1 + 1 + 1 + 1
      trace := .mlkem spkPq :: .x25519 spkEc :: .x25519 dhKey :: w.trace } with
    ⟨pqSig, pqSigMldsa, hpqSig, hpqSigMldsa, h₅⟩ | ⟨e, h₅⟩
  swap
  · exact Proc.wp_of_eq (Proc.bind_error h₅ _)
      (Or.inr ⟨_, rfl, rfl, hm₃ _ hdh hspkEc hspkPq⟩)
  let run : IdentityRun c := ⟨_, signKey, _, mldsaKey, _, dhKey, _, spkEc, _, spkPq, ecSig,
    ecSigMldsa, pqSig, pqSigMldsa, hsign, hmldsa, hdh, hspkEc, hspkPq, hecSig, hecSigMldsa,
    hpqSig, hpqSigMldsa⟩
  exact Proc.wp_of_bind_ok h₅ (Or.inl ⟨w.drawn + 1 + 1 + 1 + 1 + 1, run, rfl, rfl⟩)

/-- `LoadLocalState` reports that there is no state file. -/
def StateMissing (userId : B) (w : World B S) : Prop :=
  (loadLocalState { w with client := Client.blank userId }).1 = .error "state file missing"

/-- What `Create` does with a client that has come up: each of its two ends has a text of its own
for a refill that fails. -/
def finishCreate (c : Crypto B) (p : String) : Proc (World B S) Unit := do
  Proc.within p (refillOneTimePrekeyPools c)
  Proc.within "state persist failed: " saveLocalState

/-- **`Create` brings a client up and finishes, or fails without touching the state file.**  The
client is a new one only if the state file is reported missing. -/
theorem create_ends (hc : P c) (userId : B) (w : World B S) :
    (∃ w₁ p, Boot P w w₁ ∧ create c userId w = finishCreate c p w₁ ∧
      ((∃ saved, w.disk = some saved ∧ w₁ = { w with
          client := saved.reload, diskUses := w₁.diskUses }) ∨
        StateMissing userId w ∧ w₁.disk = w.disk ∧
          ∃ run : IdentityRun c, w₁.client = run.install (Client.blank userId))) ∨
    (∃ e, (create c userId w).1 = .error e) ∧ (create c userId w).2.disk = w.disk ∧
      Moves P v { w with client := Client.blank userId } (create c userId w).2 ∧
      Generates w (create c userId w).2 := by
  let w₀ : World B S := { w with client := Client.blank userId }
  obtain ⟨n, ⟨saved, hdisk, hload⟩ | ⟨e, hload⟩⟩ := loadLocalState_cases w₀
  · left
    refine ⟨_, "state load prekey refill failed: ", .load saved n hdisk, ?_,
      Or.inl ⟨saved, hdisk, rfl⟩⟩
    rw [create, modifyClient, Proc.modify_bind_apply]
    exact Proc.bind_ok (Proc.attempt_apply hload) _
  · have h₁ : create c userId w = (do
        Proc.require (e = "state file missing") ("failed loading local state: " ++ e)
        freshIdentity c
        finishCreate c "one-time prekey pool init failed: ") { w₀ with diskUses := n } := by
      rw [create, modifyClient, Proc.modify_bind_apply]
      exact Proc.bind_ok (Proc.attempt_apply hload) _
    have hm : Moves P v w₀ { w₀ with diskUses := n } := .single (.env _ _ _ n (v.refl _))
    rw [h₁]
    by_cases he : e = "state file missing"
    · rw [Proc.require_pos he, Proc.pure_bind]
      rcases freshIdentity_cases (v := v) hc { w₀ with diskUses := n } with
        ⟨d, run, h₂⟩ | ⟨e', w', h₂, hdisk, hm', hkeys⟩
      · left
        refine ⟨_, _, .identity hc userId d n run, Proc.bind_ok h₂ _, Or.inr ⟨?_, rfl, run, rfl⟩⟩
        rw [StateMissing, hload, he]
      · right
        rw [Proc.bind_error h₂]
        exact ⟨⟨e', rfl⟩, hdisk, hm.trans hm', hkeys⟩
    · right
      rw [Proc.require, if_neg he]
      exact ⟨⟨_, rfl⟩, rfl, hm, [], rfl, List.forall_mem_nil _⟩

/-- A client that has come up goes on by moves. -/
theorem create_boot (hc : P c) (userId : B) (w : World B S) :
    (∃ w₁, Boot P w w₁ ∧
      ((∃ saved, w.disk = some saved ∧ w₁.client = saved.reload) ∨ StateMissing userId w) ∧
      Moves P v w₁ (create c userId w).2) ∨
    (∃ e, (create c userId w).1 = .error e) ∧ (create c userId w).2.disk = w.disk ∧
      Moves P v { w with client := Client.blank userId } (create c userId w).2 ∧
      Generates w (create c userId w).2 := by
  refine (create_ends hc userId w).imp_left ?_
  rintro ⟨w₁, p, hboot, hrun, hfrom⟩
  have hfinish : Proc.Preserves (Moves P v w₁) (finishCreate c p) :=
    .bind (.within _ (refillOneTimePrekeyPools_moves hc)) fun _ => .within _ saveLocalState_moves
  refine ⟨w₁, hboot, ?_, ?_⟩
  · rcases hfrom with ⟨saved, hdisk, hw₁⟩ | ⟨hmissing, -⟩
    · exact Or.inl ⟨saved, hdisk, congrArg World.client hw₁⟩
    · exact Or.inr hmissing
  · rw [hrun]
    exact hfinish _ .refl

theorem create_cases (hc : P c) (userId : B) (w : World B S) :
    (∃ w₁, Boot P w w₁ ∧ Moves P v w₁ (create c userId w).2) ∨
    (∃ e, (create c userId w).1 = .error e) ∧ (create c userId w).2.disk = w.disk ∧
      Moves P v { w with client := Client.blank userId } (create c userId w).2 ∧
      Generates w (create c userId w).2 :=
  (create_boot hc userId w).imp_left fun ⟨w₁, hb, _, hm⟩ => ⟨w₁, hb, hm⟩

/-- No access to the state file fails with the text that says that there is none.  `ReadAllFile`
returns that text for every file it cannot open, so this is more than that the file is there: a
file that is there can be opened. -/
def World.Readable (w : World B S) : Prop :=
  ∀ n, w.diskOutcome n ≠ .failed "state file missing" ∧
    w.diskOutcome n ≠ .unsynced "state file missing"

/-- Then none is reported missing that is there. -/
theorem StateMissing.disk {userId : B} {w : World B S} (h : StateMissing userId w)
    (hr : w.Readable) : w.disk = none := by
  obtain ⟨client, server, disk, entropy, drawn, outcome, uses, trace⟩ := w
  rcases disk with _ | saved
  · rfl
  · exfalso
    obtain ⟨hfailed, hunsynced⟩ := hr uses
    dsimp only at hfailed hunsynced
    rw [StateMissing, loadLocalState, Proc.get_bind_apply] at h
    dsimp only at h
    rw [Proc.modify_bind_apply] at h
    dsimp only at h
    rcases ho : outcome uses with _ | e | e <;> rw [ho] at h hfailed hunsynced
    · exact restoreState_ne_missing _ _ h
    · exact hfailed (congrArg DiskOutcome.failed (Except.error.inj h))
    · exact hunsynced (congrArg DiskOutcome.unsynced (Except.error.inj h))

end Create

/-! ## 2. Runs -/

/-- The worlds a client can be in.  The flag says whether a client is up, that is, whether the
last `Create` succeeded. -/
inductive Reach (P : Crypto B → Prop) : Bool → World B S → Prop
  | start (w : World B S) (hdisk : w.disk = none) (htrace : w.trace = []) : Reach P false w
  | create {alive : Bool} {w : World B S} {c : Crypto B} (hc : P c) (userId : B)
    (h : Reach P alive w) : Reach P (create c userId w).1.isOk (create c userId w).2
  | op {w : World B S} {c : Crypto B} (hc : P c) (server : ServerApi B S) (op : Op B)
    (h : Reach P true w) : Reach P true (op.run c server w).2

/-- A run of one process: calls of member functions, and no `Create`. -/
inductive Process (P : Crypto B → Prop) (w₀ : World B S) : World B S → Prop
  | refl : Process P w₀ w₀
  | op {w : World B S} {c : Crypto B} (hc : P c) (server : ServerApi B S) (op : Op B)
    (h : Process P w₀ w) : Process P w₀ (op.run c server w).2

/-- An operation with any server. -/
theorem Op.run_moves_any {P : Crypto B → Prop} {c : Crypto B} (hc : P c) (server : ServerApi B S)
    (op : Op B) (w : World B S) : Moves P .any w (op.run c server w).2 :=
  op.run_moves hc server.quiet_any (fun _ => server.enqueues_any) (fun _ => trivial) w

theorem Process.moves {P : Crypto B → Prop} {w₀ w : World B S} (h : Process P w₀ w) :
    Moves P .any w₀ w := by
  induction h with
  | refl => exact .refl
  | op hc server op _ ih => exact ih.trans (op.run_moves_any hc server _)

theorem Reach.of_run {P : Crypto B → Prop} {w w' : World B S} {c : Crypto B}
    {r : Result (List B)} (h : Reach P true w) (hc : P c) (server : ServerApi B S) (op : Op B)
    (hrun : op.run c server w = (r, w')) : Reach P true w' := by
  have h' := Reach.op hc server op h
  rw [hrun] at h'
  exact h'

theorem Reach.mono {P Q : Crypto B → Prop} (hPQ : ∀ c, P c → Q c) {alive : Bool}
    {w : World B S} (h : Reach P alive w) : Reach Q alive w := by
  induction h with
  | start w hdisk htrace => exact .start w hdisk htrace
  | create hc userId _ ih => exact .create (hPQ _ hc) userId ih
  | op hc server op _ ih => exact .op (hPQ _ hc) server op ih

/-- The history only grows. -/
theorem Move.trace_suffix {P : Crypto B → Prop} {v : Observer S} {w w' : World B S}
    (h : Move P v w w') : w.trace <:+ w'.trace := by
  cases h with
  | env | enqueue | save | flags | rememberPeer | verifyPeer | receiveChat =>
    exact List.suffix_rfl
  | input | generate | generateKem | addEc | addPq | ratchet | sealChat | accept =>
    exact List.suffix_cons _ _
  | sealInitial | initiate => exact List.suffix_append _ _

theorem Moves.trace_suffix {P : Crypto B → Prop} {v : Observer S} {w w' : World B S}
    (h : Moves P v w w') : w.trace <:+ w'.trace := by
  induction h with
  | refl => exact List.suffix_rfl
  | tail _ hm ih => exact ih.trans hm.trace_suffix

/-- **The rule for invariants of runs.**  A predicate on clients up and one on state files hold
in every run if new and reloaded clients have them and every move keeps them. -/
theorem Reach.invariant {P : Crypto B → Prop} {alive : Bool} {w : World B S}
    {I : World B S → Prop} {D : World B S → Prop}
    (hstart : ∀ w : World B S, w.disk = none → w.trace = [] → D w)
    (hboot : ∀ w w₁ : World B S, D w → Boot P w w₁ → I w₁)
    (hmove : ∀ w w₁ : World B S, I w → Move P .any w w₁ → I w₁)
    (hdown : ∀ w : World B S, I w → D w)
    (hdisk : ∀ w w₁ : World B S, D w → w₁.disk = w.disk → w.trace <:+ w₁.trace → D w₁)
    (h : Reach P alive w) : D w ∧ (alive = true → I w) := by
  have hmoves : ∀ w w₁ : World B S, I w → Moves P .any w w₁ → I w₁ := by
    intro w w₁ hI hm
    induction hm with
    | refl => exact hI
    | tail _ hmv ih => exact hmove _ _ ih hmv
  induction h with
  | start w hd ht => exact ⟨hstart w hd ht, nofun⟩
  | @create alive w c hc userId _ ih =>
    rcases create_cases (v := .any) hc userId w with
      ⟨w₁, hb, hm⟩ | ⟨⟨e, he⟩, hd, hm, -⟩
    · have hI := hmoves _ _ (hboot _ _ ih.1 hb) hm
      exact ⟨hdown _ hI, fun _ => hI⟩
    · refine ⟨hdisk w _ ih.1 hd hm.trace_suffix, fun h => ?_⟩
      rw [he] at h
      cases h
  | op hc server op _ ih =>
    have hI := hmoves _ _ (ih.2 rfl) (op.run_moves_any hc server _)
    exact ⟨hdown _ hI, fun _ => hI⟩

end PqChat
