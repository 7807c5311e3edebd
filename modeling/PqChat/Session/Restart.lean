/-
# Restarts

`SendMessage` and `InitiateSession` hand the envelope to the server FIRST and save the client
after that.  A client that goes down in between comes up again in a state from before the
message: it seals the next message under the same key and the same nonce.

What keeps this from happening is a condition on each sending call (`Commits`): if the server
accepts the envelope, it says so, and the save that follows goes through.  Then the state file
accounts for every envelope the server has accepted, at any time between two calls, and so does
whatever client comes up from it.  All other saves are of clients that account for the same
envelopes or more.
-/
import PqChat.Client.Publishing
import PqChat.Session.Calls
import PqChat.Session.KeyUse

set_option linter.unusedSectionVars false

namespace PqChat

open ByteString Symbolic

variable {S : Type}

/-! ## 1. The system -/

/-- The server has a list `v` of the envelopes it has accepted from the client.  A call of
`EnqueueEnvelope` adds its envelope or does not; the other calls leave the list alone. -/
structure ServerApi.Records (server : ServerApi Str S) (v : S → List (Envelope Str)) : Prop where
  publishBundle : ∀ b s, v (server.publishBundle b s).2 = v s
  acquireBundle : ∀ u s, v (server.acquireBundleForSession u s).2 = v s
  drainInbox : ∀ u a s, v (server.drainInbox u a s).2 = v s
  enqueueEnvelope : ∀ peer e s, v (server.enqueueEnvelope peer e s).2 = v s ∨
    v (server.enqueueEnvelope peer e s).2 = v s ++ [e]

/-- A condition on a call. -/
abbrev CallGuard (S : Type) := Crypto Str → ServerApi Str S → Op Str → World Str S → Prop

/-- No condition. -/
def CallGuard.any : CallGuard S := fun _ _ _ _ => True

/-- A sending call that is safe: the next access to the state file does not fail, the client is
within the limits of the file format, and the server does not accept an envelope and report an
error. -/
structure Commits (v : S → List (Envelope Str)) (server : ServerApi Str S) (peer : Str)
    (w : World Str S) : Prop where
  disk : ∀ e, w.diskOutcome w.diskUses ≠ .failed e
  trusted : w.client.trustedPeerIdentities.keys.card ≤ kMaxPersistedPeers
  sessions : (insert peer w.client.sessionsByPeer.keys).card ≤ kMaxPersistedSessions
  reports : ∀ envelope s e, (server.enqueueEnvelope peer envelope s).1 = .error e →
    v (server.enqueueEnvelope peer envelope s).2 = v s

/-- Calls in which the server accepts an envelope are safe. -/
def CallGuard.committing (v : S → List (Envelope Str)) : CallGuard S := fun c server op w =>
  v (op.run c server w).2.server ≠ v w.server →
    ∀ peer p, op = .initiate peer p ∨ op = .send peer p → Commits v server peer w

/-- The life of a client: calls while it is up, and `Create` at any time.  The flag says whether
it is up. -/
inductive Life (v : S → List (Envelope Str)) (G : CallGuard S) :
    Bool × World Str S → Bool × World Str S → Prop
  | create {alive : Bool} {w : World Str S} {c : Crypto Str} (hc : c.IsIdeal) (userId : Str) :
    Life v G (alive, w) ((create c userId w).1.isOk, (create c userId w).2)
  | op {w : World Str S} {c : Crypto Str} (hc : c.IsIdeal) {server : ServerApi Str S}
    (hserver : server.Records v) (op : Op Str) (hG : G c server op w) :
    Life v G (true, w) (true, (op.run c server w).2)

/-- The chain key and the message number an envelope was sealed with. -/
def Envelope.SealedAt (e : Envelope Str) (x : Str × UInt64) : Prop :=
  ∃ p ad,
    (∃ m, e = .fromChat m ∧ m.header.messageNumber = x.2 ∧
      m.ciphertext = Symbolic.aeadSeal (useOf x).1 (useOf x).2 p ad) ∨
    ∃ m, e = .fromInitial m ∧ x.2 = 0 ∧
      m.initialCiphertext = Symbolic.aeadSeal (useOf x).1 (useOf x).2 p ad

/-- The client is past a chain key: a session that is in its chain is at a later place. -/
def Client.IsPast (cl : Client Str) (ck : Str) : Prop :=
  ∀ peer s b n n', cl.sessionsByPeer.lookup peer = some s → IsBase b → Chain b n ck →
    Chain b n' s.sendChainKey → n < n'

/-- What is required of an envelope accepted at `w₁`: it was sealed with a key the state file is
past, no seal up to `w₂` has the same key and nonce, and no envelope accepted up to `w₂` has the
same number in the same chain. -/
def Survives (v : S → List (Envelope Str)) (w₁ w₂ : World Str S) (e : Envelope Str) : Prop :=
  ∃ x, e.SealedAt x ∧ (∃ d, w₁.disk = some d ∧ d.IsPast x.1) ∧
    (∀ events, w₂.trace = events ++ w₁.trace → useOf x ∉ sealUses events) ∧
    ∀ later, v w₂.server = v w₁.server ++ later → ∀ e' ∈ later, ∀ x', e'.SealedAt x' →
      ∀ b n n', IsBase b → Chain b n x.1 → Chain b n' x'.1 → x.2 ≠ x'.2

/-- Sent messages survive restarts, in the lives that meet the condition. -/
def SentSurvives (v : S → List (Envelope Str)) (G : CallGuard S) : Prop :=
  ∀ w₀ s₁ s₂, w₀.disk = none → w₀.trace = [] → v w₀.server = [] →
    Relation.ReflTransGen (Life v G) (false, w₀) s₁ → Relation.ReflTransGen (Life v G) s₁ s₂ →
    KeysFresh s₂.2.trace → ∀ e ∈ v s₁.2.server, Survives v s₁.2 s₂.2 e

/-! ## 2. A sending call -/

/-- The observer who sees no envelope accepted. -/
def Observer.still (v : S → List (Envelope Str)) : Observer S :=
  ⟨fun s s' => v s' = v s, fun _ _ => False, True, fun _ => rfl⟩

section Accepted

variable {v : S → List (Envelope Str)} {P : Crypto Str → Prop} {w w' : World Str S}
  {server : ServerApi Str S}

theorem Moves.still (h : Moves P (.still v) w w') : v w'.server = v w.server := by
  induction h with
  | refl => rfl
  | tail _ hm ih =>
    refine Eq.trans ?_ ih
    cases hm with
    | env _ _ _ h => exact h
    | enqueue _ h => exact h.elim
    | _ => rfl

theorem ServerApi.Records.quiet (h : server.Records v) : server.Quiet (.still v) :=
  ⟨h.publishBundle, h.acquireBundle, h.drainInbox⟩

/-- The server has accepted one envelope, sealed with the only key the call has used, and the
client is on disk as it is. -/
structure Accepted (v : S → List (Envelope Str)) (w w' : World Str S) (e : Envelope Str)
    (x : Str × UInt64) : Prop where
  server : v w'.server = v w.server ++ [e]
  sealedAt : e.SealedAt x
  disk : w'.disk = some w'.client
  seals : sealUses w'.trace = useOf x :: sealUses w.trace

theorem enqueueAndSave_accepted (hserver : server.Records v) {peer : Str} {e : Envelope Str}
    (hreports : ∀ err, (server.enqueueEnvelope peer e w.server).1 = .error err →
      v (server.enqueueEnvelope peer e w.server).2 = v w.server)
    (htrusted : w.client.trustedPeerIdentities.keys.card ≤ kMaxPersistedPeers)
    (hsessions : w.client.sessionsByPeer.keys.card ≤ kMaxPersistedSessions)
    (hdisk : ∀ e, w.diskOutcome w.diskUses ≠ .failed e)
    (hne : v (enqueueAndSave server peer e w).2.server ≠ v w.server) :
    v (enqueueAndSave server peer e w).2.server = v w.server ++ [e] ∧
      (enqueueAndSave server peer e w).2.disk = some w.client := by
  obtain ⟨-, -, hs⟩ := enqueueAndSave_frame server peer e w
  rw [hs] at hne ⊢
  refine ⟨(hserver.enqueueEnvelope peer e w.server).resolve_left hne, ?_⟩
  rcases hr : server.enqueueEnvelope peer e w.server with ⟨err | u, s⟩
  · exact absurd (hreports err (by rw [hr])) hne
  · have hsave : World.CanSave { w with server := s } := ⟨htrusted, hsessions, hdisk⟩
    rw [enqueueAndSave, Proc.bind_ok (callServer_of_eq hr), Proc.within_state,
      saveLocalState_of_canSave hsave]

theorem sendMessage_accepted {c : Crypto Str} (hc : c.IsIdeal) (hserver : server.Records v)
    {peer p : Str} (hcommit : Commits v server peer w)
    (hne : v (sendMessage c server peer p w).2.server ≠ v w.server) :
    ∃ e x, Accepted v w (sendMessage c server peer p w).2 e x := by
  rcases hl : w.client.sessionsByPeer.lookup peer with _ | s
  · rw [sendMessage, Proc.get_bind_apply, hl] at hne
    exact absurd rfl hne
  rcases sendMessage_cases (c := c) hl server p with
    ⟨e, w', s', es, hrun, -, hstep⟩ | ⟨w₁, s', m, es, hsent, hstep, hrun⟩
  · rw [hrun] at hne
    exact absurd (congrArg v hstep.server) hne
  obtain ⟨hclient, htrace, -⟩ := enqueueAndSave_frame server peer (.fromChat m) w₁
  rw [hrun, ← hstep.server] at hne
  rw [hrun]
  obtain ⟨hv, hd⟩ := enqueueAndSave_accepted hserver (hcommit.reports _ w₁.server)
    (hstep.trusted ▸ hcommit.trusted)
    ((Finset.card_le_card hstep.peers).trans hcommit.sessions)
    (hstep.disk ▸ hcommit.disk) hne
  rw [hstep.server] at hv
  -- the seal of the call
  suffices hx : ∃ x, (Envelope.fromChat m).SealedAt x ∧ sealUses es = [useOf x] by
    obtain ⟨x, hat, hes⟩ := hx
    refine ⟨_, x, hv, hat, by rw [hd, hclient], ?_⟩
    rw [htrace, hstep.trace, sealUses, List.filterMap_append]
    exact congrArg (· ++ sealUses w.trace) hes
  cases hsent with
  | plain _ run =>
    have hmk : run.messageKey = (useOf (s.sendChainKey, s.sendCounter)).1 :=
      congrArg Prod.fst (deriveMessageKeyAndNextChain_refines hc run.step_ok)
    refine ⟨(s.sendChainKey, s.sendCounter), ⟨p, run.ad, Or.inl ⟨_, rfl, rfl, ?_⟩⟩, ?_⟩
    · exact hmk ▸ aeadSeal_refines hc run.seal_ok
    · rw [hmk]
      rfl
  | ratchet step run =>
    have hmk : run.messageKey = (useOf (step.session.sendChainKey, 0)).1 :=
      congrArg Prod.fst (deriveMessageKeyAndNextChain_refines hc run.step_ok)
    refine ⟨(step.session.sendChainKey, 0), ⟨p, run.ad, Or.inl ⟨_, rfl, rfl, ?_⟩⟩, ?_⟩
    · exact hmk ▸ aeadSeal_refines hc run.seal_ok
    · rw [hmk]
      rfl

theorem initiateSession_accepted {c : Crypto Str} (hc : c.IsIdeal) (hserver : server.Records v)
    {peer p : Str} (hcommit : Commits v server peer w)
    (hne : v (initiateSession c server peer p w).2.server ≠ v w.server) :
    ∃ e x, Accepted v w (initiateSession c server peer p w).2 e x := by
  rcases initiateSession_cases (P := Crypto.IsIdeal) hc hserver.quiet peer p w with
    ⟨e, w', hrun, hm⟩ | ⟨bundle, s, n, run, hf, -, hm, hrun⟩
  · rw [hrun] at hne
    exact absurd hm.still hne
  have hv₁ := hm.still
  let w₁ := (w.fetched bundle s).initiated n run
  obtain ⟨hclient, htrace, -⟩ := enqueueAndSave_frame server peer (.fromInitial run.message) w₁
  rw [hrun, ← hv₁] at hne
  rw [hrun]
  have hkeys : w₁.client.sessionsByPeer.keys = insert peer w.client.sessionsByPeer.keys :=
    Client.keys_withSession ..
  obtain ⟨hv, hd⟩ := enqueueAndSave_accepted hserver (hcommit.reports _ w₁.server)
    hcommit.trusted (hkeys ▸ hcommit.sessions) hcommit.disk hne
  have hmk : run.messageKey = (useOf (handshakeKeyOf run.ikm run.transcriptHash 1, 0)).1 :=
    (run.schedule hc).messageKey
  refine ⟨_, (handshakeKeyOf run.ikm run.transcriptHash 1, 0), hv.trans (by rw [hv₁]),
    ⟨p, run.transcriptHash, Or.inr ⟨_, rfl, rfl, ?_⟩⟩, by rw [hd, hclient], ?_⟩
  · exact hmk ▸ aeadSeal_refines hc run.seal_ok
  · rw [htrace, sealUses]
    simp only [w₁, World.initiated, World.fetched, SealedInitiation.events, List.cons_append,
      List.nil_append, List.filterMap_cons, Event.sealUse, hmk]
    rfl

end Accepted

/-! ## 3. The invariant -/

/-- One key lies before the other if they are in one chain. -/
def Precedes (x x' : Str × UInt64) : Prop :=
  ∀ b n n', IsBase b → Chain b n x.1 → Chain b n' x'.1 → n < n'

/-- The client, if it is up, and the state file account for the keys `keys` of the accepted
envelopes. -/
structure Kept (v : S → List (Envelope Str)) (keys : List (Str × UInt64))
    (s : Bool × World Str S) : Prop where
  sealedAt : List.Forall₂ Envelope.SealedAt (v s.2.server) keys
  placed : ∀ x ∈ keys, ∃ b, IsBase b ∧ Chain b x.2.toNat x.1
  order : keys.Pairwise Precedes
  missing : s.2.disk = none → keys = []
  disk : ∀ d, s.2.disk = some d → Accounts s.2.trace d (keys.map Prod.fst)
  memory : s.1 = true → Accounts s.2.trace s.2.client (keys.map Prod.fst)

section Kept

variable {v : S → List (Envelope Str)} {keys : List (Str × UInt64)} {w w' : World Str S}
  {o : Observer S}

theorem nonceFromCounter_inj {n n' : UInt64}
    (h : (nonceFromCounter n : Str) = nonceFromCounter n') : n = n' := by
  have hinj : Function.Injective fun b : UInt8 => Sym.atom (.byte b) := fun a b h => by
    simpa using h
  have h₁ : ([0, 0, 0, 0] : List UInt8) ++ be64 n = [0, 0, 0, 0] ++ be64 n' :=
    hinj.list_map h
  exact be64_inj (List.append_cancel_left h₁)

theorem useOf_inj {x x' : Str × UInt64} (h : useOf x = useOf x') : x = x' :=
  Prod.ext (messageKeyOf_inj (congrArg Prod.fst h)) (nonceFromCounter_inj (congrArg Prod.snd h))

/-- What is on disk after moves was in memory at some point, or was there before. -/
theorem Moves.disk_accounts {used : List Str} (hm : Moves Crypto.IsIdeal o w w')
    (hfresh : KeysFresh w'.trace) (hmem : Accounts w.trace w.client used)
    (hdisk : ∀ d, w.disk = some d → Accounts w.trace d used) :
    (∀ d, w'.disk = some d → Accounts w'.trace d used) ∧ (w'.disk = none → w.disk = none) := by
  induction hm with
  | refl => exact ⟨hdisk, id⟩
  | @tail w₁ w₂ hm₁ hm ih =>
    have hfresh₁ := hfresh.of_suffix hm.trace_suffix
    obtain ⟨hd, hnone⟩ := ih hfresh₁
    have ht := hm.trace_suffix
    have hd' : ∀ d, w₁.disk = some d → Accounts w₂.trace d used := fun d h => (hd d h).mono ht
    cases hm with
    | save =>
      refine ⟨fun d h => ?_, nofun⟩
      obtain rfl := Option.some.inj h
      obtain ⟨new, -, -, -, hacc⟩ := Moves.uses hm₁ hfresh₁ hmem
      exact hacc.subset (List.subset_append_right _ _)
    | _ => exact ⟨hd', hnone⟩

theorem sealUses_unused {new : List (Str × UInt64)} {events : List (Event Str)}
    (hseals : sealUses w'.trace = new.map useOf ++ sealUses w.trace)
    (hev : w'.trace = events ++ w.trace) (hnext : ∀ x ∈ new, Next (keys.map Prod.fst) x) :
    ∀ x ∈ keys, useOf x ∉ sealUses events := by
  intro x hx hmem
  rw [hev, sealUses, List.filterMap_append] at hseals
  rw [sealUses, List.append_cancel_right hseals] at hmem
  obtain ⟨y, hy, he⟩ := List.mem_map.mp hmem
  exact (hnext y hy).unused (List.mem_map.mpr ⟨x, hx, by rw [useOf_inj he]⟩)

/-- `Create`, on whatever is on disk. -/
theorem Kept.create {alive : Bool} (h : Kept v keys (alive, w)) {c : Crypto Str} (hc : c.IsIdeal)
    (userId : Str) (hfresh : KeysFresh (create c userId w).2.trace) :
    Kept v keys ((create c userId w).1.isOk, (create c userId w).2) ∧
      ∀ events, (create c userId w).2.trace = events ++ w.trace →
        ∀ x ∈ keys, useOf x ∉ sealUses events := by
  rcases create_cases (P := Crypto.IsIdeal) (v := .still v) hc userId w with
    ⟨w₁, hb, hm⟩ | ⟨⟨e, he⟩, hd, hm, es, hes, hgen⟩
  · -- the client that comes up accounts for the same keys
    have hfresh₁ := hfresh.of_suffix hm.trace_suffix
    have hup : Accounts w₁.trace w₁.client (keys.map Prod.fst) ∧ w.trace <:+ w₁.trace ∧
        sealUses w₁.trace = sealUses w.trace ∧ w₁.disk = w.disk ∧ v w₁.server = v w.server := by
      cases hb with
      | load saved n hdisk =>
        exact ⟨(h.disk saved hdisk).reload, List.suffix_rfl, rfl, rfl, rfl⟩
      | @identity _ hc' userId drawn n run =>
        refine ⟨run.accounts hc' userId (List.suffix_append [_, _, _] w.trace)
          (List.mem_cons_of_mem _ (List.mem_cons_self ..)) fun ck hck => ?_,
          List.suffix_append [_, _, _] w.trace, rfl, rfl, rfl⟩
        rcases hdisk : w.disk with _ | d
        · rw [h.missing hdisk] at hck
          cases hck
        · obtain ⟨b, n, ho, hch⟩ := (h.disk d hdisk).origin ck hck
          exact ⟨d, b, n, ho, hch⟩
    obtain ⟨hmem, ht, hs₁, hd₁, hv₁⟩ := hup
    have hdisk₁ : ∀ d, w₁.disk = some d → Accounts w₁.trace d (keys.map Prod.fst) := fun d hd =>
      (h.disk d (hd₁ ▸ hd)).mono ht
    obtain ⟨new, hseals, -, hnext, hacc⟩ := hm.uses hfresh hmem
    obtain ⟨hdisk, hnone⟩ := hm.disk_accounts hfresh hmem hdisk₁
    refine ⟨⟨?_, h.placed, h.order, fun hn => h.missing (hd₁ ▸ hnone hn), hdisk,
      fun _ => hacc.subset (List.subset_append_right _ _)⟩, fun events hev => ?_⟩
    · rw [hm.still, hv₁]
      exact h.sealedAt
    · exact sealUses_unused (w := w) (hseals.trans (by rw [hs₁])) hev hnext
  · have hv : v (PqChat.create c userId w).2.server = v w.server := hm.still
    have ht : w.trace <:+ (PqChat.create c userId w).2.trace := hm.trace_suffix
    refine ⟨⟨?_, h.placed, h.order, fun hn => h.missing (hd ▸ hn), fun d hd' => ?_, fun ha => ?_⟩,
      fun events hev x hx => ?_⟩
    · rw [hv]
      exact h.sealedAt
    · exact (h.disk d (hd ▸ hd')).mono ht
    · rw [he] at ha
      cases ha
    · -- a failed start seals nothing
      obtain rfl : es = events := List.append_cancel_right (hes.symm.trans hev)
      intro hmem
      obtain ⟨ev, hev', hu⟩ := List.mem_filterMap.mp hmem
      rcases hgen ev hev' with ⟨pair, rfl⟩ | ⟨pair, rfl⟩ <;> cases hu

/-- A call while the client is up. -/
theorem Kept.op (h : Kept v keys (true, w)) {c : Crypto Str} (hc : c.IsIdeal)
    {server : ServerApi Str S} (hserver : server.Records v) (op : Op Str)
    (hG : CallGuard.committing v c server op w)
    (hfresh : KeysFresh (op.run c server w).2.trace) :
    ∃ more, Kept v (keys ++ more) (true, (op.run c server w).2) ∧
      ∀ events, (op.run c server w).2.trace = events ++ w.trace →
        ∀ x ∈ keys, useOf x ∉ sealUses events := by
  have hm := op.run_moves_any (P := Crypto.IsIdeal) hc server w
  have hmem := h.memory rfl
  obtain ⟨new, hseals, -, hnext, hacc⟩ := hm.uses hfresh hmem
  have hunused : ∀ events, (op.run c server w).2.trace = events ++ w.trace →
      ∀ x ∈ keys, useOf x ∉ sealUses events := fun events hev => sealUses_unused hseals hev hnext
  by_cases hv : v (op.run c server w).2.server = v w.server
  · obtain ⟨hdisk, hnone⟩ := hm.disk_accounts hfresh hmem h.disk
    refine ⟨[], ?_, hunused⟩
    rw [List.append_nil]
    refine ⟨?_, h.placed, h.order, fun hn => h.missing (hnone hn), hdisk,
      fun _ => hacc.subset (List.subset_append_right _ _)⟩
    rw [hv]
    exact h.sealedAt
  · -- the server has accepted an envelope
    have hstill : ∀ op' : Op Str, ¬ op'.IsSend → v (op'.run c server w).2.server = v w.server :=
      fun op' hop => (Op.run_moves (P := Crypto.IsIdeal) hc hserver.quiet op'
        (fun h => (hop h).elim) (fun _ => trivial) w).still
    have haccepted : ∃ e x, Accepted v w (op.run c server w).2 e x := by
      have hrun : ∀ (x : Proc (World Str S) Unit),
          ((x >>= fun _ => pure ([] : List Str)) w).2 = (x w).2 := by
        intro x
        rcases hx : x w with ⟨e | u, w'⟩
        · rw [Proc.bind_error hx]
        · rw [Proc.bind_ok hx]
          rfl
      cases op with
      | initiate peer p =>
        rw [show ((Op.initiate peer p).run c server w).2 = _ from hrun _] at hv ⊢
        exact initiateSession_accepted hc hserver
          (hG (by rwa [show ((Op.initiate peer p).run c server w).2 = _ from hrun _]) peer p
            (Or.inl rfl)) hv
      | send peer p =>
        rw [show ((Op.send peer p).run c server w).2 = _ from hrun _] at hv ⊢
        exact sendMessage_accepted hc hserver
          (hG (by rwa [show ((Op.send peer p).run c server w).2 = _ from hrun _]) peer p
            (Or.inr rfl)) hv
      | publish => exact absurd (hstill .publish id) hv
      | verifyPeer peer safetyNumber => exact absurd (hstill (.verifyPeer peer safetyNumber) id) hv
      | processInbox => exact absurd (hstill .processInbox id) hv
      | handleInitial m => exact absurd (hstill (.handleInitial m) id) hv
      | handleChat m => exact absurd (hstill (.handleChat m) id) hv
      | refill => exact absurd (hstill .refill id) hv
    obtain ⟨e, x, ha⟩ := haccepted
    -- its key is the one key the call has used
    obtain rfl : new = [x] := by
      have h₁ : new.map useOf = [useOf x] := by
        have h₂ : [useOf x] ++ sealUses w.trace = new.map useOf ++ sealUses w.trace :=
          ha.seals.symm.trans hseals
        exact (List.append_cancel_right h₂).symm
      obtain ⟨y, rfl, hy⟩ := List.map_eq_singleton_iff.mp h₁
      rw [useOf_inj hy]
    have hx := hnext x (List.mem_singleton_self x)
    have hall : Accounts (op.run c server w).2.trace (op.run c server w).2.client
        ((keys ++ [x]).map Prod.fst) := by
      refine hacc.subset fun ck hck => ?_
      rw [List.map_append, List.mem_append] at hck
      exact List.mem_append.mpr hck.symm
    refine ⟨[x], ⟨?_, fun y hy => ?_, ?_, fun hn => ?_, fun d hd => ?_, fun _ => hall⟩, hunused⟩
    · rw [ha.server]
      exact List.rel_append h.sealedAt (.cons ha.sealedAt .nil)
    · rcases List.mem_append.mp hy with hy | hy
      · exact h.placed y hy
      · rw [List.mem_singleton.mp hy]
        exact hx.placed
    · refine List.pairwise_append.mpr ⟨h.order, List.pairwise_singleton _ _, fun y hy z hz => ?_⟩
      rw [List.mem_singleton.mp hz]
      exact hx.later y.1 (List.mem_map.mpr ⟨y, hy, rfl⟩)
    · rw [ha.disk] at hn
      cases hn
    · rw [ha.disk] at hd
      obtain rfl := Option.some.inj hd
      exact hall

end Kept

/-! ## 4. Lives -/

section Life

variable {v : S → List (Envelope Str)} {keys : List (Str × UInt64)} {s s' : Bool × World Str S}

/-- A step adds to the keys, and seals nothing under the old ones. -/
structure Extends (v : S → List (Envelope Str)) (keys : List (Str × UInt64))
    (s s' : Bool × World Str S) (more : List (Str × UInt64)) : Prop where
  kept : Kept v (keys ++ more) s'
  trace : s.2.trace <:+ s'.2.trace
  unused : ∀ events, s'.2.trace = events ++ s.2.trace → ∀ x ∈ keys, useOf x ∉ sealUses events

theorem Boot.trace_suffix {P : Crypto Str → Prop} {w w₁ : World Str S} (h : Boot P w w₁) :
    w.trace <:+ w₁.trace := by
  cases h with
  | load => exact List.suffix_rfl
  | identity => exact List.suffix_append [_, _, _] _

theorem Life.trace_suffix {G : CallGuard S} (h : Life v G s s') : s.2.trace <:+ s'.2.trace := by
  cases h with
  | @create alive w c hc userId =>
    rcases create_cases (P := Crypto.IsIdeal) (v := .any) hc userId w with
      ⟨w₁, hb, hm⟩ | ⟨-, -, -, es, hes, -⟩
    · exact hb.trace_suffix.trans hm.trace_suffix
    · exact ⟨es, hes.symm⟩
  | @op w c hc server hserver op hG =>
    exact (op.run_moves_any (P := Crypto.IsIdeal) hc server w).trace_suffix

theorem Life.extends (h : Life v (.committing v) s s') (hk : Kept v keys s)
    (hfresh : KeysFresh s'.2.trace) : ∃ more, Extends v keys s s' more := by
  have ht := h.trace_suffix
  cases h with
  | create hc userId =>
    obtain ⟨hk', hunused⟩ := hk.create hc userId hfresh
    exact ⟨[], by rwa [List.append_nil], ht, hunused⟩
  | op hc hserver op hG =>
    obtain ⟨more, hk', hunused⟩ := hk.op hc hserver op hG hfresh
    exact ⟨more, hk', ht, hunused⟩

theorem Extends.refl (hk : Kept v keys s) : Extends v keys s s [] := by
  refine ⟨by rwa [List.append_nil], List.suffix_rfl, fun events hev => ?_⟩
  obtain rfl : events = [] := List.append_left_eq_self.mp hev.symm
  exact fun _ _ => List.not_mem_nil

theorem Extends.trans {s₁ : Bool × World Str S} {more more' : List (Str × UInt64)}
    (h : Extends v keys s s₁ more) (h' : Extends v (keys ++ more) s₁ s' more') :
    Extends v keys s s' (more ++ more') := by
  refine ⟨by rw [← List.append_assoc]; exact h'.kept, h.trace.trans h'.trace,
    fun events hev x hx hmem => ?_⟩
  obtain ⟨es, hes⟩ := h.trace
  obtain ⟨es', hes'⟩ := h'.trace
  have hsplit : events = es' ++ es := by
    rw [← hes', ← hes, ← List.append_assoc] at hev
    exact (List.append_cancel_right hev).symm
  rw [hsplit, sealUses, List.filterMap_append] at hmem
  rcases List.mem_append.mp hmem with hmem | hmem
  · exact h'.unused es' hes'.symm x (List.mem_append_left _ hx) hmem
  · exact h.unused es hes.symm x hx hmem

theorem lives_suffix {G : CallGuard S} (h : Relation.ReflTransGen (Life v G) s s') :
    s.2.trace <:+ s'.2.trace := by
  induction h with
  | refl => exact List.suffix_rfl
  | tail _ hstep ih => exact ih.trans hstep.trace_suffix

theorem lives_extends (h : Relation.ReflTransGen (Life v (.committing v)) s s')
    (hk : Kept v keys s) (hfresh : KeysFresh s'.2.trace) : ∃ more, Extends v keys s s' more := by
  induction h with
  | refl => exact ⟨[], .refl hk⟩
  | tail _ hstep ih =>
    obtain ⟨more, hmore⟩ := ih (hfresh.of_suffix hstep.trace_suffix)
    obtain ⟨more', hmore'⟩ := hstep.extends hmore.kept hfresh
    exact ⟨more ++ more', hmore.trans hmore'⟩

/-- An envelope was sealed with one key. -/
theorem Envelope.SealedAt.unique {e : Envelope Str} {x x' : Str × UInt64} (h : e.SealedAt x)
    (h' : e.SealedAt x') : x = x' := by
  have key : ∀ {p ad p' ad'}, Symbolic.aeadSeal (useOf x).1 (useOf x).2 p ad =
      Symbolic.aeadSeal (useOf x').1 (useOf x').2 p' ad' → x = x' := by
    intro p ad p' ad' he
    simp only [Symbolic.aeadSeal, List.cons.injEq, Sym.app.injEq] at he
    exact useOf_inj (Prod.ext he.1.2.1 he.1.2.2.1)
  obtain ⟨p, ad, ⟨m, rfl, -, hct⟩ | ⟨m, rfl, -, hct⟩⟩ := h
  · obtain ⟨p', ad', ⟨m', he, -, hct'⟩ | ⟨m', he, -, -⟩⟩ := h'
    · cases he
      exact key (hct.symm.trans hct')
    · cases he
  · obtain ⟨p', ad', ⟨m', he, -, -⟩ | ⟨m', he, -, hct'⟩⟩ := h'
    · cases he
    · cases he
      exact key (hct.symm.trans hct')

theorem sealedAt_of_mem {es : List (Envelope Str)} (h : List.Forall₂ Envelope.SealedAt es keys)
    {e : Envelope Str} (he : e ∈ es) : ∃ x ∈ keys, e.SealedAt x := by
  induction h with
  | nil => cases he
  | cons h₁ _ ih =>
    rcases List.mem_cons.mp he with rfl | he
    · exact ⟨_, List.mem_cons_self .., h₁⟩
    · obtain ⟨x, hx, hat⟩ := ih he
      exact ⟨x, List.mem_cons_of_mem _ hx, hat⟩

/-- The state file is past the keys it accounts for. -/
theorem Accounts.isPast {t : List (Event Str)} {cl : Client Str} {used : List Str}
    (h : Accounts t cl used) {ck : Str} (hck : ck ∈ used) : cl.IsPast ck := by
  intro peer s b n n' hs hb hn hn'
  obtain ⟨b', hside⟩ := h.session peer s hs
  obtain ⟨rfl, rfl⟩ := hside.chain.unique hside.origin.isBase hb hn'
  exact hside.behind ck hck n hn

/-- **Sent messages survive restarts**, if in every call in which the server accepts an envelope
the save that follows goes through. -/
theorem sentSurvives_of_committing (v : S → List (Envelope Str)) :
    SentSurvives v (.committing v) := by
  intro w₀ s₁ s₂ hdisk _ hv h₁ h₂ hfresh e he
  have hk₀ : Kept v [] (false, w₀) := by
    refine ⟨?_, nofun, .nil, fun _ => rfl, fun d hd => ?_, nofun⟩
    · rw [hv]
      exact .nil
    · rw [hdisk] at hd
      cases hd
  have hfresh₁ := hfresh.of_suffix (lives_suffix h₂)
  obtain ⟨keys, hkeys⟩ := lives_extends h₁ hk₀ hfresh₁
  have hk₁ : Kept v keys s₁ := hkeys.kept
  obtain ⟨more, hmore⟩ := lives_extends h₂ hk₁ hfresh
  obtain ⟨x, hx, hat⟩ := sealedAt_of_mem hk₁.sealedAt he
  refine ⟨x, hat, ?_, fun events hev => hmore.unused events hev x hx, ?_⟩
  · rcases hd : s₁.2.disk with _ | d
    · rw [hk₁.missing hd] at hx
      cases hx
    · exact ⟨d, rfl, (hk₁.disk d hd).isPast (List.mem_map.mpr ⟨x, hx, rfl⟩)⟩
  · intro later hlater e' he' x' hat' b n n' hb hn hn' hnum
    -- the later envelope has one of the later keys
    have hmore₂ : List.Forall₂ Envelope.SealedAt later more := by
      have h := List.forall₂_drop_append _ _ _ hmore.kept.sealedAt
      rwa [hlater, ← hk₁.sealedAt.length_eq, List.drop_left] at h
    obtain ⟨y, hy, haty⟩ := sealedAt_of_mem hmore₂ he'
    obtain rfl := hat'.unique haty
    have hlt : n < n' := (List.pairwise_append.mp hmore.kept.order).2.2 x hx x' hy b n n' hb hn hn'
    obtain ⟨b₁, hb₁, hx₁⟩ := hk₁.placed x hx
    obtain ⟨b₂, hb₂, hx₂⟩ := hmore.kept.placed x' (List.mem_append_right _ hy)
    obtain ⟨-, rfl⟩ := hx₁.unique hb₁ hb hn
    obtain ⟨-, rfl⟩ := hx₂.unique hb₂ hb hn'
    exact hlt.ne (congrArg UInt64.toNat hnum)

end Life

/-! ## 5. Alice -/

namespace AliceBob

/-- Calls, one after the other, with Bob's mailbox. -/
def calls (ops : List (Op Str)) (w : World Str (List (Envelope Str))) :
    World Str (List (Envelope Str)) :=
  ops.foldl (fun w op => (op.run Crypto.symbolic (towards bob₀.client) w).2) w

/-- A condition on each of the calls. -/
def Guarded (G : CallGuard (List (Envelope Str))) :
    List (Op Str) → World Str (List (Envelope Str)) → Prop
  | [], _ => True
  | op :: ops, w => G Crypto.symbolic (towards bob₀.client) op w ∧ Guarded G ops (calls [op] w)

theorem towards_records (peer : Client Str) : (towards peer).Records id :=
  ⟨fun _ _ => rfl, fun _ _ => rfl, fun _ _ _ => rfl, fun _ _ _ => Or.inr rfl⟩

theorem lives_calls {G : CallGuard (List (Envelope Str))} :
    ∀ (ops : List (Op Str)) (w : World Str (List (Envelope Str))), Guarded G ops w →
      Relation.ReflTransGen (Life id G) (true, w) (true, calls ops w)
  | [], _, _ => .refl
  | op :: ops, w, h => .head (.op (.refl _) (towards_records _) op h.1)
    (lives_calls ops (calls [op] w) h.2)

/-- Come up, then make calls. -/
def up (ops : List (Op Str)) (w : World Str (List (Envelope Str))) :
    World Str (List (Envelope Str)) :=
  calls ops (create Crypto.symbolic (text "alice") w).2

theorem lives_up {G : CallGuard (List (Envelope Str))} {alive : Bool} (ops : List (Op Str))
    (w : World Str (List (Envelope Str)))
    (hok : (create Crypto.symbolic (text "alice") w).1.isOk = true)
    (h : Guarded G ops (create Crypto.symbolic (text "alice") w).2) :
    Relation.ReflTransGen (Life id G) (alive, w) (true, up ops w) := by
  have h₁ : Life id G (alive, w) _ := .create (.refl Crypto.symbolic) (text "alice")
  rw [hok] at h₁
  exact .head h₁ (lives_calls ops _ h)

/-- Alice meets Bob, starts a session and sends a message. -/
def first : List (Op Str) :=
  [.initiate (text "bob") [], .verifyPeer (text "bob") (safetyNumber bob₀.client),
    .initiate (text "bob") (text "hello"), .send (text "bob") (text "pay 10")]

/-- She sends another one. -/
def second : List (Op Str) := [.send (text "bob") (text "pay 99")]

/-- A state file that fails when it is accessed for the `n`-th time. -/
def failing (n : Nat) : World Str (List (Envelope Str)) :=
  { start 1 with diskOutcome := fun k => if k = n then .failed "disk full" else .ok }

/-- What `Commits` asks for, on the mailbox. -/
def ready (w : World Str (List (Envelope Str))) : Bool :=
  w.diskOutcome w.diskUses = .ok ∧
    w.client.trustedPeerIdentities.keys.card ≤ kMaxPersistedPeers ∧
    (insert (text "bob") w.client.sessionsByPeer.keys).card ≤ kMaxPersistedSessions

/-- Alice comes up, and is ready for each of the calls. -/
abbrev Commits (ops : List (Op Str)) (w : World Str (List (Envelope Str))) : Prop :=
  (create Crypto.symbolic (text "alice") w).1.isOk = true ∧
    ∀ n < ops.length, ready (calls (ops.take n) (create Crypto.symbolic (text "alice") w).2) = true

theorem guarded_committing : ∀ (ops : List (Op Str)) (w : World Str (List (Envelope Str))),
    (∀ op ∈ ops, ∀ peer p, op = .initiate peer p ∨ op = .send peer p → peer = text "bob") →
    (∀ n < ops.length, ready (calls (ops.take n) w) = true) → Guarded (.committing id) ops w
  | [], _, _, _ => trivial
  | op :: ops, w, hto, h => by
    refine ⟨fun _ peer p hop => ?_, guarded_committing ops _
      (fun op' hop' => hto op' (List.mem_cons_of_mem _ hop')) fun n hn => ?_⟩
    · obtain rfl := hto op (List.mem_cons_self ..) peer p hop
      obtain ⟨hd, ht, hs⟩ := of_decide_eq_true (h 0 (Nat.succ_pos _))
      refine ⟨fun e => ?_, ht, hs, nofun⟩
      rw [show w.diskOutcome w.diskUses = .ok from hd]
      exact nofun
    · exact h (n + 1) (Nat.succ_lt_succ hn)

/-- The key and the nonce of a ciphertext. -/
def sealedUnder : Str → Option (Str × Str)
  | [.app .aead key nonce _ _] => some (key, nonce)
  | _ => none

def chatSealedUnder (e : Envelope Str) : Option (Str × Str) :=
  e.chat.bind fun m => sealedUnder m.ciphertext

/-- What has been sealed, with the plaintexts. -/
def sealings (trace : List (Event Str)) : List ((Str × Str) × Str) :=
  trace.filterMap fun
    | .seal key nonce plaintext _ => some ((key, nonce), plaintext)
    | _ => none

end AliceBob

/-- Alice restarts after two messages and sends a third one. -/
theorem sentSurvives_alice : ∃ w₁ w₂ : World Str (List (Envelope Str)),
    (Relation.ReflTransGen (Life id (.committing id)) (false, AliceBob.start 1) (true, w₁) ∧
      Relation.ReflTransGen (Life id (.committing id)) (true, w₁) (true, w₂) ∧
      w₁.server.length = 2 ∧ w₂.server.length = 3 ∧ KeysFresh w₂.trace) ∧
    ∀ e ∈ w₁.server, Survives id w₁ w₂ e := by
  let w₁ := AliceBob.up AliceBob.first (AliceBob.start 1)
  let w₂ := AliceBob.up AliceBob.second w₁
  obtain ⟨⟨hup, hready⟩, ⟨hup', hready'⟩, hfirst, hsecond, hfresh⟩ :
      AliceBob.Commits AliceBob.first (AliceBob.start 1) ∧ AliceBob.Commits AliceBob.second w₁ ∧
        w₁.server.length = 2 ∧ w₂.server.length = 3 ∧ KeysFresh w₂.trace := by decide +kernel
  have h₁ : Relation.ReflTransGen (Life id (.committing id)) (false, AliceBob.start 1)
      (true, w₁) :=
    AliceBob.lives_up _ _ hup
      (AliceBob.guarded_committing _ _ (by simp [AliceBob.first]) hready)
  have h₂ : Relation.ReflTransGen (Life id (.committing id)) (true, w₁) (true, w₂) :=
    AliceBob.lives_up _ _ hup'
      (AliceBob.guarded_committing _ _ (by simp [AliceBob.second]) hready')
  exact ⟨w₁, w₂, ⟨h₁, h₂, hfirst, hsecond, hfresh⟩,
    sentSurvives_of_committing id _ _ _ rfl rfl rfl h₁ h₂ hfresh⟩

/-- **The save after a sent message fails, Alice restarts, and seals another message with the
same key and nonce.** -/
theorem not_sentSurvives_any : ¬ SentSurvives (S := List (Envelope Str)) id .any := by
  intro h
  let w₁ := AliceBob.up AliceBob.first (AliceBob.failing 4)
  let w₂ := AliceBob.up AliceBob.second w₁
  have hany : ∀ ops w, AliceBob.Guarded .any ops w := by
    intro ops
    induction ops with
    | nil => exact fun _ => trivial
    | cons op ops ih => exact fun w => ⟨trivial, ih _⟩
  -- the message with "pay 10" and the one with "pay 99"
  let events := w₂.trace.take (w₂.trace.length - w₁.trace.length)
  obtain ⟨hup, hup', hfresh, hev, k, hk, hmem, -⟩ :
      (create Crypto.symbolic (text "alice") (AliceBob.failing 4)).1.isOk = true ∧
      (create Crypto.symbolic (text "alice") w₁).1.isOk = true ∧ KeysFresh w₂.trace ∧
      w₂.trace = events ++ w₁.trace ∧
      ∃ k ∈ w₁.server.filterMap AliceBob.chatSealedUnder, k ∈ sealUses events ∧
        (k, text "pay 10") ∈ AliceBob.sealings w₁.trace ∧
        (k, text "pay 99") ∈ AliceBob.sealings events := by decide +kernel
  have h₁ : Relation.ReflTransGen (Life id .any) (false, AliceBob.failing 4) (true, w₁) :=
    AliceBob.lives_up _ _ hup (hany _ _)
  have h₂ : Relation.ReflTransGen (Life id .any) (true, w₁) (true, w₂) :=
    AliceBob.lives_up _ _ hup' (hany _ _)
  obtain ⟨e, he, hk⟩ := List.mem_filterMap.mp hk
  obtain ⟨x, ⟨p, ad, ⟨m', rfl, -, hct⟩ | ⟨m', rfl, -, -⟩⟩, -, hunused, -⟩ :=
    h _ _ _ rfl rfl rfl h₁ h₂ hfresh e he
  · have hk' : AliceBob.sealedUnder m'.ciphertext = some k := hk
    rw [hct] at hk'
    obtain rfl : useOf x = k := Option.some.inj hk'
    exact hunused events hev hmem
  · cases hk

end PqChat
