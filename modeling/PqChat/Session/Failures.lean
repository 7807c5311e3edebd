/-
# Calls that fail

What a call that returns an error leaves behind.  `HandleInitialMessage` computes everything
first and assigns at the end; it leaves the client as it was, up to a new unverified peer
(`handleInitialMessage_rejects`).  The other three assign as they go:

* `HandleChatMessage` takes the ratchet step of a header before the message is authenticated;
* `SendMessage` moves the chain on before the envelope is with the server;
* `InitiateSession` stores the new session before the envelope is with the server.

For each of them the condition is given under which a failure is harmless, and it is exact.
-/
import PqChat.Session.Duplex

set_option linter.unusedSectionVars false

namespace PqChat

open ByteString

variable {B S : Type} [ByteString B] [DecidableEq B] {c : Crypto B}

/-! ## 1. Chat messages -/

/-- A message that is rejected leaves the client as it was, and every message that would have
been accepted before is accepted after it. -/
def ChatMessage.RejectedHarmlessly (c : Crypto B) (m : ChatMessage B) (w : World B S) : Prop :=
  ∀ e w', handleChatMessage c m w = (.error e, w') → w'.client = w.client ∧
    ∀ later p, (handleChatMessage c later w).1 = .ok p → (handleChatMessage c later w').1 = .ok p

/-- The header of the message makes the client ratchet, to the session `s₁`. -/
def Client.RatchetsTo (c : Crypto B) (cl : Client B) (m : ChatMessage B)
    (s₁ : SessionState B) : Prop :=
  ∃ s newRemote dh ck rk, cl.sessionsByPeer.lookup m.fromUser = some s ∧
    m.Addressed m.fromUser cl.userId s.sessionId ∧
    m.header.senderRatchetPublicKey = some newRemote ∧ newRemote ≠ s.remoteRatchetPublic ∧
    c.x25519SharedSecret s.localRatchetKey.privateKey newRemote = .ok dh ∧
    deriveRatchetRootAndChain c dh s.rootKey = .ok (ck, rk) ∧
    s₁ = s.ratcheted ck rk newRemote

/-- To store a session that is stored changes nothing. -/
theorem Client.withSession_self {cl : Client B} {peer : B} {s : SessionState B}
    (h : cl.sessionsByPeer.lookup peer = some s) : cl.withSession peer s = cl := by
  have hsame : cl.sessionsByPeer.insert peer s = cl.sessionsByPeer := by
    refine Finmap.ext_lookup fun p => ?_
    by_cases hp : p = peer
    · rw [hp, Finmap.lookup_insert, h]
    · rw [Finmap.lookup_insert_of_ne _ hp]
  rw [Client.withSession, hsame]

/-- Whether a message is accepted depends on the client only. -/
theorem handleChatMessage_congr {later : ChatMessage B} {p : B} {w w' : World B S}
    (h : w'.client = w.client) (hp : (handleChatMessage c later w).1 = .ok p) :
    (handleChatMessage c later w').1 = .ok p := by
  rcases handleChatMessage_cases c later w with ⟨e, he⟩ | ⟨s, hl, ha, he⟩
  · rw [he] at hp
    cases hp
  · rw [← h] at hl ha
    rw [he] at hp
    rw [handleChatMessage_eq ha hl]
    exact hp

/-- A ratchet step is seen in the session. -/
theorem SessionState.ratcheted_ne {s : SessionState B} {ck rk newRemote : B}
    (h : newRemote ≠ s.remoteRatchetPublic) : s.ratcheted ck rk newRemote ≠ s := fun he =>
  h (congrArg SessionState.remoteRatchetPublic he)

/-- **A chat message is rejected harmlessly if and only if it makes the client ratchet only when
it opens as the first message of the new chain.** -/
theorem rejectedHarmlessly_iff (c : Crypto B) (m : ChatMessage B) (w : World B S) :
    m.RejectedHarmlessly c w ↔
      ∀ s₁, w.client.RatchetsTo c m s₁ → ∃ p s', Opens c m s₁ p s' := by
  constructor
  · rintro h s₁ ⟨s, newRemote, dh, ck, rk, hl, ha, hm, hne, hdh, hmix, rfl⟩
    have hr := recvRatchet_new hm hne hdh hmix
    rcases receiveChat_cases c m s with ⟨e, he⟩ | ⟨p, s₁, s', hr', hopen, -⟩
    · -- the ratcheted session stays
      rw [hr] at he
      have hrun := handleChatMessage_eq (c := c) ha hl
      rw [he] at hrun
      have hsame := congrArg (fun cl : Client B => cl.sessionsByPeer.lookup m.fromUser)
        (h e _ hrun).1
      dsimp only at hsame
      rw [Client.lookup_withSession, hl] at hsame
      exact absurd (Option.some.inj hsame) (SessionState.ratcheted_ne hne)
    · obtain ⟨-, rfl⟩ := Prod.mk.inj (hr.symm.trans hr')
      exact ⟨p, s', hopen⟩
  · intro h e w' hrun
    have hclient : w'.client = w.client := by
      rcases handleChatMessage_cases c m w with ⟨e', he⟩ | ⟨s, hl, ha, he⟩
      · rw [he] at hrun
        obtain ⟨-, rfl⟩ := Prod.mk.inj hrun
        rfl
      · rw [he] at hrun
        obtain ⟨hresult, rfl⟩ := Prod.mk.inj hrun
        rcases recvRatchet_cases c m s with hr | ⟨k, dh, ck, rk, hm, hne, hdh, hmix, hr⟩
        · rcases receiveChat_cases c m s with ⟨e', he'⟩ | ⟨p, s₁, s', -, -, hok⟩
          · rw [he', hr]
            exact Client.withSession_self hl
          · rw [hok] at hresult
            cases hresult
        · obtain ⟨p, s', hopen⟩ := h _ ⟨s, k, dh, ck, rk, hl, ha, hm, hne, hdh, hmix, rfl⟩
          rw [receiveChat_eq_ok.mpr ⟨_, hr, hopen⟩] at hresult
          cases hresult
    exact ⟨hclient, fun later p hp => handleChatMessage_congr hclient hp⟩

namespace AliceBob

open Symbolic

/-- A message to Bob that names a ratchet key, and that nobody has sealed. -/
def forged : ChatMessage Str where
  sessionId := hello.sessionId
  fromUser := text "alice"
  toUser := text "bob"
  header := { senderRatchetPublicKey := some alice.client.identityDhKey.publicKey }
  nonce := nonceFromCounter 0
  ciphertext := text "not sealed by Alice"

/-- Bob rejects it, and has ratcheted. -/
theorem forged_ratchets :
    (handleChatMessage Crypto.symbolic forged bob₁).1.isOk = false ∧
    ((handleChatMessage Crypto.symbolic forged bob₁).2.client.sessionsByPeer.lookup
      (text "alice")).map SessionState.recvCounter ≠
        (bob₁.client.sessionsByPeer.lookup (text "alice")).map SessionState.recvCounter := by
  decide +kernel

end AliceBob

/-- **A forged header makes Bob ratchet.** -/
theorem forged_not_harmless :
    ¬ AliceBob.forged.RejectedHarmlessly Crypto.symbolic AliceBob.bob₁ := by
  intro h
  obtain ⟨hfails, hratcheted⟩ := AliceBob.forged_ratchets
  rcases hrun : handleChatMessage Crypto.symbolic AliceBob.forged AliceBob.bob₁ with ⟨e | p, w'⟩
  · have hsame := congrArg (fun cl : Client Symbolic.Str =>
      (cl.sessionsByPeer.lookup (text "alice")).map SessionState.recvCounter) (h e w' hrun).1
    rw [show w' = (handleChatMessage Crypto.symbolic AliceBob.forged AliceBob.bob₁).2 from
      (congrArg Prod.snd hrun).symm] at hsame
    exact hratcheted hsame
  · rw [hrun] at hfails
    cases hfails

/-! ## 2. Initial messages -/

/-- The client with the identity of a message on record for its sender. -/
def Client.knowing (cl : Client B) (m : InitialMessage B) (verified : Bool) : Client B :=
  { cl with
    trustedPeerIdentities := cl.trustedPeerIdentities.insert m.fromUser
      ⟨m.initiatorIdentitySignPublicKey, m.initiatorIdentityMldsaPublicKey,
        m.initiatorIdentityDhPublicKey, verified⟩ }

/-- A client after a failed call: as it was, or with one peer more. -/
def Client.MayRemember (m : InitialMessage B) (cl cl' : Client B) : Prop :=
  cl' = cl ∨ cl.trustedPeerIdentities.lookup m.fromUser = none ∧ cl' = cl.knowing m false

/-- The message has been rejected because its sender is not verified: the sender is new, or on
record with the same keys, and a client that had verified it would accept the message. -/
structure InitialMessage.OnlyUnverified (c : Crypto B) (m : InitialMessage B) (w : World B S)
    (p : B) : Prop where
  sender : w.client.trustedPeerIdentities.lookup m.fromUser = none ∨
    w.client.trustedPeerIdentities.lookup m.fromUser =
      some ⟨m.initiatorIdentitySignPublicKey, m.initiatorIdentityMldsaPublicKey,
        m.initiatorIdentityDhPublicKey, false⟩
  accepted : (handleInitialMessage c m { w with client := w.client.knowing m true }).1 = .ok p

/-- An initial message that is rejected leaves the client as it was, up to a new peer, and can be
handled again when the peer is verified. -/
structure InitialMessage.RejectedHarmlessly (c : Crypto B) (m : InitialMessage B)
    (w : World B S) : Prop where
  client : ∀ e w', handleInitialMessage c m w = (.error e, w') → w.client.MayRemember m w'.client
  retried : ∀ e w₁ number w₂ p, handleInitialMessage c m w = (.error e, w₁) →
    m.OnlyUnverified c w p →
    verifyPeerSafetyNumber c m.fromUser number w₁ = (.ok (), w₂) →
    (handleInitialMessage c m w₂).1 = .ok p

/-- A save leaves the client alone. -/
theorem saveLocalState_client (p : String) (cl : Client B) :
    Proc.Preserves (fun w : World B S => w.client = cl) (Proc.within p saveLocalState) :=
  .within _ fun w h => (saveLocalState_frame w).1.trans h

theorem verifyOrRememberPeerIdentity_client (m : InitialMessage B) (w : World B S) :
    Proc.wp (verifyOrRememberPeerIdentity c m.fromUser m.initiatorIdentitySignPublicKey
        m.initiatorIdentityMldsaPublicKey m.initiatorIdentityDhPublicKey)
      (fun _ w' => w.client.MayRemember m w'.client) w := by
  refine Proc.wp_ofExcept_bind (fun _ _ => Or.inl rfl) fun number _ => Proc.wp_get_bind ?_
  rcases hl : w.client.trustedPeerIdentities.lookup m.fromUser with _ | id
  · refine Proc.wp_modify_bind (Or.inr ⟨hl, ?_⟩)
    exact Proc.Preserves.bind (saveLocalState_client _ (w.client.knowing m false))
      (fun _ => .fail _) _ rfl
  · refine Proc.wp_require_bind (fun _ => Or.inl rfl) fun _ => ?_
    exact Or.inl
      (Proc.Preserves.require (I := fun w' : World B S => w'.client = w.client) _ _ _ rfl)

theorem checkInitialMessage_client (m : InitialMessage B) (w : World B S) :
    Proc.wp (checkInitialMessage c m) (fun _ w' => w.client.MayRemember m w'.client) w := by
  refine Proc.wp_get_bind (Proc.wp_require_bind (fun _ => Or.inl rfl) fun _ => ?_)
  refine Proc.wp_require_bind (fun _ => Or.inl rfl) fun _ => ?_
  refine Proc.wp_ofExcept_bind (fun _ _ => Or.inl rfl) fun _ _ => ?_
  refine Proc.wp_require_bind (fun _ => Or.inl rfl) fun _ => ?_
  refine Proc.wp_ofExcept_bind (fun _ _ => Or.inl rfl) fun _ _ => ?_
  refine Proc.wp_ofExcept_bind (fun _ _ => Or.inl rfl) fun _ _ => ?_
  exact verifyOrRememberPeerIdentity_client m w

/-- **An initial message that is rejected leaves the client as it was, up to a new peer.** -/
theorem handleInitialMessage_client (m : InitialMessage B) (w : World B S) :
    Proc.wp (handleInitialMessage c m)
      (fun r w' => ∀ e, r = .error e → w.client.MayRemember m w'.client) w := by
  have hsame : ∀ (w' : World B S) (r : Result B), w'.client = w.client →
      ∀ e, r = .error e → w.client.MayRemember m w'.client := fun _ _ h _ _ => Or.inl h
  let w₁ : World B S := { w with trace := .receivedInitial m :: w.trace }
  refine Proc.wp_modify_bind (Proc.wp_get_bind ?_)
  refine Proc.wp_require_bind (fun _ => hsame _ _ rfl) fun _ => ?_
  refine Proc.wp_require_bind (fun _ => hsame _ _ rfl) fun _ => ?_
  refine Proc.wp_require_bind (fun _ => hsame _ _ rfl) fun _ => ?_
  split
  swap
  · exact hsame _ _ rfl
  rcases hcheck : checkInitialMessage c m w₁ with ⟨e | u, w₂⟩
  · have hclient := checkInitialMessage_client (c := c) m w₁
    rw [Proc.wp, hcheck] at hclient
    exact Proc.wp_of_eq (Proc.bind_error hcheck _) fun _ _ => hclient
  · -- from here on nothing is assigned before the end
    obtain ⟨-, hok⟩ := checkInitialMessage_spec (P := fun _ => True) (v := .any) (c := c) m
      (w := w₁) .refl
    rw [hcheck] at hok
    obtain rfl := (hok rfl).1
    refine Proc.wp_of_bind_ok hcheck ?_
    refine Proc.wp_ofExcept_bind (fun _ _ => hsame _ _ rfl) fun _ _ => ?_
    refine Proc.wp_ofExcept_bind (fun _ _ => hsame _ _ rfl) fun _ _ => ?_
    rcases rememberInitialReplayGuards_cases m.sessionId m.transcriptHash w₁ with
      ⟨-, h⟩ | ⟨-, e, h⟩
    · refine Proc.wp_of_bind_ok h fun _ he => ?_
      cases he
    · exact Proc.wp_of_eq (Proc.bind_error h _) (hsame _ _ rfl)

/-- What a successful `VerifyPeerSafetyNumber` has done to the client. -/
theorem verifyPeerSafetyNumber_client {peer number : B} {w w' : World B S}
    (h : verifyPeerSafetyNumber c peer number w = (.ok (), w')) :
    ∃ id, w.client.trustedPeerIdentities.lookup peer = some id ∧ w'.client = { w.client with
      trustedPeerIdentities :=
        w.client.trustedPeerIdentities.insert peer { id with verified := true } } := by
  rw [verifyPeerSafetyNumber, Proc.get_bind_apply] at h
  rcases hl : w.client.trustedPeerIdentities.lookup peer with _ | id
  · rw [hl] at h
    cases (Prod.mk.inj h).1
  · rw [hl] at h
    simp only [Proc.bind_eq_ok_iff, Proc.ofExcept_eq_ok_iff, Proc.require_eq_ok_iff] at h
    obtain ⟨computed, _, ⟨-, rfl⟩, _, _, ⟨-, rfl⟩, _, w₁, hmodify, hsave⟩ := h
    have hclient := saveLocalState_client "persist local state failed: " w₁.client w₁ rfl
    rw [hsave] at hclient
    exact ⟨id, rfl, hclient.trans (congrArg World.client (Prod.mk.inj hmodify).2.symm)⟩

/-- **Every initial message is rejected harmlessly.** -/
theorem initial_rejectedHarmlessly (c : Crypto B) (m : InitialMessage B) (w : World B S) :
    m.RejectedHarmlessly c w := by
  have hclient : ∀ e w', handleInitialMessage c m w = (.error e, w') →
      w.client.MayRemember m w'.client := by
    intro e w' h
    have hm := handleInitialMessage_client (c := c) m w
    rw [Proc.wp, h] at hm
    exact hm e rfl
  refine ⟨hclient, fun e w₁ number w₂ p h honly hverify => ?_⟩
  obtain ⟨id, hid, hw₂⟩ := verifyPeerSafetyNumber_client hverify
  -- the client has come to know the sender, and nothing else
  have hknows : w₂.client = w.client.knowing m true := by
    rcases hclient e w₁ h with hw₁ | ⟨-, hw₁⟩
    · rw [hw₁] at hid hw₂
      rcases honly.sender with hnone | hsome
      · rw [hnone] at hid
        cases hid
      · obtain rfl := Option.some.inj (hsome.symm.trans hid)
        exact hw₂
    · rw [hw₁, Client.knowing, Finmap.lookup_insert] at hid
      obtain rfl := Option.some.inj hid
      rw [hw₂, hw₁, Client.knowing, Client.knowing, Finmap.insert_insert]
  have haccepted := honly.accepted
  rcases handleInitialMessage_cases (c := c) (P := fun _ => True) (v := .any) m
    { w with client := w.client.knowing m true } with ⟨run, hrun⟩ | ⟨e', w', hrun, -⟩
  · rw [hrun] at haccepted
    obtain ⟨cl, s, d, en, n, o, k, t⟩ := w₂
    obtain rfl : cl = w.client.knowing m true := hknows
    rw [handleInitialMessage_of_run (w := ⟨_, s, d, en, n, o, k, t⟩) run]
    exact haccepted
  · rw [hrun] at haccepted
    cases haccepted

/-- Alice's message reaches a Bob who does not know her: it would be accepted, had he verified
her. -/
theorem AliceBob.hello_onlyUnverified :
    AliceBob.hello.OnlyUnverified Crypto.symbolic AliceBob.bob₀ (text "hello") := by
  have h : AliceBob.bob₀.client.trustedPeerIdentities.lookup AliceBob.hello.fromUser = none ∧
      (handleInitialMessage Crypto.symbolic AliceBob.hello { AliceBob.bob₀ with
        client := AliceBob.bob₀.client.knowing AliceBob.hello true }).1 = .ok (text "hello") := by
    decide +kernel
  exact ⟨Or.inl h.1, h.2⟩

/-! ## 3. Sending -/

/-- `v` are the envelopes that the server has stored.  `EnqueueEnvelope` stores its envelope if it
says so, and `AcquireBundleForSession` stores none. -/
structure ServerApi.Delivers (server : ServerApi B S) (v : S → List (Envelope B)) : Prop where
  acquireBundle : ∀ u s, v (server.acquireBundleForSession u s).2 = v s
  enqueued : ∀ peer e s, (server.enqueueEnvelope peer e s).1 = .ok () →
    v (server.enqueueEnvelope peer e s).2 = v s ++ [e]

/-- The server answers an envelope with an error, and has not stored it. -/
def ServerApi.Refuses (server : ServerApi B S) (v : S → List (Envelope B)) (peer : B)
    (e : Envelope B) (s : S) : Prop :=
  (∃ err, (server.enqueueEnvelope peer e s).1 = .error err) ∧
    v (server.enqueueEnvelope peer e s).2 = v s

/-- What is not stored has been refused. -/
theorem ServerApi.Delivers.refuses {server : ServerApi B S} {v : S → List (Envelope B)}
    (h : server.Delivers v) {peer : B} {e : Envelope B} {s : S}
    (hsame : v (server.enqueueEnvelope peer e s).2 = v s) : server.Refuses v peer e s := by
  refine ⟨?_, hsame⟩
  rcases hr : (server.enqueueEnvelope peer e s).1 with err | u
  · exact ⟨err, rfl⟩
  · have hstored := h.enqueued peer e s hr
    rw [hsame] at hstored
    simp at hstored

/-- A `SendMessage` that fails and leaves nothing with the server leaves the session as it
was. -/
def SendFailsHarmlessly (c : Crypto B) (server : ServerApi B S) (v : S → List (Envelope B))
    (peer p : B) (w : World B S) : Prop :=
  ∀ e w', sendMessage c server peer p w = (.error e, w') → v w'.server = v w.server →
    w'.client.sessionsByPeer.lookup peer = w.client.sessionsByPeer.lookup peer

/-- The session and the header that the next message of a session is encrypted with: those of the
session, or those of a ratchet step with the key of the seed. -/
inductive SendStep (c : Crypto B) (seed : Nat) (s : SessionState B) :
    SessionState B → MessageHeader B → Prop
  | plain (hd : ¬ s.ratchetDue) : SendStep c seed s s {}
  | ratchet (run : SendRatchetRun c s) (hseed : run.seed = seed) :
    SendStep c seed s run.session run.header

/-- What keeps a failure harmless: the message that the session derives for the plaintext is not
refused, and there is one if a ratchet step is due and goes through. -/
structure SendsSafely (c : Crypto B) (server : ServerApi B S) (v : S → List (Envelope B))
    (peer p : B) (w : World B S) : Prop where
  accepted : ∀ s s₁ header, w.client.sessionsByPeer.lookup peer = some s →
    SendStep c (w.entropy w.drawn) s s₁ header →
    ∀ run : SealChatRun c w.client.userId peer s₁ header p,
      ¬ server.Refuses v peer (.fromChat run.message) w.server
  encrypted : ∀ s, w.client.sessionsByPeer.lookup peer = some s →
    ∀ step : SendRatchetRun c s, step.seed = w.entropy w.drawn →
      Nonempty (SealChatRun c w.client.userId peer step.session step.header p)

/-- `SendMessage` up to the point where the envelope is handed over. -/
def prepareChat (c : Crypto B) (peer p : B) : Proc (World B S) (ChatMessage B) := do
  let w ← Proc.get
  match w.client.sessionsByPeer.lookup peer with
  | none => Proc.fail "no active session with peer"
  | some session => sealChat c peer session p

theorem sendMessage_eq (server : ServerApi B S) (peer p : B) (w : World B S) :
    sendMessage c server peer p w = (prepareChat c peer p >>= fun m =>
      enqueueAndSave server peer (.fromChat m)) w := by
  rw [sendMessage, prepareChat, Proc.bind_assoc, Proc.get_bind_apply, Proc.get_bind_apply]
  rcases w.client.sessionsByPeer.lookup peer with _ | s <;> rfl

theorem prepareChat_eq {peer : B} {s : SessionState B} {w : World B S}
    (hs : w.client.sessionsByPeer.lookup peer = some s) (p : B) :
    prepareChat c peer p w = (sendRatchet c peer s >>= fun step =>
      sealStep c w.client.userId peer step p) w := by
  rw [prepareChat, Proc.get_bind_apply, hs]
  dsimp only
  rw [sealChat, Proc.get_bind_apply]

/-- The session has moved, and the server has not been called. -/
structure World.Moved (peer : B) (s : SessionState B) (w w' : World B S) : Prop where
  session : ∃ s', w'.client.sessionsByPeer.lookup peer = some s' ∧ s'.sendCounter ≠ s.sendCounter
  server : w'.server = w.server

theorem World.Moved.ne {peer : B} {s : SessionState B} {w w' : World B S}
    (h : w.Moved peer s w') (hs : w.client.sessionsByPeer.lookup peer = some s) :
    w'.client.sessionsByPeer.lookup peer ≠ w.client.sessionsByPeer.lookup peer := by
  obtain ⟨s', hl, hne⟩ := h.session
  intro he
  rw [hl, hs] at he
  exact hne (congrArg SessionState.sendCounter (Option.some.inj he))

theorem counter_ne_next (n : UInt64) : n + 1 ≠ n := by
  intro h
  have h' := congrArg UInt64.toNat h
  rw [UInt64.toNat_add, UInt64.toNat_one] at h'
  have hn := n.toNat_lt
  omega

/-- The message that follows a ratchet step has number 0. -/
theorem SessionState.ratchetDue.counter_ne_one {s : SessionState B} (h : s.ratchetDue) :
    (0 : UInt64) + 1 ≠ s.sendCounter := by
  intro hs
  have hmod := h.2
  rw [← hs] at hmod
  revert hmod
  decide

theorem SessionState.ratchetDue.counter_ne_zero {s : SessionState B} (h : s.ratchetDue) :
    (0 : UInt64) ≠ s.sendCounter := by
  intro hs
  have hpos := h.1
  rw [← hs] at hpos
  exact absurd hpos (by decide)

/-- What the session derives is what `SendMessage` hands over, and the session has moved then. -/
theorem prepareChat_of_run {peer p : B} {s s₁ : SessionState B} {header : MessageHeader B}
    {w : World B S} (hs : w.client.sessionsByPeer.lookup peer = some s)
    (hstep : SendStep c (w.entropy w.drawn) s s₁ header)
    (run : SealChatRun c w.client.userId peer s₁ header p) :
    ∃ w₁, prepareChat c peer p w = (.ok run.message, w₁) ∧ w.Moved peer s w₁ := by
  rw [prepareChat_eq hs]
  cases hstep with
  | plain hd =>
    have hplain : sendRatchet c peer s w = (.ok (s, {}), w) := by
      rw [sendRatchet, if_neg hd]
      rfl
    refine ⟨_, (Proc.bind_ok hplain _).trans (sealStep_of_run run w), ?_, rfl⟩
    exact ⟨_, Client.lookup_withSession .., counter_ne_next _⟩
  | ratchet step hseed =>
    refine ⟨_, (Proc.bind_ok (sendRatchet_of_run peer step hseed) _).trans
      (sealStep_of_run run _), ?_, rfl⟩
    exact ⟨_, Client.lookup_withSession .., step.due.counter_ne_one⟩

/-- A ratchet step whose message is not encrypted has moved the session all the same. -/
theorem prepareChat_unsealed {peer p : B} {s : SessionState B} {w : World B S}
    (hs : w.client.sessionsByPeer.lookup peer = some s) (step : SendRatchetRun c s)
    (hseed : step.seed = w.entropy w.drawn)
    (hnone : ¬ Nonempty (SealChatRun c w.client.userId peer step.session step.header p)) :
    ∃ e w₁, prepareChat c peer p w = (.error e, w₁) ∧ w.Moved peer s w₁ := by
  rw [prepareChat_eq hs, Proc.bind_ok (sendRatchet_of_run peer step hseed)]
  rcases sealStep_cases (c := c) w.client.userId peer (step.session, step.header) p
    { w with
      drawn := w.drawn + 1
      trace := .x25519 step.newRatchet :: w.trace
      client := w.client.withSession peer step.session } with ⟨run, -⟩ | ⟨e, he⟩
  · exact absurd ⟨run⟩ hnone
  · refine ⟨e, _, he, ?_, rfl⟩
    exact ⟨_, Client.lookup_withSession .., step.due.counter_ne_zero⟩

/-- What comes before the envelope is handed over: a message that the session derives, an error
that leaves the client alone, or a ratchet step whose message is not encrypted. -/
theorem prepareChat_cases {peer : B} {s : SessionState B} {w : World B S}
    (hs : w.client.sessionsByPeer.lookup peer = some s) (p : B) :
    (∃ s₁ header, SendStep c (w.entropy w.drawn) s s₁ header ∧
      Nonempty (SealChatRun c w.client.userId peer s₁ header p)) ∨
    (∃ e w₁, prepareChat c peer p w = (.error e, w₁) ∧ w₁.client = w.client) ∨
    ∃ step : SendRatchetRun c s, step.seed = w.entropy w.drawn ∧
      ¬ Nonempty (SealChatRun c w.client.userId peer step.session step.header p) := by
  have hchat := prepareChat_eq (c := c) hs p
  rcases sendRatchet_cases (c := c) peer s w with
    ⟨hd, hr⟩ | ⟨step, hseed, hr⟩ | ⟨e, pair, _, _, hr⟩ | ⟨e, hr⟩
  · rw [Proc.bind_ok hr] at hchat
    rcases sealStep_cases (c := c) w.client.userId peer (s, {}) p w with ⟨run, -⟩ | ⟨e, he⟩
    · exact Or.inl ⟨s, {}, .plain hd, ⟨run⟩⟩
    · exact Or.inr (Or.inl ⟨e, w, hchat.trans he, rfl⟩)
  · by_cases hrun : Nonempty (SealChatRun c w.client.userId peer step.session step.header p)
    · exact Or.inl ⟨_, _, .ratchet step hseed, hrun⟩
    · exact Or.inr (Or.inr ⟨step, hseed, hrun⟩)
  · exact Or.inr (Or.inl ⟨e, _, hchat.trans (Proc.bind_error hr _), rfl⟩)
  · exact Or.inr (Or.inl ⟨e, _, hchat.trans (Proc.bind_error hr _), rfl⟩)

/-- How a call ends that hands over an envelope. -/
theorem enqueueAndSave_refused {server : ServerApi B S} {v : S → List (Envelope B)} {peer : B}
    {e : Envelope B} {w : World B S} (h : server.Refuses v peer e w.server) :
    ∃ err, (enqueueAndSave server peer e w).1 = .error err := by
  obtain ⟨⟨err, herr⟩, -⟩ := h
  exact ⟨err, congrArg Prod.fst (Proc.bind_error (callServer_of_eq (Prod.ext herr rfl)) _)⟩

/-- **A `SendMessage` fails harmlessly if and only if the message that the session derives is not
refused, and there is one whenever a ratchet step goes through.** -/
theorem sendFailsHarmlessly_iff {server : ServerApi B S} {v : S → List (Envelope B)}
    (hserver : server.Delivers v) (peer p : B) (w : World B S) :
    SendFailsHarmlessly c server v peer p w ↔ SendsSafely c server v peer p w := by
  constructor
  · intro h
    refine ⟨fun s s₁ header hs hstep run hrefused => ?_, fun s hs step hseed => ?_⟩
    · -- the session has moved before the envelope is refused
      obtain ⟨w₁, hprepare, hmoved⟩ := prepareChat_of_run hs hstep run
      have hrun : sendMessage c server peer p w =
          enqueueAndSave server peer (.fromChat run.message) w₁ := by
        rw [sendMessage_eq, Proc.bind_ok hprepare]
      rw [← hmoved.server] at hrefused
      obtain ⟨err, herr⟩ := enqueueAndSave_refused hrefused
      obtain ⟨hclient, -, hend⟩ := enqueueAndSave_frame server peer (.fromChat run.message) w₁
      have hback := h err _ (hrun.trans (Prod.ext herr rfl))
        (by rw [hend, hrefused.2, hmoved.server])
      rw [hclient] at hback
      exact hmoved.ne hs hback
    · -- the session has moved before the message is encrypted
      by_contra hnone
      obtain ⟨e, w₁, hprepare, hmoved⟩ := prepareChat_unsealed hs step hseed hnone
      have hback := h e w₁ (by rw [sendMessage_eq, Proc.bind_error hprepare])
        (by rw [hmoved.server])
      exact hmoved.ne hs hback
  · intro h e w' hfail hsame
    rcases hs : w.client.sessionsByPeer.lookup peer with _ | s
    · -- there is no session: the call does nothing
      have hprepare : prepareChat c peer p w = (.error "no active session with peer", w) := by
        rw [prepareChat, Proc.get_bind_apply, hs]
        rfl
      rw [sendMessage_eq, Proc.bind_error hprepare] at hfail
      rw [← (Prod.mk.inj hfail).2, hs]
    rcases prepareChat_cases (c := c) hs p with
      ⟨s₁, header, hstep, ⟨run⟩⟩ | ⟨e', w₁, hprepare, hclient⟩ | ⟨step, hseed, hnone⟩
    · obtain ⟨w₁, hprepare, hmoved⟩ := prepareChat_of_run hs hstep run
      obtain ⟨-, -, hend⟩ := enqueueAndSave_frame server peer (.fromChat run.message) w₁
      rw [sendMessage_eq, Proc.bind_ok hprepare] at hfail
      rw [hfail, hmoved.server] at hend
      rw [show w'.server = _ from hend] at hsame
      exact absurd (hserver.refuses hsame) (h.accepted s s₁ header hs hstep run)
    · rw [sendMessage_eq, Proc.bind_error hprepare] at hfail
      rw [← (Prod.mk.inj hfail).2, hclient, hs]
    · exact absurd (h.encrypted s hs step hseed) hnone

namespace AliceBob

open Symbolic

/-- The mailbox towards Bob, behind a connection that refuses every envelope as too large. -/
def refusing : ServerApi Str (List (Envelope Str)) :=
  { towards bob.client with enqueueEnvelope := fun _ _ => Proc.fail "frame payload too large" }

theorem delivers_towards (peer : Client Str) : (towards peer).Delivers id :=
  ⟨fun _ _ => rfl, fun _ _ _ _ => rfl⟩

theorem delivers_refusing : refusing.Delivers id := ⟨fun _ _ => rfl, nofun⟩

/-- Alice after nine messages to Bob, when a ratchet step is due. -/
@[irreducible] def aliceDue : World Str (List (Envelope Str)) :=
  (List.range 9).foldl (fun w _ =>
    (sendMessage Crypto.symbolic (towards bob.client) (text "bob") (text "m") w).2) alice₁

theorem accepts_towards (peer : Client Str) (user : Str) (e : Envelope Str)
    (s : List (Envelope Str)) : ¬ (towards peer).Refuses id user e s := by
  rintro ⟨⟨err, herr⟩, -⟩
  cases herr

/-- Alice after a message that was refused. -/
@[irreducible] def refused : World Str (List (Envelope Str)) :=
  (sendMessage Crypto.symbolic refusing (text "bob") (text "too long") alice₁).2

/-- The next message of Alice, which is stored. -/
@[irreducible] def afterRefused : ChatMessage Str :=
  (((sendMessage Crypto.symbolic (towards bob.client) (text "bob") (text "short")
    refused).2.server.getLast?).bind Envelope.chat).get (by decide +kernel)

/-- What comes of the messages, and of an initial message that is refused. -/
theorem failures :
    ((aliceDue.client.sessionsByPeer.lookup (text "bob")).all (·.ratchetDue) = true ∧
      (prepareChat Crypto.symbolic (text "bob") (text "m") aliceDue).1.isOk = true) ∧
    ((sendMessage Crypto.symbolic refusing (text "bob") (text "too long") alice₁).1 =
        .error "frame payload too large" ∧
      refused.server = alice₁.server ∧
      (refused.client.sessionsByPeer.lookup (text "bob")).map SessionState.sendCounter ≠
        (alice₁.client.sessionsByPeer.lookup (text "bob")).map SessionState.sendCounter ∧
      (handleChatMessage Crypto.symbolic afterRefused bob₁).1.isOk = false) ∧
    (prepareInitial Crypto.symbolic (towards bob.client) (text "bob") (text "hello")
      alice).1.isOk = true ∧
    (initiateSession Crypto.symbolic refusing (text "bob") (text "hello") alice₁).1 =
      .error "frame payload too large" ∧
    (initiateSession Crypto.symbolic refusing (text "bob") (text "hello") alice₁).2.server =
      alice₁.server ∧
    ((initiateSession Crypto.symbolic refusing (text "bob")
      (text "hello") alice₁).2.client.sessionsByPeer.lookup (text "bob")).map
        SessionState.sessionId ≠
      (alice₁.client.sessionsByPeer.lookup (text "bob")).map SessionState.sessionId := by
  decide +kernel

end AliceBob

theorem sendFailsHarmlessly_alice :
    SendFailsHarmlessly Crypto.symbolic (AliceBob.towards AliceBob.bob.client) id (text "bob")
      (text "m") AliceBob.aliceDue ∧
    SendsSafely Crypto.symbolic (AliceBob.towards AliceBob.bob.client) id (text "bob")
      (text "m") AliceBob.aliceDue ∧
    (AliceBob.aliceDue.client.sessionsByPeer.lookup (text "bob")).all (·.ratchetDue) := by
  have hsafe : SendsSafely Crypto.symbolic (AliceBob.towards AliceBob.bob.client) id (text "bob")
      (text "m") AliceBob.aliceDue := by
    refine ⟨fun _ _ _ _ _ _ => AliceBob.accepts_towards _ _ _ _, fun s hs step hseed => ?_⟩
    by_contra hnone
    obtain ⟨e, w₁, hprepare, -⟩ := prepareChat_unsealed hs step hseed hnone
    have hok := AliceBob.failures.1.2
    rw [hprepare] at hok
    cases hok
  exact ⟨(sendFailsHarmlessly_iff (AliceBob.delivers_towards _) _ _ _).mpr hsafe, hsafe,
    AliceBob.failures.1.1⟩

/-- **A message that is refused costs Alice the session.**  Bob cannot read the next one. -/
theorem refused_not_harmless :
    AliceBob.refusing.Delivers id ∧
    ¬ SendFailsHarmlessly Crypto.symbolic AliceBob.refusing id (text "bob") (text "too long")
      AliceBob.alice₁ ∧
    (handleChatMessage Crypto.symbolic AliceBob.afterRefused AliceBob.bob₁).1.isOk = false := by
  obtain ⟨-, ⟨hfails, hstored, hmoved, hnext⟩, -⟩ := AliceBob.failures
  refine ⟨AliceBob.delivers_refusing, fun h => ?_, hnext⟩
  have hback := h _ AliceBob.refused (Prod.ext hfails (by unfold AliceBob.refused; rfl)) hstored
  exact hmoved (congrArg (Option.map SessionState.sendCounter) hback)

/-! ## 4. Initiating -/

/-- An `InitiateSession` that fails and leaves nothing with the server leaves the sessions as
they were. -/
def InitiateFailsHarmlessly (c : Crypto B) (server : ServerApi B S) (v : S → List (Envelope B))
    (peer p : B) (w : World B S) : Prop :=
  ∀ e w', initiateSession c server peer p w = (.error e, w') → v w'.server = v w.server →
    w'.client.sessionsByPeer = w.client.sessionsByPeer

/-- What keeps a failure harmless: no handshake is refused, unless it repeats the one that the
session with the peer comes from. -/
def InitiatesSafely (c : Crypto B) (server : ServerApi B S) (v : S → List (Envelope B))
    (peer p : B) (w : World B S) : Prop :=
  ∀ ready : ReadyInitiation c server peer p w,
    w.client.sessionsByPeer.lookup peer ≠ some ready.handshake.session →
      ¬ server.Refuses v peer (.fromInitial ready.handshake.message) ready.answered

section Prepare

open Proc (Preserves)

variable {v : S → List (Envelope B)} {sessions : Table B (SessionState B)}
  {stored : List (Envelope B)}

/-- The sessions and what is stored. -/
def World.Unsent (v : S → List (Envelope B)) (sessions : Table B (SessionState B))
    (stored : List (Envelope B)) (w : World B S) : Prop :=
  w.client.sessionsByPeer = sessions ∧ v w.server = stored

theorem saveLocalState_unsent :
    Preserves (World.Unsent v sessions stored) (saveLocalState : Proc (World B S) Unit) := by
  rintro w ⟨hs, hv⟩
  obtain ⟨hclient, -, hserver⟩ := saveLocalState_frame w
  exact ⟨by rw [hclient, hs], by rw [hserver, hv]⟩

theorem verifyOrRememberPeerIdentity_unsent (peer k₁ k₂ k₃ : B) :
    Preserves (World.Unsent v sessions stored)
      (verifyOrRememberPeerIdentity c peer k₁ k₂ k₃ : Proc (World B S) Unit) := by
  refine .bind (.ofExcept _ _) fun _ => .bind .get fun w => ?_
  split
  · refine .bind (.modify fun _ h => h) fun _ => ?_
    exact .bind (.within _ saveLocalState_unsent) fun _ => .fail _
  · exact .bind (.require _ _) fun _ => .require _ _

theorem fetchPeerBundle_unsent {server : ServerApi B S} (hserver : server.Delivers v) (peer : B) :
    Preserves (World.Unsent v sessions stored) (fetchPeerBundle c server peer) := by
  have hacquire : Preserves (World.Unsent v sessions stored)
      (callServer (server.acquireBundleForSession peer)) :=
    .zoom fun w h => ⟨h.1, (hserver.acquireBundle peer w.server).trans h.2⟩
  refine .bind (.within _ hacquire) fun bundle => .bind (.modify fun _ h => h) fun _ => ?_
  refine .bind (.require _ _) fun _ => .bind (.require _ _) fun _ => ?_
  refine .bind (.require _ _) fun _ => .bind (.ofExcept _ _) fun _ => ?_
  exact .bind (verifyOrRememberPeerIdentity_unsent _ _ _ _) fun _ => .pure _

theorem agreeAsInitiator_unsent (peer : B) (bundle : PrekeyBundle B) :
    Preserves (World.Unsent v sessions stored) (agreeAsInitiator c peer bundle) := by
  intro w h
  have ho := agreeAsInitiator_outcome (c := c) peer bundle w
  rcases hr : agreeAsInitiator c peer bundle w with ⟨r, w'⟩
  rw [Proc.wp, hr] at ho
  cases ho with
  | agreed | keyed | failed => exact h

theorem sealInitial_unsent (peer : B) (bundle : PrekeyBundle B) (a : InitiatorAgreement B)
    (p : B) : Preserves (World.Unsent v sessions stored) (sealInitial c peer bundle a p) := by
  refine .bind (.within _ fun w h => ?_) fun _ => .bind (.modify fun _ h => h) fun _ => .pure _
  rcases encryptChainStep_cases (c := c) a.keys.send 0 (nonceFromCounter 0) p a.transcriptHash w
    with ⟨key, next, ct, -, -, hstep⟩ | ⟨e, hstep⟩ <;> rw [hstep] <;> exact h

theorem rememberInitialReplayGuards_unsent (sessionId transcriptHash : B) :
    Preserves (World.Unsent v sessions stored)
      (rememberInitialReplayGuards sessionId transcriptHash : Proc (World B S) Unit) := by
  intro w h
  rcases rememberInitialReplayGuards_cases sessionId transcriptHash w with
    ⟨-, hrun⟩ | ⟨-, e, hrun⟩ <;> rw [hrun] <;> exact h

/-- Until the initial message is ready no session changes, and nothing is stored. -/
theorem prepareInitial_unsent {server : ServerApi B S} (hserver : server.Delivers v)
    (peer p : B) :
    Preserves (World.Unsent v sessions stored) (prepareInitial c server peer p) := by
  refine .bind (fetchPeerBundle_unsent hserver peer) fun bundle => ?_
  refine .bind (agreeAsInitiator_unsent peer bundle) fun a => ?_
  refine .bind (sealInitial_unsent peer bundle a p) fun sealed => ?_
  exact .bind (rememberInitialReplayGuards_unsent _ _) fun _ => .pure _

end Prepare

/-- **An `InitiateSession` fails harmlessly if and only if no new handshake that is ready is
refused.** -/
theorem initiateFailsHarmlessly_iff {server : ServerApi B S} {v : S → List (Envelope B)}
    (hserver : server.Delivers v) (peer p : B) (w : World B S) :
    InitiateFailsHarmlessly c server v peer p w ↔ InitiatesSafely c server v peer p w := by
  obtain ⟨hsessions, hstored⟩ :=
    prepareInitial_unsent (c := c) hserver peer p w ⟨rfl, rfl⟩
  -- the end of a call whose handshake is ready
  have hrun : ∀ (ready : ReadyInitiation c server peer p w) (w₁ : World B S),
      prepareInitial c server peer p w =
        (.ok (ready.handshake.message, ready.handshake.session), w₁) →
      initiateSession c server peer p w =
        enqueueAndSave server peer (.fromInitial ready.handshake.message)
          { w₁ with client := w₁.client.withSession peer ready.handshake.session } := by
    intro ready w₁ hprepare
    rw [initiateSession_eq, Proc.bind_ok hprepare]
    rfl
  constructor
  · intro h ready hnew hrefused
    obtain ⟨w₁, hprepare, hanswered⟩ := prepareInitial_of_ready ready
    rw [hprepare] at hsessions hstored
    dsimp only at hsessions hstored
    rw [← hanswered] at hrefused
    let w₂ : World B S :=
      { w₁ with client := w₁.client.withSession peer ready.handshake.session }
    obtain ⟨hclient, -, hend⟩ :=
      enqueueAndSave_frame server peer (.fromInitial ready.handshake.message) w₂
    obtain ⟨e, he⟩ := enqueueAndSave_refused (w := w₂) hrefused
    have hback := h e _ ((hrun ready w₁ hprepare).trans (Prod.ext he rfl))
      (by rw [hend]; exact hrefused.2.trans hstored)
    rw [hclient] at hback
    refine hnew ?_
    rw [← hback]
    exact Client.lookup_withSession ..
  · intro h e w' hfail hsame
    rcases hprepare : prepareInitial c server peer p w with ⟨e' | ⟨m, s⟩, w₁⟩
    · -- no handshake is ready
      rw [hprepare] at hsessions
      rw [initiateSession_eq, Proc.bind_error hprepare] at hfail
      rw [← (Prod.mk.inj hfail).2, hsessions]
    · obtain ⟨ready, rfl, rfl, hanswered, -⟩ := ready_of_prepareInitial hprepare
      rw [hprepare] at hsessions hstored
      dsimp only at hsessions hstored
      let w₂ : World B S :=
        { w₁ with client := w₁.client.withSession peer ready.handshake.session }
      obtain ⟨hclient, -, hend⟩ :=
        enqueueAndSave_frame server peer (.fromInitial ready.handshake.message) w₂
      rw [hrun ready w₁ hprepare] at hfail
      rw [hfail] at hclient hend
      dsimp only at hclient hend
      by_cases hnew : w.client.sessionsByPeer.lookup peer = some ready.handshake.session
      · rw [hclient, ← hsessions]
        rw [← hsessions] at hnew
        exact congrArg Client.sessionsByPeer (Client.withSession_self hnew)
      · rw [hend, ← hstored] at hsame
        have hrefused := hserver.refuses hsame
        rw [hanswered] at hrefused
        exact absurd hrefused (h ready hnew)

theorem initiateFailsHarmlessly_alice :
    InitiateFailsHarmlessly Crypto.symbolic (AliceBob.towards AliceBob.bob.client) id (text "bob")
      (text "hello") AliceBob.alice ∧
    InitiatesSafely Crypto.symbolic (AliceBob.towards AliceBob.bob.client) id (text "bob")
      (text "hello") AliceBob.alice ∧
    Nonempty (ReadyInitiation Crypto.symbolic (AliceBob.towards AliceBob.bob.client) (text "bob")
      (text "hello") AliceBob.alice) := by
  have hsafe : InitiatesSafely Crypto.symbolic (AliceBob.towards AliceBob.bob.client) id
      (text "bob") (text "hello") AliceBob.alice :=
    fun _ _ => AliceBob.accepts_towards _ _ _ _
  refine ⟨(initiateFailsHarmlessly_iff (AliceBob.delivers_towards _) _ _ _).mpr hsafe, hsafe, ?_⟩
  have hok := AliceBob.failures.2.2.1
  rcases h : prepareInitial Crypto.symbolic (AliceBob.towards AliceBob.bob.client) (text "bob")
      (text "hello") AliceBob.alice with ⟨e | ⟨m, s⟩, w₁⟩
  · rw [h] at hok
    cases hok
  · obtain ⟨ready, -⟩ := ready_of_prepareInitial h
    exact ⟨ready⟩

/-- **An initial message that is refused replaces a working session** by one that Bob knows
nothing of. -/
theorem refused_initial_not_harmless :
    AliceBob.refusing.Delivers id ∧
    ¬ InitiateFailsHarmlessly Crypto.symbolic AliceBob.refusing id (text "bob") (text "hello")
      AliceBob.alice₁ := by
  obtain ⟨-, -, -, hfails, hstored, hreplaced⟩ := AliceBob.failures
  refine ⟨AliceBob.delivers_refusing, fun h => ?_⟩
  have hback := h _ _ (Prod.ext hfails rfl) hstored
  exact hreplaced (congrArg (fun sessions : Table Symbolic.Str (SessionState Symbolic.Str) =>
    (sessions.lookup (text "bob")).map SessionState.sessionId) hback)

end PqChat
