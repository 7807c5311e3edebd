/-
# Two clients and the messages in flight between them

Both directions of a conversation mix their ratchet steps into ONE root key, so whether a
message can be read depends on what the other direction has done by the time it arrives.  This
module follows two clients through any interleaving of sends and deliveries.

The invariant (`Duplex`) speaks about what is still IN FLIGHT: feeding the undelivered messages
to the receiver succeeds and brings it into step with the sender.  It is kept by every delivery,
by every send that does not ratchet, and by a ratcheting send of a client that has no ratchet
of its peer in flight towards it.  Without that condition it fails: two ratchets that cross
start from the same root key and neither side ever sees the other's.
-/
import PqChat.Session.Calls

set_option linter.unusedSectionVars false

namespace PqChat

open ByteString

variable {B S : Type} [ByteString B] [DecidableEq B] {c : Crypto B}

/-! ## 1. Receiving what is in flight -/

/-- A message without a ratchet key looks at the receiving chain only. -/
theorem receiveChat_plain_congr {m : ChatMessage B} {s s' t : SessionState B} {p : B}
    (hm : m.Plain) (h : receiveChat c m s = (.ok p, s')) (hck : t.recvChainKey = s.recvChainKey)
    (hn : t.recvCounter = s.recvCounter) :
    receiveChat c m t = (.ok p, { t with
      recvChainKey := s'.recvChainKey
      recvCounter := s'.recvCounter }) := by
  obtain ⟨s₁, hr, hnum, ad, key, next, had, hk, ho, rfl⟩ := receiveChat_eq_ok.mp h
  obtain ⟨-, rfl⟩ := Prod.mk.inj (hr.symm.trans (recvRatchet_plain hm s))
  refine receiveChat_eq_ok.mpr ⟨t, recvRatchet_plain hm t, hnum.trans hn.symm, ad, key, next,
    had, ?_, ho, ?_⟩
  · rw [hck, hn]
    exact hk
  · rw [hn]

/-- Receiving does not look at the sending chain. -/
theorem receiveChat_sendSide (m : ChatMessage B) (s : SessionState B) (ck : B) (n : UInt64) :
    receiveChat c m { s with sendChainKey := ck, sendCounter := n } =
      ((receiveChat c m s).1,
        { (receiveChat c m s).2 with sendChainKey := ck, sendCounter := n }) := by
  have hratchet : recvRatchet c m { s with sendChainKey := ck, sendCounter := n } =
      ((recvRatchet c m s).1,
        { (recvRatchet c m s).2 with sendChainKey := ck, sendCounter := n }) := by
    simp only [recvRatchet, Proc.get_bind_apply]
    rcases m.header.senderRatchetPublicKey with _ | newRemote
    · rfl
    · dsimp only
      split
      · rfl
      · rcases c.x25519SharedSecret s.localRatchetKey.privateKey newRemote with e | dh
        · rfl
        · simp only [Proc.ofExcept_ok_bind]
          rcases deriveRatchetRootAndChain c dh s.rootKey with e | mixed <;> rfl
  simp only [receiveChat, Proc.bind_apply, hratchet]
  rcases recvRatchet c m s with ⟨e | u, s₁⟩
  · rfl
  · simp only [Proc.get_apply]
    rcases Decidable.em (m.header.messageNumber = s₁.recvCounter) with hn | hn
    · simp only [Proc.require, hn, if_true, Proc.pure_apply]
      rcases buildChatAssociatedData c m with e | ad
      · rfl
      · simp only [Proc.ofExcept_ok]
        rcases decryptChainStep c s₁.recvChainKey s₁.recvCounter m.nonce m.ciphertext ad with
          e | opened <;> rfl
    · simp only [Proc.require, hn, if_false, Proc.fail_apply]

/-- The messages, fed in order to a session, are all accepted with these plaintexts. -/
inductive AcceptsAll (c : Crypto B) :
    List (ChatMessage B) → SessionState B → List B → SessionState B → Prop
  | nil (s : SessionState B) : AcceptsAll c [] s [] s
  | cons {m : ChatMessage B} {q : List (ChatMessage B)} {s s₁ s' : SessionState B} {p : B}
    {ps : List B} (h : receiveChat c m s = (.ok p, s₁)) (hq : AcceptsAll c q s₁ ps s') :
    AcceptsAll c (m :: q) s (p :: ps) s'

namespace AcceptsAll

variable {q : List (ChatMessage B)} {s s' t : SessionState B} {ps : List B}

theorem append_one {m : ChatMessage B} {p : B} {s'' : SessionState B}
    (h : AcceptsAll c q s ps s') (hm : receiveChat c m s' = (.ok p, s'')) :
    AcceptsAll c (q ++ [m]) s (ps ++ [p]) s'' := by
  induction h with
  | nil s => exact .cons hm (.nil _)
  | cons h₁ _ ih => exact .cons h₁ (ih hm)

/-- Receiving leaves the sending side alone. -/
theorem sameSendSide (h : AcceptsAll c q s ps s') : s.SameSendSide s' := by
  induction h with
  | nil s => exact ⟨rfl, rfl, rfl, rfl, rfl⟩
  | @cons m _ s s₁ _ p _ h₁ _ ih =>
    have hf := (receiveChat_frame c m s).1
    rw [h₁] at hf
    exact ⟨ih.1.trans hf.1, ih.2.trans hf.2, ih.3.trans hf.3, ih.4.trans hf.4,
      ih.5.trans hf.5⟩

theorem plain_congr (h : AcceptsAll c q s ps s') (hq : ∀ m ∈ q, m.Plain)
    (hck : t.recvChainKey = s.recvChainKey) (hn : t.recvCounter = s.recvCounter) :
    AcceptsAll c q t ps { t with
      recvChainKey := s'.recvChainKey
      recvCounter := s'.recvCounter } := by
  induction h generalizing t with
  | nil s =>
    rw [← hck, ← hn]
    exact .nil t
  | cons h₁ _ ih =>
    have hm := receiveChat_plain_congr (hq _ (List.mem_cons_self ..)) h₁ hck hn
    exact .cons hm (ih (fun m hm' => hq m (List.mem_cons_of_mem _ hm')) rfl rfl)

/-- Without a ratchet in flight only the receiving chain moves. -/
theorem eq_of_plain (h : AcceptsAll c q s ps s') (hq : ∀ m ∈ q, m.Plain) :
    s' = { s with recvChainKey := s'.recvChainKey, recvCounter := s'.recvCounter } := by
  induction h with
  | nil s => rfl
  | cons h₁ _ ih =>
    have hm := receiveChat_plain_congr (hq _ (List.mem_cons_self ..)) h₁ rfl rfl
    rw [h₁] at hm
    have h₂ := ih fun m hm' => hq m (List.mem_cons_of_mem _ hm')
    rw [(Prod.mk.inj hm).2] at h₂
    exact h₂

theorem sendSide (h : AcceptsAll c q s ps s') (ck : B) (n : UInt64) :
    AcceptsAll c q { s with sendChainKey := ck, sendCounter := n } ps
      { s' with sendChainKey := ck, sendCounter := n } := by
  induction h with
  | nil s => exact .nil _
  | cons h₁ _ ih =>
    refine .cons ?_ ih
    rw [receiveChat_sendSide, h₁]

end AcceptsAll

/-- What is in flight from `s` to `r` is accepted, and leaves the receiver in step with the
sender. -/
structure Linked (c : Crypto B) (s r : SessionState B) (q : List (ChatMessage B))
    (ps : List B) (r' : SessionState B) : Prop where
  accepts : AcceptsAll c q r ps r'
  chainKey : r'.recvChainKey = s.sendChainKey
  counter : r'.recvCounter = s.sendCounter
  remote : r'.remoteRatchetPublic = s.localRatchetKey.publicKey

/-- **The invariant of a conversation**: both directions are linked, the root keys agree once
everything in flight has arrived, and ratchets are in flight in one direction at most. -/
structure Duplex (c : Crypto B) (s r : SessionState B) (q q' : List (ChatMessage B))
    (ps ps' : List B) : Prop where
  links : ∃ s' r', Linked c s r q ps r' ∧ Linked c r s q' ps' s' ∧ s'.rootKey = r'.rootKey
  sessionId : s.sessionId = r.sessionId
  genuine : ∃ n, c.x25519Generate n = .ok s.localRatchetKey
  genuine' : ∃ n, c.x25519Generate n = .ok r.localRatchetKey
  oneWay : (∀ m ∈ q, m.Plain) ∨ ∀ m ∈ q', m.Plain

/-- A receiver in step with the sender opens the next message. -/
theorem SealChatRun.opens (hlaw : c.Lawful) {userId peer p : B} {s r : SessionState B}
    {header : MessageHeader B} (run : SealChatRun c userId peer s header p)
    (hck : r.recvChainKey = s.sendChainKey) (hn : r.recvCounter = s.sendCounter) :
    Opens c run.message r p { r with
      recvChainKey := run.nextChainKey
      recvCounter := r.recvCounter + 1 } := by
  refine ⟨hn.symm, run.ad, run.messageKey, run.nextChainKey, run.ad_ok, ?_,
    hlaw.open_seal run.seal_ok, rfl⟩
  rw [hck, hn]
  exact run.step_ok

namespace Duplex

variable {s r : SessionState B} {q q' : List (ChatMessage B)} {ps ps' : List B}

theorem symm (h : Duplex c s r q q' ps ps') : Duplex c r s q' q ps' ps := by
  obtain ⟨s', r', h₁, h₂, hroot⟩ := h.links
  exact ⟨⟨r', s', h₂, h₁, hroot.symm⟩, h.sessionId.symm, h.genuine', h.genuine, h.oneWay.symm⟩

/-- Sessions that mirror each other, with nothing in flight. -/
theorem of_mirrors (h : s.Mirrors r) (hs : ∃ n, c.x25519Generate n = .ok s.localRatchetKey)
    (hr : ∃ n, c.x25519Generate n = .ok r.localRatchetKey) : Duplex c s r [] [] [] [] where
  links := ⟨s, r, ⟨.nil r, h.sendChain.symm, h.sendCounter.symm, h.localRatchet.symm⟩,
    ⟨.nil s, h.recvChain, h.recvCounter, h.remoteRatchet⟩, h.rootKey⟩
  sessionId := h.sessionId
  genuine := hs
  genuine' := hr
  oneWay := Or.inl nofun

/-- A delivery: the next message is accepted and the rest stays in flight. -/
theorem deliver {m : ChatMessage B} (h : Duplex c s r (m :: q) q' ps ps') :
    ∃ p ps₁ r₁, ps = p :: ps₁ ∧ receiveChat c m r = (.ok p, r₁) ∧
      Duplex c s r₁ q q' ps₁ ps' := by
  obtain ⟨s', r', h₁, h₂, hroot⟩ := h.links
  cases h₁.accepts with
  | @cons _ _ _ r₁ _ p ps₁ hm hq =>
    have hside := (receiveChat_frame c m r).1
    rw [hm] at hside
    refine ⟨p, ps₁, r₁, rfl, hm, ⟨s', r', ⟨hq, h₁.2, h₁.3, h₁.4⟩, ⟨h₂.1, ?_, ?_, ?_⟩, hroot⟩,
      h.sessionId.trans hside.sessionId.symm, h.genuine, ?_, ?_⟩
    · exact h₂.chainKey.trans hside.sendChainKey.symm
    · exact h₂.counter.trans hside.sendCounter.symm
    · rw [hside.localRatchetKey]
      exact h₂.remote
    · rw [hside.localRatchetKey]
      exact h.genuine'
    · exact h.oneWay.imp_left fun hp m' hm' => hp m' (List.mem_cons_of_mem _ hm')

/-- A send without a ratchet step. -/
theorem send_plain (hlaw : c.Lawful) {userId peer p : B} (h : Duplex c s r q q' ps ps')
    (run : SealChatRun c userId peer s {} p) :
    Duplex c run.session r (q ++ [run.message]) q' (ps ++ [p]) ps' := by
  obtain ⟨s', r', h₁, h₂, hroot⟩ := h.links
  have hplain : run.message.Plain := rfl
  have hm : receiveChat c run.message r' = (.ok p, { r' with
      recvChainKey := run.nextChainKey
      recvCounter := r'.recvCounter + 1 }) :=
    receiveChat_eq_ok.mpr
      ⟨r', recvRatchet_plain hplain r', run.opens hlaw h₁.chainKey h₁.counter⟩
  refine ⟨⟨{ s' with sendChainKey := run.nextChainKey, sendCounter := s.sendCounter + 1 }, _,
    ⟨h₁.accepts.append_one hm, rfl, ?_, h₁.remote⟩,
    ⟨h₂.accepts.sendSide run.nextChainKey (s.sendCounter + 1), h₂.chainKey, h₂.counter,
      h₂.remote⟩, hroot⟩, h.sessionId, h.genuine, h.genuine', ?_⟩
  · exact congrArg (· + 1) h₁.counter
  · refine h.oneWay.imp_left fun hq m hm' => ?_
    rcases List.mem_append.mp hm' with hm' | hm'
    · exact hq m hm'
    · rw [List.mem_singleton.mp hm']
      exact hplain

/-- A send with a ratchet step.  Nothing in flight towards the sender carries a ratchet, so its
root key and the peer's ratchet key are the ones the receiver will have when the message
arrives. -/
theorem send_ratchet (hlaw : c.Lawful) {userId peer p : B} (h : Duplex c s r q q' ps ps')
    (hq' : ∀ m ∈ q', m.Plain) (step : SendRatchetRun c s)
    (hfresh : step.newRatchet.publicKey ≠ s.localRatchetKey.publicKey)
    (run : SealChatRun c userId peer step.session step.header p) :
    Duplex c run.session r (q ++ [run.message]) q' (ps ++ [p]) ps' := by
  obtain ⟨s', r', h₁, h₂, hroot⟩ := h.links
  have hs' := h₂.accepts.eq_of_plain hq'
  have hlocal : r'.localRatchetKey = r.localRatchetKey := h₁.accepts.sameSendSide.localRatchetKey
  have hremote : s.remoteRatchetPublic = r'.localRatchetKey.publicKey := by
    rw [hlocal, ← h₂.remote, hs']
  have hrootKey : s.rootKey = r'.rootKey := by
    rw [← hroot, hs']
  obtain ⟨n, hn⟩ := h.genuine'
  -- the receiver's half of the key agreement
  have hdh : c.x25519SharedSecret r'.localRatchetKey.privateKey step.newRatchet.publicKey
      = .ok step.dh := by
    refine hlaw.sharedSecret_comm step.generate_ok (hlocal ▸ hn) ?_
    rw [← hremote]
    exact step.dh_ok
  have hmix : deriveRatchetRootAndChain c step.dh r'.rootKey = .ok (step.chainKey, step.rootKey) :=
    hrootKey ▸ step.mix_ok
  have hne : step.newRatchet.publicKey ≠ r'.remoteRatchetPublic := by
    rw [h₁.remote]
    exact hfresh
  let r₁ := r'.ratcheted step.chainKey step.rootKey step.newRatchet.publicKey
  have hm : receiveChat c run.message r' = (.ok p, { r₁ with
      recvChainKey := run.nextChainKey
      recvCounter := r₁.recvCounter + 1 }) :=
    receiveChat_eq_ok.mpr
      ⟨r₁, recvRatchet_new rfl hne hdh hmix, run.opens hlaw (r := r₁) rfl rfl⟩
  have hs₁ := h₂.accepts.plain_congr (t := run.session) hq' rfl rfl
  exact ⟨⟨_, _, ⟨h₁.accepts.append_one hm, rfl, rfl, rfl⟩,
    ⟨hs₁, h₂.chainKey, h₂.counter, hremote.trans (congrArg KeyPair.publicKey hlocal)⟩, rfl⟩,
    h.sessionId, ⟨_, step.generate_ok⟩, h.genuine', Or.inr hq'⟩

end Duplex

/-! ## 2. The system -/

/-- A client with its outgoing mailbox, the plaintexts it has sent, and the results of the
deliveries to it. -/
structure Party (B : Type) where
  world : World B (List (Envelope B))
  sent : List B
  got : List (Result B)

/-- Two clients. -/
structure Duo (B : Type) where
  a : Party B
  b : Party B

/-- The same two clients, named the other way round. -/
def Duo.swap (d : Duo B) : Duo B := ⟨d.b, d.a⟩

/-- What can happen next: the first client sends, or the oldest envelope it has sent is
delivered to the second. -/
inductive Act (B : Type)
  | send (plaintext : B)
  | deliver
  deriving DecidableEq, Repr

def Duo.act (c : Crypto B) (d : Duo B) : Act B → Option (Duo B)
  | .send p =>
    match sendMessage c (mailbox none) d.b.world.client.userId p d.a.world with
    | (.ok _, w) => some { d with a := { d.a with world := w, sent := d.a.sent ++ [p] } }
    | (.error _, _) => none
  | .deliver =>
    match d.a.world.server with
    | [] => none
    | envelope :: rest =>
      let r := handleEnvelope c envelope d.b.world
      some
        { a := { d.a with world := { d.a.world with server := rest } }
          b := { d.b with world := r.2, got := d.b.got ++ [r.1] } }

/-- An act of either client. -/
def Duo.turn (c : Crypto B) (d : Duo B) (flip : Bool) (act : Act B) : Option (Duo B) :=
  if flip then (d.swap.act c act).map Duo.swap else d.act c act

/-- A condition on the acts of a run. -/
abbrev Guard (B : Type) := Duo B → Act B → Prop

/-- Any sequence of acts of both clients that meet the guard. -/
inductive Run (c : Crypto B) (G : Guard B) (d₀ : Duo B) : Duo B → Prop
  | refl : Run c G d₀ d₀
  | turn {d d' : Duo B} (flip : Bool) (act : Act B) (h : Run c G d₀ d)
    (hG : G (if flip then d.swap else d) act) (hd : d.turn c flip act = some d') : Run c G d₀ d'

/-- No condition. -/
def Guard.any : Guard B := fun _ _ => True

/-- The envelope carries a ratchet key. -/
def Envelope.CarriesRatchet (e : Envelope B) : Prop := ∃ m, e.chat = some m ∧ ¬ m.Plain

/-- A client makes a ratcheting `SendMessage` only when no ratchet-carrying message addressed
to it is undelivered. -/
def Guard.calm : Guard B
  | d, .send _ => ∀ s, d.a.world.client.sessionsByPeer.lookup d.b.world.client.userId = some s →
    s.ratchetDue → ∀ e ∈ d.b.world.server, ¬ e.CarriesRatchet
  | _, .deliver => True

/-- No client has generated an X25519 key twice. -/
def Duo.Fresh (d : Duo B) : Prop :=
  (generatedKeys d.a.world.trace).Nodup ∧ (generatedKeys d.b.world.trace).Nodup

/-- Every delivery so far was accepted with the plaintext that was sent, in the order of
sending. -/
def Duo.Delivered (d : Duo B) : Prop :=
  d.b.got <+: d.a.sent.map Except.ok ∧ d.a.got <+: d.b.sent.map Except.ok

/-- A session just established: `InitiateSession` of the first client succeeded on a bundle of
the second, whose `HandleInitialMessage` accepted the message with the one-time keys of that
bundle.  Nothing is in flight.  `opening` is what `InitiateSession` added to the history. -/
inductive Established (c : Crypto B) (opening : List (Event B)) : Duo B → Prop
  | intro {a₀ a b₀ b : World B (List (Envelope B))} {published : Client B}
    {bundle acquired : PrekeyBundle B} {message : InitialMessage B} {plaintext opened : B}
    (ha : Reach (· = c) true a₀) (hb : Reach (· = c) true b₀)
    (hpublished : AcquiredFrom c published acquired) (hsame : published.SameIdentity b₀.client)
    (hacquired : ((mailbox (some bundle)).acquireBundleForSession b₀.client.userId a₀.server).1
      = .ok acquired)
    (hholds : b₀.client.Holds acquired)
    (hinit : initiateSession c (mailbox (some bundle)) b₀.client.userId plaintext a₀ = (.ok (), a))
    (hmessage : a.server = a₀.server ++ [.fromInitial message])
    (hopening : a.trace = opening ++ a₀.trace)
    (haccept : handleInitialMessage c message b₀ = (.ok opened, b)) :
    Established c opening ⟨⟨{ a with server := [] }, [], []⟩, ⟨{ b with server := [] }, [], []⟩⟩

/-- Full-duplex delivery on all runs that meet the guard. -/
def FullDuplex (c : Crypto B) (G : Guard B) : Prop :=
  ∀ opening d₀ d, Established c opening d₀ → Run c G d₀ d → d.Fresh → d.Delivered

/-! ## 3. The invariant over whole runs -/

/-- One direction of a conversation between worlds: the messages in flight, their plaintexts,
and what has been delivered already. -/
structure Flow (x y : Party B) (s : SessionState B) (q : List (ChatMessage B))
    (ps : List B) : Prop where
  session : x.world.client.sessionsByPeer.lookup y.world.client.userId = some s
  server : x.world.server = q.map .fromChat
  addressed : ∀ m ∈ q, m.Addressed x.world.client.userId y.world.client.userId s.sessionId
  sent : ∃ done, x.sent = done ++ ps ∧ y.got = done.map .ok
  generated : s.localRatchetKey.publicKey ∈ generatedKeys x.world.trace

/-- The two clients are in a conversation that satisfies the invariant. -/
def Connected (c : Crypto B) (d : Duo B) : Prop :=
  ∃ s r q q' ps ps', Flow d.a d.b s q ps ∧ Flow d.b d.a r q' ps' ∧ Duplex c s r q q' ps ps'

theorem Connected.symm {d : Duo B} (h : Connected c d) : Connected c d.swap := by
  obtain ⟨s, r, q, q', ps, ps', h₁, h₂, h⟩ := h
  exact ⟨r, s, q', q, ps', ps, h₂, h₁, h.symm⟩

/-- What the two sides hold when a session has just been established by a run of the
initiator. -/
structure EstablishedBy (c : Crypto B) (opening : List (Event B)) (a b : World B S)
    {cl : Client B} {peer plaintext : B} {bundle : PrekeyBundle B}
    (run : SealedInitiation c cl peer bundle plaintext) (r : SessionState B) : Prop where
  opening_eq : opening = run.events ++ [.receivedBundle bundle]
  session : a.client.sessionsByPeer.lookup b.client.userId = some run.session
  session' : b.client.sessionsByPeer.lookup a.client.userId = some r
  mirrors : run.session.Mirrors r
  genuine : a.client.Genuine c
  genuine' : b.client.Genuine c
  generated : a.client.Generated a.trace
  generated' : b.client.Generated b.trace

theorem Established.spec (hlaw : c.Lawful) {opening : List (Event B)} {d : Duo B}
    (h : Established c opening d) :
    d = ⟨⟨{ d.a.world with server := [] }, [], []⟩, ⟨{ d.b.world with server := [] }, [], []⟩⟩ ∧
    ∃ (cl : Client B) (peer plaintext : B) (bundle : PrekeyBundle B)
      (run : SealedInitiation c cl peer bundle plaintext) (r : SessionState B),
      EstablishedBy c opening d.a.world d.b.world run r := by
  cases h with
  | @intro a₀ a b₀ b published bundle acquired message plaintext opened ha hb hpub hsame hacq
      hholds hinit hmessage hopening haccept =>
    obtain ⟨fetched, s₀, s₁, run, hf, hsent, hserver, htrace, hclient⟩ := initiateSession_ok hinit
    obtain rfl : acquired = fetched := by
      rw [hf.acquired] at hacq
      exact (Except.ok.inj hacq).symm
    -- the message in the mailbox is the one of the run
    obtain rfl : s₀ = a₀.server := (Prod.mk.inj hf.acquired).2.symm
    obtain rfl : s₁ = a₀.server ++ [.fromInitial run.message] := (Prod.mk.inj hsent).2.symm
    obtain rfl : run.message = message := by
      have h₁ := List.append_cancel_left (hserver.symm.trans hmessage)
      simpa [Envelope.fromInitial] using h₁
    -- the responder has made a run of its own, so the conditions for agreement hold
    rcases handleInitialMessage_cases (c := c) (P := (· = c)) (v := .any) run.message b₀
      with ⟨r, -⟩ | ⟨e, w, he, -⟩
    swap
    · rw [haccept] at he
      cases (Prod.mk.inj he).1
    obtain ⟨b', hb', hdone⟩ := handleInitialMessage_of_initiation hlaw (ha.genuine.2 rfl)
      (hb.genuine.2 rfl) (hpub.ownedBy hsame) hf.user_eq hholds r.identity_ok run r.unseen
    obtain ⟨-, rfl⟩ := Prod.mk.inj (haccept.symm.trans hb')
    rw [← hclient] at hdone
    have ha' : Reach (· = c) true a :=
      ha.of_run rfl _ (.initiate b₀.client.userId plaintext)
        (Proc.bind_ok hinit fun _ => pure [])
    have hb' : Reach (· = c) true b :=
      hb.of_run rfl (mailbox none) (.handleInitial run.message)
        (Proc.bind_ok haccept fun p => pure [p])
    have huser : b.client.userId = b₀.client.userId := by
      have hmoves := handleInitialMessage_moves (v := .any)
        (P := (· = c)) rfl run.message b₀ .refl
      rw [haccept] at hmoves
      exact hmoves.sameIdentity.userId.symm
    obtain ⟨s, s', hs, hs', hmirrors, -, -⟩ := hdone.sessions
    obtain rfl : s = run.session := by
      rw [hclient, Client.lookup_withSession] at hs
      exact (Option.some.inj hs).symm
    have hs₁ : a.client.sessionsByPeer.lookup b.client.userId = some run.session := by
      rw [huser]
      exact hs
    refine ⟨rfl, _, _, _, _, run, s', ?_, hs₁, hs', hmirrors, ha'.genuine.2 rfl,
      hb'.genuine.2 rfl, ha'.generated rfl, hb'.generated rfl⟩
    refine List.append_cancel_right (hopening.symm.trans htrace |>.trans ?_)
    rw [List.append_assoc]
    rfl

theorem Established.connected (hlaw : c.Lawful) {opening : List (Event B)} {d : Duo B}
    (h : Established c opening d) : Connected c d := by
  obtain ⟨hd, cl, peer, plaintext, bundle, run, r, he⟩ := h.spec hlaw
  rw [hd]
  exact ⟨run.session, r, [], [], [], [],
    ⟨he.session, rfl, nofun, ⟨[], rfl, rfl⟩, he.generated.ratchet _ _ he.session⟩,
    ⟨he.session', rfl, nofun, ⟨[], rfl, rfl⟩, he.generated'.ratchet _ _ he.session'⟩,
    Duplex.of_mirrors he.mirrors (he.genuine.ratchet _ _ he.session)
      (he.genuine'.ratchet _ _ he.session')⟩

theorem Connected.send (hlaw : c.Lawful) {d d' : Duo B} {p : B} (h : Connected c d)
    (hG : Guard.calm d (.send p)) (hd : d.act c (.send p) = some d')
    (hfresh : (generatedKeys d'.a.world.trace).Nodup) : Connected c d' := by
  rw [Duo.act] at hd
  rcases hsend : sendMessage c (mailbox none) d.b.world.client.userId p d.a.world with
    ⟨e | u, w⟩
  · rw [hsend] at hd
    cases hd
  rw [hsend] at hd
  obtain rfl := Option.some.inj hd
  obtain ⟨s, r, q, q', ps, ps', h₁, h₂, hdup⟩ := h
  obtain ⟨s₁, s₂, m, events, hs₁, hsent, hs₂, huser, htrace, henq⟩ := sendMessage_ok hsend
  obtain rfl : s = s₁ := by simpa using h₁.session.symm.trans hs₁
  have hserver : w.server = d.a.world.server ++ [.fromChat m] := (Prod.mk.inj henq).2.symm
  have haddr := hsent.addressed
  have hid : s₂.sessionId = s.sessionId := by cases hsent <;> rfl
  have htrace' : d.a.world.trace <:+ w.trace := ⟨events, htrace.symm⟩
  have hsub := (generatedKeys_suffix htrace').subset
  -- the part of the invariant about the sessions
  have hnew : Duplex c s₂ r (q ++ [m]) q' (ps ++ [p]) ps' ∧
      s₂.localRatchetKey.publicKey ∈ generatedKeys w.trace := by
    cases hsent with
    | plain hdue run => exact ⟨hdup.send_plain hlaw run, hsub h₁.generated⟩
    | ratchet step run =>
      have hgen : generatedKeys w.trace = step.newRatchet.publicKey ::
          generatedKeys d.a.world.trace := by
        rw [htrace]
        rfl
      have hne : step.newRatchet.publicKey ≠ s.localRatchetKey.publicKey := by
        rw [hgen, List.nodup_cons] at hfresh
        exact fun he => hfresh.1 (he ▸ h₁.generated)
      refine ⟨hdup.send_ratchet hlaw ?_ step hne run, hgen ▸ List.mem_cons_self ..⟩
      intro m' hm'
      have hcalm := hG s h₁.session step.due (.fromChat m')
        (h₂.server ▸ List.mem_map.mpr ⟨m', hm', rfl⟩)
      exact not_not.mp fun hp => hcalm ⟨m', rfl, hp⟩
  refine ⟨s₂, r, q ++ [m], q', ps ++ [p], ps', ⟨hs₂, ?_, ?_, ?_, hnew.2⟩,
    ⟨huser ▸ h₂.session, h₂.server, huser ▸ h₂.addressed, h₂.sent, h₂.generated⟩, hnew.1⟩
  · rw [hserver, h₁.server, List.map_append]
    rfl
  · intro m' hm'
    rw [huser, hid]
    rcases List.mem_append.mp hm' with hm' | hm'
    · exact h₁.addressed m' hm'
    · rw [List.mem_singleton.mp hm']
      exact haddr
  · obtain ⟨done, hsent', hgot⟩ := h₁.sent
    exact ⟨done, by rw [hsent', List.append_assoc], hgot⟩

theorem Connected.deliver {d d' : Duo B} (h : Connected c d)
    (hd : d.act c .deliver = some d') : Connected c d' := by
  obtain ⟨s, r, q, q', ps, ps', h₁, h₂, hdup⟩ := h
  rcases q with _ | ⟨m, q⟩
  · rw [Duo.act, h₁.server] at hd
    cases hd
  have haddr := h₁.addressed m (List.mem_cons_self ..)
  obtain ⟨p, ps₁, r₁, rfl, hm, hdup'⟩ := hdup.deliver
  have hrun := handleChatMessage_eq (c := c) (hdup.sessionId ▸ haddr) h₂.session
  rw [hm] at hrun
  have hact : d.act c .deliver = some
      { a := { d.a with world := { d.a.world with server := q.map .fromChat } }
        b := { d.b with
          world := { d.b.world with
            trace := .receivedChat m :: d.b.world.trace
            client := d.b.world.client.withSession d.a.world.client.userId r₁ }
          got := d.b.got ++ [.ok p] } } := by
    rw [Duo.act, h₁.server, List.map_cons]
    simp only [handleEnvelope, Envelope.fromChat, hrun]
  obtain rfl := Option.some.inj (hact.symm.trans hd)
  refine ⟨s, r₁, q, q', ps₁, ps', ⟨h₁.session, rfl, ?_, ?_, h₁.generated⟩,
    ⟨Client.lookup_withSession .., h₂.server, ?_, ?_, ?_⟩, hdup'⟩
  · exact fun m' hm' => h₁.addressed m' (List.mem_cons_of_mem _ hm')
  · obtain ⟨done, hsent, hgot⟩ := h₁.sent
    refine ⟨done ++ [p], by rw [hsent, List.append_assoc]; rfl, ?_⟩
    rw [List.map_append, ← hgot]
    rfl
  · rw [← hdup'.sessionId, hdup.sessionId]
    exact h₂.addressed
  · exact h₂.sent
  · have hframe := (receiveChat_frame c m r).1.localRatchetKey
    rw [hm] at hframe
    rw [hframe]
    exact (generatedKeys_suffix (List.suffix_cons _ _)).subset h₂.generated

theorem Duo.act_trace_suffix {d d' : Duo B} {act : Act B} (h : d.act c act = some d') :
    d.a.world.trace <:+ d'.a.world.trace ∧ d.b.world.trace <:+ d'.b.world.trace := by
  cases act with
  | send p =>
    have hm := sendMessage_moves (P := (· = c)) rfl
      (mailbox none).enqueues_any d.b.world.client.userId p d.a.world .refl
    rw [Duo.act] at h
    rcases hsend : sendMessage c (mailbox none) d.b.world.client.userId p d.a.world with
      ⟨e | u, w⟩
    · rw [hsend] at h
      cases h
    · rw [hsend] at h hm
      obtain rfl := Option.some.inj h
      exact ⟨hm.trace_suffix, List.suffix_rfl⟩
  | deliver =>
    rw [Duo.act] at h
    rcases hq : d.a.world.server with _ | ⟨envelope, rest⟩
    · rw [hq] at h
      cases h
    · rw [hq] at h
      obtain rfl := Option.some.inj h
      have hm := handleEnvelope_moves (P := (· = c)) (v := .any) rfl
        envelope d.b.world .refl
      exact ⟨List.suffix_rfl, hm.trace_suffix⟩

theorem Duo.turn_cases {d d' : Duo B} {flip : Bool} {act : Act B}
    (h : d.turn c flip act = some d') :
    (flip = false ∧ d.act c act = some d') ∨
    (flip = true ∧ d.swap.act c act = some d'.swap) := by
  rw [Duo.turn] at h
  cases flip with
  | false => exact Or.inl ⟨rfl, by simpa using h⟩
  | true =>
    obtain ⟨x, hx, rfl⟩ := Option.map_eq_some_iff.mp (by simpa using h)
    exact Or.inr ⟨rfl, hx⟩

theorem Duo.Fresh.of_turn {d d' : Duo B} {flip : Bool} {act : Act B} (h : d'.Fresh)
    (hd : d.turn c flip act = some d') : d.Fresh := by
  rcases Duo.turn_cases hd with ⟨-, hd⟩ | ⟨-, hd⟩
  · have ht := Duo.act_trace_suffix hd
    exact ⟨h.1.sublist (generatedKeys_suffix ht.1).sublist,
      h.2.sublist (generatedKeys_suffix ht.2).sublist⟩
  · have ht := Duo.act_trace_suffix hd
    exact ⟨h.1.sublist (generatedKeys_suffix ht.2).sublist,
      h.2.sublist (generatedKeys_suffix ht.1).sublist⟩

/-- **The invariant holds along every calm run.** -/
theorem Run.connected (hlaw : c.Lawful) {d₀ d : Duo B} (h : Run c Guard.calm d₀ d)
    (h₀ : Connected c d₀) (hfresh : d.Fresh) : Connected c d := by
  induction h with
  | refl => exact h₀
  | @turn d d' flip act _ hG hd ih =>
    have hc := ih (hfresh.of_turn hd)
    rcases Duo.turn_cases hd with ⟨rfl, hact⟩ | ⟨rfl, hact⟩
    · cases act with
      | send p => exact hc.send hlaw hG hact hfresh.1
      | deliver => exact hc.deliver hact
    · cases act with
      | send p => exact (hc.symm.send hlaw hG hact hfresh.2).symm
      | deliver => exact (hc.symm.deliver hact).symm

/-- Feed envelopes in order to the handlers, up to the first that is rejected. -/
def feed (c : Crypto B) : List (Envelope B) → Proc (World B S) (List B)
  | [] => pure []
  | envelope :: rest => do
    let plaintext ← handleEnvelope c envelope
    let plaintexts ← feed c rest
    pure (plaintext :: plaintexts)

theorem feed_of_acceptsAll {q : List (ChatMessage B)} {r r' : SessionState B} {ps : List B}
    {w : World B S} {peer : B} (h : AcceptsAll c q r ps r')
    (hq : ∀ m ∈ q, m.Addressed peer w.client.userId r.sessionId)
    (hr : w.client.sessionsByPeer.lookup peer = some r) :
    ∃ w', feed c (q.map .fromChat) w = (.ok ps, w') ∧
      w'.client.sessionsByPeer.lookup peer = some r' := by
  induction h generalizing w with
  | nil r => exact ⟨w, rfl, hr⟩
  | @cons m q r r₁ r' p ps hm _ ih =>
    have hrun := handleChatMessage_eq (c := c) (hq m (List.mem_cons_self ..)) hr
    have hid := (receiveChat_frame c m r).1.sessionId
    rw [hm] at hrun hid
    let w₁ : World B S := { w with
      trace := .receivedChat m :: w.trace
      client := w.client.withSession peer r₁ }
    have hq₁ : ∀ m' ∈ q, m'.Addressed peer w₁.client.userId r₁.sessionId := fun m' hm' =>
      hid ▸ hq m' (List.mem_cons_of_mem _ hm')
    obtain ⟨w', hfeed, hl⟩ := ih hq₁ (Client.lookup_withSession ..)
    refine ⟨w', ?_, hl⟩
    exact (Proc.bind_ok hrun _).trans (Proc.bind_ok hfeed _)

/-- What feeding the undelivered messages in both directions leads to. -/
def Duo.Agrees (c : Crypto B) (d : Duo B) : Prop :=
  ∃ s r s' r' ps ps' a' b',
    d.a.world.client.sessionsByPeer.lookup d.b.world.client.userId = some s ∧
    d.b.world.client.sessionsByPeer.lookup d.a.world.client.userId = some r ∧
    feed c d.a.world.server d.b.world = (.ok ps, b') ∧
    feed c d.b.world.server d.a.world = (.ok ps', a') ∧
    b'.client.sessionsByPeer.lookup d.a.world.client.userId = some r' ∧
    a'.client.sessionsByPeer.lookup d.b.world.client.userId = some s' ∧
    (r'.recvChainKey = s.sendChainKey ∧ r'.recvCounter = s.sendCounter ∧
      r'.remoteRatchetPublic = s.localRatchetKey.publicKey) ∧
    (s'.recvChainKey = r.sendChainKey ∧ s'.recvCounter = r.sendCounter ∧
      s'.remoteRatchetPublic = r.localRatchetKey.publicKey) ∧
    s'.rootKey = r'.rootKey

/-- **Ratchet agreement**, in every state of every calm run. -/
theorem ratchet_agreement (hlaw : c.Lawful) {opening : List (Event B)} {d₀ d : Duo B}
    (h₀ : Established c opening d₀) (h : Run c Guard.calm d₀ d) (hfresh : d.Fresh) :
    d.Agrees c := by
  obtain ⟨s, r, q, q', ps, ps', h₁, h₂, hdup⟩ := h.connected hlaw (h₀.connected hlaw) hfresh
  obtain ⟨s', r', hl, hl', hroot⟩ := hdup.links
  obtain ⟨b', hb, hr'⟩ := feed_of_acceptsAll hl.accepts
    (fun m hm => hdup.sessionId ▸ h₁.addressed m hm) h₂.session
  obtain ⟨a', ha, hs'⟩ := feed_of_acceptsAll hl'.accepts
    (fun m hm => hdup.sessionId ▸ h₂.addressed m hm) h₁.session
  exact ⟨s, r, s', r', ps, ps', a', b', h₁.session, h₂.session, h₁.server ▸ hb, h₂.server ▸ ha,
    hr', hs', ⟨hl.chainKey, hl.counter, hl.remote⟩, ⟨hl'.chainKey, hl'.counter, hl'.remote⟩,
    hroot⟩

/-- **Full-duplex delivery on calm runs**: if a client makes a ratcheting `SendMessage` only
when no ratchet of its peer is on its way to it, every delivery is accepted with the plaintext
that was sent. -/
theorem fullDuplex_of_calm (hlaw : c.Lawful) : FullDuplex c Guard.calm := by
  intro opening d₀ d h₀ h hfresh
  obtain ⟨s, r, q, q', ps, ps', h₁, h₂, -⟩ := h.connected hlaw (h₀.connected hlaw) hfresh
  obtain ⟨done, hsent, hgot⟩ := h₁.sent
  obtain ⟨done', hsent', hgot'⟩ := h₂.sent
  refine ⟨⟨ps.map .ok, ?_⟩, ⟨ps'.map .ok, ?_⟩⟩
  · rw [hgot, hsent, List.map_append]
  · rw [hgot', hsent', List.map_append]

/-! ## 4. Runs of Alice and Bob -/

/-- Make the given turns, as long as they meet the guard. -/
def Duo.play (c : Crypto B) (G : Guard B) [∀ d act, Decidable (G d act)] (d : Duo B) :
    List (Bool × Act B) → Option (Duo B)
  | [] => some d
  | (flip, act) :: rest =>
    if G (if flip then d.swap else d) act then
      match d.turn c flip act with
      | none => none
      | some d' => d'.play c G rest
    else none

theorem Run.of_play {G : Guard B} [∀ d act, Decidable (G d act)] {d₀ d d' : Duo B}
    (h : Run c G d₀ d) {turns : List (Bool × Act B)} (hp : d.play c G turns = some d') :
    Run c G d₀ d' := by
  induction turns generalizing d with
  | nil => exact Option.some.inj hp ▸ h
  | cons t rest ih =>
    obtain ⟨flip, act⟩ := t
    rw [Duo.play] at hp
    by_cases hG : G (if flip then d.swap else d) act
    · rw [if_pos hG] at hp
      rcases ht : d.turn c flip act with _ | d₁
      · rw [ht] at hp
        cases hp
      · rw [ht] at hp
        exact ih (h.turn flip act hG ht) hp
    · rw [if_neg hG] at hp
      cases hp

instance (d : Duo B) (act : Act B) : Decidable (Guard.any d act) := inferInstanceAs (Decidable True)

instance (d : Duo B) : Decidable d.Fresh := inferInstanceAs (Decidable (_ ∧ _))

instance (d : Duo B) : Decidable d.Delivered := inferInstanceAs (Decidable (_ ∧ _))

instance (e : Envelope B) : Decidable e.CarriesRatchet :=
  decidable_of_iff (e.chat.any (fun m => ¬ m.Plain) = true) (by
    rcases h : e.chat with _ | m <;> simp [Envelope.CarriesRatchet, h])

instance (d : Duo B) (act : Act B) : Decidable (Guard.calm d act) :=
  match act with
  | .deliver => inferInstanceAs (Decidable True)
  | .send _ => decidable_of_iff
    (∀ s ∈ d.a.world.client.sessionsByPeer.lookup d.b.world.client.userId,
      s.ratchetDue → ∀ e ∈ d.b.world.server, ¬ e.CarriesRatchet) Iff.rfl

namespace AliceBob

open Symbolic

/-- Alice after her first message to Bob. -/
@[irreducible] def alice₁ : World Str (List (Envelope Str)) :=
  (initiateSession Crypto.symbolic (towards bob.client) bob.client.userId (text "hello") alice).2

/-- Alice's initial message. -/
@[irreducible] def hello : InitialMessage Str :=
  (alice₁.server.head?.bind Envelope.initial).get (by decide +kernel)

/-- Bob after Alice's first message. -/
@[irreducible] def bob₁ : World Str (List (Envelope Str)) :=
  (handleInitialMessage Crypto.symbolic hello bob).2

/-- Alice and Bob with the session just established. -/
def duo : Duo Str := ⟨⟨{ alice₁ with server := [] }, [], []⟩, ⟨{ bob₁ with server := [] }, [], []⟩⟩

/-- What the first message added to Alice's history. -/
def opening : List (Event Str) := alice₁.trace.take (alice₁.trace.length - alice.trace.length)

theorem established : Established Crypto.symbolic opening duo := by
  obtain ⟨hinit, haccept, hmessage, hopening⟩ :
      (initiateSession Crypto.symbolic (towards bob.client) bob.client.userId (text "hello")
        alice).1 = .ok () ∧
      (handleInitialMessage Crypto.symbolic hello bob).1 = .ok (text "hello") ∧
      alice₁.server = alice.server ++ [.fromInitial hello] ∧
      alice₁.trace = opening ++ alice.trace := by decide +kernel
  refine .intro reach_alice reach_bob
    ⟨_, _, (rfl : acquired bob.client = _)⟩ .rfl rfl (holds_acquired _) (Prod.ext hinit ?_)
    hmessage hopening (Prod.ext haccept ?_)
  · unfold alice₁
    rfl
  · unfold bob₁
    rfl

/-- `n` messages of one client. -/
def sends (flip : Bool) (n : Nat) : List (Bool × Act Str) :=
  List.replicate n (flip, .send (text "m"))

/-- `n` deliveries of messages of one client. -/
def deliveries (flip : Bool) (n : Nat) : List (Bool × Act Str) :=
  List.replicate n (flip, .deliver)

/-- Alice ratchets, Bob reads her messages, and then ratchets himself. -/
def inTurn : List (Bool × Act Str) :=
  sends false 10 ++ deliveries false 10 ++ sends true 11 ++ deliveries true 4

/-- Alice and Bob ratchet at the same time; Bob then reads Alice's messages. -/
def crossing : List (Bool × Act Str) :=
  sends false 10 ++ sends true 11 ++ deliveries false 10

/-- Where the turns lead. -/
theorem exists_play {G : Guard Str} [∀ d act, Decidable (G d act)]
    {turns : List (Bool × Act Str)} {p : Duo Str → Bool}
    (h : (duo.play Crypto.symbolic G turns).any p = true) :
    ∃ d, Run Crypto.symbolic G duo d ∧ p d = true := by
  obtain ⟨d, hd, hp⟩ := (Option.any_eq_true _ _).mp h
  exact ⟨d, Run.refl.of_play hd, hp⟩

/-- At the end of the calm run all messages of Alice are delivered, her ratchet among them, and
seven of Bob's are in flight, the last one with his.  At the end of the other a message is lost. -/
theorem plays :
    (duo.play Crypto.symbolic Guard.calm inTurn).any (fun d => decide (d.Fresh ∧
      d.a.got.length = 4 ∧ d.b.got.length = 10)) = true ∧
    (duo.play Crypto.symbolic Guard.any crossing).any
      (fun d => decide (d.Fresh ∧ ¬ d.Delivered)) = true := by decide +kernel

theorem exists_inTurn : ∃ d, Run Crypto.symbolic Guard.calm duo d ∧ d.Fresh ∧
    d.a.got.length = 4 ∧ d.b.got.length = 10 := by
  obtain ⟨d, hrun, hp⟩ := exists_play plays.1
  exact ⟨d, hrun, of_decide_eq_true hp⟩

end AliceBob

theorem ratchet_agreement_alice_bob :
    ∃ d, (Run Crypto.symbolic Guard.calm AliceBob.duo d ∧ d.Fresh ∧ d.a.got.length = 4 ∧
      d.b.got.length = 10) ∧ d.Agrees Crypto.symbolic := by
  obtain ⟨d, hrun, hfresh, hgot⟩ := AliceBob.exists_inTurn
  exact ⟨d, ⟨hrun, hfresh, hgot⟩,
    ratchet_agreement Crypto.symbolic_lawful AliceBob.established hrun hfresh⟩

theorem fullDuplex_alice_bob :
    ∃ d, (Run Crypto.symbolic Guard.calm AliceBob.duo d ∧ d.Fresh ∧ d.a.got.length = 4 ∧
      d.b.got.length = 10) ∧ d.Delivered := by
  obtain ⟨d, hrun, hfresh, hgot⟩ := AliceBob.exists_inTurn
  exact ⟨d, ⟨hrun, hfresh, hgot⟩,
    fullDuplex_of_calm Crypto.symbolic_lawful _ _ _ AliceBob.established hrun hfresh⟩

/-- Two ratchets that cross: Bob cannot read the message that carries Alice's. -/
theorem not_fullDuplex_any :
    Crypto.symbolic.Lawful ∧ ¬ FullDuplex Crypto.symbolic Guard.any := by
  refine ⟨Crypto.symbolic_lawful, fun h => ?_⟩
  obtain ⟨d, hrun, hp⟩ := AliceBob.exists_play AliceBob.plays.2
  obtain ⟨hfresh, hnot⟩ := of_decide_eq_true hp
  exact hnot (h _ _ _ AliceBob.established hrun hfresh)

end PqChat
