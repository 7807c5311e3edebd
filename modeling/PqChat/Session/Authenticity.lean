/-
# Chat messages under attack

Two honest clients in one session, and an adversary who hands either of them any message at any
time: old messages again, messages in another order, messages with a ratchet key of its own.
What it cannot do is seal under a key that one of the two derives.

A rejected message still changes the receiver: a ratchet header is acted upon before anything
is decrypted.  So the invariant does not say that the two clients agree on anything.  It says
where the keys of each are: every ratchet step takes the root key one step further from the
handshake, the sending and the receiving chain are never at the same distance, and positions
are only ever moved FORWARD.  A key determines its position, so what is opened was sealed by
the peer, and later than everything opened before.
-/
import PqChat.Client.Schedule
import PqChat.Session.Duplex

set_option linter.unusedSectionVars false

namespace PqChat

open ByteString Symbolic

/-! ## 1. Positions -/

/-- Positions are ordered by the ratchet step, then by the place in the chain. -/
def Before (x y : Nat × Nat) : Prop := x.1 < y.1 ∨ x.1 = y.1 ∧ x.2 < y.2

theorem Before.trans {x y z : Nat × Nat} (h : Before x y) (h' : Before y z) : Before x z := by
  unfold Before at *
  omega

theorem Before.irrefl (x : Nat × Nat) : ¬ Before x x := by
  unfold Before
  omega

theorem Before.le {x y : Nat × Nat} (h : Before x y) : x.1 ≤ y.1 := by
  unfold Before at h
  omega

theorem before_next (d n : Nat) : Before (d, n) (d, n + 1) := Or.inr ⟨rfl, n.lt_succ_self⟩

section Positions

variable (ikm th : Str)

/-- The chain key is at this position, counted from the first chain number `i`: 1 is the
initiator's, 2 the responder's. -/
abbrev ChainKeyAt (i : Nat) (ck : Str) (x : Nat × Nat) : Prop :=
  ChainAt (handshakeKeyOf ikm th 0) (handshakeKeyOf ikm th i) ck x.1 x.2

/-- The message key belongs to a chain key at this position. -/
def KeyAt (i : Nat) (key : Str) (x : Nat × Nat) : Prop :=
  ∃ ck n, key = messageKeyOf ck n ∧ ChainKeyAt ikm th i ck x

/-- Where the keys of a session are: the root key, the sending chain and the receiving
chain. -/
structure Places (i j : Nat) (s : SessionState Str) (root : Nat) (out into : Nat × Nat) :
    Prop where
  root_at : RootAt (handshakeKeyOf ikm th 0) root s.rootKey
  out_at : ChainKeyAt ikm th i s.sendChainKey out
  into_at : ChainKeyAt ikm th j s.recvChainKey into
  out_le : out.1 ≤ root
  into_le : into.1 ≤ root
  apart : out.1 = into.1 → out.1 = 0

variable {ikm th} {i j : Nat}

theorem KeyAt.unique {key : Str} {x y : Nat × Nat} (hi : i ≠ 0) (hj : j ≠ 0)
    (h : KeyAt ikm th i key x) (h' : KeyAt ikm th j key y) : x = y ∧ (x.1 = 0 → i = j) := by
  obtain ⟨ck, n, rfl, hck⟩ := h
  obtain ⟨ck', n', hk, hck'⟩ := h'
  obtain rfl := messageKeyOf_inj hk
  obtain ⟨h₁, h₂, h₃⟩ := hck.unique hck' hi hj
  exact ⟨Prod.ext h₁ h₂, h₃⟩

namespace Places

variable {s : SessionState Str} {root : Nat} {out into : Nat × Nat}

/-- The ratchet step of a send: the new chain is further from the handshake than everything
else. -/
theorem send_ratchet (h : Places ikm th i j s root out into) {c : Crypto Str}
    (hc : c.Refines Crypto.symbolic) (step : SendRatchetRun c s) :
    Places ikm th i j step.session (root + 1) (root + 1, 0) into := by
  have hmix := deriveRatchetRootAndChain_refines hc step.mix_ok
  have hck : step.session.sendChainKey = ratchetChainOf step.dh s.rootKey := congrArg Prod.fst hmix
  have hrk : step.session.rootKey = ratchetRootOf step.dh s.rootKey := congrArg Prod.snd hmix
  refine ⟨?_, ?_, h.into_at, le_rfl, h.into_le.trans (Nat.le_succ _), fun he => ?_⟩
  · rw [hrk]
    exact h.root_at.step step.dh
  · rw [hck]
    exact .ratchet h.root_at .base
  · have h₁ := h.into_le
    have h₂ : root + 1 = into.1 := he
    omega

theorem sealed (h : Places ikm th i j s root out into) {c : Crypto Str}
    (hc : c.Refines Crypto.symbolic) {userId peer p : Str} {header : MessageHeader Str}
    (run : SealChatRun c userId peer s header p) :
    KeyAt ikm th i run.messageKey out ∧
      Places ikm th i j run.session root (out.1, out.2 + 1) into := by
  have hstep := deriveMessageKeyAndNextChain_refines hc run.step_ok
  have hmk : run.messageKey = messageKeyOf s.sendChainKey s.sendCounter := congrArg Prod.fst hstep
  have hck : run.session.sendChainKey = nextChainOf s.sendChainKey s.sendCounter :=
    congrArg Prod.snd hstep
  refine ⟨⟨_, _, hmk, h.out_at⟩, h.root_at, ?_, h.into_at, h.out_le, h.into_le, h.apart⟩
  rw [hck]
  exact h.out_at.next s.sendCounter

/-- The ratchet step of a receive, on whatever key the header carries. -/
theorem recv_ratchet (h : Places ikm th i j s root out into) (dh newRemote : Str) :
    Places ikm th i j
      (s.ratcheted (ratchetChainOf dh s.rootKey) (ratchetRootOf dh s.rootKey) newRemote)
      (root + 1) out (root + 1, 0) := by
  refine ⟨h.root_at.step dh, h.out_at, .ratchet h.root_at .base, h.out_le.trans (Nat.le_succ _),
    le_rfl, fun he => ?_⟩
  have h₁ := h.out_le
  have h₂ : out.1 = root + 1 := he
  omega

theorem opened (h : Places ikm th i j s root out into) (n m : UInt64) :
    KeyAt ikm th j (messageKeyOf s.recvChainKey n) into ∧
      Places ikm th i j { s with recvChainKey := nextChainOf s.recvChainKey n, recvCounter := m }
        root out (into.1, into.2 + 1) :=
  ⟨⟨_, _, rfl, h.into_at⟩, h.root_at, h.out_at, h.into_at.next n, h.out_le, h.into_le, h.apart⟩

end Places

end Positions

/-! ## 2. The system -/

/-- A call of `SendMessage`, with what it added to the history. -/
structure Call where
  plaintext : Str
  events : List (Event Str)

/-- A client under attack: its calls of `SendMessage` to the peer, and the messages of the peer
it has accepted, with what it output for them. -/
structure Peer where
  world : World Str (List (Envelope Str))
  calls : List Call
  accepted : List (ChatMessage Str × Str)

/-- A seal made in this session: by `InitiateSession`, or by a `SendMessage` of one of the
two. -/
def SealedBy (opening : List (Event Str)) (x y : Peer) (e : Event Str) : Prop :=
  e ∈ opening ∨ ∃ call ∈ x.calls ++ y.calls, e ∈ call.events

/-- The adversary cannot seal under a key the receiver `x` derives: if the message is sealed
under the very key that this call of `HandleChatMessage` derives for it, one of the two clients
has made that seal. -/
def Unforged (opening : List (Event Str)) (c : Crypto Str) (x y : Peer) (m : ChatMessage Str) :
    Prop :=
  ∀ s s₁, x.world.client.sessionsByPeer.lookup y.world.client.userId = some s →
    recvRatchet c m s = (.ok (), s₁) → ∀ nonce p ad,
    m.ciphertext = Symbolic.aeadSeal (messageKeyOf s₁.recvChainKey s₁.recvCounter) nonce p ad →
    SealedBy opening x y (.seal (messageKeyOf s₁.recvChainKey s₁.recvCounter) nonce p ad)

/-- What a client outputs for a message of the peer. -/
def output (peer : Str) (m : ChatMessage Str) : Result Str → List (ChatMessage Str × Str)
  | .ok p => if m.fromUser = peer then [(m, p)] else []
  | .error _ => []

/-- What can happen to the client `x`.  Every primitive may fail at any call. -/
inductive PeerStep (opening : List (Event Str)) (x y : Peer) : Peer → Prop
  | send {c : Crypto Str} (hc : c.Refines Crypto.symbolic)
    (server : ServerApi Str (List (Envelope Str))) (p : Str) (events : List (Event Str))
    (h : (sendMessage c server y.world.client.userId p x.world).2.trace =
      events ++ x.world.trace) :
    PeerStep opening x y
      ⟨(sendMessage c server y.world.client.userId p x.world).2, x.calls ++ [⟨p, events⟩],
        x.accepted⟩
  | receive {c : Crypto Str} (hc : c.Refines Crypto.symbolic) (m : ChatMessage Str)
    (hm : m.fromUser = y.world.client.userId → Unforged opening c x y m) :
    PeerStep opening x y
      ⟨(handleChatMessage c m x.world).2, x.calls,
        x.accepted ++ output y.world.client.userId m (handleChatMessage c m x.world).1⟩

/-- Any number of steps of either client. -/
inductive Attacked (opening : List (Event Str)) (a₀ b₀ : Peer) : Peer → Peer → Prop
  | refl : Attacked opening a₀ b₀ a₀ b₀
  | left {a b a' : Peer} (h : Attacked opening a₀ b₀ a b) (hs : PeerStep opening a b a') :
    Attacked opening a₀ b₀ a' b
  | right {a b b' : Peer} (h : Attacked opening a₀ b₀ a b) (hs : PeerStep opening b a b') :
    Attacked opening a₀ b₀ a b'

/-- An accepted message is the one a call has sealed. -/
def Matches (x : ChatMessage Str × Str) (call : Call) : Prop :=
  x.2 = call.plaintext ∧ ∃ key nonce ad, .seal key nonce x.2 ad ∈ call.events ∧
    x.1.ciphertext = Symbolic.aeadSeal key nonce x.2 ad

/-- **Authenticity**: what `x` has accepted are the messages of a subsequence of the calls of
`y`, and no message is among them twice. -/
def Authentic (x y : Peer) : Prop :=
  (∃ calls, calls.Sublist y.calls ∧ List.Forall₂ Matches x.accepted calls) ∧
    (x.accepted.map (·.1.ciphertext)).Nodup

/-! ## 3. The invariant of one client -/

theorem aeadSeal_inj {k n p a k' n' p' a' : Str}
    (h : Symbolic.aeadSeal k n p a = Symbolic.aeadSeal k' n' p' a') :
    k = k' ∧ n = n' ∧ p = p' ∧ a = a' := by
  have h₁ := (List.cons.inj h).1
  simpa only [Sym.app.injEq, true_and] using h₁

section Standing

variable (ikm th : Str)

/-- The call has sealed under a key at this position. -/
def Call.SealsAt (i : Nat) (call : Call) (q : Nat × Nat) : Prop :=
  ∃ key n p ad, .seal key n p ad ∈ call.events ∧ KeyAt ikm th i key q

/-- The message was opened under a key at this position. -/
def OpensAt (j : Nat) (a : ChatMessage Str × Str) (q : Nat × Nat) : Prop :=
  ∃ key nonce ad, a.1.ciphertext = Symbolic.aeadSeal key nonce a.2 ad ∧ KeyAt ikm th j key q

/-- Where a client is in the session, and what lies behind it: it has sealed at positions before
that of its sending chain, and opened at positions before that of its receiving chain. -/
structure Standing (i j : Nat) (opening : List (Event Str)) (x : Peer) (peer : Str)
    (s : SessionState Str) (root : Nat) (out into : Nat × Nat) : Prop where
  session : x.world.client.sessionsByPeer.lookup peer = some s
  places : Places ikm th i j s root out into
  calls : ∀ call ∈ x.calls, ∀ key n p ad, .seal key n p ad ∈ call.events →
    p = call.plaintext ∧ ∃ q, KeyAt ikm th i key q ∧ Before q out ∧ (q.1 = into.1 → q.1 = 0)
  opening : ∀ key n p ad, .seal key n p ad ∈ opening → ∀ q, KeyAt ikm th j key q → Before q into
  accepted : ∀ a ∈ x.accepted, ∃ q, OpensAt ikm th j a q ∧ Before q into

/-- The calls have sealed at increasing positions, each at one. -/
structure Ordered (i : Nat) (calls : List Call) : Prop where
  increasing : calls.Pairwise fun c₁ c₂ => ∀ q₁ q₂, c₁.SealsAt ikm th i q₁ →
    c₂.SealsAt ikm th i q₂ → Before q₁ q₂
  single : ∀ call ∈ calls, ∀ q q', call.SealsAt ikm th i q → call.SealsAt ikm th i q' → q = q'

/-- The messages were opened at increasing positions. -/
def Increasing (j : Nat) (accepted : List (ChatMessage Str × Str)) : Prop :=
  accepted.Pairwise fun a a' => ∀ q q', OpensAt ikm th j a q → OpensAt ikm th j a' q' → Before q q'

variable {ikm th} {i j : Nat} {opening : List (Event Str)} {x x' : Peer} {peer : Str}
  {s s' : SessionState Str} {root root' : Nat} {out out' into : Nat × Nat}

theorem OpensAt.unique {a : ChatMessage Str × Str} {q q' : Nat × Nat} (hj : j ≠ 0)
    (h : OpensAt ikm th j a q) (h' : OpensAt ikm th j a q') : q = q' := by
  obtain ⟨key, nonce, ad, hc, hk⟩ := h
  obtain ⟨key', nonce', ad', hc', hk'⟩ := h'
  obtain ⟨rfl, -⟩ := aeadSeal_inj (hc.symm.trans hc')
  exact (hk.unique hj hj hk').1

/-- One more call, which seals at `q` if at all. -/
theorem Standing.call (hi : i ≠ 0) {q : Nat × Nat} {call : Call}
    (h : Standing ikm th i j opening x peer s root out into) (ho : Ordered ikm th i x.calls)
    (hcalls : x'.calls = x.calls ++ [call]) (haccepted : x'.accepted = x.accepted)
    (hs' : x'.world.client.sessionsByPeer.lookup peer = some s')
    (hp : Places ikm th i j s' root' out' into) (hout : out = out' ∨ Before out out')
    (hq : out = q ∨ Before out q)
    (hcall : ∀ key n p ad, .seal key n p ad ∈ call.events → p = call.plaintext ∧
      KeyAt ikm th i key q ∧ Before q out' ∧ (q.1 = into.1 → q.1 = 0)) :
    Standing ikm th i j opening x' peer s' root' out' into ∧ Ordered ikm th i x'.calls := by
  have hmono : ∀ {y : Nat × Nat}, Before y out → Before y out' := fun hy =>
    hout.elim (fun h => h ▸ hy) fun h => hy.trans h
  have hlater : ∀ {y : Nat × Nat}, Before y out → Before y q := fun hy =>
    hq.elim (fun h => h ▸ hy) fun h => hy.trans h
  have hat : ∀ q', call.SealsAt ikm th i q' → q' = q := by
    rintro q' ⟨key, n, p, ad, hmem, hk⟩
    exact (hk.unique hi hi (hcall key n p ad hmem).2.1).1
  refine ⟨⟨hs', hp, ?_, h.opening, haccepted ▸ h.accepted⟩, ?_, ?_⟩
  · intro c' hc' key n p ad hmem
    rw [hcalls] at hc'
    rcases List.mem_append.mp hc' with hc' | hc'
    · obtain ⟨hpl, q', hk, hb, ha⟩ := h.calls c' hc' key n p ad hmem
      exact ⟨hpl, q', hk, hmono hb, ha⟩
    · rw [List.mem_singleton.mp hc'] at hmem ⊢
      obtain ⟨hpl, hk, hb, ha⟩ := hcall key n p ad hmem
      exact ⟨hpl, q, hk, hb, ha⟩
  · rw [hcalls, List.pairwise_append]
    refine ⟨ho.increasing, List.pairwise_singleton _ _, ?_⟩
    intro c₁ h₁ c₂ h₂ q₁ q₂ hs₁ hs₂
    rw [List.mem_singleton.mp h₂] at hs₂
    obtain ⟨key, n, p, ad, hmem, hk⟩ := hs₁
    obtain ⟨-, q', hk', hb, -⟩ := h.calls c₁ h₁ key n p ad hmem
    rw [hat q₂ hs₂, (hk.unique hi hi hk').1]
    exact hlater hb
  · intro c' hc' q₁ q₂ hs₁ hs₂
    rw [hcalls] at hc'
    rcases List.mem_append.mp hc' with hc' | hc'
    · exact ho.single c' hc' q₁ q₂ hs₁ hs₂
    · rw [List.mem_singleton.mp hc'] at hs₁ hs₂
      rw [hat q₁ hs₁, hat q₂ hs₂]

/-- A call of `SendMessage`, whatever becomes of it. -/
theorem Standing.send (hi : i ≠ 0) {c : Crypto Str} (hc : c.Refines Crypto.symbolic)
    (h : Standing ikm th i j opening x peer s root out into) (ho : Ordered ikm th i x.calls)
    (server : ServerApi Str (List (Envelope Str))) (p : Str) {events : List (Event Str)}
    (htrace : (sendMessage c server peer p x.world).2.trace = events ++ x.world.trace)
    (hcalls : x'.calls = x.calls ++ [⟨p, events⟩]) (haccepted : x'.accepted = x.accepted)
    (hworld : x'.world = (sendMessage c server peer p x.world).2) :
    (∃ s' root' out', Standing ikm th i j opening x' peer s' root' out' into) ∧
      Ordered ikm th i x'.calls ∧ x'.world.client.userId = x.world.client.userId := by
  -- what the call is described by: the new session, the events and the position of the seal
  suffices hdone : ∀ {es : List (Event Str)} {w₁ : World Str (List (Envelope Str))}
      {s' : SessionState Str} {root' : Nat} {out' q : Nat × Nat},
      SessionStep peer s' es x.world w₁ → x'.world.client = w₁.client → x'.world.trace = w₁.trace →
      Places ikm th i j s' root' out' into → (out = out' ∨ Before out out') →
      (out = q ∨ Before out q) →
      (∀ key n p' ad, .seal key n p' ad ∈ es → p' = p ∧ KeyAt ikm th i key q ∧
        Before q out' ∧ (q.1 = into.1 → q.1 = 0)) →
      (∃ s' root' out', Standing ikm th i j opening x' peer s' root' out' into) ∧
      Ordered ikm th i x'.calls ∧ x'.world.client.userId = x.world.client.userId by
    have hroot : Before out (root + 1, 0) := Or.inl (Nat.lt_succ_of_le h.places.out_le)
    have hapart : ((root + 1, 0) : Nat × Nat).1 = into.1 → ((root + 1, 0) : Nat × Nat).1 = 0 := by
      have h₁ := h.places.into_le
      intro he
      have h₂ : root + 1 = into.1 := he
      omega
    rcases sendMessage_cases (c := c) h.session server p with
      ⟨e, w', s', es, hrun, hst, hstep⟩ | ⟨w₁, s', m, es, hsent, hstep, hrun⟩
    · have hclient : x'.world.client = w'.client := by rw [hworld, hrun]
      have htr : x'.world.trace = w'.trace := by rw [hworld, hrun]
      cases hst with
      | idle hes =>
        refine hdone (q := out) hstep hclient htr h.places (Or.inl rfl) (Or.inl rfl) ?_
        intro key n p' ad hmem
        obtain ⟨pair, hp⟩ := hes _ hmem
        cases hp
      | ratcheted step =>
        refine hdone (q := out) hstep hclient htr (h.places.send_ratchet hc step) (Or.inr hroot)
          (Or.inl rfl) ?_
        intro key n p' ad hmem
        simp at hmem
    · have hframe := enqueueAndSave_frame server peer (.fromChat m) w₁
      have hclient : x'.world.client = w₁.client := by rw [hworld, hrun, hframe.1]
      have htr : x'.world.trace = w₁.trace := by rw [hworld, hrun, hframe.2.1]
      cases hsent with
      | plain hd run =>
        obtain ⟨hkey, hpl⟩ := h.places.sealed hc run
        have hnext := before_next out.1 out.2
        refine hdone (q := out) hstep hclient htr hpl (Or.inr hnext) (Or.inl rfl) ?_
        intro key n p' ad hmem
        simp only [List.mem_singleton, Event.seal.injEq] at hmem
        obtain ⟨rfl, -, rfl, -⟩ := hmem
        exact ⟨rfl, hkey, hnext, h.places.apart⟩
      | ratchet step run =>
        obtain ⟨hkey, hpl⟩ := (h.places.send_ratchet hc step).sealed hc run
        have hnext := before_next (root + 1) 0
        refine hdone (q := (root + 1, 0)) hstep hclient htr hpl (Or.inr (hroot.trans hnext))
          (Or.inr hroot) ?_
        intro key n p' ad hmem
        simp only [List.mem_cons, Event.seal.injEq, reduceCtorEq, List.not_mem_nil, or_false]
          at hmem
        obtain ⟨rfl, -, rfl, -⟩ := hmem
        exact ⟨rfl, hkey, hnext, hapart⟩
  intro es w₁ s' root' out' q hstep hclient htr hpl hout hq hseal
  obtain rfl : es = events := by
    rw [hworld, htrace] at htr
    exact (List.append_cancel_right (htr.trans hstep.trace)).symm
  have hs' : x'.world.client.sessionsByPeer.lookup peer = some s' := hclient ▸ hstep.session
  obtain ⟨h₁, h₂⟩ := h.call hi ho hcalls haccepted hs' hpl hout hq hseal
  exact ⟨⟨s', root', out', h₁⟩, h₂, by rw [hclient, hstep.userId]⟩

/-- The receiving chain has moved forward, past the messages opened meanwhile. -/
theorem Standing.moved {into' : Nat × Nat} {new : List (ChatMessage Str × Str)}
    (h : Standing ikm th i j opening x peer s root out into)
    (hcalls : x'.calls = x.calls) (haccepted : x'.accepted = x.accepted ++ new)
    (hs' : x'.world.client.sessionsByPeer.lookup peer = some s')
    (hp : Places ikm th i j s' root' out into') (hinto : into = into' ∨ Before into into')
    (hapart : ∀ q, Before q out → (q.1 = into.1 → q.1 = 0) → q.1 = into'.1 → q.1 = 0)
    (hnew : ∀ a ∈ new, ∃ q, OpensAt ikm th j a q ∧ Before q into') :
    Standing ikm th i j opening x' peer s' root' out into' := by
  have hmono : ∀ {y : Nat × Nat}, Before y into → Before y into' := fun hy =>
    hinto.elim (fun h => h ▸ hy) fun h => hy.trans h
  refine ⟨hs', hp, ?_, ?_, ?_⟩
  · intro call hcall key n p ad hmem
    obtain ⟨hpl, q, hk, hb, ha⟩ := h.calls call (hcalls ▸ hcall) key n p ad hmem
    exact ⟨hpl, q, hk, hb, hapart q hb ha⟩
  · exact fun key n p ad hmem q hk => hmono (h.opening key n p ad hmem q hk)
  · intro a ha
    rw [haccepted] at ha
    rcases List.mem_append.mp ha with ha | ha
    · obtain ⟨q, hq, hb⟩ := h.accepted a ha
      exact ⟨q, hq, hmono hb⟩
    · exact hnew a ha

/-- The ratchet step of a receive, if there is one, moves the receiving chain beyond all that
has been sealed and opened. -/
theorem Standing.recvRatchet {c : Crypto Str} (hc : c.Refines Crypto.symbolic)
    (h : Standing ikm th i j opening x peer s root out into) (m : ChatMessage Str) :
    ∃ root' into', Places ikm th i j (recvRatchet c m s).2 root' out into' ∧
      (into = into' ∨ Before into into') ∧
      ∀ q, Before q out → (q.1 = into.1 → q.1 = 0) → q.1 = into'.1 → q.1 = 0 := by
  rcases recvRatchet_cases c m s with hsame | ⟨newRemote, dh, ck, rk, -, -, -, hmix, hr⟩
  · exact ⟨root, into, by rw [hsame]; exact h.places, Or.inl rfl, fun q _ ha => ha⟩
  · obtain ⟨rfl, rfl⟩ := Prod.mk.inj (deriveRatchetRootAndChain_refines hc hmix)
    refine ⟨root + 1, (root + 1, 0), by rw [hr]; exact h.places.recv_ratchet dh newRemote,
      Or.inr (Or.inl (Nat.lt_succ_of_le h.places.into_le)), fun q hb _ he => ?_⟩
    have h₁ := hb.le
    have h₂ := h.places.out_le
    have h₃ : q.1 = root + 1 := he
    omega

/-- An accepted message was sealed by the peer, in one of its calls. -/
theorem Standing.sealed_by_peer (hi : i ≠ 0) (hj : j ≠ 0) (hij : i ≠ j) {y : Peer}
    {key nonce p ad : Str} {into' : Nat × Nat}
    (h : Standing ikm th i j opening x peer s root out into)
    (hinto : into = into' ∨ Before into into')
    (hapart : ∀ q, Before q out → (q.1 = into.1 → q.1 = 0) → q.1 = into'.1 → q.1 = 0)
    (hkey : KeyAt ikm th j key into') (hsealed : SealedBy opening x y (.seal key nonce p ad)) :
    ∃ call ∈ y.calls, .seal key nonce p ad ∈ call.events := by
  rcases hsealed with hmem | ⟨call, hcall, hmem⟩
  · -- the seal of the initial message is behind
    have hb := h.opening key nonce p ad hmem _ hkey
    rcases hinto with rfl | hlt
    · exact absurd hb (Before.irrefl _)
    · exact absurd (hb.trans hlt) (Before.irrefl _)
  · rcases List.mem_append.mp hcall with hcall | hcall
    · -- so are the receiver's own seals, in chains of their own
      obtain ⟨-, q, hq, hb, ha⟩ := h.calls call hcall key nonce p ad hmem
      obtain ⟨rfl, h0⟩ := hq.unique hi hj hkey
      exact absurd (h0 (hapart q hb ha rfl)) hij
    · exact ⟨call, hcall, hmem⟩

/-- A call of `HandleChatMessage`, whatever becomes of it. -/
theorem Standing.receive (hi : i ≠ 0) (hj : j ≠ 0) (hij : i ≠ j) {c : Crypto Str}
    (hc : c.Refines Crypto.symbolic) {y : Peer}
    (h : Standing ikm th i j opening x y.world.client.userId s root out into)
    (hinc : Increasing ikm th j x.accepted) (m : ChatMessage Str)
    (hm : m.fromUser = y.world.client.userId → Unforged opening c x y m)
    (hcalls : x'.calls = x.calls)
    (haccepted : x'.accepted = x.accepted ++
      output y.world.client.userId m (handleChatMessage c m x.world).1)
    (hworld : x'.world = (handleChatMessage c m x.world).2) :
    (∃ s' root' into',
      Standing ikm th i j opening x' y.world.client.userId s' root' out into') ∧
    Increasing ikm th j x'.accepted ∧ x'.world.client.userId = x.world.client.userId ∧
    ∀ a ∈ output y.world.client.userId m (handleChatMessage c m x.world).1,
      ∃ call ∈ y.calls, ∃ key nonce ad, .seal key nonce a.2 ad ∈ call.events ∧
        a.1.ciphertext = Symbolic.aeadSeal key nonce a.2 ad := by
  rcases handleChatMessage_cases c m x.world with ⟨e, hrun⟩ | ⟨s₀, hs₀, -, hrun⟩
  · rw [hrun] at haccepted hworld ⊢
    have hclient : x'.world.client = x.world.client := by rw [hworld]
    refine ⟨⟨s, root, into, h.moved hcalls haccepted (hclient ▸ h.session) h.places (Or.inl rfl)
      (fun q _ ha => ha) nofun⟩, ?_, by rw [hclient], nofun⟩
    rw [haccepted, output, List.append_nil]
    exact hinc
  rw [hrun] at haccepted hworld ⊢
  have huser : x'.world.client.userId = x.world.client.userId := by rw [hworld]; rfl
  by_cases hfrom : m.fromUser = y.world.client.userId
  swap
  · -- a message of somebody else: another session moves
    have hnone : ∀ r, output y.world.client.userId m r = [] := by
      rintro (e | p)
      · rfl
      · exact if_neg hfrom
    rw [hnone, List.append_nil] at haccepted
    have hl : x'.world.client.sessionsByPeer.lookup y.world.client.userId = some s := by
      rw [hworld]
      exact (Client.lookup_withSession_ne (Ne.symm hfrom) _).trans h.session
    have happend : x'.accepted = x.accepted ++ [] := by rw [haccepted, List.append_nil]
    refine ⟨⟨s, root, into, h.moved hcalls happend hl h.places (Or.inl rfl) (fun q _ ha => ha)
      nofun⟩, haccepted ▸ hinc, huser, ?_⟩
    rw [hnone]
    exact nofun
  rw [hfrom, h.session] at hs₀
  obtain rfl := Option.some.inj hs₀
  obtain ⟨root', into', hp, hinto, hapart⟩ := h.recvRatchet hc m
  have hl : ∀ s', (receiveChat c m s).2 = s' →
      x'.world.client.sessionsByPeer.lookup y.world.client.userId = some s' := by
    rintro s' rfl
    rw [hworld, ← hfrom]
    exact Client.lookup_withSession ..
  rcases receiveChat_cases c m s with ⟨e, hr⟩ | ⟨p, s₁, s', hratchet, hopens, hr⟩
  · rw [hr] at haccepted ⊢
    refine ⟨⟨_, root', into', h.moved hcalls haccepted (hl _ (by rw [hr])) hp hinto hapart
      nofun⟩, ?_, huser, nofun⟩
    rw [haccepted, output, List.append_nil]
    exact hinc
  · obtain ⟨-, ad, key, next, -, hder, hopen, rfl⟩ := hopens
    obtain ⟨rfl, rfl⟩ := Prod.mk.inj (deriveMessageKeyAndNextChain_refines hc hder)
    have hct := aeadOpen_refines hc hopen
    rw [hratchet] at hp
    obtain ⟨hkey, hp'⟩ := hp.opened s₁.recvCounter (s₁.recvCounter + 1)
    have hnext := before_next into'.1 into'.2
    have hout : output y.world.client.userId m (.ok p) = [(m, p)] := if_pos hfrom
    have hat : OpensAt ikm th j (m, p) into' := ⟨_, _, _, hct, hkey⟩
    rw [hr] at haccepted ⊢
    rw [hout] at haccepted ⊢
    have hinto' : into = (into'.1, into'.2 + 1) ∨ Before into (into'.1, into'.2 + 1) :=
      Or.inr (hinto.elim (fun he => he ▸ hnext) fun hb => hb.trans hnext)
    refine ⟨⟨_, root', _, h.moved hcalls haccepted (hl _ (by rw [hr])) hp' hinto' hapart ?_⟩,
      ?_, huser, ?_⟩
    · intro a ha
      rw [List.mem_singleton.mp ha]
      exact ⟨into', hat, hnext⟩
    · rw [haccepted, Increasing, List.pairwise_append]
      refine ⟨hinc, List.pairwise_singleton _ _, ?_⟩
      intro a ha a' ha' q q' hq hq'
      rw [List.mem_singleton.mp ha'] at hq'
      obtain ⟨q₁, hq₁, hb⟩ := h.accepted a ha
      rw [hq.unique hj hq₁, hq'.unique hj hat]
      exact hinto.elim (fun he => he ▸ hb) fun hlt => hb.trans hlt
    · intro a ha
      rw [List.mem_singleton.mp ha]
      obtain ⟨call, hcall, hmem⟩ := h.sealed_by_peer hi hj hij hinto hapart hkey
        (hm hfrom s s₁ h.session hratchet m.nonce p ad hct)
      exact ⟨call, hcall, _, _, _, hmem, hct⟩

end Standing

/-! ## 4. The invariant of both -/

/-- Everything accepted was sealed in a call of the peer. -/
def Matched (x y : Peer) : Prop :=
  ∀ a ∈ x.accepted, ∃ call ∈ y.calls, ∃ key nonce ad, .seal key nonce a.2 ad ∈ call.events ∧
    a.1.ciphertext = Symbolic.aeadSeal key nonce a.2 ad

/-- The invariant of the client `x`, whose peer is `y`. -/
structure Guarded (ikm th : Str) (i j : Nat) (opening : List (Event Str)) (x y : Peer) :
    Prop where
  standing : ∃ s root out into,
    Standing ikm th i j opening x y.world.client.userId s root out into
  ordered : Ordered ikm th i x.calls
  increasing : Increasing ikm th j x.accepted
  matched : Matched x y

section Guarded

variable {ikm th : Str} {i j : Nat} {opening : List (Event Str)} {x y x' : Peer}

/-- What a step of a client means for the peer: its id stays, its calls grow. -/
theorem Guarded.step (hi : i ≠ 0) (hj : j ≠ 0) (hij : i ≠ j)
    (h : Guarded ikm th i j opening x y) (hs : PeerStep opening x y x') :
    Guarded ikm th i j opening x' y ∧ x'.world.client.userId = x.world.client.userId ∧
      x.calls ⊆ x'.calls := by
  obtain ⟨s, root, out, into, hst⟩ := h.standing
  cases hs with
  | @send c hc server p events htrace =>
    let z : Peer := ⟨(sendMessage c server y.world.client.userId p x.world).2,
      x.calls ++ [⟨p, events⟩], x.accepted⟩
    obtain ⟨⟨s', root', out', h₁⟩, h₂, h₃⟩ := hst.send hi hc h.ordered server p htrace
      (rfl : z.calls = _) rfl rfl
    exact ⟨⟨⟨s', root', out', into, h₁⟩, h₂, h.increasing, h.matched⟩, h₃,
      List.subset_append_left _ _⟩
  | @receive c hc m hm =>
    let z : Peer := ⟨(handleChatMessage c m x.world).2, x.calls, x.accepted ++
      output y.world.client.userId m (handleChatMessage c m x.world).1⟩
    obtain ⟨⟨s', root', into', h₁⟩, h₂, h₃, h₄⟩ := hst.receive hi hj hij hc h.increasing m hm
      (rfl : z.calls = _) rfl rfl
    refine ⟨⟨⟨s', root', out, into', h₁⟩, h.ordered, h₂, fun a ha => ?_⟩, h₃, List.Subset.refl _⟩
    rcases List.mem_append.mp ha with ha | ha
    · exact h.matched a ha
    · exact h₄ a ha

theorem Guarded.peer_step (h : Guarded ikm th i j opening y x)
    (huser : x'.world.client.userId = x.world.client.userId) (hcalls : x.calls ⊆ x'.calls) :
    Guarded ikm th i j opening y x' := by
  refine ⟨by rw [huser]; exact h.standing, h.ordered, h.increasing, fun a ha => ?_⟩
  obtain ⟨call, hcall, hrest⟩ := h.matched a ha
  exact ⟨call, hcalls hcall, hrest⟩

/-- Elements with a match each, in the order of their matches, are matched by a subsequence. -/
theorem exists_sublist_forall₂ {α β : Type} {R : α → α → Prop} {T : β → β → Prop}
    {M : α → β → Prop} {xs : List α} {ys : List β} (hx : xs.Pairwise R) (hy : ys.Pairwise T)
    (hM : ∀ a ∈ xs, ∃ b ∈ ys, M a b)
    (hcompat : ∀ a ∈ xs, ∀ a' ∈ xs, ∀ b ∈ ys, ∀ b' ∈ ys, R a a' → M a b → M a' b' →
      b ≠ b' ∧ ¬ T b' b) :
    ∃ zs, zs.Sublist ys ∧ List.Forall₂ M xs zs := by
  induction ys generalizing xs with
  | nil =>
    rcases xs with _ | ⟨a, xs⟩
    · exact ⟨[], .slnil, .nil⟩
    · obtain ⟨b, hb, -⟩ := hM a (List.mem_cons_self ..)
      cases hb
  | cons b ys ih =>
    rcases xs with _ | ⟨a, xs⟩
    · exact ⟨[], List.nil_sublist _, .nil⟩
    obtain ⟨hRa, hx'⟩ := List.pairwise_cons.mp hx
    obtain ⟨hTb, hy'⟩ := List.pairwise_cons.mp hy
    by_cases hab : M a b
    · -- the head matches the head: the others have their matches in the tail
      have hM' : ∀ a' ∈ xs, ∃ b' ∈ ys, M a' b' := by
        intro a' ha'
        obtain ⟨b', hb', hm⟩ := hM a' (List.mem_cons_of_mem _ ha')
        rcases List.mem_cons.mp hb' with rfl | hb'
        · exact absurd rfl (hcompat a (List.mem_cons_self ..) a' (List.mem_cons_of_mem _ ha') b'
            (List.mem_cons_self ..) b' (List.mem_cons_self ..) (hRa a' ha') hab hm).1
        · exact ⟨b', hb', hm⟩
      obtain ⟨zs, hz, hf⟩ := ih hx' hy' hM' fun a ha a' ha' b hb b' hb' =>
        hcompat a (List.mem_cons_of_mem _ ha) a' (List.mem_cons_of_mem _ ha') b
          (List.mem_cons_of_mem _ hb) b' (List.mem_cons_of_mem _ hb')
      exact ⟨b :: zs, hz.cons_cons b, .cons hab hf⟩
    · -- nothing matches the head: what is after `a` matches something after a match of `a`
      have hM' : ∀ a' ∈ a :: xs, ∃ b' ∈ ys, M a' b' := by
        obtain ⟨b₁, hb₁, hm₁⟩ := hM a (List.mem_cons_self ..)
        have hb₁' : b₁ ∈ ys := (List.mem_cons.mp hb₁).resolve_left fun he => hab (he ▸ hm₁)
        intro a' ha'
        rcases List.mem_cons.mp ha' with rfl | ha'
        · exact ⟨b₁, hb₁', hm₁⟩
        · obtain ⟨b', hb', hm⟩ := hM a' (List.mem_cons_of_mem _ ha')
          rcases List.mem_cons.mp hb' with rfl | hb'
          · exact absurd (hTb b₁ hb₁') (hcompat a (List.mem_cons_self ..) a'
              (List.mem_cons_of_mem _ ha') b₁ hb₁ b' (List.mem_cons_self ..) (hRa a' ha') hm₁
              hm).2
          · exact ⟨b', hb', hm⟩
      obtain ⟨zs, hz, hf⟩ := ih hx hy' hM' fun a ha a' ha' b hb b' hb' =>
        hcompat a ha a' ha' b (List.mem_cons_of_mem _ hb) b' (List.mem_cons_of_mem _ hb')
      exact ⟨zs, hz.cons b, hf⟩

theorem Guarded.authentic (hj : j ≠ 0) (h : Guarded ikm th i j opening x y)
    (h' : Guarded ikm th j i opening y x) : Authentic x y := by
  obtain ⟨_, _, _, _, hst⟩ := h.standing
  obtain ⟨_, _, _, _, hst'⟩ := h'.standing
  -- a match is at one and the same position on both sides
  have hboth : ∀ a call, call ∈ y.calls → Matches a call →
      ∃ q, OpensAt ikm th j a q ∧ call.SealsAt ikm th j q := by
    rintro a call hcall ⟨-, key, nonce, ad, hmem, hct⟩
    obtain ⟨-, q, hk, -⟩ := hst'.calls call hcall key nonce _ ad hmem
    exact ⟨q, ⟨key, nonce, ad, hct, hk⟩, key, nonce, _, ad, hmem, hk⟩
  constructor
  · refine exists_sublist_forall₂ h.increasing h'.ordered.increasing ?_ ?_
    · intro a ha
      obtain ⟨call, hcall, key, nonce, ad, hmem, hct⟩ := h.matched a ha
      exact ⟨call, hcall, (hst'.calls call hcall key nonce _ ad hmem).1, key, nonce, ad, hmem,
        hct⟩
    · intro a ha a' ha' b hb b' hb' hR hm hm'
      obtain ⟨q, hq, hs⟩ := hboth a b hb hm
      obtain ⟨q', hq', hs'⟩ := hboth a' b' hb' hm'
      have hlt := hR q q' hq hq'
      refine ⟨?_, fun hT => ?_⟩
      · rintro rfl
        exact Before.irrefl q ((h'.ordered.single b hb q' q hs' hs) ▸ hlt)
      · exact Before.irrefl q (hlt.trans (hT q' q hs' hs))
  · rw [List.Nodup, List.pairwise_map]
    refine h.increasing.imp_of_mem fun {a a'} ha ha' hR he => ?_
    obtain ⟨q, hq, -⟩ := hst.accepted a ha
    obtain ⟨q', hq', -⟩ := hst.accepted a' ha'
    -- equal ciphertexts are opened at the same position
    obtain ⟨key, nonce, ad, hct, hk⟩ := hq
    obtain ⟨key', nonce', ad', hct', hk'⟩ := hq'
    have hlt := hR q q' ⟨key, nonce, ad, hct, hk⟩ ⟨key', nonce', ad', hct', hk'⟩
    have he' : a.1.ciphertext = a'.1.ciphertext := he
    obtain ⟨rfl, -⟩ := aeadSeal_inj (hct.symm.trans (he'.trans hct'))
    rw [(hk.unique hj hj hk').1] at hlt
    exact Before.irrefl _ hlt

end Guarded

/-- Both clients at the start of the session. -/
theorem Established.guarded {opening : List (Event Str)} {d : Duo Str}
    (h : Established Crypto.symbolic opening d) :
    ∃ ikm th, Guarded ikm th 1 2 opening ⟨d.a.world, [], []⟩ ⟨d.b.world, [], []⟩ ∧
      Guarded ikm th 2 1 opening ⟨d.b.world, [], []⟩ ⟨d.a.world, [], []⟩ := by
  obtain ⟨-, cl, peer, plaintext, bundle, run, r, he⟩ := h.spec Crypto.symbolic_lawful
  obtain ⟨hroot, hmk, hsend, hrecv⟩ := run.schedule (.refl _)
  generalize run.ikm = ikm at hroot hmk hsend hrecv
  generalize run.transcriptHash = th at hroot hmk hsend hrecv
  have hsent : ChainKeyAt ikm th 1 run.session.sendChainKey (0, 1) :=
    hsend ▸ .first (Chain.base.next 0)
  -- the only seal so far is the one of the initial message
  have hopening : ∀ {key n p ad : Str}, .seal key n p ad ∈ opening →
      KeyAt ikm th 1 key (0, 0) := by
    intro key n p ad hmem
    rw [he.opening_eq] at hmem
    simp only [SealedInitiation.events, List.mem_append, List.mem_cons, reduceCtorEq,
      Event.seal.injEq, List.not_mem_nil, or_false, false_or] at hmem
    obtain ⟨rfl, -⟩ := hmem
    exact ⟨_, _, hmk, .first .base⟩
  have hnone : ∀ {α : Type} {p : α → Prop}, ∀ a ∈ [], p a := fun {_} {p} => List.forall_mem_nil p
  refine ⟨ikm, th, ⟨⟨run.session, 0, (0, 1), (0, 0), he.session, ⟨?_, hsent, ?_, le_rfl, le_rfl,
    fun _ => rfl⟩, hnone, ?_, hnone⟩, ⟨.nil, hnone⟩, .nil, hnone⟩,
    ⟨⟨r, 0, (0, 0), (0, 1), he.session', ⟨?_, ?_, ?_, le_rfl, le_rfl, fun _ => rfl⟩, hnone, ?_,
    hnone⟩, ⟨.nil, hnone⟩, .nil, hnone⟩⟩
  · exact hroot ▸ .base
  · exact hrecv ▸ .first .base
  · intro key n p ad hmem q hq
    obtain ⟨rfl, h0⟩ := (hopening hmem).unique (by decide) (by decide) hq
    exact absurd (h0 rfl) (by decide)
  · rw [← he.mirrors.rootKey, hroot]
    exact .base
  · rw [← he.mirrors.recvChain, hrecv]
    exact .first .base
  · rw [← he.mirrors.sendChain]
    exact hsent
  · intro key n p ad hmem q hq
    obtain ⟨rfl, -⟩ := (hopening hmem).unique (by decide) (by decide) hq
    exact before_next 0 0

/-- **Chat authenticity and replay safety**, for the initiator and for the responder. -/
theorem chat_authenticity {opening : List (Event Str)} {d : Duo Str}
    (h₀ : Established Crypto.symbolic opening d) {a b : Peer}
    (h : Attacked opening ⟨d.a.world, [], []⟩ ⟨d.b.world, [], []⟩ a b) :
    Authentic a b ∧ Authentic b a := by
  obtain ⟨ikm, th, ha, hb⟩ := h₀.guarded
  have key : Guarded ikm th 1 2 opening a b ∧ Guarded ikm th 2 1 opening b a := by
    induction h with
    | refl => exact ⟨ha, hb⟩
    | left _ hs ih =>
      obtain ⟨h₁, h₂, h₃⟩ := ih.1.step (by decide) (by decide) (by decide) hs
      exact ⟨h₁, ih.2.peer_step h₂ h₃⟩
    | right _ hs ih =>
      obtain ⟨h₁, h₂, h₃⟩ := ih.2.step (by decide) (by decide) (by decide) hs
      exact ⟨ih.1.peer_step h₂ h₃, h₁⟩
  exact ⟨key.1.authentic (by decide) key.2, key.2.authentic (by decide) key.1⟩

/-! ## 5. Alice, Bob and a replay -/

theorem Sent.sealed {c : Crypto Str} (hc : c.Refines Crypto.symbolic) {userId peer p : Str}
    {s s' : SessionState Str} {m : ChatMessage Str} {events : List (Event Str)}
    (h : Sent c userId peer s p s' m events) :
    ∃ key nonce ad, .seal key nonce p ad ∈ events ∧
      m.ciphertext = Symbolic.aeadSeal key nonce p ad := by
  cases h with
  | plain hd run =>
    exact ⟨_, _, _, List.mem_cons_self .., aeadSeal_refines hc run.seal_ok⟩
  | ratchet step run =>
    exact ⟨_, _, _, List.mem_cons_self .., aeadSeal_refines hc run.seal_ok⟩

/-- A message that one of the two has sealed is not forged. -/
theorem Unforged.of_sealed {opening : List (Event Str)} {c : Crypto Str} {x y : Peer}
    {m : ChatMessage Str} {key nonce p ad : Str}
    (hct : m.ciphertext = Symbolic.aeadSeal key nonce p ad)
    (h : SealedBy opening x y (.seal key nonce p ad)) : Unforged opening c x y m := by
  intro s s₁ _ _ nonce' p' ad' hct'
  obtain ⟨hk, rfl, rfl, rfl⟩ := aeadSeal_inj (hct'.symm.trans hct)
  exact hk ▸ h

namespace AliceBob

/-- Alice after her first chat message. -/
@[irreducible] def alice₂ : World Str (List (Envelope Str)) :=
  (sendMessage Crypto.symbolic (mailbox none) duo.b.world.client.userId (text "m") duo.a.world).2

/-- Alice's first chat message. -/
@[irreducible] def chat : ChatMessage Str :=
  (alice₂.server.head?.bind Envelope.chat).get (by decide +kernel)

/-- Bob after it. -/
@[irreducible] def bob₂ : World Str (List (Envelope Str)) :=
  (handleChatMessage Crypto.symbolic chat duo.b.world).2

/-- Alice sends a message; Bob is handed it twice, and accepts it once. -/
theorem exists_replay : ∃ a b,
    Attacked opening ⟨duo.a.world, [], []⟩ ⟨duo.b.world, [], []⟩ a b ∧
      b.accepted = [(chat, text "m")] := by
  obtain ⟨hok, hserver, hfrom, hfirst, hsecond⟩ :
      (sendMessage Crypto.symbolic (mailbox none) duo.b.world.client.userId (text "m")
        duo.a.world).1 = .ok () ∧
      alice₂.server = [.fromChat chat] ∧
      chat.fromUser = (sendMessage Crypto.symbolic (mailbox none) duo.b.world.client.userId
        (text "m") duo.a.world).2.client.userId ∧
      (handleChatMessage Crypto.symbolic chat duo.b.world).1 = .ok (text "m") ∧
      (handleChatMessage Crypto.symbolic chat bob₂).1 =
        .error "replay or out-of-order message rejected" := by decide +kernel
  obtain ⟨s, s', m, events, -, hsent, -, -, htrace, henq⟩ := sendMessage_ok (Prod.ext hok rfl)
  -- the message in the mailbox is the one the call has sealed
  have hm : m = chat := by
    have h₁ : alice₂.server = [.fromChat m] := by
      unfold alice₂
      exact (Prod.mk.inj henq).2.symm
    simpa [Envelope.fromChat] using h₁.symm.trans hserver
  obtain ⟨key, nonce, ad, hmem, hct⟩ := hsent.sealed (.refl _)
  rw [hm] at hct
  let a₁ : Peer := ⟨(sendMessage Crypto.symbolic (mailbox none) duo.b.world.client.userId
    (text "m") duo.a.world).2, [⟨text "m", events⟩], []⟩
  have hunforged : ∀ b : Peer, Unforged opening Crypto.symbolic b a₁ chat := fun b =>
    .of_sealed hct (Or.inr ⟨⟨text "m", events⟩, List.mem_append_right _ (List.mem_cons_self ..),
      hmem⟩)
  have h₁ : Attacked opening ⟨duo.a.world, [], []⟩ ⟨duo.b.world, [], []⟩ a₁
      ⟨duo.b.world, [], []⟩ :=
    .left .refl (.send (.refl _) (mailbox none) (text "m") events htrace)
  have h₂ := h₁.right (.receive (.refl _) chat fun _ => hunforged _)
  have h₃ := h₂.right (.receive (.refl _) chat fun _ => hunforged _)
  refine ⟨_, _, h₃, ?_⟩
  unfold bob₂ at hsecond
  rw [hfirst, hsecond]
  simp [output, hfrom, a₁]

end AliceBob

theorem chat_authenticity_replay : ∃ a b,
    (Attacked AliceBob.opening ⟨AliceBob.duo.a.world, [], []⟩ ⟨AliceBob.duo.b.world, [], []⟩ a b ∧
      b.accepted = [(AliceBob.chat, text "m")]) ∧ Authentic a b ∧ Authentic b a := by
  obtain ⟨a, b, h, hgot⟩ := AliceBob.exists_replay
  exact ⟨a, b, ⟨h, hgot⟩, chat_authenticity AliceBob.established h⟩

end PqChat
