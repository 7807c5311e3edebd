/-
# Messages that never arrive

The messages of one client reach the other in any order, or not at all.  Inside a chain a gap is
noticed: the message number must be the next one.  A message that starts a new chain, though,
resets the receive counter, and `previous_chain_length` is not looked at.  So the receiver
follows a ratchet out of a chain it has not read to the end, unless ratchets only reach it when
it has: that is when its receive counter is `kRatchetInterval`.

Under that condition the receiver is IN STEP with the sender, somewhere in one of its chains
with all that was sent before accepted, or it is LOST: it has followed a ratchet whose turn had
not come, and accepts nothing any more.
-/
import PqChat.Session.Authenticity

set_option linter.unusedSectionVars false

namespace PqChat

open ByteString Symbolic

/-! ## 1. The system -/

/-- The sender `a`, whose mailbox keeps everything it has sent, the receiver `b`, and which of
the messages the receiver has accepted, by their place in the mailbox. -/
structure Line where
  a : World Str (List (Envelope Str))
  b : World Str (List (Envelope Str))
  accepted : List Nat

/-- A condition on a delivery. -/
abbrev Delivery := World Str (List (Envelope Str)) → ChatMessage Str → Prop

/-- Ratchets reach a client only when it has read its chain to the end: a message with a new
ratchet key of the peer is handed over only when the receive counter is `kRatchetInterval`. -/
def Delivery.inTurn : Delivery := fun w m =>
  ∀ s, w.client.sessionsByPeer.lookup m.fromUser = some s →
    ∀ key, m.header.senderRatchetPublicKey = some key → key ≠ s.remoteRatchetPublic →
    s.recvCounter = kRatchetInterval

/-- No condition. -/
def Delivery.any : Delivery := fun _ _ => True

/-- Both send, the sender is handed anything, and the receiver is handed the messages of the
sender in any order. -/
inductive Line.Step (D : Delivery) (l : Line) : Line → Prop
  | send (p : Str) : Step D l
    { l with a := (sendMessage Crypto.symbolic (mailbox none) l.b.client.userId p l.a).2 }
  | sendBack (server : ServerApi Str (List (Envelope Str))) (p : Str) : Step D l
    { l with b := (sendMessage Crypto.symbolic server l.a.client.userId p l.b).2 }
  | receive (m : ChatMessage Str) : Step D l
    { l with a := (handleChatMessage Crypto.symbolic m l.a).2 }
  | deliver (t : Nat) (m : ChatMessage Str) (h : l.a.server[t]? = some (.fromChat m))
    (hD : D l.b m) : Step D l
    { l with
      b := (handleChatMessage Crypto.symbolic m l.b).2
      accepted := l.accepted ++
        if (handleChatMessage Crypto.symbolic m l.b).1.isOk then [t] else [] }

abbrev Line.Run (D : Delivery) : Line → Line → Prop := Relation.ReflTransGen (Line.Step D)

/-- The two clients have never generated the same X25519 key. -/
def Line.Fresh (l : Line) : Prop :=
  (generatedKeys l.a.trace ++ generatedKeys l.b.trace).Nodup

/-- Whoever has accepted a message has accepted all that were sent before it. -/
def Line.NoGap (l : Line) : Prop := ∀ t ∈ l.accepted, ∀ t' < t, t' ∈ l.accepted

/-- Strict in-order reception, for messages of the initiator and of the responder. -/
def InOrder (D : Delivery) : Prop :=
  ∀ opening d, Established Crypto.symbolic opening d →
    (∀ l, Line.Run D ⟨d.a.world, d.b.world, []⟩ l → l.Fresh → l.NoGap) ∧
    ∀ l, Line.Run D ⟨d.b.world, d.a.world, []⟩ l → l.Fresh → l.NoGap

/-! ## 2. The chains of the sender -/

/-- A ratchet step of the sender: its new key, the key of the peer and the root key it was
taken with. -/
structure Link where
  name : Nat
  remote : Str
  root : Str

namespace Link

def dh (ℓ : Link) : Str := dhShared ℓ.name ℓ.remote

/-- The chain the step starts. -/
def base (ℓ : Link) : Str := ratchetChainOf ℓ.dh ℓ.root

/-- The root key after the step. -/
def next (ℓ : Link) : Str := ratchetRootOf ℓ.dh ℓ.root

/-- The key the step announces. -/
def pub (ℓ : Link) : Str := [.atom (.pub ℓ.name)]

end Link

/-- The root key `r'` comes after `r`. -/
def Passes (r r' : Str) : Prop := ∃ d, RootAt r d r'

theorem Passes.refl (r : Str) : Passes r r := ⟨0, .base⟩

theorem Passes.step {r r' : Str} (h : Passes r r') (dh : Str) : Passes r (ratchetRootOf dh r') :=
  h.elim fun d h => ⟨d + 1, h.step dh⟩

/-- The first key of chain number `k`. -/
inductive BaseAt (first : Str) (links : List Link) : Nat → Str → Prop
  | first : BaseAt first links 0 first
  | link {k : Nat} {ℓ : Link} (h : links[k]? = some ℓ) : BaseAt first links (k + 1) ℓ.base

section Chains

variable {ikm th : Str} {i : Nat} {links : List Link}

theorem BaseAt.append {first : Str} {k : Nat} {b : Str} (h : BaseAt first links k b)
    (ℓ : Link) : BaseAt first (links ++ [ℓ]) k b := by
  cases h with
  | first => exact .first
  | link h => exact .link (List.getElem?_append_left (List.getElem?_eq_some_iff.mp h).1 ▸ h)

theorem BaseAt.isBase {k : Nat} {b : Str} (h : BaseAt (handshakeKeyOf ikm th i) links k b) :
    IsBase b := by
  cases h with
  | first => exact isBase_handshake _ _ _
  | link _ => exact isBase_ratchet _ _

/-- The ratchet steps of a sender, one after the other on its root key. -/
structure Links (ikm th : Str) (links : List Link) : Prop where
  start : ∀ ℓ ∈ links, Passes (handshakeKeyOf ikm th 0) ℓ.root
  order : links.Pairwise fun ℓ ℓ' => Passes ℓ.next ℓ'.root

/-- A root key behind a ratchet step is not the one the step was taken with. -/
theorem not_passes_next {ℓ : Link} {r : Str} (h : Passes (handshakeKeyOf ikm th 0) ℓ.root)
    (hn : Passes ℓ.next r) : ℓ.root ≠ r := by
  rintro rfl
  obtain ⟨d, hd⟩ := h
  obtain ⟨d', hd'⟩ := hn
  have h₁ := hd.unique ((hd.step ℓ.dh).trans hd')
  omega

/-- **Different chains start with different keys.** -/
theorem BaseAt.unique (hl : Links ikm th links) (hi : i ≠ 0) {k k' : Nat} {b : Str}
    (h : BaseAt (handshakeKeyOf ikm th i) links k b)
    (h' : BaseAt (handshakeKeyOf ikm th i) links k' b) : k = k' := by
  have hne : ∀ {ℓ : Link}, handshakeKeyOf ikm th i ≠ ℓ.base := fun he => hi (hkdfBlock_inj he).1
  -- of two links the later one has a root key behind the earlier
  have hlt : ∀ {k k' : Nat} {ℓ ℓ' : Link}, k < k' → links[k]? = some ℓ → links[k']? = some ℓ' →
      ℓ.base ≠ ℓ'.base := by
    intro k k' ℓ ℓ' hkk hk hk' he
    obtain ⟨hk₁, rfl⟩ := List.getElem?_eq_some_iff.mp hk
    obtain ⟨hk₂, rfl⟩ := List.getElem?_eq_some_iff.mp hk'
    have hp := List.pairwise_iff_getElem.mp hl.order k k' hk₁ hk₂ hkk
    exact not_passes_next (hl.start _ (List.getElem_mem hk₁)) hp (ratchetChainOf_inj he).2
  generalize hb : b = b' at h'
  cases h with
  | first =>
    cases h' with
    | first => rfl
    | link _ => exact absurd hb hne
  | @link k ℓ hk =>
    cases h' with
    | first => exact absurd hb.symm hne
    | @link k' ℓ' hk' =>
      rcases Nat.lt_trichotomy k k' with hlt' | rfl | hlt'
      · exact absurd hb (hlt hlt' hk hk')
      · rfl
      · exact absurd hb.symm (hlt hlt' hk' hk)

end Chains

/-! ## 3. The sender -/

/-- A message in the mailbox: its place in the chains of the sender.  Only the first message of
a chain carries a ratchet key, the one of the step that started the chain. -/
structure Posted (first : Str) (links : List Link) (m : ChatMessage Str) (q : Nat × Nat) :
    Prop where
  key : ∃ b ck n nonce p ad, BaseAt first links q.1 b ∧ Chain b q.2 ck ∧
    m.ciphertext = Symbolic.aeadSeal (messageKeyOf ck n) nonce p ad
  place : q.2 < 10
  header : ∀ X, m.header.senderRatchetPublicKey = some X →
    ∃ k ℓ, q = (k + 1, 0) ∧ links[k]? = some ℓ ∧ X = ℓ.pub

theorem Posted.append {first : Str} {links : List Link} {m : ChatMessage Str} {q : Nat × Nat}
    (h : Posted first links m q) (ℓ : Link) : Posted first (links ++ [ℓ]) m q := by
  obtain ⟨b, ck, n, nonce, p, ad, hb, hrest⟩ := h.key
  refine ⟨⟨b, ck, n, nonce, p, ad, hb.append ℓ, hrest⟩, h.place, fun X hX => ?_⟩
  obtain ⟨k, ℓ', hq, hk, hp⟩ := h.header X hX
  exact ⟨k, ℓ', hq, List.getElem?_append_left (List.getElem?_eq_some_iff.mp hk).1 ▸ hk, hp⟩

/-- The sender: its ratchet steps so far, the places of its messages, and the place of the next
one. -/
structure Sender (ikm th : Str) (i : Nat) (pub₀ : Str) (a : World Str (List (Envelope Str)))
    (peer : Str) (links : List Link) (pos : List (Nat × Nat)) (s : SessionState Str)
    (out : Nat × Nat) : Prop where
  session : a.client.sessionsByPeer.lookup peer = some s
  steps : Links ikm th links
  root : Passes (handshakeKeyOf ikm th 0) s.rootKey ∧ ∀ ℓ ∈ links, Passes ℓ.next s.rootKey
  generated : pub₀ ∈ generatedKeys a.trace ∧ ∀ ℓ ∈ links, ℓ.pub ∈ generatedKeys a.trace
  distinct : (pub₀ :: links.map Link.pub).Nodup
  chain : ∃ b, BaseAt (handshakeKeyOf ikm th i) links out.1 b ∧ Chain b out.2 s.sendChainKey
  last : out.1 = links.length
  counter : s.sendCounter.toNat = out.2
  counter_le : out.2 ≤ 10
  posted : List.Forall₂ (fun e q => ∃ m, e = .fromChat m ∧ m.fromUser = a.client.userId ∧
    Posted (handshakeKeyOf ikm th i) links m q) a.server pos
  behind : ∀ q ∈ pos, Before q out
  increasing : pos.Pairwise Before

section Sender

variable {ikm th : Str} {i : Nat} {pub₀ peer : Str} {a a' : World Str (List (Envelope Str))}
  {links : List Link} {pos : List (Nat × Nat)} {s s' : SessionState Str} {out : Nat × Nat}

/-- The ratchet step of a send. -/
theorem Sender.ratchet (h : Sender ikm th i pub₀ a peer links pos s out)
    (step : SendRatchetRun Crypto.symbolic s)
    (hs : a'.client.sessionsByPeer.lookup peer = some step.session)
    (htrace : a'.trace = .x25519 step.newRatchet :: a.trace) (hserver : a'.server = a.server)
    (huser : a'.client.userId = a.client.userId) (hfresh : (generatedKeys a'.trace).Nodup) :
    let ℓ : Link := ⟨step.seed, s.remoteRatchetPublic, s.rootKey⟩
    Sender ikm th i pub₀ a' peer (links ++ [ℓ]) pos step.session (links.length + 1, 0) := by
  intro ℓ
  obtain ⟨hn, hdh, hck, hrk⟩ := step.schedule (.refl _)
  have hgen : generatedKeys a'.trace = ℓ.pub :: generatedKeys a.trace := by
    rw [htrace, hn]
    rfl
  have hnew : ℓ.pub ∉ generatedKeys a.trace := by
    rw [hgen, List.nodup_cons] at hfresh
    exact hfresh.1
  have hsub : ∀ {x}, x ∈ generatedKeys a.trace → x ∈ generatedKeys a'.trace := fun hx =>
    hgen ▸ List.mem_cons_of_mem _ hx
  have hroot : step.session.rootKey = ℓ.next := by
    rw [show step.session.rootKey = step.rootKey from rfl, hrk, hdh]
    rfl
  have hbase : step.session.sendChainKey = ℓ.base := by
    rw [show step.session.sendChainKey = step.chainKey from rfl, hck, hdh]
    rfl
  have hlast : (links ++ [ℓ])[links.length]? = some ℓ := by simp
  refine ⟨hs, ⟨?_, ?_⟩, ⟨?_, ?_⟩, ⟨hsub h.generated.1, ?_⟩, ?_, ⟨ℓ.base, .link hlast, ?_⟩, ?_,
    rfl, Nat.zero_le _, ?_, ?_, h.increasing⟩
  · intro ℓ' hℓ
    rcases List.mem_append.mp hℓ with hℓ | hℓ
    · exact h.steps.start ℓ' hℓ
    · rw [List.mem_singleton.mp hℓ]
      exact h.root.1
  · rw [List.pairwise_append]
    refine ⟨h.steps.order, List.pairwise_singleton _ _, fun ℓ₁ h₁ ℓ₂ h₂ => ?_⟩
    rw [List.mem_singleton.mp h₂]
    exact h.root.2 ℓ₁ h₁
  · rw [hroot]
    exact h.root.1.step _
  · intro ℓ' hℓ
    rw [hroot]
    rcases List.mem_append.mp hℓ with hℓ | hℓ
    · exact (h.root.2 ℓ' hℓ).step _
    · rw [List.mem_singleton.mp hℓ]
      exact .refl _
  · intro ℓ' hℓ
    rcases List.mem_append.mp hℓ with hℓ | hℓ
    · exact hsub (h.generated.2 ℓ' hℓ)
    · rw [List.mem_singleton.mp hℓ, hgen]
      exact List.mem_cons_self ..
  · rw [List.map_append, ← List.cons_append, List.nodup_append]
    refine ⟨h.distinct, List.nodup_singleton _, fun x hx y hy => ?_⟩
    simp only [List.map_cons, List.map_nil, List.mem_singleton] at hy
    subst hy
    rintro rfl
    rcases List.mem_cons.mp hx with he | hx
    · exact hnew (he ▸ h.generated.1)
    · obtain ⟨ℓ', hℓ, he⟩ := List.mem_map.mp hx
      exact hnew (he ▸ h.generated.2 ℓ' hℓ)
  · rw [hbase]
    exact .base
  · simp
  · rw [hserver, huser]
    exact h.posted.imp fun _ _ ⟨m, hm, hfrom, hp⟩ => ⟨m, hm, hfrom, hp.append ℓ⟩
  · intro q hq
    have h₁ := (h.behind q hq).le
    rw [h.last] at h₁
    exact Or.inl (Nat.lt_succ_of_le h₁)

/-- A sealed message is posted at the place the sender has reached. -/
theorem Sender.posts (h : Sender ikm th i pub₀ a peer links pos s out) {p : Str}
    {header : MessageHeader Str}
    (run : SealChatRun Crypto.symbolic a.client.userId peer s header p)
    (hlt : out.2 < 10) (hs : a'.client.sessionsByPeer.lookup peer = some run.session)
    (hsub : generatedKeys a.trace ⊆ generatedKeys a'.trace)
    (hserver : a'.server = a.server ++ [.fromChat run.message])
    (huser : a'.client.userId = a.client.userId)
    (hheader : ∀ X, header.senderRatchetPublicKey = some X →
      ∃ k ℓ, out = (k + 1, 0) ∧ links[k]? = some ℓ ∧ X = ℓ.pub) :
    Sender ikm th i pub₀ a' peer links (pos ++ [out]) run.session (out.1, out.2 + 1) := by
  obtain ⟨b, hb, hchain⟩ := h.chain
  have hstep := deriveMessageKeyAndNextChain_refines (.refl _) run.step_ok
  have hmk : run.messageKey = messageKeyOf s.sendChainKey s.sendCounter := congrArg Prod.fst hstep
  have hck : run.session.sendChainKey = nextChainOf s.sendChainKey s.sendCounter :=
    congrArg Prod.snd hstep
  have hnext := before_next out.1 out.2
  refine ⟨hs, h.steps, h.root, ⟨hsub h.generated.1, fun ℓ hℓ => hsub (h.generated.2 ℓ hℓ)⟩,
    h.distinct, ⟨b, hb, ?_⟩, h.last, ?_, hlt, ?_, ?_, ?_⟩
  · rw [hck]
    exact hchain.next _
  · have hc : s.sendCounter.toNat < 10 := by
      rw [h.counter]
      exact hlt
    exact (toNat_succ hc).trans (congrArg (· + 1) h.counter)
  · rw [hserver, huser]
    refine List.rel_append h.posted (.cons ⟨run.message, rfl, rfl, ⟨?_, hlt, hheader⟩⟩ .nil)
    exact ⟨b, _, _, _, _, _, hb, hchain, hmk ▸ aeadSeal_refines (.refl _) run.seal_ok⟩
  · intro q hq
    rcases List.mem_append.mp hq with hq | hq
    · exact (h.behind q hq).trans hnext
    · rw [List.mem_singleton.mp hq]
      exact hnext
  · rw [List.pairwise_append]
    refine ⟨h.increasing, List.pairwise_singleton _ _, fun x hx y hy => ?_⟩
    rw [List.mem_singleton.mp hy]
    exact h.behind x hx

/-- The same sender with another history, and a session that has not moved on the sending
side. -/
theorem Sender.of_session (h : Sender ikm th i pub₀ a peer links pos s out)
    (hs : a'.client.sessionsByPeer.lookup peer = some s') (hside : s.SameSendSide s')
    (hroot : ∀ r, Passes r s.rootKey → Passes r s'.rootKey)
    (hsub : generatedKeys a.trace ⊆ generatedKeys a'.trace) (hserver : a'.server = a.server)
    (huser : a'.client.userId = a.client.userId) :
    Sender ikm th i pub₀ a' peer links pos s' out where
  session := hs
  steps := h.steps
  root := ⟨hroot _ h.root.1, fun ℓ hℓ => hroot _ (h.root.2 ℓ hℓ)⟩
  generated := ⟨hsub h.generated.1, fun ℓ hℓ => hsub (h.generated.2 ℓ hℓ)⟩
  distinct := h.distinct
  chain := hside.sendChainKey ▸ h.chain
  last := h.last
  counter := hside.sendCounter ▸ h.counter
  counter_le := h.counter_le
  posted := by
    rw [hserver, huser]
    exact h.posted
  behind := h.behind
  increasing := h.increasing

/-- What a step of the sender can mean for the receiver: one more chain, started with a new
key, and one more message, after all the others. -/
structure Advance (a a' : World Str (List (Envelope Str))) (links links' : List Link)
    (pos pos' : List (Nat × Nat)) (out out' : Nat × Nat) : Prop where
  links_eq : links' = links ∨ ∃ ℓ, links' = links ++ [ℓ] ∧ ℓ.pub ∉ generatedKeys a.trace
  pos_eq : pos' = pos ∨ ∃ q, pos' = pos ++ [q] ∧ (out = q ∨ Before out q)
  out_le : out = out' ∨ Before out out'
  keys : generatedKeys a.trace ⊆ generatedKeys a'.trace

theorem Sender.send (h : Sender ikm th i pub₀ a peer links pos s out) (p : Str)
    (hfresh : (generatedKeys (sendMessage Crypto.symbolic (mailbox none) peer p a).2.trace).Nodup) :
    (sendMessage Crypto.symbolic (mailbox none) peer p a).2.client.userId = a.client.userId ∧
    ∃ links' pos' s' out',
      Sender ikm th i pub₀ (sendMessage Crypto.symbolic (mailbox none) peer p a).2 peer links' pos'
        s' out' ∧
      Advance a (sendMessage Crypto.symbolic (mailbox none) peer p a).2 links links' pos pos' out
        out' := by
  have hroot : Before out (links.length + 1, 0) := Or.inl (by rw [h.last]; exact Nat.lt_succ_self _)
  have hdue := ratchetDue_iff (s := s) (by rw [h.counter]; exact h.counter_le)
  rw [h.counter] at hdue
  rcases sendMessage_cases (c := Crypto.symbolic) h.session (mailbox none) p with
    ⟨e, w', s', es, hrun, hst, hstep⟩ | ⟨w₁, s', m, es, hsent, hstep, hrun⟩
  · rw [hrun] at hfresh ⊢
    have hsub : generatedKeys a.trace ⊆ generatedKeys w'.trace :=
      (generatedKeys_suffix ⟨es, hstep.trace.symm⟩).subset
    refine ⟨hstep.userId, ?_⟩
    cases hst with
    | idle hes =>
      exact ⟨links, pos, s, out, h.of_session hstep.session ⟨rfl, rfl, rfl, rfl, rfl⟩ (fun _ => id)
        hsub hstep.server hstep.userId, Or.inl rfl, Or.inl rfl, Or.inl rfl, hsub⟩
    | ratcheted step =>
      have hgen : generatedKeys w'.trace = step.newRatchet.publicKey :: generatedKeys a.trace := by
        rw [hstep.trace]
        rfl
      have hnew : step.newRatchet.publicKey ∉ generatedKeys a.trace := by
        rw [hgen] at hfresh
        exact (List.nodup_cons.mp hfresh).1
      rw [(step.schedule (.refl _)).1] at hnew
      exact ⟨_, pos, _, _, h.ratchet step hstep.session hstep.trace hstep.server
        hstep.userId hfresh,
        Or.inr ⟨_, rfl, hnew⟩, Or.inl rfl, Or.inr hroot, hsub⟩
  · obtain ⟨hclient, htrace, hserver⟩ := enqueueAndSave_frame (mailbox none) peer (.fromChat m) w₁
    rw [hrun] at hfresh ⊢
    generalize (enqueueAndSave (mailbox none) peer (.fromChat m) w₁).2 = w' at *
    have hserver' : w'.server = a.server ++ [.fromChat m] := by
      rw [hserver, ← hstep.server]
      rfl
    have htrace' : w'.trace = es ++ a.trace := htrace.trans hstep.trace
    have hsub : generatedKeys a.trace ⊆ generatedKeys w'.trace :=
      (generatedKeys_suffix ⟨es, htrace'.symm⟩).subset
    have hs' : w'.client.sessionsByPeer.lookup peer = some s' := hclient ▸ hstep.session
    have huser : w'.client.userId = a.client.userId := by rw [hclient, hstep.userId]
    refine ⟨huser, ?_⟩
    cases hsent with
    | plain hd run =>
      have hlt : out.2 < 10 := lt_of_le_of_ne h.counter_le fun he => hd (hdue.mpr he)
      exact ⟨links, _, _, _, h.posts run hlt hs' hsub hserver' huser nofun, Or.inl rfl,
        Or.inr ⟨out, rfl, Or.inl rfl⟩, Or.inr (before_next _ _), hsub⟩
    | ratchet step run =>
      -- between the two halves of the call
      let a₁ : World Str (List (Envelope Str)) := { a with
        client := a.client.withSession peer step.session
        trace := .x25519 step.newRatchet :: a.trace }
      have hgen : generatedKeys w'.trace = step.newRatchet.publicKey :: generatedKeys a.trace := by
        rw [htrace']
        rfl
      have hfresh₁ : (generatedKeys a₁.trace).Nodup := by
        rw [hgen] at hfresh
        exact hfresh
      have hnew : step.newRatchet.publicKey ∉ generatedKeys a.trace :=
        (List.nodup_cons.mp hfresh₁).1
      rw [(step.schedule (.refl _)).1] at hnew
      have hs₁ : a₁.client.sessionsByPeer.lookup peer = some step.session :=
        Client.lookup_withSession ..
      have h₁ := h.ratchet step hs₁ rfl rfl rfl hfresh₁
      have hsub₁ : generatedKeys a₁.trace ⊆ generatedKeys w'.trace := by
        rw [hgen]
        exact List.Subset.refl _
      refine ⟨_, _, _, _, h₁.posts run (Nat.succ_pos 9) hs' hsub₁ hserver' huser ?_,
        Or.inr ⟨_, rfl, hnew⟩, Or.inr ⟨_, rfl, Or.inr hroot⟩,
        Or.inr (hroot.trans (before_next _ _)), hsub⟩
      intro X hX
      obtain rfl := Option.some.inj hX
      refine ⟨links.length, ⟨step.seed, s.remoteRatchetPublic, s.rootKey⟩, rfl, by simp, ?_⟩
      rw [(step.schedule (.refl _)).1]
      rfl

/-- Being handed a message, whatever it is, does not change what the sender has sent. -/
theorem Sender.receive (h : Sender ikm th i pub₀ a peer links pos s out) (m : ChatMessage Str) :
    (handleChatMessage Crypto.symbolic m a).2.client.userId = a.client.userId ∧
    generatedKeys (handleChatMessage Crypto.symbolic m a).2.trace = generatedKeys a.trace ∧
    ∃ s', Sender ikm th i pub₀ (handleChatMessage Crypto.symbolic m a).2 peer links pos s' out := by
  have hsame : s.SameSendSide s := ⟨rfl, rfl, rfl, rfl, rfl⟩
  rcases handleChatMessage_cases Crypto.symbolic m a with ⟨e, hrun⟩ | ⟨s₀, hs₀, -, hrun⟩
  · rw [hrun]
    exact ⟨rfl, rfl, s, h.of_session h.session hsame (fun _ => id) (List.Subset.refl _) rfl rfl⟩
  · rw [hrun]
    refine ⟨rfl, rfl, ?_⟩
    by_cases hfrom : m.fromUser = peer
    · subst hfrom
      rw [h.session] at hs₀
      obtain rfl := Option.some.inj hs₀
      refine ⟨_, h.of_session (Client.lookup_withSession ..) (receiveChat_frame _ m s).1 ?_
        (List.Subset.refl _) rfl rfl⟩
      -- the root key is as the ratchet step on the header has left it
      have hroot : (receiveChat Crypto.symbolic m s).2.rootKey =
          (recvRatchet Crypto.symbolic m s).2.rootKey := by
        rcases receiveChat_cases Crypto.symbolic m s with ⟨e, hr⟩ | ⟨p, s₁, s', hr₁, ho, hr⟩
        · rw [hr]
        · obtain ⟨-, ad, key, next, -, -, -, rfl⟩ := ho
          rw [hr, hr₁]
      intro r hp
      rw [hroot]
      rcases recvRatchet_cases Crypto.symbolic m s with hr | ⟨new, dh, ck, rk, -, -, -, hmix, hr⟩
      · rw [hr]
        exact hp
      · obtain ⟨-, rfl⟩ := Prod.mk.inj (deriveRatchetRootAndChain_refines (.refl _) hmix)
        rw [hr]
        exact hp.step dh
    · have hl : (a.client.withSession m.fromUser (receiveChat Crypto.symbolic m s₀).2
          ).sessionsByPeer.lookup _ = _ :=
        (Client.lookup_withSession_ne (Ne.symm hfrom) _).trans h.session
      exact ⟨s, h.of_session hl hsame (fun _ => id) (List.Subset.refl _) rfl rfl⟩

end Sender

/-! ## 4. The receiver -/

/-- `r` is reached from `r₀` by ratchet steps whose shared secrets all satisfy `D`. -/
inductive RootVia (r₀ : Str) (D : Str → Prop) : Str → Prop
  | base : RootVia r₀ D r₀
  | step {r dh : Str} (h : RootVia r₀ D r) (hd : D dh) : RootVia r₀ D (ratchetRootOf dh r)

section RootVia

variable {ikm th : Str} {D D' : Str → Prop} {r : Str}

theorem RootVia.mono {r₀ : Str} (hD : ∀ dh, D dh → D' dh) (h : RootVia r₀ D r) :
    RootVia r₀ D' r := by
  induction h with
  | base => exact .base
  | step _ hd ih => exact ih.step (hD _ hd)

theorem RootVia.step_inv {dh : Str} (h : RootVia (handshakeKeyOf ikm th 0) D (ratchetRootOf dh r)) :
    D dh ∧ RootVia (handshakeKeyOf ikm th 0) D r := by
  generalize hk : ratchetRootOf dh r = k at h
  cases h with
  | base => exact absurd (hkdfBlock_inj hk).1 (by decide)
  | step h hd =>
    obtain ⟨rfl, rfl⟩ := ratchetRootOf_inj hk
    exact ⟨hd, h⟩

/-- Every step a root key has passed is one of the steps it was reached by. -/
theorem RootVia.of_passes {dh r' : Str} (h : RootVia (handshakeKeyOf ikm th 0) D r)
    (hp : Passes (ratchetRootOf dh r') r) : D dh := by
  obtain ⟨d, hp⟩ := hp
  induction hp with
  | base => exact h.step_inv.1
  | step _ _ ih => exact ih h.step_inv.2

end RootVia

/-- A shared secret of one of the keys `xs` with one of the keys `ps`. -/
def Known (xs ps : List Str) (dh : Str) : Prop :=
  ∃ x p, dh = dhShared x p ∧ [.atom (.pub x)] ∈ xs ∧ p ∈ ps

theorem Known.mono {xs xs' ps ps' : List Str} {dh : Str} (hx : xs ⊆ xs') (hp : ps ⊆ ps')
    (h : Known xs ps dh) : Known xs' ps' dh := by
  obtain ⟨x, p, rfl, h₁, h₂⟩ := h
  exact ⟨x, p, rfl, hx h₁, hp h₂⟩

/-- A secret the receiver has computed is the one of a step of the sender only if it was
computed with the key the step announces. -/
theorem Known.announced {xs ys ps : List Str} {ℓ : Link} (hxy : xs.Disjoint ys)
    (hℓ : ℓ.pub ∈ ys) (h : Known xs ps ℓ.dh) : ℓ.pub ∈ ps := by
  obtain ⟨x, p, he, hx, hp⟩ := h
  rcases dhShared_inj he with ⟨hn, -⟩ | ⟨-, rfl⟩
  · exact absurd hℓ (hxy (by rw [Link.pub, hn]; exact hx))
  · exact hp

section Receiver

variable (ikm th : Str) (i : Nat) (pub₀ : Str) (links : List Link)

/-- The keys the sender has announced. -/
def announced : List Str := pub₀ :: links.map Link.pub

/-- The receiver is at place `bound` of the sender's chains: in chain `bound.1`, whose key it
was told last, with `bound.2` messages of it read. -/
structure InStep (keys : List Str) (r : SessionState Str) (bound : Nat × Nat) : Prop where
  chain : ∃ b, BaseAt (handshakeKeyOf ikm th i) links bound.1 b ∧ Chain b bound.2 r.recvChainKey
  counter : r.recvCounter.toNat = bound.2
  counter_le : bound.2 ≤ 10
  remote : (announced pub₀ links)[bound.1]? = some r.remoteRatchetPublic
  root : RootVia (handshakeKeyOf ikm th 0) (Known keys ((announced pub₀ links).take (bound.1 + 1)))
    r.rootKey
  passed : ∀ k < bound.1, ∀ ℓ, links[k]? = some ℓ → Passes ℓ.next r.rootKey

/-- The receiver has followed a ratchet into a chain that is none of the sender's. -/
structure Lost (keys keys' : List Str) (r : SessionState Str) : Prop where
  counter : r.recvCounter = 0
  chain : ∃ dh root, r.recvChainKey = ratchetChainOf dh root ∧ Known keys keys' dh
  none : ∀ k, ¬ BaseAt (handshakeKeyOf ikm th i) links k r.recvChainKey

/-- What the receiver relies on: the steps of the sender, with keys that are all different and
none of them its own. -/
structure Fair (keys keys' : List Str) : Prop where
  steps : Links ikm th links
  notRoot : i ≠ 0
  distinct : (announced pub₀ links).Nodup
  apart : keys.Disjoint keys'
  generated : ∀ ℓ ∈ links, ℓ.pub ∈ keys'

/-- The receiver: it has accepted exactly the messages before the place `bound`. -/
structure Receiver (keys keys' : List Str) (pos : List (Nat × Nat)) (out : Nat × Nat)
    (accepted : List Nat) (r : SessionState Str) (bound : Nat × Nat) : Prop where
  localKey : ∃ x, r.localRatchetKey = Ideal.dhPair x ∧ [.atom (.pub x)] ∈ keys
  accepted_iff : ∀ t q, pos[t]? = some q → (t ∈ accepted ↔ Before q bound)
  accepted_lt : ∀ t ∈ accepted, t < pos.length
  le_out : bound = out ∨ Before bound out
  state : InStep ikm th i pub₀ links keys r bound ∨ Lost ikm th i links keys keys' r

variable {ikm th i pub₀ links} {keys keys' xs xs' : List Str} {pos : List (Nat × Nat)}
  {out out' bound : Nat × Nat} {accepted : List Nat} {r r' : SessionState Str}

theorem announced_append (ℓ : Link) :
    announced pub₀ (links ++ [ℓ]) = announced pub₀ links ++ [ℓ.pub] := by
  rw [announced, List.map_append]
  rfl

theorem InStep.lt (h : InStep ikm th i pub₀ links keys r bound) :
    bound.1 < (announced pub₀ links).length := (List.getElem?_eq_some_iff.mp h.remote).1

/-- A new chain of the sender does not concern a receiver that is in step. -/
theorem InStep.append (h : InStep ikm th i pub₀ links keys r bound) (ℓ : Link) :
    InStep ikm th i pub₀ (links ++ [ℓ]) keys r bound := by
  obtain ⟨b, hb, hchain⟩ := h.chain
  have hlt := h.lt
  refine ⟨⟨b, hb.append ℓ, hchain⟩, h.counter, h.counter_le, ?_, ?_, fun k hk ℓ' hℓ => ?_⟩
  · rw [announced_append, List.getElem?_append_left hlt]
    exact h.remote
  · rw [announced_append, List.take_append_of_le_length hlt]
    exact h.root
  · have hlen : k < links.length := by
      simp only [announced, List.length_cons, List.length_map] at hlt
      omega
    rw [List.getElem?_append_left hlen] at hℓ
    exact h.passed k hk ℓ' hℓ

/-- A lost receiver stays lost: the new chain of the sender starts from a key the receiver had
not been told when it left. -/
theorem Lost.append (h : Lost ikm th i links xs keys r) {ℓ : Link} (hxy : xs.Disjoint keys')
    (hnew : ℓ.pub ∉ keys) (hℓ : ℓ.pub ∈ keys') : Lost ikm th i (links ++ [ℓ]) xs keys r := by
  refine ⟨h.counter, h.chain, fun k hk => ?_⟩
  generalize hck : r.recvChainKey = ck at hk
  cases hk with
  | first => exact h.none 0 (hck ▸ .first)
  | @link k ℓ' hk =>
    rcases Nat.lt_trichotomy k links.length with hlt | rfl | hlt
    · rw [List.getElem?_append_left hlt] at hk
      exact h.none (k + 1) (hck ▸ .link hk)
    · obtain rfl : ℓ = ℓ' := by simpa using hk
      obtain ⟨dh, root, he, hknown⟩ := h.chain
      obtain ⟨hdh, -⟩ := ratchetChainOf_inj (he.symm.trans hck)
      exact hnew (Known.announced hxy hℓ (hdh ▸ hknown))
    · rw [List.getElem?_eq_none (by simp; omega)] at hk
      cases hk

/-- The sender moves on. -/
theorem Receiver.advance {a a' : World Str (List (Envelope Str))} {links' : List Link}
    {pos' : List (Nat × Nat)}
    (h : Receiver ikm th i pub₀ links xs (generatedKeys a.trace) pos out accepted r bound)
    (hadv : Advance a a' links links' pos pos' out out')
    (hxy : xs.Disjoint (generatedKeys a'.trace))
    (hgen : ∀ ℓ ∈ links', ℓ.pub ∈ generatedKeys a'.trace) :
    Receiver ikm th i pub₀ links' xs (generatedKeys a'.trace) pos' out' accepted r bound := by
  have hle : ∀ {q}, (out = q ∨ Before out q) → ¬ Before q bound := by
    intro q hq hb
    rcases h.le_out with rfl | h₁ <;> rcases hq with rfl | h₂
    · exact Before.irrefl _ hb
    · exact Before.irrefl _ (hb.trans h₂)
    · exact Before.irrefl _ (hb.trans h₁)
    · exact Before.irrefl _ ((hb.trans h₁).trans h₂)
  refine ⟨h.localKey, ?_, ?_, ?_, ?_⟩
  · rcases hadv.pos_eq with rfl | ⟨q, rfl, hq⟩
    · exact h.accepted_iff
    · intro t q' ht
      rcases Nat.lt_trichotomy t pos.length with hlt | rfl | hlt
      · rw [List.getElem?_append_left hlt] at ht
        exact h.accepted_iff t q' ht
      · obtain rfl : q = q' := by simpa using ht
        exact ⟨fun hmem => absurd (h.accepted_lt _ hmem) (lt_irrefl _),
          fun hb => absurd hb (hle hq)⟩
      · rw [List.getElem?_eq_none (by simp; omega)] at ht
        cases ht
  · intro t ht
    have hlt := h.accepted_lt t ht
    rcases hadv.pos_eq with rfl | ⟨q, rfl, -⟩
    · exact hlt
    · rw [List.length_append]
      omega
  · rcases h.le_out with rfl | h₁ <;> rcases hadv.out_le with rfl | h₂
    · exact Or.inl rfl
    · exact Or.inr h₂
    · exact Or.inr h₁
    · exact Or.inr (h₁.trans h₂)
  · have hwiden : ∀ {ls}, Lost ikm th i ls xs (generatedKeys a.trace) r →
        Lost ikm th i ls xs (generatedKeys a'.trace) r := by
      intro ls hl
      obtain ⟨dh, root, he, hk⟩ := hl.chain
      exact ⟨hl.counter, ⟨dh, root, he, hk.mono (List.Subset.refl _) hadv.keys⟩, hl.none⟩
    rcases hadv.links_eq with rfl | ⟨ℓ, rfl, hnew⟩
    · exact h.state.imp_right hwiden
    · exact h.state.imp (fun hs => hs.append ℓ) fun hl => hwiden
        (hl.append hxy hnew (hgen ℓ (List.mem_append_right _ (List.mem_singleton_self ℓ))))

/-- What a send of the receiver can do to its session. -/
structure Reply (xs : List Str) (r r' : SessionState Str) : Prop where
  chain : r'.recvChainKey = r.recvChainKey
  counter : r'.recvCounter = r.recvCounter
  remote : r'.remoteRatchetPublic = r.remoteRatchetPublic
  keys : (r'.localRatchetKey = r.localRatchetKey ∧ r'.rootKey = r.rootKey) ∨
    ∃ x, [.atom (.pub x)] ∈ xs ∧ r'.localRatchetKey = Ideal.dhPair x ∧
      r'.rootKey = ratchetRootOf (dhShared x r.remoteRatchetPublic) r.rootKey

theorem Receiver.reply
    (h : Receiver ikm th i pub₀ links xs keys pos out accepted r bound) (hr : Reply xs' r r')
    (hsub : xs ⊆ xs') : Receiver ikm th i pub₀ links xs' keys pos out accepted r' bound := by
  refine ⟨?_, h.accepted_iff, h.accepted_lt, h.le_out, ?_⟩
  · obtain ⟨x, hx, hmem⟩ := h.localKey
    rcases hr.keys with ⟨hl, -⟩ | ⟨x', hmem', hl, -⟩
    · exact ⟨x, hl.trans hx, hsub hmem⟩
    · exact ⟨x', hl, hmem'⟩
  · refine h.state.imp (fun hs => ?_) fun hl => ?_
    · have hmono : ∀ dh, Known xs ((announced pub₀ links).take (bound.1 + 1)) dh →
          Known xs' ((announced pub₀ links).take (bound.1 + 1)) dh := fun _ hk =>
        hk.mono hsub (List.Subset.refl _)
      refine ⟨hr.chain ▸ hs.chain, hr.counter ▸ hs.counter, hs.counter_le, hr.remote ▸ hs.remote,
        ?_, fun k hk ℓ hℓ => ?_⟩
      · rcases hr.keys with ⟨-, hroot⟩ | ⟨x, hmem, -, hroot⟩
        · rw [hroot]
          exact hs.root.mono hmono
        · rw [hroot]
          refine (hs.root.mono hmono).step ⟨x, _, rfl, hmem, ?_⟩
          obtain ⟨hlt, he⟩ := List.getElem?_eq_some_iff.mp hs.remote
          rw [← he, List.mem_take_iff_getElem]
          exact ⟨bound.1, by omega, rfl⟩
      · have hp := hs.passed k hk ℓ hℓ
        rcases hr.keys with ⟨-, hroot⟩ | ⟨x, -, -, hroot⟩
        · exact hroot ▸ hp
        · exact hroot ▸ hp.step _
    · obtain ⟨dh, root, he, hk⟩ := hl.chain
      exact ⟨hr.counter.trans hl.counter,
        ⟨dh, root, hr.chain.trans he, hk.mono hsub (List.Subset.refl _)⟩,
        hr.chain ▸ hl.none⟩

/-- **Out of a chain of the sender, the only chain of the sender a ratchet leads into is the
next one.** -/
theorem InStep.base_next (h : InStep ikm th i pub₀ links xs r bound)
    (hf : Fair ikm th i pub₀ links xs keys) {x : Nat} {newRemote : Str}
    {k : Nat} (hb : BaseAt (handshakeKeyOf ikm th i) links k
      (ratchetChainOf (dhShared x newRemote) r.rootKey)) : k = bound.1 + 1 := by
  generalize hck : ratchetChainOf (dhShared x newRemote) r.rootKey = ck at hb
  cases hb with
  | first => exact absurd (hkdfBlock_inj hck).1.symm hf.notRoot
  | @link k ℓ hk =>
    obtain ⟨hdh, hroot⟩ := ratchetChainOf_inj hck
    obtain ⟨hlen, he⟩ := List.getElem?_eq_some_iff.mp hk
    rcases Nat.lt_trichotomy k bound.1 with hlt | rfl | hlt
    · -- a chain of the past: the root key has passed its step
      have hp := h.passed k hlt ℓ hk
      exact absurd hroot.symm
        (not_passes_next (hf.steps.start ℓ (he ▸ List.getElem_mem hlen)) hp)
    · rfl
    · -- a later chain: then the root key has passed the step into the next one, and the
      -- receiver has been told of it
      have hlen' : bound.1 < links.length := hlt.trans hlen
      have hord := List.pairwise_iff_getElem.mp hf.steps.order bound.1 k hlen' hlen hlt
      rw [he, ← hroot] at hord
      have hknown := Known.announced hf.apart
        (hf.generated _ (List.getElem_mem hlen')) (h.root.of_passes hord)
      obtain ⟨n, hn, hn'⟩ := List.mem_take_iff_getElem.mp hknown
      have hlen₁ : bound.1 + 1 < (announced pub₀ links).length := by
        simp only [announced, List.length_cons, List.length_map]
        omega
      have hpub : (announced pub₀ links)[bound.1 + 1] = (links[bound.1]).pub := by
        simp only [announced, List.getElem_cons_succ, List.getElem_map]
      have := (List.Nodup.getElem_inj_iff hf.distinct).mp (hn'.trans hpub.symm)
      omega

/-- The ratchet step of a delivery, taken at the end of a chain. -/
theorem Receiver.follow (h : Receiver ikm th i pub₀ links xs keys pos out accepted r bound)
    (hf : Fair ikm th i pub₀ links xs keys) (hlast : out.1 = links.length)
    (hplace : ∀ q ∈ pos, q.2 < 10) {x : Nat} {newRemote : Str}
    (hx : r.localRatchetKey = Ideal.dhPair x) (hxs : [.atom (.pub x)] ∈ xs)
    (hX : newRemote ∈ keys) (hcount : r.recvCounter = kRatchetInterval) :
    ∃ bound', Receiver ikm th i pub₀ links xs keys pos out accepted
      (r.ratcheted (ratchetChainOf (dhShared x newRemote) r.rootKey)
        (ratchetRootOf (dhShared x newRemote) r.rootKey) newRemote) bound' := by
  have hs : InStep ikm th i pub₀ links xs r bound := by
    refine h.state.resolve_right fun hl => ?_
    rw [hl.counter] at hcount
    exact absurd hcount (by decide)
  have h10 : bound.2 = 10 := by
    rw [← hs.counter, hcount]
    rfl
  by_cases hbase : ∃ k, BaseAt (handshakeKeyOf ikm th i) links k
      (ratchetChainOf (dhShared x newRemote) r.rootKey)
  swap
  · exact ⟨bound, ⟨x, hx, hxs⟩, h.accepted_iff, h.accepted_lt, h.le_out, Or.inr
      ⟨rfl, ⟨_, _, rfl, x, _, rfl, hxs, hX⟩, fun k hk => hbase ⟨k, hk⟩⟩⟩
  obtain ⟨k, hb⟩ := hbase
  obtain rfl := hs.base_next hf hb
  generalize hck : ratchetChainOf (dhShared x newRemote) r.rootKey = ck at hb ⊢
  cases hb with
  | @link _ ℓ hℓ =>
    obtain ⟨hdh, hroot⟩ := ratchetChainOf_inj hck
    obtain ⟨hlen, he⟩ := List.getElem?_eq_some_iff.mp hℓ
    have hmem : ℓ ∈ links := he ▸ List.getElem_mem hlen
    have hnew : ℓ.pub = newRemote := by
      have hk : Known xs [newRemote] ℓ.dh :=
        ⟨x, newRemote, hdh.symm, hxs, List.mem_singleton_self _⟩
      exact List.mem_singleton.mp (hk.announced hf.apart (hf.generated ℓ hmem))
    have hnext : (announced pub₀ links)[bound.1 + 1]? = some newRemote := by
      simp only [announced, List.getElem?_cons_succ, List.getElem?_map, hℓ, Option.map_some, hnew]
    refine ⟨(bound.1 + 1, 0), ⟨x, hx, hxs⟩, fun t q ht => ?_, h.accepted_lt, ?_, Or.inl
      ⟨⟨ℓ.base, .link hℓ, .base⟩, rfl, Nat.zero_le _, hnext, ?_, fun j hj ℓ' hℓ' => ?_⟩⟩
    · -- a chain has places below ten only
      have hq := hplace q (List.mem_of_getElem? ht)
      rw [h.accepted_iff t q ht]
      unfold Before
      dsimp only
      omega
    · unfold Before
      rw [Prod.ext_iff]
      dsimp only
      omega
    · refine RootVia.step (hs.root.mono fun _ hk => hk.mono (List.Subset.refl _) ?_)
        ⟨x, _, rfl, hxs, ?_⟩
      · obtain ⟨hlt, he'⟩ := List.getElem?_eq_some_iff.mp hnext
        rw [← he', List.mem_take_iff_getElem]
        exact ⟨bound.1 + 1, by omega, rfl⟩
      · exact (List.take_prefix_take_left (Nat.le_succ _)).subset
    · rcases Nat.lt_succ_iff_lt_or_eq.mp hj with hj | rfl
      · exact (hs.passed j hj ℓ' hℓ').step _
      · obtain rfl : ℓ = ℓ' := Option.some.inj (hℓ.symm.trans hℓ')
        have : ℓ.next = ratchetRootOf (dhShared x newRemote) r.rootKey := by
          rw [hdh, hroot]
          rfl
        exact this ▸ .refl _

/-- What a delivery that is accepted means: it was the turn of that message. -/
theorem Receiver.opens (h : Receiver ikm th i pub₀ links xs keys pos out accepted r bound)
    (hf : Fair ikm th i pub₀ links xs keys) (hinc : pos.Pairwise Before) {t : Nat}
    {q : Nat × Nat} (ht : pos[t]? = some q) (hq : Before q out) {m : ChatMessage Str} {p : Str}
    (hposted : Posted (handshakeKeyOf ikm th i) links m q) (ho : Opens Crypto.symbolic m r p r') :
    Receiver ikm th i pub₀ links xs keys pos out (accepted ++ [t]) r' (bound.1, bound.2 + 1) := by
  obtain ⟨-, ad, key, next, -, hstep, hopen, rfl⟩ := ho
  obtain ⟨rfl, rfl⟩ := Prod.mk.inj (deriveMessageKeyAndNextChain_refines (.refl _) hstep)
  obtain ⟨b, ck, n, nonce, p', ad', hb, hchain, hct⟩ := hposted.key
  obtain ⟨hkey, -⟩ := aeadSeal_inj ((aeadOpen_refines (.refl _) hopen).symm.trans hct)
  obtain rfl := messageKeyOf_inj hkey
  rcases h.state with hs | hl
  swap
  · obtain ⟨dh, root, hck, -⟩ := hl.chain
    rw [hck] at hchain
    obtain ⟨rfl, -⟩ := hchain.unique hb.isBase (isBase_ratchet _ _) .base
    exact absurd (hck ▸ hb) (hl.none q.1)
  -- the key of the message is at its place and at the place the receiver has reached
  obtain ⟨b', hb', hchain'⟩ := hs.chain
  obtain ⟨rfl, h₂⟩ := hchain.unique hb.isBase hb'.isBase hchain'
  obtain rfl : q = bound := Prod.ext (hb.unique hf.steps hf.notRoot hb') h₂
  have hlt := hposted.place
  have htlen : t < pos.length := (List.getElem?_eq_some_iff.mp ht).1
  refine ⟨h.localKey, fun t' q' ht' => ?_, fun t' ht' => ?_, ?_, Or.inl
    ⟨⟨b, hb, hchain'.next _⟩, ?_, hlt, hs.remote, hs.root, hs.passed⟩⟩
  · rw [List.mem_append, List.mem_singleton, h.accepted_iff t' q' ht']
    have hiff : t' = t ↔ q' = q := by
      constructor
      · rintro rfl
        exact Option.some.inj (ht'.symm.trans ht)
      · rintro rfl
        have hnodup : pos.Nodup := hinc.imp fun {_ _} hb => by
          rintro rfl
          exact Before.irrefl _ hb
        obtain ⟨_, h₁⟩ := List.getElem?_eq_some_iff.mp ht'
        obtain ⟨_, h₂⟩ := List.getElem?_eq_some_iff.mp ht
        exact (List.Nodup.getElem_inj_iff hnodup).mp (h₁.trans h₂.symm)
    rw [hiff, Prod.ext_iff]
    unfold Before
    dsimp only
    omega
  · rcases List.mem_append.mp ht' with ht' | ht'
    · exact h.accepted_lt t' ht'
    · rw [List.mem_singleton.mp ht']
      exact htlen
  · unfold Before at hq ⊢
    rw [Prod.ext_iff]
    dsimp only
    omega
  · exact (toNat_succ (hs.counter ▸ hlt)).trans (congrArg (· + 1) hs.counter)

end Receiver

/-! ## 5. The invariant of the line -/

/-- Sender and receiver of a line. -/
def Aligned (ikm th : Str) (i : Nat) (pub₀ : Str) (l : Line) : Prop :=
  ∃ links pos s out r bound,
    Sender ikm th i pub₀ l.a l.b.client.userId links pos s out ∧
    l.b.client.sessionsByPeer.lookup l.a.client.userId = some r ∧
    Receiver ikm th i pub₀ links (generatedKeys l.b.trace) (generatedKeys l.a.trace) pos out
      l.accepted r bound

section Aligned

variable {ikm th : Str} {i : Nat} {pub₀ : Str} {l l' : Line}

theorem Sender.fair {peer : Str} {links : List Link} {pos : List (Nat × Nat)}
    {s : SessionState Str} {out : Nat × Nat} (h : Sender ikm th i pub₀ l.a peer links pos s out)
    (hi : i ≠ 0) (hfresh : l.Fresh) :
    Fair ikm th i pub₀ links (generatedKeys l.b.trace) (generatedKeys l.a.trace) :=
  ⟨h.steps, hi, h.distinct, (List.disjoint_of_nodup_append hfresh).symm, h.generated.2⟩

theorem Aligned.noGap (h : Aligned ikm th i pub₀ l) : l.NoGap := by
  obtain ⟨links, pos, s, out, r, bound, hs, -, hr⟩ := h
  intro t ht t' hlt
  have hlen := hr.accepted_lt t ht
  have hlen' : t' < pos.length := hlt.trans hlen
  have hb := (hr.accepted_iff t _ (List.getElem?_eq_getElem hlen)).mp ht
  have hlater := List.pairwise_iff_getElem.mp hs.increasing t' t hlen' hlen hlt
  exact (hr.accepted_iff t' _ (List.getElem?_eq_getElem hlen')).mpr (hlater.trans hb)

/-- A send of the receiver, whatever becomes of it. -/
theorem sendMessage_reply {w : World Str (List (Envelope Str))} {peer : Str} {r : SessionState Str}
    (hr : w.client.sessionsByPeer.lookup peer = some r)
    (server : ServerApi Str (List (Envelope Str))) (p : Str) :
    let w' := (sendMessage Crypto.symbolic server peer p w).2
    w'.client.userId = w.client.userId ∧ generatedKeys w.trace ⊆ generatedKeys w'.trace ∧
    ∃ r', w'.client.sessionsByPeer.lookup peer = some r' ∧
      Reply (generatedKeys w'.trace) r r' := by
  intro w'
  -- a ratchet step of a send, whose key is in the history
  have hratchet : ∀ {step : SendRatchetRun Crypto.symbolic r} {es : List (Event Str)},
      .x25519 step.newRatchet ∈ es → w'.trace = es ++ w.trace →
      ∃ x, [.atom (.pub x)] ∈ generatedKeys w'.trace ∧ step.newRatchet = Ideal.dhPair x ∧
        step.rootKey = ratchetRootOf (dhShared x r.remoteRatchetPublic) r.rootKey := by
    intro step es hmem htrace
    obtain ⟨hn, hdh, -, hrk⟩ := step.schedule (.refl _)
    have hkey := mem_generatedKeys (htrace ▸ List.mem_append_left w.trace hmem)
    rw [hn] at hkey
    exact ⟨step.seed, hkey, hn, hdh ▸ hrk⟩
  rcases sendMessage_cases (c := Crypto.symbolic) hr server p with
    ⟨e, w₁, r', es, hrun, hst, hstep⟩ | ⟨w₁, r', m, es, hsent, hstep, hrun⟩
  · obtain rfl : w' = w₁ := by
      rw [show w' = (sendMessage Crypto.symbolic server peer p w).2 from rfl, hrun]
    refine ⟨hstep.userId, (generatedKeys_suffix ⟨es, hstep.trace.symm⟩).subset, r', hstep.session,
      ?_⟩
    cases hst with
    | idle _ => exact ⟨rfl, rfl, rfl, Or.inl ⟨rfl, rfl⟩⟩
    | ratcheted step =>
      exact ⟨rfl, rfl, rfl, Or.inr (hratchet (List.mem_singleton_self _) hstep.trace)⟩
  · obtain ⟨hclient, htrace, -⟩ := enqueueAndSave_frame server peer (.fromChat m) w₁
    rw [← hrun] at hclient htrace
    have htrace' : w'.trace = es ++ w.trace := htrace.trans hstep.trace
    refine ⟨(congrArg Client.userId hclient).trans hstep.userId,
      (generatedKeys_suffix ⟨es, htrace'.symm⟩).subset, r', hclient ▸ hstep.session, ?_⟩
    cases hsent with
    | plain _ run => exact ⟨rfl, rfl, rfl, Or.inl ⟨rfl, rfl⟩⟩
    | ratchet step run =>
      exact ⟨rfl, rfl, rfl, Or.inr
        (hratchet (List.mem_cons_of_mem _ (List.mem_singleton_self _)) htrace')⟩

/-- A delivery in turn. -/
theorem Aligned.deliver (hi : i ≠ 0) (hfresh : l.Fresh) (h : Aligned ikm th i pub₀ l) {t : Nat}
    {m : ChatMessage Str} (hm : l.a.server[t]? = some (.fromChat m))
    (hD : Delivery.inTurn l.b m) :
    Aligned ikm th i pub₀ { l with
      b := (handleChatMessage Crypto.symbolic m l.b).2
      accepted := l.accepted ++
        if (handleChatMessage Crypto.symbolic m l.b).1.isOk then [t] else [] } := by
  obtain ⟨links, pos, s, out, r, bound, hs, hl, hr⟩ := h
  -- the place of the message
  obtain ⟨hlen, he⟩ := List.getElem?_eq_some_iff.mp hm
  have hlen' : t < pos.length := hs.posted.length_eq ▸ hlen
  obtain ⟨m', hm', hfrom, hposted⟩ := hs.posted.get hlen hlen'
  obtain rfl : m = m' := by
    have h₁ : l.a.server.get ⟨t, hlen⟩ = .fromChat m := he
    rw [h₁] at hm'
    simpa [Envelope.fromChat] using hm'
  have ht : pos[t]? = some (pos.get ⟨t, hlen'⟩) := List.getElem?_eq_getElem hlen'
  rcases handleChatMessage_cases Crypto.symbolic m l.b with ⟨e, hrun⟩ | ⟨r₀, hr₀, -, hrun⟩
  · rw [hrun]
    simp only [Except.isOk, Except.toBool, Bool.false_eq_true, if_false, List.append_nil]
    exact ⟨links, pos, s, out, r, bound, hs, hl, hr⟩
  obtain rfl : r = r₀ := by
    rw [hfrom, hl] at hr₀
    exact Option.some.inj hr₀
  rw [hrun, hfrom]
  have hplace : ∀ q ∈ pos, q.2 < 10 := by
    intro q hq
    obtain ⟨n, hn, rfl⟩ := List.getElem_of_mem hq
    obtain ⟨_, -, -, hp⟩ := hs.posted.get (hs.posted.length_eq ▸ hn) hn
    exact hp.place
  have hfair := hs.fair hi hfresh
  -- first the ratchet step on the header
  have hfollow : ∃ bound', Receiver ikm th i pub₀ links (generatedKeys l.b.trace)
      (generatedKeys l.a.trace) pos out l.accepted (recvRatchet Crypto.symbolic m r).2 bound' := by
    rcases recvRatchet_cases Crypto.symbolic m r with hsame |
      ⟨newRemote, dh, ck, rk, hX, hne, hdh, hmix, hstep⟩
    · rw [hsame]
      exact ⟨bound, hr⟩
    obtain ⟨x, hx, hxs⟩ := hr.localKey
    obtain ⟨rfl, rfl⟩ := Prod.mk.inj (deriveRatchetRootAndChain_refines (.refl _) hmix)
    obtain rfl := sharedSecret_refines (.refl _) (hx ▸ hdh)
    rw [hstep]
    obtain ⟨k, ℓ, -, hk, rfl⟩ := hposted.header newRemote hX
    have hcount := hD r (hfrom ▸ hl) _ hX hne
    exact hr.follow hfair hs.last hplace hx hxs
      (hs.generated.2 ℓ (List.mem_of_getElem? hk)) hcount
  obtain ⟨bound', hr'⟩ := hfollow
  -- then the message
  rcases receiveChat_cases Crypto.symbolic m r with ⟨e, hrec⟩ | ⟨p, r₁, r', hrat, ho, hrec⟩
  · rw [hrec]
    simp only [Except.isOk, Except.toBool, Bool.false_eq_true, if_false, List.append_nil]
    exact ⟨links, pos, s, out, _, bound', hs, Client.lookup_withSession .., hr'⟩
  · rw [hrec]
    simp only [Except.isOk, Except.toBool, if_true]
    rw [hrat] at hr'
    have hq := hs.behind _ (List.mem_of_getElem? ht)
    exact ⟨links, pos, s, out, r', _, hs, Client.lookup_withSession ..,
      hr'.opens hfair hs.increasing ht hq hposted ho⟩

/-- **One step of the line keeps the invariant.** -/
theorem Aligned.step (hi : i ≠ 0) (hfresh : l.Fresh) (hfresh' : l'.Fresh)
    (h : Aligned ikm th i pub₀ l) (hs : Line.Step Delivery.inTurn l l') :
    Aligned ikm th i pub₀ l' := by
  obtain ⟨links, pos, s, out, r, bound, hsend, hl, hr⟩ := h
  cases hs with
  | send p =>
    obtain ⟨huser, links', pos', s', out', hsend', hadv⟩ :=
      hsend.send p (List.nodup_append.mp hfresh').1
    refine ⟨links', pos', s', out', r, bound, hsend', ?_, ?_⟩
    · rw [huser]
      exact hl
    · exact hr.advance hadv (List.disjoint_of_nodup_append hfresh').symm hsend'.generated.2
  | sendBack server p =>
    obtain ⟨huser, hsub, r', hl', hreply⟩ := sendMessage_reply hl server p
    refine ⟨links, pos, s, out, r', bound, ?_, hl', hr.reply hreply hsub⟩
    rw [huser]
    exact hsend
  | receive m =>
    obtain ⟨huser, hkeys, s', hsend'⟩ := hsend.receive m
    refine ⟨links, pos, s', out, r, bound, hsend', ?_, ?_⟩
    · rw [huser]
      exact hl
    · rw [hkeys]
      exact hr
  | deliver t m hm hD =>
    exact Aligned.deliver hi hfresh ⟨links, pos, s, out, r, bound, hsend, hl, hr⟩ hm hD

theorem Line.Step.trace_suffix {D : Delivery} (h : Line.Step D l l') :
    l.a.trace <:+ l'.a.trace ∧ l.b.trace <:+ l'.b.trace := by
  have hsend : ∀ (server : ServerApi Str (List (Envelope Str))) (peer p : Str)
      (w : World Str (List (Envelope Str))),
      w.trace <:+ (sendMessage Crypto.symbolic server peer p w).2.trace := fun server peer p w =>
    (sendMessage_moves (P := (· = Crypto.symbolic)) rfl server.enqueues_any peer p w
      .refl).trace_suffix
  have hrecv : ∀ (m : ChatMessage Str) (w : World Str (List (Envelope Str))),
      w.trace <:+ (handleChatMessage Crypto.symbolic m w).2.trace := fun m w =>
    (handleChatMessage_moves (P := (· = Crypto.symbolic)) (v := .any) rfl m w
      .refl).trace_suffix
  cases h with
  | send p => exact ⟨hsend .., List.suffix_rfl⟩
  | sendBack server p => exact ⟨List.suffix_rfl, hsend ..⟩
  | receive m => exact ⟨hrecv .., List.suffix_rfl⟩
  | deliver t m _ _ => exact ⟨List.suffix_rfl, hrecv ..⟩

theorem Line.Fresh.of_step {D : Delivery} (h : l'.Fresh) (hs : Line.Step D l l') : l.Fresh := by
  obtain ⟨ha, hb⟩ := hs.trace_suffix
  exact h.sublist ((generatedKeys_suffix ha).sublist.append (generatedKeys_suffix hb).sublist)

/-- **The invariant holds along every run of the line.** -/
theorem Line.Run.aligned (hi : i ≠ 0) (h : Line.Run Delivery.inTurn l l')
    (h₀ : Aligned ikm th i pub₀ l) (hfresh : l'.Fresh) : Aligned ikm th i pub₀ l' := by
  induction h with
  | refl => exact h₀
  | tail _ hs ih => exact (ih (hfresh.of_step hs)).step hi (hfresh.of_step hs) hfresh hs

/-- Sessions that mirror each other, before anything is sent. -/
theorem Aligned.of_mirrors {s r : SessionState Str} {n : Nat}
    {a b : World Str (List (Envelope Str))}
    (hs : a.client.sessionsByPeer.lookup b.client.userId = some s)
    (hr : b.client.sessionsByPeer.lookup a.client.userId = some r) (hm : s.Mirrors r)
    (hroot : s.rootKey = handshakeKeyOf ikm th 0)
    (hchain : Chain (handshakeKeyOf ikm th i) n s.sendChainKey)
    (hcount : s.sendCounter.toNat = n) (hn : n ≤ 10)
    (hgen : s.localRatchetKey.publicKey ∈ generatedKeys a.trace)
    (hgen' : r.localRatchetKey.publicKey ∈ generatedKeys b.trace)
    (hgenuine : ∃ x, Crypto.symbolic.x25519Generate x = .ok r.localRatchetKey)
    (hserver : a.server = []) :
    Aligned ikm th i s.localRatchetKey.publicKey ⟨a, b, []⟩ := by
  obtain ⟨x, hx⟩ := hgenuine
  have hx' := x25519Generate_refines (.refl _) hx
  refine ⟨[], [], s, (0, n), r, (0, n), ⟨hs, ⟨nofun, .nil⟩, ⟨hroot ▸ .refl _, nofun⟩, ⟨hgen, nofun⟩,
    List.nodup_singleton _, ⟨_, .first, hchain⟩, rfl, hcount, hn, ?_, nofun, .nil⟩, hr,
    ⟨⟨x, hx', ?_⟩, nofun, nofun, Or.inl rfl, Or.inl ⟨⟨_, .first, hm.sendChain ▸ hchain⟩,
      hm.sendCounter ▸ hcount, hn, ?_, ?_, nofun⟩⟩⟩
  · rw [hserver]
    exact .nil
  · rw [hx'] at hgen'
    exact hgen'
  · exact congrArg some hm.localRatchet
  · rw [← hm.rootKey, hroot]
    exact .base

end Aligned

/-- **Strict in-order reception**, if ratchets only reach a client that has read its chain to
the end. -/
theorem inOrder_of_inTurn (opening : List (Event Str)) (d : Duo Str)
    (h : Established Crypto.symbolic opening d) :
    (∀ l, Line.Run Delivery.inTurn ⟨d.a.world, d.b.world, []⟩ l → l.Fresh → l.NoGap) ∧
    ∀ l, Line.Run Delivery.inTurn ⟨d.b.world, d.a.world, []⟩ l → l.Fresh → l.NoGap := by
  obtain ⟨hd, cl, peer, plaintext, bundle, run, r, he⟩ := h.spec Crypto.symbolic_lawful
  obtain ⟨hroot, -, hsend, hrecv⟩ := run.schedule (.refl _)
  have hserver : d.a.world.server = [] ∧ d.b.world.server = [] := by
    rw [hd]
    exact ⟨rfl, rfl⟩
  have hgen := he.generated.ratchet _ _ he.session
  have hgen' := he.generated'.ratchet _ _ he.session'
  constructor
  · intro l hrun hfresh
    have hcount : run.session.sendCounter.toNat = 1 := rfl
    exact (hrun.aligned one_ne_zero (Aligned.of_mirrors he.session he.session' he.mirrors
      hroot (hsend ▸ Chain.base.next 0) hcount (by decide) hgen hgen'
      (he.genuine'.ratchet _ _ he.session') hserver.1) hfresh).noGap
  · intro l hrun hfresh
    have hroot' := he.mirrors.rootKey.symm.trans hroot
    have hchain : Chain (handshakeKeyOf run.ikm run.transcriptHash 2) 0 r.sendChainKey := by
      rw [← he.mirrors.recvChain, hrecv]
      exact .base
    have hcount : r.sendCounter.toNat = 0 := by
      rw [← he.mirrors.recvCounter]
      rfl
    exact (hrun.aligned two_ne_zero (Aligned.of_mirrors he.session' he.session he.mirrors.symm
      hroot' hchain hcount (Nat.zero_le _) hgen' hgen (he.genuine.ratchet _ _ he.session)
      hserver.2) hfresh).noGap

/-! ## 6. Runs of Alice and Bob -/

/-- What happens on a line next: a message of the sender, or the delivery of one. -/
inductive Turn
  | send (plaintext : Str)
  | deliver (t : Nat)

/-- Take the turns, as long as the deliveries meet the condition. -/
def Line.play (D : Delivery) [∀ w m, Decidable (D w m)] (l : Line) : List Turn → Option Line
  | [] => some l
  | .send p :: rest =>
    Line.play D
      { l with a := (sendMessage Crypto.symbolic (mailbox none) l.b.client.userId p l.a).2 } rest
  | .deliver t :: rest =>
    match l.a.server[t]?.bind Envelope.chat with
    | none => none
    | some m =>
      if l.a.server[t]? = some (.fromChat m) ∧ D l.b m then
        Line.play D { l with
          b := (handleChatMessage Crypto.symbolic m l.b).2
          accepted := l.accepted ++
            if (handleChatMessage Crypto.symbolic m l.b).1.isOk then [t] else [] } rest
      else none

theorem Line.Run.of_play {D : Delivery} [∀ w m, Decidable (D w m)] {l₀ l l' : Line}
    (h : Line.Run D l₀ l) {turns : List Turn} (hp : l.play D turns = some l') :
    Line.Run D l₀ l' := by
  induction turns generalizing l with
  | nil => exact Option.some.inj hp ▸ h
  | cons turn rest ih =>
    cases turn with
    | send p => exact ih (h.tail (.send p)) hp
    | deliver t =>
      rw [Line.play] at hp
      rcases hm : l.a.server[t]?.bind Envelope.chat with _ | m
      · rw [hm] at hp
        cases hp
      · rw [hm] at hp
        by_cases hD : l.a.server[t]? = some (.fromChat m) ∧ D l.b m
        · exact ih (h.tail (.deliver t m hD.1 hD.2)) ((if_pos hD).symm.trans hp)
        · cases (if_neg hD).symm.trans hp

instance (w : World Str (List (Envelope Str))) (m : ChatMessage Str) :
    Decidable (Delivery.inTurn w m) :=
  decidable_of_iff (∀ s ∈ w.client.sessionsByPeer.lookup m.fromUser,
    ∀ key ∈ m.header.senderRatchetPublicKey, key ≠ s.remoteRatchetPublic →
      s.recvCounter = kRatchetInterval) Iff.rfl

instance (w : World Str (List (Envelope Str))) (m : ChatMessage Str) :
    Decidable (Delivery.any w m) := inferInstanceAs (Decidable True)

instance (l : Line) : Decidable l.Fresh := inferInstanceAs (Decidable (List.Nodup _))

instance (l : Line) : Decidable l.NoGap :=
  inferInstanceAs (Decidable (∀ t ∈ l.accepted, ∀ t' < t, t' ∈ l.accepted))

namespace AliceBob

/-- Alice to Bob, with nothing sent. -/
def line : Line := ⟨duo.a.world, duo.b.world, []⟩

theorem exists_line {D : Delivery} [∀ w m, Decidable (D w m)] {turns : List Turn}
    {p : Line → Bool} (h : (line.play D turns).any p = true) :
    ∃ l, Line.Run D line l ∧ p l = true := by
  obtain ⟨l, hl, hp⟩ := (Option.any_eq_true _ _).mp h
  exact ⟨l, .of_play .refl hl, hp⟩

/-- Alice sends eleven messages, the tenth of which ratchets.  Bob is handed the second before
the first, and then the first eleven in order. -/
def reordered : List Turn :=
  List.replicate 11 (.send (text "m")) ++ .deliver 1 :: (List.range 11).map .deliver

/-- Alice sends ten messages, the last of which ratchets, and the first nine are lost. -/
def dropped : List Turn := List.replicate 10 (.send (text "m")) ++ [.deliver 9]

/-- Where they lead. -/
theorem lines :
    (line.play Delivery.inTurn reordered).any
      (fun l => decide (l.Fresh ∧ l.accepted = List.range 11)) = true ∧
    (line.play Delivery.any dropped).any (fun l => decide (l.Fresh ∧ ¬ l.NoGap)) = true := by
  decide +kernel

end AliceBob

/-- Bob rejects the message that comes too early, and accepts all eleven in order. -/
theorem inOrder_alice_bob : ∃ l, (Line.Run Delivery.inTurn AliceBob.line l ∧ l.Fresh ∧
    l.accepted = List.range 11) ∧ l.NoGap := by
  obtain ⟨l, hrun, hp⟩ := AliceBob.exists_line AliceBob.lines.1
  obtain ⟨hfresh, haccepted⟩ := of_decide_eq_true hp
  exact ⟨l, ⟨hrun, hfresh, haccepted⟩,
    (inOrder_of_inTurn _ _ AliceBob.established).1 l hrun hfresh⟩

/-- A ratchet that arrives alone: Bob accepts the tenth message of Alice without the first
nine. -/
theorem not_inOrder_any : ¬ InOrder Delivery.any := by
  intro h
  obtain ⟨l, hrun, hp⟩ := AliceBob.exists_line AliceBob.lines.2
  obtain ⟨hfresh, hgap⟩ := of_decide_eq_true hp
  exact hgap ((h _ _ AliceBob.established).1 l hrun hfresh)

end PqChat
