/-
# The length of the previous chain

A message that carries a new ratchet key also says how long the sender's previous sending chain
was.  `SendMessage` fills this field from `previous_send_chain_length`, and only then assigns to
that member: so the field is the length of the chain BEFORE the previous one.

`Books` are kept beside a session: how many messages have been sealed in each of its sending
chains, and what was announced with each new key.  `Tallied` says what the members of the session
have to do with them.  Every chain but the first few messages of the last one is as long as the
ratchet interval, so from the second ratchet on the number is right; with the first it is zero.
-/
import PqChat.Session.Failures
import PqChat.Client.Schedule

set_option linter.unusedSectionVars false

namespace PqChat

open ByteString

variable {B S : Type} [ByteString B] [DecidableEq B] {c : Crypto B}

/-! ## 1. The books -/

/-- A message that was sealed with a new key: the session that `SendMessage` was called on, the
message, and the number of messages sealed in the chain before. -/
structure Announced (B : Type) where
  before : SessionState B
  message : ChatMessage B
  preceding : Nat

/-- The number in the message is the number of messages. -/
def Announced.Right (a : Announced B) : Prop :=
  a.message.header.previousChainLength.toNat = a.preceding

instance (a : Announced B) : Decidable a.Right := inferInstanceAs (Decidable (_ = _))

/-- The sending chains of a session, newest first, with the number of messages sealed in each, and
what was announced. -/
structure Books (B : Type) where
  chains : List Nat
  announced : List (Announced B)

namespace Books

/-- A ratchet step starts a chain. -/
def ratcheted (b : Books B) (header : MessageHeader B) : Books B :=
  if header.senderRatchetPublicKey.isSome then { b with chains := 0 :: b.chains } else b

/-- A message is sealed. -/
def sealed (b : Books B) (before : SessionState B) (message : ChatMessage B) : Books B where
  chains := b.chains.modifyHead (· + 1)
  announced :=
    if message.header.senderRatchetPublicKey.isSome then
      ⟨before, message, b.chains.tail.headD 0⟩ :: b.announced
    else b.announced

/-- What a call of `SendMessage` adds. -/
def send (c : Crypto B) (peer plaintext : B) (w : World B S) (b : Books B) : Books B :=
  match w.client.sessionsByPeer.lookup peer with
  | none => b
  | some session =>
    match sendRatchet c peer session w with
    | (.error _, _) => b
    | (.ok step, w₁) =>
      match sealStep c w.client.userId peer step plaintext w₁ with
      | (.error _, _) => b.ratcheted step.2
      | (.ok message, _) => (b.ratcheted step.2).sealed session message

end Books

/-- The runs of a session with a peer: it starts when `InitiateSession` has stored it or
`HandleInitialMessage` has accepted it, and goes on with calls of `SendMessage`, with chat messages
that are handed to the client, and with whatever leaves the session alone.  Every call may have a
provider and a server of its own. -/
inductive SendingRun (peer : B) : World B S → Books B → Prop
  | initiated {w w₁ : World B S} {m : InitialMessage B} {s : SessionState B} (c : Crypto B)
    (server : ServerApi B S) (plaintext : B)
    (hready : prepareInitial c server peer plaintext w = (.ok (m, s), w₁)) :
    SendingRun peer (initiateSession c server peer plaintext w).2 ⟨[1], []⟩
  | responded {w w' : World B S} {plaintext : B} (c : Crypto B) (m : InitialMessage B)
    (hpeer : m.fromUser = peer) (haccept : handleInitialMessage c m w = (.ok plaintext, w')) :
    SendingRun peer w' ⟨[0], []⟩
  | send {w : World B S} {b : Books B} (c : Crypto B) (server : ServerApi B S) (plaintext : B)
    (h : SendingRun peer w b) :
    SendingRun peer (sendMessage c server peer plaintext w).2 (b.send c peer plaintext w)
  | receive {w : World B S} {b : Books B} (c : Crypto B) (m : ChatMessage B)
    (h : SendingRun peer w b) : SendingRun peer (handleChatMessage c m w).2 b
  | other {w w' : World B S} {b : Books B} (h : SendingRun peer w b)
    (hsame : w'.client.sessionsByPeer.lookup peer = w.client.sessionsByPeer.lookup peer) :
    SendingRun peer w' b

/-! ## 2. The invariant -/

/-- The send counter is the length of the chain; what is kept of the previous one is zero, or the
interval. -/
structure Tallied (s : SessionState B) (b : Books B) : Prop where
  current : b.chains.head? = some s.sendCounter.toNat
  within : s.sendCounter.toNat ≤ 10
  previous : s.previousSendChainLength = 0 ∨ s.previousSendChainLength = kRatchetInterval
  announced : ∀ a ∈ b.announced, a.Right ↔ a.before.previousSendChainLength ≠ 0

namespace Tallied

variable {s s' : SessionState B} {b : Books B} {userId peer plaintext : B}

theorem congr (h : Tallied s b) (hcounter : s'.sendCounter = s.sendCounter)
    (hprevious : s'.previousSendChainLength = s.previousSendChainLength) : Tallied s' b :=
  ⟨hcounter ▸ h.current, hcounter ▸ h.within, hprevious ▸ h.previous, h.announced⟩

/-- A chain that a ratchet step ends is as long as the interval. -/
theorem due (h : Tallied s b) (hdue : s.ratchetDue) : s.sendCounter = kRatchetInterval :=
  UInt64.toNat_inj.mp ((ratchetDue_iff h.within).mp hdue)

theorem ratcheted (h : Tallied s b) (run : SendRatchetRun c s) :
    Tallied run.session (b.ratcheted run.header) ∧
      (b.ratcheted run.header).chains.tail.headD 0 = 10 := by
  have hchains : (b.ratcheted run.header).chains = 0 :: b.chains := rfl
  refine ⟨⟨?_, Nat.zero_le _, Or.inr (h.due run.due), h.announced⟩, ?_⟩
  · rw [hchains]
    rfl
  · rw [hchains, List.tail_cons, List.headD_eq_head?_getD, h.current, h.due run.due]
    rfl

/-- One more message. -/
theorem sealed (h : Tallied s b) (hroom : s.sendCounter.toNat < 10) {before : SessionState B}
    {header : MessageHeader B} (run : SealChatRun c userId peer s header plaintext)
    (hheader : header.senderRatchetPublicKey.isSome →
      (header.previousChainLength.toNat = b.chains.tail.headD 0 ↔
        before.previousSendChainLength ≠ 0)) :
    Tallied run.session (b.sealed before run.message) := by
  obtain ⟨chains, announced⟩ := b
  obtain ⟨n, rest, rfl⟩ : ∃ n rest, chains = n :: rest :=
    List.exists_cons_of_ne_nil fun hnil => by
      have hcurrent := h.current
      rw [hnil] at hcurrent
      cases hcurrent
  have hn : n = s.sendCounter.toNat := Option.some.inj h.current
  refine ⟨?_, ?_, h.previous, ?_⟩
  · exact congrArg some ((congrArg (· + 1) hn).trans (toNat_succ hroom).symm)
  · rw [SealChatRun.session, toNat_succ hroom]
    exact hroom
  · intro a ha
    have hkey : run.message.header.senderRatchetPublicKey = header.senderRatchetPublicKey := rfl
    rw [Books.sealed, hkey] at ha
    by_cases hsome : header.senderRatchetPublicKey.isSome
    · rw [if_pos hsome] at ha
      rcases List.mem_cons.mp ha with rfl | ha
      · exact hheader hsome
      · exact h.announced a ha
    · rw [if_neg hsome] at ha
      exact h.announced a ha

/-- What a new key is announced with is right unless the previous chain was the first one. -/
theorem announces (h : Tallied s b) (run : SendRatchetRun c s) :
    run.header.previousChainLength.toNat = 10 ↔ s.previousSendChainLength ≠ 0 := by
  rw [SendRatchetRun.header]
  dsimp only
  rcases h.previous with hp | hp <;> rw [hp] <;> decide

end Tallied

theorem Books.send_of_lookup {peer : B} {s : SessionState B} {w : World B S}
    (hs : w.client.sessionsByPeer.lookup peer = some s) (plaintext : B) (b : Books B) :
    b.send c peer plaintext w =
      match sendRatchet c peer s w with
      | (.error _, _) => b
      | (.ok step, w₁) =>
        match sealStep c w.client.userId peer step plaintext w₁ with
        | (.error _, _) => b.ratcheted step.2
        | (.ok message, _) => (b.ratcheted step.2).sealed s message := by
  rw [Books.send, hs]

/-- Encrypting, enqueueing and saving: the second half of `SendMessage`. -/
theorem sealStep_tallied {peer userId : B} {s s₁ : SessionState B} {header : MessageHeader B}
    {b : Books B} {w : World B S} (server : ServerApi B S) (plaintext : B)
    (hs : w.client.sessionsByPeer.lookup peer = some s₁) (h : Tallied s₁ b)
    (hroom : s₁.sendCounter.toNat < 10)
    (hheader : header.senderRatchetPublicKey.isSome →
      (header.previousChainLength.toNat = b.chains.tail.headD 0 ↔
        s.previousSendChainLength ≠ 0)) :
    ∃ s', ((sealStep c userId peer (s₁, header) plaintext >>= fun m =>
        enqueueAndSave server peer (.fromChat m)) w).2.client.sessionsByPeer.lookup peer = some s' ∧
      Tallied s' (match sealStep c userId peer (s₁, header) plaintext w with
        | (.error _, _) => b
        | (.ok message, _) => b.sealed s message) := by
  rcases sealStep_cases (c := c) userId peer (s₁, header) plaintext w with
    ⟨run, hrun⟩ | ⟨e, hrun⟩
  · rw [Proc.bind_ok hrun, hrun, (enqueueAndSave_frame server peer _ _).1]
    exact ⟨_, Client.lookup_withSession .., h.sealed hroom run hheader⟩
  · rw [Proc.bind_error hrun, hrun]
    exact ⟨s₁, hs, h⟩

/-- **A call of `SendMessage` keeps the books.** -/
theorem Tallied.send {peer : B} {s : SessionState B} {b : Books B} {w : World B S}
    (h : Tallied s b) (hs : w.client.sessionsByPeer.lookup peer = some s)
    (server : ServerApi B S) (plaintext : B) :
    ∃ s', (sendMessage c server peer plaintext w).2.client.sessionsByPeer.lookup peer = some s' ∧
      Tallied s' (b.send c peer plaintext w) := by
  have hsend : sendMessage c server peer plaintext w =
      (sendRatchet c peer s >>= fun step => sealStep c w.client.userId peer step plaintext >>=
        fun m => enqueueAndSave server peer (.fromChat m)) w := by
    rw [sendMessage, Proc.get_bind_apply, hs]
    dsimp only
    rw [sealChat, Proc.bind_assoc, Proc.get_bind_apply, Proc.bind_assoc]
  rw [hsend, Books.send_of_lookup hs]
  rcases sendRatchet_cases (c := c) peer s w with
    ⟨hd, hr⟩ | ⟨run, -, hr⟩ | ⟨e, pair, _, _, hr⟩ | ⟨e, hr⟩
  · -- no ratchet: the chain goes on
    rw [Proc.bind_ok hr, hr]
    have hroom : s.sendCounter.toNat < 10 :=
      lt_of_le_of_ne h.within fun he => hd ((ratchetDue_iff h.within).mpr he)
    refine sealStep_tallied server plaintext hs h hroom fun hsome => ?_
    cases hsome
  · rw [Proc.bind_ok hr, hr]
    obtain ⟨hnew, hlast⟩ := h.ratcheted run
    refine sealStep_tallied server plaintext (Client.lookup_withSession ..) hnew
      (show 0 < 10 by decide) fun _ => ?_
    rw [hlast]
    exact h.announces run
  -- a ratchet step that fails leaves the session as it was
  · rw [Proc.bind_error hr, hr]
    exact ⟨s, hs, h⟩
  · rw [Proc.bind_error hr, hr]
    exact ⟨s, hs, h⟩

/-- Receiving leaves both counters of the sending side alone. -/
theorem receiveChat_counters (c : Crypto B) (m : ChatMessage B) (s : SessionState B) :
    (receiveChat c m s).2.sendCounter = s.sendCounter ∧
      (receiveChat c m s).2.previousSendChainLength = s.previousSendChainLength := by
  let I : SessionState B → Prop := fun s' => s'.sendCounter = s.sendCounter ∧
    s'.previousSendChainLength = s.previousSendChainLength
  have hratchet : Proc.Preserves I (recvRatchet c m) := by
    refine .bind .get fun cur => ?_
    split
    · exact .pure _
    · refine .ite (.pure _) (.bind (.ofExcept _ _) fun dh => .bind (.ofExcept _ _) fun mixed => ?_)
      exact .modify fun _ h => h
  have hall : Proc.Preserves I (receiveChat c m) := by
    refine .bind hratchet fun _ => .bind .get fun cur => .bind (.require _ _) fun _ => ?_
    refine .bind (.ofExcept _ _) fun ad => .bind (.ofExcept _ _) fun opened => ?_
    exact .bind (.modify fun _ h => h) fun _ => .pure _
  exact hall s ⟨rfl, rfl⟩

/-- A chat message, accepted or not, keeps them too. -/
theorem Tallied.receive {peer : B} {s : SessionState B} {b : Books B} {w : World B S}
    (h : Tallied s b) (hs : w.client.sessionsByPeer.lookup peer = some s) (m : ChatMessage B) :
    ∃ s', (handleChatMessage c m w).2.client.sessionsByPeer.lookup peer = some s' ∧
      Tallied s' b := by
  rcases handleChatMessage_cases c m w with ⟨e, he⟩ | ⟨s₁, hs₁, -, he⟩
  · rw [he]
    exact ⟨s, hs, h⟩
  · rw [he]
    by_cases hp : peer = m.fromUser
    · subst hp
      obtain rfl := Option.some.inj (hs.symm.trans hs₁)
      obtain ⟨hcounter, hprevious⟩ := receiveChat_counters c m s
      exact ⟨_, Client.lookup_withSession .., h.congr hcounter hprevious⟩
    · exact ⟨s, (Client.lookup_withSession_ne hp _).trans hs, h⟩

/-- The session of an initial message that is ready has one message in its chain. -/
theorem prepareInitial_counters {server : ServerApi B S} {peer plaintext : B} {w w₁ : World B S}
    {m : InitialMessage B} {s : SessionState B}
    (h : prepareInitial c server peer plaintext w = (.ok (m, s), w₁)) :
    s.sendCounter = 1 ∧ s.previousSendChainLength = 0 := by
  simp only [prepareInitial, sealInitial, Proc.bind_eq_ok_iff] at h
  obtain ⟨bundle, _, -, a, _, -, sealed, _, ⟨_, _, -, _, _, -, hsealed⟩, _, _, -, hend⟩ := h
  have hs : sealed = (m, s) := Except.ok.inj (Prod.mk.inj hend).1
  rw [hs] at hsealed
  rw [← (Prod.mk.inj (Except.ok.inj (Prod.mk.inj hsealed).1)).2]
  exact ⟨rfl, rfl⟩

theorem SendingRun.tallied {peer : B} {w : World B S} {b : Books B} (h : SendingRun peer w b) :
    ∃ s, w.client.sessionsByPeer.lookup peer = some s ∧ Tallied s b := by
  induction h with
  | @initiated w w₁ m s c server plaintext hready =>
    obtain ⟨hcounter, hprevious⟩ := prepareInitial_counters hready
    rw [initiateSession_eq, Proc.bind_ok hready, setSession, modifyClient, Proc.modify_bind_apply,
      (enqueueAndSave_frame server peer _ _).1]
    exact ⟨s, Client.lookup_withSession .., by rw [hcounter]; rfl, by rw [hcounter]; decide,
      Or.inl hprevious, List.forall_mem_nil _⟩
  | @responded w w' plaintext c m hpeer haccept =>
    subst hpeer
    rcases handleInitialMessage_cases (c := c) (P := fun _ => True) (v := .any) m w with
      ⟨run, he⟩ | ⟨e, w₁, he, -⟩
    · rw [haccept] at he
      obtain rfl := (Prod.mk.inj he).2
      exact ⟨_, Client.lookup_withSession .., rfl, Nat.zero_le _, Or.inl rfl,
        List.forall_mem_nil _⟩
    · rw [haccept] at he
      cases (Prod.mk.inj he).1
  | send c server plaintext _ ih =>
    obtain ⟨s, hs, h⟩ := ih
    exact h.send hs server plaintext
  | receive c m _ ih =>
    obtain ⟨s, hs, h⟩ := ih
    exact h.receive hs m
  | other _ hsame ih =>
    obtain ⟨s, hs, h⟩ := ih
    exact ⟨s, hsame.trans hs, h⟩

/-! ## 3. The field -/

/-- Every number that is announced is right. -/
def PreviousChainsRight (b : Books B) : Prop := ∀ a ∈ b.announced, a.Right

instance (b : Books B) : Decidable (PreviousChainsRight b) :=
  inferInstanceAs (Decidable (∀ a ∈ b.announced, a.Right))

/-- **The length of the previous chain** is announced right exactly when a ratchet has ended a
chain of the session before. -/
theorem previous_chain_length {peer : B} {w : World B S} {b : Books B}
    (h : SendingRun peer w b) :
    ∀ a ∈ b.announced, a.Right ↔ a.before.previousSendChainLength ≠ 0 := by
  obtain ⟨s, -, ht⟩ := h.tallied
  exact ht.announced

namespace AliceBob

open Symbolic

/-- Alice has sent that many messages after the initial one. -/
def booked : Nat → World Str (List (Envelope Str)) × Books Str
  | 0 => (alice₁, ⟨[1], []⟩)
  | n + 1 =>
    ((sendMessage Crypto.symbolic (towards bob.client) (text "bob") (text "m") (booked n).1).2,
      (booked n).2.send Crypto.symbolic (text "bob") (text "m") (booked n).1)

/-- The chains that she announces. -/
theorem booked_announced :
    (prepareInitial Crypto.symbolic (towards bob.client) bob.client.userId (text "hello")
      alice).1.isOk = true ∧
    bob.client.userId = text "bob" ∧
    (booked 20).2.announced.map (fun a => decide a.Right) = [true, false] ∧
    ¬ PreviousChainsRight (booked 10).2 := by decide +kernel

theorem booked_run (n : Nat) : SendingRun (text "bob") (booked n).1 (booked n).2 := by
  induction n with
  | zero =>
    obtain ⟨hok, hname, -⟩ := booked_announced
    rcases hready : prepareInitial Crypto.symbolic (towards bob.client) bob.client.userId
        (text "hello") alice with ⟨e | ⟨m, s⟩, w₁⟩
    · rw [hready] at hok
      cases hok
    · have h := SendingRun.initiated _ _ _ hready
      rw [hname] at h
      rw [booked, alice₁, hname]
      exact h
  | succ n ih => exact .send _ _ _ ih

end AliceBob

/-- Alice announces two chains, and the length before the second one is right. -/
theorem previous_chain_length_alice :
    (AliceBob.booked 20).2.announced.map (fun a => decide a.Right) = [true, false] ∧
    ∀ a ∈ (AliceBob.booked 20).2.announced, a.Right ↔ a.before.previousSendChainLength ≠ 0 :=
  ⟨AliceBob.booked_announced.2.2.1, previous_chain_length (AliceBob.booked_run 20)⟩

/-- **The first ratchet of a session announces an empty chain**: Alice has sealed ten messages in
it. -/
theorem not_previousChainsRight :
    ¬ ∀ (w : World Symbolic.Str (List (Envelope Symbolic.Str))) (b : Books Symbolic.Str),
      SendingRun (text "bob") w b → PreviousChainsRight b := by
  intro h
  exact AliceBob.booked_announced.2.2.2 (h _ _ (AliceBob.booked_run 10))

end PqChat
