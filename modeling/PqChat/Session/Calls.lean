/-
# What the two calls do to a session

`SendMessage` and `HandleChatMessage` seen from the session they work on.  A receive is a
ratchet step taken on the header, then an attempt to open the next message of the chain; a send
STALLS, or seals one message.  Each is described by what it leaves behind, failed or not.
-/
import PqChat.Lib.Map
import PqChat.Session.Agreement

set_option linter.unusedSectionVars false

namespace PqChat

open ByteString

variable {B S : Type} [ByteString B] [DecidableEq B] {c : Crypto B}

/-! ## 1. Receiving one message -/

/-- The message does not carry a ratchet key. -/
def ChatMessage.Plain (m : ChatMessage B) : Prop := m.header.senderRatchetPublicKey = none

instance (m : ChatMessage B) : Decidable m.Plain := inferInstanceAs (Decidable (_ = _))

/-- The message opens as the next one of the receiving chain of `s`. -/
def Opens (c : Crypto B) (m : ChatMessage B) (s : SessionState B) (p : B)
    (s' : SessionState B) : Prop :=
  m.header.messageNumber = s.recvCounter ∧ ∃ ad key next,
    buildChatAssociatedData c m = .ok ad ∧
    deriveMessageKeyAndNextChain c s.recvChainKey s.recvCounter = .ok (key, next) ∧
    aeadOpen c key m.nonce m.ciphertext ad = .ok p ∧
    s' = { s with recvChainKey := next, recvCounter := s.recvCounter + 1 }

theorem receiveChat_eq_ok {m : ChatMessage B} {s s' : SessionState B} {p : B} :
    receiveChat c m s = (.ok p, s') ↔
      ∃ s₁, recvRatchet c m s = (.ok (), s₁) ∧ Opens c m s₁ p s' := by
  simp only [receiveChat, Proc.bind_eq_ok_iff, Proc.require_eq_ok_iff, Proc.ofExcept_eq_ok_iff,
    decryptChainStep_eq_ok, Opens]
  constructor
  · rintro ⟨_, s₁, hr, _, _, h₀, _, _, ⟨hn, rfl⟩, ad, _, ⟨had, rfl⟩, ⟨x, next⟩, _,
      ⟨⟨key, hk, ho⟩, rfl⟩, _, s₂, h, h'⟩
    obtain ⟨hs, rfl⟩ := Prod.mk.inj h₀
    obtain rfl := Except.ok.inj hs
    obtain ⟨-, rfl⟩ := Prod.mk.inj h
    obtain ⟨hx, rfl⟩ := Prod.mk.inj h'
    obtain rfl := Except.ok.inj hx
    exact ⟨s₁, hr, hn, ad, key, next, had, hk, ho, rfl⟩
  · rintro ⟨s₁, hr, hn, ad, key, next, had, hk, ho, rfl⟩
    exact ⟨(), s₁, hr, s₁, s₁, rfl, (), s₁, ⟨hn, rfl⟩, ad, s₁, ⟨had, rfl⟩, (p, next), s₁,
      ⟨⟨key, hk, ho⟩, rfl⟩, (), _, rfl, rfl⟩

theorem recvRatchet_plain {m : ChatMessage B} (hm : m.Plain) (s : SessionState B) :
    recvRatchet c m s = (.ok (), s) := by
  rw [recvRatchet, Proc.get_bind_apply, hm]
  rfl

/-- The session after the ratchet step of `HandleChatMessage`. -/
def SessionState.ratcheted (s : SessionState B) (chainKey rootKey newRemote : B) :
    SessionState B :=
  { s with
    recvChainKey := chainKey
    rootKey := rootKey
    remoteRatchetPublic := newRemote
    recvCounter := 0 }

theorem recvRatchet_new {m : ChatMessage B} {s : SessionState B} {newRemote dh ck rk : B}
    (hm : m.header.senderRatchetPublicKey = some newRemote)
    (hne : newRemote ≠ s.remoteRatchetPublic)
    (hdh : c.x25519SharedSecret s.localRatchetKey.privateKey newRemote = .ok dh)
    (hmix : deriveRatchetRootAndChain c dh s.rootKey = .ok (ck, rk)) :
    recvRatchet c m s = (.ok (), s.ratcheted ck rk newRemote) := by
  rw [recvRatchet, Proc.get_bind_apply, hm]
  dsimp only
  rw [if_neg hne, hdh, Proc.ofExcept_ok_bind, hmix, Proc.ofExcept_ok_bind]
  rfl

/-- The ratchet step of `HandleChatMessage` leaves the session alone, or it goes through. -/
theorem recvRatchet_cases (c : Crypto B) (m : ChatMessage B) (s : SessionState B) :
    (recvRatchet c m s).2 = s ∨
    ∃ newRemote dh ck rk, m.header.senderRatchetPublicKey = some newRemote ∧
      newRemote ≠ s.remoteRatchetPublic ∧
      c.x25519SharedSecret s.localRatchetKey.privateKey newRemote = .ok dh ∧
      deriveRatchetRootAndChain c dh s.rootKey = .ok (ck, rk) ∧
      recvRatchet c m s = (.ok (), s.ratcheted ck rk newRemote) := by
  rcases hm : m.header.senderRatchetPublicKey with _ | newRemote
  · exact Or.inl (congrArg Prod.snd (recvRatchet_plain hm s))
  · by_cases hne : newRemote = s.remoteRatchetPublic
    · left
      rw [recvRatchet, Proc.get_bind_apply, hm]
      dsimp only
      rw [if_pos hne]
      rfl
    · rcases hdh : c.x25519SharedSecret s.localRatchetKey.privateKey newRemote with e | dh
      · left
        rw [recvRatchet, Proc.get_bind_apply, hm]
        dsimp only
        rw [if_neg hne, hdh]
        rfl
      · rcases hmix : deriveRatchetRootAndChain c dh s.rootKey with e | ⟨ck, rk⟩
        · left
          rw [recvRatchet, Proc.get_bind_apply, hm]
          dsimp only
          rw [if_neg hne, hdh, Proc.ofExcept_ok_bind, hmix]
          rfl
        · exact Or.inr ⟨newRemote, dh, ck, rk, rfl, hne, hdh, hmix,
            recvRatchet_new hm hne hdh hmix⟩

/-- A message that is rejected leaves the session as its ratchet step has left it. -/
theorem receiveChat_cases (c : Crypto B) (m : ChatMessage B) (s : SessionState B) :
    (∃ e, receiveChat c m s = (.error e, (recvRatchet c m s).2)) ∨
    ∃ p s₁ s', recvRatchet c m s = (.ok (), s₁) ∧ Opens c m s₁ p s' ∧
      receiveChat c m s = (.ok p, s') := by
  rcases hr : recvRatchet c m s with ⟨e | u, s₁⟩
  · exact Or.inl ⟨e, Proc.bind_error hr _⟩
  · rcases h : receiveChat c m s with ⟨e | p, s'⟩
    · refine Or.inl ⟨e, Prod.ext rfl ?_⟩
      have hs : Proc.wp (receiveChat c m) (fun r s' => ∀ e, r = .error e → s' = s₁) s := by
        refine Proc.wp_of_bind_ok hr (Proc.wp_get_bind ?_)
        refine Proc.wp_require_bind (fun _ _ _ => rfl) fun _ => ?_
        refine Proc.wp_ofExcept_bind (fun _ _ _ _ => rfl) fun ad _ => ?_
        exact Proc.wp_ofExcept_bind (fun _ _ _ _ => rfl) fun opened _ e he => by cases he
      rw [Proc.wp, h] at hs
      exact hs e rfl
    · obtain ⟨s₂, hr₂, hopen⟩ := receiveChat_eq_ok.mp h
      obtain ⟨-, rfl⟩ := Prod.mk.inj (hr.symm.trans hr₂)
      exact Or.inr ⟨p, _, s', rfl, hopen, rfl⟩

/-! ## 2. The calls of a client -/

/-- What a successful `SendMessage` did: the session after it, the message, and what it added to
the history. -/
inductive Sent (c : Crypto B) (userId peer : B) (s : SessionState B) (p : B) :
    SessionState B → ChatMessage B → List (Event B) → Prop
  | plain (hd : ¬ s.ratchetDue) (run : SealChatRun c userId peer s {} p) :
    Sent c userId peer s p run.session run.message
      [.seal run.messageKey (nonceFromCounter s.sendCounter) p run.ad]
  | ratchet (step : SendRatchetRun c s)
    (run : SealChatRun c userId peer step.session step.header p) :
    Sent c userId peer s p run.session run.message
      [.seal run.messageKey (nonceFromCounter 0) p run.ad, .x25519 step.newRatchet]

/-- What a `SendMessage` that did not get as far as sealing did: nothing, or a ratchet step. -/
inductive Stalled (c : Crypto B) (s : SessionState B) : SessionState B → List (Event B) → Prop
  | idle {events : List (Event B)} (h : ∀ e ∈ events, ∃ pair, e = .x25519 pair) :
    Stalled c s s events
  | ratcheted (step : SendRatchetRun c s) : Stalled c s step.session [.x25519 step.newRatchet]

/-- The client in `w'` differs from the one in `w` in its session with `peer` only. -/
structure SessionStep (peer : B) (s' : SessionState B) (events : List (Event B))
    (w w' : World B S) : Prop where
  session : w'.client.sessionsByPeer.lookup peer = some s'
  userId : w'.client.userId = w.client.userId
  trace : w'.trace = events ++ w.trace
  server : w'.server = w.server
  trusted : w'.client.trustedPeerIdentities = w.client.trustedPeerIdentities
  peers : w'.client.sessionsByPeer.keys ⊆ insert peer w.client.sessionsByPeer.keys
  disk : w'.diskOutcome w'.diskUses = w.diskOutcome w.diskUses

theorem Client.keys_withSession (cl : Client B) (peer : B) (s : SessionState B) :
    (cl.withSession peer s).sessionsByPeer.keys = insert peer cl.sessionsByPeer.keys :=
  Finmap.keys_insert ..

theorem saveLocalState_frame (w : World B S) :
    (saveLocalState w).2.client = w.client ∧ (saveLocalState w).2.trace = w.trace ∧
      (saveLocalState w).2.server = w.server := by
  let I : World B S → Prop := fun w' =>
    w'.client = w.client ∧ w'.trace = w.trace ∧ w'.server = w.server
  have hall : Proc.Preserves I saveLocalState := by
    refine .bind .get fun w' => .bind (.require _ _) fun _ => .bind (.require _ _) fun _ => ?_
    refine .bind (.modify fun _ h => h) fun _ => ?_
    split
    · exact .modify fun _ h => h
    · exact .fail _
    · exact .bind (.modify fun _ h => h) fun _ => .fail _
  exact hall w ⟨rfl, rfl, rfl⟩

/-- Whether they succeed or not, enqueueing and saving leave the client and the history
alone. -/
theorem enqueueAndSave_frame (server : ServerApi B S) (peer : B) (envelope : Envelope B)
    (w : World B S) :
    (enqueueAndSave server peer envelope w).2.client = w.client ∧
      (enqueueAndSave server peer envelope w).2.trace = w.trace ∧
      (enqueueAndSave server peer envelope w).2.server =
        (server.enqueueEnvelope peer envelope w.server).2 := by
  rcases hr : server.enqueueEnvelope peer envelope w.server with ⟨e | u, s⟩
  · rw [enqueueAndSave, Proc.bind_error (callServer_of_eq hr)]
    exact ⟨rfl, rfl, rfl⟩
  · have h := saveLocalState_frame { w with server := s }
    rw [enqueueAndSave, Proc.bind_ok (callServer_of_eq hr)]
    rcases hs : saveLocalState { w with server := s } with ⟨e | u, w'⟩
    · rw [hs] at h
      rw [Proc.within_error hs]
      exact h
    · rw [hs] at h
      rw [Proc.within_ok hs]
      exact h

/-- `SendMessage` stalls with an error, or it ends with `enqueueAndSave` of a sealed message. -/
theorem sendMessage_cases {peer : B} {s : SessionState B} {w : World B S}
    (hs : w.client.sessionsByPeer.lookup peer = some s) (server : ServerApi B S) (p : B) :
    (∃ e w' s' events, sendMessage c server peer p w = (.error e, w') ∧ Stalled c s s' events ∧
      SessionStep peer s' events w w') ∨
    ∃ w₁ s' m events, Sent c w.client.userId peer s p s' m events ∧
      SessionStep peer s' events w w₁ ∧
      sendMessage c server peer p w = enqueueAndSave server peer (.fromChat m) w₁ := by
  have hseal : sendMessage c server peer p w = (sealChat c peer s p >>= fun m =>
      enqueueAndSave server peer (.fromChat m)) w := by
    rw [sendMessage, Proc.get_bind_apply, hs]
  have hchat : sealChat c peer s p w = (sendRatchet c peer s >>= fun step =>
      sealStep c w.client.userId peer step p) w := by
    rw [sealChat, Proc.get_bind_apply]
  -- the client itself has not changed
  have hidle : ∀ n es, SessionStep peer s es w { w with drawn := n, trace := es ++ w.trace } :=
    fun _ _ => ⟨hs, rfl, rfl, rfl, rfl, Finset.subset_insert _ _, rfl⟩
  rw [hseal]
  rcases sendRatchet_cases (c := c) peer s w with
    ⟨hd, hr⟩ | ⟨sr, -, hr⟩ | ⟨e, pair, _, _, hr⟩ | ⟨e, hr⟩
  · rw [Proc.bind_ok hr] at hchat
    rcases sealStep_cases (c := c) w.client.userId peer (s, {}) p w with ⟨run, hrun⟩ | ⟨e, he⟩
    · refine Or.inr ⟨_, _, _, _, .plain hd run, ?_, Proc.bind_ok (hchat.trans hrun) _⟩
      exact ⟨Client.lookup_withSession .., rfl, rfl, rfl, rfl, (Client.keys_withSession ..).subset,
        rfl⟩
    · exact Or.inl ⟨e, w, s, [], Proc.bind_error (hchat.trans he) _,
        .idle (List.forall_mem_nil _), hidle _ _⟩
  · rw [Proc.bind_ok hr] at hchat
    rcases sealStep_cases (c := c) w.client.userId peer (sr.session, sr.header) p
        { w with
          drawn := w.drawn + 1
          trace := .x25519 sr.newRatchet :: w.trace
          client := w.client.withSession peer sr.session } with ⟨run, hrun⟩ | ⟨e, he⟩
    · refine Or.inr ⟨_, _, _, _, .ratchet sr run, ?_, Proc.bind_ok (hchat.trans hrun) _⟩
      refine ⟨Client.lookup_withSession .., rfl, rfl, rfl, rfl, ?_, rfl⟩
      dsimp only
      rw [Client.keys_withSession, Client.keys_withSession, Finset.insert_idem]
    · exact Or.inl ⟨e, _, _, _, Proc.bind_error (hchat.trans he) _, .ratcheted sr,
        Client.lookup_withSession .., rfl, rfl, rfl, rfl, (Client.keys_withSession ..).subset,
        rfl⟩
  · rw [Proc.bind_error hr] at hchat
    exact Or.inl ⟨e, _, s, [.x25519 pair], Proc.bind_error hchat _, .idle (by simp), hidle _ _⟩
  · rw [Proc.bind_error hr] at hchat
    exact Or.inl ⟨e, _, s, [], Proc.bind_error hchat _, .idle (List.forall_mem_nil _), hidle _ _⟩

theorem sendMessage_ok {server : ServerApi B S} {peer p : B} {w w' : World B S}
    (h : sendMessage c server peer p w = (.ok (), w')) :
    ∃ s s' m events, w.client.sessionsByPeer.lookup peer = some s ∧
      Sent c w.client.userId peer s p s' m events ∧
      w'.client.sessionsByPeer.lookup peer = some s' ∧ w'.client.userId = w.client.userId ∧
      w'.trace = events ++ w.trace ∧
      server.enqueueEnvelope peer (.fromChat m) w.server = (.ok (), w'.server) := by
  rcases hl : w.client.sessionsByPeer.lookup peer with _ | s
  · rw [sendMessage, Proc.get_bind_apply, hl] at h
    cases (Prod.mk.inj h).1
  rcases sendMessage_cases (c := c) hl server p with
    ⟨e, _, _, _, he, -⟩ | ⟨w₁, s', m, events, hsent, hstep, hend⟩
  · rw [h] at he
    cases (Prod.mk.inj he).1
  · obtain ⟨henq, hclient, htrace, -⟩ := enqueueAndSave_ok (hend.symm.trans h)
    rw [hstep.server] at henq
    rw [hclient, htrace]
    exact ⟨s, s', m, events, rfl, hsent, hstep.session, hstep.userId, hstep.trace, henq⟩

/-- The fields of a message that say whose it is. -/
structure ChatMessage.Addressed (m : ChatMessage B) (fromUser toUser sessionId : B) : Prop where
  fromUser : m.fromUser = fromUser
  toUser : m.toUser = toUser
  sessionId : m.sessionId = sessionId

theorem Sent.addressed {userId peer p : B} {s s' : SessionState B} {m : ChatMessage B}
    {events : List (Event B)} (h : Sent c userId peer s p s' m events) :
    m.Addressed userId peer s.sessionId := by
  cases h <;> exact ⟨rfl, rfl, rfl⟩

/-- `HandleChatMessage` on a message of the session is `receiveChat` on that session. -/
theorem handleChatMessage_eq {m : ChatMessage B} {w : World B S} {s : SessionState B}
    {peer : B} (hm : m.Addressed peer w.client.userId s.sessionId)
    (hs : w.client.sessionsByPeer.lookup peer = some s) :
    handleChatMessage c m w = ((receiveChat c m s).1, { w with
      trace := .receivedChat m :: w.trace
      client := w.client.withSession peer (receiveChat c m s).2 }) := by
  obtain ⟨rfl, hto, hid⟩ := hm
  rw [handleChatMessage, record, Proc.modify_bind_apply, Proc.get_bind_apply,
    Proc.require_pos hto, Proc.pure_bind, hs]
  dsimp only
  rw [Proc.require_pos hid.symm, Proc.pure_bind]
  rfl

/-- `HandleChatMessage` rejects a message before it looks at a session, or it is `receiveChat`
on the session it finds. -/
theorem handleChatMessage_cases (c : Crypto B) (m : ChatMessage B) (w : World B S) :
    (∃ e, handleChatMessage c m w =
      (.error e, { w with trace := .receivedChat m :: w.trace })) ∨
    ∃ s, w.client.sessionsByPeer.lookup m.fromUser = some s ∧
      m.Addressed m.fromUser w.client.userId s.sessionId ∧
      handleChatMessage c m w = ((receiveChat c m s).1, { w with
        trace := .receivedChat m :: w.trace
        client := w.client.withSession m.fromUser (receiveChat c m s).2 }) := by
  by_cases hto : m.toUser = w.client.userId
  swap
  · refine Or.inl ⟨"chat message recipient mismatch", ?_⟩
    rw [handleChatMessage, record, Proc.modify_bind_apply, Proc.get_bind_apply, Proc.require,
      if_neg hto]
    rfl
  rcases hl : w.client.sessionsByPeer.lookup m.fromUser with _ | s
  · refine Or.inl ⟨"no session for incoming chat message", ?_⟩
    rw [handleChatMessage, record, Proc.modify_bind_apply, Proc.get_bind_apply,
      Proc.require_pos hto, Proc.pure_bind, hl]
    rfl
  · by_cases hid : s.sessionId = m.sessionId
    · have haddr : m.Addressed m.fromUser w.client.userId s.sessionId := ⟨rfl, hto, hid.symm⟩
      exact Or.inr ⟨s, rfl, haddr, handleChatMessage_eq haddr hl⟩
    · refine Or.inl ⟨"session id mismatch", ?_⟩
      rw [handleChatMessage, record, Proc.modify_bind_apply, Proc.get_bind_apply,
        Proc.require_pos hto, Proc.pure_bind, hl]
      dsimp only
      rw [Proc.require, if_neg hid]
      rfl

end PqChat
