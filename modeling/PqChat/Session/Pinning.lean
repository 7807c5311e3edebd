/-
# Identity pinning

The identity of a peer is written down from two places -- a fetched bundle and an incoming
handshake -- BEFORE anyone has looked at it, and it is used in two places, when a session is
started and when one is accepted.  Between the two stands the user, who compares a safety
number.

Three facts about any run of a client, whatever the server answers and whatever messages come
in: what has been written down stays as it is, it is marked as verified only by a call with the
right number, and every session goes back to a handshake under an identity that was verified
before the call that made the handshake.
-/
import PqChat.Session.Agreement

set_option linter.unusedSectionVars false

namespace PqChat

open ByteString

variable {B S : Type} [ByteString B] [DecidableEq B]

/-! ## 1. Identities -/

/-- The three keys of an identity are the same. -/
structure PeerIdentity.SameKeys (id id' : PeerIdentity B) : Prop where
  sign : id'.signPublicKey = id.signPublicKey
  mldsa : id'.mldsaPublicKey = id.mldsaPublicKey
  dh : id'.dhPublicKey = id.dhPublicKey

/-- The identity is the one that is pinned for the peer, and it is verified. -/
def Client.Trusts (cl : Client B) (peer : B) (id : PeerIdentity B) : Prop :=
  cl.trustedPeerIdentities.lookup peer = some id ∧ id.verified = true

/-- No pin is lost: keys stay, and what is verified stays verified. -/
def Client.KeepsPins (cl cl' : Client B) : Prop :=
  ∀ peer id, cl.trustedPeerIdentities.lookup peer = some id →
    ∃ id', cl'.trustedPeerIdentities.lookup peer = some id' ∧ id.SameKeys id' ∧
      (id.verified = true → id'.verified = true)

theorem Client.KeepsPins.refl (cl : Client B) : cl.KeepsPins cl :=
  fun _ id h => ⟨id, h, ⟨rfl, rfl, rfl⟩, fun hv => hv⟩

theorem Client.KeepsPins.trans {cl₁ cl₂ cl₃ : Client B} (h : cl₁.KeepsPins cl₂)
    (h' : cl₂.KeepsPins cl₃) : cl₁.KeepsPins cl₃ := by
  intro peer id hid
  obtain ⟨id₂, hid₂, hk₂, hv₂⟩ := h peer id hid
  obtain ⟨id₃, hid₃, hk₃, hv₃⟩ := h' peer id₂ hid₂
  exact ⟨id₃, hid₃, ⟨hk₃.sign.trans hk₂.sign, hk₃.mldsa.trans hk₂.mldsa, hk₃.dh.trans hk₂.dh⟩,
    fun hv => hv₃ (hv₂ hv)⟩

section Moves

variable {P : Crypto B → Prop} {v : Observer S} {w w' : World B S}

/-- One move: the table of identities is as it was, or one entry is new or newly verified. -/
theorem Move.identities (h : Move P v w w') :
    w'.client.trustedPeerIdentities = w.client.trustedPeerIdentities ∨
    (∃ peer id, w.client.trustedPeerIdentities.lookup peer = none ∧ id.verified = false ∧
      w'.client.trustedPeerIdentities = w.client.trustedPeerIdentities.insert peer id) ∨
    v.verify ∧ ∃ peer id, w.client.trustedPeerIdentities.lookup peer = some id ∧
      w'.client.trustedPeerIdentities =
        w.client.trustedPeerIdentities.insert peer { id with verified := true } := by
  cases h with
  | rememberPeer peer id h hv => exact Or.inr (Or.inl ⟨peer, id, h, hv, rfl⟩)
  | verifyPeer peer id h hv => exact Or.inr (Or.inr ⟨hv, peer, id, h, rfl⟩)
  | _ => exact Or.inl rfl

theorem Move.keepsPins (h : Move P v w w') : w.client.KeepsPins w'.client := by
  intro peer id hid
  rcases h.identities with he | ⟨q, id', hq, -, he⟩ | ⟨-, q, id', hq, he⟩
  · exact ⟨id, by rw [he, hid], ⟨rfl, rfl, rfl⟩, fun hv => hv⟩
  · have hne : peer ≠ q := by
      rintro rfl
      rw [hid] at hq
      cases hq
    exact ⟨id, by rw [he, Finmap.lookup_insert_of_ne _ hne, hid], ⟨rfl, rfl, rfl⟩, fun hv => hv⟩
  · by_cases hp : peer = q
    · subst hp
      obtain rfl := Option.some.inj (hid.symm.trans hq)
      exact ⟨{ id with verified := true }, by rw [he, Finmap.lookup_insert], ⟨rfl, rfl, rfl⟩,
        fun _ => rfl⟩
    · exact ⟨id, by rw [he, Finmap.lookup_insert_of_ne _ hp, hid], ⟨rfl, rfl, rfl⟩, fun hv => hv⟩

theorem Moves.keepsPins (h : Moves P v w w') : w.client.KeepsPins w'.client := by
  induction h with
  | refl => exact .refl _
  | tail _ hm ih => exact ih.trans hm.keepsPins

/-- Without a call of `VerifyPeerSafetyNumber`, nothing becomes verified. -/
theorem Moves.trusts (h : Moves P v w w') (hv : ¬ v.verify) {peer : B} {id : PeerIdentity B}
    (hid : w'.client.Trusts peer id) : w.client.Trusts peer id := by
  induction h with
  | refl => exact hid
  | tail _ hm ih =>
    refine ih ?_
    rcases hm.identities with he | ⟨q, id', hq, hver, he⟩ | ⟨hver, -⟩
    · rwa [Client.Trusts, he] at hid
    · by_cases hp : peer = q
      · subst hp
        rw [Client.Trusts, he, Finmap.lookup_insert] at hid
        obtain ⟨hl, ht⟩ := hid
        rw [← Option.some.inj hl, hver] at ht
        cases ht
      · rwa [Client.Trusts, he, Finmap.lookup_insert_of_ne _ hp] at hid
    · exact absurd hver hv

/-! ## 2. Sessions -/

/-- What is done to a session once it is there. -/
inductive SessionState.Advance (P : Crypto B → Prop) :
    SessionState B → SessionState B → Prop
  | ratchet {c : Crypto B} {s : SessionState B} (hc : P c) (run : SendRatchetRun c s) :
    Advance P s run.session
  | sent {c : Crypto B} {s : SessionState B} {userId peer plaintext : B}
    {header : MessageHeader B} (hc : P c)
    (run : SealChatRun c userId peer s header plaintext) : Advance P s run.session
  | received {c : Crypto B} {s : SessionState B} (hc : P c) (message : ChatMessage B) :
    Advance P s (receiveChat c message s).2

/-- The events contain a handshake with the peer, under this identity, that leaves this
session. -/
inductive Handshake (P : Crypto B → Prop) (events : List (Event B)) (peer : B)
    (id : PeerIdentity B) : SessionState B → Prop
  | initiated {c : Crypto B} {cl : Client B} {plaintext : B} {bundle : PrekeyBundle B} (hc : P c)
    (run : SealedInitiation c cl peer bundle plaintext)
    (he : .initiated run.message plaintext ∈ events)
    (sign : id.signPublicKey = bundle.identitySignPublicKey)
    (mldsa : id.mldsaPublicKey = bundle.identityMldsaPublicKey)
    (dh : id.dhPublicKey = bundle.identityDhPublicKey) :
    Handshake P events peer id run.session
  | accepted {c : Crypto B} {cl : Client B} {message : InitialMessage B} (hc : P c)
    (run : ResponderRun c cl message)
    (he : .accepted message run.ec run.pq run.plaintext ∈ events)
    (hfrom : message.fromUser = peer)
    (sign : id.signPublicKey = message.initiatorIdentitySignPublicKey)
    (mldsa : id.mldsaPublicKey = message.initiatorIdentityMldsaPublicKey)
    (dh : id.dhPublicKey = message.initiatorIdentityDhPublicKey) :
    Handshake P events peer id (responderSession cl message run.keys run.nextChainKey)

theorem Handshake.mono {events events' : List (Event B)} {peer : B} {id : PeerIdentity B}
    {s : SessionState B} (h : Handshake P events peer id s) (hsub : events ⊆ events') :
    Handshake P events' peer id s := by
  cases h with
  | initiated hc run he sign mldsa dh => exact .initiated hc run (hsub he) sign mldsa dh
  | accepted hc run he hfrom sign mldsa dh =>
    exact .accepted hc run (hsub he) hfrom sign mldsa dh

/-- A session goes back to one that was there before, or to a handshake in between. -/
def SessionOrigin (P : Crypto B → Prop) (v : Observer S) (w w' : World B S) (peer : B)
    (s : SessionState B) : Prop :=
  (∃ s₀, w.client.sessionsByPeer.lookup peer = some s₀ ∧
    Relation.ReflTransGen (SessionState.Advance P) s₀ s) ∨
  ∃ w₁ id s₀ events, Moves P v w w₁ ∧ w₁.client.Trusts peer id ∧
    w'.trace = events ++ w.trace ∧ Handshake P events peer id s₀ ∧
    Relation.ReflTransGen (SessionState.Advance P) s₀ s

theorem SessionOrigin.advance {w₁ : World B S} {peer : B} {s s' : SessionState B}
    (h : SessionOrigin P v w w₁ peer s) (ht : w₁.trace <:+ w'.trace)
    (hs : Relation.ReflTransGen (SessionState.Advance P) s s') :
    SessionOrigin P v w w' peer s' := by
  rcases h with ⟨s₀, h₀, hadv⟩ | ⟨w₂, id, s₀, events, hm, htrust, htrace, hh, hadv⟩
  · exact Or.inl ⟨s₀, h₀, hadv.trans hs⟩
  · obtain ⟨es, hes⟩ := ht
    refine Or.inr ⟨w₂, id, s₀, es ++ events, hm, htrust, ?_, ?_, hadv.trans hs⟩
    · rw [← hes, htrace, List.append_assoc]
    · exact hh.mono (List.subset_append_right _ _)

theorem Moves.sessionOrigin (h : Moves P v w w') {peer : B} {s : SessionState B}
    (hs : w'.client.sessionsByPeer.lookup peer = some s) : SessionOrigin P v w w' peer s := by
  induction h generalizing s with
  | refl => exact Or.inl ⟨s, hs, .refl⟩
  | @tail w₁ w₂ hm₁ hm ih =>
    have ht := hm.trace_suffix
    -- an update of the session with `q`
    have hupdate : ∀ {q s₁ s₂}, w₂.client.sessionsByPeer.lookup peer =
        (w₁.client.withSession q s₂).sessionsByPeer.lookup peer →
        w₁.client.sessionsByPeer.lookup q = some s₁ → SessionState.Advance P s₁ s₂ →
        SessionOrigin P v w w₂ peer s := by
      intro q s₁ s₂ hl hq hadv
      rw [hs] at hl
      by_cases hp : peer = q
      · subst hp
        rw [Client.lookup_withSession] at hl
        obtain rfl := Option.some.inj hl
        exact (ih hq).advance ht (.single hadv)
      · rw [Client.lookup_withSession_ne hp] at hl
        exact (ih hl.symm).advance ht .refl
    cases hm with
    | ratchet hc hq run => exact hupdate rfl hq (.ratchet hc run)
    | sealChat hc hq hd run => exact hupdate rfl hq (.sent hc run)
    | receiveChat hc hmsg hq => exact hupdate rfl hq (.received hc _)
    | @initiate c q plaintext bundle hc hb run hid =>
      by_cases hp : peer = q
      · subst hp
        rw [Client.lookup_withSession] at hs
        obtain rfl := Option.some.inj hs
        obtain ⟨id, hl, hsign, hmldsa, hdh, hver⟩ := hid
        obtain ⟨es, hes⟩ := Moves.trace_suffix hm₁
        refine Or.inr ⟨w₁, id, _, run.events ++ es, hm₁, ⟨hl, hver⟩, ?_,
          .initiated hc run ?_ hsign hmldsa hdh, .refl⟩
        · rw [← hes, List.append_assoc]
        · exact List.mem_append_left _ (List.mem_cons_self ..)
      · rw [Client.lookup_withSession_ne hp] at hs
        exact (ih hs).advance ht .refl
    | @accept c message hc hmsg run =>
      by_cases hp : peer = message.fromUser
      · subst hp
        obtain rfl := Option.some.inj ((Finmap.lookup_insert _).symm.trans hs)
        obtain ⟨id, hl, hsign, hmldsa, hdh, hver⟩ := run.identity_ok
        obtain ⟨es, hes⟩ := Moves.trace_suffix hm₁
        refine Or.inr ⟨w₁, id, _, _ :: es, hm₁, ⟨hl, hver⟩, ?_,
          .accepted hc run (List.mem_cons_self ..) rfl hsign hmldsa hdh, .refl⟩
        rw [← hes]
        rfl
      · exact (ih ((Finmap.lookup_insert_of_ne _ hp).symm.trans hs)).advance ht .refl
    | _ => exact (ih hs).advance ht .refl

end Moves

/-! ## 3. Calls -/

section Calls

variable {P : Crypto B → Prop} {c : Crypto B}

/-- `VerifyPeerSafetyNumber` changes nothing, or it is called with the number of the pinned
identity and marks it as verified. -/
theorem verifyPeerSafetyNumber_cases (peer number : B) (w : World B S) :
    (verifyPeerSafetyNumber c peer number w).2 = w ∨
    ∃ id, w.client.trustedPeerIdentities.lookup peer = some id ∧
      computeSafetyNumber c peer id.signPublicKey id.mldsaPublicKey id.dhPublicKey = .ok number ∧
      (verifyPeerSafetyNumber c peer number w).2.client =
        { w.client with
          trustedPeerIdentities :=
            w.client.trustedPeerIdentities.insert peer { id with verified := true } } := by
  rw [verifyPeerSafetyNumber, Proc.get_bind_apply]
  rcases hl : w.client.trustedPeerIdentities.lookup peer with _ | id
  · exact Or.inl rfl
  dsimp only
  rcases hn : computeSafetyNumber c peer id.signPublicKey id.mldsaPublicKey id.dhPublicKey with
    e | computed
  · exact Or.inl rfl
  rw [Proc.ofExcept_ok_bind]
  by_cases he : computed = number
  · subst he
    refine Or.inr ⟨id, rfl, hn, ?_⟩
    rw [Proc.require_pos rfl, Proc.pure_bind, modifyClient, Proc.modify_bind_apply]
    have hframe : Proc.Preserves (fun w' : World B S => w'.client =
        { w.client with
          trustedPeerIdentities :=
            w.client.trustedPeerIdentities.insert peer { id with verified := true } })
        (Proc.within "persist local state failed: " saveLocalState) := by
      refine .within _ (.bind .get fun w' => .bind (.require _ _) fun _ =>
        .bind (.require _ _) fun _ => .bind (.modify fun _ h => h) fun _ => ?_)
      split
      · exact .modify fun _ h => h
      · exact .fail _
      · exact .bind (.modify fun _ h => h) fun _ => .fail _
    exact hframe _ rfl
  · refine Or.inl ?_
    rw [Proc.require, if_neg he]
    rfl

/-- The observer of a call that is not one of `VerifyPeerSafetyNumber`. -/
def Observer.unverifying : Observer S :=
  ⟨fun _ _ => True, fun _ _ => True, False, fun _ => trivial⟩

theorem Op.run_unverifying (hc : P c) (server : ServerApi B S) {op : Op B}
    (hop : ¬ op.IsVerify) (w : World B S) :
    Moves P .unverifying w (op.run c server w).2 :=
  op.run_moves hc ⟨fun _ _ => trivial, fun _ _ => trivial, fun _ _ _ => trivial⟩
    (fun _ _ _ _ => trivial) (fun h => (hop h).elim) w

/-- The client after `VerifyPeerSafetyNumber`. -/
theorem Op.run_verifyPeer (server : ServerApi B S) (peer number : B) (w : World B S) :
    ((Op.verifyPeer peer number).run c server w).2 =
      (verifyPeerSafetyNumber c peer number w).2 := by
  have hrun : ∀ x : Proc (World B S) Unit,
      ((x >>= fun _ => pure ([] : List B)) w).2 = (x w).2 := by
    intro x
    rcases hx : x w with ⟨e | u, w'⟩
    · rw [Proc.bind_error hx]
    · rw [Proc.bind_ok hx]
      rfl
  exact hrun _

/-- **A call that verifies a peer** is one of `VerifyPeerSafetyNumber`, with the number of the
identity that is pinned. -/
theorem Op.run_trusts (hc : P c) (server : ServerApi B S) (op : Op B) {w : World B S} {peer : B}
    {id : PeerIdentity B} (hid : (op.run c server w).2.client.Trusts peer id) :
    w.client.Trusts peer id ∨ ∃ number, op = .verifyPeer peer number ∧
      computeSafetyNumber c peer id.signPublicKey id.mldsaPublicKey id.dhPublicKey = .ok number ∧
      ∃ id₀, w.client.trustedPeerIdentities.lookup peer = some id₀ ∧ id₀.SameKeys id := by
  by_cases hop : op.IsVerify
  · cases op with
    | verifyPeer q number =>
      rw [Op.run_verifyPeer] at hid
      rcases verifyPeerSafetyNumber_cases (c := c) q number w with he | ⟨id₀, hl, hn, he⟩
      · rw [he] at hid
        exact Or.inl hid
      · rw [he] at hid
        by_cases hp : peer = q
        · subst hp
          rw [Client.Trusts, Finmap.lookup_insert] at hid
          obtain rfl := Option.some.inj hid.1
          exact Or.inr ⟨number, rfl, hn, id₀, hl, ⟨rfl, rfl, rfl⟩⟩
        · rw [Client.Trusts, Finmap.lookup_insert_of_ne _ hp] at hid
          exact Or.inl hid
    | publish => exact hop.elim
    | initiate => exact hop.elim
    | send => exact hop.elim
    | processInbox => exact hop.elim
    | handleInitial => exact hop.elim
    | handleChat => exact hop.elim
    | refill => exact hop.elim
  · exact Or.inl ((Op.run_unverifying hc server hop w).trusts (fun h => h) hid)

/-- **A call that creates a session** finds the identity of the peer verified, and makes the
handshake with the keys of that identity. -/
theorem Op.run_session (hc : P c) (server : ServerApi B S) (op : Op B) {w : World B S} {peer : B}
    {s : SessionState B} (hs : (op.run c server w).2.client.sessionsByPeer.lookup peer = some s) :
    (∃ s₀, w.client.sessionsByPeer.lookup peer = some s₀ ∧
      Relation.ReflTransGen (SessionState.Advance P) s₀ s) ∨
    ∃ id s₀ events, w.client.Trusts peer id ∧
      (op.run c server w).2.trace = events ++ w.trace ∧ Handshake P events peer id s₀ ∧
      Relation.ReflTransGen (SessionState.Advance P) s₀ s := by
  by_cases hop : op.IsVerify
  · cases op with
    | verifyPeer q number =>
      rw [Op.run_verifyPeer] at hs
      rcases verifyPeerSafetyNumber_cases (c := c) q number w with he | ⟨id₀, -, -, he⟩
      · rw [he] at hs
        exact Or.inl ⟨s, hs, .refl⟩
      · rw [he] at hs
        exact Or.inl ⟨s, hs, .refl⟩
    | publish => exact hop.elim
    | initiate => exact hop.elim
    | send => exact hop.elim
    | processInbox => exact hop.elim
    | handleInitial => exact hop.elim
    | handleChat => exact hop.elim
    | refill => exact hop.elim
  · rcases (Op.run_unverifying hc server hop w).sessionOrigin hs with
      hold | ⟨w₁, id, s₀, events, hm, htrust, htrace, hh, hadv⟩
    · exact Or.inl hold
    · exact Or.inr ⟨id, s₀, events, hm.trusts (fun h => h) htrust, htrace, hh, hadv⟩

end Calls

/-! ## 4. Runs -/

/-- A call of a run, with the part of the run before it and the part after it. -/
structure CallOf (P : Crypto B → Prop) (w₀ w : World B S) (c : Crypto B)
    (server : ServerApi B S) (op : Op B) (w₁ : World B S) : Prop where
  provider : P c
  before : Process P w₀ w₁
  after : Process P (op.run c server w₁).2 w

/-- **Identity pinning.**  In every run, whatever the server answers and whatever comes in:
pinned keys stay, an identity that has become verified was verified by a call with its safety
number, and every session that has been stored was made by a call that found the identity of
the peer verified, in a handshake with the pinned keys. -/
theorem identity_pinning {P : Crypto B → Prop} {w₀ w : World B S} (h : Process P w₀ w) :
    w₀.client.KeepsPins w.client ∧
    (∀ peer id, w.client.Trusts peer id → w₀.client.Trusts peer id ∨
      ∃ c server number w₁, CallOf P w₀ w c server (.verifyPeer peer number) w₁ ∧
        computeSafetyNumber c peer id.signPublicKey id.mldsaPublicKey id.dhPublicKey =
          .ok number ∧
        ∃ id₀, w₁.client.trustedPeerIdentities.lookup peer = some id₀ ∧ id₀.SameKeys id) ∧
    ∀ peer s, w.client.sessionsByPeer.lookup peer = some s →
      (∃ s₀, w₀.client.sessionsByPeer.lookup peer = some s₀ ∧
        Relation.ReflTransGen (SessionState.Advance P) s₀ s) ∨
      ∃ c server op w₁ id s₀ events, CallOf P w₀ w c server op w₁ ∧ w₁.client.Trusts peer id ∧
        (op.run c server w₁).2.trace = events ++ w₁.trace ∧ Handshake P events peer id s₀ ∧
        Relation.ReflTransGen (SessionState.Advance P) s₀ s := by
  refine ⟨h.moves.keepsPins, ?_, ?_⟩
  · induction h with
    | refl => exact fun peer id hid => Or.inl hid
    | @op w c hc server op h ih =>
      intro peer id hid
      rcases op.run_trusts hc server hid with hold | ⟨number, rfl, hn, hsame⟩
      · rcases ih peer id hold with h₀ | ⟨c₁, server₁, n₁, w₁, hcall, hn, hsame⟩
        · exact Or.inl h₀
        · exact Or.inr ⟨c₁, server₁, n₁, w₁,
            ⟨hcall.provider, hcall.before, .op hc server op hcall.after⟩, hn, hsame⟩
      · exact Or.inr ⟨c, server, number, w, ⟨hc, h, .refl⟩, hn, hsame⟩
  · induction h with
    | refl => exact fun peer s hs => Or.inl ⟨s, hs, .refl⟩
    | @op w c hc server op h ih =>
      intro peer s hs
      rcases op.run_session hc server hs with
        ⟨s₁, hs₁, hadv⟩ | ⟨id, s₀, events, htrust, htrace, hh, hadv⟩
      · rcases ih peer s₁ hs₁ with
          ⟨s₀, hs₀, hadv₀⟩ | ⟨c₁, server₁, op₁, w₁, id, s₀, events, hcall, hrest⟩
        · exact Or.inl ⟨s₀, hs₀, hadv₀.trans hadv⟩
        · obtain ⟨htrust, htrace, hh, hadv₀⟩ := hrest
          exact Or.inr ⟨c₁, server₁, op₁, w₁, id, s₀, events,
            ⟨hcall.provider, hcall.before, .op hc server op hcall.after⟩, htrust, htrace, hh,
            hadv₀.trans hadv⟩
      · exact Or.inr ⟨c, server, op, w, id, s₀, events, ⟨hc, h, .refl⟩, htrust, htrace, hh, hadv⟩

namespace AliceBob

open Symbolic

theorem process_meet {w₀ w : World Str (List (Envelope Str))} (peer : Client Str)
    (h : Process (· = Crypto.symbolic) w₀ w) :
    Process (· = Crypto.symbolic) w₀ (meet w peer) := by
  have h₁ : Process (· = Crypto.symbolic) w₀
      ((Op.initiate peer.userId []).run Crypto.symbolic (towards peer) w).2 := by
    refine .op ?_ _ _ h
    rfl
  refine .op ?_ _ _ h₁
  rfl

/-- Alice has started a session with Bob. -/
@[irreducible] def started : World Str (List (Envelope Str)) :=
  ((Op.initiate (text "bob") (text "hello")).run Crypto.symbolic (towards bob.client) alice).2

theorem process_started : Process (· = Crypto.symbolic) alice₀ started := by
  have h : Process (· = Crypto.symbolic) alice₀ alice := by
    unfold alice
    exact process_meet _ .refl
  unfold started
  refine .op ?_ _ _ h
  rfl

end AliceBob

/-- Alice's session with Bob goes back to a call that found Bob's identity verified. -/
theorem identity_pinning_alice : ∃ s, AliceBob.started.client.sessionsByPeer.lookup
      (text "bob" : Symbolic.Str) = some s ∧
    ∃ c server op w₁ id s₀ events,
      CallOf (· = Crypto.symbolic) AliceBob.alice₀ AliceBob.started c server op w₁ ∧
      w₁.client.Trusts (text "bob") id ∧ (op.run c server w₁).2.trace = events ++ w₁.trace ∧
      Handshake (· = Crypto.symbolic) events (text "bob") id s₀ ∧
      Relation.ReflTransGen (SessionState.Advance (· = Crypto.symbolic)) s₀ s := by
  have hnone : AliceBob.alice₀.client.sessionsByPeer.lookup (text "bob" : Symbolic.Str) = none := by
    decide +kernel
  have hsome : (AliceBob.started.client.sessionsByPeer.lookup
    (text "bob" : Symbolic.Str)).isSome = true := by decide +kernel
  obtain ⟨s, hs⟩ := Option.isSome_iff_exists.mp hsome
  refine ⟨s, hs, ?_⟩
  rcases (identity_pinning AliceBob.process_started).2.2 (text "bob") s hs with ⟨s₀, h₀, -⟩ | h
  · rw [hnone] at h₀
    cases h₀
  · exact h

end PqChat
