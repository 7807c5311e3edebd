/-
# The keys of a client

Two facts about every client that is up, whatever its run was.

* Its identity and its signed prekeys never change (`Moves.sameIdentity`).
* Every private key it holds -- identity, signed prekeys, one-time pools, ratchet keys -- was
  returned by the provider's own generator together with the public key stored beside it, and
  the ids of a one-time pool are distinct (`Reach.genuine`).

The second is what the laws of a provider are stated for.
-/
import PqChat.Client.Run

set_option linter.unusedSectionVars false

namespace PqChat

variable {B S : Type} [ByteString B] [DecidableEq B]

/-! ## 1. The identity -/

/-- Two states of a client with one identity and one set of signed prekeys. -/
structure Client.SameIdentity (cl cl' : Client B) : Prop where
  userId : cl.userId = cl'.userId
  sign : cl.identitySignKey = cl'.identitySignKey
  mldsa : cl.identityMldsaKey = cl'.identityMldsaKey
  dh : cl.identityDhKey = cl'.identityDhKey
  spkEcPublic : cl.signedPrekeyEcPublic = cl'.signedPrekeyEcPublic
  spkEc : cl.signedPrekeyEcPrivate = cl'.signedPrekeyEcPrivate
  spkPqPublic : cl.signedPrekeyPqPublic = cl'.signedPrekeyPqPublic
  spkPq : cl.signedPrekeyPqPrivate = cl'.signedPrekeyPqPrivate

theorem Client.SameIdentity.rfl {cl : Client B} : cl.SameIdentity cl :=
  ⟨.refl _, .refl _, .refl _, .refl _, .refl _, .refl _, .refl _, .refl _⟩

theorem Client.SameIdentity.trans {x y z : Client B} (h : x.SameIdentity y)
    (h' : y.SameIdentity z) : x.SameIdentity z :=
  ⟨h.1.trans h'.1, h.2.trans h'.2, h.3.trans h'.3, h.4.trans h'.4, h.5.trans h'.5,
    h.6.trans h'.6, h.7.trans h'.7, h.8.trans h'.8⟩

theorem Move.sameIdentity {P : Crypto B → Prop} {v : Observer S} {w w' : World B S}
    (h : Move P v w w') : w.client.SameIdentity w'.client := by
  cases h <;> exact ⟨rfl, rfl, rfl, rfl, rfl, rfl, rfl, rfl⟩

/-- **No operation changes the identity or the signed prekeys.** -/
theorem Moves.sameIdentity {P : Crypto B → Prop} {v : Observer S} {w w' : World B S}
    (h : Moves P v w w') : w.client.SameIdentity w'.client := by
  induction h with
  | refl => exact .rfl
  | tail _ hm ih => exact ih.trans hm.sameIdentity

/-! ## 2. Receiving leaves the sending side alone -/

/-- The members of a session that belong to the sending direction. -/
structure SessionState.SameSendSide (s s' : SessionState B) : Prop where
  sessionId : s'.sessionId = s.sessionId
  peerUser : s'.peerUser = s.peerUser
  sendChainKey : s'.sendChainKey = s.sendChainKey
  sendCounter : s'.sendCounter = s.sendCounter
  localRatchetKey : s'.localRatchetKey = s.localRatchetKey

/-- What a call of `receiveChat`, failed or not, leaves as the remote ratchet key: the old one,
or the one of the message. -/
theorem receiveChat_frame (c : Crypto B) (message : ChatMessage B) (s : SessionState B) :
    s.SameSendSide (receiveChat c message s).2 ∧
      ((receiveChat c message s).2.remoteRatchetPublic = s.remoteRatchetPublic ∨
        message.header.senderRatchetPublicKey =
          some (receiveChat c message s).2.remoteRatchetPublic) := by
  let I : SessionState B → Prop := fun s' => s.SameSendSide s' ∧
    (s'.remoteRatchetPublic = s.remoteRatchetPublic ∨
      message.header.senderRatchetPublicKey = some s'.remoteRatchetPublic)
  have hratchet : Proc.Preserves I (recvRatchet c message) := by
    refine .bind .get fun cur => ?_
    rcases hk : message.header.senderRatchetPublicKey with _ | newRemote
    · exact .pure _
    · refine .ite (.pure _) (.bind (.ofExcept _ _) fun dh => .bind (.ofExcept _ _) fun mixed => ?_)
      exact .modify fun s' h => ⟨⟨h.1.1, h.1.2, h.1.3, h.1.4, h.1.5⟩, Or.inr hk⟩
  have hall : Proc.Preserves I (receiveChat c message) := by
    refine .bind hratchet fun _ => .bind .get fun cur => .bind (.require _ _) fun _ => ?_
    refine .bind (.ofExcept _ _) fun ad => .bind (.ofExcept _ _) fun opened => ?_
    exact .bind (.modify fun s' h => ⟨⟨h.1.1, h.1.2, h.1.3, h.1.4, h.1.5⟩, h.2⟩) fun _ => .pure _
  exact hall s ⟨⟨rfl, rfl, rfl, rfl, rfl⟩, Or.inl rfl⟩

/-! ## 3. Genuine keys -/

/-- A one-time key whose two halves the generator returned together. -/
def OneTimeKey.Genuine (generate : Nat → Result (KeyPair B)) (k : OneTimeKey B) : Prop :=
  k.publicPart.publicKey = k.privatePart.publicKey ∧ ∃ n, generate n = .ok k.privatePart

/-- Every key pair of the client comes from the generator of its scheme. -/
structure Client.Genuine (c : Crypto B) (cl : Client B) : Prop where
  sign : ∃ n, c.ed25519Generate n = .ok cl.identitySignKey
  mldsa : ∃ n, c.mldsa65Generate n = .ok cl.identityMldsaKey
  dh : ∃ n, c.x25519Generate n = .ok cl.identityDhKey
  spkEc : ∃ n, c.x25519Generate n = .ok cl.signedPrekeyEcPrivate
  spkEc_public : cl.signedPrekeyEcPublic.publicKey = cl.signedPrekeyEcPrivate.publicKey
  spkPq : ∃ n, c.mlkem768Generate n = .ok cl.signedPrekeyPqPrivate
  spkPq_public : cl.signedPrekeyPqPublic.publicKey = cl.signedPrekeyPqPrivate.publicKey
  ec : ∀ k ∈ cl.oneTimeEcPool, k.Genuine c.x25519Generate
  pq : ∀ k ∈ cl.oneTimePqPool, k.Genuine c.mlkem768Generate
  ec_ids : (cl.oneTimeEcPool.map (·.publicPart.id)).Nodup
  pq_ids : (cl.oneTimePqPool.map (·.publicPart.id)).Nodup
  ratchet : ∀ peer s, cl.sessionsByPeer.lookup peer = some s →
    ∃ n, c.x25519Generate n = .ok s.localRatchetKey

namespace Client.Genuine

variable {c : Crypto B} {cl cl' : Client B}

/-- A change of the sessions only. -/
theorem of_sessions (h : cl.Genuine c) (hid : cl.SameIdentity cl')
    (hec : cl'.oneTimeEcPool = cl.oneTimeEcPool) (hpq : cl'.oneTimePqPool = cl.oneTimePqPool)
    (hs : ∀ peer s, cl'.sessionsByPeer.lookup peer = some s →
      ∃ n, c.x25519Generate n = .ok s.localRatchetKey) : cl'.Genuine c where
  sign := hid.sign ▸ h.sign
  mldsa := hid.mldsa ▸ h.mldsa
  dh := hid.dh ▸ h.dh
  spkEc := hid.spkEc ▸ h.spkEc
  spkEc_public := hid.spkEcPublic ▸ hid.spkEc ▸ h.spkEc_public
  spkPq := hid.spkPq ▸ h.spkPq
  spkPq_public := hid.spkPqPublic ▸ hid.spkPq ▸ h.spkPq_public
  ec := hec ▸ h.ec
  pq := hpq ▸ h.pq
  ec_ids := hec ▸ h.ec_ids
  pq_ids := hpq ▸ h.pq_ids
  ratchet := hs

theorem withSession (h : cl.Genuine c) {peer : B} {s : SessionState B}
    (hs : ∃ n, c.x25519Generate n = .ok s.localRatchetKey) :
    (cl.withSession peer s).Genuine c := by
  refine h.of_sessions ⟨rfl, rfl, rfl, rfl, rfl, rfl, rfl, rfl⟩ rfl rfl fun p s' hl => ?_
  by_cases hp : p = peer
  · subst hp
    rw [Client.lookup_withSession] at hl
    obtain rfl := Option.some.inj hl
    exact hs
  · rw [Client.lookup_withSession_ne hp] at hl
    exact h.ratchet p s' hl

end Client.Genuine

/-- Ids stay distinct when an unused one is added. -/
theorem nodup_ids_append {pool : List (OneTimeKey B)} {id : UInt32} {pair : KeyPair B}
    (h : (pool.map (·.publicPart.id)).Nodup) (hid : ∀ k ∈ pool, k.publicPart.id ≠ id) :
    ((pool ++ [OneTimeKey.make id pair]).map (·.publicPart.id)).Nodup := by
  rw [List.map_append, List.nodup_append]
  refine ⟨h, List.nodup_singleton _, ?_⟩
  intro x hx y hy
  obtain ⟨k, hk, rfl⟩ := List.mem_map.mp hx
  simp only [List.map_cons, List.map_nil, List.mem_singleton] at hy
  rw [hy]
  exact hid k hk

/-- No key with the id is left in the pool after it has been erased. -/
theorem id_ne_of_mem_erase {pool : List (OneTimeKey B)} {id : UInt32} {k : OneTimeKey B}
    (h : (pool.map (·.publicPart.id)).Nodup) (hk : k ∈ eraseOneTimeKey pool id) :
    k.publicPart.id ≠ id := by
  induction pool with
  | nil => cases hk
  | cons k₀ pool ih =>
    obtain ⟨hk₀, h'⟩ := List.nodup_cons.mp h
    by_cases he : k₀.publicPart.id = id
    · rw [eraseOneTimeKey, List.eraseP_cons_of_pos (by simpa using he)] at hk
      rw [← he]
      exact fun hid => hk₀ (List.mem_map.mpr ⟨k, hk, hid⟩)
    · rw [eraseOneTimeKey, List.eraseP_cons_of_neg (by simpa using he)] at hk
      rcases List.mem_cons.mp hk with rfl | hk
      · exact he
      · exact ih h' hk

theorem Move.genuine {P : Crypto B → Prop} {c : Crypto B} {v : Observer S} {w w' : World B S}
    (hP : ∀ d, P d → d.Refines c) (hm : Move P v w w') (h : w.client.Genuine c) :
    w'.client.Genuine c := by
  have hid := hm.sameIdentity
  cases hm with
  | env | enqueue | save | input | generate | generateKem => exact h
  | flags | rememberPeer | verifyPeer => exact h.of_sessions hid rfl rfl h.ratchet
  | addEc hc hgen h0 hfree =>
    refine ⟨h.1, h.2, h.3, h.4, h.5, h.6, h.7, ?_, h.9, ?_, h.11, h.12⟩
    · intro k hk
      rcases List.mem_append.mp hk with hk | hk
      · exact h.ec k hk
      · rw [List.mem_singleton.mp hk]
        exact ⟨rfl, _, (hP _ hc).x25519Generate hgen⟩
    · exact nodup_ids_append h.ec_ids fun k hk he => hfree (Or.inl ⟨k, hk, he⟩)
  | addPq hc hgen h0 hfree =>
    refine ⟨h.1, h.2, h.3, h.4, h.5, h.6, h.7, h.8, ?_, h.10, ?_, h.12⟩
    · intro k hk
      rcases List.mem_append.mp hk with hk | hk
      · exact h.pq k hk
      · rw [List.mem_singleton.mp hk]
        exact ⟨rfl, _, (hP _ hc).mlkem768Generate hgen⟩
    · exact nodup_ids_append h.pq_ids fun k hk he => hfree (Or.inr ⟨k, hk, he⟩)
  | ratchet hc hs run => exact h.withSession ⟨_, (hP _ hc).x25519Generate run.generate_ok⟩
  | sealChat hc hs hd run =>
    obtain ⟨n, hn⟩ := h.ratchet _ _ hs
    exact h.withSession ⟨n, hn⟩
  | sealInitial => exact h
  | initiate hc hb run =>
    refine Client.Genuine.withSession (?_ : (w.client.remember _ _).Genuine _)
      ⟨_, (hP _ hc).x25519Generate run.eph_ok⟩
    exact h.of_sessions ⟨rfl, rfl, rfl, rfl, rfl, rfl, rfl, rfl⟩ rfl rfl h.ratchet
  | receiveChat hc hm hs =>
    refine h.withSession ?_
    rw [(receiveChat_frame _ _ _).1.localRatchetKey]
    exact h.ratchet _ _ hs
  | @accept _ message hc hm run =>
    have h1 : (w.client.withSession message.fromUser
        (responderSession w.client message run.keys run.nextChainKey)).Genuine c :=
      h.withSession h.spkEc
    refine ⟨h.1, h.2, h.3, h.4, h.5, h.6, h.7, ?_, ?_, ?_, ?_, h1.12⟩
    · exact fun k hk => h.ec k (List.mem_of_mem_eraseP hk)
    · exact fun k hk => h.pq k (List.mem_of_mem_eraseP hk)
    · exact h.ec_ids.sublist (List.eraseP_sublist.map _)
    · exact h.pq_ids.sublist (List.eraseP_sublist.map _)

/-- A genuine client is reloaded as it was, up to its replay guards. -/
theorem Client.Genuine.reload {c : Crypto B} {cl : Client B} (h : cl.Genuine c) :
    cl.reload.Genuine c := by
  have hmap : ∀ {generate : Nat → Result (KeyPair B)} {pool : List (OneTimeKey B)},
      (∀ k ∈ pool, k.Genuine generate) → pool.map OneTimeKey.reload = pool := by
    intro generate pool hpool
    refine (List.map_congr_left fun k hk => ?_).trans (List.map_id _)
    rw [OneTimeKey.reload, (hpool k hk).1]
    rfl
  refine h.of_sessions ⟨rfl, rfl, rfl, rfl, rfl, ?_, rfl, ?_⟩ (hmap h.ec) (hmap h.pq) h.ratchet
  · simp only [Client.reload, h.spkEc_public]
  · simp only [Client.reload, h.spkPq_public]

theorem IdentityRun.genuine {c d : Crypto B} (hd : d.Refines c) (run : IdentityRun d)
    (userId : B) : (run.install (Client.blank userId)).Genuine c where
  sign := ⟨_, hd.ed25519Generate run.signKey_ok⟩
  mldsa := ⟨_, hd.mldsa65Generate run.mldsaKey_ok⟩
  dh := ⟨_, hd.x25519Generate run.dhKey_ok⟩
  spkEc := ⟨_, hd.x25519Generate run.spkEc_ok⟩
  spkEc_public := rfl
  spkPq := ⟨_, hd.mlkem768Generate run.spkPq_ok⟩
  spkPq_public := rfl
  ec := nofun
  pq := nofun
  ec_ids := List.nodup_nil
  pq_ids := List.nodup_nil
  ratchet := by simp [IdentityRun.install, Client.blank]

/-- **The keys of a client that is up are genuine**, and so are those in its state file. -/
theorem Reach.genuine_of_refines {P : Crypto B → Prop} {c : Crypto B}
    (hP : ∀ d, P d → d.Refines c) {alive : Bool} {w : World B S} (h : Reach P alive w) :
    (∀ d, w.disk = some d → d.Genuine c) ∧ (alive = true → w.client.Genuine c) := by
  have key := h.invariant (D := fun w => ∀ d, w.disk = some d → d.Genuine c)
    (I := fun w => w.client.Genuine c ∧ ∀ d, w.disk = some d → d.Genuine c) ?_ ?_ ?_ ?_ ?_
  · exact ⟨key.1, fun ha => (key.2 ha).1⟩
  · intro w hd _ d hd'
    rw [hd] at hd'
    cases hd'
  · intro w w₁ hD hb
    cases hb with
    | load saved n hdisk => exact ⟨(hD saved hdisk).reload, hD⟩
    | identity hc userId d n run => exact ⟨run.genuine (hP _ hc) userId, hD⟩
  · intro w w₁ hI hm
    refine ⟨hm.genuine hP hI.1, ?_⟩
    cases hm with
    | save =>
      intro d hd
      obtain rfl := Option.some.inj hd
      exact hI.1
    | _ => exact hI.2
  · exact fun w hI => hI.2
  · intro w w₁ hD hd _
    rw [hd]
    exact hD

theorem Reach.genuine {c : Crypto B} {alive : Bool} {w : World B S} (h : Reach (· = c) alive w) :
    (∀ d, w.disk = some d → d.Genuine c) ∧ (alive = true → w.client.Genuine c) :=
  h.genuine_of_refines fun d hd => hd ▸ .refl d

/-! ## 4. Generated keys -/

/-- The public half of an X25519 key pair generated in an event. -/
def Event.generatedKey : Event B → Option B
  | .x25519 pair => some pair.publicKey
  | _ => none

/-- The X25519 public keys a client has generated, newest first. -/
def generatedKeys (trace : List (Event B)) : List B := trace.filterMap Event.generatedKey

theorem mem_generatedKeys {trace : List (Event B)} {pair : KeyPair B}
    (h : .x25519 pair ∈ trace) : pair.publicKey ∈ generatedKeys trace :=
  List.mem_filterMap.mpr ⟨_, h, rfl⟩

theorem generatedKeys_suffix {t t' : List (Event B)} (h : t <:+ t') :
    generatedKeys t <:+ generatedKeys t' := h.filterMap _

/-- The signed prekey and the ratchet keys are among the generated keys. -/
structure Client.Generated (trace : List (Event B)) (cl : Client B) : Prop where
  spk : cl.signedPrekeyEcPublic.publicKey ∈ generatedKeys trace
  spk_public : cl.signedPrekeyEcPublic.publicKey = cl.signedPrekeyEcPrivate.publicKey
  ratchet : ∀ peer s, cl.sessionsByPeer.lookup peer = some s →
    s.localRatchetKey.publicKey ∈ generatedKeys trace

namespace Client.Generated

variable {t t' : List (Event B)} {cl cl' : Client B}

theorem mono (h : cl.Generated t) (ht : t <:+ t') : cl.Generated t' :=
  ⟨(generatedKeys_suffix ht).subset h.1, h.2,
    fun p s hs => (generatedKeys_suffix ht).subset (h.3 p s hs)⟩

theorem of_sessions (h : cl.Generated t) (hid : cl.SameIdentity cl')
    (hs : cl'.sessionsByPeer = cl.sessionsByPeer) : cl'.Generated t :=
  ⟨hid.spkEcPublic ▸ h.1, hid.spkEcPublic ▸ hid.spkEc ▸ h.2, hs ▸ h.3⟩

theorem withSession (h : cl.Generated t) {peer : B} {s : SessionState B}
    (hs : s.localRatchetKey.publicKey ∈ generatedKeys t) : (cl.withSession peer s).Generated t := by
  refine ⟨h.1, h.2, fun p s' hl => ?_⟩
  by_cases hp : p = peer
  · subst hp
    rw [Client.lookup_withSession] at hl
    obtain rfl := Option.some.inj hl
    exact hs
  · rw [Client.lookup_withSession_ne hp] at hl
    exact h.3 p s' hl

end Client.Generated

theorem Move.generated {P : Crypto B → Prop} {v : Observer S} {w w' : World B S}
    (hm : Move P v w w') (h : w.client.Generated w.trace) : w'.client.Generated w'.trace := by
  have h' := h.mono hm.trace_suffix
  have hid := hm.sameIdentity
  cases hm with
  | env | enqueue | save | input | generate | generateKem | sealInitial => exact h'
  | flags | rememberPeer | verifyPeer | addEc | addPq => exact h'.of_sessions hid rfl
  | ratchet hc hs run => exact h'.withSession (mem_generatedKeys (List.mem_cons_self ..))
  | sealChat hc hs hd run =>
    have h₁ := h'.3 _ _ hs
    exact h'.withSession h₁
  | initiate hc hb run =>
    have h₁ : (w.client.remember run.fields.sessionId run.transcriptHash).Generated
        (run.events ++ w.trace) :=
      Client.Generated.of_sessions h' ⟨rfl, rfl, rfl, rfl, rfl, rfl, rfl, rfl⟩ rfl
    have heph : .x25519 run.eph ∈ run.events ++ w.trace :=
      List.mem_append_left _ (by simp [SealedInitiation.events])
    exact h₁.withSession (mem_generatedKeys heph)
  | receiveChat hc hm hs =>
    refine h'.withSession ?_
    rw [(receiveChat_frame _ _ _).1.localRatchetKey]
    exact h'.3 _ _ hs
  | @accept _ message hc hm run =>
    have h₁ : (w.client.withSession message.fromUser (responderSession w.client message run.keys
        run.nextChainKey)).Generated _ := h'.withSession (h'.2 ▸ h'.1)
    exact ⟨h'.1, h'.2, h₁.3⟩

/-- **The signed prekey and the ratchet keys of a client that is up were generated in its
run.** -/
theorem Reach.generated {P : Crypto B → Prop} {alive : Bool} {w : World B S}
    (h : Reach P alive w) (ha : alive = true) : w.client.Generated w.trace := by
  let D : World B S → Prop := fun w => ∀ d, w.disk = some d → d.Generated w.trace
  have key := h.invariant (D := D) (I := fun w => w.client.Generated w.trace ∧ D w) ?_ ?_ ?_ ?_ ?_
  · exact (key.2 ha).1
  · intro w hd _ d hd'
    rw [hd] at hd'
    cases hd'
  · intro w w₁ hD hb
    cases hb with
    | load saved n hdisk =>
      have h₁ := hD saved hdisk
      exact ⟨⟨h₁.1, rfl, h₁.3⟩, hD⟩
    | identity hc userId d n run =>
      refine ⟨⟨?_, rfl, ?_⟩, fun d hd => (hD d hd).mono ?_⟩
      · simp [generatedKeys, Event.generatedKey, IdentityRun.install]
      · simp [IdentityRun.install, Client.blank]
      · exact (List.suffix_cons _ _).trans ((List.suffix_cons _ _).trans (List.suffix_cons _ _))
  · intro w w₁ hI hm
    refine ⟨hm.generated hI.1, ?_⟩
    have ht := hm.trace_suffix
    cases hm with
    | save =>
      intro d hd
      obtain rfl := Option.some.inj hd
      exact hI.1
    | _ => exact fun d hd => (hI.2 d hd).mono ht
  · exact fun w hI => hI.2
  · intro w w₁ hD hd ht d hd'
    exact (hD d (hd ▸ hd')).mono ht

end PqChat
