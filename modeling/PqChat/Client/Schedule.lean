/-
# The key schedule on symbolic strings

What the derivations of `Client/Ratchet.lean` return on the ideal provider, and on any provider
that is the ideal one with failures: every key is one HKDF block, a term that shows where it
comes from.  A chain key is the key a chain started with or a `nextChainOf`; a root key is the
one of the handshake or a `ratchetRootOf`.  The three labels keep the three uses of HKDF apart.

`RootAt` and `ChainAt` measure how far a key is from the handshake: the number of ratchet steps
and the number of chain steps since the last of them.  Both numbers can be read off the term
(`ChainAt.unique`), so a key that has moved on never comes back.
-/
import PqChat.Client.Moves

namespace PqChat

open ByteString Symbolic

/-! ## 1. The keys as terms -/

def chainInfo (counter : UInt64) : Str :=
  concat [text "pqchat_chain_step_v1", ofBytes (be64 counter)]

def ratchetInfo : Str := concat [text "pqchat_ratchet_step_v1", empty]

def handshakeInfo (transcriptHash : Str) : Str :=
  concat [text "pqchat_handshake_keys_v1", transcriptHash]

/-- The key of the message with this number in a chain. -/
def messageKeyOf (chainKey : Str) (counter : UInt64) : Str :=
  hkdfBlock chainKey empty (chainInfo counter) 0

/-- The chain key after that message. -/
def nextChainOf (chainKey : Str) (counter : UInt64) : Str :=
  hkdfBlock chainKey empty (chainInfo counter) 1

/-- The chain a ratchet step starts. -/
def ratchetChainOf (dh rootKey : Str) : Str := hkdfBlock dh rootKey ratchetInfo 0

/-- The root key after a ratchet step. -/
def ratchetRootOf (dh rootKey : Str) : Str := hkdfBlock dh rootKey ratchetInfo 1

/-- The keys of a handshake: the root key, the chain of the initiator and the chain of the
responder. -/
def handshakeKeyOf (ikm transcriptHash : Str) (i : Nat) : Str :=
  hkdfBlock ikm empty (handshakeInfo transcriptHash) i

section Refines

variable {c : Crypto Str}

theorem deriveKeyMaterial_refines (hc : c.Refines Crypto.symbolic) {ikm salt ctx y : Str}
    {label : String} {n : Nat} (h : deriveKeyMaterial c ikm salt label ctx n = .ok y) :
    y = hkdf ikm salt (concat [text label, ctx]) n :=
  (Except.ok.inj (hc.hkdfSha256 h)).symm

theorem deriveMessageKeyAndNextChain_refines (hc : c.Refines Crypto.symbolic) {ck : Str}
    {n : UInt64} {keys : Str × Str} (h : deriveMessageKeyAndNextChain c ck n = .ok keys) :
    keys = (messageKeyOf ck n, nextChainOf ck n) := by
  rw [deriveMessageKeyAndNextChain, Result.bind_eq_ok] at h
  obtain ⟨bytes, hb, h⟩ := h
  obtain rfl := deriveKeyMaterial_refines hc hb
  exact (Except.ok.inj h).symm

theorem deriveRatchetRootAndChain_refines (hc : c.Refines Crypto.symbolic) {dh root : Str}
    {keys : Str × Str} (h : deriveRatchetRootAndChain c dh root = .ok keys) :
    keys = (ratchetChainOf dh root, ratchetRootOf dh root) := by
  rw [deriveRatchetRootAndChain, Result.bind_eq_ok] at h
  obtain ⟨bytes, hb, h⟩ := h
  obtain rfl := deriveKeyMaterial_refines hc hb
  exact (Except.ok.inj h).symm

theorem deriveHandshakeKeys_refines (hc : c.Refines Crypto.symbolic) {ikm th : Str}
    {initiator : Bool} {keys : HandshakeKeys Str}
    (h : deriveHandshakeKeys c ikm th initiator = .ok keys) :
    keys = ⟨handshakeKeyOf ikm th 0, handshakeKeyOf ikm th (if initiator then 1 else 2),
      handshakeKeyOf ikm th (if initiator then 2 else 1)⟩ := by
  rw [deriveHandshakeKeys, Result.bind_eq_ok] at h
  obtain ⟨bytes, hb, h⟩ := h
  obtain rfl := deriveKeyMaterial_refines hc hb
  cases initiator <;> exact (Except.ok.inj h).symm

theorem x25519Generate_refines (hc : c.Refines Crypto.symbolic) {n : Nat} {pair : KeyPair Str}
    (h : c.x25519Generate n = .ok pair) : pair = Ideal.dhPair n :=
  (Except.ok.inj (hc.x25519Generate h)).symm

theorem sharedSecret_refines (hc : c.Refines Crypto.symbolic) {n : Nat} {p s : Str}
    (h : c.x25519SharedSecret (Ideal.dhPair n).privateKey p = .ok s) : s = dhShared n p := by
  have h₁ : Ideal.sharedSecret [.atom (.priv n)] p = .ok s := hc.x25519SharedSecret h
  rw [Ideal.sharedSecret] at h₁
  split_ifs at h₁
  exact (Except.ok.inj h₁).symm

theorem aeadSeal_refines (hc : c.Refines Crypto.symbolic) {key nonce p ad ct : Str}
    (h : aeadSeal c key nonce p ad = .ok ct) : ct = Symbolic.aeadSeal key nonce p ad := by
  unfold aeadSeal at h
  split_ifs at h
  exact (Except.ok.inj (hc.evpSeal h)).symm

theorem aeadOpen_refines (hc : c.Refines Crypto.symbolic) {key nonce p ad ct : Str}
    (h : aeadOpen c key nonce ct ad = .ok p) : ct = Symbolic.aeadSeal key nonce p ad := by
  unfold aeadOpen at h
  split_ifs at h
  have h₁ : Ideal.evpOpen key nonce ct ad = .ok p := hc.evpOpen h
  unfold Ideal.evpOpen at h₁
  split at h₁
  · rename_i p' hp
    obtain rfl := Except.ok.inj h₁
    exact aeadOpen_eq_some hp
  · cases h₁

/-- What both ends of a handshake derive the keys from. -/
def InitiatorRun.ikm {cl : Client Str} {peer : Str} {bundle : PrekeyBundle Str}
    (run : InitiatorRun c cl peer bundle) : Str :=
  concat [run.dh1, run.dh2, run.dh3, run.kemSpk.sharedSecret, run.dh4, run.kemOpk.sharedSecret]

def ResponderRun.ikm {cl : Client Str} {message : InitialMessage Str}
    (run : ResponderRun c cl message) : Str :=
  concat [run.dh1, run.dh2, run.dh3, run.ssSpkPq, run.dh4, run.ssOpkPq]

/-- The keys of an initiator: it has sent on the first chain once. -/
structure SealedInitiation.Schedule {cl : Client Str} {peer plaintext : Str}
    {bundle : PrekeyBundle Str} (run : SealedInitiation c cl peer bundle plaintext) : Prop where
  rootKey : run.session.rootKey = handshakeKeyOf run.ikm run.transcriptHash 0
  messageKey : run.messageKey = messageKeyOf (handshakeKeyOf run.ikm run.transcriptHash 1) 0
  sendChainKey : run.session.sendChainKey =
    nextChainOf (handshakeKeyOf run.ikm run.transcriptHash 1) 0
  recvChainKey : run.session.recvChainKey = handshakeKeyOf run.ikm run.transcriptHash 2

theorem SealedInitiation.schedule (hc : c.Refines Crypto.symbolic) {cl : Client Str}
    {peer plaintext : Str} {bundle : PrekeyBundle Str}
    (run : SealedInitiation c cl peer bundle plaintext) : run.Schedule := by
  have hkeys := deriveHandshakeKeys_refines hc run.keys_ok
  have hstep := deriveMessageKeyAndNextChain_refines hc run.step_ok
  rw [hkeys] at hstep
  obtain ⟨hmk, hck⟩ := Prod.mk.inj hstep
  exact ⟨congrArg HandshakeKeys.root hkeys, hmk, hck, congrArg HandshakeKeys.recv hkeys⟩

/-- The values of the ratchet step of a send. -/
theorem SendRatchetRun.schedule (hc : c.Refines Crypto.symbolic) {s : SessionState Str}
    (step : SendRatchetRun c s) :
    step.newRatchet = Ideal.dhPair step.seed ∧
    step.dh = dhShared step.seed s.remoteRatchetPublic ∧
    step.chainKey = ratchetChainOf step.dh s.rootKey ∧
    step.rootKey = ratchetRootOf step.dh s.rootKey := by
  have hn := x25519Generate_refines hc step.generate_ok
  have hmix := deriveRatchetRootAndChain_refines hc step.mix_ok
  exact ⟨hn, sharedSecret_refines hc (hn ▸ step.dh_ok), congrArg Prod.fst hmix,
    congrArg Prod.snd hmix⟩

end Refines

section Counters

variable {B : Type} {s : SessionState B}

/-- As long as the send counter has not passed the interval, a ratchet is due exactly when it
has reached it. -/
theorem ratchetDue_iff (h : s.sendCounter.toNat ≤ 10) :
    s.ratchetDue ↔ s.sendCounter.toNat = 10 := by
  have h₁ : (0 : UInt64) < s.sendCounter ↔ 0 < s.sendCounter.toNat := UInt64.lt_iff_toNat_lt
  have h₂ : s.sendCounter % kRatchetInterval = 0 ↔ s.sendCounter.toNat % 10 = 0 := by
    rw [← UInt64.toNat_inj, UInt64.toNat_mod]
    rfl
  rw [SessionState.ratchetDue, h₁, h₂]
  omega

theorem toNat_succ {n : UInt64} (h : n.toNat < 10) : (n + 1).toNat = n.toNat + 1 := by
  rw [UInt64.toNat_add, UInt64.toNat_one]
  omega

end Counters

/-! ## 2. Telling keys apart -/

theorem chainInfo_ne_handshakeInfo (n : UInt64) (th : Str) : chainInfo n ≠ handshakeInfo th := by
  intro h
  have h₁ := congrArg (List.take 8) h
  have hc : (chainInfo n).take 8 = (text "pqchat_chain_step_v1" : Str).take 8 := by
    simp only [chainInfo, concat, List.foldl]
    rw [List.take_append_of_le_length (by decide +kernel)]
    rfl
  have hh : (handshakeInfo th).take 8 = (text "pqchat_handshake_keys_v1" : Str).take 8 := by
    simp only [handshakeInfo, concat, List.foldl]
    rw [List.take_append_of_le_length (by decide +kernel)]
    rfl
  rw [hc, hh] at h₁
  exact absurd h₁ (by decide +kernel)

theorem messageKeyOf_inj {ck ck' : Str} {n n' : UInt64}
    (h : messageKeyOf ck n = messageKeyOf ck' n') : ck = ck' := (hkdfBlock_inj h).2.1

theorem nextChainOf_inj {ck ck' : Str} {n n' : UInt64}
    (h : nextChainOf ck n = nextChainOf ck' n') : ck = ck' := (hkdfBlock_inj h).2.1

theorem ratchetChainOf_inj {dh dh' r r' : Str}
    (h : ratchetChainOf dh r = ratchetChainOf dh' r') : dh = dh' ∧ r = r' :=
  ⟨(hkdfBlock_inj h).2.1, (hkdfBlock_inj h).2.2.1⟩

theorem ratchetRootOf_inj {dh dh' r r' : Str}
    (h : ratchetRootOf dh r = ratchetRootOf dh' r') : dh = dh' ∧ r = r' :=
  ⟨(hkdfBlock_inj h).2.1, (hkdfBlock_inj h).2.2.1⟩

/-- A key that starts a chain. -/
def IsBase (k : Str) : Prop := ∀ ck n, k ≠ nextChainOf ck n

theorem isBase_ratchet (dh r : Str) : IsBase (ratchetChainOf dh r) := fun _ _ h =>
  absurd (hkdfBlock_inj h).1 (by decide)

theorem isBase_handshake (ikm th : Str) (i : Nat) : IsBase (handshakeKeyOf ikm th i) := fun _ n h =>
  chainInfo_ne_handshakeInfo n th (hkdfBlock_inj h).2.2.2.symm

/-- `ck` is the chain key `n` steps after the key `base`. -/
inductive Chain (base : Str) : Nat → Str → Prop
  | base : Chain base 0 base
  | next {n : Nat} {ck : Str} (h : Chain base n ck) (counter : UInt64) :
    Chain base (n + 1) (nextChainOf ck counter)

/-- **A chain key determines its chain and its place in it.** -/
theorem Chain.unique {b b' ck : Str} {n n' : Nat} (hb : IsBase b) (hb' : IsBase b')
    (h : Chain b n ck) (h' : Chain b' n' ck) : b = b' ∧ n = n' := by
  induction h generalizing n' with
  | base =>
    cases h' with
    | base => exact ⟨rfl, rfl⟩
    | next _ _ => exact absurd rfl (hb _ _)
  | next h₁ m ih =>
    generalize hk : nextChainOf _ m = k at h'
    cases h' with
    | base => exact absurd hk.symm (hb' _ _)
    | next h₂ m' =>
      obtain ⟨hbase, hn⟩ := ih (nextChainOf_inj hk ▸ h₂)
      exact ⟨hbase, by rw [hn]⟩

/-! ## 3. Distance from the handshake -/

/-- `r` is the root key `d` ratchet steps after `r₀`. -/
inductive RootAt (r₀ : Str) : Nat → Str → Prop
  | base : RootAt r₀ 0 r₀
  | step {d : Nat} {r : Str} (h : RootAt r₀ d r) (dh : Str) :
    RootAt r₀ (d + 1) (ratchetRootOf dh r)

theorem RootAt.trans {r₀ r r' : Str} {d d' : Nat} (h : RootAt r₀ d r) (h' : RootAt r d' r') :
    RootAt r₀ (d + d') r' := by
  induction h' with
  | base => exact h
  | step _ dh ih => exact ih.step dh

/-- The root key of the handshake is block 0, every later one is block 1. -/
theorem RootAt.unique {ikm th r : Str} {d d' : Nat} (h : RootAt (handshakeKeyOf ikm th 0) d r)
    (h' : RootAt (handshakeKeyOf ikm th 0) d' r) : d = d' := by
  induction h generalizing d' with
  | base =>
    generalize hk : handshakeKeyOf ikm th 0 = k at h'
    cases h' with
    | base => rfl
    | step _ _ => exact absurd (hkdfBlock_inj hk).1 (by decide)
  | step h₁ dh ih =>
    generalize hk : ratchetRootOf dh _ = k at h'
    cases h' with
    | base => exact absurd (hkdfBlock_inj hk).1 (by decide)
    | step h₂ dh' => rw [ih ((ratchetRootOf_inj hk).2 ▸ h₂)]

/-- `ck` is `n` steps into the chain of the handshake that starts with `k₀`, or into a chain
started by the `d`-th ratchet step. -/
inductive ChainAt (r₀ k₀ : Str) (ck : Str) : Nat → Nat → Prop
  | first {n : Nat} (h : Chain k₀ n ck) : ChainAt r₀ k₀ ck 0 n
  | ratchet {d n : Nat} {dh r : Str} (hr : RootAt r₀ d r) (h : Chain (ratchetChainOf dh r) n ck) :
    ChainAt r₀ k₀ ck (d + 1) n

theorem ChainAt.next {r₀ k₀ ck : Str} {d n : Nat} (h : ChainAt r₀ k₀ ck d n) (m : UInt64) :
    ChainAt r₀ k₀ (nextChainOf ck m) d (n + 1) := by
  cases h with
  | first h => exact .first (h.next m)
  | ratchet hr h => exact .ratchet hr (h.next m)

/-- **A key determines its distance from the handshake**, and which of the two first chains it
is in if it is in one. -/
theorem ChainAt.unique {ikm th ck : Str} {i j d d' n n' : Nat}
    (h : ChainAt (handshakeKeyOf ikm th 0) (handshakeKeyOf ikm th i) ck d n)
    (h' : ChainAt (handshakeKeyOf ikm th 0) (handshakeKeyOf ikm th j) ck d' n')
    (hi : i ≠ 0) (hj : j ≠ 0) : d = d' ∧ n = n' ∧ (d = 0 → i = j) := by
  have hne : ∀ {dh r : Str} {i : Nat}, i ≠ 0 → handshakeKeyOf ikm th i ≠ ratchetChainOf dh r :=
    fun hi he => hi (hkdfBlock_inj he).1
  cases h with
  | first h₁ =>
    cases h' with
    | first h₂ =>
      obtain ⟨hk, hn⟩ := h₁.unique (isBase_handshake _ _ _) (isBase_handshake _ _ _) h₂
      exact ⟨rfl, hn, fun _ => (hkdfBlock_inj hk).1⟩
    | ratchet _ h₂ =>
      exact absurd (h₁.unique (isBase_handshake _ _ _) (isBase_ratchet _ _) h₂).1 (hne hi)
  | ratchet hr₁ h₁ =>
    cases h' with
    | first h₂ =>
      exact absurd (h₁.unique (isBase_ratchet _ _) (isBase_handshake _ _ _) h₂).1.symm (hne hj)
    | ratchet hr₂ h₂ =>
      obtain ⟨hk, hn⟩ := h₁.unique (isBase_ratchet _ _) (isBase_ratchet _ _) h₂
      exact ⟨congrArg (· + 1) (hr₁.unique ((ratchetChainOf_inj hk).2 ▸ hr₂)), hn, nofun⟩

end PqChat
