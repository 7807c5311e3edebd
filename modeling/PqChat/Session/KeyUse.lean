/-
# Message keys and nonces

Nonces start again at 0 in every chain, so a pair of key and nonce is used once only if CHAIN
KEYS never come back.  Within a chain they do not (`Chain.unique`).  A new chain starts with a
key that contains a name no earlier one contains, and where that name comes from depends on
how the chain was started (`Origin`):

* as initiator, the new ephemeral key, in the second block of the key material;
* as responder, the one-time key that is erased with it;
* by a ratchet step, the new ratchet key.

What a forged ratchet header can do is change the ROOT key.  That is never the only thing a
chain is named by.

`Accounts` is the invariant: the client has moved on from a list of used chain keys.  It is
kept by every move, whatever the list is, and a seal only ever adds to the list.
-/
import PqChat.Client.Schedule
import PqChat.Session.Agreement

set_option linter.unusedSectionVars false

namespace PqChat

open ByteString Symbolic

variable {S : Type}

/-! ## 1. Fresh keys -/

/-- The X25519 keys that come in with an event. -/
def Event.receivedKeys : Event Str → List Str
  | .receivedBundle b =>
    b.identityDhPublicKey :: b.signedPrekeyEc.publicKey :: b.oneTimeEc.map (·.publicKey)
  | .receivedInitial m => [m.initiatorIdentityDhPublicKey, m.initiatorEphemeralEcPublicKey]
  | .receivedChat m => m.header.senderRatchetPublicKey.toList
  | _ => []

def receivedKeys (trace : List (Event Str)) : List Str := trace.flatMap Event.receivedKeys

/-- Every X25519 key was new when it was generated: the client had neither generated nor been
told it before. -/
def KeysFresh : List (Event Str) → Prop
  | [] => True
  | e :: t => (∀ k, e.generatedKey = some k → k ∉ generatedKeys t ∧ k ∉ receivedKeys t) ∧
    KeysFresh t

theorem mem_receivedKeys {trace : List (Event Str)} {e : Event Str} {k : Str} (he : e ∈ trace)
    (hk : k ∈ e.receivedKeys) : k ∈ receivedKeys trace :=
  List.mem_flatMap.mpr ⟨e, he, hk⟩

theorem receivedKeys_subset {t t' : List (Event Str)} (h : t <:+ t') :
    receivedKeys t ⊆ receivedKeys t' := by
  intro k hk
  obtain ⟨e, he, hk⟩ := List.mem_flatMap.mp hk
  exact mem_receivedKeys (h.subset he) hk

theorem KeysFresh.of_suffix {t t' : List (Event Str)} (h : KeysFresh t') (ht : t <:+ t') :
    KeysFresh t := by
  obtain ⟨es, rfl⟩ := ht
  induction es with
  | nil => exact h
  | cons e es ih => exact ih h.2

/-- A key that has just been generated. -/
structure NewKey (t : List (Event Str)) (n : Nat) : Prop where
  generated : [.atom (.pub n)] ∉ generatedKeys t
  received : [.atom (.pub n)] ∉ receivedKeys t

theorem KeysFresh.newKey {t : List (Event Str)} {n : Nat}
    (h : KeysFresh (.x25519 (Ideal.dhPair n) :: t)) : NewKey t n :=
  ⟨(h.1 _ rfl).1, (h.1 _ rfl).2⟩

/-! ## 2. Where chains start -/

/-- The key starts a chain that the client `cl` has started. -/
inductive Origin (t : List (Event Str)) (cl : Client Str) : Str → Prop
  | initiated {e : Nat} {p d rest th : Str} (he : [.atom (.pub e)] ∈ generatedKeys t)
    (hp : p ∈ receivedKeys t) (hd : d.length = 1) :
    Origin t cl (handshakeKeyOf (d ++ (dhShared e p ++ rest)) th 1)
  | responded {x o : Nat} {p d k rest th : Str} (ho : [.atom (.pub o)] ∈ generatedKeys t)
    (herased : ∀ key ∈ cl.oneTimeEcPool, key.privatePart ≠ Ideal.dhPair o)
    (hd : d.length = 2) (hk : k.length = 1) :
    Origin t cl (handshakeKeyOf (d ++ (dhShared x p ++ (k ++ (dhShared o p ++ rest)))) th 2)
  | ratcheted {n : Nat} {p root : Str} (hn : [.atom (.pub n)] ∈ generatedKeys t)
    (hp : p ∈ receivedKeys t) : Origin t cl (ratchetChainOf (dhShared n p) root)

section Origin

variable {t t' : List (Event Str)} {cl cl' : Client Str} {b : Str}

theorem Origin.isBase (h : Origin t cl b) : IsBase b := by
  cases h with
  | initiated => exact isBase_handshake _ _ _
  | responded => exact isBase_handshake _ _ _
  | ratcheted => exact isBase_ratchet _ _

/-- The history grows, and keys that have left the pool do not come back. -/
theorem Origin.mono (h : Origin t cl b) (ht : t <:+ t')
    (hpool : ∀ key ∈ cl'.oneTimeEcPool, key ∈ cl.oneTimeEcPool ∨
      key.privatePart.publicKey ∉ generatedKeys t) : Origin t' cl' b := by
  have hgen := (generatedKeys_suffix ht).subset
  have hrec := receivedKeys_subset ht
  cases h with
  | initiated he hp hd => exact .initiated (hgen he) (hrec hp) hd
  | responded ho herased hd hk =>
    refine .responded (hgen ho) (fun key hkey he => ?_) hd hk
    rcases hpool key hkey with hold | hnew
    · exact herased key hold he
    · rw [he] at hnew
      exact hnew ho
  | ratcheted hn hp => exact .ratcheted (hgen hn) (hrec hp)

/-- **A new ephemeral key starts a new chain.** -/
theorem Origin.ne_initiated (h : Origin t cl b) {e : Nat} (he : NewKey t e) {p d rest th : Str}
    (hd : d.length = 1) : b ≠ handshakeKeyOf (d ++ (dhShared e p ++ rest)) th 1 := by
  intro hb
  cases h with
  | initiated he' hp' hd' =>
    obtain ⟨-, hikm, -⟩ := hkdfBlock_inj hb
    obtain ⟨-, hrest⟩ := List.append_inj hikm (hd'.trans hd.symm)
    obtain ⟨hdh, -⟩ := List.append_inj hrest (by rw [dhShared_length, dhShared_length])
    rcases dhShared_inj hdh with ⟨rfl, -⟩ | ⟨rfl, -⟩
    · exact he.generated he'
    · exact he.received hp'
  | responded => exact absurd (hkdfBlock_inj hb).1 (by decide)
  | ratcheted => exact absurd (hkdfBlock_inj hb).1 (by decide)

/-- **A one-time key that is still in the pool starts a new chain.**  The shared secret with the
signed prekey tells two messages with swapped keys apart. -/
theorem Origin.ne_responded (h : Origin t cl b) {x o : Nat} (hxo : x ≠ o)
    (ho : ∃ key ∈ cl.oneTimeEcPool, key.privatePart = Ideal.dhPair o) {p d k rest th : Str}
    (hd : d.length = 2) (hk : k.length = 1) :
    b ≠ handshakeKeyOf (d ++ (dhShared x p ++ (k ++ (dhShared o p ++ rest)))) th 2 := by
  intro hb
  cases h with
  | initiated => exact absurd (hkdfBlock_inj hb).1 (by decide)
  | @responded x' o' _ _ _ _ _ ho' herased hd' hk' =>
    obtain ⟨-, hikm, -⟩ := hkdfBlock_inj hb
    obtain ⟨-, h₁⟩ := List.append_inj hikm (hd'.trans hd.symm)
    obtain ⟨hdh₃, h₂⟩ := List.append_inj h₁ (by rw [dhShared_length, dhShared_length])
    obtain ⟨-, h₃⟩ := List.append_inj h₂ (hk'.trans hk.symm)
    obtain ⟨hdh₄, -⟩ := List.append_inj h₃ (by rw [dhShared_length, dhShared_length])
    obtain ⟨key, hkey, he⟩ := ho
    have hne : o' ≠ o := by
      rintro rfl
      exact herased key hkey he
    rcases dhShared_inj hdh₃ with ⟨-, rfl⟩ | ⟨rfl, rfl⟩
    · exact hne (dhShared_left_inj hdh₄)
    · rcases dhShared_inj hdh₄ with ⟨ho, -⟩ | ⟨hx, -⟩
      · exact hne ho
      · exact hxo (by simpa using hx)
  | ratcheted => exact absurd (hkdfBlock_inj hb).1 (by decide)

/-- **A new ratchet key starts a new chain**, whatever the root key is. -/
theorem Origin.ne_ratcheted (h : Origin t cl b) {n : Nat} (hn : NewKey t n) {p root : Str} :
    b ≠ ratchetChainOf (dhShared n p) root := by
  intro hb
  cases h with
  | initiated => exact absurd (hkdfBlock_inj hb).1 (by decide)
  | responded => exact absurd (hkdfBlock_inj hb).1 (by decide)
  | ratcheted hn' hp' =>
    rcases dhShared_inj (ratchetChainOf_inj hb).1 with ⟨rfl, -⟩ | ⟨rfl, -⟩
    · exact hn.generated hn'
    · exact hn.received hp'

end Origin

/-! ## 3. The invariant -/

/-- The sending side of a session: where it is in its chain, and that all used keys of that chain
lie behind. -/
structure SendSide (t : List (Event Str)) (cl : Client Str) (used : List Str)
    (s : SessionState Str) (b : Str) : Prop where
  origin : Origin t cl b
  chain : Chain b s.sendCounter.toNat s.sendChainKey
  behind : ∀ ck ∈ used, ∀ n, Chain b n ck → n < s.sendCounter.toNat
  counter : s.sendCounter.toNat ≤ 10
  remote : s.remoteRatchetPublic ∈ receivedKeys t

/-- The client accounts for the used chain keys. -/
structure Accounts (t : List (Event Str)) (cl : Client Str) (used : List Str) : Prop where
  genuine : cl.Genuine Crypto.symbolic
  pool : ∀ key ∈ cl.oneTimeEcPool, key.privatePart.publicKey ∈ generatedKeys t
  pool_distinct : (cl.oneTimeEcPool.map (·.privatePart)).Nodup
  spk : cl.signedPrekeyEcPrivate.publicKey ∈ generatedKeys t
  spk_apart : ∀ key ∈ cl.oneTimeEcPool, key.privatePart ≠ cl.signedPrekeyEcPrivate
  session : ∀ peer s, cl.sessionsByPeer.lookup peer = some s → ∃ b, SendSide t cl used s b
  apart : ∀ peer peer' s s' b, peer ≠ peer' → cl.sessionsByPeer.lookup peer = some s →
    cl.sessionsByPeer.lookup peer' = some s' → SendSide t cl used s b →
    ¬ SendSide t cl used s' b
  origin : ∀ ck ∈ used, ∃ b n, Origin t cl b ∧ Chain b n ck

/-- A chain nothing has been done in yet. -/
structure NewChain (cl : Client Str) (used : List Str) (b : Str) : Prop where
  isBase : IsBase b
  unused : ∀ ck ∈ used, ∀ n, ¬ Chain b n ck
  sessions : ∀ peer s, cl.sessionsByPeer.lookup peer = some s → ∀ n, ¬ Chain b n s.sendChainKey

section Accounts

variable {t t' : List (Event Str)} {cl cl' : Client Str} {used used' : List Str}
  {s s' : SessionState Str} {peer b : Str}

theorem SendSide.unique {b' : Str} (h : SendSide t cl used s b) (h' : SendSide t cl used s b') :
    b = b' :=
  (h.chain.unique h.origin.isBase h'.origin.isBase h'.chain).1

/-- A key that no origin has starts a new chain. -/
theorem Accounts.newChain (h : Accounts t cl used) (hb : IsBase b)
    (hne : ∀ b', Origin t cl b' → b' ≠ b) : NewChain cl used b := by
  refine ⟨hb, fun ck hck n hn => ?_, fun peer s hs n hn => ?_⟩
  · obtain ⟨b', n', ho, hc⟩ := h.origin ck hck
    exact hne b' ho (hc.unique ho.isBase hb hn).1
  · obtain ⟨b', hside⟩ := h.session peer s hs
    exact hne b' hside.origin (hside.chain.unique hside.origin.isBase hb hn).1

/-- Fewer used keys. -/
theorem Accounts.subset (h : Accounts t cl used) (hsub : used' ⊆ used) :
    Accounts t cl used' := by
  have hside : ∀ {s b}, SendSide t cl used s b → SendSide t cl used' s b := fun hs =>
    ⟨hs.origin, hs.chain, fun ck hck => hs.behind ck (hsub hck), hs.counter, hs.remote⟩
  refine ⟨h.genuine, h.pool, h.pool_distinct, h.spk, h.spk_apart, fun peer s hs => ?_, ?_,
    fun ck hck => h.origin ck (hsub hck)⟩
  · obtain ⟨b, hb⟩ := h.session peer s hs
    exact ⟨b, hside hb⟩
  · intro peer peer' s s' b hne hs hs' hb hb'
    obtain ⟨b₁, h₁⟩ := h.session peer s hs
    obtain ⟨b₂, h₂⟩ := h.session peer' s' hs'
    obtain rfl := (hside h₁).unique hb
    obtain rfl := (hside h₂).unique hb'
    exact h.apart peer peer' s s' _ hne hs hs' h₁ h₂

/-- A change that leaves the sessions alone: the history may grow, keys may leave the pool, and
new ones may be added. -/
theorem Accounts.frame (h : Accounts t cl used) (ht : t <:+ t')
    (hgen : cl'.Genuine Crypto.symbolic)
    (hspk : cl'.signedPrekeyEcPrivate = cl.signedPrekeyEcPrivate)
    (hpool : ∀ key ∈ cl'.oneTimeEcPool, key ∈ cl.oneTimeEcPool ∨
      key.privatePart.publicKey ∉ generatedKeys t ∧
        key.privatePart.publicKey ∈ generatedKeys t')
    (hdistinct : (cl'.oneTimeEcPool.map (·.privatePart)).Nodup)
    (hs : cl'.sessionsByPeer = cl.sessionsByPeer) : Accounts t' cl' used := by
  have horigin : ∀ {b}, Origin t cl b → Origin t' cl' b := fun ho =>
    ho.mono ht fun key hk => (hpool key hk).imp_right And.left
  have hside : ∀ {s b}, SendSide t cl used s b → SendSide t' cl' used s b := fun hb =>
    ⟨horigin hb.origin, hb.chain, hb.behind, hb.counter, receivedKeys_subset ht hb.remote⟩
  refine ⟨hgen, fun key hk => ?_, hdistinct, ?_, fun key hk he => ?_, fun peer s hl => ?_, ?_,
    fun ck hck => ?_⟩
  · rcases hpool key hk with hold | hnew
    · exact (generatedKeys_suffix ht).subset (h.pool key hold)
    · exact hnew.2
  · rw [hspk]
    exact (generatedKeys_suffix ht).subset h.spk
  · rw [hspk] at he
    rcases hpool key hk with hold | hnew
    · exact h.spk_apart key hold he
    · exact hnew.1 (he ▸ h.spk)
  · obtain ⟨b, hb⟩ := h.session peer s (hs ▸ hl)
    exact ⟨b, hside hb⟩
  · intro peer peer' s s' b hne hl hl' hb hb'
    obtain ⟨b₁, h₁⟩ := h.session peer s (hs ▸ hl)
    obtain ⟨b₂, h₂⟩ := h.session peer' s' (hs ▸ hl')
    obtain rfl := (hside h₁).unique hb
    obtain rfl := (hside h₂).unique hb'
    exact h.apart peer peer' s s' _ hne (hs ▸ hl) (hs ▸ hl') h₁ h₂
  · obtain ⟨b, n, ho, hc⟩ := h.origin ck hck
    exact ⟨b, n, horigin ho, hc⟩

/-- Only the history grows. -/
theorem Accounts.mono (h : Accounts t cl used) (ht : t <:+ t') : Accounts t' cl used :=
  h.frame ht h.genuine rfl (fun _ hk => Or.inl hk) h.pool_distinct rfl

/-- A session in a chain that no other session is in. -/
theorem Accounts.withSession (h : Accounts t cl used)
    (hlocal : ∃ n, Crypto.symbolic.x25519Generate n = .ok s.localRatchetKey)
    (hside : SendSide t cl used s b)
    (hother : ∀ peer' s', peer' ≠ peer → cl.sessionsByPeer.lookup peer' = some s' →
      ∀ n, ¬ Chain b n s'.sendChainKey) : Accounts t (cl.withSession peer s) used := by
  have hsame : ∀ {s' b'}, SendSide t cl used s' b' ↔
      SendSide t (cl.withSession peer s) used s' b' := by
    intro s' b'
    refine ⟨fun hs => ⟨?_, hs.2, hs.3, hs.4, hs.5⟩, fun hs => ⟨?_, hs.2, hs.3, hs.4, hs.5⟩⟩
    · exact hs.origin.mono List.suffix_rfl fun _ hk => Or.inl hk
    · exact hs.origin.mono List.suffix_rfl fun _ hk => Or.inl hk
  refine ⟨h.genuine.withSession hlocal, h.pool, h.pool_distinct, h.spk, h.spk_apart,
    fun p s' hl => ?_, ?_, fun ck hck => ?_⟩
  · by_cases hp : p = peer
    · subst hp
      rw [Client.lookup_withSession] at hl
      obtain rfl := Option.some.inj hl
      exact ⟨b, hsame.mp hside⟩
    · rw [Client.lookup_withSession_ne hp] at hl
      obtain ⟨b', hb'⟩ := h.session p s' hl
      exact ⟨b', hsame.mp hb'⟩
  · intro p p' s₁ s₂ b' hne hl hl' hb hb'
    by_cases hp : p = peer <;> by_cases hp' : p' = peer
    · exact hne (hp.trans hp'.symm)
    · subst hp
      rw [Client.lookup_withSession] at hl
      obtain rfl := Option.some.inj hl
      rw [Client.lookup_withSession_ne hp'] at hl'
      obtain rfl := hside.unique (hsame.mpr hb)
      exact hother p' s₂ hp' hl' _ hb'.chain
    · subst hp'
      rw [Client.lookup_withSession] at hl'
      obtain rfl := Option.some.inj hl'
      rw [Client.lookup_withSession_ne hp] at hl
      obtain rfl := hside.unique (hsame.mpr hb')
      exact hother p s₁ hp hl _ hb.chain
    · rw [Client.lookup_withSession_ne hp] at hl
      rw [Client.lookup_withSession_ne hp'] at hl'
      exact h.apart p p' s₁ s₂ b' hne hl hl' (hsame.mpr hb) (hsame.mpr hb')
  · obtain ⟨b', n, ho, hc⟩ := h.origin ck hck
    exact ⟨b', n, ho.mono List.suffix_rfl fun _ hk => Or.inl hk, hc⟩

/-- No other session is in the chain of a session. -/
theorem Accounts.other (h : Accounts t cl used) (hs : cl.sessionsByPeer.lookup peer = some s)
    (hb : SendSide t cl used s b) (peer' : Str) (s' : SessionState Str) (hne : peer' ≠ peer)
    (hs' : cl.sessionsByPeer.lookup peer' = some s') (n : Nat) : ¬ Chain b n s'.sendChainKey := by
  intro hn
  obtain ⟨b', hb'⟩ := h.session peer' s' hs'
  obtain ⟨rfl, -⟩ := hb'.chain.unique hb'.origin.isBase hb.origin.isBase hn
  exact h.apart peer' peer s' s b' hne hs' hs hb' hb

/-- A session that has not moved on the sending side. -/
theorem Accounts.received (h : Accounts t cl used) (hs : cl.sessionsByPeer.lookup peer = some s)
    (hside : s.SameSendSide s') (hr : s'.remoteRatchetPublic ∈ receivedKeys t) :
    Accounts t (cl.withSession peer s') used := by
  obtain ⟨b, hb⟩ := h.session peer s hs
  refine h.withSession (hside.localRatchetKey ▸ h.genuine.ratchet peer s hs)
    ⟨hb.origin, ?_, ?_, ?_, hr⟩ (h.other hs hb)
  · rw [hside.sendCounter, hside.sendChainKey]
    exact hb.chain
  · rw [hside.sendCounter]
    exact hb.behind
  · rw [hside.sendCounter]
    exact hb.counter

/-- One more used key, behind every session in its chain. -/
theorem Accounts.use (h : Accounts t cl used) {ck : Str} {n : Nat} (ho : Origin t cl b)
    (hc : Chain b n ck)
    (hbehind : ∀ peer s, cl.sessionsByPeer.lookup peer = some s → SendSide t cl used s b →
      n < s.sendCounter.toNat) : Accounts t cl (ck :: used) := by
  have hback : ∀ {s b'}, SendSide t cl (ck :: used) s b' → SendSide t cl used s b' := fun hs =>
    ⟨hs.1, hs.2, fun ck' hck => hs.3 ck' (List.mem_cons_of_mem _ hck), hs.4, hs.5⟩
  refine ⟨h.genuine, h.pool, h.pool_distinct, h.spk, h.spk_apart, fun peer s hs => ?_, ?_,
    fun ck' hck => ?_⟩
  · obtain ⟨b', hb'⟩ := h.session peer s hs
    refine ⟨b', hb'.origin, hb'.chain, fun ck' hck n' hn' => ?_, hb'.counter, hb'.remote⟩
    rcases List.mem_cons.mp hck with rfl | hck
    · obtain ⟨rfl, rfl⟩ := hc.unique ho.isBase hb'.origin.isBase hn'
      exact hbehind peer s hs hb'
    · exact hb'.behind ck' hck n' hn'
  · intro p p' s s' b' hne hs hs' hb hb'
    exact h.apart p p' s s' b' hne hs hs' (hback hb) (hback hb')
  · rcases List.mem_cons.mp hck with rfl | hck
    · exact ⟨b, n, ho, hc⟩
    · exact h.origin ck' hck

end Accounts

/-! ## 4. Moves -/

/-- The key and the nonce of a seal. -/
def Event.sealUse : Event Str → Option (Str × Str)
  | .seal key nonce _ _ => some (key, nonce)
  | _ => none

/-- The keys and nonces a client has sealed with, newest first. -/
def sealUses (trace : List (Event Str)) : List (Str × Str) := trace.filterMap Event.sealUse

/-- What the message with this number of a chain is sealed with. -/
def useOf (x : Str × UInt64) : Str × Str := (messageKeyOf x.1 x.2, nonceFromCounter x.2)

/-- The ideal provider, with any call failing at any time. -/
abbrev Crypto.IsIdeal (c : Crypto Str) : Prop := c.Refines Crypto.symbolic

section Starts

variable {t : List (Event Str)} {used : List Str} {w : World Str S}

theorem Accounts.ratcheted (h : Accounts t w.client used) {c : Crypto Str} (hc : c.IsIdeal)
    {s : SessionState Str} (hr : s.remoteRatchetPublic ∈ receivedKeys t)
    (step : SendRatchetRun c s) (hfresh : KeysFresh (.x25519 step.newRatchet :: t)) :
    NewChain w.client used step.chainKey ∧
      Origin (.x25519 step.newRatchet :: t) w.client step.chainKey := by
  obtain ⟨hn, hdh, hck, -⟩ := step.schedule hc
  rw [hn] at hfresh ⊢
  rw [hck, hdh]
  refine ⟨h.newChain (isBase_ratchet _ _) fun b' hb' => hb'.ne_ratcheted hfresh.newKey, ?_⟩
  exact .ratcheted (List.mem_cons_self ..) (receivedKeys_subset (List.suffix_cons _ _) hr)

theorem Accounts.initiated (h : Accounts t w.client used) {c : Crypto Str} (hc : c.IsIdeal)
    {peer plaintext : Str} {bundle : PrekeyBundle Str} (hb : .receivedBundle bundle ∈ t)
    (run : SealedInitiation c w.client peer bundle plaintext)
    (hfresh : KeysFresh (run.events ++ t)) :
    NewChain w.client used (handshakeKeyOf run.ikm run.transcriptHash 1) ∧
      Origin (run.events ++ t) w.client (handshakeKeyOf run.ikm run.transcriptHash 1) := by
  have heph := x25519Generate_refines hc run.eph_ok
  obtain ⟨y, hy⟩ := h.genuine.dh
  have hid := x25519Generate_refines (.refl _) hy
  have hdh₁ := sharedSecret_refines hc (hid ▸ run.dh1_ok)
  have hdh₂ := sharedSecret_refines hc (heph ▸ run.dh2_ok)
  have hikm : run.ikm = run.dh1 ++ (dhShared run.ephSeed bundle.identityDhPublicKey ++
      (run.dh3 ++ run.kemSpk.sharedSecret ++ run.dh4 ++ run.kemOpk.sharedSecret)) := by
    rw [← hdh₂]
    simp only [InitiatorRun.ikm, concat, List.foldl, List.append_assoc]
    rfl
  have hlen : run.dh1.length = 1 := by rw [hdh₁, dhShared_length]
  have hmem : .x25519 (Ideal.dhPair run.ephSeed) ∈ run.events ++ t := by
    rw [← heph]
    exact List.mem_append_left _ (by simp [SealedInitiation.events])
  have hnew : NewKey t run.ephSeed := by
    have h₁ : KeysFresh (.x25519 run.eph :: t) :=
      hfresh.of_suffix ⟨[.initiated run.message plaintext,
        .seal run.messageKey (nonceFromCounter 0) plaintext run.transcriptHash], rfl⟩
    rw [heph] at h₁
    exact h₁.newKey
  rw [hikm]
  refine ⟨h.newChain (isBase_handshake _ _ _) fun b' hb' => hb'.ne_initiated hnew hlen, ?_⟩
  refine .initiated (mem_generatedKeys hmem) ?_ hlen
  exact mem_receivedKeys (List.mem_append_right _ hb) (List.mem_cons_self ..)

theorem decapsulate_length {c : Crypto Str} (hc : c.IsIdeal) {n : Nat} {x s : Str}
    (h : c.mlkem768Decapsulate (Ideal.kemPair n).privateKey x = .ok s) : s.length = 1 := by
  have h₁ : Ideal.decapsulate [.atom (.kemPriv n)] x = .ok s := hc.mlkem768Decapsulate h
  simp only [Ideal.decapsulate] at h₁
  split at h₁
  · cases h₁
  · split at h₁
    · split at h₁ <;> exact Except.ok.inj h₁ ▸ rfl
    · exact Except.ok.inj h₁ ▸ rfl

theorem Accounts.responded (h : Accounts t w.client used) {c : Crypto Str} (hc : c.IsIdeal)
    {message : InitialMessage Str} (run : ResponderRun c w.client message) :
    NewChain w.client used (handshakeKeyOf run.ikm message.transcriptHash 2) ∧
      Origin t run.accepted (handshakeKeyOf run.ikm message.transcriptHash 2) := by
  obtain ⟨y, hy⟩ := h.genuine.dh
  obtain ⟨x, hx⟩ := h.genuine.spkEc
  obtain ⟨z, hz⟩ := h.genuine.spkPq
  have hec : run.ec ∈ w.client.oneTimeEcPool := List.mem_of_find?_eq_some run.ec_found
  obtain ⟨o, ho⟩ := (h.genuine.ec run.ec hec).2
  have hid := x25519Generate_refines (.refl _) hy
  have hspk := x25519Generate_refines (.refl _) hx
  have hone := x25519Generate_refines (.refl _) ho
  have hkem : w.client.signedPrekeyPqPrivate = Ideal.kemPair z := (Except.ok.inj hz).symm
  have hdh₁ := sharedSecret_refines hc (hspk ▸ run.dh1_ok)
  have hdh₂ := sharedSecret_refines hc (hid ▸ run.dh2_ok)
  have hdh₃ := sharedSecret_refines hc (hspk ▸ run.dh3_ok)
  have hdh₄ := sharedSecret_refines hc (hone ▸ run.dh4_ok)
  have hss := decapsulate_length hc (hkem ▸ run.ssSpk_ok)
  have hlen : (run.dh1 ++ run.dh2).length = 2 := by
    rw [List.length_append, hdh₁, hdh₂, dhShared_length, dhShared_length]
  have hikm : run.ikm = (run.dh1 ++ run.dh2) ++
      (dhShared x message.initiatorEphemeralEcPublicKey ++ (run.ssSpkPq ++
        (dhShared o message.initiatorEphemeralEcPublicKey ++ run.ssOpkPq))) := by
    rw [← hdh₃, ← hdh₄]
    simp only [ResponderRun.ikm, concat, List.foldl, List.append_assoc]
    rfl
  have hxo : x ≠ o := by
    rintro rfl
    exact h.spk_apart run.ec hec (hone.trans hspk.symm)
  rw [hikm]
  constructor
  · exact h.newChain (isBase_handshake _ _ _) fun b' hb' =>
      hb'.ne_responded hxo ⟨run.ec, hec, hone⟩ hlen hss
  · refine .responded ?_ (fun key hkey he => ?_) hlen hss
    · have hmem := h.pool run.ec hec
      rw [hone] at hmem
      exact hmem
    · -- the pool holds no key twice, and this one has been erased
      have hkey' : key ∈ w.client.oneTimeEcPool := List.mem_of_mem_eraseP hkey
      have hsame : key = run.ec :=
        List.inj_on_of_nodup_map h.pool_distinct hkey' hec (he.trans hone.symm)
      have hid : run.ec.publicPart.id = run.ecId := by simpa using List.find?_some run.ec_found
      exact id_ne_of_mem_erase h.genuine.ec_ids hkey (hsame ▸ hid)

end Starts

/-- A chain key with the number of the message sealed with it: the key is at the place of that
number in its chain, and behind all used keys of the chain. -/
structure Next (used : List Str) (x : Str × UInt64) : Prop where
  placed : ∃ b, IsBase b ∧ Chain b x.2.toNat x.1
  later : ∀ ck ∈ used, ∀ b n n', IsBase b → Chain b n ck → Chain b n' x.1 → n < n'

theorem Next.unused {used : List Str} {x : Str × UInt64} (h : Next used x) : x.1 ∉ used := by
  intro hmem
  obtain ⟨b, hb, hc⟩ := h.placed
  exact lt_irrefl _ (h.later x.1 hmem b _ _ hb hc hc)

/-- The first message of a new chain. -/
theorem NewChain.next {cl : Client Str} {used : List Str} {b : Str} (h : NewChain cl used b) :
    Next used (b, 0) := by
  refine ⟨⟨b, h.isBase, .base⟩, fun ck hck b' n n' hb' hn hn' => ?_⟩
  obtain ⟨rfl, -⟩ := hn'.unique hb' h.isBase .base
  exact absurd hn (h.unused ck hck n)

/-- What a move means for the used keys: there is at most one more, and it is a new one. -/
structure Uses (used : List Str) (w w' : World Str S) (new : Option (Str × UInt64)) : Prop where
  seals : sealUses w'.trace = (new.map useOf).toList ++ sealUses w.trace
  next : ∀ x ∈ new, Next used x
  accounts : Accounts w'.trace w'.client ((new.map Prod.fst).toList ++ used)

section Moves

variable {v : Observer S} {w w' : World Str S} {used : List Str}

theorem NewChain.side {t : List (Event Str)} {cl : Client Str} {s : SessionState Str} {b : Str}
    (h : NewChain cl used b) (ho : Origin t cl b) (hc : Chain b s.sendCounter.toNat s.sendChainKey)
    (hle : s.sendCounter.toNat ≤ 10) (hr : s.remoteRatchetPublic ∈ receivedKeys t) :
    SendSide t cl used s b :=
  ⟨ho, hc, fun ck hck n hn => absurd hn (h.unused ck hck n), hle, hr⟩

/-- The send of a message: the session moves on in its chain. -/
theorem Accounts.sealed {c : Crypto Str} (hc : c.IsIdeal) {t : List (Event Str)} {cl : Client Str}
    (h : Accounts t cl used) {peer plaintext : Str} {s : SessionState Str}
    (hs : cl.sessionsByPeer.lookup peer = some s) (hd : ¬ s.ratchetDue)
    {header : MessageHeader Str} (run : SealChatRun c cl.userId peer s header plaintext) :
    Next used (s.sendChainKey, s.sendCounter) ∧
      Accounts t (cl.withSession peer run.session) (s.sendChainKey :: used) := by
  obtain ⟨b, hb⟩ := h.session peer s hs
  have hstep := deriveMessageKeyAndNextChain_refines hc run.step_ok
  have hck : run.session.sendChainKey = nextChainOf s.sendChainKey s.sendCounter :=
    congrArg Prod.snd hstep
  have hlt : s.sendCounter.toNat < 10 :=
    lt_of_le_of_ne hb.counter fun he => hd ((ratchetDue_iff hb.counter).mpr he)
  have hnext : run.session.sendCounter.toNat = s.sendCounter.toNat + 1 := toNat_succ hlt
  have hside : SendSide t cl used run.session b := by
    refine ⟨hb.origin, ?_, fun ck hck n hn => ?_, ?_, hb.remote⟩
    · rw [hnext, hck]
      exact hb.chain.next _
    · rw [hnext]
      exact (hb.behind ck hck n hn).trans (Nat.lt_succ_self _)
    · rw [hnext]
      exact hlt
  have hlocal : ∃ n, Crypto.symbolic.x25519Generate n = .ok run.session.localRatchetKey :=
    h.genuine.ratchet peer s hs
  have hnextKey : Next used (s.sendChainKey, s.sendCounter) := by
    refine ⟨⟨b, hb.origin.isBase, hb.chain⟩, fun ck hck b' n n' hb' hn hn' => ?_⟩
    obtain ⟨rfl, rfl⟩ := hn'.unique hb' hb.origin.isBase hb.chain
    exact hb.behind ck hck n hn
  refine ⟨hnextKey, ?_⟩
  have h₁ := h.withSession hlocal hside (h.other hs hb)
  refine h₁.use (hb.origin.mono List.suffix_rfl fun _ hk => Or.inl hk) hb.chain ?_
  intro p s' hl hs'
  by_cases hp : p = peer
  · subst hp
    rw [Client.lookup_withSession] at hl
    obtain rfl := Option.some.inj hl
    rw [hnext]
    exact Nat.lt_succ_self _
  · rw [Client.lookup_withSession_ne hp] at hl
    exact absurd hs'.chain (h.other hs hb p s' hp hl _)

/-- **One move uses at most one key, and a new one.** -/
theorem Move.uses (hm : Move Crypto.IsIdeal v w w') (hfresh : KeysFresh w'.trace)
    (h : Accounts w.trace w.client used) : ∃ new, Uses used w w' new := by
  have hgen := hm.genuine (fun _ hc => hc) h.genuine
  have ht := hm.trace_suffix
  have hid := hm.sameIdentity
  cases hm with
  | env | enqueue | save =>
    exact ⟨none, rfl, nofun, h⟩
  | input e he =>
    refine ⟨none, ?_, nofun, h.mono ht⟩
    cases e <;> first | rfl | cases he
  | generate | generateKem => exact ⟨none, rfl, nofun, h.mono ht⟩
  | flags | rememberPeer | verifyPeer =>
    exact ⟨none, rfl, nofun,
      h.frame ht hgen hid.spkEc.symm (fun _ hk => Or.inl hk) h.pool_distinct rfl⟩
  | addPq =>
    exact ⟨none, rfl, nofun,
      h.frame ht hgen hid.spkEc.symm (fun _ hk => Or.inl hk) h.pool_distinct rfl⟩
  | @addEc _ seed pair id hc hg h0 hfree =>
    have hpair := x25519Generate_refines hc hg
    subst hpair
    have hnew := hfresh.newKey
    refine ⟨none, rfl, nofun, h.frame ht hgen rfl (fun key hk => ?_) ?_ rfl⟩
    · rcases List.mem_append.mp hk with hk | hk
      · exact Or.inl hk
      · rw [List.mem_singleton.mp hk]
        exact Or.inr ⟨hnew.generated, List.mem_cons_self ..⟩
    · simp only [List.map_append, List.map_cons, List.map_nil]
      refine List.nodup_append.mpr ⟨h.pool_distinct, List.nodup_singleton _, ?_⟩
      rintro x hx y hy rfl
      obtain ⟨key, hkey, rfl⟩ := List.mem_map.mp hx
      have hp := h.pool key hkey
      rw [List.mem_singleton.mp hy] at hp
      exact hnew.generated hp
  | @ratchet c peer s hc hs run =>
    obtain ⟨b, hb⟩ := h.session peer s hs
    obtain ⟨hnew, ho⟩ := h.ratcheted hc hb.remote run hfresh
    refine ⟨none, rfl, nofun, (h.mono ht).withSession
      ⟨_, hc.x25519Generate run.generate_ok⟩ (hnew.side ho .base (Nat.zero_le _)
        (receivedKeys_subset ht hb.remote)) ?_⟩
    exact fun peer' s' _ hs' n => hnew.sessions peer' s' hs' n
  | @sealChat c peer plaintext s header hc hs hd run =>
    obtain ⟨hnext, hacc⟩ := h.sealed hc hs hd run
    have hmk : run.messageKey = messageKeyOf s.sendChainKey s.sendCounter :=
      congrArg Prod.fst (deriveMessageKeyAndNextChain_refines hc run.step_ok)
    refine ⟨some (s.sendChainKey, s.sendCounter), ?_, ?_, hacc.mono ht⟩
    · simp only [sealUses, List.filterMap_cons, Event.sealUse, hmk]
      rfl
    · rintro _ ⟨⟩
      exact hnext
  | @sealInitial c peer plaintext bundle hc hb run =>
    obtain ⟨hnew, ho⟩ := h.initiated hc hb run hfresh
    have hmk := (run.schedule hc).messageKey
    refine ⟨some (handshakeKeyOf run.ikm run.transcriptHash 1, 0), ?_, ?_, ?_⟩
    · simp only [sealUses, SealedInitiation.events, List.cons_append, List.nil_append,
        List.filterMap_cons, Event.sealUse, hmk]
      rfl
    · rintro _ ⟨⟩
      exact hnew.next
    · exact (h.mono ht).use ho .base fun peer' s' hs' hside =>
        absurd hside.chain (hnew.sessions peer' s' hs' _)
  | @initiate c peer plaintext bundle hc hb run =>
    obtain ⟨hnew, ho⟩ := h.initiated hc hb run hfresh
    have hmk := (run.schedule hc).messageKey
    refine ⟨some (handshakeKeyOf run.ikm run.transcriptHash 1, 0), ?_, ?_, ?_⟩
    · simp only [sealUses, SealedInitiation.events, List.cons_append, List.nil_append,
        List.filterMap_cons, Event.sealUse, hmk]
      rfl
    · rintro _ ⟨⟩
      exact hnew.next
    · let cl₁ := w.client.remember run.fields.sessionId run.transcriptHash
      have hgen₁ : cl₁.Genuine Crypto.symbolic :=
        h.genuine.of_sessions ⟨rfl, rfl, rfl, rfl, rfl, rfl, rfl, rfl⟩ rfl rfl h.genuine.ratchet
      have h₁ : Accounts (run.events ++ w.trace) cl₁ used :=
        h.frame ht hgen₁ rfl (fun _ hk => Or.inl hk) h.pool_distinct rfl
      have ho₁ : ∀ {cl'}, cl'.oneTimeEcPool = w.client.oneTimeEcPool →
          Origin (run.events ++ w.trace) cl' (handshakeKeyOf run.ikm run.transcriptHash 1) :=
        fun hpool => ho.mono List.suffix_rfl fun _ hk => Or.inl (hpool ▸ hk)
      have hchain : Chain (handshakeKeyOf run.ikm run.transcriptHash 1) 1
          run.session.sendChainKey := by
        rw [(run.schedule hc).sendChainKey]
        exact Chain.base.next 0
      have hnew₁ : NewChain cl₁ used (handshakeKeyOf run.ikm run.transcriptHash 1) :=
        ⟨hnew.isBase, hnew.unused, hnew.sessions⟩
      have hremote : run.session.remoteRatchetPublic ∈ receivedKeys (run.events ++ w.trace) :=
        mem_receivedKeys (List.mem_append_right _ hb)
          (List.mem_cons_of_mem _ (List.mem_cons_self ..))
      have hle : (1 : UInt64).toNat ≤ 10 := by decide
      have h₂ : Accounts (run.events ++ w.trace) (cl₁.withSession peer run.session) used :=
        h₁.withSession ⟨_, hc.x25519Generate run.eph_ok⟩
          (hnew₁.side (ho₁ rfl) hchain hle hremote)
          fun peer' s' _ hs' => hnew₁.sessions peer' s' hs'
      refine h₂.use (ho₁ rfl) .base fun peer' s' hs' hside => ?_
      by_cases hp : peer' = peer
      · subst hp
        rw [Client.lookup_withSession] at hs'
        obtain rfl := Option.some.inj hs'
        exact Nat.one_pos
      · rw [Client.lookup_withSession_ne hp] at hs'
        exact absurd hside.chain (hnew.sessions peer' s' hs' _)
  | @receiveChat c message s hc hm hs =>
    obtain ⟨hside, hremote⟩ := receiveChat_frame c message s
    refine ⟨none, rfl, nofun, h.received hs hside ?_⟩
    rcases hremote with he | he
    · obtain ⟨b, hb⟩ := h.session _ s hs
      rw [he]
      exact hb.remote
    · refine mem_receivedKeys hm ?_
      simp only [Event.receivedKeys, he, Option.toList_some, List.mem_singleton]
  | @accept c message hc hm run =>
    obtain ⟨hnew, ho⟩ := h.responded hc run
    let cl₁ : Client Str := { run.accepted with sessionsByPeer := w.client.sessionsByPeer }
    have hgen₁ : cl₁.Genuine Crypto.symbolic :=
      hgen.of_sessions ⟨rfl, rfl, rfl, rfl, rfl, rfl, rfl, rfl⟩ rfl rfl h.genuine.ratchet
    have h₁ : Accounts (.accepted message run.ec run.pq run.plaintext :: w.trace) cl₁ used :=
      h.frame ht hgen₁ rfl (fun key hk => Or.inl (List.mem_of_mem_eraseP hk))
        (h.pool_distinct.sublist (List.eraseP_sublist.map _)) rfl
    have hkeys := deriveHandshakeKeys_refines hc run.keys_ok
    have hsend : run.keys.send = handshakeKeyOf run.ikm message.transcriptHash 2 :=
      congrArg HandshakeKeys.send hkeys
    let s₁ := responderSession w.client message run.keys run.nextChainKey
    have hchain : Chain (handshakeKeyOf run.ikm message.transcriptHash 2) 0 s₁.sendChainKey :=
      hsend ▸ .base
    have hnew₁ : NewChain cl₁ used (handshakeKeyOf run.ikm message.transcriptHash 2) :=
      ⟨hnew.isBase, hnew.unused, hnew.sessions⟩
    have hremote : s₁.remoteRatchetPublic ∈ receivedKeys w.trace :=
      mem_receivedKeys hm (List.mem_cons_of_mem _ (List.mem_singleton_self _))
    have hside : SendSide (.accepted message run.ec run.pq run.plaintext :: w.trace) cl₁ used s₁
        (handshakeKeyOf run.ikm message.transcriptHash 2) :=
      hnew₁.side (ho.mono ht fun _ hk => Or.inl hk) hchain (Nat.zero_le _)
        (receivedKeys_subset ht hremote)
    exact ⟨none, rfl, nofun, h₁.withSession h.genuine.spkEc hside
      fun peer' s' _ hs' => hnew₁.sessions peer' s' hs'⟩

theorem Moves.uses (hm : Moves Crypto.IsIdeal v w w') (hfresh : KeysFresh w'.trace)
    (h : Accounts w.trace w.client used) :
    ∃ new : List (Str × UInt64), sealUses w'.trace = new.map useOf ++ sealUses w.trace ∧
      (new.map Prod.fst).Nodup ∧ (∀ x ∈ new, Next used x) ∧
      Accounts w'.trace w'.client (new.map Prod.fst ++ used) := by
  induction hm with
  | refl => exact ⟨[], rfl, List.nodup_nil, nofun, h⟩
  | @tail w₁ w₂ _ hm ih =>
    obtain ⟨new, hseals, hnodup, hnext, hacc⟩ := ih (hfresh.of_suffix hm.trace_suffix)
    obtain ⟨x, hx⟩ := hm.uses hfresh hacc
    rcases x with _ | y
    · exact ⟨new, hx.seals.trans hseals, hnodup, hnext, hx.accounts⟩
    · have hy := hx.next y rfl
      refine ⟨y :: new, ?_, ?_, ?_, hx.accounts⟩
      · rw [hx.seals, hseals]
        rfl
      · exact List.nodup_cons.mpr
          ⟨fun hmem => hy.unused (List.mem_append_left _ hmem), hnodup⟩
      · intro z hz
        rcases List.mem_cons.mp hz with rfl | hz
        · exact ⟨hy.placed, fun ck hck => hy.later ck (List.mem_append_right _ hck)⟩
        · exact hnext z hz

end Moves

/-! ## 5. Runs -/

/-- The state file holds all there is to account with. -/
theorem Accounts.reload {t : List (Event Str)} {cl : Client Str} {used : List Str}
    (h : Accounts t cl used) : Accounts t cl.reload used := by
  have hpool : cl.reload.oneTimeEcPool = cl.oneTimeEcPool := by
    refine (List.map_congr_left fun k hk => ?_).trans (List.map_id _)
    rw [OneTimeKey.reload, (h.genuine.ec k hk).1]
    rfl
  refine h.frame List.suffix_rfl h.genuine.reload ?_ (fun _ hk => Or.inl (hpool ▸ hk)) ?_ rfl
  · simp only [Client.reload, h.genuine.spkEc_public]
  · rw [hpool]
    exact h.pool_distinct

/-- A new identity accounts for whatever an earlier one has used. -/
theorem IdentityRun.accounts {c : Crypto Str} (hc : c.IsIdeal) (run : IdentityRun c)
    (userId : Str) {t t' : List (Event Str)} {used : List Str} (ht : t <:+ t')
    (hspk : .x25519 run.spkEc ∈ t')
    (hused : ∀ ck ∈ used, ∃ cl b n, Origin t cl b ∧ Chain b n ck) :
    Accounts t' (run.install (Client.blank userId)) used := by
  have hnone : ∀ {peer s}, (run.install (Client.blank userId)).sessionsByPeer.lookup peer =
      some s → False := by
    intro peer s hs
    simp [IdentityRun.install, Client.blank] at hs
  refine ⟨run.genuine hc userId, List.forall_mem_nil _, List.nodup_nil, mem_generatedKeys hspk,
    List.forall_mem_nil _, fun _ _ hs => (hnone hs).elim,
    fun _ _ _ _ _ _ hs _ _ => (hnone hs).elim, fun ck hck => ?_⟩
  obtain ⟨cl, b, n, ho, hc⟩ := hused ck hck
  exact ⟨b, n, ho.mono ht (List.forall_mem_nil _), hc⟩

/-- **Every client that is up, and every state file, is in order**: its sessions are in chains
of their own, with send counters up to the ratchet interval. -/
theorem Reach.accounts {alive : Bool} {w : World Str S} (h : Reach Crypto.IsIdeal alive w)
    (hfresh : KeysFresh w.trace) :
    (∀ d, w.disk = some d → Accounts w.trace d []) ∧
      (alive = true → Accounts w.trace w.client []) := by
  let D : World Str S → Prop := fun w => KeysFresh w.trace →
    ∀ d, w.disk = some d → Accounts w.trace d []
  let I : World Str S → Prop := fun w => (KeysFresh w.trace → Accounts w.trace w.client []) ∧ D w
  have key := h.invariant (D := D) (I := I) ?_ ?_ ?_ ?_ ?_
  · exact ⟨key.1 hfresh, fun ha => (key.2 ha).1 hfresh⟩
  · intro w hd _ _ d hd'
    rw [hd] at hd'
    cases hd'
  · intro w w₁ hD hb
    cases hb with
    | load saved n hdisk => exact ⟨fun hf => (hD hf saved hdisk).reload, hD⟩
    | @identity c hc userId drawn n run =>
      let w₁ : World Str S := { w with
        client := run.install (Client.blank userId)
        trace := .mlkem run.spkPq :: .x25519 run.spkEc :: .x25519 run.dhKey :: w.trace
        drawn := drawn
        diskUses := n }
      have ht : w.trace <:+ w₁.trace := List.suffix_append [_, _, _] _
      exact ⟨fun _ => run.accounts hc userId ht
          (List.mem_cons_of_mem _ (List.mem_cons_self ..)) nofun,
        fun hf d hd => (hD (hf.of_suffix ht) d hd).mono ht⟩
  · intro w w₁ hI hm
    have ht := hm.trace_suffix
    have hmem : KeysFresh w₁.trace → Accounts w₁.trace w₁.client [] := by
      intro hf
      obtain ⟨new, hnew⟩ := hm.uses hf (hI.1 (hf.of_suffix ht))
      exact hnew.accounts.subset (List.nil_subset _)
    refine ⟨hmem, fun hf d hd => ?_⟩
    have hold := hI.2 (hf.of_suffix ht)
    cases hm with
    | save =>
      obtain rfl := Option.some.inj hd
      exact hmem hf
    | _ => exact (hold d hd).mono ht
  · exact fun w hI => hI.2
  · intro w w₁ hD hd ht hf d hd'
    rw [hd] at hd'
    exact (hD (hf.of_suffix ht) d hd').mono ht

/-- **Message keys are used once in one process.**  From any world in which a client is up, such
as the one `Create` has left: no two seals that follow have the same key and nonce, and no send
counter passes the ratchet interval. -/
theorem seal_once {w₀ w : World Str S} (h₀ : Reach Crypto.IsIdeal true w₀)
    (h : Process Crypto.IsIdeal w₀ w) (hfresh : KeysFresh w.trace) :
    (∃ events, w.trace = events ++ w₀.trace ∧ (sealUses events).Nodup) ∧
      ∀ peer s, w.client.sessionsByPeer.lookup peer = some s →
        s.sendCounter ≤ kRatchetInterval := by
  have ht := h.moves.trace_suffix
  have hacc := (h₀.accounts (hfresh.of_suffix ht)).2 rfl
  obtain ⟨new, hseals, hnodup, -, hacc'⟩ := h.moves.uses hfresh hacc
  constructor
  · obtain ⟨events, hev⟩ := ht
    refine ⟨events, hev.symm, ?_⟩
    have hnew : sealUses events = new.map useOf := by
      rw [← hev, sealUses, List.filterMap_append] at hseals
      exact List.append_cancel_right hseals
    rw [hnew, List.Nodup, List.pairwise_map]
    refine (List.pairwise_map.mp hnodup).imp fun {x y} hne he => hne ?_
    exact messageKeyOf_inj (congrArg Prod.fst he)
  · intro peer s hs
    obtain ⟨b, hb⟩ := hacc'.session peer s hs
    exact UInt64.le_iff_toNat_le.mpr hb.counter

instance KeysFresh.decidable : (t : List (Event Str)) → Decidable (KeysFresh t)
  | [] => isTrue trivial
  | e :: t =>
    have := KeysFresh.decidable t
    decidable_of_iff ((∀ k ∈ e.generatedKey, k ∉ generatedKeys t ∧ k ∉ receivedKeys t) ∧
      KeysFresh t) Iff.rfl

namespace AliceBob

/-- Alice starts a session with Bob and sends him `n` messages. -/
def talk : Nat → World Str (List (Envelope Str))
  | 0 => ((Op.initiate bob.client.userId (text "hello")).run Crypto.symbolic
    (towards bob.client) alice).2
  | n + 1 => ((Op.send bob.client.userId (text "m")).run Crypto.symbolic (towards bob.client)
    (talk n)).2

theorem process_talk : ∀ n, Process Crypto.IsIdeal alice (talk n)
  | 0 => .op (.refl _) _ _ .refl
  | n + 1 => .op (.refl _) _ _ (process_talk n)

end AliceBob

/-- Eleven seals, the last one after a ratchet step. -/
theorem seal_once_alice : ∃ w, (Process Crypto.IsIdeal AliceBob.alice w ∧ KeysFresh w.trace ∧
      (sealUses w.trace).length = 11) ∧
    (∃ events, w.trace = events ++ AliceBob.alice.trace ∧ (sealUses events).Nodup) ∧
      ∀ peer s, w.client.sessionsByPeer.lookup peer = some s →
        s.sendCounter ≤ kRatchetInterval := by
  obtain ⟨hfresh, hlen⟩ : KeysFresh (AliceBob.talk 10).trace ∧
      (sealUses (AliceBob.talk 10).trace).length = 11 := by decide +kernel
  exact ⟨_, ⟨AliceBob.process_talk 10, hfresh, hlen⟩, seal_once
    (AliceBob.reach_alice.mono fun c hc => hc ▸ .refl c) (AliceBob.process_talk 10) hfresh⟩

end PqChat
