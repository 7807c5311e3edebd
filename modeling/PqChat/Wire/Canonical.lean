/-
# Signed and hashed strings

Nine functions in four files build the strings that are signed or hashed.  All of them put a
tag first and a length before every field, so that a string can be taken apart again from the
front: the tag says who built it, and field by field the rest follows.

Two of them leave something out.  The associated data of a chat message covers its header but
not the nonce and the ciphertext; the signed string of a bundle does not cover the one-time
prekeys.
-/
import PqChat.Client.Handshake
import PqChat.Wire.RoundTrip

namespace PqChat

open ByteString

/-! ## 1. The builders -/

/-- The string `ComputeSafetyNumber` hashes. -/
def safetyNumberInput {B : Type} [ByteString B]
    (peerUser signPublicKey mldsaPublicKey dhPublicKey : B) : B :=
  let out := appendBytes empty (text "pqchat_peer_safety_number_v1")
  let out := appendBytes out peerUser
  let out := appendBytes out signPublicKey
  let out := appendBytes out mldsaPublicKey
  appendBytes out dhPublicKey

theorem computeSafetyNumber_eq {B : Type} [ByteString B] (c : Crypto B)
    (peerUser signPublicKey mldsaPublicKey dhPublicKey : B) :
    computeSafetyNumber c peerUser signPublicKey mldsaPublicKey dhPublicKey =
      hexEncode <$> c.sha256 (safetyNumberInput peerUser signPublicKey mldsaPublicKey
        dhPublicKey) := by
  rw [computeSafetyNumber]
  rcases h : c.sha256 (safetyNumberInput peerUser signPublicKey mldsaPublicKey dhPublicKey) with
    e | y
  · exact congrArg (· >>= fun hash => pure (hexEncode hash)) h
  · exact congrArg (· >>= fun hash => pure (hexEncode hash)) h

/-- A call of one of the builders. -/
inductive Canonical
  | ecPrekey (keyId : UInt32) (publicKey : Bytes)
  | pqPrekey (keyId : UInt32) (publicKey : Bytes)
  | bundle (bundle : PrekeyBundle Bytes)
  | transportAuth (userId clientNonce serverNonce challengeId : Bytes) (expiresAtUnix : UInt64)
  | transportRegister (userId newTransportAuthPublicKey : Bytes)
  | transportRegisterRotate
    (userId existingTransportAuthPublicKey newTransportAuthPublicKey : Bytes)
  | initialTranscript (fields : InitialTranscriptFields Bytes)
  | chatAssociatedData (message : ChatMessage Bytes)
  | safetyNumber (peerUser signPublicKey mldsaPublicKey dhPublicKey : Bytes)

namespace Canonical

/-- The string that is built. -/
def bytes : Canonical → Bytes
  | ecPrekey keyId publicKey => buildEcPrekeySignInput keyId publicKey
  | pqPrekey keyId publicKey => buildPqPrekeySignInput keyId publicKey
  | bundle b => buildBundleSignInput b
  | transportAuth userId clientNonce serverNonce challengeId expiresAtUnix =>
    buildTransportAuthSignInput userId clientNonce serverNonce challengeId expiresAtUnix
  | transportRegister userId key => buildTransportRegisterSignInput userId key
  | transportRegisterRotate userId existing key =>
    buildTransportRegisterRotateSignInput userId existing key
  | initialTranscript fields => PqChat.initialTranscript fields
  | chatAssociatedData message => PqChat.chatAssociatedData message
  | safetyNumber peerUser sign mldsa dh => safetyNumberInput peerUser sign mldsa dh

/-- The components that go into the string. -/
def components : Canonical → List Bytes
  | ecPrekey _ publicKey | pqPrekey _ publicKey => [publicKey]
  | bundle b => [b.userId, b.identitySignPublicKey, b.identityMldsaPublicKey,
    b.identityDhPublicKey, b.signedPrekeyEc.publicKey, b.signedPrekeyEc.signatureEd25519,
    b.signedPrekeyEc.signatureMldsa65, b.signedPrekeyPq.publicKey,
    b.signedPrekeyPq.signatureEd25519, b.signedPrekeyPq.signatureMldsa65, b.version,
    b.cipherSuite]
  | transportAuth userId clientNonce serverNonce challengeId _ =>
    [userId, clientNonce, serverNonce, challengeId]
  | transportRegister userId key => [userId, key]
  | transportRegisterRotate userId existing key => [userId, existing, key]
  | initialTranscript f => [f.sessionId, f.fromUser, f.toUser, f.version, f.cipherSuite,
    f.initiatorIdentitySignPublicKey, f.initiatorIdentityMldsaPublicKey,
    f.initiatorIdentityDhPublicKey, f.responderIdentitySignPublicKey,
    f.responderIdentityMldsaPublicKey, f.responderIdentityDhPublicKey,
    f.initiatorEphemeralEcPublicKey, f.kemCiphertextSignedPq] ++ f.kemCiphertextOneTimePq.toList
  | chatAssociatedData m =>
    [m.sessionId, m.fromUser, m.toUser] ++ m.header.senderRatchetPublicKey.toList
  | safetyNumber peerUser sign mldsa dh => [peerUser, sign, mldsa, dh]

/-- Every component is shorter than 2^32 bytes. -/
def Short (x : Canonical) : Prop := ∀ b ∈ x.components, b.length < 2 ^ 32

/-- The call with everything blanked out that the string does not cover. -/
def covered : Canonical → Canonical
  | bundle b => bundle { b with
    oneTimeEc := [], oneTimePq := [], bundleSignatureEd25519 := [], bundleSignatureMldsa65 := [] }
  | chatAssociatedData m => chatAssociatedData { m with nonce := [], ciphertext := [] }
  | x => x

end Canonical

/-! ## 2. Taking a string apart -/

section Apart

variable {r r' : Bytes}

theorem putU32_inj {v v' : UInt32} : putU32 v ++ r = putU32 v' ++ r' ↔ v = v' ∧ r = r' := by
  refine ⟨fun h => ?_, fun ⟨hv, hr⟩ => by rw [hv, hr]⟩
  obtain ⟨hv, hr⟩ := List.append_inj h rfl
  exact ⟨be32_inj hv, hr⟩

theorem putU64_inj {v v' : UInt64} : putU64 v ++ r = putU64 v' ++ r' ↔ v = v' ∧ r = r' := by
  refine ⟨fun h => ?_, fun ⟨hv, hr⟩ => by rw [hv, hr]⟩
  obtain ⟨hv, hr⟩ := List.append_inj h rfl
  exact ⟨be64_inj hv, hr⟩

theorem putBytes_inj {b b' : Bytes} (hb : b.length < 2 ^ 32) (hb' : b'.length < 2 ^ 32) :
    putBytes b ++ r = putBytes b' ++ r' ↔ b = b' ∧ r = r' := by
  refine ⟨fun h => ?_, fun ⟨hv, hr⟩ => by rw [hv, hr]⟩
  simp only [putBytes, List.append_assoc] at h
  obtain ⟨hlen, hrest⟩ := putU32_inj.mp h
  refine List.append_inj hrest ?_
  rw [← UInt32.toNat_inj, UInt32.toNat_ofNat_of_lt' hb, UInt32.toNat_ofNat_of_lt' hb'] at hlen
  exact hlen

/-- An optional field behind a 32-bit flag. -/
def putFlagged {α : Type} (put : α → Bytes) : Option α → Bytes
  | none => putU32 0
  | some a => putU32 1 ++ put a

theorem putFlagged_inj {α : Type} {put : α → Bytes} {x x' : Option α}
    (hput : ∀ a ∈ x, ∀ a' ∈ x', (put a ++ r = put a' ++ r' ↔ a = a' ∧ r = r')) :
    putFlagged put x ++ r = putFlagged put x' ++ r' ↔ x = x' ∧ r = r' := by
  cases x with
  | none =>
    cases x' with
    | none => simp [putFlagged]
    | some a' => simp [putFlagged, putU32_inj]
  | some a =>
    cases x' with
    | none => simp [putFlagged, putU32_inj]
    | some a' => simp [putFlagged, hput a rfl a' rfl]

theorem appendUint32_eq (out : Bytes) (v : UInt32) : appendUint32 out v = out ++ putU32 v := rfl

theorem appendUint64_eq (out : Bytes) (v : UInt64) : appendUint64 out v = out ++ putU64 v := rfl

theorem appendBytes_eq (out b : Bytes) : appendBytes out b = out ++ putBytes b :=
  List.append_assoc out _ b

theorem appendOption_eq {α : Type} {append : Bytes → α → Bytes} {put : α → Bytes}
    (h : ∀ out a, append out a = out ++ put a) (out : Bytes) (x : Option α) :
    appendOption append out x = out ++ putFlagged put x := by
  cases x with
  | none => rfl
  | some a => rw [appendOption, h, appendUint32_eq, putFlagged, List.append_assoc]

end Apart

/-! ## 3. Unambiguity -/

namespace Canonical

/-- Which of the functions it is. -/
inductive Builder
  | ecPrekey
  | pqPrekey
  | bundle
  | transportAuth
  | transportRegister
  | transportRegisterRotate
  | initialTranscript
  | chatAssociatedData
  | safetyNumber
  deriving DecidableEq

def Builder.tag : Builder → String
  | .ecPrekey => "pqchat_ec_prekey_v1"
  | .pqPrekey => "pqchat_pq_prekey_v1"
  | .bundle => "pqchat_bundle_sig_v2"
  | .transportAuth => "pqchat_transport_auth_v1"
  | .transportRegister => "pqchat_transport_register_v1"
  | .transportRegisterRotate => "pqchat_transport_register_rotate_v1"
  | .initialTranscript => "pqchat_initial_transcript_v1"
  | .chatAssociatedData => "pqchat_chat_ad_v1"
  | .safetyNumber => "pqchat_peer_safety_number_v1"

/-- No two builders have the same tag. -/
theorem Builder.tag_inj {b b' : Builder} (h : ascii b.tag = ascii b'.tag) : b = b' := by
  revert h
  cases b <;> cases b' <;> first | exact fun _ => rfl | decide

theorem Builder.tag_short (b : Builder) : (ascii b.tag).length < 2 ^ 32 := by
  cases b <;> decide

def builder : Canonical → Builder
  | ecPrekey .. => .ecPrekey
  | pqPrekey .. => .pqPrekey
  | bundle .. => .bundle
  | transportAuth .. => .transportAuth
  | transportRegister .. => .transportRegister
  | transportRegisterRotate .. => .transportRegisterRotate
  | initialTranscript .. => .initialTranscript
  | chatAssociatedData .. => .chatAssociatedData
  | safetyNumber .. => .safetyNumber

/-- What follows the tag. -/
def body : Canonical → Bytes
  | ecPrekey keyId publicKey | pqPrekey keyId publicKey =>
    putU32 keyId ++ (putBytes publicKey ++ [])
  | bundle b => putBytes b.userId ++ (putBytes b.identitySignPublicKey ++
    (putBytes b.identityMldsaPublicKey ++ (putBytes b.identityDhPublicKey ++
    (putU32 b.signedPrekeyEc.id ++ (putBytes b.signedPrekeyEc.publicKey ++
    (putBytes b.signedPrekeyEc.signatureEd25519 ++ (putBytes b.signedPrekeyEc.signatureMldsa65 ++
    (putU32 b.signedPrekeyPq.id ++ (putBytes b.signedPrekeyPq.publicKey ++
    (putBytes b.signedPrekeyPq.signatureEd25519 ++ (putBytes b.signedPrekeyPq.signatureMldsa65 ++
    (putBytes b.version ++ (putBytes b.cipherSuite ++ [])))))))))))))
  | transportAuth userId clientNonce serverNonce challengeId expiresAtUnix =>
    putBytes userId ++ (putBytes clientNonce ++ (putBytes serverNonce ++
    (putBytes challengeId ++ (putU64 expiresAtUnix ++ []))))
  | transportRegister userId key => putBytes userId ++ (putBytes key ++ [])
  | transportRegisterRotate userId existing key =>
    putBytes userId ++ (putBytes existing ++ (putBytes key ++ []))
  | initialTranscript f => putBytes f.sessionId ++ (putBytes f.fromUser ++ (putBytes f.toUser ++
    (putBytes f.version ++ (putBytes f.cipherSuite ++
    (putBytes f.initiatorIdentitySignPublicKey ++ (putBytes f.initiatorIdentityMldsaPublicKey ++
    (putBytes f.initiatorIdentityDhPublicKey ++ (putBytes f.responderIdentitySignPublicKey ++
    (putBytes f.responderIdentityMldsaPublicKey ++ (putBytes f.responderIdentityDhPublicKey ++
    (putBytes f.initiatorEphemeralEcPublicKey ++ (putU32 f.selectedPrekeys.signedPrekeyEcId ++
    (putU32 f.selectedPrekeys.signedPrekeyPqId ++
    (putFlagged putU32 f.selectedPrekeys.oneTimeEcId ++
    (putFlagged putU32 f.selectedPrekeys.oneTimePqId ++ (putBytes f.kemCiphertextSignedPq ++
    (putFlagged putBytes f.kemCiphertextOneTimePq ++ [])))))))))))))))))
  | chatAssociatedData m => putBytes m.sessionId ++ (putBytes m.fromUser ++ (putBytes m.toUser ++
    (putU64 m.header.previousChainLength ++ (putU64 m.header.messageNumber ++
    (putU32 m.header.flags ++ (putFlagged putBytes m.header.senderRatchetPublicKey ++ []))))))
  | safetyNumber peerUser sign mldsa dh =>
    putBytes peerUser ++ (putBytes sign ++ (putBytes mldsa ++ (putBytes dh ++ [])))

theorem bytes_eq (x : Canonical) : x.bytes = putBytes (ascii x.builder.tag) ++ x.body := by
  have htext : ∀ s : String, (text s : Bytes) = ascii s := fun _ => rfl
  have hopt : ∀ (out : Bytes) x, appendOption appendBytes out x = out ++ putFlagged putBytes x :=
    appendOption_eq appendBytes_eq
  have hopt₃₂ : ∀ (out : Bytes) x,
      appendOption appendUint32 out x = out ++ putFlagged putU32 x :=
    appendOption_eq appendUint32_eq
  cases x <;>
    simp only [bytes, builder, Builder.tag, body, buildEcPrekeySignInput, buildPqPrekeySignInput,
      toTagged, buildBundleSignInput, appendSignedPrekey, buildTransportAuthSignInput,
      buildTransportRegisterSignInput, buildTransportRegisterRotateSignInput,
      PqChat.initialTranscript, PqChat.chatAssociatedData, safetyNumberInput, appendBytes_eq,
      appendUint32_eq, appendUint64_eq, hopt, hopt₃₂, htext, bytes_empty, List.append_assoc,
      List.nil_append, List.append_nil]

theorem covered_builder (x : Canonical) : x.covered.builder = x.builder := by
  cases x <;> rfl

/-- For one builder, the fields are read off from the front. -/
theorem body_inj {x y : Canonical} (hb : x.builder = y.builder) (hx : x.Short) (hy : y.Short) :
    x.body = y.body ↔ x.covered = y.covered := by
  have hu32 : ∀ {r r' : Bytes} {o o' : Option UInt32},
      putFlagged putU32 o ++ r = putFlagged putU32 o' ++ r' ↔ o = o' ∧ r = r' :=
    putFlagged_inj fun _ _ _ _ => putU32_inj
  have hopt : ∀ {r r' : Bytes} {o o' : Option Bytes}, (∀ b ∈ o, b.length < 2 ^ 32) →
      (∀ b ∈ o', b.length < 2 ^ 32) →
      (putFlagged putBytes o ++ r = putFlagged putBytes o' ++ r' ↔ o = o' ∧ r = r') :=
    fun ho ho' => putFlagged_inj fun a ha a' ha' => putBytes_inj (ho a ha) (ho' a' ha')
  cases x <;> cases y <;> cases hb
  all_goals
    simp only [Short, components, List.forall_mem_cons, List.forall_mem_append,
      Option.mem_toList] at hx hy
  case bundle.bundle b b' =>
    obtain ⟨u, s, m, d, ⟨i₁, p₁, e₁, q₁⟩, ⟨i₂, p₂, e₂, q₂⟩, _, _, _, _, v, c⟩ := b
    obtain ⟨u', s', m', d', ⟨i₁', p₁', e₁', q₁'⟩, ⟨i₂', p₂', e₂', q₂'⟩, _, _, _, _, v', c'⟩ := b'
    simp only [body, covered, putBytes_inj, putU32_inj, hx, hy, bundle.injEq,
      PrekeyBundle.mk.injEq, SignedPrekey.mk.injEq, and_true, true_and]
    tauto
  case initialTranscript.initialTranscript f f' =>
    obtain ⟨_, _, _, _, _, _, _, _, _, _, _, _, ⟨_, _, _, _⟩, _, _⟩ := f
    obtain ⟨_, _, _, _, _, _, _, _, _, _, _, _, ⟨_, _, _, _⟩, _, _⟩ := f'
    simp only [body, covered, putBytes_inj, putU32_inj, hu32, hopt hx.2 hy.2, hx.1, hy.1,
      initialTranscript.injEq, InitialTranscriptFields.mk.injEq, PrekeySelection.mk.injEq,
      and_true, and_assoc]
  case chatAssociatedData.chatAssociatedData m m' =>
    obtain ⟨_, _, _, ⟨_, _, _, _⟩, _, _⟩ := m
    obtain ⟨_, _, _, ⟨_, _, _, _⟩, _, _⟩ := m'
    simp only [body, covered, putBytes_inj, putU32_inj, putU64_inj, hopt hx.2 hy.2, hx.1, hy.1,
      chatAssociatedData.injEq, ChatMessage.mk.injEq, MessageHeader.mk.injEq, and_true]
    tauto
  all_goals
    simp only [body, covered, putBytes_inj, putU32_inj, putU64_inj, hx, hy, and_true,
      ecPrekey.injEq, pqPrekey.injEq, transportAuth.injEq, transportRegister.injEq,
      transportRegisterRotate.injEq, safetyNumber.injEq]

/-- A string says which builder made it, and from what. -/
theorem covered_eq_of_bytes_eq {x y : Canonical} (hx : x.Short) (hy : y.Short)
    (h : x.bytes = y.bytes) : x.covered = y.covered := by
  rw [x.bytes_eq, y.bytes_eq, putBytes_inj x.builder.tag_short y.builder.tag_short] at h
  exact (body_inj (Builder.tag_inj h.1) hx hy).mp h.2

end Canonical

/-- **Signed and hashed strings are unambiguous.**  Two strings are equal exactly when they come
from the same builder and agree on everything the builder covers. -/
theorem canonical_unambiguous (x y : Canonical) (hx : x.Short) (hy : y.Short) :
    x.bytes = y.bytes ↔ x.covered = y.covered := by
  constructor
  · exact Canonical.covered_eq_of_bytes_eq hx hy
  · intro h
    have hb : x.builder = y.builder := by
      rw [← x.covered_builder, h, y.covered_builder]
    rw [x.bytes_eq, y.bytes_eq, hb, (Canonical.body_inj hb hx hy).mpr h]

/-- The two kinds of signed prekeys cannot be taken for each other. -/
theorem canonical_ec_ne_pq :
    (Canonical.ecPrekey 1 [7]).bytes ≠ (Canonical.pqPrekey 1 [7]).bytes := by
  have hshort : ∀ b ∈ [([7] : Bytes)], b.length < 2 ^ 32 := by decide
  intro h
  have hcov := (canonical_unambiguous (.ecPrekey 1 [7]) (.pqPrekey 1 [7]) hshort hshort).mp h
  cases hcov

end PqChat
