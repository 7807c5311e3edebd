/-
# The cryptographic primitives

The client is written against thin wrappers around OpenSSL.  `Crypto B` is that provider: one
field for each primitive, over an arbitrary type `B` of byte strings, every call fallible as in
the source.  Generation of keys is a function of a SEED; the seeds come from the environment
(`Client/State.lean`), so a run of a client is a function of what its random number generator
returned.

Two readings of the provider are used.

* `Crypto.Lawful`: what any correct implementation guarantees -- X25519 commutes, decapsulation
  inverts encapsulation, honest signatures verify, `Open` inverts `Seal`.
* `Crypto.symbolic`: the ideal provider over symbolic strings, on which outputs are equal only
  for equal inputs.  `Crypto.Refines` lets single calls of a provider fail where the ideal one
  succeeds.
-/
import PqChat.Lib.Symbolic
import Mathlib.Tactic.SplitIfs

namespace PqChat

open ByteString

/-- `Result<T>`: a value or a non-empty error text. -/
abbrev Result (α : Type) := Except String α

/-! ## 1. The provider -/

/-- A key pair of any of the four schemes. -/
structure KeyPair (B : Type) where
  privateKey : B
  publicKey : B
  deriving DecidableEq, Repr

/-- `MlKemEncapResult`. -/
structure EncapResult (B : Type) where
  ciphertext : B
  sharedSecret : B
  deriving DecidableEq, Repr

/-- The primitives that OpenSSL provides.  `evpSeal` and `evpOpen` are ChaCha20-Poly1305 on a
key and a nonce of the right size. -/
structure Crypto (B : Type) where
  sha256 : B → Result B
  /-- `HkdfSha256(ikm, salt, info, output_len)`. -/
  hkdfSha256 : B → B → B → Nat → Result B
  evpSeal : (key nonce plaintext ad : B) → Result B
  evpOpen : (key nonce ciphertext ad : B) → Result B
  x25519Generate : Nat → Result (KeyPair B)
  x25519SharedSecret : (privateKey peerPublicKey : B) → Result B
  ed25519Generate : Nat → Result (KeyPair B)
  ed25519Sign : (privateKey message : B) → Result B
  ed25519Verify : (publicKey message signature : B) → Result Unit
  mldsa65Generate : Nat → Result (KeyPair B)
  mldsa65Sign : (privateKey message : B) → Result B
  mldsa65Verify : (publicKey message signature : B) → Result Unit
  mlkem768Generate : Nat → Result (KeyPair B)
  mlkem768Encapsulate : Nat → (publicKey : B) → Result (EncapResult B)
  mlkem768Decapsulate : (privateKey ciphertext : B) → Result B
  /-- `RAND_bytes` of sixteen bytes. -/
  randBytes16 : Nat → Result B
  /-- `RAND_bytes` of four bytes, read most significant byte first. -/
  randUint32 : Nat → Result UInt32

section Wrappers

variable {B : Type} [ByteString B] (c : Crypto B)

def kKeySize : Nat := 32
def kNonceSize : Nat := 12
def kTagSize : Nat := 16

/-- `AeadChaCha20Poly1305::Seal`. -/
def aeadSeal (key nonce plaintext ad : B) : Result B :=
  if size key ≠ kKeySize then .error "invalid key size"
  else if size nonce ≠ kNonceSize then .error "invalid nonce size"
  else c.evpSeal key nonce plaintext ad

/-- `AeadChaCha20Poly1305::Open`. -/
def aeadOpen (key nonce ciphertext ad : B) : Result B :=
  if size key ≠ kKeySize then .error "invalid key size"
  else if size nonce ≠ kNonceSize then .error "invalid nonce size"
  else if size ciphertext < kTagSize then .error "ciphertext too short"
  else c.evpOpen key nonce ciphertext ad

/-- `NonceFromCounter`: four zero bytes and the counter. -/
def nonceFromCounter (counter : UInt64) : B := ofBytes ([0, 0, 0, 0] ++ be64 counter)

/-- `Concat`. -/
def concat (parts : List B) : B := parts.foldl (· ++ ·) empty

end Wrappers

/-! ## 2. What a correct provider guarantees -/

/-- The laws the handshake and the ratchet rely on.  Key pairs are the ones the provider's own
generators return; SHA-256 does not fail. -/
structure Crypto.Lawful {B : Type} [ByteString B] (c : Crypto B) : Prop where
  sha256_total : ∀ x : B, ∃ y, c.sha256 x = .ok y
  sharedSecret_comm : ∀ {m n : Nat} {p q : KeyPair B} {s : B},
    c.x25519Generate m = .ok p → c.x25519Generate n = .ok q →
    c.x25519SharedSecret p.privateKey q.publicKey = .ok s →
    c.x25519SharedSecret q.privateKey p.publicKey = .ok s
  decapsulate_encapsulate : ∀ {m r : Nat} {p : KeyPair B} {e : EncapResult B},
    c.mlkem768Generate m = .ok p → c.mlkem768Encapsulate r p.publicKey = .ok e →
    c.mlkem768Decapsulate p.privateKey e.ciphertext = .ok e.sharedSecret
  ed25519Verify_sign : ∀ {m : Nat} {p : KeyPair B} {x s : B},
    c.ed25519Generate m = .ok p → c.ed25519Sign p.privateKey x = .ok s →
    c.ed25519Verify p.publicKey x s = .ok ()
  mldsa65Verify_sign : ∀ {m : Nat} {p : KeyPair B} {x s : B},
    c.mldsa65Generate m = .ok p → c.mldsa65Sign p.privateKey x = .ok s →
    c.mldsa65Verify p.publicKey x s = .ok ()
  open_seal : ∀ {key nonce plaintext ad ct : B},
    aeadSeal c key nonce plaintext ad = .ok ct → aeadOpen c key nonce ct ad = .ok plaintext

/-- Every call of `c` that succeeds returns what the same call of `d` returns: `c` is `d` with
failures. -/
structure Crypto.Refines {B : Type} (c d : Crypto B) : Prop where
  sha256 : ∀ {x y}, c.sha256 x = .ok y → d.sha256 x = .ok y
  hkdfSha256 : ∀ {ikm salt info n y},
    c.hkdfSha256 ikm salt info n = .ok y → d.hkdfSha256 ikm salt info n = .ok y
  evpSeal : ∀ {k n p a y}, c.evpSeal k n p a = .ok y → d.evpSeal k n p a = .ok y
  evpOpen : ∀ {k n x a y}, c.evpOpen k n x a = .ok y → d.evpOpen k n x a = .ok y
  x25519Generate : ∀ {m y}, c.x25519Generate m = .ok y → d.x25519Generate m = .ok y
  x25519SharedSecret : ∀ {p q y},
    c.x25519SharedSecret p q = .ok y → d.x25519SharedSecret p q = .ok y
  ed25519Generate : ∀ {m y}, c.ed25519Generate m = .ok y → d.ed25519Generate m = .ok y
  ed25519Sign : ∀ {p x y}, c.ed25519Sign p x = .ok y → d.ed25519Sign p x = .ok y
  ed25519Verify : ∀ {p x s}, c.ed25519Verify p x s = .ok () → d.ed25519Verify p x s = .ok ()
  mldsa65Generate : ∀ {m y}, c.mldsa65Generate m = .ok y → d.mldsa65Generate m = .ok y
  mldsa65Sign : ∀ {p x y}, c.mldsa65Sign p x = .ok y → d.mldsa65Sign p x = .ok y
  mldsa65Verify : ∀ {p x s}, c.mldsa65Verify p x s = .ok () → d.mldsa65Verify p x s = .ok ()
  mlkem768Generate : ∀ {m y}, c.mlkem768Generate m = .ok y → d.mlkem768Generate m = .ok y
  mlkem768Encapsulate : ∀ {r p y},
    c.mlkem768Encapsulate r p = .ok y → d.mlkem768Encapsulate r p = .ok y
  mlkem768Decapsulate : ∀ {p x y},
    c.mlkem768Decapsulate p x = .ok y → d.mlkem768Decapsulate p x = .ok y
  randBytes16 : ∀ {m y}, c.randBytes16 m = .ok y → d.randBytes16 m = .ok y
  randUint32 : ∀ {m y}, c.randUint32 m = .ok y → d.randUint32 m = .ok y

/-! ## 3. The ideal provider -/

namespace Ideal

open Symbolic

/-- The X25519 key pair with name `n`. -/
def dhPair (n : Nat) : KeyPair Str := ⟨[.atom (.priv n)], [.atom (.pub n)]⟩

/-- The signing key pair with name `n`. -/
def sigPair (a : Scheme) (n : Nat) : KeyPair Str :=
  ⟨[.atom (.sigPriv a n)], [.atom (.sigPub a n)]⟩

/-- The ML-KEM key pair with name `n`. -/
def kemPair (n : Nat) : KeyPair Str := ⟨[.atom (.kemPriv n)], [.atom (.kemPub n)]⟩

/-- `EVP_PKEY_derive` on raw keys: both are 32 bytes long. -/
def sharedSecret : Str → Str → Result Str
  | [.atom (.priv n)], p =>
    if size p = 32 then .ok (dhShared n p) else .error "new_raw_public_key failed"
  | _, _ => .error "new_raw_private_key failed"

def sign (a : Scheme) : Str → Str → Result Str
  | [.atom (.sigPriv b n)], x =>
    if b = a then .ok [.app (.sign a n) x [] [] []] else .error "private key is null"
  | _, _ => .error "private key is null"

def verify (a : Scheme) : Str → Str → Str → Result Unit
  | [.atom (.sigPub b n)], x, s =>
    if b = a ∧ s = [.app (.sign a n) x [] [] []] then .ok ()
    else .error "signature verification failed"
  | _, _, _ => .error "EVP_PKEY_fromdata failed"

def encapsulate (r : Nat) (p : Str) : Result (EncapResult Str) :=
  if size p = 1184 then
    .ok ⟨[.app .kemCiphertext p [.atom (.random r)] [] []],
      [.app .kemSecret p [.atom (.random r)] [] []]⟩
  else .error "EVP_PKEY_fromdata failed for public key"

/-- Decapsulation of a ciphertext made for another key does not fail: it yields a secret that
nothing else yields. -/
def decapsulate : Str → Str → Result Str
  | [.atom (.kemPriv n)], x =>
    if size x ≠ 1088 then .error "EVP_PKEY_decapsulate failed"
    else match x with
      | [.app .kemCiphertext p r _ _] =>
        if p = [.atom (.kemPub n)] then .ok [.app .kemSecret p r [] []]
        else .ok [.app (.kemReject n) x [] [] []]
      | _ => .ok [.app (.kemReject n) x [] [] []]
  | _, _ => .error "private key is null"

/-- Opening as a fallible call. -/
def evpOpen (key nonce ct ad : Str) : Result Str :=
  match Symbolic.aeadOpen key nonce ct ad with
  | some p => .ok p
  | none => .error "DecryptFinal failed"

end Ideal

/-- The ideal provider over symbolic strings. -/
def Crypto.symbolic : Crypto Symbolic.Str where
  sha256 x := .ok (Symbolic.sha256 x)
  hkdfSha256 ikm salt info n := .ok (Symbolic.hkdf ikm salt info n)
  evpSeal key nonce p ad := .ok (Symbolic.aeadSeal key nonce p ad)
  evpOpen := Ideal.evpOpen
  x25519Generate n := .ok (Ideal.dhPair n)
  x25519SharedSecret := Ideal.sharedSecret
  ed25519Generate n := .ok (Ideal.sigPair .classical n)
  ed25519Sign := Ideal.sign .classical
  ed25519Verify := Ideal.verify .classical
  mldsa65Generate n := .ok (Ideal.sigPair .postQuantum n)
  mldsa65Sign := Ideal.sign .postQuantum
  mldsa65Verify := Ideal.verify .postQuantum
  mlkem768Generate n := .ok (Ideal.kemPair n)
  mlkem768Encapsulate := Ideal.encapsulate
  mlkem768Decapsulate := Ideal.decapsulate
  randBytes16 n := .ok [.atom (.random n)]
  randUint32 n := .ok (UInt32.ofNat n)

namespace Ideal

open Symbolic

@[simp] theorem size_pub (n : Nat) : size ([.atom (.pub n)] : Str) = 32 := by
  simp [size, Sym.size, Atom.size]

@[simp] theorem size_kemPub (n : Nat) : size ([.atom (.kemPub n)] : Str) = 1184 := by
  simp [size, Sym.size, Atom.size]

@[simp] theorem sharedSecret_pub (m n : Nat) :
    sharedSecret [.atom (.priv m)] [.atom (.pub n)] = .ok (dhShared m [.atom (.pub n)]) := by
  rw [sharedSecret, size_pub, if_pos rfl]

end Ideal

/-- The ideal provider is a correct one. -/
theorem Crypto.symbolic_lawful : Crypto.symbolic.Lawful where
  sha256_total x := ⟨_, rfl⟩
  sharedSecret_comm := by
    intro m n p q s hp hq h
    obtain rfl : Ideal.dhPair m = p := Except.ok.inj hp
    obtain rfl : Ideal.dhPair n = q := Except.ok.inj hq
    refine Eq.trans ?_ h
    simp only [Crypto.symbolic, Ideal.dhPair, Ideal.sharedSecret_pub, Symbolic.dhShared_comm]
  decapsulate_encapsulate := by
    intro m r p e hp h
    obtain rfl : Ideal.kemPair m = p := Except.ok.inj hp
    simp only [Crypto.symbolic, Ideal.encapsulate, Ideal.kemPair, Ideal.size_kemPub,
      if_true] at h
    obtain rfl := Except.ok.inj h
    simp [Crypto.symbolic, Ideal.decapsulate, Ideal.kemPair, size, Symbolic.Sym.size]
  ed25519Verify_sign := by
    intro m p x s hp h
    obtain rfl : Ideal.sigPair .classical m = p := Except.ok.inj hp
    obtain rfl := Except.ok.inj h
    simp [Crypto.symbolic, Ideal.verify, Ideal.sigPair]
  mldsa65Verify_sign := by
    intro m p x s hp h
    obtain rfl : Ideal.sigPair .postQuantum m = p := Except.ok.inj hp
    obtain rfl := Except.ok.inj h
    simp [Crypto.symbolic, Ideal.verify, Ideal.sigPair]
  open_seal := by
    intro key nonce plaintext ad ct h
    unfold aeadSeal at h
    split_ifs at h with hk hn
    obtain rfl := Except.ok.inj h
    have hsize : ¬ size (Symbolic.aeadSeal key nonce plaintext ad) < kTagSize := by
      simp [size, Symbolic.aeadSeal, Symbolic.Sym.size, kTagSize]
    rw [aeadOpen, if_neg hk, if_neg hn, if_neg hsize]
    simp [Crypto.symbolic, Ideal.evpOpen]

theorem Crypto.Refines.refl {B : Type} (c : Crypto B) : c.Refines c :=
  ⟨id, id, id, id, id, id, id, id, id, id, id, id, id, id, id, id, id⟩

end PqChat
