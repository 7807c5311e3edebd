/-
# Symbolic byte strings

The symbolic (Dolev-Yao) reading of cryptography: the output of a primitive is a free term
over its inputs, so two outputs are equal only if they are the same output of the same inputs.
A byte string is a list of symbols; a symbol is a literal byte, a generated key, or the
application of a primitive to byte strings.  The one equation is that Diffie-Hellman commutes:
`dhShared n [pub m] = dhShared m [pub n]`.

Symbols carry the size in bytes of what they stand for, so length prefixes and cuts at fixed
offsets mean on symbolic strings what they mean on real ones.  The lemma that makes length
prefixes readable is `append_inj_of_size`: two strings of the same size at the head of the
same string are equal.
-/
import PqChat.Lib.ByteString

namespace Symbolic

/-! ## 1. Symbols -/

/-- The two signature schemes of a hybrid signature. -/
inductive Scheme
  | classical
  | postQuantum
  deriving DecidableEq, Repr

/-- Symbols without arguments.  A number names a key; `dh m n` is the shared secret of the
keys `m ≤ n`. -/
inductive Atom
  | byte (b : UInt8)
  | priv (n : Nat)
  | pub (n : Nat)
  | dh (m n : Nat)
  | sigPriv (a : Scheme) (n : Nat)
  | sigPub (a : Scheme) (n : Nat)
  | kemPriv (n : Nat)
  | kemPub (n : Nat)
  | random (n : Nat)
  deriving DecidableEq, Repr

/-- The primitives.  `hkdf i` is the `i`-th 32-byte block of the output, `dh n` is key `n`
applied to a string that is not a public key, and `kemReject n` is what key `n` decapsulates
from a ciphertext made for another key. -/
inductive Prim
  | hkdf (i : Nat)
  | sha256
  | aead
  | dh (n : Nat)
  | sign (a : Scheme) (n : Nat)
  | kemCiphertext
  | kemSecret
  | kemReject (n : Nat)
  | hex
  deriving DecidableEq, Repr

/-- A symbol: an atom, or a primitive with at most four string arguments. -/
inductive Sym
  | atom (a : Atom)
  | app (p : Prim) (a b c d : List Sym)
  deriving Repr

mutual

/-- Equality of symbols is decidable. -/
def Sym.decEq : (x y : Sym) → Decidable (x = y)
  | .atom a, .atom b =>
    if h : a = b then isTrue (congrArg Sym.atom h) else isFalse fun e => h (Sym.atom.inj e)
  | .atom _, .app .. => isFalse nofun
  | .app .., .atom _ => isFalse nofun
  | .app p a b c d, .app p' a' b' c' d' =>
    if hp : p = p' then
      match Sym.decEqList a a', Sym.decEqList b b', Sym.decEqList c c', Sym.decEqList d d' with
      | isTrue ha, isTrue hb, isTrue hc, isTrue hd =>
        isTrue (by rw [hp, ha, hb, hc, hd])
      | isFalse h, _, _, _ => isFalse fun e => h (Sym.app.inj e).2.1
      | _, isFalse h, _, _ => isFalse fun e => h (Sym.app.inj e).2.2.1
      | _, _, isFalse h, _ => isFalse fun e => h (Sym.app.inj e).2.2.2.1
      | _, _, _, isFalse h => isFalse fun e => h (Sym.app.inj e).2.2.2.2
    else isFalse fun e => hp (Sym.app.inj e).1

/-- Equality of symbolic strings is decidable. -/
def Sym.decEqList : (x y : List Sym) → Decidable (x = y)
  | [], [] => isTrue rfl
  | [], _ :: _ => isFalse nofun
  | _ :: _, [] => isFalse nofun
  | s :: x, t :: y =>
    match Sym.decEq s t, Sym.decEqList x y with
    | isTrue hs, isTrue hx => isTrue (by rw [hs, hx])
    | isFalse h, _ => isFalse fun e => h (List.cons.inj e).1
    | _, isFalse h => isFalse fun e => h (List.cons.inj e).2

end

instance : DecidableEq Sym := Sym.decEq

/-- A symbolic byte string. -/
abbrev Str := List Sym

/-! ## 2. Sizes -/

/-- The size in bytes of an atom: the sizes of X25519, Ed25519, ML-DSA-65 and ML-KEM-768
keys, and sixteen bytes for a random string. -/
def Atom.size : Atom → Nat
  | .byte _ => 1
  | .priv _ | .pub _ | .dh .. => 32
  | .sigPriv .classical _ | .sigPub .classical _ => 32
  | .sigPriv .postQuantum _ => 4032
  | .sigPub .postQuantum _ => 1952
  | .kemPriv _ => 2400
  | .kemPub _ => 1184
  | .random _ => 16

mutual

/-- The size in bytes of a symbol.  An AEAD output is sixteen bytes longer than its
plaintext, which is the third argument. -/
def Sym.size : Sym → Nat
  | .atom a => a.size
  | .app .aead _ _ p _ => Sym.sizeList p + 16
  | .app .hex a _ _ _ => max 1 (2 * Sym.sizeList a)
  | .app (.sign .classical _) _ _ _ _ => 64
  | .app (.sign .postQuantum _) _ _ _ _ => 3309
  | .app .kemCiphertext _ _ _ _ => 1088
  | .app _ _ _ _ _ => 32

/-- The size in bytes of a symbolic string. -/
def Sym.sizeList : List Sym → Nat
  | [] => 0
  | s :: x => Sym.size s + Sym.sizeList x

end

theorem Atom.size_pos (a : Atom) : 0 < a.size := by
  rcases a with _ | _ | _ | _ | ⟨_ | _, _⟩ | ⟨_ | _, _⟩ | _ | _ | _ <;> simp [Atom.size]

/-- No symbol stands for the empty string. -/
theorem Sym.size_pos (s : Sym) : 0 < s.size := by
  rcases s with a | ⟨p, a, b, c, d⟩
  · simpa [Sym.size] using a.size_pos
  · rcases p with _ | _ | _ | _ | ⟨_ | _, _⟩ | _ | _ | _ | _ <;> simp only [Sym.size] <;> omega

/-- Drop the first `n` bytes. -/
def dropBytes : Str → Nat → Str
  | [], _ => []
  | s :: x, n => if n = 0 then s :: x else dropBytes x (n - s.size)

/-- Keep the first `n` bytes. -/
def takeBytes : Str → Nat → Str
  | [], _ => []
  | s :: x, n => if s.size ≤ n then s :: takeBytes x (n - s.size) else []

instance : ByteString Str where
  ofBytes l := l.map fun b => .atom (.byte b)
  size := Sym.sizeList
  slice x i j := takeBytes (dropBytes x i) (j - i)
  hexEncode x := [.app .hex x [] [] []]
  display x := String.ofList (x.map fun
    | .atom (.byte b) => Char.ofNat b.toNat
    | _ => '?')

@[simp] theorem sizeList_cons (s : Sym) (x : Str) :
    Sym.sizeList (s :: x) = s.size + Sym.sizeList x := by
  rw [Sym.sizeList]

@[simp] theorem sizeList_nil : Sym.sizeList [] = 0 := by
  rw [Sym.sizeList]

/-- **Equal sizes at the head of one string mean equal strings.**  This is what a reader of a
length prefix relies on. -/
theorem append_inj_of_size : ∀ {x y r s : Str}, x ++ r = y ++ s →
    Sym.sizeList x = Sym.sizeList y → x = y ∧ r = s
  | [], [], _, _, h, _ => ⟨rfl, h⟩
  | [], t :: y, _, _, _, hsz => by
    have := t.size_pos
    simp only [sizeList_cons, sizeList_nil] at hsz
    omega
  | t :: x, [], _, _, _, hsz => by
    have := t.size_pos
    simp only [sizeList_cons, sizeList_nil] at hsz
    omega
  | t :: x, u :: y, r, s, h, hsz => by
    obtain ⟨rfl, h'⟩ := List.cons.inj h
    simp only [sizeList_cons, Nat.add_left_cancel_iff] at hsz
    obtain ⟨rfl, rfl⟩ := append_inj_of_size h' hsz
    exact ⟨rfl, rfl⟩

/-! ## 3. Diffie-Hellman -/

/-- The shared secret of private key `n` and the public string `p`. -/
def dhShared (n : Nat) : Str → Str
  | [.atom (.pub m)] => [.atom (.dh (min n m) (max n m))]
  | p => [.app (.dh n) p [] [] []]

theorem dhShared_pub (n m : Nat) :
    dhShared n [.atom (.pub m)] = [.atom (.dh (min n m) (max n m))] := rfl

/-- A string is the public key of some private key, or Diffie-Hellman treats it as opaque. -/
theorem dhShared_cases (n : Nat) (p : Str) :
    (∃ m, p = [.atom (.pub m)]) ∨ dhShared n p = [.app (.dh n) p [] [] []] := by
  unfold dhShared
  split
  · exact Or.inl ⟨_, rfl⟩
  · exact Or.inr rfl

theorem dhShared_comm (n m : Nat) :
    dhShared n [.atom (.pub m)] = dhShared m [.atom (.pub n)] := by
  rw [dhShared_pub, dhShared_pub, Nat.min_comm, Nat.max_comm]

/-- **Shared secrets are free up to the swap of the two keys.** -/
theorem dhShared_inj {n m : Nat} {p q : Str} (h : dhShared n p = dhShared m q) :
    (n = m ∧ p = q) ∨ (p = [.atom (.pub m)] ∧ q = [.atom (.pub n)]) := by
  rcases dhShared_cases n p with ⟨a, rfl⟩ | hp <;> rcases dhShared_cases m q with ⟨b, rfl⟩ | hq
  · simp only [dhShared_pub, List.cons.injEq, Sym.atom.injEq, Atom.dh.injEq, and_true] at h
    have hab : (n = m ∧ a = b) ∨ (n = b ∧ a = m) := by omega
    rcases hab with ⟨rfl, rfl⟩ | ⟨rfl, rfl⟩
    · exact Or.inl ⟨rfl, rfl⟩
    · exact Or.inr ⟨rfl, rfl⟩
  · rw [dhShared_pub, hq] at h
    exact absurd (List.cons.inj h).1 (by simp)
  · rw [dhShared_pub, hp] at h
    exact absurd (List.cons.inj h).1 (by simp)
  · rw [hp, hq] at h
    have h1 := (List.cons.inj h).1
    simp only [Sym.app.injEq, Prim.dh.injEq, and_true] at h1
    exact Or.inl h1

/-- For one public string, the shared secret determines the private key. -/
theorem dhShared_left_inj {n m : Nat} {p : Str} (h : dhShared n p = dhShared m p) : n = m := by
  rcases dhShared_inj h with ⟨rfl, -⟩ | ⟨hp, hq⟩
  · rfl
  · rw [hp] at hq
    simpa using hq.symm

/-- A shared secret is one symbol. -/
theorem dhShared_length (n : Nat) (p : Str) : (dhShared n p).length = 1 := by
  rcases dhShared_cases n p with ⟨m, rfl⟩ | h
  · rfl
  · rw [h]
    rfl

/-! ## 4. The other primitives -/

/-- Block `i` of `HKDF(ikm, salt, info)`. -/
def hkdfBlock (ikm salt info : Str) (i : Nat) : Str := [.app (.hkdf i) ikm salt info []]

/-- The first `n` bytes of the HKDF output, in blocks of 32 bytes. -/
def hkdf (ikm salt info : Str) (n : Nat) : Str :=
  (List.range (n / 32)).flatMap (hkdfBlock ikm salt info)

/-- A hash. -/
def sha256 (x : Str) : Str := [.app .sha256 x [] [] []]

/-- An AEAD ciphertext. -/
def aeadSeal (key nonce plaintext ad : Str) : Str := [.app .aead key nonce plaintext ad]

/-- Opening succeeds exactly on a ciphertext sealed under the same key, nonce and associated
data. -/
def aeadOpen (key nonce : Str) : Str → Str → Option Str
  | [.app .aead key' nonce' plaintext ad'], ad =>
    if key = key' ∧ nonce = nonce' ∧ ad = ad' then some plaintext else none
  | _, _ => none

theorem hkdfBlock_inj {ikm salt info ikm' salt' info' : Str} {i j : Nat}
    (h : hkdfBlock ikm salt info i = hkdfBlock ikm' salt' info' j) :
    i = j ∧ ikm = ikm' ∧ salt = salt' ∧ info = info' := by
  have h1 := (List.cons.inj h).1
  simp only [Sym.app.injEq, Prim.hkdf.injEq, and_true] at h1
  exact h1

@[simp] theorem aeadOpen_seal (key nonce plaintext ad : Str) :
    aeadOpen key nonce (aeadSeal key nonce plaintext ad) ad = some plaintext := by
  simp [aeadOpen, aeadSeal]

/-- **Opening inverts sealing and nothing else.** -/
theorem aeadOpen_eq_some {key nonce ct ad plaintext : Str}
    (h : aeadOpen key nonce ct ad = some plaintext) :
    ct = aeadSeal key nonce plaintext ad := by
  unfold aeadOpen at h
  split at h
  · split at h
    · rename_i hk
      obtain ⟨rfl, rfl, rfl⟩ := hk
      rw [Option.some.inj h]
      rfl
    · cases h
  · cases h

end Symbolic
