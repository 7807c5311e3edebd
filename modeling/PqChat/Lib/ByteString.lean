/-
# Byte strings, concrete or symbolic

Code that only concatenates byte strings, measures them, cuts them at fixed offsets and
compares them does not care what a byte is.  `ByteString B` names exactly those operations, so
that one definition of such code can be run on `List UInt8` and reasoned about over symbolic
terms.
-/
import Mathlib.Data.List.Basic

/-- The operations of `std::vector<uint8_t>` and `std::string` that a protocol uses. -/
class ByteString (B : Type) extends Append B where
  /-- A literal string of bytes. -/
  ofBytes : List UInt8 → B
  /-- The number of bytes. -/
  size : B → Nat
  /-- The bytes from offset `i` up to, and without, offset `j`. -/
  slice : B → Nat → Nat → B
  /-- Two lower-case hexadecimal digits for each byte. -/
  hexEncode : B → B
  /-- The string as part of an error text. -/
  display : B → String

namespace ByteString

/-- The four bytes of `v`, most significant first. -/
def be32 (v : UInt32) : List UInt8 :=
  [(v >>> 24).toUInt8, (v >>> 16).toUInt8, (v >>> 8).toUInt8, v.toUInt8]

/-- The eight bytes of `v`, most significant first. -/
def be64 (v : UInt64) : List UInt8 :=
  [(v >>> 56).toUInt8, (v >>> 48).toUInt8, (v >>> 40).toUInt8, (v >>> 32).toUInt8,
    (v >>> 24).toUInt8, (v >>> 16).toUInt8, (v >>> 8).toUInt8, v.toUInt8]

/-- A number can be read back from its bytes. -/
theorem be32_inj {a b : UInt32} (h : be32 a = be32 b) : a = b := by
  simp only [be32, List.cons.injEq, and_true, ← UInt8.toNat_inj, UInt32.toNat_toUInt8,
    UInt32.toNat_shiftRight] at h
  have ha := a.toNat_lt
  have hb := b.toNat_lt
  rw [← UInt32.toNat_inj]
  simp [Nat.shiftRight_eq_div_pow] at h
  omega

theorem be64_inj {a b : UInt64} (h : be64 a = be64 b) : a = b := by
  simp only [be64, List.cons.injEq, and_true, ← UInt8.toNat_inj, UInt64.toNat_toUInt8,
    UInt64.toNat_shiftRight] at h
  have ha := a.toNat_lt
  have hb := b.toNat_lt
  rw [← UInt64.toNat_inj]
  simp [Nat.shiftRight_eq_div_pow] at h
  omega

/-- The bytes of an ASCII text. -/
def ascii (s : String) : List UInt8 := s.toList.map fun ch => UInt8.ofNat ch.toNat

/-- The hexadecimal digit of a value below sixteen. -/
def hexDigit (n : UInt8) : UInt8 := if n < 10 then 48 + n else 87 + n

instance : ByteString (List UInt8) where
  ofBytes l := l
  size := List.length
  slice l i j := (l.drop i).take (j - i)
  hexEncode l := l.flatMap fun (b : UInt8) => [hexDigit (b >>> 4), hexDigit (b &&& 15)]
  display l := String.ofList (l.map fun b => Char.ofNat b.toNat)

theorem hexEncode_cons (b : UInt8) (bytes : List UInt8) :
    hexEncode (b :: bytes) = hexDigit (b >>> 4) :: hexDigit (b &&& 15) :: hexEncode bytes := rfl

theorem length_hexEncode (bytes : List UInt8) :
    (hexEncode bytes).length = 2 * bytes.length := by
  induction bytes with
  | nil => rfl
  | cons b bytes ih =>
    rw [hexEncode_cons, List.length_cons, List.length_cons, ih, List.length_cons]
    omega

variable {B : Type} [ByteString B]

/-- The empty string. -/
def empty : B := ofBytes []

/-- An ASCII literal. -/
def text (s : String) : B := ofBytes (ascii s)

/-- Append a 32-bit number, most significant byte first. -/
def appendUint32 (out : B) (v : UInt32) : B := out ++ ofBytes (be32 v)

/-- Append a 64-bit number, most significant byte first. -/
def appendUint64 (out : B) (v : UInt64) : B := out ++ ofBytes (be64 v)

/-- Append a string behind its length.  The length field is 32 bits wide: the size is cut to
that width, as a cast of `size_t` to `uint32_t` does. -/
def appendBytes (out b : B) : B := appendUint32 out (UInt32.ofNat (size b)) ++ b

/-- Append a presence flag and, if it is set, the value. -/
def appendOption {α : Type} (put : B → α → B) (out : B) : Option α → B
  | none => appendUint32 out 0
  | some a => put (appendUint32 out 1) a

end ByteString
