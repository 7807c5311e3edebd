/-
# Readers that invert writers

A reader takes a value from the front of its input, a writer says what the value looks like
there.  `Inverts` relates the two in both directions: what was written is read back, and what
can be read was written.  Readers have LIMITS that writers do not know; a value beyond them is
written all the same, and reading it is an error.

Records are read field by field, so the relation carries a predicate `P` with what is already
known of the value: `Inverts.field` reads one more field, `Inverts.done` ends with everything
known.  `Decodes` is the relation for a complete message.
-/
import PqChat.Lib.Proc
import PqChat.Lib.ByteString
import Mathlib.Algebra.Order.Ring.Nat
import Mathlib.Tactic.NormNum

namespace Codec

variable {τ α β : Type}

/-! ## 1. Readers and writers -/

/-- `get` reads the values with `P` that `put` writes.  `small` is what the width of the length
fields asks for, `fits` what the reader asks for. -/
structure Inverts (P : α → Prop) (put : α → List τ) (get : Proc (List τ) α)
    (small fits : α → Prop) : Prop where
  get_put : ∀ x rest, P x → small x → fits x → get (put x ++ rest) = (.ok x, rest)
  get_error : ∀ x rest, P x → small x → ¬ fits x → ∃ e, (get (put x ++ rest)).1 = .error e
  put_get : ∀ l x rest, get l = (.ok x, rest) → P x ∧ l = put x ++ rest ∧ small x ∧ fits x

/-- All of the value is known. -/
theorem Inverts.done {P : α → Prop} {a : α} (h : ∀ x, P x ↔ x = a) :
    Inverts (τ := τ) P (fun _ => []) (pure a) (fun _ => True) fun _ => True := by
  refine ⟨fun x rest hx _ _ => ?_, fun x _ _ _ hn => absurd trivial hn, fun l x rest hl => ?_⟩
  · rw [(h x).mp hx]
    rfl
  · obtain ⟨h₁, rfl⟩ := Prod.mk.inj hl
    exact ⟨(h x).mpr (Except.ok.inj h₁).symm, rfl, trivial, trivial⟩

/-- One more field. -/
theorem Inverts.field {P : α → Prop} {putF : β → List τ} {getF : Proc (List τ) β}
    {smallF fitsF : β → Prop} (hf : Inverts (fun _ => True) putF getF smallF fitsF) (p : α → β)
    {put : α → List τ} {k : β → Proc (List τ) α} {small fits : α → Prop}
    (hk : ∀ b, Inverts (fun x => P x ∧ p x = b) put (k b) small fits) :
    Inverts P (fun x => putF (p x) ++ put x) (getF >>= k) (fun x => smallF (p x) ∧ small x)
      fun x => fitsF (p x) ∧ fits x := by
  refine ⟨fun x rest hP hs hx => ?_, fun x rest hP hs hx => ?_, fun l x rest hl => ?_⟩
  · rw [List.append_assoc, Proc.bind_ok (hf.get_put _ _ trivial hs.1 hx.1)]
    exact (hk (p x)).get_put x rest ⟨hP, rfl⟩ hs.2 hx.2
  · rw [List.append_assoc]
    by_cases hfit : fitsF (p x)
    · rw [Proc.bind_ok (hf.get_put _ _ trivial hs.1 hfit)]
      exact (hk (p x)).get_error x rest ⟨hP, rfl⟩ hs.2 fun h => hx ⟨hfit, h⟩
    · obtain ⟨e, he⟩ := hf.get_error (p x) (put x ++ rest) trivial hs.1 hfit
      exact ⟨e, by rw [Proc.bind_error (Prod.ext he rfl)]⟩
  · obtain ⟨b, l', hb, hl'⟩ := Proc.bind_eq_ok_iff.mp hl
    obtain ⟨-, rfl, hs₁, hf₁⟩ := hf.put_get _ _ _ hb
    obtain ⟨⟨hP, rfl⟩, rfl, hs₂, hf₂⟩ := (hk b).put_get _ _ _ hl'
    exact ⟨hP, (List.append_assoc ..).symm, ⟨hs₁, hs₂⟩, hf₁, hf₂⟩

/-- The same relation in other words. -/
theorem Inverts.congr {P P' : α → Prop} {put put' : α → List τ} {get : Proc (List τ) α}
    {small small' fits fits' : α → Prop} (h : Inverts P put get small fits)
    (hP : ∀ x, P' x ↔ P x) (hput : ∀ x, small x → put' x = put x)
    (hsmall : ∀ x, small' x ↔ small x) (hfits : ∀ x, fits' x ↔ fits x) :
    Inverts P' put' get small' fits' := by
  refine ⟨fun x rest hx hs hf => ?_, fun x rest hx hs hf => ?_, fun l x rest hl => ?_⟩
  · rw [hput x ((hsmall x).mp hs)]
    exact h.get_put x rest ((hP x).mp hx) ((hsmall x).mp hs) ((hfits x).mp hf)
  · rw [hput x ((hsmall x).mp hs)]
    exact h.get_error x rest ((hP x).mp hx) ((hsmall x).mp hs) fun hn => hf ((hfits x).mpr hn)
  · obtain ⟨hx, he, hs, hf⟩ := h.put_get l x rest hl
    exact ⟨(hP x).mpr hx, by rw [hput x hs, he], (hsmall x).mpr hs, (hfits x).mpr hf⟩

/-- Error texts do not matter. -/
theorem Inverts.within {P : α → Prop} {put : α → List τ} {get : Proc (List τ) α}
    {small fits : α → Prop} (h : Inverts P put get small fits) (e : String) :
    Inverts P put (Proc.within e get) small fits := by
  refine ⟨fun x rest hx hs hf => ?_, fun x rest hx hs hf => ?_, fun l x rest hl => ?_⟩
  · exact Proc.within_ok (h.get_put x rest hx hs hf) e
  · obtain ⟨e', he⟩ := h.get_error x rest hx hs hf
    exact ⟨e ++ e', by rw [Proc.within_error (Prod.ext he rfl)]⟩
  · exact h.put_get l x rest (Proc.within_eq_ok_iff.mp hl)

/-! ## 2. Lists -/

/-- Read `n` values. -/
def readMany (get : Proc (List τ) α) : Nat → Proc (List τ) (List α)
  | 0 => pure []
  | n + 1 => do
    let x ← get
    let xs ← readMany get n
    pure (x :: xs)

theorem Inverts.many {put : α → List τ} {get : Proc (List τ) α} {small fits : α → Prop}
    (h : Inverts (fun _ => True) put get small fits) (n : Nat) :
    Inverts (fun xs : List α => xs.length = n) (fun xs => xs.flatMap put) (readMany get n)
      (fun xs => ∀ x ∈ xs, small x) fun xs => ∀ x ∈ xs, fits x := by
  refine ⟨fun xs rest hn hs hf => ?_, fun xs rest hn hs hf => ?_, fun l xs rest hl => ?_⟩
  · induction xs generalizing n with
    | nil =>
      subst hn
      rfl
    | cons x xs ih =>
      subst hn
      have h₁ := h.get_put x (xs.flatMap put ++ rest) trivial (hs x (List.mem_cons_self ..))
        (hf x (List.mem_cons_self ..))
      have h₂ := ih _ rfl (fun y hy => hs y (List.mem_cons_of_mem _ hy))
        fun y hy => hf y (List.mem_cons_of_mem _ hy)
      rw [List.flatMap_cons, List.append_assoc, List.length_cons, readMany, Proc.bind_ok h₁,
        Proc.bind_ok h₂]
      rfl
  · induction xs generalizing n with
    | nil => exact absurd (fun _ hx => nomatch hx) hf
    | cons x xs ih =>
      subst hn
      rw [List.flatMap_cons, List.append_assoc, List.length_cons, readMany]
      have hsx := hs x (List.mem_cons_self ..)
      by_cases hx : fits x
      · have hrest : ¬ ∀ y ∈ xs, fits y := fun hall => hf (List.forall_mem_cons.mpr ⟨hx, hall⟩)
        obtain ⟨e, he⟩ := ih _ rfl (fun y hy => hs y (List.mem_cons_of_mem _ hy)) hrest
        rw [Proc.bind_ok (h.get_put x _ trivial hsx hx), Proc.bind_error (Prod.ext he rfl)]
        exact ⟨e, rfl⟩
      · obtain ⟨e, he⟩ := h.get_error x (xs.flatMap put ++ rest) trivial hsx hx
        rw [Proc.bind_error (Prod.ext he rfl)]
        exact ⟨e, rfl⟩
  · induction n generalizing l xs with
    | zero =>
      obtain ⟨h₁, rfl⟩ := Prod.mk.inj hl
      obtain rfl := Except.ok.inj h₁
      exact ⟨rfl, rfl, nofun, nofun⟩
    | succ n ih =>
      obtain ⟨x, l₁, hx, hl₁⟩ := Proc.bind_eq_ok_iff.mp hl
      obtain ⟨ys, l₂, hys, hl₂⟩ := Proc.bind_eq_ok_iff.mp hl₁
      obtain ⟨h₁, rfl⟩ := Prod.mk.inj hl₂
      obtain rfl := Except.ok.inj h₁
      obtain ⟨-, rfl, hs₁, hf₁⟩ := h.put_get _ _ _ hx
      obtain ⟨rfl, rfl, hs₂, hf₂⟩ := ih _ _ hys
      exact ⟨rfl, by rw [List.flatMap_cons, List.append_assoc],
        List.forall_mem_cons.mpr ⟨hs₁, hs₂⟩, List.forall_mem_cons.mpr ⟨hf₁, hf₂⟩⟩

/-- Take `n` tokens as they are. -/
theorem Inverts.take {n : Nat} {get : Proc (List τ) (List τ)}
    (hget : ∀ l, n ≤ l.length → get l = (.ok (l.take n), l.drop n))
    (hshort : ∀ l, l.length < n → ∃ e, (get l).1 = .error e) :
    Inverts (fun x : List τ => x.length = n) id get (fun _ => True) fun _ => True := by
  refine ⟨fun x rest hx _ _ => ?_, fun _ _ _ _ hn => absurd trivial hn, fun l x rest hl => ?_⟩
  · subst hx
    rw [id, hget _ (by simp), List.take_left, List.drop_left]
  · by_cases hn : n ≤ l.length
    · rw [hget l hn] at hl
      obtain ⟨h₁, rfl⟩ := Prod.mk.inj hl
      obtain rfl := Except.ok.inj h₁
      exact ⟨List.length_take_of_le hn, (List.take_append_drop n l).symm, trivial, trivial⟩
    · obtain ⟨e, he⟩ := hshort l (not_le.mp hn)
      rw [hl] at he
      cases he

/-! ## 3. Complete messages -/

/-- `decode` accepts exactly what `put` writes, within the limits. -/
structure Decodes (put : α → List τ) (decode : List τ → Except String α)
    (small fits : α → Prop) : Prop where
  decode_put : ∀ x, small x → fits x → decode (put x) = .ok x
  decode_error : ∀ x, small x → ¬ fits x → ∃ e, decode (put x) = .error e
  put_decode : ∀ l x, decode l = .ok x → l = put x ∧ small x ∧ fits x
  no_extension : ∀ l r x y, decode l = .ok x → decode (l ++ r) = .ok y → r = []

/-- A message that is read field by field, must not be too long, and must have been read to its
end. -/
theorem Inverts.decodes {put : α → List τ} {get : Proc (List τ) α} {small fits : α → Prop}
    (h : Inverts (fun _ => True) put get small fits) {max : Nat}
    {decode : List τ → Except String α}
    (hok : ∀ l x, decode l = .ok x ↔ l.length ≤ max ∧ get l = (.ok x, [])) :
    Decodes put decode small fun x => fits x ∧ (put x).length ≤ max := by
  have hput : ∀ x, small x → fits x → get (put x) = (.ok x, []) := fun x hs hf => by
    have hx := h.get_put x [] trivial hs hf
    rwa [List.append_nil] at hx
  refine ⟨fun x hs hf => (hok _ _).mpr ⟨hf.2, hput x hs hf.1⟩, fun x hs hf => ?_,
    fun l x hl => ?_, fun l r x y hl hr => ?_⟩
  · rcases hd : decode (put x) with e | y
    · exact ⟨e, rfl⟩
    · obtain ⟨hle, hy⟩ := (hok _ _).mp hd
      by_cases hfit : fits x
      · exact absurd ⟨hfit, hle⟩ hf
      · obtain ⟨e, he⟩ := h.get_error x [] trivial hs hfit
        rw [List.append_nil, hy] at he
        cases he
  · obtain ⟨hle, hx⟩ := (hok _ _).mp hl
    obtain ⟨-, he, hs, hf⟩ := h.put_get _ _ _ hx
    rw [List.append_nil] at he
    exact ⟨he, hs, hf, he ▸ hle⟩
  · obtain ⟨-, hx⟩ := (hok _ _).mp hl
    obtain ⟨-, he, hs, hf⟩ := h.put_get _ _ _ hx
    rw [List.append_nil] at he
    subst he
    have hy := ((hok _ _).mp hr).2
    rw [h.get_put x r trivial hs hf] at hy
    exact (Prod.mk.inj hy).2

theorem Decodes.congr {put put' : α → List τ} {decode : List τ → Except String α}
    {small small' fits fits' : α → Prop} (h : Decodes put decode small fits)
    (hput : ∀ x, small x → put' x = put x) (hsmall : ∀ x, small' x ↔ small x)
    (hfits : ∀ x, small x → (fits' x ↔ fits x)) : Decodes put' decode small' fits' := by
  refine ⟨fun x hs hf => ?_, fun x hs hf => ?_, fun l x hl => ?_, h.no_extension⟩
  · have hs' := (hsmall x).mp hs
    rw [hput x hs']
    exact h.decode_put x hs' ((hfits x hs').mp hf)
  · have hs' := (hsmall x).mp hs
    rw [hput x hs']
    exact h.decode_error x hs' fun hn => hf ((hfits x hs').mpr hn)
  · obtain ⟨he, hs, hf⟩ := h.put_decode l x hl
    exact ⟨by rw [hput x hs, he], (hsmall x).mpr hs, (hfits x hs).mpr hf⟩

/-- A message inside a message: read as a field of its own, then decoded. -/
theorem Decodes.nested {put : α → List τ} {decode : List τ → Except String α}
    {small fits : α → Prop} (h : Decodes put decode small fits) {putF : List τ → List τ}
    {getF : Proc (List τ) (List τ)} {smallF fitsF : List τ → Prop}
    (hf : Inverts (fun _ => True) putF getF smallF fitsF) (e : String) :
    Inverts (fun _ => True) (fun x => putF (put x))
      (getF >>= fun l => Proc.ofExcept e (decode l)) (fun x => smallF (put x) ∧ small x)
      fun x => fitsF (put x) ∧ fits x := by
  refine ⟨fun x rest _ hs hx => ?_, fun x rest _ hs hx => ?_, fun l x rest hl => ?_⟩
  · rw [Proc.bind_ok (hf.get_put _ _ trivial hs.1 hx.1), h.decode_put x hs.2 hx.2]
    rfl
  · by_cases hfit : fitsF (put x)
    · obtain ⟨e', he⟩ := h.decode_error x hs.2 fun hn => hx ⟨hfit, hn⟩
      rw [Proc.bind_ok (hf.get_put _ _ trivial hs.1 hfit), he]
      exact ⟨e ++ e', rfl⟩
    · obtain ⟨e', he⟩ := hf.get_error (put x) rest trivial hs.1 hfit
      rw [Proc.bind_error (Prod.ext he rfl)]
      exact ⟨e', rfl⟩
  · obtain ⟨b, l', hb, hl'⟩ := Proc.bind_eq_ok_iff.mp hl
    obtain ⟨hd, rfl⟩ := Proc.ofExcept_eq_ok_iff.mp hl'
    obtain ⟨-, rfl, hs₁, hf₁⟩ := hf.put_get _ _ _ hb
    obtain ⟨rfl, hs₂, hf₂⟩ := h.put_decode _ _ hd
    exact ⟨trivial, rfl, ⟨hs₁, hs₂⟩, hf₁, hf₂⟩

end Codec

/-! ## 4. Numbers, most significant byte first -/

namespace ByteString

/-- Read four bytes, most significant first. -/
def ofBe32 (a b c d : UInt8) : UInt32 :=
  (a.toUInt32 <<< 24) ||| (b.toUInt32 <<< 16) ||| (c.toUInt32 <<< 8) ||| d.toUInt32

/-- Read bytes, most significant first, by shifting them in. -/
def ofBe64 (bytes : List UInt8) : UInt64 :=
  bytes.foldl (fun value b => (value <<< 8) ||| b.toUInt64) 0

theorem toNat_ofBe32 (a b c d : UInt8) : (ofBe32 a b c d).toNat =
    ((a.toNat * 256 + b.toNat) * 256 + c.toNat) * 256 + d.toNat := by
  have ha := a.toNat_lt
  have hb := b.toNat_lt
  have hc := c.toNat_lt
  have hd := d.toNat_lt
  have hshift : ∀ {x : Nat} (k : Nat), x < 256 → k ≤ 24 → x <<< k % 2 ^ 32 = x <<< k := by
    intro x k hx hk
    refine Nat.mod_eq_of_lt ?_
    rw [Nat.shiftLeft_eq]
    calc x * 2 ^ k < 256 * 2 ^ k := Nat.mul_lt_mul_of_pos_right hx (Nat.two_pow_pos k)
      _ ≤ 256 * 2 ^ 24 := Nat.mul_le_mul_left _ (Nat.pow_le_pow_right (by decide) hk)
      _ = 2 ^ 32 := by norm_num
  have hsum : a.toNat <<< 24 ||| b.toNat <<< 16 ||| c.toNat <<< 8 ||| d.toNat =
      (((a.toNat <<< 8 ||| b.toNat) <<< 8 ||| c.toNat) <<< 8) ||| d.toNat := by
    simp only [Nat.shiftLeft_or_distrib, ← Nat.shiftLeft_add]
  simp only [ofBe32, UInt32.toNat_or, UInt32.toNat_shiftLeft, UInt8.toNat_toUInt32]
  simp only [UInt32.reduceToNat, Nat.reduceMod]
  rw [hshift 24 ha (by decide), hshift 16 hb (by decide), hshift 8 hc (by decide), hsum]
  rw [← Nat.shiftLeft_add_eq_or_of_lt hb, ← Nat.shiftLeft_add_eq_or_of_lt hc,
    ← Nat.shiftLeft_add_eq_or_of_lt hd]
  simp only [Nat.shiftLeft_eq]

theorem ofBe32_be32 (v : UInt32) : ofBe32 (v >>> 24).toUInt8 (v >>> 16).toUInt8
    (v >>> 8).toUInt8 v.toUInt8 = v := by
  have hv := v.toNat_lt
  rw [← UInt32.toNat_inj, toNat_ofBe32]
  simp only [UInt32.toNat_toUInt8, UInt32.toNat_shiftRight]
  simp [Nat.shiftRight_eq_div_pow]
  omega

theorem be32_ofBe32 (a b c d : UInt8) : be32 (ofBe32 a b c d) = [a, b, c, d] := by
  have ha := a.toNat_lt
  have hb := b.toNat_lt
  have hc := c.toNat_lt
  have hd := d.toNat_lt
  simp only [be32, List.cons.injEq, and_true, ← UInt8.toNat_inj, UInt32.toNat_toUInt8,
    UInt32.toNat_shiftRight, toNat_ofBe32]
  simp [Nat.shiftRight_eq_div_pow]
  omega

theorem toNat_shiftIn {v : UInt64} (h : v.toNat < 2 ^ 56) (b : UInt8) :
    ((v <<< 8) ||| b.toUInt64).toNat = v.toNat * 256 + b.toNat := by
  have hb := b.toNat_lt
  have hshift : v.toNat <<< 8 % 2 ^ 64 = v.toNat <<< 8 := by
    refine Nat.mod_eq_of_lt ?_
    rw [Nat.shiftLeft_eq]
    omega
  rw [UInt64.toNat_or, UInt64.toNat_shiftLeft, UInt8.toNat_toUInt64]
  simp only [UInt64.reduceToNat, Nat.reduceMod]
  rw [hshift, ← Nat.shiftLeft_add_eq_or_of_lt hb, Nat.shiftLeft_eq]

/-- Bytes shifted into a number. -/
def horner (n : Nat) (bytes : List UInt8) : Nat := bytes.foldl (fun n b => n * 256 + b.toNat) n

theorem toNat_foldl_shiftIn : ∀ (bytes : List UInt8) (v : UInt64) (k : Nat), v.toNat < 256 ^ k →
    k + bytes.length ≤ 8 →
    (bytes.foldl (fun (value : UInt64) b => (value <<< 8) ||| b.toUInt64) v).toNat =
      horner v.toNat bytes
  | [], _, _, _, _ => rfl
  | b :: bytes, v, k, hv, hk => by
    have hb := b.toNat_lt
    have hlt : v.toNat < 2 ^ 56 := by
      refine hv.trans_le ?_
      calc 256 ^ k ≤ 256 ^ 7 := Nat.pow_le_pow_right (by decide) (by simp at hk; omega)
        _ = 2 ^ 56 := by norm_num
    have hstep := toNat_shiftIn hlt b
    have h := toNat_foldl_shiftIn bytes ((v <<< 8) ||| b.toUInt64) (k + 1)
      (by rw [hstep, pow_succ]; omega) (by simp at hk; omega)
    rw [List.foldl_cons, h, hstep]
    rfl

theorem toNat_ofBe64 {bytes : List UInt8} (h : bytes.length ≤ 8) :
    (ofBe64 bytes).toNat = horner 0 bytes :=
  toNat_foldl_shiftIn bytes 0 0 (by decide) (by omega)

theorem ofBe64_be64 (v : UInt64) : ofBe64 (be64 v) = v := by
  have hv := v.toNat_lt
  rw [← UInt64.toNat_inj, toNat_ofBe64 (by rfl)]
  simp only [be64, horner, List.foldl_cons, List.foldl_nil, UInt64.toNat_toUInt8,
    UInt64.toNat_shiftRight]
  simp [Nat.shiftRight_eq_div_pow]
  omega

theorem be64_ofBe64 (a b c d e f g h : UInt8) :
    be64 (ofBe64 [a, b, c, d, e, f, g, h]) = [a, b, c, d, e, f, g, h] := by
  have ha := a.toNat_lt
  have hb := b.toNat_lt
  have hc := c.toNat_lt
  have hd := d.toNat_lt
  have he := e.toNat_lt
  have hf := f.toNat_lt
  have hg := g.toNat_lt
  have hh := h.toNat_lt
  have hn : (ofBe64 [a, b, c, d, e, f, g, h]).toNat = horner 0 [a, b, c, d, e, f, g, h] :=
    toNat_ofBe64 le_rfl
  simp only [be64, List.cons.injEq, and_true, ← UInt8.toNat_inj, UInt64.toNat_toUInt8,
    UInt64.toNat_shiftRight, hn, horner, List.foldl_cons, List.foldl_nil]
  simp [Nat.shiftRight_eq_div_pow]
  omega
end ByteString

/-! ## 5. What a reader comes to

`Inverts` is about all values at once.  `Yields` is about one input: it also covers a reader that
does not return what was written, or that stops. -/

namespace Codec

variable {σ τ α β : Type}

/-- On what begins with `l` the reader `get` comes to a result: it takes `l` off and returns the
value, or it stops with the error. -/
def Yields (get : Proc (List τ) α) (l : List τ) : Except String α → Prop
  | .ok x => ∀ rest, get (l ++ rest) = (.ok x, rest)
  | .error e => ∀ rest, (get (l ++ rest)).1 = .error e

theorem Inverts.yields {P : α → Prop} {put : α → List τ} {get : Proc (List τ) α}
    {small fits : α → Prop} (h : Inverts P put get small fits) {x : α} (hx : P x) (hs : small x)
    (hf : fits x) : Yields get (put x) (.ok x) :=
  fun rest => h.get_put x rest hx hs hf

namespace Yields

variable {get : Proc (List τ) β} {k : β → Proc (List τ) α} {l l' : List τ} {b : β}
  {r : Except String α}

theorem pure (x : α) : Yields (Pure.pure x : Proc (List τ) α) [] (.ok x) := fun _ => rfl

/-- The rule for a sequence whose first part succeeds. -/
theorem bind (h : Yields get l (.ok b)) (hk : Yields (k b) l' r) :
    Yields (get >>= k) (l ++ l') r := by
  cases r with
  | ok x =>
    intro rest
    rw [List.append_assoc, Proc.bind_ok (h _)]
    exact hk rest
  | error e =>
    intro rest
    rw [List.append_assoc, Proc.bind_ok (h _)]
    exact hk rest

/-- And the rule for one whose first part stops. -/
theorem stop {e : String} (h : Yields get l (.error e)) :
    Yields (get >>= k) (l ++ l') (.error e) := by
  intro rest
  rw [List.append_assoc, Proc.bind_error (Prod.ext (h _) rfl)]

theorem within (h : Yields get l (.ok b)) (p : String) : Yields (Proc.within p get) l (.ok b) :=
  fun rest => Proc.within_ok (h rest) p

theorem within_error {e : String} (h : Yields get l (.error e)) (p : String) :
    Yields (Proc.within p get) l (.error (p ++ e)) :=
  fun rest => congrArg Prod.fst (Proc.within_error (Prod.ext (h rest) rfl) p)

theorem ofExcept_bind {p : String} {x : Except String β} (hx : x = .ok b)
    (hk : Yields (k b) l r) : Yields (Proc.ofExcept p x >>= k) l r := by
  rw [hx]
  exact hk

theorem require_bind {p : Prop} [Decidable p] {e : String} {x : Proc (List τ) α} (hp : p)
    (hx : Yields x l r) : Yields (Proc.require p e >>= fun _ => x) l r := by
  rw [Proc.require_pos hp]
  exact hx

/-- One more value of a list. -/
theorem readMany_cons {x : β} {xs : List β} {n : Nat} (h : Yields get l (.ok x))
    (hs : Yields (readMany get n) l' (.ok xs)) :
    Yields (readMany get (n + 1)) (l ++ l') (.ok (x :: xs)) := by
  have hlast : Yields (readMany get n >>= fun xs => Pure.pure (x :: xs)) (l' ++ [])
      (.ok (x :: xs)) := hs.bind (.pure _)
  rw [List.append_nil] at hlast
  exact h.bind hlast

theorem readMany {put : α → List τ} (f : α → β) {xs : List α}
    (h : ∀ x ∈ xs, Yields get (put x) (.ok (f x))) :
    Yields (Codec.readMany get xs.length) (xs.flatMap put) (.ok (xs.map f)) := by
  induction xs with
  | nil => exact .pure []
  | cons x xs ih =>
    obtain ⟨hx, hxs⟩ := List.forall_mem_cons.mp h
    exact hx.readMany_cons (ih hxs)

end Yields

/-- What is left of a program of checks: `a` if they all pass. -/
def checked (x : Proc σ Unit) (s : σ) (a : α) : Except String α := (x s).1.map fun _ => a

/-- A check that the reader makes as the program does. -/
theorem Yields.checked {p : Prop} [Decidable p] {e : String} {get : Proc (List τ) α}
    {x : Proc σ Unit} {l : List τ} {s : σ} {a : α}
    (h : p → Yields get l (Codec.checked x s a)) :
    Yields (Proc.require p e >>= fun _ => get) l
      (Codec.checked (Proc.require p e >>= fun _ => x) s a) := by
  by_cases hp : p
  · rw [Proc.require_pos hp, Proc.require_pos hp]
    exact h hp
  · rw [Proc.require, Proc.require, if_neg hp, if_neg hp]
    exact fun _ => rfl

end Codec
