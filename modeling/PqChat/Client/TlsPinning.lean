/-
# Pinned certificates

`tls_pinning.cpp`.  A pin is a SHA-256 fingerprint that somebody has typed: its digits may be in
either case, and there may be separators anywhere between them.  So what a pin stands for is said
without a parser (`Spells`), and the parser accepts exactly that.

The pins are tried in order.  One that is not spelled right ends the search, so it blocks those
behind it, but not those in front of it (`pinned_iff`).
-/
import PqChat.Client.TcpServerApi

namespace PqChat

open ByteString

namespace TlsPinning

/-! ## 1. The functions -/

/-- `IsHex`. -/
def isHex (c : UInt8) : Bool :=
  (48 ≤ c && c ≤ 57) || (97 ≤ c && c ≤ 102) || (65 ≤ c && c ≤ 70)

/-- `:`, `-`, the blank, the tab and the ends of lines. -/
def isSeparator (c : UInt8) : Bool :=
  c == 58 || c == 45 || c == 32 || c == 9 || c == 10 || c == 13

/-- The loop over the characters of a pin. -/
def normalize (normalized : Bytes) : Bytes → Result Bytes
  | [] => .ok normalized
  | c :: rest =>
    if isSeparator c then normalize normalized rest
    else if ¬ isHex c then .error "pin contains non-hex characters"
    else normalize (normalized ++ [c]) rest

/-- The loop over the digits, two at a time; `HexValue` is the function of the servers. -/
def decodePairs (out : Bytes) : Bytes → Result Bytes
  | hi :: lo :: rest =>
    match hexValue hi, hexValue lo with
    | some h, some l => decodePairs (out ++ [h <<< 4 ||| l]) rest
    | _, _ => .error "invalid pin hex"
  | _ => .ok out

/-- `ParseSha256PinHex`. -/
def parseSha256PinHex (pinHex : Bytes) : Result Bytes := do
  let normalized ← normalize [] pinHex
  if normalized.length ≠ 64 then .error "pin must be exactly 32-byte SHA-256 (64 hex chars)"
  else decodePairs [] normalized

/-- The loop over the pins. -/
def verifyPins (fingerprint : Bytes) (anyValidPin : Bool) : List Bytes → Result Unit
  | [] =>
    if ¬ anyValidPin then .error "no valid TLS pins configured"
    else .error "server certificate pin mismatch"
  | pinHex :: rest =>
    match parseSha256PinHex pinHex with
    | .error e => .error ("invalid configured TLS pin: " ++ e)
    | .ok pin =>
      if pin.length = fingerprint.length ∧ pin = fingerprint then .ok ()
      else verifyPins fingerprint true rest

/-- `VerifyPinnedSha256Fingerprint`. -/
def verifyPinnedSha256Fingerprint (fingerprint : Bytes) (allowedPinsHex : List Bytes) :
    Result Unit :=
  if allowedPinsHex = [] then .ok ()
  else if fingerprint.length ≠ 32 then .error "unexpected certificate fingerprint size"
  else verifyPins fingerprint false allowedPinsHex

/-! ## 2. Digits -/

/-- The lower-case form of a digit. -/
def lower (c : UInt8) : UInt8 := if 65 ≤ c ∧ c ≤ 70 then c + 32 else c

/-- The characters of a pin without the separators. -/
def digits (pin : Bytes) : Bytes := pin.filter fun c => !isSeparator c

theorem forall_byte {P : UInt8 → Prop} (h : ∀ n < 256, P (UInt8.ofNat n)) (b : UInt8) : P b := by
  have hb := h b.toNat b.toNat_lt
  rwa [UInt8.ofNat_toNat] at hb

theorem hexValue_cases (c : UInt8) :
    (isHex c = false ∧ hexValue c = none) ∨
      ∃ d, isHex c = true ∧ hexValue c = some d ∧ d < 16 ∧ lower c = hexDigit d := by
  have hcases : ∀ c, (isHex c = false ∧ hexValue c = none) ∨ (isHex c = true ∧
      (hexValue c).isSome ∧ (hexValue c).getD 0 < 16 ∧
      lower c = hexDigit ((hexValue c).getD 0)) := forall_byte (by decide +kernel)
  rcases hcases c with hc | ⟨hhex, hsome, hlt, hlower⟩
  · exact Or.inl hc
  · obtain ⟨d, hd⟩ := Option.isSome_iff_exists.mp hsome
    rw [hd] at hlt hlower
    exact Or.inr ⟨d, hhex, hd, hlt, hlower⟩

theorem hexValue_of_lower {c d : UInt8} (hd : d < 16) (h : lower c = hexDigit d) :
    hexValue c = some d := by
  have key : ∀ n < 256, ∀ m < 16, lower (UInt8.ofNat n) = hexDigit (UInt8.ofNat m) →
      hexValue (UInt8.ofNat n) = some (UInt8.ofNat m) := by decide +kernel
  have hkey := key c.toNat c.toNat_lt d.toNat (UInt8.lt_iff_toNat_lt.mp hd)
  rw [UInt8.ofNat_toNat, UInt8.ofNat_toNat] at hkey
  exact hkey h

/-- A byte is put together from its two halves. -/
theorem halves : ∀ b : UInt8, b >>> 4 < 16 ∧ b &&& 15 < 16 ∧
    (b >>> 4) <<< 4 ||| (b &&& 15) = b := forall_byte (by decide +kernel)

theorem halves_of_join {h l : UInt8} (hh : h < 16) (hl : l < 16) :
    (h <<< 4 ||| l) >>> 4 = h ∧ (h <<< 4 ||| l) &&& 15 = l := by
  have key : ∀ m < 16, ∀ n < 16,
      (UInt8.ofNat m <<< 4 ||| UInt8.ofNat n) >>> 4 = UInt8.ofNat m ∧
      (UInt8.ofNat m <<< 4 ||| UInt8.ofNat n) &&& 15 = UInt8.ofNat n := by decide +kernel
  have hkey := key h.toNat (UInt8.lt_iff_toNat_lt.mp hh) l.toNat (UInt8.lt_iff_toNat_lt.mp hl)
  rwa [UInt8.ofNat_toNat, UInt8.ofNat_toNat] at hkey

/-! ## 3. What is accepted -/

theorem normalize_ok_iff {normalized pin r : Bytes} :
    normalize normalized pin = .ok r ↔
      (∀ c ∈ digits pin, isHex c = true) ∧ r = normalized ++ digits pin := by
  induction pin generalizing normalized with
  | nil =>
    rw [normalize, digits, List.filter_nil, List.append_nil]
    constructor
    · intro h
      exact ⟨List.forall_mem_nil _, (Except.ok.inj h).symm⟩
    · rintro ⟨-, rfl⟩
      rfl
  | cons c rest ih =>
    unfold normalize
    by_cases hseparator : isSeparator c = true
    · have hdigits : digits (c :: rest) = digits rest := by simp [digits, hseparator]
      rw [if_pos hseparator, hdigits, ih]
    · have hdigits : digits (c :: rest) = c :: digits rest := by simp [digits, hseparator]
      rw [if_neg hseparator, hdigits, List.forall_mem_cons]
      by_cases hhex : isHex c = true
      · rw [if_neg (not_not_intro hhex), ih, List.append_assoc]
        simp [hhex]
      · rw [if_pos hhex]
        simp [hhex]

/-- Digits are decoded if and only if they are those of some bytes. -/
theorem decodePairs_ok_iff {out r : Bytes} (n : Nat) {input : Bytes} (hlen : input.length = 2 * n)
    (hhex : ∀ c ∈ input, isHex c = true) :
    decodePairs out input = .ok r ↔
      ∃ bytes, r = out ++ bytes ∧ input.map lower = hexEncode bytes := by
  induction n generalizing out input with
  | zero =>
    obtain rfl := List.eq_nil_of_length_eq_zero hlen
    constructor
    · intro h
      exact ⟨[], by rw [List.append_nil, Except.ok.inj h], rfl⟩
    · rintro ⟨bytes, rfl, hbytes⟩
      have hnil := congrArg List.length hbytes
      rw [length_hexEncode, List.map_nil, List.length_nil] at hnil
      obtain rfl := List.eq_nil_of_length_eq_zero (by omega : bytes.length = 0)
      rw [List.append_nil]
      rfl
  | succ n ih =>
    obtain ⟨hi, lo, rest, rfl⟩ : ∃ hi lo rest, input = hi :: lo :: rest := by
      cases input with
      | nil =>
        rw [List.length_nil] at hlen
        omega
      | cons hi input =>
        cases input with
        | nil =>
          rw [List.length_singleton] at hlen
          omega
        | cons lo rest => exact ⟨hi, lo, rest, rfl⟩
    obtain ⟨hhi, hhex⟩ := List.forall_mem_cons.mp hhex
    obtain ⟨hlo, hhex⟩ := List.forall_mem_cons.mp hhex
    have hrest : rest.length = 2 * n := by
      rw [List.length_cons, List.length_cons] at hlen
      omega
    rcases hexValue_cases hi with ⟨hno, -⟩ | ⟨h, -, hh, hhlt, hhlower⟩
    · rw [hno] at hhi
      cases hhi
    rcases hexValue_cases lo with ⟨hno, -⟩ | ⟨l, -, hl, hllt, hllower⟩
    · rw [hno] at hlo
      cases hlo
    rw [decodePairs, hh, hl]
    dsimp only
    rw [ih hrest hhex]
    obtain ⟨hjoin₁, hjoin₂⟩ := halves_of_join hhlt hllt
    constructor
    · rintro ⟨bytes, rfl, hbytes⟩
      refine ⟨(h <<< 4 ||| l) :: bytes, by rw [List.append_assoc]; rfl, ?_⟩
      rw [List.map_cons, List.map_cons, hhlower, hllower, hbytes, hexEncode_cons, hjoin₁, hjoin₂]
    · rintro ⟨bytes, rfl, hbytes⟩
      cases bytes with
      | nil => cases hbytes
      | cons b bytes =>
        rw [hexEncode_cons, List.map_cons, List.map_cons] at hbytes
        obtain ⟨hb₁, hbytes⟩ := List.cons.inj hbytes
        obtain ⟨hb₂, hbytes⟩ := List.cons.inj hbytes
        obtain ⟨hlt₁, hlt₂, hb⟩ := halves b
        have hh' := Option.some.inj (hh.symm.trans (hexValue_of_lower hlt₁ hb₁))
        have hl' := Option.some.inj (hl.symm.trans (hexValue_of_lower hlt₂ hb₂))
        refine ⟨bytes, ?_, hbytes⟩
        rw [hh', hl', hb, List.append_assoc]
        rfl

/-- The pin is the fingerprint, its digits in either case and with separators anywhere. -/
structure Spells (pin fingerprint : Bytes) : Prop where
  size : fingerprint.length = 32
  spelled : (digits pin).map lower = hexEncode fingerprint

theorem isHex_of_lower {c d : UInt8} (hd : d < 16) (h : lower c = hexDigit d) : isHex c = true := by
  have hvalue := hexValue_of_lower hd h
  rcases hexValue_cases c with ⟨-, hnone⟩ | ⟨_, hhex, -⟩
  · rw [hnone] at hvalue
    cases hvalue
  · exact hhex

theorem isHex_of_encoded {input bytes : Bytes} (h : input.map lower = hexEncode bytes) :
    ∀ c ∈ input, isHex c = true := by
  intro c hc
  have hmem : lower c ∈ hexEncode bytes := h ▸ List.mem_map_of_mem hc
  obtain ⟨b, -, hb⟩ := List.mem_flatMap.mp hmem
  obtain ⟨hlt₁, hlt₂, -⟩ := halves b
  rcases List.mem_pair.mp hb with hb | hb
  · exact isHex_of_lower hlt₁ hb
  · exact isHex_of_lower hlt₂ hb

/-- **The parser accepts what spells a fingerprint, and nothing else.** -/
theorem parseSha256PinHex_ok_iff {pin fingerprint : Bytes} :
    parseSha256PinHex pin = .ok fingerprint ↔ Spells pin fingerprint := by
  rw [parseSha256PinHex, Result.bind_eq_ok]
  constructor
  · rintro ⟨normalized, hnormalized, h⟩
    obtain ⟨hhex, rfl⟩ := normalize_ok_iff.mp hnormalized
    rw [List.nil_append] at h
    split at h
    · cases h
    · rename_i hlen
      obtain ⟨bytes, rfl, hbytes⟩ := (decodePairs_ok_iff 32 (not_not.mp hlen) hhex).mp h
      refine ⟨?_, hbytes⟩
      have hsize := congrArg List.length hbytes
      rw [length_hexEncode, List.length_map, not_not.mp hlen] at hsize
      omega
  · rintro ⟨hsize, hdigits⟩
    have hhex := isHex_of_encoded hdigits
    have hlen : (digits pin).length = 64 := by
      have hlen := congrArg List.length hdigits
      rw [length_hexEncode, List.length_map, hsize] at hlen
      exact hlen
    refine ⟨_, normalize_ok_iff.mpr ⟨hhex, rfl⟩, ?_⟩
    rw [List.nil_append, if_neg (not_not_intro hlen)]
    exact (decodePairs_ok_iff 32 hlen hhex).mpr ⟨fingerprint, rfl, hdigits⟩

/-- A list starts with the first of its elements, or goes on to it. -/
theorem exists_first_cons {α : Type} {P Q : α → Prop} {x : α} {xs : List α} :
    (∃ before y behind, x :: xs = before ++ y :: behind ∧ P y ∧ ∀ z ∈ before, Q z) ↔
      P x ∨ (Q x ∧ ∃ before y behind, xs = before ++ y :: behind ∧ P y ∧ ∀ z ∈ before, Q z) := by
  constructor
  · rintro ⟨before, y, behind, hxs, hy, hbefore⟩
    cases before with
    | nil =>
      obtain ⟨rfl, -⟩ := List.cons.inj hxs
      exact Or.inl hy
    | cons z before =>
      obtain ⟨rfl, rfl⟩ := List.cons.inj hxs
      obtain ⟨hz, hbefore⟩ := List.forall_mem_cons.mp hbefore
      exact Or.inr ⟨hz, before, y, behind, rfl, hy, hbefore⟩
  · rintro (hx | ⟨hx, before, y, behind, rfl, hy, hbefore⟩)
    · exact ⟨[], x, xs, rfl, hx, List.forall_mem_nil _⟩
    · exact ⟨x :: before, y, behind, rfl, hy, List.forall_mem_cons.mpr ⟨hx, hbefore⟩⟩

theorem verifyPins_ok_iff {fingerprint : Bytes} {anyValidPin : Bool} {pins : List Bytes} :
    verifyPins fingerprint anyValidPin pins = .ok () ↔
      ∃ before pin behind, pins = before ++ pin :: behind ∧ Spells pin fingerprint ∧
        ∀ other ∈ before, ∃ otherwise, Spells other otherwise := by
  induction pins generalizing anyValidPin with
  | nil =>
    constructor
    · intro h
      unfold verifyPins at h
      split at h
      · cases h
      · cases h
    · rintro ⟨before, pin, behind, hpins, -⟩
      exact absurd hpins.symm (List.append_ne_nil_of_right_ne_nil _ (List.cons_ne_nil _ _))
  | cons first rest ih =>
    rw [verifyPins, exists_first_cons]
    rcases hfirst : parseSha256PinHex first with e | parsed
    · -- the search ends at a pin that is not spelled right
      have hnone : ∀ otherwise, ¬ Spells first otherwise := by
        intro otherwise hspells
        rw [parseSha256PinHex_ok_iff.mpr hspells] at hfirst
        cases hfirst
      constructor
      · intro h
        cases h
      · rintro (hspells | ⟨⟨otherwise, hspells⟩, -⟩)
        · exact absurd hspells (hnone _)
        · exact absurd hspells (hnone _)
    · have hspells := parseSha256PinHex_ok_iff.mp hfirst
      dsimp only
      by_cases hmatch : parsed.length = fingerprint.length ∧ parsed = fingerprint
      · rw [if_pos hmatch, ← hmatch.2]
        exact iff_of_true rfl (Or.inl hspells)
      · have hother : ¬ Spells first fingerprint := by
          intro h
          have heq := Except.ok.inj (hfirst.symm.trans (parseSha256PinHex_ok_iff.mpr h))
          exact hmatch ⟨congrArg List.length heq, heq⟩
        rw [if_neg hmatch, ih, or_iff_right hother, and_iff_right ⟨parsed, hspells⟩]

/-- **A certificate is accepted if nothing is pinned, or if one of the pins spells its fingerprint
and every pin in front of that one spells some fingerprint.** -/
theorem pinned_iff (fingerprint : Bytes) (pins : List Bytes) :
    verifyPinnedSha256Fingerprint fingerprint pins = .ok () ↔
      pins = [] ∨ ∃ before pin behind, pins = before ++ pin :: behind ∧ Spells pin fingerprint ∧
        ∀ other ∈ before, ∃ otherwise, Spells other otherwise := by
  unfold verifyPinnedSha256Fingerprint
  by_cases hnone : pins = []
  · rw [if_pos hnone]
    simp [hnone]
  · rw [if_neg hnone, or_iff_right hnone]
    split
    · rename_i hsize
      constructor
      · intro h
        cases h
      · rintro ⟨before, pin, behind, -, hpin, -⟩
        exact absurd hpin.size hsize
    · exact verifyPins_ok_iff

/-! ## 4. What is reported -/

theorem verifyPins_error {fingerprint : Bytes} {anyValidPin : Bool} {pins : List Bytes} {e : String}
    (hpins : anyValidPin = true ∨ pins ≠ [])
    (h : verifyPins fingerprint anyValidPin pins = .error e) :
    ∃ cause : ConnectFailure, e = cause.text ∧
      cause.stage ∈ [ConnectStage.invalidPin, ConnectStage.pinMismatch] := by
  induction pins generalizing anyValidPin with
  | nil =>
    have hvalid := hpins.resolve_right (not_not_intro rfl)
    rw [verifyPins, if_neg (not_not_intro hvalid)] at h
    refine ⟨⟨.pinMismatch, ""⟩, (Except.error.inj h).symm, ?_⟩
    exact List.mem_cons_of_mem _ List.mem_cons_self
  | cons pinHex rest ih =>
    rw [verifyPins] at h
    split at h
    · rename_i reason _
      exact ⟨⟨.invalidPin, reason⟩, (Except.error.inj h).symm, List.mem_cons_self⟩
    · split at h
      · cases h
      · exact ih (Or.inl rfl) h

/-- **A refusal is one of three stages.**  That no pin is valid is never reported. -/
theorem refused_stage {fingerprint : Bytes} {pins : List Bytes} {e : String}
    (h : verifyPinnedSha256Fingerprint fingerprint pins = .error e) :
    ∃ cause : ConnectFailure, e = cause.text ∧ cause.stage ∈
      [ConnectStage.fingerprintSize, ConnectStage.invalidPin, ConnectStage.pinMismatch] := by
  unfold verifyPinnedSha256Fingerprint at h
  split at h
  · cases h
  · rename_i hnone
    split at h
    · exact ⟨⟨.fingerprintSize, ""⟩, (Except.error.inj h).symm, List.mem_cons_self⟩
    · obtain ⟨cause, htext, hstage⟩ := verifyPins_error (Or.inr hnone) h
      exact ⟨cause, htext, List.mem_cons_of_mem _ hstage⟩

end TlsPinning

end PqChat
