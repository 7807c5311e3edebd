/-
# Round trips of the wire format

Every deserializer inverts its serializer in both directions.  What the readers ask of a value
is collected in its `Parts`: the strings, the other byte fields and the lengths of lists that are
in it, an encoded envelope inside another message being a field like any other.
-/
import PqChat.Wire.Serialization

namespace PqChat

open ByteString Codec

/-! ## 1. Elementary readers -/

section Elementary

/-- A number on the wire. -/
def putU32 (v : UInt32) : Bytes := be32 v

def putU64 (v : UInt64) : Bytes := be64 v

/-- Bytes behind their length. -/
def putBytes (b : Bytes) : Bytes := be32 (UInt32.ofNat b.length) ++ b

/-- An optional value behind its tag. -/
def putOptional {α : Type} (put : α → Bytes) : Option α → Bytes
  | none => [0]
  | some a => 1 :: put a

theorem inverts_u8 : Inverts (fun _ => True) (fun v => [v]) Reader.u8 (fun _ => True)
    fun _ => True := by
  refine ⟨fun x rest _ _ _ => rfl, fun _ _ _ _ hn => absurd trivial hn, fun l x rest hl => ?_⟩
  match l with
  | [] => cases hl
  | a :: l =>
    obtain ⟨h₁, rfl⟩ := Prod.mk.inj hl
    obtain rfl := Except.ok.inj h₁
    exact ⟨trivial, rfl, trivial, trivial⟩

theorem inverts_u32 : Inverts (fun _ => True) putU32 Reader.u32 (fun _ => True)
    fun _ => True := by
  refine ⟨fun x rest _ _ _ => ?_, fun _ _ _ _ hn => absurd trivial hn, fun l x rest hl => ?_⟩
  · exact Prod.ext (congrArg Except.ok (ofBe32_be32 x)) rfl
  · match l with
    | [] | [_] | [_, _] | [_, _, _] => cases hl
    | a :: b :: c :: d :: l =>
      obtain ⟨h₁, rfl⟩ := Prod.mk.inj hl
      obtain rfl := Except.ok.inj h₁
      rw [putU32, be32_ofBe32]
      exact ⟨trivial, rfl, trivial, trivial⟩

theorem inverts_u64 : Inverts (fun _ => True) putU64 Reader.u64 (fun _ => True)
    fun _ => True := by
  refine ⟨fun x rest _ _ _ => ?_, fun _ _ _ _ hn => absurd trivial hn, fun l x rest hl => ?_⟩
  · have hlen : (be64 x).length = 8 := rfl
    rw [putU64, Reader.u64, if_neg (by simp [hlen]), List.take_left' hlen, List.drop_left' hlen,
      ofBe64_be64]
  · match l with
    | [] | [_] | [_, _] | [_, _, _] | [_, _, _, _] | [_, _, _, _, _] | [_, _, _, _, _, _]
    | [_, _, _, _, _, _, _] => cases hl
    | a :: b :: c :: d :: e :: f :: g :: h :: l =>
      rw [Reader.u64, if_neg (by simp)] at hl
      obtain ⟨h₁, rfl⟩ := Prod.mk.inj hl
      obtain rfl := Except.ok.inj h₁
      refine ⟨trivial, ?_, trivial, trivial⟩
      rw [putU64, show List.take 8 (a :: b :: c :: d :: e :: f :: g :: h :: l) =
        [a, b, c, d, e, f, g, h] from rfl, be64_ofBe64]
      rfl

/-- A check that a number is within a limit. -/
def Limits (max : UInt32) (check : UInt32 → Reader Unit) : Prop :=
  ∀ v, (v ≤ max → check v = pure ()) ∧ (¬ v ≤ max → ∀ l, ∃ e, (check v l).1 = .error e)

theorem limits_limitU32 (max : UInt32) (label : String) :
    Limits max fun v => Reader.limitU32 v max label := by
  refine fun v => ⟨fun hv => Proc.require_pos hv _, fun hv l =>
    ⟨"decoded " ++ label ++ " exceeds limit", ?_⟩⟩
  show (Proc.require _ _ l).1 = _
  rw [Proc.require, if_neg hv]
  rfl

theorem Limits.within {max : UInt32} {check : UInt32 → Reader Unit} (h : Limits max check)
    (p : String) : Limits max fun v => Proc.within p (check v) := by
  refine fun v => ⟨fun hv => ?_, fun hv l => ?_⟩
  · show Proc.within p (check v) = _
    rw [(h v).1 hv]
    rfl
  · obtain ⟨e, he⟩ := (h v).2 hv l
    exact ⟨p ++ e, congrArg Prod.fst (Proc.within_error (Prod.ext he rfl) p)⟩

/-- A number of things, within a limit, and then the things. -/
theorem inverts_count {α : Type} {put : α → Bytes} {n : α → Nat} {k : Nat → Reader α}
    {small fits : α → Prop} {get : Reader UInt32} {max : UInt32} {check : UInt32 → Reader Unit}
    (hget : Inverts (fun _ => True) putU32 get (fun _ => True) fun _ => True)
    (hcheck : Limits max check) (hk : ∀ m, Inverts (fun x => n x = m) put (k m) small fits) :
    Inverts (fun _ => True) (fun x => putU32 (UInt32.ofNat (n x)) ++ put x)
      (get >>= fun count => check count >>= fun _ => k count.toNat)
      (fun x => n x < 2 ^ 32 ∧ small x) fun x => n x ≤ max.toNat ∧ fits x := by
  have hread : ∀ x rest, get (putU32 (UInt32.ofNat (n x)) ++ put x ++ rest) =
      (.ok (UInt32.ofNat (n x)), put x ++ rest) := fun x rest => by
    rw [List.append_assoc]
    exact hget.get_put _ _ trivial trivial trivial
  have hle : ∀ {x}, n x < 2 ^ 32 → (UInt32.ofNat (n x) ≤ max ↔ n x ≤ max.toNat) := fun hx => by
    rw [UInt32.le_iff_toNat_le, UInt32.toNat_ofNat_of_lt' hx]
  refine ⟨fun x rest _ hs hf => ?_, fun x rest _ hs hf => ?_, fun l x rest hl => ?_⟩
  · rw [Proc.bind_ok (hread x rest), (hcheck _).1 ((hle hs.1).mpr hf.1), Proc.pure_bind,
      UInt32.toNat_ofNat_of_lt' hs.1]
    exact (hk (n x)).get_put x rest rfl hs.2 hf.2
  · rw [Proc.bind_ok (hread x rest)]
    by_cases hmax : n x ≤ max.toNat
    · rw [(hcheck _).1 ((hle hs.1).mpr hmax), Proc.pure_bind, UInt32.toNat_ofNat_of_lt' hs.1]
      exact (hk (n x)).get_error x rest rfl hs.2 fun h => hf ⟨hmax, h⟩
    · obtain ⟨e, he⟩ := (hcheck _).2 (fun h => hmax ((hle hs.1).mp h)) (put x ++ rest)
      rw [Proc.bind_error (Prod.ext he rfl)]
      exact ⟨e, rfl⟩
  · obtain ⟨v, l₁, hv, hl₁⟩ := Proc.bind_eq_ok_iff.mp hl
    obtain ⟨u, l₂, hu, hl₂⟩ := Proc.bind_eq_ok_iff.mp hl₁
    have hmax : v ≤ max := by
      by_contra hn
      obtain ⟨e, he⟩ := (hcheck v).2 hn l₁
      rw [hu] at he
      cases he
    rw [(hcheck v).1 hmax] at hu
    obtain ⟨-, rfl⟩ := Prod.mk.inj hu
    obtain ⟨-, rfl, -, -⟩ := hget.put_get _ _ _ hv
    obtain ⟨hn, rfl, hs, hf⟩ := (hk _).put_get _ _ _ hl₂
    refine ⟨trivial, ?_, ⟨?_, hs⟩, ?_, hf⟩
    · rw [hn, UInt32.ofNat_toNat, List.append_assoc]
    · rw [hn]
      exact v.toNat_lt
    · rw [hn]
      exact UInt32.le_iff_toNat_le.mp hmax

theorem inverts_take (n : Nat) : Inverts (fun x : Bytes => x.length = n) id (Reader.take n)
    (fun _ => True) fun _ => True := by
  refine .take (fun l hl => ?_) fun l hl => ?_
  · rw [Reader.take, if_neg (by omega)]
  · rw [Reader.take, if_pos hl]
    exact ⟨_, rfl⟩

theorem inverts_bytesUpTo (max : UInt32) (label : String) :
    Inverts (fun _ => True) putBytes (Reader.bytesUpTo max label)
      (fun b : Bytes => b.length < 2 ^ 32) fun b => b.length ≤ max.toNat :=
  (inverts_count inverts_u32 (limits_limitU32 max label) inverts_take).congr (fun _ => Iff.rfl)
    (fun _ _ => rfl) (fun _ => (and_true _).symm.to_iff) fun _ => (and_true _).symm.to_iff

theorem inverts_string : Inverts (fun _ => True) putBytes Reader.string
    (fun b : Bytes => b.length < 2 ^ 32) fun b => b.length ≤ kMaxStringBytes.toNat :=
  inverts_bytesUpTo _ _

theorem inverts_bytes : Inverts (fun _ => True) putBytes Reader.bytes
    (fun b : Bytes => b.length < 2 ^ 32) fun b => b.length ≤ kMaxFieldBytes.toNat :=
  inverts_bytesUpTo _ _

theorem inverts_optional {α : Type} {put : α → Bytes} {get : Reader α} {small fits : α → Prop}
    (h : Inverts (fun _ => True) put get small fits) (error : String) :
    Inverts (fun _ => True) (putOptional put) (Reader.optional error get)
      (fun x => ∀ a ∈ x, small a) fun x => ∀ a ∈ x, fits a := by
  have hnone : ∀ l, Reader.optional error get (0 :: l) = (.ok none, l) := fun _ => rfl
  have hsome : ∀ l, Reader.optional error get (1 :: l) =
      (get >>= fun value => pure (some value)) l := fun _ => rfl
  refine ⟨fun x rest _ hs hf => ?_, fun x rest _ hs hf => ?_, fun l x rest hl => ?_⟩
  · cases x with
    | none => exact hnone rest
    | some a =>
      rw [putOptional, List.cons_append, hsome,
        Proc.bind_ok (h.get_put a rest trivial (hs a rfl) (hf a rfl))]
      rfl
  · cases x with
    | none => exact absurd nofun hf
    | some a =>
      have hfit : ¬ fits a := fun hn => hf fun _ ha => Option.some.inj ha ▸ hn
      obtain ⟨e, he⟩ := h.get_error a rest trivial (hs a rfl) hfit
      rw [putOptional, List.cons_append, hsome, Proc.bind_error (Prod.ext he rfl)]
      exact ⟨e, rfl⟩
  · match l with
    | [] => cases hl
    | tag :: l =>
      by_cases h₀ : tag = 0
      · subst h₀
        rw [hnone] at hl
        obtain ⟨h₁, rfl⟩ := Prod.mk.inj hl
        obtain rfl := Except.ok.inj h₁
        exact ⟨trivial, rfl, nofun, nofun⟩
      · by_cases h₁ : tag = 1
        · subst h₁
          rw [hsome] at hl
          obtain ⟨a, l₁, ha, hl₁⟩ := Proc.bind_eq_ok_iff.mp hl
          obtain ⟨h₂, rfl⟩ := Prod.mk.inj hl₁
          obtain rfl := Except.ok.inj h₂
          obtain ⟨-, rfl, hs, hf⟩ := h.put_get _ _ _ ha
          exact ⟨trivial, rfl, fun _ he => Option.some.inj he ▸ hs,
            fun _ he => Option.some.inj he ▸ hf⟩
        · have hfail : Reader.optional error get (tag :: l) = (.error error, l) := by
            rw [Reader.optional, Proc.bind_ok (show Reader.u8 (tag :: l) = (.ok tag, l) from rfl),
              if_neg h₀, if_pos h₁]
            rfl
          rw [hfail] at hl
          cases hl

end Elementary

/-! ## 2. The parts of a value -/

/-- What is in a value: its strings, its other byte fields, and the lengths of its lists. -/
structure Parts where
  strings : List Bytes
  fields : List Bytes
  counts : List Nat

instance : Append Parts :=
  ⟨fun p q => ⟨p.strings ++ q.strings, p.fields ++ q.fields, p.counts ++ q.counts⟩⟩

theorem parts_append (p q : Parts) :
    p ++ q = ⟨p.strings ++ q.strings, p.fields ++ q.fields, p.counts ++ q.counts⟩ := rfl

/-- All sizes can be written in 32 bits. -/
def Parts.Small (p : Parts) : Prop :=
  (∀ s ∈ p.strings, s.length < 2 ^ 32) ∧ (∀ f ∈ p.fields, f.length < 2 ^ 32) ∧
    ∀ n ∈ p.counts, n < 2 ^ 32

/-- All sizes are within the limits of the readers. -/
def Parts.Fits (p : Parts) : Prop :=
  (∀ s ∈ p.strings, s.length ≤ 64 * 1024) ∧ (∀ f ∈ p.fields, f.length ≤ 1024 * 1024) ∧
    ∀ n ∈ p.counts, n ≤ 4096

def MessageHeader.parts (h : MessageHeader Bytes) : Parts :=
  ⟨[], h.senderRatchetPublicKey.toList, []⟩

def InitialMessage.parts (m : InitialMessage Bytes) : Parts :=
  ⟨[m.sessionId, m.fromUser, m.toUser, m.version, m.cipherSuite],
    [m.initiatorIdentitySignPublicKey, m.initiatorIdentityMldsaPublicKey,
      m.initiatorIdentityDhPublicKey, m.initiatorEphemeralEcPublicKey, m.kemCiphertextSignedPq,
      m.transcriptHash, m.handshakeSignatureEd25519, m.handshakeSignatureMldsa65,
      m.initialNonce, m.initialCiphertext] ++ m.kemCiphertextOneTimePq.toList, []⟩

def ChatMessage.parts (m : ChatMessage Bytes) : Parts :=
  ⟨[m.sessionId, m.fromUser, m.toUser], [m.nonce, m.ciphertext], []⟩ ++ m.header.parts

def SignedPrekey.parts (k : SignedPrekey Bytes) : Parts :=
  ⟨[], [k.publicKey, k.signatureEd25519, k.signatureMldsa65], []⟩

def PrekeyBundle.parts (b : PrekeyBundle Bytes) : Parts :=
  ⟨[b.userId, b.version, b.cipherSuite],
    [b.identitySignPublicKey, b.identityMldsaPublicKey, b.identityDhPublicKey,
      b.bundleSignatureEd25519, b.bundleSignatureMldsa65] ++
      (b.oneTimeEc ++ b.oneTimePq).map (·.publicKey),
    [b.oneTimeEc.length, b.oneTimePq.length]⟩ ++ b.signedPrekeyEc.parts ++ b.signedPrekeyPq.parts

/-- The parts of the payload the type tag names. -/
def Envelope.parts (e : Envelope Bytes) : Parts :=
  match e.type, e.initial, e.chat with
  | .kInitial, some m, _ => m.parts
  | .kChat, _, some m => m.parts
  | _, _, _ => ⟨[], [], []⟩

/-- The encoding of an envelope, as a field of another message. -/
def Envelope.encoding (e : Envelope Bytes) : Bytes := (serializeEnvelope e).toOption.getD []

def envelopesParts (es : List (Envelope Bytes)) : Parts :=
  ⟨es.flatMap (·.parts.strings), es.map Envelope.encoding ++ es.flatMap (·.parts.fields),
    es.length :: es.flatMap (·.parts.counts)⟩

def EnqueueRequest.parts (r : EnqueueRequest Bytes) : Parts :=
  ⟨[r.userId], [r.envelope.encoding], []⟩ ++ r.envelope.parts

/-- The envelopes that `FromInitial` and `FromChat` build. -/
def Envelope.WellFormed {B : Type} (e : Envelope B) : Prop :=
  (∃ m, e = .fromInitial m) ∨ ∃ m, e = .fromChat m

/-! ## 3. What the writers append -/

section Writers

variable (out : Bytes)

theorem writer_u8 (v : UInt8) : Writer.u8 out v = out ++ [v] := rfl

theorem writer_u32 (v : UInt32) : Writer.u32 out v = out ++ putU32 v := rfl

theorem writer_u64 (v : UInt64) : Writer.u64 out v = out ++ putU64 v := rfl

theorem writer_bytes (b : Bytes) : Writer.bytes out b = out ++ putBytes b :=
  List.append_assoc out _ b

theorem writer_string (b : Bytes) : Writer.string out b = out ++ putBytes b := writer_bytes out b

theorem writer_optional {α : Type} {put : Bytes → α → Bytes} {put' : α → Bytes}
    (h : ∀ out a, put out a = out ++ put' a) (x : Option α) :
    Writer.optional put out x = out ++ putOptional put' x := by
  cases x with
  | none => rfl
  | some a =>
    rw [Writer.optional, h, writer_u8, List.append_assoc]
    rfl

theorem writer_optionalU32 (x : Option UInt32) :
    Writer.optionalU32 out x = out ++ putOptional putU32 x := writer_optional out writer_u32 x

theorem writer_optionalBytes (x : Option Bytes) :
    Writer.optionalBytes out x = out ++ putOptional putBytes x :=
  writer_optional out writer_bytes x

theorem bytes_empty : (ByteString.empty : Bytes) = [] := rfl

end Writers

/-! ## 4. Records -/

section Records

theorem inverts_prekeySelection : Inverts (fun _ => True) (writePrekeySelection ([] : Bytes))
    readPrekeySelection (fun _ => True) fun _ => True := by
  refine (Inverts.field inverts_u32 PrekeySelection.signedPrekeyEcId fun _ =>
    .field inverts_u32 PrekeySelection.signedPrekeyPqId fun _ =>
    .field (inverts_optional inverts_u32 _) PrekeySelection.oneTimeEcId fun _ =>
    .field (inverts_optional inverts_u32 _) PrekeySelection.oneTimePqId fun _ =>
    .done fun x => ?_).congr (fun _ => Iff.rfl) (fun x _ => ?_) (by simp) (by simp)
  · cases x
    simp [and_assoc]
  · simp [writePrekeySelection, writer_u32, writer_optionalU32]

theorem writePrekeySelection_eq (out : Bytes) (s : PrekeySelection) :
    writePrekeySelection out s = out ++ writePrekeySelection [] s := by
  simp [writePrekeySelection, writer_u32, writer_optionalU32]

theorem inverts_messageHeader : Inverts (fun _ => True) (writeMessageHeader [])
    readMessageHeader (fun h => h.parts.Small) fun h => h.parts.Fits := by
  refine (Inverts.field (inverts_optional inverts_bytes _) MessageHeader.senderRatchetPublicKey
    fun _ => .field inverts_u64 MessageHeader.previousChainLength fun _ =>
    .field inverts_u64 MessageHeader.messageNumber fun _ =>
    .field inverts_u32 MessageHeader.flags fun _ =>
    .done fun x => ?_).congr (fun _ => Iff.rfl) (fun x _ => ?_) (fun x => ?_) fun x => ?_
  · cases x
    simp [and_assoc]
  · simp [writeMessageHeader, writer_u32, writer_u64, writer_optionalBytes]
  · simp [MessageHeader.parts, Parts.Small]
  · simp [MessageHeader.parts, Parts.Fits, kMaxFieldBytes]

theorem writeMessageHeader_eq (out : Bytes) (h : MessageHeader Bytes) :
    writeMessageHeader out h = out ++ writeMessageHeader [] h := by
  simp [writeMessageHeader, writer_u32, writer_u64, writer_optionalBytes]

theorem inverts_initialMessage : Inverts (fun _ => True) (writeInitialMessage [])
    readInitialMessage (fun m => m.parts.Small) fun m => m.parts.Fits := by
  refine (Inverts.field inverts_string InitialMessage.sessionId fun _ =>
    .field inverts_string InitialMessage.fromUser fun _ =>
    .field inverts_string InitialMessage.toUser fun _ =>
    .field inverts_string InitialMessage.version fun _ =>
    .field inverts_string InitialMessage.cipherSuite fun _ =>
    .field inverts_bytes InitialMessage.initiatorIdentitySignPublicKey fun _ =>
    .field inverts_bytes InitialMessage.initiatorIdentityMldsaPublicKey fun _ =>
    .field inverts_bytes InitialMessage.initiatorIdentityDhPublicKey fun _ =>
    .field inverts_bytes InitialMessage.initiatorEphemeralEcPublicKey fun _ =>
    .field inverts_prekeySelection InitialMessage.selectedPrekeys fun _ =>
    .field inverts_bytes InitialMessage.kemCiphertextSignedPq fun _ =>
    .field (inverts_optional inverts_bytes _) InitialMessage.kemCiphertextOneTimePq fun _ =>
    .field inverts_bytes InitialMessage.transcriptHash fun _ =>
    .field inverts_bytes InitialMessage.handshakeSignatureEd25519 fun _ =>
    .field inverts_bytes InitialMessage.handshakeSignatureMldsa65 fun _ =>
    .field inverts_bytes InitialMessage.initialNonce fun _ =>
    .field inverts_bytes InitialMessage.initialCiphertext fun _ =>
    .done fun x => ?_).congr (fun _ => Iff.rfl) (fun x _ => ?_) (fun x => ?_) fun x => ?_
  · cases x
    simp [and_assoc]
  · rw [writeInitialMessage]
    simp only [writer_string, writer_bytes, writer_optionalBytes]
    rw [writePrekeySelection_eq]
    simp only [List.append_assoc, List.nil_append, List.append_nil]
  · simp [InitialMessage.parts, Parts.Small]
    tauto
  · simp [InitialMessage.parts, Parts.Fits, kMaxFieldBytes, kMaxStringBytes]
    tauto

theorem writeInitialMessage_eq (out : Bytes) (m : InitialMessage Bytes) :
    writeInitialMessage out m = out ++ writeInitialMessage [] m := by
  simp only [writeInitialMessage, writer_string, writer_bytes, writer_optionalBytes]
  rw [writePrekeySelection_eq, writePrekeySelection_eq (_ ++ _)]
  simp only [List.append_assoc, List.nil_append]

theorem inverts_chatMessage : Inverts (fun _ => True) (writeChatMessage [])
    readChatMessage (fun m => m.parts.Small) fun m => m.parts.Fits := by
  refine (Inverts.field inverts_string ChatMessage.sessionId fun _ =>
    .field inverts_string ChatMessage.fromUser fun _ =>
    .field inverts_string ChatMessage.toUser fun _ =>
    .field inverts_messageHeader ChatMessage.header fun _ =>
    .field inverts_bytes ChatMessage.nonce fun _ =>
    .field inverts_bytes ChatMessage.ciphertext fun _ =>
    .done fun x => ?_).congr (fun _ => Iff.rfl) (fun x _ => ?_) (fun x => ?_) fun x => ?_
  · cases x
    simp [and_assoc]
  · rw [writeChatMessage]
    simp only [writer_string, writer_bytes]
    rw [writeMessageHeader_eq]
    simp only [List.append_assoc, List.nil_append, List.append_nil]
  · simp [ChatMessage.parts, MessageHeader.parts, Parts.Small, parts_append]
    tauto
  · simp [ChatMessage.parts, MessageHeader.parts, Parts.Fits, parts_append, kMaxFieldBytes,
      kMaxStringBytes]
    tauto

theorem writeChatMessage_eq (out : Bytes) (m : ChatMessage Bytes) :
    writeChatMessage out m = out ++ writeChatMessage [] m := by
  simp only [writeChatMessage, writer_string, writer_bytes]
  rw [writeMessageHeader_eq, writeMessageHeader_eq (_ ++ _)]
  simp only [List.append_assoc, List.nil_append]

theorem inverts_signedPrekey : Inverts (fun _ => True) (writeSignedPrekey [])
    readSignedPrekey (fun k => k.parts.Small) fun k => k.parts.Fits := by
  refine (Inverts.field inverts_u32 SignedPrekey.id fun _ =>
    .field inverts_bytes SignedPrekey.publicKey fun _ =>
    .field inverts_bytes SignedPrekey.signatureEd25519 fun _ =>
    .field inverts_bytes SignedPrekey.signatureMldsa65 fun _ =>
    .done fun x => ?_).congr (fun _ => Iff.rfl) (fun x _ => ?_) (fun x => ?_) fun x => ?_
  · cases x
    simp [and_assoc]
  · simp [writeSignedPrekey, writer_u32, writer_bytes]
  · simp [SignedPrekey.parts, Parts.Small]
  · simp [SignedPrekey.parts, Parts.Fits, kMaxFieldBytes]

theorem writeSignedPrekey_eq (out : Bytes) (k : SignedPrekey Bytes) :
    writeSignedPrekey out k = out ++ writeSignedPrekey [] k := by
  simp [writeSignedPrekey, writer_u32, writer_bytes]

/-- A one-time prekey on the wire. -/
def putOneTimePrekey (k : OneTimePrekey Bytes) : Bytes := putU32 k.id ++ putBytes k.publicKey

theorem inverts_oneTimePrekey : Inverts (fun _ => True) putOneTimePrekey readOneTimePrekey
    (fun k => k.publicKey.length < 2 ^ 32) fun k => k.publicKey.length ≤ 1024 * 1024 := by
  refine (Inverts.field inverts_u32 OneTimePrekey.id fun _ =>
    .field inverts_bytes OneTimePrekey.publicKey fun _ =>
    .done fun x => ?_).congr (fun _ => Iff.rfl) (fun x _ => ?_) (by simp) fun x => ?_
  · cases x
    simp
  · simp [putOneTimePrekey]
  · simp [kMaxFieldBytes]

theorem writeOneTime_eq (out : Bytes) (keys : List (OneTimePrekey Bytes)) :
    writeOneTime out keys = out ++ (putU32 (UInt32.ofNat keys.length) ++
      keys.flatMap putOneTimePrekey) := by
  have hloop : ∀ (keys : List (OneTimePrekey Bytes)) (out : Bytes),
      keys.foldl (fun out key => Writer.bytes (Writer.u32 out key.id) key.publicKey) out =
        out ++ keys.flatMap putOneTimePrekey := by
    intro keys
    induction keys with
    | nil => exact fun out => (List.append_nil out).symm
    | cons key keys ih =>
      intro out
      rw [List.foldl_cons, ih, writer_bytes, writer_u32, List.flatMap_cons, putOneTimePrekey]
      simp only [List.append_assoc]
  rw [writeOneTime, hloop, writer_u32, List.append_assoc]

theorem inverts_oneTime (label : String) : Inverts (fun _ => True) (writeOneTime [])
    (readOneTime label)
    (fun keys => keys.length < 2 ^ 32 ∧ ∀ k ∈ keys, k.publicKey.length < 2 ^ 32)
    fun keys => keys.length ≤ 4096 ∧ ∀ k ∈ keys, k.publicKey.length ≤ 1024 * 1024 :=
  (inverts_count inverts_u32 (limits_limitU32 kMaxOneTimePrekeys label)
    inverts_oneTimePrekey.many).congr (fun _ => Iff.rfl) (fun keys _ => writeOneTime_eq [] keys)
    (fun _ => Iff.rfl) fun _ => Iff.rfl

/-- The fields of a bundle in order. -/
def putPrekeyBundle (b : PrekeyBundle Bytes) : Bytes := (serializePrekeyBundle b).toOption.getD []

theorem inverts_prekeyBundle : Inverts (fun _ => True) putPrekeyBundle
    readPrekeyBundle (fun b => b.parts.Small) fun b => b.parts.Fits := by
  refine (Inverts.field inverts_string PrekeyBundle.userId fun _ =>
    .field inverts_bytes PrekeyBundle.identitySignPublicKey fun _ =>
    .field inverts_bytes PrekeyBundle.identityMldsaPublicKey fun _ =>
    .field inverts_bytes PrekeyBundle.identityDhPublicKey fun _ =>
    .field inverts_signedPrekey PrekeyBundle.signedPrekeyEc fun _ =>
    .field inverts_signedPrekey PrekeyBundle.signedPrekeyPq fun _ =>
    .field (inverts_oneTime _) PrekeyBundle.oneTimeEc fun _ =>
    .field (inverts_oneTime _) PrekeyBundle.oneTimePq fun _ =>
    .field inverts_bytes PrekeyBundle.bundleSignatureEd25519 fun _ =>
    .field inverts_bytes PrekeyBundle.bundleSignatureMldsa65 fun _ =>
    .field inverts_string PrekeyBundle.version fun _ =>
    .field inverts_string PrekeyBundle.cipherSuite fun _ =>
    .done fun x => ?_).congr (fun _ => Iff.rfl) (fun x _ => ?_) (fun x => ?_) fun x => ?_
  · cases x
    simp [and_assoc]
  · simp only [putPrekeyBundle, serializePrekeyBundle, writer_string, writer_bytes]
    rw [writeSignedPrekey_eq, writeSignedPrekey_eq (_ ++ _), writeOneTime_eq, writeOneTime_eq,
      writeOneTime_eq, writeOneTime_eq]
    simp only [Except.toOption, Option.getD_some, bytes_empty, List.append_assoc,
      List.nil_append, List.append_nil]
  · simp [PrekeyBundle.parts, SignedPrekey.parts, Parts.Small, parts_append, or_imp, forall_and]
    tauto
  · simp [PrekeyBundle.parts, SignedPrekey.parts, Parts.Fits, parts_append, kMaxFieldBytes,
      kMaxStringBytes, or_imp, forall_and]
    tauto

end Records

/-! ## 5. Complete messages -/

section Messages

/-- The size check, the reader, and the check for trailing bytes. -/
theorem deserialize_eq_ok_iff {α : Type} {read : Reader α} {label error : String} {l : Bytes}
    {x : α} : (do
      validateInputSize l label
      let reader : Reader α := do
        let value ← read
        Reader.finished error
        pure value
      (reader l).1) = Except.ok x ↔
    l.length ≤ kMaxSerializedInputBytes ∧ read l = (.ok x, []) := by
  unfold validateInputSize
  by_cases hl : l.length > kMaxSerializedInputBytes
  · rw [if_pos hl]
    exact ⟨nofun, fun h => absurd h.1 (not_le.mpr hl)⟩
  rw [if_neg hl]
  simp only [not_lt.mp hl, true_and]
  rcases hr : read l with ⟨e | y, rest⟩
  · refine ⟨fun h => ?_, nofun⟩
    have h' : ((read >>= fun value => Reader.finished error >>= fun _ => pure value) l).1 =
      .ok x := h
    rw [Proc.bind_error hr] at h'
    cases h'
  · have hrun : ((read >>= fun value => Reader.finished error >>= fun _ => pure value) l).1 =
        if rest = [] then .ok y else .error error := by
      rw [Proc.bind_ok hr]
      by_cases hrest : rest = []
      · subst hrest
        rfl
      · have hfin : Reader.finished error rest = (.error error, rest) := by
          rw [Reader.finished, Proc.get_bind_apply, Proc.require, if_neg hrest]
          rfl
        rw [Proc.bind_error hfin, if_neg hrest]
    refine Iff.trans (b := (if rest = [] then Except.ok y else .error error) = Except.ok x)
      ⟨fun h => hrun.symm.trans h, fun h => hrun.trans h⟩ ?_
    by_cases hrest : rest = []
    · rw [if_pos hrest]
      simp [hrest]
    · rw [if_neg hrest]
      simp [hrest]

theorem deserializeWith_eq_ok_iff {α : Type} {read : Reader α} {label what : String} {l : Bytes}
    {x : α} : deserializeWith label what read l = .ok x ↔
      l.length ≤ kMaxSerializedInputBytes ∧ read l = (.ok x, []) := by
  rw [deserializeWith, deserialize_eq_ok_iff, Proc.within_eq_ok_iff]

/-- A message of fields. -/
theorem decodes_deserializeWith {α : Type} {put : α → Bytes} {read : Reader α}
    {small fits : α → Prop} (h : Inverts (fun _ => True) put read small fits)
    (label what : String) : Decodes put (deserializeWith label what read) small
      fun x => fits x ∧ (put x).length ≤ kMaxSerializedInputBytes :=
  h.decodes fun _ _ => deserializeWith_eq_ok_iff

theorem inverts_envelope : Inverts (fun _ => True) Envelope.encoding readEnvelope
    (fun e => e.WellFormed ∧ e.parts.Small) fun e => e.parts.Fits := by
  have hinit : ∀ m, (Envelope.fromInitial m).encoding = 0 :: writeInitialMessage [] m :=
    fun m => writeInitialMessage_eq [0] m
  have hchat : ∀ m, (Envelope.fromChat m).encoding = 1 :: writeChatMessage [] m :=
    fun m => writeChatMessage_eq [1] m
  have h₀ : ∀ l, readEnvelope (0 :: l) = (Proc.within "decode initial message failed: "
      readInitialMessage >>= fun m => pure (.fromInitial m)) l := fun _ => rfl
  have h₁ : ∀ l, readEnvelope (1 :: l) = (Proc.within "decode chat message failed: "
      readChatMessage >>= fun m => pure (.fromChat m)) l := fun _ => rfl
  have hI := inverts_initialMessage.within "decode initial message failed: "
  have hC := inverts_chatMessage.within "decode chat message failed: "
  refine ⟨fun e rest _ hs hf => ?_, fun e rest _ hs hf => ?_, fun l e rest hl => ?_⟩
  · rcases hs with ⟨⟨m, rfl⟩ | ⟨m, rfl⟩, hs⟩
    · rw [hinit, List.cons_append, h₀, Proc.bind_ok (hI.get_put m rest trivial hs hf)]
      rfl
    · rw [hchat, List.cons_append, h₁, Proc.bind_ok (hC.get_put m rest trivial hs hf)]
      rfl
  · rcases hs with ⟨⟨m, rfl⟩ | ⟨m, rfl⟩, hs⟩
    · obtain ⟨e, he⟩ := hI.get_error m rest trivial hs hf
      rw [hinit, List.cons_append, h₀, Proc.bind_error (Prod.ext he rfl)]
      exact ⟨e, rfl⟩
    · obtain ⟨e, he⟩ := hC.get_error m rest trivial hs hf
      rw [hchat, List.cons_append, h₁, Proc.bind_error (Prod.ext he rfl)]
      exact ⟨e, rfl⟩
  · match l with
    | [] => cases hl
    | tag :: l =>
      by_cases ht₀ : tag = 0
      · subst ht₀
        rw [h₀] at hl
        obtain ⟨m, l', hm, hl'⟩ := Proc.bind_eq_ok_iff.mp hl
        obtain ⟨he, rfl⟩ := Prod.mk.inj hl'
        obtain rfl := Except.ok.inj he
        obtain ⟨-, rfl, hs, hf⟩ := hI.put_get _ _ _ hm
        exact ⟨trivial, by rw [hinit, List.cons_append], ⟨Or.inl ⟨m, rfl⟩, hs⟩, hf⟩
      by_cases ht₁ : tag = 1
      · subst ht₁
        rw [h₁] at hl
        obtain ⟨m, l', hm, hl'⟩ := Proc.bind_eq_ok_iff.mp hl
        obtain ⟨he, rfl⟩ := Prod.mk.inj hl'
        obtain rfl := Except.ok.inj he
        obtain ⟨-, rfl, hs, hf⟩ := hC.put_get _ _ _ hm
        exact ⟨trivial, by rw [hchat, List.cons_append], ⟨Or.inr ⟨m, rfl⟩, hs⟩, hf⟩
      · have hfail : readEnvelope (tag :: l) =
            (.error "decode envelope failed: unknown tag", l) := by
          rw [readEnvelope, Proc.bind_ok (Proc.within_ok
            (show Reader.u8 (tag :: l) = (.ok tag, l) from rfl) _), if_neg ht₀, if_neg ht₁]
          rfl
        rw [hfail] at hl
        cases hl

theorem decodes_envelope : Decodes Envelope.encoding deserializeEnvelope
    (fun e => e.WellFormed ∧ e.parts.Small)
    fun e => e.parts.Fits ∧ e.encoding.length ≤ kMaxSerializedInputBytes :=
  inverts_envelope.decodes fun _ _ => deserialize_eq_ok_iff

/-- An envelope as an item of a list, or as a field. -/
theorem inverts_envelopeItem (p : String) : Inverts (fun _ => True)
    (fun e : Envelope Bytes => putBytes e.encoding)
    (Proc.within p Reader.bytes >>= fun l => Proc.ofExcept "" (deserializeEnvelope l))
    (fun e => e.encoding.length < 2 ^ 32 ∧ e.WellFormed ∧ e.parts.Small)
    fun e => e.encoding.length ≤ 1024 * 1024 ∧ e.parts.Fits := by
  refine (decodes_envelope.nested (inverts_bytes.within p) "").congr (fun _ => Iff.rfl)
    (fun _ _ => rfl) (fun _ => Iff.rfl) fun e => ?_
  have hle : 1024 * 1024 ≤ kMaxSerializedInputBytes := by decide
  exact ⟨fun h => ⟨h.1, h.2, h.1.trans hle⟩, fun h => ⟨h.1, h.2.1⟩⟩

theorem serializeEnvelope_eq {e : Envelope Bytes} (h : e.WellFormed) :
    serializeEnvelope e = .ok e.encoding := by
  rcases h with ⟨m, rfl⟩ | ⟨m, rfl⟩ <;> rfl

/-- The encoding of a list of envelopes. -/
def putEnvelopeVector (es : List (Envelope Bytes)) : Bytes :=
  putU32 (UInt32.ofNat es.length) ++ es.flatMap fun e => putBytes e.encoding

theorem serializeEnvelopeVector_eq {es : List (Envelope Bytes)} (h : ∀ e ∈ es, e.WellFormed) :
    serializeEnvelopeVector es = .ok (putEnvelopeVector es) := by
  have hloop : ∀ (es : List (Envelope Bytes)) (out : Bytes), (∀ e ∈ es, e.WellFormed) →
      writeEnvelopes out es = .ok (out ++ es.flatMap fun e => putBytes e.encoding) := by
    intro es
    induction es with
    | nil => exact fun out _ => congrArg Except.ok (List.append_nil out).symm
    | cons e es ih =>
      intro out h
      rw [List.forall_mem_cons] at h
      have hstep : writeEnvelopes out (e :: es) =
          (serializeEnvelope e >>= fun b => writeEnvelopes (Writer.bytes out b) es) := rfl
      rw [hstep, serializeEnvelope_eq h.1]
      refine (ih (Writer.bytes out e.encoding) h.2).trans ?_
      rw [writer_bytes, List.flatMap_cons, List.append_assoc]
  exact hloop es _ h

/-- The limits on a list of envelopes, item by item. -/
theorem envelopesParts_small (es : List (Envelope Bytes)) : (envelopesParts es).Small ↔
    es.length < 2 ^ 32 ∧ ∀ e ∈ es, e.encoding.length < 2 ^ 32 ∧ e.parts.Small := by
  simp only [envelopesParts, Parts.Small, List.mem_append, List.mem_flatMap, List.mem_map,
    List.forall_mem_cons, or_imp, forall_and, forall_exists_index, and_imp,
    forall_apply_eq_imp_iff₂]
  constructor
  · rintro ⟨hs, ⟨he, hf⟩, hn, hc⟩
    exact ⟨hn, he, fun e h x hx => hs x e h hx, fun e h x hx => hf x e h hx,
      fun e h x hx => hc x e h hx⟩
  · rintro ⟨hn, he, hs, hf, hc⟩
    exact ⟨fun x e h hx => hs e h x hx, ⟨he, fun x e h hx => hf e h x hx⟩, hn,
      fun x e h hx => hc e h x hx⟩

theorem envelopesParts_fits (es : List (Envelope Bytes)) : (envelopesParts es).Fits ↔
    es.length ≤ 4096 ∧ ∀ e ∈ es, e.encoding.length ≤ 1024 * 1024 ∧ e.parts.Fits := by
  simp only [envelopesParts, Parts.Fits, List.mem_append, List.mem_flatMap, List.mem_map,
    List.forall_mem_cons, or_imp, forall_and, forall_exists_index, and_imp,
    forall_apply_eq_imp_iff₂]
  constructor
  · rintro ⟨hs, ⟨he, hf⟩, hn, hc⟩
    exact ⟨hn, he, fun e h x hx => hs x e h hx, fun e h x hx => hf x e h hx,
      fun e h x hx => hc x e h hx⟩
  · rintro ⟨hn, he, hs, hf, hc⟩
    exact ⟨fun x e h hx => hs e h x hx, ⟨he, fun x e h hx => hf e h x hx⟩, hn,
      fun x e h hx => hc e h x hx⟩

theorem decodes_envelopeVector : Decodes putEnvelopeVector deserializeEnvelopeVector
    (fun es => (∀ e ∈ es, e.WellFormed) ∧ (envelopesParts es).Small)
    fun es => (envelopesParts es).Fits ∧
      (putEnvelopeVector es).length ≤ kMaxSerializedInputBytes := by
  have h : Inverts (fun _ => True) putEnvelopeVector readEnvelopes _ _ :=
    inverts_count (inverts_u32.within "decode envelope vector failed: ")
      ((limits_limitU32 kMaxEnvelopeVectorItems "envelope vector count").within
        "decode envelope vector failed: ")
      (inverts_envelopeItem "decode envelope vector item failed: ").many
  have hd : Decodes _ deserializeEnvelopeVector _ _ :=
    h.decodes fun _ _ => deserialize_eq_ok_iff
  refine hd.congr (fun _ _ => rfl) (fun es => ?_) fun es _ => ?_
  · rw [envelopesParts_small]
    exact ⟨fun ⟨hw, hn, he⟩ => ⟨hn, fun e h => ⟨(he e h).1, hw e h, (he e h).2⟩⟩,
      fun ⟨hn, he⟩ => ⟨fun e h => (he e h).2.1, hn, fun e h => ⟨(he e h).1, (he e h).2.2⟩⟩⟩
  · rw [envelopesParts_fits]
    exact Iff.rfl

/-- The encoding of a list of envelopes with their ids. -/
def putInboxEnvelopeVector (items : List (InboxEnvelope Bytes)) : Bytes :=
  putU32 (UInt32.ofNat items.length) ++
    items.flatMap fun item => putU64 item.inboxId ++ putBytes item.envelope.encoding

theorem serializeInboxEnvelopeVector_eq {items : List (InboxEnvelope Bytes)}
    (h : ∀ item ∈ items, item.envelope.WellFormed) :
    serializeInboxEnvelopeVector items = .ok (putInboxEnvelopeVector items) := by
  have hloop : ∀ (items : List (InboxEnvelope Bytes)) (out : Bytes),
      (∀ item ∈ items, item.envelope.WellFormed) → writeInboxEnvelopes out items =
        .ok (out ++ items.flatMap fun item =>
          putU64 item.inboxId ++ putBytes item.envelope.encoding) := by
    intro items
    induction items with
    | nil => exact fun out _ => congrArg Except.ok (List.append_nil out).symm
    | cons item items ih =>
      intro out h
      rw [List.forall_mem_cons] at h
      have hstep : writeInboxEnvelopes out (item :: items) =
          (serializeEnvelope item.envelope >>= fun b =>
            writeInboxEnvelopes (Writer.bytes (Writer.u64 out item.inboxId) b) items) := rfl
      rw [hstep, serializeEnvelope_eq h.1]
      refine (ih (Writer.bytes (Writer.u64 out item.inboxId) item.envelope.encoding) h.2).trans ?_
      rw [writer_bytes, writer_u64, List.flatMap_cons]
      simp only [List.append_assoc]
  exact hloop items _ h

theorem inverts_inboxEnvelopeItem : Inverts (fun _ => True)
    (fun item : InboxEnvelope Bytes => putU64 item.inboxId ++ putBytes item.envelope.encoding)
    readInboxEnvelopeItem
    (fun item => item.envelope.encoding.length < 2 ^ 32 ∧ item.envelope.WellFormed ∧
      item.envelope.parts.Small)
    fun item => item.envelope.encoding.length ≤ 1024 * 1024 ∧ item.envelope.parts.Fits := by
  have hassoc : readInboxEnvelopeItem =
      (Proc.within "decode inbox envelope vector item failed: " Reader.u64 >>= fun inboxId =>
        (Proc.within "decode inbox envelope vector item failed: " Reader.bytes >>= fun encoded =>
          Proc.ofExcept "" (deserializeEnvelope encoded)) >>= fun envelope =>
        pure ⟨inboxId, envelope⟩) := by
    refine congrArg (_ >>= ·) (funext fun inboxId => ?_)
    exact (Proc.bind_assoc _ _ _).symm
  rw [hassoc]
  refine (Inverts.field (inverts_u64.within _) InboxEnvelope.inboxId fun _ =>
    .field (inverts_envelopeItem _) InboxEnvelope.envelope fun _ =>
    .done fun x => ?_).congr (fun _ => Iff.rfl) (fun x _ => ?_) (by simp) (by simp)
  · cases x
    simp
  · simp

theorem decodes_inboxEnvelopeVector : Decodes putInboxEnvelopeVector
    deserializeInboxEnvelopeVector
    (fun items => (∀ e ∈ items.map InboxEnvelope.envelope, e.WellFormed) ∧
      (envelopesParts (items.map InboxEnvelope.envelope)).Small)
    fun items => (envelopesParts (items.map InboxEnvelope.envelope)).Fits ∧
      (putInboxEnvelopeVector items).length ≤ kMaxSerializedInputBytes := by
  have h : Inverts (fun _ => True) putInboxEnvelopeVector readInboxEnvelopes _ _ :=
    inverts_count (inverts_u32.within "decode inbox envelope vector failed: ")
      ((limits_limitU32 kMaxEnvelopeVectorItems "inbox envelope vector count").within
        "decode inbox envelope vector failed: ") inverts_inboxEnvelopeItem.many
  have hd : Decodes _ deserializeInboxEnvelopeVector _ _ :=
    h.decodes fun _ _ => deserialize_eq_ok_iff
  refine hd.congr (fun _ _ => rfl) (fun items => ?_) fun items _ => ?_
  · rw [envelopesParts_small, List.length_map, List.forall_mem_map, List.forall_mem_map]
    exact ⟨fun ⟨hw, hn, he⟩ => ⟨hn, fun e h => ⟨(he e h).1, hw e h, (he e h).2⟩⟩,
      fun ⟨hn, he⟩ => ⟨fun e h => (he e h).2.1, hn, fun e h => ⟨(he e h).1, (he e h).2.2⟩⟩⟩
  · rw [envelopesParts_fits, List.length_map, List.forall_mem_map]
    exact Iff.rfl

/-- The encoding of an enqueue request. -/
def putEnqueueRequest (r : EnqueueRequest Bytes) : Bytes :=
  putBytes r.userId ++ putBytes r.envelope.encoding

theorem serializeEnqueueRequest_eq {r : EnqueueRequest Bytes} (h : r.envelope.WellFormed) :
    serializeEnqueueRequest r = .ok (putEnqueueRequest r) := by
  refine Result.bind_eq_ok.mpr ⟨_, serializeEnvelope_eq h, congrArg Except.ok ?_⟩
  rw [writer_bytes, writer_string]
  rfl

/-- The order of the two checks at the end makes no difference to what is accepted. -/
theorem deserializeEnqueueRequest_eq_ok_iff {l : Bytes} {r : EnqueueRequest Bytes} :
    deserializeEnqueueRequest l = .ok r ↔ l.length ≤ kMaxSerializedInputBytes ∧
      (Reader.string >>= fun userId =>
        (Proc.within "" Reader.bytes >>= fun encoded =>
          Proc.ofExcept "" (deserializeEnvelope encoded)) >>= fun envelope =>
        pure (⟨userId, envelope⟩ : EnqueueRequest Bytes)) l = (.ok r, []) := by
  simp only [deserializeEnqueueRequest, Result.bind_eq_ok, deserializeWith_eq_ok_iff,
    Proc.bind_eq_ok_iff, Proc.within_eq_ok_iff, Proc.ofExcept_eq_ok_iff, Proc.pure_apply,
    Prod.mk.injEq, Except.ok.injEq]
  constructor
  · rintro ⟨⟨userId, encoded⟩, ⟨hl, u, l₁, hu, b, l₂, hb, ⟨rfl, rfl⟩, rfl⟩, e, he, hr⟩
    exact ⟨hl, _, l₁, hu, e, _, ⟨_, _, hb, he, rfl⟩, Except.ok.inj hr, rfl⟩
  · rintro ⟨hl, u, l₁, hu, e, l₂, ⟨b, l₃, hb, he, rfl⟩, rfl, rfl⟩
    exact ⟨(u, b), ⟨hl, u, l₁, hu, b, _, hb, rfl, rfl⟩, e, he, rfl⟩

theorem decodes_enqueueRequest : Decodes putEnqueueRequest deserializeEnqueueRequest
    (fun r => r.envelope.WellFormed ∧ r.parts.Small)
    fun r => r.parts.Fits ∧ (putEnqueueRequest r).length ≤ kMaxSerializedInputBytes := by
  have h : Inverts (fun _ => True) _ _ _ _ :=
    .field inverts_string EnqueueRequest.userId fun u =>
    .field (inverts_envelopeItem "") EnqueueRequest.envelope fun e =>
    .done (P := fun x : EnqueueRequest Bytes => (True ∧ x.userId = u) ∧ x.envelope = e)
      (a := ⟨u, e⟩) fun x => by
      cases x
      simp
  have hd : Decodes _ deserializeEnqueueRequest _ _ :=
    h.decodes fun _ _ => deserializeEnqueueRequest_eq_ok_iff
  refine hd.congr (fun r _ => ?_) (fun r => ?_) fun r _ => ?_
  · simp [putEnqueueRequest]
  · simp [EnqueueRequest.parts, Parts.Small, parts_append]
    tauto
  · simp [EnqueueRequest.parts, Parts.Fits, parts_append, putEnqueueRequest, kMaxStringBytes]
    tauto

theorem readAck_eq : readAck = Reader.optional "invalid ack tag" Reader.u64 := by
  refine congrArg (Reader.u8 >>= ·) (funext fun tag => ?_)
  by_cases h₁ : tag = 1
  · subst h₁
    rfl
  · by_cases h₀ : tag = 0
    · subst h₀
      rfl
    · rw [if_neg h₁, if_pos h₀, if_neg h₀, if_pos h₁]

end Messages

/-! ## 6. The wire types -/

/-- The types that have a serializer and a deserializer. -/
inductive WireType
  | prekeyBundle
  | envelope
  | envelopeVector
  | inboxEnvelopeVector
  | string
  | enqueueRequest
  | drainInboxRequest
  | registerRequest
  | authBeginRequest
  | authBeginResponse
  | authFinishRequest
  | authFinishResponse
  | authenticatedPayload
  deriving DecidableEq, Repr

namespace WireType

def Value : WireType → Type
  | prekeyBundle => PrekeyBundle Bytes
  | envelope => Envelope Bytes
  | envelopeVector => List (Envelope Bytes)
  | inboxEnvelopeVector => List (InboxEnvelope Bytes)
  | string => Bytes
  | enqueueRequest => EnqueueRequest Bytes
  | drainInboxRequest => DrainInboxRequest Bytes
  | registerRequest => RegisterRequest Bytes
  | authBeginRequest => AuthBeginRequest Bytes
  | authBeginResponse => AuthBeginResponse Bytes
  | authFinishRequest => AuthFinishRequest Bytes
  | authFinishResponse => AuthFinishResponse Bytes
  | authenticatedPayload => AuthenticatedPayload Bytes

def serialize : (t : WireType) → t.Value → Result Bytes
  | prekeyBundle => serializePrekeyBundle
  | envelope => serializeEnvelope
  | envelopeVector => serializeEnvelopeVector
  | inboxEnvelopeVector => serializeInboxEnvelopeVector
  | string => serializeString (B := Bytes)
  | enqueueRequest => serializeEnqueueRequest
  | drainInboxRequest => serializeDrainInboxRequest
  | registerRequest => serializeRegisterRequest
  | authBeginRequest => serializeAuthBeginRequest
  | authBeginResponse => serializeAuthBeginResponse
  | authFinishRequest => serializeAuthFinishRequest
  | authFinishResponse => serializeAuthFinishResponse
  | authenticatedPayload => serializeAuthenticatedPayload

def deserialize : (t : WireType) → Bytes → Result t.Value
  | prekeyBundle => deserializePrekeyBundle
  | envelope => deserializeEnvelope
  | envelopeVector => deserializeEnvelopeVector
  | inboxEnvelopeVector => deserializeInboxEnvelopeVector
  | string => deserializeString
  | enqueueRequest => deserializeEnqueueRequest
  | drainInboxRequest => deserializeDrainInboxRequest
  | registerRequest => deserializeRegisterRequest
  | authBeginRequest => deserializeAuthBeginRequest
  | authBeginResponse => deserializeAuthBeginResponse
  | authFinishRequest => deserializeAuthFinishRequest
  | authFinishResponse => deserializeAuthFinishResponse
  | authenticatedPayload => deserializeAuthenticatedPayload

def parts : (t : WireType) → t.Value → Parts
  | prekeyBundle, (b : PrekeyBundle Bytes) => b.parts
  | envelope, (e : Envelope Bytes) => e.parts
  | envelopeVector, es => envelopesParts es
  | inboxEnvelopeVector, (items : List (InboxEnvelope Bytes)) =>
    envelopesParts (items.map InboxEnvelope.envelope)
  | string, s => ⟨[s], [], []⟩
  | enqueueRequest, (r : EnqueueRequest Bytes) => r.parts
  | drainInboxRequest, (r : DrainInboxRequest Bytes) => ⟨[r.userId], [], []⟩
  | registerRequest, (r : RegisterRequest Bytes) =>
    ⟨[r.userId, r.registrationToken],
      [r.transportAuthPublicKey, r.proofSignatureMldsa65] ++ r.rotationSignatureMldsa65.toList, []⟩
  | authBeginRequest, (r : AuthBeginRequest Bytes) => ⟨[r.userId], [r.clientNonce], []⟩
  | authBeginResponse, (r : AuthBeginResponse Bytes) => ⟨[r.challengeId], [r.serverNonce], []⟩
  | authFinishRequest, (r : AuthFinishRequest Bytes) =>
    ⟨[r.userId, r.challengeId], [r.clientNonce, r.serverNonce, r.signatureMldsa65], []⟩
  | authFinishResponse, (r : AuthFinishResponse Bytes) => ⟨[], [r.sessionToken], []⟩
  | authenticatedPayload, (r : AuthenticatedPayload Bytes) => ⟨[], [r.sessionToken, r.payload], []⟩

/-- Envelopes are as `FromInitial` and `FromChat` build them. -/
def WellFormed : (t : WireType) → t.Value → Prop
  | envelope, (e : Envelope Bytes) => e.WellFormed
  | envelopeVector, (es : List (Envelope Bytes)) => ∀ e ∈ es, e.WellFormed
  | inboxEnvelopeVector, (items : List (InboxEnvelope Bytes)) =>
    ∀ e ∈ items.map InboxEnvelope.envelope, e.WellFormed
  | enqueueRequest, (r : EnqueueRequest Bytes) => r.envelope.WellFormed
  | _, _ => True

/-- Within all limits of the reader: those of the parts and that of the encoding. -/
def Fits (t : WireType) (x : t.Value) (b : Bytes) : Prop :=
  (t.parts x).Fits ∧ b.length ≤ 8 * 1024 * 1024

/-- What is written for a value. -/
def encoding (t : WireType) (x : t.Value) : Bytes := (t.serialize x).toOption.getD []

theorem serialize_eq (t : WireType) (x : t.Value) (h : t.WellFormed x) :
    t.serialize x = .ok (t.encoding x) := by
  have hok : ∀ {r : Result Bytes} {b}, r = .ok b → r = .ok (r.toOption.getD []) := by
    rintro _ b rfl
    rfl
  cases t with
  | envelope => exact serializeEnvelope_eq h
  | envelopeVector => exact hok (serializeEnvelopeVector_eq h)
  | inboxEnvelopeVector =>
    exact hok (serializeInboxEnvelopeVector_eq (List.forall_mem_map.mp h))
  | enqueueRequest => exact hok (serializeEnqueueRequest_eq h)
  | _ => rfl

/-- A message whose encoding has been worked out. -/
theorem decodes_of_put {t : WireType} {put : t.Value → Bytes}
    (hput : ∀ x, t.WellFormed x → t.serialize x = .ok (put x))
    (h : Decodes put t.deserialize (fun x => t.WellFormed x ∧ (t.parts x).Small)
      fun x => t.Fits x (put x)) : Decodes t.encoding t.deserialize
        (fun x => t.WellFormed x ∧ (t.parts x).Small) fun x => t.Fits x (t.encoding x) := by
  have he : ∀ x, t.WellFormed x → t.encoding x = put x := fun x hx => by
    rw [encoding, hput x hx]
    rfl
  refine h.congr (fun x hx => he x hx.1) (fun _ => Iff.rfl) fun x hx => ?_
  rw [he x hx.1]

/-- A message without envelopes. -/
theorem decodes_of_inverts {t : WireType} {read : Reader t.Value} (hw : ∀ x, t.WellFormed x)
    (h : Inverts (fun _ => True) t.encoding read (fun x => (t.parts x).Small)
      fun x => (t.parts x).Fits) {label what : String}
    (hd : t.deserialize = deserializeWith label what read) : Decodes t.encoding t.deserialize
      (fun x => t.WellFormed x ∧ (t.parts x).Small) fun x => t.Fits x (t.encoding x) := by
  rw [hd]
  exact (decodes_deserializeWith h label what).congr (fun _ _ => rfl)
    (fun x => and_iff_right (hw x)) fun _ _ => Iff.rfl

theorem inverts_string : Inverts (fun _ => True) string.encoding Reader.string
    (fun x => (string.parts x).Small) fun x => (string.parts x).Fits := by
  refine PqChat.inverts_string.congr (fun _ => Iff.rfl) (fun x _ => writer_string [] x)
    (fun x => ?_) fun x => ?_
  · simp [parts, Parts.Small]
  · simp [parts, Parts.Fits, kMaxStringBytes]

theorem inverts_drainInboxRequest : Inverts (fun _ => True) drainInboxRequest.encoding
    readDrainInboxRequest (fun x => (drainInboxRequest.parts x).Small)
    fun x => (drainInboxRequest.parts x).Fits := by
  rw [readDrainInboxRequest, readAck_eq]
  refine (Inverts.field PqChat.inverts_string DrainInboxRequest.userId fun _ =>
    .field (inverts_optional inverts_u64 _) DrainInboxRequest.ackUpToInboxId fun _ =>
    .done fun x => ?_).congr (fun _ => Iff.rfl) (fun x _ => ?_) (fun x => ?_) fun x => ?_
  · cases x
    simp
  · show Writer.optional Writer.u64 (Writer.string [] _) _ = _
    rw [writer_optional _ writer_u64, writer_string]
    simp
  · simp [parts, Parts.Small]
  · simp [parts, Parts.Fits, kMaxStringBytes]

theorem inverts_registerRequest : Inverts (fun _ => True) registerRequest.encoding
    readRegisterRequest (fun x => (registerRequest.parts x).Small)
    fun x => (registerRequest.parts x).Fits := by
  refine (Inverts.field PqChat.inverts_string RegisterRequest.userId fun _ =>
    .field inverts_bytes RegisterRequest.transportAuthPublicKey fun _ =>
    .field PqChat.inverts_string RegisterRequest.registrationToken fun _ =>
    .field inverts_bytes RegisterRequest.proofSignatureMldsa65 fun _ =>
    .field (inverts_optional inverts_bytes _) RegisterRequest.rotationSignatureMldsa65 fun _ =>
    .done fun x => ?_).congr (fun _ => Iff.rfl) (fun x _ => ?_) (fun x => ?_) fun x => ?_
  · cases x
    simp [and_assoc]
  · simp [encoding, serialize, serializeRegisterRequest, writer_string, writer_bytes,
      writer_optionalBytes, bytes_empty, Except.toOption]
  · simp [parts, Parts.Small]
    tauto
  · simp [parts, Parts.Fits, kMaxStringBytes, kMaxFieldBytes]
    tauto

theorem inverts_authBeginRequest : Inverts (fun _ => True) authBeginRequest.encoding
    readAuthBeginRequest (fun x => (authBeginRequest.parts x).Small)
    fun x => (authBeginRequest.parts x).Fits := by
  refine (Inverts.field PqChat.inverts_string AuthBeginRequest.userId fun _ =>
    .field inverts_bytes AuthBeginRequest.clientNonce fun _ =>
    .done fun x => ?_).congr (fun _ => Iff.rfl) (fun x _ => ?_) (fun x => ?_) fun x => ?_
  · cases x
    simp
  · simp [encoding, serialize, serializeAuthBeginRequest, writer_string, writer_bytes,
      bytes_empty, Except.toOption]
  · simp [parts, Parts.Small]
  · simp [parts, Parts.Fits, kMaxStringBytes, kMaxFieldBytes]

theorem inverts_authBeginResponse : Inverts (fun _ => True) authBeginResponse.encoding
    readAuthBeginResponse (fun x => (authBeginResponse.parts x).Small)
    fun x => (authBeginResponse.parts x).Fits := by
  refine (Inverts.field PqChat.inverts_string AuthBeginResponse.challengeId fun _ =>
    .field inverts_bytes AuthBeginResponse.serverNonce fun _ =>
    .field inverts_u64 AuthBeginResponse.expiresAtUnix fun _ =>
    .done fun x => ?_).congr (fun _ => Iff.rfl) (fun x _ => ?_) (fun x => ?_) fun x => ?_
  · cases x
    simp [and_assoc]
  · simp [encoding, serialize, serializeAuthBeginResponse, writer_string, writer_bytes,
      writer_u64, bytes_empty, Except.toOption]
  · simp [parts, Parts.Small]
  · simp [parts, Parts.Fits, kMaxStringBytes, kMaxFieldBytes]

theorem inverts_authFinishRequest : Inverts (fun _ => True) authFinishRequest.encoding
    readAuthFinishRequest (fun x => (authFinishRequest.parts x).Small)
    fun x => (authFinishRequest.parts x).Fits := by
  refine (Inverts.field PqChat.inverts_string AuthFinishRequest.userId fun _ =>
    .field PqChat.inverts_string AuthFinishRequest.challengeId fun _ =>
    .field inverts_bytes AuthFinishRequest.clientNonce fun _ =>
    .field inverts_bytes AuthFinishRequest.serverNonce fun _ =>
    .field inverts_u64 AuthFinishRequest.expiresAtUnix fun _ =>
    .field inverts_bytes AuthFinishRequest.signatureMldsa65 fun _ =>
    .done fun x => ?_).congr (fun _ => Iff.rfl) (fun x _ => ?_) (fun x => ?_) fun x => ?_
  · cases x
    simp [and_assoc]
  · simp [encoding, serialize, serializeAuthFinishRequest, writer_string, writer_bytes,
      writer_u64, bytes_empty, Except.toOption]
  · simp [parts, Parts.Small]
    tauto
  · simp [parts, Parts.Fits, kMaxStringBytes, kMaxFieldBytes]
    tauto

theorem inverts_authFinishResponse : Inverts (fun _ => True) authFinishResponse.encoding
    readAuthFinishResponse (fun x => (authFinishResponse.parts x).Small)
    fun x => (authFinishResponse.parts x).Fits := by
  refine (Inverts.field inverts_bytes AuthFinishResponse.sessionToken fun _ =>
    .field inverts_u64 AuthFinishResponse.expiresAtUnix fun _ =>
    .done fun x => ?_).congr (fun _ => Iff.rfl) (fun x _ => ?_) (fun x => ?_) fun x => ?_
  · cases x
    simp
  · simp [encoding, serialize, serializeAuthFinishResponse, writer_bytes, writer_u64,
      bytes_empty, Except.toOption]
  · simp [parts, Parts.Small]
  · simp [parts, Parts.Fits, kMaxFieldBytes]

theorem inverts_authenticatedPayload : Inverts (fun _ => True) authenticatedPayload.encoding
    readAuthenticatedPayload (fun x => (authenticatedPayload.parts x).Small)
    fun x => (authenticatedPayload.parts x).Fits := by
  refine (Inverts.field inverts_bytes AuthenticatedPayload.sessionToken fun _ =>
    .field inverts_bytes AuthenticatedPayload.payload fun _ =>
    .done fun x => ?_).congr (fun _ => Iff.rfl) (fun x _ => ?_) (fun x => ?_) fun x => ?_
  · cases x
    simp
  · simp [encoding, serialize, serializeAuthenticatedPayload, writer_bytes, bytes_empty,
      Except.toOption]
  · simp [parts, Parts.Small]
  · simp [parts, Parts.Fits, kMaxFieldBytes]

/-- **Every deserializer inverts its serializer.** -/
theorem decodes (t : WireType) : Decodes t.encoding t.deserialize
    (fun x => t.WellFormed x ∧ (t.parts x).Small) fun x => t.Fits x (t.encoding x) := by
  cases t with
  | prekeyBundle => exact decodes_of_inverts (fun _ => trivial) inverts_prekeyBundle rfl
  | envelope => exact decodes_envelope
  | envelopeVector =>
    exact decodes_of_put (fun _ h => serializeEnvelopeVector_eq h) decodes_envelopeVector
  | inboxEnvelopeVector =>
    exact decodes_of_put (fun _ h => serializeInboxEnvelopeVector_eq (List.forall_mem_map.mp h))
      decodes_inboxEnvelopeVector
  | enqueueRequest =>
    exact decodes_of_put (fun _ h => serializeEnqueueRequest_eq h) decodes_enqueueRequest
  | string => exact decodes_of_inverts (fun _ => trivial) inverts_string rfl
  | drainInboxRequest =>
    exact decodes_of_inverts (fun _ => trivial) inverts_drainInboxRequest rfl
  | registerRequest => exact decodes_of_inverts (fun _ => trivial) inverts_registerRequest rfl
  | authBeginRequest => exact decodes_of_inverts (fun _ => trivial) inverts_authBeginRequest rfl
  | authBeginResponse => exact decodes_of_inverts (fun _ => trivial) inverts_authBeginResponse rfl
  | authFinishRequest => exact decodes_of_inverts (fun _ => trivial) inverts_authFinishRequest rfl
  | authFinishResponse =>
    exact decodes_of_inverts (fun _ => trivial) inverts_authFinishResponse rfl
  | authenticatedPayload =>
    exact decodes_of_inverts (fun _ => trivial) inverts_authenticatedPayload rfl

end WireType

/-- **Round trip.**  A value is read back if everything is within the limits, and is rejected
otherwise. -/
theorem deserialize_serialize (t : WireType) (x : t.Value) (hx : t.WellFormed x)
    (hsmall : (t.parts x).Small) : ∃ b, t.serialize x = .ok b ∧
      (t.Fits x b → t.deserialize b = .ok x) ∧
      (¬ t.Fits x b → ∃ e, t.deserialize b = .error e) :=
  ⟨_, t.serialize_eq x hx, t.decodes.decode_put x ⟨hx, hsmall⟩,
    t.decodes.decode_error x ⟨hx, hsmall⟩⟩

/-- A short string is read back, one of 64 KiB and one byte is not. -/
theorem deserialize_serialize_string :
    (∃ b, WireType.string.serialize (ascii "hi") = .ok b ∧
      WireType.string.deserialize b = .ok (ascii "hi")) ∧
    ∃ b, WireType.string.serialize (List.replicate 65537 (0 : UInt8)) = .ok b ∧
      ∃ e, WireType.string.deserialize b = .error e := by
  have hsmall : ∀ s : Bytes, s.length < 2 ^ 32 → (WireType.string.parts s).Small := fun s hs =>
    ⟨by simpa [WireType.parts] using hs, nofun, nofun⟩
  obtain ⟨b, hb, hfit, -⟩ := deserialize_serialize .string (ascii "hi") trivial
    (hsmall _ (by decide))
  obtain ⟨b', hb', -, hlong⟩ := deserialize_serialize .string (List.replicate 65537 (0 : UInt8))
    trivial (hsmall _ (by rw [List.length_replicate]; decide))
  refine ⟨⟨b, hb, hfit ⟨⟨?_, nofun, nofun⟩, ?_⟩⟩, b', hb', hlong fun h => ?_⟩
  · exact List.forall_mem_singleton.mpr (by decide)
  · obtain rfl := Except.ok.inj hb
    decide
  · have hle := h.1.1 _ (List.mem_singleton_self _)
    rw [List.length_replicate] at hle
    exact absurd hle (by decide)

/-- **Canonicity.**  What is accepted is the encoding of the value; no other string is accepted
for it, and no two accepted strings are such that one continues the other. -/
theorem serialize_deserialize (t : WireType) (b : Bytes) (x : t.Value)
    (h : t.deserialize b = .ok x) : t.serialize x = .ok b ∧
      (∀ b', t.deserialize b' = .ok x → b' = b) ∧
      ∀ b' y, t.deserialize b' = .ok y → b <+: b' → b' = b := by
  obtain ⟨hb, hs, -⟩ := t.decodes.put_decode b x h
  refine ⟨?_, fun b' h' => ?_, fun b' y h' hpre => ?_⟩
  · rw [hb]
    exact t.serialize_eq x hs.1
  · exact (t.decodes.put_decode b' x h').1.trans hb.symm
  · obtain ⟨r, rfl⟩ := hpre
    rw [t.decodes.no_extension b r x y h h', List.append_nil]

theorem serialize_deserialize_string :
    WireType.string.deserialize [0, 0, 0, 2, 104, 105] = .ok (ascii "hi") ∧
      WireType.string.serialize (ascii "hi") = .ok [0, 0, 0, 2, 104, 105] ∧
      ∀ b' y, WireType.string.deserialize b' = .ok y → [0, 0, 0, 2, 104, 105] <+: b' →
        b' = [0, 0, 0, 2, 104, 105] := by
  have h : WireType.string.deserialize [0, 0, 0, 2, 104, 105] = .ok (ascii "hi") := rfl
  obtain ⟨hser, -, hpre⟩ := serialize_deserialize .string [0, 0, 0, 2, 104, 105] (ascii "hi") h
  exact ⟨h, hser, hpre⟩

end PqChat
