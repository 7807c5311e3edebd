/-
# The size of what is written

A writer puts the parts of a value down one after the other, so none of them is longer than the
encoding (`WireType.within`).  The lengths are written in 32 bits; but a message that is accepted is
short, and then so are the parts of whatever value it is the encoding of.  So no two values share an
encoding that is accepted, large or small (`WireType.eq_of_accepted`).
-/
import PqChat.Wire.RoundTrip

namespace PqChat

open ByteString

/-! ## 1. Parts -/

/-- Every part has at most the size `n`. -/
structure Parts.Within (p : Parts) (n : Nat) : Prop where
  strings : ∀ s ∈ p.strings, s.length ≤ n
  fields : ∀ f ∈ p.fields, f.length ≤ n
  counts : ∀ count ∈ p.counts, count ≤ n

namespace Parts.Within

variable {p q : Parts} {m n : Nat}

theorem mono (h : p.Within m) (hle : m ≤ n) : p.Within n :=
  ⟨fun s hs => (h.strings s hs).trans hle, fun f hf => (h.fields f hf).trans hle,
    fun count hcount => (h.counts count hcount).trans hle⟩

theorem append (hp : p.Within n) (hq : q.Within n) : (p ++ q).Within n := by
  rw [parts_append]
  constructor
  · exact List.forall_mem_append.mpr ⟨hp.strings, hq.strings⟩
  · exact List.forall_mem_append.mpr ⟨hp.fields, hq.fields⟩
  · exact List.forall_mem_append.mpr ⟨hp.counts, hq.counts⟩

theorem small (h : p.Within n) (hn : n < 2 ^ 32) : p.Small :=
  ⟨fun s hs => (h.strings s hs).trans_lt hn, fun f hf => (h.fields f hf).trans_lt hn,
    fun count hcount => (h.counts count hcount).trans_lt hn⟩

/-- Strings and fields, without lists. -/
theorem of_lists {strings fields : List Bytes} (hs : ∀ s ∈ strings, s.length ≤ n)
    (hf : ∀ f ∈ fields, f.length ≤ n) : Within ⟨strings, fields, []⟩ n :=
  ⟨hs, hf, List.forall_mem_nil _⟩

end Parts.Within

/-! ## 2. What is written for them -/

section Lengths

theorem length_putBytes (b : Bytes) : (putBytes b).length = b.length + 4 := by
  rw [putBytes, List.length_append, Nat.add_comm]
  rfl

theorem length_putU32 (v : UInt32) : (putU32 v).length = 4 := rfl

theorem le_putOptional (x : Option Bytes) :
    ∀ b ∈ x.toList, b.length ≤ (putOptional putBytes x).length := by
  intro b hb
  obtain rfl := Option.mem_toList.mp hb
  rw [putOptional, List.length_cons, length_putBytes]
  omega

/-- An item of a list. -/
theorem le_flatMap {α : Type} {put : α → Bytes} {l : List α} {a : α} (ha : a ∈ l) :
    (put a).length ≤ (l.flatMap put).length :=
  (List.infix_of_mem_flatten (List.mem_map_of_mem ha)).length_le

theorem length_le_flatMap {α : Type} {put : α → Bytes} (h : ∀ a, 0 < (put a).length)
    (l : List α) : l.length ≤ (l.flatMap put).length := by
  induction l with
  | nil => exact Nat.le_refl 0
  | cons a l ih =>
    have ha := h a
    rw [List.flatMap_cons, List.length_append, List.length_cons]
    omega

theorem MessageHeader.within (h : MessageHeader Bytes) :
    h.parts.Within (writeMessageHeader [] h).length := by
  have hkey := le_putOptional h.senderRatchetPublicKey
  have hlen : (putOptional putBytes h.senderRatchetPublicKey).length ≤
      (writeMessageHeader [] h).length := by
    simp only [writeMessageHeader, writer_u32, writer_u64, writer_optionalBytes, List.nil_append,
      List.length_append]
    omega
  exact .of_lists (List.forall_mem_nil _) fun b hb => (hkey b hb).trans hlen

theorem InitialMessage.within (m : InitialMessage Bytes) :
    m.parts.Within (writeInitialMessage [] m).length := by
  have hkey := le_putOptional m.kemCiphertextOneTimePq
  simp only [writeInitialMessage, writer_string, writer_bytes, writer_optionalBytes]
  rw [writePrekeySelection_eq]
  simp only [List.length_append, length_putBytes, List.length_nil]
  refine .of_lists ?_ ?_
  · simp only [List.forall_mem_cons]
    refine ⟨?_, ?_, ?_, ?_, ?_, List.forall_mem_nil _⟩ <;> omega
  · refine List.forall_mem_append.mpr ⟨?_, fun b hb => (hkey b hb).trans (by omega)⟩
    simp only [List.forall_mem_cons]
    refine ⟨?_, ?_, ?_, ?_, ?_, ?_, ?_, ?_, ?_, ?_, List.forall_mem_nil _⟩ <;> omega

theorem ChatMessage.within (m : ChatMessage Bytes) :
    m.parts.Within (writeChatMessage [] m).length := by
  have hheader := m.header.within
  simp only [writeChatMessage, writer_string, writer_bytes]
  rw [writeMessageHeader_eq]
  simp only [List.length_append, length_putBytes, List.length_nil]
  refine .append (.of_lists ?_ ?_) (hheader.mono (by omega))
  · simp only [List.forall_mem_cons]
    refine ⟨?_, ?_, ?_, List.forall_mem_nil _⟩ <;> omega
  · simp only [List.forall_mem_cons]
    refine ⟨?_, ?_, List.forall_mem_nil _⟩ <;> omega

theorem Envelope.within {e : Envelope Bytes} (h : e.WellFormed) :
    e.parts.Within e.encoding.length := by
  rcases h with ⟨m, rfl⟩ | ⟨m, rfl⟩
  · refine m.within.mono ?_
    show _ ≤ (writeInitialMessage [0] m).length
    rw [writeInitialMessage_eq [0], List.length_append]
    omega
  · refine m.within.mono ?_
    show _ ≤ (writeChatMessage [1] m).length
    rw [writeChatMessage_eq [1], List.length_append]
    omega

theorem SignedPrekey.within (k : SignedPrekey Bytes) :
    k.parts.Within (writeSignedPrekey [] k).length := by
  simp only [writeSignedPrekey, writer_u32, writer_bytes, List.length_append, length_putBytes]
  refine .of_lists (List.forall_mem_nil _) ?_
  simp only [List.forall_mem_cons]
  refine ⟨?_, ?_, ?_, List.forall_mem_nil _⟩ <;> omega

theorem length_putOneTimePrekey (k : OneTimePrekey Bytes) :
    (putOneTimePrekey k).length = k.publicKey.length + 8 := by
  rw [putOneTimePrekey, List.length_append, length_putU32, length_putBytes]
  omega

theorem PrekeyBundle.within (b : PrekeyBundle Bytes) :
    b.parts.Within (putPrekeyBundle b).length := by
  have hec := b.signedPrekeyEc.within
  have hpq := b.signedPrekeyPq.within
  have hkey : ∀ {keys : List (OneTimePrekey Bytes)} {key}, key ∈ keys →
      key.publicKey.length ≤ (keys.flatMap putOneTimePrekey).length := by
    intro keys key hkey
    have hle : (putOneTimePrekey key).length ≤ (keys.flatMap putOneTimePrekey).length :=
      le_flatMap hkey
    rw [length_putOneTimePrekey] at hle
    omega
  have hcount : ∀ keys : List (OneTimePrekey Bytes),
      keys.length ≤ (keys.flatMap putOneTimePrekey).length := by
    refine length_le_flatMap fun key => ?_
    rw [length_putOneTimePrekey]
    omega
  have hecs := hcount b.oneTimeEc
  have hpqs := hcount b.oneTimePq
  simp only [putPrekeyBundle, serializePrekeyBundle, writer_string, writer_bytes, writeOneTime_eq,
    Except.toOption, Option.getD_some]
  rw [writeSignedPrekey_eq, writeSignedPrekey_eq (_ ++ _)]
  simp only [List.length_append, length_putBytes]
  refine .append (.append ?_ (hec.mono (by omega))) (hpq.mono (by omega))
  constructor
  · simp only [List.forall_mem_cons]
    refine ⟨?_, ?_, ?_, List.forall_mem_nil _⟩ <;> omega
  · refine List.forall_mem_append.mpr ⟨?_, List.forall_mem_map.mpr fun key hmem => ?_⟩
    · simp only [List.forall_mem_cons]
      refine ⟨?_, ?_, ?_, ?_, ?_, List.forall_mem_nil _⟩ <;> omega
    · rcases List.mem_append.mp hmem with hmem | hmem
      · have hle := hkey hmem
        omega
      · have hle := hkey hmem
        omega
  · simp only [List.forall_mem_cons]
    refine ⟨?_, ?_, List.forall_mem_nil _⟩ <;> omega

/-- Envelopes in a list, whatever else there is in front of each. -/
theorem envelopesParts_within {α : Type} {envelope : α → Envelope Bytes} {put : α → Bytes}
    (hput : ∀ a, (envelope a).encoding.length < (put a).length) {l : List α}
    (h : ∀ a ∈ l, (envelope a).WellFormed) :
    (envelopesParts (l.map envelope)).Within (l.flatMap put).length := by
  have hitem : ∀ a ∈ l, (envelope a).encoding.length ≤ (l.flatMap put).length := fun a ha =>
    (hput a).le.trans (le_flatMap ha)
  have hparts : ∀ a ∈ l, (envelope a).parts.Within (l.flatMap put).length := fun a ha =>
    (Envelope.within (h a ha)).mono (hitem a ha)
  constructor
  · intro s hs
    obtain ⟨e, he, hs⟩ := List.mem_flatMap.mp hs
    obtain ⟨a, ha, rfl⟩ := List.mem_map.mp he
    exact (hparts a ha).strings s hs
  · intro f hf
    rcases List.mem_append.mp hf with hf | hf
    · obtain ⟨e, he, rfl⟩ := List.mem_map.mp hf
      obtain ⟨a, ha, rfl⟩ := List.mem_map.mp he
      exact hitem a ha
    · obtain ⟨e, he, hf⟩ := List.mem_flatMap.mp hf
      obtain ⟨a, ha, rfl⟩ := List.mem_map.mp he
      exact (hparts a ha).fields f hf
  · intro count hcount
    rcases List.mem_cons.mp hcount with rfl | hcount
    · rw [List.length_map]
      exact length_le_flatMap (fun a => Nat.zero_lt_of_lt (hput a)) l
    · obtain ⟨e, he, hcount⟩ := List.mem_flatMap.mp hcount
      obtain ⟨a, ha, rfl⟩ := List.mem_map.mp he
      exact (hparts a ha).counts count hcount

theorem EnvelopeVector.within {es : List (Envelope Bytes)} (h : ∀ e ∈ es, e.WellFormed) :
    (envelopesParts es).Within (putEnvelopeVector es).length := by
  have hitems : (envelopesParts (es.map id)).Within
      (es.flatMap fun e => putBytes e.encoding).length := by
    refine envelopesParts_within (fun e => ?_) h
    rw [length_putBytes]
    exact Nat.lt_add_of_pos_right (by decide)
  rw [List.map_id] at hitems
  rw [putEnvelopeVector, List.length_append]
  exact hitems.mono (Nat.le_add_left _ _)

theorem InboxEnvelopeVector.within {items : List (InboxEnvelope Bytes)}
    (h : ∀ item ∈ items, item.envelope.WellFormed) :
    (envelopesParts (items.map InboxEnvelope.envelope)).Within
      (putInboxEnvelopeVector items).length := by
  rw [putInboxEnvelopeVector, List.length_append]
  refine (envelopesParts_within (fun item => ?_) h).mono (Nat.le_add_left _ _)
  rw [List.length_append, length_putBytes]
  omega

theorem within_string (s : Bytes) :
    (WireType.string.parts s).Within (Writer.string [] s).length := by
  rw [writer_string, List.length_append, length_putBytes]
  exact .of_lists (List.forall_mem_singleton.mpr (by omega)) (List.forall_mem_nil _)

theorem EnqueueRequest.within {r : EnqueueRequest Bytes} (h : r.envelope.WellFormed) :
    r.parts.Within (putEnqueueRequest r).length := by
  rw [putEnqueueRequest, List.length_append, length_putBytes, length_putBytes]
  refine .append (.of_lists ?_ ?_) ((Envelope.within h).mono (by omega))
  · exact List.forall_mem_singleton.mpr (by omega)
  · exact List.forall_mem_singleton.mpr (by omega)

theorem DrainInboxRequest.within (r : DrainInboxRequest Bytes) :
    (WireType.drainInboxRequest.parts r).Within
      (Writer.optional Writer.u64 (Writer.string [] r.userId) r.ackUpToInboxId).length := by
  rw [writer_optional _ writer_u64, writer_string, List.length_append, List.length_append,
    length_putBytes]
  exact .of_lists (List.forall_mem_singleton.mpr (by omega)) (List.forall_mem_nil _)

theorem RegisterRequest.within (r : RegisterRequest Bytes) :
    (WireType.registerRequest.parts r).Within
      (WireType.registerRequest.encoding r).length := by
  have hrotation := le_putOptional r.rotationSignatureMldsa65
  simp only [WireType.encoding, WireType.serialize, serializeRegisterRequest, writer_string,
    writer_bytes, writer_optionalBytes, Except.toOption, Option.getD_some, List.length_append,
    length_putBytes]
  refine .of_lists ?_ ?_
  · simp only [List.forall_mem_cons]
    refine ⟨?_, ?_, List.forall_mem_nil _⟩ <;> omega
  · refine List.forall_mem_append.mpr ⟨?_, fun b hb => (hrotation b hb).trans (by omega)⟩
    simp only [List.forall_mem_cons]
    refine ⟨?_, ?_, List.forall_mem_nil _⟩ <;> omega

theorem AuthFinishRequest.within (r : AuthFinishRequest Bytes) :
    (WireType.authFinishRequest.parts r).Within
      (WireType.authFinishRequest.encoding r).length := by
  simp only [WireType.encoding, WireType.serialize, serializeAuthFinishRequest, writer_string,
    writer_bytes, writer_u64, Except.toOption, Option.getD_some, List.length_append,
    length_putBytes]
  refine .of_lists ?_ ?_
  · simp only [List.forall_mem_cons]
    refine ⟨?_, ?_, List.forall_mem_nil _⟩ <;> omega
  · simp only [List.forall_mem_cons]
    refine ⟨?_, ?_, ?_, List.forall_mem_nil _⟩ <;> omega

/-- One string and one field, and what follows them. -/
theorem within_string_bytes (s f rest : Bytes) :
    Parts.Within ⟨[s], [f], []⟩ (Writer.bytes (Writer.string [] s) f ++ rest).length := by
  rw [writer_bytes, writer_string]
  simp only [List.length_append, length_putBytes]
  refine .of_lists ?_ ?_
  · exact List.forall_mem_singleton.mpr (by omega)
  · exact List.forall_mem_singleton.mpr (by omega)

end Lengths

/-! ## 3. Messages -/

namespace WireType

theorem encoding_eq_of_serialize {t : WireType} {x : t.Value} {b : Bytes}
    (h : t.serialize x = .ok b) : t.encoding x = b := by
  rw [encoding, h]
  rfl

/-- **No part of a value is longer than its encoding.** -/
theorem within (t : WireType) (x : t.Value) (h : t.WellFormed x) :
    (t.parts x).Within (t.encoding x).length := by
  cases t with
  | prekeyBundle => exact PrekeyBundle.within x
  | envelope => exact Envelope.within h
  | envelopeVector =>
    rw [encoding_eq_of_serialize (t := envelopeVector) (serializeEnvelopeVector_eq h)]
    exact EnvelopeVector.within h
  | inboxEnvelopeVector =>
    replace h := List.forall_mem_map.mp h
    rw [encoding_eq_of_serialize (t := inboxEnvelopeVector) (serializeInboxEnvelopeVector_eq h)]
    exact InboxEnvelopeVector.within h
  | string => exact within_string x
  | enqueueRequest =>
    rw [encoding_eq_of_serialize (t := enqueueRequest) (serializeEnqueueRequest_eq h)]
    exact EnqueueRequest.within h
  | drainInboxRequest => exact DrainInboxRequest.within x
  | registerRequest => exact RegisterRequest.within x
  | authBeginRequest =>
    have hwithin :=
      within_string_bytes (AuthBeginRequest.userId x) (AuthBeginRequest.clientNonce x) []
    rwa [List.append_nil] at hwithin
  | authBeginResponse =>
    exact within_string_bytes (AuthBeginResponse.challengeId x) (AuthBeginResponse.serverNonce x)
      (putU64 (AuthBeginResponse.expiresAtUnix x))
  | authFinishRequest => exact AuthFinishRequest.within x
  | authFinishResponse =>
    refine .of_lists (List.forall_mem_nil _) (List.forall_mem_singleton.mpr ?_)
    show _ ≤ (Writer.u64 (Writer.bytes [] _) _).length
    rw [writer_u64, writer_bytes, List.length_append, List.length_append, length_putBytes]
    omega
  | authenticatedPayload =>
    show Parts.Within _ (Writer.bytes (Writer.bytes [] _) _).length
    rw [writer_bytes, writer_bytes, List.length_append, List.length_append, length_putBytes,
      length_putBytes]
    refine .of_lists (List.forall_mem_nil _) ?_
    simp only [List.forall_mem_cons]
    refine ⟨?_, ?_, List.forall_mem_nil _⟩ <;> omega

/-- **No two values share an encoding that is accepted.** -/
theorem eq_of_accepted {t : WireType} {x y : t.Value} {b : Bytes} (hx : t.WellFormed x)
    (hwrite : t.serialize x = .ok b) (hread : t.deserialize b = .ok y) : x = y := by
  obtain rfl := encoding_eq_of_serialize hwrite
  obtain ⟨-, -, hfits⟩ := t.decodes.put_decode _ _ hread
  have hlen : (t.encoding x).length < 2 ^ 32 := by
    have hle := hfits.2
    have henc := (t.decodes.put_decode _ _ hread).1
    rw [← henc] at hle
    omega
  have hsmall := (t.within x hx).small hlen
  by_cases hfit : t.Fits x (t.encoding x)
  · rw [t.decodes.decode_put x ⟨hx, hsmall⟩ hfit] at hread
    exact Except.ok.inj hread
  · obtain ⟨e, he⟩ := t.decodes.decode_error x ⟨hx, hsmall⟩ hfit
    rw [he] at hread
    cases hread

end WireType

end PqChat
