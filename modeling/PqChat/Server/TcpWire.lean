/-
# Frames over a byte stream

A socket returns what has arrived, and takes what it has room for: a read or a write may be cut
anywhere, and a signal may interrupt it.  `ReadExact` and `WriteExact` repeat the call until every
byte is through, so for what a `ReadFrame` returns the cuts do not matter.  It is what
`PqChat.readFrame` makes of the bytes that arrive before the peer closes (`readFrame_refines`).

Two things follow.  Frames that are written are read back, in order, and behind them is the end of
the stream.  And the end of the stream is reported where `ReadExact` finds it before its first
byte.  That is the case ahead of a frame, but `ReadFrame` reads a header and a payload by two
such calls: a stream that ends between them looks like one that ends between two frames.
-/
import PqChat.Lib.Lockstep
import PqChat.Server.Delivery

namespace PqChat

namespace TcpWire

open ByteString Codec TcpServer

/-! ## 1. Sockets -/

/-- What a call moves if it moves anything. -/
abbrev Chunk := { bytes : Bytes // bytes ≠ [] }

/-- What `recv` or `SSL_read` finds.  `interrupted` is `EINTR`, and `SSL_ERROR_WANT_READ` or
`SSL_ERROR_WANT_WRITE`; `failed` is any other error, with its text. -/
inductive Arrival
  | bytes (chunk : Chunk)
  | interrupted
  | failed (reason : String)

/-- What `send` or `SSL_write` finds: room for `more + 1` bytes, or none. -/
inductive Room
  | bytes (more : Nat)
  | interrupted
  | failed (reason : String)

/-- One end of a connection.  Behind the last arrival the peer has closed its end; behind the
last entry of `room` there is room for everything. -/
structure Socket where
  incoming : List Arrival
  room : List Room := []
  sent : Bytes := []

/-- The texts by which the two kinds of socket differ. -/
structure Texts where
  midFrame : String
  readFailed : String
  writeFailed : String

def socketTexts : Texts := ⟨"socket closed mid-frame", "recv failed: ", "send failed: "⟩

def tlsTexts : Texts :=
  ⟨"TLS connection closed mid-frame", "SSL_read failed: ", "SSL_write failed: "⟩

/-- The loop of `ReadExact` and `ReadExactTls`, with `want` bytes to go. -/
def recvLoop (t : Texts) : List Arrival → Nat → Bytes → Result Bytes × List Arrival
  | arrivals, 0, done => (.ok done, arrivals)
  | [], _ + 1, done => (.error (if done = [] then "eof" else t.midFrame), [])
  | .bytes chunk :: arrivals, want + 1, done =>
    if h : want + 1 < chunk.1.length then
      -- the rest stays in the socket
      (.ok (done ++ chunk.1.take (want + 1)), .bytes ⟨chunk.1.drop (want + 1),
        List.ne_nil_of_length_pos (by rw [List.length_drop]; omega)⟩ :: arrivals)
    else recvLoop t arrivals (want + 1 - chunk.1.length) (done ++ chunk.1)
  | .interrupted :: arrivals, want + 1, done => recvLoop t arrivals (want + 1) done
  | .failed reason :: arrivals, _ + 1, _ => (.error (t.readFailed ++ reason), arrivals)

/-- The loop of `WriteExact` and `WriteExactTls`, with `data` to go. -/
def sendLoop (t : Texts) : List Room → Bytes → Bytes → Result Unit × List Room × Bytes
  | room, [], sent => (.ok (), room, sent)
  | [], b :: data, sent => (.ok (), [], sent ++ b :: data)
  | .bytes more :: room, b :: data, sent =>
    sendLoop t room (data.drop more) (sent ++ b :: data.take more)
  | .interrupted :: room, b :: data, sent => sendLoop t room (b :: data) sent
  | .failed reason :: room, _ :: _, sent => (.error (t.writeFailed ++ reason), room, sent)

def recvExact (t : Texts) (len : Nat) : Proc Socket Bytes := fun s =>
  ((recvLoop t s.incoming len []).1, { s with incoming := (recvLoop t s.incoming len []).2 })

def sendExact (t : Texts) (data : Bytes) : Proc Socket Unit := fun s =>
  ((sendLoop t s.room data s.sent).1,
    { s with
      room := (sendLoop t s.room data s.sent).2.1
      sent := (sendLoop t s.room data s.sent).2.2 })

/-- `if (ssl == nullptr)`. -/
def nonNull {α : Type} (x : Proc Socket α) : Proc (Option Socket) α
  | none => (.error "SSL pointer is null", none)
  | some s => ((x s).1, some (x s).2)

/-- `ReadExact`.  The flag that it sets at the end of the stream is not looked at. -/
def readExact (len : Nat) : Proc Socket Bytes := recvExact socketTexts len

def readExactTls (len : Nat) : Proc (Option Socket) Bytes := nonNull (recvExact tlsTexts len)

def writeExact (data : Bytes) : Proc Socket Unit := sendExact socketTexts data

def writeExactTls (data : Bytes) : Proc (Option Socket) Unit := nonNull (sendExact tlsTexts data)

/-! ## 2. Frames -/

section Frames

variable {σ : Type}

def readPayload (readExact : Nat → Proc σ Bytes) (payloadLen : UInt32) : Proc σ Bytes :=
  if payloadLen > 0 then readExact payloadLen.toNat else pure []

/-- `ReadFrame`, on top of a `ReadExact`. -/
def readFrameWith (readExact : Nat → Proc σ Bytes) : Proc σ Frame := do
  let header ← readExact 8
  let type := loadU32 header
  let payloadLen := loadU32 (header.drop 4)
  Proc.require (¬ payloadLen > kMaxFramePayloadBytes) "frame payload too large"
  let payload ← readPayload readExact payloadLen
  pure ⟨type, payload⟩

/-- `WriteFrame`, on top of a `WriteExact`. -/
def writeFrameWith (writeExact : Bytes → Proc σ Unit) (type : UInt32) (payload : Bytes) :
    Proc σ Unit := do
  Proc.require (¬ payload.length > kMaxFramePayloadBytes.toNat) "frame payload too large"
  writeExact (storeU32 type ++ storeU32 (UInt32.ofNat payload.length))
  if payload ≠ [] then writeExact payload else pure ()

end Frames

def readFrame : Proc Socket Frame := readFrameWith readExact

def readFrameTls : Proc (Option Socket) Frame := readFrameWith readExactTls

def writeFrame (type : UInt32) (payload : Bytes) : Proc Socket Unit :=
  writeFrameWith writeExact type payload

def writeFrameTls (type : UInt32) (payload : Bytes) : Proc (Option Socket) Unit :=
  writeFrameWith writeExactTls type payload

/-- The arguments `fd` and `tls` of `HandleConnection`, and the members `fd_` and `tls_` of
`TcpServerApi`. -/
structure Endpoint where
  fd : Socket
  tls : Option Socket := none

namespace Endpoint

def setFd (fd : Socket) (e : Endpoint) : Endpoint := { e with fd := fd }

def setTls (tls : Option Socket) (e : Endpoint) : Endpoint := { e with tls := tls }

/-- `tls != nullptr ? ReadFrameTls(tls) : ReadFrame(fd)`. -/
def readFrame : Proc Endpoint Frame := fun e =>
  if e.tls.isSome then Proc.zoom tls setTls readFrameTls e
  else Proc.zoom fd setFd TcpWire.readFrame e

def writeFrame (type : UInt32) (payload : Bytes) : Proc Endpoint Unit := fun e =>
  if e.tls.isSome then Proc.zoom tls setTls (writeFrameTls type payload) e
  else Proc.zoom fd setFd (TcpWire.writeFrame type payload) e

/-- One frame after the other. -/
def writeFrames : List Frame → Proc Endpoint Unit
  | [] => pure ()
  | frame :: frames => do
    writeFrame frame.command frame.payload
    writeFrames frames

/-- The socket that is read from and written to. -/
def socket (e : Endpoint) : Socket := e.tls.getD e.fd

def texts (e : Endpoint) : Texts := if e.tls.isSome then tlsTexts else socketTexts

end Endpoint

/-! ## 3. What a loop reads -/

/-- The bytes that arrive before the peer closes its end or a call fails. -/
def arrived : List Arrival → Bytes
  | [] => []
  | .bytes chunk :: arrivals => chunk.1 ++ arrived arrivals
  | .interrupted :: arrivals => arrived arrivals
  | .failed _ :: _ => []

/-- The call that fails behind them. -/
def failure : List Arrival → Option String
  | [] => none
  | .bytes _ :: arrivals => failure arrivals
  | .interrupted :: arrivals => failure arrivals
  | .failed reason :: _ => some reason

/-- How a loop ends that has read `done` and finds nothing more. -/
def ended (t : Texts) (done : Bytes) : Option String → String
  | none => if done = [] then "eof" else t.midFrame
  | some reason => t.readFailed ++ reason

theorem recvLoop_ok (t : Texts) (arrivals : List Arrival) (want : Nat) (done : Bytes)
    (h : want ≤ (arrived arrivals).length) :
    ∃ rest, recvLoop t arrivals want done = (.ok (done ++ (arrived arrivals).take want), rest) ∧
      arrived rest = (arrived arrivals).drop want ∧ failure rest = failure arrivals := by
  fun_induction recvLoop t arrivals want done with
  | case1 arrivals done => exact ⟨arrivals, by rw [List.take_zero, List.append_nil], rfl, rfl⟩
  | case2 want done => exact absurd h (Nat.not_succ_le_zero _)
  | case3 chunk arrivals want done hlt =>
    refine ⟨_, Prod.ext (congrArg Except.ok ?_) rfl, ?_, rfl⟩
    · rw [arrived, List.take_append_of_le_length hlt.le]
    · rw [arrived.eq_2, arrived.eq_2, List.drop_append_of_le_length hlt.le]
  | case4 chunk arrivals want done hle ih =>
    rw [arrived, List.length_append] at h
    obtain ⟨rest, hrest, harrived, hfailure⟩ := ih (by omega)
    refine ⟨rest, ?_, ?_, hfailure⟩
    · rw [hrest, arrived, List.take_append, List.take_of_length_le (not_lt.mp hle),
        List.append_assoc]
    · rw [harrived, arrived, List.drop_append, List.drop_of_length_le (not_lt.mp hle),
        List.nil_append]
  | case5 arrivals want done ih => exact ih h
  | case6 reason arrivals want done => exact absurd h (Nat.not_succ_le_zero _)

theorem recvLoop_error (t : Texts) (arrivals : List Arrival) (want : Nat) (done : Bytes)
    (h : (arrived arrivals).length < want) :
    (recvLoop t arrivals want done).1 =
      .error (ended t (done ++ arrived arrivals) (failure arrivals)) := by
  fun_induction recvLoop t arrivals want done with
  | case1 arrivals done => exact absurd h (Nat.not_lt_zero _)
  | case2 want done => rw [arrived, List.append_nil]; rfl
  | case3 chunk arrivals want done hlt =>
    rw [arrived, List.length_append] at h
    omega
  | case4 chunk arrivals want done hle ih =>
    rw [arrived, List.length_append] at h
    rw [ih (by omega), arrived, List.append_assoc]
    rfl
  | case5 arrivals want done ih => exact ih h
  | case6 reason arrivals want done => rfl

/-- `ReadExact`, on the bytes. -/
def takeExact (t : Texts) (failure : Option String) (len : Nat) : Reader Bytes := fun input =>
  if input.length < len then (.error (ended t input failure), [])
  else (.ok (input.take len), input.drop len)

/-- What a socket still has to deliver. -/
structure Delivering (failed : Option String) (s : Socket) (input : Bytes) : Prop where
  arrived : arrived s.incoming = input
  failure : failure s.incoming = failed

theorem recvExact_refines (t : Texts) (failed : Option String) (len : Nat) :
    Refines (Delivering failed) (recvExact t len) (takeExact t failed len) := by
  rintro s _ ⟨rfl, rfl⟩
  rw [takeExact]
  split
  · rename_i hshort
    rw [recvExact, recvLoop_error t s.incoming len [] hshort]
    exact ⟨rfl, nofun⟩
  · rename_i henough
    obtain ⟨rest, hrest, harrived, hfailure⟩ :=
      recvLoop_ok t s.incoming len [] (not_lt.mp henough)
    rw [recvExact, hrest]
    exact ⟨rfl, fun _ _ => ⟨harrived, hfailure⟩⟩

theorem readFrameWith_refines {σ τ : Type} {R : σ → τ → Prop} {x : Nat → Proc σ Bytes}
    {y : Nat → Proc τ Bytes} (h : ∀ len, Refines R (x len) (y len)) :
    Refines R (readFrameWith x) (readFrameWith y) := by
  refine Refines.bind (h 8) fun header => ?_
  refine Refines.bind
    (Refines.require (¬ loadU32 (header.drop 4) > kMaxFramePayloadBytes) _) fun _ => ?_
  refine Refines.bind ?_ fun payload => Refines.pure _
  exact Refines.ite (h _) (Refines.pure [])

/-- `ReadFrame`, on the bytes. -/
def takeFrame (t : Texts) (failed : Option String) : Reader Frame :=
  readFrameWith (takeExact t failed)

/-- **What `ReadFrame` returns does not depend on how the bytes arrive.** -/
theorem recvFrame_refines (t : Texts) (failed : Option String) :
    Refines (Delivering failed) (readFrameWith (recvExact t)) (takeFrame t failed) :=
  readFrameWith_refines (recvExact_refines t failed)

/-- Nothing is read of an empty payload, with or without the check. -/
theorem readPayload_takeExact (t : Texts) (failed : Option String) :
    readPayload (takeExact t failed) = fun len => takeExact t failed len.toNat := by
  funext len
  rw [readPayload]
  split
  · rfl
  · rename_i hzero
    have hlen : len.toNat = 0 :=
      Nat.eq_zero_of_not_pos fun h => hzero (UInt32.lt_iff_toNat_lt.mpr h)
    rw [hlen]
    rfl

/-- As long as the peer closes, it is the reader of bytes that the server is modelled with. -/
theorem takeFrame_eq : takeFrame socketTexts none = PqChat.readFrame := by
  rw [takeFrame, readFrameWith, readPayload_takeExact]
  rfl

theorem readFrame_refines : Refines (Delivering none) readFrame PqChat.readFrame :=
  takeFrame_eq ▸ recvFrame_refines socketTexts none

/-! ## 4. What a frame looks like -/

/-- What `WriteFrame` sends. -/
def encoding (frame : Frame) : Bytes :=
  storeU32 frame.command ++ storeU32 (UInt32.ofNat frame.payload.length) ++ frame.payload

def Fits (frame : Frame) : Prop := frame.payload.length ≤ kMaxFramePayloadBytes.toNat

instance (frame : Frame) : Decidable (Fits frame) := inferInstanceAs (Decidable (_ ≤ _))

/-- The length that a header announces. -/
def announced (input : Bytes) : UInt32 := loadU32 (input.drop 4)

theorem Fits.toNat_length {frame : Frame} (h : Fits frame) :
    (UInt32.ofNat frame.payload.length).toNat = frame.payload.length :=
  UInt32.toNat_ofNat_of_lt' (lt_of_le_of_lt h kMaxFramePayloadBytes.toNat_lt)

theorem Fits.not_too_large {frame : Frame} (h : Fits frame) :
    ¬ UInt32.ofNat frame.payload.length > kMaxFramePayloadBytes := by
  rw [gt_iff_lt, UInt32.lt_iff_toNat_lt, h.toNat_length]
  exact not_lt.mpr h

theorem length_encoding (frame : Frame) :
    (encoding frame).length = 8 + frame.payload.length := by
  rw [encoding, List.length_append]
  rfl

/-- Eight bytes are a header. -/
theorem header_eq {input : Bytes} (h : 8 ≤ input.length) :
    input = storeU32 (loadU32 input) ++ storeU32 (announced input) ++ input.drop 8 := by
  match input with
  | a :: b :: c :: d :: e :: f :: g :: i :: rest =>
    change a :: b :: c :: d :: e :: f :: g :: i :: rest =
      be32 (ofBe32 a b c d) ++ be32 (ofBe32 e f g i) ++ rest
    rw [be32_ofBe32, be32_ofBe32]
    rfl

theorem takeExact_append {t : Texts} {failed : Option String} {b : Bytes} {len : Nat}
    (h : b.length = len) (rest : Bytes) : takeExact t failed len (b ++ rest) = (.ok b, rest) := by
  rw [takeExact, if_neg (by rw [List.length_append]; omega), List.take_left' h, List.drop_left' h]

theorem takeExact_short {t : Texts} {failed : Option String} {input : Bytes} {len : Nat}
    (h : input.length < len) :
    takeExact t failed len input = (.error (ended t input failed), []) := if_pos h

section TakeFrame

variable {t : Texts} {failed : Option String}

/-- Behind a header the payload is next. -/
theorem takeFrame_header (type len : UInt32) (rest : Bytes) :
    takeFrame t failed (storeU32 type ++ storeU32 len ++ rest) =
      (Proc.require (¬ len > kMaxFramePayloadBytes) "frame payload too large" >>= fun _ =>
        takeExact t failed len.toNat >>= fun payload => pure ⟨type, payload⟩ : Reader Frame)
        rest := by
  have hheader : (storeU32 type ++ storeU32 len).length = 8 := rfl
  have htype : loadU32 (storeU32 type ++ storeU32 len) = type := loadU32_storeU32 _ _
  have hlen : loadU32 ((storeU32 type ++ storeU32 len).drop 4) = len := loadU32_storeU32 _ []
  rw [takeFrame, readFrameWith, Proc.bind_ok (takeExact_append hheader rest), htype, hlen,
    readPayload_takeExact]

theorem takeFrame_encoding {frame : Frame} (h : Fits frame) (rest : Bytes) :
    takeFrame t failed (encoding frame ++ rest) = (.ok frame, rest) := by
  rw [encoding, List.append_assoc, takeFrame_header, Proc.require_pos h.not_too_large,
    Proc.pure_bind, h.toNat_length, Proc.bind_ok (takeExact_append rfl rest)]
  rfl

theorem takeFrame_short {input : Bytes} (h : input.length < 8) :
    (takeFrame t failed input).1 = .error (ended t input failed) := by
  rw [takeFrame, readFrameWith, Proc.bind_error (takeExact_short h)]

theorem takeFrame_too_large {input : Bytes} (hheader : 8 ≤ input.length)
    (h : announced input > kMaxFramePayloadBytes) :
    (takeFrame t failed input).1 = .error "frame payload too large" := by
  rw [header_eq hheader, takeFrame_header, Proc.require, if_neg (not_not_intro h)]
  rfl

theorem takeFrame_cut {input : Bytes} (hheader : 8 ≤ input.length)
    (hfits : ¬ announced input > kMaxFramePayloadBytes)
    (h : input.length < 8 + (announced input).toNat) :
    (takeFrame t failed input).1 = .error (ended t (input.drop 8) failed) := by
  have hshort : (input.drop 8).length < (announced input).toNat := by
    rw [List.length_drop]
    omega
  conv_lhs => rw [header_eq hheader]
  rw [takeFrame_header, Proc.require_pos hfits, Proc.pure_bind,
    Proc.bind_error (takeExact_short hshort)]

/-- Every other stream begins with a frame. -/
theorem exists_encoding {input : Bytes} (hheader : 8 ≤ input.length)
    (hfits : ¬ announced input > kMaxFramePayloadBytes)
    (h : 8 + (announced input).toNat ≤ input.length) :
    ∃ frame rest, Fits frame ∧ input = encoding frame ++ rest := by
  have hlen : ((input.drop 8).take (announced input).toNat).length =
      (announced input).toNat := by
    rw [List.length_take, List.length_drop]
    omega
  refine ⟨⟨loadU32 input, (input.drop 8).take (announced input).toNat⟩,
    (input.drop 8).drop (announced input).toNat, ?_, ?_⟩
  · rw [Fits, hlen]
    exact not_lt.mp fun h => hfits (UInt32.lt_iff_toNat_lt.mpr h)
  · rw [encoding, hlen, UInt32.ofNat_toNat, List.append_assoc, List.take_append_drop]
    exact header_eq hheader

end TakeFrame

/-! ## 5. Frame after frame -/

namespace Endpoint

/-- What arrives before the stream ends. -/
def input (e : Endpoint) : Bytes := arrived e.socket.incoming

/-- The stream ends because the peer closes it. -/
def Closes (e : Endpoint) : Prop := failure e.socket.incoming = none

/-- What is still to be delivered by the socket that is in use. -/
structure Awaits (t : Texts) (failed : Option String) (e : Endpoint) (input : Bytes) : Prop where
  texts : e.texts = t
  delivering : Delivering failed e.socket input

theorem awaits (e : Endpoint) : e.Awaits e.texts (failure e.socket.incoming) e.input :=
  ⟨rfl, rfl, rfl⟩

theorem nonNull_refines {α : Type} (x : Proc Socket α) :
    Refines (fun ssl s => ssl = some s) (nonNull x) x := by
  rintro _ s rfl
  exact ⟨rfl, fun _ _ => rfl⟩

/-- With a connection at hand, `ReadFrameTls` is `ReadFrame` with other texts. -/
theorem readFrameTls_refines :
    Refines (fun ssl s => ssl = some s) readFrameTls (readFrameWith (recvExact tlsTexts)) :=
  readFrameWith_refines fun len => nonNull_refines (recvExact tlsTexts len)

theorem readFrame_refines (t : Texts) (failed : Option String) :
    Refines (Awaits t failed) readFrame (takeFrame t failed) := by
  rintro ⟨fd, tls⟩ input ⟨rfl, hdelivering⟩
  cases tls with
  | none =>
    obtain ⟨hresult, hnext⟩ := recvFrame_refines socketTexts failed fd input hdelivering
    exact ⟨hresult, fun frame hframe => ⟨rfl, hnext frame hframe⟩⟩
  | some ssl =>
    obtain ⟨htls, hsome⟩ := readFrameTls_refines (some ssl) ssl rfl
    obtain ⟨hresult, hnext⟩ := recvFrame_refines tlsTexts failed ssl input hdelivering
    refine ⟨htls.trans hresult, fun frame hframe => ?_⟩
    have hssl : (readFrame ⟨fd, some ssl⟩).2.tls =
        some (readFrameWith (recvExact tlsTexts) ssl).2 := hsome frame hframe
    refine ⟨by rw [texts, hssl]; rfl, ?_⟩
    rw [socket, hssl]
    exact hnext frame (htls.symm.trans hframe)

/-- A frame that is read is the beginning of what was to be delivered. -/
theorem readFrame_ok {e e' : Endpoint} {frame : Frame} (h : readFrame e = (.ok frame, e')) :
    Fits frame ∧ e.input = encoding frame ++ e'.input ∧
      e'.Awaits e.texts (failure e.socket.incoming) e'.input := by
  obtain ⟨hresult, hnext⟩ := readFrame_refines _ _ e e.input e.awaits
  rw [h] at hresult hnext
  have hawaits := hnext frame rfl
  rcases Nat.lt_or_ge e.input.length 8 with hshort | hheader
  · rw [takeFrame_short hshort] at hresult
    cases hresult
  by_cases hlarge : announced e.input > kMaxFramePayloadBytes
  · rw [takeFrame_too_large hheader hlarge] at hresult
    cases hresult
  rcases Nat.lt_or_ge e.input.length (8 + (announced e.input).toNat) with hcut | hwhole
  · rw [takeFrame_cut hheader hlarge hcut] at hresult
    cases hresult
  obtain ⟨frame', rest, hfits, hinput⟩ := exists_encoding hheader hlarge hwhole
  rw [hinput, takeFrame_encoding hfits] at hresult hawaits
  obtain rfl := Except.ok.inj hresult
  have hrest : e'.input = rest := hawaits.delivering.arrived
  exact ⟨hfits, hrest ▸ hinput, hrest ▸ hawaits⟩

theorem readFrame_shorter {e e' : Endpoint} {frame : Frame}
    (h : readFrame e = (.ok frame, e')) : e'.input.length < e.input.length := by
  rw [(readFrame_ok h).2.1, List.length_append, length_encoding]
  omega

/-- `ReadFrame` until it fails: the frames, and the error. -/
def readFrames (e : Endpoint) : List Frame × String :=
  match _h : readFrame e with
  | (.ok frame, e') => (frame :: (readFrames e').1, (readFrames e').2)
  | (.error error, _) => ([], error)
termination_by e.input.length
decreasing_by all_goals exact readFrame_shorter ‹_›

theorem readFrames_ok {e e' : Endpoint} {frame : Frame} (h : readFrame e = (.ok frame, e')) :
    readFrames e = (frame :: (readFrames e').1, (readFrames e').2) := by
  rw [readFrames]
  split
  · rename_i h'
    obtain ⟨hframe, rfl⟩ := Prod.mk.inj (h.symm.trans h')
    obtain rfl := Except.ok.inj hframe
    rfl
  · rename_i h'
    cases h.symm.trans h'

theorem readFrames_error {e : Endpoint} {error : String} (h : (readFrame e).1 = .error error) :
    readFrames e = ([], error) := by
  rw [readFrames]
  split
  · rename_i h'
    rw [h'] at h
    cases h
  · rename_i h'
    rw [h'] at h
    exact congrArg _ (Except.error.inj h)

/-- The frames that a stream begins with are read. -/
theorem readFrames_encodings {t : Texts} {failed : Option String} {frames : List Frame}
    (hfits : ∀ frame ∈ frames, Fits frame) {rest : Bytes} {e : Endpoint}
    (h : e.Awaits t failed (frames.flatMap encoding ++ rest)) :
    ∃ e', e'.Awaits t failed rest ∧
      readFrames e = (frames ++ (readFrames e').1, (readFrames e').2) := by
  induction frames generalizing e with
  | nil => exact ⟨e, h, rfl⟩
  | cons frame frames ih =>
    obtain ⟨hframe, hframes⟩ := List.forall_mem_cons.mp hfits
    rw [List.flatMap_cons, List.append_assoc] at h
    obtain ⟨hresult, hnext⟩ := readFrame_refines t failed e _ h
    rw [takeFrame_encoding hframe] at hresult hnext
    obtain ⟨e', hawaits, hrest⟩ := ih hframes (hnext frame hresult)
    refine ⟨e', hawaits, ?_⟩
    rw [readFrames_ok (Prod.ext hresult rfl), hrest]
    rfl

/-- The loop of `HandleConnection`: the frames that it handles, and what it returns. -/
def handleConnection (e : Endpoint) : List Frame × Result Unit :=
  ((readFrames e).1,
    if (readFrames e).2 = "eof" then .ok () else .error (readFrames e).2)

end Endpoint

/-! ## 6. What a loop writes -/

/-- No call fails. -/
def Undisturbed (s : Socket) : Prop := ∀ reason, .failed reason ∉ s.room

theorem sendLoop_ok (t : Texts) (room : List Room) (data sent : Bytes)
    (h : ∀ reason, .failed reason ∉ room) :
    ∃ room', sendLoop t room data sent = (.ok (), room', sent ++ data) ∧
      ∀ reason, .failed reason ∉ room' := by
  fun_induction sendLoop t room data sent with
  | case1 room sent => exact ⟨room, by rw [List.append_nil], h⟩
  | case2 b data sent => exact ⟨[], rfl, h⟩
  | case3 more room b data sent ih =>
    obtain ⟨room', hroom', hfree⟩ := ih fun reason hmem => h reason (List.mem_cons_of_mem _ hmem)
    refine ⟨room', ?_, hfree⟩
    rw [hroom', List.append_assoc, List.cons_append, List.take_append_drop]
  | case4 room b data sent ih => exact ih fun reason hmem => h reason (List.mem_cons_of_mem _ hmem)
  | case5 reason room b data sent => exact absurd List.mem_cons_self (h reason)

theorem sendExact_ok (t : Texts) (data : Bytes) {s : Socket} (h : Undisturbed s) :
    ∃ s', sendExact t data s = (.ok (), s') ∧ s'.sent = s.sent ++ data ∧ Undisturbed s' := by
  obtain ⟨room', hroom', hfree⟩ := sendLoop_ok t s.room data s.sent h
  refine ⟨{ s with room := room', sent := s.sent ++ data }, ?_, rfl, hfree⟩
  rw [sendExact, hroom']

/-- The bytes of a frame are sent, whatever room there is for them. -/
theorem sendFrame_ok (t : Texts) {frame : Frame} (hfits : Fits frame) {s : Socket}
    (h : Undisturbed s) :
    ∃ s', writeFrameWith (sendExact t) frame.command frame.payload s = (.ok (), s') ∧
      s'.sent = s.sent ++ encoding frame ∧ Undisturbed s' := by
  obtain ⟨s₁, hheader, hsent₁, h₁⟩ := sendExact_ok t
    (storeU32 frame.command ++ storeU32 (UInt32.ofNat frame.payload.length)) h
  rw [writeFrameWith, Proc.require_pos (not_lt.mpr hfits), Proc.pure_bind, Proc.bind_ok hheader]
  split
  · obtain ⟨s₂, hpayload, hsent₂, h₂⟩ := sendExact_ok t frame.payload h₁
    exact ⟨s₂, hpayload, by rw [hsent₂, hsent₁, List.append_assoc, encoding], h₂⟩
  · rename_i hempty
    refine ⟨s₁, rfl, ?_, h₁⟩
    rw [hsent₁, encoding, not_not.mp hempty, List.append_nil]

namespace Endpoint

theorem writeFrameWith_refines {σ τ : Type} {R : σ → τ → Prop} {x : Bytes → Proc σ Unit}
    {y : Bytes → Proc τ Unit} (h : ∀ data, Refines R (x data) (y data)) (type : UInt32)
    (payload : Bytes) :
    Refines R (writeFrameWith x type payload) (writeFrameWith y type payload) := by
  refine Refines.bind (Refines.require (¬ payload.length > kMaxFramePayloadBytes.toNat) _)
    fun _ => ?_
  exact Refines.bind (h _) fun _ => Refines.ite (h payload) (Refines.pure ())

theorem writeFrameTls_refines (type : UInt32) (payload : Bytes) :
    Refines (fun ssl s => ssl = some s) (writeFrameTls type payload)
      (writeFrameWith (sendExact tlsTexts) type payload) :=
  writeFrameWith_refines (fun data => nonNull_refines (sendExact tlsTexts data)) type payload

theorem writeFrame_ok {frame : Frame} (hfits : Fits frame) {e : Endpoint}
    (h : Undisturbed e.socket) :
    ∃ e', writeFrame frame.command frame.payload e = (.ok (), e') ∧
      e'.socket.sent = e.socket.sent ++ encoding frame ∧ Undisturbed e'.socket := by
  obtain ⟨fd, tls⟩ := e
  cases tls with
  | none =>
    obtain ⟨s', hs', hsent, hroom⟩ := sendFrame_ok socketTexts hfits h
    replace hs' : TcpWire.writeFrame frame.command frame.payload fd = (.ok (), s') := hs'
    refine ⟨⟨s', none⟩, Prod.ext (congrArg Prod.fst hs' :) ?_, hsent, hroom⟩
    exact congrArg (fun r => (⟨Prod.snd r, none⟩ : Endpoint)) hs'
  | some ssl =>
    obtain ⟨s', hs', hsent, hroom⟩ := sendFrame_ok tlsTexts hfits h
    obtain ⟨hresult, hsome⟩ :=
      writeFrameTls_refines frame.command frame.payload (some ssl) ssl rfl
    replace hresult := hresult.trans (congrArg Prod.fst hs')
    have hssl := (hsome () hresult).trans (congrArg (fun r => some (Prod.snd r)) hs')
    refine ⟨⟨fd, some s'⟩, Prod.ext hresult ?_, hsent, hroom⟩
    exact congrArg (fun tls => (⟨fd, tls⟩ : Endpoint)) hssl

theorem writeFrames_ok {frames : List Frame} (hfits : ∀ frame ∈ frames, Fits frame)
    {e : Endpoint} (h : Undisturbed e.socket) :
    ∃ e', writeFrames frames e = (.ok (), e') ∧
      e'.socket.sent = e.socket.sent ++ frames.flatMap encoding := by
  induction frames generalizing e with
  | nil => exact ⟨e, rfl, (List.append_nil _).symm⟩
  | cons frame frames ih =>
    obtain ⟨hframe, hframes⟩ := List.forall_mem_cons.mp hfits
    obtain ⟨e₁, hwrite, hsent, h₁⟩ := writeFrame_ok hframe h
    obtain ⟨e', hrest, hsent'⟩ := ih hframes h₁
    refine ⟨e', ?_, ?_⟩
    · rw [writeFrames, Proc.bind_ok hwrite, hrest]
    · rw [hsent', hsent, List.flatMap_cons, List.append_assoc]

/-- **Frames that are written are read back**, and behind them is the end of the stream. -/
theorem framing_round_trip (frames : List Frame) (hfits : ∀ frame ∈ frames, Fits frame)
    (writer reader : Endpoint) (hroom : Undisturbed writer.socket)
    (hsent : (writeFrames frames writer).2.socket.sent = writer.socket.sent ++ reader.input)
    (hcloses : reader.Closes) :
    (writeFrames frames writer).1 = .ok () ∧ readFrames reader = (frames, "eof") := by
  obtain ⟨writer', hwrite, hsent'⟩ := writeFrames_ok hfits hroom
  rw [hwrite] at hsent ⊢
  refine ⟨rfl, ?_⟩
  have hinput : reader.input = frames.flatMap encoding ++ [] := by
    rw [List.append_nil]
    exact List.append_cancel_left (hsent.symm.trans hsent')
  obtain ⟨e', hend, hread⟩ := readFrames_encodings hfits (hinput ▸ reader.awaits)
  have heof : (readFrame e').1 = .error "eof" := by
    rw [(readFrame_refines _ _ e' [] hend).1, takeFrame_short (by decide), hcloses]
    rfl
  rw [hread, readFrames_error heof, List.append_nil]

/-- Two frames over TLS, sent in three pieces around an interrupted call. -/
def twoFrames : List Frame := [⟨TcpCommand.kDrainInbox, [7, 9]⟩, ⟨TcpCommand.kLogout, []⟩]

def twoFramesWriter : Endpoint :=
  ⟨{ incoming := [] }, some { incoming := [], room := [.bytes 4, .interrupted, .bytes 0] }⟩

/-- They arrive in two other pieces. -/
def twoFramesReader : Endpoint :=
  ⟨{ incoming := [] }, some { incoming :=
    [.bytes ⟨[0, 0, 0], List.cons_ne_nil _ _⟩, .interrupted,
      .bytes ⟨[4, 0, 0, 0, 2, 7, 9, 0, 0, 0, 8, 0, 0, 0, 0], List.cons_ne_nil _ _⟩] }⟩

theorem framing_round_trip_tls : readFrames twoFramesReader = (twoFrames, "eof") := by
  have hroom : Undisturbed twoFramesWriter.socket := by
    intro reason h
    rcases h with _ | ⟨_, _ | ⟨_, _ | ⟨_, h⟩⟩⟩
    cases h
  exact (framing_round_trip twoFrames (by decide) twoFramesWriter twoFramesReader hroom rfl rfl).2

end Endpoint

/-! ## 7. Where the end of the stream is reported -/

/-- The stream ends inside of its first frame. -/
def Cut (input : Bytes) : Prop :=
  input ≠ [] ∧ (input.length < 8 ∨ input.length < 8 + (announced input).toNat)

/-- Frames, and nothing behind them. -/
def Whole (input : Bytes) : Prop :=
  ∃ frames : List Frame, (∀ frame ∈ frames, Fits frame) ∧ input = frames.flatMap encoding

/-- A header that announces a payload, and nothing behind it. -/
structure BareHeader (input : Bytes) : Prop where
  length : input.length = 8
  announced : 0 < (announced input).toNat
  fits : ¬ TcpWire.announced input > kMaxFramePayloadBytes

/-- Behind the last frame there is a bare header. -/
def EndsBehindHeader (input : Bytes) : Prop :=
  ∃ (frames : List Frame) (header : Bytes), (∀ frame ∈ frames, Fits frame) ∧
    input = frames.flatMap encoding ++ header ∧ BareHeader header

/-- "eof" is the text of the end of the stream and of nothing else. -/
theorem ended_eq_eof_iff {e : Endpoint} {done : Bytes} {failed : Option String} :
    ended e.texts done failed = "eof" ↔ failed = none ∧ done = [] := by
  have htext : ∀ {text reason : String}, 3 < text.length → text ++ reason ≠ "eof" := by
    intro text reason hlen heof
    have hsum : text.length + reason.length = 3 := by
      rw [← String.length_append, heof]
      rfl
    omega
  cases failed with
  | some reason =>
    refine ⟨fun h => absurd h (htext ?_), nofun⟩
    rw [Endpoint.texts]
    split <;> decide
  | none =>
    rw [ended]
    split
    · rename_i hdone
      exact ⟨fun _ => ⟨rfl, hdone⟩, fun _ => rfl⟩
    · rename_i hdone
      refine ⟨fun h => absurd h ?_, fun h => absurd h.2 hdone⟩
      rw [Endpoint.texts]
      split <;> decide

namespace Endpoint

theorem readFrame_eof_iff (e : Endpoint) :
    (readFrame e).1 = .error "eof" ↔ e.Closes ∧ (e.input = [] ∨ BareHeader e.input) := by
  rw [(readFrame_refines _ _ e e.input e.awaits).1]
  rcases Nat.lt_or_ge e.input.length 8 with hshort | hheader
  · rw [takeFrame_short hshort]
    refine ⟨fun h => ?_, fun ⟨hcloses, hend⟩ => congrArg Except.error (ended_eq_eof_iff.mpr ?_)⟩
    · obtain ⟨hcloses, hempty⟩ := ended_eq_eof_iff.mp (Except.error.inj h)
      exact ⟨hcloses, Or.inl hempty⟩
    · exact ⟨hcloses, hend.resolve_right fun hbare => hshort.ne hbare.length⟩
  have hne : e.input ≠ [] := List.ne_nil_of_length_pos (by omega)
  by_cases hlarge : announced e.input > kMaxFramePayloadBytes
  · rw [takeFrame_too_large hheader hlarge]
    refine ⟨fun h => absurd (Except.error.inj h) (by decide), fun ⟨_, hend⟩ => ?_⟩
    exact absurd hlarge (hend.resolve_left hne).fits
  rcases Nat.lt_or_ge e.input.length (8 + (announced e.input).toNat) with hcut | hwhole
  · rw [takeFrame_cut hheader hlarge hcut]
    refine ⟨fun h => ?_, fun ⟨hcloses, hend⟩ => congrArg Except.error (ended_eq_eof_iff.mpr ?_)⟩
    · obtain ⟨hcloses, hempty⟩ := ended_eq_eof_iff.mp (Except.error.inj h)
      have hlen : e.input.length = 8 := le_antisymm (List.drop_eq_nil_iff.mp hempty) hheader
      exact ⟨hcloses, Or.inr ⟨hlen, by omega, hlarge⟩⟩
    · exact ⟨hcloses, List.drop_eq_nil_iff.mpr (hend.resolve_left hne).length.le⟩
  · obtain ⟨frame, rest, hfits, hinput⟩ := exists_encoding hheader hlarge hwhole
    have hok : (takeFrame e.texts (failure e.socket.incoming) e.input).1 = .ok frame := by
      rw [hinput, takeFrame_encoding hfits]
    rw [hok]
    refine ⟨nofun, fun ⟨_, hend⟩ => ?_⟩
    have hbare := hend.resolve_left hne
    have hlen := hbare.length
    have hpos := hbare.announced
    omega

theorem readFrame_of_cut {e : Endpoint} (h : Cut e.input) :
    ∃ error, (readFrame e).1 = .error error := by
  rcases hread : readFrame e with ⟨error | frame, e'⟩
  · exact ⟨error, rfl⟩
  · -- a frame that is read is not cut
    obtain ⟨hfits, hinput, -⟩ := readFrame_ok hread
    have hannounced : announced e.input = UInt32.ofNat frame.payload.length := by
      rw [hinput, encoding, List.append_assoc, List.append_assoc]
      exact loadU32_storeU32 _ _
    have hlen : e.input.length = 8 + frame.payload.length + e'.input.length := by
      rw [hinput, List.length_append, length_encoding]
    have hcut := h.2
    rw [hannounced, hfits.toNat_length] at hcut
    omega

/-- What a connection is told that ends with "eof". -/
theorem readFrames_eof {e : Endpoint} (h : (readFrames e).2 = "eof") :
    e.Closes ∧ ∃ rest, (∀ frame ∈ (readFrames e).1, Fits frame) ∧
      e.input = (readFrames e).1.flatMap encoding ++ rest ∧ (rest = [] ∨ BareHeader rest) := by
  fun_induction readFrames e with
  | case1 e frame e' hread ih =>
    obtain ⟨hfits, hinput, hawaits⟩ := readFrame_ok hread
    obtain ⟨hcloses, rest, hframes, hrest, hend⟩ := ih h
    refine ⟨hawaits.delivering.failure.symm.trans hcloses, rest,
      List.forall_mem_cons.mpr ⟨hfits, hframes⟩, ?_, hend⟩
    rw [hinput, hrest, List.flatMap_cons, List.append_assoc]
  | case2 e error e' hread =>
    replace h : error = "eof" := h
    subst h
    obtain ⟨hcloses, hend⟩ := (readFrame_eof_iff e).mp (congrArg Prod.fst hread)
    exact ⟨hcloses, e.input, nofun, rfl, hend⟩

theorem readFrames_of_end {e : Endpoint} (hcloses : e.Closes) {frames : List Frame} {rest : Bytes}
    (hfits : ∀ frame ∈ frames, Fits frame) (hinput : e.input = frames.flatMap encoding ++ rest)
    (hend : rest = [] ∨ BareHeader rest) : readFrames e = (frames, "eof") := by
  obtain ⟨e', hawaits, hread⟩ := readFrames_encodings hfits (hinput ▸ e.awaits)
  have hrest : e'.input = rest := hawaits.delivering.arrived
  have heof := (readFrame_eof_iff e').mpr
    ⟨hawaits.delivering.failure.trans hcloses, hrest.symm ▸ hend⟩
  rw [hread, readFrames_error heof, List.append_nil]

theorem handleConnection_ok_iff {e : Endpoint} :
    (handleConnection e).2 = .ok () ↔ (readFrames e).2 = "eof" := by
  unfold handleConnection
  dsimp only
  split
  · rename_i heof
    exact ⟨fun _ => heof, fun _ => rfl⟩
  · rename_i herror
    exact ⟨nofun, fun heof => absurd heof herror⟩

/-- The end of the stream is reported where the peer closes ahead of a frame, and a stream that
ends inside of a frame is reported as something else. -/
structure ReportsEnd (e : Endpoint) : Prop where
  eof : (readFrame e).1 = .error "eof" ↔ e.Closes ∧ e.input = []
  cut : Cut e.input → ∃ error, (readFrame e).1 = .error error ∧ error ≠ "eof"

/-- The connection ends normally where the peer closes it behind a whole frame. -/
def EndsNormally (e : Endpoint) : Prop :=
  (handleConnection e).2 = .ok () ↔ e.Closes ∧ Whole e.input

theorem reportsEnd_iff (e : Endpoint) : e.ReportsEnd ↔ ¬ (e.Closes ∧ BareHeader e.input) := by
  refine ⟨fun h ⟨hcloses, hbare⟩ => ?_, fun h => ⟨?_, fun hcut => ?_⟩⟩
  · have hempty := (h.eof.mp ((readFrame_eof_iff e).mpr ⟨hcloses, Or.inr hbare⟩)).2
    have hlen := hbare.length
    rw [hempty] at hlen
    cases hlen
  · rw [readFrame_eof_iff]
    exact ⟨fun ⟨hcloses, hend⟩ => ⟨hcloses, hend.resolve_right fun hbare => h ⟨hcloses, hbare⟩⟩,
      fun ⟨hcloses, hempty⟩ => ⟨hcloses, Or.inl hempty⟩⟩
  · obtain ⟨error, herror⟩ := readFrame_of_cut hcut
    refine ⟨error, herror, ?_⟩
    rintro rfl
    obtain ⟨hcloses, hend⟩ := (readFrame_eof_iff e).mp herror
    exact hend.elim hcut.1 fun hbare => h ⟨hcloses, hbare⟩

theorem endsNormally_iff (e : Endpoint) :
    e.EndsNormally ↔ ¬ (e.Closes ∧ EndsBehindHeader e.input) := by
  rw [EndsNormally, handleConnection_ok_iff]
  refine ⟨fun h ⟨hcloses, frames, header, hfits, hinput, hbare⟩ => ?_,
    fun h => ⟨fun heof => ?_, ?_⟩⟩
  · have hread := readFrames_of_end hcloses hfits hinput (Or.inr hbare)
    obtain ⟨-, frames', hfits', hinput'⟩ := h.mp (congrArg Prod.snd hread)
    have hread' := readFrames_of_end hcloses hfits' (hinput'.trans (List.append_nil _).symm)
      (Or.inl rfl)
    -- the header would be a part of the frames
    obtain rfl : frames = frames' := congrArg Prod.fst (hread.symm.trans hread')
    have hlen := congrArg List.length (hinput.symm.trans hinput')
    rw [List.length_append, hbare.length] at hlen
    omega
  · obtain ⟨hcloses, rest, hfits, hinput, hend⟩ := readFrames_eof heof
    rcases hend with rfl | hbare
    · exact ⟨hcloses, _, hfits, hinput.trans (List.append_nil _)⟩
    · exact absurd ⟨hcloses, _, rest, hfits, hinput, hbare⟩ h
  · rintro ⟨hcloses, frames, hfits, hinput⟩
    exact congrArg Prod.snd
      (readFrames_of_end hcloses hfits (hinput.trans (List.append_nil _).symm) (Or.inl rfl))

/-- **The end of a stream is reported at frame boundaries**, and behind a header whose payload is
missing altogether. -/
theorem eof_at_frame_boundaries (e : Endpoint) :
    (e.ReportsEnd ↔ ¬ (e.Closes ∧ BareHeader e.input)) ∧
    (e.EndsNormally ↔ ¬ (e.Closes ∧ EndsBehindHeader e.input)) :=
  ⟨reportsEnd_iff e, endsNormally_iff e⟩

/-- The header of a request of 40 bytes, and then the peer closes. -/
def headerOnly : Endpoint :=
  ⟨{ incoming := [.bytes ⟨[0, 0, 0, 4, 0, 0, 0, 40], List.cons_ne_nil _ _⟩] }, none⟩

theorem not_reportsEnd : ¬ headerOnly.ReportsEnd ∧ ¬ headerOnly.EndsNormally := by
  refine ⟨fun h => ?_, fun h => ?_⟩
  · have heof : (readFrame headerOnly).1 = .error "eof" := rfl
    exact absurd (h.eof.mp heof).2 (by decide)
  · refine (endsNormally_iff headerOnly).mp h ⟨rfl, [], headerOnly.input, nofun, rfl, ?_⟩
    exact ⟨by decide, by decide, by decide⟩

end Endpoint

end TcpWire

end PqChat
