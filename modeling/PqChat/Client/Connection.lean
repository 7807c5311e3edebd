/-
# What a client says on a connection

`TcpServerApi` keeps one connection at a time.  `Request` writes a frame to it and reads the next
one, and if either fails it gives the connection up.  So as long as a connection is kept, the bytes
that the client has sent on it are those of its requests, and the bytes it has read are those of as
many answers (`Talks`), whatever calls it has made.

A call of the server that succeeds ends with an exchange of its own: its request, and an answer from
which its result is made (`call_asked`).
-/
import PqChat.Client.TcpServerApi

namespace PqChat

open ByteString TcpServer TcpWire TextResult

namespace TcpServerApi

/-! ## 1. Sockets -/

/-- The socket that is written to and read from. -/
def onSocket (tlsEnabled : Bool) (e : Endpoint) : Option Socket :=
  if tlsEnabled then e.tls else some e.fd

theorem sendLoop_sent {t : Texts} {room room' : List Room} {data sent sent' : Bytes}
    (h : sendLoop t room data sent = (.ok (), room', sent')) : sent' = sent ++ data := by
  fun_induction sendLoop t room data sent with
  | case1 room sent =>
    obtain ⟨-, h⟩ := Prod.mk.inj h
    rw [List.append_nil, ← (Prod.mk.inj h).2]
  | case2 b data sent =>
    obtain ⟨-, h⟩ := Prod.mk.inj h
    exact (Prod.mk.inj h).2.symm
  | case3 more room b data sent ih =>
    rw [ih h, List.append_assoc]
    simp
  | case4 room b data sent ih => exact ih h
  | case5 reason room b data sent => cases h

theorem sendExact_sent {t : Texts} {data : Bytes} {k k' : Socket}
    (h : sendExact t data k = (.ok (), k')) :
    k'.sent = k.sent ++ data ∧ k'.incoming = k.incoming := by
  obtain ⟨hresult, rfl⟩ := Prod.mk.inj h
  exact ⟨sendLoop_sent (Prod.ext hresult rfl), rfl⟩

/-- What is written if `WriteFrame` succeeds. -/
theorem sendFrame_sent {t : Texts} {frame : Frame} {k k' : Socket}
    (h : writeFrameWith (sendExact t) frame.command frame.payload k = (.ok (), k')) :
    Fits frame ∧ k'.sent = k.sent ++ encoding frame ∧ k'.incoming = k.incoming := by
  obtain ⟨_, k₁, hrequire, h⟩ := Proc.bind_eq_ok_iff.mp h
  obtain ⟨hfits, rfl⟩ := Proc.require_eq_ok_iff.mp hrequire
  obtain ⟨_, k₂, hheader, h⟩ := Proc.bind_eq_ok_iff.mp h
  obtain ⟨hsent₂, hincoming₂⟩ := sendExact_sent hheader
  refine ⟨not_lt.mp hfits, ?_⟩
  split at h
  · obtain ⟨hsent, hincoming⟩ := sendExact_sent h
    rw [hsent, hsent₂, hincoming, hincoming₂, encoding, List.append_assoc]
    exact ⟨rfl, rfl⟩
  · rename_i hempty
    obtain ⟨-, rfl⟩ := Prod.mk.inj h
    rw [hsent₂, hincoming₂, encoding, not_not.mp hempty, List.append_nil]
    exact ⟨rfl, rfl⟩

theorem recvFrame_sent (t : Texts) (k : Socket) :
    (readFrameWith (recvExact t) k).2.sent = k.sent := by
  have hrecv : ∀ len, Proc.Preserves (fun k' : Socket => k'.sent = k.sent) (recvExact t len) :=
    fun _ _ h => h
  have hframe : Proc.Preserves (fun k' : Socket => k'.sent = k.sent)
      (readFrameWith (recvExact t)) :=
    .bind (hrecv 8) fun _ => .bind (.require _ _) fun _ =>
      .bind (.ite (hrecv _) (.pure _)) fun _ => .pure _
  exact hframe k rfl

/-- What is read if `ReadFrame` succeeds. -/
theorem recvFrame_read {t : Texts} {frame : Frame} {k k' : Socket}
    (ht : t = socketTexts ∨ t = tlsTexts)
    (h : readFrameWith (recvExact t) k = (.ok frame, k')) :
    Fits frame ∧ arrived k.incoming = encoding frame ++ arrived k'.incoming ∧
      k'.sent = k.sent := by
  have hsent : k'.sent = k.sent := by rw [← recvFrame_sent t k, h]
  rcases ht with rfl | rfl
  · have hread : Endpoint.readFrame ⟨k, none⟩ = (.ok frame, ⟨k', none⟩) := by
      show Proc.zoom Endpoint.fd Endpoint.setFd TcpWire.readFrame ⟨k, none⟩ = _
      rw [Proc.zoom]
      dsimp only
      rw [show TcpWire.readFrame k = _ from h]
      rfl
    obtain ⟨hfits, hinput, -⟩ := Endpoint.readFrame_ok hread
    exact ⟨hfits, hinput, hsent⟩
  · have hread : Endpoint.readFrame ⟨k, some k⟩ = (.ok frame, ⟨k, some k'⟩) := by
      have htls : readFrameTls (some k) = (.ok frame, some k') := by
        obtain ⟨hresult, hnext⟩ := Endpoint.readFrameTls_refines (some k) k rfl
        rw [h] at hresult hnext
        exact Prod.ext hresult (hnext frame hresult)
      show Proc.zoom Endpoint.tls Endpoint.setTls readFrameTls ⟨k, some k⟩ = _
      rw [Proc.zoom]
      dsimp only
      rw [htls]
      rfl
    obtain ⟨hfits, hinput, -⟩ := Endpoint.readFrame_ok hread
    exact ⟨hfits, hinput, hsent⟩

theorem writeFrame_socket {tlsEnabled : Bool} {frame : Frame} {e e' : Endpoint}
    (h : writeFrame tlsEnabled frame.command frame.payload e = (.ok (), e')) :
    ∃ k k', onSocket tlsEnabled e = some k ∧ onSocket tlsEnabled e' = some k' ∧ Fits frame ∧
      k'.sent = k.sent ++ encoding frame ∧ k'.incoming = k.incoming := by
  obtain ⟨fd, tls⟩ := e
  cases tlsEnabled with
  | false =>
    obtain ⟨hresult, rfl⟩ := Prod.mk.inj h
    exact ⟨fd, _, rfl, rfl, sendFrame_sent (Prod.ext hresult rfl)⟩
  | true =>
    obtain ⟨hresult, rfl⟩ := Prod.mk.inj h
    cases tls with
    | none =>
      -- the first call of `WriteExactTls` fails
      obtain ⟨_, ssl, hrequire, hwrite⟩ := Proc.bind_eq_ok_iff.mp (Prod.ext hresult rfl)
      obtain ⟨-, rfl⟩ := Proc.require_eq_ok_iff.mp hrequire
      obtain ⟨_, _, hheader, -⟩ := Proc.bind_eq_ok_iff.mp hwrite
      cases hheader
    | some k =>
      obtain ⟨hwrite, hnext⟩ :=
        Endpoint.writeFrameTls_refines frame.command frame.payload (some k) k rfl
      exact ⟨k, _, rfl, hnext () hresult, sendFrame_sent (Prod.ext (hwrite.symm.trans hresult) rfl)⟩

theorem readFrame_socket {tlsEnabled : Bool} {frame : Frame} {e e' : Endpoint} {k : Socket}
    (hk : onSocket tlsEnabled e = some k) (h : readFrame tlsEnabled e = (.ok frame, e')) :
    ∃ k', onSocket tlsEnabled e' = some k' ∧ Fits frame ∧
      arrived k.incoming = encoding frame ++ arrived k'.incoming ∧ k'.sent = k.sent := by
  obtain ⟨fd, tls⟩ := e
  cases tlsEnabled with
  | false =>
    obtain rfl := Option.some.inj hk
    obtain ⟨hresult, rfl⟩ := Prod.mk.inj h
    exact ⟨_, rfl, recvFrame_read (Or.inl rfl) (Prod.ext hresult rfl)⟩
  | true =>
    obtain rfl : tls = some k := hk
    obtain ⟨hresult, rfl⟩ := Prod.mk.inj h
    obtain ⟨hread, hnext⟩ := Endpoint.readFrameTls_refines (some k) k rfl
    exact ⟨_, hnext frame hresult,
      recvFrame_read (Or.inr rfl) (Prod.ext (hread.symm.trans hresult) rfl)⟩

/-! ## 2. A connection -/

/-- The frames that have been exchanged, oldest first, and nothing else. -/
structure Exchanged (k₀ k : Socket) (log : List (Frame × Frame)) : Prop where
  fits : ∀ x ∈ log, Fits x.1 ∧ Fits x.2
  sent : k.sent = k₀.sent ++ (log.map Prod.fst).flatMap encoding
  read : arrived k₀.incoming = (log.map Prod.snd).flatMap encoding ++ arrived k.incoming

/-- The frames that have been exchanged on the connection that is kept, from its first socket on. -/
structure Talks (api : TcpServerApi) (k₀ k : Socket) (log : List (Frame × Frame)) : Prop where
  opened : ∃ endpoint, api.attempts (api.attempted - 1) = .ok endpoint ∧
    onSocket api.tlsEnabled endpoint = some k₀
  current : onSocket api.tlsEnabled api.endpoint = some k
  exchanged : Exchanged k₀ k log

/-- On a connection that is kept, as many frames have been read as have been written. -/
def Regular (s : Hosted TcpServerApi) : Prop :=
  s.object.connected = true → onSocket s.object.tlsEnabled s.object.endpoint = none ∨
    ∃ k₀ k log, Talks s.object k₀ k log

/-- The last frames that have been exchanged are this request and its answer. -/
def Asked (request : Frame) (s : Hosted TcpServerApi) (r : CResult Bytes) : Prop :=
  ∃ k₀ k log answer, Talks s.object k₀ k (log ++ [(request, answer)]) ∧ r = resultOf answer

theorem Exchanged.snoc {k₀ k k' : Socket} {log : List (Frame × Frame)} {request answer : Frame}
    (h : Exchanged k₀ k log) (hrequest : Fits request) (hanswer : Fits answer)
    (hsent : k'.sent = k.sent ++ encoding request)
    (hread : arrived k.incoming = encoding answer ++ arrived k'.incoming) :
    Exchanged k₀ k' (log ++ [(request, answer)]) := by
  constructor
  · intro x hx
    rcases List.mem_append.mp hx with hx | hx
    · exact h.fits x hx
    · obtain rfl := List.mem_singleton.mp hx
      exact ⟨hrequest, hanswer⟩
  · simp [hsent, h.sent]
  · simp [h.read, hread]

/-- The members that a connection is made of. -/
structure SameConnection (api api' : TcpServerApi) : Prop where
  connected : api'.connected = api.connected
  tlsEnabled : api'.tlsEnabled = api.tlsEnabled
  endpoint : api'.endpoint = api.endpoint
  attempts : api'.attempts = api.attempts
  attempted : api'.attempted = api.attempted

theorem SameConnection.talks {api api' : TcpServerApi} (h : SameConnection api api')
    {k₀ k : Socket} {log : List (Frame × Frame)} (ht : Talks api k₀ k log) :
    Talks api' k₀ k log := by
  obtain ⟨hopened, hcurrent, hexchanged⟩ := ht
  constructor
  · rw [h.attempts, h.attempted, h.tlsEnabled]
    exact hopened
  · rw [h.tlsEnabled, h.endpoint]
    exact hcurrent
  · exact hexchanged

theorem SameConnection.regular {s s' : Hosted TcpServerApi}
    (h : SameConnection s.object s'.object) (hs : Regular s) : Regular s' := by
  intro hconnected
  rw [h.connected] at hconnected
  refine (hs hconnected).imp (fun hnone => ?_) fun htalks => ?_
  · rw [h.tlsEnabled, h.endpoint]
    exact hnone
  · obtain ⟨k₀, k, log, htalks⟩ := htalks
    exact ⟨k₀, k, log, h.talks htalks⟩

/-! ## 3. `Request` -/

theorem ensureConnected_cases {s : Hosted TcpServerApi} (hs : Regular s) :
    ∃ r s', ensureConnected s = (.ok r, s') ∧ Regular s' ∧
      (r.isOk → s'.object.connected = true) := by
  by_cases hconnected : s.object.connected = true
  · refine ⟨.ok (), s, ?_, hs, fun _ => hconnected⟩
    rw [ensureConnected, Proc.get_bind_apply, if_pos hconnected]
    rfl
  · rw [ensureConnected, Proc.get_bind_apply, if_neg hconnected]
    cases hattempt : s.object.attempts s.object.attempted with
    | error cause =>
      refine ⟨.err (text cause.text), _, rfl, fun h => absurd h hconnected, fun hok => ?_⟩
      exact absurd (eq_empty_of_text (isOk_err_iff.mp hok)) (text_ne_empty cause)
    | ok endpoint =>
      refine ⟨.ok (), _, rfl, fun _ => ?_, fun _ => rfl⟩
      cases hsocket : onSocket s.object.tlsEnabled endpoint with
      | none => exact Or.inl rfl
      | some k =>
        refine Or.inr ⟨k, k, [], ⟨endpoint, hattempt, hsocket⟩, hsocket, ?_, ?_, rfl⟩
        · exact fun _ h => absurd h List.not_mem_nil
        · exact (List.append_nil _).symm

/-- The state behind a call on the connection. -/
def Hosted.withEndpoint (s : Hosted TcpServerApi) (endpoint : Endpoint) : Hosted TcpServerApi :=
  { s with object := { s.object with endpoint } }

/-- A call on the connection is followed by what the program does if it fails, or if it succeeds. -/
theorem wp_onEndpoint {α β : Type} {x : Proc Endpoint α} (hx : Proc.Speaks x)
    {failed : CResult α → Api β} {done : CResult α → Api β}
    {Q : Except String β → Hosted TcpServerApi → Prop} {s : Hosted TcpServerApi}
    (hfailed : ∀ r endpoint, ¬ r.isOk = true →
      Proc.wp (failed r) Q (Hosted.withEndpoint s endpoint))
    (hdone : ∀ a endpoint, x s.object.endpoint = (.ok a, endpoint) →
      Proc.wp (done (.ok a)) Q (Hosted.withEndpoint s endpoint)) :
    Proc.wp (do
      let r ← onEndpoint x
      if ¬ r.isOk then failed r else done r) Q s := by
  have hrun : onEndpoint x s = (.ok (CResult.of (x s.object.endpoint).1),
    Hosted.withEndpoint s (x s.object.endpoint).2) := rfl
  refine Proc.wp_of_bind_ok hrun ?_
  rcases hresult : x s.object.endpoint with ⟨error | a, endpoint⟩
  · have hnot : ¬ (CResult.of (.error error) : CResult α).isOk = true := fun hok =>
      hx s.object.endpoint error (by rw [hresult]) (eq_empty_of_text (isOk_err_iff.mp hok))
    dsimp only
    rw [if_pos hnot]
    exact hfailed _ endpoint hnot
  · have hok : ¬ ¬ (CResult.of (.ok a) : CResult α).isOk = true := not_not_intro rfl
    dsimp only
    rw [if_neg hok]
    exact hdone a endpoint hresult

/-- A result that is a failure says nothing. -/
def Says (request : Frame) (r : Except String (CResult Bytes)) (s : Hosted TcpServerApi) : Prop :=
  Regular s ∧ ∀ a, r = .ok a → a.isOk → Asked request s a

theorem says_err {request : Frame} {s : Hosted TcpServerApi} {error : List UInt8}
    (hs : Regular s) (herror : ¬ error.isEmpty = true) : Says request (.ok (.err error)) s := by
  refine ⟨hs, fun a ha hok => ?_⟩
  obtain rfl := Except.ok.inj ha
  exact absurd hok herror

/-- The connection is given up. -/
theorem says_closed {request : Frame} {s : Hosted TcpServerApi} {error : List UInt8}
    (herror : ¬ error.isEmpty = true) :
    Proc.wp (do closeConnection; pure (.err error)) (Says request) s :=
  Proc.wp_of_bind_ok rfl (says_err (fun h => by cases h) herror)

/-- **What `Request` does to the connection.** -/
theorem request_spec (command : UInt32) (payload : Bytes) {s : Hosted TcpServerApi}
    (hs : Regular s) : Proc.wp (request command payload) (Says ⟨command, payload⟩) s := by
  obtain ⟨connected, s₁, hconnect, hs₁, hconnected⟩ := ensureConnected_cases hs
  refine Proc.wp_of_bind_ok hconnect ?_
  by_cases hok : connected.isOk = true
  · rw [checked_pos hok]
    refine Proc.wp_get_bind (wp_onEndpoint (speaks_writeFrame _ command payload)
      (fun r _ hr => says_closed hr) fun _ e₁ hwrite => ?_)
    refine wp_onEndpoint (speaks_readFrame _) (fun r _ hr => says_closed hr)
      fun answer e₂ hread => ?_
    have hwritten : ∀ frame : Frame, frame = ⟨command, payload⟩ →
        writeFrame s₁.object.tlsEnabled frame.command frame.payload s₁.object.endpoint =
          (.ok (), e₁) := by
      rintro frame rfl
      exact hwrite
    obtain ⟨k, k₁, hk, hk₁, hrequest, hsent, hincoming⟩ := writeFrame_socket (hwritten _ rfl)
    obtain ⟨k₂, hk₂, hanswer, harrived, hsent₂⟩ := readFrame_socket hk₁ hread
    -- the connection goes on with one exchange more
    rcases hs₁ (hconnected hok) with hnone | ⟨k₀, k', log, htalks⟩
    · rw [hk] at hnone
      cases hnone
    obtain rfl : k' = k := Option.some.inj (htalks.current.symm.trans hk)
    have hexchanged : Exchanged k₀ k₂ (log ++ [(⟨command, payload⟩, answer)]) := by
      refine htalks.exchanged.snoc hrequest hanswer ?_ ?_
      · rw [hsent₂, hsent]
      · rw [← hincoming, harrived]
    have htalks' : Talks { s₁.object with
        endpoint := e₂, exchanges := ⟨answer, resultOf answer⟩ :: s₁.object.exchanges } k₀ k₂
        (log ++ [(⟨command, payload⟩, answer)]) := ⟨htalks.opened, hk₂, hexchanged⟩
    refine ⟨fun _ => Or.inr ⟨k₀, k₂, _, htalks'⟩, fun a ha _ => ?_⟩
    exact ⟨k₀, k₂, log, answer, htalks', (Except.ok.inj ha).symm⟩
  · rw [checked_neg hok]
    exact says_err hs₁ hok

/-! ## 4. The calls -/

section Calls

variable {α β : Type}

theorem regular_request (command : UInt32) (payload : Bytes) :
    Proc.Preserves Regular (request command payload) := fun _ hs =>
  (request_spec command payload hs).1

theorem regular_checked {r : CResult α} {x : Api (CResult β)} (hx : Proc.Preserves Regular x) :
    Proc.Preserves Regular (checked r x) := .ite hx (.pure _)

/-- A result is checked, and its value is read. -/
theorem regular_value {r : CResult α} {g : α → Api (CResult β)}
    (hg : ∀ a, Proc.Preserves Regular (g a)) :
    Proc.Preserves Regular (checked r (r.get >>= g)) := regular_checked (keeps_get r hg)

theorem regular_modify {f : TcpServerApi → TcpServerApi} (hf : ∀ api, SameConnection api (f api)) :
    Proc.Preserves Regular (modify f) := fun s hs => (hf s.object).regular hs

theorem regular_requestAuthenticated (command : UInt32) (payload : Bytes) :
    Proc.Preserves Regular (requestAuthenticated command payload) :=
  .bind .get fun _ => regular_value fun _ => regular_request command _

theorem regular_registerTransportIdentity (req : RegisterRequest Bytes) :
    Proc.Preserves Regular (registerTransportIdentity req) :=
  regular_value fun _ => .bind (regular_request _ _) fun _ => regular_checked (.pure _)

theorem regular_beginTransportAuthentication (req : AuthBeginRequest Bytes) :
    Proc.Preserves Regular (beginTransportAuthentication req) :=
  regular_value fun _ => .bind (regular_request _ _) fun _ => regular_value fun _ => .pure _

theorem regular_finishTransportAuthentication (req : AuthFinishRequest Bytes) :
    Proc.Preserves Regular (finishTransportAuthentication req) :=
  regular_value fun _ => .bind (regular_request _ _) fun _ => regular_value fun _ => .pure _

theorem regular_revokeSessionToken (sessionToken : Bytes) :
    Proc.Preserves Regular (revokeSessionToken sessionToken) := by
  refine regular_value fun _ => .bind (regular_request _ _) fun _ => regular_checked ?_
  refine .bind (regular_modify fun api => ?_) fun _ =>
    .bind (fun _ _ h => by cases h) fun _ => .pure _
  split
  · exact ⟨rfl, rfl, rfl, rfl, rfl⟩
  · exact ⟨rfl, rfl, rfl, rfl, rfl⟩

theorem regular_hasSession : Proc.Preserves Regular hasSession := by
  refine .bind .get fun s => .ite (.pure _) (.bind ?_ fun _ => .pure _)
  exact fun _ h => h

theorem regular_authenticate (signFn : Bytes → CResult Bytes) :
    Proc.Preserves Regular (authenticate signFn) := by
  refine .bind .get fun s => .bind (fun _ h => h) fun nonce => regular_value fun clientNonce => ?_
  refine .bind (regular_beginTransportAuthentication _) fun _ => regular_value fun challenge => ?_
  refine regular_value fun signature => ?_
  refine .bind (regular_finishTransportAuthentication _) fun _ => regular_value fun session => ?_
  exact .bind (regular_modify fun api => ⟨rfl, rfl, rfl, rfl, rfl⟩) fun _ => .pure _

theorem regular_ensureAuthenticated : Proc.Preserves Regular ensureAuthenticated := by
  refine .bind .get fun s => ?_
  cases s.object.signFn with
  | none => exact .pure _
  | some signFn =>
    refine .bind regular_hasSession fun _ => .ite (.pure _) (regular_value fun _ => ?_)
    refine .bind (regular_registerTransportIdentity _) fun _ => ?_
    exact regular_checked (regular_authenticate signFn)

theorem regular_logoutCurrentSession : Proc.Preserves Regular logoutCurrentSession :=
  .bind regular_ensureAuthenticated fun _ =>
    regular_checked (.bind .get fun _ => regular_revokeSessionToken _)

/-- The calls on bundles and mailboxes: one request behind the authentication. -/
def call (command : UInt32) (payload : CResult Bytes) (finish : CResult Bytes → Api (CResult α)) :
    Api (CResult α) := do
  let auth ← ensureAuthenticated
  checked auth do
    checked payload do
      let response ← requestAuthenticated command (← payload.get)
      checked response (finish response)

theorem publishBundle_eq (bundle : PrekeyBundle Bytes) : publishBundle bundle =
    call TcpCommand.kPublishBundle (CResult.of (serializePrekeyBundle bundle))
      fun _ => pure (.ok ()) := rfl

/-- The answer holds the result. -/
def decode (deserialize : Bytes → Result α) (response : CResult Bytes) : Api (CResult α) := do
  pure (CResult.of (deserialize (← response.get)))

theorem acquireBundleForSession_eq (userId : Bytes) : acquireBundleForSession userId =
    call TcpCommand.kAcquireBundle (CResult.of (serializeString userId))
      (decode deserializePrekeyBundle) := rfl

theorem enqueueEnvelope_eq (userId : Bytes) (envelope : Envelope Bytes) :
    enqueueEnvelope userId envelope =
      call TcpCommand.kEnqueueEnvelope (CResult.of (serializeEnqueueRequest ⟨userId, envelope⟩))
        fun _ => pure (.ok ()) := rfl

theorem drainInbox_eq (userId : Bytes) (ackUpToInboxId : Option UInt64) :
    drainInbox userId ackUpToInboxId =
      call TcpCommand.kDrainInbox
        (CResult.of (serializeDrainInboxRequest ⟨userId, ackUpToInboxId⟩))
        (decode deserializeInboxEnvelopeVector) := rfl

theorem regular_call {command : UInt32} {payload : CResult Bytes}
    {finish : CResult Bytes → Api (CResult α)} (hfinish : ∀ r, Proc.Preserves Regular (finish r)) :
    Proc.Preserves Regular (call command payload finish) :=
  .bind regular_ensureAuthenticated fun _ => regular_checked (regular_value fun _ =>
    .bind (regular_requestAuthenticated _ _) fun _ => regular_checked (hfinish _))

theorem regular_decode (deserialize : Bytes → Result α) (response : CResult Bytes) :
    Proc.Preserves Regular (decode deserialize response) :=
  keeps_get response fun _ => .pure _

/-- **On a connection that is kept, every call leaves as many answers read as requests written.** -/
theorem regular_run (c : Call) : Proc.Preserves Regular c.run := by
  cases c with
  | registerTransportIdentity req =>
    exact .bind (regular_registerTransportIdentity req) fun _ => .pure _
  | beginTransportAuthentication req =>
    exact .bind (regular_beginTransportAuthentication req) fun _ => .pure _
  | finishTransportAuthentication req =>
    exact .bind (regular_finishTransportAuthentication req) fun _ => .pure _
  | authenticateSessionToken sessionToken => exact .bind (.pure _) fun _ => .pure _
  | revokeSessionToken sessionToken =>
    exact .bind (regular_revokeSessionToken sessionToken) fun _ => .pure _
  | logoutCurrentSession => exact .bind regular_logoutCurrentSession fun _ => .pure _
  | publishBundle bundle => exact .bind (regular_call fun _ => .pure _) fun _ => .pure _
  | acquireBundleForSession userId => exact .bind (regular_call (regular_decode _)) fun _ => .pure _
  | enqueueEnvelope userId envelope => exact .bind (regular_call fun _ => .pure _) fun _ => .pure _
  | drainInbox userId ack => exact .bind (regular_call (regular_decode _)) fun _ => .pure _

theorem checked_ok {r : CResult α} {x : Api (CResult β)} {s s' : Hosted TcpServerApi}
    {b : CResult β}
    (h : checked r x s = (.ok b, s')) (hb : b.isOk) : r.isOk ∧ x s = (.ok b, s') := by
  by_cases hr : r.isOk = true
  · rw [checked_pos hr] at h
    exact ⟨hr, h⟩
  · rw [checked_neg hr] at h
    obtain ⟨h, -⟩ := Prod.mk.inj h
    obtain rfl := Except.ok.inj h
    exact absurd hb hr

theorem get_ok {r : CResult α} {s s' : Hosted TcpServerApi} {a : α}
    (h : (r.get : Api α) s = (.ok a, s')) : r.value = some a ∧ s' = s := by
  obtain ⟨value, error⟩ := r
  cases value with
  | none => cases h
  | some a' =>
    obtain ⟨hvalue, hstate⟩ := Prod.mk.inj h
    exact ⟨congrArg some (Except.ok.inj hvalue), hstate.symm⟩

/-- A value is that of a result. -/
theorem of_value {r : Result α} {a : α} (h : (CResult.of r).value = some a) : r = .ok a := by
  cases r with
  | error e => cases h
  | ok b => exact congrArg Except.ok (Option.some.inj h)

/-- **A call that succeeds has asked the server**, and its result is made from the answer. -/
theorem call_asked {command : UInt32} {payload : Result Bytes}
    {finish : CResult Bytes → Api (CResult α)} {s s' : Hosted TcpServerApi} {r : CResult α}
    (hs : Regular s) (h : call command (CResult.of payload) finish s = (.ok r, s'))
    (hr : r.isOk) :
    ∃ bytes token encoded response s₁, payload = .ok bytes ∧
      serializeAuthenticatedPayload ⟨token, bytes⟩ = .ok encoded ∧
      Asked ⟨command, encoded⟩ s₁ response ∧ response.isOk ∧ finish response s₁ = (.ok r, s') := by
  obtain ⟨auth, s₁, hauth, h⟩ := Proc.bind_eq_ok_iff.mp h
  have hs₁ : Regular s₁ := by
    have hkeeps := regular_ensureAuthenticated s hs
    rwa [hauth] at hkeeps
  obtain ⟨-, h⟩ := checked_ok h hr
  obtain ⟨hpayload, h⟩ := checked_ok h hr
  obtain ⟨bytes, s₂, hget, h⟩ := Proc.bind_eq_ok_iff.mp h
  obtain ⟨hbytes, hs₂⟩ := get_ok hget
  rw [hs₂] at h
  obtain ⟨response, s₃, hresponse, h⟩ := Proc.bind_eq_ok_iff.mp h
  obtain ⟨hok, h⟩ := checked_ok h hr
  -- the request carries the token
  rw [requestAuthenticated, Proc.get_bind_apply] at hresponse
  obtain ⟨-, hresponse⟩ := checked_ok hresponse hok
  obtain ⟨encoded, s₄, hget', hresponse⟩ := Proc.bind_eq_ok_iff.mp hresponse
  obtain ⟨hencoded, hs₄⟩ := get_ok hget'
  rw [hs₄] at hresponse
  have hspec := request_spec command encoded hs₁
  rw [Proc.wp, hresponse] at hspec
  exact ⟨bytes, _, encoded, response, s₃, of_value hbytes, of_value hencoded,
    hspec.2 response rfl hok, hok, h⟩

end Calls

end TcpServerApi

end PqChat
