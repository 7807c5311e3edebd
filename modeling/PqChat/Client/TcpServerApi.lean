/-
# The server as a client sees it

`tcp_server_api.cpp`.  A call is one exchange of frames, behind the exchanges that authenticate
the connection.  `Request` hands an answer with the status `kOk` on as its payload and any other
answer as an error, whose text the SERVER has chosen; and a `Result` counts as a failure if its
text is not empty.

So a refusal with an empty text (`mute`) counts as a success.  Calls that return nothing then
report success; calls that return something read a value that is not there.  Every other refusal
is reported as a failure, by `Request` and by every call that makes it (`refusals_fail`).

Results are modelled as they are laid out (`TextResult`), and reading a value that is not there is
an error of `Proc`.  The texts are C strings: any bytes.
-/
import PqChat.Lib.TextResult
import PqChat.Server.TcpWire
import PqChat.Wire.RoundTrip

namespace PqChat

open ByteString TcpServer TcpWire TextResult

/-! ## 1. The object -/

/-- `Result` of `util/result.h`. -/
abbrev CResult (α : Type) := TextResult UInt8 α

/-- A result of code that is modelled by its value or error. -/
def CResult.of {α : Type} (r : Result α) : CResult α := TextResult.ofExcept text r

/-- Where `EnsureConnected` may end. -/
inductive ConnectStage
  | getaddrinfo
  | connect
  | sslCtxNew
  | tlsMinVersion
  | defaultCaPaths
  | caFile
  | clientCertificate
  | clientKey
  | keyMismatch
  | sslNew
  | verifyIp
  | sniHostname
  | verifyHostname
  | handshake
  | noCertificate
  | fingerprint
  | fingerprintSize
  | invalidPin
  | pinMismatch
  deriving DecidableEq, Repr

/-- The text of a stage; some are followed by what the library says. -/
def ConnectStage.text : ConnectStage → String
  | getaddrinfo => "getaddrinfo failed: "
  | connect => "connect failed: "
  | sslCtxNew => "SSL_CTX_new failed: "
  | tlsMinVersion => "failed to set TLS min version: "
  | defaultCaPaths => "failed to load default CA paths: "
  | caFile => "failed to load CA file: "
  | clientCertificate => "failed to load TLS client certificate: "
  | clientKey => "failed to load TLS client key: "
  | keyMismatch => "TLS client key does not match certificate"
  | sslNew => "SSL_new failed: "
  | verifyIp => "failed to set TLS verify IP"
  | sniHostname => "failed to set TLS SNI hostname"
  | verifyHostname => "failed to set TLS verify hostname"
  | handshake => "TLS handshake failed: "
  | noCertificate => "server did not present a certificate"
  | fingerprint => "failed computing server cert fingerprint"
  | fingerprintSize => "unexpected certificate fingerprint size"
  | invalidPin => "invalid configured TLS pin: "
  | pinMismatch => "server certificate pin mismatch"

/-- An attempt to connect has failed. -/
structure ConnectFailure where
  stage : ConnectStage
  reason : String

def ConnectFailure.text (cause : ConnectFailure) : String := cause.stage.text ++ cause.reason

/-- An answer of the server, and what `Request` has made of it. -/
structure Exchange where
  answer : Frame
  result : CResult Bytes
  deriving DecidableEq, Repr

/-- A refusal. -/
def Exchange.Refused (e : Exchange) : Prop := e.answer.command ≠ TcpStatus.kOk

instance : DecidablePred Exchange.Refused := fun _ => inferInstanceAs (Decidable (_ ≠ _))

/-- A refusal whose text is empty: the payload is a string of no bytes. -/
def Exchange.Mute (e : Exchange) : Prop := e.Refused ∧ e.answer.payload = [0, 0, 0, 0]

/-- `TcpServerApi`.  `fd_` is valid when `connected`; `attempts` is what the next attempts to
connect come to.  `exchanges` is not in the source: what has been answered, newest first. -/
structure TcpServerApi where
  userId : Bytes
  transportAuthPublicKey : Bytes
  signFn : Option (Bytes → CResult Bytes)
  registrationToken : Bytes
  tlsEnabled : Bool
  connected : Bool
  endpoint : Endpoint
  sessionToken : Bytes
  sessionExpiresAtUnix : UInt64
  attempts : Nat → Except ConnectFailure Endpoint
  attempted : Nat
  exchanges : List Exchange

namespace TcpServerApi

/-- A computation of the object on its host. -/
abbrev Api (α : Type) := Proc (Hosted TcpServerApi) α

def modify (f : TcpServerApi → TcpServerApi) : Api Unit := Hosted.on (Proc.modify f)

/-- `CloseConnection`. -/
def closeConnection : Api Unit := modify fun api => { api with connected := false }

/-- `EnsureConnected`. -/
def ensureConnected : Api (CResult Unit) := do
  let s ← Proc.get
  if s.object.connected then pure (.ok ())
  else do
    modify fun api => { api with attempted := api.attempted + 1 }
    match s.object.attempts s.object.attempted with
    | .error cause => pure (.err (text cause.text))
    | .ok endpoint => do
      modify fun api => { api with connected := true, endpoint }
      pure (.ok ())

/-- `tls_config_.enabled ? WriteFrameTls(…) : WriteFrame(…)`. -/
def writeFrame (tlsEnabled : Bool) (type : UInt32) (payload : Bytes) : Proc Endpoint Unit :=
  if tlsEnabled then Proc.zoom Endpoint.tls Endpoint.setTls (writeFrameTls type payload)
  else Proc.zoom Endpoint.fd Endpoint.setFd (TcpWire.writeFrame type payload)

def readFrame (tlsEnabled : Bool) : Proc Endpoint Frame :=
  if tlsEnabled then Proc.zoom Endpoint.tls Endpoint.setTls readFrameTls
  else Proc.zoom Endpoint.fd Endpoint.setFd TcpWire.readFrame

/-- A call on the connection, with its result as an object. -/
def onEndpoint {α : Type} (x : Proc Endpoint α) : Api (CResult α) := do
  let r ← Hosted.on (Proc.zoom TcpServerApi.endpoint (fun endpoint api => { api with endpoint })
    (Proc.attempt x))
  pure (CResult.of r)

/-- What `Request` makes of an answer. -/
def resultOf (answer : Frame) : CResult Bytes :=
  if answer.command = TcpStatus.kOk then .ok answer.payload
  else match deserializeString answer.payload with
    | .error _ => .err (text "server returned error")
    | .ok errorMessage => .err errorMessage

/-- `Request`. -/
def request (command : UInt32) (payload : Bytes) : Api (CResult Bytes) := do
  let connected ← ensureConnected
  checked connected do
    let s ← Proc.get
    let write ← onEndpoint (writeFrame s.object.tlsEnabled command payload)
    if ¬ write.isOk then do
      closeConnection
      pure (.err write.error)
    else do
      let response ← onEndpoint (readFrame s.object.tlsEnabled)
      if ¬ response.isOk then do
        closeConnection
        pure (.err response.error)
      else do
        let answer ← response.get
        modify fun api => { api with exchanges := ⟨answer, resultOf answer⟩ :: api.exchanges }
        pure (resultOf answer)

/-- `RequestAuthenticated`. -/
def requestAuthenticated (command : UInt32) (payload : Bytes) : Api (CResult Bytes) := do
  let s ← Proc.get
  let encoded := CResult.of (serializeAuthenticatedPayload ⟨s.object.sessionToken, payload⟩)
  checked encoded do
    request command (← encoded.get)

/-! ## 2. The calls -/

/-- `RegisterTransportIdentity`. -/
def registerTransportIdentity (req : RegisterRequest Bytes) : Api (CResult Unit) := do
  let payload := CResult.of (serializeRegisterRequest req)
  checked payload do
    let response ← request TcpCommand.kRegisterTransportIdentity (← payload.get)
    checked response (pure (.ok ()))

/-- `BeginTransportAuthentication`. -/
def beginTransportAuthentication (req : AuthBeginRequest Bytes) :
    Api (CResult (AuthBeginResponse Bytes)) := do
  let payload := CResult.of (serializeAuthBeginRequest req)
  checked payload do
    let response ← request TcpCommand.kAuthBegin (← payload.get)
    checked response do
      pure (CResult.of (deserializeAuthBeginResponse (← response.get)))

/-- `FinishTransportAuthentication`. -/
def finishTransportAuthentication (req : AuthFinishRequest Bytes) :
    Api (CResult (AuthFinishResponse Bytes)) := do
  let payload := CResult.of (serializeAuthFinishRequest req)
  checked payload do
    let response ← request TcpCommand.kAuthFinish (← payload.get)
    checked response do
      pure (CResult.of (deserializeAuthFinishResponse (← response.get)))

/-- `AuthenticateSessionToken`. -/
def authenticateSessionToken (_sessionToken : Bytes) : Api (CResult Bytes) :=
  pure (.err (text "not supported on client adapter"))

/-- `RevokeSessionToken`. -/
def revokeSessionToken (sessionToken : Bytes) : Api (CResult Unit) := do
  let encoded := CResult.of (serializeAuthenticatedPayload ⟨sessionToken, []⟩)
  checked encoded do
    let response ← request TcpCommand.kLogout (← encoded.get)
    checked response do
      modify fun api =>
        if api.sessionToken = sessionToken then
          { api with sessionToken := [], sessionExpiresAtUnix := 0 }
        else api
      closeConnection
      pure (.ok ())

/-- The session token is there and does not expire within five seconds. -/
def hasSession : Api Bool := do
  let s ← Proc.get
  if s.object.sessionToken = [] then pure false
  else do
    let now ← nowUnix
    pure (decide (now + 5 < s.object.sessionExpiresAtUnix))

/-- The part of `EnsureAuthenticated` behind the registration. -/
def authenticate (signFn : Bytes → CResult Bytes) : Api (CResult Unit) := do
  let s ← Proc.get
  let clientNonce := CResult.of (match (← randomBytes 32) with
    | some nonce => .ok nonce
    | none => .error "RAND_bytes failed")
  checked clientNonce do
    let clientNonce ← clientNonce.get
    let beginResponse ← beginTransportAuthentication ⟨s.object.userId, clientNonce⟩
    checked beginResponse do
      let challenge ← beginResponse.get
      let signature := signFn (buildTransportAuthSignInput s.object.userId clientNonce
        challenge.serverNonce challenge.challengeId challenge.expiresAtUnix)
      checked signature do
        let finishResponse ← finishTransportAuthentication
          { userId := s.object.userId, challengeId := challenge.challengeId, clientNonce
            serverNonce := challenge.serverNonce, expiresAtUnix := challenge.expiresAtUnix
            signatureMldsa65 := ← signature.get }
        checked finishResponse do
          let session ← finishResponse.get
          modify fun api => { api with
            sessionToken := session.sessionToken
            sessionExpiresAtUnix := session.expiresAtUnix }
          pure (.ok ())

/-- `EnsureAuthenticated`. -/
def ensureAuthenticated : Api (CResult Unit) := do
  let s ← Proc.get
  match s.object.signFn with
  | none => pure (.err (text "transport auth signer is not configured"))
  | some signFn => do
    if ← hasSession then pure (.ok ())
    else do
      let registerSignature := signFn (buildTransportRegisterSignInput s.object.userId
        s.object.transportAuthPublicKey)
      checked registerSignature do
        let registerStatus ← registerTransportIdentity
          { userId := s.object.userId
            transportAuthPublicKey := s.object.transportAuthPublicKey
            registrationToken := s.object.registrationToken
            proofSignatureMldsa65 := ← registerSignature.get
            rotationSignatureMldsa65 := none }
        checked registerStatus (authenticate signFn)

/-- `LogoutCurrentSession`. -/
def logoutCurrentSession : Api (CResult Unit) := do
  let auth ← ensureAuthenticated
  checked auth do
    let s ← Proc.get
    revokeSessionToken s.object.sessionToken

/-- `PublishBundle`. -/
def publishBundle (bundle : PrekeyBundle Bytes) : Api (CResult Unit) := do
  let auth ← ensureAuthenticated
  checked auth do
    let payload := CResult.of (serializePrekeyBundle bundle)
    checked payload do
      let response ← requestAuthenticated TcpCommand.kPublishBundle (← payload.get)
      checked response (pure (.ok ()))

/-- `AcquireBundleForSession`. -/
def acquireBundleForSession (userId : Bytes) : Api (CResult (PrekeyBundle Bytes)) := do
  let auth ← ensureAuthenticated
  checked auth do
    let payload := CResult.of (serializeString userId)
    checked payload do
      let response ← requestAuthenticated TcpCommand.kAcquireBundle (← payload.get)
      checked response do
        pure (CResult.of (deserializePrekeyBundle (← response.get)))

/-- `EnqueueEnvelope`. -/
def enqueueEnvelope (userId : Bytes) (envelope : Envelope Bytes) : Api (CResult Unit) := do
  let auth ← ensureAuthenticated
  checked auth do
    let payload := CResult.of (serializeEnqueueRequest ⟨userId, envelope⟩)
    checked payload do
      let response ← requestAuthenticated TcpCommand.kEnqueueEnvelope (← payload.get)
      checked response (pure (.ok ()))

/-- `DrainInbox`. -/
def drainInbox (userId : Bytes) (ackUpToInboxId : Option UInt64) :
    Api (CResult (List (InboxEnvelope Bytes))) := do
  let auth ← ensureAuthenticated
  checked auth do
    let payload := CResult.of (serializeDrainInboxRequest ⟨userId, ackUpToInboxId⟩)
    checked payload do
      let response ← requestAuthenticated TcpCommand.kDrainInbox (← payload.get)
      checked response do
        pure (CResult.of (deserializeInboxEnvelopeVector (← response.get)))

/-- A call of the client. -/
inductive Call
  | registerTransportIdentity (request : RegisterRequest Bytes)
  | beginTransportAuthentication (request : AuthBeginRequest Bytes)
  | finishTransportAuthentication (request : AuthFinishRequest Bytes)
  | authenticateSessionToken (sessionToken : Bytes)
  | revokeSessionToken (sessionToken : Bytes)
  | logoutCurrentSession
  | publishBundle (bundle : PrekeyBundle Bytes)
  | acquireBundleForSession (userId : Bytes)
  | enqueueEnvelope (userId : Bytes) (envelope : Envelope Bytes)
  | drainInbox (userId : Bytes) (ackUpToInboxId : Option UInt64)

/-- The call, and whether its result counts as a success. -/
def Call.run : Call → Api Bool
  | .registerTransportIdentity request => do
    return (← TcpServerApi.registerTransportIdentity request).isOk
  | .beginTransportAuthentication request => do
    return (← TcpServerApi.beginTransportAuthentication request).isOk
  | .finishTransportAuthentication request => do
    return (← TcpServerApi.finishTransportAuthentication request).isOk
  | .authenticateSessionToken sessionToken => do
    return (← TcpServerApi.authenticateSessionToken sessionToken).isOk
  | .revokeSessionToken sessionToken => do
    return (← TcpServerApi.revokeSessionToken sessionToken).isOk
  | .logoutCurrentSession => do
    return (← TcpServerApi.logoutCurrentSession).isOk
  | .publishBundle bundle => do
    return (← TcpServerApi.publishBundle bundle).isOk
  | .acquireBundleForSession userId => do
    return (← TcpServerApi.acquireBundleForSession userId).isOk
  | .enqueueEnvelope userId envelope => do
    return (← TcpServerApi.enqueueEnvelope userId envelope).isOk
  | .drainInbox userId ackUpToInboxId => do
    return (← TcpServerApi.drainInbox userId ackUpToInboxId).isOk

/-! ## 3. Texts -/

theorem eq_empty_of_text {e : String} (h : (text e : Bytes) = []) : e = "" := by
  change e.toList.map _ = [] at h
  exact String.toList_eq_nil_iff.mp (List.map_eq_nil_iff.mp h)

theorem proper_of {α : Type} {r : Result α} (h : ∀ e, r = .error e → e ≠ "") :
    (CResult.of r).Proper := proper_ofExcept (fun _ => eq_empty_of_text) h

theorem proper_text {α : Type} {e : String} (h : e ≠ "") : (.err (text e) : CResult α).Proper :=
  proper_err fun he => h (eq_empty_of_text he)

theorem text_ne_empty (cause : ConnectFailure) : cause.text ≠ "" := by
  refine fun h => absurd (String.append_eq_empty_iff.mp h).1 ?_
  cases cause.stage <;> decide

/-- The texts of a kind of socket are not empty. -/
structure Named (t : Texts) : Prop where
  midFrame : t.midFrame ≠ ""
  readFailed : t.readFailed ≠ ""
  writeFailed : t.writeFailed ≠ ""

theorem named_socket : Named socketTexts := ⟨by decide, by decide, by decide⟩

theorem named_tls : Named tlsTexts := ⟨by decide, by decide, by decide⟩

theorem Named.speaks_recv {t : Texts} (h : Named t) (len : Nat) :
    Proc.Speaks (recvExact t len) := by
  intro s e he
  replace he : (recvLoop t s.incoming len []).1 = .error e := he
  rcases Nat.lt_or_ge (arrived s.incoming).length len with hshort | henough
  · rw [recvLoop_error t s.incoming len [] hshort] at he
    obtain rfl := Except.error.inj he
    cases failure s.incoming with
    | none =>
      rw [ended]
      split
      · decide
      · exact h.midFrame
    | some reason => exact fun hempty => h.readFailed (String.append_eq_empty_iff.mp hempty).1
  · obtain ⟨rest, hrest, -⟩ := recvLoop_ok t s.incoming len [] henough
    rw [hrest] at he
    cases he

theorem Named.speaks_sendLoop {t : Texts} (h : Named t) (room : List Room) (data sent : Bytes)
    {e : String} (he : (sendLoop t room data sent).1 = .error e) : e ≠ "" := by
  fun_induction sendLoop t room data sent with
  | case1 room sent => cases he
  | case2 b data sent => cases he
  | case3 more room b data sent ih => exact ih he
  | case4 room b data sent ih => exact ih he
  | case5 reason room b data sent =>
    obtain rfl := Except.error.inj he
    exact fun hempty => h.writeFailed (String.append_eq_empty_iff.mp hempty).1

theorem Named.speaks_send {t : Texts} (h : Named t) (data : Bytes) :
    Proc.Speaks (sendExact t data) := fun s _ he => h.speaks_sendLoop s.room data s.sent he

theorem speaks_nonNull {α : Type} {x : Proc Socket α} (h : Proc.Speaks x) :
    Proc.Speaks (nonNull x) := by
  intro ssl e he
  cases ssl with
  | none =>
    obtain rfl := Except.error.inj he
    decide
  | some s => exact h s e he

theorem speaks_readFrameWith {σ : Type} {readExact : Nat → Proc σ Bytes}
    (h : ∀ len, Proc.Speaks (readExact len)) : Proc.Speaks (readFrameWith readExact) :=
  .bind (h 8) fun _ => .bind (.require _ (by decide)) fun _ =>
    .bind (.ite (h _) (.pure [])) fun _ => .pure _

theorem speaks_writeFrameWith {σ : Type} {writeExact : Bytes → Proc σ Unit}
    (h : ∀ data, Proc.Speaks (writeExact data)) (type : UInt32) (payload : Bytes) :
    Proc.Speaks (writeFrameWith writeExact type payload) :=
  .bind (.require _ (by decide)) fun _ => .bind (h _) fun _ => .ite (h payload) (.pure ())

theorem speaks_readFrame (tlsEnabled : Bool) : Proc.Speaks (readFrame tlsEnabled) :=
  .ite (.zoom (speaks_readFrameWith fun len => speaks_nonNull (named_tls.speaks_recv len)))
    (.zoom (speaks_readFrameWith named_socket.speaks_recv))

theorem speaks_writeFrame (tlsEnabled : Bool) (type : UInt32) (payload : Bytes) :
    Proc.Speaks (writeFrame tlsEnabled type payload) :=
  .ite (.zoom (speaks_writeFrameWith (fun data => speaks_nonNull (named_tls.speaks_send data))
      type payload))
    (.zoom (speaks_writeFrameWith named_socket.speaks_send type payload))

theorem speaks_validateInputSize (bytes : Bytes) {label : String} (e : String)
    (he : validateInputSize bytes label = .error e) : e ≠ "" := by
  unfold validateInputSize at he
  split at he
  · obtain rfl := Except.error.inj he
    exact fun hempty => absurd (String.append_eq_empty_iff.mp hempty).2 (by decide)
  · cases he

/-- A deserializer checks the size, reads, and checks that nothing is left. -/
theorem speaks_deserialize {α : Type} {read : Reader α} {label error : String} {bytes : Bytes}
    (hread : Proc.Speaks read) (herror : error ≠ "") {e : String}
    (he : (do
      validateInputSize bytes label
      let reader : Reader α := do
        let value ← read
        Reader.finished error
        pure value
      (reader bytes).1) = Except.error e) : e ≠ "" := by
  rcases hsize : validateInputSize bytes label with e' | u
  · rw [hsize] at he
    obtain rfl := Except.error.inj he
    exact speaks_validateInputSize bytes e' hsize
  · rw [hsize] at he
    have hreader : Proc.Speaks (read >>= fun value => do
        Reader.finished error
        pure value) :=
    .bind hread fun _ => .bind (.bind .get fun _ => .require _ herror) fun _ => .pure _
    exact hreader bytes e he

theorem speaks_deserializeWith {α : Type} {read : Reader α} {label what : String} {bytes : Bytes}
    {e : String} (he : deserializeWith label what read bytes = .error e) : e ≠ "" := by
  refine speaks_deserialize (.within (fun h => ?_) read) (fun h => ?_) he
  · exact absurd (String.append_eq_empty_iff.mp h).2 (by decide)
  · exact absurd (String.append_eq_empty_iff.mp h).2 (by decide)

theorem speaks_envelope (bytes : Bytes) (e : String) (he : deserializeEnvelope bytes = .error e) :
    e ≠ "" := by
  refine speaks_deserialize ?_ (by decide) he
  refine .bind (.within (by decide) _) fun _ => .ite ?_ (.ite ?_ (.fail (by decide)))
  · exact .bind (.within (by decide) _) fun _ => .pure _
  · exact .bind (.within (by decide) _) fun _ => .pure _

theorem speaks_readMany {α : Type} {get : Reader α} (h : Proc.Speaks get) (n : Nat) :
    Proc.Speaks (Codec.readMany get n) := by
  induction n with
  | zero => exact .pure []
  | succ n ih => exact .bind h fun _ => .bind ih fun _ => .pure _

theorem speaks_inboxEnvelopes (bytes : Bytes) (e : String)
    (he : deserializeInboxEnvelopeVector bytes = .error e) : e ≠ "" := by
  refine speaks_deserialize ?_ (by decide) he
  refine .bind (.within (by decide) _) fun _ => .bind (.within (by decide) _) fun _ => ?_
  refine speaks_readMany (.bind (.within (by decide) _) fun _ => ?_) _
  refine .bind (.within (by decide) _) fun encoded => .bind ?_ fun _ => .pure _
  exact .ofExcept (speaks_envelope encoded)

theorem speaks_serializeEnvelope (envelope : Envelope Bytes) (e : String)
    (he : serializeEnvelope envelope = .error e) : e ≠ "" := by
  unfold serializeEnvelope at he
  split at he
  · split at he
    · obtain rfl := Except.error.inj he
      decide
    · cases he
  · split at he
    · obtain rfl := Except.error.inj he
      decide
    · cases he

theorem speaks_serializeEnqueueRequest (request : EnqueueRequest Bytes) (e : String)
    (he : serializeEnqueueRequest request = .error e) : e ≠ "" := by
  unfold serializeEnqueueRequest at he
  rcases henvelope : serializeEnvelope request.envelope with e' | envelope
  · rw [henvelope] at he
    obtain rfl := Except.error.inj he
    exact speaks_serializeEnvelope request.envelope e' henvelope
  · rw [henvelope] at he
    cases he

/-! ## 4. What a computation keeps -/

/-- So far no answer has been a refusal, and the signer gives a reason when it fails. -/
structure Calm (s : Hosted TcpServerApi) : Prop where
  answers : ∀ e ∈ s.object.exchanges, ¬ e.Refused
  signs : ∀ signFn, s.object.signFn = some signFn → ∀ message, (signFn message).Proper

/-- So far no refusal has been mute. -/
def Heard (s : Hosted TcpServerApi) : Prop := ∀ e ∈ s.object.exchanges, ¬ e.Mute

/-- A predicate on the exchanges that every further exchange keeps. -/
def Grows (I : List Exchange → Prop) : Prop :=
  ∀ answer exchanges, I exchanges → I (⟨answer, resultOf answer⟩ :: exchanges)

/-- What every computation here does, the second part under the assumption `P`: it exchanges
frames; and if no refusal is mute, it returns a proper result, which counts as a success only if
there has been no refusal. -/
structure Law {α : Type} (P : Prop) (x : Api (CResult α)) : Prop where
  keeps : ∀ I, Grows I → Proc.Preserves (fun s => I s.object.exchanges) x
  sound : P → ∀ s, Calm s → Heard (x s).2 →
    ∃ r, (x s).1 = .ok r ∧ r.Proper ∧ (r.isOk → Calm (x s).2)

/-- A step that exchanges nothing, and whose result satisfies `Q`. -/
def Quiet {α : Type} (Q : α → Prop) (x : Api α) : Prop :=
  ∀ s, ∃ a s', x s = (.ok a, s') ∧ Q a ∧ s'.object.exchanges = s.object.exchanges ∧
    s'.object.signFn = s.object.signFn

section Laws

variable {α β : Type} {P : Prop} {x : Api (CResult α)}

theorem law_ok (a : α) : Law P (pure (.ok a)) :=
  ⟨fun _ _ => .pure _, fun _ _ hs _ => ⟨_, rfl, proper_ok a, fun _ => hs⟩⟩

theorem law_pure {r : CResult α} (h : P → r.Proper) : Law P (pure r) :=
  ⟨fun _ _ => .pure _, fun hp _ hs _ => ⟨_, rfl, h hp, fun _ => hs⟩⟩

theorem keeps_get (r : CResult α) {g : α → Api (CResult β)} {I : Hosted TcpServerApi → Prop}
    (hg : ∀ a, Proc.Preserves I (g a)) : Proc.Preserves I (r.get >>= g) := by
  refine .bind ?_ hg
  rw [TextResult.get]
  cases r.value with
  | none => exact .fail _
  | some a => exact .pure a

/-- A result that is there is checked, and its value is read. -/
theorem law_checked {r : CResult α} (hr : P → r.Proper) {g : α → Api (CResult β)}
    (hg : ∀ a, Law P (g a)) : Law P (checked r (r.get >>= g)) := by
  refine ⟨fun I hI => .ite (keeps_get r fun a => (hg a).keeps I hI) (.pure _), ?_⟩
  intro hp s hs hheard
  by_cases hok : r.isOk = true
  · rw [checked_pos hok] at hheard ⊢
    obtain ⟨a, ha⟩ := Option.isSome_iff_exists.mp (hr hp hok)
    rw [TextResult.get, ha] at hheard ⊢
    exact (hg a).sound hp s hs hheard
  · rw [checked_neg hok]
    exact ⟨_, rfl, proper_err fun he => hok (List.isEmpty_iff.mpr he),
      fun h => absurd (isOk_err_iff.mp h) fun he => hok (List.isEmpty_iff.mpr he)⟩

/-- A computation is followed by another one if its result counts as a success. -/
theorem Law.andThen (hx : Law P x) {y : CResult α → Api (CResult β)}
    (hkeeps : ∀ r I, Grows I → Proc.Preserves (fun s => I s.object.exchanges) (y r))
    (hy : ∀ r, r.value.isSome → Law P (y r)) : Law P (x >>= fun r => checked r (y r)) := by
  refine ⟨fun I hI => .bind (hx.keeps I hI) fun r => .ite (hkeeps r I hI) (.pure _), ?_⟩
  intro hp s hs hheard
  rcases hrun : x s with ⟨e | r, s₁⟩
  · rw [Proc.bind_error hrun] at hheard
    obtain ⟨r, hr, -⟩ := hx.sound hp s hs (by rw [hrun]; exact hheard)
    rw [hrun] at hr
    cases hr
  rw [Proc.bind_ok hrun] at hheard ⊢
  -- a mute refusal would still be there
  have hheard₁ : Heard s₁ := by
    intro e he hmute
    have hdeaf : Grows fun exchanges => ∃ e ∈ exchanges, e.Mute :=
      fun _ _ ⟨e, he, hmute⟩ => ⟨e, List.mem_cons_of_mem _ he, hmute⟩
    have hlater : Proc.Preserves (fun s : Hosted TcpServerApi => ∃ e ∈ s.object.exchanges, e.Mute)
        (checked r (y r)) := .ite (hkeeps r _ hdeaf) (.pure _)
    obtain ⟨e', he', hmute'⟩ := hlater s₁ ⟨e, he, hmute⟩
    exact hheard e' he' hmute'
  obtain ⟨r', hr', hproper, hcalm⟩ := hx.sound hp s hs (by rw [hrun]; exact hheard₁)
  rw [hrun] at hr' hcalm
  obtain rfl := Except.ok.inj hr'
  by_cases hok : r.isOk = true
  · rw [checked_pos hok] at hheard ⊢
    exact (hy r (hproper hok)).sound hp s₁ (hcalm hok) hheard
  · rw [checked_neg hok]
    exact ⟨_, rfl, proper_err fun he => hok (List.isEmpty_iff.mpr he),
      fun h => absurd (isOk_err_iff.mp h) fun he => hok (List.isEmpty_iff.mpr he)⟩

theorem Law.bind (hx : Law P x) {y : Api (CResult β)} (hy : Law P y) :
    Law P (x >>= fun r => checked r y) := hx.andThen (fun _ => hy.keeps) fun _ _ => hy

/-- The value of the first result is read. -/
theorem Law.bind_get (hx : Law P x) {g : α → Api (CResult β)} (hg : ∀ a, Law P (g a)) :
    Law P (x >>= fun r => checked r (r.get >>= g)) := by
  refine hx.andThen (fun r I hI => keeps_get r fun a => (hg a).keeps I hI) fun r hr => ?_
  obtain ⟨a, ha⟩ := Option.isSome_iff_exists.mp hr
  rw [TextResult.get, ha]
  exact hg a

/-- A step that exchanges nothing. -/
theorem Quiet.bind {Q : α → Prop} {x : Api α} (hx : Quiet Q x) {f : α → Api (CResult β)}
    (hf : ∀ a, Q a → Law P (f a)) : Law P (x >>= f) := by
  refine ⟨fun I hI s hs => ?_, fun hp s hs hheard => ?_⟩
  · obtain ⟨a, s', hrun, ha, hexchanges, -⟩ := hx s
    rw [Proc.bind_ok hrun]
    refine (hf a ha).keeps I hI s' ?_
    change I s'.object.exchanges
    rw [hexchanges]
    exact hs
  · obtain ⟨a, s', hrun, ha, hexchanges, hsign⟩ := hx s
    rw [Proc.bind_ok hrun] at hheard ⊢
    exact (hf a ha).sound hp s' ⟨hexchanges ▸ hs.answers, hsign ▸ hs.signs⟩ hheard

theorem quiet_get : Quiet (fun _ => True) (Proc.get : Api (Hosted TcpServerApi)) :=
  fun s => ⟨s, s, rfl, trivial, rfl, rfl⟩

/-- An assignment to other members. -/
theorem law_modify_bind {f : TcpServerApi → TcpServerApi} {y : Api (CResult β)} (hy : Law P y)
    (hf : ∀ api, (f api).exchanges = api.exchanges ∧ (f api).signFn = api.signFn) :
    Law P (modify f >>= fun _ => y) :=
  Quiet.bind (Q := fun _ => True)
    (fun s => ⟨(), _, rfl, trivial, (hf s.object).1, (hf s.object).2⟩) fun _ _ => hy

theorem quiet_randomBytes (n : Nat) : Quiet (fun _ => True) (randomBytes n : Api (Option Bytes)) :=
  fun _ => ⟨_, _, rfl, trivial, rfl, rfl⟩

theorem quiet_onEndpoint {x : Proc Endpoint α} (hx : Proc.Speaks x) :
    Quiet TextResult.Proper (onEndpoint x) := by
  intro s
  refine ⟨_, _, rfl, proper_of (hx s.object.endpoint), rfl, rfl⟩

end Laws

/-! ## 5. The calls -/

/-- A refusal counts as a success exactly if it is mute. -/
theorem isOk_resultOf_iff {answer : Frame} (h : answer.command ≠ TcpStatus.kOk) :
    (resultOf answer).isOk = true ↔ answer.payload = [0, 0, 0, 0] := by
  rw [resultOf, if_neg h]
  have hstring := decodes_deserializeWith inverts_string "string payload" "string"
  rcases hread : deserializeString answer.payload with e | errorMessage
  · dsimp only
    rw [isOk_err_iff]
    refine ⟨fun hempty => absurd (eq_empty_of_text hempty) (by decide), fun hpayload => ?_⟩
    rw [hpayload] at hread
    cases hread
  · dsimp only
    rw [isOk_err_iff]
    refine ⟨fun hempty => ?_, fun hpayload => ?_⟩
    · rw [hempty] at hread
      exact (hstring.put_decode _ _ hread).1
    · rw [hpayload] at hread
      exact (Except.ok.inj hread).symm

section Calls

variable {P : Prop}

theorem law_ensureConnected : Law P ensureConnected := by
  refine quiet_get.bind fun s _ => ?_
  split
  · exact law_ok ()
  · refine law_modify_bind ?_ fun _ => ⟨rfl, rfl⟩
    cases s.object.attempts s.object.attempted with
    | error cause => exact law_pure fun _ => proper_text (text_ne_empty cause)
    | ok endpoint => exact law_modify_bind (law_ok ()) fun _ => ⟨rfl, rfl⟩

theorem law_closeConnection {α : Type} {error : List UInt8} (h : error ≠ []) :
    Law P (closeConnection >>= fun _ => pure (.err error : CResult α)) :=
  law_modify_bind (law_pure fun _ => proper_err h) fun _ => ⟨rfl, rfl⟩

/-- The answer is there: it is recorded, and its result is returned. -/
theorem law_answer (answer : Frame) : Law P (do
    modify fun api => { api with exchanges := ⟨answer, resultOf answer⟩ :: api.exchanges }
    pure (resultOf answer)) := by
  refine ⟨fun I hI s hs => hI answer _ hs, fun _ s hs hheard => ⟨_, rfl, ?_, fun hok => ?_⟩⟩
  · by_cases hrefused : answer.command = TcpStatus.kOk
    · rw [resultOf, if_pos hrefused]
      exact proper_ok _
    · refine fun hok => absurd ?_ (hheard ⟨answer, resultOf answer⟩ List.mem_cons_self)
      exact ⟨hrefused, (isOk_resultOf_iff hrefused).mp hok⟩
  · refine ⟨fun e he hrefused => ?_, hs.signs⟩
    rcases List.mem_cons.mp he with rfl | he
    · exact hheard _ List.mem_cons_self ⟨hrefused, (isOk_resultOf_iff hrefused).mp hok⟩
    · exact hs.answers e he hrefused

theorem law_request (command : UInt32) (payload : Bytes) : Law P (request command payload) := by
  refine law_ensureConnected.bind (quiet_get.bind fun s _ => ?_)
  refine (quiet_onEndpoint (speaks_writeFrame _ command payload)).bind fun write _ => ?_
  split
  · rename_i hok
    exact law_closeConnection fun he => hok (List.isEmpty_iff.mpr he)
  · refine (quiet_onEndpoint (speaks_readFrame _)).bind fun response hresponse => ?_
    split
    · rename_i hok
      exact law_closeConnection fun he => hok (List.isEmpty_iff.mpr he)
    · rename_i hok
      obtain ⟨answer, hanswer⟩ := Option.isSome_iff_exists.mp (hresponse (not_not.mp hok))
      rw [TextResult.get, hanswer]
      exact law_answer answer

theorem law_requestAuthenticated (command : UInt32) (payload : Bytes) :
    Law P (requestAuthenticated command payload) :=
  quiet_get.bind fun _ _ => law_checked (fun _ => proper_ok _) fun _ => law_request command _

theorem law_registerTransportIdentity (req : RegisterRequest Bytes) :
    Law P (registerTransportIdentity req) :=
  law_checked (fun _ => proper_ok _) fun _ => (law_request _ _).bind (law_ok ())

theorem law_beginTransportAuthentication (req : AuthBeginRequest Bytes) :
    Law P (beginTransportAuthentication req) :=
  law_checked (fun _ => proper_ok _) fun _ => (law_request _ _).bind_get fun _ =>
    law_pure fun _ => proper_of fun _ => speaks_deserializeWith

theorem law_finishTransportAuthentication (req : AuthFinishRequest Bytes) :
    Law P (finishTransportAuthentication req) :=
  law_checked (fun _ => proper_ok _) fun _ => (law_request _ _).bind_get fun _ =>
    law_pure fun _ => proper_of fun _ => speaks_deserializeWith

theorem law_revokeSessionToken (sessionToken : Bytes) :
    Law P (revokeSessionToken sessionToken) := by
  refine law_checked (fun _ => proper_ok _) fun _ => (law_request _ _).bind ?_
  refine law_modify_bind (law_modify_bind (law_ok ()) fun _ => ⟨rfl, rfl⟩) fun api => ?_
  split
  · exact ⟨rfl, rfl⟩
  · exact ⟨rfl, rfl⟩

/-- The signer gives a reason when it fails. -/
abbrev Reasons (signFn : Bytes → CResult Bytes) : Prop := ∀ message, (signFn message).Proper

theorem law_authenticate (signFn : Bytes → CResult Bytes) :
    Law (Reasons signFn) (authenticate signFn) := by
  refine quiet_get.bind fun s _ => (quiet_randomBytes 32).bind fun nonce _ => ?_
  have hnonce : (CResult.of (match nonce with
      | some nonce => .ok nonce
      | none => .error "RAND_bytes failed")).Proper := by
    refine proper_of fun e he => ?_
    cases nonce with
    | some nonce => cases he
    | none =>
      obtain rfl := Except.error.inj he
      decide
  refine law_checked (fun _ => hnonce) fun clientNonce => ?_
  refine (law_beginTransportAuthentication _).bind_get fun challenge => ?_
  refine law_checked (fun hsign => hsign _) fun signature => ?_
  refine (law_finishTransportAuthentication _).bind_get fun session => ?_
  exact law_modify_bind (law_ok ()) fun _ => ⟨rfl, rfl⟩

theorem quiet_hasSession : Quiet (fun _ => True) hasSession := by
  intro s
  by_cases h : s.object.sessionToken = []
  · refine ⟨false, s, ?_, trivial, rfl, rfl⟩
    rw [hasSession, Proc.get_bind_apply, if_pos h]
    rfl
  · refine ⟨decide (s.now + 5 < s.object.sessionExpiresAtUnix), s.tick, ?_, trivial, rfl, rfl⟩
    rw [hasSession, Proc.get_bind_apply, if_neg h]
    rfl

/-- `EnsureAuthenticated`, with a signer. -/
theorem law_signed (api : TcpServerApi) (signFn : Bytes → CResult Bytes) : Law (Reasons signFn) (do
    if ← hasSession then pure (.ok ())
    else do
      let registerSignature := signFn (buildTransportRegisterSignInput api.userId
        api.transportAuthPublicKey)
      checked registerSignature do
        let registerStatus ← registerTransportIdentity
          { userId := api.userId
            transportAuthPublicKey := api.transportAuthPublicKey
            registrationToken := api.registrationToken
            proofSignatureMldsa65 := ← registerSignature.get
            rotationSignatureMldsa65 := none }
        checked registerStatus (authenticate signFn)) := by
  refine quiet_hasSession.bind fun session _ => ?_
  split
  · exact law_ok ()
  · refine law_checked (fun hsign => hsign _) fun signature => ?_
    exact (law_registerTransportIdentity _).bind (law_authenticate signFn)

theorem law_ensureAuthenticated : Law P ensureAuthenticated := by
  refine ⟨fun I hI => .bind .get fun s => ?_, fun _ s hs hheard => ?_⟩
  · cases s.object.signFn with
    | none => exact .pure _
    | some signFn => exact (law_signed s.object signFn).keeps I hI
  · rw [ensureAuthenticated, Proc.get_bind_apply] at hheard ⊢
    cases hsign : s.object.signFn with
    | none => exact ⟨_, rfl, proper_text (by decide), fun _ => hs⟩
    | some signFn =>
      rw [hsign] at hheard
      exact (law_signed s.object signFn).sound (hs.signs signFn hsign) s hs hheard

theorem law_logoutCurrentSession : Law P logoutCurrentSession :=
  law_ensureAuthenticated.bind (quiet_get.bind fun _ _ => law_revokeSessionToken _)

theorem law_publishBundle (bundle : PrekeyBundle Bytes) : Law P (publishBundle bundle) :=
  law_ensureAuthenticated.bind (law_checked (fun _ => proper_ok _) fun _ =>
    (law_requestAuthenticated _ _).bind (law_ok ()))

theorem law_acquireBundleForSession (userId : Bytes) : Law P (acquireBundleForSession userId) :=
  law_ensureAuthenticated.bind (law_checked (fun _ => proper_ok _) fun _ =>
    (law_requestAuthenticated _ _).bind_get fun _ =>
      law_pure fun _ => proper_of fun _ => speaks_deserializeWith)

theorem law_enqueueEnvelope (userId : Bytes) (envelope : Envelope Bytes) :
    Law P (enqueueEnvelope userId envelope) := by
  refine law_ensureAuthenticated.bind (law_checked (fun _ => proper_of ?_) fun _ => ?_)
  · exact speaks_serializeEnqueueRequest ⟨userId, envelope⟩
  · exact (law_requestAuthenticated _ _).bind (law_ok ())

theorem law_drainInbox (userId : Bytes) (ackUpToInboxId : Option UInt64) :
    Law P (drainInbox userId ackUpToInboxId) :=
  law_ensureAuthenticated.bind (law_checked (fun _ => proper_ok _) fun _ =>
    (law_requestAuthenticated _ _).bind_get fun response =>
      law_pure fun _ => proper_of (speaks_inboxEnvelopes response))

end Calls

/-! ## 6. Refusals -/

/-- The object at the beginning of a call: nothing has been answered. -/
def start (s : Hosted TcpServerApi) : Hosted TcpServerApi :=
  { s with object := { s.object with exchanges := [] } }

namespace Call

/-- The answers that a call reads, newest first. -/
def exchanges (call : Call) (s : Hosted TcpServerApi) : List Exchange :=
  (call.run (start s)).2.object.exchanges

/-- The call reads no value that is not there; every `Request` that has been refused returns a
failure; and so does the call. -/
structure RefusalsFail (call : Call) (s : Hosted TcpServerApi) : Prop where
  defined : ∃ ok, (call.run (start s)).1 = .ok ok
  requests : ∀ e ∈ call.exchanges s, e.Refused → e.result.isOk = false
  refused : (∃ e ∈ call.exchanges s, e.Refused) → (call.run (start s)).1 = .ok false

/-- `Law` of a call whose result is only looked at. -/
structure Lawful (x : Api Bool) : Prop where
  keeps : ∀ I, Grows I → Proc.Preserves (fun s => I s.object.exchanges) x
  sound : ∀ s, Calm s → Heard (x s).2 → ∃ ok, (x s).1 = .ok ok ∧ (ok = true → Calm (x s).2)

theorem lawful_of_law {α : Type} {x : Api (CResult α)} (h : Law True x) :
    Lawful (do return (← x).isOk) := by
  refine ⟨fun I hI => .bind (h.keeps I hI) fun r => .pure _, fun s hs hheard => ?_⟩
  rw [Proc.bind_pure_apply] at hheard ⊢
  obtain ⟨r, hr, -, hcalm⟩ := h.sound trivial s hs hheard
  exact ⟨r.isOk, by rw [hr]; rfl, hcalm⟩

theorem lawful_run (call : Call) : Lawful call.run := by
  cases call with
  | registerTransportIdentity req => exact lawful_of_law (law_registerTransportIdentity req)
  | beginTransportAuthentication req => exact lawful_of_law (law_beginTransportAuthentication req)
  | finishTransportAuthentication req =>
    exact lawful_of_law (law_finishTransportAuthentication req)
  | authenticateSessionToken sessionToken =>
    exact lawful_of_law (law_pure fun _ => proper_text (by decide))
  | revokeSessionToken sessionToken => exact lawful_of_law (law_revokeSessionToken sessionToken)
  | logoutCurrentSession => exact lawful_of_law law_logoutCurrentSession
  | publishBundle bundle => exact lawful_of_law (law_publishBundle bundle)
  | acquireBundleForSession userId => exact lawful_of_law (law_acquireBundleForSession userId)
  | enqueueEnvelope userId envelope => exact lawful_of_law (law_enqueueEnvelope userId envelope)
  | drainInbox userId ack => exact lawful_of_law (law_drainInbox userId ack)

/-- **Refusals are failures exactly as long as none of them is mute.**  Whatever frames the server
sends, a call reports every refusal, and never reads a value that is not there, if and only if no
frame it reads has a status other than `kOk` and the payload of the empty string. -/
theorem refusals_fail (call : Call) (s : Hosted TcpServerApi)
    (hsign : ∀ signFn, s.object.signFn = some signFn → Reasons signFn) :
    call.RefusalsFail s ↔
      ∀ e ∈ call.exchanges s, e.answer.command ≠ TcpStatus.kOk →
        e.answer.payload ≠ [0, 0, 0, 0] := by
  have hresults : ∀ e ∈ call.exchanges s, e.result = resultOf e.answer := by
    refine (lawful_run call).keeps (fun exchanges => ∀ e ∈ exchanges, e.result = resultOf e.answer)
      (fun answer exchanges h e he => ?_) (start s) nofun
    rcases List.mem_cons.mp he with rfl | he
    · rfl
    · exact h e he
  refine ⟨fun h e he hrefused hmute => ?_, fun hheard => ?_⟩
  · have hok := (isOk_resultOf_iff hrefused).mpr hmute
    rw [← hresults e he, h.requests e he hrefused] at hok
    cases hok
  · obtain ⟨ok, hok, hcalm⟩ := (lawful_run call).sound (start s) ⟨nofun, hsign⟩
      fun e he hmute => hheard e he hmute.1 hmute.2
    refine ⟨⟨ok, hok⟩, fun e he hrefused => ?_, fun ⟨e, he, hrefused⟩ => ?_⟩
    · rw [hresults e he, Bool.eq_false_iff]
      exact fun hsuccess => hheard e he hrefused ((isOk_resultOf_iff hrefused).mp hsuccess)
    · rw [hok]
      cases ok with
      | false => rfl
      | true => exact absurd hrefused ((hcalm rfl).answers e he)

end Call

/-! ### Two refusals -/

namespace Alice

/-- Alice's client, and a server that answers with these bytes. -/
def facing (answer : Chunk) : Hosted TcpServerApi where
  host := ⟨fun _ => 1000, 0, fun _ => none, 0⟩
  object := {
    userId := text "alice"
    transportAuthPublicKey := [5]
    signFn := some fun message => .ok (5 :: message)
    registrationToken := []
    tlsEnabled := false
    connected := false
    endpoint := ⟨{ incoming := [] }, none⟩
    sessionToken := []
    sessionExpiresAtUnix := 0
    attempts := fun _ => .ok ⟨{ incoming := [.bytes answer] }, none⟩
    attempted := 0
    exchanges := [] }

def registration : RegisterRequest Bytes := ⟨text "alice", [5], [], [5], none⟩

/-- "no". -/
def refusal : Chunk := ⟨[0, 0, 0, 1, 0, 0, 0, 6, 0, 0, 0, 2, 110, 111], List.cons_ne_nil _ _⟩

/-- A refusal with an empty text. -/
def muteRefusal : Chunk := ⟨[0, 0, 0, 1, 0, 0, 0, 4, 0, 0, 0, 0], List.cons_ne_nil _ _⟩

theorem reasons (answer : Chunk) (signFn : Bytes → CResult Bytes)
    (h : (facing answer).object.signFn = some signFn) : Reasons signFn := by
  obtain rfl := Option.some.inj h
  exact fun message => proper_ok (5 :: message)

end Alice

/-- Alice asks for Bob's bundle and reads that the registration before it has been refused. -/
theorem refusals_fail_alice :
    Call.RefusalsFail (.acquireBundleForSession (text "bob")) (Alice.facing Alice.refusal) ∧
      ∃ e ∈ Call.exchanges (.acquireBundleForSession (text "bob")) (Alice.facing Alice.refusal),
        e.Refused :=
  ⟨(Call.refusals_fail _ _ (Alice.reasons Alice.refusal)).mpr (by decide +kernel), by
    decide +kernel⟩

/-- The registration is refused without a reason: it counts as a success. -/
theorem not_refusalsFail : ¬ Call.RefusalsFail (.registerTransportIdentity Alice.registration)
    (Alice.facing Alice.muteRefusal) := by
  refine fun h => absurd (h.refused ?_) ?_
  · decide +kernel
  · decide +kernel

end TcpServerApi

end PqChat
