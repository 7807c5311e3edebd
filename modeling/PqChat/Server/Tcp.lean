/-
# TcpServer

`tcp_server.cpp`.  Every connection has a thread that reads a frame, handles it and answers it
before it reads the next one.  Handling a frame is a `Thread`: its calls are those of the
`IServerApi`, each under the lock of the server object, and the two checks of the rates before
authentication, each under the lock of the `TcpServer`.  The threads of all connections form a
`Pool`, so their calls interleave in any order.

A frame is what `ReadFrame` returns: any command number and any payload.
-/
import PqChat.Lib.Thread
import PqChat.Server.Api

namespace PqChat

open ByteString

/-! ## 1. Rates before authentication -/

/-- `PreAuthRateLimitConfig`. -/
structure PreAuthRateLimitConfig where
  windowSeconds : UInt64 := 60
  registerPerAddr : Nat := 20
  registerPerAddrUser : Nat := 10
  authBeginPerAddr : Nat := 60
  authBeginPerAddrUser : Nat := 30
  authFinishPerAddr : Nat := 60
  authFinishPerAddrUser : Nat := 30
  registerGlobal : Nat := 200
  authBeginGlobal : Nat := 800
  authFinishGlobal : Nat := 800

namespace TcpCommand

def kPublishBundle : UInt32 := 1
def kAcquireBundle : UInt32 := 2
def kEnqueueEnvelope : UInt32 := 3
def kDrainInbox : UInt32 := 4
def kRegisterTransportIdentity : UInt32 := 5
def kAuthBegin : UInt32 := 6
def kAuthFinish : UInt32 := 7
def kLogout : UInt32 := 8

end TcpCommand

open TcpCommand

/-- The commands that carry no token. -/
inductive PreAuth
  | register
  | authBegin
  | authFinish
  deriving DecidableEq, Repr

/-- Which of them a command is. -/
def PreAuth.ofCommand (command : UInt32) : Option PreAuth :=
  if command = kRegisterTransportIdentity then some .register
  else if command = kAuthBegin then some .authBegin
  else if command = kAuthFinish then some .authFinish
  else none

/-- The attempts of one such command: `preauth_…_by_addr_`, `preauth_…_by_addr_user_` and
`preauth_…_global_`. -/
structure PreAuthRates where
  byAddr : Buckets
  byAddrUser : Buckets
  total : List UInt64

namespace PreAuth

/-- The word in the error texts. -/
def name : PreAuth → String
  | register => "register"
  | authBegin => "auth begin"
  | authFinish => "auth finish"

def perAddr (config : PreAuthRateLimitConfig) : PreAuth → Nat
  | register => config.registerPerAddr
  | authBegin => config.authBeginPerAddr
  | authFinish => config.authFinishPerAddr

def perAddrUser (config : PreAuthRateLimitConfig) : PreAuth → Nat
  | register => config.registerPerAddrUser
  | authBegin => config.authBeginPerAddrUser
  | authFinish => config.authFinishPerAddrUser

def global (config : PreAuthRateLimitConfig) : PreAuth → Nat
  | register => config.registerGlobal
  | authBegin => config.authBeginGlobal
  | authFinish => config.authFinishGlobal

end PreAuth

/-- `CheckAndRecord`. -/
def checkAndRecord (now windowSeconds : UInt64) (limit : Nat) (errorText : String) :
    Proc (List UInt64) Unit := do
  Proc.modify (trimWindow now windowSeconds)
  let bucket ← Proc.get
  Proc.require (¬ bucket.length ≥ limit) errorText
  Proc.modify fun bucket => bucket ++ [now]

/-- `trim_map`. -/
def trimMap (now windowSeconds : UInt64) (buckets : Buckets) : Buckets :=
  (buckets.mapValues (trimWindow now windowSeconds)).sweep fun _ bucket => !bucket.isEmpty

/-- `IsValidUserIdForRateLimit`: the text of `IsValidUserId` once more. -/
def isValidUserIdForRateLimit (userId : Bytes) : Bool := isValidUserId userId

/-! ## 2. The server -/

/-- `TcpServer`, with the object behind `api_`. -/
structure TcpServer (σ : Type) where
  api : Hosted σ
  rates : PreAuth → PreAuthRates
  preauthRateLimitConfig : PreAuthRateLimitConfig

namespace TcpServer

variable {σ α : Type}

/-- The constructor. -/
def init (api : Hosted σ) (config : PreAuthRateLimitConfig) : TcpServer σ :=
  ⟨api, fun _ => ⟨∅, ∅, []⟩, config⟩

/-- Run a call of the server object. -/
def onApi (x : Proc (Hosted σ) α) : Proc (TcpServer σ) α :=
  Proc.zoom TcpServer.api (fun a s => { s with api := a }) x

/-- Run a computation on one bucket; `operator[]` makes an empty one. -/
def onBucket (get : PreAuthRates → List UInt64)
    (set : List UInt64 → PreAuthRates → PreAuthRates) (kind : PreAuth)
    (x : Proc (List UInt64) α) : Proc (TcpServer σ) α :=
  Proc.zoom (fun s => get (s.rates kind))
    (fun bucket s => { s with rates := Function.update s.rates kind (set bucket (s.rates kind)) })
    x

/-- `EnforcePreAuthRateLimit`.  The code reads the clock just before it takes `preauth_rate_mu_`,
so two threads may come to the lock in the other order than they have read it. -/
def enforcePreAuthRateLimit (command : UInt32) (peerAddr : Bytes) : Proc (TcpServer σ) Unit :=
  match PreAuth.ofCommand command with
  | none => pure ()
  | some kind => do
    let now ← onApi nowUnix
    let s ← Proc.get
    let config := s.preauthRateLimitConfig
    Proc.modify fun s => { s with rates := fun kind =>
      { s.rates kind with
        byAddr := trimMap now config.windowSeconds (s.rates kind).byAddr
        total := trimWindow now config.windowSeconds (s.rates kind).total } }
    onBucket (fun rates => (rates.byAddr.get peerAddr).getD [])
      (fun bucket rates => { rates with byAddr := rates.byAddr.set peerAddr bucket }) kind
      (checkAndRecord now config.windowSeconds (kind.perAddr config)
        (kind.name ++ " rate limit exceeded (source address)"))
    onBucket PreAuthRates.total (fun bucket rates => { rates with total := bucket }) kind
      (checkAndRecord now config.windowSeconds (kind.global config)
        (kind.name ++ " rate limit exceeded (global)"))

/-- `EnforcePreAuthUserRateLimit`. -/
def enforcePreAuthUserRateLimit (command : UInt32) (peerAddr userId : Bytes) :
    Proc (TcpServer σ) Unit :=
  match PreAuth.ofCommand command with
  | none => pure ()
  | some kind =>
    if ¬ isValidUserIdForRateLimit userId then pure ()
    else do
      let now ← onApi nowUnix
      let key := peerAddr ++ text "|" ++ userId
      let s ← Proc.get
      let config := s.preauthRateLimitConfig
      Proc.modify fun s => { s with rates := fun kind =>
        { s.rates kind with
          byAddrUser := trimMap now config.windowSeconds (s.rates kind).byAddrUser } }
      onBucket (fun rates => (rates.byAddrUser.get key).getD [])
        (fun bucket rates => { rates with byAddrUser := rates.byAddrUser.set key bucket }) kind
        (checkAndRecord now config.windowSeconds (kind.perAddrUser config)
          (kind.name ++ " rate limit exceeded (source+user)"))

/-! ## 3. Handling a frame -/

/-- What the thread of a connection calls. -/
inductive Call
  | enforcePreAuthRateLimit (command : UInt32) (peerAddr : Bytes)
  | enforcePreAuthUserRateLimit (command : UInt32) (peerAddr userId : Bytes)
  | registerTransportIdentity (request : RegisterRequest Bytes)
  | beginTransportAuthentication (request : AuthBeginRequest Bytes)
  | finishTransportAuthentication (request : AuthFinishRequest Bytes)
  | authenticateSessionToken (sessionToken : Bytes)
  | revokeSessionToken (sessionToken : Bytes)
  | publishBundle (bundle : PrekeyBundle Bytes)
  | acquireBundleForSession (userId : Bytes)
  | enqueueEnvelope (userId : Bytes) (envelope : Envelope Bytes)
  | drainInbox (userId : Bytes) (ackUpToInboxId : Option UInt64)
  deriving DecidableEq, Repr

/-- What the calls return. -/
def Call.Answer : Call → Type
  | beginTransportAuthentication _ => AuthBeginResponse Bytes
  | finishTransportAuthentication _ => AuthFinishResponse Bytes
  | authenticateSessionToken _ => Bytes
  | acquireBundleForSession _ => PrekeyBundle Bytes
  | drainInbox _ _ => List (InboxEnvelope Bytes)
  | _ => Unit

/-- The calls on the server object and on the rates. -/
def exec (api : IServerApi (Hosted σ)) : (c : Call) → Proc (TcpServer σ) c.Answer
  | .enforcePreAuthRateLimit command peerAddr => enforcePreAuthRateLimit command peerAddr
  | .enforcePreAuthUserRateLimit command peerAddr userId =>
    enforcePreAuthUserRateLimit command peerAddr userId
  | .registerTransportIdentity request => onApi (api.registerTransportIdentity request)
  | .beginTransportAuthentication request => onApi (api.beginTransportAuthentication request)
  | .finishTransportAuthentication request => onApi (api.finishTransportAuthentication request)
  | .authenticateSessionToken sessionToken => onApi (api.authenticateSessionToken sessionToken)
  | .revokeSessionToken sessionToken => onApi (api.revokeSessionToken sessionToken)
  | .publishBundle bundle => onApi (api.publishBundle bundle)
  | .acquireBundleForSession userId => onApi (api.acquireBundleForSession userId)
  | .enqueueEnvelope userId envelope => onApi (api.enqueueEnvelope userId envelope)
  | .drainInbox userId ack => onApi (api.drainInbox userId ack)

/-- A frame: its command number and its payload. -/
structure Frame where
  command : UInt32
  payload : Bytes
  deriving DecidableEq, Repr

/-- The sender and the recipient that an envelope names. -/
def parties (envelope : Envelope Bytes) : Result (Bytes × Bytes) :=
  match envelope.type, envelope.initial, envelope.chat with
  | .kInitial, some message, _ => .ok (message.fromUser, message.toUser)
  | .kChat, _, some message => .ok (message.fromUser, message.toUser)
  | _, _, _ => .error "invalid envelope sender"

/-- One round of the loop of `HandleConnection`.  The result is the payload that is sent with
the status `kOk`; an error text is sent with the status `kError`. -/
def handleFrame (peerAddr : Bytes) (frame : Frame) : Thread Call Call.Answer Bytes := do
  let _ ← Thread.perform (Call.enforcePreAuthRateLimit frame.command peerAddr)
  if frame.command = kRegisterTransportIdentity then do
    let request ← Thread.ofExcept (deserializeRegisterRequest frame.payload)
    let _ ← Thread.perform
      (Call.enforcePreAuthUserRateLimit frame.command peerAddr request.userId)
    let _ ← Thread.perform (Call.registerTransportIdentity request)
    pure []
  else if frame.command = kAuthBegin then do
    let request ← Thread.ofExcept (deserializeAuthBeginRequest frame.payload)
    let _ ← Thread.perform
      (Call.enforcePreAuthUserRateLimit frame.command peerAddr request.userId)
    let response ← Thread.perform (Call.beginTransportAuthentication request)
    Thread.ofExcept (serializeAuthBeginResponse response)
  else if frame.command = kAuthFinish then do
    let request ← Thread.ofExcept (deserializeAuthFinishRequest frame.payload)
    let _ ← Thread.perform
      (Call.enforcePreAuthUserRateLimit frame.command peerAddr request.userId)
    let response ← Thread.perform (Call.finishTransportAuthentication request)
    Thread.ofExcept (serializeAuthFinishResponse response)
  else do
    let authenticated ← Thread.ofExcept (deserializeAuthenticatedPayload frame.payload)
    let sessionUser : Bytes ←
      Thread.perform (Call.authenticateSessionToken authenticated.sessionToken)
    if frame.command = kLogout then do
      let _ ← Thread.perform (Call.revokeSessionToken authenticated.sessionToken)
      pure []
    else if frame.command = kPublishBundle then do
      let bundle ← Thread.ofExcept (deserializePrekeyBundle authenticated.payload)
      Thread.require (bundle.userId = sessionUser)
        "publish user_id mismatch with authenticated session"
      let _ ← Thread.perform (Call.publishBundle bundle)
      pure []
    else if frame.command = kAcquireBundle then do
      let user ← Thread.ofExcept (deserializeString authenticated.payload)
      let bundle ← Thread.perform (Call.acquireBundleForSession user)
      Thread.ofExcept (serializePrekeyBundle bundle)
    else if frame.command = kEnqueueEnvelope then do
      let request ← Thread.ofExcept (deserializeEnqueueRequest authenticated.payload)
      let (sender, recipient) ← Thread.ofExcept (parties request.envelope)
      Thread.require (sender = sessionUser) "envelope sender mismatch with authenticated session"
      Thread.require (recipient = request.userId)
        "envelope recipient mismatch with enqueue target"
      let _ ← Thread.perform (Call.enqueueEnvelope request.userId request.envelope)
      pure []
    else if frame.command = kDrainInbox then do
      let request ← Thread.ofExcept (deserializeDrainInboxRequest authenticated.payload)
      Thread.require (request.userId = sessionUser)
        "drain user_id mismatch with authenticated session"
      let envelopes ← Thread.perform (Call.drainInbox sessionUser request.ackUpToInboxId)
      Thread.ofExcept (serializeInboxEnvelopeVector envelopes)
    else Thread.ofExcept (.error "unknown command")

/-! ## 4. All connections -/

/-- A connection, for as long as it is open. -/
abbrev Connection := Nat

abbrev Task := Pool.Task Frame Call Call.Answer Bytes

/-- The server with the frames that are being handled. -/
abbrev World (σ : Type) := Pool Connection Frame Call Call.Answer Bytes (TcpServer σ)

/-- A frame arrives on a connection, or the thread of a connection goes one step. -/
abbrev Action := Pool.Action Connection Frame

/-- The server after a history, newest first, that starts without connections. -/
def after (api : IServerApi (Hosted σ)) (peerAddr : Connection → Bytes) (s₀ : TcpServer σ)
    (actions : List Action) : World σ :=
  Pool.after (fun i => handleFrame (peerAddr i)) (exec api) s₀ actions

end TcpServer

end PqChat
