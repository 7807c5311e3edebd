/-
# Transport authentication: messages and signed strings

The requests and responses of `protocol/transport_auth.h` and of `protocol/serialization.h`, and
the strings that are signed with the transport key of a user.
-/
import PqChat.Protocol

namespace PqChat

open ByteString

variable {B : Type}

/-! ## 1. Types -/

/-- `RegisterRequest`. -/
structure RegisterRequest (B : Type) where
  userId : B
  transportAuthPublicKey : B
  registrationToken : B
  proofSignatureMldsa65 : B
  rotationSignatureMldsa65 : Option B
  deriving DecidableEq, Repr

/-- `AuthBeginRequest`. -/
structure AuthBeginRequest (B : Type) where
  userId : B
  clientNonce : B
  deriving DecidableEq, Repr

/-- `AuthBeginResponse`. -/
structure AuthBeginResponse (B : Type) where
  challengeId : B
  serverNonce : B
  expiresAtUnix : UInt64 := 0
  deriving DecidableEq, Repr

/-- `AuthFinishRequest`. -/
structure AuthFinishRequest (B : Type) where
  userId : B
  challengeId : B
  clientNonce : B
  serverNonce : B
  expiresAtUnix : UInt64 := 0
  signatureMldsa65 : B
  deriving DecidableEq, Repr

/-- `AuthFinishResponse`. -/
structure AuthFinishResponse (B : Type) where
  sessionToken : B
  expiresAtUnix : UInt64 := 0
  deriving DecidableEq, Repr

/-- `AuthenticatedPayload`. -/
structure AuthenticatedPayload (B : Type) where
  sessionToken : B
  payload : B
  deriving DecidableEq, Repr

/-- `EnqueueRequest`. -/
structure EnqueueRequest (B : Type) where
  userId : B
  envelope : Envelope B
  deriving DecidableEq, Repr

/-- `DrainInboxRequest`. -/
structure DrainInboxRequest (B : Type) where
  userId : B
  ackUpToInboxId : Option UInt64
  deriving DecidableEq, Repr

/-! ## 2. Signed strings -/

section Signed

variable [ByteString B]

def buildTransportAuthSignInput (userId clientNonce serverNonce challengeId : B)
    (expiresAtUnix : UInt64) : B :=
  let out := appendBytes empty (text "pqchat_transport_auth_v1")
  let out := appendBytes out userId
  let out := appendBytes out clientNonce
  let out := appendBytes out serverNonce
  let out := appendBytes out challengeId
  appendUint64 out expiresAtUnix

def buildTransportRegisterSignInput (userId newTransportAuthPublicKey : B) : B :=
  let out := appendBytes empty (text "pqchat_transport_register_v1")
  let out := appendBytes out userId
  appendBytes out newTransportAuthPublicKey

def buildTransportRegisterRotateSignInput
    (userId existingTransportAuthPublicKey newTransportAuthPublicKey : B) : B :=
  let out := appendBytes empty (text "pqchat_transport_register_rotate_v1")
  let out := appendBytes out userId
  let out := appendBytes out existingTransportAuthPublicKey
  appendBytes out newTransportAuthPublicKey

end Signed

end PqChat
