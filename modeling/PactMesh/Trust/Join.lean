import PactMesh.Lib.Outcome
import PactMesh.Trust.MemberCert

/-!
# Join requests

A device that wants to join a network signs a request with its own key.  Everyone who passes the
request on checks the signature; whether the key is one is only found out there, by a panic.
-/

namespace PactMesh

structure JoinRequest where
  trustDomainId : TrustDomainId
  networkLocalId : NetworkLocalId
  applicantPk : Bytes32
  deviceLabel : String
  hint : String
  nonce : List UInt8
  applicantSignature : List UInt8
deriving DecidableEq

structure JoinSuite extends TrustSuite where
  joinFromCbor : List UInt8 → Option JoinRequest
  /-- the canonical CBOR of all but the signature -/
  marshalJoinForSigning : JoinRequest → List UInt8
  /-- `VerifyingKey::from_bytes` succeeds -/
  isVerifyingKey : Bytes32 → Bool

inductive SignatureError
  | invalid
deriving DecidableEq

/-- `JoinVerifyError`, as far as it is used. -/
inductive JoinVerifyError
  | badSignature
deriving DecidableEq

variable (J : JoinSuite)

/-- `verify_signature`; bytes that are no key make it panic. -/
def verifySignature (pk : Bytes32) (msg sig : List UInt8) : Outcome (Except SignatureError Unit) := do
  Outcome.ensure (J.isVerifyingKey pk) .unwrapNone
  return if J.verify pk msg sig then .ok () else .error .invalid

def JoinRequest.verifySelfSignature (jr : JoinRequest) : Outcome (Except JoinVerifyError Unit) := do
  if jr.applicantSignature.length ≠ 64 then return .error .badSignature
  let result ← verifySignature J jr.applicantPk (J.marshalJoinForSigning jr) jr.applicantSignature
  return result.mapError fun _ => .badSignature

/-- `decode_verified_join`, where a panic can be caught. -/
def decodeVerifiedJoin (innerCbor : List UInt8) : Option JoinRequest :=
  (J.joinFromCbor innerCbor).filter fun jr =>
    match jr.verifySelfSignature J with
    | .returns (.ok ()) => true
    | .returns (.error _) | .panics _ => false

end PactMesh
