/-
# State.Documents — the documents of a hive and their encodings

Seven formats carry what the members of a hive sign, store and send. Each decoder encodes again what
it has read, so that a string it accepts is the one encoding of a document. The encoders are less
strict: the shape of a membership, the signature of a join request and the flow label and scope of
an address are left to the decoders.

* `Unambiguous` — one encoding of each good document, and one document for each string.
* `hive_documents_unambiguous` — **every hive document has one encoding**.
* `scoped_claim_changes` — a claim about a link-local address loses its scope on the way.
-/
import Supgang.Hive.Reachability
import Supgang.State.Publication
import Supgang.Update.Authorization

namespace Supgang.State

set_option autoImplicit false

open Theory Supgang.Membership Supgang.Revocation Supgang.Invitation Supgang.Record
  Supgang.Reachability Supgang.Update Supgang.Journal

/-- Decoding undoes the encoding of good documents, decodes good documents only, and never decodes
two strings to the same document. -/
structure Unambiguous {α ε ε' : Type} (good : α → Prop) (encode : α → Except ε Bytes)
    (decode : Bytes → Except ε' α) : Prop extends OneEncodingOf good encode decode where
  decode_injective : ∀ (a b : Bytes) (value : α),
    decode a = .ok value → decode b = .ok value → a = b

section Documents

variable {α ε ε' : Type} {good : α → Prop} {encode : α → Except ε Bytes}
  {decode : Bytes → Except ε' α}

theorem unambiguous (one : OneEncodingOf good encode decode) :
    Unambiguous good encode decode where
  toOneEncodingOf := one
  decode_injective _ _ _ := one.decode_injective

/-- Where the encoder makes every check of the decoder. -/
theorem unambiguous_of_oneEncoding (one : OneEncoding encode decode) :
    Unambiguous (fun _ => True) encode decode :=
  unambiguous ⟨fun _ => one.decode_encode, fun decoded => ⟨trivial, one.encode_decode decoded⟩⟩

variable [Sha256] [Ed25519]

/-- **Every hive document has one encoding**: what its encoder writes for a document that its shape
rules and those of the documents inside it allow, its decoder reads back; what its decoder accepts,
its encoder writes; and different strings are different documents. A join request is in addition
one that proves possession of its key. A claim reads back exactly if its address carries neither
flow label nor scope. -/
theorem hive_documents_unambiguous :
    Unambiguous (fun signed : SignedMembership => signed.certificate.validateShape = .ok ())
      encodeSignedMembership decodeSignedMembership ∧
    Unambiguous (fun _ => True) encodeSignedRevocations decodeSignedRevocations ∧
    Unambiguous (fun claim : ReachabilityClaim => claim.Shaped ∧ claim.address.Unscoped)
      encodeClaim decodeClaim ∧
    (∀ (claim : ReachabilityClaim) (encoded : Bytes), claim.Shaped → encodeClaim claim = .ok encoded →
      (decodeClaim encoded = .ok claim ↔ claim.address.Unscoped)) ∧
    Unambiguous (fun request : JoinRequest => ∃ key, request.verify = .ok key)
      encodeJoinRequest decodeJoinRequest ∧
    Unambiguous (fun bundle : JoinBundle => bundle.membership.certificate.validateShape = .ok ())
      encodeJoinBundle decodeJoinBundle ∧
    Unambiguous StateEvent.Shaped encodeEvent decodeEvent ∧
    Unambiguous (fun _ => True) encodeAuthorization decodeAuthorization := by
  refine ⟨unambiguous Membership.signed_oneEncoding,
    unambiguous_of_oneEncoding Revocation.signed_oneEncoding, unambiguous claim_oneEncoding, ?_,
    unambiguous request_oneEncoding, unambiguous bundle_oneEncoding,
    unambiguous event_oneEncoding, unambiguous_of_oneEncoding authorization_oneEncoding⟩
  intro claim encoded shaped hencode
  constructor
  · intro hdecode
    exact (claim_oneEncoding.encode_decode hdecode).1.2
  · intro unscoped
    exact claim_oneEncoding.decode_encode ⟨shaped, unscoped⟩ hencode

end Documents

/-! ## A claim that does not read back -/

attribute [local instance] countingSha256 acceptingEd25519

/-- The computer that saw the address. -/
def observer : DeviceIdentity := ⟨FixedBytes.replicate 32 2⟩

def observerMembership : SignedMembership where
  certificate :=
    { version := membershipVersion
      hiveId := RootIdentity.hiveId ⟨FixedBytes.replicate 32 1⟩
      nodeId := observer.nodeId
      deviceVerifyingKey := observer.verifyingKey
      serial := 1
      issuedAt := 0
      expiresAt := 3600
      roles := .device
      admissionNonce := FixedBytes.replicate 32 0 }
  signature := List.replicate 64 0

/-- The observer's report of a neighbour's link-local address on its second interface. -/
def observedClaim : ReachabilityClaim where
  hiveId := observerMembership.certificate.hiveId
  subject := FixedBytes.replicate 32 9
  reporter := observer.nodeId
  reporterMembership := observerMembership
  address := (linkLocal 2).address
  source := .peerObserved
  issuedAt := 0
  expiresAt := maxClaimLifetimeSeconds
  signature := List.replicate 64 0

/-- The report is signed, well shaped, verified and encoded, and what is read back is another
claim. -/
theorem scoped_claim_changes :
    ReachabilityClaim.sign observerMembership observer (FixedBytes.replicate 32 9)
      (linkLocal 2).address .peerObserved 0 = .ok observedClaim ∧
    observedClaim.Shaped ∧
    observedClaim.verify (RootIdentity.verifyingKey ⟨FixedBytes.replicate 32 1⟩) 0 = .ok () ∧
    ∃ encoded, encodeClaim observedClaim = .ok encoded ∧
      decodeClaim encoded ≠ .ok observedClaim := by
  have shaped : observedClaim.Shaped := ⟨by decide +kernel, by decide +kernel⟩
  refine ⟨by decide +kernel, shaped, by decide +kernel, claimBytes observedClaim,
    encodeClaim_eq_ok.mpr ⟨rfl, by decide +kernel, rfl⟩, fun decoded => ?_⟩
  have unscoped := (claim_oneEncoding.encode_decode decoded).1.2
  exact absurd unscoped.2 (by decide)

end Supgang.State
