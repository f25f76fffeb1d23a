/-
# Crypto — the primitives the program takes from elsewhere

SHA-256, Ed25519, P-256 and FROST are libraries the program links; the development is parametric in
them. A
class carries the functions, and what is assumed of them is a named proposition that each result
lists among its hypotheses: nothing here is assumed of every instance.

* `Sha256.digest` — one-shot hashing. The incremental hasher of the source absorbs bytes and
  finalizes to the digest of everything absorbed, so a hasher is modelled by what it absorbed.
* `CollisionFree seen` — no two different strings of `seen` share a digest. It is a statement about
  the strings of one run; no function into 32 bytes is injective on all strings.
* `Ed25519` — key derivation, key parsing, the weak-key test, signing and strict verification;
  `Ed25519.Correct` says that a signature made with a key verifies under its public half.
* `P256` — point and signature parsing, and verification of a prehashed message.
* `Frost` — the two rounds of threshold signing and the serializations the program stores. Nothing
  is assumed of the shares it yields.
-/
import Supgang.Theory.Bytes

namespace Supgang

set_option autoImplicit false

open Theory

/-- A SHA-256 digest. -/
abbrev Digest := FixedBytes 32

class Sha256 where
  digest : Bytes → Digest

/-- No two different strings of `seen` share a digest. -/
def CollisionFree [Sha256] (seen : Set Bytes) : Prop := Set.InjOn Sha256.digest seen

/-- An Ed25519 secret seed. -/
abbrev SecretKey := FixedBytes 32

/-- The 32 bytes of an Ed25519 public key. -/
abbrev VerifyingKey := FixedBytes 32

/-- The 64 bytes of an Ed25519 signature. -/
abbrev Signature := FixedBytes 64

class Ed25519 where
  verifyingKey : SecretKey → VerifyingKey
  /-- `VerifyingKey::from_bytes` accepts these bytes. -/
  wellFormed : VerifyingKey → Bool
  isWeak : VerifyingKey → Bool
  sign : SecretKey → Bytes → Signature
  verifyStrict : VerifyingKey → Bytes → Signature → Bool

/-- A generated key parses, is not weak, and its signatures verify. -/
structure Ed25519.Correct [Ed25519] : Prop where
  wellFormed : ∀ secret, Ed25519.wellFormed (Ed25519.verifyingKey secret) = true
  strong : ∀ secret, Ed25519.isWeak (Ed25519.verifyingKey secret) = false
  verifies : ∀ secret message,
    Ed25519.verifyStrict (Ed25519.verifyingKey secret) message (Ed25519.sign secret message) = true

/-! ## P-256 -/

class P256 where
  /-- The 33 bytes are a compressed point on the curve, in its one encoding. -/
  onCurve : FixedBytes 33 → Bool
  /-- The 64 bytes are `r || s` in range, with low `s`. -/
  lowS : FixedBytes 64 → Bool
  verifyPrehash : FixedBytes 33 → Digest → FixedBytes 64 → Bool

/-! ## FROST -/

/-- Key material and messages of two-round threshold signing, as opaque types. -/
class FrostTypes where
  Identifier : Type
  VerifyingShare : Type
  GroupKey : Type
  SigningShare : Type
  SigningNonces : Type
  SigningCommitments : Type
  SignatureShare : Type
  identifierEq : DecidableEq Identifier
  verifyingShareEq : DecidableEq VerifyingShare
  groupKeyEq : DecidableEq GroupKey

namespace Frost

variable [FrostTypes]

instance : DecidableEq FrostTypes.Identifier := FrostTypes.identifierEq
instance : DecidableEq FrostTypes.VerifyingShare := FrostTypes.verifyingShareEq
instance : DecidableEq FrostTypes.GroupKey := FrostTypes.groupKeyEq

/-- One participant's long-term share. -/
structure KeyPackage where
  identifier : FrostTypes.Identifier
  signingShare : FrostTypes.SigningShare
  verifyingShare : FrostTypes.VerifyingShare
  verifyingKey : FrostTypes.GroupKey
  minSigners : UInt16

/-- The public outputs of key generation. -/
structure PublicKeyPackage where
  verifyingShares : List (FrostTypes.Identifier × FrostTypes.VerifyingShare)
  verifyingKey : FrostTypes.GroupKey

/-- The message and the commitments of the signers, one for each identifier. -/
structure SigningPackage where
  signingCommitments : List (FrostTypes.Identifier × FrostTypes.SigningCommitments)
  message : Bytes

end Frost

class Frost extends FrostTypes where
  /-- `Identifier::try_from`: refuses zero. -/
  identifier : UInt16 → Option Identifier
  deserializeVerifyingShare : FixedBytes 32 → Option VerifyingShare
  deserializeVerifyingKey : FixedBytes 32 → Option GroupKey
  serializePackage : Frost.SigningPackage → Option Bytes
  serializeCommitments : SigningCommitments → Option Bytes
  serializeShare : SignatureShare → Bytes
  deserializeShare : Bytes → Option SignatureShare
  /-- Round one, from the seed of the generator it draws on. -/
  commit : SigningShare → FixedBytes 32 → SigningNonces × SigningCommitments
  /-- Round two. -/
  sign : Frost.SigningPackage → SigningNonces → Frost.KeyPackage → Option SignatureShare

end Supgang
