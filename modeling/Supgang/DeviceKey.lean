/-
# DeviceKey — P-256 device keys and signatures in their one encoding

`device_key/mod.rs`. A key or a signature exists only once its bytes have been checked, so both
carry that check; a signature is over the hash of a domain separator and the message.

* `DevicePublicKey.fromBytes_toBytes`, `DeviceSignature.fromBytes_toBytes` — reading back the bytes
  of a key or a signature returns it.
-/
import Supgang.Hive.Identity
import Supgang.Theory.Program

namespace Supgang

set_option autoImplicit false

open Theory

/-- A key or signature that is not what P-256 requires. -/
inductive DeviceKeyError where
  | custodyRefused
  | invalidPublicKey
  | invalidSignature
  | invalidSecret
  | random
deriving DecidableEq, Repr

/-- Self-reported custody of a subordinate key. -/
inductive SubjectCustody where
  | hardware
  | file
  | synced
deriving DecidableEq, Repr

section Keys

variable [P256]

/-- A device's P-256 public key: a compressed point on the curve. -/
structure DevicePublicKey where
  bytes : FixedBytes 33
  onCurve : P256.onCurve bytes = true
deriving DecidableEq

/-- A P-256 signature: `r || s` with low `s`. -/
structure DeviceSignature where
  bytes : FixedBytes 64
  lowS : P256.lowS bytes = true
deriving DecidableEq

def DevicePublicKey.fromBytes (bytes : Bytes) : Except DeviceKeyError DevicePublicKey :=
  match FixedBytes.ofBytes? 33 bytes with
  | none => .error .invalidPublicKey
  | some array =>
    if h : P256.onCurve array = true then .ok ⟨array, h⟩ else .error .invalidPublicKey

def DeviceSignature.fromBytes (bytes : Bytes) : Except DeviceKeyError DeviceSignature :=
  match FixedBytes.ofBytes? 64 bytes with
  | none => .error .invalidSignature
  | some array => if h : P256.lowS array = true then .ok ⟨array, h⟩ else .error .invalidSignature

@[simp] theorem DevicePublicKey.fromBytes_toBytes (key : DevicePublicKey) :
    DevicePublicKey.fromBytes key.bytes.1 = .ok key := by
  simp only [DevicePublicKey.fromBytes, FixedBytes.ofBytes?_val, dif_pos key.onCurve]

@[simp] theorem DeviceSignature.fromBytes_toBytes (signature : DeviceSignature) :
    DeviceSignature.fromBytes signature.bytes.1 = .ok signature := by
  simp only [DeviceSignature.fromBytes, FixedBytes.ofBytes?_val, dif_pos signature.lowS]

/-- The bytes a node identity is derived from: the algorithm name, then the key. -/
def DevicePublicKey.identityBytes (key : DevicePublicKey) : Bytes := utf8 "p256" ++ key.bytes.1

variable [Sha256]

/-- Verifies a domain-separated signature; the key and the signature have been parsed already. -/
def DevicePublicKey.verifyDomain (key : DevicePublicKey) (domain message : Bytes)
    (signature : DeviceSignature) : Except DeviceKeyError Unit :=
  reject (¬P256.verifyPrehash key.bytes (Sha256.digest (domain ++ message)) signature.bytes)
    DeviceKeyError.invalidSignature

end Keys

end Supgang
