/-
# Hive.Identity — identifiers, device and root identities, domain-separated signatures

`ids.rs`, `identity.rs` and the identity records of `storage.rs`. An identifier is the hash of the
key it names under a domain of its own, so a hive or a node is named by its key; every signature
is over a domain separator followed by the message.

* `verifyDomain_signDomain` — a domain signature made with a key verifies under it.
-/
import Supgang.Crypto

namespace Supgang

set_option autoImplicit false

open Theory

abbrev HiveId := FixedBytes 32
abbrev NodeId := FixedBytes 32
abbrev TransportKeyId := FixedBytes 32

/-- A device's long-term signing identity. -/
structure DeviceIdentity where
  seed : SecretKey
deriving DecidableEq, Repr

/-- A hive's root signing identity. -/
structure RootIdentity where
  seed : SecretKey
deriving DecidableEq, Repr

/-- A locally protected device key awaiting root authorization. -/
structure PendingIdentity where
  device : DeviceIdentity
  requestNonce : FixedBytes 32
deriving DecidableEq, Repr

section Identifiers

variable [Sha256]

def domainHash (domain material : Bytes) : FixedBytes 32 := Sha256.digest (domain ++ material)

def HiveId.fromRootVerifyingKey (key : VerifyingKey) : HiveId :=
  domainHash (utf8 "supgang/hive-id/v1\x00") key.1

def NodeId.fromVerifyingKey (key : VerifyingKey) : NodeId :=
  domainHash (utf8 "supgang/node-id/v1\x00") key.1

end Identifiers

section Signatures

variable [Ed25519]

def DeviceIdentity.verifyingKey (device : DeviceIdentity) : VerifyingKey :=
  Ed25519.verifyingKey device.seed

def DeviceIdentity.signDomain (device : DeviceIdentity) (domain message : Bytes) : Signature :=
  Ed25519.sign device.seed (domain ++ message)

def RootIdentity.verifyingKey (root : RootIdentity) : VerifyingKey :=
  Ed25519.verifyingKey root.seed

def RootIdentity.signDomain (root : RootIdentity) (domain message : Bytes) : Signature :=
  Ed25519.sign root.seed (domain ++ message)

/-- Verifies a domain-separated Ed25519 signature. -/
def verifyDomain (key : VerifyingKey) (domain message : Bytes) (signature : Signature) : Bool :=
  Ed25519.verifyStrict key (domain ++ message) signature

theorem verifyDomain_signDomain (correct : Ed25519.Correct) (root : RootIdentity)
    (domain message : Bytes) :
    verifyDomain root.verifyingKey domain message (root.signDomain domain message) = true :=
  correct.verifies root.seed (domain ++ message)

theorem verifyDomain_device (correct : Ed25519.Correct) (device : DeviceIdentity)
    (domain message : Bytes) :
    verifyDomain device.verifyingKey domain message (device.signDomain domain message) = true :=
  correct.verifies device.seed (domain ++ message)

variable [Sha256]

def DeviceIdentity.nodeId (device : DeviceIdentity) : NodeId :=
  NodeId.fromVerifyingKey device.verifyingKey

def RootIdentity.hiveId (root : RootIdentity) : HiveId :=
  HiveId.fromRootVerifyingKey root.verifyingKey

/-- The protected identity of one member. Every place that builds one (a new hive, an installed
join, the identity file) derives the hive from the root key and the root key from the root
secret, where it is present. -/
structure LocalIdentity where
  /-- Retained only where admission authority is enabled. -/
  root : Option RootIdentity
  rootVerifyingKey : VerifyingKey
  device : DeviceIdentity
  hiveId : HiveId
  root_key : ∀ secret ∈ root, rootVerifyingKey = secret.verifyingKey
  hive_key : hiveId = HiveId.fromRootVerifyingKey rootVerifyingKey
deriving DecidableEq

/-- The identity of a new hive. -/
def LocalIdentity.founder (root : RootIdentity) (device : DeviceIdentity) : LocalIdentity where
  root := some root
  rootVerifyingKey := root.verifyingKey
  device
  hiveId := root.hiveId
  root_key secret h := by rw [Option.mem_some_iff.mp h]
  hive_key := rfl

omit [Sha256] in
theorem rootless (key : VerifyingKey) :
    ∀ secret ∈ (none : Option RootIdentity), key = secret.verifyingKey := by
  simp

/-- The identity an installed join leaves: the root key without its secret. -/
def LocalIdentity.joined (pending : PendingIdentity) (rootVerifyingKey : VerifyingKey) :
    LocalIdentity where
  root := none
  rootVerifyingKey
  device := pending.device
  hiveId := HiveId.fromRootVerifyingKey rootVerifyingKey
  root_key := rootless rootVerifyingKey
  hive_key := rfl

end Signatures

end Supgang
