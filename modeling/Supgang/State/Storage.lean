/-
# State.Storage — the identity file and the pending file

`storage.rs`: the two protected key files of a state directory. Both are a magic, the keys and a
checksum of what comes before it, and both are read whole or not at all.

* `decodeIdentity_encodeIdentity`, `decodePending_encodePending` — what was written reads back.
* `decodeIdentity_part` — a file that was not written to its end is refused.
-/
import Supgang.State.Event

namespace Supgang.State

set_option autoImplicit false

open Theory List

def identityMagic : Bytes := utf8 "SUPGKEY3"
def identityDomain : Bytes := utf8 "supgang/identity-file/v3\x00"
def keyBytes : Nat := 32
def checksumBytes : Nat := 32
def rootPresentBytes : Nat := 1
def identityFileBytes : Nat :=
  identityMagic.length + rootPresentBytes + keyBytes + keyBytes + keyBytes + checksumBytes
def pendingMagic : Bytes := utf8 "SUPGPND1"
def pendingDomain : Bytes := utf8 "supgang/pending-identity/v1\x00"
def pendingFileBytes : Nat := pendingMagic.length + keyBytes + keyBytes + checksumBytes

@[simp] theorem pendingMagic_length : pendingMagic.length = 8 := by decide +kernel

/-- `bytes[start..start + length]`. -/
def field (bytes : Bytes) (start length : Nat) : Bytes := (bytes.drop start).take length

theorem field_append {before part rest : Bytes} {start length : Nat}
    (hstart : before.length = start) (hlength : part.length = length) :
    field (before ++ (part ++ rest)) start length = part := by
  subst hstart hlength
  rw [field, drop_left, take_left]

section Files

variable [Sha256]

def identityChecksum (data : Bytes) : Digest := Sha256.digest (identityDomain ++ data)

def pendingChecksum (data : Bytes) : Digest := Sha256.digest (pendingDomain ++ data)

/-! ## The pending file -/

/-- What `write_pending` writes ahead of the checksum. -/
def pendingData (pending : PendingIdentity) : Bytes :=
  pendingMagic ++ (pending.device.seed.1 ++ pending.requestNonce.1)

def encodePending (pending : PendingIdentity) : Bytes :=
  pendingData pending ++ (pendingChecksum (pendingData pending)).1

def decodePending (bytes : Bytes) : Except StorageError PendingIdentity := do
  reject (bytes.length ≠ pendingFileBytes ∨ bytes.take pendingMagic.length ≠ pendingMagic)
    StorageError.invalidPendingIdentity
  let dataEnd := pendingMagic.length + keyBytes + keyBytes
  reject ((pendingChecksum (bytes.take dataEnd)).1 ≠ bytes.drop dataEnd)
    StorageError.invalidPendingIdentity
  let deviceStart := pendingMagic.length
  let deviceEnd := deviceStart + keyBytes
  let seed ← okOr (FixedBytes.ofBytes? 32 (field bytes deviceStart keyBytes))
    (StorageError.identity .invalidKeyLength)
  let requestNonce ← okOr (FixedBytes.ofBytes? 32 (field bytes deviceEnd keyBytes))
    StorageError.invalidPendingIdentity
  return { device := ⟨seed⟩, requestNonce }

theorem decodePending_encodePending (pending : PendingIdentity) :
    decodePending (encodePending pending) = .ok pending := by
  have hseed := pending.device.seed.2
  have hnonce := pending.requestNonce.2
  have hsum := (pendingChecksum (pendingData pending)).2
  have hdata : (pendingData pending).length = pendingMagic.length + keyBytes + keyBytes := by
    simp [pendingData, hseed, hnonce, keyBytes]
  have hlength : (encodePending pending).length = pendingFileBytes := by
    rw [encodePending, length_append, hdata, hsum]
    rfl
  have hmagic : (encodePending pending).take pendingMagic.length = pendingMagic := by
    rw [encodePending, pendingData, append_assoc, take_left]
  have hfields : encodePending pending = pendingMagic ++ (pending.device.seed.1 ++
      (pending.requestNonce.1 ++ (pendingChecksum (pendingData pending)).1)) := by
    rw [encodePending, pendingData, append_assoc, append_assoc]
  have hdevice : field (encodePending pending) pendingMagic.length keyBytes =
      pending.device.seed.1 := by
    rw [hfields]
    exact field_append rfl hseed
  have hrequest : field (encodePending pending) (pendingMagic.length + keyBytes) keyBytes =
      pending.requestNonce.1 := by
    rw [hfields, ← append_assoc]
    exact field_append (by rw [length_append, hseed]; rfl) hnonce
  rw [decodePending, reject_bind, if_neg (by
    rw [not_or, not_not, not_not]
    exact ⟨hlength, hmagic⟩)]
  simp only [reject_bind]
  rw [← hdata, if_neg (by rw [encodePending, take_left, drop_left]; simp), hdevice,
    hrequest]
  simp only [FixedBytes.ofBytes?_val, okOr_some, ok_bind]
  rfl

variable [Ed25519]

/-! ## The identity file -/

/-- Whether the root secret is in the file. -/
def rootMarker (identity : LocalIdentity) : UInt8 := if identity.root.isSome then 1 else 0

/-- The root secret, or as many zeros. -/
def rootSecret (identity : LocalIdentity) : Bytes :=
  match identity.root with
  | some root => root.seed.1
  | none => List.replicate keyBytes 0

/-- What `write_identity` writes ahead of the checksum. -/
def identityData (identity : LocalIdentity) : Bytes :=
  identityMagic ++ ([rootMarker identity] ++ (identity.rootVerifyingKey.1 ++
    (rootSecret identity ++ identity.device.seed.1)))

def encodeIdentity (identity : LocalIdentity) : Bytes :=
  identityData identity ++ (identityChecksum (identityData identity)).1

/-- The root secret behind the marker, checked against the root key of the file. -/
def readRoot (rootKey : VerifyingKey) (marker : Option UInt8) (secret : Bytes) :
    Except StorageError { root : Option RootIdentity //
      ∀ secret ∈ root, rootKey = secret.verifyingKey } :=
  match marker with
  | some 0 =>
    if secret.all (· == 0) then .ok ⟨none, rootless rootKey⟩ else .error .invalidIdentityFile
  | some 1 => do
      let seed ← okOr (FixedBytes.ofBytes? 32 secret) (StorageError.identity .invalidKeyLength)
      if h : (RootIdentity.mk seed).verifyingKey = rootKey then
        .ok ⟨some ⟨seed⟩, by simp [h]⟩
      else .error .invalidIdentityFile
  | _ => .error .invalidIdentityFile

def decodeIdentity (bytes : Bytes) : Except StorageError LocalIdentity := do
  reject (bytes.length ≠ identityFileBytes ∨ bytes.take identityMagic.length ≠ identityMagic)
    StorageError.invalidIdentityFile
  let dataEnd := identityMagic.length + rootPresentBytes + keyBytes + keyBytes + keyBytes
  reject ((identityChecksum (bytes.take dataEnd)).1 ≠ bytes.drop dataEnd)
    StorageError.invalidIdentityFile
  let markerIndex := identityMagic.length
  let rootKeyStart := markerIndex + rootPresentBytes
  let rootKeyEnd := rootKeyStart + keyBytes
  let rootSecretEnd := rootKeyEnd + keyBytes
  let rootVerifyingKey ← okOr (FixedBytes.ofBytes? 32 (field bytes rootKeyStart keyBytes))
    StorageError.invalidIdentityFile
  reject (¬Ed25519.wellFormed rootVerifyingKey) StorageError.invalidIdentityFile
  let root ← readRoot rootVerifyingKey bytes[markerIndex]? (field bytes rootKeyEnd keyBytes)
  let seed ← okOr (FixedBytes.ofBytes? 32 (field bytes rootSecretEnd keyBytes))
    (StorageError.identity .invalidKeyLength)
  return {
    root := root.1
    rootVerifyingKey
    device := ⟨seed⟩
    hiveId := HiveId.fromRootVerifyingKey rootVerifyingKey
    root_key := root.2
    hive_key := rfl }

theorem rootSecret_length (identity : LocalIdentity) :
    (rootSecret identity).length = keyBytes := by
  unfold rootSecret
  split
  · rename_i root _
    exact root.seed.2
  · exact length_replicate

theorem identityData_length (identity : LocalIdentity) : (identityData identity).length =
    identityMagic.length + rootPresentBytes + keyBytes + keyBytes + keyBytes := by
  have hkey := identity.rootVerifyingKey.2
  have hseed := identity.device.seed.2
  simp only [identityData, length_append, hkey, hseed, rootSecret_length, length_cons,
    length_nil]
  rfl

theorem encodeIdentity_length (identity : LocalIdentity) :
    (encodeIdentity identity).length = identityFileBytes := by
  rw [encodeIdentity, length_append, identityData_length,
    (identityChecksum (identityData identity)).2]
  rfl

/-- A file that was not written to its end does not decode. -/
theorem decodeIdentity_part {identity : LocalIdentity} {part : Bytes}
    (ahead : part <+: encodeIdentity identity) (proper : part ≠ encodeIdentity identity) :
    decodeIdentity part = .error .invalidIdentityFile := by
  have hshort : part.length ≠ identityFileBytes := by
    intro h
    exact proper (ahead.eq_of_length (h.trans (encodeIdentity_length identity).symm))
  rw [decodeIdentity, reject_bind, if_pos (.inl hshort)]

theorem readRoot_rootSecret (identity : LocalIdentity) :
    readRoot identity.rootVerifyingKey (some (rootMarker identity)) (rootSecret identity) =
      .ok ⟨identity.root, identity.root_key⟩ := by
  obtain ⟨root, key, device, hive, root_key, hive_key⟩ := identity
  cases root with
  | none => simp [readRoot, rootMarker, rootSecret]
  | some root =>
    have hkey : (RootIdentity.mk root.seed).verifyingKey = key := (root_key root rfl).symm
    simp [readRoot, rootMarker, rootSecret, ok_bind, hkey]

/-- **Round trip** of the identity file. -/
theorem decodeIdentity_encodeIdentity {identity : LocalIdentity}
    (formed : Ed25519.wellFormed identity.rootVerifyingKey = true) :
    decodeIdentity (encodeIdentity identity) = .ok identity := by
  have hkey := identity.rootVerifyingKey.2
  have hseed := identity.device.seed.2
  have hsecret := rootSecret_length identity
  have hfields : encodeIdentity identity = identityMagic ++ ([rootMarker identity] ++
      (identity.rootVerifyingKey.1 ++ (rootSecret identity ++ (identity.device.seed.1 ++
        (identityChecksum (identityData identity)).1)))) := by
    rw [encodeIdentity]
    nth_rewrite 1 [identityData]
    simp only [append_assoc]
  have hmagic : (encodeIdentity identity).take identityMagic.length = identityMagic := by
    rw [hfields, take_left]
  have hmark : (encodeIdentity identity)[identityMagic.length]? = some (rootMarker identity) := by
    rw [hfields, List.getElem?_append_right le_rfl, Nat.sub_self]
    rfl
  have hrootKey : field (encodeIdentity identity) (identityMagic.length + rootPresentBytes)
      keyBytes = identity.rootVerifyingKey.1 := by
    rw [hfields, ← append_assoc identityMagic]
    exact field_append (length_append ..) hkey
  have hrootSecret : field (encodeIdentity identity)
      (identityMagic.length + rootPresentBytes + keyBytes) keyBytes = rootSecret identity := by
    rw [hfields, ← append_assoc identityMagic, ← append_assoc (identityMagic ++ _)]
    exact field_append (by simp only [length_append, hkey]; rfl) hsecret
  have hdevice : field (encodeIdentity identity)
      (identityMagic.length + rootPresentBytes + keyBytes + keyBytes) keyBytes =
        identity.device.seed.1 := by
    rw [hfields, ← append_assoc identityMagic, ← append_assoc (identityMagic ++ _),
      ← append_assoc (identityMagic ++ _ ++ _)]
    exact field_append (by simp only [length_append, hkey, hsecret]; rfl) hseed
  rw [decodeIdentity, reject_bind, if_neg (by
    rw [not_or, not_not, not_not]
    exact ⟨encodeIdentity_length identity, hmagic⟩)]
  simp only [reject_bind]
  rw [← identityData_length identity,
    if_neg (by rw [encodeIdentity, take_left, drop_left]; simp), hrootKey]
  simp only [FixedBytes.ofBytes?_val, okOr_some, ok_bind, formed, not_true_eq_false, if_false,
    hmark, hrootSecret, readRoot_rootSecret, hdevice]
  obtain ⟨root, key, device, hive, root_key, rfl⟩ := identity
  rfl

end Files

end Supgang.State
