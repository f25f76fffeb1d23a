/-
# Threshold.Founding — group descriptors and the founding digest

`threshold.rs` and the public outputs of `threshold/founding.rs`. A signing group is known by its
descriptor: label, quorum, share generation, participants and group key, in one canonical encoding
whose hash names the group. A recovery descriptor adds its own monotonic history. The key
generation itself runs inside the linked library and is not modelled.

* `foundingBytes_head` — the founding digest is over an array of three items, so it is never the
  content of a step.
-/
import Supgang.DeviceKey
import Supgang.Theory.Cbor

namespace Supgang.Threshold

set_option autoImplicit false

open Theory

/-- Maximum participants in either signing group. -/
def maxParticipants : Nat := 16
/-- Maximum encoded step, including opaque operation payload. -/
def maxStepBytes : Nat := 16 * 1024
/-- Maximum retained chain entries, pending entries, or session records. -/
def maxRecords : Nat := 256

/-- Failure without secret-bearing diagnostic data. -/
inductive Error where
  /-- Invalid parameters, encoding or state transition. -/
  | invalid
  /-- A finite resource or counter is exhausted. -/
  | bound
  /-- No affirmative presence callback result. -/
  | presence
  /-- A predecessor or session is already reserved. -/
  | locked
  /-- Authority belongs to another hive, roster or generation. -/
  | authority
  /-- A message, commitment set, or cryptographic proof did not match. -/
  | proof
  /-- A fork was observed and ordinary administration is halted. -/
  | halted
  /-- Durable state could not be safely advanced. -/
  | store
  /-- OS entropy unavailable. -/
  | random
  | frost
  | device (error : DeviceKeyError)
  | decode (error : Cbor.DecodeError)
deriving DecidableEq, Repr

instance : Cbor.FromDecode Error := ⟨.decode⟩

/-! ## Reading helpers -/

def array (size : Nat) : Cbor.Reader Error Unit := Cbor.requireArray .invalid size

def fixed (n : Nat) : Cbor.Reader Error (FixedBytes n) := Cbor.readFixed .invalid n

def count (maximum : Nat) : Cbor.Reader Error Nat := do
  let found ← Cbor.readArray
  let size ← ofExcept (okOr found Error.invalid)
  reject (maximum < size) Error.bound
  return size

def version : Cbor.Reader Error Unit := do
  let found ← Cbor.readU8
  reject (found ≠ 1) Error.invalid

def canonical (input encoded : Bytes) : Except Error Unit := reject (input ≠ encoded) Error.invalid

/-- The member of a closed inventory that a text names. -/
def parseTag {α : Type} (inventory : List α) (text : α → String) (value : String) :
    Except Error α :=
  okOr (inventory.find? fun item => text item = value) Error.invalid

theorem bind_count {β : Type} {size maximum : Nat} (small : size ≤ maximum) (fits : size < 2 ^ 64)
    (f : Nat → Cbor.Reader Error β) (rest : Bytes) :
    (count maximum >>= f).run (Cbor.array size ++ rest) = (f size).run rest := by
  simp only [count, bind_assoc, Cbor.bind_array fits, okOr_some, Cbor.bind_ofExcept,
    Cbor.bind_reject (not_lt.mpr small), pure_bind]

theorem bind_version {β : Type} (f : Unit → Cbor.Reader Error β) (rest : Bytes) :
    (version >>= f).run (Cbor.unsigned 1 ++ rest) = (f ()).run rest := by
  rw [version, bind_assoc]
  exact (Cbor.bind_u8 1 _ rest).trans (Cbor.bind_reject (by simp) _ _ _)

/-! ## Group descriptors -/

variable [Sha256] [Ed25519] [P256] [Frost]

/-- Public participant identity and verifying share. Custody is always `file`. -/
structure Participant where
  /-- Nonzero participant number, assigned by roster order. -/
  id : UInt16
  device : DevicePublicKey
  verifyingShare : FixedBytes 32
deriving DecidableEq

/-- Complete public output of key generation. -/
structure GroupDescriptor where
  /-- Hive label, 1 to 63 visible ASCII bytes. -/
  label : String
  /-- Quorum size. -/
  k : UInt16
  /-- Share generation for session and control-channel binding. -/
  generation : UInt64
  participants : List Participant
  publicKey : VerifyingKey
deriving DecidableEq

/-- `is_ascii_graphic`. -/
def asciiGraphic (byte : UInt8) : Bool := 0x21 ≤ byte && byte ≤ 0x7e

/-- The participants in roster order from number `index + 1` on, no device twice. -/
def validateParticipants : Nat → List DevicePublicKey → List Participant → Except Error Unit
  | _, _, [] => pure ()
  | index, devices, participant :: rest => do
      reject (participant.id.toNat ≠ index + 1 ∨ participant.device ∈ devices) Error.invalid
      let _ ← okOr (Frost.deserializeVerifyingShare participant.verifyingShare) Error.frost
      validateParticipants (index + 1) (participant.device :: devices) rest

def GroupDescriptor.validate (group : GroupDescriptor) : Except Error Unit := do
  reject (group.label = "" ∨ 63 < (utf8 group.label).length ∨
      ¬(utf8 group.label).all asciiGraphic ∨ group.k < 2 ∨
      group.participants.length < group.k.toNat ∨ maxParticipants < group.participants.length)
    Error.invalid
  validateParticipants 0 [] group.participants
  reject (¬Ed25519.wellFormed group.publicKey) Error.proof
  reject (Ed25519.isWeak group.publicKey) Error.proof
  let _ ← okOr (Frost.deserializeVerifyingKey group.publicKey) Error.frost

def participantBytes (participant : Participant) : Bytes :=
  Cbor.array 4 ++ (Cbor.u16 participant.id ++ (Cbor.bytes participant.device.bytes.1 ++
    (Cbor.bytes participant.verifyingShare.1 ++ Cbor.text "file")))

def GroupDescriptor.encode (group : GroupDescriptor) : Except Error Bytes := do
  group.validate
  return Cbor.array 7 ++ (Cbor.unsigned 1 ++ (Cbor.text group.label ++ (Cbor.u16 group.k ++
    (Cbor.unsigned group.participants.length ++ (Cbor.u64 group.generation ++
    (Cbor.array group.participants.length ++
    (group.participants.flatMap participantBytes ++ Cbor.bytes group.publicKey.1)))))))

def readParticipant : Cbor.Reader Error Participant := do
  array 4
  let id ← Cbor.readU16
  let raw ← Cbor.readBytes
  let device ← ofExcept ((DevicePublicKey.fromBytes raw).mapError Error.device)
  let verifyingShare ← fixed 32
  let custody ← Cbor.readText
  reject (custody ≠ "file") Error.invalid
  return { id, device, verifyingShare }

def readGroup : Cbor.Reader Error GroupDescriptor := do
  array 7
  version
  let label ← Cbor.readText
  let k ← Cbor.readU16
  let n ← Cbor.readU16
  let generation ← Cbor.readU64
  let size ← count maxParticipants
  reject (n.toNat ≠ size) Error.invalid
  let participants ← Cbor.readMany readParticipant size
  let publicKey ← fixed 32
  return { label, k, generation, participants, publicKey }

def GroupDescriptor.decode (input : Bytes) : Except Error GroupDescriptor := do
  reject (4096 < input.length) Error.bound
  let (group, _) ← readGroup.run input
  let encoded ← group.encode
  canonical input encoded
  return group

/-- Content identity covering every public output and custody label. -/
def GroupDescriptor.digest (group : GroupDescriptor) : Except Error Digest := do
  let encoded ← group.encode
  return Sha256.digest encoded

def participantShare (participant : Participant) :
    Except Error (FrostTypes.Identifier × FrostTypes.VerifyingShare) := do
  let identifier ← okOr (Frost.identifier participant.id) Error.frost
  let share ← okOr (Frost.deserializeVerifyingShare participant.verifyingShare) Error.frost
  return (identifier, share)

/-- Reconstructs the library's public verification package. -/
def GroupDescriptor.publicPackage (group : GroupDescriptor) :
    Except Error Frost.PublicKeyPackage := do
  group.validate
  let verifyingShares ← group.participants.mapM participantShare
  let verifyingKey ← okOr (Frost.deserializeVerifyingKey group.publicKey) Error.frost
  return { verifyingShares, verifyingKey }

/-! ## Recovery descriptors -/

/-- Recovery descriptor's independent monotonic history. -/
structure RecoveryDescriptor where
  /-- Initial sequence is zero; changes increment exactly once. -/
  sequence : UInt64
  /-- Previous recovery descriptor digest, all zero at founding. -/
  predecessor : Digest
  group : GroupDescriptor
deriving DecidableEq

def RecoveryDescriptor.encode (recovery : RecoveryDescriptor) : Except Error Bytes := do
  let group ← recovery.group.encode
  return Cbor.array 4 ++ (Cbor.unsigned 1 ++ (Cbor.u64 recovery.sequence ++
    (Cbor.bytes recovery.predecessor.1 ++ Cbor.bytes group)))

def readRecovery : Cbor.Reader Error RecoveryDescriptor := do
  array 4
  version
  let sequence ← Cbor.readU64
  let predecessor ← fixed 32
  let raw ← Cbor.readBytes
  let group ← ofExcept (GroupDescriptor.decode raw)
  return { sequence, predecessor, group }

def RecoveryDescriptor.decode (input : Bytes) : Except Error RecoveryDescriptor := do
  reject (4200 < input.length) Error.bound
  let (recovery, _) ← readRecovery.run input
  let encoded ← recovery.encode
  canonical input encoded
  return recovery

def RecoveryDescriptor.digest (recovery : RecoveryDescriptor) : Except Error Digest := do
  let encoded ← recovery.encode
  return Sha256.digest encoded

/-! ## The founding digest -/

/-- The recovery descriptor, absent only while the recovery group itself is being founded. -/
def recoveryItem : Option RecoveryDescriptor → Except Error Bytes
  | some recovery => do
      let encoded ← recovery.encode
      return Cbor.bytes encoded
  | none => pure Cbor.null

/-- What the founding digest is over: the root's descriptor and the separately founded recovery. -/
def foundingBytes (group : GroupDescriptor) (recovery : Option RecoveryDescriptor) :
    Except Error Bytes := do
  let root ← group.encode
  let item ← recoveryItem recovery
  return Cbor.array 3 ++ (Cbor.unsigned 1 ++ (Cbor.bytes root ++ item))

def foundingDigest (group : GroupDescriptor) (recovery : Option RecoveryDescriptor) :
    Except Error Digest := do
  let encoded ← foundingBytes group recovery
  return Sha256.digest encoded

omit [Sha256] in
theorem foundingBytes_head {group : GroupDescriptor} {recovery : Option RecoveryDescriptor}
    {bytes : Bytes} (h : foundingBytes group recovery = .ok bytes) :
    bytes.head? = some 0x83 := by
  simp only [foundingBytes, ok_steps] at h
  obtain ⟨root, -, item, -, rfl⟩ := h
  rfl

end Supgang.Threshold
