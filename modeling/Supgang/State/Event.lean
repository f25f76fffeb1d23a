/-
# State.Event — authoritative state events and their encoding

The event types of `state/event.rs`, their canonical encoding, and the signed checkpoint that
stands for the history a compaction drops. An event is what one journal frame carries.

* `StateEvent.Storable` — the event is one the encoder accepts and the decoder will take back;
  `encodeEvent_ok` and `decodeEvent_eventBytes` are the two halves of the **round trip**, and
  `event_oneEncoding` says that no other string is read as the event.
* `eventBytes_length_le`, `eventBytes_validPayload` — the encoding of a storable event fits one
  journal frame, with the bounds the size of a compacted journal is computed from.
-/
import Supgang.Hive.Invitation
import Supgang.Hive.Record
import Supgang.Journal.Recovery

namespace Supgang.State

set_option autoImplicit false

open Theory List Supgang.Membership Revocation Invitation Record Journal
open Cbor (array bind_reads bytes run_bind_of run_bind_ok u16 u64 u8)

def stateEventVersion : UInt16 := 1
def eventGenesis : UInt8 := 1
def eventSequence : UInt8 := 2
def eventMembership : UInt8 := 3
def eventRevocation : UInt8 := 4
def eventCheckpoint : UInt8 := 5
def checkpointVersion : UInt16 := 1
def checkpointDomain : Bytes := utf8 "supgang/state-checkpoint/v1\x00"
def checkpointSnapshotDomain : Bytes := utf8 "supgang/state-checkpoint-snapshot/v1\x00"
def checkpointSignatureFields : Nat := 7
def genesisFields : Nat := 4
def sequenceFields : Nat := 4
def membershipFields : Nat := 3
def revocationFields : Nat := 3
def checkpointFields : Nat := 9

/-- Key material that is not what an identity needs. -/
inductive IdentityError where
  | random
  | invalidKeyLength
deriving DecidableEq, Repr

/-- The failures of protected storage; of those the file system reports, only a missing file. -/
inductive StorageError where
  | notFound
  | identity (error : IdentityError)
  | alreadyInitialized
  | pendingMissing
  | invalidIdentityFile
  | invalidPendingIdentity
  | journal (error : JournalError)
deriving DecidableEq, Repr

/-- A local state initialization, replay, or transition failure. -/
inductive StateError where
  | storage (error : StorageError)
  | journal (error : JournalError)
  | readOnlySnapshot
  | membership (error : MembershipError)
  | revocation (error : RevocationError)
  | invitation (error : InvitationError)
  | record (error : RecordError)
  | decode (error : Cbor.DecodeError)
  | missingGenesis
  | invalidGenesis
  | identityMismatch
  | nonCanonical
  | invalidEvent
  | invalidSequence
  | invalidCheckpoint
  | invalidMembershipSerial
  | revocationEquivocation
  | revocationRollback
  | duplicateMember
  | revokedMember
  | unknownMember
  | cannotRevokeSelf
  | hiveFull
  | counterExhausted
  | admissionUnavailable
  | joinMismatch
  | unexpectedJoinNode
  | unexpectedJoinHive
  | unauthorizedCapability
deriving DecidableEq, Repr

instance : Cbor.FromDecode StateError := ⟨.decode⟩

inductive StateEvent where
  | genesis (membership : SignedMembership) (revocations : SignedRevocationList)
  | sequence (generation sequence : UInt64)
  | membership (signed : SignedMembership)
  | revocation (signed : SignedRevocationList)
  | checkpoint (hiveId : HiveId) (nodeId : NodeId) (generation sequence : UInt64)
      (snapshotDigest : Digest) (signature : Signature)
deriving DecidableEq, Repr

/-! ## Encoding -/

def encodeEvent (event : StateEvent) : Except StateError Bytes :=
  match event with
  | .genesis membership revocations => do
      let membership ← (encodeSignedMembership membership).mapError StateError.membership
      let revocations ← (encodeSignedRevocations revocations).mapError StateError.revocation
      return Cbor.array genesisFields ++ (Cbor.u16 stateEventVersion ++ (Cbor.u8 eventGenesis ++
        (Cbor.bytes membership ++ Cbor.bytes revocations)))
  | .sequence generation sequence =>
    return Cbor.array sequenceFields ++ (Cbor.u16 stateEventVersion ++ (Cbor.u8 eventSequence ++
      (Cbor.u64 generation ++ Cbor.u64 sequence)))
  | .membership signed => do
      let membership ← (encodeSignedMembership signed).mapError StateError.membership
      return Cbor.array membershipFields ++ (Cbor.u16 stateEventVersion ++
        (Cbor.u8 eventMembership ++ Cbor.bytes membership))
  | .revocation signed => do
      let revocations ← (encodeSignedRevocations signed).mapError StateError.revocation
      return Cbor.array revocationFields ++ (Cbor.u16 stateEventVersion ++
        (Cbor.u8 eventRevocation ++ Cbor.bytes revocations))
  | .checkpoint hiveId nodeId generation sequence snapshotDigest signature =>
    return Cbor.array checkpointFields ++ (Cbor.u16 stateEventVersion ++
      (Cbor.u8 eventCheckpoint ++ (Cbor.u16 checkpointVersion ++ (Cbor.bytes hiveId.1 ++
      (Cbor.bytes nodeId.1 ++ (Cbor.u64 generation ++ (Cbor.u64 sequence ++
      (Cbor.bytes snapshotDigest.1 ++ Cbor.bytes signature.1))))))))

def readFixed (n : Nat) : Cbor.Reader StateError (FixedBytes n) :=
  Cbor.readFixed .invalidCheckpoint n

variable [Sha256]

/-- A nested membership document. -/
def readMembership : Cbor.Reader StateError SignedMembership := do
  let raw ← Cbor.readBytes
  ofExcept ((decodeSignedMembership raw).mapError StateError.membership)

/-- A nested revocation document. -/
def readRevocations : Cbor.Reader StateError SignedRevocationList := do
  let raw ← Cbor.readBytes
  ofExcept ((decodeSignedRevocations raw).mapError StateError.revocation)

def readCheckpoint : Cbor.Reader StateError StateEvent := do
  let version ← Cbor.readU16
  reject (version ≠ checkpointVersion) StateError.invalidCheckpoint
  let hiveId ← readFixed 32
  let nodeId ← readFixed 32
  let generation ← Cbor.readU64
  let sequence ← Cbor.readU64
  let snapshotDigest ← readFixed 32
  let signature ← readFixed 64
  return .checkpoint hiveId nodeId generation sequence snapshotDigest signature

/-- The body of an event with the given tag and number of fields. -/
def readBody (tag : UInt8) (fields : Nat) : Cbor.Reader StateError StateEvent :=
  if tag = eventGenesis ∧ fields = genesisFields then do
    let membership ← readMembership
    let revocations ← readRevocations
    return .genesis membership revocations
  else if tag = eventSequence ∧ fields = sequenceFields then do
    let generation ← Cbor.readU64
    let sequence ← Cbor.readU64
    return .sequence generation sequence
  else if tag = eventMembership ∧ fields = membershipFields then do
    let membership ← readMembership
    return .membership membership
  else if tag = eventRevocation ∧ fields = revocationFields then do
    let revocations ← readRevocations
    return .revocation revocations
  else if tag = eventCheckpoint ∧ fields = checkpointFields then readCheckpoint
  else throw .invalidEvent

def readEvent : Cbor.Reader StateError StateEvent := do
  let found ← Cbor.readArray
  let fields ← ofExcept (okOr found StateError.invalidEvent)
  let version ← Cbor.readU16
  reject (version ≠ stateEventVersion) StateError.invalidEvent
  let tag ← Cbor.readU8
  readBody tag fields

def decodeEvent (input : Bytes) : Except StateError StateEvent := do
  let (event, rest) ← readEvent.run input
  reject (rest ≠ []) StateError.invalidEvent
  let encoded ← encodeEvent event
  reject (encoded ≠ input) StateError.nonCanonical
  return event

/-! ## Checkpoints -/

/-- The digest of the frames a checkpoint vouches for. -/
def snapshotDigest (frames : List Bytes) : Digest :=
  Sha256.digest (checkpointSnapshotDomain ++ beBytes 8 frames.length ++
    frames.flatMap fun frame => beBytes 8 frame.length ++ frame)

def checkpointSignaturePayload (hiveId : HiveId) (nodeId : NodeId) (generation sequence : UInt64)
    (snapshotDigest : Digest) : Bytes :=
  Cbor.array checkpointSignatureFields ++ (Cbor.u16 checkpointVersion ++ (Cbor.bytes hiveId.1 ++
    (Cbor.bytes nodeId.1 ++ (Cbor.u64 generation ++ (Cbor.u64 sequence ++
    (Cbor.bytes snapshotDigest.1 ++ Cbor.text "authoritative-state"))))))

def signedCheckpoint [Ed25519] (identity : LocalIdentity) (generation sequence : UInt64)
    (snapshotFrames : List Bytes) : StateEvent :=
  let hiveId := identity.hiveId
  let nodeId := identity.device.nodeId
  let digest := snapshotDigest snapshotFrames
  let payload := checkpointSignaturePayload hiveId nodeId generation sequence digest
  .checkpoint hiveId nodeId generation sequence digest
    (identity.device.signDomain checkpointDomain payload)

/-! ## The codec reads what it writes -/

/-- A membership document the encoder accepts and the decoder will take back. -/
structure GoodMembership (signed : SignedMembership) : Prop where
  shape : signed.certificate.validateShape = .ok ()
  full : signed.signature.length = 64

/-- A revocation document the encoder accepts and the decoder will take back. -/
structure GoodRevocations (signed : SignedRevocationList) : Prop where
  shaped : signed.list.Shaped
  full : signed.signature.length = 64

/-- An event the encoder accepts and the decoder will take back. -/
def StateEvent.Storable : StateEvent → Prop
  | .genesis member revoked => GoodMembership member ∧ GoodRevocations revoked
  | .membership signed => GoodMembership signed
  | .revocation signed => GoodRevocations signed
  | .sequence .. | .checkpoint .. => True

omit [Sha256] in
/-- The encoding of a storable event. -/
def eventBytes : StateEvent → Bytes
  | .genesis membership revocations =>
    Cbor.array genesisFields ++ (Cbor.u16 stateEventVersion ++ (Cbor.u8 eventGenesis ++
      (Cbor.bytes (Membership.envelope membership) ++
        Cbor.bytes (Revocation.envelope revocations))))
  | .sequence generation sequence =>
    Cbor.array sequenceFields ++ (Cbor.u16 stateEventVersion ++ (Cbor.u8 eventSequence ++
      (Cbor.u64 generation ++ Cbor.u64 sequence)))
  | .membership signed =>
    Cbor.array membershipFields ++ (Cbor.u16 stateEventVersion ++
      (Cbor.u8 eventMembership ++ Cbor.bytes (Membership.envelope signed)))
  | .revocation signed =>
    Cbor.array revocationFields ++ (Cbor.u16 stateEventVersion ++
      (Cbor.u8 eventRevocation ++ Cbor.bytes (Revocation.envelope signed)))
  | .checkpoint hiveId nodeId generation sequence snapshotDigest signature =>
    Cbor.array checkpointFields ++ (Cbor.u16 stateEventVersion ++
      (Cbor.u8 eventCheckpoint ++ (Cbor.u16 checkpointVersion ++ (Cbor.bytes hiveId.1 ++
      (Cbor.bytes nodeId.1 ++ (Cbor.u64 generation ++ (Cbor.u64 sequence ++
      (Cbor.bytes snapshotDigest.1 ++ Cbor.bytes signature.1))))))))

variable {event : StateEvent}

theorem encodeEvent_ok (storable : event.Storable) :
    encodeEvent event = .ok (eventBytes event) := by
  cases event with
  | genesis membership revocations =>
    obtain ⟨hmember, hrevoked⟩ := storable
    simp only [encodeEvent, Membership.encodeSigned_ok hmember.full,
      Revocation.encodeSigned_ok hrevoked.shaped hrevoked.full, mapError_ok, ok_bind]
    rfl
  | sequence generation sequence => rfl
  | membership signed =>
    simp only [encodeEvent, Membership.encodeSigned_ok storable.full, mapError_ok, ok_bind]
    rfl
  | revocation signed =>
    simp only [encodeEvent, Revocation.encodeSigned_ok storable.shaped storable.full,
      mapError_ok, ok_bind]
    rfl
  | checkpoint hiveId nodeId generation sequence snapshotDigest signature => rfl

variable {signed : SignedMembership} {input : Bytes}

theorem readMembership_run (good : GoodMembership signed) (rest : Bytes) :
    readMembership.run (bytes (Membership.envelope signed) ++ rest) = .ok (signed, rest) := by
  have hsize := Membership.envelope_length_le good.full
  rw [readMembership, run_bind_of (Cbor.run_readBytes (by omega) rest),
    Membership.decodeSigned_encodeSigned good.shape (Membership.encodeSigned_ok good.full)]
  rfl

omit [Sha256] in
theorem readRevocations_run {signed : SignedRevocationList} (good : GoodRevocations signed)
    (rest : Bytes) :
    readRevocations.run (bytes (Revocation.envelope signed) ++ rest) = .ok (signed, rest) := by
  have hsize := Revocation.envelope_length_le good.shaped good.full
  rw [readRevocations, run_bind_of (Cbor.run_readBytes (by omega) rest),
    Revocation.decodeSigned_envelope good.shaped good.full]
  rfl

omit [Sha256] in
theorem readCheckpoint_run (hiveId : HiveId) (nodeId : NodeId) (generation sequence : UInt64)
    (snapshotDigest : Digest) (signature : Signature) (rest : Bytes) :
    readCheckpoint.run (u16 checkpointVersion ++ (bytes hiveId.1 ++
      (bytes nodeId.1 ++ (u64 generation ++ (u64 sequence ++
      (bytes snapshotDigest.1 ++ (bytes signature.1 ++ rest))))))) =
    .ok (.checkpoint hiveId nodeId generation sequence snapshotDigest signature, rest) := by
  simp (disch := first | omega | decide | simp) only [readCheckpoint, bind_reads, Cbor.bind_reject,
    readFixed]
  rfl

/-- Reading the version and the tag leaves the body. -/
theorem readEvent_run {fields : Nat} (fits : fields < 2 ^ 64) (tag : UInt8) (rest : Bytes) :
    readEvent.run (array fields ++ (u16 stateEventVersion ++ (u8 tag ++ rest))) =
      (readBody tag fields).run rest := by
  simp (disch := first | omega | decide | simp) only [readEvent, Cbor.bind_array, okOr_some,
    bind_reads, Cbor.bind_reject]

theorem readEvent_eventBytes (storable : event.Storable) :
    readEvent.run (eventBytes event) = .ok (event, []) := by
  cases event with
  | genesis membership revocations =>
    obtain ⟨hmember, hrevoked⟩ := storable
    have hlast := readRevocations_run hrevoked []
    rw [append_nil] at hlast
    rw [eventBytes, readEvent_run (by decide), readBody, if_pos (by decide),
      run_bind_of (readMembership_run hmember _), run_bind_of hlast]
    rfl
  | sequence generation sequence =>
    have hlast := @Cbor.run_readU64 StateError _ sequence []
    rw [append_nil] at hlast
    rw [eventBytes, readEvent_run (by decide), readBody, if_neg (by decide), if_pos (by decide),
      run_bind_of (Cbor.run_readU64 _ _), run_bind_of hlast]
    rfl
  | membership signed =>
    have hlast := readMembership_run storable []
    rw [append_nil] at hlast
    rw [eventBytes, readEvent_run (by decide), readBody, if_neg (by decide), if_neg (by decide),
      if_pos (by decide), run_bind_of hlast]
    rfl
  | revocation signed =>
    have hlast := readRevocations_run storable []
    rw [append_nil] at hlast
    rw [eventBytes, readEvent_run (by decide), readBody, if_neg (by decide), if_neg (by decide),
      if_neg (by decide), if_pos (by decide), run_bind_of hlast]
    rfl
  | checkpoint hiveId nodeId generation sequence snapshotDigest signature =>
    have hlast := readCheckpoint_run hiveId nodeId generation sequence snapshotDigest signature []
    rw [append_nil] at hlast
    rw [eventBytes, readEvent_run (by decide), readBody, if_neg (by decide), if_neg (by decide),
      if_neg (by decide), if_neg (by decide), if_pos (by decide), hlast]

/-- **Round trip.** What the journal stores for a storable event reads back as that event. -/
theorem decodeEvent_eventBytes (storable : event.Storable) :
    decodeEvent (eventBytes event) = .ok event := by
  simp only [decodeEvent, readEvent_eventBytes storable, ok_bind, encodeEvent_ok storable,
    reject_bind, ne_eq, not_true_eq_false, if_false]
  rfl

/-- The membership in the event, if there is one, is well shaped. -/
def StateEvent.Shaped : StateEvent → Prop
  | .genesis member _ => member.certificate.validateShape = .ok ()
  | .membership signed => signed.certificate.validateShape = .ok ()
  | .revocation _ | .sequence .. | .checkpoint .. => True

/-- The encoder checks the rest. -/
theorem storable_of_encodeEvent {encoded : Bytes} (shaped : event.Shaped)
    (h : encodeEvent event = .ok encoded) : event.Storable := by
  cases event with
  | genesis member revoked =>
    simp only [encodeEvent, ok_steps] at h
    obtain ⟨_, hmember, _, hrevoked, -⟩ := h
    obtain ⟨hlist, hfull, -⟩ := Revocation.encodeSigned_eq_ok hrevoked
    exact ⟨⟨shaped, (Membership.encodeSigned_eq_ok hmember).1⟩, hlist, hfull⟩
  | membership signed =>
    simp only [encodeEvent, ok_steps] at h
    obtain ⟨_, hmember, -⟩ := h
    exact ⟨shaped, (Membership.encodeSigned_eq_ok hmember).1⟩
  | revocation signed =>
    simp only [encodeEvent, ok_steps] at h
    obtain ⟨_, hrevoked, -⟩ := h
    obtain ⟨hlist, hfull, -⟩ := Revocation.encodeSigned_eq_ok hrevoked
    exact ⟨hlist, hfull⟩
  | sequence | checkpoint => trivial

theorem readMembership_shape {rest : Bytes} (h : readMembership.run input = .ok (signed, rest)) :
    signed.certificate.validateShape = .ok () := by
  simp only [readMembership, run_bind_ok, Cbor.run_ofExcept_eq_ok, mapError_eq_ok] at h
  obtain ⟨raw, _, -, hmember, -⟩ := h
  exact (Membership.signed_oneEncoding.encode_decode hmember).1

theorem readBody_shaped {tag : UInt8} {fields : Nat} {rest : Bytes}
    (h : (readBody tag fields).run input = .ok (event, rest)) : event.Shaped := by
  unfold readBody at h
  split at h
  · simp only [run_bind_ok] at h
    obtain ⟨membership, _, hmember, revocations, _, -, h⟩ := h
    cases h
    exact readMembership_shape hmember
  split at h
  · simp only [run_bind_ok] at h
    obtain ⟨generation, _, -, sequence, _, -, h⟩ := h
    cases h
    trivial
  split at h
  · simp only [run_bind_ok] at h
    obtain ⟨membership, _, hmember, h⟩ := h
    cases h
    exact readMembership_shape hmember
  split at h
  · simp only [run_bind_ok] at h
    obtain ⟨revocations, _, -, h⟩ := h
    cases h
    trivial
  split at h
  · simp only [readCheckpoint, run_bind_ok] at h
    obtain ⟨_, _, -, _, _, -, _, _, -, _, _, -, _, _, -, _, _, -, _, _, -, _, _, -, h⟩ := h
    cases h
    trivial
  · cases h

/-- **One encoding.** The decoder takes the encodings of events with a well-shaped membership, and
these only. -/
theorem event_oneEncoding : OneEncodingOf StateEvent.Shaped encodeEvent decodeEvent where
  decode_encode := by
    intro event encoded shaped hencode
    have hstorable := storable_of_encodeEvent shaped hencode
    rw [encodeEvent_ok hstorable] at hencode
    cases hencode
    exact decodeEvent_eventBytes hstorable
  encode_decode := by
    intro event input h
    simp only [decodeEvent, ok_steps, exists_const, not_not] at h
    obtain ⟨⟨found, rest⟩, hread, -, encoded, hencode, rfl, rfl⟩ := h
    simp only [readEvent, run_bind_ok] at hread
    obtain ⟨_, _, -, fields, _, -, _, _, -, _, _, -, tag, _, -, hbody⟩ := hread
    exact ⟨readBody_shaped hbody, hencode⟩

/-! ## Sizes -/

/-- The bound a frame of this kind stays within. -/
def StateEvent.sizeBound : StateEvent → Nat
  | .genesis .. => 9600
  | .sequence .. => 64
  | .membership .. => 600
  | .revocation .. => 9100
  | .checkpoint .. => 300

theorem eventBytes_length_le (storable : event.Storable) :
    (eventBytes event).length ≤ event.sizeBound := by
  have hhead := fun n => Cbor.head_length_le 4 n
  have hword := Cbor.unsigned_length_le
  have hbytes := Cbor.bytes_length_le
  have hv := hword stateEventVersion.toNat
  cases event with
  | genesis membership revocations =>
    obtain ⟨hmember, hrevoked⟩ := storable
    have h₁ := Membership.envelope_length_le hmember.full
    have h₂ := Revocation.envelope_length_le hrevoked.shaped hrevoked.full
    have h₃ := hhead genesisFields
    have h₄ := hword eventGenesis.toNat
    have h₅ := hbytes (Membership.envelope membership)
    have h₆ := hbytes (Revocation.envelope revocations)
    simp only [eventBytes, length_append, array, u16, u8,
      StateEvent.sizeBound]
    omega
  | sequence generation sequence =>
    have h₃ := hhead sequenceFields
    have h₄ := hword eventSequence.toNat
    have h₅ := hword generation.toNat
    have h₆ := hword sequence.toNat
    simp only [eventBytes, length_append, array, u16, u8, u64,
      StateEvent.sizeBound]
    omega
  | membership signed =>
    have h₁ := Membership.envelope_length_le storable.full
    have h₃ := hhead membershipFields
    have h₄ := hword eventMembership.toNat
    have h₅ := hbytes (Membership.envelope signed)
    simp only [eventBytes, length_append, array, u16, u8,
      StateEvent.sizeBound]
    omega
  | revocation signed =>
    have h₁ := Revocation.envelope_length_le storable.shaped storable.full
    have h₃ := hhead revocationFields
    have h₄ := hword eventRevocation.toNat
    have h₅ := hbytes (Revocation.envelope signed)
    simp only [eventBytes, length_append, array, u16, u8,
      StateEvent.sizeBound]
    omega
  | checkpoint hiveId nodeId generation sequence snapshotDigest signature =>
    have h₃ := hhead checkpointFields
    have h₄ := hword eventCheckpoint.toNat
    have h₅ := hword checkpointVersion.toNat
    have h₆ := hbytes hiveId.1
    have h₇ := hbytes nodeId.1
    have h₈ := hword generation.toNat
    have h₉ := hword sequence.toNat
    have h₁₀ := hbytes snapshotDigest.1
    have h₁₁ := hbytes signature.1
    rw [hiveId.2] at h₆
    rw [nodeId.2] at h₇
    rw [snapshotDigest.2] at h₁₀
    rw [signature.2] at h₁₁
    simp only [eventBytes, length_append, array, u16, u8, u64,
      StateEvent.sizeBound]
    omega

omit [Sha256] in
theorem StateEvent.sizeBound_le (event : StateEvent) : event.sizeBound ≤ 9600 := by
  cases event <;> simp [StateEvent.sizeBound]

omit [Sha256] in
theorem eventBytes_ne_nil (event : StateEvent) : eventBytes event ≠ [] := by
  cases event <;> simp [eventBytes, array, Cbor.head_ne_nil]

/-- The encoding of a storable event is a payload one frame may carry. -/
theorem eventBytes_validPayload (storable : event.Storable) :
    ValidPayload (eventBytes event) := by
  have hsize := eventBytes_length_le storable
  have hbound := event.sizeBound_le
  exact ⟨eventBytes_ne_nil event, by unfold maxFrameBytes; omega⟩

end Supgang.State
