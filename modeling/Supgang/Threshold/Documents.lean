/-
# Threshold.Documents — one encoding for each root-authority document

Every document of the root authority is decoded strictly: what was read is encoded again and
compared. Here each decoder is shown to read back what its encoder wrote, within its size limit, so
that encoding and decoding are inverse to each other and a digest names one document.

* `Identified` — one encoding, and one document for each digest.
* `root_documents_identified` — **every root-authority document has one encoding**.
-/
import Supgang.Threshold.Step
import Supgang.Threshold.Status
import Supgang.Threshold.OwnerAction
import Supgang.Authority.Codec

namespace Supgang.Threshold

set_option autoImplicit false
set_option linter.unusedSectionVars false

open Theory List
open Cbor (append_le bind_many bind_reads bind_reject bytes_le fixedThen fixed_length_le headThen
  head_length_le_two text text_le u16 u64 unsigned unsignedThen unsigned_length_le)

/-! ## Descriptors -/

section Descriptors

variable [Sha256] [Ed25519] [P256] [Frost]

theorem run_readParticipant (participant : Participant) (rest : Bytes) :
    readParticipant.run (participantBytes participant ++ rest) = .ok (participant, rest) := by
  have hkey := participant.device.bytes.2
  have hcustody : (utf8 "file").length = 4 := by decide +kernel
  simp (disch := first | omega | simp) only [participantBytes, readParticipant, append_assoc,
    array, fixed, bind_reads, DevicePublicKey.fromBytes_toBytes, mapError_ok, bind_reject]
  rfl

/-- What a valid group's fields are bounded by. -/
structure GroupDescriptor.Fits (group : GroupDescriptor) : Prop where
  label : (utf8 group.label).length ≤ 63
  participants : group.participants.length ≤ maxParticipants

variable {group : GroupDescriptor} {recovery : RecoveryDescriptor} {transition : Succession}

theorem GroupDescriptor.validate_fits {u : Unit} (valid : group.validate = .ok u) : group.Fits := by
  obtain ⟨fields, -⟩ := reject_bind_eq_ok.mp valid
  simp only [not_or, not_lt] at fields
  exact ⟨fields.2.1, fields.2.2.2.2.2⟩

def GroupDescriptor.bytes (group : GroupDescriptor) : Bytes :=
  Cbor.array 7 ++ (Cbor.unsigned 1 ++ (Cbor.text group.label ++ (Cbor.u16 group.k ++
    (Cbor.unsigned group.participants.length ++ (Cbor.u64 group.generation ++
    (Cbor.array group.participants.length ++
    (group.participants.flatMap participantBytes ++ Cbor.bytes group.publicKey.1)))))))

theorem GroupDescriptor.encode_eq_ok {bytes : Bytes} (h : group.encode = .ok bytes) :
    group.Fits ∧ bytes = group.bytes := by
  simp only [GroupDescriptor.encode, ok_steps] at h
  obtain ⟨_, valid, rfl⟩ := h
  exact ⟨validate_fits valid, rfl⟩

theorem unsigned_eq_u16 {n : Nat} (short : n < 65536) :
    unsigned n = u16 (UInt16.ofNat n) := by
  rw [u16, UInt16.toNat_ofNat_of_lt' short]

theorem run_readGroup (fits : group.Fits) (rest : Bytes) :
    readGroup.run (group.bytes ++ rest) = .ok (group, rest) := by
  have hlabel := fits.label
  have hmany := fits.participants
  have hfew := hmany
  unfold maxParticipants at hfew
  have hsame : (UInt16.ofNat group.participants.length).toNat = group.participants.length :=
    UInt16.toNat_ofNat_of_lt' (lt_of_le_of_lt hfew (by decide))
  simp (disch := first | omega | simp [hsame]) only [GroupDescriptor.bytes, readGroup,
    append_assoc, unsigned_eq_u16 (show group.participants.length < 65536 by omega), array, fixed,
    bind_reads, bind_version, bind_count hmany, bind_reject,
    bind_many fun participant _ => run_readParticipant participant]
  rfl

theorem participantBytes_length_le (participant : Participant) :
    (participantBytes participant).length ≤ 150 :=
  headThen (unsignedThen (fixedThen (fixedThen (text_le (n := 4) (by decide +kernel)))))
    |>.trans (by decide)

theorem GroupDescriptor.bytes_length_le (fits : group.Fits) : group.bytes.length ≤ 3000 := by
  have hmany : (group.participants.flatMap participantBytes).length ≤ 16 * 150 :=
    (Cbor.flatMap_length_le fun participant _ => participantBytes_length_le participant).trans
      (Nat.mul_le_mul_right 150 fits.participants)
  exact headThen (unsignedThen (append_le (text_le fits.label) (unsignedThen (unsignedThen
    (unsignedThen (headThen (append_le hmany (fixed_length_le _)))))))) |>.trans (by decide)

theorem GroupDescriptor.oneEncoding :
    OneEncoding GroupDescriptor.encode GroupDescriptor.decode := by
  refine strict_oneEncoding fun group bytes encoded => ?_
  obtain ⟨fits, rfl⟩ := encode_eq_ok encoded
  have hread := run_readGroup fits []
  rw [append_nil] at hread
  exact ⟨(bytes_length_le fits).trans (by decide), [], hread⟩

def RecoveryDescriptor.bytes (recovery : RecoveryDescriptor) : Bytes :=
  Cbor.array 4 ++ (Cbor.unsigned 1 ++ (Cbor.u64 recovery.sequence ++
    (Cbor.bytes recovery.predecessor.1 ++ Cbor.bytes recovery.group.bytes)))

theorem RecoveryDescriptor.encode_eq_ok {bytes : Bytes} (h : recovery.encode = .ok bytes) :
    recovery.group.encode = .ok recovery.group.bytes ∧ recovery.group.Fits ∧
      bytes = recovery.bytes := by
  simp only [RecoveryDescriptor.encode, ok_steps] at h
  obtain ⟨group, hgroup, rfl⟩ := h
  obtain ⟨fits, rfl⟩ := GroupDescriptor.encode_eq_ok hgroup
  exact ⟨hgroup, fits, rfl⟩

theorem RecoveryDescriptor.bytes_length_le (fits : recovery.group.Fits) :
    recovery.bytes.length ≤ 3100 :=
  headThen (unsignedThen (unsignedThen (fixedThen (bytes_le (GroupDescriptor.bytes_length_le
    fits))))) |>.trans (by decide)

theorem run_readRecovery (encoded : recovery.group.encode = .ok recovery.group.bytes)
    (fits : recovery.group.Fits) (rest : Bytes) :
    readRecovery.run (recovery.bytes ++ rest) = .ok (recovery, rest) := by
  have hshort := GroupDescriptor.bytes_length_le fits
  simp (disch := omega) only [RecoveryDescriptor.bytes, readRecovery, append_assoc, array, fixed,
    bind_reads, bind_version, GroupDescriptor.oneEncoding.decode_encode encoded]
  rfl

theorem RecoveryDescriptor.oneEncoding :
    OneEncoding RecoveryDescriptor.encode RecoveryDescriptor.decode := by
  refine strict_oneEncoding fun recovery bytes encoded => ?_
  obtain ⟨hgroup, fits, rfl⟩ := encode_eq_ok encoded
  have hread := run_readRecovery hgroup fits []
  rw [append_nil] at hread
  exact ⟨(bytes_length_le fits).trans (by decide), [], hread⟩

/-! ## Steps and successions -/

theorem RootStep.oneEncoding : OneEncoding RootStep.encode RootStep.decode := by
  refine strict_oneEncoding fun step bytes encoded => ?_
  obtain ⟨rfl, -, short⟩ := Threshold.encode_eq_ok encoded
  have hread := readStep_run (show step.payload.length < 2 ^ 64 by omega) []
  rw [append_nil] at hread
  simp only [RootStep.encode, ok_steps, not_lt] at encoded
  obtain ⟨_, -, _, -, _, fits, -⟩ := encoded
  exact ⟨fits, [], hread⟩

/-- A descriptor's bytes and its digest, as they stand in a succession. -/
theorem bind_readBound {α β : Type} {encode : α → Except Error Bytes}
    {decode : Bytes → Except Error α} {digest : α → Except Error Digest}
    (one : OneEncoding encode decode) {value : α} {bytes : Bytes}
    (encoded : encode value = .ok bytes) (digested : digest value = .ok (Sha256.digest bytes))
    (short : bytes.length < 2 ^ 64) (f : α → Cbor.Reader Error β) (rest : Bytes) :
    (readBound decode digest >>= f).run
      (Cbor.bytes bytes ++ (Cbor.bytes (Sha256.digest bytes).1 ++ rest)) = (f value).run rest := by
  simp (disch := first | omega | simp) only [readBound, bind_assoc, bind_reads,
    one.decode_encode encoded, fixed, digested, bind_reject, pure_bind]

def Succession.bytes (transition : Succession) : Bytes :=
  Cbor.array 10 ++ (Cbor.unsigned 1 ++ (Cbor.text transition.kind.text ++
    (Cbor.bytes transition.previousKey.1 ++ (Cbor.bytes transition.successor.bytes ++
    (Cbor.bytes (Sha256.digest transition.successor.bytes).1 ++
    (Cbor.bytes transition.retained.1 ++ (Cbor.bytes transition.recovery.bytes ++
    (Cbor.bytes (Sha256.digest transition.recovery.bytes).1 ++
    (Cbor.bytes transition.possession.1 ++ Cbor.bytes transition.recoveryPossession.1)))))))))

theorem Succession.encode_eq_ok {bytes : Bytes} (h : transition.encode = .ok bytes) :
    transition.successor.encode = .ok transition.successor.bytes ∧ transition.successor.Fits ∧
      transition.recovery.encode = .ok transition.recovery.bytes ∧
      transition.recovery.group.Fits ∧ bytes = transition.bytes := by
  simp only [Succession.encode, GroupDescriptor.digest, RecoveryDescriptor.digest, ok_steps] at h
  obtain ⟨successor, hsuccessor, _, ⟨again, hagain, rfl⟩, recovery, hrecovery, _,
    ⟨again', hagain', rfl⟩, rfl⟩ := h
  cases hsuccessor.symm.trans hagain
  cases hrecovery.symm.trans hagain'
  obtain ⟨fits, rfl⟩ := GroupDescriptor.encode_eq_ok hsuccessor
  obtain ⟨-, fits', rfl⟩ := RecoveryDescriptor.encode_eq_ok hrecovery
  exact ⟨hsuccessor, fits, hrecovery, fits', rfl⟩

theorem Succession.bytes_length_le (fits : transition.successor.Fits)
    (fits' : transition.recovery.group.Fits) : transition.bytes.length ≤ 12 * 1024 := by
  have hkind : (utf8 transition.kind.text).length ≤ 8 := by
    cases transition.kind <;> decide +kernel
  exact headThen (unsignedThen (append_le (text_le hkind) (fixedThen (append_le (bytes_le
    (GroupDescriptor.bytes_length_le fits)) (fixedThen (fixedThen (append_le (bytes_le
    (RecoveryDescriptor.bytes_length_le fits')) (fixedThen (fixedThen (fixed_length_le _))))))))))
    |>.trans (by decide)

theorem run_readSuccession
    (successor : transition.successor.encode = .ok transition.successor.bytes)
    (fits : transition.successor.Fits)
    (recovery : transition.recovery.encode = .ok transition.recovery.bytes)
    (fits' : transition.recovery.group.Fits) (rest : Bytes) :
    readSuccession.run (transition.bytes ++ rest) = .ok (transition, rest) := by
  have hkind : (utf8 transition.kind.text).length < 2 ^ 64 := by
    cases transition.kind <;> decide +kernel
  have hparse : Succession.Kind.parse transition.kind.text = .ok transition.kind := by
    cases transition.kind <;> decide +kernel
  have hsuccessor := GroupDescriptor.bytes_length_le fits
  have hrecovery := RecoveryDescriptor.bytes_length_le fits'
  have hdigest : transition.successor.digest =
      .ok (Sha256.digest transition.successor.bytes) := by
    rw [GroupDescriptor.digest, successor]
    rfl
  have hdigest' : transition.recovery.digest =
      .ok (Sha256.digest transition.recovery.bytes) := by
    rw [RecoveryDescriptor.digest, recovery]
    rfl
  simp (disch := omega) only [Succession.bytes, readSuccession, append_assoc, array, fixed,
    bind_reads, bind_version, hparse, bind_readBound GroupDescriptor.oneEncoding successor hdigest,
    bind_readBound RecoveryDescriptor.oneEncoding recovery hdigest']
  rfl

theorem Succession.oneEncoding : OneEncoding Succession.encode Succession.decode := by
  refine strict_oneEncoding fun transition bytes encoded => ?_
  obtain ⟨successor, fits, recovery, fits', rfl⟩ := encode_eq_ok encoded
  have hread := run_readSuccession successor fits recovery fits' []
  rw [append_nil] at hread
  exact ⟨bytes_length_le fits fits', [], hread⟩

end Descriptors

/-! ## Grants and revocations -/

section Grants

variable [Sha256] [P256]

theorem run_readTarget (target : TargetScope) (rest : Bytes) :
    readTarget.run (targetBytes target ++ rest) = .ok (target, rest) := by
  have hnode : (utf8 "node").length = 4 := by decide +kernel
  have hhive : (utf8 "hive-nodes").length = 10 := by decide +kernel
  cases target <;>
  · simp (disch := omega) only [targetBytes, readTarget, append_assoc, array, fixed, bind_reads]
    rfl

variable {operation : AllowedOperation} {grant : Grant}

theorem run_readOperation (short : (utf8 operation.name).length ≤ 64) (rest : Bytes) :
    readOperation.run (operationBytes operation ++ rest) = .ok (operation, rest) := by
  have htext : (utf8 operation.presence.text).length < 2 ^ 64 := by
    cases operation.presence <;> decide +kernel
  have hparse : Presence.parse operation.presence.text = .ok operation.presence := by
    cases operation.presence <;> decide +kernel
  simp (disch := omega) only [operationBytes, readOperation, append_assoc, array, bind_reads,
    hparse]
  rfl

/-- What a valid grant's fields are bounded by. -/
structure Grant.Fits (grant : Grant) : Prop where
  consumer : (utf8 grant.consumer).length ≤ 128
  few : grant.operations.length ≤ maxOperations
  names : ∀ operation ∈ grant.operations, (utf8 operation.name).length ≤ 64

theorem validDotted_length {alphabet : UInt8 → Bool} {maximum : Nat} {value : String}
    (valid : validDotted alphabet maximum value = true) : (utf8 value).length ≤ maximum := by
  simp only [validDotted, Bool.and_eq_true, decide_eq_true_eq] at valid
  exact valid.1.1.1.1.2

theorem validateOperations_names {role : SignerRole} {operations : List AllowedOperation}
    {previous : String} {u : Unit} (valid : validateOperations role previous operations = .ok u) :
    ∀ operation ∈ operations, (utf8 operation.name).length ≤ 64 := by
  induction operations generalizing previous u with
  | nil => nofun
  | cons operation rest ih =>
    obtain ⟨good, onward⟩ := reject_bind_eq_ok.mp valid
    simp only [not_or, not_not] at good
    exact forall_mem_cons.mpr ⟨validDotted_length good.1, ih onward⟩

theorem Grant.validate_fits {u : Unit} (valid : grant.validate = .ok u) : grant.Fits := by
  simp only [Grant.validate, Grant.possessionMessage, ok_steps, not_or, not_lt, exists_const,
    not_not] at valid
  obtain ⟨bounds, -, _, names, _, -, _, ⟨fields, -⟩, -⟩ := valid
  exact ⟨validDotted_length fields.2.2, bounds.2.2.2.1, validateOperations_names names⟩

theorem Grant.encode_eq_ok {bytes : Bytes} (h : grant.encode = .ok bytes) :
    grant.Fits ∧ bytes = grant.bytes := by
  simp only [Grant.encode, ok_steps] at h
  obtain ⟨_, valid, rfl⟩ := h
  exact ⟨validate_fits valid, rfl⟩

theorem bind_readSigner {β : Type} (grant : Grant) (f : _ → Cbor.Reader Error β) (rest : Bytes) :
    (readSigner >>= f).run (Cbor.array 1 ++ (Cbor.array 6 ++ (text "p256" ++
      (Cbor.bytes grant.signer.bytes.1 ++ (Cbor.bytes grant.signerNode.1 ++
      (text grant.signerRole.text ++ (text (custodyText grant.signerCustody) ++
      (Cbor.bytes grant.possession.1 ++ rest)))))))) =
    (f (grant.signer, grant.signerNode, grant.signerRole, grant.signerCustody,
      grant.possession)).run rest := by
  have hrole : (utf8 grant.signerRole.text).length < 2 ^ 64 := by
    cases grant.signerRole <;> decide +kernel
  have hparse : SignerRole.parse grant.signerRole.text = .ok grant.signerRole := by
    cases grant.signerRole <;> decide +kernel
  have hcustody : (utf8 (custodyText grant.signerCustody)).length < 2 ^ 64 := by
    cases grant.signerCustody <;> decide +kernel
  have hparse' : parseCustody (custodyText grant.signerCustody) = .ok grant.signerCustody := by
    cases grant.signerCustody <;> decide +kernel
  have halgorithm : (utf8 "p256").length = 4 := by decide +kernel
  have hkey := grant.signer.bytes.2
  simp (disch := first | omega | simp) only [readSigner, bind_assoc, array, fixed, bind_reads,
    bind_reject, DevicePublicKey.fromBytes_toBytes, mapError_ok, hparse, hparse', pure_bind]

theorem Grant.Kind.parse_text (kind : Grant.Kind) : Grant.Kind.parse kind.text = .ok kind := by
  cases kind <;> decide +kernel

theorem Grant.Kind.text_length_le (kind : Grant.Kind) : (utf8 kind.text).length ≤ 12 := by
  cases kind <;> decide +kernel

theorem run_readGrant (fits : grant.Fits) (rest : Bytes) :
    readGrant.run (grant.bytes ++ rest) = .ok (grant, rest) := by
  have hkind := grant.kind.text_length_le
  have hconsumer := fits.consumer
  have hfew := fits.few
  unfold maxOperations at hfew
  simp (disch := omega) only [Grant.bytes, readGrant, append_assoc, array, fixed, bind_reads,
    bind_version, grant.kind.parse_text, bind_readSigner, Cbor.run_bind_of (run_readTarget _ _),
    bind_count fits.few,
    bind_many fun operation inside => run_readOperation (fits.names operation inside)]
  rfl

theorem targetBytes_length_le (target : TargetScope) : (targetBytes target).length ≤ 70 := by
  cases target with
  | node node =>
    exact headThen (append_le (text_le (n := 4) (by decide +kernel)) (fixed_length_le _))
      |>.trans (by decide)
  | hiveNodes hive =>
    exact headThen (append_le (text_le (n := 10) (by decide +kernel)) (fixed_length_le _))
      |>.trans (by decide)

theorem operationBytes_length_le (short : (utf8 operation.name).length ≤ 64) :
    (operationBytes operation).length ≤ 100 := by
  have htext : (utf8 operation.presence.text).length ≤ 8 := by
    cases operation.presence <;> decide +kernel
  exact headThen (append_le (text_le short) (text_le htext)) |>.trans (by decide)

theorem Grant.bytes_length_le (fits : grant.Fits) : grant.bytes.length ≤ 12 * 1024 := by
  have hrole : (utf8 grant.signerRole.text).length ≤ 14 := by
    cases grant.signerRole <;> decide +kernel
  have hcustody : (utf8 (custodyText grant.signerCustody)).length ≤ 8 := by
    cases grant.signerCustody <;> decide +kernel
  have hoperations : (grant.operations.flatMap operationBytes).length ≤ 8 * 100 :=
    (Cbor.flatMap_length_le fun operation inside =>
      operationBytes_length_le (fits.names operation inside)).trans
      (Nat.mul_le_mul_right 100 fits.few)
  exact headThen (unsignedThen (fixedThen (fixedThen (append_le (text_le grant.kind.text_length_le)
    (append_le (text_le fits.consumer) (headThen (headThen (append_le (text_le (n := 4)
    (by decide +kernel)) (fixedThen (fixedThen (append_le (text_le hrole) (append_le (text_le
    hcustody) (fixedThen (unsignedThen (unsignedThen (unsignedThen (fixedThen (unsignedThen
    (headThen (append_le (targetBytes_length_le _) (headThen hoperations)))))))))))))))))))))
    |>.trans (by decide)

theorem Grant.oneEncoding : OneEncoding Grant.encode Grant.decode := by
  refine strict_oneEncoding fun grant bytes encoded => ?_
  obtain ⟨fits, rfl⟩ := encode_eq_ok encoded
  have hread := run_readGrant fits []
  rw [append_nil] at hread
  exact ⟨bytes_length_le fits, [], hread⟩

theorem Revocation.oneEncoding : OneEncoding Revocation.encode Revocation.decode := by
  refine strict_oneEncoding fun revocation bytes encoded => ?_
  simp only [Revocation.encode, ok_steps, exists_const] at encoded
  obtain ⟨-, rfl⟩ := encoded
  have hkind := revocation.kind.text_length_le
  refine ⟨?_, [], ?_⟩
  · exact headThen (unsignedThen (fixedThen (fixedThen (append_le (text_le hkind) (unsignedThen
      (fixedThen (unsigned_length_le _))))))) |>.trans (by decide)
  · rw [← append_nil (u64 revocation.issuerSequence)]
    simp (disch := omega) only [readRevocation, array, fixed, bind_reads, bind_version,
      revocation.kind.parse_text]
    rfl

end Grants

/-! ## Renewal policies and status -/

section Statuses

open Renewal RootStatus

theorem Renewal.Policy.encode_length_le {policy : Policy} {bytes : Bytes}
    (encoded : policy.encode = .ok bytes) : bytes.length ≤ 200 := by
  simp only [Policy.encode, ok_steps, exists_const] at encoded
  obtain ⟨-, rfl⟩ := encoded
  exact headThen (unsignedThen (fixedThen (fixedThen (fixedThen (unsignedThen (unsignedThen
    (unsignedThen (unsignedThen (unsigned_length_le _))))))))) |>.trans (by decide)

theorem Renewal.Policy.oneEncoding : OneEncoding Policy.encode Policy.decode := by
  refine strict_oneEncoding fun policy bytes encoded => ?_
  refine ⟨(Policy.encode_length_le encoded).trans (by decide), [], ?_⟩
  simp only [Policy.encode, ok_steps, exists_const] at encoded
  obtain ⟨-, rfl⟩ := encoded
  rw [Policy.capBytes, ← append_nil (u64 policy.totalCap)]
  simp (disch := omega) only [readPolicy, array, fixed, bind_reads, bind_version]
  rfl

/-- The envelope of a document that has one encoding: its version, the document, a signature. -/
theorem run_envelope {α β : Type} {encode : α → Except Error Bytes}
    {decode : Bytes → Except Error α} (one : OneEncoding encode decode) {value : α} {bytes : Bytes}
    (encoded : encode value = .ok bytes) (short : bytes.length < 2 ^ 64) (signature : FixedBytes 64)
    (f : α → FixedBytes 64 → β) :
    (do
      array 3
      version
      let raw ← Cbor.readBytes
      let value ← ofExcept (decode raw)
      let signature ← fixed 64
      return f value signature : Cbor.Reader Error β).run
      (Cbor.array 3 ++ (unsigned 1 ++ (Cbor.bytes bytes ++ Cbor.bytes signature.1))) =
    .ok (f value signature, []) := by
  rw [← append_nil (Cbor.bytes signature.1)]
  simp (disch := omega) only [array, fixed, bind_reads, bind_version, one.decode_encode encoded]
  rfl

theorem Renewal.SignedPolicy.oneEncoding :
    OneEncoding SignedPolicy.encode SignedPolicy.decode := by
  refine strict_oneEncoding fun signed bytes encoded => ?_
  simp only [SignedPolicy.encode, ok_steps] at encoded
  obtain ⟨policy, hpolicy, rfl⟩ := encoded
  have hshort := Policy.encode_length_le hpolicy
  refine ⟨?_, [], run_envelope Policy.oneEncoding hpolicy (by omega) signed.signature
    SignedPolicy.mk⟩
  exact headThen (unsignedThen (append_le (bytes_le hshort) (fixed_length_le _)))
    |>.trans (by decide)

theorem run_readStatus {status : RootStatus.Status}
    (grants : status.activeGrants.length ≤ maxActiveEntries)
    (members : status.activeMembers.length ≤ maxActiveEntries) :
    readStatus.run status.bytes = .ok (status, []) := by
  have hmode : (utf8 (modeText status.mode)).length < 2 ^ 64 := by
    cases status.mode <;> decide +kernel
  have hparse : parseMode (modeText status.mode) = .ok status.mode := by
    cases status.mode <;> decide +kernel
  have hgrants := grants
  have hmembers := members
  unfold maxActiveEntries at hgrants hmembers
  rw [RootStatus.Status.bytes, RootStatus.Status.leaseBytes,
    ← append_nil (u64 status.counts.total)]
  simp (disch := omega) only [readStatus, array, fixed, bind_reads, bind_version,
    bind_count grants, bind_count members, hparse,
    bind_many fun (id : FixedBytes 16) _ => Cbor.run_readFixed _ id (by decide),
    bind_many fun (node : FixedBytes 32) _ => Cbor.run_readFixed _ node (by decide)]
  rfl

theorem RootStatus.Status.oneEncoding :
    OneEncoding RootStatus.Status.encode RootStatus.Status.decode := by
  refine strict_oneEncoding fun status bytes encoded => ?_
  simp only [RootStatus.Status.encode, RootStatus.Status.checkActiveSets, ok_steps, exists_const,
    not_or, not_lt] at encoded
  obtain ⟨-, ⟨grants, members, -⟩, short, rfl⟩ := encoded
  exact ⟨short, [], run_readStatus grants members⟩

theorem RootStatus.signedStatus_oneEncoding :
    OneEncoding SignedStatus.encode SignedStatus.decode := by
  refine strict_oneEncoding fun signed bytes encoded => ?_
  simp only [SignedStatus.encode, ok_steps, exists_const, not_lt] at encoded
  obtain ⟨status, hstatus, short, rfl⟩ := encoded
  have hshort : status.length < 2 ^ 64 := by
    simp only [SignedStatus.bytes, Cbor.bytes, length_append, maxSignedStatusBytes,
      maxStatusBytes] at short
    omega
  exact ⟨short, [], run_envelope RootStatus.Status.oneEncoding hstatus hshort signed.signature
    SignedStatus.mk⟩

end Statuses

/-! ## Owner actions -/

section Actions

/-- The exact bounds matter here: the decoder's limit leaves no room for longer heads. -/
theorem Challenge.bytes_length_le {challenge : Challenge}
    (request : challenge.request.length ≤ maxRequestBytes)
    (consumer : (utf8 challenge.consumer).length ≤ 96)
    (operation : (utf8 challenge.operation).length ≤ 64) :
    challenge.bytes.length ≤ maxRequestBytes + 256 := by
  unfold maxRequestBytes at request
  have hfixed : ∀ {n : Nat} (value : FixedBytes n), n < 256 → (Cbor.bytes value.1).length ≤ 2 + n :=
    fun value short => append_le (head_length_le_two 2 (by rwa [value.2])) value.2.le
  have htext : ∀ {value : String} {n : Nat}, (utf8 value).length ≤ n → n < 256 →
      (text value).length ≤ 2 + n :=
    fun short small => append_le (head_length_le_two 3 (by omega)) short
  exact append_le (head_length_le_two 4 (by decide))
    (append_le (head_length_le_two 0 (by decide)) (append_le (hfixed _ (by decide))
    (append_le (htext consumer (by decide)) (append_le (htext operation (by decide))
    (append_le (hfixed _ (by decide))
    (append_le (append_le (Cbor.head_length_le_three 2 (by omega)) request)
    (append_le (hfixed _ (by decide)) (unsigned_length_le _)))))))) |>.trans (by decide)

theorem Challenge.oneEncoding : OneEncoding Challenge.encode Challenge.decode := by
  refine strict_oneEncoding fun challenge bytes encoded => ?_
  simp only [Challenge.encode, ok_steps, exists_const, not_or, not_lt] at encoded
  obtain ⟨⟨-, request, consumer, operation, -⟩, rfl⟩ := encoded
  refine ⟨bytes_length_le request consumer operation, [], ?_⟩
  unfold maxRequestBytes at request
  rw [Challenge.bytes, ← append_nil (u64 challenge.expiresAt)]
  simp (disch := omega) only [readChallenge, array, fixed, bind_reads, bind_version]
  rfl

variable [P256]

variable {assertion : Assertion}

theorem Assertion.payload_eq_ok {bytes : Bytes} (h : assertion.payload = .ok bytes) :
    (utf8 assertion.consumer).length ≤ 96 ∧ (utf8 assertion.operation).length ≤ 64 ∧
      bytes = assertion.payloadBytes := by
  simp only [Assertion.payload, ok_steps, exists_const, not_or, not_lt] at h
  obtain ⟨⟨-, consumer, -, operation, -⟩, rfl⟩ := h
  exact ⟨consumer, operation, rfl⟩

theorem Assertion.payloadBytes_length_le (consumer : (utf8 assertion.consumer).length ≤ 96)
    (operation : (utf8 assertion.operation).length ≤ 64) : assertion.payloadBytes.length ≤ 700 :=
  headThen (unsignedThen (append_le (text_le (n := 4) (by decide +kernel)) (fixedThen (headThen
    (append_le (text_le (n := 14) (by decide +kernel)) (fixedThen (fixedThen (fixedThen (fixedThen
    (append_le (text_le consumer) (append_le (text_le operation) (fixedThen (fixedThen (fixedThen
    (unsignedThen (unsigned_length_le _)))))))))))))))) |>.trans (by decide)

theorem run_readPayload (consumer : (utf8 assertion.consumer).length ≤ 96)
    (operation : (utf8 assertion.operation).length ≤ 64) :
    (readPayload assertion.signature).run assertion.payloadBytes = .ok (assertion, []) := by
  have halgorithm : (utf8 "p256").length = 4 := by decide +kernel
  have hrole : (utf8 "owner-presence").length = 14 := by decide +kernel
  have hkey := assertion.signerKey.bytes.2
  rw [Assertion.payloadBytes, ← append_nil (u64 assertion.expiresAt)]
  simp (disch := first | omega | simp) only [readPayload, array, fixed, bind_reads, bind_version,
    bind_reject, DevicePublicKey.fromBytes_toBytes, mapError_ok]
  rfl

/-- The envelope is read first, and the payload from it. -/
theorem Assertion.oneEncoding : OneEncoding Assertion.encode Assertion.decode where
  decode_encode {assertion bytes} encoded := by
    have hencoded := encoded
    simp only [Assertion.encode, ok_steps] at encoded
    obtain ⟨_, -, payload, hpayload, rfl⟩ := encoded
    obtain ⟨consumer, operation, rfl⟩ := payload_eq_ok hpayload
    have hshort := payloadBytes_length_le consumer operation
    have hbound : (Cbor.array 3 ++ (unsigned 1 ++ (Cbor.bytes assertion.payloadBytes ++
        Cbor.bytes assertion.signature.1))).length ≤ 1024 :=
      headThen (unsignedThen (append_le (bytes_le hshort) (fixed_length_le _))) |>.trans (by decide)
    have hread : readEnvelope.run (Cbor.array 3 ++ (unsigned 1 ++
        (Cbor.bytes assertion.payloadBytes ++ Cbor.bytes assertion.signature.1))) =
          .ok ((assertion.payloadBytes, assertion.signature), []) := by
      rw [← append_nil (Cbor.bytes assertion.signature.1)]
      simp (disch := omega) only [readEnvelope, array, fixed, bind_reads, bind_version]
      rfl
    simp only [Assertion.decode, canonical, ok_steps, exists_const, not_lt, not_not]
    exact ⟨hbound, _, hread, _, run_readPayload consumer operation, _, hpayload, rfl, _, hencoded,
      rfl, rfl⟩
  encode_decode {assertion bytes} decoded := by
    simp only [Assertion.decode, canonical, ok_steps, exists_const, not_not] at decoded
    obtain ⟨-, ⟨⟨payload, signature⟩, _⟩, -, ⟨found, _⟩, -, _, -, -, encoded, hencoded, rfl, rfl⟩ :=
      decoded
    exact hencoded

end Actions

/-! ## Every document -/

section Documents

variable [Sha256]

/-- One encoding, and where the hash does not collide one document for each digest, whatever domain
the digest is under. -/
structure Identified {α ε ε' : Type} (encode : α → Except ε Bytes) (decode : Bytes → Except ε' α) :
    Prop extends OneEncoding encode decode where
  digest_injective : ∀ (seen : Set Bytes) (domain a b : Bytes) (first second : α),
    CollisionFree seen → encode first = .ok a → encode second = .ok b → domain ++ a ∈ seen →
    domain ++ b ∈ seen → Sha256.digest (domain ++ a) = Sha256.digest (domain ++ b) →
    first = second

theorem identified {α ε ε' : Type} {encode : α → Except ε Bytes} {decode : Bytes → Except ε' α}
    (one : OneEncoding encode decode) : Identified encode decode where
  toOneEncoding := one
  digest_injective seen domain a b first second free hfirst hsecond here there same := by
    have hbytes : a = b := append_cancel_left (free here there same)
    subst hbytes
    exact one.encode_injective hfirst hsecond

variable [Ed25519] [P256] [Frost]

/-- **Every root-authority document has one encoding**: whatever its encoder writes its decoder reads
back, whatever its decoder accepts its encoder writes, and a digest names one document. -/
theorem root_documents_identified :
    Identified RootStep.encode RootStep.decode ∧
    Identified Grant.encode Grant.decode ∧
    Identified Revocation.encode Revocation.decode ∧
    Identified GroupDescriptor.encode GroupDescriptor.decode ∧
    Identified RecoveryDescriptor.encode RecoveryDescriptor.decode ∧
    Identified Succession.encode Succession.decode ∧
    Identified RootStatus.Status.encode RootStatus.Status.decode ∧
    Identified Renewal.Policy.encode Renewal.Policy.decode ∧
    Identified Renewal.SignedPolicy.encode Renewal.SignedPolicy.decode ∧
    Identified Challenge.encode Challenge.decode ∧
    Identified Assertion.encode Assertion.decode ∧
    Identified Authority.AuthorityManifest.encode Authority.decodeManifest ∧
    Identified Authority.CertifiedKey.encode Authority.decodeCertificate :=
  ⟨identified RootStep.oneEncoding, identified Grant.oneEncoding,
    identified Revocation.oneEncoding, identified GroupDescriptor.oneEncoding,
    identified RecoveryDescriptor.oneEncoding, identified Succession.oneEncoding,
    identified RootStatus.Status.oneEncoding, identified Renewal.Policy.oneEncoding,
    identified Renewal.SignedPolicy.oneEncoding, identified Challenge.oneEncoding,
    identified Assertion.oneEncoding,
    identified ⟨Authority.decodeManifest_encode, Authority.decodeManifest_canonical⟩,
    identified Authority.CertifiedKey.oneEncoding⟩

end Documents

end Supgang.Threshold
