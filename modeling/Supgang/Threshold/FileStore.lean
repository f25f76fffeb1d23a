/-
# Threshold.FileStore — the file store takes every snapshot of a session

`threshold/session/file_store.rs`. The store checks each snapshot it is handed against the one it
holds, checks every record of it, and writes one canonical encoding; opening decodes the file and
writes it again. The checks are meant to refuse corruption, never a session: every snapshot a
session hands over passes them, whatever the owner and the coordinators ask for.

* `Snapshot.encode`, `Snapshot.decode`, `validateRecord`, `validTransition`, `checkReplace` — the
  checks and the format.
* `encode_ok` — legal records are encoded within the limit; `decode_encode` — and read back.
* `checkReplace_ok` — every write of a session passes the checks.
* `Clerk` — a session over the file; `file_store_takes_every_snapshot` — the main result.
-/
import Supgang.Threshold.Documents
import Supgang.Threshold.Nonces

namespace Supgang.Threshold

set_option autoImplicit false
set_option linter.unusedSectionVars false

open Theory List
open Cbor (bind_bytes bind_reads bind_reject bind_u8 bytes_length_le head_length_le run_bind_of u64
  u8 unsigned_length_le)

def maxStoreBytes : Nat := 5 * 1024 * 1024

/-! ## The format -/

def Phase.code : Phase → UInt8
  | .proposed => 0
  | .committed => 1
  | .noncesIssued => 2
  | .noncesConsumed => 3
  | .signed => 4
  | .discarded => 5

def Phase.ofCode : UInt8 → Except Error Phase
  | 0 => pure .proposed
  | 1 => pure .committed
  | 2 => pure .noncesIssued
  | 3 => pure .noncesConsumed
  | 4 => pure .signed
  | 5 => pure .discarded
  | _ => throw Error.invalid

def Role.code : Role → UInt8
  | .root => 0
  | .recovery => 1
  | .successorPossession => 2
  | .recoveryPossession => 3

def Role.ofCode : UInt8 → Except Error Role
  | 0 => pure .root
  | 1 => pure .recovery
  | 2 => pure .successorPossession
  | 3 => pure .recoveryPossession
  | _ => throw Error.invalid

theorem Phase.ofCode_code (phase : Phase) : Phase.ofCode phase.code = .ok phase := by
  cases phase <;> rfl

theorem Role.ofCode_code (role : Role) : Role.ofCode role.code = .ok role := by
  cases role <;> rfl

/-- The transitions of a phase that a write may make. -/
def validTransition : Phase → Phase → Bool
  | .proposed, new => new = .proposed || new = .committed || new = .discarded
  | .committed, new => new = .committed || new = .noncesIssued || new = .discarded
  | .noncesIssued, new => new = .noncesIssued || new = .noncesConsumed || new = .discarded
  | .noncesConsumed, new => new = .noncesConsumed || new = .signed || new = .discarded
  | .signed, new => new = .signed || new = .discarded
  | .discarded, new => new = .discarded

def optional : Option Bytes → Bytes
  | some bytes => Cbor.bytes bytes
  | none => Cbor.null

def reviewBytes : Option Review → Bytes
  | some review => Cbor.array 2 ++ (Cbor.bytes review.tip.1 ++ Cbor.u8 review.role.code)
  | none => Cbor.null

/-- The item of a record whose step encodes to `step`. -/
def recordBytes (record : Record) (step : Bytes) : Bytes :=
  Cbor.array 11 ++ (Cbor.bytes record.id.1 ++ (Cbor.bytes step ++ (Cbor.bytes record.stepDigest.1 ++
    (Cbor.u8 record.phase.code ++ (Cbor.u64 record.committedAt ++ (Cbor.bool record.permanent ++
    (optional record.commitment ++ (optional (record.packageDigest.map Subtype.val) ++
    (optional record.cachedShare ++ (reviewBytes record.review ++ Cbor.u8 0))))))))))

/-- The bytes of an optional string of at most `maximum` bytes. -/
def readOptional (maximum : Nat) : Cbor.Reader Error (Option Bytes) :=
  Cbor.readNullable do
    let bytes ← Cbor.readBytes
    reject (maximum < bytes.length) Error.bound
    return bytes

def readReview : Cbor.Reader Error (Option Review) :=
  Cbor.readNullable do
    array 2
    let tip ← fixed 32
    let code ← Cbor.readU8
    let role ← ofExcept (Role.ofCode code)
    return { tip, role }

section Machine

variable [Sha256] [Ed25519] [P256] [Frost]

/-- What the store asks of the FROST library beyond the session. -/
class FrostCommitments where
  deserializeCommitments : Bytes → Option FrostTypes.SigningCommitments

variable [FrostCommitments]

/-- A record that contradicts itself. -/
def Record.Broken (record : Record) : Prop :=
  (record.phase = .proposed ∧ record.review.isSome) ∨
    (¬(record.phase = .proposed ∨ record.phase = .discarded) ∧ record.review.isNone) ∨
    (record.permanent ∧ record.review.isNone) ∨
    record.permanent ≠ record.packageDigest.isSome ∨
    (record.cachedShare.isSome ∧ ¬record.permanent) ∨
    ((record.phase = .noncesIssued ∨ record.phase = .noncesConsumed ∨ record.phase = .signed) ∧
      record.commitment.isNone) ∨
    ((record.phase = .noncesConsumed ∨ record.phase = .signed) ∧ ¬record.permanent) ∨
    (record.phase = .signed ∧ record.cachedShare.isNone)

instance (record : Record) : Decidable record.Broken := inferInstanceAs (Decidable (_ ∨ _))

def validateRecord (binding : Binding) (record : Record) : Except Error Unit := do
  reject (record.step.hive ≠ binding.hive) Error.invalid
  let digest ← record.step.digest
  reject (record.stepDigest ≠ digest ∨ record.Broken) Error.invalid
  record.commitment.forM fun bytes => do
    reject (256 < bytes.length) Error.bound
    let _ ← okOr (FrostCommitments.deserializeCommitments bytes) Error.frost
  record.cachedShare.forM fun bytes => do
    reject (bytes.length ≠ 32) Error.invalid
    let _ ← okOr (Frost.deserializeShare bytes) Error.frost

/-- The records after those with the given ids, none of which may occur again. -/
def encodeRecords (binding : Binding) : List SessionId → List Record → Except Error Bytes
  | _, [] => pure []
  | ids, record :: rest => do
      validateRecord binding record
      reject (record.id ∈ ids) Error.invalid
      let step ← record.step.encode
      let rest ← encodeRecords binding (record.id :: ids) rest
      return recordBytes record step ++ rest

def Snapshot.encode (binding : Binding) (state : Snapshot) : Except Error Bytes := do
  reject (maxRecords < state.records.length) Error.bound
  let group ← binding.group.encode
  let records ← encodeRecords binding [] state.records
  let bytes := Cbor.array 7 ++ (Cbor.u8 2 ++ (Cbor.bytes binding.hive.1 ++
    (Cbor.bytes group ++ (Cbor.u16 binding.participant ++ (Cbor.u64 state.revision ++
    (Cbor.u64 state.lastTime ++ (Cbor.array state.records.length ++ records)))))))
  reject (maxStoreBytes < bytes.length) Error.bound
  return bytes

def readRecord : Cbor.Reader Error Record := do
  array 11
  let id ← fixed 32
  let raw ← Cbor.readBytes
  let step ← ofExcept (RootStep.decode raw)
  let stepDigest ← fixed 32
  let code ← Cbor.readU8
  let phase ← ofExcept (Phase.ofCode code)
  let committedAt ← Cbor.readU64
  let permanent ← Cbor.readBool
  let commitment ← readOptional 256
  let package ← readOptional 32
  let packageDigest ← package.mapM fun bytes =>
    ofExcept (okOr (FixedBytes.ofBytes? 32 bytes) Error.invalid)
  let cachedShare ← readOptional 32
  let review ← readReview
  let tail ← Cbor.readU8
  reject (tail ≠ 0) Error.invalid
  return { id, step, stepDigest, review, phase, committedAt, permanent, commitment, packageDigest,
           cachedShare }

def readSnapshot (binding : Binding) : Cbor.Reader Error Snapshot := do
  array 7
  let version ← Cbor.readU8
  reject (version ≠ 2) Error.authority
  let hive ← Cbor.readBytes
  reject (hive ≠ binding.hive.1) Error.authority
  let found ← Cbor.readBytes
  let group ← ofExcept binding.group.encode
  reject (found ≠ group) Error.authority
  let participant ← Cbor.readU16
  reject (participant ≠ binding.participant) Error.authority
  let revision ← Cbor.readU64
  let lastTime ← Cbor.readU64
  let size ← count maxRecords
  let records ← Cbor.readMany readRecord size
  return { revision, lastTime, records }

def Snapshot.decode (binding : Binding) (bytes : Bytes) : Except Error Snapshot := do
  let (state, _) ← (readSnapshot binding).run bytes
  let encoded ← state.encode binding
  canonical bytes encoded
  return state

/-! ## The store -/

/-- What a write may not change of a record it replaces. -/
def checkRecord (old new : Record) : Except Error Unit :=
  reject (old.id ≠ new.id ∨ old.step ≠ new.step ∨ old.stepDigest ≠ new.stepDigest ∨
    (old.review.isSome ∧ old.review ≠ new.review) ∨ (old.permanent ∧ ¬new.permanent) ∨
    (old.packageDigest.isSome ∧ old.packageDigest ≠ new.packageDigest) ∨
    (old.cachedShare.isSome ∧ old.cachedShare ≠ new.cachedShare) ∨
    (old.commitment.isSome ∧ old.commitment ≠ new.commitment) ∨
    (old.phase ≠ .proposed ∧ old.committedAt ≠ new.committedAt) ∨
    ¬validTransition old.phase new.phase) Error.store

/-- The checks of `replace` on the handle's own state. -/
def checkReplace (state : Snapshot) (expected : UInt64) (next : Snapshot) : Except Error Unit := do
  reject (expected ≠ state.revision) Error.store
  let revision ← okOr (checkedAdd expected 1) Error.bound
  reject (next.revision ≠ revision ∨ next.lastTime < state.lastTime ∨
    next.records.length < state.records.length ∨
    state.records.length + 1 < next.records.length) Error.store
  (state.records.zip next.records).forM fun (old, new) => checkRecord old new

/-- The handle, and what the state file holds. Without I/O failure a write that was begun completes,
so the handle is never poisoned. -/
structure FileStore where
  binding : Binding
  state : Snapshot
  file : Bytes

/-- Compare-and-swap one complete snapshot. -/
def FileStore.replace (expected : UInt64) (next : Snapshot) : EStateM Error FileStore Unit := do
  let store ← get
  ofExcept (checkReplace store.state expected next)
  let file ← ofExcept (next.encode store.binding)
  set { store with state := next, file }

/-- What the state file holds, or nothing before its first use. -/
def loadSnapshot (binding : Binding) : Option Bytes → Except Error Snapshot
  | some bytes => do
      reject (maxStoreBytes < bytes.length) Error.bound
      Snapshot.decode binding bytes
  | none => pure { revision := 0, lastTime := 0, records := [] }

/-- Creates or reopens a store, and persists its scope even if no session is ever proposed. -/
def FileStore.open (binding : Binding) (file : Option Bytes) : Except Error FileStore := do
  let _ ← binding.group.encode
  reject (binding.participant = 0 ∨
    binding.group.participants.length < binding.participant.toNat) Error.authority
  let state ← loadSnapshot binding file
  let file ← state.encode binding
  return { binding, state, file }

/-! ## The parts of a record -/

/-- The library's strings have the sizes the format allows, and its own strings parse. -/
structure FrostSizes : Prop where
  commitments : ∀ (commitment : FrostTypes.SigningCommitments) (bytes : Bytes),
    Frost.serializeCommitments commitment = some bytes →
      bytes.length ≤ 256 ∧ (FrostCommitments.deserializeCommitments bytes).isSome
  shares : ∀ share : FrostTypes.SignatureShare,
    (Frost.serializeShare share).length = 32 ∧
      (Frost.deserializeShare (Frost.serializeShare share)).isSome

variable {binding : Binding} {uses : List Use} {record : Record} {records altered : List Record}
  {state before after : Snapshot} {group : Bytes} {new : Record}

theorem Record.Legal.encoded (legal : record.Legal binding) :
    record.step.encode = .ok (stepBytes record.step) ∧
      (stepBytes record.step).length ≤ maxStepBytes := by
  obtain ⟨bytes, encoded, _⟩ := digest_eq_ok.mp legal.digest
  obtain ⟨rfl, _⟩ := encode_eq_ok encoded
  refine ⟨encoded, ?_⟩
  unfold RootStep.encode at encoded
  obtain ⟨_, encoded⟩ := reject_bind_eq_ok.mp encoded
  obtain ⟨_, _, encoded⟩ := bind_eq_ok.mp encoded
  exact not_lt.mp (reject_bind_eq_ok.mp encoded).1

theorem Record.Legal.flags (legal : record.Legal binding) : ¬record.Broken := by
  have absent : ∀ {α : Type} {value : Option α}, value.isSome → ¬value.isNone := by
    intro α value
    cases value <;> simp
  rintro (⟨phase, h⟩ | ⟨phase, h⟩ | ⟨permanent, h⟩ | h | ⟨cached, h⟩ | ⟨phase, h⟩ | ⟨phase, h⟩ |
    ⟨phase, h⟩)
  · rw [legal.unreviewed phase] at h
    cases h
  · obtain ⟨proposed, discarded⟩ := not_or.mp phase
    exact absent (legal.reviewed proposed discarded) h
  · exact absent (legal.locked permanent) h
  · exact h legal.permanent
  · exact h (legal.permanent.trans (legal.cached cached).1)
  · exact absent (legal.committed phase) h
  · exact h (legal.permanent.trans (legal.packaged phase))
  · exact absent (legal.released phase) h

theorem optional_length_le {value : Option Bytes} {n : Nat}
    (short : ∀ bytes ∈ value, bytes.length ≤ n) : (optional value).length ≤ 9 + n := by
  cases value with
  | none =>
    have : (optional none).length = 1 := rfl
    omega
  | some bytes =>
    have := bytes_length_le bytes
    have := short bytes rfl
    change (Cbor.bytes bytes).length ≤ 9 + n
    omega

theorem reviewBytes_length_le (review : Option Review) : (reviewBytes review).length ≤ 59 := by
  cases review with
  | none => decide
  | some review =>
    have tip := bytes_length_le review.tip.1
    have size := review.tip.2
    have array := head_length_le 4 2
    have role := unsigned_length_le review.role.code.toNat
    unfold reviewBytes Cbor.array u8
    rw [length_append, length_append]
    omega

theorem group_length_le {group : GroupDescriptor} {bytes : Bytes}
    (encoded : group.encode = .ok bytes) : bytes.length ≤ 4096 := by
  obtain ⟨fits, rfl⟩ := GroupDescriptor.encode_eq_ok encoded
  exact (GroupDescriptor.bytes_length_le fits).trans (by decide)

theorem readOptional_run {value : Option Bytes} {maximum : Nat} (bounded : maximum < 2 ^ 64)
    (short : ∀ bytes ∈ value, bytes.length ≤ maximum) (rest : Bytes) :
    (readOptional maximum).run (optional value ++ rest) = .ok (value, rest) := by
  cases value with
  | none => exact Cbor.run_readNullable_null _ rest
  | some bytes =>
    have fits : bytes.length < 2 ^ 64 := (short bytes rfl).trans_lt bounded
    refine Cbor.run_readNullable_bytes fits ?_
    rw [bind_bytes fits, bind_reject (not_lt.mpr (short bytes rfl))]
    rfl

theorem readReview_run (review : Option Review) (rest : Bytes) :
    readReview.run (reviewBytes review ++ rest) = .ok (review, rest) := by
  cases review with
  | none => exact Cbor.run_readNullable_null _ rest
  | some review =>
    unfold reviewBytes readReview
    simp only [append_assoc]
    refine Cbor.run_readNullable_head (by decide) (by decide) ?_
    rw [← Cbor.array]
    simp (disch := omega) only [array, fixed, bind_reads, Role.ofCode_code]
    rfl

theorem RootStep.decode_stepBytes (legal : record.Legal binding) :
    RootStep.decode (stepBytes record.step) = .ok record.step := by
  obtain ⟨encoded, short⟩ := legal.encoded
  have fits : record.step.payload.length < 2 ^ 64 := by
    have := (encode_eq_ok encoded).2.2
    omega
  have read := readStep_run fits []
  rw [append_nil] at read
  unfold RootStep.decode
  rw [reject_bind, if_neg (not_lt.mpr short), read, ok_bind]
  simp only [encoded, ok_bind, canonical]
  exact reject_bind_eq_ok.mpr ⟨not_not.mpr rfl, rfl⟩

/-! ## Every record is encoded -/

section Sizes

variable (sizes : FrostSizes)

include sizes

section Legal

variable (legal : record.Legal binding)

include legal

theorem Record.Legal.commitment_fits : ∀ bytes ∈ record.commitment, bytes.length ≤ 256 ∧
      (FrostCommitments.deserializeCommitments bytes).isSome := by
  intro bytes found
  obtain ⟨commitment, serialized⟩ := legal.commitments bytes found
  exact sizes.commitments commitment bytes serialized

theorem Record.Legal.share_fits : ∀ bytes ∈ record.cachedShare, bytes.length = 32 ∧
      (Frost.deserializeShare bytes : Option FrostTypes.SignatureShare).isSome := by
  intro bytes found
  obtain ⟨share, rfl⟩ := legal.shares bytes found
  exact sizes.shares share

theorem validateRecord_ok : validateRecord binding record = .ok () := by
  unfold validateRecord
  rw [reject_bind, if_neg (not_not.mpr legal.hive), legal.digest, ok_bind, reject_bind,
    if_neg (not_or.mpr ⟨not_not.mpr rfl, legal.flags⟩)]
  have commitment : (record.commitment.forM fun bytes => do
      reject (256 < bytes.length) Error.bound
      let _ ← okOr (FrostCommitments.deserializeCommitments bytes) Error.frost) =
      Except.ok () := by
    cases found : record.commitment with
    | none => rfl
    | some bytes =>
      obtain ⟨short, parses⟩ := legal.commitment_fits sizes bytes found
      obtain ⟨value, parsed⟩ := Option.isSome_iff_exists.mp parses
      refine reject_bind_eq_ok.mpr ⟨not_lt.mpr short, ?_⟩
      rw [parsed]
      rfl
  have share : (record.cachedShare.forM fun bytes => do
      reject (bytes.length ≠ 32) Error.invalid
      let _ ← okOr (Frost.deserializeShare bytes) Error.frost) = Except.ok () := by
    cases found : record.cachedShare with
    | none => rfl
    | some bytes =>
      obtain ⟨short, parses⟩ := legal.share_fits sizes bytes found
      obtain ⟨value, parsed⟩ := Option.isSome_iff_exists.mp parses
      refine reject_bind_eq_ok.mpr ⟨not_not.mpr short, ?_⟩
      rw [parsed]
      rfl
  rw [commitment, ok_bind, share]

/-- The largest record: a step of 16 KiB and every optional string. -/
theorem recordBytes_length_le : (recordBytes record (stepBytes record.step)).length ≤ 16920 := by
  have id := bytes_length_le record.id.1
  have idSize := record.id.2
  have step := bytes_length_le (stepBytes record.step)
  have stepSize := legal.encoded.2
  have digest := bytes_length_le record.stepDigest.1
  have digestSize := record.stepDigest.2
  have array := head_length_le 4 11
  have phase := unsigned_length_le record.phase.code.toNat
  have time := unsigned_length_le record.committedAt.toNat
  have permanent : (Cbor.bool record.permanent).length = 1 := by cases record.permanent <;> rfl
  have commitment := optional_length_le fun bytes found =>
    (legal.commitment_fits sizes bytes found).1
  have package : (optional (record.packageDigest.map Subtype.val)).length ≤ 9 + 32 := by
    refine optional_length_le fun bytes found => ?_
    obtain ⟨digest, _, rfl⟩ := Option.map_eq_some_iff.mp found
    exact digest.2.le
  have share := optional_length_le fun bytes found => (legal.share_fits sizes bytes found).1.le
  have review := reviewBytes_length_le record.review
  have tail := unsigned_length_le (0 : UInt8).toNat
  unfold maxStepBytes at stepSize
  unfold recordBytes Cbor.array u8 u64
  simp only [length_append]
  omega

theorem readRecord_run (rest : Bytes) :
    readRecord.run (recordBytes record (stepBytes record.step) ++ rest) = .ok (record, rest) := by
  have stepFits : (stepBytes record.step).length < 2 ^ 64 := by
    have short := legal.encoded.2
    unfold maxStepBytes at short
    omega
  have packageFits : ∀ bytes ∈ record.packageDigest.map Subtype.val, bytes.length ≤ 32 := by
    intro bytes found
    obtain ⟨digest, _, rfl⟩ := Option.map_eq_some_iff.mp found
    exact digest.2.le
  have package : ∀ rest, ((record.packageDigest.map Subtype.val).mapM fun bytes =>
      (ofExcept (okOr (FixedBytes.ofBytes? 32 bytes) Error.invalid) :
        Cbor.Reader Error Digest)).run rest = .ok (record.packageDigest, rest) := by
    intro rest
    cases record.packageDigest with
    | none => rfl
    | some digest =>
      simp only [Option.map_some, Option.mapM_some, FixedBytes.ofBytes?_val, okOr_some]
      rfl
  unfold recordBytes readRecord
  simp (disch := first | omega | simp) only [append_assoc, array, fixed, bind_reads,
    RootStep.decode_stepBytes legal, Phase.ofCode_code, run_bind_of (Cbor.run_readBool _ _),
    run_bind_of (readOptional_run (by decide) (fun bytes found => (legal.commitment_fits sizes bytes found).1) _),
    run_bind_of (readOptional_run (by decide) packageFits _), run_bind_of (package _),
    run_bind_of (readOptional_run (by decide) (fun bytes found => (legal.share_fits sizes bytes found).1.le) _),
    run_bind_of (readReview_run _ _)]
  exact bind_reject (by simp) _ _ _

end Legal

theorem encodeRecords_ok (legal : ∀ record ∈ records, record.Legal binding)
    (nodup : (records.map Record.id).Nodup) {ids : List SessionId}
    (fresh : ∀ record ∈ records, record.id ∉ ids) : encodeRecords binding ids records =
      .ok (records.flatMap fun record => recordBytes record (stepBytes record.step)) := by
  induction records generalizing ids with
  | nil => rfl
  | cons record rest ih =>
    obtain ⟨first, others⟩ := forall_mem_cons.mp legal
    obtain ⟨new, news⟩ := forall_mem_cons.mp fresh
    obtain ⟨apart, distinct⟩ := nodup_cons.mp nodup
    have later : ∀ other ∈ rest, other.id ∉ record.id :: ids := by
      intro other member there
      rcases mem_cons.mp there with same | earlier
      · exact apart (same ▸ mem_map_of_mem member)
      · exact news other member earlier
    unfold encodeRecords
    rw [validateRecord_ok sizes first, ok_bind, reject_bind, if_neg new, first.encoded.1, ok_bind,
      ih others distinct later, ok_bind, flatMap_cons]
    rfl

/-! ## Within the limit -/

theorem records_length_le (legal : ∀ record ∈ records, record.Legal binding) :
    (records.flatMap fun record => recordBytes record (stepBytes record.step)).length ≤
      records.length * 16920 :=
  Cbor.flatMap_length_le fun record inside => recordBytes_length_le sizes (legal record inside)

/-- What the state file holds of a snapshot of legal records. -/
def snapshotBytes (binding : Binding) (group : Bytes) (state : Snapshot) : Bytes :=
  Cbor.array 7 ++ (Cbor.u8 2 ++ (Cbor.bytes binding.hive.1 ++
    (Cbor.bytes group ++ (Cbor.u16 binding.participant ++ (Cbor.u64 state.revision ++
    (Cbor.u64 state.lastTime ++ (Cbor.array state.records.length ++
    state.records.flatMap fun record => recordBytes record (stepBytes record.step))))))))

section Encoded

variable (encoded : binding.group.encode = .ok group) (kept : Kept binding state.records)

include encoded kept

theorem snapshotBytes_length_le : (snapshotBytes binding group state).length ≤ maxStoreBytes := by
  have array := head_length_le 4 7
  have version := unsigned_length_le (2 : UInt8).toNat
  have hive := bytes_length_le binding.hive.1
  have hiveSize := binding.hive.2
  have scope := bytes_length_le group
  have scopeSize := group_length_le encoded
  have participant := unsigned_length_le binding.participant.toNat
  have revision := unsigned_length_le state.revision.toNat
  have time := unsigned_length_le state.lastTime.toNat
  have count := head_length_le 4 state.records.length
  have records := records_length_le sizes kept.legal
  have few := kept.few
  unfold maxRecords at few
  unfold snapshotBytes maxStoreBytes Cbor.array u8 Cbor.u16 u64
  simp only [length_append]
  omega

/-- A snapshot of legal records is encoded. -/
theorem encode_ok : state.encode binding = .ok (snapshotBytes binding group state) := by
  unfold Snapshot.encode
  rw [reject_bind, if_neg (not_lt.mpr kept.few), encoded, ok_bind,
    encodeRecords_ok sizes kept.legal kept.nodup (fun _ _ => not_mem_nil), ok_bind]
  exact reject_bind_eq_ok.mpr ⟨not_lt.mpr (snapshotBytes_length_le sizes encoded kept), rfl⟩

/-! ## Reading back -/

theorem readSnapshot_run :
    (readSnapshot binding).run (snapshotBytes binding group state) = .ok (state, []) := by
  have scope : group.length < 2 ^ 64 := by
    have := group_length_le encoded
    omega
  have hive : binding.hive.1.length < 2 ^ 64 := by
    rw [binding.hive.2]
    decide
  have few : state.records.length < 2 ^ 64 := by
    have := kept.few
    unfold maxRecords at this
    omega
  rw [← append_nil (snapshotBytes binding group state)]
  unfold snapshotBytes readSnapshot
  simp only [append_assoc, array]
  rw [Cbor.bind_requireArray _ (by decide), bind_u8 2]
  simp (disch := first | assumption | simp) only [bind_reject, bind_reads, encoded,
    bind_count kept.few few,
    Cbor.bind_many fun record member => readRecord_run sizes (kept.legal record member)]
  rfl

end Encoded

/-- **What is written is read back.** -/
theorem decode_encode {bytes : Bytes} (kept : Kept binding state.records)
    (written : state.encode binding = .ok bytes) : Snapshot.decode binding bytes = .ok state := by
  have written' := written
  unfold Snapshot.encode at written'
  obtain ⟨_, written'⟩ := reject_bind_eq_ok.mp written'
  obtain ⟨group, encoded, _⟩ := bind_eq_ok.mp written'
  obtain rfl : snapshotBytes binding group state = bytes :=
    Except.ok.inj ((encode_ok sizes encoded kept).symm.trans written)
  unfold Snapshot.decode
  rw [readSnapshot_run sizes encoded kept, ok_bind]
  simp only [written, ok_bind, canonical]
  exact reject_bind_eq_ok.mpr ⟨not_not.mpr rfl, rfl⟩

end Sizes

/-! ## Every write passes the checks -/

theorem zip_append_self {first second : List Record} {old : Record}
    (member : (old, new) ∈ first.zip (first ++ second)) : old ∈ first ∧ new = old := by
  induction first with
  | nil => cases member
  | cons head rest ih =>
    rcases mem_cons.mp member with here | later
    · cases here
      exact ⟨mem_cons_self, rfl⟩
    · obtain ⟨inside, eq⟩ := ih later
      exact ⟨mem_cons_of_mem _ inside, eq⟩

/-- The records of a write, beside those they replace. -/
theorem Rewrites.zip (rewrites : Rewrites binding uses records altered) {old : Record}
    (member : (old, new) ∈ records.zip altered) : old ∈ records ∧ old.Change uses new := by
  cases rewrites with
  | propose fresh room hive hashed =>
    obtain ⟨inside, rfl⟩ := zip_append_self member
    exact ⟨inside, .keep⟩
  | change each alone =>
    rw [zip_map_right] at member
    obtain ⟨⟨record, same⟩, inside, eq⟩ := mem_map.mp member
    have beside : (record, same) ∈ records.zip (records ++ []) := by
      rw [append_nil]
      exact inside
    obtain ⟨inside, rfl⟩ := zip_append_self beside
    cases eq
    exact ⟨inside, each _ inside⟩

theorem Rewrites.length (rewrites : Rewrites binding uses records altered) :
    records.length ≤ altered.length ∧ altered.length ≤ records.length + 1 := by
  cases rewrites with
  | propose =>
    rw [length_append, length_singleton]
    omega
  | change =>
    rw [length_map]
    omega

theorem Record.Change.validTransition (change : record.Change uses new) :
    Threshold.validTransition record.phase new.phase = true := by
  cases change with
  | keep => cases record.phase <;> rfl
  | discard => cases record.phase <;> rfl
  | commit review now proposed =>
    rw [proposed]
    rfl
  | issue committed serialized =>
    rw [committed]
    rfl
  | consume digest issued =>
    rw [issued]
    rfl
  | sign yielded consumed =>
    rw [consumed]
    rfl

theorem checkRecord_ok (change : record.Change uses new) (legal : record.Legal binding) :
    checkRecord record new = .ok () := by
  have transition := change.validTransition
  refine reject_eq_ok.mpr ?_
  cases change with
  | keep => simp [transition]
  | discard => simp [transition]
  | commit review now proposed => simp [validTransition, Record.commit, proposed, legal.unreviewed proposed]
  | issue committed serialized => simp [transition, legal.uncommitted (.inr committed)]
  | consume digest issued => simp [transition, legal.unpackaged (.inr (.inr issued))]
  | sign yielded consumed =>
    have uncached : record.cachedShare = none :=
      legal.uncached (by rw [consumed]; nofun) (by rw [consumed]; nofun)
    simp [transition, uncached]

/-- **The checks of the store pass.** -/
theorem checkReplace_ok (writes : before.Writes binding uses after)
    (kept : Kept binding before.records) : checkReplace before before.revision after = .ok () := by
  obtain ⟨grows, most⟩ := writes.records.length
  unfold checkReplace
  rw [reject_bind, if_neg (not_not.mpr rfl), writes.revision, okOr_some, ok_bind, reject_bind,
    if_neg]
  · refine forM_eq_ok.mpr fun pair member => ?_
    obtain ⟨inside, change⟩ := writes.records.zip member
    exact checkRecord_ok change (kept.legal _ inside)
  · rintro (h | h | h | h)
    · exact h rfl
    · exact absurd writes.time (UInt64.not_le.mpr h)
    · omega
    · omega

/-! ## A session over the file -/

/-- The states of a session over an operation, one for each stage. -/
def Session.stages (session : Session) : Call → List Session
  | .propose id step now => [left (propose id step now) session]
  | .commit id now policy presence seed =>
    [left (lock id now policy presence) session,
      left (commit id now policy presence seed) session]
  | .sign package now => [left (consume package now) session, left (sign package now) session]
  | .discard id now => [left (discard id now) session]
  | .restart _ => []

/-- Each state is where one stage leaves the one before. -/
def Chained (session : Session) : List Session → Prop
  | [] => True
  | after :: rest => Session.Stage session after ∧ Chained after rest

theorem Session.Steady.chained {session : Session} (steady : session.Steady) (call : Call) :
    Chained session (session.stages call) := by
  cases call with
  | propose id step now => exact ⟨(propose_staged step).left.stage, trivial⟩
  | discard id now => exact ⟨(discard_staged steady).left.stage, trivial⟩
  | restart key => trivial
  | commit id now policy presence seed =>
    have locking : Ends session (lock id now policy presence) _ _ :=
      lock_staged steady policy presence
    dsimp only [stages]
    unfold commit
    cases run : (lock id now policy presence).run session with
    | error e t =>
      have failed : (lock id now policy presence >>= fun _ => issue id now seed).run session =
          .error e t := by
        rw [EStateM.run_bind, run]
      rw [left_of_error run, left_of_error failed]
      exact ⟨(locking.error run).stage, .idle (.refl t), trivial⟩
    | ok u locked =>
      obtain ⟨staged, _, _, _, committed⟩ := locking.ok run
      have steady' := staged.stage.steady steady
      rw [left_of_ok run, left_bind run]
      refine ⟨staged.stage, ?_, trivial⟩
      have issuing : Ends locked (issue id now seed) _ _ := issue_staged steady' committed seed
      exact issuing.left.stage
  | sign package now =>
    have consuming : Ends session (consume package now) _ _ :=
      consume_staged steady package
    dsimp only [stages]
    unfold sign
    cases run : (consume package now).run session with
    | error e t =>
      have failed : (consume package now >>= conclude package now).run session =
          .error e t := by
        rw [EStateM.run_bind, run]
      rw [left_of_error run, left_of_error failed]
      exact ⟨(consuming.error run).stage, .idle (.refl t), trivial⟩
    | ok result spent =>
      rw [left_of_ok run, left_bind run]
      cases result with
      | some share =>
        obtain ⟨rfl, _⟩ := consuming.ok run
        exact ⟨.idle (.refl _), .idle (.refl _), trivial⟩
      | none =>
        obtain ⟨staged, _, _, _, record, here, bound, _, consumed, _⟩ := consuming.ok run
        have steady' := staged.stage.steady steady
        refine ⟨staged.stage, ?_, trivial⟩
        have releasing : Ends spent (release package now) _ _ :=
          release_staged steady' package here bound.named consumed bound.bound
        exact (releasing.mono (fun _ _ done => done.1.stage) fun _ failed => failed.stage).left

/-- A participant whose snapshots go to the file store. The session runs as if every write were
made; `handed` are the snapshots it handed over, each with the one it replaces, and `refused` the
errors with which the store met them. -/
structure Clerk where
  machine : Machine
  file : FileStore
  handed : List (Snapshot × Snapshot)
  refused : List Error

/-- The store of a session, as the file holds it. -/
def FileStore.store (file : FileStore) : Store where
  binding := file.binding
  state := file.state
  durable := file.state
  poisoned := false
  fates := []

namespace Clerk

def start (file : FileStore) : Clerk where
  machine := .closed file.store
  file
  handed := []
  refused := []

/-- A stage that wrote has handed over the snapshot it left. -/
def hand (clerk : Clerk) (before after : Snapshot) : Clerk :=
  if after = before then clerk
  else
    let handed := clerk.handed ++ [(before, after)]
    match (FileStore.replace before.revision after).run clerk.file with
    | .ok _ file => { clerk with file, handed }
    | .error error file => { clerk with file, handed, refused := clerk.refused ++ [error] }

def follow (clerk : Clerk) (session : Session) : List Session → Clerk
  | [] => clerk
  | after :: rest =>
    let clerk := { clerk with machine := .running after }
    (clerk.hand session.store.state after.store.state).follow after rest

/-- The file store is opened again, and the session over what it read. -/
def reopen (clerk : Clerk) (key : Frost.KeyPackage) : Clerk :=
  match FileStore.open clerk.file.binding (some clerk.file.file) with
  | .error error => { clerk with refused := clerk.refused ++ [error] }
  | .ok file =>
    match (Session.open key).run file.store with
    | .ok session _ =>
      { clerk with machine := .running session, file }.hand file.state session.store.state
    | .error _ store => { clerk with machine := .closed store, file }.hand file.state store.state

def step (clerk : Clerk) (call : Call) : Clerk :=
  match clerk.machine, call with
  | _, .restart key => clerk.reopen key
  | .running session, call => clerk.follow session (session.stages call)
  | .closed _, _ => clerk

def run (clerk : Clerk) (calls : List Call) : Clerk := calls.foldl step clerk

end Clerk

/-! ## Nothing is refused -/

/-- A snapshot that the store takes in place of another, and reads back. -/
structure Taken (binding : Binding) (before after : Snapshot) : Prop where
  transitions : ∀ pair ∈ before.records.zip after.records,
    validTransition pair.1.phase pair.2.phase = true
  valid : ∀ record ∈ after.records, validateRecord binding record = .ok ()
  checked : checkReplace before before.revision after = .ok ()
  roundTrip : ∃ bytes, after.encode binding = .ok bytes ∧ bytes.length ≤ maxStoreBytes ∧
    Snapshot.decode binding bytes = .ok after

/-- An open store of legal records, whose file is the encoding of its state. -/
structure FileStore.Sound (file : FileStore) : Prop where
  group : ∃ group, file.binding.group.encode = .ok group
  participant : ¬(file.binding.participant = 0 ∨
    file.binding.group.participants.length < file.binding.participant.toNat)
  kept : Kept file.binding file.state.records
  written : file.state.encode file.binding = .ok file.file

theorem taken_of_writes (sizes : FrostSizes) (group : ∃ group, binding.group.encode = .ok group)
    (writes : before.Writes binding uses after) (kept : Kept binding before.records) :
    Taken binding before after := by
  obtain ⟨group, encoded⟩ := group
  have kept' := writes.records.kept kept
  have written := encode_ok sizes encoded kept'
  refine ⟨fun pair member => (writes.records.zip member).2.validTransition,
    fun record member => validateRecord_ok sizes (kept'.legal record member),
    checkReplace_ok writes kept, _, written, snapshotBytes_length_le sizes encoded kept', ?_⟩
  exact decode_encode sizes kept' written

namespace FileStore

variable {file : FileStore}

theorem Sound.replace (sound : file.Sound) (sizes : FrostSizes)
    (writes : file.state.Writes file.binding uses after) :
    ∃ bytes, (FileStore.replace file.state.revision after).run file =
      .ok () { file with state := after, file := bytes } ∧
      { file with state := after, file := bytes }.Sound := by
  obtain ⟨bytes, written, _⟩ := (taken_of_writes sizes sound.group writes sound.kept).roundTrip
  refine ⟨bytes, ?_, sound.group, sound.participant, writes.records.kept sound.kept, written⟩
  simp only [FileStore.replace, EStateM.run_bind, EStateM.run_get,
    checkReplace_ok writes sound.kept, run_ofExcept_ok, written]
  rfl

theorem Sound.reopen (sound : file.Sound) (sizes : FrostSizes) :
    FileStore.open file.binding (some file.file) = .ok file := by
  obtain ⟨group, encoded⟩ := sound.group
  have short : ¬maxStoreBytes < file.file.length := by
    have written := (encode_ok sizes encoded sound.kept).symm.trans sound.written
    rw [← Except.ok.inj written]
    exact not_lt.mpr (snapshotBytes_length_le sizes encoded sound.kept)
  have loaded : loadSnapshot file.binding (some file.file) = .ok file.state :=
    reject_bind_eq_ok.mpr ⟨short, decode_encode sizes sound.kept sound.written⟩
  unfold FileStore.open
  rw [encoded, ok_bind, reject_bind, if_neg sound.participant, loaded, ok_bind, sound.written,
    ok_bind]
  rfl

/-- A store that could be created is sound. -/
theorem sound_of_open (opened : FileStore.open binding none = .ok file) :
    file.binding = binding ∧ file.Sound := by
  unfold FileStore.open at opened
  obtain ⟨group, encoded, opened⟩ := bind_eq_ok.mp opened
  obtain ⟨participant, opened⟩ := reject_bind_eq_ok.mp opened
  obtain ⟨state, loaded, opened⟩ := bind_eq_ok.mp opened
  obtain ⟨bytes, written, opened⟩ := bind_eq_ok.mp opened
  obtain rfl := pure_eq_ok.mp loaded
  obtain rfl := pure_eq_ok.mp opened
  exact ⟨rfl, ⟨group, encoded⟩, participant,
    ⟨nodup_nil, Nat.zero_le _, forall_mem_nil _⟩, written⟩

end FileStore

namespace Clerk

variable {clerk : Clerk} {session : Session}

structure Served (binding : Binding) (clerk : Clerk) : Prop where
  scope : clerk.file.binding = binding
  file : clerk.file.Sound
  unrefused : clerk.refused = []
  handed : ∀ pair ∈ clerk.handed, Taken binding pair.1 pair.2

/-- The session is usable, and sees what the file store holds. -/
structure Attends (clerk : Clerk) (session : Session) : Prop where
  steady : session.Steady
  usable : session.poisoned = false
  fates : session.store.fates = []
  state : session.store.state = clerk.file.state
  scope : session.store.binding = clerk.file.binding

theorem start_served {file : FileStore} (sound : file.Sound) :
    (start file).Served file.binding :=
  ⟨rfl, sound, rfl, forall_mem_nil _⟩

variable (served : clerk.Served binding) (sizes : FrostSizes)

include served sizes

theorem Served.hand (writes : after = clerk.file.state ∨
      ∃ uses, clerk.file.state.Writes binding uses after) :
    (clerk.hand clerk.file.state after).Served binding ∧
      (clerk.hand clerk.file.state after).file.state = after ∧
      (clerk.hand clerk.file.state after).machine = clerk.machine := by
  unfold Clerk.hand
  rcases writes with same | ⟨uses, writes⟩
  · rw [if_pos same]
    exact ⟨served, same.symm, rfl⟩
  · have differ : after ≠ clerk.file.state := by
      intro same
      have counted := checkedAdd_eq_some.mp writes.revision
      rw [same] at counted
      have one : (1 : UInt64).toNat = 1 := rfl
      omega
    have scope := served.scope
    subst scope
    obtain ⟨bytes, replaced, sound⟩ := served.file.replace sizes writes
    rw [if_neg differ]
    simp only [replaced, and_true]
    refine ⟨rfl, sound, served.unrefused, ?_⟩
    intro pair member
    rcases mem_append.mp member with old | new
    · exact served.handed pair old
    · obtain rfl := mem_singleton.mp new
      exact taken_of_writes sizes served.file.group writes served.file.kept

/-- A stage hands over at most one snapshot, which the file store takes. -/
theorem Served.stage (attends : clerk.Attends session) {final : Session}
    (stage : Session.Stage session final) :
    let next := { clerk with machine := .running final }.hand session.store.state final.store.state
    next.Served binding ∧ next.Attends final ∧ next.machine = .running final := by
  intro next
  have moved : { clerk with machine := .running final }.Served binding :=
    ⟨served.scope, served.file, served.unrefused, served.handed⟩
  have steady := stage.steady attends.steady
  have scope := stage.binding
  have wrote : (final.store.state = clerk.file.state ∨
      ∃ uses, clerk.file.state.Writes binding uses final.store.state) ∧ final.poisoned = false ∧
      final.store.fates = [] := by
    cases stage with
    | idle kept =>
      obtain ⟨store, _, poisoned⟩ := kept
      rw [store]
      exact ⟨.inl attends.state, poisoned.trans attends.usable, attends.fates⟩
    | stored clean writes store key usable =>
      rw [store]
      refine ⟨.inr ?_, usable, ?_⟩
      · rw [attends.state, attends.scope, served.scope] at writes
        exact ⟨_, writes⟩
      · rw [attends.fates]
        rfl
    | failed clean writes store key poisoned =>
      -- Without I/O failure no write fails.
      rcases store.cause with broken | fate
      · rw [(attends.steady.clean attends.usable).1] at broken
        cases broken
      · rw [attends.fates] at fate
        exact absurd rfl fate
  obtain ⟨served', state, machine⟩ := moved.hand sizes wrote.1
  rw [← attends.state] at served' state machine
  refine ⟨served', ⟨steady, wrote.2.1, wrote.2.2, state.symm, ?_⟩, machine⟩
  rw [scope, attends.scope, served.scope]
  exact served'.scope.symm

theorem Served.follow (attends : clerk.Attends session) (running : clerk.machine = .running session)
    {stages : List Session} (chained : Chained session stages) :
    (clerk.follow session stages).Served binding ∧
      ∀ final, (clerk.follow session stages).machine = .running final →
        (clerk.follow session stages).Attends final := by
  induction stages generalizing clerk session with
  | nil =>
    refine ⟨served, fun final same => ?_⟩
    obtain rfl : session = final := Machine.running.inj (running.symm.trans same)
    exact attends
  | cons next rest ih =>
    obtain ⟨served', attends', running'⟩ := served.stage sizes attends chained.1
    exact ih served' attends' running' chained.2

/-- Reopening reads back what was written, and burns what was in flight. -/
theorem Served.reopen (key : Frost.KeyPackage) :
    (clerk.reopen key).Served binding ∧ ∀ final, (clerk.reopen key).machine = .running final →
      (clerk.reopen key).Attends final := by
  have scope := served.scope
  subst scope
  have ends := Session.open_staged clerk.file.store key
  have kept := served.file.kept
  unfold Clerk.reopen
  simp only [served.file.reopen sizes]
  have same : clerk.file.store.reopen = clerk.file.store := rfl
  rw [same] at ends
  cases run : (Session.open key).run clerk.file.store with
  | ok session store =>
    obtain ⟨rfl, own, written⟩ := ends.ok run
    have moved : { clerk with machine := .running ⟨store, key, ∅, false, ⟨[], []⟩⟩ }.Served
        clerk.file.binding := ⟨rfl, served.file, served.unrefused, served.handed⟩
    have wrote : store.state = clerk.file.state ∨
        ∃ uses, clerk.file.state.Writes clerk.file.binding uses store.state := by
      rcases written with rfl | ⟨next, writes, rfl⟩
      · exact .inl rfl
      · exact .inr ⟨[], writes⟩
    obtain ⟨served', state, machine⟩ := moved.hand sizes wrote
    refine ⟨served', fun final running => ?_⟩
    obtain rfl := Machine.running.inj (machine.symm.trans running)
    rcases written with rfl | ⟨next, writes, rfl⟩
    · exact ⟨⟨fun _ => ⟨rfl, rfl⟩, kept.nodup, kept, own⟩, rfl, rfl, state.symm,
        served'.scope.symm⟩
    · have kept' := writes.records.kept kept
      exact ⟨⟨fun _ => ⟨rfl, rfl⟩, kept'.nodup, kept', own⟩, rfl, rfl, state.symm,
        served'.scope.symm⟩
  | error e store =>
    have moved : { clerk with machine := .closed store }.Served clerk.file.binding :=
      ⟨rfl, served.file, served.unrefused, served.handed⟩
    have unchanged : store.state = clerk.file.state := by
      rcases ends.error run with rfl | ⟨next, writes, failed⟩
      · rfl
      · exact failed.state
    obtain ⟨served', _, machine⟩ := moved.hand sizes (.inl unchanged)
    refine ⟨served', fun final running => ?_⟩
    cases machine.symm.trans running

theorem Served.step (attends : ∀ session, clerk.machine = .running session → clerk.Attends session)
    (call : Call) :
    (clerk.step call).Served binding ∧ ∀ session, (clerk.step call).machine = .running session →
      (clerk.step call).Attends session := by
  unfold Clerk.step
  split
  · exact served.reopen sizes _
  · rename_i session running _
    have attending := attends session running
    exact served.follow sizes attending running (attending.steady.chained _)
  · exact ⟨served, attends⟩

theorem Served.run (attends : ∀ session, clerk.machine = .running session → clerk.Attends session)
    (calls : List Call) :
    (clerk.run calls).Served binding ∧ ∀ session, (clerk.run calls).machine = .running session →
      (clerk.run calls).Attends session := by
  induction calls generalizing clerk with
  | nil => exact ⟨served, attends⟩
  | cons call rest ih =>
    obtain ⟨served', attends'⟩ := served.step sizes attends call
    exact ih served' attends'

end Clerk

/-- **The file store takes every snapshot of a session.** In every run over a store that could be
created, without I/O failure, each snapshot handed over makes valid transitions to valid records,
is encoded within the limit and decodes to itself; the store refuses none, opens again, and leaves
the session usable. -/
theorem file_store_takes_every_snapshot (sizes : FrostSizes) {file : FileStore}
    (opened : FileStore.open binding none = .ok file) (calls : List Call) :
    let clerk := (Clerk.start file).run calls
    clerk.refused = [] ∧ (∀ pair ∈ clerk.handed, Taken binding pair.1 pair.2) ∧
      FileStore.open binding (some clerk.file.file) = .ok clerk.file ∧
      ∀ session, clerk.machine = .running session →
        session.poisoned = false ∧ session.store.state = clerk.file.state := by
  obtain ⟨rfl, sound⟩ := FileStore.sound_of_open opened
  obtain ⟨served, attends⟩ := (Clerk.start_served sound).run sizes nofun calls
  refine ⟨served.unrefused, served.handed, ?_, fun session running => ?_⟩
  · rw [← served.scope]
    exact served.file.reopen sizes
  · exact ⟨(attends session running).usable, (attends session running).state⟩

end Machine

/-! ## A member of a pair that signs and restarts -/

/-- A scheme with one share, of the length that the store asks for. -/
@[reducible] def paddedFrost : Frost := { unitFrost with serializeShare := fun _ => .replicate 32 0 }

attribute [local instance] proposerSha256 nonemptyEd25519 anyP256 paddedFrost

@[reducible] def paddedCommitments : FrostCommitments := ⟨fun _ => some ()⟩

attribute [local instance] paddedCommitments

theorem paddedFrost_sizes : FrostSizes := by
  refine ⟨?_, fun _ => ⟨rfl, rfl⟩⟩
  rintro _ _ ⟨⟩
  exact ⟨Nat.zero_le _, rfl⟩

def clerkPackage : Package where
  id := FixedBytes.replicate 32 9
  descriptor := (pairGroup 1).digest.toOption.getD default
  generation := 0
  signing := {
    signingCommitments := [((1 : UInt16), ()), ((2 : UInt16), ())]
    message := payloadStep.step.message.toOption.getD [] }

/-- Two proposals, of which one is signed and the other is in flight when the process ends. -/
def clerkCalls : List Call :=
  let commit (name : UInt8) := Call.commit (FixedBytes.replicate 32 name) 0
    (fun _ step => pure ⟨step.predecessor, .root⟩) (fun _ => true) (some default)
  [.restart (pairKey 1), .propose (FixedBytes.replicate 32 9) payloadStep.step 0, commit 9,
    .propose (FixedBytes.replicate 32 8) payloadStep.step 0, .sign clerkPackage 1,
    .restart (pairKey 1)]

/-- Seven snapshots are handed over, the last by the reopened session, and all are taken. -/
theorem file_store_takes_every_snapshot_pair :
    ∃ file, FileStore.open ⟨pairHive, pairGroup 1, 1⟩ none = .ok file ∧
      ((Clerk.start file).run clerkCalls).handed.length = 7 ∧
      ((Clerk.start file).run clerkCalls).refused = [] := by
  have created : (match FileStore.open ⟨pairHive, pairGroup 1, 1⟩ none with
      | .ok file => decide (((Clerk.start file).run clerkCalls).handed.length = 7)
      | .error _ => false) = true := by decide +kernel
  split at created
  · rename_i file opened
    exact ⟨file, opened, of_decide_eq_true created,
      (file_store_takes_every_snapshot paddedFrost_sizes opened clerkCalls).1⟩
  · cases created

end Supgang.Threshold
