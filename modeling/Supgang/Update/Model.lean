/-
# Update.Model — release slots and the records that point at them

`update/lifecycle.rs`, `update/lifecycle/local_candidate.rs`, `update/attempts.rs`, the loop of
`update/supervisor.rs` and the staging of `update.rs`. An installed computer keeps each release in a
slot named by its digest, and five small record files that say which release is active, which ran
before, which is staged, which is to be tried next, and which a revert falls back to. Each operation
changes them one file at a time under one lock.

A record's schema and path are those its digest determines, and readers refuse any others, so a
record here is its version and digest. Record files are replaced by an atomic rename; an executable
is written in place, and a directory removed entry by entry.

* `Updates` — the update directory; `validateRecord`, `validateAgainstActive`, `pruneSlots`.
* `initializeInstalled`, `stageSigned`, `activateStaged`, `cancelActivation`, `stageLocalCandidate`,
  `commitPending`, `discardPending`, `revertLocalCandidate` — the operations.
* `status`, `readActive`, `readPending`, `revertTarget` — what is read.
* `supervise` — one round of the supervisor; `select`, `judge`.
* `Order`, `Updates.run` — operations one after another, each cut short by a crash or not.
-/
import Mathlib.Order.Lattice
import Supgang.Crypto
import Supgang.Theory.Crash
import Supgang.Theory.Maps

namespace Supgang.Update

set_option autoImplicit false

open Theory Theory.Crash

/-- Maximum signed executable target accepted after TUF verification. -/
def maxUpdateTargetBytes : Nat := 128 * 1024 * 1024

def maxSlotEntriesPerPass : Nat := 16

def maxAttempts : Nat := 3

inductive UpdateError where
  | invalidBundle
  | rollback
  | busy
  | tuf
  | invalidExecutable
  | incompatibleCodeIdentity
  | replayedAuthorization
  | capacity
  | io
deriving DecidableEq, Repr

/-- What the operating system says of an executable's bytes, and in which order it lists a
directory. -/
class Platform where
  /-- The magic number of the platform's executables. -/
  executable : Bytes → Bool
  /-- The platform's signature on the code. -/
  signed : Bytes → Bool
  /-- The candidate, second, meets the requirement that the authority designates. -/
  identity : Bytes → Bytes → Bool
  listing : Std.ExtTreeMap Digest (Option Bytes) → List Digest
  listing_perm : ∀ directory, (listing directory).Perm directory.keys

structure SlotRecord (V : Type) where
  version : V
  digest : Digest
deriving DecidableEq, Repr

/-- Launches of one candidate across interrupted probations. -/
structure Attempts (V : Type) where
  digest : Digest
  version : V
  count : Nat
deriving DecidableEq, Repr

/-- The update directory. A slot, or a kept copy, is a directory that may hold an executable. -/
structure Updates (V : Type) where
  slots : Std.ExtTreeMap Digest (Option Bytes)
  copies : Std.ExtTreeMap Digest (Option Bytes)
  active : Option (SlotRecord V)
  previous : Option (SlotRecord V)
  staged : Option (SlotRecord V)
  pending : Option (SlotRecord V)
  fallback : Option (SlotRecord V)
  attempts : Option (Attempts V)

structure UpdateStatus (V : Type) where
  trusted : Bool
  activeVersion : V
  stagedVersion : Option V
  activationPending : Bool
  queuedPeerDeliveries : Nat
deriving DecidableEq, Repr

variable {V : Type}

namespace Updates

/-- The executable in the slot of a release. -/
def executable (updates : Updates V) (digest : Digest) : Option Bytes := updates.slots[digest]?.join

/-- The copy kept of a release outside the slots. -/
def copy (updates : Updates V) (digest : Digest) : Option Bytes := updates.copies[digest]?.join

/-- The records that keep a slot from being pruned. -/
def records (updates : Updates V) : List (SlotRecord V) :=
  [updates.active, updates.previous, updates.staged, updates.pending].reduceOption

end Updates

section Lifecycle

variable [Sha256] [Platform]

/-! ## Executables -/

/-- Reads a file that is neither empty nor over the bound. -/
def readExecutable (file : Option Bytes) : Except UpdateError Bytes := do
  let bytes ← okOr file .io
  reject (bytes.length = 0 ∨ maxUpdateTargetBytes < bytes.length) UpdateError.invalidBundle
  return bytes

def validateStaged (file : Option Bytes) (digest : Digest) : Except UpdateError Unit := do
  let bytes ← readExecutable file
  reject (Sha256.digest bytes ≠ digest) UpdateError.tuf
  reject (¬Platform.executable bytes) UpdateError.invalidExecutable
  reject (¬Platform.signed bytes) UpdateError.incompatibleCodeIdentity

/-- Requires the candidate to retain the platform identity approved for the authority. -/
def validateCompatibleIdentity (authority candidate : Option Bytes) : Except UpdateError Unit := do
  let authority ← okOr authority .incompatibleCodeIdentity
  reject (¬Platform.signed authority) UpdateError.incompatibleCodeIdentity
  let candidate ← okOr candidate .incompatibleCodeIdentity
  reject (¬Platform.signed candidate) UpdateError.incompatibleCodeIdentity
  reject (¬Platform.identity authority candidate) UpdateError.incompatibleCodeIdentity

/-! ## Records -/

variable [LinearOrder V]

namespace Updates

def validateRecord (updates : Updates V) (record : SlotRecord V) : Except UpdateError Unit :=
  validateStaged (updates.executable record.digest) record.digest

def validateAgainstActive (updates : Updates V) (record : SlotRecord V) :
    Except UpdateError Unit := do
  let active ← okOr updates.active .invalidBundle
  updates.validateRecord active
  reject (record ≠ active ∧ record.version ≤ active.version) UpdateError.rollback
  validateCompatibleIdentity (updates.executable active.digest) (updates.executable record.digest)

/-- The greatest version of the running process and of every record. -/
def effectiveVersionFloor (updates : Updates V) (version : V) : Except UpdateError V :=
  updates.records.foldlM (fun floor record => do
    updates.validateRecord record
    return max floor record.version) version

def readActive (updates : Updates V) : Except UpdateError (SlotRecord V) := do
  let active ← okOr updates.active .invalidBundle
  updates.validateRecord active
  return active

def readPending (updates : Updates V) : Except UpdateError (Option (SlotRecord V)) := do
  updates.pending.forM fun pending => do
    updates.validateRecord pending
    updates.validateAgainstActive pending
  return updates.pending

/-- The release that a revert would restore. -/
def revertTarget (updates : Updates V) : Except UpdateError (Option (SlotRecord V)) := do
  updates.previous.forM updates.validateRecord
  return updates.previous

/-- Reports what is trusted, active and pending. The trusted root and the queue of deliveries to peers
lie in files of their own; what reading them gives is passed in. -/
def status (updates : Updates V) (running : V) (trustedRootValid : Except UpdateError Bool)
    (queuedDeliveryCount : Except UpdateError Nat) : Except UpdateError (UpdateStatus V) := do
  let pending ← updates.readPending
  updates.active.forM updates.validateRecord
  updates.staged.forM fun staged => do
    updates.validateRecord staged
    updates.validateAgainstActive staged
  let trusted ← trustedRootValid
  let queued ← queuedDeliveryCount
  return {
    trusted
    activeVersion := updates.active.elim running SlotRecord.version
    stagedVersion := updates.staged.map SlotRecord.version
    activationPending := pending.isSome
    queuedPeerDeliveries := queued }

end Updates

/-! ## File operations -/

abbrev Operation (V α : Type) := Script UpdateError (Updates V) α

def ensureSlot (digest : Digest) : Operation V Unit := do
  let updates ← look
  if digest ∈ updates.slots then pure ()
  else atomic fun updates => { updates with slots := updates.slots.insert digest none }

/-- Writes an executable under its final name. Cut short it leaves nothing, or some of its bytes. -/
def writeNewSlot (digest : Digest) (bytes : Bytes) : Operation V Unit :=
  change
    (fun done updates => match done with
      | 0 => updates
      | length + 1 =>
        { updates with slots := updates.slots.insert digest (some (bytes.take length)) })
    fun updates => { updates with slots := updates.slots.insert digest (some bytes) }

/-- Removes a slot; cut short it may have removed the executable and not the directory. -/
def removeSlot (digest : Digest) : Operation V Unit :=
  change
    (fun done updates => match done with
      | 0 => updates
      | _ + 1 => { updates with slots := updates.slots.insert digest none })
    fun updates => { updates with slots := updates.slots.erase digest }

def ensureCopy (digest : Digest) : Operation V Unit := do
  let updates ← look
  if digest ∈ updates.copies then pure ()
  else atomic fun updates => { updates with copies := updates.copies.insert digest none }

def writeNewCopy (digest : Digest) (bytes : Bytes) : Operation V Unit :=
  change
    (fun done updates => match done with
      | 0 => updates
      | length + 1 =>
        { updates with copies := updates.copies.insert digest (some (bytes.take length)) })
    fun updates => { updates with copies := updates.copies.insert digest (some bytes) }

def removeCopy (digest : Digest) : Operation V Unit :=
  change
    (fun done updates => match done with
      | 0 => updates
      | _ + 1 => { updates with copies := updates.copies.insert digest none })
    fun updates => { updates with copies := updates.copies.erase digest }

def writeActive (record : SlotRecord V) : Operation V Unit :=
  atomic fun updates => { updates with active := some record }

def writePrevious (record : Option (SlotRecord V)) : Operation V Unit :=
  atomic fun updates => { updates with previous := record }

def writeStaged (record : Option (SlotRecord V)) : Operation V Unit :=
  atomic fun updates => { updates with staged := record }

def writePending (record : Option (SlotRecord V)) : Operation V Unit :=
  atomic fun updates => { updates with pending := record }

def writeFallback (record : SlotRecord V) : Operation V Unit :=
  atomic fun updates => { updates with fallback := some record }

def writeAttempts (attempts : Option (Attempts V)) : Operation V Unit :=
  atomic fun updates => { updates with attempts }

/-! ## Pruning -/

/-- Removes the named directories but the kept ones, until the bound of one pass. -/
def pruneLoop (remove : Digest → Operation V Unit) (keep : List Digest) :
    Nat → List Digest → Operation V Unit
  | _, [] => pure ()
  | inspected, name :: rest => do
      (if name ∈ keep then pure () else remove name)
      refuse (maxSlotEntriesPerPass < inspected + 1) .capacity
      pruneLoop remove keep (inspected + 1) rest

/-- Removes every slot that no record names. -/
def pruneSlots : Operation V Unit := do
  let updates ← look
  demand (updates.records.forM updates.validateRecord)
  pruneLoop removeSlot (updates.records.map SlotRecord.digest) 0 (Platform.listing updates.slots)

/-- Keeps only the current fallback, so the store holds one release at most. -/
def pruneFallbacks (keep : Digest) : Operation V Unit := do
  let updates ← look
  pruneLoop removeCopy [keep] 0 (Platform.listing updates.copies)

/-! ## Operations -/

/-- An executable put into its slot, unless one is there. -/
def fillSlot (digest : Digest) (bytes : Bytes) : Operation V Unit := do
  ensureSlot digest
  let updates ← look
  if (updates.executable digest).isSome then pure () else writeNewSlot digest bytes

/-- The slot of a release holds it, under the identity of the authority. -/
def checkSlot (digest : Digest) (authority : Option Bytes) : Operation V Unit := do
  let updates ← look
  demand (validateStaged (updates.executable digest) digest)
  demand (validateCompatibleIdentity authority (updates.executable digest))

/-- The active record that an installation replaces may not be newer or of another identity. -/
def checkInstalled (updates : Updates V) (version : V) (executable : Bytes) :
    Except UpdateError Unit :=
  updates.active.forM fun active => do
    updates.validateRecord active
    validateCompatibleIdentity (updates.executable active.digest) (some executable)
    reject (version < active.version) UpdateError.rollback

/-- The installed executable in its slot, unless it is the active release already. -/
def placeInstalled (existing : Option (SlotRecord V)) (record : SlotRecord V) (executable : Bytes) :
    Operation V Unit :=
  if existing = some record then pure ()
  else do
    fillSlot record.digest executable
    checkSlot record.digest (some executable)

/-- The records of an installation, once nothing is staged or pending. -/
def recordInstalled (existing : Option (SlotRecord V)) (record : SlotRecord V) :
    Operation V Unit :=
  if existing = some record then pruneSlots
  else do
    (if existing.isSome then writePrevious existing else pure ())
    writeActive record
    pruneSlots

/-- Installs the running binary, of the given version and bytes, as the active release. -/
def initializeInstalled (version : V) (executable : Bytes) : Operation V Unit := do
  let updates ← look
  demand (checkInstalled updates version executable)
  let floor ← demand (updates.effectiveVersionFloor version)
  refuse (version < floor) .rollback
  let bytes ← demand (readExecutable (some executable))
  refuse (¬Platform.executable bytes) .invalidExecutable
  demand (validateStaged (some executable) (Sha256.digest bytes))
  placeInstalled updates.active ⟨version, Sha256.digest bytes⟩ bytes
  writeStaged none
  writePending none
  recordInstalled updates.active ⟨version, Sha256.digest bytes⟩

/-- A target that the repository's metadata authorizes, and the stream the bundle has for it. -/
structure Target (V : Type) where
  version : V
  digest : Digest
  length : Nat
  bytes : Bytes

/-- The target in its slot. The stream is written to a temporary file, checked there and renamed. -/
def placeTarget (target : Target V) (authority : Digest) : Operation V Unit := do
  ensureSlot target.digest
  let updates ← look
  if (updates.executable target.digest).isSome then
    checkSlot target.digest (updates.executable authority)
  else do
    refuse (target.bytes.length ≠ target.length) .tuf
    demand (validateStaged (some target.bytes) target.digest)
    demand (validateCompatibleIdentity (updates.executable authority) (some target.bytes))
    atomic fun updates =>
      { updates with slots := updates.slots.insert target.digest (some target.bytes) }

/-- The staging of a verified target by a process of the given version. -/
def verifyMaterialized (running : V) (target : Target V) : Operation V (SlotRecord V) := do
  let updates ← look
  let floor ← demand (updates.effectiveVersionFloor running)
  refuse (target.version ≤ floor) .rollback
  refuse (target.length = 0 ∨ maxUpdateTargetBytes < target.length) .tuf
  let active ← demand updates.readActive
  placeTarget target active.digest
  writeStaged (some ⟨target.version, target.digest⟩)
  return ⟨target.version, target.digest⟩

/-- Independently verifies a bundle and stages its target. Whatever became of it, the slots are
pruned. -/
def stageSigned (running : V) (target : Target V) : Operation V (SlotRecord V) := do
  let updates ← look
  let pending ← demand updates.readPending
  refuse pending.isSome .busy
  pruneSlots
  following (verifyMaterialized running target) pruneSlots

/-- Marks the latest verified release for a supervisor handoff. -/
def activateStaged : Operation V (SlotRecord V) := do
  let updates ← look
  let record ← demand (okOr updates.staged .invalidBundle)
  demand (updates.validateRecord record)
  demand (updates.validateAgainstActive record)
  writeAttempts none
  writePending (some record)
  return record

/-- Disarms a pending activation while preserving the verified staged release. -/
def cancelActivation : Operation V Unit := do
  writePending none
  pruneSlots

/-- Copies an executable out of its slot, unless a copy is there. -/
def fillCopy (digest : Digest) : Operation V Unit := do
  ensureCopy digest
  let updates ← look
  if (updates.copy digest).isSome then pure ()
  else do
    let bytes ← demand (readExecutable (updates.executable digest))
    writeNewCopy digest bytes

/-- Keeps a copy of the current previous release, so that a revert can make it the previous release
again after its slot is pruned. -/
def preserveFallback (active : SlotRecord V) : Operation V Unit := do
  let updates ← look
  match updates.previous with
  | none => pure ()
  | some previous => do
      demand (updates.validateRecord previous)
      if previous.digest = active.digest then pure ()
      else do
        fillCopy previous.digest
        let updates ← look
        demand (validateStaged (updates.copy previous.digest) previous.digest)
        writeFallback previous
        pruneFallbacks previous.digest

/-- Readies the running executable as a candidate when it is newer than the active release; `none`
where the caller should refresh directly. -/
def prepareLocal (version : V) (bytes : Bytes) : Operation V (Option (SlotRecord V)) := do
  let updates ← look
  match updates.active with
  | none => return none
  | some active => do
      demand (updates.validateRecord active)
      if version ≤ active.version then return none
      else do
        let floor ← demand (updates.effectiveVersionFloor version)
        refuse (version < floor) .rollback
        refuse (¬Platform.executable bytes) .invalidExecutable
        fillSlot (Sha256.digest bytes) bytes
        checkSlot (Sha256.digest bytes) (updates.executable active.digest)
        preserveFallback active
        return some ⟨version, Sha256.digest bytes⟩

/-- Stages the running executable as the supervisor's pending candidate. -/
def stageLocalCandidate (version : V) (bytes : Bytes) : Operation V (Option Digest) := do
  match ← prepareLocal version bytes with
  | none => return none
  | some record => do
      writePending (some record)
      return some record.digest

def removeStagedIfMatching (digest : Digest) : Operation V Unit := do
  let updates ← look
  if updates.staged.any (fun staged => staged.digest = digest) then writeStaged none else pure ()

def commitPending (record : SlotRecord V) : Operation V Unit := do
  let updates ← look
  demand (updates.validateRecord record)
  demand (updates.validateAgainstActive record)
  (if updates.active.isSome ∧ updates.active ≠ some record then writePrevious updates.active
    else pure ())
  let updates ← look
  (if updates.active ≠ some record then writeActive record else pure ())
  writePending none
  removeStagedIfMatching record.digest
  pruneSlots

def discardPending : Operation V Unit := do
  let updates ← look
  writePending none
  updates.pending.forM fun pending => removeStagedIfMatching pending.digest
  pruneSlots

/-- The kept copy as the slot of its release again, unless the slot is there. -/
def refillSlot (digest : Digest) : Operation V Unit := do
  let updates ← look
  if (updates.executable digest).isSome then pure ()
  else do
    ensureSlot digest
    let bytes ← demand (readExecutable (updates.copy digest))
    writeNewSlot digest bytes

/-- The kept fallback as a valid record, its slot restored if pruned; `none` when it is the release
being restored or the one that failed. -/
def restoreFallback (restored : SlotRecord V) (failed : Digest) :
    Operation V (Option (SlotRecord V)) := do
  let updates ← look
  match updates.fallback with
  | none => return none
  | some fallback =>
    if fallback.digest = restored.digest ∨ fallback.digest = failed then return none
    else do
      demand (validateStaged (updates.copy fallback.digest) fallback.digest)
      refillSlot fallback.digest
      let updates ← look
      demand (updates.validateRecord fallback)
      demand (validateCompatibleIdentity (updates.executable restored.digest)
        (updates.executable fallback.digest))
      return some fallback

/-- Returns to the release that ran before `failed`. -/
def revertLocalCandidate (failed : Digest) : Operation V Unit := do
  let updates ← look
  let active ← demand (okOr updates.active .invalidBundle)
  let previous ← demand (okOr updates.previous .invalidBundle)
  demand (updates.validateRecord active)
  demand (updates.validateRecord previous)
  refuse (active.digest ≠ failed ∨ previous.digest = failed) .invalidBundle
  demand (validateCompatibleIdentity (updates.executable active.digest)
    (updates.executable previous.digest))
  writeActive previous
  let fallback ← restoreFallback previous failed
  writePrevious fallback
  pruneSlots

/-! ## The supervisor -/

/-- Attempts already recorded for a candidate. -/
def Updates.attempted (updates : Updates V) (candidate : SlotRecord V) : Nat :=
  match updates.attempts with
  | none => 0
  | some attempts =>
    if attempts.digest = candidate.digest ∧ attempts.version = candidate.version then
      attempts.count
    else 0

/-- Called under the update lock before launching any pending candidate. -/
def reserve (candidate : SlotRecord V) : Operation V Bool := do
  let updates ← look
  if maxAttempts ≤ updates.attempted candidate then return false
  else do
    writeAttempts
      (some ⟨candidate.digest, candidate.version, updates.attempted candidate + 1⟩)
    return true

/-- What a round of the supervisor came to before a launch. -/
inductive Choice (V : Type) where
  /-- The pending release was already active, and its commitment was completed. -/
  | recovered
  /-- Nothing is pending: the active release runs. -/
  | active
  /-- The candidate had no attempt left and was discarded. -/
  | spent
  /-- The candidate is launched. -/
  | trial (candidate : SlotRecord V)
deriving DecidableEq, Repr

def select : Operation V (Choice V) := do
  let updates ← look
  let active ← demand updates.readActive
  let pending ← demand updates.readPending
  match pending with
  | none => return .active
  | some candidate =>
    if candidate = active then do
      commitPending active
      return .recovered
    else if ← reserve candidate then return .trial candidate
    else do
      discardPending
      return .spent

/-- What became of a launched candidate. -/
inductive Verdict where
  | healthy
  | unhealthy
  /-- The supervisor itself was killed. -/
  | killed
deriving DecidableEq, Repr

def judge (candidate : SlotRecord V) : Verdict → Operation V Unit
  | .healthy => commitPending candidate
  | .unhealthy => discardPending
  | .killed => pure ()

/-- One round of the supervisor's loop. -/
def supervise (verdict : Verdict) : Operation V Unit := do
  match ← select with
  | .trial candidate => judge candidate verdict
  | _ => pure ()

/-! ## Runs -/

/-- One operation on the update directory, each under the update lock. -/
inductive Order (V : Type) where
  | install (version : V) (executable : Bytes)
  | stage (running : V) (target : Target V)
  | activate
  | cancel
  | stageLocal (version : V) (bytes : Bytes)
  | commit
  | discard
  | revert (failed : Digest)
  | supervise (verdict : Verdict)

/-- Commits what is pending. -/
def commitRead : Operation V Unit := do
  let updates ← look
  let pending ← demand updates.readPending
  pending.forM commitPending

def perform : Order V → Operation V Unit
  | .install version executable => initializeInstalled version executable
  | .stage running target => do
      let _ ← stageSigned running target
  | .activate => do
      let _ ← activateStaged
  | .cancel => cancelActivation
  | .stageLocal version bytes => do
      let _ ← stageLocalCandidate version bytes
  | .commit => commitRead
  | .discard => discardPending
  | .revert failed => revertLocalCandidate failed
  | .supervise verdict => supervise verdict

/-- An operation, and the crash that cuts it short if one does. -/
structure Event (V : Type) where
  order : Order V
  crash : Option (Nat × Nat)

namespace Updates

/-- The directory before any installation. -/
def fresh : Updates V := ⟨∅, ∅, none, none, none, none, none, none⟩

def after (updates : Updates V) (event : Event V) : Updates V :=
  (left (perform event.order) ⟨updates, event.crash⟩).disk

def run (updates : Updates V) (events : List (Event V)) : Updates V := events.foldl after updates

/-- A directory as a first installation leaves it. -/
def Installed (updates : Updates V) : Prop :=
  ∃ version executable, succeeds (initializeInstalled version executable) (calm fresh) ∧
    updates = (left (initializeInstalled version executable) (calm fresh)).disk

end Updates

end Lifecycle

end Supgang.Update
