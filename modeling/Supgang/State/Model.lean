/-
# State.Model — authoritative local state over its journal

`state.rs`, `state/compaction.rs` and the replay of `state/event.rs`. A device is the in-memory
`LocalState` together with the disk its journal lives on; operations are programs over both, so an
operation that fails half way leaves exactly what it had done. Clock readings, fresh key material
and the file calls that fail are arguments; by default none fails. The process lock is outside the
model: one process runs at a time.
-/
import Supgang.State.Event

namespace Supgang.State

set_option autoImplicit false

open Theory Supgang.Membership Supgang.Revocation Supgang.Invitation Supgang.Record Supgang.Journal

/-- Maximum number of authorized devices in one personal hive. -/
def maxHiveMembers : Nat := 256
def authoritativeCompactionThresholdBytes : Nat := 1024 * 1024

/-! ## File calls that fail -/

/-- Where a journal operation fails: after so many of its actions, with so many bytes of the next
write made. -/
structure Fault where
  done : Nat
  written : Nat

/-- What was made of the action at which the operation stopped. -/
def Fault.torn (fault : Fault) (actions : List Action) : List Action :=
  match actions[fault.done]? with
  | some (.write bytes) => [.write (bytes.take fault.written)]
  | _ => []

/-- A journal operation in which a call to the file system fails. -/
def failing {α : Type} (fault : Option Fault) (x : EStateM JournalError Tape α) :
    EStateM JournalError Tape α :=
  match fault with
  | none => x
  | some fault => fun tape =>
    let actions := (left x (Tape.start tape.disk)).log
    let made := actions.take fault.done ++ fault.torn actions
    .error .io ⟨tape.disk.after made, tape.log ++ made⟩

/-- The faults of one operation, for each journal call that it may make. -/
structure Faults where
  /-- The length of the file cannot be read. -/
  length : Bool
  compact : Option Fault
  append : Option Fault
  compactAgain : Option Fault
  appendAgain : Option Fault

def Faults.none : Faults := ⟨false, .none, .none, .none, .none⟩

variable [Sha256] [Ed25519]

/-! ## State -/

/-- Replayed authoritative state and its append handle. -/
structure LocalState where
  identity : LocalIdentity
  memberships : Std.ExtTreeMap NodeId SignedMembership
  revocations : SignedRevocationList
  generation : UInt64
  sequence : UInt64
  lastMembershipSerial : UInt64
  eventCount : UInt64
  journal : Option Journal

namespace LocalState

/-- The local device's membership certificate. -/
def localMembership (state : LocalState) : Option SignedMembership :=
  state.memberships[state.identity.device.nodeId]?

/-- The frames of the members after the local one, each with the serial after the one before, and
the last of those serials. -/
def membershipFrames : List SignedMembership → UInt64 → Except StateError (List Bytes × UInt64)
  | [], expected => .ok ([], expected)
  | membership :: memberships, expected => do
      let expected ← okOr (checkedAdd expected 1) StateError.counterExhausted
      reject (membership.certificate.serial ≠ expected) StateError.invalidMembershipSerial
      let frame ← encodeEvent (.membership membership)
      let (frames, last) ← membershipFrames memberships expected
      return (frame :: frames, last)

/-- Every membership but the local one, in serial order. -/
def otherMemberships (state : LocalState) (nodeId : NodeId) : List SignedMembership :=
  ((state.memberships.toList.map Prod.snd).filter
    fun membership => membership.certificate.nodeId ≠ nodeId).insertionSort
    fun a b => a.certificate.serial ≤ b.certificate.serial

/-- The frames that stand for the whole current state. -/
def compactionFrames (state : LocalState) : Except StateError (List Bytes) := do
  let founder ← okOr state.localMembership StateError.identityMismatch
  let genesis ← encodeEvent (.genesis founder state.revocations)
  let (members, last) ← membershipFrames (state.otherMemberships founder.certificate.nodeId)
    founder.certificate.serial
  reject (last ≠ state.lastMembershipSerial) StateError.invalidMembershipSerial
  let frames := genesis :: members
  let checkpoint ← encodeEvent
    (signedCheckpoint state.identity state.generation state.sequence frames)
  return frames ++ [checkpoint]

end LocalState

/-! ## Replay -/

/-- An event that is neither the founder event nor a checkpoint, applied. -/
def applyReplayed (state : LocalState) (event : StateEvent) : Except StateError LocalState := do
  let state ← match event with
    | .genesis .. => .error .invalidGenesis
    | .checkpoint .. => .error .invalidCheckpoint
    | .sequence generation sequence => do
        reject (generation ≠ state.generation) StateError.invalidSequence
        let next ← okOr (checkedAdd state.sequence 1) StateError.counterExhausted
        reject (sequence ≠ next) StateError.invalidSequence
        pure { state with sequence }
    | .membership signed => do
        (signed.verify state.identity.rootVerifyingKey).mapError StateError.membership
        let next ← okOr (checkedAdd state.lastMembershipSerial 1) StateError.counterExhausted
        reject (signed.certificate.serial ≠ next) StateError.invalidMembershipSerial
        reject (maxHiveMembers ≤ state.memberships.size) StateError.hiveFull
        reject (signed.certificate.nodeId ∈ state.memberships) StateError.duplicateMember
        pure { state with
          memberships := state.memberships.insert signed.certificate.nodeId signed
          lastMembershipSerial := signed.certificate.serial }
    | .revocation signed => do
        (signed.verify state.identity.rootVerifyingKey).mapError StateError.revocation
        reject (signed.list.serial ≤ state.revocations.list.serial ∨
          signed.list.issuedAt < state.revocations.list.issuedAt ∨
          ∃ nodeId ∈ state.revocations.list.revokedNodes, ¬signed.contains nodeId)
          StateError.revocationRollback
        pure { state with revocations := signed }
  return { state with eventCount := saturatingAdd state.eventCount 1 }

/-- One turn of the replay loop, after the frames `done`. The flag says whether a checkpoint has
been seen. -/
def replayEvent (done : List Bytes) (state : LocalState) (checkpointSeen : Bool)
    (event : StateEvent) : Except StateError (LocalState × Bool) :=
  match event with
  | .checkpoint hiveId nodeId generation sequence expectedDigest signature => do
      reject (checkpointSeen ∨ state.sequence ≠ 0 ∨ generation ≠ state.generation)
        StateError.invalidCheckpoint
      reject (hiveId ≠ state.identity.hiveId ∨ nodeId ≠ state.identity.device.nodeId)
        StateError.identityMismatch
      let payload := checkpointSignaturePayload hiveId nodeId generation sequence expectedDigest
      reject (snapshotDigest done ≠ expectedDigest ∨
        ¬verifyDomain state.identity.device.verifyingKey checkpointDomain payload signature)
        StateError.invalidCheckpoint
      return ({ state with sequence, eventCount := saturatingAdd state.eventCount 1 }, true)
  | other => do
      let state ← applyReplayed state other
      return (state, checkpointSeen)

def replayLoop : List Bytes → List Bytes → LocalState → Bool → Except StateError (LocalState × Bool)
  | _, [], state, checkpointSeen => .ok (state, checkpointSeen)
  | done, frame :: frames, state, checkpointSeen => do
      let event ← decodeEvent frame
      let (state, checkpointSeen) ← replayEvent done state checkpointSeen event
      replayLoop (done ++ [frame]) frames state checkpointSeen

/-- The state a founder event establishes. -/
def founderState (identity : LocalIdentity) (journal : Option Journal) (founder : SignedMembership)
    (revocations : SignedRevocationList) : LocalState where
  identity
  memberships := (∅ : Std.ExtTreeMap NodeId SignedMembership).insert
    founder.certificate.nodeId founder
  revocations
  generation := 0
  sequence := 0
  lastMembershipSerial := founder.certificate.serial
  eventCount := 1
  journal

/-- Checks the founder event. -/
def replayGenesis (identity : LocalIdentity) (journal : Option Journal) (first : Bytes) :
    Except StateError LocalState := do
  let event ← decodeEvent first
  match event with
  | .genesis founder revocations => do
      (founder.verify identity.rootVerifyingKey).mapError StateError.membership
      (revocations.verify identity.rootVerifyingKey).mapError StateError.revocation
      reject (founder.certificate.hiveId ≠ identity.hiveId ∨
        founder.certificate.nodeId ≠ identity.device.nodeId ∨
        founder.certificate.deviceVerifyingKey ≠ identity.device.verifyingKey)
        StateError.identityMismatch
      return founderState identity journal founder revocations
  | _ => throw .invalidGenesis

/-- Cryptographically validates and deterministically replays committed frames. -/
def replay (identity : LocalIdentity) (journal : Option Journal) (frames : List Bytes) :
    Except StateError LocalState :=
  match frames with
  | [] => .error .missingGenesis
  | first :: rest => do
      let state ← replayGenesis identity journal first
      let (state, _) ← replayLoop [first] rest state false
      return state

/-! ## Devices -/

/-- A running device: its in-memory state and the disk its journal is on. -/
structure Device where
  state : LocalState
  tape : Tape

abbrev DeviceM := EStateM StateError Device

def modifyState (f : LocalState → LocalState) : DeviceM Unit :=
  modify fun device => { device with state := f device.state }

/-- The outcome of a program over the device, as a value. -/
def attemptDevice {α : Type} (x : DeviceM α) : DeviceM (Except StateError α) :=
  attempt id (fun device _ => device) x

/-- The outcome of a journal operation, as a value. -/
def onJournal {α : Type} (x : EStateM JournalError Tape α) : DeviceM (Except JournalError α) :=
  attempt Device.tape (fun tape device => { device with tape }) x

def journalMut : DeviceM Journal := do
  ofExcept (okOr (← get).state.journal StateError.readOnlySnapshot)

def setJournal (journal : Journal) : DeviceM Unit :=
  modifyState fun state => { state with journal := some journal }

/-- `self.journal.take()`: the handle is given up, and with it every further change. -/
def takeJournal : DeviceM Unit := modifyState fun state => { state with journal := none }

/-- Atomically replaces the history with one canonical signed checkpoint of the current state. -/
def compact (fault : Option Fault := none) : DeviceM Unit := do
  let frames ← ofExcept (← get).state.compactionFrames
  let _ ← journalMut
  match ← onJournal (failing fault (Journal.compact frames)) with
  | .ok journal => modifyState fun state =>
    { state with journal := some journal, eventCount := UInt64.ofNat frames.length }
  | .error error => do
      takeJournal
      throw (.journal error)

def compactIfNeeded (faults : Faults := .none) : DeviceM Unit := do
  let _ ← journalMut
  reject faults.length (StateError.journal .io)
  if authoritativeCompactionThresholdBytes ≤ byteLen (← get).tape then
    compact faults.compact

def appendAuthoritative (encoded : Bytes) (faults : Faults := .none) : DeviceM Unit := do
  match ← attemptDevice (compactIfNeeded faults) with
  | .error error => do
      if let .journal _ := error then
        takeJournal
      throw error
  | .ok () => do
      let journal ← journalMut
      match ← onJournal (failing faults.append (journal.append encoded)) with
      | .ok journal => setJournal journal
      | .error .journalFull => do
          compact faults.compactAgain
          let journal ← journalMut
          match ← onJournal (failing faults.appendAgain (journal.append encoded)) with
          | .ok journal => setJournal journal
          | .error error => do
              takeJournal
              throw (.journal error)
      | .error error => do
          takeJournal
          throw (.journal error)

/-! ## Operations -/

/-- Persists the next endpoint sequence before returning it to a publisher. -/
def reserveNextSequence (faults : Faults := .none) : DeviceM UInt64 := do
  let state := (← get).state
  let next ← ofExcept (okOr (checkedAdd state.sequence 1) StateError.counterExhausted)
  let encoded ← ofExcept (encodeEvent (.sequence state.generation next))
  appendAuthoritative encoded faults
  modifyState fun state =>
    { state with sequence := next, eventCount := saturatingAdd state.eventCount 1 }
  return next

/-- The record a device builds from its claims at the next sequence. -/
def LocalState.endpointRecord (state : LocalState) (displayName : String)
    (transportKeyId : TransportKeyId) (claims : EndpointClaims)
    (issuedAt expiresAt next : UInt64) : EndpointRecord where
  protocolVersion :=
    if claims.services = [] then endpointRecordVersionV2 else endpointRecordVersion
  hiveId := state.identity.hiveId
  nodeId := state.identity.device.nodeId
  displayName := some displayName
  transportKeyId
  generation := state.generation
  sequence := next
  issuedAt
  expiresAt
  candidates := claims.candidates
  capabilities := claims.capabilities
  services := claims.services

/-- Persists a new sequence and signs this device's canonical endpoint record. -/
def signEndpointRecord (displayName : String) (transportKeyId : TransportKeyId)
    (claims : EndpointClaims) (issuedAt expiresAt : UInt64) (faults : Faults := .none) :
    DeviceM SignedEndpointRecord := do
  let state := (← get).state
  let membership ← ofExcept (okOr state.localMembership StateError.identityMismatch)
  reject (membership.certificate.expiresAt < expiresAt) (StateError.record .outlivesMembership)
  reject (claims.capabilities.contains .introducer ∧
    ¬membership.certificate.roles.contains .introducer) StateError.unauthorizedCapability
  reject (claims.capabilities.contains .controlRelay ∧
    ¬membership.certificate.roles.contains .controlRelay) StateError.unauthorizedCapability
  let next ← ofExcept (okOr (checkedAdd state.sequence 1) StateError.counterExhausted)
  let record := (state.endpointRecord displayName transportKeyId claims issuedAt expiresAt
    next).canonicalizeCandidates
  ofExcept (record.validateShape.mapError StateError.record)
  let persisted ← reserveNextSequence faults
  reject (persisted ≠ next) StateError.invalidSequence
  ofExcept ((SignedEndpointRecord.sign record state.identity.device).mapError StateError.record)

/-- Root-authorizes a new device key and durably records the issuance. -/
def issueMembership (deviceKey : VerifyingKey) (roles : MembershipRoles)
    (admissionNonce : FixedBytes 32) (issuedAt expiresAt : UInt64) (faults : Faults := .none) :
    DeviceM SignedMembership := do
  let state := (← get).state
  reject (maxHiveMembers ≤ state.memberships.size) StateError.hiveFull
  let nodeId := NodeId.fromVerifyingKey deviceKey
  reject (state.revocations.contains nodeId) StateError.revokedMember
  reject (nodeId ∈ state.memberships) StateError.duplicateMember
  let serial ← ofExcept (okOr (checkedAdd state.lastMembershipSerial 1) StateError.counterExhausted)
  let certificate : MembershipCertificate := {
    version := membershipVersion
    hiveId := state.identity.hiveId
    nodeId
    deviceVerifyingKey := deviceKey
    serial
    issuedAt
    expiresAt
    roles
    admissionNonce }
  let root ← ofExcept (okOr state.identity.root StateError.admissionUnavailable)
  let signed ← ofExcept ((SignedMembership.sign certificate root).mapError StateError.membership)
  let encoded ← ofExcept (encodeEvent (.membership signed))
  appendAuthoritative encoded faults
  modifyState fun state =>
    { state with
      memberships := state.memberships.insert nodeId signed
      lastMembershipSerial := serial
      eventCount := saturatingAdd state.eventCount 1 }
  return signed

/-- Verifies and root-authorizes an offline join request idempotently. -/
def authorizeJoinRequest (request : JoinRequest) (expectedNode : NodeId) (roles : MembershipRoles)
    (issuedAt expiresAt : UInt64) (faults : Faults := .none) : DeviceM SignedMembership := do
  let key ← ofExcept (request.verify.mapError StateError.invitation)
  let nodeId := NodeId.fromVerifyingKey key
  reject (nodeId ≠ expectedNode) StateError.unexpectedJoinNode
  match (← get).state.memberships[nodeId]? with
  | some existing => do
      if existing.certificate.deviceVerifyingKey = request.deviceVerifyingKey ∧
          existing.certificate.admissionNonce = request.nonce then
        return existing
      throw .joinMismatch
  | none => issueMembership key roles request.nonce issuedAt expiresAt faults

def persistRevocations (signed : SignedRevocationList) (faults : Faults := .none) :
    DeviceM Unit := do
  let encoded ← ofExcept (encodeEvent (.revocation signed))
  appendAuthoritative encoded faults
  modifyState fun state =>
    { state with revocations := signed, eventCount := saturatingAdd state.eventCount 1 }

/-- Root-revokes one authorized device and persists the new snapshot. -/
def revoke (nodeId : NodeId) (issuedAt : UInt64) (faults : Faults := .none) :
    DeviceM SignedRevocationList := do
  let state := (← get).state
  reject (nodeId = state.identity.device.nodeId) StateError.cannotRevokeSelf
  reject (nodeId ∉ state.memberships) StateError.unknownMember
  if state.revocations.contains nodeId then
    return state.revocations
  else
    reject (issuedAt < state.revocations.list.issuedAt) StateError.revocationRollback
    let root ← ofExcept (okOr state.identity.root StateError.admissionUnavailable)
    let serial ← ofExcept
      (okOr (checkedAdd state.revocations.list.serial 1) StateError.counterExhausted)
    let signed ← ofExcept ((SignedRevocationList.sign {
      version := revocationVersion
      hiveId := state.identity.hiveId
      serial
      issuedAt
      revokedNodes := (state.revocations.list.revokedNodes ++ [nodeId]).insertionSort (· ≤ ·) }
      root).mapError StateError.revocation)
    persistRevocations signed faults
    return signed

/-- Verifies and persists a newer root-signed revocation snapshot learned from a peer. -/
def mergeRevocations (incoming : SignedRevocationList) (faults : Faults := .none) :
    DeviceM Bool := do
  let state := (← get).state
  ofExcept ((incoming.verify state.identity.rootVerifyingKey).mapError StateError.revocation)
  if incoming.list.serial < state.revocations.list.serial then
    return false
  else if incoming.list.serial = state.revocations.list.serial then
    reject (incoming ≠ state.revocations) StateError.revocationEquivocation
    return false
  else
    reject (incoming.list.issuedAt < state.revocations.list.issuedAt ∨
      ∃ nodeId ∈ state.revocations.list.revokedNodes, ¬incoming.contains nodeId)
      StateError.revocationRollback
    if incoming.list.revokedNodes = state.revocations.list.revokedNodes then
      return false
    else
      persistRevocations incoming faults
      return true

/-! ## Starting -/

/-- `open`: reads the journal back and replays it. -/
def openState (identity : LocalIdentity) : EStateM StateError Tape LocalState := do
  let (journal, frames) ← openJournal.adaptExcept fun error => StateError.storage (.journal error)
  ofExcept (replay identity (some journal) frames)

/-- `open_read_only`: replays the journal without a handle to it. -/
def openReadOnly (identity : LocalIdentity) (disk : Disk) : Except StateError LocalState := do
  let frames ← (Journal.read disk).mapError fun error => StateError.storage (.journal error)
  replay identity none frames

/-- Creates protected keys, or resumes an interrupted creation whose identity was `stored`, and
commits the founder membership as event one. -/
def initializeState (stored : Option LocalIdentity) (root : RootIdentity) (device : DeviceIdentity)
    (now : UInt64) : EStateM StateError Tape LocalState := do
  let identity := stored.getD (LocalIdentity.founder root device)
  let (journal, frames) ← openJournal.adaptExcept fun error => StateError.storage (.journal error)
  reject (identity.root = none ∨ frames ≠ []) (StateError.storage .alreadyInitialized)
  let certificate : MembershipCertificate := {
    version := membershipVersion
    hiveId := identity.hiveId
    nodeId := identity.device.nodeId
    deviceVerifyingKey := identity.device.verifyingKey
    serial := 1
    issuedAt := now
    expiresAt := saturatingAdd now maxMembershipLifetimeSeconds
    roles := MembershipRoles.device.or .introducer
    admissionNonce := FixedBytes.replicate 32 0 }
  let root ← ofExcept (okOr identity.root StateError.admissionUnavailable)
  let founder ← ofExcept ((SignedMembership.sign certificate root).mapError StateError.membership)
  let revocations ← ofExcept
    ((SignedRevocationList.empty root now).mapError StateError.revocation)
  let encoded ← ofExcept (encodeEvent (.genesis founder revocations))
  let journal ← (journal.append encoded).adaptExcept StateError.journal
  return { founderState identity (some journal) founder revocations with lastMembershipSerial := 1 }

/-- The journal's part of a join: its only frame is the expected genesis, or becomes it. -/
def commitGenesis (expected : Bytes) : EStateM StateError Tape Unit := do
  let (journal, frames) ← openJournal.adaptExcept fun error => StateError.storage (.journal error)
  if frames = [] then
    let _ ← (journal.append expected).adaptExcept StateError.journal
  else
    reject (frames ≠ [expected]) StateError.invalidGenesis

/-- What a repeated join asks of the state that is already there. -/
def confirmJoined (existing : LocalState) (bundle : JoinBundle) : Except StateError Unit := do
  let founder ← okOr existing.localMembership StateError.identityMismatch
  reject (¬(existing.identity.rootVerifyingKey = bundle.rootVerifyingKey ∧
    founder = bundle.membership ∧
    (bundle.revocations.list.serial < existing.revocations.list.serial ∨
      existing.revocations = bundle.revocations))) StateError.joinMismatch

/-- Installs a root-authorized bundle on the computer that created its request: over the identity
already `stored`, if any, or else over the `pending` one. -/
def installJoinBundle (stored : Option LocalIdentity) (pending : Option PendingIdentity)
    (bundle : JoinBundle) (expectedHive : HiveId) (now : UInt64) :
    EStateM StateError Tape LocalState := do
  reject (HiveId.fromRootVerifyingKey bundle.rootVerifyingKey ≠ expectedHive)
    StateError.unexpectedJoinHive
  match stored with
  | some identity => do
      let existing ← openState identity
      ofExcept (confirmJoined existing bundle)
      return existing
  | none => do
      let pending ← ofExcept (okOr pending (StateError.storage .pendingMissing))
      let rootKey ← ofExcept ((bundle.verifyForPending pending now).mapError StateError.invitation)
      ofExcept ((bundle.membership.certificate.validateTime now).mapError StateError.membership)
      let expected ← ofExcept (encodeEvent (.genesis bundle.membership bundle.revocations))
      commitGenesis expected
      openState (LocalIdentity.joined pending rootKey)

end Supgang.State
