/-
# State.Install — a join, its files, and a crash between any two of them

`install_join_bundle` over the three files it touches: the pending key, the journal and the identity
file. The genesis event is synchronized first, then the identity is written, and only then the
pending key is removed; an attempt can stop after any call to the file system, and a later attempt
finds what is left. The state lock and the directory checks are outside the model.

* `Home`, `HomeAction`, `Home.CrashOf` — the files, the calls, and what a stop can leave.
* `Home.installJoinBundle` — the source function, over a tape of those calls.
* `attempt_comes` — what one attempt comes to; `Attempted.between` — what holds of the files between
  attempts.
* `completed_join_starts` — an attempt that returns leaves a started device of `State.Refinement`.
* `install_resumes_iff` — every home that attempts and crashes have left: the next attempt
  completes exactly if neither the journal magic nor the identity file is half written and the
  committed genesis fits the new bundle.
-/
import Supgang.Journal.Resting
import Supgang.State.Refinement
import Supgang.State.Storage

namespace Supgang.State

set_option autoImplicit false

open Theory List Supgang.Membership Revocation Invitation Journal
open LocalIdentity (joined)
open EStateM (run_bind run_get)

/-! ## Files -/

/-- A file that is created and then written. -/
structure PlainFile where
  synced : Bytes
  pending : Bytes
deriving DecidableEq, Repr

namespace PlainFile

def bytes (file : PlainFile) : Bytes := file.synced ++ file.pending

def write (file : PlainFile) (bytes : Bytes) : PlainFile :=
  { file with pending := file.pending ++ bytes }

def sync (file : PlainFile) : PlainFile := ⟨file.synced ++ file.pending, []⟩

def crash (file : PlainFile) (kept : Nat) : PlainFile :=
  ⟨file.synced ++ file.pending.take kept, []⟩

end PlainFile

/-- The files of a state directory that a join touches. -/
structure Home where
  identity : Option PlainFile
  pending : Option Bytes
  journal : Disk
deriving DecidableEq, Repr

/-- One call to the file system. -/
inductive HomeAction where
  | journal (action : Action)
  | createIdentity
  | writeIdentity (bytes : Bytes)
  | syncIdentity
  | removePending
  | syncDirectory
deriving DecidableEq, Repr

namespace Home

def apply (home : Home) : HomeAction → Home
  | .journal action => { home with journal := home.journal.apply action }
  | .createIdentity => { home with identity := some ⟨[], []⟩ }
  | .writeIdentity bytes => { home with identity := home.identity.map (·.write bytes) }
  | .syncIdentity => { home with identity := home.identity.map (·.sync) }
  | .removePending => { home with pending := none }
  | .syncDirectory => home

def after (home : Home) (actions : List HomeAction) : Home := actions.foldl apply home

/-- What a restart finds when so many unsynchronized bytes of the two files reached the medium. -/
def crash (home : Home) (keptIdentity keptJournal : Nat) : Home :=
  { home with
    identity := home.identity.map (·.crash keptIdentity)
    journal := home.journal.crash keptJournal }

/-- What a restart may find after a stop somewhere in `actions`. A file that was not synchronized
can be lost with its directory entry, and an unsynchronized removal can be undone: both are what an
earlier stop leaves. -/
def CrashOf (home : Home) (actions : List HomeAction) (home' : Home) : Prop :=
  ∃ done, done <+: actions ∧
    ∃ keptIdentity keptJournal, home' = (home.after done).crash keptIdentity keptJournal

@[simp] theorem after_nil (home : Home) : home.after [] = home := rfl

@[simp] theorem after_cons (home : Home) (action : HomeAction) (actions : List HomeAction) :
    home.after (action :: actions) = (home.apply action).after actions := rfl

theorem after_append (home : Home) (first second : List HomeAction) :
    home.after (first ++ second) = (home.after first).after second :=
  foldl_append

theorem after_journal (home : Home) (actions : List Action) :
    home.after (actions.map .journal) = { home with journal := home.journal.after actions } := by
  induction actions generalizing home with
  | nil => rfl
  | cons action actions ih => rw [map_cons, after_cons, ih]; rfl

variable {home : Home}

theorem crashOf_append {home' : Home} {first second : List HomeAction}
    (crashed : home.CrashOf (first ++ second) home') :
    home.CrashOf first home' ∨ (home.after first).CrashOf second home' := by
  obtain ⟨done, ahead, keptIdentity, keptJournal, rfl⟩ := crashed
  rcases prefix_append_cases ahead with inFirst | ⟨rest, rfl, inSecond⟩
  · exact .inl ⟨done, inFirst, keptIdentity, keptJournal, rfl⟩
  · exact .inr ⟨rest, inSecond, keptIdentity, keptJournal, by rw [after_append]⟩

/-- Nothing of the identity file is left to synchronize. -/
def IdentitySettled (home : Home) : Prop := ∀ file ∈ home.identity, file.pending = []

theorem crash_identity (settled : home.IdentitySettled) (keptIdentity keptJournal : Nat) :
    home.crash keptIdentity keptJournal =
      { home with journal := home.journal.crash keptJournal } := by
  obtain ⟨identity, pending, journal⟩ := home
  cases identity with
  | none => rfl
  | some file =>
    obtain ⟨synced, unsynced⟩ := file
    have : unsynced = [] := settled _ rfl
    subst this
    simp [crash, PlainFile.crash]

/-- A stop while the journal is being worked on is a stop of the journal alone. -/
theorem crashOf_journal {home' : Home} (settled : home.IdentitySettled) {actions : List Action}
    (crashed : home.CrashOf (actions.map .journal) home') :
    ∃ disk', home.journal.CrashOf actions disk' ∧ home' = { home with journal := disk' } := by
  obtain ⟨done, ahead, keptIdentity, keptJournal, rfl⟩ := crashed
  obtain ⟨rest, split⟩ := ahead
  obtain ⟨first, second, rfl, rfl, -⟩ := map_eq_append_iff.mp split.symm
  refine ⟨(home.journal.after first).crash keptJournal,
    ⟨first, prefix_append .., keptJournal, rfl⟩, ?_⟩
  rw [after_journal, crash_identity]
  exact settled

end Home

/-- The files and the calls that led to them. -/
structure HomeTape where
  home : Home
  log : List HomeAction
deriving DecidableEq, Repr

def HomeTape.start (home : Home) : HomeTape := ⟨home, []⟩

/-- The tape once calls were made. -/
abbrev made (home : Home) (log actions : List HomeAction) : HomeTape :=
  ⟨home.after actions, log ++ actions⟩

abbrev HomeM := EStateM StateError HomeTape

def act (action : HomeAction) : HomeM Unit :=
  modify fun tape => ⟨tape.home.apply action, tape.log ++ [action]⟩

/-- Makes several calls in order. -/
def actAll : List HomeAction → HomeM Unit
  | [] => pure ()
  | action :: actions => do
      act action
      actAll actions

/-- Runs a program over the journal of the state directory. -/
def atHome {α : Type} (program : EStateM StateError Tape α) : HomeM α := fun tape =>
  match program.run (Tape.start tape.home.journal) with
  | .ok value after =>
    .ok value ⟨{ tape.home with journal := after.disk }, tape.log ++ after.log.map .journal⟩
  | .error e after =>
    .error e ⟨{ tape.home with journal := after.disk }, tape.log ++ after.log.map .journal⟩

/-! ## Installing a join -/

section Install

variable [Sha256] [Ed25519]

def loadIdentity (home : Home) : Except StorageError LocalIdentity :=
  match home.identity with
  | none => .error .notFound
  | some file => decodeIdentity (file.bytes.take (identityFileBytes + 1))

omit [Ed25519] in
def loadPendingIdentity (home : Home) : Except StorageError PendingIdentity :=
  match home.pending with
  | none => .error .pendingMissing
  | some bytes => decodePending (bytes.take (pendingFileBytes + 1))

/-- Opens and replays the state directory. -/
def openHome : HomeM LocalState := do
  let identity ← ofExcept ((loadIdentity (← get).home).mapError StateError.storage)
  atHome (openState identity)

/-- The calls that make a joined identity the active one. -/
def identityActions (identity : LocalIdentity) : List HomeAction :=
  [.createIdentity, .writeIdentity (encodeIdentity identity), .syncIdentity, .syncDirectory,
    .removePending, .syncDirectory]

/-- Converts a pending key into a root-bound member identity and removes the redundant pending
secret after the new identity is synchronized. -/
def installJoinedIdentity (pending : PendingIdentity) (rootKey : VerifyingKey) : HomeM Unit := do
  reject ((← get).home.identity ≠ none) (StateError.storage .alreadyInitialized)
  actAll (identityActions (joined pending rootKey))

/-- The join over a pending identity. -/
def startJoin (bundle : JoinBundle) (now : UInt64) : HomeM LocalState := do
  let pending ← ofExcept ((loadPendingIdentity (← get).home).mapError StateError.storage)
  let rootKey ← ofExcept ((bundle.verifyForPending pending now).mapError StateError.invitation)
  ofExcept ((bundle.membership.certificate.validateTime now).mapError StateError.membership)
  let expected ← ofExcept (encodeEvent (.genesis bundle.membership bundle.revocations))
  atHome (commitGenesis expected)
  installJoinedIdentity pending rootKey
  openHome

/-- The join repeated over the identity it has already installed. -/
def confirmJoin (bundle : JoinBundle) : HomeM LocalState := do
  let existing ← openHome
  ofExcept (confirmJoined existing bundle)
  return existing

/-- Installs a root-authorized bundle only on the computer that created its request. -/
def Home.installJoinBundle (bundle : JoinBundle) (expectedHive : HiveId) (now : UInt64) :
    HomeM LocalState := do
  reject (HiveId.fromRootVerifyingKey bundle.rootVerifyingKey ≠ expectedHive)
    StateError.unexpectedJoinHive
  match loadIdentity (← get).home with
  | .ok _ => confirmJoin bundle
  | .error .notFound => startJoin bundle now
  | .error error => throw (.storage error)

/-! ## Running the parts -/

variable {disk : Disk} {expected : Bytes} {expectedHive : HiveId}

variable {actions : List Action} {kept : List Bytes} {written : List UInt64}

omit [Sha256] [Ed25519] in
theorem run_atHome_ok {α : Type} {program : EStateM StateError Tape α} {home : Home}
    (log : List HomeAction) {value : α}
    (run : program.run (Tape.start home.journal) = .ok value ⟨disk, actions⟩)
    (reached : home.journal.after actions = disk) : (atHome program).run ⟨home, log⟩ =
      .ok value (made home log (actions.map .journal)) := by
  rw [made, Home.after_journal, reached, EStateM.run, atHome, run]

omit [Sha256] [Ed25519] in
theorem run_atHome_error {α : Type} {program : EStateM StateError Tape α} {home : Home}
    (log : List HomeAction) {e : StateError}
    (run : program.run (Tape.start home.journal) = .error e ⟨disk, actions⟩)
    (reached : home.journal.after actions = disk) : (atHome program).run ⟨home, log⟩ =
      .error e (made home log (actions.map .journal)) := by
  rw [made, Home.after_journal, reached, EStateM.run, atHome, run]

omit [Sha256] [Ed25519] in
theorem run_actAll (actions : List HomeAction) (home : Home) (log : List HomeAction) :
    (actAll actions).run ⟨home, log⟩ = .ok () (made home log actions) := by
  induction actions generalizing home log with
  | nil => simp [actAll]
  | cons action actions ih =>
    change (actAll actions).run ⟨home.apply action, log ++ [action]⟩ = _
    rw [ih, made, append_assoc]
    rfl

/-- The tape once the journal was opened. -/
abbrev openedTape (home : Home) (log : List HomeAction) (kept : List Bytes) : HomeTape :=
  made home log ((openActions home.journal kept).map .journal)

/-- The frame of a join's genesis. -/
def genesisFrame (member : SignedMembership) (revocations : SignedRevocationList) : Bytes :=
  eventBytes (.genesis member revocations)

/-- The frame of the genesis a bundle asks for. -/
abbrev bundleFrame (bundle : JoinBundle) : Bytes :=
  genesisFrame bundle.membership bundle.revocations

/-- The state of a new member. -/
abbrev joinedState (pending : PendingIdentity) (rootKey : VerifyingKey) (member : SignedMembership)
    (revocations : SignedRevocationList) : LocalState :=
  founderState (joined pending rootKey) (some (handleOf [genesisFrame member revocations])) member
    revocations

/-- What has been checked before a genesis is written. -/
structure Genesis (pending : PendingIdentity) (rootKey : VerifyingKey) (member : SignedMembership)
    (revocations : SignedRevocationList) : Prop where
  formed : Ed25519.wellFormed rootKey = true
  certificate : LocalCertificate (joined pending rootKey) member
  revoked : revocations.verify rootKey = .ok ()

variable {pending : PendingIdentity} {rootKey : VerifyingKey} {member : SignedMembership}
  {revocations : SignedRevocationList} {bundle : JoinBundle} {now : UInt64}

section Written

variable (genesis : Genesis pending rootKey member revocations)

include genesis

theorem Genesis.storable : (StateEvent.genesis member revocations).Storable :=
  ⟨.of_verify genesis.certificate.verified, .of_verify genesis.revoked⟩

theorem Genesis.fits : Storable [genesisFrame member revocations] := by
  have hvalid := eventBytes_validPayload genesis.storable
  refine ⟨by simpa [genesisFrame] using hvalid, ?_⟩
  have hle := hvalid.2
  simp only [image, flatMap_cons, flatMap_nil, append_nil, length_append,
    journalMagic_length, frameBytes_length, frameLength, lengthBytes, Journal.checksumBytes,
    maxJournalBytes, maxFrameBytes, genesisFrame] at hle ⊢
  omega

theorem Genesis.encoded :
    encodeEvent (.genesis member revocations) = .ok (genesisFrame member revocations) :=
  encodeEvent_ok genesis.storable

theorem Genesis.decoded :
    decodeEvent (genesisFrame member revocations) = .ok (.genesis member revocations) :=
  decodeEvent_eventBytes genesis.storable

theorem Genesis.frame_inj {others : SignedRevocationList}
    (other : Genesis pending rootKey member others)
    (h : genesisFrame member revocations = genesisFrame member others) : revocations = others := by
  have hfirst := genesis.decoded
  rw [h, other.decoded] at hfirst
  cases hfirst
  rfl

end Written

theorem verifyForPending_genesis {key : VerifyingKey}
    (h : bundle.verifyForPending pending now = .ok key) :
    key = bundle.rootVerifyingKey ∧
      Genesis pending bundle.rootVerifyingKey bundle.membership bundle.revocations := by
  simp only [JoinBundle.verifyForPending, ok_steps, not_not] at h
  obtain ⟨_, formed, _, verified, _, revoked, _, _, _, _, _, _, _, _, _, _, _, bound, rfl⟩ := h
  rw [not_or, not_or, not_not, not_not] at bound
  obtain ⟨shape, hive, _⟩ := Membership.verify_eq_ok verified
  refine ⟨rfl, formed, ⟨verified, hive, ?_, bound.1⟩, revoked⟩
  rw [(Membership.validateShape_eq_ok shape).2.1, bound.1]
  rfl

/-- Opening a home whose only frame is the genesis. -/
theorem openState_genesis (log : List Action) (genesis : Genesis pending rootKey member revocations)
    (rests : Rests disk [genesisFrame member revocations]) (begun : Begun disk) :
    (openState (joined pending rootKey)).run ⟨disk, log⟩ =
      .ok (joinedState pending rootKey member revocations)
        ⟨diskOf [genesisFrame member revocations],
          log ++ openActions disk [genesisFrame member revocations]⟩ := by
  have hopen := rests.opens begun log
  have hreplay : replay (joined pending rootKey)
      (some (handleOf [genesisFrame member revocations])) [genesisFrame member revocations] =
      .ok (joinedState pending rootKey member revocations) := by
    rw [replay, replayGenesis_ok _ genesis.decoded genesis.certificate genesis.revoked]
    rfl
  rw [openState, run_bind, run_adaptExcept_eq_ok.mpr hopen]
  simp only [hreplay, run_ofExcept_ok]

/-- The journal's calls in a join that goes through. -/
def joinActions (disk : Disk) (kept : List Bytes) (expected : Bytes) : List Action :=
  openActions disk kept ++ if kept = [] then commitActions [] [expected] else []

omit [Ed25519] in
theorem append_first (fits : Storable [expected]) (log : List Action) :
    ((handleOf []).append expected).run ⟨diskOf [], log⟩ = .ok (handleOf [expected])
      ⟨diskOf [expected], log ++ commitActions [] [expected]⟩ := by
  rcases append_cases ⟨fits.of_prefix nil_prefix, rfl, rfl⟩ expected log
    with ⟨-, hrun⟩ | ⟨hbad, -⟩ | ⟨hbad, -⟩
  · exact hrun
  · exact absurd (fits.valid expected (by simp)) hbad
  · exact absurd fits.fits (not_le.mpr hbad)

omit [Ed25519] in
theorem commitGenesis_commits (rests : Rests disk kept) (begun : Begun disk)
    (fits : Storable [expected]) (same : kept = [] ∨ kept = [expected]) :
    (commitGenesis expected).run (Tape.start disk) =
        .ok () ⟨diskOf [expected], joinActions disk kept expected⟩ ∧
      disk.after (joinActions disk kept expected) = diskOf [expected] := by
  have hafter := rests.after_open begun
  rw [commitGenesis, run_bind, Tape.start,
    run_adaptExcept_eq_ok.mpr (rests.opens begun [])]
  rcases same with rfl | rfl
  · constructor
    · simp only [nil_append, if_true, joinActions, run_bind,
        run_adaptExcept_eq_ok.mpr (append_first fits (openActions disk [])), EStateM.run_pure]
    · rw [joinActions, if_pos rfl, Disk.after_append, hafter, after_commitActions]
      rfl
  · constructor
    · simp [joinActions]
    · rw [joinActions, if_neg (by simp), append_nil, hafter]

omit [Ed25519] in
theorem commitGenesis_other (rests : Rests disk kept) (begun : Begun disk) (some : kept ≠ [])
    (other : kept ≠ [expected]) : (commitGenesis expected).run (Tape.start disk) =
      .error .invalidGenesis ⟨diskOf kept, openActions disk kept⟩ := by
  rw [commitGenesis, run_bind, Tape.start,
    run_adaptExcept_eq_ok.mpr (rests.opens begun [])]
  simp [some, other]

omit [Ed25519] in
theorem commitGenesis_half (rests : Rests disk kept) (half : ¬Begun disk) :
    (commitGenesis expected).run (Tape.start disk) =
      .error (.storage (.journal .invalidHeader)) ⟨disk, []⟩ := by
  have hopen : (openJournal.adaptExcept fun error => StateError.storage (.journal error)).run
      (Tape.start disk) = .error (.storage (.journal .invalidHeader)) ⟨disk, []⟩ := by
    have h := rests.refuses half []
    unfold EStateM.run at h
    rw [EStateM.run, EStateM.adaptExcept, Tape.start, h]
  rw [commitGenesis, run_bind, hopen]

/-! ## Between attempts -/

/-- What attempts to install the membership leave: the journal is empty or holds a genesis of that
membership, and the identity file is written only behind the genesis, the pending key removed only
behind the identity file. -/
structure Between (pending : PendingIdentity) (rootKey : VerifyingKey) (member : SignedMembership)
    (home : Home) (kept : List Bytes) : Prop where
  rests : Rests home.journal kept
  genesis : kept = [] ∨ ∃ revocations, Genesis pending rootKey member revocations ∧
    kept = [genesisFrame member revocations]
  files : (home.identity = none ∧ home.pending = some (encodePending pending)) ∨
    (kept ≠ [] ∧ ∃ part, part <+: encodeIdentity (joined pending rootKey) ∧
      home.identity = some ⟨part, []⟩ ∧
      (home.pending = some (encodePending pending) ∨
        part = encodeIdentity (joined pending rootKey)))

/-- A state directory with nothing but a pending key. -/
def Home.waiting (pending : PendingIdentity) : Home :=
  ⟨none, some (encodePending pending), ⟨[], [], none⟩⟩

theorem waiting_between : Between pending rootKey member (Home.waiting pending) [] :=
  ⟨.starting nil_prefix, .inl rfl, .inl ⟨rfl, rfl⟩⟩

variable {home home' : Home} {kept : List Bytes}

/-- A genesis is committed where there was none. -/
theorem Between.with_genesis (between : Between pending rootKey member home [])
    (genesis : Genesis pending rootKey member revocations)
    (rests : Rests disk [genesisFrame member revocations]) :
    Between pending rootKey member { home with journal := disk }
      [genesisFrame member revocations] := by
  refine ⟨rests, .inr ⟨revocations, genesis, rfl⟩, ?_⟩
  rcases between.files with hfiles | ⟨habsurd, _⟩
  · exact .inl hfiles
  · exact absurd rfl habsurd

section Crashing

variable (between : Between pending rootKey member home kept)

include between

theorem Between.identitySettled : home.IdentitySettled := by
  intro file hfile
  rcases between.files with ⟨hnone, _⟩ | ⟨_, part, _, hsome, _⟩
  · rw [hnone] at hfile
    cases hfile
  · rw [hsome] at hfile
    cases hfile
    rfl

theorem Between.pending_eq (absent : home.identity = none) :
    home.pending = some (encodePending pending) := by
  rcases between.files with ⟨_, h⟩ | ⟨_, part, _, h, _⟩
  · exact h
  · rw [absent] at h
    cases h

/-- A journal with frames has its magic. -/
theorem Between.begun (some : kept ≠ []) : Begun home.journal := by
  by_contra half
  obtain ⟨rests, _, _⟩ := between
  generalize home.journal = disk at rests half
  cases rests with
  | starting ahead => exact some rfl
  | witnessed storable ahead hTorn fits =>
    refine half (.inr ?_)
    rw [Disk.file, append_nil, image, append_assoc]
    exact prefix_append ..

/-- Another journal at rest with the same frames does not matter. -/
theorem Between.with_journal (rests : Rests disk kept) :
    Between pending rootKey member { home with journal := disk } kept :=
  ⟨rests, between.genesis, between.files⟩

theorem Between.crash_idle (crashed : home.CrashOf [] home') :
    Between pending rootKey member home' kept := by
  have hnone : home.CrashOf (([] : List Action).map .journal) home' := crashed
  obtain ⟨disk', ⟨done, ahead, count, rfl⟩, rfl⟩ :=
    Home.crashOf_journal between.identitySettled hnone
  rw [prefix_nil.mp ahead, Disk.after_nil, Disk.crash_of_settled between.rests.settled]
  exact between

theorem Between.crash_opened (begun : Begun home.journal)
    (crashed : home.CrashOf ((openActions home.journal kept).map .journal) home') :
    Between pending rootKey member home' kept := by
  obtain ⟨disk', hcrash, rfl⟩ := Home.crashOf_journal between.identitySettled crashed
  exact between.with_journal (between.rests.crash_open begun hcrash)

theorem Between.crash_committed (begun : Begun home.journal)
    (genesis : Genesis pending rootKey member revocations)
    (same : kept = [] ∨ kept = [genesisFrame member revocations])
    (crashed : home.CrashOf ((joinActions home.journal kept (genesisFrame member revocations)).map
      .journal) home') :
    Between pending rootKey member home' kept ∨
      Between pending rootKey member home' [genesisFrame member revocations] := by
  obtain ⟨disk', hcrash, rfl⟩ := Home.crashOf_journal between.identitySettled crashed
  rcases Disk.crashOf_append hcrash with hopening | hcommitting
  · exact .inl (between.with_journal (between.rests.crash_open begun hopening))
  · rw [between.rests.after_open begun] at hcommitting
    rcases same with rfl | rfl
    · rw [if_pos rfl] at hcommitting
      rcases rests_crash_commit genesis.fits hcommitting with hrests | hrests
      · exact .inl (between.with_journal hrests)
      · exact .inr (between.with_genesis genesis hrests)
    · rw [if_neg (by simp)] at hcommitting
      obtain ⟨done, ahead, count, rfl⟩ := hcommitting
      rw [prefix_nil.mp ahead, Disk.after_nil, Disk.crash_of_settled (diskOf_settled _)]
      exact .inl (between.with_journal (rests_diskOf genesis.fits))

/-- The home once the genesis is committed. -/
theorem Between.committed (genesis : Genesis pending rootKey member revocations)
    (same : kept = [] ∨ kept = [genesisFrame member revocations]) : Between pending rootKey member
      { home with journal := diskOf [genesisFrame member revocations] }
      [genesisFrame member revocations] := by
  have hrests := rests_diskOf genesis.fits
  rcases same with rfl | rfl
  · exact between.with_genesis genesis hrests
  · exact between.with_journal hrests

/-- A stop while the identity is being switched: the identity file is not there, a part of it is,
or all of it. -/
theorem Between.crash_switching (some : kept ≠ []) (absent : home.identity = none)
    (crashed : home.CrashOf (identityActions (joined pending rootKey)) home') :
    Between pending rootKey member home' kept := by
  obtain ⟨done, ahead, keptIdentity, keptJournal, rfl⟩ := crashed
  have hjournal := Disk.crash_of_settled between.rests.settled keptJournal
  have hpending := between.pending_eq absent
  obtain ⟨identity, waiting, journal⟩ := home
  obtain rfl : identity = none := absent
  obtain rfl : waiting = .some (encodePending pending) := hpending
  have hpart : ∀ part, part <+: encodeIdentity (joined pending rootKey) →
      Between pending rootKey member ⟨.some ⟨part, []⟩, .some (encodePending pending), journal⟩
        kept := fun part hpart =>
    ⟨between.rests, between.genesis, .inr ⟨some, part, hpart, rfl, .inl rfl⟩⟩
  have hwhole : Between pending rootKey member
      ⟨.some ⟨encodeIdentity (joined pending rootKey), []⟩, none, journal⟩ kept :=
    ⟨between.rests, between.genesis, .inr ⟨some, _, prefix_rfl, rfl, .inr rfl⟩⟩
  simp only [identityActions, prefix_cons_iff, prefix_nil] at ahead
  rcases ahead with rfl | ⟨_, rfl, rfl | ⟨_, rfl, rfl | ⟨_, rfl, rfl | ⟨_, rfl, rfl | ⟨_, rfl, rfl |
    ⟨_, rfl, rfl⟩⟩⟩⟩⟩⟩
  all_goals simp only [Home.crash, Home.after_cons, Home.after_nil, Home.apply, Option.map_some,
    Option.map_none, PlainFile.crash, PlainFile.write, PlainFile.sync, hjournal, nil_append,
    take_nil, append_nil]
  · exact between
  · exact hpart [] nil_prefix
  · exact hpart _ (List.take_prefix keptIdentity _)
  · exact hpart _ prefix_rfl
  · exact hpart _ prefix_rfl
  · exact hwhole
  · exact hwhole

end Crashing

/-! ## The outcome of an attempt -/

theorem loadIdentity_part {part : Bytes}
    (ahead : part <+: encodeIdentity (joined pending rootKey))
    (proper : part ≠ encodeIdentity (joined pending rootKey))
    (file : home.identity = some ⟨part, []⟩) :
    loadIdentity home = .error .invalidIdentityFile := by
  have hlength := ahead.length_le
  rw [encodeIdentity_length] at hlength
  rw [loadIdentity, file]
  simp only [PlainFile.bytes, append_nil]
  rw [take_of_length_le (by omega), decodeIdentity_part ahead proper]

theorem loadIdentity_whole (formed : Ed25519.wellFormed rootKey = true)
    (file : home.identity = some ⟨encodeIdentity (joined pending rootKey), []⟩) :
    loadIdentity home = .ok (joined pending rootKey) := by
  have hlength := encodeIdentity_length (joined pending rootKey)
  have hdecoded : decodeIdentity (encodeIdentity (joined pending rootKey)) =
      .ok (joined pending rootKey) := decodeIdentity_encodeIdentity formed
  rw [loadIdentity, file]
  simp only [PlainFile.bytes, append_nil]
  rw [take_of_length_le (by omega), hdecoded]

omit [Ed25519] in
theorem loadPendingIdentity_whole (file : home.pending = some (encodePending pending)) :
    loadPendingIdentity home = .ok pending := by
  have hlength : (encodePending pending).length = pendingFileBytes := by
    have hseed := pending.device.seed.2
    have hnonce := pending.requestNonce.2
    have hsum := (pendingChecksum (pendingData pending)).2
    simp only [encodePending, length_append, hsum]
    simp [pendingData, hseed, hnonce, pendingFileBytes, keyBytes, checksumBytes]
  rw [loadPendingIdentity, file]
  simp only
  rw [take_of_length_le (by omega), decodePending_encodePending]

/-- Opening the home of a joined identity. -/
theorem openHome_genesis (log : List HomeAction) (genesis : Genesis pending rootKey member revocations)
    (rests : Rests home.journal [genesisFrame member revocations]) (begun : Begun home.journal)
    (file : home.identity = some ⟨encodeIdentity (joined pending rootKey), []⟩) :
    openHome.run ⟨home, log⟩ = .ok (joinedState pending rootKey member revocations)
      (openedTape home log [genesisFrame member revocations]) := by
  have hload := loadIdentity_whole genesis.formed file
  have hopen := run_atHome_ok log (openState_genesis [] genesis rests begun)
    (rests.after_open begun)
  rw [openHome, run_bind, run_get]
  simp only [hload, mapError_ok, run_bind, run_ofExcept_ok]
  exact hopen

omit [Ed25519] in
theorem openActions_diskOf (frames : List Bytes) : openActions (diskOf frames) frames = [] := by
  have h := openActions_witnessed frames frames []
  rw [append_nil, cutActions, if_neg (lt_irrefl _)] at h
  exact h

/-- The calls of a join that goes through. -/
def installActions (home : Home) (kept : List Bytes) (pending : PendingIdentity)
    (rootKey : VerifyingKey) (expected : Bytes) : List HomeAction :=
  (joinActions home.journal kept expected).map .journal ++
    identityActions (joined pending rootKey)

theorem after_installActions
    (reached : home.journal.after (joinActions home.journal kept expected) = diskOf [expected]) :
    home.after (installActions home kept pending rootKey expected) =
      ⟨some ⟨encodeIdentity (joined pending rootKey), []⟩, none,
        diskOf [expected]⟩ := by
  rw [installActions, Home.after_append, Home.after_journal, reached]
  simp [identityActions, Home.apply, PlainFile.write, PlainFile.sync]

theorem startJoin_joins (log : List HomeAction)
    (between : Between pending rootKey member home kept)
    (absent : home.identity = none) (begun : Begun home.journal)
    (verified : bundle.verifyForPending pending now = .ok bundle.rootVerifyingKey)
    (valid : now ≤ bundle.membership.certificate.expiresAt)
    (same : kept = [] ∨ kept = [bundleFrame bundle]) :
    (startJoin bundle now).run ⟨home, log⟩ =
      .ok (joinedState pending bundle.rootVerifyingKey bundle.membership bundle.revocations)
        (made home log
          (installActions home kept pending bundle.rootVerifyingKey (bundleFrame bundle))) := by
  obtain ⟨_, genesis⟩ := verifyForPending_genesis verified
  have hpending := between.pending_eq absent
  obtain ⟨hcommit, hreached⟩ := commitGenesis_commits between.rests begun genesis.fits same
  have hjournal := run_atHome_ok log hcommit hreached
  -- After the journal's part the identity is still missing, and after the switch it opens.
  have hafter : home.after ((joinActions home.journal kept (bundleFrame bundle)).map .journal) =
      { home with journal := diskOf [bundleFrame bundle] } := by
    rw [Home.after_journal, hreached]
  have hswitched : home.after (installActions home kept pending bundle.rootVerifyingKey
      (bundleFrame bundle)) = _ := after_installActions hreached
  have hopened : ∀ log, openHome.run ⟨home.after (installActions home kept pending
      bundle.rootVerifyingKey (bundleFrame bundle)), log⟩ = _ :=
    fun log => openHome_genesis log genesis (by rw [hswitched]; exact rests_diskOf genesis.fits)
      (by rw [hswitched]; exact .inr (prefix_append ..)) (by rw [hswitched])
  rw [startJoin, run_bind, run_get]
  simp only [loadPendingIdentity_whole hpending, verified, validateTime_eq_ok.mpr valid, genesis.encoded,
    mapError_ok, run_bind, run_ofExcept_ok, hjournal, installJoinedIdentity,
    run_get, run_reject]
  rw [if_neg (by rw [hafter]; simpa using absent)]
  simp only [run_actAll, made, ← Home.after_append, append_assoc]
  rw [← installActions, hopened, hswitched]
  simp [openActions_diskOf, installActions]

/-- An attempt that is not even tried on the journal. -/
theorem startJoin_unready (log : List HomeAction)
    (between : Between pending rootKey member home kept) (absent : home.identity = none)
    (unready : ¬((∃ key, bundle.verifyForPending pending now = .ok key) ∧
      now ≤ bundle.membership.certificate.expiresAt)) :
    ∃ e, (startJoin bundle now).run ⟨home, log⟩ = .error e ⟨home, log⟩ := by
  have hload := loadPendingIdentity_whole (between.pending_eq absent)
  rw [startJoin, run_bind, run_get]
  simp only [hload, mapError_ok, run_bind, run_ofExcept_ok]
  cases hverify : bundle.verifyForPending pending now with
  | error e => exact ⟨_, rfl⟩
  | ok key =>
    have hlate : bundle.membership.certificate.validateTime now = .error .expired := by
      rw [MembershipCertificate.validateTime, reject, if_pos]
      · rfl
      · exact not_le.mp fun valid => unready ⟨⟨key, hverify⟩, valid⟩
    exact ⟨.membership .expired, by simp [hlate, Except.mapError]⟩

section Ready

variable (log : List HomeAction) (between : Between pending rootKey member home kept)
  (absent : home.identity = none)
  (verified : bundle.verifyForPending pending now = .ok bundle.rootVerifyingKey)
  (valid : now ≤ bundle.membership.certificate.expiresAt)

include between absent verified valid

/-- An attempt on whose journal the genesis is refused. -/
theorem startJoin_error {e : StateError} {disk : Disk} {actions : List Action}
    (refused : (commitGenesis (bundleFrame bundle)).run (Tape.start home.journal) =
      .error e ⟨disk, actions⟩)
    (reached : home.journal.after actions = disk) :
    (startJoin bundle now).run ⟨home, log⟩ = .error e (made home log (actions.map .journal)) := by
  obtain ⟨_, genesis⟩ := verifyForPending_genesis verified
  rw [startJoin, run_bind, run_get]
  simp only [loadPendingIdentity_whole (between.pending_eq absent), verified, validateTime_eq_ok.mpr valid,
    genesis.encoded, mapError_ok, run_bind, run_ofExcept_ok,
    run_atHome_error log refused reached]

theorem startJoin_half (half : ¬Begun home.journal) :
    ∃ e, (startJoin bundle now).run ⟨home, log⟩ = .error e ⟨home, log⟩ := by
  have h := startJoin_error log between absent verified valid
    (commitGenesis_half between.rests half) rfl
  exact ⟨_, by simpa [made] using h⟩

theorem startJoin_other (begun : Begun home.journal) (some : kept ≠ [])
    (other : kept ≠ [bundleFrame bundle]) :
    (startJoin bundle now).run ⟨home, log⟩ = .error .invalidGenesis (openedTape home log kept) :=
  startJoin_error log between absent verified valid
    (commitGenesis_other between.rests begun some other) (between.rests.after_open begun)

end Ready

theorem localMembership_founderState (journal : Option Journal)
    (certificate : LocalCertificate (joined pending rootKey) member) :
    (founderState (joined pending rootKey) journal member
      revocations).localMembership = some member := by
  simp [LocalState.localMembership, founderState, certificate.node_eq]

/-- The genesis a bundle is confirmed against is the bundle's, or carries a newer list. -/
def Confirms (revocations : SignedRevocationList) (bundle : JoinBundle) : Prop :=
  bundle.revocations.list.serial < revocations.list.serial ∨ revocations = bundle.revocations

instance (revocations : SignedRevocationList) (bundle : JoinBundle) :
    Decidable (Confirms revocations bundle) := inferInstanceAs (Decidable (_ ∨ _))

theorem confirmJoined_genesis (genesis : Genesis pending rootKey member revocations)
    (bundle : JoinBundle) :
    confirmJoined (joinedState pending rootKey member revocations) bundle =
      if rootKey = bundle.rootVerifyingKey ∧ member = bundle.membership ∧
          Confirms revocations bundle then .ok ()
      else .error .joinMismatch := by
  rw [confirmJoined, localMembership_founderState _ genesis.certificate, okOr_some, ok_bind]
  exact ite_not ..

theorem confirmJoin_run (log : List HomeAction)
    (genesis : Genesis pending rootKey member revocations)
    (rests : Rests home.journal [genesisFrame member revocations]) (begun : Begun home.journal)
    (file : home.identity = some ⟨encodeIdentity (joined pending rootKey), []⟩)
    (bundle : JoinBundle) :
    (confirmJoin bundle).run ⟨home, log⟩ =
      let tape := openedTape home log [genesisFrame member revocations]
      if rootKey = bundle.rootVerifyingKey ∧ member = bundle.membership ∧
          Confirms revocations bundle then
        .ok (joinedState pending rootKey member revocations) tape
      else .error .joinMismatch tape := by
  rw [confirmJoin, run_bind, openHome_genesis log genesis rests begun file]
  simp only [confirmJoined_genesis genesis, run_bind]
  by_cases matching : rootKey = bundle.rootVerifyingKey ∧ member = bundle.membership ∧
      Confirms revocations bundle
  · simp only [if_pos matching]
    rfl
  · simp only [if_neg matching]
    rfl

/-! ## Runs of attempts -/

/-- The tape an attempt leaves, whether it succeeded or failed. -/
def Home.attempt (home : Home) (bundle : JoinBundle) (expectedHive : HiveId) (now : UInt64) :
    HomeTape :=
  match (Home.installJoinBundle bundle expectedHive now).run (.start home) with
  | .ok _ tape => tape
  | .error _ tape => tape

/-- The serials of the revocation lists in the genesis the journal holds. -/
def Home.genesisSerials (home : Home) : List UInt64 :=
  (committed home.journal).filterMap fun frame =>
    match decodeEvent frame with
    | .ok (.genesis _ revocations) => some revocations.list.serial
    | _ => none

/-- The homes that attempts with such bundles leave, each attempt at any time and finished or stopped
anywhere, and the serials of every genesis written on the way. -/
inductive AttemptedWith (pending : PendingIdentity) (given : JoinBundle → Prop) :
    Home → List UInt64 → Prop
  | waiting : AttemptedWith pending given (Home.waiting pending) []
  | finished {home : Home} {written : List UInt64} {bundle : JoinBundle} {expectedHive : HiveId}
      {now : UInt64} (before : AttemptedWith pending given home written) (is : given bundle) :
      AttemptedWith pending given (home.attempt bundle expectedHive now).home
        (written ++ (home.attempt bundle expectedHive now).home.genesisSerials)
  | crashed {home home' : Home} {written : List UInt64} {bundle : JoinBundle}
      {expectedHive : HiveId} {now : UInt64} (before : AttemptedWith pending given home written)
      (is : given bundle)
      (crash : home.CrashOf (home.attempt bundle expectedHive now).log home') :
      AttemptedWith pending given home' (written ++ home'.genesisSerials)

/-- Attempts with bundles of one root and one membership. -/
abbrev Attempted (pending : PendingIdentity) (rootKey : VerifyingKey)
    (member : SignedMembership) : Home → List UInt64 → Prop :=
  AttemptedWith pending fun bundle =>
    bundle.rootVerifyingKey = rootKey ∧ bundle.membership = member

/-- Wherever these calls are stopped, and where they end, the home is one between attempts, with
the frames it had or the first it gets. -/
structure Traced (pending : PendingIdentity) (rootKey : VerifyingKey) (member : SignedMembership)
    (home : Home) (kept : List Bytes) (actions : List HomeAction) : Prop where
  crash : ∀ home', home.CrashOf actions home' → ∃ kept', (kept' = kept ∨ kept = []) ∧
    Between pending rootKey member home' kept'
  after : ∃ kept', (kept' = kept ∨ kept = []) ∧
    Between pending rootKey member (home.after actions) kept'

theorem installJoinBundle_run (bundle : JoinBundle) (home : Home) (now : UInt64)
    (hive : HiveId.fromRootVerifyingKey bundle.rootVerifyingKey = expectedHive) :
    (Home.installJoinBundle bundle expectedHive now).run (.start home) =
      (match loadIdentity home with
        | .ok _ => confirmJoin bundle
        | .error .notFound => startJoin bundle now
        | .error error => (throw (StateError.storage error) : HomeM LocalState)).run ⟨home, []⟩ := by
  rw [Home.installJoinBundle, run_reject_bind_of_not (not_not.mpr hive)]
  rfl

/-- What an attempt comes to: it is refused at once or behind the opened journal, it joins, or it
confirms the join it finds. -/
inductive Comes (pending : PendingIdentity) (bundle : JoinBundle) (expectedHive : HiveId)
    (now : UInt64) (home : Home) (kept : List Bytes) :
    EStateM.Result StateError HomeTape LocalState → Prop
  | refused (e : StateError) : Comes pending bundle expectedHive now home kept (.error e ⟨home, []⟩)
  | opened (e : StateError) (begun : Begun home.journal) :
      Comes pending bundle expectedHive now home kept
        (.error e ⟨home.after ((openActions home.journal kept).map .journal),
          (openActions home.journal kept).map .journal⟩)
  | joined (hive : HiveId.fromRootVerifyingKey bundle.rootVerifyingKey = expectedHive)
      (absent : home.identity = none) (begun : Begun home.journal)
      (verified : bundle.verifyForPending pending now = .ok bundle.rootVerifyingKey)
      (valid : now ≤ bundle.membership.certificate.expiresAt)
      (same : kept = [] ∨ kept = [genesisFrame bundle.membership bundle.revocations]) :
      Comes pending bundle expectedHive now home kept
        (.ok (founderState (joined pending bundle.rootVerifyingKey)
          (some (handleOf [genesisFrame bundle.membership bundle.revocations])) bundle.membership
          bundle.revocations)
        ⟨home.after (installActions home kept pending bundle.rootVerifyingKey
            (genesisFrame bundle.membership bundle.revocations)),
          installActions home kept pending bundle.rootVerifyingKey
            (genesisFrame bundle.membership bundle.revocations)⟩)
  | confirmed {revocations : SignedRevocationList}
      (hive : HiveId.fromRootVerifyingKey bundle.rootVerifyingKey = expectedHive)
      (kept_eq : kept = [genesisFrame bundle.membership revocations])
      (genesis : Genesis pending bundle.rootVerifyingKey bundle.membership revocations)
      (file : home.identity = some
        ⟨encodeIdentity (joined pending bundle.rootVerifyingKey), []⟩)
      (begun : Begun home.journal) (confirms : Confirms revocations bundle) :
      Comes pending bundle expectedHive now home kept
        (.ok (founderState (joined pending bundle.rootVerifyingKey)
          (some (handleOf kept)) bundle.membership revocations)
        ⟨home.after ((openActions home.journal kept).map .journal),
          (openActions home.journal kept).map .journal⟩)

/-- **One attempt.** -/
theorem attempt_comes (between : Between pending rootKey member home kept)
    (bundle : JoinBundle) (expectedHive : HiveId) (now : UInt64) :
    Comes pending bundle expectedHive now home kept
      ((Home.installJoinBundle bundle expectedHive now).run (.start home)) := by
  by_cases hive : HiveId.fromRootVerifyingKey bundle.rootVerifyingKey = expectedHive
  swap
  · rw [Home.installJoinBundle, run_reject_bind_of hive]
    exact .refused _
  rw [installJoinBundle_run bundle home now hive]
  rcases between.files with ⟨absent, _⟩ | ⟨some, part, ahead, file, _⟩
  · rw [loadIdentity, absent]
    by_cases ready : (∃ key, bundle.verifyForPending pending now = .ok key) ∧
        now ≤ bundle.membership.certificate.expiresAt
    · obtain ⟨⟨key, verified⟩, valid⟩ := ready
      obtain ⟨rfl, genesis⟩ := verifyForPending_genesis verified
      by_cases begun : Begun home.journal
      · by_cases same : kept = [] ∨ kept = [bundleFrame bundle]
        · rw [startJoin_joins [] between absent begun verified valid same]
          exact .joined hive absent begun verified valid same
        · rw [not_or] at same
          rw [startJoin_other [] between absent verified valid begun same.1 same.2]
          exact .opened _ begun
      · obtain ⟨e, h⟩ := startJoin_half [] between absent verified valid begun
        exact h ▸ .refused e
    · obtain ⟨e, h⟩ := startJoin_unready [] between absent ready
      exact h ▸ .refused e
  · by_cases whole : part = encodeIdentity (joined pending rootKey)
    · subst whole
      obtain ⟨revocations, genesis, rfl⟩ := between.genesis.resolve_left some
      have begun := between.begun some
      rw [loadIdentity_whole genesis.formed file]
      simp only [confirmJoin_run [] genesis between.rests begun file]
      split
      · rename_i matching
        obtain ⟨rfl, rfl, confirms⟩ := matching
        exact .confirmed hive rfl genesis file begun confirms
      · exact .opened _ begun
    · rw [loadIdentity_part ahead whole file]
      exact .refused _

/-- The serial is that of the genesis in the journal. -/
def Written (pending : PendingIdentity) (rootKey : VerifyingKey) (member : SignedMembership)
    (kept : List Bytes) (serial : UInt64) : Prop :=
  ∃ revocations, kept = [genesisFrame member revocations] ∧
    Genesis pending rootKey member revocations ∧ revocations.list.serial = serial

section Between

variable (between : Between pending rootKey member home kept)

include between

theorem Between.traced_idle : Traced pending rootKey member home kept [] :=
  ⟨fun _ crashed => ⟨kept, .inl rfl, between.crash_idle crashed⟩, ⟨kept, .inl rfl, between⟩⟩

theorem Between.traced_opened (begun : Begun home.journal) :
    Traced pending rootKey member home kept ((openActions home.journal kept).map .journal) := by
  refine ⟨fun _ crashed => ⟨kept, .inl rfl, between.crash_opened begun crashed⟩,
    ⟨kept, .inl rfl, ?_⟩⟩
  rw [Home.after_journal, between.rests.after_open begun]
  exact between.with_journal (rests_diskOf between.rests.storable)

theorem Between.traced_joined (begun : Begun home.journal) (absent : home.identity = none)
    (genesis : Genesis pending rootKey member revocations)
    (same : kept = [] ∨ kept = [genesisFrame member revocations]) :
    Traced pending rootKey member home kept (installActions home kept pending rootKey
      (genesisFrame member revocations)) := by
  have hkept : [genesisFrame member revocations] = kept ∨ kept = [] := by
    rcases same with h | h
    · exact .inr h
    · exact .inl h.symm
  obtain ⟨-, hreached⟩ := commitGenesis_commits between.rests begun genesis.fits same
  have hafter : home.after ((joinActions home.journal kept
      (genesisFrame member revocations)).map .journal) =
      { home with journal := diskOf [genesisFrame member revocations] } := by
    rw [Home.after_journal, hreached]
  have hcommitted := between.committed genesis same
  constructor
  · intro home' crashed
    rcases Home.crashOf_append crashed with hjournal | hfiles
    · rcases between.crash_committed begun genesis same hjournal with h | h
      · exact ⟨kept, .inl rfl, h⟩
      · exact ⟨_, hkept, h⟩
    · rw [hafter] at hfiles
      exact ⟨_, hkept, hcommitted.crash_switching (by simp) absent hfiles⟩
  · rw [after_installActions hreached]
    exact ⟨_, hkept, hcommitted.rests, hcommitted.genesis,
      .inr ⟨by simp, _, prefix_rfl, rfl, .inr rfl⟩⟩

/-- An attempt, wherever it is stopped: the home is as before, or one of the new bundle. -/
theorem attempt_traced (bundle : JoinBundle) (expectedHive : HiveId) (now : UInt64) :
    ∃ actions, home.attempt bundle expectedHive now = ⟨home.after actions, actions⟩ ∧
      (Traced pending rootKey member home kept actions ∨
        Traced pending bundle.rootVerifyingKey bundle.membership home kept actions) := by
  have comes := attempt_comes between bundle expectedHive now
  rw [Home.attempt]
  generalize (Home.installJoinBundle bundle expectedHive now).run (.start home) = result at comes
  cases comes with
  | refused e => exact ⟨[], rfl, .inl between.traced_idle⟩
  | opened e begun => exact ⟨_, rfl, .inl (between.traced_opened begun)⟩
  | joined _ absent begun verified _ same =>
    have genesis := (verifyForPending_genesis verified).2
    have between' : Between pending bundle.rootVerifyingKey bundle.membership home kept :=
      ⟨between.rests, same.imp_right fun eq => ⟨_, genesis, eq⟩,
        .inl ⟨absent, between.pending_eq absent⟩⟩
    exact ⟨_, rfl, .inr (between'.traced_joined begun absent genesis same)⟩
  | confirmed _ _ _ _ begun => exact ⟨_, rfl, .inl (between.traced_opened begun)⟩

/-- The journal's genesis is one that was checked. -/
theorem Between.genesisSerials :
    ∀ serial ∈ home.genesisSerials, Written pending rootKey member kept serial := by
  intro serial hserial
  rw [Home.genesisSerials, between.rests.committed_eq] at hserial
  rcases between.genesis with rfl | ⟨revocations, genesis, rfl⟩
  · cases hserial
  · simp only [filterMap_cons, genesis.decoded, filterMap_nil, mem_singleton] at hserial
    exact ⟨revocations, rfl, genesis, hserial.symm⟩

end Between

/-- The serials written so far are those of the genesis in the journal. -/
theorem serials_step {kept' : List Bytes} (kept_eq : kept' = kept ∨ kept = [])
    (between : Between pending rootKey member home' kept')
    (before : ∀ serial ∈ written, Written pending rootKey member kept serial) :
    ∀ serial ∈ written ++ home'.genesisSerials, Written pending rootKey member kept' serial := by
  intro serial hserial
  rcases mem_append.mp hserial with hold | hnew
  · obtain ⟨revocations, hkept, genesis, heq⟩ := before serial hold
    rcases kept_eq with rfl | rfl
    · exact ⟨revocations, hkept, genesis, heq⟩
    · cases hkept
  · exact between.genesisSerials serial hnew

/-- What every run of attempts leaves. -/
theorem Attempted.between (attempted : Attempted pending rootKey member home written) :
    ∃ kept, Between pending rootKey member home kept ∧
      ∀ serial ∈ written, Written pending rootKey member kept serial := by
  induction attempted with
  | waiting => exact ⟨[], waiting_between, forall_mem_nil _⟩
  | @finished home written bundle expectedHive now before is ih =>
    obtain ⟨kept, between, serials⟩ := ih
    obtain ⟨actions, htape, traced⟩ := attempt_traced between bundle expectedHive now
    rw [is.1, is.2, or_self] at traced
    obtain ⟨kept', kept_eq, between'⟩ := traced.after
    rw [htape]
    exact ⟨kept', between', serials_step kept_eq between' serials⟩
  | @crashed home home' written bundle expectedHive now before is crash ih =>
    obtain ⟨kept, between, serials⟩ := ih
    obtain ⟨actions, htape, traced⟩ := attempt_traced between bundle expectedHive now
    rw [is.1, is.2, or_self] at traced
    rw [htape] at crash
    obtain ⟨kept', kept_eq, between'⟩ := traced.crash home' crash
    exact ⟨kept', between', serials_step kept_eq between' serials⟩

/-- Whatever the bundles, a home between attempts is one of some root and membership. -/
theorem AttemptedWith.between {given : JoinBundle → Prop}
    (attempted : AttemptedWith pending given home written) (bundle : JoinBundle) :
    ∃ rootKey member kept, Between pending rootKey member home kept := by
  induction attempted with
  | waiting => exact ⟨bundle.rootVerifyingKey, bundle.membership, [], waiting_between⟩
  | @finished home written bundle expectedHive now before is ih =>
    obtain ⟨rootKey, member, kept, between⟩ := ih
    obtain ⟨actions, htape, traced⟩ := attempt_traced between bundle expectedHive now
    rw [htape]
    rcases traced with traced | traced
    all_goals
      obtain ⟨kept', -, between'⟩ := traced.after
      exact ⟨_, _, kept', between'⟩
  | @crashed home home' written bundle expectedHive now before is crash ih =>
    obtain ⟨rootKey, member, kept, between⟩ := ih
    obtain ⟨actions, htape, traced⟩ := attempt_traced between bundle expectedHive now
    rw [htape] at crash
    rcases traced with traced | traced
    all_goals
      obtain ⟨kept', -, between'⟩ := traced.crash home' crash
      exact ⟨_, _, kept', between'⟩

/-- **A completed join starts a device.** After any attempts with any bundles and crashes, the
journal's part of an attempt that returns is `State.installJoinBundle` of the identity and the
pending key that were loaded, so that all of the device's lifetime begins there. -/
theorem completed_join_starts {state : LocalState} {tape : HomeTape}
    (attempted : AttemptedWith pending (fun _ => True) home written)
    (run : (Home.installJoinBundle bundle expectedHive now).run (.start home) = .ok state tape) :
    ∃ log, (installJoinBundle (loadIdentity home).toOption (loadPendingIdentity home).toOption
        bundle expectedHive now).run (.start home.journal) = .ok state ⟨tape.home.journal, log⟩ ∧
      Started ⟨state, ⟨tape.home.journal, log⟩⟩ := by
  obtain ⟨rootKey, member, kept, between⟩ := attempted.between bundle
  have settled : home.journal = ⟨home.journal.synced, [], home.journal.head⟩ := by
    have h : home.journal.pending = [] := between.rests.settled
    rw [← h]
  suffices h : ∃ log, (installJoinBundle (loadIdentity home).toOption
      (loadPendingIdentity home).toOption bundle expectedHive now).run (.start home.journal) =
        .ok state ⟨tape.home.journal, log⟩ by
    obtain ⟨log, h⟩ := h
    refine ⟨log, h, ?_⟩
    rw [settled] at h
    exact .installed h
  have comes := attempt_comes between bundle expectedHive now
  rw [run] at comes
  cases comes with
  | joined hive absent begun verified valid same =>
    obtain ⟨_, genesis⟩ := verifyForPending_genesis verified
    have hidentity : (loadIdentity home).toOption = none := by
      rw [loadIdentity, absent]
      rfl
    obtain ⟨commits, reached⟩ := commitGenesis_commits between.rests begun genesis.fits same
    rw [after_installActions reached, hidentity,
      loadPendingIdentity_whole (between.pending_eq absent), installJoinBundle,
      run_reject_bind_of_not (not_not.mpr hive)]
    have hopens := fun log => openState_genesis log genesis
      (rests_diskOf genesis.fits) (.inr (prefix_append ..))
    simp only [Except.toOption, okOr_some, verified, validateTime_eq_ok.mpr valid, genesis.encoded,
      mapError_ok, run_bind, run_ofExcept_ok, commits, hopens]
    exact ⟨_, rfl⟩
  | confirmed hive kept_eq genesis file begun confirms =>
    subst kept_eq
    rw [Home.after_journal, between.rests.after_open begun, loadIdentity_whole genesis.formed file,
      Except.toOption, installJoinBundle, run_reject_bind_of_not (not_not.mpr hive)]
    simp only [Tape.start, run_bind, openState_genesis [] genesis between.rests begun,
      confirmJoined_genesis genesis, true_and, if_pos confirms, run_ofExcept_ok]
    exact ⟨_, rfl⟩

/-- The next attempt can complete the join: the journal's magic is missing or whole; without an
identity file the membership is still valid and the journal holds no genesis or the bundle's own;
an identity file is complete, and the journal's genesis is the bundle's or newer. -/
def Resumable (home : Home) (pending : PendingIdentity) (bundle : JoinBundle) (now : UInt64) :
    Prop :=
  Begun home.journal ∧
    match home.identity with
    | none => now ≤ bundle.membership.certificate.expiresAt ∧
        (committed home.journal = [] ∨
          committed home.journal = [genesisFrame bundle.membership bundle.revocations])
    | some file =>
      file.bytes = encodeIdentity (joined pending bundle.rootVerifyingKey) ∧
      ∃ frame revocations, committed home.journal = [frame] ∧
        decodeEvent frame = .ok (.genesis bundle.membership revocations) ∧
        Confirms revocations bundle

/-- The attempt returns the membership, with a list at least as new as all of `written`. -/
def Resumes (home : Home) (bundle : JoinBundle) (now : UInt64) (written : List UInt64) : Prop :=
  ∃ state tape, (Home.installJoinBundle bundle
      (HiveId.fromRootVerifyingKey bundle.rootVerifyingKey) now).run (.start home) =
        .ok state tape ∧
    state.localMembership = some bundle.membership ∧
    ∀ serial ∈ written, serial ≤ state.revocations.list.serial

section Resumes

variable {written : List UInt64}
  (between : Between pending bundle.rootVerifyingKey bundle.membership home kept)
  (serials : ∀ serial ∈ written,
    Written pending bundle.rootVerifyingKey bundle.membership kept serial)
  (verified : bundle.verifyForPending pending now = .ok bundle.rootVerifyingKey)

include between serials verified

/-- Where no identity file was begun. -/
theorem resumes_waiting (absent : home.identity = none) :
    Resumes home bundle now written ↔
      Begun home.journal ∧ now ≤ bundle.membership.certificate.expiresAt ∧
        (kept = [] ∨ kept = [bundleFrame bundle]) := by
  obtain ⟨_, fresh⟩ := verifyForPending_genesis verified
  have hinstall := installJoinBundle_run bundle home now rfl
  rw [loadIdentity, absent] at hinstall
  constructor
  · rintro ⟨state, tape, hrun, _⟩
    have comes := attempt_comes between bundle (HiveId.fromRootVerifyingKey bundle.rootVerifyingKey) now
    rw [hrun] at comes
    cases comes with
    | joined _ _ begun _ valid same => exact ⟨begun, valid, same⟩
    | confirmed _ _ _ file => cases absent.symm.trans file
  · rintro ⟨begun, valid, same⟩
    refine ⟨_, _, hinstall.trans (startJoin_joins [] between absent begun verified valid same),
      localMembership_founderState _ fresh.certificate, ?_⟩
    -- A genesis written before is the bundle's own.
    intro serial hserial
    obtain ⟨revocations, hkept, genesis, rfl⟩ := serials serial hserial
    rw [hkept] at same
    rcases same with h | h
    · cases h
    · rw [genesis.frame_inj fresh (List.cons.inj h).1]
      exact le_rfl

omit verified in
/-- Where an identity file was begun. -/
theorem resumes_installed (some : kept ≠ []) {part : Bytes}
    (ahead : part <+: encodeIdentity (joined pending bundle.rootVerifyingKey))
    (file : home.identity = .some ⟨part, []⟩) :
    Resumes home bundle now written ↔ Begun home.journal ∧
      part = encodeIdentity (joined pending bundle.rootVerifyingKey) ∧
      ∃ frame revocations, kept = [frame] ∧
        decodeEvent frame = .ok (.genesis bundle.membership revocations) ∧
        Confirms revocations bundle := by
  constructor
  · rintro ⟨state, tape, hrun, _⟩
    have comes := attempt_comes between bundle (HiveId.fromRootVerifyingKey bundle.rootVerifyingKey) now
    rw [hrun] at comes
    cases comes with
    | joined _ absent => cases absent.symm.trans file
    | confirmed _ kept_eq genesis whole begun confirms =>
      cases file.symm.trans whole
      exact ⟨begun, rfl, _, _, kept_eq, genesis.decoded, confirms⟩
  · rintro ⟨begun, rfl, frame, revocations, rfl, decoded, confirms⟩
    obtain ⟨checked, genesis, hframe⟩ := between.genesis.resolve_left some
    obtain rfl := (List.cons.inj hframe).1
    rw [genesis.decoded] at decoded
    cases decoded
    have hinstall := installJoinBundle_run bundle home now rfl
    rw [loadIdentity_whole genesis.formed file] at hinstall
    simp only [confirmJoin_run [] genesis between.rests begun file, true_and, if_pos confirms]
      at hinstall
    refine ⟨_, _, hinstall, localMembership_founderState _ genesis.certificate, ?_⟩
    intro serial hserial
    obtain ⟨written, hwritten, others, rfl⟩ := serials serial hserial
    rw [genesis.frame_inj others (List.cons.inj hwritten).1]
    exact le_rfl

end Resumes

/-- **A crash strands a join exactly if it leaves a half-written file or another genesis.** Over
every run of attempts, each finished or stopped after any call to the file system, the next attempt
with a bundle that verifies returns the membership and a revocation list at least as new as every
genesis written so far if and only if the home is resumable. -/
theorem install_resumes_iff {written : List UInt64}
    (attempted : Attempted pending rootKey member home written)
    (root_eq : bundle.rootVerifyingKey = rootKey) (member_eq : bundle.membership = member)
    {key : VerifyingKey} (verified : bundle.verifyForPending pending now = .ok key) :
    (∃ state tape, (Home.installJoinBundle bundle (HiveId.fromRootVerifyingKey rootKey) now).run
        (.start home) = .ok state tape ∧ state.localMembership = some member ∧
      ∀ serial ∈ written, serial ≤ state.revocations.list.serial) ↔
    Resumable home pending bundle now := by
  subst root_eq member_eq
  obtain ⟨rfl, _⟩ := verifyForPending_genesis verified
  obtain ⟨kept, between, serials⟩ := attempted.between
  rcases between.files with ⟨absent, _⟩ | ⟨some, part, ahead, file, _⟩
  · rw [Resumable, absent, between.rests.committed_eq]
    exact resumes_waiting between serials verified absent
  · rw [Resumable, file, between.rests.committed_eq]
    simp only [PlainFile.bytes, append_nil]
    exact resumes_installed between serials some ahead file

end Install

/-! ## A join that is stopped and tried again -/

attribute [local instance] countingSha256 acceptingEd25519

/-- The waiting device's membership, and a revocation list. -/
def bundleWith (serial : UInt64) (revokedNodes : List NodeId) : Except InvitationError JoinBundle := do
  let membership ← (SignedMembership.sign {
    version := membershipVersion
    hiveId := hiveRoot.hiveId
    nodeId := waitingDevice.device.nodeId
    deviceVerifyingKey := waitingDevice.device.verifyingKey
    serial := 2
    issuedAt := 0
    expiresAt := 7200
    roles := .device
    admissionNonce := waitingDevice.requestNonce } hiveRoot).mapError InvitationError.membership
  let revocations ← (SignedRevocationList.sign {
    version := revocationVersion
    hiveId := hiveRoot.hiveId
    serial
    issuedAt := 0
    revokedNodes } hiveRoot).mapError InvitationError.revocation
  JoinBundle.new hiveRoot membership revocations 60

/-- What is left of the first attempt, stopped once its genesis is synchronized and witnessed. -/
def stopped (bundle : JoinBundle) : Home :=
  ((Home.waiting waitingDevice).after (((Home.waiting waitingDevice).attempt bundle
    hiveRoot.hiveId 60).log.take 8)).crash 0 0

theorem stopped_attempted {bundle : JoinBundle}
    (root_eq : bundle.rootVerifyingKey = hiveRoot.verifyingKey) :
    Attempted waitingDevice hiveRoot.verifyingKey bundle.membership (stopped bundle)
      ([] ++ (stopped bundle).genesisSerials) :=
  .crashed .waiting ⟨root_eq, rfl⟩ ⟨_, take_prefix .., 0, 0, rfl⟩

/-- A bundle, and one of the same membership made after another node was revoked. -/
def Bundled (check : JoinBundle → JoinBundle → Bool) : Bool :=
  match bundleWith 0 [], bundleWith 1 [FixedBytes.replicate 32 7] with
  | .ok first, .ok second => check first second
  | _, _ => false

theorem Bundled.spec {check : JoinBundle → JoinBundle → Bool} (h : Bundled check = true) :
    ∃ first second, bundleWith 0 [] = .ok first ∧
      bundleWith 1 [FixedBytes.replicate 32 7] = .ok second ∧ check first second = true := by
  unfold Bundled at h
  split at h
  · rename_i first second hfirst hsecond
    exact ⟨first, second, hfirst, hsecond, h⟩
  · cases h

/-- Whether an attempt returns after one that was stopped and one with another bundle. -/
def joins (bundle other : JoinBundle) : Bool :=
  match (Home.installJoinBundle bundle hiveRoot.hiveId 120).run
    (.start ((stopped bundle).attempt other hiveRoot.hiveId 90).home) with
  | .ok _ _ => true
  | .error _ _ => false

theorem completed_join_starts_again : ∃ state tape, Started ⟨state, tape⟩ := by
  have runs : Bundled joins = true := by decide +kernel
  obtain ⟨bundle, other, -, -, joined⟩ := Bundled.spec runs
  unfold joins at joined
  split at joined
  · rename_i state tape run
    have attempted : AttemptedWith waitingDevice (fun _ => True) (stopped bundle) _ :=
      .crashed .waiting trivial ⟨_, take_prefix .., 0, 0, rfl⟩
    obtain ⟨log, -, started⟩ := completed_join_starts (.finished attempted trivial) run
    exact ⟨_, _, started⟩
  · cases joined

/-- A join is stopped once its genesis is synchronized, another node is revoked, and the device is
given a new bundle: the join can no longer be completed with it. -/
theorem newer_bundle_stranded : ∃ home written bundle tape,
    Attempted waitingDevice hiveRoot.verifyingKey bundle.membership home written ∧
    bundle.rootVerifyingKey = hiveRoot.verifyingKey ∧
    bundle.verifyForPending waitingDevice 120 = .ok hiveRoot.verifyingKey ∧
    bundle.membership.certificate.validateTime 120 = .ok () ∧
    (Home.installJoinBundle bundle hiveRoot.hiveId 120).run (.start home) =
      .error .invalidGenesis tape := by
  have runs : Bundled (fun first second =>
      first.rootVerifyingKey = hiveRoot.verifyingKey ∧
      second.rootVerifyingKey = hiveRoot.verifyingKey ∧
      second.membership = first.membership ∧
      second.verifyForPending waitingDevice 120 = .ok hiveRoot.verifyingKey ∧
      second.membership.certificate.validateTime 120 = .ok () ∧
      (match (Home.installJoinBundle second hiveRoot.hiveId 120).run (.start (stopped first)) with
        | .error .invalidGenesis _ => true
        | _ => false) = true) = true := by decide +kernel
  obtain ⟨first, second, _, _, checked⟩ := Bundled.spec runs
  obtain ⟨root_eq, root_eq', member_eq, verified, valid, refused⟩ := of_decide_eq_true checked
  split at refused
  · rename_i tape hrun
    have attempted := stopped_attempted root_eq
    rw [← member_eq] at attempted
    exact ⟨stopped first, _, second, tape, attempted, root_eq', verified, valid, hrun⟩
  · cases refused

theorem install_resumes_iff_stopped : ∃ home written bundle state tape,
    Attempted waitingDevice hiveRoot.verifyingKey bundle.membership home written ∧
    (Home.installJoinBundle bundle hiveRoot.hiveId 120).run (.start home) = .ok state tape ∧
    state.localMembership = some bundle.membership := by
  have runs : Bundled (fun first _ =>
      first.rootVerifyingKey = hiveRoot.verifyingKey ∧
      first.verifyForPending waitingDevice 120 = .ok hiveRoot.verifyingKey ∧
      (stopped first).identity = none ∧ Begun (stopped first).journal ∧
      120 ≤ first.membership.certificate.expiresAt ∧
      committed (stopped first).journal =
        [genesisFrame first.membership first.revocations]) = true := by decide +kernel
  obtain ⟨bundle, _, _, _, checked⟩ := Bundled.spec runs
  obtain ⟨root_eq, verified, absent, begun, valid, same⟩ := of_decide_eq_true checked
  have resumable : Resumable (stopped bundle) waitingDevice bundle 120 := by
    rw [Resumable, absent]
    exact ⟨begun, valid, .inr same⟩
  have attempted := stopped_attempted root_eq
  obtain ⟨state, tape, hrun, hmember, _⟩ :=
    (install_resumes_iff attempted root_eq rfl verified).mpr resumable
  exact ⟨stopped bundle, _, bundle, state, tape, attempted, hrun, hmember⟩

end Supgang.State
