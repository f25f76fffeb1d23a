/-
# Authority.Store — revisions, reserved before they are signed

`authority/revision_store.rs`. One file holds the committed manifest, the reservation watermark, the
digest of the pending content and every id ever used. It is replaced by a rename that is
synchronized afterwards; a failed replacement poisons the handle, and only opening the file again
tells which of its contents survived.

* `StateFile` — the file, and what a crash may bring back.
* `decodeState_encodeState` — a stored state reads back.
* `reservation` — the pure part of `reserve`; `reservation_spec` is what it promises.
-/
import Supgang.Authority.Verifier

namespace Supgang.Authority

set_option autoImplicit false
set_option linter.unusedSectionVars false

open Theory List

def maxStoreBytes : Nat := 96 * 1024

/-! ## The file -/

/-- A file that is replaced by renaming. Until the directory is synchronized a crash may bring any
earlier content back. -/
structure StateFile where
  current : Option Bytes
  recoverable : List (Option Bytes)
deriving DecidableEq, Repr

namespace StateFile

/-- What a crash now may leave. -/
def survivors (file : StateFile) : List (Option Bytes) := file.current :: file.recoverable

def rename (file : StateFile) (bytes : Bytes) : StateFile := ⟨some bytes, file.survivors⟩

def sync (file : StateFile) : StateFile := ⟨file.current, []⟩

end StateFile

/-- How far a replacement of the file gets. -/
inductive Fate where
  | done
  /-- An error before the rename took effect. -/
  | unwritten
  /-- The rename took effect, and the directory was not synchronized. -/
  | unsynced
deriving DecidableEq, Repr

section Store

variable [P256]

structure StoreState where
  epoch : UInt64
  revision : UInt64
  current : Option AuthorityManifest
  used : List CertificateId
  pending : Option Digest
deriving DecidableEq

namespace StoreState

/-- The state of a store that was never written. -/
def empty : StoreState := ⟨0, 0, none, [], none⟩

def watermark (state : StoreState) : Watermark := toLex (state.epoch, state.revision)

end StoreState

/-! ## Encoding -/

variable [Sha256] [Ed25519]

def manifestItem : Option AuthorityManifest → Except AuthorityError Bytes
  | some manifest => do
      let bytes ← manifest.encode
      return Cbor.bytes bytes
  | none => return Cbor.null

def pendingItem : Option Digest → Bytes
  | some digest => Cbor.bytes digest.1
  | none => Cbor.null

def encodeState (state : StoreState) (hive : HiveId) (key : DevicePublicKey) :
    Except AuthorityError Bytes := do
  let current ← manifestItem state.current
  -- The last item is reserved for store format flags.
  let bytes := Cbor.array 9 ++ (Cbor.u8 1 ++ (Cbor.bytes hive.1 ++ (Cbor.bytes key.bytes.1 ++
    (Cbor.u64 state.epoch ++ (Cbor.u64 state.revision ++ (current ++ (idsBytes state.used ++
    (pendingItem state.pending ++ Cbor.u8 0))))))))
  reject (maxStoreBytes < bytes.length) AuthorityError.bound
  return bytes

def readHeldManifest : AuthorityReader AuthorityManifest := do
  let raw ← Cbor.readBytes
  ofExcept (decodeManifest raw)

/-- The hive and the key a store is bound to. -/
def readBinding (hive : HiveId) (key : DevicePublicKey) : AuthorityReader Unit := do
  let raw ← Cbor.readBytes
  reject (raw ≠ hive.1) AuthorityError.issuer
  let raw ← Cbor.readBytes
  reject (raw ≠ key.bytes.1) AuthorityError.issuer

def readState (hive : HiveId) (key : DevicePublicKey) : AuthorityReader StoreState := do
  array 9
  version
  readBinding hive key
  let epoch ← Cbor.readU64
  let revision ← Cbor.readU64
  let current ← Cbor.readNullable readHeldManifest
  let used ← readIds maxUsedIds
  let pending ← Cbor.readNullable (fixed 32)
  let flags ← Cbor.readU8
  reject (flags ≠ 0 ∨ ¬used.IsChain (· < ·)) AuthorityError.invalid
  return { epoch, revision, current, used, pending }

/-- Every id a content certifies or revokes. -/
def AuthorityContent.ids (content : AuthorityContent) : List CertificateId :=
  content.certificates.map (·.claims.id) ++ content.revocations.ids

/-- The committed manifest is signed by this device and within the watermark and the used ids. -/
def StoreState.checkCurrent (state : StoreState) (hive : HiveId) (key : DevicePublicKey) :
    Except AuthorityError Unit :=
  match state.current with
  | none => .ok ()
  | some manifest => do
      manifest.verify hive key
      reject (state.watermark < manifest.content.watermark) AuthorityError.storeConflict
      reject (∃ id ∈ manifest.content.ids, id ∉ state.used) AuthorityError.storeConflict

def decodeState (bytes : Bytes) (hive : HiveId) (key : DevicePublicKey) :
    Except AuthorityError StoreState := do
  let (state, rest) ← (readState hive key).run bytes
  reject (rest ≠ []) AuthorityError.nonCanonical
  state.checkCurrent hive key
  let encoded ← encodeState state hive key
  reject (encoded ≠ bytes) AuthorityError.nonCanonical
  return state

/-! ## Reservations -/

def remember (used : List CertificateId) (id : CertificateId) :
    Except AuthorityError (List CertificateId) :=
  if id ∈ used then .ok used
  else do
    reject (used.length = maxUsedIds) AuthorityError.bound
    return used.orderedInsert (· ≤ ·) id

/-- A certificate is retained from the committed manifest or has a new id. -/
def reserveCertificate (hive : HiveId) (key : DevicePublicKey) (current : Option AuthorityManifest)
    (used : List CertificateId) (certificate : CertifiedKey) :
    Except AuthorityError (List CertificateId) := do
  let claims := certificate.claims
  reject (claims.hive ≠ hive ∨ claims.issuer ≠ deviceNodeId key) AuthorityError.issuer
  reject ((¬∃ manifest ∈ current, certificate ∈ manifest.content.certificates) ∧ claims.id ∈ used)
    AuthorityError.reusedId
  remember used claims.id

/-- The checks of a proposed content against its predecessor. -/
def checkPredecessor (state : StoreState) (hive : HiveId) (key : DevicePublicKey)
    (current : Option AuthorityManifest) (proposed : AuthorityContent) :
    Except AuthorityError Unit := do
  current.forM fun manifest => manifest.verify hive key
  proposed.validate
  let oldEpoch := (current.map (·.content.epoch)).getD 0
  reject (proposed.epoch < state.epoch ∨ proposed.epoch < oldEpoch) AuthorityError.older
  let limit ← okOr (checkedAdd oldEpoch 1) AuthorityError.bound
  reject (limit < proposed.epoch) AuthorityError.older
  current.forM fun manifest => do
    reject (proposed.issuedAt < manifest.content.issuedAt) AuthorityError.older
    if proposed.epoch = oldEpoch then
      proposed.revocations.extends_ manifest.content.revocations

/-- The revision after the watermark, in the epoch of the proposal. -/
def nextRevision (state : StoreState) (proposed : AuthorityContent) :
    Except AuthorityError UInt64 :=
  if proposed.epoch = state.epoch then okOr (checkedAdd state.revision 1) .bound else .ok 1

/-- The reserved content and the state that records its reservation. -/
def reservation (state : StoreState) (hive : HiveId) (key : DevicePublicKey)
    (current : Option AuthorityManifest) (proposed : AuthorityContent) :
    Except AuthorityError (AuthorityContent × StoreState) := do
  reject (current.map (·.content) ≠ state.current.map (·.content)) AuthorityError.storeConflict
  checkPredecessor state hive key current proposed
  let used ← proposed.certificates.foldlM (reserveCertificate hive key current) state.used
  let used ← proposed.revocations.ids.foldlM remember used
  let revision ← nextRevision state proposed
  let reserved := { proposed with revision }
  let payload ← contentBytes reserved
  return (reserved,
    { state with epoch := proposed.epoch, revision, used, pending := some (Sha256.digest payload) })

/-! ## The open store -/

/-- An open store over its file. -/
structure Store where
  hive : HiveId
  key : DevicePublicKey
  file : StateFile
  state : StoreState
  poisoned : Bool
deriving DecidableEq

abbrev StoreM := EStateM AuthorityError Store

/-- Replaces the state file. -/
def persist (fate : Fate) (state : StoreState) : StoreM Unit := do
  let store ← get
  let bytes ← ofExcept (encodeState state store.hive store.key)
  match fate with
  | .done => set { store with file := (store.file.rename bytes).sync, state, poisoned := false }
  | .unwritten => do
      set { store with poisoned := true }
      throw .io
  | .unsynced => do
      set { store with file := store.file.rename bytes, poisoned := true }
      throw .io

/-- Reserves the next revision durably. -/
def reserve (fate : Fate) (current : Option AuthorityManifest) (proposed : AuthorityContent) :
    StoreM AuthorityContent := do
  let store ← get
  reject (store.poisoned = true) AuthorityError.storeConflict
  let (reserved, state) ←
    ofExcept (reservation store.state store.hive store.key current proposed)
  persist fate state
  return reserved

/-- Commits the reserved, signed content. -/
def commit (fate : Fate) (manifest : AuthorityManifest) : StoreM Unit := do
  let store ← get
  reject (store.poisoned = true) AuthorityError.storeConflict
  ofExcept (manifest.verify store.hive store.key)
  let payload ← ofExcept (contentBytes manifest.content)
  reject (store.state.pending ≠ some (Sha256.digest payload)) AuthorityError.storeConflict
  persist fate { store.state with current := some manifest, pending := none }

/-- The state that a file holds for this hive and device. -/
def loadState (file : StateFile) (hive : HiveId) (key : DevicePublicKey) :
    Except AuthorityError StoreState :=
  match file.current with
  | none => .ok .empty
  | some bytes => do
      reject (maxStoreBytes < bytes.length) AuthorityError.bound
      decodeState bytes hive key

/-- Opens a store. A recovered reservation is consumed forever. -/
def openStore (fate : Fate) : StoreM Unit := do
  let store ← get
  let state ← ofExcept (loadState store.file store.hive store.key)
  set { store with state, poisoned := false }
  if state.pending ≠ none then persist fate { state with pending := none }

/-! ## Reading back -/

/-- What holds of a state between operations. -/
structure StoreState.Stored (state : StoreState) (hive : HiveId) (key : DevicePublicKey) : Prop where
  used_le : state.used.length ≤ maxUsedIds
  used_sorted : state.used.IsChain (· < ·)
  verified : ∀ manifest ∈ state.current, manifest.Verified hive key
  within : ∀ manifest ∈ state.current, manifest.content.watermark ≤ state.watermark
  covered : ∀ manifest ∈ state.current, ∀ id ∈ manifest.content.ids, id ∈ state.used

theorem StoreState.empty_stored (hive : HiveId) (key : DevicePublicKey) :
    StoreState.empty.Stored hive key :=
  ⟨Nat.zero_le _, .nil, nofun, nofun, nofun⟩

variable {hive : HiveId} {key : DevicePublicKey} {state : StoreState}
  {current : Option AuthorityManifest} {used used' : List CertificateId}
  {proposed : AuthorityContent} {P : StoreState → Prop} {store : Store}

theorem checkCurrent_eq_ok {u : Unit} :
    state.checkCurrent hive key = .ok u ↔ ∀ manifest ∈ state.current,
      manifest.Verified hive key ∧ manifest.content.watermark ≤ state.watermark ∧
        ∀ id ∈ manifest.content.ids, id ∈ state.used := by
  unfold StoreState.checkCurrent
  cases state.current with
  | none => simp
  | some manifest =>
    simp only [ok_steps, exists_unit, verify_eq_ok, not_lt, not_exists, not_and, not_not,
      Option.mem_def, Option.some.injEq, forall_eq']

theorem run_readBinding (hive : HiveId) (key : DevicePublicKey) (rest : Bytes) :
    (readBinding hive key).run (Cbor.bytes hive.1 ++ (Cbor.bytes key.bytes.1 ++ rest)) =
      .ok ((), rest) := by
  have hhive : hive.1.length < 2 ^ 64 := by rw [hive.2]; decide
  have hkey : key.bytes.1.length < 2 ^ 64 := by rw [key.bytes.2]; decide
  rw [readBinding, Cbor.bind_bytes hhive, Cbor.bind_reject (by simp), Cbor.bind_bytes hkey]
  exact Cbor.run_reject_of_not (by simp) _ _

theorem run_readManifestItem {item : Bytes} (h : manifestItem current = .ok item) (rest : Bytes) :
    (Cbor.readNullable readHeldManifest).run (item ++ rest) = .ok (current, rest) := by
  cases current with
  | none =>
    obtain rfl := pure_eq_ok.mp h
    exact Cbor.run_readNullable_null _ _
  | some manifest =>
    obtain ⟨bytes, encoded, made⟩ := bind_eq_ok.mp h
    obtain rfl := pure_eq_ok.mp made
    obtain ⟨-, fits, rfl⟩ := encode_eq_ok.mp encoded
    have short : manifest.bytes.length < 2 ^ 64 := by
      unfold maxManifestBytes at fits
      omega
    apply Cbor.run_readNullable_bytes short
    rw [readHeldManifest, Cbor.bind_bytes short, decodeManifest_encode encoded]
    rfl

theorem run_readPendingItem (pending : Option Digest) (rest : Bytes) :
    (Cbor.readNullable (fixed 32)).run (pendingItem pending ++ rest) = .ok (pending, rest) := by
  cases pending with
  | none => exact Cbor.run_readNullable_null _ _
  | some digest =>
    apply Cbor.run_readNullable_bytes (by rw [digest.2]; decide)
    exact Cbor.run_readFixed _ digest (by decide) rest

/-- The state that a file was written from is read from it. -/
theorem decodeState_encodeState {bytes : Bytes} (stored : state.Stored hive key)
    (encoded : encodeState state hive key = .ok bytes) :
    decodeState bytes hive key = .ok state := by
  have checked : state.checkCurrent hive key = .ok () := checkCurrent_eq_ok.mpr fun manifest held =>
    ⟨stored.verified manifest held, stored.within manifest held, stored.covered manifest held⟩
  have read : (readState hive key).run bytes = .ok (state, []) := by
    obtain ⟨current, item, made⟩ := bind_eq_ok.mp encoded
    obtain ⟨-, made⟩ := reject_bind_eq_ok.mp made
    obtain rfl := pure_eq_ok.mp made
    rw [← append_nil (Cbor.u8 0)]
    simp (disch := first | omega | decide | simp [stored.used_sorted]) only [readState, array,
      Cbor.bind_reads, Cbor.run_bind_of (run_version _), Cbor.run_bind_of (run_readBinding _ _ _),
      Cbor.run_bind_of (run_readManifestItem item _),
      Cbor.run_bind_of (run_readIds stored.used_le (by decide) _),
      Cbor.run_bind_of (run_readPendingItem _ _), Cbor.bind_reject]
    rfl
  simp only [decodeState, read, ok_bind, reject_bind, ne_eq, not_true_eq_false, if_false, checked,
    encoded]
  rfl

/-! ## What a reservation promises -/

theorem remember_eq_ok {id : CertificateId} (h : remember used id = .ok used')
    (few : used.length ≤ maxUsedIds) (sorted : used.IsChain (· < ·)) :
    used'.length ≤ maxUsedIds ∧ used'.IsChain (· < ·) ∧
      ∀ other, other ∈ used' ↔ other = id ∨ other ∈ used := by
  unfold remember at h
  split at h
  · rename_i known
    cases h
    refine ⟨few, sorted, fun other => ⟨.inr, ?_⟩⟩
    rintro (rfl | inside)
    · exact known
    · exact inside
  · rename_i unknown
    obtain ⟨room, made⟩ := reject_bind_eq_ok.mp h
    obtain rfl := pure_eq_ok.mp made
    refine ⟨?_, ?_, ?_⟩
    · rw [orderedInsert_length]
      omega
    · have before : used.Pairwise (· < ·) := isChain_iff_pairwise.mp sorted
      have after := (before.imp le_of_lt).orderedInsert id used
      have distinct : (used.orderedInsert (· ≤ ·) id).Nodup :=
        (perm_orderedInsert _ id used).nodup_iff.mpr
          (nodup_cons.mpr ⟨unknown, before.imp ne_of_lt⟩)
      apply isChain_iff_pairwise.mpr
      exact after.imp₂ (fun _ _ le ne => lt_of_le_of_ne le ne) distinct
    · intro other
      rw [mem_orderedInsert]

/-- What the used ids become along a reservation. -/
structure UsedAfter (used used' new : List CertificateId) : Prop where
  length_le : used'.length ≤ maxUsedIds
  sorted : used'.IsChain (· < ·)
  mem_iff : ∀ id, id ∈ used' ↔ id ∈ used ∨ id ∈ new

theorem rememberAll {ids : List CertificateId} (few : used.length ≤ maxUsedIds)
    (sorted : used.IsChain (· < ·)) (h : ids.foldlM remember used = .ok used') :
    UsedAfter used used' ids := by
  induction ids generalizing used with
  | nil =>
    cases h
    exact ⟨few, sorted, by simp⟩
  | cons id ids ih =>
    rw [foldlM_cons, bind_eq_ok] at h
    obtain ⟨next, first, rest⟩ := h
    obtain ⟨few', sorted', mem_iff⟩ := remember_eq_ok first few sorted
    obtain ⟨length_le, chain, after⟩ := ih few' sorted' rest
    refine ⟨length_le, chain, fun other => ?_⟩
    rw [after, mem_iff, mem_cons]
    tauto

theorem reserveAll {certificates : List CertifiedKey} (few : used.length ≤ maxUsedIds)
    (sorted : used.IsChain (· < ·))
    (h : certificates.foldlM (reserveCertificate hive key current) used = .ok used') :
    UsedAfter used used' (certificates.map (·.claims.id)) ∧
      ∀ certificate ∈ certificates,
        (∃ manifest ∈ current, certificate ∈ manifest.content.certificates) ∨
          certificate.claims.id ∉ used := by
  induction certificates generalizing used with
  | nil =>
    cases h
    exact ⟨⟨few, sorted, by simp⟩, forall_mem_nil _⟩
  | cons certificate certificates ih =>
    rw [foldlM_cons, bind_eq_ok] at h
    obtain ⟨next, first, rest⟩ := h
    obtain ⟨-, first⟩ := reject_bind_eq_ok.mp first
    obtain ⟨fresh, first⟩ := reject_bind_eq_ok.mp first
    obtain ⟨few', sorted', mem_iff⟩ := remember_eq_ok first few sorted
    obtain ⟨⟨length_le, chain, after⟩, new⟩ := ih few' sorted' rest
    refine ⟨⟨length_le, chain, fun other => ?_⟩, ?_⟩
    · rw [after, mem_iff, map_cons, mem_cons]
      tauto
    · rw [forall_mem_cons]
      constructor
      · by_cases retained : ∃ manifest ∈ current, certificate ∈ manifest.content.certificates
        · exact .inl retained
        · exact .inr fun inside => fresh ⟨retained, inside⟩
      · intro other member
        rcases new other member with retained | unused
        · exact .inl retained
        · exact .inr fun inside => unused ((mem_iff _).mpr (.inr inside))

/-- What a reservation promises of the content it hands out and of the state it records. -/
structure Reserves (state : StoreState) (current : Option AuthorityManifest)
    (proposed reserved : AuthorityContent) (state' : StoreState) : Prop where
  predecessor_eq : current.map (·.content) = state.current.map (·.content)
  reserved_eq : reserved = { proposed with revision := state'.revision }
  valid : reserved.Valid
  watermark_eq : state'.watermark = reserved.watermark
  newer : state.watermark < reserved.watermark
  current_eq : state'.current = state.current
  pending_eq : state'.pending = some (Sha256.digest (contentFields reserved))
  mem_used : ∀ id, id ∈ state'.used ↔ id ∈ state.used ∨ id ∈ reserved.ids
  fresh : ∀ certificate ∈ reserved.certificates,
    (∃ manifest ∈ state.current, certificate ∈ manifest.content.certificates) ∨
      certificate.claims.id ∉ state.used
  not_earlier : ∀ manifest ∈ state.current, manifest.content.issuedAt ≤ reserved.issuedAt
  extends_revocations : ∀ manifest ∈ state.current, reserved.epoch = manifest.content.epoch →
    ∀ id ∈ manifest.content.revocations.ids, id ∈ reserved.revocations.ids

theorem nextRevision_newer {revision : UInt64} (not_older : state.epoch ≤ proposed.epoch)
    (h : nextRevision state proposed = .ok revision) :
    state.watermark < toLex (proposed.epoch, revision) := by
  unfold nextRevision at h
  rw [StoreState.watermark, Prod.Lex.lt_iff]
  split at h
  · rename_i same
    have counted := okOr_eq_ok.mp h
    have grown := checkedAdd_eq_some.mp counted
    refine .inr ⟨same.symm, ?_⟩
    show state.revision < revision
    have one : UInt64.toNat 1 = 1 := rfl
    rw [UInt64.lt_iff_toNat_lt]
    omega
  · rename_i differs
    exact .inl (lt_of_le_of_ne not_older (Ne.symm differs))

theorem checkPredecessor_eq_ok {u : Unit}
    (h : checkPredecessor state hive key current proposed = .ok u) :
    state.epoch ≤ proposed.epoch ∧ ∀ manifest ∈ current,
      manifest.content.issuedAt ≤ proposed.issuedAt ∧
      (proposed.epoch = manifest.content.epoch → ∀ id ∈ manifest.content.revocations.ids,
        id ∈ proposed.revocations.ids) := by
  simp only [checkPredecessor, ok_steps, not_or, not_lt] at h
  obtain ⟨_, -, _, -, _, ⟨within, -⟩, _, -, _, -, checked⟩ := h
  refine ⟨within, ?_⟩
  rintro manifest held
  obtain rfl := Option.mem_def.mp held
  obtain ⟨not_earlier, checked⟩ := reject_bind_eq_ok.mp checked
  refine ⟨not_lt.mp not_earlier, fun same => ?_⟩
  simp only [Option.map_some, Option.getD_some, if_pos same] at checked
  simp only [CertifiedKeyRevocations.extends_, ok_steps, not_exists, not_and, not_not] at checked
  obtain ⟨_, -, _, -, kept⟩ := checked
  exact kept

theorem reservation_spec {state' : StoreState} {reserved : AuthorityContent}
    (stored : state.Stored hive key)
    (h : reservation state hive key current proposed = .ok (reserved, state')) :
    Reserves state current proposed reserved state' ∧ state'.Stored hive key := by
  simp only [reservation, reject_bind_eq_ok] at h
  obtain ⟨same, h⟩ := h
  simp only [ok_steps, contentBytes_eq_ok] at h
  obtain ⟨_, checked, used, reserving, used', revoking, revision, counted, _, ⟨valid, rfl⟩,
    made⟩ := h
  cases made
  obtain ⟨certified, fresh⟩ := reserveAll stored.used_le stored.used_sorted reserving
  have after := rememberAll certified.length_le certified.sorted revoking
  have same := not_ne_iff.mp same
  obtain ⟨not_older, follows⟩ := checkPredecessor_eq_ok checked
  have committed : ∀ manifest ∈ state.current, ∃ given ∈ current,
      given.content = manifest.content := by
    intro manifest held
    rw [Option.mem_def.mp held, Option.map_some] at same
    exact Option.map_eq_some_iff.mp same
  have newer := nextRevision_newer not_older counted
  have mem_used : ∀ id, id ∈ used' ↔ id ∈ state.used ∨ id ∈ proposed.ids := by
    intro id
    rw [after.mem_iff, certified.mem_iff, AuthorityContent.ids, mem_append]
    tauto
  refine ⟨⟨same, rfl, valid, rfl, newer, rfl, rfl, mem_used, ?_, ?_, ?_⟩, ?_⟩
  · -- The predecessor has the content of the committed manifest, so it retains the same.
    intro certificate inside
    rcases fresh certificate inside with ⟨manifest, given, listed⟩ | unused
    · rw [Option.mem_def.mp given, Option.map_some] at same
      obtain ⟨committed, held, content_eq⟩ := Option.map_eq_some_iff.mp same.symm
      exact .inl ⟨committed, held, by rw [content_eq]; exact listed⟩
    · exact .inr unused
  · intro manifest held
    obtain ⟨given, isGiven, content_eq⟩ := committed manifest held
    rw [← content_eq]
    exact (follows given isGiven).1
  · intro manifest held
    obtain ⟨given, isGiven, content_eq⟩ := committed manifest held
    rw [← content_eq]
    exact (follows given isGiven).2
  · refine ⟨after.length_le, after.sorted, stored.verified, ?_, ?_⟩
    · intro manifest held
      exact (stored.within manifest held).trans (le_of_lt newer)
    · intro manifest held id inside
      exact (mem_used id).mpr (.inl (stored.covered manifest held id inside))

/-! ## What survives -/

/-- A file content is that of a stored state with `P`. -/
def Written (hive : HiveId) (key : DevicePublicKey) (P : StoreState → Prop)
    (content : Option Bytes) : Prop :=
  ∃ state : StoreState, state.Stored hive key ∧ P state ∧
    match content with
    | none => state = .empty
    | some bytes => encodeState state hive key = .ok bytes

/-- Whatever a crash leaves of the file, it is a stored state with `P`, and so is the state of a
usable handle. -/
structure Store.Holds (P : StoreState → Prop) (store : Store) : Prop where
  survives : ∀ content ∈ store.file.survivors, Written store.hive store.key P content
  state : store.poisoned = false → store.state.Stored store.hive store.key ∧ P store.state

/-- The handle is usable and the file holds its state, synchronized. -/
structure Store.Settled (store : Store) : Prop where
  usable : store.poisoned = false
  stored : store.state.Stored store.hive store.key
  survivors_eq : ∃ bytes, encodeState store.state store.hive store.key = .ok bytes ∧
    store.file.survivors = [some bytes]

theorem Store.Settled.holds (settled : store.Settled) (good : P store.state) : store.Holds P := by
  obtain ⟨bytes, encoded, survivors_eq⟩ := settled.survivors_eq
  refine ⟨?_, fun _ => ⟨settled.stored, good⟩⟩
  rw [survivors_eq, forall_mem_singleton]
  exact ⟨store.state, settled.stored, good, encoded⟩

/-- The same store, bound to the same hive and key. -/
def Store.SameBinding (store store' : Store) : Prop :=
  store'.hive = store.hive ∧ store'.key = store.key

theorem persist_ends (holds : store.Holds P) (stored : state.Stored store.hive store.key)
    (good : P state) (fate : Fate) :
    Ends store (persist fate state)
      (fun _ after => after.Settled ∧ after.state = state ∧ store.SameBinding after)
      (fun after => after.Holds P ∧ store.SameBinding after) := by
  refine .get (.ofExcept ⟨holds, rfl, rfl⟩ fun bytes encoded => ?_)
  have written : Written store.hive store.key P (some bytes) := ⟨state, stored, good, encoded⟩
  cases fate with
  | done => exact ⟨⟨rfl, stored, bytes, encoded, rfl⟩, rfl, rfl, rfl⟩
  | unwritten => exact ⟨⟨holds.survives, nofun⟩, rfl, rfl⟩
  | unsynced =>
    refine ⟨⟨?_, nofun⟩, rfl, rfl⟩
    intro content survives
    rcases mem_cons.mp survives with rfl | earlier
    · exact written
    · exact holds.survives content earlier

theorem reserve_ends (holds : store.Holds P) (fate : Fate) (current : Option AuthorityManifest)
    (proposed : AuthorityContent)
    (keeps : ∀ reserved state', P store.state → store.state.Stored store.hive store.key →
      Reserves store.state current proposed reserved state' → P state') :
    Ends store (reserve fate current proposed)
      (fun reserved after => after.Settled ∧ store.SameBinding after ∧ P store.state ∧
        store.state.Stored store.hive store.key ∧
        Reserves store.state current proposed reserved after.state)
      (fun after => after.Holds P ∧ store.SameBinding after) := by
  refine .get (.reject ⟨holds, rfl, rfl⟩ fun usable => ?_)
  obtain ⟨stored, good⟩ := holds.state (by simpa using usable)
  refine .ofExcept ⟨holds, rfl, rfl⟩ ?_
  rintro ⟨reserved, state'⟩ reserving
  obtain ⟨reserves, stored'⟩ := reservation_spec stored reserving
  refine .seq (persist_ends holds stored' (keeps reserved state' good stored reserves) fate)
    ?_
  rintro _ after ⟨settled, rfl, same⟩
  exact .pure ⟨settled, same, good, stored, reserves⟩

theorem commit_ends (holds : store.Holds P) (fate : Fate) (manifest : AuthorityManifest)
    (within : store.poisoned = false → manifest.content.watermark ≤ store.state.watermark ∧
      ∀ id ∈ manifest.content.ids, id ∈ store.state.used)
    (keeps : P store.state → manifest.Verified store.hive store.key →
      P { store.state with current := some manifest, pending := none }) :
    Ends store (commit fate manifest)
      (fun _ after => after.Settled ∧ store.SameBinding after ∧
        after.state = { store.state with current := some manifest, pending := none } ∧
        P store.state ∧ manifest.Verified store.hive store.key)
      (fun after => after.Holds P ∧ store.SameBinding after) := by
  refine .get (.reject ⟨holds, rfl, rfl⟩ fun usable => ?_)
  have usable : store.poisoned = false := by simpa using usable
  obtain ⟨stored, good⟩ := holds.state usable
  obtain ⟨older, covered⟩ := within usable
  refine .ofExcept ⟨holds, rfl, rfl⟩ fun _ verified => ?_
  have verified := verify_eq_ok.mp verified
  refine .ofExcept ⟨holds, rfl, rfl⟩ fun _ _ => .reject ⟨holds, rfl, rfl⟩ fun _ => ?_
  have stored' : StoreState.Stored
      { store.state with current := some manifest, pending := none } store.hive store.key := by
    refine ⟨stored.used_le, stored.used_sorted, ?_, ?_, ?_⟩
    · rintro _ ⟨⟩
      exact verified
    · rintro _ ⟨⟩
      exact older
    · rintro _ ⟨⟩
      exact covered
  refine (persist_ends holds stored' (keeps good verified) fate).mono ?_ fun _ h => h
  rintro _ after ⟨settled, state_eq, same⟩
  exact ⟨settled, same, state_eq, good, verified⟩

theorem loadState_written {file : StateFile} (written : Written hive key P file.current) :
    ∃ state, loadState file hive key = .ok state ∧ state.Stored hive key ∧ P state := by
  obtain ⟨state, stored, good, content⟩ := written
  refine ⟨state, ?_, stored, good⟩
  unfold loadState
  cases current : file.current with
  | none =>
    rw [current] at content
    simp only at content ⊢
    rw [content]
  | some bytes =>
    rw [current] at content
    simp only at content ⊢
    have short : ¬maxStoreBytes < bytes.length := by
      obtain ⟨_, -, made⟩ := bind_eq_ok.mp content
      obtain ⟨fits, made⟩ := reject_bind_eq_ok.mp made
      obtain rfl := pure_eq_ok.mp made
      exact fits
    rw [reject_bind, if_neg short, decodeState_encodeState stored content]

theorem openStore_ends
    (survives : ∀ content ∈ store.file.survivors, Written store.hive store.key P content)
    (keeps : ∀ state : StoreState, P state → P { state with pending := none }) (fate : Fate) :
    Ends store (openStore fate) (fun _ after => after.Holds P ∧ store.SameBinding after)
      (fun after => (∀ content ∈ after.file.survivors, Written after.hive after.key P content) ∧
        store.SameBinding after) := by
  refine .get (.ofExcept ⟨survives, rfl, rfl⟩ fun state loaded => ?_)
  obtain ⟨found, loaded', stored, good⟩ := loadState_written (survives _ mem_cons_self)
  obtain rfl := Except.ok.inj (loaded.symm.trans loaded')
  refine .bind (rfl : EStateM.run (set _) store = .ok () _) ?_
  have holds : Store.Holds P { store with state, poisoned := false } :=
    ⟨survives, fun _ => ⟨stored, good⟩⟩
  split
  · have stored' : StoreState.Stored { state with pending := none } store.hive store.key :=
      ⟨stored.used_le, stored.used_sorted, stored.verified, stored.within, stored.covered⟩
    refine (persist_ends holds stored' (keeps state good) fate).mono ?_ ?_
    · rintro _ after ⟨settled, state_eq, same⟩
      exact ⟨settled.holds (by rw [state_eq]; exact keeps state good), same⟩
    · rintro after ⟨held, same⟩
      exact ⟨held.survives, same⟩
  · exact .pure ⟨holds, rfl, rfl⟩

end Store

end Supgang.Authority
