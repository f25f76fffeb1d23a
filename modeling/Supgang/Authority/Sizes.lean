/-
# Authority.Sizes — a reservation is never too large to use

`apply` checks the size of a content before it reserves a revision for it, with the widest revision
and a fixed allowance for the envelope. This module shows that the allowance is enough: whatever
was reserved encodes, signed or not, and so does the store that holds it.

* `envelope_length_le` — the allowance covers the envelope; `contentFields_length_le` — the widest
  revision is the widest.
* `encodeState_fits` — a store with its full history of ids and a full manifest is within its bound.
* `only_signer_or_disk_burns` — **after a reservation only the signer or the disk can fail.**
* `store_always_reopens` — after any crash.
-/
import Supgang.Authority.Issuer
import Supgang.Authority.Retention

namespace Supgang.Authority

set_option autoImplicit false
set_option linter.unusedSectionVars false

open Theory List Record

section Sizes

variable [P256]

/-! ## Contents and manifests -/

theorem u64_length_le (value : UInt64) : (Cbor.u64 value).length ≤ (Cbor.u64 maxRevision).length :=
  (Cbor.unsigned_length_le value.toNat).trans (by decide +kernel)

/-- No revision takes more bytes than the largest. -/
theorem contentFields_length_le (content : AuthorityContent) (revision : UInt64) :
    (contentFields { content with revision }).length ≤
      (contentFields { content with revision := maxRevision }).length := by
  have hrevision := u64_length_le revision
  simp only [contentFields, length_append]
  omega

variable {signature : DeviceSignature} {state' : StoreState} {reserved : AuthorityContent}
  {store : Store}

theorem envelope_length_le {payload : Bytes} (fits : payload.length + 72 ≤ maxManifestBytes) :
    (manifestEnvelope payload signature).length ≤ maxManifestBytes := by
  have hhead := Cbor.head_length_le_three 2
    (show payload.length < 65536 by unfold maxManifestBytes at fits; omega)
  have hsignature : (Cbor.bytes signature.bytes.1).length = 66 := by
    rw [Cbor.bytes, length_append, signature.bytes.2]
    rfl
  have harray : (Cbor.array 3).length = 1 := rfl
  have hversion : (Cbor.u8 1).length = 1 := rfl
  rw [manifestEnvelope, length_append, length_append, length_append, hsignature,
    harray, hversion, Cbor.bytes, length_append]
  omega

/-! ## The store -/

theorem idsBytes_length_le {ids : List CertificateId} (few : ids.length ≤ maxUsedIds) :
    (idsBytes ids).length ≤ 3 + 17 * maxUsedIds := by
  have hhead := Cbor.head_length_le_three 4
    (show ids.length < 65536 by unfold maxUsedIds at few; omega)
  have heach : ∀ id ∈ ids, (Cbor.bytes id.1).length ≤ 17 := by
    intro id _
    rw [Cbor.bytes, length_append, id.2]
    exact le_of_eq rfl
  have hitems := Cbor.flatMap_length_le heach
  rw [idsBytes, length_append, Cbor.array]
  calc (Cbor.head 4 ids.length).length + (ids.flatMap fun id => Cbor.bytes id.1).length
      ≤ 3 + ids.length * 17 := Nat.add_le_add hhead hitems
    _ ≤ 3 + 17 * maxUsedIds := by omega

variable [Sha256] [Ed25519]

variable {current : Option AuthorityManifest} {state : StoreState} {hive : HiveId}
  {key : DevicePublicKey} {request : Request} {proposed : AuthorityContent}

theorem manifestItem_fits
    (valid : ∀ manifest ∈ current, manifest.content.Valid ∧
      manifest.bytes.length ≤ maxManifestBytes) :
    ∃ item, manifestItem current = .ok item ∧ item.length ≤ 3 + maxManifestBytes := by
  cases current with
  | none => exact ⟨Cbor.null, rfl, by decide⟩
  | some manifest =>
    obtain ⟨valid, fits⟩ := valid manifest rfl
    have hhead := Cbor.head_length_le_three 2
      (show manifest.bytes.length < 65536 by unfold maxManifestBytes at fits; omega)
    have encoded : manifest.encode = .ok manifest.bytes := encode_eq_ok.mpr ⟨valid, fits, rfl⟩
    refine ⟨Cbor.bytes manifest.bytes, ?_, ?_⟩
    · rw [manifestItem, encoded]
      rfl
    · rw [Cbor.bytes, length_append]
      exact Nat.add_le_add hhead fits

theorem pendingItem_length_le (pending : Option Digest) : (pendingItem pending).length ≤ 41 := by
  cases pending with
  | none => decide
  | some digest => exact Cbor.fixed_length_le digest

/-- A store of at most 4096 ids with a manifest within its bound is within its own. -/
theorem encodeState_fits (hive : HiveId) (key : DevicePublicKey)
    (few : state.used.length ≤ maxUsedIds)
    (valid : ∀ manifest ∈ state.current, manifest.content.Valid ∧
      manifest.bytes.length ≤ maxManifestBytes) :
    ∃ bytes, encodeState state hive key = .ok bytes ∧ bytes.length ≤ maxStoreBytes := by
  obtain ⟨item, hitem, hmanifest⟩ := manifestItem_fits valid
  have hids := idsBytes_length_le few
  have hpending := pendingItem_length_le state.pending
  have hhive := Cbor.fixed_length_le hive
  have hkey := Cbor.fixed_length_le key.bytes
  have hepoch := Cbor.unsigned_length_le state.epoch.toNat
  have hrevision := Cbor.unsigned_length_le state.revision.toNat
  have harray := Cbor.head_length_le 4 9
  have hversion := Cbor.unsigned_length_le (UInt8.toNat 1)
  have hflags := Cbor.unsigned_length_le (UInt8.toNat 0)
  have total : (Cbor.array 9 ++ (Cbor.u8 1 ++ (Cbor.bytes hive.1 ++ (Cbor.bytes key.bytes.1 ++
      (Cbor.u64 state.epoch ++ (Cbor.u64 state.revision ++ (item ++ (idsBytes state.used ++
      (pendingItem state.pending ++ Cbor.u8 0))))))))).length ≤ maxStoreBytes := by
    simp only [length_append, Cbor.array, Cbor.u8, Cbor.u64]
    unfold maxStoreBytes maxManifestBytes maxUsedIds at *
    omega
  refine ⟨_, ?_, total⟩
  rw [encodeState, hitem, ok_bind, reject_bind, if_neg (not_lt.mpr total)]
  rfl

theorem StoreState.Stored.encodes (stored : state.Stored hive key) :
    ∃ bytes, encodeState state hive key = .ok bytes ∧ bytes.length ≤ maxStoreBytes ∧
      decodeState bytes hive key = .ok state := by
  obtain ⟨bytes, encoded, fits⟩ := encodeState_fits hive key stored.used_le fun manifest held =>
    ⟨(stored.verified manifest held).valid, (stored.verified manifest held).fits⟩
  exact ⟨bytes, encoded, fits, decodeState_encodeState stored encoded⟩

/-! ## What was proposed -/

/-- What `apply` has found out when it comes to the store. -/
structure Proposes (request : Request) (proposed : AuthorityContent) : Prop where
  valid : proposed.Valid
  widest : proposed.revision = maxRevision
  fits : (contentFields proposed).length + 72 ≤ maxManifestBytes
  names : ∀ certificate ∈ proposed.certificates,
    certificate.claims.Names request.hive (deviceNodeId request.signer) proposed.epoch

theorem checkUpdate_current {u : Unit} (h : request.checkUpdate = .ok u) :
    ∀ manifest ∈ request.current, manifest.Verified request.hive request.signer := by
  simp only [Request.checkUpdate, bind_eq_ok] at h
  obtain ⟨_, -, _, -, _, -, checked⟩ := h
  intro manifest given
  rw [Option.mem_def.mp given] at checked
  obtain ⟨_, verified, -⟩ := bind_eq_ok.mp checked
  exact verify_eq_ok.mp verified

/-- A certificate that is kept names the epoch it is kept in. -/
theorem retained_names {epoch : UInt64}
    (verified : ∀ manifest ∈ request.current, manifest.Verified request.hive request.signer)
    (numbered : request.epoch = .ok epoch) {certificate : CertifiedKey}
    (inside : certificate ∈ request.retained) :
    certificate.claims.Names request.hive (deviceNodeId request.signer) epoch := by
  have listed := (mem_filter.mp inside).1
  unfold Request.kept at listed
  unfold Request.epoch at numbered
  split at listed
  · cases listed
  · rename_i stays
    rw [if_neg stays] at numbered
    cases current : request.current with
    | none =>
      rw [current] at listed
      cases listed
    | some manifest =>
      rw [current] at listed
      have named := (verified manifest current).names certificate listed
      have same : manifest.content.epoch = epoch := by
        have := Except.ok.inj numbered
        rw [Request.oldEpoch, current] at this
        exact this
      rwa [same] at named

theorem propose_eq_ok (h : request.propose = .ok proposed) : Proposes request proposed := by
  simp only [Request.propose, ok_steps, exists_const, not_lt, contentBytes_eq_ok, forM_eq_ok] at h
  obtain ⟨_, checked, epoch, numbered, added, _, -, _, ⟨valid, rfl⟩, fits, rfl⟩ := h
  refine ⟨valid, rfl, fits, fun certificate inside => ?_⟩
  change certificate ∈ request.certificates at inside
  rw [Request.certificates, mem_insertionSort, mem_append] at inside
  rcases inside with kept | new
  · exact retained_names (checkUpdate_current checked) numbered kept
  · have proved := added certificate new
    simp only [Request.checkAdded, ok_steps, exists_const, not_not] at proved
    obtain ⟨_, -, named, -⟩ := proved
    exact named

/-- The store has checked that every certificate is of its own hive and device. -/
theorem reserveAll_binding {used used' : List CertificateId} {certificates : List CertifiedKey}
    (h : certificates.foldlM (reserveCertificate hive key current) used = .ok used') :
    ∀ certificate ∈ certificates,
      certificate.claims.hive = hive ∧ certificate.claims.issuer = deviceNodeId key := by
  induction certificates generalizing used with
  | nil => exact forall_mem_nil _
  | cons certificate certificates ih =>
    rw [foldlM_cons, bind_eq_ok] at h
    obtain ⟨next, first, rest⟩ := h
    obtain ⟨bound, -⟩ := reject_bind_eq_ok.mp first
    rw [not_or, not_not, not_not] at bound
    rw [forall_mem_cons]
    exact ⟨bound, ih rest⟩

theorem reservation_binding
    (h : reservation state hive key current proposed = .ok (reserved, state')) :
    ∀ certificate ∈ proposed.certificates,
      certificate.claims.hive = hive ∧ certificate.claims.issuer = deviceNodeId key := by
  simp only [reservation, reject_bind_eq_ok] at h
  obtain ⟨-, h⟩ := h
  simp only [bind_eq_ok] at h
  obtain ⟨_, -, used, reserving, -⟩ := h
  exact reserveAll_binding reserving

/-! ## After the reservation -/

section Reserved

variable {state state' : StoreState} {hive : HiveId} {key : DevicePublicKey} {request : Request}
  {proposed reserved : AuthorityContent}

theorem reserved_fits (proposes : Proposes request proposed)
    (reserves : Reserves state request.current proposed reserved state')
    (signature : DeviceSignature) :
    (AuthorityManifest.mk reserved signature).bytes.length ≤ maxManifestBytes := by
  apply envelope_length_le
  have widest := contentFields_length_le proposed state'.revision
  have same : { proposed with revision := maxRevision } = proposed := by rw [← proposes.widest]
  rw [same] at widest
  rw [reserves.reserved_eq]
  exact (Nat.add_le_add_right widest 72).trans proposes.fits

/-- A reserved content that the device has signed passes `verify`. -/
theorem reserved_verified (proposes : Proposes request proposed)
    (reserves : Reserves state request.current proposed reserved state')
    {signature : DeviceSignature} {hive' : HiveId} {key' : DevicePublicKey}
    (names : ∀ certificate ∈ proposed.certificates,
      certificate.claims.Names hive' (deviceNodeId key') proposed.epoch)
    (signed : key'.verifyDomain authorityDomain (contentFields reserved) signature = .ok ()) :
    (AuthorityManifest.mk reserved signature).Verified hive' key' := by
  refine ⟨reserves.valid, ?_, signed, reserved_fits proposes reserves signature⟩
  rw [reserves.reserved_eq]
  exact names

/-- The store with the reserved content committed. -/
theorem committed_stored (stored : state'.Stored hive key)
    (reserves : Reserves state request.current proposed reserved state')
    {signature : DeviceSignature}
    (verified : (AuthorityManifest.mk reserved signature).Verified hive key) :
    StoreState.Stored { state' with current := some ⟨reserved, signature⟩, pending := none }
      hive key := by
  refine ⟨stored.used_le, stored.used_sorted, ?_, ?_, ?_⟩
  · rintro _ ⟨⟩
    exact verified
  · rintro _ ⟨⟩
    exact le_of_eq reserves.watermark_eq.symm
  · rintro _ ⟨⟩ id inside
    exact (reserves.mem_used id).mpr (.inr inside)

end Reserved

theorem run_persist_eq_ok {fate : Fate} {u : Unit} {after : Store} :
    (persist fate state).run store = .ok u after ↔ fate = .done ∧
      ∃ bytes, encodeState state store.hive store.key = .ok bytes ∧
        { store with file := (store.file.rename bytes).sync, state, poisoned := false } = after := by
  simp only [persist, run_steps, ↓existsAndEq, and_true]
  cases fate <;> simp

theorem run_onStore_eq_ok {α : Type} {program : StoreM α} {desk after : Desk} {value : α} :
    (onStore program).run desk = .ok value after ↔
      ∃ store, program.run desk.store = .ok value store ∧ { desk with store } = after := by
  rw [EStateM.run, onStore]
  cases program.run desk.store <;> simp

theorem run_signContent_eq_ok {fate : SignerFate} {desk after : Desk} :
    (signContent fate reserved).run desk = .ok signature after ↔
      fate = .signed signature ∧ { desk with signed := desk.signed ++ [reserved] } = after := by
  cases fate with
  | signed signature => simp [signContent]
  | _ => exact ⟨nofun, nofun⟩

/-- Once a revision is reserved and neither the signer nor the disk fails, the update is committed. -/
theorem apply_completes {desk : Desk} (usable : desk.store.poisoned = false)
    (stored : desk.store.state.Stored desk.store.hive desk.store.key)
    (proposing : request.propose = .ok proposed)
    (reserving : reservation desk.store.state desk.store.hive desk.store.key request.current
      proposed = .ok (reserved, state'))
    (signed : request.signer.verifyDomain authorityDomain (contentFields reserved) signature = .ok
      ())
    (signed' : desk.store.key.verifyDomain authorityDomain (contentFields reserved) signature = .ok ()) :
    ∃ after, (request.apply ⟨.done, .signed signature, .done⟩).run desk =
      .ok ⟨reserved, signature⟩ after ∧ after.store.poisoned = false ∧
      after.store.state = { state' with current := some ⟨reserved, signature⟩, pending := none } := by
  obtain ⟨reserves, stored'⟩ := reservation_spec stored reserving
  have proposes := propose_eq_ok proposing
  have bound := reservation_binding reserving
  have verified := reserved_verified proposes reserves proposes.names signed
  have verified' : (AuthorityManifest.mk reserved signature).Verified desk.store.hive
      desk.store.key := by
    refine reserved_verified proposes reserves (fun certificate inside => ?_) signed'
    exact ⟨(bound certificate inside).1, (bound certificate inside).2,
      (proposes.names certificate inside).2.2⟩
  obtain ⟨bytes, encoded, -⟩ := stored'.encodes
  obtain ⟨bytes', encoded', -⟩ := (committed_stored stored' reserves verified').encodes
  have content := contentBytes_eq_ok.mpr ⟨reserves.valid, rfl⟩
  simp only [Request.apply, reserve, commit, run_steps, run_onStore_eq_ok, run_persist_eq_ok,
    run_signContent_eq_ok, ↓existsAndEq, and_true, true_and, exists_const]
  exact ⟨proposed, (reserved, state'), bytes, _, signature, (), (), _, bytes',
    ⟨proposing, ⟨by simp [usable], reserving, encoded⟩, content, rfl, verify_eq_ok.mpr verified,
      ⟨by simp, verify_eq_ok.mpr verified', content, not_not.mpr reserves.pending_eq, encoded'⟩, rfl⟩,
    rfl⟩

/-- **After a reservation only the signer or the disk can fail.** Whatever the history of the store:
when `apply` comes to it with a proposal and a revision is reserved, the reserved content encodes,
with every signature the manifest is within its bound, the store that records the reservation and
the one that holds the signed manifest are within theirs and read back as they were, and a signature
that verifies and a disk that works commit the update. -/
theorem only_signer_or_disk_burns (hive : HiveId) (key : DevicePublicKey) (events : List Event)
    (request : Request) (proposed reserved : AuthorityContent) (state' : StoreState)
    (desk : Desk) (reached : desk = ((World.start hive key).run events).desk)
    (opened : ((World.start hive key).run events).opened = true)
    (usable : desk.store.poisoned = false) (proposing : request.propose = .ok proposed)
    (reserving : reservation desk.store.state hive key request.current proposed =
      .ok (reserved, state')) :
    contentBytes reserved = .ok (contentFields reserved) ∧
    (∀ signature : DeviceSignature, ∃ bytes,
      (AuthorityManifest.mk reserved signature).encode = .ok bytes ∧
        bytes.length ≤ maxManifestBytes) ∧
    (∃ bytes, encodeState state' hive key = .ok bytes ∧ bytes.length ≤ maxStoreBytes ∧
      decodeState bytes hive key = .ok state') ∧
    (∀ signature : DeviceSignature,
      (AuthorityManifest.mk reserved signature).verify hive key = .ok () → ∃ bytes,
        encodeState { state' with current := some ⟨reserved, signature⟩, pending := none } hive
          key = .ok bytes ∧ bytes.length ≤ maxStoreBytes ∧
        decodeState bytes hive key =
          .ok { state' with current := some ⟨reserved, signature⟩, pending := none }) ∧
    (∀ signature : DeviceSignature,
      request.signer.verifyDomain authorityDomain (contentFields reserved) signature = .ok () →
      key.verifyDomain authorityDomain (contentFields reserved) signature = .ok () →
      ∃ after, (request.apply ⟨.done, .signed signature, .done⟩).run desk =
        .ok ⟨reserved, signature⟩ after) := by
  have sound := run_sound events (start_sound hive key)
  have hhive : desk.store.hive = hive := by rw [reached]; exact sound.hive_eq
  have hkey : desk.store.key = key := by rw [reached]; exact sound.key_eq
  have stored : desk.store.state.Stored hive key := by
    have holds := (sound.opened opened).2
    rw [← reached] at holds
    rw [← hhive, ← hkey]
    exact (holds.state usable).1
  obtain ⟨reserves, stored'⟩ := reservation_spec stored reserving
  have proposes := propose_eq_ok proposing
  refine ⟨contentBytes_eq_ok.mpr ⟨reserves.valid, rfl⟩, ?_, stored'.encodes, ?_, ?_⟩
  · intro signature
    have fits := reserved_fits proposes reserves signature
    exact ⟨_, encode_eq_ok.mpr ⟨reserves.valid, fits, rfl⟩, fits⟩
  · intro signature verified
    exact (committed_stored stored' reserves (verify_eq_ok.mp verified)).encodes
  · intro signature signed signed'
    subst hhive
    subst hkey
    obtain ⟨after, applied, -⟩ :=
      apply_completes usable stored proposing reserving signed signed'
    exact ⟨after, applied⟩

/-- **A store can always be opened again.** After any run, and whatever a crash then leaves of the
file, an opening succeeds where the disk can be written, and the opened store knows the revision and
every id of all that ever reached the signer. -/
theorem store_always_reopens (hive : HiveId) (key : DevicePublicKey) (events : List Event)
    (kept : Nat) :
    let world := ((World.start hive key).run events).step (.crash kept)
    ∃ desk, (onStore (openStore .done)).run world.desk = .ok () desk ∧
      (∀ content ∈ world.desk.signed, content.watermark ≤ desk.store.state.watermark) ∧
      ∀ content ∈ world.desk.signed, ∀ id ∈ content.ids, id ∈ desk.store.state.used := by
  intro world
  have sound : world.Sound hive key := step_sound _ (run_sound events (start_sound hive key))
  clear_value world
  obtain ⟨rfl, rfl, -, survives, -⟩ := sound
  obtain ⟨state, loaded, stored, covers⟩ := loadState_written (survives _ mem_cons_self)
  simp only [run_onStore_eq_ok, openStore, run_steps, ↓existsAndEq, true_and, and_true]
  by_cases idle : state.pending = none
  · exact ⟨_, ⟨state, loaded, by simp [idle]; rfl⟩, covers.older, covers.used⟩
  · -- The reservation that was found is given up, which takes one more write.
    have cleared : StoreState.Stored { state with pending := none } world.desk.store.hive
        world.desk.store.key :=
      ⟨stored.used_le, stored.used_sorted, stored.verified, stored.within, stored.covered⟩
    obtain ⟨bytes, encoded, -⟩ := cleared.encodes
    exact ⟨_, ⟨state, loaded, by simp [idle, run_persist_eq_ok, encoded]; rfl⟩, covers.older,
      covers.used⟩

/-- **A manifest takes the place of every one before it.** Over every run the manifests handed out
rise in (epoch, revision) and never fall in date; within an epoch a revocation stays, and a
certificate goes only by being revoked. -/
theorem handed_out_succeeds (hive : HiveId) (key : DevicePublicKey) (events : List Event) :
    ((World.start hive key).run events).contents.Pairwise Succeeds := by
  have sound := run_sound events (start_sound hive key)
  obtain ⟨state, -, covers, -⟩ := sound.survives _ mem_cons_self
  obtain ⟨chain, ordered, -, through, -⟩ := covers.lineage
  exact ordered.sublist through

end Sizes

/-! ## Two updates -/

attribute [local instance] endSha256 openP256 openEd25519

/-- The first update of a new store certifies a key. -/
def firstUpdate : Request where
  update := ⟨[openCertificate 7], [], none, false⟩
  current := none
  hive := FixedBytes.replicate 32 3
  signer := openKey
  issuedAt := 10
  nextUpdate := 20

/-- The second revokes that key and certifies another. -/
def secondUpdate : Request where
  update := ⟨[openCertificate 8], [FixedBytes.replicate 16 7], none, false⟩
  current := some ⟨firstUpdate.content 0 1, openSignature⟩
  hive := firstUpdate.hive
  signer := firstUpdate.signer
  issuedAt := 10
  nextUpdate := 20

theorem only_signer_or_disk_burns_second :
    let world := (World.start firstUpdate.hive firstUpdate.signer).run
      [.open .done, .apply firstUpdate ⟨.done, .signed openSignature, .done⟩]
    ∃ reserved after, reserved.certificates = [openCertificate 8] ∧
      reserved.revocations.ids = [FixedBytes.replicate 16 7] ∧
      (secondUpdate.apply ⟨.done, .signed openSignature, .done⟩).run world.desk =
        .ok ⟨reserved, openSignature⟩ after := by
  intro world
  have proposing : secondUpdate.propose = .ok (secondUpdate.content 0 maxRevision) := by
    decide +kernel
  have reserving : reservation world.desk.store.state secondUpdate.hive secondUpdate.signer
      secondUpdate.current (secondUpdate.content 0 maxRevision) =
        .ok (secondUpdate.content 0 2, ⟨0, 2, secondUpdate.current,
          [FixedBytes.replicate 16 7, FixedBytes.replicate 16 8],
          some (Sha256.digest (contentFields (secondUpdate.content 0 2)))⟩) := by
    decide +kernel
  have all := only_signer_or_disk_burns firstUpdate.hive firstUpdate.signer _ secondUpdate _ _ _
    world.desk rfl (by decide +kernel) (by decide +kernel) proposing reserving
  obtain ⟨after, applied⟩ := all.2.2.2.2 openSignature rfl rfl
  exact ⟨_, after, by decide +kernel, by decide +kernel, applied⟩

end Supgang.Authority
