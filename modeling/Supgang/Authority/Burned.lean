/-
# Authority.Burned — a burned reservation does not block the issuer

An attempt that fails after its reservation leaves traces in the store: a later revision, the ids it
would have used, and perhaps a later epoch. This module compares an issuer some of whose attempts
failed with one that never made them. The committed contents are the same but for their revisions,
and what the second would accept the first accepts too, while there is room for its ids, a revision
is left, and no failed attempt has opened a later epoch than the update is for.

* `Shadows` — the two issuers, in step; `Trails` — how their stores differ.
* `reservation_ok` — when a reservation is granted.
* `Shadows.shadowed` — the two stay in step over every run; `Shadows.follows`, `exists_shadows` — and
  every run has such a second issuer.
* `Shadows.accepts`, `burned_reservation_does_not_block` — **the update is accepted after all.**
* `burned_epoch_blocks` — after a failed advance of the epoch an update within the old one is refused.
-/
import Supgang.Authority.Sizes

namespace Supgang.Authority

set_option autoImplicit false
set_option linter.unusedSectionVars false

open Theory List Record

section Burned

variable [P256]

/-! ## Contents but for their revisions -/

def AuthorityContent.unrevised (content : AuthorityContent) : AuthorityContent :=
  { content with revision := 0 }

/-- The same content but for its revision. -/
structure AuthorityContent.Alike (content other : AuthorityContent) : Prop where
  epoch : content.epoch = other.epoch
  issuedAt : content.issuedAt = other.issuedAt
  nextUpdate : content.nextUpdate = other.nextUpdate
  certificates : content.certificates = other.certificates
  revocations : content.revocations = other.revocations
  services : content.services = other.services

theorem AuthorityContent.Alike.ids {content other : AuthorityContent}
    (alike : content.Alike other) : content.ids = other.ids := by
  rw [AuthorityContent.ids, AuthorityContent.ids, alike.certificates, alike.revocations]

/-- Two heads with the same content but for its revision. -/
inductive Heads : Option AuthorityManifest → Option AuthorityManifest → Prop
  | none : Heads none none
  | some {one other : AuthorityManifest} (alike : one.content.Alike other.content) :
      Heads (some one) (some other)

/-- The epoch of the committed manifest. -/
def StoreState.headEpoch (state : StoreState) : UInt64 :=
  (state.current.map (·.content.epoch)).getD 0

/-! ## The same order at both issuers -/

/-- What an owner asks of an issuer, whatever it has committed. -/
structure Order where
  update : AuthorityUpdate
  hive : HiveId
  signer : DevicePublicKey
  issuedAt : UInt64
  nextUpdate : UInt64
deriving DecidableEq

/-- The call of `apply` with a predecessor. -/
def Order.after (order : Order) (current : Option AuthorityManifest) : Request :=
  ⟨order.update, current, order.hive, order.signer, order.issuedAt, order.nextUpdate⟩

variable [Sha256] [Ed25519]

variable {one other current : Option AuthorityManifest} {order : Order}
  {proposed reserved : AuthorityContent} {used : List CertificateId} {hive : HiveId}
  {key : DevicePublicKey} {state quiet : StoreState} {store : Store} {manifest : AuthorityManifest}
  {attempt : Attempt} {desk : Desk} {request : Request} {tried : List AuthorityContent}

/-- The proposal of an order does not depend on the revision of the committed content. -/
theorem propose_alike (heads : Heads one other)
    (verified : ∀ manifest ∈ one, manifest.Verified order.hive order.signer)
    (h : (order.after other).propose = .ok proposed) :
    (order.after one).propose = .ok proposed := by
  cases heads with
  | none => exact h
  | @some one other alike =>
    have hids := alike.ids
    obtain ⟨hepoch, hissued, -, hcertificates, hrevocations, hservices⟩ := alike
    let first := order.after (some one)
    let second := order.after (some other)
    have revoked : first.revocations = second.revocations := by
      simp only [first, second, Order.after, Request.revocations, Request.kept]
      split <;> simp only [Option.map_none, Option.map_some, Option.getD_some, hrevocations]
    have retained : first.retained = second.retained := by
      simp only [Request.retained, revoked]
      simp only [first, second, Order.after, Request.kept]
      split <;> simp only [Option.map_none, Option.map_some, Option.getD_some, hcertificates]
    have numbered : first.epoch = second.epoch := by
      simp only [first, second, Order.after, Request.epoch, Request.oldEpoch, Option.map_some,
        Option.getD_some, hepoch]
    have contents : ∀ epoch revision, first.content epoch revision =
        second.content epoch revision := by
      intro epoch revision
      simp only [Request.content, Request.certificates, retained, revoked]
      simp only [first, second, Order.after, Request.services, Option.map_some, Option.getD_some, hservices]
    have added : ∀ epoch certificate, first.checkAdded epoch certificate =
        second.checkAdded epoch certificate := by
      intro epoch certificate
      simp only [Request.checkAdded, revoked]
      simp only [first, second, Order.after, Option.mem_def, Option.some.injEq, exists_eq_left', hids]
    have checked : ∀ {u : Unit}, second.checkUpdate = .ok u → first.checkUpdate = .ok u := by
      intro u checked
      simp only [second, Order.after, Request.checkUpdate, bind_eq_ok] at checked
      simp only [first, Order.after, Request.checkUpdate, bind_eq_ok]
      obtain ⟨a, few, b, apart, c, services, following⟩ := checked
      refine ⟨a, few, b, apart, c, services, ?_⟩
      obtain ⟨_, -, notEarlier⟩ := bind_eq_ok.mp following
      refine bind_eq_ok.mpr ⟨(), verify_eq_ok.mpr (verified one rfl), ?_⟩
      rw [hissued]
      exact notEarlier
    simp only [Request.propose, bind_eq_ok] at h ⊢
    obtain ⟨u, begun, epoch, counted, v, adding, w, valid, payload, encoded, z, fits, made⟩ := h
    have sameAdds : order.update.add.forM (first.checkAdded epoch) =
        order.update.add.forM (second.checkAdded epoch) := by
      rw [show first.checkAdded epoch = second.checkAdded epoch from funext (added epoch)]
    refine ⟨u, checked begun, epoch, numbered.trans counted, v, sameAdds.trans adding, w, ?_,
      payload, ?_, z, fits, ?_⟩
    · exact (congrArg AuthorityContent.validate (contents epoch 1)).trans valid
    · exact (congrArg contentBytes (contents epoch maxRevision)).trans encoded
    · exact (congrArg Pure.pure (contents epoch maxRevision)).trans made

/-! ## When a reservation is granted -/

/-- An id finds room when it, the used ones and the rest are at most as many as the store keeps. -/
theorem remember_ok {id : CertificateId} {rest : Finset CertificateId}
    (few : used.length ≤ maxUsedIds) (sorted : used.IsChain (· < ·))
    (room : (used.toFinset ∪ insert id rest).card ≤ maxUsedIds) :
    ∃ next, remember used id = .ok next ∧ next.length ≤ maxUsedIds ∧ next.IsChain (· < ·) ∧
      (∀ other, other ∈ next ↔ other = id ∨ other ∈ used) ∧
      (next.toFinset ∪ rest).card ≤ maxUsedIds := by
  have remembered : ∃ next, remember used id = .ok next := by
    unfold remember
    split
    · exact ⟨used, rfl⟩
    · rename_i unknown
      have first : (insert id used.toFinset).card ≤ maxUsedIds := by
        refine (Finset.card_le_card ?_).trans room
        rw [Finset.union_insert]
        exact Finset.insert_subset_insert id Finset.subset_union_left
      have distinct : used.Nodup := (isChain_iff_pairwise.mp sorted).imp ne_of_lt
      rw [Finset.card_insert_of_notMem (by simpa using unknown),
        toFinset_card_of_nodup distinct] at first
      exact ⟨_, reject_bind_eq_ok.mpr ⟨by omega, rfl⟩⟩
  obtain ⟨next, remembered⟩ := remembered
  obtain ⟨few', sorted', mem_iff⟩ := remember_eq_ok remembered few sorted
  have same : next.toFinset ∪ rest = used.toFinset ∪ insert id rest := by
    ext other
    simp only [Finset.mem_union, Finset.mem_insert, mem_toFinset, mem_iff]
    tauto
  exact ⟨next, remembered, few', sorted', mem_iff, same ▸ room⟩

theorem UsedAfter.toFinset {used' new : List CertificateId} (after : UsedAfter used used' new) :
    used'.toFinset = used.toFinset ∪ new.toFinset := by
  ext id
  simp only [mem_toFinset, Finset.mem_union, after.mem_iff]

theorem rememberAll_ok {ids : List CertificateId} (few : used.length ≤ maxUsedIds)
    (sorted : used.IsChain (· < ·)) (room : (used.toFinset ∪ ids.toFinset).card ≤ maxUsedIds) :
    ∃ used', ids.foldlM remember used = .ok used' := by
  induction ids generalizing used with
  | nil => exact ⟨used, rfl⟩
  | cons id ids ih =>
    rw [toFinset_cons] at room
    obtain ⟨next, remembered, few', sorted', -, room'⟩ := remember_ok few sorted room
    obtain ⟨used', rest⟩ := ih few' sorted' room'
    exact ⟨used', by rw [foldlM_cons, remembered]; exact rest⟩

/-- Certificates of this hive and device are reserved when each is kept or new. -/
theorem reserveAll_ok {certificates : List CertifiedKey} (few : used.length ≤ maxUsedIds)
    (sorted : used.IsChain (· < ·))
    (bound : ∀ certificate ∈ certificates, certificate.claims.hive = hive ∧
      certificate.claims.issuer = deviceNodeId key)
    (fresh : ∀ certificate ∈ certificates, (∃ manifest ∈ current, certificate ∈
      manifest.content.certificates) ∨ certificate.claims.id ∉ used)
    (distinct : DistinctIds certificates)
    (room : (used.toFinset ∪ (certificates.map (·.claims.id)).toFinset).card ≤ maxUsedIds) :
    ∃ used', certificates.foldlM (reserveCertificate hive key current) used = .ok used' := by
  induction certificates generalizing used with
  | nil => exact ⟨used, rfl⟩
  | cons certificate certificates ih =>
    rw [forall_mem_cons] at bound fresh
    obtain ⟨apart, distinct⟩ := pairwise_cons.mp distinct
    rw [map_cons, toFinset_cons] at room
    obtain ⟨next, remembered, few', sorted', mem_iff, room'⟩ := remember_ok few sorted room
    have reserved : reserveCertificate hive key current used certificate = .ok next := by
      refine reject_bind_eq_ok.mpr ⟨?_, reject_bind_eq_ok.mpr ⟨?_, remembered⟩⟩
      · rw [not_or, not_not, not_not]
        exact bound.1
      · rintro ⟨new, known⟩
        exact fresh.1.elim new fun unused => unused known
    have fresh' : ∀ later ∈ certificates,
        (∃ manifest ∈ current, later ∈ manifest.content.certificates) ∨
          later.claims.id ∉ next := by
      intro later inside
      refine (fresh.2 later inside).imp id fun unused known => ?_
      rcases (mem_iff _).mp known with same | known
      · exact apart later inside same.symm
      · exact unused known
    obtain ⟨used', rest⟩ := ih few' sorted' bound.2 fresh' distinct room'
    exact ⟨used', by rw [foldlM_cons, reserved]; exact rest⟩

/-- What a store asks of a proposal. -/
structure Acceptable (state : StoreState) (hive : HiveId) (key : DevicePublicKey)
    (current : Option AuthorityManifest) (proposed : AuthorityContent) : Prop where
  predecessor : current.map (·.content) = state.current.map (·.content)
  checked : checkPredecessor state hive key current proposed = .ok ()
  bound : ∀ certificate ∈ proposed.certificates,
    certificate.claims.hive = hive ∧ certificate.claims.issuer = deviceNodeId key
  fresh : ∀ certificate ∈ proposed.certificates,
    (∃ manifest ∈ current, certificate ∈ manifest.content.certificates) ∨
      certificate.claims.id ∉ state.used
  room : (state.used.toFinset ∪ proposed.ids.toFinset).card ≤ maxUsedIds
  revisions : proposed.epoch = state.epoch → state.revision ≠ maxRevision

theorem nextRevision_ok (left : proposed.epoch = state.epoch → state.revision ≠ maxRevision) :
    ∃ revision, nextRevision state proposed = .ok revision ∧ revision ≠ 0 := by
  unfold nextRevision
  split
  · rename_i same
    have one : UInt64.toNat 1 = 1 := rfl
    have largest : maxRevision.toNat = 2 ^ 64 - 1 := rfl
    have small := state.revision.toNat_lt
    have below : state.revision.toNat + 1 < 2 ^ 64 := by
      have differs : state.revision.toNat ≠ maxRevision.toNat :=
        fun equal => left same (UInt64.toNat_inj.mp equal)
      omega
    have counted : checkedAdd state.revision 1 = some (state.revision + 1) := by
      rw [checkedAdd_eq_some, UInt64.toNat_add, one, Nat.mod_eq_of_lt below]
    refine ⟨state.revision + 1, by rw [counted]; rfl, fun zero => ?_⟩
    have := congrArg UInt64.toNat zero
    rw [UInt64.toNat_add, one, Nat.mod_eq_of_lt below] at this
    exact absurd this (Nat.succ_ne_zero _)
  · exact ⟨1, rfl, by decide⟩

theorem reservation_ok (stored : state.Stored hive key) (valid : proposed.Valid)
    (acceptable : Acceptable state hive key current proposed) :
    ∃ reserved state', reservation state hive key current proposed = .ok (reserved, state') := by
  have split : proposed.ids.toFinset = (proposed.certificates.map (·.claims.id)).toFinset ∪
      proposed.revocations.ids.toFinset := by
    rw [AuthorityContent.ids, toFinset_append]
  have room := acceptable.room
  rw [split] at room
  obtain ⟨used, reserving⟩ := reserveAll_ok stored.used_le stored.used_sorted acceptable.bound
    acceptable.fresh valid.distinct
    ((Finset.card_le_card (Finset.union_subset_union_right Finset.subset_union_left)).trans room)
  have after := (reserveAll stored.used_le stored.used_sorted reserving).1
  have room' : (used.toFinset ∪ proposed.revocations.ids.toFinset).card ≤ maxUsedIds := by
    rw [after.toFinset, Finset.union_assoc]
    exact room
  obtain ⟨used', revoking⟩ := rememberAll_ok after.length_le after.sorted room'
  obtain ⟨revision, counted, nonzero⟩ := nextRevision_ok acceptable.revisions
  have valid' : AuthorityContent.Valid { proposed with revision } :=
    ⟨nonzero, valid.ordered, valid.interval, valid.certificates_le, valid.revocations_le,
      valid.revocations_sorted, valid.services, valid.certificates_sorted, valid.proved,
      valid.epoch_eq, valid.unrevoked⟩
  refine ⟨{ proposed with revision }, { state with
    epoch := proposed.epoch, revision, used := used'
    pending := some (Sha256.digest (contentFields { proposed with revision })) }, ?_⟩
  simp only [reservation, ok_steps, exists_const]
  exact ⟨not_not.mpr acceptable.predecessor, (), acceptable.checked, used, reserving, used',
    revoking, revision, counted, _, contentBytes_eq_ok.mpr ⟨valid', rfl⟩, rfl⟩

/-! ## What an attempt has done -/

/-- A poisoned handle reserves nothing. -/
theorem apply_usable {after : Desk} (h : (request.apply attempt).run desk = .ok manifest after) :
    desk.store.poisoned = false := by
  simp only [Request.apply, reserve, run_steps, run_onStore_eq_ok, ↓existsAndEq, and_true, true_and,
    exists_const, Bool.not_eq_true] at h
  obtain ⟨_, -, _, _, _, ⟨unpoisoned, -⟩, -⟩ := h
  exact unpoisoned

/-- What a successful attempt has done. -/
structure Applied (request : Request) (before : Store) (manifest : AuthorityManifest)
    (after : Store) : Prop where
  hive_eq : after.hive = before.hive
  key_eq : after.key = before.key
  settled : after.Settled
  verified : manifest.Verified before.hive before.key
  granted : ∃ proposed state', request.propose = .ok proposed ∧
    reservation before.state before.hive before.key request.current proposed =
      .ok (manifest.content, state') ∧
    after.state = { state' with current := some manifest, pending := none }

theorem apply_eq_ok {after : Desk} (stored : desk.store.state.Stored desk.store.hive desk.store.key)
    (h : (request.apply attempt).run desk = .ok manifest after) :
    Applied request desk.store manifest after.store := by
  simp only [Request.apply, reserve, commit, run_steps, run_onStore_eq_ok, run_persist_eq_ok,
    run_signContent_eq_ok, ↓existsAndEq, and_true, true_and, exists_const] at h
  obtain ⟨proposed, proposing, ⟨reserved, state'⟩, bytes, ⟨-, granted, -⟩, -, -, signature, -, _, -,
    _, _, bytes', ⟨-, verified, -, -, -, encoded⟩, rfl, rfl⟩ := h
  obtain ⟨reserves, stored'⟩ := reservation_spec stored granted
  have verified := verify_eq_ok.mp verified
  exact ⟨rfl, rfl, ⟨rfl, committed_stored stored' reserves verified, bytes', encoded, rfl⟩, verified,
    proposed, state', proposing, granted, rfl⟩

/-! ## What failed attempts leave behind -/

theorem Heads.congr {one' other' : Option AuthorityManifest} (heads : Heads one other)
    (same : one'.map (·.content) = one.map (·.content))
    (same' : other'.map (·.content) = other.map (·.content)) : Heads one' other' := by
  cases heads with
  | none =>
    rw [Option.map_none, Option.map_eq_none_iff] at same same'
    rw [same, same']
    exact .none
  | some alike =>
    obtain ⟨first, rfl, first_eq⟩ := Option.map_eq_some_iff.mp same
    obtain ⟨second, rfl, second_eq⟩ := Option.map_eq_some_iff.mp same'
    exact .some (by rw [first_eq, second_eq]; exact alike)

theorem Heads.symm (heads : Heads one other) : Heads other one := by
  cases heads with
  | none => exact .none
  | some alike =>
    exact .some ⟨alike.epoch.symm, alike.issuedAt.symm, alike.nextUpdate.symm,
      alike.certificates.symm, alike.revocations.symm, alike.services.symm⟩

theorem Heads.epoch_eq (heads : Heads one other) :
    (one.map (·.content.epoch)).getD 0 = (other.map (·.content.epoch)).getD 0 := by
  cases heads with
  | none => rfl
  | some alike => exact alike.epoch

theorem oldEpoch_eq (same : request.current.map (·.content) = state.current.map (·.content)) :
    request.oldEpoch = state.headEpoch := by
  have epochs := congrArg (Option.map AuthorityContent.epoch) same
  rw [Option.map_map, Option.map_map] at epochs
  exact congrArg (Option.getD · 0) epochs

/-- A proposal is for the epoch of the predecessor or for the next one. -/
theorem propose_epoch (h : request.propose = .ok proposed) :
    proposed.epoch.toNat =
      request.oldEpoch.toNat + if request.update.advanceEpoch then 1 else 0 := by
  simp only [Request.propose, ok_steps] at h
  obtain ⟨_, -, epoch, numbered, _, -, _, -, _, -, _, -, rfl⟩ := h
  unfold Request.epoch at numbered
  split at numbered
  · rename_i advances
    rw [if_pos advances]
    exact checkedAdd_eq_some.mp (okOr_eq_ok.mp numbered)
  · rename_i stays
    rw [if_neg stays, Except.ok.inj numbered]
    rfl

/-- How the state of an issuer some of whose attempts failed differs from that of one that never
made them. -/
structure Trails (tried : List AuthorityContent) (quiet state : StoreState) : Prop where
  heads : Heads state.current quiet.current
  used : ∀ id ∈ state.used, id ∈ quiet.used ∨ ∃ content ∈ tried, id ∈ content.ids
  near : state.epoch.toNat ≤ state.headEpoch.toNat + 1
  kept : ∀ id ∈ quiet.used, id ∈ state.used
  level : quiet.epoch = quiet.headEpoch
  behind : quiet.epoch = state.epoch → quiet.revision ≤ state.revision

theorem StoreState.Stored.headEpoch_le (stored : state.Stored hive key) :
    state.headEpoch ≤ state.epoch := by
  unfold StoreState.headEpoch
  cases held : state.current with
  | none => exact UInt64.le_iff_toNat_le.mpr (Nat.zero_le _)
  | some manifest =>
    rcases Prod.Lex.le_iff.mp (stored.within manifest held) with less | ⟨same, -⟩
    · exact le_of_lt less
    · exact le_of_eq same

section Trails

variable {state' : StoreState} (trails : Trails tried quiet state)

include trails

theorem Trails.clear : Trails tried quiet { state with pending := none } :=
  ⟨trails.heads, trails.used, trails.near, trails.kept, trails.level, trails.behind⟩

theorem Trails.more (contents : List AuthorityContent) :
    Trails (tried ++ contents) quiet state := by
  refine ⟨trails.heads, fun id inside => ?_, trails.near, trails.kept, trails.level, trails.behind⟩
  refine (trails.used id inside).imp_right ?_
  rintro ⟨content, among, member⟩
  exact ⟨content, mem_append_left _ among, member⟩

theorem Trails.above (stored : state.Stored hive key) : quiet.epoch ≤ state.epoch := by
  rw [trails.level]
  exact trails.heads.epoch_eq.symm.trans_le stored.headEpoch_le

/-- A reservation that comes to nothing. -/
theorem Trails.burn (stored : state.Stored hive key)
    (reserves : Reserves state current proposed reserved state')
    (near : reserved.epoch.toNat ≤ state.headEpoch.toNat + 1) (among : proposed ∈ tried) :
    Trails tried quiet state' := by
  have epoch_eq : state'.epoch = reserved.epoch := congrArg (fun mark => (ofLex mark).1)
    reserves.watermark_eq
  have head_eq : state'.headEpoch = state.headEpoch := by
    rw [StoreState.headEpoch, reserves.current_eq, StoreState.headEpoch]
  have ids_eq : reserved.ids = proposed.ids := by rw [reserves.reserved_eq]; rfl
  have newer : state.watermark < state'.watermark := by
    rw [reserves.watermark_eq]
    exact reserves.newer
  refine ⟨by rw [reserves.current_eq]; exact trails.heads, ?_, by rw [epoch_eq, head_eq]; exact near,
    fun id inside => (reserves.mem_used id).mpr (.inl (trails.kept id inside)), trails.level, ?_⟩
  · intro id inside
    rcases (reserves.mem_used id).mp inside with old | new
    · exact trails.used id old
    · exact .inr ⟨proposed, among, ids_eq ▸ new⟩
  · -- The watermark grew, so where the epochs agree now they agreed before.
    intro same
    have above := trails.above stored
    rcases Prod.Lex.lt_iff.mp newer with less | ⟨equal, less⟩
    · exact absurd (lt_of_le_of_lt above less) (by rw [same]; exact lt_irrefl _)
    · exact (trails.behind (same.trans equal.symm)).trans (le_of_lt less)

end Trails

/-- A quiet issuer asks no less of a proposal than one with later epochs behind it. -/
theorem checkPredecessor_alike {u : Unit} (heads : Heads one other)
    (verified : ∀ manifest ∈ one, manifest.Verified hive key) (late : state.epoch ≤ proposed.epoch)
    (h : checkPredecessor quiet hive key other proposed = .ok u) :
    checkPredecessor state hive key one proposed = .ok () := by
  cases heads with
  | none =>
    simp only [checkPredecessor, ok_steps, exists_const, not_or, not_lt] at h ⊢
    obtain ⟨_, -, _, valid, ⟨-, notOlder⟩, limit, counted, within, _⟩ := h
    exact ⟨(), rfl, (), valid, ⟨late, notOlder⟩, limit, counted, within, rfl⟩
  | @some one other alike =>
    simp only [checkPredecessor, bind_eq_ok, reject_eq_ok, exists_const, not_or, not_lt,
      Option.map_some, Option.getD_some] at h ⊢
    obtain ⟨_, -, _, valid, ⟨-, notOlder⟩, limit, counted, within, follows⟩ := h
    obtain ⟨notEarlier, extending⟩ := reject_bind_eq_ok.mp follows
    have counted' : okOr (checkedAdd one.content.epoch 1) AuthorityError.bound = .ok limit := by
      rw [alike.epoch]
      exact counted
    refine ⟨(), verify_eq_ok.mpr (verified one rfl), (), valid,
      ⟨late, (le_of_eq alike.epoch).trans notOlder⟩, limit, counted', within,
      reject_bind_eq_ok.mpr ⟨by rw [alike.issuedAt]; exact notEarlier, ?_⟩⟩
    simp only [alike.epoch, alike.revocations]
    exact extending

variable {state' : StoreState} {P : StoreState → Prop} {world : World}

theorem reservation_checked
    (h : reservation state hive key current proposed = .ok (reserved, state')) :
    checkPredecessor state hive key current proposed = .ok () ∧
      nextRevision state proposed = .ok state'.revision ∧ state'.epoch = proposed.epoch := by
  simp only [reservation, reject_bind_eq_ok] at h
  obtain ⟨-, h⟩ := h
  simp only [ok_steps] at h
  obtain ⟨_, checked, used, -, used', -, revision, counted, _, -, made⟩ := h
  cases made
  exact ⟨checked, counted, rfl⟩

/-- What one issuer was granted another with a like head may be granted too. -/
theorem reservation_alike {one other other' : StoreState} (stored : one.Stored hive key)
    (stored' : other.Stored hive key) (heads : Heads one.current other.current)
    (granted : reservation other hive key current proposed = .ok (reserved, other'))
    (late : one.epoch ≤ proposed.epoch)
    (fresh : ∀ certificate ∈ proposed.certificates, (∃ manifest ∈ other.current, certificate ∈
      manifest.content.certificates) ∨ certificate.claims.id ∉ one.used)
    (room : (one.used.toFinset ∪ proposed.ids.toFinset).card ≤ maxUsedIds)
    (revisions : proposed.epoch = one.epoch → one.revision ≠ maxRevision) :
    ∃ reserved' one', reservation one hive key one.current proposed = .ok (reserved', one') := by
  have reserves := (reservation_spec stored' granted).1
  have heads' : Heads one.current current := heads.congr rfl reserves.predecessor_eq
  have checked := checkPredecessor_alike heads' stored.verified late (reservation_checked granted).1
  have valid : proposed.Valid := by
    simp only [checkPredecessor, bind_eq_ok] at checked
    obtain ⟨_, -, _, valid, -⟩ := checked
    exact validate_eq_ok.mp valid
  refine reservation_ok stored valid ⟨rfl, checked, reservation_binding granted, ?_, room, revisions⟩
  intro certificate inside
  refine (fresh certificate inside).imp_left ?_
  rintro ⟨manifest, held, listed⟩
  cases held' : one.current with
  | none =>
    rw [held', Option.mem_def.mp held] at heads
    cases heads
  | some manifest' =>
    rw [held', Option.mem_def.mp held] at heads
    cases heads with
    | some alike => exact ⟨manifest', rfl, by rw [alike.certificates]; exact listed⟩

/-- Both issuers' revisions move on, and the quiet one's stays behind. -/
theorem revision_behind {revision revision' : UInt64} (trails : Trails tried quiet state)
    (stored : state.Stored hive key) (late : state.epoch ≤ proposed.epoch) (nonzero : revision ≠ 0)
    (counted : nextRevision state proposed = .ok revision)
    (counted' : nextRevision quiet proposed = .ok revision') : revision' ≤ revision := by
  have one : UInt64.toNat 1 = 1 := rfl
  unfold nextRevision at counted counted'
  split at counted'
  · rename_i same'
    have equal : proposed.epoch = state.epoch :=
      le_antisymm (by rw [same']; exact trails.above stored) late
    rw [if_pos equal] at counted
    have after := checkedAdd_eq_some.mp (okOr_eq_ok.mp counted)
    have after' := checkedAdd_eq_some.mp (okOr_eq_ok.mp counted')
    have behind := UInt64.le_iff_toNat_le.mp (trails.behind (same'.symm.trans equal))
    rw [UInt64.le_iff_toNat_le]
    omega
  · obtain rfl := Except.ok.inj counted'
    have positive : revision.toNat ≠ 0 := fun zero => nonzero (UInt64.toNat_inj.mp zero)
    rw [UInt64.le_iff_toNat_le]
    omega

/-- The same order, done by both. -/
theorem Trails.commit {quiet quiet' store' : Store} {current' : Option AuthorityManifest}
    {manifest' : AuthorityManifest} (trails : Trails tried quiet.state store.state)
    (stored : store.state.Stored store.hive store.key)
    (stored' : quiet.state.Stored quiet.hive quiet.key)
    (applied : Applied (order.after current) store manifest store')
    (applied' : Applied (order.after current') quiet manifest' quiet') :
    Trails tried quiet'.state store'.state := by
  obtain ⟨-, -, -, -, proposed, state, proposing, granted, state_eq⟩ := applied
  obtain ⟨-, -, -, -, other, state', proposing', granted', state_eq'⟩ := applied'
  have reserves := (reservation_spec stored granted).1
  have reserves' := (reservation_spec stored' granted').1
  -- The two proposals are one.
  have heads : Heads current current' :=
    trails.heads.congr reserves.predecessor_eq reserves'.predecessor_eq
  have verified : ∀ manifest ∈ current, manifest.Verified order.hive order.signer := by
    simp only [Request.propose, bind_eq_ok] at proposing
    obtain ⟨_, checked, -⟩ := proposing
    exact checkUpdate_current checked
  obtain rfl := Except.ok.inj (proposing.symm.trans (propose_alike heads verified proposing'))
  obtain ⟨checked, counted, epoch_eq⟩ := reservation_checked granted
  obtain ⟨-, counted', epoch_eq'⟩ := reservation_checked granted'
  have ids_eq : manifest.content.ids = manifest'.content.ids := by
    rw [reserves.reserved_eq, reserves'.reserved_eq]
    rfl
  have nonzero : state.revision ≠ 0 := by
    have := reserves.valid.revised
    rwa [reserves.reserved_eq] at this
  have content_eq := reserves.reserved_eq
  have content_eq' := reserves'.reserved_eq
  rw [state_eq, state_eq']
  refine ⟨.some ?_, ?_, ?_, ?_, ?_, ?_⟩
  · rw [content_eq, content_eq']
    exact ⟨rfl, rfl, rfl, rfl, rfl, rfl⟩
  · intro id inside
    rcases (reserves.mem_used id).mp inside with old | new
    · refine (trails.used id old).imp_left fun known => ?_
      exact (reserves'.mem_used id).mpr (.inl known)
    · exact .inl ((reserves'.mem_used id).mpr (.inr (ids_eq ▸ new)))
  · have same : state.epoch = manifest.content.epoch := by rw [epoch_eq, content_eq]
    exact (congrArg UInt64.toNat same).trans_le (Nat.le_succ _)
  · intro id inside
    rcases (reserves'.mem_used id).mp inside with old | new
    · exact (reserves.mem_used id).mpr (.inl (trails.kept id old))
    · exact (reserves.mem_used id).mpr (.inr (ids_eq ▸ new))
  · show state'.epoch = manifest'.content.epoch
    rw [epoch_eq', content_eq']
  · intro _
    exact revision_behind trails stored (checkPredecessor_eq_ok checked).1 nonzero counted counted'

/-! ## An attempt that fails -/

/-- The contents that an attempt of this request would reserve. -/
def Request.proposals (request : Request) : List AuthorityContent :=
  match request.propose with
  | .ok proposed => [proposed]
  | .error _ => []

/-- The attempt does not end in the middle of a commit. -/
def Attempt.Calm (attempt : Attempt) : Prop := attempt.commit ≠ .unsynced

/-- A commit that fails without having replaced the file changes nothing. -/
theorem commit_fails (holds : store.Holds P) {fate : Fate} (calm : fate ≠ .unsynced)
    (manifest : AuthorityManifest) : Ends store (commit fate manifest) (fun _ _ => True)
      (fun after => after.Holds P ∧ store.SameBinding after) := by
  refine .get (.reject ⟨holds, rfl, rfl⟩ fun _ => .ofExcept ⟨holds, rfl, rfl⟩ fun _ _ => ?_)
  refine .ofExcept ⟨holds, rfl, rfl⟩ fun _ _ => .reject ⟨holds, rfl, rfl⟩ fun _ => ?_
  refine .get (.ofExcept ⟨holds, rfl, rfl⟩ fun _ _ => ?_)
  cases fate with
  | done => exact trivial
  | unwritten => exact ⟨⟨holds.survives, nofun⟩, rfl, rfl⟩
  | unsynced => exact absurd rfl calm

theorem Store.Holds.imp {Q : StoreState → Prop} (holds : store.Holds P)
    (weaker : ∀ state, P state → Q state) : store.Holds Q := by
  refine ⟨fun content survives => ?_, fun usable => (holds.state usable).imp_right (weaker _)⟩
  obtain ⟨state, stored, good, written⟩ := holds.survives content survives
  exact ⟨state, stored, weaker state good, written⟩

theorem signContent_keeps (fate : SignerFate) (content : AuthorityContent) (desk : Desk) :
    Ends desk (signContent fate content) (fun _ after => after.store = desk.store)
      (fun after => after.store = desk.store) := by
  cases fate <;> exact rfl

theorem apply_burns (holds : desk.store.Holds (Trails tried quiet)) (request : Request)
    (calm : attempt.Calm) :
    Ends desk (request.apply attempt) (fun _ _ => True)
      (fun after => after.store.Holds (Trails (tried ++ request.proposals) quiet) ∧
        desk.store.SameBinding after.store) := by
  have weaker := holds.imp fun _ trails => trails.more request.proposals
  refine .ofExcept ⟨weaker, rfl, rfl⟩ fun proposed proposing => ?_
  have proposals_eq : request.proposals = [proposed] := by rw [Request.proposals, proposing]
  rw [proposals_eq] at weaker ⊢
  have burn : ∀ reserved state', Trails (tried ++ [proposed]) quiet desk.store.state →
      desk.store.state.Stored desk.store.hive desk.store.key →
      Reserves desk.store.state request.current proposed reserved state' →
      Trails (tried ++ [proposed]) quiet state' := by
    intro reserved state' trails stored reserves
    refine trails.burn stored reserves ?_ (by simp)
    have epoch := propose_epoch proposing
    rw [oldEpoch_eq reserves.predecessor_eq] at epoch
    rw [reserves.reserved_eq]
    show proposed.epoch.toNat ≤ _
    split at epoch <;> omega
  refine .seq ((onStore_ends (reserve_ends weaker attempt.reserve request.current proposed
    burn)).mono_error fun _ h => h.1) ?_
  rintro content middle ⟨⟨settled, binding, trails, stored, reserves⟩, -⟩
  have held := settled.holds (burn content _ trails stored reserves)
  refine .ofExcept ⟨held, binding⟩ fun _ _ => ?_
  refine .seq ((signContent_keeps attempt.signer content middle).mono_error ?_) ?_
  · rintro after store_eq
    rw [store_eq]
    exact ⟨held, binding⟩
  rintro signature signed store_eq
  rw [← store_eq] at held binding
  refine .ofExcept ⟨held, binding⟩ fun _ _ => ?_
  refine .seq ((onStore_ends (commit_fails held calm ⟨content, signature⟩)).mono_error ?_)
    fun _ _ _ => .pure trivial
  rintro after ⟨⟨kept, binding'⟩, -⟩
  exact ⟨kept, binding'.1.trans binding.1, binding'.2.trans binding.2⟩

/-! ## The two issuers -/

/-- `Shadows hive key tried world quiet`: `quiet` is the issuer that has done what `world` has, and
never made the attempts that failed there, which would have reserved `tried`. -/
inductive Shadows (hive : HiveId) (key : DevicePublicKey) :
    List AuthorityContent → World → World → Prop
  | start : Shadows hive key [] (.start hive key) ((World.start hive key).step (.open .done))
  | opened {tried : List AuthorityContent} {world quiet : World}
      (before : Shadows hive key tried world quiet) :
      Shadows hive key tried (world.step (.open .done)) quiet
  | crashed {tried : List AuthorityContent} {world quiet : World} (kept : Nat)
      (before : Shadows hive key tried world quiet) :
      Shadows hive key tried (world.step (.crash kept)) quiet
  | failed {tried : List AuthorityContent} {world quiet : World} (request : Request)
      (attempt : Attempt) (before : Shadows hive key tried world quiet) (calm : attempt.Calm)
      (fails : world.opened = true →
        ∀ manifest desk, (request.apply attempt).run world.desk ≠ .ok manifest desk) :
      Shadows hive key (tried ++ request.proposals) (world.step (.apply request attempt)) quiet
  | succeeded {tried : List AuthorityContent} {world quiet : World} (order : Order)
      (current current' : Option AuthorityManifest) (attempt attempt' : Attempt)
      (manifest manifest' : AuthorityManifest) (desk desk' : Desk)
      (before : Shadows hive key tried world quiet) (isOpen : world.opened = true)
      (done : ((order.after current).apply attempt).run world.desk = .ok manifest desk)
      (done' : ((order.after current').apply attempt').run quiet.desk = .ok manifest' desk') :
      Shadows hive key tried (world.step (.apply (order.after current) attempt))
        (quiet.step (.apply (order.after current') attempt'))

/-- An open issuer whose handle is usable. -/
structure World.Usable (hive : HiveId) (key : DevicePublicKey) (world : World) : Prop where
  hive_eq : world.desk.store.hive = hive
  key_eq : world.desk.store.key = key
  opened : world.opened = true
  usable : world.desk.store.poisoned = false
  stored : world.desk.store.state.Stored hive key

/-- What holds of the two issuers at every moment. -/
structure Shadowed (hive : HiveId) (key : DevicePublicKey) (tried : List AuthorityContent)
    (world quiet : World) : Prop where
  hive_eq : world.desk.store.hive = hive
  key_eq : world.desk.store.key = key
  survives : ∀ content ∈ world.desk.store.file.survivors,
    Written hive key (Trails tried quiet.desk.store.state) content
  held : world.opened = true → world.desk.store.Holds (Trails tried quiet.desk.store.state)
  quietly : quiet.Usable hive key

theorem trails_start : Trails [] StoreState.empty StoreState.empty :=
  ⟨.none, nofun, Nat.zero_le _, nofun, rfl, fun _ => le_rfl⟩

theorem shadowed_start (hive : HiveId) (key : DevicePublicKey) :
    Shadowed hive key [] (.start hive key) ((World.start hive key).step (.open .done)) := by
  have opened : (World.start hive key).step (.open .done) =
      ⟨⟨⟨hive, key, ⟨none, []⟩, .empty, false⟩, []⟩, true, []⟩ := rfl
  rw [opened]
  refine ⟨rfl, rfl, ?_, nofun, rfl, rfl, rfl, rfl, StoreState.empty_stored hive key⟩
  intro content survives
  rcases mem_singleton.mp survives with rfl
  exact ⟨.empty, StoreState.empty_stored hive key, trails_start, rfl⟩

theorem World.step_open (world : World) (fate : Fate) : world.step (.open fate) =
    match (onStore (openStore fate)).run world.desk with
    | .ok _ desk => { world with desk, opened := true }
    | .error _ desk => { world with desk, opened := false } := rfl

theorem World.step_apply (isOpen : world.opened = true) (request : Request) (attempt : Attempt) :
    world.step (.apply request attempt) =
    match (request.apply attempt).run world.desk with
    | .ok manifest desk => { world with desk, produced := world.produced ++ [manifest] }
    | .error _ desk => { world with desk } := if_pos isOpen

section Steps

variable {quiet : World}

theorem Shadowed.open (shadowed : Shadowed hive key tried world quiet) :
    Shadowed hive key tried (world.step (.open .done)) quiet := by
  obtain ⟨rfl, rfl, survives, -, quietly⟩ := shadowed
  have opening := onStore_ends (openStore_ends survives (fun _ trails => trails.clear) .done)
  rw [World.step_open]
  unfold Ends at opening
  split at opening <;> rename_i desk run
  · obtain ⟨⟨holds, binding⟩, -⟩ := opening
    rw [run]
    have survives := holds.survives
    rw [binding.1, binding.2] at survives
    exact ⟨binding.1, binding.2, survives, fun _ => holds, quietly⟩
  · obtain ⟨⟨survives, binding⟩, -⟩ := opening
    rw [run]
    rw [binding.1, binding.2] at survives
    exact ⟨binding.1, binding.2, survives, nofun, quietly⟩

theorem Shadowed.fail (shadowed : Shadowed hive key tried world quiet) (request : Request)
    {attempt : Attempt} (calm : attempt.Calm)
    (fails : world.opened = true →
      ∀ manifest desk, (request.apply attempt).run world.desk ≠ .ok manifest desk) :
    Shadowed hive key (tried ++ request.proposals) (world.step (.apply request attempt)) quiet := by
  obtain ⟨rfl, rfl, survives, held, quietly⟩ := shadowed
  by_cases isOpen : world.opened = true
  · rw [World.step_apply isOpen]
    have burns := apply_burns (held isOpen) request calm
    unfold Ends at burns
    split at burns <;> rename_i desk run
    · exact absurd run (fails isOpen _ desk)
    · obtain ⟨holds, binding⟩ := burns
      rw [run]
      have survives := holds.survives
      rw [binding.1, binding.2] at survives
      exact ⟨binding.1, binding.2, survives, fun _ => holds, quietly⟩
  · have unchanged : world.step (.apply request attempt) = world := if_neg isOpen
    rw [unchanged]
    refine ⟨rfl, rfl, fun content left => ?_, fun opened => absurd opened isOpen, quietly⟩
    obtain ⟨state, stored, trails, written⟩ := survives content left
    exact ⟨state, stored, trails.more _, written⟩

theorem Shadowed.succeed (shadowed : Shadowed hive key tried world quiet) {order : Order}
    {current current' : Option AuthorityManifest} {attempt attempt' : Attempt}
    {manifest manifest' : AuthorityManifest} {desk desk' : Desk} (isOpen : world.opened = true)
    (done : ((order.after current).apply attempt).run world.desk = .ok manifest desk)
    (done' : ((order.after current').apply attempt').run quiet.desk = .ok manifest' desk') :
    Shadowed hive key tried (world.step (.apply (order.after current) attempt))
      (quiet.step (.apply (order.after current') attempt')) := by
  obtain ⟨rfl, rfl, -, held, quiet_hive, quiet_key, quiet_open, -, quiet_stored⟩ := shadowed
  obtain ⟨stored, trails⟩ := (held isOpen).state (apply_usable done)
  rw [← quiet_hive, ← quiet_key] at quiet_stored
  have applied := apply_eq_ok stored done
  have applied' := apply_eq_ok quiet_stored done'
  have trails' := trails.commit stored quiet_stored applied applied'
  have holds := applied.settled.holds trails'
  have survives := holds.survives
  rw [applied.hive_eq, applied.key_eq] at survives
  have stored' := applied'.settled.stored
  rw [applied'.hive_eq, applied'.key_eq, quiet_hive, quiet_key] at stored'
  rw [World.step_apply isOpen, World.step_apply quiet_open, done, done']
  exact ⟨applied.hive_eq, applied.key_eq, survives, fun _ => holds,
    applied'.hive_eq.trans quiet_hive, applied'.key_eq.trans quiet_key, quiet_open,
    applied'.settled.usable, stored'⟩

end Steps

theorem Shadows.shadowed {quiet : World} (shadows : Shadows hive key tried world quiet) :
    Shadowed hive key tried world quiet := by
  induction shadows with
  | start => exact shadowed_start hive key
  | opened _ ih => exact ih.open
  | crashed kept _ ih =>
    exact ⟨ih.hive_eq, ih.key_eq,
      fun content survives => ih.survives content (crash_survivors survives), nofun, ih.quietly⟩
  | failed request attempt _ calm fails ih => exact ih.fail request calm fails
  | succeeded order current current' attempt attempt' manifest manifest' desk desk' _ isOpen done
      done' ih => exact ih.succeed isOpen done done'

theorem propose_new (h : request.propose = .ok proposed) : ∀ certificate ∈ proposed.certificates,
      (∃ manifest ∈ request.current, certificate ∈ manifest.content.certificates) ∨
        certificate ∈ request.update.add := by
  simp only [Request.propose, ok_steps] at h
  obtain ⟨_, -, epoch, -, _, -, _, -, _, -, _, -, rfl⟩ := h
  intro certificate inside
  change certificate ∈ request.certificates at inside
  rw [Request.certificates, mem_insertionSort, mem_append] at inside
  refine inside.imp_left fun retained => ?_
  have listed := (mem_filter.mp retained).1
  unfold Request.kept at listed
  split at listed
  · cases listed
  · cases given : request.current with
    | none =>
      rw [given] at listed
      cases listed
    | some manifest =>
      rw [given] at listed
      exact ⟨manifest, rfl, listed⟩

/-- What a store reserves of an order for its own device is committed once it is signed. -/
theorem order_completes {signature : DeviceSignature} (usable : desk.store.poisoned = false)
    (stored : desk.store.state.Stored desk.store.hive desk.store.key)
    (signer_eq : order.signer = desk.store.key)
    (proposing : (order.after desk.store.state.current).propose = .ok proposed)
    (reserving : reservation desk.store.state desk.store.hive desk.store.key
      desk.store.state.current proposed = .ok (reserved, state'))
    (signed : desk.store.key.verifyDomain authorityDomain (contentFields reserved) signature = .ok
      ()) :
    ∃ after, ((order.after desk.store.state.current).apply ⟨.done, .signed signature, .done⟩).run
      desk = .ok ⟨reserved, signature⟩ after := by
  have signed' : (order.after desk.store.state.current).signer.verifyDomain authorityDomain
      (contentFields reserved) signature = .ok () := by
    rw [show (order.after desk.store.state.current).signer = desk.store.key from signer_eq]
    exact signed
  obtain ⟨after, done, -⟩ := apply_completes usable stored proposing reserving signed' signed
  exact ⟨after, done⟩

/-- The second issuer can always follow: what succeeds after failed attempts succeeds without them,
with whatever signature the device makes of it. -/
theorem Shadows.follows {quiet : World} (shadows : Shadows hive key tried world quiet)
    (isOpen : world.opened = true) (hive_eq : order.hive = hive) (signer_eq : order.signer = key)
    (done : ((order.after current).apply attempt).run world.desk = .ok manifest desk) :
    ∃ reserved : AuthorityContent, ∀ signature : DeviceSignature,
      key.verifyDomain authorityDomain (contentFields reserved) signature = .ok () →
      ∃ after, ((order.after quiet.desk.store.state.current).apply
        ⟨.done, .signed signature, .done⟩).run quiet.desk = .ok ⟨reserved, signature⟩ after := by
  obtain ⟨world_hive, world_key, -, held, rfl, rfl, -, quiet_usable, quiet_stored⟩ :=
    shadows.shadowed
  obtain ⟨stored, trails⟩ := (held isOpen).state (apply_usable done)
  obtain ⟨proposed, state', proposing, granted, -⟩ := (apply_eq_ok stored done).granted
  rw [world_hive, world_key] at granted stored
  obtain ⟨reserves, stored'⟩ := reservation_spec stored granted
  obtain ⟨checked, counted, -⟩ := reservation_checked granted
  have late := (checkPredecessor_eq_ok checked).1
  have new : ∀ certificate ∈ proposed.certificates,
      (∃ manifest ∈ world.desk.store.state.current, certificate ∈ manifest.content.certificates) ∨
        certificate.claims.id ∉ quiet.desk.store.state.used := by
    intro certificate inside
    refine (reserves.fresh certificate (by rw [reserves.reserved_eq]; exact inside)).imp_right ?_
    exact fun unused known => unused (trails.kept _ known)
  have room : (quiet.desk.store.state.used.toFinset ∪ proposed.ids.toFinset).card ≤ maxUsedIds := by
    have within : quiet.desk.store.state.used.toFinset ∪ proposed.ids.toFinset ⊆
        state'.used.toFinset := by
      intro id inside
      rw [Finset.mem_union, mem_toFinset, mem_toFinset] at inside
      rw [mem_toFinset]
      refine (reserves.mem_used id).mpr (inside.imp (trails.kept id) fun member => ?_)
      rw [reserves.reserved_eq]
      exact member
    exact (Finset.card_le_card within).trans ((toFinset_card_le _).trans stored'.used_le)
  have revisions : proposed.epoch = quiet.desk.store.state.epoch →
      quiet.desk.store.state.revision ≠ maxRevision := by
    intro same largest
    have equal : proposed.epoch = world.desk.store.state.epoch :=
      le_antisymm (by rw [same]; exact trails.above stored) late
    have behind := UInt64.le_iff_toNat_le.mp (trails.behind (same.symm.trans equal))
    rw [nextRevision, if_pos equal] at counted
    have after := checkedAdd_eq_some.mp (okOr_eq_ok.mp counted)
    have one : UInt64.toNat 1 = 1 := rfl
    have top : maxRevision.toNat = 2 ^ 64 - 1 := rfl
    have bounded := state'.revision.toNat_lt
    rw [largest] at behind
    omega
  obtain ⟨reserved, state, reserving⟩ := reservation_alike quiet_stored stored trails.heads.symm
    granted ((trails.above stored).trans late) new room revisions
  have verified := quiet_stored.verified
  rw [← hive_eq, ← signer_eq] at verified
  have proposing' : (order.after quiet.desk.store.state.current).propose = .ok proposed :=
    propose_alike (trails.heads.symm.congr rfl reserves.predecessor_eq) verified proposing
  exact ⟨reserved, fun signature signed =>
    order_completes quiet_usable quiet_stored signer_eq proposing' reserving signed⟩

/-- What happens to an issuer here: updates for the store's own hive and device, whose signer may
fail, openings and crashes. -/
def Event.Calm (hive : HiveId) (key : DevicePublicKey) : Event → Prop
  | .open fate => fate = .done
  | .crash _ => True
  | .apply request attempt => request.hive = hive ∧ request.signer = key ∧ attempt.Calm

/-- Every run has its second issuer, given that the device can sign. -/
theorem exists_shadows (signs : ∀ content : AuthorityContent, ∃ signature,
      key.verifyDomain authorityDomain (contentFields content) signature = .ok ())
    (events : List Event) (calm : ∀ event ∈ events, event.Calm hive key) :
    ∃ tried quiet, Shadows hive key tried ((World.start hive key).run events) quiet := by
  -- On the last event: a success is followed, a failure is left out.
  induction events using reverseRecOn with
  | nil => exact ⟨[], _, .start⟩
  | append_singleton events event ih =>
    obtain ⟨tried, quiet, shadows⟩ := ih fun event there => calm event (mem_append_left _ there)
    have here := calm event (by simp)
    rw [World.run, foldl_append, foldl_cons, foldl_nil]
    change ∃ tried quiet, Shadows hive key tried (((World.start hive key).run events).step event) quiet
    generalize (World.start hive key).run events = world at shadows ⊢
    cases event with
    | «open» fate =>
      obtain rfl : fate = .done := here
      exact ⟨tried, quiet, shadows.opened⟩
    | crash kept => exact ⟨tried, quiet, shadows.crashed kept⟩
    | apply request attempt =>
      obtain ⟨hive_eq, signer_eq, calm⟩ := here
      by_cases done : world.opened = true ∧
          ∃ manifest desk, (request.apply attempt).run world.desk = .ok manifest desk
      · obtain ⟨isOpen, manifest, desk, done⟩ := done
        let order : Order := ⟨request.update, request.hive, request.signer, request.issuedAt,
          request.nextUpdate⟩
        have done : ((order.after request.current).apply attempt).run world.desk =
          .ok manifest desk := done
        obtain ⟨reserved, follows⟩ := shadows.follows isOpen hive_eq signer_eq done
        obtain ⟨signature, signed⟩ := signs reserved
        obtain ⟨desk', done'⟩ := follows signature signed
        exact ⟨tried, _, .succeeded order request.current _ attempt _ manifest _ desk desk' shadows
          isOpen done done'⟩
      · refine ⟨_, quiet, .failed request attempt shadows calm fun isOpen manifest desk success => ?_⟩
        exact done ⟨isOpen, manifest, desk, success⟩

/-- What the second issuer accepts the first accepts as well. -/
theorem Shadows.accepts {quiet : World}
    (shadows : Shadows hive key tried world quiet) (isOpen : world.opened = true)
    (usable : world.desk.store.poisoned = false) (hive_eq : order.hive = hive)
    (signer_eq : order.signer = key)
    (accepted : ((order.after current).apply attempt).run quiet.desk = .ok manifest desk)
    (fresh : ∀ certificate ∈ order.update.add, ∀ content ∈ tried,
      certificate.claims.id ∉ content.ids)
    (within : world.desk.store.state.epoch = world.desk.store.state.headEpoch ∨
      order.update.advanceEpoch = true)
    (room : (world.desk.store.state.used.toFinset ∪ manifest.content.ids.toFinset).card ≤
      maxUsedIds)
    (revisions : manifest.content.epoch = world.desk.store.state.epoch →
      world.desk.store.state.revision ≠ maxRevision) :
    ∃ reserved : AuthorityContent, reserved.unrevised = manifest.content.unrevised ∧
      ∀ signature : DeviceSignature,
        key.verifyDomain authorityDomain (contentFields reserved) signature = .ok () →
        ∃ after, ((order.after world.desk.store.state.current).apply
          ⟨.done, .signed signature, .done⟩).run world.desk = .ok ⟨reserved, signature⟩ after := by
  obtain ⟨rfl, rfl, -, held, quiet_hive, quiet_key, -, -, quiet_stored⟩ := shadows.shadowed
  obtain ⟨stored, trails⟩ := (held isOpen).state usable
  have quiet_stored' := quiet_stored
  rw [← quiet_hive, ← quiet_key] at quiet_stored
  obtain ⟨proposed, state', proposing, granted, -⟩ := (apply_eq_ok quiet_stored accepted).granted
  rw [quiet_hive, quiet_key] at granted
  have reserves := (reservation_spec quiet_stored' granted).1
  have content_eq := reserves.reserved_eq
  have epoch_eq : manifest.content.epoch = proposed.epoch := by rw [content_eq]
  have ids_eq : manifest.content.ids = proposed.ids := by rw [content_eq]; rfl
  rw [ids_eq] at room
  rw [epoch_eq] at revisions
  have late : world.desk.store.state.epoch ≤ proposed.epoch := by
    have epoch := propose_epoch proposing
    have head : (order.after current).oldEpoch = world.desk.store.state.headEpoch :=
      (oldEpoch_eq reserves.predecessor_eq).trans trails.heads.epoch_eq.symm
    rw [head] at epoch
    rw [UInt64.le_iff_toNat_le]
    rcases within with same | advances
    · rw [same]
      omega
    · rw [show (order.after current).update.advanceEpoch = true from advances, if_pos rfl] at epoch
      have near := trails.near
      omega
  have new : ∀ certificate ∈ proposed.certificates,
      (∃ manifest ∈ quiet.desk.store.state.current, certificate ∈ manifest.content.certificates) ∨
        certificate.claims.id ∉ world.desk.store.state.used := by
    intro certificate inside
    have listed : certificate ∈ manifest.content.certificates := by rw [content_eq]; exact inside
    refine (reserves.fresh certificate listed).imp_right fun unused known => ?_
    rcases trails.used _ known with old | ⟨content, among, member⟩
    · exact unused old
    · -- Kept certificates have used ids, so this one is added.
      rcases propose_new proposing certificate inside with ⟨given, isGiven, kept⟩ | added
      · refine unused ?_
        have same := reserves.predecessor_eq
        rw [show (order.after current).current = some given from isGiven, Option.map_some] at same
        obtain ⟨committed, isCommitted, same⟩ := Option.map_eq_some_iff.mp same.symm
        refine quiet_stored.covered committed isCommitted _ (mem_ids_certificate ?_)
        rw [same]
        exact kept
      · exact fresh certificate added content among member
  obtain ⟨reserved, state, reserving⟩ :=
    reservation_alike stored quiet_stored' trails.heads granted late new room revisions
  have verified := stored.verified
  rw [← hive_eq, ← signer_eq] at verified
  have proposing' : (order.after world.desk.store.state.current).propose = .ok proposed :=
    propose_alike (trails.heads.congr rfl reserves.predecessor_eq) verified proposing
  refine ⟨reserved, ?_, fun signature signed => ?_⟩
  · rw [(reservation_spec stored reserving).1.reserved_eq, content_eq]
    rfl
  · exact order_completes usable stored signer_eq proposing' reserving signed

/-- **A burned reservation does not block the issuer.** Every run of updates, failing signers,
openings and crashes has an issuer that never made the failed attempts; and what any such issuer
accepts the first accepts as well, with the same content but for its revision and with whatever
signature the device makes of it, when

* no id of a certificate it adds is in a content that a failed attempt would have reserved,
* no failed attempt has opened a later epoch, or the update itself opens one,
* the ids ever used find room in the store, and a revision is left in the epoch. -/
theorem burned_reservation_does_not_block (hive : HiveId) (key : DevicePublicKey)
    (signs : ∀ content : AuthorityContent, ∃ signature,
      key.verifyDomain authorityDomain (contentFields content) signature = .ok ())
    (events : List Event) (calm : ∀ event ∈ events, event.Calm hive key) (world : World)
    (ran : (World.start hive key).run events = world) :
    (∃ tried quiet, Shadows hive key tried world quiet) ∧
    ∀ tried quiet, Shadows hive key tried world quiet →
      world.opened = true → world.desk.store.poisoned = false →
      ∀ order : Order, order.hive = hive → order.signer = key →
      ∀ current attempt manifest desk,
        ((order.after current).apply attempt).run quiet.desk = .ok manifest desk →
        (∀ certificate ∈ order.update.add, ∀ content ∈ tried,
          certificate.claims.id ∉ content.ids) →
        (world.desk.store.state.epoch = world.desk.store.state.headEpoch ∨
          order.update.advanceEpoch = true) →
        (world.desk.store.state.used.toFinset ∪ manifest.content.ids.toFinset).card ≤ maxUsedIds →
        (manifest.content.epoch = world.desk.store.state.epoch →
          world.desk.store.state.revision ≠ maxRevision) →
        ∃ reserved : AuthorityContent, reserved.unrevised = manifest.content.unrevised ∧
          ∀ signature : DeviceSignature,
            key.verifyDomain authorityDomain (contentFields reserved) signature = .ok () →
            ∃ after, ((order.after world.desk.store.state.current).apply
              ⟨.done, .signed signature, .done⟩).run world.desk = .ok ⟨reserved, signature⟩ after := by
  subst ran
  refine ⟨exists_shadows signs events calm, ?_⟩
  intro tried quiet shadows isOpen usable order hive_eq signer_eq current attempt manifest desk
    accepted fresh within room revisions
  exact shadows.accepts isOpen usable hive_eq signer_eq accepted fresh within room revisions

end Burned

/-! ## A failed revocation and a failed epoch -/

attribute [local instance] endSha256 openP256 openEd25519

/-- An order that certifies nothing and revokes these ids. -/
def revoking (ids : List CertificateId) (advanceEpoch : Bool) : Order where
  update := ⟨[], ids, none, advanceEpoch⟩
  hive := firstUpdate.hive
  signer := firstUpdate.signer
  issuedAt := 10
  nextUpdate := 20

def lostId : CertificateId := FixedBytes.replicate 16 7

/-- The signer does not take part. -/
def unanswered : Attempt := ⟨.done, .stopped, .done⟩

def answered : Attempt := ⟨.done, .signed openSignature, .done⟩

def opened : World := (World.start firstUpdate.hive firstUpdate.signer).step (.open .done)

/-- A new store, one attempt of which ended before its signature. -/
def burned (order : Order) : World := opened.step (.apply (order.after none) unanswered)

theorem unanswered_fails (request : Request) (manifest : AuthorityManifest) (desk after : Desk) :
    (request.apply unanswered).run desk ≠ .ok manifest after := by
  intro done
  simp only [Request.apply, run_bind_eq_ok] at done
  obtain ⟨_, _, -, _, _, -, _, _, -, _, _, stopped, -⟩ := done
  cases stopped

theorem shadows_burned (order : Order) : Shadows firstUpdate.hive firstUpdate.signer
    ([] ++ (order.after none).proposals) (burned order) opened :=
  .failed (order.after none) unanswered (.opened .start) nofun fun _ manifest desk =>
    unanswered_fails _ manifest opened.desk desk

/-- A new store accepts the revocation of an id that was never certified. -/
theorem revoking_accepted : ∃ manifest desk,
    (((revoking [lostId] false).after none).apply answered).run opened.desk = .ok manifest desk ∧
      manifest.content.ids = [lostId] := by
  have answer : (match (((revoking [lostId] false).after none).apply answered).run opened.desk with
      | .ok manifest _ => decide (manifest.content.ids = [lostId])
      | .error _ _ => false) = true := by decide +kernel
  split at answer
  case h_1 manifest desk done => exact ⟨manifest, desk, done, of_decide_eq_true answer⟩
  case h_2 => cases answer

/-- A revocation that was burned is accepted when it is made again. -/
theorem burned_reservation_does_not_block_again :
    ∃ reserved after, (((revoking [lostId] false).after none).apply answered).run
      (burned (revoking [lostId] false)).desk =
        .ok ⟨reserved, ⟨FixedBytes.replicate 64 1, rfl⟩⟩ after := by
  obtain ⟨manifest, desk, accepted, ids_eq⟩ := revoking_accepted
  have head : (burned (revoking [lostId] false)).desk.store.state.current = none := by
    decide +kernel
  let events := [Event.open .done, .apply ((revoking [lostId] false).after none) unanswered]
  have calm : ∀ event ∈ events, event.Calm firstUpdate.hive firstUpdate.signer :=
    forall_mem_cons.mpr ⟨rfl, forall_mem_singleton.mpr ⟨rfl, rfl, nofun⟩⟩
  have ran : (World.start firstUpdate.hive firstUpdate.signer).run events =
      burned (revoking [lostId] false) := by
    rw [World.run, foldl_cons, foldl_cons, foldl_nil, burned, opened]
  obtain ⟨-, unblocked⟩ := burned_reservation_does_not_block firstUpdate.hive firstUpdate.signer
    (fun _ => ⟨openSignature, rfl⟩) events calm _ ran
  obtain ⟨reserved, -, committed⟩ := unblocked _ opened (shadows_burned (revoking [lostId] false))
    (by decide +kernel) (by decide +kernel) (revoking [lostId] false) rfl rfl none answered manifest
    desk accepted (forall_mem_nil _) (.inl (by decide +kernel)) (by rw [ids_eq]; decide +kernel)
    fun _ => by decide +kernel
  obtain ⟨after, done⟩ := committed ⟨FixedBytes.replicate 64 1, rfl⟩ rfl
  rw [head] at done
  exact ⟨reserved, after, done⟩

/-- After a failed advance of the epoch an update within the old epoch is refused: one that adds no
certificate, and that the store would have accepted before. -/
theorem burned_epoch_blocks :
    Shadows firstUpdate.hive firstUpdate.signer
      ([] ++ ((revoking [] true).after none).proposals) (burned (revoking [] true)) opened ∧
    (revoking [lostId] false).update.add = [] ∧
    (∃ manifest desk, (((revoking [lostId] false).after none).apply answered).run opened.desk =
      .ok manifest desk) ∧
    (burned (revoking [] true)).desk.store.state.current = none ∧
    ∃ desk, (((revoking [lostId] false).after none).apply answered).run
      (burned (revoking [] true)).desk = .error .older desk := by
  refine ⟨shadows_burned _, rfl, ?_, by decide +kernel, ?_⟩
  · obtain ⟨manifest, desk, accepted, -⟩ := revoking_accepted
    exact ⟨manifest, desk, accepted⟩
  · have answer : (match (((revoking [lostId] false).after none).apply answered).run
        (burned (revoking [] true)).desk with
        | .ok _ _ => false
        | .error error _ => decide (error = .older)) = true := by decide +kernel
    split at answer
    case h_1 => cases answer
    case h_2 error desk refused =>
      obtain rfl := of_decide_eq_true answer
      exact ⟨desk, refused⟩

end Supgang.Authority
