/-
# State.Joining — a membership is authorized, and its device completes the join

The holder of the root answers a join request with a membership; the bundle made of it has to pass
the checks the joining device makes on its own. A first authorization always does. A repeated one
returns the membership the node already has without asking whether that membership is revoked or
over.

* `verifyForPending_new` — which made bundles the joining device accepts.
* `authorized_join_completes_iff` — every root holder: the join can be completed exactly if the
  node has no membership yet, or one that is neither revoked nor over.
-/
import Supgang.State.Revocations

namespace Supgang.State

set_option autoImplicit false

open Theory Supgang.Membership Supgang.Revocation Supgang.Invitation Supgang.Record
  Supgang.Journal

section Joining

variable [Sha256] [Ed25519]

/-- What is known of a bundle that was made. -/
structure Made (root : RootIdentity) (membership : SignedMembership)
    (revocations : SignedRevocationList) (now : UInt64) (bundle : JoinBundle) : Prop where
  member : membership.verify root.verifyingKey = .ok ()
  revoked : revocations.verify root.verifyingKey = .ok ()
  member_le : membership.certificate.issuedAt ≤ now
  revoked_le : revocations.list.issuedAt ≤ now
  bundle_eq : ∃ payload,
    bundlePayload root.verifyingKey membership revocations now
      (saturatingAdd now maxBundleLifetimeSeconds) = .ok payload ∧
    bundle = { rootVerifyingKey := root.verifyingKey, membership, revocations, issuedAt := now
               expiresAt := saturatingAdd now maxBundleLifetimeSeconds
               signature := (root.signDomain bundleDomain payload).1 }

variable {root : RootIdentity} {membership : SignedMembership} {revocations : SignedRevocationList}
  {now later : UInt64} {bundle : JoinBundle}

theorem new_made (h : JoinBundle.new root membership revocations now = .ok bundle) :
    Made root membership revocations now bundle := by
  simp only [JoinBundle.new, ok_steps] at h
  obtain ⟨_, member, _, revoked, _, early, payload, encoded, rfl⟩ := h
  rw [not_or, not_lt, not_lt] at early
  exact ⟨member, revoked, early.1, early.2, payload, encoded, rfl⟩

omit [Sha256] [Ed25519] in
/-- A bundle made before the end of time lives, and no longer than it may. -/
theorem bundle_lifetime (early : now < later) : now < saturatingAdd now maxBundleLifetimeSeconds ∧
      saturatingSub (saturatingAdd now maxBundleLifetimeSeconds) now ≤
        maxBundleLifetimeSeconds := by
  have hour : maxBundleLifetimeSeconds.toNat = 3600 := by decide
  have bound := later.toNat_lt
  rw [UInt64.lt_iff_toNat_lt] at early
  constructor
  · rw [UInt64.lt_iff_toNat_lt, toNat_saturatingAdd, hour]
    omega
  · rw [UInt64.le_iff_toNat_le, toNat_saturatingSub, toNat_saturatingAdd, hour]
    omega

/-- The joining device accepts a bundle the moment it is made exactly if it is bound to the
device's key and nonce and does not revoke the member it admits. -/
theorem verifyForPending_new (correct : Ed25519.Correct) {pending : PendingIdentity}
    (early : now < later) (made : Made root membership revocations now bundle) :
    (∃ key, bundle.verifyForPending pending now = .ok key) ↔
      membership.certificate.deviceVerifyingKey = pending.device.verifyingKey ∧
      membership.certificate.admissionNonce = pending.requestNonce ∧
      membership.certificate.nodeId ∉ revocations.list.revokedNodes := by
  obtain ⟨alive, short⟩ := bundle_lifetime early
  obtain ⟨member, revoked, member_le, revoked_le, payload, encoded, rfl⟩ := made
  have signature := verifyDomain_signDomain correct root bundleDomain payload
  have formed : ¬¬Ed25519.wellFormed root.verifyingKey = true :=
    not_not.mpr (correct.wellFormed root.seed)
  have lifetime : ¬(saturatingAdd now maxBundleLifetimeSeconds ≤ now ∨
      maxBundleLifetimeSeconds <
        saturatingSub (saturatingAdd now maxBundleLifetimeSeconds) now ∨
      now < membership.certificate.issuedAt ∨ now < revocations.list.issuedAt) := by
    simp only [not_or, not_le, not_lt]
    exact ⟨alive, short, member_le, revoked_le⟩
  simp only [JoinBundle.verifyForPending, member, revoked, encoded, ok_steps,
    FixedBytes.ofBytes?_val]
  simp [formed, lifetime, alive.le, signature]

variable {device after : Device} {pending : PendingIdentity} {node : NodeId}
  {roles : MembershipRoles} {now expiresAt : UInt64} {membership : SignedMembership}
  {root : RootIdentity} {bundle : JoinBundle}

/-- **An authorized join completes, exactly if it is not a revoked or an expired one repeated.**
Over every lifetime of the root's holder: when a request has been authorized until after `now` and
a bundle has been made of what was returned, the device that sent the request accepts the bundle
and the membership is valid if and only if the membership its node had before, where there was
one, is neither revoked nor over. -/
theorem authorized_join_completes_iff (correct : Ed25519.Correct) {seen : Set Bytes}
    (free : CollisionFree seen) {start : Device} {records : List SignedEndpointRecord}
    (started : Started start) (life : Lifetime seen start records device)
    (early : now < expiresAt)
    (run : (authorizeJoinRequest (JoinRequest.create pending) node roles now expiresAt).run
      device = .ok membership after)
    (made : JoinBundle.new root membership after.state.revocations now = .ok bundle) :
    ((∃ key, bundle.verifyForPending pending now = .ok key) ∧
      membership.certificate.issuedAt ≤ now ∧
      membership.certificate.validateTime now = .ok ()) ↔
    ∀ existing, device.state.memberships[pending.device.nodeId]? = some existing →
      ¬device.state.revocations.contains pending.device.nodeId ∧
      now ≤ existing.certificate.expiresAt := by
  obtain ⟨_, holds⟩ := started.holds correct
  obtain ⟨⟨_, holds⟩, _⟩ := life.invariant correct free holds
  obtain ⟨-, kept, key_eq, nonce_eq, outcome⟩ :=
    (authorizeJoinRequest_ends correct holds).ok run
  have made := new_made made
  obtain ⟨shape, _⟩ := Membership.verify_eq_ok made.member
  have node_eq : membership.certificate.nodeId = pending.device.nodeId := by
    rw [(Membership.validateShape_eq_ok shape).2.1, key_eq]
    rfl
  rw [verifyForPending_new correct early made, validateTime_eq_ok, kept, node_eq]
  have bound : membership.certificate.deviceVerifyingKey = pending.device.verifyingKey ∧
      membership.certificate.admissionNonce = pending.requestNonce := ⟨key_eq, nonce_eq⟩
  have same : NodeId.fromVerifyingKey (JoinRequest.create pending).deviceVerifyingKey =
    pending.device.nodeId := rfl
  rw [same] at outcome
  cases found : device.state.memberships[pending.device.nodeId]? with
  | some existing =>
    rw [found] at outcome
    subst outcome
    simp [bound, made.member_le]
  | none =>
    rw [found] at outcome
    obtain ⟨absent, expires⟩ := outcome
    have absent : pending.device.nodeId ∉ device.state.revocations.list.revokedNodes := absent
    simp [bound, made.member_le, absent, expires, early.le]

end Joining

/-! ## A first authorization and a repeated one -/

attribute [local instance] tailSha256 acceptingEd25519

/-- The hive after these operations answers the waiting device's request at `now` with a bundle,
and `check` holds of it. -/
def Answers (operations : List Operation) (now expiresAt : UInt64)
    (check : SignedMembership → JoinBundle → Bool) : Bool :=
  match hiveAfter operations with
  | none => false
  | some device =>
    match (authorizeJoinRequest (JoinRequest.create waitingDevice) waitingDevice.device.nodeId
        .device now expiresAt).run device with
    | .error _ _ => false
    | .ok membership after =>
      match JoinBundle.new hiveRoot membership after.state.revocations now with
      | .error _ => false
      | .ok bundle => check membership bundle

theorem Answers.spec {operations : List Operation} {now expiresAt : UInt64}
    {check : SignedMembership → JoinBundle → Bool}
    (h : Answers operations now expiresAt check = true) :
    ∃ device membership after bundle, hiveAfter operations = some device ∧
      (authorizeJoinRequest (JoinRequest.create waitingDevice) waitingDevice.device.nodeId
        .device now expiresAt).run device = .ok membership after ∧
      JoinBundle.new hiveRoot membership after.state.revocations now = .ok bundle ∧
      check membership bundle = true := by
  unfold Answers at h
  split at h
  · cases h
  · rename_i device reached
    split at h
    · cases h
    · rename_i membership after run
      split at h
      · cases h
      · rename_i bundle made
        exact ⟨device, membership, after, bundle, reached, run, made, h⟩

/-- A device is admitted and revoked, and asks again: it is authorized once more, and refuses the
bundle it gets. -/
theorem revoked_join_authorized : ∃ start records device membership after bundle,
    Started start ∧ Lifetime ∅ start records device ∧
    (authorizeJoinRequest (JoinRequest.create waitingDevice) waitingDevice.device.nodeId .device
      60 3600).run device = .ok membership after ∧
    JoinBundle.new hiveRoot membership after.state.revocations 60 = .ok bundle ∧
    bundle.verifyForPending waitingDevice 60 = .error .requestBindingMismatch := by
  have answers : Answers [answerAt 0 3600, .revoke waitingDevice.device.nodeId 30] 60 3600
      (fun _ bundle => bundle.verifyForPending waitingDevice 60 =
        .error .requestBindingMismatch) = true := by decide +kernel
  obtain ⟨device, membership, after, bundle, reached, run, made, refused⟩ := Answers.spec answers
  obtain ⟨start, records, started, life⟩ := hiveAfter_lifetime reached
  exact ⟨start, records, device, membership, after, bundle, started, life, run, made,
    of_decide_eq_true refused⟩

/-- A first answer, and the answer to the same request once more. -/
theorem authorized_join_completes_iff_repeated : [[], [answerAt 0 3600]].Forall fun operations =>
    ∃ device membership after bundle key, hiveAfter operations = some device ∧
      (authorizeJoinRequest (JoinRequest.create waitingDevice) waitingDevice.device.nodeId .device
        60 3600).run device = .ok membership after ∧
      JoinBundle.new hiveRoot membership after.state.revocations 60 = .ok bundle ∧
      bundle.verifyForPending waitingDevice 60 = .ok key := by
  rw [List.forall_iff_forall_mem]
  intro operations either
  have answers : Answers operations 60 3600 (fun _ _ => true) = true := by
    revert operations
    decide +kernel
  have known : (hiveAfter operations).all (fun device =>
      device.state.memberships[waitingDevice.device.nodeId]?.all fun existing =>
        ¬device.state.revocations.contains waitingDevice.device.nodeId ∧
        60 ≤ existing.certificate.expiresAt) = true := by
    revert operations
    decide +kernel
  obtain ⟨device, membership, after, bundle, reached, run, made, _⟩ := Answers.spec answers
  obtain ⟨start, records, started, life⟩ := hiveAfter_lifetime reached
  rw [reached, Option.all_some] at known
  obtain ⟨⟨key, verified⟩, _⟩ := (authorized_join_completes_iff acceptingEd25519_correct
    (Set.injOn_empty _) started life (by decide) run made).mpr fun existing found =>
      of_decide_eq_true ((Option.all_eq_true _ _).mp known existing found)
  exact ⟨device, membership, after, bundle, key, reached, run, made, verified⟩

end Supgang.State
