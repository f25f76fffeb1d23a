/-
# Authority.Retention — what a verifier never takes back

Over any sequence of `accept` calls, also with manifests a dishonest device signed: watermarks and
remembered digests only grow, so an id keeps the certificate it was first seen with, a revoked id
stays out in every epoch, and a quarantined epoch stays closed.

* `DeviceState.Grows`, `accept_grows` — what one call keeps of every device.
* `DeviceState.Kept`, `accept_kept` — what ties the held certificates to the digests.
* `revoked_never_returns` — the five guarantees over a whole run.
-/
import Supgang.Authority.Verifier

namespace Supgang.Authority

set_option autoImplicit false
set_option linter.unusedSectionVars false

open Theory List

section Retention

variable [P256] [Sha256] [Ed25519]

/-- The verifier after a call, whatever it answered. -/
def Call.after (call : Call) (verifier : AuthorityVerifier) : AuthorityVerifier :=
  match call.outcome verifier with
  | .ok _ next => next
  | .error _ next => next

def acceptAll (verifier : AuthorityVerifier) (calls : List Call) : AuthorityVerifier :=
  calls.foldl (fun verifier call => call.after verifier) verifier

/-- The strings that a run of calls hashes. -/
def hashed (calls : List Call) : Set Bytes :=
  { bytes | ∃ call ∈ calls, bytes = contentFields call.content ∨
    ∃ certificate ∈ call.content.certificates, bytes = certificateBytes certificate }

/-- What a run assumes of the hash: its digests tell the strings apart, and none is the tombstone. -/
structure DigestsTell (calls : List Call) : Prop where
  free : CollisionFree (hashed calls)
  unburied : ∀ bytes ∈ hashed calls, Sha256.digest bytes ≠ tombstone

/-- A certificate that proves possession and stands in one of the manifests. -/
def Certified (calls : List Call) (certificate : CertifiedKey) : Prop :=
  certificate.verifyPossession = .ok () ∧
    ∃ call ∈ calls, certificate ∈ call.content.certificates

variable {first second certificate : CertifiedKey} {calls : List Call}
  {verifier earlier later next : AuthorityVerifier} {now maxStatusAge : UInt64}
  {state : DeviceState} {call : Call} {id : CertificateId} {issuer : NodeId} {purpose : Purpose}

theorem certificateBytes_injective (proved : first.verifyPossession = .ok ())
    (proved' : second.verifyPossession = .ok ())
    (same : certificateBytes first = certificateBytes second) : first = second := by
  have read := run_readCertificate proved []
  rw [same, run_readCertificate proved' []] at read
  exact (congrArg Prod.fst (Except.ok.inj read)).symm

theorem contentFields_injective {first second : AuthorityContent} (valid : first.Valid)
    (valid' : second.Valid) (same : contentFields first = contentFields second) :
    first = second := by
  have read := run_readContentFields valid []
  rw [same, run_readContentFields valid' []] at read
  exact (congrArg Prod.fst (Except.ok.inj read)).symm

theorem Certified.eq_of_digest (tell : DigestsTell calls) (known : Certified calls first)
    (known' : Certified calls second) (same : first.digest = second.digest) : first = second := by
  obtain ⟨proved, call, inside, listed⟩ := known
  obtain ⟨proved', call', inside', listed'⟩ := known'
  apply certificateBytes_injective proved proved'
  exact tell.free ⟨call, inside, .inr ⟨first, listed, rfl⟩⟩
    ⟨call', inside', .inr ⟨second, listed', rfl⟩⟩ same

theorem Certified.digest_ne_tombstone (tell : DigestsTell calls)
    (known : Certified calls certificate) :
    certificate.digest ≠ tombstone := by
  obtain ⟨-, call, inside, listed⟩ := known
  exact tell.unburied _ ⟨call, inside, .inr ⟨certificate, listed, rfl⟩⟩

/-! ## What only grows -/

/-- What holds between two states of one device. -/
structure DeviceState.Grows (old new : DeviceState) : Prop where
  watermark_le : old.watermark ≤ new.watermark
  history : ∀ (id : CertificateId) (d : Digest), old.history[id]? = some d →
    new.history[id]? = some d
  revocations : new.epoch = old.epoch → ∀ id ∈ old.revocations.ids, id ∈ new.revocations.ids
  closed : new.epoch = old.epoch → old.manifest = none → new.manifest = none

theorem epoch_le {old new : DeviceState} (h : old.watermark ≤ new.watermark) :
    old.epoch ≤ new.epoch := by
  rcases Prod.Lex.le_iff.mp h with less | ⟨same, -⟩
  · exact le_of_lt less
  · exact le_of_eq same

theorem DeviceState.Grows.refl (state : DeviceState) : state.Grows state :=
  ⟨le_refl _, fun _ _ found => found, fun _ _ inside => inside, fun _ none => none⟩

theorem DeviceState.Grows.trans {first second third : DeviceState} (h : first.Grows second)
    (h' : second.Grows third) : first.Grows third := by
  have between : third.epoch = first.epoch →
      second.epoch = first.epoch ∧ third.epoch = second.epoch := by
    intro same
    have le := epoch_le h.watermark_le
    have le' := epoch_le h'.watermark_le
    rw [same] at le'
    have middle := le_antisymm le' le
    exact ⟨middle, by rw [same, middle]⟩
  refine ⟨h.watermark_le.trans h'.watermark_le, ?_, ?_, ?_⟩
  · intro id d found
    exact h'.history id d (h.history id d found)
  · intro same id inside
    obtain ⟨low, high⟩ := between same
    exact h'.revocations high id (h.revocations low id inside)
  · intro same none
    obtain ⟨low, high⟩ := between same
    exact h'.closed high (h.closed low none)

/-- Every device of `old` is in `new`, grown. -/
def AuthorityVerifier.Grows (old new : AuthorityVerifier) : Prop :=
  ∀ (node : NodeId) (state : DeviceState), old.devices[node]? = some state →
    ∃ state', new.devices[node]? = some state' ∧ state.Grows state'

theorem AuthorityVerifier.Grows.refl (verifier : AuthorityVerifier) : verifier.Grows verifier :=
  fun _ state found => ⟨state, found, .refl state⟩

theorem AuthorityVerifier.Grows.trans {first second third : AuthorityVerifier}
    (h : first.Grows second) (h' : second.Grows third) : first.Grows third := by
  intro node state found
  obtain ⟨state', found', grows⟩ := h node state found
  obtain ⟨state'', found'', grows'⟩ := h' node state' found'
  exact ⟨state'', found'', grows.trans grows'⟩

theorem grows_put {node : NodeId} {new : DeviceState}
    (grows : ∀ old, verifier.devices[node]? = some old → old.Grows new) :
    verifier.Grows (verifier.put node new) := by
  intro other state found
  by_cases same : node = other
  · subst same
    exact ⟨new, by simp [AuthorityVerifier.put], grows state found⟩
  · refine ⟨state, ?_, .refl state⟩
    rw [AuthorityVerifier.put, getElem?_insert_eq, if_neg same]
    exact found

theorem quarantine_grows (state : DeviceState) (conflicting : AuthorityManifest) :
    state.Grows (quarantine state conflicting) := by
  have buries := quarantine_buries state conflicting
  refine ⟨le_of_eq buries.watermark_eq.symm, buries.history_kept, ?_, ?_⟩
  · intro _ id inside
    rw [buries.revocations_eq]
    exact inside
  · intro _ _
    exact buries.manifest_eq

theorem Follows.grows {base : DeviceState} {manifest : AuthorityManifest} {digest : Digest}
    (follows : Follows base manifest digest now state)
    (newer : base.watermark ≤ manifest.content.watermark)
    (opened : manifest.content.epoch = base.epoch → base.manifest ≠ none) :
    base.Grows state := by
  have epoch_eq : state.epoch = manifest.content.epoch := by
    rw [DeviceState.epoch, follows.watermark_eq]
    rfl
  refine ⟨by rw [follows.watermark_eq]; exact newer, follows.history_kept, ?_, ?_⟩
  · intro same
    rw [follows.revocations_eq]
    exact follows.revocations_kept (epoch_eq.symm.trans same)
  · intro same none
    exact absurd none (opened (epoch_eq.symm.trans same))

theorem accept_grows (call : Call) (verifier : AuthorityVerifier) :
    verifier.Grows (call.after verifier) := by
  have step := accept_step call verifier
  unfold Call.after
  generalize call.outcome verifier = outcome at step
  cases step with
  | refused | barred | repeated => exact .refl verifier
  | conflicted known same =>
    apply grows_put
    intro old found
    obtain rfl := Option.some.inj (known.symm.trans found)
    exact quarantine_grows _ _
  | advanced verified newer follows =>
    apply grows_put
    intro old found
    rw [found, Option.getD_some] at follows
    exact follows.grows (le_of_lt (newer old found).1) (newer old found).2

theorem acceptAll_grows (verifier : AuthorityVerifier) (calls : List Call) :
    verifier.Grows (acceptAll verifier calls) := by
  induction calls generalizing verifier with
  | nil => exact .refl verifier
  | cons call calls ih => exact (accept_grows call verifier).trans (ih _)

/-! ## What is held, and by which digest -/

/-- What ties the certificates of a device to its digests. -/
structure DeviceState.Kept (calls : List Call) (state : DeviceState) : Prop where
  watermark_eq : ∀ manifest, state.manifest = some manifest →
    manifest.content.watermark = state.watermark
  revocations_eq : ∀ manifest, state.manifest = some manifest →
    manifest.content.revocations = state.revocations
  digest_eq : ∀ manifest, state.manifest = some manifest →
    state.digest = Sha256.digest (contentFields manifest.content)
  seen : ∀ manifest, state.manifest = some manifest →
    manifest.content.Valid ∧ ∃ call ∈ calls, call.manifest = manifest
  certified : ∀ (id : CertificateId) (certificate : CertifiedKey),
    state.certificates[id]? = some certificate → Certified calls certificate
  epoch_eq : ∀ (id : CertificateId) (certificate : CertifiedKey),
    state.certificates[id]? = some certificate → certificate.claims.epoch = state.epoch
  remembered : ∀ (id : CertificateId) (certificate : CertifiedKey),
    state.certificates[id]? = some certificate → state.history[id]? = some certificate.digest
  recorded : ∀ (id : CertificateId) (d : Digest), state.history[id]? = some d →
    d = tombstone ∨ ∃ certificate, Certified calls certificate ∧
      certificate.claims.epoch ≤ state.epoch ∧ d = certificate.digest
  revoked : ∀ id ∈ state.revocations.ids, id ∈ state.history

def AuthorityVerifier.Kept (calls : List Call) (verifier : AuthorityVerifier) : Prop :=
  ∀ (node : NodeId) (state : DeviceState), verifier.devices[node]? = some state → state.Kept calls

theorem fresh_kept (calls : List Call) (content : AuthorityContent) (digest : Digest) :
    (DeviceState.fresh content digest).Kept calls := by
  refine ⟨nofun, nofun, nofun, nofun, ?_, ?_, ?_, ?_, forall_mem_nil _⟩
  · intro id certificate found
    simp [DeviceState.fresh] at found
  · intro id certificate found
    simp [DeviceState.fresh] at found
  · intro id certificate found
    simp [DeviceState.fresh] at found
  · intro id d found
    simp [DeviceState.fresh] at found

theorem quarantine_kept (kept : state.Kept calls) (conflicting : AuthorityManifest) :
    (quarantine state conflicting).Kept calls := by
  have buries := quarantine_buries state conflicting
  have closed : (quarantine state conflicting).manifest = none := buries.manifest_eq
  have cleared : (quarantine state conflicting).certificates = ∅ := buries.certificates_eq
  have epoch_eq : (quarantine state conflicting).epoch = state.epoch := by
    rw [DeviceState.epoch, buries.watermark_eq]
    rfl
  refine ⟨?_, ?_, ?_, ?_, ?_, ?_, ?_, ?_, ?_⟩
  · simp [closed]
  · simp [closed]
  · simp [closed]
  · simp [closed]
  · simp [cleared]
  · simp [cleared]
  · simp [cleared]
  · intro id d found
    rcases buries.history_from id d found with old | buried
    · rw [epoch_eq]
      exact kept.recorded id d old
    · exact .inl buried
  · intro id inside
    rw [buries.revocations_eq] at inside
    obtain ⟨d, found⟩ := exists_getElem? (kept.revoked id inside)
    exact mem_of_getElem? (buries.history_kept id d found)

theorem Follows.kept {base : DeviceState} (inside : call ∈ calls) {hive : HiveId}
    {key : DevicePublicKey} (verified : call.manifest.Verified hive key)
    (follows : Follows base call.manifest call.digest call.now state) (kept : base.Kept calls)
    (newer : base.epoch ≤ call.content.epoch) : state.Kept calls := by
  have epoch_eq : state.epoch = call.content.epoch := by
    rw [DeviceState.epoch, follows.watermark_eq]
    rfl
  have valid := verified.valid
  have listed : ∀ certificate ∈ call.content.certificates, Certified calls certificate :=
    fun certificate member => ⟨valid.proved certificate member, call, inside, member⟩
  refine ⟨?_, ?_, ?_, ?_, ?_, ?_, ?_, ?_, ?_⟩
  · intro manifest held
    obtain rfl := Option.some.inj (follows.manifest_eq.symm.trans held)
    exact follows.watermark_eq.symm
  · intro manifest held
    obtain rfl := Option.some.inj (follows.manifest_eq.symm.trans held)
    exact follows.revocations_eq.symm
  · intro manifest held
    obtain rfl := Option.some.inj (follows.manifest_eq.symm.trans held)
    exact follows.digest_eq
  · intro manifest held
    obtain rfl := Option.some.inj (follows.manifest_eq.symm.trans held)
    exact ⟨valid, call, inside, rfl⟩
  · intro id certificate found
    rcases follows.held_from id certificate found with ⟨member, -⟩ | ⟨-, old, -⟩
    · exact listed certificate member
    · exact kept.certified id certificate old
  · intro id certificate found
    rw [epoch_eq]
    rcases follows.held_from id certificate found with ⟨member, -⟩ | ⟨same, old, -⟩
    · exact valid.epoch_eq certificate member
    · exact (kept.epoch_eq id certificate old).trans same.symm
  · intro id certificate found
    rcases follows.held_from id certificate found with ⟨member, rfl⟩ | ⟨-, old, -⟩
    · exact follows.remembered certificate member
    · exact follows.history_kept id _ (kept.remembered id certificate old)
  · intro id d found
    rw [epoch_eq]
    rcases follows.history_from id d found with old | buried | ⟨certificate, member, digest_eq⟩
    · rcases kept.recorded id d old with buried | ⟨certificate, known, epoch_le, digest_eq⟩
      · exact .inl buried
      · exact .inr ⟨certificate, known, epoch_le.trans newer, digest_eq⟩
    · exact .inl buried
    · exact .inr ⟨certificate, listed certificate member,
        le_of_eq (valid.epoch_eq certificate member), digest_eq⟩
  · rw [follows.revocations_eq]
    exact follows.revoked_known

theorem accept_kept (inside : call ∈ calls) (kept : verifier.Kept calls) :
    (call.after verifier).Kept calls := by
  have step := accept_step call verifier
  unfold Call.after
  generalize call.outcome verifier = outcome at step
  cases step with
  | refused | barred | repeated => exact kept
  | conflicted known same =>
    intro node state found
    simp only [AuthorityVerifier.put, getElem?_insert_eq] at found
    split at found
    · cases found
      exact quarantine_kept (kept _ _ known) _
    · exact kept node state found
  | advanced verified newer follows =>
    intro node state found
    simp only [AuthorityVerifier.put, getElem?_insert_eq] at found
    split at found
    · cases found
      cases known : verifier.devices[call.node]? with
      | none =>
        rw [known, Option.getD_none] at follows
        exact follows.kept inside verified (fresh_kept calls _ _) (le_refl _)
      | some old =>
        rw [known, Option.getD_some] at follows
        refine follows.kept inside verified (kept _ _ known) ?_
        have less := (newer old known).1
        rcases Prod.Lex.lt_iff.mp less with lower | ⟨same, -⟩
        · exact le_of_lt lower
        · exact le_of_eq same
    · exact kept node state found

theorem acceptAll_kept {some : List Call} (within : ∀ call ∈ some, call ∈ calls)
    (kept : verifier.Kept calls) :
    (acceptAll verifier some).Kept calls := by
  induction some generalizing verifier with
  | nil => exact kept
  | cons call rest ih =>
    rw [forall_mem_cons] at within
    exact ih within.2 (accept_kept within.1 kept)

theorem new_kept (calls : List Call) (hive : HiveId) :
    (AuthorityVerifier.new hive).Kept calls := by
  intro node state found
  simp [AuthorityVerifier.new] at found

/-! ## Lookups along a run -/

/-- A lookup answers with a certificate of the epoch the device is in, held by its digest. -/
theorem lookup_held (kept : verifier.Kept calls)
    (found : verifier.certificateFor issuer id purpose now maxStatusAge = .ok certificate) :
    ∃ state, verifier.devices[issuer]? = some state ∧ state.manifest ≠ none ∧
      id ∉ state.revocations.ids ∧ Certified calls certificate ∧
      certificate.claims.epoch = state.epoch ∧ state.history[id]? = some certificate.digest := by
  obtain ⟨state, known, usable⟩ := certificateFor_eq_ok.mp found
  obtain ⟨manifest, held, -, unrevoked, lookup, -⟩ := usable_eq_some.mp usable
  have facts := kept issuer state known
  refine ⟨state, known, by simp [held], ?_, facts.certified id certificate lookup,
    facts.epoch_eq id certificate lookup, facts.remembered id certificate lookup⟩
  rw [← facts.revocations_eq manifest held]
  exact unrevoked

/-- Two answers for one id, at any two moments, are one certificate. -/
theorem lookups_agree (tell : DigestsTell calls) (kept : earlier.Kept calls)
    (kept' : later.Kept calls) (grows : earlier.Grows later) {purpose' : Purpose}
    {now' maxStatusAge' : UInt64}
    (found : earlier.certificateFor issuer id purpose now maxStatusAge = .ok first)
    (found' : later.certificateFor issuer id purpose' now' maxStatusAge' = .ok second) :
    first = second := by
  obtain ⟨state, known, -, -, certified, -, remembered⟩ := lookup_held kept found
  obtain ⟨state', known', -, -, certified', -, remembered'⟩ := lookup_held kept' found'
  obtain ⟨grown, known'', grows⟩ := grows issuer state known
  obtain rfl := Option.some.inj (known'.symm.trans known'')
  have same : second.digest = first.digest :=
    Option.some.inj (remembered'.symm.trans (grows.history id _ remembered))
  exact certified.eq_of_digest tell certified' same.symm

/-- A revoked id is out in the epoch that revoked it and, by its digest, in every later one. -/
theorem revoked_out (tell : DigestsTell calls) (kept : earlier.Kept calls)
    (kept' : later.Kept calls) (grows : earlier.Grows later)
    (known : earlier.devices[issuer]? = some state) (revoked : id ∈ state.revocations.ids)
    (purpose : Purpose) (now maxStatusAge : UInt64) (certificate : CertifiedKey) :
    later.certificateFor issuer id purpose now maxStatusAge ≠ .ok certificate := by
  intro found
  obtain ⟨state', known', -, unrevoked, certified, epoch_eq, remembered⟩ := lookup_held kept' found
  obtain ⟨grown, known'', grows⟩ := grows issuer state known
  obtain rfl := Option.some.inj (known'.symm.trans known'')
  have facts := kept issuer state known
  obtain ⟨d, held⟩ := exists_getElem? (facts.revoked id revoked)
  obtain rfl := Option.some.inj (remembered.symm.trans (grows.history id d held))
  rcases facts.recorded id _ held with buried | ⟨old, known_old, old_epoch, digest_eq⟩
  · exact certified.digest_ne_tombstone tell buried
  · -- The certificate that was revoked is of an earlier epoch or still revoked.
    obtain rfl := certified.eq_of_digest tell known_old digest_eq
    have same : state'.epoch = state.epoch :=
      le_antisymm (epoch_eq ▸ old_epoch) (epoch_le grows.watermark_le)
    exact unrevoked (grows.revocations same id revoked)

/-- A closed epoch stays closed. -/
theorem closed_out (kept' : later.Kept calls) (grows : earlier.Grows later)
    (known : earlier.devices[issuer]? = some state) (closed : state.manifest = none)
    (found : later.certificateFor issuer id purpose now maxStatusAge = .ok certificate) :
    certificate.claims.epoch ≠ state.epoch := by
  intro same
  obtain ⟨state', known', opened, -, -, epoch_eq, -⟩ := lookup_held kept' found
  obtain ⟨grown, known'', grows⟩ := grows issuer state known
  obtain rfl := Option.some.inj (known'.symm.trans known'')
  exact opened (grows.closed (epoch_eq.symm.trans same) closed)

/-- An accepted manifest's revocations are those the device holds. -/
theorem accepted_revocations (tell : DigestsTell calls) (inside : call ∈ calls)
    (kept : verifier.Kept calls) (accepted : call.outcome verifier = .ok () next) :
    ∃ state, next.devices[call.node]? = some state ∧
      state.revocations = call.content.revocations := by
  have step := accept_step call verifier
  rw [accepted] at step
  cases step with
  | repeated known verified same digest_eq current =>
    rename_i state held
    refine ⟨state, known, ?_⟩
    have facts := kept _ _ known
    obtain ⟨valid, other, inside', rfl⟩ := facts.seen held current
    have bytes_eq : contentFields call.content = contentFields other.content := by
      apply tell.free ⟨call, inside, .inl rfl⟩ ⟨other, inside', .inl rfl⟩
      exact digest_eq.trans (facts.digest_eq _ current)
    have content_eq := contentFields_injective verified.valid valid bytes_eq
    rw [← facts.revocations_eq _ current]
    exact congrArg AuthorityContent.revocations content_eq.symm
  | advanced verified newer follows =>
    exact ⟨_, by simp [AuthorityVerifier.put], follows.revocations_eq⟩

/-- A reported equivocation leaves the epoch closed. -/
theorem equivocation_closes (reported : call.outcome verifier = .error .equivocation next) :
    ∃ state, next.devices[call.node]? = some state ∧ state.manifest = none ∧
      state.epoch = call.content.epoch := by
  have step := accept_step call verifier
  rw [reported] at step
  cases step with
  | refused other => exact absurd rfl other
  | barred known same_epoch quarantined => exact ⟨_, known, quarantined, same_epoch.symm⟩
  | conflicted known same =>
    rename_i state
    have buries := quarantine_buries state call.manifest
    refine ⟨_, by simp [AuthorityVerifier.put], buries.manifest_eq, ?_⟩
    rw [DeviceState.epoch, buries.watermark_eq]
    exact (congrArg (fun mark => (ofLex mark).1) same).symm

/-- Any other error leaves the verifier as it was. -/
theorem refusal_changes_nothing {error : AuthorityError}
    (refused : call.outcome verifier = .error error next) (other : error ≠ .equivocation) :
    next = verifier := by
  have step := accept_step call verifier
  rw [refused] at step
  cases step with
  | refused => rfl
  | barred => exact absurd rfl other
  | conflicted => exact absurd rfl other

/-- Over every run of `accept` from a new verifier, also with manifests of a dishonest device: the
watermark of a device never falls, an id has one certificate for the whole run, a revoked id is
never answered again, nor is any certificate of an epoch in which equivocation was reported, and
every other refusal leaves all lookups as they were. -/
theorem revoked_never_returns (hive : HiveId) (calls : List Call) (tell : DigestsTell calls)
    (before after : List Call) (split : calls = before ++ after) :
    let earlier := acceptAll (.new hive) before
    let later := acceptAll earlier after
    (∀ (node : NodeId) (state : DeviceState), earlier.devices[node]? = some state →
      ∃ state', later.devices[node]? = some state' ∧ state.watermark ≤ state'.watermark) ∧
    (∀ (issuer : NodeId) (id : CertificateId) (purpose purpose' : Purpose)
      (now now' maxStatusAge maxStatusAge' : UInt64) (first second : CertifiedKey),
      earlier.certificateFor issuer id purpose now maxStatusAge = .ok first →
      later.certificateFor issuer id purpose' now' maxStatusAge' = .ok second → first = second) ∧
    ∀ call rest, after = call :: rest →
      (∀ next, call.outcome earlier = .ok () next → ∀ id ∈ call.content.revocations.ids,
        ∀ purpose now maxStatusAge certificate,
          later.certificateFor call.node id purpose now maxStatusAge ≠ .ok certificate) ∧
      (∀ next, call.outcome earlier = .error .equivocation next →
        ∀ id purpose now maxStatusAge certificate,
          later.certificateFor call.node id purpose now maxStatusAge = .ok certificate →
          certificate.claims.epoch ≠ call.content.epoch) ∧
      (∀ error next, call.outcome earlier = .error error next → error ≠ .equivocation →
        ∀ id purpose now maxStatusAge,
          next.certificate id purpose now maxStatusAge =
            earlier.certificate id purpose now maxStatusAge ∧
          ∀ issuer, next.certificateFor issuer id purpose now maxStatusAge =
            earlier.certificateFor issuer id purpose now maxStatusAge) := by
  intro earlier later
  subst split
  have kept : earlier.Kept (before ++ after) :=
    acceptAll_kept (fun call inside => mem_append_left after inside) (new_kept _ hive)
  have kept' : later.Kept (before ++ after) :=
    acceptAll_kept (fun call inside => mem_append_right before inside) kept
  have grows : earlier.Grows later := acceptAll_grows earlier after
  refine ⟨?_, ?_, ?_⟩
  · intro node state known
    obtain ⟨state', known', grown⟩ := grows node state known
    exact ⟨state', known', grown.watermark_le⟩
  · intro issuer id purpose purpose' now now' age age' first second found found'
    exact lookups_agree tell kept kept' grows found found'
  rintro call rest rfl
  have inside : call ∈ before ++ call :: rest := by simp
  have next_kept : (call.after earlier).Kept (before ++ call :: rest) := accept_kept inside kept
  have next_grows : (call.after earlier).Grows later := acceptAll_grows (call.after earlier) rest
  refine ⟨?_, ?_, ?_⟩
  · intro next accepted id revoked purpose now age certificate
    have reached : call.after earlier = next := by rw [Call.after, accepted]
    obtain ⟨state, known, revocations_eq⟩ := accepted_revocations tell inside kept accepted
    rw [← reached] at known
    rw [← revocations_eq] at revoked
    exact revoked_out tell next_kept kept' next_grows known revoked purpose now age certificate
  · intro next reported id purpose now age certificate found
    have reached : call.after earlier = next := by rw [Call.after, reported]
    obtain ⟨state, known, closed, epoch_eq⟩ := equivocation_closes reported
    rw [← reached] at known
    rw [← epoch_eq]
    exact closed_out kept' next_grows known closed found
  · intro error next refused other id purpose now age
    rw [refusal_changes_nothing refused other]
    exact ⟨rfl, fun _ => rfl⟩

end Retention

/-! ## A run -/

/-- A hash that keeps the end of a string, and is never zero. -/
@[reducible] def endSha256 : Sha256 where
  digest bytes := ⟨1 :: (bytes.reverse ++ List.replicate 31 0).take 31, by simp⟩

@[reducible] def openP256 : P256 where
  onCurve _ := true
  lowS _ := true
  verifyPrehash _ _ _ := true

@[reducible] def openEd25519 : Ed25519 where
  verifyingKey secret := secret
  wellFormed _ := true
  isWeak _ := false
  sign _ _ := FixedBytes.replicate 64 0
  verifyStrict _ _ _ := true

attribute [local instance] endSha256 openP256 openEd25519

def openKey : DevicePublicKey := ⟨FixedBytes.replicate 33 2, rfl⟩

def openSignature : DeviceSignature := ⟨FixedBytes.replicate 64 1, rfl⟩

/-- A key that the device certifies, for itself. -/
def openCertificate (id : UInt8) : CertifiedKey where
  claims :=
    { hive := FixedBytes.replicate 32 3, issuer := deviceNodeId openKey, epoch := 0
      id := FixedBytes.replicate 16 id, subject := .p256 openKey, custody := .file
      purpose := .publish, audience := .publish, operations := ["release"], notBefore := 0
      notAfter := 100, policy := 1 }
  possession := FixedBytes.replicate 64 1

/-- A manifest that certifies a key. -/
def certifyingCall : Call where
  manifest :=
    { content :=
        { epoch := 0, revision := 1, issuedAt := 10, nextUpdate := 20
          certificates := [openCertificate 7], revocations := ⟨[]⟩, services := [] }
      signature := openSignature }
  key := openKey
  now := 10

/-- The next manifest, which revokes it. -/
def revokingCall : Call where
  manifest :=
    { content :=
        { epoch := 0, revision := 2, issuedAt := 10, nextUpdate := 20, certificates := []
          revocations := ⟨[FixedBytes.replicate 16 7]⟩, services := [] }
      signature := openSignature }
  key := openKey
  now := 10

theorem revokingCall_tells : DigestsTell [certifyingCall, revokingCall, certifyingCall] := by
  let strings := [contentFields certifyingCall.content, contentFields revokingCall.content,
    certificateBytes (openCertificate 7)]
  have within : hashed [certifyingCall, revokingCall, certifyingCall] ⊆
      fun bytes => bytes ∈ strings := by
    rintro bytes ⟨call, there, hashed⟩
    change bytes ∈ strings
    have either : call = certifyingCall ∨ call = revokingCall := by grind
    rcases either with rfl | rfl <;> rcases hashed with rfl | ⟨certificate, inside, rfl⟩
    · exact mem_cons_self
    · cases mem_singleton.mp inside
      exact mem_cons_of_mem _ (mem_cons_of_mem _ mem_cons_self)
    · exact mem_cons_of_mem _ mem_cons_self
    · cases inside
  have distinct : (strings.map Sha256.digest).Nodup := by decide +kernel
  constructor
  · exact Set.InjOn.mono within (inj_on_of_nodup_map distinct)
  · intro bytes _ same
    cases congrArg (fun digest : Digest => digest.1.head?) same

/-- The certificate is found until it is revoked, and not again when the first manifest is sent once
more. -/
theorem revoked_never_returns_certified :
    let certified := acceptAll (.new (FixedBytes.replicate 32 3)) [certifyingCall]
    certified.certificateFor revokingCall.node (FixedBytes.replicate 16 7) .publish 10 60 =
      .ok (openCertificate 7) ∧
    ∀ purpose now maxStatusAge certificate,
      (acceptAll certified [revokingCall, certifyingCall]).certificateFor revokingCall.node
        (FixedBytes.replicate 16 7) purpose now maxStatusAge ≠ .ok certificate := by
  intro certified
  have accepted : ∃ next, revokingCall.outcome certified = .ok () next := by
    have answer : (match revokingCall.outcome certified with
        | .ok _ _ => true
        | .error _ _ => false) = true := by decide +kernel
    generalize revokingCall.outcome certified = result at answer
    cases result with
    | ok _ next => exact ⟨next, rfl⟩
    | error => cases answer
  obtain ⟨next, accepted⟩ := accepted
  have run := revoked_never_returns (FixedBytes.replicate 32 3) _ revokingCall_tells
    [certifyingCall] [revokingCall, certifyingCall] rfl
  have gone := (run.2.2 revokingCall [certifyingCall] rfl).1 next accepted _ (mem_singleton.mpr rfl)
  refine ⟨?_, gone⟩
  decide +kernel

end Supgang.Authority
