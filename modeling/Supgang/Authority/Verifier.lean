/-
# Authority.Verifier — bounded per-device rollback and equivocation state

`authority/verifier.rs`. A verifier keeps for each device the last manifest it accepted, the
certificates still live under it and a digest for every id it ever saw certified or revoked. A
manifest moves the device forward, repeats what is held, or is refused; two contents at one epoch
and revision quarantine the epoch.

* `Call.Step`, `accept_step` — everything one call of `accept` can do.
* `nextState_follows` — what a device holds after a manifest moved it forward.
-/
import Supgang.Authority.Codec
import Supgang.Theory.Maps
import Supgang.Theory.Outcome

namespace Supgang.Authority

set_option autoImplicit false
set_option linter.unusedSectionVars false

open Theory List

def maxDevices : Nat := 64

/-- What a revoked id that was never certified is remembered by. -/
def tombstone : Digest := FixedBytes.replicate 32 0

/-- An epoch and a revision, in the order manifests of one device are issued in. -/
abbrev Watermark := UInt64 ×ₗ UInt64

section Verifier

variable [P256]

def AuthorityContent.watermark (content : AuthorityContent) : Watermark :=
  toLex (content.epoch, content.revision)

structure DeviceState where
  watermark : Watermark
  issuedAt : UInt64
  digest : Digest
  manifest : Option AuthorityManifest
  certificates : Std.ExtTreeMap CertificateId CertifiedKey
  history : Std.ExtTreeMap CertificateId Digest
  historyExhausted : Bool
  revocations : CertifiedKeyRevocations
  /-- The prior epoch's complete set. -/
  previousRevocations : CertifiedKeyRevocations

def DeviceState.epoch (state : DeviceState) : UInt64 := (ofLex state.watermark).1

/-- Library verifier scoped to one hive, with at most 64 tracked devices. -/
structure AuthorityVerifier where
  hive : HiveId
  devices : Std.ExtTreeMap NodeId DeviceState

def AuthorityVerifier.new (hive : HiveId) : AuthorityVerifier := ⟨hive, ∅⟩

/-! ## Looking up -/

/-- A certificate under the freshness intersection. -/
def usable (state : DeviceState) (id : CertificateId) (purpose : Purpose)
    (now maxStatusAge : UInt64) : Option CertifiedKey := do
  let manifest ← state.manifest
  let content := manifest.content
  if now < content.issuedAt ∨ content.nextUpdate < now ∨ maxStatusAge < now - content.issuedAt ∨
      id ∈ content.revocations.ids then none
  else
    let certificate ← state.certificates[id]?
    let claims := certificate.claims
    if claims.epoch ≠ content.epoch ∨ claims.purpose ≠ purpose ∨ now < claims.notBefore ∨
        claims.notAfter < now then none
    else some certificate

/-- Looks up a certificate of any device; an id that two devices use fails closed. -/
def AuthorityVerifier.certificate (verifier : AuthorityVerifier) (id : CertificateId)
    (purpose : Purpose) (now maxStatusAge : UInt64) : Except AuthorityError CertifiedKey :=
  match verifier.devices.values.filterMap fun state =>
    usable state id purpose now maxStatusAge with
  | [only] => .ok only
  | _ => .error .unavailable

/-- Looks up a certificate for an explicitly selected issuing device. -/
def AuthorityVerifier.certificateFor (verifier : AuthorityVerifier) (issuer : NodeId)
    (id : CertificateId) (purpose : Purpose) (now maxStatusAge : UInt64) :
    Except AuthorityError CertifiedKey :=
  okOr (verifier.devices[issuer]? >>= fun state => usable state id purpose now maxStatusAge)
    AuthorityError.unavailable

variable {id : CertificateId} {purpose : Purpose} {maxStatusAge : UInt64}
  {certificate : CertifiedKey}

theorem usable_eq_some {state : DeviceState} {now : UInt64} :
    usable state id purpose now maxStatusAge = some certificate ↔
      ∃ manifest, state.manifest = some manifest ∧
        (manifest.content.issuedAt ≤ now ∧ now ≤ manifest.content.nextUpdate ∧
          now - manifest.content.issuedAt ≤ maxStatusAge) ∧
        id ∉ manifest.content.revocations.ids ∧ state.certificates[id]? = some certificate ∧
        certificate.claims.epoch = manifest.content.epoch ∧
        certificate.claims.purpose = purpose ∧
        certificate.claims.notBefore ≤ now ∧ now ≤ certificate.claims.notAfter := by
  cases held : state.manifest with
  | none => simp [usable, held]
  | some manifest =>
    simp only [usable, held, Option.bind_eq_bind, Option.bind_some, Option.some.injEq,
      exists_eq_left']
    rw [Option.ite_none_left_eq_some]
    simp only [not_or, not_lt, Option.bind_eq_some_iff, Option.ite_none_left_eq_some,
      Option.some.injEq, not_not]
    constructor
    · rintro ⟨⟨issued, due, aged, kept⟩, found, lookup, ⟨epoch_eq, purpose_eq, begun, live⟩, rfl⟩
      exact ⟨⟨issued, due, aged⟩, kept, lookup, epoch_eq, purpose_eq, begun, live⟩
    · rintro ⟨⟨issued, due, aged⟩, kept, lookup, epoch_eq, purpose_eq, begun, live⟩
      exact ⟨⟨issued, due, aged, kept⟩, certificate, lookup,
        ⟨epoch_eq, purpose_eq, begun, live⟩, rfl⟩

theorem certificateFor_eq_ok {verifier : AuthorityVerifier} {issuer : NodeId} {now : UInt64} :
    verifier.certificateFor issuer id purpose now maxStatusAge = .ok certificate ↔
      ∃ state, verifier.devices[issuer]? = some state ∧
        usable state id purpose now maxStatusAge = some certificate := by
  rw [AuthorityVerifier.certificateFor, okOr_eq_ok, Option.bind_eq_bind, Option.bind_eq_some_iff]

/-! ## Accepting -/

def rememberDigest (history : Std.ExtTreeMap CertificateId Digest) (id : CertificateId)
    (digest : Digest) : Except AuthorityError (Std.ExtTreeMap CertificateId Digest) := do
  reject (id ∉ history ∧ history.size = maxUsedIds) AuthorityError.bound
  return history.insert id digest

/-- Unknown revoked ids become tombstones; their future certification fails. -/
def bury (history : Std.ExtTreeMap CertificateId Digest) (id : CertificateId) :
    Except AuthorityError (Std.ExtTreeMap CertificateId Digest) :=
  if id ∈ history then .ok history else rememberDigest history id tombstone

/-- Neither conflicting record grants authority, but ids in either signed record must never become
reusable after a later epoch advance. -/
def quarantineId (state : DeviceState) (id : CertificateId) : DeviceState :=
  match bury state.history id with
  | .ok history => { state with history }
  | .error _ => { state with historyExhausted := true }

def quarantine (state : DeviceState) (conflicting : AuthorityManifest) : DeviceState :=
  let content := conflicting.content
  (content.certificates.map (·.claims.id) ++ content.revocations.ids).foldl quarantineId
    { state with
      manifest := none
      certificates := ∅
      issuedAt := max state.issuedAt content.issuedAt }

variable [Sha256]

def CertifiedKey.digest (certificate : CertifiedKey) : Digest :=
  Sha256.digest (certificateBytes certificate)

/-- Remembers one certificate, and holds it unless it is past. -/
def learn (now : UInt64) (state : DeviceState) (certificate : CertifiedKey) :
    Except AuthorityError DeviceState := do
  let id := certificate.claims.id
  reject (∃ old ∈ state.history[id]?, old ≠ certificate.digest) AuthorityError.reusedId
  let history ← rememberDigest state.history id certificate.digest
  return { state with
    history
    certificates :=
      if now ≤ certificate.claims.notAfter then state.certificates.insert id certificate
      else state.certificates }

/-- The state of a device that is seen for the first time. -/
def DeviceState.fresh (content : AuthorityContent) (digest : Digest) : DeviceState where
  watermark := toLex (content.epoch, 0)
  issuedAt := content.issuedAt
  digest
  manifest := none
  certificates := ∅
  history := ∅
  historyExhausted := false
  revocations := ⟨[]⟩
  previousRevocations := ⟨[]⟩

/-- Within an epoch revocations only grow; a new epoch drops every certificate of the last. -/
def enterEpoch (state : DeviceState) (content : AuthorityContent) :
    Except AuthorityError DeviceState :=
  if content.epoch = state.epoch then do
    content.revocations.extends_ state.revocations
    return state
  else
    return { state with previousRevocations := state.revocations, certificates := ∅ }

/-- The certificates that a manifest leaves in place: not past, and not revoked now. -/
def carried (now : UInt64) (content : AuthorityContent) (state : DeviceState) : DeviceState :=
  { state with
    certificates := state.certificates.filter fun id certificate =>
      decide (now ≤ certificate.claims.notAfter ∧ id ∉ content.revocations.ids) }

def nextState (previous : Option DeviceState) (manifest : AuthorityManifest) (digest : Digest)
    (now : UInt64) : Except AuthorityError DeviceState := do
  let content := manifest.content
  let state := previous.getD (.fresh content digest)
  reject (state.historyExhausted = true) AuthorityError.bound
  reject (content.issuedAt < state.issuedAt) AuthorityError.older
  let state ← enterEpoch state content
  let state ← content.certificates.foldlM (learn now) (carried now content state)
  let history ← content.revocations.ids.foldlM bury state.history
  reject (maxCertificates < state.certificates.size) AuthorityError.bound
  return { state with
    history
    watermark := content.watermark
    issuedAt := content.issuedAt
    digest
    revocations := content.revocations
    manifest := some manifest }

variable [Ed25519]

/-- Moves the device forward. -/
def AuthorityVerifier.advance (manifest : AuthorityManifest) (node : NodeId) (digest : Digest)
    (now : UInt64) : EStateM AuthorityError AuthorityVerifier Unit := do
  reject (saturatingAdd now 300 < manifest.content.issuedAt) AuthorityError.future
  let verifier ← get
  let state ← ofExcept (nextState verifier.devices[node]? manifest digest now)
  set { verifier with devices := verifier.devices.insert node state }

/-- Authenticates a manifest before changing any remembered state. Equal content with another valid
signature is a duplicate; equal epoch and revision with different content removes both. -/
def AuthorityVerifier.accept (manifest : AuthorityManifest) (key : DevicePublicKey)
    (now : UInt64) : EStateM AuthorityError AuthorityVerifier Unit := do
  let verifier ← get
  ofExcept (manifest.verify verifier.hive key)
  let content := manifest.content
  let node := deviceNodeId key
  let payload ← ofExcept (contentBytes content)
  let digest := Sha256.digest payload
  match verifier.devices[node]? with
  | some state =>
    reject (content.watermark < state.watermark) AuthorityError.older
    if content.watermark = state.watermark then
      if digest ≠ state.digest ∨ state.manifest = none then
        set { verifier with devices := verifier.devices.insert node (quarantine state manifest) }
        throw AuthorityError.equivocation
      else reject (saturatingAdd now 300 < content.issuedAt) AuthorityError.future
    else
      reject (content.epoch = state.epoch ∧ state.manifest = none) AuthorityError.equivocation
      advance manifest node digest now
  | none =>
    reject (verifier.devices.size = maxDevices) AuthorityError.bound
    advance manifest node digest now

end Verifier

/-! ## What a device remembers -/

section Memory

variable {history history' : Std.ExtTreeMap CertificateId Digest}

theorem rememberDigest_eq_ok {id : CertificateId} {digest : Digest} :
    rememberDigest history id digest = .ok history' ↔
      (id ∈ history ∨ history.size ≠ maxUsedIds) ∧ history' = history.insert id digest := by
  rw [rememberDigest, reject_bind_eq_ok, pure_eq_ok, not_and_or, not_not]
  exact and_congr_right fun _ => eq_comm

/-- Burying an id adds a tombstone for it, or nothing. -/
theorem bury_lookup {id : CertificateId} (h : bury history id = .ok history')
    (other : CertificateId) :
    history'[other]? =
      if other ∈ history then history[other]? else if id = other then some tombstone else none := by
  unfold bury at h
  split at h
  · rename_i known
    cases h
    by_cases inside : other ∈ history
    · rw [if_pos inside]
    · rw [if_neg inside, if_neg, Std.ExtTreeMap.getElem?_eq_none inside]
      rintro rfl
      exact inside known
  · rename_i unknown
    obtain ⟨-, rfl⟩ := rememberDigest_eq_ok.mp h
    rw [getElem?_insert_eq]
    by_cases same : id = other
    · subst same
      rw [if_pos rfl, if_neg unknown, if_pos rfl]
    · rw [if_neg same]
      split
      · rfl
      · rw [Std.ExtTreeMap.getElem?_eq_none ‹_›]

theorem buryAll_lookup {ids : List CertificateId} (h : ids.foldlM bury history = .ok history')
    (other : CertificateId) :
    history'[other]? =
      if other ∈ history then history[other]? else if other ∈ ids then some tombstone else none := by
  induction ids generalizing history with
  | nil =>
    obtain rfl := pure_eq_ok.mp h
    by_cases inside : other ∈ history
    · rw [if_pos inside]
    · simp [inside]
  | cons id ids ih =>
    rw [foldlM_cons, bind_eq_ok] at h
    obtain ⟨next, first, rest⟩ := h
    have lookup := bury_lookup first other
    have member : other ∈ next ↔ other ∈ history ∨ id = other := by
      rw [Std.ExtTreeMap.mem_iff_isSome_getElem?, lookup]
      by_cases inside : other ∈ history
      · simp [inside]
      · by_cases same : id = other <;> simp [inside, same]
    rw [ih rest, lookup]
    by_cases inside : other ∈ history
    · simp [inside, member]
    · by_cases same : id = other
      · simp [inside, member, same]
      · simp [inside, member, same, Ne.symm same]

end Memory

section Learning

variable [P256] [Sha256]

variable {state state' : DeviceState}

theorem learn_eq_ok {now : UInt64} {certificate : CertifiedKey} :
    learn now state certificate = .ok state' ↔
      (∀ old, state.history[certificate.claims.id]? = some old → old = certificate.digest) ∧
      (certificate.claims.id ∈ state.history ∨ state.history.size ≠ maxUsedIds) ∧
      state' = { state with
        history := state.history.insert certificate.claims.id certificate.digest
        certificates :=
          if now ≤ certificate.claims.notAfter then
            state.certificates.insert certificate.claims.id certificate
          else state.certificates } := by
  simp only [learn, ok_steps, exists_unit, rememberDigest_eq_ok, not_exists, not_and, not_not,
    Option.mem_def, ↓existsAndEq, and_true, eq_comm (a := state')]

/-- What a run of `learn` over the certificates of a manifest leaves. -/
structure Learned (now : UInt64) (state : DeviceState) (certificates : List CertifiedKey)
    (state' : DeviceState) : Prop where
  rest : state' = { state with
    history := state'.history
    certificates := state'.certificates }
  remembered : ∀ certificate ∈ certificates,
    state'.history[certificate.claims.id]? = some certificate.digest
  held : ∀ certificate ∈ certificates, state'.certificates[certificate.claims.id]? =
    if now ≤ certificate.claims.notAfter then some certificate
    else state.certificates[certificate.claims.id]?
  other_history : ∀ id, (∀ certificate ∈ certificates, certificate.claims.id ≠ id) →
    state'.history[id]? = state.history[id]?
  other_certificates : ∀ id, (∀ certificate ∈ certificates, certificate.claims.id ≠ id) →
    state'.certificates[id]? = state.certificates[id]?
  kept : ∀ (id : CertificateId) (digest : Digest), state.history[id]? = some digest →
    state'.history[id]? = some digest

/-- Different ids, as a sorted list of certificates has them. -/
def DistinctIds (certificates : List CertifiedKey) : Prop :=
  certificates.Pairwise fun first second => first.claims.id ≠ second.claims.id

theorem learnAll {now : UInt64} {certificates : List CertifiedKey}
    (distinct : DistinctIds certificates) (h : certificates.foldlM (learn now) state = .ok state') :
    Learned now state certificates state' := by
  induction certificates generalizing state with
  | nil =>
    cases h
    exact ⟨rfl, forall_mem_nil _, forall_mem_nil _, fun _ _ => rfl, fun _ _ => rfl,
      fun _ _ found => found⟩
  | cons certificate certificates ih =>
    rw [foldlM_cons, bind_eq_ok] at h
    obtain ⟨next, first, rest⟩ := h
    obtain ⟨fresh, -, rfl⟩ := learn_eq_ok.mp first
    obtain ⟨differs, distinct⟩ := pairwise_cons.mp distinct
    have tail := ih distinct rest
    have apart : ∀ c ∈ certificates, c.claims.id ≠ certificate.claims.id := fun c inside =>
      (differs c inside).symm
    refine ⟨tail.rest, ?_, ?_, ?_, ?_, ?_⟩
    · rw [forall_mem_cons]
      refine ⟨?_, tail.remembered⟩
      rw [tail.other_history _ apart]
      simp
    · rw [forall_mem_cons]
      constructor
      · rw [tail.other_certificates _ apart]
        dsimp only
        split
        · simp
        · rfl
      · intro c inside
        rw [tail.held c inside]
        dsimp only
        split
        · rfl
        split
        · rw [getElem?_insert_eq, if_neg (differs c inside)]
        · rfl
    · intro id away
      rw [forall_mem_cons] at away
      rw [tail.other_history id away.2]
      simp [getElem?_insert_eq, away.1]
    · intro id away
      rw [forall_mem_cons] at away
      rw [tail.other_certificates id away.2]
      dsimp only
      split
      · rw [getElem?_insert_eq, if_neg away.1]
      · rfl
    · intro id digest found
      apply tail.kept
      dsimp only
      rw [getElem?_insert_eq]
      split
      · rename_i same
        subst same
        rw [fresh digest found]
      · exact found

theorem AuthorityContent.Valid.distinct [Ed25519] {content : AuthorityContent}
    (valid : content.Valid) : DistinctIds content.certificates := by
  have sorted : content.certificates.Pairwise fun first second =>
      first.claims.id < second.claims.id := isChain_iff_pairwise.mp valid.certificates_sorted
  exact sorted.imp fun less => ne_of_lt less

end Learning

/-! ## Moving forward -/

section Forward

variable [P256] [Sha256]

/-- What a device holds after `manifest` moved it forward from `base`. -/
structure Follows (base : DeviceState) (manifest : AuthorityManifest) (digest : Digest)
    (now : UInt64) (state : DeviceState) : Prop where
  watermark_eq : state.watermark = manifest.content.watermark
  issuedAt_eq : state.issuedAt = manifest.content.issuedAt
  digest_eq : state.digest = digest
  revocations_eq : state.revocations = manifest.content.revocations
  manifest_eq : state.manifest = some manifest
  exhausted_eq : state.historyExhausted = false
  room : state.certificates.size ≤ maxCertificates
  not_earlier : base.issuedAt ≤ manifest.content.issuedAt
  revocations_kept : manifest.content.epoch = base.epoch →
    ∀ id ∈ base.revocations.ids, id ∈ manifest.content.revocations.ids
  history_kept : ∀ (id : CertificateId) (d : Digest), base.history[id]? = some d →
    state.history[id]? = some d
  history_from : ∀ (id : CertificateId) (d : Digest), state.history[id]? = some d →
    base.history[id]? = some d ∨ d = tombstone ∨
      ∃ certificate ∈ manifest.content.certificates, d = certificate.digest
  revoked_known : ∀ id ∈ manifest.content.revocations.ids, id ∈ state.history
  remembered : ∀ certificate ∈ manifest.content.certificates,
    state.history[certificate.claims.id]? = some certificate.digest
  held : ∀ certificate ∈ manifest.content.certificates, now ≤ certificate.claims.notAfter →
    state.certificates[certificate.claims.id]? = some certificate
  held_from : ∀ (id : CertificateId) (certificate : CertifiedKey),
    state.certificates[id]? = some certificate →
      (certificate ∈ manifest.content.certificates ∧ certificate.claims.id = id) ∨
      (manifest.content.epoch = base.epoch ∧ base.certificates[id]? = some certificate ∧
        id ∉ manifest.content.revocations.ids)
  live : ∀ (id : CertificateId) (certificate : CertifiedKey),
    state.certificates[id]? = some certificate → now ≤ certificate.claims.notAfter

variable {state : DeviceState} {content : AuthorityContent}

/-- Entering an epoch touches nothing but the certificates and the prior revocations. -/
theorem enterEpoch_eq_ok {state' : DeviceState} (h : enterEpoch state content = .ok state') :
    state'.history = state.history ∧ state'.historyExhausted = state.historyExhausted ∧
      (content.epoch = state.epoch → state'.certificates = state.certificates ∧
        ∀ id ∈ state.revocations.ids, id ∈ content.revocations.ids) ∧
      (content.epoch ≠ state.epoch → state'.certificates = ∅) := by
  unfold enterEpoch at h
  split at h
  · rename_i same
    simp only [CertifiedKeyRevocations.extends_, ok_steps, not_exists, not_and, not_not] at h
    obtain ⟨_, ⟨_, -, _, -, kept⟩, rfl⟩ := h
    exact ⟨rfl, rfl, fun _ => ⟨rfl, kept⟩, fun differs => absurd same differs⟩
  · rename_i differs
    obtain rfl := pure_eq_ok.mp h
    exact ⟨rfl, rfl, fun same => absurd same differs, fun _ => rfl⟩

/-- A certificate that is held after a manifest is one of its own, or an unrevoked one of the same
epoch; either way it is not past. -/
theorem held_after {now : UInt64} {base entered learned : DeviceState}
    (entering : enterEpoch base content = .ok entered)
    (after : Learned now (carried now content entered) content.certificates learned)
    (id : CertificateId) (certificate : CertifiedKey)
    (found : learned.certificates[id]? = some certificate) :
    (certificate ∈ content.certificates ∧ certificate.claims.id = id ∧
      now ≤ certificate.claims.notAfter) ∨
    (content.epoch = base.epoch ∧ base.certificates[id]? = some certificate ∧
      now ≤ certificate.claims.notAfter ∧ id ∉ content.revocations.ids) := by
  obtain ⟨-, -, same_epoch, new_epoch⟩ := enterEpoch_eq_ok entering
  have kept : ∀ certificate, (carried now content entered).certificates[id]? = some certificate →
      content.epoch = base.epoch ∧ base.certificates[id]? = some certificate ∧
        now ≤ certificate.claims.notAfter ∧ id ∉ content.revocations.ids := by
    intro certificate found
    rw [carried, Std.ExtTreeMap.getElem?_filter', Option.filter_eq_some_iff] at found
    by_cases same : content.epoch = base.epoch
    · rw [← (same_epoch same).1]
      exact ⟨same, found.1, by simpa using found.2⟩
    · rw [new_epoch same] at found
      simp at found
  by_cases listed : ∃ certificate ∈ content.certificates, certificate.claims.id = id
  · obtain ⟨named, inside, rfl⟩ := listed
    rw [after.held named inside] at found
    split at found
    · cases found
      exact .inl ⟨inside, rfl, ‹_›⟩
    · exact .inr (kept certificate found)
  · rw [after.other_certificates id (by simpa using listed)] at found
    exact .inr (kept certificate found)

theorem nextState_follows {previous : Option DeviceState} {manifest : AuthorityManifest}
    {digest : Digest} {now : UInt64} (distinct : DistinctIds manifest.content.certificates)
    (h : nextState previous manifest digest now = .ok state) :
    Follows (previous.getD (.fresh manifest.content digest)) manifest digest now state := by
  simp only [nextState, reject_bind_eq_ok] at h
  generalize previous.getD (.fresh manifest.content digest) = base at h ⊢
  obtain ⟨fresh, not_earlier, h⟩ := h
  simp only [ok_steps] at h
  obtain ⟨entered, entering, learned, learning, history, burying, _, room, rfl⟩ := h
  obtain ⟨history_eq, exhausted_eq, same_epoch, new_epoch⟩ := enterEpoch_eq_ok entering
  have after := learnAll distinct learning
  have lookup := buryAll_lookup burying
  have learned_known : ∀ (id : CertificateId) (d : Digest), learned.history[id]? = some d →
      history[id]? = some d := by
    intro id d found
    rw [lookup id, if_pos (mem_of_getElem? found), found]
  -- An id of the manifest is remembered by its own digest, any other as before.
  have learned_from : ∀ (id : CertificateId) (d : Digest), learned.history[id]? = some d →
      base.history[id]? = some d ∨
        ∃ certificate ∈ manifest.content.certificates, d = certificate.digest := by
    intro id d found
    by_cases listed : ∃ certificate ∈ manifest.content.certificates, certificate.claims.id = id
    · obtain ⟨certificate, inside, rfl⟩ := listed
      rw [after.remembered certificate inside] at found
      exact .inr ⟨certificate, inside, (Option.some.inj found).symm⟩
    · rw [after.other_history id (by simpa using listed)] at found
      exact .inl (by rw [← history_eq]; exact found)
  have held_from := held_after entering after
  refine ⟨rfl, rfl, rfl, rfl, rfl, ?_, not_lt.mp room, not_lt.mp not_earlier, ?_, ?_, ?_, ?_, ?_, ?_,
    ?_, ?_⟩
  · dsimp only
    rw [after.rest]
    show entered.historyExhausted = false
    rw [exhausted_eq]
    simpa using fresh
  · intro same
    exact (same_epoch same).2
  · intro id d found
    apply learned_known
    apply after.kept
    rw [← history_eq] at found
    exact found
  · intro id d found
    rw [lookup id] at found
    split at found
    · rcases learned_from id d found with old | new
      · exact .inl old
      · exact .inr (.inr new)
    split at found
    · exact .inr (.inl (Option.some.inj found).symm)
    · cases found
  · intro id inside
    rw [Std.ExtTreeMap.mem_iff_isSome_getElem?, lookup id]
    split
    · rw [← Std.ExtTreeMap.mem_iff_isSome_getElem?]
      assumption
    · rfl
  · intro certificate inside
    exact learned_known _ _ (after.remembered certificate inside)
  · intro certificate inside live
    dsimp only
    rw [after.held certificate inside, if_pos live]
  · intro id certificate found
    rcases held_from id certificate found with ⟨inside, same, -⟩ | ⟨same, old, -, unrevoked⟩
    · exact .inl ⟨inside, same⟩
    · exact .inr ⟨same, old, unrevoked⟩
  · intro id certificate found
    rcases held_from id certificate found with ⟨-, -, live⟩ | ⟨-, -, live, -⟩
    · exact live
    · exact live

end Forward

/-! ## Quarantine -/

section Quarantine

variable [P256]

/-- Quarantine only adds tombstones to what is remembered. -/
structure Buries (state state' : DeviceState) : Prop where
  watermark_eq : state'.watermark = state.watermark
  manifest_eq : state'.manifest = state.manifest
  certificates_eq : state'.certificates = state.certificates
  revocations_eq : state'.revocations = state.revocations
  history_kept : ∀ (id : CertificateId) (d : Digest), state.history[id]? = some d →
    state'.history[id]? = some d
  history_from : ∀ (id : CertificateId) (d : Digest), state'.history[id]? = some d →
    state.history[id]? = some d ∨ d = tombstone

theorem Buries.trans {first second third : DeviceState} (h : Buries first second)
    (h' : Buries second third) : Buries first third := by
  refine ⟨h'.watermark_eq.trans h.watermark_eq, h'.manifest_eq.trans h.manifest_eq,
    h'.certificates_eq.trans h.certificates_eq, h'.revocations_eq.trans h.revocations_eq, ?_, ?_⟩
  · intro id d found
    exact h'.history_kept id d (h.history_kept id d found)
  · intro id d found
    rcases h'.history_from id d found with old | buried
    · exact h.history_from id d old
    · exact .inr buried

theorem quarantineId_buries (state : DeviceState) (id : CertificateId) :
    Buries state (quarantineId state id) := by
  unfold quarantineId
  split
  · rename_i history buried
    refine ⟨rfl, rfl, rfl, rfl, ?_, ?_⟩
    · intro other d found
      dsimp only
      rw [bury_lookup buried other, if_pos (mem_of_getElem? found), found]
    · intro other d found
      dsimp only at found
      rw [bury_lookup buried other] at found
      split at found
      · exact .inl found
      split at found
      · exact .inr (Option.some.inj found).symm
      · cases found
  · exact ⟨rfl, rfl, rfl, rfl, fun _ _ found => found, fun _ _ found => .inl found⟩

theorem quarantineIds_buries (ids : List CertificateId) (state : DeviceState) :
    Buries state (ids.foldl quarantineId state) := by
  induction ids generalizing state with
  | nil => exact ⟨rfl, rfl, rfl, rfl, fun _ _ found => found, fun _ _ found => .inl found⟩
  | cons id ids ih => exact (quarantineId_buries state id).trans (ih _)

theorem quarantine_buries (state : DeviceState) (conflicting : AuthorityManifest) :
    Buries { state with
      manifest := none
      certificates := ∅
      issuedAt := max state.issuedAt conflicting.content.issuedAt } (quarantine state conflicting) :=
  quarantineIds_buries _ _

end Quarantine

/-! ## One call -/

section Steps

variable [P256] [Sha256] [Ed25519]

/-- One call of `accept`. -/
structure Call where
  manifest : AuthorityManifest
  key : DevicePublicKey
  now : UInt64

def Call.node (call : Call) : NodeId := deviceNodeId call.key

def Call.content (call : Call) : AuthorityContent := call.manifest.content

/-- The digest a manifest is compared by. -/
def Call.digest (call : Call) : Digest := Sha256.digest (contentFields call.content)

def Call.outcome (call : Call) (verifier : AuthorityVerifier) :
    EStateM.Result AuthorityError AuthorityVerifier Unit :=
  (AuthorityVerifier.accept call.manifest call.key call.now).run verifier

def AuthorityVerifier.put (verifier : AuthorityVerifier) (node : NodeId) (state : DeviceState) :
    AuthorityVerifier :=
  { verifier with devices := verifier.devices.insert node state }

/-- Everything one call of `accept` can do to a verifier. -/
inductive Call.Step (call : Call) (verifier : AuthorityVerifier) :
    EStateM.Result AuthorityError AuthorityVerifier Unit → Prop
  | refused {error : AuthorityError} (other : error ≠ .equivocation) :
      Step call verifier (.error error verifier)
  /-- The epoch is in quarantine. -/
  | barred {state : DeviceState} (known : verifier.devices[call.node]? = some state)
      (same_epoch : call.content.epoch = state.epoch) (quarantined : state.manifest = none) :
      Step call verifier (.error .equivocation verifier)
  | conflicted {state : DeviceState} (known : verifier.devices[call.node]? = some state)
      (same : call.content.watermark = state.watermark) :
      Step call verifier
        (.error .equivocation (verifier.put call.node (quarantine state call.manifest)))
  | repeated {state : DeviceState} {held : AuthorityManifest}
      (known : verifier.devices[call.node]? = some state)
      (verified : call.manifest.Verified verifier.hive call.key)
      (same : call.content.watermark = state.watermark) (digest_eq : call.digest = state.digest)
      (current : state.manifest = some held) : Step call verifier (.ok () verifier)
  | advanced {state : DeviceState} (verified : call.manifest.Verified verifier.hive call.key)
      (newer : ∀ old, verifier.devices[call.node]? = some old →
        old.watermark < call.content.watermark ∧
          (call.content.epoch = old.epoch → old.manifest ≠ none))
      (follows : Follows (verifier.devices[call.node]?.getD (.fresh call.content call.digest))
        call.manifest call.digest call.now state) :
      Step call verifier (.ok () (verifier.put call.node state))

theorem validate_avoids (revocations : CertifiedKeyRevocations) :
    Avoids AuthorityError.equivocation revocations.validate :=
  .bind (.reject nofun) fun _ => .reject nofun

theorem claims_avoid (claims : CertifiedKeyClaims) :
    Avoids AuthorityError.equivocation claims.validate := by
  refine .bind (.reject nofun) fun _ => .bind (.reject nofun) fun _ => .bind (.reject nofun) fun _ =>
    .bind ?_ fun _ => .bind (.reject nofun) fun _ => .bind (.reject nofun) fun _ => ?_
  · unfold Audience.check
    split
    · exact .reject nofun
    · exact .reject nofun
    · exact .ok
  · unfold SubjectKey.check
    split
    · exact .ok
    · exact .bind (.reject nofun) fun _ => .reject nofun

theorem possession_avoids (certificate : CertifiedKey) :
    Avoids AuthorityError.equivocation certificate.verifyPossession := by
  refine .bind (.bind (claims_avoid _) fun _ => .pure) fun _ => ?_
  split
  · exact .bind (.mapError nofun) fun _ => .mapError nofun
  · exact .bind (.reject nofun) fun _ => .reject nofun

theorem content_avoids (content : AuthorityContent) :
    Avoids AuthorityError.equivocation content.validate :=
  .bind (.reject nofun) fun _ => .bind (.reject nofun) fun _ => .bind (validate_avoids _) fun _ =>
    .bind (.mapError nofun) fun _ => .bind (.reject nofun) fun _ => .forM fun certificate =>
      .bind (possession_avoids certificate) fun _ => .bind (.reject nofun) fun _ => .reject nofun

theorem verify_avoids (manifest : AuthorityManifest) (hive : HiveId) (key : DevicePublicKey) :
    Avoids AuthorityError.equivocation (manifest.verify hive key) := by
  have bytes : Avoids AuthorityError.equivocation (contentBytes manifest.content) :=
    .bind (content_avoids _) fun _ => .pure
  exact .bind (content_avoids _) fun _ => .bind (.forM fun _ => .reject nofun) fun _ =>
    .bind bytes fun _ => .bind (.mapError nofun) fun _ =>
      .bind (.bind bytes fun _ => .bind (.reject nofun) fun _ => .pure) fun _ => .pure

theorem bury_avoids (history : Std.ExtTreeMap CertificateId Digest) (id : CertificateId) :
    Avoids AuthorityError.equivocation (bury history id) := by
  unfold bury
  split
  · exact .ok
  · exact .bind (.reject nofun) fun _ => .pure

theorem nextState_avoids (previous : Option DeviceState) (manifest : AuthorityManifest)
    (digest : Digest) (now : UInt64) :
    Avoids AuthorityError.equivocation (nextState previous manifest digest now) := by
  refine .bind (.reject nofun) fun _ => .bind (.reject nofun) fun _ => .bind ?_ fun _ =>
    .bind (.foldlM (fun _ _ => ?_) _) fun _ => .bind (.foldlM bury_avoids _) fun _ =>
      .bind (.reject nofun) fun _ => .pure
  · unfold enterEpoch
    split
    · exact .bind (.bind (validate_avoids _) fun _ => .bind (validate_avoids _) fun _ =>
        .reject nofun) fun _ => .pure
    · exact .pure
  · exact .bind (.reject nofun) fun _ => .bind (.bind (.reject nofun) fun _ => .pure) fun _ => .pure

/-- The last part of `accept`, for a manifest that is newer than what is held. -/
theorem advance_step {call : Call} {verifier : AuthorityVerifier}
    (verified : call.manifest.Verified verifier.hive call.key)
    (newer : ∀ old, verifier.devices[call.node]? = some old →
      old.watermark < call.content.watermark ∧
        (call.content.epoch = old.epoch → old.manifest ≠ none)) :
    Yields verifier (AuthorityVerifier.advance call.manifest call.node call.digest call.now)
      (fun a after => call.Step verifier (.ok a after))
      fun e after => call.Step verifier (.error e after) := by
  refine .reject (fun _ => .refused nofun) fun _ => .get (.ofExcept (fun _ failed => ?_)
    fun state moved => .of_ok rfl ?_)
  · apply Call.Step.refused
    rintro rfl
    exact nextState_avoids _ _ _ _ failed
  · exact .advanced verified newer (nextState_follows verified.valid.distinct moved)

theorem accept_step (call : Call) (verifier : AuthorityVerifier) :
    call.Step verifier (call.outcome verifier) := by
  refine Yields.result.mp (.get (.ofExcept (fun _ failed => ?_) fun _ checked => ?_))
  · apply Call.Step.refused
    rintro rfl
    exact verify_avoids _ _ _ failed
  have verified := verify_eq_ok.mp checked
  have payload : contentBytes call.manifest.content = .ok (contentFields call.manifest.content) :=
    contentBytes_eq_ok.mpr ⟨verified.valid, rfl⟩
  refine .ofExcept (fun _ failed => nomatch payload.symm.trans failed) fun _ encoded => ?_
  cases payload.symm.trans encoded
  change Yields verifier (match verifier.devices[call.node]? with
    | some state => _
    | none => _) _ _
  cases known : verifier.devices[call.node]? with
  | none =>
    refine .reject (fun _ => .refused nofun) fun _ => advance_step verified fun old found => ?_
    rw [known] at found
    cases found
  | some state =>
    refine .reject (fun _ => .refused nofun) fun older => .ite (fun same => .ite
      (fun conflict => .of_error rfl (.conflicted known same)) fun agree => Yields.result.mpr ?_)
      fun differ => .reject (fun closed => .barred known closed.1 closed.2) fun opened =>
        advance_step verified fun old found => ?_
    · obtain ⟨digest_eq, current⟩ := not_or.mp agree
      obtain ⟨held, current⟩ := Option.ne_none_iff_exists'.mp current
      rw [run_reject]
      split
      · exact .refused nofun
      · exact .repeated known verified same (not_not.mp digest_eq) current
    · obtain rfl := Option.some.inj (known.symm.trans found)
      refine ⟨lt_of_le_of_ne (not_lt.mp older) (Ne.symm differ), ?_⟩
      intro same_epoch quarantined
      exact opened ⟨same_epoch, quarantined⟩

end Steps

end Supgang.Authority
