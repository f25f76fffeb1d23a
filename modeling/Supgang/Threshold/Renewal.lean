/-
# Threshold.Renewal — renewal policies and the ledgers that count under them

`threshold/status_renewal.rs`: a root-signed policy caps how often a status lease may be renewed,
with and without the owner's presence. The issuer's ledger takes each lease in turn; a target's
ledger may miss some but never goes back.

* `Policy`, `SignedPolicy` — the terms and their codecs.
* `Ledger.draftIssue`, `Ledger.draftObserve` — one lease at the issuer, one at a target.
* `Trails.observeAll` — a target that trails the issuer takes whatever it gets of the issued leases.
* `Ledger.Under.showAll` — whatever a target is shown, its counts stay in order under its policy.
* `renewal_ledgers_agree` — **a target takes whatever the issuer issued, and never goes back**.
-/
import Supgang.Threshold.Founding
import Supgang.Theory.Canonical

namespace Supgang.Threshold.Renewal

set_option autoImplicit false
set_option linter.unusedSectionVars false

open Theory List

/-! ## Policies -/

/-- Owner-approved first operating maximum: seven days. -/
def ownerMaxAge : UInt64 := 7 * 24 * 60 * 60
/-- Owner-approved first epoch: no unattended status renewals. -/
def ownerPolicyCap : UInt64 := 0
def ownerPresenceCap : UInt64 := 4
def ownerTotalCap : UInt64 := 4
def termsDomain : Bytes := utf8 "supgang/status-policy-terms/v1\x00"

/-- Root-authorized renewal terms, bound to the root head at policy issuance. -/
structure Policy where
  hive : HiveId
  rootHead : Digest
  /-- Random identifier, never reused across physical recertification epochs. -/
  budgetId : FixedBytes 16
  /-- Monotonic physical recertification epoch, starting at one. -/
  epoch : UInt64
  maximumAge : UInt64
  /-- Maximum renewals without owner presence. -/
  policyCap : UInt64
  /-- Maximum renewals with fresh owner presence. -/
  presenceCap : UInt64
  /-- Independent maximum across both modes. -/
  totalCap : UInt64
deriving DecidableEq, Repr

def Policy.capBytes (policy : Policy) : Bytes :=
  Cbor.bytes policy.budgetId.1 ++ (Cbor.u64 policy.epoch ++ (Cbor.u64 policy.maximumAge ++
    (Cbor.u64 policy.policyCap ++ (Cbor.u64 policy.presenceCap ++ Cbor.u64 policy.totalCap))))

def Policy.encode (policy : Policy) : Except Error Bytes := do
  reject (policy.budgetId = FixedBytes.replicate 16 0 ∨ policy.epoch = 0 ∨ policy.maximumAge = 0 ∨
    ownerMaxAge < policy.maximumAge ∨ ownerPolicyCap < policy.policyCap ∨
    ownerPresenceCap < policy.presenceCap ∨ ownerTotalCap < policy.totalCap ∨
    policy.policyCap + policy.presenceCap < policy.totalCap) Error.bound
  return Cbor.array 9 ++ (Cbor.unsigned 1 ++ (Cbor.bytes policy.hive.1 ++
    (Cbor.bytes policy.rootHead.1 ++ policy.capBytes)))

def readPolicy : Cbor.Reader Error Policy := do
  array 9
  version
  let hive ← fixed 32
  let rootHead ← fixed 32
  let budgetId ← fixed 16
  let epoch ← Cbor.readU64
  let maximumAge ← Cbor.readU64
  let policyCap ← Cbor.readU64
  let presenceCap ← Cbor.readU64
  let totalCap ← Cbor.readU64
  return { hive, rootHead, budgetId, epoch, maximumAge, policyCap, presenceCap, totalCap }

def Policy.decode (input : Bytes) : Except Error Policy := do
  reject (256 < input.length) Error.bound
  let (policy, _) ← readPolicy.run input
  let encoded ← policy.encode
  canonical input encoded
  return policy

/-- Identity of the terms independent of a root-head refresh. -/
def Policy.termsBytes (policy : Policy) : Bytes :=
  Cbor.array 7 ++ (Cbor.bytes policy.hive.1 ++ policy.capBytes)

section Digests

variable [Sha256]

def Policy.termsDigest (policy : Policy) : Except Error Digest := do
  let _ ← policy.encode
  return Sha256.digest (termsDomain ++ policy.termsBytes)

end Digests

/-- Policy content with an ordinary current-root signature. -/
structure SignedPolicy where
  policy : Policy
  signature : FixedBytes 64
deriving DecidableEq, Repr

def SignedPolicy.encode (signed : SignedPolicy) : Except Error Bytes := do
  let policy ← signed.policy.encode
  return Cbor.array 3 ++ (Cbor.unsigned 1 ++ (Cbor.bytes policy ++ Cbor.bytes signed.signature.1))

def readSignedPolicy : Cbor.Reader Error SignedPolicy := do
  array 3
  version
  let raw ← Cbor.readBytes
  let policy ← ofExcept (Policy.decode raw)
  let signature ← fixed 64
  return { policy, signature }

def SignedPolicy.decode (input : Bytes) : Except Error SignedPolicy := do
  reject (384 < input.length) Error.bound
  let (signed, _) ← readSignedPolicy.run input
  let encoded ← signed.encode
  canonical input encoded
  return signed

/-! ## Ledgers -/

/-- How one status was issued within an epoch. -/
inductive Mode where
  /-- First lease after physical recertification; no renewal count consumed. -/
  | initial
  /-- Renewal without a fresh owner-presence assertion. -/
  | policy
  /-- Renewal approved by a fresh carried-device presence assertion. -/
  | presence
deriving DecidableEq, Repr

/-- Cumulative renewal counts within one budget and epoch. -/
structure Counts where
  policy : UInt64
  presence : UInt64
  /-- Independent total, equal to the sum of the two mode counts. -/
  total : UInt64
deriving DecidableEq, Repr

def Counts.default : Counts := ⟨0, 0, 0⟩

def Counts.check (counts : Counts) (policy : Policy) : Except Error Unit :=
  reject (policy.policyCap < counts.policy ∨ policy.presenceCap < counts.presence ∨
    policy.totalCap < counts.total ∨
    checkedAdd counts.policy counts.presence ≠ some counts.total) Error.authority

/-- No status yet. -/
def noStatus : Digest := FixedBytes.replicate 32 0

/-- State held by an issuer or a target. -/
structure Ledger where
  /-- Policy terms bound to this state, independent of head refreshes. -/
  terms : Digest
  budgetId : FixedBytes 16
  epoch : UInt64
  /-- Highest observed cumulative counts. -/
  counts : Counts
  /-- Highest trusted issuance second. -/
  issuedAt : UInt64
  /-- Exact signed-status digest at the highest counts, or zero before first issue. -/
  statusDigest : Digest
deriving DecidableEq, Repr

section Transitions

variable [Sha256]

def Ledger.draftNew (policy : Policy) : Except Error Ledger := do
  let terms ← policy.termsDigest
  return {
    terms
    budgetId := policy.budgetId
    epoch := policy.epoch
    counts := .default
    issuedAt := 0
    statusDigest := noStatus }

def Ledger.checkCommon (ledger : Ledger) (policy : Policy) (counts : Counts) (issuedAt : UInt64)
    (digest : Digest) : Except Error Unit := do
  let terms ← policy.termsDigest
  reject (ledger.terms ≠ terms ∨ ledger.budgetId ≠ policy.budgetId ∨ ledger.epoch ≠ policy.epoch ∨
    issuedAt < ledger.issuedAt ∨ digest = noStatus) Error.authority
  counts.check policy

/-- The lease is the next one in its mode. -/
def Ledger.isNext (ledger : Ledger) (mode : Mode) (counts : Counts) : Except Error Bool :=
  match mode with
  | .initial => pure (ledger.statusDigest = noStatus ∧ counts = .default)
  | .policy => do
      let policy ← okOr (checkedAdd ledger.counts.policy 1) Error.bound
      if counts.policy = policy ∧ counts.presence = ledger.counts.presence then
        let total ← okOr (checkedAdd ledger.counts.total 1) Error.bound
        return counts.total = total
      else
        return false
  | .presence =>
    if counts.policy = ledger.counts.policy then do
      let presence ← okOr (checkedAdd ledger.counts.presence 1) Error.bound
      if counts.presence = presence then
        let total ← okOr (checkedAdd ledger.counts.total 1) Error.bound
        return counts.total = total
      else
        return false
    else
      return false

/-- One issuer renewal, requiring exactly one count in its mode. -/
def Ledger.draftIssue (ledger : Ledger) (policy : Policy) (mode : Mode) (counts : Counts)
    (issuedAt : UInt64) (digest : Digest) : Except Error Ledger := do
  ledger.checkCommon policy counts issuedAt digest
  let next ← ledger.isNext mode counts
  reject (¬next ∨ (mode ≠ .initial ∧ ledger.statusDigest = noStatus)) Error.authority
  return { ledger with counts, issuedAt, statusDigest := digest }

/-- The rules for a lease that repeats the counts, and for one that moves them. -/
def Ledger.observeRules (ledger : Ledger) (mode : Mode) (counts : Counts) (issuedAt : UInt64)
    (digest : Digest) : Except Error Unit :=
  if counts = ledger.counts then do
    reject (ledger.statusDigest ≠ noStatus ∧ ledger.statusDigest ≠ digest) Error.halted
    reject (ledger.statusDigest ≠ noStatus ∧ ledger.issuedAt ≠ issuedAt) Error.halted
    reject (ledger.statusDigest = noStatus ∧ mode ≠ .initial) Error.authority
  else
    reject (mode = .initial ∨ ledger.statusDigest = noStatus ∨
      (mode = .policy ∧ counts.policy = ledger.counts.policy) ∨
      (mode = .presence ∧ counts.presence = ledger.counts.presence)) Error.authority

/-- A target that may miss intermediate leases but must not roll back. -/
def Ledger.draftObserve (ledger : Ledger) (policy : Policy) (mode : Mode) (counts : Counts)
    (issuedAt : UInt64) (digest : Digest) : Except Error Ledger := do
  ledger.checkCommon policy counts issuedAt digest
  reject (counts.policy < ledger.counts.policy ∨ counts.presence < ledger.counts.presence ∨
    counts.total < ledger.counts.total) Error.authority
  ledger.observeRules mode counts issuedAt digest
  return { ledger with counts, issuedAt, statusDigest := digest }

end Transitions

/-! ## Sequences of leases -/

/-- One signed status, as a ledger sees it. -/
structure Lease where
  mode : Mode
  counts : Counts
  issuedAt : UInt64
  digest : Digest
deriving DecidableEq, Repr

/-- The ledger once it has taken the lease. -/
def Ledger.taken (ledger : Ledger) (lease : Lease) : Ledger :=
  { ledger with counts := lease.counts, issuedAt := lease.issuedAt, statusDigest := lease.digest }

section Sequences

variable [Sha256]

def Ledger.issue (policy : Policy) (ledger : Ledger) (lease : Lease) : Except Error Ledger :=
  ledger.draftIssue policy lease.mode lease.counts lease.issuedAt lease.digest

def Ledger.observe (policy : Policy) (ledger : Ledger) (lease : Lease) : Except Error Ledger :=
  ledger.draftObserve policy lease.mode lease.counts lease.issuedAt lease.digest

def issueAll (policy : Policy) (ledger : Ledger) (leases : List Lease) : Except Error Ledger :=
  leases.foldlM (Ledger.issue policy) ledger

def observeAll (policy : Policy) (ledger : Ledger) (leases : List Lease) : Except Error Ledger :=
  leases.foldlM (Ledger.observe policy) ledger

/-- The same leases in the same order, each any number of further times in a row. -/
inductive Stutter {α : Type} : List α → List α → Prop
  | nil : Stutter [] []
  | again {rest repeated : List α} (first : α) (times : Nat) (onward : Stutter rest repeated) :
      Stutter (first :: rest) (List.replicate (times + 1) first ++ repeated)

/-- What the ledger has counted and when it last did are no more than the lease has, and the lease
adds to the count of its mode. -/
structure Follows (ledger : Ledger) (lease : Lease) : Prop where
  started : ledger.statusDigest ≠ noStatus
  renewal : lease.mode ≠ .initial
  policy : ledger.counts.policy ≤ lease.counts.policy
  presence : ledger.counts.presence ≤ lease.counts.presence
  total : ledger.counts.total < lease.counts.total
  policy_lt : lease.mode = .policy → ledger.counts.policy < lease.counts.policy
  presence_lt : lease.mode = .presence → ledger.counts.presence < lease.counts.presence

variable {policy : Policy} {ledger : Ledger} {lease : Lease} {u : Unit}

theorem isNext_follows (next : ledger.isNext lease.mode lease.counts = .ok true)
    (started : ledger.statusDigest ≠ noStatus) : Follows ledger lease := by
  obtain ⟨mode, counts, issuedAt, digest⟩ := lease
  cases mode with
  | initial =>
    simp only [Ledger.isNext, pure_eq_ok, decide_eq_true_eq] at next
    exact absurd next.1 started
  | policy =>
    simp only [Ledger.isNext, ok_steps] at next
    obtain ⟨value, hvalue, next⟩ := next
    split at next
    · rename_i hsame
      simp only [ok_steps, decide_eq_true_eq] at next
      obtain ⟨total, htotal, rfl⟩ := next
      obtain ⟨rfl, hpresence⟩ := hsame
      have hless := lt_of_checkedAdd_one hvalue
      exact ⟨started, by simp, hless.le, hpresence.ge, lt_of_checkedAdd_one htotal, fun _ => hless,
        by simp⟩
    · simp [pure_eq_ok] at next
  | presence =>
    simp only [Ledger.isNext] at next
    split at next
    · rename_i hpolicy
      simp only [ok_steps] at next
      obtain ⟨value, hvalue, next⟩ := next
      split at next
      · rename_i hsame
        simp only [ok_steps, decide_eq_true_eq] at next
        obtain ⟨total, htotal, rfl⟩ := next
        subst hsame
        have hless := lt_of_checkedAdd_one hvalue
        exact ⟨started, by simp, hpolicy.ge, hless.le, lt_of_checkedAdd_one htotal, by simp,
          fun _ => hless⟩
      · simp [pure_eq_ok] at next
    · simp [pure_eq_ok] at next

variable {after final fresh : Ledger} {counts : Counts} {leases : List Lease} {seen : Set Bytes}

theorem issue_eq_ok :
    ledger.issue policy lease = .ok after ↔
      ledger.checkCommon policy lease.counts lease.issuedAt lease.digest = .ok () ∧
      ledger.isNext lease.mode lease.counts = .ok true ∧
      (lease.mode = .initial ∨ ledger.statusDigest ≠ noStatus) ∧ after = ledger.taken lease := by
  simp only [Ledger.issue, Ledger.draftIssue, ok_steps, exists_unit, not_or, not_not, not_and_or,
    ↓existsAndEq, true_and, eq_comm (a := after)]
  rfl

theorem observe_eq_ok :
    ledger.observe policy lease = .ok after ↔
      ledger.checkCommon policy lease.counts lease.issuedAt lease.digest = .ok () ∧
      (ledger.counts.policy ≤ lease.counts.policy ∧ ledger.counts.presence ≤ lease.counts.presence ∧
        ledger.counts.total ≤ lease.counts.total) ∧
      ledger.observeRules lease.mode lease.counts lease.issuedAt lease.digest = .ok () ∧
      after = ledger.taken lease := by
  simp only [Ledger.observe, Ledger.draftObserve, ok_steps, exists_unit, not_or, not_lt,
    eq_comm (a := after)]
  rfl

theorem checkCommon_eq_ok {issuedAt : UInt64} {digest : Digest} :
    ledger.checkCommon policy counts issuedAt digest = .ok u ↔
      policy.termsDigest = .ok ledger.terms ∧ ledger.budgetId = policy.budgetId ∧
      ledger.epoch = policy.epoch ∧ ledger.issuedAt ≤ issuedAt ∧ digest ≠ noStatus ∧
      counts.check policy = .ok () := by
  simp only [Ledger.checkCommon, ok_steps, exists_unit, not_or, not_not, not_lt, ↓existsAndEq,
    true_and, and_assoc]

/-! ## What the issuer issued -/

/-- The target's ledger was made for the same terms as the issuer's and has seen no more. -/
structure Trails (target issuer : Ledger) : Prop where
  terms : target.terms = issuer.terms
  budgetId : target.budgetId = issuer.budgetId
  epoch : target.epoch = issuer.epoch
  policy : target.counts.policy ≤ issuer.counts.policy
  presence : target.counts.presence ≤ issuer.counts.presence
  total : target.counts.total ≤ issuer.counts.total
  issuedAt : target.issuedAt ≤ issuer.issuedAt
  started : target.statusDigest ≠ noStatus
  issuerStarted : issuer.statusDigest ≠ noStatus

variable {target issuer : Ledger}

/-- A lease the issuer may issue is one the target may take. -/
theorem Trails.common (trails : Trails target issuer)
    (h : issuer.checkCommon policy lease.counts lease.issuedAt lease.digest = .ok ()) :
    target.checkCommon policy lease.counts lease.issuedAt lease.digest = .ok () := by
  rw [checkCommon_eq_ok] at h ⊢
  obtain ⟨hterms, hbudget, hepoch, htime, hdigest, hcounts⟩ := h
  exact ⟨trails.terms ▸ hterms, trails.budgetId.trans hbudget, trails.epoch.trans hepoch,
    trails.issuedAt.trans htime, hdigest, hcounts⟩

theorem Trails.follows (trails : Trails target issuer) (follows : Follows issuer lease) :
    Follows target lease :=
  ⟨trails.started, follows.renewal, trails.policy.trans follows.policy,
    trails.presence.trans follows.presence, trails.total.trans_lt follows.total,
    fun h => trails.policy.trans_lt (follows.policy_lt h),
    fun h => trails.presence.trans_lt (follows.presence_lt h)⟩

/-- Missing a lease leaves the target behind. -/
theorem Trails.missed (trails : Trails target issuer)
    (h : issuer.checkCommon policy lease.counts lease.issuedAt lease.digest = .ok ())
    (follows : Follows issuer lease) : Trails target (issuer.taken lease) := by
  obtain ⟨-, -, -, htime, hdigest, -⟩ := checkCommon_eq_ok.mp h
  exact ⟨trails.terms, trails.budgetId, trails.epoch, trails.policy.trans follows.policy,
    trails.presence.trans follows.presence, (trails.total.trans_lt follows.total).le,
    trails.issuedAt.trans htime, trails.started, hdigest⟩

/-- Taking the lease brings the target level. -/
theorem Trails.level (terms : target.terms = issuer.terms)
    (budgetId : target.budgetId = issuer.budgetId) (epoch : target.epoch = issuer.epoch)
    (started : lease.digest ≠ noStatus) : Trails (target.taken lease) (issuer.taken lease) :=
  ⟨terms, budgetId, epoch, le_rfl, le_rfl, le_rfl, le_rfl, started, started⟩

theorem Follows.observe (follows : Follows ledger lease)
    (h : ledger.checkCommon policy lease.counts lease.issuedAt lease.digest = .ok ()) :
    ledger.observe policy lease = .ok (ledger.taken lease) := by
  refine observe_eq_ok.mpr ⟨h, ⟨follows.policy, follows.presence, follows.total.le⟩, ?_, rfl⟩
  have hmoved : lease.counts ≠ ledger.counts := fun same => by
    have hless := follows.total
    rw [same] at hless
    exact lt_irrefl _ hless
  rw [Ledger.observeRules, if_neg hmoved, reject_eq_ok]
  rintro (hinitial | hfresh | ⟨hmode, hsame⟩ | ⟨hmode, hsame⟩)
  · exact follows.renewal hinitial
  · exact follows.started hfresh
  · exact (follows.policy_lt hmode).ne hsame.symm
  · exact (follows.presence_lt hmode).ne hsame.symm

/-- **A lease that was just taken is taken again**, and nothing changes. -/
theorem observe_again (started : lease.digest ≠ noStatus)
    (h : ledger.checkCommon policy lease.counts lease.issuedAt lease.digest = .ok ()) :
    (ledger.taken lease).observe policy lease = .ok (ledger.taken lease) := by
  obtain ⟨hterms, hbudget, hepoch, -, -, hcounts⟩ := checkCommon_eq_ok.mp h
  refine observe_eq_ok.mpr ⟨checkCommon_eq_ok.mpr ⟨hterms, hbudget, hepoch, le_rfl, started, hcounts⟩,
    ⟨le_rfl, le_rfl, le_rfl⟩, ?_, rfl⟩
  dsimp only [Ledger.observeRules, Ledger.taken]
  rw [if_pos rfl]
  simp only [ok_steps, exists_const, ne_eq, not_true_eq_false, and_false, not_false_eq_true,
    started, false_and, and_self]

theorem observeAll_replicate (started : lease.digest ≠ noStatus)
    (h : ledger.checkCommon policy lease.counts lease.issuedAt lease.digest = .ok ())
    (times : Nat) :
    observeAll policy (ledger.taken lease) (List.replicate times lease) =
      .ok (ledger.taken lease) := by
  induction times with
  | zero => rfl
  | succ times ih =>
    rw [replicate_succ, observeAll, foldlM_cons, observe_again started h]
    exact ih

/-- One issued lease under a target that trails: the target may miss it or take it. -/
theorem Trails.issued (trails : Trails target issuer)
    (issued : issuer.issue policy lease = .ok after) :
    after = issuer.taken lease ∧ lease.mode ≠ .initial ∧ Trails target after ∧
      Trails (target.taken lease) after ∧ lease.digest ≠ noStatus ∧
      target.checkCommon policy lease.counts lease.issuedAt lease.digest = .ok () ∧
      target.observe policy lease = .ok (target.taken lease) := by
  obtain ⟨hcommon, hnext, -, rfl⟩ := issue_eq_ok.mp issued
  have follows := isNext_follows hnext trails.issuerStarted
  have started : lease.digest ≠ noStatus := (checkCommon_eq_ok.mp hcommon).2.2.2.2.1
  exact ⟨rfl, follows.renewal, trails.missed hcommon follows,
    .level trails.terms trails.budgetId trails.epoch started, started, trails.common hcommon,
    (trails.follows follows).observe (trails.common hcommon)⟩

/-- The ledger is as the last of these leases left it. -/
def EndsWith (ledger : Ledger) (leases : List Lease) : Prop :=
  ∀ last, leases.getLast? = some last → ledger.counts = last.counts ∧
    ledger.issuedAt = last.issuedAt ∧ ledger.statusDigest = last.digest

theorem endsWith_taken (ledger : Ledger) (lease : Lease) (times : Nat) :
    EndsWith (ledger.taken lease) (List.replicate (times + 1) lease) := by
  intro last hlast
  rw [List.getLast?_replicate, if_neg (Nat.succ_ne_zero times), Option.some_inj] at hlast
  rw [← hlast]
  exact ⟨rfl, rfl, rfl⟩

/-- Taking a lease, again and again, and then what follows. -/
theorem observeAll_again (times : Nat) {repeated : List Lease} (started : lease.digest ≠ noStatus)
    (common : ledger.checkCommon policy lease.counts lease.issuedAt lease.digest = .ok ())
    (first : ledger.observe policy lease = .ok (ledger.taken lease))
    (onward : observeAll policy (ledger.taken lease) repeated = .ok final)
    (ends_ : EndsWith final repeated) (stays : repeated = [] → final = ledger.taken lease) :
    observeAll policy ledger (List.replicate (times + 1) lease ++ repeated) = .ok final ∧
      EndsWith final (List.replicate (times + 1) lease ++ repeated) := by
  constructor
  · rw [observeAll, foldlM_append, replicate_succ, foldlM_cons, first]
    have hagain := observeAll_replicate started common times
    rw [observeAll] at hagain onward
    simp only [ok_bind, hagain]
    exact onward
  · intro last hlast
    rw [List.getLast?_append] at hlast
    cases hrest : repeated.getLast? with
    | some other =>
      rw [hrest, Option.some_or] at hlast
      exact ends_ last (hrest.trans hlast)
    | none =>
      rw [hrest, Option.none_or] at hlast
      rw [stays (List.getLast?_eq_none_iff.mp hrest)]
      exact endsWith_taken ledger lease times last hlast

/-- **A trailing target takes whatever it gets of what the issuer issues.** The induction is over the
issued leases: each is missed, or taken and perhaps repeated. -/
theorem Trails.observeAll {sub observed : List Lease} (trails : Trails target issuer)
    (issued : issueAll policy issuer leases = .ok final) (part : sub.Sublist leases)
    (stutter : Stutter sub observed) :
    ∃ after, observeAll policy target observed = .ok after ∧ EndsWith after observed ∧
      (observed = [] → after = target) := by
  induction part generalizing target issuer observed with
  | slnil =>
    cases stutter
    exact ⟨target, rfl, nofun, fun _ => rfl⟩
  | cons lease _ ih =>
    rw [issueAll, foldlM_cons, bind_eq_ok] at issued
    obtain ⟨middle, here, onward⟩ := issued
    obtain ⟨-, -, missed, -⟩ := trails.issued here
    exact ih missed onward stutter
  | cons_cons lease _ ih =>
    rw [issueAll, foldlM_cons, bind_eq_ok] at issued
    obtain ⟨middle, here, onward⟩ := issued
    obtain ⟨-, -, -, level, started, common, first⟩ := trails.issued here
    cases stutter with
    | again _ times rest =>
      obtain ⟨after, hafter, hends, hstays⟩ := ih level onward rest
      obtain ⟨hall, hall'⟩ :=
        observeAll_again times started common first hafter hends hstays
      exact ⟨after, hall, hall', by simp⟩

/-- Only the first lease is an initial one. -/
theorem Trails.renewals (trails : Trails target issuer)
    (issued : issueAll policy issuer leases = .ok final) :
    ∀ lease ∈ leases, lease.mode ≠ .initial := by
  induction leases generalizing target issuer with
  | nil => nofun
  | cons lease rest ih =>
    rw [issueAll, foldlM_cons, bind_eq_ok] at issued
    obtain ⟨middle, here, onward⟩ := issued
    obtain ⟨-, renewal, -, level, -⟩ := trails.issued here
    exact forall_mem_cons.mpr ⟨renewal, ih level onward⟩

/-- The first lease of all: both ledgers are new, and both take it. -/
theorem draftNew_issue (start : Ledger.draftNew policy = .ok fresh)
    (issued : fresh.issue policy lease = .ok after) :
    Trails (fresh.taken lease) after ∧ lease.digest ≠ noStatus ∧
      fresh.checkCommon policy lease.counts lease.issuedAt lease.digest = .ok () ∧
      fresh.observe policy lease = .ok (fresh.taken lease) := by
  simp only [Ledger.draftNew, ok_steps] at start
  obtain ⟨terms, -, rfl⟩ := start
  obtain ⟨hcommon, hnext, hmode, rfl⟩ := issue_eq_ok.mp issued
  have hinitial : lease.mode = .initial := hmode.resolve_right fun h => h rfl
  have started : lease.digest ≠ noStatus := (checkCommon_eq_ok.mp hcommon).2.2.2.2.1
  rw [hinitial] at hnext
  simp only [Ledger.isNext, pure_eq_ok, decide_eq_true_eq, true_and] at hnext
  refine ⟨.level rfl rfl rfl started, started, hcommon, observe_eq_ok.mpr ⟨hcommon, ?_, ?_, rfl⟩⟩
  · rw [hnext]
    exact ⟨le_rfl, le_rfl, le_rfl⟩
  · rw [hnext, hinitial]
    dsimp only [Ledger.observeRules]
    rw [if_pos rfl]
    simp only [ok_steps, exists_const, ne_eq, not_true_eq_false, false_and, not_false_eq_true,
      and_false, and_self]

theorem target_takes_issued {rest observed : List Lease} {first : Lease}
    (start : Ledger.draftNew policy = .ok fresh) (issued : issueAll policy fresh leases = .ok final)
    (part : (first :: rest).Sublist leases) (initial : first.mode = .initial)
    (stutter : Stutter (first :: rest) observed) :
    ∃ after, observeAll policy fresh observed = .ok after ∧ EndsWith after observed := by
  cases part with
  | cons lease part =>
    rw [issueAll, foldlM_cons, bind_eq_ok] at issued
    obtain ⟨middle, here, onward⟩ := issued
    obtain ⟨level, -⟩ := draftNew_issue start here
    exact absurd initial (level.renewals onward first (part.subset (mem_cons_self ..)))
  | cons_cons lease part =>
    rw [issueAll, foldlM_cons, bind_eq_ok] at issued
    obtain ⟨middle, here, onward⟩ := issued
    obtain ⟨level, started, common, taken⟩ := draftNew_issue start here
    cases stutter with
    | again _ times stutter =>
      obtain ⟨after, hafter, hends, hstays⟩ := level.observeAll onward part stutter
      exact ⟨after, observeAll_again times started common taken hafter hends hstays⟩

/-! ## Whatever a target is shown -/

/-- Each shown lease comes with the policy it is shown under; one that is refused changes nothing. -/
def Ledger.shown (ledger : Ledger) (showing : Policy × Lease) : Ledger :=
  match ledger.observe showing.1 showing.2 with
  | .ok after => after
  | .error _ => ledger

def Ledger.showAll (ledger : Ledger) (showings : List (Policy × Lease)) : Ledger :=
  showings.foldl Ledger.shown ledger

/-- No count is higher. -/
structure Counts.Le (a b : Counts) : Prop where
  policy : a.policy ≤ b.policy
  presence : a.presence ≤ b.presence
  total : a.total ≤ b.total

/-- No count is above its cap. -/
structure Counts.Within (counts : Counts) (terms : Policy) : Prop where
  policy : counts.policy ≤ terms.policyCap
  presence : counts.presence ≤ terms.presenceCap
  total : counts.total ≤ terms.totalCap

theorem Counts.Le.refl (counts : Counts) : counts.Le counts := ⟨le_rfl, le_rfl, le_rfl⟩

theorem Counts.Le.trans {a b c : Counts} (first : a.Le b) (second : b.Le c) : a.Le c :=
  ⟨first.policy.trans second.policy, first.presence.trans second.presence,
    first.total.trans second.total⟩

theorem Counts.check_within (h : counts.check policy = .ok u) :
    counts.Within policy := by
  simp only [Counts.check, reject_eq_ok, not_or, not_lt] at h
  exact ⟨h.1, h.2.1, h.2.2.1⟩

/-- The ledger was made for this policy, and its counts are in order under it. -/
structure Ledger.Under (ledger : Ledger) (policy : Policy) : Prop where
  terms : policy.termsDigest = .ok ledger.terms
  budgetId : ledger.budgetId = policy.budgetId
  epoch : ledger.epoch = policy.epoch
  counts : ledger.counts.check policy = .ok ()

theorem draftNew_under (start : Ledger.draftNew policy = .ok fresh) :
    fresh.Under policy := by
  simp only [Ledger.draftNew, ok_steps] at start
  obtain ⟨terms, hterms, rfl⟩ := start
  refine ⟨hterms, rfl, rfl, ?_⟩
  simp [Counts.check, Counts.default, checkedAdd]

/-- The terms' bytes say what the caps are. -/
theorem caps_of_termsBytes {a b : Policy} (same : a.termsBytes = b.termsBytes) :
    a.policyCap = b.policyCap ∧ a.presenceCap = b.presenceCap ∧ a.totalCap = b.totalCap := by
  simp only [Policy.termsBytes, Policy.capBytes, append_cancel_left_eq] at same
  obtain ⟨-, same⟩ := Cbor.fixed_append_inj (by decide) same
  obtain ⟨-, same⟩ := Cbor.fixed_append_inj (by decide) same
  obtain ⟨-, same⟩ := Cbor.u64_append_inj same
  obtain ⟨-, same⟩ := Cbor.u64_append_inj same
  obtain ⟨hpolicy, same⟩ := Cbor.u64_append_inj same
  obtain ⟨hpresence, same⟩ := Cbor.u64_append_inj same
  rw [← append_nil (Cbor.u64 a.totalCap), ← append_nil (Cbor.u64 b.totalCap)] at same
  exact ⟨hpolicy, hpresence, (Cbor.u64_append_inj same).1⟩

/-- What a policy's terms are hashed from. -/
def Policy.hashed (policy : Policy) : Bytes := termsDomain ++ policy.termsBytes

/-- Where the hash does not collide, counts in order under one policy are in order under any other
with the same terms. -/
theorem check_of_terms (free : CollisionFree seen) {other : Policy} {terms : Digest}
    (here : policy.hashed ∈ seen) (there : other.hashed ∈ seen)
    (first : policy.termsDigest = .ok terms) (second : other.termsDigest = .ok terms)
    (h : counts.check other = .ok u) : counts.check policy = .ok () := by
  simp only [Policy.termsDigest, ok_steps] at first second
  obtain ⟨_, -, hfirst⟩ := first
  obtain ⟨_, -, hsecond⟩ := second
  have hsame : policy.hashed = other.hashed := free here there (hfirst.trans hsecond.symm)
  obtain ⟨hpolicy, hpresence, htotal⟩ := caps_of_termsBytes (append_cancel_left hsame)
  simp only [Counts.check, reject_eq_ok] at h ⊢
  rwa [hpolicy, hpresence, htotal]

/-- **One showing**: accepted or refused, the ledger stays in order, and no count goes down. -/
theorem Ledger.Under.shown (free : CollisionFree seen) (under : ledger.Under policy)
    (here : policy.hashed ∈ seen) (showing : Policy × Lease) (there : showing.1.hashed ∈ seen) :
    (ledger.shown showing).Under policy ∧ ledger.counts.Le (ledger.shown showing).counts := by
  unfold Ledger.shown
  cases hrun : ledger.observe showing.1 showing.2 with
  | error _ => exact ⟨under, .refl _⟩
  | ok after =>
    obtain ⟨hcommon, ⟨hpolicy, hpresence, htotal⟩, -, rfl⟩ := observe_eq_ok.mp hrun
    obtain ⟨hterms, -, -, -, -, hcounts⟩ := checkCommon_eq_ok.mp hcommon
    exact ⟨⟨under.terms, under.budgetId, under.epoch,
      check_of_terms free here there under.terms hterms hcounts⟩, hpolicy, hpresence, htotal⟩

theorem Ledger.Under.showAll (free : CollisionFree seen) (under : ledger.Under policy)
    (here : policy.hashed ∈ seen) (showings : List (Policy × Lease))
    (there : ∀ showing ∈ showings, showing.1.hashed ∈ seen) :
    (ledger.showAll showings).Under policy ∧ ledger.counts.Le (ledger.showAll showings).counts := by
  induction showings generalizing ledger with
  | nil => exact ⟨under, .refl _⟩
  | cons showing rest ih =>
    obtain ⟨hnext, hle⟩ := under.shown free here showing (there _ (mem_cons_self ..))
    obtain ⟨hlast, hle'⟩ := ih hnext fun other hother => there other (mem_cons_of_mem _ hother)
    exact ⟨hlast, hle.trans hle'⟩

/-- What refuses a lease that repeats the counts of a started ledger. -/
def repetitionError (ledger : Ledger) (lease : Lease) : Error :=
  if lease.issuedAt < ledger.issuedAt ∨ lease.digest = noStatus then .authority else .halted

theorem observe_equivocation (under : ledger.Under policy) (started : ledger.statusDigest ≠ noStatus)
    (same : lease.counts = ledger.counts)
    (other : lease.digest ≠ ledger.statusDigest ∨ lease.issuedAt ≠ ledger.issuedAt) :
    ledger.observe policy lease = .error (repetitionError ledger lease) := by
  have hcommon : ledger.checkCommon policy lease.counts lease.issuedAt lease.digest =
      reject (lease.issuedAt < ledger.issuedAt ∨ lease.digest = noStatus) Error.authority := by
    rw [Ledger.checkCommon, under.terms, ok_bind, same, under.counts, under.budgetId, under.epoch]
    by_cases hbad : lease.issuedAt < ledger.issuedAt ∨ lease.digest = noStatus <;>
      simp [reject, hbad] <;> rfl
  have hrules : ledger.observeRules lease.mode lease.counts lease.issuedAt lease.digest =
      .error .halted := by
    rw [Ledger.observeRules, if_pos same]
    by_cases hdigest : ledger.statusDigest = lease.digest
    · have htime : ledger.issuedAt ≠ lease.issuedAt := Ne.symm (other.resolve_left (· hdigest.symm))
      simp [reject, hdigest, hdigest ▸ started, htime]
      rfl
    · simp [reject, started, hdigest]
      rfl
  rw [Ledger.observe, Ledger.draftObserve, hcommon, hrules, same, repetitionError]
  by_cases hbad : lease.issuedAt < ledger.issuedAt ∨ lease.digest = noStatus
  · rw [if_pos hbad, reject_bind, if_pos hbad]
  · simp [reject, hbad]

/-- **The ledgers agree.** Whatever part of the issued leases reaches a target, beginning with the
initial one and each perhaps more than once, the target takes all of it and ends with the counts of
the last. Whatever else it is shown, no count of a target goes down or above its cap. A lease that
repeats the counts with another digest or time is refused: as an equivocation, or, where its time is
earlier or it has no digest, before the counts are compared. -/
theorem renewal_ledgers_agree {seen : Set Bytes} (free : CollisionFree seen) {fresh : Ledger}
    (start : Ledger.draftNew policy = .ok fresh) (here : policy.hashed ∈ seen) :
    (∀ (leases : List Lease) (issuer : Ledger) (first : Lease) (rest observed : List Lease),
      issueAll policy fresh leases = .ok issuer → (first :: rest).Sublist leases →
      first.mode = .initial → Stutter (first :: rest) observed →
      ∃ target, observeAll policy fresh observed = .ok target ∧
        ∀ last, observed.getLast? = some last → target.counts = last.counts) ∧
    (∀ showings further : List (Policy × Lease),
      (∀ showing ∈ showings ++ further, showing.1.hashed ∈ seen) →
      (fresh.showAll showings).counts.Le (fresh.showAll (showings ++ further)).counts ∧
        (fresh.showAll showings).counts.Within policy) ∧
    ∀ (showings : List (Policy × Lease)) (lease : Lease),
      (∀ showing ∈ showings, showing.1.hashed ∈ seen) →
      (fresh.showAll showings).statusDigest ≠ noStatus →
      lease.counts = (fresh.showAll showings).counts →
      lease.digest ≠ (fresh.showAll showings).statusDigest ∨
        lease.issuedAt ≠ (fresh.showAll showings).issuedAt →
      (fresh.showAll showings).observe policy lease =
        .error (repetitionError (fresh.showAll showings) lease) := by
  have under := draftNew_under start
  refine ⟨?_, ?_, ?_⟩
  · intro leases issuer first rest observed issued part initial stutter
    obtain ⟨target, htarget, hends⟩ := target_takes_issued start issued part initial stutter
    exact ⟨target, htarget, fun last hlast => (hends last hlast).1⟩
  · intro showings further there
    obtain ⟨hmiddle, -⟩ := under.showAll free here showings fun showing hshowing =>
      there showing (mem_append_left _ hshowing)
    obtain ⟨-, hle⟩ := hmiddle.showAll free here further fun showing hshowing =>
      there showing (mem_append_right _ hshowing)
    have hsplit : fresh.showAll (showings ++ further) =
        (fresh.showAll showings).showAll further := foldl_append
    rw [hsplit]
    exact ⟨hle, Counts.check_within hmiddle.counts⟩
  · intro showings lease there started same other
    exact observe_equivocation (under.showAll free here showings there).1 started same other

end Sequences

/-! ## A target at work -/

/-- A stand-in hash, enough to evaluate the ledgers. -/
@[reducible] def constantSha256 : Sha256 where
  digest _ := FixedBytes.replicate 32 7

attribute [local instance] constantSha256

/-- Four renewals with presence and none without. -/
def weekPolicy : Policy where
  hive := FixedBytes.replicate 32 3
  rootHead := FixedBytes.replicate 32 4
  budgetId := FixedBytes.replicate 16 5
  epoch := 1
  maximumAge := ownerMaxAge
  policyCap := 0
  presenceCap := 4
  totalCap := 4

def weekLedger : Ledger :=
  ⟨FixedBytes.replicate 32 7, FixedBytes.replicate 16 5, 1, .default, 0, noStatus⟩

theorem weekLedger_new : Ledger.draftNew weekPolicy = .ok weekLedger := by decide +kernel

def initialLease : Lease := ⟨.initial, .default, 100, FixedBytes.replicate 32 1⟩
def presenceLease : Lease := ⟨.presence, ⟨0, 1, 1⟩, 101, FixedBytes.replicate 32 2⟩

/-- The initial lease, shown again with an earlier time. -/
def earlierLease : Lease := { initialLease with issuedAt := 99 }

/-- A lease with the current counts and an earlier time is refused, and not as an equivocation. -/
theorem earlier_lease_not_halted :
    Ledger.draftNew weekPolicy = .ok weekLedger ∧
      weekLedger.observe weekPolicy initialLease = .ok (weekLedger.taken initialLease) ∧
      earlierLease.counts = (weekLedger.taken initialLease).counts ∧
      earlierLease.issuedAt ≠ (weekLedger.taken initialLease).issuedAt ∧
      (weekLedger.taken initialLease).observe weekPolicy earlierLease = .error .authority := by
  decide +kernel

theorem renewal_ledgers_agree_week :
    issueAll weekPolicy weekLedger [initialLease, presenceLease] =
      .ok (weekLedger.taken presenceLease) ∧
    ∃ target, observeAll weekPolicy weekLedger [initialLease, initialLease, presenceLease] =
      .ok target ∧ ∀ last, [initialLease, initialLease, presenceLease].getLast? = some last →
        target.counts = last.counts := by
  have issued : issueAll weekPolicy weekLedger [initialLease, presenceLease] =
      .ok (weekLedger.taken presenceLease) := by decide +kernel
  have free : CollisionFree {weekPolicy.hashed} := Set.injOn_singleton ..
  exact ⟨issued, (renewal_ledgers_agree free weekLedger_new rfl).1 _ _ initialLease [presenceLease] _
    issued (List.Sublist.refl _) rfl (.again initialLease 1 (.again presenceLease 0 .nil))⟩

end Supgang.Threshold.Renewal
