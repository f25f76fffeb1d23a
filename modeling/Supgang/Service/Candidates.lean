/-
# Service.Candidates — the candidates a service publishes, and those its owner declared

`service/interface_refresh.rs` and `service/config.rs`. What the interfaces offer fills the places
that the owner's forwards leave. A list of candidates is strictly sorted by its components, so it is
its set, and every fact below is about sets and sizes.

* `Sorted.ext`, `sortCandidates_sorted`, `mem_sortCandidates` — sorted lists and their sets.
* `bound_spec`, `Replaced` — what is left of the interfaces, and of the candidates.
* `interface_refresh_stable` — **a refresh is bounded, keeps the forwards and settles at once**.
* `Serves` — the forwards an automatic service has saved, over all its starts.
* `declared_forward_starts` — **when a saved forward lets a later start go on**;
  `declared_forward_stops` — an interface that has got the address stops it.
-/
import Supgang.Service.InterfaceRefresh

namespace Supgang.Service.Gateway

set_option autoImplicit false

open Theory List Record

/-! ## Sorted lists -/

theorem sortKey_address_injective : Function.Injective SocketAddr.sortKey := by
  have octets {n : Nat} {a b : FixedBytes n} (same : a.1.map UInt8.toNat = b.1.map UInt8.toNat) :
      a = b :=
    Subtype.ext (map_injective_iff.mpr (fun _ _ => UInt8.toNat_inj.mp) same)
  intro a b same
  cases a <;> cases b <;> simp only [SocketAddr.sortKey, cons_append, List.cons.injEq] at same
  · obtain ⟨address, port⟩ := append_inj' same.2 rfl
    rw [octets address, UInt16.toNat_inj.mp (singleton_inj.mp port)]
  · exact absurd same.1 (by decide)
  · exact absurd same.1 (by decide)
  · obtain ⟨address, rest⟩ := append_inj' same.2 rfl
    simp only [List.cons.injEq, and_true] at rest
    rw [octets address, UInt16.toNat_inj.mp rest.1, UInt32.toNat_inj.mp rest.2.1,
      UInt32.toNat_inj.mp rest.2.2]

theorem sortKey_injective : Function.Injective EndpointCandidate.sortKey := by
  rintro ⟨kind, transport, address⟩ ⟨kind', transport', address'⟩ same
  obtain ⟨kinds, -, addresses⟩ := by
    simpa only [EndpointCandidate.sortKey, List.cons.injEq] using same
  obtain rfl := sortKey_address_injective addresses
  cases transport
  cases transport'
  cases kind <;> cases kind' <;> first | rfl | exact absurd kinds (by decide)

/-- Strictly sorted, as `sort_unstable` and `dedup` leave a list. -/
def Sorted (candidates : List EndpointCandidate) : Prop :=
  candidates.Pairwise fun first second => first.sortKey < second.sortKey

variable {candidates : List EndpointCandidate} {c : EndpointCandidate} {kind : CandidateKind}
  {addresses : List SocketAddr}

theorem Sorted.nodup (sorted : Sorted candidates) : candidates.Nodup :=
  sorted.imp fun less equal => absurd (congrArg _ equal) less.ne

theorem Sorted.ext {candidates' : List EndpointCandidate} (sorted : Sorted candidates)
    (sorted' : Sorted candidates') (same : ∀ c, c ∈ candidates ↔ c ∈ candidates') :
    candidates = candidates' := by
  refine List.Perm.eq_of_pairwise ?_ sorted sorted'
    ((perm_ext_iff_of_nodup sorted.nodup sorted'.nodup).mpr same)
  intro a b _ _ less greater
  exact absurd less greater.not_gt

theorem mem_sortCandidates : c ∈ sortCandidates candidates ↔ c ∈ candidates := by
  rw [sortCandidates, mem_destutter_ne, mem_insertionSort]

theorem sortCandidates_sorted (candidates : List EndpointCandidate) :
    Sorted (sortCandidates candidates) := by
  have ordered := (pairwise_insertionSort (fun a b : EndpointCandidate =>
    a.sortKey ≤ b.sortKey) candidates).sublist (destutter_sublist (· ≠ ·) _)
  have changes := isChain_iff_getElem.mp (isChain_destutter (· ≠ ·)
    (candidates.insertionSort fun a b => a.sortKey ≤ b.sortKey))
  have : IsTrans EndpointCandidate fun a b => a.sortKey < b.sortKey := ⟨fun _ _ _ => lt_trans⟩
  refine isChain_iff_pairwise.mp (isChain_iff_getElem.mpr fun i inside => ?_)
  refine lt_of_le_of_ne ?_ fun same => changes i inside (sortKey_injective same)
  exact pairwise_iff_getElem.mp ordered i (i + 1) _ inside (Nat.lt_succ_self i)

theorem length_sortCandidates_le (candidates : List EndpointCandidate) :
    (sortCandidates candidates).length ≤ candidates.length :=
  (destutter_sublist ..).length_le.trans (length_insertionSort ..).le

/-! ## What the interfaces offer -/

theorem mem_candidatesOf : c ∈ candidatesOf kind addresses ↔
      ∃ address ∈ addresses, EndpointCandidate.new kind .quicV1 address = .ok c := by
  rw [candidatesOf, mem_filterMap]
  refine exists_congr fun address => and_congr_right fun _ => ?_
  cases EndpointCandidate.new kind .quicV1 address <;> simp

theorem new_eq_ok {transport : CandidateTransport} {address : SocketAddr}
    (built : EndpointCandidate.new kind transport address = .ok c) :
    c = ⟨kind, transport, address.canonicalSocketAddress⟩ := by
  obtain ⟨-, -, made⟩ := bind_eq_ok.mp built
  exact (pure_eq_ok.mp made).symm

theorem kind_of_mem (member : c ∈ sortCandidates (candidatesOf kind addresses)) :
    c.kind = kind := by
  obtain ⟨address, -, built⟩ := mem_candidatesOf.mp (mem_sortCandidates.mp member)
  rw [new_eq_ok built]

/-- Every place is used, and neither kind is dropped for the other. -/
theorem bound_spec (local_ direct : List EndpointCandidate) (limit : Nat) :
    ∃ l d, boundInterfaceCandidates local_ direct limit = (l, d) ∧
      l.Sublist (sortCandidates local_) ∧ d.Sublist (sortCandidates direct) ∧
      l.length + d.length =
        min limit ((sortCandidates local_).length + (sortCandidates direct).length) ∧
      (0 < (sortCandidates local_).length → 0 < (sortCandidates direct).length → 2 ≤ limit →
        0 < l.length ∧ 0 < d.length) := by
  unfold boundInterfaceCandidates
  generalize sortCandidates local_ = l
  generalize sortCandidates direct = d
  dsimp only
  split_ifs with fits none none
  · exact ⟨l, d, rfl, .refl _, .refl _, (min_eq_right fits).symm, fun one two _ => ⟨one, two⟩⟩
  · subst none
    refine ⟨[], _, rfl, .refl _, take_sublist .., ?_, fun one => absurd one (Nat.lt_irrefl 0)⟩
    simp only [length_take, length_nil] at fits ⊢
    omega
  · subst none
    refine ⟨_, [], rfl, take_sublist .., .refl _, ?_, fun _ two => absurd two (Nat.lt_irrefl 0)⟩
    simp only [length_take, length_nil] at fits ⊢
    omega
  · refine ⟨_, _, rfl, take_sublist .., take_sublist .., ?_, fun one two room => ?_⟩
    all_goals
      simp only [length_take]
      omega

section Interfaces

variable (local_ direct : List SocketAddr) (limit : Nat)

/-- Local candidates come before direct ones. -/
theorem sorted_append {l d : List EndpointCandidate}
    (one : l.Sublist (sortCandidates (candidatesOf .local_ local_)))
    (two : d.Sublist (sortCandidates (candidatesOf .direct direct))) : Sorted (l ++ d) := by
  refine pairwise_append.mpr
    ⟨(sortCandidates_sorted _).sublist one, (sortCandidates_sorted _).sublist two, ?_⟩
  intro c first c' second
  rw [EndpointCandidate.sortKey, EndpointCandidate.sortKey, kind_of_mem (one.subset first),
    kind_of_mem (two.subset second)]
  exact .rel (by decide)

/-- The parts only have to be joined. -/
theorem interfaces_spec :
    ∃ l d, boundedAutomaticInterfacesWithLimit local_ direct limit = l ++ d ∧ Sorted (l ++ d) ∧
      (∀ c ∈ l, c.kind = .local_) ∧ (∀ c ∈ d, c.kind = .direct) ∧
      (l ++ d).length =
        min limit (candidatesOf .local_ local_ ++ candidatesOf .direct direct).toFinset.card ∧
      (candidatesOf .local_ local_ ≠ [] → candidatesOf .direct direct ≠ [] → 2 ≤ limit →
        0 < l.length ∧ 0 < d.length) := by
  obtain ⟨l, d, bounded, one, two, size, both⟩ :=
    bound_spec (candidatesOf .local_ local_) (candidatesOf .direct direct) limit
  have sorted := sorted_append local_ direct one two
  refine ⟨l, d, ?_, sorted, fun c member => kind_of_mem (one.subset member),
    fun c member => kind_of_mem (two.subset member), ?_, fun locals directs => ?_⟩
  · rw [boundedAutomaticInterfacesWithLimit, bounded]
    exact (sortCandidates_sorted _).ext sorted fun c => mem_sortCandidates
  · have distinct := (sorted_append local_ direct (.refl _) (.refl _)).nodup
    rw [length_append, size, ← length_append, ← toFinset_card_of_nodup distinct]
    congr 2
    ext c
    simp only [mem_toFinset, mem_append, mem_sortCandidates]
  · have positive {l : List EndpointCandidate} (some : l ≠ []) : 0 < (sortCandidates l).length := by
      obtain ⟨c, member⟩ := exists_mem_of_ne_nil l some
      exact length_pos_of_mem (mem_sortCandidates.mpr member)
    exact both (positive locals) (positive directs)

/-- Only the sets of the addresses matter. -/
theorem interfaces_congr {local_ direct local' direct' : List SocketAddr}
    (locals : ∀ a, a ∈ local' ↔ a ∈ local_) (directs : ∀ a, a ∈ direct' ↔ a ∈ direct) :
    boundedAutomaticInterfacesWithLimit local' direct' limit =
      boundedAutomaticInterfacesWithLimit local_ direct limit := by
  have same {kind : CandidateKind} {one two : List SocketAddr} (h : ∀ a, a ∈ one ↔ a ∈ two) :
      sortCandidates (candidatesOf kind one) = sortCandidates (candidatesOf kind two) :=
    (sortCandidates_sorted _).ext (sortCandidates_sorted _) fun c => by
      simp only [mem_sortCandidates, mem_candidatesOf, h]
  unfold boundedAutomaticInterfacesWithLimit boundInterfaceCandidates
  rw [same locals, same directs]

end Interfaces

/-! ## A refresh -/

/-- The places that the owner's forwards leave. -/
def free (candidates : List EndpointCandidate) : Nat :=
  maxCandidates - (candidates.filter ownerDeclared).length

/-- The candidates that a call leaves. -/
def afterRefresh (candidates : List EndpointCandidate) (local_ direct : List SocketAddr) :
    List EndpointCandidate :=
  (replaceInterfaceCandidates candidates local_ direct).getD candidates

/-- What `after` is made of: what the owner declared before, and what the interfaces offer. -/
structure Replaced (candidates found after : List EndpointCandidate) : Prop where
  sorted : Sorted after
  declared : after.filter ownerDeclared = candidates.filter ownerDeclared
  interfaces : after.filter ofInterface = found
  settled : ∀ c ∈ after, c.kind ≠ .reflexive

section Refresh

variable {candidates found after : List EndpointCandidate} (local_ direct : List SocketAddr)

theorem Replaced.length (replaced : Replaced candidates found after) :
    after.length = (candidates.filter ownerDeclared).length + found.length := by
  rw [length_eq_length_filter_add ownerDeclared, replaced.declared, ← replaced.interfaces]
  congr 2
  refine filter_congr fun c member => ?_
  have := replaced.settled c member
  cases kind : c.kind <;> simp_all [ownerDeclared, ofInterface]

/-- Joining what was declared with what the interfaces offer loses neither. -/
theorem replaced_sort (sorted : Sorted candidates) (limit : Nat) :
    Replaced candidates (boundedAutomaticInterfacesWithLimit local_ direct limit)
      (sortCandidates (candidates.filter ownerDeclared ++
        boundedAutomaticInterfacesWithLimit local_ direct limit)) := by
  obtain ⟨l, d, joined, foundSorted, locals, directs, -⟩ := interfaces_spec local_ direct limit
  rw [joined]
  have member (c : EndpointCandidate) :
      c ∈ sortCandidates (candidates.filter ownerDeclared ++ (l ++ d)) ↔
        (c ∈ candidates ∧ ownerDeclared c = true) ∨ (c ∈ l ++ d ∧ ofInterface c = true) := by
    rw [mem_sortCandidates, mem_append, mem_filter]
    grind [ofInterface]
  refine ⟨sortCandidates_sorted _, ?_, ?_, ?_⟩
  · refine Sorted.ext (.filter _ (sortCandidates_sorted _)) (.filter _ sorted) fun c => ?_
    rw [mem_filter, mem_filter, member]
    grind [ofInterface, ownerDeclared]
  · refine Sorted.ext (.filter _ (sortCandidates_sorted _)) foundSorted fun c => ?_
    rw [mem_filter, member]
    grind [ofInterface, ownerDeclared]
  · intro c inside
    have := (member c).mp inside
    grind [ofInterface, ownerDeclared]

theorem replaced_refresh (sorted : Sorted candidates)
    (settled : ∀ c ∈ candidates, c.kind ≠ .reflexive) :
    Replaced candidates (boundedAutomaticInterfacesWithLimit local_ direct (free candidates))
      (afterRefresh candidates local_ direct) := by
  unfold afterRefresh replaceInterfaceCandidates
  dsimp only
  split_ifs with same
  · exact ⟨sorted, rfl, same.symm, settled⟩
  · exact replaced_sort local_ direct sorted _

/-- **A refresh is bounded and settles.** Of a strictly sorted list without observed addresses, with
room for what the owner declared: the forwards stay; at most eight strictly sorted candidates are
left; every free place is used; neither kind of interface is dropped while two places are free; only
the sets of discovered addresses matter; and the same discovery changes nothing a second time. -/
theorem interface_refresh_stable (sorted : Sorted candidates)
    (settled : ∀ c ∈ candidates, c.kind ≠ .reflexive)
    (room : (candidates.filter ownerDeclared).length ≤ maxCandidates) :
    (afterRefresh candidates local_ direct).filter ownerDeclared = candidates.filter ownerDeclared ∧
      (afterRefresh candidates local_ direct).length ≤ maxCandidates ∧
      Sorted (afterRefresh candidates local_ direct) ∧
      ((afterRefresh candidates local_ direct).filter ofInterface).length = min (free candidates)
        (candidatesOf .local_ local_ ++ candidatesOf .direct direct).toFinset.card ∧
      (candidatesOf .local_ local_ ≠ [] → candidatesOf .direct direct ≠ [] → 2 ≤ free candidates →
        (∃ c ∈ afterRefresh candidates local_ direct, c.kind = .local_) ∧
          ∃ c ∈ afterRefresh candidates local_ direct, c.kind = .direct) ∧
      (∀ local' direct', (∀ a, a ∈ local' ↔ a ∈ local_) → (∀ a, a ∈ direct' ↔ a ∈ direct) →
        replaceInterfaceCandidates candidates local' direct' =
          replaceInterfaceCandidates candidates local_ direct) ∧
      replaceInterfaceCandidates (afterRefresh candidates local_ direct) local_ direct = none := by
  have replaced := replaced_refresh local_ direct sorted settled
  obtain ⟨l, d, joined, -, locals, directs, size, both⟩ :=
    interfaces_spec local_ direct (free candidates)
  refine ⟨replaced.declared, ?_, replaced.sorted, by rw [replaced.interfaces, joined, size], ?_, ?_,
    ?_⟩
  · rw [replaced.length, joined, size, free]
    omega
  · intro one two places
    have here : ∀ c ∈ l ++ d, c ∈ afterRefresh candidates local_ direct := by
      intro c member
      rw [← joined, ← replaced.interfaces] at member
      exact (mem_filter.mp member).1
    obtain ⟨some, some'⟩ := both one two places
    obtain ⟨c, first⟩ := exists_mem_of_length_pos some
    obtain ⟨c', second⟩ := exists_mem_of_length_pos some'
    exact ⟨⟨c, here c (mem_append_left _ first), locals c first⟩,
      c', here c' (mem_append_right _ second), directs c' second⟩
  · intro local' direct' locals directs
    simp only [replaceInterfaceCandidates, interfaces_congr _ locals directs]
  · unfold replaceInterfaceCandidates
    rw [replaced.declared, replaced.interfaces]
    exact if_pos rfl

end Refresh

/-! ## Declared forwards -/

inductive ConfigError where
  | invalidConfiguration
deriving DecidableEq

def interfaceAddresses (candidates : List EndpointCandidate) (kind : CandidateKind) :
    List SocketAddr :=
  (candidates.filter (·.kind = kind)).map (·.address)

def boundedAutomaticInterfaces (local_ direct : List SocketAddr)
    (declared : List EndpointCandidate) : List EndpointCandidate :=
  sortCandidates (declared.filter ownerDeclared ++
    boundedAutomaticInterfacesWithLimit local_ direct (free declared))

/-- A declared address, unless it is one already. -/
def mappedCandidate (candidates : List EndpointCandidate) (address : SocketAddr) :
    Except ConfigError EndpointCandidate := do
  let candidate ← (EndpointCandidate.new .mapped .quicV1 address).mapError fun _ =>
    ConfigError.invalidConfiguration
  reject (∃ existing ∈ candidates, existing.address = address) ConfigError.invalidConfiguration
  return candidate

/-- Adds owner-declared public addresses that a gateway forwards to the listening socket. -/
def withMappedAddresses (listen : SocketAddr) (candidates : List EndpointCandidate)
    (addresses : List SocketAddr) : Except ConfigError (List EndpointCandidate) := do
  reject (addresses ≠ [] ∧ listen.ip.isLoopback) ConfigError.invalidConfiguration
  let added ← addresses.mapM (mappedCandidate candidates)
  let declared := candidates ++ added
  reject (maxCandidates < (declared.filter ownerDeclared).length) ConfigError.invalidConfiguration
  return boundedAutomaticInterfaces (interfaceAddresses declared .local_)
    (interfaceAddresses declared .direct) declared

/-- The configuration of an automatic start from what the interfaces show. -/
def automaticStart (listen : SocketAddr) (local_ direct : List SocketAddr) :
    Except ConfigError (List EndpointCandidate) := do
  reject (listen.port = 0) ConfigError.invalidConfiguration
  let count := local_.length + direct.length
  reject (count = 0 ∨ maxCandidates < count) ConfigError.invalidConfiguration
  let build := fun kind => mapM fun address =>
    (EndpointCandidate.new kind .quicV1 address).mapError fun _ => ConfigError.invalidConfiguration
  let candidates ← withMappedAddresses listen
    (sortCandidates ((← build .local_ local_) ++ (← build .direct direct))) []
  return boundedAutomaticInterfaces (interfaceAddresses candidates .local_)
    (interfaceAddresses candidates .direct) candidates

/-- The checks of a saved policy that concern its forwards. -/
def mappedValid (mapped : List SocketAddr) : Bool :=
  mapped.length ≤ 4 && mapped.all (fun address =>
    (EndpointCandidate.new .mapped .quicV1 address).isOk && address matches .v4 ..) && mapped.Nodup

/-- The unspecified address, on which an automatic service listens. -/
def anyAddress (port : UInt16) : SocketAddr := .v6 (FixedBytes.replicate 16 0) port 0 0

/-- What is saved and configured after a call that returned `Ok`; `done` is whether membership is
live, the policy is saved and a contact is signed. -/
def addMappedEndpoint (port : UInt16) (saved : List SocketAddr)
    (candidates : List EndpointCandidate) (address : SocketAddr) (done : Bool) :
    Option (List SocketAddr × List EndpointCandidate) :=
  if address ∈ saved then some (saved, candidates)
  else do
    guard (mappedValid (saved ++ [address]))
    let replacement ← (withMappedAddresses (anyAddress port) candidates [address]).toOption
    guard done
    return (saved ++ [address], replacement)

/-- The saved forwards and the candidates of an automatic service, over all its starts. -/
inductive Serves : List SocketAddr → List EndpointCandidate → Prop where
  | first {port : UInt16} {local_ direct : List SocketAddr} {candidates : List EndpointCandidate}
      (started : automaticStart (anyAddress port) local_ direct = .ok candidates) :
      Serves [] candidates
  | again {port : UInt16} {saved local_ direct : List SocketAddr}
      {old candidates after : List EndpointCandidate} (serves : Serves saved old)
      (started : automaticStart (anyAddress port) local_ direct = .ok candidates)
      (mapped : withMappedAddresses (anyAddress port) candidates saved = .ok after) :
      Serves saved after
  | refreshed {saved : List SocketAddr} {candidates : List EndpointCandidate}
      (serves : Serves saved candidates) (local_ direct : List SocketAddr) :
      Serves saved (afterRefresh candidates local_ direct)
  | added {port : UInt16} {saved saved' : List SocketAddr}
      {candidates candidates' : List EndpointCandidate} {address : SocketAddr} {done : Bool}
      (serves : Serves saved candidates)
      (added : addMappedEndpoint port saved candidates address done = some (saved', candidates')) :
      Serves saved' candidates'

section Forwards

variable {ε α β : Type} {f : α → Except ε β} {values : List α}

theorem mem_of_mapM {results : List β} (ran : values.mapM f = .ok results) :
    (∀ a ∈ values, ∃ b ∈ results, f a = .ok b) ∧ ∀ b ∈ results, ∃ a ∈ values, f a = .ok b := by
  induction values generalizing results with
  | nil =>
    cases pure_eq_ok.mp ran
    simp
  | cons a values ih =>
    simp only [mapM_cons, ok_steps] at ran
    obtain ⟨b, first, rest, ran, rfl⟩ := ran
    have := ih ran
    grind

theorem mapM_eq_map {g : α → β} (each : ∀ a ∈ values, f a = .ok (g a)) :
    values.mapM f = .ok (values.map g) := by
  induction values with
  | nil => rfl
  | cons a values ih =>
    rw [forall_mem_cons] at each
    rw [mapM_cons, each.1, ih each.2]
    rfl

variable {port : UInt16} {saved local_ direct : List SocketAddr}
  {candidates later : List EndpointCandidate} {c : EndpointCandidate}

theorem Serves.valid (serves : Serves saved candidates) : mappedValid saved = true := by
  induction serves with
  | first => rfl
  | again _ _ _ ih => exact ih
  | refreshed _ _ _ ih => exact ih
  | added _ added ih =>
    unfold addMappedEndpoint at added
    split at added
    · cases added
      exact ih
    · simp only [Option.bind_eq_bind, Option.bind_eq_some_iff] at added
      obtain ⟨_, valid, _, -, _, -, same⟩ := added
      cases same
      simpa using valid

/-- Beside the forwards, only what the interfaces offer is configured. -/
theorem bounded_undeclared (none : ∀ c ∈ candidates, ownerDeclared c = false)
    (member : c ∈ boundedAutomaticInterfaces local_ direct candidates) :
    ownerDeclared c = false := by
  obtain ⟨l, d, joined, -, locals, directs, -⟩ := interfaces_spec local_ direct (free candidates)
  rw [boundedAutomaticInterfaces, mem_sortCandidates, mem_append, mem_filter, joined] at member
  grind [ownerDeclared]

theorem start_undeclared {listen : SocketAddr}
    (started : automaticStart listen local_ direct = .ok later) :
    ∀ c ∈ later, ownerDeclared c = false := by
  simp only [automaticStart, withMappedAddresses, ok_steps, mapM_nil] at started
  obtain ⟨-, -, -, -, l, locals, d, directs, -, ⟨-, -, -, rfl, -, -, rfl⟩, rfl⟩ := started
  refine fun c => bounded_undeclared fun c => bounded_undeclared fun c member => ?_
  rw [append_nil, mem_sortCandidates, mem_append] at member
  rcases member with member | member
  · obtain ⟨_, -, built⟩ := (mem_of_mapM locals).2 c member
    rw [new_eq_ok (mapError_eq_ok.mp built)]
    rfl
  · obtain ⟨_, -, built⟩ := (mem_of_mapM directs).2 c member
    rw [new_eq_ok (mapError_eq_ok.mp built)]
    rfl

/-- A saved forward as a candidate. -/
def forward (address : SocketAddr) : EndpointCandidate := ⟨.mapped, .quicV1, address⟩

theorem new_forward {address : SocketAddr} (valid : mappedValid saved = true)
    (member : address ∈ saved) :
    EndpointCandidate.new .mapped .quicV1 address = .ok (forward address) := by
  simp only [mappedValid, Bool.and_eq_true, all_eq_true] at valid
  obtain ⟨built, four⟩ := valid.1.2 address member
  cases address with
  | v6 => simp at four
  | v4 octets port =>
    cases made : EndpointCandidate.new .mapped .quicV1 (.v4 octets port) with
    | error => simp [made, Except.isOk, Except.toBool] at built
    | ok c => rw [new_eq_ok made]; rfl

/-- **A declared forward and a later start.** It goes on just where no candidate of the later
start's interfaces has the address and port of a saved forward; then at most eight strictly sorted
candidates are configured, every forward among them. -/
theorem declared_forward_starts (serves : Serves saved candidates)
    (started : automaticStart (anyAddress port) local_ direct = .ok later) :
    (∃ after, withMappedAddresses (anyAddress port) later saved = .ok after ∧
      after.length ≤ maxCandidates ∧ Sorted after ∧
      ∀ address ∈ saved, ∃ c ∈ after, c.kind = .mapped ∧ c.address = address) ↔
      ∀ address ∈ saved, ∀ c ∈ later, c.address ≠ address := by
  have none := filter_eq_nil_iff.mpr fun c member => by
    simpa using start_undeclared started c member
  have few : saved.length ≤ 4 := by
    have valid := serves.valid
    simp only [mappedValid, Bool.and_eq_true, decide_eq_true_eq] at valid
    exact valid.1.1
  constructor
  · rintro ⟨after, ran, -⟩ address member c inside same
    obtain ⟨_, -, ran⟩ := bind_eq_ok.mp ran
    obtain ⟨added, mapped, -⟩ := bind_eq_ok.mp ran
    obtain ⟨_, -, made⟩ := (mem_of_mapM mapped).1 address member
    simp only [mappedCandidate, ok_steps] at made
    obtain ⟨_, -, _, apart, -⟩ := made
    exact apart ⟨c, inside, same⟩
  · intro apart
    have mapped : saved.mapM (mappedCandidate later) = .ok (saved.map forward) := by
      refine mapM_eq_map fun address member => ?_
      have free : ¬∃ existing ∈ later, existing.address = address := by
        rintro ⟨c, inside, same⟩
        exact apart address member c inside same
      simp only [mappedCandidate, new_forward serves.valid member, reject_bind, if_neg free]
      rfl
    have own : (later ++ saved.map forward).filter ownerDeclared = saved.map forward := by
      rw [filter_append, none, nil_append]
      exact filter_eq_self.mpr (by simp [forward, ownerDeclared])
    generalize all : later ++ saved.map forward = declared at own
    obtain ⟨l, d, joined, -, -, -, size, -⟩ := interfaces_spec (interfaceAddresses declared .local_)
      (interfaceAddresses declared .direct) (Gateway.free declared)
    have room : Gateway.free declared + saved.length = maxCandidates := by
      rw [Gateway.free, own, length_map]
      exact Nat.sub_add_cancel (few.trans (by decide))
    refine ⟨sortCandidates (saved.map forward ++ (l ++ d)), ?_, ?_, sortCandidates_sorted _,
      fun address member => ⟨forward address, ?_, rfl, rfl⟩⟩
    · have fits : ¬maxCandidates < saved.length := not_lt.mpr (few.trans (by decide))
      simp only [withMappedAddresses, mapped, reject_bind, ok_bind, all, own, length_map, if_neg fits,
        boundedAutomaticInterfaces, joined]
      rw [if_neg fun h => by cases h.2]
      rfl
    · refine (length_sortCandidates_le _).trans ?_
      rw [length_append, size, length_map]
      exact (Nat.add_le_add_left (min_le_left _ _) _).trans (by omega)
    · exact mem_sortCandidates.mpr (mem_append_left _ (mem_map_of_mem member))

end Forwards

/-! ## A computer at home -/

def homeLocal : SocketAddr := .v4 ⟨[192, 168, 1, 2], rfl⟩ 4433

/-- An address that the gateway forwards, until the computer itself gets it. -/
def homePublic : SocketAddr := .v4 leased.1 4433

theorem interface_refresh_stable_home : Sorted [forward homePublic] ∧
    replaceInterfaceCandidates (afterRefresh [forward homePublic] [homeLocal] []) [homeLocal] [] =
      none :=
  have sorted : Sorted [forward homePublic] := pairwise_singleton ..
  ⟨sorted, (interface_refresh_stable [homeLocal] [] sorted (by decide) (by decide)).2.2.2.2.2.2⟩

theorem home_serves : ∃ candidates, Serves [homePublic] candidates :=
  have started : automaticStart (anyAddress 4433) [homeLocal] [] =
      .ok [⟨.local_, .quicV1, homeLocal⟩] := by decide +kernel
  have added : addMappedEndpoint 4433 [] [⟨.local_, .quicV1, homeLocal⟩] homePublic true =
      some ([homePublic], [⟨.local_, .quicV1, homeLocal⟩, forward homePublic]) := by decide +kernel
  ⟨_, .added (.first started) added⟩

theorem declared_forward_starts_home : ∃ after,
    withMappedAddresses (anyAddress 4433) [⟨.local_, .quicV1, homeLocal⟩] [homePublic] = .ok after ∧
      Sorted after := by
  obtain ⟨candidates, serves⟩ := home_serves
  have started : automaticStart (anyAddress 4433) [homeLocal] [] =
      .ok [⟨.local_, .quicV1, homeLocal⟩] := by decide +kernel
  obtain ⟨after, ran, -, sorted, -⟩ := (declared_forward_starts serves started).mpr (by decide)
  exact ⟨after, ran, sorted⟩

/-- The computer has got the forwarded address itself, and does not start any more. -/
theorem declared_forward_stops : ∃ candidates later, Serves [homePublic] candidates ∧
    automaticStart (anyAddress 4433) [homeLocal] [homePublic] = .ok later ∧
    withMappedAddresses (anyAddress 4433) later [homePublic] = .error .invalidConfiguration := by
  obtain ⟨candidates, serves⟩ := home_serves
  refine ⟨candidates, [⟨.local_, .quicV1, homeLocal⟩, ⟨.direct, .quicV1, homePublic⟩], serves, ?_⟩
  decide +kernel

end Supgang.Service.Gateway
