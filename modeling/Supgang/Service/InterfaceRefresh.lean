/-
# Service.InterfaceRefresh — what the service is told about its gateway

`router_mapping.rs` and `service/interface_refresh.rs`. A mapper asks the local gateway for a public
address; the service loop is told of its status through a rate limiter that remembers what it has
published. A network change and a repeated failure of interface discovery are reported past the
limiter, which does not learn of them.

* `refreshServiceCandidates` — one call; `Reports` is every run of calls with what they reported.
* `Remembers` — what the limiter knows of the reports: at most four mapped ones in its window.
* `withdrawn_not_published`, `mapping_renewed` — no withdrawn mapping stays published, and stable
  mappings are reported again.
* `Heard`, `Follows` — the calls whose reports past the limiter do it no harm, and what the limiter
  then knows; `Follows.turned` — what is reported last is what the mapper shows.
* `gateway_reports_true` — **what the service is told**, all of it.
* `remembered_mapping_unreported` — a mapper that is back at the same address right after a network
  change is not reported.
-/
import Supgang.Service.ContactState

namespace Supgang.Service.Gateway

set_option autoImplicit false

open Theory List Record

/-! ## The mapper -/

/-- An IPv4 socket. -/
structure SocketAddrV4 where
  octets : FixedBytes 4
  port : UInt16
deriving DecidableEq

/-- Current state of automatic local-router mapping. -/
inductive RouterMappingStatus where
  | disabled
  | checking
  | unavailable
  | mapped (address : SocketAddrV4)
deriving DecidableEq

def RouterMappingStatus.isMapped : RouterMappingStatus → Bool
  | mapped _ => true
  | _ => false

/-- Time after which an absent usable mapping is reported as unavailable. -/
def mappingCheckWindow : Nat := 5 * nanosPerSecond

/-- The lease on the gateway, as its watch shows it. -/
structure RouterMapping where
  external : Option SocketAddrV4
  /-- The watch holds a value that has not been observed. -/
  hasChanged : Bool
  started : Nat
  awaitingNetworkRefresh : Bool
deriving DecidableEq

def classifyExternal (value : Option SocketAddrV4) : Option RouterMappingStatus :=
  value.bind fun address =>
    match EndpointCandidate.new .mapped .quicV1 (.v4 address.octets address.port) with
    | .ok _ => some (.mapped address)
    | .error _ => none

namespace RouterMapping

def start (clock : Nat) : RouterMapping := ⟨none, false, clock, false⟩

/-- The gateway task has put a value on the watch. -/
def receive (mapping : RouterMapping) (value : Option SocketAddrV4) : RouterMapping :=
  { mapping with external := value, hasChanged := true }

/-- Removes the old lease and probes the newly selected gateway. -/
def networkChanged (mapping : RouterMapping) (clock : Nat) : RouterMapping :=
  { mapping with started := clock, awaitingNetworkRefresh := true }

/-- Stops mapping after repeated interface-discovery failure. -/
def networkUnavailable (mapping : RouterMapping) (clock : Nat) : RouterMapping :=
  { mapping with started := clock, awaitingNetworkRefresh := true }

/-- What is said of a mapping that is not there. -/
def absent (mapping : RouterMapping) (clock : Nat) : RouterMappingStatus :=
  if clock - mapping.started < mappingCheckWindow then .checking else .unavailable

def status (mapping : RouterMapping) (clock : Nat) : RouterMappingStatus :=
  if mapping.awaitingNetworkRefresh then mapping.absent clock
  else (classifyExternal mapping.external).getD (mapping.absent clock)

/-- Marks the latest value of the watch observed. -/
def takeChange (mapping : RouterMapping) : RouterMapping :=
  if mapping.hasChanged then { mapping with hasChanged := false, awaitingNetworkRefresh := false }
  else mapping

end RouterMapping

/-! ## The limiter -/

def routerMappingUpdateWindow : Nat := 5 * 60 * nanosPerSecond
def maxRouterMappingUpdatesPerWindow : UInt8 := 4
def interfaceFailuresBeforeClear : UInt8 := 2

structure RouterMappingUpdateBudget where
  windowStarted : Nat
  updates : UInt8
  published : Option RouterMappingStatus
  renewAt : Nat
deriving DecidableEq

namespace RouterMappingUpdateBudget

def new (now : Nat) : RouterMappingUpdateBudget := ⟨now, 0, none, now⟩

/-- The window that `now` is in. -/
def current (budget : RouterMappingUpdateBudget) (now : Nat) : RouterMappingUpdateBudget :=
  if routerMappingUpdateWindow ≤ now - budget.windowStarted then
    { budget with windowStarted := now, updates := 0 }
  else budget

/-- One more update in the window, if it has room for it. -/
def allow (budget : RouterMappingUpdateBudget) (now : Nat) : Option RouterMappingUpdateBudget :=
  let budget := budget.current now
  if maxRouterMappingUpdatesPerWindow ≤ budget.updates then none
  else some { budget with updates := budget.updates + 1 }

/-- Withdrawal is never delayed. Stable leases need fresh signed claims too, even when their external
address has not changed. -/
def observe (budget : RouterMappingUpdateBudget) (latest : RouterMappingStatus) (now : Nat) :
    RouterMappingUpdateBudget × Option RouterMappingStatus :=
  let publish := fun budget : RouterMappingUpdateBudget =>
    ({ budget with published := some latest, renewAt := now + routerMappingUpdateWindow },
      some latest)
  if budget.published = some latest ∧ (latest.isMapped = false ∨ now < budget.renewAt) then
    (budget, none)
  else if latest.isMapped then
    match budget.allow now with
    | some budget => publish budget
    | none => (budget.current now, none)
  else publish budget

end RouterMappingUpdateBudget

/-! ## The candidates of the interfaces -/

def sortCandidates (candidates : List EndpointCandidate) : List EndpointCandidate :=
  (candidates.insertionSort fun a b => a.sortKey ≤ b.sortKey).destutter (· ≠ ·)

/-- Drops candidates beyond the limit, keeping up to half of the room for direct ones. -/
def boundInterfaceCandidates (local_ direct : List EndpointCandidate) (limit : Nat) :
    List EndpointCandidate × List EndpointCandidate :=
  let local_ := sortCandidates local_
  let direct := sortCandidates direct
  if local_.length + direct.length ≤ limit then (local_, direct)
  else if local_ = [] then (local_, direct.take limit)
  else if direct = [] then (local_.take limit, direct)
  else
    let directReserve := min direct.length (limit / 2)
    let local_ := local_.take (limit - directReserve)
    (local_, direct.take (limit - local_.length))

def candidatesOf (kind : CandidateKind) (addresses : List SocketAddr) : List EndpointCandidate :=
  addresses.filterMap fun address =>
    match EndpointCandidate.new kind .quicV1 address with
    | .ok candidate => some candidate
    | .error _ => none

def boundedAutomaticInterfacesWithLimit (local_ direct : List SocketAddr) (interfaceLimit : Nat) :
    List EndpointCandidate :=
  let bounded := boundInterfaceCandidates (candidatesOf .local_ local_)
    (candidatesOf .direct direct) interfaceLimit
  sortCandidates (bounded.1 ++ bounded.2)

def ownerDeclared (candidate : EndpointCandidate) : Bool :=
  match candidate.kind with
  | .mapped | .ownedRelay => true
  | .local_ | .direct | .reflexive => false

def ofInterface (candidate : EndpointCandidate) : Bool :=
  match candidate.kind with
  | .local_ | .direct => true
  | .mapped | .ownedRelay | .reflexive => false

/-- The candidates with the interfaces' replaced, if that changes anything. -/
def replaceInterfaceCandidates (candidates : List EndpointCandidate)
    (local_ direct : List SocketAddr) : Option (List EndpointCandidate) :=
  let declared := candidates.filter ownerDeclared
  let found := boundedAutomaticInterfacesWithLimit local_ direct (maxCandidates - declared.length)
  if found = candidates.filter ofInterface then none
  else some (sortCandidates (declared ++ found))

inductive AutomaticRefresh where
  | changed (candidates : List EndpointCandidate)
  | unchanged
  | unavailable

/-- `discovered` is what the interface lookup finds, local and direct addresses. -/
def refreshAutomaticCandidates (candidates : List EndpointCandidate)
    (discovered : Option (List SocketAddr × List SocketAddr)) : AutomaticRefresh :=
  match discovered with
  | none => .unavailable
  | some (local_, direct) =>
    match replaceInterfaceCandidates candidates local_ direct with
    | some candidates => .changed candidates
    | none => .unchanged

/-! ## One call -/

/-- What the service loop keeps for its interfaces and its gateway. -/
structure Refresher where
  mapping : Option RouterMapping
  budget : RouterMappingUpdateBudget
  nextInterfaceRefresh : Nat
  config : ServiceConfig
  failures : UInt8

/-- What a call meets. -/
structure Call where
  now : Nat
  /-- The mapper reads a clock of its own. -/
  clock : Nat
  /-- A value the gateway task has put on the watch since the last call. -/
  received : Option (Option SocketAddrV4)
  discovered : Option (List SocketAddr × List SocketAddr)

structure CandidateRefresh where
  interfacesChanged : Bool
  mappingChanged : Option RouterMappingStatus

def Refresher.setMapping (refresher : Refresher) (change : RouterMapping → RouterMapping) :
    Refresher :=
  { refresher with mapping := refresher.mapping.map change }

/-- The report that takes the place of the limiter's, if there is a mapper at all. -/
def Refresher.overrule (refresher : Refresher) (reported : Option RouterMappingStatus)
    (status : RouterMappingStatus) : Option RouterMappingStatus :=
  if refresher.mapping.isSome then some status else reported

def saturatingSucc (value : UInt8) : UInt8 := if value = 255 then 255 else value + 1

/-- The interfaces are looked up again. -/
def Refresher.refreshInterfaces (refresher : Refresher) (call : Call)
    (reported : Option RouterMappingStatus) : Refresher × CandidateRefresh :=
  match refreshAutomaticCandidates refresher.config.candidates call.discovered with
  | .changed candidates =>
    ({ refresher.setMapping (·.networkChanged call.clock) with
        failures := 0, config := { refresher.config with candidates } },
      ⟨true, refresher.overrule reported .checking⟩)
  | .unchanged => ({ refresher with failures := 0 }, ⟨false, reported⟩)
  | .unavailable =>
    let failures := saturatingSucc refresher.failures
    if interfaceFailuresBeforeClear ≤ failures then
      match replaceInterfaceCandidates refresher.config.candidates [] [] with
      | some candidates =>
        ({ refresher.setMapping (·.networkUnavailable call.clock) with
            failures, config := { refresher.config with candidates } },
          ⟨true, refresher.overrule reported .unavailable⟩)
      | none => ({ refresher.setMapping (·.networkUnavailable call.clock) with failures },
          ⟨false, refresher.overrule reported .unavailable⟩)
    else ({ refresher with failures }, ⟨false, reported⟩)

/-- The limiter observes the mapper, and keeps what it has published in mind. -/
def Refresher.observeMapping (refresher : Refresher) (call : Call) :
    Refresher × Option RouterMappingStatus :=
  match refresher.mapping with
  | none => (refresher, none)
  | some mapping =>
    let mapping := mapping.takeChange
    let (budget, reported) := refresher.budget.observe (mapping.status call.clock) call.now
    ({ refresher with mapping := some mapping, budget }, reported)

def refreshServiceCandidates (refresher : Refresher) (call : Call) (interfaceRefresh : Nat) :
    Refresher × CandidateRefresh :=
  let (refresher, reported) := refresher.observeMapping call
  if refresher.config.automaticInterfaceRefresh ∧ refresher.nextInterfaceRefresh ≤ call.now then
    let (refresher, refresh) := refresher.refreshInterfaces call reported
    ({ refresher with nextInterfaceRefresh := call.now + interfaceRefresh }, refresh)
  else (refresher, ⟨false, reported⟩)

/-! ## What a call can do -/

section Observing

variable {budget budget' : RouterMappingUpdateBudget} {latest : RouterMappingStatus} {now : Nat}
  {reported : Option RouterMappingStatus}

/-- The four answers of the limiter. -/
inductive Observed (budget : RouterMappingUpdateBudget) (latest : RouterMappingStatus) (now : Nat) :
    RouterMappingUpdateBudget → Option RouterMappingStatus → Prop
  | kept (known : budget.published = some latest)
      (settled : latest.isMapped = false ∨ now < budget.renewAt) :
      Observed budget latest now budget none
  | denied (mapped : latest.isMapped = true) (full : 4 ≤ budget.updates.toNat)
      (inside : now - budget.windowStarted < routerMappingUpdateWindow) :
      Observed budget latest now budget none
  | withdrawn (absent : latest.isMapped = false) :
      Observed budget latest now { budget with
        published := some latest, renewAt := now + routerMappingUpdateWindow } (some latest)
  | granted (mapped : latest.isMapped = true)
      (due : budget.published = some latest → budget.renewAt ≤ now)
      (room : (budget.current now).updates.toNat < 4) :
      Observed budget latest now { budget.current now with
        updates := (budget.current now).updates + 1
        published := some latest, renewAt := now + routerMappingUpdateWindow } (some latest)

theorem observe_observed (budget : RouterMappingUpdateBudget) (latest : RouterMappingStatus)
    (now : Nat) : Observed budget latest now (budget.observe latest now).1
      (budget.observe latest now).2 := by
  have four : maxRouterMappingUpdatesPerWindow.toNat = 4 := rfl
  unfold RouterMappingUpdateBudget.observe
  dsimp only
  split
  · rename_i kept
    exact .kept kept.1 kept.2
  · rename_i unsettled
    split
    · rename_i mapped
      unfold RouterMappingUpdateBudget.allow
      dsimp only
      by_cases full : maxRouterMappingUpdatesPerWindow ≤ (budget.current now).updates
      · rw [if_pos full]
        have full := UInt8.le_iff_toNat_le.mp full
        -- A window that has just begun is not full.
        have same : budget.current now = budget ∧
            now - budget.windowStarted < routerMappingUpdateWindow := by
          unfold RouterMappingUpdateBudget.current at full ⊢
          split
          · rename_i lapsed
            rw [if_pos lapsed] at full
            rw [four] at full
            exact absurd full (by decide : ¬4 ≤ UInt8.toNat 0)
          · rename_i inside
            exact ⟨rfl, not_le.mp inside⟩
        rw [same.1, four] at full
        simp only [same.1]
        exact .denied mapped full same.2
      · rw [if_neg full]
        have room := UInt8.lt_iff_toNat_lt.mp (not_le.mp full)
        refine .granted mapped (fun known => ?_) room
        by_contra early
        exact unsettled ⟨known, .inr (not_le.mp early)⟩
    · rename_i absent
      exact .withdrawn (by simpa using absent)

end Observing

/-- The refresher after the watch has received what the gateway task put on it. -/
def Refresher.receive (refresher : Refresher) (call : Call) : Refresher :=
  match call.received with
  | some value => refresher.setMapping (·.receive value)
  | none => refresher

/-- The status of the mapper that a call observes. -/
def Refresher.shown (refresher : Refresher) (call : Call) : Option RouterMappingStatus :=
  (refresher.receive call).mapping.map fun mapping => mapping.takeChange.status call.clock

/-- What the lookup of the interfaces reports past the limiter. -/
def Refresher.lookedUp (refresher : Refresher) (call : Call) : Option RouterMappingStatus :=
  match refreshAutomaticCandidates refresher.config.candidates call.discovered with
  | .changed _ => some .checking
  | .unchanged => none
  | .unavailable =>
    if interfaceFailuresBeforeClear ≤ saturatingSucc refresher.failures then some .unavailable
    else none

/-- What the call reports past the limiter: a network change, or discovery failing again. -/
def Refresher.overruled (refresher : Refresher) (call : Call) : Option RouterMappingStatus :=
  if refresher.config.automaticInterfaceRefresh ∧ refresher.nextInterfaceRefresh ≤ call.now then
    refresher.lookedUp call
  else none

/-- The status of the mapper, if there is one. -/
def Refresher.status (refresher : Refresher) (clock : Nat) : Option RouterMappingStatus :=
  refresher.mapping.map (·.status clock)

/-- One report. -/
structure Report where
  time : Nat
  status : RouterMappingStatus
deriving DecidableEq

/-- One call of a run, with everything reported so far. -/
def turn (interfaceRefresh : Nat) (refresher : Refresher) (call : Call) :
    Refresher × Option RouterMappingStatus :=
  let (after, refresh) := refreshServiceCandidates (refresher.receive call) call interfaceRefresh
  (after, refresh.mappingChanged)

/-- What a call does to a service with a mapper. -/
structure Turned (refresher : Refresher) (call : Call) (latest : RouterMappingStatus)
    (after : Refresher) (reported : Option RouterMappingStatus) : Prop where
  observed : ∃ answer, Observed refresher.budget latest call.now after.budget answer ∧
    reported = (refresher.overruled call).or answer
  shows : after.status call.clock =
    some (if (refresher.overruled call).isSome then .checking else latest)

variable {call : Call} {mapping : RouterMapping} {refresher : Refresher}

theorem overruled_cases {status : RouterMappingStatus}
    (found : refresher.overruled call = some status) : status = .checking ∨ status = .unavailable := by
  unfold Refresher.overruled Refresher.lookedUp at found
  split at found
  · split at found
    · exact .inl (Option.some.inj found).symm
    · cases found
    · split at found
      · exact .inr (Option.some.inj found).symm
      · cases found
  · cases found

theorem overruled_absent {status : RouterMappingStatus}
    (found : refresher.overruled call = some status) : status.isMapped = false := by
  rcases overruled_cases found with rfl | rfl <;> rfl

theorem observeMapping_eq (held : refresher.mapping = some mapping) :
    refresher.observeMapping call = ({ refresher with
      mapping := some mapping.takeChange
      budget := (refresher.budget.observe (mapping.takeChange.status call.clock) call.now).1 },
      (refresher.budget.observe (mapping.takeChange.status call.clock) call.now).2) := by
  unfold Refresher.observeMapping
  rw [held]

/-- A mapper that has just been told of its network is checking. -/
theorem status_of_change (mapping : RouterMapping) (clock : Nat) :
    (mapping.networkChanged clock).status clock = .checking ∧
      (mapping.networkUnavailable clock).status clock = .checking := by
  have inside : clock - clock < mappingCheckWindow := by
    rw [Nat.sub_self]
    decide
  have absent (other : RouterMapping) (same : other.started = clock) :
      other.absent clock = .checking := by
    rw [RouterMapping.absent, same, if_pos inside]
  exact ⟨absent _ rfl, absent _ rfl⟩

/-- What the lookup of the interfaces does to the mapper and to the report. -/
theorem refreshInterfaces_turned (held : refresher.mapping = some mapping) (call : Call)
    (reported : Option RouterMappingStatus) :
    (refresher.refreshInterfaces call reported).1.budget = refresher.budget ∧
      (refresher.refreshInterfaces call reported).2.mappingChanged =
        (refresher.lookedUp call).or reported ∧
      (refresher.refreshInterfaces call reported).1.status call.clock =
        some (if (refresher.lookedUp call).isSome then .checking else mapping.status call.clock) := by
  have overruled : ∀ status, refresher.overrule reported status = some status := by
    intro status
    rw [Refresher.overrule, held]
    rfl
  obtain ⟨changed, unavailable⟩ := status_of_change mapping call.clock
  unfold Refresher.refreshInterfaces Refresher.lookedUp
  cases refreshAutomaticCandidates refresher.config.candidates call.discovered with
  | changed candidates =>
    refine ⟨rfl, overruled _, ?_⟩
    simp only [Refresher.status, Refresher.setMapping, held, Option.map_some, changed]
    rfl
  | unchanged =>
    refine ⟨rfl, rfl, ?_⟩
    simp only [Refresher.status, held, Option.map_some]
    rfl
  | unavailable =>
    by_cases repeated : interfaceFailuresBeforeClear ≤ saturatingSucc refresher.failures
    · simp only [if_pos repeated]
      split <;>
      · refine ⟨rfl, overruled _, ?_⟩
        simp only [Refresher.status, Refresher.setMapping, held, Option.map_some, unavailable]
        rfl
    · simp only [if_neg repeated]
      refine ⟨trivial, rfl, ?_⟩
      simp only [Refresher.status, held, Option.map_some]
      rfl

theorem receive_frame (refresher : Refresher) (call : Call) :
    (refresher.receive call).budget = refresher.budget ∧
      (refresher.receive call).overruled call = refresher.overruled call := by
  unfold Refresher.receive
  split <;> exact ⟨rfl, rfl⟩

theorem refreshServiceCandidates_turned (interfaceRefresh : Nat)
    (held : refresher.mapping = some mapping) :
    Turned refresher call (mapping.takeChange.status call.clock)
      (refreshServiceCandidates refresher call interfaceRefresh).1
      (refreshServiceCandidates refresher call interfaceRefresh).2.mappingChanged := by
  have observed := observe_observed refresher.budget (mapping.takeChange.status call.clock) call.now
  unfold refreshServiceCandidates
  rw [observeMapping_eq held]
  generalize refresher.budget.observe (mapping.takeChange.status call.clock) call.now = answer
    at observed ⊢
  dsimp only
  by_cases due : refresher.config.automaticInterfaceRefresh = true ∧
      refresher.nextInterfaceRefresh ≤ call.now
  · rw [if_pos due]
    have overruled_eq : refresher.overruled call = refresher.lookedUp call := if_pos due
    let middle : Refresher :=
      { refresher with mapping := some mapping.takeChange, budget := answer.1 }
    have held' : middle.mapping = some mapping.takeChange := rfl
    obtain ⟨budget_eq, changed_eq, shows⟩ := refreshInterfaces_turned held' call answer.2
    refine ⟨⟨answer.2, ?_, ?_⟩, ?_⟩
    · rw [show _ = middle.budget from budget_eq]
      exact observed
    · rw [overruled_eq]
      exact changed_eq
    · rw [overruled_eq]
      exact shows
  · rw [if_neg due]
    have calm : refresher.overruled call = none := if_neg due
    exact ⟨⟨_, observed, by rw [calm]; rfl⟩, by rw [calm]; rfl⟩

theorem turn_turned (interfaceRefresh : Nat) {latest : RouterMappingStatus}
    (shown : refresher.shown call = some latest) :
    Turned refresher call latest (turn interfaceRefresh refresher call).1
      (turn interfaceRefresh refresher call).2 := by
  obtain ⟨mapping, held, rfl⟩ := Option.map_eq_some_iff.mp shown
  obtain ⟨budget_eq, overruled_eq⟩ := receive_frame refresher call
  obtain ⟨observed, shows⟩ := @refreshServiceCandidates_turned call _ _ interfaceRefresh held
  rw [budget_eq, overruled_eq] at observed
  rw [overruled_eq] at shows
  exact ⟨observed, shows⟩

/-! ## Runs -/

def logged (log : List Report) (now : Nat) (reported : Option RouterMappingStatus) : List Report :=
  log ++ reported.toList.map (⟨now, ·⟩)

/-- The call shows a mapping, and the limiter's window has no room for it. -/
def Refresher.refused (refresher : Refresher) (call : Call) : Bool :=
  (refresher.shown call).any (·.isMapped) &&
    decide (4 ≤ (refresher.budget.current call.now).updates.toNat)

/-- The service was last told of a network change, and the limiter has had no room for what the
mapper showed since. -/
def Refresher.unheard (refresher : Refresher) (unheard : Bool) (call : Call) : Bool :=
  (refresher.overruled call).isSome || unheard && refresher.refused call

/-- Every run of a service with a mapper, all of whose calls meet `P`: the time of the last call,
whether the limiter has yet to hear of a network change, the service and everything that was
reported. -/
inductive Reports (interfaceRefresh : Nat) (P : Bool → Refresher → Call → Prop) :
    Nat → Bool → Refresher → List Report → Prop
  | start {refresher : Refresher} {now : Nat} (fresh : refresher.budget = .new now)
      (enabled : refresher.mapping.isSome = true) :
      Reports interfaceRefresh P now false refresher []
  | call {refresher : Refresher} {log : List Report} {time : Nat} {unheard : Bool} (call : Call)
      (before : Reports interfaceRefresh P time unheard refresher log) (later : time ≤ call.now)
      (meets : P unheard refresher call) :
      Reports interfaceRefresh P call.now (refresher.unheard unheard call)
        (turn interfaceRefresh refresher call).1
        (logged log call.now (turn interfaceRefresh refresher call).2)

/-- How many mapped statuses were reported since this time. -/
def mappedSince (log : List Report) (since : Nat) : Nat :=
  log.countP fun report => decide (since ≤ report.time) && report.status.isMapped

/-- What the limiter knows of the reports. -/
structure Remembers (time : Nat) (budget : RouterMappingUpdateBudget) (log : List Report) : Prop where
  told : budget.published ≠ none → log ≠ []
  last : ∀ then_ address, log.getLast? = some ⟨then_, .mapped address⟩ →
    budget.published = some (.mapped address) ∧ budget.renewAt = then_ + routerMappingUpdateWindow ∧
      budget.windowStarted ≤ then_
  counted : mappedSince log budget.windowStarted ≤ budget.updates.toNat
  few : budget.updates.toNat ≤ 4
  recent : ∀ report ∈ log, report.status.isMapped = true →
    report.time < budget.windowStarted + routerMappingUpdateWindow
  begun : budget.windowStarted ≤ time

section Logs

variable {log : List Report} {now since : Nat} {status : RouterMappingStatus}

theorem logged_none : logged log now none = log := append_nil log

theorem logged_some : logged log now (some status) = log ++ [⟨now, status⟩] := rfl

theorem logged_last : (logged log now (some status)).getLast? = some ⟨now, status⟩ := by
  rw [logged_some, List.getLast?_concat]

theorem mappedSince_logged (inside : since ≤ now) :
    mappedSince (logged log now (some status)) since =
      mappedSince log since + if status.isMapped then 1 else 0 := by
  rw [logged_some, mappedSince, countP_append, countP_singleton, mappedSince]
  simp [inside]

/-- Before a window begins, nothing is reported in it. -/
theorem mappedSince_eq_zero (earlier : ∀ report ∈ log, report.status.isMapped = true →
    report.time < since) : mappedSince log since = 0 := by
  rw [mappedSince, countP_eq_zero]
  intro report inside
  simp only [Bool.and_eq_true, decide_eq_true_eq, not_and, Bool.not_eq_true]
  intro late
  cases mapped : report.status.isMapped with
  | false => rfl
  | true => exact absurd (earlier report inside mapped) (not_lt.mpr late)

end Logs

section Remembering

variable {time now : Nat} {budget budget' : RouterMappingUpdateBudget} {log : List Report}
  {latest : RouterMappingStatus} {answer : Option RouterMappingStatus}

/-- The window that `now` is in, and what was reported in it. -/
theorem Remembers.current (remembers : Remembers time budget log) (later : time ≤ now) :
    (budget.current now).windowStarted ≤ now ∧
      now < (budget.current now).windowStarted + routerMappingUpdateWindow ∧
      mappedSince log (budget.current now).windowStarted ≤ (budget.current now).updates.toNat ∧
      ∀ report ∈ log, report.status.isMapped = true →
        report.time < (budget.current now).windowStarted + routerMappingUpdateWindow := by
  have positive : 0 < routerMappingUpdateWindow := by decide
  have begun := remembers.begun
  unfold RouterMappingUpdateBudget.current
  split
  · rename_i lapsed
    have earlier : ∀ report ∈ log, report.status.isMapped = true → report.time < now := by
      intro report inside mapped
      have := remembers.recent report inside mapped
      omega
    refine ⟨le_rfl, Nat.lt_add_of_pos_right positive, ?_, fun report inside mapped => ?_⟩
    · rw [mappedSince_eq_zero earlier]
      exact Nat.zero_le _
    · exact (earlier report inside mapped).trans (Nat.lt_add_of_pos_right positive)
  · rename_i inside
    exact ⟨by omega, by omega, remembers.counted, remembers.recent⟩

theorem succ_toNat {updates : UInt8} (room : updates.toNat < 4) :
    (updates + 1).toNat = updates.toNat + 1 := by
  have one : UInt8.toNat 1 = 1 := rfl
  rw [UInt8.toNat_add, one, Nat.mod_eq_of_lt (by omega)]

/-- Another report takes the place of the limiter's answer. -/
theorem Remembers.overruled (remembers : Remembers time budget log) (later : time ≤ now)
    (observed : Observed budget latest now budget' answer) {status : RouterMappingStatus}
    (absent : status.isMapped = false) : Remembers now budget' (logged log now (some status)) := by
  have facts : budget'.windowStarted ≤ now ∧
      mappedSince log budget'.windowStarted ≤ budget'.updates.toNat ∧ budget'.updates.toNat ≤ 4 ∧
      ∀ report ∈ log, report.status.isMapped = true →
        report.time < budget'.windowStarted + routerMappingUpdateWindow := by
    cases observed with
    | kept _ _ | denied _ _ _ | withdrawn _ =>
      exact ⟨remembers.begun.trans later, remembers.counted, remembers.few, remembers.recent⟩
    | granted mapped due room =>
      obtain ⟨begun, -, counted, recent⟩ := remembers.current later
      dsimp only
      rw [succ_toNat room]
      exact ⟨begun, counted.trans (Nat.le_succ _), room, recent⟩
  obtain ⟨begun, counted, few, recent⟩ := facts
  refine ⟨fun _ => by simp [logged_some], fun then_ address last => ?_, ?_, few, ?_, begun⟩
  · rw [logged_last] at last
    cases last
    cases absent
  · rw [mappedSince_logged begun, absent]
    exact counted
  · intro report inside mapped
    rw [logged_some, mem_append, mem_singleton] at inside
    rcases inside with old | rfl
    · exact recent report old mapped
    · rw [absent] at mapped
      cases mapped

/-- The limiter's answer is what is reported. -/
theorem Remembers.answered (remembers : Remembers time budget log) (later : time ≤ now)
    (observed : Observed budget latest now budget' answer) :
    Remembers now budget' (logged log now answer) := by
  cases observed with
  | kept _ _ | denied _ _ _ =>
    rw [logged_none]
    exact ⟨remembers.told, remembers.last, remembers.counted, remembers.few, remembers.recent,
      remembers.begun.trans later⟩
  | withdrawn absent => exact remembers.overruled later (.withdrawn absent) absent
  | granted mapped due room =>
    obtain ⟨begun, inside, counted, recent⟩ := remembers.current later
    refine ⟨fun _ => by simp [logged_some], fun then_ address last => ?_, ?_, ?_, ?_, begun⟩
    · rw [logged_last] at last
      cases last
      exact ⟨rfl, rfl, begun⟩
    · rw [mappedSince_logged begun, mapped, if_pos rfl, succ_toNat room]
      exact Nat.succ_le_succ counted
    · rw [succ_toNat room]
      exact room
    · intro report among isMapped
      rw [logged_some, mem_append, mem_singleton] at among
      rcases among with old | rfl
      · exact recent report old isMapped
      · exact inside

/-- The limiter counts what it grants. -/
theorem Observed.counts (observed : Observed budget latest now budget' answer)
    (remembers : Remembers time budget log) (later : time ≤ now)
    (counted : mappedSince log budget.windowStarted = budget.updates.toNat) :
    mappedSince (logged log now answer) budget'.windowStarted = budget'.updates.toNat := by
  cases observed with
  | kept _ _ | denied _ _ _ =>
    rw [logged_none]
    exact counted
  | withdrawn absent =>
    rw [mappedSince_logged (remembers.begun.trans later), absent]
    exact counted
  | granted mapped due room =>
    obtain ⟨begun, inside, atMost, -⟩ := remembers.current later
    have current : mappedSince log (budget.current now).windowStarted =
        (budget.current now).updates.toNat := by
      unfold RouterMappingUpdateBudget.current at atMost ⊢
      split
      · rename_i lapsed
        rw [if_pos lapsed] at atMost
        exact Nat.le_zero.mp atMost
      · exact counted
    rw [mappedSince_logged begun, mapped, if_pos rfl, succ_toNat room, current]

/-- Where nothing mapped is to be reported, nothing is granted. -/
theorem Observed.spends_nothing (observed : Observed budget latest now budget' answer)
    (settled : latest.isMapped = true → budget.published = some latest ∧ now < budget.renewAt) :
    budget'.windowStarted = budget.windowStarted ∧ budget'.updates = budget.updates := by
  cases observed with
  | kept _ _ | denied _ _ _ | withdrawn _ => exact ⟨rfl, rfl⟩
  | granted mapped due room =>
    obtain ⟨known, early⟩ := settled mapped
    exact absurd (due known) (not_le.mpr early)

end Remembering

/-! ## What is reported is true -/

/-- The call does not find discovery failing again; it finds no network change while a mapping is
still to be reported; and where the limiter has yet to hear of a network change, it does not show
what the limiter remembers, save that it is checking or a mapping that is due again. -/
def Heard (unheard : Bool) (refresher : Refresher) (call : Call) : Prop :=
  refresher.overruled call ≠ some .unavailable ∧
  ∀ latest ∈ refresher.shown call,
    ((refresher.overruled call).isSome = true → latest.isMapped = true →
      refresher.budget.published = some latest ∧ call.now < refresher.budget.renewAt) ∧
    (unheard = true → refresher.overruled call = none →
      refresher.budget.published = some latest →
        latest = .checking ∨ latest.isMapped = true ∧ refresher.budget.renewAt ≤ call.now)

instance (unheard : Bool) (refresher : Refresher) (call : Call) :
    Decidable (Heard unheard refresher call) := by
  unfold Heard
  infer_instance

section Truth

variable {interfaceRefresh time : Nat} {P : Bool → Refresher → Call → Prop} {unheard : Bool}
  {refresher : Refresher} {log : List Report}

theorem shown_of_enabled (enabled : refresher.mapping.isSome = true) (call : Call) :
    ∃ latest, refresher.shown call = some latest := by
  obtain ⟨mapping, held⟩ := Option.isSome_iff_exists.mp enabled
  unfold Refresher.shown Refresher.receive
  split
  · exact ⟨_, by rw [Refresher.setMapping, held]; rfl⟩
  · exact ⟨_, by rw [held]; rfl⟩

variable {call : Call}

variable {latest status : RouterMappingStatus} {after : Refresher}
  {reported : Option RouterMappingStatus} {address : SocketAddrV4}

theorem Turned.enabled (turned : Turned refresher call latest after reported) :
    after.mapping.isSome = true := by
  obtain ⟨mapping, held, -⟩ := Option.map_eq_some_iff.mp turned.shows
  rw [held]
  rfl

theorem Turned.remembers (turned : Turned refresher call latest after reported)
    (remembers : Remembers time refresher.budget log) (later : time ≤ call.now) :
    Remembers call.now after.budget (logged log call.now reported) := by
  obtain ⟨answer, observed, rfl⟩ := turned.observed
  cases overruled : refresher.overruled call with
  | none => exact remembers.answered later observed
  | some status => exact remembers.overruled later observed (overruled_absent overruled)

/-- What is reported after a call. -/
def logAfter (interfaceRefresh : Nat) (refresher : Refresher) (log : List Report) (call : Call) :
    List Report :=
  logged log call.now (turn interfaceRefresh refresher call).2

section Reports

variable (reports : Reports interfaceRefresh P time unheard refresher log)

include reports

theorem Reports.remembers :
    refresher.mapping.isSome = true ∧ Remembers time refresher.budget log := by
  induction reports with
  | start fresh enabled =>
    rw [fresh]
    exact ⟨enabled, fun h => absurd rfl h, nofun, Nat.zero_le _, Nat.zero_le _, nofun, le_rfl⟩
  | call call _ later _ ih =>
    obtain ⟨latest, shown⟩ := shown_of_enabled ih.1 call
    have turned := turn_turned interfaceRefresh shown
    exact ⟨turned.enabled, turned.remembers ih.2 later⟩

/-- What the mapper shows after a call was observed by the limiter, which made the report, or there
is no mapping and a report past the limiter says so. -/
theorem Reports.shows
    (now_ : (turn interfaceRefresh refresher call).1.status call.clock = some status) :
    (status.isMapped = false ∧
      ∃ other, (turn interfaceRefresh refresher call).2 = some other ∧ other.isMapped = false) ∨
    Observed refresher.budget status call.now
      (turn interfaceRefresh refresher call).1.budget (turn interfaceRefresh refresher call).2 := by
  obtain ⟨latest, shown⟩ := shown_of_enabled reports.remembers.1 call
  obtain ⟨⟨answer, observed, reported_eq⟩, shows⟩ := turn_turned interfaceRefresh shown
  rw [shows] at now_
  rw [reported_eq]
  cases overruled : refresher.overruled call with
  | some other =>
    rw [overruled] at now_
    obtain rfl := Option.some.inj now_
    exact .inl ⟨rfl, other, rfl, overruled_absent overruled⟩
  | none =>
    rw [overruled] at now_
    obtain rfl := Option.some.inj now_
    exact .inr observed

theorem withdrawn_not_published
    (now_ : (turn interfaceRefresh refresher call).1.status call.clock = some status)
    (absent : status.isMapped = false) :
    ∃ report, (logAfter interfaceRefresh refresher log call).getLast? = some report ∧
      report.status.isMapped = false := by
  have remembers := reports.remembers.2
  unfold logAfter
  rcases reports.shows now_ with ⟨-, other, reported_eq, unmapped⟩ | observed
  · rw [reported_eq, logged_last]
    exact ⟨_, rfl, unmapped⟩
  generalize (turn interfaceRefresh refresher call).2 = answer at observed ⊢
  generalize (turn interfaceRefresh refresher call).1.budget = budget' at observed
  cases observed with
  | kept known settled =>
    rw [logged_none]
    obtain ⟨report, last⟩ := Option.isSome_iff_exists.mp
      (List.getLast?_isSome.mpr (remembers.told (by rw [known]; nofun)))
    refine ⟨report, last, ?_⟩
    obtain ⟨then_, told⟩ := report
    cases told with
    | mapped address =>
      have := (remembers.last then_ address last).1
      rw [known] at this
      obtain rfl := Option.some.inj this
      cases absent
    | disabled | checking | unavailable => rfl
  | withdrawn _ =>
    rw [logged_last]
    exact ⟨_, rfl, absent⟩
  | denied mapped _ _ | granted mapped _ _ =>
    rw [absent] at mapped
    cases mapped

theorem mapping_renewed {then_ : Nat} (last : log.getLast? = some ⟨then_, .mapped address⟩)
    (due : then_ + routerMappingUpdateWindow ≤ call.now)
    (now_ : (turn interfaceRefresh refresher call).1.status call.clock = some (.mapped address)) :
    (turn interfaceRefresh refresher call).2 = some (.mapped address) := by
  obtain ⟨published, renewed, begun⟩ := reports.remembers.2.last then_ address last
  rcases reports.shows now_ with ⟨unmapped, -⟩ | observed
  · cases unmapped
  generalize (turn interfaceRefresh refresher call).2 = answer at observed ⊢
  generalize (turn interfaceRefresh refresher call).1.budget = budget' at observed
  cases observed with
  | kept known settled =>
    rcases settled with absent | early
    · cases absent
    · rw [renewed] at early
      omega
  | denied mapped full inside => omega
  | withdrawn absent => cases absent
  | granted mapped _ room => rfl

end Reports

/-! ## What the limiter knows -/

/-- The limiter counts what is reported, and what was reported last is what it published last, or
the network change that it has yet to hear of. -/
structure Follows (unheard : Bool) (budget : RouterMappingUpdateBudget) (log : List Report) :
    Prop where
  counts : mappedSince log budget.windowStarted = budget.updates.toNat
  last : log.getLast?.map (·.status) = if unheard then some .checking else budget.published

/-- What is reported is the limiter's answer, which is what the mapper shows unless the window is
full. -/
theorem Follows.answered {budget budget' : RouterMappingUpdateBudget} {now : Nat}
    {answer : Option RouterMappingStatus} (follows : Follows unheard budget log)
    (silent : unheard = true → budget.published = some latest →
      latest = .checking ∨ latest.isMapped = true ∧ budget.renewAt ≤ now)
    (observed : Observed budget latest now budget' answer) :
    ((logged log now answer).getLast?.map (·.status) =
      if unheard && (latest.isMapped && decide (4 ≤ (budget.current now).updates.toNat)) then
        some .checking else budget'.published) ∧
    ((latest.isMapped = true →
        mappedSince (logged log now answer) (budget'.current now).windowStarted < 4) →
      (logged log now answer).getLast?.map (·.status) = some latest) := by
  have last := follows.last
  cases observed with
  | kept known settled =>
    rw [logged_none, last]
    cases unheard with
    | false => exact ⟨rfl, fun _ => known⟩
    | true =>
      have checking : latest = .checking := by
        rcases silent rfl known with same | ⟨mapped, due⟩
        · exact same
        · rcases settled with absent | early
          · rw [absent] at mapped
            cases mapped
          · exact absurd due (not_le.mpr early)
      subst checking
      exact ⟨known.symm, fun _ => rfl⟩
  | denied mapped full inside =>
    have same : budget.current now = budget := if_neg (not_le.mpr inside)
    rw [logged_none, same, mapped, decide_eq_true full, Bool.and_true, Bool.and_true]
    refine ⟨last, fun few => ?_⟩
    have := few rfl
    rw [follows.counts] at this
    omega
  | withdrawn absent =>
    rw [logged_last, absent, Bool.false_and, Bool.and_false]
    exact ⟨rfl, fun _ => rfl⟩
  | granted mapped due room =>
    rw [logged_last, decide_eq_false (not_le.mpr room), Bool.and_false, Bool.and_false]
    exact ⟨rfl, fun _ => rfl⟩

/-- A call that is heard keeps the limiter informed, and what is reported last is what the mapper
shows. -/
theorem Follows.turned (follows : Follows unheard refresher.budget log)
    (remembers : Remembers time refresher.budget log) (later : time ≤ call.now)
    (heard : Heard unheard refresher call) (shown : refresher.shown call = some latest)
    (turned : Turned refresher call latest after reported) :
    Follows (refresher.unheard unheard call) after.budget (logged log call.now reported) ∧
      ∀ status, after.status call.clock = some status →
        (status.isMapped = true → mappedSince (logged log call.now reported)
          (after.budget.current call.now).windowStarted < 4) →
        (logged log call.now reported).getLast?.map (·.status) = some status := by
  obtain ⟨⟨answer, observed, rfl⟩, shows⟩ := turned
  obtain ⟨again, calls⟩ := heard
  obtain ⟨granting, silent⟩ := calls latest shown
  rw [shows]
  unfold Refresher.unheard Refresher.refused
  rw [shown]
  cases overruled : refresher.overruled call with
  | some other =>
    obtain rfl : other = .checking :=
      (overruled_cases overruled).resolve_right fun same => again (same ▸ overruled)
    have same := observed.spends_nothing (granting (by rw [overruled]; rfl))
    have last : (logged log call.now (some .checking)).getLast?.map (·.status) = some .checking := by
      rw [logged_last]
      rfl
    refine ⟨⟨?_, last⟩, ?_⟩
    · rw [Option.some_or, same.1, same.2, mappedSince_logged (remembers.begun.trans later),
        follows.counts]
      rfl
    · rintro _ ⟨⟩ -
      exact last
  | none =>
    obtain ⟨last, told⟩ := follows.answered (fun pending => silent pending overruled) observed
    refine ⟨⟨observed.counts remembers later follows.counts, last⟩, ?_⟩
    rintro _ ⟨⟩
    exact told

theorem Reports.follows (reports : Reports interfaceRefresh Heard time unheard refresher log) :
    Follows unheard refresher.budget log := by
  induction reports with
  | start fresh _ =>
    rw [fresh]
    exact ⟨rfl, rfl⟩
  | call call before later heard ih =>
    obtain ⟨enabled, remembers⟩ := before.remembers
    obtain ⟨latest, shown⟩ := shown_of_enabled enabled call
    exact (ih.turned remembers later heard shown (turn_turned interfaceRefresh shown)).1

/-- **What the service is told about its gateway.** After every call of every run: when the mapper
shows no mapping, a mapping is not what was reported last; at most four mapped statuses are reported
in a window; and a mapping that is still there five minutes after it was reported last is reported
again. In runs whose calls are heard, what was reported last is what the mapper shows, be it a
mapping or not, while fewer than four mapped statuses were reported in the window. -/
theorem gateway_reports_true (interfaceRefresh : Nat) :
    (∀ (time : Nat) (unheard : Bool) (refresher : Refresher) (log : List Report) (call : Call),
      Reports interfaceRefresh (fun _ _ _ => True) time unheard refresher log → time ≤ call.now →
      let after := (turn interfaceRefresh refresher call).1
      let log' := logAfter interfaceRefresh refresher log call
      (∀ status, after.status call.clock = some status → status.isMapped = false →
        ∃ report, log'.getLast? = some report ∧ report.status.isMapped = false) ∧
      mappedSince log' after.budget.windowStarted ≤ 4 ∧
      (∀ then_ address, log.getLast? = some ⟨then_, .mapped address⟩ →
        then_ + routerMappingUpdateWindow ≤ call.now →
        after.status call.clock = some (.mapped address) →
        (turn interfaceRefresh refresher call).2 = some (.mapped address))) ∧
    (∀ (time : Nat) (unheard : Bool) (refresher : Refresher) (log : List Report) (call : Call),
      Reports interfaceRefresh Heard time unheard refresher log → time ≤ call.now →
      Heard unheard refresher call →
      let after := (turn interfaceRefresh refresher call).1
      let log' := logAfter interfaceRefresh refresher log call
      ∀ status, after.status call.clock = some status →
        (status.isMapped = true →
          mappedSince log' (after.budget.current call.now).windowStarted < 4) →
        log'.getLast?.map (·.status) = some status) := by
  constructor
  · intro time unheard refresher log call reports later after log'
    refine ⟨fun status shows absent => withdrawn_not_published reports shows absent, ?_,
      fun then_ address last due shows => mapping_renewed reports last due shows⟩
    have next := (reports.call call later trivial).remembers.2
    exact next.counted.trans next.few
  · intro time unheard refresher log call reports later heard
    obtain ⟨enabled, remembers⟩ := reports.remembers
    obtain ⟨latest, shown⟩ := shown_of_enabled enabled call
    exact (reports.follows.turned remembers later heard shown
      (turn_turned interfaceRefresh shown)).2

end Truth

/-! ## Back at the same address -/

/-- A public address the gateway has mapped. -/
def leased : SocketAddrV4 := ⟨⟨[8, 8, 8, 8], rfl⟩, 4433⟩

def homeAddress : SocketAddr := .v4 ⟨[192, 168, 1, 7], rfl⟩ 4433
def cafeAddress : SocketAddr := .v4 ⟨[192, 168, 2, 9], rfl⟩ 4433

/-- A service that has just started at home. -/
def atHome : Refresher where
  mapping := some (.start 0)
  budget := .new 0
  nextInterfaceRefresh := 0
  config :=
    { displayName := "node", candidates := [⟨.local_, .quicV1, homeAddress⟩], services := []
      recordLifetime := ⟨0, by decide⟩, automaticInterfaceRefresh := true }
  failures := 0

/-- The gateway maps an address. -/
def mappedCall : Call := ⟨0, 0, some (some leased), some ([homeAddress], [])⟩

/-- Five seconds later another interface address is found. -/
def movedCall : Call := ⟨5 * nanosPerSecond, 5 * nanosPerSecond, none, some ([cafeAddress], [])⟩

/-- The gateway has mapped the same address again before the next call. -/
def backCall : Call :=
  ⟨10 * nanosPerSecond, 10 * nanosPerSecond, some (some leased), some ([cafeAddress], [])⟩

/-- The address that the gateway of the other network maps. -/
def elsewhere : SocketAddrV4 := ⟨⟨[9, 9, 9, 9], rfl⟩, 4433⟩

/-- The gateway of the other network has mapped an address of its own before the next call. -/
def elsewhereCall : Call :=
  ⟨10 * nanosPerSecond, 10 * nanosPerSecond, some (some elsewhere), some ([cafeAddress], [])⟩

/-- The interval at which interfaces are looked up. -/
def fiveSeconds : Nat := 5 * nanosPerSecond

def afterMapped : Refresher := (turn fiveSeconds atHome mappedCall).1
def afterMoved : Refresher := (turn fiveSeconds afterMapped movedCall).1

/-- The mapper is back at its address and only one mapped status was reported in the window; the
last report says that it is still checking, and the call reports nothing. -/
theorem remembered_mapping_unreported :
    ∃ unheard log,
      Reports fiveSeconds (fun _ _ _ => True) (5 * nanosPerSecond) unheard afterMoved log ∧
      (turn fiveSeconds afterMoved backCall).1.status backCall.clock = some (.mapped leased) ∧
      mappedSince (logAfter fiveSeconds afterMoved log backCall)
        ((turn fiveSeconds afterMoved backCall).1.budget.current backCall.now).windowStarted = 1 ∧
      (logAfter fiveSeconds afterMoved log backCall).getLast? =
        some ⟨5 * nanosPerSecond, .checking⟩ := by
  have first : Reports fiveSeconds (fun _ _ _ => True) 0 _ afterMapped _ :=
    .call mappedCall (.start rfl rfl) le_rfl trivial
  have second : Reports fiveSeconds (fun _ _ _ => True) (5 * nanosPerSecond) _ afterMoved _ :=
    .call movedCall first (by decide) trivial
  exact ⟨_, _, second, by decide +kernel, by decide +kernel, by decide +kernel⟩

/-- After a mapping was reported and then a network change, the mapping of the other gateway is. -/
theorem gateway_reports_true_moved :
    (logAfter fiveSeconds afterMoved [⟨0, .mapped leased⟩, ⟨5 * nanosPerSecond, .checking⟩]
      elsewhereCall).getLast?.map (·.status) = some (.mapped elsewhere) := by
  have first : Reports fiveSeconds Heard 0 _ afterMapped [⟨0, .mapped leased⟩] :=
    .call mappedCall (.start rfl rfl) le_rfl (by decide +kernel)
  have second : Reports fiveSeconds Heard (5 * nanosPerSecond) _ afterMoved
      [⟨0, .mapped leased⟩, ⟨5 * nanosPerSecond, .checking⟩] :=
    .call movedCall first (by decide) (by decide +kernel)
  exact (gateway_reports_true fiveSeconds).2 _ _ afterMoved _ elsewhereCall second (by decide)
    (by decide +kernel) _ (by decide +kernel) fun _ => by decide +kernel

end Supgang.Service.Gateway
