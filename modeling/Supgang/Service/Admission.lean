/-
# Service.Admission — what one source address may start

`service/admission.rs`. A session costs work before its peer is known, so each source gets one
handshake in a window of thirty seconds, and a second one once it has completed an authenticated
session. The table of windows is bounded: when it is full the oldest window makes room.

* `allow`, `noteAuthenticated` — the two calls, over the table of windows.
* `Paced` — what the admissions of one source look like, by the window it has now; `Paced.opened`
  and `Paced.again` are the two ways it gets another one.
* `inbound_admission_bounded` — **the table and every source are bounded**.
-/
import Supgang.Hive.Candidate
import Supgang.Theory.Maps

namespace Supgang.Service

set_option autoImplicit false

open Theory List Record

/-! ## Sources -/

/-- The one spelling of a source: an IPv4 address, or the /64 prefix of an IPv6 address. -/
def canonicalSource : IpAddr → IpAddr
  | .v6 octets =>
    match SocketAddr.toIpv4Mapped octets with
    | some octets => .v4 octets
    | none => .v6 ⟨octets.1.take 8 ++ replicate 8 0, by simp [octets.2]⟩
  | .v4 octets => .v4 octets

/-- IPv4 addresses come first; those of one family are ordered by their octets. -/
def addressKey : IpAddr → Bytes
  | .v4 octets => 4 :: octets.1
  | .v6 octets => 6 :: octets.1

instance : Ord IpAddr := ⟨compareOn addressKey⟩

instance : Std.TransOrd IpAddr := inferInstanceAs (Std.TransCmp (compareOn addressKey))

instance : Std.LawfulEqOrd IpAddr where
  eq_of_compare {a b} h := by
    have same := Std.LawfulEqCmp.eq_of_compare (show compare (addressKey a) (addressKey b) = .eq from h)
    cases a <;> cases b <;> simp_all [addressKey, Subtype.ext_iff]

/-! ## The table -/

def maxSessionsPerSourceWindow : Nat := 1

def maxSessionsPerAuthenticatedSourceWindow : Nat := 2

def maxTrackedSources : Nat := 64

/-- In nanoseconds, as all times here. -/
def sourceWindow : Nat := 30 * 10 ^ 9

structure SourceWindow where
  started : Nat
  admitted : Nat
  authenticated : Bool

def SourceWindow.running (now : Nat) (window : SourceWindow) : Bool :=
  decide (now - window.started < sourceWindow)

def SourceWindow.limit (window : SourceWindow) : Nat :=
  if window.authenticated then maxSessionsPerAuthenticatedSourceWindow
  else maxSessionsPerSourceWindow

abbrev InboundAdmission := Std.ExtTreeMap IpAddr SourceWindow

/-- The windows that have not ended. -/
def retain (sources : InboundAdmission) (now : Nat) : InboundAdmission :=
  sources.filter fun _ window => window.running now

/-- The first of the windows that started earliest. -/
def oldest (sources : InboundAdmission) : Option (IpAddr × SourceWindow) :=
  first (fun _ window => sources.toList.all fun other => window.started ≤ other.2.started) sources

def allow (sources : InboundAdmission) (address : SocketAddr) (now : Nat) :
    Bool × InboundAdmission :=
  let sources := retain sources now
  let source := canonicalSource address.ip
  match sources[source]? with
  | some window =>
    if window.limit ≤ window.admitted then (false, sources)
    else (true, sources.insert source { window with admitted := min 255 (window.admitted + 1) })
  | none =>
    let window : SourceWindow := { started := now, admitted := 1, authenticated := false }
    if maxTrackedSources ≤ sources.size then
      match oldest sources with
      | none => (false, sources)
      | some (oldest, _) => (true, (sources.erase oldest).insert source window)
    else (true, sources.insert source window)

def noteAuthenticated (sources : InboundAdmission) (address : SocketAddr) (now : Nat) :
    InboundAdmission :=
  let source := canonicalSource address.ip
  match sources[source]? with
  | some window =>
    if window.running now then sources.insert source { window with authenticated := true }
    else sources
  | none => sources

/-! ## Runs -/

inductive Call where
  | allow (address : SocketAddr)
  | noteAuthenticated (address : SocketAddr)

/-- The table, and the times at which each source was admitted, newest first. -/
structure Admitted where
  sources : InboundAdmission
  times : IpAddr → List Nat

def Admitted.call (before : Admitted) : Call × Nat → Admitted
  | (.allow address, now) =>
    let source := canonicalSource address.ip
    let (admitted, sources) := allow before.sources address now
    ⟨sources, if admitted then Function.update before.times source (now :: before.times source)
      else before.times⟩
  | (.noteAuthenticated address, now) =>
    { before with sources := noteAuthenticated before.sources address now }

def Admitted.after (calls : List (Call × Nat)) : Admitted := calls.foldl .call ⟨∅, fun _ => []⟩

/-- The sources that ask for admission in the thirty seconds from `start` on. -/
def sourcesFrom (start : Nat) (calls : List (Call × Nat)) : List IpAddr :=
  (calls.filterMap fun
    | (.allow address, now) =>
      if start ≤ now ∧ now < start + sourceWindow then some (canonicalSource address.ip) else none
    | (.noteAuthenticated _, _) => none).dedup

/-- Some call reports the source as authenticated. -/
def Reported (calls : List (Call × Nat)) (source : IpAddr) : Prop :=
  ∃ address now, (Call.noteAuthenticated address, now) ∈ calls ∧ canonicalSource address.ip = source

/-! ## One source -/

section Source

variable {reported : Prop} {window : Option SourceWindow} {held : SourceWindow}
  {now later start : Nat} {times : List Nat}

/-- The admissions in the thirty seconds from `start` on. -/
def within (start : Nat) (times : List Nat) : Nat :=
  times.countP fun time => start ≤ time ∧ time < start + sourceWindow

/-- The admissions of a source, newest first, whose latest window opened at `start`. -/
structure Paced (reported : Prop) (window : Option SourceWindow) (now : Nat) (times : List Nat)
    (start : Nat) : Prop where
  past : ∀ time ∈ times, time ≤ now
  few : ∀ x, within x times ≤ 3
  second : times.countP (start < ·) ≤ 1
  held : ∀ held, window = some held → held.started = start ∧ start ≤ now ∧ 1 ≤ held.admitted ∧
    (held.admitted = 1 → times.countP (start < · + sourceWindow) ≤ 2 ∧ ∀ time ∈ times, time ≤ start) ∧
    (held.authenticated = true → reported)
  ended : window = none → times = [] ∨ start + sourceWindow ≤ now
  spaced : ¬reported → (∀ time ∈ times, time ≤ start) ∧
    times.Pairwise fun later earlier => earlier + sourceWindow ≤ later

theorem within_cons (few : ∀ x, within x times ≤ 3)
    (recent : times.countP (now < · + sourceWindow) ≤ 2) (x : Nat) :
    within x (now :: times) ≤ 3 := by
  rw [within, countP_cons]
  split
  · rename_i inside
    refine Nat.succ_le_succ (le_trans (countP_mono_left fun time _ there => ?_) recent)
    simp only [decide_eq_true_eq] at inside there ⊢
    omega
  · exact few x

theorem Paced.mono {reported' : Prop} (paced : Paced reported window now times start)
    (order : now ≤ later) (known : reported → reported') :
    Paced reported' window later times start where
  past time member := (paced.past time member).trans order
  few := paced.few
  second := paced.second
  held held kept := by
    obtain ⟨opened, began, some_, first, source⟩ := paced.held held kept
    exact ⟨opened, began.trans order, some_, first, known ∘ source⟩
  ended gone := (paced.ended gone).imp_right (·.trans order)
  spaced unreported := paced.spaced (unreported ∘ known)

theorem Paced.retain (paced : Paced reported window now times start) :
    Paced reported (window.filter (·.running now)) now times start :=
  { paced with
    held := fun held kept => paced.held held (Option.filter_eq_some_iff.mp kept).1
    ended := fun gone => by
      cases window with
      | none => exact paced.ended rfl
      | some held =>
        obtain ⟨opened, began, -⟩ := paced.held held rfl
        simp only [Option.filter_some, SourceWindow.running, decide_eq_true_eq,
          ite_eq_right_iff, reduceCtorEq, imp_false] at gone
        exact .inr (by omega) }

/-- A new window opens: of the one before, only the second admission is less than thirty seconds
old. -/
theorem Paced.opened (paced : Paced reported none now times start) :
    Paced reported (some ⟨now, 1, false⟩) now (now :: times) now := by
  have recent : times.countP (now < · + sourceWindow) ≤ 1 := by
    rcases paced.ended rfl with rfl | ended
    · exact Nat.zero_le _
    · refine le_trans (countP_mono_left fun time _ recent => ?_) paced.second
      simp only [decide_eq_true_eq] at recent ⊢
      omega
  have past : ∀ time ∈ now :: times, time ≤ now := forall_mem_cons.mpr ⟨le_rfl, paced.past⟩
  refine ⟨past, within_cons paced.few (recent.trans one_le_two), ?_, ?_, nofun, fun unreported => ?_⟩
  · rw [countP_eq_zero.mpr fun time member => by simpa using past time member]
    exact Nat.zero_le 1
  · rintro _ ⟨⟩
    refine ⟨rfl, le_rfl, le_rfl, fun _ => ⟨?_, past⟩, nofun⟩
    rw [countP_cons]
    split <;> omega
  · obtain ⟨before, spaced⟩ := paced.spaced unreported
    refine ⟨past, pairwise_cons.mpr ⟨fun time member => ?_, spaced⟩⟩
    rcases paced.ended rfl with rfl | ended
    · cases member
    · exact (Nat.add_le_add_right (before time member) _).trans ended

/-- An authenticated source is admitted a second time in its window. -/
theorem Paced.again (paced : Paced reported (some held) now times start)
    (under : held.admitted < held.limit) :
    Paced reported (some { held with admitted := min 255 (held.admitted + 1) }) now (now :: times)
      start := by
  obtain ⟨opened, began, some_, first, source⟩ := paced.held held rfl
  have both : held.admitted = 1 ∧ held.authenticated = true := by
    unfold SourceWindow.limit maxSessionsPerAuthenticatedSourceWindow maxSessionsPerSourceWindow
      at under
    split at under
    · exact ⟨by omega, by assumption⟩
    · omega
  obtain ⟨one, authenticated⟩ := both
  obtain ⟨recent, before⟩ := first one
  rw [one]
  refine ⟨forall_mem_cons.mpr ⟨le_rfl, paced.past⟩, within_cons paced.few ?_, ?_, ?_, nofun,
    fun unreported => absurd (source authenticated) unreported⟩
  · refine le_trans (countP_mono_left fun time _ late => ?_) recent
    simp only [decide_eq_true_eq] at late ⊢
    omega
  · rw [countP_cons, countP_eq_zero.mpr fun time member => by simpa using before time member]
    split <;> omega
  · rintro _ ⟨⟩
    exact ⟨opened, began, one_le_two, nofun, source⟩

theorem Paced.noted (paced : Paced reported (some held) now times start) (source : reported) :
    Paced reported (some { held with authenticated := true }) now times start :=
  { paced with
    held := by
      rintro _ ⟨⟩
      obtain ⟨opened, began, some_, first, -⟩ := paced.held held rfl
      exact ⟨opened, began, some_, first, fun _ => source⟩
    ended := nofun }

end Source

/-! ## Every source -/

section Table

variable {sources kept : InboundAdmission} {address : SocketAddr} {now : Nat}
  {calls all : List (Call × Nat)} {before : Admitted} {source : IpAddr}

theorem size_allow_le (small : sources.size ≤ maxTrackedSources) :
    (allow sources address now).2.size ≤ maxTrackedSources := by
  have kept : (retain sources now).size ≤ maxTrackedSources :=
    Std.ExtTreeMap.size_filter_le_size.trans small
  unfold allow
  dsimp only
  split
  · rename_i window found
    split
    · exact kept
    · rw [Std.ExtTreeMap.size_insert,
        if_pos (Std.ExtTreeMap.mem_iff_contains.mp (mem_of_getElem? found))]
      exact kept
  · split
    · split
      · exact kept
      · rename_i least
        exact size_insert_le.trans ((size_erase_lt (first_spec least).1).trans_le kept)
    · rename_i room
      exact size_insert_le.trans (not_le.mp room)

theorem size_noteAuthenticated : (noteAuthenticated sources address now).size = sources.size := by
  unfold noteAuthenticated
  dsimp only
  split
  · rename_i found
    split
    · rw [Std.ExtTreeMap.size_insert,
        if_pos (Std.ExtTreeMap.mem_iff_contains.mp (mem_of_getElem? found))]
    · rfl
  · rfl

theorem size_after_le (calls : List (Call × Nat)) :
    (Admitted.after calls).sources.size ≤ maxTrackedSources := by
  induction calls using reverseRecOn with
  | nil => exact Nat.zero_le _
  | append_singleton calls call ih =>
    rw [Admitted.after, foldl_concat]
    match call with
    | (.allow address, now) => exact size_allow_le ih
    | (.noteAuthenticated address, now) => exact size_noteAuthenticated.trans_le ih

/-- What calls have left at a time: each window was opened by one of them, and each source is
paced. -/
structure Sound (calls : List (Call × Nat)) (now : Nat) (admitted : Admitted) : Prop where
  asked : ∀ source held, admitted.sources[source]? = some held →
    ∃ address, (Call.allow address, held.started) ∈ calls ∧ canonicalSource address.ip = source
  paced : ∀ source, ∃ start,
    Paced (Reported calls source) admitted.sources[source]? now (admitted.times source) start

theorem getElem?_retain : (retain sources now)[source]? =
    sources[source]?.filter (SourceWindow.running now) := Std.ExtTreeMap.getElem?_filter'

namespace Sound

theorem mono (sound : Sound calls now before) {more : List (Call × Nat)} {later : Nat}
    (order : now ≤ later) (extends_ : calls ⊆ more) : Sound more later before where
  asked source held found := by
    obtain ⟨address, made, same⟩ := sound.asked source held found
    exact ⟨address, extends_ made, same⟩
  paced source := by
    obtain ⟨start, paced⟩ := sound.paced source
    refine ⟨start, paced.mono order ?_⟩
    rintro ⟨address, at_, made, same⟩
    exact ⟨address, at_, extends_ made, same⟩

theorem retain (sound : Sound calls now before) :
    Sound calls now { before with sources := retain before.sources now } where
  asked source held found := by
    rw [getElem?_retain, Option.filter_eq_some_iff] at found
    exact sound.asked source held found.1
  paced source := by
    obtain ⟨start, paced⟩ := sound.paced source
    rw [getElem?_retain]
    exact ⟨start, paced.retain⟩

/-- One source's window is replaced. -/
theorem insert (sound : Sound calls now before) {held : SourceWindow} {times : List Nat}
    {start : Nat} (paced : Paced (Reported calls source) (some held) now times start)
    (asked : ∃ address, (Call.allow address, held.started) ∈ calls ∧
      canonicalSource address.ip = source) :
    Sound calls now
      ⟨before.sources.insert source held, Function.update before.times source times⟩ where
  asked other window found := by
    rw [getElem?_insert_eq] at found
    split at found
    · rename_i same
      cases found
      exact same ▸ asked
    · exact sound.asked other window found
  paced other := by
    rw [getElem?_insert_eq]
    split
    · rename_i same
      subst same
      exact ⟨start, by simpa only [Function.update_self] using paced⟩
    · rename_i different
      simpa only [Function.update_of_ne (Ne.symm different)] using sound.paced other

/-- While there is room, nothing is evicted: the source's own window is opened, counted or full. -/
theorem allow (sound : Sound calls now before)
    (made : (Call.allow address, now) ∈ calls)
    (room : (Service.retain before.sources now)[canonicalSource address.ip]? = none →
      (Service.retain before.sources now).size < maxTrackedSources) :
    Sound calls now (before.call (.allow address, now)) := by
  have kept := sound.retain
  obtain ⟨start, paced⟩ := kept.paced (canonicalSource address.ip)
  dsimp only at paced
  cases found : (Service.retain before.sources now)[canonicalSource address.ip]? with
  | some held =>
    rw [found] at paced
    by_cases full : held.limit ≤ held.admitted
    · simpa only [Admitted.call, Service.allow, found, if_pos full, Bool.false_eq_true, if_false]
        using kept
    · simp only [Admitted.call, Service.allow, found, if_neg full, if_true]
      exact kept.insert (paced.again (not_le.mp full)) (kept.asked _ held found)
  | none =>
    rw [found] at paced
    simp only [Admitted.call, Service.allow, found, if_neg (not_le.mpr (room found)), if_true]
    exact kept.insert paced.opened ⟨address, made, rfl⟩

theorem noteAuthenticated (sound : Sound calls now before)
    (made : (Call.noteAuthenticated address, now) ∈ calls) :
    Sound calls now (before.call (.noteAuthenticated address, now)) := by
  obtain ⟨start, paced⟩ := sound.paced (canonicalSource address.ip)
  unfold Admitted.call Service.noteAuthenticated
  dsimp only
  split
  · rename_i held found
    rw [found] at paced
    split
    · have noted := sound.insert (paced.noted ⟨address, now, made, rfl⟩)
        (sound.asked _ held found)
      rwa [Function.update_eq_self] at noted
    · exact sound
  · exact sound

/-- The running windows were all opened in the last thirty seconds. -/
theorem size_lt (sound : Sound calls now before)
    (crowd : ∀ start, (sourcesFrom start calls).length ≤ maxTrackedSources)
    (made : (Call.allow address, now) ∈ calls)
    (missing : (Service.retain before.sources now)[canonicalSource address.ip]? = none) :
    (Service.retain before.sources now).size < maxTrackedSources := by
  have inside : ∀ address at_, (Call.allow address, at_) ∈ calls → at_ ≤ now →
      now - at_ < sourceWindow →
      canonicalSource address.ip ∈ sourcesFrom (now + 1 - sourceWindow) calls := by
    intro address at_ made before recent
    refine mem_dedup.mpr (mem_filterMap.mpr ⟨_, made, if_pos ?_⟩)
    omega
  refine (size_lt_of_mem ?_ (inside address now made le_rfl ?_) ?_).trans_le (crowd _)
  · intro key member
    obtain ⟨held, found⟩ := exists_getElem? member
    obtain ⟨start, paced⟩ := sound.retain.paced key
    obtain ⟨asking, opened, rfl⟩ := sound.retain.asked key held found
    obtain ⟨rfl, began, -⟩ := paced.held held found
    rw [getElem?_retain, Option.filter_eq_some_iff] at found
    exact inside asking held.started opened began (of_decide_eq_true found.2)
  · rw [Nat.sub_self]
    decide
  · intro member
    obtain ⟨held, found⟩ := exists_getElem? member
    rw [missing] at found
    cases found

end Sound

theorem after_sound (crowd : ∀ start, (sourcesFrom start all).length ≤ maxTrackedSources)
    (calls_ : calls ⊆ all) (ordered : calls.Pairwise fun earlier later => earlier.2 ≤ later.2)
    (past : ∀ call ∈ calls, call.2 ≤ now) : Sound all now (Admitted.after calls) := by
  induction calls using reverseRecOn generalizing now with
  | nil =>
    refine ⟨fun source held found => ?_, fun source => ⟨0, nofun, fun _ => Nat.zero_le _,
      Nat.zero_le _, fun held found => ?_, fun _ => .inl rfl, fun _ => ⟨nofun, .nil⟩⟩⟩ <;>
    simp [Admitted.after] at found
  | append_singleton calls call ih =>
    obtain ⟨before, -, earlier⟩ := pairwise_append.mp ordered
    obtain ⟨inside, made⟩ := append_subset.mp calls_
    have made := made mem_cons_self
    have sound := ih inside before fun other member => earlier other member call mem_cons_self
    refine Sound.mono ?_ (past call (mem_append_right _ mem_cons_self)) (Subset.refl _)
    rw [Admitted.after, foldl_concat]
    match call with
    | (.allow address, now) => exact sound.allow made (sound.size_lt crowd made)
    | (.noteAuthenticated address, now) => exact sound.noteAuthenticated made

end Table

/-- **Inbound admission is bounded per source.** After any calls in the order of time at most
sixty-four sources are tracked. If no more than sixty-four sources ask in any thirty seconds, every
source has at most three admissions in each thirty seconds, wherever they start, and a source that
was never reported as authenticated has its admissions thirty seconds apart. -/
theorem inbound_admission_bounded (calls : List (Call × Nat))
    (ordered : calls.Pairwise fun earlier later => earlier.2 ≤ later.2) :
    (Admitted.after calls).sources.size ≤ maxTrackedSources ∧
    ((∀ start, (sourcesFrom start calls).length ≤ maxTrackedSources) → ∀ source,
      (¬Reported calls source → ((Admitted.after calls).times source).Pairwise
        fun later earlier => earlier + sourceWindow ≤ later) ∧
      ∀ start, within start ((Admitted.after calls).times source) ≤ 3) := by
  refine ⟨size_after_le calls, fun crowd source => ?_⟩
  obtain ⟨last, past⟩ : ∃ last, ∀ call ∈ calls, call.2 ≤ last :=
    ⟨(calls.map (·.2)).sum, fun call member => le_sum_of_mem (mem_map_of_mem member)⟩
  obtain ⟨start, paced⟩ := (after_sound crowd (Subset.refl _) ordered past).paced source
  exact ⟨fun unreported => (paced.spaced unreported).2, paced.few⟩

/-! ## A return after authentication -/

def remote : SocketAddr := .v4 ⟨[192, 0, 2, 9], rfl⟩ 40000

/-- The same address, written as an IPv6 one. -/
def remoteMapped : SocketAddr :=
  .v6 ⟨replicate 10 0 ++ [0xff, 0xff, 192, 0, 2, 9], rfl⟩ 40001 0 0

def returning : List (Call × Nat) :=
  [(.allow remote, 0), (.allow remoteMapped, 5), (.noteAuthenticated remoteMapped, 6),
    (.allow remoteMapped, 7), (.allow remote, 8), (.allow remote, sourceWindow)]

theorem inbound_admission_bounded_returning :
    (Admitted.after returning).times remote.ip = [sourceWindow, 7, 0] ∧
    ∀ start, within start ((Admitted.after returning).times remote.ip) ≤ 3 := by
  have ordered : returning.Pairwise fun earlier later => earlier.2 ≤ later.2 := by decide
  refine ⟨by decide +kernel, ((inbound_admission_bounded returning ordered).2 ?_ _).2⟩
  intro start
  exact ((dedup_sublist _).length_le.trans (length_filterMap_le _ _)).trans (by decide)

end Supgang.Service
