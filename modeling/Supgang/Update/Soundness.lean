/-
# Update.Soundness — the updater keeps its way back

An installed directory always names an active release whose executable is there, and so for every
other release it names, in every state that operations and crashes between or inside them can leave.
What can be pending is never behind what is active. Only a revert lowers the active version, and it
may have done so without having succeeded: the active record is the first that it replaces.

* `Sound` — slots and identities; `Ranked` — which of two records is the older.
* `Edit.sound`, `Edit.ranked` — what every single change keeps.
* `updater_keeps_way_back` — the records, over every run.
-/
import Supgang.Update.Edits

namespace Supgang.Update

set_option autoImplicit false
set_option linter.unusedSectionVars false

open Theory Theory.Crash
open Relation (ReflTransGen TransGen)

section Runs

variable {V : Type} [Sha256] [Platform] [LinearOrder V] {m : Mandate V}
  {u t : Updates V}

/-! ## Slots -/

/-- Requirements that the platform designates are shared by all who meet one of them. -/
structure Coherent : Prop where
  symm : ∀ a b, Platform.signed a → Platform.signed b → Platform.identity a b →
    Platform.identity b a
  trans : ∀ a b c, Platform.signed a → Platform.signed b → Platform.signed c →
    Platform.identity a b → Platform.identity b c → Platform.identity a c

variable {a b : Option Bytes} {record before : SlotRecord V} {P : Updates V → Prop}

theorem Kin.symm (coherent : Coherent) (h : Kin a b) : Kin b a := by
  obtain ⟨x, y, isX, isY, signedX, signedY, same⟩ := kin_iff.mp h
  exact kin_iff.mpr ⟨y, x, isY, isX, signedY, signedX, coherent.symm x y signedX signedY same⟩

theorem Kin.trans (coherent : Coherent) {c : Option Bytes} (first : Kin a b) (second : Kin b c) :
    Kin a c := by
  obtain ⟨x, y, isX, isY, signedX, signedY, same⟩ := kin_iff.mp first
  obtain ⟨y', z, isY', isZ, -, signedZ, same'⟩ := kin_iff.mp second
  obtain rfl : y = y' := Option.some.inj (isY.symm.trans isY')
  exact kin_iff.mpr
    ⟨x, z, isX, isZ, signedX, signedZ, coherent.trans x y z signedX signedY signedZ same same'⟩

theorem Kin.of_transGen (coherent : Coherent) (h : TransGen Kin a b) : Kin a b := by
  induction h with
  | single h => exact h
  | tail _ last ih => exact ih.trans coherent last

/-- Every named release is in its slot, and of one identity with the active one. -/
structure Sound (u : Updates V) : Prop where
  holds : ∀ record ∈ u.records, u.Holds record.digest
  kin : ∀ active, u.active = some active → ∀ record ∈ u.records,
    Kin (u.executable active.digest) (u.executable record.digest)
  bare : u.active = none → u.records = [] ∧ u.fallback = none

/-- Named slots are not touched. -/
theorem Sound.slot (h : Sound u) {digest : Digest} {slots : Std.ExtTreeMap Digest (Option Bytes)}
    (free : u.executable digest = none ∨ ∀ record ∈ u.records, record.digest ≠ digest)
    (others : ∀ name, name ≠ digest → slots[name]? = u.slots[name]?) :
    Sound { u with slots } := by
  have same : ∀ record ∈ u.records,
      ({ u with slots } : Updates V).executable record.digest = u.executable record.digest := by
    intro record member
    have different : record.digest ≠ digest := by
      rcases free with empty | unnamed
      · rintro rfl
        obtain ⟨bytes, found, -⟩ := (h.holds record member).found
        rw [empty] at found
        cases found
      · exact unnamed record member
    simp only [Updates.executable, others _ different]
  refine ⟨fun record member => ?_, fun active found record member => ?_, h.bare⟩
  · rw [Updates.Holds, same record member]
    exact h.holds record member
  · rw [same record member, same active (Updates.mem_records.mpr (.inl found))]
    exact h.kin active found record member

/-- The records may come to be any that are in their slots and of the active one's identity. -/
theorem Sound.of_records (slots : t.slots = u.slots) {active : SlotRecord V}
    (found : t.active = some active)
    (each : ∀ record ∈ t.records, u.Holds record.digest ∧
      Kin (u.executable active.digest) (u.executable record.digest)) : Sound t := by
  have same : ∀ digest, t.executable digest = u.executable digest := by
    intro digest
    simp only [Updates.executable, slots]
  refine ⟨fun record member => ?_, fun other isOther record member => ?_, fun none => ?_⟩
  · rw [Updates.Holds, same]
    exact (each record member).1
  · obtain rfl : active = other := Option.some.inj (found.symm.trans isOther)
    rw [same, same]
    exact (each record member).2
  · rw [found] at none
    cases none

/-- Records may be dropped, or moved from one place to another. -/
theorem Sound.of_subset (h : Sound u) (slots : t.slots = u.slots) (active : t.active = u.active)
    (subset : ∀ record ∈ t.records, record ∈ u.records)
    (fallback : u.active = none → t.fallback = u.fallback) : Sound t := by
  cases found : u.active with
  | none =>
    obtain ⟨empty, nothing⟩ := h.bare found
    have none : t.records = [] := by
      refine List.eq_nil_iff_forall_not_mem.mpr fun record member => ?_
      have := subset record member
      rw [empty] at this
      cases this
    refine ⟨?_, ?_, fun _ => ⟨none, (fallback found).trans nothing⟩⟩
    · rw [none]; nofun
    · rw [none]; nofun
  | some a =>
    refine Sound.of_records slots (active.trans found) fun record member => ?_
    exact ⟨h.holds record (subset record member), h.kin a found record (subset record member)⟩

theorem Sound.valid (h : Sound u) {active : SlotRecord V} (found : u.active = some active)
    (member : record ∈ u.records) : u.Holds record.digest ∧
      Kin (u.executable active.digest) (u.executable record.digest) :=
  ⟨h.holds record member, h.kin active found record member⟩

/-- A change of the active record to one of the same identity. -/
theorem Sound.activate (coherent : Coherent) (h : Sound u) {authority : Option Bytes}
    (holds : u.Holds record.digest) (known : Kin authority (u.executable record.digest))
    (kin : ∀ active, u.active = some active → Kin (u.executable active.digest) (u.executable
      record.digest)) :
    Sound { u with active := some record } := by
  have self := (known.symm coherent).trans coherent known
  refine Sound.of_records rfl rfl fun other member => ?_
  rcases Updates.mem_active member with same | old
  · cases same
    exact ⟨holds, self⟩
  · cases found : u.active with
    | none =>
      rw [(h.bare found).1] at old
      cases old
    | some active =>
      refine ⟨h.holds other old, ?_⟩
      exact ((kin active found).symm coherent).trans coherent (h.kin active found other old)

theorem Edit.sound (coherent : Coherent) (h : Sound u) (edit : Edit m u t) : Sound t := by
  have dropped : ∀ {place : Option (SlotRecord V)} {record : SlotRecord V},
      place = none → place = some record ∨ record ∈ u.records → record ∈ u.records := by
    rintro _ _ rfl (absent | member)
    · cases absent
    · exact member
  cases edit with
  | slot digest free others => exact h.slot free others
  | copy => exact h.of_subset rfl rfl (fun _ => id) fun _ => rfl
  | tally allowed => exact h.of_subset rfl rfl (fun _ => id) fun _ => rfl
  | stage found holds kin newer =>
    refine Sound.of_records rfl found fun record member => ?_
    rcases Updates.mem_staged member with same | old
    · cases same
      exact ⟨holds, kin⟩
    · exact h.valid found old
  | unstage =>
    exact h.of_subset rfl rfl (fun _ member => dropped rfl (Updates.mem_staged member)) fun _ => rfl
  | arm allowed found holds kin newer =>
    refine Sound.of_records rfl found fun record member => ?_
    rcases Updates.mem_pending member with same | old
    · cases same
      exact ⟨holds, kin⟩
    · exact h.valid found old
  | disarm allowed =>
    exact h.of_subset rfl rfl (fun _ member => dropped rfl (Updates.mem_pending member)) fun _ => rfl
  | push found =>
    refine h.of_subset rfl rfl (fun record member => ?_) fun _ => rfl
    rcases Updates.mem_previous member with same | old
    · exact Updates.mem_records.mpr (.inl same)
    · exact old
  | install aims holds known above unstaged disarmed =>
    exact h.activate coherent holds known fun active found =>
      Kin.of_transGen coherent (above active found).2.1
  | commit aims found pushed armed holds kin newer =>
    refine h.activate coherent holds kin fun active isActive => ?_
    exact h.kin active isActive _ (Updates.mem_records.mpr (.inr (.inr (.inr armed))))
  | keep found =>
    refine h.of_subset rfl rfl (fun _ => id) fun none => ?_
    obtain ⟨previous, isPrevious⟩ := Option.isSome_iff_exists.mp found
    have member := Updates.mem_records.mpr (.inr (.inl isPrevious))
    rw [(h.bare none).1] at member
    cases member
  | back aims found before holds kin =>
    refine h.activate coherent holds kin fun active isActive => ?_
    exact h.kin active isActive _ (Updates.mem_records.mpr (.inr (.inl before)))
  | fall found kept holds kin =>
    refine Sound.of_records rfl found fun record member => ?_
    rcases Updates.mem_previous member with same | old
    · cases same
      exact ⟨holds, kin⟩
    · exact h.valid found old
  | forget =>
    exact h.of_subset rfl rfl (fun _ member => dropped rfl (Updates.mem_previous member)) fun _ => rfl

/-! ## Ranks -/

/-- A record is the marked one, or is of an older version. -/
def Below (mark record : SlotRecord V) : Prop := record = mark ∨ record.version < mark.version

/-- Once a marked release is active or previous, those that a revert leads on to are below it. -/
structure Layered (active previous fallback : Option (SlotRecord V)) (mark : SlotRecord V) :
    Prop where
  active : active = some mark →
    ∀ record, previous = some record ∨ fallback = some record → Below mark record
  previous : previous = some mark → ∀ record, fallback = some record → Below mark record

/-- A revert never leads to a newer version, and what is pending is not behind the active one. -/
structure Ranked (u : Updates V) : Prop where
  previous : ∀ active record, u.active = some active → u.previous = some record →
    record.version ≤ active.version
  fallback : ∀ active record, u.active = some active → u.fallback = some record →
    record.version ≤ active.version
  last : ∀ previous record, u.previous = some previous → u.fallback = some record →
    record.version ≤ previous.version
  pending : ∀ active record, u.active = some active → u.pending = some record →
    record = active ∨ active.version < record.version
  layered : ∀ mark, u.staged = some mark ∨ u.pending = some mark →
    Layered u.active u.previous u.fallback mark

/-- Nothing that a revert leads to is as new as a release newer than the active one. -/
theorem Ranked.layered_of_newer (h : Ranked u) {active mark : SlotRecord V}
    (found : u.active = some active) (newer : active.version < mark.version) :
    Layered u.active u.previous u.fallback mark := by
  refine ⟨fun same => ?_, fun same => ?_⟩
  · rw [Option.some.inj (found.symm.trans same)] at newer
    exact absurd newer (lt_irrefl _)
  · exact absurd newer (not_lt.mpr (h.previous active mark found same))

/-- What a revert leads to is no newer than the active release. -/
theorem Ranked.below (h : Ranked u) (sound : Sound u) (other : SlotRecord V)
    (is : u.previous = some other ∨ u.fallback = some other) :
    ∃ active, u.active = some active ∧ other.version ≤ active.version := by
  cases found : u.active with
  | none =>
    obtain ⟨empty, nothing⟩ := sound.bare found
    rcases is with is | is
    · have member := Updates.mem_records.mpr (.inr (.inl is))
      rw [empty] at member
      cases member
    · cases nothing.symm.trans is
  | some active =>
    refine ⟨active, rfl, ?_⟩
    rcases is with is | is
    · exact h.previous active other found is
    · exact h.fallback active other found is

theorem Edit.ranked (sound : Sound u) (h : Ranked u) (edit : Edit m u t) : Ranked t := by
  cases edit with
  | slot digest free others => exact ⟨h.previous, h.fallback, h.last, h.pending, h.layered⟩
  | copy => exact ⟨h.previous, h.fallback, h.last, h.pending, h.layered⟩
  | tally allowed => exact ⟨h.previous, h.fallback, h.last, h.pending, h.layered⟩
  | stage found holds kin newer =>
    refine ⟨h.previous, h.fallback, h.last, h.pending, ?_⟩
    rintro mark (is | is)
    · cases is
      exact h.layered_of_newer found (newer _ (Updates.mem_records.mpr (.inl found)))
    · exact h.layered mark (.inr is)
  | unstage =>
    refine ⟨h.previous, h.fallback, h.last, h.pending, ?_⟩
    rintro mark (is | is)
    · cases is
    · exact h.layered mark (.inr is)
  | @arm active record allowed found holds kin newer =>
    refine ⟨h.previous, h.fallback, h.last, ?_, ?_⟩
    · rintro other _ isOther ⟨⟩
      obtain rfl : active = other := Option.some.inj (found.symm.trans isOther)
      exact newer.symm.imp And.right id
    · rintro mark (is | is)
      · exact h.layered mark (.inl is)
      · cases is
        rcases newer with newer | ⟨staged, -⟩
        · exact h.layered_of_newer found newer
        · exact h.layered _ (.inl staged)
  | disarm allowed =>
    refine ⟨h.previous, h.fallback, h.last, nofun, ?_⟩
    rintro mark (is | is)
    · exact h.layered mark (.inl is)
    · cases is
  | push found =>
    refine ⟨?_, h.fallback, h.fallback, h.pending, fun mark is => ⟨?_, ?_⟩⟩
    · rintro active record isActive isRecord
      obtain rfl : active = record := Option.some.inj (isActive.symm.trans isRecord)
      exact le_rfl
    · rintro isMark record (same | kept)
      · exact .inl (Option.some.inj (same.symm.trans isMark))
      · exact (h.layered mark is).active isMark record (.inr kept)
    · exact fun isMark record kept => (h.layered mark is).active isMark record (.inr kept)
  | @install record _ aims holds known above unstaged disarmed =>
    have under : ∀ other, u.previous = some other ∨ u.fallback = some other →
        other.version ≤ record.version := by
      intro other is
      obtain ⟨active, found, le⟩ := h.below sound other is
      exact le_trans le (above active found).2.2
    refine ⟨?_, ?_, h.last, ?_, ?_⟩
    · rintro _ other ⟨⟩ is
      exact under other (.inl is)
    · rintro _ other ⟨⟩ is
      exact under other (.inr is)
    · rintro _ other ⟨⟩ is
      cases disarmed.symm.trans is
    · rintro mark (is | is)
      · cases unstaged.symm.trans is
      · cases disarmed.symm.trans is
  | @commit active record aims found pushed armed holds kin newer =>
    have under : ∀ other, u.previous = some other ∨ u.fallback = some other →
        other.version < record.version := by
      intro other is
      obtain ⟨_, isActive, le⟩ := h.below sound other is
      cases found.symm.trans isActive
      exact lt_of_le_of_lt le newer
    refine ⟨?_, ?_, h.last, ?_, fun mark is => ⟨?_, (h.layered mark is).previous⟩⟩
    · rintro _ other ⟨⟩ is
      exact (under other (.inl is)).le
    · rintro _ other ⟨⟩ is
      exact (under other (.inr is)).le
    · rintro _ other ⟨⟩ is
      exact .inl (Option.some.inj (is.symm.trans armed))
    · rintro ⟨⟩ other lower
      exact .inr (under other lower)
  | keep found =>
    refine ⟨h.previous, h.previous, ?_, h.pending, fun mark is => ⟨?_, ?_⟩⟩
    · rintro previous record isPrevious same
      obtain rfl : previous = record := Option.some.inj (isPrevious.symm.trans same)
      exact le_rfl
    · rintro isMark record (before | before)
      · exact (h.layered mark is).active isMark record (.inl before)
      · exact (h.layered mark is).active isMark record (.inl before)
    · exact fun isMark record same => .inl (Option.some.inj (same.symm.trans isMark))
  | @back active record aims found before holds kin =>
    refine ⟨?_, ?_, h.last, ?_, fun mark is => ⟨?_, (h.layered mark is).previous⟩⟩
    · rintro _ other ⟨⟩ is
      rw [Option.some.inj (is.symm.trans before)]
    · rintro _ other ⟨⟩ is
      exact h.last record other before is
    · rintro _ other ⟨⟩ is
      rcases h.pending active other found is with rfl | newer
      · exact ((h.layered other (.inr is)).active found record (.inl before)).imp Eq.symm id
      · exact .inr (lt_of_le_of_lt (h.previous active record found before) newer)
    · rintro ⟨⟩ other (same | kept)
      · exact .inl (Option.some.inj (same.symm.trans before))
      · exact (h.layered record is).previous before other kept
  | @fall active fallback found kept holds kin =>
    refine ⟨?_, h.fallback, ?_, h.pending, fun mark is => ⟨?_, ?_⟩⟩
    · rintro other _ isOther ⟨⟩
      exact h.fallback other fallback isOther kept
    · rintro _ other ⟨⟩ is
      rw [Option.some.inj (is.symm.trans kept)]
    · rintro isMark other (same | same)
      · cases same
        exact (h.layered mark is).active isMark fallback (.inr kept)
      · exact (h.layered mark is).active isMark other (.inr same)
    · rintro ⟨⟩ other same
      exact .inl (Option.some.inj (same.symm.trans kept))
  | forget =>
    refine ⟨nofun, h.fallback, nofun, h.pending, fun mark is => ⟨?_, nofun⟩⟩
    rintro isMark record (absent | kept)
    · cases absent
    · exact (h.layered mark is).active isMark record (.inr kept)

/-! ## Runs -/

/-- What an operation's edits keep holds in whatever state it ends. -/
theorem Updates.after_keeps (event : Event V) (start : P u)
    (edit : ∀ s t, P s → Edit (event.order.mandate u) s t → P t) : P (u.after event) := by
  have leads : Leads (Edit (event.order.mandate u)) ⟨u, event.crash⟩ (perform event.order)
      fun _ _ => True := perform_leads event.order
  exact leads.keeps start edit

/-- What every edit keeps holds in every state that a run can leave. -/
theorem Updates.run_keeps (start : P u) (edit : ∀ (m : Mandate V) s t, P s → Edit m s t → P t)
    (events : List (Event V)) : P (u.run events) := by
  induction events generalizing u with
  | nil => exact start
  | cons event rest ih => exact ih (Updates.after_keeps event start (edit _))

/-- An installed directory: it names an active release, and all that is named is in order. -/
structure InOrder (u : Updates V) : Prop where
  sound : Sound u
  ranked : Ranked u
  installed : u.active.isSome

theorem Edit.keeps_active (h : u.active.isSome) (edit : Edit m u t) : t.active.isSome := by
  cases edit <;> first | exact h | rfl

theorem Edit.inOrder (coherent : Coherent) (h : InOrder u) (edit : Edit m u t) : InOrder t :=
  ⟨edit.sound coherent h.sound, edit.ranked h.sound h.ranked, edit.keeps_active h.installed⟩

theorem sound_fresh : Sound (Updates.fresh : Updates V) :=
  ⟨nofun, nofun, fun _ => ⟨rfl, rfl⟩⟩

theorem ranked_fresh : Ranked (Updates.fresh : Updates V) :=
  ⟨nofun, nofun, nofun, nofun, by rintro mark (is | is) <;> cases is⟩

/-- What an installation's edits keep of an empty directory holds of an installed one. -/
theorem Updates.Installed.keeps (h : u.Installed) (fresh : P .fresh)
    (edit : ∀ (m : Mandate V) s t, (∀ record, m.aim ≠ .commit record) → P s → Edit m s t → P t) :
    P u ∧ u.active.isSome := by
  obtain ⟨version, executable, succeeded, rfl⟩ := h
  obtain ⟨_, run⟩ := succeeds_iff.mp succeeded
  have leads := initializeInstalled_leads (v := calm Updates.fresh)
    (m := { aim := .install ⟨version, Sha256.digest executable⟩, disarm := true }) rfl rfl
  refine ⟨leads.keeps fresh fun s t => edit _ s t nofun, ?_⟩
  have active := (Ends.ok leads run).2
  rw [active]
  rfl

theorem Updates.Installed.inOrder (coherent : Coherent) (h : u.Installed) : InOrder u := by
  obtain ⟨both, installed⟩ := h.keeps (P := fun s => Sound s ∧ Ranked s)
    ⟨sound_fresh, ranked_fresh⟩ fun _ s t _ both edit =>
      ⟨edit.sound coherent both.1, edit.ranked both.1 both.2⟩
  exact ⟨both.1, both.2, installed⟩

theorem InOrder.run (coherent : Coherent) (h : InOrder u) (events : List (Event V)) :
    InOrder (u.run events) :=
  Updates.run_keeps h (fun _ _ _ h edit => edit.inOrder coherent h) events

theorem InOrder.readActive (h : InOrder u) : ∃ active, u.readActive = .ok active := by
  obtain ⟨active, found⟩ := Option.isSome_iff_exists.mp h.installed
  refine ⟨active, Updates.readActive_ok.mpr ⟨found, ?_⟩⟩
  exact h.sound.holds active (Updates.mem_records.mpr (.inl found))

theorem InOrder.validateAgainstActive (h : InOrder u) (member : record ∈ u.records)
    (newer : ∀ active, u.active = some active → record = active ∨ active.version < record.version) :
    u.validateAgainstActive record = .ok () := by
  obtain ⟨active, found⟩ := Option.isSome_iff_exists.mp h.installed
  refine Updates.validateAgainstActive_ok.mpr ⟨active, found, ?_, newer active found, ?_⟩
  · exact h.sound.holds active (Updates.mem_records.mpr (.inl found))
  · exact h.sound.kin active found record member

theorem InOrder.readPending (h : InOrder u) : u.readPending = .ok u.pending := by
  refine Updates.readPending_ok.mpr ⟨rfl, fun record is => ?_⟩
  have member := Updates.mem_records.mpr (.inr (.inr (.inr is)))
  exact ⟨h.sound.holds record member,
    h.validateAgainstActive member fun active found => h.ranked.pending active record found is⟩

/-! ## Rounds of the supervisor -/

section Rounds

variable {v : Volume (Updates V)} {active candidate : SlotRecord V}

theorem select_active (h : InOrder v.disk) (idle : v.disk.pending = none) :
    select.run v = .ok .active v := by
  obtain ⟨active, read⟩ := h.readActive
  unfold select
  rw [run_look, run_demand read, run_demand h.readPending, idle]
  rfl

/-- What is pending and already active is committed again. -/
theorem select_recovered (h : InOrder v.disk) (found : v.disk.active = some active)
    (pending : v.disk.pending = some active) :
    select.run v = (do
      commitPending active
      return .recovered : Operation V (Choice V)).run v := by
  obtain ⟨other, read⟩ := h.readActive
  cases found.symm.trans (Updates.readActive_ok.mp read).1
  unfold select
  rw [run_look, run_demand read, run_demand h.readPending, pending]
  dsimp only
  rw [if_pos rfl]

theorem supervise_active (h : InOrder v.disk) (idle : v.disk.pending = none) (verdict : Verdict) :
    (supervise verdict).run v = .ok () v := by
  unfold supervise
  rw [EStateM.run_bind, select_active h idle]
  rfl

/-- A round goes on from its selection as the choice asks. -/
theorem supervise_congr {program : Operation V (Choice V)} (selected : select.run v = program.run v)
    (verdict : Verdict) : (supervise verdict).run v = (program >>= fun choice => match choice with
      | .trial candidate => judge candidate verdict
      | _ => pure ()).run v :=
  run_bind_congr selected _

/-- A round that recovers a commitment leaves what the commitment leaves. -/
theorem supervise_recovered (h : InOrder v.disk) (found : v.disk.active = some active)
    (pending : v.disk.pending = some active) (verdict : Verdict) :
    left (supervise verdict) v = left (commitPending active) v := by
  have run := supervise_congr (select_recovered h found pending) verdict
  rw [bind_assoc] at run
  exact (left_eq run).trans (left_map _ _ v)

section Candidate

variable (h : InOrder v.disk) (found : v.disk.active = some active)
  (pending : v.disk.pending = some candidate) (inactive : candidate ≠ active)

include h found pending inactive

/-- What is pending and not active is tried while it has attempts left. -/
theorem select_candidate : select.run v = (if maxAttempts ≤ v.disk.attempted candidate then do
        discardPending
        return .spent
      else do
        writeAttempts (some ⟨candidate.digest, candidate.version, v.disk.attempted candidate + 1⟩)
        return .trial candidate : Operation V (Choice V)).run v := by
  obtain ⟨other, read⟩ := h.readActive
  cases found.symm.trans (Updates.readActive_ok.mp read).1
  unfold select
  rw [run_look, run_demand read, run_demand h.readPending, pending]
  dsimp only
  rw [if_neg inactive]
  unfold reserve
  rw [bind_assoc, run_look]
  split
  · rfl
  · rw [bind_assoc]
    simp only [pure_bind, if_true]

theorem supervise_spent (spent : maxAttempts ≤ v.disk.attempted candidate) (verdict : Verdict) :
    left (supervise verdict) v = left discardPending v := by
  have selected := select_candidate h found pending inactive
  rw [if_pos spent] at selected
  have run := supervise_congr selected verdict
  rw [bind_assoc] at run
  exact (left_eq run).trans (left_map _ _ v)

/-- A round that launches its candidate goes on to judge it. -/
theorem supervise_trial (unspent : ¬maxAttempts ≤ v.disk.attempted candidate) (verdict : Verdict) :
    (supervise verdict).run v = (do
      writeAttempts (some ⟨candidate.digest, candidate.version, v.disk.attempted candidate + 1⟩)
      judge candidate verdict : Operation V Unit).run v := by
  have selected := select_candidate h found pending inactive
  rw [if_neg unspent] at selected
  have run := supervise_congr selected verdict
  rw [bind_assoc] at run
  exact run

end Candidate

end Rounds

/-! ## The active version -/

/-- The only active record that an operation writes is its aim. -/
theorem Edit.active (edit : Edit m u t) :
    t.active = u.active ∨ ∃ record, m.aim.record = some record ∧ t.active = some record := by
  cases edit <;> try exact .inl rfl
  case install aims holds known above unstaged disarmed => exact .inr ⟨_, by rw [aims]; rfl, rfl⟩
  case commit aims found pushed armed holds kin newer => exact .inr ⟨_, by rw [aims]; rfl, rfl⟩
  case back aims found before holds kin => exact .inr ⟨_, by rw [aims]; rfl, rfl⟩

/-- Without a return the active version does not decrease. -/
theorem Edit.version_le (forward : ∀ record, m.aim ≠ .restore record) (edit : Edit m u t)
    (found : u.active = some before) :
    ∃ after, t.active = some after ∧ before.version ≤ after.version := by
  cases edit <;> try exact ⟨before, found, le_rfl⟩
  case install aims holds known above unstaged disarmed =>
    exact ⟨_, rfl, (above before found).2.2⟩
  case commit active record aims isActive pushed armed holds kin newer =>
    cases found.symm.trans isActive
    exact ⟨_, rfl, newer.le⟩
  case back aims found before holds kin => exact absurd aims (forward _)

theorem Order.mandate_forward {order : Order V} (notRevert : ∀ failed, order ≠ .revert failed)
    (record : SlotRecord V) : (order.mandate u).aim ≠ .restore record := by
  have commits : ∀ place : Option (SlotRecord V),
      place.elim Aim.idle Aim.commit ≠ .restore record := by
    rintro (_ | _) <;> nofun
  cases order with
  | revert failed => exact absurd rfl (notRevert failed)
  | commit => exact commits u.pending
  | supervise verdict => exact commits u.pending
  | _ => nofun

theorem Updates.after_version_le (event : Event V)
    (notRevert : ∀ failed, event.order ≠ .revert failed) (found : u.active = some before) :
    ∃ after, (u.after event).active = some after ∧ before.version ≤ after.version := by
  refine Updates.after_keeps (P := fun s => ∃ after, s.active = some after ∧
    before.version ≤ after.version) event ⟨before, found, le_rfl⟩ ?_
  rintro s t ⟨middle, isMiddle, le⟩ edit
  obtain ⟨after, isAfter, le'⟩ := edit.version_le (Order.mandate_forward notRevert) isMiddle
  exact ⟨after, isAfter, le_trans le le'⟩

/-- A revert, however it ends, leaves the active release or the previous one active. -/
theorem Updates.after_revert (failed : Digest) (crash : Option (Nat × Nat)) :
    (u.after ⟨.revert failed, crash⟩).active = u.active ∨
      (u.after ⟨.revert failed, crash⟩).active = u.previous := by
  refine Updates.after_keeps (P := fun s => s.active = u.active ∨ s.active = u.previous)
    ⟨.revert failed, crash⟩ (.inl rfl) ?_
  rintro s t is edit
  rcases edit.active with same | ⟨record, aims, isRecord⟩
  · rw [same]
    exact is
  · right
    rw [isRecord, ← aims]
    change (u.previous.elim Aim.idle Aim.restore).record = u.previous
    cases u.previous <;> rfl

/-- From an installed directory on, whatever operations run and wherever crashes cut them short, the
active and the pending release can be read, every named release is in its slot with its digest, and
no operation but a revert lowers the active version; a revert, whether it succeeds or not, leaves
the active release active or makes the previous one so. -/
theorem updater_keeps_way_back (coherent : Coherent) {start : Updates V}
    (installed : start.Installed) (events : List (Event V)) :
    (∃ active, (start.run events).readActive = .ok active) ∧
      (∃ pending, (start.run events).readPending = .ok pending) ∧
      (∀ record ∈ (start.run events).records, ∃ bytes,
        (start.run events).executable record.digest = some bytes ∧
          Sha256.digest bytes = record.digest) ∧
      ∀ event before after, (start.run events).active = some before →
        ((start.run events).after event).active = some after →
        before.version ≤ after.version ∨ (∃ failed, event.order = .revert failed) ∧
          (start.run events).previous = some after := by
  have order := (installed.inOrder coherent).run coherent events
  refine ⟨order.readActive, ⟨_, order.readPending⟩, ?_, ?_⟩
  · exact fun record member => (order.sound.holds record member).found
  · rintro ⟨action, crash⟩ before after isBefore isAfter
    by_cases reverts : ∃ failed, action = .revert failed
    · obtain ⟨failed, rfl⟩ := reverts
      rcases Updates.after_revert (u := start.run events) failed crash with same | back
      · rw [same, isBefore] at isAfter
        cases isAfter
        exact .inl le_rfl
      · exact .inr ⟨⟨failed, rfl⟩, back.symm.trans isAfter⟩
    · have notRevert : ∀ failed, action ≠ .revert failed := fun failed is => reverts ⟨failed, is⟩
      obtain ⟨after', isAfter', le⟩ :=
        Updates.after_version_le ⟨action, crash⟩ notRevert isBefore
      cases isAfter.symm.trans isAfter'
      exact .inl le

end Runs

/-! ## A revert that is cut short -/

@[reducible] def summingSha256 : Sha256 := ⟨fun bytes => .replicate 32 bytes.sum⟩

/-- A platform that signs nothing and has no requirement. -/
@[reducible] def plainPlatform : Platform where
  executable _ := true
  signed _ := true
  identity _ _ := true
  listing directory := directory.keys
  listing_perm _ := .refl _

attribute [local instance] summingSha256 plainPlatform

/-- The first release, installed. -/
def firstInstalled : Updates Nat := (left (initializeInstalled 1 [1]) (calm .fresh)).disk

theorem firstInstalled_installed : firstInstalled.Installed :=
  ⟨1, [1], by decide +kernel, rfl⟩

/-- A second release is installed, and a return to the first is cut short after its first change:
the active version has decreased though no revert has succeeded. -/
theorem cut_revert_lowers_version :
    ∃ (start : Updates Nat) (events : List (Event Nat)) (failed : Digest)
      (crash : Option (Nat × Nat)),
      start.Installed ∧ succeeds (perform (.revert failed)) ⟨start.run events, crash⟩ = false ∧
        ∃ before after, (start.run events).active = some before ∧
          ((start.run events).after ⟨.revert failed, crash⟩).active = some after ∧
          after.version < before.version := by
  refine ⟨firstInstalled, [⟨.install 2 [2], none⟩], .replicate 32 2, some (1, 0),
    firstInstalled_installed, by decide +kernel, ⟨2, .replicate 32 2⟩, ⟨1, .replicate 32 1⟩, ?_⟩
  exact ⟨by decide +kernel, by decide +kernel, by decide⟩

theorem plainPlatform_coherent : Coherent :=
  ⟨fun _ _ _ _ _ => rfl, fun _ _ _ _ _ _ _ _ => rfl⟩

/-- The way back over that run. -/
theorem updater_keeps_way_back_pair :
    ∃ active, (firstInstalled.run
      [⟨.install 2 [2], none⟩, ⟨.revert (.replicate 32 2), some (1, 0)⟩]).readActive = .ok active :=
  (updater_keeps_way_back plainPlatform_coherent firstInstalled_installed _).1

end Supgang.Update
