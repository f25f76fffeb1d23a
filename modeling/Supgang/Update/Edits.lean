/-
# Update.Edits — the single changes that operations make

Every operation on the update directory is a succession of single file changes, and a crash leaves
some first part of it. Said once here is what each change is and what has been checked before it is
made: `Edit aim`, where `aim` is the one release that the operation may make active. What all edits
keep holds in every state that any run can leave, crashed or not.

* `Updates.Holds`, `Kin` — the checks on slots and on platform identities, as propositions.
* `Edit` — the single changes with their guards.
* `perform_leads` — every operation is a succession of edits.
-/
import Supgang.Update.Model

namespace Supgang.Update

set_option autoImplicit false
set_option linter.unusedSectionVars false

open Theory List Theory.Crash
open Relation (ReflTransGen TransGen)

variable {V : Type} [Sha256] [Platform] [LinearOrder V]

/-! ## Checks as propositions -/

/-- The slot of a release holds its executable. -/
def Updates.Holds (updates : Updates V) (digest : Digest) : Prop :=
  validateStaged (updates.executable digest) digest = .ok ()

/-- The second executable keeps the platform identity of the first. -/
def Kin (authority candidate : Option Bytes) : Prop :=
  validateCompatibleIdentity authority candidate = .ok ()

variable {file : Option Bytes} {bytes executable : Bytes} {t : Updates V}
  {slots : Std.ExtTreeMap Digest (Option Bytes)}

theorem readExecutable_ok : readExecutable file = .ok bytes ↔
      file = some bytes ∧ bytes.length ≠ 0 ∧ bytes.length ≤ maxUpdateTargetBytes := by
  simp only [readExecutable, ok_steps, exists_const]
  constructor
  · rintro ⟨_, found, sized, rfl⟩
    exact ⟨found, by omega, by omega⟩
  · rintro ⟨found, nonempty, bounded⟩
    exact ⟨bytes, found, by omega, rfl⟩

variable {digest : Digest} {s u : Updates V} {version : V}

theorem validateStaged_ok {u : Unit} : validateStaged file digest = .ok u ↔
      ∃ bytes, readExecutable file = .ok bytes ∧ Sha256.digest bytes = digest ∧
        Platform.executable bytes ∧ Platform.signed bytes := by
  simp only [validateStaged, ok_steps, exists_const, not_not]

theorem kin_iff {authority candidate : Option Bytes} :
    Kin authority candidate ↔
      ∃ a b, authority = some a ∧ candidate = some b ∧ Platform.signed a ∧ Platform.signed b ∧
        Platform.identity a b := by
  simp only [Kin, validateCompatibleIdentity, ok_steps, exists_const, not_not]
  constructor
  · rintro ⟨a, foundA, signedA, b, foundB, signedB, same⟩
    exact ⟨a, b, foundA, foundB, signedA, signedB, same⟩
  · rintro ⟨a, b, foundA, foundB, signedA, signedB, same⟩
    exact ⟨a, foundA, signedA, b, foundB, signedB, same⟩

namespace Updates

variable {updates other : Updates V} {record : SlotRecord V}

theorem Holds.found {digest : Digest} (h : updates.Holds digest) :
    ∃ bytes, updates.executable digest = some bytes ∧ Sha256.digest bytes = digest := by
  obtain ⟨bytes, read, same, -, -⟩ := validateStaged_ok.mp h
  exact ⟨bytes, (readExecutable_ok.mp read).1, same⟩

theorem mem_records :
    record ∈ updates.records ↔ updates.active = some record ∨ updates.previous = some record ∨
      updates.staged = some record ∨ updates.pending = some record := by
  simp only [records, reduceOption_mem_iff, mem_cons, not_mem_nil, or_false, eq_comm]

variable {place : Option (SlotRecord V)} {floor version : V}

/-- A record after one is replaced is the new one or was there. -/
theorem mem_active (h : record ∈ ({ updates with active := place } : Updates V).records) :
    place = some record ∨ record ∈ updates.records := by
  rw [mem_records] at h ⊢
  exact h.imp_right .inr

theorem mem_previous (h : record ∈ ({ updates with previous := place } : Updates V).records) :
    place = some record ∨ record ∈ updates.records := by
  rw [mem_records] at h ⊢
  tauto

theorem mem_staged (h : record ∈ ({ updates with staged := place } : Updates V).records) :
    place = some record ∨ record ∈ updates.records := by
  rw [mem_records] at h ⊢
  tauto

theorem mem_pending (h : record ∈ ({ updates with pending := place } : Updates V).records) :
    place = some record ∨ record ∈ updates.records := by
  rw [mem_records] at h ⊢
  tauto

theorem validateAgainstActive_ok {u : Unit} :
    updates.validateAgainstActive record = .ok u ↔
      ∃ active, updates.active = some active ∧ updates.Holds active.digest ∧
        (record = active ∨ active.version < record.version) ∧
        Kin (updates.executable active.digest) (updates.executable record.digest) := by
  simp only [validateAgainstActive, ok_steps, exists_const, not_and_or, not_not, not_le]
  constructor
  · rintro ⟨active, found, _, holds, newer, kin⟩
    exact ⟨active, found, holds, newer, kin⟩
  · rintro ⟨active, found, holds, newer, kin⟩
    exact ⟨active, found, (), holds, newer, kin⟩

theorem foldFloor_ok {records : List (SlotRecord V)} :
    records.foldlM (fun floor record => do
        updates.validateRecord record
        return max floor record.version) version = (.ok floor : Except UpdateError V) ↔
      (∀ record ∈ records, updates.Holds record.digest) ∧
        floor = (records.map SlotRecord.version).foldl max version := by
  induction records generalizing version with
  | nil =>
    simp only [foldlM_nil, pure_eq_ok, not_mem_nil, false_implies, implies_true,
      map_nil, foldl_nil, true_and]
    exact eq_comm
  | cons record rest ih =>
    simp only [foldlM_cons, ok_steps, forall_mem_cons, map_cons, foldl_cons]
    constructor
    · rintro ⟨_, ⟨_, holds, rfl⟩, rest⟩
      exact ⟨⟨holds, (ih.mp rest).1⟩, (ih.mp rest).2⟩
    · rintro ⟨⟨holds, others⟩, value⟩
      exact ⟨_, ⟨(), holds, rfl⟩, ih.mpr ⟨others, value⟩⟩

theorem effectiveVersionFloor_ok :
    updates.effectiveVersionFloor version = .ok floor ↔
      (∀ record ∈ updates.records, updates.Holds record.digest) ∧
        floor = (updates.records.map SlotRecord.version).foldl max version :=
  foldFloor_ok

theorem le_foldl_max {versions : List V} :
    version ≤ versions.foldl max version ∧ ∀ v ∈ versions, v ≤ versions.foldl max version := by
  induction versions generalizing version with
  | nil => exact ⟨le_rfl, nofun⟩
  | cons v rest ih =>
    have above : max version v ≤ rest.foldl max (max version v) := ih.1
    refine ⟨le_trans (le_max_left _ _) above, forall_mem_cons.mpr ⟨?_, ih.2⟩⟩
    exact le_trans (le_max_right _ _) above

/-- No record is above the floor. -/
theorem le_floor (h : updates.effectiveVersionFloor version = .ok floor)
    (member : record ∈ updates.records) : record.version ≤ floor := by
  rw [(effectiveVersionFloor_ok.mp h).2]
  exact le_foldl_max.2 _ (mem_map_of_mem member)

theorem readActive_ok :
    updates.readActive = .ok record ↔
      updates.active = some record ∧ updates.Holds record.digest := by
  simp only [readActive, ok_steps]
  constructor
  · rintro ⟨_, found, _, holds, rfl⟩
    exact ⟨found, holds⟩
  · rintro ⟨found, holds⟩
    exact ⟨record, found, (), holds, rfl⟩

theorem readPending_ok {pending : Option (SlotRecord V)} :
    updates.readPending = .ok pending ↔
      updates.pending = pending ∧ ∀ record, updates.pending = some record →
        updates.Holds record.digest ∧ updates.validateAgainstActive record = .ok () := by
  cases found : updates.pending with
  | none => simp [readPending, found, Option.forM]
  | some record =>
    simp only [readPending, found, Option.forM, ok_steps, Option.some.injEq]
    constructor
    · rintro ⟨_, ⟨_, holds, newer⟩, rfl⟩
      refine ⟨rfl, ?_⟩
      rintro _ rfl
      exact ⟨holds, newer⟩
    · rintro ⟨rfl, valid⟩
      exact ⟨(), ⟨(), (valid record rfl).1, (valid record rfl).2⟩, rfl⟩

end Updates

/-! ## Edits -/

/-- What an operation may do to the active record: nothing, put an installed release there, commit
the pending one, or return to the previous one. -/
inductive Aim (V : Type) where
  | idle
  | install (record : SlotRecord V)
  | commit (record : SlotRecord V)
  | restore (record : SlotRecord V)

def Aim.record : Aim V → Option (SlotRecord V)
  | .idle => none
  | .install record | .commit record | .restore record => some record

/-- What an operation may do to the records that decide what runs: which release it may make active
or pending, and whether it may take the pending one off or write the attempts. -/
structure Mandate (V : Type) where
  aim : Aim V := .idle
  arm : Option (SlotRecord V) := none
  disarm : Bool := false
  tally : Bool := false

/-- A single change of the directory by an operation of the given mandate. -/
inductive Edit (m : Mandate V) : Updates V → Updates V → Prop
  /-- A slot that is empty, or that no record names, is filled, emptied or removed. -/
  | slot {u : Updates V} (digest : Digest) {slots : Std.ExtTreeMap Digest (Option Bytes)}
      (free : u.executable digest = none ∨ ∀ record ∈ u.records, record.digest ≠ digest)
      (others : ∀ name, name ≠ digest → slots[name]? = u.slots[name]?) : Edit m u { u with slots }
  | copy {u : Updates V} {copies : Std.ExtTreeMap Digest (Option Bytes)} :
      Edit m u { u with copies }
  | tally {u : Updates V} {attempts : Option (Attempts V)} (allowed : m.tally) : Edit m u { u with attempts }
  | stage {u : Updates V} {active record : SlotRecord V} (found : u.active = some active)
      (holds : u.Holds record.digest)
      (kin : Kin (u.executable active.digest) (u.executable record.digest))
      (newer : ∀ other ∈ u.records, other.version < record.version) :
      Edit m u { u with staged := some record }
  | unstage {u : Updates V} : Edit m u { u with staged := none }
  | arm {u : Updates V} {active record : SlotRecord V} (allowed : m.arm = some record)
      (found : u.active = some active)
      (holds : u.Holds record.digest)
      (kin : Kin (u.executable active.digest) (u.executable record.digest))
      (newer : active.version < record.version ∨ u.staged = some record ∧ record = active) :
      Edit m u { u with pending := some record }
  | disarm {u : Updates V} (allowed : m.disarm) : Edit m u { u with pending := none }
  /-- The active release is also the previous one, before another becomes active. -/
  | push {u : Updates V} (found : u.active.isSome) : Edit m u { u with previous := u.active }
  /-- An installed release becomes active once nothing is staged or pending. -/
  | install {u : Updates V} {record : SlotRecord V} {authority : Option Bytes}
      (aims : m.aim = .install record) (holds : u.Holds record.digest)
      (known : Kin authority (u.executable record.digest))
      (above : ∀ active, u.active = some active → u.previous = some active ∧
        TransGen Kin (u.executable active.digest) (u.executable record.digest) ∧
          active.version ≤ record.version)
      (unstaged : u.staged = none) (disarmed : u.pending = none) :
      Edit m u { u with active := some record }
  /-- The pending release becomes active. -/
  | commit {u : Updates V} {active record : SlotRecord V} (aims : m.aim = .commit record)
      (found : u.active = some active) (pushed : u.previous = some active)
      (armed : u.pending = some record) (holds : u.Holds record.digest)
      (kin : Kin (u.executable active.digest) (u.executable record.digest))
      (newer : active.version < record.version) : Edit m u { u with active := some record }
  | keep {u : Updates V} (found : u.previous.isSome) : Edit m u { u with fallback := u.previous }
  | back {u : Updates V} {active record : SlotRecord V} (aims : m.aim = .restore record)
      (found : u.active = some active) (before : u.previous = some record)
      (holds : u.Holds record.digest)
      (kin : Kin (u.executable active.digest) (u.executable record.digest)) :
      Edit m u { u with active := some record }
  | fall {u : Updates V} {active fallback : SlotRecord V} (found : u.active = some active)
      (kept : u.fallback = some fallback) (holds : u.Holds fallback.digest)
      (kin : Kin (u.executable active.digest) (u.executable fallback.digest)) :
      Edit m u { u with previous := some fallback }
  | forget {u : Updates V} : Edit m u { u with previous := none }

variable {m : Mandate V} {record : SlotRecord V} {v : Volume (Updates V)}

/-! ## File operations -/

/-- Only slots have changed, and none that held an executable. -/
def Fills (u s : Updates V) : Prop :=
  ∃ slots, s = { u with slots } ∧
    ∀ digest, (u.executable digest).isSome → s.executable digest = u.executable digest

/-- Only slots and copies have changed. -/
def Shelves (u s : Updates V) : Prop := ∃ slots copies, s = { u with slots, copies }

theorem Fills.refl (u : Updates V) : Fills u u := ⟨u.slots, rfl, fun _ _ => rfl⟩

theorem Fills.trans (first : Fills u s) (second : Fills s t) : Fills u t := by
  obtain ⟨slots, rfl, kept⟩ := first
  obtain ⟨slots', rfl, kept'⟩ := second
  refine ⟨slots', rfl, fun digest some => ?_⟩
  rw [← kept digest some]
  exact kept' digest (by rw [kept digest some]; exact some)

theorem Shelves.refl (u : Updates V) : Shelves u u := ⟨u.slots, u.copies, rfl⟩

theorem Shelves.trans (first : Shelves u s) (second : Shelves s t) : Shelves u t := by
  obtain ⟨_, _, rfl⟩ := first
  obtain ⟨slots, copies, rfl⟩ := second
  exact ⟨slots, copies, rfl⟩

theorem insert_others (file : Option Bytes) (name : Digest) (different : name ≠ digest) :
    (slots.insert digest file)[name]? = slots[name]? := by
  rw [getElem?_insert_eq, if_neg (Ne.symm different)]

theorem erase_others (name : Digest) (different : name ≠ digest) :
    (slots.erase digest)[name]? = slots[name]? := by
  rw [getElem?_erase_eq, if_neg (Ne.symm different)]

/-- An insertion where nothing is held. -/
theorem fills_insert (empty : u.executable digest = none) (file : Option Bytes) :
    Fills u { u with slots := u.slots.insert digest file } := by
  refine ⟨_, rfl, fun name held => ?_⟩
  have different : name ≠ digest := by
    rintro rfl
    rw [empty] at held
    cases held
  simp only [Updates.executable, insert_others file name different]

theorem executable_of_not_mem (absent : digest ∉ u.slots) :
    u.executable digest = none := by
  rw [Updates.executable, Std.ExtTreeMap.getElem?_eq_none absent]
  rfl

theorem ensureSlot_leads (digest : Digest) :
    Leads (Edit m) v (ensureSlot digest) fun _ s =>
      Fills v.disk s ∧ s.executable digest = v.disk.executable digest := by
  refine .look ?_
  split
  · exact .pure ⟨Fills.refl _, rfl⟩
  · next absent =>
    have empty := executable_of_not_mem absent
    refine (Leads.atomic (.slot digest (.inl empty) (insert_others none))).imp ?_
    rintro _ _ rfl
    refine ⟨fills_insert empty none, ?_⟩
    rw [empty]
    simp only [Updates.executable, Std.ExtTreeMap.getElem?_insert_self, Option.join_some]

theorem writeNewSlot_leads (empty : v.disk.executable digest = none) (bytes : Bytes) :
    Leads (Edit m) v (writeNewSlot digest bytes) fun _ s => Fills v.disk s := by
  refine (Leads.change (fun done => ?_) ?_).imp ?_
  · cases done with
    | zero => exact .copy
    | succ length => exact .slot digest (.inl empty) (insert_others _)
  · exact .slot digest (.inl empty) (insert_others _)
  · rintro _ _ rfl
    exact fills_insert empty _

/-- An edit of slots and copies only. -/
def Tidy (m : Mandate V) (u s : Updates V) : Prop := Edit m u s ∧ Shelves u s

theorem removeSlot_leads (free : ∀ record ∈ v.disk.records, record.digest ≠ digest) :
    Leads (Tidy m) v (removeSlot digest) fun _ s => Shelves v.disk s := by
  refine (Leads.change (fun done => ?_) ?_).imp ?_
  · cases done with
    | zero => exact ⟨.copy, Shelves.refl _⟩
    | succ _ => exact ⟨.slot digest (.inr free) (insert_others none), _, v.disk.copies, rfl⟩
  · exact ⟨.slot digest (.inr free) erase_others, _, v.disk.copies, rfl⟩
  · rintro _ _ rfl
    exact ⟨_, v.disk.copies, rfl⟩

theorem ensureCopy_leads (digest : Digest) :
    Leads (Edit m) v (ensureCopy digest) fun _ s => ∃ copies, s = { v.disk with copies } := by
  refine .look ?_
  split
  · exact .pure ⟨_, rfl⟩
  · exact (Leads.atomic .copy).imp fun _ _ made => ⟨_, made⟩

theorem writeNewCopy_leads (digest : Digest) (bytes : Bytes) :
    Leads (Edit m) v (writeNewCopy digest bytes) fun _ s =>
      ∃ copies, s = { v.disk with copies } := by
  refine (Leads.change (fun done => ?_) .copy).imp fun _ _ made => ⟨_, made⟩
  cases done <;> exact .copy

theorem removeCopy_leads (digest : Digest) :
    Leads (Edit m) v (removeCopy digest) fun _ s => ∃ copies, s = { v.disk with copies } := by
  refine (Leads.change (fun done => ?_) .copy).imp fun _ _ made => ⟨_, made⟩
  cases done <;> exact .copy

/-! ## Pruning -/

/-- What each removal leaves, the loop leaves. -/
theorem pruneLoop_leads {R : Updates V → Updates V → Prop} {remove : Digest → Operation V Unit}
    {keep : List Digest} {Same : Updates V → Prop} (inspected : Nat) (names : List Digest)
    (start : Same v.disk)
    (each : ∀ (w : Volume (Updates V)) name, Same w.disk → name ∉ keep →
      Leads R w (remove name) fun _ s => Same s) :
    Leads R v (pruneLoop remove keep inspected names) fun _ s => Same s := by
  induction names generalizing v inspected with
  | nil => exact .pure start
  | cons name rest ih =>
    have first : Leads R v
        (if name ∈ keep then pure () else remove name : Operation V Unit) fun _ s => Same s := by
      split
      · exact .pure start
      · next unkept => exact each v name start unkept
    refine first.seq fun _ w _ same => ?_
    exact .refuse fun _ => ih (inspected + 1) same

theorem pruneSlots_tidy :
    Leads (Tidy m) v pruneSlots fun _ s => Shelves v.disk s := by
  refine .look (.demand fun _ _ => ?_)
  refine pruneLoop_leads 0 _ (Shelves.refl _) fun w name same unkept => ?_
  have free : ∀ record ∈ w.disk.records, record.digest ≠ name := by
    obtain ⟨slots, copies, shelved⟩ := same
    rw [shelved]
    rintro record member rfl
    exact unkept (mem_map_of_mem member)
  exact (removeSlot_leads free).imp fun _ _ removed => same.trans removed

theorem pruneSlots_leads :
    Leads (Edit m) v pruneSlots fun _ s => Shelves v.disk s :=
  pruneSlots_tidy.mono (fun _ _ tidy => tidy.1) fun _ _ => id

/-- Whether it succeeds or not, a pruning changes no record. -/
theorem pruneSlots_shelves (v : Volume (Updates V)) :
    Shelves v.disk (left pruneSlots v).disk := by
  have tidy : Leads (Tidy {}) v pruneSlots fun _ s => Shelves v.disk s := pruneSlots_tidy
  exact tidy.keeps (Shelves.refl _) fun _ _ same step => same.trans step.2

theorem pruneFallbacks_leads (keep : Digest) :
    Leads (Edit m) v (pruneFallbacks keep) fun _ s => ∃ copies, s = { v.disk with copies } := by
  refine .look (pruneLoop_leads 0 _ ⟨v.disk.copies, rfl⟩ fun w name same _ => ?_)
  obtain ⟨copies, same⟩ := same
  refine (removeCopy_leads name).imp ?_
  rintro _ _ ⟨copies', rfl⟩
  exact ⟨copies', by rw [same]⟩

/-! ## Operations -/

theorem fillSlot_leads (digest : Digest) (bytes : Bytes) :
    Leads (Edit m) v (fillSlot digest bytes) fun _ s => Fills v.disk s := by
  refine (ensureSlot_leads digest).seq fun _ w _ ⟨ensured, _⟩ => .look ?_
  split
  · exact .pure ensured
  · next empty =>
    have empty : w.disk.executable digest = none := by simpa using empty
    exact (writeNewSlot_leads empty bytes).imp fun _ _ filled =>
      ensured.trans filled

theorem checkSlot_leads (digest : Digest) (authority : Option Bytes) :
    Leads (Edit m) v (checkSlot digest authority) fun _ s =>
      s = v.disk ∧ s.Holds digest ∧ Kin authority (s.executable digest) :=
  .look (.demand fun _ holds => .of_demand fun _ kin => ⟨rfl, holds, kin⟩)

theorem write_leads {f : Updates V → Updates V} (edit : Edit m v.disk (f v.disk)) :
    Leads (Edit m) v (atomic f : Operation V Unit) fun _ s => s = f v.disk :=
  Leads.atomic edit

theorem checkInstalled_ok {o : Unit} : checkInstalled u version executable = .ok o ↔
      ∀ active, u.active = some active → u.Holds active.digest ∧
        Kin (u.executable active.digest) (some executable) ∧ active.version ≤ version := by
  cases found : u.active with
  | none => simp [checkInstalled, found, Option.forM]
  | some active =>
    simp only [checkInstalled, found, Option.forM, ok_steps, not_lt]
    constructor
    · rintro ⟨_, holds, _, kin, old⟩
      rintro _ ⟨⟩
      exact ⟨holds, kin, old⟩
    · intro valid
      obtain ⟨holds, kin, old⟩ := valid active rfl
      exact ⟨(), holds, (), kin, old⟩

/-- Whatever is edited in a slot that held nothing, what held an executable still does. -/
theorem Fills.holds (fills : Fills u s) (holds : u.Holds digest) :
    s.executable digest = u.executable digest ∧ s.Holds digest := by
  obtain ⟨_, -, kept⟩ := fills
  obtain ⟨bytes, found, -⟩ := holds.found
  have same := kept digest (by rw [found]; rfl)
  refine ⟨same, ?_⟩
  rw [Updates.Holds, same]
  exact holds

/-- The slot is ready, and is of one identity with the installed executable. -/
theorem placeInstalled_leads (existing : Option (SlotRecord V)) (record : SlotRecord V)
    (executable : Bytes) :
    Leads (Edit m) v (placeInstalled existing record executable) fun _ s =>
      Fills v.disk s ∧ (existing ≠ some record →
        s.Holds record.digest ∧ Kin (some executable) (s.executable record.digest)) := by
  unfold placeInstalled
  split
  · next same => exact .pure ⟨Fills.refl _, fun different => absurd same different⟩
  · refine (fillSlot_leads record.digest executable).seq fun _ w _ filled => ?_
    refine (checkSlot_leads _ _).imp ?_
    rintro _ _ ⟨rfl, holds, kin⟩
    exact ⟨filled, fun _ => ⟨holds, kin⟩⟩

/-- With nothing staged or pending, the active release steps back and the installed one takes its
place. -/
theorem recordInstalled_leads (aims : m.aim = .install record) (authority : Option Bytes)
    (unstaged : v.disk.staged = none) (disarmed : v.disk.pending = none)
    (ready : v.disk.active ≠ some record → v.disk.Holds record.digest ∧
      Kin authority (v.disk.executable record.digest) ∧ ∀ active, v.disk.active = some active →
        TransGen Kin (v.disk.executable active.digest) (v.disk.executable record.digest) ∧
          active.version ≤ record.version) :
    Leads (Edit m) v (recordInstalled v.disk.active record) fun _ s =>
      s.active = some record := by
  have pruned : ∀ w : Volume (Updates V), w.disk.active = some record →
      Leads (Edit m) w pruneSlots fun _ s => s.active = some record := by
    intro w found
    refine pruneSlots_leads.imp ?_
    rintro _ _ ⟨_, _, rfl⟩
    exact found
  unfold recordInstalled
  split
  · next same => exact pruned v same
  next different =>
    obtain ⟨holds, known, above⟩ := ready different
    have pushed : Leads (Edit m) v
        (if v.disk.active.isSome then writePrevious v.disk.active else pure () : Operation V Unit)
        fun _ s => ∃ previous, s = { v.disk with previous } ∧
          (v.disk.active.isSome → previous = v.disk.active) := by
      split
      · next found =>
        exact (write_leads (.push found)).imp fun _ _ made => ⟨_, made, fun _ => rfl⟩
      · next absent => exact .pure ⟨v.disk.previous, rfl, fun found => absurd found absent⟩
    refine pushed.seq fun _ w _ ⟨previous, made, same⟩ => ?_
    have installed : Edit m w.disk { w.disk with active := some record } := by
      rw [made]
      refine .install aims holds known (fun active found => ⟨?_, above active found⟩) unstaged disarmed
      have found : v.disk.active = some active := found
      exact (same (by rw [found]; rfl)).trans found
    refine (write_leads installed).seq fun _ w' _ wrote => ?_
    exact pruned w' (by rw [wrote])

theorem initializeInstalled_leads (aims : m.aim = .install ⟨version, Sha256.digest executable⟩)
    (disarms : m.disarm) : Leads (Edit m) v (initializeInstalled version executable) fun _ s =>
      s.active = some ⟨version, Sha256.digest executable⟩ := by
  refine .look (.demand fun _ checked => .demand fun floor floored => .refuse fun _ => ?_)
  refine .demand fun bytes read => ?_
  obtain rfl : executable = bytes := Option.some.inj (readExecutable_ok.mp read).1
  refine .refuse fun _ => .demand fun _ staged => ?_
  have valid := checkInstalled_ok.mp checked
  refine (placeInstalled_leads _ _ _).seq fun _ w _ ⟨filled, ready⟩ => ?_
  refine (write_leads .unstage).seq fun _ w₁ _ unstaged => ?_
  refine (write_leads (.disarm disarms)).seq fun _ w₂ _ disarmed => ?_
  -- Only the marks have changed since the slot was checked.
  have active : w.disk.active = v.disk.active := by obtain ⟨_, same, -⟩ := filled; rw [same]
  have final : w₂.disk = { w.disk with staged := none, pending := none } := by
    rw [disarmed, unstaged]
  have same : v.disk.active = w₂.disk.active := by rw [final]; exact active.symm
  rw [same]
  refine recordInstalled_leads aims (some executable) (by rw [final]) (by rw [final]) fun different => ?_
  rw [← same] at different ⊢
  obtain ⟨holds, kin⟩ := ready different
  rw [final]
  refine ⟨holds, kin, fun old found => ?_⟩
  obtain ⟨oldHolds, oldKin, older⟩ := valid old found
  refine ⟨.head ?_ (.single kin), older⟩
  change Kin (w.disk.executable old.digest) (some executable)
  rw [(filled.holds oldHolds).1]
  exact oldKin

/-- The target's slot is ready, and is of one identity with the authority's. -/
theorem placeTarget_leads (target : Target V) {authority : Digest}
    (held : v.disk.Holds authority) :
    Leads (Edit m) v (placeTarget target authority) fun _ s => Fills v.disk s ∧
      s.Holds target.digest ∧ Kin (s.executable authority) (s.executable target.digest) := by
  refine (ensureSlot_leads target.digest).seq fun _ w _ ⟨ensured, _⟩ => .look ?_
  split
  · refine (checkSlot_leads _ _).imp ?_
    rintro _ _ ⟨rfl, holds, kin⟩
    exact ⟨ensured, holds, kin⟩
  · next empty =>
    have empty : w.disk.executable target.digest = none := by simpa using empty
    refine .refuse fun _ => .demand fun _ valid => .demand fun _ kin => ?_
    refine (write_leads (.slot target.digest (.inl empty) (insert_others _))).imp ?_
    rintro _ _ rfl
    have filled := fills_insert (u := w.disk) empty (some target.bytes)
    have placed : ({ w.disk with
        slots := w.disk.slots.insert target.digest (some target.bytes) } : Updates V).executable
          target.digest = some target.bytes := by
      simp only [Updates.executable, Std.ExtTreeMap.getElem?_insert_self, Option.join_some]
    refine ⟨ensured.trans filled, ?_, ?_⟩
    · rw [Updates.Holds, placed]
      exact valid
    · rw [placed, (filled.holds (ensured.holds held).2).1]
      exact kin

theorem verifyMaterialized_leads (running : V) (target : Target V) :
    Leads (Edit m) v (verifyMaterialized running target) fun _ _ => True := by
  refine .look (.demand fun floor floored => .refuse fun newer => .refuse fun _ => ?_)
  refine .demand fun active read => ?_
  obtain ⟨found, held⟩ := Updates.readActive_ok.mp read
  refine (placeTarget_leads target held).seq fun _ w _ ⟨filled, holds, kin⟩ => ?_
  obtain ⟨slots, made, -⟩ := filled
  have stage : Edit m w.disk
      { w.disk with staged := some ⟨target.version, target.digest⟩ } := by
    refine .stage (by rw [made]; exact found) holds kin fun other member => ?_
    rw [made] at member
    exact lt_of_le_of_lt (Updates.le_floor floored member) (not_le.mp newer)
  exact (write_leads stage).seq fun _ _ _ _ => .pure trivial

/-- What the records are does not matter to a pruning that ends an operation. -/
theorem pruned_leads : Leads (Edit m) v pruneSlots fun _ _ => True :=
  pruneSlots_leads.imp fun _ _ _ => trivial

theorem stageSigned_leads (running : V) (target : Target V) :
    Leads (Edit m) v (stageSigned running target) fun _ _ => True := by
  refine .look (.demand fun _ _ => .refuse fun _ => ?_)
  refine pruned_leads.seq fun _ _ _ _ => ?_
  exact (verifyMaterialized_leads running target).following fun _ => pruned_leads

theorem activateStaged_leads (arms : m.arm = v.disk.staged) (tallies : m.tally) :
    Leads (Edit m) v activateStaged fun _ _ => True := by
  refine .look (.demand fun record found => .demand fun _ holds => .demand fun _ newer => ?_)
  obtain ⟨active, isActive, -, newer, kin⟩ := Updates.validateAgainstActive_ok.mp newer
  have staged : v.disk.staged = some record := okOr_eq_ok.mp found
  refine (write_leads (.tally tallies)).seq fun _ w _ made => ?_
  have arm : Edit m w.disk { w.disk with pending := some record } := by
    rw [made]
    exact .arm (arms.trans staged) isActive holds kin (newer.symm.imp id fun same => ⟨staged, same⟩)
  exact (write_leads arm).seq fun _ _ _ _ => .pure trivial

theorem cancelActivation_leads (disarms : m.disarm) :
    Leads (Edit m) v cancelActivation fun _ _ => True :=
  (write_leads (.disarm disarms)).seq fun _ _ _ _ => pruned_leads

theorem fillCopy_leads (digest : Digest) :
    Leads (Edit m) v (fillCopy digest) fun _ s => ∃ copies, s = { v.disk with copies } := by
  refine (ensureCopy_leads digest).seq fun _ w _ ensured => .look ?_
  obtain ⟨copies, made⟩ := ensured
  split
  · exact .pure ⟨copies, made⟩
  · refine .demand fun bytes _ => (writeNewCopy_leads digest bytes).imp ?_
    rintro _ _ ⟨copies', rfl⟩
    exact ⟨copies', by rw [made]⟩

/-- Only the copies and the fallback record have changed. -/
theorem preserveFallback_leads (active : SlotRecord V) :
    Leads (Edit m) v (preserveFallback active) fun _ s =>
      ∃ copies fallback, s = { v.disk with copies, fallback } := by
  refine .look ?_
  split
  · exact .pure ⟨_, _, rfl⟩
  next previous found =>
    refine .demand fun _ _ => ?_
    split
    · exact .pure ⟨_, _, rfl⟩
    refine (fillCopy_leads previous.digest).seq fun _ w _ ⟨copies, made⟩ => ?_
    refine .look (.demand fun _ _ => ?_)
    have same : w.disk.previous = some previous := by rw [made]; exact found
    have keep : Edit m w.disk { w.disk with fallback := some previous } := by
      rw [← same]
      exact .keep (by rw [same]; rfl)
    refine (write_leads keep).seq fun _ w' _ kept => ?_
    refine (pruneFallbacks_leads previous.digest).imp ?_
    rintro _ _ ⟨copies', rfl⟩
    exact ⟨copies', some previous, by rw [kept, made]⟩

/-- What is readied is newer than the active release, in its slot and of its identity. -/
theorem prepareLocal_leads (version : V) (bytes : Bytes) :
    Leads (Edit m) v (prepareLocal version bytes) fun result s => ∀ record, result = some record →
      record = ⟨version, Sha256.digest bytes⟩ ∧ s.Holds record.digest ∧
        ∃ active, s.active = some active ∧ active.version < record.version ∧
          Kin (s.executable active.digest) (s.executable record.digest) := by
  refine .look ?_
  split
  · exact .pure nofun
  next active found =>
    refine .demand fun _ held => ?_
    split
    · exact .pure nofun
    next newer =>
      refine .demand fun floor _ => .refuse fun _ => .refuse fun _ => ?_
      refine (fillSlot_leads _ bytes).seq fun _ w₁ _ filled => ?_
      refine (checkSlot_leads _ _).seq fun _ w₂ _ ⟨checked, holds, kin⟩ => ?_
      refine (preserveFallback_leads active).seq fun _ w₃ _ ⟨copies, fallback, kept⟩ => .pure ?_
      have same := (filled.holds held).1
      obtain ⟨slots, made, -⟩ := filled
      rw [← same, ← checked] at kin
      rintro _ ⟨⟩
      rw [kept]
      refine ⟨rfl, holds, active, ?_, not_le.mp newer, kin⟩
      rw [checked, made]
      exact found

theorem stageLocalCandidate_leads (arms : m.arm = some ⟨version, Sha256.digest bytes⟩) :
    Leads (Edit m) v (stageLocalCandidate version bytes) fun _ _ => True := by
  refine (prepareLocal_leads version bytes).seq fun result w _ ready => ?_
  cases result with
  | none => exact .pure trivial
  | some record =>
    obtain ⟨rfl, holds, active, found, newer, kin⟩ := ready record rfl
    refine (write_leads (.arm arms found holds kin (.inl newer))).seq fun _ _ _ _ => ?_
    exact .pure trivial

theorem removeStagedIfMatching_leads (digest : Digest) :
    Leads (Edit m) v (removeStagedIfMatching digest) fun _ _ => True := by
  refine .look ?_
  split
  · exact (write_leads .unstage).imp fun _ _ _ => trivial
  · exact .pure trivial

/-- A commitment of the pending release. -/
theorem commitPending_leads (aims : m.aim = .commit record) (disarms : m.disarm)
    (pending : v.disk.pending = some record) :
    Leads (Edit m) v (commitPending record) fun _ _ => True := by
  refine .look (.demand fun _ holds => .demand fun _ newer => ?_)
  obtain ⟨active, found, -, newer, kin⟩ := Updates.validateAgainstActive_ok.mp newer
  have pushed : Leads (Edit m) v
      (if v.disk.active.isSome ∧ v.disk.active ≠ some record then writePrevious v.disk.active
        else pure () : Operation V Unit)
      fun _ s => ∃ previous, s = { v.disk with previous } ∧
        (active ≠ record → previous = some active) := by
    split
    · next different =>
      refine (write_leads (.push different.1)).imp ?_
      rintro _ _ rfl
      exact ⟨_, rfl, fun _ => found⟩
    · next same =>
      refine .pure ⟨_, rfl, fun different => absurd ⟨?_, ?_⟩ same⟩
      · rw [found]; rfl
      · rw [found]; exact fun eq => different (Option.some.inj eq)
  refine pushed.seq fun _ w _ ⟨previous, made, back⟩ => .look ?_
  have promoted : Leads (Edit m) w
      (if w.disk.active ≠ some record then writeActive record else pure () : Operation V Unit)
      fun _ _ => True := by
    split
    · next different =>
      have isActive : w.disk.active = some active := by rw [made]; exact found
      have other : active ≠ record := fun eq => different (by rw [isActive, eq])
      have above := newer.resolve_left fun eq => other eq.symm
      refine (write_leads ?_).imp fun _ _ _ => trivial
      rw [made]
      exact .commit aims found (back other) pending holds kin above
    · exact .pure trivial
  refine promoted.seq fun _ _ _ _ => (write_leads (.disarm disarms)).seq fun _ _ _ _ => ?_
  exact (removeStagedIfMatching_leads _).seq fun _ _ _ _ => pruned_leads

theorem discardPending_leads (disarms : m.disarm) :
    Leads (Edit m) v discardPending fun _ _ => True := by
  refine .look ((write_leads (.disarm disarms)).seq fun _ w _ _ => ?_)
  have unstaged : Leads (Edit m) w
      (v.disk.pending.forM fun pending => removeStagedIfMatching pending.digest : Operation V Unit)
      fun _ _ => True := by
    cases v.disk.pending with
    | none => exact .pure trivial
    | some pending => exact removeStagedIfMatching_leads _
  exact unstaged.seq fun _ _ _ _ => pruned_leads

theorem refillSlot_leads (digest : Digest) :
    Leads (Edit m) v (refillSlot digest) fun _ s => Fills v.disk s := by
  refine .look ?_
  split
  · exact .pure (Fills.refl _)
  next empty =>
    have empty : v.disk.executable digest = none := by simpa using empty
    refine (ensureSlot_leads digest).seq fun _ w _ ⟨ensured, same⟩ => .demand fun bytes _ => ?_
    refine (writeNewSlot_leads (same.trans empty) bytes).imp ?_
    exact fun _ _ filled => ensured.trans filled

/-- The fallback that a revert may record, its slot in place and of one identity with the restored
release's. -/
theorem restoreFallback_leads (restored : SlotRecord V) (failed : Digest) :
    Leads (Edit m) v (restoreFallback restored failed) fun result s => Fills v.disk s ∧
      ∀ fallback, result = some fallback → v.disk.fallback = some fallback ∧
        fallback.digest ≠ failed ∧ s.Holds fallback.digest ∧
        Kin (s.executable restored.digest) (s.executable fallback.digest) := by
  refine .look ?_
  split
  · exact .pure ⟨Fills.refl _, nofun⟩
  next fallback found =>
    split
    · exact .pure ⟨Fills.refl _, nofun⟩
    next other =>
      refine .demand fun _ _ => ?_
      refine (refillSlot_leads fallback.digest).seq fun _ w _ filled => ?_
      refine .look (.demand fun _ holds => .demand fun _ kin => .pure ⟨filled, ?_⟩)
      rintro _ ⟨⟩
      exact ⟨found, fun same => other (.inr same), holds, kin⟩

/-- A revert makes the previous release active, and puts the fallback or nothing in its place. -/
theorem revertLocalCandidate_leads (aims : m.aim = v.disk.previous.elim .idle .restore)
    (failed : Digest) :
    Leads (Edit m) v (revertLocalCandidate failed) fun _ s =>
      (∀ active, s.active = some active → active.digest ≠ failed) ∧
        (∀ previous, s.previous = some previous → previous.digest ≠ failed) ∧
        s.fallback = v.disk.fallback := by
  refine .look (.demand fun active found => .demand fun previous before => ?_)
  have isActive := okOr_eq_ok.mp found
  have isPrevious := okOr_eq_ok.mp before
  rw [isPrevious] at aims
  refine .demand fun _ held => .demand fun _ holds => .refuse fun mistaken => ?_
  refine .demand fun _ kin => ?_
  refine (write_leads (.back aims isActive isPrevious holds kin)).seq fun _ w _ made => ?_
  refine (restoreFallback_leads previous failed).seq fun result w' _ ⟨filled, restored⟩ => ?_
  obtain ⟨slots, same, -⟩ := filled
  rw [made] at same
  have fallen : Edit m w'.disk { w'.disk with previous := result } := by
    cases result with
    | none => exact .forget
    | some fallback =>
      obtain ⟨kept, -, holds, kin⟩ := restored fallback rfl
      rw [made] at kept
      exact .fall (by rw [same]) (by rw [same]; exact kept) holds kin
  refine (write_leads fallen).seq fun _ w'' _ wrote => pruneSlots_leads.imp ?_
  rintro _ _ ⟨_, _, rfl⟩
  rw [wrote, same]
  refine ⟨?_, fun fallback is => (restored fallback is).2.1, rfl⟩
  rintro _ ⟨⟩
  exact fun wrong => mistaken (.inr wrong)

theorem reserve_leads (tallies : m.tally) (candidate : SlotRecord V) :
    Leads (Edit m) v (reserve candidate) fun _ s => ∃ attempts, s = { v.disk with attempts } := by
  refine .look ?_
  split
  · exact .pure ⟨_, rfl⟩
  · refine (write_leads (.tally tallies)).seq fun _ w _ made => .pure ?_
    exact ⟨_, made⟩

theorem judge_leads {candidate : SlotRecord V} (aims : m.aim = .commit candidate)
    (disarms : m.disarm) (pending : v.disk.pending = some candidate) (verdict : Verdict) :
    Leads (Edit m) v (judge candidate verdict) fun _ _ => True := by
  cases verdict with
  | healthy => exact commitPending_leads aims disarms pending
  | unhealthy => exact discardPending_leads disarms
  | killed => exact .pure trivial

section Aims

variable (aims : m.aim = v.disk.pending.elim .idle .commit) (disarms : m.disarm)

include aims disarms

/-- A selection leaves a launched candidate pending. -/
theorem select_leads (tallies : m.tally) :
    Leads (Edit m) v select fun choice s => ∀ candidate, choice = .trial candidate →
      m.aim = .commit candidate ∧ s.pending = some candidate := by
  refine .look (.demand fun active read => .demand fun found readPending => ?_)
  obtain ⟨isPending, -⟩ := Updates.readPending_ok.mp readPending
  rw [isPending] at aims
  split
  · exact .pure nofun
  next candidate =>
    split
    · next same =>
      rw [← same]
      exact (commitPending_leads aims disarms isPending).seq fun _ _ _ _ => .pure nofun
    · refine (reserve_leads tallies candidate).seq fun granted w _ ⟨attempts, made⟩ => ?_
      split
      · refine .pure ?_
        rintro _ ⟨⟩
        rw [made]
        exact ⟨aims, isPending⟩
      · exact (discardPending_leads disarms).seq fun _ _ _ _ => .pure nofun

theorem supervise_leads (tallies : m.tally) (verdict : Verdict) :
    Leads (Edit m) v (supervise verdict) fun _ _ => True := by
  refine (select_leads aims disarms tallies).seq fun choice w _ launched => ?_
  split
  · next candidate =>
    obtain ⟨aims, pending⟩ := launched candidate rfl
    exact judge_leads aims disarms pending verdict
  · exact .pure trivial

theorem commitRead_leads : Leads (Edit m) v commitRead fun _ _ => True := by
  refine .look (.demand fun pending read => ?_)
  obtain ⟨isPending, -⟩ := Updates.readPending_ok.mp read
  cases pending with
  | none => exact .pure trivial
  | some record =>
    rw [isPending] at aims
    exact commitPending_leads aims disarms isPending

end Aims

/-- The mandate of an operation in a given directory. -/
def Order.mandate (updates : Updates V) : Order V → Mandate V
  | .install version executable =>
    { aim := .install ⟨version, Sha256.digest executable⟩, disarm := true }
  | .stage _ _ => {}
  | .activate => { arm := updates.staged, tally := true }
  | .cancel | .discard => { disarm := true }
  | .stageLocal version bytes => { arm := some ⟨version, Sha256.digest bytes⟩ }
  | .commit => { aim := updates.pending.elim .idle .commit, disarm := true }
  | .revert _ => { aim := updates.previous.elim .idle .restore }
  | .supervise _ =>
    { aim := updates.pending.elim .idle .commit, disarm := true, tally := true }

/-- Every operation is a succession of edits within its mandate, however it ends. -/
theorem perform_leads (order : Order V) :
    Leads (Edit (order.mandate v.disk)) v (perform order) fun _ _ => True := by
  cases order with
  | install version executable =>
    exact (initializeInstalled_leads rfl rfl).imp fun _ _ _ => trivial
  | stage running target =>
    exact (stageSigned_leads running target).seq fun _ _ _ _ => .pure trivial
  | activate => exact (activateStaged_leads rfl rfl).seq fun _ _ _ _ => .pure trivial
  | cancel => exact cancelActivation_leads rfl
  | stageLocal version bytes =>
    exact (stageLocalCandidate_leads rfl).seq fun _ _ _ _ => .pure trivial
  | commit => exact commitRead_leads rfl rfl
  | discard => exact discardPending_leads rfl
  | revert failed =>
    exact (revertLocalCandidate_leads rfl failed).imp fun _ _ _ => trivial
  | supervise verdict => exact supervise_leads rfl rfl rfl verdict

end Supgang.Update
