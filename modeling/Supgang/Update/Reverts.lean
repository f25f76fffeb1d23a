/-
# Update.Reverts — what a revert leads back to

A revert takes the place of the active release with the previous one, and that one's place with the
copy kept when a local candidate was last staged. The kept record is compared with the release that
failed and with the one restored, and is passed over when it is either; it stays on disk all the
same. A release once kept and then reverted from is therefore handed out by the next revert but one.
Where the kept record is not the failing release, none of the three records names it until it is
made active again.

* `Clear` — none of the records that reverts lead to names a digest.
* `reverted_release_stays_out` — it stays so until the release is active again.
* `kept_failure_returns` — the run in which a reverted release comes back.
-/
import Supgang.Update.Soundness

namespace Supgang.Update

set_option autoImplicit false

open Theory List Theory.Crash

section Runs

variable {V : Type} [Sha256] [Platform] [LinearOrder V] {m : Mandate V} {u t : Updates V}

/-- Neither the active release, nor the one a revert restores, nor the one it falls back to. -/
structure Clear (failed : Digest) (u : Updates V) : Prop where
  active : ∀ record, u.active = some record → record.digest ≠ failed
  previous : ∀ record, u.previous = some record → record.digest ≠ failed
  fallback : ∀ record, u.fallback = some record → record.digest ≠ failed

variable {failed : Digest}

/-- Only by becoming active does a release come into the records that reverts lead to. -/
theorem Edit.clear (h : Clear failed u) (edit : Edit m u t) :
    Clear failed t ∨ ∃ record, t.active = some record ∧ record.digest = failed := by
  have raised : ∀ record, Clear failed { u with active := some record } ∨
      ∃ other, some record = some other ∧ other.digest = failed := by
    intro record
    by_cases same : record.digest = failed
    · exact .inr ⟨record, rfl, same⟩
    · refine .inl ⟨?_, h.previous, h.fallback⟩
      rintro _ ⟨⟩
      exact same
  cases edit with
  | slot digest free others => exact .inl ⟨h.active, h.previous, h.fallback⟩
  | copy => exact .inl ⟨h.active, h.previous, h.fallback⟩
  | tally allowed => exact .inl ⟨h.active, h.previous, h.fallback⟩
  | stage found holds kin newer => exact .inl ⟨h.active, h.previous, h.fallback⟩
  | unstage => exact .inl ⟨h.active, h.previous, h.fallback⟩
  | arm allowed found holds kin newer => exact .inl ⟨h.active, h.previous, h.fallback⟩
  | disarm allowed => exact .inl ⟨h.active, h.previous, h.fallback⟩
  | push found => exact .inl ⟨h.active, h.active, h.fallback⟩
  | @install record _ aims holds known above unstaged disarmed => exact raised record
  | @commit active record aims found pushed armed holds kin newer => exact raised record
  | keep found => exact .inl ⟨h.active, h.previous, h.previous⟩
  | back aims found before holds kin =>
    refine .inl ⟨?_, h.previous, h.fallback⟩
    rintro _ ⟨⟩
    exact h.previous _ before
  | fall found kept holds kin =>
    refine .inl ⟨h.active, ?_, h.fallback⟩
    rintro _ ⟨⟩
    exact h.fallback _ kept
  | forget => exact .inl ⟨h.active, nofun, h.fallback⟩

/-- An operation writes one active record at most, so one that made the release active leaves it
so. -/
theorem Clear.after (h : Clear failed u) (event : Event V) :
    Clear failed (u.after event) ∨ ∃ record, (u.after event).active = some record ∧
      record.digest = failed := by
  have either : Clear failed (u.after event) ∨ ∃ record, (event.order.mandate u).aim.record = some record ∧
      (u.after event).active = some record ∧ record.digest = failed := by
    refine Updates.after_keeps (P := fun s => Clear failed s ∨ ∃ record,
      (event.order.mandate u).aim.record = some record ∧ s.active = some record ∧ record.digest = failed)
      event (.inl h) ?_
    rintro s t (clear | ⟨record, aims, found, same⟩) edit
    · rcases edit.clear clear with clear' | ⟨record, found, same⟩
      · exact .inl clear'
      rcases edit.active with kept | ⟨other, aims, isOther⟩
      · exact absurd same (clear.active record (kept.symm.trans found))
      · cases found.symm.trans isOther
        exact .inr ⟨record, aims, found, same⟩
    · refine .inr ⟨record, aims, ?_, same⟩
      rcases edit.active with kept | ⟨other, aims', isOther⟩
      · exact kept.trans found
      · cases aims.symm.trans aims'
        exact isOther
  exact either.imp id fun ⟨record, _, found, same⟩ => ⟨record, found, same⟩

/-- While the release is not made active, it stays out of all three records. -/
theorem Clear.run (h : Clear failed u) (later : List (Event V))
    (inactive : ∀ earlier, earlier <+: later → (u.run earlier).active.map SlotRecord.digest ≠ some
      failed) :
    Clear failed (u.run later) := by
  induction later generalizing u with
  | nil => exact h
  | cons event rest ih =>
    refine ih ?_ fun earlier within => inactive (event :: earlier) (prefix_cons_inj event |>.mpr within)
    refine (h.after event).resolve_right ?_
    rintro ⟨record, found, same⟩
    have idle := inactive [event] (prefix_cons_inj event |>.mpr nil_prefix)
    change (u.after event).active.map SlotRecord.digest ≠ some failed at idle
    rw [found, ← same] at idle
    exact idle rfl

/-- **A revert does not lead back.** Once a revert from a release has succeeded that is not the kept
fallback, no revert leads to that release until an operation has made it active again. -/
theorem reverted_release_stays_out {failed : Digest} {crash : Option (Nat × Nat)}
    (reverted : succeeds (perform (.revert failed)) ⟨u, crash⟩)
    (unkept : u.fallback.map SlotRecord.digest ≠ some failed) (later : List (Event V))
    (inactive : ∀ earlier, earlier <+: later →
      ((u.after ⟨.revert failed, crash⟩).run earlier).active.map SlotRecord.digest ≠ some failed)
    (record : SlotRecord V)
    (target : ((u.after ⟨.revert failed, crash⟩).run later).revertTarget = .ok (some record)) :
    record.digest ≠ failed := by
  obtain ⟨_, run⟩ := succeeds_iff.mp reverted
  have leads := revertLocalCandidate_leads (v := ⟨u, crash⟩) (m := Order.mandate u (.revert failed)) rfl failed
  obtain ⟨-, active, previous, fallback⟩ := Ends.ok leads run
  have clear : Clear failed (u.after ⟨.revert failed, crash⟩) := by
    refine ⟨active, previous, fun record kept same => ?_⟩
    change (left (perform (.revert failed)) ⟨u, crash⟩).disk.fallback = _ at kept
    rw [fallback] at kept
    change u.fallback = some record at kept
    rw [kept, ← same] at unkept
    exact unkept rfl
  have final := clear.run later inactive
  refine final.previous record ?_
  simp only [Updates.revertTarget, ok_steps] at target
  obtain ⟨_, -, found⟩ := target
  exact found

end Runs

/-! ## The run in which a reverted release comes back -/

attribute [local instance] summingSha256 plainPlatform

/-- Two releases of one version are installed in turn, and a local candidate is staged, for which the
first is kept, and discarded. -/
def keptFirst : List (Event Nat) :=
  [⟨.install 1 [2], none⟩, ⟨.stageLocal 2 [3], none⟩, ⟨.discard, none⟩, ⟨.install 1 [1], none⟩]

/-- The first release, active again, is reverted from; a third is installed and reverted from: the
next revert would restore the first, which has not been active since it failed. -/
theorem kept_failure_returns :
    ∃ (start : Updates Nat) (events later : List (Event Nat)) (failed : Digest),
      start.Installed ∧ succeeds (perform (.revert failed)) (calm (start.run events)) ∧
        (∀ earlier, earlier <+: later →
          (((start.run events).after ⟨.revert failed, none⟩).run earlier).active.map
            SlotRecord.digest ≠ some failed) ∧
        ∃ record, (((start.run events).after ⟨.revert failed, none⟩).run later).revertTarget =
          .ok (some record) ∧ record.digest = failed := by
  refine ⟨firstInstalled, keptFirst,
    [⟨.install 1 [4], none⟩, ⟨.revert (.replicate 32 4), none⟩], .replicate 32 1,
    firstInstalled_installed, by decide +kernel, ?_, ⟨1, .replicate 32 1⟩, ?_, rfl⟩
  · intro earlier within
    revert earlier
    simp only [← mem_inits]
    decide +kernel
  · decide +kernel

/-- The same of a release that was never kept: after it failed, the next release installed leaves
the first to return to. -/
theorem reverted_release_stays_out_pair :
    ∃ record, (((firstInstalled.run [⟨.install 2 [2], none⟩]).after
        ⟨.revert (.replicate 32 2), none⟩).run [⟨.install 2 [3], none⟩]).revertTarget =
          .ok (some record) ∧ record.digest ≠ .replicate 32 2 := by
  have target : (((firstInstalled.run [⟨.install 2 [2], none⟩]).after
      ⟨.revert (.replicate 32 2), none⟩).run [⟨.install 2 [3], none⟩]).revertTarget =
        .ok (some ⟨1, .replicate 32 1⟩) := by decide +kernel
  have inactive : ∀ earlier, earlier <+: [(⟨.install 2 [3], none⟩ : Event Nat)] →
      (((firstInstalled.run [⟨.install 2 [2], none⟩]).after
        ⟨.revert (.replicate 32 2), none⟩).run earlier).active.map SlotRecord.digest ≠
          some (.replicate 32 2) := by
    simp only [← mem_inits]
    decide +kernel
  exact ⟨_, target, reverted_release_stays_out (u := firstInstalled.run [⟨.install 2 [2], none⟩])
    (by decide +kernel) (by decide +kernel) _ inactive _ target⟩

end Supgang.Update
