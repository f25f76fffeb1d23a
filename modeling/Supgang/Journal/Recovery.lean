/-
# Journal.Recovery — what the journal commits, and what it finds again

`Committed journal disk frames` says that a handle and a disk agree on the committed frames: the
file is their image, the witness is the witness of that image, and the running hasher has absorbed
it. Appending, batch appending and compaction either refuse before touching the disk or move from
one committed state to the next (`append_cases`, `appendBatch_cases`, `compact_cases`), and the
actions they take on the way are spelled out, so every crash is one of those `Theory.Disk`
classifies.

* `open_kept` — a file whose witness vouches for a prefix of its frames opens to that prefix.
* `open_committed` — whatever a restart finds, a journal that opens is committed to what it
  returned.
* `open_replaced` — a replaced file under the old witness opens to the old frames, to the new
  ones, or not at all.
* `journal_crash_safe` — **crash safety** of append, batch append and compaction.
* `frame_layer_exact` — **the frame layer is an exact inverse**, and a handle describes its file.
-/
import Supgang.Journal.Frames

namespace Supgang.Journal

set_option autoImplicit false

open Theory List
open EStateM (run_bind run_get run_pure)

section Recovery

variable [Sha256]

/-! ## Committed states -/

/-- The disk that holds exactly these frames, witnessed. -/
def diskOf (frames : List Bytes) : Disk :=
  ⟨image frames, [], some (Witness.encode (journalWitness (image frames) frames.length))⟩

/-- The handle of a journal that holds exactly these frames. -/
def handleOf (frames : List Bytes) : Journal := ⟨image frames, UInt64.ofNat frames.length⟩

/-- The frames are ones a journal may hold. -/
structure Storable (frames : List Bytes) : Prop where
  valid : ∀ payload ∈ frames, ValidPayload payload
  fits : (image frames).length ≤ maxJournalBytes

/-- The handle and the disk agree that these frames are committed. -/
structure Committed (journal : Journal) (disk : Disk) (frames : List Bytes) : Prop where
  storable : Storable frames
  disk_eq : disk = diskOf frames
  handle_eq : journal = handleOf frames

theorem diskOf_settled (frames : List Bytes) : (diskOf frames).Settled := rfl

@[simp] theorem diskOf_file (frames : List Bytes) : (diskOf frames).file = image frames := by
  simp [diskOf, Disk.file]

theorem length_le_image (frames : List Bytes) : frames.length ≤ (image frames).length := by
  induction frames with
  | nil => simp
  | cons payload frames ih =>
    have := frameLength_pos payload
    simp only [image, flatMap_cons, length_append, frameBytes_length,
      length_cons] at ih ⊢
    omega

variable {frames whole payloads kept : List Bytes} {disk : Disk} {journal : Journal}
  {expected : JournalWitness} {length validLength : Nat} {log : List Action} {torn bytes : Bytes}
  {head : Option Bytes} {tape : Tape}

theorem Storable.toNat_length (storable : Storable frames) :
    (UInt64.ofNat (image frames).length).toNat = (image frames).length := by
  have := storable.fits
  unfold maxJournalBytes at this
  rw [UInt64.toNat_ofNat']
  exact Nat.mod_eq_of_lt (by omega)

theorem Storable.toNat_count (storable : Storable frames) :
    (UInt64.ofNat frames.length).toNat = frames.length := by
  have := storable.fits
  have := length_le_image frames
  unfold maxJournalBytes at *
  rw [UInt64.toNat_ofNat']
  exact Nat.mod_eq_of_lt (by omega)

theorem Storable.of_prefix (storable : Storable frames) (ahead : whole <+: frames) :
    Storable whole where
  valid payload h := storable.valid payload (ahead.subset h)
  fits := (image_prefix_image ahead).length_le.trans storable.fits

/-! ## The operations move between committed states -/

/-- The actions that commit a batch behind the frames already there. -/
def commitActions (frames batch : List Bytes) : List Action :=
  (batch.flatMap frameChunks).map .write ++ [.sync, .installHead
    (Witness.encode (journalWitness (image (frames ++ batch)) (frames ++ batch).length))]

/-- The actions that replace the journal. -/
def replaceActions (payloads : List Bytes) : List Action :=
  [.replaceFile (image payloads), .installHead
    (Witness.encode (journalWitness (image payloads) payloads.length))]

theorem flatten_frameChunks (batch : List Bytes) :
    (batch.flatMap frameChunks).flatten = batch.flatMap frameBytes := by
  induction batch with
  | nil => rfl
  | cons payload batch ih => simp [frameBytes, ih]

theorem after_commitActions (frames batch : List Bytes) :
    (diskOf frames).after (commitActions frames batch) = diskOf (frames ++ batch) := by
  rw [commitActions, Disk.after_append, Disk.after_writes, flatten_frameChunks]
  simp [diskOf, Disk.apply, image_append]

/-- Writing and synchronizing the batch, then installing its witness, is committing it. -/
theorem record_commit (frames batch : List Bytes) (log : List Action) :
    Tape.record
      ⟨(diskOf frames).after ((batch.flatMap frameChunks).map .write ++ [.sync]),
        log ++ ((batch.flatMap frameChunks).map .write ++ [.sync])⟩
      (.installHead
        (Witness.encode (journalWitness (image (frames ++ batch)) (frames ++ batch).length))) =
    ⟨diskOf (frames ++ batch), log ++ commitActions frames batch⟩ := by
  rw [← after_commitActions, commitActions]
  simp [Tape.record, Disk.after_append]

theorem after_replaceActions (disk : Disk) (payloads : List Bytes) :
    disk.after (replaceActions payloads) = diskOf payloads := by
  simp [replaceActions, diskOf, Disk.apply]

omit [Sha256] in
theorem not_validPayload {payload : Bytes} :
    ¬ValidPayload payload ↔ payload = [] ∨ maxFrameBytes < payload.length := by
  rw [ValidPayload, not_and_or, not_not, not_le]

theorem batchLength_eq_ok {total size : UInt64} :
    batchLength payloads total = .ok size ↔
      (∀ payload ∈ payloads, ValidPayload payload) ∧
        size.toNat = total.toNat + (payloads.flatMap frameBytes).length := by
  induction payloads generalizing total with
  | nil => simp [batchLength, UInt64.toNat_inj, eq_comm]
  | cons payload payloads ih =>
    have hword : ∀ n, n ≤ 2 ^ 32 → (UInt64.ofNat n).toNat = n := fun n hn => by
      rw [UInt64.toNat_ofNat', Nat.mod_eq_of_lt (by omega)]
    rw [batchLength, reject_bind_eq_ok, bind_eq_ok, ← not_validPayload, not_not]
    simp only [okOr_eq_ok, checkedAdd_eq_some, ih, forall_mem_cons, flatMap_cons,
      length_append, frameBytes_length]
    constructor
    · rintro ⟨hvalid, next, hnext, hall, hsize⟩
      have := hvalid.2
      rw [hword _ (by unfold frameLength lengthBytes checksumBytes maxFrameBytes at *; omega)]
        at hnext
      exact ⟨⟨hvalid, hall⟩, by omega⟩
    · rintro ⟨⟨hvalid, hall⟩, hsize⟩
      have := hvalid.2
      have := size.toNat_lt
      have hnext : (UInt64.ofNat (total.toNat + frameLength payload)).toNat
          = total.toNat + frameLength payload := by
        rw [UInt64.toNat_ofNat', Nat.mod_eq_of_lt (by omega)]
      rw [hword _ (by unfold frameLength lengthBytes checksumBytes maxFrameBytes at *; omega)]
      exact ⟨hvalid, _, hnext, hall, by omega⟩

/-- The count that the handle has after a batch it could store. -/
theorem Storable.count_append {batch : List Bytes} (storable : Storable (frames ++ batch)) :
    checkedAdd (handleOf frames).frameCount (UInt64.ofNat batch.length) =
      some (UInt64.ofNat (frames ++ batch).length) := by
  have hbatch : (UInt64.ofNat batch.length).toNat = batch.length := by
    have := storable.toNat_count
    rw [UInt64.toNat_ofNat'] at this ⊢
    rw [length_append] at this
    have hlt := Nat.mod_lt (frames.length + batch.length) (Nat.two_pow_pos 64)
    exact Nat.mod_eq_of_lt (by omega)
  rw [checkedAdd_eq_some, storable.toNat_count, handleOf,
    (storable.of_prefix (prefix_append frames batch)).toNat_count, hbatch, length_append]

theorem hasher_append (frames batch : List Bytes) :
    (handleOf frames).hasher ++ batch.flatMap frameBytes = image (frames ++ batch) := by
  simp [handleOf, image_append]

/-- Frames that can be stored are committed together. -/
theorem commitFrames_cases {batch : List Bytes} {added : Nat} (storable : Storable frames)
    (valid : ∀ payload ∈ batch, ValidPayload payload)
    (total : added = (batch.flatMap frameBytes).length) (log : List Action) :
    (Storable (frames ++ batch) ∧
      ((handleOf frames).commitFrames batch added).run ⟨diskOf frames, log⟩ =
        .ok (handleOf (frames ++ batch))
          ⟨diskOf (frames ++ batch), log ++ commitActions frames batch⟩) ∨
    (maxJournalBytes < (image (frames ++ batch)).length ∧
      ((handleOf frames).commitFrames batch added).run ⟨diskOf frames, log⟩ =
        .error .journalFull ⟨diskOf frames, log⟩) := by
  have hlength : (image (frames ++ batch)).length = (image frames).length + added := by
    rw [image_append, length_append, total]
  rw [commitFrames, run_bind, run_get]
  by_cases hfull : maxJournalBytes < (image frames).length + added
  · refine .inr ⟨hlength ▸ hfull, ?_⟩
    exact run_reject_bind_of (by rwa [diskOf_file]) _ _ _
  · have hnext : Storable (frames ++ batch) :=
      ⟨fun p hp => (mem_append.mp hp).elim (storable.valid p) (valid p), by omega⟩
    have hrecord := record_commit frames batch log
    rw [journalWitness, hlength] at hrecord
    refine .inl ⟨hnext, ?_⟩
    refine (run_reject_bind_of_not (by rwa [diskOf_file]) _ _ _).trans ?_
    simp only [run_bind, diskOf_file, run_performAll, hnext.count_append, okOr_some,
      run_ofExcept_ok, run_perform, run_pure, hasher_append, hrecord]
    rfl

/-- **Appending** commits the frame, or refuses and leaves the tape alone. -/
theorem append_cases (committed : Committed journal disk frames) (payload : Bytes)
    (log : List Action) :
    (Storable (frames ++ [payload]) ∧
      (journal.append payload).run ⟨disk, log⟩ = .ok (handleOf (frames ++ [payload]))
        ⟨diskOf (frames ++ [payload]), log ++ commitActions frames [payload]⟩) ∨
    (¬ValidPayload payload ∧
      (journal.append payload).run ⟨disk, log⟩ = .error .invalidPayload ⟨disk, log⟩) ∨
    (maxJournalBytes < (image (frames ++ [payload])).length ∧
      (journal.append payload).run ⟨disk, log⟩ = .error .journalFull ⟨disk, log⟩) := by
  obtain ⟨storable, rfl, rfl⟩ := committed
  rw [append, run_reject_bind]
  by_cases hvalid : ValidPayload payload
  · rw [if_neg fun bad => not_validPayload.mpr bad hvalid]
    exact (commitFrames_cases storable (by simpa using hvalid) (by simp) log).imp_right .inr
  · rw [if_pos (not_validPayload.mp hvalid)]
    exact .inr (.inl ⟨hvalid, rfl⟩)

/-- **Batch appending** commits the whole batch, or refuses and leaves the tape alone. -/
theorem appendBatch_cases (committed : Committed journal disk frames) (batch : List Bytes)
    (log : List Action) :
    (Storable (frames ++ batch) ∧
      (journal.appendBatch batch).run ⟨disk, log⟩ = .ok (handleOf (frames ++ batch))
        ⟨diskOf (frames ++ batch), log ++ commitActions frames batch⟩) ∨
    (¬Storable (frames ++ batch) ∧
      ∃ e, (journal.appendBatch batch).run ⟨disk, log⟩ = .error e ⟨disk, log⟩) := by
  obtain ⟨storable, rfl, rfl⟩ := committed
  rw [appendBatch, run_bind]
  cases hsize : batchLength batch 0 with
  | error e =>
    refine .inr ⟨fun hnext => ?_, e, by simp⟩
    have hvalid := fun payload hp => hnext.valid payload (mem_append_right frames hp)
    have hfits := hnext.fits
    rw [image_append, length_append] at hfits
    unfold maxJournalBytes at hfits
    have hok : batchLength batch 0 = .ok (UInt64.ofNat (batch.flatMap frameBytes).length) := by
      refine batchLength_eq_ok.mpr ⟨hvalid, ?_⟩
      rw [UInt64.toNat_ofNat', Nat.mod_eq_of_lt (by omega)]
      simp
    rw [hok] at hsize
    cases hsize
  | ok size =>
    obtain ⟨hvalid, htotal⟩ := batchLength_eq_ok.mp hsize
    rw [UInt64.toNat_zero, Nat.zero_add] at htotal
    simp only [run_ofExcept_ok]
    exact (commitFrames_cases storable hvalid htotal log).imp_right fun ⟨full, refused⟩ =>
      ⟨fun hnext => absurd hnext.fits (not_le.mpr full), .journalFull, refused⟩

/-- **Compaction** replaces the frames, or refuses and leaves the tape alone. -/
theorem compact_cases (payloads : List Bytes) (disk : Disk) (log : List Action) :
    (Storable payloads ∧
      (compact payloads).run ⟨disk, log⟩ = .ok (handleOf payloads)
        ⟨diskOf payloads, log ++ replaceActions payloads⟩) ∨
    (¬Storable payloads ∧ ∃ e, (compact payloads).run ⟨disk, log⟩ = .error e ⟨disk, log⟩) := by
  have hmagic : (UInt64.ofNat journalMagic.length).toNat = 8 := by simp
  have hlength : (image payloads).length = 8 + (payloads.flatMap frameBytes).length := by
    simp [image]
  rw [compact, run_bind]
  cases hsize : batchLength payloads (UInt64.ofNat journalMagic.length) with
  | error e =>
    refine .inr ⟨fun hnext => ?_, e, by simp⟩
    have hok : batchLength payloads (UInt64.ofNat journalMagic.length)
        = .ok (UInt64.ofNat (image payloads).length) := by
      refine batchLength_eq_ok.mpr ⟨hnext.valid, ?_⟩
      rw [hnext.toNat_length, hmagic, hlength]
    rw [hok] at hsize
    cases hsize
  | ok size =>
    obtain ⟨hvalid, htotal⟩ := batchLength_eq_ok.mp hsize
    rw [hmagic, ← hlength] at htotal
    by_cases hfull : maxJournalBytes < size.toNat
    · refine .inr ⟨fun hnext => by have := hnext.fits; omega, .journalFull, ?_⟩
      simp only [run_ofExcept_ok]
      exact run_reject_bind_of hfull _ _ _
    · have hword : size = UInt64.ofNat (image payloads).length := by
        rw [← htotal, UInt64.ofNat_toNat]
      have hafter := after_replaceActions disk payloads
      refine .inl ⟨⟨hvalid, by omega⟩, ?_⟩
      simp only [run_ofExcept_ok]
      refine (run_reject_bind_of_not hfull _ _ _).trans ?_
      simp only [run_bind, run_perform, run_pure]
      rw [← hafter, hword]
      simp [Tape.record, replaceActions, handleOf, image, journalWitness]

/-! ## Opening -/

/-- The actions that cut a file of `total` bytes to its first `length`. -/
def cutActions (length total : Nat) : List Action :=
  if length < total then [.setLen length, .sync] else []

section Reading

variable (nonempty : disk.file ≠ []) (hread : readFrames disk.file = .ok (frames, validLength))
  (hcovered : validLength ≤ disk.file.length)
  (hhead : Witness.read disk.head = .ok (some expected))

include nonempty hread hcovered hhead

theorem open_reconciled (settled : disk.Settled)
    (hkept : reconcile disk.file frames validLength (journalWitness (disk.file.take validLength)
      frames.length) expected = .ok (kept, length))
    (hlength : length ≤ disk.file.length) :
    openJournal.run ⟨disk, log⟩ =
      .ok (⟨disk.file.take length, UInt64.ofNat kept.length⟩, kept)
        ⟨⟨disk.file.take length, [], disk.head⟩, log ++ cutActions length disk.file.length⟩ := by
  have hsome : disk.file.length ≠ 0 := by simpa using nonempty
  have hslice : ∀ n, n ≤ disk.file.length → slice disk.file n = some (disk.file.take n) :=
    fun n hn => if_pos hn
  simp only [openJournal, createFile, settleWitness, truncateTo, run_bind, run_get,
    run_ite, if_neg hsome, run_pure, hread, run_ofExcept_ok, hslice validLength hcovered,
    okOr_some, hhead, hkept, hslice length hlength]
  have hfile := Disk.file_of_settled settled
  have hpending : disk.pending = [] := settled
  by_cases hcut : length < disk.file.length
  · simp only [cutActions, if_pos hcut]
    simp [Disk.apply, hfile, hpending]
  · have hall : disk.file.take length = disk.file := take_of_length_le (by omega)
    simp only [cutActions, if_neg hcut, hall, append_nil]
    rw [hfile, ← hpending]

theorem open_refused {e : JournalError}
    (hkept : reconcile disk.file frames validLength (journalWitness (disk.file.take validLength)
      frames.length) expected = .error e) :
    openJournal.run ⟨disk, log⟩ = .error e ⟨disk, log⟩ := by
  have hsome : disk.file.length ≠ 0 := by simpa using nonempty
  have hslice : slice disk.file validLength = some (disk.file.take validLength) := if_pos hcovered
  simp only [openJournal, createFile, settleWitness, run_bind, run_get,
    if_neg hsome, run_pure, hread, run_ofExcept_ok, hslice, okOr_some, hhead, hkept,
    run_ofExcept_error]

omit nonempty in
/-- The read-only view finds what the witness vouches for. -/
theorem read_reconciled
    (hkept : reconcile disk.file frames validLength (journalWitness (disk.file.take validLength)
      frames.length) expected = .ok (kept, length)) : read disk = .ok kept := by
  have hslice : slice disk.file validLength = some (disk.file.take validLength) := if_pos hcovered
  simp only [read, hread, ok_bind, hhead, okOr_some, hslice]
  unfold reconcile at hkept
  split at hkept
  · rename_i same
    cases hkept
    rw [if_pos same]
    rfl
  · rename_i different
    rw [if_neg different]
    split at hkept
    · simp only [ok_steps, Prod.mk.injEq] at hkept
      obtain ⟨part, hpart, ⟨partFrames, stop⟩, hparse, _, hagree, rfl, rfl⟩ := hkept
      rw [not_or, not_not, not_not] at hagree
      simp only [hpart, okOr_some, ok_bind, hparse]
      rw [if_pos hagree]
      rfl
    · cases hkept

end Reading

/-- The witness of a committed prefix vouches for exactly that prefix. -/
theorem reconcile_kept (storable : Storable whole) (ahead : kept <+: whole) :
    reconcile (image whole ++ torn) whole (image whole).length
      (journalWitness (image whole) whole.length) (journalWitness (image kept) kept.length) =
    .ok (kept, (image kept).length) := by
  have hkept := storable.of_prefix ahead
  obtain ⟨more, hmore⟩ := image_prefix_image ahead
  have hle : (image kept).length ≤ (image whole).length := (image_prefix_image ahead).length_le
  have hword : (journalWitness (image kept) kept.length).length.toNat = (image kept).length :=
    hkept.toNat_length
  unfold reconcile
  split
  · -- Equal witnesses name equal lengths, so nothing follows the prefix.
    rename_i same
    have hlength := congrArg (fun w => w.length.toNat) same
    simp only [hword] at hlength
    rw [eq_of_prefix_of_length ahead (hlength.trans storable.toNat_length)]
  · rw [hword, if_pos hle]
    have hslice : slice (image whole ++ torn) (image kept).length = some (image kept) := by
      rw [← hmore, append_assoc]
      exact slice_append ..
    simp only [hslice, okOr_some, ok_bind, parseFrames_image hkept.valid, ne_eq,
      not_true_eq_false, or_self, reject_bind, if_false]
    rfl

/-- A file whose witness vouches for a prefix of its frames opens to that prefix, whatever torn
frame follows, and is truncated to it. -/
theorem open_kept (log : List Action) (storable : Storable whole) (ahead : kept <+: whole)
    (hTorn : Torn torn) (fits : (image whole ++ torn).length ≤ maxJournalBytes)
    (hdisk : disk = ⟨image whole ++ torn, [], some (Witness.encode (journalWitness (image kept)
      kept.length))⟩) :
    openJournal.run ⟨disk, log⟩ = .ok (handleOf kept, kept)
      ⟨diskOf kept, log ++ cutActions (image kept).length (image whole ++ torn).length⟩ := by
  have hsettled : disk.Settled := by rw [hdisk]; rfl
  have hfile : disk.file = image whole ++ torn := by
    rw [Disk.file_of_settled hsettled, hdisk]
  have hnonempty : disk.file ≠ [] := by
    rw [hfile, ← length_pos_iff, length_append]
    have := le_image_length whole
    omega
  obtain ⟨more, hmore⟩ := image_prefix_image ahead
  have htake : disk.file.take (image kept).length = image kept := by
    rw [hfile, ← hmore, append_assoc, take_left]
  rw [open_reconciled hnonempty
    (by rw [hfile]; exact readFrames_image_torn storable.valid hTorn fits)
    (by rw [hfile, length_append]; omega)
    (by rw [hdisk]; exact Witness.read_encode _) hsettled
    (by rw [hfile, take_left]; exact reconcile_kept storable ahead)
    (by rw [hfile, ← hmore, append_assoc, length_append]; omega), htake, hfile, hdisk]
  rfl

/-- The byte strings a crash inside a replacement of `frames` by `payloads` makes the journal
compare digests of. -/
def ReplacedStrings (frames payloads : List Bytes) : Set Bytes :=
  { bytes | bytes = image frames ∨ bytes <+: image payloads }

/-- The witness of the old frames vouches, over the replaced file, for all of the old frames, for
all of the new ones, or for nothing. -/
theorem reconcile_replaced (hold : Storable frames) (hnew : Storable payloads)
    (free : CollisionFree (ReplacedStrings frames payloads)) :
    (∃ kept, (kept = frames ∨ kept = payloads) ∧ image kept <+: image payloads ∧
      journalWitness (image kept) kept.length = journalWitness (image frames) frames.length ∧
      reconcile (image payloads) payloads (image payloads).length
        (journalWitness (image payloads) payloads.length)
        (journalWitness (image frames) frames.length) = .ok (kept, (image kept).length)) ∨
    reconcile (image payloads) payloads (image payloads).length
      (journalWitness (image payloads) payloads.length)
      (journalWitness (image frames) frames.length) = .error .rollback := by
  have hword : (journalWitness (image frames) frames.length).length.toNat = (image frames).length :=
    hold.toNat_length
  unfold reconcile
  split
  · rename_i same
    exact .inl ⟨payloads, .inr rfl, prefix_rfl, same.symm, rfl⟩
  · rw [hword]
    split
    · rename_i hle
      have hslice : slice (image payloads) (image frames).length
          = some ((image payloads).take (image frames).length) := if_pos hle
      have hpart := take_prefix (image frames).length (image payloads)
      have hsize : ((image payloads).take (image frames).length).length = (image frames).length :=
        length_take_of_le hle
      obtain ⟨whole, torn, hwhole, hsplit, hTorn⟩ := image_prefix_split hnew.valid hpart
        (by rw [hsize]; exact le_image_length frames)
      have hparse := parseFrames_image_torn (hnew.of_prefix hwhole).valid hTorn
      rw [← hsplit] at hparse
      simp only [hslice, okOr_some, ok_bind, hparse, reject_bind]
      split
      · exact .inr rfl
      · -- The prefix is whole and has the old digest, so it is the old file.
        rename_i hagree
        rw [not_or, not_not, not_not] at hagree
        have hdigest := congrArg JournalWitness.journalDigest hagree.2
        have hsame : (image payloads).take (image frames).length = image frames :=
          free (.inr hpart) (.inl rfl) hdigest
        have htorn : torn = [] := by
          have := congrArg List.length hsplit
          rw [hsize, length_append, hagree.1] at this
          exact length_eq_zero_iff.mp (by omega)
        have hframes : whole = frames := by
          refine image_injective (hnew.of_prefix hwhole).valid hold.valid ?_
          rw [← hsame, hsplit, htorn, append_nil]
        exact .inl ⟨frames, .inl rfl, hsame ▸ hpart, rfl, by rw [hframes]; rfl⟩
    · exact .inr rfl

/-- A replaced file under the old witness opens to all of the old frames, to all of the new ones,
or not at all. -/
theorem open_replaced (log : List Action) (hold : Storable frames) (hnew : Storable payloads)
    (free : CollisionFree (ReplacedStrings frames payloads))
    (hdisk : disk = ⟨image payloads, [], (diskOf frames).head⟩) :
    (∃ kept actions, (kept = frames ∨ kept = payloads) ∧ openJournal.run ⟨disk, log⟩ =
        .ok (handleOf kept, kept) ⟨diskOf kept, log ++ actions⟩) ∨
      openJournal.run ⟨disk, log⟩ = .error .rollback ⟨disk, log⟩ := by
  have hsettled : disk.Settled := by rw [hdisk]; rfl
  have hfile : disk.file = image payloads := by rw [Disk.file_of_settled hsettled, hdisk]
  have hnonempty : disk.file ≠ [] := by
    rw [hfile, ← length_pos_iff]
    have := le_image_length payloads
    omega
  have hread : readFrames disk.file = .ok (payloads, (image payloads).length) := by
    rw [hfile]
    simpa using readFrames_image_torn hnew.valid (.inl rfl) (by simpa using hnew.fits)
  have hhead : Witness.read disk.head
      = .ok (some (journalWitness (image frames) frames.length)) := by
    rw [hdisk]
    exact Witness.read_encode _
  have hall : disk.file.take (image payloads).length = image payloads := by
    rw [hfile, take_length]
  have hcovered : (image payloads).length ≤ disk.file.length := by rw [hfile]
  rcases reconcile_replaced hold hnew free with ⟨kept, hcases, hahead, hsame, hkept⟩ | hkept
  · left
    have htake : disk.file.take (image kept).length = image kept := by
      rw [hfile]
      exact (prefix_iff_eq_take.mp hahead).symm
    refine ⟨kept, cutActions (image kept).length disk.file.length, hcases, ?_⟩
    rw [open_reconciled hnonempty hread hcovered hhead hsettled (by rw [hall, hfile]; exact hkept)
      (by rw [hfile]; exact hahead.length_le), htake, hdisk]
    simp only [diskOf, handleOf, hsame]
  · exact .inr (open_refused hnonempty hread hcovered hhead (by rw [hall, hfile]; exact hkept))

theorem readFrames_sound {stop : Nat} (h : readFrames bytes = .ok (frames, stop)) :
    Storable frames ∧ image frames <+: bytes ∧ stop = (image frames).length := by
  simp only [readFrames, ok_steps] at h
  obtain ⟨_, hfits, _, hmagic, hparse⟩ := h
  obtain ⟨hvalid, hahead, hstop⟩ := parseFrames_sound (not_not.mp hmagic) hparse
  exact ⟨⟨hvalid, hahead.length_le.trans (not_lt.mp hfits)⟩, hahead, hstop⟩

/-- What the witness vouches for is a committed prefix of the file. -/
theorem reconcile_sound (storable : Storable frames) (ahead : image frames <+: bytes)
    (h : reconcile bytes frames (image frames).length (journalWitness (image frames) frames.length)
      expected = .ok (kept, length)) :
    Storable kept ∧ image kept <+: bytes ∧ length = (image kept).length ∧
      expected = journalWitness (image kept) kept.length := by
  unfold reconcile at h
  split at h
  · rename_i same
    cases h
    exact ⟨storable, ahead, rfl, same⟩
  · split at h
    · rename_i hle
      simp only [ok_steps, Prod.mk.injEq] at h
      obtain ⟨part, hslice, ⟨partFrames, stop⟩, hparse, _, hagree, rfl, rfl⟩ := h
      rw [not_or, not_not, not_not] at hagree
      obtain ⟨hpart, hsize⟩ := slice_eq_some.mp hslice
      have hinside : part <+: image frames :=
        prefix_of_prefix_length_le hpart ahead (hsize.trans_le hle)
      by_cases hshort : 8 ≤ part.length
      · obtain ⟨whole, torn, hwhole, rfl, hTorn⟩ :=
          image_prefix_split storable.valid hinside hshort
        rw [parseFrames_image_torn (storable.of_prefix hwhole).valid hTorn] at hparse
        cases hparse
        have htorn : torn = [] := by
          rw [← hagree.1, length_append] at hsize
          exact length_eq_zero_iff.mp (by omega)
        subst htorn
        rw [append_nil] at hpart hagree
        exact ⟨storable.of_prefix hwhole, hpart, hagree.1.symm, hagree.2.symm⟩
      · -- Scanning starts behind the magic, so nothing shorter is vouched for.
        obtain ⟨-, -, hstop⟩ := framing.scan_sound hparse
        rw [journalMagic_length] at hstop
        omega
    · cases h

omit [Sha256] in
theorem createFile_settled {file : Bytes} {u : Unit}
    (h : createFile.run ⟨⟨file, [], head⟩, log⟩ = .ok u tape) :
    ∃ bytes, tape.disk = ⟨bytes, [], head⟩ := by
  rw [createFile, run_bind, run_get] at h
  simp only [run_ite, run_performAll] at h
  split at h
  · cases h
    exact ⟨_, rfl⟩
  · cases h
    exact ⟨file, rfl⟩

theorem settleWitness_sound {tape' : Tape} (storable : Storable frames)
    (ahead : image frames <+: bytes) (hdisk : tape.disk = ⟨bytes, [], head⟩)
    (h : (settleWitness bytes head frames (image frames).length).run tape =
      .ok (kept, length) tape') :
    Storable kept ∧ image kept <+: bytes ∧ length = (image kept).length ∧
      tape'.disk = ⟨bytes, [],
        some (Witness.encode (journalWitness (image kept) kept.length))⟩ := by
  have hslice : slice bytes (image frames).length = some (image frames) :=
    slice_eq_some.mpr ⟨ahead, rfl⟩
  simp only [settleWitness, hslice, okOr_some, run_bind_eq_ok, run_ofExcept_eq_ok] at h
  obtain ⟨covered, _, ⟨hcovered, rfl⟩, witness, _, ⟨hwitness, rfl⟩, h⟩ := h
  cases hcovered
  cases witness with
  | none =>
    simp only at h
    rw [run_reject_bind] at h
    split at h
    · cases h
    · rename_i whole
      cases h
      have hall : image frames = bytes := ahead.eq_of_length (not_not.mp whole)
      refine ⟨storable, ahead, rfl, ?_⟩
      simp [Tape.record, hdisk, Disk.apply]
  | some expected =>
    rw [run_ofExcept_eq_ok] at h
    obtain ⟨hkept, rfl⟩ := h
    obtain ⟨hstorable, hahead, hlength, rfl⟩ := reconcile_sound storable ahead hkept
    exact ⟨hstorable, hahead, hlength, by rw [hdisk, Witness.read_eq_some hwitness]⟩

omit [Sha256] in
theorem truncateTo_disk {tape' : Tape} {u : Unit} (hdisk : tape.disk = ⟨bytes, [], head⟩)
    (h : (truncateTo validLength bytes.length).run tape = .ok u tape') :
    tape'.disk = ⟨bytes.take validLength, [], head⟩ := by
  rw [truncateTo, run_ite, run_performAll] at h
  split at h
  · cases h
    simp [hdisk, Disk.apply]
  · cases h
    rw [hdisk, take_of_length_le (by omega)]

/-- **Opening commits.** Whatever a restart finds on the disk, a journal that opens is left
committed to the frames it returns. -/
theorem open_committed {file : Bytes}
    (h : openJournal.run ⟨⟨file, [], head⟩, log⟩ = .ok (journal, frames) tape) :
    Committed journal tape.disk frames := by
  rw [openJournal, run_bind_eq_ok] at h
  obtain ⟨_, created, hcreated, h⟩ := h
  obtain ⟨bytes, hdisk⟩ := createFile_settled hcreated
  have hfile : Disk.file ⟨bytes, [], head⟩ = bytes := append_nil bytes
  rw [run_bind, run_get] at h
  simp only [hdisk, hfile, run_bind_eq_ok, run_ofExcept_eq_ok] at h
  obtain ⟨⟨found, stop⟩, _, ⟨hread, rfl⟩, ⟨kept, length⟩, settled, hkept, _, cut, hcut, committed,
    _, ⟨hcommitted, rfl⟩, hout⟩ := h
  obtain ⟨hstorable, hahead, rfl⟩ := readFrames_sound hread
  obtain ⟨hstorable, hahead, rfl, hsettled⟩ := settleWitness_sound hstorable hahead hdisk hkept
  have hend := truncateTo_disk hsettled hcut
  have htake : bytes.take (image kept).length = image kept :=
    (prefix_iff_eq_take.mp hahead).symm
  rw [htake] at hend
  rw [slice_eq_some.mpr ⟨hahead, rfl⟩, okOr_some] at hcommitted
  cases hcommitted
  cases hout
  exact ⟨hstorable, hend, rfl⟩

theorem read_diskOf (storable : Storable frames) : read (diskOf frames) = .ok frames := by
  have hread := readFrames_image_torn storable.valid (.inl rfl) (by simpa using storable.fits)
  exact read_reconciled (by rw [diskOf_file]; simpa using hread) (by rw [diskOf_file])
    (Witness.read_encode _) (if_pos (by rw [diskOf_file, take_length]))

/-! ## Crash safety -/

/-- Opening the disk returns exactly these frames and truncates the file to them; a later append
that fits succeeds, and the journal then opens to those frames and the new one. -/
structure OpensTo (disk : Disk) (kept : List Bytes) : Prop where
  opened : ∃ actions, openJournal.run (Tape.start disk) =
    .ok (handleOf kept, kept) ⟨diskOf kept, actions⟩
  continues : ∀ payload, Storable (kept ++ [payload]) →
    ∃ tape, ((handleOf kept).append payload).run (Tape.start (diskOf kept)) =
        .ok (handleOf (kept ++ [payload])) tape ∧
      ∃ actions, openJournal.run (Tape.start tape.disk) =
        .ok (handleOf (kept ++ [payload]), kept ++ [payload]) ⟨diskOf (kept ++ [payload]), actions⟩

theorem open_diskOf (storable : Storable frames) (log : List Action) :
    ∃ actions, openJournal.run ⟨diskOf frames, log⟩ =
      .ok (handleOf frames, frames) ⟨diskOf frames, log ++ actions⟩ :=
  ⟨_, open_kept log storable prefix_rfl (.inl rfl) (by simpa using storable.fits)
    (by simp [diskOf])⟩

theorem opensTo_of_open {actions : List Action} (storable : Storable kept)
    (h : openJournal.run (Tape.start disk) = .ok (handleOf kept, kept) ⟨diskOf kept, actions⟩) :
    OpensTo disk kept where
  opened := ⟨actions, h⟩
  continues payload hnext := by
    have committed : Committed (handleOf kept) (diskOf kept) kept := ⟨storable, rfl, rfl⟩
    rcases append_cases committed payload [] with ⟨_, hrun⟩ | ⟨hbad, _⟩ | ⟨hfull, _⟩
    · obtain ⟨actions, hopen⟩ := open_diskOf hnext []
      exact ⟨_, hrun, actions, hopen⟩
    · exact absurd (hnext.valid payload (by simp)) hbad
    · exact absurd hnext.fits (not_le.mpr hfull)

theorem diskOf_head_inj (storable : Storable frames) (ahead : whole <+: frames)
    (h : (diskOf whole).head = (diskOf frames).head) :
    whole = frames := by
  have hread := Witness.read_encode (journalWitness (image whole) whole.length)
  rw [show some (Witness.encode _) = (diskOf whole).head from rfl, h,
    show (diskOf frames).head = some (Witness.encode _) from rfl, Witness.read_encode] at hread
  simp only [Except.ok.injEq, Option.some.injEq] at hread
  have hlength := congrArg (fun w => w.length.toNat) hread
  refine eq_of_prefix_of_length ahead ?_
  rw [← (storable.of_prefix ahead).toNat_length, ← storable.toNat_length]
  exact hlength.symm

/-- A crash while a batch is being committed leaves the old frames and a part of the batch under the
old witness, or everything under the new one. -/
theorem crash_commit_cases {batch : List Bytes} {disk' : Disk} (storable : Storable (frames ++ batch))
    (crashed : (diskOf frames).CrashOf (commitActions frames batch) disk') :
    (∃ whole torn, Storable (frames ++ whole) ∧ Torn torn ∧
      (image (frames ++ whole) ++ torn).length ≤ maxJournalBytes ∧
      disk' = ⟨image (frames ++ whole) ++ torn, [], (diskOf frames).head⟩) ∨
    disk' = diskOf (frames ++ batch) := by
  rcases Disk.crash_append (diskOf_settled frames) crashed with ⟨part, hpart, hdisk⟩ | hdisk
  · rw [flatten_frameChunks] at hpart
    have hnew := fun payload hp => storable.valid payload (mem_append_right frames hp)
    obtain ⟨whole, torn, hwhole, rfl, hTorn⟩ := Framing.prefix_split batch hnew hpart
    refine .inl ⟨whole, torn, storable.of_prefix ((prefix_append_right_inj frames).mpr hwhole),
      hTorn, le_trans ?_ storable.fits, ?_⟩
    · rw [image_append, image_append, append_assoc]
      exact ((prefix_append_right_inj _).mpr hpart).length_le
    · rw [hdisk, image_append, append_assoc]
      rfl
  · refine .inr ?_
    rw [hdisk, flatten_frameChunks]
    simp [diskOf, image_append]

/-- It opens to the old frames or to the old frames and the whole batch, the latter exactly when the
new witness was installed. -/
theorem crash_commit {batch : List Bytes} {disk' : Disk} (storable : Storable (frames ++ batch))
    (crashed : (diskOf frames).CrashOf (commitActions frames batch) disk') :
    ∃ kept, (kept = frames ∨ kept = frames ++ batch) ∧
      (kept = frames ++ batch ↔ disk'.head = (diskOf (frames ++ batch)).head) ∧
      OpensTo disk' kept := by
  have hahead : frames <+: frames ++ batch := prefix_append ..
  rcases crash_commit_cases storable crashed with ⟨whole, torn, hstorable, hTorn, hfits, hdisk⟩ | rfl
  · refine ⟨frames, .inl rfl, ⟨fun h => ?_, fun h => ?_⟩, opensTo_of_open
      (storable.of_prefix hahead)
      (open_kept [] hstorable (prefix_append frames whole) hTorn hfits hdisk)⟩
    · rw [hdisk, ← h]
    · rw [hdisk] at h
      exact diskOf_head_inj storable hahead h
  · obtain ⟨actions, hrun⟩ := open_diskOf storable []
    exact ⟨_, .inr rfl, ⟨fun _ => rfl, fun _ => rfl⟩, opensTo_of_open storable hrun⟩

/-- A crash inside a replacement opens to the old frames, to the new ones, or not at all. -/
theorem crash_replaceActions {disk' : Disk} (hold : Storable frames) (hnew : Storable payloads)
    (free : CollisionFree (ReplacedStrings frames payloads))
    (crashed : (diskOf frames).CrashOf (replaceActions payloads) disk') :
    (∃ kept, (kept = frames ∨ kept = payloads) ∧ OpensTo disk' kept) ∨
      openJournal.run (Tape.start disk') = .error .rollback (Tape.start disk') := by
  rcases Disk.crash_replace (diskOf_settled frames) crashed with rfl | rfl | rfl
  · obtain ⟨actions, hrun⟩ := open_diskOf hold []
    exact .inl ⟨frames, .inl rfl, opensTo_of_open hold hrun⟩
  · rcases open_replaced [] hold hnew free rfl with ⟨kept, actions, hkept, hrun⟩ | hrun
    · have hstorable : Storable kept := by
        rcases hkept with rfl | rfl
        · exact hold
        · exact hnew
      exact .inl ⟨kept, hkept, opensTo_of_open hstorable hrun⟩
    · exact .inr hrun
  · obtain ⟨actions, hrun⟩ := open_diskOf hnew []
    exact .inl ⟨payloads, .inr rfl, opensTo_of_open hnew hrun⟩

/-- **Crash safety.** From a journal whose witness matches its committed bytes, an append or a
batch append refuses before it touches the disk, or every crash inside it opens to the old frames
or to the old frames and the whole batch, the latter exactly when the new witness was installed;
a crash inside a compaction opens to all of the old frames, to all of the new ones, or is refused
as a rollback. -/
theorem journal_crash_safe {journal : Journal} {disk : Disk} {frames : List Bytes}
    (committed : Committed journal disk frames) :
    (∀ payload, ValidPayload payload →
      match (journal.append payload).run (Tape.start disk) with
      | .error _ tape => tape = Tape.start disk
      | .ok _ tape => ∀ disk', disk.CrashOf tape.log disk' →
          ∃ kept, (kept = frames ∨ kept = frames ++ [payload]) ∧
            (kept = frames ++ [payload] ↔ disk'.head = tape.disk.head) ∧ OpensTo disk' kept) ∧
    (∀ batch, (∀ payload ∈ batch, ValidPayload payload) →
      match (journal.appendBatch batch).run (Tape.start disk) with
      | .error _ tape => tape = Tape.start disk
      | .ok _ tape => ∀ disk', disk.CrashOf tape.log disk' →
          ∃ kept, (kept = frames ∨ kept = frames ++ batch) ∧
            (kept = frames ++ batch ↔ disk'.head = tape.disk.head) ∧ OpensTo disk' kept) ∧
    (∀ payloads, CollisionFree (ReplacedStrings frames payloads) →
      match (compact payloads).run (Tape.start disk) with
      | .error _ tape => tape = Tape.start disk
      | .ok _ tape => ∀ disk', disk.CrashOf tape.log disk' →
          (∃ kept, (kept = frames ∨ kept = payloads) ∧ OpensTo disk' kept) ∨
            openJournal.run (Tape.start disk') = .error .rollback (Tape.start disk')) := by
  refine ⟨fun payload _ => ?_, fun batch _ => ?_, fun payloads free => ?_⟩
  · rcases append_cases committed payload [] with ⟨storable, hrun⟩ | ⟨_, hrun⟩ | ⟨_, hrun⟩
    · simp only [Tape.start, hrun]
      rw [committed.disk_eq]
      exact fun disk' crashed => crash_commit storable crashed
    · simp only [Tape.start, hrun]
    · simp only [Tape.start, hrun]
  · rcases appendBatch_cases committed batch [] with ⟨storable, hrun⟩ | ⟨_, e, hrun⟩
    · simp only [Tape.start, hrun]
      rw [committed.disk_eq]
      exact fun disk' crashed => crash_commit storable crashed
    · simp only [Tape.start, hrun]
  · rcases compact_cases payloads disk [] with ⟨storable, hrun⟩ | ⟨_, e, hrun⟩
    · simp only [Tape.start, hrun]
      rw [committed.disk_eq]
      exact fun disk' crashed => crash_replaceActions committed.storable storable free crashed
    · simp only [Tape.start, hrun]

/-! ## The frame layer -/

theorem writeFrame_eq_ok {payload : Bytes} {chunks : List Bytes} :
    writeFrame payload = .ok chunks ↔ ValidPayload payload ∧ frameChunks payload = chunks := by
  rw [writeFrame, reject_bind_eq_ok, ← not_validPayload, not_not, pure_eq_ok]

theorem mapM_writeFrame {written : List (List Bytes)} (h : frames.mapM writeFrame = .ok written) :
    (∀ payload ∈ frames, ValidPayload payload) ∧
      written.flatten.flatten = frames.flatMap frameBytes := by
  induction frames generalizing written with
  | nil =>
    cases h
    simp
  | cons payload frames ih =>
    simp only [mapM_cons, ok_steps, writeFrame_eq_ok] at h
    obtain ⟨chunks, ⟨valid, rfl⟩, rest, hrest, rfl⟩ := h
    obtain ⟨hvalid, hbytes⟩ := ih hrest
    exact ⟨forall_mem_cons.mpr ⟨valid, hvalid⟩, by simp [frameBytes, hbytes]⟩

/-- One call through a handle. -/
inductive Call where
  | append (payload : Bytes)
  | appendBatch (payloads : List Bytes)
  | compact (payloads : List Bytes)

def Call.run (journal : Journal) : Call → EStateM JournalError Tape Journal
  | .append payload => journal.append payload
  | .appendBatch payloads => journal.appendBatch payloads
  | .compact payloads => Journal.compact payloads

/-- A handle and its disk after any mix of calls, refused ones among them. Whatever is on the disk,
it may be opened again. -/
inductive Mixed : Journal → Disk → Prop
  | opened {file : Bytes} {head : Option Bytes} {log : List Action} {journal : Journal}
      {frames : List Bytes} {tape : Tape}
      (h : openJournal.run ⟨⟨file, [], head⟩, log⟩ = .ok (journal, frames) tape) :
      Mixed journal tape.disk
  | called {journal journal' : Journal} {disk : Disk} {log : List Action} {call : Call} {tape : Tape}
      (before : Mixed journal disk) (h : (call.run journal).run ⟨disk, log⟩ = .ok journal' tape) :
      Mixed journal' tape.disk
  | refused {journal : Journal} {disk : Disk} {log : List Action} {call : Call} {e : JournalError}
      {tape : Tape} (before : Mixed journal disk)
      (h : (call.run journal).run ⟨disk, log⟩ = .error e tape) : Mixed journal tape.disk

theorem Committed.call (committed : Committed journal disk frames) (call : Call)
    (log : List Action) :
    (∃ next actions, Storable next ∧
      (call.run journal).run ⟨disk, log⟩ = .ok (handleOf next) ⟨diskOf next, actions⟩) ∨
    ∃ e, (call.run journal).run ⟨disk, log⟩ = .error e ⟨disk, log⟩ := by
  cases call with
  | append payload =>
    rcases append_cases committed payload log with ⟨storable, hrun⟩ | ⟨-, hrun⟩ | ⟨-, hrun⟩
    · exact .inl ⟨_, _, storable, hrun⟩
    · exact .inr ⟨_, hrun⟩
    · exact .inr ⟨_, hrun⟩
  | appendBatch payloads =>
    rcases appendBatch_cases committed payloads log with ⟨storable, hrun⟩ | ⟨-, refused⟩
    · exact .inl ⟨_, _, storable, hrun⟩
    · exact .inr refused
  | compact payloads =>
    rcases compact_cases payloads disk log with ⟨storable, hrun⟩ | ⟨-, refused⟩
    · exact .inl ⟨_, _, storable, hrun⟩
    · exact .inr refused

theorem Mixed.committed (mixed : Mixed journal disk) : ∃ frames, Committed journal disk frames := by
  induction mixed with
  | opened h => exact ⟨_, open_committed h⟩
  | @called _ _ _ log call _ _ h ih =>
    obtain ⟨frames, committed⟩ := ih
    rcases committed.call call log with ⟨next, _, storable, hrun⟩ | ⟨e, hrun⟩
    · cases hrun.symm.trans h
      exact ⟨next, storable, rfl, rfl⟩
    · cases hrun.symm.trans h
  | @refused _ _ log call _ _ _ h ih =>
    obtain ⟨frames, committed⟩ := ih
    rcases committed.call call log with ⟨next, _, _, hrun⟩ | ⟨e, hrun⟩
    · cases hrun.symm.trans h
    · cases hrun.symm.trans h
      exact ⟨frames, committed⟩

/-- **The frame layer is an exact inverse.** What the writer wrote, followed by a part of one more
frame, reads back as it was; a scan of any bytes ends, inside them where there is room for the
magic, having consumed whole frames; and what a handle keeps in memory describes its whole file. -/
theorem frame_layer_exact :
    (∀ (frames : List Bytes) (written : List (List Bytes)) (payload : Bytes) (chunks : List Bytes)
      (torn : Bytes), frames.mapM writeFrame = .ok written → writeFrame payload = .ok chunks →
      torn <+: chunks.flatten → torn ≠ chunks.flatten →
      parseFrames (journalMagic ++ (written.flatten.flatten ++ torn)) =
        .ok (frames, (journalMagic ++ written.flatten.flatten).length)) ∧
    (∀ bytes : Bytes,
      (∀ fuel, bytes.length ≤ fuel → scan frontFrame fuel journalMagic.length
        (bytes.drop journalMagic.length) = parseFrames bytes) ∧
      ∀ (frames : List Bytes) (stop : Nat), parseFrames bytes = .ok (frames, stop) →
        (∀ payload ∈ frames, ValidPayload payload) ∧
        frames.flatMap frameBytes <+: bytes.drop journalMagic.length ∧
        stop = journalMagic.length + (frames.flatMap frameBytes).length ∧
        (journalMagic.length ≤ bytes.length → stop ≤ bytes.length)) ∧
    ∀ (journal : Journal) (disk : Disk), Mixed journal disk →
      ∃ frames, parseFrames disk.file = .ok (frames, disk.file.length) ∧
        Sha256.digest journal.hasher = Sha256.digest disk.file ∧
        journal.frameCount.toNat = frames.length := by
  refine ⟨?_, fun bytes => ⟨?_, ?_⟩, ?_⟩
  · intro frames written payload chunks torn hwritten hchunks ahead proper
    obtain ⟨valid, hbytes⟩ := mapM_writeFrame hwritten
    obtain ⟨next, rfl⟩ := writeFrame_eq_ok.mp hchunks
    rw [hbytes, ← append_assoc]
    exact parseFrames_image_torn valid (.inr ⟨payload, next, ahead, proper⟩)
  · intro fuel enough
    have short : (bytes.drop journalMagic.length).length ≤ bytes.length := by simp
    exact framing.scan_fuel _ (short.trans enough) short
  · intro frames stop h
    obtain ⟨valid, ahead, rfl⟩ := framing.scan_sound h
    refine ⟨valid, ahead, rfl, fun room => ?_⟩
    have := ahead.length_le
    rw [length_drop] at this
    omega
  · intro journal disk mixed
    obtain ⟨frames, storable, rfl, rfl⟩ := mixed.committed
    rw [diskOf_file]
    exact ⟨frames, parseFrames_image storable.valid, rfl, storable.toNat_count⟩

end Recovery

/-! ## A run of the crash theorem -/

/-- A stand-in digest that only counts bytes, enough to evaluate the model. -/
@[reducible] def countingSha256 : Sha256 where
  digest bytes := ⟨UInt8.ofNat bytes.length :: UInt8.ofNat (bytes.length / 256) ::
    List.replicate 30 0, by simp⟩

/-- It tells the prefixes of one short file apart. -/
theorem counting_prefixes {file : Bytes} (short : file.length < 65536) :
    @CollisionFree countingSha256 {part | part <+: file} := by
  intro a inA b inB same
  have lengths : a.length = b.length := by
    obtain ⟨low, rest⟩ := List.cons.inj (congrArg Subtype.val same)
    have low := congrArg UInt8.toNat low
    have high := congrArg UInt8.toNat (List.cons.inj rest).1
    have := inA.length_le
    have := inB.length_le
    simp only [UInt8.toNat_ofNat'] at low high
    omega
  exact (prefix_of_prefix_length_le inA inB lengths.le).eq_of_length lengths

/-- Frames of one byte each, as many as fit. -/
theorem storable_bytes (bytes : List UInt8) (few : 8 + 37 * bytes.length ≤ maxJournalBytes) :
    @Storable countingSha256 (bytes.map fun byte => [byte]) := by
  have length_eq : (@image countingSha256 (bytes.map fun byte => [byte])).length =
      8 + 37 * bytes.length := by
    clear few
    induction bytes with
    | nil => simp [image]
    | cons byte bytes ih =>
      simp [image, frameLength, lengthBytes, checksumBytes] at ih ⊢
      omega
  refine @Storable.mk countingSha256 _ (fun payload there => ?_) (length_eq ▸ few)
  obtain ⟨byte, -, rfl⟩ := mem_map.mp there
  exact ⟨by simp, by simp [maxFrameBytes]⟩

/-- A stop while two frames are appended to one. The first of the two is on the file and the second
is torn; the journal opens without either. -/
theorem journal_crash_safe_torn :
    @OpensTo countingSha256 ⟨@image countingSha256 [[1], [2]] ++ [0, 0], [],
      (@diskOf countingSha256 [[1]]).head⟩ [[1]] := by
  let _ := countingSha256
  have committed : Committed (handleOf [[1]]) (diskOf [[1]]) [[1]] :=
    ⟨storable_bytes [1] (by decide), rfl, rfl⟩
  have crash : (diskOf [[1]]).CrashOf (commitActions [[1]] [[2], [3]])
      ⟨image [[1], [2]] ++ [0, 0], [], (diskOf [[1]]).head⟩ :=
    ⟨([[2], [3]].flatMap frameChunks).map .write, prefix_append .., 39, by decide +kernel⟩
  have three : Storable [[1], [2], [3]] := storable_bytes [1, 2, 3] (by decide)
  have safe := (journal_crash_safe committed).2.1 [[2], [3]] fun payload there =>
    three.valid payload (mem_cons_of_mem _ there)
  rcases appendBatch_cases committed [[2], [3]] [] with ⟨_, hrun⟩ | ⟨full, _, hrun⟩
  · simp only [Tape.start, hrun] at safe
    obtain ⟨kept, rfl | rfl, installed, opens⟩ := safe _ crash
    · exact opens
    · exact absurd (installed.mp rfl) (by decide +kernel)
  · exact absurd three full

/-- One frame, and the first byte of another. -/
theorem frame_layer_exact_counting :
    @parseFrames countingSha256 (journalMagic ++ ((@frameChunks countingSha256 [1]).flatten ++ [0])) =
      .ok ([[1]], 45) := by
  let _ := countingSha256
  exact frame_layer_exact.1 [[1]] [frameChunks [1]] [2] (frameChunks [2]) [0] rfl rfl
    ⟨(frameBytes [2]).tail, by decide⟩ (by decide)

/-- Of fewer bytes than the magic has, a scan reports more than there are. -/
theorem short_scan_past_end : ¬∀ (bytes : Bytes) (frames : List Bytes) (stop : Nat),
    @parseFrames countingSha256 bytes = .ok (frames, stop) → stop ≤ bytes.length := by
  intro h
  exact absurd (h [] [] journalMagic.length rfl) (by decide)

end Supgang.Journal
