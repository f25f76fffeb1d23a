/-
# Journal.Resting — what a restart finds of a journal that is only appended to

Before its first witness a journal file is a part of the magic; afterwards it is the frames the
witness vouches for and whatever an interrupted append left behind them. Opening and appending keep
it so at every point a crash can stop them, and opening succeeds on all of it except a magic that is
neither missing nor whole.

* `Rests.opens` — opening returns the committed frames, or refuses a half-written magic.
* `Rests.crash_open`, `rests_crash_commit` — what is left by a crash inside opening and appending.
* `Rests.committed_eq` — the read-only view agrees.
-/
import Supgang.Journal.Recovery

namespace Supgang.Journal

set_option autoImplicit false

open Theory List

variable [Sha256]

/-- A journal at rest, and the frames that are committed in it. -/
inductive Rests : Disk → List Bytes → Prop
  | starting {part : Bytes} (ahead : part <+: journalMagic) : Rests ⟨part, [], none⟩ []
  | witnessed {whole kept : List Bytes} {torn : Bytes} (storable : Storable whole)
      (ahead : kept <+: whole) (hTorn : Torn torn)
      (fits : (image whole ++ torn).length ≤ maxJournalBytes) :
      Rests ⟨image whole ++ torn, [], (diskOf kept).head⟩ kept

/-- The file has a magic, or none was begun. -/
def Begun (disk : Disk) : Prop := disk.file = [] ∨ journalMagic <+: disk.file

instance (disk : Disk) : Decidable (Begun disk) := inferInstanceAs (Decidable (_ ∨ _))

omit [Sha256] in
theorem settled_mk (bytes : Bytes) (head : Option Bytes) : Disk.Settled ⟨bytes, [], head⟩ := rfl

theorem rests_diskOf {frames : List Bytes} (storable : Storable frames) :
    Rests (diskOf frames) frames := by
  have h := Rests.witnessed storable prefix_rfl (.inl rfl : Torn [])
    (by rw [append_nil]; exact storable.fits)
  rwa [append_nil] at h

variable {disk : Disk} {kept : List Bytes}

theorem Rests.settled (rests : Rests disk kept) :
    disk.Settled := by
  cases rests <;> rfl

theorem Rests.storable (rests : Rests disk kept) :
    Storable kept := by
  cases rests with
  | starting ahead => exact ⟨by simp, by simp [image, maxJournalBytes]⟩
  | witnessed storable ahead hTorn fits => exact storable.of_prefix ahead

/-- The actions of opening a journal at rest. -/
def openActions (disk : Disk) (kept : List Bytes) : List Action :=
  if disk.file = [] then [.write journalMagic, .sync] ++ [.installHead
      (Witness.encode (journalWitness journalMagic 0))]
  else if disk.head = none then [.installHead (Witness.encode (journalWitness journalMagic 0))]
  else cutActions (image kept).length disk.file.length

theorem readFrames_magic : readFrames journalMagic = .ok ([], journalMagic.length) := by
  have h : readFrames (image [] ++ []) = .ok ([], (image []).length) :=
    readFrames_image_torn (by simp) (.inl rfl) (by simp [image, maxJournalBytes])
  simpa [image] using h

theorem readFrames_part {part : Bytes} (ahead : part <+: journalMagic)
    (half : part ≠ journalMagic) : readFrames part = .error .invalidHeader := by
  have hshort : part.length ≤ 8 := by simpa using ahead.length_le
  have hmagic : part.take journalMagic.length ≠ journalMagic := by
    rw [journalMagic_length, take_of_length_le hshort]
    exact half
  rw [readFrames, reject_bind, if_neg (by unfold maxJournalBytes; omega), reject_bind,
    if_pos hmagic]

theorem diskOf_nil : diskOf [] = ⟨journalMagic, [],
    some (Witness.encode (journalWitness journalMagic 0))⟩ := by
  simp [diskOf, image]

omit [Sha256] in
theorem begun_starting {part : Bytes} (ahead : part <+: journalMagic)
    (begun : Begun ⟨part, [], none⟩) : part = [] ∨ part = journalMagic := by
  rcases begun with hempty | hmagic
  · exact .inl (by simpa [Disk.file] using hempty)
  · have hmagic : journalMagic <+: part := by simpa [Disk.file] using hmagic
    exact .inr (ahead.eq_of_length (ahead.length_le.antisymm hmagic.length_le))

omit [Sha256] in
theorem journalMagic_ne_nil : journalMagic ≠ [] := by
  rw [← length_pos_iff, journalMagic_length]
  omega

theorem openActions_starting : openActions ⟨journalMagic, [], none⟩ [] =
    [.installHead (Witness.encode (journalWitness journalMagic 0))] := by
  simp [openActions, Disk.file, journalMagic_ne_nil]

theorem openActions_witnessed (whole kept : List Bytes) (torn : Bytes) :
    openActions ⟨image whole ++ torn, [], (diskOf kept).head⟩ kept =
      cutActions (image kept).length (image whole ++ torn).length := by
  have hsome : image whole ++ torn ≠ [] := by
    rw [← length_pos_iff, length_append]
    have := le_image_length whole
    omega
  have hfile : (⟨image whole ++ torn, [], (diskOf kept).head⟩ : Disk).file =
      image whole ++ torn := by simp [Disk.file]
  rw [openActions, hfile, if_neg hsome, if_neg (by simp [diskOf])]

theorem take_image {whole : List Bytes} (torn : Bytes) (ahead : kept <+: whole) :
    (image whole ++ torn).take (image kept).length = image kept := by
  obtain ⟨more, hmore⟩ := image_prefix_image ahead
  rw [← hmore, append_assoc, take_left]

/-- A crash while a batch is being committed leaves the old frames, or the old and the new. -/
theorem rests_crash_commit {frames batch : List Bytes} {disk' : Disk}
    (storable : Storable (frames ++ batch))
    (crashed : (diskOf frames).CrashOf (commitActions frames batch) disk') :
    Rests disk' frames ∨ Rests disk' (frames ++ batch) := by
  rcases crash_commit_cases storable crashed with ⟨whole, torn, hstorable, hTorn, hfits, rfl⟩ | rfl
  · exact .inl (.witnessed hstorable (prefix_append frames whole) hTorn hfits)
  · exact .inr (rests_diskOf storable)

/-- The frames the read-only view finds; none where there is nothing to read yet. -/
def committed (disk : Disk) : List Bytes :=
  match read disk with
  | .ok frames => frames
  | .error _ => []

section Rests

variable (rests : Rests disk kept)

include rests

/-- **Opening a journal at rest** returns the committed frames, unless the magic was half
written. -/
theorem Rests.opens (begun : Begun disk) (log : List Action) : openJournal.run ⟨disk, log⟩ =
      .ok (handleOf kept, kept) ⟨diskOf kept, log ++ openActions disk kept⟩ := by
  cases rests with
  | @starting part ahead =>
    have hslice : slice journalMagic 8 = some journalMagic := by
      rw [slice, journalMagic_length, if_pos le_rfl, take_of_length_le (by simp)]
    have hnone : Witness.read none = .ok none := rfl
    rcases begun_starting ahead begun with rfl | rfl
    · simp [openJournal, createFile, settleWitness, truncateTo, EStateM.run_bind,
        openActions, Disk.file, Disk.apply, readFrames_magic, hslice, hnone, Tape.record,
        handleOf, diskOf_nil, image]
    · simp [openJournal, createFile, settleWitness, truncateTo, EStateM.run_bind,
        openActions_starting, Disk.file, Disk.apply, readFrames_magic, hslice, hnone,
        Tape.record, handleOf, diskOf_nil, image, journalMagic_ne_nil]
  | @witnessed whole kept torn storable ahead hTorn fits =>
    rw [openActions_witnessed]
    exact open_kept log storable ahead hTorn fits rfl

theorem Rests.refuses (half : ¬Begun disk) (log : List Action) :
    openJournal.run ⟨disk, log⟩ = .error .invalidHeader ⟨disk, log⟩ := by
  cases rests with
  | @starting part ahead =>
    simp only [Begun, Disk.file, append_nil, not_or] at half
    have hpart := readFrames_part ahead fun h => half.2 (h ▸ prefix_rfl)
    simp [openJournal, createFile, EStateM.run_bind, Disk.file, hpart, half.1]
  | witnessed storable ahead hTorn fits =>
    refine absurd (.inr ?_) half
    rw [Disk.file, append_nil, image, append_assoc]
    exact prefix_append ..

theorem Rests.after_open (begun : Begun disk) :
    disk.after (openActions disk kept) = diskOf kept := by
  cases rests with
  | @starting part ahead =>
    rcases begun_starting ahead begun with rfl | rfl
    · simp [openActions, Disk.file, Disk.apply, diskOf_nil]
    · rw [openActions_starting]
      simp [Disk.apply, diskOf_nil]
  | @witnessed whole kept torn storable ahead hTorn fits =>
    have hcut := take_image torn ahead
    rw [openActions_witnessed, cutActions]
    split
    · simp [Disk.apply, hcut, diskOf]
    · rw [take_of_length_le (by omega)] at hcut
      rw [Disk.after_nil, hcut]
      rfl

/-- A crash while the journal is being opened leaves it at rest, with the same frames. -/
theorem Rests.crash_open {disk' : Disk} (begun : Begun disk)
    (crashed : disk.CrashOf (openActions disk kept) disk') : Rests disk' kept := by
  have hopened := rests_diskOf rests.storable
  have hbefore := rests
  cases rests with
  | @starting part ahead =>
    rcases begun_starting ahead begun with rfl | rfl
    · have hactions : openActions ⟨[], [], none⟩ [] =
          [journalMagic].map .write ++ [.sync, .installHead
            (Witness.encode (journalWitness journalMagic 0))] := rfl
      rw [hactions] at crashed
      rcases Disk.crash_append (settled_mk ..) crashed with ⟨part, hpart, rfl⟩ | rfl
      · exact .starting (by simpa using hpart)
      · simpa [diskOf_nil] using hopened
    · rw [openActions_starting] at crashed
      obtain ⟨done, hdone, count, rfl⟩ := crashed
      rcases prefix_cons_iff.mp hdone with rfl | ⟨rest, rfl, hrest⟩
      · rw [Disk.after_nil, Disk.crash_of_settled (settled_mk ..)]
        exact hbefore
      · rw [prefix_nil.mp hrest]
        simpa [Disk.apply, Disk.crash, diskOf_nil] using hopened
  | @witnessed whole kept torn storable ahead hTorn fits =>
    rw [openActions_witnessed, cutActions] at crashed
    obtain ⟨done, hdone, count, rfl⟩ := crashed
    -- Cutting the file is one action, so a stop after it finds the frames alone.
    have hcut : Rests (Disk.crash ⟨(image whole ++ torn).take (image kept).length, [],
        (diskOf kept).head⟩ count) kept := by
      rw [take_image torn ahead, Disk.crash_of_settled (settled_mk ..)]
      exact hopened
    split at hdone
    · rcases prefix_pair_cases hdone with rfl | rfl | rfl
      · rw [Disk.after_nil, Disk.crash_of_settled (settled_mk ..)]
        exact hbefore
      · simpa [Disk.apply] using hcut
      · simpa [Disk.apply] using hcut
    · rw [prefix_nil.mp hdone, Disk.after_nil, Disk.crash_of_settled (settled_mk ..)]
      exact hbefore

/-! ## The read-only view -/

theorem Rests.committed_eq : committed disk = kept := by
  cases rests with
  | @starting part ahead =>
    have hunread : ∃ e, read ⟨part, [], none⟩ = .error e := by
      by_cases hwhole : part = journalMagic
      · subst hwhole
        exact ⟨.rollback, by simp [read, Disk.file, readFrames_magic, ok_bind, Witness.read,
          okOr, error_bind]⟩
      · exact ⟨.invalidHeader, by
          simp [read, Disk.file, readFrames_part ahead hwhole, error_bind]⟩
    obtain ⟨e, hread⟩ := hunread
    rw [committed, hread]
  | @witnessed whole kept torn storable ahead hTorn fits =>
    have hfile : (⟨image whole ++ torn, [], (diskOf kept).head⟩ : Disk).file = image whole ++ torn :=
      append_nil _
    have hread : read ⟨image whole ++ torn, [], (diskOf kept).head⟩ = .ok kept :=
      read_reconciled (by rw [hfile]; exact readFrames_image_torn storable.valid hTorn fits)
        (by simp [hfile]) (Witness.read_encode _)
        (by rw [hfile, take_left]; exact reconcile_kept storable ahead)
    rw [committed, hread]

end Rests

end Supgang.Journal
