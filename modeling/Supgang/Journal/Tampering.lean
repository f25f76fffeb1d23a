/-
# Journal.Tampering — a journal against the witness of its head

The witness names the length, the number of frames and the digest of what was committed. Whatever
file a start finds beside it, opening and reading return the witnessed frames or fail: a file that
was rolled back, cut or altered inside the witnessed length is refused, and what follows it is no
part of the journal. An empty file beside the witness of an empty journal is a journal about to be
created, and opens.

* `open_witnessed`, `read_witnessed` — what a success says of the file and the witness.
* `journal_detects_tampering` — the two against one witness, and against each other.
-/
import Supgang.Journal.Recovery

namespace Supgang.Journal

set_option autoImplicit false

open Theory List

section Tampering

variable [Sha256]

/-- The file starts with these frames, and the witness is theirs. -/
structure Witnessed (file : Bytes) (head : Option Bytes) (frames : List Bytes) : Prop where
  storable : Storable frames
  ahead : image frames <+: file
  head_eq : head = some (Witness.encode (journalWitness (image frames) frames.length))

variable {file bytes : Bytes} {head : Option Bytes} {frames kept : List Bytes} {log : List Action}
  {tape : Tape}

/-- The file and its witness have one reading. -/
theorem Witnessed.unique {first second : List Bytes} (h : Witnessed file head first)
    (h' : Witnessed file head second) : first = second := by
  have same : journalWitness (image first) first.length =
      journalWitness (image second) second.length := by
    have read := Witness.read_encode (journalWitness (image first) first.length)
    rw [← h.head_eq, h'.head_eq, Witness.read_encode] at read
    simpa using read.symm
  have length : (image first).length = (image second).length := by
    rw [← h.storable.toNat_length, ← h'.storable.toNat_length]
    exact congrArg (·.length.toNat) same
  have images : image first = image second :=
    (prefix_of_prefix_length_le h.ahead h'.ahead length.le).eq_of_length length
  exact image_injective h.storable.valid h'.storable.valid images

/-- A witness names its frames among all strings that do not collide. -/
theorem Witnessed.of_head {seen : Set Bytes} (free : CollisionFree seen)
    (storable : Storable frames) (member : image frames ∈ seen)
    (inside : ∀ part, part <+: file → part ∈ seen) (h : Witnessed file (diskOf frames).head kept) :
    kept = frames := by
  have same : journalWitness (image kept) kept.length =
      journalWitness (image frames) frames.length := by
    have read := Witness.read_encode (journalWitness (image kept) kept.length)
    rw [← h.head_eq, diskOf, Witness.read_encode] at read
    simpa using read.symm
  have images : image kept = image frames :=
    free (inside _ h.ahead) member (congrArg JournalWitness.journalDigest same)
  exact image_injective h.storable.valid storable.valid images

omit [Sha256] in
/-- An empty file gets its magic; any other is left alone. -/
theorem createFile_file {u : Unit} (h : createFile.run ⟨⟨file, [], head⟩, log⟩ = .ok u tape) :
    tape.disk = ⟨file, [], head⟩ ∨ (file = [] ∧ tape.disk = ⟨journalMagic, [], head⟩) := by
  rw [createFile, EStateM.run_bind, EStateM.run_get] at h
  simp only [run_ite, run_performAll] at h
  split at h
  · rename_i empty
    cases h
    have nothing : file = [] := by simpa [Disk.file] using empty
    subst nothing
    exact .inr ⟨rfl, rfl⟩
  · cases h
    exact .inl rfl

/-- Beside a witness, what is kept is what it vouches for. -/
theorem settleWitness_witnessed {witness : Bytes} {length : Nat} {tape' : Tape}
    (storable : Storable frames) (ahead : image frames <+: bytes)
    (h : (settleWitness bytes (some witness) frames (image frames).length).run tape =
      .ok (kept, length) tape') :
    Witnessed bytes (some witness) kept := by
  have covered : slice bytes (image frames).length = some (image frames) :=
    slice_eq_some.mpr ⟨ahead, rfl⟩
  simp only [settleWitness, covered, okOr_some, run_bind_eq_ok, run_ofExcept_eq_ok] at h
  obtain ⟨_, _, ⟨same, rfl⟩, expected, _, ⟨readable, rfl⟩, h⟩ := h
  cases same
  cases expected with
  | none =>
    simp only [Witness.read, ok_steps] at readable
    obtain ⟨_, -, impossible⟩ := readable
    cases impossible
  | some expected =>
    rw [run_ofExcept_eq_ok] at h
    obtain ⟨keptStorable, keptAhead, -, rfl⟩ := reconcile_sound storable ahead h.1
    exact ⟨keptStorable, keptAhead, Witness.read_eq_some readable⟩

theorem open_witnessed {witness : Bytes} {journal : Journal}
    (h : openJournal.run ⟨⟨file, [], some witness⟩, log⟩ = .ok (journal, kept) tape) :
    Witnessed file (some witness) kept ∨
      (file = [] ∧ Witnessed journalMagic (some witness) kept) := by
  rw [openJournal, run_bind_eq_ok] at h
  obtain ⟨_, created, hcreated, h⟩ := h
  have main (bytes : Bytes) (disk : created.disk = ⟨bytes, [], some witness⟩) :
      Witnessed bytes (some witness) kept := by
    have content : Disk.file ⟨bytes, [], some witness⟩ = bytes := append_nil bytes
    rw [EStateM.run_bind, EStateM.run_get] at h
    simp only [disk, content, run_bind_eq_ok, run_ofExcept_eq_ok] at h
    obtain ⟨⟨found, stop⟩, _, ⟨hread, rfl⟩, ⟨settledFrames, length⟩, settled, hkept, _, cut, hcut,
      committed, _, ⟨hcommitted, rfl⟩, hout⟩ := h
    obtain ⟨storable, ahead, rfl⟩ := readFrames_sound hread
    have witnessed := settleWitness_witnessed storable ahead hkept
    cases hout
    exact witnessed
  rcases createFile_file hcreated with disk | ⟨empty, disk⟩
  · exact .inl (main file disk)
  · exact .inr ⟨empty, main journalMagic disk⟩

/-- Frames that fill the witnessed part of a file are all of it. -/
theorem parseFrames_part {part : Bytes} (magic : bytes.take journalMagic.length = journalMagic)
    (fits : bytes.length ≤ maxJournalBytes) (inside : part <+: bytes)
    (h : parseFrames part = .ok (frames, part.length)) :
    Storable frames ∧ image frames = part := by
  have long : journalMagic.length ≤ part.length := by
    obtain ⟨-, -, stop⟩ := framing.scan_sound h
    omega
  have start : part.take journalMagic.length = journalMagic := by
    obtain ⟨rest, rfl⟩ := inside
    rwa [take_append_of_le_length long] at magic
  obtain ⟨valid, ahead, stop⟩ := parseFrames_sound start h
  have same := ahead.eq_of_length stop.symm
  exact ⟨⟨valid, by rw [same]; exact inside.length_le.trans fits⟩, same⟩

theorem read_witnessed {disk : Disk} (h : read disk = .ok kept) :
    Witnessed disk.file disk.head kept := by
  simp only [read, ok_steps] at h
  obtain ⟨⟨found, stop⟩, hread, _, readable, expected, rfl, covered, hcovered, h⟩ := h
  have head := Witness.read_eq_some readable
  obtain ⟨storable, ahead, rfl⟩ := readFrames_sound hread
  rw [slice_eq_some.mpr ⟨ahead, rfl⟩] at hcovered
  cases hcovered
  simp only [readFrames, ok_steps, not_not] at hread
  obtain ⟨_, fits, _, magic, -⟩ := hread
  split at h
  · rename_i same
    cases h
    exact ⟨storable, ahead, by rw [head, same]⟩
  · simp only [ok_steps] at h
    obtain ⟨part, hpart, ⟨partFrames, partLength⟩, parsed, h⟩ := h
    obtain ⟨inside, size⟩ := slice_eq_some.mp hpart
    split at h
    · rename_i agrees
      cases h
      dsimp only at agrees ⊢
      rw [agrees.1, ← size] at parsed
      obtain ⟨partStorable, rfl⟩ := parseFrames_part magic (not_lt.mp fits) inside parsed
      exact ⟨partStorable, inside, by rw [head, agrees.2]⟩
    · cases h

/-- Reading, as a program over the disk. -/
def readJournal : EStateM JournalError Tape (List Bytes) := do
  let tape ← get
  ofExcept (read tape.disk)

theorem readJournal_run (tape : Tape) : readJournal.run tape =
    match read tape.disk with
    | .ok frames => .ok frames tape
    | .error e => .error e tape := by
  change (ofExcept (read tape.disk) : EStateM JournalError Tape (List Bytes)).run tape = _
  cases read tape.disk <;> rfl

theorem readJournal_witnessed (h : readJournal.run ⟨⟨bytes, [], head⟩, log⟩ = .ok kept tape) :
    Witnessed bytes head kept := by
  rw [readJournal_run] at h
  cases answer : read ⟨bytes, [], head⟩ with
  | error e => rw [answer] at h; cases h
  | ok found =>
    rw [answer] at h
    cases h
    have witnessed := read_witnessed answer
    rwa [show Disk.file ⟨bytes, [], head⟩ = bytes from append_nil bytes] at witnessed

/-- **Rollback and tampering are detected.** Beside the witness of some frames, whatever the file:
opening and reading succeed only where the file starts with exactly the witnessed bytes, and then
return those frames; a file that is empty beside the witness of no frames is created anew. On any
file and witness where both succeed they return the same frames, and reading leaves the disk as it
was. -/
theorem journal_detects_tampering {frames : List Bytes} (storable : Storable frames) (file : Bytes)
    (free : CollisionFree {part | part <+: file ∨ part <+: image frames}) :
    (∀ log journal kept tape,
      openJournal.run ⟨⟨file, [], (diskOf frames).head⟩, log⟩ = .ok (journal, kept) tape →
        (file.take (image frames).length = image frames ∨ (file = [] ∧ frames = [])) ∧
          kept = frames) ∧
    (∀ log kept tape,
      readJournal.run ⟨⟨file, [], (diskOf frames).head⟩, log⟩ = .ok kept tape →
        file.take (image frames).length = image frames ∧ kept = frames) ∧
    (∀ bytes head log journal opened kept tape tape',
      openJournal.run ⟨⟨bytes, [], head⟩, log⟩ = .ok (journal, opened) tape →
      readJournal.run ⟨⟨bytes, [], head⟩, log⟩ = .ok kept tape' → opened = kept) ∧
    ∀ tape, left readJournal tape = tape := by
  have inside (bytes : Bytes) (within : bytes <+: file ∨ bytes <+: image frames) (part : Bytes)
      (h : part <+: bytes) : part ∈ {part | part <+: file ∨ part <+: image frames} :=
    within.imp h.trans h.trans
  have named : image frames ∈ {part | part <+: file ∨ part <+: image frames} :=
    .inr prefix_rfl
  refine ⟨fun log journal kept tape h => ?_, fun log kept tape h => ?_, ?_, fun tape => ?_⟩
  · rcases open_witnessed h with witnessed | ⟨rfl, witnessed⟩
    · cases witnessed.of_head free storable named (inside file (.inl prefix_rfl))
      exact ⟨.inl (prefix_iff_eq_take.mp witnessed.ahead).symm, rfl⟩
    · have begins : journalMagic <+: image frames := prefix_append ..
      cases witnessed.of_head free storable named (inside journalMagic (.inr begins))
      -- The whole image fits in the magic, so there is no frame in it.
      have bare : image frames = image [] := by
        have same := witnessed.ahead.eq_of_length_le begins.length_le
        rw [same]
        simp [image]
      have none := image_injective storable.valid (by simp) bare
      exact ⟨.inr ⟨rfl, none⟩, rfl⟩
  · have witnessed := readJournal_witnessed h
    cases witnessed.of_head free storable named (inside file (.inl prefix_rfl))
    exact ⟨(prefix_iff_eq_take.mp witnessed.ahead).symm, rfl⟩
  · intro bytes head log journal opened kept tape tape' opens reads
    have witnessed := readJournal_witnessed reads
    obtain ⟨witness, rfl⟩ : ∃ witness, head = some witness := ⟨_, witnessed.head_eq⟩
    rcases open_witnessed opens with both | ⟨rfl, -⟩
    · exact both.unique witnessed
    · -- No image is as short as an empty file.
      have short := witnessed.ahead.length_le
      have long := le_image_length kept
      rw [length_nil] at short
      omega
  · unfold left
    rw [readJournal_run]
    cases read tape.disk <;> rfl

end Tampering

/-! ## Fixed files -/

attribute [local instance] countingSha256

/-- Beside the witness of no frames an empty file opens, though it does not start with the magic. -/
theorem empty_file_opens :
    (match openJournal.run (Tape.start ⟨[], [], (diskOf []).head⟩) with
      | .ok (_, kept) _ => kept = []
      | .error _ _ => False) ∧
    ([] : Bytes).take (image []).length ≠ image [] := by
  have opens : (match openJournal.run (Tape.start ⟨[], [], (diskOf []).head⟩) with
      | .ok (_, kept) _ => decide (kept = [])
      | .error _ _ => false) = true := by decide +kernel
  refine ⟨?_, by decide +kernel⟩
  split at opens
  · exact of_decide_eq_true opens
  · cases opens

theorem journal_detects_tampering_counting :
    Storable [[1]] ∧ read (diskOf [[1]]) = .ok [[1]] ∧
      ∀ log kept tape, readJournal.run ⟨diskOf [[1]], log⟩ = .ok kept tape → kept = [[1]] := by
  have storable := storable_bytes [1] (by decide)
  have free : CollisionFree {part | part <+: image [[1]] ∨ part <+: image [[1]]} := by
    have short : (image [[1]]).length < 65536 := by
      simp [image, frameLength, lengthBytes, checksumBytes]
    simpa using counting_prefixes short
  have detects := journal_detects_tampering storable (image [[1]]) free
  exact ⟨storable, read_diskOf storable, fun log kept tape h => (detects.2.1 log kept tape h).2⟩

end Supgang.Journal
