/-
# Theory.Disk — an append-only file, its replaceable head, and crashes

A durable log on an ordinary file system is two files: one that is appended to and synchronized,
and a small head that is only ever replaced whole. This module fixes what a crash may leave of the
two and nothing about what is stored in them.

* `Disk` — the synchronized bytes of the file, the bytes appended since, and the head.
* `Action` — one call to the file system; `Disk.apply`, `Disk.after` run them.
* `Disk.CrashOf d actions d'` — `d'` is what a restart may find when the machine stops somewhere
  in `actions`: every action before the stop took effect, and of the unsynchronized bytes some
  prefix survived. Replacing the head and renaming a file over the log are single actions.
* `Disk.Contents d actions` — what `actions` have on the file at some point.
* `crash_append`, `crash_replace` — everything a crash inside the two durable update patterns,
  append–synchronize–install and rename–install, can leave behind.
* `Tape`, `perform` — a program over the disk that also records the actions it took.
-/
import Supgang.Theory.Program

namespace Supgang.Theory

set_option autoImplicit false

open List

/-- An append-only file and its head. A missing file is an empty one. -/
structure Disk where
  /-- Bytes of the file that survive a crash. -/
  synced : Bytes
  /-- Bytes appended since the last synchronization. -/
  pending : Bytes
  head : Option Bytes
deriving DecidableEq, Repr

/-- One call to the file system. -/
inductive Action where
  | write (bytes : Bytes)
  | sync
  | setLen (length : Nat)
  /-- A synchronized replacement renamed over the file. -/
  | replaceFile (bytes : Bytes)
  /-- A synchronized replacement renamed over the head. -/
  | installHead (bytes : Bytes)
deriving DecidableEq, Repr

namespace Disk

/-- The file as a running process reads it. -/
def file (d : Disk) : Bytes := d.synced ++ d.pending

/-- Everything written has been synchronized. -/
def Settled (d : Disk) : Prop := d.pending = []

def apply (d : Disk) : Action → Disk
  | .write bytes => { d with pending := d.pending ++ bytes }
  | .sync => { d with synced := d.synced ++ d.pending, pending := [] }
  | .setLen length =>
    { d with
      synced := d.synced.take length
      pending := d.pending.take (length - d.synced.length) }
  | .replaceFile bytes => { d with synced := bytes, pending := [] }
  | .installHead bytes => { d with head := some bytes }

/-- The disk after a sequence of actions. -/
def after (d : Disk) (actions : List Action) : Disk := actions.foldl apply d

/-- What a restart finds when `kept` unsynchronized bytes reached the medium. -/
def crash (d : Disk) (kept : Nat) : Disk :=
  { d with synced := d.synced ++ d.pending.take kept, pending := [] }

/-- `d'` is what a restart may find after a stop somewhere in `actions`. -/
def CrashOf (d : Disk) (actions : List Action) (d' : Disk) : Prop :=
  ∃ done, done <+: actions ∧ ∃ kept, d' = (d.after done).crash kept

/-- Every string that is, at some point of `actions`, the file or the start of it. -/
def Contents (d : Disk) (actions : List Action) : Set Bytes :=
  { part | ∃ done, done <+: actions ∧ part <+: (d.after done).file }

@[simp] theorem after_nil (d : Disk) : d.after [] = d := rfl

@[simp] theorem after_cons (d : Disk) (action : Action) (actions : List Action) :
    d.after (action :: actions) = (d.apply action).after actions := rfl

theorem after_append (d : Disk) (first second : List Action) :
    d.after (first ++ second) = (d.after first).after second :=
  foldl_append

theorem contents_append_left (d : Disk) (first second : List Action) :
    d.Contents first ⊆ d.Contents (first ++ second) := by
  rintro part ⟨done, ahead, hpart⟩
  exact ⟨done, ahead.trans (prefix_append ..), hpart⟩

theorem contents_append_right (d : Disk) (first second : List Action) :
    (d.after first).Contents second ⊆ d.Contents (first ++ second) := by
  rintro part ⟨done, ahead, hpart⟩
  refine ⟨first ++ done, (prefix_append_right_inj first).mpr ahead, ?_⟩
  rwa [after_append]

variable {d d' : Disk}

theorem file_of_settled (settled : d.Settled) : d.file = d.synced := by
  simp [file, show d.pending = [] from settled]

theorem crash_of_settled (settled : d.Settled) (kept : Nat) : d.crash kept = d := by
  cases d
  simp_all [crash, Settled]

theorem after_writes (d : Disk) (chunks : List Bytes) :
    d.after (chunks.map .write) = { d with pending := d.pending ++ chunks.flatten } := by
  induction chunks generalizing d with
  | nil => simp
  | cons chunk rest ih => simp [apply, ih, append_assoc]

/-- A stop in a sequence is a stop in its first part, or one in the second part after the whole
of the first. -/
theorem crashOf_append {first second : List Action} (crashed : d.CrashOf (first ++ second) d') :
    d.CrashOf first d' ∨ (d.after first).CrashOf second d' := by
  obtain ⟨done, ahead, kept, rfl⟩ := crashed
  rcases prefix_append_cases ahead with inFirst | ⟨rest, rfl, inSecond⟩
  · exact .inl ⟨done, inFirst, kept, rfl⟩
  · exact .inr ⟨rest, inSecond, kept, by rw [after_append]⟩

/-- **Append, synchronize, install.** A crash leaves a prefix of the appended bytes under the old
head, or all of them under the new one. -/
theorem crash_append (settled : d.Settled) {chunks : List Bytes} {head : Bytes}
    (crashed : d.CrashOf (chunks.map .write ++ [.sync, .installHead head]) d') :
    (∃ kept, kept <+: chunks.flatten ∧ d' = ⟨d.synced ++ kept, [], d.head⟩) ∨
      d' = ⟨d.synced ++ chunks.flatten, [], some head⟩ := by
  have empty : d.pending = [] := settled
  rcases crashOf_append crashed with ⟨done, ahead, kept, rfl⟩ | ⟨done, ahead, kept, rfl⟩
  · obtain ⟨rest, split⟩ := ahead
    obtain ⟨written, unwritten, rfl, rfl, -⟩ := map_eq_append_iff.mp split.symm
    refine .inl ⟨written.flatten.take kept, ?_, by simp [after_writes, crash, empty]⟩
    rw [flatten_append]
    exact (List.take_prefix ..).trans (prefix_append ..)
  · -- Nothing after the writes, the synchronization alone, or the head as well.
    rw [after_writes]
    rcases prefix_pair_cases ahead with rfl | rfl | rfl
    · exact .inl ⟨chunks.flatten.take kept, take_prefix .., by simp [crash, empty]⟩
    · exact .inl ⟨chunks.flatten, prefix_rfl, by simp [apply, crash, empty]⟩
    · exact .inr (by simp [apply, crash, empty])

/-- **Rename, install.** A crash leaves the old file under the old head, the replacement under the
old head, or the replacement under its own. -/
theorem crash_replace (settled : d.Settled) {bytes head : Bytes}
    (crashed : d.CrashOf [.replaceFile bytes, .installHead head] d') :
    d' = d ∨ d' = ⟨bytes, [], d.head⟩ ∨ d' = ⟨bytes, [], some head⟩ := by
  obtain ⟨done, ahead, kept, rfl⟩ := crashed
  rcases prefix_pair_cases ahead with rfl | rfl | rfl
  · exact .inl (crash_of_settled settled kept)
  · exact .inr (.inl (by simp [apply, crash]))
  · exact .inr (.inr (by simp [apply, crash]))

end Disk

/-! ## Programs over a disk -/

/-- A disk and the actions that led to it. -/
structure Tape where
  disk : Disk
  log : List Action
deriving DecidableEq, Repr

/-- A tape on which nothing has been done yet. -/
def Tape.start (disk : Disk) : Tape := ⟨disk, []⟩

def Tape.record (tape : Tape) (action : Action) : Tape :=
  ⟨tape.disk.apply action, tape.log ++ [action]⟩

/-- Take one action. -/
def perform {ε : Type} (action : Action) : EStateM ε Tape Unit :=
  modify (·.record action)

/-- Take several actions in order. -/
def performAll {ε : Type} : List Action → EStateM ε Tape Unit
  | [] => pure ()
  | action :: actions => do
      perform action
      performAll actions

@[simp] theorem run_perform {ε : Type} (action : Action) (tape : Tape) :
    (perform action : EStateM ε Tape Unit).run tape = .ok () (tape.record action) := rfl

@[simp] theorem run_performAll {ε : Type} (actions : List Action) (tape : Tape) :
    (performAll actions : EStateM ε Tape Unit).run tape =
      .ok () ⟨tape.disk.after actions, tape.log ++ actions⟩ := by
  induction actions generalizing tape with
  | nil => simp [performAll]
  | cons action actions ih => simp [performAll, ih, Tape.record]

end Supgang.Theory
