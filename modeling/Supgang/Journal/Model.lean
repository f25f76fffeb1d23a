/-
# Journal.Model — the checksummed journal and its head witness

`journal.rs` and `journal/witness.rs`, over the disk of `Theory.Disk`. The journal file is a
magic, then frames; a frame is a four-byte length, the payload and a checksum of both. Beside it a
fixed-size witness names the length, the frame count and the digest of the committed bytes, and is
replaced only after those bytes are synchronized.

A `Journal` value is the part of the source's handle that is not the file itself. Operations are
programs over a `Tape`, so the actions they take, and with them everything a crash can leave, are
read off the program. File ownership, modes and access lists are outside the model: the file
system of `Theory.Disk` has none.
-/
import Supgang.Crypto
import Supgang.Theory.Disk
import Supgang.Theory.Framing

namespace Supgang.Journal

set_option autoImplicit false

open Theory

/-- Maximum payload accepted in one journal frame. -/
def maxFrameBytes : Nat := 64 * 1024
/-- Maximum journal size before compaction is required. -/
def maxJournalBytes : Nat := 16 * 1024 * 1024

def journalMagic : Bytes := utf8 "SUPGJNL1"
def checksumBytes : Nat := 32
def lengthBytes : Nat := 4
def checksumDomain : Bytes := utf8 "supgang/journal-frame/v1\x00"

/-- A journal open, validation, or persistence failure. -/
inductive JournalError where
  | invalidHeader
  | checksum (offset : Nat)
  | oversizedFrame (offset : Nat)
  | journalFull
  | rollback
  | invalidPayload
  /-- A call to the file system failed. -/
  | io
deriving DecidableEq, Repr

/-! ## The head witness -/

namespace Witness

def magic : Bytes := utf8 "SUPGHD01"
def domain : Bytes := utf8 "supgang/journal-head/v1\x00"
def digestBytes : Nat := 32
def contentBytes : Nat := magic.length + 8 + 8 + digestBytes
def fileBytes : Nat := contentBytes + digestBytes

end Witness

structure JournalWitness where
  length : UInt64
  frameCount : UInt64
  journalDigest : Digest
deriving DecidableEq, Repr

variable [Sha256]

namespace Witness

def content (value : JournalWitness) : Bytes :=
  magic ++ beBytes 8 value.length.toNat ++ beBytes 8 value.frameCount.toNat ++
    value.journalDigest.1

def encode (value : JournalWitness) : Bytes :=
  content value ++ (Sha256.digest (domain ++ content value)).1

def decode (bytes : Bytes) : Except JournalError JournalWitness := do
  reject (bytes.length ≠ fileBytes ∨ bytes.take magic.length ≠ magic) JournalError.rollback
  let covered ← okOr (slice bytes contentBytes) JournalError.rollback
  reject (bytes.drop contentBytes ≠ (Sha256.digest (domain ++ covered)).1) JournalError.rollback
  let journalDigest ← okOr (FixedBytes.ofBytes? 32 (covered.drop (magic.length + 16)))
    JournalError.rollback
  return {
    length := UInt64.ofNat (ofBE ((bytes.drop magic.length).take 8))
    frameCount := UInt64.ofNat (ofBE ((bytes.drop (magic.length + 8)).take 8))
    journalDigest }

/-- `witness::read`: a missing head is no witness; a longer one is cut one byte past the size it
must have. -/
def read (head : Option Bytes) : Except JournalError (Option JournalWitness) :=
  match head with
  | none => .ok none
  | some bytes => do
      let witness ← decode (bytes.take (fileBytes + 1))
      return some witness

end Witness

def journalWitness (bytes : Bytes) (frameCount : Nat) : JournalWitness where
  length := UInt64.ofNat bytes.length
  frameCount := UInt64.ofNat frameCount
  journalDigest := Sha256.digest bytes

/-! ## Frames -/

def checksum (length payload : Bytes) : Digest :=
  Sha256.digest (checksumDomain ++ length ++ payload)

/-- A payload one frame may carry. -/
def ValidPayload (payload : Bytes) : Prop := payload ≠ [] ∧ payload.length ≤ maxFrameBytes

instance (payload : Bytes) : Decidable (ValidPayload payload) :=
  inferInstanceAs (Decidable (_ ∧ _))

/-- The three writes of `write_frame`. -/
def frameChunks (payload : Bytes) : List Bytes :=
  let length := beBytes lengthBytes payload.length
  [length, payload, (checksum length payload).1]

/-- What `write_frame` writes. -/
def writeFrame (payload : Bytes) : Except JournalError (List Bytes) := do
  reject (payload = [] ∨ maxFrameBytes < payload.length) JournalError.invalidPayload
  return frameChunks payload

/-- The bytes of one frame. -/
def frameBytes (payload : Bytes) : Bytes := (frameChunks payload).flatten

def frameLength (payload : Bytes) : Nat := lengthBytes + payload.length + checksumBytes

/-- One turn of the loop of `parse_frames`, on the bytes from the cursor on. -/
def frontFrame (offset : Nat) (bytes : Bytes) : Front Bytes JournalError :=
  if bytes.length < lengthBytes then .incomplete
  else
    let length := bytes.take lengthBytes
    let payloadLength := ofBE length
    if payloadLength = 0 ∨ maxFrameBytes < payloadLength then .malformed (.oversizedFrame offset)
    else if bytes.length < lengthBytes + payloadLength then .incomplete
    else if bytes.length < lengthBytes + payloadLength + checksumBytes then .incomplete
    else
      let payload := (bytes.drop lengthBytes).take payloadLength
      let stored := (bytes.drop (lengthBytes + payloadLength)).take checksumBytes
      if (checksum length payload).1 ≠ stored then .malformed (.checksum offset)
      else .frame payload (lengthBytes + payloadLength + checksumBytes)

/-- The frames after the magic and the offset after the last of them. -/
def parseFrames (bytes : Bytes) : Except JournalError (List Bytes × Nat) :=
  scan frontFrame bytes.length journalMagic.length (bytes.drop journalMagic.length)

def readFrames (bytes : Bytes) : Except JournalError (List Bytes × Nat) := do
  reject (maxJournalBytes < bytes.length) JournalError.journalFull
  reject (bytes.take journalMagic.length ≠ journalMagic) JournalError.invalidHeader
  parseFrames bytes

end Supgang.Journal

/-! ## The handle and its operations -/

namespace Supgang

set_option autoImplicit false

open Theory Journal

/-- The state of an open journal beside its file: what the running hasher has absorbed, and the
number of committed frames. -/
structure Journal where
  hasher : Bytes
  frameCount : UInt64
deriving DecidableEq, Repr

namespace Journal

variable [Sha256]

/-- The frames and the length the witness vouches for. -/
def reconcile (bytes : Bytes) (frames : List Bytes) (validLength : Nat)
    (current expected : JournalWitness) : Except JournalError (List Bytes × Nat) :=
  if expected = current then .ok (frames, validLength)
  else if expected.length.toNat ≤ validLength then do
    let part ← okOr (slice bytes expected.length.toNat) .rollback
    let (partFrames, partLength) ← parseFrames part
    reject (partLength ≠ expected.length.toNat ∨
      journalWitness part partFrames.length ≠ expected) JournalError.rollback
    return (partFrames, expected.length.toNat)
  else .error .rollback

/-- A new journal file starts with the synchronized magic. -/
def createFile : EStateM JournalError Tape Unit := do
  if (← get).disk.file.length = 0 then
    performAll [.write journalMagic, .sync]

/-- The frames and the length to keep: what the witness vouches for, or, where there is no witness
yet, the whole file, which then gets one. -/
def settleWitness (bytes : Bytes) (head : Option Bytes) (frames : List Bytes) (validLength : Nat) :
    EStateM JournalError Tape (List Bytes × Nat) := do
  let covered ← ofExcept (okOr (slice bytes validLength) JournalError.rollback)
  let current := journalWitness covered frames.length
  let witness ← ofExcept (Witness.read head)
  match witness with
  | none => do
      reject (validLength ≠ bytes.length) JournalError.rollback
      perform (.installHead (Witness.encode current))
      pure (frames, validLength)
  | some expected => ofExcept (reconcile bytes frames validLength current expected)

def truncateTo (validLength length : Nat) : EStateM JournalError Tape Unit :=
  if validLength < length then performAll [.setLen validLength, .sync] else pure ()

/-- Opens or creates a journal, validates every complete frame, and drops what the witness does
not vouch for. -/
def openJournal : EStateM JournalError Tape (Journal × List Bytes) := do
  createFile
  let disk := (← get).disk
  let bytes := disk.file
  let (frames, validLength) ← ofExcept (readFrames bytes)
  let (frames, validLength) ← settleWitness bytes disk.head frames validLength
  truncateTo validLength bytes.length
  let committed ← ofExcept (okOr (slice bytes validLength) JournalError.rollback)
  return ({ hasher := committed, frameCount := UInt64.ofNat frames.length }, frames)

/-- Reads and validates an existing journal without creating or repairing it. -/
def read (disk : Disk) : Except JournalError (List Bytes) := do
  let bytes := disk.file
  let (frames, validLength) ← readFrames bytes
  let expected ← okOr (← Witness.read disk.head) JournalError.rollback
  let covered ← okOr (slice bytes validLength) JournalError.rollback
  if expected = journalWitness covered frames.length then
    return frames
  let part ← okOr (slice bytes expected.length.toNat) JournalError.rollback
  let (partFrames, partLength) ← parseFrames part
  if partLength = expected.length.toNat ∧ journalWitness part partFrames.length = expected then
    return partFrames
  throw .rollback

/-- Writes checked frames of `added` bytes behind the file and moves the witness over them. -/
def commitFrames (journal : Journal) (payloads : List Bytes) (added : Nat) :
    EStateM JournalError Tape Journal := do
  let currentLength := (← get).disk.file.length
  reject (maxJournalBytes < currentLength + added) JournalError.journalFull
  performAll ((payloads.flatMap frameChunks).map .write ++ [.sync])
  let nextCount ← ofExcept
    (okOr (checkedAdd journal.frameCount (UInt64.ofNat payloads.length)) JournalError.journalFull)
  let nextHasher := journal.hasher ++ payloads.flatMap frameBytes
  perform (.installHead (Witness.encode {
    length := UInt64.ofNat (currentLength + added)
    frameCount := nextCount
    journalDigest := Sha256.digest nextHasher }))
  return { hasher := nextHasher, frameCount := nextCount }

/-- Appends and synchronizes one complete frame before returning. -/
def append (journal : Journal) (payload : Bytes) : EStateM JournalError Tape Journal := do
  reject (payload = [] ∨ maxFrameBytes < payload.length) JournalError.invalidPayload
  journal.commitFrames [payload] (frameLength payload)

/-- The total size of a batch, refused at its first payload that no frame can carry. -/
def batchLength : List Bytes → UInt64 → Except JournalError UInt64
  | [], total => .ok total
  | payload :: payloads, total => do
      reject (payload = [] ∨ maxFrameBytes < payload.length) JournalError.invalidPayload
      let total ← okOr (checkedAdd total (UInt64.ofNat (frameLength payload)))
        JournalError.journalFull
      batchLength payloads total

/-- Appends a bounded group of frames with one durability synchronization. -/
def appendBatch (journal : Journal) (payloads : List Bytes) :
    EStateM JournalError Tape Journal := do
  let additional ← ofExcept (batchLength payloads 0)
  journal.commitFrames payloads additional.toNat

/-- Atomically replaces the journal with a compact canonical frame set. -/
def compact (payloads : List Bytes) : EStateM JournalError Tape Journal := do
  let size ← ofExcept (batchLength payloads (UInt64.ofNat journalMagic.length))
  reject (maxJournalBytes < size.toNat) JournalError.journalFull
  let replacement := journalMagic ++ payloads.flatMap frameBytes
  perform (.replaceFile replacement)
  let frameCount := UInt64.ofNat payloads.length
  perform (.installHead (Witness.encode {
    length := size
    frameCount
    journalDigest := Sha256.digest replacement }))
  return { hasher := replacement, frameCount }

/-- The current validated journal length. -/
def byteLen (tape : Tape) : Nat := tape.disk.file.length

end Journal

end Supgang
