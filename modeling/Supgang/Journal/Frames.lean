/-
# Journal.Frames — the frame format and the witness codec keep their promises

What `Journal.Model` writes, it reads. The frame format is an instance of `Theory.Framing`, so the
general facts about torn logs apply to `parseFrames`; the witness codec is a round trip.

* `framing` — the three laws of the frame format.
* `image frames` — the file that holds exactly these frames; `parseFrames_image_torn` reads it
  back through a torn tail, `image_injective` says the frames are determined by the file.
* `image_prefix_split` — a prefix of an image is the image of a prefix and a torn frame.
* `Witness.read_encode`, `Witness.read_eq_some` — the installed witness is the witness read, and
  the only bytes that read as it.
-/
import Supgang.Journal.Model

namespace Supgang.Journal

set_option autoImplicit false

open Theory List

@[simp] theorem journalMagic_length : journalMagic.length = 8 := by decide

/-! ## Frames -/

theorem frameLength_pos (payload : Bytes) : 0 < frameLength payload := by
  unfold frameLength lengthBytes
  omega

theorem ValidPayload.length_fits {payload : Bytes} (valid : ValidPayload payload) :
    payload.length < 256 ^ lengthBytes := by
  have := valid.2
  unfold maxFrameBytes at this
  unfold lengthBytes
  omega

variable [Sha256]

theorem frameBytes_eq (payload : Bytes) :
    frameBytes payload = beBytes lengthBytes payload.length ++
      (payload ++ (checksum (beBytes lengthBytes payload.length) payload).1) := by
  simp [frameBytes, frameChunks]

@[simp] theorem frameBytes_length (payload : Bytes) :
    (frameBytes payload).length = frameLength payload := by
  have hsum := (checksum (beBytes lengthBytes payload.length) payload).2
  simp only [frameBytes_eq, length_append, beBytes_length, hsum, frameLength, checksumBytes]
  omega

theorem frontFrame_whole (offset : Nat) (payload rest : Bytes) (valid : ValidPayload payload) :
    frontFrame offset (frameBytes payload ++ rest) = .frame payload (frameBytes payload).length := by
  have hpos : payload.length ≠ 0 := by simpa using valid.1
  have hmax : ¬maxFrameBytes < payload.length := not_lt.mpr valid.2
  have hsum := (checksum (beBytes lengthBytes payload.length) payload).2
  have hlen : (frameBytes payload ++ rest).length
      = lengthBytes + payload.length + checksumBytes + rest.length := by
    simp [frameLength]
  have hhead : (frameBytes payload ++ rest).take lengthBytes
      = beBytes lengthBytes payload.length := by
    rw [frameBytes_eq, append_assoc]
    exact take_left' (beBytes_length _ _)
  have hafter : (frameBytes payload ++ rest).drop lengthBytes
      = payload ++ ((checksum (beBytes lengthBytes payload.length) payload).1 ++ rest) := by
    rw [frameBytes_eq, append_assoc, drop_left' (beBytes_length _ _), append_assoc]
  have hstored : ((frameBytes payload ++ rest).drop (lengthBytes + payload.length)).take
      checksumBytes = (checksum (beBytes lengthBytes payload.length) payload).1 := by
    rw [← drop_drop, hafter, drop_left]
    exact take_left' hsum
  have hread : ofBE (beBytes lengthBytes payload.length) = payload.length :=
    ofBE_beBytes valid.length_fits
  simp only [frontFrame, hhead, hread, hafter, hstored, take_left, hlen, hpos, hmax,
    frameBytes_length, frameLength]
  simp only [false_or, if_false, ne_eq, not_true_eq_false]
  rw [if_neg (by omega), if_neg (by omega), if_neg (by omega)]

theorem frontFrame_torn (offset : Nat) (payload torn : Bytes) (valid : ValidPayload payload)
    (ahead : torn <+: frameBytes payload) (proper : torn ≠ frameBytes payload) :
    frontFrame offset torn = .incomplete := by
  have hshort : torn.length < frameLength payload := by
    rw [← frameBytes_length]
    exact lt_of_le_of_ne ahead.length_le fun h => proper (ahead.eq_of_length h)
  unfold frontFrame
  split
  · rfl
  · rename_i hfour
    -- The length field is whole, so it is the one that was being written.
    have hhead : torn.take lengthBytes = beBytes lengthBytes payload.length := by
      obtain ⟨rest, hrest⟩ := ahead
      have := congrArg (List.take lengthBytes) hrest
      rw [take_append_of_le_length (by omega), frameBytes_eq,
        take_left' (beBytes_length _ _)] at this
      exact this
    have hread : ofBE (beBytes lengthBytes payload.length) = payload.length :=
      ofBE_beBytes valid.length_fits
    have hpos : payload.length ≠ 0 := by simpa using valid.1
    have hmax : ¬maxFrameBytes < payload.length := not_lt.mpr valid.2
    simp only [hhead, hread, hpos, hmax, or_self, if_false]
    split
    · rfl
    · rw [if_pos (by simpa [frameLength] using hshort)]

theorem frontFrame_sound (offset : Nat) (bytes payload : Bytes) (size : Nat)
    (h : frontFrame offset bytes = .frame payload size) :
    ValidPayload payload ∧ size = (frameBytes payload).length ∧ frameBytes payload <+: bytes := by
  unfold frontFrame at h
  split at h
  · cases h
  · rename_i hfour
    dsimp only at h
    split at h
    · cases h
    · rename_i hrange
      split at h
      · cases h
      · split at h
        · cases h
        · rename_i hlong
          split at h
          · cases h
          · rename_i hsum
            simp only [Front.frame.injEq] at h
            obtain ⟨rfl, rfl⟩ := h
            rw [not_or, not_lt] at hrange
            rw [not_not] at hsum
            have hhead : (bytes.take lengthBytes).length = lengthBytes := by
              rw [length_take]; omega
            have hpayload : ((bytes.drop lengthBytes).take
                (ofBE (bytes.take lengthBytes))).length = ofBE (bytes.take lengthBytes) := by
              rw [length_take, length_drop]; omega
            have hbe : beBytes lengthBytes (ofBE (bytes.take lengthBytes))
                = bytes.take lengthBytes := by
              simpa only [hhead] using beBytes_ofBE (bytes.take lengthBytes)
            refine ⟨⟨?_, hpayload.trans_le hrange.2⟩, ?_, ?_⟩
            · exact fun hnil => hrange.1 (by rw [← hpayload, hnil]; rfl)
            · rw [frameBytes_length, frameLength, hpayload]
            · rw [frameBytes_eq, hpayload, hbe, hsum]
              refine ⟨(bytes.drop (lengthBytes + ofBE (bytes.take lengthBytes))).drop
                checksumBytes, ?_⟩
              rw [append_assoc, append_assoc, take_append_drop, ← drop_drop,
                take_append_drop, take_append_drop]

/-- The frame format keeps the laws of `Theory.Framing`. -/
theorem framing : Framing frontFrame frameBytes ValidPayload where
  nonempty payload := by
    rw [← length_pos_iff, frameBytes_length]
    exact frameLength_pos payload
  front_whole := frontFrame_whole
  front_torn offset payload torn valid ahead proper _ :=
    frontFrame_torn offset payload torn valid ahead proper
  front_sound := frontFrame_sound

/-! ## The file that holds given frames -/

/-- The file that holds exactly these frames. -/
def image (frames : List Bytes) : Bytes := journalMagic ++ frames.flatMap frameBytes

/-- The start of a frame that is not all there. -/
abbrev Torn (torn : Bytes) : Prop := Framing.Torn frameBytes ValidPayload torn

theorem image_append (first second : List Bytes) :
    image (first ++ second) = image first ++ second.flatMap frameBytes := by
  simp [image]

theorem le_image_length (frames : List Bytes) : 8 ≤ (image frames).length := by
  simp [image]

theorem image_take_magic (frames : List Bytes) (torn : Bytes) :
    (image frames ++ torn).take journalMagic.length = journalMagic := by
  rw [image, append_assoc, take_left]

variable {frames : List Bytes}

/-- A longer run of frames is a longer file. -/
theorem eq_of_prefix_of_length {whole : List Bytes} (ahead : whole <+: frames)
    (h : (image whole).length = (image frames).length) : whole = frames := by
  obtain ⟨rest, rfl⟩ := ahead
  rw [image_append, length_append] at h
  cases rest with
  | nil => simp
  | cons payload rest =>
    have := frameLength_pos payload
    simp only [flatMap_cons, length_append, frameBytes_length] at h
    omega

theorem image_prefix_image {whole : List Bytes} (ahead : whole <+: frames) :
    image whole <+: image frames := by
  obtain ⟨rest, rfl⟩ := ahead
  rw [image_append]
  exact prefix_append ..

section Valid

variable (valid : ∀ payload ∈ frames, ValidPayload payload)

include valid

theorem parseFrames_image_torn {torn : Bytes} (hTorn : Torn torn) :
    parseFrames (image frames ++ torn) = .ok (frames, (image frames).length) := by
  have hdrop : (image frames ++ torn).drop journalMagic.length
      = frames.flatMap frameBytes ++ torn := by
    rw [image, append_assoc, drop_left]
  rw [parseFrames, hdrop, framing.scan_torn hTorn frames valid, image, length_append]
  simp [image]

theorem parseFrames_image : parseFrames (image frames) = .ok (frames, (image frames).length) := by
  simpa using parseFrames_image_torn valid (.inl rfl)

omit valid in
theorem image_injective {first second : List Bytes}
    (hfirst : ∀ payload ∈ first, ValidPayload payload)
    (hsecond : ∀ payload ∈ second, ValidPayload payload) (h : image first = image second) :
    first = second := by
  have hparse := parseFrames_image hfirst
  rw [h, parseFrames_image hsecond] at hparse
  simp only [Except.ok.injEq, Prod.mk.injEq] at hparse
  exact hparse.1.symm

/-- A prefix of an image that keeps the magic is the image of a prefix and a torn frame. -/
theorem image_prefix_split {part : Bytes} (ahead : part <+: image frames) (magic : 8 ≤ part.length) :
    ∃ whole torn, whole <+: frames ∧ part = image whole ++ torn ∧ Torn torn := by
  rcases prefix_append_cases ahead with inside | ⟨rest, rfl, beyond⟩
  · have hall : part = journalMagic :=
      inside.eq_of_length (le_antisymm inside.length_le (by simpa using magic))
    exact ⟨[], [], by simp, by simp [image, hall], .inl rfl⟩
  · obtain ⟨whole, torn, hwhole, rfl, hTorn⟩ := Framing.prefix_split frames valid beyond
    exact ⟨whole, torn, hwhole, by simp [image], hTorn⟩

theorem readFrames_image_torn {torn : Bytes} (hTorn : Torn torn)
    (fits : (image frames ++ torn).length ≤ maxJournalBytes) :
    readFrames (image frames ++ torn) = .ok (frames, (image frames).length) := by
  rw [readFrames, reject_bind, if_neg (not_lt.mpr fits), reject_bind,
    if_neg (not_not.mpr (image_take_magic frames torn)), parseFrames_image_torn valid hTorn]

end Valid

theorem parseFrames_sound {bytes : Bytes} {stop : Nat}
    (magic : bytes.take journalMagic.length = journalMagic)
    (h : parseFrames bytes = .ok (frames, stop)) :
    (∀ payload ∈ frames, ValidPayload payload) ∧ image frames <+: bytes ∧
      stop = (image frames).length := by
  obtain ⟨hvalid, hahead, hstop⟩ := framing.scan_sound h
  refine ⟨hvalid, ?_, by rw [hstop, image, length_append]⟩
  rw [← take_append_drop journalMagic.length bytes, magic]
  exact (prefix_append_right_inj _).mpr hahead

/-! ## The witness -/

namespace Witness

omit [Sha256] in
theorem content_length (value : JournalWitness) : (content value).length = contentBytes := by
  have := value.journalDigest.2
  simp only [content, length_append, beBytes_length, this, contentBytes, digestBytes]

omit [Sha256] in
theorem ofBE_word (word : UInt64) : UInt64.ofNat (ofBE (beBytes 8 word.toNat)) = word := by
  have hlt : word.toNat < 256 ^ 8 := word.toNat_lt
  rw [ofBE_beBytes hlt, UInt64.ofNat_toNat]

theorem encode_length (value : JournalWitness) : (encode value).length = fileBytes := by
  have := (Sha256.digest (domain ++ content value)).2
  simp only [encode, length_append, content_length, this, fileBytes, digestBytes]

theorem decode_encode (value : JournalWitness) : decode (encode value) = .ok value := by
  have hcovered : slice (encode value) contentBytes = some (content value) := by
    rw [← content_length value]
    exact slice_append ..
  have hsum : (encode value).drop contentBytes
      = (Sha256.digest (domain ++ content value)).1 := by
    rw [← content_length value]
    exact drop_left
  have hmagic : (encode value).take magic.length = magic := by
    simp only [encode, content, append_assoc, take_left]
  have hdigest : (content value).drop (magic.length + 16) = value.journalDigest.1 := by
    rw [content]
    exact drop_left' (by simp)
  have hlength : ((encode value).drop magic.length).take 8 = beBytes 8 value.length.toNat := by
    simp only [encode, content, append_assoc, drop_left]
    exact take_left' (beBytes_length ..)
  have hcount : ((encode value).drop (magic.length + 8)).take 8
      = beBytes 8 value.frameCount.toNat := by
    simp only [encode, content, append_assoc]
    rw [← drop_drop, drop_left, drop_left' (beBytes_length ..)]
    exact take_left' (beBytes_length ..)
  simp only [decode, encode_length, hcovered, hsum, hmagic, hlength, hcount, ofBE_word, reject_bind,
    okOr_some, ok_bind, hdigest, FixedBytes.ofBytes?_val, ne_eq, not_true_eq_false, or_self,
    if_false]
  rfl

/-- The installed witness is the witness read. -/
theorem read_encode (value : JournalWitness) : read (some (encode value)) = .ok (some value) := by
  have hshort : (encode value).take (fileBytes + 1) = encode value :=
    take_of_length_le (by rw [encode_length]; omega)
  simp only [read, hshort, decode_encode]
  rfl

omit [Sha256] in
theorem beBytes_word {part : Bytes} (h : part.length = 8) :
    beBytes 8 (UInt64.ofNat (ofBE part)).toNat = part := by
  have hlt : ofBE part < 2 ^ 64 := (ofBE_lt part).trans_le (by rw [h]; norm_num)
  rw [UInt64.toNat_ofNat', Nat.mod_eq_of_lt hlt]
  have hback := beBytes_ofBE part
  rwa [h] at hback

/-- A witness that decodes is the encoding of what it decodes to. -/
theorem decode_eq_ok {bytes : Bytes} {value : JournalWitness} (h : decode bytes = .ok value) :
    bytes = encode value := by
  simp only [decode, ok_steps] at h
  obtain ⟨_, hframe, covered, hcovered, _, hsum, digest, hdigest, rfl⟩ := h
  rw [not_or, not_not, not_not] at hframe
  obtain ⟨⟨rest, rfl⟩, hsize⟩ := slice_eq_some.mp hcovered
  have hmagicLength : magic.length = 8 := by decide
  have hcontent : covered.length = 56 := by rw [hsize]; decide
  rw [drop_left' hsize, not_not] at hsum
  rw [FixedBytes.ofBytes?_eq_some, hmagicLength] at hdigest
  rw [hmagicLength, take_append_of_le_length (by omega)] at hframe
  -- The covered part is its magic, its two words and its digest, in that order.
  have hsplit : covered = covered.take 8 ++ (covered.drop 8).take 8 ++
      (covered.drop 16).take 8 ++ covered.drop 24 := by
    rw [← take_add, ← take_add, take_append_drop]
  rw [encode, content, hsum]
  simp only [hmagicLength]
  rw [drop_append_of_le_length (by omega), drop_append_of_le_length (by omega),
    take_append_of_le_length (by simp; omega), take_append_of_le_length (by simp; omega),
    beBytes_word (by simp; omega), beBytes_word (by simp; omega), ← hdigest, ← hframe.2, ← hsplit]

theorem read_eq_some {head : Option Bytes} {value : JournalWitness}
    (h : read head = .ok (some value)) : head = some (encode value) := by
  cases head with
  | none => cases h
  | some bytes =>
    simp only [read, ok_steps, Option.some.injEq] at h
    obtain ⟨found, hdecode, rfl⟩ := h
    have hcut := decode_eq_ok hdecode
    have hlength := congrArg List.length hcut
    rw [encode_length, length_take] at hlength
    rw [← hcut, take_of_length_le (by omega)]

end Witness

end Supgang.Journal
