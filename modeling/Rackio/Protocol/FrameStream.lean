import Rackio.Protocol.Framing

/-!
# Streams of frames

What `write_frame` leaves behind when it is called for one message after the other, and what
`read_frame` makes of a stream that ends: `readFrame` is one call, `readFrames` the calls of a
reader that goes on until the first error. `read_in_pieces` says that it does not matter in which
pieces the bytes arrive.

`readFrames_flatMap` is the round trip and `readFrames_cut` what is read of a stream that was cut
anywhere; `framing_roundTrips` puts them together with the two bounds.
-/

namespace Rackio

open BigEndian

variable {M : Type} (c : Codec M)

/-! ## Writing -/

/-- The source's `write_frame` on a writer that has taken `written` and takes every byte: what it
returns, and what the writer has then. -/
def writeFrameTo (written : List UInt8) (m : M) : Except FrameError Unit × List UInt8 :=
  let encodedLen := (c.encode m).length
  if encodedLen > maxFrameBytes then (.error (.tooLarge encodedLen maxFrameBytes), written)
  else if encodedLen < 2 ^ 32 then
    let written := written ++ toBe 4 encodedLen
    (.ok (), written ++ c.encode m)
  else (.error (.tooLarge encodedLen maxFrameBytes), written)

/-- The bytes of a message are those of `writeFrame`, after what was written before. -/
theorem writeFrameTo_eq (written : List UInt8) (m : M) :
    writeFrameTo c written m =
      match writeFrame c m with
      | .ok bytes => (.ok (), written ++ bytes)
      | .error e => (.error e, written) := by
  simp only [writeFrameTo, writeFrame]
  split_ifs <;> simp

/-- A message that does not fit writes no byte. -/
theorem writeFrameTo_of_not_fits {m : M} (h : ¬ Fits c m) (written : List UInt8) :
    writeFrameTo c written m =
      (.error (.tooLarge (c.encode m).length maxFrameBytes), written) := by
  rw [writeFrameTo_eq, writeFrame_of_not_fits c h]

/-- The calls of `write_frame` for one message after the other. -/
def writeAllTo (written : List UInt8) : List M → Except FrameError Unit × List UInt8
  | [] => (.ok (), written)
  | m :: ms =>
    match writeFrameTo c written m with
    | (.ok (), written) => writeAllTo written ms
    | (.error e, written) => (.error e, written)

/-- Messages that fit are written as their frames. -/
theorem writeAllTo_of_fits {ms : List M} (h : ∀ m ∈ ms, Fits c m) (written : List UInt8) :
    writeAllTo c written ms = (.ok (), written ++ ms.flatMap (frame c)) := by
  induction ms generalizing written with
  | nil => simp [writeAllTo]
  | cons m ms ih =>
    have hm : Fits c m := h m (.head _)
    have hms : ∀ m ∈ ms, Fits c m := fun m hm => h m (.tail _ hm)
    simp only [writeAllTo, writeFrameTo_eq, writeFrame_of_fits c hm]
    rw [ih hms, List.flatMap_cons, List.append_assoc]

/-! ## Reading -/

/-- The source's `read_frame` on a stream that carries `bytes` and then ends: its result, and what
it has not consumed. -/
def readFrame (bytes : List UInt8) : Except FrameError M × List UInt8 :=
  match ReadFrame.start.poll c bytes with
  | .pending future => (.error future.closed, [])
  | .ready result rest => (result, rest)

namespace ReadFrame

/-- The end of a read that waits: an orderly end as long as the length is not complete. -/
theorem closed_eq {r : ReadFrame} (h : r.Waiting) :
    r.closed = if r.taken.length < 4 then .endOfStream else .io .unexpectedEof := by
  cases r with
  | length taken =>
    have hlt : taken.length < 4 := h
    simp [closed, ReadFrame.taken, hlt]
  | body frameLen taken => simp [closed, ReadFrame.taken]

/-- The first poll, by the length it reads. -/
theorem poll_start (bytes : List UInt8) :
    start.poll c bytes =
      if bytes.length < 4 then .pending (.length bytes)
      else if ofBe (bytes.take 4) > maxFrameBytes then
        .ready (.error (.tooLarge (ofBe (bytes.take 4)) maxFrameBytes)) (bytes.drop 4)
      else pollBody c (ofBe (bytes.take 4)) [] (bytes.drop 4) := by
  simp [start, poll]

/-- A poll without bytes changes nothing. -/
theorem poll_nil {r : ReadFrame} (h : r.Waiting) : r.poll c [] = .pending r := by
  cases r with
  | length taken =>
    have hmissing : 0 < 4 - taken.length := Nat.sub_pos_of_lt h
    simp [poll, hmissing]
  | body frameLen taken =>
    have hmissing : 0 < frameLen - taken.length := Nat.sub_pos_of_lt h.1
    simp [poll, pollBody, hmissing]

/-- What the first poll leaves pending waits, with all the bytes. -/
theorem poll_start_pending {bytes : List UInt8} {r : ReadFrame}
    (h : start.poll c bytes = .pending r) : r.Waiting ∧ r.taken = bytes := by
  rw [poll_start] at h
  split at h
  · next hlt =>
    cases h
    exact ⟨hlt, rfl⟩
  next hlong =>
  split at h
  · cases h
  next hmax =>
  simp only [pollBody, List.length_nil, Nat.sub_zero, List.nil_append] at h
  split at h
  · next hlt =>
    cases h
    have htake : (bytes.take 4).length = 4 := List.length_take_of_le (Nat.not_lt.1 hlong)
    have hlen : toBe 4 (ofBe (bytes.take 4)) = bytes.take 4 := by
      have := toBe_ofBe (bytes.take 4)
      rwa [htake] at this
    refine ⟨⟨hlt, Nat.not_lt.1 hmax⟩, ?_⟩
    rw [taken, hlen, List.take_append_drop]
  · cases h

/-- A read that is done leaves what comes after its bytes alone. -/
theorem poll_start_append {bytes rest : List UInt8} {result : Except FrameError M}
    (h : start.poll c bytes = .ready result rest) (more : List UInt8) :
    start.poll c (bytes ++ more) = .ready result (rest ++ more) := by
  rw [poll_start] at h ⊢
  split at h
  · cases h
  next hlong =>
  have h4 : 4 ≤ bytes.length := Nat.not_lt.1 hlong
  have hlong' : ¬ (bytes ++ more).length < 4 := by
    rw [List.length_append]
    omega
  rw [if_neg hlong', List.take_append_of_le_length h4, List.drop_append_of_le_length h4]
  split at h
  · next hmax =>
    cases h
    rw [if_pos hmax]
  next hmax =>
  rw [if_neg hmax]
  simp only [pollBody, List.length_nil, Nat.sub_zero, List.nil_append] at h ⊢
  split at h
  · cases h
  next hbody =>
  cases h
  have hbody' := Nat.not_lt.1 hbody
  have hlt : ¬ (bytes.drop 4 ++ more).length < ofBe (bytes.take 4) := by
    rw [List.length_append]
    omega
  rw [if_neg hlt, List.take_append_of_le_length hbody', List.drop_append_of_le_length hbody']

end ReadFrame

/-- A pending `read_frame` on a stream that brings its bytes in pieces and then ends. -/
def readChunks (r : ReadFrame) : List (List UInt8) → Except FrameError M × List UInt8
  | [] => (.error r.closed, [])
  | chunk :: chunks =>
    match r.poll c chunk with
    | .pending r => readChunks r chunks
    | .ready result rest => (result, rest ++ chunks.flatten)

/-- The pieces make no difference. -/
theorem readChunks_eq {r : ReadFrame} (h : r.Waiting) (chunks : List (List UInt8)) :
    readChunks c r chunks = readFrame c (r.taken ++ chunks.flatten) := by
  induction chunks generalizing r with
  | nil =>
    have hpoll : ReadFrame.start.poll c r.taken = .pending r := by
      rw [← ReadFrame.poll_nil c h, ReadFrame.poll_resume c h, List.append_nil]
    simp [readChunks, readFrame, hpoll]
  | cons chunk chunks ih =>
    rw [readChunks, ReadFrame.poll_resume c h, List.flatten_cons, ← List.append_assoc]
    cases hpoll : ReadFrame.start.poll c (r.taken ++ chunk) with
    | pending r' =>
      obtain ⟨hwaiting, htaken⟩ := ReadFrame.poll_start_pending c hpoll
      simp only []
      rw [ih hwaiting, htaken]
    | ready result rest =>
      simp only [readFrame, ReadFrame.poll_start_append c hpoll]

/-- In whatever pieces a stream brings its bytes, `read_frame` returns the same and leaves the
same. -/
theorem read_in_pieces (chunks : List (List UInt8)) :
    readChunks c .start chunks = readFrame c chunks.flatten :=
  readChunks_eq c ReadFrame.waiting_start chunks

/-- A length above the bound is refused with the bytes after it untouched. -/
theorem readFrame_tooLarge {bytes : List UInt8} (h4 : 4 ≤ bytes.length)
    (hmax : maxFrameBytes < ofBe (bytes.take 4)) :
    readFrame c bytes =
      (.error (.tooLarge (ofBe (bytes.take 4)) maxFrameBytes), bytes.drop 4) := by
  rw [readFrame, ReadFrame.poll_start, if_neg (Nat.not_lt.2 h4), if_pos hmax]

/-- The first frame of a stream is read, and nothing after it. -/
theorem readFrame_frame {m : M} (h : Fits c m) (tail : List UInt8) :
    readFrame c (frame c m ++ tail) = (.ok m, tail) := by
  rw [readFrame, ReadFrame.poll_whole_frame c h]

/-- The error of a read that gets only `n` bytes of a frame. -/
def cutError (n : Nat) : FrameError := if n < 4 then .endOfStream else .io .unexpectedEof

/-- What is read of a stream that was cut inside its first frame, or after it. -/
theorem readFrame_cut {m : M} (h : Fits c m) {cut tail : List UInt8}
    (hcut : cut <+: frame c m ++ tail) :
    (cut.length < (frame c m).length ∧ readFrame c cut = (.error (cutError cut.length), [])) ∨
      ∃ rest, cut = frame c m ++ rest ∧ rest <+: tail := by
  by_cases hlt : cut.length < (frame c m).length
  · refine .inl ⟨hlt, ?_⟩
    obtain ⟨more, hmore⟩ := hcut
    rcases ReadFrame.poll_frame c ReadFrame.waiting_start h hmore with
      ⟨r, hpoll, hwaiting, htaken⟩ | ⟨rest, -, hrest⟩
    · rw [ReadFrame.taken_start, List.nil_append] at htaken
      simp only [readFrame, hpoll]
      rw [ReadFrame.closed_eq hwaiting, htaken, cutError]
    · rw [ReadFrame.taken_start, List.nil_append] at hrest
      rw [hrest, List.length_append] at hlt
      omega
  · obtain ⟨rest, rfl⟩ := List.prefix_of_prefix_length_le ⟨tail, rfl⟩ hcut (Nat.not_lt.1 hlt)
    exact .inr ⟨rest, rfl, (List.prefix_append_right_inj _).1 hcut⟩

/-- A read that returns a message has consumed its length. -/
theorem length_readFrame_lt {bytes : List UInt8} {m : M} (h : (readFrame c bytes).1 = .ok m) :
    (readFrame c bytes).2.length < bytes.length := by
  rw [readFrame, ReadFrame.poll_start] at h ⊢
  by_cases hlt : bytes.length < 4
  · rw [if_pos hlt] at h
    cases h
  rw [if_neg hlt] at h ⊢
  by_cases hmax : ofBe (bytes.take 4) > maxFrameBytes
  · rw [if_pos hmax] at h
    cases h
  rw [if_neg hmax] at h ⊢
  simp only [ReadFrame.pollBody, List.length_nil, Nat.sub_zero, List.nil_append] at h ⊢
  by_cases hbody : (bytes.drop 4).length < ofBe (bytes.take 4)
  · rw [if_pos hbody] at h
    cases h
  rw [if_neg hbody, List.length_drop, List.length_drop]
  omega

/-- The calls of `read_frame` on a stream that carries `bytes` and then ends: the messages they
return, and the error of the last one. -/
def readFrames (bytes : List UInt8) : List M × FrameError :=
  match h : (readFrame c bytes).1 with
  | .error e => ([], e)
  | .ok m =>
    have := length_readFrame_lt c h
    let (ms, e) := readFrames (readFrame c bytes).2
    (m :: ms, e)
termination_by bytes.length

theorem readFrames_of_error {bytes rest : List UInt8} {e : FrameError}
    (h : readFrame c bytes = (.error e, rest)) : readFrames c bytes = ([], e) := by
  rw [readFrames]
  split
  · next e' he =>
    rw [h] at he
    cases he
    rfl
  · next m hm =>
    rw [h] at hm
    cases hm

theorem readFrames_of_ok {bytes rest : List UInt8} {m : M}
    (h : readFrame c bytes = (.ok m, rest)) :
    readFrames c bytes = (m :: (readFrames c rest).1, (readFrames c rest).2) := by
  rw [readFrames]
  split
  · next e' he =>
    rw [h] at he
    cases he
  · next m' hm =>
    rw [h] at hm
    cases hm
    show (m :: (readFrames c (readFrame c bytes).2).1, (readFrames c (readFrame c bytes).2).2) = _
    rw [h]

/-- A stream that ends before a frame. -/
@[simp] theorem readFrames_nil : readFrames c [] = ([], .endOfStream) := by
  have hread : readFrame c [] = (.error .endOfStream, []) := rfl
  exact readFrames_of_error c hread

/-- The messages of a stream of frames are read back, and then its end. -/
theorem readFrames_flatMap {ms : List M} (h : ∀ m ∈ ms, Fits c m) :
    readFrames c (ms.flatMap (frame c)) = (ms, .endOfStream) := by
  induction ms with
  | nil => simp
  | cons m ms ih =>
    have hm : Fits c m := h m (.head _)
    have hms : ∀ m ∈ ms, Fits c m := fun m hm => h m (.tail _ hm)
    rw [List.flatMap_cons, readFrames_of_ok c (readFrame_frame c hm _), ih hms]

/-- A stream of frames that was cut: the messages before the cut are read, and then an error that
says whether the cut is inside a body. -/
theorem readFrames_cut {ms : List M} (h : ∀ m ∈ ms, Fits c m) {cut : List UInt8}
    (hcut : cut <+: ms.flatMap (frame c)) :
    ∃ whole lost rest, ms = whole ++ lost ∧ cut = whole.flatMap (frame c) ++ rest ∧
      (∀ m ∈ lost.head?, rest.length < (frame c m).length) ∧ (lost = [] → rest = []) ∧
      readFrames c cut = (whole, cutError rest.length) := by
  induction ms generalizing cut with
  | nil =>
    rw [List.flatMap_nil, List.prefix_nil] at hcut
    subst hcut
    exact ⟨[], [], [], rfl, rfl, by simp, by simp, by simp [cutError]⟩
  | cons m ms ih =>
    have hm : Fits c m := h m (.head _)
    have hms : ∀ m ∈ ms, Fits c m := fun m hm => h m (.tail _ hm)
    rw [List.flatMap_cons] at hcut
    rcases readFrame_cut c hm hcut with ⟨hlt, hread⟩ | ⟨rest, rfl, hrest⟩
    · refine ⟨[], m :: ms, cut, rfl, rfl, ?_, by simp, readFrames_of_error c hread⟩
      simpa using hlt
    · obtain ⟨whole, lost, left, rfl, rfl, hlost, hnil, hread⟩ := ih hms hrest
      refine ⟨m :: whole, lost, left, rfl, ?_, hlost, hnil, ?_⟩
      · rw [List.flatMap_cons, List.append_assoc]
      · rw [readFrames_of_ok c (readFrame_frame c hm _), hread]

/-- Frames round-trip and fail safe: the messages that were written are read back, from a stream cut
anywhere those before the cut; a message above the bound writes nothing, and a length above it is
refused without its body. -/
theorem framing_roundTrips {ms : List M} (h : ∀ m ∈ ms, Fits c m) :
    ∃ bytes, writeAllTo c [] ms = (.ok (), bytes) ∧ readFrames c bytes = (ms, .endOfStream) ∧
      (∀ cut, cut <+: bytes →
        ∃ whole lost rest, ms = whole ++ lost ∧ cut = whole.flatMap (frame c) ++ rest ∧
          (∀ m ∈ lost.head?, rest.length < (frame c m).length) ∧ (lost = [] → rest = []) ∧
          readFrames c cut =
            (whole, if rest.length < 4 then .endOfStream else .io .unexpectedEof)) ∧
      (∀ m written, ¬ Fits c m → writeFrameTo c written m =
        (.error (.tooLarge (c.encode m).length maxFrameBytes), written)) ∧
      ∀ stream : List UInt8, 4 ≤ stream.length → maxFrameBytes < ofBe (stream.take 4) →
        readFrame c stream =
          (.error (.tooLarge (ofBe (stream.take 4)) maxFrameBytes), stream.drop 4) :=
  ⟨ms.flatMap (frame c), writeAllTo_of_fits c h [], readFrames_flatMap c h,
    fun _ hcut => readFrames_cut c h hcut,
    fun _ written hm => writeFrameTo_of_not_fits c hm written,
    fun _ h4 hmax => readFrame_tooLarge c h4 hmax⟩

/-- An empty message and one of three bytes, and a length one above the bound. -/
theorem framing_roundTrips_example :
    ∃ bytes, writeAllTo bytesCodec [] [[], [7, 8, 9]] = (.ok (), bytes) ∧
      readFrames bytesCodec bytes = ([[], [7, 8, 9]], .endOfStream) ∧
      (readFrame bytesCodec [0, 16, 0, 1, 5]) =
        (.error (.tooLarge 1048577 maxFrameBytes), [5]) := by
  have hfits : ∀ m ∈ [[], [7, 8, 9]], Fits bytesCodec m := by decide
  obtain ⟨bytes, hwrite, hread, -, -, hlarge⟩ := framing_roundTrips bytesCodec hfits
  exact ⟨bytes, hwrite, hread, hlarge [0, 16, 0, 1, 5] (by decide) (by decide)⟩

end Rackio
