import Rackio.Lib.BigEndian

/-!
# Frames

The frames of `rackio-protocol/src/framing.rs`: a four-byte big-endian length and that many bytes of
an encoded message, at most `maxFrameBytes` of them.

`writeFrame` is the writer. The reader is a future: `read_frame` takes its bytes in two reads, and
each of them (`read_u32`, `read_exact`) takes whatever the stream has and waits for the rest.
`ReadFrame` is that future with the bytes it has taken so far, `ReadFrame.poll` one poll of it.
`ReadFrame.poll_resume` says that only the bytes matter, not how they were cut into arrivals, and
`ReadFrame.poll_frame` what a poll makes of the bytes of a written frame.
-/

namespace Rackio

open BigEndian

/-- The source's `MAX_FRAME_BYTES`. -/
def maxFrameBytes : Nat := 1048576

/-- The kinds of `std::io::Error` a frame transfer distinguishes. -/
inductive IoErrorKind
  | unexpectedEof
  | other (detail : String)
  deriving DecidableEq, Repr

/-- The source's `FrameError`. -/
inductive FrameError
  | endOfStream
  | tooLarge (actual maximum : Nat)
  | io (kind : IoErrorKind)
  | decode (detail : String)
  | encode (detail : String)
  deriving DecidableEq, Repr

/-- What the frames rely on of the message encoding: decoding undoes encoding. -/
structure Codec (M : Type) where
  encode : M → List UInt8
  decode : List UInt8 → Except String M
  decode_encode : ∀ m, decode (encode m) = .ok m

/-- A frame around the bytes of a message. -/
def bytesCodec : Codec (List UInt8) := ⟨id, .ok, fun _ => rfl⟩

variable {M : Type} (c : Codec M)

/-- The source's `write_frame`: the bytes it hands to the writer. -/
def writeFrame (m : M) : Except FrameError (List UInt8) :=
  let encodedLen := (c.encode m).length
  if encodedLen > maxFrameBytes then .error (.tooLarge encodedLen maxFrameBytes)
  else if encodedLen < 2 ^ 32 then .ok (toBe 4 encodedLen ++ c.encode m)
  else .error (.tooLarge encodedLen maxFrameBytes)

/-- A message that one frame can carry. -/
def Fits (m : M) : Prop := (c.encode m).length ≤ maxFrameBytes

instance (m : M) : Decidable (Fits c m) := inferInstanceAs (Decidable (_ ≤ _))

/-- The frame of a message: its length and its bytes. -/
def frame (m : M) : List UInt8 := toBe 4 (c.encode m).length ++ c.encode m

/-- A message that fits is written as its frame. -/
theorem writeFrame_of_fits {m : M} (h : Fits c m) : writeFrame c m = .ok (frame c m) := by
  have hmax : (c.encode m).length ≤ 1048576 := h
  have h32 : (c.encode m).length < 2 ^ 32 := by omega
  simp only [writeFrame, frame]
  rw [if_neg (Nat.not_lt.2 h), if_pos h32]

/-- A message that does not fit writes no byte. -/
theorem writeFrame_of_not_fits {m : M} (h : ¬ Fits c m) :
    writeFrame c m = .error (.tooLarge (c.encode m).length maxFrameBytes) := by
  simp only [writeFrame]
  rw [if_pos (Nat.not_le.1 h)]

/-! ## The reading future -/

/-- A pending `read_frame`: waiting for the length in `read_u32`, or for the body in `read_exact`,
with the bytes that read has taken from the stream. -/
inductive ReadFrame
  | length (taken : List UInt8)
  | body (frameLen : Nat) (taken : List UInt8)
  deriving DecidableEq, Repr

/-- The result of polling `read_frame`: still pending, or done with what is left of the input. -/
inductive Poll (M : Type)
  | pending (future : ReadFrame)
  | ready (result : Except FrameError M) (rest : List UInt8)

namespace ReadFrame

/-- A `read_frame` that has not been polled. -/
def start : ReadFrame := .length []

/-- Every byte the future has taken from the stream. -/
def taken : ReadFrame → List UInt8
  | .length taken => taken
  | .body frameLen taken => toBe 4 frameLen ++ taken

/-- The future still waits for at least one byte. -/
def Waiting : ReadFrame → Prop
  | .length taken => taken.length < 4
  | .body frameLen taken => taken.length < frameLen ∧ frameLen ≤ maxFrameBytes

/-- The source's `M::decode(buffer.as_slice())?`. -/
def decodeBody (bytes : List UInt8) : Except FrameError M :=
  match c.decode bytes with
  | .ok m => .ok m
  | .error e => .error (.decode e)

/-- One poll of `read_exact` on a body of `frameLen` bytes, then the decoding. -/
def pollBody (frameLen : Nat) (taken available : List UInt8) : Poll M :=
  let missing := frameLen - taken.length
  if available.length < missing then .pending (.body frameLen (taken ++ available))
  else .ready (decodeBody c (taken ++ available.take missing)) (available.drop missing)

/-- One poll of `read_frame` on the bytes the stream has available. -/
def poll : ReadFrame → List UInt8 → Poll M
  | .length taken, available =>
    let missing := 4 - taken.length
    if available.length < missing then .pending (.length (taken ++ available))
    else
      let frameLen := ofBe (taken ++ available.take missing)
      let available := available.drop missing
      if frameLen > maxFrameBytes then .ready (.error (.tooLarge frameLen maxFrameBytes)) available
      else pollBody c frameLen [] available
  | .body frameLen taken, available => pollBody c frameLen taken available

/-- What `read_frame` returns when the stream ends: an orderly end while it waits for the length, an
I/O error inside a body. -/
def closed : ReadFrame → FrameError
  | .length _ => .endOfStream
  | .body _ _ => .io .unexpectedEof

@[simp] theorem taken_start : start.taken = [] := rfl

theorem waiting_start : start.Waiting := by simp [start, Waiting]

/-- A future that waits and has taken no byte has just started. -/
theorem eq_start_of_taken {r : ReadFrame} (h : r.taken = []) : r = start := by
  cases r with
  | length taken => exact congrArg _ h
  | body frameLen taken =>
    have := congrArg List.length h
    simp [ReadFrame.taken] at this

/-! ## Arrivals -/

/-- A pending body read may be resumed from the bytes it has taken. -/
theorem pollBody_resume {frameLen : Nat} {taken : List UInt8} (h : taken.length < frameLen)
    (available : List UInt8) :
    pollBody c frameLen taken available = pollBody c frameLen [] (taken ++ available) := by
  simp only [pollBody, List.length_nil, Nat.sub_zero, List.length_append, List.nil_append]
  by_cases hlt : available.length < frameLen - taken.length
  · rw [if_pos hlt, if_pos (by omega)]
  · rw [if_neg hlt, if_neg (by omega), List.take_append, List.drop_append,
      List.take_of_length_le (Nat.le_of_lt h), List.drop_of_length_le (Nat.le_of_lt h),
      List.nil_append]

/-- A pending `read_frame` is its start on all the bytes it has taken: how the bytes were cut into
arrivals makes no difference. -/
theorem poll_resume {r : ReadFrame} (h : r.Waiting) (available : List UInt8) :
    r.poll c available = start.poll c (r.taken ++ available) := by
  cases r with
  | length taken =>
    simp only [Waiting] at h
    simp only [start, poll, ReadFrame.taken, List.length_nil, Nat.sub_zero, List.nil_append,
      List.length_append]
    by_cases hlt : available.length < 4 - taken.length
    · rw [if_pos hlt, if_pos (by omega)]
    · have hall : ¬ taken.length + available.length < 4 := by omega
      rw [if_neg hlt, if_neg hall, List.take_append, List.drop_append,
        List.take_of_length_le (Nat.le_of_lt h), List.drop_of_length_le (Nat.le_of_lt h),
        List.nil_append]
  | body frameLen taken =>
    obtain ⟨hlt, hmax⟩ := h
    have h4 : (toBe 4 frameLen).length = 4 := length_toBe 4 frameLen
    have hfit : frameLen < 256 ^ 4 := by unfold maxFrameBytes at hmax; omega
    simp only [start, poll, ReadFrame.taken, List.length_nil, Nat.sub_zero, List.nil_append,
      List.length_append, List.append_assoc, h4]
    rw [if_neg (by omega), List.take_left' h4, List.drop_left' h4, ofBe_toBe 4 _ hfit,
      if_neg (by omega)]
    exact pollBody_resume c hlt available

/-- Polling a frame's body on some of the bytes after its length. -/
theorem pollBody_frame {m : M} {available tail more : List UInt8}
    (h : available ++ more = c.encode m ++ tail) :
    (available.length < (c.encode m).length ∧
        pollBody c (c.encode m).length [] available =
          .pending (.body (c.encode m).length available)) ∨
      ∃ rest, available = c.encode m ++ rest ∧
        pollBody c (c.encode m).length [] available = .ready (.ok m) rest := by
  simp only [pollBody, List.length_nil, Nat.sub_zero, List.nil_append]
  by_cases hlt : available.length < (c.encode m).length
  · exact .inl ⟨hlt, by rw [if_pos hlt]⟩
  · refine .inr ⟨available.drop (c.encode m).length, ?_, ?_⟩
    · have hpre : c.encode m <+: available :=
        List.prefix_of_prefix_length_le ⟨tail, rfl⟩ ⟨more, h⟩ (Nat.not_lt.1 hlt)
      obtain ⟨rest, rfl⟩ := hpre
      simp
    · have hpre : c.encode m <+: available :=
        List.prefix_of_prefix_length_le ⟨tail, rfl⟩ ⟨more, h⟩ (Nat.not_lt.1 hlt)
      obtain ⟨rest, rfl⟩ := hpre
      rw [if_neg hlt, List.take_left, decodeBody, c.decode_encode]

/-- One poll on a stream that starts with the frame of `m`: the future keeps every byte and waits
on, or `m` is read and exactly its frame is consumed. -/
theorem poll_frame {r : ReadFrame} (hr : r.Waiting) {m : M} (hm : Fits c m)
    {available tail more : List UInt8} (h : r.taken ++ available ++ more = frame c m ++ tail) :
    (∃ r', r.poll c available = .pending r' ∧ r'.Waiting ∧ r'.taken = r.taken ++ available) ∨
      ∃ rest, r.poll c available = .ready (.ok m) rest ∧
        r.taken ++ available = frame c m ++ rest := by
  rw [poll_resume c hr]
  generalize r.taken ++ available = bytes at h ⊢
  have hmax : (c.encode m).length ≤ 1048576 := hm
  have hfit : (c.encode m).length < 256 ^ 4 := by omega
  have h4 : (toBe 4 (c.encode m).length).length = 4 := length_toBe 4 _
  simp only [start, poll, List.length_nil, Nat.sub_zero, List.nil_append]
  by_cases hlt : bytes.length < 4
  · exact .inl ⟨.length bytes, by rw [if_pos hlt], hlt, rfl⟩
  rw [if_neg hlt]
  have hpre : toBe 4 (c.encode m).length <+: bytes :=
    List.prefix_of_prefix_length_le ⟨c.encode m ++ tail, by rw [← List.append_assoc]; rfl⟩
      ⟨more, h⟩ (by rw [h4]; omega)
  obtain ⟨bytes, rfl⟩ := hpre
  rw [List.take_left' h4, List.drop_left' h4, ofBe_toBe 4 _ hfit, if_neg (Nat.not_lt.2 hm)]
  rw [frame, List.append_assoc, List.append_assoc, List.append_cancel_left_eq] at h
  rcases pollBody_frame c h with ⟨hshort, hp⟩ | ⟨rest, hbytes, hp⟩
  · exact .inl ⟨_, hp, ⟨hshort, hm⟩, rfl⟩
  · exact .inr ⟨rest, hp, by rw [hbytes, frame, List.append_assoc]⟩

/-- A frame that is there as a whole is read by the first poll. -/
theorem poll_whole_frame {m : M} (hm : Fits c m) (tail : List UInt8) :
    start.poll c (frame c m ++ tail) = .ready (.ok m) tail := by
  have hmax : (c.encode m).length ≤ 1048576 := hm
  have hfit : (c.encode m).length < 256 ^ 4 := by omega
  have h4 : (toBe 4 (c.encode m).length).length = 4 := length_toBe 4 _
  have hlong : ¬ (toBe 4 (c.encode m).length ++ (c.encode m ++ tail)).length < 4 := by
    rw [List.length_append, h4]
    omega
  simp only [start, poll, frame, List.length_nil, Nat.sub_zero, List.nil_append,
    List.append_assoc]
  rw [if_neg hlong, List.take_left' h4, List.drop_left' h4, ofBe_toBe 4 _ hfit,
    if_neg (Nat.not_lt.2 hm)]
  have hall : c.encode m ++ tail ++ [] = c.encode m ++ tail := List.append_nil _
  rcases pollBody_frame c hall with ⟨hshort, -⟩ | ⟨rest, hbytes, hready⟩
  · rw [List.length_append] at hshort
    omega
  · rw [hready, ← List.append_cancel_left hbytes]

end ReadFrame

end Rackio
