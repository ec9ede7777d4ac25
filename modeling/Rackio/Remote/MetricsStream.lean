import Rackio.Lib.Run
import Rackio.Remote.Error

/-!
# The metrics stream of a monitoring session

The loop of `monitor_session` (`apps/agent/src/remote/monitor.rs`) over the bytes a server writes on
a `WatchMetrics` stream. Each turn of the loop creates a `stream.next()` future, a `read_frame`, and
races it in `tokio::select!` against the five-second `state_refresh` tick; when the tick wins, the
future is dropped and a new one is made after the refresh.

A state is the bytes still in the network, the bytes that have arrived, the pending future and the
responses `next` has returned. An arrival may carry any number of bytes and a poll may come at any
time, so every cut of the byte stream and every placement of the ticks is a run.

`processed_prefix_of_tickAtBoundary` is the alignment result: while no tick drops a future that has
taken bytes, the responses are a prefix of those written. `Aligned.tick_iff` says that no other tick
keeps the stream aligned, and `processed_not_prefix` that the loop then reads a response nobody
wrote.
-/

namespace Rackio

open Lts

/-- The bytes of a list of responses written one after the other; it stops at the first response
that does not fit a frame. -/
def writeFrames {M : Type} (c : Codec M) : List M → Except FrameError (List UInt8)
  | [] => .ok []
  | m :: ms => do
    let bytes ← writeFrame c m
    let rest ← writeFrames c ms
    return bytes ++ rest

/-- The loop of `monitor_session` between two awaits. -/
structure MetricsStream (M : Type) where
  /-- Written by the server and not arrived yet. -/
  network : List UInt8
  /-- Arrived and not taken by a read. -/
  arrived : List UInt8
  /-- The pending `ResponseStream::next`. -/
  future : ReadFrame
  /-- The responses `next` has returned to the loop. -/
  processed : List M
  /-- The error `monitor_session` has returned with. -/
  ended : Option RemoteFleetError

namespace MetricsStream

/-- What can happen between two awaits of the loop. -/
inductive Event
  /-- The next `n` bytes arrive. -/
  | arrive (n : Nat)
  /-- The `stream.next()` branch is polled. -/
  | poll
  /-- The `state_refresh.tick()` branch wins, and `refresh_remote_state` answers. -/
  | tick (refresh : Except RemoteFleetError Unit)
  /-- Nothing was read for `STREAM_SILENCE_TIMEOUT`. -/
  | silence
  /-- The server finished the stream. -/
  | close

variable {M : Type} (c : Codec M) (isMetricsEvent : M → Bool)

/-- A stream that was just opened, with `bytes` written to it. -/
def init (bytes : List UInt8) : MetricsStream M where
  network := bytes
  arrived := []
  future := .start
  processed := []
  ended := none

/-- Poll the pending future; a response is matched as `MetricSample` or `Heartbeat`, and any other
one ends the session. -/
def pollNext (s : MetricsStream M) : MetricsStream M :=
  match s.future.poll c s.arrived with
  | .pending future => { s with future := future, arrived := [] }
  | .ready (.ok m) rest =>
    { s with
      arrived := rest
      future := .start
      processed := s.processed ++ [m]
      ended := if isMetricsEvent m then none else some (.unexpectedResponse "metrics event") }
  | .ready (.error e) rest =>
    { s with arrived := rest, future := .start, ended := some (.transport (.frame e)) }

/-- One step of the loop. -/
def step (s : MetricsStream M) (e : Event) : Option (MetricsStream M) :=
  if s.ended.isSome then none
  else match e with
    | .arrive n =>
      some { s with network := s.network.drop n, arrived := s.arrived ++ s.network.take n }
    | .poll => some (s.pollNext c isMetricsEvent)
    | .tick (.ok ()) => some { s with future := .start }
    | .tick (.error err) => some { s with future := .start, ended := some err }
    | .silence => some { s with ended := some (.timeout "metrics heartbeat") }
    | .close =>
      if s.network = [] ∧ s.arrived = [] then
        some { s with ended := some (.transport (.frame s.future.closed)) }
      else none

/-- A tick wins only while the pending read has taken no byte. -/
def TickAtBoundary (s : MetricsStream M) (e : Event) : Prop :=
  (∃ refresh, e = .tick refresh) → s.future.taken = []

instance (s : MetricsStream M) : ∀ e, Decidable (s.TickAtBoundary e)
  | .tick refresh =>
    decidable_of_iff (s.future.taken = []) ⟨fun h _ => h, fun h => h ⟨refresh, rfl⟩⟩
  | .arrive _ | .poll | .silence | .close => .isTrue (by simp [TickAtBoundary])

/-- The stream is aligned with the written responses: those not processed yet are exactly what the
pending read, the arrived bytes and the network still hold. -/
structure Aligned (msgs : List M) (s : MetricsStream M) : Prop where
  waiting : s.future.Waiting
  split : ∃ rest, msgs = s.processed ++ rest ∧ (∀ m ∈ rest, Fits c m) ∧
    s.future.taken ++ s.arrived ++ s.network = rest.flatMap (frame c)

variable {c isMetricsEvent}

/-- Responses that were all written fit, and their bytes are their frames. -/
theorem writeFrames_ok {msgs : List M} {bytes : List UInt8} (h : writeFrames c msgs = .ok bytes) :
    (∀ m ∈ msgs, Fits c m) ∧ bytes = msgs.flatMap (frame c) := by
  induction msgs generalizing bytes with
  | nil =>
    cases h
    exact ⟨nofun, rfl⟩
  | cons m ms ih =>
    by_cases hm : Fits c m
    · rw [writeFrames, writeFrame_of_fits c hm] at h
      cases hms : writeFrames c ms with
      | error e => rw [hms] at h; cases h
      | ok rest =>
        rw [hms] at h
        cases h
        obtain ⟨hfit, rfl⟩ := ih hms
        exact ⟨List.forall_mem_cons.2 ⟨hm, hfit⟩, rfl⟩
    · rw [writeFrames, writeFrame_of_not_fits c hm] at h
      cases h

/-- An opened stream is aligned. -/
theorem Aligned.init {msgs : List M} {bytes : List UInt8} (h : writeFrames c msgs = .ok bytes) :
    Aligned c msgs (MetricsStream.init bytes) := by
  obtain ⟨hfit, hbytes⟩ := writeFrames_ok h
  exact ⟨ReadFrame.waiting_start, msgs, rfl, hfit, hbytes⟩

/-- A poll keeps the stream aligned: it takes more of the next response, or returns it. -/
theorem Aligned.pollNext {msgs : List M} {s : MetricsStream M} (h : Aligned c msgs s) :
    Aligned c msgs (s.pollNext c isMetricsEvent) := by
  obtain ⟨hw, rest, hmsgs, hfit, hbytes⟩ := h
  cases rest with
  | nil =>
    have hnil : s.future.taken = [] ∧ s.arrived = [] ∧ s.network = [] := by simpa using hbytes
    obtain ⟨htaken, harr, hnet⟩ := hnil
    have hstart := ReadFrame.eq_start_of_taken htaken
    have hp : s.future.poll c s.arrived = .pending ReadFrame.start := by
      rw [hstart, harr]
      rfl
    refine ⟨?_, [], ?_, hfit, ?_⟩
    · simp only [MetricsStream.pollNext, hp]; exact ReadFrame.waiting_start
    · simp only [MetricsStream.pollNext, hp]; exact hmsgs
    · simp [MetricsStream.pollNext, hp, hnet]
  | cons m ms =>
    have hm : Fits c m := hfit m (.head _)
    rw [List.flatMap_cons] at hbytes
    rcases ReadFrame.poll_frame c hw hm hbytes with ⟨r, hp, hr, htaken⟩ | ⟨left, hp, hleft⟩
    · refine ⟨?_, m :: ms, ?_, hfit, ?_⟩
      · simp only [MetricsStream.pollNext, hp]; exact hr
      · simp only [MetricsStream.pollNext, hp]; exact hmsgs
      · simp only [MetricsStream.pollNext, hp, List.append_nil, htaken, List.flatMap_cons]
        exact hbytes
    · have hrest : left ++ s.network = ms.flatMap (frame c) := by
        rw [hleft, List.append_assoc, List.append_cancel_left_eq] at hbytes
        exact hbytes
      refine ⟨?_, ms, ?_, fun x hx => hfit x (.tail _ hx), ?_⟩
      · simp only [MetricsStream.pollNext, hp]; exact ReadFrame.waiting_start
      · simp only [MetricsStream.pollNext, hp, List.append_assoc, List.singleton_append]
        exact hmsgs
      · simp only [MetricsStream.pollNext, hp, ReadFrame.taken_start, List.nil_append]
        exact hrest

/-- Dropping a future that has taken no byte keeps the stream aligned. -/
theorem Aligned.restart {msgs : List M} {s : MetricsStream M} (h : Aligned c msgs s)
    (htaken : s.future.taken = []) : Aligned c msgs { s with future := .start } := by
  rw [← ReadFrame.eq_start_of_taken htaken]
  exact h

/-- Every step that drops no taken byte keeps the stream aligned. -/
theorem Aligned.step {msgs : List M} {s t : MetricsStream M} {e : Event} (h : Aligned c msgs s)
    (hg : TickAtBoundary s e) (hs : s.step c isMetricsEvent e = some t) : Aligned c msgs t := by
  unfold MetricsStream.step at hs
  split at hs
  · cases hs
  · cases e with
    | arrive n =>
      cases hs
      obtain ⟨hw, rest, hmsgs, hfit, hbytes⟩ := h
      refine ⟨hw, rest, hmsgs, hfit, ?_⟩
      simpa only [List.append_assoc, List.take_append_drop] using hbytes
    | poll =>
      cases hs
      exact h.pollNext
    | tick refresh =>
      have htaken := hg ⟨refresh, rfl⟩
      cases refresh with
      | ok u =>
        cases hs
        exact h.restart htaken
      | error err =>
        cases hs
        exact ⟨(h.restart htaken).waiting, (h.restart htaken).split⟩
    | silence =>
      cases hs
      exact ⟨h.waiting, h.split⟩
    | close =>
      simp only at hs
      split at hs
      · cases hs
        exact ⟨h.waiting, h.split⟩
      · cases hs

/-- The responses an aligned stream has processed are a prefix of those written. -/
theorem Aligned.prefix {msgs : List M} {s : MetricsStream M} (h : Aligned c msgs s) :
    s.processed <+: msgs := by
  obtain ⟨rest, hmsgs, -⟩ := h.split
  exact ⟨rest, hmsgs.symm⟩

/-- A tick keeps the stream aligned exactly when the read it drops has taken no byte. -/
theorem Aligned.tick_iff {msgs : List M} {s t : MetricsStream M}
    {refresh : Except RemoteFleetError Unit} (h : Aligned c msgs s)
    (hs : s.step c isMetricsEvent (.tick refresh) = some t) :
    Aligned c msgs t ↔ s.future.taken = [] := by
  refine ⟨fun ht => ?_, fun htaken => h.step (fun _ => htaken) hs⟩
  obtain ⟨rest, hmsgs, -, hbytes⟩ := h.split
  obtain ⟨rest', hmsgs', -, hbytes'⟩ := ht.split
  have hframe : t.processed = s.processed ∧ t.future = .start ∧ t.arrived = s.arrived ∧
      t.network = s.network := by
    unfold MetricsStream.step at hs
    split at hs
    · cases hs
    · cases refresh with
      | ok u => cases hs; exact ⟨rfl, rfl, rfl, rfl⟩
      | error err => cases hs; exact ⟨rfl, rfl, rfl, rfl⟩
  obtain ⟨hproc, hfut, harr, hnet⟩ := hframe
  have hrest : rest' = rest := by
    rw [hmsgs, hproc] at hmsgs'
    exact (List.append_cancel_left hmsgs').symm
  rw [hrest, ← hbytes, hfut, harr, hnet] at hbytes'
  have hlen := congrArg List.length hbytes'
  simp only [ReadFrame.taken_start, List.length_append, List.length_nil] at hlen
  exact List.length_eq_zero_iff.1 (by omega)

/-- While every tick falls between two frames, the loop processes a prefix of the responses that
were written, however their bytes are cut into arrivals. -/
theorem processed_prefix_of_tickAtBoundary {M : Type} (c : Codec M) (isMetricsEvent : M → Bool)
    (msgs : List M) (bytes : List UInt8) (es : List Event) (s : MetricsStream M)
    (hbytes : writeFrames c msgs = .ok bytes)
    (hrun : Run (Guarded TickAtBoundary (Fires (MetricsStream.step c isMetricsEvent)))
      (MetricsStream.init bytes) es s) :
    s.processed <+: msgs := by
  have haligned : Aligned c msgs s :=
    hrun.invariant (Aligned.init hbytes) fun _ _ _ h hr => h.step hr.1 hr.2
  exact haligned.prefix

/-! ## A tick inside a frame -/

/-- Two responses of the wire format: the message without a body, whose encoding is empty, and a
`MetricSample` with timestamp 1, sequence 2 and an idle processor. -/
inductive WireResponse
  | unset
  | idleSample
  deriving DecidableEq, Repr

/-- The bytes of the two responses. -/
def WireResponse.encode : WireResponse → List UInt8
  | .unset => []
  | .idleSample => [0x12, 9, 0x08, 1, 0x10, 2, 0x1d, 0, 0, 0, 0]

/-- The decoder of the two responses. -/
def WireResponse.decode (bytes : List UInt8) : Except String WireResponse :=
  if bytes = WireResponse.unset.encode then .ok .unset
  else if bytes = WireResponse.idleSample.encode then .ok .idleSample
  else .error "invalid wire type"

/-- The encoding of the two responses. -/
def wireCodec : Codec WireResponse where
  encode := WireResponse.encode
  decode := WireResponse.decode
  decode_encode m := by cases m <;> rfl

/-- The responses the loop goes on after. -/
def WireResponse.isEvent : WireResponse → Bool
  | .unset => false
  | .idleSample => true

/-- The bytes of one sample arrive in two parts, and a tick falls after both were read. -/
theorem processed_prefix_one_sample :
    ∃ s, Run (Guarded TickAtBoundary (Fires (step wireCodec WireResponse.isEvent)))
        (MetricsStream.init (frame wireCodec .idleSample))
        [.arrive 11, .poll, .arrive 4, .poll, .tick (.ok ())] s ∧
      s.processed = [.idleSample] ∧ s.processed <+: [.idleSample] := by
  have hrun : Run (Guarded TickAtBoundary (Fires (step wireCodec WireResponse.isEvent)))
      (MetricsStream.init (frame wireCodec .idleSample))
      [.arrive 11, .poll, .arrive 4, .poll, .tick (.ok ())]
      { network := [], arrived := [], future := .start, processed := [.idleSample],
        ended := none } :=
    run_of_execGuarded rfl
  refine ⟨_, hrun, rfl, ?_⟩
  exact processed_prefix_of_tickAtBoundary wireCodec WireResponse.isEvent [.idleSample] _ _ _
    rfl hrun

/-- One sample is written and arrives in two parts; a tick between them drops the first one, and the
four zero bytes of the second one are read as the length of a response without a body. -/
theorem processed_not_prefix :
    ¬ ∀ (msgs : List WireResponse) (bytes : List UInt8) (es : List Event)
        (s : MetricsStream WireResponse), writeFrames wireCodec msgs = .ok bytes →
      Run (Fires (step wireCodec WireResponse.isEvent)) (MetricsStream.init bytes) es s →
      s.processed <+: msgs := by
  intro h
  have hrun : Run (Fires (step wireCodec WireResponse.isEvent))
      (MetricsStream.init (frame wireCodec .idleSample))
      [.arrive 11, .poll, .tick (.ok ()), .arrive 4, .poll]
      { network := [], arrived := [], future := .start, processed := [.unset],
        ended := some (.unexpectedResponse "metrics event") } :=
    run_of_exec rfl
  have hprefix := h [.idleSample] _ _ _ rfl hrun
  exact absurd hprefix (by decide)

end MetricsStream

end Rackio
