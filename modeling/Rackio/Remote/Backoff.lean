import Rackio.Remote.Silence

/-!
# The backoff of the monitor

The delays `monitor_machine` (`apps/agent/src/remote/monitor.rs`) sleeps between its sessions, from
how long each phase of a session takes and whether it succeeds. The phases are those of
`connect_record` (`client.rs`) and `monitor_session` in their order: every exchange with the machine
has a timeout of its own, while a lock or a write to disk is waited for as long as it takes. A
session always ends with an error, so that every turn of the loop sleeps.

The loop starts over from the first delay when twelve seconds have passed since the session began,
because such a session "was genuinely established". The timeouts of the connection and of one
request already add up to more, so a machine that never opens a stream may be tried every second.
The delays are those of a backoff that only an established session resets if and only if no session
after the first is that long without being established (`monitorMachine_backsOff_iff`).
-/

namespace Rackio

/-- The source's `Duration::from_secs`, in nanoseconds. -/
def Duration.fromSecs (secs : Nat) : Nat := secs * 1000000000

/-- The source's `Duration::saturating_mul`; the longest duration has `u64::MAX` seconds and a
nanosecond less than another. -/
def Duration.saturatingMul (d n : Nat) : Nat :=
  min (d * n) (Duration.fromSecs (2 ^ 64) - 1)

/-- The source's `CONNECT_TIMEOUT`. -/
def connectTimeout : Nat := Duration.fromSecs 10

/-- The source's `REQUEST_TIMEOUT`. -/
def requestTimeout : Nat := Duration.fromSecs 8

/-- The source's `STREAM_SILENCE_TIMEOUT`, in nanoseconds. -/
def streamSilenceTimeout : Nat := streamSilenceTimeoutMs * 1000000

/-- The source's `INITIAL_RECONNECT_DELAY`. -/
def initialReconnectDelay : Nat := Duration.fromSecs 1

/-- The source's `MAX_RECONNECT_DELAY`. -/
def maxReconnectDelay : Nat := Duration.fromSecs 30

namespace Backoff

open Duration

/-- What is awaited: after how long it is ready, and whether it then succeeds. -/
structure Wait where
  after : Nat
  ok : Bool
  deriving DecidableEq

/-- The source's `tokio::time::timeout`: how long it waits, and whether what is awaited succeeds
in time. -/
def Wait.timeout (limit : Nat) (w : Wait) : Wait :=
  if w.after ≤ limit then w else ⟨limit, false⟩

/-- A lock or a write to disk, whose failure does not end a session. -/
def Wait.local (d : Nat) : Wait := ⟨d, true⟩

/-- Phases awaited one after another, up to the first that fails. -/
def inTurn : List Wait → Wait
  | [] => ⟨0, true⟩
  | w :: rest =>
    if w.ok then ⟨w.after + (inTurn rest).after, (inTurn rest).ok⟩ else w

/-- What a session of `monitor_session` awaits. -/
structure Session where
  /-- The address of the record, `ClientConnection::connect` and the check of its endpoint. -/
  connect : Wait
  /-- The `get_node_info` of `connect_record` and the check of its node. -/
  identify : Wait
  refreshAddresses : Nat
  node : Wait
  health : Wait
  path : Wait
  /-- The lock of the snapshots. -/
  entries : Nat
  /-- The request that opens the metrics stream. -/
  stream : Wait
  /-- How long the stream is then watched. -/
  watched : Nat
  /-- How long the `update_error` after it takes. -/
  updateError : Nat
  deriving DecidableEq

namespace Session

/-- The phases of a session up to its metrics stream. -/
def setUp (s : Session) : Wait :=
  inTurn [s.connect.timeout connectTimeout, s.identify.timeout requestTimeout,
    .local s.refreshAddresses, s.node.timeout requestTimeout, s.health.timeout requestTimeout,
    s.path.timeout requestTimeout, .local s.entries, s.stream.timeout requestTimeout]

/-- The session has opened its metrics stream. -/
def Opened (s : Session) : Prop := s.setUp.ok = true

instance (s : Session) : Decidable s.Opened := inferInstanceAs (Decidable (_ = true))

/-- How long the session lasted. -/
def lasted (s : Session) : Nat :=
  s.setUp.after + if s.Opened then s.watched else 0

/-- The source's `started.elapsed()`, after the error of the session is recorded. -/
def elapsed (s : Session) : Nat := s.lasted + s.updateError

/-- The session has opened its metrics stream and outlived the stream-silence timeout. -/
def Established (s : Session) : Prop := s.Opened ∧ streamSilenceTimeout ≤ s.lasted

instance (s : Session) : Decidable s.Established :=
  inferInstanceAs (Decidable (_ ∧ _))

end Session

/-- A turn of the loop of `monitor_machine` after its session has ended: the delay it sleeps and the
`retry_delay` of the next turn. -/
def turn (retryDelay : Nat) (s : Session) : Nat × Nat :=
  let retryDelay := if streamSilenceTimeout ≤ s.elapsed then initialReconnectDelay else retryDelay
  (retryDelay, min (Duration.saturatingMul retryDelay 2) maxReconnectDelay)

/-- The delays slept by the loop, over the sessions of its turns. -/
def loop (retryDelay : Nat) : List Session → List Nat
  | [] => []
  | s :: rest => (turn retryDelay s).1 :: loop (turn retryDelay s).2 rest

/-- The delays the source's `monitor_machine` sleeps. -/
def monitorMachine (sessions : List Session) : List Nat :=
  loop initialReconnectDelay sessions

/-! ## A backoff that an established session resets -/

/-- The delay after a session, the previous delay being given. -/
def delayAfter (previous : Option Nat) (s : Session) : Nat :=
  if s.Established then fromSecs 1
  else match previous with
    | none => fromSecs 1
    | some d => min (fromSecs 30) (2 * d)

/-- The delays after the sessions of a run. -/
def delays (previous : Option Nat) : List Session → List Nat
  | [] => []
  | s :: rest => delayAfter previous s :: delays (some (delayAfter previous s)) rest

/-- The delay after so many doublings of a second: 1, 2, 4, 8, 16, 30, 30, … seconds. -/
def doubled (i : Nat) : Nat := min (fromSecs 30) (fromSecs (2 ^ i))

/-- The backoff of a machine over its sessions. -/
def BacksOff (sessions : List Session) (slept : List Nat) : Prop :=
  slept = delays none sessions ∧
    ((∀ s ∈ sessions, ¬ s.Opened) → slept = (List.range sessions.length).map doubled)

section
variable {s : Session} {d : Nat} {sessions : List Session}

/-- The session reaches twelve seconds only when it is established. -/
def Session.Sound (s : Session) : Prop := streamSilenceTimeout ≤ s.elapsed → s.Established

instance (s : Session) : Decidable s.Sound := inferInstanceAs (Decidable (_ → _))

/-- Twelve seconds have passed when an established session is over. -/
theorem Session.Established.le_elapsed (h : s.Established) : streamSilenceTimeout ≤ s.elapsed :=
  h.2.trans (Nat.le_add_right _ _)

/-- The next delay is twice the last one, and at most thirty seconds. -/
theorem turn_snd : (turn d s).2 = min (fromSecs 30) (2 * (turn d s).1) := by
  have hle : fromSecs 30 ≤ fromSecs (2 ^ 64) - 1 := by decide
  simp only [turn, Duration.saturatingMul, maxReconnectDelay]
  omega

/-- A turn sleeps the delay of the backoff if and only if its session is sound, where the backoff
would not sleep a second anyhow. -/
theorem turn_fst_eq_iff {previous : Nat} (hprevious : fromSecs 1 ≤ previous)
    (hd : d = min (fromSecs 30) (2 * previous)) :
    (turn d s).1 = delayAfter (some previous) s ↔ s.Sound := by
  simp only [fromSecs] at hprevious hd
  unfold turn delayAfter initialReconnectDelay Session.Sound
  by_cases hest : s.Established
  · simp [hest, hest.le_elapsed]
  · by_cases helapsed : streamSilenceTimeout ≤ s.elapsed
    · simp only [hest, helapsed, if_true, if_false, fromSecs, true_imp_iff, iff_false]
      omega
    · simp [hest, helapsed, hd, fromSecs]

/-- Every delay of the backoff is a second or more. -/
theorem le_delayAfter {previous : Nat} (hprevious : fromSecs 1 ≤ previous) :
    fromSecs 1 ≤ delayAfter (some previous) s := by
  unfold delayAfter
  split
  · exact Nat.le_refl _
  · simp only [fromSecs] at hprevious ⊢
    omega

/-- From a previous delay on, the loop sleeps the delays of the backoff if and only if its sessions
are sound. -/
theorem loop_eq_iff {previous : Nat} (hprevious : fromSecs 1 ≤ previous)
    (hd : d = min (fromSecs 30) (2 * previous)) :
    loop d sessions = delays (some previous) sessions ↔ ∀ s ∈ sessions, s.Sound := by
  induction sessions generalizing d previous with
  | nil => simp [loop, delays]
  | cons s rest ih =>
    simp only [loop, delays, List.cons.injEq, turn_fst_eq_iff hprevious hd, List.forall_mem_cons]
    refine and_congr_right fun hsound => ?_
    have hsame : (turn d s).1 = delayAfter (some previous) s :=
      (turn_fst_eq_iff hprevious hd).2 hsound
    exact ih (le_delayAfter hprevious) (hsame ▸ turn_snd)

/-- The loop sleeps the delays of the backoff if and only if all sessions after the first are
sound. -/
theorem monitorMachine_eq_iff :
    monitorMachine sessions = delays none sessions ↔ ∀ s ∈ sessions.tail, s.Sound := by
  cases sessions with
  | nil => simp [monitorMachine, loop, delays]
  | cons s rest =>
    have hfirst : (turn initialReconnectDelay s).1 = fromSecs 1 := ite_self _
    have hdelay : delayAfter none s = fromSecs 1 := ite_self _
    simp only [monitorMachine, loop, delays, hfirst, hdelay, true_and, List.cons.injEq,
      List.tail_cons]
    exact loop_eq_iff (Nat.le_refl _) (hfirst ▸ turn_snd)

/-- A session that opens no stream doubles the delay up to thirty seconds. -/
theorem delayAfter_doubled (h : ¬ s.Opened) (i : Nat) :
    delayAfter (some (doubled i)) s = doubled (i + 1) := by
  have hest : ¬ s.Established := fun hest => h hest.1
  simp only [delayAfter, hest, if_false, doubled, fromSecs, Nat.pow_succ]
  omega

/-- The first of a row of doublings, and the others. -/
theorem map_range_succ_doubled (i n : Nat) :
    ((List.range (n + 1)).map fun j => doubled (i + j)) =
      doubled i :: (List.range n).map fun j => doubled (i + 1 + j) := by
  have hshift : ∀ j, i + (j + 1) = i + 1 + j := fun j => by omega
  rw [List.range_succ_eq_map, List.map_cons, List.map_map, Nat.add_zero]
  refine List.cons_eq_cons.2 ⟨rfl, List.map_congr_left fun j _ => ?_⟩
  rw [Function.comp_apply, Nat.succ_eq_add_one, hshift]

/-- Sessions that open no stream double the delay one after another. -/
theorem delays_of_not_opened (h : ∀ s ∈ sessions, ¬ s.Opened) (i : Nat) :
    delays (some (doubled i)) sessions =
      (List.range sessions.length).map fun j => doubled (i + 1 + j) := by
  induction sessions generalizing i with
  | nil => rfl
  | cons s rest ih =>
    obtain ⟨hs, hrest⟩ := List.forall_mem_cons.1 h
    rw [delays, delayAfter_doubled hs, ih hrest, List.length_cons, map_range_succ_doubled]

/-- The backoff of a machine that is never reached. -/
theorem delays_eq_doubled (h : ∀ s ∈ sessions, ¬ s.Opened) :
    delays none sessions = (List.range sessions.length).map doubled := by
  cases sessions with
  | nil => rfl
  | cons s rest =>
    have hrest : ∀ s ∈ rest, ¬ s.Opened := (List.forall_mem_cons.1 h).2
    have hsecond : fromSecs 1 = doubled 0 := by decide
    have hdelay : delayAfter none s = doubled 0 := (ite_self _).trans hsecond
    have hzero : doubled = fun j => doubled (0 + j) := funext fun j => by rw [Nat.zero_add]
    rw [delays, hdelay, delays_of_not_opened hrest, List.length_cons, ← map_range_succ_doubled,
      ← hzero]

end

/-- The monitor backs off as it should in a run if and only if every session after the first that
takes twelve seconds is an established one. -/
theorem monitorMachine_backsOff_iff (sessions : List Session) :
    BacksOff sessions (monitorMachine sessions) ↔
      ∀ s ∈ sessions.tail, streamSilenceTimeout ≤ s.elapsed → s.Established := by
  have hiff : monitorMachine sessions = delays none sessions ↔ ∀ s ∈ sessions.tail, s.Sound :=
    monitorMachine_eq_iff
  refine ⟨fun h => hiff.1 h.1, fun h => ⟨hiff.2 h, fun hunopened => ?_⟩⟩
  exact (hiff.2 h).trans (delays_eq_doubled hunopened)

/-- A machine that accepts a connection after five seconds and answers nothing on it. -/
def mute : Session where
  connect := ⟨fromSecs 5, true⟩
  identify := ⟨fromSecs 3600, true⟩
  refreshAddresses := 0
  node := ⟨0, true⟩
  health := ⟨0, true⟩
  path := ⟨0, true⟩
  entries := 0
  stream := ⟨0, true⟩
  watched := 0
  updateError := 0

/-- It is tried again every second. -/
theorem monitorMachine_mute :
    ¬ mute.Opened ∧
      monitorMachine [mute, mute, mute] = [fromSecs 1, fromSecs 1, fromSecs 1] ∧
      delays none [mute, mute, mute] = [fromSecs 1, fromSecs 2, fromSecs 4] ∧
      ¬ BacksOff [mute, mute, mute] (monitorMachine [mute, mute, mute]) := by
  refine ⟨by decide, by decide, by decide, fun h => ?_⟩
  exact absurd h.1 (by decide)

end Backoff

end Rackio
