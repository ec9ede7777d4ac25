import Rackio.Lib.Run
import Rackio.Remote.Error

/-!
# The silence deadline of a monitoring session

The loop of `monitor_session` (`apps/agent/src/remote/monitor.rs`) over time. Each turn makes a new
`timeout(STREAM_SILENCE_TIMEOUT, stream.next())` and races it against the `state_refresh` interval;
when a tick wins, `refresh_remote_state` is awaited and the next turn makes the deadline anew. A
frame is one event here, its bytes are those of `MetricsStream`, and handling it takes no time; time
passes only while no branch of the `select!` is ready.

With a tick every five seconds the deadline of twelve never ends a session (`Timely.silence`). What
is left of the bound on the silence is what the peer does by itself: it is kept exactly when the
frames arrive in time, with no more than the deadline between one and the next outside refreshes
(`silence_bounded_iff`). A stream that stays silent is watched forever (`run_silent`).
-/

namespace Rackio

open Lts

/-- The source's `STREAM_SILENCE_TIMEOUT`. -/
def streamSilenceTimeoutMs : Nat := 12000

/-- The period of the source's `state_refresh` interval. -/
def stateRefreshMs : Nat := 5000

namespace SessionLoop

/-- Where the loop is. -/
inductive Phase
  /-- In the `select!`, whose deadline was made at a time. -/
  | waiting (armedMs : Nat)
  /-- In `refresh_remote_state`. -/
  | refreshing
  /-- `monitor_session` has returned with an error. -/
  | ended (error : RemoteFleetError)
  deriving DecidableEq

/-- What happens to the loop. -/
inductive Event
  | pass (ms : Nat)
  /-- A frame arrives on the stream. -/
  | arrive
  /-- The `stream.next()` branch wins with a frame; only a sample or a heartbeat is expected. -/
  | frame (isMetricsEvent : Bool)
  /-- The `stream.next()` branch wins with an error. -/
  | streamError (error : TransportError)
  /-- The deadline of `stream.next()` is over. -/
  | silence
  /-- The `state_refresh.tick()` branch wins. -/
  | tick
  /-- `refresh_remote_state` returns. -/
  | refreshed (outcome : Except RemoteFleetError Unit)

/-- A refresh that returns was answered. -/
def Event.Answered : Event → Prop
  | .refreshed outcome => outcome = .ok ()
  | _ => True

end SessionLoop

/-- The loop of `monitor_session` and the clock it runs on. -/
structure SessionLoop where
  nowMs : Nat
  phase : SessionLoop.Phase
  /-- The frames that have arrived and were not received. -/
  arrived : Nat
  /-- When the interval ticks next. -/
  nextTickMs : Nat
  /-- When the last frame was received, or the stream was opened. -/
  lastFrameMs : Nat
  /-- The time spent in refreshes since then. -/
  refreshMs : Nat
  deriving DecidableEq

namespace SessionLoop

/-- The loop with a stream that was just opened; the first tick of an interval is immediate and
consumed before the loop. -/
def start (openedMs : Nat) : SessionLoop where
  nowMs := openedMs
  phase := .waiting openedMs
  arrived := 0
  nextTickMs := openedMs + stateRefreshMs
  lastFrameMs := openedMs
  refreshMs := 0

/-- The loop after a frame. -/
def receive (s : SessionLoop) (isMetricsEvent : Bool) : SessionLoop :=
  { s with
    phase := if isMetricsEvent then .waiting s.nowMs
      else .ended (.unexpectedResponse "metrics event")
    arrived := s.arrived - 1
    lastFrameMs := s.nowMs
    refreshMs := 0 }

/-- A step of the loop. -/
def step (s : SessionLoop) (ev : Event) : Option SessionLoop :=
  match s.phase, ev with
  | .ended _, _ => none
  | .waiting armedMs, .pass ms =>
    if s.arrived = 0 ∧ s.nowMs + ms ≤ s.nextTickMs ∧
        s.nowMs + ms ≤ armedMs + streamSilenceTimeoutMs then
      some { s with nowMs := s.nowMs + ms }
    else none
  | .refreshing, .pass ms =>
    some { s with nowMs := s.nowMs + ms, refreshMs := s.refreshMs + ms }
  | _, .arrive => some { s with arrived := s.arrived + 1 }
  | .waiting _, .frame isMetricsEvent =>
    if s.arrived = 0 then none else some (s.receive isMetricsEvent)
  | .waiting _, .streamError error => some { s with phase := .ended (.transport error) }
  | .waiting armedMs, .silence =>
    -- `timeout` polls the stream before its deadline
    if s.arrived = 0 ∧ armedMs + streamSilenceTimeoutMs ≤ s.nowMs then
      some { s with phase := .ended (.timeout "metrics heartbeat") }
    else none
  | .waiting _, .tick =>
    -- a tick that is late does not move the later ones
    if s.nextTickMs ≤ s.nowMs then
      some { s with phase := .refreshing, nextTickMs := s.nextTickMs + stateRefreshMs }
    else none
  | .refreshing, .refreshed (.ok ()) => some { s with phase := .waiting s.nowMs }
  | .refreshing, .refreshed (.error error) => some { s with phase := .ended error }
  | _, _ => none

/-- Since the last frame no more time has passed than the deadline allows, refreshes apart. -/
def Bounded (s : SessionLoop) : Prop :=
  s.nowMs ≤ s.lastFrameMs + streamSilenceTimeoutMs + s.refreshMs

/-! ## The schedule -/

/-- What an event adds to a schedule: whether a refresh is awaited, and the time outside refreshes
since a frame arrived. -/
def scheduleStep : Bool × Nat → Event → Bool × Nat
  | (refreshing, quietMs), .pass ms => (refreshing, if refreshing then quietMs else quietMs + ms)
  | (refreshing, _), .arrive => (refreshing, 0)
  | (_, quietMs), .tick => (true, quietMs)
  | (_, quietMs), .refreshed _ => (false, quietMs)
  | schedule, .frame _ | schedule, .streamError _ | schedule, .silence => schedule

/-- A schedule of arrivals and ticks since the stream was opened. -/
def schedule (es : List Event) : Bool × Nat := es.foldl scheduleStep (false, 0)

/-- The time outside refreshes since the last frame arrived, or since the stream was opened. -/
def quietMs (es : List Event) : Nat := (schedule es).2

/-- Never does more than the deadline pass outside refreshes before the next frame arrives. -/
def InTime (es : List Event) : Prop := ∀ es', es' <+: es → quietMs es' ≤ streamSilenceTimeoutMs

theorem schedule_concat (es : List Event) (ev : Event) :
    schedule (es ++ [ev]) = scheduleStep (schedule es) ev := by
  rw [schedule, List.foldl_append]
  rfl

/-! ## What a step does -/

variable {s t : SessionLoop} {ev : Event} {es : List Event}

/-- Everything a step can do. -/
inductive Moves (s : SessionLoop) : Event → SessionLoop → Prop
  | waited {armedMs ms : Nat} (hphase : s.phase = .waiting armedMs) (harrived : s.arrived = 0)
      (htick : s.nowMs + ms ≤ s.nextTickMs)
      (hdeadline : s.nowMs + ms ≤ armedMs + streamSilenceTimeoutMs) :
      Moves s (.pass ms) { s with nowMs := s.nowMs + ms }
  | awaited {ms : Nat} (hphase : s.phase = .refreshing) :
      Moves s (.pass ms) { s with nowMs := s.nowMs + ms, refreshMs := s.refreshMs + ms }
  | arrived (hopen : ∀ error, s.phase ≠ .ended error) :
      Moves s .arrive { s with arrived := s.arrived + 1 }
  | received {armedMs : Nat} {isMetricsEvent : Bool} (hphase : s.phase = .waiting armedMs)
      (harrived : 0 < s.arrived) : Moves s (.frame isMetricsEvent) (s.receive isMetricsEvent)
  | failed {armedMs : Nat} {error : TransportError} (hphase : s.phase = .waiting armedMs) :
      Moves s (.streamError error) { s with phase := .ended (.transport error) }
  | timedOut {armedMs : Nat} (hphase : s.phase = .waiting armedMs)
      (hover : armedMs + streamSilenceTimeoutMs ≤ s.nowMs) :
      Moves s .silence { s with phase := .ended (.timeout "metrics heartbeat") }
  | ticked {armedMs : Nat} (hphase : s.phase = .waiting armedMs) (hlate : s.nextTickMs ≤ s.nowMs) :
      Moves s .tick
        { s with phase := .refreshing, nextTickMs := s.nextTickMs + stateRefreshMs }
  | answered (hphase : s.phase = .refreshing) :
      Moves s (.refreshed (.ok ())) { s with phase := .waiting s.nowMs }
  | unanswered {error : RemoteFleetError} (hphase : s.phase = .refreshing) :
      Moves s (.refreshed (.error error)) { s with phase := .ended error }

/-- A step does one of these. -/
theorem moves_of_step (h : Fires step s ev t) : Moves s ev t := by
  obtain ⟨nowMs, phase, waiting, nextTickMs, lastFrameMs, refreshMs⟩ := s
  cases phase with
  | waiting armedMs =>
    cases ev with
    | pass ms =>
      simp only [Fires, step, Option.ite_none_right_eq_some] at h
      obtain ⟨⟨harrived, htick, hdeadline⟩, h⟩ := h
      exact Option.some.inj h ▸ .waited rfl harrived htick hdeadline
    | arrive =>
      simp only [Fires, step] at h
      exact Option.some.inj h ▸ .arrived fun _ hended => by cases hended
    | frame isMetricsEvent =>
      simp only [Fires, step, Option.ite_none_left_eq_some] at h
      exact Option.some.inj h.2 ▸ .received rfl (Nat.pos_of_ne_zero h.1)
    | streamError error =>
      simp only [Fires, step] at h
      exact Option.some.inj h ▸ .failed rfl
    | silence =>
      simp only [Fires, step, Option.ite_none_right_eq_some] at h
      exact Option.some.inj h.2 ▸ .timedOut rfl h.1.2
    | tick =>
      simp only [Fires, step, Option.ite_none_right_eq_some] at h
      exact Option.some.inj h.2 ▸ .ticked rfl h.1
    | refreshed outcome => simp [Fires, step] at h
  | refreshing =>
    cases ev with
    | pass ms =>
      simp only [Fires, step] at h
      exact Option.some.inj h ▸ .awaited rfl
    | arrive =>
      simp only [Fires, step] at h
      exact Option.some.inj h ▸ .arrived fun _ hended => by cases hended
    | refreshed outcome =>
      cases outcome with
      | ok =>
        simp only [Fires, step] at h
        exact Option.some.inj h ▸ .answered rfl
      | error error =>
        simp only [Fires, step] at h
        exact Option.some.inj h ▸ .unanswered rfl
    | _ => simp [Fires, step] at h
  | ended error => simp [Fires, step] at h

/-! ## The deadline is never over -/

/-- The next tick always comes before the deadline. -/
inductive Timely (s : SessionLoop) : Prop
  | waiting {armedMs : Nat} (hphase : s.phase = .waiting armedMs) (hpast : armedMs ≤ s.nowMs)
      (hnow : s.nowMs ≤ armedMs + stateRefreshMs) (hnext : s.nextTickMs ≤ armedMs + stateRefreshMs)
  | refreshing (hphase : s.phase = .refreshing) (hnext : s.nextTickMs ≤ s.nowMs + stateRefreshMs)
  | ended {error : RemoteFleetError} (hphase : s.phase = .ended error)
      (herror : error ≠ .timeout "metrics heartbeat")

/-- A loop with a stream that was just opened. -/
theorem timely_start (openedMs : Nat) : Timely (start openedMs) :=
  .waiting rfl le_rfl (Nat.le_add_right _ _) le_rfl

/-- In the `select!` the deadline is ahead. -/
theorem Timely.of_waiting {armedMs : Nat} (h : Timely s) (hphase : s.phase = .waiting armedMs) :
    armedMs ≤ s.nowMs ∧ s.nowMs ≤ armedMs + stateRefreshMs ∧
      s.nextTickMs ≤ armedMs + stateRefreshMs := by
  cases h with
  | waiting hphase' hpast hnow hnext =>
    cases hphase.symm.trans hphase'
    exact ⟨hpast, hnow, hnext⟩
  | refreshing hphase' => cases hphase.symm.trans hphase'
  | ended hphase' => cases hphase.symm.trans hphase'

/-- In a refresh the next tick is no more than a period ahead. -/
theorem Timely.of_refreshing (h : Timely s) (hphase : s.phase = .refreshing) :
    s.nextTickMs ≤ s.nowMs + stateRefreshMs := by
  cases h with
  | waiting hphase' => cases hphase.symm.trans hphase'
  | refreshing _ hnext => exact hnext
  | ended hphase' => cases hphase.symm.trans hphase'

/-- The deadline is never over. -/
theorem Timely.silence {armedMs : Nat} (h : Timely s) (hphase : s.phase = .waiting armedMs) :
    s.nowMs < armedMs + streamSilenceTimeoutMs := by
  obtain ⟨-, hnow, -⟩ := h.of_waiting hphase
  simp only [streamSilenceTimeoutMs, stateRefreshMs] at *
  omega

/-- A step with an answered refresh keeps the tick before the deadline. -/
theorem Timely.step (h : Timely s) (hanswered : ev.Answered) (hstep : Fires step s ev t) :
    Timely t := by
  cases moves_of_step hstep with
  | waited hphase harrived htick hdeadline =>
    obtain ⟨hpast, hnow, hnext⟩ := h.of_waiting hphase
    exact .waiting hphase (hpast.trans (Nat.le_add_right _ _)) (htick.trans hnext) hnext
  | awaited hphase =>
    refine .refreshing hphase ((h.of_refreshing hphase).trans (Nat.add_le_add_right ?_ _))
    exact Nat.le_add_right _ _
  | arrived hopen =>
    cases h with
    | waiting hphase hpast hnow hnext => exact .waiting hphase hpast hnow hnext
    | refreshing hphase hnext => exact .refreshing hphase hnext
    | ended hphase => exact absurd hphase (hopen _)
  | @received armedMs isMetricsEvent hphase harrived =>
    obtain ⟨hpast, hnow, hnext⟩ := h.of_waiting hphase
    cases isMetricsEvent with
    | true =>
      exact .waiting rfl le_rfl (Nat.le_add_right _ _) (hnext.trans (Nat.add_le_add_right hpast _))
    | false => exact .ended rfl (by simp)
  | failed => exact .ended rfl (by simp)
  | timedOut hphase hover => exact absurd hover (Nat.not_le.2 (h.silence hphase))
  | ticked hphase hlate => exact .refreshing rfl (Nat.add_le_add_right hlate _)
  | answered hphase =>
    exact .waiting rfl le_rfl (Nat.le_add_right _ _) (h.of_refreshing hphase)
  | unanswered => cases hanswered

/-- In a run whose refreshes are answered the tick always comes before the deadline. -/
theorem timely_of_run {openedMs : Nat} (hrun : Run (Fires step) (start openedMs) es s)
    (hanswered : ∀ ev ∈ es, ev.Answered) : Timely s :=
  (hrun.guard (G := fun _ ev => ev.Answered) fun ev hev _ => hanswered ev hev).invariant
    (timely_start openedMs) fun _ _ _ h hr => h.step hr.1 hr.2

/-! ## The bound and the schedule -/

/-- The loop keeps to its schedule. It receives the frames that are there before it waits on, so
that what it has waited since the last one is the quiet time of the schedule, now or, with a frame
there, before that frame arrived. -/
structure Tracks (es : List Event) (s : SessionLoop) : Prop where
  refreshing : (schedule es).1 = true ↔ s.phase = .refreshing
  waited : ∃ es', es' <+: es ∧ s.nowMs = s.lastFrameMs + s.refreshMs + quietMs es'
  received : s.arrived = 0 → s.nowMs = s.lastFrameMs + s.refreshMs + quietMs es
  arrived : 0 < s.arrived → quietMs es = 0

/-- A stream that was just opened. -/
theorem tracks_start (openedMs : Nat) : Tracks [] (start openedMs) where
  refreshing := by simp [schedule, start]
  waited := ⟨[], List.prefix_rfl, rfl⟩
  received _ := rfl
  arrived h := absurd h (lt_irrefl 0)

/-- An event that leaves the clocks and the arrivals of the loop and of the schedule as they are. -/
theorem Tracks.same (h : Tracks es s) (hquiet : quietMs (es ++ [ev]) = quietMs es)
    (hrefreshing : (schedule (es ++ [ev])).1 = true ↔ t.phase = .refreshing)
    (hnow : t.nowMs = s.nowMs) (hframe : t.lastFrameMs = s.lastFrameMs)
    (hrefresh : t.refreshMs = s.refreshMs) (harrived : t.arrived = s.arrived) :
    Tracks (es ++ [ev]) t where
  refreshing := hrefreshing
  waited := by
    obtain ⟨es', hpre, hwaited⟩ := h.waited
    exact ⟨es', hpre.trans (List.prefix_append _ _), by rw [hnow, hframe, hrefresh, hwaited]⟩
  received h0 := by rw [hnow, hframe, hrefresh, hquiet, h.received (harrived ▸ h0)]
  arrived hpos := by rw [hquiet, h.arrived (harrived ▸ hpos)]

/-- A step keeps the loop to its schedule. -/
theorem Tracks.step (h : Tracks es s) (hstep : Fires step s ev t) : Tracks (es ++ [ev]) t := by
  have hrefreshing := h.refreshing
  have hquiet : quietMs (es ++ [ev]) = (scheduleStep (schedule es) ev).2 := by
    rw [quietMs, schedule_concat]
  have hflag : (schedule (es ++ [ev])).1 = (scheduleStep (schedule es) ev).1 := by
    rw [schedule_concat]
  cases moves_of_step hstep with
  | @waited armedMs ms hphase harrived htick hdeadline =>
    have hout : (schedule es).1 = false := by simpa [hphase] using hrefreshing
    have hnow : s.nowMs + ms = s.lastFrameMs + s.refreshMs + quietMs (es ++ [.pass ms]) := by
      rw [hquiet, scheduleStep, hout, h.received harrived, Nat.add_assoc]
      rfl
    exact ⟨by rw [hflag]; exact hrefreshing, ⟨_, List.prefix_rfl, hnow⟩, fun _ => hnow,
      fun hpos => absurd harrived hpos.ne'⟩
  | @awaited ms hphase =>
    have hin : (schedule es).1 = true := hrefreshing.2 hphase
    have hsame : quietMs (es ++ [.pass ms]) = quietMs es := by
      rw [hquiet, scheduleStep, hin]
      rfl
    obtain ⟨es', hpre, hwaited⟩ := h.waited
    refine ⟨by rw [hflag]; exact hrefreshing, ⟨es', hpre.trans (List.prefix_append _ _), ?_⟩,
      fun h0 => ?_, fun hpos => hsame.trans (h.arrived hpos)⟩
    · show s.nowMs + ms = s.lastFrameMs + (s.refreshMs + ms) + quietMs es'
      omega
    · have := h.received h0
      show s.nowMs + ms = s.lastFrameMs + (s.refreshMs + ms) + quietMs (es ++ [.pass ms])
      omega
  | arrived hopen =>
    obtain ⟨es', hpre, hwaited⟩ := h.waited
    exact ⟨by rw [hflag]; exact hrefreshing, ⟨es', hpre.trans (List.prefix_append _ _), hwaited⟩,
      nofun, fun _ => hquiet⟩
  | @received armedMs isMetricsEvent hphase harrived =>
    have hzero : quietMs (es ++ [.frame isMetricsEvent]) = 0 := hquiet.trans (h.arrived harrived)
    refine ⟨?_, ⟨[], List.nil_prefix, rfl⟩, fun _ => by rw [hzero]; rfl, fun _ => hzero⟩
    have hout : (schedule es).1 = false := by simpa [hphase] using hrefreshing
    rw [hflag, scheduleStep, hout]
    cases isMetricsEvent <;> simp [receive]
  | failed hphase =>
    have hout : (schedule es).1 = false := by simpa [hphase] using hrefreshing
    exact h.same hquiet (by simp [hflag, scheduleStep, hout]) rfl rfl rfl rfl
  | timedOut hphase =>
    have hout : (schedule es).1 = false := by simpa [hphase] using hrefreshing
    exact h.same hquiet (by simp [hflag, scheduleStep, hout]) rfl rfl rfl rfl
  | ticked => exact h.same hquiet (by simp [hflag, scheduleStep]) rfl rfl rfl rfl
  | answered => exact h.same hquiet (by simp [hflag, scheduleStep]) rfl rfl rfl rfl
  | unanswered => exact h.same hquiet (by simp [hflag, scheduleStep]) rfl rfl rfl rfl

/-- In every run the loop keeps to its schedule. -/
theorem tracks_of_run {openedMs : Nat} (hrun : Run (Fires step) (start openedMs) es s) :
    Tracks es s :=
  hrun.history (tracks_start openedMs) fun _ _ _ _ _ h hstep => h.step hstep

/-- In a run whose refreshes are answered, a silent stream never ends the session; no more time
passes since a frame than the deadline allows, refreshes apart, if and only if the frames arrive in
time. -/
theorem silence_bounded_iff (openedMs : Nat) (hrun : Run (Fires step) (start openedMs) es s)
    (hanswered : ∀ ev ∈ es, ev.Answered) :
    s.phase ≠ .ended (.timeout "metrics heartbeat") ∧
      ((∀ es' s', es' <+: es → Run (Fires step) (start openedMs) es' s' → Bounded s') ↔
        InTime es) := by
  constructor
  · cases timely_of_run hrun hanswered with
    | waiting hphase => simp [hphase]
    | refreshing hphase => simp [hphase]
    | ended hphase herror => simp [hphase, herror]
  constructor
  · intro hbounded es' hpre
    obtain ⟨es'', rfl⟩ := hpre
    obtain ⟨s', hrun', -⟩ := run_append_iff.1 hrun
    have htracks := tracks_of_run hrun'
    rcases Nat.eq_zero_or_pos s'.arrived with hnone | hsome
    · have hnow := htracks.received hnone
      have hbound : s'.nowMs ≤ s'.lastFrameMs + streamSilenceTimeoutMs + s'.refreshMs :=
        hbounded es' s' (List.prefix_append _ _) hrun'
      omega
    · rw [htracks.arrived hsome]
      exact Nat.zero_le _
  · intro hin es' s' hpre hrun'
    obtain ⟨es'', hpre', hwaited⟩ := (tracks_of_run hrun').waited
    have hquiet := hin es'' (hpre'.trans hpre)
    show s'.nowMs ≤ s'.lastFrameMs + streamSilenceTimeoutMs + s'.refreshMs
    omega

/-- A heartbeat, a refresh and the next heartbeat. -/
def heartbeatEvents : List Event :=
  [.pass 2000, .arrive, .frame true, .pass 3000, .tick, .refreshed (.ok ()), .pass 4000, .arrive,
    .frame true]

/-- The loop after the second heartbeat. -/
def heartbeatLoop : SessionLoop where
  nowMs := 9000
  phase := .waiting 9000
  arrived := 0
  nextTickMs := 10000
  lastFrameMs := 9000
  refreshMs := 0

/-- The bound holds all along such a session. -/
theorem silence_bounded_heartbeats :
    Run (Fires step) (start 0) heartbeatEvents heartbeatLoop ∧ InTime heartbeatEvents ∧
      ∀ es' s', es' <+: heartbeatEvents → Run (Fires step) (start 0) es' s' → Bounded s' := by
  have hrun : Run (Fires step) (start 0) heartbeatEvents heartbeatLoop := run_of_exec (by decide)
  have hanswered : ∀ ev ∈ heartbeatEvents, ev.Answered := by
    simp [heartbeatEvents, Event.Answered]
  have hin : InTime heartbeatEvents := by
    intro es' hpre
    rw [← List.mem_inits] at hpre
    revert es'
    decide
  exact ⟨hrun, hin, (silence_bounded_iff 0 hrun hanswered).2.2 hin⟩

/-! ## A stream that stays silent -/

/-- Five seconds of a stream that is silent: the tick wins, and its refresh is answered at once. -/
def silentPeriod : List Event := [.pass stateRefreshMs, .tick, .refreshed (.ok ())]

/-- The loop after a number of silent periods. -/
def silentLoop (openedMs n : Nat) : SessionLoop where
  nowMs := openedMs + n * stateRefreshMs
  phase := .waiting (openedMs + n * stateRefreshMs)
  arrived := 0
  nextTickMs := openedMs + n * stateRefreshMs + stateRefreshMs
  lastFrameMs := openedMs
  refreshMs := 0

/-- A silent period leads to the next one. -/
theorem run_silentPeriod (openedMs n : Nat) :
    Run (Fires step) (silentLoop openedMs n) silentPeriod (silentLoop openedMs (n + 1)) := by
  refine run_of_exec ?_
  simp [silentPeriod, silentLoop, step, streamSilenceTimeoutMs, stateRefreshMs, Nat.add_mul,
    Nat.add_assoc]

/-- A silent stream is watched for any time. -/
theorem run_silent (openedMs n : Nat) :
    Run (Fires step) (start openedMs) (List.replicate n silentPeriod).flatten
      (silentLoop openedMs n) := by
  induction n with
  | zero =>
    have hstart : silentLoop openedMs 0 = start openedMs := by simp [silentLoop, start]
    exact hstart ▸ .nil
  | succ n ih =>
    rw [List.replicate_succ', List.flatten_append, run_append_iff]
    refine ⟨_, ih, ?_⟩
    rw [List.flatten_singleton]
    exact run_silentPeriod openedMs n

/-- Three silent periods are more than the deadline allows. -/
theorem silence_not_bounded :
    ¬ ∀ openedMs es s, Run (Fires step) (start openedMs) es s → (∀ ev ∈ es, ev.Answered) →
      Bounded s := by
  intro h
  have hbounded := h 0 _ _ (run_silent 0 3) (by simp [silentPeriod, Event.Answered])
  simp [Bounded, silentLoop, stateRefreshMs, streamSilenceTimeoutMs] at hbounded

end SessionLoop

end Rackio
