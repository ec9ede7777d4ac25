import Rackio.Remote.AddressRefresh
import Rackio.Remote.Agreement
import Rackio.Remote.Backoff

/-!
# The cadence of durable writes

A monitor (`apps/agent/src/remote/monitor.rs`) on the viewer's monotonic clock, with
`last_persisted` and a log of what it does to the registry file. A sample is decided on when it is
received and recorded when the lock of the snapshots is free; other tasks and the clock go on in
between, and the task may be aborted there. Sessions begin and end as the peer likes, and
`last_persisted` outlives them.

However the peer behaves, two stamps of `last_persisted` are ten seconds apart, every call of
`update_snapshot` has a stamp of its own, and a session calls `update_addresses` once at most
(`persist_cadence`).
-/

namespace Rackio

open Lts

/-- The source's `SNAPSHOT_PERSIST_INTERVAL`, in nanoseconds. -/
def snapshotPersistInterval : Nat := Duration.fromSecs 10

/-- What a monitor does to the registry file. -/
inductive Durable
  /-- It sets `last_persisted` to an instant. -/
  | stamp (instant : Nat)
  | updateSnapshot
  /-- It calls `update_addresses`, in a turn of its loop. -/
  | updateAddresses (turn : Nat)
  deriving DecidableEq

/-- A monitor on the clock of its viewer. -/
structure TimedMonitor where
  view : Monitor.View
  /-- The monotonic clock, in nanoseconds. -/
  now : Nat
  lastPersisted : Option Nat
  /-- A sample that waits for the lock of the snapshots, with its `should_persist`. -/
  received : Option (MetricSample × Bool)
  /-- How often the loop of `monitor_machine` has turned. -/
  turns : Nat
  log : List Durable

namespace TimedMonitor

open Monitor (View Event)

/-- What happens to a monitor on a clock. -/
inductive Act
  | pass (ns : Nat)
  /-- Other tasks write to the registry and the snapshots. -/
  | others
  /-- The handle of the task is aborted. -/
  | abort
  | receive (sample : MetricSample)
  | own (e : Event)

/-- A monitor that was spawned. -/
def start (record : RemoteMachineRecord) (registry : RemoteMachineRegistry)
    (snapshots : Table String RemoteMachineSnapshot) (now : Nat) : TimedMonitor where
  view := ⟨registry, snapshots, record, .checking, false⟩
  now := now
  lastPersisted := none
  received := none
  turns := 0
  log := []

/-- The source's `should_persist`, where `elapsed` is the time since an instant that is past. -/
def shouldPersist (t : TimedMonitor) : Bool :=
  t.lastPersisted.all fun last => snapshotPersistInterval ≤ t.now - last

/-- The sample a step of the monitor records. -/
def recorded : Event → Option (MetricSample × Bool)
  | .sample sample shouldPersist _ => some (sample, shouldPersist)
  | _ => none

/-- `last_persisted` after a step of the monitor. -/
def persistedAfter (t : TimedMonitor) : Event → Option Nat
  | .sample _ true _ => some t.now
  | _ => t.lastPersisted

/-- The turn of the loop after a step of the monitor. -/
def turned (t : TimedMonitor) : Event → Nat
  | .check => t.turns + 1
  | _ => t.turns

/-- What a step of the monitor does to the registry file. -/
def durable (t : TimedMonitor) : Event → List Durable
  | .sample _ true _ => [.stamp t.now]
  | .persist _ => [.updateSnapshot]
  | .connect observed _ =>
    (addressWrite observed t.view.task.record).toList.map fun _ => .updateAddresses t.turns
  | _ => []

/-- The steps of a monitor on a clock. While a sample waits for the lock, the monitor does nothing
but record it. -/
inductive Step (t : TimedMonitor) : Act → TimedMonitor → Prop
  | pass (ns : Nat) : Step t (.pass ns) { t with now := t.now + ns }
  | others {view : View} (hothers : Monitor.Among t.view none view) :
      Step t .others { t with view }
  | abort (hawaits : ∀ snapshot, t.view.task.phase ≠ .persisting snapshot) :
      Step t .abort
        { t with
          view := { t.view with task := { t.view.task with phase := .stopped } }
          received := none }
  | receive (sample : MetricSample) (hphase : t.view.task.phase = .streaming)
      (hnone : t.received = none) :
      Step t (.receive sample) { t with received := some (sample, t.shouldPersist) }
  | own {e : Event} {view : View} (hreceived : t.received = recorded e)
      (hstep : Monitor.Step t.view e view) :
      Step t (.own e)
        { t with
          view
          lastPersisted := t.persistedAfter e
          received := none
          turns := t.turned e
          log := t.log ++ t.durable e }

/-- The instants a log stamps. -/
def stamps (log : List Durable) : List Nat :=
  log.filterMap fun
    | .stamp instant => some instant
    | _ => none

/-- The turns in which a log calls `update_addresses`. -/
def addressTurns (log : List Durable) : List Nat :=
  log.filterMap fun
    | .updateAddresses turn => some turn
    | _ => none

/-- Every call of `update_snapshot` in a log directly follows a stamp. -/
def Stamped (log : List Durable) : Prop :=
  ∀ before after, log = before ++ .updateSnapshot :: after →
    ∃ earlier instant, before = earlier ++ [.stamp instant]

section
variable {t u : TimedMonitor} {log : List Durable} {d : Durable}

/-- A call of `update_snapshot` may be added to a log that ends in a stamp. -/
theorem stamped_snoc (h : Stamped log)
    (hd : d = .updateSnapshot → ∃ earlier instant, log = earlier ++ [.stamp instant]) :
    Stamped (log ++ [d]) := by
  intro before after heq
  rcases List.eq_nil_or_concat after with rfl | ⟨rest, last, rfl⟩
  · obtain ⟨rfl, hlast⟩ := List.append_inj' heq rfl
    exact hd (List.singleton_inj.1 hlast)
  · rw [List.concat_eq_append, ← List.cons_append, ← List.append_assoc] at heq
    exact h before rest (List.append_inj' heq rfl).1

@[simp] theorem stamps_append (log log' : List Durable) :
    stamps (log ++ log') = stamps log ++ stamps log' :=
  List.filterMap_append

@[simp] theorem addressTurns_append (log log' : List Durable) :
    addressTurns (log ++ log') = addressTurns log ++ addressTurns log' :=
  List.filterMap_append

/-- A monitor is about to persist after a sample that is to be persisted, and it dials after its
check. -/
theorem phase_of_step {v v' : View} {e : Event} (h : Monitor.Step v e v') :
    (∀ snapshot, v'.task.phase = .persisting snapshot →
        ∃ sample nowMs, e = .sample sample true nowMs) ∧
      (v'.task.phase = .dialing → e = .check) := by
  cases h with
  | checkPaired => exact ⟨fun _ h => (nomatch h), fun _ => rfl⟩
  | samplePersist sample nowMs => exact ⟨fun _ _ => ⟨sample, nowMs, rfl⟩, nofun⟩
  | heartbeatAbsent nowMs hphase =>
    rw [hphase]
    exact ⟨fun _ h => (nomatch h), nofun⟩
  | _ => exact ⟨fun _ h => (nomatch h), nofun⟩

/-! ## The invariant -/

/-- What holds of a monitor on a clock at any time. -/
structure Throttled (t : TimedMonitor) : Prop where
  spaced : (stamps t.log).Pairwise fun a b => a + snapshotPersistInterval ≤ b
  last : ∀ instant ∈ stamps t.log, ∃ last, t.lastPersisted = some last ∧ instant ≤ last
  /-- A sample that is to be persisted waits when the interval is over. -/
  due : ∀ sample, t.received = some (sample, true) →
    ∀ last, t.lastPersisted = some last → last + snapshotPersistInterval ≤ t.now
  stamped : Stamped t.log
  pending : ∀ snapshot, t.view.task.phase = .persisting snapshot →
    ∃ earlier instant, t.log = earlier ++ [.stamp instant]
  distinct : (addressTurns t.log).Nodup
  past : ∀ turn ∈ addressTurns t.log, turn ≤ t.turns
  /-- A session that dials has not called `update_addresses`. -/
  dialing : t.view.task.phase = .dialing → t.turns ∉ addressTurns t.log

theorem throttled_start (record : RemoteMachineRecord) (registry : RemoteMachineRegistry)
    (snapshots : Table String RemoteMachineSnapshot) (now : Nat) :
    Throttled (start record registry snapshots now) where
  spaced := List.Pairwise.nil
  last _ h := absurd h List.not_mem_nil
  due _ h := by cases h
  stamped before after h := by cases before <;> cases h
  pending _ h := by cases h
  distinct := List.Pairwise.nil
  past _ h := absurd h List.not_mem_nil
  dialing h := by cases h

/-- A sample that is to be persisted was received when the interval was over. -/
theorem due_of_shouldPersist (h : t.shouldPersist = true) {last : Nat}
    (hlast : t.lastPersisted = some last) : last + snapshotPersistInterval ≤ t.now := by
  have hpos : 0 < snapshotPersistInterval := by decide
  have hage : snapshotPersistInterval ≤ t.now - last := by
    simpa [shouldPersist, hlast] using h
  omega

/-- A step that does nothing to the registry file keeps the invariant, where it begins neither a
session nor a write. -/
theorem Throttled.keep (h : Throttled t) (hlog : u.log = t.log)
    (hlast : u.lastPersisted = t.lastPersisted) (hturns : u.turns = t.turns)
    (hdue : ∀ sample, u.received = some (sample, true) →
      ∀ last, t.lastPersisted = some last → last + snapshotPersistInterval ≤ u.now)
    (hpersisting : ∀ snapshot, u.view.task.phase = .persisting snapshot →
      t.view.task.phase = .persisting snapshot)
    (hdialing : u.view.task.phase = .dialing → t.view.task.phase = .dialing) : Throttled u where
  spaced := hlog ▸ h.spaced
  last := by rw [hlog, hlast]; exact h.last
  due := by rw [hlast]; exact hdue
  stamped := hlog ▸ h.stamped
  pending snapshot hphase := by rw [hlog]; exact h.pending snapshot (hpersisting snapshot hphase)
  distinct := hlog ▸ h.distinct
  past := by rw [hlog, hturns]; exact h.past
  dialing hphase := by rw [hlog, hturns]; exact h.dialing (hdialing hphase)

/-- A sample that was found due is stamped ten seconds after the last stamp. -/
theorem Throttled.stamp (h : Throttled t) {sample : MetricSample} {nowMs : Int} {view : View}
    (hreceived : t.received = some (sample, true))
    (hstep : Monitor.Step t.view (.sample sample true nowMs) view) :
    Throttled
      { t with
        view
        lastPersisted := some t.now
        received := none
        log := t.log ++ [.stamp t.now] } where
  spaced := by
    rw [stamps_append]
    refine List.pairwise_append.2 ⟨h.spaced, List.pairwise_singleton _ _, fun a ha b hb => ?_⟩
    obtain ⟨last, hlast, hle⟩ := h.last a ha
    have hdue : last + snapshotPersistInterval ≤ t.now := h.due sample hreceived last hlast
    rw [List.mem_singleton.1 hb]
    omega
  last a ha := by
    rw [stamps_append] at ha
    refine ⟨t.now, rfl, ?_⟩
    rcases List.mem_append.1 ha with ha | ha
    · obtain ⟨last, hlast, hle⟩ := h.last a ha
      have hdue : last + snapshotPersistInterval ≤ t.now := h.due sample hreceived last hlast
      omega
    · exact (List.mem_singleton.1 ha).le
  due _ h := by cases h
  stamped := stamped_snoc h.stamped nofun
  pending _ _ := ⟨t.log, t.now, rfl⟩
  distinct := by simpa [addressTurns] using h.distinct
  past := by simpa [addressTurns] using h.past
  dialing hphase := by cases (phase_of_step hstep).2 hphase

/-- A snapshot is persisted right after its stamp. -/
theorem Throttled.persist (h : Throttled t) {outcome : Except RemoteFleetError Unit} {view : View}
    (hstep : Monitor.Step t.view (.persist outcome) view) :
    Throttled { t with view, received := none, log := t.log ++ [.updateSnapshot] } where
  spaced := by simpa [stamps] using h.spaced
  last := by simpa [stamps] using h.last
  due _ h := by cases h
  stamped := stamped_snoc h.stamped fun _ => by
    cases hstep with
    | persist _ hphase => exact h.pending _ hphase
    | persistFailed _ hphase => exact h.pending _ hphase
  pending snapshot hphase := by
    obtain ⟨_, _, he⟩ := (phase_of_step hstep).1 snapshot hphase
    cases he
  distinct := by simpa [addressTurns] using h.distinct
  past := by simpa [addressTurns] using h.past
  dialing hphase := by cases (phase_of_step hstep).2 hphase

/-- A session that comes up calls `update_addresses` for the first time. -/
theorem Throttled.updateAddresses (h : Throttled t) {observed : List SocketAddr}
    {outcome : Except RemoteFleetError Unit} {view : View}
    (hstep : Monitor.Step t.view (.connect observed outcome) view) :
    Throttled { t with view, received := none, log := t.log ++ [.updateAddresses t.turns] } where
  spaced := by simpa [stamps] using h.spaced
  last := by simpa [stamps] using h.last
  due _ h := by cases h
  stamped := stamped_snoc h.stamped nofun
  pending snapshot hphase := by
    obtain ⟨_, _, he⟩ := (phase_of_step hstep).1 snapshot hphase
    cases he
  distinct := by
    have hnew : t.turns ∉ addressTurns t.log := by
      cases hstep with
      | connect _ _ hphase => exact h.dialing hphase
    rw [addressTurns_append]
    refine List.nodup_append'.2 ⟨h.distinct, List.nodup_singleton _, ?_⟩
    simpa [addressTurns] using hnew
  past turn hturn := by
    rw [addressTurns_append] at hturn
    rcases List.mem_append.1 hturn with hturn | hturn
    · exact h.past turn hturn
    · exact (List.mem_singleton.1 hturn).le
  dialing hphase := by cases (phase_of_step hstep).2 hphase

/-- A turn of the loop begins a session that has called nothing. -/
theorem Throttled.check (h : Throttled t) {view : View} (hstep : Monitor.Step t.view .check view) :
    Throttled { t with view, received := none, turns := t.turns + 1 } where
  spaced := h.spaced
  last := h.last
  due _ h := by cases h
  stamped := h.stamped
  pending snapshot hphase := by
    obtain ⟨_, _, he⟩ := (phase_of_step hstep).1 snapshot hphase
    cases he
  distinct := h.distinct
  past turn hturn := (h.past turn hturn).trans (Nat.le_succ _)
  dialing _ hturn := Nat.not_succ_le_self _ (h.past _ hturn)

/-- A step that does nothing to the registry file and begins no turn. -/
theorem Throttled.move (h : Throttled t) {e : Event} {view : View}
    (hstep : Monitor.Step t.view e view) (hsample : ∀ sample nowMs, e ≠ .sample sample true nowMs)
    (hcheck : e ≠ .check) : Throttled { t with view, received := none } := by
  refine h.keep rfl rfl rfl (fun _ h => nomatch h) (fun snapshot hphase => ?_) fun hphase => ?_
  · obtain ⟨sample, nowMs, he⟩ := (phase_of_step hstep).1 snapshot hphase
    exact absurd he (hsample sample nowMs)
  · exact absurd ((phase_of_step hstep).2 hphase) hcheck

/-- A step of the monitor keeps the invariant. -/
theorem Throttled.own (h : Throttled t) {e : Event} {view : View}
    (hreceived : t.received = recorded e) (hstep : Monitor.Step t.view e view) :
    Throttled
      { t with
        view
        lastPersisted := t.persistedAfter e
        received := none
        turns := t.turned e
        log := t.log ++ t.durable e } := by
  cases e with
  | sample sample shouldPersist nowMs =>
    cases shouldPersist with
    | true => exact h.stamp hreceived hstep
    | false =>
      have hkept := h.move hstep (fun _ _ h => nomatch h) nofun
      simpa [persistedAfter, turned, durable] using hkept
  | persist outcome => exact h.persist hstep
  | check =>
    have hkept := h.check hstep
    simpa [persistedAfter, turned, durable] using hkept
  | connect observed outcome =>
    cases hwrite : addressWrite observed t.view.task.record with
    | some _ =>
      have hkept := h.updateAddresses hstep
      simpa [persistedAfter, turned, durable, hwrite] using hkept
    | none =>
      have hkept := h.move hstep (fun _ _ h => nomatch h) nofun
      simpa [persistedAfter, turned, durable, hwrite] using hkept
  | _ =>
    have hkept := h.move hstep (fun _ _ h => nomatch h) nofun
    simpa [persistedAfter, turned, durable] using hkept

/-- Every step keeps the invariant. -/
theorem Throttled.step (h : Throttled t) {act : Act} (hstep : Step t act u) : Throttled u := by
  cases hstep with
  | pass ns =>
    refine h.keep rfl rfl rfl (fun sample hsample last hlast => ?_) (fun _ => id) id
    exact (h.due sample hsample last hlast).trans (Nat.le_add_right _ _)
  | others hothers =>
    cases hothers with
    | others registry snapshots => exact h.keep rfl rfl rfl h.due (fun _ => id) id
  | abort hawaits => exact h.keep rfl rfl rfl (fun _ h => nomatch h) (fun _ h => nomatch h) nofun
  | receive sample hphase hnone =>
    refine h.keep rfl rfl rfl (fun sample' hsample last hlast => ?_) (fun _ => id) id
    have hshould : t.shouldPersist = true := (Prod.mk.inj (Option.some.inj hsample)).2
    exact due_of_shouldPersist hshould hlast
  | own hreceived hstep => exact h.own hreceived hstep

end

/-- However a peer behaves, in every run of a monitor: the instants at which it stamps
`last_persisted` are ten seconds apart, every call of `update_snapshot` directly follows a stamp of
its own, and no session calls `update_addresses` twice. -/
theorem persist_cadence {record : RemoteMachineRecord} {registry : RemoteMachineRegistry}
    {snapshots : Table String RemoteMachineSnapshot} {now : Nat} {acts : List Act}
    {t : TimedMonitor} (hrun : Run Step (start record registry snapshots now) acts t) :
    ((stamps t.log).Pairwise fun a b => a + Duration.fromSecs 10 ≤ b) ∧
      (∀ before after, t.log = before ++ .updateSnapshot :: after →
        ∃ earlier instant, before = earlier ++ [.stamp instant]) ∧
      (addressTurns t.log).Nodup := by
  have hthrottled : Throttled t :=
    hrun.invariant (throttled_start record registry snapshots now) fun _ _ _ h hstep => h.step hstep
  exact ⟨hthrottled.spaced, hthrottled.stamped, hthrottled.distinct⟩

open RemoteFleet (machineRecord machineAnswer)

/-- A peer that observes an address, sends a sample, a second one three seconds later, drops the
connection and sends a third one in a new session. -/
def hasty : List Act :=
  [.own .check, .own (.connect [⟨.v4 0x7f000001, 4434, 0, 0⟩] (.ok ())),
    .own (.establish machineAnswer.node default .unknown 12 0), .receive default,
    .own (.sample default true 0), .own (.persist (.ok ())), .pass (Duration.fromSecs 3),
    .receive default, .own (.sample default false 3000), .own (.fail (.timeout "health")),
    .own (.updateError 3000), .pass (Duration.fromSecs 8), .own .check,
    .own (.connect [⟨.v4 0x7f000001, 4434, 0, 0⟩] (.ok ())),
    .own (.establish machineAnswer.node default .unknown 12 11000), .receive default,
    .own (.sample default true 11000), .own (.persist (.ok ()))]

/-- It is persisted for the first and the third sample, and its address once. -/
theorem persist_cadence_hasty :
    ∃ t, Run Step (start machineRecord (RemoteMachineRegistry.empty.store machineRecord) .empty 0)
        hasty t ∧
      t.log = [.updateAddresses 1, .stamp 0, .updateSnapshot, .stamp (Duration.fromSecs 11),
        .updateSnapshot] ∧
      ((stamps t.log).Pairwise fun a b => a + Duration.fromSecs 10 ≤ b) ∧
      (∀ before after, t.log = before ++ .updateSnapshot :: after →
        ∃ earlier instant, before = earlier ++ [.stamp instant]) ∧
      (addressTurns t.log).Nodup := by
  have hrun : ∃ t,
      Run Step (start machineRecord (RemoteMachineRegistry.empty.store machineRecord) .empty 0)
          hasty t ∧
        t.log = [.updateAddresses 1, .stamp 0, .updateSnapshot, .stamp (Duration.fromSecs 11),
          .updateSnapshot] := by
    refine exists_run_cons (.own rfl (.checkPaired rfl rfl)) ?_
    refine exists_run_cons (.own rfl (.connect _ _ rfl rfl)) ?_
    refine exists_run_cons (.own rfl (.establish _ _ _ _ _ rfl)) ?_
    refine exists_run_cons (.receive _ rfl rfl) ?_
    refine exists_run_cons (.own rfl (.samplePersist _ _ rfl)) ?_
    refine exists_run_cons (.own rfl (.persist _ rfl rfl)) ?_
    refine exists_run_cons (.pass _) ?_
    refine exists_run_cons (.receive _ rfl rfl) ?_
    refine exists_run_cons (.own (by decide) (.sample _ _ rfl)) ?_
    refine exists_run_cons (.own rfl (.fail _ (.inr (.inr rfl)))) ?_
    refine exists_run_cons (.own rfl (.updateError _ rfl)) ?_
    refine exists_run_cons (.pass _) ?_
    refine exists_run_cons (.own rfl (.checkPaired rfl rfl)) ?_
    refine exists_run_cons (.own rfl (.connect _ _ rfl rfl)) ?_
    refine exists_run_cons (.own rfl (.establish _ _ _ _ _ rfl)) ?_
    refine exists_run_cons (.receive _ rfl rfl) ?_
    refine exists_run_cons (.own (by decide) (.samplePersist _ _ rfl)) ?_
    refine exists_run_cons (.own rfl (.persist _ rfl rfl)) ?_
    exact ⟨_, .nil, rfl⟩
  obtain ⟨t, hrun, hlog⟩ := hrun
  exact ⟨t, hrun, hlog, persist_cadence hrun⟩

end TimedMonitor

end Rackio
