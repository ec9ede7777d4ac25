import Rackio.Remote.Freshness

/-!
# Clock steps and the age of a snapshot

The age that `state_at` derives stale and offline from is the difference of two readings of the
wall clock, which may be set forwards and backwards between them. `Clocks` are the readings of the
wall clock beside the monotonic time, over the moments of a run; a timed run of the fleet labels
every step with its moment and keeps for every machine the moment it was last heard from.

What `snapshots()` reports of a machine that was last heard from half a minute ago is right for
every run if and only if the wall clock gains ten seconds in every half minute
(`not_kept_alive_iff`). A clock that is set back keeps a dead machine alive (`kept_alive`).
-/

namespace Rackio

open Lts

/-- The two clocks over the moments of a run: the monotonic time, and what the wall clock reads. -/
structure Clocks where
  monotonicMs : Nat → Int
  wallMs : Nat → Int
  monotone : Monotone monotonicMs

/-- The wall clock gains ten seconds in every half minute. -/
def Clocks.Advances (c : Clocks) : Prop :=
  ∀ i j, offlineAfterMs ≤ c.monotonicMs j - c.monotonicMs i →
    staleAfterMs ≤ c.wallMs j - c.wallMs i

namespace RemoteFleet

/-- The reading of the wall clock an event takes. -/
def Event.reading : Event → Option Int
  | .task _ (.establish _ _ _ _ nowMs) | .task _ (.sample _ _ nowMs) | .task _ (.heartbeat nowMs)
  | .task _ (.updateError nowMs) => some nowMs
  | _ => none

/-- The machine an event hears from: a session starts, a sample or a heartbeat arrives, or the
dialogue of a pairing is stored. -/
def hears (s : RemoteFleet) : Event → Option String
  | .importStore i => (s.imports.find i).map ImportStage.endpointId
  | .task k (.establish _ _ _ _ _) | .task k (.sample _ _ _) | .task k (.heartbeat _) =>
    (s.tasks.find k).map Monitor.Task.endpointId
  | _ => none

end RemoteFleet

open RemoteFleet

/-- A fleet in a timed run. -/
structure TimedFleet where
  fleet : RemoteFleet
  moment : Nat
  /-- When a machine was last heard from. -/
  heard : String → Option Nat

namespace TimedFleet

/-- The moments after an event. -/
def heardAfter (s : TimedFleet) (i : Nat) (ev : Event) : String → Option Nat :=
  match s.fleet.hears ev with
  | some e => Function.update s.heard e (some i)
  | none => s.heard

/-- An event sets the moment of the machine it hears from. -/
theorem heardAfter_eq (s : TimedFleet) (i : Nat) (ev : Event) (e : String) :
    s.heardAfter i ev e = if s.fleet.hears ev = some e then some i else s.heard e := by
  unfold heardAfter
  cases s.fleet.hears ev with
  | none => rfl
  | some e' =>
    show Function.update s.heard e' (some i) e = _
    split
    · next heq =>
      cases heq
      exact Function.update_self ..
    · next hne => exact Function.update_of_ne (fun heq => hne (congrArg some heq.symm)) ..

/-- An event at a moment reads the wall clock of that moment. A pairing takes its reading before it
inserts its record. -/
def Reads (c : Clocks) (i : Nat) (ev : Event) (after : RemoteFleet) : Prop :=
  (∀ nowMs, ev.reading = some nowMs → nowMs = c.wallMs i) ∧
    ∀ n e record snapshot, ev = .importInsert n e →
      after.imports.find n = some (.inserted record snapshot) →
      snapshot.lastSeenMs = some (c.wallMs i)

/-- A step of the fleet at a moment. -/
inductive Step (c : Clocks) (s : TimedFleet) : Nat × Event → TimedFleet → Prop
  | intro {i : Nat} {ev : Event} {fleet : RemoteFleet} (hlater : s.moment ≤ i)
      (hstep : RemoteFleet.Step s.fleet ev fleet) (hreads : Reads c i ev fleet) :
      Step c s (i, ev) ⟨fleet, i, s.heardAfter i ev⟩

/-- The steps that meet the condition under which the tables of the fleet agree. -/
def Isolated (s : TimedFleet) (label : Nat × Event) : Prop := RemoteFleet.Isolated s.fleet label.2

/-- A fleet that is started at a moment. Of a machine in its registry it may be known when it was
last heard from; the persisted snapshot is from then or from before. -/
structure Starts (c : Clocks) (registry : RemoteMachineRegistry) (s : TimedFleet) : Prop where
  fleet : s.fleet = (RemoteFleet.load registry).start
  heard : ∀ e i, s.heard e = some i → i ≤ s.moment ∧
    ∃ record, registry.records.find e = some record ∧
      ∃ i', i' ≤ i ∧ (RemoteMachineSnapshot.offline record).lastSeenMs = some (c.wallMs i')

/-- A machine last heard from at least half a minute ago is not reported alive. -/
def NotKeptAlive (c : Clocks) (s : TimedFleet) : Prop :=
  ∀ e i j, s.heard e = some i → s.moment ≤ j →
    offlineAfterMs ≤ c.monotonicMs j - c.monotonicMs i →
    ∀ snapshot, (s.fleet.reported (c.wallMs j)).find e = some snapshot →
      snapshot.state.alive = false

/-! ## What was heard -/

/-- The stored time of a machine is a reading from when it was last heard from, or from before. -/
structure Heard (c : Clocks) (s : TimedFleet) : Prop where
  wellFormed : s.fleet.WellFormed
  slots : ∀ e, Slot.Inv (s.fleet.slot e)
  shown : ∀ e, Slot.Shown (s.fleet.slot e)
  heard : ∀ e i snapshot, s.heard e = some i → s.fleet.snapshots.find e = some snapshot →
    ∃ i', i' ≤ i ∧ snapshot.lastSeenMs = some (c.wallMs i')
  past : ∀ e i, s.heard e = some i → i ≤ s.moment
  pairing : ∀ n record snapshot, s.fleet.imports.find n = some (.inserted record snapshot) →
    ∃ i, i ≤ s.moment ∧ snapshot.lastSeenMs = some (c.wallMs i)

end TimedFleet

namespace RemoteFleet

variable {s t : RemoteFleet} {ev : Event} {e : String}

/-- A task with a step to make is live in the slot of its machine, so that the machine is shown. -/
theorem entry_of_live (hshown : ∀ e, Slot.Shown (s.slot e)) {k : Nat} {task : Monitor.Task}
    (hk : s.tasks.find k = some task) (hphase : task.phase ≠ .stopped) :
    ∃ snapshot, s.snapshots.find task.endpointId = some snapshot ∧ s.entryOf task = snapshot := by
  have hlive : ((s.slot task.endpointId).task k).Live := by
    simp only [slot, hk]
    rw [taskStatus_self task rfl]
    exact live_status hphase
  have hcontains : s.snapshots.contains task.endpointId = true :=
    (hshown task.endpointId).live k hlive
  obtain ⟨snapshot, hfind⟩ := Option.isSome_iff_exists.1 hcontains
  exact ⟨snapshot, hfind, entryOf_of_find hfind⟩

/-- The snapshot of a machine that is heard from has the time of the reading, or the one its pairing
took. -/
theorem Step.hears (h : Step s ev t) (hshown : ∀ e, Slot.Shown (s.slot e))
    (he : s.hears ev = some e) :
    ∃ snapshot, t.snapshots.find e = some snapshot ∧
      ((∃ n record, s.imports.find n = some (.inserted record snapshot)) ∨
        ∃ nowMs, ev.reading = some nowMs ∧ snapshot.lastSeenMs = some nowMs) := by
  cases h with
  | @importStore n record snapshot hi =>
    simp only [RemoteFleet.hears, hi, Option.map_some, Option.some.injEq] at he
    refine ⟨snapshot, ?_, .inl ⟨n, record, hi⟩⟩
    simp only [Table.find_insert]
    exact if_pos he.symm
  | @task k task event v hk hstep =>
    have hwritten {snapshot : RemoteMachineSnapshot} (hid : task.endpointId = e) :
        (s.snapshots.insert task.endpointId snapshot).find e = some snapshot := by
      rw [Table.find_insert]
      exact if_pos hid.symm
    cases hstep with
    | establish node health path rttMs nowMs hphase =>
      simp only [RemoteFleet.hears, hk, Option.map_some, Option.some.injEq] at he
      exact ⟨_, hwritten he, .inr ⟨nowMs, rfl, rfl⟩⟩
    | sample sample nowMs hphase =>
      simp only [RemoteFleet.hears, hk, Option.map_some, Option.some.injEq] at he
      exact ⟨_, hwritten he, .inr ⟨nowMs, rfl, rfl⟩⟩
    | samplePersist sample nowMs hphase =>
      simp only [RemoteFleet.hears, hk, Option.map_some, Option.some.injEq] at he
      exact ⟨_, hwritten he, .inr ⟨nowMs, rfl, rfl⟩⟩
    | heartbeat nowMs hphase hfind =>
      simp only [RemoteFleet.hears, hk, Option.map_some, Option.some.injEq] at he
      exact ⟨_, hwritten he, .inr ⟨nowMs, rfl, rfl⟩⟩
    | heartbeatAbsent nowMs hphase hfind =>
      have hphase : task.phase = .streaming := hphase
      obtain ⟨snapshot, hsome, -⟩ := entry_of_live hshown hk (by rw [hphase]; exact nofun)
      have hnone : s.snapshots.find task.endpointId = none := hfind
      rw [hsome] at hnone
      cases hnone
    | _ => cases he
  | _ => cases he

/-- A step that does not hear from a machine leaves its time alone. -/
theorem Step.unheard (h : Step s ev t) (hshown : ∀ e, Slot.Shown (s.slot e))
    (he : s.hears ev ≠ some e) {snapshot : RemoteMachineSnapshot}
    (hfind : t.snapshots.find e = some snapshot) :
    ∃ before, s.snapshots.find e = some before ∧ snapshot.lastSeenMs = before.lastSeenMs := by
  have hchange := h.change e
  rw [hfind] at hchange
  generalize hafter : some snapshot = after at hchange
  cases hchange with
  | kept => exact ⟨snapshot, hafter.symm, rfl⟩
  | paired hi hid =>
    refine absurd ?_ he
    rw [RemoteFleet.hears, hi, ← hid]
    rfl
  | dropped hr => cases hafter
  | @written k task event snapshot₀ hk hid hwrites =>
    cases hafter
    have hunheard : (s.tasks.find k).map Monitor.Task.endpointId = some e := by
      rw [hk, ← hid]
      rfl
    cases hwrites with
    | establish node health path rttMs nowMs hphase => exact absurd hunheard he
    | sample sample shouldPersist nowMs hphase => exact absurd hunheard he
    | refresh health path rttMs hphase =>
      obtain ⟨before, hbefore, hentry⟩ := entry_of_live hshown hk (by rw [hphase]; exact nofun)
      rw [hid] at hbefore
      exact ⟨before, hbefore, by rw [hentry]; rfl⟩
    | heartbeat nowMs hphase => exact absurd hunheard he
    | updateError nowMs hphase =>
      obtain ⟨before, hbefore, hentry⟩ := entry_of_live hshown hk (by rw [hphase]; exact nofun)
      rw [hid] at hbefore
      exact ⟨before, hbefore, by rw [hentry]; rfl⟩

/-- A pairing that is to store its snapshot was there, or the step inserted its record. -/
theorem Step.inserted (h : Step s ev t) {n : Nat} {record : RemoteMachineRecord}
    {snapshot : RemoteMachineSnapshot} (hn : t.imports.find n = some (.inserted record snapshot)) :
    s.imports.find n = some (.inserted record snapshot) ∨ ∃ e, ev = .importInsert n e := by
  have inserted {n₀ : Nat} {stage : ImportStage} (ht : t.imports = s.imports.insert n₀ stage)
      (hne : stage ≠ .inserted record snapshot) :
      s.imports.find n = some (.inserted record snapshot) := by
    rw [ht, Table.find_insert] at hn
    split at hn
    · exact absurd (Option.some.inj hn) hne
    · exact hn
  have erased {n₀ : Nat} (ht : t.imports = s.imports.erase n₀) :
      s.imports.find n = some (.inserted record snapshot) := by
    rw [ht, Table.find_erase] at hn
    split at hn
    · cases hn
    · exact hn
  cases h with
  | importCheck hi hvalid hnew => exact .inl (inserted rfl nofun)
  | importFail hi => exact .inl (erased rfl)
  | @importInsert n₀ bundle answer persist registry hi hanswer hinsert =>
    simp only [Table.find_insert] at hn
    split at hn
    · next heq => exact .inr ⟨_, by rw [heq]⟩
    · exact .inl hn
  | importStore hi => exact .inl (inserted rfl nofun)
  | importSpawn hi hk => exact .inl (inserted rfl nofun)
  | importRegister hi => exact .inl (erased rfl)
  | _ => exact .inl hn

end RemoteFleet

namespace TimedFleet

variable {c : Clocks} {s t : TimedFleet} {label : Nat × Event}

/-- Every step that meets the condition keeps the times of the machines. -/
theorem Heard.step (h : Heard c s) (hisolated : Isolated s label) (hstep : Step c s label t) :
    Heard c t := by
  cases hstep with
  | @intro i ev fleet hlater hstep hreads =>
    have hwf := h.wellFormed.step hstep
    have hslot := fun e => hstep.slot h.wellFormed hisolated e
    refine ⟨hwf, fun e => (h.slots e).step (hslot e),
      fun e => (h.shown e).step (h.slots e) (hslot e), ?_, ?_, ?_⟩
    · intro e i₀ snapshot hheard hfind
      have hfind : fleet.snapshots.find e = some snapshot := hfind
      have hheard : s.heardAfter i ev e = some i₀ := hheard
      rw [heardAfter_eq] at hheard
      split at hheard
      · next hhears =>
        -- the moment of the event, and its reading or that of the pairing
        cases hheard
        obtain ⟨snapshot', hfind', hsource⟩ := hstep.hears h.shown hhears
        rw [hfind] at hfind'
        cases hfind'
        rcases hsource with ⟨n, record, hpairing⟩ | ⟨nowMs, hreading, hseen⟩
        · obtain ⟨i', hle, hseen⟩ := h.pairing n record snapshot hpairing
          exact ⟨i', hle.trans hlater, hseen⟩
        · exact ⟨i, le_rfl, by rw [hseen, hreads.1 nowMs hreading]⟩
      · next hnot =>
        obtain ⟨before, hsome, hsame⟩ := hstep.unheard h.shown hnot hfind
        rw [hsame]
        exact h.heard e i₀ before hheard hsome
    · intro e i₀ hheard
      have hheard : s.heardAfter i ev e = some i₀ := hheard
      rw [heardAfter_eq] at hheard
      split at hheard
      · exact (Option.some.inj hheard).ge
      · exact (h.past e i₀ hheard).trans hlater
    · intro n record snapshot hn
      rcases hstep.inserted hn with hold | ⟨e, hev⟩
      · obtain ⟨i', hle, hseen⟩ := h.pairing n record snapshot hold
        exact ⟨i', hle.trans hlater, hseen⟩
      · exact ⟨i, le_rfl, hreads.2 n e record snapshot hev hn⟩

/-- A fleet that is started. -/
theorem heard_of_starts {registry : RemoteMachineRegistry} (h : Starts c registry s) :
    Heard c s := by
  have hstart := starting_start registry
  rw [← h.fleet] at hstart
  refine ⟨hstart.wellFormed, hstart.inv, ?_, ?_, fun e i hi => (h.heard e i hi).1, ?_⟩
  · intro e
    constructor
    · intro k hlive
      have hknown : (s.fleet.slot e).task k ≠ .unknown := by
        intro hunknown
        rw [hunknown] at hlive
        rcases hlive with hlive | hlive <;> cases hlive
      rw [hstart.shown]
      exact (hstart.monitors e k (hstart.task_of_known hknown)).2.1
    · intro n hn
      exact absurd (hstart.importing e n) hn
  · intro e i snapshot hheard hfind
    obtain ⟨-, record, hrecord, hseen⟩ := h.heard e i hheard
    rw [hstart.snapshots, Table.find_map, hrecord] at hfind
    cases hfind
    exact hseen
  · intro n record snapshot hn
    rw [hstart.imports] at hn
    cases hn

/-- Where the times are right, a wall clock that gains ten seconds in every half minute does not
keep a machine alive. -/
theorem Heard.notKeptAlive (h : Heard c s) (hadvances : c.Advances) : NotKeptAlive c s := by
  intro e i j hheard hj hlong snapshot hfind
  rw [reported, Table.find_map, Option.map_eq_some_iff] at hfind
  obtain ⟨stored, hstored, rfl⟩ := hfind
  obtain ⟨i', hle, hseen⟩ := h.heard e i stored hheard hstored
  rw [Bool.eq_false_iff]
  intro halive
  have hage := (RemoteMachineSnapshot.stateAt_alive halive).2 _ hseen
  have hmonotone := c.monotone hle
  have hgain := hadvances i' j (by omega)
  omega

/-! ## A clock that is set back -/

/-- The answer of the machine to a pairing at a reading of the wall clock. -/
def answerAt (seenAtMs : Int) : PairingAnswer := { machineAnswer with seenAtMs := seenAtMs }

/-- The record of the machine. -/
def recordAt (seenAtMs : Int) : RemoteMachineRecord :=
  importedRecord machineBundle (answerAt seenAtMs)

/-- The healthy machine. -/
def healthyHealth : HealthSnapshot := { (default : HealthSnapshot) with state := .healthy }

/-- The start of a session. -/
def establishEvent (nowMs : Int) : Event :=
  .task 0 (.establish default healthyHealth .lanDirect 1 nowMs)

/-- The snapshot of the machine after the start of a session. -/
def sessionSnapshot (nowMs : Int) : RemoteMachineSnapshot :=
  Monitor.established (importedSnapshot machineBundle (answerAt nowMs)) default healthyHealth
    .lanDirect 1 nowMs

/-- The fleet with the machine, its snapshot and its monitor in a phase. -/
def machineFleet (seenAtMs : Int) (snapshot : RemoteMachineSnapshot) (phase : Monitor.Phase) :
    RemoteFleet where
  registry := RemoteMachineRegistry.empty.store (recordAt seenAtMs)
  snapshots := Table.empty.insert machineBundle.endpointId snapshot
  monitors := Table.empty.insert machineBundle.endpointId 0
  tasks := Table.empty.insert 0 ⟨recordAt seenAtMs, phase, false⟩
  imports := .empty
  removals := .empty

/-- Only this machine was heard from. -/
def heardOnce (i : Nat) : String → Option Nat :=
  Function.update (fun _ => none) machineBundle.endpointId (some i)

/-- An event that reads the wall clock of its moment, or not at all. -/
theorem reads_of {i : Nat} {ev : Event} {after : RemoteFleet}
    (hreading : ev.reading = none ∨ ev.reading = some (c.wallMs i))
    (hinsert : ∀ n e, ev ≠ .importInsert n e) : Reads c i ev after := by
  refine ⟨fun nowMs h => ?_, fun n e _ _ h => absurd h (hinsert n e)⟩
  rcases hreading with hnone | hsome
  · rw [hnone] at h
    cases h
  · rw [hsome] at h
    exact (Option.some.inj h).symm

/-- A machine is paired at a moment. -/
theorem run_pairing (c : Clocks) (i : Nat) :
    Run (Guarded Isolated (Step c)) ⟨(RemoteFleet.load .empty).start, 0, fun _ => none⟩
      (importEvents.map fun ev => (i, ev))
      ⟨machineFleet (c.wallMs i) (importedSnapshot machineBundle (answerAt (c.wallMs i))) .checking,
        i, heardOnce i⟩ := by
  refine run_cons_iff.2 ⟨_, ⟨trivial, .intro (Nat.zero_le i)
    (@Step.importCheck _ 0 machineBundle 0 (.ok ()) rfl rfl rfl) (reads_of (.inl rfl) nofun)⟩, ?_⟩
  refine run_cons_iff.2 ⟨_, ⟨?_, .intro le_rfl (@Step.importInsert _ 0 machineBundle
    (answerAt (c.wallMs i)) (.ok ()) _ rfl checkAnswer_machine rfl) ⟨?_, ?_⟩⟩, ?_⟩
  · intro r stage hr
    cases hr
  · intro nowMs h
    cases h
  · intro n e record snapshot hev hfind
    cases hev
    rw [Table.find_insert, if_pos rfl] at hfind
    cases hfind
    exact lastSeenMs_importedSnapshot machineBundle _
  refine run_cons_iff.2 ⟨_, ⟨trivial, .intro le_rfl (.importStore rfl)
    (reads_of (.inl rfl) nofun)⟩, ?_⟩
  refine run_cons_iff.2 ⟨_, ⟨trivial, .intro le_rfl (.importSpawn rfl rfl)
    (reads_of (.inl rfl) nofun)⟩, ?_⟩
  exact run_cons_iff.2 ⟨_, ⟨trivial, .intro le_rfl (.importRegister rfl)
    (reads_of (.inl rfl) nofun)⟩, .nil⟩

/-- What the monitor of the machine sees. -/
def machineView (seenAtMs : Int) (snapshot : RemoteMachineSnapshot) (phase : Monitor.Phase) :
    Monitor.View where
  registry := RemoteMachineRegistry.empty.store (recordAt seenAtMs)
  snapshots := Table.empty.insert machineBundle.endpointId snapshot
  task := ⟨recordAt seenAtMs, phase, false⟩

/-- A step of the monitor of the machine. -/
theorem step_machine {seenAtMs : Int} {before after : RemoteMachineSnapshot}
    {phase phase' : Monitor.Phase} {event : Monitor.Event}
    (h : Monitor.Step (machineView seenAtMs before phase) event
      (machineView seenAtMs after phase')) :
    RemoteFleet.Step (machineFleet seenAtMs before phase) (.task 0 event)
      (machineFleet seenAtMs after phase') := by
  have hstep := RemoteFleet.Step.task (s := machineFleet seenAtMs before phase) (k := 0) rfl h
  have htasks : (machineFleet seenAtMs before phase).tasks.insert 0
      (machineView seenAtMs after phase').task = (machineFleet seenAtMs after phase').tasks :=
    Table.insert_insert ..
  rw [htasks] at hstep
  exact hstep

/-- The fleet after the start of its session. -/
def sessionFleet (c : Clocks) (i : Nat) : TimedFleet where
  fleet := machineFleet (c.wallMs i) (sessionSnapshot (c.wallMs i)) .streaming
  moment := i
  heard := Function.update (heardOnce i) machineBundle.endpointId (some i)

/-- Its session starts. -/
theorem run_session (c : Clocks) (i : Nat) :
    Run (Guarded Isolated (Step c))
      ⟨machineFleet (c.wallMs i) (importedSnapshot machineBundle (answerAt (c.wallMs i))) .checking,
        i, heardOnce i⟩
      [(i, .task 0 .check), (i, .task 0 (.connect [] (.ok ()))), (i, establishEvent (c.wallMs i))]
      (sessionFleet c i) := by
  set imported := importedSnapshot machineBundle (answerAt (c.wallMs i))
  have hpaired : (machineView (c.wallMs i) imported .checking).registry.contains
      machineBundle.endpointId = true := by
    show (RemoteMachineRegistry.empty.store (recordAt (c.wallMs i))).contains _ = true
    rw [RemoteMachineRegistry.contains_store]
    rfl
  have hcheck : Monitor.Step (machineView (c.wallMs i) imported .checking) .check
      (machineView (c.wallMs i) imported .dialing) := .checkPaired rfl hpaired
  have hconnect : Monitor.Step (machineView (c.wallMs i) imported .dialing)
      (.connect [] (.ok ())) (machineView (c.wallMs i) imported .connected) :=
    .connect [] (.ok ()) rfl rfl
  have hestablish : Monitor.Step (machineView (c.wallMs i) imported .connected)
      (.establish default healthyHealth .lanDirect 1 (c.wallMs i))
      (machineView (c.wallMs i) (sessionSnapshot (c.wallMs i)) .streaming) := by
    have hentry : (machineView (c.wallMs i) imported .connected).entry = imported := by
      show (((Table.empty.insert machineBundle.endpointId imported).find
        machineBundle.endpointId).getD _) = imported
      rw [Table.find_insert, if_pos rfl]
      rfl
    have hview : (machineView (c.wallMs i) imported .connected).write
        (sessionSnapshot (c.wallMs i)) .streaming =
          machineView (c.wallMs i) (sessionSnapshot (c.wallMs i)) .streaming :=
      congrArg (fun snapshots => Monitor.View.mk _ snapshots _) (Table.insert_insert ..)
    have hstep := Monitor.Step.establish (v := machineView (c.wallMs i) imported .connected) default
      healthyHealth .lanDirect 1 (c.wallMs i) rfl
    rw [hentry] at hstep
    rw [← hview]
    exact hstep
  refine run_cons_iff.2
    ⟨_, ⟨trivial, .intro le_rfl (step_machine hcheck) (reads_of (.inl rfl) nofun)⟩, ?_⟩
  refine run_cons_iff.2
    ⟨_, ⟨trivial, .intro le_rfl (step_machine hconnect) (reads_of (.inl rfl) nofun)⟩, ?_⟩
  exact run_cons_iff.2
    ⟨_, ⟨trivial, .intro le_rfl (step_machine hestablish) (reads_of (.inr rfl) nofun)⟩, .nil⟩

/-- A wall clock that gains too little between two moments keeps the machine alive that was heard
from at the first. -/
theorem kept_alive {c : Clocks} {i j : Nat}
    (hlong : offlineAfterMs ≤ c.monotonicMs j - c.monotonicMs i)
    (hshort : c.wallMs j - c.wallMs i < staleAfterMs) :
    ∃ labels s, Starts c .empty ⟨(RemoteFleet.load .empty).start, 0, fun _ => none⟩ ∧
      Run (Guarded Isolated (Step c)) ⟨(RemoteFleet.load .empty).start, 0, fun _ => none⟩ labels s ∧
      ¬ NotKeptAlive c s := by
  have hstarts : Starts c .empty ⟨(RemoteFleet.load .empty).start, 0, fun _ => none⟩ := by
    refine ⟨rfl, ?_⟩
    intro e i hheard
    cases hheard
  refine ⟨_, sessionFleet c i, hstarts,
    run_append_iff.2 ⟨_, run_pairing c i, run_session c i⟩, fun halive => ?_⟩
  have hheard : (sessionFleet c i).heard machineBundle.endpointId = some i := by
    simp only [sessionFleet, Function.update_self]
  have hfind : (sessionFleet c i).fleet.snapshots.find machineBundle.endpointId =
      some (sessionSnapshot (c.wallMs i)) := by
    rw [sessionFleet, machineFleet, Table.find_insert, if_pos rfl]
  have hij : i ≤ j := by
    by_contra hji
    have := c.monotone (Nat.le_of_not_le hji)
    unfold offlineAfterMs at hlong
    omega
  have hreported : ((sessionFleet c i).fleet.reported (c.wallMs j)).find machineBundle.endpointId =
      some { sessionSnapshot (c.wallMs i) with
        state := (sessionSnapshot (c.wallMs i)).stateAt (c.wallMs j) } := by
    rw [reported, Table.find_map, hfind]
    rfl
  have hstate : (sessionSnapshot (c.wallMs i)).stateAt (c.wallMs j) = .healthy :=
    RemoteMachineSnapshot.stateAt_fresh rfl hshort
  have hdead := halive machineBundle.endpointId i j hheard hij hlong _ hreported
  rw [hstate] at hdead
  cases hdead

/-! ## The result -/

/-- Clock steps do not keep a dead machine alive, in any run whose steps meet the condition under
which the tables of the fleet agree, if and only if the wall clock gains ten seconds in every half
minute of monotonic time. -/
theorem not_kept_alive_iff (c : Clocks) :
    (∀ registry s₀ labels s, Starts c registry s₀ →
        Run (Guarded Isolated (Step c)) s₀ labels s → NotKeptAlive c s) ↔ c.Advances := by
  constructor
  · intro h i j hlong
    by_contra hshort
    obtain ⟨labels, s, hstarts, hrun, halive⟩ := kept_alive hlong (not_le.1 hshort)
    exact halive (h .empty _ labels s hstarts hrun)
  · intro hadvances registry s₀ labels s hstarts hrun
    have hheard : Heard c s :=
      hrun.invariant (heard_of_starts hstarts) fun _ _ _ h hstep => h.step hstep.1 hstep.2
    exact hheard.notKeptAlive hadvances

/-- A wall clock that is set back by an hour within a minute. -/
def steppedBack : Clocks where
  monotonicMs i := 60000 * i
  wallMs i := if i = 0 then 3600000 else 60000 * i
  monotone i j h := by
    show (60000 * i : Int) ≤ 60000 * j
    omega

/-- A machine whose session started before the step is reported healthy a minute later, though
nothing was heard from it since. -/
theorem dead_machine_kept_alive :
    ¬ ∀ (c : Clocks) (registry : RemoteMachineRegistry) (s₀ : TimedFleet)
        (labels : List (Nat × Event)) (s : TimedFleet), Starts c registry s₀ →
      Run (Guarded Isolated (Step c)) s₀ labels s → NotKeptAlive c s := by
  intro h
  have hlong : offlineAfterMs ≤ steppedBack.monotonicMs 1 - steppedBack.monotonicMs 0 := by decide
  have hshort : steppedBack.wallMs 1 - steppedBack.wallMs 0 < staleAfterMs := by decide
  obtain ⟨labels, s, hstarts, hrun, halive⟩ := kept_alive hlong hshort
  exact halive (h steppedBack .empty _ labels s hstarts hrun)

end TimedFleet

end Rackio
