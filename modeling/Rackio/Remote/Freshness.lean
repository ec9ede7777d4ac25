import Rackio.Remote.Stored

/-!
# What a viewer reports of a machine

`snapshots()` derives the state of a machine from the stored state and from when the machine was
last seen. Pairing, session starts, refreshes, samples, heartbeats and session errors write one or
the other; `Step.change` says which of them a step of the fleet writes into the snapshot of an
endpoint, and every result here is read off it.

A machine that is reported alive was seen less than ten seconds ago, and a session error about
authentication, identity or compatibility stays until something replaces it
(`reported_state_fresh`). The first rests on what the registry holds: a persisted snapshot always
says when its machine was seen (`RemoteFleet.Stamped`).
-/

namespace Rackio

open Lts

/-- The states of a machine that is there. -/
def NodeState.alive : NodeState → Bool
  | .healthy | .warning | .critical | .degraded => true
  | _ => false

/-- The source's `RemoteFleet::snapshots` at a time, each under its endpoint. -/
def RemoteFleet.reported (s : RemoteFleet) (nowMs : Int) : Table String RemoteMachineSnapshot :=
  s.snapshots.map fun snapshot => { snapshot with state := snapshot.stateAt nowMs }

/-- A machine reported alive is stored alive, and was not seen ten seconds ago. -/
theorem RemoteMachineSnapshot.stateAt_alive {snapshot : RemoteMachineSnapshot} {nowMs : Int}
    (h : (snapshot.stateAt nowMs).alive = true) :
    snapshot.state.alive = true ∧
      ∀ t, snapshot.lastSeenMs = some t → nowMs - t < staleAfterMs := by
  unfold RemoteMachineSnapshot.stateAt at h
  split at h
  · next herror =>
    rcases herror with herror | herror
    · rw [herror] at h
      cases h
    · rw [herror] at h
      cases h
  · cases hseen : snapshot.lastSeenMs with
    | none =>
      rw [hseen] at h
      exact ⟨h, nofun⟩
    | some t =>
      rw [hseen] at h
      dsimp only at h
      split at h
      · cases h
      · split at h
        · cases h
        · next hfresh =>
          refine ⟨h, ?_⟩
          rintro _ ⟨⟩
          unfold satSubI64 i64Min i64Max staleAfterMs at *
          omega

/-- A machine that was seen less than ten seconds ago is reported as it is stored. -/
theorem RemoteMachineSnapshot.stateAt_fresh {snapshot : RemoteMachineSnapshot} {nowMs t : Int}
    (hseen : snapshot.lastSeenMs = some t) (hage : nowMs - t < staleAfterMs) :
    snapshot.stateAt nowMs = snapshot.state := by
  have hstale : max (satSubI64 nowMs t) 0 < staleAfterMs := by
    unfold satSubI64 i64Min i64Max staleAfterMs at *
    omega
  have horder : staleAfterMs < offlineAfterMs := by decide
  unfold RemoteMachineSnapshot.stateAt
  split
  · rfl
  · rw [hseen]
    dsimp only
    rw [if_neg (not_le.2 (hstale.trans horder)), if_neg (not_le.2 hstale)]

/-- The state a session error gives whatever the snapshot says. -/
def sessionState : RemoteFleetError → Option NodeState
  | .transport (.remote code _) =>
    if code = "auth_error" then some .authError
    else if code = "incompatible" then some .incompatible
    else none
  | .identityMismatch => some .authError
  | _ => none

/-- Every other error leaves the state to the age of the snapshot. -/
theorem errorState_eq (error : RemoteFleetError) (snapshot : RemoteMachineSnapshot) (nowMs : Int) :
    errorState error snapshot nowMs = (sessionState error).getD (snapshot.stateAt nowMs) := by
  cases error with
  | transport error =>
    cases error with
    | remote code message =>
      simp only [errorState, sessionState]
      split
      · rfl
      · split
        · rfl
        · rfl
    | _ => rfl
  | _ => rfl

/-- It is one of the two states that do not age. -/
theorem sessionState_eq_some {error : RemoteFleetError} {state : NodeState}
    (h : sessionState error = some state) : state = .authError ∨ state = .incompatible := by
  unfold sessionState at h
  split at h
  · split at h
    · cases h
      exact .inl rfl
    · split at h
      · cases h
        exact .inr rfl
      · cases h
  · cases h
    exact .inl rfl
  · cases h

/-! ## What a step writes -/

namespace Monitor

/-- What an event of a task writes into the snapshot of its machine. -/
inductive Writes (task : Task) (entry : RemoteMachineSnapshot) :
    Event → RemoteMachineSnapshot → Prop
  | establish (node : NodeInfo) (health : HealthSnapshot) (path : ConnectionPath) (rttMs : UInt64)
      (nowMs : Int) (hphase : task.phase = .connected) :
      Writes task entry (.establish node health path rttMs nowMs)
        (established entry node health path rttMs nowMs)
  | sample (sample : MetricSample) (shouldPersist : Bool) (nowMs : Int)
      (hphase : task.phase = .streaming) :
      Writes task entry (.sample sample shouldPersist nowMs) (sampled entry sample nowMs)
  | refresh (health : HealthSnapshot) (path : ConnectionPath) (rttMs : UInt64)
      (hphase : task.phase = .streaming) :
      Writes task entry (.refresh health path rttMs) (refreshed entry health path rttMs)
  | heartbeat (nowMs : Int) (hphase : task.phase = .streaming) :
      Writes task entry (.heartbeat nowMs) { entry with lastSeenMs := some nowMs }
  | updateError {error : RemoteFleetError} (nowMs : Int) (hphase : task.phase = .failed error) :
      Writes task entry (.updateError nowMs) (errored entry task.record error nowMs)

/-- A step of a monitor leaves the snapshots alone or writes the one of its machine. -/
theorem Step.writes {v v' : View} {event : Event} (h : Step v event v') :
    v'.snapshots = v.snapshots ∨
      ∃ snapshot, Writes v.task v.entry event snapshot ∧
        v'.snapshots = v.snapshots.insert v.task.endpointId snapshot := by
  cases h with
  | establish node health path rttMs nowMs hphase =>
    exact .inr ⟨_, .establish node health path rttMs nowMs hphase, rfl⟩
  | sample sample nowMs hphase => exact .inr ⟨_, .sample sample false nowMs hphase, rfl⟩
  | samplePersist sample nowMs hphase => exact .inr ⟨_, .sample sample true nowMs hphase, rfl⟩
  | refresh health path rttMs hphase => exact .inr ⟨_, .refresh health path rttMs hphase, rfl⟩
  | heartbeat nowMs hphase hfind =>
    refine .inr ⟨_, .heartbeat nowMs hphase, ?_⟩
    rw [View.entry, hfind]
    rfl
  | updateError nowMs hphase => exact .inr ⟨_, .updateError nowMs hphase, rfl⟩
  | _ => exact .inl rfl

/-- The task has a session that was established. -/
def Phase.Watching : Phase → Prop
  | .streaming | .persisting _ => True
  | _ => False

/-- A session that watches watched before the step, or was established by it. -/
theorem Step.watching {v v' : View} {event : Event} (h : Step v event v')
    (hwatching : v'.task.phase.Watching) :
    v.task.phase.Watching ∨ ∃ node health path rttMs nowMs,
      event = .establish node health path rttMs nowMs := by
  cases h with
  | establish node health path rttMs nowMs hphase => exact .inr ⟨_, _, _, _, _, rfl⟩
  | sample sample nowMs hphase =>
    rw [hphase]
    exact .inl trivial
  | samplePersist sample nowMs hphase =>
    rw [hphase]
    exact .inl trivial
  | persist outcome hphase hupdate =>
    rw [hphase]
    exact .inl trivial
  | persistFailed outcome hphase hupdate =>
    rw [hphase]
    exact .inl trivial
  | refresh health path rttMs hphase =>
    rw [hphase]
    exact .inl trivial
  | heartbeat nowMs hphase hfind =>
    rw [hphase]
    exact .inl trivial
  | heartbeatAbsent nowMs hphase hfind => exact .inl hwatching
  | _ => exact hwatching.elim

end Monitor

namespace RemoteFleet

variable {s t : RemoteFleet} {ev : Event} {e : String}

/-- The snapshot a task finds, or the one it starts from. -/
def entryOf (s : RemoteFleet) (task : Monitor.Task) : RemoteMachineSnapshot :=
  (s.snapshots.find task.endpointId).getD (.offline task.record)

/-- A task finds the snapshot of its machine. -/
theorem entryOf_of_find {task : Monitor.Task} {before : RemoteMachineSnapshot}
    (h : s.snapshots.find task.endpointId = some before) : s.entryOf task = before := by
  rw [entryOf, h]
  rfl

/-- What an event makes of the snapshot of an endpoint. -/
inductive Change (s : RemoteFleet) (e : String) : Event → Option RemoteMachineSnapshot → Prop
  | kept {ev : Event} : Change s e ev (s.snapshots.find e)
  | paired {i : Nat} {record : RemoteMachineRecord} {snapshot : RemoteMachineSnapshot}
      (hi : s.imports.find i = some (.inserted record snapshot)) (he : record.endpointId = e) :
      Change s e (.importStore i) (some snapshot)
  | dropped {r : Nat} (hr : s.removals.find r = some (.joined e)) : Change s e (.removeDrop r) none
  | written {k : Nat} {task : Monitor.Task} {event : Monitor.Event}
      {snapshot : RemoteMachineSnapshot} (hk : s.tasks.find k = some task)
      (he : task.endpointId = e) (hwrites : Monitor.Writes task (s.entryOf task) event snapshot) :
      Change s e (.task k event) (some snapshot)

/-- Every step changes the snapshot of an endpoint in one of these ways. -/
theorem Step.change (h : Step s ev t) (e : String) : Change s e ev (t.snapshots.find e) := by
  cases h with
  | @importStore i record snapshot hi =>
    simp only [Table.find_insert]
    split
    · next heq => exact .paired hi heq.symm
    · exact .kept
  | @removeDrop r e₀ hr =>
    simp only [Table.find_erase]
    split
    · next heq =>
      subst heq
      exact .dropped hr
    · exact .kept
  | @task k task event v hk hstep =>
    rcases hstep.writes with hsame | ⟨snapshot, hwrites, hinsert⟩
    · simp only [hsame]
      exact .kept
    · simp only [hinsert, Table.find_insert]
      split
      · next heq => exact .written hk heq.symm hwrites
      · exact .kept
  | _ => exact .kept

end RemoteFleet

/-! ## What is persisted -/

/-- The persisted snapshot of a record says when its machine was seen. -/
def RemoteMachineRecord.Stamped (record : RemoteMachineRecord) : Prop :=
  ∀ persisted, record.lastSnapshot = some persisted → persisted.lastSeenMs ≠ none

/-- Every record of a registry does. -/
def RemoteMachineRegistry.Stamped (registry : RemoteMachineRegistry) : Prop :=
  ∀ e record, registry.records.find e = some record → record.Stamped

/-- A machine that a record shows alive was seen. -/
theorem RemoteMachineRecord.Stamped.offline {record : RemoteMachineRecord} (h : record.Stamped)
    (halive : (RemoteMachineSnapshot.offline record).state.alive = true) :
    (RemoteMachineSnapshot.offline record).lastSeenMs ≠ none := by
  unfold RemoteMachineSnapshot.offline at *
  cases hlast : record.lastSnapshot with
  | none =>
    rw [hlast] at halive
    cases halive
  | some persisted => exact h persisted hlast

/-- What a task starts from, or is about to persist, says when its machine was seen. -/
structure Monitor.Task.Stamped (task : Monitor.Task) : Prop where
  record : task.record.Stamped
  persisting : ∀ snapshot, task.phase = .persisting snapshot → snapshot.lastSeenMs ≠ none

namespace RemoteFleet

variable {s t : RemoteFleet} {ev : Event} {e : String}

/-- What an import will store says when the machine was seen. -/
def ImportStage.Stamped : ImportStage → Prop
  | .dialing _ => True
  | .inserted record snapshot | .stored record snapshot | .spawned record snapshot _ =>
    record.Stamped ∧ snapshot.lastSeenMs ≠ none

/-- Whatever is persisted, or is to be, says when its machine was seen. -/
structure Stamped (s : RemoteFleet) : Prop where
  registry : s.registry.Stamped
  tasks : ∀ k task, s.tasks.find k = some task → task.Stamped
  imports : ∀ i stage, s.imports.find i = some stage → ImportStage.Stamped stage

/-- The record of a machine that was just paired has no snapshot yet. -/
theorem stamped_importedRecord (bundle : PairingBundle) (answer : PairingAnswer) :
    (importedRecord bundle answer).Stamped := by
  intro persisted h
  cases h

/-- A pairing sees the machine. -/
theorem lastSeenMs_importedSnapshot (bundle : PairingBundle) (answer : PairingAnswer) :
    (importedSnapshot bundle answer).lastSeenMs = some answer.seenAtMs := by
  obtain ⟨_, _, _, _, himported⟩ := importedSnapshot_eq bundle answer
  rw [himported]

/-- That is what the fleet holds of its records and of the snapshots in hand. -/
theorem stamped_iff_holds : s.Stamped ↔
    Holds (·.Stamped) (fun _ _ => True) (fun _ snapshot => snapshot.lastSeenMs ≠ none) s := by
  constructor
  · intro h
    refine ⟨h.registry, fun _ _ _ => trivial, fun k task hk => ?_, fun i stage hi => ?_⟩
    · exact ⟨(h.tasks k task hk).record, (h.tasks k task hk).persisting⟩
    · have hstage := h.imports i stage hi
      cases stage with
      | dialing bundle => trivial
      | _ => exact hstage
  · intro h
    refine ⟨h.registry, fun k task hk => ?_, fun i stage hi => ?_⟩
    · exact ⟨(h.tasks k task hk).record, (h.tasks k task hk).persisting⟩
    · have hstage := h.imports i stage hi
      cases stage with
      | dialing bundle => trivial
      | _ => exact hstage

/-- A snapshot that says when its machine was seen is persisted as one that does. -/
theorem keeps_stamped :
    Keeps (·.Stamped) (fun _ _ => True) (fun _ snapshot => snapshot.lastSeenMs ≠ none) where
  offline _ _ := trivial
  held _ _ _ := trivial
  persisted record snapshot _ hseen := by
    rintro _ ⟨⟩
    exact hseen
  refreshed _ _ _ _ _ _ := trivial
  errored _ _ _ _ _ _ := trivial

/-- Every step keeps what is persisted so. -/
theorem Stamped.step (h : Stamped s) (hstep : Step s ev t) : Stamped t := by
  refine stamped_iff_holds.2 (Holds.step keeps_stamped (stamped_iff_holds.1 h) ?_ hstep)
  cases ev with
  | importInsert i e =>
    intro record snapshot hstage
    cases hstep with
    | importInsert hi hanswer hinsert =>
      rw [Table.find_insert, if_pos rfl] at hstage
      cases hstage
      refine ⟨stamped_importedRecord _ _, ?_⟩
      dsimp only
      rw [lastSeenMs_importedSnapshot]
      exact nofun
  | task k event =>
    intro task hk
    cases event with
    | connect observed persist => exact fun _ _ _ hstored => hstored
    | establish node health path rttMs nowMs => exact fun _ _ => trivial
    | sample sample shouldPersist nowMs =>
      intro snapshot _ hseen
      cases hseen
    | heartbeat nowMs => exact fun _ _ => trivial
    | _ => trivial
  | _ => trivial

/-- A fleet started from a registry that is so. -/
theorem stamped_start {registry : RemoteMachineRegistry} (h : registry.Stamped) :
    Stamped (RemoteFleet.load registry).start :=
  stamped_iff_holds.2 (holds_start keeps_stamped h)

end RemoteFleet

/-- The registries this program writes: the empty one, and the one of every fleet that was started
from such a registry. -/
inductive RemoteMachineRegistry.Written : RemoteMachineRegistry → Prop
  | empty : Written .empty
  | run {registry : RemoteMachineRegistry} {es : List RemoteFleet.Event} {s : RemoteFleet}
      (h : Written registry) (hrun : Run RemoteFleet.Step (RemoteFleet.load registry).start es s) :
      Written s.registry

/-- What the program wrote says when machines were seen. -/
theorem RemoteMachineRegistry.Written.stamped {registry : RemoteMachineRegistry}
    (h : registry.Written) : registry.Stamped := by
  induction h with
  | empty =>
    intro e record hfind
    cases hfind
  | run _ hrun ih =>
    have hfleet := hrun.invariant (RemoteFleet.stamped_start ih) fun _ _ _ h hstep => h.step hstep
    exact hfleet.registry

namespace RemoteFleet

variable {s t : RemoteFleet} {ev : Event} {e : String}

/-! ## Runs without removals -/

/-- The steps of a run in which no machine is removed. -/
def Kept (_ : RemoteFleet) : Event → Prop
  | .removeErase _ _ | .removeRefused _ _ | .removeTake _ | .removeJoin _ | .removeDrop _ => False
  | _ => True

/-- A snapshot that shows its machine alive says when it was seen, and so does every snapshot of a
machine with an established session. -/
structure Fresh (s : RemoteFleet) : Prop where
  stamped : s.Stamped
  shown : ∀ e snapshot, s.snapshots.find e = some snapshot → snapshot.state.alive = true →
    snapshot.lastSeenMs ≠ none
  watched : ∀ k task, s.tasks.find k = some task → task.phase.Watching →
    ∃ snapshot, s.snapshots.find task.endpointId = some snapshot ∧ snapshot.lastSeenMs ≠ none

/-- A snapshot that says when its machine was seen goes on saying it. -/
theorem Change.seen {after : Option RemoteMachineSnapshot} (h : Change s e ev after)
    (hstamped : s.Stamped) (hkept : Kept s ev) {before : RemoteMachineSnapshot}
    (hbefore : s.snapshots.find e = some before) (hseen : before.lastSeenMs ≠ none) :
    ∃ snapshot, after = some snapshot ∧ snapshot.lastSeenMs ≠ none := by
  cases h with
  | kept => exact ⟨before, hbefore, hseen⟩
  | @paired i record snapshot hi he =>
    have hstage : record.Stamped ∧ snapshot.lastSeenMs ≠ none := (hstamped.imports i _ hi :)
    exact ⟨snapshot, rfl, hstage.2⟩
  | dropped hr => exact hkept.elim
  | @written k task event snapshot hk he hwrites =>
    rw [entryOf_of_find (he ▸ hbefore)] at hwrites
    refine ⟨snapshot, rfl, ?_⟩
    cases hwrites with
    | establish node health path rttMs nowMs hphase => exact nofun
    | sample sample shouldPersist nowMs hphase => exact nofun
    | refresh health path rttMs hphase => exact hseen
    | heartbeat nowMs hphase => exact nofun
    | updateError nowMs hphase => exact hseen

/-- The session of a task was established before. -/
def Watched (s : RemoteFleet) (k : Nat) (task : Monitor.Task) : Prop :=
  task.phase.Watching → ∃ before, s.tasks.find k = some before ∧
    before.endpointId = task.endpointId ∧ before.phase.Watching

/-- A session that watches its machine is one that did, or the step established it. -/
theorem Step.watching (h : Step s ev t) {k : Nat} {task : Monitor.Task}
    (hk : t.tasks.find k = some task) :
    s.Watched k task ∨
      ∃ before node health path rttMs nowMs,
        s.tasks.find k = some before ∧ before.endpointId = task.endpointId ∧
          ev = .task k (.establish node health path rttMs nowMs) := by
  have aborted : ∀ k task, s.Watched k task → s.Watched k { task with aborted := true } :=
    fun _ _ h => h
  have old : ∀ k task, s.tasks.find k = some task → s.Watched k task :=
    fun k task hk hwatching => ⟨task, hk, rfl, hwatching⟩
  cases h with
  | @importSpawn i k₀ record snapshot hi hnone =>
    have hnew : s.Watched k₀ ⟨record, .checking, false⟩ := False.elim
    exact .inl (Table.forall_insert old hnew k task hk)
  | importRegister hi => exact .inl (forall_registerTask aborted old _ _ k task hk)
  | removeTake hr hm => exact .inl (forall_abortTask aborted old _ k task hk)
  | @task k₀ task₀ event v hfind hstep =>
    simp only [Table.find_insert] at hk
    split at hk
    · next heq =>
      subst heq
      cases hk
      have hid : v.task.endpointId = task₀.endpointId := hstep.effect.endpointId
      rcases em v.task.phase.Watching with hwatching | hnot
      · rcases hstep.watching hwatching with hbefore | ⟨node, health, path, rttMs, nowMs, rfl⟩
        · exact .inl fun _ => ⟨task₀, hfind, hid.symm, hbefore⟩
        · exact .inr ⟨task₀, node, health, path, rttMs, nowMs, hfind, hid.symm, rfl⟩
      · exact .inl fun hwatching => absurd hwatching hnot
    · exact .inl (old k task hk)
  | @taskStop k₀ task₀ hfind haborted hrunning =>
    have hstopped : s.Watched k₀ { task₀ with phase := .stopped } := False.elim
    exact .inl (Table.forall_insert old hstopped k task hk)
  | _ => exact .inl (old k task hk)

/-- What a step establishes says when the machine was seen. -/
theorem Step.established_seen (h : Step s ev t) {k : Nat} {node : NodeInfo}
    {health : HealthSnapshot} {path : ConnectionPath} {rttMs : UInt64} {nowMs : Int}
    (hev : ev = .task k (.establish node health path rttMs nowMs)) {task : Monitor.Task}
    (hk : s.tasks.find k = some task) :
    ∃ snapshot, t.snapshots.find task.endpointId = some snapshot ∧
      snapshot.lastSeenMs = some nowMs := by
  subst hev
  cases h with
  | task hfind hstep =>
    rw [hk] at hfind
    cases hfind
    cases hstep with
    | establish node health path rttMs nowMs hphase =>
      have hfind : (Monitor.View.write ⟨s.registry, s.snapshots, task⟩
          (Monitor.established (s.entryOf task) node health path rttMs nowMs)
          .streaming).snapshots.find task.endpointId =
            some (Monitor.established (s.entryOf task) node health path rttMs nowMs) := by
        rw [Monitor.View.write, Table.find_insert, if_pos rfl]
      exact ⟨_, hfind, rfl⟩

/-- Every step without a removal keeps the snapshots so. -/
theorem Fresh.step (h : Fresh s) (hkept : Kept s ev) (hstep : Step s ev t) : Fresh t := by
  refine ⟨h.stamped.step hstep, ?_, ?_⟩
  · intro e snapshot hfind halive
    have hchange := hstep.change e
    rw [hfind] at hchange
    generalize hafter : some snapshot = after at hchange
    cases hchange with
    | kept => exact h.shown e snapshot hafter.symm halive
    | @paired i record snapshot₀ hi he =>
      cases hafter
      have hstage : record.Stamped ∧ snapshot.lastSeenMs ≠ none := (h.stamped.imports i _ hi :)
      exact hstage.2
    | dropped hr => exact hkept.elim
    | @written k task event snapshot₀ hk he hwrites =>
      cases hafter
      cases hwrites with
      | establish node health path rttMs nowMs hphase => exact nofun
      | sample sample shouldPersist nowMs hphase => exact nofun
      | refresh health path rttMs hphase =>
        -- an established session has a snapshot, and a refresh leaves its time alone
        obtain ⟨before, hbefore, hseen⟩ := h.watched k task hk (by rw [hphase]; trivial)
        show (s.entryOf task).lastSeenMs ≠ none
        rw [entryOf_of_find hbefore]
        exact hseen
      | heartbeat nowMs hphase => exact nofun
      | @updateError error nowMs hphase =>
        -- an error only shows a machine alive that already was
        show (s.entryOf task).lastSeenMs ≠ none
        have hstate : (s.entryOf task).state.alive = true := by
          have halive : (errorState error (s.entryOf task) nowMs).alive = true := halive
          rw [errorState_eq] at halive
          cases hsession : sessionState error with
          | none =>
            rw [hsession] at halive
            exact (RemoteMachineSnapshot.stateAt_alive halive).1
          | some state =>
            rw [hsession] at halive
            rcases sessionState_eq_some hsession with rfl | rfl
            · cases halive
            · cases halive
        unfold entryOf at hstate ⊢
        cases hbefore : s.snapshots.find task.endpointId with
        | none =>
          rw [hbefore] at hstate
          exact (h.stamped.tasks k task hk).record.offline hstate
        | some before =>
          rw [hbefore] at hstate
          exact h.shown task.endpointId before hbefore hstate
  · intro k task hk hwatching
    rcases hstep.watching hk with hold | ⟨before, node, health, path, rttMs, nowMs, hfind, hid, hev⟩
    · obtain ⟨before, hbefore, hid, hphase⟩ := hold hwatching
      obtain ⟨snapshot, hsnapshot, hseen⟩ := h.watched k before hbefore hphase
      rw [hid] at hsnapshot
      exact (hstep.change task.endpointId).seen h.stamped hkept hsnapshot hseen
    · obtain ⟨snapshot, hsnapshot, hseen⟩ := hstep.established_seen hev hfind
      rw [hid] at hsnapshot
      refine ⟨snapshot, hsnapshot, ?_⟩
      rw [hseen]
      exact nofun

/-- A task that was just spawned has no session. -/
theorem checking_startFrom {k₀ : Nat} {records : List RemoteMachineRecord}
    (h : ∀ k task, s.tasks.find k = some task → ¬ task.phase.Watching) :
    ∀ k task, (s.startFrom k₀ records).tasks.find k = some task → ¬ task.phase.Watching := by
  induction records generalizing s k₀ with
  | nil => exact h
  | cons record records ih =>
    refine ih (forall_registerTask (fun _ _ h => h) ?_ _ _)
    have hnew : ¬ (Monitor.Task.phase ⟨record, .checking, false⟩).Watching := False.elim
    exact Table.forall_insert h hnew

/-- A started fleet shows what its registry holds, and no session is established. -/
theorem fresh_start {registry : RemoteMachineRegistry} (h : registry.Stamped) :
    Fresh (RemoteFleet.load registry).start := by
  have hstart := starting_start registry
  refine ⟨stamped_start h, ?_, ?_⟩
  · intro e snapshot hfind halive
    rw [hstart.snapshots, Table.find_map, Option.map_eq_some_iff] at hfind
    obtain ⟨record, hrecord, rfl⟩ := hfind
    exact (h e record hrecord).offline halive
  · intro k task hk hwatching
    refine absurd hwatching (checking_startFrom ?_ k task hk)
    intro k' task' h
    cases h

/-! ## A session error that stays -/

/-- What may change the state of a machine with a session error: a health answer, a pairing, or
another error about authentication, identity or compatibility. -/
def Replaces (e : String) (s : RemoteFleet) : Event → Prop
  | .importStore i => ∃ stage, s.imports.find i = some stage ∧ stage.endpointId = e
  | .task k (.establish _ _ _ _ _) | .task k (.refresh _ _ _) =>
    ∃ task, s.tasks.find k = some task ∧ task.endpointId = e
  | .task k (.updateError _) =>
    ∃ task error, s.tasks.find k = some task ∧ task.endpointId = e ∧
      task.phase = .failed error ∧ sessionState error ≠ none
  | _ => False

/-- The stored state of a machine. -/
def StoredState (e : String) (state : NodeState) (s : RemoteFleet) : Prop :=
  ∃ snapshot, s.snapshots.find e = some snapshot ∧ snapshot.state = state

/-- A state that does not age stays until it is replaced. -/
theorem StoredState.step {state : NodeState} (h : StoredState e state s)
    (hstate : state = .authError ∨ state = .incompatible) (hkept : Kept s ev)
    (hreplaces : ¬ Replaces e s ev) (hstep : Step s ev t) : StoredState e state t := by
  obtain ⟨before, hbefore, hbeforeState⟩ := h
  have hchange := hstep.change e
  generalize hafter : t.snapshots.find e = after at hchange
  cases hchange with
  | kept => exact ⟨before, hafter.trans hbefore, hbeforeState⟩
  | paired hi he => exact absurd ⟨_, hi, he⟩ hreplaces
  | dropped hr => exact hkept.elim
  | @written k task event snapshot hk he hwrites =>
    rw [entryOf_of_find (he ▸ hbefore)] at hwrites
    refine ⟨snapshot, hafter, ?_⟩
    cases hwrites with
    | establish node health path rttMs nowMs hphase => exact absurd ⟨task, hk, he⟩ hreplaces
    | sample sample shouldPersist nowMs hphase => exact hbeforeState
    | refresh health path rttMs hphase => exact absurd ⟨task, hk, he⟩ hreplaces
    | heartbeat nowMs hphase => exact hbeforeState
    | @updateError error nowMs hphase =>
      show errorState error before nowMs = state
      have hnone : sessionState error = none := by
        by_contra hsome
        exact hreplaces ⟨task, error, hk, he, hphase, hsome⟩
      rw [errorState_eq, hnone, ← hbeforeState]
      exact if_pos (by rw [hbeforeState]; exact hstate)

/-- It is what `snapshots()` reports at any time. -/
theorem StoredState.reported {state : NodeState} (h : StoredState e state s)
    (hstate : state = .authError ∨ state = .incompatible) (nowMs : Int) :
    ∃ snapshot, (s.reported nowMs).find e = some snapshot ∧ snapshot.state = state := by
  obtain ⟨stored, hfind, rfl⟩ := h
  have hreported : (s.reported nowMs).find e =
      some { stored with state := stored.stateAt nowMs } := by
    rw [RemoteFleet.reported, Table.find_map, hfind]
    rfl
  exact ⟨_, hreported, if_pos hstate⟩

/-- A session error stores its state. -/
theorem Step.storedState {k : Nat} {nowMs : Int} (h : Step s (.task k (.updateError nowMs)) t)
    {task : Monitor.Task} (hk : s.tasks.find k = some task) {error : RemoteFleetError}
    (hphase : task.phase = .failed error) {state : NodeState}
    (hstate : sessionState error = some state) : StoredState task.endpointId state t := by
  cases h with
  | task hfind hstep =>
    rw [hk] at hfind
    cases hfind
    cases hstep with
    | @updateError error' nowMs hphase' =>
      have hphase' : task.phase = .failed error' := hphase'
      rw [hphase] at hphase'
      cases hphase'
      have hfind : (Monitor.View.write ⟨s.registry, s.snapshots, task⟩
          (Monitor.errored (s.entryOf task) task.record error nowMs)
          .checking).snapshots.find task.endpointId =
            some (Monitor.errored (s.entryOf task) task.record error nowMs) := by
        rw [Monitor.View.write, Table.find_insert, if_pos rfl]
      refine ⟨_, hfind, ?_⟩
      show errorState error (s.entryOf task) nowMs = state
      rw [errorState_eq, hstate]
      rfl

/-! ## The result -/

/-- In every run without removals from a registry this program wrote, and for every machine: a
`snapshots()` that reports it alive has it seen less than ten seconds before; and once a session
error set its state, every later `snapshots()` reports that state until a health answer, a pairing
or another such error replaces it. -/
theorem reported_state_fresh {registry : RemoteMachineRegistry} (hwritten : registry.Written)
    {es : List Event} {s : RemoteFleet}
    (hrun : Run (Guarded Kept Step) (RemoteFleet.load registry).start es s) (e : String) :
    (∀ nowMs snapshot, (s.reported nowMs).find e = some snapshot → snapshot.state.alive = true →
        ∃ t, snapshot.lastSeenMs = some t ∧ nowMs - t < 10000) ∧
      ∀ k task error state nowMs s₁, s.tasks.find k = some task → task.endpointId = e →
        task.phase = .failed error → sessionState error = some state →
        Step s (.task k (.updateError nowMs)) s₁ →
        ∀ fs t, Run (Guarded (fun s ev => Kept s ev ∧ ¬ Replaces e s ev) Step) s₁ fs t →
          ∀ laterMs, ∃ snapshot, (t.reported laterMs).find e = some snapshot ∧
            snapshot.state = state := by
  have hfresh : Fresh s :=
    hrun.invariant (fresh_start hwritten.stamped) fun _ _ _ h hstep => h.step hstep.1 hstep.2
  constructor
  · intro nowMs snapshot hfind halive
    rw [reported, Table.find_map, Option.map_eq_some_iff] at hfind
    obtain ⟨stored, hstored, rfl⟩ := hfind
    obtain ⟨hstate, hage⟩ := RemoteMachineSnapshot.stateAt_alive halive
    obtain ⟨t, ht⟩ := Option.ne_none_iff_exists'.1 (hfresh.shown e stored hstored hstate)
    exact ⟨t, ht, hage t ht⟩
  · rintro k task error state nowMs s₁ hk rfl hphase hsession hstep fs t hlater laterMs
    have hkind := sessionState_eq_some hsession
    have hstored : StoredState task.endpointId state t :=
      hlater.invariant (hstep.storedState hk hphase hsession) fun _ _ _ h hnext =>
        h.step hkind hnext.1.1 hnext.1.2 hnext.2
    exact hstored.reported hkind laterMs

/-- The machine of one import, whose identity does not match when it is dialled again. -/
def mismatched : RemoteFleet :=
  { imported with
    tasks := Table.empty.insert 0 ⟨machineRecord, .failed .identityMismatch, false⟩ }

/-- After one import the machine is degraded as of its pairing, and after a session with another
identity it stays an authentication error. -/
theorem reported_state_fresh_imported :
    RemoteMachineRegistry.empty.Written ∧
      Run (Guarded Kept Step) (RemoteFleet.load .empty).start
        (importEvents ++ [.task 0 .check, .task 0 (.fail .identityMismatch)]) mismatched ∧
      (∃ snapshot t, (mismatched.reported 5000).find machineBundle.endpointId = some snapshot ∧
        snapshot.state = .degraded ∧ snapshot.lastSeenMs = some t ∧ 5000 - t < 10000) ∧
      ∃ s₁ snapshot, Step mismatched (.task 0 (.updateError 5000)) s₁ ∧
        (s₁.reported 90000).find machineBundle.endpointId = some snapshot ∧
        snapshot.state = .authError := by
  have hrun : Run (Guarded Kept Step) (RemoteFleet.load .empty).start
      (importEvents ++ [.task 0 .check, .task 0 (.fail .identityMismatch)]) mismatched := by
    refine run_cons_iff.2
      ⟨_, ⟨trivial, @Step.importCheck _ 0 machineBundle 0 (.ok ()) rfl rfl rfl⟩, ?_⟩
    refine run_cons_iff.2 ⟨_, ⟨trivial, @Step.importInsert _ 0 machineBundle machineAnswer (.ok ())
      _ rfl checkAnswer_machine rfl⟩, ?_⟩
    refine run_cons_iff.2 ⟨_, ⟨trivial, .importStore rfl⟩, ?_⟩
    refine run_cons_iff.2 ⟨_, ⟨trivial, .importSpawn rfl rfl⟩, ?_⟩
    refine run_cons_iff.2 ⟨_, ⟨trivial, .importRegister rfl⟩, ?_⟩
    refine run_cons_iff.2 ⟨_, ⟨trivial, .task rfl (.checkPaired rfl (by decide))⟩, ?_⟩
    exact run_cons_iff.2
      ⟨_, ⟨trivial, .task rfl (.fail .identityMismatch (.inl rfl))⟩, .nil⟩
  have hfresh := reported_state_fresh .empty hrun machineBundle.endpointId
  refine ⟨.empty, hrun, ?_, ?_⟩
  · have hfind : (mismatched.reported 5000).find machineBundle.endpointId =
        some machineSnapshot := by decide
    obtain ⟨t, hseen, hage⟩ := hfresh.1 5000 machineSnapshot hfind (by decide)
    exact ⟨machineSnapshot, t, hfind, by decide, hseen, hage⟩
  · have hstep : Step mismatched (.task 0 (.updateError 5000)) _ :=
      .task rfl (.updateError 5000 rfl)
    obtain ⟨snapshot, hfind, hstate⟩ := hfresh.2 0 _ .identityMismatch .authError 5000 _ rfl rfl rfl
      rfl hstep [] _ .nil 90000
    exact ⟨_, snapshot, hstep, hfind, hstate⟩

end RemoteFleet

end Rackio
