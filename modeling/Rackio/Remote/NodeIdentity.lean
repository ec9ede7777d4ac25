import Rackio.Remote.Freshness

/-!
# The node id of a paired machine

A pairing bundle pins the node id of its machine in the record of its endpoint. A session asks for
the node twice: `connect_record` compares the first answer with the record, and `monitor_session`
shows the second one without a look at it (`second_answer_shown`). The pin may also move under a
snapshot, when two imports of one endpoint with two node ids are under way at once.

`Pins` is the condition on the steps under which neither happens, and every snapshot then shows the
node id of its record (`node_identity_pinned`). `SessionStep` are the steps of the fleet without
removals, with what the peer answers to each of the two requests.
-/

namespace Rackio

open Lts

/-- The checks of the source's `connect_record`, with the identity of the connection and the answer
to its `GetNodeInfo`. -/
def connectRecord (record : RemoteMachineRecord) (remoteId : String)
    (answer : Except RemoteFleetError NodeInfo) : Except RemoteFleetError Unit :=
  if remoteId ≠ record.endpointId then .error .identityMismatch
  else match answer with
    | .error error => .error error
    | .ok node =>
      if node.nodeId ≠ record.node.nodeId then .error .identityMismatch else .ok ()

/-- The registry pins a node id to an endpoint. -/
def RemoteMachineRegistry.Pinned (registry : RemoteMachineRegistry) (e : String) (nodeId : Uuid) :
    Prop :=
  ∃ record, registry.records.find e = some record ∧ record.node.nodeId = nodeId

/-- A stored record pins its node id. -/
theorem RemoteMachineRegistry.pinned_store (registry : RemoteMachineRegistry)
    (record : RemoteMachineRecord) :
    (registry.store record).Pinned record.endpointId record.node.nodeId :=
  ⟨record, by rw [store, Table.find_insert, if_pos rfl], rfl⟩

/-- A record with the node id that is pinned to its endpoint may be stored. -/
theorem RemoteMachineRegistry.Pinned.store {registry : RemoteMachineRegistry} {e : String}
    {nodeId : Uuid} {record : RemoteMachineRecord} (h : registry.Pinned e nodeId)
    (hsame : e = record.endpointId → record.node.nodeId = nodeId) :
    (registry.store record).Pinned e nodeId := by
  by_cases he : e = record.endpointId
  · rw [he, ← hsame he]
    exact registry.pinned_store record
  · obtain ⟨pinned, hpinned, hid⟩ := h
    refine ⟨pinned, ?_, hid⟩
    rw [RemoteMachineRegistry.store, Table.find_insert, if_neg he, hpinned]

/-- A change to a record that keeps its node keeps every pin. -/
theorem RemoteMachineRegistry.Pinned.update {registry registry' : RemoteMachineRegistry}
    {persist : Except RemoteFleetError Unit} {endpointId e : String} {nodeId : Uuid}
    {change : RemoteMachineRecord → RemoteMachineRecord} (h : registry.Pinned e nodeId)
    (hupdate : registry.update persist endpointId change = .ok registry')
    (hchange : ∀ record, (change record).node = record.node) : registry'.Pinned e nodeId := by
  obtain ⟨stored, hfind, hkey, rfl⟩ := RemoteMachineRegistry.update_eq_ok hupdate
  refine h.store fun he => ?_
  obtain ⟨record, hrecord, hid⟩ := h
  have he : e = endpointId := he.trans hkey
  rw [he, hfind] at hrecord
  cases hrecord
  show (change stored).node.nodeId = nodeId
  rw [hchange, hid]

/-- A step of a monitor keeps every pin. -/
theorem Monitor.Step.pinned {v v' : Monitor.View} {event : Monitor.Event}
    (h : Monitor.Step v event v') {e : String} {nodeId : Uuid}
    (hpinned : v.registry.Pinned e nodeId) : v'.registry.Pinned e nodeId := by
  cases h with
  | connect observed persist hphase hrefresh =>
    rcases Monitor.refreshDirectAddresses_cases hrefresh with ⟨-, rfl⟩ | ⟨-, hupdate⟩
    · exact hpinned
    · exact hpinned.update hupdate fun _ => rfl
  | persist outcome hphase hupdate => exact hpinned.update hupdate fun _ => rfl
  | _ => exact hpinned

namespace RemoteFleet

/-! ## Sessions -/

/-- What happens to a fleet whose machines are not removed. -/
inductive SessionEvent
  /-- The answer to `connect_record`. -/
  | firstAnswer (k : Nat) (remoteId : String) (answer : Except RemoteFleetError NodeInfo)
  /-- The answer to `monitor_session`. -/
  | secondAnswer (k : Nat) (node : NodeInfo)
  | other (ev : Event)

/-- An event that is not about one of the two answers, and no removal. -/
def Unasked (s : RemoteFleet) : Event → Prop
  | .task _ (.connect _ _) | .task _ (.establish _ _ _ _ _) => False
  | ev => Kept s ev

/-- The steps of the fleet, with the answers of the machines. -/
inductive SessionStep (s : RemoteFleet) : SessionEvent → RemoteFleet → Prop
  | accepted {k : Nat} {task : Monitor.Task} {remoteId : String}
      {answer : Except RemoteFleetError NodeInfo} {observed : List SocketAddr}
      {persist : Except RemoteFleetError Unit} {t : RemoteFleet} (hk : s.tasks.find k = some task)
      (hconnect : connectRecord task.record remoteId answer = .ok ())
      (hstep : Step s (.task k (.connect observed persist)) t) :
      SessionStep s (.firstAnswer k remoteId answer) t
  | refused {k : Nat} {task : Monitor.Task} {remoteId : String}
      {answer : Except RemoteFleetError NodeInfo} {error : RemoteFleetError} {t : RemoteFleet}
      (hk : s.tasks.find k = some task) (hphase : task.phase = .dialing)
      (hconnect : connectRecord task.record remoteId answer = .error error)
      (hstep : Step s (.task k (.fail error)) t) : SessionStep s (.firstAnswer k remoteId answer) t
  | established {k : Nat} {node : NodeInfo} {health : HealthSnapshot} {path : ConnectionPath}
      {rttMs : UInt64} {nowMs : Int} {t : RemoteFleet}
      (hstep : Step s (.task k (.establish node health path rttMs nowMs)) t) :
      SessionStep s (.secondAnswer k node) t
  | other {ev : Event} {t : RemoteFleet} (hunasked : Unasked s ev) (hstep : Step s ev t) :
      SessionStep s (.other ev) t

/-- The condition on the steps: the second answer of a session carries the node id of its record,
and no import replaces a record of another node id. -/
def Pins (s : RemoteFleet) : SessionEvent → Prop
  | .secondAnswer k node =>
    ∀ task, s.tasks.find k = some task → node.nodeId = task.record.node.nodeId
  | .other (.importInsert i e) => ∀ bundle record, s.imports.find i = some (.dialing bundle) →
    s.registry.records.find e = some record → record.node.nodeId = bundle.nodeId
  | _ => True

/-- Every snapshot shows the node id of the record of its endpoint. -/
def ShowsPinned (s : RemoteFleet) : Prop :=
  ∀ e snapshot, s.snapshots.find e = some snapshot →
    ∃ record, s.registry.records.find e = some record ∧ snapshot.node.nodeId = record.node.nodeId

variable {s t : RemoteFleet} {ev : Event} {e : String} {nodeId : Uuid}

/-- An import that passes its checks has an accepted answer with the ids of its bundle. -/
theorem checkAnswer_eq_ok {bundle : PairingBundle} {answer : PairingAnswer}
    (h : checkAnswer bundle answer = .ok ()) :
    answer.remoteId = bundle.endpointId ∧ answer.node.nodeId = bundle.nodeId ∧
      answer.paired = some ⟨true, bundle.nodeId.toString, bundle.endpointId⟩ := by
  unfold checkAnswer at h
  split at h
  · cases h
  · next hremote =>
    split at h
    · cases h
    · next paired hpaired =>
      split at h
      · cases h
      · next haccepted =>
        split at h
        · cases h
        · next hids =>
          split at h
          · cases h
          · next hid =>
            obtain ⟨accepted, nodeId, endpointId⟩ := paired
            obtain ⟨hnodeId, hendpointId⟩ := not_or.1 hids
            have haccepted : accepted = true := by simpa using haccepted
            have hnodeId : nodeId = bundle.nodeId.toString := not_not.1 hnodeId
            have hendpointId : endpointId = bundle.endpointId := not_not.1 hendpointId
            refine ⟨not_not.1 hremote, not_not.1 hid, ?_⟩
            rw [hpaired, haccepted, hnodeId, hendpointId]

/-- A step that removes nothing keeps every pin, when an import replaces none of another node id. -/
theorem Step.pinned (h : Step s ev t) (hkept : Kept s ev)
    (hreplace : ∀ i e, ev = .importInsert i e → Pins s (.other ev))
    (hpinned : s.registry.Pinned e nodeId) : t.registry.Pinned e nodeId := by
  cases h with
  | @importInsert i bundle answer persist registry hi hanswer hinsert =>
    rw [RemoteMachineRegistry.insert_eq_ok hinsert]
    refine hpinned.store fun he => ?_
    obtain ⟨record, hrecord, hid⟩ := hpinned
    have he : e = bundle.endpointId := he
    rw [he] at hrecord
    have hsame := hreplace i _ rfl bundle record hi hrecord
    rw [← hid, hsame]
    exact (checkAnswer_eq_ok hanswer).2.1
  | removeErase => exact hkept.elim
  | task hk hstep => exact hstep.pinned hpinned
  | _ => exact hpinned

/-- A step of a session is a step of the fleet that removes nothing. -/
theorem SessionStep.step {ev : SessionEvent} (h : SessionStep s ev t) :
    ∃ ev', Step s ev' t ∧ Kept s ev' ∧ ∀ i e, ev' = .importInsert i e → ev = .other ev' := by
  cases h with
  | accepted hk hconnect hstep => exact ⟨_, hstep, trivial, by rintro _ _ ⟨⟩⟩
  | refused hk hphase hconnect hstep => exact ⟨_, hstep, trivial, by rintro _ _ ⟨⟩⟩
  | established hstep => exact ⟨_, hstep, trivial, by rintro _ _ ⟨⟩⟩
  | @other ev t hunasked hstep =>
    refine ⟨_, hstep, ?_, fun _ _ _ => rfl⟩
    unfold Unasked at hunasked
    split at hunasked
    · cases hunasked
    · cases hunasked
    · exact hunasked

/-- A step that meets the condition keeps every pin. -/
theorem SessionStep.pinned {ev : SessionEvent} (h : SessionStep s ev t) (hpins : Pins s ev)
    (hpinned : s.registry.Pinned e nodeId) : t.registry.Pinned e nodeId := by
  obtain ⟨ev', hstep, hkept, hother⟩ := h.step
  refine hstep.pinned hkept (fun i e hev => ?_) hpinned
  exact hother i e hev ▸ hpins

/-! ## The invariant -/

/-- The node id of a record is pinned to its endpoint. -/
def RecordPinned (registry : RemoteMachineRegistry) (record : RemoteMachineRecord) : Prop :=
  registry.Pinned record.endpointId record.node.nodeId

/-- The node id that a snapshot shows is pinned to its endpoint. -/
def SnapshotPinned (registry : RemoteMachineRegistry) (e : String)
    (snapshot : RemoteMachineSnapshot) : Prop :=
  registry.Pinned e snapshot.node.nodeId

/-- Every record and every snapshot of the fleet has the node id that is pinned to its endpoint. -/
def Identified (s : RemoteFleet) : Prop :=
  Holds (RecordPinned s.registry) (SnapshotPinned s.registry) (SnapshotPinned s.registry) s

/-- The snapshot of a record shows its node. -/
theorem node_offline (record : RemoteMachineRecord) :
    (RemoteMachineSnapshot.offline record).node = record.node := by
  unfold RemoteMachineSnapshot.offline
  split
  · rfl
  · rfl

/-- Where records and snapshots are only moved, their node ids are. -/
theorem keeps_pinned (registry : RemoteMachineRegistry) :
    Keeps (RecordPinned registry) (SnapshotPinned registry) (SnapshotPinned registry) where
  offline record h := by
    rw [SnapshotPinned, node_offline]
    exact h
  held _ _ h := h
  persisted _ _ h _ := h
  refreshed _ _ _ _ _ h := h
  errored _ _ _ _ _ h := h

/-! ## Runs -/

/-- What an import brings in has the node id that the import pins. -/
theorem Step.importInsert_pinned {i : Nat} (h : Step s (.importInsert i e) t) :
    ∃ bundle record snapshot, s.imports.find i = some (.dialing bundle) ∧
      t.imports.find i = some (.inserted record snapshot) ∧ record.endpointId = e ∧
      record.node.nodeId = bundle.nodeId ∧ snapshot.node = record.node ∧
      t.registry.Pinned e bundle.nodeId := by
  cases h with
  | @importInsert i bundle answer persist registry hi hanswer hinsert =>
    have hid : (importedRecord bundle answer).node.nodeId = bundle.nodeId :=
      (checkAnswer_eq_ok hanswer).2.1
    obtain ⟨_, _, _, _, himported⟩ := importedSnapshot_eq bundle answer
    refine ⟨bundle, importedRecord bundle answer, importedSnapshot bundle answer, hi, ?_, rfl, hid,
      by rw [himported]; rfl, ?_⟩
    · exact (Table.find_insert _ _ _ _).trans (if_pos rfl)
    · rw [RemoteMachineRegistry.insert_eq_ok hinsert, ← hid]
      exact s.registry.pinned_store _

/-- A step that meets the condition brings in pinned node ids only. -/
theorem SessionStep.admits {ev : SessionEvent} (h : SessionStep s ev t) (hpins : Pins s ev)
    (hidentified : Identified s) : ∃ ev', Step s ev' t ∧
      Admits (RecordPinned t.registry) (SnapshotPinned t.registry) (SnapshotPinned t.registry)
        s ev' t := by
  cases h with
  | accepted hk hconnect hstep => exact ⟨_, hstep, fun _ _ _ _ _ hstored => hstored⟩
  | refused hk hphase hconnect hstep => exact ⟨_, hstep, fun _ _ => trivial⟩
  | @established k node health path rttMs nowMs t hstep =>
    refine ⟨_, hstep, fun task hk snapshot _ => ?_⟩
    have hrecord := (hidentified.tasks k task hk).record
    have hid : node.nodeId = task.record.node.nodeId := hpins task hk
    show t.registry.Pinned task.endpointId node.nodeId
    rw [hid]
    exact (SessionStep.established hstep).pinned hpins hrecord
  | @other ev t hunasked hstep =>
    refine ⟨_, hstep, ?_⟩
    cases ev with
    | importInsert i e =>
      intro record snapshot hstage
      obtain ⟨bundle, _, _, -, hstage', he, hid, hnode, hpinned⟩ := hstep.importInsert_pinned
      cases hstage.symm.trans hstage'
      rw [← he, ← hid] at hpinned
      refine ⟨hpinned, ?_⟩
      rw [SnapshotPinned, hnode]
      exact hpinned
    | task k event =>
      intro task hk
      cases event with
      | connect observed persist => exact hunasked.elim
      | establish node health path rttMs nowMs => exact hunasked.elim
      | sample sample shouldPersist nowMs => exact fun _ hsnapshot => hsnapshot
      | heartbeat nowMs => exact fun _ hsnapshot => hsnapshot
      | _ => trivial
    | _ => trivial

/-- A step that meets the condition keeps the node ids. -/
theorem Identified.step {ev : SessionEvent} (h : Identified s)
    (hstep : Guarded Pins SessionStep s ev t) : Identified t := by
  obtain ⟨hpins, hstep⟩ := hstep
  obtain ⟨ev', hstep', hadmits⟩ := hstep.admits hpins h
  have hlater : Holds (RecordPinned t.registry) (SnapshotPinned t.registry)
      (SnapshotPinned t.registry) s :=
    h.mono (fun _ => hstep.pinned hpins) (fun _ _ => hstep.pinned hpins)
      fun _ _ => hstep.pinned hpins
  exact Holds.step (keeps_pinned t.registry) hlater hadmits hstep'

/-- A started fleet has the node ids of its registry. -/
theorem identified_start (registry : RemoteMachineRegistry) :
    Identified (RemoteFleet.load registry).start := by
  have hregistry : (RemoteFleet.load registry).start.registry = registry :=
    (starting_start registry).registry
  unfold Identified
  rw [hregistry]
  refine holds_start (keeps_pinned registry) fun e record hfind => ?_
  exact ⟨record, (registry.keyed e record hfind).symm ▸ hfind, rfl⟩

/-- The node ids of such a fleet are shown. -/
theorem Identified.showsPinned (h : Identified s) : ShowsPinned s := by
  intro e snapshot hfind
  obtain ⟨record, hrecord, hid⟩ := h.snapshots e snapshot hfind
  exact ⟨record, hrecord, hid.symm⟩

/-! ## The result -/

/-- An answer of another node ends the session with a mismatch, whoever is connected. -/
theorem connectRecord_other_node {record : RemoteMachineRecord} {remoteId : String}
    {node : NodeInfo}
    (h : node.nodeId ≠ record.node.nodeId) :
    connectRecord record remoteId (.ok node) = .error .identityMismatch := by
  unfold connectRecord
  split
  · rfl
  · dsimp only
    rw [if_pos h]

/-- An answer of another node ends an import that would pass its checks otherwise. -/
theorem checkAnswer_other_node {bundle : PairingBundle} {answer : PairingAnswer} {node : NodeInfo}
    (hanswer : checkAnswer bundle answer = .ok ()) (hnode : node.nodeId ≠ bundle.nodeId) :
    checkAnswer bundle { answer with node := node } = .error .identityMismatch := by
  obtain ⟨hremote, -, hpaired⟩ := checkAnswer_eq_ok hanswer
  simp [checkAnswer, hremote, hpaired, hnode]

/-- A first answer of another node shows nothing. -/
theorem SessionStep.refused_other_node {k : Nat} {task : Monitor.Task} {remoteId : String}
    {node : NodeInfo} (h : SessionStep s (.firstAnswer k remoteId (.ok node)) t)
    (hk : s.tasks.find k = some task) (hnode : node.nodeId ≠ task.record.node.nodeId) :
    t.snapshots = s.snapshots ∧ ∃ task', t.tasks.find k = some task' ∧
      task'.record = task.record ∧ task'.phase = .failed .identityMismatch := by
  cases h with
  | accepted hk' hconnect hstep =>
    cases hk.symm.trans hk'
    rw [connectRecord_other_node hnode] at hconnect
    cases hconnect
  | refused hk' hphase hconnect hstep =>
    cases hk.symm.trans hk'
    rw [connectRecord_other_node hnode] at hconnect
    cases hconnect
    cases hstep with
    | task hk'' hmonitor =>
      cases hk.symm.trans hk''
      cases hmonitor with
      | fail error hphase' =>
        refine ⟨rfl, { task with phase := .failed .identityMismatch }, ?_, rfl, rfl⟩
        exact (Table.find_insert _ _ _ _).trans (if_pos rfl)

/-- A second answer is shown, whatever node it is of. -/
theorem SessionStep.shows_second_answer {k : Nat} {task : Monitor.Task} {node : NodeInfo}
    (h : SessionStep s (.secondAnswer k node) t) (hk : s.tasks.find k = some task) :
    t.registry = s.registry ∧
      ∃ snapshot, t.snapshots.find task.endpointId = some snapshot ∧ snapshot.node = node := by
  cases h with
  | @established k node health path rttMs nowMs t hstep =>
    cases hstep with
    | task hk' hmonitor =>
      cases hk.symm.trans hk'
      cases hmonitor with
      | establish _ _ _ _ _ hphase =>
        let v : Monitor.View := ⟨s.registry, s.snapshots, task⟩
        refine ⟨rfl, Monitor.established v.entry node health path rttMs nowMs, ?_, rfl⟩
        exact (Table.find_insert _ _ _ _).trans (if_pos rfl)

/-- A second answer keeps every snapshot at its record just when it is of the node of the record. -/
theorem Identified.secondAnswer_iff {k : Nat} {task : Monitor.Task} {node : NodeInfo}
    (h : Identified s) (hk : s.tasks.find k = some task)
    (hstep : SessionStep s (.secondAnswer k node) t) :
    ShowsPinned t ↔ node.nodeId = task.record.node.nodeId := by
  constructor
  · intro hshows
    obtain ⟨hregistry, snapshot, hfind, rfl⟩ := hstep.shows_second_answer hk
    obtain ⟨record, hrecord, hid⟩ := hshows _ snapshot hfind
    obtain ⟨record', hrecord', hid'⟩ := (h.tasks k task hk).record
    rw [hregistry] at hrecord
    cases hrecord.symm.trans hrecord'
    rw [hid, hid']
  · intro hid
    have hpins : Pins s (.secondAnswer k node) := by
      intro task' hk'
      cases hk.symm.trans hk'
      exact hid
    exact (h.step ⟨hpins, hstep⟩).showsPinned

/-- In every run whose steps meet the condition, from any registry: every snapshot shows the node id
of the record of its endpoint, and goes on to do so after a second answer just when the answer meets
the condition; a first answer of another node ends its session with a mismatch and shows nothing; an
answer of another node ends an import with a mismatch; an import pins the node id of its bundle; and
a pinned node id stays. -/
theorem node_identity_pinned {registry : RemoteMachineRegistry} {es : List SessionEvent}
    {s : RemoteFleet}
    (hrun : Run (Guarded Pins SessionStep) (RemoteFleet.load registry).start es s) :
    ShowsPinned s ∧
      (∀ k task node t, s.tasks.find k = some task → SessionStep s (.secondAnswer k node) t →
        (ShowsPinned t ↔ node.nodeId = task.record.node.nodeId)) ∧
      (∀ k task remoteId node t, s.tasks.find k = some task →
        node.nodeId ≠ task.record.node.nodeId →
        SessionStep s (.firstAnswer k remoteId (.ok node)) t →
        t.snapshots = s.snapshots ∧ ∃ task', t.tasks.find k = some task' ∧
          task'.record = task.record ∧ task'.phase = .failed .identityMismatch) ∧
      (∀ bundle answer node, checkAnswer bundle answer = .ok () → node.nodeId ≠ bundle.nodeId →
        checkAnswer bundle { answer with node := node } = .error .identityMismatch) ∧
      (∀ i bundle t, s.imports.find i = some (.dialing bundle) →
        SessionStep s (.other (.importInsert i bundle.endpointId)) t →
        t.registry.Pinned bundle.endpointId bundle.nodeId) ∧
      ∀ fs t e nodeId, Run (Guarded Pins SessionStep) s fs t → s.registry.Pinned e nodeId →
        t.registry.Pinned e nodeId := by
  have hidentified : Identified s :=
    hrun.invariant (identified_start registry) fun _ _ _ h hstep => h.step hstep
  refine ⟨hidentified.showsPinned, ?_, ?_, ?_, ?_, ?_⟩
  · intro k task node t hk hstep
    exact hidentified.secondAnswer_iff hk hstep
  · intro k task remoteId node t hk hnode hstep
    exact hstep.refused_other_node hk hnode
  · intro bundle answer node hanswer hnode
    exact checkAnswer_other_node hanswer hnode
  · intro i bundle t hi hstep
    cases hstep with
    | other hunasked hstep =>
      obtain ⟨bundle', record, snapshot, hi', -, -, -, -, hpinned⟩ := hstep.importInsert_pinned
      cases hi.symm.trans hi'
      exact hpinned
  · intro fs t e nodeId hlater hpinned
    exact hlater.invariant (I := fun s => s.registry.Pinned e nodeId) hpinned
      fun _ _ _ h hstep => hstep.2.pinned hstep.1 h

/-! ## One session -/

/-- The steps of an import and of a session up to its first answer. -/
def sessionEvents : List SessionEvent :=
  importEvents.map .other ++ [.other (.task 0 .check),
    .firstAnswer 0 machineBundle.endpointId (.ok machineAnswer.node)]

/-- The fleet after the first answer. -/
def connected : RemoteFleet :=
  { imported with tasks := Table.empty.insert 0 ⟨machineRecord, .connected, false⟩ }

/-- The snapshot of the machine after the second answer. -/
def sessionSnapshot (node : NodeInfo) : RemoteMachineSnapshot :=
  Monitor.established machineSnapshot node default .lanDirect 3 700

/-- The fleet after the second answer. -/
def inSession (node : NodeInfo) : RemoteFleet :=
  { imported with
    snapshots := Table.empty.insert machineBundle.endpointId (sessionSnapshot node)
    tasks := Table.empty.insert 0 ⟨machineRecord, .streaming, false⟩ }

/-- The machine passes the checks of `connect_record`. -/
theorem connectRecord_machine :
    connectRecord machineRecord machineBundle.endpointId (.ok machineAnswer.node) = .ok () := by
  simp [connectRecord, machineRecord, importedRecord]

/-- The session up to its first answer. -/
theorem run_connected :
    Run (Guarded Pins SessionStep) (RemoteFleet.load .empty).start sessionEvents connected := by
  refine run_cons_iff.2 ⟨_, ⟨trivial, .other trivial
    (@Step.importCheck _ 0 machineBundle 0 (.ok ()) rfl rfl rfl)⟩, ?_⟩
  refine run_cons_iff.2 ⟨_, ⟨?_, .other trivial (@Step.importInsert _ 0 machineBundle machineAnswer
    (.ok ()) _ rfl checkAnswer_machine rfl)⟩, ?_⟩
  · intro bundle record hi hfind
    cases hfind
  refine run_cons_iff.2 ⟨_, ⟨trivial, .other trivial (.importStore rfl)⟩, ?_⟩
  refine run_cons_iff.2 ⟨_, ⟨trivial, .other trivial (.importSpawn rfl rfl)⟩, ?_⟩
  refine run_cons_iff.2 ⟨_, ⟨trivial, .other trivial (.importRegister rfl)⟩, ?_⟩
  refine run_cons_iff.2
    ⟨_, ⟨trivial, .other trivial (.task rfl (.checkPaired rfl (by decide)))⟩, ?_⟩
  exact run_cons_iff.2 ⟨_, ⟨trivial, @SessionStep.accepted _ _ _ _ _ [] (.ok ()) _ rfl
    connectRecord_machine (.task rfl (.connect [] (.ok ()) rfl rfl))⟩, .nil⟩

/-- The second answer. -/
theorem step_inSession (node : NodeInfo) :
    SessionStep connected (.secondAnswer 0 node) (inSession node) := by
  have hstep : Step connected (.task 0 (.establish node default .lanDirect 3 700)) _ :=
    .task rfl (.establish node default .lanDirect 3 700 rfl)
  exact .established hstep

/-- A machine that answers twice with its node shows the node id of its record. -/
theorem node_identity_pinned_session :
    Run (Guarded Pins SessionStep) (RemoteFleet.load .empty).start
        (sessionEvents ++ [.secondAnswer 0 machineAnswer.node]) (inSession machineAnswer.node) ∧
      (inSession machineAnswer.node).snapshots.contains machineBundle.endpointId = true ∧
      ShowsPinned (inSession machineAnswer.node) := by
  have hpins : Pins connected (.secondAnswer 0 machineAnswer.node) := by
    intro task hk
    cases hk
    rfl
  have hrun := run_connected.snoc ⟨hpins, step_inSession machineAnswer.node⟩
  exact ⟨hrun, by decide, (node_identity_pinned hrun).1⟩

/-- The paired machine answers the second request of a session with another node id, and the fleet
shows it. -/
theorem second_answer_shown :
    ¬ ∀ (registry : RemoteMachineRegistry) (es : List SessionEvent) (s : RemoteFleet),
      Run SessionStep (RemoteFleet.load registry).start es s → ShowsPinned s := by
  intro h
  let node : NodeInfo := { machineAnswer.node with nodeId := ⟨1⟩ }
  have hrun := run_connected.unguard.snoc (step_inSession node)
  obtain ⟨record, hrecord, hid⟩ := h .empty _ _ hrun machineBundle.endpointId _ rfl
  cases hrecord
  cases hid

end RemoteFleet

end Rackio
