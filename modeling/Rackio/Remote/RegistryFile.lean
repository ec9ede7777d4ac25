import Rackio.Lib.Mirror
import Rackio.Remote.Registry

/-!
# The registry of paired machines and its file

`RemoteMachineRegistry` of `apps/agent/src/remote/registry.rs` as it is kept: a map in memory and
the file it was loaded from. Each of its four calls takes the write lock, makes the next map out of
a clone, persists it and puts it in place of the old one, so a call is a transaction of a `Mirror`.

A loaded file may hold a record under another endpoint than its own; `machine_file_agrees` does not
ask. When none does, the map in memory is the `RemoteMachineRegistry` the fleet works with
(`registry_insert`, `registry_update`, `registry_remove`).
-/

namespace Rackio

open Lts

/-- The source's `RemoteMachineRegistry`, with the file at its path. -/
abbrev MachineFile (δ : Type) : Type := Mirror (Table String RemoteMachineRecord) δ

namespace MachineFile

section
variable {δ : Type} (json : Serializer (Table String RemoteMachineRecord) δ)

/-- The file of the registry: `serde_json` as `json`, and an empty map where there is none. -/
def format : FileFormat (Table String RemoteMachineRecord) δ RemoteFleetError :=
  .of json .empty .io .json

/-- The source's `RemoteMachineRegistry::load`. -/
def load (path : FileContent δ) : Except RemoteFleetError (MachineFile δ) :=
  Mirror.load (format json) path

/-- The map of the source's `insert`. -/
def insertNext (record : RemoteMachineRecord) (records : Table String RemoteMachineRecord) :
    Except RemoteFleetError (Unit × Option (Table String RemoteMachineRecord)) :=
  .ok ((), some (records.insert record.endpointId record))

/-- The map of `update_addresses` and `update_snapshot`, with the change to the record. -/
def updateNext (endpointId : String) (change : RemoteMachineRecord → RemoteMachineRecord)
    (records : Table String RemoteMachineRecord) :
    Except RemoteFleetError (Unit × Option (Table String RemoteMachineRecord)) :=
  match records.find endpointId with
  | none => .error .unknownMachine
  | some record => .ok ((), some (records.insert endpointId (change record)))

/-- The map of the source's `update_addresses`. -/
def updateAddressesNext (endpointId : String) (directAddresses : List SocketAddr) :
    Table String RemoteMachineRecord →
      Except RemoteFleetError (Unit × Option (Table String RemoteMachineRecord)) :=
  updateNext endpointId fun record => { record with directAddresses := directAddresses }

/-- The map of the source's `update_snapshot`. -/
def updateSnapshotNext (endpointId : String) (snapshot : RemoteMachineSnapshot) :
    Table String RemoteMachineRecord →
      Except RemoteFleetError (Unit × Option (Table String RemoteMachineRecord)) :=
  updateNext endpointId fun record => { record with lastSnapshot := some (.from snapshot) }

/-- The map of the source's `remove`. -/
def removeNext (endpointId : String) (records : Table String RemoteMachineRecord) :
    Except RemoteFleetError (Bool × Option (Table String RemoteMachineRecord)) :=
  if (records.find endpointId).isSome then .ok (true, some (records.erase endpointId))
  else .ok (false, none)

/-- The source's `insert`, with the outcomes of `persist_records`. -/
def insert (m : MachineFile δ) (write : AtomicWrite) (record : RemoteMachineRecord) :
    Except RemoteFleetError Unit × MachineFile δ :=
  m.transact (format json) write (insertNext record)

/-- The source's `update_addresses`, with the outcomes of `persist_records`. -/
def updateAddresses (m : MachineFile δ) (write : AtomicWrite) (endpointId : String)
    (directAddresses : List SocketAddr) : Except RemoteFleetError Unit × MachineFile δ :=
  m.transact (format json) write (updateAddressesNext endpointId directAddresses)

/-- The source's `update_snapshot`, with the outcomes of `persist_records`. -/
def updateSnapshot (m : MachineFile δ) (write : AtomicWrite) (endpointId : String)
    (snapshot : RemoteMachineSnapshot) : Except RemoteFleetError Unit × MachineFile δ :=
  m.transact (format json) write (updateSnapshotNext endpointId snapshot)

/-- The source's `remove`, with the outcomes of `persist_records`. -/
def remove (m : MachineFile δ) (write : AtomicWrite) (endpointId : String) :
    Except RemoteFleetError Bool × MachineFile δ :=
  m.transact (format json) write (removeNext endpointId)

end

/-! ## Runs -/

/-- A call that may write the registry. -/
inductive Call
  | insert (record : RemoteMachineRecord)
  | updateAddresses (endpointId : String) (directAddresses : List SocketAddr)
  | updateSnapshot (endpointId : String) (snapshot : RemoteMachineSnapshot)
  | remove (endpointId : String)

/-- What a call answers. -/
def Call.Answer : Call → Type
  | .insert .. => Unit
  | .updateAddresses .. => Unit
  | .updateSnapshot .. => Unit
  | .remove .. => Bool

/-- The map of a call. -/
def Call.next : (call : Call) → Table String RemoteMachineRecord →
    Except RemoteFleetError (call.Answer × Option (Table String RemoteMachineRecord))
  | .insert record => insertNext record
  | .updateAddresses endpointId directAddresses => updateAddressesNext endpointId directAddresses
  | .updateSnapshot endpointId snapshot => updateSnapshotNext endpointId snapshot
  | .remove endpointId => removeNext endpointId

/-- The call puts a record under `e` that need not have been there. -/
def Call.Inserts (e : String) (call : Call) : Prop :=
  ∃ record, call = .insert record ∧ record.endpointId = e

section
variable {δ : Type} {json : Serializer (Table String RemoteMachineRecord) δ} {m m' : MachineFile δ}
  {write : AtomicWrite} {calls : List (Call × AtomicWrite)} {e : String}
  {change : RemoteMachineRecord → RemoteMachineRecord}
  {records next : Table String RemoteMachineRecord}

/-- An update finds its record, and changes it and no other. -/
theorem updateNext_eq_ok {answer : Unit} {next : Option (Table String RemoteMachineRecord)}
    (h : updateNext e change records = .ok (answer, next)) :
    ∃ record, records.find e = some record ∧ next = some (records.insert e (change record)) := by
  unfold updateNext at h
  split at h
  · cases h
  · next record hrecord =>
    cases h
    exact ⟨record, hrecord, rfl⟩

/-- An update of an unknown machine refuses. -/
theorem updateNext_of_none (h : records.find e = none) :
    updateNext e change records = .error .unknownMachine := by
  simp [updateNext, h]

/-- An update of a known machine writes its record. -/
theorem updateNext_of_some {record : RemoteMachineRecord} (h : records.find e = some record) :
    updateNext e change records = .ok ((), some (records.insert e (change record))) := by
  simp [updateNext, h]

/-- A removal of an unknown machine answers without a write. -/
theorem removeNext_of_none (h : records.find e = none) :
    removeNext e records = .ok (false, none) := by
  simp [removeNext, h]

/-- An update leaves an absent machine absent. -/
theorem updateNext_absent {answer : Unit} {endpointId : String}
    (h : updateNext endpointId change records = .ok (answer, some next))
    (habsent : records.find e = none) : next.find e = none := by
  obtain ⟨record, hrecord, hnext⟩ := updateNext_eq_ok h
  cases hnext
  rw [Table.find_insert, if_neg, habsent]
  rintro rfl
  rw [habsent] at hrecord
  cases hrecord

/-- Without an insert of it, a machine that is absent stays absent. -/
theorem Call.absent_next {call : Call} {answer : call.Answer}
    (h : call.next records = .ok (answer, some next)) (habsent : records.find e = none)
    (hinsert : ¬ call.Inserts e) : next.find e = none := by
  cases call with
  | insert record =>
    cases h
    rw [Table.find_insert, if_neg, habsent]
    rintro rfl
    exact hinsert ⟨record, rfl, rfl⟩
  | updateAddresses endpointId directAddresses => exact updateNext_absent h habsent
  | updateSnapshot endpointId snapshot => exact updateNext_absent h habsent
  | remove endpointId =>
    simp only [Call.next, removeNext] at h
    split at h
    · cases h
      rw [Table.find_erase, habsent, ite_self]
    · cases h

/-- A machine that is absent comes back in a run only by an insert. -/
theorem inserts_of_run (hrun : Run (Mirror.Step (format json) Call.next) m calls m')
    (habsent : m.memory.find e = none) (hback : m'.memory.find e ≠ none) :
    ∃ call ∈ calls, call.1.Inserts e := by
  by_contra hnone
  push Not at hnone
  refine hback ?_
  refine hrun.history (I := fun calls m =>
    (∀ call ∈ calls, ¬ call.1.Inserts e) → m.memory.find e = none) (fun _ => habsent) ?_ hnone
  rintro calls m call m' - ih rfl hcalls
  have hm := ih fun call hcall => hcalls call (List.mem_append_left _ hcall)
  have hcall : ¬ call.1.Inserts e := hcalls call (by simp)
  exact Mirror.memory_transact (P := fun records => records.find e = none) hm
    fun _ _ h => Call.absent_next h hm hcall

/-- An update that succeeds has changed its record and no other; one of an unknown machine writes
nothing. -/
theorem transact_update {m'' : MachineFile δ} {answer : Unit}
    (h : m'.transact (format json) write (updateNext e change) = (.ok answer, m'')) :
    ∃ record, m'.memory.find e = some record ∧
      m''.memory = m'.memory.insert e (change record) := by
  rcases Mirror.transact_ok h with ⟨hnext, -⟩ | hnext
  · obtain ⟨record, -, habs⟩ := updateNext_eq_ok hnext
    cases habs
  · obtain ⟨record, hrecord, hmemory⟩ := updateNext_eq_ok hnext
    exact ⟨record, hrecord, Option.some.inj hmemory⟩

/-- The map in memory is the one a load of the file gives, after every call of every run; a call
that fails changes neither; an update changes its field of its record, and no call but an insert
brings a machine into the registry. -/
theorem machine_file_agrees {path : FileContent δ} (hload : load json path = .ok m)
    (hrun : Run (Guarded (fun m call => Mirror.Writable (format json) call.1.next m)
      (Mirror.Step (format json) Call.next)) m calls m') :
    load json m'.path = .ok m' ∧
      (∀ (call : Call) write err m'',
        m'.transact (format json) write call.next = (.error err, m'') → m'' = m') ∧
      (∀ e directAddresses write m'',
        m'.updateAddresses json write e directAddresses = (.ok (), m'') →
          ∃ record, m'.memory.find e = some record ∧
            m''.memory = m'.memory.insert e { record with directAddresses := directAddresses }) ∧
      (∀ e snapshot write m'', m'.updateSnapshot json write e snapshot = (.ok (), m'') →
        ∃ record, m'.memory.find e = some record ∧
          m''.memory = m'.memory.insert e { record with lastSnapshot := some (.from snapshot) }) ∧
      (∀ e write, m'.memory.find e = none →
        (∀ directAddresses, m'.updateAddresses json write e directAddresses =
            (.error .unknownMachine, m')) ∧
          (∀ snapshot, m'.updateSnapshot json write e snapshot = (.error .unknownMachine, m')) ∧
          m'.remove json write e = (.ok false, m')) ∧
      ∀ e write m₁ later m₂, m'.remove json write e = (.ok true, m₁) →
        Run (Mirror.Step (format json) Call.next) m₁ later m₂ → m₂.memory.find e ≠ none →
          ∃ call ∈ later, call.1.Inserts e := by
  have hsynced := Mirror.synced_of_load hload
  refine ⟨(hsynced.run hrun).load, ?_, ?_, ?_, ?_, ?_⟩
  · intro call write err m'' h
    exact Mirror.transact_error h
  · intro e directAddresses write m'' h
    exact transact_update h
  · intro e snapshot write m'' h
    exact transact_update h
  · intro e write hnone
    exact ⟨fun _ => Mirror.transact_of_refused (updateNext_of_none hnone),
      fun _ => Mirror.transact_of_refused (updateNext_of_none hnone),
      Mirror.transact_of_unchanged (removeNext_of_none hnone)⟩
  · intro e write m₁ later m₂ hremove hlater hback
    refine inserts_of_run hlater ?_ hback
    rcases Mirror.transact_ok hremove with ⟨hnext, -⟩ | hnext
    · unfold removeNext at hnext
      split at hnext
      · cases hnext
      · cases hnext
    · unfold removeNext at hnext
      split at hnext
      · simp only [Except.ok.injEq, Prod.mk.injEq, Option.some.injEq, true_and] at hnext
        rw [← hnext, Table.find_erase, if_pos rfl]
      · cases hnext

end

/-- A serializer for which a file is the map it was made of. -/
def plainJson :
    Serializer (Table String RemoteMachineRecord) (Table String RemoteMachineRecord) := ⟨.ok, .ok⟩

/-- The record of a machine that was never seen. -/
def unseenRecord : RemoteMachineRecord := ⟨default, "peer", [], [], 0, none⟩

/-- A machine is paired, and removed with a write that does not get to its rename. -/
def removeUnwritten : List (Call × AtomicWrite) :=
  [(.insert unseenRecord, .succeeds),
    (.remove "peer", { AtomicWrite.succeeds with persist := .error "disk full" })]

/-- The machine is still there, in memory and in the file. -/
theorem machine_file_agrees_unwritten :
    load plainJson (.holds (Table.empty.insert "peer" unseenRecord)) =
      .ok ⟨Table.empty.insert "peer" unseenRecord,
        .holds (Table.empty.insert "peer" unseenRecord)⟩ := by
  let start : MachineFile (Table String RemoteMachineRecord) := ⟨.empty, .absent⟩
  have hload : load plainJson .absent = .ok start := rfl
  have hrun := run_foldl (fun (m : MachineFile (Table String RemoteMachineRecord)) call =>
    (m.transact (format plainJson) call.2 call.1.next).2) start removeUnwritten
  refine (machine_file_agrees hload (hrun.guard ?_)).1
  intro _ _ _ _ records _ content h
  cases h
  rfl

/-! ## The registry of the fleet -/

section
variable {δ : Type} {json : Serializer (Table String RemoteMachineRecord) δ} (m : MachineFile δ)
  (write : AtomicWrite) {r : RemoteMachineRegistry}

/-- What the fleet sees of `insert` is the call on the map in memory, with the outcome of the
write. -/
theorem registry_insert (h : r.records = m.memory) (record : RemoteMachineRecord) :
    ∃ persist, (r.insert persist record).map (·.records) =
      (m.insert json write record).1.map fun _ => (m.insert json write record).2.memory := by
  simp only [insert, Mirror.transact, insertNext]
  split
  · refine ⟨.ok (), ?_⟩
    rw [← h]
    rfl
  · next e _ _ => exact ⟨.error e, rfl⟩

/-- What the fleet sees of an update is the call on the map in memory, with the outcome of the
write. -/
theorem registry_update (h : r.records = m.memory) (e : String)
    {change : RemoteMachineRecord → RemoteMachineRecord}
    (hchange : ∀ record, (change record).endpointId = record.endpointId) :
    ∃ persist, (r.update persist e change).map (·.records) =
      (m.transact (format json) write (updateNext e change)).1.map
        fun _ => (m.transact (format json) write (updateNext e change)).2.memory := by
  simp only [RemoteMachineRegistry.update, RemoteMachineRegistry.get, Mirror.transact, updateNext,
    h]
  cases hfind : m.memory.find e with
  | none => exact ⟨.ok (), rfl⟩
  | some record =>
    have hkey : record.endpointId = e := r.keyed e record (by rw [h, hfind])
    have hstored : { change record with endpointId := record.endpointId } = change record := by
      rw [← hchange]
    simp only
    split
    · refine ⟨.ok (), ?_⟩
      show Except.ok (r.records.insert record.endpointId
        { change record with endpointId := record.endpointId }) = _
      rw [hstored, h, hkey]
      rfl
    · next err _ _ => exact ⟨.error err, rfl⟩

/-- What the fleet sees of `remove` is the call on the map in memory, with the outcome of the
write. -/
theorem registry_remove (h : r.records = m.memory) (e : String) :
    ∃ persist, (r.remove persist e).map (fun answer => (answer.1, answer.2.records)) =
      (m.remove json write e).1.map fun answer => (answer, (m.remove json write e).2.memory) := by
  simp only [RemoteMachineRegistry.remove, RemoteMachineRegistry.contains, Table.contains, remove,
    Mirror.transact, removeNext, h]
  cases hfind : m.memory.find e with
  | none =>
    refine ⟨.ok (), ?_⟩
    simp [pure, Except.pure, Except.map, h]
  | some record =>
    simp only [Option.isSome_some, Bool.not_true, Bool.false_eq_true, if_false, if_true]
    split
    · refine ⟨.ok (), ?_⟩
      show Except.ok (true, r.records.erase e) = _
      rw [h]
      rfl
    · next err _ _ => exact ⟨.error err, rfl⟩

end

end MachineFile

end Rackio
