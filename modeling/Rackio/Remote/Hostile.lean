import Rackio.Protocol.Conversion
import Rackio.Remote.RecordJson
import Rackio.Remote.RegistryFile
import Rackio.Remote.Stored

/-!
# A hostile peer and the registry file

Whatever a machine sends, the registry that holds it can be written and read again: `metric_sample`
drops every float that is not finite, the trend is cut to its capacity on every push, and everything
else that a peer fills in is a text, an integer or one of the values of an enumeration.

`RemoteFleet.Received` says where the labels of the steps come from: every answer is what the client
makes of a wire message, which is arbitrary. A record is *clean* when it comes back from its
document and its trend is in its capacity, and a snapshot when the record it is persisted in is.
That is what the fleet `Holds` in every run (`hostile_registry_loads`).
-/

namespace Rackio

open Lts

/-! ## Values -/

/-- The floats of a point are finite. -/
def TrendSample.Finite (point : TrendSample) : Prop :=
  (∀ v ∈ point.cpuPercent, v.isFinite) ∧ ∀ v ∈ point.temperatureCelsius, v.isFinite

/-- The floats of the latest sample and of the trend are finite. -/
def RemoteMachineSnapshot.Finite (snapshot : RemoteMachineSnapshot) : Prop :=
  (∀ sample ∈ snapshot.latest, sample.Finite) ∧ ∀ point ∈ snapshot.trend.samples, point.Finite

/-- What the client reports of a wire sample is finite. -/
theorem MetricSample.finite_fromWire (wire : Wire.MetricSample) : (fromWire wire).Finite := by
  constructor
  · intro v hv
    exact (Option.mem_filter_iff.1 hv).2
  · intro t ht
    obtain ⟨temperature, -, ht⟩ := Option.bind_eq_some_iff.1 ht
    unfold TemperatureMetric.fromWire at ht
    split at ht
    · next hfinite =>
      cases ht
      exact ⟨hfinite, fun v hv => (Option.mem_filter_iff.1 hv).2⟩
    · cases ht

/-- The point of a finite sample is finite. -/
theorem TrendSample.finite_from {sample : MetricSample} (h : sample.Finite) :
    (TrendSample.from sample).Finite := by
  refine ⟨h.1, fun v hv => ?_⟩
  obtain ⟨temperature, htemperature, rfl⟩ := Option.mem_map.1 hv
  exact (h.2 temperature htemperature).1

namespace TrendWindow

variable {w : TrendWindow} {point : TrendSample}

/-- A push drops what exceeds the capacity. -/
theorem length_push_le : (w.push point).samples.length ≤ trendCapacity := by
  simp only [push, List.length_drop, List.length_append, List.length_singleton]
  omega

/-- A push adds its point and no other. -/
theorem forall_push {P : TrendSample → Prop} (h : ∀ p ∈ w.samples, P p) (hpoint : P point) :
    ∀ p ∈ (w.push point).samples, P p := by
  intro p hp
  rcases List.mem_append.1 (List.mem_of_mem_drop hp) with hold | hnew
  · exact h p hold
  · rw [List.mem_singleton] at hnew
    exact hnew ▸ hpoint

end TrendWindow

/-- Merging addresses makes up no address. -/
theorem mem_mergedDirectAddresses {observed known : List SocketAddr} {a : SocketAddr}
    (h : a ∈ mergedDirectAddresses observed known) : a ∈ observed ∨ a ∈ known := by
  have hmerged : ∀ (addresses merged : List SocketAddr),
      a ∈ addresses.foldl (fun merged address => if address ∈ merged then merged
        else merged ++ [address]) merged → a ∈ merged ∨ a ∈ addresses := by
    intro addresses
    induction addresses with
    | nil => exact fun merged h => .inl h
    | cons address addresses ih =>
      intro merged h
      rcases ih _ h with hmem | hmem
      · dsimp only at hmem
        split at hmem
        · exact .inl hmem
        · rcases List.mem_append.1 hmem with hmem | hmem
          · exact .inl hmem
          · exact .inr (List.mem_singleton.1 hmem ▸ .head _)
      · exact .inr (.tail _ hmem)
  rcases hmerged _ _ (List.mem_of_mem_take h) with hnil | hmem
  · cases hnil
  · exact List.mem_append.1 hmem

/-! ## Clean records -/

namespace JsonFormats

variable {φ : Type} {f : JsonFormats φ}

/-- A persisted snapshot that comes back, with a trend in its capacity. -/
def CleanPersisted (f : JsonFormats φ) (persisted : PersistedRemoteSnapshot) : Prop :=
  f.persistedRemoteSnapshot.Present persisted ∧ persisted.trend.samples.length ≤ trendCapacity

/-- A snapshot whose persisted form comes back. -/
def CleanSnapshot (f : JsonFormats φ) (snapshot : RemoteMachineSnapshot) : Prop :=
  f.CleanPersisted (.from snapshot)

/-- A record that comes back, with the trend of its snapshot in its capacity. -/
structure CleanRecord (f : JsonFormats φ) (record : RemoteMachineRecord) : Prop where
  addresses : ∀ a ∈ record.directAddresses, f.Textual a
  pairedAtMs : FitsI64 record.pairedAtMs
  lastSnapshot : ∀ persisted ∈ record.lastSnapshot, f.CleanPersisted persisted

/-- A clean record comes back. -/
theorem CleanRecord.storable {record : RemoteMachineRecord} (h : f.CleanRecord record) :
    f.remoteMachineRecord.Storable record :=
  storable_remoteMachineRecord.2
    ⟨h.addresses, h.pairedAtMs, fun persisted hp => (h.lastSnapshot persisted hp).1⟩

/-- What a clean snapshot says, field by field. -/
theorem cleanSnapshot_iff {snapshot : RemoteMachineSnapshot} :
    f.CleanSnapshot snapshot ↔
      (∀ sample ∈ snapshot.latest, FitsI64 sample.timestampMs ∧ sample.Finite) ∧
        (∀ t ∈ snapshot.lastSeenMs, FitsI64 t) ∧
        (∀ point ∈ snapshot.trend.samples, FitsI64 point.timestampMs ∧ point.Finite) ∧
        snapshot.trend.samples.length ≤ trendCapacity := by
  simp [CleanSnapshot, CleanPersisted, PersistedRemoteSnapshot.from, TrendSample.Finite, and_assoc]

/-- A clean snapshot is finite. -/
theorem CleanSnapshot.finite {snapshot : RemoteMachineSnapshot} (h : f.CleanSnapshot snapshot) :
    snapshot.Finite := by
  obtain ⟨hlatest, -, htrend, -⟩ := cleanSnapshot_iff.1 h
  exact ⟨fun sample hs => (hlatest sample hs).2, fun point hp => (htrend point hp).2⟩

/-- A clean snapshot that is seen at another time. -/
theorem CleanSnapshot.seen {snapshot : RemoteMachineSnapshot} (h : f.CleanSnapshot snapshot)
    {nowMs : Int} (hnow : FitsI64 nowMs) :
    f.CleanSnapshot { snapshot with lastSeenMs := some nowMs } := by
  obtain ⟨hlatest, -, htrend, hlength⟩ := cleanSnapshot_iff.1 h
  refine cleanSnapshot_iff.2 ⟨hlatest, ?_, htrend, hlength⟩
  rintro _ ⟨⟩
  exact hnow

/-- A clean snapshot after a sample of the peer. -/
theorem CleanSnapshot.sampled {snapshot : RemoteMachineSnapshot} (h : f.CleanSnapshot snapshot)
    {wire : Wire.MetricSample} (htime : FitsI64 wire.timestampMs) {nowMs : Int}
    (hnow : FitsI64 nowMs) :
    f.CleanSnapshot (Monitor.sampled snapshot (.fromWire wire) nowMs) := by
  obtain ⟨-, -, htrend, -⟩ := cleanSnapshot_iff.1 h
  have hfinite := MetricSample.finite_fromWire wire
  refine cleanSnapshot_iff.2 ⟨?_, ?_, ?_, TrendWindow.length_push_le⟩
  · rintro _ ⟨⟩
    exact ⟨htime, hfinite⟩
  · rintro _ ⟨⟩
    exact hnow
  · exact TrendWindow.forall_push htrend ⟨htime, TrendSample.finite_from hfinite⟩

/-- The snapshot of a clean record before its first session. -/
theorem CleanRecord.offline {record : RemoteMachineRecord} (h : f.CleanRecord record) :
    f.CleanSnapshot (.offline record) := by
  unfold RemoteMachineSnapshot.offline
  cases hlast : record.lastSnapshot with
  | none => exact cleanSnapshot_iff.2 (by simp [default])
  | some persisted => exact h.lastSnapshot persisted hlast

/-- Addresses that were observed, before those that were known. -/
theorem forall_mergedDirectAddresses {observed known : List SocketAddr}
    (hobserved : ∀ a ∈ observed, f.Textual a) (hknown : ∀ a ∈ known, f.Textual a) :
    ∀ a ∈ mergedDirectAddresses observed known, f.Textual a := by
  intro a ha
  rcases mem_mergedDirectAddresses ha with hmem | hmem
  · exact hobserved a hmem
  · exact hknown a hmem

/-- Where records and snapshots are only moved, they stay clean. -/
theorem keeps_clean : RemoteFleet.Keeps f.CleanRecord (fun _ => f.CleanSnapshot)
    (fun _ => f.CleanSnapshot) where
  offline _ h := h.offline
  held _ _ h := h
  persisted record snapshot hrecord hsnapshot := by
    refine ⟨hrecord.addresses, hrecord.pairedAtMs, ?_⟩
    rintro _ ⟨⟩
    exact hsnapshot
  refreshed _ _ _ _ _ h := by
    have hclean := cleanSnapshot_iff.1 h
    exact cleanSnapshot_iff.2 hclean
  errored _ _ _ _ _ h := by
    have hclean := cleanSnapshot_iff.1 h
    exact cleanSnapshot_iff.2 hclean

end JsonFormats

/-! ## Runs -/

namespace RemoteFleet

variable {φ : Type} (f : JsonFormats φ)

/-- What a step of a monitor makes of what it receives: any wire message, and what the endpoint and
the clock say. -/
def ReceivedEvent : Monitor.Event → Prop
  | .connect observed _ => ∀ a ∈ observed, f.Textual a
  | .establish node health path rttMs nowMs =>
    ∃ (info : Wire.NodeInfo) (status : Wire.HealthSnapshot) (details : Wire.ConnectionDetails),
      NodeInfo.fromWire f.parseUuid info = .ok node ∧ health = .fromWire status ∧
        (path, rttMs) = connectionOfWire details ∧ FitsI64 nowMs
  | .sample sample _ nowMs =>
    ∃ wire : Wire.MetricSample, FitsI64 wire.timestampMs ∧ sample = .fromWire wire ∧ FitsI64 nowMs
  | .refresh health path rttMs =>
    ∃ (status : Wire.HealthSnapshot) (details : Wire.ConnectionDetails),
      health = .fromWire status ∧ (path, rttMs) = connectionOfWire details
  | .heartbeat nowMs | .updateError nowMs => FitsI64 nowMs
  | _ => True

/-- What a step makes of what it receives. The answers to an import are the record and the snapshot
it ends with. -/
def Received (ev : Event) (t : RemoteFleet) : Prop :=
  match ev with
  | .importInsert i _ => ∀ record snapshot, t.imports.find i = some (.inserted record snapshot) →
    (∀ a ∈ record.directAddresses, f.Textual a) ∧ FitsI64 record.pairedAtMs ∧
      ∀ seenAtMs ∈ snapshot.lastSeenMs, FitsI64 seenAtMs
  | .task _ event => ReceivedEvent f event
  | _ => True

/-- The steps of a fleet whose machines may send anything. -/
def HostileStep (s : RemoteFleet) (ev : Event) (t : RemoteFleet) : Prop :=
  Step s ev t ∧ Received f ev t

/-- The registries this program writes when its machines may send anything. -/
inductive HostileRegistry : RemoteMachineRegistry → Prop
  | empty : HostileRegistry .empty
  | run {registry : RemoteMachineRegistry} {es : List Event} {s : RemoteFleet}
      (h : HostileRegistry registry)
      (hrun : Run (HostileStep f) (RemoteFleet.load registry).start es s) :
      HostileRegistry s.registry

/-- What the fleet holds is clean. -/
def Clean (s : RemoteFleet) : Prop :=
  Holds f.CleanRecord (fun _ => f.CleanSnapshot) (fun _ => f.CleanSnapshot) s

section
variable {f} {s t : RemoteFleet} {ev : Event}

/-- What a step receives is clean. -/
theorem HostileStep.admits (h : HostileStep f s ev t) :
    Admits f.CleanRecord (fun _ => f.CleanSnapshot) (fun _ => f.CleanSnapshot) s ev t := by
  obtain ⟨hstep, hreceived⟩ := h
  cases ev with
  | importInsert i e =>
    intro record snapshot hstage
    obtain ⟨haddresses, hpaired, hseen⟩ := hreceived record snapshot hstage
    cases hstep with
    | @importInsert i bundle answer persist registry hi hanswer hinsert =>
      rw [Table.find_insert, if_pos rfl] at hstage
      cases hstage
      refine ⟨⟨haddresses, hpaired, ?_⟩, ?_⟩
      · rintro _ ⟨⟩
      · obtain ⟨_, _, _, _, himported⟩ := importedSnapshot_eq bundle answer
        refine JsonFormats.cleanSnapshot_iff.2 ⟨?_, hseen, ?_, ?_⟩
        · rw [himported]
          rintro _ ⟨⟩
        · rw [himported]
          rintro _ ⟨⟩
        · rw [himported]
          exact Nat.zero_le _
  | task k event =>
    intro task hk
    have hreceived : ReceivedEvent f event := hreceived
    cases event with
    | connect observed persist =>
      intro record stored hrecord hstored
      exact ⟨JsonFormats.forall_mergedDirectAddresses hreceived hrecord.addresses,
        hstored.pairedAtMs, hstored.lastSnapshot⟩
    | establish node health path rttMs nowMs =>
      intro snapshot hsnapshot
      obtain ⟨-, -, -, -, -, -, hnow⟩ := hreceived
      have hclean := JsonFormats.cleanSnapshot_iff.1 (hsnapshot.seen hnow)
      exact JsonFormats.cleanSnapshot_iff.2 hclean
    | sample sample shouldPersist nowMs =>
      intro snapshot hsnapshot
      obtain ⟨wire, htime, rfl, hnow⟩ := hreceived
      exact hsnapshot.sampled htime hnow
    | heartbeat nowMs =>
      intro snapshot hsnapshot
      exact hsnapshot.seen hreceived
    | _ => trivial
  | _ => trivial

/-- Every step keeps the fleet clean. -/
theorem Clean.step (h : Clean f s) (hstep : HostileStep f s ev t) : Clean f t :=
  Holds.step JsonFormats.keeps_clean h hstep.admits hstep.1

/-- Every record of a registry this program wrote is clean. -/
theorem HostileRegistry.clean {registry : RemoteMachineRegistry} (h : HostileRegistry f registry) :
    ∀ e record, registry.records.find e = some record → f.CleanRecord record := by
  induction h with
  | empty =>
    intro e record hfind
    cases hfind
  | run _ hrun ih =>
    have hfleet : Clean f _ :=
      hrun.invariant (holds_start JsonFormats.keeps_clean ih) fun _ _ _ h hstep => h.step hstep
    exact hfleet.registry

/-! ## The result -/

/-- A snapshot of a machine that the fleet shows, or that a monitor is about to persist. -/
def HasSnapshot (s : RemoteFleet) (e : String) (snapshot : RemoteMachineSnapshot) : Prop :=
  s.snapshots.find e = some snapshot ∨
    ∃ k task, s.tasks.find k = some task ∧ task.endpointId = e ∧ task.phase = .persisting snapshot

/-- Every snapshot of a clean fleet is clean. -/
theorem Clean.snapshot (h : Clean f s) {e : String} {snapshot : RemoteMachineSnapshot}
    (hsnapshot : s.HasSnapshot e snapshot) : f.CleanSnapshot snapshot := by
  rcases hsnapshot with hfind | ⟨k, task, hk, -, hphase⟩
  · exact h.snapshots e snapshot hfind
  · exact (h.tasks k task hk).persisting snapshot hphase

/-- A map of clean records is written and read as it is. -/
theorem readsBack_of_clean {δ : Type} (text : JsonText φ δ)
    {records : Table String RemoteMachineRecord}
    (h : ∀ e record, records.find e = some record → f.CleanRecord record) :
    (MachineFile.format (f.remoteMachineRecord.map.serializer text)).ReadsBack records :=
  Serde.readsBack _ text fun e record hfind => (h e record hfind).storable

/-- In every run of a fleet whose machines may send any messages, from a registry this program wrote
in such runs: every snapshot has finite floats and at most 120 points; the registry reads back; and
persisting a snapshot of a paired machine succeeds when the file system does, and leaves a file that
loads as the records in memory. -/
theorem hostile_registry_loads {δ : Type} (text : JsonText φ δ) {registry : RemoteMachineRegistry}
    (hwritten : HostileRegistry f registry) {es : List Event} {s : RemoteFleet}
    (hrun : Run (HostileStep f) (RemoteFleet.load registry).start es s) :
    (∀ e snapshot, s.HasSnapshot e snapshot →
        snapshot.Finite ∧ snapshot.trend.samples.length ≤ 120) ∧
      (MachineFile.format (f.remoteMachineRecord.map.serializer text)).ReadsBack
        s.registry.records ∧
      ∀ e snapshot record path, s.HasSnapshot e snapshot →
        s.registry.records.find e = some record →
        ∃ m : MachineFile δ,
          MachineFile.updateSnapshot (f.remoteMachineRecord.map.serializer text)
              ⟨s.registry.records, path⟩ .succeeds e snapshot = (.ok (), m) ∧
            m.memory = s.registry.records.insert e
              { record with lastSnapshot := some (.from snapshot) } ∧
            MachineFile.load (f.remoteMachineRecord.map.serializer text) m.path = .ok m := by
  have hclean : Clean f s :=
    hrun.invariant (holds_start JsonFormats.keeps_clean hwritten.clean) fun _ _ _ h hstep =>
      h.step hstep
  refine ⟨?_, readsBack_of_clean text hclean.registry, ?_⟩
  · intro e snapshot hsnapshot
    have hsnapshot := hclean.snapshot hsnapshot
    exact ⟨hsnapshot.finite, hsnapshot.2⟩
  · intro e snapshot record path hsnapshot hrecord
    have hstored := JsonFormats.keeps_clean.persisted record snapshot
      (hclean.registry e record hrecord) (hclean.snapshot hsnapshot)
    generalize hnext : s.registry.records.insert e
      { record with lastSnapshot := some (.from snapshot) } = next
    have hchange : MachineFile.updateSnapshotNext e snapshot s.registry.records =
        .ok ((), some next) := hnext ▸ MachineFile.updateNext_of_some hrecord
    have hrecords : ∀ e record, next.find e = some record → f.CleanRecord record :=
      hnext ▸ Table.forall_insert (P := fun _ => f.CleanRecord) hclean.registry hstored
    have hback := readsBack_of_clean text hrecords
    exact ⟨_, Mirror.transact_succeeds hchange rfl, rfl, Mirror.Synced.load (hback _ rfl)⟩

end

/-! ## A hostile sample -/

/-- Literals as the floats themselves, and the text of one address. -/
def plainFormats : JsonFormats F32 where
  literal := id
  ofLiteral := id
  ofInt n := ⟨(Float32.ofInt n).toBits⟩
  parseUuid := Uuid.ofText
  addressText a := if a = ⟨.v4 0x7f000001, 4433, 0, 0⟩ then "127.0.0.1:4433" else ""
  parseAddress s := if s = "127.0.0.1:4433" then some ⟨.v4 0x7f000001, 4433, 0, 0⟩ else none
  ofLiteral_literal _ _ := rfl
  parsesUuid := Uuid.ofText_toString

/-- Documents as the content of a file. -/
def plainText : JsonText F32 (Json F32) := ⟨id, .ok, fun _ => rfl⟩

/-- A sample whose floats are NaN and infinities. -/
def hostileSample : Wire.MetricSample where
  timestampMs := 1000
  sequence := 5
  cpuPercent := some ⟨0x7FC00000⟩
  memoryUsedBytes := none
  memoryTotalBytes := none
  swapUsedBytes := none
  swapTotalBytes := none
  disks := []
  network := none
  uptimeSeconds := 0
  errors := [⟨"cpu", -1, "unreadable"⟩]
  temperature := some ⟨"CPU die", ⟨0x42420000⟩, some ⟨0xFF800000⟩, 1⟩

/-- The node of the machine, as it answers. -/
def hostileInfo : Wire.NodeInfo := NodeInfo.toWire machineAnswer.node ⟨machineBundle.endpointId⟩

/-- A health answer with a state that does not exist. -/
def hostileHealth : Wire.HealthSnapshot := ⟨99, false, false, false, ["unknown"]⟩

/-- A path answer with a path that does not exist. -/
def hostileDetails : Wire.ConnectionDetails := ⟨-7, 12⟩

/-- The snapshot of the machine once its session is established. -/
def hostileEstablished : RemoteMachineSnapshot :=
  Monitor.established machineSnapshot machineAnswer.node (.fromWire hostileHealth) .unknown 12 900

/-- The snapshot of the machine after the sample. -/
def hostileSnapshot : RemoteMachineSnapshot :=
  Monitor.sampled hostileEstablished (.fromWire hostileSample) 1000

/-- The steps of an import, of a session and of a sample that is to be persisted. -/
def hostileEvents : List Event :=
  importEvents ++ [.task 0 .check, .task 0 (.connect [] (.ok ())),
    .task 0 (.establish machineAnswer.node (.fromWire hostileHealth) .unknown 12 900),
    .task 0 (.sample (.fromWire hostileSample) true 1000)]

/-- The fleet before the sample is persisted. -/
def hostileFleet : RemoteFleet :=
  { imported with
    snapshots := Table.empty.insert machineBundle.endpointId hostileSnapshot
    tasks := Table.empty.insert 0 ⟨machineRecord, .persisting hostileSnapshot, false⟩ }

/-- The snapshot of the hostile sample is persisted, and the registry loads. -/
theorem hostile_registry_loads_sampled :
    Run (HostileStep plainFormats) (RemoteFleet.load .empty).start hostileEvents hostileFleet ∧
      hostileSnapshot.Finite ∧
      ∃ m : MachineFile (Json F32),
        MachineFile.updateSnapshot (plainFormats.remoteMachineRecord.map.serializer plainText)
            ⟨hostileFleet.registry.records, .absent⟩ .succeeds machineBundle.endpointId
            hostileSnapshot = (.ok (), m) ∧
          MachineFile.load (plainFormats.remoteMachineRecord.map.serializer plainText) m.path =
            .ok m := by
  have hrun : Run (HostileStep plainFormats) (RemoteFleet.load .empty).start hostileEvents
      hostileFleet := by
    refine run_cons_iff.2
      ⟨_, ⟨@Step.importCheck _ 0 machineBundle 0 (.ok ()) rfl rfl rfl, trivial⟩, ?_⟩
    refine run_cons_iff.2 ⟨_, ⟨@Step.importInsert _ 0 machineBundle machineAnswer (.ok ()) _ rfl
      checkAnswer_machine rfl, ?_⟩, ?_⟩
    · intro record snapshot hstage
      rw [Table.find_insert, if_pos rfl] at hstage
      cases hstage
      unfold JsonFormats.Textual
      decide
    refine run_cons_iff.2 ⟨_, ⟨.importStore rfl, trivial⟩, ?_⟩
    refine run_cons_iff.2 ⟨_, ⟨.importSpawn rfl rfl, trivial⟩, ?_⟩
    refine run_cons_iff.2 ⟨_, ⟨.importRegister rfl, trivial⟩, ?_⟩
    refine run_cons_iff.2 ⟨_, ⟨.task rfl (.checkPaired rfl (by decide)), trivial⟩, ?_⟩
    refine run_cons_iff.2 ⟨_, ⟨.task rfl (.connect [] (.ok ()) rfl rfl), ?_⟩, ?_⟩
    · rintro _ ⟨⟩
    refine run_cons_iff.2 ⟨_, ⟨.task rfl (.establish _ _ _ _ _ rfl), ?_⟩, ?_⟩
    · exact ⟨hostileInfo, hostileHealth, hostileDetails, by decide, rfl, rfl, by decide⟩
    refine run_cons_iff.2 ⟨_, ⟨.task rfl (.samplePersist _ _ rfl), ?_⟩, ?_⟩
    · exact ⟨hostileSample, by decide, rfl, by decide⟩
    exact run_nil_iff.2 rfl
  obtain ⟨hfinite, -, hpersist⟩ := hostile_registry_loads plainText .empty hrun
  have hsnapshot : hostileFleet.HasSnapshot machineBundle.endpointId hostileSnapshot :=
    .inr ⟨0, _, rfl, rfl, rfl⟩
  obtain ⟨m, hupdate, -, hload⟩ :=
    hpersist machineBundle.endpointId hostileSnapshot machineRecord .absent hsnapshot (by decide)
  exact ⟨hrun, (hfinite _ _ hsnapshot).1, m, hupdate, hload⟩

end RemoteFleet

end Rackio
