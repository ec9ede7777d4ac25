import Rackio.Lib.Firsts
import Rackio.Iroh.Provenance
import Rackio.Remote.Agreement
import Rackio.Runtime.ConfigCommands

/-!
# Direct addresses from one machine to the other

The addresses of a machine pass through two merges before a viewer keeps them: the machine's own
`bundle_direct_addresses` puts those it observes before the configured ones, and the viewer's
`merged_direct_addresses` puts those of the session before all of them and keeps the first eight.
Eight is also how many addresses a machine may configure, but the observed ones are counted too.

`mem_importedRecord_iff` says which addresses the viewer keeps, and
`configured_addresses_kept_iff` when these are all the configured ones.
-/

namespace Rackio

open NodeRuntime (zeroBase64 zeroSecret)

/-- What the text of an address parses to: the flow information of an IPv6 address is not printed.
-/
def SocketAddr.reread (address : SocketAddr) : SocketAddr := { address with flowinfo := 0 }

/-- What the encoded text of a bundle decodes to. -/
def PairingBundle.reread (bundle : PairingBundle) : PairingBundle :=
  { bundle with directAddresses := bundle.directAddresses.map SocketAddr.reread }

/-! ## The machine -/

/-- The source's `bundle_direct_addresses`. -/
def bundleDirectAddresses (observed advertised : List SocketAddr) : List SocketAddr :=
  (observed ++ advertised).foldl
    (fun addresses address => if address ∈ addresses then addresses else addresses ++ [address]) []

/-- What `create_pairing_bundle` reads of the machine it runs on. -/
structure PairingOrigin where
  /-- The text of the path of the configuration file. -/
  configPath : String
  file : ConfigFile
  nodeId : Uuid
  endpointId : EndpointId
  /-- The addresses the endpoint observes, and those it was given when it was bound. -/
  observed : List SocketAddr
  nowMs : Int
  /-- The secret the generator fills in. -/
  secret : PairingSecret

/-- The source's `create_pairing_bundle`, up to the advertisement that follows; it fails before it
opens a window, or not at all. -/
def createPairingBundle (host : Host) (b64 : Base64) (origin : PairingOrigin) :
    Except String (PairingManager × PairingBundle) := do
  let config ← loadConfig origin.file
  match config.validate host with
  | .error error =>
    .error (origin.configPath ++ " is not a usable configuration: " ++ error)
  | .ok _ =>
    return PairingManager.open b64 origin.nowMs origin.secret origin.nodeId origin.endpointId
      (bundleDirectAddresses origin.observed config.advertiseAddresses) config.relayUrl.toList

/-! ## The viewer -/

/-- The source's `import_pairing` when nothing else runs, from the decoded bundle to the registry:
`address` is what `endpoint_addr` answers, `answer` what the machine does, and `persist` how the
file system takes the new registry. -/
def importPairing (registry : RemoteMachineRegistry) (bundle : PairingBundle) (nowMs : Int)
    (address : Except PairingError Unit) (answer : PairingAnswer)
    (persist : Except RemoteFleetError Unit) : Except RemoteFleetError RemoteMachineRegistry := do
  (validateBundle bundle nowMs address).mapError .pairing
  if registry.contains bundle.endpointId then .error .alreadyPaired
  checkAnswer bundle answer
  registry.insert persist (importedRecord bundle answer)

/-- All addresses that are merged for a viewer, in their order: those of the session, those the
machine observes, and the configured ones. -/
def candidates (session observed advertised : List SocketAddr) : List SocketAddr :=
  session ++ (observed ++ advertised).map .reread

section
variable {host : Host} {b64 : Base64} {origin : PairingOrigin} {config : AgentConfig}
  {pairing : PairingManager} {bundle : PairingBundle}
  {session observed advertised : List SocketAddr} {a : SocketAddr}

/-- What a machine merged once is merged no other way by the viewer. -/
theorem eraseDups_append_map_eraseDups {α : Type} [DecidableEq α] (f : α → α) (before l : List α) :
    (before ++ l.eraseDups.map f).eraseDups = (before ++ l.map f).eraseDups := by
  induction l using List.reverseRecOn with
  | nil => rfl
  | append_singleton l x ih =>
    have hmem : f x ∈ before ++ l.eraseDups.map f ↔ f x ∈ before ++ l.map f := by
      simp only [List.mem_append, List.mem_map, List.mem_eraseDups]
    rw [Firsts.eraseDups_snoc, List.map_append, List.map_singleton, ← List.append_assoc,
      Firsts.eraseDups_snoc]
    split
    · next hin =>
      have hseen : f x ∈ before ++ l.map f := List.mem_append_right _ (List.mem_map_of_mem hin)
      rw [if_pos hseen]
      exact ih
    · rw [List.map_append, List.map_singleton, ← List.append_assoc, Firsts.eraseDups_snoc, ih]
      simp only [hmem]

/-- The two merges together keep the first eight different candidates. -/
theorem mergedDirectAddresses_bundle :
    mergedDirectAddresses session
        ((bundleDirectAddresses observed advertised).map SocketAddr.reread) =
      (candidates session observed advertised).eraseDups.take maxRecordDirectAddresses := by
  unfold mergedDirectAddresses bundleDirectAddresses candidates
  rw [Firsts.foldl_eq_eraseDups, Firsts.foldl_eq_eraseDups, eraseDups_append_map_eraseDups]

/-- A bundle carries the addresses of the configuration it was made from. -/
theorem createPairingBundle_eq_ok
    (h : createPairingBundle host b64 origin = .ok (pairing, bundle)) :
    ∃ config, loadConfig origin.file = .ok config ∧ config.validate host = .ok () ∧
      bundle.endpointId = origin.endpointId.toString ∧
      bundle.directAddresses =
        bundleDirectAddresses origin.observed config.advertiseAddresses := by
  obtain ⟨config, hload, h⟩ := Outcome.bind_eq_ok_iff.1 h
  split at h
  · cases h
  · next hvalid =>
    cases h
    exact ⟨config, hload, hvalid, rfl, rfl⟩

/-- An import that succeeds has stored its record. -/
theorem importPairing_eq_ok {registry registry' : RemoteMachineRegistry} {nowMs : Int}
    {address : Except PairingError Unit} {answer : PairingAnswer}
    {persist : Except RemoteFleetError Unit}
    (h : importPairing registry bundle nowMs address answer persist = .ok registry') :
    registry'.get bundle.endpointId = .ok (importedRecord bundle answer) := by
  obtain ⟨_, -, h⟩ := Outcome.bind_eq_ok_iff.1 h
  split at h
  · cases h
  · obtain ⟨_, -, h⟩ := Outcome.bind_eq_ok_iff.1 h
    rw [RemoteMachineRegistry.insert_eq_ok h]
    have hid : bundle.endpointId = (importedRecord bundle answer).endpointId := rfl
    unfold RemoteMachineRegistry.get RemoteMachineRegistry.store
    rw [Table.find_insert, if_pos hid]

/-- Fewer than eight different addresses come before the first occurrence of this one. -/
def HasRoom (addresses : List SocketAddr) (a : SocketAddr) : Prop :=
  (addresses.takeWhile (· ≠ a)).eraseDups.length < maxRecordDirectAddresses

instance (addresses : List SocketAddr) (a : SocketAddr) : Decidable (HasRoom addresses a) :=
  inferInstanceAs (Decidable (_ < _))

/-- The viewer keeps the candidates there is room for. -/
theorem mem_importedRecord_iff {answer : PairingAnswer}
    (hbundle : bundle.directAddresses = bundleDirectAddresses observed advertised) :
    a ∈ (importedRecord bundle.reread answer).directAddresses ↔
      a ∈ candidates answer.observed observed advertised ∧
        HasRoom (candidates answer.observed observed advertised) a := by
  have hmerged : (importedRecord bundle.reread answer).directAddresses =
      (candidates answer.observed observed advertised).eraseDups.take
        maxRecordDirectAddresses := by
    rw [← mergedDirectAddresses_bundle, ← hbundle]
    rfl
  rw [hmerged]
  exact Firsts.mem_take_eraseDups_iff

end

/-- For every configuration the agent accepts, every list of addresses its endpoint observes and
every list of addresses of the session: after a bundle was created and imported, the viewer has all
configured addresses exactly when there is room for each of them behind the addresses of the session
and the observed ones. Configured addresses are parsed from text, so they hold no flow information.
-/
theorem configured_addresses_kept_iff {host : Host} {b64 : Base64} {origin : PairingOrigin}
    {config : AgentConfig} {pairing : PairingManager} {bundle : PairingBundle}
    {registry registry' : RemoteMachineRegistry} {nowMs : Int} {address : Except PairingError Unit}
    {answer : PairingAnswer} {persist : Except RemoteFleetError Unit}
    (hload : loadConfig origin.file = .ok config)
    (hparsed : ∀ a ∈ config.advertiseAddresses, a.flowinfo = 0)
    (hcreate : createPairingBundle host b64 origin = .ok (pairing, bundle))
    (himport : importPairing registry bundle.reread nowMs address answer persist = .ok registry') :
    (∃ record, registry'.get bundle.endpointId = .ok record ∧
        ∀ a ∈ config.advertiseAddresses, a ∈ record.directAddresses) ↔
      ∀ a ∈ config.advertiseAddresses,
        HasRoom (candidates answer.observed origin.observed config.advertiseAddresses) a := by
  obtain ⟨_, hload', -, -, hbundle⟩ := createPairingBundle_eq_ok hcreate
  cases hload.symm.trans hload'
  have hget : registry'.get bundle.endpointId = .ok (importedRecord bundle.reread answer) :=
    importPairing_eq_ok himport
  -- a configured address is a candidate as it is
  have hcandidate : ∀ a ∈ config.advertiseAddresses,
      a ∈ candidates answer.observed origin.observed config.advertiseAddresses := by
    intro a ha
    refine List.mem_append_right _ (List.mem_map.2 ⟨a, List.mem_append_right _ ha, ?_⟩)
    have hflow := hparsed a ha
    obtain ⟨ip, port, flowinfo, scopeId⟩ := a
    cases hflow
    rfl
  have hkept : ∀ a ∈ config.advertiseAddresses,
      (a ∈ (importedRecord bundle.reread answer).directAddresses ↔
        HasRoom (candidates answer.observed origin.observed config.advertiseAddresses) a) := by
    intro a ha
    rw [mem_importedRecord_iff hbundle]
    exact and_iff_right (hcandidate a ha)
  constructor
  · rintro ⟨record, hrecord, hall⟩ a ha
    cases hrecord.symm.trans hget
    exact (hkept a ha).1 (hall a ha)
  · intro hroom
    exact ⟨_, hget, fun a ha => (hkept a ha).2 (hroom a ha)⟩

/-- A machine that observes some addresses and has others configured. -/
def forwardedOrigin (observed advertised : List SocketAddr) : PairingOrigin where
  configPath := "config.json"
  file := .stored { AgentConfig.default with advertiseAddresses := advertised }
  nodeId := RemoteFleet.machineBundle.nodeId
  endpointId := ⟨RemoteFleet.machineBundle.endpointId⟩
  observed := observed
  nowMs := 0
  secret := zeroSecret

/-- The bundle of such a machine. -/
def forwardedBundle (observed advertised : List SocketAddr) : PairingBundle :=
  (PairingManager.open zeroBase64 0 zeroSecret RemoteFleet.machineBundle.nodeId
    ⟨RemoteFleet.machineBundle.endpointId⟩ (bundleDirectAddresses observed advertised) []).2

/-- The registry of a viewer that imported this bundle only. -/
def forwardedRegistry (observed advertised : List SocketAddr) : RemoteMachineRegistry :=
  RemoteMachineRegistry.empty.store
    (importedRecord (forwardedBundle observed advertised).reread RemoteFleet.machineAnswer)

/-- An address on the machine's own network. -/
def lanAddress : SocketAddr := ⟨.v4 0xC0A8660A, 41641, 0, 0⟩

/-- Eight ports that a router forwards to the machine. -/
def forwardedAddresses : List SocketAddr :=
  [⟨.v4 0xC6336407, 41641, 0, 0⟩, ⟨.v4 0xC6336407, 41642, 0, 0⟩, ⟨.v4 0xC6336407, 41643, 0, 0⟩,
    ⟨.v4 0xC6336407, 41644, 0, 0⟩, ⟨.v4 0xC6336407, 41645, 0, 0⟩, ⟨.v4 0xC6336407, 41646, 0, 0⟩,
    ⟨.v4 0xC6336407, 41647, 0, 0⟩, ⟨.v4 0xC6336407, 41648, 0, 0⟩]

/-- One forwarded port reaches the viewer. -/
theorem configured_addresses_kept_iff_one :
    ∃ record, (forwardedRegistry [lanAddress] [⟨.v4 0xC6336407, 41641, 0, 0⟩]).get
        RemoteFleet.machineBundle.endpointId = .ok record ∧
      ∀ a ∈ [(⟨.v4 0xC6336407, 41641, 0, 0⟩ : SocketAddr)], a ∈ record.directAddresses := by
  have hload : loadConfig (forwardedOrigin [lanAddress] [⟨.v4 0xC6336407, 41641, 0, 0⟩]).file =
      .ok { AgentConfig.default with advertiseAddresses := [⟨.v4 0xC6336407, 41641, 0, 0⟩] } := rfl
  have hcreate : createPairingBundle relayHost zeroBase64
      (forwardedOrigin [lanAddress] [⟨.v4 0xC6336407, 41641, 0, 0⟩]) =
        .ok (⟨some ⟨zeroSecret, pairingWindowMs, []⟩⟩,
          forwardedBundle [lanAddress] [⟨.v4 0xC6336407, 41641, 0, 0⟩]) := rfl
  have himport : importPairing .empty
      (forwardedBundle [lanAddress] [⟨.v4 0xC6336407, 41641, 0, 0⟩]).reread 0 (.ok ())
        RemoteFleet.machineAnswer (.ok ()) =
      .ok (forwardedRegistry [lanAddress] [⟨.v4 0xC6336407, 41641, 0, 0⟩]) := rfl
  exact (configured_addresses_kept_iff hload (by decide) hcreate himport).2 (by decide)

/-- Of eight forwarded ports, which the agent accepts, one does not reach the viewer when the
machine observes an address of its own. -/
theorem configured_address_dropped :
    createPairingBundle relayHost zeroBase64 (forwardedOrigin [lanAddress] forwardedAddresses) =
        .ok (⟨some ⟨zeroSecret, pairingWindowMs, []⟩⟩,
          forwardedBundle [lanAddress] forwardedAddresses) ∧
      importPairing .empty (forwardedBundle [lanAddress] forwardedAddresses).reread 0 (.ok ())
          RemoteFleet.machineAnswer (.ok ()) =
        .ok (forwardedRegistry [lanAddress] forwardedAddresses) ∧
      ¬ ∃ record, (forwardedRegistry [lanAddress] forwardedAddresses).get
          RemoteFleet.machineBundle.endpointId = .ok record ∧
        ∀ a ∈ forwardedAddresses, a ∈ record.directAddresses := by
  refine ⟨rfl, rfl, ?_⟩
  rintro ⟨record, hrecord, hall⟩
  have hdropped : (⟨.v4 0xC6336407, 41648, 0, 0⟩ : SocketAddr) ∉
      (importedRecord (forwardedBundle [lanAddress] forwardedAddresses).reread
        RemoteFleet.machineAnswer).directAddresses := by
    decide
  cases hrecord
  exact hdropped (hall _ (by decide))

end Rackio
