import Rackio.Runtime.ConfigRace

/-!
# Configuration commands, one at a time

The daemon checks a stored configuration with `validate` before it runs on it, and each command that
writes one has checks of its own. `AgentConfig.Valid` spells out what `validate` accepts, and
`valid_of_load` shows that no command makes a configuration the daemon would refuse: what a command
edits, its own checks cover, and the rest it writes back as it loaded it.

`config_commands_valid` follows any number of commands, with any arguments and any outcome of their
saves.
-/

namespace Rackio

/-! ## What validation accepts -/

/-- Advertised addresses the daemon runs with. -/
structure Advertisable (addresses : List SocketAddr) : Prop where
  length_le : addresses.length ≤ maxAdvertiseAddresses
  ports : ∀ address ∈ addresses, address.port ≠ 0
  nodup : addresses.Nodup

/-- A configuration the daemon runs with. -/
structure AgentConfig.Valid (host : Host) (config : AgentConfig) : Prop where
  bindPort : validateBindPort config.bindPort = .ok ()
  relayUrl : validateRelayUrl host config.relayUrl = .ok ()
  relayCaCertificate :
    validateRelayCaCertificate host config.relayUrl config.relayCaCertificate = .ok ()
  addresses : Advertisable config.advertiseAddresses

section
variable {host : Host} {config : AgentConfig} {addresses : List SocketAddr} {address : SocketAddr}

/-- The loop over the addresses accepts those with a port that do not repeat. -/
theorem validateAddresses_eq_ok_iff {seen : List SocketAddr} :
    validateAddresses host seen addresses = .ok () ↔
      (∀ address ∈ addresses, address.port ≠ 0 ∧ address ∉ seen) ∧ addresses.Nodup := by
  induction addresses generalizing seen with
  | nil => exact iff_of_true rfl ⟨fun _ h => (by cases h), List.nodup_nil⟩
  | cons first rest ih =>
    unfold validateAddresses
    rw [List.nodup_cons, List.forall_mem_cons]
    split
    · next hport =>
      refine iff_of_false (fun h => by cases h) ?_
      rintro ⟨⟨⟨hport', -⟩, -⟩, -⟩
      exact hport' hport
    · next hport =>
      split
      · next hseen =>
        refine iff_of_false (fun h => by cases h) ?_
        rintro ⟨⟨⟨-, hfresh⟩, -⟩, -⟩
        exact hfresh hseen
      · next hfresh =>
        rw [ih]
        constructor
        · rintro ⟨hrest, hnodup⟩
          have hnot : first ∉ rest := fun hmem => (hrest first hmem).2 (.head _)
          refine ⟨⟨⟨hport, hfresh⟩, fun a ha => ?_⟩, hnot, hnodup⟩
          exact ⟨(hrest a ha).1, fun hseen => (hrest a ha).2 (.tail _ hseen)⟩
        · rintro ⟨⟨-, hrest⟩, hnot, hnodup⟩
          refine ⟨fun a ha => ⟨(hrest a ha).1, fun hseen => ?_⟩, hnodup⟩
          rcases List.mem_cons.1 hseen with rfl | hseen
          · exact hnot ha
          · exact (hrest a ha).2 hseen

/-- Validation accepts exactly the valid configurations. -/
theorem AgentConfig.validate_eq_ok_iff : config.validate host = .ok () ↔ config.Valid host := by
  have hloop : validateAddresses host [] config.advertiseAddresses = .ok () ↔
      (∀ a ∈ config.advertiseAddresses, a.port ≠ 0 ∧ a ∉ []) ∧ config.advertiseAddresses.Nodup :=
    validateAddresses_eq_ok_iff
  constructor
  · intro h
    obtain ⟨_, hbind, h⟩ := Outcome.bind_eq_ok_iff.1 h
    obtain ⟨_, hurl, h⟩ := Outcome.bind_eq_ok_iff.1 h
    obtain ⟨_, hca, h⟩ := Outcome.bind_eq_ok_iff.1 h
    split at h
    · cases h
    · next hlength =>
      obtain ⟨hports, hnodup⟩ := hloop.1 h
      exact ⟨hbind, hurl, hca, Nat.not_lt.1 hlength, fun a ha => (hports a ha).1, hnodup⟩
  · rintro ⟨hbind, hurl, hca, hlength, hports, hnodup⟩
    refine Outcome.bind_eq_ok_iff.2 ⟨(), hbind, Outcome.bind_eq_ok_iff.2 ⟨(), hurl, ?_⟩⟩
    refine Outcome.bind_eq_ok_iff.2 ⟨(), hca, ?_⟩
    rw [if_neg (Nat.not_lt.2 hlength)]
    exact hloop.2 ⟨fun a ha => ⟨hports a ha, List.not_mem_nil⟩, hnodup⟩

/-! ## The checks of the commands -/

/-- An address that a command accepts has a port. -/
theorem port_of_parseAdvertiseAddress {value : String}
    (h : parseAdvertiseAddress host value = .ok address) : address.port ≠ 0 := by
  unfold parseAdvertiseAddress at h
  split at h
  · cases h
  · split at h
    · cases h
    · next hport =>
      cases h
      exact hport

/-- An address that is added leaves addresses the daemon runs with. -/
theorem Advertisable.add {next : List SocketAddr} (h : Advertisable addresses)
    (hport : address.port ≠ 0) (hadd : addAdvertiseAddress host addresses address = .ok next) :
    Advertisable next := by
  unfold addAdvertiseAddress at hadd
  split at hadd
  · cases hadd
  · next hfresh =>
    split at hadd
    · cases hadd
    · next hroom =>
      cases hadd
      refine ⟨?_, fun a ha => ?_, ?_⟩
      · rw [List.length_append, List.length_singleton]
        exact Nat.not_le.1 hroom
      · rcases List.mem_append.1 ha with ha | ha
        · exact h.ports a ha
        · rw [List.mem_singleton.1 ha]
          exact hport
      · rw [List.nodup_append]
        refine ⟨h.nodup, List.nodup_singleton address, fun a ha b hb => ?_⟩
        rw [List.mem_singleton] at hb
        rintro rfl
        exact hfresh (hb ▸ ha)

/-- So does one that is removed. -/
theorem Advertisable.remove {next : List SocketAddr} (h : Advertisable addresses)
    (hremove : removeAdvertiseAddress host addresses address = .ok next) : Advertisable next := by
  unfold removeAdvertiseAddress at hremove
  dsimp only at hremove
  split at hremove
  · cases hremove
  · cases hremove
    refine ⟨(List.length_filter_le _ _).trans h.length_le, fun a ha => ?_, h.nodup.filter _⟩
    exact h.ports a (List.mem_of_mem_filter ha)

end

/-! ## One command -/

/-- The configuration with the fields of a command cleared. -/
def LocalCommand.others (config : AgentConfig) : LocalCommand → AgentConfig
  | .bindPortSet _ => { config with bindPort := none }
  | .relaySet _ _ => { config with relayUrl := none, relayCaCertificate := none }
  | .alerts _ => { config with alerts := [], alertsEnabled := true }
  | .advertiseAddressAdd _ | .advertiseAddressRemove _ => { config with advertiseAddresses := [] }
  | .advertiseAddressList => config

/-- The command is about thresholds. -/
def LocalCommand.isAlerts : LocalCommand → Bool
  | .alerts _ => true
  | _ => false

section
variable {host : Host} {command : LocalCommand}

/-- A threshold command changes the overrides and the switch only. -/
theorem AlertCommand.change_others {alert : AlertCommand} {change : AgentConfig → AgentConfig}
    (h : alert.change? = some change) (config : AgentConfig) :
    (LocalCommand.alerts alert).others (change config) =
      (LocalCommand.alerts alert).others config := by
  have hentry : ∀ id edit, (LocalCommand.alerts alert).others (alertEntry config id edit) =
      (LocalCommand.alerts alert).others config := by
    intro id edit
    unfold alertEntry
    split <;> rfl
  cases alert with
  | list => cases h
  | set id =>
    cases h
    exact hentry id _
  | ruleEnabled id =>
    cases h
    exact hentry id _
  | reset id =>
    cases id with
    | none =>
      cases h
      rfl
    | some id =>
      cases h
      rfl
  | enabled on =>
    cases h
    rfl

/-- The overrides and the switch are not checked. -/
theorem AgentConfig.Valid.congr_alerts {alert : AlertCommand} {config next : AgentConfig}
    (h : config.Valid host)
    (hothers :
      (LocalCommand.alerts alert).others next = (LocalCommand.alerts alert).others config) :
    next.Valid host := by
  have hbind : next.bindPort = config.bindPort := congrArg (·.bindPort) hothers
  have hurl : next.relayUrl = config.relayUrl := congrArg (·.relayUrl) hothers
  have hca : next.relayCaCertificate = config.relayCaCertificate :=
    congrArg (·.relayCaCertificate) hothers
  have haddresses : next.advertiseAddresses = config.advertiseAddresses :=
    congrArg (·.advertiseAddresses) hothers
  refine ⟨hbind ▸ h.bindPort, hurl ▸ h.relayUrl, ?_, haddresses ▸ h.addresses⟩
  rw [hurl, hca]
  exact h.relayCaCertificate

/-- What a handler is about to save: a valid configuration, as it was but for the fields of its
command. Only a threshold command may fail after the save. -/
structure Sound (host : Host) (command : LocalCommand) (base : AgentConfig) (p : Pending) :
    Prop where
  valid : p.config.Valid host
  others : command.others p.config = command.others base
  answer : command.isAlerts = false → p.effective = none ∧ p.answer.ok = true

/-- A command that loads a valid configuration edits it to a valid one. -/
theorem sound_of_load {file : ConfigFile} {base : AgentConfig} {p : Pending}
    (hbase : loadConfig file = .ok base) (hvalid : base.Valid host)
    (h : command.load host file = .ok p) : Sound host command base p := by
  obtain ⟨edit, base', hprepare, hload, hedit⟩ := LocalCommand.load_eq_ok_iff.1 h
  cases hbase.symm.trans hload
  cases command with
  | bindPortSet bindPort =>
    obtain ⟨_, hcheck, hprepare⟩ := Outcome.bind_eq_ok_iff.1 hprepare
    cases hprepare
    cases hedit
    exact ⟨{ hvalid with bindPort := refuse_eq_ok_iff.1 hcheck }, rfl, fun _ => ⟨rfl, rfl⟩⟩
  | relaySet relayUrl caCertificate =>
    obtain ⟨_, hurl, hprepare⟩ := Outcome.bind_eq_ok_iff.1 hprepare
    obtain ⟨_, hca, hprepare⟩ := Outcome.bind_eq_ok_iff.1 hprepare
    cases hprepare
    cases hedit
    refine ⟨{ hvalid with relayUrl := ?_, relayCaCertificate := ?_ }, rfl, fun _ => ⟨rfl, rfl⟩⟩
    · exact refuse_eq_ok_iff.1 hurl
    · exact refuse_eq_ok_iff.1 hca
  | advertiseAddressAdd value =>
    obtain ⟨address, hparse, hprepare⟩ := Outcome.bind_eq_ok_iff.1 hprepare
    cases hprepare
    obtain ⟨next, hadd, hedit⟩ := Outcome.bind_eq_ok_iff.1 hedit
    cases hedit
    have hport := port_of_parseAdvertiseAddress (refuse_eq_ok_iff.1 hparse)
    refine ⟨{ hvalid with addresses := ?_ }, rfl, fun _ => ⟨rfl, rfl⟩⟩
    exact hvalid.addresses.add hport (refuse_eq_ok_iff.1 hadd)
  | advertiseAddressRemove value =>
    obtain ⟨address, -, hprepare⟩ := Outcome.bind_eq_ok_iff.1 hprepare
    cases hprepare
    obtain ⟨next, hremove, hedit⟩ := Outcome.bind_eq_ok_iff.1 hedit
    cases hedit
    refine ⟨{ hvalid with addresses := ?_ }, rfl, fun _ => ⟨rfl, rfl⟩⟩
    exact hvalid.addresses.remove (refuse_eq_ok_iff.1 hremove)
  | advertiseAddressList =>
    cases hprepare
    cases hedit
  | alerts alert =>
    unfold LocalCommand.prepare at hprepare
    cases hchange : alert.change? with
    | none =>
      simp only [hchange] at hprepare
      cases hprepare
      cases hedit
    | some change =>
      simp only [hchange] at hprepare
      cases hprepare
      obtain ⟨effective, -, rfl⟩ := editAlerts_eq_ok_iff.1 hedit
      have hothers := AlertCommand.change_others hchange base
      exact ⟨hvalid.congr_alerts hothers, hothers, fun h => by cases h⟩

/-- What answering a command does to a valid configuration. -/
structure Answered (host : Host) (command : LocalCommand) (base : AgentConfig) (before : Daemon)
    (after : Daemon × LocalResponse) : Prop where
  stored : ∃ config, loadConfig after.1.file = .ok config ∧ config.validate host = .ok () ∧
    (after.2.ok = true → command.others config = command.others base)
  refused : after.2.ok = false → command.isAlerts = false → after.1.file = before.file

/-- One command on a valid configuration. -/
theorem answered {d : Daemon} {base : AgentConfig} (hload : loadConfig d.file = .ok base)
    (hvalid : base.validate host = .ok ()) (outcome : Except String Unit) :
    Answered host command base d (handleLocal host outcome command d) := by
  have hsame : ∀ response, Answered host command base d (d, response) := fun response =>
    ⟨⟨base, hload, hvalid, fun _ => rfl⟩, fun _ _ => rfl⟩
  rw [handleLocal_eq]
  cases hedit : command.load host d.file with
  | error response => exact hsame response
  | ok p =>
    cases outcome with
    | error e => exact hsame (.failure e)
    | ok _ =>
      have hsound := sound_of_load hload (AgentConfig.validate_eq_ok_iff.1 hvalid) hedit
      have hfile : (p.finish { d with file := .stored p.config }).1.file = .stored p.config :=
        p.finish_file _
      refine ⟨⟨p.config, ?_, AgentConfig.validate_eq_ok_iff.2 hsound.valid, fun _ => ?_⟩, ?_⟩
      · show loadConfig (p.finish _).1.file = _
        rw [hfile]
        rfl
      · exact hsound.others
      · intro hrefused halerts
        obtain ⟨heffective, hok⟩ := hsound.answer halerts
        have hanswer : (p.finish { d with file := .stored p.config }).2.ok = false := hrefused
        unfold Pending.finish at hanswer
        rw [heffective] at hanswer
        simp only [hok] at hanswer
        cases hanswer

end

/-! ## Any number of commands -/

/-- One command, with how the file system takes its save and whether a sampler listens then. -/
structure LocalRequest where
  command : LocalCommand
  outcome : Except String Unit
  samplerAlive : Bool

/-- A daemon answers one request. -/
def LocalRequest.answer (host : Host) (d : Daemon) (request : LocalRequest) :
    Daemon × LocalResponse :=
  handleLocal host request.outcome request.command { d with samplerAlive := request.samplerAlive }

/-- A daemon after a list of requests, one at a time. -/
def Daemon.served (host : Host) (d : Daemon) (requests : List LocalRequest) : Daemon :=
  requests.foldl (fun d request => (request.answer host d).1) d

/-- The stored configuration stays valid. -/
theorem Daemon.served_valid {host : Host} {d : Daemon} {config : AgentConfig}
    (hload : loadConfig d.file = .ok config) (hvalid : config.validate host = .ok ())
    (requests : List LocalRequest) :
    ∃ now, loadConfig (d.served host requests).file = .ok now ∧ now.validate host = .ok () := by
  induction requests generalizing d config with
  | nil => exact ⟨config, hload, hvalid⟩
  | cons request requests ih =>
    have hserved : loadConfig ({ d with samplerAlive := request.samplerAlive } : Daemon).file =
        .ok config := hload
    have hanswered : Answered host request.command config _ (request.answer host d) :=
      answered hserved hvalid request.outcome
    obtain ⟨next, hnext, hvalid', -⟩ := hanswered.stored
    exact ih hnext hvalid'

/-- From every configuration that passes validation, along every list of commands with any arguments
and any outcome: the stored configuration passes validation after each command, a command that
succeeds leaves the fields of the others as they were, and one that is not about thresholds and
fails leaves the file as it was. -/
theorem config_commands_valid {host : Host} {d : Daemon} {config : AgentConfig}
    (hload : loadConfig d.file = .ok config) (hvalid : config.validate host = .ok ())
    (requests : List LocalRequest) :
    ∃ now, loadConfig (d.served host requests).file = .ok now ∧ now.validate host = .ok () ∧
      ∀ request : LocalRequest, Answered host request.command now (d.served host requests)
        (request.answer host (d.served host requests)) := by
  obtain ⟨now, hnow, hvalid'⟩ := Daemon.served_valid hload hvalid requests
  refine ⟨now, hnow, hvalid', fun request => ?_⟩
  have hserved : loadConfig ({ d.served host requests with
      samplerAlive := request.samplerAlive } : Daemon).file = .ok now := hnow
  have hanswered : Answered host request.command now _
      (request.answer host (d.served host requests)) := answered hserved hvalid' request.outcome
  exact ⟨hanswered.stored, hanswered.refused⟩

/-- A daemon whose file holds the default configuration. -/
def defaultDaemon : Daemon := { freshDaemon with file := .stored .default }

/-- After a port was fixed, setting the relay leaves it. -/
theorem config_commands_valid_example :
    ∃ now,
      loadConfig (defaultDaemon.served relayHost [⟨portCommand, .ok (), true⟩]).file = .ok now ∧
      now.validate relayHost = .ok () ∧
      Answered relayHost relayCommand now
        (defaultDaemon.served relayHost [⟨portCommand, .ok (), true⟩])
        (LocalRequest.answer relayHost
          (defaultDaemon.served relayHost [⟨portCommand, .ok (), true⟩])
          ⟨relayCommand, .ok (), true⟩) := by
  have hload : loadConfig defaultDaemon.file = .ok .default := rfl
  have hvalid : AgentConfig.default.validate relayHost = .ok () := by decide
  obtain ⟨now, hload, hvalid, hnext⟩ :=
    config_commands_valid hload hvalid [⟨portCommand, .ok (), true⟩]
  exact ⟨now, hload, hvalid, hnext ⟨relayCommand, .ok (), true⟩⟩

end Rackio
