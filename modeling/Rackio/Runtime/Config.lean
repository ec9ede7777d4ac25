import Rackio.Core.Alert

/-!
# The agent's configuration

The persistent configuration of `runtime/config.rs`: the record, the checks the commands make before
they change a field, the check of a loaded file, and the two operations on the file. A file holds
what its bytes parse to; a threshold reaches it only as a JSON number, which is finite, so a
configuration that was saved loads as it was. What the agent asks of other code (whether a relay
URL parses, whether a PEM file holds a certificate authority, the text of a socket address) is the
parameter `Host`.
-/

namespace Rackio

/-- What the configuration asks of the libraries and of the machine it runs on. -/
structure Host where
  /-- The source's `value.parse::<iroh::RelayUrl>().is_ok()`. -/
  relayUrlParses : String → Bool
  /-- The source's `rackio_iroh::validate_relay_ca_certificate`. -/
  checkRelayCa : String → Except String Unit
  /-- The source's `value.parse::<SocketAddr>()`. -/
  parseSocketAddr : String → Option SocketAddr
  /-- The text a `SocketAddr` prints as. -/
  showSocketAddr : SocketAddr → String

/-- The source's `AgentConfig`. -/
structure AgentConfig where
  relayUrl : Option String
  relayCaCertificate : Option String
  alertsEnabled : Bool
  alerts : List AlertRuleConfig
  bindPort : Option UInt16
  advertiseAddresses : List SocketAddr
  deriving DecidableEq, Repr

/-- The source's `AgentConfig::default`. -/
def AgentConfig.default : AgentConfig where
  relayUrl := none
  relayCaCertificate := none
  alertsEnabled := true
  alerts := []
  bindPort := none
  advertiseAddresses := []

instance : Inhabited AgentConfig := ⟨.default⟩

/-! ## Checks -/

/-- The source's `validate_bind_port`. -/
def validateBindPort (bindPort : Option UInt16) : Except String Unit :=
  if bindPort = some 0 then
    .error "listen port 0 is ephemeral; choose a fixed port or clear the setting"
  else .ok ()

section
variable (host : Host)

/-- The source's `validate_relay_url`. -/
def validateRelayUrl (relayUrl : Option String) : Except String Unit :=
  if relayUrl.any fun value => !host.relayUrlParses value then .error "relay URL is invalid"
  else .ok ()

/-- The source's `validate_relay_ca_certificate`. -/
def validateRelayCaCertificate (relayUrl caCertificate : Option String) : Except String Unit :=
  match caCertificate with
  | none => .ok ()
  | some path =>
    if relayUrl.isNone then
      .error "a relay CA certificate only applies to a relay; set it together with the relay URL"
    else host.checkRelayCa path

/-- The source's `MAX_ADVERTISE_ADDRESSES`. -/
def maxAdvertiseAddresses : Nat := 8

/-- The source's `parse_advertise_address`. -/
def parseAdvertiseAddress (value : String) : Except String SocketAddr :=
  match host.parseSocketAddr value with
  | none =>
    .error ("`" ++ value ++ "` is not an IP address with a port; write it as " ++
      "`198.51.100.7:41641`, or `[2001:db8::1]:41641` for IPv6")
  | some address =>
    if address.port = 0 then
      .error ("port 0 is ephemeral and cannot be advertised; " ++
        "use the UDP port forwarded to this machine")
    else .ok address

/-- The source's `add_advertise_address`. -/
def addAdvertiseAddress (addresses : List SocketAddr) (address : SocketAddr) :
    Except String (List SocketAddr) :=
  if address ∈ addresses then .error (host.showSocketAddr address ++ " is already advertised")
  else if maxAdvertiseAddresses ≤ addresses.length then
    .error ("at most " ++ toString maxAdvertiseAddresses ++ " advertised addresses are kept; " ++
      "remove one with `rackio advertise-address remove <IP:PORT>` first")
  else .ok (addresses ++ [address])

/-- The source's `remove_advertise_address`. -/
def removeAdvertiseAddress (addresses : List SocketAddr) (address : SocketAddr) :
    Except String (List SocketAddr) :=
  let kept := addresses.filter (· ≠ address)
  if kept.length = addresses.length then
    .error (host.showSocketAddr address ++ " is not advertised")
  else .ok kept

/-- The loop of the source's `AgentConfig::validate` over the advertised addresses; `seen` holds
those before. -/
def validateAddresses (seen : List SocketAddr) : List SocketAddr → Except String Unit
  | [] => .ok ()
  | address :: rest =>
    if address.port = 0 then
      .error (host.showSocketAddr address ++
        " cannot be advertised; port 0 is ephemeral and nothing listens on it")
    else if address ∈ seen then
      .error (host.showSocketAddr address ++ " is advertised more than once")
    else validateAddresses (address :: seen) rest

/-- The source's `AgentConfig::validate`: what a loaded file is checked for before the agent runs on
it. The alert overrides are not checked here. -/
def AgentConfig.validate (config : AgentConfig) : Except String Unit := do
  validateBindPort config.bindPort
  validateRelayUrl host config.relayUrl
  validateRelayCaCertificate host config.relayUrl config.relayCaCertificate
  if maxAdvertiseAddresses < config.advertiseAddresses.length then
    .error ("at most " ++ toString maxAdvertiseAddresses ++ " advertised addresses are kept; " ++
      "the file lists " ++ toString config.advertiseAddresses.length)
  validateAddresses host [] config.advertiseAddresses

end

/-! ## Rules -/

/-- The source's `AgentConfig::resolved_alert_rules`. -/
def AgentConfig.resolvedAlertRules (config : AgentConfig) :
    Except String (List ResolvedAlertRule) :=
  resolveAlertRules config.alerts

/-- The rules of a resolved list that the sampler evaluates. -/
def runningRules (rules : List ResolvedAlertRule) : List AlertRule :=
  (rules.filter (·.enabled)).map (·.rule)

/-- The source's `AgentConfig::alert_rules`. A machine whose operator switched alerting off runs no
rule, and its overrides are not resolved. -/
def AgentConfig.alertRules (config : AgentConfig) : Except String (List AlertRule) :=
  if !config.alertsEnabled then .ok []
  else config.resolvedAlertRules.map runningRules

/-- The overrides of a configuration resolve. -/
def AgentConfig.Resolves (config : AgentConfig) : Prop :=
  ∃ rules, config.resolvedAlertRules = .ok rules

/-- Where alerting is on, the rules to run are known only if the overrides resolve. -/
theorem AgentConfig.resolves_of_alertRules {config : AgentConfig} {effective : List AlertRule}
    (hon : config.alertsEnabled = true) (h : config.alertRules = .ok effective) :
    config.Resolves := by
  unfold AgentConfig.alertRules at h
  rw [hon] at h
  cases hr : config.resolvedAlertRules with
  | error e =>
    rw [hr] at h
    cases h
  | ok rules => exact ⟨rules, hr⟩

/-- Where alerting is off, there is no rule to run. -/
theorem AgentConfig.alertRules_of_disabled {config : AgentConfig}
    (hoff : config.alertsEnabled = false) : config.alertRules = .ok [] := by
  unfold AgentConfig.alertRules
  rw [hoff]
  rfl

/-- The rules a configuration runs can fire, and their ids are different. -/
theorem AgentConfig.alertRules_valid {config : AgentConfig} {rules : List AlertRule}
    (h : config.alertRules = .ok rules) :
    (∀ rule ∈ rules, rule.CanFire) ∧ (rules.map (·.id)).Nodup := by
  unfold AgentConfig.alertRules at h
  split at h
  · cases h
    exact ⟨fun _ hr => absurd hr List.not_mem_nil, List.nodup_nil⟩
  · cases hr : config.resolvedAlertRules with
    | error e =>
      rw [hr] at h
      cases h
    | ok resolved =>
      rw [hr] at h
      cases h
      have hfire := (resolveAlertRules_eq_ok_iff.1 hr).2
      have hnodup := resolveAlertRules_nodup hr
      constructor
      · intro rule hrule
        obtain ⟨entry, he, rfl⟩ := List.mem_map.1 hrule
        exact hfire entry (List.mem_of_mem_filter he)
      · unfold runningRules
        rw [List.map_map]
        exact hnodup.sublist (List.filter_sublist.map _)

/-! ## The file -/

/-- What reading the configuration file gives. -/
inductive ConfigFile
  /-- There is no file. -/
  | absent
  /-- The file holds a configuration. -/
  | stored (config : AgentConfig)
  /-- The file cannot be read, or its bytes are not a configuration. -/
  | unreadable (error : String)
  deriving DecidableEq, Repr

/-- The source's `load_config`. -/
def loadConfig : ConfigFile → Except String AgentConfig
  | .absent => .ok .default
  | .stored config => .ok config
  | .unreadable error => .error error

/-- The source's `save_config`: the configuration is written to a temporary file that then replaces
the old one. `outcome` is how the file system takes it; a failure leaves the old file in place. -/
def saveConfig (outcome : Except String Unit) (config : AgentConfig) : Except String ConfigFile :=
  outcome.map fun _ => .stored config

end Rackio
