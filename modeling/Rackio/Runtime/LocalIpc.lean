import Rackio.Runtime.Config

/-!
# Configuration commands of the local IPC

The commands of `runtime/local_ipc.rs` that read or change the configuration. A changing command
loads the file, edits what it loaded, saves, and for a threshold also publishes the rules to the
running sampler through a watch channel. `outcome` is how the file system takes the save.
-/

namespace Rackio

/-! ## Commands and responses -/

/-- The source's `AlertCommand`. -/
inductive AlertCommand
  | list
  | set (id : String) (metric : Option String) (comparison : Option Comparison)
      (threshold : Option F64) (consecutiveSamples : Option UInt32) (severity : Option NodeState)
  | ruleEnabled (id : String) (enabled : Bool)
  | reset (id : Option String)
  | enabled (enabled : Bool)
  deriving DecidableEq, Repr

/-- The source's `LocalCommand`, its commands about the configuration. -/
inductive LocalCommand
  | relaySet (relayUrl caCertificate : Option String)
  | bindPortSet (bindPort : Option UInt16)
  | alerts (alert : AlertCommand)
  | advertiseAddressAdd (address : String)
  | advertiseAddressRemove (address : String)
  | advertiseAddressList
  deriving DecidableEq, Repr

/-- The source's `AlertRuleView`: one effective rule as an operator reads it. -/
structure AlertRuleView where
  id : String
  metric : String
  comparison : Comparison
  threshold : F64
  consecutiveSamples : UInt32
  severity : NodeState
  enabled : Bool
  source : AlertRuleSource
  deriving DecidableEq, Repr

/-- The source's `AlertRuleView::from`. -/
def AlertRuleView.from (resolved : ResolvedAlertRule) : AlertRuleView where
  id := resolved.rule.id
  metric := resolved.rule.metric
  comparison := resolved.rule.comparison
  threshold := resolved.rule.threshold
  consecutiveSamples := resolved.rule.consecutiveSamples
  severity := resolved.rule.severity
  enabled := resolved.enabled
  source := resolved.source

/-- The JSON data the configuration commands answer with. -/
inductive ResponseData
  | savedPort (saved restartRequired : Bool)
  | savedRelay (saved restartRequired : Bool) (relayUrl relayCaCertificate : Option String)
  | savedAddresses (saved restartRequired : Bool) (advertiseAddresses : List SocketAddr)
  | addresses (advertiseAddresses : List SocketAddr)
  | alerts (alertsEnabled : Bool) (rules : List AlertRuleView)
  deriving DecidableEq, Repr

/-- The source's `LocalResponse`. -/
structure LocalResponse where
  ok : Bool
  data : Option ResponseData
  error : Option String
  warnings : List String
  deriving DecidableEq, Repr

/-- The source's `LocalResponse::success`. -/
def LocalResponse.success (data : ResponseData) : LocalResponse := ⟨true, some data, none, []⟩

/-- The source's `LocalResponse::failure`. -/
def LocalResponse.failure (error : String) : LocalResponse := ⟨false, none, some error, []⟩

/-! ## The daemon -/

/-- What a configuration command reads and changes: the file, the value of the watch channel that
carries the rules to the sampler, and whether the sampler still holds its receiver. -/
structure Daemon where
  file : ConfigFile
  published : List AlertRule
  samplerAlive : Bool
  deriving DecidableEq, Repr

/-- The source's `watch::Sender::send`: it fails, and keeps the old value, when no receiver is
left. -/
def Daemon.send (d : Daemon) (rules : List AlertRule) : Option Daemon :=
  if d.samplerAlive then some { d with published := rules } else none

/-! ## Thresholds -/

/-- The source's `alert_entry`, with the change its caller makes to the entry: the operator's entry
for `id`, created empty if there is none. -/
def alertEntry (config : AgentConfig) (id : String)
    (change : AlertRuleConfig → AlertRuleConfig) : AgentConfig :=
  match config.alerts.findIdx? (·.id = id) with
  | some index => { config with alerts := config.alerts.modify index change }
  | none => { config with alerts := config.alerts ++ [change (.new id)] }

/-- The source's `alert_listing`. -/
def alertListing (config : AgentConfig) : LocalResponse :=
  match config.resolvedAlertRules with
  | .ok rules => .success (.alerts config.alertsEnabled (rules.map AlertRuleView.from))
  | .error error => .failure error

/-- The reason `update_alerts` gives when the rules it saved reach no sampler. -/
def samplerGone : String :=
  "thresholds were saved but the sampler is not running; restart the daemon"

/-- The source's `update_alerts`: validate, persist, then publish to the running sampler. -/
def updateAlerts (outcome : Except String Unit) (change : AgentConfig → AgentConfig)
    (d : Daemon) : Daemon × LocalResponse :=
  match loadConfig d.file with
  | .error error => (d, .failure error)
  | .ok loaded =>
    let config := change loaded
    match config.alertRules with
    | .error error => (d, .failure error)
    | .ok effective =>
      match saveConfig outcome config with
      | .error error => (d, .failure error)
      | .ok file =>
        match Daemon.send { d with file } effective with
        | none => ({ d with file }, .failure samplerGone)
        | some d => (d, alertListing config)

/-- The change to the configuration that `handle_alerts` hands to `update_alerts`; a listing makes
none. An absent field of `Set` leaves the entry's own. -/
def AlertCommand.change? : AlertCommand → Option (AgentConfig → AgentConfig)
  | .list => none
  | .set id metric comparison threshold consecutiveSamples severity =>
    some fun config => alertEntry config id fun entry =>
      { entry with
        metric := metric <|> entry.metric
        comparison := comparison <|> entry.comparison
        threshold := threshold <|> entry.threshold
        consecutiveSamples := consecutiveSamples <|> entry.consecutiveSamples
        severity := severity <|> entry.severity }
  | .ruleEnabled id on =>
    some fun config => alertEntry config id fun entry => { entry with enabled := some on }
  | .reset (some id) =>
    some fun config => { config with alerts := config.alerts.filter (·.id ≠ id) }
  | .reset none => some fun config => { config with alerts := [] }
  | .enabled on => some fun config => { config with alertsEnabled := on }

/-- The source's `handle_alerts`. -/
def handleAlerts (outcome : Except String Unit) (command : AlertCommand) (d : Daemon) :
    Daemon × LocalResponse :=
  match command.change? with
  | some change => updateAlerts outcome change d
  | none =>
    match loadConfig d.file with
    | .ok config => (d, alertListing config)
    | .error error => (d, .failure error)

/-! ## The other commands -/

section
variable (host : Host) (outcome : Except String Unit)

/-- The source's handler of `BindPortSet`. -/
def setBindPort (bindPort : Option UInt16) (d : Daemon) : Daemon × LocalResponse :=
  match validateBindPort bindPort with
  | .error error => (d, .failure error)
  | .ok _ =>
    match loadConfig d.file with
    | .error error => (d, .failure error)
    | .ok loaded =>
      let config := { loaded with bindPort := bindPort }
      match saveConfig outcome config with
      | .ok file => ({ d with file }, .success (.savedPort true true))
      | .error error => (d, .failure error)

/-- The source's `set_relay`: the URL and the certificate are checked together and written
together. -/
def setRelay (relayUrl caCertificate : Option String) (d : Daemon) : Daemon × LocalResponse :=
  match validateRelayUrl host relayUrl with
  | .error error => (d, .failure error)
  | .ok _ =>
    match validateRelayCaCertificate host relayUrl caCertificate with
    | .error error => (d, .failure error)
    | .ok _ =>
      match loadConfig d.file with
      | .error error => (d, .failure error)
      | .ok loaded =>
        let config := { loaded with relayUrl := relayUrl, relayCaCertificate := caCertificate }
        match saveConfig outcome config with
        | .ok file =>
          ({ d with file },
            .success (.savedRelay true true config.relayUrl config.relayCaCertificate))
        | .error error => (d, .failure error)

/-- The source's `update_advertise_addresses`. -/
def updateAdvertiseAddresses (address : String)
    (update : List SocketAddr → SocketAddr → Except String (List SocketAddr)) (d : Daemon) :
    Daemon × LocalResponse :=
  match parseAdvertiseAddress host address with
  | .error error => (d, .failure error)
  | .ok address =>
    match loadConfig d.file with
    | .error error => (d, .failure error)
    | .ok loaded =>
      match update loaded.advertiseAddresses address with
      | .error error => (d, .failure error)
      | .ok addresses =>
        let config := { loaded with advertiseAddresses := addresses }
        match saveConfig outcome config with
        | .ok file =>
          ({ d with file }, .success (.savedAddresses true true config.advertiseAddresses))
        | .error error => (d, .failure error)

/-- The source's `handle_local`, its commands about the configuration. -/
def handleLocal (command : LocalCommand) (d : Daemon) : Daemon × LocalResponse :=
  match command with
  | .alerts alert => handleAlerts outcome alert d
  | .bindPortSet bindPort => setBindPort outcome bindPort d
  | .advertiseAddressAdd address =>
    updateAdvertiseAddresses host outcome address (addAdvertiseAddress host) d
  | .advertiseAddressRemove address =>
    updateAdvertiseAddresses host outcome address (removeAdvertiseAddress host) d
  | .advertiseAddressList =>
    match loadConfig d.file with
    | .ok config => (d, .success (.addresses config.advertiseAddresses))
    | .error error => (d, .failure error)
  | .relaySet relayUrl caCertificate => setRelay host outcome relayUrl caCertificate d

end
/-! ## What a threshold command does -/

/-- A listing answers with success exactly when the overrides resolve. -/
theorem alertListing_ok_iff {config : AgentConfig} :
    (alertListing config).ok = true ↔ config.Resolves := by
  unfold alertListing AgentConfig.Resolves
  cases config.resolvedAlertRules with
  | error e => simp [LocalResponse.failure]
  | ok rules => simp [LocalResponse.success]

/-- Only a listing changes nothing by design. -/
theorem AlertCommand.change?_eq_none_iff {command : AlertCommand} :
    command.change? = none ↔ command = .list := by
  cases command with
  | reset id => cases id <;> simp [change?]
  | _ => simp [change?]

/-- A change gets as far as the save, and the save goes through: the file loads, and the rules of
the configuration as changed are known. -/
structure Saves (outcome : Except String Unit) (change : AgentConfig → AgentConfig) (d : Daemon)
    (config : AgentConfig) (effective : List AlertRule) : Prop where
  loads : ∃ loaded, loadConfig d.file = .ok loaded ∧ change loaded = config
  rules : config.alertRules = .ok effective
  saved : outcome = .ok ()

/-- A change either stops before the save and leaves the daemon as it was, or saves the
configuration it made and then publishes its rules to a sampler that listens. -/
theorem updateAlerts_cases (outcome : Except String Unit) (change : AgentConfig → AgentConfig)
    (d : Daemon) :
    (∃ error, updateAlerts outcome change d = (d, .failure error) ∧
      ∀ config effective, ¬ Saves outcome change d config effective) ∨
    ∃ config effective, Saves outcome change d config effective ∧
      updateAlerts outcome change d =
        if d.samplerAlive then
          ({ d with file := .stored config, published := effective }, alertListing config)
        else ({ d with file := .stored config }, .failure samplerGone) := by
  unfold updateAlerts
  cases hload : loadConfig d.file with
  | error e =>
    refine .inl ⟨e, rfl, ?_⟩
    rintro config effective ⟨⟨loaded, hl, -⟩, -, -⟩
    rw [hload] at hl
    cases hl
  | ok loaded =>
  cases hrules : (change loaded).alertRules with
  | error e =>
    refine .inl ⟨e, by simp only [hrules], ?_⟩
    rintro config effective ⟨⟨loaded', hl, rfl⟩, hr, -⟩
    rw [hload] at hl
    cases hl
    rw [hrules] at hr
    cases hr
  | ok effective =>
  cases houtcome : outcome with
  | error e =>
    refine .inl ⟨e, by simp only [hrules, saveConfig, Except.map], ?_⟩
    rintro config effective ⟨-, -, hs⟩
    cases hs
  | ok u =>
    refine .inr ⟨change loaded, effective, ⟨⟨loaded, hload, rfl⟩, hrules, rfl⟩, ?_⟩
    simp only [hrules, saveConfig, Except.map, Daemon.send]
    cases d.samplerAlive <;> rfl

/-- The answer to a threshold command tells what it did: a refused one left the daemon as it was,
and after a change that was accepted the file holds a configuration whose overrides resolve and
the sampler has its rules. -/
def TruthfulAnswer (command : AlertCommand) (before : Daemon) (after : Daemon × LocalResponse) :
    Prop :=
  (after.2.ok = false → after.1 = before) ∧
    (after.2.ok = true → command ≠ .list →
      ∃ config, after.1.file = .stored config ∧ config.Resolves ∧
        config.alertRules = .ok after.1.published)

/-- The change of a command leaves alerting off and overrides that do not resolve, and nothing stops
its save: the file loads, the file system takes the new one, and it is not the file and the rules
the daemon already has. -/
def SavesUnresolved (outcome : Except String Unit) (command : AlertCommand) (d : Daemon) : Prop :=
  ∃ change loaded, command.change? = some change ∧ loadConfig d.file = .ok loaded ∧
    outcome = .ok () ∧ (change loaded).alertsEnabled = false ∧ ¬ (change loaded).Resolves ∧
    ¬ (d.file = .stored (change loaded) ∧ d.published = [])

/-- After a save, the answer is truthful if the overrides resolve, or if the save and the
publication changed nothing. -/
theorem truthfulAnswer_saved {command : AlertCommand} {d : Daemon} {config : AgentConfig}
    {effective : List AlertRule} (hrules : config.alertRules = .ok effective) :
    TruthfulAnswer command d
        ({ d with file := .stored config, published := effective }, alertListing config) ↔
      config.Resolves ∨ d.file = .stored config ∧ d.published = effective := by
  constructor
  · rintro ⟨hrefused, -⟩
    cases hok : (alertListing config).ok with
    | true => exact .inl (alertListing_ok_iff.1 hok)
    | false =>
      have heq := hrefused hok
      exact .inr ⟨(congrArg Daemon.file heq).symm, (congrArg Daemon.published heq).symm⟩
  · rintro (hres | ⟨hfile, hpub⟩)
    · have hok := alertListing_ok_iff.2 hres
      refine ⟨fun hno => ?_, fun _ _ => ⟨config, rfl, hres, hrules⟩⟩
      rw [hok] at hno
      cases hno
    · refine ⟨fun _ => ?_, fun hok _ => ⟨config, rfl, alertListing_ok_iff.1 hok, hrules⟩⟩
      rw [← hfile, ← hpub]

/-- A command's answer is truthful unless its change leaves alerting off and overrides that do not
resolve: `alert_rules` then asks nothing of the overrides, so the configuration is saved, and only
the listing that makes the answer resolves them. -/
theorem truthfulAnswer_iff (outcome : Except String Unit) (command : AlertCommand) (d : Daemon)
    (halive : d.samplerAlive = true) :
    TruthfulAnswer command d (handleAlerts outcome command d) ↔
      ¬ SavesUnresolved outcome command d := by
  unfold handleAlerts
  cases hchange : command.change? with
  | none =>
    have hlist : command = .list := AlertCommand.change?_eq_none_iff.1 hchange
    refine iff_of_true ⟨fun _ => ?_, fun _ hc => absurd hlist hc⟩ ?_
    · show (match loadConfig d.file with
        | .ok config => (d, alertListing config)
        | .error error => (d, .failure error)).1 = d
      split <;> rfl
    · rintro ⟨change, loaded, hc, -⟩
      rw [hchange] at hc
      cases hc
  | some change =>
  show TruthfulAnswer command d (updateAlerts outcome change d) ↔ _
  obtain ⟨error, heq, hno⟩ | ⟨config, effective, ⟨⟨loaded, hload, hconfig⟩, hrules, hsaved⟩, heq⟩ :=
    updateAlerts_cases outcome change d
  · -- refused before the save
    rw [heq]
    refine iff_of_true ⟨fun _ => rfl, fun hok => ?_⟩ ?_
    · cases hok
    · rintro ⟨change', loaded, hc, hload, hsaved, hoff, -⟩
      rw [hchange] at hc
      cases hc
      exact hno _ _ ⟨⟨loaded, hload, rfl⟩, AgentConfig.alertRules_of_disabled hoff, hsaved⟩
  · -- saved and published
    subst hconfig
    rw [heq, if_pos halive, truthfulAnswer_saved hrules, ← not_iff_not, not_not, not_or]
    constructor
    · rintro ⟨hres, hsame⟩
      have hoff : (change loaded).alertsEnabled = false := by
        by_contra hon
        exact hres (AgentConfig.resolves_of_alertRules (by simpa using hon) hrules)
      rw [AgentConfig.alertRules_of_disabled hoff] at hrules
      cases hrules
      exact ⟨change, loaded, hchange, hload, hsaved, hoff, hres, hsame⟩
    · rintro ⟨change', loaded', hc, hl, -, hoff, hres, hsame⟩
      rw [hchange] at hc
      cases hc
      rw [hload] at hl
      cases hl
      rw [AgentConfig.alertRules_of_disabled hoff] at hrules
      cases hrules
      exact ⟨hres, hsame⟩

/-- The daemon of a fresh machine with no configuration file. -/
def freshDaemon : Daemon := ⟨.absent, defaultAlertRules, true⟩

/-- Raising one threshold of a fresh machine to 80 is answered truthfully. -/
theorem truthfulAnswer_fresh :
    freshDaemon.samplerAlive = true ∧
      TruthfulAnswer (.set "disk-capacity-warning" none none (some ⟨0x4054000000000000⟩) none none)
        freshDaemon
        (handleAlerts (.ok ())
          (.set "disk-capacity-warning" none none (some ⟨0x4054000000000000⟩) none none)
          freshDaemon) := by
  refine ⟨rfl, (truthfulAnswer_iff _ _ _ rfl).2 ?_⟩
  rintro ⟨change, loaded, hc, hl, -, hoff, -⟩
  cases hc
  cases hl
  cases hoff

/-- The daemon of a machine whose operator switched alerting off. -/
def silencedDaemon : Daemon :=
  ⟨.stored { AgentConfig.default with alertsEnabled := false }, [], true⟩

/-- With alerting off, a threshold for a rule Rackio does not ship is refused, and saved. -/
theorem refused_yet_saved :
    silencedDaemon.samplerAlive = true ∧
      ¬ TruthfulAnswer (.set "gpu" none none (some ⟨0x4054000000000000⟩) none none) silencedDaemon
        (handleAlerts (.ok ()) (.set "gpu" none none (some ⟨0x4054000000000000⟩) none none)
          silencedDaemon) := by
  refine ⟨rfl, fun h => ?_⟩
  have hsame := congrArg Daemon.file (h.1 (by decide))
  revert hsame
  decide

end Rackio
