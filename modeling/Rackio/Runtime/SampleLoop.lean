import Rackio.Core.Evaluator
import Rackio.Runtime.Publication
import Rackio.Runtime.Sampling

/-!
# The sampling loop and the published health

A whole turn of `sample_loop` of `agent/src/runtime/sampling.rs`: the sample is judged by the rules
the watch channel then holds, the health is projected from the collector's errors and the active
alerts, the sample is shown and buffered, and the two store calls change the health again when they
fail or recover. `Runtime.Sampling` has the part of the turn that writes the store.

Health is rewritten in four places of a turn. Whatever happens in them, after every turn it is the
projection of the sample's errors, of the last store outcome that counts and of the alerts that are
active (`health_projected`).
-/

namespace Rackio

/-! ## Published rules -/

/-- A value of the watch channel: the effective rules of some configuration. -/
structure PublishedRules where
  rules : List AlertRule
  effective : ∃ config : AgentConfig, config.alertRules = .ok rules

/-- A published rule can fire. -/
theorem PublishedRules.canFire (p : PublishedRules) {rule : AlertRule} (h : rule ∈ p.rules) :
    rule.CanFire := by
  obtain ⟨config, hrules⟩ := p.effective
  exact (AgentConfig.alertRules_valid hrules).1 rule h

/-- Published rules have different ids. -/
theorem PublishedRules.nodup (p : PublishedRules) : (p.rules.map (·.id)).Nodup := by
  obtain ⟨config, hrules⟩ := p.effective
  exact (AgentConfig.alertRules_valid hrules).2

/-- The rules of the file are what `run_daemon` publishes first. -/
theorem ConfigFile.effective_of_rules {file : ConfigFile} {rules : List AlertRule}
    (h : file.rules = .ok rules) : ∃ config : AgentConfig, config.alertRules = .ok rules := by
  obtain ⟨config, -, hrules⟩ := Outcome.bind_eq_ok_iff.1 h
  exact ⟨config, hrules⟩

/-- A handler that has loaded holds the rules of the configuration it saves, or none. -/
def LocalPhase.Holds : LocalPhase → Prop
  | .loaded p | .saved p => ∀ rules, p.effective = some rules → p.config.alertRules = .ok rules
  | _ => True

/-- What a command loaded holds the rules of the configuration it saves. -/
theorem LocalPhase.holds_of_load {host : Host} {command : LocalCommand} {file : ConfigFile}
    {p : Pending} (h : command.load host file = .ok p) : LocalPhase.Holds (.loaded p) := by
  obtain ⟨edit, base, hprep, -, hedit⟩ := LocalCommand.load_eq_ok_iff.1 h
  intro rules heff
  cases LocalCommand.edits_of_prepare hprep with
  | overwrite =>
    cases hedit
    cases heff
  | addresses =>
    obtain ⟨_, -, hedit⟩ := Outcome.bind_eq_ok_iff.1 hedit
    cases hedit
    cases heff
  | alerts =>
    obtain ⟨effective, hrules, rfl⟩ := editAlerts_eq_ok_iff.1 hedit
    cases heff
    exact hrules
  | read => cases hedit

/-- The watch channel holds the rules of some configuration, and so does every handler. -/
structure LocalServing.Effective (s : LocalServing) : Prop where
  published : ∃ config : AgentConfig, config.alertRules = .ok s.daemon.published
  task : ∀ (i : Nat) (task : LocalTask), s.tasks[i]? = some task → task.phase.Holds

section
variable {host : Host} {s t : LocalServing} {e : LocalTurn} {i : Nat}

/-- A task moves on, and the watch channel may take its rules. -/
theorem LocalServing.Effective.move {phase : LocalPhase} {moved : LocalTask} {daemon : Daemon}
    (h : s.Effective) (hi : s.tasks[i]? = some moved) (hphase : phase.Holds)
    (hpub : ∃ config : AgentConfig, config.alertRules = .ok daemon.published) :
    LocalServing.Effective { s.move i phase with daemon } where
  published := hpub
  task := by
    intro j task hj
    rcases eq_or_ne i j with rfl | hne
    · rw [show _ = _ from LocalServing.move_self hi] at hj
      cases hj
      exact hphase
    · rw [show _ = _ from LocalServing.move_ne hne] at hj
      exact h.task j task hj

/-- A command publishes the rules it holds, if it publishes. -/
theorem Pending.finish_effective {p : Pending} {d : Daemon}
    (hp : ∀ rules, p.effective = some rules → p.config.alertRules = .ok rules)
    (hd : ∃ config : AgentConfig, config.alertRules = .ok d.published) :
    ∃ config : AgentConfig, config.alertRules = .ok (p.finish d).1.published := by
  unfold Pending.finish
  cases heff : p.effective with
  | none => exact hd
  | some rules =>
    simp only [Daemon.send]
    cases d.samplerAlive with
    | true => exact ⟨p.config, hp rules heff⟩
    | false => exact hd

/-- One step of a daemon keeps the watch channel a list of effective rules. -/
theorem LocalServing.Effective.step (h : s.Effective)
    (hstep : Lts.Fires (LocalServing.step host) s e t) : t.Effective := by
  cases LocalServing.moves_of_step hstep with
  | refused ht => exact h.move ht trivial h.published
  | loaded ht hload => exact h.move ht (LocalPhase.holds_of_load hload) h.published
  | unsaved ht => exact h.move ht trivial h.published
  | @saved i command p ht =>
    have hp : LocalPhase.Holds (.loaded p) := h.task i _ ht
    exact h.move ht hp h.published
  | @finished i command p ht =>
    have hp : LocalPhase.Holds (.saved p) := h.task i _ ht
    exact h.move ht trivial (Pending.finish_effective hp h.published)

/-- Whatever commands are about to begin, a daemon that runs the rules of its file holds the rules
of a configuration. -/
theorem LocalServing.effective_start {d : Daemon} (commands : List LocalCommand)
    (hsaved : d.RunsSaved) : (LocalServing.start d commands).Effective where
  published := ConfigFile.effective_of_rules hsaved
  task := by
    intro i task hi
    rw [LocalServing.start, List.getElem?_map, Option.map_eq_some_iff] at hi
    obtain ⟨command, -, rfl⟩ := hi
    exact trivial

end

/-! ## Health -/

/-- The source's `healthy`. -/
def healthy : HealthSnapshot := ⟨.healthy, false, false, false, []⟩

/-- The tokens of the degradation flags that are set, in the order of `project_health`. -/
def HealthSnapshot.tokens (health : HealthSnapshot) : List String :=
  ([(health.collectorDegraded, "collector_degraded"), (health.storageDegraded, "storage_degraded"),
    (health.remoteListenerDegraded, "remote_listener_degraded")].filter (·.1)).map (·.2)

/-- Some degradation flag is set. -/
def HealthSnapshot.flagged (health : HealthSnapshot) : Bool :=
  health.collectorDegraded || health.storageDegraded || health.remoteListenerDegraded

/-- The source's `project_health`. -/
def projectHealth (health : HealthSnapshot) (severity : Option NodeState)
    (alertDetails : List String) : HealthSnapshot :=
  { health with
    details := health.tokens ++ alertDetails
    state := if health.flagged then .degraded else severity.getD .healthy }

/-- The source's `apply_health`. -/
def applyHealth (health : HealthSnapshot) (errors : List CollectorError)
    (severity : Option NodeState) (alertDetails : List String) : HealthSnapshot :=
  projectHealth { health with collectorDegraded := !errors.isEmpty } severity alertDetails

/-! ## One turn -/

/-- The loop commits a batch on this turn. -/
def Sampler.batchDue (s : Sampler) (tick : Tick) : Bool := 5 ≤ (s.pending ++ [tick.sample]).length

/-- The loop prunes on this turn. -/
def Sampler.pruneDue (s : Sampler) : Bool := 300 ≤ min (s.pruneCounter + 1) 65535

/-- What the outcome of a batch does to the health. -/
def insertHealth (health : HealthSnapshot) (insertOk : Bool) (severity : Option NodeState)
    (alertDetails : List String) : HealthSnapshot :=
  if insertOk then
    if health.storageDegraded then
      projectHealth { health with storageDegraded := false } severity alertDetails
    else health
  else projectHealth { health with storageDegraded := true } severity alertDetails

/-- What the outcome of a `prune` does to the health: a success leaves it as it is. -/
def pruneHealth (health : HealthSnapshot) (pruneOk : Bool) (severity : Option NodeState)
    (alertDetails : List String) : HealthSnapshot :=
  if pruneOk then health
  else projectHealth { health with storageDegraded := true } severity alertDetails

/-- The state of `sample_loop`, and what it shares with the rest of the agent. -/
structure SampleLoop where
  alerts : AlertEvaluator
  health : HealthSnapshot
  latest : Option MetricSample
  trend : TrendWindow
  sampler : Sampler

/-- One turn of the source's `sample_loop`: the loop after it and the signals it logs. -/
def SampleLoop.turn (s : SampleLoop) (rules : List AlertRule) (tick : Tick) :
    SampleLoop × List AlertSignal :=
  let (alerts, signals) := s.alerts.evaluate tick.sample rules
  let severity := alerts.worstActiveSeverity
  let alertDetails := alerts.activeDetails
  let health := applyHealth s.health tick.sample.errors severity alertDetails
  let latest := some tick.sample
  let trend := s.trend.push (.from tick.sample)
  let health :=
    if s.sampler.batchDue tick then insertHealth health tick.insertOk severity alertDetails
    else health
  let sampler := s.sampler.collect tick
  let health :=
    if sampler.pruneDue then pruneHealth health tick.pruneOk severity alertDetails else health
  (⟨alerts, health, latest, trend, sampler.maintain tick⟩, signals)

/-- The loop as `run_daemon` starts it, on a store and a trend that may hold anything. -/
def SampleLoop.start (store : MetricStore) (trend : TrendWindow) : SampleLoop :=
  ⟨.default, healthy, none, trend, ⟨store, [], 0⟩⟩

/-- What one turn meets: the rules in the watch channel, and the rest. -/
structure SampleTurn where
  published : PublishedRules
  tick : Tick

/-- The part of a turn the evaluator sees. -/
def SampleTurn.alertTick (turn : SampleTurn) : AlertTick := ⟨turn.tick.sample, turn.published.rules⟩

/-- The loop after a list of turns. -/
def SampleLoop.run (s : SampleLoop) (turns : List SampleTurn) : SampleLoop :=
  turns.foldl (fun s turn => (s.turn turn.published.rules turn.tick).1) s

/-! ## The projection -/

/-- The store outcomes of the turn after `n` others that set or clear the storage flag: every fifth
turn commits a batch, and every 300th prunes; a `prune` that succeeds says nothing. -/
def storeOutcomes (n : Nat) (tick : Tick) : List Bool :=
  (if (n + 1) % 5 = 0 then [tick.insertOk] else []) ++
    if (n + 1) % 300 = 0 ∧ tick.pruneOk = false then [false] else []

/-- All store outcomes of a run that set or clear the storage flag, in order. -/
def allOutcomes (turns : List SampleTurn) : List Bool :=
  turns.zipIdx.flatMap fun turn => storeOutcomes turn.2 turn.1.tick

/-- The outcomes of one more turn come last. -/
theorem allOutcomes_snoc (turns : List SampleTurn) (turn : SampleTurn) :
    allOutcomes (turns ++ [turn]) = allOutcomes turns ++ storeOutcomes turns.length turn.tick := by
  simp [allOutcomes, List.zipIdx_append]

/-- The health after a turn is the projection of what is true then. -/
structure Projected (turns : List SampleTurn) (turn : SampleTurn) (s : SampleLoop) : Prop where
  /-- The collector flag says whether the sample carried errors. -/
  collector : s.health.collectorDegraded = true ↔ turn.tick.sample.errors ≠ []
  /-- The storage flag says whether the last outcome that counts was a failure. -/
  storage : s.health.storageDegraded = true ↔
    (allOutcomes (turns ++ [turn])).getLast? = some false
  /-- Nothing in the agent sets the listener flag. -/
  listener : s.health.remoteListenerDegraded = false
  /-- The state is degraded when a flag is set. -/
  degraded : s.health.state = .degraded ↔ s.health.flagged = true
  /-- Otherwise it is the worst severity of an active alert. -/
  severity : s.health.flagged = false →
    (∃ id alert, s.alerts.active.find id = some alert ∧ s.health.state = alert.severity ∧
      ∀ id' alert', s.alerts.active.find id' = some alert' →
        severityRank alert'.severity ≤ severityRank alert.severity) ∨
      (∀ id, s.alerts.active.find id = none) ∧ s.health.state = .healthy
  /-- The lines are the tokens of the flags, then those of the alerts, worst first. -/
  details : ∃ rows : List (String × ActiveAlert), rows.Perm s.alerts.active.rows ∧
    rows.Pairwise ShownBefore ∧ s.health.details =
      (if turn.tick.sample.errors ≠ [] then ["collector_degraded"] else []) ++
        (if (allOutcomes (turns ++ [turn])).getLast? = some false then ["storage_degraded"]
          else []) ++ rows.map (·.2.detail)

/-- A snapshot whose flags are these, with the lines and the state they give with the alerts. -/
structure HealthSnapshot.Reports (health : HealthSnapshot) (alerts : AlertEvaluator)
    (collector storage listener : Bool) : Prop where
  collector : health.collectorDegraded = collector
  storage : health.storageDegraded = storage
  listener : health.remoteListenerDegraded = listener
  details : health.details = health.tokens ++ alerts.activeDetails
  state : health.state =
    if health.flagged then .degraded else alerts.worstActiveSeverity.getD .healthy

section
variable {health : HealthSnapshot} {alerts : AlertEvaluator} {collector storage listener : Bool}

/-- `project_health` makes a snapshot report its flags. -/
theorem reports_projectHealth (health : HealthSnapshot) (alerts : AlertEvaluator) :
    (projectHealth health alerts.worstActiveSeverity alerts.activeDetails).Reports alerts
      health.collectorDegraded health.storageDegraded health.remoteListenerDegraded :=
  ⟨rfl, rfl, rfl, rfl, rfl⟩

/-- Setting the storage flag and projecting keeps the other flags. -/
theorem HealthSnapshot.Reports.setStorage (h : health.Reports alerts collector storage listener)
    (flag : Bool) :
    (projectHealth { health with storageDegraded := flag } alerts.worstActiveSeverity
      alerts.activeDetails).Reports alerts collector flag listener := by
  rw [← h.collector, ← h.listener]
  exact reports_projectHealth { health with storageDegraded := flag } alerts

/-- The outcome of a batch decides the storage flag. -/
theorem HealthSnapshot.Reports.insertHealth (h : health.Reports alerts collector storage listener)
    (insertOk : Bool) :
    (insertHealth health insertOk alerts.worstActiveSeverity alerts.activeDetails).Reports alerts
      collector (!insertOk) listener := by
  unfold Rackio.insertHealth
  cases insertOk with
  | false => exact h.setStorage true
  | true =>
    rw [if_pos rfl]
    cases hflag : health.storageDegraded with
    | true => exact h.setStorage false
    | false =>
      have hstorage : storage = false := h.storage.symm.trans hflag
      subst hstorage
      exact h

/-- A `prune` that fails sets the storage flag. -/
theorem HealthSnapshot.Reports.pruneHealth (h : health.Reports alerts collector storage listener)
    (pruneOk : Bool) :
    (pruneHealth health pruneOk alerts.worstActiveSeverity alerts.activeDetails).Reports alerts
      collector (storage || !pruneOk) listener := by
  unfold Rackio.pruneHealth
  cases pruneOk with
  | false =>
    rw [Bool.not_false, Bool.or_true]
    exact h.setStorage true
  | true =>
    rw [Bool.not_true, Bool.or_false]
    exact h

end

/-- The storage flag after some outcomes: that of the last one. -/
def flagAfter (flag : Bool) (outcomes : List Bool) : Bool := outcomes.getLast?.elim flag (!·)

/-- The store outcomes of a turn, from the counters of the loop. -/
def Sampler.outcomes (s : Sampler) (tick : Tick) : List Bool :=
  (if s.batchDue tick then [tick.insertOk] else []) ++
    if (s.collect tick).pruneDue ∧ tick.pruneOk = false then [false] else []

/-- What a turn leaves in the health. -/
theorem SampleLoop.reports_turn (s : SampleLoop) (rules : List AlertRule) (tick : Tick) :
    (s.turn rules tick).1.health.Reports (s.turn rules tick).1.alerts
      (!tick.sample.errors.isEmpty)
      (flagAfter s.health.storageDegraded (s.sampler.outcomes tick))
      s.health.remoteListenerDegraded := by
  simp only [SampleLoop.turn, Sampler.outcomes]
  generalize (s.alerts.evaluate tick.sample rules).1 = alerts
  have happlied := reports_projectHealth
    { s.health with collectorDegraded := !tick.sample.errors.isEmpty } alerts
  -- the health after the batch
  have hinserted : (if s.sampler.batchDue tick then
        Rackio.insertHealth (applyHealth s.health tick.sample.errors alerts.worstActiveSeverity
          alerts.activeDetails) tick.insertOk alerts.worstActiveSeverity alerts.activeDetails
      else applyHealth s.health tick.sample.errors alerts.worstActiveSeverity
        alerts.activeDetails).Reports alerts (!tick.sample.errors.isEmpty)
      (flagAfter s.health.storageDegraded
        (if s.sampler.batchDue tick then [tick.insertOk] else []))
      s.health.remoteListenerDegraded := by
    split
    · exact happlied.insertHealth tick.insertOk
    · exact happlied
  cases hprune : (s.sampler.collect tick).pruneDue with
  | false =>
    simp only [Bool.false_eq_true, if_false, false_and, List.append_nil]
    exact hinserted
  | true =>
    simp only [if_true, true_and]
    have hpruned := hinserted.pruneHealth tick.pruneOk
    cases hok : tick.pruneOk with
    | true =>
      simp only [Bool.true_eq_false, if_false, List.append_nil]
      rw [hok, Bool.not_true, Bool.or_false] at hpruned
      exact hpruned
    | false =>
      rw [hok, Bool.not_false, Bool.or_true] at hpruned
      simpa [flagAfter] using hpruned

/-! ## Runs -/

/-- What a run keeps: the evaluator has seen every turn, the counters of the loop follow the number
of turns, and the storage flag is that of the last outcome that counts. -/
structure Synced (turns : List SampleTurn) (s : SampleLoop) : Prop where
  alerts : s.alerts = evaluatorAfter (turns.map SampleTurn.alertTick)
  pending : s.sampler.pending.length = turns.length % 5
  counter : s.sampler.pruneCounter = turns.length % 300
  storage : s.health.storageDegraded = flagAfter false (allOutcomes turns)
  listener : s.health.remoteListenerDegraded = false

section
variable {turns : List SampleTurn} {turn : SampleTurn} {s : SampleLoop}

/-- Before the first turn. -/
theorem Synced.start (store : MetricStore) (trend : TrendWindow) :
    Synced [] (.start store trend) :=
  ⟨rfl, rfl, rfl, rfl, rfl⟩

/-- A batch is due on every fifth turn. -/
theorem Synced.batchDue (h : Synced turns s) (tick : Tick) :
    s.sampler.batchDue tick = true ↔ (turns.length + 1) % 5 = 0 := by
  have hpending := h.pending
  rw [Sampler.batchDue, decide_eq_true_eq, List.length_append, List.length_singleton]
  omega

/-- A `prune` is due on every 300th turn. -/
theorem Synced.pruneDue (h : Synced turns s) (tick : Tick) :
    (s.sampler.collect tick).pruneDue = true ↔ (turns.length + 1) % 300 = 0 := by
  rw [Sampler.pruneDue, decide_eq_true_eq, Sampler.pruneCounter_collect, h.counter]
  omega

/-- The store outcomes of a turn are those its number says. -/
theorem Synced.outcomes (h : Synced turns s) (tick : Tick) :
    s.sampler.outcomes tick = storeOutcomes turns.length tick := by
  unfold Sampler.outcomes storeOutcomes
  simp only [h.batchDue tick, h.pruneDue tick]

/-- The storage flag after more outcomes. -/
theorem flagAfter_append (flag : Bool) (xs ys : List Bool) :
    flagAfter flag (xs ++ ys) = flagAfter (flagAfter flag xs) ys := by
  unfold flagAfter
  rw [List.getLast?_append]
  cases ys.getLast? <;> rfl

/-- One turn keeps what a run keeps. -/
theorem Synced.next (h : Synced turns s) (turn : SampleTurn) :
    Synced (turns ++ [turn]) (s.turn turn.published.rules turn.tick).1 where
  alerts := by
    rw [List.map_append]
    show (s.alerts.evaluate turn.tick.sample turn.published.rules).1 = _
    rw [h.alerts]
    exact (evaluatorAfter_snoc _ turn.alertTick).symm
  pending := by
    have hpending := h.pending
    show ((s.sampler.collect turn.tick).maintain turn.tick).pending.length = _
    rw [Sampler.pending_maintain, Sampler.length_pending_collect _ _ (by omega), hpending,
      List.length_append, List.length_singleton]
    omega
  counter := by
    have hcounter := h.counter
    show ((s.sampler.collect turn.tick).maintain turn.tick).pruneCounter = _
    rw [Sampler.pruneCounter_maintain, Sampler.pruneCounter_collect, hcounter, List.length_append,
      List.length_singleton]
    · omega
    · rw [Sampler.pruneCounter_collect]
      omega
  storage := by
    rw [allOutcomes_snoc, flagAfter_append, ← h.storage, ← h.outcomes]
    exact (s.reports_turn _ _).storage
  listener := (s.reports_turn _ _).listener.trans h.listener

/-- What a run leaves. -/
theorem synced_run (store : MetricStore) (trend : TrendWindow) (turns : List SampleTurn) :
    Synced turns ((SampleLoop.start store trend).run turns) := by
  induction turns using List.reverseRecOn with
  | nil => exact Synced.start store trend
  | append_singleton turns turn ih =>
    rw [SampleLoop.run, List.foldl_append]
    exact ih.next turn

/-- The alerts after a turn are those of the published rules, which report a warning or a critical
state. -/
theorem severity_of_active (h : Synced turns s) (turn : SampleTurn) {id : String}
    {alert : ActiveAlert}
    (hfind : (s.turn turn.published.rules turn.tick).1.alerts.active.find id = some alert) :
    alert.severity ≠ .degraded := by
  have hd : ∀ tick ∈ turns.map SampleTurn.alertTick, tick.Distinct := by
    intro tick ht
    obtain ⟨past, -, rfl⟩ := List.mem_map.1 ht
    exact past.published.nodup
  have hlaw : EvaluatesTo (turns.map SampleTurn.alertTick) turn.alertTick :=
    evaluatesTo hd turn.published.nodup
  have halerts := (h.next turn).alerts
  rw [List.map_append, List.map_singleton] at halerts
  rw [halerts] at hfind
  cases hlists : turn.alertTick.lists id with
  | false =>
    rw [(hlaw.unlisted id hlists).2.1] at hfind
    cases hfind
  | true =>
    obtain ⟨rule, hr, rfl⟩ := containsRule_iff.1 hlists
    obtain ⟨reading, -, rfl⟩ := hlaw.stored rule hr alert hfind
    rcases (turn.published.canFire hr).severity with hs | hs
    · rw [hs]
      exact nofun
    · rw [hs]
      exact nofun

/-- The flag is set when the last outcome that counts was a failure. -/
theorem flagAfter_eq_true {outcomes : List Bool} :
    flagAfter false outcomes = true ↔ outcomes.getLast? = some false := by
  unfold flagAfter
  rcases outcomes.getLast? with _ | (_ | _) <;> simp

end

/-- Whatever the collector reports, the rules are and the store does, after every turn of the loop
the published health is the projection of what is true then: of the errors of the turn's sample, of
the last store outcome that counts, and of the alerts that are active. -/
theorem health_projected (store : MetricStore) (trend : TrendWindow) (turns : List SampleTurn)
    (turn : SampleTurn) :
    Projected turns turn ((SampleLoop.start store trend).run (turns ++ [turn])) := by
  have hsynced := synced_run store trend turns
  have hnext := synced_run store trend (turns ++ [turn])
  have hrun : (SampleLoop.start store trend).run (turns ++ [turn]) =
      (((SampleLoop.start store trend).run turns).turn turn.published.rules turn.tick).1 := by
    rw [SampleLoop.run, List.foldl_append]
    rfl
  have hreports := ((SampleLoop.start store trend).run turns).reports_turn turn.published.rules
    turn.tick
  have hsevere := fun id alert => @severity_of_active turns _ hsynced turn id alert
  rw [← hrun] at hreports hsevere
  generalize (SampleLoop.start store trend).run (turns ++ [turn]) = s at hnext hreports hsevere
  have hstorage : s.health.storageDegraded = true ↔
      (allOutcomes (turns ++ [turn])).getLast? = some false := by
    rw [hnext.storage]
    exact flagAfter_eq_true
  have hcollector : s.health.collectorDegraded = true ↔ turn.tick.sample.errors ≠ [] := by
    rw [hreports.collector]
    simp
  refine ⟨hcollector, hstorage, hnext.listener, ?_, ?_, ?_⟩
  · -- an alert never reports a degraded state itself
    rw [hreports.state]
    cases hflag : s.health.flagged with
    | true => simp
    | false =>
      simp only [Bool.false_eq_true, if_false, iff_false]
      cases hworst : s.alerts.worstActiveSeverity with
      | none => simp
      | some severity =>
        obtain ⟨⟨id, alert, hfind, rfl⟩, -⟩ :=
          AlertEvaluator.worstActiveSeverity_eq_some hworst
        exact hsevere id alert hfind
  · intro hflag
    have hstate := hreports.state
    rw [hflag] at hstate
    cases hworst : s.alerts.worstActiveSeverity with
    | none =>
      rw [hworst] at hstate
      exact .inr ⟨AlertEvaluator.worstActiveSeverity_eq_none.1 hworst, hstate⟩
    | some severity =>
      rw [hworst] at hstate
      obtain ⟨⟨id, alert, hfind, rfl⟩, hmax⟩ := AlertEvaluator.worstActiveSeverity_eq_some hworst
      exact .inl ⟨id, alert, hfind, hstate, hmax⟩
  · obtain ⟨rows, hperm, hsorted, hlines⟩ := s.alerts.activeDetails_sorted
    refine ⟨rows, hperm, hsorted, ?_⟩
    rw [hreports.details, hlines]
    congr 1
    simp only [← hcollector, ← hstorage, HealthSnapshot.tokens, hnext.listener]
    cases s.health.collectorDegraded <;> cases s.health.storageDegraded <;> rfl

end Rackio
