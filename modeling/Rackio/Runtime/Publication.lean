import Rackio.Runtime.ConfigRace

/-!
# The running rules and the saved rules

A threshold command saves the configuration and then sends its rules to the sampler, in two steps
that nothing keeps together. Another command can save and publish in between, and the rules sent
last are then not those of the file.

A run in which a command publishes only while the rules of the file are still to be published, by
itself or by another command that saved, keeps the two together: whenever no command is under way,
the sampler has the rules of the file (`running_rules_saved`). `stale_rules_published` is a run of
two commands that does not.
-/

namespace Rackio

/-- The source's `load_config` followed by `alert_rules`: what `run_daemon` makes the first value of
the watch channel. -/
def ConfigFile.rules (file : ConfigFile) : Except String (List AlertRule) := do
  let config ← loadConfig file
  config.alertRules

/-- The sampler runs the rules of the file. -/
def Daemon.RunsSaved (d : Daemon) : Prop :=
  d.file.rules = .ok d.published

/-- No command is under way: each is still to begin or has been answered. -/
def LocalServing.Quiet (s : LocalServing) : Prop :=
  ∀ task ∈ s.tasks, task.phase = .accepted ∨ ∃ response, task.phase = .answered response

/-- The command has saved, and what it is about to publish is `rules`. -/
def LocalPhase.publishes (rules : List AlertRule) : LocalPhase → Bool
  | .saved p => p.effective = some rules
  | _ => false

/-- The rules now in the file are still to be published, by a command that saved. -/
def LocalServing.outstanding (s : LocalServing) : Bool :=
  match s.daemon.file.rules with
  | .ok rules => s.tasks.any fun task => task.phase.publishes rules
  | .error _ => false

/-- A command publishes only while the rules of the file are still to be published, by itself or by
another one. -/
def LocalServing.timely (s : LocalServing) : LocalTurn → Bool
  | .finish _ => s.outstanding
  | _ => true

/-- The steps of a daemon in which every publication is timely. -/
abbrev TimelyStep (host : Host) : LocalServing → LocalTurn → LocalServing → Prop :=
  Lts.Guarded (fun s e => s.timely e = true) (Lts.Fires (LocalServing.step host))

/-! ## What a run keeps -/

/-- A task serves a threshold command, and the rules it holds are those of the configuration it
saves. -/
def LocalTask.Announces (task : LocalTask) : Prop :=
  (∃ alert, task.command = .alerts alert) ∧
    match task.phase with
    | .loaded p | .saved p => ∃ rules, p.effective = some rules ∧ p.config.alertRules = .ok rules
    | _ => True

/-- The rules of the file are running, or a command is about to publish them. -/
structure LocalServing.Settles (s : LocalServing) : Prop where
  alive : s.daemon.samplerAlive = true
  task : ∀ (i : Nat) (task : LocalTask), s.tasks[i]? = some task → task.Announces
  rules : ∃ rules, s.daemon.file.rules = .ok rules ∧
    (s.daemon.published = rules ∨
      ∃ (i : Nat) (task : LocalTask), s.tasks[i]? = some task ∧ task.phase.publishes rules = true)

section
variable {host : Host} {s t : LocalServing} {e : LocalTurn} {i : Nat} {phase : LocalPhase}

/-- What a threshold command loaded is what it announces. -/
theorem LocalTask.announces_of_load {alert : AlertCommand} {file : ConfigFile} {p : Pending}
    (h : (LocalCommand.alerts alert).load host file = .ok p) :
    LocalTask.Announces ⟨.alerts alert, .loaded p⟩ := by
  obtain ⟨edit, base, hprep, -, hedit⟩ := LocalCommand.load_eq_ok_iff.1 h
  refine ⟨⟨alert, rfl⟩, ?_⟩
  unfold LocalCommand.prepare at hprep
  cases hc : alert.change? with
  | none =>
    simp only [hc] at hprep
    cases hprep
    cases hedit
  | some change =>
    simp only [hc] at hprep
    cases hprep
    obtain ⟨effective, hr, rfl⟩ := editAlerts_eq_ok_iff.1 hedit
    exact ⟨effective, rfl, hr⟩

/-- A task that is not about to publish `rules` moves on, and the commands that are stay. -/
theorem LocalServing.publishes_move {rules : List AlertRule} {moved : LocalTask}
    (hi : s.tasks[i]? = some moved) (hno : moved.phase.publishes rules = false)
    (h : ∃ (j : Nat) (task : LocalTask), s.tasks[j]? = some task ∧
      task.phase.publishes rules = true) :
    ∃ (j : Nat) (task : LocalTask), (s.move i phase).tasks[j]? = some task ∧
      task.phase.publishes rules = true := by
  obtain ⟨j, task, hj, hp⟩ := h
  have hne : i ≠ j := by
    rintro rfl
    rw [hi] at hj
    cases hj
    rw [hno] at hp
    cases hp
  exact ⟨j, task, (LocalServing.move_ne hne).trans hj, hp⟩

/-- Every task announces what it saves after one of them moved on to a phase that does. -/
theorem LocalServing.announces_move {moved : LocalTask}
    (h : ∀ (j : Nat) (task : LocalTask), s.tasks[j]? = some task → task.Announces)
    (hi : s.tasks[i]? = some moved) (hmoved : LocalTask.Announces ⟨moved.command, phase⟩) (j : Nat)
    (task : LocalTask) (hj : (s.move i phase).tasks[j]? = some task) : task.Announces := by
  rcases eq_or_ne i j with rfl | hne
  · rw [LocalServing.move_self hi] at hj
    cases hj
    exact hmoved
  · rw [LocalServing.move_ne hne] at hj
    exact h j task hj

/-- A task that has not saved moves on without touching the daemon. -/
theorem LocalServing.Settles.move {moved : LocalTask} (h : s.Settles)
    (hi : s.tasks[i]? = some moved) (hno : ∀ rules, moved.phase.publishes rules = false)
    (hmoved : LocalTask.Announces ⟨moved.command, phase⟩) : (s.move i phase).Settles where
  alive := h.alive
  task := LocalServing.announces_move h.task hi hmoved
  rules := by
    obtain ⟨rules, hfile, hpub⟩ := h.rules
    exact ⟨rules, hfile, hpub.imp_right (LocalServing.publishes_move hi (hno rules))⟩

/-- A save puts the rules of its own command into the file, and the command is about to publish
them. -/
theorem LocalServing.Settles.save {command : LocalCommand} {p : Pending} (h : s.Settles)
    (hi : s.tasks[i]? = some ⟨command, .loaded p⟩) :
    LocalServing.Settles
      { s.move i (.saved p) with daemon := { s.daemon with file := .stored p.config } } where
  alive := h.alive
  task := by
    have hp : LocalTask.Announces ⟨command, .loaded p⟩ := h.task i _ hi
    exact LocalServing.announces_move h.task hi hp
  rules := by
    obtain ⟨-, rules, heff, hrules⟩ := h.task i _ hi
    refine ⟨rules, hrules, .inr ⟨i, _, LocalServing.move_self hi, ?_⟩⟩
    exact decide_eq_true heff

/-- What a publication does to the daemon while the sampler runs. -/
theorem Pending.finish_published {p : Pending} {d : Daemon} {rules : List AlertRule}
    (halive : d.samplerAlive = true) (heff : p.effective = some rules) :
    (p.finish d).1 = { d with published := rules } := by
  unfold Pending.finish Daemon.send
  rw [heff, halive]
  rfl

/-- A timely publication sends the rules of the file, or leaves the command that will. -/
theorem LocalServing.Settles.finish {command : LocalCommand} {p : Pending} (h : s.Settles)
    (hi : s.tasks[i]? = some ⟨command, .saved p⟩) (htimely : s.outstanding = true) :
    LocalServing.Settles
      { s.move i (.answered (p.finish s.daemon).2) with daemon := (p.finish s.daemon).1 } := by
  obtain ⟨hcommand, sent, heff, -⟩ := h.task i _ hi
  obtain ⟨rules, hfile, -⟩ := h.rules
  rw [Pending.finish_published h.alive heff]
  refine ⟨h.alive, LocalServing.announces_move h.task hi ⟨hcommand, trivial⟩, rules, hfile, ?_⟩
  simp only [outstanding, hfile, List.any_eq_true] at htimely
  obtain ⟨task, hmem, hp⟩ := htimely
  obtain ⟨j, hj⟩ := List.mem_iff_getElem?.1 hmem
  rcases eq_or_ne i j with rfl | hne
  · -- the command publishes the rules of the file itself
    rw [hi] at hj
    cases hj
    have hsame : p.effective = some rules := of_decide_eq_true hp
    rw [heff] at hsame
    cases hsame
    exact .inl rfl
  · exact .inr ⟨j, task, (LocalServing.move_ne hne).trans hj, hp⟩

/-- One step keeps the rules of the file running or about to run. -/
theorem LocalServing.Settles.step (h : s.Settles) (hstep : TimelyStep host s e t) : t.Settles := by
  obtain ⟨htimely, hfires⟩ := hstep
  cases LocalServing.moves_of_step hfires with
  | @refused i command response ht hload =>
    exact h.move ht (fun _ => rfl) ⟨(h.task i _ ht).1, trivial⟩
  | @loaded i command p ht hload =>
    obtain ⟨alert, rfl⟩ := (h.task i _ ht).1
    exact h.move ht (fun _ => rfl) (LocalTask.announces_of_load hload)
  | @unsaved i command p error ht => exact h.move ht (fun _ => rfl) ⟨(h.task i _ ht).1, trivial⟩
  | saved ht => exact h.save ht
  | finished ht => exact h.finish ht htimely

/-- A daemon that runs the rules of its file has nothing to publish. -/
theorem LocalServing.settles_start {d : Daemon} (commands : List AlertCommand)
    (halive : d.samplerAlive = true) (hsaved : d.RunsSaved) :
    (LocalServing.start d (commands.map .alerts)).Settles where
  alive := halive
  task := by
    intro i task hi
    rw [LocalServing.start, List.map_map, List.getElem?_map, Option.map_eq_some_iff] at hi
    obtain ⟨alert, -, rfl⟩ := hi
    exact ⟨⟨alert, rfl⟩, trivial⟩
  rules := ⟨d.published, hsaved, .inl rfl⟩

/-- Once no command is under way, none is about to publish. -/
theorem LocalServing.Settles.runsSaved (h : s.Settles) (hquiet : s.Quiet) :
    s.daemon.RunsSaved := by
  obtain ⟨rules, hfile, hpub | ⟨i, task, hi, hp⟩⟩ := h.rules
  · rw [Daemon.RunsSaved, hpub]
    exact hfile
  · rcases hquiet task (List.mem_of_getElem? hi) with hphase | ⟨response, hphase⟩
    · rw [hphase] at hp
      cases hp
    · rw [hphase] at hp
      cases hp

end

/-! ## The result -/

/-- However many threshold commands are served at once, and however their loads, saves and
publications interleave, the sampler runs the rules of the file whenever no command is under way,
if no command publishes after the rules of the file have all been published. -/
theorem running_rules_saved {host : Host} {d : Daemon} {commands : List AlertCommand}
    {es : List LocalTurn} {t : LocalServing} (halive : d.samplerAlive = true)
    (hsaved : d.RunsSaved)
    (hrun : Lts.Run (TimelyStep host) (.start d (commands.map .alerts)) es t)
    (hquiet : t.Quiet) : t.daemon.RunsSaved := by
  have hsettles : t.Settles :=
    hrun.invariant (LocalServing.settles_start commands halive hsaved)
      fun _ _ _ hi hstep => hi.step hstep
  exact hsettles.runsSaved hquiet

/-- Alerting is switched off and on again. -/
def switchCommands : List AlertCommand := [.enabled false, .enabled true]

/-- Both commands are answered, alerting is on in the file, and the sampler runs `rules`. -/
def bothSwitched (rules : List AlertRule) : LocalServing :=
  ⟨⟨.stored .default, rules, true⟩,
    [⟨.alerts (.enabled false),
        .answered (alertListing { AgentConfig.default with alertsEnabled := false })⟩,
      ⟨.alerts (.enabled true), .answered (alertListing .default)⟩]⟩

/-- No command is under way, and both succeeded. -/
theorem bothSwitched_answered (rules : List AlertRule) :
    (bothSwitched rules).Quiet ∧ (bothSwitched rules).Succeeded := by
  constructor
  · intro task htask
    simp only [bothSwitched, List.mem_cons, List.not_mem_nil, or_false] at htask
    rcases htask with rfl | rfl
    · exact .inr ⟨_, rfl⟩
    · exact .inr ⟨_, rfl⟩
  · intro task htask
    simp only [bothSwitched, List.mem_cons, List.not_mem_nil, or_false] at htask
    rcases htask with rfl | rfl
    · exact ⟨_, rfl, by decide⟩
    · exact ⟨_, rfl, by decide⟩

/-- The second command saves before the first one publishes, and they publish in the order of their
saves. -/
def timelyTurns : List LocalTurn :=
  [.load 0, .save 0 (.ok ()), .load 1, .save 1 (.ok ()), .finish 0, .finish 1]

/-- The first command publishes after the second one has saved and published. -/
def lateTurns : List LocalTurn :=
  [.load 0, .save 0 (.ok ()), .load 1, .save 1 (.ok ()), .finish 1, .finish 0]

/-- Commands that publish in the order of their saves leave the rules of the file running. -/
theorem running_rules_saved_timely : ∃ t, freshDaemon.samplerAlive = true ∧
    freshDaemon.RunsSaved ∧
    Lts.Run (TimelyStep relayHost) (.start freshDaemon (switchCommands.map .alerts))
      timelyTurns t ∧ t.Quiet ∧ t.daemon.RunsSaved := by
  have hsaved : freshDaemon.RunsSaved := by rfl
  have hrun : Lts.Run (TimelyStep relayHost) (.start freshDaemon (switchCommands.map .alerts))
      timelyTurns (bothSwitched defaultAlertRules) := Lts.run_of_execGuarded rfl
  have hquiet := (bothSwitched_answered defaultAlertRules).1
  exact ⟨_, rfl, hsaved, hrun, hquiet, running_rules_saved rfl hsaved hrun hquiet⟩

/-- A command that publishes after a later save has been published leaves a machine with alerting on
in its file and no rule running, though every save and every publication succeeded. -/
theorem stale_rules_published : ∃ t, freshDaemon.samplerAlive = true ∧ freshDaemon.RunsSaved ∧
    Lts.Run (Lts.Fires (LocalServing.step relayHost))
      (.start freshDaemon (switchCommands.map .alerts)) lateTurns t ∧
    t.Quiet ∧ t.Succeeded ∧ ¬ t.daemon.RunsSaved := by
  have hsaved : freshDaemon.RunsSaved := by rfl
  have hrun : Lts.Run (Lts.Fires (LocalServing.step relayHost))
      (.start freshDaemon (switchCommands.map .alerts)) lateTurns (bothSwitched []) :=
    Lts.run_of_exec rfl
  obtain ⟨hquiet, hok⟩ := bothSwitched_answered []
  refine ⟨_, rfl, hsaved, hrun, hquiet, hok, fun hruns => ?_⟩
  have hrules : (AgentConfig.default).alertRules = .ok [] := hruns
  cases hrules

end Rackio
