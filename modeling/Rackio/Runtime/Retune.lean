import Rackio.Runtime.SampleLoop

/-!
# Rules retuned while the sampler runs

The sampling loop and the threshold commands of one agent, interleaved: each turn of the loop judges
its sample by the rules that have been published by then. The evaluator counts by rule id, so the
samples it counted before a rule was changed still count for the rule as changed, and the alert can
be raised though those samples do not meet it.

A run in which, whenever the counted samples are enough for a rule to be raised by the next one,
those in its window also meet the rule as it is now, raises no alert too early
(`raised_in_full_window`). `raised_early` is a run in which one raised threshold is not counted
afresh.
-/

namespace Rackio

/-- An agent: the daemon with the commands it serves, and the sampling loop. `seen` and `signals`
are not kept by the source: what the evaluator has been given so far, and what the last turn of the
loop logged. -/
structure Agent where
  serving : LocalServing
  loop : SampleLoop
  seen : List AlertTick
  signals : List AlertSignal

/-- A step of a command, or a turn of the loop. -/
inductive AgentEvent
  | serve (turn : LocalTurn)
  | tick (tick : Tick)

/-- The tick the evaluator is given when the loop turns. -/
def Agent.alertTick (a : Agent) (tick : Tick) : AlertTick :=
  ⟨tick.sample, a.serving.daemon.published⟩

/-- One step of an agent; `none` when it is not enabled. -/
def Agent.step (host : Host) (a : Agent) : AgentEvent → Option Agent
  | .serve turn => (a.serving.step host turn).map fun serving => { a with serving }
  | .tick tick =>
    let (loop, signals) := a.loop.turn a.serving.daemon.published tick
    some { a with loop, signals, seen := a.seen ++ [a.alertTick tick] }

/-- An agent that has just started, with the commands it will be asked. -/
def Agent.start (d : Daemon) (commands : List LocalCommand) (store : MetricStore)
    (trend : TrendWindow) : Agent :=
  ⟨.start d commands, .start store trend, [], []⟩

/-- The samples a rule must hold in. -/
def AlertRule.window (rule : AlertRule) : Nat := max 1 rule.consecutiveSamples.toNat

/-- The last `n` samples of a history all meet the rule. -/
def MeetsLast (seen : List AlertTick) (rule : AlertRule) (n : Nat) : Prop :=
  ∀ k < n, ∃ past, seen.reverse[k]? = some past ∧ rule.holds past.sample = true

instance (seen : List AlertTick) (rule : AlertRule) (n : Nat) : Decidable (MeetsLast seen rule n) :=
  decidable_of_iff (n ≤ Streak.streak (fun past => rule.holds past.sample) seen)
    Streak.le_streak_iff

/-- Every rule that the last turn raised holds, as it was then, in each sample of its window. -/
def Agent.RaisesSoundly (a : Agent) : Prop :=
  ∀ last ∈ a.seen.getLast?, ∀ rule ∈ last.rules,
    (∃ signal ∈ a.signals, signal.ruleId = rule.id ∧ signal.active = true) →
      MeetsLast a.seen rule rule.window

instance (a : Agent) : Decidable a.RaisesSoundly :=
  inferInstanceAs (Decidable (∀ last ∈ a.seen.getLast?, ∀ rule ∈ last.rules,
    (∃ signal ∈ a.signals, _ ∧ _) → MeetsLast a.seen rule rule.window))

/-- How many of the last ticks an id held at, each judged by the definition it had then. -/
def Agent.held (a : Agent) (id : String) : Nat := Streak.streak (·.holds id) a.seen

/-- Before a turn of the loop: a rule that is not active and that one more sample could raise holds,
as it is now, in the other samples of its window. -/
def Agent.Recounted (a : Agent) : AgentEvent → Prop
  | .serve _ => True
  | .tick _ => ∀ rule ∈ a.serving.daemon.published,
    a.loop.alerts.active.contains rule.id = false → rule.window - 1 ≤ a.held rule.id →
      MeetsLast a.seen rule (rule.window - 1)

instance (a : Agent) (e : AgentEvent) : Decidable (a.Recounted e) :=
  match e with
  | .serve _ => inferInstanceAs (Decidable True)
  | .tick _ => inferInstanceAs (Decidable (∀ rule ∈ a.serving.daemon.published, _ → _ → _))

/-- The steps of an agent in which no count is carried over to a rule it does not stand for. -/
abbrev RecountedStep (host : Host) : Agent → AgentEvent → Agent → Prop :=
  Lts.Guarded Agent.Recounted (Lts.Fires (Agent.step host))

/-! ## What a run keeps -/

/-- The evaluator is that of the history, whose rule lists have no repeated ids, and so has the
watch channel. -/
structure Agent.Follows (a : Agent) : Prop where
  alerts : a.loop.alerts = evaluatorAfter a.seen
  distinct : ∀ tick ∈ a.seen, tick.Distinct
  serving : a.serving.Effective

section
variable {host : Host} {a b : Agent} {e : AgentEvent} {tick : Tick}

/-- What a step can do. -/
theorem Agent.step_cases (h : Lts.Fires (Agent.step host) a e b) :
    (∃ turn serving, e = .serve turn ∧ a.serving.step host turn = some serving ∧
      b = { a with serving }) ∨
    ∃ tick, e = .tick tick ∧
      b = { a with
        loop := (a.loop.turn a.serving.daemon.published tick).1
        signals := (a.loop.turn a.serving.daemon.published tick).2
        seen := a.seen ++ [a.alertTick tick] } := by
  cases e with
  | serve turn =>
    obtain ⟨serving, hstep, hb⟩ := Option.map_eq_some_iff.1 h
    exact .inl ⟨turn, serving, rfl, hstep, hb.symm⟩
  | tick tick =>
    cases h
    exact .inr ⟨tick, rfl, rfl⟩

/-- The rules a turn is given have different ids. -/
theorem Agent.Follows.distinct_alertTick (h : a.Follows) (tick : Tick) :
    (a.alertTick tick).Distinct :=
  PublishedRules.nodup ⟨_, h.serving.published⟩

/-- One step keeps the evaluator that of the history. -/
theorem Agent.Follows.step (h : a.Follows) (hstep : Lts.Fires (Agent.step host) a e b) :
    b.Follows := by
  obtain ⟨turn, serving, rfl, hserve, rfl⟩ | ⟨tick, rfl, rfl⟩ := Agent.step_cases hstep
  · exact ⟨h.alerts, h.distinct, h.serving.step hserve⟩
  · refine ⟨?_, ?_, h.serving⟩
    · show (a.loop.alerts.evaluate tick.sample a.serving.daemon.published).1 = _
      rw [h.alerts]
      exact (evaluatorAfter_snoc _ (a.alertTick tick)).symm
    · intro past hpast
      rcases List.mem_append.1 hpast with hpast | hpast
      · exact h.distinct past hpast
      · rw [List.mem_singleton] at hpast
        rw [hpast]
        exact h.distinct_alertTick tick

/-- An agent that has just started has seen nothing. -/
theorem Agent.follows_start {d : Daemon} (commands : List LocalCommand) (store : MetricStore)
    (trend : TrendWindow) (hsaved : d.RunsSaved) : (Agent.start d commands store trend).Follows :=
  ⟨rfl, fun _ h => absurd h List.not_mem_nil, LocalServing.effective_start commands hsaved⟩

/-! ## Raises -/

/-- A raised alert was not active, and its rule held at each of the last ticks of its window, judged
by the definitions it had then. -/
theorem Agent.Follows.raised (h : a.Follows) {rule : AlertRule}
    (hr : rule ∈ a.serving.daemon.published) {signal : AlertSignal}
    (hsignal : signal ∈ (a.loop.turn a.serving.daemon.published tick).2)
    (hid : signal.ruleId = rule.id) (hactive : signal.active = true) :
    a.loop.alerts.active.contains rule.id = false ∧
      rule.window ≤ Streak.streak (·.holds rule.id) (a.seen ++ [a.alertTick tick]) := by
  have hdistinct := h.distinct_alertTick tick
  have hlaw := evaluatesTo h.distinct hdistinct
  have hlists : (a.alertTick tick).lists rule.id = true := containsRule_iff.2 ⟨rule, hr, rfl⟩
  have hmem : true ∈ (signalsAt a.seen (a.alertTick tick) rule.id).map (·.active) := by
    refine List.mem_map.2 ⟨signal, List.mem_filter.2 ⟨?_, decide_eq_true hid⟩, hactive⟩
    rw [← h.alerts]
    exact hsignal
  rw [hlaw.signals rule.id hlists, ← h.alerts] at hmem
  split at hmem
  · cases hmem
  · next hchanged =>
    rw [List.mem_singleton] at hmem
    rw [← hmem] at hchanged
    refine ⟨by simpa using hchanged, ?_⟩
    obtain ⟨other, ho, heq, hlast⟩ := (hlaw.active_iff rule.id).1 hmem.symm
    rw [List.inj_on_of_nodup_map hdistinct ho hr heq] at hlast
    exact Streak.le_streak_iff.2 hlast

/-- A rule that held as it is now in the last samples, and holds in one more. -/
theorem meetsLast_snoc {seen : List AlertTick} {rule : AlertRule} {last : AlertTick} {n : Nat}
    (h : MeetsLast seen rule n) (hlast : rule.holds last.sample = true) :
    MeetsLast (seen ++ [last]) rule (n + 1) := by
  intro k hk
  rw [List.reverse_append, List.reverse_singleton, List.singleton_append]
  cases k with
  | zero => exact ⟨last, rfl, hlast⟩
  | succ k => exact h k (Nat.lt_of_succ_lt_succ hk)

/-- A turn before which no count stands for samples its rule does not meet raises no alert too
early. -/
theorem Agent.Follows.raisesSoundly (h : a.Follows) (hguard : a.Recounted (.tick tick))
    (hstep : Lts.Fires (Agent.step host) a (.tick tick) b) : b.RaisesSoundly := by
  cases hstep
  intro last hlast rule hr hraised
  obtain ⟨signal, hsignal, hid, hactive⟩ := hraised
  have hlast : last = a.alertTick tick := by
    rw [List.getLast?_concat] at hlast
    exact (Option.some.inj hlast).symm
  subst hlast
  obtain ⟨hinactive, hstreak⟩ := h.raised hr hsignal hid hactive
  have hwindow : 1 ≤ rule.window := le_max_left _ _
  rw [Streak.streak_snoc] at hstreak
  split at hstreak
  · next hholds =>
    rw [AlertTick.holds_of_mem (h.distinct_alertTick tick) hr] at hholds
    have hmeets := hguard rule hr hinactive (Nat.sub_le_of_le_add hstreak)
    have hfull := meetsLast_snoc hmeets hholds
    rw [Nat.sub_add_cancel hwindow] at hfull
    exact hfull
  · omega

end

/-- However samples, rules and commands interleave, an alert is raised only when each of the last
samples its window asks for meets the rule as it is, if before every turn each rule that one more
sample could raise meets the other samples of its window as it is now. -/
theorem raised_in_full_window {host : Host} {d : Daemon} {commands : List LocalCommand}
    {store : MetricStore} {trend : TrendWindow} {es : List AgentEvent} {b : Agent}
    (hsaved : d.RunsSaved)
    (hrun : Lts.Run (RecountedStep host) (.start d commands store trend) es b) :
    b.RaisesSoundly := by
  have hboth : b.Follows ∧ b.RaisesSoundly := by
    refine hrun.invariant (I := fun b => b.Follows ∧ b.RaisesSoundly)
      ⟨Agent.follows_start commands store trend hsaved, fun _ h => nomatch h⟩ ?_
    rintro a e b ⟨hfollows, hsound⟩ ⟨hguard, hstep⟩
    refine ⟨hfollows.step hstep, ?_⟩
    cases e with
    | serve turn =>
      obtain ⟨serving, -, rfl⟩ := Option.map_eq_some_iff.1 hstep
      exact hsound
    | tick tick => exact hfollows.raisesSoundly hguard hstep
  exact hboth.2

/-- A turn whose store calls succeed. -/
def quietTick (sample : MetricSample) : Tick := ⟨sample, true, 0, true, fun _ => 0⟩

/-- The command that raises the first disk threshold from 90 % to 95 %. -/
def retuneCommand : LocalCommand :=
  .alerts (.set "disk-capacity-warning" none none (some ⟨0x4057C00000000000⟩) none none)

/-- A fresh machine, on which the first disk threshold will be raised. -/
def retunedAgent : Agent := .start freshDaemon [retuneCommand] .new default

/-- Two samples, the command, and one more sample. -/
def retuneEvents (before after : UInt64) : List AgentEvent :=
  [.tick (quietTick (diskSample before)), .tick (quietTick (diskSample before)),
    .serve (.load 0), .serve (.save 0 (.ok ())), .serve (.finish 0),
    .tick (quietTick (diskSample after))]

/-- The last turn raised the first disk rule. -/
def Agent.raisedDisk (a : Agent) : Bool :=
  a.signals.any fun signal => signal.ruleId = "disk-capacity-warning" && signal.active

/-- A machine at 96 % meets the rule before and after the command, and the alert is raised at the
third sample. -/
theorem raised_in_full_window_disk : ∃ b, freshDaemon.RunsSaved ∧
    Lts.Run (RecountedStep relayHost) retunedAgent (retuneEvents 96 96) b ∧
    b.raisedDisk = true ∧ b.RaisesSoundly := by
  have hsaved : freshDaemon.RunsSaved := by rfl
  have hexec : ((retuneEvents 96 96).foldlM (fun (a : Agent) e =>
      if a.Recounted e then a.step relayHost e else none) retunedAgent).any
        Agent.raisedDisk = true := by decide +kernel
  obtain ⟨b, hb, hraised⟩ := (Option.any_eq_true _ _).1 hexec
  have hrun : Lts.Run (RecountedStep relayHost) retunedAgent (retuneEvents 96 96) b :=
    Lts.run_of_execGuarded hb
  exact ⟨b, hsaved, hrun, hraised, raised_in_full_window hsaved hrun⟩

/-- A machine that was at 92 % for two samples and is at 96 % for the first one after its threshold
was raised to 95 % has the alert raised at once, though its rule asks for three samples. -/
theorem raised_early : ∃ b, freshDaemon.RunsSaved ∧
    Lts.Run (Lts.Fires (Agent.step relayHost)) retunedAgent (retuneEvents 92 96) b ∧
    b.raisedDisk = true ∧ ¬ b.RaisesSoundly := by
  have hexec : ((retuneEvents 92 96).foldlM (Agent.step relayHost) retunedAgent).any
      (fun b => b.raisedDisk && !decide b.RaisesSoundly) = true := by decide +kernel
  obtain ⟨b, hb, hraised⟩ := (Option.any_eq_true _ _).1 hexec
  rw [Bool.and_eq_true, Bool.not_eq_true', decide_eq_false_iff_not] at hraised
  exact ⟨b, rfl, Lts.run_of_exec hb, hraised⟩

end Rackio
