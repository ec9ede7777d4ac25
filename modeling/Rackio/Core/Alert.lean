import Rackio.Core.Model
import Rackio.Lib.Outcome

/-!
# Alert rules

The health thresholds of `rackio-core/src/alert.rs`: the rules Rackio ships, an operator's changes
to them, and `resolveAlertRules`, which merges the changes over the shipped rules and refuses
whatever would produce a rule that cannot fire. The error texts are those an operator reads.
-/

namespace Rackio

/-! ## Rules -/

/-- The source's `SAMPLES_PER_MINUTE`: samples per minute at the two-second sampling cadence. -/
def samplesPerMinute : UInt32 := 30

/-- The source's `Comparison`. -/
inductive Comparison
  | greaterThanOrEqual | lessThanOrEqual
  deriving DecidableEq, Repr, Inhabited

/-- The source's `AlertRule`. -/
structure AlertRule where
  id : String
  metric : String
  comparison : Comparison
  threshold : F64
  consecutiveSamples : UInt32
  severity : NodeState
  deriving DecidableEq, Repr, Inhabited

/-- The source's `default_alert_rules`. The thresholds are the floats 90, 95, 97, 5 and 0. -/
def defaultAlertRules : List AlertRule :=
  [⟨"disk-capacity-warning", "disk_percent", .greaterThanOrEqual,
      ⟨0x4056800000000000⟩, 3, .warning⟩,
    ⟨"disk-capacity-critical", "disk_percent", .greaterThanOrEqual,
      ⟨0x4057C00000000000⟩, 3, .critical⟩,
    ⟨"memory-pressure-warning", "memory_percent", .greaterThanOrEqual,
      ⟨0x4056800000000000⟩, samplesPerMinute, .warning⟩,
    ⟨"memory-pressure-critical", "memory_percent", .greaterThanOrEqual,
      ⟨0x4058400000000000⟩, samplesPerMinute, .critical⟩,
    ⟨"cpu-saturation-warning", "cpu_percent", .greaterThanOrEqual,
      ⟨0x4056800000000000⟩, samplesPerMinute * 5, .warning⟩,
    ⟨"temperature-headroom-warning", "temperature_headroom_celsius", .lessThanOrEqual,
      ⟨0x4014000000000000⟩, 15, .warning⟩,
    ⟨"temperature-critical", "temperature_headroom_celsius", .lessThanOrEqual,
      ⟨0⟩, 15, .critical⟩]

/-- The source's `AlertRuleSource`. -/
inductive AlertRuleSource
  | builtIn | configured
  deriving DecidableEq, Repr, Inhabited

/-- The source's `AlertRuleConfig`: an operator's change to one rule. -/
structure AlertRuleConfig where
  id : String
  metric : Option String
  comparison : Option Comparison
  threshold : Option F64
  consecutiveSamples : Option UInt32
  severity : Option NodeState
  enabled : Option Bool
  deriving DecidableEq, Repr, Inhabited

/-- The source's `AlertRuleConfig::new`: a change that names a rule and changes nothing. -/
def AlertRuleConfig.new (id : String) : AlertRuleConfig :=
  ⟨id, none, none, none, none, none, none⟩

/-- The source's `ResolvedAlertRule`: one effective rule, switched off or not. -/
structure ResolvedAlertRule where
  rule : AlertRule
  enabled : Bool
  source : AlertRuleSource
  deriving DecidableEq, Repr, Inhabited

/-- The source's `ALERT_METRICS`: the metrics a rule may name. -/
def alertMetrics : List String :=
  ["cpu_percent", "memory_percent", "swap_percent", "disk_percent", "temperature_celsius",
    "temperature_headroom_celsius"]

/-! ## Merging -/

/-- The name of a `NodeState` in the source's `{:?}` format. -/
def NodeState.debug : NodeState → String
  | .healthy => "Healthy"
  | .warning => "Warning"
  | .critical => "Critical"
  | .stale => "Stale"
  | .offline => "Offline"
  | .authError => "AuthError"
  | .incompatible => "Incompatible"
  | .degraded => "Degraded"

/-- The reason `new_rule` gives for a field that a rule Rackio does not ship leaves out. -/
def missingField (id field : String) : String :=
  "alert rule `" ++ id ++ "` is not one Rackio ships, so it must define `" ++ field ++ "`"

/-- The source's `Option::ok_or_else`. -/
def okOr {α : Type} (x : Option α) (error : String) : Except String α :=
  match x with
  | some a => .ok a
  | none => .error error

/-- The source's `new_rule`: a rule Rackio does not ship has to be described in full, except for
its sample window. -/
def newRule (change : AlertRuleConfig) : Except String AlertRule := do
  let metric ← okOr change.metric (missingField change.id "metric")
  let comparison ← okOr change.comparison (missingField change.id "comparison")
  let threshold ← okOr change.threshold (missingField change.id "threshold")
  let severity ← okOr change.severity (missingField change.id "severity")
  return ⟨change.id, metric, comparison, threshold, change.consecutiveSamples.getD 1, severity⟩

/-- The source's `apply_override`: the fields a change holds replace those of the rule. -/
def applyOverride (rule : AlertRule) (change : AlertRuleConfig) : AlertRule :=
  { rule with
    metric := change.metric.getD rule.metric
    comparison := change.comparison.getD rule.comparison
    threshold := change.threshold.getD rule.threshold
    consecutiveSamples := change.consecutiveSamples.getD rule.consecutiveSamples
    severity := change.severity.getD rule.severity }

/-- The source's `changes_a_level`: a change that only switches a rule on or off does not. -/
def changesALevel (change : AlertRuleConfig) : Bool :=
  change.metric.isSome || change.comparison.isSome || change.threshold.isSome ||
    change.consecutiveSamples.isSome || change.severity.isSome

/-- The source's `validate` of a rule. -/
def AlertRule.validate (rule : AlertRule) : Except String Unit :=
  if rule.metric ∉ alertMetrics then
    .error ("alert rule `" ++ rule.id ++ "` names the unknown metric `" ++ rule.metric ++
      "`; known metrics are " ++ ", ".intercalate alertMetrics)
  else if !rule.threshold.isFinite then
    .error ("alert rule `" ++ rule.id ++ "` has a threshold that is not a finite number")
  else if rule.severity ≠ .warning ∧ rule.severity ≠ .critical then
    .error ("alert rule `" ++ rule.id ++ "` must report `warning` or `critical`; `" ++
      rule.severity.debug ++ "` is not a level a threshold can reach")
  else .ok ()

/-- The update `resolve_alert_rules` makes to a rule it already holds. -/
def ResolvedAlertRule.change (known : ResolvedAlertRule) (change : AlertRuleConfig) :
    ResolvedAlertRule where
  rule := applyOverride known.rule change
  enabled := change.enabled.getD known.enabled
  source := if changesALevel change then .configured else known.source

/-- One turn of the loop of `resolve_alert_rules`: the first rule with the change's id is updated,
and a change that names no rule defines one. -/
def mergeChange (resolved : List ResolvedAlertRule) (change : AlertRuleConfig) :
    Except String (List ResolvedAlertRule) :=
  match resolved.findIdx? (·.rule.id = change.id) with
  | some index => .ok (resolved.modify index (·.change change))
  | none => do
    let rule ← newRule change
    return resolved ++ [⟨rule, change.enabled.getD true, .configured⟩]

/-- The entries `resolve_alert_rules` starts from. -/
def shippedRules : List ResolvedAlertRule :=
  defaultAlertRules.map (⟨·, true, .builtIn⟩)

/-- The source's `resolve_alert_rules`: merge the changes in turn, then check every rule. -/
def resolveAlertRules (overrides : List AlertRuleConfig) :
    Except String (List ResolvedAlertRule) := do
  let resolved ← overrides.foldlM mergeChange shippedRules
  resolved.forM fun entry => entry.rule.validate
  return resolved

/-! ## What resolution accepts -/

/-- A rule that can fire: it reads a known metric, against a number, for a health level. -/
structure AlertRule.CanFire (rule : AlertRule) : Prop where
  metric : rule.metric ∈ alertMetrics
  threshold : rule.threshold.isFinite
  severity : rule.severity = .warning ∨ rule.severity = .critical

/-- The check accepts exactly the rules that can fire. -/
theorem AlertRule.validate_eq_ok_iff {rule : AlertRule} :
    rule.validate = .ok () ↔ rule.CanFire := by
  unfold validate
  constructor
  · intro h
    split_ifs at h with hm ht hs
    refine ⟨hm, by simpa using ht, ?_⟩
    by_contra hc
    exact hs (not_or.1 hc)
  · rintro ⟨hm, ht, hs⟩
    have hs' : ¬(rule.severity ≠ .warning ∧ rule.severity ≠ .critical) := by
      rintro ⟨hw, hc⟩
      exact hs.elim hw hc
    rw [if_neg (not_not.2 hm), if_neg (by simp [ht]), if_neg hs']

/-- Resolution accepts a list of changes when it can merge them and every rule that results can
fire. -/
theorem resolveAlertRules_eq_ok_iff {overrides : List AlertRuleConfig}
    {rules : List ResolvedAlertRule} :
    resolveAlertRules overrides = .ok rules ↔
      overrides.foldlM mergeChange shippedRules = .ok rules ∧
        ∀ entry ∈ rules, entry.rule.CanFire := by
  have hcheck : (rules.forM fun entry => entry.rule.validate) = .ok () ↔
      ∀ entry ∈ rules, entry.rule.CanFire := by
    rw [Outcome.forM_eq_ok_iff]
    exact forall₂_congr fun _ _ => AlertRule.validate_eq_ok_iff
  unfold resolveAlertRules
  rw [Outcome.bind_eq_ok_iff, ← hcheck]
  constructor
  · rintro ⟨merged, hm, h⟩
    obtain ⟨_, hv, hr⟩ := Outcome.bind_eq_ok_iff.1 h
    cases hr
    exact ⟨hm, hv⟩
  · rintro ⟨hm, hv⟩
    exact ⟨rules, hm, Outcome.bind_eq_ok_iff.2 ⟨(), hv, rfl⟩⟩

/-- Every shipped rule can fire. -/
theorem shippedRules_canFire : ∀ entry ∈ shippedRules, entry.rule.CanFire := by
  have h : ∀ entry ∈ shippedRules, entry.rule.validate = .ok () := by decide
  intro entry he
  exact AlertRule.validate_eq_ok_iff.1 (h entry he)

/-- A machine whose operator changed nothing has the shipped rules. -/
theorem resolveAlertRules_nil : resolveAlertRules [] = .ok shippedRules :=
  resolveAlertRules_eq_ok_iff.2 ⟨rfl, shippedRules_canFire⟩

/-- A new rule has the id of its change. -/
theorem newRule_id {change : AlertRuleConfig} {rule : AlertRule} (h : newRule change = .ok rule) :
    rule.id = change.id := by
  unfold newRule at h
  obtain ⟨_, -, h⟩ := Outcome.bind_eq_ok_iff.1 h
  obtain ⟨_, -, h⟩ := Outcome.bind_eq_ok_iff.1 h
  obtain ⟨_, -, h⟩ := Outcome.bind_eq_ok_iff.1 h
  obtain ⟨_, -, h⟩ := Outcome.bind_eq_ok_iff.1 h
  cases h
  rfl

/-- Merging a change keeps the ids of the rules different. -/
theorem mergeChange_nodup {resolved next : List ResolvedAlertRule} {change : AlertRuleConfig}
    (h : mergeChange resolved change = .ok next) (hnodup : (resolved.map (·.rule.id)).Nodup) :
    (next.map (·.rule.id)).Nodup := by
  unfold mergeChange at h
  cases hidx : resolved.findIdx? (·.rule.id = change.id) with
  | some index =>
    simp only [hidx, Except.ok.injEq] at h
    subst h
    -- an override keeps the id of the rule it changes
    have hids : (resolved.modify index (·.change change)).map (·.rule.id) =
        resolved.map (·.rule.id) := by
      refine List.ext_getElem? fun i => ?_
      rw [List.getElem?_map, List.getElem?_map, List.getElem?_modify]
      cases resolved[i]? with
      | none => rfl
      | some entry =>
        by_cases hi : index = i
        · simp [hi, ResolvedAlertRule.change, applyOverride]
        · simp [hi]
    rw [hids]
    exact hnodup
  | none =>
    simp only [hidx] at h
    obtain ⟨rule, hrule, h⟩ := Outcome.bind_eq_ok_iff.1 h
    cases h
    have hid := newRule_id hrule
    rw [List.findIdx?_eq_none_iff] at hidx
    rw [List.map_append, List.nodup_append]
    refine ⟨hnodup, List.nodup_singleton _, ?_⟩
    intro a ha b hb hab
    obtain ⟨entry, he, rfl⟩ := List.mem_map.1 ha
    rw [List.map_singleton, List.mem_singleton] at hb
    have hno := hidx entry he
    rw [decide_eq_false_iff_not] at hno
    exact hno (hab.trans (hb.trans hid))

/-- The rules that resolution accepts have different ids. -/
theorem resolveAlertRules_nodup {overrides : List AlertRuleConfig} {rules : List ResolvedAlertRule}
    (h : resolveAlertRules overrides = .ok rules) : (rules.map (·.rule.id)).Nodup := by
  have hmerged := (resolveAlertRules_eq_ok_iff.1 h).1
  have hall : ∀ {changes : List AlertRuleConfig} {start merged : List ResolvedAlertRule},
      changes.foldlM mergeChange start = .ok merged → (start.map (·.rule.id)).Nodup →
        (merged.map (·.rule.id)).Nodup := by
    intro changes
    induction changes with
    | nil =>
      intro start merged hfold hstart
      cases hfold
      exact hstart
    | cons change changes ih =>
      intro start merged hfold hstart
      rw [List.foldlM_cons] at hfold
      obtain ⟨next, hnext, hfold⟩ := Outcome.bind_eq_ok_iff.1 hfold
      exact ih hfold (mergeChange_nodup hnext hstart)
  exact hall hmerged (by decide)

end Rackio
