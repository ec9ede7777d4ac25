import Rackio.Core.Alert
import Rackio.Core.Storage
import Rackio.Lib.Streak

/-!
# The alert evaluator

`AlertEvaluator` of `rackio-core/src/alert.rs`: two maps by rule id, the samples in a row that met
a rule and the alerts that are active, updated by `evaluate` with one sample and the rules then in
force. The lines an operator reads are part of the model.

`evaluator_law` says what a whole history of samples and rule lists leaves in the evaluator: an
alert is active exactly when its rule is listed and held in each of the last samples the rule asks
for, each judged by the definition it had then, and the signals of a rule alternate. Everything
goes through one lemma about `evaluate` at one id (`evaluate_listed`).
-/

namespace Rackio

/-! ## Numbers -/

/-- The source's `x <= y` on doubles, which is false for a NaN. -/
def F64.le (x y : F64) : Bool := Float.ofBits x.bits ≤ Float.ofBits y.bits

/-- The source's `f32` subtraction. -/
def F32.sub (x y : F32) : F32 := ⟨(Float32.ofBits x.bits - Float32.ofBits y.bits).toBits⟩

/-- The place of a double in the order of `f64::total_cmp`: negative values by descending
magnitude, then the others by ascending magnitude. -/
def F64.totalKey (x : F64) : Int :=
  if x.bits.toNat < 2 ^ 63 then x.bits.toNat else -1 - ((x.bits.toNat : Int) - 2 ^ 63)

/-- The source's `f64::total_cmp`. -/
def F64.totalCmp (x y : F64) : Ordering := compare x.totalKey y.totalKey

/-- The magnitude of a finite double, in units of `2 ^ -1074`. -/
def F64.magnitude (x : F64) : Nat :=
  let exponent := x.bits.toNat / 2 ^ 52 % 2 ^ 11
  let fraction := x.bits.toNat % 2 ^ 52
  if exponent = 0 then fraction else (2 ^ 52 + fraction) * 2 ^ (exponent - 1)

/-- The quotient of two naturals, rounded to the nearest and to even at a tie. -/
def divRoundEven (n d : Nat) : Nat :=
  let q := n / d
  let r := n % d
  if 2 * r < d then q else if d < 2 * r then q + 1 else q + q % 2

/-- The source's `format!("{value:.1}")`. -/
def F64.format1 (x : F64) : String :=
  let sign := if x.bits.toNat < 2 ^ 63 then "" else "-"
  if x.isNaN then "NaN"
  else if !x.isFinite then sign ++ "inf"
  else
    let tenths := divRoundEven (x.magnitude * 10) (2 ^ 1074)
    sign ++ toString (tenths / 10) ++ "." ++ toString (tenths % 10)

/-- The source's `str::ends_with`. -/
def endsWith (text ending : String) : Bool := ending.toList.isSuffixOf text.toList

/-- The source's `number`: one decimal, and no trailing `.0`. -/
def number (value : F64) : String :=
  let rounded := value.format1
  if endsWith rounded ".0" then String.ofList (rounded.toList.take (rounded.length - 2))
  else rounded

-- The comment of the source's `number`: a 94.6 % filesystem is not printed as 95 %.
example : number ⟨0x4057A66666666666⟩ = "94.6" ∧ number ⟨0x4056800000000000⟩ = "90" := by
  decide +kernel

/-- The source's `percentage`: hundredths of a percent in whole numbers, then a double. -/
def percentage (used total : UInt64) : F64 :=
  -- `checked_div` gives nothing for a zero total, which stands for zero.
  let basisPoints := used.toNat * 10000 / total.toNat
  F64.div (F64.ofInt (min basisPoints (2 ^ 32 - 1) : Nat)) (F64.ofInt 100)

/-! ## Readings -/

/-- The source's `Reading`: a metric value and what it belongs to. -/
structure Reading where
  value : F64
  scope : Option String
  deriving DecidableEq, Repr

/-- The share of a total that is used; a zero total has none. -/
def shareReading (used total : Option UInt64) : Option Reading := do
  let used ← used
  let total ← total
  if 0 < total then some ⟨percentage used total, none⟩ else none

/-- The source's `metric_reading`. -/
def metricReading (sample : MetricSample) (metric : String) : Option Reading :=
  match metric with
  | "cpu_percent" => sample.cpuPercent.map fun value => ⟨value.widen, none⟩
  | "memory_percent" => shareReading sample.memoryUsedBytes sample.memoryTotalBytes
  | "swap_percent" => shareReading sample.swapUsedBytes sample.swapTotalBytes
  | "disk_percent" =>
    maxBy (fun left right => left.value.totalCmp right.value)
      ((sample.disks.filter fun disk => 0 < disk.totalBytes).map fun disk =>
        ⟨percentage disk.usedBytes disk.totalBytes, some disk.mount⟩)
  | "temperature_celsius" =>
    sample.temperature.map fun temperature =>
      ⟨temperature.celsius.widen, some temperature.label⟩
  | "temperature_headroom_celsius" => do
    let temperature ← sample.temperature
    let critical ← temperature.criticalCelsius
    some ⟨(critical.sub temperature.celsius).widen, some temperature.label⟩
  | _ => none

/-! ## Lines -/

/-- The source's `metric_subject`. -/
def metricSubject (metric : String) : String :=
  match metric with
  | "cpu_percent" => "CPU"
  | "memory_percent" => "Memory"
  | "swap_percent" => "Swap"
  | "disk_percent" => "Disk"
  | "temperature_celsius" => "Temperature"
  | "temperature_headroom_celsius" => "Temperature headroom"
  | other => other

/-- The source's `metric_unit`. -/
def metricUnit (metric : String) : String :=
  if endsWith metric "_celsius" then " °C" else "%"

/-- The source's `comparison_phrase`. -/
def comparisonPhrase : Comparison → String
  | .greaterThanOrEqual => "at or above"
  | .lessThanOrEqual => "at or below"

/-- The source's `severity_label`. -/
def severityLabel : NodeState → String
  | .critical => "critical"
  | .warning => "warning"
  | _ => "alert"

/-- The source's `breach_description`. -/
def breachDescription (rule : AlertRule) (reading : Reading) : String :=
  let unit := metricUnit rule.metric
  let subject :=
    match reading.scope with
    | some scope => metricSubject rule.metric ++ " " ++ scope
    | none => metricSubject rule.metric
  subject ++ " " ++ number reading.value ++ unit ++ " is " ++ comparisonPhrase rule.comparison ++
    " the " ++ severityLabel rule.severity ++ " threshold of " ++ number rule.threshold ++ unit

/-- The source's `recovery_description`. -/
def recoveryDescription (rule : AlertRule) : String :=
  metricSubject rule.metric ++ " left the " ++ severityLabel rule.severity ++ " threshold of " ++
    number rule.threshold ++ metricUnit rule.metric

/-- The line that clears an alert whose metric became unreadable. -/
def unavailableDescription (rule : AlertRule) : String :=
  metricSubject rule.metric ++ " is unavailable; threshold recovery is unconfirmed"

/-! ## The evaluator -/

/-- The source's `AlertSignal`. -/
structure AlertSignal where
  ruleId : String
  active : Bool
  severity : NodeState
  detail : String
  deriving DecidableEq, Repr

/-- The source's `ActiveAlert`. -/
structure ActiveAlert where
  severity : NodeState
  detail : String
  deriving DecidableEq, Repr

/-- The source's `AlertEvaluator`. -/
structure AlertEvaluator where
  counts : Table String UInt32
  active : Table String ActiveAlert
  deriving DecidableEq

/-- The source's `AlertEvaluator::default`. -/
def AlertEvaluator.default : AlertEvaluator := ⟨.empty, .empty⟩

instance : Inhabited AlertEvaluator := ⟨.default⟩

/-- The source's `contains_rule`. -/
def containsRule (rules : List AlertRule) (id : String) : Bool := rules.any (·.id = id)

/-- The source's `u32::saturating_add` of one. -/
def satSuccU32 (count : UInt32) : UInt32 := if count = 0xFFFFFFFF then count else count + 1

/-- Whether a reading meets a rule. -/
def AlertRule.matches (rule : AlertRule) (reading : Reading) : Bool :=
  match rule.comparison with
  | .greaterThanOrEqual => rule.threshold.le reading.value
  | .lessThanOrEqual => reading.value.le rule.threshold

/-- The count `evaluate` stores for a rule whose count was `count`. -/
def AlertRule.count (rule : AlertRule) (reading : Option Reading) (count : Option UInt32) :
    UInt32 :=
  match reading with
  | none => 0
  | some reading => if rule.matches reading then satSuccU32 (count.getD 0) else 0

/-- The alert of a rule whose count is `count` now, if it is active. -/
def AlertRule.breach (rule : AlertRule) (reading : Option Reading) (count : UInt32) :
    Option ActiveAlert :=
  match reading with
  | none => none
  | some reading =>
    if max rule.consecutiveSamples 1 ≤ count then
      some ⟨rule.severity, breachDescription rule reading⟩
    else none

/-- The signal `evaluate` emits for a rule, if its alert was raised or cleared. -/
def AlertRule.signal (rule : AlertRule) (reading : Option Reading) (wasActive : Bool)
    (alert : Option ActiveAlert) : Option AlertSignal :=
  if alert.isSome = wasActive then none
  else some ⟨rule.id, alert.isSome, rule.severity,
    match alert with
    | some alert => alert.detail
    | none => if reading.isNone then unavailableDescription rule else recoveryDescription rule⟩

namespace AlertEvaluator

/-- The first lines of `evaluate`: rules no longer supplied are forgotten. -/
def retain (ev : AlertEvaluator) (rules : List AlertRule) : AlertEvaluator where
  counts := ev.counts.filter fun row => containsRule rules row.1
  active := ev.active.filter fun row => containsRule rules row.1

/-- The body of the source's `evaluate` for one rule. -/
def evaluateRule (ev : AlertEvaluator) (sample : MetricSample) (rule : AlertRule) :
    AlertEvaluator × Option AlertSignal :=
  let reading := metricReading sample rule.metric
  let count := rule.count reading (ev.counts.find rule.id)
  let alert := rule.breach reading count
  let removed := ev.active.erase rule.id
  let active :=
    match alert with
    | none => removed
    | some alert => removed.insert rule.id alert
  (⟨ev.counts.insert rule.id count, active⟩,
    rule.signal reading (ev.active.contains rule.id) alert)

/-- The loop of the source's `evaluate` over the rules. -/
def evaluateRules (ev : AlertEvaluator) (sample : MetricSample) :
    List AlertRule → AlertEvaluator × List AlertSignal
  | [] => (ev, [])
  | rule :: rules =>
    let (ev, signal) := ev.evaluateRule sample rule
    let (ev, signals) := evaluateRules ev sample rules
    (ev, signal.toList ++ signals)

/-- The source's `AlertEvaluator::evaluate`. -/
def evaluate (ev : AlertEvaluator) (sample : MetricSample) (rules : List AlertRule) :
    AlertEvaluator × List AlertSignal :=
  (ev.retain rules).evaluateRules sample rules

end AlertEvaluator

/-- The source's `severity_rank`. -/
def severityRank : NodeState → Nat
  | .critical => 2
  | .warning => 1
  | _ => 0

/-- The source's `AlertEvaluator::worst_active_severity`. -/
def AlertEvaluator.worstActiveSeverity (ev : AlertEvaluator) : Option NodeState :=
  maxBy (fun left right => compare (severityRank left) (severityRank right))
    (ev.active.values.map (·.severity))

/-- The order `active_details` sorts by: the most severe first. -/
def moreSevere (left right : ActiveAlert) : Prop :=
  severityRank right.severity ≤ severityRank left.severity

instance : DecidableRel moreSevere := fun _ _ => inferInstanceAs (Decidable (_ ≤ _))

/-- The source's `AlertEvaluator::active_details`: the sort is stable. -/
def AlertEvaluator.activeDetails (ev : AlertEvaluator) : List String :=
  (ev.active.values.insertionSort moreSevere).map (·.detail)

/-! ## What the health shows of the alerts -/

/-- The worst severity is that of an active alert, and no active alert is worse. -/
theorem AlertEvaluator.worstActiveSeverity_eq_some {ev : AlertEvaluator} {severity : NodeState}
    (h : ev.worstActiveSeverity = some severity) :
    (∃ id alert, ev.active.find id = some alert ∧ alert.severity = severity) ∧
      ∀ id alert, ev.active.find id = some alert →
        severityRank alert.severity ≤ severityRank severity := by
  have hlast := (maxBy_eq_some_iff fun _ _ _ _ => rfl).1 h
  constructor
  · obtain ⟨alert, halert, rfl⟩ := List.mem_map.1 hlast.mem
    obtain ⟨row, hrow, rfl⟩ := List.mem_map.1 halert
    exact ⟨row.1, row.2, Table.mem_rows_iff.1 hrow, rfl⟩
  · intro id alert hfind
    have hrow : (id, alert) ∈ ev.active.rows := Table.mem_rows_iff.2 hfind
    exact hlast.le _ (List.mem_map_of_mem (List.mem_map_of_mem hrow))

/-- Without an active alert there is no worst severity. -/
theorem AlertEvaluator.worstActiveSeverity_eq_none {ev : AlertEvaluator} :
    ev.worstActiveSeverity = none ↔ ∀ id, ev.active.find id = none := by
  unfold AlertEvaluator.worstActiveSeverity Table.values
  cases hrows : ev.active.rows with
  | nil =>
    refine iff_of_true rfl fun id => ?_
    rw [Table.find, hrows]
    rfl
  | cons row rows =>
    refine iff_of_false (by simp [maxBy]) fun h => ?_
    have hfind : ev.active.find row.1 = some row.2 := Table.mem_rows_iff.1 (hrows ▸ .head _)
    rw [h row.1] at hfind
    cases hfind

/-- The order of the lines of the active alerts: by descending severity, then by rule id. -/
def ShownBefore (a b : String × ActiveAlert) : Prop :=
  severityRank b.2.severity < severityRank a.2.severity ∨
    severityRank a.2.severity = severityRank b.2.severity ∧ a.1 < b.1

/-- Inserting a row whose id is below all others into lines in order keeps the order. -/
theorem pairwise_orderedInsert {a : String × ActiveAlert} {l : List (String × ActiveAlert)}
    (h : l.Pairwise ShownBefore) (hlt : ∀ b ∈ l, a.1 < b.1) :
    (l.orderedInsert (fun a b => moreSevere a.2 b.2) a).Pairwise ShownBefore := by
  induction l with
  | nil => simp
  | cons b l ih =>
    obtain ⟨hhead, htail⟩ := List.pairwise_cons.1 h
    rw [List.orderedInsert_cons]
    split
    · next hsevere =>
      -- the stable sort puts the row before the first one that is not more severe
      have hab : ShownBefore a b := by
        rcases lt_or_eq_of_le (show severityRank b.2.severity ≤ _ from hsevere) with hlt' | heq
        · exact .inl hlt'
        · exact .inr ⟨heq.symm, hlt b (.head _)⟩
      refine List.pairwise_cons.2 ⟨fun c hc => ?_, h⟩
      rcases List.mem_cons.1 hc with rfl | hc
      · exact hab
      · have hac : a.1 < c.1 := hlt c (.tail _ hc)
        have hbc : severityRank c.2.severity ≤ severityRank b.2.severity :=
          (hhead c hc).elim le_of_lt fun h => h.1.ge
        rcases lt_or_eq_of_le (hbc.trans hsevere) with hlt' | heq
        · exact .inl hlt'
        · exact .inr ⟨heq.symm, hac⟩
    · next hsevere =>
      have hba : ShownBefore b a := .inl (not_le.1 hsevere)
      refine List.pairwise_cons.2 ⟨fun c hc => ?_, ih htail fun c hc => hlt c (.tail _ hc)⟩
      rcases (List.mem_orderedInsert _).1 hc with rfl | hc
      · exact hba
      · exact hhead c hc

/-- The lines of the health are those of the active alerts, by descending severity and then by rule
id. -/
theorem AlertEvaluator.activeDetails_sorted (ev : AlertEvaluator) :
    ∃ rows : List (String × ActiveAlert), rows.Perm ev.active.rows ∧ rows.Pairwise ShownBefore ∧
      ev.activeDetails = rows.map (·.2.detail) := by
  refine ⟨ev.active.rows.insertionSort fun a b => moreSevere a.2 b.2, List.perm_insertionSort _ _,
    ?_, ?_⟩
  · obtain ⟨rows, hsorted⟩ := ev.active
    show (rows.insertionSort _).Pairwise ShownBefore
    induction rows with
    | nil => exact .nil
    | cons a l ih =>
      obtain ⟨hhead, htail⟩ := List.pairwise_cons.1 hsorted
      refine pairwise_orderedInsert (ih htail) fun b hb => ?_
      exact hhead b ((List.perm_insertionSort _ _).mem_iff.1 hb)
  · unfold AlertEvaluator.activeDetails Table.values
    rw [← List.map_insertionSort (fun a b => moreSevere a.2 b.2) moreSevere (·.2) ev.active.rows
      fun a _ b _ => Iff.rfl, List.map_map]
    rfl

/-! ## What one evaluation does to one rule -/

section
variable {ev : AlertEvaluator} {sample : MetricSample} {rule : AlertRule} {rules : List AlertRule}
  {id : String}

/-- Some rule of the list has the id. -/
theorem containsRule_iff : containsRule rules id = true ↔ ∃ rule ∈ rules, rule.id = id := by
  simp [containsRule]

/-- The count of a rule after a sample, from the evaluator before it. -/
def AlertEvaluator.countAfter (ev : AlertEvaluator) (sample : MetricSample) (rule : AlertRule) :
    UInt32 :=
  rule.count (metricReading sample rule.metric) (ev.counts.find rule.id)

/-- The alert of a rule after a sample, from the evaluator before it. -/
def AlertEvaluator.alertAfter (ev : AlertEvaluator) (sample : MetricSample) (rule : AlertRule) :
    Option ActiveAlert :=
  rule.breach (metricReading sample rule.metric) (ev.countAfter sample rule)

/-- The signal of a rule after a sample, from the evaluator before it. -/
def AlertEvaluator.signalAfter (ev : AlertEvaluator) (sample : MetricSample) (rule : AlertRule) :
    Option AlertSignal :=
  rule.signal (metricReading sample rule.metric) (ev.active.contains rule.id)
    (ev.alertAfter sample rule)

/-- A signal is one of its rule. -/
theorem AlertRule.filter_signal (rule : AlertRule) (reading : Option Reading) (wasActive : Bool)
    (alert : Option ActiveAlert) (id : String) :
    (rule.signal reading wasActive alert).toList.filter (·.ruleId = id) =
      if rule.id = id then (rule.signal reading wasActive alert).toList else [] := by
  unfold AlertRule.signal
  split
  · simp
  · rw [Option.toList_some, List.filter_singleton]
    simp

namespace AlertEvaluator

/-- One rule changes its own count. -/
theorem counts_evaluateRule : (ev.evaluateRule sample rule).1.counts.find id =
    if id = rule.id then some (ev.countAfter sample rule) else ev.counts.find id := by
  simp [evaluateRule, countAfter]

/-- One rule changes its own alert. -/
theorem active_evaluateRule : (ev.evaluateRule sample rule).1.active.find id =
    if id = rule.id then ev.alertAfter sample rule else ev.active.find id := by
  have halert : ev.alertAfter sample rule = rule.breach (metricReading sample rule.metric)
      (rule.count (metricReading sample rule.metric) (ev.counts.find rule.id)) := rfl
  simp only [evaluateRule, ← halert]
  cases ev.alertAfter sample rule with
  | none => simp
  | some alert =>
    rw [Table.find_insert, Table.find_erase]
    split <;> rfl

/-- What the rules of a list other than those of an id leave of it. -/
theorem evaluateRules_other (h : ∀ rule ∈ rules, rule.id ≠ id) :
    (ev.evaluateRules sample rules).1.counts.find id = ev.counts.find id ∧
    (ev.evaluateRules sample rules).1.active.find id = ev.active.find id ∧
    (ev.evaluateRules sample rules).2.filter (·.ruleId = id) = [] := by
  induction rules generalizing ev with
  | nil => exact ⟨rfl, rfl, rfl⟩
  | cons rule rules ih =>
    obtain ⟨hcount, hactive, hsignals⟩ := @ih (ev.evaluateRule sample rule).1
      fun rule hr => h rule (.tail _ hr)
    have hne : id ≠ rule.id := (h rule (.head _)).symm
    refine ⟨?_, ?_, ?_⟩
    · show ((ev.evaluateRule sample rule).1.evaluateRules sample rules).1.counts.find id = _
      rw [hcount, counts_evaluateRule, if_neg hne]
    · show ((ev.evaluateRule sample rule).1.evaluateRules sample rules).1.active.find id = _
      rw [hactive, active_evaluateRule, if_neg hne]
    · show ((ev.signalAfter sample rule).toList ++
        ((ev.evaluateRule sample rule).1.evaluateRules sample rules).2).filter _ = []
      rw [List.filter_append, hsignals, List.append_nil, signalAfter, AlertRule.filter_signal,
        if_neg hne.symm]

/-- What a rule of a list without repeated ids leaves in the maps and emits: it is judged by its own
rows alone. -/
theorem evaluateRules_self (hnodup : (rules.map (·.id)).Nodup) (hr : rule ∈ rules) :
    (ev.evaluateRules sample rules).1.counts.find rule.id = some (ev.countAfter sample rule) ∧
    (ev.evaluateRules sample rules).1.active.find rule.id = ev.alertAfter sample rule ∧
    (ev.evaluateRules sample rules).2.filter (·.ruleId = rule.id) =
      (ev.signalAfter sample rule).toList := by
  induction rules generalizing ev with
  | nil => cases hr
  | cons first rules ih =>
    rw [List.map_cons, List.nodup_cons] at hnodup
    have hrest : (ev.evaluateRules sample (first :: rules)) =
      (((ev.evaluateRule sample first).1.evaluateRules sample rules).1,
        (ev.signalAfter sample first).toList ++
          ((ev.evaluateRule sample first).1.evaluateRules sample rules).2) := rfl
    rw [hrest]
    rcases List.mem_cons.1 hr with rfl | hr
    · -- the rules behind it have other ids
      have hother : ∀ other ∈ rules, other.id ≠ rule.id := fun other ho heq =>
        hnodup.1 (List.mem_map.2 ⟨other, ho, heq⟩)
      obtain ⟨hcount, hactive, hsignals⟩ := @evaluateRules_other
        (ev.evaluateRule sample rule).1 sample rules rule.id hother
      refine ⟨?_, ?_, ?_⟩
      · rw [hcount, counts_evaluateRule, if_pos rfl]
      · rw [hactive, active_evaluateRule, if_pos rfl]
      · rw [List.filter_append, hsignals, List.append_nil, signalAfter, AlertRule.filter_signal,
          if_pos rfl]
    · -- the first rule has another id, and leaves the rows of this one
      have hne : rule.id ≠ first.id := fun heq =>
        hnodup.1 (List.mem_map.2 ⟨rule, hr, heq⟩)
      obtain ⟨hcount, hactive, hsignals⟩ := @ih (ev.evaluateRule sample first).1 hnodup.2 hr
      have hcounts : (ev.evaluateRule sample first).1.counts.find rule.id =
          ev.counts.find rule.id := by rw [counts_evaluateRule, if_neg hne]
      have hactives : (ev.evaluateRule sample first).1.active.find rule.id =
          ev.active.find rule.id := by rw [active_evaluateRule, if_neg hne]
      have hafter : (ev.evaluateRule sample first).1.countAfter sample rule =
          ev.countAfter sample rule := by rw [countAfter, hcounts, countAfter]
      have halert : (ev.evaluateRule sample first).1.alertAfter sample rule =
          ev.alertAfter sample rule := by rw [alertAfter, hafter, alertAfter]
      refine ⟨hcount.trans (by rw [hafter]), hactive.trans halert, ?_⟩
      have hfirst : (ev.signalAfter sample first).toList.filter (·.ruleId = rule.id) = [] := by
        rw [signalAfter, AlertRule.filter_signal, if_neg hne.symm]
      rw [List.filter_append, hfirst, hsignals, List.nil_append, signalAfter, Table.contains,
        hactives, halert, signalAfter, Table.contains]

/-- Forgetting the rules that are not listed leaves the rows of a listed one. -/
theorem find_retain (ev : AlertEvaluator) (rules : List AlertRule) (id : String) :
    (ev.retain rules).counts.find id =
      (if containsRule rules id then ev.counts.find id else none) ∧
    (ev.retain rules).active.find id =
      if containsRule rules id then ev.active.find id else none :=
  ⟨Table.find_filter _ _ _, Table.find_filter _ _ _⟩

/-- What an evaluation leaves in the maps and emits for a listed rule. -/
theorem evaluate_listed (hnodup : (rules.map (·.id)).Nodup) (hr : rule ∈ rules) :
    (ev.evaluate sample rules).1.counts.find rule.id = some (ev.countAfter sample rule) ∧
    (ev.evaluate sample rules).1.active.find rule.id = ev.alertAfter sample rule ∧
    (ev.evaluate sample rules).2.filter (·.ruleId = rule.id) =
      (ev.signalAfter sample rule).toList := by
  have hlisted : containsRule rules rule.id = true := containsRule_iff.2 ⟨rule, hr, rfl⟩
  obtain ⟨hcounts, hactives⟩ := find_retain ev rules rule.id
  rw [hlisted, if_pos rfl] at hcounts hactives
  have hafter : (ev.retain rules).countAfter sample rule = ev.countAfter sample rule := by
    rw [countAfter, hcounts, countAfter]
  have halert : (ev.retain rules).alertAfter sample rule = ev.alertAfter sample rule := by
    rw [alertAfter, hafter, alertAfter]
  obtain ⟨hcount, hactive, hsignals⟩ := @evaluateRules_self (ev.retain rules) sample rule rules
    hnodup hr
  refine ⟨hcount.trans (by rw [hafter]), hactive.trans halert, hsignals.trans ?_⟩
  rw [signalAfter, Table.contains, hactives, halert, signalAfter, Table.contains]

/-- An evaluation leaves nothing of an id that is not listed. -/
theorem evaluate_unlisted (h : containsRule rules id = false) :
    (ev.evaluate sample rules).1.counts.find id = none ∧
    (ev.evaluate sample rules).1.active.find id = none ∧
    (ev.evaluate sample rules).2.filter (·.ruleId = id) = [] := by
  have hne : ∀ rule ∈ rules, rule.id ≠ id := by
    intro rule hr heq
    rw [containsRule_iff.2 ⟨rule, hr, heq⟩] at h
    cases h
  obtain ⟨hcounts, hactives⟩ := find_retain ev rules id
  rw [h] at hcounts hactives
  obtain ⟨hcount, hactive, hsignals⟩ := @evaluateRules_other (ev.retain rules) sample rules id hne
  exact ⟨hcount.trans hcounts, hactive.trans hactives, hsignals⟩

end AlertEvaluator

end

/-! ## Histories -/

/-- One call of `evaluate`: the sample and the rules in force. -/
structure AlertTick where
  sample : MetricSample
  rules : List AlertRule
  deriving DecidableEq, Repr

/-- The sample has the rule's metric, and its reading meets the rule. -/
def AlertRule.holds (rule : AlertRule) (sample : MetricSample) : Bool :=
  (metricReading sample rule.metric).any rule.matches

/-- The rules of a tick have different ids. -/
def AlertTick.Distinct (tick : AlertTick) : Prop := (tick.rules.map (·.id)).Nodup

/-- Some rule of a tick has the id. -/
def AlertTick.lists (tick : AlertTick) (id : String) : Bool := containsRule tick.rules id

/-- At a tick the id is listed, and the sample meets the definition it then has. -/
def AlertTick.holds (tick : AlertTick) (id : String) : Bool :=
  tick.rules.any fun rule => rule.id = id && rule.holds tick.sample

/-- A history of evaluations: the evaluator it leaves and the signals it emits. -/
def AlertEvaluator.run (ev : AlertEvaluator) : List AlertTick → AlertEvaluator × List AlertSignal
  | [] => (ev, [])
  | tick :: ticks =>
    let (ev, signals) := ev.evaluate tick.sample tick.rules
    let (ev, later) := AlertEvaluator.run ev ticks
    (ev, signals ++ later)

/-- The evaluator of a fresh agent after a history. -/
def evaluatorAfter (ticks : List AlertTick) : AlertEvaluator :=
  (AlertEvaluator.default.run ticks).1

/-- The signals the next tick after a history emits for an id. -/
def signalsAt (before : List AlertTick) (tick : AlertTick) (id : String) : List AlertSignal :=
  ((evaluatorAfter before).evaluate tick.sample tick.rules).2.filter (·.ruleId = id)

section
variable {ev : AlertEvaluator} {rule : AlertRule} {tick : AlertTick} {ticks : List AlertTick}
  {id : String}

/-- A history is run up to its last tick, and then the tick. -/
theorem AlertEvaluator.run_snoc (ev : AlertEvaluator) (ticks : List AlertTick) (tick : AlertTick) :
    (ev.run (ticks ++ [tick])).1 = ((ev.run ticks).1.evaluate tick.sample tick.rules).1 := by
  induction ticks generalizing ev with
  | nil => rfl
  | cons first ticks ih => exact ih (ev.evaluate first.sample first.rules).1

/-- The evaluator of a fresh agent after one more tick. -/
theorem evaluatorAfter_snoc (ticks : List AlertTick) (tick : AlertTick) :
    evaluatorAfter (ticks ++ [tick]) =
      ((evaluatorAfter ticks).evaluate tick.sample tick.rules).1 :=
  AlertEvaluator.default.run_snoc ticks tick

/-- Whether an id holds at a tick is whether its one rule does. -/
theorem AlertTick.holds_of_mem (hd : tick.Distinct) (hr : rule ∈ tick.rules) :
    tick.holds rule.id = rule.holds tick.sample := by
  have honly : ∀ other ∈ tick.rules, other.id = rule.id → other = rule := fun other ho heq =>
    List.inj_on_of_nodup_map hd ho hr heq
  rw [Bool.eq_iff_iff, AlertTick.holds, List.any_eq_true]
  constructor
  · rintro ⟨other, ho, hh⟩
    rw [Bool.and_eq_true, decide_eq_true_eq] at hh
    rw [← honly other ho hh.1]
    exact hh.2
  · intro hh
    exact ⟨rule, hr, by simp [hh]⟩

/-- An id that is not listed does not hold. -/
theorem AlertTick.holds_of_not_lists (h : tick.lists id = false) : tick.holds id = false := by
  rw [Bool.eq_false_iff] at h ⊢
  intro hh
  obtain ⟨rule, hr, hh⟩ := List.any_eq_true.1 hh
  rw [Bool.and_eq_true, decide_eq_true_eq] at hh
  exact h (containsRule_iff.2 ⟨rule, hr, hh.1⟩)

/-- The largest count. -/
def maxCount : Nat := 2 ^ 32 - 1

/-- A count stops at the largest `u32`. -/
theorem toNat_satSuccU32 (count : UInt32) :
    (satSuccU32 count).toNat = min (count.toNat + 1) maxCount := by
  have hlt := count.toNat_lt
  unfold satSuccU32 maxCount
  split
  · next h =>
    subst h
    rfl
  · next h =>
    have hne : count.toNat ≠ 0xFFFFFFFF := fun heq => h (UInt32.toNat_inj.1 heq)
    rw [UInt32.toNat_add]
    show (count.toNat + 1) % 2 ^ 32 = _
    omega

/-- A rule that holds is counted once more, and a rule that does not is counted from the start. -/
theorem AlertEvaluator.toNat_countAfter (ev : AlertEvaluator) (sample : MetricSample)
    (rule : AlertRule) : (ev.countAfter sample rule).toNat =
      if rule.holds sample then min (((ev.counts.find rule.id).getD 0).toNat + 1) maxCount
      else 0 := by
  unfold AlertEvaluator.countAfter AlertRule.count AlertRule.holds
  cases metricReading sample rule.metric with
  | none => rfl
  | some reading =>
    show (if rule.matches reading then _ else 0 : UInt32).toNat =
      if rule.matches reading then _ else 0
    split
    · exact toNat_satSuccU32 _
    · rfl

/-- The count of an id is how many of the last ticks it held at without a gap, up to the largest
count. -/
theorem count_eq_streak (hd : ∀ tick ∈ ticks, tick.Distinct) (id : String) :
    (((evaluatorAfter ticks).counts.find id).getD 0).toNat =
      min (Streak.streak (·.holds id) ticks) maxCount := by
  induction ticks using List.reverseRecOn with
  | nil => rfl
  | append_singleton ticks tick ih =>
    have ih := ih fun tick ht => hd tick (List.mem_append_left _ ht)
    have hdistinct : tick.Distinct := hd tick (List.mem_append_right _ (.head _))
    rw [evaluatorAfter_snoc, Streak.min_streak_snoc, ← ih]
    cases hlists : tick.lists id with
    | false =>
      rw [(AlertEvaluator.evaluate_unlisted hlists).1, AlertTick.holds_of_not_lists hlists]
      rfl
    | true =>
      obtain ⟨rule, hr, rfl⟩ := containsRule_iff.1 hlists
      rw [(AlertEvaluator.evaluate_listed hdistinct hr).1, AlertTick.holds_of_mem hdistinct hr]
      exact AlertEvaluator.toNat_countAfter _ _ _

/-- A rule is active when its count reaches its window, and a window is at least one sample. -/
theorem AlertEvaluator.isSome_alertAfter {sample : MetricSample} :
    (ev.alertAfter sample rule).isSome = true ↔
      max 1 rule.consecutiveSamples.toNat ≤ (ev.countAfter sample rule).toNat := by
  have hmax : (max rule.consecutiveSamples 1).toNat = max 1 rule.consecutiveSamples.toNat := by
    show (if rule.consecutiveSamples ≤ 1 then (1 : UInt32) else rule.consecutiveSamples).toNat = _
    rw [max_comm, max_def, apply_ite UInt32.toNat]
    rfl
  have hcount := ev.toNat_countAfter sample rule
  unfold AlertEvaluator.alertAfter AlertRule.breach
  cases hreading : metricReading sample rule.metric with
  | none =>
    rw [AlertRule.holds, hreading] at hcount
    simp only [Option.any_none, Bool.false_eq_true, if_false] at hcount
    rw [hcount]
    simp
  | some reading =>
    rw [← hmax, ← UInt32.le_iff_toNat_le]
    show (if _ then _ else none : Option ActiveAlert).isSome = true ↔ _
    split
    · next h => exact iff_of_true rfl h
    · next h => exact iff_of_false (by simp) h

/-- An alert carries the severity of its rule and the line of the reading. -/
theorem AlertEvaluator.alertAfter_eq_some {sample : MetricSample} {alert : ActiveAlert}
    (h : ev.alertAfter sample rule = some alert) :
    ∃ reading, metricReading sample rule.metric = some reading ∧
      alert = ⟨rule.severity, breachDescription rule reading⟩ := by
  unfold AlertEvaluator.alertAfter AlertRule.breach at h
  cases hreading : metricReading sample rule.metric with
  | none =>
    rw [hreading] at h
    cases h
  | some reading =>
    simp only [hreading] at h
    split at h
    · cases h
      exact ⟨reading, rfl, rfl⟩
    · cases h

/-- A rule emits a signal when its alert is raised or cleared, and the signal says which. -/
theorem AlertEvaluator.active_signalAfter (ev : AlertEvaluator) (sample : MetricSample)
    (rule : AlertRule) : (ev.signalAfter sample rule).toList.map (·.active) =
      if ev.active.contains rule.id = (ev.alertAfter sample rule).isSome then []
      else [(ev.alertAfter sample rule).isSome] := by
  unfold AlertEvaluator.signalAfter AlertRule.signal
  split
  · next hsame => rw [if_pos hsame.symm, Option.toList_none, List.map_nil]
  · next hchanged =>
    rw [if_neg (Ne.symm hchanged)]
    rfl

end

/-! ## The law -/

/-- What a tick leaves after a history, and what it emits. -/
structure EvaluatesTo (before : List AlertTick) (tick : AlertTick) : Prop where
  /-- An id is active when it is listed and held at each of the last ticks its window asks for. -/
  active_iff : ∀ id, (evaluatorAfter (before ++ [tick])).active.contains id = true ↔
    ∃ rule ∈ tick.rules, rule.id = id ∧ ∀ k < max 1 rule.consecutiveSamples.toNat,
      ∃ past, (before ++ [tick]).reverse[k]? = some past ∧ past.holds id = true
  /-- An alert is that of the current rule and the current reading. -/
  stored : ∀ rule ∈ tick.rules, ∀ alert,
    (evaluatorAfter (before ++ [tick])).active.find rule.id = some alert →
      ∃ reading, metricReading tick.sample rule.metric = some reading ∧
        alert = ⟨rule.severity, breachDescription rule reading⟩
  /-- Nothing is kept of an id that is not listed, and nothing is said of it. -/
  unlisted : ∀ id, tick.lists id = false →
    (evaluatorAfter (before ++ [tick])).counts.find id = none ∧
      (evaluatorAfter (before ++ [tick])).active.find id = none ∧ signalsAt before tick id = []
  /-- A listed id has one signal when its activity changed, and none otherwise. -/
  signals : ∀ id, tick.lists id = true →
    (signalsAt before tick id).map (·.active) =
      if (evaluatorAfter before).active.contains id =
        (evaluatorAfter (before ++ [tick])).active.contains id then []
      else [(evaluatorAfter (before ++ [tick])).active.contains id]

/-- Raise, clear, raise, and so on. -/
def Alternates (flags : List Bool) : Prop := (false :: flags).IsChain (· ≠ ·)

/-- The law of a history: what each tick leaves, and that the signals of an id alternate while it is
listed, from the first tick that lists it. -/
structure EvaluatorLaw (ticks : List AlertTick) : Prop where
  tick : ∀ before tick, before ++ [tick] <+: ticks → EvaluatesTo before tick
  stretch : ∀ before stretch id, before ++ stretch <+: ticks →
    (∀ last ∈ before.getLast?, last.lists id = false) → (∀ tick ∈ stretch, tick.lists id = true) →
      Alternates ((((evaluatorAfter before).run stretch).2.filter (·.ruleId = id)).map (·.active))

section
variable {ev : AlertEvaluator} {tick : AlertTick} {before ticks : List AlertTick} {id : String}

/-- The activity of a listed id after a tick. -/
theorem contains_evaluate {rule : AlertRule} (hd : tick.Distinct) (hr : rule ∈ tick.rules) :
    (ev.evaluate tick.sample tick.rules).1.active.contains rule.id =
      (ev.alertAfter tick.sample rule).isSome := by
  rw [Table.contains, (AlertEvaluator.evaluate_listed hd hr).2.1]

/-- The signals of one evaluation for a listed id. -/
theorem flags_evaluate (hd : tick.Distinct) (hlists : tick.lists id = true) :
    ((ev.evaluate tick.sample tick.rules).2.filter (·.ruleId = id)).map (·.active) =
      if ev.active.contains id = (ev.evaluate tick.sample tick.rules).1.active.contains id then []
      else [(ev.evaluate tick.sample tick.rules).1.active.contains id] := by
  obtain ⟨rule, hr, rfl⟩ := containsRule_iff.1 hlists
  rw [(AlertEvaluator.evaluate_listed hd hr).2.2, contains_evaluate hd hr]
  exact ev.active_signalAfter tick.sample rule

/-- What a tick does after a history whose rule lists have no repeated ids. -/
theorem evaluatesTo (hbefore : ∀ tick ∈ before, tick.Distinct) (hd : tick.Distinct) :
    EvaluatesTo before tick where
  active_iff := by
    intro id
    rw [evaluatorAfter_snoc]
    cases hlists : tick.lists id with
    | false =>
      rw [Table.contains, (AlertEvaluator.evaluate_unlisted hlists).2.1]
      refine iff_of_false (by simp) ?_
      rintro ⟨rule, hr, heq, -⟩
      rw [AlertTick.lists, containsRule_iff.2 ⟨rule, hr, heq⟩] at hlists
      cases hlists
    | true =>
      obtain ⟨rule, hr, rfl⟩ := containsRule_iff.1 hlists
      have hall : ∀ past ∈ before ++ [tick], past.Distinct := by
        simpa [or_imp, forall_and] using ⟨hbefore, hd⟩
      have hcount := count_eq_streak hall rule.id
      rw [evaluatorAfter_snoc, (AlertEvaluator.evaluate_listed hd hr).1, Option.getD_some] at hcount
      have hwindow : max 1 rule.consecutiveSamples.toNat ≤ maxCount := by
        have := rule.consecutiveSamples.toNat_lt
        unfold maxCount
        omega
      -- a count that stops at the largest `u32` still reaches every window
      rw [contains_evaluate hd hr, AlertEvaluator.isSome_alertAfter, hcount, le_min_iff,
        and_iff_left hwindow, Streak.le_streak_iff]
      constructor
      · intro h
        exact ⟨rule, hr, rfl, h⟩
      · rintro ⟨other, ho, heq, h⟩
        rw [List.inj_on_of_nodup_map hd ho hr heq] at h
        exact h
  stored := by
    intro rule hr alert halert
    rw [evaluatorAfter_snoc, (AlertEvaluator.evaluate_listed hd hr).2.1] at halert
    exact AlertEvaluator.alertAfter_eq_some halert
  unlisted := by
    intro id hlists
    rw [evaluatorAfter_snoc]
    exact AlertEvaluator.evaluate_unlisted hlists
  signals := by
    intro id hlists
    rw [evaluatorAfter_snoc]
    exact flags_evaluate hd hlists

/-- While an id is listed, each of its signals changes the activity it had. -/
theorem flags_chain {stretch : List AlertTick} (hd : ∀ tick ∈ stretch, tick.Distinct)
    (hlists : ∀ tick ∈ stretch, tick.lists id = true) :
    (ev.active.contains id :: ((ev.run stretch).2.filter (·.ruleId = id)).map (·.active)).IsChain
      (· ≠ ·) := by
  induction stretch generalizing ev with
  | nil => exact .singleton _
  | cons tick stretch ih =>
    have hrest := @ih (ev.evaluate tick.sample tick.rules).1
      (fun tick ht => hd tick (.tail _ ht)) (fun tick ht => hlists tick (.tail _ ht))
    show (_ :: (((ev.evaluate tick.sample tick.rules).2 ++ _).filter (·.ruleId = id)).map
      (·.active)).IsChain (· ≠ ·)
    rw [List.filter_append, List.map_append, flags_evaluate (hd _ (.head _)) (hlists _ (.head _))]
    split
    · next hsame =>
      rw [hsame]
      exact hrest
    · next hchanged => exact .cons_cons hchanged hrest

/-- An id the last tick did not list is not active. -/
theorem not_active_of_unlisted (hlast : ∀ last ∈ before.getLast?, last.lists id = false) :
    (evaluatorAfter before).active.contains id = false := by
  induction before using List.reverseRecOn with
  | nil => rfl
  | append_singleton before tick =>
    rw [evaluatorAfter_snoc, Table.contains,
      (AlertEvaluator.evaluate_unlisted (hlast tick (by simp))).2.1]
    rfl

end

/-- In every history of samples and rule lists, whatever changes between two ticks, an id is active
exactly when it is listed and held at each of the last ticks its window asks for, its alert is that
of the current rule and reading, nothing is kept of an id that is not listed, and the signals of an
id alternate while it is listed, one at each change of its activity. -/
theorem evaluator_law (ticks : List AlertTick) (hd : ∀ tick ∈ ticks, tick.Distinct) :
    EvaluatorLaw ticks where
  tick := by
    rintro before tick ⟨later, rfl⟩
    simp only [List.mem_append, List.mem_singleton] at hd
    exact evaluatesTo (fun tick ht => hd tick (.inl (.inl ht))) (hd tick (.inl (.inr rfl)))
  stretch := by
    rintro before stretch id ⟨later, rfl⟩ hlast hlists
    simp only [List.mem_append] at hd
    have hchain := @flags_chain (evaluatorAfter before) id stretch
      (fun tick ht => hd tick (.inl (.inr ht))) hlists
    rw [not_active_of_unlisted hlast] at hchain
    exact hchain

/-- A sample of a machine whose only readable metric is a disk, with its used share in percent. -/
def diskSample (percent : UInt64) : MetricSample :=
  { (default : MetricSample) with disks := [⟨"/", 100, percent⟩] }

/-- The law of a machine whose disk fills up and is cleared while its rules change. -/
theorem evaluator_law_disk :
    EvaluatorLaw [⟨diskSample 92, defaultAlertRules⟩, ⟨diskSample 96, []⟩,
      ⟨diskSample 40, defaultAlertRules⟩] := by
  refine evaluator_law _ ?_
  have hshipped : (defaultAlertRules.map (·.id)).Nodup := by decide
  intro tick ht
  simp only [List.mem_cons, List.not_mem_nil, or_false] at ht
  rcases ht with rfl | rfl | rfl
  · exact hshipped
  · exact List.nodup_nil
  · exact hshipped

end Rackio
