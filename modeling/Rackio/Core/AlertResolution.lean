import Rackio.Core.Alert
import Rackio.Lib.KeyedMerge

/-!
# Resolution, rule by rule

What `resolveAlertRules` returns, for any list of changes. The loop merges by the id of the rule, so
an entry is what the changes of its own id make of the shipped rule, or of nothing: `entryOf` says
it field by field, with the last value given for each. `Described` is what a list of changes has to
say about the rules Rackio does not ship.

`alertMerge` instantiates the merge by key, `single_eq_ok_iff` says what the changes of one id come
to, and `resolution_by_rule` puts it together.
-/

namespace Rackio

/-! ## One rule -/

/-- The last value that a list of changes gives for a field. -/
def lastGiven {α : Type} (field : AlertRuleConfig → Option α) (changes : List AlertRuleConfig) :
    Option α :=
  (changes.filterMap field).getLast?

/-- The ids of the shipped rules. -/
def shippedIds : List String := defaultAlertRules.map (·.id)

/-- The rule of an id before any change. One that Rackio does not ship has only its sample window;
the other fields are placeholders for what its first change must define. -/
def baseRule (id : String) : AlertRule :=
  (defaultAlertRules.find? (·.id = id)).getD
    { (default : AlertRule) with id := id, consecutiveSamples := 1 }

/-- The entry that the changes of one id make. -/
def entryOf (id : String) (changes : List AlertRuleConfig) : ResolvedAlertRule where
  rule :=
    { id := id
      metric := (lastGiven (·.metric) changes).getD (baseRule id).metric
      comparison := (lastGiven (·.comparison) changes).getD (baseRule id).comparison
      threshold := (lastGiven (·.threshold) changes).getD (baseRule id).threshold
      consecutiveSamples :=
        (lastGiven (·.consecutiveSamples) changes).getD (baseRule id).consecutiveSamples
      severity := (lastGiven (·.severity) changes).getD (baseRule id).severity }
  enabled := (lastGiven (·.enabled) changes).getD true
  source :=
    if id ∈ shippedIds ∧ ∀ change ∈ changes, changesALevel change = false then .builtIn
    else .configured

/-- The change says all that a rule Rackio does not ship needs. -/
structure AlertRuleConfig.Defines (change : AlertRuleConfig) : Prop where
  metric : change.metric.isSome
  comparison : change.comparison.isSome
  threshold : change.threshold.isSome
  severity : change.severity.isSome

section
variable {id : String} {change : AlertRuleConfig} {changes : List AlertRuleConfig}

theorem lastGiven_snoc {α : Type} (field : AlertRuleConfig → Option α) (default : α) :
    (lastGiven field (changes ++ [change])).getD default =
      (field change).getD ((lastGiven field changes).getD default) := by
  unfold lastGiven
  rw [List.filterMap_append, List.filterMap_cons]
  cases field change with
  | none => simp
  | some a => simp

/-- The entry after one more change. -/
theorem entryOf_snoc : entryOf id (changes ++ [change]) = (entryOf id changes).change change := by
  unfold entryOf ResolvedAlertRule.change applyOverride
  simp only [lastGiven_snoc, ResolvedAlertRule.mk.injEq, true_and]
  cases hlevel : changesALevel change with
  | true =>
    rw [if_pos rfl, if_neg]
    rintro ⟨-, hnone⟩
    have hfalse := hnone change (List.mem_append_right _ (.head _))
    rw [hlevel] at hfalse
    cases hfalse
  | false =>
    have hsame : (∀ c ∈ changes ++ [change], changesALevel c = false) ↔
        ∀ c ∈ changes, changesALevel c = false := by
      rw [List.forall_mem_append, List.forall_mem_singleton]
      exact and_iff_left hlevel
    simp only [hsame, Bool.false_eq_true, if_false]

/-- The entry is the changes of its id, made one after the other. -/
theorem entryOf_eq_foldl :
    entryOf id changes = changes.foldl ResolvedAlertRule.change (entryOf id []) := by
  induction changes using List.reverseRecOn with
  | nil => rfl
  | append_singleton changes change ih => rw [entryOf_snoc, ih, List.foldl_append]; rfl

/-- A rule has the id it is looked up by. -/
theorem baseRule_id : (baseRule id).id = id := by
  unfold baseRule
  cases hrule : defaultAlertRules.find? (·.id = id) with
  | none => rfl
  | some rule => simpa using List.find?_some hrule

/-- The entry of an id before any change. -/
theorem entryOf_nil :
    entryOf id [] = ⟨baseRule id, true, if id ∈ shippedIds then .builtIn else .configured⟩ := by
  have hnone : ∀ change ∈ ([] : List AlertRuleConfig), changesALevel change = false :=
    fun _ h => by cases h
  unfold entryOf
  simp only [and_iff_left hnone, ResolvedAlertRule.mk.injEq, and_true]
  refine ⟨?_, rfl⟩
  have hid : (baseRule id).id = id := baseRule_id
  generalize baseRule id = rule at hid
  subst hid
  rfl

/-- A shipped rule before any change. -/
theorem shippedRules_find? :
    shippedRules.find? (·.rule.id = id) =
      if id ∈ shippedIds then some (entryOf id []) else none := by
  have hfind : shippedRules.find? (·.rule.id = id) =
      (defaultAlertRules.find? (·.id = id)).map (⟨·, true, .builtIn⟩) := by
    unfold shippedRules
    rw [List.find?_map]
    rfl
  rw [hfind, entryOf_nil]
  unfold baseRule
  cases hrule : defaultAlertRules.find? (·.id = id) with
  | none =>
    have hnot : id ∉ shippedIds := by
      intro hmem
      obtain ⟨rule, hmem, hid⟩ := List.mem_map.1 hmem
      exact List.find?_eq_none.1 hrule rule hmem (decide_eq_true hid)
    rw [if_neg hnot]
    rfl
  | some rule =>
    have hid : rule.id = id := by simpa using List.find?_some hrule
    have hmem : id ∈ shippedIds := List.mem_map.2 ⟨rule, List.mem_of_find?_eq_some hrule, hid⟩
    rw [if_pos hmem, if_pos hmem]
    rfl

/-- A field that is required and was given. -/
theorem okOr_eq_ok {α : Type} {x : Option α} {a : α} {error : String}
    (h : okOr x error = .ok a) : x = some a := by
  cases x with
  | none => cases h
  | some b =>
    cases h
    rfl

/-- What a change that names no known rule defines. -/
theorem newRule_eq_ok_iff {rule : AlertRule} (hid : change.id ∉ shippedIds) :
    newRule change = .ok rule ↔
      change.Defines ∧ rule = applyOverride (baseRule change.id) change := by
  have hbase : baseRule change.id =
      { (default : AlertRule) with id := change.id, consecutiveSamples := 1 } := by
    have hnone : defaultAlertRules.find? (·.id = change.id) = none := by
      rw [List.find?_eq_none]
      intro rule hmem heq
      exact hid (List.mem_map.2 ⟨rule, hmem, of_decide_eq_true heq⟩)
    unfold baseRule
    rw [hnone]
    rfl
  rw [hbase]
  unfold newRule
  constructor
  · intro h
    obtain ⟨metric, hmetric, h⟩ := Outcome.bind_eq_ok_iff.1 h
    obtain ⟨comparison, hcomparison, h⟩ := Outcome.bind_eq_ok_iff.1 h
    obtain ⟨threshold, hthreshold, h⟩ := Outcome.bind_eq_ok_iff.1 h
    obtain ⟨severity, hseverity, h⟩ := Outcome.bind_eq_ok_iff.1 h
    cases h
    have hmetric := okOr_eq_ok hmetric
    have hcomparison := okOr_eq_ok hcomparison
    have hthreshold := okOr_eq_ok hthreshold
    have hseverity := okOr_eq_ok hseverity
    refine ⟨⟨?_, ?_, ?_, ?_⟩, ?_⟩
    · rw [hmetric, Option.isSome_some]
    · rw [hcomparison, Option.isSome_some]
    · rw [hthreshold, Option.isSome_some]
    · rw [hseverity, Option.isSome_some]
    · unfold applyOverride
      rw [hmetric, hcomparison, hthreshold, hseverity]
      rfl
  · rintro ⟨⟨hmetric, hcomparison, hthreshold, hseverity⟩, rfl⟩
    obtain ⟨metric, hmetric⟩ := Option.isSome_iff_exists.1 hmetric
    obtain ⟨comparison, hcomparison⟩ := Option.isSome_iff_exists.1 hcomparison
    obtain ⟨threshold, hthreshold⟩ := Option.isSome_iff_exists.1 hthreshold
    obtain ⟨severity, hseverity⟩ := Option.isSome_iff_exists.1 hseverity
    unfold applyOverride
    rw [hmetric, hcomparison, hthreshold, hseverity]
    rfl

end

/-! ## The merge -/

/-- The loop of `resolve_alert_rules` as a merge by the id of the rule. -/
def alertMerge : KeyedMerge String ResolvedAlertRule AlertRuleConfig String where
  entryKey entry := entry.rule.id
  changeKey := AlertRuleConfig.id
  update := ResolvedAlertRule.change
  create change := do
    let rule ← newRule change
    return ⟨rule, change.enabled.getD true, .configured⟩
  key_update _ _ := rfl
  key_create change entry h := by
    obtain ⟨rule, hrule, h⟩ := Outcome.bind_eq_ok_iff.1 h
    cases h
    exact newRule_id hrule

/-- One turn of the loop is one step of the merge. -/
theorem mergeChange_eq (resolved : List ResolvedAlertRule) (change : AlertRuleConfig) :
    mergeChange resolved change = alertMerge.step resolved change := by
  have hindex : resolved.findIdx? (alertMerge.entryKey · = alertMerge.changeKey change) =
      resolved.findIdx? (·.rule.id = change.id) := rfl
  unfold mergeChange KeyedMerge.step
  rw [hindex]
  cases resolved.findIdx? (·.rule.id = change.id) with
  | some index => rfl
  | none =>
    show (newRule change >>= _) = ((newRule change >>= _) >>= _)
    cases newRule change <;> rfl

/-- The changes of one id. -/
def ownChanges (overrides : List AlertRuleConfig) (id : String) : List AlertRuleConfig :=
  overrides.filter (·.id = id)

/-- The entry of an id. -/
def ruleOf (rules : List ResolvedAlertRule) (id : String) : Option ResolvedAlertRule :=
  rules.find? (·.rule.id = id)

/-- The ids of the rules that result: the shipped ones in their order, and then the others in the
order in which they first appear. -/
def ruleIds (overrides : List AlertRuleConfig) : List String :=
  shippedIds ++ ((overrides.map (·.id)).filter (· ∉ shippedIds)).eraseDups

/-- The first change of every id that Rackio does not ship defines its rule. -/
def Described (overrides : List AlertRuleConfig) : Prop :=
  ∀ id ∉ shippedIds, ∀ first, overrides.find? (·.id = id) = some first → first.Defines

section
variable {overrides other : List AlertRuleConfig} {rules rules' : List ResolvedAlertRule}
  {id : String} {entry : ResolvedAlertRule}

theorem mem_ruleIds_iff :
    id ∈ ruleIds overrides ↔ id ∈ shippedIds ∨ ownChanges overrides id ≠ [] := by
  unfold ruleIds ownChanges
  rw [List.mem_append, List.mem_eraseDups, List.mem_filter, Ne, List.filter_eq_nil_iff]
  by_cases h : id ∈ shippedIds
  · exact iff_of_true (.inl h) (.inl h)
  · simp [h]

/-- A change that makes a new rule makes it of nothing. -/
theorem create_eq_ok_iff {change : AlertRuleConfig} (hid : change.id ∉ shippedIds) :
    alertMerge.create change = .ok entry ↔
      change.Defines ∧ entry = (entryOf change.id []).change change := by
  have hblank : (entryOf change.id []).change change =
      ⟨applyOverride (baseRule change.id) change, change.enabled.getD true, .configured⟩ := by
    rw [entryOf_nil, if_neg hid]
    unfold ResolvedAlertRule.change
    rw [ite_self]
  rw [hblank]
  refine Outcome.bind_eq_ok_iff.trans ?_
  simp only [newRule_eq_ok_iff hid]
  constructor
  · rintro ⟨_, ⟨hdefines, rfl⟩, h⟩
    cases h
    exact ⟨hdefines, rfl⟩
  · rintro ⟨hdefines, rfl⟩
    exact ⟨_, ⟨hdefines, rfl⟩, rfl⟩

/-- The changes of one id over what Rackio ships under it. -/
theorem single_eq_ok_iff {changes : List AlertRuleConfig} (hown : ∀ c ∈ changes, c.id = id)
    {found : Option ResolvedAlertRule} :
    alertMerge.single (alertMerge.lookup shippedRules id) changes = .ok found ↔
      (id ∉ shippedIds → ∀ first ∈ changes.head?, first.Defines) ∧
        found = if id ∈ shippedIds ∨ changes ≠ [] then some (entryOf id changes) else none := by
  have hstart : alertMerge.lookup shippedRules id =
      if id ∈ shippedIds then some (entryOf id []) else none := shippedRules_find?
  have hentry : entryOf id changes =
      changes.foldl ResolvedAlertRule.change (entryOf id []) := entryOf_eq_foldl
  rw [hstart, hentry]
  by_cases hid : id ∈ shippedIds
  · rw [if_pos hid, if_pos (.inl hid), KeyedMerge.single_some, Except.ok.injEq, eq_comm]
    exact (and_iff_right fun hnot => absurd hid hnot).symm
  · rw [if_neg hid]
    cases changes with
    | nil =>
      rw [if_neg (not_or.2 ⟨hid, not_not.2 rfl⟩)]
      constructor
      · intro h
        cases h
        refine ⟨fun _ first hfirst => ?_, rfl⟩
        cases hfirst
      · rintro ⟨-, rfl⟩
        rfl
    | cons first rest =>
      have hfirst : first.id = id := hown first (.head _)
      rw [if_pos (.inr (List.cons_ne_nil _ _)), KeyedMerge.single_none_eq_ok_iff, List.foldl_cons]
      simp only [create_eq_ok_iff (hfirst ▸ hid : first.id ∉ shippedIds), hfirst, List.head?_cons,
        Option.mem_def, Option.some.injEq, forall_eq']
      constructor
      · rintro ⟨_, ⟨hdefines, rfl⟩, hfound⟩
        exact ⟨fun _ => hdefines, hfound⟩
      · rintro ⟨hdefines, hfound⟩
        exact ⟨_, ⟨hdefines hid, rfl⟩, hfound⟩

/-! ## All rules -/

/-- Every own change names its id. -/
theorem id_of_mem_ownChanges : ∀ c ∈ ownChanges overrides id, c.id = id := fun _ hc =>
  of_decide_eq_true (List.mem_filter.1 hc).2

/-- The first change of an id is the first of its own changes. -/
theorem find?_eq_head?_ownChanges :
    overrides.find? (·.id = id) = (ownChanges overrides id).head? := by
  unfold ownChanges
  rw [List.head?_filter]

/-- The merge over the shipped rules succeeds when every new rule is described. -/
theorem merge_isOk_iff_described :
    (∃ rules, alertMerge.merge shippedRules overrides = .ok rules) ↔ Described overrides := by
  rw [KeyedMerge.merge_isOk_iff]
  refine forall_congr' fun id => ?_
  constructor
  · rintro ⟨found, hfound⟩ hid first hfirst
    rw [find?_eq_head?_ownChanges] at hfirst
    exact ((single_eq_ok_iff id_of_mem_ownChanges).1 hfound).1 hid first hfirst
  · intro h
    refine ⟨_, (single_eq_ok_iff id_of_mem_ownChanges).2 ⟨fun hid first hfirst => ?_, rfl⟩⟩
    refine h hid first ?_
    rw [find?_eq_head?_ownChanges]
    exact hfirst

/-- The entry of every id after the merge. -/
theorem ruleOf_merge (h : alertMerge.merge shippedRules overrides = .ok rules) (id : String) :
    ruleOf rules id =
      if id ∈ ruleIds overrides then some (entryOf id (ownChanges overrides id)) else none := by
  have hsingle := KeyedMerge.merge_lookup (k := id) h
  simp only [mem_ruleIds_iff]
  exact ((single_eq_ok_iff id_of_mem_ownChanges).1 hsingle).2

/-- The ids of the rules that result are different. -/
theorem nodup_ruleIds (overrides : List AlertRuleConfig) : (ruleIds overrides).Nodup := by
  unfold ruleIds
  rw [List.nodup_append]
  refine ⟨by decide, Firsts.nodup_eraseDups _, fun a ha b hb => ?_⟩
  rw [List.mem_eraseDups, List.mem_filter] at hb
  rintro rfl
  exact of_decide_eq_true hb.2 ha

/-- Resolution is the merge over the shipped rules, and the check of what results. -/
theorem resolveAlertRules_eq_ok_iff_merge :
    resolveAlertRules overrides = .ok rules ↔
      alertMerge.merge shippedRules overrides = .ok rules ∧
        ∀ entry ∈ rules, entry.rule.CanFire := by
  have hstep : mergeChange = alertMerge.step := by
    funext resolved change
    exact mergeChange_eq resolved change
  rw [resolveAlertRules_eq_ok_iff, hstep]
  rfl

/-- The rules that result from a merge. -/
theorem mem_merge_iff (h : alertMerge.merge shippedRules overrides = .ok rules) :
    entry ∈ rules ↔
      ∃ id ∈ ruleIds overrides, entry = entryOf id (ownChanges overrides id) := by
  have hids : rules.map (·.rule.id) = ruleIds overrides := KeyedMerge.merge_keys h
  constructor
  · intro hmem
    have hid : entry.rule.id ∈ ruleIds overrides := hids ▸ List.mem_map_of_mem hmem
    have hnodup : (rules.map (·.rule.id)).Nodup := hids ▸ nodup_ruleIds overrides
    have hfound : ruleOf rules entry.rule.id = some entry :=
      KeyedMerge.lookup_of_mem (M := alertMerge) hnodup hmem
    rw [ruleOf_merge h, if_pos hid] at hfound
    exact ⟨_, hid, (Option.some.inj hfound).symm⟩
  · rintro ⟨id, hid, rfl⟩
    have hfound := ruleOf_merge h id
    rw [if_pos hid] at hfound
    exact List.mem_of_find?_eq_some hfound

/-- What the changes of every id come to does not depend on how they are mixed. -/
theorem mem_ruleIds_congr (h : ownChanges other id = ownChanges overrides id) :
    id ∈ ruleIds other ↔ id ∈ ruleIds overrides := by
  rw [mem_ruleIds_iff, mem_ruleIds_iff, h]

/-- Which lists of changes are resolved. -/
theorem resolveAlertRules_isOk_iff :
    (∃ rules, resolveAlertRules overrides = .ok rules) ↔
      Described overrides ∧
        ∀ id ∈ ruleIds overrides, (entryOf id (ownChanges overrides id)).rule.CanFire := by
  simp only [resolveAlertRules_eq_ok_iff_merge, ← merge_isOk_iff_described]
  constructor
  · rintro ⟨rules, hmerge, hfire⟩
    exact ⟨⟨rules, hmerge⟩, fun id hid => hfire _ ((mem_merge_iff hmerge).2 ⟨id, hid, rfl⟩)⟩
  · rintro ⟨⟨rules, hmerge⟩, hfire⟩
    refine ⟨rules, hmerge, fun entry hentry => ?_⟩
    obtain ⟨id, hid, rfl⟩ := (mem_merge_iff hmerge).1 hentry
    exact hfire id hid

/-- Two lists of changes that agree on an id give it one entry. -/
theorem ruleOf_congr (h : resolveAlertRules overrides = .ok rules)
    (h' : resolveAlertRules other = .ok rules')
    (hown : ownChanges other id = ownChanges overrides id) :
    ruleOf rules' id = ruleOf rules id := by
  rw [ruleOf_merge (resolveAlertRules_eq_ok_iff_merge.1 h).1,
    ruleOf_merge (resolveAlertRules_eq_ok_iff_merge.1 h').1, hown]
  simp only [mem_ruleIds_congr hown]

/-- Changes mixed another way are resolved as well. -/
theorem isOk_of_reorder (h : resolveAlertRules overrides = .ok rules)
    (hown : ∀ id, ownChanges other id = ownChanges overrides id) :
    ∃ rules', resolveAlertRules other = .ok rules' := by
  obtain ⟨hdescribed, hfire⟩ := resolveAlertRules_isOk_iff.1 ⟨rules, h⟩
  refine resolveAlertRules_isOk_iff.2 ⟨fun id hid first hfirst => ?_, fun id hid => ?_⟩
  · refine hdescribed id hid first ?_
    rw [find?_eq_head?_ownChanges] at hfirst ⊢
    rw [← hown]
    exact hfirst
  · rw [hown]
    exact hfire id ((mem_ruleIds_congr (hown id)).1 hid)

/-- The changes of an id after those of another one were removed. -/
theorem ownChanges_remove (overrides : List AlertRuleConfig) (id id' : String) :
    ownChanges (overrides.filter (·.id ≠ id)) id' =
      if id' = id then [] else ownChanges overrides id' := by
  unfold ownChanges
  rw [List.filter_filter]
  split
  · next heq =>
    rw [List.filter_eq_nil_iff]
    intro c _
    simp [heq]
  · next hne =>
    refine List.filter_congr fun c _ => ?_
    by_cases hc : c.id = id'
    · simp [hc, hne]
    · simp [hc]

/-- Without the changes of one id, the others are resolved as well. -/
theorem isOk_of_remove (h : resolveAlertRules overrides = .ok rules) (id : String) :
    ∃ rules', resolveAlertRules (overrides.filter (·.id ≠ id)) = .ok rules' := by
  obtain ⟨hdescribed, hfire⟩ := resolveAlertRules_isOk_iff.1 ⟨rules, h⟩
  refine resolveAlertRules_isOk_iff.2 ⟨fun id' hid' first hfirst => ?_, fun id' hid' => ?_⟩
  · rw [find?_eq_head?_ownChanges, ownChanges_remove] at hfirst
    split at hfirst
    · cases hfirst
    · refine hdescribed id' hid' first ?_
      rw [find?_eq_head?_ownChanges]
      exact hfirst
  · rw [mem_ruleIds_iff, ownChanges_remove] at hid'
    rw [ownChanges_remove]
    split
    · next heq =>
      -- only a shipped rule is left without changes
      rw [if_pos heq] at hid'
      have hshipped := hid'.resolve_right (not_not.2 rfl)
      have hfound : shippedRules.find? (·.rule.id = id') = some (entryOf id' []) := by
        rw [shippedRules_find?, if_pos hshipped]
      exact shippedRules_canFire _ (List.mem_of_find?_eq_some hfound)
    · next hne =>
      rw [if_neg hne] at hid'
      exact hfire id' (mem_ruleIds_iff.2 hid')

end

/-- What resolution makes of a list of changes. -/
structure Resolved (overrides : List AlertRuleConfig) (rules : List ResolvedAlertRule) : Prop where
  ids : rules.map (·.rule.id) = ruleIds overrides
  nodup : (rules.map (·.rule.id)).Nodup
  entries : ∀ entry ∈ rules, entry = entryOf entry.rule.id (ownChanges overrides entry.rule.id)
  source : ∀ entry ∈ rules, entry.source = .builtIn ↔
    entry.rule.id ∈ shippedIds ∧
      ∀ change ∈ ownChanges overrides entry.rule.id, changesALevel change = false
  /-- The entry of an id follows from its own changes. -/
  independent : ∀ other rules' id, resolveAlertRules other = .ok rules' →
    ownChanges other id = ownChanges overrides id → ruleOf rules' id = ruleOf rules id
  /-- Changes of different ids may come in any order. -/
  reorder : ∀ other, (∀ id, ownChanges other id = ownChanges overrides id) →
    ∃ rules', resolveAlertRules other = .ok rules' ∧ ∀ id, ruleOf rules' id = ruleOf rules id
  /-- Without its changes, a rule is what Rackio ships, and the others stay as they are. -/
  remove : ∀ id, ∃ rules', resolveAlertRules (overrides.filter (·.id ≠ id)) = .ok rules' ∧
    ruleOf rules' id = ruleOf shippedRules id ∧ ∀ id' ≠ id, ruleOf rules' id' = ruleOf rules id'

/-- For every list of changes: it is resolved exactly when each new rule is described by its first
change and every rule that results can fire, and what it resolves to is decided rule by rule. -/
theorem resolution_by_rule (overrides : List AlertRuleConfig) :
    ((∃ rules, resolveAlertRules overrides = .ok rules) ↔
      Described overrides ∧
        ∀ id ∈ ruleIds overrides, (entryOf id (ownChanges overrides id)).rule.CanFire) ∧
    ∀ rules, resolveAlertRules overrides = .ok rules → Resolved overrides rules := by
  refine ⟨resolveAlertRules_isOk_iff, fun rules h => ?_⟩
  have hmerge := (resolveAlertRules_eq_ok_iff_merge.1 h).1
  have hids : rules.map (·.rule.id) = ruleIds overrides := KeyedMerge.merge_keys hmerge
  have hentries : ∀ entry ∈ rules,
      entry = entryOf entry.rule.id (ownChanges overrides entry.rule.id) := by
    intro entry hmem
    obtain ⟨id, -, rfl⟩ := (mem_merge_iff hmerge).1 hmem
    rfl
  refine ⟨hids, hids ▸ nodup_ruleIds overrides, hentries, fun entry hmem => ?_, ?_, ?_, ?_⟩
  · rw [hentries entry hmem]
    show (if _ then AlertRuleSource.builtIn else .configured) = .builtIn ↔ _
    split
    · next hboth => exact iff_of_true rfl hboth
    · next hnot => exact iff_of_false (fun h => by cases h) hnot
  · intro other rules' id h' hown
    exact ruleOf_congr h h' hown
  · intro other hown
    obtain ⟨rules', h'⟩ := isOk_of_reorder h hown
    exact ⟨rules', h', fun id => ruleOf_congr h h' (hown id)⟩
  · intro id
    obtain ⟨rules', h'⟩ := isOk_of_remove h id
    refine ⟨rules', h', ?_, fun id' hne => ruleOf_congr h h' ?_⟩
    · refine ruleOf_congr resolveAlertRules_nil h' ?_
      rw [ownChanges_remove, if_pos rfl]
      rfl
    · rw [ownChanges_remove, if_neg hne]

/-- A shipped rule that is switched off, and a new one. -/
def sampleOverrides : List AlertRuleConfig :=
  [{ AlertRuleConfig.new "disk-capacity-warning" with enabled := some false },
    ⟨"swap-pressure", some "swap_percent", some .greaterThanOrEqual, some ⟨0x4049000000000000⟩,
      none, some .warning, none⟩]

/-- The rules they resolve to. -/
def sampleRules : List ResolvedAlertRule :=
  shippedRules.modify 0 ({ · with enabled := false }) ++
    [⟨⟨"swap-pressure", "swap_percent", .greaterThanOrEqual, ⟨0x4049000000000000⟩, 1, .warning⟩,
      true, .configured⟩]

/-- Removing the change of a shipped rule restores it. -/
theorem resolution_by_rule_example :
    ∃ rules, resolveAlertRules (sampleOverrides.filter (·.id ≠ "disk-capacity-warning")) =
        .ok rules ∧
      ruleOf rules "disk-capacity-warning" = ruleOf shippedRules "disk-capacity-warning" := by
  have hresolved : resolveAlertRules sampleOverrides = .ok sampleRules := by decide
  obtain ⟨rules, hrules, hrestored, -⟩ :=
    ((resolution_by_rule sampleOverrides).2 sampleRules hresolved).remove "disk-capacity-warning"
  exact ⟨rules, hrules, hrestored⟩

end Rackio
