import Rackio.Lib.Firsts
import Rackio.Lib.Outcome

/-!
# Merging changes by key

A list of entries with a key each, and changes that name a key. A change updates the first entry of
its key, and a change whose key has no entry creates one at the end, which may fail. `merge` runs a
list of changes over a list of entries.

What becomes of one key is decided by its own changes: `single` runs them over the entry the key
starts with. `merge_lookup` says that this is the entry the key ends with, `merge_isOk_iff` that the
merge succeeds when each key does alone, and `merge_keys` in which order the entries stand.
-/

/-- How a change updates an entry of its key, or creates one. -/
structure KeyedMerge (κ ε γ χ : Type) where
  entryKey : ε → κ
  changeKey : γ → κ
  update : ε → γ → ε
  create : γ → Except χ ε
  key_update : ∀ e c, entryKey (update e c) = entryKey e
  key_create : ∀ c e, create c = .ok e → entryKey e = changeKey c

namespace KeyedMerge

variable {κ ε γ χ : Type} [DecidableEq κ] (M : KeyedMerge κ ε γ χ)

/-- One change: the first entry of its key is updated, or a new one stands at the end. -/
def step (entries : List ε) (c : γ) : Except χ (List ε) :=
  match entries.findIdx? (M.entryKey · = M.changeKey c) with
  | some index => .ok (entries.modify index (M.update · c))
  | none => do return entries ++ [← M.create c]

/-- A list of changes. -/
def merge (entries : List ε) (changes : List γ) : Except χ (List ε) := changes.foldlM M.step entries

/-- The first entry of a key. -/
def lookup (entries : List ε) (k : κ) : Option ε := entries.find? (M.entryKey · = k)

/-- The changes of a key. -/
def own (changes : List γ) (k : κ) : List γ := changes.filter (M.changeKey · = k)

/-- The changes of one key, over the entry it starts with. -/
def single (start : Option ε) : List γ → Except χ (Option ε)
  | [] => .ok start
  | c :: changes =>
    match start with
    | some e => .ok (some ((c :: changes).foldl M.update e))
    | none => do return some (changes.foldl M.update (← M.create c))

/-- The keys that only changes name, in the order in which they first do. -/
def created (entries : List ε) (changes : List γ) : List κ :=
  ((changes.map M.changeKey).filter (· ∉ entries.map M.entryKey)).eraseDups

section
variable {M} {entries next : List ε} {changes : List γ} {c : γ} {e : ε} {k : κ}

/-! ## Lookups -/

theorem lookup_eq_none_iff : M.lookup entries k = none ↔ k ∉ entries.map M.entryKey := by
  unfold lookup
  rw [List.find?_eq_none, List.mem_map]
  constructor
  · rintro h ⟨e, he, hk⟩
    exact h e he (decide_eq_true hk)
  · intro h e he hk
    exact h ⟨e, he, of_decide_eq_true hk⟩

/-- An entry whose keys are all different is the one that its key finds. -/
theorem lookup_of_mem (hnodup : (entries.map M.entryKey).Nodup) (he : e ∈ entries) :
    M.lookup entries (M.entryKey e) = some e := by
  induction entries with
  | nil => cases he
  | cons first entries ih =>
    rw [List.map_cons, List.nodup_cons] at hnodup
    unfold lookup
    rcases List.mem_cons.1 he with rfl | he
    · rw [List.find?_cons_of_pos (by simp)]
    · have hne : M.entryKey first ≠ M.entryKey e := fun h =>
        hnodup.1 (h ▸ List.mem_map_of_mem he)
      rw [List.find?_cons_of_neg (by simpa using hne)]
      exact ih hnodup.2 he

/-- An update of the first entry of a key. -/
theorem lookup_modify {index : Nat}
    (h : entries.findIdx? (M.entryKey · = M.changeKey c) = some index) :
    M.lookup (entries.modify index (M.update · c)) k =
      if k = M.changeKey c then (M.lookup entries k).map (M.update · c)
      else M.lookup entries k := by
  induction entries generalizing index with
  | nil => cases h
  | cons first entries ih =>
    rw [List.findIdx?_cons] at h
    unfold lookup at ih ⊢
    by_cases hfirst : M.entryKey first = M.changeKey c
    · rw [if_pos (decide_eq_true hfirst)] at h
      cases h
      rw [List.modify_zero_cons, List.find?_cons, List.find?_cons, M.key_update]
      by_cases hk : k = M.changeKey c
      · rw [if_pos hk, hfirst, hk, decide_eq_true rfl]
        rfl
      · rw [if_neg hk, hfirst, decide_eq_false (Ne.symm hk)]
    · rw [if_neg (by simpa using hfirst)] at h
      obtain ⟨i, hi, rfl⟩ := Option.map_eq_some_iff.1 h
      rw [List.modify_succ_cons, List.find?_cons, List.find?_cons]
      by_cases hk : M.entryKey first = k
      · have hne : k ≠ M.changeKey c := fun heq => hfirst (hk.trans heq)
        rw [decide_eq_true hk, if_neg hne]
      · rw [decide_eq_false hk]
        exact ih hi

omit [DecidableEq κ] in
/-- An update keeps the keys. -/
theorem keys_modify (index : Nat) :
    (entries.modify index (M.update · c)).map M.entryKey = entries.map M.entryKey := by
  induction entries generalizing index with
  | nil => cases index <;> rfl
  | cons first entries ih =>
    cases index with
    | zero => rw [List.modify_zero_cons, List.map_cons, List.map_cons, M.key_update]
    | succ index => rw [List.modify_succ_cons, List.map_cons, List.map_cons, ih]

/-- A key that finds an entry has a first one. -/
theorem findIdx?_eq_none_iff :
    entries.findIdx? (M.entryKey · = M.changeKey c) = none ↔
      M.lookup entries (M.changeKey c) = none := by
  rw [lookup, List.find?_eq_none, List.findIdx?_eq_none_iff]
  exact forall₂_congr fun _ _ => by simp

/-! ## One change -/

/-- A change whose key has an entry. -/
theorem step_known (h : M.lookup entries (M.changeKey c) ≠ none) :
    ∃ next, M.step entries c = .ok next ∧
      next.map M.entryKey = entries.map M.entryKey ∧
      ∀ k, M.lookup next k =
        if k = M.changeKey c then (M.lookup entries k).map (M.update · c)
        else M.lookup entries k := by
  unfold step
  cases hidx : entries.findIdx? (M.entryKey · = M.changeKey c) with
  | none => exact absurd (findIdx?_eq_none_iff.1 hidx) h
  | some index => exact ⟨_, rfl, keys_modify index, fun _ => lookup_modify hidx⟩

/-- A change whose key has no entry. -/
theorem step_unknown (h : M.lookup entries (M.changeKey c) = none) :
    M.step entries c = (M.create c).map fun e => entries ++ [e] := by
  unfold step
  rw [findIdx?_eq_none_iff.2 h]
  cases M.create c <;> rfl

/-- A change that succeeds updates the entry of its key, or creates one at the end. -/
theorem step_cases (h : M.step entries c = .ok next) :
    (∃ e, M.lookup entries (M.changeKey c) = some e ∧
        next.map M.entryKey = entries.map M.entryKey ∧
        ∀ k, M.lookup next k =
          if k = M.changeKey c then (M.lookup entries k).map (M.update · c)
          else M.lookup entries k) ∨
      ∃ e, M.lookup entries (M.changeKey c) = none ∧ M.create c = .ok e ∧
        next = entries ++ [e] := by
  cases hfound : M.lookup entries (M.changeKey c) with
  | some e =>
    obtain ⟨_, hknown, hrest⟩ := step_known (M := M) (c := c) (hfound ▸ Option.some_ne_none e)
    cases h.symm.trans hknown
    exact .inl ⟨e, rfl, hrest⟩
  | none =>
    rw [step_unknown hfound] at h
    cases hcreate : M.create c with
    | error x =>
      rw [hcreate] at h
      cases h
    | ok e =>
      rw [hcreate] at h
      cases h
      exact .inr ⟨e, rfl, rfl, rfl⟩

/-- A new entry at the end. -/
theorem lookup_snoc (h : M.lookup entries (M.changeKey c) = none) (he : M.create c = .ok e) :
    M.lookup (entries ++ [e]) k =
      if k = M.changeKey c then some e else M.lookup entries k := by
  have hkey := M.key_create c e he
  unfold lookup at *
  rw [List.find?_append]
  by_cases hk : k = M.changeKey c
  · rw [if_pos hk, hk, h, Option.none_or, List.find?_cons, decide_eq_true hkey]
  · rw [if_neg hk, List.find?_cons, hkey, decide_eq_false (Ne.symm hk), List.find?_nil,
      Option.or_none]

/-! ## The changes of one key -/

theorem own_snoc :
    M.own (changes ++ [c]) k = M.own changes k ++ if M.changeKey c = k then [c] else [] := by
  unfold own
  rw [List.filter_append, List.filter_cons, List.filter_nil]
  by_cases h : M.changeKey c = k
  · rw [if_pos h, if_pos (decide_eq_true h)]
  · rw [if_neg h, if_neg (by simpa using h)]

omit [DecidableEq κ] in
/-- The changes of a key that starts with an entry. -/
theorem single_some (e : ε) (changes : List γ) :
    M.single (some e) changes = .ok (some (changes.foldl M.update e)) := by
  cases changes with
  | nil => rfl
  | cons c changes => rfl

omit [DecidableEq κ] in
/-- The changes of a key that starts without one. -/
theorem single_none_eq_ok_iff {found : Option ε} :
    M.single none (c :: changes) = .ok found ↔
      ∃ e, M.create c = .ok e ∧ found = some (changes.foldl M.update e) := by
  refine Outcome.bind_eq_ok_iff.trans (exists_congr fun e => and_congr_right fun _ => ?_)
  exact ⟨fun h => (Except.ok.inj h).symm, fun h => h ▸ rfl⟩

omit [DecidableEq κ] in
/-- One more change of a key that has an entry. -/
theorem single_snoc_some {start : Option ε} (h : M.single start changes = .ok (some e)) :
    M.single start (changes ++ [c]) = .ok (some (M.update e c)) := by
  cases changes with
  | nil =>
    cases h
    rfl
  | cons first changes =>
    rw [List.cons_append]
    cases start with
    | some e₀ =>
      rw [single_some] at h ⊢
      cases h
      rw [← List.cons_append, List.foldl_append]
      rfl
    | none =>
      obtain ⟨e₀, he₀, h⟩ := single_none_eq_ok_iff.1 h
      cases h
      refine single_none_eq_ok_iff.2 ⟨e₀, he₀, ?_⟩
      rw [List.foldl_append]
      rfl

omit [DecidableEq κ] in
/-- The first change of a key that has none. -/
theorem single_snoc_none {start : Option ε} (h : M.single start changes = .ok none) :
    changes = [] ∧ start = none := by
  cases changes with
  | nil =>
    cases h
    exact ⟨rfl, rfl⟩
  | cons first changes =>
    cases start with
    | some e₀ => cases h
    | none =>
      obtain ⟨e₀, -, h⟩ := single_none_eq_ok_iff.1 h
      cases h

omit [DecidableEq κ] in
/-- Changes that succeed have succeeded before the last one. -/
theorem single_of_snoc {start : Option ε} (h : ∃ e, M.single start (changes ++ [c]) = .ok e) :
    ∃ e, M.single start changes = .ok e := by
  obtain ⟨e, he⟩ := h
  cases changes with
  | nil => exact ⟨_, rfl⟩
  | cons first rest =>
    cases start with
    | some e₀ => exact ⟨_, rfl⟩
    | none =>
      obtain ⟨e₀, he₀, -⟩ := single_none_eq_ok_iff.1 he
      exact ⟨_, single_none_eq_ok_iff.2 ⟨e₀, he₀, rfl⟩⟩

/-! ## All changes -/

/-- The last change comes after the others. -/
theorem merge_snoc_eq_ok_iff :
    M.merge entries (changes ++ [c]) = .ok next ↔
      ∃ merged, M.merge entries changes = .ok merged ∧ M.step merged c = .ok next := by
  unfold merge
  rw [List.foldlM_append]
  refine Outcome.bind_eq_ok_iff.trans (exists_congr fun merged => and_congr_right fun _ => ?_)
  rw [List.foldlM_cons]
  refine Outcome.bind_eq_ok_iff.trans ⟨?_, fun h => ⟨next, h, rfl⟩⟩
  rintro ⟨_, h, hnext⟩
  cases hnext
  exact h

/-- A merge that succeeds leaves under every key what its own changes make of it. -/
theorem merge_lookup (h : M.merge entries changes = .ok next) :
    M.single (M.lookup entries k) (M.own changes k) = .ok (M.lookup next k) := by
  induction changes using List.reverseRecOn generalizing next with
  | nil =>
    cases h
    rfl
  | append_singleton changes c ih =>
    obtain ⟨merged, hmerged, hstep⟩ := merge_snoc_eq_ok_iff.1 h
    have ih := ih hmerged
    rw [own_snoc]
    rcases step_cases hstep with ⟨e, hfound, -, hlookup⟩ | ⟨e, hfound, hcreate, rfl⟩
    · rw [hlookup]
      by_cases hk : k = M.changeKey c
      · subst hk
        rw [if_pos rfl, if_pos rfl, hfound]
        rw [hfound] at ih
        exact single_snoc_some ih
      · rw [if_neg hk, if_neg (Ne.symm hk), List.append_nil]
        exact ih
    · rw [lookup_snoc hfound hcreate]
      by_cases hk : k = M.changeKey c
      · subst hk
        rw [hfound] at ih
        obtain ⟨hnil, hnone⟩ := single_snoc_none ih
        rw [if_pos rfl, if_pos rfl, hnil, hnone, List.nil_append]
        exact single_none_eq_ok_iff.2 ⟨e, hcreate, rfl⟩
      · rw [if_neg hk, if_neg (Ne.symm hk), List.append_nil]
        exact ih

/-- The keys of a merge: those of the entries, and then the others in the order of their first
change. -/
theorem merge_keys (h : M.merge entries changes = .ok next) :
    next.map M.entryKey = entries.map M.entryKey ++ M.created entries changes := by
  induction changes using List.reverseRecOn generalizing next with
  | nil =>
    cases h
    exact (List.append_nil _).symm
  | append_singleton changes c ih =>
    obtain ⟨merged, hmerged, hstep⟩ := merge_snoc_eq_ok_iff.1 h
    have ih := ih hmerged
    have hcreated : M.changeKey c ∈ M.created entries changes ↔
        M.changeKey c ∈ (changes.map M.changeKey).filter (· ∉ entries.map M.entryKey) :=
      List.mem_eraseDups
    -- the key is in the merge if it was there or came up before
    have hmem : M.lookup merged (M.changeKey c) ≠ none ↔
        M.changeKey c ∈ entries.map M.entryKey ∨ M.changeKey c ∈ M.created entries changes := by
      rw [Ne, lookup_eq_none_iff, not_not, ih, List.mem_append]
    unfold created at ih hmem hcreated ⊢
    rw [List.map_append, List.filter_append, List.map_singleton]
    rcases step_cases hstep with ⟨e, hfound, hkeys, -⟩ | ⟨e, hfound, hcreate, rfl⟩
    · have hknown := hmem.1 (hfound ▸ Option.some_ne_none e)
      rw [hkeys, ih]
      by_cases hold : M.changeKey c ∈ entries.map M.entryKey
      · rw [List.filter_cons_of_neg (by simpa using hold), List.filter_nil, List.append_nil]
      · rw [List.filter_cons_of_pos (by simpa using hold), List.filter_nil, Firsts.eraseDups_snoc,
          if_pos (hcreated.1 (hknown.resolve_left hold))]
    · obtain ⟨hold, hnew⟩ := not_or.1 (mt hmem.2 (not_not.2 hfound))
      rw [List.filter_cons_of_pos (by simpa using hold), List.filter_nil, Firsts.eraseDups_snoc,
        if_neg (mt hcreated.2 hnew), List.map_append, List.map_singleton,
        M.key_create c e hcreate, ih, List.append_assoc]

/-- A merge succeeds when the changes of every key do, over the entry of that key. -/
theorem merge_isOk_iff :
    (∃ next, M.merge entries changes = .ok next) ↔
      ∀ k, ∃ e, M.single (M.lookup entries k) (M.own changes k) = .ok e := by
  refine ⟨fun ⟨next, h⟩ k => ⟨_, merge_lookup h⟩, fun h => ?_⟩
  induction changes using List.reverseRecOn with
  | nil => exact ⟨entries, rfl⟩
  | append_singleton changes c ih =>
    have hbefore : ∀ k, ∃ e, M.single (M.lookup entries k) (M.own changes k) = .ok e := by
      intro k
      have hk := h k
      rw [own_snoc] at hk
      split at hk
      · exact single_of_snoc hk
      · rwa [List.append_nil] at hk
    obtain ⟨merged, hmerged⟩ := ih hbefore
    have hstep : ∃ next, M.step merged c = .ok next := by
      cases hfound : M.lookup merged (M.changeKey c) with
      | some e =>
        obtain ⟨next, hnext, -⟩ := step_known (M := M) (c := c) (hfound ▸ Option.some_ne_none e)
        exact ⟨next, hnext⟩
      | none =>
        obtain ⟨e, he⟩ := h (M.changeKey c)
        obtain ⟨hnil, hnone⟩ :=
          single_snoc_none (hfound ▸ merge_lookup (k := M.changeKey c) hmerged)
        rw [own_snoc, hnil, hnone, if_pos rfl, List.nil_append] at he
        obtain ⟨e₀, he₀, -⟩ := single_none_eq_ok_iff.1 he
        rw [step_unknown hfound, he₀]
        exact ⟨_, rfl⟩
    obtain ⟨next, hnext⟩ := hstep
    exact ⟨next, merge_snoc_eq_ok_iff.2 ⟨merged, hmerged, hnext⟩⟩

end

end KeyedMerge
