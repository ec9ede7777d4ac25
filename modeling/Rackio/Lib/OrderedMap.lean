import Mathlib.Data.List.Induction
import Mathlib.Data.List.Nodup

/-!
# Maps in the order of insertion

The `Map` of a script: its entries stand in the order in which their keys were first set, and a key
that is set again keeps its place. `get_set` says what is found under a key, `get_ofEntries` what a
list of entries puts there, and `filter_filterMap_entries` that what is collected from the entries
is, for one key, what comes of its one entry.
-/

/-- A map whose entries stand in the order of insertion. -/
structure OrderedMap (κ ν : Type) where
  entries : List (κ × ν)
  nodup : (entries.map Prod.fst).Nodup

namespace OrderedMap

variable {κ ν μ β : Type} [DecidableEq κ]

/-- The value under a key of a list of entries. -/
def getEntries (k : κ) : List (κ × ν) → Option ν
  | [] => none
  | e :: l => if e.1 = k then some e.2 else getEntries k l

/-- A list of entries with a value under a key. -/
def setEntries (k : κ) (v : ν) : List (κ × ν) → List (κ × ν)
  | [] => [(k, v)]
  | e :: l => if e.1 = k then (k, v) :: l else e :: setEntries k v l

section
variable {k k' : κ} {v : ν} {l : List (κ × ν)}

theorem mem_keys_setEntries (h : k' ∈ (setEntries k v l).map Prod.fst) :
    k' = k ∨ k' ∈ l.map Prod.fst := by
  induction l with
  | nil => exact .inl (List.mem_singleton.1 h)
  | cons e l ih =>
    unfold setEntries at h
    split at h
    · exact (List.mem_cons.1 h).imp_right (.tail _)
    · rcases List.mem_cons.1 h with heq | h
      · exact .inr (heq ▸ .head _)
      · exact (ih h).imp_right (.tail _)

theorem nodup_setEntries (k : κ) (v : ν) (h : (l.map Prod.fst).Nodup) :
    ((setEntries k v l).map Prod.fst).Nodup := by
  induction l with
  | nil => exact List.nodup_singleton k
  | cons e l ih =>
    obtain ⟨hnot, hrest⟩ := List.nodup_cons.1 h
    unfold setEntries
    split
    · next heq => exact List.nodup_cons.2 ⟨heq ▸ hnot, hrest⟩
    · next hne =>
      refine List.nodup_cons.2 ⟨fun hmem => ?_, ih hrest⟩
      rcases mem_keys_setEntries hmem with heq | hmem
      · exact hne heq
      · exact hnot hmem

theorem getEntries_setEntries :
    getEntries k' (setEntries k v l) = if k' = k then some v else getEntries k' l := by
  induction l with
  | nil =>
    simp only [setEntries, getEntries, eq_comm]
  | cons e l ih =>
    unfold setEntries
    by_cases hk : e.1 = k
    · rw [if_pos hk]
      unfold getEntries
      simp only [hk, eq_comm (a := k')]
      split <;> rfl
    · rw [if_neg hk, getEntries, ih, getEntries]
      split
      · next hk' => rw [if_neg fun heq => hk (hk'.trans heq)]
      · rfl

end

/-- The map without entries. -/
def empty : OrderedMap κ ν := ⟨[], .nil⟩

/-- The script's `Map.prototype.get`. -/
def get (m : OrderedMap κ ν) (k : κ) : Option ν := getEntries k m.entries

/-- The script's `Map.prototype.set`. -/
def set (m : OrderedMap κ ν) (k : κ) (v : ν) : OrderedMap κ ν :=
  ⟨setEntries k v m.entries, nodup_setEntries k v m.nodup⟩

/-- The script's `new Map` of a list of entries. -/
def ofEntries (l : List (κ × ν)) : OrderedMap κ ν := l.foldl (fun m e => m.set e.1 e.2) empty

section
variable {m : OrderedMap κ ν} {k k' : κ} {v : ν} {l : List (κ × ν)}

@[simp] theorem get_empty : (empty : OrderedMap κ ν).get k = none := rfl

/-- The value that was set is found, and other keys find what they did. -/
@[simp] theorem get_set : (m.set k v).get k' = if k' = k then some v else m.get k' :=
  getEntries_setEntries

/-- A key finds the last value that the entries have for it. -/
theorem get_ofEntries (l : List (κ × ν)) (k : κ) :
    (ofEntries l).get k = ((l.filter (·.1 = k)).map Prod.snd).getLast? := by
  induction l using List.reverseRecOn with
  | nil => rfl
  | append_singleton l e ih =>
    rw [List.filter_append, List.map_append]
    unfold ofEntries at ih ⊢
    rw [List.foldl_append, List.foldl_cons, List.foldl_nil, get_set]
    by_cases hk : e.1 = k
    · have hone : [e].filter (·.1 = k) = [e] := by simp [hk]
      rw [if_pos hk.symm, hone, List.map_singleton, List.getLast?_concat]
    · have hnone : [e].filter (·.1 = k) = [] := by simp [hk]
      rw [if_neg (Ne.symm hk), hnone, List.map_nil, List.append_nil, ih]

/-- What the entries of a map give for one key comes of the one entry of the key. -/
theorem filter_filterMap_entries (m : OrderedMap κ ν) {g : κ × ν → Option β} {key : β → κ}
    (hkey : ∀ e b, g e = some b → key b = e.1) (k : κ) :
    (m.entries.filterMap g).filter (key · = k) =
      ((m.get k).bind fun v => g (k, v)).toList := by
  obtain ⟨entries, hnodup⟩ := m
  show (entries.filterMap g).filter _ = ((getEntries k entries).bind _).toList
  have hnone : ∀ l : List (κ × ν), k ∉ l.map Prod.fst →
      (l.filterMap g).filter (key · = k) = [] := by
    intro l hnot
    rw [List.filter_eq_nil_iff]
    intro b hb
    obtain ⟨e, he, hge⟩ := List.mem_filterMap.1 hb
    simp only [decide_eq_true_eq, hkey e b hge]
    exact fun heq => hnot (heq ▸ List.mem_map_of_mem he)
  induction entries with
  | nil => rfl
  | cons e l ih =>
    obtain ⟨hnot, hrest⟩ := List.nodup_cons.1 hnodup
    unfold getEntries
    rw [← List.singleton_append, List.filterMap_append, List.filter_append]
    by_cases hk : e.1 = k
    · rw [if_pos hk, hnone l (hk ▸ hnot), List.append_nil, Option.bind_some]
      have he : e = (k, e.2) := by rw [← hk]
      rw [← he]
      cases hg : g e with
      | none => simp [hg]
      | some b => simp [hg, hkey e b hg, hk]
    · rw [if_neg hk, ih hrest, hnone [e] (by simpa using Ne.symm hk), List.nil_append]

end

end OrderedMap
