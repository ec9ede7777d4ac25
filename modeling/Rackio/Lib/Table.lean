import Mathlib

/-!
# Ordered tables

A `Table κ ν` is a finite map kept as a list of rows in strictly ascending key order, the form in
which an ordered map iterates and a keyed relation is scanned. The order is a field of the
structure, so a key has at most one row and scanning needs no sort.

`Table.find` is the lookup; every operation has one lemma that says what it does to `find`
(`find_insert`, `find_erase`, `find_filter`, `find_map`), and `mem_rows_iff` goes between lookups
and rows. `forall_insert` and `forall_erase` carry a property of all rows along.
-/

universe u v w

/-- A finite map as rows in strictly ascending key order. -/
@[ext] structure Table (κ : Type u) [LinearOrder κ] (ν : Type v) where
  rows : List (κ × ν)
  sorted : rows.Pairwise (fun a b => a.1 < b.1)

namespace Table

variable {κ : Type u} [LinearOrder κ] {ν : Type v} {μ : Type w}

instance [DecidableEq ν] : DecidableEq (Table κ ν) := fun t t' =>
  decidable_of_iff (t.rows = t'.rows) Table.ext_iff.symm

/-- The table without rows. -/
def empty : Table κ ν := ⟨[], .nil⟩

instance : Inhabited (Table κ ν) := ⟨empty⟩

/-- The value stored under a key. -/
def findRows (k : κ) : List (κ × ν) → Option ν
  | [] => none
  | (k', v) :: rest => if k = k' then some v else findRows k rest

/-- The value stored under `k`. -/
def find (t : Table κ ν) (k : κ) : Option ν := findRows k t.rows

/-- Whether `k` has a row. -/
def contains (t : Table κ ν) (k : κ) : Bool := (t.find k).isSome

/-- Put `(k, v)` at its place in ascending rows, replacing a row of the same key. -/
def insertRows (k : κ) (v : ν) : List (κ × ν) → List (κ × ν)
  | [] => [(k, v)]
  | (k', v') :: rest =>
    if k < k' then (k, v) :: (k', v') :: rest
    else if k = k' then (k, v) :: rest
    else (k', v') :: insertRows k v rest

/-- A row of the result of an insertion is the new row or an old one of another key. -/
theorem mem_insertRows {k : κ} {v : ν} {p : κ × ν} {l : List (κ × ν)}
    (h : p ∈ insertRows k v l) : p = (k, v) ∨ p ∈ l := by
  induction l with
  | nil => exact .inl (by simpa [insertRows] using h)
  | cons q rest ih =>
    obtain ⟨k', v'⟩ := q
    simp only [insertRows] at h
    split_ifs at h with h1 h2
    · simpa using h
    · rcases List.mem_cons.1 h with h | h
      · exact .inl h
      · exact .inr (.tail _ h)
    · rcases List.mem_cons.1 h with rfl | h
      · exact .inr (.head _)
      · rcases ih h with h | h
        · exact .inl h
        · exact .inr (.tail _ h)

/-- Insertion keeps rows in ascending key order. -/
theorem insertRows_sorted (k : κ) (v : ν) {l : List (κ × ν)}
    (h : l.Pairwise (fun a b => a.1 < b.1)) :
    (insertRows k v l).Pairwise (fun a b => a.1 < b.1) := by
  induction l with
  | nil => simp [insertRows]
  | cons q rest ih =>
    obtain ⟨k', v'⟩ := q
    obtain ⟨hhead, htail⟩ := List.pairwise_cons.1 h
    simp only [insertRows]
    split_ifs with h1 h2
    · refine List.pairwise_cons.2 ⟨fun p hp => ?_, h⟩
      rcases List.mem_cons.1 hp with rfl | hp
      · exact h1
      · exact h1.trans (hhead p hp)
    · subst h2
      exact List.pairwise_cons.2 ⟨hhead, htail⟩
    · refine List.pairwise_cons.2 ⟨fun p hp => ?_, ih htail⟩
      rcases mem_insertRows hp with rfl | hp
      · exact lt_of_le_of_ne (not_lt.1 h1) (Ne.symm h2)
      · exact hhead p hp

/-- Store `v` under `k`, replacing what was there. -/
def insert (t : Table κ ν) (k : κ) (v : ν) : Table κ ν :=
  ⟨insertRows k v t.rows, insertRows_sorted k v t.sorted⟩

/-- The rows that satisfy `p`. -/
def filter (t : Table κ ν) (p : κ × ν → Bool) : Table κ ν :=
  ⟨t.rows.filter p, t.sorted.filter p⟩

/-- Remove the row of `k`. -/
def erase (t : Table κ ν) (k : κ) : Table κ ν := t.filter fun p => p.1 ≠ k

/-- Apply `f` to every value. -/
def map (t : Table κ ν) (f : ν → μ) : Table κ μ :=
  ⟨t.rows.map fun p => (p.1, f p.2), List.pairwise_map.2 t.sorted⟩

/-- The table without its first `n` rows. -/
def drop (t : Table κ ν) (n : Nat) : Table κ ν :=
  ⟨t.rows.drop n, t.sorted.sublist (List.drop_sublist n t.rows)⟩

/-- The keys, in ascending order. -/
def keys (t : Table κ ν) : List κ := t.rows.map (·.1)

/-- The values, in ascending order of their keys. -/
def values (t : Table κ ν) : List ν := t.rows.map (·.2)

/-! ## Rows and lookups -/

/-- A row of an ascending list of rows is what its key finds. -/
theorem mem_rows_iff_findRows {l : List (κ × ν)} (h : l.Pairwise (fun a b => a.1 < b.1))
    {k : κ} {v : ν} : (k, v) ∈ l ↔ findRows k l = some v := by
  induction l with
  | nil => simp [findRows]
  | cons q rest ih =>
    obtain ⟨k', v'⟩ := q
    obtain ⟨hhead, htail⟩ := List.pairwise_cons.1 h
    simp only [findRows, List.mem_cons, Prod.mk.injEq]
    split_ifs with hk
    · subst hk
      have hnot : (k, v) ∉ rest := fun hm => lt_irrefl k (hhead _ hm)
      simp [hnot, eq_comm]
    · simp [hk, ih htail]

/-- The rows of a table are what its keys find. -/
theorem mem_rows_iff {t : Table κ ν} {k : κ} {v : ν} : (k, v) ∈ t.rows ↔ t.find k = some v :=
  mem_rows_iff_findRows t.sorted

/-- The keys of a table are those that find a value. -/
theorem mem_keys_iff {t : Table κ ν} {k : κ} : k ∈ t.keys ↔ (t.find k).isSome := by
  simp only [keys, List.mem_map, Prod.exists, exists_and_right, exists_eq_right, mem_rows_iff,
    Option.isSome_iff_exists]

/-- Keys do not repeat. -/
theorem nodup_keys (t : Table κ ν) : t.keys.Nodup :=
  List.pairwise_map.2 (t.sorted.imp fun h => h.ne)

@[simp] theorem find_empty (k : κ) : (empty : Table κ ν).find k = none := rfl

/-- What an insertion into rows does to every lookup. -/
theorem findRows_insertRows (k k' : κ) (v : ν) (l : List (κ × ν)) :
    findRows k' (insertRows k v l) = if k' = k then some v else findRows k' l := by
  induction l with
  | nil => simp [insertRows, findRows]
  | cons q rest ih =>
    obtain ⟨k₀, v₀⟩ := q
    simp only [insertRows]
    by_cases h1 : k < k₀
    · rw [if_pos h1]; rfl
    rw [if_neg h1]
    by_cases h2 : k = k₀
    · subst h2
      rw [if_pos rfl]
      simp only [findRows]
      split_ifs <;> rfl
    rw [if_neg h2]
    simp only [findRows, ih]
    by_cases h3 : k' = k
    · subst h3
      simp only [if_true, if_neg h2]
    · simp only [if_neg h3]

/-- What an insertion does to every lookup. -/
@[simp] theorem find_insert (t : Table κ ν) (k k' : κ) (v : ν) :
    (t.insert k v).find k' = if k' = k then some v else t.find k' :=
  findRows_insertRows k k' v t.rows

/-- What a filter by key does to every lookup. -/
theorem find_filter (t : Table κ ν) (p : κ → Bool) (k : κ) :
    (t.filter fun r => p r.1).find k = if p k then t.find k else none := by
  apply Option.ext
  intro v
  rw [← mem_rows_iff]
  simp only [filter, List.mem_filter, mem_rows_iff]
  split_ifs with h
  · simp [h]
  · simp [h]

/-- What a removal does to every lookup. -/
@[simp] theorem find_erase (t : Table κ ν) (k k' : κ) :
    (t.erase k).find k' = if k' = k then none else t.find k' := by
  rw [erase, find_filter t (fun x => x ≠ k) k']
  by_cases h : k' = k <;> simp [h]

/-- A table with fewer rows finds less. -/
theorem find_of_subset {t t' : Table κ ν} (h : t'.rows ⊆ t.rows) (k : κ) :
    t'.find k = t.find k ∨ t'.find k = none := by
  cases hk : t'.find k with
  | none => exact .inr rfl
  | some v => exact .inl (mem_rows_iff.1 (h (mem_rows_iff.2 hk))).symm

/-- What a map of the values does to every lookup. -/
@[simp] theorem find_map (t : Table κ ν) (f : ν → μ) (k : κ) :
    (t.map f).find k = (t.find k).map f := by
  obtain ⟨l, hl⟩ := t
  simp only [find, map]
  induction l with
  | nil => rfl
  | cons q rest ih =>
    obtain ⟨k', v'⟩ := q
    simp only [List.map_cons, findRows]
    split_ifs
    · rfl
    · exact ih (List.pairwise_cons.1 hl).2

/-- What holds of every row holds after inserting one it holds of. -/
theorem forall_insert {P : κ → ν → Prop} {t : Table κ ν} (h : ∀ k v, t.find k = some v → P k v)
    {k₀ : κ} {v₀ : ν} (hv : P k₀ v₀) : ∀ k v, (t.insert k₀ v₀).find k = some v → P k v := by
  intro k v hfind
  rw [find_insert] at hfind
  split at hfind
  · next heq =>
    subst heq
    cases hfind
    exact hv
  · exact h k v hfind

/-- What holds of every row holds after erasing one. -/
theorem forall_erase {P : κ → ν → Prop} {t : Table κ ν} (h : ∀ k v, t.find k = some v → P k v)
    (k₀ : κ) : ∀ k v, (t.erase k₀).find k = some v → P k v := by
  intro k v hfind
  rw [find_erase] at hfind
  split at hfind
  · cases hfind
  · exact h k v hfind

/-- Tables with the same lookups are equal. -/
theorem ext_find {t t' : Table κ ν} (h : ∀ k, t.find k = t'.find k) : t = t' := by
  apply Table.ext
  refine List.Perm.eq_of_pairwise (fun a b _ _ (h1 : a.1 < b.1) h2 => ?_) t.sorted t'.sorted ?_
  · exact absurd h2 (lt_asymm h1)
  · refine (List.perm_ext_iff_of_nodup (t.sorted.imp fun h => ?_) (t'.sorted.imp fun h => ?_)).2 ?_
    · rintro rfl; exact lt_irrefl _ h
    · rintro rfl; exact lt_irrefl _ h
    · rintro ⟨k, v⟩
      rw [mem_rows_iff, mem_rows_iff, h k]

/-- Of two insertions under one key the second one counts. -/
theorem insert_insert (t : Table κ ν) (k : κ) (v v' : ν) :
    (t.insert k v).insert k v' = t.insert k v' := by
  refine ext_find fun k' => ?_
  rw [find_insert, find_insert, find_insert]
  split
  · rfl
  · rfl

/-- The rows from a key on are the last rows. -/
theorem filter_le_suffix (t : Table κ ν) (c : κ) :
    (t.filter fun r => c ≤ r.1).rows <:+ t.rows := by
  obtain ⟨l, hl⟩ := t
  simp only [filter]
  induction l with
  | nil => exact List.suffix_rfl
  | cons q rest ih =>
    obtain ⟨hhead, htail⟩ := List.pairwise_cons.1 hl
    by_cases hc : c ≤ q.1
    · have hall : ∀ r ∈ q :: rest, decide (c ≤ r.1) = true := by
        intro r hr
        rcases List.mem_cons.1 hr with rfl | hr
        · exact decide_eq_true hc
        · exact decide_eq_true (hc.trans (hhead r hr).le)
      rw [List.filter_eq_self.2 hall]
    · rw [List.filter_cons_of_neg (by simpa using hc)]
      exact (ih htail).trans (List.suffix_cons q rest)

/-- The rows of a key. -/
theorem filter_key_eq {t : Table κ ν} {k : κ} {v : ν} (h : t.find k = some v) :
    t.rows.filter (fun r => r.1 = k) = [(k, v)] := by
  have hkey : ∀ r ∈ t.rows.filter (fun r => r.1 = k), r = (k, v) := by
    rintro ⟨k', v'⟩ hr
    obtain ⟨hmem, hk⟩ := List.mem_filter.1 hr
    obtain rfl : k' = k := of_decide_eq_true hk
    rw [mem_rows_iff.1 hmem] at h
    rw [Option.some.inj h]
  have hmem : (k, v) ∈ t.rows.filter (fun r => r.1 = k) :=
    List.mem_filter.2 ⟨mem_rows_iff.2 h, decide_eq_true rfl⟩
  have hsorted := t.sorted.filter (fun r => r.1 = k)
  -- Two rows of the key would have ascending keys.
  match hrows : t.rows.filter (fun r => r.1 = k) with
  | [] => rw [hrows] at hmem; cases hmem
  | [r] =>
    rw [hrows] at hkey ⊢
    rw [hkey r (.head _)]
  | r :: r' :: rest =>
    rw [hrows] at hsorted hkey
    have hlt := (List.pairwise_cons.1 hsorted).1 r' (.head _)
    rw [hkey r (.head _), hkey r' (.tail _ (.head _))] at hlt
    exact absurd hlt (lt_irrefl _)

/-- A key above every row is appended. -/
theorem rows_insert_of_lt {t : Table κ ν} {k : κ} (h : ∀ r ∈ t.rows, r.1 < k) (v : ν) :
    (t.insert k v).rows = t.rows ++ [(k, v)] := by
  obtain ⟨l, hl⟩ := t
  simp only [insert] at h ⊢
  induction l with
  | nil => rfl
  | cons q rest ih =>
    obtain ⟨k', v'⟩ := q
    have hk : k' < k := h (k', v') (.head _)
    rw [insertRows, if_neg (not_lt.2 hk.le), if_neg hk.ne', ih (List.pairwise_cons.1 hl).2
      fun r hr => h r (.tail _ hr)]
    rfl

end Table
