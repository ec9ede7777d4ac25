import Mathlib.Data.List.DropRight
import Mathlib.Data.Finset.Card

/-!
# The most recent keys

A bounded list of keys that takes in a new key at its end and drops its oldest one when it is full.
A key that is there already changes nothing, so a key may come back only after it was dropped.

`Recent cap keys inserted` says how such a list looks after the keys `inserted` were taken in, one
after the other: it holds the last `cap` of them, and any `cap + 1` that follow each other are
distinct. `Recent.mem_of_card_lt` is what this gives a single key: it is there as long as fewer than
`cap` distinct other keys were taken in after it.
-/

variable {κ : Type}

/-- Take in a key: a full list drops its oldest one. -/
def pushRecent (cap : Nat) (keys : List κ) (k : κ) : List κ :=
  (if keys.length ≥ cap then keys.drop 1 else keys) ++ [k]

/-- A list of at most `cap` keys, after the keys `inserted` were taken in. -/
structure Recent (cap : Nat) (keys inserted : List κ) : Prop where
  suffix : keys <:+ inserted
  length : keys.length = min inserted.length cap
  spaced : ∀ s, s <:+: inserted → s.length ≤ cap + 1 → s.Nodup

namespace Recent

section
variable {cap : Nat} {keys inserted : List κ} {k : κ}

/-- Nothing was taken in yet. -/
theorem nil : Recent cap ([] : List κ) [] where
  suffix := List.suffix_rfl
  length := rfl
  spaced s hs _ := by
    rw [List.infix_nil.1 hs]
    exact List.nodup_nil

/-- The keys are distinct. -/
theorem nodup (h : Recent cap keys inserted) : keys.Nodup := by
  refine h.spaced keys h.suffix.isInfix ?_
  have hlength := h.length
  omega

/-- No more keys than there is room for. -/
theorem length_le (h : Recent cap keys inserted) : keys.length ≤ cap :=
  h.length.le.trans (Nat.min_le_right _ _)

/-- As many of the last keys as there is room for are in the list. -/
theorem suffix_of_length_le (h : Recent cap keys inserted) {s : List κ} (hs : s <:+ inserted)
    (hle : s.length ≤ cap) : s <:+ keys := by
  refine List.suffix_of_suffix_length_le hs h.suffix ?_
  rw [h.length]
  exact le_min hs.length_le hle

/-- A key that is not in the list is taken in. -/
theorem push (h : Recent cap keys inserted) (hcap : 0 < cap) (hk : k ∉ keys) :
    Recent cap (pushRecent cap keys k) (inserted ++ [k]) := by
  have hlength := h.length
  refine ⟨?_, ?_, fun s hs hle => ?_⟩
  · unfold pushRecent
    obtain ⟨front, hfront⟩ := h.suffix
    split
    · refine ⟨front ++ keys.take 1, ?_⟩
      rw [List.append_assoc, ← List.append_assoc (keys.take 1), List.take_append_drop,
        ← List.append_assoc, hfront]
    · exact ⟨front, by rw [← List.append_assoc, hfront]⟩
  · unfold pushRecent
    split
    · simp only [List.length_append, List.length_drop, List.length_singleton]
      omega
    · simp only [List.length_append, List.length_singleton]
      omega
  · rcases List.infix_concat_iff.1 hs with hlast | hold
    · rcases List.suffix_concat_iff.1 hlast with rfl | ⟨t, rfl, ht⟩
      · exact List.nodup_nil
      -- a part that ends with the new key: the rest of it is still in the list
      rw [List.length_append, List.length_singleton] at hle
      have hkeys : t <:+ keys := h.suffix_of_length_le ht (by omega)
      rw [List.nodup_append]
      refine ⟨h.nodup.sublist hkeys.sublist, List.nodup_singleton k, fun a ha b hb => ?_⟩
      rw [List.mem_singleton] at hb
      rintro rfl
      exact hk (hb ▸ hkeys.mem ha)
    · exact h.spaced s hold hle

/-- A key is in the list as long as fewer than `cap` distinct other keys came after it. -/
theorem mem_of_card_lt [DecidableEq κ] {before after : List κ} (h : Recent cap keys inserted)
    (heq : inserted = before ++ k :: after) (hfew : (after.toFinset.erase k).card < cap) :
    k ∈ keys := by
  by_contra hk
  -- the key was dropped, so at least `cap` keys came after it
  have hmany : cap ≤ after.length := by
    by_contra hless
    have hsuffix : k :: after <:+ keys := by
      refine h.suffix_of_length_le ⟨before, heq.symm⟩ ?_
      rw [List.length_cons]
      omega
    exact hk (hsuffix.mem (.head _))
  -- and the first `cap` of them are distinct, and none is the key
  have hspaced : (k :: after.take cap).Nodup := by
    refine h.spaced _ ⟨before, after.drop cap, ?_⟩ ?_
    · rw [heq, List.append_assoc, List.cons_append, List.take_append_drop]
    · rw [List.length_cons, List.length_take]
      omega
  obtain ⟨hnot, hnodup⟩ := List.nodup_cons.1 hspaced
  have hsubset : (after.take cap).toFinset ⊆ after.toFinset.erase k := by
    intro a ha
    rw [List.mem_toFinset] at ha
    refine Finset.mem_erase.2 ⟨?_, List.mem_toFinset.2 (List.mem_of_mem_take ha)⟩
    rintro rfl
    exact hnot ha
  have hcard := Finset.card_le_card hsubset
  rw [List.toFinset_card_of_nodup hnodup, List.length_take] at hcard
  omega

end

/-- The keys after the last time `k` was taken in. -/
def since [DecidableEq κ] (inserted : List κ) (k : κ) : List κ :=
  inserted.rtakeWhile (· ≠ k)

/-- A list that has the key is cut at the last place where it stands. -/
theorem eq_append_since [DecidableEq κ] {inserted : List κ} {k : κ} (h : k ∈ inserted) :
    ∃ before, inserted = before ++ k :: since inserted k := by
  induction inserted using List.reverseRecOn with
  | nil => cases h
  | append_singleton inserted a ih =>
    unfold since
    by_cases ha : a = k
    · subst ha
      rw [List.rtakeWhile_concat_neg _ _ _ (by simp)]
      exact ⟨inserted, rfl⟩
    · rw [List.rtakeWhile_concat_pos _ _ _ (by simpa using ha)]
      have hmem : k ∈ inserted := by
        rcases List.mem_append.1 h with h | h
        · exact h
        · exact absurd (List.mem_singleton.1 h).symm ha
      obtain ⟨before, hbefore⟩ := ih hmem
      refine ⟨before, ?_⟩
      conv_lhs => rw [hbefore]
      rw [List.append_assoc]
      rfl

end Recent
