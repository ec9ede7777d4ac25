import Mathlib.Data.List.Induction

/-!
# Readings that are kept for a while

A source that is expensive to read is read again only when the last reading is at least an interval
old; in between the last reading is used. Ages are differences of natural numbers, so a clock that
stands before the last reading makes it no older.

Whatever the clock shows, a reading that is used is younger than the interval (`age_refresh`), is
one that was offered at the time it bears (`after_cases`), and two readings are at least an interval
apart (`pairwise_readTimes`).
-/

namespace Throttle

universe u

variable {α : Type u}

/-- A reading and the time it was taken at. -/
structure Cached (α : Type u) where
  value : α
  readAt : Nat

/-- What the source would read at a time. -/
structure Offer (α : Type u) where
  now : Nat
  fresh : α

/-- The last reading is at least an interval old. -/
def due (readAt interval now : Nat) : Bool := interval ≤ now - readAt

namespace Cached

/-- The reading to be used: the last one, or a new one when that is due. -/
def refresh (interval : Nat) (c : Cached α) (offer : Offer α) : Cached α :=
  if due c.readAt interval offer.now then ⟨offer.fresh, offer.now⟩ else c

/-- The reading in use after a list of offers. -/
def after (interval : Nat) (c : Cached α) (offers : List (Offer α)) : Cached α :=
  offers.foldl (refresh interval) c

/-- The times at which the source is read again. -/
def readTimes (interval : Nat) (c : Cached α) : List (Offer α) → List Nat
  | [] => []
  | offer :: offers =>
    let times := readTimes interval (c.refresh interval offer) offers
    if due c.readAt interval offer.now then offer.now :: times else times

variable {interval : Nat} {c : Cached α} {offer : Offer α} {offers : List (Offer α)}

theorem after_append_singleton :
    c.after interval (offers ++ [offer]) = (c.after interval offers).refresh interval offer := by
  rw [after, after, List.foldl_append]
  rfl

/-- A reading that is due is taken. -/
theorem refresh_of_due (h : due c.readAt interval offer.now = true) :
    c.refresh interval offer = ⟨offer.fresh, offer.now⟩ := if_pos h

/-- A reading that is not due is kept. -/
theorem refresh_of_not_due (h : ¬ due c.readAt interval offer.now = true) :
    c.refresh interval offer = c := if_neg h

/-- A reading that is used is younger than the interval. -/
theorem age_refresh (h : 0 < interval) :
    offer.now - (c.refresh interval offer).readAt < interval := by
  unfold refresh due
  split
  · next hdue =>
    rw [Nat.sub_self]
    exact h
  · next hdue =>
    rw [decide_eq_true_eq] at hdue
    omega

/-- The reading that is used is the first one, or was offered at the time it bears. -/
theorem after_cases (interval : Nat) (c : Cached α) (offers : List (Offer α)) :
    c.after interval offers = c ∨
      ∃ offer ∈ offers, c.after interval offers = ⟨offer.fresh, offer.now⟩ := by
  induction offers using List.reverseRecOn with
  | nil => exact .inl rfl
  | append_singleton offers offer ih =>
    rw [after_append_singleton, refresh]
    split
    · exact .inr ⟨offer, List.mem_append_right _ (.head _), rfl⟩
    · refine ih.imp_right fun ⟨earlier, hmem, heq⟩ => ?_
      exact ⟨earlier, List.mem_append_left _ hmem, heq⟩

/-- The times of the readings are an interval apart, counted from the first one. -/
theorem pairwise_readTimes (h : 0 < interval) (c : Cached α) (offers : List (Offer α)) :
    (∀ t ∈ readTimes interval c offers, c.readAt + interval ≤ t) ∧
      (readTimes interval c offers).Pairwise fun t t' => t + interval ≤ t' := by
  induction offers generalizing c with
  | nil => exact ⟨List.forall_mem_nil _, .nil⟩
  | cons offer offers ih =>
    obtain ⟨hafter, hpairwise⟩ := ih (c.refresh interval offer)
    simp only [readTimes]
    cases hdue : due c.readAt interval offer.now with
    | false =>
      have hkept : c.refresh interval offer = c := refresh_of_not_due (by rw [hdue]; decide)
      rw [hkept] at hafter hpairwise
      rw [hkept]
      exact ⟨hafter, hpairwise⟩
    | true =>
      have hread : (c.refresh interval offer).readAt = offer.now := by
        rw [refresh_of_due hdue]
      have hage : interval ≤ offer.now - c.readAt := of_decide_eq_true hdue
      rw [hread] at hafter
      refine ⟨fun t ht => ?_, List.pairwise_cons.2 ⟨hafter, hpairwise⟩⟩
      rcases List.mem_cons.1 ht with rfl | ht
      · omega
      · have hle := hafter t ht
        omega

end Cached

end Throttle
