import Rackio.Core.Storage

/-!
# The size cap

The loop of `enforce_size_cap_bytes` under any live size that the content of the two tables decides,
whether or not a deletion makes it smaller. The loop asks for the size before each turn, deletes the
oldest thousand raw rows, or the oldest thousand minute rows when no raw row is left, and gives up
when nothing was deleted.

A turn that does not end the loop deletes a row, so the loop ends (`capLoop_terminates`); `Capped`
is what it leaves, and `enforceSizeCapBytes_of_capLoop` says that it is the `enforceSizeCapBytes` of
`prune`, given the sizes the loop reads.
-/

namespace Rackio

/-- The rows of `kept` are the newest ones of `all`. -/
structure Newest {ν : Type} (kept all : Table Int ν) : Prop where
  suffix : kept.rows <:+ all.rows
  older : ∀ r ∈ all.rows, r ∉ kept.rows → ∀ r' ∈ kept.rows, r.1 < r'.1

/-- The last rows of a table are its newest ones, as its rows are in ascending order. -/
theorem Newest.of_suffix {ν : Type} {kept all : Table Int ν} (h : kept.rows <:+ all.rows) :
    Newest kept all := by
  refine ⟨h, fun r hr hdeleted r' hr' => ?_⟩
  obtain ⟨front, hfront⟩ := h
  have hsorted := all.sorted
  rw [← hfront] at hr hsorted
  rcases List.mem_append.1 hr with hr | hr
  · exact (List.pairwise_append.1 hsorted).2.2 r hr r' hr'
  · exact absurd hr hdeleted

namespace MetricStore

/-! ## The loop -/

/-- The loop of the source's `enforce_size_cap_bytes` with a live size that the rows decide; `none`
is a loop that has not ended after `fuel` turns. The compaction that may follow changes no row. -/
def capLoop (cap : Int) (liveSize : MetricStore → Int) : Nat → MetricStore → Option MetricStore
  | 0, _ => none
  | fuel + 1, store =>
    if liveSize store > cap then
      match store.deleteOldest with
      | none => some store
      | some store => capLoop cap liveSize fuel store
    else some store

/-- The store after a number of turns that no size ends. -/
def afterTurns (store : MetricStore) : Nat → MetricStore
  | 0 => store
  | n + 1 =>
    match store.deleteOldest with
    | none => store
    | some store => store.afterTurns n

section
variable {cap : Int} {liveSize : MetricStore → Int} {store after : MetricStore} {fuel : Nat}

/-- A turn that deletes nothing leaves both tables empty. -/
theorem deleteOldest_eq_none (h : store.deleteOldest = none) :
    store.samples.rows = [] ∧ store.minutes.rows = [] := by
  unfold deleteOldest at h
  split at h
  · cases h
  · next hsamples =>
    split at h
    · cases h
    · next hminutes => exact ⟨not_not.1 hsamples, not_not.1 hminutes⟩

/-- A loop that ends has a turn above the cap and goes on, or leaves the store as it is: at the cap
or with nothing to delete. -/
theorem capLoop_succ_eq_some_iff :
    capLoop cap liveSize (fuel + 1) store = some after ↔
      (∃ store', liveSize store > cap ∧ store.deleteOldest = some store' ∧
          capLoop cap liveSize fuel store' = some after) ∨
        (liveSize store ≤ cap ∨ store.deleteOldest = none) ∧ after = store := by
  conv_lhs => rw [capLoop]
  split
  · next hover =>
    cases hdel : store.deleteOldest with
    | none => simp [eq_comm]
    | some store' => simp [hover]
  · next hunder => simp [not_lt.1 hunder, eq_comm]

/-- More turns than rows end the loop: every turn but the last deletes one. -/
theorem capLoop_terminates (h : store.rowCount < fuel) :
    ∃ after, capLoop cap liveSize fuel store = some after := by
  induction fuel generalizing store with
  | zero => exact absurd h (Nat.not_lt_zero _)
  | succ fuel ih =>
    unfold capLoop
    split
    · cases hdel : store.deleteOldest with
      | none => exact ⟨store, rfl⟩
      | some store' =>
        have hless := rowCount_deleteOldest hdel
        exact ih (by omega)
    · exact ⟨store, rfl⟩

/-- A loop that has ended stays ended. -/
theorem capLoop_mono {fuel' : Nat} (h : capLoop cap liveSize fuel store = some after)
    (hle : fuel ≤ fuel') : capLoop cap liveSize fuel' store = some after := by
  induction fuel generalizing fuel' store with
  | zero => cases h
  | succ fuel ih =>
    obtain ⟨fuel', rfl⟩ := Nat.exists_eq_add_of_le' (Nat.le_of_add_left_le hle)
    rcases capLoop_succ_eq_some_iff.1 h with ⟨store', hover, hdel, h⟩ | hend
    · have hrest := ih h (Nat.le_of_succ_le_succ hle)
      exact capLoop_succ_eq_some_iff.2 (.inl ⟨store', hover, hdel, hrest⟩)
    · exact capLoop_succ_eq_some_iff.2 (.inr hend)

/-- The loop is the one `prune` runs, with the sizes it reads one after the other. -/
theorem enforceSizeCapBytes_of_capLoop (h : capLoop cap liveSize fuel store = some after) :
    store.enforceSizeCapBytes cap (fun n => liveSize (store.afterTurns n)) = after := by
  induction fuel generalizing store with
  | zero => cases h
  | succ fuel ih =>
    rw [enforceSizeCapBytes_eq]
    show (if liveSize store > cap then _ else _) = after
    rcases capLoop_succ_eq_some_iff.1 h with ⟨store', hover, hdel, h⟩ | ⟨hunder | hnone, rfl⟩
    · rw [if_pos hover]
      simp only [afterTurns, hdel]
      exact ih h
    · rw [if_neg (not_lt.2 hunder)]
    · simp only [hnone, ite_self]

end

/-! ## What it leaves -/

/-- What the size cap makes of a store. -/
structure Capped (cap : Int) (liveSize : MetricStore → Int) (before after : MetricStore) :
    Prop where
  reached : liveSize after ≤ cap ∨ after.samples.rows = [] ∧ after.minutes.rows = []
  samples : Newest after.samples before.samples
  minutes : Newest after.minutes before.minutes
  rawFirst : ∀ row ∈ before.minutes.rows, row ∉ after.minutes.rows → after.samples.rows = []
  within : liveSize before ≤ cap → after = before

/-- A store that meets its cap, or has no row, is left as it is. -/
theorem Capped.self {cap : Int} {liveSize : MetricStore → Int} {store : MetricStore}
    (h : liveSize store ≤ cap ∨ store.samples.rows = [] ∧ store.minutes.rows = []) :
    Capped cap liveSize store store where
  reached := h
  samples := .of_suffix List.suffix_rfl
  minutes := .of_suffix List.suffix_rfl
  rawFirst _ hrow hdeleted := absurd hrow hdeleted
  within _ := rfl

/-- A turn above the cap comes before the rest of the loop. -/
theorem Capped.of_turn {cap : Int} {liveSize : MetricStore → Int}
    {store store' after : MetricStore} (hover : liveSize store > cap)
    (hdel : store.deleteOldest = some store') (h : Capped cap liveSize store' after) :
    Capped cap liveSize store after := by
  have hwithin : liveSize store ≤ cap → after = store := fun hle => absurd hle (not_le.2 hover)
  rcases deleteOldest_some hdel with ⟨-, rfl⟩ | ⟨hnone, -, rfl⟩
  · -- the turn took raw rows
    refine ⟨h.reached, .of_suffix ?_, h.minutes, h.rawFirst, hwithin⟩
    exact h.samples.suffix.trans (List.drop_suffix 1000 store.samples.rows)
  · -- the turn took minute rows, and no raw row was left before it
    refine ⟨h.reached, h.samples, .of_suffix ?_, fun _ _ _ => ?_, hwithin⟩
    · exact h.minutes.suffix.trans (List.drop_suffix 1000 store.minutes.rows)
    · have hsuffix : after.samples.rows <:+ [] := hnone ▸ h.samples.suffix
      exact List.suffix_nil.1 hsuffix

/-- What the loop leaves when it ends. -/
theorem capped_of_capLoop {cap : Int} {liveSize : MetricStore → Int} {fuel : Nat}
    {store after : MetricStore} (h : capLoop cap liveSize fuel store = some after) :
    Capped cap liveSize store after := by
  induction fuel generalizing store with
  | zero => cases h
  | succ fuel ih =>
    rcases capLoop_succ_eq_some_iff.1 h with ⟨store', hover, hdel, h⟩ | ⟨hend, rfl⟩
    · exact .of_turn hover hdel (ih h)
    · exact .self (hend.imp_right deleteOldest_eq_none)

/-- For every content of the two tables, every cap and every live size: the loop ends after at most
as many turns as there are rows, and one more. It leaves a store that meets the cap or has no row,
the newest rows of both tables, every minute row as long as a raw row is left, and every row when
the cap was met from the start. -/
theorem size_cap_enforced (store : MetricStore) (cap : Int) (liveSize : MetricStore → Int) :
    ∃ after, (∀ fuel, store.rowCount < fuel → capLoop cap liveSize fuel store = some after) ∧
      Capped cap liveSize store after := by
  obtain ⟨after, hafter⟩ : ∃ after, capLoop cap liveSize (store.rowCount + 1) store = some after :=
    capLoop_terminates (Nat.lt_succ_self store.rowCount)
  exact ⟨after, fun _ hfuel => capLoop_mono hafter hfuel, capped_of_capLoop hafter⟩

end MetricStore

end Rackio
