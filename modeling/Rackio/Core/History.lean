import Rackio.Lib.Run
import Rackio.Core.Bucket

/-!
# Runs of the metric store

A run is any sequence of `insert_batch` and `prune` calls, the sizes read by the size cap included.
`Recorded` keeps, next to the store, what a minute row no longer shows: the samples accepted into it
since it was created (`accepted`), and the timestamps whose raw row was deleted (`deleted`). Neither
is read by the store.

The store is the image of the record: in every run each minute row is the row of its bucket
(`Inv.rows`). A timestamp is counted at most once in the life of its row as long as it is not
inserted between the deletion of its raw row and that of its minute row (`counted_once`); the
retention of raw rows is the shorter one, so a store that keeps running has such timestamps
(`counted_twice`).
-/

namespace Rackio

open Lts

namespace MetricStore

/-- The calls that change a store. -/
inductive Event
  | insertBatch (samples : List MetricSample)
  | prune (nowMs : Int) (liveSize : Nat → Int)

/-- The store after a call. -/
def step (store : MetricStore) : Event → MetricStore
  | .insertBatch samples => store.insertBatch samples
  | .prune nowMs liveSize => store.prune nowMs liveSize

/-- The timestamps passed to `insert_batch` by a call. -/
def Event.timestamps : Event → List Int
  | .insertBatch samples => samples.map (·.timestampMs)
  | .prune _ _ => []

end MetricStore

open MetricStore (Event)

/-- A store with the record of how its rows came about. -/
structure Recorded where
  store : MetricStore
  accepted : Table Int Bucket
  deleted : List Int

namespace Recorded

/-- A new store. -/
def new : Recorded := ⟨.new, .empty, []⟩

/-- The bucket of a minute after one more sample; the first sample opens it, with the row. -/
def extend (sample : MetricSample) : Option Bucket → Bucket
  | none => ⟨sample, []⟩
  | some b => b.push sample

/-- One sample of a batch. -/
def insertSample (h : Recorded) (sample : MetricSample) : Recorded :=
  if h.store.samples.contains sample.timestampMs then h
  else
    let minute := minuteKey sample.timestampMs
    { h with
      store := h.store.insertSample sample
      accepted := h.accepted.insert minute (extend sample (h.accepted.find minute)) }

/-- The record of a `prune`: a bucket goes with its row. -/
def prune (h : Recorded) (nowMs : Int) (liveSize : Nat → Int) : Recorded :=
  let store := h.store.prune nowMs liveSize
  { store
    accepted := h.accepted.filter fun r => store.minutes.contains r.1
    deleted := h.deleted ++ h.store.samples.keys.filter fun t => !store.samples.contains t }

/-- The record after a call. -/
def step (h : Recorded) : Event → Recorded
  | .insertBatch samples => samples.foldl insertSample h
  | .prune nowMs liveSize => h.prune nowMs liveSize

/-- The step relation. -/
def Step (h : Recorded) (e : Event) (h' : Recorded) : Prop := h.step e = h'

/-! ## One sample -/

/-- A sample whose timestamp has a raw row changes nothing. -/
theorem insertSample_of_contains {h : Recorded} {x : MetricSample}
    (hx : h.store.samples.contains x.timestampMs = true) : h.insertSample x = h := if_pos hx

/-- A sample whose timestamp has no raw row is accepted. -/
theorem insertSample_of_not_contains {h : Recorded} {x : MetricSample}
    (hx : h.store.samples.contains x.timestampMs = false) :
    h.insertSample x =
      { h with
        store := h.store.insertSample x
        accepted := h.accepted.insert (minuteKey x.timestampMs)
          (extend x (h.accepted.find (minuteKey x.timestampMs))) } := by
  unfold insertSample
  rw [hx]
  rfl

/-- The record follows the store. -/
theorem store_insertSample (h : Recorded) (x : MetricSample) :
    (h.insertSample x).store = h.store.insertSample x := by
  unfold insertSample
  split
  · next hx => rw [MetricStore.insertSample, if_pos hx]
  · rfl

/-- After a sample its timestamp has a raw row, and no other raw row has changed. -/
theorem contains_insertSample (h : Recorded) (x : MetricSample) (t : Int) :
    (h.insertSample x).store.samples.contains t = true ↔
      h.store.samples.contains t = true ∨ t = x.timestampMs := by
  rw [store_insertSample, MetricStore.insertSample]
  split
  · next hx =>
    refine ⟨.inl, ?_⟩
    rintro (ht | rfl)
    · exact ht
    · exact hx
  · simp only [Table.contains, Table.find_insert]
    split
    · next ht => simp [ht]
    · next ht => simp [ht]

/-- The row of a bucket after one more sample is the row after one more upsert. -/
theorem row_extend (x : MetricSample) (o : Option Bucket) :
    (extend x o).row =
      match o.map Bucket.row with
      | none => .values x
      | some row => row.update (.values x) := by
  cases o with
  | none => rfl
  | some b => exact b.row_push x

/-- The timestamps of a bucket after one more sample. -/
theorem timestamps_extend (x : MetricSample) (o : Option Bucket) :
    (extend x o).timestamps = (o.elim [] Bucket.timestamps) ++ [x.timestampMs] := by
  cases o with
  | none => rfl
  | some b => exact b.timestamps_push x

/-- The bucket of a minute after an accepted sample is an old one of another minute, or the old one
of that minute extended. -/
theorem find_accepted {h : Recorded} {x : MetricSample} {m : Int} {b : Bucket}
    (hx : h.store.samples.contains x.timestampMs = false)
    (hb : (h.insertSample x).accepted.find m = some b) :
    (m ≠ minuteKey x.timestampMs ∧ h.accepted.find m = some b) ∨
      (m = minuteKey x.timestampMs ∧ b = extend x (h.accepted.find m)) := by
  rw [insertSample_of_not_contains hx] at hb
  simp only [Table.find_insert] at hb
  split at hb
  · next hm =>
    cases hb
    exact .inr ⟨hm, by rw [hm]⟩
  · next hm => exact .inl ⟨hm, hb⟩

/-- A timestamp of a bucket after an accepted sample is that of the sample, or was there before. -/
theorem mem_accepted {h : Recorded} {x : MetricSample} {m t : Int} {b : Bucket}
    (hx : h.store.samples.contains x.timestampMs = false)
    (hb : (h.insertSample x).accepted.find m = some b) (ht : t ∈ b.timestamps) :
    (m = minuteKey x.timestampMs ∧ t = x.timestampMs) ∨
      ∃ b', h.accepted.find m = some b' ∧ t ∈ b'.timestamps := by
  rcases find_accepted hx hb with ⟨-, hold⟩ | ⟨rfl, rfl⟩
  · exact .inr ⟨b, hold, ht⟩
  · rw [timestamps_extend, List.mem_append, List.mem_singleton] at ht
    rcases ht with ht | rfl
    · cases hold : h.accepted.find (minuteKey x.timestampMs) with
      | none => rw [hold] at ht; cases ht
      | some b' => rw [hold] at ht; exact .inr ⟨b', rfl, ht⟩
    · exact .inl ⟨rfl, rfl⟩

/-! ## Every row is the row of its bucket -/

/-- What the record says about the store, in every run. -/
structure Inv (h : Recorded) : Prop where
  /-- A minute row is the row of the samples accepted since it was created. -/
  rows : ∀ m, h.store.minutes.find m = (h.accepted.find m).map Bucket.row
  /-- Those samples are of its minute. -/
  minute : ∀ m b, h.accepted.find m = some b → ∀ t ∈ b.timestamps, minuteKey t = m
  /-- An accepted timestamp has its raw row or has lost it. -/
  kept : ∀ m b, h.accepted.find m = some b → ∀ t ∈ b.timestamps,
    h.store.samples.contains t = true ∨ t ∈ h.deleted

theorem Inv.new : Inv new where
  rows _ := rfl
  minute _ _ hb := by cases hb
  kept _ _ hb := by cases hb

theorem Inv.insertSample {h : Recorded} (hi : Inv h) (x : MetricSample) :
    Inv (h.insertSample x) := by
  cases hx : h.store.samples.contains x.timestampMs with
  | true =>
    rw [insertSample_of_contains hx]
    exact hi
  | false =>
    refine ⟨?_, ?_, ?_⟩
    · intro m
      have hstore : (h.insertSample x).store.minutes =
          h.store.minutes.insert (minuteKey x.timestampMs)
            (extend x (h.accepted.find (minuteKey x.timestampMs))).row := by
        rw [store_insertSample, MetricStore.insertSample, hx, row_extend, ← hi.rows]
        rfl
      rw [hstore, insertSample_of_not_contains hx, Table.find_insert, Table.find_insert]
      split
      · rfl
      · exact hi.rows m
    · intro m b hb t ht
      rcases mem_accepted hx hb ht with ⟨rfl, rfl⟩ | ⟨b', hold, ht'⟩
      · rfl
      · exact hi.minute m b' hold t ht'
    · intro m b hb t ht
      rcases mem_accepted hx hb ht with ⟨rfl, rfl⟩ | ⟨b', hold, ht'⟩
      · exact .inl ((contains_insertSample h x _).2 (.inr rfl))
      · rcases hi.kept m b' hold t ht' with hraw | hdel
        · exact .inl ((contains_insertSample h x t).2 (.inl hraw))
        · rw [insertSample_of_not_contains hx]
          exact .inr hdel

/-- A bucket that outlives a `prune` has kept its row. -/
theorem find_prune {h : Recorded} {nowMs : Int} {liveSize : Nat → Int} (m : Int) :
    (h.prune nowMs liveSize).accepted.find m =
      if (h.store.prune nowMs liveSize).minutes.contains m then h.accepted.find m else none :=
  Table.find_filter h.accepted _ m

theorem Inv.prune {h : Recorded} (hi : Inv h) (nowMs : Int) (liveSize : Nat → Int) :
    Inv (h.prune nowMs liveSize) := by
  have hpruned := MetricStore.prune_pruned h.store nowMs liveSize
  have hold : ∀ {m b}, (h.prune nowMs liveSize).accepted.find m = some b →
      h.accepted.find m = some b := by
    intro m b hb
    rw [find_prune] at hb
    split at hb
    · exact hb
    · cases hb
  refine ⟨?_, fun m b hb => hi.minute m b (hold hb), ?_⟩
  · intro m
    rw [find_prune]
    show (h.store.prune nowMs liveSize).minutes.find m = _
    rcases Table.find_of_subset hpruned.minutes m with hfind | hfind
    · rw [Table.contains, hfind, hi.rows]
      cases h.accepted.find m with
      | none => rfl
      | some b => rfl
    · rw [Table.contains, hfind]
      rfl
  · intro m b hb t ht
    rcases hi.kept m b (hold hb) t ht with hraw | hdel
    · cases hnow : (h.store.prune nowMs liveSize).samples.contains t with
      | true => exact .inl hnow
      | false =>
        refine .inr (List.mem_append_right _ (List.mem_filter.2 ⟨?_, ?_⟩))
        · exact Table.mem_keys_iff.2 hraw
        · rw [hnow]
          rfl
    · exact .inr (List.mem_append_left _ hdel)

theorem Inv.step {h : Recorded} (hi : Inv h) (e : Event) : Inv (h.step e) := by
  cases e with
  | prune nowMs liveSize => exact hi.prune nowMs liveSize
  | insertBatch samples =>
    exact List.foldlRecOn samples Recorded.insertSample hi fun h hi x _ => hi.insertSample x

/-! ## A timestamp counts once -/

/-- The timestamp of the sample is not one that counts in its minute row and has lost its raw
row. -/
def UncountedSample (h : Recorded) (x : MetricSample) : Prop :=
  ∀ b, h.accepted.find (minuteKey x.timestampMs) = some b → x.timestampMs ∈ b.timestamps →
    h.store.samples.contains x.timestampMs = true

/-- No batch brings back a timestamp whose raw row was deleted while the minute row it counts in
lives on. -/
def Uncounted (h : Recorded) : Event → Prop
  | .insertBatch samples => ∀ x ∈ samples, h.UncountedSample x
  | .prune _ _ => True

/-- The minutes of the inserted timestamps are `i64`s. -/
def InRange : Event → Prop
  | .insertBatch samples => ∀ x ∈ samples, FitsI64 (x.timestampMs / minuteMs * minuteMs)
  | .prune _ _ => True

/-- No bucket holds a timestamp twice. -/
def Distinct (h : Recorded) : Prop := ∀ m b, h.accepted.find m = some b → b.timestamps.Nodup

/-- A sample of the batch leaves the others uncounted: what it counts has its raw row. -/
theorem UncountedSample.insertSample {h : Recorded} {x y : MetricSample}
    (hy : h.UncountedSample y) : (h.insertSample x).UncountedSample y := by
  cases hx : h.store.samples.contains x.timestampMs with
  | true => rwa [insertSample_of_contains hx]
  | false =>
    intro b hb ht
    rw [contains_insertSample]
    rcases mem_accepted hx hb ht with ⟨-, heq⟩ | ⟨b', hold, ht'⟩
    · exact .inr heq
    · exact .inl (hy b' hold ht')

theorem Distinct.insertSample {h : Recorded} (hd : Distinct h) {x : MetricSample}
    (hu : h.UncountedSample x) : Distinct (h.insertSample x) := by
  cases hx : h.store.samples.contains x.timestampMs with
  | true => rwa [insertSample_of_contains hx]
  | false =>
    intro m b hb
    rcases find_accepted hx hb with ⟨-, hold⟩ | ⟨rfl, rfl⟩
    · exact hd m b hold
    rw [timestamps_extend]
    cases hold : h.accepted.find (minuteKey x.timestampMs) with
    | none => exact List.nodup_singleton _
    | some b =>
      refine List.nodup_append.2 ⟨hd _ b hold, List.nodup_singleton _, ?_⟩
      intro t ht t' ht' heq
      rw [List.mem_singleton] at ht'
      have hcontains := hu b hold (ht' ▸ heq ▸ ht)
      rw [hx] at hcontains
      cases hcontains

theorem Distinct.step {h : Recorded} (hd : Distinct h) {e : Event} (hu : h.Uncounted e) :
    Distinct (h.step e) := by
  cases e with
  | prune nowMs liveSize =>
    intro m b hb
    have hb' : (h.prune nowMs liveSize).accepted.find m = some b := hb
    rw [find_prune] at hb'
    split at hb'
    · exact hd m b hb'
    · cases hb'
  | insertBatch samples =>
    show Distinct (samples.foldl Recorded.insertSample h)
    have hu' : ∀ x ∈ samples, h.UncountedSample x := hu
    clear hu
    induction samples generalizing h with
    | nil => exact hd
    | cons x samples ih =>
      refine ih (hd.insertSample (hu' x (.head _))) ?_
      intro y hy
      exact (hu' y (.tail _ hy)).insertSample

/-- Every counted timestamp was passed to `insert_batch`. -/
theorem passed_of_run {es : List Event} {h : Recorded} (hrun : Run Step new es h) :
    ∀ m b, h.accepted.find m = some b → ∀ t ∈ b.timestamps, t ∈ es.flatMap Event.timestamps := by
  refine hrun.history (I := fun es h => ∀ m b, h.accepted.find m = some b →
    ∀ t ∈ b.timestamps, t ∈ es.flatMap Event.timestamps) ?_ ?_
  · intro m b hb
    cases hb
  · rintro es h e h' - hpassed rfl
    rw [List.flatMap_append, List.flatMap_singleton]
    cases e with
    | prune nowMs liveSize =>
      intro m b hb t ht
      rw [step, find_prune] at hb
      split at hb
      · exact List.mem_append_left _ (hpassed m b hb t ht)
      · cases hb
    | insertBatch samples =>
      refine List.foldlRecOn (motive := fun h : Recorded => ∀ m b, h.accepted.find m = some b →
        ∀ t ∈ b.timestamps, t ∈ es.flatMap Event.timestamps ++ samples.map (·.timestampMs))
        samples Recorded.insertSample ?_ ?_
      · intro m b hb t ht
        exact List.mem_append_left _ (hpassed m b hb t ht)
      · intro h ih x hmem m b hb t ht
        cases hx : h.store.samples.contains x.timestampMs with
        | true =>
          rw [insertSample_of_contains hx] at hb
          exact ih m b hb t ht
        | false =>
          rcases mem_accepted hx hb ht with ⟨-, rfl⟩ | ⟨b', hold, ht'⟩
          · exact List.mem_append_right _ (List.mem_map_of_mem hmem)
          · exact ih m b' hold t ht'

/-- The invariant holds in every run. -/
theorem inv_of_run {es : List Event} {h : Recorded} (hrun : Run Step new es h) : Inv h :=
  hrun.invariant .new fun _ e _ hi hstep => hstep ▸ hi.step e

/-- The timestamps passed to `insert_batch` in a run that fall in the minute `m`. -/
def passedIn (es : List Event) (m : Int) : List Int :=
  (es.flatMap Event.timestamps).filter fun t => t / minuteMs * minuteMs = m

/-- In a run of timestamps in range, the samples of a bucket are those of the minute of its key. -/
theorem minute_of_run {es : List Event} {h : Recorded} (hrun : Run Step new es h)
    (hrange : ∀ e ∈ es, InRange e) {m t : Int} {b : Bucket} (hb : h.accepted.find m = some b)
    (ht : t ∈ b.timestamps) : t / minuteMs * minuteMs = m := by
  have hkey := (inv_of_run hrun).minute m b hb t ht
  obtain ⟨e, he, hte⟩ := List.mem_flatMap.1 (passed_of_run hrun m b hb t ht)
  have hfits : FitsI64 (t / minuteMs * minuteMs) := by
    cases e with
    | prune nowMs liveSize => cases hte
    | insertBatch samples =>
      obtain ⟨x, hx, rfl⟩ := List.mem_map.1 hte
      exact hrange _ he x hx
  rw [← hkey, minuteKey, wrapI64_of_fits hfits]

/-- In every run whose batches bring back no timestamp that still counts in its minute row after its
raw row was deleted, a minute row counts at most the distinct timestamps of its minute ever passed
to `insert_batch`, and none of them twice. -/
theorem counted_once (es : List Event) (h : Recorded)
    (hrun : Run (Guarded (fun h e => InRange e ∧ h.Uncounted e) Step) new es h) (m : Int)
    (row : MinuteRow) (hrow : h.store.minutes.find m = some row) :
    row.sampleCount ≤ (passedIn es m).dedup.length ∧
      ∃ b, h.accepted.find m = some b ∧ row.sampleCount = b.timestamps.length ∧
        b.timestamps.Nodup ∧ ∀ t ∈ b.timestamps, t / minuteMs * minuteMs = m := by
  have hrange : ∀ e ∈ es, InRange e := hrun.labels fun _ _ _ hstep => hstep.1.1
  have hdistinct : Distinct h := by
    refine hrun.invariant (I := Distinct) ?_ ?_
    · intro m b hb
      cases hb
    · rintro h e h' hd ⟨⟨-, hu⟩, rfl⟩
      exact hd.step hu
  obtain ⟨b, hb, rfl⟩ : ∃ b, h.accepted.find m = some b ∧ b.row = row := by
    rw [(inv_of_run hrun.unguard).rows m] at hrow
    exact Option.map_eq_some_iff.1 hrow
  have hminute : ∀ t ∈ b.timestamps, t / minuteMs * minuteMs = m := fun t ht =>
    minute_of_run hrun.unguard hrange hb ht
  have hcount : b.row.sampleCount = b.timestamps.length := by
    rw [b.row_sampleCount, Bucket.timestamps, List.length_map]
  refine ⟨?_, b, hb, hcount, hdistinct m b hb, hminute⟩
  rw [hcount]
  refine ((hdistinct m b hb).subperm fun t ht => ?_).length_le
  rw [List.mem_dedup, passedIn, List.mem_filter]
  exact ⟨passed_of_run hrun.unguard m b hb t ht, decide_eq_true (hminute t ht)⟩

/-! ### One timestamp -/

/-- A sample without readings. -/
def bareSample (timestampMs : Int) : MetricSample :=
  { timestampMs, sequence := 0, cpuPercent := none, memoryUsedBytes := none,
    memoryTotalBytes := none, swapUsedBytes := none, swapTotalBytes := none, disks := [],
    network := none, temperature := none, uptimeSeconds := 0, errors := [] }

/-- A timestamp inserted twice in one batch, a `prune` a day and a millisecond later that deletes
its raw row and keeps its minute row, and another timestamp of the same minute. -/
def resumeEvents : List Event :=
  [.insertBatch [bareSample 0, bareSample 0], .prune 86400001 (fun _ => 0),
    .insertBatch [bareSample 1000]]

/-- The row of `resumeEvents` counts its two timestamps once each. -/
theorem counted_once_resume :
    Run (Guarded (fun h e => InRange e ∧ h.Uncounted e) Step) new resumeEvents
        (resumeEvents.foldl step new) ∧
      ∃ row, (resumeEvents.foldl step new).store.minutes.find 0 = some row ∧
        row.sampleCount ≤ (passedIn resumeEvents 0).dedup.length := by
  have hrun : Run (Guarded (fun h e => InRange e ∧ h.Uncounted e) Step) new resumeEvents
      (resumeEvents.foldl step new) := by
    refine run_cons_iff.2 ⟨_, ⟨⟨by unfold InRange; decide, ?_⟩, rfl⟩, ?_⟩
    · intro x hx b hb
      cases hb
    refine run_cons_iff.2 ⟨_, ⟨⟨trivial, trivial⟩, rfl⟩, ?_⟩
    refine run_cons_iff.2 ⟨_, ⟨⟨by unfold InRange; decide, ?_⟩, rfl⟩, .nil⟩
    intro x hx b hb ht
    rw [List.mem_singleton] at hx
    subst hx
    have hbucket : b = ⟨bareSample 0, []⟩ := (Option.some.inj hb).symm
    subst hbucket
    exact absurd ht (by decide)
  refine ⟨hrun, _, rfl, ?_⟩
  exact (counted_once resumeEvents _ hrun 0 _ rfl).1

/-- The same timestamp inserted before and after such a `prune`. -/
def reinsertEvents : List Event :=
  [.insertBatch [bareSample 0], .prune 86400001 (fun _ => 0), .insertBatch [bareSample 0]]

/-- The timestamp of `reinsertEvents` counts twice: the minute row has two samples of the one
timestamp ever passed. -/
theorem counted_twice :
    Run Step new reinsertEvents (reinsertEvents.foldl step new) ∧
      (∀ e ∈ reinsertEvents, InRange e) ∧
      FitsI64 (86400001 - rawRetentionMs) ∧ FitsI64 (86400001 - minuteRetentionMs) ∧
      ((reinsertEvents.foldl step new).store.minutes.find 0).map (·.sampleCount) = some 2 ∧
      (passedIn reinsertEvents 0).dedup.length = 1 := by
  refine ⟨run_foldl step new reinsertEvents, ?_, by decide, by decide, rfl, by decide⟩
  intro e he
  fin_cases he
  · unfold InRange
    decide
  · trivial
  · unfold InRange
    decide

end Recorded

end Rackio
