import Rackio.Lib.Outcome
import Rackio.Core.History

/-!
# Minute history refines raw history

In a run that inserts no timestamp after its raw row was deleted, and as long as the integer sums
are `i64`s, the minute table is the aggregate of the accepted samples and a minute query reports
their means (`minute_history_refines`). A minute has sixty thousand timestamps, so a count never
reaches the bound `average_f64` checks.

The one reading a query reports without a sample behind it is a side of the network: it has no
absent value, and is zero beside a side with readings. And a temperature that is no number makes the
query fail, since the row keeps the text of its last sample (`minute_query_departs`).
-/

namespace Rackio

open Lts

open MetricStore (Event)

namespace Recorded

/-- No batch brings back a timestamp whose raw row was deleted. -/
def Fresh (h : Recorded) : Event → Prop
  | .insertBatch samples => ∀ x ∈ samples, x.timestampMs ∉ h.deleted
  | .prune _ _ => True

/-- A counted timestamp that is not deleted has its raw row. -/
theorem Fresh.uncounted {h : Recorded} (hi : Inv h) {e : Event} (hf : h.Fresh e) :
    h.Uncounted e := by
  cases e with
  | prune nowMs liveSize => trivial
  | insertBatch samples =>
    intro x hx b hb ht
    rcases hi.kept _ b hb _ ht with hraw | hdel
    · exact hraw
    · exact absurd hdel (hf x hx)

/-- A minute has sixty thousand timestamps. -/
theorem length_le_of_minute {m : Int} {l : List Int} (hl : l.Nodup)
    (hm : ∀ t ∈ l, t / minuteMs * minuteMs = m) : l.length ≤ 60000 := by
  have hsub : l.toFinset ⊆ Finset.Ico m (m + 60000) := by
    intro t ht
    have hfloor := hm t (List.mem_toFinset.1 ht)
    simp only [minuteMs] at hfloor
    rw [Finset.mem_Ico]
    omega
  have hcard := Finset.card_le_card hsub
  rw [List.toFinset_card_of_nodup hl, Int.card_Ico] at hcard
  omega

/-- The rows of a range of the minute table, by their buckets. -/
theorem queryMinute_eq {h : Recorded} (hrows : h.store.minutes = h.accepted.map Bucket.aggregate)
    (hlen : ∀ m b, h.accepted.find m = some b → b.samples.length < 2 ^ 32) (fromMs toMs : Int)
    (limit : Nat) :
    h.store.queryMinute fromMs toMs limit =
      ((h.accepted.rows.filter (MetricStore.between fromMs toMs)).take limit).mapM fun r =>
        r.2.last.reread.map (r.2.average r.1) := by
  unfold MetricStore.queryMinute
  rw [hrows]
  simp only [Table.map, List.filter_map, ← List.map_take, List.mapM_map]
  refine Outcome.mapM_congr_mem fun r hr => ?_
  obtain ⟨m, b⟩ := r
  have hmem : (m, b) ∈ h.accepted.rows := List.mem_of_mem_filter (List.mem_of_mem_take hr)
  exact Bucket.minuteSample_aggregate (hlen m b (Table.mem_rows_iff.1 hmem)) m

/-- In every run whose batches bring back no deleted timestamp, and whose sums are `i64`s: each
minute row is the aggregate of the samples accepted since it was created, which are of its minute
and of distinct timestamps; and a minute query reports, for the first `MAX_QUERY_ROWS` rows of its
range in ascending order, the means of these samples. -/
theorem minute_history_refines (es : List Event) (h : Recorded)
    (hrun : Run (Guarded (fun h e => InRange e ∧ h.Fresh e) Step) new es h)
    (hfits : ∀ m b, h.accepted.find m = some b → b.Fits) :
    (∀ m, h.store.minutes.find m = (h.accepted.find m).map Bucket.aggregate) ∧
      (∀ m b, h.accepted.find m = some b →
        b.timestamps.Nodup ∧ ∀ t ∈ b.timestamps, t / minuteMs * minuteMs = m) ∧
      ∀ fromMs toMs, h.store.query fromMs toMs .minute =
        ((h.accepted.rows.filter (MetricStore.between fromMs toMs)).take maxQueryRows).mapM fun r =>
          r.2.last.reread.map (r.2.average r.1) := by
  have hrange : ∀ e ∈ es, InRange e := hrun.labels fun _ _ _ hstep => hstep.1.1
  have hinv : Inv h := inv_of_run hrun.unguard
  have hdistinct : Distinct h := by
    refine (hrun.invariant (I := fun h => Inv h ∧ Distinct h) ⟨.new, ?_⟩ ?_).2
    · intro m b hb
      cases hb
    · rintro h e h' ⟨hi, hd⟩ ⟨⟨-, hf⟩, rfl⟩
      exact ⟨hi.step e, hd.step (hf.uncounted hi)⟩
  have hminute : ∀ m b, h.accepted.find m = some b →
      ∀ t ∈ b.timestamps, t / minuteMs * minuteMs = m :=
    fun m b hb t ht => minute_of_run hrun.unguard hrange hb ht
  have hrows : ∀ m, h.store.minutes.find m = (h.accepted.find m).map Bucket.aggregate := by
    intro m
    rw [hinv.rows m]
    cases hb : h.accepted.find m with
    | none => rfl
    | some b => exact congrArg some (Bucket.row_eq_aggregate (hfits m b hb))
  refine ⟨hrows, fun m b hb => ⟨hdistinct m b hb, hminute m b hb⟩, fun fromMs toMs => ?_⟩
  refine queryMinute_eq (Table.ext_find fun m => ?_) (fun m b hb => ?_) fromMs toMs maxQueryRows
  · rw [hrows m, Table.find_map]
  · have hlen := length_le_of_minute (hdistinct m b hb) (hminute m b hb)
    rw [Bucket.timestamps, List.length_map] at hlen
    omega

/-! ### Runs -/

/-- A sample with a memory and a network reading. -/
def loadSample (timestampMs : Int) (memory received sent : UInt64) : MetricSample :=
  { bareSample timestampMs with
    memoryUsedBytes := some memory
    network := some ⟨received, sent⟩ }

/-- Two minutes, one of them before the epoch, with a repeated timestamp. -/
def loadEvents : List Event :=
  [.insertBatch [loadSample (-1) 5 1 1, loadSample 0 10 3 4, loadSample 0 99 9 9],
    .insertBatch [loadSample 1000 13 4 4]]

/-- The minute of `loadEvents` after the epoch holds the exact sums of its two samples. -/
theorem minute_history_refines_load :
    Run (Guarded (fun h e => InRange e ∧ h.Fresh e) Step) new loadEvents
        (loadEvents.foldl step new) ∧
      ((loadEvents.foldl step new).store.minutes.find 0).map (·.memoryUsedSum) =
        some (.int 23) := by
  have hrun : Run (Guarded (fun h e => InRange e ∧ h.Fresh e) Step) new loadEvents
      (loadEvents.foldl step new) := by
    refine run_cons_iff.2 ⟨_, ⟨⟨by unfold InRange; decide, ?_⟩, rfl⟩, ?_⟩
    · intro x _ hx
      cases hx
    refine run_cons_iff.2 ⟨_, ⟨⟨by unfold InRange; decide, ?_⟩, rfl⟩, .nil⟩
    intro x _ hx
    cases hx
  have hfits : ∀ m b, (loadEvents.foldl step new).accepted.find m = some b → b.Fits := by
    intro m b hb
    have hmem := Table.mem_rows_iff.2 hb
    have hrows : (loadEvents.foldl step new).accepted.rows =
        [(-60000, ⟨loadSample (-1) 5 1 1, []⟩),
          (0, ⟨loadSample 0 10 3 4, [loadSample 1000 13 4 4]⟩)] := rfl
    rw [hrows] at hmem
    fin_cases hmem
    · exact ⟨by decide, by decide, by decide, by decide, by decide, by decide, by decide⟩
    · exact ⟨by decide, by decide, by decide, by decide, by decide, by decide, by decide⟩
  refine ⟨hrun, ?_⟩
  rw [(minute_history_refines loadEvents _ hrun hfits).1 0]
  rfl

/-- One sample whose sent bytes are no `i64`. -/
def unreadEvents : List Event := [.insertBatch [loadSample 0 10 3 9223372036854775808]]

/-- One sample whose temperature is no number. -/
def nanEvents : List Event :=
  [.insertBatch [{ bareSample 0 with temperature := some ⟨"cpu", ⟨0x7FC00000⟩, none, 1⟩ }]]

/-- Where a minute query departs from the means. The row of `unreadEvents` has no sent reading and
the query reports zero sent bytes; the last sample of `nanEvents` is not read back and the query
fails. -/
theorem minute_query_departs :
    (Run (Guarded (fun h e => InRange e ∧ h.Fresh e) Step) new unreadEvents
        (unreadEvents.foldl step new) ∧
      (∀ m b, (unreadEvents.foldl step new).accepted.find m = some b → b.Fits) ∧
      ((unreadEvents.foldl step new).store.minutes.find 0).map (·.txCount) = some 0 ∧
      ((unreadEvents.foldl step new).store.query 0 0 .minute).map
          (List.map fun s => s.network.map (·.sentBytesPerSecond)) = .ok [some 0]) ∧
      Run (Guarded (fun h e => InRange e ∧ h.Fresh e) Step) new nanEvents
        (nanEvents.foldl step new) ∧
      (nanEvents.foldl step new).store.query 0 0 .minute =
        .error (.json "invalid type: null, expected f32") := by
  refine ⟨⟨?_, ?_, rfl, rfl⟩, ?_, rfl⟩
  · refine run_cons_iff.2 ⟨_, ⟨⟨by unfold InRange; decide, ?_⟩, rfl⟩, .nil⟩
    intro x _ hx
    cases hx
  · intro m b hb
    have hmem := Table.mem_rows_iff.2 hb
    have hrows : (unreadEvents.foldl step new).accepted.rows =
        [(0, ⟨loadSample 0 10 3 9223372036854775808, []⟩)] := rfl
    rw [hrows] at hmem
    fin_cases hmem
    exact ⟨by decide, by decide, by decide, by decide, by decide, by decide, by decide⟩
  · refine run_cons_iff.2 ⟨_, ⟨⟨by unfold InRange; decide, ?_⟩, rfl⟩, .nil⟩
    intro x _ hx
    cases hx

end Recorded

end Rackio
