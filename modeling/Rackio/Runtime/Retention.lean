import Rackio.Core.SizeCap
import Rackio.Runtime.SampleLoop

/-!
# Retention and the two clocks

The sampling loop prunes by `Clock` of `rackio-core/src/clock.rs`, which reads the wall clock once
and then advances with the monotonic clock, so that no step of the wall clock moves the retention
window. The samples it prunes are stamped with the wall clock itself. A wall clock that is stepped
back while the process runs stamps samples as older than they are, and the next `prune` deletes
them.

A raw sample is safe for its 24 hours exactly when its stamp is not more than a millisecond behind
the clock of the loop (`stamp_spared_iff`); in a run all of whose stamps are, no `prune` deletes a
sample or a minute row too early (`retention_kept`). `fresh_samples_deleted` is a run after a step
of 25 hours. After the retention rule comes the size cap, and only on every 300th turn
(`turns_prune`).
-/

namespace Rackio

/-! ## Clocks -/

/-- The source's `Utc::now().timestamp_millis()`: an `i64` far inside its bounds, since the years of
a `DateTime` are between -262143 and 262142. -/
structure WallMs where
  ms : Int
  low : -2 ^ 53 < ms
  high : ms < 2 ^ 53

/-- The source's `Clock`; its instant is when the monotonic time starts. -/
structure Clock where
  wallAnchorMs : WallMs

/-- The source's `Clock::now_ms`, some milliseconds of monotonic time after its start. -/
def Clock.nowMs (clock : Clock) (elapsedMs : Nat) : Int :=
  satAddI64 clock.wallAnchorMs.ms (min (elapsedMs : Int) i64Max)

/-- The clock is its anchor and the time since, up to the largest `i64`. -/
theorem Clock.nowMs_eq (clock : Clock) (elapsedMs : Nat) :
    clock.nowMs elapsedMs = min i64Max (clock.wallAnchorMs.ms + min (elapsedMs : Int) i64Max) := by
  have hlow := clock.wallAnchorMs.low
  unfold Clock.nowMs satAddI64 i64Min i64Max
  omega

/-- A cutoff that many milliseconds before the clock does not wrap. -/
theorem Clock.cutoff_eq (clock : Clock) (elapsedMs : Nat) {retentionMs : Int}
    (h0 : 0 ≤ retentionMs) (h1 : retentionMs ≤ minuteRetentionMs) :
    wrapI64 (clock.nowMs elapsedMs - retentionMs) = clock.nowMs elapsedMs - retentionMs := by
  refine wrapI64_of_fits ?_
  have hlow := clock.wallAnchorMs.low
  rw [clock.nowMs_eq]
  unfold FitsI64 i64Min i64Max
  unfold minuteRetentionMs at h1
  omega

/-! ## Timed runs -/

/-- One turn of the loop with its clocks: the wall clock when the sample is stamped, and the
monotonic time then and at the `prune`. -/
structure TimedTick where
  stamp : WallMs
  collectedMs : Nat
  prunedMs : Nat
  /-- The readings; the stamp replaces the timestamp. -/
  sample : MetricSample
  insertOk : Bool
  pruneOk : Bool
  liveSize : Nat → Int

/-- The turn of the loop, under the loop's clock. -/
def TimedTick.tick (clock : Clock) (t : TimedTick) : Tick where
  sample := { t.sample with timestampMs := t.stamp.ms }
  insertOk := t.insertOk
  nowMs := clock.nowMs t.prunedMs
  pruneOk := t.pruneOk
  liveSize := t.liveSize

/-- The loop after some turns, on a store that may hold anything. -/
def timedRun (clock : Clock) (store : MetricStore) (ticks : List TimedTick) : Sampler :=
  (ticks.map (TimedTick.tick clock)).foldl Sampler.tick ⟨store, [], 0⟩

/-- What the retention rule leaves of the store when a turn prunes; the size cap comes after it. -/
def Sampler.expire (s : Sampler) (tick : Tick) : MetricStore :=
  if s.pruneDue then s.store.deleteExpired tick.nowMs else s.store

/-- A turn that prunes applies the retention rule and then the size cap. -/
theorem Sampler.maintain_store (s : Sampler) (tick : Tick) (hok : tick.pruneOk = true) :
    (s.maintain tick).store =
      if s.pruneDue then (s.expire tick).enforceSizeCapBytes s.store.sizeCapBytes tick.liveSize
      else s.expire tick := by
  have hdue : s.pruneDue = true ↔ 300 ≤ min (s.pruneCounter + 1) 65535 := by
    rw [Sampler.pruneDue, decide_eq_true_eq]
  unfold Sampler.maintain Sampler.expire
  dsimp only
  by_cases h : 300 ≤ min (s.pruneCounter + 1) 65535
  · rw [if_pos h, if_pos (hdue.2 h), if_pos (hdue.2 h), if_pos hok]
    rfl
  · rw [if_neg h, if_neg fun hd => h (hdue.1 hd), if_neg fun hd => h (hdue.1 hd)]

/-- The retention rule of a turn spares the samples collected less than 24 hours before it, and the
minute rows of those collected less than 7 days minus a minute before it. -/
def Spares (clock : Clock) (s : Sampler) (t : TimedTick) (collected : List TimedTick) : Prop :=
  ∀ c ∈ collected,
    ((t.prunedMs : Int) - c.collectedMs < rawRetentionMs →
      (s.expire (t.tick clock)).samples.find c.stamp.ms = s.store.samples.find c.stamp.ms) ∧
    ((t.prunedMs : Int) - c.collectedMs < minuteRetentionMs - minuteMs →
      (s.expire (t.tick clock)).minutes.find (minuteKey c.stamp.ms) =
        s.store.minutes.find (minuteKey c.stamp.ms))

/-- The stamp of a sample is at most a millisecond behind the loop's clock when it is collected. -/
def TimedTick.Timely (clock : Clock) (c : TimedTick) : Prop :=
  clock.nowMs c.collectedMs ≤ c.stamp.ms + 1

/-! ## Stamps and cutoffs -/

section
variable {clock : Clock} {c t : TimedTick}

/-- A raw row is above every cutoff of its 24 hours exactly when its stamp is not more than a
millisecond behind the clock. -/
theorem stamp_spared_iff :
    (∀ elapsedMs : Nat, (elapsedMs : Int) - c.collectedMs < rawRetentionMs →
      clock.nowMs elapsedMs - rawRetentionMs ≤ c.stamp.ms) ↔ c.Timely clock := by
  have hhigh := c.stamp.high
  have hlow := clock.wallAnchorMs.low
  unfold TimedTick.Timely
  constructor
  · intro h
    -- the last moment at which the sample is younger than a day
    have hlast := h (c.collectedMs + 86399999) (by unfold rawRetentionMs; omega)
    rw [Clock.nowMs_eq] at hlast ⊢
    unfold rawRetentionMs at hlast
    unfold i64Max at hlast ⊢
    omega
  · intro h elapsedMs hage
    rw [Clock.nowMs_eq] at h ⊢
    unfold rawRetentionMs at hage ⊢
    unfold i64Max at h ⊢
    omega

/-- The minute of a stamp starts less than a minute before it. -/
theorem minuteKey_stamp (stamp : WallMs) :
    stamp.ms - minuteMs < minuteKey stamp.ms ∧ minuteKey stamp.ms ≤ stamp.ms := by
  have hlow := stamp.low
  have hhigh := stamp.high
  unfold minuteKey
  rw [wrapI64_of_fits]
  · unfold minuteMs
    omega
  · unfold FitsI64 i64Min i64Max minuteMs
    omega

/-- The minute row of a timely stamp is above every cutoff of its 7 days minus a minute. -/
theorem TimedTick.Timely.minute_spared (h : c.Timely clock) {elapsedMs : Nat}
    (hage : (elapsedMs : Int) - c.collectedMs < minuteRetentionMs - minuteMs) :
    clock.nowMs elapsedMs - minuteRetentionMs ≤ minuteKey c.stamp.ms := by
  have hhigh := c.stamp.high
  have hkey := (minuteKey_stamp c.stamp).1
  unfold TimedTick.Timely at h
  rw [Clock.nowMs_eq] at h ⊢
  unfold minuteMs at hage hkey
  unfold minuteRetentionMs at hage ⊢
  unfold i64Max at h ⊢
  omega

/-- A `prune` deletes no row that is not below its cutoff. -/
theorem find_deleteExpired {ν : Type} {table : Table Int ν} {cutoff key : Int}
    (h : cutoff ≤ key) : (table.filter fun r => cutoff ≤ r.1).find key = table.find key := by
  rw [Table.find_filter table (fun k => decide (cutoff ≤ k)) key, if_pos (decide_eq_true h)]

/-- The retention rule of a turn spares the samples with timely stamps. -/
theorem spares_of_timely {s : Sampler} {collected : List TimedTick}
    (h : ∀ c ∈ collected, c.Timely clock) : Spares clock s t collected := by
  intro c hc
  unfold Sampler.expire
  split
  · constructor
    · intro hage
      refine find_deleteExpired ?_
      show wrapI64 (clock.nowMs t.prunedMs - rawRetentionMs) ≤ _
      rw [clock.cutoff_eq _ (by decide) (by decide)]
      exact stamp_spared_iff.2 (h c hc) t.prunedMs hage
    · intro hage
      refine find_deleteExpired ?_
      show wrapI64 (clock.nowMs t.prunedMs - minuteRetentionMs) ≤ _
      rw [clock.cutoff_eq _ (by decide) le_rfl]
      exact (h c hc).minute_spared hage
  · exact ⟨fun _ => rfl, fun _ => rfl⟩

end

/-- In every run of the loop whose samples are stamped at most a millisecond behind the loop's
clock, whatever else the wall clock does, no `prune` deletes a raw sample that was collected less
than 24 hours of monotonic time before it, nor a minute row of a sample that was collected less than
7 days minus a minute before it. -/
theorem retention_kept (clock : Clock) (store : MetricStore) (ticks : List TimedTick)
    (h : ∀ t ∈ ticks, t.Timely clock) :
    ∀ before t, before ++ [t] <+: ticks →
      Spares clock ((timedRun clock store before).collect (t.tick clock)) t (before ++ [t]) := by
  rintro before t ⟨after, rfl⟩
  exact spares_of_timely fun c hc => h c (List.mem_append_left _ hc)

/-! ## Turns that prune -/

section
variable {s : Sampler} {store : MetricStore} {tick : Tick}

/-- A turn keeps the cap. -/
theorem Sampler.sizeCapBytes_tick (s : Sampler) (tick : Tick) :
    (s.tick tick).store.sizeCapBytes = s.store.sizeCapBytes := by
  rw [← Sampler.sizeCapBytes_collect s tick]
  unfold Sampler.tick Sampler.maintain
  dsimp only
  split
  · cases tick.pruneOk with
    | true => exact MetricStore.sizeCapBytes_prune _ _ _
    | false => rfl
  · rfl

/-- The counter and the cap after some turns. -/
theorem Sampler.foldl_tick (store : MetricStore) (ticks : List Tick) :
    (ticks.foldl Sampler.tick ⟨store, [], 0⟩).pruneCounter = ticks.length % 300 ∧
      (ticks.foldl Sampler.tick ⟨store, [], 0⟩).store.sizeCapBytes = store.sizeCapBytes := by
  induction ticks using List.reverseRecOn with
  | nil => exact ⟨rfl, rfl⟩
  | append_singleton ticks tick ih =>
    obtain ⟨hcounter, hcap⟩ := ih
    rw [List.foldl_concat, Sampler.sizeCapBytes_tick, hcap, Sampler.tick,
      Sampler.pruneCounter_maintain, Sampler.pruneCounter_collect, hcounter, List.length_append]
    · exact ⟨by simp, rfl⟩
    · rw [Sampler.pruneCounter_collect, hcounter]
      exact Nat.mod_lt _ (by decide)

/-- A turn that is not to prune leaves the rows. -/
theorem Sampler.maintain_store_kept (h : ¬ s.pruneDue = true) :
    (s.maintain tick).store = s.store := by
  unfold Sampler.maintain
  dsimp only
  rw [if_neg fun hdue => h (decide_eq_true hdue)]

/-- A turn whose live size is decided by the rows that it reads it of. -/
def Tick.sized (tick : Tick) (s : Sampler) (liveSize : MetricStore → Int) : Tick :=
  { tick with liveSize := fun n => liveSize ((s.expire tick).afterTurns n) }

/-- A turn that prunes cuts what the retention rule leaves down to the cap. -/
theorem Sampler.capped_maintain (hdue : s.pruneDue = true) (hok : tick.pruneOk = true)
    (liveSize : MetricStore → Int) :
    MetricStore.Capped s.store.sizeCapBytes liveSize (s.store.deleteExpired tick.nowMs)
      (s.maintain (tick.sized s liveSize)).store := by
  have hexpire : s.expire tick = s.store.deleteExpired tick.nowMs := if_pos hdue
  obtain ⟨after, hafter⟩ : ∃ after, MetricStore.capLoop s.store.sizeCapBytes liveSize
      ((s.expire tick).rowCount + 1) (s.expire tick) = some after :=
    MetricStore.capLoop_terminates (Nat.lt_succ_self _)
  have hstore : (s.maintain (tick.sized s liveSize)).store = after := by
    have hmaintain := Sampler.maintain_store s (tick.sized s liveSize) hok
    rw [if_pos hdue] at hmaintain
    exact hmaintain.trans (MetricStore.enforceSizeCapBytes_of_capLoop hafter)
  rw [hstore, ← hexpire]
  exact MetricStore.capped_of_capLoop hafter

end

/-! ## A wall clock that is stepped back -/

/-- A turn whose batch fails and that does not prune leaves the store. -/
theorem Sampler.tick_dropped {s : Sampler} {tick : Tick} (hfail : tick.insertOk = false)
    (hcount : s.pruneCounter + 1 < 300) : (s.tick tick).store = s.store := by
  unfold Sampler.tick Sampler.maintain
  dsimp only
  rw [Sampler.pruneCounter_collect, if_neg (by omega)]
  unfold Sampler.collect
  rw [hfail]
  dsimp only
  split
  · rfl
  · rfl

/-- Turns whose batches fail leave the store, and are counted. -/
theorem foldl_dropped {ticks : List Tick} (hfail : ∀ tick ∈ ticks, tick.insertOk = false)
    (s : Sampler) (hpending : s.pending.length < 5)
    (hcount : s.pruneCounter + ticks.length < 300) :
    ∃ pending, ticks.foldl Sampler.tick s = ⟨s.store, pending, s.pruneCounter + ticks.length⟩ ∧
      pending.length = (s.pending.length + ticks.length) % 5 := by
  induction ticks generalizing s with
  | nil => exact ⟨s.pending, rfl, (Nat.mod_eq_of_lt hpending).symm⟩
  | cons tick ticks ih =>
    rw [List.length_cons] at hcount
    have hstore := Sampler.tick_dropped (s := s) (hfail tick (.head _)) (by omega)
    have hlen : (s.tick tick).pending.length = (s.pending.length + 1) % 5 := by
      rw [Sampler.tick, Sampler.pending_maintain, Sampler.length_pending_collect s tick hpending]
    have hcounter : (s.tick tick).pruneCounter = s.pruneCounter + 1 := by
      rw [Sampler.tick, Sampler.pruneCounter_maintain, Sampler.pruneCounter_collect]
      · omega
      · rw [Sampler.pruneCounter_collect]
        omega
    obtain ⟨pending, hfold, hrest⟩ := ih (fun tick ht => hfail tick (.tail _ ht)) (s.tick tick)
      (by omega) (by omega)
    refine ⟨pending, ?_, ?_⟩
    · rw [List.foldl_cons, hfold, hstore, hcounter, List.length_cons, Nat.add_assoc,
        Nat.add_comm 1]
    · rw [hrest, hlen, List.length_cons]
      omega

/-- A clock that was started 100 hours after the epoch. -/
def hundredHours : Clock := ⟨⟨360000000, by decide, by decide⟩⟩

/-- The turn `i` of a loop that turns every two seconds, while the wall clock is `back` milliseconds
behind the loop's clock. The first batches fail. -/
def laggingTick (back : Fin 90000001) (i : Fin 300) : TimedTick where
  stamp := ⟨360000000 + 2000 * i - back, by omega, by omega⟩
  collectedMs := 2000 * i
  prunedMs := 2000 * i
  sample := default
  insertOk := 295 ≤ i.val
  pruneOk := true
  liveSize := fun _ => 0

/-- The turns whose batches fail. -/
def droppedTicks (back : Fin 90000001) : List TimedTick :=
  (List.finRange 295).map fun i => laggingTick back (i.castLE (by decide))

/-- The turns before the one that prunes. -/
def laggingTicks (back : Fin 90000001) : List TimedTick :=
  droppedTicks back ++
    [laggingTick back 295, laggingTick back 296, laggingTick back 297, laggingTick back 298]

/-- They are the first turns, in order. -/
theorem laggingTicks_eq (back : Fin 90000001) :
    laggingTicks back ++ [laggingTick back 299] =
      (List.finRange 300).map (laggingTick back) := by
  rw [List.finRange_succ_last (n := 299), List.finRange_succ_last (n := 298),
    List.finRange_succ_last (n := 297), List.finRange_succ_last (n := 296),
    List.finRange_succ_last (n := 295)]
  simp only [List.map_append, List.map_map, List.map_cons, List.map_nil, List.append_assoc,
    laggingTicks, droppedTicks]
  rfl

/-- Ten minutes of samples stamped by a wall clock that was not stepped are kept. -/
theorem retention_kept_unstepped :
    (∀ t ∈ laggingTicks 0 ++ [laggingTick 0 299], t.Timely hundredHours) ∧
      Spares hundredHours
        ((timedRun hundredHours .new (laggingTicks 0)).collect
          ((laggingTick 0 299).tick hundredHours))
        (laggingTick 0 299) (laggingTicks 0 ++ [laggingTick 0 299]) := by
  have htimely : ∀ t ∈ laggingTicks 0 ++ [laggingTick 0 299], t.Timely hundredHours := by
    have hone : ∀ i, (laggingTick 0 i).Timely hundredHours := by
      intro i
      unfold TimedTick.Timely
      rw [Clock.nowMs_eq]
      simp only [laggingTick, hundredHours, i64Max]
      omega
    rw [laggingTicks_eq]
    intro t ht
    obtain ⟨i, -, rfl⟩ := List.mem_map.1 ht
    exact hone i
  exact ⟨htimely, retention_kept hundredHours .new _ htimely _ _ List.prefix_rfl⟩

/-- The loop before the first batch that is committed. -/
theorem timedRun_dropped (back : Fin 90000001) :
    timedRun hundredHours .new (droppedTicks back) = ⟨.new, [], 295⟩ := by
  have hlen : ((droppedTicks back).map (TimedTick.tick hundredHours)).length = 295 := by
    simp [droppedTicks]
  have hfail : ∀ tick ∈ (droppedTicks back).map (TimedTick.tick hundredHours),
      tick.insertOk = false := by
    intro tick htick
    obtain ⟨t, ht, rfl⟩ := List.mem_map.1 htick
    obtain ⟨i, -, rfl⟩ := List.mem_map.1 ht
    exact decide_eq_false (not_le.2 i.isLt)
  obtain ⟨pending, hfold, hpending⟩ := foldl_dropped hfail ⟨.new, [], 0⟩ (by decide)
    (by rw [hlen]; decide)
  rw [hlen] at hfold hpending
  rw [timedRun, hfold, List.length_eq_zero_iff.1 hpending]

/-- The wall clock is stepped back by 25 hours, and a `prune` ten minutes later deletes the samples
of the last ten seconds. -/
theorem fresh_samples_deleted :
    (laggingTicks 90000000 ++ [laggingTick 90000000 299]).Pairwise
        (fun a b => a.prunedMs ≤ b.collectedMs) ∧
      ¬ Spares hundredHours
        ((timedRun hundredHours .new (laggingTicks 90000000)).collect
          ((laggingTick 90000000 299).tick hundredHours))
        (laggingTick 90000000 299) (laggingTicks 90000000 ++ [laggingTick 90000000 299]) := by
  constructor
  · rw [laggingTicks_eq, List.pairwise_map]
    refine (List.pairwise_lt_finRange 300).imp fun hlt => ?_
    simp only [laggingTick]
    omega
  · intro h
    have hrun : timedRun hundredHours .new (laggingTicks 90000000) =
        ([laggingTick 90000000 295, laggingTick 90000000 296, laggingTick 90000000 297,
          laggingTick 90000000 298].map (TimedTick.tick hundredHours)).foldl Sampler.tick
            ⟨.new, [], 295⟩ := by
      rw [← timedRun_dropped 90000000, timedRun, laggingTicks, List.map_append, List.foldl_append]
      rfl
    rw [hrun] at h
    have hkept := (h (laggingTick 90000000 299) (List.mem_append_right _ (.head _))).1 (by decide)
    have hrow := congrArg Option.isSome hkept
    revert hrow
    decide +kernel

end Rackio
