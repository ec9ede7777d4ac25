import Rackio.Core.Evaluator
import Rackio.Lib.Breaks
import Rackio.Lib.Median

/-!
# The trend charts

What `trend-series.ts` reads out of the samples of a machine, and the pieces that `TrendChart.tsx`
draws a line in. A line is broken wherever two samples are further apart than three times the median
of the line's own spacing.

The pieces are the readable samples in their order, broken at the gaps and nowhere else
(`TrendChart.line_drawn`). The median is what makes this robust: with most of the samples at their
usual spacing, an outage is left blank whatever else the line holds (`TrendChart.outages_blank`),
and a line never falls apart into single dots (`TrendChart.pieces_at_most_half`). Neither depends on
how far apart the samples are: two seconds or a minute (`TrendChart.pieces_move`).
-/

namespace Rackio

open Breaks (steps)

/-- The product of two doubles. -/
def F64.mul (x y : F64) : F64 := ⟨(Float.ofBits x.bits * Float.ofBits y.bits).toBits⟩

/-! ## Samples -/

/-- The source's `TrendPoint`. A reading that is absent or `null` is `none`; times are whole
milliseconds. -/
structure TrendPoint where
  timestampMs : Int
  cpuPercent : Option F64
  memoryUsedBytes : Option F64
  memoryTotalBytes : Option F64
  swapUsedBytes : Option F64
  swapTotalBytes : Option F64
  diskUsedBytes : Option F64
  diskTotalBytes : Option F64
  temperatureCelsius : Option F64
  networkReceivedBytesPerSecond : Option F64
  networkSentBytesPerSecond : Option F64
  rttMs : Option F64

/-- The source's `TrendDatum`. -/
structure TrendDatum where
  timestampMs : Int
  value : F64
  deriving DecidableEq, Repr

/-- The source's `TrendLine`. -/
structure TrendLine where
  name : String
  points : List TrendDatum

/-- The source's `TrendLines`. -/
structure TrendLines where
  lines : List TrendLine
  firstMs : Option Int
  lastMs : Option Int
  values : List F64

/-- The source's `TrendMetric`. -/
inductive TrendMetric
  | cpu | memory | swap | disk | temp | network | rtt

/-- A member of the `series` of a metric: its name, and what it reads of a sample. -/
structure TrendSource where
  name : String
  read : TrendPoint → Option F64

namespace TrendSeries

/-- The source's `ratio`; a total of zero or less has none. -/
def ratio (used total : Option F64) : Option F64 := do
  let used ← used
  let total ← total
  if total.le (F64.ofInt 0) then none else some ((used.div total).mul (F64.ofInt 100))

/-- The `series` of the source's `trendMetricRegistry`. -/
def series : TrendMetric → List TrendSource
  | .cpu => [⟨"CPU", (·.cpuPercent)⟩]
  | .memory => [⟨"Memory", fun point => ratio point.memoryUsedBytes point.memoryTotalBytes⟩]
  | .swap => [⟨"Swap", fun point => ratio point.swapUsedBytes point.swapTotalBytes⟩]
  | .disk => [⟨"Disk", fun point => ratio point.diskUsedBytes point.diskTotalBytes⟩]
  | .temp => [⟨"Temp", (·.temperatureCelsius)⟩]
  | .network => [⟨"Received", (·.networkReceivedBytesPerSecond)⟩,
      ⟨"Sent", (·.networkSentBytesPerSecond)⟩]
  | .rtt => [⟨"RTT", (·.rttMs)⟩]

/-- One turn of the inner loop of `trendLines`, with the line it is at. -/
def readPoint (read : TrendPoint → Option F64) (state : TrendLines × List TrendDatum)
    (point : TrendPoint) : TrendLines × List TrendDatum :=
  match read point with
  | none => state
  | some value =>
    ({ state.1 with
        values := state.1.values ++ [value]
        firstMs := some (state.1.firstMs.elim point.timestampMs (min · point.timestampMs))
        lastMs := some (state.1.lastMs.elim point.timestampMs (max · point.timestampMs)) },
      state.2 ++ [⟨point.timestampMs, value⟩])

/-- One turn of the outer loop of `trendLines`. -/
def readSeries (points : List TrendPoint) (result : TrendLines) (source : TrendSource) :
    TrendLines :=
  let (result, line) := points.foldl (readPoint source.read) (result, [])
  { result with lines := result.lines ++ [⟨source.name, line⟩] }

/-- The source's `trendLines`. -/
def trendLines (points : List TrendPoint) (metric : TrendMetric) : TrendLines :=
  (series metric).foldl (readSeries points) ⟨[], none, none, []⟩

/-- The distances between neighbours, as `gapThresholdMs` collects them. -/
def deltas (points : List TrendDatum) : List Int :=
  (steps points).map fun p => p.2.timestampMs - p.1.timestampMs

/-- The source's `gapThresholdMs`; `none` is an infinite threshold. -/
def gapThresholdMs (points : List TrendDatum) : Option Int :=
  if points.length < 3 then none
  else (Median.median (deltas points)).bind fun median =>
    if 0 < median then some (median * 3) else none

end TrendSeries

namespace TrendChart

open TrendSeries

/-- Two neighbours are drawn as one line where their distance is not above the threshold. -/
def joined (threshold : Option Int) (previous point : TrendDatum) : Bool :=
  !threshold.any fun threshold => decide (threshold < point.timestampMs - previous.timestampMs)

/-- The source's `segmentsOf`. -/
def segmentsOf (points : List TrendDatum) : List (List TrendDatum) :=
  Breaks.finish (points.foldl (Breaks.push (joined (gapThresholdMs points))) ([], []))

/-- The source's `plottedPointCount`. -/
def plottedPointCount (lines : List TrendLine) : Nat :=
  lines.foldl (fun total line => total + line.points.length) 0

/-- The polylines that the source's `TrendChart` draws of each line; with less than two points it
draws nothing. -/
def polylines (lines : List TrendLine) : Option (List (String × List (List TrendDatum))) :=
  if plottedPointCount lines < 2 then none
  else some (lines.map fun line => (line.name, segmentsOf line.points))

end TrendChart

/-! ## What is read -/

namespace TrendSeries

/-- The points of a line: the samples that its source can read, in their order. -/
def readable (source : TrendSource) (points : List TrendPoint) : List TrendDatum :=
  points.filterMap fun point => (source.read point).map (⟨point.timestampMs, ·⟩)

/-- The values and the range are those of these points. -/
structure Covers (result : TrendLines) (seen : List TrendDatum) : Prop where
  values : result.values = seen.map (·.value)
  firstMs : result.firstMs = (seen.map (·.timestampMs)).min?
  lastMs : result.lastMs = (seen.map (·.timestampMs)).max?

section
variable {result : TrendLines} {seen : List TrendDatum} {datum : TrendDatum}
  {source : TrendSource} {points : List TrendPoint}

theorem min?_concat (l : List Int) (t : Int) :
    (l ++ [t]).min? = some (l.min?.elim t (min · t)) := by
  cases l with
  | nil => rfl
  | cons x l => rw [List.cons_append, List.min?_cons', List.foldl_concat, List.min?_cons']; rfl

theorem max?_concat (l : List Int) (t : Int) :
    (l ++ [t]).max? = some (l.max?.elim t (max · t)) := by
  cases l with
  | nil => rfl
  | cons x l => rw [List.cons_append, List.max?_cons', List.foldl_concat, List.max?_cons']; rfl

/-- One more point is read. -/
theorem Covers.concat (h : Covers result seen) :
    Covers
      { result with
        values := result.values ++ [datum.value]
        firstMs := some (result.firstMs.elim datum.timestampMs (min · datum.timestampMs))
        lastMs := some (result.lastMs.elim datum.timestampMs (max · datum.timestampMs)) }
      (seen ++ [datum]) where
  values := by rw [h.values, List.map_append]; rfl
  firstMs := by rw [h.firstMs, List.map_append, List.map_singleton, min?_concat]
  lastMs := by rw [h.lastMs, List.map_append, List.map_singleton, max?_concat]

/-- The inner loop reads what is readable, and leaves the other lines. -/
theorem foldl_readPoint (source : TrendSource) (points : List TrendPoint) (line : List TrendDatum)
    (h : Covers result seen) :
    let state := points.foldl (readPoint source.read) (result, line)
    state.1.lines = result.lines ∧ Covers state.1 (seen ++ readable source points) ∧
      state.2 = line ++ readable source points := by
  induction points generalizing result seen line with
  | nil => simpa [readable] using h
  | cons point points ih =>
    rw [List.foldl_cons, readPoint, readable, List.filterMap_cons]
    cases hread : source.read point with
    | none => exact ih line h
    | some value =>
      have hconcat : Covers _ (seen ++ [⟨point.timestampMs, value⟩]) := h.concat
      obtain ⟨hlines, hcovers, hline⟩ := ih (line ++ [⟨point.timestampMs, value⟩]) hconcat
      rw [List.append_assoc] at hcovers hline
      exact ⟨hlines, hcovers, hline⟩

/-- The outer loop reads every line. -/
theorem foldl_readSeries (points : List TrendPoint) (sources : List TrendSource)
    (h : Covers result seen) :
    (sources.foldl (readSeries points) result).lines =
        result.lines ++ sources.map (fun source => ⟨source.name, readable source points⟩) ∧
      Covers (sources.foldl (readSeries points) result)
        (seen ++ sources.flatMap (readable · points)) := by
  induction sources generalizing result seen with
  | nil => simpa using h
  | cons source sources ih =>
    obtain ⟨hlines, hcovers, hline⟩ := foldl_readPoint source points [] h
    have hnext : Covers (readSeries points result source) (seen ++ readable source points) :=
      ⟨hcovers.values, hcovers.firstMs, hcovers.lastMs⟩
    obtain ⟨hrest, hcovers'⟩ := ih hnext
    rw [List.append_assoc] at hcovers'
    refine ⟨?_, hcovers'⟩
    rw [List.foldl_cons, hrest, List.map_cons]
    simp only [readSeries, hlines, hline, List.nil_append, List.append_assoc]
    rfl

/-- The lines of a metric are what its sources read, and its range and values are those of its
lines. -/
theorem trendLines_read (points : List TrendPoint) (metric : TrendMetric) :
    (trendLines points metric).lines =
        (series metric).map (fun source => ⟨source.name, readable source points⟩) ∧
      Covers (trendLines points metric) ((series metric).flatMap (readable · points)) :=
  have hempty : Covers ⟨[], none, none, []⟩ [] := ⟨rfl, rfl, rfl⟩
  foldl_readSeries points (series metric) hempty

end

end TrendSeries

namespace TrendChart

open TrendSeries

section
variable {line : List TrendDatum} {pieces : List (List TrendDatum)} {a b : TrendDatum}
  {typicalMs longestMs : Int}

/-! ## Pieces -/

/-- Two neighbours are too far apart to be drawn as one line. -/
def Gap (line : List TrendDatum) (a b : TrendDatum) : Prop :=
  ∃ threshold, gapThresholdMs line = some threshold ∧
    threshold < b.timestampMs - a.timestampMs

/-- The pieces that a line is drawn in: its points in their order, broken at the gaps and nowhere
else. -/
structure Drawn (line : List TrendDatum) (pieces : List (List TrendDatum)) : Prop where
  whole : pieces.flatten = line
  nonempty : [] ∉ pieces
  joined : ∀ piece ∈ pieces, piece.IsChain fun a b => ¬ Gap line a b
  broken : pieces.IsChain fun p q => ∃ hp hq, Gap line (p.getLast hp) (q.head hq)

theorem joined_iff : joined (gapThresholdMs line) a b = true ↔ ¬ Gap line a b := by
  unfold joined Gap
  cases gapThresholdMs line with
  | none => simp
  | some threshold => simp

theorem joined_eq_false_iff : joined (gapThresholdMs line) a b = false ↔ Gap line a b := by
  rw [← Bool.not_eq_true, joined_iff, not_not]

/-- The loop of `segmentsOf` splits a line at its gaps. -/
theorem segmentsOf_eq (line : List TrendDatum) :
    segmentsOf line = line.splitBy (joined (gapThresholdMs line)) :=
  Breaks.splitLoop_eq _ line

theorem segmentsOf_eq_iff : segmentsOf line = pieces ↔ Drawn line pieces := by
  rw [segmentsOf_eq, List.splitBy_eq_iff]
  simp only [joined_iff, joined_eq_false_iff]
  exact ⟨fun ⟨hwhole, hnil, hjoined, hbroken⟩ => ⟨hwhole.symm, hnil, hjoined, hbroken⟩,
    fun h => ⟨h.whole.symm, h.nonempty, h.joined, h.broken⟩⟩

theorem plottedPointCount_eq (lines : List TrendLine) :
    plottedPointCount lines = (lines.map (·.points.length)).sum := by
  rw [plottedPointCount, List.sum_eq_foldl, List.foldl_map]

theorem length_deltas (line : List TrendDatum) : (deltas line).length = line.length - 1 := by
  rw [deltas, List.length_map, Breaks.length_steps]

/-- A threshold is three times the median of the spacing. -/
theorem gapThresholdMs_eq_some {threshold : Int} (h : gapThresholdMs line = some threshold) :
    3 ≤ line.length ∧ ∃ median, Median.median (deltas line) = some median ∧ 0 < median ∧
      threshold = median * 3 := by
  unfold gapThresholdMs at h
  split at h
  · cases h
  · next hlength =>
    obtain ⟨median, hmedian, h⟩ := Option.bind_eq_some_iff.1 h
    split at h
    · next hpos =>
      cases h
      exact ⟨Nat.le_of_not_lt hlength, median, hmedian, hpos, rfl⟩
    · cases h

/-- More than half of the distances are between these two. -/
def Mostly (line : List TrendDatum) (typicalMs longestMs : Int) : Prop :=
  (deltas line).length <
    2 * (deltas line).countP (fun delta => typicalMs ≤ delta ∧ delta ≤ longestMs)

instance (line : List TrendDatum) (typicalMs longestMs : Int) :
    Decidable (Mostly line typicalMs longestMs) :=
  Nat.decLt _ _

/-- Then so does the median. -/
theorem Mostly.median {median : Int} (h : Mostly line typicalMs longestMs)
    (hmedian : Median.median (deltas line) = some median) :
    typicalMs ≤ median ∧ median ≤ longestMs := by
  constructor
  · refine Median.ge_of_most hmedian (h.trans_le (Nat.mul_le_mul_left 2 ?_))
    exact List.countP_mono_left fun delta _ hdelta => by simp_all
  · refine Median.le_of_most hmedian (h.trans_le (Nat.mul_le_mul_left 2 ?_))
    exact List.countP_mono_left fun delta _ hdelta => by simp_all

/-- With a usual spacing, every distance is that of a piece or that of a gap. -/
theorem Mostly.gap (h : Mostly line typicalMs longestMs) (hpos : 0 < typicalMs)
    (hmem : (a, b) ∈ steps line) :
    (Gap line a b → typicalMs * 3 < b.timestampMs - a.timestampMs) ∧
      (¬ Gap line a b → b.timestampMs - a.timestampMs ≤ longestMs * 3) := by
  have hdelta : b.timestampMs - a.timestampMs ∈ deltas line := List.mem_map_of_mem hmem
  refine ⟨?_, fun hgap => ?_⟩
  · rintro ⟨threshold, hthreshold, hlt⟩
    obtain ⟨-, median, hmedian, -, rfl⟩ := gapThresholdMs_eq_some hthreshold
    have := (h.median hmedian).1
    omega
  · by_cases hlength : line.length < 3
    · -- There is one distance only, so it is a usual one.
      have hone : (deltas line).length ≤ 1 := by
        rw [length_deltas]
        omega
      have hall : (deltas line).countP (fun delta => typicalMs ≤ delta ∧ delta ≤ longestMs) =
          (deltas line).length := by
        have hle := List.countP_le_length (l := deltas line)
          (p := fun delta => decide (typicalMs ≤ delta ∧ delta ≤ longestMs))
        have hmost : (deltas line).length < 2 * _ := h
        omega
      have husual := of_decide_eq_true (List.countP_eq_length.1 hall _ hdelta)
      omega
    · obtain ⟨median, hmedian⟩ := Median.isSome_median (List.ne_nil_of_mem hdelta)
      obtain ⟨hge, hle⟩ := h.median hmedian
      have hthreshold : gapThresholdMs line = some (median * 3) := by
        rw [gapThresholdMs, if_neg hlength, hmedian, Option.bind_some, if_pos (hpos.trans_le hge)]
      have : ¬ median * 3 < b.timestampMs - a.timestampMs := fun hlt =>
        hgap ⟨_, hthreshold, hlt⟩
      omega

/-- When more than half of the distances of a line are between `typicalMs` and `longestMs`, whatever
the others are: no piece joins two neighbours further apart than three times the longest, and the
line is broken only between neighbours further apart than three times the typical one. -/
theorem outages_blank (hpos : 0 < typicalMs) (h : Mostly line typicalMs longestMs) :
    (∀ piece ∈ segmentsOf line,
        piece.IsChain fun a b => b.timestampMs - a.timestampMs ≤ longestMs * 3) ∧
      (segmentsOf line).IsChain fun p q => ∃ hp hq,
        typicalMs * 3 < (q.head hq).timestampMs - (p.getLast hp).timestampMs := by
  have hdrawn : Drawn line (segmentsOf line) := segmentsOf_eq_iff.1 rfl
  obtain ⟨hsub, hbetween⟩ := Breaks.steps_of_pieces hdrawn.nonempty
  rw [hdrawn.whole] at hsub hbetween
  constructor
  · intro piece hpiece
    refine Breaks.isChain_iff_steps.2 fun p hp => ?_
    have hjoined := Breaks.isChain_iff_steps.1 (hdrawn.joined piece hpiece) p hp
    exact (h.gap hpos (hsub piece hpiece hp)).2 hjoined
  · refine Breaks.isChain_iff_steps.2 fun p hp => ?_
    obtain ⟨hlast, hhead, hgap⟩ := Breaks.isChain_iff_steps.1 hdrawn.broken p hp
    obtain ⟨_, _, hmem⟩ := Breaks.isChain_iff_steps.1 hbetween p hp
    exact ⟨hlast, hhead, (h.gap hpos hmem).1 hgap⟩

/-- Six samples two seconds apart, and an hour without any. -/
def outageLine : List TrendDatum := [0, 2000, 4000, 6000, 3606000, 3608000].map (⟨·, ⟨0⟩⟩)

/-- The hour is left blank. -/
theorem outages_blank_hour :
    (segmentsOf outageLine).map List.length = [4, 2] ∧
      (∀ piece ∈ segmentsOf outageLine,
        piece.IsChain fun a b => b.timestampMs - a.timestampMs ≤ 2000 * 3) ∧
      (segmentsOf outageLine).IsChain fun p q => ∃ hp hq,
        2000 * 3 < (q.head hq).timestampMs - (p.getLast hp).timestampMs :=
  ⟨by decide, outages_blank (by decide) (by decide)⟩

/-- A line is drawn whole, or in at most half as many pieces as it has points. -/
theorem pieces_at_most_half (line : List TrendDatum) :
    (segmentsOf line).length ≤ max 1 (line.length / 2) := by
  rw [segmentsOf_eq]
  by_cases hline : line = []
  · rw [hline]
    exact Nat.zero_le _
  rw [Breaks.length_splitBy hline]
  cases hthreshold : gapThresholdMs line with
  | none =>
    have hnone : (steps line).countP (fun p => !joined none p.1 p.2) = 0 :=
      List.countP_eq_zero.2 fun _ _ => Bool.false_ne_true
    rw [hnone]
    exact Nat.le_max_left _ _
  | some threshold =>
    obtain ⟨hlength, median, hmedian, hmpos, rfl⟩ := gapThresholdMs_eq_some hthreshold
    have habove := Median.countP_gt hmedian
    rw [length_deltas, deltas, List.countP_map] at habove
    have hbreaks : (steps line).countP (fun p => !joined (some (median * 3)) p.1 p.2) ≤
        (steps line).countP ((fun delta => decide (median < delta)) ∘
          fun p => p.2.timestampMs - p.1.timestampMs) := by
      refine List.countP_mono_left fun p _ hp => ?_
      simp only [joined, Option.any_some, Bool.not_not, decide_eq_true_eq] at hp
      simp only [Function.comp_apply, decide_eq_true_eq]
      omega
    omega

/-! ## The unit of time -/

/-- The same point on another clock. -/
def moved (rate startMs : Int) (datum : TrendDatum) : TrendDatum :=
  { datum with timestampMs := rate * datum.timestampMs + startMs }

theorem deltas_moved (rate startMs : Int) (line : List TrendDatum) :
    deltas (line.map (moved rate startMs)) = (deltas line).map (rate * ·) := by
  rw [deltas, Breaks.steps_map, List.map_map, deltas, List.map_map]
  refine List.map_congr_left fun p _ => ?_
  simp only [Function.comp_apply, Prod.map, moved]
  ring

theorem gapThresholdMs_moved {rate : Int} (hrate : 0 < rate) (startMs : Int) :
    gapThresholdMs (line.map (moved rate startMs)) = (gapThresholdMs line).map (rate * ·) := by
  have hmono : Monotone fun delta : Int => rate * delta := fun _ _ hle =>
    Int.mul_le_mul_of_nonneg_left hle hrate.le
  rw [gapThresholdMs, gapThresholdMs, List.length_map, deltas_moved, Median.median_map hmono]
  split
  · rfl
  · cases Median.median (deltas line) with
    | none => rfl
    | some median =>
      simp only [Option.map_some, Option.bind_some, mul_pos_iff_of_pos_left hrate]
      split
      · rw [Option.map_some, Int.mul_assoc]
      · rfl

/-- On another clock a line has the same pieces. -/
theorem pieces_move {rate : Int} (hrate : 0 < rate) (startMs : Int) :
    segmentsOf (line.map (moved rate startMs)) =
      (segmentsOf line).map (List.map (moved rate startMs)) := by
  rw [segmentsOf_eq, segmentsOf_eq, gapThresholdMs_moved hrate]
  refine Breaks.splitBy_map fun x y => ?_
  cases gapThresholdMs line with
  | none => rfl
  | some threshold =>
    have hdelta : (moved rate startMs y).timestampMs - (moved rate startMs x).timestampMs =
        rate * (y.timestampMs - x.timestampMs) := by
      simp only [moved]
      ring
    simp only [joined, Option.map_some, Option.any_some, hdelta, Int.mul_lt_mul_left hrate]

/-- One sample a minute is drawn as one every two seconds. -/
theorem pieces_move_minutes :
    (segmentsOf (outageLine.map (moved 30 60000))).map List.length = [4, 2] ∧
      segmentsOf (outageLine.map (moved 30 60000)) =
        (segmentsOf outageLine).map (List.map (moved 30 60000)) :=
  ⟨by decide, pieces_move (by decide) 60000⟩

end

end TrendChart

end Rackio
