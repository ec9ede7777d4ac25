import Rackio.Lib.Outcome
import Rackio.Iroh.Server

/-!
# Serving history

The paging loop of `handle_history`: a page of at most 256 samples is read and written, the cursor
moves behind the last of them, and an empty page ends the stream. Every page is a query of its own;
here the store does not change between them.

Below the largest `i64` the pages neither repeat nor skip a row: the timestamps sent are the first
ones of the range (`timestamps_historyPages`), and all of them when every row is read back
(`historyPages_raw`).
-/

namespace Rackio

/-! ## Keys -/

namespace MetricStore

/-- The keys of the table a resolution reads. -/
def keys (store : MetricStore) : HistoryResolution → List Int
  | .raw => store.samples.keys
  | .minute => store.minutes.keys

/-- Every raw row is stored under the timestamp of its sample. -/
def Keyed (store : MetricStore) : Prop := ∀ r ∈ store.samples.rows, r.2.timestampMs = r.1

end MetricStore

/-- Reading a sample back keeps its timestamp. -/
theorem MetricSample.timestampMs_reread {s s' : MetricSample} (h : s.reread = .ok s') :
    s'.timestampMs = s.timestampMs := by
  unfold MetricSample.reread at h
  split at h
  · cases h
    rfl
  · split at h
    · cases h
      rfl
    · cases h

/-- A sample with finite floats is read back as it is. -/
theorem MetricSample.reread_of_finite {s : MetricSample} (h : s.Finite) : s.reread = .ok s := by
  obtain ⟨hcpu, htemp⟩ := h
  have hfilter := filter_eq_self_of_forall hcpu
  unfold MetricSample.reread
  split
  · next hnone => rw [hfilter]
  · next t ht =>
    obtain ⟨hcelsius, hcritical⟩ := htemp t ht
    rw [if_pos hcelsius, hfilter, filter_eq_self_of_forall hcritical, ← ht]

/-- The sample of a minute row has the minute as its timestamp. -/
theorem MetricStore.timestampMs_minuteSample {m : Int} {row : MinuteRow} {s : MetricSample}
    (h : MetricStore.minuteSample m row = .ok s) : s.timestampMs = m := by
  unfold MetricStore.minuteSample at h
  obtain ⟨memory, -, h⟩ := Outcome.bind_eq_ok_iff.1 h
  obtain ⟨rx, -, h⟩ := Outcome.bind_eq_ok_iff.1 h
  obtain ⟨tx, -, h⟩ := Outcome.bind_eq_ok_iff.1 h
  obtain ⟨diskUsed, -, h⟩ := Outcome.bind_eq_ok_iff.1 h
  obtain ⟨diskTotal, -, h⟩ := Outcome.bind_eq_ok_iff.1 h
  obtain ⟨swapUsed, -, h⟩ := Outcome.bind_eq_ok_iff.1 h
  obtain ⟨swapTotal, -, h⟩ := Outcome.bind_eq_ok_iff.1 h
  obtain ⟨last, -, h⟩ := Outcome.bind_eq_ok_iff.1 h
  cases h
  rfl

namespace MetricStore

variable {store : MetricStore}

/-- The keys of a range of a table. -/
theorem keys_filter {ν : Type} (t : Table Int ν) (fromMs toMs : Int) (limit : Nat) :
    (((t.rows.filter (between fromMs toMs)).take limit).map fun r => r.1) =
      (t.keys.filter fun k => fromMs ≤ k ∧ k ≤ toMs).take limit := by
  rw [List.map_take, Table.keys, List.filter_map]
  rfl

/-- The timestamps of a page are the first keys of its range. -/
theorem timestamps_queryPage (hkeyed : store.Keyed) {fromMs toMs : Int}
    {resolution : HistoryResolution} {limit : Nat} {samples : List MetricSample}
    (h : store.queryPage fromMs toMs resolution limit = .ok samples) :
    samples.map (·.timestampMs) =
      ((store.keys resolution).filter fun k => fromMs ≤ k ∧ k ≤ toMs).take limit := by
  cases resolution with
  | raw =>
    rw [keys, ← keys_filter]
    refine Outcome.map_of_mapM_ok h fun r hr s hs => ?_
    rw [MetricSample.timestampMs_reread hs]
    exact hkeyed r (List.mem_of_mem_filter (List.mem_of_mem_take hr))
  | minute =>
    rw [keys, ← keys_filter]
    exact Outcome.map_of_mapM_ok h fun r _ s hs => timestampMs_minuteSample hs

/-- The keys of a table are in ascending order. -/
theorem pairwise_keys (store : MetricStore) (resolution : HistoryResolution) :
    (store.keys resolution).Pairwise (· < ·) := by
  cases resolution with
  | raw => exact List.pairwise_map.2 store.samples.sorted
  | minute => exact List.pairwise_map.2 store.minutes.sorted

end MetricStore

/-! ## Pages -/

/-- The bodies of the responses to a history request; `other` is any body that is none of the
rest. -/
inductive HistoryBody
  | metricSample (sample : MetricSample)
  | streamComplete
  | error (response : ErrorResponse)
  | other
  deriving DecidableEq, Repr

/-- The source's `HISTORY_PAGE_SIZE`. -/
def historyPageSize : Nat := 256

/-- The loop of `handle_history` from a cursor on. A failed query drops the stream. -/
def historyPages (store : MetricStore) (resolution : HistoryResolution) (toMs : Int) :
    Nat → Int → List HistoryBody
  | 0, _ => []
  | fuel + 1, cursorMs =>
    match store.queryPage cursorMs toMs resolution historyPageSize with
    | .error _ => []
    | .ok samples =>
      match samples.getLast? with
      | none => [.streamComplete]
      | some last =>
        let nextCursorMs := satAddI64 last.timestampMs 1
        samples.map .metricSample ++
          if nextCursorMs ≤ cursorMs then [.streamComplete]
          else historyPages store resolution toMs fuel nextCursorMs

/-- The source's `handle_history`: the bodies it writes. A page that is not the last one moves the
cursor behind a row, so as many pages as rows and two more are enough. -/
def historyStream (permissions : PeerPermissions) (store : MetricStore) (query : HistoryQuery) :
    List HistoryBody :=
  match handleHistory permissions query with
  | .error response => [.error response]
  | .ok (.history fromMs toMs resolution) =>
    historyPages store resolution toMs ((store.keys resolution).length + 2) fromMs
  -- The checks of a history request let nothing else through.
  | .ok _ => []

/-- The samples among the bodies. -/
def samplesOf (bodies : List HistoryBody) : List MetricSample :=
  bodies.filterMap fun
    | .metricSample sample => some sample
    | _ => none

theorem samplesOf_append (l l' : List HistoryBody) :
    samplesOf (l ++ l') = samplesOf l ++ samplesOf l' := List.filterMap_append

theorem samplesOf_map (samples : List MetricSample) :
    samplesOf (samples.map .metricSample) = samples := by
  rw [samplesOf, List.filterMap_map]
  exact List.filterMap_some

section
variable {α : Type} (key : α → Int)

/-- Behind the last element of the front of an ascending list comes the rest. -/
theorem filter_gt_getLast {front rest : List α} {x : α}
    (h : (front ++ rest).Pairwise fun a b => key a < key b) (hx : front.getLast? = some x) :
    (front ++ rest).filter (fun a => key x < key a) = rest := by
  obtain ⟨init, rfl⟩ := List.getLast?_eq_some_iff.1 hx
  obtain ⟨hfront, -, hcross⟩ := List.pairwise_append.1 h
  have hnone : (init ++ [x]).filter (fun a => key x < key a) = [] := by
    refine List.filter_eq_nil_iff.2 fun a ha => ?_
    rw [decide_eq_true_eq, not_lt]
    rcases List.mem_append.1 ha with ha | ha
    · exact ((List.pairwise_append.1 hfront).2.2 a ha x (.head _)).le
    · rw [List.mem_singleton.1 ha]
  have hall : rest.filter (fun a => key x < key a) = rest := by
    refine List.filter_eq_self.2 fun a ha => decide_eq_true ?_
    exact hcross x (List.mem_append_right _ (.head _)) a ha
  rw [List.filter_append, hnone, hall, List.nil_append]

/-- After a page the rest of the range is what lies behind its last element. -/
theorem range_after_page {l : List α} (hl : l.Pairwise fun a b => key a < key b)
    {cursorMs toMs : Int} {limit : Nat} {x : α}
    (hx : ((l.filter fun a => cursorMs ≤ key a ∧ key a ≤ toMs).take limit).getLast? = some x) :
    (l.filter fun a => key x + 1 ≤ key a ∧ key a ≤ toMs) =
        (l.filter fun a => cursorMs ≤ key a ∧ key a ≤ toMs).drop limit ∧
      x ∈ l ∧ cursorMs ≤ key x := by
  obtain ⟨hmem, hbetween⟩ := List.mem_filter.1 (List.mem_of_mem_take (List.mem_of_getLast? hx))
  have hcursor : cursorMs ≤ key x := (of_decide_eq_true hbetween).1
  have hsorted : ((l.filter fun a => cursorMs ≤ key a ∧ key a ≤ toMs).take limit ++
      (l.filter fun a => cursorMs ≤ key a ∧ key a ≤ toMs).drop limit).Pairwise
        fun a b => key a < key b := by
    rw [List.take_append_drop]
    exact hl.filter _
  have hsplit := filter_gt_getLast key hsorted hx
  rw [List.take_append_drop, List.filter_filter] at hsplit
  refine ⟨?_, hmem, hcursor⟩
  rw [← hsplit]
  refine List.filter_congr fun a _ => ?_
  rw [Bool.eq_iff_iff]
  simp only [decide_eq_true_eq, Bool.and_eq_true]
  omega

end

/-- The cursor behind a timestamp below the largest `i64`. -/
theorem satAddI64_one {x : Int} (h : i64Min ≤ x ∧ x < i64Max) : satAddI64 x 1 = x + 1 := by
  unfold satAddI64 i64Min i64Max at *
  omega

/-- The timestamps sent are the first keys of the range, in order and without repetition. -/
theorem timestamps_historyPages {store : MetricStore} (hkeyed : store.Keyed)
    {resolution : HistoryResolution}
    (hmax : ∀ k ∈ store.keys resolution, i64Min ≤ k ∧ k < i64Max) (toMs : Int) (fuel : Nat)
    (cursorMs : Int) :
    (samplesOf (historyPages store resolution toMs fuel cursorMs)).map (·.timestampMs) <+:
      (store.keys resolution).filter fun k => cursorMs ≤ k ∧ k ≤ toMs := by
  induction fuel generalizing cursorMs with
  | zero => exact List.nil_prefix
  | succ fuel ih =>
    unfold historyPages
    cases hpage : store.queryPage cursorMs toMs resolution historyPageSize with
    | error e => exact List.nil_prefix
    | ok samples =>
      have hkeys := MetricStore.timestamps_queryPage hkeyed hpage
      cases hlast : samples.getLast? with
      | none =>
        simp only [hlast]
        exact List.nil_prefix
      | some last =>
        simp only [hlast]
        have hlastKey : (samples.map (·.timestampMs)).getLast? = some last.timestampMs := by
          rw [List.getLast?_map, hlast]
          rfl
        rw [hkeys] at hlastKey
        obtain ⟨hrest, hmem, hcursor⟩ :=
          range_after_page id (store.pairwise_keys resolution) hlastKey
        simp only [id_eq] at hrest hcursor
        rw [satAddI64_one (hmax _ hmem), if_neg (by omega), samplesOf_append, samplesOf_map,
          List.map_append, hkeys]
        have hrec := ih (last.timestampMs + 1)
        rw [hrest] at hrec
        conv_rhs => rw [← List.take_append_drop historyPageSize
          ((store.keys resolution).filter fun k => cursorMs ≤ k ∧ k ≤ toMs)]
        exact (List.prefix_append_right_inj _).2 hrec

/-- When every raw row is read back, the stream is the raw rows of the range and its end. -/
theorem historyPages_raw {store : MetricStore} (hkeyed : store.Keyed)
    (hread : ∀ r ∈ store.samples.rows, r.2.reread = .ok r.2)
    (hmax : ∀ k ∈ store.keys .raw, i64Min ≤ k ∧ k < i64Max) (toMs : Int) {fuel : Nat}
    {cursorMs : Int}
    (hfuel : (store.samples.rows.filter (MetricStore.between cursorMs toMs)).length < fuel) :
    historyPages store .raw toMs fuel cursorMs =
      (store.samples.rows.filter (MetricStore.between cursorMs toMs)).map
        (fun r => .metricSample r.2) ++ [.streamComplete] := by
  induction fuel generalizing cursorMs with
  | zero => cases hfuel
  | succ fuel ih =>
    set range := store.samples.rows.filter (MetricStore.between cursorMs toMs)
    have hpage : store.queryPage cursorMs toMs .raw historyPageSize =
        .ok ((range.take historyPageSize).map (·.2)) :=
      Outcome.mapM_eq_ok_map fun r hr =>
        hread r (List.mem_of_mem_filter (List.mem_of_mem_take hr))
    unfold historyPages
    simp only [hpage]
    cases hlast : (range.take historyPageSize).getLast? with
    | none =>
      have hempty : range = [] := by
        rw [List.getLast?_eq_none_iff, List.take_eq_nil_iff] at hlast
        exact hlast.resolve_left (by decide)
      rw [hempty]
      rfl
    | some last =>
      obtain ⟨hrest, hmem, hcursor⟩ :=
        range_after_page (fun r : Int × MetricSample => r.1) store.samples.sorted hlast
      have hkey := hkeyed last hmem
      have hbounds := hmax last.1 (List.mem_map_of_mem hmem)
      have hlen : 0 < (range.take historyPageSize).length :=
        List.length_pos_of_mem (List.mem_of_getLast? hlast)
      simp only [List.getLast?_map, hlast, Option.map_some, hkey, satAddI64_one hbounds]
      have hdrop : store.samples.rows.filter (MetricStore.between (last.1 + 1) toMs) =
          range.drop historyPageSize := hrest
      rw [if_neg (by omega), ih]
      · rw [hdrop, ← List.append_assoc, List.map_map]
        congr 1
        show (range.take historyPageSize).map (fun r => HistoryBody.metricSample r.2) ++ _ = _
        rw [← List.map_append, List.take_append_drop]
      · rw [hdrop, List.length_drop]
        rw [List.length_take] at hlen
        omega

end Rackio
