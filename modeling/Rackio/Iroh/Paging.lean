import Rackio.Core.History
import Rackio.Iroh.History
import Rackio.Protocol.Wire

/-!
# Paging through a store that changes

`handle_history` lets go of the store between two pages, so that samples are inserted before and
behind its cursor and rows are deleted under it. `Paging` is the loop with every call that may come
in between. A response that cannot be written, because its frame is too long or the connection takes
no more, drops the stream in the middle of a page.

The first part is about a store that does not change: the stream is the range query without a limit
(`historyPages_queryAll`), but for one row. Behind a row at the largest `i64` the cursor cannot
move, and unless it already stands there the row is read and sent a second time.
-/

namespace Rackio

open Wire (Prost Response)

namespace MetricStore

/-- The range query without a limit. -/
def queryAll (store : MetricStore) (fromMs toMs : Int) :
    HistoryResolution → Except StoreError (List MetricSample)
  | .raw => (store.samples.rows.filter (between fromMs toMs)).mapM fun row => row.2.reread
  | .minute => (store.minutes.rows.filter (between fromMs toMs)).mapM fun row =>
    minuteSample row.1 row.2

/-- Every key of the table a resolution reads is an `i64`. -/
def KeysFit (store : MetricStore) (resolution : HistoryResolution) : Prop :=
  ∀ k ∈ store.keys resolution, FitsI64 k

/-- A sample is what a row of the table reads back as. -/
def Holds (store : MetricStore) (resolution : HistoryResolution) (sample : MetricSample) : Prop :=
  match resolution with
  | .raw => ∃ row ∈ store.samples.rows, row.2.reread = .ok sample
  | .minute => ∃ row ∈ store.minutes.rows, minuteSample row.1 row.2 = .ok sample

section
variable {store : MetricStore} {fromMs toMs : Int} {resolution : HistoryResolution}
  {samples : List MetricSample}

/-- The samples of a page are held. -/
theorem holds_of_queryPage {limit : Nat}
    (h : store.queryPage fromMs toMs resolution limit = .ok samples) :
    ∀ sample ∈ samples, store.Holds resolution sample := by
  intro sample hsample
  cases resolution with
  | raw =>
    obtain ⟨row, hrow, hread⟩ := Outcome.mem_of_mapM_ok h sample hsample
    exact ⟨row, List.mem_of_mem_filter (List.mem_of_mem_take hrow), hread⟩
  | minute =>
    obtain ⟨row, hrow, hread⟩ := Outcome.mem_of_mapM_ok h sample hsample
    exact ⟨row, List.mem_of_mem_filter (List.mem_of_mem_take hrow), hread⟩

/-- A page is the front of the range. -/
theorem queryPage_of_queryAll (h : store.queryAll fromMs toMs resolution = .ok samples)
    (limit : Nat) : store.queryPage fromMs toMs resolution limit = .ok (samples.take limit) := by
  cases resolution with
  | raw => exact Outcome.mapM_take h limit
  | minute => exact Outcome.mapM_take h limit

/-- The timestamps of a range are its keys. -/
theorem timestamps_queryAll (hkeyed : store.Keyed)
    (h : store.queryAll fromMs toMs resolution = .ok samples) :
    samples.map (·.timestampMs) =
      (store.keys resolution).filter fun k => fromMs ≤ k ∧ k ≤ toMs := by
  have hpage := timestamps_queryPage hkeyed (queryPage_of_queryAll h samples.length)
  have hlen : ((store.keys resolution).filter fun k => fromMs ≤ k ∧ k ≤ toMs).length =
      samples.length := by
    have hrows {ν : Type} {rows : List (Int × ν)} {read : Int × ν → Except StoreError MetricSample}
        (hread : rows.mapM read = .ok samples) : rows.length = samples.length := by
      have := Outcome.map_of_mapM_ok (g := fun _ => ()) (k := fun _ => ()) hread
        fun _ _ _ _ => rfl
      simpa using (congrArg List.length this).symm
    cases resolution with
    | raw =>
      rw [keys, Table.keys, List.filter_map, List.length_map]
      exact hrows h
    | minute =>
      rw [keys, Table.keys, List.filter_map, List.length_map]
      exact hrows h
  rw [List.take_length] at hpage
  rw [hpage, ← hlen, List.take_length]

/-- The rows of a table from a later cursor on. -/
theorem mapM_from {ν : Type} {table : Table Int ν}
    {read : Int × ν → Except StoreError MetricSample}
    (hread : ∀ row ∈ table.rows, ∀ s, read row = .ok s → s.timestampMs = row.1)
    (h : (table.rows.filter (between fromMs toMs)).mapM read = .ok samples) {cursorMs : Int}
    (hcursor : fromMs ≤ cursorMs) :
    (table.rows.filter (between cursorMs toMs)).mapM read =
      .ok (samples.filter fun s => cursorMs ≤ s.timestampMs) := by
  have hfilter : table.rows.filter (between cursorMs toMs) =
      (table.rows.filter (between fromMs toMs)).filter fun row => cursorMs ≤ row.1 := by
    rw [List.filter_filter]
    refine List.filter_congr fun row _ => ?_
    rw [Bool.eq_iff_iff]
    simp only [between, decide_eq_true_eq, Bool.and_eq_true]
    omega
  rw [hfilter]
  refine Outcome.mapM_filter h fun row hrow s hs => ?_
  rw [hread row (List.mem_of_mem_filter hrow) s hs]

/-- The range from a later cursor on is the samples from there on. -/
theorem queryAll_from (hkeyed : store.Keyed)
    (h : store.queryAll fromMs toMs resolution = .ok samples) {cursorMs : Int}
    (hcursor : fromMs ≤ cursorMs) :
    store.queryAll cursorMs toMs resolution =
      .ok (samples.filter fun s => cursorMs ≤ s.timestampMs) := by
  cases resolution with
  | raw =>
    refine mapM_from (fun row hrow s hs => ?_) h hcursor
    exact (MetricSample.timestampMs_reread hs).trans (hkeyed row hrow)
  | minute => exact mapM_from (fun row _ s hs => timestampMs_minuteSample hs) h hcursor

/-- The samples of a range ascend. -/
theorem sorted_queryAll (hkeyed : store.Keyed)
    (h : store.queryAll fromMs toMs resolution = .ok samples) :
    samples.Pairwise fun a b => a.timestampMs < b.timestampMs := by
  rw [← List.pairwise_map, timestamps_queryAll hkeyed h]
  exact (store.pairwise_keys resolution).filter _

/-- The samples of a range are not before its start, and their timestamps fit. -/
theorem bounds_queryAll (hkeyed : store.Keyed) (hfits : store.KeysFit resolution)
    (h : store.queryAll fromMs toMs resolution = .ok samples) {s : MetricSample}
    (hs : s ∈ samples) : fromMs ≤ s.timestampMs ∧ FitsI64 s.timestampMs := by
  have hmem := List.mem_map_of_mem (f := (·.timestampMs)) hs
  rw [timestamps_queryAll hkeyed h, List.mem_filter, decide_eq_true_eq] at hmem
  exact ⟨hmem.2.1, hfits _ hmem.1⟩

/-- From its last timestamp on, a range has only its last sample. -/
theorem queryAll_last (hkeyed : store.Keyed)
    (h : store.queryAll fromMs toMs resolution = .ok samples) {last : MetricSample}
    (hlast : samples.getLast? = some last) (hfrom : fromMs ≤ last.timestampMs) :
    store.queryAll last.timestampMs toMs resolution = .ok [last] := by
  rw [queryAll_from hkeyed h hfrom]
  have hsorted := sorted_queryAll hkeyed h
  obtain ⟨init, hinit⟩ := List.getLast?_eq_some_iff.1 hlast
  rw [hinit] at hsorted ⊢
  have hnone : init.filter (fun s => last.timestampMs ≤ s.timestampMs) = [] := by
    refine List.filter_eq_nil_iff.2 fun s hs => ?_
    have := (List.pairwise_append.1 hsorted).2.2 s hs last (.head _)
    rw [decide_eq_true_eq]
    omega
  rw [List.filter_append, hnone, List.filter_singleton]
  simp

end

end MetricStore

/-! ## The stream of a store that does not change -/

/-- The loop reads the last row twice: the row is at the largest `i64`, and the cursor does not
stand there when the row is first read, because it started there or because the page before was full
and ended right below. -/
def Repeats (cursorMs : Int) (keys : List Int) : Prop :=
  i64Max ∈ keys ∧ cursorMs ≠ i64Max ∧
    ¬ (historyPageSize ∣ keys.length - 1 ∧ 1 < keys.length ∧ i64Max - 1 ∈ keys)

instance (cursorMs : Int) (keys : List Int) : Decidable (Repeats cursorMs keys) :=
  inferInstanceAs (Decidable (_ ∧ _ ∧ ¬ _))

section
variable {cursorMs x : Int} {front rest keys : List Int}

/-- Of ascending keys up to the largest `i64`, behind the one right below it there is only the
largest. -/
theorem length_behind_last (h : rest.Pairwise (· < ·)) (hbehind : ∀ k ∈ rest, i64Max - 1 < k)
    (hfits : ∀ k ∈ rest, k ≤ i64Max) : rest.length ≤ 1 := by
  match rest with
  | [] => exact Nat.zero_le 1
  | [_] => exact le_rfl
  | a :: b :: _ =>
    have hab : a < b := (List.pairwise_cons.1 h).1 b (.head _)
    have ha := hbehind a (.head _)
    have hb := hfits b (.tail _ (.head _))
    omega

/-- Whether the last row is read twice does not change from one page to the next. -/
theorem repeats_behind_page (h : (front ++ rest).Pairwise (· < ·))
    (hfits : ∀ k ∈ front ++ rest, k ≤ i64Max) (hfull : front.length = historyPageSize)
    (hx : front.getLast? = some x) (hrest : rest ≠ []) (hcursor : cursorMs ≤ x) :
    Repeats (x + 1) rest ↔ Repeats cursorMs (front ++ rest) := by
  obtain ⟨hfront, hsorted, hcross⟩ := List.pairwise_append.1 h
  have hxmem : x ∈ front := List.mem_of_getLast? hx
  have hbehind : ∀ k ∈ rest, x < k := hcross x hxmem
  have hle : ∀ k ∈ front, k ≤ x := by
    obtain ⟨init, rfl⟩ := List.getLast?_eq_some_iff.1 hx
    intro k hk
    rcases List.mem_append.1 hk with hk | hk
    · exact ((List.pairwise_append.1 hfront).2.2 k hk x (.head _)).le
    · rw [List.mem_singleton.1 hk]
  have hpos : 0 < rest.length := List.length_pos_of_ne_nil hrest
  obtain ⟨k, hk⟩ := List.exists_mem_of_ne_nil rest hrest
  have hxlt : x < i64Max := (hbehind k hk).trans_le (hfits k (List.mem_append_right _ hk))
  have hlen : (front ++ rest).length - 1 = historyPageSize + (rest.length - 1) := by
    rw [List.length_append, hfull]
    omega
  have hdvd : historyPageSize ∣ (front ++ rest).length - 1 ↔
      historyPageSize ∣ rest.length - 1 := by
    rw [hlen]
    exact Nat.dvd_add_right (dvd_refl _)
  have hlong : 1 < (front ++ rest).length := by
    rw [List.length_append, hfull, historyPageSize]
    omega
  have hmax : i64Max ∈ front ++ rest ↔ i64Max ∈ rest := by
    rw [List.mem_append]
    exact or_iff_right fun hm => absurd (hle _ hm) (not_le.2 hxlt)
  unfold Repeats
  rw [hmax, hdvd]
  refine and_congr_right fun hmem => ?_
  have hcursorMax : cursorMs ≠ i64Max := by omega
  rcases eq_or_ne (x + 1) i64Max with heq | hne
  · -- the page ended right below the largest key, so that only that one is left
    have hone : rest.length = 1 := by
      have := length_behind_last hsorted (fun k hk => by have := hbehind k hk; omega)
        fun k hk => hfits k (List.mem_append_right _ hk)
      omega
    refine iff_of_false (fun hc => hc.1 heq) fun hc => hc.2 ⟨?_, hlong, ?_⟩
    · rw [hone]
      exact dvd_zero _
    · rw [← heq, Int.add_sub_cancel]
      exact List.mem_append_left _ hxmem
  · have hbelow : i64Max - 1 ∈ front ++ rest ↔ i64Max - 1 ∈ rest := by
      rw [List.mem_append]
      refine or_iff_right fun hm => ?_
      have := hle _ hm
      omega
    have htwo : i64Max - 1 ∈ rest → 1 < rest.length := by
      intro hm
      by_contra hshort
      obtain ⟨y, hy⟩ := List.length_eq_one_iff.1 (show rest.length = 1 by omega)
      rw [hy, List.mem_singleton] at hm hmem
      omega
    rw [hbelow]
    constructor
    · rintro ⟨-, hno⟩
      exact ⟨hcursorMax, fun hc => hno ⟨hc.1, htwo hc.2.2, hc.2.2⟩⟩
    · rintro ⟨-, hno⟩
      exact ⟨hne, fun hc => hno ⟨hc.1, hlong, hc.2.2⟩⟩

/-- The last row of a page that holds the whole rest of the range, at the largest `i64`, is read
twice unless the cursor stands at it. -/
theorem repeats_short_page (hlast : keys.getLast? = some i64Max)
    (hshort : keys.length ≤ historyPageSize) :
    Repeats cursorMs keys ↔ cursorMs ≠ i64Max := by
  refine ⟨fun h => h.2.1, fun hne => ⟨List.mem_of_getLast? hlast, hne, ?_⟩⟩
  rintro ⟨hdvd, hlong, -⟩
  have := Nat.le_of_dvd (by omega) hdvd
  unfold historyPageSize at *
  omega

end

section
variable {store : MetricStore} {resolution : HistoryResolution} {toMs cursorMs : Int}
  {samples : List MetricSample}

/-- What the loop sends of the samples of a range: those, and the last one again if it is read
twice. -/
def sentOf (cursorMs : Int) (samples : List MetricSample) : List MetricSample :=
  samples ++
    if Repeats cursorMs (samples.map (·.timestampMs)) then samples.getLast?.toList else []

/-- A range whose last row is read twice is sent with one sample more. -/
theorem length_sentOf (h : Repeats cursorMs (samples.map (·.timestampMs))) :
    (sentOf cursorMs samples).length = samples.length + 1 := by
  have hne : samples ≠ [] := by
    rintro rfl
    cases h.1
  rw [sentOf, if_pos h, List.length_append, List.getLast?_eq_some_getLast hne]
  rfl

/-- Behind a page that ends below the largest `i64` the rest of the range is sent. -/
theorem sentOf_behind_page (hsorted : samples.Pairwise fun a b => a.timestampMs < b.timestampMs)
    (hfits : ∀ s ∈ samples, s.timestampMs ≤ i64Max) {last : MetricSample}
    (hlast : (samples.take historyPageSize).getLast? = some last)
    (hmax : last.timestampMs < i64Max) (hcursor : cursorMs ≤ last.timestampMs) :
    sentOf cursorMs samples = samples.take historyPageSize ++
      sentOf (last.timestampMs + 1) (samples.drop historyPageSize) := by
  set front := samples.take historyPageSize with hfront
  set rest := samples.drop historyPageSize with hrest
  have hsplit : front ++ rest = samples := List.take_append_drop _ _
  have hkeys : samples.map (·.timestampMs) =
      front.map (·.timestampMs) ++ rest.map (·.timestampMs) := by
    rw [← List.map_append, hsplit]
  have hlastKey : (front.map (·.timestampMs)).getLast? = some last.timestampMs := by
    rw [List.getLast?_map, hlast]
    rfl
  have hpairwise : (front.map (·.timestampMs) ++ rest.map (·.timestampMs)).Pairwise (· < ·) := by
    rw [← hkeys]
    exact List.pairwise_map.2 hsorted
  have hfitsKeys : ∀ k ∈ front.map (·.timestampMs) ++ rest.map (·.timestampMs), k ≤ i64Max := by
    rw [← hkeys]
    intro k hk
    obtain ⟨s, hs, rfl⟩ := List.mem_map.1 hk
    exact hfits s hs
  unfold sentOf
  conv_lhs => rw [← hsplit]
  rw [List.append_assoc, List.map_append]
  congr 2
  rcases eq_or_ne rest [] with hnil | hne
  · -- the page was the last one, and its last key is below the largest
    have hno : ¬ Repeats cursorMs (front.map (·.timestampMs) ++ rest.map (·.timestampMs)) := by
      rintro ⟨hmem, -, -⟩
      rw [hnil, List.map_nil, List.append_nil] at hmem hpairwise
      obtain ⟨init, hinit⟩ := List.getLast?_eq_some_iff.1 hlastKey
      rw [hinit] at hmem hpairwise
      rcases List.mem_append.1 hmem with hmem | hmem
      · have := (List.pairwise_append.1 hpairwise).2.2 _ hmem _ (.head _)
        omega
      · rw [List.mem_singleton] at hmem
        omega
    rw [if_neg hno, hnil]
    simp
  · have hfull : (front.map (·.timestampMs)).length = historyPageSize := by
      have hpos := List.length_pos_of_ne_nil hne
      rw [hrest, List.length_drop] at hpos
      rw [List.length_map, hfront, List.length_take]
      omega
    have hiff := repeats_behind_page hpairwise hfitsKeys hfull hlastKey
      (fun hmap => hne (List.map_eq_nil_iff.1 hmap)) hcursor
    have hgetLast : (front ++ rest).getLast? = rest.getLast? := by
      rw [List.getLast?_append]
      cases hlast' : rest.getLast? with
      | none => exact absurd (List.getLast?_eq_none_iff.1 hlast') hne
      | some s => rfl
    rw [hgetLast]
    simp only [hiff]

/-- A cursor at the largest `i64` ends the loop after its row. -/
theorem historyPages_at_max {last : MetricSample} (hlast : last.timestampMs = i64Max)
    (h : store.queryAll i64Max toMs resolution = .ok [last]) {fuel : Nat} (hfuel : 0 < fuel) :
    historyPages store resolution toMs fuel i64Max = [.metricSample last, .streamComplete] := by
  cases fuel with
  | zero => cases hfuel
  | succ fuel =>
    have hpage := MetricStore.queryPage_of_queryAll h historyPageSize
    have hstop : satAddI64 last.timestampMs 1 ≤ i64Max := by
      rw [hlast]
      decide
    unfold historyPages
    rw [hpage]
    show [HistoryBody.metricSample last] ++ (if satAddI64 last.timestampMs 1 ≤ i64Max then _ else _)
      = _
    rw [if_pos hstop]
    rfl

/-- A page and what lies behind its last row are the range. -/
theorem queryAll_of_page (hkeyed : store.Keyed) {page rest : List MetricSample}
    {last : MetricSample} {limit : Nat}
    (hpage : store.queryPage cursorMs toMs resolution limit = .ok page)
    (hlast : page.getLast? = some last)
    (hrest : store.queryAll (last.timestampMs + 1) toMs resolution = .ok rest) :
    store.queryAll cursorMs toMs resolution = .ok (page ++ rest) := by
  have hkeys := MetricStore.timestamps_queryPage hkeyed hpage
  have hrows {ν : Type} {table : Table Int ν} {read : Int × ν → Except StoreError MetricSample}
      (htable : store.keys resolution = table.keys)
      (hread : ((table.rows.filter (MetricStore.between cursorMs toMs)).take limit).mapM read =
        .ok page)
      (hbehind : (table.rows.filter (MetricStore.between (last.timestampMs + 1) toMs)).mapM read =
        .ok rest) :
      (table.rows.filter (MetricStore.between cursorMs toMs)).mapM read = .ok (page ++ rest) := by
    rw [htable, ← MetricStore.keys_filter] at hkeys
    have hlastKey : (((table.rows.filter (MetricStore.between cursorMs toMs)).take limit).map
        fun r => r.1).getLast? = some last.timestampMs := by
      rw [← hkeys, List.getLast?_map, hlast]
      rfl
    rw [List.getLast?_map, Option.map_eq_some_iff] at hlastKey
    obtain ⟨row, hrow, hkey⟩ := hlastKey
    have hsplit := (range_after_page (fun r : Int × ν => r.1) table.sorted hrow).1
    rw [hkey] at hsplit
    rw [← List.take_append_drop limit (table.rows.filter (MetricStore.between cursorMs toMs))]
    refine Outcome.mapM_append_ok hread ?_
    rw [← hbehind]
    exact congrArg (List.mapM read) hsplit.symm
  cases resolution with
  | raw => exact hrows rfl hpage hrest
  | minute => exact hrows rfl hpage hrest

/-- A range without keys is read as the empty list. -/
theorem queryAll_of_keys_nil
    (h : ((store.keys resolution).filter fun k => cursorMs ≤ k ∧ k ≤ toMs) = []) :
    store.queryAll cursorMs toMs resolution = .ok [] := by
  have hrows {ν : Type} {table : Table Int ν} (htable : store.keys resolution = table.keys) :
      table.rows.filter (MetricStore.between cursorMs toMs) = [] := by
    rw [htable, Table.keys, List.filter_map, List.map_eq_nil_iff] at h
    exact h
  cases resolution with
  | raw =>
    unfold MetricStore.queryAll
    rw [hrows rfl]
    rfl
  | minute =>
    unfold MetricStore.queryAll
    rw [hrows rfl]
    rfl

/-- A stream that ends has read its whole range. -/
theorem readable_of_complete (hkeyed : store.Keyed) (hfits : store.KeysFit resolution)
    {fuel : Nat}
    (h : HistoryBody.streamComplete ∈ historyPages store resolution toMs fuel cursorMs) :
    ∃ samples, store.queryAll cursorMs toMs resolution = .ok samples := by
  induction fuel generalizing cursorMs with
  | zero => cases h
  | succ fuel ih =>
    unfold historyPages at h
    cases hpage : store.queryPage cursorMs toMs resolution historyPageSize with
    | error e =>
      rw [hpage] at h
      cases h
    | ok page =>
      have hkeys := MetricStore.timestamps_queryPage hkeyed hpage
      cases hlast : page.getLast? with
      | none =>
        -- an empty page means that the range has no row
        rw [List.getLast?_eq_none_iff] at hlast
        rw [hlast, List.map_nil, eq_comm, List.take_eq_nil_iff] at hkeys
        exact ⟨[], queryAll_of_keys_nil (hkeys.resolve_left (by decide))⟩
      | some last =>
        have hmem := List.mem_map_of_mem (f := (·.timestampMs)) (List.mem_of_getLast? hlast)
        rw [hkeys] at hmem
        obtain ⟨hkey, hbetween⟩ := List.mem_filter.1 (List.mem_of_mem_take hmem)
        have hfit := hfits _ hkey
        rcases lt_or_eq_of_le hfit.2 with hlt | hmax
        · -- the cursor moved behind the page, and the rest of the range was read
          have hcursor : cursorMs ≤ last.timestampMs := (of_decide_eq_true hbetween).1
          simp only [hpage, hlast] at h
          rw [satAddI64_one ⟨hfit.1, hlt⟩, if_neg (by omega)] at h
          have hcomplete := (List.mem_append.1 h).resolve_left fun hsample => by
            obtain ⟨_, -, hbody⟩ := List.mem_map.1 hsample
            cases hbody
          obtain ⟨rest, hrest⟩ := ih hcomplete
          exact ⟨_, queryAll_of_page hkeyed hpage hlast hrest⟩
        · -- behind the largest `i64` there is no row
          refine ⟨_, queryAll_of_page hkeyed hpage hlast (queryAll_of_keys_nil ?_)⟩
          refine List.filter_eq_nil_iff.2 fun k hk => ?_
          have := (hfits k hk).2
          rw [decide_eq_true_eq]
          omega

/-- The loop sends samples that its rows read back as, and the end of the stream. -/
theorem mem_historyPages {fuel : Nat} {body : HistoryBody}
    (h : body ∈ historyPages store resolution toMs fuel cursorMs) :
    body = .streamComplete ∨ ∃ sample, store.Holds resolution sample ∧
      body = .metricSample sample := by
  induction fuel generalizing cursorMs with
  | zero => cases h
  | succ fuel ih =>
    unfold historyPages at h
    cases hpage : store.queryPage cursorMs toMs resolution historyPageSize with
    | error e =>
      rw [hpage] at h
      cases h
    | ok page =>
      cases hlast : page.getLast? with
      | none =>
        simp only [hpage, hlast, List.mem_singleton] at h
        exact .inl h
      | some last =>
        simp only [hpage, hlast] at h
        rcases List.mem_append.1 h with hsample | hrest
        · obtain ⟨sample, hmem, rfl⟩ := List.mem_map.1 hsample
          exact .inr ⟨sample, MetricStore.holds_of_queryPage hpage sample hmem, rfl⟩
        · split at hrest
          · exact .inl (List.mem_singleton.1 hrest)
          · exact ih hrest

/-- A range whose samples fit one page and end at the largest `i64`: the cursor stays there, and the
last row is read again unless the cursor stood there before. -/
theorem historyPages_to_max (hkeyed : store.Keyed)
    (h : store.queryAll cursorMs toMs resolution = .ok samples)
    (hshort : samples.length ≤ historyPageSize) {last : MetricSample}
    (hlast : samples.getLast? = some last) (hmax : last.timestampMs = i64Max)
    (hcursor : cursorMs ≤ i64Max) {fuel : Nat} (hfuel : 0 < fuel) :
    historyPages store resolution toMs (fuel + 1) cursorMs =
      (sentOf cursorMs samples).map .metricSample ++ [.streamComplete] := by
  have hkeysShort : (samples.map (·.timestampMs)).length ≤ historyPageSize := by
    rw [List.length_map]
    exact hshort
  have hlastKey : (samples.map (·.timestampMs)).getLast? = some i64Max := by
    rw [List.getLast?_map, hlast, Option.map_some, hmax]
  have hstay : satAddI64 last.timestampMs 1 = i64Max := by
    rw [hmax]
    decide
  unfold historyPages
  rw [MetricStore.queryPage_of_queryAll h historyPageSize, List.take_of_length_le hshort]
  dsimp only
  rw [hlast]
  dsimp only
  rw [hstay, sentOf, hlast]
  simp only [repeats_short_page hlastKey hkeysShort]
  rcases eq_or_ne cursorMs i64Max with heq | hne
  · rw [if_pos heq.ge, if_neg (not_not.2 heq), List.append_nil]
  · have hagain := MetricStore.queryAll_last hkeyed h hlast (hmax ▸ hcursor)
    rw [hmax] at hagain
    rw [if_neg (by omega), if_pos hne, historyPages_at_max hmax hagain hfuel]
    simp

/-- On a store that does not change, the stream is the range query without a limit and its end, but
for a last row that is read twice. -/
theorem historyPages_queryAll (hkeyed : store.Keyed) (hfits : store.KeysFit resolution)
    (h : store.queryAll cursorMs toMs resolution = .ok samples) {fuel : Nat}
    (hfuel : samples.length < fuel) :
    historyPages store resolution toMs fuel cursorMs =
      (sentOf cursorMs samples).map .metricSample ++ [.streamComplete] := by
  induction fuel generalizing cursorMs samples with
  | zero => cases hfuel
  | succ fuel ih =>
    have hbounds := fun s hs => MetricStore.bounds_queryAll hkeyed hfits h (s := s) hs
    have hsorted := MetricStore.sorted_queryAll hkeyed h
    have hsplit := List.take_append_drop historyPageSize samples
    cases hlast : (samples.take historyPageSize).getLast? with
    | none =>
      unfold historyPages
      rw [MetricStore.queryPage_of_queryAll h historyPageSize]
      dsimp only
      rw [hlast]
      rw [List.getLast?_eq_none_iff, List.take_eq_nil_iff] at hlast
      rw [hlast.resolve_left (by decide)]
      rfl
    | some last =>
      have hmem : last ∈ samples := List.mem_of_mem_take (List.mem_of_getLast? hlast)
      obtain ⟨hcursor, hfit⟩ := hbounds last hmem
      have hpos : 0 < samples.length := List.length_pos_of_mem hmem
      have hbehind : samples.filter (fun s => last.timestampMs < s.timestampMs) =
          samples.drop historyPageSize := by
        rw [← hsplit] at hsorted
        have := filter_gt_getLast (·.timestampMs) hsorted hlast
        rwa [hsplit] at this
      rcases lt_or_eq_of_le hfit.2 with hlt | hmax
      · -- the cursor moves behind the page
        have hrest : store.queryAll (last.timestampMs + 1) toMs resolution =
            .ok (samples.drop historyPageSize) := by
          rw [MetricStore.queryAll_from hkeyed h (show cursorMs ≤ last.timestampMs + 1 by omega)]
          exact congrArg Except.ok hbehind
        have hfewer : (samples.drop historyPageSize).length < fuel := by
          rw [List.length_drop]
          unfold historyPageSize
          omega
        unfold historyPages
        rw [MetricStore.queryPage_of_queryAll h historyPageSize]
        dsimp only
        rw [hlast]
        dsimp only
        rw [satAddI64_one ⟨hfit.1, hlt⟩, if_neg (by omega), ih hrest hfewer,
          sentOf_behind_page hsorted (fun s hs => (hbounds s hs).2.2) hlast hlt hcursor,
          List.map_append, List.append_assoc]
      · -- the page ends at the largest `i64`, and with it the range
        have hdrop : samples.drop historyPageSize = [] := by
          rw [← hbehind, List.filter_eq_nil_iff]
          intro s hs
          have := (hbounds s hs).2.2
          rw [decide_eq_true_eq]
          omega
        rw [hdrop, List.append_nil] at hsplit
        rw [hsplit] at hlast
        exact historyPages_to_max hkeyed h (List.drop_eq_nil_iff.1 hdrop) hlast hmax
          (hmax ▸ hcursor) (by omega)

end

/-! ## Writing responses -/

/-- The response of a body of `handle_history`; it writes no other bodies. -/
def HistoryBody.toWire : HistoryBody → Response
  | .metricSample sample => ⟨some (.metricSample sample.toWire)⟩
  | .streamComplete => ⟨some .streamComplete⟩
  | .error response => ⟨some (.error response.code response.message)⟩
  | .other => ⟨none⟩

/-- The response of a body fits one frame. -/
def HistoryBody.FitsFrame (p : Prost) (body : HistoryBody) : Prop :=
  Fits bytesCodec (p.encode body.toWire)

instance (p : Prost) (body : HistoryBody) : Decidable (body.FitsFrame p) :=
  inferInstanceAs (Decidable (_ ≤ _))

/-- Some `write_response`s in a row on a connection that takes `room` more frames: the bodies that
are written, and whether these are all of them. -/
def writeBodies (p : Prost) : Nat → List HistoryBody → List HistoryBody × Bool
  | _, [] => ([], true)
  | 0, _ :: _ => ([], false)
  | room + 1, body :: bodies =>
    match writeFrame bytesCodec (p.encode body.toWire) with
    | .error _ => ([], false)
    | .ok _ =>
      let (written, all) := writeBodies p room bodies
      (body :: written, all)

section
variable {p : Prost} {room : Nat} {bodies : List HistoryBody}

/-- What is written comes first, and all is written when no write fails. -/
theorem writeBodies_cases (p : Prost) (room : Nat) (bodies : List HistoryBody) :
    writeBodies p room bodies = (bodies, true) ∨
      ∃ written, written <+: bodies ∧ writeBodies p room bodies = (written, false) := by
  induction bodies generalizing room with
  | nil => exact .inl (by rw [writeBodies])
  | cons body bodies ih =>
    cases room with
    | zero => exact .inr ⟨[], List.nil_prefix, rfl⟩
    | succ room =>
      rw [writeBodies]
      split
      · exact .inr ⟨[], List.nil_prefix, rfl⟩
      · rcases ih room with hall | ⟨written, hpre, hcut⟩
        · exact .inl (by rw [hall])
        · exact .inr ⟨body :: written, List.cons_prefix_cons.2 ⟨rfl, hpre⟩, by rw [hcut]⟩

/-- Bodies that fit are all written while the connection takes them. -/
theorem writeBodies_of_fits (hfits : ∀ body ∈ bodies, body.FitsFrame p)
    (hroom : bodies.length ≤ room) : writeBodies p room bodies = (bodies, true) := by
  induction bodies generalizing room with
  | nil => rw [writeBodies]
  | cons body bodies ih =>
    obtain ⟨hbody, hbodies⟩ := List.forall_mem_cons.1 hfits
    rw [List.length_cons] at hroom
    obtain ⟨room, rfl⟩ := Nat.exists_eq_add_of_le' (Nat.one_le_of_lt hroom)
    rw [writeBodies, writeFrame_of_fits bytesCodec hbody, ih hbodies (by omega)]

end

/-! ## The loop among the other calls -/

/-- How the loop of `handle_history` stands: it reads pages, it ended the stream, or a query or a
write failed and the stream was dropped. -/
inductive PagingPhase
  | reading | complete | dropped
  deriving DecidableEq, Repr

/-- The store, and the loop that pages through it: its cursor and the bodies it has written. -/
structure Paging where
  store : MetricStore
  cursorMs : Int
  written : List HistoryBody
  phase : PagingPhase

/-- A call of the agent that changes the store, or the next page, for which the connection takes
`room` frames. -/
inductive PagingEvent
  | store (event : MetricStore.Event)
  | page (room : Nat)

namespace Paging

/-- The loop before its first page. -/
def start (store : MetricStore) (fromMs : Int) : Paging := ⟨store, fromMs, [], .reading⟩

/-- The end of `handle_history`, behind its loop. -/
def writeEnd (p : Prost) (room : Nat) (s : Paging) : Paging :=
  match writeBodies p room [.streamComplete] with
  | (_, false) => { s with phase := .dropped }
  | (written, true) => { s with written := s.written ++ written, phase := .complete }

/-- One turn of the loop of `handle_history`, whose `toMs` and `resolution` do not change. -/
def readPage (p : Prost) (resolution : HistoryResolution) (toMs : Int) (room : Nat) (s : Paging) :
    Paging :=
  match s.store.queryPage s.cursorMs toMs resolution historyPageSize with
  | .error _ => { s with phase := .dropped }
  | .ok samples =>
    match samples.getLast? with
    | none => s.writeEnd p room
    | some last =>
      match writeBodies p room (samples.map .metricSample) with
      | (written, false) => { s with written := s.written ++ written, phase := .dropped }
      | (written, true) =>
        let nextCursorMs := satAddI64 last.timestampMs 1
        let s' := { s with written := s.written ++ written }
        if nextCursorMs ≤ s.cursorMs then s'.writeEnd p (room - samples.length)
        else { s' with cursorMs := nextCursorMs }

/-- One step; `none` when the loop has ended and reads no page any more. -/
def step (p : Prost) (resolution : HistoryResolution) (toMs : Int) (s : Paging) :
    PagingEvent → Option Paging
  | .store event => some { s with store := s.store.step event }
  | .page room => if s.phase = .reading then some (s.readPage p resolution toMs room) else none

/-- The timestamps sent so far. -/
def sent (s : Paging) : List Int := (samplesOf s.written).map (·.timestampMs)

end Paging

/-- A call inserts samples whose timestamps are `i64` below the largest. -/
def PagingEvent.Below : PagingEvent → Prop
  | .store (.insertBatch samples) => ∀ x ∈ samples, i64Min ≤ x.timestampMs ∧ x.timestampMs < i64Max
  | _ => True

/-- The steps in which no inserted sample is stamped with the largest `i64`. -/
abbrev PagingStep (p : Prost) (resolution : HistoryResolution) (toMs : Int) :
    Paging → PagingEvent → Paging → Prop :=
  Lts.Guarded (fun _ e => e.Below) (Lts.Fires (Paging.step p resolution toMs))

/-! ## Keys of a store -/

/-- The rows of a store are kept under the timestamps of their samples, which are `i64` below the
largest, and the minutes are too. -/
structure MetricStore.KeysBelow (store : MetricStore) : Prop where
  keyed : store.Keyed
  below : ∀ resolution, ∀ k ∈ store.keys resolution, i64Min ≤ k ∧ k < i64Max

/-- A minute is an `i64`, and since it is even it is not the largest. -/
theorem minuteKey_below (timestampMs : Int) :
    i64Min ≤ minuteKey timestampMs ∧ minuteKey timestampMs < i64Max := by
  unfold minuteKey wrapI64 minuteMs i64Min i64Max
  omega

namespace MetricStore

/-- A new file has no rows. -/
theorem KeysBelow.new : MetricStore.new.KeysBelow where
  keyed := fun _ h => absurd h List.not_mem_nil
  below := by
    intro resolution k hk
    cases resolution with
    | raw => cases hk
    | minute => cases hk

/-- A row of a store after one sample is an old one or that of the sample. -/
theorem mem_samples_insertSample {store : MetricStore} {x : MetricSample} {r : Int × MetricSample}
    (h : r ∈ (store.insertSample x).samples.rows) :
    r ∈ store.samples.rows ∨ r = (x.timestampMs, x) := by
  unfold insertSample at h
  split at h
  · exact .inl h
  · exact (Table.mem_insertRows h).symm

/-- A batch keeps the rows under their timestamps. -/
theorem KeysBelow.insertBatch {store : MetricStore} (h : store.KeysBelow)
    {samples : List MetricSample}
    (hbelow : ∀ x ∈ samples, i64Min ≤ x.timestampMs ∧ x.timestampMs < i64Max) :
    (store.insertBatch samples).KeysBelow := by
  have hrows : ∀ r ∈ (store.insertBatch samples).samples.rows,
      r ∈ store.samples.rows ∨ ∃ x ∈ samples, r = (x.timestampMs, x) := by
    unfold MetricStore.insertBatch
    clear h hbelow
    induction samples generalizing store with
    | nil => exact fun r hr => .inl hr
    | cons x samples ih =>
      intro r hr
      rcases ih r hr with hold | ⟨y, hy, heq⟩
      · rcases mem_samples_insertSample hold with hold | heq
        · exact .inl hold
        · exact .inr ⟨x, .head _, heq⟩
      · exact .inr ⟨y, .tail _ hy, heq⟩
  constructor
  · intro r hr
    rcases hrows r hr with hold | ⟨x, -, rfl⟩
    · exact h.keyed r hold
    · rfl
  · intro resolution k hk
    cases resolution with
    | raw =>
      obtain ⟨r, hr, rfl⟩ := List.mem_map.1 hk
      rcases hrows r hr with hold | ⟨x, hx, rfl⟩
      · exact h.below .raw r.1 (List.mem_map_of_mem hold)
      · exact hbelow x hx
    | minute =>
      obtain ⟨r, hr, rfl⟩ := List.mem_map.1 hk
      rcases mem_minutes_insertBatch hr with ⟨r', hold, heq⟩ | ⟨x, hx, heq⟩
      · rw [← heq]
        exact h.below .minute r'.1 (List.mem_map_of_mem hold)
      · rw [heq]
        exact minuteKey_below x.timestampMs

/-- A `prune` deletes rows only. -/
theorem KeysBelow.prune {store : MetricStore} (h : store.KeysBelow) (nowMs : Int)
    (liveSize : Nat → Int) : (store.prune nowMs liveSize).KeysBelow := by
  obtain ⟨hsamples, hminutes⟩ := prune_pruned store nowMs liveSize
  refine ⟨fun r hr => h.keyed r (hsamples hr), fun resolution k hk => ?_⟩
  cases resolution with
  | raw =>
    obtain ⟨r, hr, rfl⟩ := List.mem_map.1 hk
    exact h.below .raw r.1 (List.mem_map_of_mem (hsamples hr))
  | minute =>
    obtain ⟨r, hr, rfl⟩ := List.mem_map.1 hk
    exact h.below .minute r.1 (List.mem_map_of_mem (hminutes hr))

end MetricStore

/-! ## What a step does -/

/-- What a step can do on a store whose keys are below the largest `i64`. -/
inductive Paging.Moves (resolution : HistoryResolution) (toMs : Int) (s : Paging) :
    PagingEvent → Paging → Prop
  | stored (event : MetricStore.Event) :
      Moves resolution toMs s (.store event) { s with store := s.store.step event }
  | dropped (room : Nat) (phase : s.phase = .reading) (samples : List MetricSample)
      (page : samples.map (·.timestampMs) <+:
        ((s.store.keys resolution).filter fun k => s.cursorMs ≤ k ∧ k ≤ toMs).take
          historyPageSize) :
      Moves resolution toMs s (.page room)
        { s with written := s.written ++ samples.map .metricSample, phase := .dropped }
  | ended (room : Nat) (phase : s.phase = .reading)
      (empty : (s.store.keys resolution).filter (fun k => s.cursorMs ≤ k ∧ k ≤ toMs) = []) :
      Moves resolution toMs s (.page room)
        { s with written := s.written ++ [.streamComplete], phase := .complete }
  | read (room : Nat) (phase : s.phase = .reading) (samples : List MetricSample) (last : Int)
      (page : samples.map (·.timestampMs) =
        ((s.store.keys resolution).filter fun k => s.cursorMs ≤ k ∧ k ≤ toMs).take historyPageSize)
      (getLast : (samples.map (·.timestampMs)).getLast? = some last) :
      Moves resolution toMs s (.page room)
        { s with written := s.written ++ samples.map .metricSample, cursorMs := last + 1 }

section
variable {p : Prost} {resolution : HistoryResolution} {fromMs toMs : Int} {s t : Paging}
  {e : PagingEvent} {room : Nat}

/-- A loop that stops without a row of the page drops the stream. -/
theorem Paging.Moves.dropped_nil (hphase : s.phase = .reading) :
    s.Moves resolution toMs (.page room) { s with phase := .dropped } := by
  have h : s.Moves resolution toMs (.page room) _ := .dropped room hphase [] List.nil_prefix
  rwa [List.map_nil, List.append_nil] at h

/-- The first bodies of a page are the first samples of it. -/
theorem exists_samples_of_prefix {written : List HistoryBody} {samples : List MetricSample}
    (h : written <+: samples.map .metricSample) :
    ∃ samples', samples' <+: samples ∧ written = samples'.map .metricSample := by
  obtain ⟨rest, hrest⟩ := h
  obtain ⟨samples', behind, rfl, rfl, -⟩ := List.map_eq_append_iff.1 hrest.symm
  exact ⟨samples', List.prefix_append _ _, rfl⟩

/-- A step does one of these. -/
theorem Paging.moves_of_step (hkeys : s.store.KeysBelow)
    (h : Lts.Fires (Paging.step p resolution toMs) s e t) : s.Moves resolution toMs e t := by
  cases e with
  | store event =>
    cases h
    exact .stored event
  | page room =>
    simp only [Lts.Fires, Paging.step] at h
    split at h
    · next hphase =>
      cases h
      unfold Paging.readPage
      cases hpage : s.store.queryPage s.cursorMs toMs resolution historyPageSize with
      | error e => exact .dropped_nil hphase
      | ok samples =>
        have htimestamps := MetricStore.timestamps_queryPage hkeys.keyed hpage
        cases hlast : samples.getLast? with
        | none =>
          simp only [hlast]
          rw [List.getLast?_eq_none_iff.1 hlast, List.map_nil, eq_comm, List.take_eq_nil_iff]
            at htimestamps
          unfold Paging.writeEnd
          rcases writeBodies_cases p room [.streamComplete] with hall | ⟨_, -, hcut⟩
          · rw [hall]
            exact .ended room hphase (htimestamps.resolve_left (by decide))
          · rw [hcut]
            exact .dropped_nil hphase
        | some last =>
          have hlastKey : (samples.map (·.timestampMs)).getLast? = some last.timestampMs := by
            rw [List.getLast?_map, hlast]
            rfl
          have hmem := List.mem_of_getLast? hlastKey
          rw [htimestamps] at hmem
          obtain ⟨hkey, hbetween⟩ := List.mem_filter.1 (List.mem_of_mem_take hmem)
          rw [decide_eq_true_eq] at hbetween
          simp only [hlast]
          rcases writeBodies_cases p room (samples.map .metricSample) with
            hall | ⟨written, hpre, hcut⟩
          · rw [hall]
            dsimp only
            rw [satAddI64_one (hkeys.below resolution _ hkey), if_neg (by omega)]
            exact .read room hphase samples last.timestampMs htimestamps hlastKey
          · -- the samples before the one that was not written are sent
            rw [hcut]
            obtain ⟨samples', hpre', rfl⟩ := exists_samples_of_prefix hpre
            exact .dropped room hphase samples' (htimestamps ▸ hpre'.map _)
    · cases h

/-- A page with a sample that is not written ends with what was written before it. -/
theorem Paging.readPage_of_cut {samples : List MetricSample} {last : MetricSample}
    {written : List HistoryBody}
    (hpage : s.store.queryPage s.cursorMs toMs resolution historyPageSize = .ok samples)
    (hlast : samples.getLast? = some last)
    (hcut : writeBodies p room (samples.map .metricSample) = (written, false)) :
    s.readPage p resolution toMs room =
      { s with written := s.written ++ written, phase := .dropped } := by
  rw [readPage, hpage]
  simp only [hlast, hcut]

/-- A step keeps the keys of the store below the largest `i64`. -/
theorem MetricStore.KeysBelow.step (hkeys : s.store.KeysBelow)
    (h : PagingStep p resolution toMs s e t) : t.store.KeysBelow := by
  obtain ⟨hbelow, hfires⟩ := h
  cases Paging.moves_of_step hkeys hfires with
  | stored event =>
    cases event with
    | insertBatch samples => exact hkeys.insertBatch hbelow
    | prune nowMs liveSize => exact hkeys.prune nowMs liveSize
  | dropped | ended | read => exact hkeys

/-- What is sent stays when the end of the stream is written. -/
theorem Paging.sent_complete (s : Paging) : Paging.sent
    { s with written := s.written ++ [.streamComplete], phase := .complete } = s.sent := by
  rw [Paging.sent, samplesOf_append]
  exact congrArg (List.map _) (List.append_nil _)

/-- Samples that are written are sent behind what was sent. -/
theorem Paging.sent_of_written {samples : List MetricSample}
    (h : t.written = s.written ++ samples.map .metricSample) :
    t.sent = s.sent ++ samples.map (·.timestampMs) := by
  rw [Paging.sent, h, samplesOf_append, samplesOf_map, List.map_append]
  rfl

/-- What every reachable state of the loop satisfies. -/
structure Paging.Ordered (fromMs toMs : Int) (s : Paging) : Prop where
  keys : s.store.KeysBelow
  cursor : fromMs ≤ s.cursorMs
  sorted : s.sent.Pairwise (· < ·)
  range : ∀ k ∈ s.sent, fromMs ≤ k ∧ k ≤ toMs
  behind : s.phase = .reading → ∀ k ∈ s.sent, k < s.cursorMs
  written : s.written = (samplesOf s.written).map .metricSample ++
    if s.phase = .complete then [.streamComplete] else []

/-- The first keys of a page are in order, and keys of the range from the cursor on. -/
theorem Paging.page_keys {keys : List Int}
    (hpage : keys <+: ((s.store.keys resolution).filter fun k =>
      s.cursorMs ≤ k ∧ k ≤ toMs).take historyPageSize) :
    keys.Pairwise (· < ·) ∧
      ∀ k ∈ keys, k ∈ s.store.keys resolution ∧ s.cursorMs ≤ k ∧ k ≤ toMs := by
  constructor
  · exact ((s.store.pairwise_keys resolution).filter _).sublist
      (hpage.sublist.trans (List.take_sublist _ _))
  · intro k hk
    obtain ⟨hkey, hbetween⟩ := List.mem_filter.1 (List.mem_of_mem_take (hpage.subset hk))
    exact ⟨hkey, of_decide_eq_true hbetween⟩

/-- No key of a list in order is greater than its last one. -/
theorem le_of_getLast? {keys : List Int} {last k : Int} (hsorted : keys.Pairwise (· < ·))
    (hlast : keys.getLast? = some last) (hk : k ∈ keys) : k ≤ last := by
  obtain ⟨init, rfl⟩ := List.getLast?_eq_some_iff.1 hlast
  rcases List.mem_append.1 hk with hk | hk
  · exact ((List.pairwise_append.1 hsorted).2.2 k hk last (.head _)).le
  · rw [List.mem_singleton.1 hk]

/-- Keys of a page that are sent continue what was sent. -/
theorem Paging.Ordered.sent_page (h : s.Ordered fromMs toMs) (hphase : s.phase = .reading)
    {keys : List Int}
    (hpage : keys <+: ((s.store.keys resolution).filter fun k =>
      s.cursorMs ≤ k ∧ k ≤ toMs).take historyPageSize) :
    (s.sent ++ keys).Pairwise (· < ·) ∧ ∀ k ∈ s.sent ++ keys, fromMs ≤ k ∧ k ≤ toMs := by
  obtain ⟨hsorted, hmem⟩ := Paging.page_keys hpage
  constructor
  · refine List.pairwise_append.2 ⟨h.sorted, hsorted, fun a ha b hb => ?_⟩
    exact (h.behind hphase a ha).trans_le (hmem b hb).2.1
  · intro k hk
    rcases List.mem_append.1 hk with hk | hk
    · exact h.range k hk
    · exact ⟨h.cursor.trans (hmem k hk).2.1, (hmem k hk).2.2⟩

/-- Samples that are written behind samples leave only samples. -/
theorem Paging.Ordered.written_samples (h : s.Ordered fromMs toMs) (hphase : s.phase = .reading)
    (samples : List MetricSample) :
    s.written ++ samples.map .metricSample =
      (samplesOf (s.written ++ samples.map .metricSample)).map .metricSample := by
  have hwritten := h.written
  rw [hphase, if_neg nofun, List.append_nil] at hwritten
  rw [samplesOf_append, samplesOf_map, List.map_append, ← hwritten]

/-- One step keeps the order. -/
theorem Paging.Ordered.step (h : s.Ordered fromMs toMs)
    (hstep : PagingStep p resolution toMs s e t) : t.Ordered fromMs toMs := by
  have hkeys := h.keys.step hstep
  cases Paging.moves_of_step h.keys hstep.2 with
  | stored event => exact ⟨hkeys, h.cursor, h.sorted, h.range, h.behind, h.written⟩
  | dropped room hphase samples hpage =>
    obtain ⟨hsorted, hrange⟩ := h.sent_page hphase hpage
    refine ⟨hkeys, h.cursor, ?_, ?_, nofun, ?_⟩
    · rw [Paging.sent_of_written rfl]
      exact hsorted
    · rw [Paging.sent_of_written rfl]
      exact hrange
    · rw [if_neg nofun, List.append_nil]
      exact h.written_samples hphase samples
  | ended room hphase hempty =>
    have hsent := s.sent_complete
    refine ⟨hkeys, h.cursor, ?_, ?_, nofun, ?_⟩
    · rw [hsent]
      exact h.sorted
    · rw [hsent]
      exact h.range
    · have hwritten := h.written_samples hphase []
      rw [List.map_nil, List.append_nil] at hwritten
      show s.written ++ [.streamComplete] =
        (samplesOf (s.written ++ [.streamComplete])).map .metricSample ++ [.streamComplete]
      rw [samplesOf_append, show samplesOf [HistoryBody.streamComplete] = [] from rfl,
        List.append_nil, ← hwritten]
  | read room hphase samples last hpage hlast =>
    have hpre : samples.map (·.timestampMs) <+: _ := ⟨[], (List.append_nil _).trans hpage⟩
    obtain ⟨hsorted, hrange⟩ := h.sent_page hphase hpre
    obtain ⟨hpageSorted, hmem⟩ := Paging.page_keys hpre
    have hcursor : s.cursorMs ≤ last := (hmem last (List.mem_of_getLast? hlast)).2.1
    refine ⟨hkeys, ?_, ?_, ?_, fun _ k hk => ?_, ?_⟩
    · show fromMs ≤ last + 1
      have := h.cursor
      omega
    · rw [Paging.sent_of_written rfl]
      exact hsorted
    · rw [Paging.sent_of_written rfl]
      exact hrange
    · rw [Paging.sent_of_written rfl] at hk
      show k < last + 1
      rcases List.mem_append.1 hk with hk | hk
      · have := h.behind hphase k hk
        omega
      · have := le_of_getLast? hpageSorted hlast hk
        omega
    · dsimp only
      rw [hphase, if_neg nofun, List.append_nil]
      exact h.written_samples hphase samples

/-- Before the first page. -/
theorem Paging.ordered_start {store : MetricStore} (hkeys : store.KeysBelow) (fromMs toMs : Int) :
    (Paging.start store fromMs).Ordered fromMs toMs where
  keys := hkeys
  cursor := le_rfl
  sorted := .nil
  range _ h := absurd h List.not_mem_nil
  behind _ _ h := absurd h List.not_mem_nil
  written := rfl

/-- Every reachable state is in order. -/
theorem Paging.ordered_of_run {store : MetricStore} (hkeys : store.KeysBelow)
    {es : List PagingEvent}
    (hrun : Lts.Run (PagingStep p resolution toMs) (.start store fromMs) es t) :
    t.Ordered fromMs toMs :=
  hrun.invariant (Paging.ordered_start hkeys fromMs toMs) fun _ _ _ h hstep => h.step hstep

end

/-! ## What a run sends -/

/-- A key was in the store at every moment of a run. -/
def StoredThroughout (p : Prost) (resolution : HistoryResolution) (toMs : Int) (start : Paging)
    (es : List PagingEvent) (k : Int) : Prop :=
  ∀ es' s, es' <+: es → Lts.Run (PagingStep p resolution toMs) start es' s →
    k ∈ s.store.keys resolution

/-- A key was in the store at some moment of a run. -/
def StoredOnce (p : Prost) (resolution : HistoryResolution) (toMs : Int) (start : Paging)
    (es : List PagingEvent) (k : Int) : Prop :=
  ∃ es' s, es' <+: es ∧ Lts.Run (PagingStep p resolution toMs) start es' s ∧
    k ∈ s.store.keys resolution

section
variable {p : Prost} {resolution : HistoryResolution} {fromMs toMs : Int} {store : MetricStore}
  {es : List PagingEvent} {t : Paging} {k : Int}

/-- Every timestamp sent was the key of a row when its page was read. -/
theorem stored_of_sent (hkeys : store.KeysBelow)
    (hrun : Lts.Run (PagingStep p resolution toMs) (.start store fromMs) es t) :
    ∀ k ∈ t.sent, StoredOnce p resolution toMs (.start store fromMs) es k := by
  refine hrun.history (I := fun es t => ∀ k ∈ t.sent,
    StoredOnce p resolution toMs (.start store fromMs) es k) ?_ ?_
  · intro k hk
    cases hk
  · intro es s e t hrun ih hstep k hk
    have hold : ∀ k ∈ s.sent,
        StoredOnce p resolution toMs (.start store fromMs) (es ++ [e]) k := by
      intro k hk
      obtain ⟨es', s', hpre, hrun', hkey⟩ := ih k hk
      exact ⟨es', s', hpre.trans (List.prefix_append es [e]), hrun', hkey⟩
    have hnow : ∀ keys, keys <+: ((s.store.keys resolution).filter fun k =>
        s.cursorMs ≤ k ∧ k ≤ toMs).take historyPageSize → ∀ k ∈ keys,
          StoredOnce p resolution toMs (.start store fromMs) (es ++ [e]) k :=
      fun keys hpage k hk =>
        ⟨es, s, List.prefix_append es [e], hrun, ((Paging.page_keys hpage).2 k hk).1⟩
    cases Paging.moves_of_step (Paging.ordered_of_run hkeys hrun).keys hstep.2 with
    | stored => exact hold k hk
    | ended =>
      rw [s.sent_complete] at hk
      exact hold k hk
    | dropped room hphase samples hpage =>
      rw [Paging.sent_of_written rfl] at hk
      exact (List.mem_append.1 hk).elim (hold k) (hnow _ hpage k)
    | read room hphase samples last hpage hlast =>
      rw [Paging.sent_of_written rfl] at hk
      exact (List.mem_append.1 hk).elim (hold k) (hnow _ ⟨[], (List.append_nil _).trans hpage⟩ k)

/-- A key of the range that stays in the store is sent, or still ahead of the cursor. -/
theorem sent_or_ahead (hkeys : store.KeysBelow) (hfrom : fromMs ≤ k) (hto : k ≤ toMs)
    (hrun : Lts.Run (PagingStep p resolution toMs) (.start store fromMs) es t)
    (hstored : StoredThroughout p resolution toMs (.start store fromMs) es k) :
    k ∈ t.sent ∨ t.cursorMs ≤ k ∧ t.phase ≠ .complete := by
  revert hstored
  refine hrun.history (I := fun es t =>
    StoredThroughout p resolution toMs (.start store fromMs) es k →
      k ∈ t.sent ∨ t.cursorMs ≤ k ∧ t.phase ≠ .complete) ?_ ?_
  · exact fun _ => .inr ⟨hfrom, nofun⟩
  · intro es s e t hrun ih hstep hstored
    have hbefore : StoredThroughout p resolution toMs (.start store fromMs) es k :=
      fun es' s' hpre => hstored es' s' (hpre.trans (List.prefix_append es [e]))
    have hkey : k ∈ s.store.keys resolution := hbefore es s List.prefix_rfl hrun
    have ih := ih hbefore
    cases Paging.moves_of_step (Paging.ordered_of_run hkeys hrun).keys hstep.2 with
    | stored => exact ih
    | dropped room hphase samples hpage =>
      rw [Paging.sent_of_written rfl, List.mem_append]
      exact ih.imp .inl fun h => ⟨h.1, nofun⟩
    | ended room hphase hempty =>
      -- an empty page means that no key is ahead of the cursor
      rw [s.sent_complete]
      refine ih.imp_right fun h => ?_
      have hmem : k ∈ (s.store.keys resolution).filter fun k => s.cursorMs ≤ k ∧ k ≤ toMs :=
        List.mem_filter.2 ⟨hkey, decide_eq_true ⟨h.1, hto⟩⟩
      rw [hempty] at hmem
      cases hmem
    | read room hphase samples last hpage hlast =>
      rw [Paging.sent_of_written rfl, List.mem_append]
      rcases ih with hsent | ⟨hahead, -⟩
      · exact .inl (.inl hsent)
      · have hmem : k ∈ (s.store.keys resolution).filter fun k => s.cursorMs ≤ k ∧ k ≤ toMs :=
          List.mem_filter.2 ⟨hkey, decide_eq_true ⟨hahead, hto⟩⟩
        rw [hpage] at hlast
        obtain ⟨hrest, -, -⟩ := range_after_page id (s.store.pairwise_keys resolution) hlast
        rw [← List.take_append_drop historyPageSize
          ((s.store.keys resolution).filter fun k => s.cursorMs ≤ k ∧ k ≤ toMs)] at hmem
        rcases List.mem_append.1 hmem with hmem | hmem
        · rw [hpage]
          exact .inl (.inr hmem)
        · -- what the page leaves is behind its last key
          simp only [id_eq] at hrest
          rw [← hrest, List.mem_filter, decide_eq_true_eq] at hmem
          refine .inr ⟨hmem.2.1, ?_⟩
          show s.phase ≠ .complete
          rw [hphase]
          exact nofun

/-- The end of a stream that fits is written while the connection takes it. -/
theorem Paging.writeEnd_of_fits {room : Nat} (hend : HistoryBody.streamComplete.FitsFrame p)
    (hroom : 0 < room) (s : Paging) : s.writeEnd p room =
      { s with written := s.written ++ [.streamComplete], phase := .complete } := by
  rw [writeEnd, writeBodies_of_fits (by simpa using hend) hroom]

/-- The loop alone writes what `historyPages` says, when all of it fits. -/
theorem run_pages {room : Nat} (hroom : historyPageSize < room) (resolution : HistoryResolution)
    (toMs : Int) (fuel : Nat) (s : Paging) (hkeyed : s.store.Keyed) (hphase : s.phase = .reading)
    (hend : HistoryBody.streamComplete.FitsFrame p)
    (hfits : ∀ body ∈ historyPages s.store resolution toMs fuel s.cursorMs, body.FitsFrame p) :
    ∃ n t, Lts.Run (PagingStep p resolution toMs) s (List.replicate n (.page room)) t ∧
      t.written = s.written ++ historyPages s.store resolution toMs fuel s.cursorMs := by
  induction fuel generalizing s with
  | zero => exact ⟨0, s, .nil, (List.append_nil _).symm⟩
  | succ fuel ih =>
    have hstep : PagingStep p resolution toMs s (.page room) (s.readPage p resolution toMs room) :=
      ⟨trivial, if_pos hphase⟩
    have hone : Lts.Run (PagingStep p resolution toMs) s (List.replicate 1 (.page room))
        (s.readPage p resolution toMs room) := Lts.run_cons_iff.2 ⟨_, hstep, .nil⟩
    unfold historyPages at hfits ⊢
    unfold Paging.readPage at hstep hone
    cases hpage : s.store.queryPage s.cursorMs toMs resolution historyPageSize with
    | error e =>
      simp only [hpage] at hone
      exact ⟨1, _, hone, (List.append_nil _).symm⟩
    | ok samples =>
      have hlen : samples.length ≤ historyPageSize := by
        have h := congrArg List.length (MetricStore.timestamps_queryPage hkeyed hpage)
        rw [List.length_map] at h
        exact h.trans_le (List.length_take_le _ _)
      simp only [hpage] at hone hstep hfits
      cases hlast : samples.getLast? with
      | none =>
        simp only [hlast] at hone
        rw [s.writeEnd_of_fits hend (by omega)] at hone
        exact ⟨1, _, hone, by simp only [hlast]⟩
      | some last =>
        simp only [hlast] at hone hstep hfits
        rw [writeBodies_of_fits (fun body hbody => hfits body (List.mem_append_left _ hbody))
          (by rw [List.length_map]; omega)] at hone hstep
        dsimp only at hone hstep
        by_cases hstop : satAddI64 last.timestampMs 1 ≤ s.cursorMs
        · rw [if_pos hstop, Paging.writeEnd_of_fits hend (by omega)] at hone
          refine ⟨1, _, hone, ?_⟩
          simp only [hlast, if_pos hstop, List.append_assoc]
        · rw [if_neg hstop] at hstep
          simp only [if_neg hstop] at hfits
          obtain ⟨n, t, hrun, hwritten⟩ := ih { s with
            written := s.written ++ samples.map .metricSample
            cursorMs := satAddI64 last.timestampMs 1 } hkeyed hphase
            fun body hbody => hfits body (List.mem_append_right _ hbody)
          refine ⟨n + 1, t, ?_, ?_⟩
          · rw [List.replicate_succ]
            exact Lts.run_cons_iff.2 ⟨_, hstep, hrun⟩
          · rw [hwritten]
            simp only [hlast, if_neg hstop, List.append_assoc]

/-- On a store that does not change, the loop ends after the range query without a limit. -/
theorem complete_of_queryAll {room : Nat} (hroom : historyPageSize < room)
    (hkeys : store.KeysBelow) {samples : List MetricSample}
    (h : store.queryAll fromMs toMs resolution = .ok samples)
    (hfits : ∀ body ∈ samples.map HistoryBody.metricSample ++ [.streamComplete],
      body.FitsFrame p) :
    ∃ n t, Lts.Run (PagingStep p resolution toMs) (.start store fromMs)
        (List.replicate n (.page room)) t ∧
      t.phase = .complete ∧ t.written = samples.map .metricSample ++ [.streamComplete] := by
  have hfitsKeys : store.KeysFit resolution := fun k hk =>
    ⟨(hkeys.below resolution k hk).1, (hkeys.below resolution k hk).2.le⟩
  have hsent : sentOf fromMs samples = samples := by
    have hno : ¬ Repeats fromMs (samples.map (·.timestampMs)) := by
      rintro ⟨hmem, -, -⟩
      rw [MetricStore.timestamps_queryAll hkeys.keyed h] at hmem
      exact lt_irrefl _ (hkeys.below resolution _ (List.mem_of_mem_filter hmem)).2
    rw [sentOf, if_neg hno, List.append_nil]
  have hpages := historyPages_queryAll hkeys.keyed hfitsKeys h (Nat.lt_succ_self _)
  rw [hsent] at hpages
  obtain ⟨n, t, hrun, hwritten⟩ := run_pages hroom resolution toMs (samples.length + 1)
    (.start store fromMs) hkeys.keyed rfl (hfits _ (by simp))
    (fun body hbody => hfits body (hpages ▸ hbody))
  have hwritten : t.written = samples.map .metricSample ++ [.streamComplete] :=
    hwritten.trans hpages
  refine ⟨n, t, hrun, ?_, hwritten⟩
  -- only a loop that ended has written the end of the stream
  have hordered := (Paging.ordered_of_run hkeys hrun).written
  by_contra hphase
  rw [if_neg hphase, List.append_nil] at hordered
  have hend : HistoryBody.streamComplete ∈ t.written := by
    rw [hwritten]
    exact List.mem_append_right _ (.head _)
  rw [hordered] at hend
  obtain ⟨s, -, hs⟩ := List.mem_map.1 hend
  cases hs

end

/-! ## The result -/

/-- What a run of the loop sends, whatever is inserted and pruned between its pages and whichever
write fails. -/
structure PagingLaw (p : Prost) (resolution : HistoryResolution) (fromMs toMs : Int)
    (store : MetricStore) (es : List PagingEvent) (t : Paging) : Prop where
  /-- The timestamps are strictly increasing. -/
  increasing : t.sent.Pairwise (· < ·)
  /-- They are in the range. -/
  range : ∀ k ∈ t.sent, fromMs ≤ k ∧ k ≤ toMs
  /-- None was never stored. -/
  stored : ∀ k ∈ t.sent, StoredOnce p resolution toMs (.start store fromMs) es k
  /-- Once the stream is complete, a key of the range that was stored throughout is sent once. -/
  kept : ∀ k, fromMs ≤ k → k ≤ toMs →
    StoredThroughout p resolution toMs (.start store fromMs) es k → t.phase = .complete →
      t.sent.count k = 1
  /-- The end of the stream is written once, after the samples. -/
  ending : t.written = (samplesOf t.written).map .metricSample ++
    if t.phase = .complete then [.streamComplete] else []

/-- A store with one sample, stamped with the epoch. -/
def oneRowStore (sample : MetricSample) : MetricStore :=
  MetricStore.new.insertBatch [{ sample with timestampMs := 0 }]

/-- Its keys are below the largest `i64`. -/
theorem keysBelow_oneRowStore (sample : MetricSample) : (oneRowStore sample).KeysBelow := by
  refine MetricStore.KeysBelow.new.insertBatch ?_
  intro x hx
  rw [List.mem_singleton.1 hx]
  show i64Min ≤ 0 ∧ (0 : Int) < i64Max
  decide

/-- The encoding of the end of a stream and of samples that have at most a small timestamp, or a
mount of a mebibyte. -/
def sparseProst : Prost where
  encode response :=
    match response.body with
    | some .streamComplete => [0x42, 0]
    | some (.metricSample sample) =>
      match sample.disks with
      | [] =>
        if sample.timestampMs = 0 then [0x12, 0]
        else [0x12, 2, 0x08, UInt8.ofNat sample.timestampMs.toNat]
      | disk :: _ =>
        [0x12, 0x88, 0x80, 0x40, 0x42, 0x84, 0x80, 0x40, 0x0a, 0x80, 0x80, 0x40] ++
          disk.mount.toList.map fun c => UInt8.ofNat c.toNat
    | _ => []
  decode bytes :=
    if bytes = [0x42, 0] then .ok HistoryBody.streamComplete.toWire else .error "invalid wire type"

/-- A sample whose sensor reads a NaN. -/
def unreadableSample : MetricSample :=
  { (default : MetricSample) with temperature := some ⟨"CPU", ⟨0x7FC00000⟩, none, 1⟩ }

/-- A sample with a disk whose mount has a length. -/
def mountSample (n : Nat) : MetricSample :=
  { (default : MetricSample) with disks := [⟨String.ofList (List.replicate n 'a'), 0, 0⟩] }

/-- A sample whose response is longer than a frame. -/
def longSample : MetricSample := mountSample 1048576

/-- The loop drops the stream at the one row of a store. It stays in the store throughout and is in
the range, but it is not sent, and neither is the end of the stream. -/
def RowDropped (p : Prost) (sample : MetricSample) : Prop :=
  ∃ t, (oneRowStore sample).KeysBelow ∧
    Lts.Run (PagingStep p .raw 10) (.start (oneRowStore sample) 0) [.page 300] t ∧
    StoredThroughout p .raw 10 (.start (oneRowStore sample) 0) [.page 300] 0 ∧
    t.phase = .dropped ∧ t.sent.count 0 ≠ 1 ∧ HistoryBody.streamComplete ∉ t.written

/-- So it is where the first page drops the stream at once. -/
theorem rowDropped {p : Prost} {sample : MetricSample}
    (h : (Paging.start (oneRowStore sample) 0).readPage p .raw 10 300 =
      { Paging.start (oneRowStore sample) 0 with phase := .dropped }) : RowDropped p sample := by
  have hstep : PagingStep p .raw 10 (.start (oneRowStore sample) 0) (.page 300)
      { Paging.start (oneRowStore sample) 0 with phase := .dropped } :=
    ⟨trivial, congrArg some h⟩
  refine ⟨_, keysBelow_oneRowStore _, Lts.run_cons_iff.2 ⟨_, hstep, .nil⟩, ?_, rfl, by
    simp [Paging.sent, Paging.start, samplesOf], nofun⟩
  intro es' s hpre hrun
  have hstore : s.store = oneRowStore sample := by
    rcases List.prefix_cons_iff.1 hpre with rfl | ⟨es'', rfl, htail⟩
    · rw [← Lts.run_nil_iff.1 hrun]
      rfl
    · rw [List.prefix_nil.1 htail] at hrun
      obtain ⟨t, hfirst, hrun⟩ := Lts.run_cons_iff.1 hrun
      rw [← Lts.run_nil_iff.1 hrun, ← Option.some.inj (hstep.2.symm.trans hfirst.2)]
      rfl
  rw [hstore]
  exact .head _

/-- A row whose response is longer than a frame drops the stream. -/
theorem rowDropped_mountSample {n : Nat} (h : maxFrameBytes < n + 12) :
    RowDropped sparseProst (mountSample n) := by
  refine rowDropped ?_
  have hlong : ¬Fits bytesCodec
      (sparseProst.encode (HistoryBody.metricSample (mountSample n)).toWire) := by
    simp only [Fits, bytesCodec, sparseProst, HistoryBody.toWire, MetricSample.toWire, mountSample,
      List.map_cons, id_eq, List.length_append, List.length_map, String.toList_ofList,
      List.length_replicate, List.length_cons, List.length_nil]
    omega
  have hcut : writeBodies sparseProst 300 [.metricSample (mountSample n)] = ([], false) := by
    rw [writeBodies, writeFrame_of_not_fits bytesCodec hlong]
  exact Paging.readPage_of_cut rfl rfl hcut

end Rackio
