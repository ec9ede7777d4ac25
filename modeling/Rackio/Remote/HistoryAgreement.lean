import Rackio.Iroh.Paging
import Rackio.Protocol.Wire
import Rackio.Remote.QueryHistory

/-!
# The history of a machine, at the machine and from a viewer

`handle_local_history` answers with one query of the store. `RemoteFleet::query_history` goes the
long way: the server pages through the store, converts each sample to a message and writes it in a
frame; the viewer reads the frames and converts the messages back.

The two check the same range. They return the same samples (`history_agrees_iff`) but for a row at
the largest `i64`: the server's cursor cannot move behind it, so that the row is read and sent a
second time, unless the cursor stood at it when it was first read.
-/

namespace Rackio

open Wire (Prost Response)

/-! ## The two answers -/

/-- The range both sides accept. -/
def AcceptedRange (fromMs toMs : Int) : Prop :=
  ¬ (fromMs > toMs ∨ satSubI64 toMs fromMs > maxHistoryRangeMs)

instance (fromMs toMs : Int) : Decidable (AcceptedRange fromMs toMs) :=
  inferInstanceAs (Decidable (¬ _))

/-- What `handle_local_history` fails with. -/
inductive LocalHistoryFailure
  | refused (text : String)
  | store (error : StoreError)
  deriving DecidableEq, Repr

/-- The text of a range that is refused. -/
def invalidRangeText : String := "history range is invalid or exceeds seven days"

/-- The source's `handle_local_history`: the samples it succeeds with, or its failure. -/
def handleLocalHistory (store : MetricStore) (fromMs toMs : Int) (resolution : HistoryResolution) :
    Except LocalHistoryFailure (List MetricSample) :=
  if fromMs > toMs ∨ satSubI64 toMs fromMs > maxHistoryRangeMs then
    .error (.refused invalidRangeText)
  else
    match store.query fromMs toMs resolution with
    | .ok samples => .ok samples
    | .error error => .error (.store error)

/-- The `write_response`s of `handle_history`. One that fails ends it. -/
def writeResponses (p : Prost) : List HistoryBody → List UInt8
  | [] => []
  | body :: bodies =>
    match writeFrame bytesCodec (p.encode body.toWire) with
    | .error _ => []
    | .ok bytes => bytes ++ writeResponses p bodies

/-- The source's `ResponseStream::next` on the bytes of a stream: the response and what is left. -/
def nextResponse (p : Prost) (bytes : List UInt8) : Except FrameError (Response × List UInt8) :=
  match ReadFrame.start.poll bytesCodec bytes with
  -- The stream ends inside the frame.
  | .pending future => .error future.closed
  | .ready (.error e) _ => .error e
  | .ready (.ok body) rest =>
    match p.decode body with
    | .error e => .error (.decode e)
    | .ok response => .ok (response, rest)

/-- A frame takes bytes off the stream. -/
theorem length_nextResponse {p : Prost} {bytes rest : List UInt8} {response : Response}
    (h : nextResponse p bytes = .ok (response, rest)) : rest.length < bytes.length := by
  have hpoll : ∃ body, ReadFrame.start.poll bytesCodec bytes = .ready (.ok body) rest := by
    unfold nextResponse at h
    split at h
    · cases h
    · cases h
    · next body rest' hpoll =>
      split at h
      · cases h
      · cases h
        exact ⟨body, hpoll⟩
  obtain ⟨body, hpoll⟩ := hpoll
  simp only [ReadFrame.start, ReadFrame.poll, List.length_nil, Nat.sub_zero] at hpoll
  split at hpoll
  · cases hpoll
  · next hlong =>
    split at hpoll
    · cases hpoll
    · simp only [ReadFrame.pollBody] at hpoll
      split at hpoll
      · cases hpoll
      · obtain ⟨-, rfl⟩ := Poll.ready.inj hpoll
        simp only [List.length_drop]
        omega

/-- The loop of `query_history` over the bytes of the stream; `samples` is what it has so far. -/
def receiveHistory (p : Prost) (samples : List MetricSample) (bytes : List UInt8) :
    Except RemoteFleetError (List MetricSample) :=
  match _ : nextResponse p bytes with
  | .error e => .error (.transport (.frame e))
  | .ok (response, rest) =>
    match response.body with
    | some (.metricSample sample) =>
      if maxRemoteHistorySamples ≤ samples.length then .error .historyResponseTooLarge
      else receiveHistory p (samples ++ [.fromWire sample]) rest
    | some .streamComplete => .ok samples
    | some (.error code message) => .error (.transport (.remote code message))
    | some (.other _ _) => .error (.unexpectedResponse "history event")
    | none => .error (.unexpectedResponse "history event")
termination_by bytes.length
decreasing_by exact length_nextResponse ‹_›

/-- The source's `RemoteFleet::query_history` over the bytes of the stream. -/
def queryHistoryBytes (p : Prost) (registry : RemoteMachineRegistry)
    (connect : RemoteMachineRecord → Except RemoteFleetError (HistoryQuery → List UInt8))
    (endpointId : String) (fromMs toMs : Int) (resolution : HistoryResolution) :
    Except RemoteFleetError (List MetricSample) := do
  if fromMs > toMs ∨ satSubI64 toMs fromMs > maxHistoryRangeMs then throw .invalidHistoryRange
  let record ← registry.get endpointId
  let stream ← connect record
  receiveHistory p [] (stream ⟨fromMs, toMs, resolution.toWire, some currentVersion⟩)

/-- The answer of a machine to a history request, in bytes. -/
def serveHistory (p : Prost) (permissions : PeerPermissions) (store : MetricStore)
    (query : HistoryQuery) : List UInt8 :=
  writeResponses p (historyStream permissions store query)

/-! ## Through the wire -/

section
variable {p : Prost}

/-- A response that fits is read back from its frame, and the rest of the stream is left. -/
theorem nextResponse_frame {response : Response} (hround : p.RoundTrips response)
    (hfits : Fits bytesCodec (p.encode response)) (tail : List UInt8) :
    ∃ decoded, response.Same decoded ∧
      nextResponse p (frame bytesCodec (p.encode response) ++ tail) = .ok (decoded, tail) := by
  obtain ⟨decoded, hdecode, hsame⟩ := hround
  refine ⟨decoded, hsame, ?_⟩
  unfold nextResponse
  rw [ReadFrame.poll_whole_frame bytesCodec hfits]
  dsimp only
  rw [hdecode]

/-- What a viewer gets of an answer: the same samples, or the same error. -/
inductive Received :
    Except RemoteFleetError (List MetricSample) → Except RemoteFleetError (List MetricSample) → Prop
  | ok {received samples : List MetricSample}
    (h : List.Forall₂ MetricSample.Same samples received) : Received (.ok received) (.ok samples)
  | error (e : RemoteFleetError) : Received (.error e) (.error e)

/-- A body that gets through the wire. -/
def Wire.Prost.Carries (p : Prost) (body : HistoryBody) : Prop :=
  p.RoundTrips body.toWire ∧ Fits bytesCodec (p.encode body.toWire)

/-- The viewer reads from the bytes what the server wrote. -/
theorem receiveHistory_writeResponses {bodies : List HistoryBody}
    (hcarries : ∀ body ∈ bodies, p.Carries body) {received samples : List MetricSample}
    (hsame : List.Forall₂ MetricSample.Same samples received) :
    Received (receiveHistory p received (writeResponses p bodies))
      (collectHistory samples bodies) := by
  induction bodies generalizing received samples with
  | nil =>
    rw [writeResponses, receiveHistory]
    exact .error _
  | cons body bodies ih =>
    obtain ⟨hround, hfits⟩ := hcarries body (.head _)
    obtain ⟨decoded, hdecoded, hnext⟩ := nextResponse_frame hround hfits (writeResponses p bodies)
    have hbytes : writeResponses p (body :: bodies) =
        frame bytesCodec (p.encode body.toWire) ++ writeResponses p bodies := by
      rw [writeResponses, writeFrame_of_fits bytesCodec hfits]
    rw [hbytes, receiveHistory]
    split
    · next e herr =>
      rw [hnext] at herr
      cases herr
    · next response rest hok =>
      rw [hnext] at hok
      obtain ⟨rfl, rfl⟩ := Prod.mk.inj (Except.ok.inj hok)
      cases body with
      | metricSample sample =>
        obtain ⟨wire, hwire, rfl⟩ : ∃ wire : Wire.MetricSample, sample.toWire.Same wire ∧
            decoded = ⟨some (.metricSample wire)⟩ := by
          cases hdecoded with
          | refl => exact ⟨_, .refl _, rfl⟩
          | metricSample h => exact ⟨_, h, rfl⟩
        have hlength := hsame.length_eq
        rw [collectHistory, hlength]
        dsimp only
        split
        · exact .error _
        · refine ih (fun body hbody => hcarries body (.tail _ hbody)) ?_
          refine List.rel_append hsame (.cons ?_ .nil)
          rw [show clientMetricSample sample = .fromWire sample.toWire from
            (MetricSample.fromWire_toWire sample).symm]
          exact MetricSample.fromWire_same hwire
      | streamComplete =>
        cases hdecoded
        exact .ok hsame
      | error response =>
        cases hdecoded
        exact .error _
      | other =>
        cases hdecoded
        exact .error _

end

/-! ## Both sides -/

/-- The samples of a stream that ends are collected when there are few enough. -/
theorem collectHistory_complete {samples sent : List MetricSample}
    (h : samples.length + sent.length ≤ maxRemoteHistorySamples) :
    collectHistory samples (sent.map .metricSample ++ [.streamComplete]) =
      .ok (samples ++ sent.map clientMetricSample) := by
  induction sent generalizing samples with
  | nil =>
    rw [List.map_nil, List.map_nil, List.append_nil]
    rfl
  | cons sample sent ih =>
    rw [List.length_cons] at h
    rw [List.map_cons, List.cons_append, collectHistory, if_neg (by omega), ih]
    · rw [List.append_assoc]
      rfl
    · rw [List.length_append, List.length_singleton]
      omega

/-- A stream of samples that does not end is not collected. -/
theorem collectHistory_incomplete (samples : List MetricSample) {bodies : List HistoryBody}
    (h : .streamComplete ∉ bodies) : ∃ e, collectHistory samples bodies = .error e := by
  induction bodies generalizing samples with
  | nil => exact ⟨_, rfl⟩
  | cons body bodies ih =>
    cases body with
    | metricSample sample =>
      rw [collectHistory]
      split
      · exact ⟨_, rfl⟩
      · exact ih _ fun hmem => h (.tail _ hmem)
    | streamComplete => exact absurd (.head _) h
    | error response => exact ⟨_, rfl⟩
    | other => exact ⟨_, rfl⟩

/-- A sample with finite floats is the one the viewer makes of it. -/
theorem clientMetricSample_of_finite {sample : MetricSample} (h : sample.Finite) :
    clientMetricSample sample = sample := by
  have hreread : MetricSample.fromWire sample.toWire = clientMetricSample sample :=
    MetricSample.fromWire_toWire sample
  rw [← hreread, MetricSample.fromWire_toWire_of_finite h]

/-- The two answers agree: both refuse the range, both return the same samples, or both fail. -/
structure HistoryAgrees (here : Except LocalHistoryFailure (List MetricSample))
    (there : Except RemoteFleetError (List MetricSample)) : Prop where
  refused : here = .error (.refused invalidRangeText) ↔ there = .error .invalidHistoryRange
  returned : ∀ samples, here = .ok samples →
    ∃ received, there = .ok received ∧ List.Forall₂ MetricSample.Same samples received
  failed : ∀ e, here = .error e → ∃ e', there = .error e'

/-- Two answers with the same samples. -/
theorem historyAgrees_ok {samples received : List MetricSample}
    (hsame : List.Forall₂ MetricSample.Same samples received) :
    HistoryAgrees (.ok samples) (.ok received) where
  refused := by
    constructor
    · intro h
      cases h
    · intro h
      cases h
  returned samples' h := by
    cases h
    exact ⟨_, rfl, hsame⟩
  failed e h := by cases h

/-- Two failures other than a refusal. -/
theorem historyAgrees_error {error : StoreError} {error' : RemoteFleetError}
    (hne : error' ≠ .invalidHistoryRange) :
    HistoryAgrees (.error (.store error)) (.error error') where
  refused := by
    constructor
    · intro h
      cases h
    · intro h
      cases h
      exact absurd rfl hne
  returned samples h := by cases h
  failed e _ := ⟨_, rfl⟩

/-- Two refusals. -/
theorem historyAgrees_refused :
    HistoryAgrees (.error (.refused invalidRangeText)) (.error .invalidHistoryRange) where
  refused := iff_of_true rfl rfl
  returned samples h := by cases h
  failed e _ := ⟨_, rfl⟩

/-- Every row of the range is read back. -/
def MetricStore.Readable (store : MetricStore) (fromMs toMs : Int)
    (resolution : HistoryResolution) : Prop :=
  ∃ samples, store.queryAll fromMs toMs resolution = .ok samples

/-- The keys of a range. -/
def MetricStore.rangeKeys (store : MetricStore) (fromMs toMs : Int)
    (resolution : HistoryResolution) : List Int :=
  (store.keys resolution).filter fun k => fromMs ≤ k ∧ k ≤ toMs

/-- A query of few enough rows is the query without a limit. -/
theorem MetricStore.query_eq_queryAll {store : MetricStore} {fromMs toMs : Int}
    {resolution : HistoryResolution}
    (hrows : (store.rangeKeys fromMs toMs resolution).length ≤ maxQueryRows) :
    store.query fromMs toMs resolution = store.queryAll fromMs toMs resolution := by
  have htake {ν : Type} {table : Table Int ν} (htable : store.keys resolution = table.keys) :
      (table.rows.filter (between fromMs toMs)).take maxQueryRows =
        table.rows.filter (between fromMs toMs) := by
    rw [rangeKeys, htable, Table.keys, List.filter_map, List.length_map] at hrows
    exact List.take_of_length_le hrows
  cases resolution with
  | raw => exact congrArg (List.mapM _) (htake rfl)
  | minute => exact congrArg (List.mapM _) (htake rfl)

/-- The viewer's collecting does not refuse the range. -/
theorem collectHistory_ne_invalid (samples : List MetricSample) (bodies : List HistoryBody) :
    collectHistory samples bodies ≠ .error .invalidHistoryRange := by
  induction bodies generalizing samples with
  | nil => simp [collectHistory]
  | cons body bodies ih =>
    cases body with
    | metricSample sample =>
      rw [collectHistory]
      split
      · simp
      · exact ih _
    | streamComplete => simp [collectHistory]
    | error response => simp [collectHistory]
    | other => simp [collectHistory]

/-- A store whose history the wire carries: its rows are stored under their timestamps, which are
`i64`s; the range has at most `MAX_QUERY_ROWS` rows; and every sample that is read back has finite
floats and comes through one frame, as the end of the stream does. -/
structure Servable (p : Prost) (store : MetricStore) (fromMs toMs : Int)
    (resolution : HistoryResolution) : Prop where
  keyed : store.Keyed
  keysFit : store.KeysFit resolution
  rows : (store.rangeKeys fromMs toMs resolution).length ≤ maxQueryRows
  finite : ∀ sample, store.Holds resolution sample → sample.Finite
  carried : ∀ sample, store.Holds resolution sample → p.Carries (.metricSample sample)
  ended : p.Carries .streamComplete

section
variable {p : Prost} {store : MetricStore} {fromMs toMs : Int} {resolution : HistoryResolution}

/-- What the viewer collects of a range that is read back. -/
theorem collectHistory_readable (h : Servable p store fromMs toMs resolution)
    {samples : List MetricSample} (hall : store.queryAll fromMs toMs resolution = .ok samples)
    {fuel : Nat} (hfuel : (store.keys resolution).length < fuel) :
    collectHistory [] (historyPages store resolution toMs fuel fromMs) =
      if (sentOf fromMs samples).length ≤ maxRemoteHistorySamples then
        .ok ((sentOf fromMs samples).map clientMetricSample)
      else .error .historyResponseTooLarge := by
  have hlen : samples.length < fuel := by
    have hkeys := congrArg List.length (MetricStore.timestamps_queryAll h.keyed hall)
    rw [List.length_map] at hkeys
    have hle := List.length_filter_le (fun k => decide (fromMs ≤ k ∧ k ≤ toMs))
      (store.keys resolution)
    omega
  rw [historyPages_queryAll h.keyed h.keysFit hall hlen]
  split
  · next hfew =>
    rw [collectHistory_complete (by rw [List.length_nil]; omega)]
    rfl
  · next hmany =>
    exact collectHistory_tooLarge (by rw [List.length_nil]; omega) (Nat.zero_le _)

/-- The answer of a machine, as the viewer gets it. -/
theorem received_queryHistoryBytes (h : Servable p store fromMs toMs resolution)
    (haccepted : AcceptedRange fromMs toMs) {registry : RemoteMachineRegistry}
    {endpointId : String} {record : RemoteMachineRecord}
    (hget : registry.get endpointId = .ok record) {permissions : PeerPermissions}
    (hallowed : permissions.readHistory = true) :
    Received
      (queryHistoryBytes p registry (fun _ => .ok (serveHistory p permissions store)) endpointId
        fromMs toMs resolution)
      (collectHistory [] (historyPages store resolution toMs
        ((store.keys resolution).length + 2) fromMs)) := by
  have hle : fromMs ≤ toMs := by
    have := not_or.1 haccepted
    omega
  unfold queryHistoryBytes
  rw [if_neg haccepted, hget]
  show Received (receiveHistory p [] (writeResponses p (historyStream permissions store _))) _
  rw [historyStream_query hle, if_pos hallowed]
  refine receiveHistory_writeResponses (fun body hbody => ?_) .nil
  rcases mem_historyPages hbody with rfl | ⟨sample, hholds, rfl⟩
  · exact h.ended
  · exact h.carried sample hholds

/-- The samples of a range with finite floats are the ones the viewer makes of them. -/
theorem map_client_of_servable (h : Servable p store fromMs toMs resolution)
    {samples : List MetricSample} (hall : store.queryAll fromMs toMs resolution = .ok samples) :
    samples.map clientMetricSample = samples := by
  have hpage := MetricStore.queryPage_of_queryAll hall samples.length
  rw [List.take_length] at hpage
  refine (List.map_congr_left fun sample hsample => ?_).trans (List.map_id' _)
  exact clientMetricSample_of_finite
    (h.finite sample (MetricStore.holds_of_queryPage hpage sample hsample))

/-- On a range with a row that cannot be read back both sides fail. -/
theorem agrees_unreadable (h : Servable p store fromMs toMs resolution) {e : StoreError}
    (hall : store.queryAll fromMs toMs resolution = .error e)
    {there : Except RemoteFleetError (List MetricSample)}
    (hreceived : Received there (collectHistory [] (historyPages store resolution toMs
      ((store.keys resolution).length + 2) fromMs))) :
    HistoryAgrees (.error (.store e)) there := by
  have hcomplete : .streamComplete ∉ historyPages store resolution toMs
      ((store.keys resolution).length + 2) fromMs := by
    intro hmem
    obtain ⟨samples, hok⟩ := readable_of_complete h.keyed h.keysFit hmem
    rw [hall] at hok
    cases hok
  obtain ⟨e', he'⟩ := collectHistory_incomplete [] hcomplete
  have hne := collectHistory_ne_invalid [] (historyPages store resolution toMs
    ((store.keys resolution).length + 2) fromMs)
  rw [he'] at hreceived hne
  cases hreceived
  exact historyAgrees_error fun h => hne (congrArg _ h)

/-- On a range that is read back, they agree unless its last row is sent twice: then it is one
sample too many, or one above the cap. -/
theorem agrees_readable_iff (h : Servable p store fromMs toMs resolution)
    {samples : List MetricSample} (hall : store.queryAll fromMs toMs resolution = .ok samples)
    {there : Except RemoteFleetError (List MetricSample)}
    (hreceived : Received there (collectHistory [] (historyPages store resolution toMs
      ((store.keys resolution).length + 2) fromMs))) :
    HistoryAgrees (.ok samples) there ↔ ¬ Repeats fromMs (samples.map (·.timestampMs)) := by
  have hlen : samples.length ≤ maxRemoteHistorySamples := by
    have hrows := h.rows
    rw [MetricStore.rangeKeys, ← MetricStore.timestamps_queryAll h.keyed hall,
      List.length_map] at hrows
    exact hrows
  rw [collectHistory_readable h hall (by omega)] at hreceived
  constructor
  · intro hagrees hrepeats
    obtain ⟨received, rfl, hsame⟩ := hagrees.returned samples rfl
    split at hreceived
    · obtain ⟨hsent⟩ := hreceived
      have hmany := length_sentOf hrepeats
      have hlength := hsent.length_eq
      have hlength' := hsame.length_eq
      rw [List.length_map] at hlength
      omega
    · cases hreceived
  · intro honce
    have hsent : sentOf fromMs samples = samples := by
      rw [sentOf, if_neg honce, List.append_nil]
    rw [hsent, if_pos hlen, map_client_of_servable h hall] at hreceived
    obtain ⟨hsame⟩ := hreceived
    exact historyAgrees_ok hsame

/-- Local and remote history agree on a range if and only if it is refused, has a row that cannot be
read back, or does not end in a row that the server reads twice. -/
theorem history_agrees_iff (h : Servable p store fromMs toMs resolution)
    {registry : RemoteMachineRegistry} {endpointId : String} {record : RemoteMachineRecord}
    (hget : registry.get endpointId = .ok record) {permissions : PeerPermissions}
    (hallowed : permissions.readHistory = true) :
    HistoryAgrees (handleLocalHistory store fromMs toMs resolution)
        (queryHistoryBytes p registry (fun _ => .ok (serveHistory p permissions store)) endpointId
          fromMs toMs resolution) ↔
      (AcceptedRange fromMs toMs → store.Readable fromMs toMs resolution →
        ¬ Repeats fromMs (store.rangeKeys fromMs toMs resolution)) := by
  rcases em (AcceptedRange fromMs toMs) with haccepted | hrefused
  · have hreceived := received_queryHistoryBytes h haccepted hget hallowed
    have hhere : handleLocalHistory store fromMs toMs resolution =
        match store.queryAll fromMs toMs resolution with
        | .ok samples => .ok samples
        | .error error => .error (.store error) := by
      unfold handleLocalHistory
      rw [if_neg haccepted, MetricStore.query_eq_queryAll h.rows]
    rw [hhere]
    cases hall : store.queryAll fromMs toMs resolution with
    | error e =>
      refine iff_of_true (agrees_unreadable h hall hreceived) fun _ hreadable => ?_
      obtain ⟨samples, hok⟩ := hreadable
      rw [hall] at hok
      cases hok
    | ok samples =>
      rw [MetricStore.rangeKeys, ← MetricStore.timestamps_queryAll h.keyed hall]
      refine (agrees_readable_iff h hall hreceived).trans ⟨fun honce _ _ => honce, fun honce => ?_⟩
      exact honce haccepted ⟨samples, hall⟩
  · -- both sides refuse the range
    have hhere : handleLocalHistory store fromMs toMs resolution =
        .error (.refused invalidRangeText) := if_pos (not_not.1 hrefused)
    have hthere : queryHistoryBytes p registry (fun _ => .ok (serveHistory p permissions store))
        endpointId fromMs toMs resolution = .error .invalidHistoryRange := by
      unfold queryHistoryBytes
      rw [if_pos (not_not.1 hrefused)]
      rfl
    rw [hhere, hthere]
    exact iff_of_true historyAgrees_refused fun haccepted => absurd haccepted hrefused

end

/-! ## Stores of an idle machine -/

/-- A store of finite samples whose responses come through can be served. -/
theorem servable_of_rows {p : Prost} {store : MetricStore} {samples : List MetricSample}
    (hrows : store.samples.rows = samples.map fun sample => (sample.timestampMs, sample))
    (hlength : samples.length ≤ maxQueryRows)
    (hsamples : ∀ sample ∈ samples,
      FitsI64 sample.timestampMs ∧ sample.Finite ∧ p.Carries (.metricSample sample))
    (hended : p.Carries .streamComplete) (fromMs toMs : Int) :
    Servable p store fromMs toMs .raw := by
  have hkeys : store.keys .raw = samples.map (·.timestampMs) := by
    rw [MetricStore.keys, Table.keys, hrows, List.map_map]
    rfl
  have hholds : ∀ sample, store.Holds .raw sample → sample ∈ samples := by
    rintro sample ⟨row, hrow, hread⟩
    rw [hrows] at hrow
    obtain ⟨stored, hstored, rfl⟩ := List.mem_map.1 hrow
    rw [MetricSample.reread_of_finite (hsamples stored hstored).2.1] at hread
    exact Except.ok.inj hread ▸ hstored
  constructor
  · intro row hrow
    rw [hrows] at hrow
    obtain ⟨stored, -, rfl⟩ := List.mem_map.1 hrow
    rfl
  · intro k hk
    rw [hkeys] at hk
    obtain ⟨sample, hsample, rfl⟩ := List.mem_map.1 hk
    exact (hsamples sample hsample).1
  · refine (List.length_filter_le _ _).trans ?_
    rw [hkeys, List.length_map]
    exact hlength
  · exact fun sample hsample => (hsamples sample (hholds sample hsample)).2.1
  · exact fun sample hsample => (hsamples sample (hholds sample hsample)).2.2
  · exact hended

/-- A sample of an idle processor. -/
def idleSampleAt (timestampMs : Int) : MetricSample :=
  { (default : MetricSample) with timestampMs, sequence := 2, cpuPercent := some ⟨0⟩ }

/-- Its only float is finite. -/
theorem finite_idleSampleAt (timestampMs : Int) : (idleSampleAt timestampMs).Finite := by
  constructor
  · rintro v ⟨⟩
    decide
  · exact nofun

/-- The store that holds it. -/
def idleStore (timestampMs : Int) : MetricStore :=
  MetricStore.new.insertBatch [idleSampleAt timestampMs]

/-- The bytes of its response; `timestamp` is the field of the timestamp. -/
def idleBytes (timestamp : List UInt8) : List UInt8 :=
  0x12 :: UInt8.ofNat (timestamp.length + 7) :: timestamp ++ [0x10, 2, 0x1d, 0, 0, 0, 0]

/-- The encoding of the sample and of the end of the stream. -/
def idleProst (timestampMs : Int) (timestamp : List UInt8) : Prost where
  encode response :=
    if response = HistoryBody.streamComplete.toWire then [0x42, 0] else idleBytes timestamp
  decode bytes :=
    if bytes = [0x42, 0] then .ok HistoryBody.streamComplete.toWire
    else if bytes = idleBytes timestamp then
      .ok (HistoryBody.metricSample (idleSampleAt timestampMs)).toWire
    else .error "invalid wire type"

/-- The encoding carries the sample. -/
theorem carries_idle (timestampMs : Int) {timestamp : List UInt8}
    (hlength : timestamp.length ≤ 10) :
    (idleProst timestampMs timestamp).Carries (.metricSample (idleSampleAt timestampMs)) := by
  have hne : (HistoryBody.metricSample (idleSampleAt timestampMs)).toWire ≠
      HistoryBody.streamComplete.toWire := by simp [HistoryBody.toWire]
  have hencode : (idleProst timestampMs timestamp).encode
      (HistoryBody.metricSample (idleSampleAt timestampMs)).toWire = idleBytes timestamp := by
    simp only [idleProst, if_neg hne]
  have hother : idleBytes timestamp ≠ [0x42, 0] := fun h =>
    absurd (List.cons.inj h).1 (by decide)
  refine ⟨⟨_, ?_, .refl _⟩, ?_⟩
  · rw [hencode]
    simp only [idleProst, if_neg hother, if_true]
  · rw [hencode]
    show (idleBytes timestamp).length ≤ maxFrameBytes
    unfold maxFrameBytes
    simp only [idleBytes, List.length_cons, List.length_append, List.length_nil]
    omega

/-- Its history can be served. -/
theorem servable_idle {timestampMs : Int} (hfits : FitsI64 timestampMs) {timestamp : List UInt8}
    (hlength : timestamp.length ≤ 10) (fromMs toMs : Int) :
    Servable (idleProst timestampMs timestamp) (idleStore timestampMs) fromMs toMs .raw := by
  have hlen : [idleSampleAt timestampMs].length ≤ maxQueryRows := by simp [maxQueryRows]
  refine servable_of_rows rfl hlen ?_ ?_ fromMs toMs
  · intro sample hsample
    rw [List.mem_singleton.1 hsample]
    exact ⟨hfits, finite_idleSampleAt timestampMs, carries_idle timestampMs hlength⟩
  · exact ⟨⟨HistoryBody.streamComplete.toWire, by simp [idleProst], .refl _⟩, by
      simp [Fits, bytesCodec, idleProst, maxFrameBytes]⟩

/-- Timestamps of several samples, and the field of each. -/
def idleFields : List (Int × List UInt8) := [(1, [0x08, 1]), (2, [0x08, 2]), (300, [0x08, 0xac, 2])]

/-- The store that holds these samples. -/
def idleHistory : MetricStore :=
  MetricStore.new.insertBatch (idleFields.map fun field => idleSampleAt field.1)

/-- The encoding of these samples and of the end of the stream. -/
def idleHistoryProst : Prost where
  encode response :=
    match response.body with
    | some (.metricSample sample) =>
      idleBytes (((idleFields.find? (·.1 == sample.timestampMs)).map (·.2)).getD [])
    | _ => [0x42, 0]
  decode bytes :=
    match idleFields.find? (idleBytes ·.2 == bytes) with
    | some field => .ok (HistoryBody.metricSample (idleSampleAt field.1)).toWire
    | none =>
      if bytes = [0x42, 0] then .ok HistoryBody.streamComplete.toWire
      else .error "invalid wire type"

/-- The history of these samples can be served. -/
theorem servable_idleHistory (fromMs toMs : Int) :
    Servable idleHistoryProst idleHistory fromMs toMs .raw := by
  have hlen : (idleFields.map fun field => idleSampleAt field.1).length ≤ maxQueryRows := by
    simp [idleFields, maxQueryRows]
  refine servable_of_rows rfl hlen ?_ ⟨⟨_, rfl, .refl _⟩, by decide⟩ fromMs toMs
  simp only [idleFields, List.map_cons, List.map_nil, List.forall_mem_cons, List.not_mem_nil,
    false_imp_iff, implies_true, and_true]
  exact ⟨⟨by decide, finite_idleSampleAt 1, ⟨_, rfl, .refl _⟩, by decide⟩,
    ⟨by decide, finite_idleSampleAt 2, ⟨_, rfl, .refl _⟩, by decide⟩,
    ⟨by decide, finite_idleSampleAt 300, ⟨_, rfl, .refl _⟩, by decide⟩⟩

/-- A viewer of the idle machine. -/
def idleRegistry : RemoteMachineRegistry := RemoteMachineRegistry.empty.store idleRecord

/-- The history of a machine with several samples is the same from both sides. -/
theorem history_agrees_idle :
    Servable idleHistoryProst idleHistory 0 1000 .raw ∧
      idleRegistry.get idleRecord.endpointId = .ok idleRecord ∧
      HistoryAgrees (handleLocalHistory idleHistory 0 1000 .raw)
        (queryHistoryBytes idleHistoryProst idleRegistry
          (fun _ => .ok (serveHistory idleHistoryProst default idleHistory))
          idleRecord.endpointId 0 1000 .raw) := by
  have hservable := servable_idleHistory 0 1000
  have hget : idleRegistry.get idleRecord.endpointId = .ok idleRecord := rfl
  refine ⟨hservable, hget, (history_agrees_iff hservable hget rfl).2 ?_⟩
  rintro - - ⟨hmem, -, -⟩
  exact absurd hmem (by decide)

/-- The field of the largest timestamp. -/
def lastTimestamp : List UInt8 :=
  [0x08, 0xff, 0xff, 0xff, 0xff, 0xff, 0xff, 0xff, 0xff, 0x7f]

/-- A row at the largest `i64` is returned once at the machine and twice to a viewer. -/
theorem last_row_received_twice :
    Servable (idleProst i64Max lastTimestamp) (idleStore i64Max) (i64Max - 1000) i64Max .raw ∧
      AcceptedRange (i64Max - 1000) i64Max ∧
      handleLocalHistory (idleStore i64Max) (i64Max - 1000) i64Max .raw =
        .ok [idleSampleAt i64Max] ∧
      (∃ received,
        queryHistoryBytes (idleProst i64Max lastTimestamp) idleRegistry
          (fun _ => .ok (serveHistory (idleProst i64Max lastTimestamp) default (idleStore i64Max)))
          idleRecord.endpointId (i64Max - 1000) i64Max .raw = .ok received ∧
        List.Forall₂ MetricSample.Same [idleSampleAt i64Max, idleSampleAt i64Max] received) ∧
      ¬ HistoryAgrees (handleLocalHistory (idleStore i64Max) (i64Max - 1000) i64Max .raw)
        (queryHistoryBytes (idleProst i64Max lastTimestamp) idleRegistry
          (fun _ => .ok (serveHistory (idleProst i64Max lastTimestamp) default (idleStore i64Max)))
          idleRecord.endpointId (i64Max - 1000) i64Max .raw) := by
  have hservable : Servable (idleProst i64Max lastTimestamp) (idleStore i64Max) (i64Max - 1000)
      i64Max .raw := servable_idle (by decide) (by decide) _ _
  have haccepted : AcceptedRange (i64Max - 1000) i64Max := by decide
  have hlocal : handleLocalHistory (idleStore i64Max) (i64Max - 1000) i64Max .raw =
      .ok [idleSampleAt i64Max] := by decide
  have hcollect : collectHistory [] (historyPages (idleStore i64Max) .raw i64Max
      (((idleStore i64Max).keys .raw).length + 2) (i64Max - 1000)) =
        .ok [idleSampleAt i64Max, idleSampleAt i64Max] := by decide
  have hreceived := received_queryHistoryBytes hservable haccepted
    (show idleRegistry.get idleRecord.endpointId = .ok idleRecord from rfl)
    (show (default : PeerPermissions).readHistory = true from rfl)
  rw [hcollect] at hreceived
  generalize queryHistoryBytes (idleProst i64Max lastTimestamp) idleRegistry
    (fun _ => .ok (serveHistory (idleProst i64Max lastTimestamp) default (idleStore i64Max)))
    idleRecord.endpointId (i64Max - 1000) i64Max .raw = there at hreceived ⊢
  obtain ⟨hsame⟩ := hreceived
  refine ⟨hservable, haccepted, hlocal, ⟨_, rfl, hsame⟩, fun hagrees => ?_⟩
  obtain ⟨received, hok, honce⟩ := hagrees.returned _ hlocal
  cases hok
  have htwo := hsame.length_eq
  have hone := honce.length_eq
  rw [← htwo] at hone
  cases hone

end Rackio
