import Rackio.Lib.Watch
import Rackio.Protocol.Wire

/-!
# The live metrics stream

The server side of a `WatchMetrics` request: `watch_metrics` of `rackio-iroh/src/server.rs`, run
against the watch channel the sampler publishes on. The receiver of a stream is a clone of the one
in `NodeRuntime`, which nobody marks as seen, and every look is a `borrow` and not a
`borrow_and_update`; so a sample may be written twice, and one may be overtaken by the next.

A run interleaves the sampler, the stream and the heartbeat in any order. It is simulated by a
reader of a watch channel (`exists_reader`). From its looks follow the two results: the responses of
a stream never go back, none of its samples comes more than twice (`written_in_order`), and a stream
that waits with nothing new, or has ended, has written the last published sample
(`latest_written`).
-/

namespace Rackio

open Lts Watch

/-- The responses `watch_metrics` writes. -/
inductive StreamResponse
  | metricSample (sample : Wire.MetricSample)
  | heartbeat (timestampMs : Int) (sequence : UInt64)
  deriving DecidableEq, Repr

/-- The sequence number a response carries. -/
def StreamResponse.sequence : StreamResponse → UInt64
  | .metricSample sample => sample.sequence
  | .heartbeat _ sequence => sequence

/-- The sample of a response that has one. -/
def StreamResponse.sample? : StreamResponse → Option Wire.MetricSample
  | .metricSample sample => some sample
  | .heartbeat _ _ => none

/-- The source's `watch_metrics` between two awaits, with the channel it reads. -/
structure LiveStream where
  latest : Channel (Option MetricSample)
  /-- The version its receiver was last notified of. -/
  seen : Nat
  stage : Stage
  written : List StreamResponse

namespace LiveStream

/-- What can happen between two awaits. -/
inductive Event
  /-- The sampler publishes. -/
  | publish (sample : MetricSample)
  /-- The sampler is gone. -/
  | dropSender
  /-- The look before the loop. -/
  | «open»
  /-- The branch of `latest.changed()` wins. -/
  | changed
  /-- The look after a change. -/
  | deliver
  /-- The branch of `heartbeat.tick()` wins. -/
  | heartbeat (nowMs : Int)
  /-- A write fails. -/
  | fail
  deriving DecidableEq

/-- The sample an event publishes. -/
def Event.published : Event → Option MetricSample
  | .publish sample => some sample
  | _ => none

/-- The samples of a stream, in the order they were written. -/
def samples (s : LiveStream) : List Wire.MetricSample := s.written.filterMap StreamResponse.sample?

/-- A stream that is opened after the samples `before` were published. -/
def opened (before : List MetricSample) : LiveStream where
  latest := ⟨before.getLast?, before.length, false⟩
  seen := 0
  stage := .opening
  written := []

/-- Write the sample in the channel, if there is one. -/
def deliver (s : LiveStream) : LiveStream :=
  match s.latest.value with
  | none => s
  | some sample => { s with written := s.written ++ [.metricSample sample.toWire] }

/-- One step of the stream or of the sampler. -/
def step (s : LiveStream) : Event → Option LiveStream
  | .publish sample =>
    if s.latest.closed then none else some { s with latest := s.latest.send (some sample) }
  | .dropSender => some { s with latest := s.latest.drop }
  | .open => if s.stage = .opening then some { s.deliver with stage := .waiting } else none
  | .changed =>
    if s.stage = .waiting then
      match s.latest.change s.seen with
      | .pending => none
      | .changed version => some { s with seen := version, stage := .notified }
      | .closed => some { s with stage := .ended }
    else none
  | .deliver => if s.stage = .notified then some { s.deliver with stage := .waiting } else none
  | .heartbeat nowMs =>
    if s.stage = .waiting then
      let sequence := s.latest.value.elim 0 (·.sequence)
      some { s with written := s.written ++ [.heartbeat nowMs sequence] }
    else none
  | .fail => if s.stage = .ended then none else some { s with stage := .failed }

/-! ## The looks behind the responses -/

/-- The sample of a version: the channel starts without one. -/
def publishedAt (published : List MetricSample) : Nat → Option MetricSample
  | 0 => none
  | version + 1 => published[version]?

/-- The sequence number a heartbeat carries at a version. -/
def sequenceAt (published : List MetricSample) (version : Nat) : UInt64 :=
  (publishedAt published version).elim 0 (·.sequence)

/-- The response a look gives. -/
def respond (published : List MetricSample) : Look Int → Option StreamResponse
  | .take version => (publishedAt published version).map fun sample => .metricSample sample.toWire
  | .peek version nowMs =>
    some (.heartbeat nowMs (sequenceAt published version))

/-- The reader `r` stands for the stream `s`, after the samples `published`. -/
structure Follows (published : List MetricSample) (r : Reader Int) (s : LiveStream) : Prop where
  value : s.latest.value = published.getLast?
  version : s.latest.version = published.length
  reader : r.version = s.latest.version
  seen : r.seen = s.seen
  stage : r.stage = s.stage
  written : s.written = r.looks.filterMap (respond published)

section
variable {published : List MetricSample} {r r' : Reader Int} {s t : LiveStream} {e : Event}
  {look : Look Int} {version : Nat}

/-- The last sample is the one of the last version. -/
theorem publishedAt_length (published : List MetricSample) :
    publishedAt published published.length = published.getLast? := by
  cases published with
  | nil => rfl
  | cons sample rest =>
    rw [List.getLast?_eq_getElem?]
    rfl

/-- A sample that is published changes no earlier version. -/
theorem publishedAt_append (h : version ≤ published.length) (sample : MetricSample) :
    publishedAt (published ++ [sample]) version = publishedAt published version := by
  cases version with
  | zero => rfl
  | succ version => exact List.getElem?_append_left h

/-- A sample that is published changes no response. -/
theorem respond_append (h : look.version ≤ published.length) (sample : MetricSample) :
    respond (published ++ [sample]) look = respond published look := by
  have hat := publishedAt_append h sample
  cases look with
  | take version => exact congrArg (Option.map _) hat
  | peek version nowMs =>
    have hsequence : sequenceAt (published ++ [sample]) version = sequenceAt published version :=
      congrArg (fun found => Option.elim found 0 _) hat
    rw [respond, respond, hsequence]

/-- The channel holds the sample of the reader's version. -/
theorem Follows.value_eq (h : Follows published r s) :
    s.latest.value = publishedAt published r.version := by
  rw [h.reader, h.version, publishedAt_length, h.value]

/-- A stream delivers what its reader takes. -/
theorem Follows.written_deliver (h : Follows published r s) :
    s.deliver.written = (r.looks ++ [Look.take r.version]).filterMap (respond published) := by
  rw [List.filterMap_append, ← h.written, deliver, h.value_eq]
  show _ = s.written ++ (respond published (.take r.version)).toList
  rw [respond]
  cases publishedAt published r.version with
  | none => exact (List.append_nil _).symm
  | some sample => rfl

/-- Delivering changes nothing but what was written. -/
theorem deliver_frame (s : LiveStream) :
    s.deliver.latest = s.latest ∧ s.deliver.seen = s.seen := by
  unfold deliver
  split
  · exact ⟨rfl, rfl⟩
  · exact ⟨rfl, rfl⟩

/-- The reader looks when the stream delivers. -/
theorem Follows.deliver (h : Follows published r s) :
    Follows published { r with stage := .waiting, looks := r.looks ++ [.take r.version] }
      { s.deliver with stage := .waiting } where
  value := by
    show s.deliver.latest.value = _
    rw [(deliver_frame s).1]
    exact h.value
  version := by
    show s.deliver.latest.version = _
    rw [(deliver_frame s).1]
    exact h.version
  reader := by
    show r.version = s.deliver.latest.version
    rw [(deliver_frame s).1]
    exact h.reader
  seen := h.seen.trans (deliver_frame s).2.symm
  stage := rfl
  written := h.written_deliver

/-- The reader learns of a sample that is published. -/
theorem Follows.publish (h : Follows published r s) (hr : r.Ordered) (sample : MetricSample) :
    Follows (published ++ [sample]) { r with version := r.version + 1 }
      { s with latest := s.latest.send (some sample) } where
  value := by
    rw [List.getLast?_append]
    rfl
  version := by
    rw [List.length_append, ← h.version]
    rfl
  reader := congrArg (· + 1) h.reader
  seen := h.seen
  stage := h.stage
  written := by
    refine h.written.trans (List.filterMap_congr fun look hlook => ?_)
    refine (respond_append ?_ sample).symm
    rw [← h.version, ← h.reader]
    exact hr.bound look hlook

/-- The reader peeks when the stream writes a heartbeat. -/
theorem Follows.heartbeat (h : Follows published r s) (nowMs : Int) :
    Follows published { r with looks := r.looks ++ [.peek r.version nowMs] }
      { s with
        written := s.written ++
          [.heartbeat nowMs (s.latest.value.elim 0 (·.sequence))] } where
  value := h.value
  version := h.version
  reader := h.reader
  seen := h.seen
  stage := h.stage
  written := by
    show _ = (r.looks ++ [_]).filterMap _
    rw [List.filterMap_append, ← h.written, h.value_eq]
    rfl

/-- Every step of a stream is one of its reader, or does nothing a reader sees. -/
theorem Follows.step (h : Follows published r s) (hr : r.Ordered) (hstep : s.step e = some t) :
    ∃ r', (r' = r ∨ ∃ e', Reader.Step r e' r') ∧
      Follows (published ++ e.published.toList) r' t := by
  cases e with
  | publish sample =>
    simp only [LiveStream.step] at hstep
    split at hstep
    · cases hstep
    · cases hstep
      exact ⟨_, .inr ⟨_, .send⟩, h.publish hr sample⟩
  | dropSender =>
    cases hstep
    simp only [Event.published, Option.toList_none, List.append_nil]
    exact ⟨r, .inl rfl, ⟨h.value, h.version, h.reader, h.seen, h.stage, h.written⟩⟩
  | «open» =>
    simp only [LiveStream.step] at hstep
    split at hstep
    · next hstage =>
      cases hstep
      simp only [Event.published, Option.toList_none, List.append_nil]
      exact ⟨_, .inr ⟨_, .open (h.stage.trans hstage)⟩, h.deliver⟩
    · cases hstep
  | changed =>
    simp only [LiveStream.step] at hstep
    simp only [Event.published, Option.toList_none, List.append_nil]
    split at hstep
    · next hstage =>
      have hwaiting := h.stage.trans hstage
      split at hstep
      · cases hstep
      · next version hchange =>
        cases hstep
        obtain ⟨hne, rfl⟩ := Channel.change_eq_changed_iff.1 hchange
        refine ⟨_, .inr ⟨_, .wake hwaiting ?_⟩, ?_⟩
        · rw [h.reader, h.seen]
          exact hne
        · exact ⟨h.value, h.version, h.reader, h.reader, rfl, h.written⟩
      · next hchange =>
        cases hstep
        obtain ⟨heq, -⟩ := Channel.change_eq_closed_iff.1 hchange
        refine ⟨_, .inr ⟨_, .finish hwaiting ?_⟩, ?_⟩
        · rw [h.reader, h.seen]
          exact heq
        · exact ⟨h.value, h.version, h.reader, h.seen, rfl, h.written⟩
    · cases hstep
  | deliver =>
    simp only [LiveStream.step] at hstep
    split at hstep
    · next hstage =>
      cases hstep
      simp only [Event.published, Option.toList_none, List.append_nil]
      exact ⟨_, .inr ⟨_, .take (h.stage.trans hstage)⟩, h.deliver⟩
    · cases hstep
  | heartbeat nowMs =>
    simp only [LiveStream.step] at hstep
    split at hstep
    · next hstage =>
      cases hstep
      simp only [Event.published, Option.toList_none, List.append_nil]
      exact ⟨_, .inr ⟨_, .peek nowMs (h.stage.trans hstage)⟩, h.heartbeat nowMs⟩
    · cases hstep
  | fail =>
    simp only [LiveStream.step] at hstep
    split at hstep
    · cases hstep
    · cases hstep
      simp only [Event.published, Option.toList_none, List.append_nil]
      exact ⟨_, .inr ⟨_, .fail⟩, ⟨h.value, h.version, h.reader, h.seen, rfl, h.written⟩⟩

end

/-! ## Runs -/

section
variable {before : List MetricSample} {es : List Event} {s : LiveStream}

/-- A run of a stream is a run of a reader that takes and peeks what the stream writes. -/
theorem exists_run (hrun : Run (Fires step) (opened before) es s) :
    ∃ r es', Run Reader.Step (.start before.length 0) es' r ∧
      Follows (before ++ es.filterMap Event.published) r s := by
  refine hrun.history (I := fun es s => ∃ r es', Run Reader.Step (.start before.length 0) es' r ∧
    Follows (before ++ es.filterMap Event.published) r s) ?_ ?_
  · refine ⟨.start before.length 0, [], .nil, ?_⟩
    rw [List.filterMap_nil, List.append_nil]
    exact ⟨rfl, rfl, rfl, rfl, rfl, rfl⟩
  · rintro es t e u - ⟨r, es', hrun', hfollows⟩ hstep
    have hordered := Reader.ordered_of_run (Nat.zero_le _) hrun'
    obtain ⟨r', hmove, hfollows'⟩ := hfollows.step hordered hstep
    have hone : [e].filterMap Event.published = e.published.toList := by
      cases e <;> rfl
    rw [List.filterMap_append, ← List.append_assoc, hone]
    rcases hmove with rfl | ⟨e', hstep'⟩
    · exact ⟨r', es', hrun', hfollows'⟩
    · exact ⟨r', es' ++ [e'], hrun'.snoc hstep', hfollows'⟩

/-- The looks of that reader are in order. -/
theorem exists_reader (hrun : Run (Fires step) (opened before) es s) :
    ∃ r, r.Ordered ∧ Follows (before ++ es.filterMap Event.published) r s := by
  obtain ⟨r, es', hrun', hfollows⟩ := exists_run hrun
  exact ⟨r, Reader.ordered_of_run (Nat.zero_le _) hrun', hfollows⟩

/-- The samples of a stream are those of the versions its reader takes. -/
theorem Follows.samples_eq {published : List MetricSample} {r : Reader Int}
    (h : Follows published r s) :
    s.samples = r.taken.filterMap fun version =>
      (publishedAt published version).map MetricSample.toWire := by
  rw [samples, h.written, List.filterMap_filterMap, Reader.taken, List.filterMap_filterMap]
  refine List.filterMap_congr fun look _ => ?_
  cases look with
  | take version =>
    show (Option.map _ (publishedAt published version)).bind _ = Option.map _ _
    cases publishedAt published version <;> rfl
  | peek version nowMs => rfl

/-- Where sequence numbers grow, a later version has no smaller one. -/
theorem sequenceAt_le {published : List MetricSample} {v w : Nat}
    (hsequence : published.Pairwise (·.sequence < ·.sequence)) (hle : v ≤ w)
    (hw : w ≤ published.length) :
    sequenceAt published v ≤ sequenceAt published w := by
  cases v with
  | zero => exact UInt64.zero_le
  | succ v =>
    obtain ⟨w, rfl⟩ : ∃ k, w = k + 1 := ⟨w - 1, by omega⟩
    have hv' : v < published.length := by omega
    simp only [sequenceAt, publishedAt, List.getElem?_eq_getElem hw, List.getElem?_eq_getElem hv',
      Option.elim]
    rcases Nat.eq_or_lt_of_le hle with heq | hlt
    · cases heq
      exact UInt64.le_refl _
    · exact UInt64.le_of_lt (List.pairwise_iff_getElem.1 hsequence v w hv' hw (by omega))

/-- Where sequence numbers grow, a version is known by the sample published then. -/
theorem publishedAt_inj {published : List MetricSample} {v w : Nat} {a b : MetricSample}
    (hsequence : published.Pairwise (·.sequence < ·.sequence))
    (hv : publishedAt published v = some a) (hw : publishedAt published w = some b)
    (heq : a.sequence = b.sequence) : v = w := by
  cases v with
  | zero => cases hv
  | succ v =>
    cases w with
    | zero => cases hw
    | succ w =>
      obtain ⟨hvlt, rfl⟩ := List.getElem?_eq_some_iff.1 hv
      obtain ⟨hwlt, rfl⟩ := List.getElem?_eq_some_iff.1 hw
      have hpairwise := List.pairwise_iff_getElem.1 hsequence
      rcases Nat.lt_trichotomy v w with hlt | rfl | hgt
      · exact absurd (heq ▸ hpairwise v w hvlt hwlt hlt) (UInt64.lt_irrefl _)
      · rfl
      · exact absurd (heq ▸ hpairwise w v hwlt hvlt hgt) (UInt64.lt_irrefl _)

/-- A value is taken at the version of its look. -/
theorem version_of_taken {look : Look Int} {v : Nat} (h : look.taken = some v) :
    look.version = v := by
  cases look with
  | take version => exact Option.some.inj h
  | peek version nowMs => cases h

/-- The sequence number of a response is that of the sample its look found. -/
theorem sequence_respond {published : List MetricSample} {look : Look Int}
    {response : StreamResponse} (h : respond published look = some response) :
    response.sequence = sequenceAt published look.version := by
  cases look with
  | take version =>
    obtain ⟨sample, hat, rfl⟩ := Option.map_eq_some_iff.1 h
    show _ = sequenceAt published version
    rw [sequenceAt, hat]
    rfl
  | peek version nowMs =>
    cases h
    rfl

/-- A published sample is taken at one version only, so it is taken no more than twice. -/
theorem count_taken_le {published : List MetricSample} {r : Reader Int}
    (hsequence : published.Pairwise (·.sequence < ·.sequence)) (hr : r.Ordered)
    (sample : MetricSample) : (r.taken.filterMap (publishedAt published)).count sample ≤ 2 := by
  rw [List.count_filterMap]
  by_cases hfound : ∃ version ∈ r.taken, publishedAt published version = some sample
  · obtain ⟨version, -, hversion⟩ := hfound
    refine le_trans (List.countP_mono_left fun v _ hv => ?_) (hr.twice version)
    exact beq_iff_eq.2 (publishedAt_inj hsequence (beq_iff_eq.1 hv) hversion rfl)
  · refine le_of_eq_of_le (List.countP_eq_zero.2 fun v hv hbeq => ?_) (Nat.zero_le 2)
    exact hfound ⟨v, hv, beq_iff_eq.1 hbeq⟩

/-- The published samples behind those of a stream: published, in order, none more than twice. -/
structure Picked (published picks : List MetricSample) : Prop where
  published : ∀ sample ∈ picks, sample ∈ published
  sorted : picks.Pairwise (·.sequence ≤ ·.sequence)
  twice : ∀ sample, picks.count sample ≤ 2

/-- Some of the picked samples in their order are picked. -/
theorem Picked.sublist {published picks picks' : List MetricSample} (h : Picked published picks)
    (hsub : picks'.Sublist picks) : Picked published picks' where
  published := fun sample hsample => h.published sample (hsub.subset hsample)
  sorted := h.sorted.sublist hsub
  twice := fun sample => (hsub.count_le sample).trans (h.twice sample)

/-- The samples of a stream are picked from the published ones. -/
theorem Follows.picked {published : List MetricSample} {r : Reader Int}
    (h : Follows published r s) (hr : r.Ordered)
    (hsequence : published.Pairwise (·.sequence < ·.sequence)) :
    ∃ picks, Picked published picks ∧ s.samples = picks.map MetricSample.toWire := by
  refine ⟨r.taken.filterMap (publishedAt published), ⟨fun sample hsample => ?_, ?_,
    count_taken_le hsequence hr⟩, ?_⟩
  · obtain ⟨version, -, hat⟩ := List.mem_filterMap.1 hsample
    cases version with
    | zero => cases hat
    | succ version => exact List.mem_of_getElem? hat
  · rw [Reader.taken, List.filterMap_filterMap, List.pairwise_filterMap]
    refine (List.pairwise_map.1 hr.sorted).imp_of_mem ?_
    intro earlier later _ hlater hle a ha b hb
    obtain ⟨v, hv, hva⟩ := Option.bind_eq_some_iff.1 ha
    obtain ⟨w, hw, hwb⟩ := Option.bind_eq_some_iff.1 hb
    have hbound := hr.bound later hlater
    rw [h.reader, h.version] at hbound
    have hseq := sequenceAt_le hsequence hle hbound
    rw [version_of_taken hv, version_of_taken hw, sequenceAt, sequenceAt, hva, hwb] at hseq
    exact hseq
  · rw [h.samples_eq, List.map_filterMap]

/-- A stream ends once the sampler is gone and the last change was seen. -/
theorem closed_of_ended (hrun : Run (Fires step) (opened before) es s) (hended : s.stage = .ended) :
    s.latest.version = s.seen ∧ s.latest.closed = true := by
  refine hrun.invariant (I := fun s => s.stage = .ended →
    s.latest.version = s.seen ∧ s.latest.closed = true) (fun hended => by cases hended) ?_ hended
  intro s e t hs hstep
  cases e with
  | publish sample =>
    simp only [Fires, step] at hstep
    split at hstep
    · cases hstep
    · next hopen =>
      cases hstep
      exact fun hended => absurd (hs hended).2 hopen
  | dropSender =>
    cases hstep
    exact fun hended => ⟨(hs hended).1, rfl⟩
  | «open» =>
    simp only [Fires, step] at hstep
    split at hstep
    · cases hstep
      intro hended
      cases hended
    · cases hstep
  | changed =>
    simp only [Fires, step] at hstep
    split at hstep
    · split at hstep
      · cases hstep
      · cases hstep
        intro hended
        cases hended
      · next hchange =>
        cases hstep
        exact fun _ => Channel.change_eq_closed_iff.1 hchange
    · cases hstep
  | deliver =>
    simp only [Fires, step] at hstep
    split at hstep
    · cases hstep
      intro hended
      cases hended
    · cases hstep
  | heartbeat nowMs =>
    simp only [Fires, step] at hstep
    split at hstep
    · cases hstep
      exact hs
    · cases hstep
  | fail =>
    simp only [Fires, step] at hstep
    split at hstep
    · cases hstep
    · cases hstep
      intro hended
      cases hended

/-- The last element of a list, kept by a partial function, is the last one it keeps. -/
theorem getLast?_filterMap {α β : Type} {f : α → Option β} {l : List α} {a : α} {b : β}
    (hlast : l.getLast? = some a) (hb : f a = some b) : (l.filterMap f).getLast? = some b := by
  obtain ⟨init, rfl⟩ := List.getLast?_eq_some_iff.1 hlast
  rw [List.filterMap_append, List.getLast?_append, List.filterMap_cons_some hb]
  rfl

/-- A stream whose reader took the last version last has written the last sample last. -/
theorem Follows.samples_getLast? {published : List MetricSample} {r : Reader Int}
    (h : Follows published r s) (hlast : r.taken.getLast? = some r.version) :
    s.samples.getLast? = published.getLast?.map MetricSample.toWire := by
  have hat : publishedAt published r.version = published.getLast? := by
    rw [← h.value_eq, h.value]
  rw [h.samples_eq]
  cases hpublished : published.getLast? with
  | some sample => exact getLast?_filterMap hlast (by rw [hat, hpublished]; rfl)
  | none =>
    -- nothing was published, so no version has a sample
    rw [List.getLast?_eq_none_iff] at hpublished
    subst hpublished
    rw [List.filterMap_eq_nil_iff.2 fun version _ => ?_]
    · rfl
    · cases version <;> rfl

end

/-! ## The results -/

/-- However publications, wake-ups and heartbeats interleave, the sequence numbers of the responses
of a stream never go back, heartbeats included, and its samples are published ones in their order,
of which none is written more than twice. -/
theorem written_in_order {before : List MetricSample} {es : List Event} {s : LiveStream}
    (hsequence : (before ++ es.filterMap Event.published).Pairwise (·.sequence < ·.sequence))
    (hrun : Run (Fires step) (opened before) es s) :
    (s.written.map StreamResponse.sequence).Pairwise (· ≤ ·) ∧
      ∃ picks, Picked (before ++ es.filterMap Event.published) picks ∧
        s.samples = picks.map MetricSample.toWire := by
  obtain ⟨r, hr, hfollows⟩ := exists_reader hrun
  refine ⟨?_, hfollows.picked hr hsequence⟩
  rw [List.pairwise_map, hfollows.written, List.pairwise_filterMap]
  refine (List.pairwise_map.1 hr.sorted).imp_of_mem ?_
  intro earlier later _ hlater hle response hresponse response' hresponse'
  rw [sequence_respond hresponse, sequence_respond hresponse']
  refine sequenceAt_le hsequence hle ?_
  rw [← hfollows.version, ← hfollows.reader]
  exact hr.bound later hlater

/-- A sample with a number and nothing else. -/
def numbered (sequence : UInt64) : MetricSample := { (default : MetricSample) with sequence }

/-- The first sample is written before the loop and again after the change it has caused; the second
one is published while the stream is about to look, and the third overtakes it. -/
def doubledEvents : List Event :=
  [.open, .heartbeat 5, .changed, .deliver, .publish (numbered 2), .changed, .publish (numbered 3),
    .deliver, .changed, .deliver]

/-- The stream after these events. -/
def doubledStream : LiveStream where
  latest := ⟨some (numbered 3), 3, false⟩
  seen := 3
  stage := .waiting
  written := [.metricSample (numbered 1).toWire, .heartbeat 5 1,
    .metricSample (numbered 1).toWire, .metricSample (numbered 3).toWire,
    .metricSample (numbered 3).toWire]

/-- These events lead to this stream. -/
theorem run_doubled : Run (Fires step) (opened [numbered 1]) doubledEvents doubledStream :=
  run_of_exec rfl

/-- The responses of this stream, of which two come twice. -/
theorem written_in_order_doubled :
    Run (Fires step) (opened [numbered 1]) doubledEvents doubledStream ∧
      (doubledStream.written.map StreamResponse.sequence).Pairwise (· ≤ ·) ∧
      ∃ picks, Picked [numbered 1, numbered 2, numbered 3] picks ∧
        doubledStream.samples = picks.map MetricSample.toWire :=
  ⟨run_doubled, written_in_order (by decide) run_doubled⟩

/-- A stream that waits with nothing new, and one that has ended because the sampler is gone, have
written the last published sample last: what was never written was overtaken. -/
theorem latest_written {before : List MetricSample} {es : List Event} {s : LiveStream}
    (hrun : Run (Fires step) (opened before) es s)
    (hidle : (s.stage = .waiting ∧ ∀ version, s.latest.change s.seen ≠ .changed version) ∨
      s.stage = .ended) :
    s.samples.getLast? =
      (before ++ es.filterMap Event.published).getLast?.map MetricSample.toWire := by
  obtain ⟨r, hr, hfollows⟩ := exists_reader hrun
  refine hfollows.samples_getLast? ?_
  rcases hidle with ⟨hwaiting, hnothing⟩ | hended
  · refine hr.current (hfollows.stage.trans hwaiting) ?_
    rw [hfollows.reader, hfollows.seen]
    by_contra hne
    exact hnothing _ (Channel.change_eq_changed_iff.2 ⟨hne, rfl⟩)
  · rw [hr.ended (hfollows.stage.trans hended), hfollows.reader, hfollows.seen,
      (closed_of_ended hrun hended).1]

/-- The last response of this stream is the last published sample. -/
theorem latest_written_doubled :
    Run (Fires step) (opened [numbered 1]) doubledEvents doubledStream ∧
      doubledStream.samples.getLast? = some (numbered 3).toWire := by
  have hidle : ∀ version, doubledStream.latest.change doubledStream.seen ≠ .changed version :=
    fun version h => absurd rfl (Channel.change_eq_changed_iff.1 h).1
  exact ⟨run_doubled, latest_written run_doubled (.inl ⟨rfl, hidle⟩)⟩

end LiveStream

end Rackio
