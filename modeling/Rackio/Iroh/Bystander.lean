import Rackio.Iroh.Provenance

/-!
# Bystanders of a pairing

Two runs of one `PairingManager`: the windows that are opened and the attempts of one viewer, and
the same with the attempts of any other peers in between. The table of failures is shared and
bounded, so a bystander may push the viewer's entry out, and any late attempt closes the window.

`Related` goes between the two runs. In the run with the others the viewer never has more failures
on record, and when its window is gone there, the viewer alone would not be let in any more either.
`bystander_run` keeps it along every run, and `verifyAndConsumeAt_ok_of_alone` is what it gives the
viewer.
-/

namespace Rackio.PairingManager

/-- What reaches a pairing manager. -/
inductive Event
  | «open» (nowMs : Int) (secret : PairingSecret) (nodeId : Uuid) (endpointId : EndpointId)
    (directAddresses : List SocketAddr) (relayUrls : List String)
  | attempt (nowMs : Int) (peer : EndpointId) (supplied : String)

/-- The time of an attempt. -/
def Event.attemptAt : Event → Option Int
  | .open .. => none
  | .attempt nowMs _ _ => some nowMs

/-- The event is there also when `viewer` is alone. -/
def Event.isOf (viewer : EndpointId) : Event → Bool
  | .open .. => true
  | .attempt _ peer _ => peer = viewer

/-- One event, with the answer dropped. -/
def step (b64 : Base64) (m : PairingManager) : Event → PairingManager
  | .open nowMs secret nodeId endpointId directAddresses relayUrls =>
    (PairingManager.open b64 nowMs secret nodeId endpointId directAddresses relayUrls).1
  | .attempt nowMs peer supplied => (m.verifyAndConsumeAt b64 nowMs peer supplied).2

/-- The manager after a list of events, from the start of the daemon. -/
def after (b64 : Base64) (es : List Event) : PairingManager := es.foldl (step b64) ⟨none⟩

/-- The events of a run in which `viewer` pairs among other peers. -/
structure Among (b64 : Base64) (viewer : EndpointId) (es : List Event) : Prop where
  /-- The attempts come in the order of their times. -/
  ordered : (es.filterMap Event.attemptAt).Pairwise (· ≤ ·)
  /-- No other peer supplies the secret of the window that is open then. -/
  strangers : ∀ before after nowMs peer supplied,
    es = before ++ .attempt nowMs peer supplied :: after → peer ≠ viewer →
      ∀ w, (PairingManager.after b64 before).active = some w → ¬ Matches b64 w.secret supplied

section
variable {b64 : Base64} {viewer : EndpointId} {es fs : List Event} {e : Event}

@[simp] theorem after_nil : after b64 [] = ⟨none⟩ := rfl

@[simp] theorem after_snoc : after b64 (es ++ [e]) = step b64 (after b64 es) e := by
  simp [after]

/-- A run may be looked at before its end. -/
theorem Among.left (h : Among b64 viewer (es ++ fs)) : Among b64 viewer es := by
  refine ⟨?_, fun before after nowMs peer supplied hes => ?_⟩
  · have hordered := h.ordered
    rw [List.filterMap_append] at hordered
    exact (List.pairwise_append.1 hordered).1
  · refine h.strangers before (after ++ fs) nowMs peer supplied ?_
    rw [hes, List.append_assoc, List.cons_append]

/-- An attempt is not earlier than those before it. -/
theorem Among.le_of_mem {nowMs : Int} {peer : EndpointId} {supplied : String}
    (h : Among b64 viewer (es ++ [.attempt nowMs peer supplied])) {t : Int}
    (ht : t ∈ es.filterMap Event.attemptAt) : t ≤ nowMs := by
  have hordered := h.ordered
  rw [List.filterMap_append] at hordered
  exact (List.pairwise_append.1 hordered).2.2 t ht nowMs (by simp [Event.attemptAt])

end

/-! ## One table of failures -/

/-- The table of a window that only `viewer` has tried, `n` times. -/
def aloneFailures (viewer : EndpointId) (n : Nat) : List (EndpointId × Nat) :=
  if n = 0 then [] else [(viewer, n)]

/-- Every entry of `viewer` counts at most `n` failures. -/
def AtMost (viewer : EndpointId) (n : Nat) (failures : List (EndpointId × Nat)) : Prop :=
  ∀ entry ∈ failures, entry.1 = viewer → entry.2 ≤ n

section
variable {viewer peer : EndpointId} {n k : Nat} {w : PairingWindow}

theorem AtMost.mono {failures : List (EndpointId × Nat)} (h : AtMost viewer n failures)
    (hle : n ≤ k) : AtMost viewer k failures :=
  fun entry hmem hid => (h entry hmem hid).trans hle

/-- Alone, a viewer is locked out after five failures. -/
theorem isLockedOut_alone (h : w.failures = aloneFailures viewer n) :
    w.isLockedOut viewer = decide (maxFailures ≤ n) := by
  unfold PairingWindow.isLockedOut aloneFailures at *
  rw [h]
  split
  · next hn => simp [hn, maxFailures]
  · simp

/-- A viewer with few failures on record is not locked out. -/
theorem AtMost.isLockedOut (h : AtMost viewer n w.failures) (hn : n < maxFailures) :
    w.isLockedOut viewer = false := by
  unfold PairingWindow.isLockedOut
  refine List.any_eq_false.2 fun entry hmem => ?_
  simp only [Bool.and_eq_true, decide_eq_true_eq, not_and, Nat.not_le]
  intro hid
  exact (h entry hmem hid).trans_lt hn

/-- A viewer that is not locked out has at most four failures on record. -/
theorem atMost_of_not_lockedOut (h : w.isLockedOut viewer = false) :
    AtMost viewer 4 w.failures := by
  intro entry hmem hid
  have hnot := List.any_eq_false.1 h entry hmem
  simp only [hid, decide_true, Bool.true_and, decide_eq_true_eq] at hnot
  exact Nat.le_of_lt_succ (Nat.not_le.1 hnot)

/-- Alone, a failure is counted. -/
theorem recordFailure_alone (h : w.failures = aloneFailures viewer n) (hn : n < maxFailures) :
    (w.recordFailure viewer).failures = aloneFailures viewer (n + 1) := by
  unfold maxFailures at hn
  unfold PairingWindow.recordFailure aloneFailures at *
  rw [h]
  by_cases h0 : n = 0
  · simp [h0]
  · have hcap : n < 255 := by omega
    simp [h0, PairingWindow.bump, hcap]

/-- The entries after a bump are those before it, but for one of the peer with one failure more. -/
theorem mem_bump {failures : List (EndpointId × Nat)} {entry : EndpointId × Nat}
    (h : entry ∈ PairingWindow.bump peer failures) :
    entry ∈ failures ∨ ∃ count, (peer, count) ∈ failures ∧ entry = (peer, min (count + 1) 255) := by
  induction failures with
  | nil => exact .inl h
  | cons head rest ih =>
    obtain ⟨id, count⟩ := head
    rw [PairingWindow.bump] at h
    split at h
    · next hpeer =>
      subst hpeer
      rcases List.mem_cons.1 h with rfl | hmem
      · exact .inr ⟨count, .head _, rfl⟩
      · exact .inl (.tail _ hmem)
    · rcases List.mem_cons.1 h with rfl | hmem
      · exact .inl (.head _)
      · rcases ih hmem with hold | ⟨count', hold, heq⟩
        · exact .inl (.tail _ hold)
        · exact .inr ⟨count', .tail _ hold, heq⟩

/-- A bump counts one failure more. -/
theorem AtMost.bump {failures : List (EndpointId × Nat)} (h : AtMost viewer n failures) :
    AtMost viewer (n + 1) (PairingWindow.bump peer failures) := by
  intro entry hmem hid
  rcases mem_bump hmem with hold | ⟨count, hold, rfl⟩
  · exact (h entry hold hid).trans (Nat.le_succ n)
  · have hcount : count ≤ n := h (peer, count) hold hid
    show min (count + 1) 255 ≤ n + 1
    omega

/-- A bump of another peer counts nothing. -/
theorem AtMost.bump_of_ne {failures : List (EndpointId × Nat)} (h : AtMost viewer n failures)
    (hne : peer ≠ viewer) : AtMost viewer n (PairingWindow.bump peer failures) := by
  intro entry hmem hid
  rcases mem_bump hmem with hold | ⟨count, -, rfl⟩
  · exact h entry hold hid
  · exact absurd hid hne

/-- What is left of a table and one new entry at its end. -/
theorem AtMost.push {failures : List (EndpointId × Nat)} (h : AtMost viewer n failures)
    (hnew : peer = viewer → 1 ≤ n) :
    AtMost viewer n ((if failures.length ≥ maxTrackedFailingPeers then failures.drop 1
      else failures) ++ [(peer, 1)]) := by
  intro entry hmem hid
  rcases List.mem_append.1 hmem with hmem | hmem
  · split at hmem
    · exact h entry (List.mem_of_mem_drop hmem) hid
    · exact h entry hmem hid
  · rw [List.mem_singleton] at hmem
    subst hmem
    exact hnew hid

/-- A failure of the viewer counts at most one more, also when its entry was pushed out. -/
theorem AtMost.recordFailure (h : AtMost viewer n w.failures) :
    AtMost viewer (n + 1) (w.recordFailure viewer).failures := by
  unfold PairingWindow.recordFailure
  split
  · exact h.bump
  · exact (h.mono (Nat.le_succ n)).push fun _ => Nat.le_add_left 1 n

/-- A failure of another peer counts nothing, and may push the viewer's entry out. -/
theorem AtMost.recordFailure_of_ne (h : AtMost viewer n w.failures) (hne : peer ≠ viewer) :
    AtMost viewer n (w.recordFailure peer).failures := by
  unfold PairingWindow.recordFailure
  split
  · exact h.bump_of_ne hne
  · exact h.push fun hpeer => absurd hpeer hne

end

/-! ## The two runs -/

/-- The managers of the run with the others and of the run of the viewer alone, after attempts at
`times`. -/
inductive Related (viewer : EndpointId) (times : List Int) : PairingManager → PairingManager → Prop
  | closed : Related viewer times ⟨none⟩ ⟨none⟩
  /-- The same window; the viewer has at most the failures it would have alone. -/
  | «open» {w alone : PairingWindow} {n : Nat} (hsecret : w.secret = alone.secret)
    (hexpires : w.expiresAtMs = alone.expiresAtMs)
    (halone : alone.failures = aloneFailures viewer n) (hn : n ≤ maxFailures)
    (hfailures : AtMost viewer n w.failures) : Related viewer times ⟨some w⟩ ⟨some alone⟩
  /-- The window is gone, and it would not let the viewer in either: it is locked out, or late. -/
  | gone {alone : PairingWindow}
    (h : alone.isLockedOut viewer = true ∨ ∃ t ∈ times, alone.expiresAtMs < t) :
    Related viewer times ⟨none⟩ ⟨some alone⟩

section
variable {b64 : Base64} {viewer peer : EndpointId} {times : List Int} {m alone : PairingManager}
  {nowMs : Int} {supplied : String} {w : PairingWindow}

/-- An attempt on a window. -/
theorem verifyAndConsumeAt_window :
    verifyAndConsumeAt b64 ⟨some w⟩ nowMs peer supplied =
      if nowMs > w.expiresAtMs then (.error .expired, ⟨none⟩)
      else if w.isLockedOut peer then (.error .rejected, ⟨some w⟩)
      else if isValid b64 w.secret supplied then (.ok (), ⟨none⟩)
      else (.error .rejected, ⟨some (w.recordFailure peer)⟩) := rfl

/-- A later attempt changes nothing that was too late before. -/
theorem Related.mono {times' : List Int} (h : Related viewer times m alone)
    (hle : times ⊆ times') : Related viewer times' m alone := by
  cases h with
  | closed => exact .closed
  | «open» hsecret hexpires halone hn hfailures =>
    exact .open hsecret hexpires halone hn hfailures
  | gone h => exact .gone (h.imp_right fun ⟨t, ht, hlate⟩ => ⟨t, hle ht, hlate⟩)

/-- Opening a window replaces what there was in both runs. -/
theorem Related.open_window (secret : PairingSecret) (nodeId : Uuid) (endpointId : EndpointId)
    (directAddresses : List SocketAddr) (relayUrls : List String) :
    Related viewer times
      (PairingManager.open b64 nowMs secret nodeId endpointId directAddresses relayUrls).1
      (PairingManager.open b64 nowMs secret nodeId endpointId directAddresses relayUrls).1 := by
  refine .open (n := 0) rfl rfl rfl (Nat.zero_le _) ?_
  intro entry hmem
  cases hmem

/-- An attempt of another peer, which the run of the viewer alone does not have. -/
theorem Related.stranger (h : Related viewer times m alone) (hpeer : peer ≠ viewer)
    (hsecret : ∀ w, m.active = some w → ¬ Matches b64 w.secret supplied) :
    Related viewer (times ++ [nowMs]) (m.verifyAndConsumeAt b64 nowMs peer supplied).2 alone := by
  cases h with
  | closed => exact .closed
  | gone h =>
    exact (Related.gone h).mono (List.subset_append_left times [nowMs])
  | @«open» w alone n hsame hexpires halone hn hfailures =>
    have hinvalid : isValid b64 w.secret supplied = false :=
      Bool.eq_false_iff.2 fun hvalid => hsecret w rfl (isValid_iff.1 hvalid)
    simp only [verifyAndConsumeAt_window, hinvalid, Bool.false_eq_true, if_false]
    split_ifs with hlate hlocked
    · refine .gone (.inr ⟨nowMs, by simp, ?_⟩)
      rw [← hexpires]
      exact hlate
    · exact .open hsame hexpires halone hn hfailures
    · obtain ⟨hs, he⟩ := w.recordFailure_frame peer
      exact .open (hs.trans hsame) (he.trans hexpires) halone hn
        (hfailures.recordFailure_of_ne hpeer)

/-- An attempt of the viewer, in both runs. What is accepted alone is accepted among the others. -/
theorem Related.attempt (h : Related viewer times m alone) (hle : ∀ t ∈ times, t ≤ nowMs) :
    ((alone.verifyAndConsumeAt b64 nowMs viewer supplied).1 = .ok () →
        (m.verifyAndConsumeAt b64 nowMs viewer supplied).1 = .ok ()) ∧
      Related viewer (times ++ [nowMs]) (m.verifyAndConsumeAt b64 nowMs viewer supplied).2
        (alone.verifyAndConsumeAt b64 nowMs viewer supplied).2 := by
  cases h with
  | closed => exact ⟨id, .closed⟩
  | @gone alone h =>
    rw [verifyAndConsumeAt_window]
    by_cases hlate : nowMs > alone.expiresAtMs
    · rw [if_pos hlate]
      refine ⟨?_, .closed⟩
      intro hok
      cases hok
    · -- The attempt is not late, so none before it was, and the viewer is locked out alone.
      have hlocked : alone.isLockedOut viewer = true := by
        refine h.resolve_right ?_
        rintro ⟨t, ht, hlt⟩
        exact hlate (hlt.trans_le (hle t ht))
      rw [if_neg hlate, if_pos hlocked]
      refine ⟨?_, .gone (.inl hlocked)⟩
      intro hok
      cases hok
  | @«open» w alone n hsame hexpires halone hn hfailures =>
    rw [verifyAndConsumeAt_window, verifyAndConsumeAt_window, hsame, hexpires]
    by_cases hlate : nowMs > alone.expiresAtMs
    · rw [if_pos hlate, if_pos hlate]
      exact ⟨id, .closed⟩
    rw [if_neg hlate, if_neg hlate]
    by_cases hfew : n < maxFailures
    · -- Not locked out alone, so not among the others.
      have haloneFree : alone.isLockedOut viewer = false := by
        rw [isLockedOut_alone halone]
        exact decide_eq_false (Nat.not_le.2 hfew)
      rw [haloneFree, hfailures.isLockedOut hfew]
      simp only [Bool.false_eq_true, if_false]
      by_cases hvalid : isValid b64 alone.secret supplied = true
      · rw [if_pos hvalid, if_pos hvalid]
        exact ⟨id, .closed⟩
      · rw [if_neg hvalid, if_neg hvalid]
        obtain ⟨hs, he⟩ := w.recordFailure_frame viewer
        obtain ⟨hs', he'⟩ := alone.recordFailure_frame viewer
        refine ⟨id, .open (n := n + 1) ?_ ?_ (recordFailure_alone halone hfew) hfew
          hfailures.recordFailure⟩
        · rw [hs, hs', hsame]
        · rw [he, he', hexpires]
    · -- Locked out alone. Among the others the entry may be gone, and then the attempt counts.
      have hfive : n = maxFailures := Nat.le_antisymm hn (Nat.not_lt.1 hfew)
      have haloneLocked : alone.isLockedOut viewer = true := by
        rw [isLockedOut_alone halone, hfive]
        exact decide_eq_true (Nat.le_refl _)
      rw [if_pos haloneLocked]
      refine ⟨?_, ?_⟩
      · intro hok
        cases hok
      · split_ifs with hlocked hvalid
        · exact .open hsame hexpires halone hn hfailures
        · exact .gone (.inl haloneLocked)
        · obtain ⟨hs, he⟩ := w.recordFailure_frame viewer
          have hcount := (atMost_of_not_lockedOut (Bool.eq_false_iff.2 hlocked)).recordFailure
          refine .open (hs.trans hsame) (he.trans hexpires) halone hn (hcount.mono ?_)
          rw [hfive]
          exact Nat.le_refl 5

end

section
variable {b64 : Base64} {viewer : EndpointId} {es : List Event}

/-- The two runs stay related. -/
theorem bystander_run (h : Among b64 viewer es) :
    Related viewer (es.filterMap Event.attemptAt) (after b64 es)
      (after b64 (es.filter (Event.isOf viewer))) := by
  induction es using List.reverseRecOn with
  | nil => exact .closed
  | append_singleton es e ih =>
    have hrel := ih h.left
    rw [List.filterMap_append, List.filter_append, after_snoc]
    cases e with
    | «open» nowMs secret nodeId endpointId directAddresses relayUrls =>
      simp only [List.filter_cons, Event.isOf, if_true, List.filter_nil, after_snoc]
      exact Related.open_window secret nodeId endpointId directAddresses relayUrls
    | attempt nowMs peer supplied =>
      have htimes : [Event.attempt nowMs peer supplied].filterMap Event.attemptAt = [nowMs] := rfl
      rw [htimes]
      by_cases hpeer : peer = viewer
      · subst hpeer
        simp only [List.filter_cons, Event.isOf, decide_true, if_true, List.filter_nil, after_snoc]
        exact (hrel.attempt fun t ht => h.le_of_mem ht).2
      · simp only [List.filter_cons, Event.isOf, hpeer, decide_false, Bool.false_eq_true, if_false,
          List.filter_nil, List.append_nil]
        exact hrel.stranger hpeer (h.strangers es [] nowMs peer supplied rfl hpeer)

/-- An attempt of the viewer that is accepted when it is alone is accepted among the others. -/
theorem verifyAndConsumeAt_ok_of_alone (h : Among b64 viewer es) {before rest : List Event}
    {nowMs : Int} {supplied : String} (hes : es = before ++ .attempt nowMs viewer supplied :: rest)
    (hok : ((after b64 (before.filter (Event.isOf viewer))).verifyAndConsumeAt b64 nowMs viewer
      supplied).1 = .ok ()) :
    ((after b64 before).verifyAndConsumeAt b64 nowMs viewer supplied).1 = .ok () := by
  have hupto : Among b64 viewer (before ++ [.attempt nowMs viewer supplied]) := by
    rw [hes, List.append_cons] at h
    exact h.left
  exact ((bystander_run hupto.left).attempt fun t ht => hupto.le_of_mem ht).1 hok

end

open NodeRuntime (viewer zeroBase64 zeroSecret zeroSecretText)

/-- A peer that guesses. -/
def bystander : EndpointId := ⟨"0000000000000000000000000000bad0"⟩

/-- A window that a bystander tries before the viewer. -/
def guessedWindow : List Event :=
  [.open 0 zeroSecret default default [] [], .attempt 1 bystander "guess"]

/-- The viewer comes after a guess. -/
theorem among_guessedWindow :
    Among zeroBase64 viewer (guessedWindow ++ [.attempt 2 viewer zeroSecretText]) := by
  refine ⟨by decide, fun before rest nowMs peer supplied hes hpeer => ?_⟩
  intro w hw hmatch
  rcases before with _ | ⟨_, _ | ⟨_, _ | ⟨_, before⟩⟩⟩
  · simp [guessedWindow] at hes
  · simp only [guessedWindow, List.cons_append, List.nil_append, List.cons.injEq,
      Event.attempt.injEq] at hes
    obtain ⟨-, ⟨-, -, rfl⟩, -⟩ := hes
    simp [Matches, zeroBase64, zeroSecretText] at hmatch
  · simp only [guessedWindow, List.cons_append, List.nil_append, List.cons.injEq,
      Event.attempt.injEq] at hes
    obtain ⟨-, -, ⟨-, hpeer', -⟩, -⟩ := hes
    exact hpeer hpeer'.symm
  · simp [guessedWindow] at hes

/-- A guess does not cost the viewer its pairing. -/
theorem verifyAndConsumeAt_ok_of_alone_example :
    ((after zeroBase64 guessedWindow).verifyAndConsumeAt zeroBase64 2 viewer zeroSecretText).1 =
      .ok () :=
  verifyAndConsumeAt_ok_of_alone among_guessedWindow rfl (by decide)

end Rackio.PairingManager
