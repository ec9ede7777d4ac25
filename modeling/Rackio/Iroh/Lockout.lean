import Rackio.Iroh.Bystander
import Rackio.Lib.Recent

/-!
# The lockout of a pairing window

Any number of attempts, by any peers and at any times, on one window. The table of failures is a
list of recent peers: `Tracked` says so, with the counts, and `tracked_of_tried` that every attempt
keeps it.

A peer with five failures on record stays locked out as long as its entry stands, as
`locked_of_answer` shows for one attempt; and the entry stands until 64 distinct other peers got an
entry of their own after it. `failures_bounded_and_locked` puts the two together.
-/

namespace Rackio

namespace PairingWindow

/-- The peers the window has failures of, the oldest entry first. -/
def failing (w : PairingWindow) : List EndpointId := w.failures.map (·.1)

/-- A bump adds no entry and moves none. -/
theorem map_bump (peer : EndpointId) (failures : List (EndpointId × Nat)) :
    (bump peer failures).map (·.1) = failures.map (·.1) := by
  induction failures with
  | nil => rfl
  | cons entry failures ih =>
    rw [bump]
    split
    · rfl
    · rw [List.map_cons, List.map_cons, ih]

/-- A bump leaves the entries of the other peers. -/
theorem mem_bump_of_ne {peer : EndpointId} {failures : List (EndpointId × Nat)}
    {entry : EndpointId × Nat} (h : entry ∈ failures) (hne : entry.1 ≠ peer) :
    entry ∈ bump peer failures := by
  induction failures with
  | nil => cases h
  | cons head failures ih =>
    rw [bump]
    split
    · next hpeer =>
      rcases List.mem_cons.1 h with rfl | htail
      · exact absurd hpeer hne
      · exact .tail _ htail
    · rcases List.mem_cons.1 h with rfl | htail
      · exact .head _
      · exact .tail _ (ih htail)

/-- A peer has an entry when one of them is its own. -/
theorem any_failures_iff {w : PairingWindow} {peer : EndpointId} :
    w.failures.any (·.1 = peer) = true ↔ peer ∈ w.failing := by
  simp [failing]

/-- The peers after a failure. -/
theorem failing_recordFailure (w : PairingWindow) (peer : EndpointId) :
    (w.recordFailure peer).failing =
      if peer ∈ w.failing then w.failing else pushRecent maxTrackedFailingPeers w.failing peer := by
  unfold recordFailure
  by_cases hmem : peer ∈ w.failing
  · rw [if_pos (any_failures_iff.2 hmem), if_pos hmem]
    exact map_bump peer w.failures
  · rw [if_neg (mt any_failures_iff.1 hmem), if_neg hmem]
    unfold failing pushRecent
    rw [List.length_map]
    split
    · rw [List.map_append, List.map_drop]
      rfl
    · rw [List.map_append]
      rfl

/-- A peer is locked out when it has an entry with five failures. -/
theorem isLockedOut_of_mem {w : PairingWindow} {peer : EndpointId}
    (h : (peer, maxFailures) ∈ w.failures) : w.isLockedOut peer = true :=
  List.any_eq_true.2 ⟨_, h, by simp⟩

end PairingWindow

namespace PairingManager

/-- One attempt of a peer. -/
structure Attempt where
  nowMs : Int
  peer : EndpointId
  supplied : String
  deriving DecidableEq, Repr

/-- The answer to an attempt, and the manager after it. -/
def answer (b64 : Base64) (m : PairingManager) (a : Attempt) :
    Except PairingError Unit × PairingManager :=
  m.verifyAndConsumeAt b64 a.nowMs a.peer a.supplied

/-- The manager after a list of attempts. -/
def tried (b64 : Base64) (m : PairingManager) (attempts : List Attempt) : PairingManager :=
  attempts.foldl (fun m a => (m.answer b64 a).2) m

/-- The failures on record; none when no window is open. -/
def failures (m : PairingManager) : List (EndpointId × Nat) :=
  (m.active.map (·.failures)).getD []

/-- The peer an attempt newly makes an entry for. -/
def inserted (b64 : Base64) (m : PairingManager) (a : Attempt) : List EndpointId :=
  if a.peer ∉ m.failures.map (·.1) ∧ a.peer ∈ (m.answer b64 a).2.failures.map (·.1) then [a.peer]
  else []

/-- The peers that a list of attempts newly makes entries for, one after the other. -/
def insertions (b64 : Base64) (m : PairingManager) : List Attempt → List EndpointId
  | [] => []
  | a :: attempts => m.inserted b64 a ++ insertions b64 (m.answer b64 a).2 attempts

section
variable {b64 : Base64} {m : PairingManager} {a : Attempt} {attempts later : List Attempt}
  {w w' : PairingWindow}

@[simp] theorem tried_nil : m.tried b64 [] = m := rfl

theorem tried_append : m.tried b64 (attempts ++ later) = (m.tried b64 attempts).tried b64 later :=
  List.foldl_append

theorem tried_snoc : m.tried b64 (attempts ++ [a]) = ((m.tried b64 attempts).answer b64 a).2 :=
  tried_append

theorem insertions_append :
    m.insertions b64 (attempts ++ later) =
      m.insertions b64 attempts ++ (m.tried b64 attempts).insertions b64 later := by
  induction attempts generalizing m with
  | nil => rfl
  | cons a attempts ih =>
    rw [List.cons_append, insertions, insertions, ih, List.append_assoc]
    rfl

theorem insertions_snoc :
    m.insertions b64 (attempts ++ [a]) =
      m.insertions b64 attempts ++ (m.tried b64 attempts).inserted b64 a := by
  rw [insertions_append, insertions, insertions, List.append_nil]

/-! ## One attempt -/

/-- An attempt that leaves a window met it in time, and either the peer is locked out, or it is one
more failure. -/
theorem answer_cases (h : (m.answer b64 a).2.active = some w') :
    ∃ w, m.active = some w ∧ w'.expiresAtMs = w.expiresAtMs ∧
      (w.isLockedOut a.peer = true ∧ w' = w ∨
        w.isLockedOut a.peer = false ∧ w' = w.recordFailure a.peer) := by
  unfold answer verifyAndConsumeAt at h
  split at h
  · next hnone =>
    rw [hnone] at h
    cases h
  · next w hw =>
    refine ⟨w, hw, ?_⟩
    split at h
    · cases h
    · split at h
      · next hlocked =>
        rw [hw] at h
        cases h
        exact ⟨rfl, .inl ⟨hlocked, rfl⟩⟩
      · next hfree =>
        split at h
        · cases h
        · cases h
          exact ⟨(w.recordFailure_frame a.peer).2, .inr ⟨Bool.eq_false_iff.2 hfree, rfl⟩⟩

/-- The failures of a manager with a window. -/
theorem failures_of_active (h : m.active = some w) : m.failures = w.failures := by
  unfold failures
  rw [h]
  rfl

/-- What an attempt newly inserts, when it leaves a window. -/
theorem inserted_eq (h : m.active = some w) (h' : (m.answer b64 a).2.active = some w') :
    m.inserted b64 a = if a.peer ∉ w.failing ∧ a.peer ∈ w'.failing then [a.peer] else [] := by
  unfold inserted
  rw [failures_of_active h, failures_of_active h']
  rfl

/-! ## The table of failures -/

/-- The table of a window is bounded, has at most one entry for each peer, and each of them counts
between one failure and five. -/
structure Bounded (failures : List (EndpointId × Nat)) : Prop where
  length_le : failures.length ≤ maxTrackedFailingPeers
  nodup : (failures.map (·.1)).Nodup
  counts : ∀ entry ∈ failures, 1 ≤ entry.2 ∧ entry.2 ≤ maxFailures

/-- The peers on record are the most recent ones of all that were inserted, with fair counts. -/
structure Tracked (w : PairingWindow) (inserted : List EndpointId) : Prop where
  recent : Recent maxTrackedFailingPeers w.failing inserted
  counts : ∀ entry ∈ w.failures, 1 ≤ entry.2 ∧ entry.2 ≤ maxFailures

theorem Tracked.bounded {inserted : List EndpointId} (h : Tracked w inserted) :
    Bounded w.failures where
  length_le := by
    have hle := h.recent.length_le
    rwa [PairingWindow.failing, List.length_map] at hle
  nodup := h.recent.nodup
  counts := h.counts

/-- A failure of a peer that is not locked out keeps the counts. -/
theorem counts_recordFailure {peer : EndpointId}
    (h : ∀ entry ∈ w.failures, 1 ≤ entry.2 ∧ entry.2 ≤ maxFailures)
    (hfree : w.isLockedOut peer = false) :
    ∀ entry ∈ (w.recordFailure peer).failures, 1 ≤ entry.2 ∧ entry.2 ≤ maxFailures := by
  intro entry hmem
  unfold PairingWindow.recordFailure at hmem
  split at hmem
  · rcases mem_bump hmem with hold | ⟨count, hold, rfl⟩
    · exact h entry hold
    · have hcount : count ≤ 4 := atMost_of_not_lockedOut hfree (peer, count) hold rfl
      show 1 ≤ min (count + 1) 255 ∧ min (count + 1) 255 ≤ 5
      omega
  · rcases List.mem_append.1 hmem with hmem | hmem
    · split at hmem
      · exact h entry (List.mem_of_mem_drop hmem)
      · exact h entry hmem
    · rw [List.mem_singleton.1 hmem]
      exact ⟨Nat.le_refl 1, Nat.succ_le_succ (Nat.zero_le 4)⟩

/-- An attempt keeps the table of a window. -/
theorem Tracked.answer {inserted : List EndpointId} (hw : m.active = some w)
    (h : Tracked w inserted) (hw' : (m.answer b64 a).2.active = some w') :
    Tracked w' (inserted ++ m.inserted b64 a) := by
  rw [inserted_eq hw hw']
  obtain ⟨w₀, hw₀, -, hcase⟩ := answer_cases hw'
  cases hw.symm.trans hw₀
  rcases hcase with ⟨-, rfl⟩ | ⟨hfree, rfl⟩
  · rw [if_neg fun hnew => hnew.1 hnew.2, List.append_nil]
    exact h
  · refine ⟨?_, counts_recordFailure h.counts hfree⟩
    rw [PairingWindow.failing_recordFailure]
    by_cases hmem : a.peer ∈ w.failing
    · rw [if_pos hmem, if_neg fun hnew => hnew.1 hmem, List.append_nil]
      exact h.recent
    · have hpushed : a.peer ∈ pushRecent maxTrackedFailingPeers w.failing a.peer :=
        List.mem_append_right _ (.head _)
      rw [if_neg hmem, if_pos ⟨hmem, hpushed⟩]
      exact h.recent.push (Nat.succ_pos 63) hmem

/-- Where all keys are different, an entry whose key is left is left itself. -/
theorem mem_drop_of_key_mem {l : List (EndpointId × Nat)} {entry : EndpointId × Nat} {n : Nat}
    (hnodup : (l.map (·.1)).Nodup) (hmem : entry ∈ l) (hkey : entry.1 ∈ (l.drop n).map (·.1)) :
    entry ∈ l.drop n := by
  obtain ⟨other, hother, heq⟩ := List.mem_map.1 hkey
  rwa [← List.inj_on_of_nodup_map hnodup (List.mem_of_mem_drop hother) hmem heq]

/-- A peer with five failures keeps its entry as it is, or loses it. -/
theorem locked_of_answer {inserted : List EndpointId} {peer : EndpointId} (hw : m.active = some w)
    (h : Tracked w inserted) (hw' : (m.answer b64 a).2.active = some w')
    (hlocked : (peer, maxFailures) ∈ w.failures) (hstill : peer ∈ w'.failing) :
    (peer, maxFailures) ∈ w'.failures := by
  obtain ⟨w₀, hw₀, -, hcase⟩ := answer_cases hw'
  cases hw.symm.trans hw₀
  rcases hcase with ⟨-, rfl⟩ | ⟨hfree, rfl⟩
  · exact hlocked
  · have hne : peer ≠ a.peer := by
      rintro rfl
      rw [PairingWindow.isLockedOut_of_mem hlocked] at hfree
      cases hfree
    rw [PairingWindow.failing_recordFailure] at hstill
    unfold PairingWindow.recordFailure
    by_cases hmem : a.peer ∈ w.failing
    · rw [if_pos (PairingWindow.any_failures_iff.2 hmem)]
      exact PairingWindow.mem_bump_of_ne hlocked hne
    · rw [if_neg (mt PairingWindow.any_failures_iff.1 hmem)]
      rw [if_neg hmem, pushRecent] at hstill
      refine List.mem_append_left _ ?_
      have hkept : peer ∈ if w.failing.length ≥ maxTrackedFailingPeers then w.failing.drop 1
          else w.failing := by
        rcases List.mem_append.1 hstill with hkept | hnew
        · exact hkept
        · exact absurd (List.mem_singleton.1 hnew) hne
      -- the only entry of the peer is not the one that makes room
      split
      · next hfull =>
        rw [PairingWindow.failing, List.length_map, if_pos hfull, ← List.map_drop] at hkept
        exact mem_drop_of_key_mem h.recent.nodup hlocked hkept
      · exact hlocked

end

/-! ## Every list of attempts -/

section
variable {b64 : Base64} {m : PairingManager} {attempts later : List Attempt} {w w' : PairingWindow}

/-- The table of a window through a list of attempts. -/
theorem tracked_of_tried (hfresh : ∀ w, m.active = some w → w.failures = [])
    (hw : (m.tried b64 attempts).active = some w) : Tracked w (m.insertions b64 attempts) := by
  induction attempts using List.reverseRecOn generalizing w with
  | nil =>
    have hnone := hfresh w hw
    refine ⟨?_, fun entry hmem => ?_⟩
    · rw [PairingWindow.failing, hnone]
      exact Recent.nil
    · rw [hnone] at hmem
      cases hmem
  | append_singleton attempts a ih =>
    rw [tried_snoc] at hw
    obtain ⟨w₀, hw₀, -, -⟩ := answer_cases hw
    rw [insertions_snoc]
    exact (ih hw₀).answer hw₀ hw

/-- A window keeps its expiry through a list of attempts, and was there before them. -/
theorem expiresAtMs_of_tried (hw : (m.tried b64 attempts).active = some w') :
    ∃ w, m.active = some w ∧ w'.expiresAtMs = w.expiresAtMs := by
  induction attempts using List.reverseRecOn generalizing w' with
  | nil => exact ⟨w', hw, rfl⟩
  | append_singleton attempts a ih =>
    rw [tried_snoc] at hw
    obtain ⟨w₀, hw₀, hexpires, -⟩ := answer_cases hw
    obtain ⟨w, hw, hbefore⟩ := ih hw₀
    exact ⟨w, hw, hexpires.trans hbefore⟩

/-- The other peers that newly got an entry after the one that `peer` has after `attempts`, up to
the end of `later`. -/
def othersSince (b64 : Base64) (m : PairingManager) (attempts later : List Attempt)
    (peer : EndpointId) : Finset EndpointId :=
  (Recent.since (m.insertions b64 attempts) peer ++
    (m.tried b64 attempts).insertions b64 later).toFinset.erase peer

/-- A peer with five failures on record stays on record with them as long as fewer than 64 others
were inserted after it. -/
theorem locked_of_tried {peer : EndpointId} (hfresh : ∀ w, m.active = some w → w.failures = [])
    (hlocked : (peer, maxFailures) ∈ (m.tried b64 attempts).failures)
    (hfew : (othersSince b64 m attempts later peer).card < maxTrackedFailingPeers)
    (hw : (m.tried b64 (attempts ++ later)).active = some w) :
    (peer, maxFailures) ∈ w.failures := by
  induction later using List.reverseRecOn generalizing w with
  | nil =>
    rw [List.append_nil] at hw
    rwa [failures_of_active hw] at hlocked
  | append_singleton later a ih =>
    have hwhole := tracked_of_tried hfresh hw
    rw [← List.append_assoc, tried_snoc] at hw
    obtain ⟨w₀, hw₀, -, -⟩ := answer_cases hw
    -- fewer still before the last attempt
    have hbefore : (peer, maxFailures) ∈ w₀.failures := by
      refine ih (lt_of_le_of_lt (Finset.card_le_card ?_) hfew) hw₀
      unfold othersSince
      refine Finset.erase_subset_erase _ fun other hother => ?_
      rw [insertions_snoc, ← List.append_assoc, List.mem_toFinset]
      exact List.mem_append_left _ (List.mem_toFinset.1 hother)
    refine locked_of_answer hw₀ (tracked_of_tried hfresh hw₀) hw hbefore ?_
    -- the insertions of the whole run, cut at the last one of the peer
    have hmem : peer ∈ m.insertions b64 attempts := by
      cases hactive : (m.tried b64 attempts).active with
      | none =>
        unfold failures at hlocked
        rw [hactive] at hlocked
        cases hlocked
      | some w₁ =>
        rw [failures_of_active hactive] at hlocked
        exact (tracked_of_tried hfresh hactive).recent.suffix.mem (List.mem_map_of_mem hlocked)
    obtain ⟨front, hfront⟩ := Recent.eq_append_since hmem
    have hinserted : m.insertions b64 (attempts ++ (later ++ [a])) =
        front ++ peer :: (Recent.since (m.insertions b64 attempts) peer ++
          (m.tried b64 attempts).insertions b64 (later ++ [a])) := by
      rw [insertions_append]
      conv_lhs => rw [hfront]
      rw [List.append_assoc, List.cons_append]
    exact hwhole.recent.mem_of_card_lt hinserted hfew

end

/-- For every window and every list of attempts on it: the table of failures is bounded, has one
entry for a peer and counts between one and five. A peer with five failures on record is refused
whatever it supplies until the window expires, with nothing changed, as long as fewer than 64
distinct other peers got an entry after its own. -/
theorem failures_bounded_and_locked (b64 : Base64) (openedAtMs : Int) (secret : PairingSecret)
    (nodeId : Uuid) (endpointId : EndpointId) (directAddresses : List SocketAddr)
    (relayUrls : List String) (attempts : List Attempt) :
    let m :=
      (PairingManager.open b64 openedAtMs secret nodeId endpointId directAddresses relayUrls).1
    Bounded (m.tried b64 attempts).failures ∧
      ∀ peer later, (peer, maxFailures) ∈ (m.tried b64 attempts).failures →
        (othersSince b64 m attempts later peer).card < maxTrackedFailingPeers →
        ∀ nowMs ≤ openedAtMs + pairingWindowMs, ∀ supplied,
          let now := m.tried b64 (attempts ++ later)
          now.verifyAndConsumeAt b64 nowMs peer supplied =
            (.error (if now.isOpen then .rejected else .windowClosed), now) := by
  intro m
  have hfresh : ∀ w, m.active = some w → w.failures = [] := by
    rintro w ⟨⟩
    rfl
  refine ⟨?_, fun peer later hlocked hfew nowMs hnow supplied => ?_⟩
  · cases hactive : (m.tried b64 attempts).active with
    | none =>
      unfold failures
      rw [hactive]
      exact ⟨Nat.zero_le _, List.nodup_nil, fun entry hmem => by cases hmem⟩
    | some w =>
      rw [failures_of_active hactive]
      exact (tracked_of_tried hfresh hactive).bounded
  · intro now
    unfold verifyAndConsumeAt isOpen
    cases hactive : now.active with
    | none => rfl
    | some w =>
      obtain ⟨w₀, hw₀, hexpires⟩ := expiresAtMs_of_tried hactive
      cases hw₀
      have hintime : ¬ nowMs > w.expiresAtMs := by
        rw [hexpires]
        exact not_lt.2 hnow
      have hmem := locked_of_tried hfresh hlocked hfew hactive
      simp only [if_neg hintime, PairingWindow.isLockedOut_of_mem hmem, if_true,
        Option.isSome_some]

open NodeRuntime (viewer zeroBase64 zeroSecret zeroSecretText)

/-- Five guesses of a bystander. -/
def fiveGuesses : List Attempt := List.replicate 5 ⟨1, bystander, "guess"⟩

/-- A window that a bystander guessed at five times, and the viewer once. -/
def guessedAt : PairingManager :=
  (PairingManager.open zeroBase64 0 zeroSecret default default [] []).1.tried zeroBase64
    (fiveGuesses ++ [⟨2, viewer, "guess"⟩])

/-- After five guesses, the secret itself is refused. -/
theorem failures_bounded_and_locked_example :
    guessedAt.verifyAndConsumeAt zeroBase64 3 bystander zeroSecretText =
      (.error .rejected, guessedAt) :=
  (failures_bounded_and_locked zeroBase64 0 zeroSecret default default [] [] fiveGuesses).2
    bystander [⟨2, viewer, "guess"⟩] (by decide) (by decide) 3 (by decide) zeroSecretText

end PairingManager

end Rackio
