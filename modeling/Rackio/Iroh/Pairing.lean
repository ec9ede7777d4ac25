import Rackio.Lib.Table
import Rackio.Core.Model
import Rackio.Remote.Error

/-!
# Pairing windows and the peer allowlist

`PairingManager` and `PeerRegistry` of `rackio-iroh/src/pairing.rs`. A window carries a one-time
secret of 32 bytes, its expiry and the failed attempts of each peer; `verifyAndConsumeAt` judges one
attempt against it. The registry is the allowlist, keyed by the text of the endpoint.

`PairingManager.verifyAndConsumeAt_ok` says what an accepted attempt has shown and that it leaves no
window behind; `PairingManager.verifyAndConsumeAt_error` that a refused one never opens a window or
moves the secret or the expiry of the current one.
-/

namespace Rackio

/-- The source's `PAIRING_SECRET_BYTES`. -/
def pairingSecretBytes : Nat := 32

/-- The source's `PAIRING_WINDOW`, in milliseconds. -/
def pairingWindowMs : Int := 5 * 60 * 1000

/-- The source's `MAX_FAILURES`. -/
def maxFailures : Nat := 5

/-- The source's `MAX_TRACKED_FAILING_PEERS`. -/
def maxTrackedFailingPeers : Nat := 64

/-- The URL-safe base64 engine without padding. -/
structure Base64 where
  encode : List UInt8 → String
  decode : String → Option (List UInt8)

/-- The source's `PairingBundle`. -/
structure PairingBundle where
  formatVersion : UInt8
  nodeId : Uuid
  endpointId : String
  directAddresses : List SocketAddr
  relayUrls : List String
  oneTimeSecret : String
  expiresAtMs : Int
  deriving DecidableEq, Repr

/-- The secret of a window. -/
structure PairingSecret where
  bytes : List UInt8
  length_eq : bytes.length = pairingSecretBytes
  deriving DecidableEq, Repr

/-- The source's `PairingWindow`. -/
structure PairingWindow where
  secret : PairingSecret
  expiresAtMs : Int
  failures : List (EndpointId × Nat)
  deriving DecidableEq, Repr

namespace PairingWindow

/-- Add one failure to the first entry of `peer`. -/
def bump (peer : EndpointId) : List (EndpointId × Nat) → List (EndpointId × Nat)
  | [] => []
  | (id, count) :: rest =>
    if id = peer then (id, min (count + 1) 255) :: rest else (id, count) :: bump peer rest

/-- The source's `record_failure`: the oldest entry makes room for a new peer. -/
def recordFailure (w : PairingWindow) (peer : EndpointId) : PairingWindow :=
  if w.failures.any (·.1 = peer) then { w with failures := bump peer w.failures }
  else
    let kept :=
      if w.failures.length ≥ maxTrackedFailingPeers then w.failures.drop 1 else w.failures
    { w with failures := kept ++ [(peer, 1)] }

/-- The source's `is_locked_out`. -/
def isLockedOut (w : PairingWindow) (peer : EndpointId) : Bool :=
  w.failures.any fun entry => entry.1 = peer && entry.2 ≥ maxFailures

/-- The failures the window has on record for `peer`. -/
def recordedFailures (w : PairingWindow) (peer : EndpointId) : Nat :=
  ((w.failures.find? (·.1 = peer)).map (·.2)).getD 0

/-- A failed attempt touches only the failure table. -/
theorem recordFailure_frame (w : PairingWindow) (peer : EndpointId) :
    (w.recordFailure peer).secret = w.secret ∧
      (w.recordFailure peer).expiresAtMs = w.expiresAtMs := by
  unfold recordFailure
  split
  · exact ⟨rfl, rfl⟩
  · exact ⟨rfl, rfl⟩

/-- A peer that is not locked out has fewer than five failures on record. -/
theorem recordedFailures_lt {w : PairingWindow} {peer : EndpointId}
    (h : w.isLockedOut peer = false) : w.recordedFailures peer < maxFailures := by
  unfold recordedFailures
  cases hf : w.failures.find? (·.1 = peer) with
  | none => exact Nat.zero_lt_succ 4
  | some entry =>
    have hmem : entry ∈ w.failures := List.mem_of_find?_eq_some hf
    have hid : entry.1 = peer := by simpa using List.find?_some hf
    have hnot := List.any_eq_false.1 h entry hmem
    simp only [hid, decide_true, Bool.true_and, decide_eq_true_eq] at hnot
    exact Nat.not_le.1 hnot

end PairingWindow

/-- The source's `PairingManager`. -/
structure PairingManager where
  active : Option PairingWindow
  deriving DecidableEq, Repr

namespace PairingManager

/-- The source's `is_open`. -/
def isOpen (m : PairingManager) : Bool := m.active.isSome

/-- The source's `open` at `nowMs`, with the secret the generator filled in. -/
def «open» (b64 : Base64) (nowMs : Int) (secret : PairingSecret) (nodeId : Uuid)
    (endpointId : EndpointId) (directAddresses : List SocketAddr) (relayUrls : List String) :
    PairingManager × PairingBundle :=
  let expiresAtMs := nowMs + pairingWindowMs
  (⟨some { secret := secret, expiresAtMs := expiresAtMs, failures := [] }⟩,
    { formatVersion := 1
      nodeId := nodeId
      endpointId := endpointId.toString
      directAddresses := directAddresses
      relayUrls := relayUrls
      oneTimeSecret := b64.encode secret.bytes
      expiresAtMs := expiresAtMs })

/-- The supplied text decodes to exactly the bytes of the secret. -/
def Matches (b64 : Base64) (secret : PairingSecret) (supplied : String) : Prop :=
  b64.decode supplied = some secret.bytes

instance (b64 : Base64) (secret : PairingSecret) (supplied : String) :
    Decidable (Matches b64 secret supplied) := inferInstanceAs (Decidable (_ = _))

/-- The source's comparison of a supplied secret: decoded, of the right length, and equal. -/
def isValid (b64 : Base64) (secret : PairingSecret) (supplied : String) : Bool :=
  match b64.decode supplied with
  | none => false
  | some bytes => bytes.length = pairingSecretBytes && secret.bytes = bytes

/-- The comparison accepts exactly the bytes of the secret. -/
theorem isValid_iff {b64 : Base64} {secret : PairingSecret} {supplied : String} :
    isValid b64 secret supplied = true ↔ Matches b64 secret supplied := by
  unfold isValid Matches
  cases hd : b64.decode supplied with
  | none => simp
  | some bytes =>
    simp only [Bool.and_eq_true, decide_eq_true_eq, Option.some.injEq]
    constructor
    · rintro ⟨-, h⟩
      exact h.symm
    · rintro rfl
      exact ⟨secret.length_eq, rfl⟩

/-- The source's `verify_and_consume_at`. -/
def verifyAndConsumeAt (b64 : Base64) (m : PairingManager) (nowMs : Int) (peer : EndpointId)
    (supplied : String) : Except PairingError Unit × PairingManager :=
  match m.active with
  | none => (.error .windowClosed, m)
  | some window =>
    if nowMs > window.expiresAtMs then (.error .expired, ⟨none⟩)
    else if window.isLockedOut peer then (.error .rejected, m)
    else if isValid b64 window.secret supplied then (.ok (), ⟨none⟩)
    else (.error .rejected, ⟨some (window.recordFailure peer)⟩)

variable {b64 : Base64} {m m' : PairingManager} {nowMs : Int} {peer : EndpointId}
  {supplied : String}

/-- An accepted attempt met the current window in time, not locked out and with its secret, and
leaves no window. -/
theorem verifyAndConsumeAt_ok
    (h : m.verifyAndConsumeAt b64 nowMs peer supplied = (.ok (), m')) :
    m' = ⟨none⟩ ∧ ∃ w, m.active = some w ∧ nowMs ≤ w.expiresAtMs ∧
      Matches b64 w.secret supplied ∧ w.recordedFailures peer < maxFailures := by
  unfold verifyAndConsumeAt at h
  split at h
  · cases h
  · next w hw =>
    split at h
    · cases h
    · next hexp =>
      split at h
      · cases h
      · next hlock =>
        split at h
        · next hvalid =>
          cases h
          exact ⟨rfl, w, hw, Int.not_lt.1 hexp, isValid_iff.1 hvalid,
            PairingWindow.recordedFailures_lt (Bool.eq_false_iff.2 hlock)⟩
        · cases h

/-- A refused attempt leaves no window, or the current one with its secret and its expiry. -/
theorem verifyAndConsumeAt_error {e : PairingError}
    (h : m.verifyAndConsumeAt b64 nowMs peer supplied = (.error e, m')) :
    ∀ w', m'.active = some w' →
      ∃ w, m.active = some w ∧ w'.secret = w.secret ∧ w'.expiresAtMs = w.expiresAtMs := by
  intro w' hw'
  unfold verifyAndConsumeAt at h
  split at h
  · next hw =>
    cases h
    rw [hw] at hw'
    cases hw'
  · next w hw =>
    split at h
    · cases h
      cases hw'
    · split at h
      · cases h
        rw [hw] at hw'
        cases hw'
        exact ⟨_, hw, rfl, rfl⟩
      · split at h
        · cases h
        · cases h
          cases hw'
          exact ⟨w, hw, w.recordFailure_frame peer⟩

end PairingManager

/-! ## The allowlist -/

/-- The source's `PeerPermissions`. -/
structure PeerPermissions where
  readMetrics : Bool
  readHistory : Bool
  deriving DecidableEq, Repr

/-- The source's `PeerPermissions::default`. -/
instance : Inhabited PeerPermissions := ⟨⟨true, true⟩⟩

/-- The source's `PeerRecord`. -/
structure PeerRecord where
  endpointId : String
  pairedAtMs : Int
  permissions : PeerPermissions
  deriving DecidableEq, Repr

/-- The source's `PeerRegistry`: the records in memory, which are also those on disk. -/
structure PeerRegistry where
  records : Table String PeerRecord
  deriving DecidableEq

namespace PeerRegistry

/-- The source's `permissions`. -/
def permissions (r : PeerRegistry) (peer : EndpointId) : Option PeerPermissions :=
  (r.records.find peer.toString).map (·.permissions)

/-- The source's `contains`. -/
def contains (r : PeerRegistry) (peer : EndpointId) : Bool := (r.permissions peer).isSome

/-- The source's `authorize_preserving` at `nowMs`, with the outcome of persisting the new table. -/
def authorizePreserving (r : PeerRegistry) (persist : Except PairingError Unit) (nowMs : Int)
    (peer : EndpointId) : Except PairingError PeerPermissions × PeerRegistry :=
  let permissions := ((r.records.find peer.toString).map (·.permissions)).getD default
  match persist with
  | .error e => (.error e, r)
  | .ok () =>
    (.ok permissions,
      ⟨r.records.insert peer.toString
        { endpointId := peer.toString, pairedAtMs := nowMs, permissions := permissions }⟩)

/-- The source's `revoke`, with the outcome of persisting the new table. -/
def revoke (r : PeerRegistry) (persist : Except PairingError Unit) (endpointId : String) :
    Except PairingError Bool × PeerRegistry :=
  match r.records.find endpointId with
  | none => (.ok false, r)
  | some _ =>
    match persist with
    | .error e => (.error e, r)
    | .ok () => (.ok true, ⟨r.records.erase endpointId⟩)

/-- What an authorization does to the permissions of every endpoint: it only adds `peer`. -/
theorem find_authorizePreserving (r : PeerRegistry) (persist : Except PairingError Unit)
    (nowMs : Int) (peer : EndpointId) (k : String) :
    ((r.authorizePreserving persist nowMs peer).2.records.find k).map (·.permissions) =
      if k = peer.toString ∧ persist = .ok () then
        some (((r.records.find k).map (·.permissions)).getD default)
      else (r.records.find k).map (·.permissions) := by
  cases persist with
  | error e => simp [authorizePreserving]
  | ok u =>
    simp only [authorizePreserving, Table.find_insert, and_true]
    by_cases hk : k = peer.toString
    · simp [hk]
    · simp [hk]

/-- The endpoints of an allowlist after an authorization. -/
theorem contains_authorizePreserving (r : PeerRegistry) (persist : Except PairingError Unit)
    (nowMs : Int) (peer p : EndpointId) :
    (r.authorizePreserving persist nowMs peer).2.contains p = true ↔
      r.contains p = true ∨ (p = peer ∧ persist = .ok ()) := by
  have hkey : p.toString = peer.toString ↔ p = peer :=
    ⟨fun h => by cases p; cases peer; exact congrArg EndpointId.mk h, fun h => h ▸ rfl⟩
  unfold contains permissions
  rw [find_authorizePreserving, ← hkey]
  split
  · next h => simp [h]
  · next h => simp [h]

/-- The endpoints of an allowlist after a revocation. -/
theorem contains_revoke {r r' : PeerRegistry} {persist : Except PairingError Unit}
    {endpointId : String} {outcome : Except PairingError Bool}
    (h : r.revoke persist endpointId = (outcome, r')) (p : EndpointId) :
    r'.contains p = true ↔
      r.contains p = true ∧ ¬ (p.toString = endpointId ∧ outcome = .ok true) := by
  unfold revoke at h
  cases hf : r.records.find endpointId with
  | none =>
    rw [hf] at h
    cases h
    simp
  | some record =>
    rw [hf] at h
    cases persist with
    | error err => cases h; simp
    | ok u =>
      cases h
      unfold contains permissions
      rw [Table.find_erase]
      split
      · next heq => simp [heq]
      · next hne => simp [hne]

end PeerRegistry

end Rackio
