import Rackio.Lib.Run
import Rackio.Core.Storage
import Rackio.Iroh.Pairing

/-!
# The remote server

The `NodeRuntime` and the tasks of `rackio-iroh/src/server.rs` as a step relation. Every connection,
every request stream and every `revoke_peer` call is a process of its own; a step is what one of
them does between two points where another one can run: a critical section of a lock, a frame
written, a connection closed. The label of a step carries what the step can be observed by, the
outcome of a verification or of a removal included.

The peer of a request is the authenticated identity of its connection. A connection the peer or the
network ends is a step of its own (`close`), so is the passing of time.
-/

namespace Rackio

/-! ## Requests -/

/-- The source's `PROTOCOL_MAJOR`. -/
def protocolMajor : UInt32 := 1

/-- The source's `PROTOCOL_MINOR`. -/
def protocolMinor : UInt32 := 1

/-- The source's `current_version`. -/
def currentVersion : ProtocolVersion := ⟨protocolMajor, protocolMinor⟩

/-- The source's `compatible`. -/
def compatible (version : ProtocolVersion) : Bool := version.major = protocolMajor

/-- The wire message `HistoryQuery`; its resolution is an open enumeration. -/
structure HistoryQuery where
  fromMs : Int
  toMs : Int
  resolution : Int
  protocol : Option ProtocolVersion
  deriving DecidableEq, Repr

/-- The source's `Resolution::try_from`, without the unspecified value. -/
def HistoryQuery.resolution? (q : HistoryQuery) : Option HistoryResolution :=
  if q.resolution = 1 then some .raw else if q.resolution = 2 then some .minute else none

/-- The wire message `PairRequest`. -/
structure PairRequest where
  oneTimeSecret : String
  viewerEndpointId : String
  deriving DecidableEq, Repr

/-- The body of the wire message `Request`. -/
inductive RequestBody
  | getNodeInfo (version : ProtocolVersion)
  | getHealth (version : ProtocolVersion)
  | getConnectionPath (version : ProtocolVersion)
  | watchMetrics (version : ProtocolVersion)
  | queryHistory (query : HistoryQuery)
  | pair (request : PairRequest)
  deriving DecidableEq, Repr

/-- The protocol version a request names. -/
def RequestBody.version : RequestBody → Option ProtocolVersion
  | .getNodeInfo v | .getHealth v | .getConnectionPath v | .watchMetrics v => some v
  | .queryHistory q => q.protocol
  | .pair _ => none

/-- The wire message `ErrorResponse`. -/
structure ErrorResponse where
  code : String
  message : String
  deriving DecidableEq, Repr

/-- What `handle_authorized` goes on to serve. -/
inductive Serving
  | nodeInfo
  | health
  | connectionPath
  | metrics
  | history (fromMs toMs : Int) (resolution : HistoryResolution)
  deriving DecidableEq, Repr

/-- The kinds of data frames; a heartbeat, an error and an end of stream carry no data. -/
inductive DataFrame
  | nodeInfo | health | connectionPath | metric | history
  deriving DecidableEq, Repr

/-- The data frames a request is served with. -/
def Serving.frame : Serving → DataFrame
  | .nodeInfo => .nodeInfo
  | .health => .health
  | .connectionPath => .connectionPath
  | .metrics => .metric
  | .history _ _ _ => .history

/-- Whether a request is served with more than one data frame. -/
def Serving.isStream : Serving → Bool
  | .metrics | .history _ _ _ => true
  | _ => false

/-- The permission a data frame needs. -/
def DataFrame.allowed (f : DataFrame) (permissions : PeerPermissions) : Bool :=
  match f with
  | .history => permissions.readHistory
  | _ => permissions.readMetrics

/-- The source's `require_permission`. -/
def requirePermission (allowed : Bool) (permission : String) : Except ErrorResponse Unit :=
  if allowed then .ok ()
  else .error ⟨"permission_denied", s!"peer does not have {permission} permission"⟩

/-- The source's `version_is_compatible`. -/
def versionIsCompatible (version : ProtocolVersion) : Except ErrorResponse Unit :=
  if compatible version then .ok ()
  else .error ⟨"incompatible", "protocol major version is incompatible"⟩

/-- The arms of `handle_authorized` that need `read_metrics`. -/
def handleMetrics (permissions : PeerPermissions) (version : ProtocolVersion) (serving : Serving) :
    Except ErrorResponse Serving := do
  requirePermission permissions.readMetrics "read_metrics"
  versionIsCompatible version
  return serving

/-- The checks of `handle_history`. -/
def handleHistory (permissions : PeerPermissions) (query : HistoryQuery) :
    Except ErrorResponse Serving := do
  requirePermission permissions.readHistory "read_history"
  match query.protocol with
  | none => throw ⟨"invalid_request", "history protocol version is required"⟩
  | some version =>
    versionIsCompatible version
    if query.fromMs > query.toMs then throw ⟨"invalid_range", "history range is reversed"⟩
    match query.resolution? with
    | none => throw ⟨"invalid_resolution", "history resolution is required"⟩
    | some resolution => return .history query.fromMs query.toMs resolution

/-- The source's `handle_authorized` up to its first data frame. -/
def handleAuthorized (permissions : PeerPermissions) : RequestBody → Except ErrorResponse Serving
  | .getNodeInfo version => handleMetrics permissions version .nodeInfo
  | .getHealth version => handleMetrics permissions version .health
  | .getConnectionPath version => handleMetrics permissions version .connectionPath
  | .watchMetrics version => handleMetrics permissions version .metrics
  | .queryHistory query => handleHistory permissions query
  -- `handle_request` answers a pair request before it gets here.
  | .pair _ => .error ⟨"invalid_request", "request body is required"⟩

/-- The check of a metrics request passes only with the permission and a compatible version. -/
theorem handleMetrics_ok {permissions : PeerPermissions} {version : ProtocolVersion}
    {serving result : Serving} (h : handleMetrics permissions version serving = .ok result) :
    result = serving ∧ permissions.readMetrics = true ∧ compatible version = true := by
  unfold handleMetrics requirePermission versionIsCompatible at h
  cases hp : permissions.readMetrics with
  | false => rw [hp] at h; cases h
  | true =>
    cases hv : compatible version with
    | false => rw [hp, hv] at h; cases h
    | true => rw [hp, hv] at h; cases h; exact ⟨rfl, rfl, rfl⟩

/-- The check of a history request passes only with the permission and a compatible version. -/
theorem handleHistory_ok {permissions : PeerPermissions} {query : HistoryQuery} {result : Serving}
    (h : handleHistory permissions query = .ok result) :
    result.frame = .history ∧ permissions.readHistory = true ∧
      ∃ version, query.protocol = some version ∧ compatible version = true := by
  unfold handleHistory requirePermission versionIsCompatible at h
  cases hp : permissions.readHistory with
  | false => rw [hp] at h; cases h
  | true =>
    cases hq : query.protocol with
    | none => rw [hp, hq] at h; cases h
    | some version =>
      rw [hp, hq] at h
      cases hv : compatible version with
      | false => simp [hv, bind, Except.bind] at h
      | true =>
        refine ⟨?_, rfl, version, rfl, hv⟩
        simp only [hv, bind, Except.bind, if_true] at h
        split at h
        · cases h
        · cases hr : query.resolution? with
          | none => rw [hr] at h; cases h
          | some resolution => rw [hr] at h; cases h; rfl

/-- A request is served only with the permission its data frames need and a compatible version. -/
theorem handleAuthorized_ok {permissions : PeerPermissions} {body : RequestBody} {serving : Serving}
    (h : handleAuthorized permissions body = .ok serving) :
    serving.frame.allowed permissions = true ∧
      ∃ version, body.version = some version ∧ compatible version = true := by
  cases body with
  | getNodeInfo version =>
    obtain ⟨rfl, hp, hv⟩ := handleMetrics_ok h
    exact ⟨hp, version, rfl, hv⟩
  | getHealth version =>
    obtain ⟨rfl, hp, hv⟩ := handleMetrics_ok h
    exact ⟨hp, version, rfl, hv⟩
  | getConnectionPath version =>
    obtain ⟨rfl, hp, hv⟩ := handleMetrics_ok h
    exact ⟨hp, version, rfl, hv⟩
  | watchMetrics version =>
    obtain ⟨rfl, hp, hv⟩ := handleMetrics_ok h
    exact ⟨hp, version, rfl, hv⟩
  | queryHistory query =>
    obtain ⟨hf, hp, hv⟩ := handleHistory_ok h
    exact ⟨by rw [hf]; exact hp, hv⟩
  | pair request => cases h

/-! ## The state -/

/-- Where the task of a connection is. -/
inductive ConnectionStage
  /-- The handshake is done and the connection is not registered yet. -/
  | accepted
  /-- Registered and in the loop of `handle_connection`. -/
  | handling
  /-- Unregistered. -/
  | finished
  deriving DecidableEq, Repr

/-- An accepted connection, under its `stable_id`. -/
structure Connection where
  remoteId : EndpointId
  stage : ConnectionStage
  isOpen : Bool
  deriving DecidableEq, Repr

/-- Where the task of a request is. -/
inductive RequestStage
  /-- The request was read. -/
  | received (body : Option RequestBody)
  /-- The verification of a pair request answered; the advertisement is still to be closed if the
  window is. -/
  | verified (windowClosed : Bool) (outcome : Except PairingError Unit)
  /-- Data frames are being written. -/
  | serving (serving : Serving)
  /-- The request was answered. -/
  | done
  deriving DecidableEq

/-- A request on a stream of a connection. -/
structure RequestTask where
  connection : Nat
  remoteId : EndpointId
  stage : RequestStage
  deriving DecidableEq

/-- Where a `revoke_peer` call that removed its peer is. -/
inductive RevokeStage
  /-- The peer was removed from the allowlist. -/
  | removed (endpointId : String)
  /-- The connections of the peer were taken; these are still to be closed. -/
  | closing (endpointId : String) (connections : List Nat)
  deriving DecidableEq, Repr

/-- The peer a call revokes. -/
def RevokeStage.endpointId : RevokeStage → String
  | .removed id => id
  | .closing id _ => id

/-- The source's `PairingMdnsState`. -/
structure PairingMdnsState where
  generation : Nat
  active : Bool
  deriving DecidableEq, Repr

namespace PairingMdnsState

/-- The generation after the next one, a `u64` that stops at its largest value. -/
def bump (s : PairingMdnsState) : Nat := min (s.generation + 1) (2 ^ 64 - 1)

/-- The source's `open`, with whether the advertisement started. -/
def «open» (s : PairingMdnsState) (started : Bool) : PairingMdnsState := ⟨s.bump, started⟩

/-- The source's `close`. -/
def close (s : PairingMdnsState) : PairingMdnsState := ⟨s.bump, false⟩

/-- The source's `close_if_generation`. -/
def closeIfGeneration (s : PairingMdnsState) (generation : Nat) : Bool × PairingMdnsState :=
  if s.generation ≠ generation then (false, s) else (true, s.close)

end PairingMdnsState

/-- The shared state of the server and its tasks. -/
structure NodeRuntime where
  nowMs : Int
  pairing : PairingManager
  pairingMdns : PairingMdnsState
  peers : PeerRegistry
  /-- The registered connections of each endpoint, by `stable_id`. -/
  activeConnections : Table String (Table Nat EndpointId)
  connections : Table Nat Connection
  requests : Table Nat RequestTask
  revokes : Table Nat RevokeStage

namespace NodeRuntime

/-- A server that was just started with a loaded allowlist. -/
def init (nowMs : Int) (peers : PeerRegistry) : NodeRuntime where
  nowMs := nowMs
  pairing := ⟨none⟩
  pairingMdns := ⟨0, false⟩
  peers := peers
  activeConnections := .empty
  connections := .empty
  requests := .empty
  revokes := .empty

/-- The registered connections of an endpoint. -/
def registered (s : NodeRuntime) (endpointId : String) : Table Nat EndpointId :=
  (s.activeConnections.find endpointId).getD .empty

/-- The source's `register_connection`. -/
def registerConnection (s : NodeRuntime) (stableId : Nat) (remoteId : EndpointId) :
    Table String (Table Nat EndpointId) :=
  s.activeConnections.insert remoteId.toString
    ((s.registered remoteId.toString).insert stableId remoteId)

/-- The source's `unregister_connection`. -/
def unregisterConnection (s : NodeRuntime) (stableId : Nat) (remoteId : EndpointId) :
    Table String (Table Nat EndpointId) :=
  match s.activeConnections.find remoteId.toString with
  | none => s.activeConnections
  | some connections =>
    let connections := connections.erase stableId
    if connections.rows = [] then s.activeConnections.erase remoteId.toString
    else s.activeConnections.insert remoteId.toString connections

/-- The request `r` with a new stage. -/
def setStage (s : NodeRuntime) (r : Nat) (q : RequestTask) (stage : RequestStage) : NodeRuntime :=
  { s with requests := s.requests.insert r { q with stage := stage } }

/-- The connection `c` closed. -/
def closeConnection (s : NodeRuntime) (c : Nat) : NodeRuntime :=
  { s with
    connections := match s.connections.find c with
      | none => s.connections
      | some conn => s.connections.insert c { conn with isOpen := false } }

/-! ## The steps -/

/-- What the tasks of the server and its environment do. -/
inductive Event
  /-- Time passes. -/
  | advance (ms : Nat)
  /-- A pairing window is opened with a fresh secret. -/
  | openWindow (secret : PairingSecret)
  /-- The opened window is advertised. -/
  | mdnsOpen (started : Bool)
  /-- The advertisement of a window times out. -/
  | mdnsExpire (generation : Nat)
  /-- A handshake completes. -/
  | accept (c : Nat) (peer : EndpointId)
  | register (c : Nat)
  /-- The peer or the network ends a connection. -/
  | close (c : Nat)
  /-- A stream is accepted and its request is read. -/
  | request (r c : Nat) (body : Option RequestBody)
  /-- The loop of `handle_connection` has ended. -/
  | unregister (c : Nat)
  /-- The critical section of `handle_pair` on the pairing lock. -/
  | verify (r : Nat) (peer : EndpointId) (pair : PairRequest) (outcome : Except PairingError Unit)
  | mdnsClose (r : Nat)
  /-- The `authorize_preserving` of `handle_pair`, with the outcome of persisting. -/
  | authorize (r : Nat) (peer : EndpointId) (persist : Except PairingError Unit)
  /-- An error is written in answer to a request. -/
  | refuse (r : Nat)
  /-- The permissions of a request are looked up and checked. -/
  | check (r : Nat) (peer : EndpointId)
  /-- A data frame is written. -/
  | write (r : Nat) (peer : EndpointId) (frame : DataFrame)
  /-- A stream of data frames ends. -/
  | finish (r : Nat)
  /-- The removal of `revoke_peer` from the allowlist. -/
  | revoke (v : Nat) (endpointId : String) (persist : Except PairingError Unit)
    (outcome : Except PairingError Bool)
  /-- The connections of the revoked peer are taken. -/
  | take (v : Nat)
  /-- The next taken connection is closed. -/
  | closeTaken (v : Nat)
  /-- The source's `revoke_peer` returns. -/
  | revoked (v : Nat)

/-- The revocation of an endpoint is under way. -/
def Revoking (s : NodeRuntime) (endpointId : String) : Prop :=
  ∃ v stage, s.revokes.find v = some stage ∧ stage.endpointId = endpointId

/-- The steps of the server. -/
inductive Step (b64 : Base64) (s : NodeRuntime) : Event → NodeRuntime → Prop
  | advance (ms : Nat) : Step b64 s (.advance ms) { s with nowMs := s.nowMs + ms }
  | openWindow (secret : PairingSecret) (nodeId : Uuid) (endpointId : EndpointId)
      (addresses : List SocketAddr) (relayUrls : List String) :
      Step b64 s (.openWindow secret)
        { s with pairing :=
            (PairingManager.open b64 s.nowMs secret nodeId endpointId addresses relayUrls).1 }
  | mdnsOpen (started : Bool) :
      Step b64 s (.mdnsOpen started) { s with pairingMdns := s.pairingMdns.open started }
  | mdnsExpire (generation : Nat) :
      Step b64 s (.mdnsExpire generation)
        { s with pairingMdns := (s.pairingMdns.closeIfGeneration generation).2 }
  | accept {c : Nat} (peer : EndpointId) (hc : s.connections.find c = none) :
      Step b64 s (.accept c peer)
        { s with connections := s.connections.insert c ⟨peer, .accepted, true⟩ }
  | register {c : Nat} {conn : Connection} (hc : s.connections.find c = some conn)
      (hstage : conn.stage = .accepted) :
      Step b64 s (.register c)
        { s with
          activeConnections := s.registerConnection c conn.remoteId
          connections := s.connections.insert c { conn with stage := .handling } }
  | close {c : Nat} : Step b64 s (.close c) (s.closeConnection c)
  | request {r c : Nat} {conn : Connection} (body : Option RequestBody)
      (hr : s.requests.find r = none) (hc : s.connections.find c = some conn)
      (hstage : conn.stage = .handling) (hopen : conn.isOpen = true) :
      Step b64 s (.request r c body)
        { s with requests := s.requests.insert r ⟨c, conn.remoteId, .received body⟩ }
  -- `accept_bi` fails on a closed connection only.
  | unregister {c : Nat} {conn : Connection} (hc : s.connections.find c = some conn)
      (hstage : conn.stage = .handling) (hclosed : conn.isOpen = false) :
      Step b64 s (.unregister c)
        { s with
          activeConnections := s.unregisterConnection c conn.remoteId
          connections := s.connections.insert c { conn with stage := .finished } }
  | verify {r : Nat} {q : RequestTask} {pair : PairRequest} {outcome : Except PairingError Unit}
      {pairing : PairingManager} (hr : s.requests.find r = some q)
      (hstage : q.stage = .received (some (.pair pair)))
      (hclaimed : pair.viewerEndpointId = q.remoteId.toString)
      (hverify : s.pairing.verifyAndConsumeAt b64 s.nowMs q.remoteId pair.oneTimeSecret =
        (outcome, pairing)) :
      Step b64 s (.verify r q.remoteId pair outcome)
        ({ s with pairing := pairing }.setStage r q (.verified (!pairing.isOpen) outcome))
  | mdnsClose {r : Nat} {q : RequestTask} {outcome : Except PairingError Unit}
      (hr : s.requests.find r = some q) (hstage : q.stage = .verified true outcome) :
      Step b64 s (.mdnsClose r)
        ({ s with pairingMdns := s.pairingMdns.close }.setStage r q (.verified false outcome))
  | authorize {r : Nat} {q : RequestTask} (persist : Except PairingError Unit)
      (hr : s.requests.find r = some q) (hstage : q.stage = .verified false (.ok ())) :
      Step b64 s (.authorize r q.remoteId persist)
        ({ s with peers := (s.peers.authorizePreserving persist s.nowMs q.remoteId).2 }.setStage
          r q .done)
  | refuseRejected {r : Nat} {q : RequestTask} {e : PairingError}
      (hr : s.requests.find r = some q) (hstage : q.stage = .verified false (.error e)) :
      Step b64 s (.refuse r) (s.setStage r q .done)
  | refuseMismatch {r : Nat} {q : RequestTask} {pair : PairRequest}
      (hr : s.requests.find r = some q) (hstage : q.stage = .received (some (.pair pair)))
      (hclaimed : pair.viewerEndpointId ≠ q.remoteId.toString) :
      Step b64 s (.refuse r) (s.setStage r q .done)
  | refuseEmpty {r : Nat} {q : RequestTask} (hr : s.requests.find r = some q)
      (hstage : q.stage = .received none) : Step b64 s (.refuse r) (s.setStage r q .done)
  | checkServed {r : Nat} {q : RequestTask} {body : RequestBody} {permissions : PeerPermissions}
      {serving : Serving} (hr : s.requests.find r = some q)
      (hstage : q.stage = .received (some body))
      (hperm : s.peers.permissions q.remoteId = some permissions)
      (hok : handleAuthorized permissions body = .ok serving) :
      Step b64 s (.check r q.remoteId) (s.setStage r q (.serving serving))
  | checkDenied {r : Nat} {q : RequestTask} {body : RequestBody} {permissions : PeerPermissions}
      {error : ErrorResponse} (hr : s.requests.find r = some q)
      (hstage : q.stage = .received (some body))
      (hpair : ∀ pair, body ≠ .pair pair)
      (hperm : s.peers.permissions q.remoteId = some permissions)
      (herr : handleAuthorized permissions body = .error error) :
      Step b64 s (.check r q.remoteId) (s.setStage r q .done)
  | checkUnknown {r : Nat} {q : RequestTask} {body : RequestBody}
      (hr : s.requests.find r = some q) (hstage : q.stage = .received (some body))
      (hpair : ∀ pair, body ≠ .pair pair) (hperm : s.peers.permissions q.remoteId = none) :
      Step b64 s (.check r q.remoteId) (s.setStage r q .done)
  | write {r : Nat} {q : RequestTask} {conn : Connection} {serving : Serving}
      (hr : s.requests.find r = some q) (hstage : q.stage = .serving serving)
      (hc : s.connections.find q.connection = some conn) (hopen : conn.isOpen = true) :
      Step b64 s (.write r q.remoteId serving.frame)
        (s.setStage r q (if serving.isStream then .serving serving else .done))
  | finish {r : Nat} {q : RequestTask} {serving : Serving} (hr : s.requests.find r = some q)
      (hstage : q.stage = .serving serving) : Step b64 s (.finish r) (s.setStage r q .done)
  | revokeRemoved {v : Nat} {endpointId : String} {persist : Except PairingError Unit}
      {peers : PeerRegistry} (hv : s.revokes.find v = none)
      (hrevoke : s.peers.revoke persist endpointId = (.ok true, peers)) :
      Step b64 s (.revoke v endpointId persist (.ok true))
        { s with peers := peers, revokes := s.revokes.insert v (.removed endpointId) }
  | revokeEnded {v : Nat} {endpointId : String} {persist : Except PairingError Unit}
      {peers : PeerRegistry} {outcome : Except PairingError Bool} (hv : s.revokes.find v = none)
      (hrevoke : s.peers.revoke persist endpointId = (outcome, peers)) (hne : outcome ≠ .ok true) :
      Step b64 s (.revoke v endpointId persist outcome) { s with peers := peers }
  | take {v : Nat} {endpointId : String} (hv : s.revokes.find v = some (.removed endpointId)) :
      Step b64 s (.take v)
        { s with
          activeConnections := s.activeConnections.erase endpointId
          revokes := s.revokes.insert v (.closing endpointId (s.registered endpointId).keys) }
  | closeTaken {v c : Nat} {endpointId : String} {rest : List Nat}
      (hv : s.revokes.find v = some (.closing endpointId (c :: rest))) :
      Step b64 s (.closeTaken v)
        { s.closeConnection c with revokes := s.revokes.insert v (.closing endpointId rest) }
  | revoked {v : Nat} {endpointId : String}
      (hv : s.revokes.find v = some (.closing endpointId [])) :
      Step b64 s (.revoked v) { s with revokes := s.revokes.erase v }

/-! ## What a step does -/

variable {b64 : Base64} {s t : NodeRuntime} {e : Event}

/-- The event opens a pairing window. -/
def Event.opens : Event → Bool
  | .openWindow _ => true
  | _ => false

/-- The event is a verification that answers `Ok`. -/
def Event.accepts : Event → Bool
  | .verify _ _ _ (.ok _) => true
  | _ => false

/-- A request in the state after its stage was set. -/
theorem setStage_find {r₀ r : Nat} {q₀ q : RequestTask} {stage : RequestStage}
    (h : (s.setStage r₀ q₀ stage).requests.find r = some q) :
    (r = r₀ ∧ q = { q₀ with stage := stage }) ∨ (r ≠ r₀ ∧ s.requests.find r = some q) := by
  simp only [setStage, Table.find_insert] at h
  split at h
  · next hr =>
    cases h
    exact .inl ⟨hr, rfl⟩
  · next hr => exact .inr ⟨hr, h⟩

/-- What a step does to the pairing window: it is opened, judged by a verification, or left. -/
theorem Step.pairing_cases (h : Step b64 s e t) :
    (∃ secret, e = .openWindow secret ∧
        t.pairing = ⟨some ⟨secret, s.nowMs + pairingWindowMs, []⟩⟩) ∨
      (∃ r peer pair outcome, e = .verify r peer pair outcome ∧
        s.pairing.verifyAndConsumeAt b64 s.nowMs peer pair.oneTimeSecret = (outcome, t.pairing)) ∨
      (e.opens = false ∧ e.accepts = false ∧ t.pairing = s.pairing) := by
  cases h with
  | openWindow secret => exact .inl ⟨secret, rfl, rfl⟩
  | verify hr hstage hclaimed hverify => exact .inr (.inl ⟨_, _, _, _, rfl, hverify⟩)
  | _ => exact .inr (.inr ⟨rfl, rfl, rfl⟩)

/-- What a step does to the allowlist: an authorization, a removal, or nothing. -/
theorem Step.peers_cases (h : Step b64 s e t) :
    (∃ r q persist, e = .authorize r q.remoteId persist ∧ s.requests.find r = some q ∧
        q.stage = .verified false (.ok ()) ∧
        t.peers = (s.peers.authorizePreserving persist s.nowMs q.remoteId).2) ∨
      (∃ v endpointId persist outcome, e = .revoke v endpointId persist outcome ∧
        s.peers.revoke persist endpointId = (outcome, t.peers)) ∨
      t.peers = s.peers := by
  cases h with
  | authorize persist hr hstage => exact .inl ⟨_, _, persist, rfl, hr, hstage, rfl⟩
  | revokeRemoved hv hrevoke => exact .inr (.inl ⟨_, _, _, _, rfl, hrevoke⟩)
  | revokeEnded hv hrevoke hne => exact .inr (.inl ⟨_, _, _, _, rfl, hrevoke⟩)
  | _ => exact .inr (.inr rfl)

/-- What a verification by `peer` that answers `Ok` has seen: the claimed identity is the peer's,
and the current window accepts its secret, has not expired and has not locked it out. -/
def Accepted (b64 : Base64) (s : NodeRuntime) (peer : EndpointId) (pair : PairRequest) : Prop :=
  pair.viewerEndpointId = peer.toString ∧
    ∃ w, s.pairing.active = some w ∧ s.nowMs ≤ w.expiresAtMs ∧
      PairingManager.Matches b64 w.secret pair.oneTimeSecret ∧
      w.recordedFailures peer < maxFailures

/-- What the permission check of a request that is served has seen. -/
def Checked (s : NodeRuntime) (r : Nat) (peer : EndpointId) (serving : Serving) : Prop :=
  ∃ q body permissions, s.requests.find r = some q ∧ q.remoteId = peer ∧
    q.stage = .received (some body) ∧ s.peers.permissions peer = some permissions ∧
    handleAuthorized permissions body = .ok serving

/-- Where a request of the state after a step comes from. -/
inductive RequestEffect (b64 : Base64) (s : NodeRuntime) (e : Event) (r : Nat) (q : RequestTask) :
    Prop
  | kept (hq : s.requests.find r = some q)
  | received {body : Option RequestBody} {conn : Connection} (hstage : q.stage = .received body)
      (hc : s.connections.find q.connection = some conn) (hpeer : conn.remoteId = q.remoteId)
      (hhandling : conn.stage = .handling)
  | verified {q₀ : RequestTask} {pair : PairRequest} {closed : Bool}
      {outcome : Except PairingError Unit} (hq : s.requests.find r = some q₀)
      (he : e = .verify r q₀.remoteId pair outcome)
      (hok : outcome = .ok () → Accepted b64 s q₀.remoteId pair)
      (heq : q = { q₀ with stage := .verified closed outcome })
  | advertised {q₀ : RequestTask} {outcome : Except PairingError Unit}
      (hq : s.requests.find r = some q₀) (hstage : q₀.stage = .verified true outcome)
      (heq : q = { q₀ with stage := .verified false outcome })
  | served {q₀ : RequestTask} {serving : Serving} (hq : s.requests.find r = some q₀)
      (he : e = .check r q₀.remoteId) (hchecked : Checked s r q₀.remoteId serving)
      (heq : q = { q₀ with stage := .serving serving })
  | answered {q₀ : RequestTask} (hq : s.requests.find r = some q₀)
      (heq : q = { q₀ with stage := .done })

/-- A request that was answered. -/
theorem RequestEffect.of_done {u : NodeRuntime} {r₀ r : Nat} {q₀ q : RequestTask}
    (hr : s.requests.find r₀ = some q₀) (hu : u.requests = s.requests)
    (hq : (u.setStage r₀ q₀ .done).requests.find r = some q) : RequestEffect b64 s e r q := by
  obtain ⟨rfl, rfl⟩ | ⟨-, hq⟩ := setStage_find hq
  · exact .answered hr rfl
  · exact .kept (hu ▸ hq)

/-- What a step does to the requests. -/
theorem Step.request_effect (h : Step b64 s e t) {r : Nat} {q : RequestTask}
    (hq : t.requests.find r = some q) : RequestEffect b64 s e r q := by
  cases h with
  | request body hr hc hstage hopen =>
    simp only [Table.find_insert] at hq
    split at hq
    · cases hq
      exact .received rfl hc rfl hstage
    · exact .kept hq
  | verify hr hstage hclaimed hverify =>
    obtain ⟨rfl, rfl⟩ | ⟨-, hq⟩ := setStage_find hq
    · refine .verified hr rfl (fun hok => ?_) rfl
      subst hok
      exact ⟨hclaimed, (PairingManager.verifyAndConsumeAt_ok hverify).2⟩
    · exact .kept hq
  | mdnsClose hr hstage =>
    obtain ⟨rfl, rfl⟩ | ⟨-, hq⟩ := setStage_find hq
    · exact .advertised hr hstage rfl
    · exact .kept hq
  | checkServed hr hstage hperm hok =>
    obtain ⟨rfl, rfl⟩ | ⟨-, hq⟩ := setStage_find hq
    · exact .served hr rfl ⟨_, _, _, hr, rfl, hstage, hperm, hok⟩ rfl
    · exact .kept hq
  | write hr hstage hc hopen =>
    split at hq
    · obtain ⟨rfl, rfl⟩ | ⟨-, hq⟩ := setStage_find hq
      · rw [← hstage]
        exact .kept hr
      · exact .kept hq
    · exact .of_done hr rfl hq
  | authorize persist hr hstage => exact .of_done hr rfl hq
  | refuseRejected hr hstage => exact .of_done hr rfl hq
  | refuseMismatch hr hstage hclaimed => exact .of_done hr rfl hq
  | refuseEmpty hr hstage => exact .of_done hr rfl hq
  | checkDenied hr hstage hpair hperm herr => exact .of_done hr rfl hq
  | checkUnknown hr hstage hpair hperm => exact .of_done hr rfl hq
  | finish hr hstage => exact .of_done hr rfl hq
  | _ => exact .kept hq

end NodeRuntime

end Rackio
