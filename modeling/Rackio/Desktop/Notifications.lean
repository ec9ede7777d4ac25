import Rackio.Core.Model
import Rackio.Desktop.Preferences
import Rackio.Lib.Edges
import Rackio.Lib.OrderedMap

/-!
# Notifications

The dashboard announces that a machine has crossed the threshold of the operator: an alert when its
state reaches the rank of the threshold, a recovery when it falls below. The announcements of one
update compare two maps of states (`machineNotificationTransitions`), and the effect decides which
two: it remembers the states of the last snapshot that showed machines, and passes over snapshots
that did not.

`notifications_alternate`: while notifications stay enabled with one threshold, the announcements
for a machine are the edges of the states it was shown in, one at each snapshot on the other side of
the threshold, whatever lies between.
-/

namespace Rackio

open Edges

/-! ## Values -/

/-- An entry of the source's `nodeStateRegistry`. -/
structure NodeStateEntry where
  label : String
  rank : Nat

/-- The source's `nodeStateRegistry`. -/
def nodeStateRegistry : NodeState → NodeStateEntry
  | .healthy => ⟨"Healthy", 0⟩
  | .warning => ⟨"Warning", 1⟩
  | .degraded => ⟨"Degraded", 2⟩
  | .stale => ⟨"Stale", 3⟩
  | .critical => ⟨"Critical", 4⟩
  | .offline => ⟨"Offline", 5⟩
  | .authError => ⟨"Auth error", 6⟩
  | .incompatible => ⟨"Incompatible", 6⟩

/-- The state whose name a threshold is. -/
def NotificationThreshold.state : NotificationThreshold → NodeState
  | .warning => .warning
  | .degraded => .degraded
  | .critical => .critical
  | .offline => .offline

/-- A state is at or above the rank of a threshold. -/
def NotificationThreshold.reachedBy (threshold : NotificationThreshold) (state : NodeState) :
    Bool :=
  (nodeStateRegistry threshold.state).rank ≤ (nodeStateRegistry state).rank

/-- What the policy reads of the source's `FleetNode`. -/
structure FleetNode where
  id : String
  name : String
  state : NodeState
  detail : Option String
  deriving DecidableEq, Repr

/-- The `daemon` of a snapshot. -/
inductive SnapshotDaemon
  | connected | unavailable
  deriving DecidableEq, Repr

/-- The source's `FleetSnapshot`, without the message that the effect does not read. -/
structure FleetSnapshot where
  daemon : SnapshotDaemon
  nodes : List FleetNode
  deriving DecidableEq, Repr

/-- The source's `NotificationState`. -/
inductive NotificationState
  | disabled (threshold : NotificationThreshold)
  | requesting (threshold : NotificationThreshold)
  | enabled (threshold : NotificationThreshold)
  | denied (threshold : NotificationThreshold) (message : String)
  | error (threshold : NotificationThreshold) (message : String)
  deriving DecidableEq, Repr

/-- The source's `MachineNotification`. -/
structure MachineNotification where
  title : String
  body : String
  deriving DecidableEq, Repr

/-- The two branches that announce something. -/
inductive AnnouncementKind
  | alert | recovery
  deriving DecidableEq, Repr

/-- An announcement, with the machine it is for and the branch it comes from. -/
structure Announcement where
  machine : String
  kind : AnnouncementKind
  notification : MachineNotification
  deriving DecidableEq, Repr

/-! ## The policy -/

/-- One turn of the loop of `machineNotificationTransitions`, for a machine of the current map. -/
def machineAnnouncement (previous : OrderedMap String NodeState) (threshold : NotificationThreshold)
    (id : String) (node : FleetNode) : Option Announcement :=
  match previous.get id with
  | none => none
  | some was =>
    if was = node.state then none
    else
      let wasAlerting := threshold.reachedBy was
      let isAlerting := threshold.reachedBy node.state
      if isAlerting && !wasAlerting then
        some ⟨id, .alert,
          { title := "Rackio · " ++ node.name ++ " is " ++ (nodeStateRegistry node.state).label
            body := node.name ++ " changed from " ++ (nodeStateRegistry was).label ++ " to " ++
              (nodeStateRegistry node.state).label ++ "." ++
              match node.detail with
              | none => ""
              | some detail => if detail = "" then "" else " " ++ detail }⟩
      else if wasAlerting && !isAlerting then
        some ⟨id, .recovery,
          { title := "Rackio · " ++ node.name ++ " recovered"
            body := node.name ++ " is " ++ (nodeStateRegistry node.state).label ++ " again." }⟩
      else none

/-- The source's `machineNotificationTransitions`, each announcement with its machine and kind. -/
def machineNotificationTransitions (previous : OrderedMap String NodeState) (nodes : List FleetNode)
    (threshold : NotificationThreshold) : List Announcement :=
  (OrderedMap.ofEntries (nodes.map fun node => (node.id, node))).entries.filterMap fun entry =>
    machineAnnouncement previous threshold entry.1 entry.2

/-! ## The effect -/

/-- What the effect reads and writes of the dashboard. -/
structure Notifier where
  snapshot : FleetSnapshot
  notificationState : NotificationState
  previousMachineStates : OrderedMap String NodeState

/-- Something that the effect depends on has changed. Where sending fails, `failure` says at which
announcement and with which message. -/
inductive NotifierEvent
  | snapshot (value : FleetSnapshot) (failure : Option (Nat × String))
  | notification (state : NotificationState) (failure : Option (Nat × String))

/-- The notification effect, with the announcements that it sends. -/
def Notifier.effect (s : Notifier) (failure : Option (Nat × String)) :
    Notifier × List Announcement :=
  if s.snapshot.daemon ≠ .connected ∨ s.snapshot.nodes = [] then (s, [])
  else
    let previous := s.previousMachineStates
    let states := OrderedMap.ofEntries (s.snapshot.nodes.map fun node => (node.id, node.state))
    let s := { s with previousMachineStates := states }
    match s.notificationState with
    | .enabled threshold =>
      if previous.entries = [] then (s, [])
      else
        let announcements := machineNotificationTransitions previous s.snapshot.nodes threshold
        match failure with
        | none => (s, announcements)
        | some (n, message) =>
          if n < announcements.length then
            ({ s with notificationState := .error threshold message }, announcements.take n)
          else (s, announcements)
    | _ => (s, [])

/-- One event and the effect that follows it. -/
def Notifier.step (s : Notifier) : NotifierEvent → Notifier × List Announcement
  | .snapshot value failure => { s with snapshot := value }.effect failure
  | .notification state failure => { s with notificationState := state }.effect failure

/-- The events of a dashboard, with all announcements. -/
def Notifier.run (s : Notifier) : List NotifierEvent → Notifier × List Announcement
  | [] => (s, [])
  | e :: es =>
    let (s, sent) := s.step e
    let (s, rest) := s.run es
    (s, sent ++ rest)

/-- A dashboard before its first snapshot, with notifications enabled. -/
def Notifier.start (threshold : NotificationThreshold) : Notifier :=
  ⟨⟨.unavailable, []⟩, .enabled threshold, .empty⟩

/-! ## The states a machine is shown in -/

/-- The state in which a snapshot shows a machine. -/
def FleetSnapshot.stateOf (v : FleetSnapshot) (id : String) : Option NodeState :=
  if v.daemon = .connected then (v.nodes.find? (·.id = id)).map (·.state) else none

/-- The state in which an event shows a machine. -/
def NotifierEvent.stateOf (id : String) : NotifierEvent → Option NodeState
  | .snapshot v _ => v.stateOf id
  | .notification .. => none

/-- The states that a machine was shown in. -/
def statesOf (id : String) (es : List NotifierEvent) : List NodeState :=
  es.filterMap (·.stateOf id)

/-- Notifications stay enabled with the threshold, and sending does not fail. -/
def NotifierEvent.Undisturbed (threshold : NotificationThreshold) : NotifierEvent → Prop
  | .snapshot _ failure => failure = none
  | .notification state failure => state = .enabled threshold ∧ failure = none

/-- A connected snapshot with machines has the machine once. -/
def NotifierEvent.ShowsOnce (id : String) : NotifierEvent → Prop
  | .snapshot v _ =>
    v.daemon = .connected → v.nodes ≠ [] → (v.nodes.filter (·.id = id)).length = 1
  | .notification .. => True

/-- The announcements for a machine among others. -/
def kindsFor (id : String) (sent : List Announcement) : List AnnouncementKind :=
  (sent.filter (·.machine = id)).map (·.kind)

/-- What is announced when a machine comes to a side of the threshold. -/
def AnnouncementKind.ofSide (isAlerting : Bool) : AnnouncementKind :=
  if isAlerting then .alert else .recovery

/-- What is announced when a machine that was in one state is shown in another one. -/
def NotificationThreshold.crossing (threshold : NotificationThreshold) (was now : NodeState) :
    List AnnouncementKind :=
  if threshold.reachedBy was = threshold.reachedBy now then []
  else [.ofSide (threshold.reachedBy now)]

/-- What is announced at an event, for a machine that was shown in some states before. -/
def announcedAt (threshold : NotificationThreshold) (seen : List NodeState)
    (shown : Option NodeState) : List AnnouncementKind :=
  match seen.getLast?, shown with
  | some was, some now => threshold.crossing was now
  | _, _ => []

/-- The dashboard remembers the last state that the machine was shown in. -/
structure Notifier.Remembers (threshold : NotificationThreshold) (id : String) (s : Notifier)
    (seen : List NodeState) : Prop where
  enabled : s.notificationState = .enabled threshold
  state : s.previousMachineStates.get id = seen.getLast?
  /-- What the current snapshot shows was remembered. -/
  shown : ∀ state, s.snapshot.stateOf id = some state → seen.getLast? = some state
  once : s.snapshot.daemon = .connected → s.snapshot.nodes ≠ [] →
    (s.snapshot.nodes.filter (·.id = id)).length = 1

section
variable {threshold : NotificationThreshold} {id : String} {s : Notifier} {v : FleetSnapshot}
  {e : NotifierEvent} {es : List NotifierEvent} {seen : List NodeState}
  {previous : OrderedMap String NodeState} {node : FleetNode}

/-- An announcement of a turn is for the machine of the turn. -/
theorem machine_of_machineAnnouncement {a : Announcement}
    (h : machineAnnouncement previous threshold id node = some a) : a.machine = id := by
  unfold machineAnnouncement at h
  split at h
  · cases h
  · dsimp only at h
    split at h
    · cases h
    · split at h
      · cases h
        rfl
      · split at h
        · cases h
          rfl
        · cases h

/-- A turn announces something when the machine is on another side than it was. -/
theorem kind_machineAnnouncement (previous : OrderedMap String NodeState)
    (threshold : NotificationThreshold) (id : String) (node : FleetNode) :
    (machineAnnouncement previous threshold id node).map (·.kind) =
      (previous.get id).bind fun was =>
        if threshold.reachedBy was = threshold.reachedBy node.state then none
        else some (.ofSide (threshold.reachedBy node.state)) := by
  unfold machineAnnouncement
  cases previous.get id with
  | none => rfl
  | some was =>
    rw [Option.bind_some]
    dsimp only
    by_cases heq : was = node.state
    · rw [if_pos heq, heq, if_pos rfl]
      rfl
    · rw [if_neg heq]
      cases threshold.reachedBy was <;> cases threshold.reachedBy node.state <;> rfl

/-- A snapshot that the effect passes over shows no machine. -/
theorem FleetSnapshot.stateOf_eq_none (h : v.daemon ≠ .connected ∨ v.nodes = []) :
    v.stateOf id = none := by
  unfold stateOf
  split
  · next hconnected =>
    rcases h with h | h
    · exact absurd hconnected h
    · rw [h]
      rfl
  · rfl

/-- The state of a machine that a connected snapshot shows once. -/
theorem FleetSnapshot.stateOf_eq_some (hconnected : v.daemon = .connected)
    (hnode : v.nodes.filter (·.id = id) = [node]) : v.stateOf id = some node.state := by
  unfold stateOf
  rw [if_pos hconnected, ← List.head?_filter, hnode]
  rfl

/-- What a map of the machines by their identifiers says of one that stands there once. -/
theorem get_ofEntries_nodes {α : Type} (f : FleetNode → α) {nodes : List FleetNode}
    (hnode : nodes.filter (·.id = id) = [node]) :
    (OrderedMap.ofEntries (nodes.map fun node => (node.id, f node))).get id = some (f node) := by
  rw [OrderedMap.get_ofEntries, List.filter_map, List.map_map]
  show ((nodes.filter (·.id = id)).map _).getLast? = _
  rw [hnode]
  rfl

/-- The announcements for a machine that the snapshot shows once. -/
theorem kindsFor_machineNotificationTransitions {nodes : List FleetNode}
    (hnode : nodes.filter (·.id = id) = [node]) (hlast : previous.get id = seen.getLast?) :
    kindsFor id (machineNotificationTransitions previous nodes threshold) =
      announcedAt threshold seen (some node.state) := by
  have hget :
      (OrderedMap.ofEntries (nodes.map fun node => (node.id, node))).get id = some node :=
    get_ofEntries_nodes (fun node => node) hnode
  unfold kindsFor machineNotificationTransitions
  rw [OrderedMap.filter_filterMap_entries _
    (fun _ _ h => machine_of_machineAnnouncement h), hget, Option.bind_some, ← Option.toList_map,
    kind_machineAnnouncement, hlast]
  unfold announcedAt NotificationThreshold.crossing
  cases seen.getLast? with
  | none => rfl
  | some was =>
    dsimp only [Option.bind_some]
    split <;> rfl

/-- What the effect announces of a machine, and what it leaves remembered. -/
theorem Notifier.effect_eq (henabled : s.notificationState = .enabled threshold)
    (hlast : s.previousMachineStates.get id = seen.getLast?)
    (honce : s.snapshot.daemon = .connected → s.snapshot.nodes ≠ [] →
      (s.snapshot.nodes.filter (·.id = id)).length = 1) :
    kindsFor id (s.effect none).2 = announcedAt threshold seen (s.snapshot.stateOf id) ∧
      (s.effect none).1.Remembers threshold id (seen ++ (s.snapshot.stateOf id).toList) := by
  unfold effect
  split
  · next hskip =>
    have hnone : s.snapshot.stateOf id = none := FleetSnapshot.stateOf_eq_none hskip
    rw [hnone, Option.toList_none, List.append_nil]
    refine ⟨?_, henabled, hlast, ?_, honce⟩
    · unfold announcedAt
      cases seen.getLast? <;> rfl
    · rw [hnone]
      nofun
  · next hshow =>
    rw [not_or, not_not] at hshow
    obtain ⟨node, hnode⟩ := List.length_eq_one_iff.1 (honce hshow.1 hshow.2)
    have hstate : s.snapshot.stateOf id = some node.state :=
      FleetSnapshot.stateOf_eq_some hshow.1 hnode
    have hkept : (OrderedMap.ofEntries
        (s.snapshot.nodes.map fun node => (node.id, node.state))).get id = some node.state :=
      get_ofEntries_nodes (·.state) hnode
    rw [hstate, Option.toList_some]
    dsimp only
    generalize OrderedMap.ofEntries (s.snapshot.nodes.map fun node => (node.id, node.state)) =
      states at hkept
    have hremembers : Remembers threshold id { s with previousMachineStates := states }
        (seen ++ [node.state]) := by
      refine ⟨henabled, ?_, fun state hs => ?_, honce⟩
      · rw [hkept, List.getLast?_concat]
      · rw [List.getLast?_concat, ← hstate]
        exact hs
    simp only [henabled]
    split
    · next hempty =>
      have hnone : seen.getLast? = none := by
        rw [← hlast]
        unfold OrderedMap.get
        rw [hempty]
        rfl
      refine ⟨?_, henabled ▸ hremembers⟩
      unfold announcedAt
      rw [hnone]
      rfl
    · exact ⟨kindsFor_machineNotificationTransitions hnode hlast, henabled ▸ hremembers⟩

/-- What is remembered is announced no second time. -/
theorem announcedAt_last (threshold : NotificationThreshold) {state : NodeState}
    (h : seen.getLast? = some state) : announcedAt threshold seen (some state) = [] := by
  unfold announcedAt NotificationThreshold.crossing
  rw [h]
  exact if_pos rfl

/-- What an event announces of a machine, and what it leaves remembered. -/
theorem Notifier.Remembers.step (h : s.Remembers threshold id seen) (he : e.Undisturbed threshold)
    (honce : e.ShowsOnce id) :
    kindsFor id (s.step e).2 = announcedAt threshold seen (e.stateOf id) ∧
      (s.step e).1.Remembers threshold id (seen ++ (e.stateOf id).toList) := by
  cases e with
  | snapshot v failure =>
    cases he
    exact Notifier.effect_eq (s := { s with snapshot := v }) h.enabled h.state honce
  | notification state failure =>
    obtain ⟨rfl, rfl⟩ := he
    obtain ⟨hkinds, hremembers⟩ := Notifier.effect_eq
      (s := { s with notificationState := .enabled threshold }) rfl h.state h.once
    -- The snapshot is the one that the effect saw last.
    cases hshown : s.snapshot.stateOf id with
    | none =>
      rw [hshown] at hkinds hremembers
      exact ⟨hkinds, hremembers⟩
    | some state =>
      have hlast := h.shown state hshown
      rw [hshown] at hkinds hremembers
      refine ⟨hkinds.trans ?_, ?_⟩
      · rw [announcedAt_last threshold hlast]
        unfold announcedAt
        rw [hlast]
        rfl
      · show Remembers threshold id _ (seen ++ [])
        rw [List.append_nil]
        have hstate := hremembers.state
        rw [Option.toList_some, List.getLast?_concat] at hstate
        refine ⟨hremembers.enabled, hstate.trans hlast.symm, fun state' h' => ?_, hremembers.once⟩
        have hcurrent := hremembers.shown state' h'
        rw [Option.toList_some, List.getLast?_concat] at hcurrent
        exact hlast.trans hcurrent

/-- The announcements at an event are the next edge of the sides the machine was on. -/
theorem edges_announcedAt (threshold : NotificationThreshold) (seen : List NodeState)
    (shown : Option NodeState) :
    (edges ((seen ++ shown.toList).map threshold.reachedBy)).map AnnouncementKind.ofSide =
      (edges (seen.map threshold.reachedBy)).map AnnouncementKind.ofSide ++
        announcedAt threshold seen shown := by
  cases shown with
  | none =>
    unfold announcedAt
    cases seen.getLast? <;> simp
  | some now =>
    rw [Option.toList_some, List.map_append, List.map_singleton, edges_snoc, List.map_append,
      List.getLast?_map]
    refine congrArg _ ?_
    unfold announcedAt
    cases seen.getLast? with
    | none => rfl
    | some was =>
      rw [Option.map_some]
      dsimp only
      unfold NotificationThreshold.crossing
      cases threshold.reachedBy was <;> cases threshold.reachedBy now <;> rfl

/-- What a run announces of a machine, and what it leaves remembered. -/
theorem Notifier.Remembers.run (h : s.Remembers threshold id seen)
    (hes : ∀ e ∈ es, e.Undisturbed threshold ∧ e.ShowsOnce id) :
    (edges ((seen ++ statesOf id es).map threshold.reachedBy)).map AnnouncementKind.ofSide =
        (edges (seen.map threshold.reachedBy)).map AnnouncementKind.ofSide ++
          kindsFor id (s.run es).2 ∧
      (s.run es).1.Remembers threshold id (seen ++ statesOf id es) := by
  induction es generalizing s seen with
  | nil =>
    have hnil : statesOf id [] = [] := rfl
    rw [hnil, List.append_nil]
    exact ⟨(List.append_nil _).symm, h⟩
  | cons e es ih =>
    obtain ⟨he, honce⟩ := hes e (.head _)
    obtain ⟨hkinds, hstep⟩ := h.step he honce
    obtain ⟨hedges, hrun⟩ := ih hstep fun e' he' => hes e' (.tail _ he')
    have hstates : seen ++ statesOf id (e :: es) =
        seen ++ (e.stateOf id).toList ++ statesOf id es := by
      unfold statesOf
      rw [List.append_assoc]
      cases hshown : e.stateOf id with
      | none => rw [List.filterMap_cons_none hshown]; rfl
      | some state => rw [List.filterMap_cons_some hshown]; rfl
    rw [hstates]
    refine ⟨?_, hrun⟩
    have hsent : kindsFor id (s.run (e :: es)).2 =
        kindsFor id (s.step e).2 ++ kindsFor id ((s.step e).1.run es).2 := by
      show kindsFor id ((s.step e).2 ++ ((s.step e).1.run es).2) = _
      unfold kindsFor
      rw [List.filter_append, List.map_append]
    rw [hedges, edges_announcedAt, hsent, hkinds, List.append_assoc]

/-- Before its first snapshot a dashboard remembers nothing. -/
theorem Notifier.remembers_start (threshold : NotificationThreshold) (id : String) :
    (Notifier.start threshold).Remembers threshold id [] :=
  ⟨rfl, rfl, nofun, nofun⟩

end

/-- The announcements for a machine are made at the snapshots that show it on the other side of the
threshold, and alternate. -/
theorem notifications_alternate (threshold : NotificationThreshold) (id : String)
    (es : List NotifierEvent) (h : ∀ e ∈ es, e.Undisturbed threshold ∧ e.ShowsOnce id) :
    (kindsFor id ((Notifier.start threshold).run es).2).IsChain (· ≠ ·) ∧
      (∀ kind first, (kindsFor id ((Notifier.start threshold).run es).2).head? = some kind →
        (statesOf id es).head? = some first →
          (kind = .alert ↔
            (nodeStateRegistry first).rank < (nodeStateRegistry threshold.state).rank)) ∧
      ∀ before e after, es = before ++ e :: after →
        kindsFor id (((Notifier.start threshold).run before).1.step e).2 =
          announcedAt threshold (statesOf id before) (e.stateOf id) := by
  have hedges := ((Notifier.remembers_start threshold id).run h).1
  rw [List.nil_append, List.map_nil] at hedges
  change _ = kindsFor id _ at hedges
  rw [← hedges]
  refine ⟨?_, fun kind first hkind hfirst => ?_, fun before e after heq => ?_⟩
  · rw [List.isChain_map]
    cases (statesOf id es).map threshold.reachedBy with
    | nil => exact .nil
    | cons a l =>
      refine (isChain_edges a l).tail.imp fun b c hne heq => hne ?_
      cases b <;> cases c <;> first | rfl | cases heq
  · obtain ⟨l, hl⟩ : ∃ l, statesOf id es = first :: l := by
      cases hstates : statesOf id es with
      | nil => rw [hstates] at hfirst; cases hfirst
      | cons state l => rw [hstates] at hfirst; cases hfirst; exact ⟨l, rfl⟩
    rw [hl, List.map_cons, List.head?_map, Option.map_eq_some_iff] at hkind
    obtain ⟨side, hside, rfl⟩ := hkind
    have hchain := isChain_edges (threshold.reachedBy first) (l.map threshold.reachedBy)
    have hne : threshold.reachedBy first ≠ side := hchain.rel_head? hside
    have hbelow : threshold.reachedBy first = false ↔
        (nodeStateRegistry first).rank < (nodeStateRegistry threshold.state).rank :=
      decide_eq_false_iff_not.trans not_le
    rw [← hbelow]
    cases hfirst : threshold.reachedBy first <;> cases side <;>
      simp_all [AnnouncementKind.ofSide]
  · obtain ⟨he, honce⟩ := h e (by rw [heq]; simp)
    have hpre : ∀ e' ∈ before, e'.Undisturbed threshold ∧ e'.ShowsOnce id := fun e' he' =>
      h e' (by rw [heq]; exact List.mem_append_left _ he')
    have hbefore := ((Notifier.remembers_start threshold id).run hpre).2
    exact (hbefore.step he honce).1

example :
    let es : List NotifierEvent := [.snapshot ⟨.connected, [⟨"a", "Server", .healthy, none⟩]⟩ none,
      .snapshot ⟨.connected, [⟨"a", "Server", .offline, none⟩]⟩ none]
    ((Notifier.start .critical).run es).2.map (·.notification.title) =
      ["Rackio · Server is Offline"] := by
  decide

/-- A machine that fails while the agent is out of reach, and recovers: one alert, one recovery. -/
def interruptedFailure : List NotifierEvent :=
  [.snapshot ⟨.connected, [⟨"a", "Server", .healthy, none⟩]⟩ none,
    .snapshot ⟨.unavailable, []⟩ none,
    .snapshot ⟨.connected, [⟨"a", "Server", .offline, none⟩]⟩ none,
    .snapshot ⟨.connected, [⟨"a", "Server", .warning, none⟩]⟩ none]

/-- Its announcements alternate. -/
theorem notifications_alternate_interrupted :
    let es := interruptedFailure
    (kindsFor "a" ((Notifier.start .critical).run es).2).IsChain (· ≠ ·) ∧
      (∀ kind first, (kindsFor "a" ((Notifier.start .critical).run es).2).head? = some kind →
        (statesOf "a" es).head? = some first →
          (kind = .alert ↔
            (nodeStateRegistry first).rank <
              (nodeStateRegistry (NotificationThreshold.state .critical)).rank)) ∧
      ∀ before e after, es = before ++ e :: after →
        kindsFor "a" (((Notifier.start .critical).run before).1.step e).2 =
          announcedAt .critical (statesOf "a" before) (e.stateOf "a") :=
  notifications_alternate .critical "a" interruptedFailure (by
    unfold interruptedFailure
    simp only [List.forall_mem_cons]
    exact ⟨⟨rfl, fun _ _ => rfl⟩, ⟨rfl, nofun⟩, ⟨rfl, fun _ _ => rfl⟩, ⟨rfl, fun _ _ => rfl⟩,
      nofun⟩)

end Rackio
