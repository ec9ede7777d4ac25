import Rackio.Desktop.TrayRegistry

/-!
# What the tray shows

The registry with its menus against a board that only says what is shown. A poll in which nothing
fails does to the registry what it does to the board (`board_updateMachineTrays`,
`board_updateStatusTray`), so whatever failed before it, it leaves the machines of the fleet and no
others (`shows_fleet`), or the message on every status item (`shows_message`). An open menu stays as
long as the fleet has the same machines, whatever fails (`menus_kept`), and goes when there are none
to show (`menus_replaced`).
-/

namespace Rackio

namespace TrayRegistry

open Tray

/-! ## What is shown -/

/-- What the status items show, and the ids a poll without machines writes to. -/
structure Board where
  shown : String → Option Shown
  ids : Table String Unit

/-- What a request shows, if its state is known. -/
def Request.looks (r : Request) : Option Shown :=
  match stateColor r.state with
  | .ok color => some (r.shown color)
  | .error _ => none

/-- Show a request under an id; a state that is not known changes nothing. -/
def paint (shown : String → Option Shown) (slot : String × Request) : String → Option Shown :=
  match slot.2.looks with
  | some s => Function.update shown slot.1 (some s)
  | none => shown

/-- Every id shows the message, and the agent's own one where there is none. -/
def Board.message (b : Board) (state message : String) : Board :=
  let ids := if b.ids.keys = [] then b.ids.insert statusId () else b.ids
  ⟨(ids.keys.map fun id => (id, statusRequest state message)).foldl paint b.shown, ids⟩

/-- Every machine shows what was read of it, and nothing else is shown. -/
def Board.machines (b : Board) (nodes : List TrayNodeSnapshot) : Board :=
  let slots := slots (b.ids.contains statusId && (b.shown statusId).isSome) nodes
  let active := slots.map (·.1)
  ⟨fun id => if id ∈ b.ids.keys ∧ id ∉ active then none else slots.foldl paint b.shown id,
    active.foldl (fun ids id => ids.insert id ()) .empty⟩

/-- What the registry shows. -/
def board (s : TrayRegistry) : Board := ⟨s.display, s.machineIds⟩

section
variable {s : TrayRegistry} {id : String} {r : Request}

/-- What a request of a known state shows. -/
theorem Request.looks_ok {color : TrayColor} (hcolor : stateColor r.state = .ok color) :
    r.looks = some (r.shown color) := by
  simp only [Request.looks, hcolor]

/-- When nothing fails, `upsert_tray` paints. -/
theorem display_upsertTray (h : Linked s) (id : String) (r : Request) :
    (s.upsertTray .working id r).1.display = paint s.display (id, r) := by
  have hupserted : Upserted s (s.upsertTray .working id r).1 id r
      (s.upsertTray .working id r).2 .working := upsertTray_spec h
  cases hcolor : stateColor r.state with
  | error error =>
    have hpaint : paint s.display (id, r) = s.display := by
      simp only [paint, Request.looks, hcolor]
    rw [hupserted.unknown error hcolor, hpaint]
  | ok color =>
    have hpaint : paint s.display (id, r) =
        Function.update s.display id (some (r.shown color)) := by
      simp only [paint, Request.looks_ok hcolor]
    rw [hpaint]
    funext id'
    by_cases heq : id' = id
    · rw [heq, Function.update_self]
      exact (hupserted.shown color hcolor rfl).2
    · rw [Function.update_of_ne heq]
      exact hupserted.keeps.display heq

/-- When nothing fails, so does a list of slots. -/
theorem display_upsertSlots (h : Linked s) (slots : List (String × Request)) :
    (s.upsertSlots (fun _ => .working) slots).display = slots.foldl paint s.display := by
  induction slots generalizing s with
  | nil => rfl
  | cons slot slots ih =>
    have hlinked : Linked (s.upsertTray .working slot.1 slot.2).1 := (upsertTray_spec h).linked
    exact (ih hlinked).trans (congrArg (slots.foldl paint) (display_upsertTray h _ _))

/-- The first status item. -/
theorem Board.message_first {b : Board} (hempty : b.ids.keys = []) (state message : String) :
    b.message state message =
      ⟨paint b.shown (statusId, statusRequest state message), b.ids.insert statusId ()⟩ := by
  have hkeys : (b.ids.insert statusId ()).keys = [statusId] := by
    have hrows : b.ids.rows = [] := List.map_eq_nil_iff.1 hempty
    simp only [Table.keys, Table.insert, hrows, Table.insertRows]
    rfl
  simp only [Board.message, if_pos hempty, hkeys]
  rfl

/-- A message on the status items that are there. -/
theorem Board.message_known {b : Board} (hne : b.ids.keys ≠ []) (state message : String) :
    b.message state message =
      ⟨(b.ids.keys.map fun id => (id, statusRequest state message)).foldl paint b.shown,
        b.ids⟩ := by
  simp only [Board.message, if_neg hne]

/-- A message is shown when nothing fails. -/
theorem board_updateStatusTray (h : Linked s) {state message : String} {color : TrayColor}
    (hcolor : stateColor state = .ok color) :
    (s.updateStatusTray (fun _ => .working) state message).board =
      s.board.message state message := by
  unfold updateStatusTray
  split
  · next hempty =>
    have hupserted : Upserted s (s.upsertTray .working statusId (statusRequest state message)).1
        statusId (statusRequest state message)
        (s.upsertTray .working statusId (statusRequest state message)).2 .working :=
      upsertTray_spec h
    rw [Board.message_first (show s.board.ids.keys = [] from hempty)]
    simp only [board, if_pos (hupserted.shown color hcolor rfl).1, hupserted.keeps.machineIds]
    exact congrArg (fun shown => Board.mk shown _) (display_upsertTray h _ _)
  · next hne =>
    rw [Board.message_known (show s.board.ids.keys ≠ [] from hne), foldl_upsertTray]
    simp only [board, (upsertSlots_linked h _ _).2.2]
    exact congrArg (fun shown => Board.mk shown _) (display_upsertSlots h _)

/-- The status item of the agent is shown when the registry has it. -/
theorem contains_and_display (s : TrayRegistry) :
    (s.machineIds.contains statusId && (s.display statusId).isSome) = s.statusSlot := by
  unfold statusSlot display Table.contains
  rw [Option.isSome_map]

/-- What the board shows of machines. -/
theorem Board.shown_machines (s : TrayRegistry) (nodes : List TrayNodeSnapshot) (id : String) :
    (s.board.machines nodes).shown id =
      if id ∈ s.machineIds.keys ∧ id ∉ (slots s.statusSlot nodes).map (·.1) then none
      else (slots s.statusSlot nodes).foldl paint s.display id := by
  simp only [board, Board.machines, contains_and_display]

/-- The status items of the machines are shown when nothing fails. -/
theorem board_updateMachineTrays (h : Linked s) (nodes : List TrayNodeSnapshot) :
    (s.updateMachineTrays (fun _ => .working) nodes).board = s.board.machines nodes := by
  obtain ⟨hlinked, -, -⟩ := upsertSlots_linked h (fun _ => .working) (slots s.statusSlot nodes)
  obtain ⟨-, hfind, hshown, -⟩ := retire_foldl hlinked
    (retiredTrayIds s.machineIds.keys ((slots s.statusSlot nodes).map (·.1)))
  have hpainted := display_upsertSlots h (slots s.statusSlot nodes)
  simp only [board, Board.machines, contains_and_display, ← hpainted]
  refine congrArg (fun shown => Board.mk shown _) (funext fun id => ?_)
  have hretired : id ∈ retiredTrayIds s.machineIds.keys ((slots s.statusSlot nodes).map (·.1)) ↔
      id ∈ s.machineIds.keys ∧ id ∉ (slots s.statusSlot nodes).map (·.1) := by
    rw [retiredTrayIds, List.mem_filter, decide_eq_true_eq]
  refine (congrArg (Option.map _) (hfind id)).trans ?_
  simp only [hretired]
  split
  · rfl
  · simp only [display, content, updateMachineTrays, hshown]

/-! ## A poll in which nothing fails -/

/-- A poll in which nothing fails. -/
def Poll.working (answer : PollAnswer) : Poll := ⟨answer, true, fun _ => .working⟩

/-- The state and the message that stand for an answer without machines. -/
def PollAnswer.message : PollAnswer → Option (String × String)
  | .unavailable => some ("daemon_unavailable", "Agent unavailable")
  | .invalid => some ("degraded", "Invalid agent snapshot")
  | .snapshot fleet =>
    if fleet.daemon = "connected" ∧ fleet.nodes ≠ [] then none
    else if fleet.daemon = "connected" then some ("warning", "No paired machines")
    else some ("degraded", "Invalid agent snapshot")

variable {answer : PollAnswer} {state message : String} {snapshot : TrayFleetSnapshot}

/-- A poll without machines shows its message. -/
theorem poll_of_message (hmessage : answer.message = some (state, message)) (dispatched : Bool)
    (p : String → Platform) :
    s.poll ⟨answer, dispatched, p⟩ =
      if dispatched then s.updateStatusTray p state message else s := by
  cases dispatched with
  | false => rfl
  | true =>
    cases answer with
    | unavailable =>
      cases hmessage
      rfl
    | invalid =>
      cases hmessage
      rfl
    | snapshot snapshot =>
      simp only [PollAnswer.message] at hmessage
      simp only [poll, Bool.not_true, Bool.false_eq_true, if_false, if_true]
      split at hmessage
      · cases hmessage
      · next hfleet =>
        rw [if_neg hfleet]
        split at hmessage
        · next hconnected =>
          cases hmessage
          rw [if_pos hconnected]
        · next hconnected =>
          cases hmessage
          rw [if_neg hconnected]

/-- A poll with machines shows them. -/
theorem poll_of_fleet (hconnected : snapshot.daemon = "connected") (hne : snapshot.nodes ≠ [])
    (dispatched : Bool) (p : String → Platform) :
    s.poll ⟨.snapshot snapshot, dispatched, p⟩ =
      if dispatched then s.updateMachineTrays p snapshot.nodes else s := by
  cases dispatched with
  | false => rfl
  | true => simp only [poll, Bool.not_true, Bool.false_eq_true, if_false, if_true,
      if_pos (And.intro hconnected hne)]

/-- The state of every message is one the tray knows. -/
theorem known_of_message (hmessage : answer.message = some (state, message)) :
    ∃ color, stateColor state = .ok color := by
  have hstate : state = "daemon_unavailable" ∨ state = "degraded" ∨ state = "warning" := by
    cases answer with
    | unavailable =>
      cases hmessage
      exact .inl rfl
    | invalid =>
      cases hmessage
      exact .inr (.inl rfl)
    | snapshot snapshot =>
      simp only [PollAnswer.message] at hmessage
      split at hmessage
      · cases hmessage
      · split at hmessage
        · cases hmessage
          exact .inr (.inr rfl)
        · cases hmessage
          exact .inr (.inl rfl)
  rcases hstate with rfl | rfl | rfl
  · exact ⟨_, rfl⟩
  · exact ⟨_, rfl⟩
  · exact ⟨_, rfl⟩

/-! ## The slots of a fleet -/

/-- The ids of the status items of a fleet. -/
theorem ids_slots (agent : Bool) (node : TrayNodeSnapshot) (nodes : List TrayNodeSnapshot) :
    (slots agent (node :: nodes)).map (·.1) =
      (if agent then statusId else machineTrayId node) :: nodes.map machineTrayId := by
  have hrest : ∀ k, (nodes.zipIdx (k + 1)).map (fun slot =>
      if slot.2 = 0 ∧ agent then statusId else machineTrayId slot.1) = nodes.map machineTrayId := by
    intro k
    induction nodes generalizing k with
    | nil => rfl
    | cons node nodes ih =>
      rw [List.zipIdx_cons, List.map_cons, List.map_cons, ih (k + 1),
        if_neg fun h => Nat.succ_ne_zero k h.1]
  rw [slots, List.map_map, List.zipIdx_cons, List.map_cons]
  refine congrArg₂ List.cons ?_ (hrest 0)
  simp only [Function.comp_apply, true_and]

/-- The id of a machine is not that of the agent. -/
theorem machineTrayId_ne_statusId (node : TrayNodeSnapshot) : machineTrayId node ≠ statusId := by
  intro heq
  have hchars := congrArg (fun id : String => id.toList.head?) heq
  rw [machineTrayId, String.toList_append] at hchars
  cases hchars

/-- Different machines have different ids. -/
theorem machineTrayId_injective {node node' : TrayNodeSnapshot}
    (h : machineTrayId node = machineTrayId node') : node.id = node'.id :=
  (String.append_right_inj _).1 h

/-- The status items of a fleet are different ones. -/
theorem nodup_slots (agent : Bool) {nodes : List TrayNodeSnapshot}
    (hids : (nodes.map (·.id)).Nodup) : ((slots agent nodes).map (·.1)).Nodup := by
  cases nodes with
  | nil => exact .nil
  | cons node nodes =>
    rw [List.map_cons, List.nodup_cons] at hids
    rw [ids_slots, List.nodup_cons]
    refine ⟨?_, ?_⟩
    · cases agent with
      | true =>
        intro hmem
        obtain ⟨node', -, heq⟩ := List.mem_map.1 hmem
        exact machineTrayId_ne_statusId node' heq
      | false =>
        intro hmem
        obtain ⟨node', hnode', heq⟩ := List.mem_map.1 hmem
        exact hids.1 (List.mem_map.2 ⟨node', hnode', machineTrayId_injective heq⟩)
    · have hrest : (nodes.map machineTrayId) = (nodes.map (·.id)).map ("machine-" ++ ·) := by
        rw [List.map_map]
        rfl
      rw [hrest]
      exact hids.2.map fun _ _ heq => (String.append_right_inj _).1 heq

/-- A slot of a fleet shows a machine of it. -/
theorem state_of_mem_slots {agent : Bool} {nodes : List TrayNodeSnapshot}
    {slot : String × Request} (h : slot ∈ slots agent nodes) :
    ∃ node ∈ nodes, slot.2.state = node.state := by
  obtain ⟨⟨node, index⟩, hmem, rfl⟩ := List.mem_map.1 h
  exact ⟨node, List.fst_mem_of_mem_zipIdx hmem, rfl⟩

/-! ## What a run leaves on the screen -/

/-- Painting slots shows each of them. -/
theorem foldl_paint {slots : List (String × Request)} (hids : (slots.map (·.1)).Nodup)
    (hknown : ∀ slot ∈ slots, ∃ color, stateColor slot.2.state = .ok color)
    (shown : String → Option Shown) (id : String) :
    slots.foldl paint shown id =
      if id ∈ slots.map (·.1) then (slots.lookup id).bind Request.looks else shown id := by
  induction slots generalizing shown with
  | nil => rfl
  | cons slot slots ih =>
    rw [List.map_cons, List.nodup_cons] at hids
    obtain ⟨color, hcolor⟩ := hknown slot List.mem_cons_self
    have hlooks := Request.looks_ok hcolor
    rw [List.foldl_cons, ih hids.2 fun slot' h => hknown slot' (List.mem_cons_of_mem _ h)]
    by_cases hfirst : id = slot.1
    · subst hfirst
      rw [if_neg hids.1, List.map_cons, if_pos List.mem_cons_self, List.lookup_cons_self,
        Option.bind_some, hlooks, paint, hlooks]
      exact Function.update_self ..
    · have hmem : id ∈ (slot :: slots).map (·.1) ↔ id ∈ slots.map (·.1) := by
        rw [List.map_cons, List.mem_cons]
        exact or_iff_right hfirst
      have hpaint : paint shown slot id = shown id := by
        rw [paint, hlooks]
        exact Function.update_of_ne hfirst ..
      have hlookup : (slot :: slots).lookup id = slots.lookup id := by
        rw [List.lookup_cons, beq_false_of_ne hfirst]
      rw [hpaint, hlookup]
      simp only [hmem]

/-- A status item that no poll knows shows nothing. -/
theorem Consistent.display_none (h : Consistent s) (hid : id ∉ s.machineIds.keys) :
    s.display id = none := by
  rw [display, Option.map_eq_none_iff]
  by_contra hne
  exact hid (mem_keys_iff_contains.2 (h.known id (Option.isSome_iff_ne_none.2 hne)))

/-- A machine of which only the state is known. -/
def bareMachine (id : String) : TrayNodeSnapshot where
  id := id
  name := id
  trayLabel := id
  state := "healthy"
  path := "unknown"
  cpuPercent := none
  memoryUsedBytes := none
  memoryTotalBytes := none
  swapUsedBytes := none
  swapTotalBytes := none
  diskUsedBytes := none
  diskTotalBytes := none
  diskMount := none
  networkReceivedBytesPerSecond := none
  networkSentBytesPerSecond := none
  uptimeSeconds := none
  temperature := none
  rttMs := none

/-- A fleet of two of them. -/
def bareFleet : TrayFleetSnapshot := ⟨"connected", [bareMachine "desk", bareMachine "attic"]⟩

/-- The states of its machines are known. -/
theorem bareFleet_known : ∀ node ∈ bareFleet.nodes, ∃ color, stateColor node.state = .ok color := by
  simp [bareFleet, bareMachine, stateColor]

/-- Polls that go wrong: the status item of one machine cannot be made, an answer without machines
finds no new menus, and a third poll does not reach the main thread. -/
def troubledPolls : List Poll :=
  [⟨.snapshot bareFleet, true, fun id =>
      if id = machineTrayId (bareMachine "attic") then { Platform.working with buildItem := false }
      else .working⟩,
    ⟨.unavailable, true, fun _ => { Platform.working with buildMenu := false }⟩,
    ⟨.invalid, false, fun _ => .working⟩]

/-- Painting the same on some ids shows it on these. -/
theorem foldl_paint_same {r : Request} {color : TrayColor} (hcolor : stateColor r.state = .ok color)
    (ids : List String) (shown : String → Option Shown) (id : String) :
    (ids.map fun id => (id, r)).foldl paint shown id =
      if id ∈ ids then some (r.shown color) else shown id := by
  induction ids generalizing shown with
  | nil => rfl
  | cons first ids ih =>
    have hpaint : paint shown (first, r) = Function.update shown first (some (r.shown color)) := by
      rw [paint, Request.looks_ok hcolor]
    rw [List.map_cons, List.foldl_cons, ih, hpaint]
    by_cases hfirst : id = first
    · rw [hfirst, Function.update_self, if_pos List.mem_cons_self, ite_self]
    · rw [Function.update_of_ne hfirst]
      simp only [List.mem_cons, hfirst, false_or]

/-- Whatever failed before it, a poll without machines in which nothing fails shows its message on
every status item: those that were there stay, and the agent gets one when there was none. -/
theorem shows_message (polls : List Poll) (hmessage : answer.message = some (state, message)) :
    let s := default.run polls
    let ids := if s.machineIds.keys = [] then [statusId] else s.machineIds.keys
    (∀ id, (s.items.find id).isSome → id ∈ ids) ∧ ∃ color, stateColor state = .ok color ∧
      ∀ id, (s.poll (.working answer)).display id =
        if id ∈ ids then some ⟨color, message, message, trayMenu [statusSection message]⟩
        else none := by
  intro s ids
  have hconsistent : Consistent s := consistent_run polls
  obtain ⟨color, hcolor⟩ := known_of_message hmessage
  have hknown : ∀ id, id ∉ ids → id ∉ s.machineIds.keys := by
    intro id hid
    by_cases hempty : s.machineIds.keys = []
    · rw [hempty]
      exact List.not_mem_nil
    · rwa [show ids = s.machineIds.keys from if_neg hempty] at hid
  refine ⟨fun id hitem => ?_, color, hcolor, fun id => ?_⟩
  · by_contra hid
    exact hknown id hid (mem_keys_iff_contains.2 (hconsistent.known id hitem))
  have hshown : (s.poll (.working answer)).display id =
      (ids.map fun id => (id, statusRequest state message)).foldl paint s.display id := by
    rw [Poll.working, poll_of_message hmessage, if_pos rfl]
    refine (congrFun (congrArg Board.shown
      (board_updateStatusTray hconsistent.linked hcolor)) id).trans ?_
    by_cases hempty : s.machineIds.keys = []
    · rw [Board.message_first (show s.board.ids.keys = [] from hempty),
        show ids = [statusId] from if_pos hempty]
      rfl
    · rw [Board.message_known (show s.board.ids.keys ≠ [] from hempty),
        show ids = s.machineIds.keys from if_neg hempty]
      rfl
  rw [hshown, foldl_paint_same (r := statusRequest state message) hcolor]
  split
  · rfl
  · next hid => exact hconsistent.display_none (hknown id hid)

theorem shows_message_unavailable :
    let s := default.run troubledPolls
    let ids := if s.machineIds.keys = [] then [statusId] else s.machineIds.keys
    (∀ id, (s.items.find id).isSome → id ∈ ids) ∧
      ∃ color, stateColor "daemon_unavailable" = .ok color ∧
        ∀ id, (s.poll (.working .unavailable)).display id =
          if id ∈ ids then some ⟨color, "Agent unavailable", "Agent unavailable",
            trayMenu [statusSection "Agent unavailable"]⟩
          else none :=
  shows_message troubledPolls rfl

/-! ## Open menus -/

/-- Refreshing status items whose menus have the gauges changes no menu, whatever fails. -/
theorem outline_upsertSlots (h : Linked s) (p : String → Platform) {slots : List (String × Request)}
    (hfits : ∀ slot ∈ slots, (s.outline slot.1).map (·.2) = some (shape slot.2.sections))
    (id : String) : (s.upsertSlots p slots).outline id = s.outline id := by
  induction slots generalizing s with
  | nil => rfl
  | cons slot slots ih =>
    have hupserted : Upserted s (s.upsertTray (p slot.1) slot.1 slot.2).1 slot.1 slot.2
        (s.upsertTray (p slot.1) slot.1 slot.2).2 (p slot.1) := upsertTray_spec h
    have hsame : ∀ id, (s.upsertTray (p slot.1) slot.1 slot.2).1.outline id = s.outline id := by
      intro id
      by_cases heq : id = slot.1
      · rw [heq]
        exact hupserted.sameMenu (hfits slot List.mem_cons_self)
      · exact hupserted.keeps.outline heq
    refine (ih hupserted.linked fun slot' hslot' => ?_).trans (hsame id)
    rw [hsame]
    exact hfits slot' (List.mem_cons_of_mem _ hslot')

/-- Refreshing some status items leaves the others. -/
theorem outline_upsertSlots_of_not_mem (h : Linked s) (p : String → Platform)
    {slots : List (String × Request)} {id : String} (hid : id ∉ slots.map (·.1)) :
    (s.upsertSlots p slots).outline id = s.outline id := by
  induction slots generalizing s with
  | nil => rfl
  | cons slot slots ih =>
    have hupserted : Upserted s (s.upsertTray (p slot.1) slot.1 slot.2).1 slot.1 slot.2
        (s.upsertTray (p slot.1) slot.1 slot.2).2 (p slot.1) := upsertTray_spec h
    rw [List.map_cons, List.mem_cons, not_or] at hid
    exact (ih hupserted.linked hid.2).trans (hupserted.keeps.outline hid.1)

/-- When nothing fails, every status item of the slots has a menu with the gauges; where it did not
before, a new one. -/
theorem outline_upsertSlots_working (h : Linked s) {slots : List (String × Request)}
    (hids : (slots.map (·.1)).Nodup)
    (hknown : ∀ slot ∈ slots, ∃ color, stateColor slot.2.state = .ok color) :
    ∀ slot ∈ slots, ∃ menu,
      (s.upsertSlots (fun _ => .working) slots).outline slot.1 =
        some (menu, shape slot.2.sections) ∧
      ((s.outline slot.1).map (·.2) ≠ some (shape slot.2.sections) → s.nextMenu ≤ menu) := by
  induction slots generalizing s with
  | nil => exact fun _ hslot => absurd hslot List.not_mem_nil
  | cons first slots ih =>
    have hupserted : Upserted s (s.upsertTray .working first.1 first.2).1 first.1 first.2
        (s.upsertTray .working first.1 first.2).2 .working := upsertTray_spec h
    rw [List.map_cons, List.nodup_cons] at hids
    intro slot hslot
    rcases List.mem_cons.1 hslot with rfl | hrest
    · obtain ⟨color, hcolor⟩ := hknown slot List.mem_cons_self
      have hlater := outline_upsertSlots_of_not_mem hupserted.linked (fun _ => .working) hids.1
      refine ⟨((s.upsertTray .working slot.1 slot.2).1.outline slot.1).elim 0 (·.1), ?_⟩
      by_cases hsame : (s.outline slot.1).map (·.2) = some (shape slot.2.sections)
      · obtain ⟨outline, houtline, hshape⟩ := Option.map_eq_some_iff.1 hsame
        refine ⟨hlater.trans ?_, fun hother => absurd hsame hother⟩
        rw [hupserted.sameMenu hsame, houtline, ← hshape]
        rfl
      · have hnew := hupserted.otherMenu color hcolor rfl hsame
        refine ⟨hlater.trans ?_, fun _ => ?_⟩
        · rw [hnew]
          rfl
        · rw [hnew]
          exact le_rfl
    · have hne : slot.1 ≠ first.1 := fun heq =>
        hids.1 (List.mem_map.2 ⟨slot, hrest, heq⟩)
      obtain ⟨menu, hmenu, hnew⟩ := ih hupserted.linked hids.2
        (fun slot' hslot' => hknown slot' (List.mem_cons_of_mem _ hslot')) slot hrest
      refine ⟨menu, hmenu, fun hother => hupserted.keeps.nextMenu.trans (hnew ?_)⟩
      rwa [hupserted.keeps.outline hne]

/-- The status items of a fleet, with the gauges of their menus. -/
def fleetShape (agent : Bool) (ids : List String) : List (String × List Nat) :=
  ids.zipIdx.map fun (id, index) =>
    (if index = 0 ∧ agent then statusId else "machine-" ++ id,
      if index = 0 then List.replicate ids.length 7 else [7])

/-- The menu of the whole fleet has a section for each machine. -/
theorem shape_fleetSections (nodes : List TrayNodeSnapshot) :
    shape (fleetSections nodes) = List.replicate nodes.length 7 := by
  rw [shape, fleetSections, List.map_map, List.eq_replicate_iff]
  refine ⟨List.length_map _, fun length hlength => ?_⟩
  obtain ⟨node, -, rfl⟩ := List.mem_map.1 hlength
  exact length_gauges node

/-- The menus of a fleet depend on the machines in it only. -/
theorem shape_slots (agent : Bool) (nodes : List TrayNodeSnapshot) :
    (slots agent nodes).map (fun slot => (slot.1, shape slot.2.sections)) =
      fleetShape agent (nodes.map (·.id)) := by
  rw [slots, fleetShape, List.map_map, List.zipIdx_map, List.map_map]
  refine List.map_congr_left fun slot _ => Prod.ext rfl ?_
  simp only [Function.comp_apply, Prod.map, machineRequest, List.length_map, id_eq]
  split
  · exact shape_fleetSections nodes
  · rfl

/-- The tray shows a fleet: its status items are there, with the gauges of their menus. -/
structure Settled (s : TrayRegistry) (agent : Bool) (ids : List String) : Prop where
  linked : Linked s
  slot : s.statusSlot = agent
  known : ∀ id, id ∈ s.machineIds.keys ↔ id ∈ (fleetShape agent ids).map (·.1)
  fits : ∀ entry ∈ fleetShape agent ids, (s.outline entry.1).map (·.2) = some entry.2

/-- A poll, if it reaches the main thread, finds the fleet with the same machines. -/
def Poll.Sees (e : Poll) (ids : List String) : Prop :=
  e.dispatched = true → ∃ snapshot, e.answer = .snapshot snapshot ∧ snapshot.daemon = "connected" ∧
    snapshot.nodes ≠ [] ∧ snapshot.nodes.map (·.id) = ids

variable {agent : Bool} {nodes : List TrayNodeSnapshot} {ids : List String} {p : String → Platform}

/-- The agent's own status item is one of a fleet exactly when it has the slot of the first
machine. -/
theorem statusId_mem_slots (hne : nodes ≠ []) :
    statusId ∈ (slots agent nodes).map (·.1) ↔ agent = true := by
  obtain ⟨node, nodes, rfl⟩ := List.exists_cons_of_ne_nil hne
  have hrest : statusId ∉ nodes.map machineTrayId := by
    intro hmem
    obtain ⟨node', -, heq⟩ := List.mem_map.1 hmem
    exact machineTrayId_ne_statusId node' heq
  rw [ids_slots, List.mem_cons, or_iff_left hrest]
  cases agent with
  | true => exact iff_of_true rfl rfl
  | false => exact iff_of_false (machineTrayId_ne_statusId node).symm Bool.false_ne_true

/-- The ids of a fleet. -/
theorem mem_fleetShape {id : String} :
    id ∈ (fleetShape agent (nodes.map (·.id))).map (·.1) ↔ id ∈ (slots agent nodes).map (·.1) := by
  rw [← shape_slots, List.map_map]
  rfl

/-- Retiring a status item leaves the menus of the others. -/
theorem outline_retire (h : Linked s) {retired : List String} {id : String} (hid : id ∉ retired) :
    (retired.foldl retire s).outline id = s.outline id := by
  obtain ⟨-, hfind, hshown, -⟩ := retire_foldl h retired
  simp only [outline, content, hfind, if_neg hid, hshown]

/-- After a poll of machines that leaves every status item with its gauges, the tray shows the
fleet. -/
theorem settled_updateMachineTrays (h : Linked s) (hne : nodes ≠ []) (hagent : s.statusSlot = agent)
    (hfits : ∀ slot ∈ slots agent nodes,
      ((s.upsertSlots p (slots agent nodes)).outline slot.1).map (·.2) =
        some (shape slot.2.sections)) :
    Settled (s.updateMachineTrays p nodes) agent (nodes.map (·.id)) := by
  obtain ⟨hlinked, -, -⟩ := upsertSlots_linked h p (slots agent nodes)
  obtain ⟨hretired, -, -, -⟩ := retire_foldl hlinked
    (retiredTrayIds s.machineIds.keys ((slots agent nodes).map (·.1)))
  have houtline : ∀ slot ∈ slots agent nodes, ((s.updateMachineTrays p nodes).outline slot.1).map
      (·.2) = some (shape slot.2.sections) := by
    intro slot hslot
    have hactive : slot.1 ∉ retiredTrayIds s.machineIds.keys ((slots agent nodes).map (·.1)) :=
      fun hmem => of_decide_eq_true (List.mem_filter.1 hmem).2 (List.mem_map_of_mem hslot)
    rw [← hfits slot hslot, ← outline_retire hlinked hactive, ← hagent]
    rfl
  have hknown : ∀ id, (s.updateMachineTrays p nodes).machineIds.contains id = true ↔
      id ∈ (slots agent nodes).map (·.1) := by
    intro id
    rw [← hagent]
    refine (contains_foldl_insert _ _ id).trans (or_iff_left ?_)
    exact Bool.false_ne_true
  refine ⟨?_, ?_, fun id => ?_, fun entry hentry => ?_⟩
  · rw [← hagent] at hretired
    exact ⟨hretired.registered, hretired.below, hretired.own⟩
  · cases hslot : agent with
    | true =>
      have hmem : statusId ∈ (slots agent nodes).map (·.1) := (statusId_mem_slots hne).2 hslot
      obtain ⟨slot, hslot', heq⟩ := List.mem_map.1 hmem
      have hitem := houtline slot hslot'
      rw [heq, outline, Option.map_map, Option.map_eq_some_iff] at hitem
      obtain ⟨item, hitem, -⟩ := hitem
      rw [statusSlot, (hknown statusId).2 hmem, Table.contains, hitem]
      rfl
    | false =>
      have hmem : statusId ∉ (slots agent nodes).map (·.1) :=
        (statusId_mem_slots hne).not.2 (hslot ▸ Bool.false_ne_true)
      rw [statusSlot, Bool.eq_false_iff.2 (mt (hknown statusId).1 hmem), Bool.false_and]
  · rw [mem_keys_iff_contains, hknown, mem_fleetShape]
  · rw [← shape_slots] at hentry
    obtain ⟨slot, hslot, rfl⟩ := List.mem_map.1 hentry
    exact houtline slot hslot

/-- While the fleet has the same machines, a poll keeps every menu, whatever fails. -/
theorem Settled.updateMachineTrays (h : Settled s agent (nodes.map (·.id))) (hne : nodes ≠ [])
    (p : String → Platform) :
    Settled (s.updateMachineTrays p nodes) agent (nodes.map (·.id)) ∧
      ∀ id, (s.updateMachineTrays p nodes).outline id = s.outline id := by
  have hfits : ∀ slot ∈ slots agent nodes,
      (s.outline slot.1).map (·.2) = some (shape slot.2.sections) := by
    intro slot hslot
    refine h.fits (slot.1, shape slot.2.sections) ?_
    rw [← shape_slots]
    exact List.mem_map_of_mem hslot
  have hsame := outline_upsertSlots h.linked p hfits
  refine ⟨settled_updateMachineTrays h.linked hne h.slot fun slot hslot => ?_, fun id => ?_⟩
  · rw [hsame, hfits slot hslot]
  · obtain ⟨hlinked, -, -⟩ := upsertSlots_linked h.linked p (slots agent nodes)
    have hretired : id ∉ retiredTrayIds s.machineIds.keys ((slots agent nodes).map (·.1)) := by
      intro hmem
      obtain ⟨hknown, hactive⟩ := List.mem_filter.1 hmem
      rw [h.known, mem_fleetShape] at hknown
      exact of_decide_eq_true hactive hknown
    rw [← hsame id, ← outline_retire hlinked hretired, ← h.slot]
    rfl

/-- While the fleet has the same machines, so does a poll that may not arrive. -/
theorem Settled.poll (h : Settled s agent ids) {e : Poll} (hsees : e.Sees ids) :
    Settled (s.poll e) agent ids ∧ ∀ id, (s.poll e).outline id = s.outline id := by
  obtain ⟨answer, dispatched, p⟩ := e
  cases dispatched with
  | false => exact ⟨h, fun _ => rfl⟩
  | true =>
    obtain ⟨snapshot, hanswer, hconnected, hne, hids⟩ := hsees rfl
    have hsnapshot : answer = .snapshot snapshot := hanswer
    subst hsnapshot hids
    rw [poll_of_fleet hconnected hne, if_pos rfl]
    exact h.updateMachineTrays hne p

/-- After a poll of a fleet in which nothing fails, the tray shows the fleet. -/
theorem settled_of_working (h : Linked s) (hconnected : snapshot.daemon = "connected")
    (hne : snapshot.nodes ≠ []) (hids : (snapshot.nodes.map (·.id)).Nodup)
    (hknown : ∀ node ∈ snapshot.nodes, ∃ color, stateColor node.state = .ok color) :
    Settled (s.poll (.working (.snapshot snapshot))) s.statusSlot (snapshot.nodes.map (·.id)) := by
  rw [Poll.working, poll_of_fleet hconnected hne, if_pos rfl]
  refine settled_updateMachineTrays h hne rfl fun slot hslot => ?_
  obtain ⟨menu, hmenu, -⟩ := outline_upsertSlots_working h (nodup_slots _ hids)
    (fun slot hslot => by
      obtain ⟨node, hnode, hstate⟩ := state_of_mem_slots hslot
      exact hstate ▸ hknown node hnode) slot hslot
  rw [hmenu]
  rfl

/-- The menu that a status item points to. -/
def menuOf (s : TrayRegistry) (id : String) : Option Nat := (s.items.find id).map (·.menu)

/-- It is the menu of the outline. -/
theorem menuOf_eq (s : TrayRegistry) (id : String) : s.menuOf id = (s.outline id).map (·.1) := by
  rw [menuOf, outline, Option.map_map]
  rfl

/-- While the fleet has the same machines, the polls after one in which nothing fails write to the
menus that are open and replace none of them, whatever fails in these polls. -/
theorem menus_kept (polls later : List Poll) (hconnected : snapshot.daemon = "connected")
    (hne : snapshot.nodes ≠ []) (hids : (snapshot.nodes.map (·.id)).Nodup)
    (hknown : ∀ node ∈ snapshot.nodes, ∃ color, stateColor node.state = .ok color)
    (hlater : ∀ e ∈ later, e.Sees (snapshot.nodes.map (·.id))) (id : String) :
    let s := (default.run polls).poll (.working (.snapshot snapshot))
    (s.run later).menuOf id = s.menuOf id := by
  intro s
  have hsettled : Settled s (default.run polls).statusSlot (snapshot.nodes.map (·.id)) :=
    settled_of_working (consistent_run polls).linked hconnected hne hids hknown
  have hrun : Settled (s.run later) (default.run polls).statusSlot (snapshot.nodes.map (·.id)) ∧
      ∀ id, (s.run later).outline id = s.outline id := by
    induction later using List.reverseRecOn with
    | nil => exact ⟨hsettled, fun _ => rfl⟩
    | append_singleton later e ih =>
      obtain ⟨hbefore, hsame⟩ := ih fun e' he' => hlater e' (List.mem_append_left _ he')
      obtain ⟨hafter, hstep⟩ := hbefore.poll (hlater e (List.mem_append_right _ List.mem_cons_self))
      rw [run, List.foldl_append]
      exact ⟨hafter, fun id => (hstep id).trans (hsame id)⟩
  rw [menuOf_eq, menuOf_eq, hrun.2]

theorem menus_kept_bare :
    let s := (default.run []).poll (.working (.snapshot bareFleet))
    (s.run [⟨.snapshot bareFleet, true, fun _ => { Platform.working with setTitle := false }⟩,
      ⟨.unavailable, false, fun _ => .working⟩]).menuOf statusId = s.menuOf statusId :=
  menus_kept [] _ rfl (by simp [bareFleet]) (by simp [bareFleet, bareMachine]) bareFleet_known
    (by
      intro e he
      rcases List.mem_cons.1 he with rfl | hrest
      · exact fun _ => ⟨bareFleet, rfl, rfl, by simp [bareFleet], rfl⟩
      · rcases List.mem_singleton.1 hrest with rfl
        exact fun h => absurd h Bool.false_ne_true) statusId

/-- No menu of a fleet has the gauges of a message. -/
theorem shape_ne_status {entry : String × List Nat} (h : entry ∈ fleetShape agent ids)
    (message : String) : entry.2 ≠ shape [statusSection message] := by
  obtain ⟨⟨id, index⟩, hmem, rfl⟩ := List.mem_map.1 h
  have hstatus : shape [statusSection message] = [4] := rfl
  rw [hstatus]
  intro heq
  dsimp only at heq
  split at heq
  · have hfour : 4 ∈ List.replicate ids.length 7 := heq ▸ List.mem_cons_self
    cases List.eq_of_mem_replicate hfour
  · cases heq

/-- When the machines are gone from the answer, a poll in which nothing fails replaces every menu
that was open: the menus after it are new ones, on the same status items. -/
theorem menus_replaced (polls : List Poll) (hconnected : snapshot.daemon = "connected")
    (hne : snapshot.nodes ≠ []) (hids : (snapshot.nodes.map (·.id)).Nodup)
    (hknown : ∀ node ∈ snapshot.nodes, ∃ color, stateColor node.state = .ok color)
    (hmessage : answer.message = some (state, message)) (id : String) :
    let s := (default.run polls).poll (.working (.snapshot snapshot))
    (s.poll (.working answer)).menuOf id = none ∧ s.menuOf id = none ∨
      ∃ menu menu', s.menuOf id = some menu ∧ (s.poll (.working answer)).menuOf id = some menu' ∧
        menu < menu' := by
  intro s
  have hsettled : Settled s (default.run polls).statusSlot (snapshot.nodes.map (·.id)) :=
    settled_of_working (consistent_run polls).linked hconnected hne hids hknown
  have hconsistent : Consistent s := (consistent_run polls).poll _
  obtain ⟨color, hcolor⟩ := known_of_message hmessage
  have hempty : s.machineIds.keys ≠ [] := by
    intro hempty
    obtain ⟨node, nodes, hnodes⟩ := List.exists_cons_of_ne_nil hne
    have hslots := ids_slots (default.run polls).statusSlot node nodes
    rw [← hnodes] at hslots
    have hfirst := (hsettled.known _).2 (mem_fleetShape.2 (hslots ▸ List.mem_cons_self))
    rw [hempty] at hfirst
    cases hfirst
  have hpoll : s.poll (.working answer) = s.upsertSlots (fun _ => .working)
      (s.machineIds.keys.map fun id => (id, statusRequest state message)) := by
    rw [Poll.working, poll_of_message hmessage, if_pos rfl, TrayRegistry.updateStatusTray,
      if_neg hempty, foldl_upsertTray]
  have hfirsts : (s.machineIds.keys.map fun id => (id, statusRequest state message)).map (·.1) =
      s.machineIds.keys := by
    rw [List.map_map]
    exact List.map_id _
  rw [hpoll, menuOf_eq, menuOf_eq]
  by_cases hid : id ∈ s.machineIds.keys
  · obtain ⟨entry, hentry, rfl⟩ := List.mem_map.1 ((hsettled.known id).1 hid)
    have hold := hsettled.fits entry hentry
    have hnodup : ((s.machineIds.keys.map fun id => (id, statusRequest state message)).map
        (·.1)).Nodup := by
      rw [hfirsts]
      exact s.machineIds.nodup_keys
    obtain ⟨menu', hmenu', hnew⟩ := outline_upsertSlots_working hsettled.linked hnodup
      (fun slot hslot => by
        obtain ⟨id, -, rfl⟩ := List.mem_map.1 hslot
        exact ⟨color, hcolor⟩)
      (entry.1, statusRequest state message) (List.mem_map.2 ⟨entry.1, hid, rfl⟩)
    obtain ⟨⟨menu, lengths⟩, hmenu, hlengths⟩ := Option.map_eq_some_iff.1 hold
    refine .inr ⟨menu, menu', by rw [hmenu]; rfl, by rw [hmenu']; rfl, ?_⟩
    have hbelow : menu < s.nextMenu := by
      obtain ⟨item, hitem, heq⟩ := Option.map_eq_some_iff.1 hmenu
      cases heq
      exact hsettled.linked.below _ item hitem
    refine hbelow.trans_le (hnew ?_)
    rw [hold]
    exact fun heq => shape_ne_status hentry message (Option.some.inj heq)
  · have hnone : s.outline id = none := by
      refine outline_none ?_
      by_contra hitem
      exact hid (mem_keys_iff_contains.2 (hconsistent.known id (Option.isSome_iff_ne_none.2 hitem)))
    have hnot : id ∉ (s.machineIds.keys.map fun id => (id, statusRequest state message)).map
        (·.1) := by rwa [hfirsts]
    refine .inl ⟨?_, ?_⟩
    · rw [outline_upsertSlots_of_not_mem hsettled.linked _ hnot, hnone]
      rfl
    · rw [hnone]
      rfl

theorem menus_replaced_bare :
    let s := (default.run []).poll (.working (.snapshot bareFleet))
    (s.poll (.working .unavailable)).menuOf "machine-attic" = none ∧
        s.menuOf "machine-attic" = none ∨
      ∃ menu menu', s.menuOf "machine-attic" = some menu ∧
        (s.poll (.working .unavailable)).menuOf "machine-attic" = some menu' ∧ menu < menu' :=
  menus_replaced [] rfl (by simp [bareFleet]) (by simp [bareFleet, bareMachine]) bareFleet_known
    (show PollAnswer.unavailable.message = some ("daemon_unavailable", "Agent unavailable")
      from rfl)
    "machine-attic"

end

end TrayRegistry

end Rackio
