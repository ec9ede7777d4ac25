import Rackio.Desktop.TrayMenu
import Rackio.Lib.Run
import Rackio.Lib.Table

/-!
# The status items of the tray

The part of the desktop's `tray.rs` that keeps one status item for each machine: `upsert_tray`,
`update_status_tray`, `update_machine_trays` and the poll that calls them. A menu is an object of
its own: a status item points to one, `TrayRegistry` keeps the items of the menu it built for each
status item, and a refresh in place writes to these. Calls to the platform may fail one by one.

Whatever fails, the registry keeps the menu that a status item shows, no two status items share one,
and none is left over that no poll would reach again (`Consistent`, `consistent_run`).
-/

namespace Rackio

/-! ## Menus on the screen -/

/-- A row of a menu that is shown: its text, and the filled columns of its bar with their colour. -/
structure ShownGauge where
  text : String
  bar : Option (Nat × TrayColor)
  deriving DecidableEq, Repr

/-- A submenu that is shown. -/
structure ShownSection where
  header : String
  gauges : List ShownGauge
  link : String
  deriving DecidableEq, Repr

namespace Tray

/-- The source's `gauge_fill_width`. -/
def gaugeFillWidth (basisPoints : UInt16) : Nat := min basisPoints.toNat 10000 * 56 / 10000

/-- The source's `gauge_image`. -/
def gaugeImage (gauge : TrayGauge) (color : TrayColor) : Option (Nat × TrayColor) :=
  gauge.fillBasisPoints.map fun basisPoints => (gaugeFillWidth basisPoints, color)

/-- A gauge as it is shown. -/
def showGauge (color : TrayColor) (gauge : TrayGauge) : ShownGauge :=
  ⟨gauge.text, gaugeImage gauge color⟩

/-- A section as it is shown. -/
def showSection (s : TraySection) : ShownSection :=
  ⟨s.header, s.gauges.map (showGauge s.color), s.link⟩

/-- The source's `tray_menu`, without the two fixed items. -/
def trayMenu (sections : List TraySection) : List ShownSection := sections.map showSection

/-- The sections have the gauges of the menu. -/
def sameShape (menu : List ShownSection) (sections : List TraySection) : Bool :=
  menu.length = sections.length &&
    !(menu.zip sections).any fun (items, s) => items.gauges.length ≠ s.gauges.length

/-- The source's `update_tray_menu`: the menu after it, if it was refreshed. -/
def updateTrayMenu (menu : List ShownSection) (sections : List TraySection) :
    Option (List ShownSection) :=
  if sameShape menu sections then
    some (List.zipWith (fun items s =>
      { header := s.header
        gauges := List.zipWith (fun _ gauge => showGauge s.color gauge) items.gauges s.gauges
        link := s.link }) menu sections)
  else none

/-- Replacing every element of a list by one of another list of the same length. -/
theorem zipWith_right {α β γ : Type} {f : β → γ} {l : List α} {l' : List β}
    (h : l.length = l'.length) : List.zipWith (fun _ b => f b) l l' = l'.map f := by
  induction l generalizing l' with
  | nil => rw [List.length_eq_zero_iff.1 h.symm]; rfl
  | cons a l ih =>
    cases l' with
    | nil => cases h
    | cons b l' => exact congrArg (f b :: ·) (ih (Nat.succ.inj h))

/-- A menu and sections have the same shape when they have as many gauges, place by place. -/
theorem sameShape_iff {menu : List ShownSection} {sections : List TraySection} :
    sameShape menu sections = true ↔
      menu.map (·.gauges.length) = sections.map (·.gauges.length) := by
  unfold sameShape
  induction menu generalizing sections with
  | nil =>
    cases sections with
    | nil => exact iff_of_true rfl rfl
    | cons s sections => exact iff_of_false nofun nofun
  | cons items menu ih =>
    cases sections with
    | nil => exact iff_of_false nofun nofun
    | cons s sections =>
      have hrest := @ih sections
      simp only [Bool.and_eq_true, decide_eq_true_eq, Bool.not_eq_true', List.any_eq_false] at hrest
      simp only [List.length_cons, Nat.succ.injEq, List.zip_cons_cons, List.any_cons, Bool.not_or,
        Bool.and_eq_true, decide_eq_true_eq, Bool.not_eq_true', decide_eq_false_iff_not, not_not,
        List.map_cons, List.cons.injEq, ← hrest, List.any_eq_false]
      exact and_left_comm

/-- A menu refreshed in place shows what a new one would. -/
theorem updateTrayMenu_eq {menu menu' : List ShownSection} {sections : List TraySection}
    (h : updateTrayMenu menu sections = some menu') : menu' = trayMenu sections := by
  unfold updateTrayMenu at h
  split at h
  · next hshape =>
    cases h
    rw [sameShape_iff] at hshape
    induction menu generalizing sections with
    | nil =>
      rw [List.map_eq_nil_iff.1 hshape.symm]
      rfl
    | cons items menu ih =>
      cases sections with
      | nil => cases hshape
      | cons s sections =>
        rw [List.map_cons, List.map_cons, List.cons.injEq] at hshape
        obtain ⟨hgauges, hrest⟩ := hshape
        rw [List.zipWith_cons_cons, ih hrest, zipWith_right hgauges]
        rfl
  · cases h

/-! ## The state -/

/-- A status item, with the menu it points to. -/
structure StatusItem where
  color : TrayColor
  title : String
  tooltip : String
  menu : Nat
  deriving DecidableEq, Repr

end Tray

open Tray

/-- The status items of the desktop with the source's `TrayRegistry`, and the menus that were
built. -/
structure TrayRegistry where
  /-- The status items, by `tray_by_id`. -/
  items : Table String StatusItem
  /-- What the menus show. -/
  shown : Table Nat (List ShownSection)
  nextMenu : Nat
  machineIds : Table String Unit
  menus : Table String Nat

/-- Which calls to the platform for one status item succeed. -/
structure Platform where
  setIcon : Bool
  setTitle : Bool
  setTooltip : Bool
  setIconAsTemplate : Bool
  buildMenu : Bool
  setMenu : Bool
  buildItem : Bool
  deriving DecidableEq, Repr

/-- Every call succeeds. -/
def Platform.working : Platform := ⟨true, true, true, true, true, true, true⟩

namespace TrayRegistry

/-- The source's `TrayRegistry::default`, with no status item yet. -/
def default : TrayRegistry := ⟨.empty, .empty, 0, .empty, .empty⟩

/-- What a menu shows. -/
def content (s : TrayRegistry) (menu : Nat) : List ShownSection := (s.shown.find menu).getD []

/-- Change the looks of a status item. -/
def putItem (s : TrayRegistry) (id : String) (item : StatusItem) : TrayRegistry :=
  { s with items := s.items.insert id item }

/-- Write to a menu. -/
def writeMenu (s : TrayRegistry) (menu : Nat) (sections : List ShownSection) : TrayRegistry :=
  { s with shown := s.shown.insert menu sections }

/-- Build a menu; it is the last one built. -/
def newMenu (s : TrayRegistry) (sections : List TraySection) : TrayRegistry :=
  { s with
    shown := s.shown.insert s.nextMenu (trayMenu sections)
    nextMenu := s.nextMenu + 1 }

/-- Show a status item with its menu, and keep the menu in the registry. -/
def attach (s : TrayRegistry) (id : String) (item : StatusItem) : TrayRegistry :=
  { s with items := s.items.insert id item, menus := s.menus.insert id item.menu }

/-- What a status item is to show. -/
structure Request where
  state : String
  title : String
  tooltip : String
  sections : List TraySection
  deriving DecidableEq, Repr

/-- The end of the source's `upsert_tray` on a status item that exists: its menu is refreshed in
place, or replaced. The result says whether it succeeded. -/
def refreshMenu (s : TrayRegistry) (p : Platform) (id : String) (item : StatusItem)
    (sections : List TraySection) : TrayRegistry × Bool :=
  match (s.menus.find id).bind fun menu =>
      (updateTrayMenu (s.content menu) sections).map fun shown => (menu, shown) with
  | some (menu, shown) => (s.writeMenu menu shown, true)
  | none =>
    if !p.buildMenu then (s, false)
    else if !p.setMenu then (s.newMenu sections, false)
    else ((s.newMenu sections).attach id { item with menu := s.nextMenu }, true)

/-- The source's `upsert_tray` on a status item that exists; the result says whether it
succeeded. -/
def refreshItem (s : TrayRegistry) (p : Platform) (id : String) (item : StatusItem)
    (color : TrayColor) (r : Request) : TrayRegistry × Bool :=
  if !p.setIcon then (s, false)
  else if !p.setTitle then (s.putItem id { item with color := color }, false)
  else if !p.setTooltip then (s.putItem id { item with color := color, title := r.title }, false)
  else
    let item := { item with color := color, title := r.title, tooltip := r.tooltip }
    if !p.setIconAsTemplate then (s.putItem id item, false)
    else (s.putItem id item).refreshMenu p id item r.sections

/-- The source's `upsert_tray`; the result says whether it succeeded. -/
def upsertTray (s : TrayRegistry) (p : Platform) (id : String) (r : Request) :
    TrayRegistry × Bool :=
  match stateColor r.state with
  | .error _ => (s, false)
  | .ok color =>
    match s.items.find id with
    | some item => s.refreshItem p id item color r
    | none =>
      if !p.buildMenu then (s, false)
      else if !p.buildItem then (s.newMenu r.sections, false)
      else ((s.newMenu r.sections).attach id ⟨color, r.title, r.tooltip, s.nextMenu⟩, true)

/-- What a status item shows while there is no machine to show. -/
def statusRequest (state message : String) : Request :=
  ⟨state, message, message, [statusSection message]⟩

/-- The id of the status item that stands for the agent. -/
def statusId : String := "rackio-status"

/-- The source's `update_status_tray`. Each id is handled on its own, so the order does not
matter. -/
def updateStatusTray (s : TrayRegistry) (p : String → Platform) (state message : String) :
    TrayRegistry :=
  let r := statusRequest state message
  if s.machineIds.keys = [] then
    let result := s.upsertTray (p statusId) statusId r
    if result.2 then { result.1 with machineIds := result.1.machineIds.insert statusId () }
    else result.1
  else s.machineIds.keys.foldl (fun s id => (s.upsertTray (p id) id r).1) s

/-- The status item of the agent is there, and the first machine takes it over. -/
def statusSlot (s : TrayRegistry) : Bool :=
  s.machineIds.contains statusId && s.items.contains statusId

/-- What the status item of a machine is to show; the first one has the menu of the whole fleet. -/
def machineRequest (nodes : List TrayNodeSnapshot) (node : TrayNodeSnapshot) (index : Nat) :
    Request :=
  ⟨node.state, nodeStatus node, (machineMenu node).title,
    if index = 0 then fleetSections nodes else [(machineMenu node).section_]⟩

/-- The ids of the status items of a fleet, with what they are to show. -/
def slots (statusSlot : Bool) (nodes : List TrayNodeSnapshot) : List (String × Request) :=
  nodes.zipIdx.map fun (node, index) =>
    (if index = 0 ∧ statusSlot then statusId else machineTrayId node,
      machineRequest nodes node index)

/-- Refresh or create the status items of a list of slots. -/
def upsertSlots (s : TrayRegistry) (p : String → Platform) (slots : List (String × Request)) :
    TrayRegistry :=
  slots.foldl (fun s slot => (s.upsertTray (p slot.1) slot.1 slot.2).1) s

/-- Remove a status item with its menu, as `update_machine_trays` does with a retired one. -/
def retire (s : TrayRegistry) (id : String) : TrayRegistry :=
  { s with items := s.items.erase id, menus := s.menus.erase id }

/-- The source's `retired_tray_ids`. -/
def retiredTrayIds (registered : List String) (active : List String) : List String :=
  registered.filter fun id => id ∉ active

/-- The source's `update_machine_trays`. -/
def updateMachineTrays (s : TrayRegistry) (p : String → Platform) (nodes : List TrayNodeSnapshot) :
    TrayRegistry :=
  let registered := s.machineIds.keys
  let slots := slots s.statusSlot nodes
  let active := slots.map (·.1)
  let s := s.upsertSlots p slots
  let s := (retiredTrayIds registered active).foldl retire s
  { s with machineIds := active.foldl (fun ids id => ids.insert id ()) .empty }

/-- What a poll of the daemon returns. -/
inductive PollAnswer
  /-- The daemon does not answer. -/
  | unavailable
  /-- The answer is no snapshot. -/
  | invalid
  | snapshot (snapshot : TrayFleetSnapshot)
  deriving DecidableEq, Repr

/-- A poll, with the outcome of the calls it makes. -/
structure Poll where
  answer : PollAnswer
  /-- The update reaches the main thread. -/
  dispatched : Bool
  platform : String → Platform

/-- The source's `update_tray_from_daemon`. -/
def poll (s : TrayRegistry) (e : Poll) : TrayRegistry :=
  if !e.dispatched then s
  else match e.answer with
    | .unavailable => s.updateStatusTray e.platform "daemon_unavailable" "Agent unavailable"
    | .invalid => s.updateStatusTray e.platform "degraded" "Invalid agent snapshot"
    | .snapshot snapshot =>
      if snapshot.daemon = "connected" ∧ snapshot.nodes ≠ [] then
        s.updateMachineTrays e.platform snapshot.nodes
      else if snapshot.daemon = "connected" then
        s.updateStatusTray e.platform "warning" "No paired machines"
      else s.updateStatusTray e.platform "degraded" "Invalid agent snapshot"

/-- The source's `run_tray_monitor`: the registry after a list of polls. -/
def run (s : TrayRegistry) (polls : List Poll) : TrayRegistry := polls.foldl poll s

/-! ## One status item -/

/-- Status items and menus belong together: the registry keeps the menu of every status item and no
other, and no menu has two status items. -/
structure Linked (s : TrayRegistry) : Prop where
  registered : ∀ id, s.menus.find id = (s.items.find id).map (·.menu)
  below : ∀ id item, s.items.find id = some item → item.menu < s.nextMenu
  own : ∀ id id' item item', s.items.find id = some item → s.items.find id' = some item' →
    item.menu = item'.menu → id = id'

/-- All that changed is the status item `id` and its menu. -/
structure Keeps (s t : TrayRegistry) (id : String) : Prop where
  items : ∀ id', id' ≠ id → t.items.find id' = s.items.find id'
  content : ∀ id', id' ≠ id → ∀ item, s.items.find id' = some item →
    t.content item.menu = s.content item.menu
  machineIds : t.machineIds = s.machineIds
  nextMenu : s.nextMenu ≤ t.nextMenu

/-- What a status item shows. -/
structure Shown where
  color : TrayColor
  title : String
  tooltip : String
  menu : List ShownSection
  deriving DecidableEq, Repr

/-- What is shown under an id. -/
def display (s : TrayRegistry) (id : String) : Option Shown :=
  (s.items.find id).map fun item => ⟨item.color, item.title, item.tooltip, s.content item.menu⟩

/-- How many gauges the sections of a menu have. -/
def shape (sections : List TraySection) : List Nat := sections.map (·.gauges.length)

/-- The menu of a status item, and how many gauges its sections have. -/
def outline (s : TrayRegistry) (id : String) : Option (Nat × List Nat) :=
  (s.items.find id).map fun item =>
    (item.menu, (s.content item.menu).map (·.gauges.length))

/-- What a request asks for. -/
def Request.shown (r : Request) (color : TrayColor) : Shown :=
  ⟨color, r.title, r.tooltip, trayMenu r.sections⟩

section
variable {s t u : TrayRegistry} {p : Platform} {id : String} {item item' : StatusItem} {r : Request}
  {color : TrayColor} {sections : List TraySection}

theorem Keeps.refl : Keeps s s id := ⟨fun _ _ => rfl, fun _ _ _ _ => rfl, rfl, le_rfl⟩

/-- Changes of one status item follow each other. -/
theorem Keeps.trans (h : Keeps s t id) (h' : Keeps t u id) : Keeps s u id where
  items := fun id' hne => (h'.items id' hne).trans (h.items id' hne)
  content := fun id' hne item hitem =>
    (h'.content id' hne item ((h.items id' hne).trans hitem)).trans (h.content id' hne item hitem)
  machineIds := h'.machineIds.trans h.machineIds
  nextMenu := h.nextMenu.trans h'.nextMenu

/-- Nothing else is shown differently. -/
theorem Keeps.display (h : Keeps s t id) {id' : String} (hne : id' ≠ id) :
    t.display id' = s.display id' := by
  unfold TrayRegistry.display
  rw [h.items id' hne]
  cases hitem : s.items.find id' with
  | none => rfl
  | some item => rw [Option.map_some, Option.map_some, h.content id' hne item hitem]

/-- Nor is its menu another. -/
theorem Keeps.outline (h : Keeps s t id) {id' : String} (hne : id' ≠ id) :
    t.outline id' = s.outline id' := by
  unfold TrayRegistry.outline
  rw [h.items id' hne]
  cases hitem : s.items.find id' with
  | none => rfl
  | some item => rw [Option.map_some, Option.map_some, h.content id' hne item hitem]

/-- A new menu has the gauges of its sections. -/
theorem shape_trayMenu (sections : List TraySection) :
    (trayMenu sections).map (·.gauges.length) = shape sections := by
  rw [trayMenu, shape, List.map_map]
  exact List.map_congr_left fun s _ => List.length_map ..

@[simp] theorem content_writeMenu (s : TrayRegistry) (menu menu' : Nat)
    (sections : List ShownSection) :
    (s.writeMenu menu sections).content menu' =
      if menu' = menu then sections else s.content menu' := by
  simp only [content, writeMenu, Table.find_insert]
  split <;> rfl

@[simp] theorem content_newMenu (s : TrayRegistry) (sections : List TraySection) (menu : Nat) :
    (s.newMenu sections).content menu =
      if menu = s.nextMenu then trayMenu sections else s.content menu := by
  simp only [content, newMenu, Table.find_insert]
  split <;> rfl

/-- New looks change the status item only. -/
theorem Keeps.putItem : Keeps s (s.putItem id item) id where
  items := fun id' hne => by rw [TrayRegistry.putItem, Table.find_insert, if_neg hne]
  content := fun _ _ _ _ => rfl
  machineIds := rfl
  nextMenu := le_rfl

/-- New looks keep the menu. -/
theorem Linked.putItem (h : Linked s) (hitem : s.items.find id = some item)
    (hmenu : item'.menu = item.menu) : Linked (s.putItem id item') := by
  have hfind : ∀ id₁ item₁, (s.putItem id item').items.find id₁ = some item₁ →
      ∃ item₂, s.items.find id₁ = some item₂ ∧ item₂.menu = item₁.menu := by
    intro id₁ item₁ h₁
    rw [TrayRegistry.putItem, Table.find_insert] at h₁
    split at h₁
    · next heq =>
      subst heq
      cases h₁
      exact ⟨item, hitem, hmenu.symm⟩
    · exact ⟨item₁, h₁, rfl⟩
  refine ⟨fun id₁ => ?_, fun id₁ item₁ h₁ => ?_, fun id₁ id₂ item₁ item₂ h₁ h₂ heq => ?_⟩
  · show s.menus.find id₁ = ((s.items.insert id item').find id₁).map _
    rw [h.registered, Table.find_insert]
    split
    · next heq =>
      subst heq
      rw [hitem, Option.map_some, Option.map_some, hmenu]
    · rfl
  · obtain ⟨item₂, h₂, hsame⟩ := hfind id₁ item₁ h₁
    exact hsame ▸ h.below id₁ item₂ h₂
  · obtain ⟨item₃, h₃, hsame₃⟩ := hfind id₁ item₁ h₁
    obtain ⟨item₄, h₄, hsame₄⟩ := hfind id₂ item₂ h₂
    exact h.own id₁ id₂ item₃ item₄ h₃ h₄ (hsame₃.trans (heq.trans hsame₄.symm))

/-- Writing to the menu of a status item changes no other menu. -/
theorem Linked.keeps_writeMenu (h : Linked s) (hitem : s.items.find id = some item)
    (shown : List ShownSection) : Keeps s (s.writeMenu item.menu shown) id where
  items := fun _ _ => rfl
  content := fun id' hne item' hitem' => by
    rw [content_writeMenu, if_neg fun heq => hne (h.own id' id item' item hitem' hitem heq)]
  machineIds := rfl
  nextMenu := le_rfl

theorem Linked.writeMenu (h : Linked s) (menu : Nat) (shown : List ShownSection) :
    Linked (s.writeMenu menu shown) :=
  ⟨h.registered, h.below, h.own⟩

/-- A new menu changes no menu that is shown. -/
theorem Linked.keeps_newMenu (h : Linked s) (sections : List TraySection) (id : String) :
    Keeps s (s.newMenu sections) id where
  items := fun _ _ => rfl
  content := fun id' _ item' hitem' => by
    rw [content_newMenu, if_neg (h.below id' item' hitem').ne]
  machineIds := rfl
  nextMenu := Nat.le_succ _

theorem Linked.newMenu (h : Linked s) (sections : List TraySection) :
    Linked (s.newMenu sections) :=
  ⟨h.registered, fun id item hitem => (h.below id item hitem).trans (Nat.lt_succ_self _), h.own⟩

/-- A status item with a new menu. -/
theorem Keeps.attach : Keeps s (s.attach id item) id where
  items := fun id' hne => by rw [TrayRegistry.attach, Table.find_insert, if_neg hne]
  content := fun _ _ _ _ => rfl
  machineIds := rfl
  nextMenu := le_rfl

/-- A menu that was just built is nobody else's. -/
theorem Linked.attach (h : Linked s) (sections : List TraySection)
    (hmenu : item.menu = s.nextMenu) : Linked ((s.newMenu sections).attach id item) := by
  have hfind : ∀ id₁ item₁, ((s.newMenu sections).attach id item).items.find id₁ = some item₁ →
      (id₁ = id ∧ item₁ = item) ∨ (id₁ ≠ id ∧ s.items.find id₁ = some item₁) := by
    intro id₁ item₁ h₁
    rw [TrayRegistry.attach, Table.find_insert] at h₁
    split at h₁
    · next heq => exact .inl ⟨heq, (Option.some.inj h₁).symm⟩
    · next hne => exact .inr ⟨hne, h₁⟩
  refine ⟨fun id₁ => ?_, fun id₁ item₁ h₁ => ?_, fun id₁ id₂ item₁ item₂ h₁ h₂ heq => ?_⟩
  · show (s.menus.insert id item.menu).find id₁ = ((s.items.insert id item).find id₁).map _
    rw [Table.find_insert, Table.find_insert, h.registered]
    split <;> rfl
  · rcases hfind id₁ item₁ h₁ with ⟨-, rfl⟩ | ⟨-, h₁⟩
    · rw [hmenu]
      exact Nat.lt_succ_self _
    · exact (h.below id₁ item₁ h₁).trans (Nat.lt_succ_self _)
  · rcases hfind id₁ item₁ h₁ with ⟨rfl, rfl⟩ | ⟨-, hold₁⟩
    · rcases hfind id₂ item₂ h₂ with ⟨rfl, -⟩ | ⟨-, hold₂⟩
      · rfl
      · exact absurd (heq.symm.trans hmenu) (h.below id₂ item₂ hold₂).ne
    · rcases hfind id₂ item₂ h₂ with ⟨rfl, rfl⟩ | ⟨-, hold₂⟩
      · exact absurd (heq.trans hmenu) (h.below id₁ item₁ hold₁).ne
      · exact h.own id₁ id₂ item₁ item₂ hold₁ hold₂ heq

/-- What a step on a status item does: the links hold and nothing else changes, and where every call
succeeds it shows what was asked for. A menu that has the gauges stays, whatever fails; where it
does not and every call succeeds, the menu is a new one. -/
structure Refreshed (s t : TrayRegistry) (id : String) (shown : Shown)
    (sections : List TraySection) (ok : Bool) (p : Platform) : Prop where
  linked : Linked t
  keeps : Keeps s t id
  kept : (t.items.find id).isSome
  shown : p = .working → ok = true ∧ t.display id = some shown
  sameMenu : (s.outline id).map (·.2) = some (shape sections) → t.outline id = s.outline id
  otherMenu : p = .working → (s.outline id).map (·.2) ≠ some (shape sections) →
    t.outline id = some (s.nextMenu, shape sections)

/-- A step that fails on the way. -/
theorem Refreshed.failed {shown : Shown} {ok : Bool} (hlinked : Linked t)
    (hkeeps : Keeps s t id) (hkept : (t.items.find id).isSome)
    (hmenu : (s.outline id).map (·.2) = some (shape sections) → t.outline id = s.outline id)
    (hp : p ≠ .working) : Refreshed s t id shown sections ok p where
  linked := hlinked
  keeps := hkeeps
  kept := hkept
  shown := fun h => absurd h hp
  sameMenu := hmenu
  otherMenu := fun h => absurd h hp

/-- New looks do not change the menu. -/
theorem outline_putItem (hitem : s.items.find id = some item) (hmenu : item'.menu = item.menu) :
    (s.putItem id item').outline id = s.outline id := by
  unfold outline putItem
  rw [Table.find_insert, if_pos rfl, hitem, Option.map_some, Option.map_some, hmenu]
  rfl

/-- The menu of a status item is refreshed in place or replaced, and shows the sections. -/
theorem refreshMenu_spec (h : Linked s) (hitem : s.items.find id = some item) :
    Refreshed s (s.refreshMenu p id item sections).1 id
      ⟨item.color, item.title, item.tooltip, trayMenu sections⟩ sections
      (s.refreshMenu p id item sections).2 p := by
  have hregistered : s.menus.find id = some item.menu := by
    rw [h.registered, hitem]
    rfl
  have hkept : (s.items.find id).isSome := by
    rw [hitem]
    rfl
  have houtline : s.outline id =
      some (item.menu, (s.content item.menu).map (·.gauges.length)) := by
    rw [outline, hitem]
    rfl
  have hshape : sameShape (s.content item.menu) sections = true ↔
      (s.outline id).map (·.2) = some (shape sections) := by
    rw [sameShape_iff, houtline, Option.map_some, Option.some.injEq, shape]
  unfold refreshMenu
  rw [hregistered, Option.bind_some]
  cases hupdate : updateTrayMenu (s.content item.menu) sections with
  | some shown =>
    have hsame : (s.outline id).map (·.2) = some (shape sections) := by
      rw [← hshape]
      unfold updateTrayMenu at hupdate
      split at hupdate
      · assumption
      · cases hupdate
    have hcontent : (s.writeMenu item.menu shown).content item.menu = trayMenu sections := by
      rw [content_writeMenu, if_pos rfl, updateTrayMenu_eq hupdate]
    refine ⟨h.writeMenu _ _, h.keeps_writeMenu hitem _, hkept, fun _ => ⟨rfl, ?_⟩, fun _ => ?_,
      fun _ hother => absurd hsame hother⟩
    · refine (congrArg (Option.map _) hitem).trans ?_
      rw [Option.map_some, Option.map_some, hcontent]
    · refine (congrArg (Option.map _) hitem).trans ?_
      have hlengths : (s.content item.menu).map (·.gauges.length) = shape sections := by
        rw [houtline] at hsame
        exact Option.some.inj hsame
      rw [houtline, hlengths, ← shape_trayMenu, ← hcontent]
      rfl
  | none =>
    have hother : (s.outline id).map (·.2) ≠ some (shape sections) := by
      rw [Ne, ← hshape]
      intro hsame
      rw [updateTrayMenu, if_pos hsame] at hupdate
      cases hupdate
    rw [Option.map_none]
    cases hbuild : p.buildMenu with
    | false =>
      refine .failed h .refl hkept (fun _ => rfl) ?_
      rintro rfl
      cases hbuild
    | true =>
    cases hset : p.setMenu with
    | false =>
      refine .failed (h.newMenu sections) (h.keeps_newMenu sections id) hkept
        (fun hsame => absurd hsame hother) ?_
      rintro rfl
      cases hset
    | true =>
    have hfind : ((s.newMenu sections).attach id { item with menu := s.nextMenu }).items.find id =
        some { item with menu := s.nextMenu } := by
      rw [attach, Table.find_insert, if_pos rfl]
    have hcontent : ((s.newMenu sections).attach id { item with menu := s.nextMenu }).content
        s.nextMenu = trayMenu sections := (content_newMenu ..).trans (if_pos rfl)
    refine ⟨h.attach sections rfl, (h.keeps_newMenu sections id).trans .attach,
      Option.isSome_iff_exists.2 ⟨_, hfind⟩, fun _ => ⟨rfl, ?_⟩,
      fun hsame => absurd hsame hother, fun _ _ => ?_⟩
    · refine (congrArg (Option.map _) hfind).trans ?_
      exact congrArg (fun menu => some (Shown.mk item.color item.title item.tooltip menu)) hcontent
    · refine (congrArg (Option.map _) hfind).trans ?_
      rw [← shape_trayMenu, ← hcontent]
      rfl

/-- The source's `upsert_tray` on a status item that exists. -/
theorem refreshItem_spec (h : Linked s) (hitem : s.items.find id = some item) :
    Refreshed s (s.refreshItem p id item color r).1 id (r.shown color) r.sections
      (s.refreshItem p id item color r).2 p := by
  have hlooks : ∀ item', item'.menu = item.menu →
      Linked (s.putItem id item') ∧ (s.putItem id item').items.find id = some item' ∧
        (s.putItem id item').outline id = s.outline id :=
    fun item' hmenu => ⟨h.putItem hitem hmenu, by rw [putItem, Table.find_insert, if_pos rfl],
      outline_putItem hitem hmenu⟩
  unfold refreshItem
  cases hicon : p.setIcon with
  | false =>
    refine .failed h .refl (Option.isSome_iff_exists.2 ⟨item, hitem⟩) (fun _ => rfl) ?_
    rintro rfl
    cases hicon
  | true =>
  cases htitle : p.setTitle with
  | false =>
    obtain ⟨hlinked, hfind, hmenu⟩ := hlooks { item with color := color } rfl
    refine .failed hlinked .putItem (Option.isSome_iff_exists.2 ⟨_, hfind⟩) (fun _ => hmenu) ?_
    rintro rfl
    cases htitle
  | true =>
  cases htooltip : p.setTooltip with
  | false =>
    obtain ⟨hlinked, hfind, hmenu⟩ := hlooks { item with color := color, title := r.title } rfl
    refine .failed hlinked .putItem (Option.isSome_iff_exists.2 ⟨_, hfind⟩) (fun _ => hmenu) ?_
    rintro rfl
    cases htooltip
  | true =>
  obtain ⟨hlinked, hfind, hmenu⟩ :=
    hlooks { item with color := color, title := r.title, tooltip := r.tooltip } rfl
  cases htemplate : p.setIconAsTemplate with
  | false =>
    refine .failed hlinked .putItem (Option.isSome_iff_exists.2 ⟨_, hfind⟩) (fun _ => hmenu) ?_
    rintro rfl
    cases htemplate
  | true =>
  have hrefreshed : Refreshed _ _ id (r.shown color) r.sections _ p :=
    refreshMenu_spec hlinked hfind
  exact ⟨hrefreshed.linked, .trans .putItem hrefreshed.keeps, hrefreshed.kept, hrefreshed.shown,
    fun hsame => (hrefreshed.sameMenu (by rw [hmenu, hsame])).trans hmenu,
    fun hp hother => hrefreshed.otherMenu hp (by rwa [hmenu])⟩

/-- What `upsert_tray` does, whatever fails. -/
structure Upserted (s t : TrayRegistry) (id : String) (r : Request) (ok : Bool) (p : Platform) :
    Prop where
  linked : Linked t
  keeps : Keeps s t id
  kept : (s.items.find id).isSome → (t.items.find id).isSome
  created : s.items.find id = none → (t.items.find id).isSome = ok
  /-- An unknown state changes nothing. -/
  unknown : ∀ error, stateColor r.state = .error error → t = s
  shown : ∀ color, stateColor r.state = .ok color → p = .working →
    ok = true ∧ t.display id = some (r.shown color)
  sameMenu : (s.outline id).map (·.2) = some (shape r.sections) → t.outline id = s.outline id
  otherMenu : ∀ color, stateColor r.state = .ok color → p = .working →
    (s.outline id).map (·.2) ≠ some (shape r.sections) →
    t.outline id = some (s.nextMenu, shape r.sections)

/-- There is no menu where there is no status item. -/
theorem outline_none (hnone : s.items.find id = none) : s.outline id = none := by
  rw [outline, hnone]
  rfl

/-- A call that does not get as far as a status item. -/
theorem Upserted.failed (hlinked : Linked t) (hkeeps : Keeps s t id)
    (hitems : t.items = s.items) (hnone : s.items.find id = none)
    (hcolor : stateColor r.state = .ok color) (hp : p ≠ .working) : Upserted s t id r false p where
  linked := hlinked
  keeps := hkeeps
  kept := fun hsome => hitems ▸ hsome
  created := fun _ => by rw [hitems, hnone]; rfl
  unknown := fun error herror => by rw [hcolor] at herror; cases herror
  shown := fun _ _ h => absurd h hp
  sameMenu := fun hsame => by rw [outline_none hnone] at hsame; cases hsame
  otherMenu := fun _ _ h => absurd h hp

/-- The source's `upsert_tray`. -/
theorem upsertTray_spec (h : Linked s) :
    Upserted s (s.upsertTray p id r).1 id r (s.upsertTray p id r).2 p := by
  cases hcolor : stateColor r.state with
  | error error =>
    have hsame : s.upsertTray p id r = (s, false) := by
      rw [upsertTray, hcolor]
    rw [hsame]
    refine ⟨h, .refl, fun hsome => hsome, fun hnone => by rw [hnone]; rfl, fun _ _ => rfl,
      fun color hok => ?_, fun _ => rfl, fun color hok => ?_⟩
    · rw [hcolor] at hok
      cases hok
    · rw [hcolor] at hok
      cases hok
  | ok color =>
  have hunknown : ∀ error, stateColor r.state = .error error → (s.upsertTray p id r).1 = s := by
    intro error herror
    rw [hcolor] at herror
    cases herror
  cases hitem : s.items.find id with
  | some item =>
    have hstep : s.upsertTray p id r = s.refreshItem p id item color r := by
      rw [upsertTray, hcolor]
      simp only [hitem]
    have hrefreshed : Refreshed s (s.refreshItem p id item color r).1 id (r.shown color)
        r.sections (s.refreshItem p id item color r).2 p := refreshItem_spec h hitem
    rw [← hstep] at hrefreshed
    refine ⟨hrefreshed.linked, hrefreshed.keeps, fun _ => hrefreshed.kept, fun hnone => ?_,
      hunknown, fun color' hcolor' hp => ?_, hrefreshed.sameMenu, fun _ _ => hrefreshed.otherMenu⟩
    · rw [hitem] at hnone
      cases hnone
    · cases hcolor.symm.trans hcolor'
      exact hrefreshed.shown hp
  | none =>
  cases hbuild : p.buildMenu with
  | false =>
    have hstep : s.upsertTray p id r = (s, false) := by
      rw [upsertTray, hcolor]
      simp only [hitem, hbuild, Bool.not_false, if_true]
    rw [hstep]
    refine .failed h .refl rfl hitem hcolor ?_
    rintro rfl
    cases hbuild
  | true =>
  cases hshow : p.buildItem with
  | false =>
    have hstep : s.upsertTray p id r = (s.newMenu r.sections, false) := by
      rw [upsertTray, hcolor]
      simp only [hitem, hbuild, hshow, Bool.not_true, Bool.not_false, Bool.false_eq_true, if_false,
        if_true]
    rw [hstep]
    refine .failed (h.newMenu _) (h.keeps_newMenu _ _) rfl hitem hcolor ?_
    rintro rfl
    cases hshow
  | true =>
  have hstep : s.upsertTray p id r =
      ((s.newMenu r.sections).attach id ⟨color, r.title, r.tooltip, s.nextMenu⟩, true) := by
    rw [upsertTray, hcolor]
    simp only [hitem, hbuild, hshow, Bool.not_true, Bool.false_eq_true, if_false]
  have hfind : (s.upsertTray p id r).1.items.find id =
      some ⟨color, r.title, r.tooltip, s.nextMenu⟩ := by
    rw [hstep, attach, Table.find_insert, if_pos rfl]
  have hcontent : (s.upsertTray p id r).1.content s.nextMenu = trayMenu r.sections := by
    rw [hstep]
    exact (content_newMenu ..).trans (if_pos rfl)
  refine ⟨?_, ?_, fun _ => Option.isSome_iff_exists.2 ⟨_, hfind⟩, fun _ => ?_, hunknown,
    fun color' hcolor' hp => ⟨by rw [hstep], ?_⟩, fun hsame => ?_, fun color' hcolor' hp _ => ?_⟩
  · rw [hstep]
    exact h.attach _ rfl
  · rw [hstep]
    exact (h.keeps_newMenu _ _).trans .attach
  · rw [hfind, hstep]
    rfl
  · cases hcolor.symm.trans hcolor'
    rw [display, hfind, Option.map_some, hcontent]
    rfl
  · rw [outline_none hitem] at hsame
    cases hsame
  · rw [outline, hfind, Option.map_some, hcontent, shape_trayMenu]

/-! ## Polls -/

/-- What holds after every poll: menus belong to their status items, and every status item is one a
later poll will refresh or retire. -/
structure Consistent (s : TrayRegistry) : Prop where
  linked : Linked s
  known : ∀ id, (s.items.find id).isSome → s.machineIds.contains id = true

/-- Upserting a list of slots: links hold, and a status item is an old one or that of a slot. -/
theorem upsertSlots_linked (h : Linked s) (p : String → Platform)
    (slots : List (String × Request)) :
    Linked (s.upsertSlots p slots) ∧
      (∀ id, ((s.upsertSlots p slots).items.find id).isSome →
        (s.items.find id).isSome ∨ id ∈ slots.map (·.1)) ∧
      (s.upsertSlots p slots).machineIds = s.machineIds := by
  induction slots generalizing s with
  | nil => exact ⟨h, fun id hid => .inl hid, rfl⟩
  | cons slot slots ih =>
    have hfirst : Upserted s (s.upsertTray (p slot.1) slot.1 slot.2).1 slot.1 slot.2
        (s.upsertTray (p slot.1) slot.1 slot.2).2 (p slot.1) := upsertTray_spec h
    obtain ⟨hlinked, hitems, hids⟩ := ih hfirst.linked
    refine ⟨hlinked, fun id hid => ?_, hids.trans hfirst.keeps.machineIds⟩
    rcases hitems id hid with hold | hslot
    · by_cases heq : id = slot.1
      · exact .inr (heq ▸ List.mem_cons_self)
      · rw [hfirst.keeps.items id heq] at hold
        exact .inl hold
    · exact .inr (List.mem_cons_of_mem _ hslot)

/-- Retiring status items removes them and keeps what the others show. -/
theorem retire_foldl (h : Linked s) (ids : List String) :
    Linked (ids.foldl retire s) ∧
      (∀ id, (ids.foldl retire s).items.find id = if id ∈ ids then none else s.items.find id) ∧
      (ids.foldl retire s).shown = s.shown ∧ (ids.foldl retire s).machineIds = s.machineIds := by
  induction ids generalizing s with
  | nil => exact ⟨h, fun id => (if_neg List.not_mem_nil).symm, rfl, rfl⟩
  | cons retired ids ih =>
    have hretired : Linked (s.retire retired) := by
      refine ⟨fun id => ?_, fun id item hitem => ?_, fun id id' item item' hitem hitem' heq => ?_⟩
      · simp only [retire, Table.find_erase, h.registered]
        split <;> rfl
      · simp only [retire, Table.find_erase] at hitem
        split at hitem
        · cases hitem
        · exact h.below id item hitem
      · simp only [retire, Table.find_erase] at hitem hitem'
        split at hitem
        · cases hitem
        · split at hitem'
          · cases hitem'
          · exact h.own id id' item item' hitem hitem' heq
    obtain ⟨hlinked, hitems, hshown, hids⟩ := ih hretired
    refine ⟨hlinked, fun id => ?_, hshown, hids⟩
    rw [List.foldl_cons, hitems, retire, Table.find_erase]
    by_cases hmem : id ∈ ids
    · rw [if_pos hmem, if_pos (List.mem_cons_of_mem _ hmem)]
    · rw [if_neg hmem]
      by_cases heq : id = retired
      · rw [if_pos heq, if_pos (heq ▸ List.mem_cons_self)]
      · rw [if_neg heq, if_neg fun hcons => (List.mem_cons.1 hcons).elim heq hmem]

/-- The ids that `update_machine_trays` leaves in the registry. -/
theorem contains_foldl_insert (ids : List String) (known : Table String Unit) (id : String) :
    (ids.foldl (fun known id => known.insert id ()) known).contains id = true ↔
      id ∈ ids ∨ known.contains id = true := by
  induction ids generalizing known with
  | nil => simp
  | cons first ids ih =>
    rw [List.foldl_cons, ih, List.mem_cons]
    simp only [Table.contains, Table.find_insert]
    by_cases heq : id = first
    · simp [heq]
    · simp [heq]

/-- The keys of the registry are the ids it contains. -/
theorem mem_keys_iff_contains {ids : Table String Unit} {id : String} :
    id ∈ ids.keys ↔ ids.contains id = true := Table.mem_keys_iff

/-- A list of ids that are all to show the same is a list of slots. -/
theorem foldl_upsertTray (s : TrayRegistry) (p : String → Platform) (r : Request)
    (ids : List String) :
    ids.foldl (fun s id => (s.upsertTray (p id) id r).1) s =
      s.upsertSlots p (ids.map fun id => (id, r)) := by
  rw [upsertSlots, List.foldl_map]

/-- The first status item of a registry without one. -/
theorem Consistent.first {ok : Bool} (h : Consistent s) (hempty : s.machineIds.keys = [])
    (hupserted : Upserted s t statusId r ok p) :
    Consistent (if ok then { t with machineIds := t.machineIds.insert statusId () } else t) := by
  have hnone : ∀ id, s.items.find id = none := fun id => by
    by_contra hne
    have hmem := mem_keys_iff_contains.2 (h.known id (Option.isSome_iff_ne_none.2 hne))
    rw [hempty] at hmem
    cases hmem
  have hothers : ∀ id, id ≠ statusId → t.items.find id = none := fun id hne =>
    (hupserted.keeps.items id hne).trans (hnone id)
  have hcreated := hupserted.created (hnone statusId)
  have hlinked := hupserted.linked
  cases ok with
  | true =>
    refine ⟨⟨hlinked.registered, hlinked.below, hlinked.own⟩, fun id hid => ?_⟩
    by_cases heq : id = statusId
    · simp [Table.contains, heq]
    · have hsome : (t.items.find id).isSome := hid
      rw [hothers id heq] at hsome
      cases hsome
  | false =>
    refine ⟨hlinked, fun id hid => ?_⟩
    have hsome : (t.items.find id).isSome := hid
    by_cases heq : id = statusId
    · rw [heq, hcreated] at hsome
      cases hsome
    · rw [hothers id heq] at hsome
      cases hsome

/-- A poll without machines keeps the registry consistent. -/
theorem Consistent.updateStatusTray (h : Consistent s) (p : String → Platform)
    (state message : String) : Consistent (s.updateStatusTray p state message) := by
  unfold TrayRegistry.updateStatusTray
  split
  · next hempty => exact h.first hempty (upsertTray_spec h.linked)
  · rw [foldl_upsertTray]
    obtain ⟨hlinked, hitems, hids⟩ := upsertSlots_linked h.linked p
      (s.machineIds.keys.map fun id => (id, statusRequest state message))
    refine ⟨hlinked, fun id hid => ?_⟩
    rw [hids]
    rcases hitems id hid with hold | hslot
    · exact h.known id hold
    · rw [List.map_map] at hslot
      obtain ⟨id', hid', rfl⟩ := List.mem_map.1 hslot
      exact mem_keys_iff_contains.1 hid'

/-- A poll with machines keeps the registry consistent. -/
theorem Consistent.updateMachineTrays (h : Consistent s) (p : String → Platform)
    (nodes : List TrayNodeSnapshot) : Consistent (s.updateMachineTrays p nodes) := by
  obtain ⟨hlinked, hitems, -⟩ := upsertSlots_linked h.linked p (slots s.statusSlot nodes)
  obtain ⟨hretired, hfind, -, -⟩ := retire_foldl hlinked
    (retiredTrayIds s.machineIds.keys ((slots s.statusSlot nodes).map (·.1)))
  refine ⟨⟨hretired.registered, hretired.below, hretired.own⟩, fun id hid => ?_⟩
  have hkept : ((((retiredTrayIds s.machineIds.keys ((slots s.statusSlot nodes).map (·.1))).foldl
      retire (s.upsertSlots p (slots s.statusSlot nodes))).items).find id).isSome := hid
  rw [hfind] at hkept
  refine (contains_foldl_insert _ _ id).2 (.inl ?_)
  split at hkept
  · cases hkept
  · next hactive =>
    by_contra hnot
    rcases hitems id hkept with hold | hslot
    · refine hactive (List.mem_filter.2 ⟨mem_keys_iff_contains.2 (h.known id hold), ?_⟩)
      exact decide_eq_true hnot
    · exact hnot hslot

/-- Every poll keeps the registry consistent, whatever fails in it. -/
theorem Consistent.poll (h : Consistent s) (e : Poll) : Consistent (s.poll e) := by
  unfold TrayRegistry.poll
  split
  · exact h
  · split
    · exact h.updateStatusTray _ _ _
    · exact h.updateStatusTray _ _ _
    · split
      · exact h.updateMachineTrays _ _
      · split
        · exact h.updateStatusTray _ _ _
        · exact h.updateStatusTray _ _ _

/-- The registry before the first poll. -/
theorem consistent_default : Consistent default :=
  ⟨⟨fun _ => rfl, nofun, nofun⟩, nofun⟩

/-- After every run of polls. -/
theorem consistent_run (polls : List Poll) : Consistent (default.run polls) := by
  induction polls using List.reverseRecOn with
  | nil => exact consistent_default
  | append_singleton polls e ih =>
    rw [run, List.foldl_append]
    exact ih.poll e

end

end TrayRegistry

end Rackio
