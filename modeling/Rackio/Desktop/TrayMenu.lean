import Rackio.Desktop.TrayLabels
import Rackio.Lib.Nearest

/-!
# The tray menu of a machine

What the desktop's `tray.rs` makes of the nodes of a fleet snapshot: the title and the tooltip of a
status item, and the menu section with its gauges. Colours are given by their four bytes, and the
bar of a gauge by the number of its filled columns and their colour, which determine its pixels.

A section of a machine has seven gauges whatever was read (`length_gauges`), and the one that stands
for a message has four. A menu is refreshed in place only when its sections have the gauges they
had, so this decides when an open menu survives.
-/

namespace Rackio

/-! ## Numbers as text -/

/-- The source's `format!("{value:.0}")`. -/
def F64.format0 (x : F64) : String :=
  let sign := if x.bits.toNat < 2 ^ 63 then "" else "-"
  if x.isNaN then "NaN"
  else if !x.isFinite then sign ++ "inf"
  else sign ++ toString (divRoundEven x.magnitude (2 ^ 1074))

/-- The source's `scale_basis_points`: the value within 0 and 100, times 100 as a double, rounded
half up. A NaN and a negative value give 0. -/
def scaleBasisPoints (x : F64) : UInt16 :=
  if x.isNaN ∨ 2 ^ 63 ≤ x.bits.toNat then 0
  else
    let clamped := min x.magnitude (100 * 2 ^ 1074)
    let product := Binary64.magnitude (Binary64.nearest (clamped * 100) 1)
    UInt16.ofNat ((2 * product + 2 ^ 1074) / 2 ^ 1075)

/-! ## Snapshots -/

/-- The source's `TrayTemperature`. -/
structure TrayTemperature where
  label : String
  celsius : F64
  deriving DecidableEq, Repr

/-- The source's `TrayNodeSnapshot`. -/
structure TrayNodeSnapshot where
  id : String
  name : String
  trayLabel : String
  state : String
  path : String
  cpuPercent : Option F64
  memoryUsedBytes : Option UInt64
  memoryTotalBytes : Option UInt64
  swapUsedBytes : Option UInt64
  swapTotalBytes : Option UInt64
  diskUsedBytes : Option UInt64
  diskTotalBytes : Option UInt64
  diskMount : Option String
  networkReceivedBytesPerSecond : Option UInt64
  networkSentBytesPerSecond : Option UInt64
  uptimeSeconds : Option UInt64
  temperature : Option TrayTemperature
  rttMs : Option UInt64
  deriving DecidableEq, Repr

/-- The source's `TrayFleetSnapshot`. -/
structure TrayFleetSnapshot where
  daemon : String
  nodes : List TrayNodeSnapshot
  deriving DecidableEq, Repr

/-- A colour: red, green, blue and alpha. -/
structure TrayColor where
  red : UInt8
  green : UInt8
  blue : UInt8
  alpha : UInt8
  deriving DecidableEq, Repr

/-- The source's `TrayGauge`. -/
structure TrayGauge where
  text : String
  fillBasisPoints : Option UInt16
  deriving DecidableEq, Repr

/-- The source's `TraySection`. -/
structure TraySection where
  header : String
  color : TrayColor
  gauges : List TrayGauge
  link : String
  deriving DecidableEq, Repr

/-- The source's `TrayMachineMenu`. -/
structure TrayMachineMenu where
  title : String
  section_ : TraySection
  deriving DecidableEq, Repr

namespace Tray

/-! ## States -/

/-- The source's `machine_tray_id`. -/
def machineTrayId (node : TrayNodeSnapshot) : String := "machine-" ++ node.id

/-- The source's `NEUTRAL_COLOR`. -/
def neutralColor : TrayColor := ⟨164, 173, 168, 255⟩

/-- The source's `tray_state_color`. -/
def stateColor (state : String) : Except String TrayColor :=
  if state = "healthy" then .ok ⟨84, 217, 139, 255⟩
  else if state = "warning" ∨ state = "degraded" then .ok ⟨230, 189, 89, 255⟩
  else if state = "stale" then .ok neutralColor
  else if state = "critical" ∨ state = "offline" ∨ state = "auth_error" ∨ state = "incompatible" ∨
      state = "daemon_unavailable" then .ok ⟨255, 111, 103, 255⟩
  else .error "Unknown fleet state for tray icon."

/-- The source's `tray_state_symbol`. -/
def stateSymbol (state : String) : String :=
  if state = "healthy" then "●"
  else if state = "warning" ∨ state = "degraded" then "▲"
  else if state = "stale" then "◌"
  else if state = "critical" ∨ state = "offline" ∨ state = "auth_error" ∨ state = "incompatible"
    then "✕"
  else "?"

/-- The source's `tray_state_label`. -/
def stateLabel (state : String) : String :=
  if state = "healthy" then "Healthy"
  else if state = "warning" then "Warning"
  else if state = "stale" then "Stale"
  else if state = "critical" then "Critical"
  else if state = "offline" then "Offline"
  else if state = "auth_error" then "Authentication error"
  else if state = "incompatible" then "Incompatible agent"
  else if state = "daemon_unavailable" then "Agent unavailable"
  else "Degraded"

/-! ## Labels -/

/-- The source's `percentage_label`. -/
def percentageLabel (value : Option F64) : String := value.elim "—" fun v => v.format0 ++ "%"

/-- The source's `basis_points_label`. -/
def basisPointsLabel (basisPoints : Option UInt16) : String :=
  basisPoints.elim "—" fun points =>
    ((F64.ofInt points.toNat).div (F64.ofInt 100)).format0 ++ "%"

/-- The source's `memory_percentage_label`. -/
def memoryPercentageLabel (node : TrayNodeSnapshot) : String :=
  basisPointsLabel (ratioBasisPoints node.memoryUsedBytes node.memoryTotalBytes)

/-- The source's `disk_percentage_label`. -/
def diskPercentageLabel (node : TrayNodeSnapshot) : String :=
  basisPointsLabel (ratioBasisPoints node.diskUsedBytes node.diskTotalBytes)

/-- The source's `swap_percentage_label`. -/
def swapPercentageLabel (node : TrayNodeSnapshot) : String :=
  basisPointsLabel (ratioBasisPoints node.swapUsedBytes node.swapTotalBytes)

/-- The source's `rate_label`. -/
def rateLabel (bytesPerSecond : Option UInt64) : String :=
  bytesPerSecond.elim "—" fun rate => byteLabel rate ++ "/s"

/-- The source's `network_label`. -/
def networkLabel (node : TrayNodeSnapshot) : String :=
  match node.networkReceivedBytesPerSecond, node.networkSentBytesPerSecond with
  | none, none => "—"
  | received, sent => "↓" ++ rateLabel received ++ " ↑" ++ rateLabel sent

/-- The source's `uptime_label`. -/
def uptimeLabel (seconds : Option UInt64) : String :=
  seconds.elim "—" fun seconds =>
    let days := seconds / 86400
    let hours := seconds % 86400 / 3600
    let minutes := seconds % 3600 / 60
    if 0 < days then toString days ++ "d " ++ toString hours ++ "h"
    else if 0 < hours then toString hours ++ "h " ++ toString minutes ++ "m"
    else if 0 < minutes then toString minutes ++ "m " ++ toString (seconds % 60) ++ "s"
    else toString seconds ++ "s"

/-- The source's `known_path_label`. -/
def knownPathLabel (path : String) : Option String :=
  if path = "lan_direct" then some "LAN direct"
  else if path = "wan_direct" then some "WAN direct"
  else if path = "relayed" then some "Relayed"
  else none

/-- The source's `link_label`. -/
def linkLabel (node : TrayNodeSnapshot) : String :=
  let parts := (knownPathLabel node.path).toList ++
    (node.rttMs.map fun rtt => "RTT " ++ toString rtt ++ " ms").toList
  if parts = [] then "—" else String.intercalate " · " parts

/-! ## Gauges -/

/-- The source's `swap_gauge`. -/
def swapGauge (node : TrayNodeSnapshot) : TrayGauge where
  text :=
    match node.swapUsedBytes, node.swapTotalBytes with
    | used, some total =>
      if total = 0 then "Swap none"
      else if used.isSome then "Swap " ++ swapPercentageLabel node
      else "Swap —"
    | _, none => "Swap —"
  fillBasisPoints := ratioBasisPoints node.swapUsedBytes node.swapTotalBytes

/-- The source's `temperature_gauge`. -/
def temperatureGauge (node : TrayNodeSnapshot) : TrayGauge :=
  node.temperature.elim ⟨"Temperature —", none⟩ fun temperature =>
    ⟨"Temperature " ++ temperature.celsius.format0 ++ " °C " ++ temperature.label,
      some (scaleBasisPoints temperature.celsius)⟩

/-- The text of the disk gauge, with the mount point when there is one. -/
def diskText (node : TrayNodeSnapshot) : String :=
  match node.diskMount with
  | some mount => "Disk " ++ diskPercentageLabel node ++ " " ++ mount
  | none => "Disk " ++ diskPercentageLabel node

/-- The gauges of `tray_machine_menu`. -/
def machineGauges (node : TrayNodeSnapshot) : List TrayGauge :=
  [⟨"CPU " ++ percentageLabel node.cpuPercent, node.cpuPercent.map scaleBasisPoints⟩,
    ⟨"Memory " ++ memoryPercentageLabel node,
      ratioBasisPoints node.memoryUsedBytes node.memoryTotalBytes⟩,
    swapGauge node,
    ⟨diskText node, ratioBasisPoints node.diskUsedBytes node.diskTotalBytes⟩,
    temperatureGauge node,
    ⟨"Net " ++ networkLabel node, none⟩,
    ⟨"Uptime " ++ uptimeLabel node.uptimeSeconds, none⟩]

/-- The source's `tray_machine_menu`. -/
def machineMenu (node : TrayNodeSnapshot) : TrayMachineMenu where
  title := node.name ++ " · " ++ stateLabel node.state ++ " · CPU " ++
    percentageLabel node.cpuPercent ++ " · Memory " ++ memoryPercentageLabel node
  section_ :=
    { header := stateSymbol node.state ++ " " ++ node.name ++ " — " ++ stateLabel node.state
      color := match stateColor node.state with
        | .ok color => color
        | .error _ => neutralColor
      gauges := machineGauges node
      link := linkLabel node }

/-- The source's `tray_node_status`. -/
def nodeStatus (node : TrayNodeSnapshot) : String :=
  node.trayLabel ++ " " ++ stateSymbol node.state

/-- The source's `fleet_tray_sections`. -/
def fleetSections (nodes : List TrayNodeSnapshot) : List TraySection :=
  nodes.map fun node => (machineMenu node).section_

/-- The source's `status_section`. -/
def statusSection (message : String) : TraySection where
  header := message
  color := neutralColor
  gauges := [⟨"CPU —", none⟩, ⟨"Memory —", none⟩, ⟨"Disk —", none⟩, ⟨"Temperature —", none⟩]
  link := "—"

/-- Every machine has seven gauges. -/
@[simp] theorem length_gauges (node : TrayNodeSnapshot) :
    (machineMenu node).section_.gauges.length = 7 := rfl

/-- A message has four. -/
@[simp] theorem length_gauges_status (message : String) :
    (statusSection message).gauges.length = 4 := rfl

end Tray

end Rackio
