import Rackio.Runtime.LocalIpc
import Rackio.Lib.Run

/-!
# Configuration commands served at once

Each local connection runs in a task of its own, so the steps of several commands interleave. A
changing command reads the file once (`load_config`) and replaces it once (`save_config`); a
threshold command then publishes its rules. `LocalCommand.load` and `Pending.finish` are the parts
of a handler before and after the save, and `handleLocal_eq` puts a handler together from them.

Nothing keeps another command from saving between the load and the save of one, and the save then
writes back what the other had changed. A run in which every save finds the fields its command does
not overwrite as the command loaded them is as good as running the commands one after the other, in
the order of their saves (`run_serial`).
-/

namespace Rackio

/-! ## The parts of a handler -/

/-- What a handler holds between its load and its answer. -/
structure Pending where
  /-- What `load_config` returned. -/
  base : AgentConfig
  /-- The configuration as edited, to be saved. -/
  config : AgentConfig
  /-- The rules a threshold command publishes after the save. -/
  effective : Option (List AlertRule)
  /-- The answer when nothing fails any more. -/
  answer : LocalResponse
  deriving DecidableEq, Repr

/-- A handler that fails answers with the reason and returns. -/
def refuse {α : Type} (x : Except String α) : Except LocalResponse α :=
  x.mapError LocalResponse.failure

/-- A step that does not fail goes on. -/
theorem refuse_eq_ok_iff {α : Type} {x : Except String α} {a : α} :
    refuse x = .ok a ↔ x = .ok a := by
  cases x with
  | error e => simp [refuse, Except.mapError]
  | ok b => simp [refuse, Except.mapError]

section
variable (host : Host)

/-- What `update_alerts` does between its load and its save. -/
def editAlerts (change : AgentConfig → AgentConfig) (base : AgentConfig) :
    Except LocalResponse Pending := do
  let config := change base
  let effective ← refuse config.alertRules
  return ⟨base, config, some effective, alertListing config⟩

/-- What `update_advertise_addresses` does between its load and its save. -/
def editAddresses (address : SocketAddr)
    (update : List SocketAddr → SocketAddr → Except String (List SocketAddr))
    (base : AgentConfig) : Except LocalResponse Pending := do
  let addresses ← refuse (update base.advertiseAddresses address)
  return ⟨base, { base with advertiseAddresses := addresses }, none,
    .success (.savedAddresses true true addresses)⟩

/-- What a handler does before it loads the file: its checks, and then the edit it will make. A
command that only reads answers instead of editing. -/
def LocalCommand.prepare :
    LocalCommand → Except LocalResponse (AgentConfig → Except LocalResponse Pending)
  | .bindPortSet bindPort => do
    refuse (validateBindPort bindPort)
    return fun base => .ok
      ⟨base, { base with bindPort := bindPort }, none, .success (.savedPort true true)⟩
  | .relaySet relayUrl caCertificate => do
    refuse (validateRelayUrl host relayUrl)
    refuse (validateRelayCaCertificate host relayUrl caCertificate)
    return fun base => .ok
      ⟨base, { base with relayUrl := relayUrl, relayCaCertificate := caCertificate }, none,
        .success (.savedRelay true true relayUrl caCertificate)⟩
  | .advertiseAddressAdd address => do
    let address ← refuse (parseAdvertiseAddress host address)
    return editAddresses address (addAdvertiseAddress host)
  | .advertiseAddressRemove address => do
    let address ← refuse (parseAdvertiseAddress host address)
    return editAddresses address (removeAdvertiseAddress host)
  | .advertiseAddressList =>
    return fun base => .error (.success (.addresses base.advertiseAddresses))
  | .alerts alert =>
    match alert.change? with
    | none => return fun base => .error (alertListing base)
    | some change => return editAlerts change

/-- A handler up to its save. -/
def LocalCommand.load (command : LocalCommand) (file : ConfigFile) :
    Except LocalResponse Pending := do
  let edit ← command.prepare host
  let base ← refuse (loadConfig file)
  edit base

/-- A handler after its save. -/
def Pending.finish (p : Pending) (d : Daemon) : Daemon × LocalResponse :=
  match p.effective with
  | none => (d, p.answer)
  | some rules =>
    match d.send rules with
    | none => (d, .failure samplerGone)
    | some d => (d, p.answer)

/-- A handler from its save on. -/
def conclude (outcome : Except String Unit) (d : Daemon) :
    Except LocalResponse Pending → Daemon × LocalResponse
  | .error response => (d, response)
  | .ok p =>
    match saveConfig outcome p.config with
    | .error error => (d, .failure error)
    | .ok file => p.finish { d with file }

/-- `update_advertise_addresses` is a load, a save and a finish. -/
theorem updateAdvertiseAddresses_eq (outcome : Except String Unit) (address : String)
    (update : List SocketAddr → SocketAddr → Except String (List SocketAddr)) (d : Daemon) :
    updateAdvertiseAddresses host outcome address update d = conclude outcome d (do
      let address ← refuse (parseAdvertiseAddress host address)
      let base ← refuse (loadConfig d.file)
      editAddresses address update base) := by
  unfold updateAdvertiseAddresses
  cases parseAdvertiseAddress host address with
  | error e => rfl
  | ok address =>
  cases loadConfig d.file with
  | error e => rfl
  | ok base =>
  simp only [bind, Except.bind, refuse, Except.mapError, pure, Except.pure, editAddresses]
  cases update base.advertiseAddresses address with
  | error e => rfl
  | ok addresses => cases outcome <;> rfl

/-- A handler is its load, its save and its finish. -/
theorem handleLocal_eq (outcome : Except String Unit) (command : LocalCommand) (d : Daemon) :
    handleLocal host outcome command d = conclude outcome d (command.load host d.file) := by
  cases command with
  | bindPortSet bindPort =>
    show setBindPort outcome bindPort d = _
    simp only [setBindPort, LocalCommand.load, LocalCommand.prepare]
    cases validateBindPort bindPort with
    | error e => rfl
    | ok _ =>
    cases loadConfig d.file with
    | error e => rfl
    | ok base => cases outcome <;> rfl
  | relaySet relayUrl caCertificate =>
    show setRelay host outcome relayUrl caCertificate d = _
    simp only [setRelay, LocalCommand.load, LocalCommand.prepare]
    cases validateRelayUrl host relayUrl with
    | error e => rfl
    | ok _ =>
    cases validateRelayCaCertificate host relayUrl caCertificate with
    | error e => rfl
    | ok _ =>
    cases loadConfig d.file with
    | error e => rfl
    | ok base => cases outcome <;> rfl
  | advertiseAddressAdd address | advertiseAddressRemove address =>
    simp only [handleLocal, updateAdvertiseAddresses_eq, LocalCommand.load, LocalCommand.prepare]
    cases parseAdvertiseAddress host address <;> rfl
  | advertiseAddressList =>
    simp only [handleLocal, LocalCommand.load, LocalCommand.prepare]
    cases loadConfig d.file <;> rfl
  | alerts alert =>
    show handleAlerts outcome alert d = _
    simp only [handleAlerts, LocalCommand.load, LocalCommand.prepare]
    cases alert.change? with
    | none => cases loadConfig d.file <;> rfl
    | some change =>
    show updateAlerts outcome change d = _
    unfold updateAlerts
    cases loadConfig d.file with
    | error e => rfl
    | ok base =>
    simp only [bind, Except.bind, refuse, Except.mapError, pure, Except.pure, editAlerts]
    cases (change base).alertRules with
    | error e => rfl
    | ok effective => cases outcome <;> rfl

/-- The configuration with those fields cleared that a command overwrites whatever they were. The
others it writes back as it loaded them, or edits. -/
def LocalCommand.kept (config : AgentConfig) : LocalCommand → AgentConfig
  | .bindPortSet _ => { config with bindPort := none }
  | .relaySet _ _ => { config with relayUrl := none, relayCaCertificate := none }
  | .alerts (.enabled _) => { config with alertsEnabled := true }
  | .alerts (.reset none) => { config with alerts := [] }
  | _ => config

/-- The file after a command that ran alone and whose save, if any, went through. -/
def LocalCommand.apply (command : LocalCommand) (file : ConfigFile) : ConfigFile :=
  match command.load host file with
  | .error _ => file
  | .ok p => .stored p.config

/-- A daemon serves one command, alone, and the file system takes its save. -/
def Daemon.serve (d : Daemon) (command : LocalCommand) : Daemon :=
  (handleLocal host (.ok ()) command d).1

end

section
variable {host : Host} {command : LocalCommand}

/-- A finish leaves the file as it is. -/
theorem Pending.finish_file (p : Pending) (d : Daemon) : (p.finish d).1.file = d.file := by
  unfold finish
  cases p.effective with
  | none => rfl
  | some rules =>
    simp only [Daemon.send]
    cases d.samplerAlive <;> rfl

/-- What serving a command does to the file. -/
theorem Daemon.serve_file (d : Daemon) :
    (d.serve host command).file = command.apply host d.file := by
  unfold Daemon.serve LocalCommand.apply
  rw [handleLocal_eq]
  cases command.load host d.file with
  | error response => rfl
  | ok p => exact p.finish_file _

/-- A handler's local variables are those of its edit of what it loaded. -/
theorem LocalCommand.load_eq_ok_iff {file : ConfigFile} {p : Pending} :
    command.load host file = .ok p ↔
      ∃ edit base, command.prepare host = .ok edit ∧ loadConfig file = .ok base ∧
        edit base = .ok p := by
  constructor
  · intro h
    obtain ⟨edit, hedit, h⟩ := Outcome.bind_eq_ok_iff.1 h
    obtain ⟨base, hbase, h⟩ := Outcome.bind_eq_ok_iff.1 h
    exact ⟨edit, base, hedit, refuse_eq_ok_iff.1 hbase, h⟩
  · rintro ⟨edit, base, hedit, hbase, h⟩
    exact Outcome.bind_eq_ok_iff.2
      ⟨edit, hedit, Outcome.bind_eq_ok_iff.2 ⟨base, refuse_eq_ok_iff.2 hbase, h⟩⟩

/-- A threshold command edits what it loaded by its change, if the rules that result are known. -/
theorem editAlerts_eq_ok_iff {change : AgentConfig → AgentConfig} {base : AgentConfig}
    {p : Pending} :
    editAlerts change base = .ok p ↔ ∃ effective, (change base).alertRules = .ok effective ∧
      p = ⟨base, change base, some effective, alertListing (change base)⟩ := by
  constructor
  · intro h
    obtain ⟨effective, hr, h⟩ := Outcome.bind_eq_ok_iff.1 h
    cases h
    exact ⟨effective, refuse_eq_ok_iff.1 hr, rfl⟩
  · rintro ⟨effective, hr, rfl⟩
    exact Outcome.bind_eq_ok_iff.2 ⟨effective, refuse_eq_ok_iff.2 hr, rfl⟩

/-- The commands that change the configuration. -/
def LocalCommand.Changing (command : LocalCommand) : Prop :=
  command ≠ .advertiseAddressList ∧ command ≠ .alerts .list

/-- The edits of the commands: what a command makes of the configuration it loaded depends on the
fields it does not overwrite. -/
inductive LocalCommand.Edits (command : LocalCommand) :
    (AgentConfig → Except LocalResponse Pending) → Prop
  | overwrite {write : AgentConfig → AgentConfig} {answer : LocalResponse}
      (congr : ∀ b c, command.kept b = command.kept c → write b = write c) :
      Edits command fun base => .ok ⟨base, write base, none, answer⟩
  | addresses {address : SocketAddr}
      {update : List SocketAddr → SocketAddr → Except String (List SocketAddr)}
      (kept : ∀ b, command.kept b = b) : Edits command (editAddresses address update)
  | alerts {change : AgentConfig → AgentConfig}
      (congr : ∀ b c, command.kept b = command.kept c → change b = change c) :
      Edits command (editAlerts change)
  | read {answer : AgentConfig → LocalResponse} (unchanging : ¬ command.Changing) :
      Edits command fun base => .error (answer base)

/-- The change of a threshold command depends on the fields it does not overwrite. -/
theorem AlertCommand.change_congr {alert : AlertCommand} {change : AgentConfig → AgentConfig}
    (hc : alert.change? = some change) (b c : AgentConfig)
    (hkept : (LocalCommand.alerts alert).kept b = (LocalCommand.alerts alert).kept c) :
    change b = change c := by
  cases alert with
  | enabled on =>
    cases hc
    exact congrArg (fun c : AgentConfig => { c with alertsEnabled := on }) hkept
  | reset id =>
    cases id with
    | none =>
      cases hc
      exact hkept
    | some id => exact congrArg change hkept
  | list | set | ruleEnabled => exact congrArg change hkept

/-- A command whose checks pass makes one of these edits. -/
theorem LocalCommand.edits_of_prepare {edit : AgentConfig → Except LocalResponse Pending}
    (h : command.prepare host = .ok edit) : command.Edits edit := by
  cases command with
  | bindPortSet bindPort =>
    obtain ⟨_, -, h⟩ := Outcome.bind_eq_ok_iff.1 h
    cases h
    refine .overwrite fun b c hkept => ?_
    exact congrArg (fun c : AgentConfig => { c with bindPort := bindPort }) hkept
  | relaySet relayUrl caCertificate =>
    obtain ⟨_, -, h⟩ := Outcome.bind_eq_ok_iff.1 h
    obtain ⟨_, -, h⟩ := Outcome.bind_eq_ok_iff.1 h
    cases h
    refine .overwrite fun b c hkept => ?_
    exact congrArg (fun c : AgentConfig =>
      { c with relayUrl := relayUrl, relayCaCertificate := caCertificate }) hkept
  | advertiseAddressAdd | advertiseAddressRemove =>
    obtain ⟨_, -, h⟩ := Outcome.bind_eq_ok_iff.1 h
    cases h
    exact .addresses fun b => rfl
  | advertiseAddressList =>
    cases h
    exact .read fun hc => hc.1 rfl
  | alerts alert =>
    unfold LocalCommand.prepare at h
    cases hc : alert.change? with
    | none =>
      simp only [hc] at h
      cases h
      have hlist := AlertCommand.change?_eq_none_iff.1 hc
      exact .read fun hchanging => hchanging.2 (congrArg LocalCommand.alerts hlist)
    | some change =>
      simp only [hc] at h
      cases h
      exact .alerts (AlertCommand.change_congr hc)

/-- An edit keeps what was loaded beside what it makes of it. -/
theorem LocalCommand.Edits.base {edit : AgentConfig → Except LocalResponse Pending}
    (h : command.Edits edit) {base : AgentConfig} {p : Pending} (hedit : edit base = .ok p) :
    p.base = base := by
  cases h with
  | overwrite =>
    cases hedit
    rfl
  | addresses =>
    obtain ⟨_, -, hedit⟩ := Outcome.bind_eq_ok_iff.1 hedit
    cases hedit
    rfl
  | alerts =>
    obtain ⟨effective, -, rfl⟩ := editAlerts_eq_ok_iff.1 hedit
    rfl
  | read => cases hedit

/-- Two configurations that agree outside the fields a command overwrites are edited to the same
configuration. -/
theorem LocalCommand.Edits.congr {edit : AgentConfig → Except LocalResponse Pending}
    (h : command.Edits edit) {base current : AgentConfig} {p : Pending} (hedit : edit base = .ok p)
    (hkept : command.kept current = command.kept base) :
    ∃ q, edit current = .ok q ∧ q.config = p.config := by
  cases h with
  | overwrite hwrite =>
    cases hedit
    exact ⟨_, rfl, hwrite current base hkept⟩
  | addresses hid =>
    rw [hid, hid] at hkept
    subst hkept
    exact ⟨p, hedit, rfl⟩
  | alerts hchange =>
    obtain ⟨effective, hr, rfl⟩ := editAlerts_eq_ok_iff.1 hedit
    have hsame := hchange current base hkept
    refine ⟨_, editAlerts_eq_ok_iff.2 ⟨effective, ?_, rfl⟩, hsame⟩
    rw [hsame]
    exact hr
  | read => cases hedit

/-- A step that fails makes the answer a failure. -/
theorem refuse_eq_error {α : Type} {x : Except String α} {response : LocalResponse}
    (h : refuse x = .error response) : response.ok = false := by
  cases x with
  | error e =>
    cases h
    rfl
  | ok a => cases h

/-- An edit of a changing command that fails makes the answer a failure. -/
theorem LocalCommand.Edits.error {edit : AgentConfig → Except LocalResponse Pending}
    (h : command.Edits edit) (hc : command.Changing) {base : AgentConfig}
    {response : LocalResponse} (hedit : edit base = .error response) : response.ok = false := by
  cases h with
  | overwrite => cases hedit
  | addresses | alerts =>
    obtain hedit | ⟨_, -, hedit⟩ := Outcome.bind_eq_error_iff.1 hedit
    · exact refuse_eq_error hedit
    · cases hedit
  | read hread => exact absurd hc hread

/-- A check that fails makes the answer a failure. -/
theorem LocalCommand.prepare_error {response : LocalResponse}
    (h : command.prepare host = .error response) : response.ok = false := by
  cases command with
  | bindPortSet | advertiseAddressAdd | advertiseAddressRemove =>
    obtain h | ⟨_, -, h⟩ := Outcome.bind_eq_error_iff.1 h
    · exact refuse_eq_error h
    · cases h
  | relaySet =>
    obtain h | ⟨_, -, h⟩ := Outcome.bind_eq_error_iff.1 h
    · exact refuse_eq_error h
    obtain h | ⟨_, -, h⟩ := Outcome.bind_eq_error_iff.1 h
    · exact refuse_eq_error h
    · cases h
  | advertiseAddressList => cases h
  | alerts alert =>
    unfold LocalCommand.prepare at h
    cases hc : alert.change? <;> simp only [hc] at h <;> cases h

/-- A changing command that answers before its save answers with a failure. -/
theorem LocalCommand.load_error {file : ConfigFile} {response : LocalResponse}
    (hc : command.Changing) (h : command.load host file = .error response) :
    response.ok = false := by
  obtain hprep | ⟨edit, hprep, h⟩ := Outcome.bind_eq_error_iff.1 h
  · exact LocalCommand.prepare_error hprep
  obtain hload | ⟨base, -, h⟩ := Outcome.bind_eq_error_iff.1 h
  · exact refuse_eq_error hload
  exact (LocalCommand.edits_of_prepare hprep).error hc h

end

/-! ## Several commands at once -/

/-- How far the handler of a command is. -/
inductive LocalPhase
  | accepted
  | loaded (p : Pending)
  | saved (p : Pending)
  | answered (response : LocalResponse)
  deriving DecidableEq, Repr

/-- A connection's task: the command it read and how far its handler is. -/
structure LocalTask where
  command : LocalCommand
  phase : LocalPhase
  deriving DecidableEq, Repr

/-- A daemon and the tasks it serves at once. -/
structure LocalServing where
  daemon : Daemon
  tasks : List LocalTask
  deriving DecidableEq, Repr

/-- A step of one task, which is given by its place in the list. The outcome of a save is how the
file system takes it. -/
inductive LocalTurn
  | load (task : Nat)
  | save (task : Nat) (outcome : Except String Unit)
  | finish (task : Nat)

/-- Every command is read, and none has begun. -/
def LocalServing.start (d : Daemon) (commands : List LocalCommand) : LocalServing :=
  ⟨d, commands.map (⟨·, .accepted⟩)⟩

/-- The tasks after one of them moved on. -/
def LocalServing.move (s : LocalServing) (i : Nat) (phase : LocalPhase) : LocalServing :=
  { s with tasks := s.tasks.modify i fun task => { task with phase } }

/-- One step of a task; `none` when the task is not there or not so far. -/
def LocalServing.step (host : Host) (s : LocalServing) : LocalTurn → Option LocalServing
  | .load i =>
    match s.tasks[i]? with
    | some ⟨command, .accepted⟩ =>
      match command.load host s.daemon.file with
      | .error response => some (s.move i (.answered response))
      | .ok p => some (s.move i (.loaded p))
    | _ => none
  | .save i outcome =>
    match s.tasks[i]? with
    | some ⟨_, .loaded p⟩ =>
      match saveConfig outcome p.config with
      | .error error => some (s.move i (.answered (.failure error)))
      | .ok file => some { s.move i (.saved p) with daemon := { s.daemon with file } }
    | _ => none
  | .finish i =>
    match s.tasks[i]? with
    | some ⟨_, .saved p⟩ =>
      some { s.move i (.answered (p.finish s.daemon).2) with daemon := (p.finish s.daemon).1 }
    | _ => none

/-- What a step can do. -/
inductive LocalServing.Moves (host : Host) (s : LocalServing) : LocalTurn → LocalServing → Prop
  | refused {i : Nat} {command : LocalCommand} {response : LocalResponse}
      (task : s.tasks[i]? = some ⟨command, .accepted⟩)
      (load : command.load host s.daemon.file = .error response) :
      Moves host s (.load i) (s.move i (.answered response))
  | loaded {i : Nat} {command : LocalCommand} {p : Pending}
      (task : s.tasks[i]? = some ⟨command, .accepted⟩)
      (load : command.load host s.daemon.file = .ok p) :
      Moves host s (.load i) (s.move i (.loaded p))
  | unsaved {i : Nat} {command : LocalCommand} {p : Pending} {error : String}
      (task : s.tasks[i]? = some ⟨command, .loaded p⟩) :
      Moves host s (.save i (.error error)) (s.move i (.answered (.failure error)))
  | saved {i : Nat} {command : LocalCommand} {p : Pending}
      (task : s.tasks[i]? = some ⟨command, .loaded p⟩) :
      Moves host s (.save i (.ok ()))
        { s.move i (.saved p) with daemon := { s.daemon with file := .stored p.config } }
  | finished {i : Nat} {command : LocalCommand} {p : Pending}
      (task : s.tasks[i]? = some ⟨command, .saved p⟩) :
      Moves host s (.finish i)
        { s.move i (.answered (p.finish s.daemon).2) with daemon := (p.finish s.daemon).1 }

/-- A step does one of these. -/
theorem LocalServing.moves_of_step {host : Host} {s t : LocalServing} {e : LocalTurn}
    (h : s.step host e = some t) : s.Moves host e t := by
  cases e with
  | load i =>
    simp only [step] at h
    split at h
    · next command htask =>
      split at h
      · next response hload =>
        cases h
        exact .refused htask hload
      · next p hload =>
        cases h
        exact .loaded htask hload
    · cases h
  | save i outcome =>
    simp only [step] at h
    split at h
    · next command p htask =>
      cases outcome with
      | error e =>
        cases h
        exact .unsaved htask
      | ok _ =>
        cases h
        exact .saved htask
    · cases h
  | finish i =>
    simp only [step] at h
    split at h
    · next command p htask =>
      cases h
      exact .finished htask
    · cases h

/-! ## What a run keeps track of -/

section
variable {host : Host} {s t : LocalServing} {i j : Nat} {phase : LocalPhase}

/-- A task that moved on is where it moved to. -/
theorem LocalServing.move_self {task : LocalTask} (h : s.tasks[i]? = some task) :
    (s.move i phase).tasks[i]? = some ⟨task.command, phase⟩ := by
  simp [move, h]

/-- The other tasks stay. -/
theorem LocalServing.move_ne (h : i ≠ j) : (s.move i phase).tasks[j]? = s.tasks[j]? := by
  simp [move, h]

/-- The tasks keep their commands. -/
theorem LocalServing.move_commands :
    (s.move i phase).tasks.map (·.command) = s.tasks.map (·.command) := by
  refine List.ext_getElem? fun j => ?_
  rw [List.getElem?_map, List.getElem?_map]
  rcases eq_or_ne i j with rfl | hne
  · cases h : s.tasks[i]? with
    | none => simp [move, h]
    | some task => rw [move_self h]; rfl
  · rw [move_ne hne]

end

/-- The place of the task whose save went through in a step, if there is one. -/
def LocalTurn.saved? : LocalTurn → Option Nat
  | .save i (.ok _) => some i
  | _ => none

/-- What is known of a task from how far it is; `saved` says that its save went through. -/
def LocalPhase.Fits (host : Host) (command : LocalCommand) (saved : Prop) : LocalPhase → Prop
  | .accepted => ¬ saved
  | .loaded p =>
    ¬ saved ∧ ∃ edit, command.prepare host = .ok edit ∧ edit p.base = .ok p
  | .saved _ => saved
  | .answered response => response.ok = true → command.Changing → saved

/-- The file after commands that ran one after the other. -/
def applyAll (host : Host) (commands : List LocalCommand) (file : ConfigFile) : ConfigFile :=
  commands.foldl (fun file command => command.apply host file) file

/-- The last command runs on the file the others leave. -/
theorem applyAll_snoc (host : Host) (commands : List LocalCommand) (command : LocalCommand)
    (file : ConfigFile) : applyAll host (commands ++ [command]) file =
      command.apply host (applyAll host commands file) := by
  simp [applyAll]

/-- What a run knows of its state: `saves` holds the places of the tasks whose save went through, in
the order of the saves, and the file is what the commands at these places make of the first file,
one after the other. -/
structure Tracks (host : Host) (commands : List LocalCommand) (file : ConfigFile)
    (saves : List Nat) (s : LocalServing) : Prop where
  served : s.tasks.map (·.command) = commands
  nodup : saves.Nodup
  place : ∀ i ∈ saves, i < commands.length
  task : ∀ (i : Nat) (task : LocalTask), s.tasks[i]? = some task →
    task.phase.Fits host task.command (i ∈ saves)
  serial : s.daemon.file = applyAll host (saves.filterMap (commands[·]?)) file

section
variable {host : Host} {commands : List LocalCommand} {file : ConfigFile} {saves : List Nat}
  {s t : LocalServing} {i : Nat} {phase : LocalPhase}

/-- The place of a task in the list is a place of a command. -/
theorem Tracks.getElem? (h : Tracks host commands file saves s) {task : LocalTask}
    (ht : s.tasks[i]? = some task) : commands[i]? = some task.command := by
  rw [← h.served, List.getElem?_map, ht]
  rfl

/-- A task that moves on without a save. -/
theorem Tracks.move (h : Tracks host commands file saves s) {task : LocalTask}
    (ht : s.tasks[i]? = some task) (hfits : phase.Fits host task.command (i ∈ saves))
    (daemon : Daemon) (hfile : daemon.file = s.daemon.file) :
    Tracks host commands file saves { s.move i phase with daemon } where
  served := LocalServing.move_commands.trans h.served
  nodup := h.nodup
  place := h.place
  task := by
    intro j task' hj
    rcases eq_or_ne i j with rfl | hne
    · rw [show _ = _ from LocalServing.move_self ht] at hj
      cases hj
      exact hfits
    · rw [show _ = _ from LocalServing.move_ne hne] at hj
      exact h.task j task' hj
  serial := hfile.trans h.serial

/-- What is known of a task is not changed by the save of another. -/
theorem LocalPhase.Fits.of_iff {command : LocalCommand} {p q : Prop} (hpq : p ↔ q)
    (h : phase.Fits host command p) : phase.Fits host command q := by
  rw [← propext hpq]
  exact h

/-- A task that saves, when the file it saves is what its command alone would leave. -/
theorem Tracks.save (h : Tracks host commands file saves s) {command : LocalCommand} {p : Pending}
    (ht : s.tasks[i]? = some ⟨command, .loaded p⟩)
    (hfile : command.apply host s.daemon.file = .stored p.config) :
    Tracks host commands file (saves ++ [i])
      { s.move i (.saved p) with daemon := { s.daemon with file := .stored p.config } } where
  served := LocalServing.move_commands.trans h.served
  nodup := by
    have hnew : i ∉ saves := (h.task i _ ht).1
    rw [List.nodup_append]
    refine ⟨h.nodup, List.nodup_singleton i, ?_⟩
    intro a ha b hb hab
    rw [List.mem_singleton] at hb
    subst hb
    subst hab
    exact hnew ha
  place := by
    intro j hj
    rcases List.mem_append.1 hj with hj | hj
    · exact h.place j hj
    · rw [List.mem_singleton] at hj
      subst hj
      exact (List.getElem?_eq_some_iff.1 (h.getElem? ht)).1
  task := by
    intro j task' hj
    rcases eq_or_ne i j with rfl | hne
    · rw [show _ = _ from LocalServing.move_self ht] at hj
      cases hj
      exact List.mem_append_right _ (.head _)
    · rw [show _ = _ from LocalServing.move_ne hne] at hj
      refine (h.task j task' hj).of_iff ?_
      rw [List.mem_append, List.mem_singleton]
      exact ⟨.inl, fun hor => hor.elim id fun heq => absurd heq.symm hne⟩
  serial := by
    show ConfigFile.stored p.config = _
    have hlast : [i].filterMap (commands[·]?) = [command] := by simp [h.getElem? ht]
    rw [List.filterMap_append, hlast, applyAll_snoc, ← h.serial, hfile]

end

/-! ## Saves that overwrite nothing -/

/-- A save finds every field its command does not overwrite as the command loaded it. -/
def LocalServing.fresh (s : LocalServing) : LocalTurn → Bool
  | .save i (.ok _) =>
    match s.tasks[i]? with
    | some ⟨command, .loaded p⟩ =>
      match loadConfig s.daemon.file with
      | .ok current => command.kept current = command.kept p.base
      | .error _ => false
    | _ => true
  | _ => true

/-- The steps of a daemon in which no save writes back what another command changed. -/
abbrev FreshStep (host : Host) : LocalServing → LocalTurn → LocalServing → Prop :=
  Lts.Guarded (fun s e => s.fresh e = true) (Lts.Fires (LocalServing.step host))

section
variable {host : Host} {commands : List LocalCommand} {file : ConfigFile} {saves : List Nat}
  {s t : LocalServing} {e : LocalTurn}

/-- A save that overwrites nothing leaves the file its command alone would leave. -/
theorem LocalServing.apply_of_fresh {i : Nat} {command : LocalCommand} {p : Pending}
    {edit : AgentConfig → Except LocalResponse Pending}
    (ht : s.tasks[i]? = some ⟨command, .loaded p⟩) (hprep : command.prepare host = .ok edit)
    (hedit : edit p.base = .ok p) (hfresh : s.fresh (.save i (.ok ())) = true) :
    command.apply host s.daemon.file = .stored p.config := by
  simp only [fresh, ht] at hfresh
  cases hload : loadConfig s.daemon.file with
  | error e =>
    rw [hload] at hfresh
    cases hfresh
  | ok current =>
    rw [hload] at hfresh
    obtain ⟨q, hq, hconfig⟩ :=
      (LocalCommand.edits_of_prepare hprep).congr hedit (of_decide_eq_true hfresh)
    have hloaded : command.load host s.daemon.file = .ok q :=
      LocalCommand.load_eq_ok_iff.2 ⟨edit, current, hprep, hload, hq⟩
    rw [LocalCommand.apply, hloaded, ← hconfig]

/-- One step keeps track. -/
theorem Tracks.step (h : Tracks host commands file saves s) (hstep : FreshStep host s e t) :
    Tracks host commands file (saves ++ e.saved?.toList) t := by
  obtain ⟨hfresh, hfires⟩ := hstep
  cases LocalServing.moves_of_step hfires with
  | refused ht hload =>
    show Tracks host commands file (saves ++ []) _
    rw [List.append_nil]
    refine h.move ht ?_ s.daemon rfl
    intro hok hc
    rw [LocalCommand.load_error hc hload] at hok
    cases hok
  | @loaded i command p ht hload =>
    show Tracks host commands file (saves ++ []) _
    rw [List.append_nil]
    obtain ⟨edit, base, hprep, -, hedit⟩ := LocalCommand.load_eq_ok_iff.1 hload
    have hbase : p.base = base := (LocalCommand.edits_of_prepare hprep).base hedit
    subst hbase
    refine h.move ht ?_ s.daemon rfl
    exact ⟨h.task i _ ht, edit, hprep, hedit⟩
  | unsaved ht =>
    show Tracks host commands file (saves ++ []) _
    rw [List.append_nil]
    refine h.move ht ?_ s.daemon rfl
    intro hok
    cases hok
  | @saved i command p ht =>
    obtain ⟨-, edit, hprep, hedit⟩ := h.task i _ ht
    exact h.save ht (LocalServing.apply_of_fresh ht hprep hedit hfresh)
  | @finished i command p ht =>
    show Tracks host commands file (saves ++ []) _
    rw [List.append_nil]
    refine h.move ht ?_ _ (p.finish_file s.daemon)
    intro _ _
    exact h.task i _ ht

/-- Before the first step nothing is saved. -/
theorem Tracks.start (d : Daemon) : Tracks host commands d.file [] (.start d commands) where
  served := by
    rw [LocalServing.start, List.map_map]
    exact List.map_id commands
  nodup := List.nodup_nil
  place := fun i hi => absurd hi List.not_mem_nil
  task := by
    intro i task hi
    rw [LocalServing.start, List.getElem?_map, Option.map_eq_some_iff] at hi
    obtain ⟨command, -, rfl⟩ := hi
    exact List.not_mem_nil
  serial := rfl

/-- A run in which no save overwrites the change of another command leaves the file that the saved
commands leave when they run one after the other, in the order of their saves. -/
theorem run_serial {d : Daemon} {es : List LocalTurn}
    (h : Lts.Run (FreshStep host) (.start d commands) es t) :
    Tracks host commands d.file (es.filterMap LocalTurn.saved?) t := by
  refine h.history (I := fun es t => Tracks host commands d.file (es.filterMap LocalTurn.saved?) t)
    (Tracks.start d) ?_
  intro es s e t _ ih hstep
  have hlast : [e].filterMap LocalTurn.saved? = e.saved?.toList := by
    cases h : e.saved? <;> simp [h]
  rw [List.filterMap_append, hlast]
  exact ih.step hstep

/-- Every command has been answered, and with success. -/
def LocalServing.Succeeded (s : LocalServing) : Prop :=
  ∀ task ∈ s.tasks, ∃ response, task.phase = .answered response ∧ response.ok = true

/-- The commands at all places of a list, in order, are the list. -/
theorem filterMap_range_getElem? {α : Type} (l : List α) :
    (List.range l.length).filterMap (l[·]?) = l := by
  induction l with
  | nil => rfl
  | cons x l ih =>
    rw [List.length_cons, List.range_succ_eq_map, List.filterMap_cons, List.filterMap_map]
    exact congrArg (x :: ·) ih

/-- When every command changes the configuration and succeeded, each has saved once. -/
theorem Tracks.perm (h : Tracks host commands file saves s) (hc : ∀ c ∈ commands, c.Changing)
    (hs : s.Succeeded) : (saves.filterMap (commands[·]?)).Perm commands := by
  have hall : saves.Perm (List.range commands.length) := by
    refine (List.perm_ext_iff_of_nodup h.nodup List.nodup_range).2 fun i => ?_
    rw [List.mem_range]
    refine ⟨h.place i, fun hi => ?_⟩
    have hlen : i < s.tasks.length := by
      rw [← h.served, List.length_map] at hi
      exact hi
    have ht : s.tasks[i]? = some s.tasks[i] := List.getElem?_eq_getElem hlen
    obtain ⟨response, hphase, hok⟩ := hs _ (List.getElem_mem hlen)
    have hfits := h.task i _ ht
    rw [hphase] at hfits
    exact hfits hok (hc _ (List.mem_of_getElem? (h.getElem? ht)))
  have hperm := hall.filterMap (commands[·]?)
  rw [filterMap_range_getElem?] at hperm
  exact hperm

end

/-- Two commands that are served at once and both succeed leave the configuration that running one
after the other leaves, if every save finds the fields that its command does not overwrite as the
command loaded them. -/
theorem updates_kept {host : Host} {d : Daemon} {a b : LocalCommand} {es : List LocalTurn}
    {t : LocalServing} (ha : a.Changing) (hb : b.Changing)
    (hrun : Lts.Run (FreshStep host) (.start d [a, b]) es t) (hok : t.Succeeded) :
    t.daemon.file = ((d.serve host a).serve host b).file ∨
      t.daemon.file = ((d.serve host b).serve host a).file := by
  have htracks := run_serial hrun
  have hperm := htracks.perm (by simp [ha, hb]) hok
  rw [htracks.serial, Daemon.serve_file, Daemon.serve_file, Daemon.serve_file, Daemon.serve_file]
  rcases List.perm_pair.1 hperm with horder | horder
  · rw [horder]
    exact .inl rfl
  · rw [horder]
    exact .inr rfl

/-- A machine whose relay URL is the one of the source's tests, and which has no certificate. -/
def relayHost : Host where
  relayUrlParses url := url = "https://relay.example.test"
  checkRelayCa path := .error path
  parseSocketAddr _ := none
  showSocketAddr _ := ""

/-- The command that fixes the listen port. -/
def portCommand : LocalCommand := .bindPortSet (some 41641)

/-- The command that sets the relay. -/
def relayCommand : LocalCommand := .relaySet (some "https://relay.example.test") none

/-- Both commands are answered with success, and the file holds `config`. -/
def bothAnswered (config : AgentConfig) : LocalServing :=
  ⟨{ freshDaemon with file := .stored config },
    [⟨portCommand, .answered (.success (.savedPort true true))⟩,
      ⟨relayCommand,
        .answered (.success (.savedRelay true true (some "https://relay.example.test") none))⟩]⟩

/-- Both commands succeeded. -/
theorem bothAnswered_succeeded (config : AgentConfig) : (bothAnswered config).Succeeded := by
  intro task htask
  simp only [bothAnswered, List.mem_cons, List.not_mem_nil, or_false] at htask
  rcases htask with rfl | rfl
  · exact ⟨_, rfl, rfl⟩
  · exact ⟨_, rfl, rfl⟩

/-- The relay is set after the port was saved, while the port command is not answered yet. -/
def orderlyTurns : List LocalTurn :=
  [.load 0, .save 0 (.ok ()), .load 1, .finish 0, .save 1 (.ok ()), .finish 1]

/-- The relay command loads before the port command saves. -/
def racingTurns : List LocalTurn :=
  [.load 0, .load 1, .save 0 (.ok ()), .save 1 (.ok ()), .finish 0, .finish 1]

/-- A port and a relay that are set in an orderly way are both kept. -/
theorem updates_kept_orderly : ∃ t, portCommand.Changing ∧ relayCommand.Changing ∧
    Lts.Run (FreshStep relayHost) (.start freshDaemon [portCommand, relayCommand])
      orderlyTurns t ∧ t.Succeeded ∧
    (t.daemon.file = ((freshDaemon.serve relayHost portCommand).serve relayHost relayCommand).file ∨
      t.daemon.file =
        ((freshDaemon.serve relayHost relayCommand).serve relayHost portCommand).file) := by
  have ha : portCommand.Changing := by constructor <;> decide
  have hb : relayCommand.Changing := by constructor <;> decide
  have hrun : Lts.Run (FreshStep relayHost) (.start freshDaemon [portCommand, relayCommand])
      orderlyTurns (bothAnswered { AgentConfig.default with
        relayUrl := some "https://relay.example.test", bindPort := some 41641 }) :=
    Lts.run_of_execGuarded rfl
  have hok := bothAnswered_succeeded { AgentConfig.default with
    relayUrl := some "https://relay.example.test", bindPort := some 41641 }
  exact ⟨_, ha, hb, hrun, hok, updates_kept ha hb hrun hok⟩

/-- A port that is saved between the load and the save of a relay is lost, though both commands
succeed: the file is not the one that either order leaves. -/
theorem update_lost : ∃ t, portCommand.Changing ∧ relayCommand.Changing ∧
    Lts.Run (Lts.Fires (LocalServing.step relayHost))
      (.start freshDaemon [portCommand, relayCommand]) racingTurns t ∧ t.Succeeded ∧
    t.daemon.file ≠ ((freshDaemon.serve relayHost portCommand).serve relayHost relayCommand).file ∧
    t.daemon.file ≠
      ((freshDaemon.serve relayHost relayCommand).serve relayHost portCommand).file := by
  have ha : portCommand.Changing := by constructor <;> decide
  have hb : relayCommand.Changing := by constructor <;> decide
  have hrun : Lts.Run (Lts.Fires (LocalServing.step relayHost))
      (.start freshDaemon [portCommand, relayCommand]) racingTurns
      (bothAnswered { AgentConfig.default with relayUrl := some "https://relay.example.test" }) :=
    Lts.run_of_exec rfl
  exact ⟨_, ha, hb, hrun, bothAnswered_succeeded _, by decide, by decide⟩

end Rackio
