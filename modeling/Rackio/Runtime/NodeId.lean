import Rackio.Core.Uuid
import Rackio.Iroh.Identity

/-!
# The node id of the daemon

`load_or_create_node_id` of `apps/agent/src/runtime/config.rs`, called by any number of starts on
one path. It reads the file; where there is none it draws an id and calls `fs::write`, which opens
the path, truncates whatever it finds there, and then fills it. Nothing makes the check and the
write one step, so two starts may end with two ids, and a start that dies between the two halves of
the write leaves an empty file (`nodeId_diverges`).

`Exclusive` is the condition on the steps under which neither happens: a start opens the path only
while it is still missing, and none dies or fails between opening and filling it. In every such run
the file is missing, or one start is filling it, or it holds the id that every start returns
(`Inv`).
-/

namespace Rackio

open Lts

/-! ## Trimming -/

/-- The characters with the Unicode property `White_Space`. -/
def isWhitespace (c : Char) : Bool :=
  decide (0x9 ≤ c.toNat ∧ c.toNat ≤ 0xD ∨ 0x2000 ≤ c.toNat ∧ c.toNat ≤ 0x200A ∨
    c.toNat ∈ [0x20, 0x85, 0xA0, 0x1680, 0x2028, 0x2029, 0x202F, 0x205F, 0x3000])

/-- The source's `str::trim`. -/
def trim (s : String) : String :=
  String.ofList ((s.toList.dropWhile isWhitespace).reverse.dropWhile isWhitespace).reverse

/-- A text without white space is trimmed to itself. -/
theorem trim_eq_self {s : String} (h : ∀ c ∈ s.toList, isWhitespace c = false) : trim s = s := by
  have hdrop : ∀ l : List Char, (∀ c ∈ l, isWhitespace c = false) →
      l.dropWhile isWhitespace = l := by
    intro l hl
    cases l with
    | nil => rfl
    | cons c l => rw [List.dropWhile_cons_of_neg (by simp [hl c (.head _)])]
  unfold trim
  rw [hdrop _ h, hdrop _ (fun c hc => h c (List.mem_reverse.1 hc)), List.reverse_reverse,
    String.ofList_toList]

@[simp] theorem trim_empty : trim "" = "" := by decide

/-- A digit is no white space. -/
theorem isWhitespace_digitChar {d : Nat} (h : d < 16) : isWhitespace (Nat.digitChar d) = false := by
  decide +revert

/-- The text of a node id has nothing to trim. -/
theorem Uuid.trim_toString (u : Uuid) : trim u.toString = u.toString := by
  refine trim_eq_self fun c hc => ?_
  by_cases hhyphen : c = '-'
  · rw [hhyphen]
    decide
  · have hmem : c ∈ u.toString.toList.filter (· ≠ '-') :=
      List.mem_filter.2 ⟨hc, decide_eq_true hhyphen⟩
    rw [Uuid.filter_toString] at hmem
    obtain ⟨d, hd, rfl⟩ := List.mem_map.1 hmem
    exact isWhitespace_digitChar (hexDigits_lt hd)

namespace NodeId

/-! ## The calls -/

/-- What is at the path of the id: nothing, or a file with its text. -/
abbrev NodeIdFile : Type := Option String

/-- Why a start has no id: an access failed, or the file holds another text. -/
inductive NodeIdError
  | io (error : FileError)
  | invalid (text : String)
  deriving DecidableEq, Repr

/-- What `fs::read_to_string` may answer. -/
inductive Reads : NodeIdFile → Except FileError String → Prop
  | content (text : String) : Reads (some text) (.ok text)
  | absent (detail : String) : Reads none (.error ⟨.notFound, detail⟩)
  | failed (file : NodeIdFile) (error : FileError) (h : error.kind ≠ .notFound) :
      Reads file (.error error)

/-- The text of a file after the first `n` characters of `text` were written at its start. -/
def overwritten (n : Nat) (text : String) (file : NodeIdFile) : String :=
  String.ofList (text.toList.take n ++ (file.getD "").toList.drop n)

/-- Where a `load_or_create_node_id` call is. -/
inductive Phase
  | reading
  /-- No file was found, and an id is drawn. -/
  | drawn (nodeId : Uuid)
  /-- `fs::write` has opened and truncated the file. -/
  | opened (nodeId : Uuid)
  | returned (result : Except NodeIdError Uuid)
  | crashed

/-- The `match` of `load_or_create_node_id`, with `Uuid::parse_str` as `parse`. -/
def loaded (parse : String → Option Uuid) (fresh : Uuid) : Except FileError String → Phase
  | .ok text =>
    match parse (trim text) with
    | some nodeId => .returned (.ok nodeId)
    | none => .returned (.error (.invalid text))
  | .error error =>
    if error.kind = .notFound then .drawn fresh else .returned (.error (.io error))

/-- What a call does, with what the file system answers. -/
inductive Label
  | read (outcome : Except FileError String) (fresh : Uuid)
  | create (outcome : Except FileError Unit)
  | write (outcome : Except FileError Unit)
  | crash

/-- The steps of a call. -/
inductive Act (parse : String → Option Uuid) (file : NodeIdFile) :
    Phase → Label → NodeIdFile → Phase → Prop
  | read {outcome : Except FileError String} (fresh : Uuid) (h : Reads file outcome) :
      Act parse file .reading (.read outcome fresh) file (loaded parse fresh outcome)
  | create (nodeId : Uuid) :
      Act parse file (.drawn nodeId) (.create (.ok ())) (some "") (.opened nodeId)
  | createFailed (nodeId : Uuid) (error : FileError) :
      Act parse file (.drawn nodeId) (.create (.error error)) file (.returned (.error (.io error)))
  | write (nodeId : Uuid) :
      Act parse file (.opened nodeId) (.write (.ok ()))
        (some (overwritten nodeId.toString.toList.length nodeId.toString file))
        (.returned (.ok nodeId))
  | writeFailed (nodeId : Uuid) (n : Nat) (error : FileError) :
      Act parse file (.opened nodeId) (.write (.error error))
        (some (overwritten n nodeId.toString file)) (.returned (.error (.io error)))
  | crash {p : Phase} (h : ∀ result, p ≠ .returned result) : Act parse file p .crash file .crashed

/-- The source's `load_or_create_node_id`. -/
def loadOrCreateNodeId (parse : String → Option Uuid) : Shared.Program NodeIdFile Phase Label where
  Enter p := p = .reading
  Act := Act parse

/-- The condition on the steps: a call opens the path only while it is still missing, and none
crashes or fails between opening and filling it. -/
def Exclusive (file : NodeIdFile) (p : Phase) : Label → Prop
  | .create (.ok ()) => file = none
  | .write (.error _) | .crash => ∀ nodeId, p ≠ .opened nodeId
  | _ => True

/-- The calls whose steps meet the condition. -/
def exclusive (parse : String → Option Uuid) : Shared.Program NodeIdFile Phase Label :=
  (loadOrCreateNodeId parse).guard Exclusive

/-- The call `i` has returned `result`. -/
def Returns (s : Shared NodeIdFile Phase) (i : Nat) (result : Except NodeIdError Uuid) : Prop :=
  s.calls.find i = some (.returned result)

/-- The file holds an id. -/
def HoldsId (parse : String → Option Uuid) (file : NodeIdFile) (nodeId : Uuid) : Prop :=
  ∃ text, file = some text ∧ parse (trim text) = some nodeId

/-! ## The invariant -/

/-- A call that neither fills the file nor has returned an id. -/
def Phase.Idle (p : Phase) : Prop :=
  (∀ nodeId, p ≠ .opened nodeId) ∧ ∀ nodeId, p ≠ .returned (.ok nodeId)

/-- A call that does not fill the file, and has returned no other id. -/
def Phase.Agrees (nodeId : Uuid) (p : Phase) : Prop :=
  (∀ nodeId', p ≠ .opened nodeId') ∧ ∀ nodeId', p = .returned (.ok nodeId') → nodeId' = nodeId

/-- The file is missing, or one call is filling it, or it holds the id of every call that has
returned one. -/
inductive Inv (parse : String → Option Uuid) (s : Shared NodeIdFile Phase) : Prop
  | missing (hfile : s.cell = none) (hcalls : ∀ i p, s.calls.find i = some p → p.Idle)
  | filling {k : Nat} {nodeId : Uuid} (hfile : s.cell = some "")
      (hk : s.calls.find k = some (.opened nodeId))
      (hcalls : ∀ i p, s.calls.find i = some p → i ≠ k → p.Idle)
  | settled {nodeId : Uuid} (hfile : HoldsId parse s.cell nodeId)
      (hcalls : ∀ i p, s.calls.find i = some p → p.Agrees nodeId)

section
variable {parse : String → Option Uuid} {s t : Shared NodeIdFile Phase} {file : NodeIdFile}
  {es : List (Shared.Event Label)}

theorem Phase.Idle.agrees {p : Phase} (h : p.Idle) (nodeId : Uuid) : p.Agrees nodeId :=
  ⟨h.1, fun nodeId' hp => absurd hp (h.2 nodeId')⟩

/-- A call that does not fill the file may go on to any phase that is idle. -/
theorem Inv.idle (h : Inv parse s) {i : Nat} {p : Phase}
    (hi : ∀ nodeId, s.calls.find i ≠ some (.opened nodeId)) (hp : p.Idle) :
    Inv parse ⟨s.cell, s.calls.insert i p⟩ := by
  cases h with
  | missing hfile hcalls => exact .missing hfile (Table.forall_insert hcalls hp)
  | @filling k nodeId hfile hk hcalls =>
    have hne : k ≠ i := by
      rintro rfl
      exact hi nodeId hk
    have hk' : (s.calls.insert i p).find k = some (.opened nodeId) := by
      rw [Table.find_insert, if_neg hne]
      exact hk
    exact .filling hfile hk' (Table.forall_insert hcalls fun _ => hp)
  | @settled nodeId hfile hcalls =>
    exact .settled hfile (Table.forall_insert hcalls (hp.agrees nodeId))

/-- A text is written over an empty file. -/
theorem overwritten_empty (text : String) :
    overwritten text.toList.length text (some "") = text := by
  simp only [overwritten, List.take_length, Option.getD_some, String.toList_empty, List.drop_nil,
    List.append_nil, String.ofList_toList]

/-- A file that was just filled holds its id. -/
theorem holdsId_toString (hparse : ParsesUuid parse) (nodeId : Uuid) :
    HoldsId parse (some nodeId.toString) nodeId :=
  ⟨_, rfl, by rw [Uuid.trim_toString, hparse]⟩

/-- A read that finds no id in the file, and a file to be found, gives none. -/
theorem idle_loaded {fresh : Uuid} {outcome : Except FileError String} (h : Reads file outcome)
    (hfile : ∀ nodeId, ¬ HoldsId parse file nodeId) : (loaded parse fresh outcome).Idle := by
  cases h with
  | content text =>
    have hnone : parse (trim text) = none := by
      cases hp : parse (trim text) with
      | none => rfl
      | some nodeId => exact absurd ⟨text, rfl, hp⟩ (hfile nodeId)
    simp [loaded, hnone, Phase.Idle]
  | absent detail => simp [loaded, Phase.Idle]
  | failed file error hkind => simp [loaded, hkind, Phase.Idle]

/-- A read of a file with an id gives the id, or fails. -/
theorem agrees_loaded {fresh nodeId : Uuid} {outcome : Except FileError String}
    (h : Reads file outcome) (hfile : HoldsId parse file nodeId) :
    (loaded parse fresh outcome).Agrees nodeId := by
  obtain ⟨text, rfl, hparse⟩ := hfile
  cases h with
  | content text => simp [loaded, hparse, Phase.Agrees, eq_comm]
  | failed file error hkind => simp [loaded, hkind, Phase.Agrees]

/-- While the file is missing, every call is idle. -/
theorem Inv.of_missing (h : Inv parse s) (hfile : s.cell = none) :
    ∀ i p, s.calls.find i = some p → p.Idle := by
  cases h with
  | missing _ hcalls => exact hcalls
  | filling hfile' =>
    rw [hfile] at hfile'
    cases hfile'
  | settled hfile' =>
    obtain ⟨text, htext, -⟩ := hfile'
    rw [hfile] at htext
    cases htext

/-- Once the file holds an id, every call agrees with it. -/
theorem Inv.of_holdsId (hempty : parse "" = none) (h : Inv parse s) {nodeId : Uuid}
    (hfile : HoldsId parse s.cell nodeId) : ∀ i p, s.calls.find i = some p → p.Agrees nodeId := by
  obtain ⟨text, htext, hid⟩ := hfile
  cases h with
  | missing hfile' =>
    rw [htext] at hfile'
    cases hfile'
  | filling hfile' =>
    rw [htext] at hfile'
    cases hfile'
    rw [trim_empty, hempty] at hid
    cases hid
  | settled hfile' hcalls =>
    obtain ⟨text', htext', hid'⟩ := hfile'
    rw [htext] at htext'
    cases htext'
    rw [hid] at hid'
    cases hid'
    exact hcalls

/-- While a call fills the file, the file is empty and every other call is idle. -/
theorem Inv.of_opened (h : Inv parse s) {i : Nat} {nodeId : Uuid}
    (hi : s.calls.find i = some (.opened nodeId)) :
    s.cell = some "" ∧ ∀ j p, s.calls.find j = some p → j ≠ i → p.Idle := by
  cases h with
  | missing _ hcalls => exact absurd rfl ((hcalls i _ hi).1 nodeId)
  | @filling k _ hfile hk hcalls =>
    by_cases hik : i = k
    · exact ⟨hfile, hik ▸ hcalls⟩
    · exact absurd rfl ((hcalls i _ hi hik).1 nodeId)
  | settled _ hcalls => exact absurd rfl ((hcalls i _ hi).1 nodeId)

/-- Every step that meets the condition keeps the invariant. -/
theorem Inv.step (hparse : ParsesUuid parse) (hempty : parse "" = none) (h : Inv parse s)
    {e : Shared.Event Label} (hstep : Shared.Step (exclusive parse) s e t) : Inv parse t := by
  cases hstep with
  | enter hi hp =>
    cases hp
    refine h.idle (fun nodeId => by rw [hi]; exact nofun) ?_
    simp [Phase.Idle]
  | @act i p p' label cell hi hact =>
    obtain ⟨hguard, hact⟩ := hact
    have hnot : (∀ nodeId, p ≠ .opened nodeId) →
        ∀ nodeId, s.calls.find i ≠ some (.opened nodeId) := by
      intro hp nodeId
      rw [hi]
      exact fun heq => hp nodeId (Option.some.inj heq)
    cases hact with
    | @read outcome fresh hreads =>
      by_cases hid : ∃ nodeId, HoldsId parse s.cell nodeId
      · obtain ⟨nodeId, hid⟩ := hid
        exact .settled hid
          (Table.forall_insert (h.of_holdsId hempty hid) (agrees_loaded hreads hid))
      · exact h.idle (hnot nofun) (idle_loaded hreads (not_exists.1 hid))
    | create nodeId =>
      -- the condition: the file is still missing, so nobody is filling it and nobody has an id
      have hcalls := h.of_missing hguard
      have hfind : (s.calls.insert i (.opened nodeId)).find i = some (.opened nodeId) := by
        rw [Table.find_insert, if_pos rfl]
      refine .filling rfl hfind fun j q hj hne => ?_
      rw [Table.find_insert, if_neg hne] at hj
      exact hcalls j q hj
    | createFailed nodeId error =>
      exact h.idle (hnot nofun) (by simp [Phase.Idle])
    | write nodeId =>
      obtain ⟨hfile, hcalls⟩ := h.of_opened hi
      have hid : HoldsId parse
          (some (overwritten nodeId.toString.toList.length nodeId.toString s.cell)) nodeId := by
        rw [hfile, overwritten_empty]
        exact holdsId_toString hparse nodeId
      refine .settled hid fun j q hj => ?_
      rw [Table.find_insert] at hj
      split at hj
      · cases hj
        simp [Phase.Agrees, eq_comm]
      · next hne => exact (hcalls j q hj hne).agrees nodeId
    | writeFailed nodeId n error => exact absurd rfl (hguard nodeId)
    | crash hp => exact h.idle (hnot hguard) (by simp [Phase.Idle])

/-- A call that has returned an id returned what the file holds. -/
theorem Inv.holdsId_of_returned (h : Inv parse s) {i : Nat} {nodeId : Uuid}
    (hi : Returns s i (.ok nodeId)) : HoldsId parse s.cell nodeId := by
  cases h with
  | missing _ hcalls => exact absurd rfl ((hcalls i _ hi).2 nodeId)
  | @filling k _ hfile hk hcalls =>
    have hne : i ≠ k := by
      rintro rfl
      rw [Returns, hk] at hi
      cases hi
    exact absurd rfl ((hcalls i _ hi hne).2 nodeId)
  | settled hfile hcalls => exact (hcalls i _ hi).2 nodeId rfl ▸ hfile

/-- A file that holds an id is left alone. -/
theorem Inv.holdsId_step (hempty : parse "" = none) (h : Inv parse s) {nodeId : Uuid}
    (hfile : HoldsId parse s.cell nodeId) {e : Shared.Event Label}
    (hstep : Shared.Step (exclusive parse) s e t) : HoldsId parse t.cell nodeId := by
  cases hstep with
  | enter hi hp => exact hfile
  | @act i p p' label cell hi hact =>
    have hagrees := h.of_holdsId hempty hfile i p hi
    obtain ⟨hguard, hact⟩ := hact
    cases hact with
    | create drawn =>
      obtain ⟨text, htext, -⟩ := hfile
      rw [Exclusive] at hguard
      rw [hguard] at htext
      cases htext
    | write opened => exact absurd rfl (hagrees.1 opened)
    | writeFailed opened n error => exact absurd rfl (hagrees.1 opened)
    | _ => exact hfile

/-! ## The result -/

/-- No call is under way: each has returned or crashed. -/
def Quiet (s : Shared NodeIdFile Phase) : Prop :=
  ∀ i p, s.calls.find i = some p → p = .crashed ∨ ∃ result, p = .returned result

/-- Where no call is under way the file is missing or holds an id. -/
theorem Inv.of_quiet (h : Inv parse s) (hquiet : Quiet s) :
    s.cell = none ∨ ∃ nodeId, HoldsId parse s.cell nodeId := by
  cases h with
  | missing hfile _ => exact .inl hfile
  | filling _ hk _ =>
    rcases hquiet _ _ hk with hp | ⟨result, hp⟩
    · cases hp
    · cases hp
  | settled hfile _ => exact .inr ⟨_, hfile⟩

/-- A start alone gets an id where the file is missing or holds one. -/
theorem run_alone (hfile : file = none ∨ ∃ nodeId, HoldsId parse file nodeId) :
    ∃ labels file' nodeId, Run (exclusive parse).Alone (file, .reading) labels
      (file', .returned (.ok nodeId)) := by
  rcases hfile with rfl | ⟨nodeId, text, rfl, hid⟩
  · have hread : (exclusive parse).Alone (none, .reading)
        (.read (.error ⟨.notFound, ""⟩) default) (none, .drawn default) :=
      ⟨trivial, .read default (.absent "")⟩
    have hcreate : (exclusive parse).Alone (none, .drawn default) (.create (.ok ()))
        (some "", .opened default) := ⟨rfl, .create default⟩
    have hwrite : (exclusive parse).Alone (some "", .opened default) (.write (.ok ())) (_, _) :=
      ⟨trivial, .write default⟩
    exact ⟨_, _, default, run_cons_iff.2 ⟨_, hread, run_cons_iff.2 ⟨_, hcreate,
      run_cons_iff.2 ⟨_, hwrite, .nil⟩⟩⟩⟩
  · have hloaded : loaded parse default (.ok text) = .returned (.ok nodeId) := by
      simp [loaded, hid]
    have hread : Act parse (some text) .reading (.read (.ok text) default) (some text)
        (.returned (.ok nodeId)) := hloaded ▸ .read default (.content text)
    have halone : (exclusive parse).Alone (some text, .reading) (.read (.ok text) default)
        (some text, .returned (.ok nodeId)) := ⟨trivial, hread⟩
    exact ⟨_, some text, nodeId, run_cons_iff.2 ⟨_, halone, .nil⟩⟩

/-- In every run whose steps meet the condition, from a path that is missing or holds an id: a call
that has returned an id returned what the file holds, and so does every call that returns one later;
and where no call is under way, a start that runs alone succeeds. -/
theorem nodeId_converges (hparse : ParsesUuid parse) (hempty : parse "" = none)
    (hfile : file = none ∨ ∃ nodeId, HoldsId parse file nodeId)
    (hrun : Run (Shared.Step (exclusive parse)) (.initial file) es s) :
    (∀ i nodeId, Returns s i (.ok nodeId) → HoldsId parse s.cell nodeId ∧ ∀ fs t,
        Run (Shared.Step (exclusive parse)) s fs t → ∀ j nodeId', Returns t j (.ok nodeId') →
          nodeId' = nodeId) ∧
      (Quiet s → ∀ i, s.calls.find i = none →
        ∃ (labels : List Label) (t : Shared NodeIdFile Phase) (nodeId : Uuid),
        Run (Shared.Step (exclusive parse)) s (.enter i :: labels.map (.act i)) t ∧
          Returns t i (.ok nodeId)) := by
  have hinv : Inv parse s := by
    refine hrun.invariant ?_ fun _ _ _ h hstep => h.step hparse hempty hstep
    rcases hfile with hfile | ⟨nodeId, hfile⟩
    · refine .missing hfile fun i p hi => ?_
      cases hi
    · refine .settled hfile fun i p hi => ?_
      cases hi
  constructor
  · intro i nodeId hi
    have hfile := hinv.holdsId_of_returned hi
    refine ⟨hfile, fun fs t hlater j nodeId' hj => ?_⟩
    have hkept : Inv parse t ∧ HoldsId parse t.cell nodeId := by
      refine hlater.invariant (I := fun t => Inv parse t ∧ HoldsId parse t.cell nodeId)
        ⟨hinv, hfile⟩ fun u e v h hstep => ?_
      exact ⟨h.1.step hparse hempty hstep, h.1.holdsId_step hempty h.2 hstep⟩
    exact (hkept.1.of_holdsId hempty hkept.2 j _ hj).2 nodeId' rfl
  · intro hquiet i hi
    obtain ⟨labels, file, nodeId, hrun⟩ := run_alone (hinv.of_quiet hquiet)
    refine ⟨labels, _, nodeId, Shared.run_enter_alone hi rfl hrun, ?_⟩
    simp [Returns]

/-- A file that holds no id gives none, and no call replaces it. -/
theorem preserves_invalid {text : String} (hinvalid : parse (trim text) = none) :
    (loadOrCreateNodeId parse).Preserves (fun file => file = some text)
      fun _ p => p.Idle ∧ ∀ nodeId, p ≠ .drawn nodeId where
  enter _ p _ hp := by
    cases hp
    simp [Phase.Idle]
  act file p label file' p' hfile hp h := by
    obtain ⟨hidle, hdrawn⟩ := hp
    cases h with
    | read fresh hreads =>
      have hnone : ∀ nodeId, ¬ HoldsId parse file nodeId := by
        rintro nodeId ⟨text', htext', hid⟩
        rw [hfile] at htext'
        cases htext'
        rw [hinvalid] at hid
        cases hid
      refine ⟨hfile, idle_loaded hreads hnone, fun nodeId => ?_⟩
      cases hreads with
      | content text' =>
        cases hfile
        simp [loaded, hinvalid]
      | absent detail => cases hfile
      | failed file error hkind => simp [loaded, hkind]
    | create nodeId => exact absurd rfl (hdrawn nodeId)
    | createFailed nodeId error => exact absurd rfl (hdrawn nodeId)
    | write nodeId => exact absurd rfl (hidle.1 nodeId)
    | writeFailed nodeId n error => exact absurd rfl (hidle.1 nodeId)
    | crash hp => exact ⟨hfile, by simp [Phase.Idle]⟩
  others _ _ _ _ _ _ _ _ _ hq := hq

end

/-! ## Starts that interleave or die -/

/-- Two starts find no file, and both write their id. -/
def twoStarts : List (Shared.Event Label) :=
  [.enter 0, .enter 1, .act 0 (.read (.error ⟨.notFound, ""⟩) ⟨1⟩),
    .act 1 (.read (.error ⟨.notFound, ""⟩) ⟨2⟩), .act 0 (.create (.ok ())),
    .act 0 (.write (.ok ())), .act 1 (.create (.ok ())), .act 1 (.write (.ok ()))]

/-- Both have returned, and the file holds the second id. -/
def twoIds : Shared NodeIdFile Phase where
  cell := some (overwritten (Uuid.toString ⟨2⟩).toList.length (Uuid.toString ⟨2⟩) (some ""))
  calls := (Table.empty.insert 0 (.returned (.ok ⟨1⟩))).insert 1 (.returned (.ok ⟨2⟩))

/-- A start dies when the file is open and empty. -/
def deadStart : List (Shared.Event Label) :=
  [.enter 0, .act 0 (.read (.error ⟨.notFound, ""⟩) ⟨1⟩), .act 0 (.create (.ok ())), .act 0 .crash]

/-- The start is gone, and the file is empty. -/
def deadFile : Shared NodeIdFile Phase := ⟨some "", Table.empty.insert 0 .crashed⟩

/-- Two starts that find no file both return an id of their own; and after a start died with the
file open, no later start has an id. -/
theorem nodeId_diverges :
    (¬ ∀ es s, Run (Shared.Step (loadOrCreateNodeId Uuid.ofText)) (.initial none) es s →
        ∀ i j nodeId nodeId', Returns s i (.ok nodeId) → Returns s j (.ok nodeId') →
          nodeId' = nodeId) ∧
      ¬ ∀ es s, Run (Shared.Step (loadOrCreateNodeId Uuid.ofText)) (.initial none) es s →
        Quiet s → ∀ i, s.calls.find i = none → ∃ fs t nodeId,
          Run (Shared.Step (loadOrCreateNodeId Uuid.ofText)) s fs t ∧
            Returns t i (.ok nodeId) := by
  have hmissing : Reads none (.error ⟨.notFound, ""⟩) := .absent ""
  constructor
  · intro h
    have hrun : Run (Shared.Step (loadOrCreateNodeId Uuid.ofText)) (.initial none) twoStarts
        twoIds := by
      refine run_cons_iff.2 ⟨_, .enter rfl rfl, ?_⟩
      refine run_cons_iff.2 ⟨_, .enter rfl rfl, ?_⟩
      refine run_cons_iff.2 ⟨_, .act rfl (.read ⟨1⟩ hmissing), ?_⟩
      refine run_cons_iff.2 ⟨_, .act rfl (.read ⟨2⟩ hmissing), ?_⟩
      refine run_cons_iff.2 ⟨_, .act rfl (.create ⟨1⟩), ?_⟩
      refine run_cons_iff.2 ⟨_, .act rfl (.write ⟨1⟩), ?_⟩
      refine run_cons_iff.2 ⟨_, .act rfl (.create ⟨2⟩), ?_⟩
      refine run_cons_iff.2 ⟨_, .act rfl (.write ⟨2⟩), ?_⟩
      exact run_nil_iff.2 rfl
    have hsame := h twoStarts twoIds hrun 0 1 ⟨1⟩ ⟨2⟩ rfl rfl
    cases hsame
  · intro h
    have hrun : Run (Shared.Step (loadOrCreateNodeId Uuid.ofText)) (.initial none) deadStart
        deadFile := by
      refine run_cons_iff.2 ⟨_, .enter rfl rfl, ?_⟩
      refine run_cons_iff.2 ⟨_, .act rfl (.read ⟨1⟩ hmissing), ?_⟩
      refine run_cons_iff.2 ⟨_, .act rfl (.create ⟨1⟩), ?_⟩
      refine run_cons_iff.2 ⟨_, .act rfl (.crash fun _ => nofun), ?_⟩
      exact run_nil_iff.2 rfl
    have hcalls : ∀ i p, deadFile.calls.find i = some p → p = .crashed := by
      refine Table.forall_insert (P := fun _ p => p = Phase.crashed) (fun i p hi => ?_) rfl
      cases hi
    obtain ⟨fs, t, nodeId, hlater, hreturned⟩ :=
      h deadStart deadFile hrun (fun i p hi => .inl (hcalls i p hi)) 1 rfl
    have hholds : Shared.Holds (fun file => file = some "")
        (fun _ p => p.Idle ∧ ∀ nodeId, p ≠ .drawn nodeId) deadFile := by
      refine ⟨rfl, fun i p hi => ?_⟩
      rw [hcalls i p hi]
      simp [Phase.Idle]
    have hinvalid : Uuid.ofText (trim "") = none := by decide
    exact ((hholds.run (preserves_invalid hinvalid) hlater).calls 1 _ hreturned).1.2 nodeId rfl

/-- Three starts overlap: two find no file, of which one dies before it opens the path, and the
third reads what the other has written. -/
def overlappingStarts : List (Shared.Event Label) :=
  [.enter 0, .enter 1, .act 0 (.read (.error ⟨.notFound, ""⟩) ⟨1⟩), .enter 2,
    .act 2 (.read (.error ⟨.notFound, ""⟩) ⟨2⟩), .act 0 (.create (.ok ())), .act 2 .crash,
    .act 0 (.write (.ok ())), .act 1 (.read (.ok (Uuid.toString ⟨1⟩)) ⟨3⟩)]

/-- Two have returned the id that the file holds. -/
def started : Shared NodeIdFile Phase where
  cell := some (Uuid.toString ⟨1⟩)
  calls := ((Table.empty.insert 0 (.returned (.ok ⟨1⟩))).insert 1 (.returned (.ok ⟨1⟩))).insert 2
    .crashed

/-- The file of overlapping starts holds the id that they return, and a later start succeeds. -/
theorem nodeId_converges_started :
    Run (Shared.Step (exclusive Uuid.ofText)) (.initial none) overlappingStarts started ∧
      HoldsId Uuid.ofText started.cell ⟨1⟩ ∧
        ∃ (labels : List Label) (t : Shared NodeIdFile Phase) (nodeId : Uuid),
          Run (Shared.Step (exclusive Uuid.ofText)) started (.enter 3 :: labels.map (.act 3)) t ∧
            Returns t 3 (.ok nodeId) := by
  have hmissing : Reads none (.error ⟨.notFound, ""⟩) := .absent ""
  have hwritten : overwritten (Uuid.toString ⟨1⟩).toList.length (Uuid.toString ⟨1⟩) (some "") =
      Uuid.toString ⟨1⟩ := overwritten_empty _
  have hid : Uuid.ofText (Uuid.toString ⟨1⟩) = some ⟨1⟩ := Uuid.ofText_toString _
  have hloaded : loaded Uuid.ofText ⟨3⟩ (.ok (Uuid.toString ⟨1⟩)) = .returned (.ok ⟨1⟩) := by
    simp only [loaded, Uuid.trim_toString, hid]
  have hwrite : (exclusive Uuid.ofText).Act (some "") (.opened ⟨1⟩) (.write (.ok ()))
      (some (Uuid.toString ⟨1⟩)) (.returned (.ok ⟨1⟩)) :=
    ⟨trivial, hwritten ▸ .write ⟨1⟩⟩
  have hread : (exclusive Uuid.ofText).Act (some (Uuid.toString ⟨1⟩)) .reading
      (.read (.ok (Uuid.toString ⟨1⟩)) ⟨3⟩) (some (Uuid.toString ⟨1⟩)) (.returned (.ok ⟨1⟩)) :=
    ⟨trivial, hloaded ▸ .read ⟨3⟩ (.content _)⟩
  have hrun : Run (Shared.Step (exclusive Uuid.ofText)) (.initial none) overlappingStarts
      started := by
    refine run_cons_iff.2 ⟨_, .enter rfl rfl, ?_⟩
    refine run_cons_iff.2 ⟨_, .enter rfl rfl, ?_⟩
    refine run_cons_iff.2 ⟨_, .act rfl ⟨trivial, .read ⟨1⟩ hmissing⟩, ?_⟩
    refine run_cons_iff.2 ⟨_, .enter rfl rfl, ?_⟩
    refine run_cons_iff.2 ⟨_, .act rfl ⟨trivial, .read ⟨2⟩ hmissing⟩, ?_⟩
    refine run_cons_iff.2 ⟨_, .act rfl ⟨rfl, .create ⟨1⟩⟩, ?_⟩
    refine run_cons_iff.2 ⟨_, .act rfl ⟨fun _ => nofun, .crash fun _ => nofun⟩, ?_⟩
    refine run_cons_iff.2 ⟨_, .act rfl hwrite, ?_⟩
    refine run_cons_iff.2 ⟨_, .act rfl hread, ?_⟩
    exact run_nil_iff.2 rfl
  obtain ⟨hsame, hlater⟩ := nodeId_converges Uuid.ofText_toString (by decide) (.inl rfl) hrun
  have hquiet : Quiet started := by
    have hnone : Quiet (.initial none) := fun i p hi => by cases hi
    exact Table.forall_insert (Table.forall_insert (Table.forall_insert hnone (.inr ⟨_, rfl⟩))
      (.inr ⟨_, rfl⟩)) (.inl rfl)
  exact ⟨hrun, (hsame 0 ⟨1⟩ rfl).1, hlater hquiet 3 rfl⟩

end NodeId

end Rackio
