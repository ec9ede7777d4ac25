import Rackio.Lib.Run
import Rackio.Lib.Outcome

/-!
# A value in memory and its file

A `Mirror` is a value in memory with the file it was loaded from. A *transaction* looks at the value
and refuses, answers without a write, or answers with a next value. The next value goes to the file
first, through a temporary file that is renamed over it, and takes the place of the old one in
memory only when that succeeded (`Mirror.transact`).

`Mirror.Synced` says that a load of the file gives the value in memory. `Mirror.Synced.transact`
keeps it over one transaction and `Mirror.Synced.run` over every run of them, as long as what is
written can be read back (`FileFormat.ReadsBack`).
-/

/-- What a path holds. -/
inductive FileContent (δ : Type)
  | absent
  | unreadable (detail : String)
  | holds (content : δ)

/-- How a value is kept in a file, and the errors of the two ways an access fails. -/
structure FileFormat (τ δ ε : Type) where
  /-- The value of a file that does not exist. -/
  blank : τ
  print : τ → Except ε δ
  parse : δ → Except ε τ
  ioError : String → ε

/-- The outcomes of the steps that replace a file atomically: a temporary file is made next to it,
filled and renamed over it. -/
structure AtomicWrite where
  createDirAll : Except String Unit
  tempfile : Except String Unit
  setPermissions : Except String Unit
  writeAll : Except String Unit
  syncAll : Except String Unit
  persist : Except String Unit

/-- Every step succeeds. -/
def AtomicWrite.succeeds : AtomicWrite where
  createDirAll := .ok ()
  tempfile := .ok ()
  setPermissions := .ok ()
  writeAll := .ok ()
  syncAll := .ok ()
  persist := .ok ()

/-- The two functions of a serializer, with the text of an error. -/
structure Serializer (τ δ : Type) where
  toContent : τ → Except String δ
  ofContent : δ → Except String τ

/-- An error of a serializer or of the file system, as an error of the program. -/
def errorAs {ε α : Type} (wrap : String → ε) : Except String α → Except ε α
  | .ok a => .ok a
  | .error detail => .error (wrap detail)

namespace FileFormat

/-- A value that is kept as the content a serializer makes of it. -/
def of {τ δ ε : Type} (serializer : Serializer τ δ) (blank : τ) (ioError formatError : String → ε) :
    FileFormat τ δ ε where
  blank := blank
  print value := errorAs formatError (serializer.toContent value)
  parse content := errorAs formatError (serializer.ofContent content)
  ioError := ioError

variable {τ δ ε : Type} (fmt : FileFormat τ δ ε)

/-- The value of a file. -/
def load : FileContent δ → Except ε τ
  | .absent => .ok fmt.blank
  | .unreadable detail => .error (fmt.ioError detail)
  | .holds content => fmt.parse content

/-- An access to the file system. -/
def io (outcome : Except String Unit) : Except ε Unit := errorAs fmt.ioError outcome

/-- The steps of a write: the content that has taken the place of the file. -/
def replacement (write : AtomicWrite) (value : τ) : Except ε δ := do
  fmt.io write.createDirAll
  fmt.io write.tempfile
  fmt.io write.setPermissions
  let content ← fmt.print value
  fmt.io write.writeAll
  fmt.io write.syncAll
  fmt.io write.persist
  return content

/-- Write a value to a path. The path holds the new content when the last step succeeded, and what
it held before when any step failed. -/
def persist (write : AtomicWrite) (path : FileContent δ) (value : τ) :
    Except ε Unit × FileContent δ :=
  match fmt.replacement write value with
  | .ok content => (.ok (), .holds content)
  | .error e => (.error e, path)

/-- What is written of a value is read as it. -/
def ReadsBack (value : τ) : Prop :=
  ∀ content, fmt.print value = .ok content → fmt.parse content = .ok value

section
variable {fmt} {write : AtomicWrite} {path path' : FileContent δ} {value : τ} {e : ε}

/-- A write that succeeds prints the value. -/
theorem print_of_replacement {content : δ} (h : fmt.replacement write value = .ok content) :
    fmt.print value = .ok content := by
  unfold replacement at h
  obtain ⟨-, -, h⟩ := Outcome.bind_eq_ok_iff.1 h
  obtain ⟨-, -, h⟩ := Outcome.bind_eq_ok_iff.1 h
  obtain ⟨-, -, h⟩ := Outcome.bind_eq_ok_iff.1 h
  obtain ⟨content', hprint, h⟩ := Outcome.bind_eq_ok_iff.1 h
  obtain ⟨-, -, h⟩ := Outcome.bind_eq_ok_iff.1 h
  obtain ⟨-, -, h⟩ := Outcome.bind_eq_ok_iff.1 h
  obtain ⟨-, -, h⟩ := Outcome.bind_eq_ok_iff.1 h
  cases h
  exact hprint

/-- A write that fails leaves the path alone. -/
theorem persist_error (h : fmt.persist write path value = (.error e, path')) : path' = path := by
  unfold persist at h
  split at h
  · cases h
  · cases h
    rfl

/-- A write that succeeds leaves a file of the value. -/
theorem load_of_persist (h : fmt.persist write path value = (.ok (), path'))
    (hback : fmt.ReadsBack value) : fmt.load path' = .ok value := by
  unfold persist at h
  split at h
  · next content hcontent =>
    cases h
    exact hback content (print_of_replacement hcontent)
  · cases h

/-- A write whose every step succeeds replaces the file. -/
theorem persist_succeeds {content : δ} (h : fmt.print value = .ok content) :
    fmt.persist .succeeds path value = (.ok (), .holds content) := by
  have hok : fmt.replacement .succeeds value = .ok content := by
    simp [replacement, AtomicWrite.succeeds, io, errorAs, h]
    rfl
  simp [persist, hok]

end

end FileFormat

/-! ## Transactions -/

/-- A value in memory and its file. -/
structure Mirror (τ δ : Type) where
  memory : τ
  path : FileContent δ

namespace Mirror

variable {τ δ ε α κ : Type} (fmt : FileFormat τ δ ε)

/-- Load the value of a path. -/
def load (path : FileContent δ) : Except ε (Mirror τ δ) := do
  let memory ← fmt.load path
  return ⟨memory, path⟩

/-- A load of the file gives the value in memory. -/
def Synced (m : Mirror τ δ) : Prop := fmt.load m.path = .ok m.memory

/-- One transaction: `change` looks at the value and refuses, or answers with a next value or
without one. -/
def transact (m : Mirror τ δ) (write : AtomicWrite) (change : τ → Except ε (α × Option τ)) :
    Except ε α × Mirror τ δ :=
  match change m.memory with
  | .error e => (.error e, m)
  | .ok (answer, none) => (.ok answer, m)
  | .ok (answer, some next) =>
    match fmt.persist write m.path next with
    | (.ok (), path) => (.ok answer, ⟨next, path⟩)
    | (.error e, path) => (.error e, ⟨m.memory, path⟩)

/-- Everything that `change` would write to the file reads back. -/
def Writable (change : τ → Except ε (α × Option τ)) (m : Mirror τ δ) : Prop :=
  ∀ answer next, change m.memory = .ok (answer, some next) → fmt.ReadsBack next

/-- The steps of a family of transactions, each with the outcomes of its write. -/
def Step {answer : κ → Type} (change : (c : κ) → τ → Except ε (answer c × Option τ))
    (m : Mirror τ δ) (call : κ × AtomicWrite) (m' : Mirror τ δ) : Prop :=
  (m.transact fmt call.2 (change call.1)).2 = m'

section
variable {fmt} {m m' : Mirror τ δ} {write : AtomicWrite} {change : τ → Except ε (α × Option τ)}
  {answer : α} {e : ε}

/-- A value that was just loaded is the one in the file. -/
theorem synced_of_load {path : FileContent δ} (h : load fmt path = .ok m) : Synced fmt m := by
  obtain ⟨memory, hmemory, h⟩ := Outcome.bind_eq_ok_iff.1 h
  cases h
  exact hmemory

/-- What memory and file agree on is loaded. -/
theorem Synced.load (h : Synced fmt m) : Mirror.load fmt m.path = .ok m := by
  rw [Mirror.load, h]
  rfl

/-- A transaction that fails changes neither the value nor the file. -/
theorem transact_error (h : m.transact fmt write change = (.error e, m')) : m' = m := by
  unfold transact at h
  split at h
  · cases h
    rfl
  · cases h
  · split at h
    · cases h
    · next hpersist =>
      cases h
      rw [FileFormat.persist_error hpersist]

/-- A transaction that answers has answered without a write, or with the next value, which is then
in memory. -/
theorem transact_ok (h : m.transact fmt write change = (.ok answer, m')) :
    (change m.memory = .ok (answer, none) ∧ m' = m) ∨
      change m.memory = .ok (answer, some m'.memory) := by
  unfold transact at h
  split at h
  · cases h
  · next hchange =>
    cases h
    exact .inl ⟨hchange, rfl⟩
  · next hchange =>
    split at h
    · cases h
      exact .inr hchange
    · cases h

/-- A transaction without a next value writes nothing, and none of the outcomes of a write matters
to it. -/
theorem transact_of_unchanged (h : change m.memory = .ok (answer, none)) :
    m.transact fmt write change = (.ok answer, m) := by
  simp [transact, h]

/-- A transaction that refuses writes nothing, and none of the outcomes of a write matters to it. -/
theorem transact_of_refused (h : change m.memory = .error e) :
    m.transact fmt write change = (.error e, m) := by
  simp [transact, h]

/-- A transaction whose write succeeds in every step puts its next value in memory and in the
file. -/
theorem transact_succeeds {next : τ} {content : δ}
    (h : change m.memory = .ok (answer, some next)) (hprint : fmt.print next = .ok content) :
    m.transact fmt .succeeds change = (.ok answer, ⟨next, .holds content⟩) := by
  simp [transact, h, FileFormat.persist_succeeds hprint]

/-- After a transaction a load gives the value in memory again. -/
theorem Synced.transact (hm : Synced fmt m) (hback : Writable fmt change m) :
    Synced fmt (m.transact fmt write change).2 := by
  unfold Mirror.transact
  split
  · exact hm
  · exact hm
  · next answer next hchange =>
    split
    · next path hpersist => exact FileFormat.load_of_persist hpersist (hback answer next hchange)
    · next e path hpersist =>
      rw [FileFormat.persist_error hpersist]
      exact hm

/-- What every change keeps of the value, a transaction keeps. -/
theorem memory_transact {P : τ → Prop} (hm : P m.memory)
    (hchange : ∀ answer next, change m.memory = .ok (answer, some next) → P next) :
    P (m.transact fmt write change).2.memory := by
  unfold Mirror.transact
  split
  · exact hm
  · exact hm
  · next answer next h =>
    split
    · exact hchange answer next h
    · exact hm

end

section
variable {fmt} {answer : κ → Type} {change : (c : κ) → τ → Except ε (answer c × Option τ)}
  {m m' : Mirror τ δ} {calls : List (κ × AtomicWrite)}

/-- After every transaction of a run a load gives the value in memory. -/
theorem Synced.run
    (hrun : Lts.Run (Lts.Guarded (fun m call => Writable fmt (change call.1) m) (Step fmt change)) m
      calls m') (hm : Synced fmt m) : Synced fmt m' := by
  refine hrun.invariant hm ?_
  rintro m call m' hm ⟨hback, rfl⟩
  exact hm.transact hback

/-- What every change keeps of the value, every run keeps. -/
theorem memory_run {P : τ → Prop} (hrun : Lts.Run (Step fmt change) m calls m') (hm : P m.memory)
    (hchange : ∀ call value a next, P value → change call value = .ok (a, some next) → P next) :
    P m'.memory := by
  refine hrun.invariant (I := fun m => P m.memory) hm ?_
  rintro m call m' hm rfl
  exact memory_transact hm fun a next => hchange call.1 m.memory a next hm

end

end Mirror
