import Rackio.Lib.Run
import Rackio.Lib.Table

/-!
# The desktop preferences

The preferences of the desktop application behind one mutex, and the calls that change them. A call
is a sequence of lock sections, between which the sections of other calls may come in any order:
`set` writes the file and replaces the value in one section, and `migrate_legacy` looks whether
anything was persisted, clones the value, and then calls `set`.

What is persisted is what the file holds, in every run (`PreferencesRun.stored_of_persisted`). The
documentation promises that a racing migration cannot undo a later change, and this fails where a
`set` goes through after the migration has looked (`migration_undoes_saved`). It is kept in the runs
without such a race (`migration_keeps_saved`).
-/

namespace Rackio

open Lts

/-! ## Values -/

/-- The source's `NotificationThreshold`. -/
inductive NotificationThreshold
  | warning | degraded | critical | offline
  deriving DecidableEq, Repr

/-- The source's `Appearance`. -/
inductive Appearance
  | system | light | dark
  deriving DecidableEq, Repr

/-- The source's `Preferences`. -/
structure Preferences where
  version : UInt32
  notificationsEnabled : Bool
  notificationThreshold : NotificationThreshold
  appearance : Appearance
  deriving DecidableEq, Repr

/-- The source's `PreferencesView`. -/
structure PreferencesView where
  preferences : Preferences
  loadError : Option String
  persisted : Bool
  deriving DecidableEq, Repr

/-- The source's `Loaded`. -/
structure Loaded where
  preferences : Preferences
  loadError : Option String
  persisted : Bool
  deriving DecidableEq, Repr

namespace Preferences

/-- The source's `CURRENT_VERSION`. -/
def currentVersion : UInt32 := 1

/-- The source's `Preferences::default`. -/
def default : Preferences := ⟨currentVersion, false, .critical, .system⟩

end Preferences

/-- What the file at the path of the preferences holds: nothing, preferences, or something that is
not read as preferences, with the reason. -/
inductive PreferencesFile
  | missing
  | stored (preferences : Preferences)
  | unusable (reason : String)
  deriving DecidableEq, Repr

/-- The source's `read`. -/
def PreferencesFile.read (path : String) : PreferencesFile → Except String (Option Preferences)
  | .missing => .ok none
  | .unusable reason => .error reason
  | .stored preferences =>
    if preferences.version = Preferences.currentVersion then .ok (some preferences)
    else .error (path ++ " has unsupported version " ++ toString preferences.version)

/-- The source's `DesktopPreferences`, and the file at its path. -/
structure DesktopPreferences where
  path : Option String
  state : Loaded
  file : PreferencesFile
  deriving DecidableEq, Repr

namespace DesktopPreferences

/-- The source's `DesktopPreferences::load`. -/
def load (path : Option String) (file : PreferencesFile) : DesktopPreferences where
  path := path
  file := file
  state :=
    match path with
    | none => ⟨.default, some "Rackio has no config directory.", false⟩
    | some path =>
      match file.read path with
      | .ok (some preferences) => ⟨preferences, none, true⟩
      | .ok none => ⟨.default, none, false⟩
      | .error error => ⟨.default, some error, false⟩

/-- The source's `DesktopPreferences::view`. -/
def view (d : DesktopPreferences) : PreferencesView :=
  ⟨d.state.preferences, d.state.loadError, d.state.persisted⟩

end DesktopPreferences

/-! ## Calls -/

/-- What a call does next: the section it is before, with its local variables, or its answer. -/
inductive PreferencesPhase
  /-- `set` is about to write and replace. -/
  | setting (next : Preferences)
  /-- `migrate_legacy` is about to look whether anything was persisted. -/
  | checking (notificationsEnabled : Bool) (threshold : NotificationThreshold)
  /-- `migrate_legacy` is about to clone the value. -/
  | cloning (notificationsEnabled : Bool) (threshold : NotificationThreshold)
  /-- The call is about to answer with the view. -/
  | viewing
  | done (answer : Except String PreferencesView)

/-- A `set` in this phase has written and replaced the preferences. -/
def PreferencesPhase.Written (phase : PreferencesPhase) : Prop :=
  phase = .viewing ∨ ∃ view, phase = .done (.ok view)

/-- A migration in this phase has found nothing persisted and has not written. -/
def PreferencesPhase.Pending (phase : PreferencesPhase) : Prop :=
  (∃ enabled threshold, phase = .cloning enabled threshold) ∨ ∃ next, phase = .setting next

/-- One section of a call, with how the write ends where the section writes. -/
def DesktopPreferences.lockSection (d : DesktopPreferences) (outcome : Except String Unit) :
    PreferencesPhase → DesktopPreferences × PreferencesPhase
  | .setting next =>
    if next.version ≠ Preferences.currentVersion then
      (d, .done (.error ("Unsupported preferences version " ++ toString next.version ++ ".")))
    else match d.path with
      | none => (d, .done (.error "Rackio has no config directory to save preferences in."))
      | some _ =>
        match outcome with
        | .error error => (d, .done (.error error))
        | .ok () => ({ d with state := ⟨next, none, true⟩, file := .stored next }, .viewing)
  | .checking notificationsEnabled threshold =>
    if d.state.persisted then (d, .viewing) else (d, .cloning notificationsEnabled threshold)
  | .cloning notificationsEnabled threshold =>
    (d, .setting { d.state.preferences with
      notificationsEnabled := notificationsEnabled, notificationThreshold := threshold })
  | .viewing => (d, .done (.ok d.view))
  | .done answer => (d, .done answer)

/-- A call, of `migrate_legacy` or of `set`, and its phase. -/
structure PreferencesCall where
  migration : Bool
  phase : PreferencesPhase

/-- The preferences and the calls on them. -/
structure PreferencesRun where
  desktop : DesktopPreferences
  calls : Table Nat PreferencesCall

/-- A call begins, or takes its next section. -/
inductive PreferencesEvent
  | set (i : Nat) (next : Preferences)
  | migrateLegacy (i : Nat) (notificationsEnabled : Bool) (threshold : NotificationThreshold)
  | act (i : Nat) (outcome : Except String Unit)

namespace PreferencesRun

/-- A call begins, unless the number is taken. -/
def enter (s : PreferencesRun) (i : Nat) (call : PreferencesCall) : PreferencesRun :=
  if (s.calls.find i).isSome then s else { s with calls := s.calls.insert i call }

/-- A call takes its next section. -/
def act (s : PreferencesRun) (i : Nat) (outcome : Except String Unit) : PreferencesRun :=
  match s.calls.find i with
  | none => s
  | some call =>
    let (desktop, phase) := s.desktop.lockSection outcome call.phase
    ⟨desktop, s.calls.insert i { call with phase }⟩

/-- One step of a run. -/
def step (s : PreferencesRun) : PreferencesEvent → PreferencesRun
  | .set i next => s.enter i ⟨false, .setting next⟩
  | .migrateLegacy i notificationsEnabled threshold =>
    s.enter i ⟨true, .checking notificationsEnabled threshold⟩
  | .act i outcome => s.act i outcome

/-- The application has loaded its preferences. -/
def start (path : Option String) (file : PreferencesFile) : PreferencesRun :=
  ⟨.load path file, .empty⟩

/-- A call of `set` has written and replaced the preferences. -/
def SetSucceeded (s : PreferencesRun) : Prop :=
  ∃ i call, s.calls.find i = some call ∧ call.migration = false ∧ call.phase.Written

/-- Once a `set` has succeeded, a section of a migration changes neither the value nor the file. -/
def KeepsSaved (s : PreferencesRun) (e : PreferencesEvent) : Prop :=
  s.SetSucceeded → ∀ i outcome call, e = .act i outcome → s.calls.find i = some call →
    call.migration = true →
      (s.step e).desktop.state.preferences = s.desktop.state.preferences ∧
        (s.step e).desktop.file = s.desktop.file

/-- A migration has found nothing persisted and has not written. -/
def MigrationPending (s : PreferencesRun) : Prop :=
  ∃ i call, s.calls.find i = some call ∧ call.migration = true ∧ call.phase.Pending

/-- No `set` writes while a migration has found nothing persisted and has not written. -/
def Unraced (s : PreferencesRun) (e : PreferencesEvent) : Prop :=
  s.MigrationPending → ∀ i call next, e = .act i (.ok ()) → s.calls.find i = some call →
    call.migration = false → call.phase ≠ .setting next

instance : DecidablePred PreferencesPhase.Pending
  | .cloning enabled threshold => .isTrue (.inl ⟨enabled, threshold, rfl⟩)
  | .setting next => .isTrue (.inr ⟨next, rfl⟩)
  | .checking .. | .viewing | .done _ => .isFalse (by simp [PreferencesPhase.Pending])

instance (s : PreferencesRun) : Decidable s.MigrationPending :=
  decidable_of_iff (∃ r ∈ s.calls.rows, r.2.migration = true ∧ r.2.phase.Pending) (by
    simp only [MigrationPending, ← Table.mem_rows_iff, Prod.exists])

/-- A call that is about to write, and is no migration. -/
def WritingSet (s : PreferencesRun) (i : Nat) : Bool :=
  match s.calls.find i with
  | some ⟨false, .setting _⟩ => true
  | _ => false

instance (s : PreferencesRun) (e : PreferencesEvent) : Decidable (s.Unraced e) :=
  match e with
  | .act i (.ok ()) => decidable_of_iff (s.MigrationPending → s.WritingSet i = false) (by
      refine imp_congr_right fun _ => ⟨?_, fun h => ?_⟩
      · rintro hnot j ⟨migration, phase⟩ next heq hj rfl rfl
        cases heq
        simp [WritingSet, hj] at hnot
      · unfold WritingSet
        split
        · next hi => exact absurd rfl (h i _ _ rfl hi rfl)
        · rfl)
  | .act _ (.error _) | .set .. | .migrateLegacy .. =>
    .isTrue fun _ _ _ _ heq => nomatch heq

end PreferencesRun

/-! ## What every run keeps -/

/-- What is persisted is what the file holds; the value is of the current version; and without a
path nothing is persisted. -/
structure DesktopPreferences.Sound (d : DesktopPreferences) : Prop where
  stored : d.state.persisted = true → d.file = .stored d.state.preferences
  version : d.state.preferences.version = Preferences.currentVersion
  path : d.state.persisted = true → ∃ path, d.path = some path

/-- A migration sets what it cloned, and a `set` that has written has persisted. -/
structure PreferencesCall.Sound (d : DesktopPreferences) (call : PreferencesCall) : Prop where
  migrating : ∀ next, call.migration = true → call.phase = .setting next →
    next.version = Preferences.currentVersion
  setting : call.migration = false → (∃ next, call.phase = .setting next) ∨
    (∃ error, call.phase = .done (.error error)) ∨
    call.phase.Written ∧ d.state.persisted = true

/-- The preferences and all calls on them. -/
structure PreferencesRun.Sound (s : PreferencesRun) : Prop where
  desktop : s.desktop.Sound
  calls : ∀ i call, s.calls.find i = some call → call.Sound s.desktop

section
variable {d : DesktopPreferences} {s : PreferencesRun} {call : PreferencesCall}
  {e : PreferencesEvent} {path : Option String} {file : PreferencesFile}

/-- What is read is of the current version and in the file. -/
theorem PreferencesFile.read_eq_some {path : String} {preferences : Preferences}
    (h : file.read path = .ok (some preferences)) :
    file = .stored preferences ∧ preferences.version = Preferences.currentVersion := by
  cases file with
  | missing | unusable => cases h
  | stored stored =>
    unfold read at h
    dsimp only at h
    split at h
    · next hversion =>
      cases h
      exact ⟨rfl, hversion⟩
    · cases h

theorem DesktopPreferences.sound_load : (load path file).Sound := by
  unfold load
  cases path with
  | none => exact ⟨nofun, rfl, nofun⟩
  | some path =>
    cases hread : file.read path with
    | error error => simp only [hread]; exact ⟨nofun, rfl, nofun⟩
    | ok preferences =>
      cases preferences with
      | none => simp only [hread]; exact ⟨nofun, rfl, nofun⟩
      | some preferences =>
        obtain ⟨hfile, hversion⟩ := PreferencesFile.read_eq_some hread
        simp only [hread]
        exact ⟨fun _ => hfile, hversion, fun _ => ⟨path, rfl⟩⟩

/-- A section leaves the preferences as they are, or it is the one that writes. -/
theorem DesktopPreferences.lockSection_cases (d : DesktopPreferences) (outcome : Except String Unit)
    (phase : PreferencesPhase) :
    (d.lockSection outcome phase).1 = d ∨
      ∃ next path, phase = .setting next ∧ next.version = Preferences.currentVersion ∧
        d.path = some path ∧ outcome = .ok () ∧ (d.lockSection outcome phase).1 =
          { d with state := ⟨next, none, true⟩, file := .stored next } := by
  cases phase with
  | setting next =>
    unfold lockSection
    dsimp only
    split
    · exact .inl rfl
    · next hversion =>
      split
      · exact .inl rfl
      · next path hpath =>
        split
        · exact .inl rfl
        · exact .inr ⟨next, path, rfl, not_not.1 hversion, hpath, rfl, rfl⟩
  | checking enabled threshold =>
    left
    unfold lockSection
    dsimp only
    split <;> rfl
  | cloning | viewing | done => exact .inl rfl

/-- A section keeps the preferences sound, and what is persisted. -/
theorem DesktopPreferences.Sound.lockSection (h : d.Sound) (outcome : Except String Unit)
    (phase : PreferencesPhase) :
    (d.lockSection outcome phase).1.Sound ∧
      (d.state.persisted = true → (d.lockSection outcome phase).1.state.persisted = true) := by
  rcases d.lockSection_cases outcome phase with heq | ⟨next, path, -, hversion, hpath, -, heq⟩
  · rw [heq]
    exact ⟨h, id⟩
  · rw [heq]
    exact ⟨⟨fun _ => rfl, hversion, fun _ => ⟨path, hpath⟩⟩, fun _ => rfl⟩

/-- What was persisted stays persisted, so the other calls stay sound. -/
theorem PreferencesCall.Sound.mono {d' : DesktopPreferences} (h : call.Sound d)
    (hkeep : d.state.persisted = true → d'.state.persisted = true) : call.Sound d' :=
  ⟨h.migrating, fun hset => (h.setting hset).imp_right (.imp_right (.imp_right hkeep))⟩

/-- A section keeps its own call sound. -/
theorem PreferencesCall.Sound.lockSection (hd : d.Sound) (h : call.Sound d)
    (outcome : Except String Unit) :
    Sound (d.lockSection outcome call.phase).1
      { call with phase := (d.lockSection outcome call.phase).2 } := by
  obtain ⟨migration, phase⟩ := call
  cases phase with
  | setting next =>
    unfold DesktopPreferences.lockSection
    dsimp only
    split
    · exact ⟨nofun, fun _ => .inr (.inl ⟨_, rfl⟩)⟩
    · split
      · exact ⟨nofun, fun _ => .inr (.inl ⟨_, rfl⟩)⟩
      · split
        · exact ⟨nofun, fun _ => .inr (.inl ⟨_, rfl⟩)⟩
        · exact ⟨nofun, fun _ => .inr (.inr ⟨.inl rfl, rfl⟩)⟩
  | checking enabled threshold =>
    refine ⟨fun next _ hphase => ?_, fun hmigration => ?_⟩
    · unfold DesktopPreferences.lockSection at hphase
      dsimp only at hphase
      split at hphase <;> cases hphase
    · rcases h.setting hmigration with ⟨_, hphase⟩ | ⟨_, hphase⟩ | ⟨hphase | ⟨_, hphase⟩, -⟩ <;>
        cases hphase
  | cloning enabled threshold =>
    refine ⟨fun next _ hphase => ?_, fun _ => .inl ⟨_, rfl⟩⟩
    cases hphase
    exact hd.version
  | viewing =>
    refine ⟨nofun, fun hmigration => ?_⟩
    rcases h.setting hmigration with ⟨_, hphase⟩ | ⟨_, hphase⟩ | ⟨-, hpersisted⟩
    · cases hphase
    · cases hphase
    · exact .inr (.inr ⟨.inr ⟨_, rfl⟩, hpersisted⟩)
  | done answer => exact h

/-- A section that leaves a call written had it written before, or writes. -/
theorem PreferencesPhase.Written.of_lockSection {outcome : Except String Unit}
    {phase : PreferencesPhase} (h : (d.lockSection outcome phase).2.Written) :
    phase.Written ∨ (∃ next, phase = .setting next ∧ outcome = .ok ()) ∨
      ∃ enabled threshold, phase = .checking enabled threshold := by
  cases phase with
  | setting next =>
    right
    left
    refine ⟨next, rfl, ?_⟩
    cases outcome with
    | ok => rfl
    | error error =>
      unfold DesktopPreferences.lockSection at h
      dsimp only at h
      split at h
      · rcases h with h | ⟨_, h⟩ <;> cases h
      · split at h <;> rcases h with h | ⟨_, h⟩ <;> cases h
  | checking enabled threshold => exact .inr (.inr ⟨_, _, rfl⟩)
  | cloning => rcases h with h | ⟨_, h⟩ <;> cases h
  | viewing => exact .inl (.inl rfl)
  | done answer => exact .inl h

/-- A section that leaves a call pending has just found nothing persisted, or had it pending. -/
theorem PreferencesPhase.Pending.of_lockSection {outcome : Except String Unit}
    {phase : PreferencesPhase} (h : (d.lockSection outcome phase).2.Pending) :
    phase.Pending ∨ d.state.persisted = false := by
  cases phase with
  | setting next => exact .inl (.inr ⟨_, rfl⟩)
  | checking enabled threshold =>
    unfold DesktopPreferences.lockSection at h
    dsimp only at h
    split at h
    · rcases h with ⟨_, _, h⟩ | ⟨_, h⟩ <;> cases h
    · next hpersisted => exact .inr (Bool.eq_false_iff.2 hpersisted)
  | cloning => exact .inl (.inl ⟨_, _, rfl⟩)
  | viewing => rcases h with ⟨_, _, h⟩ | ⟨_, h⟩ <;> cases h
  | done answer => exact .inl h

namespace PreferencesRun

theorem sound_start : (start path file).Sound :=
  ⟨DesktopPreferences.sound_load, nofun⟩

/-- A call that begins is sound. -/
theorem Sound.enter (h : s.Sound) (i : Nat) (hcall : call.Sound s.desktop) :
    (s.enter i call).Sound := by
  unfold PreferencesRun.enter
  split
  · exact h
  · exact ⟨h.desktop, Table.forall_insert h.calls hcall⟩

/-- A section of a call that has begun. -/
theorem step_act {i : Nat} (hi : s.calls.find i = some call) (outcome : Except String Unit) :
    s.step (.act i outcome) = ⟨(s.desktop.lockSection outcome call.phase).1,
      s.calls.insert i { call with phase := (s.desktop.lockSection outcome call.phase).2 }⟩ := by
  show s.act i outcome = _
  unfold act
  simp only [hi]

/-- A call that has not begun has no sections. -/
theorem step_act_none {i : Nat} (hi : s.calls.find i = none) (outcome : Except String Unit) :
    s.step (.act i outcome) = s := by
  show s.act i outcome = _
  unfold act
  simp only [hi]

/-- A step keeps the run sound. -/
theorem Sound.step (h : s.Sound) (e : PreferencesEvent) : (s.step e).Sound := by
  cases e with
  | set i next => exact h.enter i ⟨nofun, fun _ => .inl ⟨next, rfl⟩⟩
  | migrateLegacy i enabled threshold => exact h.enter i ⟨nofun, nofun⟩
  | act i outcome =>
    cases hi : s.calls.find i with
    | none => exact (step_act_none hi outcome).symm ▸ h
    | some call =>
      obtain ⟨hdesktop, hkeep⟩ := h.desktop.lockSection outcome call.phase
      rw [step_act hi]
      refine ⟨hdesktop, Table.forall_insert (fun j call' hj => ?_) ?_⟩
      · exact (h.calls j call' hj).mono hkeep
      · exact (h.calls i call hi).lockSection h.desktop outcome

/-- After any steps the run is sound. -/
theorem sound_foldl (h : s.Sound) (es : List PreferencesEvent) :
    (es.foldl PreferencesRun.step s).Sound := by
  induction es generalizing s with
  | nil => exact h
  | cons e es ih => exact ih (h.step e)

/-- Once a `set` has succeeded, the preferences are persisted. -/
theorem Sound.persisted (h : s.Sound) (hset : s.SetSucceeded) :
    s.desktop.state.persisted = true := by
  obtain ⟨i, call, hi, hmigration, hphase⟩ := hset
  rcases (h.calls i call hi).setting hmigration with ⟨next, hset⟩ | ⟨error, hdone⟩ | ⟨-, h⟩
  · rw [hset] at hphase
    rcases hphase with hphase | ⟨_, hphase⟩ <;> cases hphase
  · rw [hdone] at hphase
    rcases hphase with hphase | ⟨_, hphase⟩ <;> cases hphase
  · exact h

/-- What is persisted is what the file holds, after any steps. -/
theorem stored_of_persisted (es : List PreferencesEvent)
    (h : (es.foldl step (start path file)).desktop.state.persisted = true) :
    (es.foldl step (start path file)).desktop.file =
      .stored (es.foldl step (start path file)).desktop.state.preferences :=
  (sound_foldl sound_start es).desktop.stored h

/-- No `set` has succeeded while a migration is pending. -/
def Settled (s : PreferencesRun) : Prop := s.SetSucceeded → ¬s.MigrationPending

/-- A call that begins settles nothing and unsettles nothing. -/
theorem Settled.enter (h : s.Settled) (i : Nat) (hset : ¬call.phase.Written)
    (hpending : call.migration = true → ¬call.phase.Pending) : (s.enter i call).Settled := by
  unfold PreferencesRun.enter
  split
  · exact h
  · rintro ⟨a, ca, ha, hma, hwritten⟩ ⟨b, cb, hb, hmb, hpend⟩
    rw [Table.find_insert] at ha hb
    split at ha
    · cases ha
      exact hset hwritten
    · split at hb
      · cases hb
        exact hpending hmb hpend
      · exact h ⟨a, ca, ha, hma, hwritten⟩ ⟨b, cb, hb, hmb, hpend⟩

/-- A migration that is pending after a section was pending before, or has just found nothing
persisted. -/
theorem MigrationPending.of_act {i : Nat} {outcome : Except String Unit}
    (hi : s.calls.find i = some call) (h : (s.step (.act i outcome)).MigrationPending) :
    s.MigrationPending ∨ call.migration = true ∧ s.desktop.state.persisted = false := by
  rw [step_act hi] at h
  obtain ⟨b, cb, hb, hmb, hpend⟩ := h
  rw [Table.find_insert] at hb
  split at hb
  · cases hb
    rcases PreferencesPhase.Pending.of_lockSection hpend with hbefore | hnothing
    · exact .inl ⟨i, call, hi, hmb, hbefore⟩
    · exact .inr ⟨hmb, hnothing⟩
  · exact .inl ⟨b, cb, hb, hmb, hpend⟩

/-- A `set` that has succeeded after a section had succeeded before, or has just written. -/
theorem SetSucceeded.of_act (hsound : s.Sound) {i : Nat} {outcome : Except String Unit}
    (hi : s.calls.find i = some call) (h : (s.step (.act i outcome)).SetSucceeded) :
    s.SetSucceeded ∨
      call.migration = false ∧ outcome = .ok () ∧ ∃ next, call.phase = .setting next := by
  rw [step_act hi] at h
  obtain ⟨a, ca, ha, hma, hwritten⟩ := h
  rw [Table.find_insert] at ha
  split at ha
  · cases ha
    rcases PreferencesPhase.Written.of_lockSection hwritten with
      hbefore | ⟨next, hphase, rfl⟩ | ⟨_, _, hphase⟩
    · exact .inl ⟨i, call, hi, hma, hbefore⟩
    · exact .inr ⟨hma, rfl, next, hphase⟩
    · rcases (hsound.calls i call hi).setting hma with
        ⟨_, hcall⟩ | ⟨_, hcall⟩ | ⟨hcall | ⟨_, hcall⟩, -⟩ <;>
      · rw [hcall] at hphase
        cases hphase
  · exact .inl ⟨a, ca, ha, hma, hwritten⟩

/-- A step that is no race keeps the run settled. -/
theorem Settled.step (hsound : s.Sound) (h : s.Settled) (hunraced : s.Unraced e) :
    (s.step e).Settled := by
  cases e with
  | set i next =>
    refine h.enter i ?_ nofun
    rintro (hphase | ⟨_, hphase⟩) <;> cases hphase
  | migrateLegacy i enabled threshold =>
    refine h.enter i ?_ fun _ => ?_
    · rintro (hphase | ⟨_, hphase⟩) <;> cases hphase
    · rintro (⟨_, _, hphase⟩ | ⟨_, hphase⟩) <;> cases hphase
  | act i outcome =>
    cases hi : s.calls.find i with
    | none => exact (step_act_none hi outcome).symm ▸ h
    | some call =>
      intro hset hpending
      rcases SetSucceeded.of_act hsound hi hset with hset | ⟨hcall, rfl, next, hphase⟩
      · rcases MigrationPending.of_act hi hpending with hpending | ⟨-, hnothing⟩
        · exact h hset hpending
        · rw [hsound.persisted hset] at hnothing
          cases hnothing
      · rcases MigrationPending.of_act hi hpending with hpending | ⟨hmigration, -⟩
        · exact hunraced hpending i call next rfl hi hcall hphase
        · rw [hcall] at hmigration
          cases hmigration

/-- A migration that is not pending once a `set` has succeeded changes nothing. -/
theorem Settled.keepsSaved (h : s.Settled) (e : PreferencesEvent) : s.KeepsSaved e := by
  rintro hset i outcome call rfl hi hmigration
  rw [step_act hi]
  dsimp only
  rcases s.desktop.lockSection_cases outcome call.phase with heq | ⟨next, -, hphase, -⟩
  · rw [heq]
    exact ⟨rfl, rfl⟩
  · exact absurd ⟨i, call, hi, hmigration, .inr ⟨next, hphase⟩⟩ (h hset)

end PreferencesRun

end

open PreferencesRun

/-- Whatever the calls, what is persisted is what the file holds. And in every run in which no `set`
writes between the look and the write of a migration, once a `set` has succeeded no migration
changes the value or the file. -/
theorem migration_keeps_saved (path : Option String) (file : PreferencesFile)
    (es : List PreferencesEvent) :
    ((es.foldl step (start path file)).desktop.state.persisted = true →
      (es.foldl step (start path file)).desktop.file =
        .stored (es.foldl step (start path file)).desktop.state.preferences) ∧
      (EveryStep step Unraced (start path file) es →
        EveryStep step KeepsSaved (start path file) es) := by
  refine ⟨stored_of_persisted es, fun hunraced before e after heq => ?_⟩
  have hbefore : EveryStep step Unraced (start path file) before :=
    fun b e' a hb => hunraced b e' (a ++ e :: after) (by rw [heq, hb, List.append_assoc]; rfl)
  have hstart : (start path file).Settled := fun ⟨_, _, hnone, _⟩ => absurd hnone nofun
  have hsettled : (before.foldl step (start path file)).Sound ∧
      (before.foldl step (start path file)).Settled :=
    invariant_of_everyStep (I := fun s => s.Sound ∧ s.Settled) ⟨sound_start, hstart⟩
      (fun e' _ _ hs hunraced => ⟨hs.1.step e', hs.2.step hs.1 hunraced⟩) hbefore
  exact hsettled.2.keepsSaved e

/-- A migration writes before a `set` that began in between does, and a second migration finds that
something is persisted. -/
def orderlyMigration : List PreferencesEvent :=
  [.migrateLegacy 0 true .warning, .act 0 (.ok ()),
    .set 1 ⟨Preferences.currentVersion, false, .critical, .dark⟩, .act 0 (.ok ()),
    .act 0 (.ok ()), .act 1 (.ok ()), .migrateLegacy 2 true .offline, .act 2 (.ok ())]

/-- There the saved choices stay. -/
theorem migration_keeps_saved_orderly :
    EveryStep step Unraced (start (some "desktop-preferences.json") .missing) orderlyMigration ∧
      EveryStep step KeepsSaved (start (some "desktop-preferences.json") .missing)
        orderlyMigration ∧
      (orderlyMigration.foldl step
        (start (some "desktop-preferences.json") .missing)).desktop.file =
          .stored ⟨Preferences.currentVersion, false, .critical, .dark⟩ := by
  have hunraced : EveryStep step Unraced (start (some "desktop-preferences.json") .missing)
      orderlyMigration := by decide
  exact ⟨hunraced, (migration_keeps_saved _ _ _).2 hunraced, rfl⟩

/-- The user saves other choices after a migration has looked, and the migration undoes them. -/
def racingMigration : List PreferencesEvent :=
  [.migrateLegacy 0 true .warning, .act 0 (.ok ()),
    .set 1 ⟨Preferences.currentVersion, false, .critical, .dark⟩, .act 1 (.ok ()),
    .act 0 (.ok ()), .act 0 (.ok ())]

/-- So a racing migration can undo a later change. -/
theorem migration_undoes_saved :
    ¬∀ path file es, EveryStep step KeepsSaved (start path file) es ∧
      ((es.foldl step (start path file)).desktop.state.persisted = true →
        (es.foldl step (start path file)).desktop.file =
          .stored (es.foldl step (start path file)).desktop.state.preferences) := by
  intro hkeeps
  have hlast := (hkeeps (some "desktop-preferences.json") .missing racingMigration).1
    (racingMigration.take 5) (.act 0 (.ok ())) [] rfl
  have hset : (racingMigration.take 5).foldl step
      (start (some "desktop-preferences.json") .missing) |>.SetSucceeded :=
    ⟨1, ⟨false, .viewing⟩, rfl, rfl, .inl rfl⟩
  exact absurd (hlast hset 0 (.ok ()) _ rfl rfl rfl).1 (by decide)

end Rackio
