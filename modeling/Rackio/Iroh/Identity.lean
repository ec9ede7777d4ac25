import Rackio.Lib.Shared

/-!
# The device identity

`load_or_create_secret_key` of `rackio-iroh/src/identity.rs`, called by any number of processes on
one path. Only a read that finds no file makes a call draw a key. The key is written beside its
destination and published in one step that refuses an existing path; a call that cannot publish
reads the path once more and adopts what is there.

A read may fail with any error, also where there is a file: a dangling link exists and reads as not
found. Every other access may fail as well.
-/

namespace Rackio

open Lts

/-- The kinds of the file system's errors that matter to the program. -/
inductive FileErrorKind
  | notFound
  | alreadyExists
  | permissionDenied
  | other
  deriving DecidableEq, Repr

/-- An error of the file system. -/
structure FileError where
  kind : FileErrorKind
  detail : String
  deriving DecidableEq, Repr

/-- The source's `IdentityError`. -/
inductive IdentityError
  | io (error : FileError)
  | invalidLength (found : Nat)
  deriving DecidableEq, Repr

/-- The `SecretKey` of 32 bytes. -/
@[ext] structure SecretKey where
  bytes : List UInt8
  length : bytes.length = 32
  deriving DecidableEq, Repr

namespace Identity

/-- What is at the path of the key: nothing, or a file with its bytes. -/
abbrev KeyFile : Type := Option (List UInt8)

/-- What `fs::read` may answer. -/
inductive Reads : KeyFile → Except FileError (List UInt8) → Prop
  | content (bytes : List UInt8) : Reads (some bytes) (.ok bytes)
  | failed (file : KeyFile) (error : FileError) : Reads file (.error error)

/-- What `persist_noclobber` may do: publish where nothing is, or fail and leave the path alone. -/
inductive Persists (secret : SecretKey) : KeyFile → Except FileError Unit → KeyFile → Prop
  | published : Persists secret none (.ok ()) (some secret.bytes)
  | failed (file : KeyFile) (error : FileError) : Persists secret file (.error error) file

/-- The source's `read_secret_key`, with what `fs::read` answers. -/
def readSecretKey : Except FileError (List UInt8) → Except IdentityError (Option SecretKey)
  | .ok bytes =>
    if h : bytes.length = 32 then .ok (some ⟨bytes, h⟩) else .error (.invalidLength bytes.length)
  | .error error => if error.kind = .notFound then .ok none else .error (.io error)

/-- The accesses of `create_secret_key` before the publication. -/
inductive Preparation
  | createDirAll
  | setOwnerOnlyDir
  | tempfile
  | setPermissions
  | writeAll
  | syncAll
  deriving DecidableEq, Repr

/-- Only a directory that the call creates is narrowed. -/
def preparations (parentAlreadyExisted : Bool) : List Preparation :=
  .createDirAll :: (if parentAlreadyExisted then [] else [.setOwnerOnlyDir]) ++
    [.tempfile, .setPermissions, .writeAll, .syncAll]

/-- Where a `load_or_create_secret_key` call is. Its key is drawn with the read that finds no file;
nothing looks at it before it is written. -/
inductive Phase
  | reading
  | preparing (secret : SecretKey) (todo : List Preparation)
  | publishing (secret : SecretKey)
  /-- The publication failed. -/
  | rereading (error : FileError)
  | returned (result : Except IdentityError SecretKey)

/-- The phase with these preparations to come: the publication when none is. -/
def Phase.creating (secret : SecretKey) : List Preparation → Phase
  | [] => .publishing secret
  | todo => .preparing secret todo

/-- The `match` of `load_or_create_secret_key`. -/
def loaded (secret : SecretKey) (parentAlreadyExisted : Bool) :
    Except IdentityError (Option SecretKey) → Phase
  | .error error => .returned (.error error)
  | .ok (some existing) => .returned (.ok existing)
  | .ok none => .creating secret (preparations parentAlreadyExisted)

/-- The `match` after a publication that failed with `error`. -/
def adopted (error : FileError) : Except IdentityError (Option SecretKey) → Phase
  | .error error => .returned (.error error)
  | .ok (some existing) => .returned (.ok existing)
  | .ok none => .returned (.error (.io error))

/-- What a call does, with what the file system answers. -/
inductive Label
  | read (outcome : Except FileError (List UInt8)) (secret : SecretKey)
    (parentAlreadyExisted : Bool)
  | prepare (outcome : Except FileError Unit)
  | persist (outcome : Except FileError Unit)
  | reread (outcome : Except FileError (List UInt8))

/-- The steps of a call. -/
inductive Act (file : KeyFile) : Phase → Label → KeyFile → Phase → Prop
  | read {outcome : Except FileError (List UInt8)} (secret : SecretKey)
      (parentAlreadyExisted : Bool) (h : Reads file outcome) :
      Act file .reading (.read outcome secret parentAlreadyExisted) file
        (loaded secret parentAlreadyExisted (readSecretKey outcome))
  | prepare (secret : SecretKey) (step : Preparation) (todo : List Preparation) :
      Act file (.preparing secret (step :: todo)) (.prepare (.ok ())) file (.creating secret todo)
  | prepareFailed (secret : SecretKey) (step : Preparation) (todo : List Preparation)
      (error : FileError) :
      Act file (.preparing secret (step :: todo)) (.prepare (.error error)) file
        (.returned (.error (.io error)))
  | persist {secret : SecretKey} {file' : KeyFile} (h : Persists secret file (.ok ()) file') :
      Act file (.publishing secret) (.persist (.ok ())) file' (.returned (.ok secret))
  | persistFailed {secret : SecretKey} {file' : KeyFile} {error : FileError}
      (h : Persists secret file (.error error) file') :
      Act file (.publishing secret) (.persist (.error error)) file' (.rereading error)
  | reread {outcome : Except FileError (List UInt8)} (error : FileError) (h : Reads file outcome) :
      Act file (.rereading error) (.reread outcome) file (adopted error (readSecretKey outcome))

/-- The source's `load_or_create_secret_key`. -/
def loadOrCreateSecretKey : Shared.Program KeyFile Phase Label where
  Enter p := p = .reading
  Act := Act

/-- A call that has returned a key returned the content of the file. -/
def ReturnedContent (file : KeyFile) (p : Phase) : Prop :=
  ∀ secret, p = .returned (.ok secret) → file = some secret.bytes

/-- A key is only read from a file of its bytes. -/
theorem readSecretKey_eq_ok_some {file : KeyFile} {outcome : Except FileError (List UInt8)}
    (hreads : Reads file outcome) {secret : SecretKey}
    (h : readSecretKey outcome = .ok (some secret)) : file = some secret.bytes := by
  cases hreads with
  | content bytes =>
    simp only [readSecretKey] at h
    split at h
    · cases h
      rfl
    · cases h
  | failed file error =>
    simp only [readSecretKey] at h
    split at h
    · cases h
    · cases h

/-- A read that fails, or finds another length, gives an error unless it finds no file. -/
theorem readSecretKey_error {outcome : Except FileError (List UInt8)}
    (hlength : ∀ bytes, outcome = .ok bytes → bytes.length ≠ 32)
    (hkind : ∀ error, outcome = .error error → error.kind ≠ .notFound) :
    ∃ error, readSecretKey outcome = .error error := by
  cases outcome with
  | ok bytes => exact ⟨_, dif_neg (hlength bytes rfl)⟩
  | error error => exact ⟨_, if_neg (hkind error rfl)⟩

/-- A step leaves an existing file alone. -/
theorem Act.kept {file file' : KeyFile} {p p' : Phase} {label : Label}
    (h : Act file p label file' p') {bytes : List UInt8} (hfile : file = some bytes) :
    file' = some bytes := by
  cases h with
  | persist h =>
    cases h
    cases hfile
  | persistFailed h =>
    cases h
    exact hfile
  | _ => exact hfile

/-- A call that returns a key has read it, or has just published it. -/
theorem Act.returned {file file' : KeyFile} {p p' : Phase} {label : Label}
    (h : Act file p label file' p') : ReturnedContent file' p' := by
  intro secret hp'
  cases h with
  | @read outcome drawn existed h =>
    unfold loaded at hp'
    split at hp'
    · cases hp'
    · next hread =>
      cases hp'
      exact readSecretKey_eq_ok_some h hread
    · unfold Phase.creating at hp'
      split at hp'
      · cases hp'
      · cases hp'
  | prepare drawn step todo =>
    unfold Phase.creating at hp'
    split at hp'
    · cases hp'
    · cases hp'
  | prepareFailed => cases hp'
  | persist h =>
    cases h
    cases hp'
    rfl
  | persistFailed h => cases hp'
  | reread error h =>
    unfold adopted at hp'
    split at hp'
    · cases hp'
    · next hread =>
      cases hp'
      exact readSecretKey_eq_ok_some h hread
    · cases hp'

/-- Every call keeps to the content of the file. -/
theorem preserves_content :
    loadOrCreateSecretKey.Preserves (fun _ => True) ReturnedContent where
  enter _ _ _ hp := by
    rintro secret rfl
    cases hp
  act _ _ _ _ _ _ _ h := ⟨trivial, h.returned⟩
  others _ _ _ _ _ _ _ _ h hq secret hret := h.kept (hq secret hret)

/-! ## The result -/

section
variable {file : KeyFile} {es : List (Shared.Event Label)} {s t : Shared KeyFile Phase}

/-- The call `i` has returned `result`. -/
def Returns (s : Shared KeyFile Phase) (i : Nat) (result : Except IdentityError SecretKey) : Prop :=
  s.calls.find i = some (.returned result)

/-- An existing file is never replaced. -/
theorem kept_of_run {bytes : List UInt8} (hfile : s.cell = some bytes)
    (hrun : Run (Shared.Step loadOrCreateSecretKey) s es t) : t.cell = some bytes := by
  refine Shared.cell_run (R := fun f f' => ∀ bytes, f = some bytes → f' = some bytes)
    (fun _ _ h => h) (fun _ _ _ h h' bytes hf => h' bytes (h bytes hf)) ?_ hrun bytes hfile
  exact fun _ _ _ _ _ h bytes hf => h.kept hf

/-- In every run of any number of calls on a path, with any access failing: a call that has returned
a key returned what is in the file from then on, and every other key that is returned is the same;
the first publication puts its key where nothing was, and a file that exists is never replaced; a
file of another length gives no key, and a read that fails otherwise than by finding no file, or
finds another length, makes the call fail at once. -/
theorem identity_converges
    (hrun : Run (Shared.Step loadOrCreateSecretKey) (.initial file) es s) :
    (∀ i secret, Returns s i (.ok secret) → ∀ fs t,
        Run (Shared.Step loadOrCreateSecretKey) s fs t →
          t.cell = some secret.bytes ∧
            ∀ j secret', Returns t j (.ok secret') → secret' = secret) ∧
      (∀ i t, Shared.Step loadOrCreateSecretKey s (.act i (.persist (.ok ()))) t →
        s.cell = none ∧ ∃ secret, t.cell = some secret.bytes ∧ Returns t i (.ok secret)) ∧
      (∀ bytes fs t, s.cell = some bytes → Run (Shared.Step loadOrCreateSecretKey) s fs t →
        t.cell = some bytes) ∧
      (∀ bytes, s.cell = some bytes → bytes.length ≠ 32 → ∀ i secret, ¬ Returns s i (.ok secret)) ∧
      ∀ i outcome drawn existed t,
        Shared.Step loadOrCreateSecretKey s (.act i (.read outcome drawn existed)) t →
        (∀ bytes, outcome = .ok bytes → bytes.length ≠ 32) →
        (∀ error, outcome = .error error → error.kind ≠ .notFound) →
        ∃ error, Returns t i (.error error) := by
  have hholds : Shared.Holds (fun _ => True) ReturnedContent s :=
    Shared.Holds.run preserves_content (Shared.holds_initial trivial) hrun
  refine ⟨?_, ?_, ?_, ?_, ?_⟩
  · intro i secret hi fs t hlater
    have hcell := kept_of_run (hholds.calls i _ hi secret rfl) hlater
    refine ⟨hcell, fun j secret' hj => ?_⟩
    have hcell' := (hholds.run preserves_content hlater).calls j _ hj secret' rfl
    rw [hcell] at hcell'
    exact SecretKey.ext (Option.some.inj hcell').symm
  · intro i t hstep
    cases hstep with
    | act hi hact =>
      generalize hcell : s.cell = file at hact
      cases hact with
      | @persist secret file' h =>
        cases h
        exact ⟨rfl, secret, rfl, by simp [Returns]⟩
  · intro bytes fs t hcell hlater
    exact kept_of_run hcell hlater
  · intro bytes hcell hlength i secret hi
    have hcontent := hholds.calls i _ hi secret rfl
    rw [hcell] at hcontent
    exact hlength (Option.some.inj hcontent ▸ secret.length)
  · intro i outcome drawn existed t hstep hlength hkind
    obtain ⟨error, herror⟩ := readSecretKey_error hlength hkind
    cases hstep with
    | act hi hact =>
      cases hact with
      | read drawn existed h =>
        refine ⟨error, ?_⟩
        simp [Returns, loaded, herror]

/-- A call whose preparations all succeed gets to its publication. -/
theorem run_preparing (file : KeyFile) (secret : SecretKey) (todo : List Preparation) :
    Run loadOrCreateSecretKey.Alone (file, .creating secret todo)
      (List.replicate todo.length (.prepare (.ok ()))) (file, .publishing secret) := by
  induction todo with
  | nil => exact .nil
  | cons step todo ih =>
    have hstep : loadOrCreateSecretKey.Alone (file, .creating secret (step :: todo))
        (.prepare (.ok ())) (file, .creating secret todo) := .prepare secret step todo
    exact run_cons_iff.2 ⟨_, hstep, ih⟩

end

/-! ## Two starts -/

/-- The key of the first start. -/
def firstKey : SecretKey := ⟨List.replicate 32 1, rfl⟩

/-- The key of the second start. -/
def secondKey : SecretKey := ⟨List.replicate 32 2, rfl⟩

/-- The error of a path that is there. -/
def alreadyExists : FileError := ⟨.alreadyExists, "File exists"⟩

/-- The error of a path that is not there. -/
def notFound : FileError := ⟨.notFound, "No such file or directory"⟩

/-- The calls of two starts. -/
def race (first second : Phase) : Table Nat Phase := (Table.empty.insert 0 first).insert 1 second

/-- Two starts find no key and make one each, and the second one tries to publish after the
first. -/
def raceEvents : List (Shared.Event Label) :=
  [.enter 0, .enter 1, .act 0 (.read (.error notFound) firstKey true),
      .act 1 (.read (.error notFound) secondKey true)] ++
    (List.replicate 5 (.act 1 (.prepare (.ok ()))) ++
      (List.replicate 5 (.act 0 (.prepare (.ok ()))) ++
        [.act 0 (.persist (.ok ())), .act 1 (.persist (.error alreadyExists)),
          .act 1 (.reread (.ok firstKey.bytes))]))

/-- The key of the first start is in the file, and both starts have it. -/
def converged : Shared KeyFile Phase :=
  ⟨some firstKey.bytes, race (.returned (.ok firstKey)) (.returned (.ok firstKey))⟩

/-- The second start has the key that the first one published. -/
theorem identity_converges_race :
    Run (Shared.Step loadOrCreateSecretKey) (.initial none) raceEvents converged ∧
      converged.cell = some firstKey.bytes ∧
        ∀ secret, Returns converged 1 (.ok secret) → secret = firstKey := by
  have hrun : Run (Shared.Step loadOrCreateSecretKey) (.initial none) raceEvents converged := by
    have hsecond := Shared.run_alone (run_preparing none secondKey (preparations true))
      (Table.empty.insert 0 (.creating firstKey (preparations true))) 1
    have hfirst := Shared.run_alone (run_preparing none firstKey (preparations true))
      (Table.empty.insert 1 (.publishing secondKey)) 0
    refine run_append_iff.2 ⟨_, ?_, run_append_iff.2 ⟨_, hsecond, run_append_iff.2 ⟨_, hfirst, ?_⟩⟩⟩
    · refine run_cons_iff.2 ⟨_, .enter rfl rfl, ?_⟩
      refine run_cons_iff.2 ⟨_, .enter rfl rfl, ?_⟩
      refine run_cons_iff.2 ⟨_, .act rfl (.read firstKey true (.failed none notFound)), ?_⟩
      refine run_cons_iff.2 ⟨_, .act rfl (.read secondKey true (.failed none notFound)), ?_⟩
      exact run_nil_iff.2 rfl
    · refine run_cons_iff.2 ⟨_, .act rfl (.persist .published), ?_⟩
      refine run_cons_iff.2 ⟨_, .act rfl (.persistFailed (.failed _ alreadyExists)), ?_⟩
      refine run_cons_iff.2 ⟨_, .act rfl (.reread alreadyExists (.content _)), ?_⟩
      exact run_nil_iff.2 rfl
  obtain ⟨hcell, hsame⟩ := (identity_converges hrun).1 0 firstKey rfl [] converged .nil
  exact ⟨hrun, hcell, hsame 1⟩

end Identity

end Rackio
