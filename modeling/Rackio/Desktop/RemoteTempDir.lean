import Rackio.Desktop.KnownHosts
import Rackio.Lib.Shell

/-!
# The remote temporary directory

The bootstrap of a machine uploads into a directory that `mktemp` on that machine has named, runs an
installer there as root and removes the directory. The name is the machine's answer, and
`validate_remote_temp_dir` is what stands between it and `rm -rf`.

`validateRemoteTempDir_safe`: a name that is accepted leads strictly below `/tmp`, into a component
that starts with `rackio-bootstrap.`, and each command reads it as part of one word
(`SafeTempDir`). What `mktemp` answers is accepted.
-/

namespace Rackio

open Text Shell

/-! ## The check -/

/-- The start of a name that `mktemp` gives. -/
def tempDirPrefix : Text := "/tmp/rackio-bootstrap.".toList

/-- A character of a name. -/
def isTempDirChar (c : Char) : Bool := isAsciiAlphanumeric c || c ∈ "/._-".toList

/-- The source's `validate_remote_temp_dir`. -/
def validateRemoteTempDir (path : Text) : Except String Unit :=
  if ¬tempDirPrefix.isPrefixOf path ∨ (path.any fun c => !isTempDirChar c) ∨
      (split '/' path).any (· = "..".toList) then
    .error "SSH server returned an unsafe temporary directory path."
  else .ok ()

/-! ## The commands -/

/-- A `Component::Normal` of a path, which is what `Path::file_name` gives. -/
structure NormalComponent where
  text : Text
  noSlash : '/' ∉ text
  notParent : text ≠ "..".toList

/-- A character of the name of a file. -/
def isFileNameChar (c : Char) : Bool := isAsciiAlphanumeric c || c ∈ "._-".toList

/-- The source's `shell_filename`, of the file name of the path. -/
def shellFilename (fileName : Option NormalComponent) : Except String NormalComponent :=
  match fileName with
  | some name =>
    if name.text ≠ [] ∧ name.text.all isFileNameChar then .ok name
    else .error "A local release file name is unsafe for SSH transfer."
  | none => .error "A local release file name is unsafe for SSH transfer."

/-- The source's `remote_target`. -/
def remoteTarget (target : SshTarget) : Text :=
  if ':' ∈ target.host then target.user ++ "@[".toList ++ target.host ++ "]".toList
  else target.user ++ "@".toList ++ target.host

/-- The destination that `run_scp` passes to `scp`. -/
def scpDestination (target : SshTarget) (remoteDir : Text) : Text :=
  remoteTarget target ++ ":".toList ++ remoteDir ++ "/".toList

/-- The `privilege` of `perform_remote_install`. -/
def privilege (target : SshTarget) : Text :=
  if target.user = "root".toList then [] else "sudo -n ".toList

/-- The `install_command` of `perform_remote_install`. -/
def installCommand (target : SshTarget) (remoteDir : Text)
    (installer archive checksum : Option NormalComponent) : Except String Text := do
  let installer ← shellFilename installer
  let archive ← shellFilename archive
  let checksum ← shellFilename checksum
  return "set -eu; ".toList ++ privilege target ++ "sh ".toList ++
    remoteDir ++ "/".toList ++ installer.text ++ " --archive ".toList ++
    remoteDir ++ "/".toList ++ archive.text ++ " --checksum ".toList ++
    remoteDir ++ "/".toList ++ checksum.text

/-- The `cleanup_command` of `bootstrap`. -/
def cleanupCommand (remoteDir : Text) : Text := "rm -rf -- ".toList ++ remoteDir

/-- The path in a destination of `scp`: what follows the first colon outside of the brackets around
an address. With a slash before it there is no host. -/
def scpPath (bracketed : Bool) : Text → Option Text
  | [] => none
  | c :: rest =>
    if c = ':' ∧ !bracketed then some rest
    else if c = '/' then none
    else scpPath (c = '[' || bracketed && c ≠ ']') rest

/-! ## What is accepted -/

/-- The words before `sh` in the command that installs. -/
def privilegeWords (target : SshTarget) : List Text :=
  if target.user = "root".toList then [] else ["sudo".toList, "-n".toList]

/-- The words of the command that installs. -/
def installWords (target : SshTarget) (script bundle sums : Text) : List Text :=
  privilegeWords target ++
    ["sh".toList, script, "--archive".toList, bundle, "--checksum".toList, sums]

/-- A name that the bootstrap can use in its commands. -/
structure SafeTempDir (dir : Text) : Prop where
  /-- The name is absolute and has no `..`. -/
  strictlyBelow : StrictlyBelow "tmp".toList dir
  components : ∃ component rest, normalise dir = "tmp".toList :: component :: rest ∧
    "rackio-bootstrap.".toList <+: component
  plain : Plain dir
  cleanup : commands (cleanupCommand dir) =
    some [["rm".toList, "-rf".toList, "--".toList, dir]]
  install : ∀ target installer archive checksum line,
    installCommand target dir installer archive checksum = .ok line →
      ∃ script bundle sums,
        commands line =
          some [["set".toList, "-eu".toList], installWords target script bundle sums] ∧
        ∀ path ∈ [script, bundle, sums], dir <+: path ∧ StrictlyBelow "tmp".toList path
  upload : ∀ checkFile target, validateTarget checkFile target = .ok () →
    scpPath false (scpDestination target dir) = some (dir ++ "/".toList)
  uploadPath : Plain (dir ++ "/".toList) ∧ StrictlyBelow "tmp".toList (dir ++ "/".toList)

section
variable {dir path : Text} {c : Char}

theorem validateRemoteTempDir_eq_ok_iff :
    validateRemoteTempDir path = .ok () ↔
      tempDirPrefix <+: path ∧ (∀ c ∈ path, isTempDirChar c = true) ∧
        "..".toList ∉ split '/' path := by
  unfold validateRemoteTempDir
  split
  · next h =>
    refine iff_of_false nofun ?_
    rintro ⟨hstart, hchars, hparent⟩
    rcases h with h | h | h
    · exact h (List.isPrefixOf_iff_prefix.2 hstart)
    · obtain ⟨c, hc, hbad⟩ := List.any_eq_true.1 h
      rw [hchars c hc] at hbad
      cases hbad
    · obtain ⟨component, hmem, heq⟩ := List.any_eq_true.1 h
      exact hparent (of_decide_eq_true heq ▸ hmem)
  · next h =>
    rw [not_or, not_or, not_not] at h
    refine iff_of_true rfl ⟨List.isPrefixOf_iff_prefix.1 h.1, fun c hc => ?_, fun hmem => ?_⟩
    · by_contra hbad
      exact h.2.1 (List.any_eq_true.2 ⟨c, hc, by simpa using hbad⟩)
    · exact h.2.2 (List.any_eq_true.2 ⟨_, hmem, decide_eq_true rfl⟩)

/-- A letter or a digit stands for itself. -/
theorem isLiteral_of_isAsciiAlphanumeric (h : isAsciiAlphanumeric c = true) :
    isLiteral c = true := by
  have hspecial : special.all fun d => !isAsciiAlphanumeric d := by decide
  refine decide_eq_true fun hmem => ?_
  have hnot := List.all_eq_true.1 hspecial c hmem
  rw [h] at hnot
  cases hnot

/-- So does a character of a name. -/
theorem isLiteral_of_isTempDirChar (h : isTempDirChar c = true) : isLiteral c = true := by
  have hothers : "/._-".toList.all isLiteral := by decide
  rcases Bool.or_eq_true_iff.1 h with h | h
  · exact isLiteral_of_isAsciiAlphanumeric h
  · exact List.all_eq_true.1 hothers c (of_decide_eq_true h)

/-- So does a character of the name of a file. -/
theorem isLiteral_of_isFileNameChar (h : isFileNameChar c = true) : isLiteral c = true := by
  refine isLiteral_of_isTempDirChar (Bool.or_eq_true_iff.2 ?_)
  rcases Bool.or_eq_true_iff.1 h with h | h
  · exact .inl h
  · exact .inr (decide_eq_true (List.mem_cons_of_mem _ (of_decide_eq_true h)))

/-- A name that is accepted is one word. -/
theorem plain_of_validateRemoteTempDir (h : validateRemoteTempDir dir = .ok ()) : Plain dir := by
  obtain ⟨⟨tail, rfl⟩, hchars, -⟩ := validateRemoteTempDir_eq_ok_iff.1 h
  exact ⟨List.cons_ne_nil _ _, fun c hc => isLiteral_of_isTempDirChar (hchars c hc)⟩

/-- A name that is accepted leads below `/tmp`, to a component with the right start. -/
theorem components_of_validateRemoteTempDir (h : validateRemoteTempDir dir = .ok ()) :
    ∃ component rest, normalise dir = "tmp".toList :: component :: rest ∧
      "rackio-bootstrap.".toList <+: component := by
  obtain ⟨⟨tail, rfl⟩, -, -⟩ := validateRemoteTempDir_eq_ok_iff.1 h
  obtain ⟨first, more, hsplit⟩ := exists_splitFrom_eq '/' tail
  have hpieces : split '/' (tempDirPrefix ++ tail) =
      [] :: "tmp".toList :: ("rackio-bootstrap.".toList ++ first) :: more :=
    calc split '/' (tempDirPrefix ++ tail)
        = [] :: "tmp".toList :: splitFrom '/' "rackio-bootstrap.".toList tail := rfl
      _ = _ := by rw [hsplit]
  refine ⟨"rackio-bootstrap.".toList ++ first,
    more.filter fun component => component ≠ [] ∧ component ≠ ['.'], ?_, List.prefix_append _ _⟩
  unfold normalise
  rw [hpieces]
  rfl

/-- So it leads strictly below it. -/
theorem strictlyBelow_of_validateRemoteTempDir (h : validateRemoteTempDir dir = .ok ()) :
    StrictlyBelow "tmp".toList dir := by
  obtain ⟨component, rest, hbelow, -⟩ := components_of_validateRemoteTempDir h
  obtain ⟨⟨tail, rfl⟩, -, hparent⟩ := validateRemoteTempDir_eq_ok_iff.1 h
  exact ⟨rfl, ⟨component, rest, hbelow⟩, hparent⟩

/-- A file name that is accepted is made of literal characters. -/
theorem shellFilename_eq_ok {fileName : Option NormalComponent} {name : NormalComponent}
    (h : shellFilename fileName = .ok name) : ∀ c ∈ name.text, isLiteral c = true := by
  cases fileName with
  | none => cases h
  | some given =>
    unfold shellFilename at h
    dsimp only at h
    split at h
    · next hname =>
      cases h
      exact fun c hc => isLiteral_of_isFileNameChar (List.all_eq_true.1 hname.2 c hc)
    · cases h

/-- A file in the directory is one word, and strictly below `/tmp`. -/
theorem file_of_validateRemoteTempDir (h : validateRemoteTempDir dir = .ok ())
    {name : NormalComponent} (hname : ∀ c ∈ name.text, isLiteral c = true) :
    Plain (dir ++ '/' :: name.text) ∧ StrictlyBelow "tmp".toList (dir ++ '/' :: name.text) := by
  refine ⟨(plain_of_validateRemoteTempDir h).append (List.forall_mem_cons.2 ⟨by decide, hname⟩),
    (strictlyBelow_of_validateRemoteTempDir h).append ?_⟩
  rw [split_eq_singleton name.noSlash, List.mem_singleton]
  exact name.notParent.symm

/-- The command that cleans up has the directory as its one operand. -/
theorem commands_cleanupCommand (h : Plain dir) :
    commands (cleanupCommand dir) = some [["rm".toList, "-rf".toList, "--".toList, dir]] := by
  have hline : cleanupCommand dir = unwords ["rm".toList, "-rf".toList, "--".toList, dir] := rfl
  rw [hline, commands_unwords (List.cons_ne_nil _ _)]
  simp only [List.forall_mem_cons]
  exact ⟨by decide, by decide, by decide, h, nofun⟩

/-- They are plain where the files are. -/
theorem plain_installWords (target : SshTarget) {script bundle sums : Text}
    (hscript : Plain script) (hbundle : Plain bundle) (hsums : Plain sums) :
    ∀ w ∈ installWords target script bundle sums, Plain w := by
  refine List.forall_mem_append.2 ⟨?_, ?_⟩
  · unfold privilegeWords
    split
    · nofun
    · simp only [List.forall_mem_cons]
      exact ⟨by decide, by decide, nofun⟩
  · simp only [List.forall_mem_cons]
    exact ⟨by decide, hscript, by decide, hbundle, by decide, hsums, nofun⟩

/-- The command that installs names three files in the directory. -/
theorem commands_installCommand (h : validateRemoteTempDir dir = .ok ()) {target : SshTarget}
    {installer archive checksum : Option NormalComponent} {line : Text}
    (hline : installCommand target dir installer archive checksum = .ok line) :
    ∃ script bundle sums,
      commands line =
        some [["set".toList, "-eu".toList], installWords target script bundle sums] ∧
      ∀ path ∈ [script, bundle, sums], dir <+: path ∧ StrictlyBelow "tmp".toList path := by
  unfold installCommand at hline
  obtain ⟨script, hscript, hline⟩ := Outcome.bind_eq_ok_iff.1 hline
  obtain ⟨bundle, hbundle, hline⟩ := Outcome.bind_eq_ok_iff.1 hline
  obtain ⟨sums, hsums, hline⟩ := Outcome.bind_eq_ok_iff.1 hline
  obtain ⟨hscriptPlain, hscriptBelow⟩ :=
    file_of_validateRemoteTempDir h (shellFilename_eq_ok hscript)
  obtain ⟨hbundlePlain, hbundleBelow⟩ :=
    file_of_validateRemoteTempDir h (shellFilename_eq_ok hbundle)
  obtain ⟨hsumsPlain, hsumsBelow⟩ := file_of_validateRemoteTempDir h (shellFilename_eq_ok hsums)
  refine ⟨dir ++ '/' :: script.text, dir ++ '/' :: bundle.text, dir ++ '/' :: sums.text, ?_, ?_⟩
  · have htext : line = unwords ["set".toList, "-eu".toList] ++ ';' :: ' ' ::
        unwords (installWords target (dir ++ '/' :: script.text) (dir ++ '/' :: bundle.text)
          (dir ++ '/' :: sums.text)) := by
      cases hline
      unfold installWords privilege privilegeWords
      split
      · simp [unwords]
      · simp [unwords]
    have hset : ∀ w ∈ ["set".toList, "-eu".toList], Plain w := by
      simp only [List.forall_mem_cons]
      exact ⟨by decide, by decide, List.forall_mem_nil _⟩
    rw [htext, commands, commandsFrom_semicolon (List.cons_ne_nil _ _) hset, commandsFrom,
      if_pos rfl, endWord, if_pos rfl,
      commandsFrom_last (by simp [installWords])
        (plain_installWords target hscriptPlain hbundlePlain hsumsPlain)]
    rfl
  · simp only [List.forall_mem_cons]
    exact ⟨⟨List.prefix_append _ _, hscriptBelow⟩, ⟨List.prefix_append _ _, hbundleBelow⟩,
      ⟨List.prefix_append _ _, hsumsBelow⟩, List.forall_mem_nil _⟩

/-- The characters of a valid target. -/
theorem chars_of_validateTarget {checkFile : Text → Except String Unit} {target : SshTarget}
    (h : validateTarget checkFile target = .ok ()) :
    (∀ c ∈ target.host, isHostChar c = true) ∧ ∀ c ∈ target.user, isUserChar c = true := by
  unfold validateTarget at h
  split at h
  · cases h
  · next hhost =>
    split at h
    · cases h
    · next huser =>
      exact ⟨List.all_eq_true.1 (not_not.1 (not_or.1 (not_or.1 hhost).2).2),
        List.all_eq_true.1 (not_not.1 (not_or.1 (not_or.1 huser).2).2)⟩

/-- Characters that end nothing are skipped. -/
theorem scpPath_append {bracketed : Bool} {w rest : Text}
    (h : ∀ c ∈ w, (c = ':' → bracketed = true) ∧ c ≠ '/' ∧ c ≠ '[' ∧ c ≠ ']') :
    scpPath bracketed (w ++ rest) = scpPath bracketed rest := by
  induction w with
  | nil => rfl
  | cons c w ih =>
    obtain ⟨hcolon, hslash, hopen, hclose⟩ := h c (.head _)
    have hfirst : ¬(c = ':' ∧ (!bracketed) = true) := by
      rintro ⟨hc, hout⟩
      rw [hcolon hc] at hout
      cases hout
    have hkept : (decide (c = '[') || bracketed && decide (c ≠ ']')) = bracketed := by
      simp [hopen, hclose]
    rw [List.cons_append, scpPath, if_neg hfirst, if_neg hslash, hkept,
      ih fun d hd => h d (.tail _ hd)]

/-- The path of the destination is the directory. -/
theorem scpPath_scpDestination {checkFile : Text → Except String Unit} {target : SshTarget}
    (h : validateTarget checkFile target = .ok ()) :
    scpPath false (scpDestination target dir) = some (dir ++ "/".toList) := by
  obtain ⟨hhost, huser⟩ := chars_of_validateTarget h
  have hne : ∀ {c d : Char} {p : Char → Bool}, p c = true → p d = false → c ≠ d := by
    rintro c d p hc hd rfl
    rw [hc] at hd
    cases hd
  have hname : ∀ c ∈ target.host, c ≠ '/' ∧ c ≠ '[' ∧ c ≠ ']' := fun c hc =>
    ⟨hne (hhost c hc) (by decide), hne (hhost c hc) (by decide), hne (hhost c hc) (by decide)⟩
  have hlogin : ∀ c ∈ target.user, (c = ':' → false = true) ∧ c ≠ '/' ∧ c ≠ '[' ∧ c ≠ ']' :=
    fun c hc => ⟨fun heq => absurd heq (hne (huser c hc) (by decide)),
      hne (huser c hc) (by decide), hne (huser c hc) (by decide), hne (huser c hc) (by decide)⟩
  unfold scpDestination remoteTarget
  split
  · simp only [List.append_assoc]
    rw [scpPath_append hlogin]
    show scpPath true (target.host ++ _) = _
    rw [scpPath_append fun c hc => ⟨fun _ => rfl, hname c hc⟩]
    rfl
  · next hcolon =>
    simp only [List.append_assoc]
    rw [scpPath_append hlogin]
    show scpPath false (target.host ++ _) = _
    rw [scpPath_append fun c hc => ⟨fun heq => absurd (heq ▸ hc) hcolon, hname c hc⟩]
    rfl

/-- A name that is accepted can be used. -/
theorem safeTempDir_of_validateRemoteTempDir (h : validateRemoteTempDir dir = .ok ()) :
    SafeTempDir dir where
  strictlyBelow := strictlyBelow_of_validateRemoteTempDir h
  components := components_of_validateRemoteTempDir h
  plain := plain_of_validateRemoteTempDir h
  cleanup := commands_cleanupCommand (plain_of_validateRemoteTempDir h)
  install _ _ _ _ _ hline := commands_installCommand h hline
  upload _ _ htarget := scpPath_scpDestination htarget
  uploadPath :=
    ⟨(plain_of_validateRemoteTempDir h).append (by simp; decide),
      (strictlyBelow_of_validateRemoteTempDir h).append (by decide)⟩

/-- What `mktemp -d /tmp/rackio-bootstrap.XXXXXX` names is accepted. -/
theorem validateRemoteTempDir_mktemp {name : Text}
    (h : ∀ c ∈ name, isAsciiAlphanumeric c = true) :
    validateRemoteTempDir (tempDirPrefix ++ name) = .ok () := by
  rw [validateRemoteTempDir_eq_ok_iff]
  refine ⟨List.prefix_append _ _, List.forall_mem_append.2 ⟨?_, ?_⟩, ?_⟩
  · exact List.all_eq_true.1 (show tempDirPrefix.all isTempDirChar by decide)
  · exact fun c hc => Bool.or_eq_true_iff.2 (.inl (h c hc))
  · have hslash : '/' ∉ "rackio-bootstrap.".toList ++ name := by
      intro hmem
      rcases List.mem_append.1 hmem with hmem | hmem
      · exact absurd hmem (by decide)
      · exact absurd (h _ hmem) (by decide)
    have hsplit : split '/' (tempDirPrefix ++ name) =
        [[], "tmp".toList, "rackio-bootstrap.".toList ++ name] :=
      calc split '/' (tempDirPrefix ++ name)
          = [] :: "tmp".toList :: split '/' ("rackio-bootstrap.".toList ++ name) := rfl
        _ = _ := by rw [split_eq_singleton hslash]
    rw [hsplit]
    simp

end

/-- A name that is accepted cannot lead out of `/tmp`, and what `mktemp` names is accepted. -/
theorem validateRemoteTempDir_safe :
    (∀ dir, validateRemoteTempDir dir = .ok () → SafeTempDir dir) ∧
      ∀ name : Text, name.length = 6 → (∀ c ∈ name, isAsciiAlphanumeric c = true) →
        validateRemoteTempDir (tempDirPrefix ++ name) = .ok () :=
  ⟨fun _ => safeTempDir_of_validateRemoteTempDir, fun _ _ => validateRemoteTempDir_mktemp⟩

end Rackio
