import Rackio.Desktop.SshBootstrap

/-!
# The courses of a bootstrap

A `Course` is what a bootstrap may be seen to do: it stops before anything is trusted; or it trusts
the keys that the operator confirmed and stops on the way to a temporary directory; or it works in
that directory, and removes it, however the work went. `course_bootstrap`: whatever the world
answers, what `bootstrap` does is a course.

So no command reaches a machine before the confirmed keys, and no others, were added to the
known_hosts file that was found, and each is bound to that file (`commands_trusted`); a directory
that was uploaded to is removed at the end (`directory_removed`); and a bootstrap that succeeds has
shown all six stages, in their order, and one that fails has not (`stages_in_order`).
-/

namespace Rackio

namespace SshBootstrap

open Text Shell Script

/-! ## Courses -/

/-- A known_hosts file that trusts the keys the operator has confirmed, beside those of the file
before it. -/
structure Trusted (request : SshBootstrapRequest) (path existing file : Text) : Prop where
  valid : Rackio.validateTarget (fun _ => .ok ()) request.target = .ok ()
  confirmed : ∃ stdout hostKeys,
    inspectHostKeys request.target stdout = .ok hostKeys ∧
    normalizedKeySet request.acceptedHostKeys = normalizedKeySet hostKeys ∧
    Rackio.persistKnownHosts (String.ofList path) (.ok ()) existing hostKeys = .ok file

section
variable (request : SshBootstrapRequest) (path existing file dir installer : Text)
  (line : Except String Text)

/-- The way from trust to a temporary directory. -/
def access : List Effect :=
  [.stage "checking_access", .remote (sshArgs request.target path preflightCommand),
    .stage "uploading", .remote (sshArgs request.target path mktempCommand)]

/-- The way to a temporary directory. -/
def opening : List Effect :=
  .stage "checking_host_key" :: .found path existing :: .trusted path file ::
    access request path

/-- The work in the directory; `line` is the command that installs, if the names of the files are
safe. -/
def work : List Effect :=
  [.upload (scpArgs request.target path [request.archivePath, request.checksumPath, installer] dir),
    .stage "installing"] ++
    match line with
    | .ok command => [.remote (sshArgs request.target path command), .stage "pairing",
        .remote (sshArgs request.target path (pairingCommand request.target))]
    | .error _ => []

/-- The end of the work. -/
def cleanup : Effect := .remote (sshArgs request.target path (cleanupCommand dir))

end

/-- The command that installs in a directory. -/
abbrev installLine (fileName : Text → Option NormalComponent) (request : SshBootstrapRequest)
    (dir installer : Text) : Except String Text :=
  installCommand request.target dir (fileName installer) (fileName request.archivePath)
    (fileName request.checksumPath)

/-- `ssh` was not found when it was looked for. -/
def SshGone (history : History) : Prop := (⟨.version "ssh", false⟩ : Exchange _ _) ∈ history

/-- What a bootstrap may be seen to do, and its outcome; `gone` is whether `ssh` was ever
missing. -/
inductive Course (fileName : Text → Option NormalComponent) (request : SshBootstrapRequest)
    (gone : Prop) : List Effect → Except String SshBootstrapResult → Prop
  | untrusted {path existing : Text} {done : List Effect} {e : String} :
    done <+: [.stage "checking_host_key", .found path existing] →
      Course fileName request gone done (.error e)
  | opened {path existing file : Text} {done : List Effect} {e : String} :
    Trusted request path existing file → done <+: opening request path existing file →
      Course fileName request gone done (.error e)
  | worked {path existing file dir installer : Text} {done cleaned : List Effect} {e : String} :
    Trusted request path existing file → validateRemoteTempDir dir = .ok () →
      done <+: work request path dir installer (installLine fileName request dir installer) →
      (cleaned = [cleanup request path dir] ∨ gone ∧ cleaned = []) →
      Course fileName request gone (opening request path existing file ++ done ++ cleaned)
        (.error e)
  | finished {path existing file dir installer line : Text} {cleaned : List Effect}
    {result : SshBootstrapResult} :
    Trusted request path existing file → validateRemoteTempDir dir = .ok () →
      installLine fileName request dir installer = .ok line →
      (cleaned = [cleanup request path dir] ∨ gone ∧ cleaned = []) →
      bundlePrefix.toList <+: result.pairingBundle.toList →
      Course fileName request gone (opening request path existing file ++
        work request path dir installer (.ok line) ++ cleaned ++ [.stage "connecting_p2p"])
        (.ok result)

/-! ## What each part does -/

/-- From the effects `l`, the script goes on to `m` and has a value with this fact, or it stops at
one of the two. -/
def Goes {α : Type} (l m : List Effect) (s : Session α) (fact : α → Prop) : Prop :=
  Triple (effects · = l) s (fun a h => effects h = m ∧ fact a)
    (fun _ h => effects h = l ∨ effects h = m)

section
variable {α β : Type} {l m : List Effect} {s : Session α} {fact : α → Prop}

/-- What comes later comes last. -/
theorem effects_append (before after : History) :
    effects (before ++ after) = effects before ++ effects after := List.filterMap_append

/-- Go on from where a part ended. -/
theorem Goes.bind {f : α → Session β} {Q : β → History → Prop} {E : String → History → Prop}
    (hs : Goes l m s fact) (hf : ∀ a, fact a → Triple (effects · = m) (f a) Q E)
    (hstop : ∀ e h, effects h = l ∨ effects h = m → E e h) :
    Triple (effects · = l) (s >>= f) Q E :=
  Triple.bind (hs.adapt (fun _ h => h) (fun _ _ h => h) hstop) fun a => Triple.fact (hf a)

/-- A part of one effect after one without any. -/
theorem Goes.andThen {f : α → Session β} {fact' : β → Prop} (hs : Goes l l s fact)
    (hf : ∀ a, fact a → Goes l m (f a) fact') : Goes l m (s >>= f) fact' :=
  hs.bind hf fun _ _ h => .inl (or_self_iff.1 h)

/-- A part without effects after one that has its effect. -/
theorem Goes.before {f : α → Session β} {fact' : β → Prop} (hs : Goes l m s fact)
    (hf : ∀ a, fact a → Goes m m (f a) fact') : Goes l m (s >>= f) fact' :=
  hs.bind (fun a ha => (hf a ha).adapt (fun _ h => h) (fun _ _ h => h) fun _ _ h => .inr
    (or_self_iff.1 h)) fun _ _ h => h

/-- A value. -/
theorem goes_done {a : α} (h : fact a) : Goes l l (.done a) fact :=
  Triple.done fun _ hl => ⟨hl, h⟩

/-- A check. -/
theorem goes_lift {outcome : Except String α} : Goes l l (.lift outcome) (outcome = .ok ·) :=
  Triple.lift (fun _ _ ha hl => ⟨hl, ha⟩) fun _ _ _ hl => .inl hl

/-- A condition. -/
theorem goes_ensure {p : Prop} [Decidable p] {e : String} : Goes l l (.ensure p e) fun _ => p :=
  Triple.ensure (fun _ hp hl => ⟨hl, hp⟩) fun _ _ hl => .inl hl

/-- A weaker fact. -/
theorem Goes.weaken {fact' : α → Prop} (hs : Goes l m s fact) (h : ∀ a, fact a → fact' a) :
    Goes l m s fact' :=
  hs.adapt (fun _ hl => hl) (fun a _ hm => ⟨hm.1, h a hm.2⟩) fun _ _ hl => hl

/-- A question whose answers have no effect. -/
theorem goes_request {i : Ask} (h : ∀ answer, effect ⟨i, answer⟩ = none) :
    Goes l l (.request i) fun _ => True := by
  refine Triple.request fun before answer hl => ⟨?_, trivial⟩
  rw [effects_append, hl, effects, List.filterMap_cons_none (h answer), List.filterMap_nil,
    List.append_nil]

/-- A command has its effect, whatever is answered. -/
theorem triple_command {i : Ask} {shown : Effect} {E : String → History → Prop}
    (h : ∀ answer, effect ⟨i, answer⟩ = some shown) :
    Triple (effects · = l) (.request i) (fun _ h => effects h = l ++ [shown]) E := by
  refine Triple.request fun before answer hl => ?_
  rw [effects_append, hl, effects, List.filterMap_cons_some (h answer), List.filterMap_nil]

theorem goes_command {i : Ask} {shown : Effect} (h : ∀ answer, effect ⟨i, answer⟩ = some shown) :
    Goes l (l ++ [shown]) (.request i) fun _ => True :=
  (triple_command h).adapt (fun _ h => h) (fun _ _ h => ⟨h, trivial⟩) fun _ _ h => h

/-- A demand whose answers have no effect. -/
theorem goes_demand {words : String} {session : Session (Except String α)}
    (hs : Goes l m session fun _ => True) : Goes l m (demand words session) fun _ => True :=
  hs.before fun _ _ => goes_lift.weaken fun _ _ => trivial

/-- A demand whose effect shows if it is met. -/
theorem triple_demand {words : String} {session : Session (Except String α)}
    {shown : α → List Effect}
    (hs : Triple (effects · = l) session
      (fun answer h => effects h = match answer with
        | .ok a => shown a
        | .error _ => l)
      fun _ h => effects h = l) :
    Triple (effects · = l) (demand words session) (fun a h => effects h = shown a)
      fun _ h => effects h = l := by
  refine Triple.bind hs fun answer => ?_
  cases answer with
  | ok a => exact Triple.done fun _ h => h
  | error e => exact Triple.fail fun _ h => h

end

section
variable {l : List Effect} {target : SshTarget} {path : Text}

theorem goes_requireCommand {name : String} : Goes l l (requireCommand name) fun _ => True :=
  (goes_request fun _ => rfl).andThen fun _ _ => goes_ensure.weaken fun _ _ => trivial

/-- The operator sees a stage, or does not and the script stops. -/
theorem triple_sendProgress {stage detail : String} :
    Triple (effects · = l) (sendProgress stage detail) (fun _ h => effects h = l ++ [.stage stage])
      fun _ h => effects h = l := by
  refine triple_demand (Triple.request fun before answer hl => ?_)
  rw [effects_append, hl]
  cases answer with
  | ok _ => rfl
  | error _ => exact List.append_nil l

theorem goes_sendProgress {stage detail : String} :
    Goes l (l ++ [.stage stage]) (sendProgress stage detail) fun _ => True :=
  triple_sendProgress.adapt (fun _ h => h) (fun _ _ h => ⟨h, trivial⟩) fun _ _ h => .inl h

/-- A command is run on the machine. -/
theorem goes_runSsh {knownHosts command : Text} :
    Goes l (l ++ [.remote (sshArgs target knownHosts command)])
      (runSsh target knownHosts command) fun _ => True :=
  goes_requireCommand.andThen fun _ _ => goes_demand (goes_command fun _ => rfl)

/-- Files are copied to the machine. -/
theorem goes_runScp {knownHosts dir : Text} {files : List Text} :
    Goes l (l ++ [.upload (scpArgs target knownHosts files dir)])
      (runScp target knownHosts files dir) fun _ => True :=
  goes_requireCommand.andThen fun _ _ => (goes_demand (goes_command fun _ => rfl)).before
    fun _ _ => goes_lift.before fun _ _ => goes_done trivial

theorem goes_validateLocalFile {label : String} :
    Goes l l (validateLocalFile path label) (· = path) :=
  (goes_demand (goes_request fun _ => rfl)).before fun _ _ =>
    goes_ensure.before fun _ _ => goes_done rfl

theorem goes_validateTarget :
    Goes l l (validateTarget target)
      fun _ => Rackio.validateTarget (fun _ => .ok ()) target = .ok () := by
  refine goes_lift.before fun _ hvalid => ?_
  split
  · exact goes_validateLocalFile.before fun _ _ => goes_done hvalid
  · exact goes_done hvalid

/-- The host keys that are returned are those of some scan. -/
theorem goes_inspectHost :
    Goes l l (inspectHost target)
      fun identity => ∃ stdout, inspectHostKeys target stdout = .ok identity.hostKeys :=
  goes_validateTarget.before fun _ _ => goes_requireCommand.before fun _ _ =>
    goes_requireCommand.before fun _ _ => (goes_demand (goes_request fun _ => rfl)).before
      fun _ _ => goes_lift.before fun stdout _ => goes_lift.before fun _ hkeys =>
        (goes_demand (goes_request fun _ => rfl)).before fun _ _ =>
          goes_lift.before fun _ _ => goes_done ⟨stdout, hkeys⟩

/-- The content is that of the known_hosts file, or the script stops. -/
theorem triple_saveKnownHosts {content : Text} :
    Triple (effects · = l) (demand "" (.request (Ask.saveKnownHosts path content)))
      (fun _ h => effects h = l ++ [.trusted path content]) fun _ h => effects h = l := by
  refine triple_demand (Triple.request fun before answer hl => ?_)
  rw [effects_append, hl]
  cases answer with
  | ok _ => rfl
  | error _ => exact List.append_nil l

/-- The known_hosts file is found as it is, or the script stops. -/
theorem triple_readKnownHosts {words : String} :
    Triple (effects · = l) (demand words (.request (Ask.readKnownHosts path)))
      (fun content h => effects h = l ++ [.found path (content.getD [])])
      fun _ h => effects h = l := by
  refine triple_demand (Triple.request fun before answer hl => ?_)
  rw [effects_append, hl]
  cases answer with
  | ok _ => rfl
  | error _ => exact List.append_nil l

/-- The keys are trusted in a file that is merged with the one that was found. -/
theorem triple_persistKnownHosts {keys : List Text} :
    Triple (effects · = l) (persistKnownHosts keys)
      (fun path h => ∃ existing file,
        effects h = l ++ [.found path existing, .trusted path file] ∧
        Rackio.persistKnownHosts (String.ofList path) (.ok ()) existing keys = .ok file)
      fun _ h => effects h = l ∨ ∃ path existing, effects h = l ++ [.found path existing] := by
  refine (goes_demand (goes_request fun _ => rfl)).bind (fun path _ => ?_)
    fun _ _ hl => .inl (or_self_iff.1 hl)
  refine Triple.bind (triple_readKnownHosts.adapt (fun _ hl => hl) (fun _ _ hl => hl)
    fun _ _ hl => .inl hl) fun content => ?_
  have found : ∀ (e : String) (h : History),
      effects h = l ++ [.found path (content.getD [])] ∨
        effects h = l ++ [.found path (content.getD [])] →
      effects h = l ∨ ∃ path existing, effects h = l ++ [.found path existing] :=
    fun _ _ hl => .inr ⟨path, _, or_self_iff.1 hl⟩
  refine goes_lift.bind (fun file hfile => ?_) found
  refine Triple.bind (triple_saveKnownHosts.adapt (fun _ hl => hl) (fun _ _ hl => hl)
    fun e h hl => found e h (.inl hl)) fun _ => Triple.done fun h hl => ⟨_, file, ?_, hfile⟩
  rw [hl, List.append_assoc]
  rfl

/-- The last command on the machine is run, or `ssh` is gone. -/
theorem triple_cleanup {request : SshBootstrapRequest} {dir : Text}
    {E : String → History → Prop} :
    Triple (effects · = l) (runSsh request.target path (cleanupCommand dir)).attempt
      (fun _ h => ∃ cleaned, effects h = l ++ cleaned ∧
        (cleaned = [cleanup request path dir] ∨ SshGone h ∧ cleaned = [])) E := by
  have hrun : Triple (effects · = l) (demand "Could not start SSH: "
      (.request (Ask.ssh (sshArgs request.target path (cleanupCommand dir)))))
      (fun _ h => effects h = l ++ [cleanup request path dir])
      fun _ h => effects h = l ++ [cleanup request path dir] :=
    Triple.bind (triple_command fun _ => rfl) fun _ =>
      Triple.lift (fun _ _ _ h => h) fun _ _ _ h => h
  have hfound : Triple (effects · = l) (requireCommand "ssh") (fun _ h => effects h = l)
      fun _ h => effects h = l ∧ SshGone h := by
    refine Triple.bind (Q := fun found h => effects h = l ∧ (found = false → SshGone h))
      (Triple.request fun before found hl => ⟨?_, fun hfound => ?_⟩) fun found => ?_
    · rw [effects_append, hl]
      exact List.append_nil l
    · exact List.mem_append_right _ (hfound ▸ List.mem_cons_self)
    · refine Triple.ensure (fun _ _ h => h.1) fun _ hmissing h => ⟨h.1, h.2 ?_⟩
      exact Bool.eq_false_of_not_eq_true hmissing
  refine Triple.attempt (Triple.bind (hfound.adapt (fun _ h => h) (fun _ _ h => h)
    fun _ h hgone => ?_) fun _ => hrun.adapt (fun _ h => h) (fun _ _ h => ?_) fun _ _ h => ?_)
  · exact ⟨[], by rw [hgone.1, List.append_nil], .inr ⟨hgone.2, rfl⟩⟩
  · exact ⟨_, h, .inl rfl⟩
  · exact ⟨_, h, .inl rfl⟩

end

/-! ## The whole bootstrap -/

section
variable {φ : Type} {parse : Text → Except String (Json φ)}
  {fileName : Text → Option NormalComponent} {request : SshBootstrapRequest}
  {path existing file dir installer : Text}

/-- A bundle that is extracted starts as one. -/
theorem prefix_of_extractPairingBundle {output : Text} {bundle : String}
    (h : extractPairingBundle parse output = .ok bundle) :
    bundlePrefix.toList <+: bundle.toList := by
  obtain ⟨response, -, h⟩ := Outcome.bind_eq_ok_iff.1 h
  split at h
  · split at h
    · split at h
      · next hstart =>
        cases h
        exact List.isPrefixOf_iff_prefix.1 hstart
      · cases h
    · cases h
  · split at h
    · cases h
    · cases h

/-- The work went through its effects in their order, and got to its end if it has a value. -/
def Worked (fileName : Text → Option NormalComponent) (request : SshBootstrapRequest)
    (path existing file dir installer : Text) : Except String String → History → Prop
  | .ok bundle, h => ∃ line, effects h = opening request path existing file ++
      work request path dir installer (.ok line) ∧
      installLine fileName request dir installer = .ok line ∧
        bundlePrefix.toList <+: bundle.toList
  | .error _, h => ∃ done, effects h = opening request path existing file ++ done ∧
      done <+: work request path dir installer (installLine fileName request dir installer)

/-- What an attempt of the work does. -/
theorem triple_performRemoteInstall {E : String → History → Prop} :
    Triple (effects · = opening request path existing file)
      (performRemoteInstall parse fileName request path dir request.archivePath
        request.checksumPath installer).attempt
      (Worked fileName request path existing file dir installer) E := by
  apply Triple.attempt
  unfold Worked performRemoteInstall installLine
  generalize installCommand request.target dir (fileName installer) (fileName request.archivePath)
    (fileName request.checksumPath) = line
  have stopped : ∀ n m (h : History),
      effects h =
          opening request path existing file ++ (work request path dir installer line).take n ∨
        effects h =
          opening request path existing file ++ (work request path dir installer line).take m →
      ∃ done, effects h = opening request path existing file ++ done ∧
        done <+: work request path dir installer line := by
    rintro n m h (h | h)
    · exact ⟨_, h, List.take_prefix n _⟩
    · exact ⟨_, h, List.take_prefix m _⟩
  refine goes_runScp.bind (fun _ _ => ?_) fun _ => stopped 0 1
  refine goes_sendProgress.bind (fun _ _ => ?_) fun _ => stopped 1 2
  refine goes_lift.bind (fun command hcommand => ?_) fun _ => stopped 2 2
  cases hcommand
  refine goes_runSsh.bind (fun output _ => ?_) fun _ => stopped 2 3
  refine goes_lift.bind (fun _ _ => ?_) fun _ => stopped 3 3
  refine goes_sendProgress.bind (fun _ _ => ?_) fun _ => stopped 3 4
  refine goes_runSsh.bind (fun output _ => ?_) fun _ => stopped 4 5
  refine goes_lift.bind (fun text _ => ?_) fun _ => stopped 5 5
  refine goes_lift.adapt (fun _ h => h) (fun bundle h hbundle => ?_) fun _ => stopped 5 5
  exact ⟨_, hbundle.1, rfl, prefix_of_extractPairingBundle hbundle.2⟩

/-- The end of the bootstrap after its work: the last stage is shown and the result returned. -/
theorem triple_finish {l : List Effect} {bundle : String} {platform : Text} :
    Triple (effects · = l)
      (do
        let pairingBundle ← .lift (.ok bundle)
        sendProgress "connecting_p2p"
          "Switching from SSH installation to the encrypted P2P connection"
        return (⟨pairingBundle, platform⟩ : SshBootstrapResult))
      (fun result h => effects h = l ++ [.stage "connecting_p2p"] ∧
        result.pairingBundle = bundle)
      fun _ h => effects h = l := by
  refine goes_lift.bind (fun read hread => ?_) fun _ _ h => or_self_iff.1 h
  cases hread
  refine Triple.bind triple_sendProgress fun _ => Triple.done fun _ h => ⟨h, rfl⟩

/-- Once `ssh` was gone, it was. -/
theorem SshGone.append {before : History} (h : SshGone before) (trace : History) :
    SshGone (before ++ trace) := List.mem_append_left _ h

/-- Whatever the world answers, what a bootstrap does is a course. -/
theorem course_bootstrap :
    Triple (· = []) (bootstrap parse fileName request)
      (fun result h => Course fileName request (SshGone h) (effects h) (.ok result))
      fun e h => Course fileName request (SshGone h) (effects h) (.error e) := by
  have early : ∀ n m e (h : History),
      effects h = [Effect.stage "checking_host_key"].take n ∨
        effects h = [Effect.stage "checking_host_key"].take m →
      Course fileName request (SshGone h) (effects h) (.error e) := by
    have untrusted : ∀ n, [Effect.stage "checking_host_key"].take n <+:
        [.stage "checking_host_key", .found [] []] := fun n =>
      (List.take_prefix n _).trans ⟨[.found [] []], rfl⟩
    rintro n m e h (h' | h')
    · exact h' ▸ .untrusted (untrusted n)
    · exact h' ▸ .untrusted (untrusted m)
  have late : ∀ {path existing file}, Trusted request path existing file →
      ∀ n m e (h : History),
      effects h = (opening request path existing file).take n ∨
        effects h = (opening request path existing file).take m →
      Course fileName request (SshGone h) (effects h) (.error e) := by
    rintro path existing file htrusted n m e h (h' | h')
    · exact h' ▸ .opened htrusted (List.take_prefix n _)
    · exact h' ▸ .opened htrusted (List.take_prefix m _)
  refine Triple.adapt (P := (effects · = [])) ?_ (fun h hh => hh ▸ rfl) (fun _ _ h => h)
    fun _ _ h => h
  unfold bootstrap
  refine goes_validateTarget.bind (fun _ hvalid => ?_) (early 0 0)
  refine goes_validateLocalFile.bind (fun archive harchive => ?_) (early 0 0)
  refine goes_validateLocalFile.bind (fun checksum hchecksum => ?_) (early 0 0)
  subst harchive hchecksum
  refine goes_ensure.bind (fun _ _ => ?_) (early 0 0)
  refine goes_sendProgress.bind (fun _ _ => ?_) (early 0 1)
  refine goes_inspectHost.bind (fun identity hidentity => ?_) (early 1 1)
  obtain ⟨stdout, hkeys⟩ := hidentity
  refine goes_ensure.bind (fun _ haccepted => ?_) (early 1 1)
  refine Triple.bind (triple_persistKnownHosts.adapt (fun _ h => h) (fun _ _ h => h)
    fun e h hh => ?_) fun path => ?_
  · rcases hh with hh | ⟨path, existing, hh⟩
    · exact early 1 1 e h (.inl hh)
    · exact hh ▸ .untrusted List.prefix_rfl
  refine Triple.exists fun existing => Triple.exists fun file => Triple.fact fun hfile => ?_
  have htrusted : Trusted request path existing file :=
    ⟨hvalid, stdout, identity.hostKeys, hkeys, haccepted, hfile⟩
  refine goes_sendProgress.bind (fun _ _ => ?_) (late htrusted 3 4)
  refine goes_runSsh.bind (fun _ _ => ?_) (late htrusted 4 5)
  refine goes_lift.bind (fun platform _ => ?_) (late htrusted 5 5)
  refine goes_sendProgress.bind (fun _ _ => ?_) (late htrusted 5 6)
  refine goes_runSsh.bind (fun _ _ => ?_) (late htrusted 6 7)
  refine goes_lift.bind (fun dir _ => ?_) (late htrusted 7 7)
  refine goes_lift.bind (fun _ hdir => ?_) (late htrusted 7 7)
  refine (goes_demand (goes_request fun _ => rfl)).bind (fun installer _ => ?_) (late htrusted 7 7)
  refine Triple.bind triple_performRemoteInstall fun result => ?_
  cases result with
  | ok bundle =>
    refine Triple.exists fun line => Triple.fact fun hline => ?_
    obtain ⟨hinstall, hstart⟩ := hline
    refine Triple.bind triple_cleanup fun _ => Triple.exists fun cleaned => ?_
    refine (triple_finish.frame fun before trace => ?_).adapt (fun _ h => h)
      (fun result h hdone => ?_) fun e h hdone => ?_
    · exact Or.imp_right fun hgone => ⟨hgone.1.append trace, hgone.2⟩
    · obtain ⟨⟨heffects, rfl⟩, hcleaned⟩ := hdone
      rw [heffects]
      exact .finished htrusted hdir hinstall hcleaned hstart
    · rw [hdone.1]
      exact .worked htrusted hdir ⟨[], by rw [List.append_nil, hinstall]⟩ hdone.2
  | error e =>
    refine Triple.exists fun done => Triple.fact fun hdone => ?_
    refine Triple.bind triple_cleanup fun _ => Triple.exists fun cleaned => ?_
    refine Triple.fail fun h hcleaned => ?_
    rw [hcleaned.1]
    exact .worked htrusted hdir hdone hcleaned.2

end

/-! ## What every course keeps -/

/-- The arguments of what is run on the machine or copied to it. -/
def Effect.args : Effect → Option (List Text)
  | .remote args | .upload args => some args
  | _ => none

/-- The stages the operator saw. -/
def stages (l : List Effect) : List String :=
  l.filterMap fun
    | .stage name => some name
    | _ => none

/-- The commands that were run on the machine. -/
def remotes (l : List Effect) : List (List Text) :=
  l.filterMap fun
    | .remote args => some args
    | _ => none

/-- The stages of a bootstrap that succeeds. -/
def allStages : List String :=
  ["checking_host_key", "checking_access", "uploading", "installing", "pairing", "connecting_p2p"]

/-- The lines of a file are the host keys of the file before it and those that the operator has
confirmed. -/
def Confirmed (request : SshBootstrapRequest) (existing file : Text) : Prop :=
  ∀ line, line ∈ lines file ↔ line ∈ (keptLines existing).keys ∨
    line ∈ (normalizedKeySet request.acceptedHostKeys).keys

/-- Nothing reaches the machine before the known_hosts file was found and the confirmed keys were
added to it, and everything is bound to that file. -/
def OnlyTrusted (request : SshBootstrapRequest) (l : List Effect) : Prop :=
  ∀ before e after args, l = before ++ e :: after → e.args = some args →
    ∃ path existing file, [.found path existing, .trusted path file] <:+: before ∧
      Confirmed request existing file ∧ hostOptions request.target path <:+: args

/-- A command that a machine may be told: one of three that are fixed, or one about a temporary
directory that is safe. -/
def KnownCommand (fileName : Text → Option NormalComponent) (request : SshBootstrapRequest)
    (command : Text) : Prop :=
  command ∈ [preflightCommand, mktempCommand, pairingCommand request.target] ∨
    ∃ dir, SafeTempDir dir ∧ (command = cleanupCommand dir ∨
      ∃ installer, installLine fileName request dir installer = .ok command)

/-- What a machine is told, whatever it answers. -/
def OnlyKnown (fileName : Text → Option NormalComponent) (request : SshBootstrapRequest)
    (l : List Effect) : Prop :=
  ∀ args, .remote args ∈ l → ∃ path command, args = sshArgs request.target path command ∧
    KnownCommand fileName request command

/-- A directory that was uploaded to is safe, and removing it is the last command on the machine,
unless `ssh` is gone. -/
def Removed (request : SshBootstrapRequest) (gone : Prop) (l : List Effect) : Prop :=
  ∀ args, .upload args ∈ l → ∃ path dir files, SafeTempDir dir ∧
    args = scpArgs request.target path files dir ∧
      (gone ∨ (remotes l).getLast? = some (sshArgs request.target path (cleanupCommand dir)))

section
variable {fileName : Text → Option NormalComponent} {request : SshBootstrapRequest} {gone : Prop}
  {l l' : List Effect} {outcome : Except String SshBootstrapResult}
  {path existing file dir installer : Text} {line : Except String Text}

/-- A trusted file is a confirmed one. -/
theorem Trusted.confirmed_file (h : Trusted request path existing file) :
    Confirmed request existing file := by
  obtain ⟨stdout, hostKeys, hkeys, haccepted, hfile⟩ := h.confirmed
  have hretained : hostKeys = retainedScanLines request.target (lines stdout) := by
    unfold inspectHostKeys at hkeys
    dsimp only at hkeys
    split at hkeys
    · cases hkeys
    · cases hkeys
      rfl
  unfold Rackio.persistKnownHosts at hfile
  split at hfile
  · cases hfile
  · next merged hmerged =>
    cases hfile
    subst hretained
    intro line
    have hlines := lines_merged (b := ⟨request.target, stdout, [], .ok ()⟩) hmerged
    rw [hlines, mem_mergedKnownHostLines hmerged, haccepted]
    exact or_congr_right
      (mem_incomingLines_retained.trans mem_normalizedKeySet_retained.symm)

/-- An effect of a bootstrap that trusts the file at a path. -/
inductive Proper (fileName : Text → Option NormalComponent) (request : SshBootstrapRequest)
    (path : Text) : Effect → Prop
  | stage (name : String) : Proper fileName request path (.stage name)
  | remote {command : Text} : KnownCommand fileName request command →
      Proper fileName request path (.remote (sshArgs request.target path command))
  | upload {files : List Text} {dir : Text} :
      Proper fileName request path (.upload (scpArgs request.target path files dir))

/-- What follows the trust on the way to the directory. -/
theorem proper_access {e : Effect} (he : e ∈ access request path) :
    Proper fileName request path e := by
  simp only [access, List.mem_cons, List.not_mem_nil, or_false] at he
  rcases he with rfl | rfl | rfl | rfl
  · exact .stage _
  · exact .remote (.inl (by simp))
  · exact .stage _
  · exact .remote (.inl (by simp))

/-- The work. -/
theorem proper_work (hdir : validateRemoteTempDir dir = .ok ()) {e : Effect}
    (he : e ∈ work request path dir installer (installLine fileName request dir installer)) :
    Proper fileName request path e := by
  rcases List.mem_append.1 he with he | he
  · simp only [List.mem_cons, List.not_mem_nil, or_false] at he
    rcases he with rfl | rfl
    · exact .upload
    · exact .stage _
  · split at he
    · next command hcommand =>
      simp only [List.mem_cons, List.not_mem_nil, or_false] at he
      rcases he with rfl | rfl | rfl
      · exact .remote (.inr ⟨dir, safeTempDir_of_validateRemoteTempDir hdir, .inr ⟨_, hcommand⟩⟩)
      · exact .stage _
      · exact .remote (.inl (by simp))
    · cases he

/-- The cleanup, if it is run. -/
theorem proper_cleaned (hdir : validateRemoteTempDir dir = .ok ()) {cleaned : List Effect}
    (hcleaned : cleaned = [cleanup request path dir] ∨ gone ∧ cleaned = []) {e : Effect}
    (he : e ∈ cleaned) : Proper fileName request path e := by
  rcases hcleaned with rfl | ⟨-, rfl⟩
  · rw [List.mem_singleton.1 he]
    exact .remote (.inr ⟨dir, safeTempDir_of_validateRemoteTempDir hdir, .inl rfl⟩)
  · cases he

/-- A course starts with trust, or stops before. -/
theorem Course.trusts (h : Course fileName request gone l outcome) :
    (∃ path existing, l <+: [.stage "checking_host_key", .found path existing]) ∨
      ∃ path existing file rest, Trusted request path existing file ∧
        l <+: .stage "checking_host_key" :: .found path existing :: .trusted path file :: rest ∧
          ∀ e ∈ rest, Proper fileName request path e := by
  cases h with
  | untrusted hdone => exact .inl ⟨_, _, hdone⟩
  | opened htrusted hdone =>
    exact .inr ⟨_, _, _, _, htrusted, hdone, fun e he => proper_access he⟩
  | @worked path existing file dir installer done cleaned e htrusted hdir hdone hcleaned =>
    refine .inr ⟨path, existing, file, _, htrusted, ⟨[], List.append_nil _⟩, fun e he => ?_⟩
    rcases List.mem_append.1 he with he | he
    · rcases List.mem_append.1 he with he | he
      · exact proper_access he
      · exact proper_work hdir (hdone.subset he)
    · exact proper_cleaned hdir hcleaned he
  | @finished path existing file dir installer line cleaned result htrusted hdir hline hcleaned =>
    refine .inr ⟨path, existing, file, _, htrusted, ⟨[], List.append_nil _⟩, fun e he => ?_⟩
    rcases List.mem_append.1 he with he | he
    · rcases List.mem_append.1 he with he | he
      · rcases List.mem_append.1 he with he | he
        · exact proper_access he
        · exact proper_work hdir (hline ▸ he)
      · exact proper_cleaned hdir hcleaned he
    · rw [List.mem_singleton.1 he]
      exact .stage _

/-- What reaches the machine is bound to the trusted file. -/
theorem Proper.options {e : Effect} (h : Proper fileName request path e) {args : List Text}
    (hargs : e.args = some args) : hostOptions request.target path <:+: args := by
  cases h with
  | stage name => cases hargs
  | @remote command hknown =>
    cases hargs
    exact ⟨["-p".toList, portText request.target.port], [remoteTarget request.target, command],
      rfl⟩
  | @upload files dir =>
    cases hargs
    exact ⟨["-P".toList, portText request.target.port],
      files ++ [scpDestination request.target dir], rfl⟩

/-- An element with a property comes after a beginning without it. -/
theorem prefix_of_append_cons {p : Effect → Prop} {first rest before after : List Effect}
    {e : Effect} (hfirst : ∀ x ∈ first, ¬ p x) (he : p e)
    (h : before ++ e :: after <+: first ++ rest) : first <+: before ∧ e ∈ rest := by
  induction first generalizing before with
  | nil => exact ⟨List.nil_prefix, h.subset (List.mem_append_right _ List.mem_cons_self)⟩
  | cons x first ih =>
    cases before with
    | nil =>
      obtain ⟨rfl, -⟩ := List.cons_prefix_cons.1 h
      exact absurd he (hfirst e List.mem_cons_self)
    | cons y before =>
      obtain ⟨rfl, hrest⟩ := List.cons_prefix_cons.1 h
      obtain ⟨hstart, hmem⟩ := ih (fun x hx => hfirst x (List.mem_cons_of_mem _ hx)) hrest
      exact ⟨List.cons_prefix_cons.2 ⟨rfl, hstart⟩, hmem⟩

/-- A course reaches the machine after it has trusted. -/
theorem Course.onlyTrusted (h : Course fileName request gone l outcome) :
    OnlyTrusted request l := by
  intro before e after args hl hargs
  rcases h.trusts with ⟨path, existing, hstage⟩ | ⟨path, existing, file, rest, htrusted, hpre,
    hproper⟩
  · have he : e ∈ [.stage "checking_host_key", .found path existing] :=
      hstage.subset (hl ▸ List.mem_append_right _ List.mem_cons_self)
    simp only [List.mem_cons, List.not_mem_nil, or_false] at he
    rcases he with rfl | rfl
    · cases hargs
    · cases hargs
  · have hfirst : ∀ x ∈ [Effect.stage "checking_host_key", .found path existing,
        .trusted path file], ¬ x.args = some args := by
      simp [Effect.args]
    obtain ⟨⟨tail, rfl⟩, he⟩ := prefix_of_append_cons hfirst hargs (hl ▸ hpre)
    exact ⟨path, existing, file, ⟨[.stage "checking_host_key"], tail, rfl⟩,
      htrusted.confirmed_file, (hproper e he).options hargs⟩

/-- A course tells the machine what is known. -/
theorem Course.onlyKnown (h : Course fileName request gone l outcome) :
    OnlyKnown fileName request l := by
  intro args hargs
  rcases h.trusts with ⟨path, existing, hstage⟩ | ⟨path, existing, file, rest, -, hpre, hproper⟩
  · simpa using hstage.subset hargs
  · have hmem := hpre.subset hargs
    simp only [List.mem_cons, reduceCtorEq, false_or] at hmem
    have hremote := hproper _ hmem
    generalize hshown : Effect.remote args = shown at hremote
    cases hremote with
    | stage name => cases hshown
    | remote hknown =>
      cases hshown
      exact ⟨path, _, rfl, hknown⟩
    | upload => cases hshown

/-- What is uploaded in a course goes to its directory. -/
theorem upload_of_mem_work {args : List Text}
    (h : .upload args ∈ work request path dir installer line) :
    args = scpArgs request.target path
      [request.archivePath, request.checksumPath, installer] dir := by
  rcases List.mem_append.1 h with h | h
  · simp only [List.mem_cons, List.not_mem_nil, or_false, reduceCtorEq] at h
    cases h
    rfl
  · split at h
    · simp at h
    · cases h

/-- Nothing is uploaded on the way. -/
theorem not_upload_opening {args : List Text} :
    .upload args ∉ opening request path existing file := by
  simp [opening, access]

/-- The cleanup is no upload. -/
theorem not_upload_cleaned {cleaned : List Effect} {args : List Text}
    (hcleaned : cleaned = [cleanup request path dir] ∨ gone ∧ cleaned = []) :
    .upload args ∉ cleaned := by
  rcases hcleaned with rfl | ⟨-, rfl⟩
  · simp [cleanup]
  · exact List.not_mem_nil

/-- The last command before stages that follow. -/
theorem getLast?_remotes {cleaned later : List Effect}
    (hcleaned : cleaned = [cleanup request path dir] ∨ gone ∧ cleaned = [])
    (hlater : remotes later = []) :
    gone ∨ (remotes (l ++ cleaned ++ later)).getLast? =
      some (sshArgs request.target path (cleanupCommand dir)) := by
  rcases hcleaned with rfl | ⟨hgone, -⟩
  · have hcleanup : remotes [cleanup request path dir] =
        [sshArgs request.target path (cleanupCommand dir)] := rfl
    refine .inr ?_
    rw [remotes, List.filterMap_append, List.filterMap_append]
    change (remotes l ++ remotes [cleanup request path dir] ++ remotes later).getLast? = _
    rw [hlater, List.append_nil, hcleanup, List.getLast?_concat]
  · exact .inl hgone

/-- A course removes the directory it has uploaded to. -/
theorem Course.removed (h : Course fileName request gone l outcome) :
    Removed request gone l := by
  intro args hargs
  cases h with
  | untrusted hdone => simpa using hdone.subset hargs
  | opened htrusted hdone => exact absurd (hdone.subset hargs) not_upload_opening
  | @worked path existing file dir installer done cleaned e htrusted hdir hdone hcleaned =>
    rw [List.mem_append, List.mem_append] at hargs
    have hwork := (hargs.resolve_right (not_upload_cleaned hcleaned)).resolve_left
      not_upload_opening
    refine ⟨path, dir, _, safeTempDir_of_validateRemoteTempDir hdir,
      upload_of_mem_work (hdone.subset hwork), ?_⟩
    exact List.append_nil (_ ++ cleaned) ▸ getLast?_remotes hcleaned rfl
  | @finished path existing file dir installer line cleaned result htrusted hdir hline hcleaned =>
    rw [List.mem_append, List.mem_append, List.mem_append] at hargs
    have hstage : Effect.upload args ∉ [Effect.stage "connecting_p2p"] := by simp
    have hwork := ((hargs.resolve_right hstage).resolve_right
      (not_upload_cleaned hcleaned)).resolve_left not_upload_opening
    exact ⟨path, dir, _, safeTempDir_of_validateRemoteTempDir hdir, upload_of_mem_work hwork,
      getLast?_remotes hcleaned rfl⟩

/-- The stages of what comes one after the other. -/
theorem stages_append (before after : List Effect) :
    stages (before ++ after) = stages before ++ stages after := List.filterMap_append

/-- The cleanup shows no stage. -/
theorem stages_cleaned {cleaned : List Effect}
    (hcleaned : cleaned = [cleanup request path dir] ∨ gone ∧ cleaned = []) :
    stages cleaned = [] := by
  rcases hcleaned with rfl | ⟨-, rfl⟩
  · rfl
  · rfl

/-- The stages of the work. -/
theorem stages_work :
    stages (work request path dir installer line) <+: ["installing", "pairing"] := by
  cases line with
  | ok command => exact ⟨[], rfl⟩
  | error e => exact ⟨["pairing"], rfl⟩

/-- A course shows its stages in order, all of them when it succeeds. -/
theorem Course.stages (h : Course fileName request gone l outcome) :
    stages l <+: allStages ∧ ((∃ result, outcome = .ok result) ↔ stages l = allStages) := by
  have fails : ∀ {shown : List String} {e : String} {outcome : Except String SshBootstrapResult},
      outcome = .error e → shown <+: allStages.take 5 →
        shown <+: allStages ∧ ((∃ result, outcome = .ok result) ↔ shown = allStages) := by
    rintro shown e _ rfl hshown
    refine ⟨hshown.trans (List.take_prefix 5 _), nofun, fun hall => ?_⟩
    have hlength := hshown.length_le
    rw [hall] at hlength
    simp [allStages] at hlength
  cases h with
  | untrusted hdone =>
    exact fails rfl ((hdone.filterMap _).trans ⟨_, rfl⟩)
  | @opened path existing file done e htrusted hdone =>
    exact fails rfl ((hdone.filterMap _).trans ⟨["installing", "pairing"], rfl⟩)
  | @worked path existing file dir installer done cleaned e htrusted hdir hdone hcleaned =>
    refine fails rfl ?_
    rw [stages_append, stages_append, stages_cleaned hcleaned, List.append_nil]
    exact (List.prefix_append_right_inj _).2 ((hdone.filterMap _).trans stages_work)
  | @finished path existing file dir installer line cleaned result htrusted hdir hline hcleaned =>
    have hall : SshBootstrap.stages (opening request path existing file ++
        work request path dir installer (.ok line) ++ cleaned ++ [.stage "connecting_p2p"]) =
        allStages := by
      rw [stages_append, stages_append, stages_append, stages_cleaned hcleaned, List.append_nil]
      rfl
    rw [hall]
    exact ⟨List.prefix_rfl, fun _ => rfl, fun _ => ⟨result, rfl⟩⟩

end

/-! ## The results -/

section
variable {φ : Type} (parse : Text → Except String (Json φ))
  (fileName : Text → Option NormalComponent) (request : SshBootstrapRequest)
  (world : History → (asked : Ask) → asked.Answer)

/-- What is asked and answered in a bootstrap in a world. -/
def history : History := ((bootstrap parse fileName request).run world []).1

/-- What comes of a bootstrap in a world. -/
def outcome : Except String SshBootstrapResult :=
  ((bootstrap parse fileName request).run world []).2

/-- What a bootstrap does in a world is a course. -/
theorem course_run :
    Course fileName request (SshGone (history parse fileName request world))
      (effects (history parse fileName request world)) (outcome parse fileName request world) := by
  have htrace := traces_run world (bootstrap parse fileName request) []
  unfold history outcome
  generalize (bootstrap parse fileName request).run world [] = ran at htrace ⊢
  obtain ⟨trace, outcome⟩ := ran
  cases outcome with
  | ok result => exact Triple.of_ok course_bootstrap htrace
  | error e => exact Triple.of_error course_bootstrap htrace

/-- Whatever a server answers and whatever fails, nothing reaches the machine before the known_hosts
file holds the host keys it held and those that the operator confirmed, and no others; all that does
is bound to that file, and the machine is told five commands only. -/
theorem commands_trusted :
    OnlyTrusted request (effects (history parse fileName request world)) ∧
      OnlyKnown fileName request (effects (history parse fileName request world)) :=
  ⟨(course_run parse fileName request world).onlyTrusted,
    (course_run parse fileName request world).onlyKnown⟩

/-- However the work went, a directory that was uploaded to is removed by the last command on the
machine. -/
theorem directory_removed :
    Removed request (SshGone (history parse fileName request world))
      (effects (history parse fileName request world)) :=
  (course_run parse fileName request world).removed

/-- The operator sees the stages in their order, and all six exactly when the bootstrap succeeds. -/
theorem stages_in_order :
    stages (effects (history parse fileName request world)) <+: allStages ∧
      ((∃ result, outcome parse fileName request world = .ok result) ↔
        stages (effects (history parse fileName request world)) = allStages) :=
  (course_run parse fileName request world).stages

end

end SshBootstrap

end Rackio
