import Rackio.Lib.Script
import Rackio.Desktop.RemoteTempDir
import Rackio.Remote.PairingText

/-!
# The SSH bootstrap

`bootstrap` of `apps/desktop/src-tauri/src/ssh_bootstrap.rs`, which installs the agent on another
machine: the whole of it, as a script that asks the operating system and, through `ssh` and `scp`,
the machine at the other end. Every answer may be anything, so a server that lies and a disk that
fails are among the worlds it runs in. What it does that can be seen from outside, in its order, are
the `Effect`s of a history.
-/

namespace Rackio

open Text

/-- The source's `SshBootstrapRequest`. -/
structure SshBootstrapRequest where
  target : SshTarget
  acceptedHostKeys : List Text
  archivePath : Text
  checksumPath : Text

/-- The source's `SshHostIdentity`. -/
structure SshHostIdentity where
  hostKeys : List Text
  fingerprints : List Text

/-- The source's `SshBootstrapResult`. -/
structure SshBootstrapResult where
  pairingBundle : String
  remotePlatform : Text

namespace SshBootstrap

/-! ## The world -/

/-- The `Output` of a program. What it printed is `none` when it is not UTF-8, and its errors are
decoded with replacement characters. -/
structure Output where
  success : Bool
  status : String
  stdout : Option Text
  stderr : Text

/-- What the bootstrap asks. -/
inductive Ask
  /-- Whether a path is a regular file. -/
  | metadata (path : Text)
  /-- Run a program with `-V`, to see whether it is there. -/
  | version (program : String)
  | keyscan (args : List Text)
  | keygen (args : List Text) (stdin : Text)
  | progress (stage detail : String)
  /-- Find and create the directory of the known_hosts file; the answer is the path of the file. -/
  | knownHostsPath
  /-- Read the known_hosts file; there may be none. -/
  | readKnownHosts (path : Text)
  /-- Write a file beside it, sync it and move it in its place. -/
  | saveKnownHosts (path content : Text)
  /-- Write the installer to a temporary file; the answer is its path. -/
  | installer
  | ssh (args : List Text)
  | scp (args : List Text)

/-- What is answered; a failure is the text of its error. -/
abbrev Ask.Answer : Ask → Type
  | .metadata _ => Except String Bool
  | .version _ => Bool
  | .keyscan _ | .keygen _ _ | .ssh _ | .scp _ => Except String Output
  | .progress _ _ => Except String Unit
  | .knownHostsPath => Except String Text
  | .readKnownHosts _ => Except String (Option Text)
  | .saveKnownHosts _ _ => Except String Unit
  | .installer => Except String Text

/-- A part of the bootstrap. -/
abbrev Session (α : Type) : Type := Script Ask Ask.Answer String α

/-- What was asked and answered so far. -/
abbrev History : Type := List (Exchange Ask Ask.Answer)

/-- Ask for something that may fail, and put the text of a failure behind some words. -/
def demand {α : Type} (words : String) (session : Session (Except String α)) : Session α := do
  let answer ← session
  .lift (answer.mapError (words ++ ·))

/-! ## Programs -/

/-- The source's `output_text`. -/
def outputText (output : Output) (operation : String) : Except String Text :=
  if output.success then
    match output.stdout with
    | some stdout => .ok (Text.trim stdout)
    | none => .error (operation ++ " returned non-UTF-8 output")
  else if Text.trim output.stderr = [] then
    .error (operation ++ " failed with status " ++ output.status)
  else .error (operation ++ " failed: " ++ String.ofList (Text.trim output.stderr))

/-- The source's `require_command`. -/
def requireCommand (name : String) : Session PUnit := do
  let found ← .request (Ask.version name)
  .ensure (found = true) (name ++ " is required but was not found.")

/-- The source's `known_hosts_option`. -/
def knownHostsOption (knownHosts : Text) : Text :=
  "UserKnownHostsFile=\"".toList ++ knownHosts ++ "\"".toList

/-- The options that `run_ssh` and `run_scp` give alike, behind that of the port. -/
def hostOptions (target : SshTarget) (knownHosts : Text) : List Text :=
  ["-o".toList, "BatchMode=yes".toList, "-o".toList, "ConnectTimeout=10".toList, "-o".toList,
    "StrictHostKeyChecking=yes".toList, "-o".toList, knownHostsOption knownHosts] ++
    match target.identityFile with
    | some identityFile => ["-i".toList, identityFile]
    | none => []

/-- The source's `ssh_options`. -/
def sshOptions (target : SshTarget) (knownHosts : Text) : List Text :=
  "-p".toList :: portText target.port :: hostOptions target knownHosts

/-- The arguments of `run_ssh`. -/
def sshArgs (target : SshTarget) (knownHosts remoteCommand : Text) : List Text :=
  sshOptions target knownHosts ++ [remoteTarget target, remoteCommand]

/-- The arguments of `run_scp`. -/
def scpArgs (target : SshTarget) (knownHosts : Text) (localFiles : List Text)
    (remoteDir : Text) : List Text :=
  "-P".toList :: portText target.port :: hostOptions target knownHosts ++
    (localFiles ++ [scpDestination target remoteDir])

/-- The source's `run_ssh`. -/
def runSsh (target : SshTarget) (knownHosts remoteCommand : Text) : Session Output := do
  requireCommand "ssh"
  demand "Could not start SSH: " (.request (Ask.ssh (sshArgs target knownHosts remoteCommand)))

/-- The source's `run_scp`. -/
def runScp (target : SshTarget) (knownHosts : Text) (localFiles : List Text) (remoteDir : Text) :
    Session PUnit := do
  requireCommand "scp"
  let output ← demand "Could not start SCP: "
    (.request (Ask.scp (scpArgs target knownHosts localFiles remoteDir)))
  let _ ← .lift (outputText output "release upload")

/-- The source's `send_progress`. -/
def sendProgress (stage detail : String) : Session Unit :=
  demand "Could not report SSH bootstrap progress: " (.request (Ask.progress stage detail))

/-! ## Local checks -/

/-- The source's `validate_local_file`. -/
def validateLocalFile (path : Text) (label : String) : Session Text := do
  let isFile ← demand (label ++ " is not readable at " ++ String.ofList path ++ ": ")
    (.request (Ask.metadata path))
  .ensure (isFile = true) (label ++ " must be a regular file.")
  return path

/-- The source's `validate_target`. -/
def validateTarget (target : SshTarget) : Session PUnit := do
  .lift (Rackio.validateTarget (fun _ => .ok ()) target)
  match target.identityFile with
  | some identityFile =>
    let _ ← validateLocalFile identityFile "SSH identity file"
  | none => return

/-! ## The host key -/

/-- The lines with something in between. -/
def join (separator : Text) : List Text → Text
  | [] => []
  | [line] => line
  | line :: rest => line ++ separator ++ join separator rest

/-- The source's `inspect_host`. -/
def inspectHost (target : SshTarget) : Session SshHostIdentity := do
  validateTarget target
  requireCommand "ssh-keyscan"
  requireCommand "ssh-keygen"
  let output ← demand "Could not start ssh-keyscan: " (.request (Ask.keyscan ["-T".toList,
    "10".toList, "-p".toList, portText target.port, target.host]))
  let stdout ← .lift (outputText output "SSH host-key scan")
  let hostKeys ← .lift (inspectHostKeys target stdout)
  let output ← demand "" (.request (Ask.keygen ["-lf".toList, "-".toList] (join ['\n'] hostKeys)))
  let stdout ← .lift (outputText output "SSH fingerprint")
  return ⟨hostKeys, ((lines stdout).map Text.trim).filter (· ≠ [])⟩

/-- The source's `persist_known_hosts`. -/
def persistKnownHosts (keys : List Text) : Session Text := do
  let path ← demand "" (.request Ask.knownHostsPath)
  let existing ← demand "Could not read Rackio known_hosts: " (.request (Ask.readKnownHosts path))
  let content ← .lift
    (Rackio.persistKnownHosts (String.ofList path) (.ok ()) (existing.getD []) keys)
  demand "" (.request (Ask.saveKnownHosts path content))
  return path

/-! ## The remote commands -/

/-- The command that checks what the installer needs. -/
def preflightCommand : Text :=
  ("set -eu; test \"$(uname -s)\" = Linux; command -v systemctl >/dev/null; " ++
    "if test \"$(id -u)\" -ne 0; then command -v sudo >/dev/null; sudo -n true; fi; " ++
    "printf '%s %s' \"$(uname -s)\" \"$(uname -m)\"").toList

/-- The command that makes the temporary directory. -/
def mktempCommand : Text := "set -eu; umask 077; mktemp -d /tmp/rackio-bootstrap.XXXXXX".toList

/-- The `pairing_command` of `perform_remote_install`. -/
def pairingCommand (target : SshTarget) : Text :=
  privilege target ++
    "env RACKIO_SOCKET=/run/rackio/agent.sock /usr/local/bin/rackio pairing create".toList

section
variable {φ : Type} (parse : Text → Except String (Json φ))
  (fileName : Text → Option NormalComponent)

/-- The source's `extract_pairing_bundle`; `parse` is `serde_json::from_str`. -/
def extractPairingBundle (output : Text) : Except String String := do
  let response ← (parse output).mapError ("Remote pairing returned invalid JSON: " ++ ·)
  match lastMember "ok" response with
  | some (.bool true) =>
    match lastMember "data" response with
    | some (.str bundle) =>
      if bundlePrefix.toList.isPrefixOf bundle.toList then .ok bundle
      else .error "Remote pairing response did not contain a pairing bundle."
    | _ => .error "Remote pairing response did not contain a pairing bundle."
  | _ =>
    match lastMember "error" response with
    | some (.str error) => .error error
    | _ => .error "Remote agent rejected pairing."

/-- The source's `perform_remote_install`; `fileName` is `Path::file_name`. -/
def performRemoteInstall (request : SshBootstrapRequest)
    (knownHosts remoteDir archive checksum installer : Text) : Session String := do
  runScp request.target knownHosts [archive, checksum, installer] remoteDir
  sendProgress "installing" "Verifying the archive and installing the systemd service"
  let command ← .lift (installCommand request.target remoteDir (fileName installer)
    (fileName archive) (fileName checksum))
  let output ← runSsh request.target knownHosts command
  let _ ← .lift (outputText output "remote Rackio install")
  sendProgress "pairing" "Opening a one-time pairing window on the new agent"
  let output ← runSsh request.target knownHosts (pairingCommand request.target)
  let output ← .lift (outputText output "remote pairing")
  .lift (extractPairingBundle parse output)

/-- The source's `bootstrap`. -/
def bootstrap (request : SshBootstrapRequest) : Session SshBootstrapResult := do
  validateTarget request.target
  let archive ← validateLocalFile request.archivePath "release archive"
  let checksum ← validateLocalFile request.checksumPath "release checksum"
  .ensure (request.acceptedHostKeys ≠ []) "Confirm the SSH host fingerprint before installing."
  sendProgress "checking_host_key" "Rechecking the SSH host key"
  let current ← inspectHost request.target
  .ensure (normalizedKeySet request.acceptedHostKeys = normalizedKeySet current.hostKeys)
    "SSH host key changed after confirmation. Installation was stopped."
  let knownHosts ← persistKnownHosts current.hostKeys
  sendProgress "checking_access" "Checking Linux, systemd, and non-interactive root access"
  let preflight ← runSsh request.target knownHosts preflightCommand
  let remotePlatform ← .lift (outputText preflight "SSH preflight")
  sendProgress "uploading" "Uploading the verified release archive"
  let remoteDirOutput ← runSsh request.target knownHosts mktempCommand
  let remoteDir ← .lift (outputText remoteDirOutput "remote temporary directory")
  .lift (validateRemoteTempDir remoteDir)
  let installer ← demand "" (.request Ask.installer)
  let result ← (performRemoteInstall parse fileName request knownHosts remoteDir archive checksum
    installer).attempt
  let _ ← (runSsh request.target knownHosts (cleanupCommand remoteDir)).attempt
  let pairingBundle ← .lift result
  sendProgress "connecting_p2p" "Switching from SSH installation to the encrypted P2P connection"
  return ⟨pairingBundle, remotePlatform⟩

end

/-! ## What can be seen -/

/-- What the bootstrap does outside of itself, and the known_hosts file that it found. -/
inductive Effect
  /-- The operator sees a stage. -/
  | stage (name : String)
  /-- The known_hosts file had this content. -/
  | found (path content : Text)
  /-- The known_hosts file has this content. -/
  | trusted (path content : Text)
  /-- A command is run on the machine. -/
  | remote (args : List Text)
  /-- Files are copied to the machine. -/
  | upload (args : List Text)
  deriving DecidableEq

/-- The effect of an answer. -/
def effect : Exchange Ask Ask.Answer → Option Effect
  | ⟨.progress stage _, .ok _⟩ => some (.stage stage)
  | ⟨.readKnownHosts path, .ok content⟩ => some (.found path (content.getD []))
  | ⟨.saveKnownHosts path content, .ok _⟩ => some (.trusted path content)
  | ⟨.ssh args, _⟩ => some (.remote args)
  | ⟨.scp args, _⟩ => some (.upload args)
  | _ => none

/-- The effects of a history, in their order. -/
def effects (history : History) : List Effect := history.filterMap effect

end SshBootstrap

end Rackio
