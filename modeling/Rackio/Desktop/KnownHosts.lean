import Rackio.Lib.Outcome
import Rackio.Lib.Table
import Rackio.Lib.Text

/-!
# The private known_hosts file

The host keys of `ssh_bootstrap.rs` in the desktop application: which lines of a scan are retained,
how they are merged into the file that OpenSSH is later told to trust, and the bootstrap of a
machine as far as that file. A bootstrap that fails leaves the file as it was.

`mem_mergedKnownHostLines` says what a merge leaves, `detectHostKeyConflict_eq_ok_iff` what it
refuses, and `bootstrap_eq_ok` what a bootstrap that gets through has shown.
-/

namespace Rackio

open Text

/-! ## Sets of lines -/

/-- The source's `BTreeSet<String>`. -/
abbrev LineSet := Table Text Unit

namespace LineSet

/-- The set of the lines of a list, over those of another set. -/
def extend (set : LineSet) (ls : List Text) : LineSet :=
  ls.foldl (fun set line => set.insert line ()) set

/-- The set of the lines of a list. -/
def ofList (ls : List Text) : LineSet := extend .empty ls

/-- The lines of a set that have a property. -/
def retain (set : LineSet) (p : Text → Bool) : LineSet := set.filter fun row => p row.1

theorem mem_extend {set : LineSet} {ls : List Text} {line : Text} :
    line ∈ (set.extend ls).keys ↔ line ∈ set.keys ∨ line ∈ ls := by
  induction ls generalizing set with
  | nil => simp [extend]
  | cons l ls ih =>
    have hinsert : line ∈ (set.insert l ()).keys ↔ line ∈ set.keys ∨ line = l := by
      rw [Table.mem_keys_iff, Table.find_insert, Table.mem_keys_iff]
      by_cases h : line = l
      · simp [h]
      · simp [h]
    show line ∈ (extend (set.insert l ()) ls).keys ↔ _
    rw [ih, hinsert, List.mem_cons, or_assoc]

theorem mem_ofList {ls : List Text} {line : Text} : line ∈ (ofList ls).keys ↔ line ∈ ls := by
  rw [ofList, mem_extend]
  simp [Table.keys, Table.empty]

theorem mem_retain {set : LineSet} {p : Text → Bool} {line : Text} :
    line ∈ (set.retain p).keys ↔ line ∈ set.keys ∧ p line = true := by
  rw [Table.mem_keys_iff, retain, Table.find_filter, Table.mem_keys_iff]
  split
  · next h => simp [h]
  · next h => simp [h]

end LineSet

/-! ## Targets -/

/-- The source's `SshTarget`. -/
structure SshTarget where
  host : Text
  user : Text
  port : UInt16
  identityFile : Option Text
  deriving DecidableEq, Repr

/-- The source's `char::is_ascii_alphanumeric`. -/
def isAsciiAlphanumeric (c : Char) : Bool := c.isAlpha || c.isDigit

/-- A character of a host. -/
def isHostChar (c : Char) : Bool := isAsciiAlphanumeric c || c = '.' || c = ':' || c = '-'

/-- A character of a user. -/
def isUserChar (c : Char) : Bool := isAsciiAlphanumeric c || c = '_' || c = '-' || c = '.'

/-- The source's `validate_target`, with its check of a local file. A text of these characters has a
byte for each. -/
def validateTarget (checkFile : Text → Except String Unit) (target : SshTarget) :
    Except String Unit :=
  if target.host = [] ∨ 255 < target.host.length ∨ ¬ target.host.all isHostChar then
    .error "SSH host is invalid."
  else if target.user = [] ∨ 64 < target.user.length ∨ ¬ target.user.all isUserChar then
    .error "SSH user is invalid."
  else if target.port = 0 then .error "SSH port must be between 1 and 65535."
  else match target.identityFile with
    | none => .ok ()
    | some path => checkFile path

/-- The text of a port. -/
def portText (port : UInt16) : Text := Nat.toDigits 10 port.toNat

/-- The source's `scan_host_tokens`, the plain one. -/
def plainToken (target : SshTarget) : Text := target.host

/-- The source's `scan_host_tokens`, the one that names the port. -/
def bracketedToken (target : SshTarget) : Text :=
  '[' :: (target.host ++ ']' :: ':' :: portText target.port)

/-- The source's `scan_host_tokens`. -/
def scanHostTokens (target : SshTarget) : List Text := [plainToken target, bracketedToken target]

/-! ## Lines -/

/-- The source's `known_hosts_entry`: the host token, the type of the key and the key. -/
def knownHostsEntry (line : Text) : Option (Text × Text × Text) :=
  match splitWhitespace line with
  | hosts :: keyType :: key :: _ =>
    if hosts.head? ≠ some '|' ∧ hosts.head? ≠ some '@' then some (hosts, keyType, key) else none
  | _ => none

/-- A character of a pattern. -/
def isPatternChar (c : Char) : Bool := c = '*' || c = '?' || c = '!'

/-- The source's `literal_host_key_line`. -/
def literalHostKeyLine (line : Text) : Bool :=
  match knownHostsEntry line with
  | none => false
  | some (hosts, _, _) => (split ',' hosts).all fun token => !token.any isPatternChar

/-- The source's `retained_scan_lines`. -/
def retainedScanLines (target : SshTarget) (ls : List Text) : List Text :=
  let trimmed := (ls.map Text.trim).filter fun line => line ≠ [] ∧ line.head? ≠ some '#'
  trimmed.filter fun line =>
    literalHostKeyLine line &&
      match knownHostsEntry line with
      | none => false
      | some (hosts, _, _) => (scanHostTokens target).any (eqIgnoreAsciiCase hosts)

/-- The source's `normalized_key_set`. -/
def normalizedKeySet (keys : List Text) : LineSet := .ofList ((keys.map Text.trim).filter (· ≠ []))

/-- The error of `detect_host_key_conflict`. -/
def conflictText (hosts keyType : Text) : String :=
  "The " ++ String.ofList keyType ++ " host key for " ++ String.ofList hosts ++
    " differs from the key Rackio already trusts. Installation was stopped."

/-- The source's `detect_host_key_conflict`. -/
def detectHostKeyConflict (existing incoming : LineSet) : Except String Unit :=
  incoming.keys.forM fun line =>
    match knownHostsEntry line with
    | none => .ok ()
    | some (hosts, keyType, key) =>
      existing.keys.forM fun known =>
        match knownHostsEntry known with
        | none => .ok ()
        | some (knownHosts, knownType, knownKey) =>
          if knownHosts = hosts ∧ knownType = keyType ∧ knownKey ≠ key then
            .error (conflictText hosts keyType)
          else .ok ()

/-- The entries of a file that a merge keeps. -/
def keptLines (existing : Text) : LineSet :=
  .ofList (((lines existing).map Text.trim).filter literalHostKeyLine)

/-- The scanned entries that a merge adds. -/
def incomingLines (keys : List Text) : LineSet := (normalizedKeySet keys).retain literalHostKeyLine

/-- The source's `merged_known_host_lines`. -/
def mergedKnownHostLines (existing : Text) (keys : List Text) : Except String LineSet := do
  let merged := keptLines existing
  let incoming := incomingLines keys
  detectHostKeyConflict merged incoming
  return merged.extend incoming.keys

/-! ## The bootstrap -/

/-- The source's `persist_known_hosts`, from the text of the file to the one that replaces it.
`save` is how the file system takes it, and a failure leaves the old file in place. -/
def persistKnownHosts (path : String) (save : Except String Unit) (existing : Text)
    (keys : List Text) : Except String Text :=
  match mergedKnownHostLines existing keys with
  | .error conflict =>
    .error (conflict ++ " Verify the new key through a trusted channel, then remove the stale " ++
      "entry from " ++ path ++ ".")
  | .ok merged => save.map fun _ => unlines merged.keys

/-- The host keys `inspect_host` returns, from the trimmed output of `ssh-keyscan`. -/
def inspectHostKeys (target : SshTarget) (stdout : Text) : Except String (List Text) :=
  let hostKeys := retainedScanLines target (lines stdout)
  if hostKeys = [] then .error "The SSH server returned no host key that names this host."
  else .ok hostKeys

/-- One bootstrap: the target, what its scan printed, the keys the operator confirmed before, and
how the file system takes the new file. -/
structure Bootstrap where
  target : SshTarget
  stdout : Text
  acceptedHostKeys : List Text
  save : Except String Unit

/-- The keys that the scan of a bootstrap retains. -/
def Bootstrap.keys (b : Bootstrap) : List Text := retainedScanLines b.target (lines b.stdout)

/-- The source's `bootstrap`, as far as the known_hosts file, with its check of local files. -/
def bootstrap (checkFile : Text → Except String Unit) (path : String) (b : Bootstrap)
    (existing : Text) : Except String Text := do
  validateTarget checkFile b.target
  if b.acceptedHostKeys = [] then
    .error "Confirm the SSH host fingerprint before installing."
  let hostKeys ← inspectHostKeys b.target b.stdout
  if normalizedKeySet b.acceptedHostKeys ≠ normalizedKeySet hostKeys then
    .error "SSH host key changed after confirmation. Installation was stopped."
  persistKnownHosts path b.save existing hostKeys

/-- The known_hosts file after a bootstrap. -/
def bootstrapped (checkFile : Text → Except String Unit) (path : String) (existing : Text)
    (b : Bootstrap) : Text :=
  match bootstrap checkFile path b existing with
  | .ok file => file
  | .error _ => existing

/-- The known_hosts file after a list of bootstraps; there is none before the first one. -/
def knownHosts (checkFile : Text → Except String Unit) (path : String) (bs : List Bootstrap) :
    Text :=
  bs.foldl (bootstrapped checkFile path) []

section
variable {checkFile : Text → Except String Unit} {path : String} {b : Bootstrap}
  {bs : List Bootstrap} {existing file : Text} {keys : List Text} {merged : LineSet} {line : Text}
  {hosts keyType key : Text} {target : SshTarget}

/-! ## Entries -/

/-- The host token of an entry is the first word of the line, and no marker or hash. -/
theorem knownHostsEntry_eq_some (h : knownHostsEntry line = some (hosts, keyType, key)) :
    (splitWhitespace line).head? = some hosts ∧ hosts.head? ≠ some '|' ∧
      hosts.head? ≠ some '@' := by
  unfold knownHostsEntry at h
  split at h
  · next hwords =>
    split at h
    · next hplain =>
      cases h
      rw [hwords]
      exact ⟨rfl, hplain⟩
    · cases h
  · cases h

/-- An entry is literal when no character of its host token is one of a pattern. -/
theorem literalHostKeyLine_iff :
    literalHostKeyLine line = true ↔ ∃ hosts keyType key,
      knownHostsEntry line = some (hosts, keyType, key) ∧ ∀ c ∈ hosts, isPatternChar c = false := by
  unfold literalHostKeyLine
  cases hentry : knownHostsEntry line with
  | none => simp
  | some entry =>
    obtain ⟨hosts, keyType, key⟩ := entry
    have hpieces : ((split ',' hosts).all fun token => !token.any isPatternChar) = true ↔
        ∀ c ∈ hosts, isPatternChar c = false := by
      have hsplit : (∀ p ∈ split ',' hosts, ∀ c ∈ p, isPatternChar c = false) ↔
          ∀ c ∈ hosts, c ≠ ',' → isPatternChar c = false := forall_mem_split
      simp only [List.all_eq_true, Bool.not_eq_true', List.any_eq_false, Bool.not_eq_true]
      rw [hsplit]
      refine forall₂_congr fun c _ => ⟨fun h => ?_, fun h _ => h⟩
      by_cases hc : c = ','
      · rw [hc]
        rfl
      · exact h hc
    simp only [hpieces, Option.some.injEq, Prod.mk.injEq]
    constructor
    · intro h
      exact ⟨hosts, keyType, key, ⟨rfl, rfl, rfl⟩, h⟩
    · rintro ⟨_, _, _, ⟨rfl, rfl, rfl⟩, h⟩
      exact h

/-- What a retained line is. -/
theorem mem_retainedScanLines {ls : List Text} :
    line ∈ retainedScanLines target ls ↔
      (∃ l ∈ ls, line = Text.trim l) ∧ line ≠ [] ∧ line.head? ≠ some '#' ∧
        literalHostKeyLine line = true ∧ ∃ hosts keyType key,
          knownHostsEntry line = some (hosts, keyType, key) ∧
            ∃ token ∈ scanHostTokens target, eqIgnoreAsciiCase hosts token = true := by
  unfold retainedScanLines
  simp only [List.mem_filter, List.mem_map, decide_eq_true_eq, Bool.and_eq_true, and_assoc,
    eq_comm (b := line)]
  refine and_congr_right fun _ => and_congr_right fun _ => and_congr_right fun _ =>
    and_congr_right fun _ => ?_
  cases knownHostsEntry line with
  | none => simp
  | some entry =>
    obtain ⟨hosts, keyType, key⟩ := entry
    simp only [List.any_eq_true, Option.some.injEq, Prod.mk.injEq]
    constructor
    · intro h
      exact ⟨hosts, keyType, key, ⟨rfl, rfl, rfl⟩, h⟩
    · rintro ⟨_, _, _, ⟨rfl, rfl, rfl⟩, h⟩
      exact h

/-! ## The merge -/

theorem mem_keptLines :
    line ∈ (keptLines existing).keys ↔
      (∃ l ∈ lines existing, line = Text.trim l) ∧ literalHostKeyLine line = true := by
  unfold keptLines
  simp only [LineSet.mem_ofList, List.mem_filter, List.mem_map, eq_comm (b := line)]

/-- An entry is not empty. -/
theorem ne_nil_of_literal (h : literalHostKeyLine line = true) : line ≠ [] := by
  rintro rfl
  cases h

theorem mem_incomingLines :
    line ∈ (incomingLines keys).keys ↔
      (∃ k ∈ keys, line = Text.trim k) ∧ literalHostKeyLine line = true := by
  unfold incomingLines normalizedKeySet
  simp only [LineSet.mem_retain, LineSet.mem_ofList, List.mem_filter, List.mem_map,
    decide_eq_true_eq, eq_comm (b := line)]
  constructor
  · rintro ⟨⟨hkey, -⟩, hliteral⟩
    exact ⟨hkey, hliteral⟩
  · rintro ⟨hkey, hliteral⟩
    exact ⟨⟨hkey, ne_nil_of_literal hliteral⟩, hliteral⟩

/-- The keys that a scan retains are normal. -/
theorem mem_normalizedKeySet_retained {ls : List Text} :
    line ∈ (normalizedKeySet (retainedScanLines target ls)).keys ↔
      line ∈ retainedScanLines target ls := by
  unfold normalizedKeySet
  simp only [LineSet.mem_ofList, List.mem_filter, List.mem_map, decide_eq_true_eq,
    eq_comm (b := line)]
  constructor
  · rintro ⟨⟨k, hk, rfl⟩, -⟩
    obtain ⟨⟨l, -, rfl⟩, -⟩ := mem_retainedScanLines.1 hk
    rw [trim_trim]
    exact hk
  · intro h
    obtain ⟨⟨l, -, rfl⟩, hne, -⟩ := mem_retainedScanLines.1 h
    exact ⟨⟨_, h, (trim_trim l).symm⟩, hne⟩

/-- The keys that a scan retains are added as they are. -/
theorem mem_incomingLines_retained {ls : List Text} :
    line ∈ (incomingLines (retainedScanLines target ls)).keys ↔
      line ∈ retainedScanLines target ls := by
  rw [mem_incomingLines]
  constructor
  · rintro ⟨⟨k, hk, rfl⟩, -⟩
    obtain ⟨⟨l, -, rfl⟩, -⟩ := mem_retainedScanLines.1 hk
    rw [trim_trim]
    exact hk
  · intro h
    obtain ⟨⟨l, -, rfl⟩, -, -, hliteral, -⟩ := mem_retainedScanLines.1 h
    exact ⟨⟨_, h, (trim_trim l).symm⟩, hliteral⟩

/-- What a merge refuses: another key of the same type for exactly the same host token. -/
theorem detectHostKeyConflict_eq_ok_iff {existing incoming : LineSet} :
    detectHostKeyConflict existing incoming = .ok () ↔
      ∀ line ∈ incoming.keys, ∀ known ∈ existing.keys, ∀ hosts keyType key key',
        knownHostsEntry line = some (hosts, keyType, key) →
        knownHostsEntry known = some (hosts, keyType, key') → key' = key := by
  unfold detectHostKeyConflict
  rw [Outcome.forM_eq_ok_iff]
  refine forall₂_congr fun line _ => ?_
  cases hline : knownHostsEntry line with
  | none => simp
  | some entry =>
    obtain ⟨hosts, keyType, key⟩ := entry
    rw [Outcome.forM_eq_ok_iff]
    refine forall₂_congr fun known _ => ?_
    cases hknown : knownHostsEntry known with
    | none => simp
    | some knownEntry =>
      obtain ⟨knownHosts, knownType, knownKey⟩ := knownEntry
      simp only [ite_eq_right_iff, reduceCtorEq, imp_false, Option.some.injEq, Prod.mk.injEq]
      constructor
      · rintro h _ _ _ _ ⟨rfl, rfl, rfl⟩ ⟨rfl, rfl, rfl⟩
        exact not_not.1 fun hne => h ⟨rfl, rfl, hne⟩
      · rintro h ⟨rfl, rfl, hne⟩
        exact hne (h _ _ _ _ ⟨rfl, rfl, rfl⟩ ⟨rfl, rfl, rfl⟩)

/-- A merge succeeds when nothing conflicts, and leaves both sets. -/
theorem mergedKnownHostLines_eq_ok_iff :
    mergedKnownHostLines existing keys = .ok merged ↔
      detectHostKeyConflict (keptLines existing) (incomingLines keys) = .ok () ∧
        merged = (keptLines existing).extend (incomingLines keys).keys := by
  unfold mergedKnownHostLines
  rw [Outcome.bind_eq_ok_iff]
  constructor
  · rintro ⟨_, hok, h⟩
    cases h
    exact ⟨hok, rfl⟩
  · rintro ⟨hok, rfl⟩
    exact ⟨_, hok, rfl⟩

theorem mem_mergedKnownHostLines (h : mergedKnownHostLines existing keys = .ok merged) :
    line ∈ merged.keys ↔ line ∈ (keptLines existing).keys ∨ line ∈ (incomingLines keys).keys := by
  rw [(mergedKnownHostLines_eq_ok_iff.1 h).2]
  exact LineSet.mem_extend

/-! ## The file -/

/-- A bootstrap that gets through has a valid target and merged the keys its scan retained. -/
theorem bootstrap_eq_ok (h : bootstrap checkFile path b existing = .ok file) :
    validateTarget checkFile b.target = .ok () ∧ b.acceptedHostKeys ≠ [] ∧
      ∃ merged, mergedKnownHostLines existing b.keys = .ok merged ∧ file = unlines merged.keys := by
  obtain ⟨_, htarget, h⟩ := Outcome.bind_eq_ok_iff.1 h
  refine ⟨htarget, ?_⟩
  split at h
  · cases h
  · next haccepted =>
    refine ⟨haccepted, ?_⟩
    obtain ⟨hostKeys, hkeys, h⟩ := Outcome.bind_eq_ok_iff.1 h
    have hsame : hostKeys = b.keys := by
      unfold inspectHostKeys at hkeys
      dsimp only at hkeys
      split at hkeys
      · cases hkeys
      · cases hkeys
        rfl
    split at h
    · cases h
    · have hpersist : persistKnownHosts path b.save existing b.keys = .ok file := hsame ▸ h
      unfold persistKnownHosts at hpersist
      split at hpersist
      · cases hpersist
      · next merged hmerged =>
        cases hsave : b.save with
        | error e =>
          rw [hsave] at hpersist
          cases hpersist
        | ok _ =>
          rw [hsave] at hpersist
          cases hpersist
          exact ⟨merged, hmerged, rfl⟩

/-- The lines of the file after a merge are the merged ones. -/
theorem lines_merged (h : mergedKnownHostLines existing b.keys = .ok merged) :
    lines (unlines merged.keys) = merged.keys := by
  have htrimmed : ∀ l : Text, '\n' ∉ l →
      '\n' ∉ Text.trim l ∧ (Text.trim l).getLast? ≠ some '\r' := by
    intro l hl
    refine ⟨fun hmem => hl (mem_of_mem_trim hmem), fun hlast => ?_⟩
    have hspace := not_whitespace_getLast hlast
    revert hspace
    decide
  refine lines_unlines fun l hl => ?_
  rcases (mem_mergedKnownHostLines h).1 hl with hold | hnew
  · obtain ⟨⟨l, hline, rfl⟩, -⟩ := mem_keptLines.1 hold
    exact htrimmed l (not_mem_of_mem_lines hline)
  · obtain ⟨⟨l, hline, rfl⟩, -⟩ := mem_retainedScanLines.1 (mem_incomingLines_retained.1 hnew)
    exact htrimmed l (not_mem_of_mem_lines hline)

/-- Merged lines are trimmed. -/
theorem trim_of_mem_merged (h : mergedKnownHostLines existing keys = .ok merged)
    (hline : line ∈ merged.keys) : Text.trim line = line := by
  rcases (mem_mergedKnownHostLines h).1 hline with hold | hnew
  · obtain ⟨⟨l, -, rfl⟩, -⟩ := mem_keptLines.1 hold
    exact trim_trim l
  · obtain ⟨⟨l, -, rfl⟩, -⟩ := mem_incomingLines.1 hnew
    exact trim_trim l

/-- A merge keeps no line that the merge before it did not leave. -/
theorem mem_of_mem_keptLines_merged (h : mergedKnownHostLines existing b.keys = .ok merged)
    (hline : line ∈ (keptLines (unlines merged.keys)).keys) : line ∈ merged.keys := by
  obtain ⟨⟨l, hl, rfl⟩, -⟩ := mem_keptLines.1 hline
  rw [lines_merged h] at hl
  rw [trim_of_mem_merged h hl]
  exact hl

/-- A bootstrap either leaves the file, or replaces it by what its merge left. -/
theorem bootstrapped_cases (checkFile : Text → Except String Unit) (path : String) (existing : Text)
    (b : Bootstrap) :
    bootstrapped checkFile path existing b = existing ∨
      ∃ merged, mergedKnownHostLines existing b.keys = .ok merged ∧
        bootstrapped checkFile path existing b = unlines merged.keys := by
  unfold bootstrapped
  cases hb : bootstrap checkFile path b existing with
  | error e => exact .inl rfl
  | ok file =>
    obtain ⟨-, -, merged, hmerged, rfl⟩ := bootstrap_eq_ok hb
    exact .inr ⟨merged, hmerged, rfl⟩

end

end Rackio
