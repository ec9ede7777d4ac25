import Rackio.Desktop.ChangedHostKeys

/-!
# Authorised hosts

What OpenSSH takes from the known_hosts file, and whether that is only the endpoints that were
contacted. OpenSSH reads a host field up to the first space or tab, and a name without a port as
port 22. A scan is filtered by the first word of a line, which any white space ends, and a name
without a port passes for every port; `Faithful` is a retained line that OpenSSH reads as it was
meant.

`authorised_iff_faithful` is one retained line, and `contacted_hosts_only_iff` any number of
bootstraps.
-/

namespace Rackio

open Text

/-! ## What OpenSSH reads -/

/-- A character that separates the fields of a line for OpenSSH. -/
def isBlank (c : Char) : Bool := c = ' ' || c = '\t'

/-- The host field of a line. -/
def hostField (line : Text) : Text := (line.dropWhile isBlank).takeWhile (! isBlank ·)

/-- The field is a marker or a hash, or it has a pattern. -/
def Carries (field : Text) : Prop :=
  field.head? = some '@' ∨ field.head? = some '|' ∨ ∃ c ∈ field, isPatternChar c = true

/-- The field is one literal host token. -/
structure LiteralToken (field : Text) : Prop where
  nonempty : field ≠ []
  literal : ¬ Carries field
  single : ',' ∉ field

/-- The token authorises the endpoint of a target: its name when the port is 22, or its name with
the port. -/
def Authorises (token : Text) (target : SshTarget) : Prop :=
  target.port = 22 ∧ SameHost token target.host ∨ SameHost token (bracketedToken target)

/-- The line authorises one of the endpoints that were contacted, and nothing else. -/
def Authorised (contacted : List SshTarget) (line : Text) : Prop :=
  LiteralToken (hostField line) ∧ ∃ target ∈ contacted, Authorises (hostField line) target

/-! ## What the filter lets through -/

/-- The first word of an entry is its host field: no other white space ends it than a space or a
tab.
-/
def ReadAlike (line : Text) : Prop :=
  ∀ hosts keyType key, knownHostsEntry line = some (hosts, keyType, key) → hostField line = hosts

/-- OpenSSH reads the entry as the filter does, and its name comes without a port only where port 22
of that name was contacted. -/
def Faithful (contacted : List SshTarget) (target : SshTarget) (line : Text) : Prop :=
  ReadAlike line ∧ ∀ hosts keyType key, knownHostsEntry line = some (hosts, keyType, key) →
    SameHost hosts target.host → ∃ t ∈ contacted, t.port = 22 ∧ SameHost hosts t.host

/-- The characters of a host. -/
def HostName (host : Text) : Prop := ∀ c ∈ host, isHostChar c = true

section
variable {contacted : List SshTarget} {target t : SshTarget} {line token hosts keyType key : Text}
  {ls : List Text} {c : Char}

/-- A character of a host is no white space, no comma and no bracket. -/
theorem isHostChar_plain (h : isHostChar c = true) :
    Text.isWhitespace c = false ∧ c ≠ ',' ∧ c ≠ '[' := by
  refine ⟨?_, ?_, ?_⟩
  · by_contra hspace
    have hspace : Text.isWhitespace c = true := by simpa using hspace
    obtain ⟨halpha, hdigit⟩ := isAlphanum_of_isWhitespace hspace
    have hrest : c = '.' ∨ c = ':' ∨ c = '-' := by
      simpa [isHostChar, isAsciiAlphanumeric, halpha, hdigit, or_assoc] using h
    rcases hrest with rfl | rfl | rfl
    · revert hspace; decide
    · revert hspace; decide
    · revert hspace; decide
  · rintro rfl
    revert h
    decide
  · rintro rfl
    revert h
    decide

/-- Neither form of a target's name has white space or a comma. -/
theorem scanHostTokens_plain (hname : HostName target.host) (htoken : token ∈ scanHostTokens target)
    (hc : c ∈ token) : Text.isWhitespace c = false ∧ c ≠ ',' := by
  have hhost : ∀ c ∈ target.host, Text.isWhitespace c = false ∧ c ≠ ',' := fun c hc =>
    ⟨(isHostChar_plain (hname c hc)).1, (isHostChar_plain (hname c hc)).2.1⟩
  rcases List.mem_pair.1 htoken with rfl | rfl
  · exact hhost c hc
  · simp only [bracketedToken, List.mem_cons, List.mem_append] at hc
    rcases hc with rfl | hc | rfl | rfl | hc
    · decide
    · exact hhost c hc
    · decide
    · decide
    · have hdigit := Nat.isDigit_of_mem_toDigits (by decide) (by decide) hc
      constructor
      · by_contra hspace
        have hno := (isAlphanum_of_isWhitespace (by simpa using hspace)).2
        rw [hdigit] at hno
        cases hno
      · rintro rfl
        revert hdigit
        decide

/-- A token that authorises a target has no white space. -/
theorem Authorises.not_whitespace (h : Authorises token t) (hname : HostName t.host)
    (hc : c ∈ token) : Text.isWhitespace c = false := by
  by_contra hspace
  have hspace : Text.isWhitespace c = true := by simpa using hspace
  have hletter := (isAlphanum_of_isWhitespace hspace).1
  have hsame : ∃ name ∈ scanHostTokens t, SameHost token name := by
    rcases h with ⟨-, h⟩ | h
    · exact ⟨_, .head _, h⟩
    · exact ⟨_, .tail _ (.head _), h⟩
  obtain ⟨name, hname', hsame⟩ := hsame
  have hmem := (mem_congr_of_eqIgnoreAsciiCase hsame hletter).1 hc
  rw [(scanHostTokens_plain hname hname' hmem).1] at hspace
  cases hspace

/-- A text up to the first character that is not `p`, when all of that is `q`, which implies `p`. -/
theorem takeWhile_eq_of_forall {p q : Char → Bool} (hqp : ∀ c, q c = true → p c = true) {s : Text}
    (h : ∀ c ∈ s.takeWhile p, q c = true) : s.takeWhile p = s.takeWhile q := by
  induction s with
  | nil => rfl
  | cons c s ih =>
    by_cases hp : p c = true
    · rw [List.takeWhile_cons_of_pos hp] at h ⊢
      have hq : q c = true := h c (.head _)
      rw [List.takeWhile_cons_of_pos hq, ih fun d hd => h d (.tail _ hd)]
    · rw [List.takeWhile_cons_of_neg hp, List.takeWhile_cons_of_neg (mt (hqp c) hp)]

/-- White space other than a space or a tab is all that the two readings of a trimmed line differ
by. -/
theorem readAlike_of_not_whitespace (htrim : Text.trim line = line) (hne : line ≠ [])
    (h : ∀ c ∈ hostField line, Text.isWhitespace c = false) : ReadAlike line := by
  intro hosts keyType key hentry
  obtain ⟨c, hc⟩ : ∃ c, line.head? = some c := by
    cases line with
    | nil => exact absurd rfl hne
    | cons c line => exact ⟨c, rfl⟩
  have hhead : Text.isWhitespace c = false := not_whitespace_head (s := line) (htrim.symm ▸ hc)
  have hblank : ∀ d, isBlank d = true → Text.isWhitespace d = true := by
    intro d hd
    simp only [isBlank, Bool.or_eq_true, decide_eq_true_eq] at hd
    rcases hd with rfl | rfl
    · decide
    · decide
  have hdrop : line.dropWhile isBlank = line := by
    cases line with
    | nil => rfl
    | cons d line =>
      cases hc
      refine List.dropWhile_cons_of_neg fun hd => ?_
      rw [hblank c hd] at hhead
      cases hhead
  have hword := (knownHostsEntry_eq_some hentry).1
  rw [head?_splitWhitespace hc hhead] at hword
  unfold hostField at h ⊢
  rw [hdrop] at h ⊢
  rw [← Option.some.inj hword]
  refine takeWhile_eq_of_forall (fun d hd => ?_) fun d hd => by simp [h d hd]
  by_contra hnot
  have hspace := hblank d (by simpa using hnot)
  simp [hspace] at hd

/-- The host token of an entry is not empty. -/
theorem hosts_ne_nil (htrim : Text.trim line = line) (hne : line ≠ [])
    (hentry : knownHostsEntry line = some (hosts, keyType, key)) : hosts ≠ [] := by
  obtain ⟨c, rest, hline⟩ : ∃ c rest, line = c :: rest := List.exists_cons_of_ne_nil hne
  have hc : line.head? = some c := by rw [hline]; rfl
  have hhead : Text.isWhitespace c = false := not_whitespace_head (s := line) (htrim.symm ▸ hc)
  have hword := (knownHostsEntry_eq_some hentry).1
  rw [head?_splitWhitespace hc hhead, hline, List.takeWhile_cons_of_pos (by simp [hhead])] at hword
  rw [← Option.some.inj hword]
  exact List.cons_ne_nil _ _

/-- A line that OpenSSH reads alike carries nothing when it is literal. -/
theorem not_carries_of_literal (hliteral : literalHostKeyLine line = true)
    (halike : ReadAlike line) : ¬ Carries (hostField line) := by
  obtain ⟨hosts, keyType, key, hentry, hplain⟩ := literalHostKeyLine_iff.1 hliteral
  obtain ⟨-, hhash, hmarker⟩ := knownHostsEntry_eq_some hentry
  rw [halike hosts keyType key hentry]
  rintro (hhead | hhead | ⟨c, hc, hpattern⟩)
  · exact hmarker hhead
  · exact hhash hhead
  · rw [hplain c hc] at hpattern
    cases hpattern

/-- One retained line: it authorises what was contacted exactly when OpenSSH reads it as it was
meant. -/
theorem authorised_iff_faithful (hline : line ∈ retainedScanLines target ls)
    (htarget : target ∈ contacted) (hnames : ∀ t ∈ contacted, HostName t.host) :
    Authorised contacted line ↔ Faithful contacted target line := by
  obtain ⟨⟨l, -, htrimmed⟩, hne, -, hliteral, hosts, keyType, key, hentry, token, htoken, hsame⟩ :=
    mem_retainedScanLines.1 hline
  have htrim : Text.trim line = line := by rw [htrimmed, trim_trim]
  -- the plain name does not look like one with a port
  have hunbracketed : SameHost hosts target.host → ∀ t, ¬ SameHost hosts (bracketedToken t) := by
    intro hplain t hbracketed
    have hhead := (head?_congr_of_eqIgnoreAsciiCase hbracketed (d := '[') rfl).2 rfl
    have hhost := (head?_congr_of_eqIgnoreAsciiCase hplain (d := '[') rfl).1 hhead
    exact (isHostChar_plain (hnames target htarget '[' (List.mem_of_head? hhost))).2.2 rfl
  constructor
  · rintro ⟨-, t, ht, hauthorises⟩
    have halike : ReadAlike line := readAlike_of_not_whitespace htrim hne fun c hc =>
      hauthorises.not_whitespace (hnames t ht) hc
    refine ⟨halike, fun hosts' keyType' key' hentry' hplain => ?_⟩
    rw [halike _ _ _ hentry'] at hauthorises
    cases hentry.symm.trans hentry'
    rcases hauthorises with ⟨hport, hhost⟩ | hbracketed
    · exact ⟨t, ht, hport, hhost⟩
    · exact absurd hbracketed (hunbracketed hplain t)
  · rintro ⟨halike, hcontacted⟩
    have hfield : hostField line = hosts := halike _ _ _ hentry
    have hcomma : ',' ∉ hosts := by
      intro hmem
      have hmem := (mem_congr_of_eqIgnoreAsciiCase hsame (d := ',') rfl).1 hmem
      exact (scanHostTokens_plain (hnames target htarget) htoken hmem).2 rfl
    refine ⟨⟨?_, not_carries_of_literal hliteral halike, ?_⟩, ?_⟩
    · rw [hfield]
      exact hosts_ne_nil htrim hne hentry
    · rw [hfield]
      exact hcomma
    · rw [hfield]
      rcases List.mem_pair.1 htoken with rfl | rfl
      · obtain ⟨t, ht, hport, hhost⟩ := hcontacted _ _ _ hentry hsame
        exact ⟨t, ht, .inl ⟨hport, hhost⟩⟩
      · exact ⟨target, htarget, .inr hsame⟩

end

/-! ## Any number of bootstraps -/

/-- The known_hosts file, and the targets whose host keys were scanned. -/
structure ScannedHosts where
  file : Text
  contacted : List SshTarget

/-- A bootstrap comes as far as its scan. -/
def Bootstrap.Contacts (checkFile : Text → Except String Unit) (b : Bootstrap) : Prop :=
  validateTarget checkFile b.target = .ok () ∧ b.acceptedHostKeys ≠ []

instance (checkFile : Text → Except String Unit) (b : Bootstrap) :
    Decidable (b.Contacts checkFile) := inferInstanceAs (Decidable (_ ∧ _))

/-- One bootstrap. -/
def ScannedHosts.bootstrapped (checkFile : Text → Except String Unit) (path : String)
    (s : ScannedHosts) (b : Bootstrap) : ScannedHosts where
  file := Rackio.bootstrapped checkFile path s.file b
  contacted := if b.Contacts checkFile then s.contacted ++ [b.target] else s.contacted

/-- Before the first bootstrap. -/
def ScannedHosts.none : ScannedHosts := ⟨[], []⟩

/-- Every line of the file authorises only what was contacted. -/
def ScannedHosts.ContactedOnly (s : ScannedHosts) : Prop :=
  ∀ line ∈ lines s.file, Authorised s.contacted line

/-- A bootstrap that replaces the file retains lines that OpenSSH reads as they were meant. -/
def ScansFaithfully (checkFile : Text → Except String Unit) (path : String) (s : ScannedHosts)
    (b : Bootstrap) : Prop :=
  ∀ file, bootstrap checkFile path b s.file = .ok file →
    ∀ line ∈ b.keys, Faithful (s.contacted ++ [b.target]) b.target line

/-- What every state of a run has, besides what is asked of it. -/
structure ScannedHosts.WellFormed (s : ScannedHosts) : Prop where
  trimmed : ∀ line ∈ lines s.file, Text.trim line = line
  names : ∀ target ∈ s.contacted, HostName target.host

section
variable {checkFile : Text → Except String Unit} {path : String} {s : ScannedHosts} {b : Bootstrap}
  {bs : List Bootstrap} {contacted contacted' : List SshTarget} {line : Text}

/-- A valid target has a name of host characters. -/
theorem hostName_of_validateTarget {target : SshTarget}
    (h : validateTarget checkFile target = .ok ()) : HostName target.host := by
  unfold validateTarget at h
  split at h
  · cases h
  · next hhost =>
    have hall : target.host.all isHostChar = true :=
      not_not.1 (not_or.1 (not_or.1 hhost).2).2
    exact List.all_eq_true.1 hall

/-- What was contacted is not forgotten. -/
theorem Authorised.mono (h : Authorised contacted line) (hsub : contacted ⊆ contacted') :
    Authorised contacted' line := by
  obtain ⟨hliteral, target, htarget, hauthorises⟩ := h
  exact ⟨hliteral, target, hsub htarget, hauthorises⟩

theorem ScannedHosts.contacted_subset :
    s.contacted ⊆ (s.bootstrapped checkFile path b).contacted := by
  unfold ScannedHosts.bootstrapped
  dsimp only
  split
  · exact List.subset_append_left _ _
  · exact List.Subset.refl _

/-- A bootstrap keeps the state of a run well formed. -/
theorem ScannedHosts.WellFormed.bootstrapped (h : s.WellFormed) :
    (s.bootstrapped checkFile path b).WellFormed := by
  refine ⟨fun line hline => ?_, fun target htarget => ?_⟩
  · rcases bootstrapped_cases checkFile path s.file b with hsame | ⟨merged, hmerged, hfile⟩
    · have hline : line ∈ lines s.file := hsame ▸ hline
      exact h.trimmed line hline
    · have hline : line ∈ lines (unlines merged.keys) := hfile ▸ hline
      rw [lines_merged hmerged] at hline
      exact trim_of_mem_merged hmerged hline
  · unfold ScannedHosts.bootstrapped at htarget
    dsimp only at htarget
    split at htarget
    · next hcontacts =>
      rcases List.mem_append.1 htarget with htarget | htarget
      · exact h.names target htarget
      · rw [List.mem_singleton.1 htarget]
        exact hostName_of_validateTarget hcontacts.1
    · exact h.names target htarget

/-- One bootstrap. -/
theorem contactedOnly_iff (hwf : s.WellFormed) (honly : s.ContactedOnly) :
    (s.bootstrapped checkFile path b).ContactedOnly ↔ ScansFaithfully checkFile path s b := by
  cases hb : bootstrap checkFile path b s.file with
  | error e =>
    have hfile : (s.bootstrapped checkFile path b).file = s.file := by
      show Rackio.bootstrapped checkFile path s.file b = s.file
      unfold Rackio.bootstrapped
      rw [hb]
    refine iff_of_true (fun line hline => ?_) fun file hfile => by cases hb.symm.trans hfile
    rw [hfile] at hline
    exact (honly line hline).mono ScannedHosts.contacted_subset
  | ok file =>
    obtain ⟨hvalid, haccepted, merged, hmerged, rfl⟩ := bootstrap_eq_ok hb
    have hcontacted : (s.bootstrapped checkFile path b).contacted =
        s.contacted ++ [b.target] := if_pos ⟨hvalid, haccepted⟩
    have hlines : lines (s.bootstrapped checkFile path b).file = merged.keys := by
      rw [← lines_merged hmerged]
      show lines (Rackio.bootstrapped checkFile path s.file b) = _
      unfold Rackio.bootstrapped
      rw [hb]
    have hnames : ∀ t ∈ s.contacted ++ [b.target], HostName t.host := by
      rw [← hcontacted]
      exact hwf.bootstrapped.names
    have hretained : ∀ line ∈ b.keys,
        (Authorised (s.contacted ++ [b.target]) line ↔
          Faithful (s.contacted ++ [b.target]) b.target line) := fun line hline =>
      authorised_iff_faithful hline (List.mem_append_right _ (.head _)) hnames
    constructor
    · intro h file' hfile' line hline
      refine (hretained line hline).1 ?_
      rw [← hcontacted]
      refine h line ?_
      rw [hlines, mem_mergedKnownHostLines hmerged]
      exact .inr (mem_incomingLines_retained.2 hline)
    · intro h line hline
      rw [hcontacted]
      rw [hlines, mem_mergedKnownHostLines hmerged] at hline
      rcases hline with hold | hnew
      · obtain ⟨⟨l, hl, rfl⟩, -⟩ := mem_keptLines.1 hold
        rw [hwf.trimmed l hl]
        exact (honly l hl).mono (List.subset_append_left _ _)
      · have hline := mem_incomingLines_retained.1 hnew
        exact (hretained line hline).2 (h _ hb line hline)

end

/-- For every list of bootstraps with any scan output, from no file: after each of them the file
authorises only endpoints that were contacted, exactly when each that replaces the file retains
lines that OpenSSH reads as they were meant. Whatever the file holds, a merge leaves no marker, hash
or pattern in a line whose host token OpenSSH reads as the filter does. -/
theorem contacted_hosts_only_iff (checkFile : Text → Except String Unit) (path : String)
    (bs : List Bootstrap) :
    (Lts.EveryStep (ScannedHosts.bootstrapped checkFile path)
        (fun s b => (s.bootstrapped checkFile path b).ContactedOnly) .none bs ↔
      Lts.EveryStep (ScannedHosts.bootstrapped checkFile path) (ScansFaithfully checkFile path)
        .none bs) ∧
    ∀ existing keys merged, mergedKnownHostLines existing keys = .ok merged →
      ∀ line ∈ merged.keys, ReadAlike line → ¬ Carries (hostField line) := by
  refine ⟨?_, fun existing keys merged hmerged line hline halike => ?_⟩
  · refine Lts.everyStep_congr (I := fun s => s.WellFormed ∧ s.ContactedOnly) ?_
      (fun b _ s hs => contactedOnly_iff hs.1 hs.2) fun b _ s hs h => ⟨hs.1.bootstrapped, h⟩
    refine ⟨⟨?_, ?_⟩, ?_⟩
    · rintro line ⟨⟩
    · rintro target ⟨⟩
    · rintro line ⟨⟩
  · refine not_carries_of_literal ?_ halike
    rcases (mem_mergedKnownHostLines hmerged).1 hline with hold | hnew
    · exact (mem_keptLines.1 hold).2
    · exact (mem_incomingLines.1 hnew).2

/-- A bootstrap of a machine on port 2222 that the operator confirmed. -/
def portedContact (stdout : String) : Bootstrap where
  target := { serverTarget with port := 2222 }
  stdout := stdout.toList
  acceptedHostKeys := [stdout.toList]
  save := .ok ()

/-- The state after one bootstrap. -/
def scannedOnce (b : Bootstrap) : ScannedHosts :=
  ScannedHosts.none.bootstrapped (fun _ => .ok ()) "known_hosts" b

/-- A key for the scanned port authorises that port. -/
theorem contacted_hosts_only_iff_ported :
    (scannedOnce (portedContact "[server.test]:2222 ssh-ed25519 AAAAKey")).ContactedOnly := by
  have hkeys : (portedContact "[server.test]:2222 ssh-ed25519 AAAAKey").keys =
      ["[server.test]:2222 ssh-ed25519 AAAAKey".toList] := by
    decide
  have hentry : knownHostsEntry "[server.test]:2222 ssh-ed25519 AAAAKey".toList =
      some ("[server.test]:2222".toList, "ssh-ed25519".toList, "AAAAKey".toList) := by
    decide
  have hfaithful : ScansFaithfully (fun _ => .ok ()) "known_hosts" .none
      (portedContact "[server.test]:2222 ssh-ed25519 AAAAKey") := by
    intro file _ line hline
    rw [hkeys, List.mem_singleton] at hline
    subst hline
    refine ⟨fun hosts keyType key h => ?_, fun hosts keyType key h hsame => ?_⟩
    · cases hentry.symm.trans h
      decide
    · cases hentry.symm.trans h
      exact absurd (eqIgnoreAsciiCase_iff.1 hsame) (by decide)
  have hevery := (contacted_hosts_only_iff (fun _ => .ok ()) "known_hosts"
    [portedContact "[server.test]:2222 ssh-ed25519 AAAAKey"]).1.2
    (Lts.everyStep_cons_iff.2 ⟨hfaithful, Lts.everyStep_nil⟩)
  exact (Lts.everyStep_cons_iff.1 hevery).1

/-- Two scans after which the file authorises what was not contacted: a key without a port for port
2222, and a list of hosts that a vertical tab hides from the filter. -/
theorem uncontacted_host_authorised :
    (lines (scannedOnce (portedContact "server.test ssh-ed25519 AAAAKey")).file =
        ["server.test ssh-ed25519 AAAAKey".toList] ∧
      ¬ (scannedOnce (portedContact "server.test ssh-ed25519 AAAAKey")).ContactedOnly) ∧
    lines (scannedOnce (confirmed "server.test\x0b,* ssh-ed25519 AAAAKey")).file =
        ["server.test\x0b,* ssh-ed25519 AAAAKey".toList] ∧
      ¬ (scannedOnce (confirmed "server.test\x0b,* ssh-ed25519 AAAAKey")).ContactedOnly := by
  have hplain : lines (scannedOnce (portedContact "server.test ssh-ed25519 AAAAKey")).file =
      ["server.test ssh-ed25519 AAAAKey".toList] := by
    decide +kernel
  have hhidden : lines (scannedOnce (confirmed "server.test\x0b,* ssh-ed25519 AAAAKey")).file =
      ["server.test\x0b,* ssh-ed25519 AAAAKey".toList] := by
    decide +kernel
  refine ⟨⟨hplain, fun h => ?_⟩, hhidden, fun h => ?_⟩
  · unfold ScannedHosts.ContactedOnly at h
    rw [hplain, List.forall_mem_singleton] at h
    obtain ⟨-, target, htarget, hauthorises⟩ := h
    have hcontacted : (scannedOnce (portedContact "server.test ssh-ed25519 AAAAKey")).contacted =
        [{ serverTarget with port := 2222 }] := rfl
    rw [hcontacted, List.mem_singleton] at htarget
    subst htarget
    rcases hauthorises with ⟨hport, -⟩ | hbracketed
    · cases hport
    · exact absurd (eqIgnoreAsciiCase_iff.1 hbracketed) (by decide)
  · unfold ScannedHosts.ContactedOnly at h
    rw [hhidden, List.forall_mem_singleton] at h
    exact h.1.literal (.inr (.inr ⟨'*', by decide, rfl⟩))

end Rackio
