import Rackio.Desktop.KnownHosts
import Rackio.Lib.Run

/-!
# Changed host keys

Whether a merge ever leaves two keys of one type for one host. The filter of a scan compares host
tokens without case, as OpenSSH does, and the check of a merge compares them exactly, so a changed
key is refused under the spelling that is stored, and trusted beside the old one under another.

`substitutionRefused_iff` is one merge, and `changed_keys_refused_iff` any number of bootstraps.
-/

namespace Rackio

open Text

/-- Two entries whose host tokens are the same to `same`, with different keys of one type. -/
def ChangedKey (same : Text → Text → Prop) (line known : Text) : Prop :=
  ∃ hosts knownHosts keyType key knownKey,
    knownHostsEntry line = some (hosts, keyType, key) ∧
    knownHostsEntry known = some (knownHosts, keyType, knownKey) ∧
    same hosts knownHosts ∧ knownKey ≠ key

/-- The host tokens are the same but for their case. -/
def SameHost (hosts hosts' : Text) : Prop := eqIgnoreAsciiCase hosts hosts' = true

/-- Two of the lines trust different keys of one type for one host. -/
def Conflicting (ls : List Text) : Prop :=
  ∃ line ∈ ls, ∃ known ∈ ls, ChangedKey SameHost line known

/-- A scan has at most one key of a type for its host. -/
def OneKeyPerType (keys : List Text) : Prop :=
  ∀ line ∈ keys, ∀ line' ∈ keys, ∀ hosts hosts' keyType key key',
    knownHostsEntry line = some (hosts, keyType, key) →
    knownHostsEntry line' = some (hosts', keyType, key') → key' = key

/-- A changed key does not come under another spelling of a stored host only: if it does, then the
same scan also has a changed key under a stored spelling. -/
def SpelledAlike (existing : Text) (keys : List Text) : Prop :=
  (∃ line ∈ (incomingLines keys).keys, ∃ known ∈ (keptLines existing).keys,
      ChangedKey SameHost line known) →
    ∃ line ∈ (incomingLines keys).keys, ∃ known ∈ (keptLines existing).keys,
      ChangedKey (· = ·) line known

/-- No changed key is trusted by a bootstrap: the file after a merge has no conflict, and a merge
that would make one fails and leaves the file. -/
structure SubstitutionRefused (checkFile : Text → Except String Unit) (path : String)
    (existing : Text) (b : Bootstrap) : Prop where
  accepted : ∀ merged, mergedKnownHostLines existing b.keys = .ok merged →
    ¬ Conflicting (lines (unlines merged.keys))
  refused : Conflicting ((keptLines existing).extend (incomingLines b.keys).keys).keys →
    (∃ error, mergedKnownHostLines existing b.keys = .error error) ∧
      bootstrapped checkFile path existing b = existing

section
variable {checkFile : Text → Except String Unit} {path : String} {existing : Text} {b : Bootstrap}
  {keys ls ls' : List Text} {line known : Text}

/-- Which of two entries is the changed one does not matter. -/
theorem ChangedKey.symm (h : ChangedKey SameHost line known) : ChangedKey SameHost known line := by
  obtain ⟨hosts, knownHosts, keyType, key, knownKey, hline, hknown, hsame, hne⟩ := h
  exact ⟨knownHosts, hosts, keyType, knownKey, key, hknown, hline, eqIgnoreAsciiCase_symm hsame,
    hne.symm⟩

/-- Fewer lines conflict less. -/
theorem Conflicting.mono (h : Conflicting ls) (hsub : ∀ line ∈ ls, line ∈ ls') :
    Conflicting ls' := by
  obtain ⟨line, hline, known, hknown, hchanged⟩ := h
  exact ⟨line, hsub line hline, known, hsub known hknown, hchanged⟩

/-- A merge fails exactly when a key changed under the stored spelling. -/
theorem mergedKnownHostLines_error_iff :
    (∃ error, mergedKnownHostLines existing keys = .error error) ↔
      ∃ line ∈ (incomingLines keys).keys, ∃ known ∈ (keptLines existing).keys,
        ChangedKey (· = ·) line known := by
  have hmerge : (∃ error, mergedKnownHostLines existing keys = .error error) ↔
      ¬ detectHostKeyConflict (keptLines existing) (incomingLines keys) = .ok () := by
    unfold mergedKnownHostLines
    dsimp only
    cases detectHostKeyConflict (keptLines existing) (incomingLines keys) with
    | error e => exact iff_of_true ⟨e, rfl⟩ fun h => by cases h
    | ok _ =>
      refine iff_of_false ?_ (not_not.2 rfl)
      rintro ⟨e, h⟩
      cases h
  rw [hmerge, detectHostKeyConflict_eq_ok_iff]
  constructor
  · intro h
    by_contra hnone
    refine h fun line hline known hknown hosts keyType key knownKey hentry hknownEntry => ?_
    by_contra hne
    exact hnone ⟨line, hline, known, hknown, hosts, hosts, keyType, key, knownKey, hentry,
      hknownEntry, rfl, hne⟩
  · rintro ⟨line, hline, known, hknown, hosts, _, keyType, key, knownKey, hentry, hknownEntry, rfl,
      hne⟩ hall
    exact hne (hall line hline known hknown hosts keyType key knownKey hentry hknownEntry)

/-- A conflict of two sets that have none is between them. -/
theorem conflicting_extend_iff {old new : LineSet} (hold : ¬ Conflicting old.keys)
    (hnew : ¬ Conflicting new.keys) :
    Conflicting (old.extend new.keys).keys ↔
      ∃ line ∈ new.keys, ∃ known ∈ old.keys, ChangedKey SameHost line known := by
  constructor
  · rintro ⟨line, hline, known, hknown, hchanged⟩
    rcases LineSet.mem_extend.1 hline with hline | hline
    · rcases LineSet.mem_extend.1 hknown with hknown | hknown
      · exact absurd ⟨line, hline, known, hknown, hchanged⟩ hold
      · exact ⟨known, hknown, line, hline, hchanged.symm⟩
    · rcases LineSet.mem_extend.1 hknown with hknown | hknown
      · exact ⟨line, hline, known, hknown, hchanged⟩
      · exact absurd ⟨line, hline, known, hknown, hchanged⟩ hnew
  · rintro ⟨line, hline, known, hknown, hchanged⟩
    exact ⟨line, LineSet.mem_extend.2 (.inr hline), known, LineSet.mem_extend.2 (.inl hknown),
      hchanged⟩

/-- The keys of one scan do not conflict. -/
theorem OneKeyPerType.not_conflicting (h : OneKeyPerType b.keys) :
    ¬ Conflicting (incomingLines b.keys).keys := by
  rintro ⟨line, hline, known, hknown, hosts, knownHosts, keyType, key, knownKey, hentry,
    hknownEntry, -, hne⟩
  have hline := mem_incomingLines_retained.1 hline
  have hknown := mem_incomingLines_retained.1 hknown
  exact hne (h line hline known hknown hosts knownHosts keyType key knownKey hentry hknownEntry)

/-- One bootstrap over a file without a conflict. -/
theorem substitutionRefused_iff (hclean : ¬ Conflicting (keptLines existing).keys)
    (hone : OneKeyPerType b.keys) :
    SubstitutionRefused checkFile path existing b ↔ SpelledAlike existing b.keys := by
  have hconflict := conflicting_extend_iff hclean hone.not_conflicting
  constructor
  · intro h hchanged
    exact mergedKnownHostLines_error_iff.1 (h.refused (hconflict.2 hchanged)).1
  · intro hspelled
    refine ⟨fun merged hmerged hbad => ?_, fun hbad => ?_⟩
    · rw [lines_merged hmerged, (mergedKnownHostLines_eq_ok_iff.1 hmerged).2] at hbad
      obtain ⟨error, herror⟩ :=
        mergedKnownHostLines_error_iff.2 (hspelled (hconflict.1 hbad))
      rw [hmerged] at herror
      cases herror
    · have herror := mergedKnownHostLines_error_iff.2 (hspelled (hconflict.1 hbad))
      refine ⟨herror, ?_⟩
      rcases bootstrapped_cases checkFile path existing b with hsame | ⟨merged, hmerged, -⟩
      · exact hsame
      · obtain ⟨error, herror⟩ := herror
        rw [hmerged] at herror
        cases herror

/-- A bootstrap that refuses changed keys leaves a file without a conflict. -/
theorem SubstitutionRefused.clean (h : SubstitutionRefused checkFile path existing b)
    (hclean : ¬ Conflicting (keptLines existing).keys) :
    ¬ Conflicting (keptLines (bootstrapped checkFile path existing b)).keys := by
  rcases bootstrapped_cases checkFile path existing b with hsame | ⟨merged, hmerged, hfile⟩
  · rw [hsame]
    exact hclean
  · have haccepted := h.accepted merged hmerged
    rw [lines_merged hmerged] at haccepted
    rw [hfile]
    exact fun hbad => haccepted (hbad.mono fun line => mem_of_mem_keptLines_merged hmerged)

end

/-- There is no conflict before the first bootstrap. -/
theorem not_conflicting_nil : ¬ Conflicting (keptLines []).keys := by
  rintro ⟨line, hline, -⟩
  cases hline

/-- When no bootstrap trusts a changed key, the file has no conflict. -/
theorem not_conflicting_of_everyStep {checkFile : Text → Except String Unit} {path : String}
    {bs : List Bootstrap}
    (h : Lts.EveryStep (bootstrapped checkFile path) (SubstitutionRefused checkFile path) [] bs) :
    ¬ Conflicting (keptLines (knownHosts checkFile path bs)).keys :=
  Lts.invariant_of_everyStep (I := fun existing => ¬ Conflicting (keptLines existing).keys)
    not_conflicting_nil (fun _ _ _ hclean hstep => hstep.clean hclean) h

/-- For every list of bootstraps whose scans have at most one key of a type for their host, from no
file: no bootstrap trusts a changed key exactly when no changed key comes to one of them only under
another spelling of a stored host. -/
theorem changed_keys_refused_iff {checkFile : Text → Except String Unit} {path : String}
    {bs : List Bootstrap} (hone : ∀ b ∈ bs, OneKeyPerType b.keys) :
    Lts.EveryStep (bootstrapped checkFile path) (SubstitutionRefused checkFile path) [] bs ↔
      Lts.EveryStep (bootstrapped checkFile path)
        (fun existing b => SpelledAlike existing b.keys) [] bs :=
  Lts.everyStep_congr (I := fun existing => ¬ Conflicting (keptLines existing).keys)
    not_conflicting_nil (fun b hb _ hclean => substitutionRefused_iff hclean (hone b hb))
    fun _ _ _ hclean h => h.clean hclean

/-- A machine that is bootstrapped on the default port. -/
def serverTarget : SshTarget := ⟨"server.test".toList, "operator".toList, 22, none⟩

/-- A bootstrap of this machine that the operator confirmed. -/
def confirmed (stdout : String) : Bootstrap where
  target := serverTarget
  stdout := stdout.toList
  acceptedHostKeys := [stdout.toList]
  save := .ok ()

/-- The first contact with the machine. -/
def firstContact : Bootstrap := confirmed "server.test ssh-ed25519 AAAAOriginal"

/-- A changed key under another spelling. -/
def respelledKey : Bootstrap := confirmed "SERVER.TEST ssh-ed25519 AAAAReplaced"

/-- A changed key under the stored spelling. -/
def replacedKey : Bootstrap := confirmed "server.test ssh-ed25519 AAAAReplaced"

/-- A single line has one key. -/
theorem oneKeyPerType_singleton (line : Text) : OneKeyPerType [line] := by
  intro l hl l' hl' hosts hosts' keyType key key' hentry hentry'
  rw [List.mem_singleton] at hl hl'
  rw [hl'] at hentry'
  rw [hl, hentry'] at hentry
  cases hentry
  rfl

/-- The scan of one line retains it when it names the machine. -/
theorem keys_firstContact :
    firstContact.keys = ["server.test ssh-ed25519 AAAAOriginal".toList] := by
  decide

theorem keys_replacedKey :
    replacedKey.keys = ["server.test ssh-ed25519 AAAAReplaced".toList] := by
  decide

theorem keys_respelledKey :
    respelledKey.keys = ["SERVER.TEST ssh-ed25519 AAAAReplaced".toList] := by
  decide

/-- The file after the first contact. -/
def contacted : Text := bootstrapped (fun _ => .ok ()) "known_hosts" [] firstContact

theorem mem_keptLines_contacted :
    "server.test ssh-ed25519 AAAAOriginal".toList ∈ (keptLines contacted).keys := by
  have hkept : (keptLines contacted).keys = ["server.test ssh-ed25519 AAAAOriginal".toList] := by
    decide +kernel
  rw [hkept]
  exact .head _

theorem mem_incomingLines_replacedKey :
    "server.test ssh-ed25519 AAAAReplaced".toList ∈ (incomingLines replacedKey.keys).keys := by
  refine mem_incomingLines_retained.2 ?_
  change _ ∈ replacedKey.keys
  rw [keys_replacedKey]
  exact .head _

/-- The key has changed under the very spelling that is stored. -/
theorem changedKey_replaced {same : Text → Text → Prop}
    (hsame : same "server.test".toList "server.test".toList) :
    ChangedKey same "server.test ssh-ed25519 AAAAReplaced".toList
      "server.test ssh-ed25519 AAAAOriginal".toList :=
  ⟨"server.test".toList, "server.test".toList, "ssh-ed25519".toList, "AAAAReplaced".toList,
    "AAAAOriginal".toList, by decide, by decide, hsame, by decide⟩

/-- A changed key under the stored spelling is refused, and the file of the first contact stays. -/
theorem changed_keys_refused_iff_replaced :
    SubstitutionRefused (fun _ => .ok ()) "known_hosts" [] firstContact ∧
      (∃ error, mergedKnownHostLines contacted replacedKey.keys = .error error) ∧
      bootstrapped (fun _ => .ok ()) "known_hosts" contacted replacedKey = contacted := by
  have hone : ∀ b ∈ [firstContact, replacedKey], OneKeyPerType b.keys := by
    intro b hb
    rcases List.mem_pair.1 hb with rfl | rfl
    · rw [keys_firstContact]
      exact oneKeyPerType_singleton _
    · rw [keys_replacedKey]
      exact oneKeyPerType_singleton _
  have hfirst : SpelledAlike [] firstContact.keys := by
    rintro ⟨_, _, known, hknown, -⟩
    cases hknown
  have hsecond : SpelledAlike contacted replacedKey.keys := fun _ =>
    ⟨_, mem_incomingLines_replacedKey, _, mem_keptLines_contacted, changedKey_replaced rfl⟩
  have hevery : Lts.EveryStep (bootstrapped (fun _ => .ok ()) "known_hosts")
      (SubstitutionRefused (fun _ => .ok ()) "known_hosts") [] [firstContact, replacedKey] :=
    (changed_keys_refused_iff hone).2 (Lts.everyStep_cons_iff.2 ⟨hfirst,
      Lts.everyStep_cons_iff.2 ⟨hsecond, Lts.everyStep_nil⟩⟩)
  obtain ⟨hcontact, hrest⟩ := Lts.everyStep_cons_iff.1 hevery
  have hconflict :
      Conflicting ((keptLines contacted).extend (incomingLines replacedKey.keys).keys).keys :=
    ⟨_, LineSet.mem_extend.2 (.inr mem_incomingLines_replacedKey), _,
      LineSet.mem_extend.2 (.inl mem_keptLines_contacted),
      changedKey_replaced (eqIgnoreAsciiCase_iff.2 rfl)⟩
  exact ⟨hcontact, (Lts.everyStep_cons_iff.1 hrest).1.refused hconflict⟩

/-- A changed key that comes under another spelling is trusted beside the old one. -/
theorem changed_key_trusted :
    (∀ b ∈ [firstContact, respelledKey], OneKeyPerType b.keys) ∧
      lines (knownHosts (fun _ => .ok ()) "known_hosts" [firstContact, respelledKey]) =
        ["SERVER.TEST ssh-ed25519 AAAAReplaced".toList,
          "server.test ssh-ed25519 AAAAOriginal".toList] ∧
      ¬ Lts.EveryStep (bootstrapped (fun _ => .ok ()) "known_hosts")
        (SubstitutionRefused (fun _ => .ok ()) "known_hosts") [] [firstContact, respelledKey] := by
  refine ⟨fun b hb => ?_, by decide +kernel, fun h => not_conflicting_of_everyStep h ?_⟩
  · rcases List.mem_pair.1 hb with rfl | rfl
    · rw [keys_firstContact]
      exact oneKeyPerType_singleton _
    · rw [keys_respelledKey]
      exact oneKeyPerType_singleton _
  · have hkept : (keptLines (knownHosts (fun _ => .ok ()) "known_hosts"
        [firstContact, respelledKey])).keys =
          ["SERVER.TEST ssh-ed25519 AAAAReplaced".toList,
            "server.test ssh-ed25519 AAAAOriginal".toList] := by
      decide +kernel
    rw [hkept]
    refine ⟨_, .head _, _, .tail _ (.head _), ?_⟩
    exact ⟨"SERVER.TEST".toList, "server.test".toList, "ssh-ed25519".toList,
      "AAAAReplaced".toList, "AAAAOriginal".toList, by decide, by decide,
      eqIgnoreAsciiCase_iff.2 (by decide), by decide⟩

end Rackio
