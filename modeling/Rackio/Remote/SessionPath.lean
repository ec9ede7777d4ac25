import Rackio.Iroh.ConnectionPath
import Rackio.Remote.AddressRefresh

/-!
# What a session learns of its connection

The machine names the path of the connection and the viewer shows that name; the viewer observes the
direct addresses of the machine and keeps them. `path_shown` follows a name from the paths of the
endpoint to the snapshot, and `observed_addresses` the addresses from the paths of all sessions to
the record.
-/

namespace Rackio

open Lts Monitor

/-- The path the endpoint has selected. -/
def selectedPath (paths : List Path) : Option Path := paths.find? (·.isSelected)

/-- The snapshot of the viewer once the machine has answered: the paths are those the machine finds
at its looks. -/
def shownConnection (snapshot : RemoteMachineSnapshot) (looks : Nat → List Path) :
    RemoteMachineSnapshot :=
  let (path, rttMs) := connectionOfWire (answerConnectionPath looks)
  applyConnectionPath snapshot path rttMs

/-- The viewer shows what the machine settled for. -/
theorem shownConnection_eq (snapshot : RemoteMachineSnapshot) (looks : Nat → List Path) :
    shownConnection snapshot looks =
      applyConnectionPath snapshot (settledConnectionDetails looks).path
        (settledConnectionDetails looks).rttMs := by
  simp only [shownConnection, answerConnectionPath, connectionOfWire_connectionDetails]

/-- A viewer shows the connection as the machine named it at the first of at most eleven looks that
knows the selected path, or at the eleventh. The name stands for the selected path: relayed by its
transport alone, direct only over an IP address, and by LAN exactly if that address is local; and it
does not matter whether IPv4 addresses are written as mapped ones. -/
theorem path_shown (snapshot : RemoteMachineSnapshot) (looks : Nat → List Path) :
    (∃ look ≤ 10,
      (∀ earlier < look, Named (selectedPath (looks earlier)) .unknown) ∧
      (look < 10 → ¬ Named (selectedPath (looks look)) .unknown) ∧
      (∀ name, (shownConnection snapshot looks).path = name ↔
        Named (selectedPath (looks look)) name) ∧
      (shownConnection snapshot looks).rttMs =
        some ((selectedPath (looks look)).elim 0 fun path => durationMillis path.rtt)) ∧
    shownConnection snapshot (fun look => (looks look).map Path.mapped) =
      shownConnection snapshot looks := by
  obtain ⟨look, hlook, hsettle, hbefore, hlast⟩ :=
    exists_look_settleFrom (fun look => classifyConnection (looks look)) 0 10
  simp only [Nat.zero_add] at hsettle hbefore hlast
  have hdetails : settledConnectionDetails looks = classifyConnection (looks look) := hsettle
  have hrtt : (classifyConnection (looks look)).rttMs =
      (selectedPath (looks look)).elim 0 fun path => durationMillis path.rtt := by
    unfold classifyConnection selectedPath
    cases (looks look).find? (·.isSelected) <;> rfl
  refine ⟨⟨look, hlook, fun earlier h => ?_, fun h hunknown => ?_, fun name => ?_, ?_⟩, ?_⟩
  · exact (classifyConnection_path_iff _ _).1 (hbefore earlier h)
  · exact hlast h ((classifyConnection_path_iff _ _).2 hunknown)
  · rw [shownConnection_eq, hdetails]
    exact classifyConnection_path_iff _ _
  · rw [shownConnection_eq, hdetails, hrtt]
    rfl
  · simp only [shownConnection_eq, settledConnectionDetails, classifyConnection_mapped]

/-! ## Addresses -/

/-- The connection has a path to this IP address. -/
def Reaches (paths : List Path) (address : SocketAddr) : Prop :=
  ∃ path ∈ paths, path.remoteAddr = .ip address

section
variable {v w z : View} {es : List (Option Event)} {paths later : List Path}

/-- A connection observes nothing exactly if it has no IP path. -/
theorem observedDirectAddresses_eq_nil :
    observedDirectAddresses paths = [] ↔ ∀ address, ¬ Reaches paths address := by
  simp only [List.eq_nil_iff_forall_not_mem, mem_observedDirectAddresses, Reaches]

/-- The addresses of a merge were known or are observed. -/
theorem mem_refreshDirectAddresses {observed : List SocketAddr}
    {persist : Except RemoteFleetError Unit} {record : RemoteMachineRecord}
    {registry : RemoteMachineRegistry} {address : SocketAddr}
    (h : address ∈ (refreshDirectAddresses observed persist record registry).1.directAddresses) :
    address ∈ record.directAddresses ∨ address ∈ observed := by
  rw [refreshDirectAddresses_eq] at h
  unfold addressWrite at h
  split at h
  · exact .inl h
  · next hwrite =>
    split at hwrite
    · cases hwrite
    · cases hwrite
      split at h
      · rw [mergedDirectAddresses_eq] at h
        exact (List.mem_append.1 (List.mem_eraseDups.1 (List.mem_of_mem_take h))).symm
      · exact .inl h

/-- An address of the record after a run was in it before, or a session of the run observed it. -/
theorem address_of_run (hrun : Run Among v es z) {address : SocketAddr}
    (h : address ∈ z.task.record.directAddresses) :
    address ∈ v.task.record.directAddresses ∨
      ∃ observed persist, some (.connect observed persist) ∈ es ∧ address ∈ observed := by
  induction hrun with
  | nil => exact .inl h
  | @snoc es t u e hrun hstep ih =>
    have hbefore (h : address ∈ t.task.record.directAddresses) :
        address ∈ v.task.record.directAddresses ∨ ∃ observed persist,
          some (.connect observed persist) ∈ es ++ [e] ∧ address ∈ observed :=
      (ih h).imp_right fun ⟨o, p, hmem, ho⟩ => ⟨o, p, List.mem_append_left _ hmem, ho⟩
    rcases hstep.record_eq with hsame | ⟨o, p, rfl, hrefresh⟩
    · exact hbefore (hsame ▸ h)
    · rcases mem_refreshDirectAddresses (hrefresh ▸ h) with hold | hnew
      · exact hbefore hold
      · exact .inr ⟨o, p, List.mem_append_right _ (.head _), hnew⟩

end

/-- The sessions of a run observe what their connections reach. -/
def Observes (connections : List (List Path)) (es : List (Option Event)) : Prop :=
  ∀ observed persist, some (.connect observed persist) ∈ es →
    ∃ paths ∈ connections, observed = observedDirectAddresses paths

/-- The connection reaches the same IP addresses, in whatever order and over however many paths, or
none at all. -/
def SameOrNone (paths later : List Path) : Prop :=
  (∀ address, Reaches later address ↔ Reaches paths address) ∨ ∀ address, ¬ Reaches later address

/-- After the addresses of a session were written, sessions whose connections reach the same IP
addresses, or none, leave the record as it is and write nothing, whatever else happens in between.
And what a record gains in any run is an IP address that a connection of the run reached. -/
theorem observed_addresses :
    (∀ v w z : View, ∀ es paths connections persist merged registry,
      addressWrite (observedDirectAddresses paths) v.task.record = some merged →
      v.registry.updateAddresses persist v.task.record.endpointId merged = .ok registry →
      Step v (.connect (observedDirectAddresses paths) persist) w → Run Among w es z →
      Observes connections es → (∀ later ∈ connections, SameOrNone paths later) →
        z.task.record = w.task.record ∧
          ∀ later, SameOrNone paths later →
            addressWrite (observedDirectAddresses later) z.task.record = none) ∧
      ∀ v z : View, ∀ es connections, Run Among v es z → Observes connections es →
        ∀ address ∈ z.task.record.directAddresses,
          address ∈ v.task.record.directAddresses ∨
            ∃ paths ∈ connections, Reaches paths address := by
  have hobserved {paths later : List Path} (h : SameOrNone paths later) :
      observedDirectAddresses later = observedDirectAddresses paths ∨
        observedDirectAddresses later = [] :=
    h.imp observedDirectAddresses_congr observedDirectAddresses_eq_nil.2
  refine ⟨?_, ?_⟩
  · intro v w z es paths connections persist merged registry hwrite hok hstep hrun hes hsame
    have hmerged := directAddresses_of_connect hwrite hok hstep
    have hrecord := record_of_run hrun ⟨_, hmerged⟩ fun o p hmem => by
      obtain ⟨later, hlater, rfl⟩ := hes o p hmem
      exact hobserved (hsame later hlater)
    refine ⟨hrecord, fun later hlater => ?_⟩
    rcases hobserved hlater with heq | heq
    · rw [heq, hrecord]
      exact addressWrite_eq_none ⟨_, hmerged⟩
    · rw [heq]
      exact addressWrite_nil _
  · intro v z es connections hrun hes address haddress
    rcases address_of_run hrun haddress with hold | ⟨o, p, hmem, ho⟩
    · exact .inl hold
    · obtain ⟨paths, hpaths, rfl⟩ := hes o p hmem
      exact .inr ⟨paths, hpaths, mem_observedDirectAddresses.1 ho⟩

/-! ## A machine at home -/

/-- A path that is not selected. -/
def pathOver (remoteAddr : TransportAddr) : Path where
  isSelected := false
  isRelay := false
  remoteAddr := remoteAddr
  rtt := 3000000

/-- The paths of the first session: the two addresses, one of them twice, and a relay. -/
def homePaths : List Path :=
  (homeAddresses ++ homeAddresses.take 1).map (fun address => pathOver (.ip address)) ++
    [pathOver (.other "https://relay.test")]

/-- The paths of the second session: the two addresses in the other order. -/
def homePathsAgain : List Path := homeAddresses.reverse.map fun address => pathOver (.ip address)

theorem observedDirectAddresses_homePaths : observedDirectAddresses homePaths = homeAddresses := by
  decide

theorem observedDirectAddresses_homePathsAgain :
    observedDirectAddresses homePathsAgain = homeAddresses := by
  decide

/-- The sessions of the machine reach the same addresses. -/
theorem sameOrNone_homePaths : SameOrNone homePaths homePathsAgain := by
  refine .inl fun address => ?_
  unfold Reaches
  rw [← mem_observedDirectAddresses, ← mem_observedDirectAddresses,
    observedDirectAddresses_homePaths, observedDirectAddresses_homePathsAgain]

theorem observes_homeEvents : Observes [homePathsAgain] homeEvents := by
  intro observed persist hmem
  simp only [homeEvents, List.mem_cons, Option.some.injEq, reduceCtorEq, Event.connect.injEq,
    List.not_mem_nil, or_false, false_or] at hmem
  exact ⟨_, .head _, hmem.1.trans observedDirectAddresses_homePathsAgain.symm⟩

/-- The second session of the machine leaves the record as it is, and what the record holds after it
was in it before or is an address that the session reached. -/
theorem observed_addresses_home :
    homeAgain.task.record = homeConnected.task.record ∧
      addressWrite (observedDirectAddresses homePathsAgain) homeAgain.task.record = none ∧
      ∀ address ∈ homeAgain.task.record.directAddresses,
        address ∈ homeConnected.task.record.directAddresses ∨
          ∃ paths ∈ [homePathsAgain], Reaches paths address := by
  obtain ⟨hsettle, hgain⟩ := observed_addresses
  have hwrite : addressWrite (observedDirectAddresses homePaths) homeDialing.task.record =
      some homeRefreshed.directAddresses :=
    observedDirectAddresses_homePaths.symm ▸ addressWrite_homeDialing
  have hstep : Step homeDialing (.connect (observedDirectAddresses homePaths) (.ok ()))
      homeConnected :=
    observedDirectAddresses_homePaths.symm ▸ step_homeDialing
  have hsame : ∀ later ∈ [homePathsAgain], SameOrNone homePaths later := by
    intro later hlater
    rw [List.mem_singleton.1 hlater]
    exact sameOrNone_homePaths
  obtain ⟨hrecord, hnone⟩ := hsettle homeDialing homeConnected homeAgain homeEvents homePaths
    [homePathsAgain] (.ok ()) _ _ hwrite updateAddresses_homeDialing hstep run_homeConnected
    observes_homeEvents hsame
  exact ⟨hrecord, hnone homePathsAgain sameOrNone_homePaths,
    hgain homeConnected homeAgain homeEvents [homePathsAgain] run_homeConnected observes_homeEvents⟩

end Rackio
