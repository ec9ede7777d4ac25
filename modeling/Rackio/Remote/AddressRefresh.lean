import Rackio.Lib.Firsts
import Rackio.Lib.Run
import Rackio.Remote.Monitor

/-!
# The refresh of direct addresses

A session that comes up refreshes the addresses of its machine: it puts those it observes before
those it knew and keeps the first eight (`mergedDirectAddresses_eq`). To merge the same observation
again changes nothing (`mergedDirectAddresses_idem`), so once a refresh was written, the sessions
that observe the same addresses, or none, write nothing more (`addresses_settle`), whatever other
tasks make of the registry in between.
-/

namespace Rackio

open Lts

/-- The addresses that `refresh_direct_addresses` passes to `update_addresses`, if it calls it. -/
def addressWrite (observed : List SocketAddr) (record : RemoteMachineRecord) :
    Option (List SocketAddr) :=
  if observed = [] ∨ mergedDirectAddresses observed record.directAddresses = record.directAddresses
  then none
  else some (mergedDirectAddresses observed record.directAddresses)

namespace Monitor

/-- The steps of a monitor among other tasks: its own, and what others make of the registry and the
snapshots, which is no event of it. -/
inductive Among (v : View) : Option Event → View → Prop
  | own {e : Event} {v' : View} (h : Step v e v') : Among v (some e) v'
  | others (registry : RemoteMachineRegistry) (snapshots : Table String RemoteMachineSnapshot) :
      Among v none { v with registry, snapshots }

end Monitor

section
variable {observed known : List SocketAddr} {persist : Except RemoteFleetError Unit}
  {record : RemoteMachineRecord} {registry : RemoteMachineRegistry}

/-! ## The merge -/

/-- The first eight of the observed and then the known addresses, each where it first stands. -/
theorem mergedDirectAddresses_eq :
    mergedDirectAddresses observed known =
      (observed ++ known).eraseDups.take maxRecordDirectAddresses := by
  unfold mergedDirectAddresses
  rw [Firsts.foldl_eq_eraseDups]

/-- The observed addresses come first, and what follows was only known. -/
theorem mergedDirectAddresses_split :
    ∃ after, mergedDirectAddresses observed known =
        observed.eraseDups.take maxRecordDirectAddresses ++ after ∧
      ∀ address ∈ after, address ∈ known ∧ address ∉ observed := by
  refine ⟨_, mergedDirectAddresses_eq.trans (Firsts.take_eraseDups_append ..), fun a ha => ?_⟩
  have hmem := List.mem_filter.1 (List.mem_eraseDups.1 (List.mem_of_mem_take ha))
  exact ⟨hmem.1, by simpa using hmem.2⟩

theorem nodup_mergedDirectAddresses : (mergedDirectAddresses observed known).Nodup := by
  rw [mergedDirectAddresses_eq]
  exact (Firsts.nodup_eraseDups _).sublist (List.take_sublist _ _)

theorem length_mergedDirectAddresses :
    (mergedDirectAddresses observed known).length ≤ maxRecordDirectAddresses := by
  rw [mergedDirectAddresses_eq]
  exact List.length_take_le _ _

/-- The same observation again changes nothing. -/
theorem mergedDirectAddresses_idem (observed known : List SocketAddr) :
    mergedDirectAddresses observed (mergedDirectAddresses observed known) =
      mergedDirectAddresses observed known := by
  simp only [mergedDirectAddresses_eq]
  exact Firsts.take_eraseDups_append_idem ..

/-! ## The refresh -/

/-- A refresh calls `update_addresses` with what `addressWrite` says, or does nothing. -/
theorem refreshDirectAddresses_eq :
    refreshDirectAddresses observed persist record registry =
      match addressWrite observed record with
      | none => (record, registry)
      | some merged =>
        match registry.updateAddresses persist record.endpointId merged with
        | .ok registry => ({ record with directAddresses := merged }, registry)
        | .error _ => (record, registry) := by
  unfold refreshDirectAddresses addressWrite
  by_cases hempty : observed = []
  · simp only [hempty, true_or, if_true]
  · by_cases hsame : mergedDirectAddresses observed record.directAddresses = record.directAddresses
    · simp only [hempty, hsame, or_true, if_true, if_false]
    · rw [if_neg hempty, if_neg (not_or.2 ⟨hempty, hsame⟩)]
      exact if_neg hsame

/-- A record whose addresses are a merge of the observation is not written again. -/
theorem addressWrite_eq_none (h : ∃ known, record.directAddresses =
    mergedDirectAddresses observed known) : addressWrite observed record = none := by
  obtain ⟨known, h⟩ := h
  unfold addressWrite
  rw [h, mergedDirectAddresses_idem, if_pos (.inr rfl)]

/-- An empty observation writes nothing. -/
theorem addressWrite_nil (record : RemoteMachineRecord) : addressWrite [] record = none :=
  if_pos (.inl rfl)

namespace Monitor

/-- Only the refresh of a session changes the record of a task. -/
theorem Among.record_eq {v v' : View} {e : Option Event} (h : Among v e v') :
    v'.task.record = v.task.record ∨
      ∃ observed persist, e = some (.connect observed persist) ∧
        v'.task.record = (refreshDirectAddresses observed persist v.task.record v.registry).1 := by
  cases h with
  | own h =>
    cases h with
    | connect observed persist hphase hrefresh =>
      exact .inr ⟨observed, persist, rfl, by rw [hrefresh]⟩
    | _ => exact .inl rfl
  | others => exact .inl rfl

/-- A refresh that was written leaves a merge of what it observed. -/
theorem directAddresses_of_connect {v w : View} {merged : List SocketAddr}
    (hwrite : addressWrite observed v.task.record = some merged)
    (hok : v.registry.updateAddresses persist v.task.record.endpointId merged = .ok registry)
    (hstep : Step v (.connect observed persist) w) :
    w.task.record.directAddresses =
      mergedDirectAddresses observed v.task.record.directAddresses := by
  have hmerged : merged = mergedDirectAddresses observed v.task.record.directAddresses := by
    unfold addressWrite at hwrite
    split at hwrite
    · cases hwrite
    · exact (Option.some.inj hwrite).symm
  cases hstep with
  | connect _ _ hphase hrefresh =>
    rw [refreshDirectAddresses_eq, hwrite] at hrefresh
    simp only [hok] at hrefresh
    cases hrefresh
    exact hmerged

/-- While sessions observe the same addresses or none, a merged record stays as it is. -/
theorem record_of_run {w z : View} {es : List (Option Event)} (hrun : Run Among w es z)
    (hmerged : ∃ known, w.task.record.directAddresses = mergedDirectAddresses observed known)
    (hes : ∀ o p, some (.connect o p) ∈ es → o = observed ∨ o = []) :
    z.task.record = w.task.record := by
  induction hrun with
  | nil => rfl
  | @snoc es t u e hrun hstep ih =>
    have ht := ih fun o p hmem => hes o p (List.mem_append_left _ hmem)
    rcases hstep.record_eq with hsame | ⟨o, p, rfl, hrefresh⟩
    · exact hsame.trans ht
    · have hnone : addressWrite o t.task.record = none := by
        rcases hes o p (List.mem_append_right _ (.head _)) with rfl | rfl
        · exact addressWrite_eq_none (ht ▸ hmerged)
        · exact addressWrite_nil _
      rw [hrefresh, refreshDirectAddresses_eq, hnone]
      exact ht

end Monitor

end

open Monitor

/-- The merge of addresses is bounded, ordered and a fixed point; after a refresh that was written,
sessions with the same observation write no more; and a session that observes nothing leaves the
record and the registry as they are. -/
theorem addresses_settle :
    (∀ observed known : List SocketAddr,
      (mergedDirectAddresses observed known).Nodup ∧
        (mergedDirectAddresses observed known).length ≤ 8 ∧
        mergedDirectAddresses observed known = (observed ++ known).eraseDups.take 8 ∧
        (∃ after, mergedDirectAddresses observed known = observed.eraseDups.take 8 ++ after ∧
          ∀ address ∈ after, address ∈ known ∧ address ∉ observed) ∧
        mergedDirectAddresses observed (mergedDirectAddresses observed known) =
          mergedDirectAddresses observed known) ∧
      (∀ u observed persist merged registry w es z,
        addressWrite observed u.task.record = some merged →
        u.registry.updateAddresses persist u.task.record.endpointId merged = .ok registry →
        Step u (.connect observed persist) w → Run Among w es z →
        (∀ o p, some (.connect o p) ∈ es → o = observed ∨ o = []) →
          addressWrite observed z.task.record = none ∧ addressWrite [] z.task.record = none) ∧
      ∀ v persist v', Step v (.connect [] persist) v' →
        v'.task.record = v.task.record ∧ v'.registry = v.registry := by
  refine ⟨fun observed known => ⟨nodup_mergedDirectAddresses, length_mergedDirectAddresses,
    mergedDirectAddresses_eq, mergedDirectAddresses_split, mergedDirectAddresses_idem _ _⟩, ?_, ?_⟩
  · intro u observed persist merged registry w es z hwrite hok hstep hrun hes
    have hrecord := directAddresses_of_connect hwrite hok hstep
    have hsame := record_of_run hrun ⟨_, hrecord⟩ hes
    exact ⟨addressWrite_eq_none ⟨_, hsame ▸ hrecord⟩, addressWrite_nil _⟩
  · intro v persist v' hstep
    cases hstep with
    | connect _ _ hphase hrefresh =>
      rw [refreshDirectAddresses_eq, addressWrite_nil] at hrefresh
      cases hrefresh
      exact ⟨rfl, rfl⟩

/-! ## A machine at home -/

/-- The addresses that the sessions of the machine observe. -/
def homeAddresses : List SocketAddr :=
  [⟨.v4 0xc0a80105, 4433, 0, 0⟩, ⟨.v4 0xc0a80106, 4433, 0, 0⟩]

/-- The record of the machine, with the address at which it was paired. -/
def homeRecord : RemoteMachineRecord where
  node := default
  endpointId := "ae58ff8833241ac82d6ff7611046ed67"
  directAddresses := [⟨.v4 0xcb007107, 4433, 0, 0⟩]
  relayUrls := []
  pairedAtMs := 0
  lastSnapshot := none

/-- The machine is the only one of the registry, and its monitor dials it. -/
def homeDialing : View where
  registry := RemoteMachineRegistry.empty.store homeRecord
  snapshots := .empty
  task := ⟨homeRecord, .dialing, false⟩

/-- The record after the first session. -/
def homeRefreshed : RemoteMachineRecord :=
  { homeRecord with directAddresses := homeAddresses ++ homeRecord.directAddresses }

/-- The view after the first session is up. -/
def homeConnected : View where
  registry := homeDialing.registry.store homeRefreshed
  snapshots := .empty
  task := ⟨homeRefreshed, .connected, false⟩

/-- The first session fails, another task writes to the registry, and the second session observes
the same addresses. -/
def homeEvents : List (Option Event) :=
  [some (.fail (.timeout "subscribe")), some (.updateError 700), none, some .check,
    some (.connect homeAddresses (.ok ()))]

/-- The view after the second session is up. -/
def homeAgain : View where
  registry := homeDialing.registry
  snapshots := .empty
  task := ⟨homeRefreshed, .connected, false⟩

/-- The first session has something to write, and it can be written. -/
theorem addressWrite_homeDialing :
    addressWrite homeAddresses homeDialing.task.record = some homeRefreshed.directAddresses := by
  decide

theorem updateAddresses_homeDialing :
    homeDialing.registry.updateAddresses (.ok ()) homeDialing.task.record.endpointId
      homeRefreshed.directAddresses = .ok homeConnected.registry := rfl

/-- The first session comes up. -/
theorem step_homeDialing :
    Step homeDialing (.connect homeAddresses (.ok ())) homeConnected := by
  refine .connect homeAddresses (.ok ()) rfl ?_
  rw [refreshDirectAddresses_eq, addressWrite_homeDialing]
  rfl

/-- The second session comes up. -/
theorem run_homeConnected : Run Among homeConnected homeEvents homeAgain := by
  have hsecond : refreshDirectAddresses homeAddresses (.ok ()) homeRefreshed homeDialing.registry =
      (homeRefreshed, homeDialing.registry) := by
    rw [refreshDirectAddresses_eq, addressWrite_eq_none ⟨homeRecord.directAddresses, by decide⟩]
  refine run_cons_iff.2 ⟨_, .own (.fail (.timeout "subscribe") (.inr (.inl rfl))), ?_⟩
  refine run_cons_iff.2 ⟨_, .own (.updateError 700 rfl), ?_⟩
  refine run_cons_iff.2 ⟨_, .others homeDialing.registry .empty, ?_⟩
  refine run_cons_iff.2 ⟨_, .own (.checkPaired rfl rfl), ?_⟩
  refine run_cons_iff.2 ⟨_, .own (.connect homeAddresses (.ok ()) rfl hsecond), ?_⟩
  exact run_nil_iff.2 rfl

/-- After the two sessions of the machine nothing more is written. -/
theorem addresses_settle_home :
    Run Among homeConnected homeEvents homeAgain ∧
      addressWrite homeAddresses homeAgain.task.record = none ∧
      addressWrite [] homeAgain.task.record = none := by
  refine ⟨run_homeConnected, addresses_settle.2.1 homeDialing homeAddresses (.ok ()) _ _
    homeConnected homeEvents homeAgain addressWrite_homeDialing updateAddresses_homeDialing
    step_homeDialing run_homeConnected ?_⟩
  intro observed persist hmem
  simp only [homeEvents, List.mem_cons, Option.some.injEq, reduceCtorEq, Event.connect.injEq,
    List.not_mem_nil, or_false, false_or] at hmem
  exact .inl hmem.1

end Rackio
