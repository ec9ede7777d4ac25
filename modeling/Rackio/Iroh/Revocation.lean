import Rackio.Iroh.Provenance

/-!
# Revocation

A request is checked once and may then be served for hours, so that a revocation rests on two
orders: a connection is registered before its first request is read, and a peer is removed from the
allowlist before its connections are taken and closed.

`Contained` is the invariant of every reachable state. A connection that is handled and open is
registered, or in the list of a revocation that has taken it (`Covered`); and a request that is
served to a peer outside the allowlist has its connection in front of a revocation that will close
it (`Pending`). `revocation_cuts_off` reads the result off it.

A pair request spans two critical sections, and a removal may fall between them: the authorization
that follows puts the peer back (`revocation_undone`). `revocation_stands` holds in the runs where
no removal does.
-/

namespace Rackio

open Lts

namespace NodeRuntime

variable {b64 : Base64} {s₀ s t : NodeRuntime} {e : Event} {es : List Event}

/-! ## Connections -/

/-- Where a connection of the state after a step comes from. -/
inductive ConnectionEffect (s : NodeRuntime) (e : Event) (c : Nat) (conn : Connection) : Prop
  | kept (hc : s.connections.find c = some conn)
  | accepted (hc : s.connections.find c = none) (hstage : conn.stage = .accepted)
  | registered {conn₀ : Connection} (he : e = .register c) (hc : s.connections.find c = some conn₀)
      (hstage : conn₀.stage = .accepted) (heq : conn = { conn₀ with stage := .handling })
  | finished {conn₀ : Connection} (hc : s.connections.find c = some conn₀)
      (hclosed : conn₀.isOpen = false) (heq : conn = { conn₀ with stage := .finished })
  | closed {conn₀ : Connection} (hc : s.connections.find c = some conn₀)
      (heq : conn = { conn₀ with isOpen := false })

/-- What closing a connection does to the connections. -/
theorem closeConnection_effect {c₀ c : Nat} {conn : Connection}
    (h : (s.closeConnection c₀).connections.find c = some conn) : ConnectionEffect s e c conn := by
  unfold closeConnection at h
  cases hc₀ : s.connections.find c₀ with
  | none =>
    rw [hc₀] at h
    exact .kept h
  | some conn₀ =>
    rw [hc₀] at h
    simp only [Table.find_insert] at h
    split at h
    · next heq =>
      cases h
      exact .closed (heq ▸ hc₀) rfl
    · exact .kept h

/-- A closed connection is not open. -/
theorem closeConnection_not_open {c : Nat} {conn : Connection}
    (h : (s.closeConnection c).connections.find c = some conn) : conn.isOpen = false := by
  unfold closeConnection at h
  cases hc : s.connections.find c with
  | none =>
    rw [hc] at h
    simp only [hc] at h
    cases h
  | some conn₀ =>
    rw [hc] at h
    simp only [Table.find_insert, if_true] at h
    cases h
    rfl

/-- What a step does to the connections. -/
theorem Step.connection_effect (h : Step b64 s e t) {c : Nat} {conn : Connection}
    (hc : t.connections.find c = some conn) : ConnectionEffect s e c conn := by
  cases h with
  | accept peer hnone =>
    simp only [Table.find_insert] at hc
    split at hc
    · next heq =>
      cases hc
      exact .accepted (heq ▸ hnone) rfl
    · exact .kept hc
  | register hsome hstage =>
    simp only [Table.find_insert] at hc
    split at hc
    · next heq =>
      subst heq
      cases hc
      exact .registered rfl hsome hstage rfl
    · exact .kept hc
  | unregister hsome hstage hclosed =>
    simp only [Table.find_insert] at hc
    split at hc
    · next heq =>
      subst heq
      cases hc
      exact .finished hsome hclosed rfl
    · exact .kept hc
  | close => exact closeConnection_effect hc
  | closeTaken hv => exact closeConnection_effect hc
  | _ => exact .kept hc

/-- A connection that is open after a step and was there before was open before. -/
theorem ConnectionEffect.open_before {c : Nat} {conn : Connection} (h : ConnectionEffect s e c conn)
    (hopen : conn.isOpen = true) (hs : s.connections.find c ≠ none) :
    ∃ conn₀, s.connections.find c = some conn₀ ∧ conn₀.isOpen = true ∧
      conn₀.remoteId = conn.remoteId := by
  cases h with
  | kept hc => exact ⟨conn, hc, hopen, rfl⟩
  | accepted hc hstage => exact absurd hc hs
  | registered he hc hstage heq =>
    subst heq
    exact ⟨_, hc, hopen, rfl⟩
  | finished hc hclosed heq =>
    subst heq
    rw [hclosed] at hopen
    cases hopen
  | closed hc heq =>
    subst heq
    cases hopen

/-! ## Registered and taken connections -/

/-- The registered connections after `register_connection`. -/
theorem registered_registerConnection {c₀ : Nat} {p : EndpointId} {endpointId : String} {c : Nat}
    (hu : t.activeConnections = s.registerConnection c₀ p)
    (hc : ((s.registered endpointId).find c).isSome) :
    ((t.registered endpointId).find c).isSome := by
  simp only [registered, hu, registerConnection, Table.find_insert] at hc ⊢
  split
  · next heq =>
    subst heq
    simp only [Option.getD_some, Table.find_insert]
    split
    · rfl
    · exact hc
  · exact hc

/-- A connection is registered after its `register_connection`. -/
theorem registered_self {c : Nat} {p : EndpointId}
    (hu : t.activeConnections = s.registerConnection c p) :
    ((t.registered p.toString).find c).isSome := by
  simp [registered, hu, registerConnection]

/-- The registered connections after `unregister_connection`: only that one is gone. -/
theorem registered_unregisterConnection {c₀ : Nat} {p : EndpointId} {endpointId : String} {c : Nat}
    (hu : t.activeConnections = s.unregisterConnection c₀ p) (hne : c ≠ c₀)
    (hc : ((s.registered endpointId).find c).isSome) :
    ((t.registered endpointId).find c).isSome := by
  simp only [registered, hu, unregisterConnection] at hc ⊢
  cases hf : s.activeConnections.find p.toString with
  | none => exact hc
  | some connections =>
    have hkeep : ∀ heq : endpointId = p.toString, ((connections.erase c₀).find c).isSome := by
      intro heq
      subst heq
      rw [hf] at hc
      simpa [hne] using hc
    simp only
    split
    · next hempty =>
      simp only [Table.find_erase]
      split
      · next heq =>
        have hnone : (connections.erase c₀).find c = none := by
          simp only [Table.find, hempty, Table.findRows]
        have hsome := hkeep heq
        rw [hnone] at hsome
        cases hsome
      · exact hc
    · simp only [Table.find_insert]
      split
      · next heq => exact hkeep heq
      · exact hc

/-- A connection `revoke_peer` can still reach: it is registered, or a revocation has taken it and
not closed it yet. -/
def Covered (s : NodeRuntime) (endpointId : String) (c : Nat) : Prop :=
  ((s.registered endpointId).find c).isSome ∨
    ∃ v connections, s.revokes.find v = some (.closing endpointId connections) ∧ c ∈ connections

/-- A revocation under way that will close the connection. -/
def Pending (s : NodeRuntime) (endpointId : String) (c : Nat) : Prop :=
  (∃ v, s.revokes.find v = some (.removed endpointId)) ∨
    ∃ v connections, s.revokes.find v = some (.closing endpointId connections) ∧ c ∈ connections

/-- What a step makes of a revocation that is under way. -/
inductive RevokeEffect (s t : NodeRuntime) (v : Nat) : RevokeStage → Prop
  | kept {stage : RevokeStage} (hv : t.revokes.find v = some stage) : RevokeEffect s t v stage
  | taken {endpointId : String} (hnone : t.registered endpointId = .empty) :
      RevokeEffect s t v (.removed endpointId)
  | closed {endpointId : String} {c : Nat} {rest : List Nat}
      (hconnections : t.connections = (s.closeConnection c).connections)
      (hv : t.revokes.find v = some (.closing endpointId rest)) :
      RevokeEffect s t v (.closing endpointId (c :: rest))
  | finished {endpointId : String} : RevokeEffect s t v (.closing endpointId [])

/-- A step takes a revocation one stage further, or leaves it alone. -/
theorem Step.revoke_effect (h : Step b64 s e t) {v : Nat} {stage : RevokeStage}
    (hv : s.revokes.find v = some stage) : RevokeEffect s t v stage := by
  cases h with
  | @revokeRemoved v₀ _ _ _ hnone hrevoke =>
    refine .kept ?_
    rw [Table.find_insert, if_neg, hv]
    rintro rfl
    rw [hv] at hnone
    cases hnone
  | @take v₀ id hremoved =>
    by_cases heq : v = v₀
    · subst heq
      cases hv.symm.trans hremoved
      exact .taken (by simp [registered])
    · exact .kept (by rw [Table.find_insert, if_neg heq, hv])
  | @closeTaken v₀ c₀ id rest htaken =>
    by_cases heq : v = v₀
    · subst heq
      cases hv.symm.trans htaken
      exact .closed rfl (by rw [Table.find_insert, if_pos rfl])
    · exact .kept (by rw [Table.find_insert, if_neg heq, hv])
  | @revoked v₀ id hempty =>
    by_cases heq : v = v₀
    · subst heq
      cases hv.symm.trans hempty
      exact .finished
    · exact .kept (by rw [Table.find_erase, if_neg heq, hv])
  | _ => exact .kept hv

/-- A connection in a taken list stays in one until it is closed. -/
theorem Step.taken (h : Step b64 s e t) {endpointId : String} {c : Nat} {conn : Connection}
    (hc : t.connections.find c = some conn) (hopen : conn.isOpen = true) {v : Nat}
    {connections : List Nat} (hv : s.revokes.find v = some (.closing endpointId connections))
    (hmem : c ∈ connections) :
    ∃ v connections, t.revokes.find v = some (.closing endpointId connections) ∧
      c ∈ connections := by
  cases h.revoke_effect hv with
  | kept hv' => exact ⟨v, connections, hv', hmem⟩
  | closed hconnections hv' =>
    rcases List.mem_cons.1 hmem with rfl | hrest
    · rw [hconnections] at hc
      rw [closeConnection_not_open hc] at hopen
      cases hopen
    · exact ⟨v, _, hv', hrest⟩
  | finished => cases hmem

/-- A connection that stays open stays covered. -/
theorem Step.covered (h : Step b64 s e t) {endpointId : String} {c : Nat} {conn : Connection}
    (hc : t.connections.find c = some conn) (hopen : conn.isOpen = true)
    (hcov : Covered s endpointId c) : Covered t endpointId c := by
  rcases hcov with hreg | ⟨v, connections, hv, hmem⟩
  · cases h with
    | register hsome hstage => exact .inl (registered_registerConnection rfl hreg)
    | @unregister c₀ conn₀ hsome hstage hclosed =>
      refine .inl (registered_unregisterConnection rfl ?_ hreg)
      rintro rfl
      rw [Table.find_insert, if_pos rfl] at hc
      cases hc
      rw [hclosed] at hopen
      cases hopen
    | @take v id hremoved =>
      by_cases heq : endpointId = id
      · subst heq
        exact .inr ⟨v, _, by simp, Table.mem_keys_iff.2 hreg⟩
      · refine .inl ?_
        simp only [registered, Table.find_erase, if_neg heq]
        exact hreg
    | _ => exact .inl hreg
  · exact .inr (h.taken hc hopen hv hmem)

/-- A revocation that will close a connection stays under way until it has. -/
theorem Step.pending (h : Step b64 s e t) {endpointId : String} {c : Nat} {conn : Connection}
    (hc : t.connections.find c = some conn) (hopen : conn.isOpen = true)
    (hcov : Covered s endpointId c) (hp : Pending s endpointId c) : Pending t endpointId c := by
  have hcov' := h.covered hc hopen hcov
  rcases hp with ⟨v, hv⟩ | ⟨v, connections, hv, hmem⟩
  · cases h.revoke_effect hv with
    | kept hv' => exact .inl ⟨v, hv'⟩
    | taken hnone =>
      -- Nothing of the peer is registered any more, so what covers the connection is a list.
      refine .inr (hcov'.resolve_left fun hreg => ?_)
      rw [hnone] at hreg
      cases hreg
  · exact .inr (h.taken hc hopen hv hmem)

/-! ## The invariant -/

/-- What holds in every reachable state. -/
structure Contained (s : NodeRuntime) : Prop where
  /-- An open connection that is past its registration is covered. -/
  covered : ∀ c conn, s.connections.find c = some conn → conn.stage ≠ .accepted →
    conn.isOpen = true → Covered s conn.remoteId.toString c
  /-- A request is one of a connection that was registered, by the peer of that connection. -/
  request : ∀ r q, s.requests.find r = some q → ∃ conn,
    s.connections.find q.connection = some conn ∧ conn.remoteId = q.remoteId ∧
      conn.stage ≠ .accepted
  /-- A request is served over an open connection to a peer outside the allowlist only in front of a
  revocation that will close the connection. -/
  cut : ∀ r q serving conn, s.requests.find r = some q → q.stage = .serving serving →
    s.connections.find q.connection = some conn → conn.isOpen = true →
    s.peers.contains q.remoteId = false → Pending s q.remoteId.toString q.connection

/-- A server that was just started contains nothing. -/
theorem Contained.init (nowMs : Int) (peers : PeerRegistry) :
    Contained (NodeRuntime.init nowMs peers) := by
  constructor
  · intro c conn hc
    cases hc
  · intro r q hq
    cases hq
  · intro r q serving conn hq
    cases hq

/-- A step keeps open connections covered. -/
theorem Contained.step_covered (h : Contained s) (hstep : Step b64 s e t) {c : Nat}
    {conn : Connection} (hc : t.connections.find c = some conn) (hstage : conn.stage ≠ .accepted)
    (hopen : conn.isOpen = true) : Covered t conn.remoteId.toString c := by
  cases hstep.connection_effect hc with
  | kept hc₀ => exact hstep.covered hc hopen (h.covered c conn hc₀ hstage hopen)
  | accepted hnone hst => exact absurd hst hstage
  | registered he hc₀ hst heq =>
    subst he
    cases hstep with
    | register hsome hst' =>
      rw [hc₀] at hsome
      cases hsome
      subst heq
      exact .inl (registered_self rfl)
  | finished hc₀ hclosed heq =>
    subst heq
    rw [hclosed] at hopen
    cases hopen
  | closed hc₀ heq =>
    subst heq
    cases hopen

/-- A connection keeps its peer and does not go back before its registration. -/
theorem Step.connection_kept (h : Step b64 s e t) {c : Nat} {conn : Connection}
    (hc : s.connections.find c = some conn) (hstage : conn.stage ≠ .accepted) :
    ∃ conn', t.connections.find c = some conn' ∧ conn'.remoteId = conn.remoteId ∧
      conn'.stage ≠ .accepted := by
  have closing (c₀ : Nat) : ∃ conn', (s.closeConnection c₀).connections.find c = some conn' ∧
      conn'.remoteId = conn.remoteId ∧ conn'.stage ≠ .accepted := by
    unfold closeConnection
    cases hc₀ : s.connections.find c₀ with
    | none => exact ⟨conn, hc, rfl, hstage⟩
    | some conn₀ =>
      simp only [Table.find_insert]
      split
      · next heq =>
        subst heq
        rw [hc] at hc₀
        cases hc₀
        exact ⟨_, rfl, rfl, hstage⟩
      · exact ⟨conn, hc, rfl, hstage⟩
  cases h with
  | @accept c₀ peer hnone =>
    have hne : c ≠ c₀ := by
      rintro rfl
      rw [hc] at hnone
      cases hnone
    exact ⟨conn, by rw [Table.find_insert, if_neg hne]; exact hc, rfl, hstage⟩
  | @register c₀ conn₀ hsome hst =>
    have hne : c ≠ c₀ := by
      rintro rfl
      rw [hc] at hsome
      cases hsome
      exact hstage hst
    exact ⟨conn, by rw [Table.find_insert, if_neg hne]; exact hc, rfl, hstage⟩
  | @unregister c₀ conn₀ hsome hst hclosed =>
    by_cases heq : c = c₀
    · subst heq
      rw [hc] at hsome
      cases hsome
      exact ⟨{ conn with stage := .finished }, by rw [Table.find_insert, if_pos rfl], rfl, nofun⟩
    · exact ⟨conn, by rw [Table.find_insert, if_neg heq]; exact hc, rfl, hstage⟩
  | close => exact closing _
  | closeTaken hv => exact closing _
  | _ => exact ⟨conn, hc, rfl, hstage⟩

/-- A step keeps requests on connections that were registered. -/
theorem Contained.step_request (h : Contained s) (hstep : Step b64 s e t) {r : Nat}
    {q : RequestTask} (hq : t.requests.find r = some q) :
    ∃ conn, t.connections.find q.connection = some conn ∧ conn.remoteId = q.remoteId ∧
      conn.stage ≠ .accepted := by
  have old {q₀ : RequestTask} (hq₀ : s.requests.find r = some q₀)
      (hpeer : q₀.remoteId = q.remoteId) (hconn : q₀.connection = q.connection) :
      ∃ conn, t.connections.find q.connection = some conn ∧ conn.remoteId = q.remoteId ∧
        conn.stage ≠ .accepted := by
    obtain ⟨conn, hc, hremote, hst⟩ := h.request r q₀ hq₀
    obtain ⟨conn', hc', hremote', hst'⟩ := hstep.connection_kept hc hst
    exact ⟨conn', hconn ▸ hc', by rw [hremote', hremote, hpeer], hst'⟩
  cases hstep.request_effect hq with
  | kept hq₀ => exact old hq₀ rfl rfl
  | received hst hc hpeer hhandling =>
    obtain ⟨conn', hc', hremote', hst'⟩ :=
      hstep.connection_kept hc (by rw [hhandling]; exact nofun)
    exact ⟨conn', hc', by rw [hremote', hpeer], hst'⟩
  | verified hq₀ he hok heq => subst heq; exact old hq₀ rfl rfl
  | advertised hq₀ hst heq => subst heq; exact old hq₀ rfl rfl
  | served hq₀ he hchecked heq => subst heq; exact old hq₀ rfl rfl
  | answered hq₀ heq => subst heq; exact old hq₀ rfl rfl

/-- A step that takes a peer out of the allowlist is its removal by a revocation. -/
theorem Step.removed (h : Step b64 s e t) {p : EndpointId} (hs : s.peers.contains p = true)
    (ht : ¬ t.peers.contains p = true) : ∃ v, t.revokes.find v = some (.removed p.toString) := by
  cases h with
  | authorize persist hr hstage =>
    exact absurd ((PeerRegistry.contains_authorizePreserving ..).2 (.inl hs)) ht
  | @revokeRemoved v endpointId persist peers hv hrevoke =>
    have hid : p.toString = endpointId := by
      by_contra hne
      exact ht ((PeerRegistry.contains_revoke hrevoke p).2 ⟨hs, fun h => hne h.1⟩)
    exact ⟨v, by rw [hid, Table.find_insert, if_pos rfl]⟩
  | revokeEnded hv hrevoke hne =>
    exact absurd ((PeerRegistry.contains_revoke hrevoke p).2 ⟨hs, fun h => hne h.2⟩) ht
  | _ => exact absurd hs ht

/-- A permission check changes no allowlist. -/
theorem Step.check_peers {r : Nat} {p : EndpointId} (h : Step b64 s (.check r p) t) :
    t.peers = s.peers := by
  cases h with
  | _ => rfl

/-- A step keeps every served request in front of a revocation when its peer is not allowed. -/
theorem Contained.step_cut (h : Contained s) (hstep : Step b64 s e t) {r : Nat} {q : RequestTask}
    {serving : Serving} {conn : Connection} (hq : t.requests.find r = some q)
    (hstage : q.stage = .serving serving) (hc : t.connections.find q.connection = some conn)
    (hopen : conn.isOpen = true) (hout : t.peers.contains q.remoteId = false) :
    Pending t q.remoteId.toString q.connection := by
  cases hstep.request_effect hq with
  | kept hq₀ =>
    obtain ⟨conn₁, hc₁, hremote, hst⟩ := h.request r q hq₀
    obtain ⟨conn₀, hc₀, hopen₀, -⟩ :=
      (hstep.connection_effect hc).open_before hopen (by rw [hc₁]; exact nofun)
    rw [hc₀] at hc₁
    cases hc₁
    by_cases hin : s.peers.contains q.remoteId = true
    · exact .inl (hstep.removed hin (by rw [hout]; exact nofun))
    · have hcov := h.covered _ conn₁ hc₀ hst hopen₀
      rw [hremote] at hcov
      exact hstep.pending hc hopen hcov
        (h.cut r q serving conn₁ hq₀ hstage hc₀ hopen₀ (Bool.eq_false_iff.2 hin))
  | received hst => rw [hst] at hstage; cases hstage
  | verified hq₀ he hok heq => subst heq; cases hstage
  | advertised hq₀ hst heq => subst heq; cases hstage
  | served hq₀ he hchecked heq =>
    subst heq he
    obtain ⟨-, -, permissions, -, -, -, hperm, -⟩ := hchecked
    rw [hstep.check_peers, PeerRegistry.contains, hperm] at hout
    cases hout
  | answered hq₀ heq => subst heq; cases hstage

/-- Every reachable state contains its revoked peers. -/
theorem contained_of_run {nowMs : Int} {peers : PeerRegistry}
    (hrun : Run (Step b64) (NodeRuntime.init nowMs peers) es s) : Contained s := by
  refine hrun.invariant (Contained.init nowMs peers) ?_
  intro s e t h hstep
  exact ⟨fun _ _ hc hst hopen => h.step_covered hstep hc hst hopen,
    fun _ _ hq => h.step_request hstep hq,
    fun _ _ _ _ hq hst hc hopen hout => h.step_cut hstep hq hst hc hopen hout⟩

/-! ## Data frames -/

/-- A request that is served passed its permission check in the run. -/
theorem checked_of_serving (h₀ : s₀.requests = .empty) (hrun : Run (Step b64) s₀ es s) {r : Nat}
    {q : RequestTask} {serving : Serving} (hq : s.requests.find r = some q)
    (hstage : q.stage = .serving serving) :
    ∃ es₁ es₂ s₁, es = es₁ ++ .check r q.remoteId :: es₂ ∧ Run (Step b64) s₀ es₁ s₁ ∧
      Checked s₁ r q.remoteId serving := by
  induction hrun generalizing q with
  | nil =>
    rw [h₀] at hq
    cases hq
  | @snoc es s t e hrun hstep ih =>
    cases hstep.request_effect hq with
    | kept hq₀ =>
      obtain ⟨es₁, es₂, s₁, rfl, hrun₁, hchecked⟩ := ih hq₀ hstage
      exact ⟨es₁, es₂ ++ [e], s₁, by simp, hrun₁, hchecked⟩
    | received hst => rw [hst] at hstage; cases hstage
    | verified hq₀ he hok heq => subst heq; cases hstage
    | advertised hq₀ hst heq => subst heq; cases hstage
    | served hq₀ he hchecked heq =>
      subst heq
      cases hstage
      exact ⟨es, [], s, by rw [he], hrun, hchecked⟩
    | answered hq₀ heq => subst heq; cases hstage

/-- A peer stays out of the allowlist as long as no pair request of its own authorizes it. -/
theorem not_contains_of_run {p : EndpointId} (hrun : Run (Step b64) s es t)
    (hs : ¬ s.peers.contains p = true) (hno : ∀ r, .authorize r p (.ok ()) ∉ es) :
    ¬ t.peers.contains p = true := by
  induction hrun with
  | nil => exact hs
  | @snoc es t u e hrun hstep ih =>
    have hnot := ih fun r hr => hno r (List.mem_append_left _ hr)
    intro hu
    rcases hstep.peers_cases with ⟨r, q, persist, rfl, -, -, hpeers⟩ |
      ⟨v, endpointId, persist, outcome, rfl, hrev⟩ | hpeers
    · rw [hpeers] at hu
      rcases (PeerRegistry.contains_authorizePreserving ..).1 hu with hold | ⟨rfl, rfl⟩
      · exact hnot hold
      · exact hno r (List.mem_append_right _ (.head _))
    · exact hnot ((PeerRegistry.contains_revoke hrev p).1 hu).1
    · rw [hpeers] at hu
      exact hnot hu

/-- A peer is out of the allowlist after its removal. -/
theorem Step.not_contains_of_revoke {v : Nat} {p : EndpointId} {persist : Except PairingError Unit}
    (h : Step b64 s (.revoke v p.toString persist (.ok true)) t) :
    ¬ t.peers.contains p = true := by
  intro ht
  cases h with
  | revokeRemoved hv hrevoke =>
    exact ((PeerRegistry.contains_revoke hrevoke p).1 ht).2 ⟨rfl, rfl⟩
  | revokeEnded hv hrevoke hne => exact hne rfl

/-- No data frame reaches a peer outside the allowlist once its revocations are done. -/
theorem not_write_of_contained (h : Contained s) {p : EndpointId}
    (hout : ¬ s.peers.contains p = true) (hdone : ¬ s.Revoking p.toString) (r : Nat)
    (frame : DataFrame) : ¬ Step b64 s (.write r p frame) t := by
  intro hstep
  cases hstep with
  | write hr hstage hc hopen =>
    rcases h.cut r _ _ _ hr hstage hc hopen (Bool.eq_false_iff.2 hout) with ⟨v, hv⟩ | ⟨v, cs, hv, -⟩
    · exact hdone ⟨v, _, hv, rfl⟩
    · exact hdone ⟨v, _, hv, rfl⟩

/-- Revocation over every run from a loaded allowlist: while the last change of a peer in the
allowlist is its removal and no revocation of it is under way, no data frame can be written to it;
and every data frame ever written belongs to a request whose check saw its peer in the allowlist,
with the permission the frame needs, and a compatible protocol version. -/
theorem revocation_cuts_off (b64 : Base64) (nowMs : Int) (peers : PeerRegistry) (es : List Event)
    (s : NodeRuntime) (hrun : Run (Step b64) (NodeRuntime.init nowMs peers) es s) :
    (∀ es₁ v p persist es₂, es = es₁ ++ .revoke v p.toString persist (.ok true) :: es₂ →
        (∀ r, .authorize r p (.ok ()) ∉ es₂) → ¬ s.Revoking p.toString →
        ∀ r frame t, ¬ Step b64 s (.write r p frame) t) ∧
      ∀ es₁ r p frame es₂, es = es₁ ++ .write r p frame :: es₂ →
        ∃ es₃ es₄ s₁ q body permissions version, es₁ = es₃ ++ .check r p :: es₄ ∧
          Run (Step b64) (NodeRuntime.init nowMs peers) es₃ s₁ ∧
          s₁.requests.find r = some q ∧ q.remoteId = p ∧ q.stage = .received (some body) ∧
          s₁.peers.permissions p = some permissions ∧ frame.allowed permissions = true ∧
          body.version = some version ∧ compatible version = true := by
  constructor
  · intro es₁ v p persist es₂ heq hno hdone r frame t
    subst heq
    obtain ⟨s₁, -, htail⟩ := run_append_iff.1 hrun
    obtain ⟨s₂, hrevoke, hafter⟩ := run_cons_iff.1 htail
    have hout := not_contains_of_run hafter hrevoke.not_contains_of_revoke hno
    exact not_write_of_contained (contained_of_run hrun) hout hdone r frame
  · intro es₁ r p frame es₂ heq
    subst heq
    obtain ⟨s₁, hbefore, htail⟩ := run_append_iff.1 hrun
    obtain ⟨s₂, hwrite, -⟩ := run_cons_iff.1 htail
    cases hwrite with
    | write hr hstage hc hopen =>
      obtain ⟨es₃, es₄, u, hsplit, hu, q, body, permissions, hq, hpeer, hst, hperm, hok⟩ :=
        checked_of_serving rfl hbefore hr hstage
      obtain ⟨hallowed, version, hversion, hcompat⟩ := handleAuthorized_ok hok
      exact ⟨es₃, es₄, u, q, body, permissions, version, hsplit, hu, hq, hpeer, hst, hperm,
        hallowed, hversion, hcompat⟩

/-- The viewer is served a metric, revoked and disconnected. -/
def cutEvents : List Event :=
  [.accept 0 viewer, .register 0, .request 0 0 (some (.watchMetrics currentVersion)),
    .check 0 viewer, .write 0 viewer .metric, .revoke 0 viewer.toString (.ok ()) (.ok true),
    .take 0, .closeTaken 0, .revoked 0]

/-- The server after `cutEvents`. -/
def cutRuntime : NodeRuntime where
  nowMs := 0
  pairing := ⟨none⟩
  pairingMdns := ⟨0, false⟩
  peers := ⟨.empty⟩
  activeConnections := .empty
  connections := Table.empty.insert 0 ⟨viewer, .handling, false⟩
  requests := Table.empty.insert 0 ⟨0, viewer, .serving .metrics⟩
  revokes := .empty

/-- A viewer that was revoked while a stream was served to it receives nothing more. -/
theorem revocation_cuts_off_viewer :
    Run (Step zeroBase64) (NodeRuntime.init 0 viewerAllowed) cutEvents cutRuntime ∧
      ∀ r frame t, ¬ Step zeroBase64 cutRuntime (.write r viewer frame) t := by
  have hrun : Run (Step zeroBase64) (NodeRuntime.init 0 viewerAllowed) cutEvents cutRuntime := by
    refine run_cons_iff.2 ⟨_, .accept viewer rfl, ?_⟩
    refine run_cons_iff.2 ⟨_, .register rfl rfl, ?_⟩
    refine run_cons_iff.2 ⟨_, .request (some (.watchMetrics currentVersion)) rfl rfl rfl rfl, ?_⟩
    refine run_cons_iff.2 ⟨_, @Step.checkServed _ _ 0 ⟨0, viewer, _⟩ (.watchMetrics currentVersion)
      default .metrics rfl rfl rfl rfl, ?_⟩
    refine run_cons_iff.2 ⟨_, @Step.write _ _ 0 ⟨0, viewer, _⟩ ⟨viewer, .handling, true⟩ .metrics
      rfl rfl rfl rfl, ?_⟩
    refine run_cons_iff.2 ⟨_, .revokeRemoved rfl rfl, ?_⟩
    refine run_cons_iff.2 ⟨_, .take rfl, ?_⟩
    refine run_cons_iff.2 ⟨_, .closeTaken rfl, ?_⟩
    exact run_cons_iff.2 ⟨_, .revoked rfl, .nil⟩
  refine ⟨hrun, ?_⟩
  have hcut := (revocation_cuts_off zeroBase64 0 viewerAllowed cutEvents cutRuntime hrun).1
    (cutEvents.take 5) 0 viewer (.ok ()) [.take 0, .closeTaken 0, .revoked 0] rfl
  refine hcut ?_ ?_
  · intro r hr
    simp at hr
  · rintro ⟨v, stage, hv, -⟩
    cases hv

/-! ## Pairings under way -/

/-- A peer is removed only while no pair request of its own is between its verification and its
authorization. -/
def PairingSettled (s : NodeRuntime) (e : Event) : Prop :=
  ∀ v endpointId persist, e = .revoke v endpointId persist (.ok true) →
    ∀ r q closed, s.requests.find r = some q → q.stage = .verified closed (.ok ()) →
      q.remoteId.toString ≠ endpointId

/-- Without a pair request under way, a peer is allowed again only after a verification of its
own. -/
theorem verified_of_contains {p : EndpointId} (hrun : Run (Step b64) s es t)
    (hout : ¬ s.peers.contains p = true)
    (hsettled : ∀ r q closed, s.requests.find r = some q → q.stage = .verified closed (.ok ()) →
      q.remoteId ≠ p) :
    (∀ r q closed, t.requests.find r = some q → q.stage = .verified closed (.ok ()) →
        q.remoteId = p → ∃ pair, .verify r p pair (.ok ()) ∈ es) ∧
      (t.peers.contains p = true → ∃ r pair, .verify r p pair (.ok ()) ∈ es) := by
  induction hrun with
  | nil =>
    exact ⟨fun r q closed hq hst hp => absurd hp (hsettled r q closed hq hst),
      fun h => absurd h hout⟩
  | @snoc es t u e hrun hstep ih =>
    obtain ⟨ihreq, ihpeer⟩ := ih
    have later {r : Nat} (h : ∃ pair, .verify r p pair (.ok ()) ∈ es) :
        ∃ pair, .verify r p pair (.ok ()) ∈ es ++ [e] := by
      obtain ⟨pair, hmem⟩ := h
      exact ⟨pair, List.mem_append_left _ hmem⟩
    constructor
    · intro r q closed hq hstage hp
      cases hstep.request_effect hq with
      | kept hq₀ => exact later (ihreq r q closed hq₀ hstage hp)
      | received hst => rw [hst] at hstage; cases hstage
      | verified hq₀ he hok heq =>
        subst heq
        cases hstage
        cases hp
        exact ⟨_, List.mem_append_right _ (by rw [he]; exact .head _)⟩
      | advertised hq₀ hst heq =>
        subst heq
        cases hstage
        exact later (ihreq r _ true hq₀ hst hp)
      | served hq₀ he hchecked heq => subst heq; cases hstage
      | answered hq₀ heq => subst heq; cases hstage
    · intro hu
      have old (ht : t.peers.contains p = true) :
          ∃ r pair, .verify r p pair (.ok ()) ∈ es ++ [e] := by
        obtain ⟨r, hr⟩ := ihpeer ht
        exact ⟨r, later hr⟩
      rcases hstep.peers_cases with ⟨r, q, persist, rfl, hq, hstage, hpeers⟩ |
        ⟨v, endpointId, persist, outcome, rfl, hrev⟩ | hpeers
      · rw [hpeers] at hu
        rcases (PeerRegistry.contains_authorizePreserving ..).1 hu with hold | ⟨rfl, rfl⟩
        · exact old hold
        · exact ⟨r, later (ihreq r q false hq hstage rfl)⟩
      · exact old ((PeerRegistry.contains_revoke hrev p).1 hu).1
      · rw [hpeers] at hu
        exact old hu

/-- In the runs that remove no peer with a pair request under way: after a revocation that removed
its peer has returned, the peer is in the allowlist again only if a verification of its own was
accepted after the removal. -/
theorem revocation_stands (b64 : Base64) (nowMs : Int) (peers : PeerRegistry) (es : List Event)
    (s : NodeRuntime)
    (hrun : Run (Guarded PairingSettled (Step b64)) (NodeRuntime.init nowMs peers) es s) :
    ∀ es₁ v p persist es₂, es = es₁ ++ .revoke v p.toString persist (.ok true) :: es₂ →
      .revoked v ∈ es₂ → s.peers.contains p = true →
      ∃ r pair, .verify r p pair (.ok ()) ∈ es₂ := by
  intro es₁ v p persist es₂ heq _ hin
  subst heq
  obtain ⟨s₁, -, htail⟩ := run_append_iff.1 hrun
  obtain ⟨s₂, ⟨hsettled, hrevoke⟩, hafter⟩ := run_cons_iff.1 htail
  refine (verified_of_contains hafter.unguard hrevoke.not_contains_of_revoke ?_).2 hin
  intro r q closed hq hstage hp
  have hq₁ : s₁.requests.find r = some q := by
    cases hrevoke with
    | revokeRemoved hv hrevoke => exact hq
    | revokeEnded hv hrevoke hne => exact hq
  exact hsettled v _ persist rfl r q closed hq₁ hstage (congrArg EndpointId.toString hp)

/-- A viewer that is revoked and pairs again afterwards is in the allowlist, after a verification of
its own. -/
theorem revocation_stands_viewer :
    Run (Guarded PairingSettled (Step zeroBase64)) (NodeRuntime.init 0 viewerAllowed)
        (.revoke 0 viewer.toString (.ok ()) (.ok true) :: .take 0 :: .revoked 0 :: pairEvents)
        pairedRuntime ∧
      ∃ r pair, .verify r viewer pair (.ok ()) ∈
        (.take 0 :: .revoked 0 :: pairEvents : List Event) := by
  have hrest : Run (Step zeroBase64)
      { NodeRuntime.init 0 ⟨.empty⟩ with
        revokes := Table.empty.insert 0 (.removed viewer.toString) }
      (.take 0 :: .revoked 0 :: pairEvents) pairedRuntime :=
    run_cons_iff.2 ⟨_, .take rfl, run_cons_iff.2 ⟨_, .revoked rfl, run_pairEvents⟩⟩
  have hguarded := hrest.guard (G := PairingSettled) fun e he s v id persist heq => by
    subst heq
    simp [pairEvents, verifyEvents] at he
  have hrun : Run (Guarded PairingSettled (Step zeroBase64)) (NodeRuntime.init 0 viewerAllowed)
      (.revoke 0 viewer.toString (.ok ()) (.ok true) :: .take 0 :: .revoked 0 :: pairEvents)
      pairedRuntime := by
    refine run_cons_iff.2 ⟨_, ⟨?_, .revokeRemoved rfl rfl⟩, hguarded⟩
    intro v id persist _ r q closed hq
    cases hq
  exact ⟨hrun, revocation_stands zeroBase64 0 viewerAllowed _ _ hrun [] 0 viewer (.ok ()) _ rfl
    (.tail _ (.head _)) rfl⟩

/-- The steps of a revocation that falls between the verification and the authorization of a viewer
that pairs again. -/
def undoneEvents : List Event :=
  [.revoke 0 viewer.toString (.ok ()) (.ok true), .take 0, .closeTaken 0, .revoked 0,
    .authorize 0 viewer (.ok ())]

/-- The server after `undoneEvents`: the viewer is disconnected and allowed. -/
def undoneRuntime : NodeRuntime :=
  { pairedRuntime with
    activeConnections := .empty
    connections := Table.empty.insert 0 ⟨viewer, .handling, false⟩ }

/-- A viewer of the allowlist shows the secret of a window; it is revoked and its connection is
closed before the request goes on to authorize it. The revocation has returned, no verification
follows, and the viewer is in the allowlist. -/
theorem revocation_undone :
    ¬ ∀ (b64 : Base64) (nowMs : Int) (peers : PeerRegistry) (es : List Event) (s : NodeRuntime),
      Run (Step b64) (NodeRuntime.init nowMs peers) es s →
      ∀ es₁ v p persist es₂, es = es₁ ++ .revoke v p.toString persist (.ok true) :: es₂ →
        .revoked v ∈ es₂ → s.peers.contains p = true →
        ∃ r pair, .verify r p pair (.ok ()) ∈ es₂ := by
  intro h
  have hrun : Run (Step zeroBase64) (NodeRuntime.init 0 viewerAllowed)
      (verifyEvents ++ .mdnsClose 0 :: undoneEvents) undoneRuntime := by
    refine run_append_iff.2 ⟨_, run_verifyEvents _, ?_⟩
    refine run_cons_iff.2 ⟨_, @Step.mdnsClose _ _ 0 ⟨0, viewer, _⟩ (.ok ()) rfl rfl, ?_⟩
    refine run_cons_iff.2 ⟨_, .revokeRemoved rfl rfl, ?_⟩
    refine run_cons_iff.2 ⟨_, .take rfl, ?_⟩
    refine run_cons_iff.2 ⟨_, .closeTaken rfl, ?_⟩
    refine run_cons_iff.2 ⟨_, .revoked rfl, ?_⟩
    exact run_cons_iff.2 ⟨_, @Step.authorize _ _ 0 ⟨0, viewer, _⟩ (.ok ()) rfl rfl, .nil⟩
  obtain ⟨r, pair, hmem⟩ := h _ _ _ _ _ hrun (verifyEvents ++ [.mdnsClose 0]) 0 viewer (.ok ())
    undoneEvents.tail rfl (by simp [undoneEvents]) rfl
  simp [undoneEvents] at hmem

end NodeRuntime

end Rackio
