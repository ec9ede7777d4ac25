import Rackio.Iroh.Server

/-!
# Where the peers of the allowlist come from

Pairing over whole runs of the server, with windows opened, requests of any number of peers,
revocations and the clock interleaved in any way. A verification and the authorization it leads to
are two critical sections, so the history of a run is what connects them: a request that was
verified carries the verification in the past of the run (`Traced.verified`), and an endpoint the
allowlist has gained carries the authorization (`Traced.listed`).

`opening_of_active` follows the window back to its opening. `pairing_provenance` is the result:
windows are used once and in time, every new peer has shown the secret itself, and a pair request
changes no permission.
-/

namespace Rackio

open Lts

namespace NodeRuntime

variable {b64 : Base64} {s₀ s t : NodeRuntime} {e : Event} {es : List Event}

/-- The event is a step of a pair request. -/
def Event.pairs : Event → Bool
  | .verify _ _ _ _ | .mdnsClose _ | .authorize _ _ _ | .refuse _ => true
  | _ => false

/-- The window was opened in the run, and since then no other one was opened and none was used. -/
def OpenedIn (b64 : Base64) (s₀ : NodeRuntime) (es : List Event) (secret : PairingSecret)
    (expiresAtMs : Int) : Prop :=
  ∃ es₁ es₂ s₁, es = es₁ ++ .openWindow secret :: es₂ ∧ Run (Step b64) s₀ es₁ s₁ ∧
    expiresAtMs = s₁.nowMs + pairingWindowMs ∧ ∀ e ∈ es₂, e.opens = false ∧ e.accepts = false

/-- An accepted verification by `peer`, and later the authorization of the same request. -/
def PairedIn (b64 : Base64) (s₀ : NodeRuntime) (es : List Event) (peer : EndpointId) : Prop :=
  ∃ es₁ es₂ es₃ r pair s₁,
    es = es₁ ++ .verify r peer pair (.ok ()) :: (es₂ ++ .authorize r peer (.ok ()) :: es₃) ∧
      Run (Step b64) s₀ es₁ s₁ ∧ Accepted b64 s₁ peer pair

/-- The opening of the current window stays behind when a step neither opens nor uses one. -/
theorem OpenedIn.snoc {secret : PairingSecret} {expiresAtMs : Int}
    (h : OpenedIn b64 s₀ es secret expiresAtMs) (ho : e.opens = false) (ha : e.accepts = false) :
    OpenedIn b64 s₀ (es ++ [e]) secret expiresAtMs := by
  obtain ⟨es₁, es₂, s₁, rfl, hrun, hexp, hno⟩ := h
  refine ⟨es₁, es₂ ++ [e], s₁, by simp, hrun, hexp, fun x hx => ?_⟩
  rcases List.mem_append.1 hx with hx | hx
  · exact hno x hx
  · cases List.mem_singleton.1 hx
    exact ⟨ho, ha⟩

/-- The current window was opened in the run and is the last one opened. -/
theorem opening_of_active (h₀ : s₀.pairing.active = none) (hrun : Run (Step b64) s₀ es s) :
    ∀ w, s.pairing.active = some w → OpenedIn b64 s₀ es w.secret w.expiresAtMs := by
  induction hrun with
  | nil =>
    intro w hw
    rw [h₀] at hw
    cases hw
  | snoc hrun hstep ih =>
    intro w hw
    rcases hstep.pairing_cases with ⟨secret, rfl, ht⟩ | ⟨r, peer, pair, outcome, rfl, hv⟩ |
      ⟨ho, ha, ht⟩
    · rw [ht] at hw
      cases hw
      exact ⟨_, [], _, rfl, hrun, rfl, nofun⟩
    · cases outcome with
      | ok u =>
        obtain ⟨hnone, -⟩ := PairingManager.verifyAndConsumeAt_ok hv
        rw [hnone] at hw
        cases hw
      | error err =>
        obtain ⟨w₀, hw₀, hsecret, hexp⟩ := PairingManager.verifyAndConsumeAt_error hv w hw
        rw [hsecret, hexp]
        exact (ih w₀ hw₀).snoc rfl rfl
    · rw [ht] at hw
      exact (ih w hw).snoc ho ha

/-- An accepted verification used the window that was opened last, in time and with its secret. -/
theorem opening_of_accepted (h₀ : s₀.pairing.active = none) (hrun : Run (Step b64) s₀ es s)
    {r : Nat} {peer : EndpointId} {pair : PairRequest}
    (hstep : Step b64 s (.verify r peer pair (.ok ())) t) :
    ∃ secret expiresAtMs, OpenedIn b64 s₀ es secret expiresAtMs ∧ s.nowMs ≤ expiresAtMs ∧
      PairingManager.Matches b64 secret pair.oneTimeSecret := by
  cases hstep with
  | verify hr hstage hclaimed hverify =>
    obtain ⟨-, w, hw, hexp, hmatch, -⟩ := PairingManager.verifyAndConsumeAt_ok hverify
    exact ⟨w.secret, w.expiresAtMs, opening_of_active h₀ hrun w hw, hexp, hmatch⟩

/-- An accepting event is a verification that answered `Ok`. -/
theorem Event.eq_of_accepts (h : e.accepts = true) :
    ∃ r peer pair, e = .verify r peer pair (.ok ()) := by
  cases e with
  | verify r peer pair outcome =>
    cases outcome with
    | ok u => exact ⟨r, peer, pair, rfl⟩
    | error err => cases h
  | _ => cases h

/-- Between two accepted verifications a window is opened. -/
theorem opens_between (h₀ : s₀.pairing.active = none) {es₁ es₂ es₃ : List Event} {e₁ e₂ : Event}
    (hrun : Run (Step b64) s₀ (es₁ ++ e₁ :: (es₂ ++ e₂ :: es₃)) s) (h₁ : e₁.accepts = true)
    (h₂ : e₂.accepts = true) : ∃ e ∈ es₂, e.opens = true := by
  have hsplit : es₁ ++ e₁ :: (es₂ ++ e₂ :: es₃) = (es₁ ++ e₁ :: es₂) ++ e₂ :: es₃ := by simp
  rw [hsplit] at hrun
  obtain ⟨u, hu, htail⟩ := run_append_iff.1 hrun
  obtain ⟨v, hstep, -⟩ := run_cons_iff.1 htail
  obtain ⟨r, peer, pair, rfl⟩ := Event.eq_of_accepts h₂
  obtain ⟨secret, -, ⟨fs₁, fs₂, -, heq, -, -, hno⟩, -, -⟩ := opening_of_accepted h₀ hu hstep
  -- The last opening lies after `e₁`, since nothing after it accepts.
  rcases List.append_eq_append_iff.1 heq with ⟨gs, hfs₁, hcons⟩ | ⟨gs, hes₁, hcons⟩
  · cases gs with
    | nil =>
      rw [List.nil_append] at hcons
      obtain ⟨rfl, -⟩ := List.cons_eq_cons.1 hcons
      cases h₁
    | cons g gs =>
      obtain ⟨-, hes₂⟩ := List.cons_eq_cons.1 hcons
      refine ⟨.openWindow secret, ?_, rfl⟩
      rw [hes₂]
      exact List.mem_append_right _ (.head _)
  · cases gs with
    | nil =>
      rw [List.nil_append] at hcons
      obtain ⟨heq, -⟩ := List.cons_eq_cons.1 hcons
      rw [← heq] at h₁
      cases h₁
    | cons g gs =>
      obtain ⟨-, hfs₂⟩ := List.cons_eq_cons.1 hcons
      have hmem : e₁ ∈ fs₂ := by
        rw [hfs₂]
        exact List.mem_append_right _ (.head _)
      rw [(hno e₁ hmem).2] at h₁
      cases h₁

/-! ## New peers -/

/-- What a run remembers: the verification of every request that passed it, and the pairing of every
endpoint that is not of the loaded allowlist. -/
structure Traced (b64 : Base64) (s₀ : NodeRuntime) (es : List Event) (s : NodeRuntime) : Prop where
  verified : ∀ r q closed, s.requests.find r = some q → q.stage = .verified closed (.ok ()) →
    ∃ es₁ es₂ pair s₁, es = es₁ ++ .verify r q.remoteId pair (.ok ()) :: es₂ ∧
      Run (Step b64) s₀ es₁ s₁ ∧ Accepted b64 s₁ q.remoteId pair
  listed : ∀ peer, s.peers.contains peer = true →
    s₀.peers.contains peer = true ∨ PairedIn b64 s₀ es peer

/-- A pairing stays in the past of a run. -/
theorem PairedIn.snoc {peer : EndpointId} (h : PairedIn b64 s₀ es peer) :
    PairedIn b64 s₀ (es ++ [e]) peer := by
  obtain ⟨es₁, es₂, es₃, r, pair, s₁, rfl, hrun, hacc⟩ := h
  exact ⟨es₁, es₂, es₃ ++ [e], r, pair, s₁, by simp, hrun, hacc⟩

/-- Every step keeps what a run remembers. -/
theorem Traced.step (h : Traced b64 s₀ es s) (hrun : Run (Step b64) s₀ es s)
    (hstep : Step b64 s e t) : Traced b64 s₀ (es ++ [e]) t := by
  constructor
  · intro r q closed hq hstage
    have old {q₀ : RequestTask} {closed₀ : Bool} (hq₀ : s.requests.find r = some q₀)
        (hst : q₀.stage = .verified closed₀ (.ok ())) (hpeer : q.remoteId = q₀.remoteId) :
        ∃ es₁ es₂ pair s₁, es ++ [e] = es₁ ++ .verify r q.remoteId pair (.ok ()) :: es₂ ∧
          Run (Step b64) s₀ es₁ s₁ ∧ Accepted b64 s₁ q.remoteId pair := by
      obtain ⟨es₁, es₂, pair, s₁, rfl, hrun₁, hacc⟩ := h.verified r q₀ closed₀ hq₀ hst
      rw [hpeer]
      exact ⟨es₁, es₂ ++ [e], pair, s₁, by simp, hrun₁, hacc⟩
    cases hstep.request_effect hq with
    | kept hq₀ => exact old hq₀ hstage rfl
    | received hst => rw [hst] at hstage; cases hstage
    | verified hq₀ he hok heq =>
      subst heq
      cases hstage
      exact ⟨es, [], _, s, by rw [he], hrun, hok rfl⟩
    | advertised hq₀ hst heq =>
      subst heq
      cases hstage
      exact old hq₀ hst rfl
    | served hq₀ he hchecked heq => subst heq; cases hstage
    | answered hq₀ heq => subst heq; cases hstage
  · intro peer hpeer
    have old (hold : s.peers.contains peer = true) :
        s₀.peers.contains peer = true ∨ PairedIn b64 s₀ (es ++ [e]) peer :=
      (h.listed peer hold).imp id PairedIn.snoc
    rcases hstep.peers_cases with ⟨r, q, persist, rfl, hq, hstage, ht⟩ |
      ⟨v, endpointId, persist, outcome, rfl, hrev⟩ | ht
    · rw [ht] at hpeer
      rcases (PeerRegistry.contains_authorizePreserving ..).1 hpeer with hold | ⟨rfl, rfl⟩
      · exact old hold
      · obtain ⟨es₁, es₂, pair, s₁, rfl, hrun₁, hacc⟩ := h.verified r q false hq hstage
        exact .inr ⟨es₁, es₂, [], r, pair, s₁, by simp, hrun₁, hacc⟩
    · exact old ((PeerRegistry.contains_revoke hrev peer).1 hpeer).1
    · rw [ht] at hpeer
      exact old hpeer

/-- A step of a pair request keeps the permissions of every endpoint that has some. -/
theorem Step.permissions_of_pairs (hstep : Step b64 s e t) (he : e.pairs = true) {p : EndpointId}
    {permissions : PeerPermissions} (hp : s.peers.permissions p = some permissions) :
    t.peers.permissions p = some permissions := by
  rcases hstep.peers_cases with ⟨r, q, persist, rfl, hq, hstage, ht⟩ |
    ⟨v, endpointId, persist, outcome, rfl, -⟩ | ht
  · rw [ht]
    unfold PeerRegistry.permissions at hp ⊢
    rw [PeerRegistry.find_authorizePreserving]
    split
    · rw [hp]
      rfl
    · exact hp
  · cases he
  · rw [ht]
    exact hp

/-- Pairing over every run from a loaded allowlist: between two accepted verifications a window is
opened; an accepted one used the window that was opened last, before its expiry and with exactly its
secret; an endpoint that was not loaded was authorized after such a verification of its own; and no
step of a pair request changes the permissions of an endpoint that has some. -/
theorem pairing_provenance (b64 : Base64) (nowMs : Int) (peers : PeerRegistry) (es : List Event)
    (s : NodeRuntime) (hrun : Run (Step b64) (NodeRuntime.init nowMs peers) es s) :
    (∀ es₁ e₁ es₂ e₂ es₃, es = es₁ ++ e₁ :: (es₂ ++ e₂ :: es₃) → e₁.accepts = true →
        e₂.accepts = true → ∃ e ∈ es₂, e.opens = true) ∧
      (∀ r peer pair t, Step b64 s (.verify r peer pair (.ok ())) t →
        ∃ secret expiresAtMs,
          OpenedIn b64 (NodeRuntime.init nowMs peers) es secret expiresAtMs ∧
            s.nowMs ≤ expiresAtMs ∧
            PairingManager.Matches b64 secret pair.oneTimeSecret) ∧
      (∀ peer, s.peers.contains peer = true → peers.contains peer = false →
        PairedIn b64 (NodeRuntime.init nowMs peers) es peer) ∧
      ∀ e t, e.pairs = true → Step b64 s e t → ∀ p permissions,
        s.peers.permissions p = some permissions → t.peers.permissions p = some permissions := by
  refine ⟨?_, ?_, ?_, ?_⟩
  · intro es₁ e₁ es₂ e₂ es₃ heq h₁ h₂
    subst heq
    exact opens_between rfl hrun h₁ h₂
  · intro r peer pair t hstep
    exact opening_of_accepted rfl hrun hstep
  · intro peer hpeer hnew
    have htraced : Traced b64 (NodeRuntime.init nowMs peers) es s :=
      hrun.history ⟨nofun, fun p hp => .inl hp⟩ fun _ _ _ _ hr ih hstep => ih.step hr hstep
    rcases htraced.listed peer hpeer with hold | hpaired
    · have hcontra : peers.contains peer = true := hold
      rw [hnew] at hcontra
      cases hcontra
    · exact hpaired
  · intro e t he hstep p permissions hp
    exact hstep.permissions_of_pairs he hp

/-! ## One pairing -/

/-- A viewer. -/
def viewer : EndpointId := ⟨"ae58ff8833241ac82d6ff7611046ed67"⟩

/-- A secret of zero bytes. -/
def zeroSecret : PairingSecret := ⟨List.replicate 32 0, rfl⟩

/-- The text of `zeroSecret`. -/
def zeroSecretText : String := "AAAAAAAAAAAAAAAAAAAAAAAAAAAAAAAAAAAAAAAAAAA"

/-- A base64 engine that knows the text of `zeroSecret`. -/
def zeroBase64 : Base64 where
  encode _ := zeroSecretText
  decode text := if text = zeroSecretText then some zeroSecret.bytes else none

/-- The request of the viewer. -/
def viewerPair : PairRequest := ⟨zeroSecretText, viewer.toString⟩

/-- The steps of one pairing, from the opened window to the verification. -/
def verifyEvents : List Event :=
  [.openWindow zeroSecret, .accept 0 viewer, .register 0, .request 0 0 (some (.pair viewerPair)),
    .verify 0 viewer viewerPair (.ok ())]

/-- The server after `verifyEvents`: the window is used, and nobody is authorized yet. -/
def verifiedRuntime (peers : PeerRegistry) : NodeRuntime where
  nowMs := 0
  pairing := ⟨none⟩
  pairingMdns := ⟨0, false⟩
  peers := peers
  activeConnections := Table.empty.insert viewer.toString (Table.empty.insert 0 viewer)
  connections := Table.empty.insert 0 ⟨viewer, .handling, true⟩
  requests := Table.empty.insert 0 ⟨0, viewer, .verified true (.ok ())⟩
  revokes := .empty

/-- The viewer shows the secret of the window. -/
theorem run_verifyEvents (peers : PeerRegistry) :
    Run (Step zeroBase64) (NodeRuntime.init 0 peers) verifyEvents (verifiedRuntime peers) := by
  refine run_cons_iff.2 ⟨_, .openWindow zeroSecret default default [] [], ?_⟩
  refine run_cons_iff.2 ⟨_, .accept viewer rfl, ?_⟩
  refine run_cons_iff.2 ⟨_, .register rfl rfl, ?_⟩
  refine run_cons_iff.2 ⟨_, .request (some (.pair viewerPair)) rfl rfl rfl rfl, ?_⟩
  refine run_cons_iff.2 ⟨_, ?_, .nil⟩
  exact @Step.verify _ _ 0 ⟨0, viewer, .received (some (.pair viewerPair))⟩ viewerPair (.ok ())
    ⟨none⟩ rfl rfl rfl rfl

/-- The allowlist with the viewer. -/
def viewerAllowed : PeerRegistry :=
  ⟨Table.empty.insert viewer.toString ⟨viewer.toString, 0, default⟩⟩

/-- The server after the viewer was authorized. -/
def pairedRuntime : NodeRuntime :=
  { verifiedRuntime viewerAllowed with
    pairingMdns := ⟨1, false⟩
    requests := Table.empty.insert 0 ⟨0, viewer, .done⟩ }

/-- The steps of one pairing. -/
def pairEvents : List Event := verifyEvents ++ [.mdnsClose 0, .authorize 0 viewer (.ok ())]

/-- The viewer pairs with a server that knows nobody. -/
theorem run_pairEvents :
    Run (Step zeroBase64) (NodeRuntime.init 0 ⟨.empty⟩) pairEvents pairedRuntime := by
  refine run_append_iff.2 ⟨_, run_verifyEvents _, ?_⟩
  refine run_cons_iff.2 ⟨_, @Step.mdnsClose _ _ 0 ⟨0, viewer, _⟩ (.ok ()) rfl rfl, ?_⟩
  exact run_cons_iff.2 ⟨_, @Step.authorize _ _ 0 ⟨0, viewer, _⟩ (.ok ()) rfl rfl, .nil⟩

/-- The viewer of one pairing is authorized after its verification. -/
theorem pairing_provenance_viewer :
    Run (Step zeroBase64) (NodeRuntime.init 0 ⟨.empty⟩) pairEvents pairedRuntime ∧
      PairedIn zeroBase64 (NodeRuntime.init 0 ⟨.empty⟩) pairEvents viewer := by
  obtain ⟨-, -, hlisted, -⟩ := pairing_provenance zeroBase64 0 ⟨.empty⟩ _ _ run_pairEvents
  exact ⟨run_pairEvents, hlisted viewer rfl rfl⟩

end NodeRuntime

end Rackio
