import Rackio.Iroh.Bystander
import Rackio.Remote.PairingText

/-!
# Pairing, from one machine to the other

A pairing from end to end: `create_pairing_bundle` opens a window on the machine, its text is pasted
on the viewer, `import_pairing` decodes it and sends the secret, `handle_pair` judges it, and the
viewer checks the answer and stores the record. The server runs on in between, with any connections,
requests and attempts of other peers.

The text is enough in its five minutes, whatever the others try, and for one peer only
(`pairing_completes`).
-/

namespace Rackio

namespace NodeRuntime

open Lts
open PairingManager (AtMost bystander)

section
variable {b64 : Base64} {s t u : NodeRuntime} {e : Event} {es : List Event} {viewer : EndpointId}
  {secret : PairingSecret} {expiresAtMs : Int}

/-- The event is none of the viewer's, and shows no text that opens the window. -/
def Event.Bystands (viewer : EndpointId) (text : String) : Event → Prop
  | .openWindow _ => False
  | .verify _ peer pair _ => peer ≠ viewer ∧ pair.oneTimeSecret ≠ text
  | _ => True

/-- Until it expires the window is open, and the viewer has not failed on it. -/
def Waiting (viewer : EndpointId) (secret : PairingSecret) (expiresAtMs : Int) (s : NodeRuntime) :
    Prop :=
  s.nowMs ≤ expiresAtMs → ∃ w, s.pairing.active = some w ∧ w.secret = secret ∧
    w.expiresAtMs = expiresAtMs ∧ AtMost viewer 0 w.failures

/-- The clock of the server does not go back. -/
theorem Step.nowMs_le (h : Step b64 s e t) : s.nowMs ≤ t.nowMs := by
  cases h with
  | advance ms => exact Int.le_add_of_nonneg_right (Int.natCast_nonneg ms)
  | _ => exact le_rfl

/-- The only text that matches a secret is its own. -/
theorem matches_iff (hb64 : b64.Lawful) {supplied : String} :
    PairingManager.Matches b64 secret supplied ↔ supplied = b64.encode secret.bytes :=
  hb64.decode_eq_some_iff

/-- A bystander does not close the window, nor fail in the name of the viewer. -/
theorem Waiting.step (hb64 : b64.Lawful) (h : Waiting viewer secret expiresAtMs s)
    (hstep : Step b64 s e t) (he : e.Bystands viewer (b64.encode secret.bytes)) :
    Waiting viewer secret expiresAtMs t := by
  intro hnow
  have hbefore : s.nowMs ≤ expiresAtMs := hstep.nowMs_le.trans hnow
  obtain ⟨w, hactive, hsecret, hexpires, hfailures⟩ := h hbefore
  rcases hstep.pairing_cases with ⟨_, rfl, -⟩ | ⟨r, peer, pair, outcome, rfl, hverify⟩ |
    ⟨-, -, hkept⟩
  · exact he.elim
  · obtain ⟨hpeer, htext⟩ := he
    have hinvalid : PairingManager.isValid b64 w.secret pair.oneTimeSecret = false := by
      rw [Bool.eq_false_iff, Ne, PairingManager.isValid_iff, hsecret, matches_iff hb64]
      exact htext
    have hintime : ¬ s.nowMs > w.expiresAtMs := by
      rw [hexpires]
      exact not_lt.2 hbefore
    have hmanager : s.pairing = ⟨some w⟩ := congrArg PairingManager.mk hactive
    rw [hmanager, PairingManager.verifyAndConsumeAt_window, if_neg hintime, hinvalid] at hverify
    cases hlocked : w.isLockedOut peer with
    | true =>
      rw [hlocked, if_pos rfl] at hverify
      exact ⟨w, congrArg PairingManager.active (Prod.ext_iff.1 hverify).2.symm, hsecret, hexpires,
        hfailures⟩
    | false =>
      rw [hlocked] at hverify
      obtain ⟨hsame, hexpiry⟩ := w.recordFailure_frame peer
      exact ⟨w.recordFailure peer, congrArg PairingManager.active (Prod.ext_iff.1 hverify).2.symm,
        hsame.trans hsecret, hexpiry.trans hexpires, hfailures.recordFailure_of_ne hpeer⟩
  · exact ⟨w, hkept ▸ hactive, hsecret, hexpires, hfailures⟩

/-- Bystanders leave the window to the viewer. -/
theorem Waiting.run (hb64 : b64.Lawful) (h : Waiting viewer secret expiresAtMs s)
    (hrun : Run (Step b64) s es t)
    (hes : ∀ e ∈ es, e.Bystands viewer (b64.encode secret.bytes)) :
    Waiting viewer secret expiresAtMs t := by
  induction hrun with
  | nil => exact h
  | snoc hrun hstep ih =>
    exact (ih fun e he => hes e (List.mem_append_left _ he)).step hb64 hstep
      (hes _ (List.mem_append_right _ List.mem_cons_self))

/-- The text of the window lets the viewer in. -/
theorem Waiting.verify (hb64 : b64.Lawful) (h : Waiting viewer secret expiresAtMs s)
    (hnow : s.nowMs ≤ expiresAtMs) :
    s.pairing.verifyAndConsumeAt b64 s.nowMs viewer (b64.encode secret.bytes) =
      (.ok (), ⟨none⟩) := by
  obtain ⟨w, hactive, hsecret, hexpires, hfailures⟩ := h hnow
  have hvalid : PairingManager.isValid b64 w.secret (b64.encode secret.bytes) = true := by
    rw [PairingManager.isValid_iff, hsecret, matches_iff hb64]
  have hintime : ¬ s.nowMs > w.expiresAtMs := by
    rw [hexpires]
    exact not_lt.2 hnow
  have hlocked : w.isLockedOut viewer = false := hfailures.isLockedOut (by decide)
  have hmanager : s.pairing = ⟨some w⟩ := congrArg PairingManager.mk hactive
  rw [hmanager, PairingManager.verifyAndConsumeAt_window, if_neg hintime, hlocked, hvalid]
  rfl

/-- Without a window nobody is let in. -/
theorem accepts_of_closed (h : s.pairing = ⟨none⟩) (hrun : Run (Step b64) s es t)
    (hes : ∀ e ∈ es, e.opens = false) : (∀ e ∈ es, e.accepts = false) ∧ t.pairing = ⟨none⟩ := by
  induction hrun with
  | nil => exact ⟨List.forall_mem_nil _, h⟩
  | @snoc es t u e hrun hstep ih =>
    obtain ⟨hnone, hclosed⟩ := ih fun e he => hes e (List.mem_append_left _ he)
    have hopens : e.opens = false := hes e (List.mem_append_right _ List.mem_cons_self)
    have hlast : e.accepts = false ∧ u.pairing = ⟨none⟩ := by
      rcases hstep.pairing_cases with ⟨_, rfl, -⟩ | ⟨r, peer, pair, outcome, rfl, hverify⟩ |
        ⟨-, haccepts, hkept⟩
      · cases hopens
      · rw [hclosed] at hverify
        obtain ⟨houtcome, hpairing⟩ := Prod.ext_iff.1 hverify
        have hrefused : outcome = .error .windowClosed := houtcome.symm
        subst hrefused
        exact ⟨rfl, hpairing.symm⟩
      · exact ⟨haccepts, hkept.trans hclosed⟩
    refine ⟨fun e' he' => ?_, hlast.2⟩
    rcases List.mem_append.1 he' with he' | he'
    · exact hnone e' he'
    · rw [List.mem_singleton.1 he']
      exact hlast.1

/-- The window that was opened with a bundle, and what the bundle says of it. -/
theorem createPairingBundle_opens {host : Host} {origin : PairingOrigin}
    {pairing : PairingManager} {bundle : PairingBundle}
    (h : createPairingBundle host b64 origin = .ok (pairing, bundle)) :
    pairing = ⟨some ⟨origin.secret, origin.nowMs + pairingWindowMs, []⟩⟩ ∧
      bundle.formatVersion = 1 ∧ bundle.nodeId = origin.nodeId ∧
      bundle.endpointId = origin.endpointId.toString ∧
      bundle.oneTimeSecret = b64.encode origin.secret.bytes ∧
      bundle.expiresAtMs = origin.nowMs + pairingWindowMs := by
  obtain ⟨config, -, h⟩ := Outcome.bind_eq_ok_iff.1 h
  split at h
  · cases h
  · cases h
    exact ⟨rfl, rfl, rfl, rfl, rfl, rfl⟩

/-- What the machine of a bundle answers: over a connection to its endpoint, the response that
`handle_pair` writes to an accepted request, and its own node. -/
structure Answers (origin : PairingOrigin) (answer : PairingAnswer) : Prop where
  remoteId : answer.remoteId = origin.endpointId.toString
  paired : answer.paired = some ⟨true, origin.nodeId.toString, origin.endpointId.toString⟩
  node : answer.node.nodeId = origin.nodeId

/-- The viewer stores the machine that answers. -/
theorem importPairing_answered {origin : PairingOrigin} {bundle : PairingBundle}
    {registry : RemoteMachineRegistry} {answer : PairingAnswer} {nowMs : Int}
    (hanswer : Answers origin answer) (hnodeId : bundle.nodeId = origin.nodeId)
    (hendpointId : bundle.endpointId = origin.endpointId.toString)
    (hnow : nowMs ≤ bundle.expiresAtMs)
    (haddress : bundle.directAddresses ≠ [] ∨ bundle.relayUrls ≠ [])
    (hnew : registry.contains bundle.endpointId = false) :
    importPairing registry bundle nowMs (.ok ()) answer (.ok ()) =
      .ok (registry.store (importedRecord bundle answer)) := by
  have hvalid : validateBundle bundle nowMs (.ok ()) = .ok () := by
    rw [validateBundle, if_neg (not_lt.2 hnow), if_neg fun h => haddress.elim (· h.1) (· h.2)]
  have hchecked : checkAnswer bundle answer = .ok () := by
    rw [checkAnswer, hanswer.remoteId, hanswer.paired, if_neg (not_not_intro hendpointId.symm)]
    simp only [Bool.not_true, Bool.false_eq_true, if_false, hnodeId, hendpointId, ne_eq,
      not_true_eq_false, or_self, hanswer.node]
  simp only [importPairing, hvalid, hnew, hchecked, Except.mapError, RemoteMachineRegistry.insert]
  rfl

/-- The text of a bundle is enough to pair. Whatever other peers do on the server in between, short
of showing the text itself, the viewer that has it from the machine is let in for as long as the
window is to last; nobody is let in after it without a new window; and the viewer stores the machine
when the machine answers as it does. -/
theorem pairing_completes {φ : Type} {f : JsonFormats φ} {json : JsonBytes φ} {host : Host}
    {origin : PairingOrigin} {pairing : PairingManager} {bundle received : PairingBundle} {r : Nat}
    {outcome : Except PairingError Unit} {before after : String}
    (hb64 : b64.Lawful) (hreads : json.Reads f)
    (hcreate : createPairingBundle host b64 origin = .ok (pairing, bundle))
    (hopened : s.pairing = pairing)
    (hprints : f.PrintsAddresses bundle.directAddresses)
    (hvalue : json.value (json.print (f.pairingBundle.ser bundle)) =
      .ok (f.pairingBundle.ser bundle))
    (hexpiry : FitsI64 bundle.expiresAtMs)
    (hbefore : ∀ c ∈ before.toList, isWhitespace c = true)
    (hafter : ∀ c ∈ after.toList, isWhitespace c = true)
    (hreceived : PairingBundle.decode b64 json
      (trim (before ++ bundle.encode b64 json f ++ after)) = .ok received)
    (hrun : Run (Step b64) s es t)
    (hothers : ∀ e ∈ es, e.Bystands viewer bundle.oneTimeSecret)
    (hnow : t.nowMs ≤ origin.nowMs + pairingWindowMs)
    (hverify : Step b64 t
      (.verify r viewer ⟨received.oneTimeSecret, viewer.toString⟩ outcome) u) :
    outcome = .ok () ∧
      (∀ es' v, Run (Step b64) u es' v → (∀ e ∈ es', e.opens = false) →
        ∀ e ∈ es', e.accepts = false) ∧
      ∀ registry answer nowMs, Answers origin answer → nowMs ≤ origin.nowMs + pairingWindowMs →
        received.directAddresses ≠ [] ∨ received.relayUrls ≠ [] →
        registry.contains origin.endpointId.toString = false →
        importPairing registry received nowMs (.ok ()) answer (.ok ()) =
          .ok (registry.store (importedRecord received answer)) := by
  obtain ⟨hpairing, hversion, hnodeId, hendpointId, hsecret, hexpires⟩ :=
    createPairingBundle_opens hcreate
  have hsame : received = bundle.reread := by
    rw [trim_encode hb64 hbefore hafter, decode_text hb64 hreads hprints hvalue hversion hexpiry]
      at hreceived
    exact (Except.ok.inj hreceived).symm
  subst hsame
  have hwaiting : Waiting viewer origin.secret (origin.nowMs + pairingWindowMs) s := by
    refine fun _ => ⟨⟨origin.secret, origin.nowMs + pairingWindowMs, []⟩, ?_, rfl, rfl, ?_⟩
    · rw [hopened, hpairing]
    · exact fun entry hentry => absurd hentry List.not_mem_nil
  have hleft := (hwaiting.run hb64 hrun fun e he => hsecret ▸ hothers e he).verify hb64 hnow
  have hverified : outcome = .ok () ∧ u.pairing = ⟨none⟩ := by
    have hshown : bundle.reread.oneTimeSecret = b64.encode origin.secret.bytes := hsecret
    cases hverify with
    | verify hr hstage hclaimed hresult =>
      rw [hshown, hleft] at hresult
      exact ⟨(Prod.ext_iff.1 hresult).1.symm, (Prod.ext_iff.1 hresult).2.symm⟩
  refine ⟨hverified.1, fun es' v hrun' hes' => (accepts_of_closed hverified.2 hrun' hes').1,
    fun registry answer nowMs hanswer hintime haddress hnew => ?_⟩
  refine importPairing_answered hanswer hnodeId hendpointId ?_ haddress ?_
  · exact hintime.trans_eq hexpires.symm
  · exact (congrArg registry.contains hendpointId).trans hnew

end

/-! ## One pairing -/

/-- A machine that listens on one address, when its window is opened. -/
def loopbackOrigin : PairingOrigin := forwardedOrigin [⟨.v4 0x7f000001, 4433, 0, 0⟩] []

/-- Its server then. -/
def loopbackOpened : NodeRuntime :=
  { NodeRuntime.init 0 ⟨.empty⟩ with pairing := ⟨some ⟨zeroSecret, pairingWindowMs, []⟩⟩ }

/-- The request of a peer that does not have the text. -/
def guessPair : PairRequest := ⟨"guess", bystander.toString⟩

/-- The request of a viewer that has it. -/
def loopbackPair : PairRequest := ⟨loopbackBundle.oneTimeSecret, viewer.toString⟩

/-- The steps before the request of the viewer is judged: another peer guesses first. -/
def loopbackEvents : List Event :=
  [.accept 0 bystander, .register 0, .request 0 0 (some (.pair guessPair)),
    .verify 0 bystander guessPair (.error .rejected), .accept 1 viewer, .register 1,
    .request 1 1 (some (.pair loopbackPair))]

/-- The window after the guess. -/
def guessedLoopback : PairingWindow :=
  (⟨zeroSecret, pairingWindowMs, []⟩ : PairingWindow).recordFailure bystander

/-- The server then. -/
def loopbackAsked : NodeRuntime :=
  { loopbackOpened with
    pairing := ⟨some guessedLoopback⟩
    activeConnections := (Table.empty.insert bystander.toString
      (Table.empty.insert 0 bystander)).insert viewer.toString (Table.empty.insert 1 viewer)
    connections := (Table.empty.insert 0 ⟨bystander, .handling, true⟩).insert 1
      ⟨viewer, .handling, true⟩
    requests := (Table.empty.insert 0
      ⟨0, bystander, .verified false (.error .rejected)⟩).insert 1
        ⟨1, viewer, .received (some (.pair loopbackPair))⟩ }

/-- The guess is not the text. -/
theorem guess_ne : guessPair.oneTimeSecret ≠ urlSafeNoPad.encode zeroSecret.bytes := by
  intro h
  have hlength := congrArg String.length h
  revert hlength
  decide

/-- It is counted as a failure of the peer that made it. -/
theorem guess_rejected :
    loopbackOpened.pairing.verifyAndConsumeAt urlSafeNoPad 0 bystander guessPair.oneTimeSecret =
      (.error .rejected, ⟨some guessedLoopback⟩) := by
  have hinvalid :
      PairingManager.isValid urlSafeNoPad zeroSecret guessPair.oneTimeSecret = false := by
    rw [Bool.eq_false_iff, Ne, PairingManager.isValid_iff, matches_iff lawful_urlSafeNoPad]
    exact guess_ne
  show PairingManager.verifyAndConsumeAt urlSafeNoPad ⟨some ⟨zeroSecret, pairingWindowMs, []⟩⟩ 0
    bystander guessPair.oneTimeSecret = _
  rw [PairingManager.verifyAndConsumeAt_window, hinvalid]
  rfl

theorem run_loopbackEvents :
    Run (Step urlSafeNoPad) loopbackOpened loopbackEvents loopbackAsked := by
  refine run_cons_iff.2 ⟨_, .accept bystander rfl, ?_⟩
  refine run_cons_iff.2 ⟨_, .register rfl rfl, ?_⟩
  refine run_cons_iff.2 ⟨_, .request (some (.pair guessPair)) rfl rfl rfl rfl, ?_⟩
  refine run_cons_iff.2 ⟨_, @Step.verify _ _ 0 ⟨0, bystander, .received (some (.pair guessPair))⟩
    guessPair (.error .rejected) ⟨some guessedLoopback⟩ rfl rfl rfl guess_rejected, ?_⟩
  refine run_cons_iff.2 ⟨_, .accept viewer rfl, ?_⟩
  refine run_cons_iff.2 ⟨_, .register rfl rfl, ?_⟩
  exact run_cons_iff.2 ⟨_, .request (some (.pair loopbackPair)) rfl rfl rfl rfl, .nil⟩

/-- No step before the request is judged is one that could close the window. -/
theorem bystands_loopbackEvents :
    ∀ e ∈ loopbackEvents, e.Bystands viewer loopbackBundle.oneTimeSecret := by
  simp only [loopbackEvents, List.forall_mem_cons, List.not_mem_nil, false_imp_iff, implies_true,
    and_true]
  exact ⟨trivial, trivial, trivial, ⟨by decide, guess_ne⟩, trivial, trivial, trivial⟩

/-- The window is open before. -/
theorem loopback_waiting : Waiting viewer zeroSecret pairingWindowMs loopbackOpened :=
  fun _ => ⟨_, rfl, rfl, rfl, fun _ hentry => absurd hentry List.not_mem_nil⟩

/-- The server after the request was judged. -/
def loopbackPaired : NodeRuntime :=
  { loopbackAsked with pairing := ⟨none⟩ }.setStage 1
    ⟨1, viewer, .received (some (.pair loopbackPair))⟩ (.verified true (.ok ()))

/-- The request is judged. -/
theorem loopback_verify : Step urlSafeNoPad loopbackAsked
    (.verify 1 viewer ⟨loopbackBundle.reread.oneTimeSecret, viewer.toString⟩ (.ok ()))
    loopbackPaired := by
  have hleft : Waiting viewer zeroSecret pairingWindowMs loopbackAsked :=
    loopback_waiting.run lawful_urlSafeNoPad run_loopbackEvents bystands_loopbackEvents
  exact @Step.verify _ _ 1 ⟨1, viewer, .received (some (.pair loopbackPair))⟩ loopbackPair (.ok ())
    ⟨none⟩ rfl rfl rfl (hleft.verify lawful_urlSafeNoPad (by decide))

/-- The text is received. -/
theorem loopback_received :
    PairingBundle.decode urlSafeNoPad loopbackJson (trim ("" ++
        loopbackBundle.encode urlSafeNoPad loopbackJson RemoteFleet.plainFormats ++ "")) =
      .ok loopbackBundle.reread := by
  rw [trim_encode lawful_urlSafeNoPad (List.forall_mem_nil _) (List.forall_mem_nil _)]
  exact decode_text lawful_urlSafeNoPad loopback_reads loopback_prints loopback_parses
    loopback_version loopback_expiry

theorem pairing_completes_loopback :
    Except.ok () = (.ok () : Except PairingError Unit) ∧
      (∀ es' v, Run (Step urlSafeNoPad) loopbackPaired es' v →
        (∀ e ∈ es', e.opens = false) → ∀ e ∈ es', e.accepts = false) ∧
      ∀ registry answer nowMs, Answers loopbackOrigin answer →
        nowMs ≤ loopbackOrigin.nowMs + pairingWindowMs →
        loopbackBundle.reread.directAddresses ≠ [] ∨ loopbackBundle.reread.relayUrls ≠ [] →
        registry.contains loopbackOrigin.endpointId.toString = false →
        importPairing registry loopbackBundle.reread nowMs (.ok ()) answer (.ok ()) =
          .ok (registry.store (importedRecord loopbackBundle.reread answer)) := by
  have hcreate : createPairingBundle relayHost urlSafeNoPad loopbackOrigin =
      .ok (⟨some ⟨zeroSecret, pairingWindowMs, []⟩⟩, loopbackBundle) := rfl
  exact pairing_completes lawful_urlSafeNoPad loopback_reads hcreate rfl loopback_prints
    loopback_parses loopback_expiry (List.forall_mem_nil _) (List.forall_mem_nil _)
    loopback_received run_loopbackEvents bystands_loopbackEvents (by decide) loopback_verify

end NodeRuntime

end Rackio
