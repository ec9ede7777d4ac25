import Rackio.Iroh.Provenance
import Rackio.Lib.Shared

/-!
# The advertisement of a pairing window

A pairing window and its advertisement on the local network live under two locks, and three kinds of
calls work on both: `create_pairing_bundle` opens a window and then its advertisement, `handle_pair`
decides under the pairing lock whether the window is closed and closes the advertisement later, and
a task that sleeps for five minutes closes the advertisement of its generation.

A `handle_pair` acts on an old decision. When a window is opened and advertised in between, it takes
the new advertisement down (`advertisement_lost`); so does an older `create_pairing_bundle` whose
own start fails after that. `Careful` is the condition on the steps under which the advertisement of
the current window stays (`advertisement_follows_window`): it also asks that the generation has not
stopped at its largest value, without which a sleeping task may match a later generation.
-/

namespace Rackio

open Lts

namespace Advertisement

/-- The window and its advertisement, with the clock that tasks sleep by. The last four fields count
and date what happened; no step of the source reads them. -/
structure Cell where
  pairing : PairingManager
  pairingMdns : PairingMdnsState
  clockMs : Nat
  /-- The windows opened so far. -/
  windows : Nat
  /-- When the advertisement of the current window started. -/
  advertisedAtMs : Option Nat
  /-- The advertisements started so far. -/
  starts : Nat
  /-- When the last one started. -/
  lastStartMs : Nat

/-- Nothing was opened yet. -/
def Cell.init : Cell := ⟨⟨none⟩, ⟨0, false⟩, 0, 0, none, 0, 0⟩

/-- The sleep of the task that ends an advertisement. -/
def expiryMs : Nat := 300000

/-- Where a call is. -/
inductive Phase
  /-- A `create_pairing_bundle` call at the pairing lock. -/
  | creating
  /-- It has opened the window of this number. -/
  | opened (window : Nat)
  /-- Its task sleeps since the advertisement of this number started. -/
  | expiring (generation start startedAtMs : Nat)
  /-- A `handle_pair` call at the pairing lock. -/
  | pairing
  /-- It found the window closed. -/
  | closing
  | done
  deriving DecidableEq

/-- What a call does. -/
inductive Action
  | openWindow (nowMs : Int) (secret : PairingSecret) (encoded : Bool)
  | mdnsOpen (started : Bool)
  | verify (nowMs : Int) (peer : EndpointId) (supplied : String)
  | mdnsClose
  | expire

/-- An action, and when it happens. -/
structure Label where
  atMs : Nat
  action : Action

/-- The window of one more `create_pairing_bundle`. -/
def Cell.openWindow (c : Cell) (pairing : PairingManager) : Cell :=
  { c with pairing := pairing, windows := c.windows + 1, advertisedAtMs := none }

/-- The source's `PairingMdnsState::open` for a window, at `clockMs`. -/
def Cell.mdnsOpen (c : Cell) (window : Nat) (started : Bool) : Cell :=
  let c' := { c with pairingMdns := c.pairingMdns.open started }
  if started then
    { c' with
      advertisedAtMs := if window = c.windows then some c.clockMs else c.advertisedAtMs
      starts := c.starts + 1
      lastStartMs := c.clockMs }
  else c'

/-- The steps of a call at the time of the cell. -/
inductive Does (b64 : Base64) (c : Cell) : Phase → Action → Cell → Phase → Prop
  -- `encode` fails without an advertisement.
  | openWindow (nowMs : Int) (secret : PairingSecret) (nodeId : Uuid) (endpointId : EndpointId)
      (addresses : List SocketAddr) (relayUrls : List String) (encoded : Bool) :
      Does b64 c .creating (.openWindow nowMs secret encoded)
        (c.openWindow
          (PairingManager.open b64 nowMs secret nodeId endpointId addresses relayUrls).1)
        (if encoded then .opened (c.windows + 1) else .done)
  | mdnsOpen (window : Nat) :
      Does b64 c (.opened window) (.mdnsOpen true) (c.mdnsOpen window true)
        (.expiring c.pairingMdns.bump (c.starts + 1) c.clockMs)
  | mdnsOpenFailed (window : Nat) :
      Does b64 c (.opened window) (.mdnsOpen false) (c.mdnsOpen window false) .done
  | verify {outcome : Except PairingError Unit} {pairing : PairingManager} (nowMs : Int)
      (peer : EndpointId) (supplied : String)
      (hverify : c.pairing.verifyAndConsumeAt b64 nowMs peer supplied = (outcome, pairing)) :
      Does b64 c .pairing (.verify nowMs peer supplied) { c with pairing := pairing }
        (if pairing.isOpen then .done else .closing)
  | mdnsClose : Does b64 c .closing .mdnsClose { c with pairingMdns := c.pairingMdns.close } .done
  | expire (generation start startedAtMs : Nat) (hslept : startedAtMs + expiryMs ≤ c.clockMs) :
      Does b64 c (.expiring generation start startedAtMs) .expire
        { c with pairingMdns := (c.pairingMdns.closeIfGeneration generation).2 } .done

/-- The calls on the window and its advertisement. -/
def calls (b64 : Base64) : Shared.Program Cell Phase Label where
  Enter p := p = .creating ∨ p = .pairing
  Act c p label c' p' :=
    c.clockMs ≤ label.atMs ∧ Does b64 { c with clockMs := label.atMs } p label.action c' p'

/-- The current window is open, and its advertisement started less than five minutes before
`nowMs`. -/
def Due (c : Cell) (nowMs : Nat) : Prop :=
  c.pairing.isOpen = true ∧ ∃ startedAtMs, c.advertisedAtMs = some startedAtMs ∧
    nowMs < startedAtMs + expiryMs

/-- The condition on the steps: no `handle_pair` closes the advertisement and no start fails while
the current window is open and its own advertisement started, less than five minutes ago; and an
advertisement starts only below the largest generation. -/
def Careful (c : Cell) (_ : Phase) (label : Label) : Prop :=
  match label.action with
  | .mdnsClose | .mdnsOpen false => ¬ Due c label.atMs
  | .mdnsOpen true => c.pairingMdns.generation < 2 ^ 64 - 1
  | _ => True

/-- The calls whose steps meet the condition. -/
def careful (b64 : Base64) : Shared.Program Cell Phase Label := (calls b64).guard Careful

/-! ## The invariant -/

/-- What holds of the cell: an advertisement that is due is active, and it is not younger than the
last one that started. -/
structure Cell.Inv (c : Cell) : Prop where
  active : Due c c.clockMs → c.pairingMdns.active = true
  advertised : ∀ startedAtMs, c.advertisedAtMs = some startedAtMs → startedAtMs ≤ c.lastStartMs
  lastStart : c.lastStartMs ≤ c.clockMs
  generation : c.pairingMdns.generation ≤ 2 ^ 64 - 1

/-- What holds of a sleeping task: its generation was given out, and while it is the current one its
advertisement is the last one that started. -/
def Sleeping (c : Cell) (p : Phase) : Prop :=
  ∀ generation start startedAtMs, p = .expiring generation start startedAtMs →
    generation ≤ c.pairingMdns.generation ∧
      (generation = c.pairingMdns.generation →
        start = c.starts ∧ startedAtMs = c.lastStartMs)

section
variable {b64 : Base64} {c c' : Cell} {p p' q : Phase} {label : Label} {action : Action}

/-- What is due later is due now. -/
theorem Due.mono {nowMs laterMs : Nat} (h : Due c laterMs) (hle : nowMs ≤ laterMs) :
    Due c nowMs := by
  obtain ⟨hopen, startedAtMs, hstarted, hlater⟩ := h
  exact ⟨hopen, startedAtMs, hstarted, by omega⟩

/-- A verification opens no window. -/
theorem isOpen_of_verify {m m' : PairingManager} {nowMs : Int} {peer : EndpointId}
    {supplied : String} {outcome : Except PairingError Unit}
    (h : m.verifyAndConsumeAt b64 nowMs peer supplied = (outcome, m')) (hopen : m'.isOpen = true) :
    m.isOpen = true := by
  cases outcome with
  | ok u =>
    obtain ⟨rfl, -⟩ := PairingManager.verifyAndConsumeAt_ok h
    cases hopen
  | error e =>
    obtain ⟨w', hw'⟩ := Option.isSome_iff_exists.1 hopen
    obtain ⟨w, hw, -⟩ := PairingManager.verifyAndConsumeAt_error h w' hw'
    exact Option.isSome_iff_exists.2 ⟨w, hw⟩

/-- Time passes. -/
theorem Cell.Inv.advance (h : c.Inv) {atMs : Nat} (hle : c.clockMs ≤ atMs) :
    Cell.Inv { c with clockMs := atMs } where
  active hdue := h.active (Due.mono (c := c) hdue hle)
  advertised := h.advertised
  lastStart := h.lastStart.trans hle
  generation := h.generation

/-- An advertisement that is taken down while none is due. -/
theorem Cell.Inv.close (h : c.Inv) (hdue : ¬ Due c c.clockMs) :
    Cell.Inv { c with pairingMdns := c.pairingMdns.close } where
  active h := absurd h hdue
  advertised := h.advertised
  lastStart := h.lastStart
  generation := Nat.min_le_right _ _

/-- A task that has slept takes down no advertisement that is due. -/
theorem not_due_of_slept (hc : c.Inv) {generation start startedAtMs : Nat}
    (hp : Sleeping c (.expiring generation start startedAtMs))
    (hcurrent : generation = c.pairingMdns.generation)
    (hslept : startedAtMs + expiryMs ≤ c.clockMs) : ¬ Due c c.clockMs := by
  rintro ⟨-, advertisedAtMs, hadvertised, hlater⟩
  have hlast := ((hp _ _ _ rfl).2 hcurrent).2
  have hle := hc.advertised _ hadvertised
  omega

/-- Every step that meets the condition keeps what holds of the cell. -/
theorem Does.inv (h : Does b64 c p action c' p') (hc : c.Inv) (hp : Sleeping c p)
    (hcareful : Careful c p ⟨c.clockMs, action⟩) : c'.Inv := by
  cases h with
  | openWindow nowMs secret nodeId endpointId addresses relayUrls encoded =>
    refine ⟨?_, ?_, hc.lastStart, hc.generation⟩
    · rintro ⟨-, _, ⟨⟩, -⟩
    · rintro _ ⟨⟩
  | mdnsOpen window =>
    refine ⟨fun _ => rfl, fun startedAtMs hstarted => ?_, Nat.le_refl _, Nat.min_le_right _ _⟩
    have hold : ∀ t, c.advertisedAtMs = some t → t ≤ c.clockMs := fun t ht =>
      (hc.advertised t ht).trans hc.lastStart
    simp only [Cell.mdnsOpen, if_true] at hstarted ⊢
    split at hstarted
    · cases hstarted
      exact Nat.le_refl _
    · exact hold startedAtMs hstarted
  | mdnsOpenFailed window => exact hc.close hcareful
  | verify nowMs peer supplied hverify =>
    refine ⟨fun hdue => hc.active ⟨isOpen_of_verify hverify hdue.1, hdue.2⟩, hc.advertised,
      hc.lastStart, hc.generation⟩
  | mdnsClose => exact hc.close hcareful
  | expire generation start startedAtMs hslept =>
    unfold PairingMdnsState.closeIfGeneration
    split
    · exact hc
    · next hcurrent =>
      exact hc.close (not_due_of_slept hc hp (not_not.1 hcurrent).symm hslept)

/-- A task sleeps on while the generation moves on. -/
theorem Sleeping.close (hq : Sleeping c q) (hc : c.Inv) :
    Sleeping { c with pairingMdns := c.pairingMdns.close } q := by
  intro generation start startedAtMs heq
  obtain ⟨hle, hlast⟩ := hq generation start startedAtMs heq
  have hmax := hc.generation
  simp only [PairingMdnsState.close, PairingMdnsState.bump]
  refine ⟨by omega, fun hcurrent => hlast (by omega)⟩

/-- A sleeping task is not the one of an advertisement that starts. -/
theorem Sleeping.mdnsOpen (hq : Sleeping c q) (hmax : c.pairingMdns.generation < 2 ^ 64 - 1)
    (window : Nat) : Sleeping (c.mdnsOpen window true) q := by
  intro generation start startedAtMs heq
  obtain ⟨hle, -⟩ := hq generation start startedAtMs heq
  simp only [Cell.mdnsOpen, if_true, PairingMdnsState.open, PairingMdnsState.bump]
  refine ⟨by omega, fun hcurrent => by omega⟩

/-- A step keeps what holds of the other calls. -/
theorem Does.sleeping (h : Does b64 c p action c' p') (hc : c.Inv)
    (hcareful : Careful c p ⟨c.clockMs, action⟩) (hq : Sleeping c q) : Sleeping c' q := by
  cases h with
  | openWindow => exact hq
  | mdnsOpen window => exact hq.mdnsOpen hcareful window
  | mdnsOpenFailed window => exact hq.close hc
  | verify => exact hq
  | mdnsClose => exact hq.close hc
  | expire generation start startedAtMs hslept =>
    unfold PairingMdnsState.closeIfGeneration
    split
    · exact hq
    · exact hq.close hc

/-- A call that starts an advertisement sleeps on it. -/
theorem Does.asleep (h : Does b64 c p action c' p') : Sleeping c' p' := by
  intro generation start startedAtMs hp'
  cases h with
  | openWindow nowMs secret nodeId endpointId addresses relayUrls encoded =>
    cases encoded with
    | false => cases hp'
    | true => cases hp'
  | mdnsOpen window =>
    cases hp'
    exact ⟨Nat.le_refl _, fun _ => ⟨rfl, rfl⟩⟩
  | mdnsOpenFailed window => cases hp'
  | verify nowMs peer supplied hverify =>
    split at hp'
    · cases hp'
    · cases hp'
  | mdnsClose => cases hp'
  | expire => cases hp'

/-- The calls keep the invariant as long as their steps meet the condition. -/
theorem preserves_inv : (careful b64).Preserves Cell.Inv Sleeping where
  enter _ _ _ hp := by
    rintro _ _ _ rfl
    rcases hp with hp | hp
    · cases hp
    · cases hp
  act c p label c' p' hc hp h := by
    obtain ⟨hcareful, hle, hdoes⟩ := h
    exact ⟨hdoes.inv (hc.advance hle) hp hcareful, hdoes.asleep⟩
  others c p label c' p' q hc hp h hq := by
    obtain ⟨hcareful, hle, hdoes⟩ := h
    exact hdoes.sleeping (hc.advance hle) hcareful hq

/-! ## The result -/

/-- Nothing is advertised at first. -/
theorem inv_init : Cell.Inv .init := by
  refine ⟨?_, ?_, Nat.le_refl _, Nat.zero_le _⟩
  · rintro ⟨⟨⟩, -⟩
  · rintro _ ⟨⟩

/-- In every run whose steps meet the condition, also while calls are between their steps: the
advertisement of the current window is active for five minutes from its start, while the window is
open; and a task that wakes after another advertisement has started leaves it alone. -/
theorem advertisement_follows_window {es : List (Shared.Event Label)} {s : Shared Cell Phase}
    (hrun : Run (Shared.Step (careful b64)) (.initial .init) es s) :
    (∀ nowMs, s.cell.clockMs ≤ nowMs → Due s.cell nowMs → s.cell.pairingMdns.active = true) ∧
      ∀ i generation start startedAtMs atMs t,
        s.calls.find i = some (.expiring generation start startedAtMs) → start < s.cell.starts →
        Shared.Step (careful b64) s (.act i ⟨atMs, .expire⟩) t →
          t.cell.pairingMdns = s.cell.pairingMdns := by
  have hholds : Shared.Holds Cell.Inv Sleeping s :=
    Shared.Holds.run preserves_inv (Shared.holds_initial inv_init) hrun
  constructor
  · intro nowMs hle hdue
    exact hholds.cell.active (hdue.mono hle)
  · intro i generation start startedAtMs atMs t hi hstale hstep
    have hsleeping := (hholds.calls i _ hi generation start startedAtMs rfl).2
    have hother : s.cell.pairingMdns.generation ≠ generation := by
      intro hcurrent
      have hlast := (hsleeping hcurrent.symm).1
      omega
    cases hstep with
    | act hi' h =>
      rw [hi] at hi'
      cases hi'
      obtain ⟨-, -, hdoes⟩ := h
      cases hdoes with
      | expire => simp [PairingMdnsState.closeIfGeneration, hother]

end

open NodeRuntime (viewer zeroBase64 zeroSecret)

/-! ## One window -/

/-- A window is opened and advertised. -/
def openEvents : List (Shared.Event Label) :=
  [.enter 0, .act 0 ⟨0, .openWindow 0 zeroSecret true⟩, .act 0 ⟨10, .mdnsOpen true⟩]

/-- Its advertisement is active, and its task sleeps. -/
def advertised : Shared Cell Phase where
  cell := ⟨⟨some ⟨zeroSecret, 300000, []⟩⟩, ⟨1, true⟩, 10, 1, some 10, 1, 10⟩
  calls := Table.empty.insert 0 (.expiring 1 1 10)

/-- The advertisement is active one minute later. -/
theorem advertisement_follows_window_advertised :
    Run (Shared.Step (careful zeroBase64)) (.initial .init) openEvents advertised ∧
      Due advertised.cell 60000 ∧ advertised.cell.pairingMdns.active = true := by
  have hrun : Run (Shared.Step (careful zeroBase64)) (.initial .init) openEvents advertised := by
    refine run_cons_iff.2 ⟨_, .enter rfl (.inl rfl), ?_⟩
    refine run_cons_iff.2 ⟨_, .act rfl ⟨trivial, by decide,
      .openWindow 0 zeroSecret default default [] [] true⟩, ?_⟩
    have hbelow : 0 < 2 ^ 64 - 1 := by decide
    exact run_cons_iff.2 ⟨_, .act rfl ⟨hbelow, by decide, .mdnsOpen 1⟩, .nil⟩
  have hdue : Due advertised.cell 60000 := ⟨rfl, 10, rfl, by decide⟩
  exact ⟨hrun, hdue, (advertisement_follows_window hrun).1 60000 (by decide) hdue⟩

/-! ## A late close -/

/-- No call is between its steps. -/
def Quiet (s : Shared Cell Phase) : Prop :=
  ∀ i p, s.calls.find i = some p → p ≠ .closing ∧ ∀ window, p ≠ .opened window

/-- A peer tries to pair while no window is open, and a window is opened and advertised before the
advertisement is closed for it. -/
def lateClose : List (Shared.Event Label) :=
  [.enter 0, .act 0 ⟨0, .verify 0 viewer "guess"⟩, .enter 1,
    .act 1 ⟨1, .openWindow 1 zeroSecret true⟩, .act 1 ⟨2, .mdnsOpen true⟩, .act 0 ⟨3, .mdnsClose⟩]

/-- The window is open, and its advertisement is gone. -/
def lost : Shared Cell Phase where
  cell := ⟨⟨some ⟨zeroSecret, 300001, []⟩⟩, ⟨2, false⟩, 3, 1, some 2, 1, 2⟩
  calls := (Table.empty.insert 0 .done).insert 1 (.expiring 1 1 2)

/-- A `handle_pair` that found no window closes the advertisement of the window that was opened
since. -/
theorem advertisement_lost :
    ¬ ∀ es s, Run (Shared.Step (calls zeroBase64)) (.initial .init) es s → Quiet s →
      ∀ nowMs, s.cell.clockMs ≤ nowMs → Due s.cell nowMs → s.cell.pairingMdns.active = true := by
  intro h
  have hrun : Run (Shared.Step (calls zeroBase64)) (.initial .init) lateClose lost := by
    refine run_cons_iff.2 ⟨_, .enter rfl (.inr rfl), ?_⟩
    refine run_cons_iff.2 ⟨_, .act rfl ⟨by decide, .verify 0 viewer "guess" rfl⟩, ?_⟩
    refine run_cons_iff.2 ⟨_, .enter rfl (.inl rfl), ?_⟩
    refine run_cons_iff.2 ⟨_, .act rfl ⟨by decide,
      .openWindow 1 zeroSecret default default [] [] true⟩, ?_⟩
    refine run_cons_iff.2 ⟨_, .act rfl ⟨by decide, .mdnsOpen 1⟩, ?_⟩
    refine run_cons_iff.2 ⟨_, .act rfl ⟨by decide, .mdnsClose⟩, ?_⟩
    exact run_nil_iff.2 rfl
  have hquiet : Quiet lost := by
    refine Table.forall_insert
      (P := fun _ p => p ≠ Phase.closing ∧ ∀ window, p ≠ .opened window)
      (Table.forall_insert (fun i p hi => ?_) (by simp)) (by simp)
    cases hi
  have hactive := h lateClose lost hrun hquiet 3 (Nat.le_refl _) ⟨rfl, 2, rfl, by decide⟩
  cases hactive

end Advertisement

end Rackio
