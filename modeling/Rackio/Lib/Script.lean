import Mathlib.Tactic.TypeStar

/-!
# Scripts

A script is a program that asks the world: each request has a type of answers, and what follows may
depend on the answer. It ends with a value or with an error. `Traces` is every way it can go, with
the requests and the answers of that way, so a fact about all traces holds in every world, however
its answers depend on what was asked before.

Facts about the traces are proved with triples over histories: `Triple P s Q E` says that after a
history in `P` the script ends in a history of `Q`, or fails in one of `E`. There is one rule for
each constructor, for `bind` and for `attempt`, and `Triple.adapt` weakens.
-/

universe u

variable {ι : Type u} {ρ : ι → Type u} {ε α β : Type u}

/-- A program that asks the world. -/
inductive Script (ι : Type u) (ρ : ι → Type u) (ε α : Type u) : Type u
  | done (a : α)
  | fail (e : ε)
  | ask (i : ι) (next : ρ i → Script ι ρ ε α)

/-- A request with its answer. -/
structure Exchange (ι : Type u) (ρ : ι → Type u) where
  request : ι
  answer : ρ request

namespace Script

/-- Go on with the value, if there is one. -/
def bind (s : Script ι ρ ε α) (f : α → Script ι ρ ε β) : Script ι ρ ε β :=
  match s with
  | .done a => f a
  | .fail e => .fail e
  | .ask i next => .ask i fun answer => (next answer).bind f

instance : Monad (Script ι ρ ε) where
  pure := .done
  bind := .bind

/-- Ask, and return the answer. -/
def request (i : ι) : Script ι ρ ε (ρ i) := .ask i .done

/-- An outcome that is known already. -/
def lift : Except ε α → Script ι ρ ε α
  | .ok a => .done a
  | .error e => .fail e

/-- Fail unless the condition holds. -/
def ensure (p : Prop) [Decidable p] (e : ε) : Script ι ρ ε PUnit := if p then .done ⟨⟩ else .fail e

/-- The outcome of a script as a value. -/
def attempt : Script ι ρ ε α → Script ι ρ ε (Except ε α)
  | .done a => .done (.ok a)
  | .fail e => .done (.error e)
  | .ask i next => .ask i fun answer => (next answer).attempt

/-- The trace of a script in a world that answers by what was asked before, and its outcome. -/
def run (world : List (Exchange ι ρ) → (i : ι) → ρ i) :
    Script ι ρ ε α → List (Exchange ι ρ) → List (Exchange ι ρ) × Except ε α
  | .done a, _ => ([], .ok a)
  | .fail e, _ => ([], .error e)
  | .ask i next, before =>
    let exchange : Exchange ι ρ := ⟨i, world before i⟩
    let rest := (next exchange.answer).run world (before ++ [exchange])
    (exchange :: rest.1, rest.2)

/-- The ways a script can go. -/
inductive Traces : Script ι ρ ε α → List (Exchange ι ρ) → Except ε α → Prop
  | done (a : α) : Traces (.done a) [] (.ok a)
  | fail (e : ε) : Traces (.fail e) [] (.error e)
  | ask {i : ι} {next : ρ i → Script ι ρ ε α} {trace : List (Exchange ι ρ)}
      {outcome : Except ε α} (answer : ρ i) :
      Traces (next answer) trace outcome → Traces (.ask i next) (⟨i, answer⟩ :: trace) outcome

/-- What a world makes of a script is one way it can go. -/
theorem traces_run (world : List (Exchange ι ρ) → (i : ι) → ρ i) (s : Script ι ρ ε α)
    (before : List (Exchange ι ρ)) :
    Traces s (s.run world before).1 (s.run world before).2 := by
  induction s generalizing before with
  | done a => exact .done a
  | fail e => exact .fail e
  | ask i next ih => exact .ask _ (ih _ _)

/-! ## Traces of composed scripts -/

section
variable {s : Script ι ρ ε α} {f : α → Script ι ρ ε β} {trace : List (Exchange ι ρ)}

/-- A composed script goes through its first part, and on if that has a value. -/
theorem traces_bind {outcome : Except ε β} (h : Traces (s.bind f) trace outcome) :
    (∃ first rest a, trace = first ++ rest ∧ Traces s first (.ok a) ∧
      Traces (f a) rest outcome) ∨
      ∃ e, Traces s trace (.error e) ∧ outcome = .error e := by
  induction s generalizing trace with
  | done a => exact .inl ⟨[], trace, a, rfl, .done a, h⟩
  | fail e =>
    cases h
    exact .inr ⟨e, .fail e, rfl⟩
  | ask i next ih =>
    cases h with
    | ask answer h =>
      rcases ih answer h with ⟨first, rest, a, rfl, hfirst, hrest⟩ | ⟨e, hfail, rfl⟩
      · exact .inl ⟨_ :: first, rest, a, rfl, .ask answer hfirst, hrest⟩
      · exact .inr ⟨e, .ask answer hfail, rfl⟩

/-- An attempt goes as the script does. -/
theorem traces_attempt {outcome : Except ε (Except ε α)} (h : Traces s.attempt trace outcome) :
    ∃ result, Traces s trace result ∧ outcome = .ok result := by
  induction s generalizing trace with
  | done a =>
    cases h
    exact ⟨_, .done a, rfl⟩
  | fail e =>
    cases h
    exact ⟨_, .fail e, rfl⟩
  | ask i next ih =>
    cases h with
    | ask answer h =>
      obtain ⟨result, hresult, rfl⟩ := ih answer h
      exact ⟨result, .ask answer hresult, rfl⟩

end

/-! ## Triples -/

/-- After a history in `P`, the script ends in a history of `Q` or fails in one of `E`. -/
def Triple (P : List (Exchange ι ρ) → Prop) (s : Script ι ρ ε α)
    (Q : α → List (Exchange ι ρ) → Prop) (E : ε → List (Exchange ι ρ) → Prop) : Prop :=
  ∀ before trace outcome, P before → Traces s trace outcome →
    match outcome with
    | .ok a => Q a (before ++ trace)
    | .error e => E e (before ++ trace)

section
variable {P P' : List (Exchange ι ρ) → Prop} {Q Q' : α → List (Exchange ι ρ) → Prop}
  {E E' : ε → List (Exchange ι ρ) → Prop} {s : Script ι ρ ε α}

theorem Triple.done {a : α} (h : ∀ before, P before → Q a before) :
    Triple P (.done a : Script ι ρ ε α) Q E := by
  intro before trace outcome hbefore htrace
  cases htrace
  simpa using h before hbefore

theorem Triple.fail {e : ε} (h : ∀ before, P before → E e before) :
    Triple P (.fail e : Script ι ρ ε α) Q E := by
  intro before trace outcome hbefore htrace
  cases htrace
  simpa using h before hbefore

theorem Triple.request {i : ι} {Q : ρ i → List (Exchange ι ρ) → Prop}
    (h : ∀ before answer, P before → Q answer (before ++ [⟨i, answer⟩])) :
    Triple P (Script.request i : Script ι ρ ε (ρ i)) Q E := by
  intro before trace outcome hbefore htrace
  cases htrace with
  | ask answer htrace =>
    cases htrace
    exact h before answer hbefore

theorem Triple.lift {outcome : Except ε α}
    (hok : ∀ a before, outcome = .ok a → P before → Q a before)
    (herror : ∀ e before, outcome = .error e → P before → E e before) :
    Triple P (Script.lift outcome : Script ι ρ ε α) Q E := by
  cases outcome with
  | ok a => exact .done fun before => hok a before rfl
  | error e => exact .fail fun before => herror e before rfl

theorem Triple.ensure {p : Prop} [Decidable p] {e : ε} {Q : PUnit → List (Exchange ι ρ) → Prop}
    (hok : ∀ before, p → P before → Q ⟨⟩ before) (herror : ∀ before, ¬p → P before → E e before) :
    Triple P (Script.ensure p e : Script ι ρ ε PUnit) Q E := by
  unfold Script.ensure
  split
  · next hp => exact .done fun before => hok before hp
  · next hp => exact .fail fun before => herror before hp

/-- The second part starts where the first one ended. -/
theorem Triple.bind {R : β → List (Exchange ι ρ) → Prop} {f : α → Script ι ρ ε β}
    (hs : Triple P s Q E) (hf : ∀ a, Triple (Q a) (f a) R E) : Triple P (s >>= f) R E := by
  intro before trace outcome hbefore htrace
  rcases traces_bind htrace with ⟨first, rest, a, rfl, hfirst, hrest⟩ | ⟨e, hfail, rfl⟩
  · rw [← List.append_assoc]
    exact hf a _ _ _ (hs _ _ _ hbefore hfirst) hrest
  · exact hs _ _ _ hbefore hfail

/-- An attempt does not fail. -/
theorem Triple.attempt {R : Except ε α → List (Exchange ι ρ) → Prop}
    (hs : Triple P s (fun a => R (.ok a)) (fun e => R (.error e))) : Triple P s.attempt R E := by
  intro before trace outcome hbefore htrace
  obtain ⟨result, hresult, rfl⟩ := traces_attempt htrace
  have h := hs before trace result hbefore hresult
  cases result with
  | ok a => exact h
  | error e => exact h

/-- A stronger precondition and weaker postconditions. -/
theorem Triple.adapt (hs : Triple P s Q E) (hP : ∀ before, P' before → P before)
    (hQ : ∀ a after, Q a after → Q' a after) (hE : ∀ e after, E e after → E' e after) :
    Triple P' s Q' E' := by
  intro before trace outcome hbefore htrace
  have h := hs before trace outcome (hP before hbefore) htrace
  cases outcome with
  | ok a => exact hQ a _ h
  | error e => exact hE e _ h

/-- A fact that a history cannot lose is kept. -/
theorem Triple.frame {R : List (Exchange ι ρ) → Prop} (hs : Triple P s Q E)
    (hR : ∀ before trace, R before → R (before ++ trace)) :
    Triple (fun h => P h ∧ R h) s (fun a h => Q a h ∧ R h) (fun e h => E e h ∧ R h) := by
  intro before trace outcome hbefore htrace
  have h := hs before trace outcome hbefore.1 htrace
  cases outcome with
  | ok a => exact ⟨h, hR before trace hbefore.2⟩
  | error e => exact ⟨h, hR before trace hbefore.2⟩

/-- A fact that is not about the history. -/
theorem Triple.fact {p : Prop} (hs : p → Triple P s Q E) :
    Triple (fun h => P h ∧ p) s Q E :=
  fun before trace outcome hbefore => hs hbefore.2 before trace outcome hbefore.1

/-- A precondition that holds of something. -/
theorem Triple.exists {γ : Type u} {P : γ → List (Exchange ι ρ) → Prop}
    (hs : ∀ x, Triple (P x) s Q E) : Triple (fun h => ∃ x, P x h) s Q E :=
  fun before trace outcome ⟨x, hx⟩ => hs x before trace outcome hx

/-- What a triple from the empty history says of a trace that ends with a value. -/
theorem Triple.of_ok (hs : Triple (· = []) s Q E) {trace : List (Exchange ι ρ)} {a : α}
    (h : Traces s trace (.ok a)) : Q a trace :=
  hs [] trace (.ok a) rfl h

/-- What it says of a trace that ends with an error. -/
theorem Triple.of_error (hs : Triple (· = []) s Q E) {trace : List (Exchange ι ρ)} {e : ε}
    (h : Traces s trace (.error e)) : E e trace :=
  hs [] trace (.error e) rfl h

end

end Script
