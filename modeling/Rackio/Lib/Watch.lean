import Rackio.Lib.Run

/-!
# Readers of a watch channel

A *watch channel* holds the last value sent on it and counts the values sent. A receiver remembers
the count it was last notified of, so it learns that there is something new, and never how much it
has missed. A *reader* looks at the channel once when it starts and then once after every
notification; between a notification and the look that follows it, more values may be sent. It may
also peek at the channel while it waits.

`Reader.Ordered` is what holds of the looks of a reader in every run: they never go back, and no
value is taken twice after a notification alone, so that none is taken more than twice
(`ordered_of_run`). `Reader.Ordered.current` says that a reader that waits with nothing new has
taken the last value.
-/

namespace Watch

universe u v

/-! ## Channels -/

/-- A watch channel: the last value, how many were sent, and whether the sender is gone. -/
structure Channel (α : Type u) where
  value : α
  version : Nat
  closed : Bool

/-- What a receiver finds when it asks for a change. -/
inductive Change
  | pending
  | changed (version : Nat)
  | closed
  deriving DecidableEq, Repr

namespace Channel

variable {α : Type u}

/-- A channel on which nothing was sent yet. -/
def new (value : α) : Channel α := ⟨value, 0, false⟩

/-- A value takes the place of the last one. -/
def send (c : Channel α) (value : α) : Channel α := { c with value, version := c.version + 1 }

/-- The sender is dropped. -/
def drop (c : Channel α) : Channel α := { c with closed := true }

/-- What a receiver that has seen `seen` is told: a change goes before the end of the channel. -/
def change (c : Channel α) (seen : Nat) : Change :=
  if c.version ≠ seen then .changed c.version else if c.closed then .closed else .pending

variable {c : Channel α} {seen version : Nat}

/-- A change is one to the current version, which was not seen. -/
theorem change_eq_changed_iff :
    c.change seen = .changed version ↔ c.version ≠ seen ∧ c.version = version := by
  unfold change
  split
  · next hne => simp [hne]
  · next heq =>
    rw [not_ne_iff] at heq
    cases c.closed <;> simp [heq]

/-- A receiver learns that the channel is closed only once it has seen the last version. -/
theorem change_eq_closed_iff : c.change seen = .closed ↔ c.version = seen ∧ c.closed = true := by
  unfold change
  split
  · next hne => simp [hne]
  · next heq =>
    rw [not_ne_iff] at heq
    cases c.closed <;> simp [heq]

end Channel

/-! ## Readers -/

/-- Where a reader is. -/
inductive Stage
  /-- It has not looked yet. -/
  | opening
  /-- It waits for a change. -/
  | waiting
  /-- It was notified of a change and has not looked yet. -/
  | notified
  /-- It has found the channel closed. -/
  | ended
  /-- It has given up. -/
  | failed
  deriving DecidableEq, Repr

/-- A look at the channel, with the version found: a value taken, or a peek with a remark. -/
inductive Look (δ : Type v)
  | take (version : Nat)
  | peek (version : Nat) (remark : δ)
  deriving DecidableEq, Repr

/-- The version a look finds. -/
def Look.version {δ : Type v} : Look δ → Nat
  | .take version => version
  | .peek version _ => version

/-- The version of a value that was taken. -/
def Look.taken {δ : Type v} : Look δ → Option Nat
  | .take version => some version
  | .peek _ _ => none

/-- A reader and the version of its channel. -/
structure Reader (δ : Type v) where
  version : Nat
  seen : Nat
  stage : Stage
  /-- Its looks so far, in order. -/
  looks : List (Look δ)

namespace Reader

variable {δ : Type v}

/-- The versions of the values taken, in order. -/
def taken (r : Reader δ) : List Nat := r.looks.filterMap Look.taken

/-- A reader that starts on a channel at `version`, with a receiver that has seen `seen`. -/
def start (version seen : Nat) : Reader δ := ⟨version, seen, .opening, []⟩

/-- What happens to a reader. -/
inductive Event (δ : Type v)
  /-- A value is sent. -/
  | send
  | «open»
  /-- The reader is notified. -/
  | wake
  | take
  | peek (remark : δ)
  | finish
  | fail

/-- The steps of a reader; whether the channel is closed is left open. -/
inductive Step (r : Reader δ) : Event δ → Reader δ → Prop
  | send : Step r .send { r with version := r.version + 1 }
  | «open» (hstage : r.stage = .opening) :
      Step r .open { r with stage := .waiting, looks := r.looks ++ [.take r.version] }
  | wake (hstage : r.stage = .waiting) (hnew : r.version ≠ r.seen) :
      Step r .wake { r with stage := .notified, seen := r.version }
  | take (hstage : r.stage = .notified) :
      Step r .take { r with stage := .waiting, looks := r.looks ++ [.take r.version] }
  | peek (remark : δ) (hstage : r.stage = .waiting) :
      Step r (.peek remark) { r with looks := r.looks ++ [.peek r.version remark] }
  | finish (hstage : r.stage = .waiting) (hseen : r.version = r.seen) :
      Step r .finish { r with stage := .ended }
  | fail : Step r .fail { r with stage := .failed }

/-- What holds of a reader in every run. -/
structure Ordered (r : Reader δ) : Prop where
  seen : r.seen ≤ r.version
  /-- Looks never go back. -/
  sorted : (r.looks.map Look.version).Pairwise (· ≤ ·)
  bound : ∀ look ∈ r.looks, look.version ≤ r.version
  /-- No value is taken more than twice. -/
  twice : ∀ v, r.taken.count v ≤ 2
  opening : r.stage = .opening → r.looks = []
  /-- A reader that waits has taken a value at least as new as what it was notified of, and one that
  is newer only once. -/
  waiting : r.stage = .waiting → (∃ v, r.taken.getLast? = some v ∧ r.seen ≤ v) ∧
    ∀ v, r.seen < v → r.taken.count v ≤ 1
  /-- A reader that was notified has taken nothing newer. -/
  notified : r.stage = .notified → (∀ look ∈ r.looks, look.version ≤ r.seen) ∧
    ∀ v, r.seen ≤ v → r.taken.count v ≤ 1
  /-- A reader that has ended has taken the last value before the end. -/
  ended : r.stage = .ended → r.taken.getLast? = some r.seen

section
variable {r r' : Reader δ} {e : Event δ} {es : List (Event δ)} {v : Nat}

/-- A value that is taken comes last. -/
theorem taken_append_take (looks : List (Look δ)) (version : Nat) :
    (looks ++ [Look.take version]).filterMap Look.taken =
      looks.filterMap Look.taken ++ [version] := by
  rw [List.filterMap_append]
  rfl

/-- A peek takes nothing. -/
theorem taken_append_peek (looks : List (Look δ)) (version : Nat) (remark : δ) :
    (looks ++ [Look.peek version remark]).filterMap Look.taken = looks.filterMap Look.taken := by
  rw [List.filterMap_append]
  exact List.append_nil _

/-- A value that was taken was looked at. -/
theorem mem_looks_of_mem_taken (h : v ∈ r.taken) : ∃ look ∈ r.looks, look.version = v := by
  obtain ⟨look, hlook, hv⟩ := List.mem_filterMap.1 h
  cases look with
  | take version => cases hv; exact ⟨_, hlook, rfl⟩
  | peek version remark => cases hv

/-- A look at the current version keeps the looks in order. -/
theorem Ordered.sorted_append (h : r.Ordered) {look : Look δ} (hlook : look.version = r.version) :
    ((r.looks ++ [look]).map Look.version).Pairwise (· ≤ ·) := by
  rw [List.map_append, List.pairwise_append]
  refine ⟨h.sorted, List.pairwise_singleton _ _, fun a ha b hb => ?_⟩
  obtain ⟨earlier, hearlier, rfl⟩ := List.mem_map.1 ha
  rw [List.map_singleton, List.mem_singleton] at hb
  rw [hb, hlook]
  exact h.bound earlier hearlier

/-- A look at the current version is not beyond it. -/
theorem Ordered.bound_append (h : r.Ordered) {look : Look δ} (hlook : look.version = r.version) :
    ∀ l ∈ r.looks ++ [look], l.version ≤ r.version := by
  intro l hl
  rcases List.mem_append.1 hl with hl | hl
  · exact h.bound l hl
  · exact Nat.le_of_eq (List.mem_singleton.1 hl ▸ hlook)

/-- A reader that was notified has taken nothing beyond what it was notified of. -/
theorem Ordered.count_eq_zero_of_notified (h : r.Ordered) (hstage : r.stage = .notified)
    (hv : r.seen < v) : r.taken.count v = 0 := by
  rw [List.count_eq_zero]
  intro hmem
  obtain ⟨look, hlook, rfl⟩ := mem_looks_of_mem_taken hmem
  exact absurd ((h.notified hstage).1 look hlook) (by omega)

/-- One more value taken counts for its version only. -/
theorem count_append_take (vs : List Nat) (w v : Nat) :
    (vs ++ [w]).count v = vs.count v + if w = v then 1 else 0 := by
  rw [List.count_append, List.count_singleton]
  simp only [beq_iff_eq]

/-- The first look. -/
theorem Ordered.open (h : r.Ordered) (hstage : r.stage = .opening) :
    Ordered { r with stage := .waiting, looks := r.looks ++ [.take r.version] } := by
  have hcount : ∀ v, ((r.looks ++ [Look.take r.version]).filterMap Look.taken).count v ≤ 1 := by
    intro v
    rw [taken_append_take, count_append_take, h.opening hstage]
    rw [List.filterMap_nil, List.count_nil]
    split <;> omega
  refine ⟨h.seen, h.sorted_append rfl, h.bound_append rfl, fun v => Nat.le_succ_of_le (hcount v),
    nofun, fun _ => ⟨⟨r.version, ?_, h.seen⟩, fun v _ => hcount v⟩, nofun, nofun⟩
  rw [taken, taken_append_take, List.getLast?_append]
  rfl

/-- A notification. -/
theorem Ordered.wake (h : r.Ordered) (hstage : r.stage = .waiting) (hnew : r.version ≠ r.seen) :
    Ordered { r with stage := .notified, seen := r.version } := by
  have hlt : r.seen < r.version := Nat.lt_of_le_of_ne h.seen (Ne.symm hnew)
  refine ⟨Nat.le_refl _, h.sorted, h.bound, h.twice, nofun, nofun,
    fun _ => ⟨h.bound, fun v hv => ?_⟩, nofun⟩
  exact (h.waiting hstage).2 v (Nat.lt_of_lt_of_le hlt hv)

/-- The look after a notification. -/
theorem Ordered.take (h : r.Ordered) (hstage : r.stage = .notified) :
    Ordered { r with stage := .waiting, looks := r.looks ++ [.take r.version] } := by
  have hcount : ∀ v, ((r.looks ++ [Look.take r.version]).filterMap Look.taken).count v =
      r.taken.count v + if r.version = v then 1 else 0 := fun v => by
    rw [taken_append_take, count_append_take]
    rfl
  have honce := (h.notified hstage).2
  have hseen := h.seen
  refine ⟨h.seen, h.sorted_append rfl, h.bound_append rfl, fun v => ?_, nofun,
    fun _ => ⟨⟨r.version, ?_, h.seen⟩, fun v hv => ?_⟩, nofun, nofun⟩
  · have htwice := h.twice v
    rw [taken, hcount]
    split
    · next heq =>
      have := honce v (heq ▸ hseen)
      omega
    · omega
  · rw [taken, taken_append_take, List.getLast?_append]
    rfl
  · have hzero := h.count_eq_zero_of_notified hstage hv
    rw [taken, hcount, hzero]
    split <;> omega

/-- A peek changes nothing but the looks. -/
theorem Ordered.peek (h : r.Ordered) (hstage : r.stage = .waiting) (remark : δ) :
    Ordered { r with looks := r.looks ++ [.peek r.version remark] } := by
  have htaken : taken { r with looks := r.looks ++ [.peek r.version remark] } = r.taken :=
    taken_append_peek ..
  refine ⟨h.seen, h.sorted_append rfl, h.bound_append rfl, fun v => ?_, fun hs => ?_, fun hs => ?_,
    fun hs => ?_, fun hs => ?_⟩
  · rw [htaken]
    exact h.twice v
  · exact absurd (hs.symm.trans hstage) (by decide)
  · rw [htaken]
    exact h.waiting hstage
  · exact absurd (hs.symm.trans hstage) (by decide)
  · exact absurd (hs.symm.trans hstage) (by decide)

/-- A reader that waits with nothing new has taken the last value. -/
theorem Ordered.current (h : r.Ordered) (hstage : r.stage = .waiting)
    (hseen : r.version = r.seen) : r.taken.getLast? = some r.version := by
  obtain ⟨v, hlast, hle⟩ := (h.waiting hstage).1
  obtain ⟨look, hlook, rfl⟩ := mem_looks_of_mem_taken (List.mem_of_getLast? hlast)
  have heq : look.version = r.version := Nat.le_antisymm (h.bound look hlook) (hseen ▸ hle)
  rw [hlast, heq]

/-- One step keeps the looks in order. -/
theorem Ordered.step (h : r.Ordered) (hstep : Step r e r') : r'.Ordered := by
  cases hstep with
  | send =>
    exact ⟨Nat.le_succ_of_le h.seen, h.sorted, fun l hl => Nat.le_succ_of_le (h.bound l hl),
      h.twice, h.opening, h.waiting, h.notified, h.ended⟩
  | «open» hstage => exact h.open hstage
  | wake hstage hnew => exact h.wake hstage hnew
  | take hstage => exact h.take hstage
  | peek remark hstage => exact h.peek hstage remark
  | finish hstage hseen =>
    have hlast := h.current hstage hseen
    rw [hseen] at hlast
    exact ⟨h.seen, h.sorted, h.bound, h.twice, nofun, nofun, nofun, fun _ => hlast⟩
  | fail => exact ⟨h.seen, h.sorted, h.bound, h.twice, nofun, nofun, nofun, nofun⟩

/-- A reader that has not looked yet. -/
theorem ordered_start {version seen : Nat} (h : seen ≤ version) :
    (start version seen : Reader δ).Ordered :=
  ⟨h, .nil, List.forall_mem_nil _, fun _ => Nat.zero_le _, fun _ => rfl, nofun, nofun, nofun⟩

/-- In every run, whatever is sent in between, the looks of a reader are in order. -/
theorem ordered_of_run {version seen : Nat} (h : seen ≤ version)
    (hrun : Lts.Run Step (start version seen) es r) : r.Ordered :=
  hrun.invariant (ordered_start h) fun _ _ _ hi hstep => hi.step hstep

end

end Reader

end Watch
