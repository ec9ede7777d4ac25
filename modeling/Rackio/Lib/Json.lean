import Rackio.Lib.Table
import Rackio.Lib.Mirror

/-!
# Records as JSON documents

A `Json φ` is a document whose numbers are integers, or literals of a type `φ` with a fraction or an
exponent. A `Serde φ α` is the pair of functions that a derived serializer has for the type `α`,
with the values that survive being written and read (`Storable`) and the proof that they do.

Values are put together as the types are: `Serde.list`, `Serde.option`, `Serde.map`, and `Serde.via`
for a type that is stored as another one. A record is an object with one member for each field,
which `Members` lists: `Members.field` for a required one, `Members.fieldOr` for one with a default.
`Serde.record` puts the members together when no name stands twice.
-/

/-- A JSON document. -/
inductive Json (φ : Type)
  | null
  | bool (value : Bool)
  | int (value : Int)
  | float (literal : φ)
  | str (value : String)
  | arr (items : List (Json φ))
  | obj (members : List (String × Json φ))

namespace Json

variable {φ α : Type}

/-- The members of an object. -/
def asObj : Json φ → Except String (List (String × Json φ))
  | .obj members => .ok members
  | _ => .error "invalid type, expected a map"

/-- The member of a name, which may stand there once. -/
def member (name : String) (members : List (String × Json φ)) :
    Except String (Option (Json φ)) :=
  match members.filter (·.1 = name) with
  | [] => .ok none
  | [(_, doc)] => .ok (some doc)
  | _ => .error ("duplicate field " ++ name)

/-- A required field of a record. -/
def field (de : Json φ → Except String α) (name : String) (members : List (String × Json φ)) :
    Except String α := do
  match ← member name members with
  | some doc => de doc
  | none => .error ("missing field " ++ name)

/-- A field of a record that has a default. -/
def fieldOr (de : Json φ → Except String α) (absent : α) (name : String)
    (members : List (String × Json φ)) : Except String α := do
  match ← member name members with
  | some doc => de doc
  | none => .ok absent

/-- A field that stands once is decoded. -/
theorem field_of_filter {de : Json φ → Except String α} {name : String}
    {members : List (String × Json φ)} {doc : Json φ}
    (h : members.filter (·.1 = name) = [(name, doc)]) : field de name members = de doc := by
  simp [field, member, h, bind, Except.bind]

/-- A field that stands once is decoded, whatever its default. -/
theorem fieldOr_of_filter {de : Json φ → Except String α} {absent : α} {name : String}
    {members : List (String × Json φ)} {doc : Json φ}
    (h : members.filter (·.1 = name) = [(name, doc)]) :
    fieldOr de absent name members = de doc := by
  simp [fieldOr, member, h, bind, Except.bind]

/-! ## Documents read without a type -/

/-- A member of an object. -/
def get (name : String) : Json φ → Option (Json φ)
  | .obj members => members.lookup name
  | _ => none

/-- The text of a document that is one. -/
def asStr : Json φ → Option String
  | .str s => some s
  | _ => none

/-- The number of a document that is an unsigned integer of 64 bits. -/
def asU64 : Json φ → Option UInt64
  | .int n => if 0 ≤ n ∧ n < 2 ^ 64 then some (.ofNat n.toNat) else none
  | _ => none

/-- The number of a document that is one; `ofInt` makes a literal of an integer. -/
def asF64 (ofInt : Int → φ) : Json φ → Option φ
  | .float literal => some literal
  | .int n => some (ofInt n)
  | _ => none

/-- The items of a document that is an array. -/
def asArray : Json φ → Option (List (Json φ))
  | .arr items => some items
  | _ => none

/-- Whether the document is `null`. -/
def isNull : Json φ → Bool
  | .null => true
  | _ => false

/-- A value that may be absent, which is written as `null`. -/
def ofOption : Option (Json φ) → Json φ
  | none => .null
  | some doc => doc

end Json

/-- The serializer and the deserializer of a type. -/
structure Serde (φ α : Type) where
  ser : α → Json φ
  de : Json φ → Except String α
  /-- The values that come back as they were. -/
  Storable : α → Prop
  de_ser : ∀ a, Storable a → de (ser a) = .ok a

namespace Serde

variable {φ α β ν : Type}

/-- A value that comes back as it was, and is not written as `null`. -/
def Present (c : Serde φ α) (a : α) : Prop := c.Storable a ∧ c.ser a ≠ .null

/-- Booleans. -/
def bool : Serde φ Bool where
  ser := .bool
  de
    | .bool b => .ok b
    | _ => .error "invalid type, expected a boolean"
  Storable _ := True
  de_ser _ _ := rfl

/-- Texts. -/
def str : Serde φ String where
  ser := .str
  de
    | .str s => .ok s
    | _ => .error "invalid type, expected a string"
  Storable _ := True
  de_ser _ _ := rfl

/-- Integers from `lo` to `hi`. -/
def int (lo hi : Int) : Serde φ Int where
  ser := .int
  de
    | .int n => if lo ≤ n ∧ n ≤ hi then .ok n else .error "invalid value, expected an integer"
    | _ => .error "invalid type, expected an integer"
  Storable n := lo ≤ n ∧ n ≤ hi
  de_ser _ h := if_pos h

/-- A type whose values are stored as values of another one. -/
def via (c : Serde φ α) (into : β → α) (of : α → Except String β) (Storable : β → Prop)
    (h : ∀ b, Storable b → c.Storable (into b) ∧ of (into b) = .ok b) : Serde φ β where
  ser b := c.ser (into b)
  de doc := c.de doc >>= of
  Storable := Storable
  de_ser b hb := by
    obtain ⟨hinto, hof⟩ := h b hb
    rw [c.de_ser _ hinto]
    exact hof

/-- The reading of an optional value. -/
def deOption (de : Json φ → Except String α) : Json φ → Except String (Option α)
  | .null => .ok none
  | doc => some <$> de doc

theorem deOption_of_ne_null {de : Json φ → Except String α} {doc : Json φ} (h : doc ≠ .null) :
    deOption de doc = some <$> de doc := by
  cases doc with
  | null => exact absurd rfl h
  | bool | int | float | str | arr | obj => rfl

/-- An optional value, `null` when there is none. -/
def option (c : Serde φ α) : Serde φ (Option α) where
  ser
    | none => .null
    | some a => c.ser a
  de := deOption c.de
  Storable o := ∀ a ∈ o, c.Present a
  de_ser o h := by
    cases o with
    | none => rfl
    | some a =>
      obtain ⟨ha, hnull⟩ := h a rfl
      rw [deOption_of_ne_null hnull, c.de_ser a ha]
      rfl

/-- Every item of an array is decoded. -/
def deItems (de : Json φ → Except String α) : List (Json φ) → Except String (List α)
  | [] => .ok []
  | doc :: docs => do
    let a ← de doc
    let as ← deItems de docs
    return a :: as

theorem deItems_map {c : Serde φ α} {as : List α} (h : ∀ a ∈ as, c.Storable a) :
    deItems c.de (as.map c.ser) = .ok as := by
  induction as with
  | nil => rfl
  | cons a as ih =>
    have ha : c.Storable a := h a (.head _)
    have has : ∀ a ∈ as, c.Storable a := fun a ha => h a (.tail _ ha)
    rw [List.map_cons, deItems, c.de_ser a ha, ih has]
    rfl

/-- Lists. -/
def list (c : Serde φ α) : Serde φ (List α) where
  ser as := .arr (as.map c.ser)
  de
    | .arr docs => deItems c.de docs
    | _ => .error "invalid type, expected a sequence"
  Storable as := ∀ a ∈ as, c.Storable a
  de_ser _ h := deItems_map h

/-- Every member of an object is put into a table. -/
def deRows (de : Json φ → Except String ν) (t : Table String ν) :
    List (String × Json φ) → Except String (Table String ν)
  | [] => .ok t
  | (k, doc) :: members => do
    let v ← de doc
    deRows de (t.insert k v) members

/-- The rows of a table are read back one after the other. -/
theorem deRows_map {c : Serde φ ν} {t t' : Table String ν} {rest : List (String × ν)}
    (hrows : t'.rows = t.rows ++ rest) (h : ∀ row ∈ rest, c.Storable row.2) :
    deRows c.de t (rest.map fun row => (row.1, c.ser row.2)) = .ok t' := by
  induction rest generalizing t with
  | nil =>
    rw [List.append_nil] at hrows
    rw [List.map_nil, deRows, Table.ext hrows]
  | cons row rest ih =>
    obtain ⟨k, v⟩ := row
    have hv : c.Storable v := h (k, v) (.head _)
    have hrest : ∀ row ∈ rest, c.Storable row.2 := fun row hrow => h row (.tail _ hrow)
    have hlast : ∀ r ∈ t.rows, r.1 < k := by
      have hsorted := t'.sorted
      rw [hrows] at hsorted
      exact fun r hr => (List.pairwise_append.1 hsorted).2.2 r hr (k, v) (.head _)
    rw [List.map_cons, deRows, c.de_ser v hv]
    refine ih (t := t.insert k v) ?_ hrest
    rw [Table.rows_insert_of_lt hlast, List.append_assoc, hrows]
    rfl

/-- Tables by text, as objects. -/
def map (c : Serde φ ν) : Serde φ (Table String ν) where
  ser t := .obj (t.rows.map fun row => (row.1, c.ser row.2))
  de
    | .obj members => deRows c.de .empty members
    | _ => .error "invalid type, expected a map"
  Storable t := ∀ k v, t.find k = some v → c.Storable v
  de_ser _ h := deRows_map rfl fun row hrow => h row.1 row.2 (Table.mem_rows_iff.1 hrow)

end Serde

/-! ## Records -/

/-- The members of an object that a record is written as. The value is the tuple of the fields. -/
structure Members (φ α : Type) where
  names : List String
  put : α → List (String × Json φ)
  get : List (String × Json φ) → Except String α
  Storable : α → Prop
  names_put : ∀ a, (put a).map (·.1) = names
  /-- The fields are read from every object that agrees with the written one on their names. -/
  get_put : names.Nodup → ∀ a members, Storable a →
    (∀ name ∈ names, members.filter (·.1 = name) = (put a).filter (·.1 = name)) →
      get members = .ok a

namespace Members

variable {φ α β : Type}

/-- No more fields. -/
def nil : Members φ Unit where
  names := []
  put _ := []
  get _ := .ok ()
  Storable _ := True
  names_put _ := rfl
  get_put _ _ _ _ _ := rfl

/-- What a list of members with other names has under a name. -/
theorem filter_put (m : Members φ α) (a : α) {name : String} (h : name ∉ m.names) :
    (m.put a).filter (·.1 = name) = [] := by
  refine List.filter_eq_nil_iff.2 fun member hmember => ?_
  have hmem : member.1 ∈ m.names := by
    rw [← m.names_put a]
    exact List.mem_map_of_mem hmember
  intro heq
  rw [decide_eq_true_eq] at heq
  exact h (heq ▸ hmem)

/-- The members before `rest` begin with one of the name. -/
theorem filter_cons_put (rest : Members φ β) (b : β) {name : String} (doc : Json φ)
    (h : name ∉ rest.names) :
    ((name, doc) :: rest.put b).filter (·.1 = name) = [(name, doc)] := by
  simp [rest.filter_put b h]

/-- A field that `decode` reads, before the others. -/
def cons (name : String) (c : Serde φ α)
    (decode : List (String × Json φ) → Except String α)
    (hdecode : ∀ members doc, members.filter (·.1 = name) = [(name, doc)] →
      decode members = c.de doc)
    (rest : Members φ β) : Members φ (α × β) where
  names := name :: rest.names
  put v := (name, c.ser v.1) :: rest.put v.2
  get members := do
    let a ← decode members
    let b ← rest.get members
    return (a, b)
  Storable v := c.Storable v.1 ∧ rest.Storable v.2
  names_put v := by rw [List.map_cons, rest.names_put]
  get_put hnodup v members hv hmembers := by
    obtain ⟨hname, hrest⟩ := List.nodup_cons.1 hnodup
    have hfirst : decode members = .ok v.1 := by
      rw [hdecode members (c.ser v.1), c.de_ser v.1 hv.1]
      rw [hmembers name (.head _), rest.filter_cons_put v.2 _ hname]
    have hothers : rest.get members = .ok v.2 := by
      refine rest.get_put hrest v.2 members hv.2 fun other hother => ?_
      have hne : name ≠ other := fun heq => hname (heq ▸ hother)
      rw [hmembers other (.tail _ hother), List.filter_cons_of_neg (by simpa using hne)]
    rw [hfirst, hothers]
    rfl

/-- A required field, before the others. -/
def field (name : String) (c : Serde φ α) (rest : Members φ β) : Members φ (α × β) :=
  cons name c (Json.field c.de name) (fun _ _ h => Json.field_of_filter h) rest

/-- A field that is `absent` when it is missing, before the others. -/
def fieldOr (name : String) (c : Serde φ α) (absent : α) (rest : Members φ β) :
    Members φ (α × β) :=
  cons name c (Json.fieldOr c.de absent name) (fun _ _ h => Json.fieldOr_of_filter h) rest

/-- A field that may be missing, before the others. -/
def optional (name : String) (c : Serde φ α) (rest : Members φ β) : Members φ (Option α × β) :=
  fieldOr name c.option none rest

section
variable {name : String} {c : Serde φ α} {absent : α} {rest : Members φ β} {a : α} {o : Option α}
  {b : β}

@[simp] theorem names_nil : (nil : Members φ Unit).names = [] := by
  rw [nil]

@[simp] theorem names_field : (field name c rest).names = name :: rest.names := by
  rw [field, cons]

@[simp] theorem names_fieldOr : (fieldOr name c absent rest).names = name :: rest.names := by
  rw [fieldOr, cons]

@[simp] theorem names_optional : (optional name c rest).names = name :: rest.names := by
  rw [optional, names_fieldOr]

@[simp] theorem storable_nil {u : Unit} : (nil : Members φ Unit).Storable u := trivial

@[simp] theorem storable_field :
    (field name c rest).Storable (a, b) ↔ c.Storable a ∧ rest.Storable b := .rfl

@[simp] theorem storable_fieldOr :
    (fieldOr name c absent rest).Storable (a, b) ↔ c.Storable a ∧ rest.Storable b := .rfl

@[simp] theorem storable_optional :
    (optional name c rest).Storable (o, b) ↔ (∀ a ∈ o, c.Present a) ∧ rest.Storable b := .rfl

end

end Members

/-- A record, as the tuple of its fields. -/
def Serde.record {φ α β : Type} (m : Members φ α) (hnodup : m.names.Nodup) (into : β → α)
    (of : α → β) (h : ∀ b, of (into b) = b) : Serde φ β where
  ser b := .obj (m.put (into b))
  de doc := do
    let members ← doc.asObj
    let fields ← m.get members
    return of fields
  Storable b := m.Storable (into b)
  de_ser b hb := by
    have hget := m.get_put hnodup (into b) (m.put (into b)) hb fun _ _ => rfl
    show (m.get (m.put (into b)) >>= fun fields => pure (of fields)) = _
    rw [hget]
    exact congrArg Except.ok (h b)

namespace Serde

variable {φ α β ν : Type}

/-! ## What comes back -/

@[simp] theorem storable_bool {b : Bool} : (bool : Serde φ Bool).Storable b := trivial

@[simp] theorem storable_str {s : String} : (str : Serde φ String).Storable s := trivial

@[simp] theorem storable_int {lo hi n : Int} :
    (int lo hi : Serde φ Int).Storable n ↔ lo ≤ n ∧ n ≤ hi := .rfl

@[simp] theorem storable_option {c : Serde φ α} {o : Option α} :
    c.option.Storable o ↔ ∀ a ∈ o, c.Present a := .rfl

@[simp] theorem storable_list {c : Serde φ α} {as : List α} :
    c.list.Storable as ↔ ∀ a ∈ as, c.Storable a := .rfl

@[simp] theorem storable_map {c : Serde φ ν} {t : Table String ν} :
    c.map.Storable t ↔ ∀ k v, t.find k = some v → c.Storable v := .rfl

@[simp] theorem storable_record {m : Members φ α} {hnodup : m.names.Nodup} {into : β → α}
    {of : α → β} {h : ∀ b, of (into b) = b} {b : β} :
    (record m hnodup into of h).Storable b ↔ m.Storable (into b) := .rfl

/-- A record is never written as `null`. -/
@[simp] theorem present_record {m : Members φ α} {hnodup : m.names.Nodup} {into : β → α}
    {of : α → β} {h : ∀ b, of (into b) = b} {b : β} :
    (record m hnodup into of h).Present b ↔ m.Storable (into b) := by
  refine ⟨And.left, fun hb => ⟨hb, ?_⟩⟩
  intro hnull
  cases hnull

@[simp] theorem present_str {s : String} : (str : Serde φ String).Present s := by
  refine ⟨trivial, ?_⟩
  intro hnull
  cases hnull

@[simp] theorem present_int {lo hi n : Int} :
    (int lo hi : Serde φ Int).Present n ↔ lo ≤ n ∧ n ≤ hi := by
  refine ⟨And.left, fun hn => ⟨hn, ?_⟩⟩
  intro hnull
  cases hnull

end Serde

/-! ## Files -/

/-- The text of documents, as the content of a file. -/
structure JsonText (φ δ : Type) where
  print : Json φ → δ
  parse : δ → Except String (Json φ)
  parse_print : ∀ doc, parse (print doc) = .ok doc

namespace Serde

variable {φ α δ ε : Type}

/-- A file that holds one value. -/
def serializer (c : Serde φ α) (text : JsonText φ δ) : Serializer α δ where
  toContent a := .ok (text.print (c.ser a))
  ofContent content := text.parse content >>= c.de

/-- A value that comes back from its document comes back from its file. -/
theorem readsBack (c : Serde φ α) (text : JsonText φ δ) {blank : α}
    {ioError formatError : String → ε} {a : α} (h : c.Storable a) :
    (FileFormat.of (c.serializer text) blank ioError formatError).ReadsBack a := by
  intro content hcontent
  cases hcontent
  have hread : (c.serializer text).ofContent (text.print (c.ser a)) = .ok a := by
    show (text.parse (text.print (c.ser a)) >>= c.de) = _
    rw [text.parse_print]
    exact c.de_ser a h
  show errorAs formatError ((c.serializer text).ofContent (text.print (c.ser a))) = _
  rw [hread]
  rfl

end Serde
