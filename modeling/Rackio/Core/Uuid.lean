import Rackio.Core.Model

/-!
# The text of a node id

`Uuid::to_string` writes a node id as its 32 hexadecimal digits with four hyphens between them, on
the wire, in the registries and in the file of the daemon. `Uuid::parse_str` is code of another
crate; `ParsesUuid` is what is asked of it, and `Uuid.ofText_toString` a reader that does it.
-/

namespace Rackio

/-- The hyphenated form of a `Uuid`. -/
def Uuid.toString (u : Uuid) : String :=
  let digits := (List.range 32).map fun i => Nat.digitChar ((u.bits.toNat >>> (4 * (31 - i))) % 16)
  let group (start count : Nat) := String.ofList ((digits.drop start).take count)
  "-".intercalate [group 0 8, group 8 4, group 12 4, group 16 4, group 20 12]

/-- What is asked of `Uuid::parse_str`: it reads the hyphenated form. -/
def ParsesUuid (parse : String → Option Uuid) : Prop := ∀ u : Uuid, parse u.toString = some u

/-! ## Hexadecimal digits -/

/-- The last `width` hexadecimal digits of `n`, most significant first. -/
def hexDigits (width n : Nat) : List Nat :=
  (List.range width).map fun i => (n >>> (4 * (width - 1 - i))) % 16

/-- The number a list of hexadecimal digits spells. -/
def ofHexDigits (digits : List Nat) : Nat := digits.foldl (fun acc d => acc * 16 + d) 0

/-- The digit a character stands for. -/
def hexValue (c : Char) : Option Nat := (List.range 16).find? fun d => Nat.digitChar d = c

@[simp] theorem length_hexDigits (width n : Nat) : (hexDigits width n).length = width := by
  simp [hexDigits]

/-- One digit more is written after the digits of the quotient. -/
theorem hexDigits_succ (width n : Nat) :
    hexDigits (width + 1) n = hexDigits width (n / 16) ++ [n % 16] := by
  simp only [hexDigits, List.range_succ, List.map_append, List.map_cons, List.map_nil]
  congr 1
  · refine List.map_congr_left fun i hi => ?_
    have hlt := List.mem_range.1 hi
    have hshift : width + 1 - 1 - i = (width - 1 - i) + 1 := by omega
    rw [hshift, Nat.mul_succ, Nat.add_comm, Nat.shiftRight_add, Nat.shiftRight_eq_div_pow n 4]
  · simp

/-- Reading digits undoes writing them, up to the width. -/
theorem ofHexDigits_hexDigits (width n : Nat) :
    ofHexDigits (hexDigits width n) = n % 16 ^ width := by
  induction width generalizing n with
  | zero => simp [hexDigits, ofHexDigits, Nat.mod_one]
  | succ width ih =>
    have hfold : ofHexDigits (hexDigits width (n / 16) ++ [n % 16]) =
        ofHexDigits (hexDigits width (n / 16)) * 16 + n % 16 := by simp [ofHexDigits]
    rw [hexDigits_succ, hfold, ih, Nat.pow_succ, Nat.mul_comm (16 ^ width) 16, Nat.mod_mul]
    omega

/-- A digit is the value of its character. -/
theorem hexValue_digitChar {d : Nat} (h : d < 16) : hexValue (Nat.digitChar d) = some d := by
  decide +revert

/-- A digit is written with another character than the hyphen. -/
theorem digitChar_ne_hyphen {d : Nat} (h : d < 16) : Nat.digitChar d ≠ '-' := by
  decide +revert

theorem hexDigits_lt {width n d : Nat} (h : d ∈ hexDigits width n) : d < 16 := by
  obtain ⟨i, -, rfl⟩ := List.mem_map.1 h
  exact Nat.mod_lt _ (by omega)

/-! ## A reader -/

/-- The node id whose 32 digits are in `text`, between hyphens. -/
def Uuid.ofText (text : String) : Option Uuid :=
  match (text.toList.filter (· ≠ '-')).mapM hexValue with
  | some digits => if digits.length = 32 then some ⟨BitVec.ofNat 128 (ofHexDigits digits)⟩ else none
  | none => none

/-- Cutting 32 characters into the five groups loses none of them. -/
theorem groups_flatten {chars : List Char} (h : chars.length = 32) :
    (chars.drop 0).take 8 ++ ((chars.drop 8).take 4 ++ ((chars.drop 12).take 4 ++
      ((chars.drop 16).take 4 ++ (chars.drop 20).take 12))) = chars := by
  have hcut : ∀ start count : Nat,
      (chars.drop start).take count ++ chars.drop (start + count) = chars.drop start := by
    intro start count
    rw [← List.drop_drop, List.take_append_drop]
  rw [List.take_of_length_le (l := chars.drop 20) (by simp [h]), hcut 16, hcut 12, hcut 8, hcut 0]
  rfl

/-- The characters of the text without its hyphens are those of the 32 digits. -/
theorem Uuid.filter_toString (u : Uuid) :
    u.toString.toList.filter (· ≠ '-') = (hexDigits 32 u.bits.toNat).map Nat.digitChar := by
  have hdigits : ((List.range 32).map fun i =>
      Nat.digitChar ((u.bits.toNat >>> (4 * (31 - i))) % 16)) =
        (hexDigits 32 u.bits.toNat).map Nat.digitChar := by
    simp [hexDigits, Function.comp_def]
  have hkeep : ∀ c ∈ (hexDigits 32 u.bits.toNat).map Nat.digitChar, decide (c ≠ '-') = true := by
    intro c hc
    obtain ⟨d, hd, rfl⟩ := List.mem_map.1 hc
    exact decide_eq_true (digitChar_ne_hyphen (hexDigits_lt hd))
  have hlength : ((hexDigits 32 u.bits.toNat).map Nat.digitChar).length = 32 := by simp
  unfold Uuid.toString
  rw [hdigits]
  generalize (hexDigits 32 u.bits.toNat).map Nat.digitChar = chars at hkeep hlength ⊢
  have hgroup : ∀ start count : Nat,
      ((chars.drop start).take count).filter (· ≠ '-') = (chars.drop start).take count := by
    intro start count
    refine List.filter_eq_self.2 fun c hc => hkeep c ?_
    exact List.mem_of_mem_drop (List.mem_of_mem_take hc)
  have hhyphen : "-".toList.filter (· ≠ '-') = [] := by decide
  simp only [String.toList_intercalate, List.map_cons, List.map_nil, String.toList_ofList,
    List.intercalate, List.intersperse, List.flatten_cons, List.flatten_nil, List.filter_append,
    hgroup, hhyphen, List.nil_append, List.append_nil]
  exact groups_flatten hlength

/-- Each character of the digits is read as its digit. -/
theorem mapM_hexValue {digits : List Nat} (h : ∀ d ∈ digits, d < 16) :
    (digits.map Nat.digitChar).mapM hexValue = some digits := by
  induction digits with
  | nil => rfl
  | cons d digits ih =>
    have hd : hexValue (Nat.digitChar d) = some d := hexValue_digitChar (h d (.head _))
    have hrest := ih fun d' hd' => h d' (.tail _ hd')
    simp [hd, hrest]

/-- The hyphenated form is read back. -/
theorem Uuid.ofText_toString : ParsesUuid Uuid.ofText := by
  intro u
  have hlt : u.bits.toNat < 16 ^ 32 := u.bits.isLt
  unfold Uuid.ofText
  rw [Uuid.filter_toString, mapM_hexValue fun d hd => hexDigits_lt hd]
  simp only [length_hexDigits, if_true, ofHexDigits_hexDigits, Nat.mod_eq_of_lt hlt]
  rw [BitVec.ofNat_toNat, BitVec.setWidth_eq]

end Rackio
