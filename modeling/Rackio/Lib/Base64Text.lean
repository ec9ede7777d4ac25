import Mathlib

/-!
# Bytes as a text of 64 symbols

The encoding without padding: three bytes are four digits, and one or two bytes at the end are two
or three digits, of which the last has spare bits. A decoder refuses a text in which these are set,
so that every text it accepts is the encoding of what it decodes to (`encode_of_decode`), and
decoding undoes encoding (`decode_encode`). The 64 symbols are a parameter.
-/

namespace Base64Text

/-! ## Digits -/

/-- A digit is six bits. -/
def digit (n : Nat) : Fin 64 := Fin.ofNat 64 n

/-- The digits of bytes. -/
def digits : List UInt8 → List (Fin 64)
  | [] => []
  | [a] => [digit (a.toNat / 4), digit (a.toNat % 4 * 16)]
  | [a, b] =>
    [digit (a.toNat / 4), digit (a.toNat % 4 * 16 + b.toNat / 16), digit (b.toNat % 16 * 4)]
  | a :: b :: c :: rest =>
    digit (a.toNat / 4) :: digit (a.toNat % 4 * 16 + b.toNat / 16) ::
      digit (b.toNat % 16 * 4 + c.toNat / 64) :: digit (c.toNat % 64) :: digits rest

/-- The byte that starts with a digit. -/
def firstByte (p q : Fin 64) : UInt8 := UInt8.ofNat (p.val * 4 + q.val / 16)

/-- The byte that starts in the middle of a digit. -/
def secondByte (q r : Fin 64) : UInt8 := UInt8.ofNat (q.val % 16 * 16 + r.val / 4)

/-- The byte that ends with a digit. -/
def thirdByte (r s : Fin 64) : UInt8 := UInt8.ofNat (r.val % 4 * 64 + s.val)

/-- The bytes of digits; a single digit at the end is no byte, and spare bits must be zero. -/
def bytes : List (Fin 64) → Option (List UInt8)
  | [] => some []
  | [_] => none
  | [p, q] => if q.val % 16 = 0 then some [firstByte p q] else none
  | [p, q, r] => if r.val % 4 = 0 then some [firstByte p q, secondByte q r] else none
  | p :: q :: r :: s :: rest =>
    (bytes rest).map fun l => firstByte p q :: secondByte q r :: thirdByte r s :: l

@[simp] theorem val_digit (n : Nat) : (digit n).val = n % 64 := rfl

/-- The bytes of a group are read back from its digits. -/
theorem firstByte_digit (a : UInt8) {n : Nat} (h : n < 16) :
    firstByte (digit (a.toNat / 4)) (digit (a.toNat % 4 * 16 + n)) = a := by
  have ha := a.toNat_lt
  rw [← UInt8.toNat_inj, firstByte, UInt8.toNat_ofNat', val_digit, val_digit]
  omega

theorem secondByte_digit (b : UInt8) (m : Nat) {n : Nat} (h : n < 4) :
    secondByte (digit (m * 16 + b.toNat / 16)) (digit (b.toNat % 16 * 4 + n)) = b := by
  have hb := b.toNat_lt
  rw [← UInt8.toNat_inj, secondByte, UInt8.toNat_ofNat', val_digit, val_digit]
  omega

theorem thirdByte_digit (c : UInt8) (m : Nat) :
    thirdByte (digit (m * 4 + c.toNat / 64)) (digit (c.toNat % 64)) = c := by
  have hc := c.toNat_lt
  rw [← UInt8.toNat_inj, thirdByte, UInt8.toNat_ofNat', val_digit, val_digit]
  omega

/-- Reading digits undoes writing them. -/
theorem bytes_digits (l : List UInt8) : bytes (digits l) = some l := by
  induction l using digits.induct with
  | case1 => rfl
  | case2 a =>
    have hspare : (digit (a.toNat % 4 * 16)).val % 16 = 0 := by
      rw [val_digit]
      omega
    rw [digits, bytes, if_pos hspare]
    exact congrArg (fun a => some [a]) (firstByte_digit a (Nat.zero_lt_succ 15))
  | case3 a b =>
    have hb := b.toNat_lt
    have hspare : (digit (b.toNat % 16 * 4)).val % 4 = 0 := by
      rw [val_digit]
      omega
    have hsecond : secondByte (digit (a.toNat % 4 * 16 + b.toNat / 16))
        (digit (b.toNat % 16 * 4)) = b := secondByte_digit b _ (Nat.zero_lt_succ 3)
    rw [digits, bytes, if_pos hspare, firstByte_digit a (by omega), hsecond]
  | case4 a b c rest ih =>
    have hb := b.toNat_lt
    have hc := c.toNat_lt
    rw [digits, bytes, ih, Option.map_some, firstByte_digit a (by omega),
      secondByte_digit b _ (by omega), thirdByte_digit]

/-- The digits of a group are read back from its bytes. -/
theorem digit_firstByte (p q : Fin 64) : digit ((firstByte p q).toNat / 4) = p := by
  rw [← Fin.val_inj, val_digit, firstByte, UInt8.toNat_ofNat']
  omega

theorem digit_secondByte (p q r : Fin 64) :
    digit ((firstByte p q).toNat % 4 * 16 + (secondByte q r).toNat / 16) = q := by
  rw [← Fin.val_inj, val_digit, firstByte, secondByte, UInt8.toNat_ofNat', UInt8.toNat_ofNat']
  omega

theorem digit_thirdByte (q r s : Fin 64) :
    digit ((secondByte q r).toNat % 16 * 4 + (thirdByte r s).toNat / 64) = r := by
  rw [← Fin.val_inj, val_digit, secondByte, thirdByte, UInt8.toNat_ofNat', UInt8.toNat_ofNat']
  omega

theorem digit_lastByte (r s : Fin 64) : digit ((thirdByte r s).toNat % 64) = s := by
  rw [← Fin.val_inj, val_digit, thirdByte, UInt8.toNat_ofNat']
  omega

/-- Writing digits undoes reading them. -/
theorem digits_of_bytes {ds : List (Fin 64)} {l : List UInt8} (h : bytes ds = some l) :
    digits l = ds := by
  induction ds using bytes.induct generalizing l with
  | case1 =>
    cases h
    rfl
  | case2 => cases h
  | case3 p q hspare =>
    rw [bytes, if_pos hspare] at h
    cases h
    have hlast : digit ((firstByte p q).toNat % 4 * 16) = q := by
      rw [← Fin.val_inj, val_digit, firstByte, UInt8.toNat_ofNat']
      omega
    rw [digits, digit_firstByte, hlast]
  | case4 p q hspare =>
    rw [bytes, if_neg hspare] at h
    cases h
  | case5 p q r hspare =>
    rw [bytes, if_pos hspare] at h
    cases h
    have hlast : digit ((secondByte q r).toNat % 16 * 4) = r := by
      rw [← Fin.val_inj, val_digit, secondByte, UInt8.toNat_ofNat']
      omega
    rw [digits, digit_firstByte, digit_secondByte, hlast]
  | case6 p q r hspare =>
    rw [bytes, if_neg hspare] at h
    cases h
  | case7 p q r s rest ih =>
    rw [bytes, Option.map_eq_some_iff] at h
    obtain ⟨l, hl, rfl⟩ := h
    rw [digits, ih hl, digit_firstByte, digit_secondByte, digit_thirdByte, digit_lastByte]

/-! ## Symbols -/

/-- The 64 symbols, in the order of the digits they stand for. -/
structure Alphabet where
  symbols : List Char
  length_eq : symbols.length = 64
  nodup : symbols.Nodup

namespace Alphabet

variable (a : Alphabet)

/-- The symbol of a digit. -/
def symbol (d : Fin 64) : Char := a.symbols.get (d.cast a.length_eq.symm)

/-- The digit of a symbol. -/
def value (c : Char) : Option (Fin 64) := (List.finRange 64).find? fun d => a.symbol d = c

/-- A symbol that has a digit is the symbol of it. -/
theorem symbol_of_value {c : Char} {d : Fin 64} (h : a.value c = some d) : a.symbol d = c := by
  have hfound := List.find?_some h
  exact of_decide_eq_true hfound

/-- Different digits have different symbols. -/
theorem symbol_injective : Function.Injective a.symbol := fun d e h => by
  exact Fin.cast_injective _ (List.nodup_iff_injective_get.1 a.nodup h)

@[simp] theorem value_symbol (d : Fin 64) : a.value (a.symbol d) = some d := by
  cases hfind : a.value (a.symbol d) with
  | none =>
    have hnone := List.find?_eq_none.1 hfind d (List.mem_finRange d)
    exact absurd (decide_eq_true rfl) hnone
  | some e =>
    rw [a.symbol_injective (a.symbol_of_value hfind)]

/-- The encoding of bytes. -/
def encode (l : List UInt8) : String := String.ofList ((digits l).map a.symbol)

/-- The bytes of a text, if it is the encoding of some. -/
def decode (s : String) : Option (List UInt8) := s.toList.mapM a.value >>= bytes

/-- Symbols are read back to their digits. -/
theorem mapM_value_map (ds : List (Fin 64)) : (ds.map a.symbol).mapM a.value = some ds := by
  induction ds with
  | nil => rfl
  | cons d ds ih => simp [List.mapM_cons, ih]

/-- Digits that were read are those of the symbols. -/
theorem map_of_mapM_value {cs : List Char} {ds : List (Fin 64)} (h : cs.mapM a.value = some ds) :
    ds.map a.symbol = cs := by
  induction cs generalizing ds with
  | nil =>
    cases h
    rfl
  | cons c cs ih =>
    rw [List.mapM_cons] at h
    obtain ⟨d, hd, h⟩ := Option.bind_eq_some_iff.1 h
    obtain ⟨ds', hds', h⟩ := Option.bind_eq_some_iff.1 h
    cases h
    rw [List.map_cons, a.symbol_of_value hd, ih hds']

/-- Decoding undoes encoding. -/
theorem decode_encode (l : List UInt8) : a.decode (a.encode l) = some l := by
  rw [decode, encode, String.toList_ofList, mapM_value_map]
  exact bytes_digits l

/-- A text that is accepted is the encoding of what it decodes to, so that no two texts stand for
the same bytes. -/
theorem encode_of_decode {s : String} {l : List UInt8} (h : a.decode s = some l) :
    a.encode l = s := by
  obtain ⟨ds, hds, hl⟩ := Option.bind_eq_some_iff.1 h
  rw [encode, digits_of_bytes hl, a.map_of_mapM_value hds, String.ofList_toList]

end Alphabet

/-- The letters, the digits, the hyphen and the underscore. -/
def urlSafe : Alphabet where
  symbols := "ABCDEFGHIJKLMNOPQRSTUVWXYZabcdefghijklmnopqrstuvwxyz0123456789-_".toList
  length_eq := by decide
  nodup := by decide

example : urlSafe.encode [0xFB, 0xFF, 0x00, 0x41] = "-_8AQQ" := by decide
example : urlSafe.decode "-_8AQR" = none := by decide

end Base64Text
