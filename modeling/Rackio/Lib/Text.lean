import Mathlib

/-!
# Text

The operations on strings of the Rust standard library that split and compare text, on lists of
characters: `str::lines`, `str::trim`, `str::split_whitespace`, `str::split` at a character and
`str::eq_ignore_ascii_case`. White space is the Unicode property `White_Space`.

`lines_unlines` reads back the lines that were written one after the other, `head?_splitWhitespace`
says what the first word of a text is, and `mem_congr_of_eqIgnoreAsciiCase` which characters a
comparison without case still tells apart.
-/

/-- A `str`. -/
abbrev Text := List Char

namespace Text

/-- The source's `char::is_whitespace`. -/
def isWhitespace (c : Char) : Bool :=
  let n := c.toNat
  9 ≤ n && n ≤ 13 || n = 32 || n = 0x85 || n = 0xA0 || n = 0x1680 || 0x2000 ≤ n && n ≤ 0x200A ||
    n = 0x2028 || n = 0x2029 || n = 0x202F || n = 0x205F || n = 0x3000

/-! ## Lines -/

/-- A line without the carriage return that may stand before its line feed. -/
def stripReturn (line : Text) : Text :=
  if line.getLast? = some '\r' then line.dropLast else line

/-- `str::lines`, where `line` holds what was read of the current line. -/
def linesFrom (line : Text) : Text → List Text
  | [] => if line = [] then [] else [line]
  | c :: rest =>
    if c = '\n' then stripReturn line :: linesFrom [] rest else linesFrom (line ++ [c]) rest

/-- The source's `str::lines`. -/
def lines (s : Text) : List Text := linesFrom [] s

/-- Lines written with a line feed after each. -/
def unlines (ls : List Text) : Text := ls.flatMap (· ++ ['\n'])

/-- No line feed is in a line. -/
theorem not_mem_of_mem_linesFrom {s line l : Text} (h : l ∈ linesFrom line s)
    (hline : '\n' ∉ line) : '\n' ∉ l := by
  induction s generalizing line with
  | nil =>
    unfold linesFrom at h
    split at h
    · cases h
    · rw [List.mem_singleton.1 h]
      exact hline
  | cons c s ih =>
    unfold linesFrom at h
    split at h
    · rcases List.mem_cons.1 h with rfl | h
      · unfold stripReturn
        split
        · exact fun hmem => hline ((List.dropLast_sublist line).mem hmem)
        · exact hline
      · exact ih h List.not_mem_nil
    · next hc =>
      refine ih h fun hmem => ?_
      rcases List.mem_append.1 hmem with hmem | hmem
      · exact hline hmem
      · exact hc (List.mem_singleton.1 hmem).symm

theorem not_mem_of_mem_lines {s l : Text} (h : l ∈ lines s) : '\n' ∉ l :=
  not_mem_of_mem_linesFrom h List.not_mem_nil

/-- A line that ends with a line feed is read, and then the rest. -/
theorem linesFrom_append {l rest line : Text} (h : '\n' ∉ l) :
    linesFrom line (l ++ '\n' :: rest) = stripReturn (line ++ l) :: lines rest := by
  induction l generalizing line with
  | nil =>
    rw [List.nil_append, linesFrom, if_pos rfl, List.append_nil]
    rfl
  | cons c l ih =>
    have hc : c ≠ '\n' := fun hc => h (hc ▸ .head _)
    rw [List.cons_append, linesFrom, if_neg hc, ih fun hmem => h (.tail _ hmem), List.append_assoc,
      List.singleton_append]

/-- Lines are read back as they were written. -/
theorem lines_unlines {ls : List Text}
    (h : ∀ l ∈ ls, '\n' ∉ l ∧ l.getLast? ≠ some '\r') : lines (unlines ls) = ls := by
  induction ls with
  | nil => rfl
  | cons l ls ih =>
    obtain ⟨hfeed, hreturn⟩ := h l (.head _)
    have hsplit : unlines (l :: ls) = l ++ '\n' :: unlines ls := by
      simp [unlines]
    rw [hsplit, lines, linesFrom_append hfeed, List.nil_append, stripReturn, if_neg hreturn,
      ih fun l' hl' => h l' (.tail _ hl')]

/-! ## Trimming -/

/-- The source's `str::trim`. -/
def trim (s : Text) : Text := (s.dropWhile isWhitespace).rdropWhile isWhitespace

theorem mem_of_mem_trim {s : Text} {c : Char} (h : c ∈ trim s) : c ∈ s :=
  (List.dropWhile_sublist _).mem ((List.rdropWhile_prefix _ _).mem h)

/-- A trimmed text does not end with white space. -/
theorem not_whitespace_getLast {s : Text} {c : Char} (h : (trim s).getLast? = some c) :
    isWhitespace c = false := by
  obtain ⟨hne, rfl⟩ := List.mem_getLast?_eq_getLast h
  exact Bool.eq_false_iff.2 (List.rdropWhile_last_not _ _ hne)

/-- A trimmed text does not start with white space. -/
theorem not_whitespace_head {s : Text} {c : Char} (h : (trim s).head? = some c) :
    isWhitespace c = false := by
  obtain ⟨rest, hrest⟩ := List.rdropWhile_prefix isWhitespace (s.dropWhile isWhitespace)
  unfold trim at h
  cases htrim : (s.dropWhile isWhitespace).rdropWhile isWhitespace with
  | nil =>
    rw [htrim] at h
    cases h
  | cons d l =>
    rw [htrim] at h hrest
    cases h
    have hhead := List.head?_dropWhile_not isWhitespace s
    rw [← hrest] at hhead
    simpa using hhead

/-- A text without white space at its ends is not changed. -/
theorem trim_eq_self {s : Text} (hhead : ∀ c, s.head? = some c → isWhitespace c = false)
    (hlast : ∀ c, s.getLast? = some c → isWhitespace c = false) : trim s = s := by
  have hdrop : s.dropWhile isWhitespace = s := by
    cases s with
    | nil => rfl
    | cons c s => rw [List.dropWhile_cons_of_neg (by simp [hhead c rfl])]
  unfold trim
  rw [hdrop, List.rdropWhile_eq_self_iff]
  intro hne hspace
  rw [hlast _ (List.getLast?_eq_getLast_of_ne_nil hne)] at hspace
  cases hspace

@[simp] theorem trim_trim (s : Text) : trim (trim s) = trim s :=
  trim_eq_self (fun _ h => not_whitespace_head h) fun _ h => not_whitespace_getLast h

/-! ## Words -/

/-- `str::split_whitespace`, where `word` holds what was read of the current word. -/
def wordsFrom (word : Text) : Text → List Text
  | [] => if word = [] then [] else [word]
  | c :: rest =>
    if isWhitespace c then
      if word = [] then wordsFrom [] rest else word :: wordsFrom [] rest
    else wordsFrom (word ++ [c]) rest

/-- The source's `str::split_whitespace`. -/
def splitWhitespace (s : Text) : List Text := wordsFrom [] s

/-- The first word, when one was begun. -/
theorem head?_wordsFrom {s word : Text} (h : word ≠ []) :
    (wordsFrom word s).head? = some (word ++ s.takeWhile (! isWhitespace ·)) := by
  induction s generalizing word with
  | nil =>
    rw [wordsFrom, if_neg h, List.takeWhile_nil, List.append_nil]
    rfl
  | cons c s ih =>
    rw [wordsFrom]
    by_cases hc : isWhitespace c = true
    · rw [if_pos hc, if_neg h, List.takeWhile_cons_of_neg (by simp [hc]), List.append_nil]
      rfl
    · have hne : word ++ [c] ≠ [] := by simp
      rw [if_neg hc, ih hne, List.takeWhile_cons_of_pos (by simp [hc]), List.append_assoc,
        List.singleton_append]

/-- The first word of a text that does not start with white space. -/
theorem head?_splitWhitespace {s : Text} {c : Char} (h : s.head? = some c)
    (hc : isWhitespace c = false) :
    (splitWhitespace s).head? = some (s.takeWhile (! isWhitespace ·)) := by
  cases s with
  | nil => cases h
  | cons d s =>
    cases h
    have hne : ([c] : Text) ≠ [] := List.cons_ne_nil _ _
    rw [splitWhitespace, wordsFrom, if_neg (by simp [hc]), List.nil_append, head?_wordsFrom hne,
      List.takeWhile_cons_of_pos (by simp [hc]), List.singleton_append]

/-! ## Pieces -/

/-- `str::split` at a character, where `piece` holds what was read of the current piece. -/
def splitFrom (separator : Char) (piece : Text) : Text → List Text
  | [] => [piece]
  | c :: rest =>
    if c = separator then piece :: splitFrom separator [] rest
    else splitFrom separator (piece ++ [c]) rest

/-- The source's `str::split` at a character. -/
def split (separator : Char) (s : Text) : List Text := splitFrom separator [] s

/-- What holds of the characters of all pieces holds of those of the text but the separators. -/
theorem forall_mem_splitFrom {separator : Char} {s piece : Text} {P : Char → Prop} :
    (∀ p ∈ splitFrom separator piece s, ∀ c ∈ p, P c) ↔
      (∀ c ∈ piece, P c) ∧ ∀ c ∈ s, c ≠ separator → P c := by
  induction s generalizing piece with
  | nil => simp [splitFrom]
  | cons d s ih =>
    rw [splitFrom, List.forall_mem_cons]
    split
    · next hd =>
      rw [List.forall_mem_cons, ih]
      simp [hd]
    · next hd =>
      rw [ih, List.forall_mem_append, List.forall_mem_singleton]
      simp [hd, and_assoc]

/-- What was read of the current piece stands in front of the first piece of the rest. -/
theorem exists_splitFrom_eq (separator : Char) (s : Text) :
    ∃ first more, ∀ piece, splitFrom separator piece s = (piece ++ first) :: more := by
  induction s with
  | nil => exact ⟨[], [], fun piece => by rw [splitFrom, List.append_nil]⟩
  | cons c s ih =>
    obtain ⟨first, more, ih⟩ := ih
    by_cases hc : c = separator
    · refine ⟨[], first :: more, fun piece => ?_⟩
      rw [splitFrom, if_pos hc, ih, List.append_nil, List.nil_append]
    · refine ⟨c :: first, more, fun piece => ?_⟩
      rw [splitFrom, if_neg hc, ih, List.append_assoc, List.singleton_append]

/-- A separator ends a piece. -/
theorem splitFrom_append_cons {separator : Char} {s t piece : Text} :
    splitFrom separator piece (s ++ separator :: t) =
      splitFrom separator piece s ++ split separator t := by
  induction s generalizing piece with
  | nil => rw [List.nil_append, splitFrom, splitFrom, if_pos rfl, List.singleton_append, split]
  | cons c s ih =>
    rw [List.cons_append, splitFrom, splitFrom]
    split
    · rw [ih, List.cons_append]
    · exact ih

theorem split_append_cons {separator : Char} {s t : Text} :
    split separator (s ++ separator :: t) = split separator s ++ split separator t :=
  splitFrom_append_cons

/-- A text without the separator is one piece. -/
theorem split_eq_singleton {separator : Char} {s : Text} (h : separator ∉ s) :
    split separator s = [s] := by
  suffices hfrom : ∀ piece, splitFrom separator piece s = [piece ++ s] from hfrom []
  induction s with
  | nil => exact fun piece => by rw [splitFrom, List.append_nil]
  | cons c s ih =>
    intro piece
    have hc : c ≠ separator := fun heq => h (heq ▸ .head _)
    rw [splitFrom, if_neg hc, ih fun hmem => h (.tail _ hmem), List.append_assoc,
      List.singleton_append]

theorem forall_mem_split {separator : Char} {s : Text} {P : Char → Prop} :
    (∀ p ∈ split separator s, ∀ c ∈ p, P c) ↔ ∀ c ∈ s, c ≠ separator → P c := by
  rw [split, forall_mem_splitFrom]
  simp

/-! ## Comparison without case -/

/-- The source's `str::eq_ignore_ascii_case`. -/
def eqIgnoreAsciiCase (s t : Text) : Bool := s.map Char.toLower = t.map Char.toLower

section
variable {s t : Text} {c : Char}

theorem eqIgnoreAsciiCase_iff :
    eqIgnoreAsciiCase s t = true ↔ s.map Char.toLower = t.map Char.toLower :=
  decide_eq_true_iff

@[simp] theorem eqIgnoreAsciiCase_refl (s : Text) : eqIgnoreAsciiCase s s = true :=
  eqIgnoreAsciiCase_iff.2 rfl

theorem eqIgnoreAsciiCase_symm (h : eqIgnoreAsciiCase s t = true) : eqIgnoreAsciiCase t s = true :=
  eqIgnoreAsciiCase_iff.2 (eqIgnoreAsciiCase_iff.1 h).symm

/-- Only a letter has another case. -/
theorem toLower_eq_iff {d : Char} (hd : d.isAlpha = false) : c.toLower = d ↔ c = d := by
  unfold Char.toLower
  split
  · next hupper =>
    obtain ⟨hge, hle⟩ := hupper
    have hlow : (65 : Nat) ≤ c.val.toNat := UInt32.le_iff_toNat_le.1 hge
    have hhigh : c.val.toNat ≤ 90 := UInt32.le_iff_toNat_le.1 hle
    have hboth : ∀ n : UInt32, n.toNat = c.val.toNat + 32 ∨ n.toNat = c.val.toNat → d.val ≠ n := by
      rintro n hn rfl
      have halpha : d.isAlpha = true := by
        simp only [Char.isAlpha, Char.isUpper, Char.isLower, Bool.or_eq_true, Bool.and_eq_true,
          decide_eq_true_eq, ge_iff_le, UInt32.le_iff_toNat_le]
        have hA : 'A'.val.toNat = 65 := rfl
        have hZ : 'Z'.val.toNat = 90 := rfl
        have ha : 'a'.val.toNat = 97 := rfl
        have hz : 'z'.val.toNat = 122 := rfl
        omega
      rw [hd] at halpha
      cases halpha
    have hsum : (c.val + ('a'.val - 'A'.val)).toNat = c.val.toNat + 32 := by
      rw [UInt32.toNat_add]
      have h32 : ('a'.val - 'A'.val).toNat = 32 := rfl
      omega
    refine iff_of_false (fun heq => ?_) fun heq => ?_
    · exact hboth _ (.inl hsum) (congrArg Char.val heq.symm)
    · exact hboth _ (.inr rfl) (congrArg Char.val heq.symm)
  · exact Iff.rfl

/-- A comparison without case tells apart all characters but letters. -/
theorem mem_congr_of_eqIgnoreAsciiCase (h : eqIgnoreAsciiCase s t = true) {d : Char}
    (hd : d.isAlpha = false) : d ∈ s ↔ d ∈ t := by
  have hlower : ∀ l : Text, d ∈ l ↔ d ∈ l.map Char.toLower := by
    intro l
    simp only [List.mem_map, toLower_eq_iff hd, exists_eq_right]
  rw [hlower s, hlower t, eqIgnoreAsciiCase_iff.1 h]

/-- So it does for the first character. -/
theorem head?_congr_of_eqIgnoreAsciiCase (h : eqIgnoreAsciiCase s t = true) {d : Char}
    (hd : d.isAlpha = false) : s.head? = some d ↔ t.head? = some d := by
  have hlower : ∀ l : Text, l.head? = some d ↔ (l.map Char.toLower).head? = some d := by
    intro l
    cases l with
    | nil => exact Iff.rfl
    | cons c l => simp [toLower_eq_iff hd]
  rw [hlower s, hlower t, eqIgnoreAsciiCase_iff.1 h]

/-- White space is no letter and no digit. -/
theorem isAlphanum_of_isWhitespace (h : isWhitespace c = true) :
    c.isAlpha = false ∧ c.isDigit = false := by
  unfold isWhitespace at h
  simp only [Bool.or_eq_true, Bool.and_eq_true, decide_eq_true_eq] at h
  simp only [Char.isAlpha, Char.isUpper, Char.isLower, Char.isDigit, Bool.or_eq_false_iff,
    Bool.and_eq_false_iff, decide_eq_false_iff_not, ge_iff_le, UInt32.le_iff_toNat_le]
  have hA : 'A'.val.toNat = 65 := rfl
  have hZ : 'Z'.val.toNat = 90 := rfl
  have ha : 'a'.val.toNat = 97 := rfl
  have hz : 'z'.val.toNat = 122 := rfl
  have h0 : '0'.val.toNat = 48 := rfl
  have h9 : '9'.val.toNat = 57 := rfl
  have hc : c.toNat = c.val.toNat := rfl
  omega

end

end Text
