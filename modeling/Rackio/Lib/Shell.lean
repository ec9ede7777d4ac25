import Rackio.Lib.Text

/-!
# Unquoted shell commands and paths

What a POSIX shell makes of a command line whose words are unquoted and free of the characters that
it gives a meaning to: the words between the blanks, command after command (`commands`). Words that
are written with blanks between them are read back (`commands_unwords`, `commandsFrom_unwords`), so
a text of literal characters is one word wherever it stands.

A path is read as its components without the empty ones and the dots (`normalise`). A path strictly
below a directory of the root stays there when a path without `..` is added
(`StrictlyBelow.append`).
-/

namespace Shell

open Text

/-! ## Words -/

/-- The characters with a meaning in an unquoted word: the operators, quotes, expansions and
patterns of the POSIX shell language, its blanks, and the braces, `!` and `^` of reserved words and
of common shells. -/
def special : Text := "|&;<>()$\x60\\\"' \t\n*?[]#~=%\x7b\x7d!^".toList

/-- A character that stands for itself in an unquoted word. -/
def isLiteral (c : Char) : Bool := c ∉ special

/-- A word ends. -/
def endWord (words : List Text) (word : Text) : List Text :=
  if word = [] then words else words ++ [word]

/-- The commands of a line, where `done` holds those before, `words` the words of the current one
and `word` what was read of the current word; none where the line has a special character other than
a space or a semicolon, or an empty command. -/
def commandsFrom (done : List (List Text)) (words : List Text) (word : Text) :
    Text → Option (List (List Text))
  | [] => some (done ++ [endWord words word])
  | c :: rest =>
    if c = ' ' then commandsFrom done (endWord words word) [] rest
    else if c = ';' then
      if endWord words word = [] then none
      else commandsFrom (done ++ [endWord words word]) [] [] rest
    else if isLiteral c then commandsFrom done words (word ++ [c]) rest
    else none

/-- The commands of a line, each as its words. -/
def commands (line : Text) : Option (List (List Text)) := commandsFrom [] [] [] line

/-- A word that a shell takes as it is written. -/
structure Plain (word : Text) : Prop where
  notEmpty : word ≠ []
  literal : ∀ c ∈ word, isLiteral c = true

instance (word : Text) : Decidable (Plain word) :=
  decidable_of_iff (word ≠ [] ∧ word.all isLiteral = true)
    ⟨fun h => ⟨h.1, List.all_eq_true.1 h.2⟩, fun h => ⟨h.notEmpty, List.all_eq_true.2 h.literal⟩⟩

/-- Words with a space between them. -/
def unwords : List Text → Text
  | [] => []
  | [word] => word
  | word :: next :: words => word ++ ' ' :: unwords (next :: words)

section
variable {done : List (List Text)} {words new : List Text} {word w rest : Text}

/-- Literal characters are read into the current word. -/
theorem commandsFrom_append (h : ∀ c ∈ w, isLiteral c = true) :
    commandsFrom done words word (w ++ rest) = commandsFrom done words (word ++ w) rest := by
  induction w generalizing word with
  | nil => rw [List.nil_append, List.append_nil]
  | cons c w ih =>
    have hc := h c (.head _)
    have hspace : c ≠ ' ' := by
      rintro rfl
      exact absurd hc (by decide)
    have hsemicolon : c ≠ ';' := by
      rintro rfl
      exact absurd hc (by decide)
    rw [List.cons_append, commandsFrom, if_neg hspace, if_neg hsemicolon, if_pos hc,
      ih fun d hd => h d (.tail _ hd), List.append_assoc, List.singleton_append]

/-- Words that were written with spaces between them are read back. -/
theorem commandsFrom_unwords (hnew : new ≠ []) (h : ∀ w ∈ new, Plain w) :
    commandsFrom done words [] (unwords new ++ rest) =
      commandsFrom done (words ++ new.dropLast) (new.getLast hnew) rest := by
  induction new generalizing words with
  | nil => exact absurd rfl hnew
  | cons w new ih =>
    have hw := h w (.head _)
    cases new with
    | nil =>
      rw [unwords, commandsFrom_append hw.literal, List.nil_append]
      show _ = commandsFrom done (words ++ []) w rest
      rw [List.append_nil]
    | cons next new =>
      rw [unwords, List.append_assoc, commandsFrom_append hw.literal, List.cons_append,
        commandsFrom, if_pos rfl, List.nil_append, endWord, if_neg hw.notEmpty,
        ih (List.cons_ne_nil _ _) fun v hv => h v (.tail _ hv), List.append_assoc]
      rfl

/-- The words of the last command, as they were written. -/
theorem commandsFrom_last (hnew : new ≠ []) (h : ∀ w ∈ new, Plain w) :
    commandsFrom done [] [] (unwords new) = some (done ++ [new]) := by
  have hread : commandsFrom done [] [] (unwords new ++ []) = _ := commandsFrom_unwords hnew h
  have hlast := (h _ (List.getLast_mem hnew)).notEmpty
  rw [List.append_nil, List.nil_append] at hread
  rw [hread, commandsFrom, endWord, if_neg hlast, List.dropLast_append_getLast]

/-- The words of a command that a semicolon ends. -/
theorem commandsFrom_semicolon (hnew : new ≠ []) (h : ∀ w ∈ new, Plain w) :
    commandsFrom done [] [] (unwords new ++ ';' :: rest) =
      commandsFrom (done ++ [new]) [] [] rest := by
  have hlast := (h _ (List.getLast_mem hnew)).notEmpty
  have hend : endWord new.dropLast (new.getLast hnew) = new := by
    rw [endWord, if_neg hlast, List.dropLast_append_getLast]
  rw [commandsFrom_unwords hnew h, List.nil_append, commandsFrom, if_neg (by decide), if_pos rfl,
    hend, if_neg hnew]

/-- A command of plain words is read back. -/
theorem commands_unwords (hnew : new ≠ []) (h : ∀ w ∈ new, Plain w) :
    commands (unwords new) = some [new] :=
  commandsFrom_last hnew h

/-- Plain words written one after the other are a plain word. -/
theorem Plain.append (hword : Plain word) (h : ∀ c ∈ w, isLiteral c = true) : Plain (word ++ w) :=
  ⟨List.append_ne_nil_of_left_ne_nil hword.notEmpty w,
    List.forall_mem_append.2 ⟨hword.literal, h⟩⟩

end

/-! ## Paths -/

/-- The components of a path, without the empty ones and the dots. -/
def normalise (path : Text) : List Text :=
  (split '/' path).filter fun component => component ≠ [] ∧ component ≠ ['.']

/-- An absolute path, without `..`, to something below the directory `top` of the root. -/
structure StrictlyBelow (top path : Text) : Prop where
  absolute : path.head? = some '/'
  below : ∃ component rest, normalise path = top :: component :: rest
  noParent : ['.', '.'] ∉ split '/' path

section
variable {top path tail : Text}

/-- The components of two paths with a slash between them. -/
theorem normalise_append : normalise (path ++ '/' :: tail) = normalise path ++ normalise tail := by
  unfold normalise
  rw [split_append_cons, List.filter_append]

/-- A path without `..` does not lead out. -/
theorem StrictlyBelow.append (h : StrictlyBelow top path) (htail : ['.', '.'] ∉ split '/' tail) :
    StrictlyBelow top (path ++ '/' :: tail) := by
  obtain ⟨component, rest, hbelow⟩ := h.below
  refine ⟨?_, ⟨component, rest ++ normalise tail, ?_⟩, ?_⟩
  · rw [List.head?_append, h.absolute, Option.some_or]
  · rw [normalise_append, hbelow, List.cons_append, List.cons_append]
  · rw [split_append_cons, List.mem_append, not_or]
    exact ⟨h.noParent, htail⟩

end

end Shell
