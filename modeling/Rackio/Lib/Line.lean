import Mathlib.Data.List.Infix
import Mathlib.Data.List.TakeWhile

/-!
# A line that arrives in pieces

A reader collects what arrives until the delimiter has come or its limit is reached. However the
stream is cut into pieces, what it ends with is the first line of the stream (`IsFirst`), or as much
of it as the limit allows.
-/

namespace Line

/-- What a reader has made of the pieces so far. -/
inductive Progress (α : Type)
  | more (taken : List α)
  /-- The line, with its delimiter if that has come. -/
  | line (line : List α)

section
variable {α : Type} {d : α} {stream l l' : List α}

/-- The stream starts with this line, which ends with the delimiter and has no other. -/
def IsFirst (d : α) (stream l : List α) : Prop :=
  ∃ body, d ∉ body ∧ l = body ++ [d] ∧ l <+: stream

/-- A list without the delimiter is not longer than what comes before the first delimiter. -/
theorem prefix_of_not_mem {a b c : List α} (hb : d ∉ b) (h : b ++ c = a ++ d :: l) : b <+: a := by
  induction a generalizing b with
  | nil =>
    cases b with
    | nil => exact List.nil_prefix
    | cons x b =>
      cases h
      exact absurd (.head _) hb
  | cons x a ih =>
    cases b with
    | nil => exact List.nil_prefix
    | cons y b =>
      obtain ⟨rfl, htail⟩ := List.cons.inj h
      exact (List.prefix_cons_inj _).2 (ih (fun hmem => hb (.tail _ hmem)) htail)

/-- A stream has one first line only. -/
theorem IsFirst.unique (h : IsFirst d stream l) (h' : IsFirst d stream l') : l = l' := by
  obtain ⟨body, hbody, rfl, c, rfl⟩ := h
  obtain ⟨body', hbody', rfl, c', hc⟩ := h'
  simp only [List.append_assoc, List.singleton_append] at hc
  have hshort : body <+: body' := prefix_of_not_mem hbody hc.symm
  have hlong : body' <+: body := prefix_of_not_mem hbody' hc
  rw [hshort.eq_of_length_le hlong.length_le]

/-- The first line of a stream that is one line. -/
theorem isFirst_singleton_iff (h : d ∉ stream) :
    IsFirst d (stream ++ [d]) l ↔ l = stream ++ [d] := by
  have hwhole : IsFirst d (stream ++ [d]) (stream ++ [d]) := ⟨stream, h, rfl, List.prefix_rfl⟩
  exact ⟨fun hl => hl.unique hwhole, fun hl => hl ▸ hwhole⟩

end

section
variable {α : Type} [DecidableEq α] {d : α} {limit : Option Nat}
  {stream taken chunk rest l : List α}

/-- One more piece for a reader that has taken `taken`. What follows the delimiter in the piece is
not part of the line. -/
def read (d : α) (limit : Option Nat) (taken chunk : List α) : Progress α :=
  if d ∈ chunk then .line (taken ++ chunk.takeWhile (· ≠ d) ++ [d])
  else if ∃ bound ∈ limit, bound ≤ (taken ++ chunk).length then .line (taken ++ chunk)
  else .more (taken ++ chunk)

/-- What comes before the first delimiter, and what after it. -/
theorem exists_after (h : d ∈ chunk) : ∃ after, chunk = chunk.takeWhile (· ≠ d) ++ d :: after := by
  induction chunk with
  | nil => cases h
  | cons c chunk ih =>
    by_cases hc : c = d
    · exact ⟨chunk, by simp [hc]⟩
    · obtain ⟨after, hafter⟩ := ih ((List.mem_cons.1 h).resolve_left (Ne.symm hc))
      refine ⟨after, ?_⟩
      rw [List.takeWhile_cons_of_pos (by simpa using hc), List.cons_append, ← hafter]

/-- A line that arrives as one piece. -/
theorem read_line {body : List α} (h : d ∉ body) :
    read d limit [] (body ++ [d]) = .line (body ++ [d]) := by
  have hbefore : (body ++ [d]).takeWhile (· ≠ d) = body := by
    rw [List.takeWhile_append_of_pos (by simpa using fun a ha => ne_of_mem_of_not_mem ha h)]
    simp
  rw [read, if_pos (List.mem_append_right _ (.head _)), hbefore, List.nil_append]

/-- A reader goes on with all it has taken, as long as there is no delimiter and it is below its
limit. -/
theorem read_eq_more (hno : d ∉ taken) (h : read d limit taken chunk = .more l) :
    l = taken ++ chunk ∧ d ∉ l ∧ ∀ bound ∈ limit, l.length < bound := by
  unfold read at h
  split at h
  · cases h
  next hchunk =>
  split at h
  · cases h
  next hbound =>
  cases h
  refine ⟨rfl, by simp [hno, hchunk], fun bound hb => ?_⟩
  exact Nat.lt_of_not_le fun hle => hbound ⟨bound, hb, hle⟩

/-- A reader that is done has the first line of the stream, or has reached its limit before it. -/
theorem read_eq_line (hno : d ∉ taken) (hstream : stream = taken ++ chunk ++ rest)
    (h : read d limit taken chunk = .line l) :
    IsFirst d stream l ∧ l.length ≤ (taken ++ chunk).length ∨
      d ∉ l ∧ l = taken ++ chunk ∧ ∃ bound ∈ limit, bound ≤ l.length := by
  unfold read at h
  split at h
  · next hchunk =>
    cases h
    refine .inl ?_
    obtain ⟨after, hafter⟩ := exists_after hchunk
    have hbefore : d ∉ chunk.takeWhile (· ≠ d) := fun hmem => by
      simpa using List.mem_takeWhile_imp hmem
    have hline : taken ++ chunk.takeWhile (· ≠ d) ++ [d] <+: taken ++ chunk :=
      ⟨after, by rw [List.append_assoc, List.append_assoc, List.singleton_append, ← hafter]⟩
    have hbody : d ∉ taken ++ chunk.takeWhile (· ≠ d) :=
      fun hmem => (List.mem_append.1 hmem).elim hno hbefore
    refine ⟨⟨_, hbody, rfl, ?_⟩, hline.length_le⟩
    exact hstream ▸ hline.trans (List.prefix_append _ _)
  next hchunk =>
  split at h
  · next hbound =>
    cases h
    exact .inr ⟨by simp [hno, hchunk], rfl, hbound⟩
  · cases h

end

end Line
