import ComponentAtlas.Text.Lines
import ComponentAtlas.Proofs.Text.Pieces

/-!
Lines and columns against the lines of the text itself. The line number of a place tells the piece
between line feeds that it stands in, and the column how much of that piece stands before it.
-/

namespace ComponentAtlas.Text

section Pieces

variable {sep : Char}

theorem lastPiece_of_not_mem {s : List Char} (h : sep ∉ s) : lastPiece sep s = s :=
  lastPiece_append [] h

theorem lastPiece_suffix (sep : Char) (s : List Char) : lastPiece sep s <:+ s := by
  rw [lastPiece, ← List.reverse_prefix, List.reverse_reverse]
  exact List.takeWhile_prefix _

theorem ne_of_mem_lastPiece {s : List Char} {c : Char} (h : c ∈ lastPiece sep s) : c ≠ sep := by
  rw [lastPiece, List.mem_reverse] at h
  have plain : (c != sep) = true := List.mem_takeWhile_imp (p := (· != sep)) h
  exact bne_iff_ne.mp plain

theorem exists_last_separator {s : List Char} (h : sep ∈ s) :
    ∃ before after, s = before ++ sep :: after ∧ sep ∉ after := by
  obtain ⟨after, before, split, later⟩ := List.eq_append_cons_of_mem (List.mem_reverse.mpr h)
  refine ⟨before.reverse, after.reverse, ?_, by simpa using later⟩
  rw [← List.reverse_reverse s, split]
  simp

/-- A further character opens a piece of its own, or goes in front of the first one. -/
theorem splitOn_cons (sep c : Char) (rest : List Char) :
    ∃ piece pieces, splitOn sep rest = piece :: pieces ∧
      splitOn sep (c :: rest) =
        if c = sep then [] :: piece :: pieces else (c :: piece) :: pieces := by
  obtain ⟨piece, pieces, cut⟩ := List.exists_cons_of_ne_nil (splitAt_ne_nil (· == sep) rest)
  refine ⟨piece, pieces, cut, ?_⟩
  rw [splitOn, splitAt, cut]
  simp only [beq_iff_eq]

theorem length_splitOn (sep : Char) (s : List Char) : (splitOn sep s).length = s.count sep + 1 := by
  induction s with
  | nil => rfl
  | cons c rest ih =>
      obtain ⟨piece, pieces, cut, longer⟩ := splitOn_cons sep c rest
      rw [cut, List.length_cons] at ih
      rw [longer]
      by_cases here : c = sep <;> simp [here, ih]

theorem count_last_separator (first : List Char) {last : List Char} (plain : sep ∉ last) :
    (first ++ sep :: last).count sep = (splitOn sep first).length := by
  rw [length_splitOn, List.count_append, List.count_cons_self, List.count_eq_zero_of_not_mem plain]

theorem splitOn_eq_cons (sep : Char) (s : List Char) :
    splitOn sep s = firstPiece sep s :: (splitOn sep s).tail := by
  induction s with
  | nil => rfl
  | cons c rest ih =>
      obtain ⟨piece, pieces, cut, longer⟩ := splitOn_cons sep c rest
      have first : piece = firstPiece sep rest := by
        rw [cut] at ih
        exact (List.cons.inj ih).1
      rw [longer]
      by_cases here : c = sep <;> simp [here, firstPiece, first]

theorem head?_splitOn (sep : Char) (s : List Char) :
    (splitOn sep s)[0]? = some (firstPiece sep s) := by
  rw [splitOn_eq_cons, List.getElem?_cons_zero]

/-- What holds no separator goes in front of the first piece. -/
theorem splitOn_append_of_not_mem {s : List Char} (h : sep ∉ s) (after : List Char) :
    splitOn sep (s ++ after) = (s ++ firstPiece sep after) :: (splitOn sep after).tail := by
  induction s with
  | nil => exact splitOn_eq_cons sep after
  | cons c s ih =>
      rw [List.mem_cons, not_or] at h
      obtain ⟨piece, pieces, cut, longer⟩ := splitOn_cons sep c (s ++ after)
      obtain ⟨rfl, rfl⟩ := List.cons.inj (cut.symm.trans (ih h.2))
      rw [List.cons_append, longer, if_neg (Ne.symm h.1), List.cons_append]

theorem head?_any_firstPiece {s : List Char} {p : Char → Bool} (h : s.head?.any p = false) :
    (firstPiece sep s).head?.any p = false := by
  cases s with
  | nil => rfl
  | cons c s =>
      rw [firstPiece, List.takeWhile_cons]
      split
      · exact h
      · rfl

theorem firstPiece_append {s : List Char} (h : sep ∉ s) (after : List Char) :
    firstPiece sep (s ++ after) = s ++ firstPiece sep after :=
  List.takeWhile_append_of_pos fun _ hc => bne_iff_ne.mpr fun e => h (e ▸ hc)

/-- The piece around a place: the last one before it goes on with the first one after it. -/
theorem getElem?_splitOn_append (sep : Char) (before after : List Char) :
    (splitOn sep (before ++ after))[before.count sep]? =
      some (lastPiece sep before ++ firstPiece sep after) := by
  by_cases some_sep : sep ∈ before
  · obtain ⟨first, last, rfl, plain⟩ := exists_last_separator some_sep
    rw [List.append_assoc, List.cons_append, splitOn_append_cons, count_last_separator first plain,
      lastPiece_append_cons first plain, ← firstPiece_append plain, ← head?_splitOn,
      List.getElem?_append_right (Nat.le_refl _), Nat.sub_self]
  · rw [List.count_eq_zero_of_not_mem some_sep, head?_splitOn, firstPiece_append some_sep,
      lastPiece_of_not_mem some_sep]

end Pieces

theorem lastLineLength_eq (s : List Char) : lastLineLength s = (lastPiece '\n' s).length := by
  simp [lastLineLength, lastPiece]

theorem lineNumber_append (before after : List Char) :
    lineNumber (before ++ after) before.length = before.count '\n' + 1 := by
  rw [lineNumber, List.take_left]

theorem columnNumber_append (before after : List Char) :
    columnNumber (before ++ after) before.length = (lastPiece '\n' before).length := by
  have inside : before.length - (before ++ after).length = 0 := by
    rw [List.length_append]
    omega
  rw [columnNumber, List.take_left, inside, lastLineLength_eq, Nat.add_zero]

/-- Where a place is told by line and column, that line of the text goes on from that column as the
text goes on from the place. -/
theorem line_at_place (before after : List Char) :
    ∃ n line, (splitOn '\n' (before ++ after))[n]? = some line ∧
      lineNumber (before ++ after) before.length = n + 1 ∧
      columnNumber (before ++ after) before.length ≤ line.length ∧
      line.drop (columnNumber (before ++ after) before.length) = firstPiece '\n' after := by
  refine ⟨_, _, getElem?_splitOn_append '\n' before after, lineNumber_append before after, ?_, ?_⟩
  · rw [columnNumber_append, List.length_append]
    exact Nat.le_add_right _ _
  · rw [columnNumber_append, List.drop_left]

theorem columnNumber_lineStart {before : List Char} (after : List Char)
    (h : before.getLast?.all (· == '\n') = true) :
    columnNumber (before ++ after) before.length = 0 := by
  rw [columnNumber_append]
  rcases List.eq_nil_or_concat before with rfl | ⟨front, last, rfl⟩
  · rfl
  · have feed : last = '\n' := by simpa using h
    rw [feed, List.concat_eq_append, lastPiece_append_cons front List.not_mem_nil, List.length_nil]

end ComponentAtlas.Text
