import Mathlib.Algebra.BigOperators.Group.List.Basic
import Mathlib.Algebra.GroupWithZero.Nat
import Mathlib.Data.Prod.Lex
import Mathlib.Order.Interval.Set.Defs
import ComponentAtlas.Proofs.Text.Places

/-!
Line and column against the offset. The lines in front of a place, each with the line feed behind
it, and the part of its own line in front of it are all that stands before the place. So line and
column tell the offset, and they grow with it: a later place is in a later line, or in the same line
and further on.
-/

namespace ComponentAtlas.Text

/-- The pieces of a text, each with the separator behind it, are one character longer than it. -/
theorem sum_length_splitOn (sep : Char) (s : List Char) :
    ((splitOn sep s).map (·.length + 1)).sum = s.length + 1 := by
  induction s with
  | nil => rfl
  | cons c rest ih =>
      obtain ⟨piece, pieces, cut, longer⟩ := splitOn_cons sep c rest
      rw [cut, List.map_cons, List.sum_cons] at ih
      rw [longer, List.length_cons, ← ih]
      split
      · simp only [List.map_cons, List.sum_cons, List.length_nil]
        omega
      · simp only [List.map_cons, List.sum_cons, List.length_cons]
        omega

/-- What stands before a place is the pieces that end before it and the start of the next one. -/
theorem sum_take_splitOn (sep : Char) (before after : List Char) :
    (((splitOn sep (before ++ after)).take (before.count sep)).map (·.length + 1)).sum +
      (lastPiece sep before).length = before.length := by
  by_cases some_sep : sep ∈ before
  · obtain ⟨first, last, rfl, plain⟩ := exists_last_separator some_sep
    rw [List.append_assoc, List.cons_append, splitOn_append_cons, count_last_separator first plain,
      List.take_left, sum_length_splitOn, lastPiece_append_cons first plain, List.length_append,
      List.length_cons]
    omega
  · rw [List.count_eq_zero_of_not_mem some_sep, lastPiece_of_not_mem some_sep]
    simp

variable {s : List Char} {offset later : ℕ}

theorem exists_cut (within : offset ≤ s.length) :
    ∃ before after, s = before ++ after ∧ offset = before.length :=
  ⟨s.take offset, s.drop offset, (List.take_append_drop offset s).symm,
    (List.length_take_of_le within).symm⟩

/-- The lines before the line of an offset and the column make up the offset. -/
theorem offset_eq (within : offset ≤ s.length) :
    (((splitOn '\n' s).take (lineNumber s offset - 1)).map (·.length + 1)).sum +
      columnNumber s offset = offset := by
  obtain ⟨before, after, rfl, rfl⟩ := exists_cut within
  rw [lineNumber_append, columnNumber_append, Nat.add_sub_cancel]
  exact sum_take_splitOn '\n' before after

theorem lineNumber_mono (s : List Char) (h : offset ≤ later) :
    lineNumber s offset ≤ lineNumber s later := by
  have start : (s.take offset).Sublist (s.take later) := (List.take_prefix_take_left h).sublist
  exact Nat.succ_le_succ (start.count_le '\n')

theorem place_strictMonoOn (s : List Char) :
    StrictMonoOn (fun i => toLex (lineNumber s i, columnNumber s i)) (Set.Iic s.length) := by
  intro i hi j hj before
  rw [Prod.Lex.toLex_lt_toLex]
  rcases Nat.lt_or_eq_of_le (lineNumber_mono s (Nat.le_of_lt before)) with less | same
  · exact .inl less
  · -- In one line the same lines stand before both, so the columns differ as the offsets do.
    have start := offset_eq hi
    have stop := offset_eq hj
    rw [← same] at stop
    exact .inr ⟨same, by omega⟩

/-- Every offset up to the end of the text has a line of the text and a column of that line, and
what stands before it is the lines in front of that line, each with its line feed, and the column.
Offsets that differ have other places, and the larger one has the later place. -/
theorem place_determines_offset (s : List Char) :
    (∀ i ≤ s.length,
      1 ≤ lineNumber s i ∧ lineNumber s i ≤ (splitOn '\n' s).length ∧
        (∃ line, (splitOn '\n' s)[lineNumber s i - 1]? = some line ∧
          columnNumber s i ≤ line.length) ∧
        (((splitOn '\n' s).take (lineNumber s i - 1)).map (·.length + 1)).sum +
          columnNumber s i = i) ∧
      Set.InjOn (fun i => (lineNumber s i, columnNumber s i)) (Set.Iic s.length) ∧
      StrictMonoOn (fun i => toLex (lineNumber s i, columnNumber s i)) (Set.Iic s.length) := by
  refine ⟨fun i within => ?_, ?_, place_strictMonoOn s⟩
  · have offset := offset_eq within
    obtain ⟨before, after, rfl, rfl⟩ := exists_cut within
    obtain ⟨n, line, found, number, column, _⟩ := line_at_place before after
    have inside := (List.getElem?_eq_some_iff.mp found).1
    refine ⟨Nat.le_add_left 1 _, number ▸ inside, ⟨line, ?_, column⟩, offset⟩
    rwa [number]
  · intro i hi j hj same
    exact (place_strictMonoOn s).injOn hi hj (congrArg toLex same)

/-- The second line is empty: the line feed that ends the first one and the one that ends the second
stand in different lines, though nothing is between them. -/
theorem place_determines_offset_empty_line :
    let s := "ab\n\ncd".toList
    2 < s.length ∧ 3 < s.length ∧
      (lineNumber s 2, columnNumber s 2) = (1, 2) ∧ (lineNumber s 3, columnNumber s 3) = (2, 0) ∧
      toLex (lineNumber s 2, columnNumber s 2) < toLex (lineNumber s 3, columnNumber s 3) ∧
      (((splitOn '\n' s).take (lineNumber s 3 - 1)).map (·.length + 1)).sum +
        columnNumber s 3 = 3 := by
  obtain ⟨places, _, grows⟩ := place_determines_offset "ab\n\ncd".toList
  have feed : 2 ∈ Set.Iic "ab\n\ncd".toList.length := Set.mem_Iic.mpr (by decide)
  have next : 3 ∈ Set.Iic "ab\n\ncd".toList.length := Set.mem_Iic.mpr (by decide)
  exact ⟨by decide, by decide, by decide, by decide, grows feed next (by decide),
    (places 3 next).2.2.2⟩

end ComponentAtlas.Text
