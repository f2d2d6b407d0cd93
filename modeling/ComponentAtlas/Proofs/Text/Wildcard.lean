import ComponentAtlas.Text.Wildcard

/-!
What wildcard patterns fit, by what they start with. A star leaves it open what stands in front of
the rest, and characters without a meaning of their own have to stand there as they are. So a
literal fits itself only, and with stars around it the texts that end with it, start with it or
hold it anywhere.
-/

namespace ComponentAtlas.Text

section Parts

theorem anyEnd_iff {p : List Char → Bool} {s : List Char} :
    anyEnd p s = true ↔ ∃ front back, s = front ++ back ∧ p back = true := by
  induction s with
  | nil =>
      constructor
      · intro here
        exact ⟨[], [], rfl, here⟩
      · rintro ⟨front, back, split, here⟩
        rw [(List.append_eq_nil_iff.mp split.symm).2] at here
        exact here
  | cons c s ih =>
      rw [anyEnd, Bool.or_eq_true, ih]
      constructor
      · rintro (here | ⟨front, back, rfl, later⟩)
        · exact ⟨[], c :: s, rfl, here⟩
        · exact ⟨c :: front, back, rfl, later⟩
      · rintro ⟨front, back, split, found⟩
        cases front with
        | nil => exact .inl (split ▸ found)
        | cons d front =>
            obtain ⟨rfl, rfl⟩ := List.cons.inj split
            exact .inr ⟨front, back, rfl, found⟩

theorem fitsParts_exactly_append_iff {word s : List Char} {ps : List WildcardPart} :
    fitsParts (word.map .exactly ++ ps) s = true ↔
      ∃ back, s = word ++ back ∧ fitsParts ps back = true := by
  induction word generalizing s with
  | nil => simp
  | cons c word ih =>
      cases s with
      | nil => simp [fitsParts]
      | cons d s =>
          rw [List.map_cons, List.cons_append, fitsParts, Bool.and_eq_true, beq_iff_eq, ih]
          constructor
          · rintro ⟨rfl, back, rfl, fit⟩
            exact ⟨back, rfl, fit⟩
          · rintro ⟨back, split, fit⟩
            obtain ⟨rfl, rfl⟩ := List.cons.inj split
            exact ⟨rfl, back, rfl, fit⟩

theorem wildcardParts_star (rest : List Char) :
    wildcardParts ('*' :: rest) = .text :: wildcardParts rest := by
  rw [wildcardParts]
  rfl

theorem wildcardParts_literal {word : List Char} (h : ∀ c ∈ word, c ∉ ['*', '?', '['])
    (rest : List Char) :
    wildcardParts (word ++ rest) = word.map .exactly ++ wildcardParts rest := by
  induction word with
  | nil => rfl
  | cons c word ih =>
      have plain := h c List.mem_cons_self
      simp only [List.mem_cons, List.not_mem_nil, or_false, not_or] at plain
      rw [List.cons_append, wildcardParts]
      simp only [beq_iff_eq, plain, if_false]
      rw [ih fun d hd => h d (List.mem_cons_of_mem c hd)]
      rfl

end Parts

section Patterns

/-- No character of the text has a meaning of its own in a pattern. -/
def Literal (s : String) : Prop := ∀ c ∈ s.toList, c ∉ ['*', '?', '[']

instance : DecidablePred Literal := fun s => List.decidableBAll (· ∉ ['*', '?', '[']) s.toList

variable {pattern word s : String}

theorem Literal.not_mem_star (plain : Literal word) : '*' ∉ word.toList := fun member =>
  plain '*' member List.mem_cons_self

theorem Literal.append {next : String} (plain : Literal word) (more : Literal next) :
    Literal (word ++ next) := by
  intro c hc
  rw [String.toList_append, List.mem_append] at hc
  exact hc.elim (plain c) (more c)

theorem fits_empty_iff : fits "" s = true ↔ s = "" := by
  rw [fits, String.toList_empty, wildcardParts, fitsParts, List.isEmpty_iff]
  exact String.toList_eq_nil_iff

theorem fits_star_iff :
    fits ("*" ++ pattern) s = true ↔
      ∃ front back, s = front ++ back ∧ fits pattern back = true := by
  have parts : wildcardParts ("*" ++ pattern).toList = .text :: wildcardParts pattern.toList := by
    rw [String.toList_append]
    exact wildcardParts_star pattern.toList
  rw [fits, parts, fitsParts, anyEnd_iff]
  constructor
  · rintro ⟨front, back, split, fit⟩
    refine ⟨String.ofList front, String.ofList back, ?_, ?_⟩
    · rw [← String.ofList_append, ← split, String.ofList_toList]
    · rw [fits, String.toList_ofList]
      exact fit
  · rintro ⟨front, back, rfl, fit⟩
    exact ⟨front.toList, back.toList, String.toList_append, fit⟩

theorem fits_literal_append_iff (plain : Literal word) :
    fits (word ++ pattern) s = true ↔ ∃ back, s = word ++ back ∧ fits pattern back = true := by
  rw [fits, String.toList_append, wildcardParts_literal plain, fitsParts_exactly_append_iff]
  constructor
  · rintro ⟨back, split, fit⟩
    refine ⟨String.ofList back, ?_, ?_⟩
    · rw [← String.ofList_toList (s := s), split, String.ofList_append, String.ofList_toList]
    · rw [fits, String.toList_ofList]
      exact fit
  · rintro ⟨back, rfl, fit⟩
    exact ⟨back.toList, String.toList_append, fit⟩

theorem fits_stars (s : String) : fits "**" s = true := by
  have star : fits ("*" ++ "") s = true :=
    fits_star_iff.mpr ⟨s, "", String.append_empty.symm, fits_empty_iff.mpr rfl⟩
  have stars : fits ("*" ++ "*") s = true :=
    fits_star_iff.mpr ⟨"", s, String.empty_append.symm, star⟩
  exact stars

variable (plain : Literal word)
include plain

theorem fits_literal_iff : fits word s = true ↔ s = word := by
  rw [← String.append_empty (s := word), fits_literal_append_iff plain]
  simp only [fits_empty_iff, exists_eq_right, String.append_empty]

theorem fits_star_literal_iff : fits ("*" ++ word) s = true ↔ ∃ front, s = front ++ word := by
  simp only [fits_star_iff, fits_literal_iff plain, exists_eq_right]

theorem fits_literal_stars_iff : fits (word ++ "**") s = true ↔ ∃ back, s = word ++ back := by
  simp only [fits_literal_append_iff plain, fits_stars, and_true]

theorem fits_stars_literal_stars_iff :
    fits ("**" ++ (word ++ "**")) s = true ↔ ∃ front back, s = front ++ (word ++ back) := by
  have stars : "**" ++ (word ++ "**") = "*" ++ ("*" ++ (word ++ "**")) := by
    rw [← String.append_assoc]
    rfl
  rw [stars]
  simp only [fits_star_iff, fits_literal_stars_iff plain]
  constructor
  · rintro ⟨front, _, rfl, between, _, rfl, back, rfl⟩
    exact ⟨front ++ between, back, String.append_assoc.symm⟩
  · rintro ⟨front, back, rfl⟩
    exact ⟨front, _, rfl, "", _, String.empty_append.symm, back, rfl⟩

end Patterns

end ComponentAtlas.Text
