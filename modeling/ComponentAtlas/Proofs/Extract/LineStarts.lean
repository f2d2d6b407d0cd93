import ComponentAtlas.Extract.Python
import ComponentAtlas.Proofs.Source.Comments

/-!
Import statements stand at the start of a line. A line feed inside of a list of names, or inside of
its comments, is never followed by one, whatever the layout, since no name is a keyword.
-/

namespace ComponentAtlas.Python

open Text Recognizer
open Cursor (between)

/-- The text goes on with blanks and with the keyword between blanks. -/
def KeywordLine (keyword : List Char) : List Char → Prop :=
  AfterGap (Behind keyword (AfterBreak fun _ => True))

/-- No line behind a line feed starts with the keyword. -/
def Calm (keyword s : List Char) : Prop :=
  ∀ front back, s = front ++ '\n' :: back → ¬ KeywordLine keyword back

/-- No line starts with the keyword, nor does the text itself. -/
structure Tame (keyword s : List Char) : Prop where
  start : ¬ KeywordLine keyword s
  later : Calm keyword s

section Keywords

/-- The words that start an import. -/
def IsKeyword (keyword : List Char) : Prop := keyword = "from".toList ∨ keyword = "import".toList

theorem isKeyword_from : IsKeyword "from".toList := .inl rfl

theorem isKeyword_import : IsKeyword "import".toList := .inr rfl

instance : DecidablePred IsKeyword := fun _ => inferInstanceAs (Decidable (_ ∨ _))

theorem IsKeyword.nonempty {keyword : List Char} (h : IsKeyword keyword) : keyword ≠ [] := by
  rcases h with rfl | rfl <;> decide

theorem IsKeyword.parts {keyword : List Char} (h : IsKeyword keyword) :
    ∀ c ∈ keyword, isNamePart c = true := by
  rcases h with rfl | rfl <;> exact List.all_eq_true.mp (by decide)

theorem IsKeyword.notAlias {keyword : List Char} (h : IsKeyword keyword) :
    keyword ≠ "as".toList := by
  rcases h with rfl | rfl <;> decide

/-- No name of the item is a keyword. -/
def Unreserved (i : NamedItem) : Prop := ∀ n ∈ i.names, ¬ IsKeyword n.chars

instance : DecidablePred Unreserved := fun i =>
  inferInstanceAs (Decidable (∀ n ∈ i.names, ¬ IsKeyword n.chars))

variable {keyword s t run : List Char} {c : Char}

theorem IsKeyword.head?_any (h : IsKeyword keyword) (rest : List Char) :
    (keyword ++ rest).head?.any isBlank = false := by
  obtain ⟨k, letters, split⟩ := List.exists_cons_of_ne_nil h.nonempty
  have part := h.parts k (split ▸ List.mem_cons_self)
  rw [split]
  exact Bool.eq_false_iff.mpr fun blank =>
    Bool.noConfusion (part.symm.trans (isNamePart_of_isBlank blank))

theorem KeywordLine.behind (h : KeywordLine keyword (t ++ s)) (known : IsKeyword keyword)
    (blank : ∀ c ∈ t, isBlank c = true) (starts : s.head?.any isBlank = false) :
    ∃ more, s = keyword ++ more ∧ AfterBreak (fun _ => True) more := by
  refine AfterGap.behind h ?_ blank starts
  rintro _ ⟨more, rfl, _⟩
  exact known.head?_any more

theorem not_keywordLine_nil (known : IsKeyword keyword) : ¬ KeywordLine keyword [] := by
  intro h
  obtain ⟨more, split, _⟩ := KeywordLine.behind (t := []) h known (List.forall_mem_nil _) rfl
  exact known.nonempty (List.append_eq_nil_iff.mp split.symm).1

/-- A name that is not the keyword does not start its line. -/
theorem not_keywordLine_run (known : IsKeyword keyword) (nonempty : run ≠ [])
    (parts : ∀ c ∈ run, isNamePart c = true) (other : run ≠ keyword)
    (stop : s.head?.any isNamePart = false) : ¬ KeywordLine keyword (run ++ s) := by
  intro h
  obtain ⟨c, letters, split⟩ := List.exists_cons_of_ne_nil nonempty
  have solid : (run ++ s).head?.any isBlank = false := by
    have part := parts c (split ▸ List.mem_cons_self)
    rw [split]
    exact Bool.eq_false_iff.mpr fun blank =>
      Bool.noConfusion (part.symm.trans (isNamePart_of_isBlank blank))
  obtain ⟨_, same, gap, more, rfl, _⟩ := KeywordLine.behind (t := []) h known
    (List.forall_mem_nil _) solid
  exact other (eq_of_runs parts known.parts stop (gap.head?_any_isNamePart more) same).1

theorem not_keywordLine_cons (known : IsKeyword keyword) (solid : isBlank c = false)
    (part : isNamePart c = false) : ¬ KeywordLine keyword (c :: s) := by
  intro h
  obtain ⟨more, same, _⟩ := KeywordLine.behind (t := []) h known (List.forall_mem_nil _) solid
  obtain ⟨k, letters, split⟩ := List.exists_cons_of_ne_nil known.nonempty
  rw [split, List.cons_append] at same
  obtain ⟨rfl, _⟩ := List.cons.inj same
  exact Bool.noConfusion (part.symm.trans (known.parts c (split ▸ List.mem_cons_self)))

/-- Blanks in front do not make a line one of the keyword. -/
theorem KeywordLine.of_append (h : KeywordLine keyword (t ++ s)) (known : IsKeyword keyword)
    (blank : ∀ c ∈ t, isBlank c = true) : KeywordLine keyword s := by
  obtain ⟨gap, rest, split, more, rfl, follows⟩ := h
  rcases List.append_eq_append_iff.mp split with ⟨j, whole, rfl⟩ | ⟨j, rfl, beyond⟩
  · exact ⟨⟨j, fun c hc => gap.blank c (whole ▸ List.mem_append_right t hc)⟩, _, rfl, more, rfl,
      follows⟩
  · cases j with
    | nil => exact ⟨.empty, _, rfl, more, beyond.symm, follows⟩
    | cons c j =>
        have solid := known.head?_any more
        have first := blank c (List.mem_append_right _ List.mem_cons_self)
        rw [beyond, List.cons_append, List.head?_cons, Option.any_some, first] at solid
        cases solid

end Keywords

section Calm

variable {keyword s t run : List Char} {c : Char}

theorem calm_nil (keyword : List Char) : Calm keyword [] := fun front back split => by
  simp at split

theorem calm_append (h : '\n' ∉ t) (later : Calm keyword s) : Calm keyword (t ++ s) := by
  intro front back split
  rcases List.append_eq_append_iff.mp split with ⟨j, _, rfl⟩ | ⟨j, rfl, beyond⟩
  · exact later j back rfl
  · cases j with
    | nil => exact later [] back beyond.symm
    | cons c j =>
        obtain ⟨rfl, _⟩ := List.cons.inj beyond
        exact absurd (List.mem_append_right front List.mem_cons_self) h

variable (known : IsKeyword keyword)
include known

theorem Tame.gap (h : Tame keyword s) (blank : ∀ c ∈ t, isBlank c = true) :
    Tame keyword (t ++ s) where
  start line := h.start (line.of_append known blank)
  later front back split := by
    rcases List.append_eq_append_iff.mp split with ⟨j, _, rfl⟩ | ⟨j, rfl, beyond⟩
    · exact h.later j back rfl
    · cases j with
      | nil => exact h.later [] back beyond.symm
      | cons c j =>
          obtain ⟨rfl, rfl⟩ := List.cons.inj beyond
          have inside : ∀ c ∈ j, isBlank c = true := fun c hc =>
            blank c (List.mem_append_right front (List.mem_cons_of_mem _ hc))
          exact fun line => h.start (line.of_append known inside)

theorem tame_nil : Tame keyword [] := ⟨not_keywordLine_nil known, calm_nil keyword⟩

theorem tame_cons (solid : isBlank c = false) (part : isNamePart c = false)
    (later : Calm keyword s) : Tame keyword (c :: s) := by
  have noFeed : '\n' ∉ [c] := fun inside =>
    absurd solid (by rw [← List.mem_singleton.mp inside]; decide)
  exact ⟨not_keywordLine_cons known solid part, calm_append noFeed later⟩

theorem tame_run (nonempty : run ≠ []) (parts : ∀ c ∈ run, isNamePart c = true)
    (other : run ≠ keyword) (stop : s.head?.any isNamePart = false) (later : Calm keyword s) :
    Tame keyword (run ++ s) := by
  have noFeed : '\n' ∉ run := fun inside => absurd (parts _ inside) (by decide)
  exact ⟨not_keywordLine_run known nonempty parts other stop, calm_append noFeed later⟩

end Calm

section Lists

variable {keyword rest : List Char} (known : IsKeyword keyword)

include known

/-- An item whose names are other than the keyword. -/
theorem Tame.item {i : NamedItem} (other : Unreserved i)
    (stop : rest.head?.any isNamePart = false) (later : Calm keyword rest) :
    Tame keyword (i.text ++ rest) := by
  have other : ∀ n ∈ i.names, n.chars ≠ keyword := fun n hn same => other n hn (same ▸ known)
  obtain ⟨name, alias?⟩ := i
  cases alias? with
  | none =>
      rw [NamedItem.text, NamedItem.aliasText, List.append_nil]
      exact tame_run known name.nonempty name.parts (other name List.mem_cons_self) stop later
  | some mark =>
      obtain ⟨front, back, shown⟩ := mark
      have last := tame_run known shown.nonempty shown.parts
        (other shown (List.mem_cons_of_mem _ List.mem_cons_self)) stop later
      have word := tame_run known (by decide) (List.all_eq_true.mp (by decide))
        known.notAlias.symm
        (back.head?_any_isNamePart _) (last.gap known back.blank).later
      have first := tame_run known name.nonempty name.parts (other name List.mem_cons_self)
        (front.head?_any_isNamePart _) (word.gap known front.blank).later
      simpa only [NamedItem.text, NamedItem.aliasText, List.append_assoc] using first

/-- Comments may say what they like. -/
theorem Tame.filler (f : Filler) (later : Tame keyword rest) :
    Tame keyword (f.text ['#'] ++ rest) := by
  obtain ⟨gap, remarks⟩ := f
  induction remarks generalizing gap with
  | nil =>
      rw [Filler.text_of_bare rfl]
      exact later.gap known gap.blank
  | cons r remarks ih =>
      have behind := (ih r.2).gap known (t := ['\n'])
        (List.all_eq_true.mp (by decide))
      have remark := tame_cons (c := '#') known (by decide) (by decide)
        (calm_append r.1.oneLine behind.later)
      have whole := remark.gap known gap.blank
      rw [Filler.text_cons]
      simpa using whole

theorem Tame.entry {e : ListedItem} (other : Unreserved e.item)
    (stop : rest.head?.any isNamePart = false) (later : Tame keyword rest) :
    Tame keyword (e.text ['#'] ++ rest) := by
  have tail := Tame.filler known e.tail later
  have item := Tame.item known other (e.tail.head?_any_isNamePart stop) tail.later
  have whole := Tame.filler known e.lead item
  simpa only [ListedItem.text, List.append_assoc] using whole

/-- A list of names, over however many lines. -/
theorem Tame.list (l : NameList) (other : ∀ e ∈ l.entries, Unreserved e.item)
    (stop : rest.head?.any isNamePart = false) (later : Tame keyword rest) :
    Tame keyword (l.text ['#'] ++ rest) := by
  obtain ⟨entries, nonempty, trailing⟩ := l
  induction entries with
  | nil => exact absurd rfl nonempty
  | cons e entries ih =>
      have here := other e List.mem_cons_self
      cases entries with
      | nil =>
          cases trailing with
          | none =>
              rw [NameList.text_single]
              exact Tame.entry known here stop later
          | some f =>
              have comma := tame_cons (c := ',') known (by decide) (by decide)
                (Tame.filler known f later).later
              rw [NameList.text_trailing, List.append_assoc]
              exact Tame.entry known here rfl comma
      | cons next entries =>
          have behind := ih (List.cons_ne_nil next entries) fun e he =>
            other e (List.mem_cons_of_mem _ he)
          have comma := tame_cons (c := ',') known (by decide) (by decide) behind.later
          rw [NameList.text_cons_cons, List.append_assoc]
          exact Tame.entry known here rfl comma

end Lists

section Search

variable {α : Type} {r : Recognizer α} {keyword before rest : List Char}
  (h : r.Offers fun c _ _ => c.before.all (· == '\n') = true ∧ KeywordLine keyword c.rest)
include h

theorem at?_eq_none_of_line
    (here : before.getLast?.all (· == '\n') = true → ¬ KeywordLine keyword rest) :
    r.at? (between before rest) = none := by
  refine Option.eq_none_iff_forall_ne_some.mpr fun m found => ?_
  obtain ⟨_, start, line⟩ := h.at found
  exact here start line

/-- Nothing is found behind a place where no line starts with the keyword. -/
theorem allBehind_eq_nil (calm : Calm keyword rest)
    (here : before.getLast?.all (· == '\n') = true → ¬ KeywordLine keyword rest) :
    r.allBehind before rest = [] := by
  have nowhere := at?_eq_none_of_line h here
  induction rest generalizing before with
  | nil =>
      have nowhere : r.at? ⟨before.getLast?, before.length, []⟩ = none := nowhere
      rw [allBehind, allFrom, if_neg (Nat.lt_irrefl _), nowhere]
      rfl
  | cons c rest ih =>
      have next : (before ++ [c]).getLast?.all (· == '\n') = true → ¬ KeywordLine keyword rest := by
        intro start
        rw [List.getLast?_concat, Option.all_some, beq_iff_eq] at start
        exact calm [] rest (congrArg (· :: rest) start)
      have later : Calm keyword rest := fun front back split =>
        calm (c :: front) back (congrArg (c :: ·) split)
      rw [allBehind_cons_of_none nowhere]
      exact ih later next (at?_eq_none_of_line h next)

end Search

end ComponentAtlas.Python
