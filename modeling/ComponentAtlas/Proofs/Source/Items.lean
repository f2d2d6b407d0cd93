import ComponentAtlas.Proofs.Source.Names
import ComponentAtlas.Proofs.Text.Search

/-!
Items of a list of names: a name, possibly under an alias. The alias mark is found between the two
names and nowhere inside of them, so an item between blanks comes apart into its names.
-/

namespace ComponentAtlas

open Text Recognizer
open Cursor (between)

section Names

/-- A character of a word, or a dollar sign. -/
def isNamePart (c : Char) : Bool := isWord c || c == '$'

structure Name where
  chars : List Char
  nonempty : chars ≠ []
  parts : ∀ c ∈ chars, isNamePart c = true

def Name.text (n : Name) : String := String.ofList n.chars

/-- A name of one character. -/
def Name.ofChar (c : Char) (part : isNamePart c = true) : Name :=
  ⟨[c], singleton_ne_nil c, fun _ hd => List.mem_singleton.mp hd ▸ part⟩

def Name.a : Name := .ofChar 'a' rfl

def Name.b : Name := .ofChar 'b' rfl

theorem isNamePart_of_isBlank {c : Char} (h : isBlank c = true) : isNamePart c = false := by
  have dollar : (c == '$') = false := beq_eq_false_iff_ne.mpr fun e => absurd h (by rw [e]; decide)
  rw [isNamePart, isWord_of_isBlank h, dollar]
  rfl

namespace Name

variable (n : Name)

theorem not_mem {c : Char} (h : isNamePart c = false) : c ∉ n.chars := fun inside =>
  Bool.noConfusion (h.symm.trans (n.parts c inside))

theorem solid : ∀ c ∈ n.chars, isBlank c = false := fun _ hc =>
  Bool.eq_false_iff.mpr fun blank => n.not_mem (isNamePart_of_isBlank blank) hc

theorem exists_head? (rest : List Char) :
    ∃ c, (n.chars ++ rest).head? = some c ∧ isNamePart c = true := by
  obtain ⟨c, chars, split⟩ := List.exists_cons_of_ne_nil n.nonempty
  rw [split]
  exact ⟨c, rfl, n.parts c (split ▸ List.mem_cons_self)⟩

theorem head?_any (rest : List Char) : (n.chars ++ rest).head?.any isBlank = false := by
  obtain ⟨c, first, part⟩ := n.exists_head? rest
  rw [first]
  exact Bool.eq_false_iff.mpr fun blank =>
    Bool.noConfusion (part.symm.trans (isNamePart_of_isBlank blank))

end Name

/-- A name, possibly under an alias. -/
structure NamedItem where
  name : Name
  alias? : Option (Break × Break × Name)

namespace NamedItem

def aliasText : Option (Break × Break × Name) → List Char
  | none => []
  | some (front, back, other) => front.chars ++ ("as".toList ++ (back.chars ++ other.chars))

def text (i : NamedItem) : List Char := i.name.chars ++ aliasText i.alias?

/-- The alias, or the name where there is none. -/
def shown (i : NamedItem) : Name :=
  match i.alias? with
  | none => i.name
  | some (_, _, other) => other

/-- The names of the item, in order. -/
def names (i : NamedItem) : List Name :=
  match i.alias? with
  | none => [i.name]
  | some (_, _, other) => [i.name, other]

/-- The name on one side of the alias mark. -/
def nameOn (i : NamedItem) : AliasSide → Name
  | .sourceName => i.name
  | .localName => i.shown

end NamedItem

end Names

section Pieces

variable {s gap rest : List Char}

theorem not_startsAlias_nil : ¬ StartsAlias [] := by
  rintro ⟨x, y, more, front, back, split, _⟩
  cases split

/-- Behind blanks an alias mark goes on with its word. -/
theorem head?_of_startsAlias (blank : ∀ c ∈ gap, isBlank c = true)
    (solid : rest.head?.any isBlank = false) (h : StartsAlias (gap ++ rest)) :
    ∃ y more, rest = "as".toList ++ y :: more ∧ isBlank y = true := by
  obtain ⟨x, y, more, front, back, split, blanks, blanks'⟩ := h
  rw [List.append_assoc, List.append_assoc] at split
  obtain ⟨_, rfl⟩ := eq_of_runs blank blanks solid rfl split
  exact ⟨y, back ++ more, rfl, blanks' y List.mem_cons_self⟩

theorem absent_startsAlias_solid (h : ∀ c ∈ s, isBlank c = false) (rest : List Char) :
    Absent StartsAlias s rest := by
  refine absent_of_suffixes ?_
  rintro front back rfl some_left ⟨x, y, more, run, run', split, blanks, _⟩
  obtain ⟨c, back, rfl⟩ := List.exists_cons_of_ne_nil some_left
  obtain ⟨rfl, _⟩ := List.cons.inj split
  have solid := h c (List.mem_append_right front List.mem_cons_self)
  exact Bool.noConfusion (solid.symm.trans (blanks c List.mem_cons_self))

theorem absent_startsAlias_of_words (h : "as".toList ∉ words s) : Absent StartsAlias s [] := by
  refine absent_of_suffixes ?_
  rintro front back rfl _ ⟨x, y, more, run, run', split, blanks, blanks'⟩
  have shape : back = x :: (run ++ ("as".toList ++ y :: (run' ++ more))) := by simpa using split
  have mark : words "as".toList = ["as".toList] := by decide
  rw [shape, words_append_cons (blanks x List.mem_cons_self),
    words_append_left fun c hc => blanks c (List.mem_cons_of_mem x hc),
    words_append_cons (blanks' y List.mem_cons_self), mark] at h
  exact h (List.mem_append_right _ List.mem_cons_self)

/-- The first piece of a text reaches over a character that is no blank, where no alias mark stands
before it. -/
theorem exists_mem_firstPiece {c : Char} (solid : isBlank c = false) {t : List Char}
    (h : Absent StartsAlias s (c :: t)) :
    ∃ first pieces, aliasMark.splitBy (s ++ c :: t) = first :: pieces ∧ c ∈ first := by
  have inside : ¬ StartsAlias (c :: t) := by
    rintro ⟨x, y, more, front, back, split, blanks, _⟩
    obtain ⟨rfl, _⟩ := List.cons.inj split
    exact Bool.noConfusion (solid.symm.trans (blanks c List.mem_cons_self))
  obtain ⟨first, pieces, after, cut, split, ends⟩ := exists_firstPiece (s ++ c :: t)
  refine ⟨first, pieces, cut, ?_⟩
  rcases List.append_eq_append_iff.mp split with ⟨j, rfl, beyond⟩ | ⟨j, rfl, rfl⟩
  · cases j with
    | nil =>
        rw [List.nil_append] at beyond
        subst beyond
        exact absurd (ends.resolve_left (List.cons_ne_nil c t)) inside
    | cons d j =>
        obtain ⟨rfl, _⟩ := List.cons.inj beyond
        exact List.mem_append_right _ List.mem_cons_self
  · have starts := ends.resolve_left (by simp)
    cases j with
    | nil => exact absurd starts inside
    | cons d j => exact absurd starts (h.not_behind (List.cons_ne_nil d j))

/-- A text without an alias mark stays in one piece. -/
theorem splitBy_of_absent (h : Absent StartsAlias s []) : aliasMark.splitBy s = [s] := by
  rw [splitBy, all_eq_nil aliasMark_offers h not_startsAlias_nil, piecesAround]

/-- A text with an alias mark behind its first word is cut there, and nowhere else where no other
mark follows. -/
theorem splitBy_of_marked (front back : Break) {name : List Char}
    (solid : ∀ c ∈ name, isBlank c = false) (starts : rest.head?.any isBlank = false)
    (h : Absent StartsAlias rest []) :
    aliasMark.splitBy (name ++ (front.chars ++ ("as".toList ++ (back.chars ++ rest)))) =
      [name, rest] := by
  have mark : aliasMark.Prefers
      (between name (front.chars ++ "as".toList ++ back.chars ++ rest)) ()
      (between (name ++ (front.chars ++ "as".toList ++ back.chars)) rest) := by
    have way : aliasMark.Prefers
        (between name (front.chars ++ ("as".toList ++ (back.chars ++ rest)))) () _ :=
      (prefers_blanks1 front rfl).bind <| (prefers_literal "as" _ _).bind <|
        prefers_blanks1 back starts
    simpa using way
  have found : aliasMark.all (name ++ (front.chars ++ "as".toList ++ back.chars ++ rest)) =
      [⟨(), between name (front.chars ++ "as".toList ++ back.chars ++ rest),
        between (name ++ (front.chars ++ "as".toList ++ back.chars)) rest⟩] := by
    have nonempty : front.chars ++ "as".toList ++ back.chars ≠ [] := by simp [front.nonempty]
    have passing := allBehind_append_of_absent aliasMark_offers h
      (name ++ (front.chars ++ "as".toList ++ back.chars))
    rw [List.append_nil] at passing
    rw [all_eq_allBehind,
      allBehind_append_of_absent aliasMark_offers (absent_startsAlias_solid solid _),
      List.nil_append, allBehind_of_at mark.at rfl nonempty, passing,
      allBehind_nil aliasMark_offers not_startsAlias_nil]
  have shape : name ++ (front.chars ++ ("as".toList ++ (back.chars ++ rest))) =
      name ++ (front.chars ++ "as".toList ++ back.chars ++ rest) := by simp
  rw [shape, splitBy, found, piecesAround, piecesAround]
  simp [between]

theorem NamedItem.splitBy_text (i : NamedItem) :
    aliasMark.splitBy i.text = i.names.map Name.chars := by
  obtain ⟨name, alias?⟩ := i
  cases alias? with
  | none =>
      have whole := splitBy_of_absent (absent_startsAlias_solid name.solid [])
      simpa [text, aliasText, names] using whole
  | some mark =>
      obtain ⟨front, back, other⟩ := mark
      have starts := other.head?_any []
      rw [List.append_nil] at starts
      exact splitBy_of_marked front back name.solid starts (absent_startsAlias_solid other.solid [])

end Pieces

section Trimming

variable {front back s t : List Char}

theorem trimRightOf_append {p : Char → Bool} (blank : ∀ c ∈ back, p c = true) (s : List Char) :
    trimRightOf p (s ++ back) = trimRightOf p s := by
  rw [trimRightOf, List.reverse_append, List.dropWhile_append_of_pos, trimRightOf]
  exact fun c hc => blank c (List.mem_reverse.mp hc)

/-- What stands before a character that stays is not trimmed on the right. -/
theorem trimRightOf_append_solid {p : Char → Bool} {c : Char} (stop : p c = false)
    (s t : List Char) : trimRightOf p (s ++ c :: t) = s ++ c :: trimRightOf p t := by
  have stays : List.dropWhile p (c :: s.reverse) = c :: s.reverse :=
    List.dropWhile_cons_of_neg (by simp [stop])
  rw [trimRightOf, List.reverse_append, List.reverse_cons, List.append_assoc, List.singleton_append,
    List.dropWhile_append, stays, trimRightOf]
  split
  · rename_i empty
    simp [List.isEmpty_iff.mp empty]
  · simp

theorem trimRightOf_of_last {p : Char → Bool} (h : s.getLast?.any p = false) :
    trimRightOf p s = s := by
  rcases List.eq_nil_or_concat s with rfl | ⟨most, last, rfl⟩
  · rfl
  · rw [List.concat_eq_append] at h ⊢
    exact trimRightOf_append_cons most (by simpa using h) (by simp)

theorem trimLeft_of_head (h : s.head?.any isBlank = false) : trimLeft s = s := by
  cases s with
  | nil => rfl
  | cons c s => exact trimLeft_cons h s

/-- Blanks around a text are trimmed. -/
theorem trimChars_between (blank : ∀ c ∈ front, isBlank c = true)
    (blank' : ∀ c ∈ back, isBlank c = true) (s : List Char) :
    trimChars (front ++ s ++ back) = trimChars s := by
  have nothing : trimLeft back = [] := List.dropWhile_eq_nil_iff.mpr blank'
  rw [trimChars, List.append_assoc, trimLeft_append blank, trimLeft, List.dropWhile_append,
    ← trimLeft, ← trimLeft, nothing, trimChars]
  split
  · rename_i empty
    rw [List.isEmpty_iff.mp empty]
  · exact trimRightOf_append blank' _

theorem head?_trimChars {c : Char} (solid : isBlank c = false) (s : List Char) :
    (trimChars (c :: s)).head? = some c := by
  have stays : ¬ ∀ d ∈ c :: s, isBlank d = true := fun all =>
    Bool.noConfusion (solid.symm.trans (all c List.mem_cons_self))
  obtain ⟨kept, first⟩ := trimRightOf_cons stays
  rw [trimChars, trimLeft_cons solid, first]
  rfl

theorem trimChars_of_ends (starts : s.head?.any isBlank = false)
    (ends : s.getLast?.any isBlank = false) : trimChars s = s := by
  rw [trimChars, trimLeft_of_head starts, trimRightOf_of_last ends]

/-- Trimming leaves what stands between the blanks in front and a character that is no blank. -/
theorem trimChars_append_solid {c : Char} (blank : ∀ c ∈ front, isBlank c = true)
    (starts : (s ++ [c]).head?.any isBlank = false) (solid : isBlank c = false) (t : List Char) :
    trimChars (front ++ (s ++ c :: t)) = s ++ c :: trimRightOf isBlank t := by
  have first : (s ++ c :: t).head?.any isBlank = false := by
    cases s with
    | nil => exact starts
    | cons d s => exact starts
  rw [trimChars, trimLeft_append blank, trimLeft_of_head first, trimRightOf_append_solid solid]

theorem Name.trimChars (n : Name) : trimChars n.chars = n.chars := by
  have ends : n.chars.getLast?.any isBlank = false := by
    rcases List.eq_nil_or_concat n.chars with none | ⟨most, last, split⟩
    · exact absurd none n.nonempty
    · have member : last ∈ n.chars := by simp [split]
      simpa [split] using n.solid last member
  have starts := n.head?_any []
  rw [List.append_nil] at starts
  exact trimChars_of_ends starts ends

end Trimming

section Reading

variable {front back : List Char}

namespace NamedItem

variable (i : NamedItem)

theorem names_cons : ∃ others, i.names = i.name :: others := by
  obtain ⟨name, alias?⟩ := i
  cases alias? with
  | none => exact ⟨[], rfl⟩
  | some mark => exact ⟨[mark.2.2], rfl⟩

theorem names_getLast? : i.names.getLast? = some i.shown := by
  obtain ⟨name, alias?⟩ := i
  cases alias? <;> rfl

theorem head?_text : i.text.head?.any isBlank = false := i.name.head?_any _

theorem text_ne_nil : i.text ≠ [] := fun nothing =>
  i.name.nonempty (List.append_eq_nil_iff.mp nothing).1

theorem getLast?_text : i.text.getLast?.any isBlank = false := by
  have ends (n : Name) (before : List Char) :
      (before ++ n.chars).getLast?.any isBlank = false := by
    rw [List.getLast?_append_of_ne_nil before n.nonempty]
    cases last : n.chars.getLast? with
    | none => rfl
    | some c => exact n.solid c (List.mem_of_getLast? last)
  obtain ⟨name, alias?⟩ := i
  cases alias? with
  | none => simpa [text, aliasText] using ends name []
  | some mark =>
      obtain ⟨first, second, other⟩ := mark
      have whole := ends other (name.chars ++ (first.chars ++ ("as".toList ++ second.chars)))
      simpa only [text, aliasText, List.append_assoc] using whole

/-- Between blanks an item is trimmed to its text. -/
theorem trimChars_text (blank : ∀ c ∈ front, isBlank c = true)
    (blank' : ∀ c ∈ back, isBlank c = true) : trimChars (front ++ i.text ++ back) = i.text := by
  rw [trimChars_between blank blank', trimChars_of_ends i.head?_text i.getLast?_text]

theorem pick_splitBy_text (side : AliasSide) :
    side.pick (aliasMark.splitBy i.text) = (i.nameOn side).chars := by
  rw [i.splitBy_text]
  cases side with
  | sourceName =>
      obtain ⟨others, names⟩ := i.names_cons
      rw [names]
      rfl
  | localName => simp [AliasSide.pick, List.getLast?_map, i.names_getLast?, nameOn]

/-- An item between blanks counts by its name on the side asked for. -/
theorem itemName?_text {side : AliasSide} (blank : ∀ c ∈ front, isBlank c = true)
    (blank' : ∀ c ∈ back, isBlank c = true) :
    itemName? side (front ++ i.text ++ back) = some (i.nameOn side).text := by
  have some_item : i.text.isEmpty = false := List.isEmpty_eq_false_iff.mpr i.text_ne_nil
  have some_name : (i.nameOn side).chars.isEmpty = false :=
    List.isEmpty_eq_false_iff.mpr (i.nameOn side).nonempty
  rw [itemName?, i.trimChars_text blank blank']
  simp only [i.pick_splitBy_text, (i.nameOn side).trimChars, some_item, some_name, Bool.or_self,
    Bool.false_eq_true, if_false, Name.text]

/-- A character that stands neither in names nor in blanks nor in the alias mark is not in an
item. -/
theorem not_mem_text {c : Char} (part : isNamePart c = false) (solid : isBlank c = false) :
    c ∉ i.text := by
  have notGap (g : Break) : c ∉ g.chars := not_mem_of_blank g.blank solid
  have notMark : c ∉ "as".toList := fun inside => by
    have letters : ∀ d ∈ "as".toList, isNamePart d = true := List.all_eq_true.mp (by decide)
    exact Bool.noConfusion (part.symm.trans (letters c inside))
  obtain ⟨name, alias?⟩ := i
  cases alias? with
  | none => simpa [text, aliasText] using name.not_mem part
  | some mark =>
      obtain ⟨first, second, other⟩ := mark
      simp only [text, aliasText, List.mem_append, not_or]
      exact ⟨name.not_mem part, notGap first, notMark, notGap second, other.not_mem part⟩

end NamedItem

theorem itemName?_of_blank {side : AliasSide} (blank : ∀ c ∈ front, isBlank c = true) :
    itemName? side front = none := by
  have nothing : trimChars front = [] := by
    rw [trimChars, show trimLeft front = [] from List.dropWhile_eq_nil_iff.mpr blank]
    rfl
  rw [itemName?, nothing]
  rfl

end Reading

end ComponentAtlas
