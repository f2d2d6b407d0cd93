import ComponentAtlas.Proofs.Source.Comments

/-!
Lists of names in any layout. Between any two tokens stand blanks and comments of both kinds, the
last comment may go on to the end of the text, and there may be nothing between two commas. However
a list is laid out, the two sides of its aliases are read back in order.
-/

namespace ComponentAtlas

open Text

/-! The layout. -/

inductive CommentMark where
  | hash
  | slashes

def CommentMark.chars : CommentMark → List Char
  | .hash => ['#']
  | .slashes => ['/', '/']

/-- One piece of what stands between two tokens. A comment comes with the line feed that ends it. -/
inductive Space where
  | blank (c : Char) (blank : isBlank c = true)
  | comment (mark : CommentMark) (remark : Remark)

namespace Space

def text : Space → List Char
  | blank c _ => [c]
  | comment mark remark => mark.chars ++ (remark.text ++ ['\n'])

/-- What stays when comments are dropped. -/
def left : Space → Char
  | blank c _ => c
  | comment _ _ => '\n'

theorem isBlank_left (s : Space) : isBlank s.left = true := by
  cases s with
  | blank c h => exact h
  | comment mark remark => rfl

end Space

/-- The text of what stands between two tokens. -/
def spacing (spaces : List Space) : List Char := spaces.flatMap Space.text

/-- The blanks that stay of it. -/
def Text.Gap.ofSpaces (spaces : List Space) : Gap where
  chars := spaces.map Space.left
  blank := List.forall_mem_map.mpr fun s _ => s.isBlank_left

/-- A name under an alias. Something parts the word `as` from the names on both sides, and be it a
comment with the line feed behind it. -/
structure Alias where
  front : List Space
  back : List Space
  name : Name
  front_nonempty : front ≠ []
  back_nonempty : back ≠ []

structure LaidItem where
  name : Name
  alias? : Option Alias

namespace LaidItem

def aliasText : Option Alias → List Char
  | none => []
  | some a => spacing a.front ++ ("as".toList ++ (spacing a.back ++ a.name.chars))

def text (i : LaidItem) : List Char := i.name.chars ++ aliasText i.alias?

/-- The alias, or the name where there is none. -/
def shown (i : LaidItem) : Name := (i.alias?.map Alias.name).getD i.name

/-- The item without its comments. -/
def bare (i : LaidItem) : NamedItem where
  name := i.name
  alias? := i.alias?.map fun a =>
    (⟨.ofSpaces a.front, mt List.map_eq_nil_iff.mp a.front_nonempty⟩,
      ⟨.ofSpaces a.back, mt List.map_eq_nil_iff.mp a.back_nonempty⟩, a.name)

theorem shown_bare (i : LaidItem) : i.bare.shown = i.shown := by
  obtain ⟨name, alias?⟩ := i
  cases alias? <;> rfl

end LaidItem

/-- What stands between two commas. -/
inductive Slot where
  | empty (spaces : List Space)
  | item (lead : List Space) (item : LaidItem) (tail : List Space)

namespace Slot

def text : Slot → List Char
  | empty spaces => spacing spaces
  | item lead i tail => spacing lead ++ (i.text ++ spacing tail)

def item? : Slot → Option LaidItem
  | empty _ => none
  | item _ i _ => some i

end Slot

/-- A list of names with its layout. The last comment need not end with a line feed. -/
structure Listing where
  slots : List Slot
  ending : Option (CommentMark × Remark)

namespace Listing

def endingText : Option (CommentMark × Remark) → List Char
  | none => []
  | some (mark, remark) => mark.chars ++ remark.text

def text (l : Listing) : List Char :=
  joinChars [','] (l.slots.map Slot.text) ++ endingText l.ending

def items (l : Listing) : List LaidItem := l.slots.filterMap Slot.item?

end Listing

/-! What comments leave. -/

section Dropping

variable {t : List Char}

theorem dropComments_mark (mark : CommentMark) (s : List Char) :
    ∃ front, '\n' ∉ front ∧
      dropComments false (mark.chars ++ s) = dropComments true (front ++ s) := by
  cases mark with
  | hash => exact ⟨[], by simp, by simp [CommentMark.chars, dropComments]⟩
  | slashes => exact ⟨['/'], by simp, by simp [CommentMark.chars, dropComments]⟩

theorem Space.dropComments_text (s : Space) (t : List Char) :
    dropComments false (s.text ++ t) = s.left :: dropComments false t := by
  cases s with
  | blank c h => exact dropComments_gap ⟨[c], by simpa using h⟩ t
  | comment mark remark =>
      obtain ⟨front, oneLine, opened⟩ := dropComments_mark mark (remark.text ++ '\n' :: t)
      have inside : '\n' ∉ front ++ remark.text := by simp [oneLine, remark.oneLine]
      have closed := dropComments_inside_append inside t
      rw [List.append_assoc] at closed
      simp only [text, List.append_assoc, List.singleton_append]
      rw [opened, closed]
      rfl

theorem dropComments_spacing (spaces : List Space) (t : List Char) :
    dropComments false (spacing spaces ++ t) =
      (Gap.ofSpaces spaces).chars ++ dropComments false t := by
  induction spaces with
  | nil => rfl
  | cons s spaces ih =>
      have shape : spacing (s :: spaces) ++ t = s.text ++ (spacing spaces ++ t) := by
        simp [spacing]
      rw [shape, s.dropComments_text, ih]
      rfl

theorem Name.dropComments_chars (n : Name) (t : List Char) :
    dropComments false (n.chars ++ t) = n.chars ++ dropComments false t :=
  dropComments_append (fun c hc => by
    constructor <;> rintro rfl <;> exact n.not_mem (by decide) hc) t

theorem LaidItem.dropComments_text (i : LaidItem) (t : List Char) :
    dropComments false (i.text ++ t) = i.bare.text ++ dropComments false t := by
  obtain ⟨name, alias?⟩ := i
  cases alias? with
  | none =>
      have whole := name.dropComments_chars t
      simpa [text, aliasText, bare, NamedItem.text, NamedItem.aliasText] using whole
  | some a =>
      have word (s : List Char) :
          dropComments false ("as".toList ++ s) = "as".toList ++ dropComments false s :=
        dropComments_append (by simp) s
      simp only [text, aliasText, bare, NamedItem.text, NamedItem.aliasText, Option.map_some,
        List.append_assoc]
      rw [name.dropComments_chars, dropComments_spacing, word, dropComments_spacing,
        a.name.dropComments_chars]

/-- What a slot leaves: an item without comments between blanks, or blanks. -/
def Slot.left : Slot → List Char
  | .empty spaces => (Gap.ofSpaces spaces).chars
  | .item lead i tail => (Gap.ofSpaces lead).chars ++ i.bare.text ++ (Gap.ofSpaces tail).chars

theorem Slot.dropComments_text (s : Slot) (t : List Char) :
    dropComments false (s.text ++ t) = s.left ++ dropComments false t := by
  cases s with
  | empty spaces => exact dropComments_spacing spaces t
  | item lead i tail =>
      simp only [text, left, List.append_assoc]
      rw [dropComments_spacing, i.dropComments_text, dropComments_spacing]

theorem dropComments_joinChars (slots : List Slot) (t : List Char) :
    dropComments false (joinChars [','] (slots.map Slot.text) ++ t) =
      joinChars [','] (slots.map Slot.left) ++ dropComments false t := by
  induction slots with
  | nil => rfl
  | cons s slots ih =>
      cases slots with
      | nil =>
          simp [s.dropComments_text]
      | cons next slots =>
          have comma (u : List Char) :
              dropComments false ([','] ++ u) = [','] ++ dropComments false u :=
            dropComments_append (by simp) u
          simp only [List.map_cons, joinChars_cons_cons, List.append_assoc] at ih ⊢
          rw [s.dropComments_text, comma, ih]

theorem dropComments_ending (ending : Option (CommentMark × Remark)) :
    dropComments false (Listing.endingText ending) = [] := by
  cases ending with
  | none => rfl
  | some comment =>
      obtain ⟨mark, remark⟩ := comment
      obtain ⟨front, oneLine, opened⟩ := dropComments_mark mark remark.text
      rw [Listing.endingText, opened, dropComments_inside (by simp [oneLine, remark.oneLine])]

theorem Listing.dropComments_text (l : Listing) :
    dropComments false l.text = joinChars [','] (l.slots.map Slot.left) := by
  rw [text, dropComments_joinChars, dropComments_ending, List.append_nil]

end Dropping

/-! What is read. -/

section Reading

variable (side : AliasSide)

theorem Slot.not_mem_left (s : Slot) : ',' ∉ s.left := by
  have gap (spaces : List Space) : ',' ∉ (Gap.ofSpaces spaces).chars :=
    not_mem_of_blank (Gap.ofSpaces spaces).blank (by decide)
  cases s with
  | empty spaces => exact gap spaces
  | item lead i tail =>
      have inside : ',' ∉ i.bare.text := i.bare.not_mem_text (by decide) (by decide)
      simp [left, gap, inside]

/-- A slot counts by the name of its item. -/
theorem Slot.itemName?_left (s : Slot) :
    itemName? side s.left = s.item?.map fun i => (i.bare.nameOn side).text := by
  cases s with
  | empty spaces => exact itemName?_of_blank (Gap.ofSpaces spaces).blank
  | item lead i tail =>
      exact i.bare.itemName?_text (Gap.ofSpaces lead).blank (Gap.ofSpaces tail).blank

theorem Listing.splitNameChars_text (l : Listing) :
    splitNameChars side l.text = l.items.map fun i => (i.bare.nameOn side).text := by
  have read : (l.slots.map Slot.left).filterMap (itemName? side) =
      l.items.map fun i => (i.bare.nameOn side).text := by
    rw [List.filterMap_map, items, List.map_filterMap]
    exact List.filterMap_congr fun s _ => s.itemName?_left side
  by_cases some_slot : l.slots.map Slot.left = []
  · have nothing : itemName? side [] = none := itemName?_of_blank (List.forall_mem_nil _)
    rw [← read, splitNameChars, l.dropComments_text, some_slot]
    simp [joinChars, splitOn, splitAt, nothing]
  · rw [splitNameChars, l.dropComments_text, splitOn_joinChars some_slot, read]
    exact List.forall_mem_map.mpr fun s _ => s.not_mem_left

/-- However a list of names is laid out, it is read as the names of its items on the side asked
for: the names themselves, or those that they go by. -/
theorem splitNames_listing (l : Listing) :
    splitNames .sourceName (String.ofList l.text) = l.items.map (·.name.text) ∧
      splitNames .localName (String.ofList l.text) = l.items.map (·.shown.text) ∧
      (splitNames .sourceName (String.ofList l.text)).length =
        (splitNames .localName (String.ofList l.text)).length := by
  have sources : splitNames .sourceName (String.ofList l.text) = l.items.map (·.name.text) := by
    rw [splitNames, String.toList_ofList, l.splitNameChars_text]
    rfl
  have locals : splitNames .localName (String.ofList l.text) = l.items.map (·.shown.text) := by
    rw [splitNames, String.toList_ofList, l.splitNameChars_text]
    exact List.map_congr_left fun i _ => congrArg Name.text i.shown_bare
  exact ⟨sources, locals, by rw [sources, locals, List.length_map, List.length_map]⟩

/-- Nothing of a comment counts, neither its commas nor its words. -/
example :
    let space : Space := .blank ' ' rfl
    let remark : Space := .comment .slashes ⟨" d, e as f".toList, by decide⟩
    (⟨[.item [] ⟨.a, some ⟨[space], [remark, space], .b, List.cons_ne_nil _ _,
      List.cons_ne_nil _ _⟩⟩ [], .empty [space], .item [] ⟨.a, none⟩ []], none⟩ : Listing).text =
      "a as// d, e as f\n b, ,a".toList := by decide

end Reading

end ComponentAtlas
