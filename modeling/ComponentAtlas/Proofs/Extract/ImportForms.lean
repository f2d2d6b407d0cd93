import ComponentAtlas.Extract.TypeScript
import ComponentAtlas.Proofs.Source.Layout

/-!
Import statements, what they import, and that each form is read where a statement of that form
stands: the names between braces come apart at the commas, each without its alias and its mark.
-/

namespace ComponentAtlas.TypeScript

open Text Recognizer
open Cursor (between)

section Grammar

/-- A word that is no keyword of an import statement. -/
structure ImportName extends Word where
  free : chars ∉ ["type".toList, "import".toList, "from".toList]

namespace ImportName

variable (n : ImportName)

def text : String := String.ofList n.chars

def toName : Name := ⟨n.chars, n.nonempty, fun c hc => by rw [isNamePart, n.word c hc]; rfl⟩

/-- A name of one character. -/
def ofChar (c : Char) (word : isWord c = true) : ImportName where
  chars := [c]
  nonempty := singleton_ne_nil c
  word _ hd := List.mem_singleton.mp hd ▸ word
  free inside := by
    have lengths : ∀ w ∈ ["type".toList, "import".toList, "from".toList], w.length ≠ 1 := by decide
    exact lengths [c] inside rfl

end ImportName

/-- An item between braces: a name, possibly under an alias, or a name that is marked as a type. -/
inductive ImportItem where
  | named (name : ImportName) (alias? : Option (Break × Break × ImportName))
  | marked (gap : Gap) (name : ImportName)

namespace ImportItem

/-- The name that the other module knows. -/
def name : ImportItem → ImportName
  | named name _ => name
  | marked _ name => name

def namedItem (name : ImportName) (alias? : Option (Break × Break × ImportName)) : NamedItem :=
  ⟨name.toName, alias?.map fun (front, back, other) => (front, back, other.toName)⟩

def markedText (gap : Gap) (name : ImportName) : List Char :=
  "type".toList ++ ' ' :: (gap.chars ++ name.chars)

def text : ImportItem → List Char
  | named name alias? => (namedItem name alias?).text
  | marked gap name => markedText gap name

end ImportItem

structure ImportEntry where
  lead : Gap
  item : ImportItem
  tail : Gap

def ImportEntry.text (e : ImportEntry) : List Char :=
  e.lead.chars ++ e.item.text ++ e.tail.chars

/-- Items with commas between them, and possibly a comma with blanks behind the last one. -/
structure ImportList where
  entries : List ImportEntry
  nonempty : entries ≠ []
  trailing : Option Gap

namespace ImportList

variable (l : ImportList)

def pieces : List (List Char) :=
  l.entries.map ImportEntry.text ++ l.trailing.toList.map (·.chars)

def text : List Char := joinChars [','] l.pieces

def names : List String := l.entries.map (·.item.name.text)

end ImportList

/-- The mark of an import of types, if there is one. -/
def typeText : Option Break → List Char
  | none => []
  | some space => "type".toList ++ space.chars

/-- A default name and the comma behind it. -/
structure LeadingName where
  name : ImportName
  front : Gap
  back : Gap

def leadText : Option LeadingName → List Char
  | none => []
  | some l => l.name.chars ++ (l.front.chars ++ ',' :: l.back.chars)

/-- What stands between `import` and `from`. -/
inductive ImportForm where
  | plain (typed? : Option Break) (name : ImportName) (space : Break)
  | braces (typed? : Option Break) (lead? : Option LeadingName) (list : ImportList) (gap : Gap)
  | star (lead? : Option LeadingName) (gap : Gap) (space : Break) (name : ImportName) (last : Break)

namespace ImportForm

def text : ImportForm → List Char
  | plain typed? name space => typeText typed? ++ (name.chars ++ space.chars)
  | braces typed? lead? list gap =>
    typeText typed? ++ (leadText lead? ++ '{' :: (list.text ++ '}' :: gap.chars))
  | star lead? gap space name last =>
    leadText lead? ++ '*' :: (gap.chars ++ ("as".toList ++
      (space.chars ++ (name.chars ++ last.chars))))

end ImportForm

/-- An import statement with what parts it from the next one. -/
structure ImportLine where
  space : Break
  form : ImportForm
  gap : Gap
  quote : Char
  quotes : isQuote quote = true
  source : List Char
  named : source ≠ []
  solid : ∀ c ∈ source, isQuote c = false ∧ isBlank c = false
  semicolon : Bool
  feeds : Gap

namespace ImportLine

variable (i : ImportLine)

/-- The source of the statement with `rest` behind it. -/
def sourceOnto (rest : List Char) : List Char :=
  "from".toList ++ (i.gap.chars ++ i.quote :: (i.source ++ i.quote :: rest))

def bodyOnto (rest : List Char) : List Char :=
  "import".toList ++ (i.space.chars ++ (i.form.text ++ i.sourceOnto rest))

def ending : List Char := (if i.semicolon then [';'] else []) ++ i.feeds.chars

def text : List Char := i.bodyOnto i.ending

def statement (names : List String) : ImportStatement :=
  ⟨String.ofList i.source, names, false, false, false⟩

/-- The import of a default name in front of other imports. -/
def leading (lead? : Option LeadingName) : List ImportStatement :=
  lead?.toList.map fun l => { i.statement [l.name.text] with isDefault := true }

def braceImports : List ImportStatement :=
  match i.form with
  | .braces _ lead? list _ => i.leading lead? ++ [i.statement list.names]
  | _ => []

def plainImports : List ImportStatement :=
  match i.form with
  | .plain _ name _ => [{ i.statement [name.text] with isDefault := true }]
  | _ => []

def starImports : List ImportStatement :=
  match i.form with
  | .star lead? _ _ name _ =>
    i.leading lead? ++ [{ i.statement [name.text] with isNamespace := true }]
  | _ => []

end ImportLine

end Grammar

section Names

variable {front back s : List Char}

theorem ImportName.not_mem (n : ImportName) {c : Char} (h : isWord c = false) : c ∉ n.chars :=
  fun inside => Bool.noConfusion (h.symm.trans (n.word c inside))

theorem markedText_starts (gap : Gap) (name : ImportName) :
    (ImportItem.markedText gap name).head?.any isBlank = false := rfl

/-- An item without an alias mark counts by its text. -/
theorem itemName?_of_absent {side : AliasSide} (blank : ∀ c ∈ front, isBlank c = true)
    (blank' : ∀ c ∈ back, isBlank c = true) (nonempty : s ≠ [])
    (starts : s.head?.any isBlank = false) (ends : s.getLast?.any isBlank = false)
    (h : Absent StartsAlias s []) :
    itemName? side (front ++ s ++ back) = some (String.ofList s) := by
  have trimmed : trimChars s = s := trimChars_of_ends starts ends
  have picked : side.pick (aliasMark.splitBy s) = s := by
    rw [splitBy_of_absent h]
    cases side <;> rfl
  have some_item : s.isEmpty = false := List.isEmpty_eq_false_iff.mpr nonempty
  rw [itemName?, trimChars_between blank blank', trimmed]
  simp only [picked, trimmed, some_item, Bool.or_self, Bool.false_eq_true, if_false]

theorem absent_startsAlias_marked (gap : Gap) (name : ImportName) :
    Absent StartsAlias (ImportItem.markedText gap name) [] := by
  have last : Absent StartsAlias name.chars [] := absent_startsAlias_solid name.toName.solid _
  have first : Absent StartsAlias "type".toList (' ' :: (gap.chars ++ name.chars) ++ []) :=
    absent_startsAlias_solid (forall_not_of_all (by decide)) _
  have starts := name.toName.head?_any []
  refine absent_append.mpr ⟨first, ?_⟩
  rw [← List.cons_append, absent_append]
  refine ⟨absent_of_suffixes ?_, last⟩
  rintro run run' split _ starts'
  have blank : ∀ c ∈ run', isBlank c = true := by
    have all : ∀ c ∈ ' ' :: gap.chars, isBlank c = true :=
      List.forall_mem_cons.mpr ⟨by decide, gap.blank⟩
    exact fun c hc => all c (split ▸ List.mem_append_right run hc)
  obtain ⟨y, more, same, blank'⟩ := head?_of_startsAlias blank starts starts'
  rw [List.append_nil] at same
  have inside : y ∈ name.toName.chars := by
    have shape : name.toName.chars = "as".toList ++ y :: more := same
    exact shape ▸ List.mem_append_right _ List.mem_cons_self
  exact Bool.noConfusion (blank'.symm.trans (name.toName.solid y inside))

theorem dropTypeMark_marked (gap : Gap) (name : ImportName) :
    dropTypeMark (String.ofList (ImportItem.markedText gap name)) = name.text := by
  have mark : afterStart? "type ".toList (ImportItem.markedText gap name) =
      some (gap.chars ++ name.chars) := afterStart?_eq_some_iff.mpr rfl
  have inner := trimChars_between gap.blank (List.forall_mem_nil _) name.chars
  rw [List.append_nil] at inner
  have trimmed : trimChars (gap.chars ++ name.chars) = name.chars :=
    inner.trans name.toName.trimChars
  rw [dropTypeMark, String.toList_ofList (l := ImportItem.markedText gap name), mark]
  exact congrArg String.ofList trimmed

theorem dropTypeMark_name (name : ImportName) : dropTypeMark name.text = name.text := by
  have unmarked : afterStart? "type ".toList name.chars = none := by
    refine Option.eq_none_iff_forall_ne_some.mpr fun rest found => ?_
    have split := afterStart?_eq_some_iff.mp found
    have inside : ' ' ∈ name.chars := split ▸ List.mem_append_left _ (by decide)
    exact name.not_mem (by decide) inside
  rw [dropTypeMark, ImportName.text, String.toList_ofList (l := name.chars), unmarked]

namespace ImportItem

/-- An item between blanks is read as its name. -/
theorem exists_itemName? (i : ImportItem) (lead tail : Gap) :
    ∃ shown, itemName? .sourceName (lead.chars ++ i.text ++ tail.chars) = some shown ∧
      dropTypeMark shown = i.name.text := by
  cases i with
  | named name alias? =>
      exact ⟨_, (namedItem name alias?).itemName?_text lead.blank tail.blank,
        dropTypeMark_name name⟩
  | marked gap name =>
      have ends : (markedText gap name).getLast?.any isBlank = false := by
        have shape : markedText gap name = "type".toList ++ ' ' :: gap.chars ++ name.chars :=
          (List.append_assoc _ (' ' :: gap.chars) _).symm
        rw [shape, List.getLast?_append_of_ne_nil _ name.nonempty]
        cases last : name.chars.getLast? with
        | none => rfl
        | some c => exact name.toName.solid c (List.mem_of_getLast? last)
      exact ⟨_, itemName?_of_absent lead.blank tail.blank (List.cons_ne_nil _ _)
        (markedText_starts gap name) ends (absent_startsAlias_marked gap name),
        dropTypeMark_marked gap name⟩

theorem not_mem_text (i : ImportItem) {c : Char} (part : isNamePart c = false)
    (solid : isBlank c = false) : c ∉ i.text := by
  cases i with
  | named name alias? => exact (namedItem name alias?).not_mem_text part solid
  | marked gap name =>
      have letters : ∀ d ∈ "type".toList, isNamePart d = true := List.all_eq_true.mp (by decide)
      have space : c ≠ ' ' := fun same => absurd solid (by rw [same]; decide)
      simp only [text, markedText, List.mem_append, List.mem_cons, not_or]
      exact ⟨fun inside => Bool.noConfusion (part.symm.trans (letters c inside)), space,
        not_mem_of_blank gap.blank solid, name.toName.not_mem part⟩

end ImportItem

namespace ImportList

variable (l : ImportList)

theorem pieces_ne_nil : l.pieces ≠ [] := by simp [pieces, l.nonempty]

theorem text_ne_nil : l.text ≠ [] := by
  obtain ⟨e, entries, split⟩ := List.exists_cons_of_ne_nil l.nonempty
  obtain ⟨rest, shape⟩ := joinChars_cons [','] e.text
    (entries.map ImportEntry.text ++ l.trailing.toList.map (·.chars))
  have some_item : e.item.text ≠ [] := by
    cases e.item with
    | named name alias? => exact (ImportItem.namedItem name alias?).text_ne_nil
    | marked gap name => exact List.cons_ne_nil _ _
  rw [text, pieces, split, List.map_cons, List.cons_append, shape]
  simp [ImportEntry.text, some_item]

theorem not_mem_pieces {c : Char} (part : isNamePart c = false) (solid : isBlank c = false) :
    ∀ p ∈ l.pieces, c ∉ p := by
  intro p hp
  rcases List.mem_append.mp hp with hp | hp
  · obtain ⟨e, _, rfl⟩ := List.mem_map.mp hp
    simp only [ImportEntry.text, List.mem_append, not_or]
    exact ⟨⟨not_mem_of_blank e.lead.blank solid, e.item.not_mem_text part solid⟩,
      not_mem_of_blank e.tail.blank solid⟩
  · obtain ⟨gap, _, rfl⟩ := List.mem_map.mp hp
    exact not_mem_of_blank gap.blank solid

theorem not_mem_text {c : Char} (notComma : c ≠ ',') (part : isNamePart c = false)
    (solid : isBlank c = false) : c ∉ l.text := by
  intro inside
  rcases mem_joinChars inside with separator | ⟨p, hp, inside⟩
  · exact notComma (List.mem_singleton.mp separator)
  · exact l.not_mem_pieces part solid p hp inside

/-- A list is read as its names. -/
theorem names_text : (splitNameChars .sourceName l.text).map dropTypeMark = l.names := by
  have plain : dropComments false l.text = l.text := by
    refine dropComments_plain fun c hc => ⟨?_, ?_⟩
    · rintro rfl
      exact l.not_mem_text (by decide) (by decide) (by decide) hc
    · rintro rfl
      exact l.not_mem_text (by decide) (by decide) (by decide) hc
  have items : ∀ entries : List ImportEntry,
      ((entries.map ImportEntry.text).filterMap (itemName? .sourceName)).map dropTypeMark =
        entries.map (·.item.name.text) := by
    intro entries
    induction entries with
    | nil => rfl
    | cons e entries ih =>
        obtain ⟨shown, read, name⟩ := e.item.exists_itemName? e.lead e.tail
        have first : itemName? .sourceName e.text = some shown := read
        rw [List.map_cons, List.filterMap_cons_some first, List.map_cons, name, ih, List.map_cons]
  have last : (l.trailing.toList.map (·.chars)).filterMap (itemName? .sourceName) = [] := by
    rw [List.filterMap_map, List.filterMap_eq_nil_iff]
    exact fun gap _ => itemName?_of_blank gap.blank
  rw [splitNameChars, plain, text, splitOn_joinChars l.pieces_ne_nil
    (l.not_mem_pieces (by decide) (by decide)), pieces, List.filterMap_append, last,
    List.append_nil, items, names]

theorem filter_names : l.names.filter (· != "") = l.names := by
  refine List.filter_eq_self.mpr fun shown member => ?_
  obtain ⟨e, _, rfl⟩ := List.mem_map.mp member
  have some_name : e.item.name.text ≠ "" := fun none =>
    e.item.name.nonempty (String.ofList_eq_empty_iff.mp none)
  exact bne_iff_ne.mpr some_name

theorem names_ne_nil : l.names ≠ [] := mt List.map_eq_nil_iff.mp l.nonempty

end ImportList

end Names

section Marks

variable {before rest : List Char}

/-- A character that is neither in names nor blank. -/
structure IsMark (c : Char) : Prop where
  part : isNamePart c = false
  solid : isBlank c = false

theorem IsMark.apart {c : Char} (mark : IsMark c) : isWord c = false :=
  (Bool.or_eq_false_iff.mp mark.part).1

theorem isMark_of_isQuote {c : Char} (h : isQuote c = true) : IsMark c := by
  rw [isQuote, Bool.or_eq_true, beq_iff_eq, beq_iff_eq] at h
  rcases h with rfl | rfl <;> exact ⟨by decide, by decide⟩

theorem leadText_append (l : LeadingName) (rest : List Char) : leadText (some l) ++ rest =
    l.name.chars ++ (l.front.chars ++ ',' :: (l.back.chars ++ rest)) := by
  simp [leadText]

theorem ImportName.not_behind_type (n : ImportName) (P : List Char → Prop)
    (ends : rest.head?.any isWord = false) :
    ¬ Behind "type".toList (AfterBreak P) (n.chars ++ rest) := by
  intro found
  have same := (found.of_run (List.all_eq_true.mp (by decide)) n.word ends
    fun _ => AfterBreak.stops).1
  exact n.free (same ▸ List.mem_cons_self)

/-- A name is not the word `type`. -/
theorem ImportName.refuses_type (n : ImportName) (ends : rest.head?.any isWord = false)
    (before : List Char) : (do literal "type"; wordEdge : Recognizer Unit).Refuses
      (between before (n.chars ++ rest)) := by
  refine ((offers_literal "type").bind fun _ => offers_check _).refuses ?_
  rintro _ d ⟨_, _, ⟨split, passed, split', _, front⟩, edge, rfl⟩
  have mark : passed = "type".toList := List.append_cancel_right (split'.symm.trans split)
  have apart : d.rest.head?.any isWord = false := by
    have letter : d.before.any isWord = true := by
      rw [front, mark]
      exact show isWord 'e' = true by decide
    rw [letter] at edge
    simpa using edge
  have same := (eq_of_runs n.word (List.all_eq_true.mp (by decide)) ends apart split).1
  exact n.free (same ▸ List.mem_cons_self)

theorem not_behind_type_other {x : Char} (other : x ≠ 't') (P : List Char → Prop) :
    ¬ Behind "type".toList (AfterBreak P) (x :: rest) := by
  rintro ⟨more, split, _⟩
  exact other (List.cons.inj split).1

/-- What stands in front of a mark is no mark of types. -/
theorem not_behind_type_lead (lead? : Option LeadingName) {x : Char} (mark : IsMark x)
    (P : List Char → Prop) :
    ¬ Behind "type".toList (AfterBreak P) (leadText lead? ++ x :: rest) := by
  cases lead? with
  | none =>
      refine not_behind_type_other ?_ P
      rintro rfl
      exact absurd mark.apart (by decide)
  | some l =>
      rw [leadText_append]
      exact l.name.not_behind_type P (l.front.head?_any rfl)

theorem typeMark_offers : typeMark.Offers fun c _ d =>
    ∃ space : Break, c.rest = "type".toList ++ (space.chars ++ d.rest) := by
  refine ((offers_literal "type").bind fun _ => offers_many1 isBlank).imp ?_
  rintro _ _ d ⟨_, _, ⟨split, _⟩, x, run, first, blank, split'⟩
  refine ⟨⟨⟨x :: run, List.forall_mem_cons.mpr ⟨first, blank⟩⟩, List.cons_ne_nil x run⟩, ?_⟩
  rw [split, split']

theorem offers_word : word.Offers fun c _ d => ∃ w : Word, c.rest = w.chars ++ d.rest := by
  refine (offers_many1 isWord).captured.imp ?_
  rintro c _ d ⟨_, _, x, run, first, word, split⟩
  exact ⟨⟨x :: run, List.cons_ne_nil x run, List.forall_mem_cons.mpr ⟨first, word⟩⟩, split⟩

theorem leadingDefault_offers : leadingDefault.Offers fun c _ d => ∃ w : Word, ∃ front back : Gap,
    c.rest = w.chars ++ (front.chars ++ ',' :: (back.chars ++ d.rest)) := by
  have form : leadingDefault.Offers _ := offers_word.bind fun _ => (offers_many isBlank).bind
    fun _ => (offers_exactly ',').bind fun _ => (offers_many isBlank).bind fun _ => offers_pure _
  refine form.imp ?_
  rintro c _ _ ⟨_, _, ⟨w, first⟩, _, _, ⟨front, blank, second⟩, _, _, ⟨third, _⟩, _, d,
    ⟨back, blank', fourth⟩, _, rfl⟩
  exact ⟨w, ⟨front, blank⟩, ⟨back, blank'⟩, by rw [first, second, third, fourth]⟩

theorem typeText_starts (typed? : Option Break) (starts : rest.head?.any isBlank = false) :
    (typeText typed? ++ rest).head?.any isBlank = false := by
  cases typed? with
  | none => exact starts
  | some space => rfl

theorem leadText_starts (lead? : Option LeadingName) (starts : rest.head?.any isBlank = false) :
    (leadText lead? ++ rest).head?.any isBlank = false := by
  cases lead? with
  | none => exact starts
  | some l =>
      rw [leadText_append]
      exact l.name.toName.head?_any _

theorem prefers_typeMark (typed? : Option Break) (starts : rest.head?.any isBlank = false)
    (other : ¬ Behind "type".toList (AfterBreak fun _ => True) rest) (before : List Char) :
    ∃ mark?, (optional typeMark).Prefers (between before (typeText typed? ++ rest)) mark?
      (between (before ++ typeText typed?) rest) := by
  cases typed? with
  | none =>
      have refused : typeMark.Refuses (between before rest) :=
        typeMark_offers.refuses fun _ d ⟨space, split⟩ =>
          other ⟨space.chars ++ d.rest, split, space, d.rest, rfl, trivial⟩
      rw [typeText, List.append_nil]
      exact ⟨none, refused.optional⟩
  | some space =>
      have mark : typeMark.Prefers (between before ("type".toList ++ (space.chars ++ rest))) () _ :=
        (prefers_literal "type" before _).bind (prefers_blanks1 space starts)
      rw [← List.append_assoc, List.append_assoc before] at mark
      exact ⟨some (), mark.optional⟩

theorem prefers_leadingDefault (lead? : Option LeadingName) {x : Char} (mark : IsMark x)
    (before rest : List Char) :
    ∃ name?, (optional leadingDefault).Prefers (between before (leadText lead? ++ x :: rest)) name?
        (between (before ++ leadText lead?) (x :: rest)) ∧
      name?.map Span.text = lead?.map (·.name.text) := by
  cases lead? with
  | none =>
      have refused : leadingDefault.Refuses (between before (x :: rest)) := by
        refine leadingDefault_offers.refuses ?_
        rintro _ _ ⟨w, front, back, split⟩
        obtain ⟨c, chars, shape⟩ := List.exists_cons_of_ne_nil w.nonempty
        rw [shape] at split
        obtain ⟨rfl, _⟩ := List.cons.inj split
        have word := w.word x (shape ▸ List.mem_cons_self)
        exact Bool.noConfusion (mark.apart.symm.trans word)
      rw [leadText, List.append_nil]
      exact ⟨none, refused.optional, rfl⟩
  | some l =>
      have stop : (l.front.chars ++ ',' :: (l.back.chars ++ x :: rest)).head?.any isWord = false :=
        l.front.head?_any rfl
      have starts : (x :: rest).head?.any isBlank = false := mark.solid
      have way : leadingDefault.Prefers (between before (l.name.chars ++ (l.front.chars ++ ',' ::
          (l.back.chars ++ x :: rest)))) _ _ :=
        (prefers_word l.name.toWord stop).bind <|
        (prefers_blanks l.front.blank rfl).bind <| (prefers_exactly ',' _ _).bind <|
        (prefers_blanks l.back.blank starts).bind <| prefers_pure _ _
      have place : before ++ l.name.chars ++ l.front.chars ++ [','] ++ l.back.chars =
          before ++ leadText (some l) := by simp [leadText]
      rw [place] at way
      rw [leadText_append]
      exact ⟨_, way.optional, congrArg (some ∘ String.ofList) (Span.chars_between _ _ _)⟩

end Marks

section Reading

namespace ImportLine

variable (i : ImportLine) {before rest : List Char}

theorem sourceOnto_eq (rest : List Char) : i.sourceOnto rest =
    "from".toList ++ (i.gap.chars ++ i.quote :: (i.source ++ i.quote :: rest)) := rfl

theorem bodyOnto_eq (rest : List Char) : i.bodyOnto rest =
    "import".toList ++ (i.space.chars ++ (i.form.text ++ i.sourceOnto rest)) := rfl

theorem sourceOnto_append (more rest : List Char) :
    i.sourceOnto more ++ rest = i.sourceOnto (more ++ rest) := by
  simp only [sourceOnto_eq, List.append_assoc, List.cons_append]

theorem bodyOnto_append (more rest : List Char) :
    i.bodyOnto more ++ rest = i.bodyOnto (more ++ rest) := by
  simp only [bodyOnto_eq, sourceOnto_append, List.append_assoc]

theorem prefers_fromSource (before rest : List Char) :
    ∃ source, fromSource.Prefers (between before (i.sourceOnto rest)) source
        (between (before ++ i.sourceOnto []) rest) ∧ source.text = String.ofList i.source := by
  have inside : ∀ c ∈ i.source, (!isQuote c) = true := fun c hc => by
    rw [(i.solid c hc).1]
    rfl
  have stop : (i.quote :: rest).head?.any (!isQuote ·) = false := by
    simp [i.quotes]
  have quoted (before : List Char) : quotedSource.Prefers
      (between before (i.quote :: (i.source ++ i.quote :: rest))) _ _ :=
    (prefers_oneOf i.quotes).bind <| (prefers_many1 i.named inside stop).captured.bind <|
    (prefers_oneOf i.quotes).bind <| prefers_pure _ _
  have starts : (i.quote :: (i.source ++ i.quote :: rest)).head?.any isBlank = false :=
    (isMark_of_isQuote i.quotes).solid
  have way : fromSource.Prefers (between before (i.sourceOnto rest)) _ _ :=
    (prefers_literal "from" before _).bind <| (prefers_blanks i.gap.blank starts).bind <| quoted _
  have place : before ++ "from".toList ++ i.gap.chars ++ [i.quote] ++ i.source ++ [i.quote] =
      before ++ i.sourceOnto [] := by
    simp only [sourceOnto_eq, List.append_assoc, List.cons_append, List.nil_append]
  rw [place] at way
  exact ⟨_, way, congrArg String.ofList (Span.chars_between _ _ _)⟩

theorem defaultPart_eq {m : ImportMatch} {lead? : Option LeadingName}
    (name : m.default?.map Span.text = lead?.map (·.name.text))
    (source : m.source.text = String.ofList i.source) : m.defaultPart = i.leading lead? := by
  have parts : m.default?.toList.map Span.text = lead?.toList.map (·.name.text) := by
    rw [← Option.toList_map, name, Option.toList_map]
  have statements := congrArg (List.map fun shown : String =>
    (⟨String.ofList i.source, [shown], true, false, false⟩ : ImportStatement)) parts
  rw [List.map_map, List.map_map] at statements
  rw [ImportMatch.defaultPart, source]
  exact statements

theorem exists_braceImport {typed? : Option Break} {lead? : Option LeadingName} {list : ImportList}
    {gap : Gap} (h : i.form = .braces typed? lead? list gap) (before rest : List Char) :
    ∃ m, braceImport.Prefers (between before (i.bodyOnto rest)) m
        (between (before ++ i.bodyOnto []) rest) ∧ m.braceStatements = i.braceImports := by
  let braced (more : List Char) := '{' :: (list.text ++ '}' :: (gap.chars ++ more))
  have body (more : List Char) : i.bodyOnto more = "import".toList ++ (i.space.chars ++
      (typeText typed? ++ (leadText lead? ++ braced (i.sourceOnto more)))) := by
    rw [bodyOnto_eq, h, ImportForm.text]
    simp only [braced, List.append_assoc, List.cons_append]
  have brace : IsMark '{' := ⟨by decide, by decide⟩
  have starts : (leadText lead? ++ braced (i.sourceOnto rest)).head?.any isBlank = false :=
    leadText_starts lead? rfl
  obtain ⟨mark?, typed⟩ := prefers_typeMark typed? starts (not_behind_type_lead lead? brace _)
    (before ++ "import".toList ++ i.space.chars)
  obtain ⟨name?, named, name⟩ := prefers_leadingDefault lead? brace
    (before ++ "import".toList ++ i.space.chars ++ typeText typed?)
    (list.text ++ '}' :: (gap.chars ++ i.sourceOnto rest))
  have inside : ∀ y ∈ list.text, (y != '}') = true := fun y hy => bne_iff_ne.mpr fun same =>
    list.not_mem_text (by decide) (by decide) (by decide) (same ▸ hy)
  have listed (before : List Char) : braces.Prefers
      (between before ('{' :: (list.text ++ '}' :: (gap.chars ++ i.sourceOnto rest)))) _ _ :=
    (prefers_exactly '{' _ _).bind <|
    (prefers_many1 list.text_ne_nil inside rfl).captured.bind <|
    (prefers_exactly '}' _ _).bind <| prefers_pure _ _
  obtain ⟨source, quoted, shown⟩ := i.prefers_fromSource (before ++ "import".toList ++
    i.space.chars ++ typeText typed? ++ leadText lead? ++ ['{'] ++ list.text ++ ['}'] ++ gap.chars)
    rest
  have way : braceImport.Prefers _ _ _ := (prefers_literal "import" before _).bind <|
    (prefers_blanks1 i.space (typeText_starts typed? starts)).bind <| typed.bind <| named.bind <|
    (listed _).bind <| (prefers_blanks gap.blank rfl).bind <| quoted.bind <| prefers_pure _ _
  have place : before ++ "import".toList ++ i.space.chars ++ typeText typed? ++ leadText lead? ++
      ['{'] ++ list.text ++ ['}'] ++ gap.chars ++ i.sourceOnto [] = before ++ i.bodyOnto [] := by
    rw [body]
    simp only [braced, List.append_assoc, List.cons_append, List.nil_append]
  rw [place] at way
  refine ⟨_, body rest ▸ way, ?_⟩
  have some_names : list.names.isEmpty = false := List.isEmpty_eq_false_iff.mpr list.names_ne_nil
  rw [ImportMatch.braceStatements, i.defaultPart_eq name shown, Span.chars_between,
    list.names_text, list.filter_names, ofNames, some_names, shown, braceImports, h]
  rfl

theorem exists_defaultImport {typed? : Option Break} {name : ImportName} {space : Break}
    (h : i.form = .plain typed? name space) (before rest : List Char) :
    ∃ m, defaultImport.Prefers (between before (i.bodyOnto rest)) m
        (between (before ++ i.bodyOnto []) rest) ∧ [m.defaultStatement] = i.plainImports := by
  have body (more : List Char) : i.bodyOnto more = "import".toList ++ (i.space.chars ++
      (typeText typed? ++ (name.chars ++ (space.chars ++ i.sourceOnto more)))) := by
    rw [bodyOnto_eq, h, ImportForm.text]
    simp only [List.append_assoc]
  have stop : (space.chars ++ i.sourceOnto rest).head?.any isWord = false :=
    space.head?_any _
  have starts := name.toName.head?_any (space.chars ++ i.sourceOnto rest)
  obtain ⟨mark?, typed⟩ := prefers_typeMark typed? starts (name.not_behind_type _ stop)
    (before ++ "import".toList ++ i.space.chars)
  obtain ⟨source, quoted, shown⟩ := i.prefers_fromSource (before ++ "import".toList ++
    i.space.chars ++ typeText typed? ++ name.chars ++ space.chars) rest
  have way : defaultImport.Prefers _ _ _ := (prefers_literal "import" before _).bind <|
    (prefers_blanks1 i.space (typeText_starts typed? starts)).bind <| typed.bind <|
    (name.refuses_type stop _).notFollowedBy.bind <| (prefers_word name.toWord stop).bind <|
    (prefers_blanks1 space rfl).bind <| quoted.bind <| prefers_pure _ _
  have place : before ++ "import".toList ++ i.space.chars ++ typeText typed? ++ name.chars ++
      space.chars ++ i.sourceOnto [] = before ++ i.bodyOnto [] := by
    rw [body]
    simp only [List.append_assoc]
  rw [place] at way
  refine ⟨_, body rest ▸ way, ?_⟩
  rw [ImportMatch.defaultStatement, shown, Span.text, Span.chars_between, plainImports, h]
  rfl

theorem exists_starImport {lead? : Option LeadingName} {gap : Gap} {space last : Break}
    {name : ImportName} (h : i.form = .star lead? gap space name last) (before rest : List Char) :
    ∃ m, starImport.Prefers (between before (i.bodyOnto rest)) m
        (between (before ++ i.bodyOnto []) rest) ∧ m.starStatements = i.starImports := by
  have body (more : List Char) : i.bodyOnto more = "import".toList ++ (i.space.chars ++
      (leadText lead? ++ '*' :: (gap.chars ++ ("as".toList ++ (space.chars ++
        (name.chars ++ (last.chars ++ i.sourceOnto more))))))) := by
    rw [bodyOnto_eq, h, ImportForm.text]
    simp only [List.append_assoc, List.cons_append]
  have star : IsMark '*' := ⟨by decide, by decide⟩
  obtain ⟨name?, named, shownName⟩ := prefers_leadingDefault lead? star
    (before ++ "import".toList ++ i.space.chars) (gap.chars ++ ("as".toList ++ (space.chars ++
      (name.chars ++ (last.chars ++ i.sourceOnto rest)))))
  obtain ⟨source, quoted, shown⟩ := i.prefers_fromSource (before ++ "import".toList ++
    i.space.chars ++ leadText lead? ++ ['*'] ++ gap.chars ++ "as".toList ++ space.chars ++
    name.chars ++ last.chars) rest
  have way : starImport.Prefers _ _ _ := (prefers_literal "import" before _).bind <|
    (prefers_blanks1 i.space (leadText_starts lead? rfl)).bind <| named.bind <|
    (prefers_exactly '*' _ _).bind <| (prefers_blanks gap.blank rfl).bind <|
    (prefers_literal "as" _ _).bind <| (prefers_blanks1 space (name.toName.head?_any _)).bind <|
    (prefers_word name.toWord (last.head?_any _)).bind <| (prefers_blanks1 last rfl).bind <|
    quoted.bind <| prefers_pure _ _
  have place : before ++ "import".toList ++ i.space.chars ++ leadText lead? ++ ['*'] ++ gap.chars ++
      "as".toList ++ space.chars ++ name.chars ++ last.chars ++ i.sourceOnto [] =
        before ++ i.bodyOnto [] := by
    rw [body]
    simp only [List.append_assoc, List.cons_append, List.nil_append]
  rw [place] at way
  refine ⟨_, body rest ▸ way, ?_⟩
  rw [ImportMatch.starStatements, i.defaultPart_eq shownName shown, shown, Span.text,
    Span.chars_between, starImports, h]
  rfl

end ImportLine

end Reading

end ComponentAtlas.TypeScript
