import Mathlib.Data.List.Basic
import ComponentAtlas.Source.Inheritance
import ComponentAtlas.Proofs.Text.Words

/-!
What a list of types is read as. An item counts by the name that it starts with, whatever follows
that, and a list is read item by item, so every comma starts a new item, also one that stands in
brackets or in a comment. Blanks do not matter.
-/

namespace ComponentAtlas

open Text

section Names

variable {s t gap : List Char} {c : Char}

/-- The last part of the dotted name at the start of a text. -/
def leadingName? : List Char → Option String
  | [] => none
  | c :: rest =>
    if isTypeStart c then some (String.ofList (lastPiece '.' (c :: rest.takeWhile isTypePart)))
    else none

theorem isTypePart_of_isBlank (h : isBlank c = true) : isTypePart c = false := by
  have dot : (c == '.') = false := beq_eq_false_iff_ne.mpr fun e => absurd h (by rw [e]; decide)
  have dollar : (c == '$') = false := beq_eq_false_iff_ne.mpr fun e => absurd h (by rw [e]; decide)
  rw [isTypePart, isWord_of_isBlank h, dot, dollar]
  rfl

/-- What does not go on with a part of a name ends it. -/
theorem leadingName?_append (nonempty : s ≠ []) (h : t.head?.any isTypePart = false) :
    leadingName? (s ++ t) = leadingName? s := by
  obtain ⟨c, rest, rfl⟩ := List.exists_cons_of_ne_nil nonempty
  have stops : t.takeWhile isTypePart = [] := by
    cases t with
    | nil => rfl
    | cons d t => exact List.takeWhile_cons_of_neg (by simpa using h)
  have run : (rest ++ t).takeWhile isTypePart = rest.takeWhile isTypePart := by
    rw [List.takeWhile_append]
    split
    · rename_i whole
      rw [stops, List.append_nil, (List.takeWhile_prefix _).eq_of_length whole]
    · rfl
  rw [List.cons_append, leadingName?, run, leadingName?]

theorem head?_any_of_blank (h : ∀ c ∈ gap, isBlank c = true) :
    gap.head?.any isTypePart = false := by
  cases gap with
  | nil => rfl
  | cons c gap => exact isTypePart_of_isBlank (h c List.mem_cons_self)

theorem typeName?_eq (s : List Char) :
    typeName? s = if '=' ∈ s then none else leadingName? (trimLeft s) := by
  have sign : (trimChars s).contains '=' = true ↔ '=' ∈ s := by
    rw [List.contains_iff_mem, mem_trimChars (by decide)]
  have name : leadingName? (trimChars s) = leadingName? (trimLeft s) := by
    obtain ⟨gap, blank, right⟩ := exists_trimRightOf isBlank (trimLeft s)
    rw [← trimChars] at right
    rcases eq_or_ne (trimChars s) [] with none | some
    · cases left : trimLeft s with
      | nil => rw [none]
      | cons c rest =>
          rw [none, List.nil_append] at right
          have solid := isBlank_of_trimLeft left
          rw [blank c (by rw [← right, left]; exact List.mem_cons_self)] at solid
          cases solid
    · rw [right, leadingName?_append some (head?_any_of_blank blank)]
  rw [← name]
  unfold typeName?
  simp only [sign]
  split
  · rfl
  · cases trimChars s <;> rfl

/-- The name that the first of some words starts with, where no word has an equals sign. -/
def nameOfWords (ws : List (List Char)) : Option String :=
  if '=' ∈ ws.flatten then none else ws.head?.bind leadingName?

theorem head?_words_bind (s : List Char) :
    (words s).head?.bind leadingName? = leadingName? (trimLeft s) := by
  obtain ⟨gap, blank, left⟩ := exists_trimLeft s
  have same : words s = words (trimLeft s) :=
    (congrArg words left).trans (words_append_left blank _)
  rw [same]
  cases shape : trimLeft s with
  | nil => rfl
  | cons c rest =>
      have split := (List.takeWhile_append_dropWhile (p := (!isBlank ·)) (l := c :: rest)).symm
      have plain : ∀ d ∈ (c :: rest).takeWhile (!isBlank ·), isBlank d = false := fun d hd => by
        simpa using List.mem_takeWhile_imp hd
      have nonempty : (c :: rest).takeWhile (!isBlank ·) ≠ [] := by
        simp [isBlank_of_trimLeft shape]
      have stops := List.head?_dropWhile_not (!isBlank ·) (c :: rest)
      generalize (c :: rest).takeWhile (!isBlank ·) = w at split plain nonempty
      generalize (c :: rest).dropWhile (!isBlank ·) = t at split stops
      have blank : t.head?.all isBlank = true ∧ t.head?.any isTypePart = false := by
        cases t with
        | nil => exact ⟨rfl, rfl⟩
        | cons b t =>
            have blank : isBlank b = true := by simpa using stops
            exact ⟨blank, isTypePart_of_isBlank blank⟩
      rw [split, head?_words nonempty plain blank.1, Option.bind_some,
        leadingName?_append nonempty blank.2]

theorem typeName?_eq_words (s : List Char) : typeName? s = nameOfWords (words s) := by
  rw [typeName?_eq, nameOfWords, head?_words_bind]
  simp only [mem_flatten_words (s := s) (c := '=') (by decide)]

/-- Blanks between and around the words of its items do not matter to a list. -/
theorem typeNames_congr (h : SameWords s t) : typeNames s = typeNames t := by
  have read : ∀ s, typeNames s = (wordsOfItems s).filterMap nameOfWords := fun s => by
    have item : typeName? = nameOfWords ∘ words := funext typeName?_eq_words
    rw [typeNames, wordsOfItems, List.filterMap_map, item]
  rw [read, read, h]

theorem typeNames_append (s t : List Char) :
    typeNames (s ++ ',' :: t) = typeNames s ++ typeNames t := by
  rw [typeNames, splitOn_append_cons, List.filterMap_append]
  rfl

theorem typeNames_of_not_mem (h : ',' ∉ s) : typeNames s = (typeName? s).toList := by
  rw [typeNames, splitOn_plain h, filterMap_cons_toList, List.filterMap_nil, List.append_nil]

/-- Behind its blanks the text starts as a name does, and it is no assignment. -/
def LooksLikeName (s : List Char) : Prop :=
  '=' ∉ s ∧ (trimLeft s).head?.any isTypeStart = true

instance : DecidablePred LooksLikeName := fun _ => inferInstanceAs (Decidable (_ ∧ _))

theorem typeName?_eq_none_iff (s : List Char) : typeName? s = none ↔ ¬ LooksLikeName s := by
  rw [typeName?_eq, LooksLikeName]
  by_cases sign : '=' ∈ s
  · simp [sign]
  · cases trimLeft s with
    | nil => simp [sign, leadingName?]
    | cons c rest => simp [sign, leadingName?]

end Names

section Items

/-- Names with dots between them. -/
structure DottedName where
  chars : List Char
  starts : chars.head?.any isTypeStart = true
  parts : ∀ c ∈ chars, isTypePart c = true

def DottedName.lastName (n : DottedName) : String := String.ofList (lastPiece '.' n.chars)

variable {gap rest : List Char}

theorem DottedName.leadingName? (n : DottedName) : leadingName? n.chars = some n.lastName := by
  obtain ⟨chars, starts, parts⟩ := n
  cases chars with
  | nil => cases starts
  | cons c chars =>
      have whole := List.takeWhile_eq_self_iff.mpr fun d hd => parts d (List.mem_cons_of_mem c hd)
      rw [ComponentAtlas.leadingName?, if_pos (by simpa using starts), whole]
      rfl

theorem DottedName.ne_nil (n : DottedName) : n.chars ≠ [] := fun nothing => by
  have starts := n.starts
  rw [nothing] at starts
  cases starts

theorem DottedName.not_mem (n : DottedName) {c : Char} (h : isTypePart c = false) :
    c ∉ n.chars := fun inside => Bool.noConfusion (h.symm.trans (n.parts c inside))

theorem not_mem_of_blank {c : Char} (blank : ∀ d ∈ gap, isBlank d = true)
    (h : isBlank c = false) : c ∉ gap := fun inside =>
  Bool.noConfusion (h.symm.trans (blank c inside))

/-- What stands behind a name does not matter to it, unless it makes an assignment of it. -/
theorem DottedName.read (n : DottedName) (blank : ∀ c ∈ gap, isBlank c = true)
    (apart : rest.head?.any isTypePart = false) (plain : '=' ∉ rest) :
    typeName? (gap ++ (n.chars ++ rest)) = some n.lastName := by
  have solid : trimLeft (n.chars ++ rest) = n.chars ++ rest := by
    obtain ⟨c, chars, shape⟩ := List.exists_cons_of_ne_nil n.ne_nil
    have part := n.parts c (by rw [shape]; exact List.mem_cons_self)
    have notBlank : isBlank c = false := Bool.eq_false_iff.mpr fun blank =>
      Bool.noConfusion (part.symm.trans (isTypePart_of_isBlank blank))
    rw [shape, List.cons_append, trimLeft_cons notBlank]
  have no_sign : '=' ∉ gap ++ (n.chars ++ rest) := by
    simp [not_mem_of_blank blank (c := '=') (by decide), n.not_mem (c := '=') (by decide), plain]
  rw [typeName?_eq, if_neg no_sign, trimLeft_append blank, solid,
    leadingName?_append n.ne_nil apart, n.leadingName?]

/-- An entry of a list of types, up to the comma that ends it. What stands behind a base may have
commas of its own: type arguments, and comments. What is no base is an assignment, or nothing. -/
inductive Listed where
  | base (lead : List Char) (name : DottedName) (tail : List Char)
  | other (text : List Char)

namespace Listed

def text : Listed → List Char
  | base lead name tail => lead ++ name.chars ++ tail
  | other text => text

/-- What the entry contributes to the bases. -/
def named : Listed → List String
  | base _ name _ => [name.lastName]
  | other _ => []

/-- A base is read where it stands at the start of its entry, ends as its name does and is not
assigned to. -/
def Readable : Listed → Prop
  | base lead _ tail => lead.all isBlank = true ∧ tail.head?.any isTypePart = false ∧
      '=' ∉ firstPiece ',' tail
  | other _ => True

instance : DecidablePred Readable
  | base .. => inferInstanceAs (Decidable (_ ∧ _ ∧ _))
  | other _ => inferInstanceAs (Decidable True)

/-- The items as which an entry is read besides its base. -/
def strays (e : Listed) : List (List Char) :=
  match e with
  | base _ _ tail => if e.Readable then (splitOn ',' tail).tail else splitOn ',' e.text
  | other text => splitOn ',' text

theorem typeNames_text (e : Listed) :
    typeNames e.text = (if e.Readable then e.named else []) ++ e.strays.filterMap typeName? := by
  cases e with
  | other text => rfl
  | base lead name tail =>
      by_cases readable : (base lead name tail).Readable
      case neg =>
        rw [if_neg readable, List.nil_append, strays, if_neg readable]
        rfl
      rw [if_pos readable]
      have ⟨leads, apart, plain⟩ := readable
      have blank : ∀ c ∈ lead, isBlank c = true := List.all_eq_true.mp leads
      have no_comma : ',' ∉ lead ++ name.chars := by
        rw [List.mem_append, not_or]
        exact ⟨not_mem_of_blank blank (by decide), name.not_mem (by decide)⟩
      have read := name.read blank (head?_any_firstPiece apart) plain
      rw [← List.append_assoc] at read
      rw [text, typeNames, splitOn_append_of_not_mem no_comma, List.filterMap_cons_some read,
        strays, if_pos readable]
      rfl

/-- What is missing where a base is not read. -/
theorem missing_eq_nil_iff (e : Listed) :
    (if e.Readable then [] else e.named) = [] ↔ e.Readable := by
  cases e with
  | other text => exact ⟨fun _ => trivial, fun _ => rfl⟩
  | base lead name tail =>
      constructor
      · intro nothing
        by_contra lost
        rw [if_neg lost] at nothing
        cases nothing
      · exact fun readable => if_pos readable

end Listed

/-- Nothing in the list looks like a name but its bases. -/
def Unmistakable (es : List Listed) : Prop := ∀ e ∈ es, ∀ item ∈ e.strays, ¬ LooksLikeName item

instance : DecidablePred Unmistakable := fun _ => inferInstanceAs (Decidable (∀ _ ∈ _, ∀ _ ∈ _, _))

/-- A list of entries with commas between them. -/
def listText (es : List Listed) : List Char := joinChars [','] (es.map Listed.text)

theorem typeNames_listText (es : List Listed) :
    typeNames (listText es) = es.flatMap fun e => typeNames e.text := by
  induction es with
  | nil => rfl
  | cons e es ih =>
      cases es with
      | nil => simp [listText, joinChars]
      | cons next es =>
          have shape : listText (e :: next :: es) = e.text ++ ',' :: listText (next :: es) := by
            simp [listText, joinChars]
          rw [shape, typeNames_append, ih]
          rfl

/-- Additions to the parts of a list add nothing exactly where all are empty. -/
theorem flatMap_append_eq_iff {α β : Type} (f g : α → List β) (as : List α) :
    (as.flatMap fun a => f a ++ g a) = as.flatMap f ↔ ∀ a ∈ as, g a = [] := by
  have longer : ∀ as : List α,
      (as.flatMap f).length ≤ (as.flatMap fun a => f a ++ g a).length := by
    intro as
    induction as with
    | nil => exact Nat.le_refl _
    | cons a as ih =>
        simp only [List.flatMap_cons, List.length_append]
        omega
  induction as with
  | nil => simp
  | cons a as ih =>
      rw [List.flatMap_cons, List.flatMap_cons, List.append_assoc, List.append_cancel_left_eq,
        List.forall_mem_cons]
      constructor
      · intro same
        have nothing : g a = [] := by
          have sizes := congrArg List.length same
          have at_least := longer as
          rw [List.length_append] at sizes
          exact List.eq_nil_of_length_eq_zero (by omega)
        rw [nothing, List.nil_append] at same
        exact ⟨nothing, ih.mp same⟩
      · rintro ⟨nothing, later⟩
        rw [nothing, List.nil_append, ih.mpr later]

/-- The bases are read as they stand in the list, exactly where each is read and nothing else looks
like a name. A list that fails in both is left out, as what it gains may make up for what it
loses. -/
theorem typeNames_eq_iff {es : List Listed} (h : Unmistakable es ∨ ∀ e ∈ es, e.Readable) :
    typeNames (listText es) = es.flatMap Listed.named ↔
      Unmistakable es ∧ ∀ e ∈ es, e.Readable := by
  let found (e : Listed) : List String := if e.Readable then e.named else []
  have no_strays : (∀ e ∈ es, e.strays.filterMap typeName? = []) ↔ Unmistakable es := by
    simp only [List.filterMap_eq_nil_iff, typeName?_eq_none_iff, Unmistakable]
  have entries : typeNames (listText es) =
      es.flatMap fun e => found e ++ e.strays.filterMap typeName? := by
    rw [typeNames_listText]
    exact List.flatMap_congr fun e _ => e.typeNames_text
  -- Without strays the list can only lose bases, and where all are read it can only gain names.
  rcases h with unmistakable | readable
  · have names : (es.flatMap fun e => found e ++ if e.Readable then [] else e.named) =
        es.flatMap Listed.named := List.flatMap_congr fun e _ => by
      simp only [found]
      split
      · exact List.append_nil _
      · rfl
    rw [entries, (flatMap_append_eq_iff _ _ es).mpr (no_strays.mpr unmistakable), ← names, eq_comm,
      flatMap_append_eq_iff, and_iff_right unmistakable]
    exact forall₂_congr fun e _ => e.missing_eq_nil_iff
  · have names : es.flatMap found = es.flatMap Listed.named :=
      List.flatMap_congr fun e he => if_pos (readable e he)
    rw [entries, ← names, flatMap_append_eq_iff, no_strays, and_iff_left readable]

end Items

section Descriptions

theorem cutAt?_eq_none {needle s : List Char} (h : ¬ needle <:+: s) : cutAt? needle s = none := by
  refine Option.eq_none_iff_forall_ne_some.mpr fun (before, after) found => h ?_
  exact ⟨before, after, (append_of_cutAt? found).symm⟩

theorem firstPiece_of_not_mem {sep : Char} {s : List Char} (h : sep ∉ s) :
    firstPiece sep s = s := by
  have whole := firstPiece_append h []
  rw [List.append_nil] at whole
  exact whole.trans (List.append_nil s)

/-- A description that says what a declaration extends. -/
theorem ofChars_extends {s : List Char} (one_part : ';' ∉ s)
    (no_mark : ¬ implementsMark.toList <:+: extendsMark.toList ++ s) :
    Heritage.ofChars (extendsMark.toList ++ s) = ⟨typeNames s, []⟩ := by
  rw [Heritage.ofChars, afterStart?_eq_some_iff.mpr rfl, cutAt?_eq_none no_mark]
  simp only [firstPiece_of_not_mem one_part]

/-- The words of a list joined in a description say what the list says. -/
theorem ofChars_joined {s : List Char} (one_part : ';' ∉ s)
    (no_mark : ¬ implementsMark.toList <:+: s) :
    Heritage.ofChars (extendsMark.toList ++ ' ' :: joinChars [' '] (words s)) =
      ⟨typeNames s, []⟩ := by
  have no_semicolon : ';' ∉ ' ' :: joinChars [' '] (words s) := by
    intro inside
    rcases List.mem_cons.mp inside with space | inside
    · cases space
    · rcases mem_joinChars inside with space | ⟨w, hw, hc⟩
      · exact absurd space (by decide)
      · exact one_part (mem_words hw _ hc).1
  have absent : ¬ implementsMark.toList <:+: extendsMark.toList ++
      ' ' :: joinChars [' '] (words s) := by
    intro inside
    rcases infix_of_infix_append_cons (by decide) inside with mark | inside
    · exact absurd mark.length_le (by decide)
    · obtain ⟨w, hw, part⟩ := infix_of_infix_joinChars (by decide) (by decide) inside
      exact no_mark (part.trans (infix_of_mem_splitAt s (List.mem_filter.mp hw).1))
  have same : SameWords (' ' :: joinChars [' '] (words s)) s :=
    (sameWords_cons (by decide) _).trans (sameWords_joinChars s)
  rw [ofChars_extends no_semicolon absent, typeNames_congr same]

/-- A description that says what a declaration implements. -/
theorem ofChars_implements {s : List Char} (one_part : ';' ∉ s) :
    Heritage.ofChars (implementsMark.toList ++ s) = ⟨[], typeNames s⟩ := by
  have other : afterStart? extendsMark.toList (implementsMark.toList ++ s) = none := rfl
  have here : cutAt? implementsMark.toList (implementsMark.toList ++ s) = some ([], s) := by
    have starts : afterStart? implementsMark.toList (implementsMark.toList ++ s) = some s :=
      afterStart?_eq_some_iff.mpr rfl
    have shape : implementsMark.toList ++ s = 'I' :: ("mplements:".toList ++ s) := rfl
    rw [shape] at starts ⊢
    rw [cutAt?, starts]
  rw [Heritage.ofChars, other, here]
  simp only [firstPiece_of_not_mem one_part]

end Descriptions

end ComponentAtlas
