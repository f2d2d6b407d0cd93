import ComponentAtlas.Extract
import ComponentAtlas.Proofs.Extract.LineStarts

/-!
From-imports against their layout. A list of names on one line is read as it stands, and so is one
in parentheses whatever its comments say, unless a comment holds a closing parenthesis. Of a list
that goes on behind a backslash only the first line is read.
-/

namespace ComponentAtlas.Python

open Text Recognizer
open Cursor (between)

section Head

/-- `from`, a module and `import`, on one line. -/
structure FromHead where
  gap : Break
  module : List Char
  named : module ≠ []
  dotted : ∀ c ∈ module, isDottedPart c = true
  space : Break
  oneLine : '\n' ∉ gap.chars ++ space.chars

namespace FromHead

variable (h : FromHead)

def text : List Char :=
  "from".toList ++ (h.gap.chars ++ (h.module ++ (h.space.chars ++ "import".toList)))

def statement (names : List String) : ImportStatement :=
  ⟨moduleSource (String.ofList h.module), names, false, false, false⟩

end FromHead

theorem isDottedPart_of_isBlank {c : Char} (h : isBlank c = true) : isDottedPart c = false := by
  have dot : (c == '.') = false := beq_eq_false_iff_ne.mpr fun e => absurd h (by rw [e]; decide)
  rw [isDottedPart, isWord_of_isBlank h, dot]
  rfl

theorem head?_any_isDottedPart (gap : Break) (rest : List Char) :
    (gap.chars ++ rest).head?.any isDottedPart = false := by
  obtain ⟨b, first, blank⟩ := gap.exists_head? rest
  rw [first]
  exact isDottedPart_of_isBlank blank

/-- Whether a character may stand in the names that are taken from the line. -/
def isBeforeComment (c : Char) : Bool := c != '#' && c != '\n'

variable (h : FromHead) {run rest : List Char}

namespace FromHead

theorem head?_any_isBlank (rest : List Char) : (h.module ++ rest).head?.any isBlank = false := by
  obtain ⟨c, module, split⟩ := List.exists_cons_of_ne_nil h.named
  have part := h.dotted c (split ▸ List.mem_cons_self)
  rw [split]
  exact Bool.eq_false_iff.mpr fun blank =>
    Bool.noConfusion (part.symm.trans (isDottedPart_of_isBlank blank))

/-- What is found of the statement: its module, and the names up to a comment or the end of the
line. -/
def found (space : Break) (run rest : List Char) : Found FromImport where
  value :=
    ⟨.between ("from".toList ++ h.gap.chars) h.module (h.space.chars ++ ("import".toList ++
      (space.chars ++ (run ++ rest)))), .between (h.text ++ space.chars) run rest⟩
  start := between [] (h.text ++ (space.chars ++ (run ++ rest)))
  stop := between (h.text ++ space.chars ++ run) rest

theorem at?_text (space : Break) (starts : (run ++ rest).head?.any isBlank = false)
    (nonempty : run ≠ []) (inside : ∀ y ∈ run, isBeforeComment y = true)
    (stop : rest.head?.any isBeforeComment = false) :
    fromImport.at? (between [] (h.text ++ (space.chars ++ (run ++ rest)))) =
      some (h.found space run rest) := by
  have shape : h.text ++ (space.chars ++ (run ++ rest)) = [] ++ ("from".toList ++ (h.gap.chars ++
      (h.module ++ (h.space.chars ++ ("import".toList ++ (space.chars ++ (run ++ rest))))))) := by
    simp [text]
  have indented : indent.Prefers (between [] ([] ++ ("from".toList ++ (h.gap.chars ++ (h.module ++
      (h.space.chars ++ ("import".toList ++ (space.chars ++ (run ++ rest))))))))) () _ :=
    prefers_many (List.forall_mem_nil _) rfl
  have way : fromImport.Prefers (between [] _) _ _ :=
    (prefers_lineStart rfl).bind <| indented.bind <|
    (prefers_literal "from" _ _).bind <|
    (prefers_blanks1 h.gap (h.head?_any_isBlank _)).bind <|
    (prefers_many1 h.named h.dotted (head?_any_isDottedPart h.space _)).captured.bind <|
    (prefers_blanks1 h.space rfl).bind <| (prefers_literal "import" _ _).bind <|
    (prefers_blanks1 space starts).bind <|
    (prefers_many1 nonempty inside stop).captured.bind <| prefers_pure _ _
  have found := way.at
  rw [← shape] at found
  rw [found, FromHead.found]
  simp [text]

end FromHead

/-- A module, and `import` between blanks behind it. -/
def StartsModule (s : List Char) : Prop :=
  ∃ run more, run ≠ [] ∧ (∀ c ∈ run, isDottedPart c = true) ∧ s = run ++ more ∧
    AfterBreak (Behind "import".toList (AfterBreak fun _ => True)) more

theorem offers_indent_bind {α : Type} {f : Unit → Recognizer α} {P : List Char → Prop}
    (next : (f ()).Offers fun c _ _ => P c.rest) :
    (indent >>= f).Offers fun c _ _ => AfterGap P c.rest := by
  refine ((offers_many fun c => c == ' ' || c == '\t').bind fun _ => next).imp ?_
  rintro c _ _ ⟨_, d, ⟨run, spaces, split⟩, follows⟩
  refine ⟨⟨run, fun c hc => ?_⟩, d.rest, split, follows⟩
  have space := spaces c hc
  rw [Bool.or_eq_true, beq_iff_eq, beq_iff_eq] at space
  rcases space with rfl | rfl <;> decide

instance : Forward beforeComment := inferInstanceAs (Forward (captured (many1 _)))

theorem fromImport_offers : fromImport.Offers fun c _ _ => c.before.all (· == '\n') = true ∧
    AfterGap (Behind "from".toList (AfterBreak StartsModule)) c.rest := by
  have named : (captured (many1 isDottedPart) >>= fun module => blanks1 >>= fun _ =>
      literal "import" >>= fun _ => blanks1 >>= fun _ => beforeComment >>= fun names =>
      (pure ⟨module, names⟩ : Recognizer FromImport)).Offers fun c _ _ => StartsModule c.rest := by
    refine ((offers_many1 isDottedPart).captured.bind fun _ => offers_blanks1_bind <|
      offers_literal_bind "import" <| offers_blanks1_any).imp ?_
    rintro c _ _ ⟨_, d, ⟨_, _, x, run, first, others, split⟩, follows⟩
    exact ⟨x :: run, d.rest, List.cons_ne_nil x run, List.forall_mem_cons.mpr ⟨first, others⟩,
      split, follows⟩
  have form : fromImport.Offers _ := offers_lineStart.bind fun _ => offers_indent_bind <|
    offers_literal_bind "from" <| offers_blanks1_bind named
  refine form.imp ?_
  rintro c _ _ ⟨_, _, ⟨start, rfl⟩, line⟩
  exact ⟨start, line⟩

theorem plainImport_offers : plainImport.Offers fun c _ _ =>
    c.before.all (· == '\n') = true ∧ KeywordLine "import".toList c.rest := by
  have form : plainImport.Offers _ := offers_lineStart.bind fun _ => offers_indent_bind <|
    offers_literal_bind "import" <| offers_blanks1_any
  refine form.imp ?_
  rintro c _ _ ⟨_, _, ⟨start, rfl⟩, line⟩
  exact ⟨start, line⟩

theorem fromImport_offers_line : fromImport.Offers fun c _ _ =>
    c.before.all (· == '\n') = true ∧ KeywordLine "from".toList c.rest := by
  refine fromImport_offers.imp ?_
  rintro c _ _ ⟨start, gap, _, split, more, rfl, brk, later, follows, _⟩
  exact ⟨start, gap, _, split, more, rfl, brk, later, follows, trivial⟩

end Head

section Statements

variable (h : FromHead) {run rest s : List Char} {space : Gap}

namespace FromHead

theorem noFeed : '\n' ∉ h.text := by
  have gaps := h.oneLine
  rw [List.mem_append, not_or] at gaps
  have dotted : '\n' ∉ h.module := fun inside => absurd (h.dotted _ inside) (by decide)
  simp only [text, List.mem_append, not_or]
  exact ⟨by decide, gaps.1, dotted, gaps.2, by decide⟩

/-- No import without `from` stands in a statement behind which none stands. -/
theorem plainImports_eq_nil (calm : Calm "import".toList s) : plainImports (h.text ++ s) = [] := by
  have word : ¬ KeywordLine "import".toList (h.text ++ s) := by
    rw [text, List.append_assoc]
    exact not_keywordLine_run isKeyword_import (by decide)
      (List.all_eq_true.mp (by decide)) (by decide)
      (by rw [List.append_assoc]; exact h.gap.head?_any_isNamePart _)
  have nothing : plainImport.all (h.text ++ s) = [] :=
    (all_eq_allBehind _ _).trans <|
      allBehind_eq_nil plainImport_offers (calm_append h.noFeed calm) fun _ => word
  rw [plainImports, nothing, List.flatMap_nil]

/-- What a statement gives, where its names are read. -/
def imports (names : List String) : List ImportStatement :=
  match names with
  | [] => []
  | names => [h.statement names]

theorem imports_eq_iff {names names' : List String} (some_name : names' ≠ []) :
    h.imports names = [h.statement names'] ↔ names = names' := by
  cases names with
  | nil => simp [imports, some_name.symm]
  | cons name names => simp [imports, statement]

/-- The statement is the one that is found, where no other one stands behind it. -/
theorem extract_imports (space : Break) (run rest : List Char)
    (starts : (run ++ rest).head?.any isBlank = false) (nonempty : run ≠ [])
    (inside : ∀ y ∈ run, isBeforeComment y = true)
    (stop : rest.head?.any isBeforeComment = false) (oneLine : '\n' ∉ space.chars)
    (calm : ∀ keyword, IsKeyword keyword → Calm keyword rest) (path : String)
    (language : Option Language) :
    (Extractor.python.extract path (h.text ++ (space.chars ++ (run ++ rest))) language).imports =
      h.imports (FromImport.importedNames (h.found space run rest)) := by
  have noFeed : '\n' ∉ run := fun feed => absurd (inside _ feed) (by decide)
  have only : fromImport.all (h.text ++ (space.chars ++ (run ++ rest))) =
      [h.found space run rest] := by
    have last : (h.text ++ space.chars ++ run).getLast?.all (· == '\n') = true →
        ¬ KeywordLine "from".toList rest := by
      intro feed
      rw [List.getLast?_append_of_ne_nil _ nonempty] at feed
      obtain ⟨c, ends⟩ : ∃ c, run.getLast? = some c := ⟨_, List.getLast?_eq_some_getLast nonempty⟩
      rw [ends, Option.all_some, beq_iff_eq] at feed
      exact absurd (feed ▸ List.mem_of_getLast? ends) noFeed
    have found := h.at?_text space starts nonempty inside stop
    have shape : h.text ++ (space.chars ++ (run ++ rest)) =
      h.text ++ space.chars ++ run ++ rest := by
      simp
    rw [shape] at found ⊢
    have whole := allBehind_of_at found rfl (by simp [nonempty])
    rw [List.nil_append, allBehind_eq_nil fromImport_offers_line (calm _ isKeyword_from) last]
      at whole
    exact whole
  have plain : plainImports (h.text ++ (space.chars ++ (run ++ rest))) = [] :=
    h.plainImports_eq_nil <| calm_append oneLine <| calm_append noFeed (calm _ isKeyword_import)
  change fromImports _ ++ plainImports _ = _
  rw [fromImports, only, plain, List.append_nil, List.filterMap_cons, List.filterMap_nil]
  have module : (h.found space run rest).value.module.text = String.ofList h.module :=
    congrArg String.ofList (Span.chars_between _ _ _)
  rw [module]
  cases FromImport.importedNames (h.found space run rest) <;> rfl

end FromHead

end Statements

section Lines

/-- Items on one line. -/
structure NameLine where
  items : List (Gap × NamedItem × Gap)
  nonempty : items ≠ []
  oneLine : ∀ i ∈ items, '\n' ∉ i.1.chars ++ (i.2.1.text ++ i.2.2.chars)

/-- The line that follows a comma, a backslash and a line feed. -/
structure NextLine where
  gap : Gap
  oneLine : '\n' ∉ gap.chars
  line : NameLine

namespace NameLine

def entries (l : NameLine) : List ListedItem :=
  l.items.map fun (lead, item, tail) => ⟨⟨lead, []⟩, item, ⟨tail, []⟩⟩

/-- The line, and blanks behind one more comma if there is one. -/
def list (l : NameLine) (trailing : Option Gap) : NameList :=
  ⟨l.entries, fun nothing => l.nonempty (List.map_eq_nil_iff.mp nothing),
    trailing.map fun gap => ⟨gap, []⟩⟩

def text (l : NameLine) : List Char := (l.list none).text ['#']

end NameLine

def NextLine.text (n : NextLine) : List Char :=
  ',' :: (n.gap.chars ++ '\\' :: '\n' :: n.line.text)

/-- Names on one or more lines. -/
structure NamesOnLines where
  first : NameLine
  more : List NextLine

namespace NamesOnLines

variable (l : NamesOnLines)

def text : List Char := l.first.text ++ l.more.flatMap NextLine.text

def items : List NamedItem := (l.first.items ++ l.more.flatMap (·.line.items)).map (·.2.1)

end NamesOnLines

variable {l : NameLine} {trailing : Option Gap} {c : Char}

theorem NameLine.bare (l : NameLine) (trailing : Option Gap) :
    ∀ f ∈ (l.list trailing).fillers, f.remarks = [] := by
  intro f hf
  rcases List.mem_append.mp hf with inside | behind
  · obtain ⟨e, he, place⟩ := List.mem_flatMap.mp inside
    obtain ⟨i, _, rfl⟩ := List.mem_map.mp he
    rcases List.mem_pair.mp place with rfl | rfl <;> rfl
  · obtain ⟨gap, _, rfl⟩ := Option.map_eq_some_iff.mp (Option.mem_toList.mp behind)
    rfl

theorem NameLine.read (l : NameLine) (trailing : Option Gap) :
    splitNameChars .sourceName ((l.list trailing).text ['#']) = l.items.map (·.2.1.name.text) := by
  rw [NameList.read_bare _ (l.bare trailing)]
  change (l.items.map _).map _ = _
  rw [List.map_map]
  rfl

/-- What stands neither in names nor between them is not on the line. -/
theorem NameLine.not_mem (part : isNamePart c = false) (solid : isBlank c = false)
    (notComma : c ≠ ',') : c ∉ (l.list trailing).text ['#'] := by
  rw [NameList.text_of_bare (l.bare trailing) ['#'] []]
  intro inside
  rcases mem_joinChars inside with separator | ⟨p, hp, inside⟩
  · exact notComma (List.mem_singleton.mp separator)
  · refine (l.list trailing).not_mem_pieces part solid List.not_mem_nil (fun f hf r hr => ?_) p hp
      inside
    exact absurd (l.bare trailing f hf ▸ hr) List.not_mem_nil

theorem NameLine.text_list_some (l : NameLine) (gap : Gap) :
    (l.list (some gap)).text ['#'] = l.text ++ ',' :: gap.chars := by
  have pieces := (l.list none).pieces_ne_nil ['#']
  have whole := joinChars_append [','] pieces (List.cons_ne_nil gap.chars [])
  rw [joinChars_singleton] at whole
  have same : (l.list (some gap)).pieces ['#'] = (l.list none).pieces ['#'] ++ [gap.chars] := by
    simp [NameList.pieces, NameLine.list, Filler.text]
  rw [NameList.text, same, whole]
  simp [NameLine.text, NameList.text]

theorem NameLine.noFeed (l : NameLine) : '\n' ∉ l.text := by
  intro inside
  rcases mem_joinChars inside with separator | ⟨p, hp, inside⟩
  · exact absurd separator (by decide)
  · simp only [NameLine.list, NameList.pieces, NameLine.entries, Option.map_none,
      Option.toList_none, List.map_nil, List.append_nil, List.map_map] at hp
    obtain ⟨i, hi, rfl⟩ := List.mem_map.mp hp
    exact l.oneLine i hi (by simpa [ListedItem.text, Filler.text] using inside)

/-- A line starts with its first name, with blanks in front. -/
theorem NameLine.exists_body (l : NameLine) : ∃ lead : Gap, ∃ n : Name, ∃ rest,
    l.text = lead.chars ++ (n.chars ++ rest) := by
  obtain ⟨e, he, rest, shape⟩ := (l.list none).exists_first ['#']
  obtain ⟨i, _, rfl⟩ := List.mem_map.mp he
  refine ⟨i.1, i.2.1.name, NamedItem.aliasText i.2.1.alias? ++ (i.2.2.chars ++ rest), ?_⟩
  rw [NameLine.text, shape]
  simp [ListedItem.text, Filler.text, NamedItem.text]

/-- A line is read behind its leading blanks, with or without a backslash at its end. -/
theorem NameLine.read_run {lead : Gap} {s : List Char}
    (whole : (l.list trailing).text ['#'] = lead.chars ++ s)
    (starts : s.head?.any isBlank = false) :
    splitNameChars .sourceName (trimRightOf (· == '\\') (trimChars s)) =
        l.items.map (·.2.1.name.text) ∧
      splitNameChars .sourceName (trimRightOf (· == '\\') (trimChars (s ++ ['\\']))) =
        l.items.map (·.2.1.name.text) := by
  have absent {c : Char} (part : isNamePart c = false) (solid : isBlank c = false)
      (notComma : c ≠ ',') : c ∉ lead.chars ++ s := whole ▸ l.not_mem part solid notComma
  have plain : ∀ c ∈ lead.chars ++ s, c ≠ '#' ∧ c ≠ '/' := by
    refine fun c hc => ⟨?_, ?_⟩ <;> rintro rfl <;>
      exact absent (by decide) (by decide) (by decide) hc
  have behind : ∀ c ∈ s, c ≠ '#' ∧ c ≠ '/' := fun c hc => plain c (List.mem_append_right _ hc)
  have noSlash : '\\' ∉ s := fun inside =>
    absent (by decide) (by decide) (by decide) (List.mem_append_right _ inside)
  have stays {t : List Char} (h : '\\' ∉ t) : trimRightOf (· == '\\') t = t := by
    refine trimRightOf_of_last ?_
    cases last : t.getLast? with
    | none => rfl
    | some c => exact beq_eq_false_iff_ne.mpr fun same => h (same ▸ List.mem_of_getLast? last)
  have names : splitNameChars .sourceName s = l.items.map (·.2.1.name.text) := by
    rw [← l.read trailing, whole, splitNameChars_plain plain, splitNameChars_plain behind,
      filterMap_append_left lead.blank]
  constructor
  · rw [stays fun inside => noSlash ((mem_trimChars (by decide)).mp inside),
      splitNameChars_trimChars behind, names]
  · have solid : (s ++ ['\\']).head?.any isBlank = false := by
      cases s with
      | nil => rfl
      | cons c s => exact starts
    rw [trimChars_of_ends solid (by simp [List.getLast?_append]; decide),
      trimRightOf_append (by simp), stays noSlash, names]

/-- What ends a statement: nothing, or a line feed with blanks behind it. -/
structure Ending extends Gap where
  feed : chars.head?.all (· == '\n') = true

theorem importedNames_of_name (h : FromHead) (space : Break) (n : Name) (body rest : List Char) :
    FromImport.importedNames (h.found space (n.chars ++ body) rest) = splitNameChars .sourceName
      (trimRightOf (· == '\\') (trimChars (n.chars ++ body))) := by
  obtain ⟨c, chars, split⟩ := List.exists_cons_of_ne_nil n.nonempty
  have member : c ∈ n.chars := split ▸ List.mem_cons_self
  have paren : c ≠ '(' := fun same => n.not_mem (by decide) (same ▸ member)
  have starts : (trimChars (n.chars ++ body)).head? = some c := by
    rw [split]
    exact head?_trimChars (n.solid c member) _
  have names : (h.found space (n.chars ++ body) rest).value.names.chars = n.chars ++ body :=
    Span.chars_between _ _ _
  have unopened : ((trimChars (n.chars ++ body)).head? == some '(') = false := by
    rw [starts]
    exact beq_eq_false_iff_ne.mpr fun same => paren (Option.some.inj same)
  rw [FromImport.importedNames, names]
  simp only [unopened, Bool.false_eq_true, if_false]

theorem Ending.head?_any (ending : Ending) {p : Char → Bool} (feed : p '\n' = false) :
    ending.chars.head?.any p = false := by
  obtain ⟨⟨chars, _⟩, starts⟩ := ending
  cases chars with
  | nil => rfl
  | cons c chars =>
      have same : c = '\n' := by simpa using starts
      exact same ▸ feed

theorem Ending.tame {keyword : List Char} (known : IsKeyword keyword) (ending : Ending) :
    Tame keyword ending.chars := by
  have whole := (tame_nil known).gap known ending.blank
  rwa [List.append_nil] at whole

theorem head?_any_more (more : List NextLine) (ending : Ending) :
    (more.flatMap NextLine.text ++ ending.chars).head?.any isNamePart = false := by
  cases more with
  | nil => exact ending.head?_any rfl
  | cons next more => rfl

/-- No further line of a list starts with a keyword. -/
theorem tame_more {keyword : List Char} (known : IsKeyword keyword) (ending : Ending)
    {more : List NextLine}
    (other : ∀ next ∈ more, ∀ i ∈ next.line.items, Unreserved i.2.1) :
    Tame keyword (more.flatMap NextLine.text ++ ending.chars) := by
  induction more with
  | nil => exact ending.tame known
  | cons next more ih =>
      have later := ih fun n hn => other n (List.mem_cons_of_mem next hn)
      have names : ∀ e ∈ next.line.entries, Unreserved e.item := by
        intro e he
        obtain ⟨i, hi, rfl⟩ := List.mem_map.mp he
        exact other next List.mem_cons_self i hi
      have line := Tame.list known (next.line.list none) names (head?_any_more more ending) later
      have feed := line.gap known (t := ['\n']) (List.all_eq_true.mp (by decide))
      have slash := tame_cons (c := '\\') known (by decide) (by decide) feed.later
      have comma := tame_cons (c := ',') known (by decide) (by decide)
        (slash.gap known next.gap.blank).later
      simpa [NextLine.text, NameLine.text] using comma

theorem isBeforeComment_of_not_mem {s : List Char} (noHash : '#' ∉ s) (noFeed : '\n' ∉ s) :
    ∀ y ∈ s, isBeforeComment y = true := by
  intro y hy
  rw [isBeforeComment, Bool.and_eq_true, bne_iff_ne, bne_iff_ne]
  exact ⟨fun same => noHash (same ▸ hy), fun same => noFeed (same ▸ hy)⟩

/-- A statement whose names start with a name gives those up to a comment or the end of the line. -/
theorem FromHead.extract_names (h : FromHead) (space : Break) (oneLine : '\n' ∉ space.chars)
    (n : Name) (body : List Char) {rest : List Char} (noHash : '#' ∉ n.chars ++ body)
    (noFeed : '\n' ∉ n.chars ++ body) (stop : rest.head?.any isBeforeComment = false)
    (calm : ∀ keyword, IsKeyword keyword → Calm keyword rest) (path : String)
    (language : Option Language) :
    (Extractor.python.extract path (h.text ++ (space.chars ++ (n.chars ++ body ++ rest)))
        language).imports = h.imports
      (splitNameChars .sourceName (trimRightOf (· == '\\') (trimChars (n.chars ++ body)))) := by
  have starts : (n.chars ++ body ++ rest).head?.any isBlank = false := by
    rw [List.append_assoc]
    exact n.head?_any _
  rw [h.extract_imports space _ rest starts (List.append_ne_nil_of_left_ne_nil n.nonempty _)
    (isBeforeComment_of_not_mem noHash noFeed) stop oneLine calm, importedNames_of_name]

/-- Only the names of the first line are read. -/
theorem NamesOnLines.extract_imports (l : NamesOnLines) (other : ∀ i ∈ l.items, Unreserved i)
    (h : FromHead) (space : Break) (oneLine : '\n' ∉ space.chars) (ending : Ending) (path : String)
    (language : Option Language) :
    (Extractor.python.extract path (h.text ++ (space.chars ++ (l.text ++ ending.chars)))
        language).imports = h.imports (l.first.items.map (·.2.1.name.text)) := by
  obtain ⟨first, more⟩ := l
  obtain ⟨lead, n, body, shape⟩ := first.exists_body
  have noFeed := first.noFeed
  have noHash : '#' ∉ first.text := first.not_mem (by decide) (by decide) (by decide)
  rw [shape, List.mem_append, not_or] at noFeed noHash
  have spaced : '\n' ∉ (space.append lead).chars := by
    simp only [Break.append, List.mem_append, not_or]
    exact ⟨oneLine, noFeed.1⟩
  cases more with
  | nil =>
      have whole : (first.list none).text ['#'] = lead.chars ++ (n.chars ++ body) := shape
      have extracted := h.extract_names (space.append lead) spaced n body noHash.2 noFeed.2
        (ending.head?_any rfl) (fun _ known => (ending.tame known).later) path language
      rw [← (first.read_run whole (n.head?_any body)).1, ← extracted]
      simp [text, shape, Break.append]
  | cons next more =>
      have known : ∀ n ∈ next :: more, ∀ i ∈ n.line.items, Unreserved i.2.1 := by
        intro n hn i hi
        refine other i.2.1 (List.mem_map_of_mem (List.mem_append_right _ ?_))
        exact List.mem_flatMap.mpr ⟨n, hn, hi⟩
      -- The run goes up to the backslash; the line feed behind it is where the reading stops.
      let tail := body ++ ',' :: next.gap.chars
      let rest := '\n' :: (next.line.text ++ (more.flatMap NextLine.text ++ ending.chars))
      have whole : (first.list (some next.gap)).text ['#'] = lead.chars ++ (n.chars ++ tail) := by
        rw [first.text_list_some, shape]
        simp [tail]
      have gap : '#' ∉ next.gap.chars := not_mem_of_blank next.gap.blank (by decide)
      have breaks := next.oneLine
      have calm : ∀ keyword, IsKeyword keyword → Calm keyword rest := by
        intro keyword reserved front back split
        refine (tame_more reserved ending known).later
          (',' :: (next.gap.chars ++ '\\' :: front)) back ?_
        simpa [NextLine.text, rest] using split
      have extracted := h.extract_names (space.append lead) spaced n (tail ++ ['\\'])
        (by simpa [tail, gap] using noHash.2) (by simpa [tail, breaks] using noFeed.2) rfl calm path
        language
      have read := (first.read_run whole (n.head?_any _)).2
      rw [List.append_assoc] at read
      rw [← read, ← extracted]
      simp [text, shape, Break.append, tail, rest, NextLine.text]

end Lines

section Parentheses

variable (h : FromHead) {inner : List Char}

theorem parenthesizedNames_offers : parenthesizedNames.Offers fun c _ _ =>
    Behind "import".toList (AfterGap (·.head? = some '(')) c.rest := by
  refine offers_literal_bind "import" (offers_blanks_bind ?_)
  refine Offers.starts (P := (·.head? = some '(')) ((offers_exactly '(').imp ?_)
  rintro c _ d ⟨split, _⟩
  rw [split]
  rfl

theorem cutAt?_single {c : Char} {s : List Char} (h : c ∉ s) (t : List Char) :
    cutAt? [c] (s ++ c :: t) = some (s, t) := by
  induction s with
  | nil => simp [cutAt?, afterStart?]
  | cons d s ih =>
      rw [List.mem_cons, not_or] at h
      simp [cutAt?, afterStart?, h.1, ih h.2]

theorem upToClose?_append {s : List Char} (h : ')' ∉ s) (t : List Char) :
    upToClose? (s ++ ')' :: t) = some (s ++ [')']) := by
  have shape : s ++ ')' :: t = s ++ [')'] ++ t := by simp
  rw [upToClose?, find?, cutAt?_single h, Option.map_some, Option.map_some, shape]
  exact congrArg some (List.take_left' (by simp))

namespace FromHead

/-- Before its last word the head has no `import` with a parenthesis behind it. -/
theorem absent_import (rest : List Char) :
    Absent (Behind "import".toList (AfterGap (·.head? = some '(')))
      ("from".toList ++ (h.gap.chars ++ (h.module ++ h.space.chars)))
      ("import".toList ++ rest) := by
  have paren : ∀ more : List Char, more.head? = some '(' → more.head?.any isBlank = false :=
    fun more first => by rw [first]; rfl
  have behind : ¬ AfterGap (·.head? = some '(') (h.space.chars ++ ("import".toList ++ rest)) := by
    intro starts
    have first := starts.behind paren h.space.blank rfl
    cases first
  have stops : ∀ more, AfterGap (·.head? = some '(') more →
      more.head?.any isDottedPart = false := by
    rintro _ ⟨⟨gap, blank⟩, more, rfl, first⟩
    cases gap with
    | nil =>
        rw [List.nil_append, first]
        decide
    | cons c gap => exact isDottedPart_of_isBlank (blank c List.mem_cons_self)
  simp only [absent_append]
  refine ⟨absent_other rfl (by decide), absent_gap rfl rfl h.gap.toGap _, ?_,
    absent_gap rfl rfl h.space.toGap _⟩
  exact absent_run (List.all_eq_true.mp (by decide)) h.dotted (head?_any_isDottedPart h.space _)
    stops behind

theorem first?_text (space : Gap) {names : List Char} (noClose : ')' ∉ names) :
    ∃ m, parenthesizedNames.first? (h.text ++ (space.chars ++ '(' :: (names ++ [')']))) = some m ∧
      m.value.chars = names := by
  let front := "from".toList ++ (h.gap.chars ++ (h.module ++ h.space.chars))
  have inside : ∀ y ∈ names, (y != ')') = true := fun y hy =>
    bne_iff_ne.mpr fun same => noClose (same ▸ hy)
  have way : parenthesizedNames.Prefers
      (between front ("import".toList ++ (space.chars ++ '(' :: (names ++ [')'])))) _ _ :=
    (prefers_literal "import" _ _).bind <| (prefers_blanks space.blank rfl).bind <|
    (prefers_exactly '(' _ _).bind <| (prefers_many inside rfl).captured.bind <|
    (prefers_exactly ')' _ _).bind <| prefers_pure _ _
  have found := first?_append_of_absent parenthesizedNames_offers (h.absent_import _) way.at
  refine ⟨_, Eq.trans ?_ found, Span.chars_between _ _ _⟩
  simp [text]

end FromHead

/-- Names in parentheses are read up to the first closing one. -/
theorem importedNames_paren (space : Break) (run rest : List Char)
    (shape : run ++ rest = '(' :: inner) (nonempty : run ≠ []) (closes : ')' ∈ inner) :
    FromImport.importedNames (h.found space run rest) =
      splitNameChars .sourceName (firstPiece ')' inner) := by
  obtain ⟨names, after, rfl, noClose⟩ := List.eq_append_cons_of_mem closes
  have read : firstPiece ')' (names ++ ')' :: after) = names := by
    rw [firstPiece_append noClose]
    simp [firstPiece]
  obtain ⟨m, first, whole⟩ := h.first?_text space.toGap noClose
  have start : (h.found space run rest).start.rest =
      h.text ++ (space.chars ++ '(' :: names) ++ ')' :: after := by
    change h.text ++ (space.chars ++ (run ++ rest)) = _
    rw [shape]
    simp
  have before : ')' ∉ h.text ++ (space.chars ++ '(' :: names) := by
    have gap (gap : Break) : ')' ∉ gap.chars := not_mem_of_blank gap.blank (by decide)
    have module : ')' ∉ h.module := fun inside => absurd (h.dotted _ inside) (by decide)
    simp [FromHead.text, gap, module, noClose]
  have statement : h.text ++ (space.chars ++ '(' :: names) ++ [')'] =
      h.text ++ (space.chars ++ '(' :: (names ++ [')'])) := by simp
  have chars : (h.found space run rest).value.names.chars = run := Span.chars_between _ _ _
  have opened : ((trimChars run).head? == some '(') = true := by
    obtain ⟨c, run, rfl⟩ := List.exists_cons_of_ne_nil nonempty
    obtain ⟨rfl, _⟩ := List.cons.inj shape
    rw [head?_trimChars (by decide)]
    rfl
  rw [FromImport.importedNames, chars, read]
  simp only [opened, if_true, start, upToClose?_append before, statement, first, whole]

variable {l : NameList} (other : ∀ e ∈ l.entries, Unreserved e.item)
include other

theorem tame_parentheses {keyword : List Char} (known : IsKeyword keyword) (ending : Ending) :
    Tame keyword ('(' :: (l.text ['#'] ++ ')' :: ending.chars)) := by
  have close := tame_cons (c := ')') known (by decide) (by decide) (ending.tame known).later
  have list := Tame.list known l other rfl close
  exact tame_cons known (by decide) (by decide) list.later

/-- Of a list in parentheses what stands before the first closing one is read. -/
theorem FromHead.extract_parentheses (space : Break) (oneLine : '\n' ∉ space.chars)
    (ending : Ending) (path : String) (language : Option Language) :
    (Extractor.python.extract path (h.text ++ (space.chars ++ '(' :: (l.text ['#'] ++
        ')' :: ending.chars))) language).imports =
      h.imports (splitNameChars .sourceName
        (firstPiece ')' (l.text ['#'] ++ ')' :: ending.chars))) := by
  let inner := l.text ['#'] ++ ')' :: ending.chars
  let run := '(' :: inner.takeWhile isBeforeComment
  let rest := inner.dropWhile isBeforeComment
  have shape : run ++ rest = '(' :: inner := by
    simp [run, rest, List.takeWhile_append_dropWhile]
  have inside : ∀ y ∈ run, isBeforeComment y = true :=
    List.forall_mem_cons.mpr ⟨by decide, fun y hy => List.mem_takeWhile_imp hy⟩
  have stop : rest.head?.any isBeforeComment = false := by
    have stops := List.head?_dropWhile_not isBeforeComment inner
    cases first : rest.head? with
    | none => rfl
    | some c =>
        rw [show (inner.dropWhile isBeforeComment).head? = some c from first] at stops
        simpa using stops
  have calm : ∀ keyword, IsKeyword keyword → Calm keyword rest := by
    intro keyword known front back split
    refine (tame_parentheses other known ending).later (run ++ front) back ?_
    rw [List.append_assoc, ← split]
    exact shape.symm
  have extracted := h.extract_imports space run rest (by rw [shape]; rfl) (List.cons_ne_nil _ _)
    inside stop oneLine calm path language
  rw [importedNames_paren h space run rest shape (List.cons_ne_nil _ _) (by simp [inner]), shape]
    at extracted
  exact extracted

omit other in
/-- Without a blank behind `import` the head starts no statement. -/
theorem FromHead.not_starts (rest : List Char) :
    ¬ AfterGap (Behind "from".toList (AfterBreak StartsModule)) (h.text ++ '(' :: rest) := by
  have heads {keyword : List Char} {Q : List Char → Prop} (known : IsKeyword keyword)
      (s : List Char) (starts : Behind keyword Q s) : s.head?.any isBlank = false := by
    obtain ⟨more, rfl, _⟩ := starts
    exact known.head?_any more
  have modules (s : List Char) (starts : StartsModule s) : s.head?.any isBlank = false := by
    obtain ⟨run, more, nonempty, dotted, rfl, _⟩ := starts
    obtain ⟨c, run, rfl⟩ := List.exists_cons_of_ne_nil nonempty
    exact Bool.eq_false_iff.mpr fun blank => Bool.noConfusion
      ((dotted c List.mem_cons_self).symm.trans (isDottedPart_of_isBlank blank))
  have shape : h.text ++ '(' :: rest = [] ++ ("from".toList ++ (h.gap.chars ++ (h.module ++
      (h.space.chars ++ ("import".toList ++ '(' :: rest))))) := by simp [text]
  rw [shape]
  intro starts
  obtain ⟨_, split, follows⟩ := starts.behind (heads isKeyword_from) (List.forall_mem_nil _) rfl
  cases List.append_cancel_left split
  obtain ⟨run, more, _, dotted, split, follows⟩ := follows.toGap.behind modules h.gap.blank
    (h.head?_any_isBlank _)
  have ends : more.head?.any isDottedPart = false := by
    obtain ⟨gap, more, rfl, _⟩ := follows
    exact head?_any_isDottedPart gap more
  obtain ⟨_, rfl⟩ := eq_of_runs h.dotted dotted (head?_any_isDottedPart h.space _) ends split
  obtain ⟨_, split, gap, more, same, _⟩ := follows.toGap.behind (heads isKeyword_import)
    h.space.blank rfl
  cases List.append_cancel_left split
  obtain ⟨c, chars, first⟩ := List.exists_cons_of_ne_nil gap.nonempty
  rw [first, List.cons_append] at same
  obtain ⟨rfl, _⟩ := List.cons.inj same
  exact absurd (gap.blank '(' (first ▸ List.mem_cons_self)) (by decide)

theorem FromHead.extract_unspaced (ending : Ending) (path : String) (language : Option Language) :
    (Extractor.python.extract path (h.text ++ '(' :: (l.text ['#'] ++ ')' :: ending.chars))
        language).imports = [] := by
  let content := h.text ++ '(' :: (l.text ['#'] ++ ')' :: ending.chars)
  have calm {keyword : List Char} (known : IsKeyword keyword) : Calm keyword content :=
    calm_append h.noFeed (tame_parentheses other known ending).later
  have nowhere : fromImport.at? (between [] content) = none := by
    refine Option.eq_none_iff_forall_ne_some.mpr fun m found => ?_
    exact h.not_starts _ (fromImport_offers.at found).2.2
  have none : fromImport.all content = [] := by
    have starts : content = 'f' :: content.tail := by simp [content, text]
    rw [starts] at nowhere
    rw [all_eq_allBehind, starts, allBehind_cons_of_none nowhere]
    refine allBehind_eq_nil fromImport_offers_line (fun front back split => ?_) ?_
    · exact calm isKeyword_from ('f' :: front) back (starts.trans (congrArg ('f' :: ·) split))
    · intro feed
      cases feed
  have plain : plainImports content = [] :=
    h.plainImports_eq_nil (tame_parentheses other isKeyword_import ending).later
  change fromImports content ++ plainImports content = []
  rw [fromImports, none, plain]
  rfl

end Parentheses

/-- The layout of a from-import against what is imported. Names on lines are all read exactly where
there is no second line; names in parentheses, where a blank stands in front of these and no comment
in front of the last name holds a closing one. -/
theorem imports_layout_iff (h : FromHead) (ending : Ending) (path : String)
    (language : Option Language) :
    (∀ (space : Break) (l : NamesOnLines), '\n' ∉ space.chars → (∀ i ∈ l.items, Unreserved i) →
      ((Extractor.python.extract path (h.text ++ (space.chars ++ (l.text ++ ending.chars)))
          language).imports = [h.statement (l.items.map (·.name.text))] ↔ l.more = [])) ∧
    ∀ (space : Gap) (l : NameList), '\n' ∉ space.chars → (∀ e ∈ l.entries, Unreserved e.item) →
      ((Extractor.python.extract path (h.text ++ (space.chars ++ '(' :: (l.text ['#'] ++
          ')' :: ending.chars))) language).imports =
        [h.statement (l.entries.map (·.item.name.text))] ↔
      space.chars ≠ [] ∧ ∀ f ∈ l.inner, ¬ Closes f) := by
  constructor
  · intro space l oneLine other
    have some_name : l.items.map (·.name.text) ≠ [] := by
      simp [NamesOnLines.items, l.first.nonempty]
    rw [l.extract_imports other h space oneLine ending path language, h.imports_eq_iff some_name]
    constructor
    · intro same
      have length := congrArg List.length same
      simp only [NamesOnLines.items, List.map_append, List.map_map, List.length_append,
        List.length_map] at length
      refine List.eq_nil_iff_forall_not_mem.mpr fun next member => ?_
      obtain ⟨i, items, split⟩ := List.exists_cons_of_ne_nil next.line.nonempty
      have inside : i ∈ l.more.flatMap (·.line.items) :=
        List.mem_flatMap.mpr ⟨next, member, split ▸ List.mem_cons_self⟩
      have positive := List.length_pos_of_mem inside
      omega
    · intro one
      simp [NamesOnLines.items, one]
  · intro space l oneLine other
    have some_name : l.entries.map (·.item.name.text) ≠ [] := by simp [l.nonempty]
    by_cases spaced : space.chars = []
    · rw [spaced, List.nil_append, h.extract_unspaced other ending path language]
      simp
    · have read := h.extract_parentheses other ⟨space, spaced⟩ oneLine ending path language
      rw [read, h.imports_eq_iff some_name, l.read_iff]
      simp [spaced]

def fromModels : FromHead where
  gap := .space
  module := ".models".toList
  named := by decide
  dotted := List.all_eq_true.mp (by decide)
  space := .space
  oneLine := by decide

def lineFeed : Ending := ⟨.feed, rfl⟩

/-- `a as b, # (two` and `c, # (one)` in front of the closing parenthesis. -/
def remarkedNames : NameList where
  entries := [
    ⟨⟨.empty, []⟩, ⟨.a, some (.space, .space, .b)⟩, ⟨.empty, []⟩⟩,
    ⟨⟨Break.space.toGap, [(⟨"(two".toList, by decide⟩, .empty)]⟩, ⟨.ofChar 'c' rfl, none⟩,
      ⟨.empty, []⟩⟩]
  nonempty := List.cons_ne_nil _ _
  trailing := some ⟨Break.space.toGap, [(⟨"(one)".toList, by decide⟩, .empty)]⟩

def namesOnLine : NameLine where
  items := [
    (.empty, ⟨.a, some (.space, .space, .b)⟩, .empty),
    (Break.space.toGap, ⟨.ofChar 'c' rfl, none⟩, .empty)]
  nonempty := List.cons_ne_nil _ _
  oneLine := by decide

theorem imports_layout_remarked :
    (Extractor.python.extract "/app/views.py"
          "from .models import a as b, c\n".toList none).imports =
        [⟨"./models", ["a", "c"], false, false, false⟩] ∧
      (Extractor.python.extract "/app/views.py"
          "from .models import (a as b, #(two\nc, #(one)\n)\n".toList none).imports =
        [⟨"./models", ["a", "c"], false, false, false⟩] := by
  obtain ⟨lines, parentheses⟩ := imports_layout_iff fromModels lineFeed "/app/views.py" none
  constructor
  · have read := (lines .space ⟨namesOnLine, []⟩ (by decide) (by decide)).mpr rfl
    have text : fromModels.text ++ (Break.space.chars ++
        ((⟨namesOnLine, []⟩ : NamesOnLines).text ++ lineFeed.chars)) =
          "from .models import a as b, c\n".toList := by decide
    rw [text] at read
    rw [read]
    decide +kernel
  · have read := (parentheses Break.space.toGap remarkedNames (by decide) (by decide)).mpr
      ⟨by decide, by decide⟩
    have text : fromModels.text ++ (Break.space.chars ++ '(' :: (remarkedNames.text ['#'] ++
        ')' :: lineFeed.chars)) = "from .models import (a as b, #(two\nc, #(one)\n)\n".toList := by
      decide
    rw [text] at read
    rw [read]
    decide +kernel

/-- A closing parenthesis in a comment ends the list, and a backslash ends it too. -/
theorem imports_layout_cut :
    (∃ l : NameList, fromModels.text ++ (' ' :: '(' :: (l.text ['#'] ++ ')' :: lineFeed.chars)) =
          "from .models import (a,  # (kept)\n b)\n".toList ∧
        l.entries.map (·.item.name.text) = ["a", "b"] ∧
        (Extractor.python.extract "/app/views.py"
            "from .models import (a,  # (kept)\n b)\n".toList none).imports =
          [⟨"./models", ["a"], false, false, false⟩]) ∧
      ∃ l : NamesOnLines, fromModels.text ++ (' ' :: (l.text ++ lineFeed.chars)) =
          "from .models import a, \\\n b\n".toList ∧
        l.items.map (·.name.text) = ["a", "b"] ∧
        (Extractor.python.extract "/app/views.py"
            "from .models import a, \\\n b\n".toList none).imports =
          [⟨"./models", ["a"], false, false, false⟩] := by
  let a : NamedItem := ⟨.a, none⟩
  let b : NamedItem := ⟨.b, none⟩
  let blanks : Gap := ⟨[' ', ' '], List.all_eq_true.mp (by decide)⟩
  let kept : Remark := ⟨" (kept)".toList, by decide⟩
  constructor
  · refine ⟨⟨[⟨⟨.empty, []⟩, a, ⟨.empty, []⟩⟩,
      ⟨⟨blanks, [(kept, Break.space.toGap)]⟩, b, ⟨.empty, []⟩⟩], List.cons_ne_nil _ _, none⟩,
      by decide, by decide, by decide +kernel⟩
  · let line (lead : Gap) (i : NamedItem) (oneLine : '\n' ∉ lead.chars ++ (i.text ++ [])) :
        NameLine :=
      ⟨[(lead, i, .empty)], List.cons_ne_nil _ _, List.forall_mem_singleton.mpr oneLine⟩
    refine ⟨⟨line .empty a (by decide), [⟨Break.space.toGap, by decide,
      line Break.space.toGap b (by decide)⟩]⟩, by decide, by decide, by decide +kernel⟩

end ComponentAtlas.Python
