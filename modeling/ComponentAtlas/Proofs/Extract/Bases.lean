import ComponentAtlas.Proofs.Extract.Candidates
import ComponentAtlas.Proofs.Source.Names
import ComponentAtlas.Proofs.Text.Matching

/-!
From the text of a class to the bases that its description is read as. The list travels as text: the
extractor joins its words or cuts it at commas, and the reader cuts it at commas once more. So the
bases come back exactly where each starts its entry of the list and nothing else between two commas
looks like a name.
-/

namespace ComponentAtlas

open Text Recognizer
open Cursor (between)

section Declarations

variable {before after : List Char}

/-- What a form shows where it stands, with nothing of the chosen name before it. -/
theorem exists_shown_eq {α : Type} {r : Recognizer α} [Forward r] {name : α → Span}
    {shown : Found α → Option Candidate} {chosen : List Char} {m : Found α} {c : Candidate}
    (here : r.at? (between before after) = some m)
    (clear : Clear r (before ++ after) before.length fun a => (name a).chars = chosen)
    (named : ∀ m c, shown m = some c → c.name = (name m.value).text) (some_c : shown m = some c) :
    ∃ front back, (r.all (before ++ after)).filterMap shown = front ++ c :: back ∧
      ∀ c' ∈ front, c'.name ≠ String.ofList chosen := by
  obtain ⟨front, back, all, free⟩ := exists_all_eq here clear
  refine ⟨front.filterMap shown, back.filterMap shown, ?_, ?_⟩
  · rw [all, List.filterMap_append, List.filterMap_cons_some some_c]
  · intro c' earlier
    obtain ⟨m', member, kept⟩ := List.mem_filterMap.mp earlier
    rw [named m' c' kept]
    exact fun same => free m' member (String.ofList_injective same)

theorem word_ne_empty (name : Word) : String.ofList name.chars ≠ "" := fun nothing => by
  have chars := congrArg String.toList nothing
  rw [String.toList_ofList] at chars
  exact name.nonempty chars

/-- A candidate is declared at its place, unless one before it has its name. -/
theorem exists_declaration {f : Findings} {change : Candidate → Candidate}
    {front back : List Candidate} {c : Candidate} {name : Word} (path : String)
    (after : List Char) (all : f.candidates = (front ++ c :: back).map change)
    (keeps : ∀ c, (change c).name = c.name ∧ (change c).offset = c.offset ∧
      (change c).description = c.description)
    (named : c.name = String.ofList name.chars) (place : c.offset = before.length)
    (first : ∀ c' ∈ front, c'.name ≠ String.ofList name.chars) :
    ∃ d ∈ (f.toExtraction path (before ++ after)).declarations,
      d.name = String.ofList name.chars ∧ d.line = before.count '\n' + 1 ∧
      d.description = c.description := by
  obtain ⟨kept, offset, description⟩ := keeps c
  have claimed : change c ∈ claimNames [] f.candidates := by
    rw [all, List.map_append, List.map_cons]
    refine mem_claimNames_append ?_ List.not_mem_nil ?_
    · rw [kept, named]
      exact word_ne_empty name
    · intro c' earlier
      obtain ⟨c', member, rfl⟩ := List.mem_map.mp earlier
      rw [kept, (keeps c').1, named]
      exact first c' member
  refine ⟨_, List.mem_map_of_mem claimed, kept.trans named, ?_, description⟩
  rw [Candidate.declare, offset, place, lineNumber_append]
  rfl

end Declarations

namespace Python

/-- A class statement with bases. -/
structure ClassText where
  space : Break
  name : Word
  behindName : Gap
  entries : List Listed
  behindBases : Gap
  unclosed : ')' ∉ listText entries

def ClassMatch.candidate (m : Found ClassMatch) : Candidate :=
  topLevel m m.value.name .cls m.value.description?

theorem classes_eq (content : List Char) :
    classes content = (classStatement.all content).filterMap (some ∘ ClassMatch.candidate) :=
  (congrFun List.filterMap_eq_map _).symm

theorem name_of_candidate (m : Found ClassMatch) (c : Candidate)
    (h : (some ∘ ClassMatch.candidate) m = some c) : c.name = m.value.name.text := by
  cases h
  rfl

/-- The joined words of a list of bases are read as the list. -/
theorem description?_read {m : ClassMatch} {s : List Char}
    (bases : m.bases?.map Span.chars = some s) (one_part : ';' ∉ s)
    (no_mark : ¬ implementsMark.toList <:+: s) :
    Heritage.ofDescription m.description? = ⟨typeNames s, []⟩ := by
  obtain ⟨span, some_bases, rfl⟩ := Option.map_eq_some_iff.mp bases
  rw [ClassMatch.description?, some_bases]
  cases parts : words span.chars with
  | nil =>
      have nothing := sameWords_joinChars span.chars
      rw [parts] at nothing
      simp only [parts]
      rw [← typeNames_congr nothing]
      rfl
  | cons w ws =>
      have whole := ofChars_joined one_part no_mark
      rw [parts] at whole
      simpa [Heritage.ofDescription, parts] using whole

namespace ClassText

def text (s : ClassText) : List Char :=
  "class".toList ++ (s.space.chars ++ (s.name.chars ++ (s.behindName.chars ++
    '(' :: (listText s.entries ++ ')' :: (s.behindBases.chars ++ [':'])))))

/-- The statement starts a line, and no class statement before it has its name. -/
structure Opens (s : ClassText) (before after : List Char) : Prop where
  lineStart : before.getLast?.all (· == '\n') = true
  clear : Clear classStatement (before ++ (s.text ++ after)) before.length
    fun m => m.name.chars = s.name.chars

theorem prefers_parenthesized (gap : Gap) {list : List Char} (unclosed : ')' ∉ list)
    (before rest : List Char) :
    Prefers (do
        blanks
        exactly '('
        let bases ← captured (many (· != ')'))
        exactly ')'
        pure bases)
      (between before (gap.chars ++ '(' :: (list ++ ')' :: rest)))
      (.between (before ++ gap.chars ++ ['(']) list (')' :: rest))
      (between (before ++ gap.chars ++ ['('] ++ list ++ [')']) rest) := by
  have inside : ∀ c ∈ list, (c != ')') = true := fun c hc =>
    bne_iff_ne.mpr fun close => unclosed (close ▸ hc)
  refine (prefers_blanks gap.blank rfl).bind ?_
  refine (prefers_exactly '(' _ _).bind ?_
  refine (prefers_many inside rfl).captured.bind ?_
  exact (prefers_exactly ')' _ _).bind (prefers_pure _ _)

theorem classStatement_prefers (s : ClassText) {before : List Char} (after : List Char)
    (start : before.getLast?.all (· == '\n') = true) :
    ∃ (m : ClassMatch) (d : Cursor), classStatement.Prefers (between before (s.text ++ after)) m d ∧
      m.name.chars = s.name.chars ∧ m.bases?.map Span.chars = some (listText s.entries) := by
  have shape : s.text ++ after = "class".toList ++ (s.space.chars ++ (s.name.chars ++
      (s.behindName.chars ++ '(' :: (listText s.entries ++ ')' :: (s.behindBases.chars ++
        ':' :: after))))) := by
    unfold text
    simp only [List.append_assoc, List.cons_append, List.nil_append]
  rw [shape]
  exact ⟨_, _, (prefers_lineStart start).bind <| (prefers_literal "class" before _).bind <|
    (prefers_blanks1 s.space (s.name.head?_any _)).bind <|
    (prefers_word s.name (s.behindName.head?_any rfl)).bind <|
    (prefers_parenthesized s.behindName s.unclosed _ _).optional.bind <|
    (prefers_blanks s.behindBases.blank rfl).bind <|
    (prefers_exactly ':' _ _).bind (prefers_pure _ _),
    Span.chars_between _ _ _, congrArg some (Span.chars_between _ _ _)⟩

/-- The class is declared, and its description is read as its list of bases. -/
theorem exists_declaration (s : ClassText) {before after : List Char} (path : String)
    (language : Option Language) (h : s.Opens before after) (one_part : ';' ∉ listText s.entries)
    (no_mark : ¬ implementsMark.toList <:+: listText s.entries) :
    ∃ d ∈ (Extractor.python.extract path (before ++ (s.text ++ after)) language).declarations,
      d.name = String.ofList s.name.chars ∧ d.line = before.count '\n' + 1 ∧
      Heritage.ofDescription d.description = ⟨typeNames (listText s.entries), []⟩ := by
  obtain ⟨m, d, way, name, bases⟩ := s.classStatement_prefers after h.lineStart
  obtain ⟨front, back, all, first⟩ := exists_shown_eq way.at h.clear name_of_candidate rfl
  have candidates : (Extractor.python.findings path (before ++ (s.text ++ after))
      (language.or (languageOf? path))).candidates = (front ++
        ClassMatch.candidate ⟨m, between before (s.text ++ after), d⟩ ::
          (back ++ functions (before ++ (s.text ++ after)))).map fun c =>
            { c with kind := classify c.name path } := by
    rw [Extractor.findings, findings, classes_eq, all, List.append_assoc, List.cons_append]
  obtain ⟨d, member, declared, line, description⟩ := ComponentAtlas.exists_declaration path
    (s.text ++ after) candidates (fun _ => ⟨rfl, rfl, rfl⟩) (congrArg String.ofList name) rfl first
  refine ⟨d, member, declared, line, ?_⟩
  rw [description]
  exact description?_read bases one_part no_mark

end ClassText

end Python

namespace TypeScript

/-- A word with blanks behind it, or nothing. -/
def markText (word : String) : Option Break → List Char
  | none => []
  | some gap => word.toList ++ gap.chars

/-- `export`, if it is there, and behind it `default`, if that is there. -/
def exportText : Option (Break × Option Break) → List Char
  | none => []
  | some (gap, byDefault) => "export".toList ++ (gap.chars ++ markText "default" byDefault)

theorem exportText_none : exportText none = [] := rfl

theorem exportText_some (gap : Break) (byDefault : Option Break) :
    exportText (some (gap, byDefault)) =
      "export".toList ++ (gap.chars ++ markText "default" byDefault) := rfl

def parametersText : Option (List Char) → List Char
  | none => []
  | some parameters => '<' :: (parameters ++ ['>'])

/-- A class with interfaces and without a base class. -/
structure ClassText where
  exported : Option (Break × Option Break)
  abstracted : Option Break
  space : Break
  name : Word
  parameters : Option (List Char)
  behindName : Break
  entries : List Listed
  inside : ∀ ps ∈ parameters, ∀ c ∈ ps, c ≠ '>' ∧ c ≠ '{'
  plain : ∀ c ∈ listText entries, isInterfaceList c = true
  parted : (listText entries).head?.any isBlank = true
  names : ∃ c ∈ listText entries, isBlank c = false

namespace ClassText

def text (s : ClassText) : List Char :=
  exportText s.exported ++ (markText "abstract" s.abstracted ++ ("class".toList ++
    (s.space.chars ++ (s.name.chars ++ (parametersText s.parameters ++ (s.behindName.chars ++
      ("implements".toList ++ (listText s.entries ++ ['{']))))))))

end ClassText

section Marks

variable {w : String} {x y : Char} {rest : List Char}

theorem wordThenBlanks_offers (words : List String) :
    (wordThenBlanks words).Offers fun c _ _ => ∃ w ∈ words, w.toList <+: c.rest := by
  have form : (wordThenBlanks words).Offers _ :=
    (offers_anyOf words).bind fun _ => Forward.offers (r := blanks1)
  refine form.imp ?_
  rintro c _ _ ⟨_, d, ⟨w, member, split⟩, _⟩
  exact ⟨w, member, d.rest, split.symm⟩

theorem prefers_wordThenBlanks (w : String) (gap : Break) (before : List Char)
    (solid : rest.head?.any isBlank = false) :
    (wordThenBlanks [w]).Prefers (between before (w.toList ++ (gap.chars ++ rest))) ()
      (between (before ++ w.toList ++ gap.chars) rest) :=
  (prefers_literal w before _).either.bind (prefers_blanks1 gap solid)

theorem refuses_wordThenBlanks (starts : w.toList.head? = some x) (first : rest.head? = some y)
    (other : x ≠ y) (before : List Char) : (wordThenBlanks [w]).Refuses (between before rest) := by
  refine (wordThenBlanks_offers [w]).refuses ?_
  rintro _ _ ⟨w', member, more, split⟩
  obtain rfl := List.mem_singleton.mp member
  refine other (Option.some.inj ?_)
  rw [← starts, ← first, ← show _ = rest from split, List.head?_append, starts]
  rfl

/-- A mark is taken where it stands, and where it does not, nothing is. -/
theorem prefers_mark (mark : Option Break) (starts : w.toList.head? = some x)
    (first : rest.head? = some y) (other : x ≠ y) (solid : isBlank y = false)
    (before : List Char) :
    ∃ a, (optional (wordThenBlanks [w])).Prefers (between before (markText w mark ++ rest)) a
      (between (before ++ markText w mark) rest) := by
  cases mark with
  | none =>
      rw [markText, List.nil_append, List.append_nil]
      exact ⟨none, (refuses_wordThenBlanks starts first other before).optional⟩
  | some gap =>
      have stop : rest.head?.any isBlank = false := by rw [first]; exact solid
      rw [markText, List.append_assoc, ← List.append_assoc before]
      exact ⟨some (), (prefers_wordThenBlanks w gap before stop).optional⟩

theorem prefers_exportOrDefaultMark (exported : Option (Break × Option Break))
    (first : rest.head? = some y) (others : y = 'a' ∨ y = 'c') (before : List Char) :
    ∃ a, exportOrDefaultMark.Prefers (between before (exportText exported ++ rest)) a
      (between (before ++ exportText exported) rest) := by
  obtain ⟨notExport, notDefault, solid⟩ : 'e' ≠ y ∧ 'd' ≠ y ∧ isBlank y = false := by
    rcases others with rfl | rfl <;> decide
  cases exported with
  | none =>
      rw [exportText_none, List.nil_append, List.append_nil]
      have refused := refuses_wordThenBlanks (w := "export") rfl first notExport before
      exact ⟨none, (Refuses.optional (r := exportMark >>= _) ⟨fun _ => refused.offer _⟩)⟩
  | some marks =>
      obtain ⟨gap, byDefault⟩ := marks
      have head : (markText "default" byDefault ++ rest).head?.any isBlank = false := by
        cases byDefault with
        | none => rw [markText, List.nil_append, first]; exact solid
        | some _ => rfl
      have exportMark := prefers_wordThenBlanks "export" gap before head
      obtain ⟨_, defaultMark⟩ := prefers_mark (w := "default") byDefault rfl first notDefault solid
        (before ++ "export".toList ++ gap.chars)
      rw [exportText_some]
      simp only [List.append_assoc] at exportMark defaultMark ⊢
      exact ⟨some (), (exportMark.bind (defaultMark.bind (prefers_pure () _))).optional⟩

end Marks

section Clauses

variable {before rest : List Char}

theorem prefers_typeParameters {parameters : Option (List Char)} {y : Char}
    (inside : ∀ ps ∈ parameters, ∀ c ∈ ps, c ≠ '>' ∧ c ≠ '{') (first : rest.head? = some y)
    (other : y ≠ '<') (before : List Char) :
    ∃ a, (optional classTypeArguments).Prefers
      (between before (parametersText parameters ++ rest)) a
      (between (before ++ parametersText parameters) rest) := by
  cases parameters with
  | none =>
      have form : classTypeArguments.Offers _ :=
        (offers_exactly '<').bind fun _ => Forward.offers
      rw [parametersText, List.nil_append, List.append_nil]
      refine ⟨none, (form.refuses ?_).optional⟩
      rintro _ _ ⟨_, d, ⟨opening, _⟩, _⟩
      refine other (Option.some.inj ?_)
      rw [← first, show rest = '<' :: d.rest from opening]
      rfl
  | some parameters =>
      have plain : ∀ c ∈ parameters, (c != '>' && c != '{') = true := by
        simpa using inside parameters rfl
      have way : classTypeArguments.Prefers
          (between before ('<' :: (parameters ++ '>' :: rest))) ()
          (between (before ++ ['<'] ++ parameters ++ ['>']) rest) :=
        (prefers_exactly '<' _ _).bind ((prefers_many plain rfl).bind (prefers_exactly '>' _ _))
      rw [parametersText]
      simp only [List.cons_append, List.append_assoc, List.nil_append] at way ⊢
      exact ⟨some (), way.optional⟩

/-- Where blanks lead to another word, no base class is named. -/
theorem refuses_extendsClause (gap : Gap) {y : Char} (first : rest.head? = some y)
    (solid : isBlank y = false) (other : y ≠ 'e') (before : List Char) :
    extendsClause.Refuses (between before (gap.chars ++ rest)) := by
  have form : extendsClause.Offers _ :=
    (offers_many1 isBlank).bind fun _ =>
      (wordThenBlanks_offers ["extends"]).bind fun _ => Forward.offers
  refine form.refuses ?_
  rintro _ _ ⟨_, d, ⟨x, run, blank, blanks, split⟩, _, _, ⟨w, member, more, begins⟩, _⟩
  obtain rfl := List.mem_singleton.mp member
  obtain ⟨rest, rfl⟩ : ∃ tail, rest = y :: tail := List.head?_eq_some_iff.mp first
  rw [← begins] at split
  exact other (eq_of_blanks_append gap.blank (List.forall_mem_cons.mpr ⟨blank, blanks⟩) solid
    (by decide) split)

/-- Before a character that is no blank a body does not begin. -/
theorem refuses_body {m : ClassMatch} {j : List Char} (some_left : ∃ c ∈ j, isBlank c = false)
    (plain : ∀ c ∈ j, isInterfaceList c = true) (before rest : List Char) :
    Refuses (do blanks; exactly '{'; pure m) (between before (j ++ rest)) := by
  have form : Offers (do blanks; exactly '{'; pure m) _ :=
    (offers_many isBlank).bind fun _ => (offers_exactly '{').bind fun _ => offers_pure m
  refine form.refuses ?_
  rintro _ _ ⟨_, d, ⟨run, blanks, split⟩, _, e, ⟨opening, _⟩, _⟩
  obtain ⟨gap, c, behind, rfl, blank, solid⟩ := exists_blanks_append some_left
  rw [opening, between, List.append_assoc, List.cons_append] at split
  have brace : c = '{' := eq_of_blanks_append blank blanks solid (by decide) split
  have listed := plain c (List.mem_append_right gap List.mem_cons_self)
  rw [brace] at listed
  exact absurd listed (by decide)

/-- The interfaces are read up to the blanks in front of the body. -/
theorem prefers_interfaces (build : Option Span → ClassMatch) {list : List Char} (gap : Break)
    (plain : ∀ c ∈ list, isInterfaceList c = true) (parted : list.head?.any isBlank = true)
    (names : ∃ c ∈ list, isBlank c = false) (before rest : List Char) :
    ∃ span d, Prefers (do
        let interfaces? ← optional implementsClause
        blanks
        exactly '{'
        pure (build interfaces?))
      (between before (gap.chars ++ ("implements".toList ++ (list ++ '{' :: rest))))
      (build (some span)) d ∧ SameWords span.chars list ∧ ∀ c ∈ span.chars, c ∈ list := by
  obtain ⟨front, x, run, back, rfl, solid, last, ends, lastSolid⟩ := exists_trimChars parted names
  have inside : ∀ c ∈ x :: run, isInterfaceList c = true := fun c hc =>
    plain c (List.mem_append_right _ (List.mem_append_left _ hc))
  have left : ∀ i j, run = i ++ j → j ≠ [] → ∃ c ∈ j, isBlank c = false := by
    intro i j split some_left
    rw [split, ← List.cons_append, List.getLast?_append_of_ne_nil _ some_left] at ends
    exact ⟨last, List.mem_of_getLast? ends, lastSolid⟩
  have stop : (x :: run ++ (back.chars ++ '{' :: rest)).head?.any isBlank = false := solid
  have shape : front.chars ++ (x :: run ++ back.chars) ++ '{' :: rest =
      front.chars ++ (x :: run ++ (back.chars ++ '{' :: rest)) := by simp
  rw [shape]
  refine ⟨.between (before ++ gap.chars ++ "implements".toList ++ front.chars) (x :: run)
    (back.chars ++ '{' :: rest), between (before ++ gap.chars ++ "implements".toList ++
    front.chars ++ x :: run ++ back.chars ++ ['{']) rest, ⟨fun accepted => ?_⟩, ?_, ?_⟩
  · refine offer_optional ?_
    refine (prefers_blanks1 gap rfl).then ?_
    refine (prefers_wordThenBlanks "implements" front _ stop).then ?_
    refine offer_captured_fewest1 (inside x List.mem_cons_self)
      (fun c hc => inside c (List.mem_cons_of_mem x hc)) ?_ ?_
    · -- The shortest stretch is wanted, and every shorter one leaves a name in front of the body.
      intro i j span split some_left
      refine (refuses_body (left i j split some_left) (fun c hc => ?_) _ _).offer _
      exact inside c (List.mem_cons_of_mem x (split ▸ List.mem_append_right i hc))
    · refine (prefers_blanks back.blank rfl).then ?_
      refine (prefers_exactly '{' _ rest).then accepted
  · rw [Span.chars_between]
    exact ((sameWords_append_left front.blank _).trans (sameWords_append_right back.blank _)).symm
  · intro c hc
    rw [Span.chars_between] at hc
    exact List.mem_append_right _ (List.mem_append_left _ hc)

end Clauses

/-- What is noticed before the classes. -/
def components (content : List Char) : List Candidate :=
  arrowComponents content ++ functionComponents content ++ classComponents content ++
    wrappedComponents "memo" content ++ wrappedComponents "forwardRef" content

def ClassMatch.candidate (m : Found ClassMatch) : Candidate :=
  { TypeScript.candidate m m.value.name .cls with description := m.value.heritage.description? }

/-- A class that extends one of the library's component classes is none of the classes. -/
def ClassMatch.candidate? (m : Found ClassMatch) : Option Candidate :=
  if m.value.heritage.bases.any componentBases.contains then none
  else some (ClassMatch.candidate m)

theorem candidates_eq (content : List Char) :
    candidates content = components content ++
      (classDeclaration.all content).filterMap ClassMatch.candidate? ++ functions content := rfl

theorem name_of_candidate? (m : Found ClassMatch) (c : Candidate)
    (h : ClassMatch.candidate? m = some c) : c.name = m.value.name.text := by
  rw [ClassMatch.candidate?] at h
  split at h
  · cases h
  · cases h
    rfl

theorem candidate?_of_noBase {m : Found ClassMatch} (h : m.value.base? = none) :
    ClassMatch.candidate? m = some (ClassMatch.candidate m) := by
  rw [ClassMatch.candidate?, ClassMatch.heritage, h]
  rfl

/-- The interfaces of a class without a base are read as they stand in its text. -/
theorem heritage_read {m : ClassMatch} {span : Span} (noBase : m.base? = none)
    (interfaces : m.interfaces? = some span)
    (plain : ∀ c ∈ span.chars, isInterfaceList c = true) :
    Heritage.ofDescription m.heritage.description? = ⟨[], typeNames span.chars⟩ := by
  have absent : ∀ c, isInterfaceList c = false → c ∉ span.chars := fun c other inside =>
    Bool.noConfusion (other.symm.trans (plain c inside))
  have ne : ∀ c ∈ span.chars, c ≠ '#' ∧ c ≠ '/' ∧ c ≠ '=' := fun c hc =>
    ⟨fun e => absent '#' (by decide) (e ▸ hc), fun e => absent '/' (by decide) (e ▸ hc),
      fun e => absent '=' (by decide) (e ▸ hc)⟩
  have read := typeNames_splitNames ne
  have heritage : m.heritage = ⟨[], splitNameChars .sourceName span.chars⟩ := by
    rw [ClassMatch.heritage, noBase, interfaces]
    rfl
  have one_part : ∀ name ∈ splitNameChars .sourceName span.chars, ';' ∉ name.toList :=
    fun name member inside => absent ';' (by decide)
      (mem_of_splitNames (fun c hc => ⟨(ne c hc).1, (ne c hc).2.1⟩) member inside (by decide)).1
  rw [heritage, ofDescription_interfaces one_part, read]

namespace ClassText

/-- What stands between the name of the class and its body, with what follows. -/
def clauses (s : ClassText) (after : List Char) : List Char :=
  parametersText s.parameters ++ (s.behindName.chars ++ ("implements".toList ++
    (listText s.entries ++ '{' :: after)))

theorem prefers_clauses (s : ClassText) (name : Span) (before after : List Char) :
    ∃ (span : Span) (d : Cursor), Prefers (do
        let _ ← optional classTypeArguments
        let base? ← optional extendsClause
        let interfaces? ← optional implementsClause
        blanks
        exactly '{'
        pure ⟨name, base?, interfaces?⟩)
      (between before (s.clauses after)) (⟨name, none, some span⟩ : ClassMatch) d ∧
      SameWords span.chars (listText s.entries) ∧ ∀ c ∈ span.chars, c ∈ listText s.entries := by
  obtain ⟨b, first, blank⟩ := s.behindName.exists_head?
    ("implements".toList ++ (listText s.entries ++ '{' :: after))
  have other : b ≠ '<' := fun e => absurd blank (by rw [e]; decide)
  obtain ⟨_, parameters⟩ := prefers_typeParameters s.inside first other before
  have keyword : ("implements".toList ++ (listText s.entries ++ '{' :: after)).head? = some 'i' :=
    rfl
  have noBase := (refuses_extendsClause s.behindName.toGap keyword (by decide) (by decide)
    (before ++ parametersText s.parameters)).optional
  obtain ⟨span, d, interfaces, same, inside⟩ := prefers_interfaces (⟨name, none, ·⟩) s.behindName
    s.plain s.parted s.names (before ++ parametersText s.parameters) after
  exact ⟨span, d, parameters.bind (noBase.bind interfaces), same, inside⟩

theorem classDeclaration_prefers (s : ClassText) (before after : List Char) :
    ∃ (m : ClassMatch) (d : Cursor) (span : Span),
      classDeclaration.Prefers (between before (s.text ++ after)) m d ∧
      m.name.chars = s.name.chars ∧ m.base? = none ∧ m.interfaces? = some span ∧
      SameWords span.chars (listText s.entries) ∧ ∀ c ∈ span.chars, c ∈ listText s.entries := by
  have shape : s.text ++ after = exportText s.exported ++ (markText "abstract" s.abstracted ++
      ("class".toList ++ (s.space.chars ++ (s.name.chars ++ s.clauses after)))) := by
    unfold text clauses
    simp only [List.append_assoc, List.cons_append, List.nil_append]
  rw [shape]
  obtain ⟨y, first, marks⟩ : ∃ y, (markText "abstract" s.abstracted ++ ("class".toList ++
      (s.space.chars ++ (s.name.chars ++ s.clauses after)))).head? = some y ∧
      (y = 'a' ∨ y = 'c') := by
    cases s.abstracted with
    | none => exact ⟨'c', rfl, .inr rfl⟩
    | some gap => exact ⟨'a', rfl, .inl rfl⟩
  have stop : (s.clauses after).head?.any isWord = false := by
    rw [clauses]
    cases s.parameters with
    | none =>
        obtain ⟨b, first, blank⟩ := s.behindName.exists_head?
          ("implements".toList ++ (listText s.entries ++ '{' :: after))
        rw [parametersText, List.nil_append, first]
        exact isWord_of_isBlank blank
    | some parameters => rfl
  obtain ⟨_, exported⟩ := prefers_exportOrDefaultMark s.exported first marks before
  have keyword : ("class".toList ++ (s.space.chars ++ (s.name.chars ++ s.clauses after))).head? =
    some 'c' := rfl
  obtain ⟨_, abstracted⟩ := prefers_mark (w := "abstract") s.abstracted rfl keyword (by decide)
    (by decide) (before ++ exportText s.exported)
  obtain ⟨span, d, clauses, same, inside⟩ := s.prefers_clauses (.between _ s.name.chars _) _ after
  exact ⟨_, d, span, exported.bind <| abstracted.bind <|
    (prefers_wordThenBlanks "class" s.space _ (s.name.head?_any _)).bind <|
    (prefers_word s.name stop).bind clauses, Span.chars_between _ _ _, rfl, rfl, same, inside⟩

/-- No class before it has its name, and no component of the file. -/
structure Opens (s : ClassText) (before after : List Char) : Prop where
  clear : Clear classDeclaration (before ++ (s.text ++ after)) before.length
    fun m => m.name.chars = s.name.chars
  noComponent : ∀ c ∈ components (before ++ (s.text ++ after)), c.name ≠ String.ofList s.name.chars

/-- The class is declared, and its description is read as its list of interfaces. -/
theorem exists_declaration (s : ClassText) {before after : List Char} (path : String)
    (language : Option Language) (h : s.Opens before after) :
    ∃ d ∈ (Extractor.typescript.extract path (before ++ (s.text ++ after)) language).declarations,
      d.name = String.ofList s.name.chars ∧ d.line = before.count '\n' + 1 ∧
      Heritage.ofDescription d.description = ⟨[], typeNames (listText s.entries)⟩ := by
  obtain ⟨m, d, span, way, name, noBase, interfaces, same, inside⟩ :=
    s.classDeclaration_prefers before after
  obtain ⟨front, back, all, first⟩ := exists_shown_eq way.at h.clear name_of_candidate?
    (candidate?_of_noBase noBase)
  let content := before ++ (s.text ++ after)
  have candidates : (Extractor.typescript.findings path content
      (language.or (languageOf? path))).candidates =
        (components content ++ front ++
          ClassMatch.candidate ⟨m, between before (s.text ++ after), d⟩ ::
            (back ++ functions content)).map fun c => { c with
              kind := classify c.name path content c.kind
              exportedNames := (exportsOf content).names c.name } := by
    rw [Extractor.findings, findings, candidates_eq, all]
    simp only [List.append_assoc, List.cons_append]
  have unclaimed : ∀ c' ∈ components content ++ front, c'.name ≠ String.ofList s.name.chars :=
    fun c' earlier => (List.mem_append.mp earlier).elim (h.noComponent c') (first c')
  obtain ⟨d, member, declared, line, description⟩ := ComponentAtlas.exists_declaration path
    (s.text ++ after) candidates (fun _ => ⟨rfl, rfl, rfl⟩) (congrArg String.ofList name) rfl
      unclaimed
  refine ⟨d, member, declared, line, ?_⟩
  rw [description, ← typeNames_congr same]
  exact heritage_read noBase interfaces fun c hc => s.plain c (inside c hc)

end ClassText

end TypeScript

/-- The bases of a class come back from its description exactly where each stands at the start of
its entry and nothing else between two commas of the list looks like a name. -/
theorem extract_bases_iff (path : String) (language : Option Language) (before after : List Char) :
    (∀ s : Python.ClassText, s.Opens before after →
      ';' ∉ listText s.entries → ¬ implementsMark.toList <:+: listText s.entries →
      (Unmistakable s.entries ∨ ∀ e ∈ s.entries, e.Readable) →
      ∃ d ∈ (Extractor.python.extract path (before ++ (s.text ++ after)) language).declarations,
        d.name = String.ofList s.name.chars ∧ d.line = before.count '\n' + 1 ∧
        (Heritage.ofDescription d.description = ⟨s.entries.flatMap Listed.named, []⟩ ↔
          Unmistakable s.entries ∧ ∀ e ∈ s.entries, e.Readable)) ∧
    ∀ s : TypeScript.ClassText, s.Opens before after →
      (Unmistakable s.entries ∨ ∀ e ∈ s.entries, e.Readable) →
      ∃ d ∈ (Extractor.typescript.extract path (before ++ (s.text ++ after)) language).declarations,
        d.name = String.ofList s.name.chars ∧ d.line = before.count '\n' + 1 ∧
        (Heritage.ofDescription d.description = ⟨[], s.entries.flatMap Listed.named⟩ ↔
          Unmistakable s.entries ∧ ∀ e ∈ s.entries, e.Readable) := by
  constructor
  · intro s opens one_part no_mark single
    obtain ⟨d, member, name, line, heritage⟩ :=
      s.exists_declaration path language opens one_part no_mark
    refine ⟨d, member, name, line, ?_⟩
    rw [heritage, Heritage.mk.injEq, and_iff_left rfl]
    exact typeNames_eq_iff single
  · intro s opens single
    obtain ⟨d, member, name, line, heritage⟩ := s.exists_declaration path language opens
    refine ⟨d, member, name, line, ?_⟩
    rw [heritage, Heritage.mk.injEq, and_iff_right rfl]
    exact typeNames_eq_iff single

/-- A class with a dotted base, a base with a type argument, and a keyword. -/
def Python.article : Python.ClassText where
  space := .space
  name := ⟨"Article".toList, by decide, List.all_eq_true.mp (by decide +kernel)⟩
  behindName := .empty
  entries :=
    let model : DottedName :=
      ⟨"models.Model".toList, by decide, List.all_eq_true.mp (by decide +kernel)⟩
    let generic : DottedName :=
      ⟨"Generic".toList, by decide, List.all_eq_true.mp (by decide +kernel)⟩
    [.base [] model [], .base [' '] generic "[T]".toList, .other " metaclass=Meta".toList]
  behindBases := .empty
  unclosed := by decide +kernel

/-- A class with a dotted interface that has a type argument, and another interface. -/
def TypeScript.repository : TypeScript.ClassText where
  exported := some (.space, none)
  abstracted := none
  space := .space
  name := ⟨"Repository".toList, by decide, List.all_eq_true.mp (by decide +kernel)⟩
  parameters := some "K".toList
  behindName := .space
  entries :=
    let reader : DottedName :=
      ⟨"store.Reader".toList, by decide, List.all_eq_true.mp (by decide +kernel)⟩
    let writer : DottedName :=
      ⟨"Writer".toList, by decide, List.all_eq_true.mp (by decide +kernel)⟩
    [.base [' '] reader "<K>".toList, .base [' '] writer [' ']]
  inside := by simp
  plain := List.all_eq_true.mp (by decide +kernel)
  parted := by decide
  names := ⟨'W', by decide +kernel, by decide⟩

theorem extract_bases_of_unmistakable :
    (∃ d ∈ (Extractor.python.extract "/proj/article.py"
        "class Article(models.Model, Generic[T], metaclass=Meta):".toList none).declarations,
      d.name = "Article" ∧ Heritage.ofDescription d.description = ⟨["Model", "Generic"], []⟩) ∧
    ∃ d ∈ (Extractor.typescript.extract "/proj/repository.ts"
        "export class Repository<K> implements store.Reader<K>, Writer \x7b".toList
        none).declarations,
      d.name = "Repository" ∧
        Heritage.ofDescription d.description = ⟨[], ["Reader", "Writer"]⟩ := by
  have nothing {α : Type} {P : α → Prop} {start : α → Nat} {as : List α} :
      ∀ a ∈ as, start a < 0 → P a := fun a _ h => absurd h (Nat.not_lt_zero (start a))
  constructor
  · have text : [] ++ (Python.article.text ++ []) =
        "class Article(models.Model, Generic[T], metaclass=Meta):".toList := by decide +kernel
    have names : Python.article.entries.flatMap Listed.named = ["Model", "Generic"] := by
      decide +kernel
    have opens : Python.article.Opens [] [] := ⟨rfl, nothing, nothing⟩
    obtain ⟨d, member, name, _, read⟩ := (extract_bases_iff "/proj/article.py" none [] []).1
      Python.article opens (by decide +kernel) (by decide +kernel) (.inl (by decide +kernel))
    rw [text] at member
    rw [names] at read
    exact ⟨d, member, name, read.mpr (by decide +kernel)⟩
  · have text : [] ++ (TypeScript.repository.text ++ []) =
        "export class Repository<K> implements store.Reader<K>, Writer \x7b".toList := by
      decide +kernel
    have names : TypeScript.repository.entries.flatMap Listed.named = ["Reader", "Writer"] := by
      decide +kernel
    have opens : TypeScript.repository.Opens [] [] := ⟨⟨nothing, nothing⟩, by decide +kernel⟩
    obtain ⟨d, member, name, _, read⟩ := (extract_bases_iff "/proj/repository.ts" none [] []).2
      TypeScript.repository opens (.inl (by decide +kernel))
    rw [text] at member
    rw [names] at read
    exact ⟨d, member, name, read.mpr (by decide +kernel)⟩

/-- A second argument of a base is read as one more base. -/
theorem extract_bases_with_arguments :
    ∃ s : Python.ClassText, s.text = "class Cache(Mapping[K, V], Base):".toList ∧
      s.entries.flatMap Listed.named = ["Mapping", "Base"] ∧
      (Extractor.python.extract "/proj/cache.py" "class Cache(Mapping[K, V], Base):".toList
          none).declarations.map (fun d => (d.name, Heritage.ofDescription d.description)) =
        [("Cache", ⟨["Mapping", "V", "Base"], []⟩)] := by
  let mapping : DottedName := ⟨"Mapping".toList, by decide, List.all_eq_true.mp (by decide +kernel)⟩
  let base : DottedName := ⟨"Base".toList, by decide, List.all_eq_true.mp (by decide +kernel)⟩
  let cache : Word := ⟨"Cache".toList, by decide, List.all_eq_true.mp (by decide +kernel)⟩
  refine ⟨⟨.space, cache, .empty, [.base [] mapping "[K, V]".toList, .base [' '] base []], .empty,
    by decide +kernel⟩, ?text, ?names, ?read⟩
  case text => decide +kernel
  case names => decide +kernel
  case read => decide +kernel

end ComponentAtlas
