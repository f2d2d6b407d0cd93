import Mathlib.Data.List.Infix
import ComponentAtlas.Proofs.Extract.Exports

/-!
Export clauses against the table of exports. The items of a clause are cut at commas with their
comments, so a comment becomes part of a name: the table is the one of the clause exactly where the
clause has no comments.
-/

namespace ComponentAtlas.TypeScript

open Text Recognizer
open Cursor (between)

/-- The items of an export clause, with their layout; its comments hold no comma and no closing
brace. -/
structure ExportClause where
  space : Gap
  list : NameList
  plain : ∀ f ∈ list.fillers, ∀ r ∈ f.remarks, ',' ∉ r.1.text ∧ '}' ∉ r.1.text

namespace ExportClause

def text (c : ExportClause) : List Char :=
  "export".toList ++ (c.space.chars ++ '{' :: (c.list.text "//".toList ++ ['}']))

theorem text_append (c : ExportClause) (after : List Char) :
    c.text ++ after = "export".toList ++ (c.space.chars ++ '{' ::
      (c.list.text "//".toList ++ '}' :: after)) := by
  change "export".toList ++ (c.space.chars ++ '{' :: (c.list.text "//".toList ++ ['}'])) ++ after =
    _
  rw [List.append_assoc, List.append_assoc, List.cons_append, List.append_assoc,
    List.singleton_append]

/-- The local and the exported name of each item. -/
def pairs (c : ExportClause) : List (String × String) :=
  c.list.entries.map fun e => (e.item.name.text, e.item.shown.text)

end ExportClause

section Keyword

variable {front after : List Char}

theorem borderless_export (j : List Char) (h : j <:+ "export".toList) :
    j <+: "export".toList → j = [] ∨ j = "export".toList := by
  have all : ∀ j ∈ "export".toList.tails, j <+: "export".toList →
      j = [] ∨ j = "export".toList := by decide
  exact all j ((List.mem_tails j _).mpr h)

theorem not_startsKeyword_alias {b : Char} (blank : isBlank b = true) (rest : List Char) :
    ¬ StartsKeyword ("as".toList ++ b :: rest) := by
  rintro ⟨w, member, more, split⟩
  obtain ⟨long, parts⟩ := exportKeywords_parts w member
  -- A keyword is longer than `as`, so it would go on with the blank.
  rcases List.append_eq_append_iff.mp split with ⟨j, whole, _⟩ | ⟨j, whole, beyond⟩
  · have length := congrArg List.length whole
    rw [List.length_append] at length
    have two : "as".toList.length = 2 := rfl
    omega
  · cases j with
    | nil =>
        rw [whole, List.append_nil] at long
        exact Nat.lt_irrefl _ long
    | cons c j =>
        obtain ⟨rfl, _⟩ := List.cons.inj beyond
        have part := parts b (whole ▸ List.mem_append_right _ List.mem_cons_self)
        exact Bool.noConfusion (part.symm.trans (isNamePart_of_isBlank blank))

theorem endsNames_keyword : EndsNames (AfterBreak StartsKeyword) where
  part := by
    rintro _ ⟨gap, more, rfl, _⟩
    exact gap.head?_any_isNamePart more
  item gap x rest ends h := by
    have solid : (x :: rest).head?.any isBlank = false := by rcases ends with rfl | rfl <;> rfl
    have starts := h.toGap.behind startsKeyword_solid gap.blank solid
    obtain ⟨c, first, part⟩ := head?_of_startsKeyword starts
    cases first
    rcases ends with rfl | rfl <;> exact absurd part (by decide)
  other front back name gap x rest ends h := by
    obtain ⟨b, chars, split⟩ := List.exists_cons_of_ne_nil back.nonempty
    have blank : isBlank b = true := back.blank b (split ▸ List.mem_cons_self)
    have starts := h.toGap.behind startsKeyword_solid front.blank rfl
    rw [split] at starts
    exact not_startsKeyword_alias blank _ starts

/-- A clause without comments holds no export in front of a declaration. -/
theorem ExportClause.absent_keyword (c : ExportClause) (noExport : ¬ "export".toList <:+: front)
    (noExport' : ¬ "export".toList <:+: after) (bare : ∀ f ∈ c.list.fillers, f.remarks = []) :
    Absent (Behind "export".toList (AfterBreak StartsKeyword)) (front ++ (c.text ++ after)) [] := by
  have letters : ∀ k ∈ "export".toList, isNamePart k = true := List.all_eq_true.mp (by decide)
  have brace (rest : List Char) : ¬ AfterBreak StartsKeyword (c.space.chars ++ '{' :: rest) := by
    intro h
    obtain ⟨k, first, part⟩ := head?_of_startsKeyword
      (h.toGap.behind startsKeyword_solid c.space.blank rfl)
    cases first
    exact absurd part (by decide)
  rw [c.text_append, ← List.singleton_append]
  simp only [absent_append, List.append_nil]
  refine ⟨absent_before borderless_export noExport _, ?_, ?_, ?_, ?_, ?_⟩
  · exact absent_run letters letters (c.space.head?_any_isNamePart rfl) endsNames_keyword.part
      (brace _)
  · exact absent_gap rfl rfl c.space _
  · exact absent_other rfl (by decide)
  · exact c.list.absent_text letters rfl (by decide) endsNames_keyword bare _ _
  · refine ⟨?_, absent_of_not_within noExport'⟩
    rintro ⟨more, split, _⟩
    exact absurd (List.cons.inj split).1 (by decide)

end Keyword

section Clause

variable {front after : List Char} (c : ExportClause)

theorem refuses_from (h : ¬ "from".toList <+: trimLeft after) (before : List Char) :
    (blanks >>= fun _ => literal "from").Refuses (between before after) := by
  have word : (literal "from").Offers fun c _ _ => "from".toList <+: c.rest :=
    (offers_literal "from").imp fun _ _ d ⟨split, _⟩ => ⟨d.rest, split.symm⟩
  refine Offers.refuses (offers_blanks_bind word) fun _ _ starts => h ?_
  obtain ⟨gap, _, split, more, rfl⟩ := starts
  have split : after = gap.chars ++ ("from".toList ++ more) := split
  rw [split, trimLeft_append gap.blank]
  exact ⟨more, (trimLeft_cons (by decide) _).symm⟩

namespace ExportClause

theorem not_mem_pieces {x : Char} (separates : x = ',' ∨ x = '}') :
    ∀ p ∈ c.list.pieces "//".toList, x ∉ p := by
  refine c.list.not_mem_pieces ?_ ?_ ?_ fun f hf r hr => ?_
  · rcases separates with rfl | rfl <;> decide
  · rcases separates with rfl | rfl <;> decide
  · rcases separates with rfl | rfl <;> decide
  · obtain ⟨noComma, noBrace⟩ := c.plain f hf r hr
    rcases separates with rfl | rfl
    · exact noComma
    · exact noBrace

/-- The clause is found where it stands, with all of its list. -/
theorem prefers_text (front : List Char) (openEnd : ¬ "from".toList <+: trimLeft after) :
    exportClause.Prefers (between front (c.text ++ after))
      (.between (front ++ "export".toList ++ c.space.chars ++ ['{']) (c.list.text "//".toList)
        ('}' :: after))
      (between (front ++ c.text) after) := by
  have inside : ∀ y ∈ c.list.text "//".toList, (y != '}') = true := by
    intro y hy
    refine bne_iff_ne.mpr ?_
    rintro rfl
    rcases mem_joinChars hy with separator | ⟨p, hp, inside⟩
    · exact absurd separator (by decide)
    · exact c.not_mem_pieces (.inr rfl) p hp inside
  have place : front ++ c.text = front ++ "export".toList ++ c.space.chars ++ ['{'] ++
      c.list.text "//".toList ++ ['}'] := by
    rw [← List.append_nil c.text, c.text_append]
    simp only [List.append_assoc, List.cons_append, List.nil_append]
  rw [c.text_append, place]
  exact (prefers_literal "export" _ _).bind <|
    (prefers_blanks c.space.blank rfl).bind <| (prefers_exactly '{' _ _).bind <|
    (prefers_many1 (c.list.text_ne_nil _) inside rfl).captured.bind <|
    (prefers_exactly '}' _ _).bind <| (refuses_from openEnd _).notFollowedBy.bind <|
    prefers_pure _ _

/-- The clause is the one thing that a search for clauses finds. -/
theorem all_text (noExport : ¬ "export".toList <:+: front)
    (noExport' : ¬ "export".toList <:+: after) (openEnd : ¬ "from".toList <+: trimLeft after) :
    ∃ m, exportClause.all (front ++ (c.text ++ after)) = [m] ∧
      splitOn ',' m.value.chars = c.list.pieces "//".toList := by
  have first : Absent (Behind "export".toList (AfterGap (·.head? = some '{'))) front
      (c.text ++ after) := c.text_append after ▸ absent_before borderless_export noExport _
  have last := allBehind_append_of_absent exportClause_offers (absent_of_not_within noExport')
    (front ++ c.text)
  have nothing : ¬ Behind "export".toList (AfterGap (·.head? = some '{')) [] := by
    rintro ⟨_, split, _⟩
    cases split
  rw [List.append_nil, allBehind_nil exportClause_offers nothing] at last
  have some_text : c.text ≠ [] := List.cons_ne_nil _ _
  have found := allBehind_of_at (c.prefers_text front openEnd).at rfl some_text
  rw [last] at found
  refine ⟨_, (allBehind_append_of_absent exportClause_offers first []).trans found, ?_⟩
  rw [Span.chars_between]
  exact splitOn_joinChars (c.list.pieces_ne_nil _) (c.not_mem_pieces (.inl rfl))

/-- Without comments each item of the clause is a pair. -/
theorem filterMap_pieces (bare : ∀ f ∈ c.list.fillers, f.remarks = []) :
    (c.list.pieces "//".toList).filterMap exportItem? = c.pairs := by
  have items : (c.list.entries.map (ListedItem.text "//".toList)).filterMap exportItem? =
      c.pairs := by
    rw [List.filterMap_map, pairs]
    refine (List.filterMap_congr fun e member => ?_).trans (congrFun List.filterMap_eq_map' _)
    obtain ⟨lead, tail⟩ := NameList.mem_fillers_of_entry member
    have whole := exportItem?_text e.item e.lead.gap.blank e.tail.gap.blank
    rw [List.append_assoc] at whole
    rw [Function.comp_apply, ListedItem.text, Filler.text_of_bare (bare _ lead),
      Filler.text_of_bare (bare _ tail)]
    exact whole
  have last :
      (c.list.trailing.toList.map (Filler.text "//".toList)).filterMap exportItem? = [] := by
    rw [List.filterMap_map, List.filterMap_eq_nil_iff]
    intro f member
    have known := NameList.mem_fillers_of_trailing (Option.mem_toList.mp member)
    rw [Function.comp_apply, Filler.text_of_bare (bare f known)]
    exact exportItem?_of_blank f.gap.blank
  rw [NameList.pieces, List.filterMap_append, items, last, List.append_nil]

end ExportClause

end Clause

section Commented

variable {gap first : List Char} {e : ListedItem} {f : Filler}

theorem exists_slash (some_remark : f.remarks ≠ []) :
    ∃ more, f.text "//".toList = f.gap.chars ++ '/' :: more := f.exists_mark some_remark ['/']

/-- A slash that no alias mark stands before is read into the local name. -/
theorem marked_localName (blank : ∀ c ∈ gap, isBlank c = true)
    (starts : (first ++ ['/']).head?.any isBlank = false)
    (h : ∀ rest, Absent StartsAlias first ('/' :: rest)) (more : List Char) :
    ∃ pair, exportItem? (gap ++ (first ++ '/' :: more)) = some pair ∧ '/' ∈ pair.1.toList := by
  obtain ⟨piece, pieces, cut, inside⟩ := exists_mem_firstPiece (by decide)
    (h (trimRightOf isBlank more))
  rw [← trimChars_append_solid blank starts (by decide) more] at cut
  exact mem_localName (by decide) inside cut

/-- A comment in front of an item, or behind the last comma, goes into the local name. -/
theorem marked_front (some_remark : f.remarks ≠ []) (rest : List Char) :
    ∃ pair, exportItem? (f.text "//".toList ++ rest) = some pair ∧ '/' ∈ pair.1.toList := by
  obtain ⟨more, shape⟩ := exists_slash some_remark
  have nothing : ∀ rest, Absent StartsAlias [] ('/' :: rest) := fun _ => trivial
  rw [shape, List.append_assoc, List.cons_append]
  exact marked_localName f.gap.blank rfl nothing (more ++ rest)

theorem absent_startsAlias_gap (gap : Gap) (rest : List Char) :
    Absent StartsAlias gap.chars ('/' :: rest) := by
  refine absent_of_suffixes ?_
  rintro front back split _ starts
  have blank : ∀ c ∈ back, isBlank c = true := fun c hc =>
    gap.blank c (split ▸ List.mem_append_right front hc)
  obtain ⟨y, more, same, _⟩ := head?_of_startsAlias blank rfl starts
  exact absurd (List.cons.inj same).1 (by decide)

/-- A comment behind a name goes into the local name. -/
theorem marked_name (bare : e.lead.remarks = []) (noAlias : e.item.alias? = none)
    (some_remark : e.tail.remarks ≠ []) :
    ∃ pair, exportItem? (e.text "//".toList) = some pair ∧ '/' ∈ pair.1.toList := by
  obtain ⟨more, shape⟩ := exists_slash some_remark
  have whole : e.text "//".toList =
      e.lead.gap.chars ++ (e.item.name.chars ++ e.tail.gap.chars ++ '/' :: more) := by
    rw [ListedItem.text, Filler.text_of_bare bare, shape, NamedItem.text, noAlias,
      NamedItem.aliasText]
    simp
  have starts := e.item.name.head?_any (e.tail.gap.chars ++ ['/'])
  rw [← List.append_assoc] at starts
  rw [whole]
  exact marked_localName e.lead.gap.blank starts (fun rest => absent_append.mpr
    ⟨absent_startsAlias_solid e.item.name.solid _, absent_startsAlias_gap e.tail.gap rest⟩) more

/-- A comment without the word `as` brings in no alias mark. -/
theorem absent_startsAlias_comment {more : List Char}
    (shape : f.text "//".toList = f.gap.chars ++ '/' :: more)
    (h : ∀ r ∈ f.remarks, "as".toList ∉ words r.1.text) :
    Absent StartsAlias (f.gap.chars ++ '/' :: trimRightOf isBlank more) [] := by
  have comment : "as".toList ∉ words (f.text "//".toList) := by
    refine Filler.not_mem_words fun r hr inside => ?_
    rcases mem_words_cons (by decide) inside with inside | inside
    · exact absurd inside (by decide)
    · rcases mem_words_cons (by decide) inside with inside | inside
      · exact absurd inside (by decide)
      · exact h r hr inside
  -- Trimming takes no word away.
  obtain ⟨gap, blank, split⟩ := exists_trimRightOf isBlank more
  have same := words_append_right blank (f.gap.chars ++ '/' :: trimRightOf isBlank more)
  rw [List.append_assoc, List.cons_append, ← split, ← shape] at same
  exact absent_startsAlias_of_words (same ▸ comment)

/-- A comment behind an alias goes into the exported name, unless it holds the word `as`. -/
theorem marked_alias {mark : Break × Break × Name} (bare : e.lead.remarks = [])
    (aliased : e.item.alias? = some mark) (some_remark : e.tail.remarks ≠ [])
    (h : ∀ r ∈ e.tail.remarks, "as".toList ∉ words r.1.text) :
    ∃ pair, exportItem? (e.text "//".toList) = some pair ∧ '/' ∈ pair.2.toList := by
  obtain ⟨front, back, other⟩ := mark
  obtain ⟨more, shape⟩ := exists_slash some_remark
  let shown := e.item.name.chars ++ (front.chars ++ ("as".toList ++
    (back.chars ++ (other.chars ++ e.tail.gap.chars))))
  let ending := other.chars ++ (e.tail.gap.chars ++ '/' :: trimRightOf isBlank more)
  have whole : e.text "//".toList = e.lead.gap.chars ++ (shown ++ '/' :: more) := by
    rw [ListedItem.text, Filler.text_of_bare bare, shape, NamedItem.text, aliased,
      NamedItem.aliasText]
    simp [shown]
  have starts : (shown ++ ['/']).head?.any isBlank = false := by
    rw [List.append_assoc]
    exact e.item.name.head?_any _
  have trimmed : trimChars (e.text "//".toList) = e.item.name.chars ++
      (front.chars ++ ("as".toList ++ (back.chars ++ ending))) := by
    rw [whole, trimChars_append_solid e.lead.gap.blank starts (by decide) more]
    simp [shown, ending]
  have last : Absent StartsAlias ending [] := absent_append.mpr
    ⟨absent_startsAlias_solid other.solid _, absent_startsAlias_comment shape h⟩
  have cut : aliasMark.splitBy (trimChars (e.text "//".toList)) = [e.item.name.chars] ++ [ending] :=
    trimmed ▸ splitBy_of_marked front back e.item.name.solid (other.head?_any _) last
  have inside : '/' ∈ ending :=
    List.mem_append_right _ (List.mem_append_right _ List.mem_cons_self)
  exact mem_exportedName (by decide) inside cut

/-- A comment makes a pair with a name that no item of a clause has. -/
theorem ExportClause.exists_marked (c : ExportClause)
    (h : ∀ e ∈ c.list.entries, e.item.alias? ≠ none →
      ∀ r ∈ e.tail.remarks, "as".toList ∉ words r.1.text)
    (known : f ∈ c.list.fillers) (some_remark : f.remarks ≠ []) :
    ∃ pair ∈ (c.list.pieces "//".toList).filterMap exportItem?, pair ∉ c.pairs := by
  have foreign {pair : String × String} (marked : '/' ∈ pair.1.toList ∨ '/' ∈ pair.2.toList) :
      pair ∉ c.pairs := by
    intro member
    obtain ⟨e, _, rfl⟩ := List.mem_map.mp member
    have part : isNamePart '/' = false := by decide
    rw [Name.text, Name.text, String.toList_ofList, String.toList_ofList] at marked
    exact marked.elim (e.item.name.not_mem part) (e.item.shown.not_mem part)
  have found {p : List Char} (member : p ∈ c.list.pieces "//".toList)
      (read : ∃ pair, exportItem? p = some pair ∧ ('/' ∈ pair.1.toList ∨ '/' ∈ pair.2.toList)) :
      ∃ pair ∈ (c.list.pieces "//".toList).filterMap exportItem?, pair ∉ c.pairs := by
    obtain ⟨pair, read, marked⟩ := read
    exact ⟨pair, List.mem_filterMap.mpr ⟨p, member, read⟩, foreign marked⟩
  have onLocal {p : List Char} (read : ∃ pair, exportItem? p = some pair ∧ '/' ∈ pair.1.toList) :
      ∃ pair, exportItem? p = some pair ∧ ('/' ∈ pair.1.toList ∨ '/' ∈ pair.2.toList) :=
    read.imp fun _ => And.imp_right .inl
  rcases List.mem_append.mp known with inItem | behind
  · obtain ⟨e, member, place⟩ := List.mem_flatMap.mp inItem
    refine found (List.mem_append_left _ (List.mem_map_of_mem member)) ?_
    by_cases bare : e.lead.remarks = []
    · have tail : e.tail.remarks ≠ [] := by
        rcases List.mem_pair.mp place with rfl | rfl
        · exact absurd bare some_remark
        · exact some_remark
      cases aliased : e.item.alias? with
      | none => exact onLocal (marked_name bare aliased tail)
      | some mark =>
          have plain := h e member (aliased ▸ Option.some_ne_none mark)
          obtain ⟨pair, read, marked⟩ := marked_alias bare aliased tail plain
          exact ⟨pair, read, .inr marked⟩
    · exact onLocal (marked_front bare _)
  · refine found (List.mem_append_right _ (List.mem_map_of_mem behind)) (onLocal ?_)
    have whole := marked_front some_remark []
    rwa [List.append_nil] at whole

end Commented

/-- A clause that no source follows, the only export of its text: the table is the one of the
clause exactly where the clause has no comments. -/
theorem exportsOf_clause_iff (c : ExportClause) (front after : List Char)
    (noExport : ¬ "export".toList <:+: front) (noExport' : ¬ "export".toList <:+: after)
    (openEnd : ¬ "from".toList <+: trimLeft after)
    (h : ∀ e ∈ c.list.entries, e.item.alias? ≠ none →
      ∀ r ∈ e.tail.remarks, "as".toList ∉ words r.1.text) :
    exportsOf (front ++ (c.text ++ after)) = exportTable c.pairs ↔
      ∀ f ∈ c.list.fillers, f.remarks = [] := by
  obtain ⟨m, only, cut⟩ := c.all_text noExport noExport' openEnd
  rw [exportsOf_eq]
  constructor
  · intro same f known
    by_contra some_remark
    obtain ⟨pair, member, foreign⟩ := c.exists_marked h known some_remark
    have read : pair ∈ exportPairs (front ++ (c.text ++ after)) := by
      rw [exportPairs, only, List.flatMap_singleton, cut]
      exact List.mem_append_left _ (List.mem_append_right _ member)
    exact foreign (mem_of_exportTable_eq same read)
  · intro bare
    have absent := c.absent_keyword noExport noExport' bare
    have inside : inlineExport.all (front ++ (c.text ++ after)) = [] :=
      all_eq_nil inlineExport_offers absent (by rintro ⟨_, split, _⟩; cases split)
    have lines : defaultExportLine.all (front ++ (c.text ++ after)) = [] := by
      refine all_eq_nil defaultExportLine_offers (absent_afterGap (by decide) absent) ?_
      rintro ⟨_, _, split, _, rfl, _⟩
      simp at split
    rw [exportPairs, inside, only, lines, List.flatMap_singleton, cut, c.filterMap_pieces bare]
    simp

def newLine : Gap := ⟨['\n', ' ', ' '], List.all_eq_true.mp (by decide)⟩

/-- Two items over two lines, the first one under an alias, and a comma behind the last one. -/
def aliasedClause : ExportClause where
  space := Break.space.toGap
  list :=
    { entries := [
        ⟨⟨.empty, []⟩, ⟨.a, some (.space, .space, .b)⟩, ⟨.empty, []⟩⟩,
        ⟨⟨newLine, []⟩, ⟨.a, none⟩, ⟨.empty, []⟩⟩]
      nonempty := List.cons_ne_nil _ _
      trailing := some ⟨Break.space.toGap, []⟩ }
  plain := by decide

theorem exportsOf_clause_aliased :
    exportsOf "const a = 1;\nexport \x7ba as b,\n  a, \x7d;".toList = [("a", ["b", "a"])] := by
  have bare : ∀ f ∈ aliasedClause.list.fillers, f.remarks = [] := by decide
  have table := (exportsOf_clause_iff aliasedClause "const a = 1;\n".toList [';'] (by decide)
    (by decide) (by decide) (by decide)).mpr bare
  have text : "const a = 1;\n".toList ++ (aliasedClause.text ++ [';']) =
      "const a = 1;\nexport \x7ba as b,\n  a, \x7d;".toList := by decide
  have pairs : exportTable aliasedClause.pairs = [("a", ["b", "a"])] := by decide
  rw [← text, table, pairs]

/-- A comment behind a comma becomes a part of the next name. -/
theorem exportsOf_clause_commented :
    ∃ c : ExportClause, c.text ++ [';', '\n'] =
        "export \x7b\n  a, // first\n  b,\n\x7d;\n".toList ∧
      exportTable c.pairs = [("a", ["a"]), ("b", ["b"])] ∧
      exportsOf (c.text ++ [';', '\n']) = [("a", ["a"]), ("// first\n  b", ["// first\n  b"])] := by
  let first : Remark := ⟨" first".toList, by decide⟩
  refine ⟨⟨Break.space.toGap, ⟨[
    ⟨⟨newLine, []⟩, ⟨.a, none⟩, ⟨.empty, []⟩⟩,
    ⟨⟨Break.space.toGap, [(first, ⟨[' ', ' '], List.all_eq_true.mp (by decide)⟩)]⟩,
      ⟨.b, none⟩, ⟨.empty, []⟩⟩], List.cons_ne_nil _ _, some ⟨.feed, []⟩⟩,
    by decide⟩, ?text, ?table, ?read⟩
  case text => decide
  case table => decide
  case read => decide +kernel

end ComponentAtlas.TypeScript
