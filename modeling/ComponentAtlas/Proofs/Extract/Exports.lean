import ComponentAtlas.Proofs.Extract.Forms
import ComponentAtlas.Proofs.Source.Layout
import ComponentAtlas.Proofs.Table

/-!
Tables of exports, items of export clauses, and the places where a file can export something. The
table is told by its pairs of names, an item by its pieces between blanks, and every form of export
by the keyword that stands behind its `export`.
-/

namespace ComponentAtlas.TypeScript

open Text Recognizer
open Cursor (between)

section Tables

/-- Each local name once, with the names that it is exported under, each of these once too. -/
def exportTable (pairs : List (String × String)) : ExportTable :=
  (pairs.map (·.1)).eraseDups.map fun localName =>
    (localName, ((pairs.filter (·.1 = localName)).map (·.2)).eraseDups)

def exporting : Entry (String × String) (String × List String) String where
  itemKey := (·.1)
  rowKey := (·.1)
  start pair := (pair.1, [pair.2])
  change pair row := (row.1, if row.2.contains pair.2 then row.2 else row.2 ++ [pair.2])
  rowKey_start _ := rfl
  rowKey_change _ _ := rfl

theorem add_eq_enter (table : ExportTable) (pair : String × String) :
    table.add pair.1 pair.2 = exporting.enter pair table := by
  induction table with
  | nil => rfl
  | cons row rows ih =>
      rw [ExportTable.add, Entry.enter, ← ih]
      by_cases same : row.1 = pair.1 <;> simp [same, exporting]

theorem exporting_foldl (localName : String) (pairs : List (String × String))
    (shown : List String) :
    pairs.foldl (fun row pair => exporting.change pair row) (localName, shown.eraseDups) =
      (localName, (shown ++ pairs.map (·.2)).eraseDups) := by
  have adding := foldl_addMissing shown (pairs.map (·.2))
  rw [List.foldl_map] at adding
  rw [← adding]
  clear adding
  generalize shown.eraseDups = names
  induction pairs generalizing names with
  | nil => rfl
  | cons pair pairs ih =>
      rw [List.foldl_cons, List.foldl_cons, ← ih]
      simp [exporting]

theorem rowOf?_itemsOf {pairs : List (String × String)} {localName : String}
    (h : localName ∈ pairs.map (·.1)) :
    exporting.rowOf? (exporting.itemsOf pairs localName) =
      some (localName, ((pairs.filter (·.1 = localName)).map (·.2)).eraseDups) := by
  obtain ⟨pair, inside, rfl⟩ := List.mem_map.mp h
  have items : exporting.itemsOf pairs pair.1 = pairs.filter (·.1 = pair.1) := rfl
  have here : pair ∈ pairs.filter (·.1 = pair.1) := List.mem_filter.mpr ⟨inside, by simp⟩
  obtain ⟨first, later, split⟩ := List.exists_cons_of_ne_nil (List.ne_nil_of_mem here)
  have key : first.1 = pair.1 := by
    have member : first ∈ pairs.filter (·.1 = pair.1) := split ▸ List.mem_cons_self
    simpa using (List.mem_filter.mp member).2
  rw [items, split, ← key, Entry.rowOf?]
  exact congrArg some (exporting_foldl first.1 later [first.2])

/-- The table of exports is the table of its pairs. -/
theorem exportsOf_eq (content : List Char) :
    exportsOf content = exportTable (exportPairs content) := by
  have table : exportsOf content = exporting.table (exportPairs content) := by
    rw [exportsOf, Entry.table]
    simp only [← add_eq_enter]
  rw [table, exporting.table_eq, exportTable]
  exact (List.filterMap_congr fun _ member => rowOf?_itemsOf (List.mem_eraseDups.mp member)).trans
    (congrFun List.filterMap_eq_map' _)

theorem mem_of_mem_exportTable {pairs : List (String × String)} {pair : String × String}
    (h : pair ∈ pairs) : ∃ names, (pair.1, names) ∈ exportTable pairs ∧ pair.2 ∈ names := by
  refine ⟨_, List.mem_map.mpr ⟨pair.1, ?_, rfl⟩, ?_⟩
  · exact List.mem_eraseDups.mpr (List.mem_map_of_mem h)
  · refine List.mem_eraseDups.mpr (List.mem_map_of_mem (List.mem_filter.mpr ⟨h, ?_⟩))
    exact decide_eq_true rfl

theorem mem_exportTable {pairs : List (String × String)} {localName exported : String}
    {names : List String} (h : (localName, names) ∈ exportTable pairs) (member : exported ∈ names) :
    (localName, exported) ∈ pairs := by
  obtain ⟨_, _, same⟩ := List.mem_map.mp h
  cases same
  obtain ⟨pair, hpair, rfl⟩ := List.mem_map.mp (List.mem_eraseDups.mp member)
  obtain ⟨inside, named⟩ := List.mem_filter.mp hpair
  have named : pair.1 = localName := by simpa using named
  exact named ▸ inside

/-- Tables that are the same have the same pairs. -/
theorem mem_of_exportTable_eq {pairs pairs' : List (String × String)}
    (h : exportTable pairs = exportTable pairs') {pair : String × String} (member : pair ∈ pairs) :
    pair ∈ pairs' := by
  obtain ⟨names, row, shown⟩ := mem_of_mem_exportTable member
  exact mem_exportTable (h ▸ row) shown

end Tables

section Items

variable {s t front back : List Char}

/-- The pieces of an item that are not blank. -/
def keptPieces (item : List Char) : List (List Char) :=
  ((aliasMark.splitBy (trimChars item)).map trimChars).filter (!·.isEmpty)

theorem exportItem?_eq (item : List Char) : exportItem? item =
    match (keptPieces item).head?, (keptPieces item).getLast? with
    | some first, some last => some (String.ofList first, String.ofList last)
    | _, _ => none := rfl

theorem exportItem?_text (i : NamedItem) (blank : ∀ c ∈ front, isBlank c = true)
    (blank' : ∀ c ∈ back, isBlank c = true) :
    exportItem? (front ++ i.text ++ back) = some (i.name.text, i.shown.text) := by
  have kept : keptPieces (front ++ i.text ++ back) = i.names.map Name.chars := by
    have trimmed : (i.names.map Name.chars).map trimChars = i.names.map Name.chars := by
      rw [List.map_map]
      exact List.map_congr_left fun n _ => n.trimChars
    rw [keptPieces, i.trimChars_text blank blank', i.splitBy_text, trimmed]
    refine List.filter_eq_self.mpr fun chars member => ?_
    obtain ⟨n, _, rfl⟩ := List.mem_map.mp member
    simpa using n.nonempty
  obtain ⟨others, names⟩ := i.names_cons
  have last := i.names_getLast?
  rw [exportItem?_eq, kept, List.getLast?_map, last, names]
  rfl

theorem exportItem?_of_blank (blank : ∀ c ∈ s, isBlank c = true) : exportItem? s = none := by
  have trimmed : trimChars s = [] := by
    rw [trimChars, show trimLeft s = [] from List.dropWhile_eq_nil_iff.mpr blank]
    rfl
  have kept : keptPieces s = [] := by
    rw [keptPieces, trimmed]
    decide
  rw [exportItem?_eq, kept]
  rfl

variable {c : Char} {first last : List Char} {pieces : List (List Char)}

/-- What stands in the first piece of an item stands in its local name. -/
theorem mem_localName (solid : isBlank c = false) (inside : c ∈ first)
    (cut : aliasMark.splitBy (trimChars s) = first :: pieces) :
    ∃ pair, exportItem? s = some pair ∧ c ∈ pair.1.toList := by
  have shown : c ∈ trimChars first := (mem_trimChars solid).mpr inside
  have nonempty : trimChars first ≠ [] := List.ne_nil_of_mem shown
  have kept : ∃ others, keptPieces s = trimChars first :: others :=
    ⟨_, by rw [keptPieces, cut, List.map_cons, List.filter_cons_of_pos (by simpa using nonempty)]⟩
  obtain ⟨others, kept⟩ := kept
  obtain ⟨last, ends⟩ : ∃ last, (trimChars first :: others).getLast? = some last :=
    ⟨_, List.getLast?_eq_some_getLast (List.cons_ne_nil _ _)⟩
  refine ⟨(String.ofList (trimChars first), String.ofList last), ?_, ?_⟩
  · rw [exportItem?_eq, kept, ends]
    rfl
  · rw [String.toList_ofList]
    exact shown

/-- What stands in the last piece of an item stands in its exported name. -/
theorem mem_exportedName (solid : isBlank c = false) (inside : c ∈ last)
    (cut : aliasMark.splitBy (trimChars s) = pieces ++ [last]) :
    ∃ pair, exportItem? s = some pair ∧ c ∈ pair.2.toList := by
  have shown : c ∈ trimChars last := (mem_trimChars solid).mpr inside
  have nonempty : trimChars last ≠ [] := List.ne_nil_of_mem shown
  have kept : ∃ others, keptPieces s = others ++ [trimChars last] := by
    refine ⟨(pieces.map trimChars).filter (!·.isEmpty), ?_⟩
    rw [keptPieces, cut, List.map_append, List.filter_append, List.map_singleton,
      List.filter_cons_of_pos (by simpa using nonempty), List.filter_nil]
  obtain ⟨others, kept⟩ := kept
  obtain ⟨first, starts⟩ : ∃ first, (others ++ [trimChars last]).head? = some first :=
    ⟨_, List.head?_eq_some_head (List.concat_ne_nil _ _)⟩
  refine ⟨(String.ofList first, String.ofList (trimChars last)), ?_, ?_⟩
  · rw [exportItem?_eq, kept, starts, List.getLast?_concat]
  · rw [String.toList_ofList]
    exact shown

end Items

section Forms

-- The size of an instance doubles with each step of a form.
set_option synthInstance.maxSize 10000

variable {s front after : List Char}

def exportKeywords : List String :=
  ["default", "declare", "abstract", "async", "function", "const", "let", "var", "class",
    "interface", "type", "enum"]

def StartsKeyword (s : List Char) : Prop := ∃ w ∈ exportKeywords, w.toList <+: s

theorem exportKeywords_parts : ∀ w ∈ exportKeywords,
    2 < w.toList.length ∧ ∀ c ∈ w.toList, isNamePart c = true := by
  have checked : ∀ w ∈ exportKeywords, 2 < w.toList.length ∧ w.toList.all isNamePart = true := by
    decide
  exact fun w member => (checked w member).imp_right List.all_eq_true.mp

theorem head?_of_startsKeyword (h : StartsKeyword s) :
    ∃ c, s.head? = some c ∧ isNamePart c = true := by
  obtain ⟨w, member, more, rfl⟩ := h
  obtain ⟨long, parts⟩ := exportKeywords_parts w member
  obtain ⟨c, rest, split⟩ := List.exists_cons_of_length_pos (Nat.zero_lt_of_lt long)
  rw [split] at parts ⊢
  exact ⟨c, rfl, parts c List.mem_cons_self⟩

theorem startsKeyword_solid (s : List Char) (h : StartsKeyword s) :
    s.head?.any isBlank = false := by
  obtain ⟨c, first, part⟩ := head?_of_startsKeyword h
  rw [first]
  exact Bool.eq_false_iff.mpr fun blank =>
    Bool.noConfusion (part.symm.trans (isNamePart_of_isBlank blank))

theorem offers_anyOf_keywords {words : List String} (h : words ⊆ exportKeywords) :
    (wordThenBlanks words).Offers fun c _ _ => StartsKeyword c.rest := by
  refine Offers.starts ((offers_anyOf words).imp ?_)
  rintro c _ d ⟨w, member, split⟩
  exact ⟨w, h member, d.rest, split.symm⟩

theorem functionMark_offers : functionMark.Offers fun c _ _ => StartsKeyword c.rest := by
  refine Offers.starts ((offers_literal "function").imp ?_)
  rintro c _ d ⟨split, _⟩
  exact ⟨"function", by decide, d.rest, split.symm⟩

theorem behind_export {α : Type} {r : Unit → Recognizer α}
    (h : (r ()).Offers fun c _ _ => StartsKeyword c.rest) :
    (wordThenBlanks ["export"] >>= r).Offers fun c _ _ =>
      Behind "export".toList (AfterBreak StartsKeyword) c.rest := by
  have word : (anyOf ["export"]).Offers fun c _ d => c.rest = "export".toList ++ d.rest := by
    refine (offers_anyOf ["export"]).imp ?_
    rintro c _ d ⟨w, member, split⟩
    exact List.mem_singleton.mp member ▸ split
  have gap : (blanks1 >>= r).Offers fun c _ _ => AfterBreak StartsKeyword c.rest :=
    offers_blanks1_bind h
  refine (word.bind fun _ => gap).imp ?_
  rintro c _ _ ⟨_, d, split, follows⟩
  exact ⟨d.rest, split, follows⟩

/-- An export in front of a declaration has a keyword behind `export`. -/
theorem inlineExport_offers : inlineExport.Offers fun c _ _ =>
    Behind "export".toList (AfterBreak StartsKeyword) c.rest := by
  refine behind_export ?_
  refine Offers.optional_bind (offers_anyOf_keywords (by decide)) ?_
  refine Offers.optional_bind (offers_anyOf_keywords (by decide)) ?_
  refine Offers.optional_bind (offers_anyOf_keywords (by decide)) ?_
  refine Offers.starts (Offers.either ?_ (offers_anyOf_keywords (by decide)))
  exact Offers.optional_bind (offers_anyOf_keywords (by decide)) functionMark_offers

theorem defaultExportLine_offers : defaultExportLine.Offers fun c _ _ =>
    AfterGap (Behind "export".toList (AfterBreak StartsKeyword)) c.rest := by
  have form : defaultExportLine.Offers _ := offers_lineStart.bind fun _ => offers_blanks_bind <|
    behind_export (Offers.starts (offers_anyOf_keywords (by decide)))
  refine form.imp ?_
  rintro c _ _ ⟨_, _, ⟨_, rfl⟩, starts⟩
  exact starts

theorem exportClause_offers : exportClause.Offers fun c _ _ =>
    Behind "export".toList (AfterGap (·.head? = some '{')) c.rest := by
  refine offers_literal_bind "export" (offers_blanks_bind ?_)
  refine Offers.starts (P := (·.head? = some '{')) ((offers_exactly '{').imp ?_)
  rintro c _ d ⟨split, _⟩
  rw [split]
  rfl

end Forms

end ComponentAtlas.TypeScript
