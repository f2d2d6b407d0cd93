import ComponentAtlas.Proofs.Source.Items

/-!
How a list of names is laid out: blanks and comments around its items and commas between them.
Names are told from the blanks and commas around them, so a list holds no keyword but where a name
ends with it.
-/

namespace ComponentAtlas

open Text

/-- What a comment says, up to the line feed that ends it. -/
structure Remark where
  text : List Char
  oneLine : '\n' ∉ text

/-- Blanks, and comments with blanks behind them. -/
structure Filler where
  gap : Gap
  remarks : List (Remark × Gap)

/-- The text of a filler whose comments start with `mark`. -/
def Filler.text (mark : List Char) (f : Filler) : List Char :=
  f.gap.chars ++ f.remarks.flatMap fun (r, g) => mark ++ (r.text ++ '\n' :: g.chars)

structure ListedItem where
  lead : Filler
  item : NamedItem
  tail : Filler

def ListedItem.text (mark : List Char) (e : ListedItem) : List Char :=
  e.lead.text mark ++ (e.item.text ++ e.tail.text mark)

/-- Items with commas between them, and possibly a comma behind the last one. -/
structure NameList where
  entries : List ListedItem
  nonempty : entries ≠ []
  trailing : Option Filler

namespace NameList

variable (l : NameList)

def pieces (mark : List Char) : List (List Char) :=
  l.entries.map (ListedItem.text mark) ++ l.trailing.toList.map (Filler.text mark)

def text (mark : List Char) : List Char := joinChars [','] (l.pieces mark)

/-- The blanks and comments around the items, in order. -/
def fillers : List Filler := l.entries.flatMap (fun e => [e.lead, e.tail]) ++ l.trailing.toList

theorem pieces_ne_nil (mark : List Char) : l.pieces mark ≠ [] := by
  simp [pieces, l.nonempty]

/-- A list starts with the text of its first item. -/
theorem exists_first (mark : List Char) :
    ∃ e ∈ l.entries, ∃ rest, l.text mark = e.text mark ++ rest := by
  obtain ⟨e, entries, split⟩ := List.exists_cons_of_ne_nil l.nonempty
  refine ⟨e, split ▸ List.mem_cons_self, ?_⟩
  rw [text, pieces, split]
  exact joinChars_cons _ _ _

theorem text_ne_nil (mark : List Char) : l.text mark ≠ [] := by
  obtain ⟨e, _, rest, shape⟩ := l.exists_first mark
  simp [shape, ListedItem.text, e.item.text_ne_nil]

end NameList

section Fillers

variable {mark : List Char} {f : Filler} {e : ListedItem} {l : NameList} {c : Char}

theorem Filler.text_of_bare (bare : f.remarks = []) (mark : List Char) :
    f.text mark = f.gap.chars := by
  rw [text, bare, List.flatMap_nil, List.append_nil]

theorem Filler.not_mem_text (solid : isBlank c = false) (unmarked : c ∉ mark)
    (h : ∀ r ∈ f.remarks, c ∉ r.1.text) : c ∉ f.text mark := by
  have feed : c ≠ '\n' := fun same => absurd solid (by rw [same]; decide)
  rw [text, List.mem_append, List.mem_flatMap, not_or]
  refine ⟨not_mem_of_blank f.gap.blank solid, ?_⟩
  rintro ⟨⟨r, g⟩, member, inside⟩
  have gap := not_mem_of_blank g.blank solid
  simp [unmarked, h _ member, feed, gap] at inside

theorem Filler.exists_mark {m : Char} (some_remark : f.remarks ≠ []) (mark : List Char) :
    ∃ more, f.text (m :: mark) = f.gap.chars ++ m :: more := by
  obtain ⟨⟨r, g⟩, remarks, split⟩ := List.exists_cons_of_ne_nil some_remark
  exact ⟨_, by rw [text, split, List.flatMap_cons]; rfl⟩

/-- The words of comments, each with its mark in front. -/
theorem Filler.not_mem_words {w : List Char} (h : ∀ r ∈ f.remarks, w ∉ words (mark ++ r.1.text)) :
    w ∉ words (f.text mark) := by
  obtain ⟨gap, remarks⟩ := f
  rw [text, words_append_left gap.blank]
  simp only at h ⊢
  induction remarks with
  | nil => exact List.not_mem_nil
  | cons r remarks ih =>
      obtain ⟨first, later⟩ := List.forall_mem_cons.mp h
      have shape : mark ++ (r.1.text ++ '\n' :: r.2.chars) = (mark ++ r.1.text) ++ '\n' ::
          r.2.chars := (List.append_assoc ..).symm
      rw [List.flatMap_cons, shape, List.append_assoc, List.cons_append,
        words_append_cons (by decide), words_append_left r.2.blank, List.mem_append, not_or]
      exact ⟨first, ih later⟩

theorem ListedItem.not_mem_text (part : isNamePart c = false) (solid : isBlank c = false)
    (lead : c ∉ e.lead.text mark) (tail : c ∉ e.tail.text mark) : c ∉ e.text mark := by
  simp [text, lead, tail, e.item.not_mem_text part solid]

theorem NameList.mem_fillers_of_entry (h : e ∈ l.entries) :
    e.lead ∈ l.fillers ∧ e.tail ∈ l.fillers := by
  constructor <;> refine List.mem_append_left _ (List.mem_flatMap.mpr ⟨e, h, ?_⟩) <;> simp

theorem NameList.mem_fillers_of_trailing (h : f ∈ l.trailing) : f ∈ l.fillers :=
  List.mem_append_right _ (Option.mem_toList.mpr h)

/-- What holds of each item and of what may stand behind the last comma holds of each piece. -/
theorem NameList.forall_pieces {P : List Char → Prop} (items : ∀ e ∈ l.entries, P (e.text mark))
    (trailing : ∀ f ∈ l.trailing, P (f.text mark)) : ∀ p ∈ l.pieces mark, P p := by
  intro p hp
  rcases List.mem_append.mp hp with hp | hp
  · obtain ⟨e, member, rfl⟩ := List.mem_map.mp hp
    exact items e member
  · obtain ⟨f, member, rfl⟩ := List.mem_map.mp hp
    exact trailing f (Option.mem_toList.mp member)

/-- Where there are no comments their mark does not matter. -/
theorem NameList.text_of_bare (bare : ∀ f ∈ l.fillers, f.remarks = []) (mark mark' : List Char) :
    l.text mark = l.text mark' := by
  have items : l.entries.map (ListedItem.text mark) = l.entries.map (ListedItem.text mark') := by
    refine List.map_congr_left fun e member => ?_
    obtain ⟨lead, tail⟩ := mem_fillers_of_entry member
    simp only [ListedItem.text, Filler.text_of_bare (bare _ lead),
      Filler.text_of_bare (bare _ tail)]
  have trailing : l.trailing.toList.map (Filler.text mark) =
      l.trailing.toList.map (Filler.text mark') := by
    refine List.map_congr_left fun f member => ?_
    have known := mem_fillers_of_trailing (Option.mem_toList.mp member)
    rw [Filler.text_of_bare (bare f known), Filler.text_of_bare (bare f known)]
  rw [text, text, pieces, pieces, items, trailing]

theorem NameList.not_mem_pieces (part : isNamePart c = false) (solid : isBlank c = false)
    (unmarked : c ∉ mark) (h : ∀ f ∈ l.fillers, ∀ r ∈ f.remarks, c ∉ r.1.text) :
    ∀ p ∈ l.pieces mark, c ∉ p := by
  have clear : ∀ f ∈ l.fillers, c ∉ f.text mark := fun f hf =>
    Filler.not_mem_text solid unmarked (h f hf)
  refine forall_pieces (fun e member => ?_) fun f member => clear f (mem_fillers_of_trailing member)
  obtain ⟨lead, tail⟩ := mem_fillers_of_entry member
  exact e.not_mem_text part solid (clear e.lead lead) (clear e.tail tail)

end Fillers

section ListText

variable {mark : List Char} {e next : ListedItem} {entries : List ListedItem}

theorem NameList.text_cons_cons (h : e :: next :: entries ≠ []) (trailing : Option Filler) :
    (⟨e :: next :: entries, h, trailing⟩ : NameList).text mark = e.text mark ++ ',' ::
      (⟨next :: entries, List.cons_ne_nil _ _, trailing⟩ : NameList).text mark :=
  joinChars_cons_cons [','] _ _ _

theorem NameList.text_single (h : [e] ≠ []) :
    (⟨[e], h, none⟩ : NameList).text mark = e.text mark := joinChars_singleton _ _

theorem NameList.text_trailing (h : [e] ≠ []) (f : Filler) :
    (⟨[e], h, some f⟩ : NameList).text mark = e.text mark ++ ',' :: f.text mark := by
  have pieces := joinChars_cons_cons [','] (e.text mark) (f.text mark) []
  rwa [joinChars_singleton] at pieces

end ListText

section Keywords

variable {keyword : List Char} {Q : List Char → Prop} {k : Char} {s rest : List Char}

/-- Nothing that may stand behind a name of a list is what `Q` asks for: the end of its item, or an
alias. -/
structure EndsNames (Q : List Char → Prop) : Prop where
  part : ∀ more, Q more → more.head?.any isNamePart = false
  item : ∀ (gap : Gap) (x : Char) (rest : List Char), x = ',' ∨ x = '}' →
    ¬ Q (gap.chars ++ x :: rest)
  other : ∀ (front back : Break) (name : Name) (gap : Gap) (x : Char) (rest : List Char),
    x = ',' ∨ x = '}' →
    ¬ Q (front.chars ++ ("as".toList ++ (back.chars ++ (name.chars ++ (gap.chars ++ x :: rest)))))

theorem absent_gap (first : keyword.head? = some k) (part : isNamePart k = true) (gap : Gap)
    (rest : List Char) : Absent (Behind keyword Q) gap.chars rest :=
  absent_other first fun inside =>
    Bool.noConfusion (part.symm.trans (isNamePart_of_isBlank (gap.blank k inside)))

theorem absent_name (all : ∀ c ∈ keyword, isNamePart c = true)
    (stops : ∀ more, Q more → more.head?.any isNamePart = false) (name : Name)
    (ends : rest.head?.any isNamePart = false) (refused : ¬ Q rest) :
    Absent (Behind keyword Q) name.chars rest :=
  absent_run all name.parts ends stops refused

theorem Text.Gap.head?_any_isNamePart (gap : Gap) (ends : rest.head?.any isNamePart = false) :
    (gap.chars ++ rest).head?.any isNamePart = false := by
  obtain ⟨chars, blank⟩ := gap
  cases chars with
  | nil => exact ends
  | cons c chars => exact isNamePart_of_isBlank (blank c List.mem_cons_self)

theorem Text.Break.head?_any_isNamePart (gap : Break) (rest : List Char) :
    (gap.chars ++ rest).head?.any isNamePart = false := by
  obtain ⟨b, first, blank⟩ := gap.exists_head? rest
  rw [first]
  exact isNamePart_of_isBlank blank

def Text.Break.append (gap : Break) (lead : Gap) : Break where
  chars := gap.chars ++ lead.chars
  blank c hc := (List.mem_append.mp hc).elim (gap.blank c) (lead.blank c)
  nonempty := by simp [gap.nonempty]

/-- An item holds no keyword, whatever its names end with. -/
theorem absent_item (all : ∀ c ∈ keyword, isNamePart c = true) (first : keyword.head? = some k)
    (other : k ∉ "as".toList) (h : EndsNames Q) (i : NamedItem) (gap : Gap) {x : Char}
    (ends : x = ',' ∨ x = '}') (rest : List Char) :
    Absent (Behind keyword Q) i.text (gap.chars ++ x :: rest) := by
  have part : isNamePart k = true := all k (List.mem_of_head? first)
  have stop : (gap.chars ++ x :: rest).head?.any isNamePart = false :=
    gap.head?_any_isNamePart (by rcases ends with rfl | rfl <;> rfl)
  have last (name : Name) : Absent (Behind keyword Q) name.chars (gap.chars ++ x :: rest) :=
    absent_name all h.part name stop (h.item gap x rest ends)
  obtain ⟨name, alias?⟩ := i
  cases alias? with
  | none => simpa [NamedItem.text, NamedItem.aliasText] using last name
  | some mark =>
      obtain ⟨front, back, shown⟩ := mark
      simp only [NamedItem.text, NamedItem.aliasText, absent_append, List.append_assoc]
      exact ⟨absent_name all h.part name (front.head?_any_isNamePart _)
        (h.other front back shown gap x rest ends), absent_gap first part front.toGap _,
        absent_other first other, absent_gap first part back.toGap _, last shown⟩

theorem absent_joinChars (first : keyword.head? = some k) (notComma : k ≠ ',')
    {pieces : List (List Char)}
    (h : ∀ p ∈ pieces, ∀ x rest, x = ',' ∨ x = '}' → Absent (Behind keyword Q) p (x :: rest))
    (rest : List Char) : Absent (Behind keyword Q) (joinChars [','] pieces) ('}' :: rest) := by
  induction pieces with
  | nil => trivial
  | cons p pieces ih =>
      have here := h p List.mem_cons_self
      cases pieces with
      | nil =>
          simpa using here '}' rest (.inr rfl)
      | cons next pieces =>
          have later := ih fun q hq => h q (List.mem_cons_of_mem p hq)
          rw [joinChars_cons_cons, absent_append, absent_append]
          refine ⟨?_, absent_other first ?_, later⟩
          · rw [List.append_assoc, List.singleton_append]
            exact here ',' _ (.inl rfl)
          · exact fun inside => notComma (List.mem_singleton.mp inside)

/-- A list without comments holds no keyword. -/
theorem NameList.absent_text (l : NameList) (all : ∀ c ∈ keyword, isNamePart c = true)
    (first : keyword.head? = some k) (other : k ∉ "as".toList) (h : EndsNames Q)
    (bare : ∀ f ∈ l.fillers, f.remarks = []) (mark rest : List Char) :
    Absent (Behind keyword Q) (l.text mark) ('}' :: rest) := by
  have part : isNamePart k = true := all k (List.mem_of_head? first)
  have notComma : k ≠ ',' := fun same => absurd part (by rw [same]; decide)
  refine absent_joinChars first notComma (NameList.forall_pieces (fun e member => ?_)
    fun f member => ?_) rest
  · intro x rest ends
    obtain ⟨lead, tail⟩ := mem_fillers_of_entry member
    rw [ListedItem.text, Filler.text_of_bare (bare _ lead), Filler.text_of_bare (bare _ tail),
      absent_append, absent_append]
    exact ⟨absent_gap first part _ _, absent_item all first other h e.item e.tail.gap ends rest,
      absent_gap first part _ _⟩
  · intro x rest _
    rw [Filler.text_of_bare (bare f (mem_fillers_of_trailing member))]
    exact absent_gap first part _ _

end Keywords

end ComponentAtlas
