import ComponentAtlas.Proofs.Source.Layout

/-!
Lists of names with comments. Comments are dropped before the list is cut at commas, so a list gives
the names of its items whatever its comments hold. A list that is read only up to the first closing
parenthesis loses the items behind a comment that holds one.
-/

namespace ComponentAtlas

open Text

section Dropping

variable {s : List Char} {c : Char}

theorem dropComments_inside (h : '\n' ∉ s) : dropComments true s = [] := by
  induction s with
  | nil => rfl
  | cons c s ih =>
      rw [List.mem_cons, not_or] at h
      have other : ¬ c = '\n' := fun same => h.1 same.symm
      simp [dropComments, other, ih h.2]

theorem dropComments_inside_append (h : '\n' ∉ s) (t : List Char) :
    dropComments true (s ++ '\n' :: t) = '\n' :: dropComments false t := by
  induction s with
  | nil => simp [dropComments]
  | cons c s ih =>
      rw [List.mem_cons, not_or] at h
      have other : ¬ c = '\n' := fun same => h.1 same.symm
      simp [dropComments, other, ih h.2]

theorem dropComments_hash (s : List Char) :
    dropComments false ('#' :: s) = dropComments true s := by
  simp [dropComments]

theorem dropComments_gap (gap : Gap) (t : List Char) :
    dropComments false (gap.chars ++ t) = gap.chars ++ dropComments false t :=
  dropComments_append (fun c hc => by
    have blank := gap.blank c hc
    constructor <;> rintro rfl <;> exact absurd blank (by decide)) t

theorem Filler.text_cons (gap : Gap) (r : Remark × Gap) (remarks : List (Remark × Gap))
    (mark : List Char) : Filler.text mark ⟨gap, r :: remarks⟩ =
      gap.chars ++ (mark ++ (r.1.text ++ '\n' :: Filler.text mark ⟨r.2, remarks⟩)) := by
  simp [Filler.text]

/-- Of a filler only blanks are left. -/
theorem Filler.exists_dropComments (f : Filler) : ∃ gap : Gap, ∀ t,
    dropComments false (f.text ['#'] ++ t) = gap.chars ++ dropComments false t := by
  obtain ⟨gap, remarks⟩ := f
  induction remarks generalizing gap with
  | nil =>
      refine ⟨gap, fun t => ?_⟩
      rw [Filler.text_of_bare rfl, dropComments_gap]
  | cons r remarks ih =>
      obtain ⟨later, dropped⟩ := ih r.2
      have behind : ∀ c ∈ '\n' :: later.chars, isBlank c = true :=
        List.forall_mem_cons.mpr ⟨by decide, later.blank⟩
      refine ⟨⟨gap.chars ++ '\n' :: later.chars, fun c hc => ?_⟩, fun t => ?_⟩
      · rcases List.mem_append.mp hc with first | second
        · exact gap.blank c first
        · exact behind c second
      · have inside := dropComments_inside_append r.1.oneLine
          (Filler.text ['#'] ⟨r.2, remarks⟩ ++ t)
        rw [dropped, ← dropComments_hash] at inside
        have shape : Filler.text ['#'] ⟨gap, r :: remarks⟩ ++ t = gap.chars ++ '#' ::
            (r.1.text ++ '\n' :: (Filler.text ['#'] ⟨r.2, remarks⟩ ++ t)) := by
          simp [Filler.text_cons]
        rw [shape, dropComments_gap, inside]
        simp

theorem Filler.head?_any_isNamePart (f : Filler) {rest : List Char}
    (stop : rest.head?.any isNamePart = false) :
    (f.text ['#'] ++ rest).head?.any isNamePart = false := by
  obtain ⟨gap, remarks⟩ := f
  cases remarks with
  | nil =>
      rw [Filler.text_of_bare rfl]
      exact gap.head?_any_isNamePart stop
  | cons r remarks =>
      rw [Filler.text_cons, List.append_assoc]
      exact gap.head?_any_isNamePart rfl

theorem firstPiece_append_of_mem {sep : Char} (h : sep ∈ s) (t : List Char) :
    firstPiece sep (s ++ t) = firstPiece sep s := by
  obtain ⟨before, after, rfl, plain⟩ := List.eq_append_cons_of_mem h
  rw [List.append_assoc, firstPiece_append plain, firstPiece_append plain]
  simp [firstPiece]

/-- Of a filler that is read up to a parenthesis only blanks are left too. -/
theorem Filler.isBlank_of_cut (f : Filler) :
    ∀ c ∈ dropComments false (firstPiece ')' (f.text ['#'])), isBlank c = true := by
  obtain ⟨gap, remarks⟩ := f
  have noClose (gap : Gap) : ')' ∉ gap.chars := not_mem_of_blank gap.blank (by decide)
  induction remarks generalizing gap with
  | nil =>
      have whole := firstPiece_append (noClose gap) []
      rw [List.append_nil] at whole
      have dropped := dropComments_gap gap []
      rw [List.append_nil] at dropped
      rw [Filler.text_of_bare rfl, whole]
      simpa [firstPiece, dropComments, dropped] using gap.blank
  | cons r remarks ih =>
      have shape : Filler.text ['#'] ⟨gap, r :: remarks⟩ = gap.chars ++ (['#'] ++
          (r.1.text ++ (['\n'] ++ Filler.text ['#'] ⟨r.2, remarks⟩))) := by
        simp [Filler.text_cons]
      rw [shape, firstPiece_append (noClose gap), firstPiece_append (by decide), dropComments_gap]
      by_cases closes : ')' ∈ r.1.text
      · have cut : '\n' ∉ firstPiece ')' r.1.text := fun inside =>
          r.1.oneLine ((List.takeWhile_prefix _).subset inside)
        rw [firstPiece_append_of_mem closes, List.singleton_append, dropComments_hash,
          dropComments_inside cut, List.append_nil]
        exact gap.blank
      · rw [firstPiece_append closes, firstPiece_append (by decide), List.singleton_append,
          List.singleton_append, dropComments_hash, dropComments_inside_append r.1.oneLine]
        intro c hc
        rcases List.mem_append.mp hc with first | second
        · exact gap.blank c first
        · rcases List.mem_cons.mp second with rfl | later
          · decide
          · exact ih r.2 c later

end Dropping

section Reading

variable {s t p : List Char}

/-- A list gives the name of its first item and the names of the list behind the comma. -/
theorem splitNameChars_append_cons {side : AliasSide}
    (h : dropComments false (s ++ ',' :: t) = p ++ ',' :: dropComments false t) (plain : ',' ∉ p) :
    splitNameChars side (s ++ ',' :: t) = (itemName? side p).toList ++ splitNameChars side t := by
  rw [splitNameChars, h, splitOn_append_cons, splitOn_plain plain, List.singleton_append,
    filterMap_cons_toList, splitNameChars]

theorem splitNameChars_single {side : AliasSide} (h : dropComments false s = p) (plain : ',' ∉ p) :
    splitNameChars side s = (itemName? side p).toList := by
  rw [splitNameChars, h, splitOn_plain plain, filterMap_cons_toList, List.filterMap_nil,
    List.append_nil]

theorem NamedItem.plain (i : NamedItem) : ∀ c ∈ i.text, c ≠ '#' ∧ c ≠ '/' ∧ c ≠ ',' := by
  refine fun c hc => ⟨?_, ?_, ?_⟩ <;> rintro rfl <;>
    exact i.not_mem_text (by decide) (by decide) hc

variable {rest : List Char} (e : ListedItem)

namespace ListedItem

/-- An item stays without its comments, whatever stands behind it. -/
theorem exists_dropComments : ∃ lead : Gap, ∀ t,
    dropComments false (e.lead.text ['#'] ++ (e.item.text ++ t)) =
      lead.chars ++ e.item.text ++ dropComments false t := by
  obtain ⟨lead, dropped⟩ := e.lead.exists_dropComments
  refine ⟨lead, fun t => ?_⟩
  rw [dropped, dropComments_append fun c hc => ⟨(e.item.plain c hc).1, (e.item.plain c hc).2.1⟩,
    List.append_assoc]

theorem itemName?_between (lead : Gap) {back : List Char} (blank : ∀ c ∈ back, isBlank c = true) :
    itemName? .sourceName (lead.chars ++ e.item.text ++ back) = some e.item.name.text ∧
      ',' ∉ lead.chars ++ e.item.text ++ back := by
  have noComma {gap : List Char} (blank : ∀ c ∈ gap, isBlank c = true) : ',' ∉ gap :=
    not_mem_of_blank blank (by decide)
  refine ⟨e.item.itemName?_text lead.blank blank, ?_⟩
  simp only [List.mem_append, not_or]
  exact ⟨⟨noComma lead.blank, fun inside => (e.item.plain ',' inside).2.2 rfl⟩, noComma blank⟩

/-- An item in front of a comma. -/
theorem splitNameChars_cons (t : List Char) :
    splitNameChars .sourceName (e.text ['#'] ++ ',' :: t) =
      e.item.name.text :: splitNameChars .sourceName t := by
  obtain ⟨lead, front⟩ := e.exists_dropComments
  obtain ⟨tail, back⟩ := e.tail.exists_dropComments
  obtain ⟨name, plain⟩ := e.itemName?_between lead tail.blank
  have shape : e.text ['#'] ++ ',' :: t = e.lead.text ['#'] ++
      (e.item.text ++ (e.tail.text ['#'] ++ ',' :: t)) := by simp [text]
  have comma : dropComments false (',' :: t) = ',' :: dropComments false t := by
    simp [dropComments]
  have dropped : dropComments false (e.text ['#'] ++ ',' :: t) =
      lead.chars ++ e.item.text ++ tail.chars ++ ',' :: dropComments false t := by
    rw [shape, front, back, comma]
    simp
  rw [splitNameChars_append_cons dropped plain, name]
  rfl

/-- The last item, with whatever blanks are left behind it. -/
theorem splitNameChars_last {t : List Char} (blank : ∀ c ∈ dropComments false t, isBlank c = true) :
    splitNameChars .sourceName (e.lead.text ['#'] ++ (e.item.text ++ t)) =
      [e.item.name.text] := by
  obtain ⟨lead, front⟩ := e.exists_dropComments
  obtain ⟨name, plain⟩ := e.itemName?_between lead blank
  rw [splitNameChars_single (front t) plain, name]
  rfl

end ListedItem

theorem splitNameChars_of_blank {side : AliasSide}
    (blank : ∀ c ∈ dropComments false s, isBlank c = true) : splitNameChars side s = [] := by
  rw [splitNameChars_single rfl (not_mem_of_blank blank (by decide)), itemName?_of_blank blank]
  rfl

/-- The fillers in front of the last item. -/
def NameList.inner (l : NameList) : List Filler :=
  l.entries.map (·.lead) ++ l.entries.dropLast.map (·.tail)

theorem NameList.forall_inner_cons {P : Filler → Prop} {e next : ListedItem}
    {entries : List ListedItem} {trailing : Option Filler} (h : e :: next :: entries ≠ []) :
    (∀ f ∈ (⟨e :: next :: entries, h, trailing⟩ : NameList).inner, P f) ↔
      P e.lead ∧ P e.tail ∧
        ∀ f ∈ (⟨next :: entries, List.cons_ne_nil _ _, trailing⟩ : NameList).inner, P f := by
  simp only [inner, List.dropLast_cons_cons, List.map_cons, List.forall_mem_append,
    List.forall_mem_cons]
  exact ⟨fun ⟨⟨a, b, c⟩, d, e⟩ => ⟨a, d, ⟨b, c⟩, e⟩, fun ⟨a, d, ⟨b, c⟩, e⟩ => ⟨⟨a, b, c⟩, d, e⟩⟩

/-- A comment of the filler holds a closing parenthesis. -/
def Closes (f : Filler) : Prop := ∃ r ∈ f.remarks, ')' ∈ r.1.text

instance : DecidablePred Closes := fun f =>
  inferInstanceAs (Decidable (∃ r ∈ f.remarks, ')' ∈ r.1.text))

theorem Filler.mem_text_iff (f : Filler) : ')' ∈ f.text ['#'] ↔ Closes f := by
  constructor
  · intro inside
    by_contra closed
    refine Filler.not_mem_text (by decide) (by decide) (fun r hr close => ?_) inside
    exact closed ⟨r, hr, close⟩
  · rintro ⟨r, hr, inside⟩
    refine List.mem_append_right _ (List.mem_flatMap.mpr ⟨r, hr, ?_⟩)
    exact List.mem_append_right _ (List.mem_append_left _ inside)

theorem ListedItem.not_mem_text_of_open (lead : ¬ Closes e.lead) (tail : ¬ Closes e.tail) :
    ')' ∉ e.text ['#'] :=
  e.not_mem_text (by decide) (by decide) (mt e.lead.mem_text_iff.mp lead)
    (mt e.tail.mem_text_iff.mp tail)

theorem firstPiece_append_cons {sep : Char} (s t : List Char) :
    firstPiece sep (s ++ sep :: t) = firstPiece sep s := by
  by_cases inside : sep ∈ s
  · exact firstPiece_append_of_mem inside _
  · have whole := firstPiece_append inside []
    rw [firstPiece_append inside]
    simpa [firstPiece] using whole.symm

namespace ListedItem

/-- A comment that closes the list in front of an item leaves nothing of it. -/
theorem read_of_lead (h : Closes e.lead) (rest : List Char) :
    splitNameChars .sourceName (firstPiece ')' (e.text ['#'] ++ rest)) = [] := by
  rw [text, List.append_assoc, firstPiece_append_of_mem (e.lead.mem_text_iff.mpr h)]
  exact splitNameChars_of_blank e.lead.isBlank_of_cut

theorem firstPiece_text (lead : ¬ Closes e.lead) (rest : List Char) :
    firstPiece ')' (e.text ['#'] ++ rest) =
      e.lead.text ['#'] ++ (e.item.text ++ firstPiece ')' (e.tail.text ['#'] ++ rest)) := by
  have noClose : ')' ∉ e.item.text := e.item.not_mem_text (by decide) (by decide)
  rw [text, List.append_assoc, List.append_assoc,
    firstPiece_append (mt e.lead.mem_text_iff.mp lead), firstPiece_append noClose]

/-- Behind an item a closing comment ends the list, whatever stands behind it. -/
theorem read_of_tail (lead : ¬ Closes e.lead) (tail : Closes e.tail) (rest : List Char) :
    splitNameChars .sourceName (firstPiece ')' (e.text ['#'] ++ rest)) =
      [e.item.name.text] := by
  rw [e.firstPiece_text lead, firstPiece_append_of_mem (e.tail.mem_text_iff.mpr tail)]
  exact e.splitNameChars_last e.tail.isBlank_of_cut

theorem read_last (lead : ¬ Closes e.lead) (after : List Char) :
    splitNameChars .sourceName (firstPiece ')' (e.text ['#'] ++ ')' :: after)) =
      [e.item.name.text] := by
  rw [e.firstPiece_text lead, firstPiece_append_cons]
  exact e.splitNameChars_last e.tail.isBlank_of_cut

theorem read_cons (lead : ¬ Closes e.lead) (tail : ¬ Closes e.tail) (rest : List Char) :
    splitNameChars .sourceName (firstPiece ')' (e.text ['#'] ++ ',' :: rest)) =
      e.item.name.text :: splitNameChars .sourceName (firstPiece ')' rest) := by
  have noClose : ')' ∉ e.text ['#'] ++ [','] := by
    simp [e.not_mem_text_of_open lead tail]
  have whole := firstPiece_append noClose rest
  rw [List.append_assoc, List.append_assoc, List.singleton_append, List.singleton_append] at whole
  rw [whole, e.splitNameChars_cons]

end ListedItem

theorem ListedItem.read_trailing (lead : ¬ Closes e.lead) (f : Filler) (after : List Char) :
    splitNameChars .sourceName (firstPiece ')' (e.text ['#'] ++ ',' :: (f.text ['#'] ++
      ')' :: after))) = [e.item.name.text] := by
  by_cases tail : Closes e.tail
  · exact e.read_of_tail lead tail _
  · rw [e.read_cons lead tail, firstPiece_append_cons, splitNameChars_of_blank f.isBlank_of_cut]

/-- A list that is read up to the first parenthesis gives all of its names exactly where no comment
in front of the last item holds one. -/
theorem NameList.read_iff (l : NameList) (after : List Char) :
    splitNameChars .sourceName (firstPiece ')' (l.text ['#'] ++ ')' :: after)) =
      l.entries.map (·.item.name.text) ↔ ∀ f ∈ l.inner, ¬ Closes f := by
  obtain ⟨entries, nonempty, trailing⟩ := l
  induction entries with
  | nil => exact absurd rfl nonempty
  | cons e entries ih =>
      by_cases lead : Closes e.lead
      · have starts : ∃ rest, (⟨e :: entries, nonempty, trailing⟩ : NameList).text ['#'] =
            e.text ['#'] ++ rest := joinChars_cons _ _ _
        obtain ⟨rest, starts⟩ := starts
        rw [starts, List.append_assoc, e.read_of_lead lead]
        simp [inner, lead]
      · cases entries with
        | nil =>
            have read : splitNameChars .sourceName (firstPiece ')'
                ((⟨[e], nonempty, trailing⟩ : NameList).text ['#'] ++ ')' :: after)) =
                  [e.item.name.text] := by
              cases trailing with
              | none => rw [text_single, e.read_last lead]
              | some f =>
                  rw [text_trailing, List.append_assoc, List.cons_append, e.read_trailing lead]
            simp [read, inner, lead]
        | cons next entries =>
            rw [text_cons_cons, List.append_assoc, List.cons_append, forall_inner_cons]
            by_cases tail : Closes e.tail
            · rw [e.read_of_tail lead tail]
              simp [tail]
            · have later := ih (List.cons_ne_nil next entries)
              rw [e.read_cons lead tail, List.map_cons, List.cons.injEq, later]
              simp [lead, tail]

/-- A list without comments gives the names of its items. -/
theorem NameList.read_bare (l : NameList) (bare : ∀ f ∈ l.fillers, f.remarks = []) :
    splitNameChars .sourceName (l.text ['#']) = l.entries.map (·.item.name.text) := by
  have noRemark : ∀ f ∈ l.fillers, ∀ r ∈ f.remarks, ')' ∉ r.1.text := fun f hf r hr =>
    absurd (bare f hf ▸ hr) List.not_mem_nil
  have noClose : ')' ∉ l.text ['#'] := fun inside => by
    rcases mem_joinChars inside with separator | ⟨p, hp, inside⟩
    · exact absurd separator (by decide)
    · exact l.not_mem_pieces (by decide) (by decide) (by decide) noRemark p hp inside
  have unclosed : ∀ f ∈ l.inner, ¬ Closes f := by
    intro f hf
    have known : f ∈ l.fillers := by
      rcases List.mem_append.mp hf with hf | hf
      · obtain ⟨e, member, rfl⟩ := List.mem_map.mp hf
        exact (mem_fillers_of_entry member).1
      · obtain ⟨e, member, rfl⟩ := List.mem_map.mp hf
        exact (mem_fillers_of_entry (List.dropLast_subset _ member)).2
    rintro ⟨r, hr, inside⟩
    exact noRemark f known r hr inside
  have read := (l.read_iff []).mpr unclosed
  rwa [firstPiece_append noClose, firstPiece, List.takeWhile_cons_of_neg (by decide),
    List.append_nil] at read

end Reading

section Trimming

variable {side : AliasSide} {s front back : List Char}

theorem itemName?_congr {t : List Char} (h : trimChars s = trimChars t) :
    itemName? side s = itemName? side t := by
  simp only [itemName?, h]

theorem filterMap_append_left (blank : ∀ c ∈ front, isBlank c = true) (s : List Char) :
    (splitOn ',' (front ++ s)).filterMap (itemName? side) =
      (splitOn ',' s).filterMap (itemName? side) := by
  have same : itemName? side (front ++ firstPiece ',' s) = itemName? side (firstPiece ',' s) := by
    have trimmed := trimChars_between blank (List.forall_mem_nil _) (firstPiece ',' s)
    rw [List.append_nil] at trimmed
    exact itemName?_congr trimmed
  rw [splitOn_append_of_not_mem (not_mem_of_blank blank (by decide)), splitOn_eq_cons ',' s,
    List.filterMap_cons, List.filterMap_cons, same, List.tail_cons]

theorem filterMap_append_right (blank : ∀ c ∈ back, isBlank c = true) (s : List Char) :
    (splitOn ',' (s ++ back)).filterMap (itemName? side) =
      (splitOn ',' s).filterMap (itemName? side) := by
  obtain ⟨earlier, last, cut⟩ := exists_last_piece (· == ',') s
  have one : splitAt (· == ',') back = [back] :=
    splitAt_plain fun c hc => comma_of_isBlank (blank c hc)
  have same : itemName? side (last ++ back) = itemName? side last :=
    itemName?_congr (trimChars_between (List.forall_mem_nil _) blank last)
  rw [splitOn, splitOn, splitAt_append cut one, cut, List.filterMap_append, List.filterMap_append,
    List.filterMap_cons, List.filterMap_cons, same]

/-- Blanks around a list without comments do not count. -/
theorem splitNameChars_trimChars (plain : ∀ c ∈ s, c ≠ '#' ∧ c ≠ '/') :
    splitNameChars side (trimChars s) = splitNameChars side s := by
  obtain ⟨front, blank, left⟩ := exists_trimLeft s
  obtain ⟨back, blank', right⟩ := exists_trimRightOf isBlank (trimLeft s)
  have whole : s = front ++ (trimChars s ++ back) := by
    rw [trimChars, ← right]
    exact left
  have inside : ∀ c ∈ trimChars s, c ≠ '#' ∧ c ≠ '/' := fun c hc => plain c (by
    rw [whole]
    exact List.mem_append_right _ (List.mem_append_left _ hc))
  rw [splitNameChars_plain inside, splitNameChars_plain plain]
  conv_rhs => rw [whole]
  rw [filterMap_append_left blank, filterMap_append_right blank']

end Trimming

end ComponentAtlas
