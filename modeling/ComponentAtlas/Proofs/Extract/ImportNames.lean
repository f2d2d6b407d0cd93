import ComponentAtlas.Proofs.Extract.ImportForms

/-!
What stands behind the names of an import statement. It is neither braces, nor a star, nor a name
with a source, so a name that ends as `import` or `export` does not start a statement of its own.
-/

namespace ComponentAtlas.TypeScript

open Text Recognizer

section Ahead

/-- The text with the property, possibly behind the mark of an import of types. -/
def AfterType (P : List Char → Prop) (s : List Char) : Prop :=
  P s ∨ Behind "type".toList (AfterBreak P) s

/-- A comma, and `x` behind it. -/
def StartsComma (x : Char) : List Char → Prop :=
  AfterGap (Behind [','] (AfterGap (·.head? = some x)))

/-- The character `x`, possibly behind a default name. -/
def StartsPart (x : Char) (s : List Char) : Prop :=
  s.head? = some x ∨ AfterWord (StartsComma x) s

def StartsQuote (s : List Char) : Prop := s.head?.any isQuote = true

def StartsFrom : List Char → Prop := Behind "from".toList (AfterGap StartsQuote)

/-- A word, and a source behind it. -/
def StartsDefault : List Char → Prop := AfterWord (AfterBreak StartsFrom)

variable {P : List Char → Prop} {x y : Char} {run rest : List Char}

theorem startsComma_stops (more : List Char) (h : StartsComma x more) :
    more.head?.any isWord = false := by
  obtain ⟨gap, _, rfl, ⟨_, rfl, _⟩⟩ := h
  exact gap.head?_any rfl

theorem not_startsComma (gap : Gap) (first : rest.head? = some y) (solid : isBlank y = false)
    (other : y ≠ ',') : ¬ StartsComma x (gap.chars ++ rest) :=
  not_afterGap_behind rfl (by decide) gap.blank first solid other

theorem StartsQuote.apart {p : Char → Bool} (h : StartsQuote rest)
    (apart : ∀ q, isQuote q = true → p q = false) : rest.head?.any p = false := by
  cases rest with
  | nil => rfl
  | cons q rest => exact apart q h

theorem not_mem_of_isQuote {s : List Char} {q : Char} (plain : ∀ c ∈ s, isQuote c = false)
    (quote : isQuote q = true) : q ∉ s :=
  fun inside => Bool.noConfusion ((plain q inside).symm.trans quote)

theorem afterGap_startsQuote (more : List Char) (h : AfterGap StartsQuote more) :
    more.head?.any isNamePart = false := by
  obtain ⟨gap, more, rfl, quote⟩ := h
  exact gap.head?_any_isNamePart (quote.apart fun _ h => (isMark_of_isQuote h).part)

theorem startsFrom_heads (more : List Char) (h : StartsFrom more) :
    more.head?.any isBlank = false := Behind.head?_any h rfl (by decide)

theorem not_startsFrom (gap : Gap) (first : rest.head? = some y) (solid : isBlank y = false)
    (other : y ≠ 'f') : ¬ AfterBreak StartsFrom (gap.chars ++ rest) := fun h =>
  not_afterGap_behind rfl (by decide) gap.blank first solid other h.toGap

theorem startsPart_mark (mark : IsMark y) (h : StartsPart x (y :: rest)) : y = x := by
  rcases h with here | word
  · exact Option.some.inj here
  · exact Bool.noConfusion (mark.apart.symm.trans word.head?_any)

theorem startsPart_word (mark : IsMark x) (nonempty : run ≠ []) (word : ∀ c ∈ run, isWord c = true)
    (ends : rest.head?.any isWord = false) (h : StartsPart x (run ++ rest)) :
    StartsComma x rest := by
  rcases h with here | behind
  · obtain ⟨c, run, rfl⟩ := List.exists_cons_of_ne_nil nonempty
    cases here
    exact Bool.noConfusion (mark.apart.symm.trans (word x List.mem_cons_self))
  · exact behind.behind startsComma_stops word ends

theorem startsPart_heads (mark : IsMark x) (more : List Char) (h : StartsPart x more) :
    more.head?.any isBlank = false := by
  rcases h with here | word
  · rw [here]
    exact mark.solid
  · exact word.solid

theorem startsDefault_word (word : ∀ c ∈ run, isWord c = true)
    (ends : rest.head?.any isWord = false) (h : StartsDefault (run ++ rest)) :
    AfterBreak StartsFrom rest :=
  h.behind (fun _ => AfterBreak.stops) word ends

theorem startsDefault_heads (more : List Char) (h : StartsDefault more) :
    more.head?.any isBlank = false := AfterWord.solid h

end Ahead

section Statements

variable {P : List Char → Prop} {x y : Char} {rest : List Char}

/-- Behind blanks no comma stands in front of a name. -/
theorem not_startsComma_name (gap : Gap) (n : Name) (rest : List Char) :
    ¬ StartsComma x (gap.chars ++ (n.chars ++ rest)) := by
  have solid := n.head?_any rest
  obtain ⟨c, first, part⟩ := n.exists_head? rest
  rw [first] at solid
  refine not_startsComma gap first solid ?_
  rintro rfl
  exact absurd part (by decide)

theorem not_startsComma_lead (gap : Gap) (lead? : Option LeadingName) (mark : IsMark y)
    (other : y ≠ ',') : ¬ StartsComma x (gap.chars ++ (leadText lead? ++ y :: rest)) := by
  cases lead? with
  | none => exact not_startsComma gap rfl mark.solid other
  | some l =>
      rw [leadText_append]
      exact not_startsComma_name gap l.name.toName _

theorem startsPart_lead (lead? : Option LeadingName) (mark : IsMark x) (mark' : IsMark y)
    (h : StartsPart x (leadText lead? ++ y :: rest)) : y = x := by
  cases lead? with
  | none => exact startsPart_mark mark' h
  | some l =>
      rw [leadText_append] at h
      have comma := startsPart_word mark l.name.nonempty l.name.word (l.front.head?_any rfl) h
      obtain ⟨_, split, follows⟩ := AfterGap.behind comma
        (fun _ h => h.head?_any rfl (by decide)) l.front.blank rfl
      cases (List.cons.inj split).2
      have last := follows.behind (fun more first => by rw [first]; exact mark.solid) l.back.blank
        mark'.solid
      exact Option.some.inj last

theorem not_startsDefault_lead (lead? : Option LeadingName) (mark : IsMark y) :
    ¬ StartsDefault (leadText lead? ++ y :: rest) := by
  intro h
  cases lead? with
  | none => exact Bool.noConfusion (mark.apart.symm.trans h.head?_any)
  | some l =>
      rw [leadText_append] at h
      exact not_startsFrom l.front rfl (by decide) (by decide)
        (startsDefault_word l.name.word (l.front.head?_any rfl) h)

theorem not_startsFrom_lead (lead? : Option LeadingName) (mark : IsMark y) :
    ¬ StartsFrom (leadText lead? ++ y :: rest) := by
  intro h
  cases lead? with
  | none =>
      obtain ⟨_, split, _⟩ := h
      obtain ⟨rfl, _⟩ := List.cons.inj split
      exact absurd mark.apart (by decide)
  | some l =>
      rw [leadText_append] at h
      have same : l.name.chars = "from".toList := (h.of_run (List.all_eq_true.mp (by decide))
        l.name.toName.parts (l.front.head?_any_isNamePart rfl) afterGap_startsQuote).1
      exact l.name.free (by rw [same]; decide)

/-- What stands behind `import`, or behind the mark of types. -/
theorem afterType_typeText (typed? : Option Break) (solid : rest.head?.any isBlank = false)
    (other : ¬ Behind "type".toList (AfterBreak P) rest)
    (heads : ∀ more, P more → more.head?.any isBlank = false)
    (h : AfterType P (typeText typed? ++ rest)) :
    P rest ∨ ∃ space : Break, P ("type".toList ++ (space.chars ++ rest)) := by
  cases typed? with
  | none => exact .inl (h.resolve_right other)
  | some space =>
      rw [typeText, List.append_assoc] at h
      rcases h with whole | ⟨more, split, marked⟩
      · exact .inr ⟨space, whole⟩
      · cases List.append_cancel_left split
        exact .inl (marked.toGap.behind heads space.blank solid)

/-- A statement with a mark behind its default name goes on with that mark only. -/
theorem part_of_lead (typed? : Option Break) (lead? : Option LeadingName) (mark : IsMark x)
    (mark' : IsMark y) (other : y ≠ ',')
    (h : AfterType (StartsPart x) (typeText typed? ++ (leadText lead? ++ y :: rest))) : y = x := by
  have solid : (y :: rest).head?.any isBlank = false := mark'.solid
  rcases afterType_typeText typed? (leadText_starts lead? solid)
    (not_behind_type_lead lead? mark' _) (startsPart_heads mark) h with here | ⟨space, whole⟩
  · exact startsPart_lead lead? mark mark' here
  · have comma :=
      startsPart_word mark (by decide) (List.all_eq_true.mp (by decide)) (space.head?_any _) whole
    exact absurd comma (not_startsComma_lead space.toGap lead? mark' other)

theorem not_part_of_plain (typed? : Option Break) (name : ImportName) (space : Break)
    (mark : IsMark x) (i : ImportLine) : ¬ AfterType (StartsPart x) (typeText typed? ++
      (name.chars ++ (space.chars ++ i.sourceOnto rest))) := by
  intro h
  rcases afterType_typeText typed? (name.toName.head?_any _)
    (name.not_behind_type _ (space.head?_any _)) (startsPart_heads mark) h with here | ⟨gap, whole⟩
  · have comma := startsPart_word mark name.nonempty name.word (space.head?_any _) here
    exact not_startsComma space.toGap rfl (by decide) (by decide) comma
  · have comma :=
      startsPart_word mark (by decide) (List.all_eq_true.mp (by decide)) (gap.head?_any _) whole
    exact not_startsComma_name gap.toGap name.toName _ comma

theorem not_default_of_lead (typed? : Option Break) (lead? : Option LeadingName) (mark : IsMark y) :
    ¬ AfterType StartsDefault (typeText typed? ++ (leadText lead? ++ y :: rest)) := by
  intro h
  have solid : (y :: rest).head?.any isBlank = false := mark.solid
  rcases afterType_typeText typed? (leadText_starts lead? solid)
    (not_behind_type_lead lead? mark _) startsDefault_heads h with here | ⟨space, whole⟩
  · exact not_startsDefault_lead lead? mark here
  · have source := startsDefault_word (List.all_eq_true.mp (by decide)) (space.head?_any _) whole
    exact not_startsFrom_lead lead? mark
      (source.toGap.behind startsFrom_heads space.blank (leadText_starts lead? solid))

/-- What stands behind the default name of a form. -/
def ImportForm.mark? : ImportForm → Option Char
  | plain _ _ _ => none
  | braces _ _ _ _ => some '{'
  | star _ _ _ _ _ => some '*'

namespace ImportForm

variable (f : ImportForm)

/-- A form starts with a name, a mark or the word `type`. -/
theorem text_starts (rest : List Char) : (f.text ++ rest).head?.any isBlank = false := by
  cases f with
  | plain typed? name space =>
      rw [text, List.append_assoc]
      refine typeText_starts typed? ?_
      rw [List.append_assoc]
      exact name.toName.head?_any _
  | braces typed? lead? list gap =>
      rw [text, List.append_assoc]
      refine typeText_starts typed? ?_
      rw [List.append_assoc]
      exact leadText_starts lead? rfl
  | star lead? gap space name last =>
      rw [text, List.append_assoc]
      exact leadText_starts lead? rfl

theorem mark?_of_part (i : ImportLine) (rest : List Char) (mark : IsMark x)
    (h : AfterType (StartsPart x) (f.text ++ i.sourceOnto rest)) : f.mark? = some x := by
  cases f with
  | plain typed? name space =>
      rw [text, List.append_assoc, List.append_assoc] at h
      exact absurd h (not_part_of_plain typed? name space mark i)
  | braces typed? lead? list gap =>
      rw [text, List.append_assoc, List.append_assoc] at h
      exact congrArg some (part_of_lead typed? lead? mark ⟨by decide, by decide⟩ (by decide) h)
  | star lead? gap space name last =>
      rw [text, List.append_assoc] at h
      exact congrArg some (part_of_lead none lead? mark ⟨by decide, by decide⟩ (by decide) h)

theorem mark?_of_default (i : ImportLine) (rest : List Char)
    (h : AfterType StartsDefault (f.text ++ i.sourceOnto rest)) : f.mark? = none := by
  cases f with
  | plain typed? name space => rfl
  | braces typed? lead? list gap =>
      rw [text, List.append_assoc, List.append_assoc] at h
      exact absurd h (not_default_of_lead typed? lead? ⟨by decide, by decide⟩)
  | star lead? gap space name last =>
      rw [text, List.append_assoc] at h
      exact absurd h (not_default_of_lead none lead? ⟨by decide, by decide⟩)

end ImportForm

end Statements

section Quiet

variable {Q : List Char → Prop} {x : Char}

/-- Nothing that stands behind a name of a statement is what `Q` asks for. -/
structure Quiet (Q : List Char → Prop) : Prop extends EndsNames Q where
  source : ∀ (gap : Break) (gap' : Gap) (q : Char) (rest : List Char), isQuote q = true →
    ¬ Q (gap.chars ++ ("from".toList ++ (gap'.chars ++ q :: rest)))

theorem isMark_of_ends (ends : x = ',' ∨ x = '}') : IsMark x := by
  rcases ends with rfl | rfl <;> exact ⟨by decide, by decide⟩

theorem head?_afterBreak {P : List Char → Prop} (more : List Char) (h : AfterBreak P more) :
    more.head?.any isNamePart = false := by
  obtain ⟨gap, more, rfl, _⟩ := h
  exact gap.head?_any_isNamePart more

theorem afterType_heads {P : List Char → Prop}
    (heads : ∀ more, P more → more.head?.any isBlank = false) (more : List Char)
    (h : AfterType P more) : more.head?.any isBlank = false := by
  rcases h with here | ⟨more, rfl, _⟩
  · exact heads more here
  · rfl

/-- A mark that ends no item does not stand behind a name. -/
theorem quiet_startsPart (mark : IsMark x) (other : x ≠ ',') (other' : x ≠ '}') :
    Quiet (AfterBreak (AfterType (StartsPart x))) where
  part := head?_afterBreak
  item gap y rest ends h := by
    have marked := isMark_of_ends ends
    have starts := h.toGap.behind (afterType_heads (startsPart_heads mark)) gap.blank marked.solid
    have same := startsPart_mark marked (starts.resolve_right (not_behind_type_lead none marked _))
    rcases ends with rfl | rfl
    · exact other same.symm
    · exact other' same.symm
  other front back name gap y rest ends h := by
    have starts := h.toGap.behind (afterType_heads (startsPart_heads mark)) front.blank rfl
    have comma := startsPart_word mark (by decide) (List.all_eq_true.mp (by decide))
      (back.head?_any _) (starts.resolve_right (not_behind_type_other (by decide) _))
    exact not_startsComma_name back.toGap name _ comma
  source gap gap' q rest quote h := by
    have marked := isMark_of_isQuote quote
    have starts := h.toGap.behind (afterType_heads (startsPart_heads mark)) gap.blank rfl
    have stop : (q :: rest).head?.any isWord = false := marked.apart
    have comma := startsPart_word mark (by decide) (List.all_eq_true.mp (by decide))
      (gap'.head?_any stop) (starts.resolve_right (not_behind_type_other (by decide) _))
    refine not_startsComma gap' rfl marked.solid ?_ comma
    rintro rfl
    exact absurd quote (by decide)

/-- No name and source stand behind a name. -/
theorem quiet_startsDefault : Quiet (AfterBreak (AfterType StartsDefault)) where
  part := head?_afterBreak
  item gap y rest ends h := by
    have marked := isMark_of_ends ends
    have starts := h.toGap.behind (afterType_heads startsDefault_heads) gap.blank marked.solid
    have word := starts.resolve_right (not_behind_type_lead none marked _)
    exact Bool.noConfusion (marked.apart.symm.trans word.head?_any)
  other front back name gap y rest ends h := by
    have starts := h.toGap.behind (afterType_heads startsDefault_heads) front.blank rfl
    have source := startsDefault_word (List.all_eq_true.mp (by decide)) (back.head?_any _)
      (starts.resolve_right (not_behind_type_other (by decide) _))
    have quoted := source.toGap.behind startsFrom_heads back.blank (name.head?_any _)
    have marked := isMark_of_ends ends
    have ends' : (y :: rest).head?.any isNamePart = false := marked.part
    obtain ⟨_, last⟩ := quoted.of_run (List.all_eq_true.mp (by decide)) name.parts
      (gap.head?_any_isNamePart ends') afterGap_startsQuote
    have quote : isQuote y = true := last.behind
      (fun _ quote => quote.apart fun _ h => (isMark_of_isQuote h).solid) gap.blank marked.solid
    rcases ends with rfl | rfl <;> exact absurd quote (by decide)
  source gap gap' q rest quote h := by
    have marked := isMark_of_isQuote quote
    have starts := h.toGap.behind (afterType_heads startsDefault_heads) gap.blank rfl
    have stop : (q :: rest).head?.any isWord = false := marked.apart
    have source := startsDefault_word (List.all_eq_true.mp (by decide)) (gap'.head?_any stop)
      (starts.resolve_right (not_behind_type_other (by decide) _))
    refine not_startsFrom gap' rfl marked.solid ?_ source
    rintro rfl
    exact absurd quote (by decide)

/-- No star stands behind a name. -/
theorem quiet_star (P : List Char → Prop) : Quiet (AfterGap (Behind ['*'] P)) where
  part := by
    rintro _ ⟨gap, _, rfl, ⟨_, rfl, _⟩⟩
    exact gap.head?_any_isNamePart rfl
  item gap y rest ends := not_afterGap_behind rfl (by decide) gap.blank rfl
    (isMark_of_ends ends).solid (by rcases ends with rfl | rfl <;> decide)
  other front back name gap y rest _ :=
    not_afterGap_behind rfl (by decide) front.blank rfl (by decide) (by decide)
  source gap gap' q rest _ :=
    not_afterGap_behind rfl (by decide) gap.blank rfl (by decide) (by decide)

end Quiet

section Absence

variable {keyword rest : List Char} {Q : List Char → Prop}

/-- A word that an import or a re-export starts with. -/
def IsOpening (keyword : List Char) : Prop :=
  keyword = "import".toList ∨ keyword = "export".toList

namespace IsOpening

theorem letters (h : IsOpening keyword) : ∀ c ∈ keyword, isNamePart c = true := by
  rcases h with rfl | rfl <;> exact List.all_eq_true.mp (by decide)

theorem long (h : IsOpening keyword) : keyword.length = 6 := by
  rcases h with rfl | rfl <;> rfl

theorem unquoted (h : IsOpening keyword) : ∀ c ∈ keyword, isQuote c = false := by
  rcases h with rfl | rfl <;> exact forall_not_of_all (by decide)

theorem exists_first (h : IsOpening keyword) :
    ∃ k, keyword.head? = some k ∧ isNamePart k = true ∧ k ∉ "as".toList := by
  rcases h with rfl | rfl
  · exact ⟨'i', rfl, by decide, by decide⟩
  · exact ⟨'e', rfl, by decide, by decide⟩

variable (h : IsOpening keyword)

include h in
theorem absent_gap (gap : Gap) (rest : List Char) : Absent (Behind keyword Q) gap.chars rest := by
  obtain ⟨k, first, part, _⟩ := h.exists_first
  exact ComponentAtlas.absent_gap first part gap rest

include h in
theorem absent_mark {x : Char} (part : isNamePart x = false) (rest : List Char) :
    Absent (Behind keyword Q) [x] rest := by
  obtain ⟨k, first, letter, _⟩ := h.exists_first
  refine absent_other first fun inside => ?_
  rw [List.mem_singleton.mp inside] at letter
  exact Bool.noConfusion (part.symm.trans letter)

include h in
/-- The words that part the names of a statement are too short. -/
theorem absent_between (quiet : Quiet Q) {word : List Char}
    (parts : ∀ c ∈ word, isNamePart c = true) (short : word.length < 6)
    (ends : rest.head?.any isNamePart = false) :
    Absent (Behind keyword Q) word rest :=
  absent_short h.letters parts ends quiet.part (h.long ▸ short)

include h in
theorem absent_name (quiet : Quiet Q) (name : ImportName) (ends : rest.head?.any isNamePart = false)
    (refused : ¬ Q rest) : Absent (Behind keyword Q) name.chars rest :=
  ComponentAtlas.absent_name h.letters quiet.part name.toName ends refused

include h in
theorem absent_item (quiet : Quiet Q) (i : ImportItem) (gap : Gap) {x : Char}
    (ends : x = ',' ∨ x = '}') (rest : List Char) :
    Absent (Behind keyword Q) i.text (gap.chars ++ x :: rest) := by
  obtain ⟨k, first, _, other⟩ := h.exists_first
  cases i with
  | named name alias? =>
      exact ComponentAtlas.absent_item h.letters first other quiet.toEndsNames _ gap ends rest
  | marked gap' name =>
      have stop : (gap.chars ++ x :: rest).head?.any isNamePart = false :=
        gap.head?_any_isNamePart (isMark_of_ends ends).part
      rw [ImportItem.text, ImportItem.markedText, absent_append, ← List.cons_append, absent_append]
      exact ⟨h.absent_between quiet (List.all_eq_true.mp (by decide)) (by decide) rfl, h.absent_gap
        ⟨' ' :: gap'.chars, List.forall_mem_cons.mpr ⟨by decide, gap'.blank⟩⟩ _,
        h.absent_name quiet name stop (quiet.item gap x rest ends)⟩

include h in
theorem absent_list (quiet : Quiet Q) (l : ImportList) (rest : List Char) :
    Absent (Behind keyword Q) l.text ('}' :: rest) := by
  obtain ⟨k, first, part, _⟩ := h.exists_first
  have notComma : k ≠ ',' := fun same => absurd part (by rw [same]; decide)
  refine absent_joinChars first notComma (fun p hp x rest ends => ?_) rest
  rcases List.mem_append.mp hp with hp | hp
  · obtain ⟨e, _, rfl⟩ := List.mem_map.mp hp
    simp only [ImportEntry.text, absent_append]
    exact ⟨⟨h.absent_gap _ _, h.absent_item quiet e.item e.tail ends rest⟩, h.absent_gap _ _⟩
  · obtain ⟨gap, _, rfl⟩ := List.mem_map.mp hp
    exact h.absent_gap gap _

include h in
theorem absent_typeText (quiet : Quiet Q) (typed? : Option Break) (rest : List Char) :
    Absent (Behind keyword Q) (typeText typed?) rest := by
  cases typed? with
  | none => trivial
  | some space =>
      rw [typeText, absent_append]
      exact ⟨h.absent_between quiet (List.all_eq_true.mp (by decide)) (by decide)
        (space.head?_any_isNamePart _), h.absent_gap space.toGap _⟩

include h in
theorem absent_leadText (quiet : Quiet Q) (lead? : Option LeadingName) (rest : List Char) :
    Absent (Behind keyword Q) (leadText lead?) rest := by
  cases lead? with
  | none => trivial
  | some l =>
      rw [leadText, ← List.singleton_append]
      simp only [absent_append, List.append_assoc]
      exact ⟨h.absent_name quiet l.name (l.front.head?_any_isNamePart rfl)
        (quiet.item l.front ',' _ (.inl rfl)), h.absent_gap _ _, h.absent_mark (by decide) _,
        h.absent_gap _ _⟩

include h in
/-- Between `import` and its source a statement holds no opening word of another one. -/
theorem absent_form (quiet : Quiet Q) (f : ImportForm) (i : ImportLine) (rest : List Char) :
    Absent (Behind keyword Q) f.text (i.sourceOnto rest) := by
  cases f with
  | plain typed? name space =>
      simp only [ImportForm.text, absent_append]
      exact ⟨h.absent_typeText quiet typed? _, h.absent_name quiet name
        (space.head?_any_isNamePart _) (quiet.source space i.gap i.quote _ i.quotes),
        h.absent_gap space.toGap _⟩
  | braces typed? lead? list gap =>
      rw [ImportForm.text, ← List.singleton_append, ← List.singleton_append (l := gap.chars)]
      simp only [absent_append]
      exact ⟨h.absent_typeText quiet typed? _, h.absent_leadText quiet lead? _,
        h.absent_mark (by decide) _, h.absent_list quiet list _, h.absent_mark (by decide) _,
        h.absent_gap gap _⟩
  | star lead? gap space name last =>
      rw [ImportForm.text, ← List.singleton_append]
      simp only [absent_append]
      have stop : (space.chars ++ (name.chars ++ last.chars) ++ i.sourceOnto rest).head?.any
          isNamePart = false := by
        rw [List.append_assoc]
        exact space.head?_any_isNamePart _
      exact ⟨h.absent_leadText quiet lead? _, h.absent_mark (by decide) _, h.absent_gap gap _,
        h.absent_between quiet (List.all_eq_true.mp (by decide)) (by decide) stop,
        h.absent_gap space.toGap _, h.absent_name quiet name (last.head?_any_isNamePart _)
        (quiet.source last i.gap i.quote _ i.quotes), h.absent_gap last.toGap _⟩

include h in
/-- Sources have no blanks. -/
theorem absent_source (P : List Char → Prop) (i : ImportLine) (rest : List Char) :
    Absent (Behind keyword (AfterBreak P)) i.source (i.quote :: rest) :=
  absent_unspaced (fun _ => AfterBreak.head?_any) (fun c hc => (i.solid c hc).2)
    (not_mem_of_isQuote h.unquoted i.quotes) (isMark_of_isQuote i.quotes).solid rest

include h in
theorem absent_ending (i : ImportLine) (rest : List Char) :
    Absent (Behind keyword Q) i.ending rest := by
  rw [ImportLine.ending, absent_append]
  refine ⟨?_, h.absent_gap _ _⟩
  split
  · exact h.absent_mark (by decide) _
  · trivial

include h in
/-- A statement with an opening word inside has it in its source, or at its start. -/
theorem absent_text (quiet : Quiet Q) (i : ImportLine) (rest : List Char)
    (start : keyword = "import".toList → ¬ Q (i.space.chars ++ (i.form.text ++
      i.sourceOnto (i.ending ++ rest))))
    (inside : Absent (Behind keyword Q) i.source (i.quote :: (i.ending ++ rest))) :
    Absent (Behind keyword Q) i.text rest := by
  have quote (rest : List Char) : Absent (Behind keyword Q) [i.quote] rest :=
    h.absent_mark (isMark_of_isQuote i.quotes).part rest
  have word : Absent (Behind keyword Q) "import".toList
      (i.space.chars ++ (i.form.text ++ i.sourceOnto (i.ending ++ rest))) := by
    rcases h with rfl | rfl
    · exact absent_run (List.all_eq_true.mp (by decide)) (List.all_eq_true.mp (by decide))
        (i.space.head?_any_isNamePart _) quiet.part (start rfl)
    · exact absent_other (k := 'e') rfl (by decide)
  have source : Absent (Behind keyword Q) (i.sourceOnto i.ending) rest := by
    have stop (more : List Char) :
        (i.gap.chars ++ i.quote :: more).head?.any isNamePart = false :=
      i.gap.head?_any_isNamePart (isMark_of_isQuote i.quotes).part
    rw [i.sourceOnto_eq, ← List.singleton_append, ← List.singleton_append (l := i.ending)]
    simp only [absent_append]
    simp only [List.append_assoc, List.singleton_append]
    exact ⟨h.absent_between quiet (List.all_eq_true.mp (by decide)) (by decide) (stop _),
      h.absent_gap _ _, quote _, inside, quote _, h.absent_ending i rest⟩
  simp only [ImportLine.text, i.bodyOnto_eq, absent_append, List.append_assoc, i.sourceOnto_append]
  exact ⟨word, h.absent_gap i.space.toGap _, h.absent_form quiet i.form i _, source⟩

end IsOpening

end Absence

end ComponentAtlas.TypeScript
