import ComponentAtlas.Extract
import ComponentAtlas.Proofs.Extract.ImportNames

/-!
A text of import statements against its imports. Each statement is found by the pattern of its form
and by no other. A source is a text like any other to the patterns: one that ends as a re-export
begins is taken for the start of one.
-/

namespace ComponentAtlas.TypeScript

open Text Recognizer
open Cursor (between)

section Patterns

variable {α : Type} {P : List Char → Prop}

instance : Forward quotedSource := by
  unfold quotedSource
  infer_instance

instance : Forward fromSource := by
  unfold fromSource
  infer_instance

theorem offers_type_bind {f : Option Unit → Recognizer α}
    (next : ∀ mark?, (f mark?).Offers fun c _ _ => P c.rest) :
    (optional typeMark >>= f).Offers fun c _ _ => AfterType P c.rest := by
  refine (typeMark_offers.optional.bind next).imp ?_
  rintro c _ _ ⟨_, d, ⟨_, _, space, split⟩ | ⟨_, rfl⟩, follows⟩
  · exact .inr ⟨space.chars ++ d.rest, split, space, d.rest, rfl, follows⟩
  · exact .inl follows

theorem offers_lead_bind {x : Char} {f : Option Span → Recognizer α}
    (next : ∀ name?, (f name?).Offers fun c _ _ => c.rest.head? = some x) :
    (optional leadingDefault >>= f).Offers fun c _ _ => StartsPart x c.rest := by
  refine (leadingDefault_offers.optional.bind next).imp ?_
  rintro c _ _ ⟨_, d, ⟨_, _, w, front, back, split⟩ | ⟨_, rfl⟩, first⟩
  · exact .inr ⟨w, _, split, front, _, rfl, back.chars ++ d.rest, rfl, back, d.rest, rfl, first⟩
  · exact .inl first

theorem offers_exactly_bind {x : Char} {f : Unit → Recognizer α} (h : ∀ u, Forward (f u)) :
    (exactly x >>= f).Offers fun c _ _ => c.rest.head? = some x := by
  refine Offers.starts (P := fun s => s.head? = some x) ((offers_exactly x).imp ?_)
  rintro c _ d ⟨split, _⟩
  rw [split]
  rfl

theorem braces_offers : braces.Offers fun c _ _ => c.rest.head? = some '{' :=
  offers_exactly_bind fun _ => inferInstance

theorem fromSource_offers : fromSource.Offers fun c _ _ => StartsFrom c.rest := by
  refine offers_literal_bind "from" (offers_blanks_bind ?_)
  refine Offers.starts (P := StartsQuote) ((offers_oneOf isQuote).imp ?_)
  rintro c q d ⟨quote, split, _⟩
  rw [StartsQuote, split]
  exact quote

theorem braceImport_offers : braceImport.Offers fun c _ _ =>
    Behind "import".toList (AfterBreak (AfterType (StartsPart '{'))) c.rest :=
  offers_literal_bind "import" <| offers_blanks1_bind <| offers_type_bind fun _ =>
    offers_lead_bind fun _ => Offers.starts (P := fun s => s.head? = some '{') braces_offers

theorem starImport_offers : starImport.Offers fun c _ _ =>
    Behind "import".toList (AfterBreak (AfterType (StartsPart '*'))) c.rest := by
  refine offers_literal_bind "import" (offers_blanks1_bind ?_)
  refine Offers.imp (offers_lead_bind fun _ => offers_exactly_bind fun _ => ?_) fun _ _ _ => .inl
  infer_instance

theorem defaultImport_offers : defaultImport.Offers fun c _ _ =>
    Behind "import".toList (AfterBreak (AfterType StartsDefault)) c.rest := by
  refine offers_literal_bind "import" (offers_blanks1_bind (offers_type_bind fun _ => ?_))
  refine ((offers_notFollowedBy _).bind fun _ => offers_word.bind fun _ => offers_blanks1_bind
    (Offers.starts fromSource_offers)).imp ?_
  rintro c _ _ ⟨_, _, ⟨_, rfl⟩, _, d, ⟨w, split⟩, follows⟩
  exact ⟨w, d.rest, split, follows⟩

theorem braceReexport_offers : braceReexport.Offers fun c _ _ =>
    Behind "export".toList (AfterBreak (AfterType (StartsPart '{'))) c.rest :=
  offers_literal_bind "export" <| offers_blanks1_bind <| offers_type_bind fun _ =>
    Offers.imp (Offers.starts (P := fun s => s.head? = some '{') braces_offers) fun _ _ _ => .inl

/-- A star behind `export`, and behind it a text with the property. -/
def AfterStar (P : List Char → Prop) : List Char → Prop :=
  AfterGap (Behind ['*'] (AfterGap P))

theorem offers_exportStar_bind {f : Unit → Recognizer α}
    (next : (f ()).Offers fun c _ _ => P c.rest) :
    (exportStar >>= f).Offers fun c _ _ => Behind "export".toList (AfterStar P) c.rest := by
  have form : (exportStar >>= f).Offers _ := Offers.bind ((offers_literal "export").bind fun _ =>
    (offers_many isBlank).bind fun _ => (offers_exactly '*').bind fun _ => offers_many isBlank)
    fun _ => next
  refine form.imp ?_
  rintro c _ _ ⟨_, d, ⟨_, _, ⟨first, _⟩, _, _, ⟨front, blank, second⟩, _, _, ⟨third, _⟩, back,
    blank', fourth⟩, follows⟩
  refine ⟨front ++ '*' :: (back ++ d.rest), ?_, ⟨front, blank⟩, _, rfl, back ++ d.rest, rfl,
    ⟨back, blank'⟩, d.rest, rfl, follows⟩
  rw [first, second, third, fourth]

/-- A quote, and one more somewhere behind it. -/
def StartsSource (s : List Char) : Prop :=
  ∃ q more, s = q :: more ∧ isQuote q = true ∧ ∃ c ∈ more, isQuote c = true

theorem quotedSource_offers : quotedSource.Offers fun c _ _ => StartsSource c.rest := by
  have form : quotedSource.Offers _ := (offers_oneOf isQuote).bind fun _ =>
    (offers_many1 (!isQuote ·)).captured.bind fun _ => (offers_oneOf isQuote).bind fun _ =>
    offers_pure _
  refine form.imp ?_
  rintro c _ d ⟨q, _, ⟨quote, first, _⟩, _, _, ⟨_, _, x, run, _, _, second⟩, q', _,
    ⟨quote', third, _⟩, _⟩
  refine ⟨q, _, first, quote, q', ?_, quote'⟩
  rw [second, third]
  exact List.mem_append_right _ List.mem_cons_self

theorem starReexport_offers : starReexport.Offers fun c _ _ =>
    Behind "export".toList (AfterStar (Behind "from".toList (AfterGap StartsSource))) c.rest :=
  offers_exportStar_bind <| offers_literal_bind "from" <| offers_blanks_bind quotedSource_offers

theorem namedStarReexport_offers : namedStarReexport.Offers fun c _ _ =>
    Behind "export".toList (AfterStar (Behind "as".toList (AfterBreak fun _ => True))) c.rest :=
  offers_exportStar_bind <| offers_literal_bind "as" <| offers_blanks1_any

end Patterns

section Lines

variable {r : Recognizer ImportMatch} {f : ImportMatch → List ImportStatement}
  {g : ImportLine → List ImportStatement} {P : List Char → Prop}

theorem ImportLine.text_append (i : ImportLine) (rest : List Char) :
    i.text ++ rest = i.bodyOnto [] ++ (i.ending ++ rest) := by
  rw [text, bodyOnto_append, bodyOnto_append, List.nil_append]

/-- A pattern of imports, which finds a statement as a whole or not at all. -/
structure Reads (r : Recognizer ImportMatch) (P : List Char → Prop)
    (f : ImportMatch → List ImportStatement) (g : ImportLine → List ImportStatement) : Prop where
  offers : r.Offers fun c _ _ => Behind "import".toList (AfterBreak P) c.rest
  quiet : Quiet (AfterBreak P)
  heads : ∀ more, P more → more.head?.any isBlank = false
  each : ∀ (i : ImportLine) (before rest : List Char),
    (∃ m, r.Prefers (between before (i.bodyOnto rest)) m (between (before ++ i.bodyOnto []) rest) ∧
      f m = g i) ∨
    (¬ P (i.form.text ++ i.sourceOnto rest) ∧ g i = [])

/-- Behind a statement the search goes on, with what the statement imports. -/
theorem Reads.line (h : Reads r P f g) (i : ImportLine) (before rest : List Char) :
    (r.allBehind before (i.text ++ rest)).flatMap (f ·.value) =
      g i ++ (r.allBehind (before ++ i.text) rest).flatMap (f ·.value) := by
  have opening : IsOpening "import".toList := .inl rfl
  rcases h.each i before (i.ending ++ rest) with ⟨m, way, statements⟩ | ⟨refused, none⟩
  · have whole : i.bodyOnto (i.ending ++ rest) = i.bodyOnto [] ++ (i.ending ++ rest) := by
      rw [i.bodyOnto_append, List.nil_append]
    have some_text : i.bodyOnto [] ≠ [] := List.cons_ne_nil _ _
    rw [whole] at way
    rw [i.text_append, allBehind_of_at way.at rfl some_text,
      allBehind_append_of_absent h.offers (opening.absent_ending i rest), List.flatMap_cons,
      statements, List.append_assoc, ← List.append_nil i.text, i.text_append, List.append_nil]
  · have start := mt (fun starts : AfterBreak P _ => starts.toGap.behind h.heads i.space.blank
      (i.form.text_starts _)) refused
    have absent := opening.absent_text h.quiet i rest (fun _ => start)
      (opening.absent_source P i (i.ending ++ rest))
    rw [allBehind_append_of_absent h.offers absent, none, List.nil_append]

theorem Reads.all (h : Reads r P f g) (lines : List ImportLine) :
    (r.all (lines.flatMap ImportLine.text)).flatMap (f ·.value) = lines.flatMap g := by
  have nothing : ¬ Behind "import".toList (AfterBreak P) [] := by
    rintro ⟨_, split, _⟩
    cases split
  have found := flatMap_allBehind_blocks lines [] [] fun i _ => h.line i
  rw [List.append_nil, allBehind_nil h.offers nothing, List.flatMap_nil, List.append_nil] at found
  exact found

theorem reads_braceImport : Reads braceImport (AfterType (StartsPart '{'))
    ImportMatch.braceStatements ImportLine.braceImports where
  offers := braceImport_offers
  quiet := quiet_startsPart ⟨by decide, by decide⟩ (by decide) (by decide)
  heads := afterType_heads (startsPart_heads ⟨by decide, by decide⟩)
  each i before rest := by
    have refused := mt (i.form.mark?_of_part i rest (x := '{') ⟨by decide, by decide⟩)
    cases form : i.form with
    | braces typed? lead? list gap => exact .inl (i.exists_braceImport form before rest)
    | plain typed? name space =>
        rw [form] at refused
        exact .inr ⟨refused (Option.some_ne_none _).symm, by rw [ImportLine.braceImports, form]⟩
    | star lead? gap space name last =>
        rw [form] at refused
        exact .inr ⟨refused (show some '*' ≠ some '{' by decide),
          by rw [ImportLine.braceImports, form]⟩

theorem reads_starImport : Reads starImport (AfterType (StartsPart '*'))
    ImportMatch.starStatements ImportLine.starImports where
  offers := starImport_offers
  quiet := quiet_startsPart ⟨by decide, by decide⟩ (by decide) (by decide)
  heads := afterType_heads (startsPart_heads ⟨by decide, by decide⟩)
  each i before rest := by
    have refused := mt (i.form.mark?_of_part i rest (x := '*') ⟨by decide, by decide⟩)
    cases form : i.form with
    | star lead? gap space name last => exact .inl (i.exists_starImport form before rest)
    | plain typed? name space =>
        rw [form] at refused
        exact .inr ⟨refused (Option.some_ne_none _).symm, by rw [ImportLine.starImports, form]⟩
    | braces typed? lead? list gap =>
        rw [form] at refused
        exact .inr ⟨refused (show some '{' ≠ some '*' by decide),
          by rw [ImportLine.starImports, form]⟩

theorem reads_defaultImport : Reads defaultImport (AfterType StartsDefault)
    (fun m => [m.defaultStatement]) ImportLine.plainImports where
  offers := defaultImport_offers
  quiet := quiet_startsDefault
  heads := afterType_heads startsDefault_heads
  each i before rest := by
    have refused := mt (i.form.mark?_of_default i rest)
    cases form : i.form with
    | plain typed? name space => exact .inl (i.exists_defaultImport form before rest)
    | braces typed? lead? list gap =>
        rw [form] at refused
        exact .inr ⟨refused (Option.some_ne_none _), by rw [ImportLine.plainImports, form]⟩
    | star lead? gap space name last =>
        rw [form] at refused
        exact .inr ⟨refused (Option.some_ne_none _), by rw [ImportLine.plainImports, form]⟩

/-- The imports of the statements, by their forms. -/
def importList (lines : List ImportLine) : List ImportStatement :=
  lines.flatMap ImportLine.braceImports ++ lines.flatMap ImportLine.plainImports ++
    lines.flatMap ImportLine.starImports

theorem importsOf_lines (lines : List ImportLine) :
    importsOf (lines.flatMap ImportLine.text) = importList lines := by
  have plain := reads_defaultImport.all lines
  rw [← List.map_eq_flatMap] at plain
  rw [importsOf, reads_braceImport.all, plain, reads_starImport.all, importList]

end Lines

section Reexports

variable {P R : List Char → Prop} {s rest : List Char} {q : Char}

theorem absent_lines {lines : List ImportLine}
    (h : ∀ i ∈ lines, ∀ rest, Absent P i.text rest) (rest : List Char) :
    Absent P (lines.flatMap ImportLine.text) rest := by
  induction lines with
  | nil => trivial
  | cons i lines ih =>
      rw [List.flatMap_cons, absent_append]
      exact ⟨h i List.mem_cons_self _, ih fun j hj => h j (List.mem_cons_of_mem i hj)⟩

/-- What behind an export needs a blank there is in no statement. -/
theorem absent_export_break (quiet : Quiet (AfterBreak P)) (i : ImportLine) (rest : List Char) :
    Absent (Behind "export".toList (AfterBreak P)) i.text rest :=
  have opening : IsOpening "export".toList := .inr rfl
  opening.absent_text quiet i rest (fun same => absurd same (by decide))
    (opening.absent_source P i _)

theorem head?_any_solid (solid : ∀ c ∈ s, isBlank c = false) (ends : isBlank q = false) :
    (s ++ q :: rest).head?.any isBlank = false := by
  cases s with
  | nil => exact ends
  | cons c s => exact solid c List.mem_cons_self

/-- In a text without blanks an export and its star stand side by side. -/
theorem exists_afterStar (solid : ∀ c ∈ s, isBlank c = false) (quote : isQuote q = true)
    (h : Behind "export".toList (AfterStar R) (s ++ q :: rest)) :
    ∃ back, s = "export*".toList ++ back ∧ R (back ++ q :: rest) := by
  have mark := isMark_of_isQuote quote
  obtain ⟨starred, rfl, star⟩ := h.within (not_mem_of_isQuote (forall_not_of_all (by decide)) quote)
  have solid' : ∀ c ∈ starred, isBlank c = false := fun c hc =>
    solid c (List.mem_append_right _ hc)
  obtain ⟨back, rfl, follows⟩ := (AfterGap.of_solid star (head?_any_solid solid' mark.solid)).within
    (not_mem_of_isQuote (forall_not_of_all (by decide)) quote)
  have solid'' : ∀ c ∈ back, isBlank c = false := fun c hc =>
    solid' c (List.mem_append_right _ hc)
  exact ⟨back, rfl, follows.of_solid (head?_any_solid solid'' mark.solid)⟩

namespace ImportLine

variable (i : ImportLine)

theorem absent_namedStar (rest : List Char) : Absent (Behind "export".toList
    (AfterStar (Behind "as".toList (AfterBreak fun _ => True)))) i.text rest := by
  have opening : IsOpening "export".toList := .inr rfl
  refine opening.absent_text (quiet_star _) i rest (fun same => absurd same (by decide)) ?_
  refine absent_of_suffixes ?_
  rintro front back split _ found
  have solid : ∀ c ∈ back, isBlank c = false := fun c hc =>
    (i.solid c (split ▸ List.mem_append_right front hc)).2
  obtain ⟨_, rfl, named⟩ := exists_afterStar solid i.quotes found
  obtain ⟨last, rfl, space⟩ :=
    named.within (not_mem_of_isQuote (forall_not_of_all (by decide)) i.quotes)
  have solid' : ∀ c ∈ last, isBlank c = false := fun c hc =>
    solid c (List.mem_append_right _ (List.mem_append_right _ hc))
  have blank := space.head?_any
  rw [head?_any_solid solid' (isMark_of_isQuote i.quotes).solid] at blank
  cases blank

/-- A re-export is seen in a statement where its source ends as one begins, with a quote to
follow. -/
theorem absent_star (rest : List Char) (h : "export*from".toList <:+ i.source →
    ∀ c ∈ i.ending ++ rest, isQuote c = false) : Absent (Behind "export".toList
      (AfterStar (Behind "from".toList (AfterGap StartsSource)))) i.text rest := by
  have opening : IsOpening "export".toList := .inr rfl
  refine opening.absent_text (quiet_star _) i rest (fun same => absurd same (by decide)) ?_
  refine absent_of_suffixes ?_
  rintro front back split _ found
  have plain : ∀ c ∈ back, isQuote c = false ∧ isBlank c = false := fun c hc =>
    i.solid c (split ▸ List.mem_append_right front hc)
  obtain ⟨_, rfl, marked⟩ := exists_afterStar (fun c hc => (plain c hc).2) i.quotes found
  obtain ⟨last, rfl, source⟩ :=
    marked.within (not_mem_of_isQuote (forall_not_of_all (by decide)) i.quotes)
  have plain' : ∀ c ∈ last, isQuote c = false ∧ isBlank c = false := fun c hc =>
    plain c (List.mem_append_right _ (List.mem_append_right _ hc))
  obtain ⟨q, more, same, quote, c, later, quote'⟩ := source.of_solid
    (head?_any_solid (fun c hc => (plain' c hc).2) (isMark_of_isQuote i.quotes).solid)
  cases last with
  | nil =>
      obtain ⟨_, rfl⟩ := List.cons.inj same
      have ends : "export*from".toList <:+ i.source := ⟨front, split.symm⟩
      exact Bool.noConfusion ((h ends c later).symm.trans quote')
  | cons d last =>
      obtain ⟨rfl, _⟩ := List.cons.inj same
      exact Bool.noConfusion ((plain' d List.mem_cons_self).1.symm.trans quote)

end ImportLine

/-- A text with a quote goes up to its first one. -/
theorem exists_firstQuote (h : ∃ c ∈ s, isQuote c = true) :
    ∃ run q more, s = run ++ q :: more ∧ (∀ c ∈ run, (!isQuote c) = true) ∧ isQuote q = true := by
  induction s with
  | nil =>
      obtain ⟨_, inside, _⟩ := h
      cases inside
  | cons c s ih =>
      cases here : isQuote c with
      | true => exact ⟨[], c, s, rfl, List.forall_mem_nil _, here⟩
      | false =>
          obtain ⟨d, inside, quote⟩ := h
          rcases List.mem_cons.mp inside with rfl | inside
          · exact Bool.noConfusion (here.symm.trans quote)
          · obtain ⟨run, q, more, rfl, plain, quote⟩ := ih ⟨d, inside, quote⟩
            have first : (!isQuote c) = true := by rw [here]; rfl
            exact ⟨c :: run, q, more, rfl, List.forall_mem_cons.mpr ⟨first, plain⟩, quote⟩

/-- What reads as a re-export is found as one, wherever it stands. -/
theorem starReexport_all_ne_nil (before : List Char) (quote : isQuote q = true)
    (starts : rest.head?.any isQuote = false) (h : ∃ c ∈ rest, isQuote c = true) :
    starReexport.all (before ++ ("export*from".toList ++ q :: rest)) ≠ [] := by
  obtain ⟨run, q', more, rfl, plain, quote'⟩ := exists_firstQuote h
  have some_source : run ≠ [] := by
    rintro rfl
    exact Bool.noConfusion (starts.symm.trans quote')
  have stop : (q' :: more).head?.any (!isQuote ·) = false := by simp [quote']
  have solid : (q :: (run ++ q' :: more)).head?.any isBlank = false :=
    (isMark_of_isQuote quote).solid
  have star : exportStar.Prefers (between before ("export".toList ++ ([] ++ '*' :: ([] ++
      ("from".toList ++ ([] ++ q :: (run ++ q' :: more))))))) () _ :=
    (prefers_literal "export" _ _).bind <| (prefers_blanks (List.forall_mem_nil _) rfl).bind <|
    (prefers_exactly '*' _ _).bind <| prefers_blanks (List.forall_mem_nil _) rfl
  have way : starReexport.Prefers _ _ _ := star.bind <| (prefers_literal "from" _ _).bind <|
    (prefers_blanks (List.forall_mem_nil _) solid).bind <| (prefers_oneOf quote).bind <|
    (prefers_many1 some_source plain stop).captured.bind <| (prefers_oneOf quote').bind <|
    prefers_pure _ _
  exact allBehind_ne_nil [] way.at

theorem ImportLine.isQuote_ending (i : ImportLine) : ∀ c ∈ i.ending, isQuote c = false := by
  intro c hc
  rw [ending, List.mem_append] at hc
  rcases hc with semicolon | blank
  · split at semicolon
    · rw [List.mem_singleton.mp semicolon]
      decide
    · cases semicolon
  · exact Bool.eq_false_iff.mpr fun quote =>
      Bool.noConfusion ((isMark_of_isQuote quote).solid.symm.trans (i.feeds.blank c blank))

namespace ImportLine

variable (i : ImportLine)

theorem text_cons (rest : List Char) : ∃ more, i.text ++ rest = 'i' :: more := ⟨_, rfl⟩

theorem quote_mem_text (rest : List Char) : i.quote ∈ i.text ++ rest := by
  rw [text_append, bodyOnto_eq, sourceOnto_eq]
  simp

theorem exists_front {opening tail : List Char} (source : opening ++ tail = i.source)
    (rest : List Char) :
    ∃ front, i.text ++ rest = front ++ (tail ++ i.quote :: (i.ending ++ rest)) := by
  refine ⟨"import".toList ++ (i.space.chars ++ (i.form.text ++ ("from".toList ++ (i.gap.chars ++
    i.quote :: opening)))), ?_⟩
  rw [text, bodyOnto_append, bodyOnto_eq, sourceOnto_eq, ← source]
  simp only [List.append_assoc, List.cons_append]

/-- Behind a statement comes no quote before the next statement. -/
theorem head?_ending {more : List Char} (rest : List Char) (first : rest = 'i' :: more) :
    (i.ending ++ rest).head?.any isQuote = false := by
  have plain := i.isQuote_ending
  cases ending : i.ending with
  | nil =>
      rw [first]
      rfl
  | cons c ending' =>
      rw [ending] at plain
      exact plain c List.mem_cons_self

end ImportLine

/-- The re-exports that are seen in import statements. -/
theorem reexportsOf_lines (lines : List ImportLine) :
    reexportsOf (lines.flatMap ImportLine.text) = [] ↔
      ∀ i ∈ lines.dropLast, ¬ "export*from".toList <:+ i.source := by
  have nothing {P : List Char → Prop} : ¬ Behind "export".toList P [] := by
    rintro ⟨_, split, _⟩
    cases split
  have braced : braceReexport.all (lines.flatMap ImportLine.text) = [] :=
    all_eq_nil braceReexport_offers (absent_lines (fun i _ rest => absent_export_break
      (quiet_startsPart ⟨by decide, by decide⟩ (by decide) (by decide)) i rest) []) nothing
  have named : namedStarReexport.all (lines.flatMap ImportLine.text) = [] :=
    all_eq_nil namedStarReexport_offers
      (absent_lines (fun i _ rest => i.absent_namedStar rest) []) nothing
  have stars : reexportsOf (lines.flatMap ImportLine.text) = [] ↔
      starReexport.all (lines.flatMap ImportLine.text) = [] := by
    rw [reexportsOf, braced, named]
    simp
  rw [stars]
  rcases List.eq_nil_or_concat lines with rfl | ⟨front, last, rfl⟩
  · have none : starReexport.all [] = [] := all_eq_nil starReexport_offers trivial nothing
    simp [none]
  rw [List.concat_eq_append, List.dropLast_concat, List.flatMap_append, List.flatMap_singleton]
  constructor
  · intro none i member ⟨opening, source⟩
    obtain ⟨before, after, rfl⟩ := List.append_of_mem member
    obtain ⟨next, others, split⟩ := List.exists_cons_of_ne_nil (List.concat_ne_nil last after)
    let rest := (next :: others).flatMap ImportLine.text
    have behind : after.flatMap ImportLine.text ++ last.text = rest := by
      rw [← List.flatMap_singleton ImportLine.text last, ← List.flatMap_append, split]
    obtain ⟨more, first⟩ := next.text_cons (others.flatMap ImportLine.text)
    obtain ⟨front, text⟩ := i.exists_front source rest
    have whole : (before ++ i :: after).flatMap ImportLine.text ++ last.text =
        before.flatMap ImportLine.text ++ front ++
          ("export*from".toList ++ i.quote :: (i.ending ++ rest)) := by
      rw [List.flatMap_append, List.flatMap_cons, List.append_assoc, List.append_assoc, behind,
        text, List.append_assoc]
    have quoted : ∃ c ∈ i.ending ++ rest, isQuote c = true :=
      ⟨next.quote, List.mem_append_right _ (next.quote_mem_text _), next.quotes⟩
    exact starReexport_all_ne_nil _ i.quotes (i.head?_ending rest first) quoted (whole ▸ none)
  · intro h
    refine all_eq_nil starReexport_offers (absent_append.mpr ⟨?_, ?_⟩) nothing
    · exact absent_lines (fun i member rest => i.absent_star rest fun ends =>
        absurd ends (h i member)) _
    · refine last.absent_star [] fun _ c hc => ?_
      rw [List.append_nil] at hc
      exact last.isQuote_ending c hc

theorem isReexport_of_mem_reexportsOf {content : List Char} {i : ImportStatement}
    (h : i ∈ reexportsOf content) : i.isReexport = true := by
  simp only [reexportsOf, List.mem_append, List.mem_flatMap, List.mem_map] at h
  rcases h with (⟨m, _, brace⟩ | ⟨m, _, rfl⟩) | ⟨m, _, rfl⟩
  · unfold ImportMatch.braceReexports ofNames at brace
    split at brace
    · cases brace
    · rw [List.mem_singleton.mp brace]
  · rfl
  · rfl

theorem ImportLine.isReexport_of_mem_leading {i : ImportLine} {lead? : Option LeadingName}
    {s : ImportStatement} (h : s ∈ i.leading lead?) : s.isReexport = false := by
  obtain ⟨_, _, rfl⟩ := List.mem_map.mp h
  rfl

theorem isReexport_of_mem_importList {lines : List ImportLine} {s : ImportStatement}
    (h : s ∈ importList lines) : s.isReexport = false := by
  rw [importList, List.mem_append, List.mem_append, List.mem_flatMap, List.mem_flatMap,
    List.mem_flatMap] at h
  rcases h with (⟨i, _, brace⟩ | ⟨i, _, plain⟩) | ⟨i, _, star⟩
  · unfold ImportLine.braceImports at brace
    split at brace
    · rcases List.mem_append.mp brace with leading | named
      · exact ImportLine.isReexport_of_mem_leading leading
      · rw [List.mem_singleton.mp named]
        rfl
    · cases brace
  · unfold ImportLine.plainImports at plain
    split at plain
    · rw [List.mem_singleton.mp plain]
      rfl
    · cases plain
  · unfold ImportLine.starImports at star
    split at star
    · rcases List.mem_append.mp star with leading | namespaced
      · exact ImportLine.isReexport_of_mem_leading leading
      · rw [List.mem_singleton.mp namespaced]
        rfl
    · cases star

/-- The imports of a text of import statements. Those that are no re-exports are the imports of the
statements; there are no others exactly where no statement but the last one has a source that ends
as a re-export begins. -/
theorem extract_importLines (lines : List ImportLine) (path : String)
    (language : Option Language) :
    let content := lines.flatMap ImportLine.text
    let found := (Extractor.typescript.extract path content language).imports
    found.filter (!·.isReexport) = importList lines ∧
      (found = importList lines ↔
        ∀ i ∈ lines.dropLast, ¬ "export*from".toList <:+ i.source) := by
  intro content found
  have parts : found = importList lines ++ reexportsOf content := by
    change importsOf content ++ reexportsOf content = _
    rw [importsOf_lines]
  have kept : (importList lines).filter (!·.isReexport) = importList lines :=
    List.filter_eq_self.mpr fun i member => by rw [isReexport_of_mem_importList member]; rfl
  have dropped : (reexportsOf content).filter (!·.isReexport) = [] :=
    List.filter_eq_nil_iff.mpr fun i member => by rw [isReexport_of_mem_reexportsOf member]; decide
  constructor
  · rw [parts, List.filter_append, kept, dropped, List.append_nil]
  · rw [parts, List.append_right_eq_self, reexportsOf_lines]

/-- A statement that ends its line, with one space behind each keyword. -/
def spacedLine (form : ImportForm) (source : List Char) (named : source ≠ [])
    (solid : source.all (fun c => !isQuote c && !isBlank c) = true) : ImportLine where
  space := .space
  form := form
  gap := Break.space.toGap
  quote := '\''
  quotes := by decide
  source := source
  named := named
  solid c hc := by simpa using List.all_eq_true.mp solid c hc
  semicolon := true
  feeds := .feed

/-- A default name that is a type, one in front of a star, and one in front of braces. -/
def mixedLines : List ImportLine :=
  [spacedLine (.plain (some .space) (.ofChar 'a' rfl) .space) "./a".toList (by decide) (by decide),
    spacedLine (.star (some ⟨.ofChar 'b' rfl, .empty, Break.space.toGap⟩) Break.space.toGap .space
      (.ofChar 'c' rfl) .space) "b".toList (by decide) (by decide),
    spacedLine (.braces none (some ⟨.ofChar 'd' rfl, .empty, Break.space.toGap⟩)
      ⟨[⟨.empty, .named (.ofChar 'e' rfl) (some (.space, .space, .ofChar 'f' rfl)), .empty⟩,
        ⟨Break.space.toGap, .marked .empty (.ofChar 'g' rfl), .empty⟩], List.cons_ne_nil _ _,
        some .empty⟩ Break.space.toGap) "d".toList (by decide) (by decide)]

theorem extract_importLines_mixed :
    (Extractor.typescript.extract "/app/main.ts" ("import type a from './a';\n" ++
        "import b, * as c from 'b';\nimport d, \x7be as f, type g,\x7d from 'd';\n").toList
      none).imports =
      [⟨"d", ["d"], true, false, false⟩, ⟨"d", ["e", "g"], false, false, false⟩,
        ⟨"./a", ["a"], true, false, false⟩, ⟨"b", ["b"], true, false, false⟩,
        ⟨"b", ["c"], false, true, false⟩] := by
  have text : mixedLines.flatMap ImportLine.text = ("import type a from './a';\n" ++
      "import b, * as c from 'b';\nimport d, \x7be as f, type g,\x7d from 'd';\n").toList := by
    decide
  have found := (extract_importLines mixedLines "/app/main.ts" none).2.mpr (by decide)
  rw [text] at found
  rw [found]
  decide

/-- The source of the first statement reads as the start of a re-export, whose source goes up to the
next quote. -/
theorem extract_importLines_starred :
    ∃ lines : List ImportLine, lines.flatMap ImportLine.text =
        "import a from 'export*from';\nimport b from 'x';\n".toList ∧
      importList lines =
        [⟨"export*from", ["a"], true, false, false⟩, ⟨"x", ["b"], true, false, false⟩] ∧
      (Extractor.typescript.extract "/app/main.ts"
          "import a from 'export*from';\nimport b from 'x';\n".toList none).imports =
        [⟨"export*from", ["a"], true, false, false⟩, ⟨"x", ["b"], true, false, false⟩,
          ⟨";\nimport b from ", ["*"], false, true, true⟩] := by
  refine ⟨[spacedLine (.plain none (.ofChar 'a' rfl) .space) "export*from".toList (by decide)
    (by decide), spacedLine (.plain none (.ofChar 'b' rfl) .space) ['x'] (by decide) (by decide)],
    ?text, ?listed, ?found⟩
  case text => decide
  case listed => decide
  case found => decide +kernel

end Reexports

end ComponentAtlas.TypeScript
