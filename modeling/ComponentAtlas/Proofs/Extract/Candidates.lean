import ComponentAtlas.Proofs.Extract.Forms
import ComponentAtlas.Proofs.Text.Places

/-!
Where candidates stand. The candidates of every extractor have places in the text: any place for
TypeScript, the keyword of a statement at the start of a line for Python, and for C# the first
character on the line of a name that is neither blank nor tab. For C# the search for that character
never runs over the end of the text, because it meets the name.
-/

namespace ComponentAtlas

open Text Recognizer

section Claims

theorem claimNames_sublist (taken : List String) (cs : List Candidate) :
    (claimNames taken cs).Sublist cs := by
  induction cs generalizing taken with
  | nil => exact .slnil
  | cons c cs ih =>
      rw [claimNames]
      split
      · exact (ih taken).cons c
      · exact (ih (c.name :: taken)).cons_cons c

theorem name_of_mem_claimNames {taken : List String} {cs : List Candidate} {c : Candidate}
    (h : c ∈ claimNames taken cs) : c.name ≠ "" ∧ c.name ∉ taken := by
  induction cs generalizing taken with
  | nil => cases h
  | cons first cs ih =>
      rw [claimNames] at h
      split at h
      · exact ih h
      · rename_i free
        rcases List.mem_cons.mp h with rfl | later
        · simpa using free
        · exact (ih later).imp_right fun fresh old => fresh (List.mem_cons_of_mem _ old)

theorem claimNames_names_nodup (taken : List String) (cs : List Candidate) :
    ((claimNames taken cs).map (·.name)).Nodup := by
  induction cs generalizing taken with
  | nil => exact List.nodup_nil
  | cons c cs ih =>
      rw [claimNames]
      split
      · exact ih taken
      · rw [List.map_cons, List.nodup_cons]
        refine ⟨?_, ih _⟩
        intro again
        obtain ⟨other, member, same⟩ := List.mem_map.mp again
        exact (name_of_mem_claimNames member).2 (same ▸ List.mem_cons_self)

/-- A candidate stays where none before it has its name. -/
theorem mem_claimNames_append {taken : List String} {front back : List Candidate} {c : Candidate}
    (named : c.name ≠ "") (free : c.name ∉ taken) (first : ∀ c' ∈ front, c'.name ≠ c.name) :
    c ∈ claimNames taken (front ++ c :: back) := by
  induction front generalizing taken with
  | nil =>
      rw [List.nil_append, claimNames, if_neg (by simp [named, free])]
      exact List.mem_cons_self
  | cons c' front ih =>
      have other := first c' List.mem_cons_self
      have later : ∀ taken, c.name ∉ taken → c ∈ claimNames taken (front ++ c :: back) :=
        fun _ free => ih free fun d hd => first d (List.mem_cons_of_mem c' hd)
      rw [List.cons_append, claimNames]
      split
      · exact later taken free
      · refine List.mem_cons_of_mem c' (later _ ?_)
        simpa [free] using other.symm

/-- The names that stay are the free ones among those noticed. -/
theorem mem_names_claimNames {taken : List String} {cs : List Candidate} {name : String} :
    name ∈ (claimNames taken cs).map (·.name) ↔
      name ∈ cs.map (·.name) ∧ name ≠ "" ∧ name ∉ taken := by
  induction cs generalizing taken with
  | nil => simp [claimNames]
  | cons c cs ih =>
      rw [claimNames]
      split
      · rename_i passed
        have not_c : name ≠ "" ∧ name ∉ taken → name ≠ c.name := by
          rintro ⟨named, free⟩ rfl
          simp [named, free] at passed
        rw [ih, List.map_cons, List.mem_cons]
        exact and_congr_left fun h => (or_iff_right (not_c h)).symm
      · rename_i kept
        have own : c.name ≠ "" ∧ c.name ∉ taken := by simpa using kept
        rw [List.map_cons, List.mem_cons, ih, List.map_cons, List.mem_cons, List.mem_cons, not_or]
        by_cases same : name = c.name
        · simp [same, own]
        · simp [same]

end Claims

/-- What stands before and after the place of a declaration, by the extractor that found it. -/
def Extractor.Opening : Extractor → List Char → List Char → Prop
  | typescript, _, _ => True
  | python, before, after =>
    before.getLast?.all (· == '\n') = true ∧
      ∃ word ∈ ["class", "def", "async"], word.toList <+: after
  | csharp, _, after => ∃ c rest, after = c :: rest ∧ c ≠ ' ' ∧ c ≠ '\t' ∧ c ≠ '\n'

/-- The candidate has a place in the text with such an opening, and a column that is stated is the
one of that place. -/
structure Candidate.Stands (e : Extractor) (content : List Char) (c : Candidate) : Prop where
  place : ∃ before after,
    content = before ++ after ∧ c.offset = before.length ∧ e.Opening before after
  column : c.column.getD (columnNumber content c.offset) = columnNumber content c.offset

theorem Candidate.Stands.congr {e : Extractor} {content : List Char} {c c' : Candidate}
    (h : c.Stands e content) (offset : c'.offset = c.offset) (column : c'.column = c.column) :
    c'.Stands e content := by
  obtain ⟨place, stated⟩ := h
  exact ⟨by rw [offset]; exact place, by rw [offset, column]; exact stated⟩

namespace TypeScript

variable {α : Type} {r : Recognizer α} [Forward r] {content : List Char}

theorem stands_of_found {m : Found α} (found : m ∈ r.all content) {c : Candidate}
    (offset : c.offset = m.start.offset) (column : c.column = none) :
    c.Stands .typescript content := by
  obtain ⟨before, split, start, _⟩ :=
    Cursor.place_of_reaches (Forward.offers.mem_all found).1
  exact ⟨⟨before, m.start.rest, split, offset.trans start, trivial⟩, by rw [column]; rfl⟩

/-- Whichever matches of a form are shown, each stands where the match does. -/
theorem stands_of_shown {shown : Found α → Option Candidate}
    (keeps : ∀ m c, shown m = some c → c.offset = m.start.offset ∧ c.column = none)
    {c : Candidate} (h : c ∈ (r.all content).filterMap shown) : c.Stands .typescript content := by
  obtain ⟨m, found, some_c⟩ := List.mem_filterMap.mp h
  exact stands_of_found found (keeps m c some_c).1 (keeps m c some_c).2

omit [Forward r] in
theorem stands_of_mem_map {r : Recognizer Span} [Forward r] {kind : Kind} {c : Candidate}
    (h : c ∈ (r.all content).map fun m => candidate m m.value kind) :
    c.Stands .typescript content := by
  obtain ⟨m, found, rfl⟩ := List.mem_map.mp h
  exact stands_of_found found rfl rfl

theorem keeps_place {p : Bool} {m : Found α} {c d : Candidate}
    (place : d.offset = m.start.offset ∧ d.column = none)
    (h : (if p then some d else none) = some c) : c.offset = m.start.offset ∧ c.column = none := by
  cases p with
  | true => exact Option.some.inj h ▸ place
  | false => cases h

omit [Forward r] in
theorem candidates_stand {c : Candidate} (h : c ∈ candidates content) :
    c.Stands .typescript content := by
  simp only [candidates, functions, List.mem_append, or_assoc] at h
  rcases h with arrow | function | extending | memo | forwarding | cls | function | arrow
  · exact stands_of_shown (fun m c => keeps_place ⟨rfl, rfl⟩) arrow
  · exact stands_of_shown (fun m c => keeps_place ⟨rfl, rfl⟩) function
  · exact stands_of_mem_map (r := classComponent) extending
  · exact stands_of_shown (fun m c => keeps_place ⟨rfl, rfl⟩) memo
  · exact stands_of_shown (fun m c => keeps_place ⟨rfl, rfl⟩) forwarding
  · refine stands_of_shown (fun m c shown => ?_) cls
    dsimp only at shown
    split at shown
    · cases shown
    · cases shown
      exact ⟨rfl, rfl⟩
  · exact stands_of_mem_map function
  · exact stands_of_mem_map arrow

end TypeScript

namespace Python

theorem stands_of_found {α : Type} {r : Recognizer α} {words : List String}
    (h : r.Offers fun c _ _ => OpensLine words c) (sub : words ⊆ ["class", "def", "async"])
    {content : List Char} {m : Found α} (found : m ∈ r.all content) (name : Span) (kind : Kind)
    (description : Option String) : (topLevel m name kind description).Stands .python content := by
  obtain ⟨forward, start, word, member, opening⟩ := h.mem_all found
  obtain ⟨before, split, offset, last⟩ := Cursor.place_of_reaches forward
  have lineStart : before.getLast?.all (· == '\n') = true := last ▸ start
  refine ⟨⟨before, m.start.rest, split, offset, lineStart, word, sub member, opening⟩, ?_⟩
  have column := columnNumber_lineStart m.start.rest lineStart
  rw [← split, ← offset] at column
  exact column.symm

theorem candidates_stand {content : List Char} {c : Candidate}
    (h : c ∈ classes content ++ functions content) : c.Stands .python content := by
  rcases List.mem_append.mp h with cls | function
  · obtain ⟨m, found, rfl⟩ := List.mem_map.mp cls
    exact stands_of_found classStatement_offers (by simp) found _ _ _
  · obtain ⟨m, found, shown⟩ := List.mem_filterMap.mp function
    split at shown
    · cases shown
    · cases shown
      exact stands_of_found functionStatement_offers (by simp) found _ _ _

end Python

namespace CSharp

/-- Where every element has an image as `P` says, all images are found. -/
theorem exists_mapM_eq_some {α β : Type} {f : α → Option β} {P : β → Prop} {as : List α}
    (h : ∀ a ∈ as, ∃ b, f a = some b ∧ P b) : ∃ bs, as.mapM f = some bs ∧ ∀ b ∈ bs, P b := by
  induction as with
  | nil => exact ⟨[], rfl, fun b hb => absurd hb List.not_mem_nil⟩
  | cons a as ih =>
      obtain ⟨b, image, holds⟩ := h a List.mem_cons_self
      obtain ⟨bs, images, all⟩ := ih fun a ha => h a (List.mem_cons_of_mem _ ha)
      refine ⟨b :: bs, by rw [List.mapM_cons, image, images]; rfl, ?_⟩
      exact List.forall_mem_cons.mpr ⟨holds, all⟩

/-- The search for a character that is neither blank nor tab ends, at the latest with `x`. -/
theorem indentLength?_append {x : Char} (notBlank : x ≠ ' ') (notTab : x ≠ '\t')
    (lead rest : List Char) :
    ∃ indent c after, lead ++ x :: rest = indent ++ c :: after ∧
      indentLength? (lead ++ x :: rest) = some indent.length ∧ c ≠ ' ' ∧ c ≠ '\t' ∧
      (c ∈ lead ∨ c = x) := by
  induction lead with
  | nil =>
      refine ⟨[], x, rest, rfl, ?_, notBlank, notTab, .inr rfl⟩
      simp [indentLength?, notBlank, notTab]
  | cons d lead ih =>
      rw [List.cons_append, indentLength?]
      split
      · obtain ⟨indent, c, after, split, length, solid, solid', among⟩ := ih
        refine ⟨d :: indent, c, after, congrArg (d :: ·) split, ?_, solid, solid',
          among.imp_left (List.mem_cons_of_mem d)⟩
        rw [length, Option.map_some, List.length_cons]
      · rename_i solid
        rw [Bool.or_eq_true, beq_iff_eq, beq_iff_eq, not_or] at solid
        exact ⟨[], d, lead ++ x :: rest, rfl, rfl, solid.1, solid.2, .inl List.mem_cons_self⟩

/-- On the line of a name something stands that is neither blank nor tab. -/
theorem lineIndentEnd?_placed {content : List Char} {name : Span}
    (h : NameAhead (Cursor.start content) name) :
    ∃ before after, content = before ++ after ∧
      lineIndentEnd? content name = some before.length ∧ Extractor.csharp.Opening before after := by
  obtain ⟨forward, x, rest, begins, isName⟩ := h
  obtain ⟨upTo, split, offset, _⟩ := Cursor.place_of_reaches forward
  obtain ⟨front, line⟩ := lastPiece_suffix '\n' upTo
  have apart : ∀ c, isWord c = false → x ≠ c := fun c other same => by
    rw [same, other] at isName
    cases isName
  obtain ⟨indent, c, after, cut, length, notBlank, notTab, among⟩ :=
    indentLength?_append (apart ' ' (by decide)) (apart '\t' (by decide)) (lastPiece '\n' upTo) rest
  have text : content = front ++ (lastPiece '\n' upTo ++ x :: rest) := by
    rw [split, begins, ← List.append_assoc, line]
  have lineStart : name.start.offset - lastLineLength (content.take name.start.offset) =
      front.length := by
    have whole := congrArg List.length line
    rw [List.length_append] at whole
    rw [offset, split, List.take_left, lastLineLength_eq]
    omega
  refine ⟨front ++ indent, c :: after, ?_, ?_, c, after, rfl, notBlank, notTab, ?_⟩
  · rw [List.append_assoc, ← cut]
    exact text
  · rw [lineIndentEnd?, lineStart, text, List.drop_left, length, Option.map_some,
      List.length_append]
  · rcases among with inside | rfl
    · exact ne_of_mem_lastPiece inside
    · exact apart '\n' (by decide)

theorem mem_notices {content : List Char} {n : Notice} (h : n ∈ notices content) :
    NameAhead (Cursor.start content) n.name := by
  have ahead {α : Type} {r : Recognizer α} {name : α → Span}
      (offers : r.Offers fun c a _ => NameAhead c (name a)) {m : Found α}
      (found : m ∈ r.all content) : NameAhead (Cursor.start content) (name m.value) := by
    obtain ⟨forward, further, begins⟩ := offers.mem_all found
    exact ⟨forward.trans further, begins⟩
  rw [notices, List.mem_append, List.mem_append] at h
  rcases h with (cls | interface) | enum
  · obtain ⟨m, found, rfl⟩ := List.mem_map.mp cls
    exact ahead classForm_offers found
  · obtain ⟨m, found, rfl⟩ := List.mem_map.mp interface
    exact ahead interfaceForm_offers found
  · obtain ⟨m, found, rfl⟩ := List.mem_map.mp enum
    exact ahead enumForm_offers found

theorem classified?_stands (u : CodeUnit) {n : Notice}
    (h : NameAhead (Cursor.start u.content) n.name) :
    ∃ c, u.classified? n = some c ∧ c.Stands .csharp u.content := by
  obtain ⟨before, after, split, place, opening⟩ := lineIndentEnd?_placed h
  refine ⟨_, by rw [CodeUnit.classified?, CodeUnit.candidate?, place]; rfl, ?_, rfl⟩
  exact ⟨before, after, split, rfl, opening⟩

/-- Every place can be told, so nothing stops the extraction. -/
theorem findings_complete (path : String) (content : List Char) :
    ∃ candidates, findings path content = ⟨.csharp, candidates, usings content, none⟩ ∧
      ∀ c ∈ candidates, c.Stands .csharp content := by
  obtain ⟨candidates, all, stand⟩ :=
    exists_mapM_eq_some fun n (hn : n ∈ notices content) =>
      classified?_stands (CodeUnit.of path content) (mem_notices hn)
  refine ⟨candidates, ?_, stand⟩
  rw [findings]
  simp only [all]

end CSharp

end ComponentAtlas
