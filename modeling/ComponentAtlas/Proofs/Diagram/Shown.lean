import ComponentAtlas.Proofs.Diagram.Identifiers
import ComponentAtlas.Proofs.Diagram.Lines

/-!
The identifiers in the text of a line. They stand at fixed places, each with a character behind it
that no identifier has, so what is said of the identifiers of the lines holds of their texts.
-/

namespace ComponentAtlas.Diagram

open Text

section Reading

/-- The identifier that stands in a text behind its first `n` characters. -/
def identifierAt (n : ℕ) (s : String) : String :=
  String.ofList ((s.toList.drop n).takeWhile isIdentifierChar)

/-- The identifier at the end of a text. -/
def identifierAtEnd (s : String) : String :=
  String.ofList (s.toList.reverse.takeWhile isIdentifierChar).reverse

/-- The identifiers, with commas between them, behind the first `n` characters of a text. -/
def identifiersAt (n : ℕ) (s : String) : List String :=
  splitText ',' (String.ofList
    ((s.toList.drop n).takeWhile fun c => isIdentifierChar c || c == ','))

/-- The identifiers that the text of a line shows, at the places where its kind has them. -/
def Line.shown (l : Line) : List String :=
  match l with
  | .node .. => [identifierAt 4 l.text]
  | .link .. => [identifierAt 2 l.text, identifierAtEnd l.text]
  | .click .. => [identifierAt 8 l.text]
  | .members .. => identifiersAt 8 l.text
  | _ => []

/-- The identifiers that a line is about. -/
def Line.identifiers : Line → List String
  | .node identifier _ => [identifier]
  | .link source target _ _ => [source, target]
  | .click identifier _ _ => [identifier]
  | .members identifiers _ => identifiers
  | _ => []

end Reading

section Places

variable {s lead rest : String} {n : ℕ}

theorem identifierAt_append (length : lead.toList.length = n) (h : IsIdentifier s)
    (stop : rest.toList.head?.any isIdentifierChar = false) :
    identifierAt n (lead ++ (s ++ rest)) = s := by
  subst length
  rw [identifierAt, String.toList_append, String.toList_append, List.drop_left,
    takeWhile_append_of_stop h.plain stop, String.ofList_toList]

theorem identifierAtEnd_append (h : IsIdentifier s)
    (stop : lead.toList.getLast?.any isIdentifierChar = false) :
    identifierAtEnd (lead ++ s) = s := by
  have plain : ∀ c ∈ s.toList.reverse, isIdentifierChar c = true :=
    fun c hc => h.plain c (List.mem_reverse.mp hc)
  rw [identifierAtEnd, String.toList_append, List.reverse_append,
    takeWhile_append_of_stop plain (by rwa [List.head?_reverse]), List.reverse_reverse,
    String.ofList_toList]

theorem identifiersAt_append (length : lead.toList.length = n) {all : List String}
    (some_identifier : all ≠ []) (h : ∀ s ∈ all, IsIdentifier s)
    (stop : rest.toList.head?.any (fun c => isIdentifierChar c || c == ',') = false) :
    identifiersAt n (lead ++ (join "," all ++ rest)) = all := by
  subst length
  have listed : ∀ c ∈ (join "," all).toList, (isIdentifierChar c || c == ',') = true := by
    intro c hc
    rcases mem_join hc with comma | ⟨s, member, inside⟩
    · rw [List.mem_singleton.mp comma]
      rfl
    · simp [(h s member).plain c inside]
  rw [identifiersAt, String.toList_append, String.toList_append, List.drop_left,
    takeWhile_append_of_stop listed stop, String.ofList_toList]
  refine splitText_join some_identifier fun s member c inside comma => ?_
  exact absurd ((h s member).plain c inside) (by rw [comma]; decide)

/-- A text stops an identifier where its first character does. -/
theorem stop_of_head {p : Char → Bool} {c : Char} (first : s.toList.head? = some c)
    (stop : p c = false) (t : String) : (s ++ t).toList.head?.any p = false := by
  rw [String.toList_append, List.head?_append, first]
  exact stop

end Places

section Shown

variable {identifier source target : String}

theorem shown_node (h : IsIdentifier identifier) (n : Node) :
    (Line.node identifier n).shown = [identifier] := by
  have indent : "    ".toList.length = 4 := rfl
  obtain ⟨c, first, stop⟩ : ∃ c, (shape n.kind).1.toList.head? = some c ∧
      isIdentifierChar c = false := by
    cases n.kind <;> exact ⟨_, rfl, by decide⟩
  rw [Line.shown, text_node]
  simp only [String.append_assoc]
  rw [identifierAt_append indent h (stop_of_head first stop _)]

/-- Whatever stands between the ends of an edge, there are blanks around it. -/
theorem linkText_around (source target : String) (e : Edge) (labelled : Bool) :
    ∃ middle, linkText source target e labelled = source ++ " " ++ middle ++ " " ++ target := by
  rcases linkText_cases source target e labelled with shape | ⟨names, _, shape⟩
  · exact ⟨arrow e.relationship, shape⟩
  · have closing : "\"| " = "\"|" ++ " " := rfl
    refine ⟨arrow e.relationship ++ "|\"" ++ label (namesLabel names) ++ "\"|", ?_⟩
    rw [shape, closing]
    simp only [String.append_assoc]

theorem shown_link (hs : IsIdentifier source) (ht : IsIdentifier target) (e : Edge)
    (labelled : Bool) : (Line.link source target e labelled).shown = [source, target] := by
  have indent : "  ".toList.length = 2 := rfl
  have blank : " ".toList.head? = some ' ' := rfl
  obtain ⟨middle, shape⟩ := linkText_around source target e labelled
  have first : identifierAt 2 ("  " ++ linkText source target e labelled) = source := by
    rw [shape]
    simp only [String.append_assoc]
    exact identifierAt_append indent hs (stop_of_head blank rfl _)
  have last : identifierAtEnd ("  " ++ linkText source target e labelled) = target := by
    rw [shape, ← String.append_assoc, ← String.append_assoc]
    refine identifierAtEnd_append ht ?_
    rw [String.toList_append, List.getLast?_append]
    rfl
  rw [Line.shown, text_link, first, last]

theorem shown_click (h : IsIdentifier identifier) (n : Node) (path : String) :
    (Line.click identifier n path).shown = [identifier] := by
  have lead : "  click ".toList.length = 8 := rfl
  have editor : " \"vscode://file/".toList.head? = some ' ' := rfl
  rw [Line.shown, text_click]
  simp only [String.append_assoc]
  rw [identifierAt_append lead h (stop_of_head editor rfl _)]

theorem shown_members {identifiers : List String} (some_member : identifiers ≠ [])
    (h : ∀ s ∈ identifiers, IsIdentifier s) (className : String) :
    (Line.members identifiers className).shown = identifiers := by
  have lead : "  class ".toList.length = 8 := rfl
  have blank : " ".toList.head? = some ' ' := rfl
  rw [Line.shown, text_members]
  simp only [String.append_assoc]
  exact identifiersAt_append lead some_member h (stop_of_head blank rfl _)

end Shown

end ComponentAtlas.Diagram
