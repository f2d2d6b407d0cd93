import ComponentAtlas.Extract
import ComponentAtlas.Proofs.Text.Recognizer

/-!
What the forms of declarations match. Each form goes forward over the text. A form of Python starts
with its keyword at the start of a line, and a form of C# holds the name, which begins with a
character that is not blank.
-/

namespace ComponentAtlas

open Text Recognizer

-- The size of an instance doubles with each step of a form, and the longest form has eleven.
set_option synthInstance.maxSize 10000

namespace TypeScript

instance (words : List String) : Forward (wordThenBlanks words) := by
  unfold wordThenBlanks
  infer_instance

instance : Forward exportMark := inferInstanceAs (Forward (wordThenBlanks ["export"]))

instance : Forward asyncMark := inferInstanceAs (Forward (wordThenBlanks ["async"]))

instance : Forward defaultMark := inferInstanceAs (Forward (wordThenBlanks ["default"]))

instance : Forward bindingMark := inferInstanceAs (Forward (wordThenBlanks ["const", "let"]))

instance : Forward libraryMark := inferInstanceAs (Forward (optional (literal "React.")))

instance : Forward functionMark := by
  unfold functionMark
  infer_instance

instance : Forward exportOrDefaultMark := by
  unfold exportOrDefaultMark
  infer_instance

instance : Forward capitalWord := by
  unfold capitalWord
  infer_instance

instance : Forward typeArguments := by
  unfold typeArguments
  infer_instance

instance : Forward nestedTypeArguments := by
  unfold nestedTypeArguments
  infer_instance

instance : Forward componentTypeClause := by
  unfold componentTypeClause
  infer_instance

instance : Forward arrowParameters := by
  unfold arrowParameters
  infer_instance

instance : Forward typeClause := by
  unfold typeClause
  infer_instance

instance : Forward arrowHead := by
  unfold arrowHead
  infer_instance

instance : Forward classTypeArguments := by
  unfold classTypeArguments
  infer_instance

instance : Forward extendsClause := by
  unfold extendsClause
  infer_instance

instance : Forward implementsClause := by
  unfold implementsClause
  infer_instance

instance : Forward arrowComponent := by
  unfold arrowComponent
  infer_instance

instance : Forward functionComponent := by
  unfold functionComponent
  infer_instance

instance : Forward classComponent := by
  unfold classComponent
  infer_instance

instance (wrapper : String) : Forward (wrappedComponent wrapper) := by
  unfold wrappedComponent
  infer_instance

instance : Forward classDeclaration := by
  unfold classDeclaration
  infer_instance

instance : Forward exportedFunction := by
  unfold exportedFunction
  infer_instance

instance : Forward exportedArrow := by
  unfold exportedArrow
  infer_instance

end TypeScript

namespace Python

/-- A place at the start of a line, from which the text goes on with one of the words. -/
def OpensLine (words : List String) (c : Cursor) : Prop :=
  c.before.all (· == '\n') = true ∧ ∃ word ∈ words, word.toList <+: c.rest

instance : Forward classStatement := by
  unfold classStatement
  infer_instance

theorem classStatement_offers : classStatement.Offers fun c _ _ => OpensLine ["class"] c := by
  have form : classStatement.Offers _ :=
    offers_lineStart.bind fun _ => (offers_literal "class").bind fun _ => Forward.offers
  refine form.imp ?_
  rintro c _ _ ⟨_, _, ⟨start, rfl⟩, _, d, ⟨keyword, _⟩, _⟩
  exact ⟨start, "class", List.mem_singleton_self _, d.rest, keyword.symm⟩

theorem functionStatement_offers :
    functionStatement.Offers fun c _ _ => OpensLine ["async", "def"] c := by
  have form : functionStatement.Offers _ :=
    offers_lineStart.bind fun _ =>
      ((offers_literal "async").bind fun _ => Forward.offers).optional.bind fun _ =>
        (offers_literal "def").bind fun _ => Forward.offers
  refine form.imp ?_
  rintro c _ _ ⟨_, _, ⟨start, rfl⟩, _, _, mark, _, e, ⟨keyword, _⟩, _⟩
  refine ⟨start, ?_⟩
  rcases mark with ⟨_, _, _, d, ⟨async, _⟩, _⟩ | ⟨_, rfl⟩
  · exact ⟨"async", List.mem_cons_self, d.rest, async.symm⟩
  · exact ⟨"def", List.mem_cons_of_mem _ (List.mem_singleton_self _), e.rest, keyword.symm⟩

end Python

namespace CSharp

/-- A name further on in the text that begins with a character of a word. -/
def NameAhead (c : Cursor) (name : Span) : Prop :=
  c.Reaches name.start ∧ ∃ x rest, name.start.rest = x :: rest ∧ isWord x = true

instance : Forward indent := inferInstanceAs (Forward (many _))

instance : Forward attributeList := by
  unfold attributeList
  infer_instance

instance : Forward modifier := by
  unfold modifier
  infer_instance

instance (keyword : String) : Forward (declarationStart keyword) := by
  unfold declarationStart
  infer_instance

instance : Forward typeTail := by
  unfold typeTail
  infer_instance

theorem word_offers : word.Offers fun c name _ =>
    name.start = c ∧ ∃ x rest, c.rest = x :: rest ∧ isWord x = true := by
  have name : word.Offers _ := ((offers_oneOf isWord).bind fun _ => Forward.offers).captured
  refine name.imp ?_
  rintro c _ _ ⟨start, _, x, d, ⟨isName, rest, _⟩, _⟩
  exact ⟨start, x, d.rest, rest, isName⟩

theorem classForm_offers : classForm.Offers fun c m _ => NameAhead c m.name := by
  have form : classForm.Offers _ :=
    Forward.offers.bind fun _ =>
      word_offers.bind fun _ => Forward.offers.bind fun _ => offers_pure _
  refine form.imp ?_
  rintro c _ _ ⟨_, _, forward, _, _, ⟨rfl, name⟩, _, _, _, rfl, _⟩
  exact ⟨forward, name⟩

theorem interfaceForm_offers : interfaceForm.Offers fun c m _ => NameAhead c m.name := by
  have form : interfaceForm.Offers _ :=
    Forward.offers.bind fun _ =>
      ((offers_exactly 'I').bind fun _ => Forward.offers).captured.bind fun _ =>
        Forward.offers.bind fun _ => offers_pure _
  refine form.imp ?_
  rintro c _ _ ⟨_, _, forward, _, _, ⟨rfl, _, _, d, ⟨mark, _⟩, _⟩, _, _, _, rfl, _⟩
  exact ⟨forward, 'I', d.rest, mark, by decide⟩

theorem enumForm_offers : enumForm.Offers fun c name _ => NameAhead c name := by
  have form : enumForm.Offers _ :=
    Forward.offers.bind fun _ => word_offers.bind fun _ =>
      (Forward.offers (r := optional _)).bind fun _ => (Forward.offers (r := blanks)).bind fun _ =>
        (Forward.offers (r := exactly '{')).bind fun _ => offers_pure _
  refine form.imp ?_
  rintro c _ _ ⟨_, _, forward, _, _, ⟨rfl, name⟩, _, _, _, _, _, _, _, _, _, rfl, _⟩
  exact ⟨forward, name⟩

end CSharp

end ComponentAtlas
