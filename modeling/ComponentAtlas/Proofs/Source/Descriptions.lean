import Mathlib.Data.List.Basic
import ComponentAtlas.Extract.CSharp
import ComponentAtlas.Proofs.Source.Names

/-!
Heritage written as a description and read back. The description marks its two parts by words with
a colon and parts them by a semicolon. No name holds either, so every name comes back in its part,
without its qualifiers.
-/

namespace ComponentAtlas

open Text

section Cutting

variable {needle front rest : List Char} {c : Char}

/-- What does not hold a separator ends before it. -/
theorem prefix_of_prefix_append_cons (h : c ∉ needle) (starts : needle <+: front ++ c :: rest) :
    needle <+: front := by
  obtain ⟨more, split⟩ := starts
  rcases List.append_eq_append_iff.mp split with ⟨mid, rfl, _⟩ | ⟨mid, rfl, beyond⟩
  · exact List.prefix_append _ _
  · cases mid with
    | nil => exact (List.append_nil front).symm ▸ List.prefix_refl front
    | cons d mid =>
        obtain ⟨rfl, _⟩ := List.cons.inj beyond
        exact absurd (List.mem_append_right front List.mem_cons_self) h

/-- What neither stands before a separator nor holds it is sought behind it. -/
theorem cutAt?_append_cons (h : c ∉ needle) (absent : ¬ needle <:+: front) (rest : List Char) :
    cutAt? needle (front ++ c :: rest) =
      (cutAt? needle rest).map fun (before, after) => (front ++ c :: before, after) := by
  induction front with
  | nil =>
      have notHere : afterStart? needle (c :: rest) = none := by
        refine Option.eq_none_iff_forall_ne_some.mpr fun more found => absent ?_
        have starts : needle <+: [] ++ c :: rest := ⟨more, (afterStart?_eq_some_iff.mp found).symm⟩
        exact (prefix_of_prefix_append_cons h starts).isInfix
      rw [List.nil_append, cutAt?, notHere]
      rfl
  | cons d front ih =>
      have notHere : afterStart? needle (d :: (front ++ c :: rest)) = none := by
        refine Option.eq_none_iff_forall_ne_some.mpr fun more found => absent ?_
        have starts : needle <+: d :: front ++ c :: rest :=
          ⟨more, (afterStart?_eq_some_iff.mp found).symm⟩
        exact (prefix_of_prefix_append_cons h starts).isInfix
      have later := ih fun inside => absent (inside.trans (List.suffix_cons d front).isInfix)
      rw [List.cons_append, cutAt?, notHere, later, Option.map_map]
      rfl

theorem cutAt?_append (needle rest : List Char) (h : needle ≠ []) :
    cutAt? needle (needle ++ rest) = some ([], rest) := by
  obtain ⟨c, needle, rfl⟩ := List.exists_cons_of_ne_nil h
  have here : afterStart? (c :: needle) (c :: (needle ++ rest)) = some rest :=
    afterStart?_eq_some_iff.mpr rfl
  rw [List.cons_append, cutAt?, here]

end Cutting

section Names

/-- A letter, a digit, an underscore or a dollar sign. -/
def isPlainPart (c : Char) : Bool := c.isAlphanum || c == '_' || c == '$'

/-- A name without qualifiers. -/
structure PlainName where
  chars : List Char
  starts : chars.head?.any isTypeStart = true
  parts : ∀ c ∈ chars, isPlainPart c = true

def PlainName.text (n : PlainName) : String := String.ofList n.chars

/-- A name behind its qualifiers, with dots between them. -/
structure QualifiedName where
  qualifiers : List PlainName
  last : PlainName

def QualifiedName.chars (n : QualifiedName) : List Char :=
  joinChars ['.'] (n.qualifiers.map PlainName.chars ++ [n.last.chars])

def QualifiedName.text (n : QualifiedName) : String := String.ofList n.chars

def PlainName.unqualified (n : PlainName) : QualifiedName := ⟨[], n⟩

theorem PlainName.text_unqualified (n : PlainName) : n.unqualified.text = n.text := by
  simp [QualifiedName.text, QualifiedName.chars, unqualified, text, joinChars]

theorem isTypePart_of_isPlainPart {c : Char} (h : isPlainPart c = true) : isTypePart c = true := by
  have ascii : c.isAlphanum = true → c.toNat < 128 := by
    delta Char.isAlphanum Char.isAlpha Char.isUpper Char.isLower Char.isDigit Char.toNat
    simp only [Bool.or_eq_true, Bool.and_eq_true, decide_eq_true_eq, ge_iff_le,
      UInt32.le_iff_toNat_le]
    have bounds : 'Z'.val.toNat = 90 ∧ 'z'.val.toNat = 122 ∧ '9'.val.toNat = 57 := by decide
    omega
  simp only [isPlainPart, Bool.or_eq_true, beq_iff_eq] at h
  simp only [isTypePart, isWord, Bool.or_eq_true, beq_iff_eq]
  rcases h with (letter | rfl) | rfl
  · exact .inl (.inl (by simp [ascii letter, letter]))
  · exact .inl (.inl (by decide))
  · exact .inr rfl

theorem PlainName.not_mem (n : PlainName) {c : Char} (h : isPlainPart c = false) : c ∉ n.chars :=
  fun inside => Bool.noConfusion (h.symm.trans (n.parts c inside))

namespace QualifiedName

variable (n : QualifiedName)

theorem mem_chars {c : Char} (h : c ∈ n.chars) : c = '.' ∨ isPlainPart c = true := by
  rcases mem_joinChars h with dot | ⟨piece, member, inside⟩
  · exact .inl (List.mem_singleton.mp dot)
  · rw [← List.map_singleton (f := PlainName.chars), ← List.map_append] at member
    obtain ⟨name, _, rfl⟩ := List.mem_map.mp member
    exact .inr (name.parts c inside)

theorem not_mem {c : Char} (notDot : c ≠ '.') (h : isPlainPart c = false) : c ∉ n.chars :=
  fun inside => (n.mem_chars inside).elim notDot fun part => Bool.noConfusion (h.symm.trans part)

theorem lastPiece_chars : lastPiece '.' n.chars = n.last.chars := by
  have no_dot : '.' ∉ n.last.chars := n.last.not_mem (by decide)
  rw [chars]
  cases some_left : n.qualifiers.map PlainName.chars with
  | nil => simp [joinChars, lastPiece_of_not_mem no_dot]
  | cons first others =>
      rw [joinChars_append ['.'] (List.cons_ne_nil first others) (List.cons_ne_nil _ [])]
      have last : joinChars ['.'] [n.last.chars] = n.last.chars := by simp [joinChars]
      rw [last, List.append_assoc, List.singleton_append, lastPiece_append_cons _ no_dot]

theorem head?_chars : n.chars.head?.any isTypeStart = true := by
  have first : ∀ (m : PlainName) (others : List (List Char)),
      (joinChars ['.'] (m.chars :: others)).head?.any isTypeStart = true := by
    intro m others
    obtain ⟨rest, split⟩ := joinChars_cons ['.'] m.chars others
    have starts := m.starts
    rw [split]
    cases shape : m.chars with
    | nil => rw [shape] at starts; cases starts
    | cons c chars => rw [shape] at starts; exact starts
  rw [chars]
  cases n.qualifiers with
  | nil => exact first n.last []
  | cons m others => exact first m _

def dotted : DottedName where
  chars := n.chars
  starts := n.head?_chars
  parts c inside := (n.mem_chars inside).elim (fun dot => by rw [dot]; decide)
    isTypePart_of_isPlainPart

/-- A name in a list is read as its last part. -/
theorem typeName?_chars : typeName? n.chars = some n.last.text := by
  have read : typeName? ([] ++ (n.chars ++ [])) = _ :=
    n.dotted.read (List.forall_mem_nil _) rfl List.not_mem_nil
  rw [List.nil_append, List.append_nil, DottedName.lastName] at read
  exact read.trans (congrArg (some ∘ String.ofList) n.lastPiece_chars)

end QualifiedName

end Names

section Lists

variable (names : List QualifiedName)

/-- The names as a part of a description shows them. -/
def shownNames : List Char := ' ' :: (join ", " (names.map QualifiedName.text)).toList

theorem shownNames_eq :
    shownNames names = ' ' :: joinChars [',', ' '] (names.map QualifiedName.chars) := by
  have chars : String.toList ∘ QualifiedName.text = QualifiedName.chars :=
    funext fun n => String.toList_ofList
  rw [shownNames, join, String.toList_ofList, List.map_map, chars]
  rfl

theorem typeNames_shownNames : typeNames (shownNames names) = names.map (·.last.text) := by
  have no_comma : ∀ p ∈ names.map QualifiedName.chars, ',' ∉ p := by
    intro p member
    obtain ⟨n, _, rfl⟩ := List.mem_map.mp member
    exact n.not_mem (by decide) (by decide)
  have read : typeName? ∘ QualifiedName.chars = fun n => some n.last.text :=
    funext QualifiedName.typeName?_chars
  rw [shownNames_eq, typeNames_joinChars no_comma, List.filterMap_map, read]
  exact congrFun List.filterMap_eq_map names

theorem not_mem_shownNames {c : Char} (other : c ∉ [' ', ',', '.']) (h : isPlainPart c = false) :
    c ∉ shownNames names := by
  simp only [List.mem_cons, List.not_mem_nil, or_false, not_or] at other
  rw [shownNames_eq]
  intro inside
  rcases List.mem_cons.mp inside with space | inside
  · exact other.1 space
  · rcases mem_joinChars inside with separator | ⟨p, member, inside⟩
    · simp [other.1, other.2.1] at separator
    · obtain ⟨n, _, rfl⟩ := List.mem_map.mp member
      exact n.not_mem other.2.2 h inside

end Lists

section Descriptions

/-- A description of both parts. The mark of the second one is first met where it stands, as names
hold no colon. -/
theorem ofChars_both {s t : List Char} (no_colon : ':' ∉ s) (one_part : ';' ∉ s)
    (last_part : ';' ∉ t) :
    Heritage.ofChars
        (extendsMark.toList ++ ' ' :: (s ++ ';' :: ' ' :: (implementsMark.toList ++ t))) =
      ⟨typeNames (' ' :: s), typeNames t⟩ := by
  have inMark : ¬ implementsMark.toList <:+: extendsMark.toList := fun inside =>
    absurd inside.length_le (by decide)
  have inNames : ¬ implementsMark.toList <:+: s ++ [';'] := fun inside => by
    have colon := inside.subset (show ':' ∈ implementsMark.toList by decide)
    exact (List.mem_append.mp colon).elim no_colon (by decide)
  have cut : cutAt? implementsMark.toList
      (extendsMark.toList ++ ' ' :: (s ++ [';'] ++ ' ' :: (implementsMark.toList ++ t))) =
        some (extendsMark.toList ++ ' ' :: (s ++ [';'] ++ [' ']), t) := by
    rw [cutAt?_append_cons (by decide) inMark, cutAt?_append_cons (by decide) inNames,
      cutAt?_append _ _ (by decide)]
    rfl
  have no_semicolon : ';' ∉ ' ' :: s := by simpa using one_part
  have first : firstPiece ';' (' ' :: (s ++ ';' :: ' ' :: (implementsMark.toList ++ t))) =
      ' ' :: s := by
    rw [← List.cons_append, firstPiece_append no_semicolon]
    simp [firstPiece]
  rw [List.append_assoc, List.singleton_append] at cut
  rw [Heritage.ofChars, afterStart?_eq_some_iff.mpr rfl, cut]
  simp only [first, firstPiece_of_not_mem last_part]

/-- Names come back from a description in their parts, each without its qualifiers. -/
theorem ofDescription_names (bases interfaces : List QualifiedName) :
    Heritage.ofDescription (Heritage.mk (bases.map QualifiedName.text)
        (interfaces.map QualifiedName.text)).description? =
      ⟨bases.map (·.last.text), interfaces.map (·.last.text)⟩ := by
  have no_semicolon (names : List QualifiedName) : ';' ∉ shownNames names :=
    not_mem_shownNames names (by decide) (by decide)
  cases bases with
  | nil =>
      have one_part : ∀ name ∈ interfaces.map QualifiedName.text, ';' ∉ name.toList := by
        intro name member
        obtain ⟨n, _, rfl⟩ := List.mem_map.mp member
        rw [QualifiedName.text, String.toList_ofList]
        exact n.not_mem (by decide) (by decide)
      rw [List.map_nil, ofDescription_interfaces one_part]
      exact congrArg (Heritage.mk []) (typeNames_shownNames interfaces)
  | cons base bases =>
      cases interfaces with
      | nil =>
          have no_mark : ¬ implementsMark.toList <:+:
              extendsMark.toList ++ shownNames (base :: bases) := fun inside => by
            rcases infix_of_infix_append_cons (by decide) inside with mark | names
            · exact absurd mark.length_le (by decide)
            · have colon := names.subset (show ':' ∈ implementsMark.toList by decide)
              exact not_mem_shownNames (base :: bases) (by decide) (by decide)
                (List.mem_cons_of_mem ' ' colon)
          have read := ofChars_extends (no_semicolon (base :: bases)) no_mark
          rw [typeNames_shownNames] at read
          refine Eq.trans ?_ read
          simp [Heritage.description?, Heritage.ofDescription, shownNames]
      | cons interface interfaces =>
          have no_colon : ':' ∉ shownNames (base :: bases) :=
            not_mem_shownNames _ (by decide) (by decide)
          have read := ofChars_both
            (s := (join ", " ((base :: bases).map QualifiedName.text)).toList)
            (fun inside => no_colon (List.mem_cons_of_mem ' ' inside))
            (fun inside => no_semicolon (base :: bases) (List.mem_cons_of_mem ' ' inside))
            (no_semicolon (interface :: interfaces))
          rw [← shownNames, typeNames_shownNames, typeNames_shownNames] at read
          refine Eq.trans ?_ read
          simp [Heritage.description?, Heritage.ofDescription, join, joinChars, shownNames]

/-- What a declaration extends and implements comes back from its description. Names that are told
apart by their form stay in their order, each in one of the two parts. -/
theorem ofDescription_description? :
    (∀ bases interfaces : List QualifiedName,
      Heritage.ofDescription (Heritage.mk (bases.map QualifiedName.text)
          (interfaces.map QualifiedName.text)).description? =
        ⟨bases.map (·.last.text), interfaces.map (·.last.text)⟩) ∧
    ∀ names : List PlainName,
      let listed := names.map PlainName.text
      let parted := CSharp.partitionBases listed
      Heritage.ofDescription parted.description? = parted ∧
        (parted.bases ++ parted.interfaces).Perm listed ∧
        (∀ name ∈ listed, name ∈ parted.bases ↔ name ∉ parted.interfaces) ∧
        parted.bases.Sublist listed ∧ parted.interfaces.Sublist listed := by
  refine ⟨ofDescription_names, ?_⟩
  intro names listed parted
  refine ⟨?read, ?perm, ?apart, List.filter_sublist, List.filter_sublist⟩
  case read =>
    have chosen (p : String → Bool) : listed.filter p =
        ((names.filter (p ∘ PlainName.text)).map PlainName.unqualified).map QualifiedName.text := by
      rw [List.filter_map, List.map_map]
      exact List.map_congr_left fun n _ => n.text_unqualified.symm
    have last (ns : List PlainName) : (ns.map PlainName.unqualified).map QualifiedName.text =
        (ns.map PlainName.unqualified).map (·.last.text) := by
      rw [List.map_map, List.map_map]
      exact List.map_congr_left fun n _ => n.text_unqualified
    have read := ofDescription_names
      ((names.filter ((!CSharp.isInterfaceName ·) ∘ PlainName.text)).map PlainName.unqualified)
      ((names.filter (CSharp.isInterfaceName ∘ PlainName.text)).map PlainName.unqualified)
    rw [← last, ← last, ← chosen, ← chosen] at read
    exact read
  case perm =>
    exact List.perm_append_comm.trans (List.filter_append_perm CSharp.isInterfaceName listed)
  case apart =>
    intro name member
    simp [parted, CSharp.partitionBases, member]

end Descriptions

end ComponentAtlas
