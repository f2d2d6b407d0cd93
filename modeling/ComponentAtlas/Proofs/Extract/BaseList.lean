import ComponentAtlas.Extract.CSharp
import ComponentAtlas.Proofs.Text.Matching
import ComponentAtlas.Proofs.Text.Words

/-!
Base lists against their grammar. A list is read character by character with a count of open angle
brackets. Told by the grammar, a type list inside of brackets leaves no trace, whatever it is nested
in, and outside of them every type leaves its text without type arguments. What is kept of that is
what stands behind the last dot, the blanks there included.
-/

namespace ComponentAtlas.CSharp

open Text Recognizer
open Cursor (between)

/-! The grammar. -/

def constraintWord : List Char := "where".toList

structure Identifier where
  chars : List Char
  nonempty : chars ≠ []
  word : ∀ c ∈ chars, isWord c = true
  unreserved : chars ≠ constraintWord

mutual

/-- Segments with dots between them. -/
inductive TypeName where
  | single (segment : Segment)
  | dotted (segment : Segment) (rest : TypeName)

/-- A name, possibly with type arguments. -/
inductive Segment where
  | plain (before : Gap) (name : Identifier) (after : Gap)
  | generic (before : Gap) (name : Identifier) (after : Gap) (arguments : TypeList) (behind : Gap)

/-- Types with commas between them. -/
inductive TypeList where
  | single (type : TypeName)
  | more (type : TypeName) (rest : TypeList)

end

mutual

def TypeName.text : TypeName → List Char
  | .single segment => segment.text
  | .dotted segment rest => segment.text ++ '.' :: rest.text

def Segment.text : Segment → List Char
  | .plain before name after => before.chars ++ name.chars ++ after.chars
  | .generic before name after arguments behind =>
    before.chars ++ name.chars ++ after.chars ++ '<' :: (arguments.text ++ '>' :: behind.chars)

def TypeList.text : TypeList → List Char
  | .single type => type.text
  | .more type rest => type.text ++ ',' :: rest.text

end

/-- The types outside of all brackets. -/
def TypeList.types : TypeList → List TypeName
  | .single type => [type]
  | .more type rest => type :: rest.types

def Segment.before : Segment → Gap
  | .plain before _ _ => before
  | .generic before _ _ _ _ => before

def Segment.name : Segment → Identifier
  | .plain _ name _ => name
  | .generic _ name _ _ _ => name

/-- The blanks behind the name, on both sides of the type arguments. -/
def Segment.after : Segment → List Char
  | .plain _ _ after => after.chars
  | .generic _ _ after _ behind => after.chars ++ behind.chars

/-- The text of a segment without its type arguments. -/
def Segment.shown (s : Segment) : List Char := s.before.chars ++ s.name.chars ++ s.after

def TypeName.shown : TypeName → List Char
  | .single segment => segment.shown
  | .dotted segment rest => segment.shown ++ '.' :: rest.shown

def TypeName.lastSegment : TypeName → Segment
  | .single segment => segment
  | .dotted _ rest => rest.lastSegment

def TypeName.lastName (t : TypeName) : List Char := t.lastSegment.name.chars

/-- The blanks between the last dot and the name behind it. -/
def TypeName.gapBehindDot : TypeName → List Char
  | .single _ => []
  | .dotted _ rest => rest.lastSegment.before.chars

/-- A list of types, with constraints behind it or not. -/
inductive BaseList where
  | plain (list : TypeList)
  | constrained (list : TypeList) (clause : List Char)
      (apart : list.text.getLast?.any isWord = false) (ends : clause.head?.any isWord = false)

def BaseList.list : BaseList → TypeList
  | .plain list => list
  | .constrained list _ _ _ => list

def BaseList.text : BaseList → List Char
  | .plain list => list.text
  | .constrained list clause _ _ => list.text ++ constraintWord ++ clause

/-! Marks, and what holds none of them. -/

/-- The characters that stand neither in a name nor in a gap. -/
def marks : List Char := ['.', ',', '<', '>']

theorem marks_apart : ∀ c ∈ marks, isWord c = false ∧ isBlank c = false := by
  have all : marks.all (fun c => !isWord c && !isBlank c) = true := by decide
  simpa using all

theorem not_mem_marks_of_isWord {c : Char} (h : isWord c = true) : c ∉ marks := fun mark =>
  Bool.noConfusion (h.symm.trans (marks_apart c mark).1)

theorem not_mem_marks_of_isBlank {c : Char} (h : isBlank c = true) : c ∉ marks := fun mark =>
  Bool.noConfusion (h.symm.trans (marks_apart c mark).2)

/-- A text without marks. -/
def Plain (s : List Char) : Prop := ∀ c ∈ s, c ∉ marks

theorem Plain.append {s t : List Char} (hs : Plain s) (ht : Plain t) : Plain (s ++ t) := fun c hc =>
  (List.mem_append.mp hc).elim (hs c) (ht c)

theorem Plain.ne_brackets {s : List Char} (h : Plain s) : ∀ c ∈ s, c ≠ '<' ∧ c ≠ '>' := fun c hc =>
  ⟨fun e => h c hc (e ▸ by decide), fun e => h c hc (e ▸ by decide)⟩

theorem Plain.ne_comma {s : List Char} (h : Plain s) : ∀ c ∈ s, c ≠ ',' := fun c hc e =>
  h c hc (e ▸ by decide)

theorem plain_gap (g : Gap) : Plain g.chars := fun c hc =>
  not_mem_marks_of_isBlank (g.blank c hc)

theorem Identifier.plain (i : Identifier) : Plain i.chars := fun c hc =>
  not_mem_marks_of_isWord (i.word c hc)

theorem plain_named (before : Gap) (name : Identifier) (after : Gap) :
    Plain (before.chars ++ name.chars ++ after.chars) :=
  ((plain_gap before).append name.plain).append (plain_gap after)

theorem Segment.blank_after (s : Segment) : ∀ c ∈ s.after, isBlank c = true := by
  intro c hc
  cases s with
  | plain _ _ after => exact after.blank c hc
  | generic _ _ after _ behind =>
      rcases List.mem_append.mp hc with inside | inside
      · exact after.blank c inside
      · exact behind.blank c inside

/-! The items outside of angle brackets. -/

section Items

variable {depth : Int} {item s rest : List Char}

/-- Inside of brackets only brackets count. -/
theorem topLevelItems_inside (inside : 0 < depth) (h : ∀ c ∈ s, c ≠ '<' ∧ c ≠ '>') :
    topLevelItems depth item (s ++ rest) = topLevelItems depth item rest := by
  have nonzero : depth ≠ 0 := by omega
  induction s with
  | nil => rfl
  | cons c s ih =>
      obtain ⟨no_open, no_close⟩ := h c List.mem_cons_self
      rw [List.cons_append, topLevelItems]
      simp only [beq_iff_eq, no_open, no_close, if_false, bne_iff_ne, ne_eq, nonzero,
        not_false_eq_true, if_true]
      exact ih fun d hd => h d (List.mem_cons_of_mem c hd)

theorem topLevelItems_separator (inside : 0 < depth) {c : Char} (h : c ≠ '<' ∧ c ≠ '>') :
    topLevelItems depth item (c :: rest) = topLevelItems depth item rest :=
  topLevelItems_inside (s := [c]) inside fun _ hd => List.mem_singleton.mp hd ▸ h

/-- Outside of brackets what holds no mark is kept. -/
theorem topLevelItems_outside (h : Plain s) :
    topLevelItems 0 item (s ++ rest) = topLevelItems 0 (s.reverse ++ item) rest := by
  induction s generalizing item with
  | nil => rfl
  | cons c s ih =>
      obtain ⟨no_open, no_close⟩ := h.ne_brackets c List.mem_cons_self
      have no_comma := h.ne_comma c List.mem_cons_self
      rw [List.cons_append, topLevelItems]
      simp only [beq_iff_eq, no_open, no_close, no_comma, if_false, bne_self_eq_false,
        Bool.false_eq_true]
      rw [ih fun d hd => h d (List.mem_cons_of_mem c hd)]
      simp

end Items

/-! A type list in brackets leaves nothing, however deep it stands. -/

mutual

theorem TypeName.inside (t : TypeName) {depth : Int} (h : 0 < depth) (item rest : List Char) :
    topLevelItems depth item (t.text ++ rest) = topLevelItems depth item rest :=
  match t with
  | .single segment => segment.inside h item rest
  | .dotted segment later => by
      have dot : topLevelItems depth item ('.' :: (later.text ++ rest)) =
          topLevelItems depth item (later.text ++ rest) :=
        topLevelItems_separator h (by decide)
      rw [TypeName.text, List.append_assoc, List.cons_append, segment.inside h, dot,
        later.inside h]

theorem Segment.inside (s : Segment) {depth : Int} (h : 0 < depth) (item rest : List Char) :
    topLevelItems depth item (s.text ++ rest) = topLevelItems depth item rest :=
  match s with
  | .plain before name after =>
      topLevelItems_inside h (plain_named before name after).ne_brackets
  | .generic before name after arguments behind => by
      have named := (plain_named before name after).ne_brackets
      have deeper : 0 < depth + 1 := by omega
      calc topLevelItems depth item
            ((Segment.generic before name after arguments behind).text ++ rest)
        _ = topLevelItems depth item
              ('<' :: (arguments.text ++ '>' :: (behind.chars ++ rest))) := by
            rw [Segment.text, List.append_assoc, topLevelItems_inside h named]
            simp
        _ = topLevelItems (depth + 1) item ('>' :: (behind.chars ++ rest)) :=
            arguments.inside deeper item _
        _ = topLevelItems (depth + 1 - 1) item (behind.chars ++ rest) := rfl
        _ = topLevelItems depth item rest := by
            rw [Int.add_sub_cancel, topLevelItems_inside h (plain_gap behind).ne_brackets]

theorem TypeList.inside (l : TypeList) {depth : Int} (h : 0 < depth) (item rest : List Char) :
    topLevelItems depth item (l.text ++ rest) = topLevelItems depth item rest :=
  match l with
  | .single type => type.inside h item rest
  | .more type later => by
      have comma : topLevelItems depth item (',' :: (later.text ++ rest)) =
          topLevelItems depth item (later.text ++ rest) :=
        topLevelItems_separator h (by decide)
      rw [TypeList.text, List.append_assoc, List.cons_append, type.inside h, comma,
        later.inside h]

end

/-! A type outside of brackets leaves its text without type arguments. -/

theorem Segment.outside (s : Segment) (item rest : List Char) :
    topLevelItems 0 item (s.text ++ rest) = topLevelItems 0 (s.shown.reverse ++ item) rest := by
  cases s with
  | plain before name after =>
      exact topLevelItems_outside (plain_named before name after)
  | generic before name after arguments behind =>
      have named := plain_named before name after
      generalize shape : before.chars ++ name.chars ++ after.chars = front at named
      calc topLevelItems 0 item ((Segment.generic before name after arguments behind).text ++ rest)
        _ = topLevelItems 0 item
            (front ++ '<' :: (arguments.text ++ '>' :: (behind.chars ++ rest))) := by
          rw [← shape]
          simp [Segment.text]
        _ = topLevelItems 0 (front.reverse ++ item)
            ('<' :: (arguments.text ++ '>' :: (behind.chars ++ rest))) :=
          topLevelItems_outside named
        _ = topLevelItems 1 (front.reverse ++ item) ('>' :: (behind.chars ++ rest)) :=
          arguments.inside Int.one_pos _ _
        _ = topLevelItems 0 (front.reverse ++ item) (behind.chars ++ rest) := rfl
        _ = _ := by
          rw [topLevelItems_outside (plain_gap behind), ← shape]
          simp [Segment.shown, Segment.before, Segment.name, Segment.after]

theorem TypeName.outside (t : TypeName) (item rest : List Char) :
    topLevelItems 0 item (t.text ++ rest) = topLevelItems 0 (t.shown.reverse ++ item) rest :=
  match t with
  | .single segment => segment.outside item rest
  | .dotted segment later => by
      have dot : topLevelItems 0 (segment.shown.reverse ++ item) ('.' :: (later.text ++ rest)) =
          topLevelItems 0 ('.' :: (segment.shown.reverse ++ item)) (later.text ++ rest) := rfl
      rw [TypeName.text, List.append_assoc, List.cons_append, segment.outside, dot,
        later.outside, TypeName.shown]
      simp

theorem TypeList.items (l : TypeList) : topLevelItems 0 [] l.text = l.types.map TypeName.shown :=
  match l with
  | .single type => by
      have whole := type.outside [] []
      rw [List.append_nil, List.append_nil] at whole
      simp [TypeList.text, TypeList.types, whole, topLevelItems]
  | .more type later => by
      have comma : topLevelItems 0 (type.shown.reverse ++ []) (',' :: later.text) =
          type.shown :: topLevelItems 0 [] later.text := by
        simp [topLevelItems]
      rw [TypeList.text, type.outside, comma, later.items, TypeList.types, List.map_cons]

/-! What is kept of an item. -/

theorem Segment.name_ends (s : Segment) :
    ∃ front last, s.name.chars = front ++ [last] ∧ isBlank last = false := by
  rcases List.eq_nil_or_concat s.name.chars with none | ⟨front, last, some⟩
  · exact absurd none s.name.nonempty
  · refine ⟨front, last, by rw [some, List.concat_eq_append], ?_⟩
    exact isBlank_of_isWord (s.name.word last (by simp [some]))

/-- Trimmed on the right, a segment ends with its name. -/
theorem Segment.trimRight (s : Segment) (front : List Char) :
    trimRightOf isBlank (front ++ (s.name.chars ++ s.after)) = front ++ s.name.chars := by
  obtain ⟨most, last, name, letter⟩ := s.name_ends
  have cut := trimRightOf_append_cons (front ++ most) letter s.blank_after
  rw [name]
  simpa using cut

theorem Segment.not_mem_dot (s : Segment) : '.' ∉ s.before.chars ++ s.name.chars := fun dot =>
  (plain_gap s.before).append s.name.plain '.' dot (by decide)

theorem trimLeft_gap (g : Gap) (name : Identifier) (rest : List Char) :
    trimLeft (g.chars ++ (name.chars ++ rest)) = name.chars ++ rest := by
  obtain ⟨c, chars, some⟩ := List.exists_cons_of_ne_nil name.nonempty
  have letter : isBlank c = false := isBlank_of_isWord (name.word c (by simp [some]))
  rw [trimLeft, List.dropWhile_append_of_pos g.blank, some, List.cons_append,
    List.dropWhile_cons_of_neg (by simp [letter])]

/-- What stands before a dot is trimmed by itself. -/
theorem trimLeft_dot (front rest : List Char) :
    trimLeft (front ++ '.' :: rest) = trimLeft front ++ '.' :: rest := by
  have dot : isBlank '.' = false := by decide
  rw [trimLeft, List.dropWhile_append, trimLeft]
  split
  · rename_i nothing
    rw [List.isEmpty_iff.mp nothing, List.dropWhile_cons_of_neg (by simp [dot]), List.nil_append]
  · rfl

theorem TypeName.shown_dotted (segment : Segment) (rest : TypeName) :
    ∃ front, (TypeName.dotted segment rest).shown = front ++ '.' :: rest.lastSegment.shown :=
  match rest with
  | .single last => ⟨segment.shown, rfl⟩
  | .dotted next later => by
      obtain ⟨front, split⟩ := TypeName.shown_dotted next later
      refine ⟨segment.shown ++ '.' :: front, ?_⟩
      rw [TypeName.shown, split, List.append_assoc, List.cons_append]
      rfl

theorem TypeName.kept (t : TypeName) :
    lastPiece '.' (trimChars t.shown) = t.gapBehindDot ++ t.lastName := by
  cases t with
  | single segment =>
      have name : '.' ∉ segment.name.chars := fun dot =>
        segment.not_mem_dot (List.mem_append_right _ dot)
      rw [TypeName.shown, Segment.shown, List.append_assoc, trimChars, trimLeft_gap,
        ← List.nil_append (segment.name.chars ++ _), segment.trimRight, List.nil_append,
        lastPiece_of_not_mem name]
      rfl
  | dotted segment rest =>
      obtain ⟨front, split⟩ := TypeName.shown_dotted segment rest
      have trimmed := rest.lastSegment.trimRight
        (trimLeft front ++ '.' :: rest.lastSegment.before.chars)
      rw [split, trimChars, trimLeft_dot, Segment.shown]
      simp only [List.append_assoc, List.cons_append] at trimmed ⊢
      rw [trimmed, lastPiece_append_cons _ rest.lastSegment.not_mem_dot]
      rfl

/-! The constraints start at their word, which stands nowhere in a type list. -/

/-- The word of constraints is not among the words of the text. -/
def Unconstrained (s : List Char) : Prop := constraintWord ∉ splitAt (fun c => !isWord c) s

instance : DecidablePred Unconstrained := fun _ => inferInstanceAs (Decidable (_ ∉ _))

theorem unconstrained_append_cons {c : Char} (h : isWord c = false) (front back : List Char) :
    Unconstrained (front ++ c :: back) ↔ Unconstrained front ∧ Unconstrained back := by
  rw [Unconstrained, splitAt_append_cons _ (by simp [h]), List.mem_append, not_or]
  rfl

theorem unconstrained_nil : Unconstrained [] := by decide

theorem unconstrained_cons {c : Char} (h : isWord c = false) (s : List Char) :
    Unconstrained (c :: s) ↔ Unconstrained s := by
  rw [← List.nil_append (c :: s), unconstrained_append_cons h]
  exact and_iff_right unconstrained_nil

theorem Identifier.unconstrained (i : Identifier) : Unconstrained i.chars := by
  rw [Unconstrained, splitAt_plain fun c hc => by simp [i.word c hc], List.mem_singleton]
  exact i.unreserved.symm

theorem Unconstrained.behind {gap s : List Char} (h : Unconstrained s)
    (blank : ∀ c ∈ gap, isBlank c = true) : Unconstrained (gap ++ s) := by
  induction gap with
  | nil => exact h
  | cons c gap ih =>
      have apart := isWord_of_isBlank (blank c List.mem_cons_self)
      exact (unconstrained_cons apart _).mpr (ih fun d hd => blank d (List.mem_cons_of_mem c hd))

theorem Unconstrained.before {gap s : List Char} (h : Unconstrained s)
    (blank : ∀ c ∈ gap, isBlank c = true) : Unconstrained (s ++ gap) := by
  cases gap with
  | nil => rwa [List.append_nil]
  | cons c gap =>
      have apart := isWord_of_isBlank (blank c List.mem_cons_self)
      have later := unconstrained_nil.behind fun d hd => blank d (List.mem_cons_of_mem c hd)
      rw [List.append_nil] at later
      exact (unconstrained_append_cons apart s gap).mpr ⟨h, later⟩

theorem unconstrained_named (before : Gap) (name : Identifier) (after : Gap) :
    Unconstrained (before.chars ++ name.chars ++ after.chars) :=
  (name.unconstrained.behind before.blank).before after.blank

mutual

theorem TypeName.unconstrained (t : TypeName) : Unconstrained t.text :=
  match t with
  | .single segment => segment.unconstrained
  | .dotted segment rest =>
      (unconstrained_append_cons (by decide) segment.text rest.text).mpr
        ⟨segment.unconstrained, rest.unconstrained⟩

theorem Segment.unconstrained (s : Segment) : Unconstrained s.text :=
  match s with
  | .plain before name after => unconstrained_named before name after
  | .generic before name after arguments behind => by
      have gap := unconstrained_nil.before behind.blank
      have arguments := (unconstrained_append_cons (c := '>') (by decide) _ _).mpr
        ⟨arguments.unconstrained, gap⟩
      exact (unconstrained_append_cons (by decide) _ _).mpr
        ⟨unconstrained_named before name after, arguments⟩

theorem TypeList.unconstrained (l : TypeList) : Unconstrained l.text :=
  match l with
  | .single type => type.unconstrained
  | .more type rest =>
      (unconstrained_append_cons (by decide) type.text rest.text).mpr
        ⟨type.unconstrained, rest.unconstrained⟩

end

theorem constraintWord_word : ∀ c ∈ constraintWord, isWord c = true :=
  List.all_eq_true.mp (by decide +kernel)

theorem head?_constraintWord (back : List Char) :
    (constraintWord ++ back).head?.any isWord = true := rfl

theorem getLast?_constraintWord (front : Option Char) :
    (constraintWord.getLast?.or front).any isWord = true := rfl

theorem not_unconstrained {front back : List Char} (before : front.getLast?.any isWord = false)
    (after : back.head?.any isWord = false) :
    ¬ Unconstrained (front ++ constraintWord ++ back) := by
  have alone : ¬ Unconstrained constraintWord := by decide
  have front_free : ¬ Unconstrained (front ++ constraintWord) := by
    rcases List.eq_nil_or_concat front with rfl | ⟨front, c, rfl⟩
    · exact alone
    · have apart : isWord c = false := by simpa using before
      rw [List.concat_eq_append, List.append_assoc, List.singleton_append,
        unconstrained_append_cons apart]
      exact fun both => alone both.2
  cases back with
  | nil => rwa [List.append_nil]
  | cons c back =>
      have apart : isWord c = false := by simpa using after
      rw [unconstrained_append_cons apart]
      exact fun both => front_free both.1

/-- The word of constraints with its edges. -/
def constraintMark : Recognizer Unit := do
  wordEdge
  literal "where"
  wordEdge

theorem beforeConstraints_eq (s : List Char) :
    beforeConstraints s = match constraintMark.first? s with
      | some m => s.take m.start.offset
      | none => s := rfl

theorem prefers_constraintMark {front back : List Char} (before : front.getLast?.any isWord = false)
    (after : back.head?.any isWord = false) :
    constraintMark.Prefers (between front (constraintWord ++ back)) ()
      (between (front ++ constraintWord) back) := by
  have starts : wordEdge.Prefers (between front (constraintWord ++ back)) () _ :=
    prefers_wordEdge (by rw [before, head?_constraintWord]; decide)
  have stops : wordEdge.Prefers (between (front ++ constraintWord) back) () _ :=
    prefers_wordEdge (by rw [after, List.getLast?_append, getLast?_constraintWord]; decide)
  exact starts.bind ((prefers_literal "where" front back).bind stops)

/-- Where the mark is found, its word stands between characters that are no part of words. -/
theorem constraintMark_at {front back : List Char} {m : Found Unit}
    (h : constraintMark.at? (between front back) = some m) :
    ∃ rest, back = constraintWord ++ rest ∧ front.getLast?.any isWord = false ∧
      rest.head?.any isWord = false := by
  have edge : wordEdge.Offers _ := offers_check _
  have form : constraintMark.Offers _ :=
    edge.bind fun _ => (offers_literal "where").bind fun _ => edge
  obtain ⟨_, _, _, ⟨starts, rfl⟩, _, d, ⟨split, reach⟩, stops, _⟩ := form.at h
  obtain ⟨passed, all, _, last⟩ := reach
  have word : passed = constraintWord := List.append_cancel_right (all.symm.trans split)
  have back_eq : back = constraintWord ++ d.rest := split
  refine ⟨d.rest, back_eq, ?_, ?_⟩
  · have edge := bne_iff_ne.mp starts
    rw [back_eq, between, head?_constraintWord] at edge
    simpa using edge
  · have edge := bne_iff_ne.mp stops
    rw [last, word, getLast?_constraintWord] at edge
    simpa using edge.symm

/-- No mark starts inside of an unconstrained text, not even one that would reach beyond it. -/
theorem constraintMark_at_none {front back behind : List Char}
    (free : Unconstrained (front ++ back)) (some_left : back ≠ [])
    (apart : behind = [] ∨ (front ++ back).getLast?.any isWord = false) :
    constraintMark.at? (between front (back ++ behind)) = none := by
  refine Option.eq_none_iff_forall_ne_some.mpr fun m found => ?_
  obtain ⟨rest, split, before, after⟩ := constraintMark_at found
  -- Either the mark reaches to the end of the text or beyond it, or it stands inside of the text.
  rcases List.append_eq_append_iff.mp split with ⟨tail, word, beyond⟩ | ⟨tail, here, later⟩
  · rcases apart with rfl | apart
    · obtain ⟨rfl, rfl⟩ := List.nil_eq_append_iff.mp beyond
      rw [List.append_nil] at word
      rw [← word, ← List.append_nil (front ++ _)] at free
      exact not_unconstrained before rfl free
    · obtain ⟨most, c, rfl⟩ := (List.eq_nil_or_concat back).resolve_left some_left
      have letter : isWord c = true := constraintWord_word c (by simp [word])
      simp [letter] at apart
  · rw [here, ← List.append_assoc] at free
    refine not_unconstrained before ?_ free
    cases tail with
    | nil => rfl
    | cons c tail => simpa [later] using after

theorem beforeConstraints_of_unconstrained {s : List Char} (h : Unconstrained s) :
    beforeConstraints s = s := by
  have passed := constraintMark.firstFrom_append [] s []
    fun front back split some_left => constraintMark_at_none (split ▸ h) some_left (.inl rfl)
  have none_left : constraintMark.at? (between s []) = none := by
    refine Option.eq_none_iff_forall_ne_some.mpr fun m found => ?_
    obtain ⟨rest, split, _⟩ := constraintMark_at found
    exact absurd split (by simp [constraintWord])
  have nothing : constraintMark.first? s = none := by
    rw [List.append_nil, List.nil_append] at passed
    exact passed.trans none_left
  rw [beforeConstraints_eq, nothing]

theorem beforeConstraints_of_constrained {s clause : List Char} (h : Unconstrained s)
    (apart : s.getLast?.any isWord = false) (ends : clause.head?.any isWord = false) :
    beforeConstraints (s ++ constraintWord ++ clause) = s := by
  have passed := constraintMark.firstFrom_append [] s (constraintWord ++ clause)
    fun front back split some_left =>
      constraintMark_at_none (split ▸ h) some_left (.inr (split ▸ apart))
  have found := firstFrom_of_at (prefers_constraintMark apart ends).at
  have mark : constraintMark.first? (s ++ (constraintWord ++ clause)) = some _ :=
    passed.trans found
  rw [List.append_assoc, beforeConstraints_eq, mark]
  exact List.take_left

theorem BaseList.beforeConstraints (l : BaseList) :
    CSharp.beforeConstraints l.text = l.list.text := by
  cases l with
  | plain list => exact beforeConstraints_of_unconstrained list.unconstrained
  | constrained list _ apart ends =>
      exact beforeConstraints_of_constrained list.unconstrained apart ends

theorem baseNames_text (l : BaseList) :
    baseNames l.text = l.list.types.map fun t => String.ofList (t.gapBehindDot ++ t.lastName) := by
  have named : ∀ t : TypeName, (t.gapBehindDot ++ t.lastName).isEmpty = false := fun t => by
    simp [TypeName.lastName, t.lastSegment.name.nonempty]
  have items : (topLevelItems 0 [] l.list.text).map (fun item => lastPiece '.' (trimChars item)) =
      l.list.types.map fun t => t.gapBehindDot ++ t.lastName := by
    simp only [l.list.items, List.map_map, Function.comp_def, TypeName.kept]
  simp only [baseNames, l.beforeConstraints, items]
  rw [List.filter_eq_self.mpr, List.map_map]
  · rfl
  · intro kept member
    obtain ⟨t, _, rfl⟩ := List.mem_map.mp member
    simp [named t]

/-- The names read off a base list are the last names of its types, in order, each with the blanks
that stand behind its dot. -/
theorem baseNames_eq_iff (l : BaseList) :
    (baseNames l.text = l.list.types.map fun t => String.ofList (t.gapBehindDot ++ t.lastName)) ∧
      ((baseNames l.text = l.list.types.map fun t => String.ofList t.lastName) ↔
        ∀ t ∈ l.list.types, t.gapBehindDot = []) := by
  refine ⟨baseNames_text l, ?_⟩
  rw [baseNames_text, List.map_inj_left]
  refine forall₂_congr fun t _ => ?_
  rw [String.ofList_inj, List.append_left_eq_self]

theorem baseNames_keeps_gap : ∃ l : BaseList, l.text = "System . IDisposable".toList ∧
    (l.list.types.map fun t => String.ofList t.lastName) = ["IDisposable"] ∧
    baseNames l.text = [" IDisposable"] := by
  let system : Identifier :=
    ⟨"System".toList, by decide, List.all_eq_true.mp (by decide +kernel), by decide⟩
  let disposable : Identifier :=
    ⟨"IDisposable".toList, by decide, List.all_eq_true.mp (by decide +kernel), by decide⟩
  exact ⟨.plain (.single (.dotted (.plain .empty system Break.space.toGap)
    (.single (.plain Break.space.toGap disposable .empty)))), by decide, by decide,
    by decide +kernel⟩

end ComponentAtlas.CSharp
