import Mathlib.Data.List.Infix
import ComponentAtlas.Extract.TypeScript.Markup
import ComponentAtlas.Proofs.Extract.Blocks
import ComponentAtlas.Proofs.Text.Pieces

/-!
Bodies of declarations. What is taken as a body is a piece of the text, and the window alone decides
where it starts and how long it may be. The piece is a bracket block within the window wherever
there is one to find. Any other piece is of bounded length, but may reach over the end of the
window, and just there the body depends on text behind the window.
-/

namespace ComponentAtlas.TypeScript

open Text

/-! Where a body is sought. -/

/-- The needle stands at place `n` of the text, and nowhere before. -/
structure FirstAt (needle s : List Char) (n : Nat) : Prop where
  here : needle <+: s.drop n
  earlier : ∀ k < n, ¬ needle <+: s.drop k

/-- Where the search for a brace begins: behind the parameters, if a parenthesis opens and closes
them, else at the parenthesis, and where there is none at once. -/
inductive ParametersEnd (window : List Char) : Nat → Prop
  | absent (none : '(' ∉ window) : ParametersEnd window 0
  | closed {paren n : Nat} (first : FirstAt ['('] window paren) (fits : paren + n ≤ window.length)
      (block : Block .paren ((window.drop paren).take n)) : ParametersEnd window (paren + n)
  | unclosed {paren : Nat} (first : FirstAt ['('] window paren)
      (never : ∀ p, p <+: window.drop paren → ¬ Block .paren p) : ParametersEnd window paren

def arrow : List Char := ['=', '>']

/-- Declarations are not searched for an arrow. -/
def HasArrow (isDeclaration : Bool) (window : List Char) : Prop :=
  isDeclaration = false ∧ arrow <:+: window.take arrowWindow

/-- The body is read from place `n` of the window on: behind the first arrow, or where there is none
from the first brace behind the parameters. -/
inductive Sought (isDeclaration : Bool) (window : List Char) : Nat → Prop
  | arrow {a : Nat} (function : isDeclaration = false)
      (first : FirstAt arrow (window.take arrowWindow) a) : Sought isDeclaration window (a + 2)
  | brace {p b : Nat} (no_arrow : ¬ HasArrow isDeclaration window)
      (parameters : ParametersEnd window p) (first : FirstAt ['{'] (window.drop p) b) :
      Sought isDeclaration window (p + b)

/-- Why no block is taken where the window goes on with `part`. -/
inductive NoBlockAt (part : List Char) : Prop
  | blank (blank : ∀ c ∈ part, isBlank c = true)
  | unbracketed {gap rest : List Char} {c : Char} (split : part = gap ++ c :: rest)
      (blank : ∀ d ∈ gap, isBlank d = true) (solid : isBlank c = false)
      (other : ∀ b : Bracket, c ≠ b.opener)
  | unclosed {gap rest : List Char} {b : Bracket} (split : part = gap ++ b.opener :: rest)
      (blank : ∀ d ∈ gap, isBlank d = true) (never : ∀ p, p <+: b.opener :: rest → ¬ Block b p)

/-- Why no block is taken as the body. -/
inductive NoBlock (isDeclaration : Bool) (window : List Char) : Prop
  | nowhere {p : Nat} (no_arrow : ¬ HasArrow isDeclaration window)
      (parameters : ParametersEnd window p) (no_brace : '{' ∉ window.drop p)
  | there {n : Nat} (sought : Sought isDeclaration window n) (none : NoBlockAt (window.drop n))

section Searching

variable {needle s : List Char} {n : Nat} {c : Char}

theorem find?_cons_of_here (here : needle <+: c :: s) : find? needle (c :: s) = some 0 := by
  obtain ⟨rest, split⟩ := here
  rw [find?, cutAt?, afterStart?_eq_some_iff.mpr split.symm]
  rfl

theorem find?_cons_of_elsewhere (h : ¬ needle <+: c :: s) :
    find? needle (c :: s) = (find? needle s).map (· + 1) := by
  have elsewhere : afterStart? needle (c :: s) = none :=
    Option.eq_none_iff_forall_ne_some.mpr fun rest found =>
      h ⟨rest, (afterStart?_eq_some_iff.mp found).symm⟩
  rw [find?, cutAt?, elsewhere, find?, Option.map_map, Option.map_map]
  rfl

theorem find?_nil (some_char : needle ≠ []) : find? needle [] = none := by
  obtain ⟨d, needle, rfl⟩ := List.exists_cons_of_ne_nil some_char
  rfl

theorem firstAt_of_find? (some_char : needle ≠ []) (h : find? needle s = some n) :
    FirstAt needle s n := by
  induction s generalizing n with
  | nil =>
      rw [find?_nil some_char] at h
      cases h
  | cons c s ih =>
      by_cases here : needle <+: c :: s
      · rw [find?_cons_of_here here] at h
        cases h
        exact ⟨here, fun k hk => absurd hk (Nat.not_lt_zero k)⟩
      · rw [find?_cons_of_elsewhere here] at h
        obtain ⟨m, found, rfl⟩ := Option.map_eq_some_iff.mp h
        obtain ⟨there, earlier⟩ := ih found
        refine ⟨there, fun k hk => ?_⟩
        cases k with
        | zero => exact here
        | succ k => exact earlier k (Nat.lt_of_succ_lt_succ hk)

theorem not_infix_of_find? (some_char : needle ≠ []) (h : find? needle s = none) :
    ¬ needle <:+: s := by
  induction s with
  | nil => simpa using some_char
  | cons c s ih =>
      by_cases here : needle <+: c :: s
      · rw [find?_cons_of_here here] at h
        cases h
      · rw [find?_cons_of_elsewhere here] at h
        rw [List.infix_cons_iff, not_or]
        exact ⟨here, ih (Option.map_eq_none_iff.mp h)⟩

theorem not_mem_of_find? (h : find? [c] s = none) : c ∉ s := by
  intro inside
  obtain ⟨before, after, split⟩ := List.append_of_mem inside
  exact not_infix_of_find? (List.cons_ne_nil c []) h ⟨before, after, by simp [split]⟩

theorem FirstAt.fits (h : FirstAt needle s n) (some_char : needle ≠ []) :
    n + needle.length ≤ s.length := by
  have length := h.here.length_le
  have some_left := List.length_pos_of_ne_nil some_char
  rw [List.length_drop] at length
  omega

theorem FirstAt.drop_eq (h : FirstAt [c] s n) : s.drop n = c :: s.drop (n + 1) := by
  obtain ⟨rest, split⟩ := h.here
  have behind := congrArg (List.drop 1) split
  rw [List.drop_drop] at behind
  rw [← split, ← behind]
  rfl

theorem parametersEnd_spec (window : List Char) : ParametersEnd window (parametersEnd window) := by
  unfold parametersEnd
  cases found : find? ['('] window with
  | none => exact .absent (not_mem_of_find? found)
  | some paren =>
      have first := firstAt_of_find? (List.cons_ne_nil _ _) found
      have shape : window.drop paren = Bracket.paren.opener :: window.drop (paren + 1) :=
        first.drop_eq
      dsimp only
      cases counted : closingLength? '(' ')' 0 (window.drop paren) with
      | none =>
          have never := closingLength?_eq_none_iff.mp (shape ▸ counted)
          exact .unclosed first (shape ▸ never)
      | some n =>
          have counted := closingLength?_block_iff.mp (shape ▸ counted)
          rw [← shape, List.length_drop] at counted
          have long := first.fits (List.cons_ne_nil _ _)
          rw [List.length_singleton] at long
          exact .closed first (by omega) counted.2

end Searching

/-! The window decides what is taken. -/

/-- A piece of a text by its start and its length; where the text ends before, the piece does. -/
structure Cut where
  start : Nat
  length : Nat

namespace Cut

def of (c : Cut) (text : List Char) : List Char := (text.drop c.start).take c.length

/-- The cut as seen from `n` characters before. -/
def behind (n : Nat) (c : Cut) : Cut := ⟨n + c.start, c.length⟩

theorem of_behind (n : Nat) (c : Cut) (text : List Char) :
    (c.behind n).of text = c.of (text.drop n) := by
  simp [of, behind, List.drop_drop]

/-- Within the start of a text the rest of the text does not matter. -/
theorem of_take {c : Cut} {n : Nat} (h : c.start + c.length ≤ n) (text : List Char) :
    c.of (text.take n) = c.of text := by
  rw [of, List.drop_take, List.take_take, Nat.min_eq_left (by omega), of]

theorem length_of_le (c : Cut) (text : List Char) : (c.of text).length ≤ c.length :=
  List.length_take_le _ _

/-- Where a cut ends that is taken from place `start` of a text of the given length. -/
def ending (c : Cut) (start length : Nat) : Nat := min (start + c.start + c.length) length

/-- A cut from a place of a text is what stands between two places of it. -/
theorem of_drop (c : Cut) (content : List Char) (start : Nat) :
    c.of (content.drop start) = (content.take (c.ending start content.length)).drop
      (min (start + c.start) content.length) := by
  rw [of, List.drop_drop]
  by_cases inside : start + c.start ≤ content.length
  · have reach : content.take (c.ending start content.length) =
        content.take (start + c.start + c.length) := by
      rw [List.take_eq_take_iff, ending]
      omega
    rw [Nat.min_eq_left inside, reach, List.drop_take, Nat.add_sub_cancel_left]
  · have behind : content.length ≤ start + c.start := Nat.le_of_not_le inside
    rw [Nat.min_eq_right behind, List.drop_eq_nil_of_le behind, List.take_nil,
      List.drop_eq_nil_of_le (List.length_take_le' _ _)]

end Cut

/-- The bracket that starts a block. -/
def bracket? (c : Char) : Option Bracket :=
  if c == '{' then some .brace else if c == '(' then some .paren else none

/-- How much is taken from a text that starts without a blank. -/
def blockLength : List Char → Nat
  | [] => fallbackChunk
  | c :: rest =>
    ((bracket? c).bind fun b => closingLength? b.opener b.closer 0 (c :: rest)).getD implicitChunk

/-- What is taken where a body is sought at the start of `part`, the rest of the window. -/
def cutAt (part : List Char) : Cut :=
  ⟨(part.takeWhile isBlank).length, blockLength (part.dropWhile isBlank)⟩

def sought? (isDeclaration : Bool) (window : List Char) : Option Nat :=
  match if isDeclaration then none else find? arrow (window.take arrowWindow) with
  | some a => some (a + 2)
  | none =>
    let p := parametersEnd window
    (find? ['{'] (window.drop p)).map (p + ·)

/-- What is taken as the body of a declaration of which the window shows the start. -/
def bodyCut (isDeclaration : Bool) (window : List Char) : Cut :=
  match sought? isDeclaration window with
  | none => ⟨0, fallbackChunk⟩
  | some n => (cutAt (window.drop n)).behind n

section Cutting

variable {isDeclaration : Bool} {window : List Char} {n : Nat}

theorem block?_getD (b : Bracket) (c : Char) (solid rest : List Char) :
    (block? b.opener b.closer (c :: solid ++ rest) (c :: solid).length).getD
        ((c :: solid ++ rest).take implicitChunk) =
      (c :: solid ++ rest).take
        ((closingLength? b.opener b.closer 0 (c :: solid)).getD implicitChunk) := by
  rw [block?, List.take_left, Option.getD_map]

theorem bodyAt_append (part rest : List Char) :
    bodyAt (part ++ rest) part.length = (cutAt part).of (part ++ rest) := by
  have whole : part.takeWhile isBlank ++ part.dropWhile isBlank = part :=
    List.takeWhile_append_dropWhile
  have room : part.length - (part.takeWhile isBlank).length =
      (part.dropWhile isBlank).length := by
    have sum := congrArg List.length whole
    rw [List.length_append] at sum
    omega
  have text : (part.takeWhile isBlank ++ part.dropWhile isBlank ++ rest).drop
      (part.takeWhile isBlank).length = part.dropWhile isBlank ++ rest := by
    rw [List.append_assoc, List.drop_left]
  rw [whole] at text
  simp only [bodyAt, List.take_left, text, room, Cut.of, cutAt]
  cases part.dropWhile isBlank with
  | nil => rfl
  | cons c solid =>
      simp only [blockLength, bracket?]
      by_cases brace : c = '{'
      · simpa [brace, Bracket.opener, Bracket.closer] using block?_getD .brace '{' solid rest
      · by_cases paren : c = '('
        · simpa [paren, Bracket.opener, Bracket.closer] using block?_getD .paren '(' solid rest
        · simp [brace, paren]

theorem not_hasArrow (h : (if isDeclaration then none
    else find? arrow (window.take arrowWindow)) = none) : ¬ HasArrow isDeclaration window := by
  rintro ⟨rfl, inside⟩
  exact not_infix_of_find? (by decide) h inside

theorem sought?_spec (h : sought? isDeclaration window = some n) :
    Sought isDeclaration window n := by
  rw [sought?] at h
  split at h
  · rename_i a found
    cases h
    cases isDeclaration with
    | true => cases found
    | false => exact .arrow rfl (firstAt_of_find? (by decide) found)
  · rename_i none
    obtain ⟨b, found, rfl⟩ := Option.map_eq_some_iff.mp h
    exact .brace (not_hasArrow none) (parametersEnd_spec window)
      (firstAt_of_find? (List.cons_ne_nil _ _) found)

theorem noBlock_of_sought? (h : sought? isDeclaration window = none) :
    NoBlock isDeclaration window := by
  rw [sought?] at h
  split at h
  · cases h
  · rename_i none
    exact .nowhere (not_hasArrow none) (parametersEnd_spec window)
      (not_mem_of_find? (Option.map_eq_none_iff.mp h))

theorem Sought.le (h : Sought isDeclaration window n) : n ≤ window.length := by
  cases h with
  | arrow function first =>
      have fits := first.fits (by decide)
      rw [List.length_take] at fits
      simp only [TypeScript.arrow, List.length_cons, List.length_nil] at fits
      omega
  | brace no_arrow parameters first =>
      have fits := first.fits (List.cons_ne_nil _ _)
      rw [List.length_drop, List.length_singleton] at fits
      omega

theorem bodyAt_drop {text : List Char} (h : n ≤ (text.take scanWindow).length) :
    bodyAt (text.drop n) ((text.take scanWindow).length - n) =
      ((cutAt ((text.take scanWindow).drop n)).behind n).of text := by
  have whole := List.take_append_drop scanWindow text
  have split : text.drop n = (text.take scanWindow).drop n ++ text.drop scanWindow := by
    conv_lhs => rw [← whole]
    exact List.drop_append_of_le_length h
  rw [Cut.of_behind, split, ← bodyAt_append, List.length_drop]

/-- What is taken as a body is decided by the window. -/
theorem functionBody_eq (isDeclaration : Bool) (text : List Char) :
    functionBody isDeclaration text = (bodyCut isDeclaration (text.take scanWindow)).of text := by
  -- Both searches end in a body that is read from a place within the window.
  have fits {n : Nat} (h : sought? isDeclaration (text.take scanWindow) = some n) :=
    bodyAt_drop (sought?_spec h).le
  simp only [functionBody, declarationBody, bodyCut]
  simp only [sought?, arrow] at fits ⊢
  generalize (if isDeclaration = true then none
    else find? ['=', '>'] ((text.take scanWindow).take arrowWindow)) = found at fits ⊢
  cases found with
  | some a => exact fits rfl
  | none =>
      dsimp only at fits ⊢
      generalize find? ['{'] ((text.take scanWindow).drop (parametersEnd (text.take scanWindow))) =
        place at fits ⊢
      cases place with
      | some b => exact fits rfl
      | none => rfl

end Cutting

/-! What is taken: a block within the window, or a short piece for a reason. -/

/-- A cut from a text that goes on with `part` up to the end of the window. -/
inductive Outcome (reason : Prop) (part : List Char) (cut : Cut) : Prop
  | block {b : Bracket} (block : Block b (cut.of part))
      (fits : cut.start + cut.length ≤ part.length)
  | piece (because : reason) (short : cut.length ≤ implicitChunk)
      (starts : cut.start ≤ part.length)
      (ends : cut.start + cut.length < part.length + implicitChunk)

section Outcomes

variable {reason : Prop} {cut : Cut} {isDeclaration : Bool} {window : List Char}

theorem Outcome.imp {reason' : Prop} {part : List Char} (h : Outcome reason part cut)
    (f : reason → reason') : Outcome reason' part cut := by
  cases h with
  | block block fits => exact .block block fits
  | piece because short starts ends => exact .piece (f because) short starts ends

theorem Outcome.behind {n : Nat} (h : Outcome reason (window.drop n) cut)
    (le : n ≤ window.length) : Outcome reason window (cut.behind n) := by
  cases h with
  | block block fits =>
      rw [List.length_drop] at fits
      rw [← Cut.of_behind] at block
      exact .block block (by simp only [Cut.behind]; omega)
  | piece because short starts ends =>
      rw [List.length_drop] at starts ends
      exact .piece because short (by simp only [Cut.behind]; omega)
        (by simp only [Cut.behind]; omega)

theorem eq_opener_of_bracket? {c : Char} {b : Bracket} (h : bracket? c = some b) :
    c = b.opener := by
  rw [bracket?] at h
  split at h
  · rename_i brace
    cases h
    exact beq_iff_eq.mp brace
  · split at h
    · rename_i paren
      cases h
      exact beq_iff_eq.mp paren
    · cases h

theorem ne_opener_of_bracket? {c : Char} (h : bracket? c = none) (b : Bracket) :
    c ≠ b.opener := by
  rintro rfl
  cases b <;> cases h

theorem cutAt_outcome (part : List Char) : Outcome (NoBlockAt part) part (cutAt part) := by
  have whole : part.takeWhile isBlank ++ part.dropWhile isBlank = part :=
    List.takeWhile_append_dropWhile
  have blank : ∀ d ∈ part.takeWhile isBlank, isBlank d = true := fun d hd =>
    List.mem_takeWhile_imp hd
  have solid : ∀ c ∈ (part.dropWhile isBlank).head?, isBlank c = false := fun c hc => by
    simpa [Option.mem_def.mp hc] using List.head?_dropWhile_not isBlank part
  rw [cutAt]
  generalize part.takeWhile isBlank = gap at whole blank
  generalize part.dropWhile isBlank = behind at whole solid
  subst whole
  have short : fallbackChunk < implicitChunk := by decide
  have some_chunk : 0 < implicitChunk := by decide
  cases behind with
  | nil =>
      rw [List.append_nil]
      refine .piece (.blank blank) (Nat.le_of_lt short) (Nat.le_refl _) ?_
      exact Nat.add_lt_add_left short _
  | cons c rest =>
      have solid := solid c rfl
      rw [blockLength]
      cases opens : bracket? c with
      | none =>
          refine .piece (.unbracketed rfl blank solid (ne_opener_of_bracket? opens))
            (Nat.le_refl _) ?_ ?_
          · simp
          · simp [Option.getD]
      | some b =>
          obtain rfl := eq_opener_of_bracket? opens
          rw [Option.bind_some]
          cases counted : closingLength? b.opener b.closer 0 (b.opener :: rest) with
          | none =>
              have never := closingLength?_eq_none_iff.mp counted
              refine .piece (.unclosed rfl blank never) (Nat.le_refl _) ?_ ?_
              · simp
              · simp [Option.getD]
          | some n =>
              obtain ⟨fits, block⟩ := closingLength?_block_iff.mp counted
              have taken : Cut.of ⟨gap.length, n⟩ (gap ++ b.opener :: rest) =
                  (b.opener :: rest).take n := by rw [Cut.of, List.drop_left]
              refine .block (b := b) (taken ▸ block) ?_
              simpa using fits

theorem bodyCut_outcome (isDeclaration : Bool) (window : List Char) :
    Outcome (NoBlock isDeclaration window) window (bodyCut isDeclaration window) := by
  rw [bodyCut]
  cases found : sought? isDeclaration window with
  | none =>
      have short : fallbackChunk < implicitChunk := by decide
      refine .piece (noBlock_of_sought? found) (Nat.le_of_lt short) (Nat.zero_le _) ?_
      show 0 + fallbackChunk < window.length + implicitChunk
      omega
  | some n =>
      have sought := sought?_spec found
      exact ((cutAt_outcome (window.drop n)).behind sought.le).imp (.there sought)

/-- The body of a declaration is a piece of the text behind its start, of bounded length and end. It
is a bracket block within the window, or a short piece where the window shows no block. -/
theorem functionBody_piece (isDeclaration : Bool) {content : List Char} {start : Nat}
    (h : start ≤ content.length) :
    let body := functionBody isDeclaration (content.drop start)
    let window := (content.drop start).take scanWindow
    ∃ first last, start ≤ first ∧ first ≤ last ∧ last ≤ content.length ∧
      body = (content.take last).drop first ∧
      last < start + scanWindow + implicitChunk ∧ body.length ≤ scanWindow ∧
      ((∃ b, Block b body) ∧ last ≤ start + scanWindow ∨
        body.length ≤ implicitChunk ∧ NoBlock isDeclaration window) := by
  intro body window
  have outcome := bodyCut_outcome isDeclaration window
  have taken : body = (bodyCut isDeclaration window).of (content.drop start) :=
    functionBody_eq isDeclaration _
  generalize bodyCut isDeclaration window = cut at outcome taken
  have window_le : window.length ≤ scanWindow := List.length_take_le _ _
  have some_chunk : 0 < implicitChunk := by decide
  have chunk_le : implicitChunk ≤ scanWindow := by decide
  have short := cut.length_of_le (content.drop start)
  have last_le : cut.ending start content.length ≤ start + cut.start + cut.length :=
    Nat.min_le_left _ _
  suffices cut.ending start content.length < start + scanWindow + implicitChunk ∧
      body.length ≤ scanWindow ∧
      ((∃ b, Block b body) ∧ cut.ending start content.length ≤ start + scanWindow ∨
        body.length ≤ implicitChunk ∧ NoBlock isDeclaration window) from
    ⟨min (start + cut.start) content.length, cut.ending start content.length, by omega,
      by rw [Cut.ending]; omega, Nat.min_le_right _ _, taken.trans (cut.of_drop content start),
      this⟩
  rw [taken]
  cases outcome with
  | block block fits =>
      rw [Cut.of_take (by omega)] at block
      exact ⟨by omega, by omega, .inl ⟨⟨_, block⟩, by omega⟩⟩
  | piece because brief starts ends =>
      exact ⟨by omega, by omega, .inr ⟨by omega, because⟩⟩

/-- A block in a block, behind the start of the text. -/
theorem functionBody_piece_nested :
    let content := "f(x => {a{b}c}) d".toList
    2 ≤ content.length ∧ ∃ first last, 2 ≤ first ∧ last ≤ content.length ∧
      (content.take last).drop first = "{a{b}c}".toList := by
  intro content
  have body : functionBody false (content.drop 2) = "{a{b}c}".toList := by decide +kernel
  have inside : 2 ≤ content.length := by decide
  obtain ⟨first, last, starts, _, ends, piece, _⟩ := functionBody_piece false inside
  exact ⟨inside, first, last, starts, ends, piece.symm.trans body⟩

end Outcomes

section Windows

variable {content other : List Char} {start : Nat}

/-- The texts are of one length and agree up to the end of the window. -/
structure SameWindow (start : Nat) (content other : List Char) : Prop where
  length : other.length = content.length
  upTo : other.take (start + scanWindow) = content.take (start + scanWindow)

theorem SameWindow.window (h : SameWindow start content other) :
    (other.drop start).take scanWindow = (content.drop start).take scanWindow := by
  have same := congrArg (List.drop start) h.upTo
  rwa [List.drop_take, List.drop_take, Nat.add_sub_cancel_left] at same

theorem exists_ne_char (c : Char) : ∃ d : Char, d ≠ c := by
  by_cases same : c = 'a'
  · exact ⟨'b', by rw [same]; decide⟩
  · exact ⟨'a', fun e => same e.symm⟩

/-- Behind the window a text can be changed at any place. -/
theorem exists_sameWindow (start : Nat) {n : Nat} (inside : n < content.length)
    (behind : start + scanWindow ≤ n) :
    ∃ other, SameWindow start content other ∧ other[n]? ≠ content[n]? := by
  obtain ⟨d, differs⟩ := exists_ne_char content[n]
  refine ⟨content.set n d, ⟨List.length_set, ?_⟩, ?_⟩
  · exact List.take_set_of_le behind
  · simpa [inside] using differs

/-- Pieces between the same places differ where one of the characters in them does. -/
theorem drop_take_ne {s t : List Char} {first last n : Nat} (from_ : first ≤ n) (upTo : n < last)
    (differs : s[n]? ≠ t[n]?) : (s.take last).drop first ≠ (t.take last).drop first := by
  intro same
  have there := congrArg (·[n - first]?) same
  simp only [List.getElem?_drop, Nat.add_sub_cancel' from_, List.getElem?_take_of_lt upTo] at there
  exact differs there

/-- Texts that agree up to the end of the window have their bodies at the same place. The bodies are
the same for all of them exactly where that place ends within the window. -/
theorem functionBody_local_iff (isDeclaration : Bool) (content : List Char) (start : Nat) :
    ∃ first last, first ≤ last ∧ last ≤ content.length ∧
      last < start + scanWindow + implicitChunk ∧
      (∀ other, SameWindow start content other →
        functionBody isDeclaration (other.drop start) = (other.take last).drop first) ∧
      ((∀ other, SameWindow start content other →
        functionBody isDeclaration (other.drop start) =
          functionBody isDeclaration (content.drop start)) ↔ last ≤ start + scanWindow) := by
  have outcome := bodyCut_outcome isDeclaration ((content.drop start).take scanWindow)
  have taken {other : List Char} (same : SameWindow start content other) :
      functionBody isDeclaration (other.drop start) =
        (bodyCut isDeclaration ((content.drop start).take scanWindow)).of (other.drop start) := by
    rw [functionBody_eq, same.window]
  generalize bodyCut isDeclaration ((content.drop start).take scanWindow) = cut at outcome taken
  have window_le : ((content.drop start).take scanWindow).length ≤ scanWindow :=
    List.length_take_le _ _
  have some_chunk : 0 < implicitChunk := by decide
  have reach : cut.start ≤ scanWindow ∧ cut.start + cut.length < scanWindow + implicitChunk := by
    cases outcome with
    | block block fits => omega
    | piece because brief starts ends => omega
  generalize ends : cut.ending start content.length = last
  generalize begins : min (start + cut.start) content.length = first
  have last_le : last ≤ content.length := ends ▸ Nat.min_le_right _ _
  have place {other : List Char} (same : SameWindow start content other) :
      functionBody isDeclaration (other.drop start) = (other.take last).drop first := by
    rw [taken same, cut.of_drop, same.length, ends, begins]
  have itself : SameWindow start content content := ⟨rfl, rfl⟩
  rw [Cut.ending] at ends
  refine ⟨first, last, by omega, last_le, by omega, fun _ same => place same, ?_, ?_⟩
  · intro same_body
    by_contra beyond
    have inside : last - 1 < content.length := by omega
    obtain ⟨other, same, differs⟩ := exists_sameWindow start inside (by omega)
    have apart : (other.take last).drop first ≠ (content.take last).drop first :=
      drop_take_ne (by omega) (by omega) differs
    exact apart (by rw [← place same, ← place itself, same_body other same])
  · intro within other same
    have upTo := congrArg (List.take last) same.upTo
    rw [List.take_take, List.take_take, Nat.min_eq_left within] at upTo
    rw [place same, place itself, upTo]

/-- Where blanks fill the window behind an arrow, the body is taken from behind the window. -/
theorem functionBody_of_blank_window {gap : List Char} (blank : ∀ c ∈ gap, isBlank c = true)
    (fills : (arrow ++ gap).length = scanWindow) (behind : List Char) :
    functionBody false (arrow ++ gap ++ behind) = behind.take fallbackChunk := by
  have window : (arrow ++ gap ++ behind).take scanWindow = arrow ++ gap := List.take_left' fills
  have found : find? arrow ((arrow ++ gap).take arrowWindow) = some 0 := by
    have short : arrow.take arrowWindow = arrow := by decide
    rw [List.take_append, short]
    exact find?_cons_of_here (List.prefix_append arrow _)
  have sought : sought? false (arrow ++ gap) = some arrow.length := by
    simp only [sought?, found, Bool.false_eq_true, if_false]
    rfl
  have cut : cutAt gap = ⟨gap.length, fallbackChunk⟩ := by
    rw [cutAt, List.takeWhile_eq_self_iff.2 blank, List.dropWhile_eq_nil_iff.2 blank]
    rfl
  have start : (Cut.behind arrow.length ⟨gap.length, fallbackChunk⟩).start = scanWindow := by
    rw [← fills, List.length_append, Cut.behind]
  rw [functionBody_eq, window, bodyCut, sought]
  dsimp only
  rw [List.drop_left, cut, Cut.of, start, List.drop_left' fills, Cut.behind]

/-- Two texts that agree up to the end of the window, and only one of the bodies has markup. -/
theorem functionBody_not_local :
    let content (behind : String) := arrow ++ List.replicate (scanWindow - 2) ' ' ++ behind.toList
    SameWindow 0 (content "ab") (content "<>") ∧
      hasMarkup (functionBody false ((content "ab").drop 0)) = false ∧
      hasMarkup (functionBody false ((content "<>").drop 0)) = true := by
  intro content
  have blank : ∀ c ∈ List.replicate (scanWindow - 2) ' ', isBlank c = true := by
    intro c hc
    rw [List.eq_of_mem_replicate hc]
    decide
  have fills : (arrow ++ List.replicate (scanWindow - 2) ' ').length = scanWindow := by
    rw [List.length_append, List.length_replicate]
    decide
  simp only [content]
  generalize List.replicate (scanWindow - 2) ' ' = gap at blank fills
  have markup (behind : String) (h : behind.toList.length ≤ fallbackChunk) :
      hasMarkup (functionBody false ((arrow ++ gap ++ behind.toList).drop 0)) =
        hasMarkup behind.toList := by
    rw [List.drop_zero, functionBody_of_blank_window blank fills, List.take_of_length_le h]
  refine ⟨⟨?_, ?_⟩, ?_, ?_⟩
  · simp
  · rw [Nat.zero_add, List.take_left' fills, List.take_left' fills]
  · rw [markup "ab" (by decide)]
    decide +kernel
  · rw [markup "<>" (by decide)]
    decide +kernel

end Windows

end ComponentAtlas.TypeScript
