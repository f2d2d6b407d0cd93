import ComponentAtlas.Proofs.Text.Matching

/-!
Searches over a text put together of pieces. A search goes over a piece in which no match starts,
and from a match that it finds it goes on behind that. What starts with a keyword starts nowhere in
a word unless the word ends with the keyword and the right text follows.
-/

namespace ComponentAtlas.Text

/-- With `rest` behind it, the text has the property from no place in it on. -/
def Absent (P : List Char → Prop) : List Char → List Char → Prop
  | [], _ => True
  | c :: s, rest => ¬ P (c :: s ++ rest) ∧ Absent P s rest

section Absent

variable {P : List Char → Prop} {s t rest : List Char}

@[simp]
theorem absent_append :
    Absent P (s ++ t) rest ↔ Absent P s (t ++ rest) ∧ Absent P t rest := by
  induction s with
  | nil => simp [Absent]
  | cons c s ih => simp [Absent, ih, and_assoc]

theorem absent_of_suffixes (h : ∀ front back, s = front ++ back → back ≠ [] → ¬ P (back ++ rest)) :
    Absent P s rest := by
  induction s with
  | nil => trivial
  | cons c s ih =>
      refine ⟨h [] (c :: s) rfl (List.cons_ne_nil c s), ih ?_⟩
      intro front back split some_left
      exact h (c :: front) back (congrArg (c :: ·) split) some_left

theorem Absent.not_behind (h : Absent P (s ++ t) rest) (nonempty : t ≠ []) : ¬ P (t ++ rest) := by
  obtain ⟨c, t, rfl⟩ := List.exists_cons_of_ne_nil nonempty
  exact (absent_append.mp h).2.1

/-- The keyword, and behind it a text with the property `Q`. -/
def Behind (keyword : List Char) (Q : List Char → Prop) (s : List Char) : Prop :=
  ∃ more, s = keyword ++ more ∧ Q more

/-- Blanks, if any, and behind them a text with the property. -/
def AfterGap (P : List Char → Prop) (s : List Char) : Prop :=
  ∃ gap : Gap, ∃ more, s = gap.chars ++ more ∧ P more

def AfterBreak (P : List Char → Prop) (s : List Char) : Prop :=
  ∃ gap : Break, ∃ more, s = gap.chars ++ more ∧ P more

variable {keyword : List Char} {Q : List Char → Prop}

/-- A keyword is not where its first character is not. -/
theorem absent_other {k : Char} (first : keyword.head? = some k) (other : k ∉ s) :
    Absent (Behind keyword Q) s rest := by
  refine absent_of_suffixes ?_
  rintro front back rfl some_left ⟨more, split, _⟩
  obtain ⟨c, back, rfl⟩ := List.exists_cons_of_ne_nil some_left
  obtain ⟨keyword, rfl⟩ := List.head?_eq_some_iff.mp first
  obtain ⟨rfl, _⟩ := List.cons.inj split
  exact other (List.mem_append_right front List.mem_cons_self)

/-- Runs of a class that go up to where the class ends are the same. -/
theorem eq_of_runs {p : Char → Bool} {run run' rest rest' : List Char} (h : ∀ c ∈ run, p c = true)
    (h' : ∀ c ∈ run', p c = true) (ends : rest.head?.any p = false)
    (ends' : rest'.head?.any p = false) (same : run ++ rest = run' ++ rest') :
    run = run' ∧ rest = rest' := by
  have runs := congrArg (List.takeWhile p) same
  rw [takeWhile_append_of_stop h ends, takeWhile_append_of_stop h' ends'] at runs
  exact ⟨runs, List.append_cancel_left (runs ▸ same)⟩

theorem AfterBreak.toGap (h : AfterBreak P s) : AfterGap P s :=
  let ⟨gap, more, split, follows⟩ := h
  ⟨gap.toGap, more, split, follows⟩

/-- What stands behind the blanks that a text starts with. -/
theorem AfterGap.behind {gap : List Char} (h : AfterGap P (gap ++ rest))
    (heads : ∀ more, P more → more.head?.any isBlank = false) (blank : ∀ c ∈ gap, isBlank c = true)
    (starts : rest.head?.any isBlank = false) : P rest := by
  obtain ⟨gap', more, split, follows⟩ := h
  obtain ⟨_, rfl⟩ := eq_of_runs blank gap'.blank starts (heads more follows) split
  exact follows

theorem AfterGap.of_solid (h : AfterGap P s) (solid : s.head?.any isBlank = false) : P s := by
  obtain ⟨⟨gap, blank⟩, more, rfl, follows⟩ := h
  cases gap with
  | nil => exact follows
  | cons b gap => exact Bool.noConfusion (solid.symm.trans (blank b List.mem_cons_self))

theorem Behind.head? {k : Char} (h : Behind keyword Q s) (start : keyword.head? = some k) :
    s.head? = some k := by
  obtain ⟨more, rfl, _⟩ := h
  rw [List.head?_append, start]
  rfl

theorem Behind.head?_any {k : Char} (h : Behind keyword Q s) (start : keyword.head? = some k)
    (solid : isBlank k = false) : s.head?.any isBlank = false := by
  rw [h.head? start]
  exact solid

/-- A keyword is not behind the blanks in front of another character. -/
theorem not_afterGap_behind {gap : List Char} {k y : Char} (start : keyword.head? = some k)
    (solid : isBlank k = false) (blank : ∀ c ∈ gap, isBlank c = true)
    (first : rest.head? = some y) (solid' : isBlank y = false) (other : y ≠ k) :
    ¬ AfterGap (Behind keyword Q) (gap ++ rest) := by
  intro h
  have found := h.behind (fun _ h => h.head?_any start solid) blank (by rw [first]; exact solid')
  exact other (Option.some.inj (first.symm.trans (found.head? start)))

theorem AfterBreak.stops (h : AfterBreak P s) : s.head?.any isWord = false := by
  obtain ⟨gap, more, rfl, _⟩ := h
  exact gap.head?_any more

theorem AfterBreak.head?_any (h : AfterBreak P s) : s.head?.any isBlank = true := by
  obtain ⟨gap, more, rfl, _⟩ := h
  obtain ⟨b, first, blank⟩ := gap.exists_head? more
  rw [first]
  exact blank

/-- A word, or the start of one, and behind it a text with the property. -/
def AfterWord (P : List Char → Prop) (s : List Char) : Prop :=
  ∃ w : Word, ∃ more, s = w.chars ++ more ∧ P more

theorem AfterWord.head?_any (h : AfterWord P s) : s.head?.any isWord = true := by
  obtain ⟨⟨chars, nonempty, word⟩, more, rfl, _⟩ := h
  obtain ⟨c, chars, rfl⟩ := List.exists_cons_of_ne_nil nonempty
  exact word c List.mem_cons_self

theorem AfterWord.solid (h : AfterWord P s) : s.head?.any isBlank = false := by
  obtain ⟨w, more, rfl, _⟩ := h
  exact w.head?_any more

/-- What stands behind the word that a text starts with. -/
theorem AfterWord.behind {run : List Char} (h : AfterWord P (run ++ rest))
    (stops : ∀ more, P more → more.head?.any isWord = false) (word : ∀ c ∈ run, isWord c = true)
    (ends : rest.head?.any isWord = false) : P rest := by
  obtain ⟨w, more, split, follows⟩ := h
  obtain ⟨_, rfl⟩ := eq_of_runs word w.word ends (stops more follows) split
  exact follows

/-- A keyword does not reach over a character that it does not hold. -/
theorem Behind.within {q : Char} (h : Behind keyword Q (s ++ q :: rest)) (other : q ∉ keyword) :
    ∃ back, s = keyword ++ back ∧ Q (back ++ q :: rest) := by
  obtain ⟨more, split, follows⟩ := h
  rcases List.append_eq_append_iff.mp split with ⟨j, whole, beyond⟩ | ⟨j, whole, beyond⟩
  · cases j with
    | nil => exact ⟨[], by rw [whole, List.append_nil, List.append_nil], beyond ▸ follows⟩
    | cons c j =>
        obtain ⟨rfl, _⟩ := List.cons.inj beyond
        exact absurd (whole ▸ List.mem_append_right s List.mem_cons_self) other
  · exact ⟨j, whole, beyond ▸ follows⟩

/-- A run of the class of its characters, where a keyword is found, is the keyword. -/
theorem Behind.of_run {p : Char → Bool} (h : Behind keyword Q (s ++ rest))
    (all : ∀ c ∈ keyword, p c = true) (run : ∀ c ∈ s, p c = true)
    (ends : rest.head?.any p = false) (stops : ∀ more, Q more → more.head?.any p = false) :
    s = keyword ∧ Q rest := by
  obtain ⟨more, split, follows⟩ := h
  obtain ⟨rfl, rfl⟩ := eq_of_runs run all ends (stops more follows) split
  exact ⟨rfl, follows⟩

/-- In a run of the class of its characters a keyword can only stand at the end. -/
theorem absent_run {p : Char → Bool} (all : ∀ c ∈ keyword, p c = true) (run : ∀ c ∈ s, p c = true)
    (ends : rest.head?.any p = false) (stops : ∀ more, Q more → more.head?.any p = false)
    (refused : ¬ Q rest) : Absent (Behind keyword Q) s rest := by
  refine absent_of_suffixes ?_
  rintro front back rfl _ found
  have inside : ∀ c ∈ back, p c = true := fun c hc => run c (List.mem_append_right front hc)
  exact refused (found.of_run all inside ends stops).2

/-- A run that is shorter than the keyword does not hold it. -/
theorem absent_short {p : Char → Bool} (all : ∀ c ∈ keyword, p c = true)
    (run : ∀ c ∈ s, p c = true) (ends : rest.head?.any p = false)
    (stops : ∀ more, Q more → more.head?.any p = false) (short : s.length < keyword.length) :
    Absent (Behind keyword Q) s rest := by
  refine absent_of_suffixes ?_
  rintro front back rfl _ found
  have inside : ∀ c ∈ back, p c = true := fun c hc => run c (List.mem_append_right front hc)
  obtain ⟨rfl, _⟩ := found.of_run all inside ends stops
  rw [List.length_append] at short
  omega

/-- A keyword with a blank behind it is not found in a text without blanks. -/
theorem absent_unspaced {q : Char} (blank : ∀ more, Q more → more.head?.any isBlank = true)
    (solid : ∀ c ∈ s, isBlank c = false) (other : q ∉ keyword) (ends : isBlank q = false)
    (rest : List Char) : Absent (Behind keyword Q) s (q :: rest) := by
  refine absent_of_suffixes ?_
  rintro front back rfl _ found
  obtain ⟨more, rfl, follows⟩ := found.within other
  have starts := blank _ follows
  cases more with
  | nil => exact Bool.noConfusion (ends.symm.trans starts)
  | cons c more =>
      have inside := solid c (List.mem_append_right _ (List.mem_append_right _ List.mem_cons_self))
      exact Bool.noConfusion (inside.symm.trans starts)

/-- Blanks in front of a keyword that stands nowhere are found nowhere. -/
theorem absent_afterGap (nonempty : keyword ≠ []) (h : Absent (Behind keyword Q) s []) :
    Absent (AfterGap (Behind keyword Q)) s [] := by
  refine absent_of_suffixes ?_
  rintro front back rfl _ ⟨gap, more, split, ⟨beyond, rfl, follows⟩⟩
  have some_left : keyword ++ beyond ≠ [] := by simp [nonempty]
  rw [List.append_nil] at split
  rw [split, ← List.append_assoc] at h
  exact h.not_behind some_left ⟨beyond, List.append_nil _, follows⟩

theorem absent_of_not_within (h : ¬ keyword <:+: s) : Absent (Behind keyword Q) s [] := by
  refine absent_of_suffixes ?_
  rintro front back rfl _ ⟨more, split, _⟩
  rw [List.append_nil] at split
  exact h ⟨front, more, by rw [List.append_assoc, split]⟩

/-- A text without the keyword goes on with it, and no end of the keyword starts as it does. -/
theorem absent_before (borderless : ∀ j, j <:+ keyword → j <+: keyword → j = [] ∨ j = keyword)
    (h : ¬ keyword <:+: s) (rest : List Char) : Absent (Behind keyword Q) s (keyword ++ rest) := by
  refine absent_of_suffixes ?_
  rintro front back rfl some_left ⟨more, split, _⟩
  rcases List.append_eq_append_iff.mp split with ⟨j, whole, beyond⟩ | ⟨j, whole, _⟩
  · have ends : j <:+ keyword := ⟨back, whole.symm⟩
    have starts : j <+: keyword :=
      List.prefix_of_prefix_length_le ⟨more, beyond.symm⟩ (List.prefix_append _ _) ends.length_le
    rcases borderless j ends starts with rfl | rfl
    · rw [List.append_nil] at whole
      exact h ⟨front, [], by rw [whole, List.append_nil]⟩
    · exact some_left (List.append_left_eq_self.mp whole.symm)
  · exact h ⟨front, j, by rw [whole, List.append_assoc]⟩

end Absent

namespace Recognizer

open Cursor (between)

variable {α β γ : Type} {r : Recognizer α} {P : List Char → Prop} {before passed rest : List Char}

/-- The matches behind `before`, from left to right. -/
def allBehind (r : Recognizer α) (before rest : List Char) : List (Found α) :=
  r.allFrom before.length before.getLast? before.length rest

theorem allFrom_of_le (r : Recognizer α) {resume : Nat} {b : Option Char} {n : Nat}
    (h : resume ≤ n) (s : List Char) : r.allFrom resume b n s = r.allFrom n b n s := by
  cases s with
  | nil => rw [allFrom, allFrom, if_neg (by omega), if_neg (by omega)]
  | cons x s =>
      rw [allFrom, allFrom, if_neg (by omega), if_neg (by omega)]
      cases r.at? ⟨b, n, x :: s⟩ with
      | some m => rfl
      | none => exact (allFrom_of_le r (by omega) s).trans (allFrom_of_le r (by omega) s).symm

theorem all_eq_allBehind (r : Recognizer α) (s : List Char) : r.all s = r.allBehind [] s := rfl

theorem allBehind_cons_of_none {x : Char} (h : r.at? (between before (x :: rest)) = none) :
    r.allBehind before (x :: rest) = r.allBehind (before ++ [x]) rest := by
  have here : r.at? ⟨before.getLast?, before.length, x :: rest⟩ = none := h
  rw [allBehind, allFrom, if_neg (Nat.lt_irrefl _), here, allBehind, List.getLast?_concat,
    List.length_append, List.length_singleton]
  exact allFrom_of_le r (Nat.le_succ _) rest

theorem at?_eq_none (h : r.Offers fun c _ _ => P c.rest) (no : ¬ P rest) :
    r.at? (between before rest) = none := by
  refine Option.eq_none_iff_forall_ne_some.mpr fun m found => no ?_
  exact (h.at found).2

theorem allBehind_nil (h : r.Offers fun c _ _ => P c.rest) (no : ¬ P []) (before : List Char) :
    r.allBehind before [] = [] := by
  have here : r.at? ⟨before.getLast?, before.length, []⟩ = none := at?_eq_none h no
  rw [allBehind, allFrom, if_neg (Nat.lt_irrefl _), here]
  rfl

section Starts

variable {f : α → Recognizer β} {Q : List Char → Prop}

/-- How the text starts where the first part of a form matches. -/
theorem Offers.starts (h : r.Offers fun c _ _ => P c.rest) [∀ a, Forward (f a)] :
    (r >>= f).Offers fun c _ _ => P c.rest :=
  (h.bind fun _ => Forward.offers).imp fun _ _ _ ⟨_, _, here, _⟩ => here

theorem Offers.optional_bind {f : Option α → Recognizer β} (h : r.Offers fun c _ _ => P c.rest)
    [∀ a, Forward (f a)] (next : (f none).Offers fun c _ _ => P c.rest) :
    (Recognizer.optional r >>= f).Offers fun c _ _ => P c.rest where
  way {_ c accept b} found := by
    have found : (r.offer c fun a d => (f (some a)).offer d accept).or
        ((f none).offer c accept) = some b := Option.or_eq_orElse.trans found
    rcases Option.or_eq_some_iff.mp found with first | ⟨_, second⟩
    · obtain ⟨a, d, here, later⟩ := h.way first
      obtain ⟨x, e, _, answer⟩ := Forward.offers.way later
      exact ⟨x, e, here, answer⟩
    · exact next.way second

theorem offers_literal_bind {f : Unit → Recognizer β} (word : String)
    (next : (f ()).Offers fun c _ _ => Q c.rest) :
    (literal word >>= f).Offers fun c _ _ => Behind word.toList Q c.rest :=
  ((offers_literal word).bind fun _ => next).imp
    fun _ _ _ ⟨_, d, ⟨split, _⟩, follows⟩ => ⟨d.rest, split, follows⟩

theorem offers_blanks_bind {f : Unit → Recognizer β}
    (next : (f ()).Offers fun c _ _ => Q c.rest) :
    (blanks >>= f).Offers fun c _ _ => AfterGap Q c.rest :=
  ((offers_many isBlank).bind fun _ => next).imp
    fun _ _ _ ⟨_, d, ⟨run, blank, split⟩, follows⟩ => ⟨⟨run, blank⟩, d.rest, split, follows⟩

theorem offers_blanks1_bind {f : Unit → Recognizer β}
    (next : (f ()).Offers fun c _ _ => Q c.rest) :
    (blanks1 >>= f).Offers fun c _ _ => AfterBreak Q c.rest := by
  refine ((offers_many1 isBlank).bind fun _ => next).imp ?_
  rintro _ _ _ ⟨_, d, ⟨x, run, first, blank, split⟩, follows⟩
  exact ⟨⟨⟨x :: run, List.forall_mem_cons.mpr ⟨first, blank⟩⟩, List.cons_ne_nil x run⟩, d.rest,
    split, follows⟩

/-- Blanks, and a form behind them of which nothing more is said. -/
theorem offers_blanks1_any {f : Unit → Recognizer β} [Forward (f ())] :
    (blanks1 >>= f).Offers fun c _ _ => AfterBreak (fun _ => True) c.rest :=
  offers_blanks1_bind (Q := fun _ => True) (Forward.offers.imp fun _ _ _ _ => trivial)

end Starts

/-- A search goes over a stretch in which nothing is found. -/
theorem allBehind_append_of_absent (h : r.Offers fun c _ _ => P c.rest)
    (absent : Absent P passed rest) (before : List Char) :
    r.allBehind before (passed ++ rest) = r.allBehind (before ++ passed) rest := by
  induction passed generalizing before with
  | nil => rw [List.append_nil, List.nil_append]
  | cons x passed ih =>
      have first : r.at? (between before (x :: (passed ++ rest))) = none := at?_eq_none h absent.1
      rw [List.cons_append, allBehind_cons_of_none first, ih absent.2, List.append_assoc,
        List.singleton_append]

theorem all_eq_nil (h : r.Offers fun c _ _ => P c.rest) (absent : Absent P passed [])
    (no : ¬ P []) : r.all passed = [] := by
  have passing := allBehind_append_of_absent h absent []
  rw [List.append_nil] at passing
  rw [all_eq_allBehind, passing]
  exact allBehind_nil h no _

/-- The first match stands behind a stretch in which nothing is found. -/
theorem first?_append_of_absent (h : r.Offers fun c _ _ => P c.rest)
    (absent : Absent P passed rest) {m : Found α} (found : r.at? (between passed rest) = some m) :
    r.first? (passed ++ rest) = some m := by
  have passing := firstFrom_append (r := r) [] passed rest fun front back split some_left =>
    at?_eq_none h ((split ▸ absent).not_behind some_left)
  exact passing.trans (firstFrom_of_at found)

theorem allBehind_ne_nil_of_at {m : Found α} (h : r.at? (between before rest) = some m) :
    r.allBehind before rest ≠ [] := by
  cases rest with
  | nil =>
      have here : r.at? ⟨before.getLast?, before.length, []⟩ = some m := h
      rw [allBehind, allFrom, if_neg (Nat.lt_irrefl _), here]
      exact List.cons_ne_nil _ _
  | cons x rest =>
      have here : r.at? ⟨before.getLast?, before.length, x :: rest⟩ = some m := h
      rw [allBehind, allFrom, if_neg (Nat.lt_irrefl _), here]
      exact List.cons_ne_nil _ _

/-- A search finds something where there is a match somewhere. -/
theorem allBehind_ne_nil (before : List Char) {m : Found α}
    (h : r.at? (between (before ++ passed) rest) = some m) :
    r.allBehind before (passed ++ rest) ≠ [] := by
  induction passed generalizing before with
  | nil =>
      rw [List.append_nil] at h
      exact allBehind_ne_nil_of_at h
  | cons x passed ih =>
      rw [List.cons_append]
      cases here : r.at? (between before (x :: (passed ++ rest))) with
      | none =>
          rw [allBehind_cons_of_none here]
          exact ih (before ++ [x]) (by rwa [List.append_assoc])
      | some first => exact allBehind_ne_nil_of_at here

/-- Nothing starts before the place where a search resumes. -/
theorem allFrom_skip (r : Recognizer α) (before passed rest : List Char) :
    r.allFrom (before ++ passed).length before.getLast? before.length (passed ++ rest) =
      r.allBehind (before ++ passed) rest := by
  induction passed generalizing before with
  | nil => rw [List.append_nil, List.nil_append, allBehind]
  | cons x passed ih =>
      have later := ih (before ++ [x])
      simp only [List.append_assoc, List.singleton_append, List.getLast?_concat] at later
      have skipped : before.length < (before ++ x :: passed).length := by simp
      rw [List.cons_append, allFrom, if_pos skipped, ← later, List.length_append,
        List.length_append, List.length_singleton]

/-- A search goes on behind a match. -/
theorem allBehind_of_at {m : Found α} (found : r.at? (between before (passed ++ rest)) = some m)
    (stop : m.stop = between (before ++ passed) rest) (nonempty : passed ≠ []) :
    r.allBehind before (passed ++ rest) = m :: r.allBehind (before ++ passed) rest := by
  obtain ⟨x, passed, rfl⟩ := List.exists_cons_of_ne_nil nonempty
  have here : r.at? ⟨before.getLast?, before.length, x :: (passed ++ rest)⟩ = some m := found
  have later := allFrom_skip r (before ++ [x]) passed rest
  simp only [List.append_assoc, List.singleton_append, List.getLast?_concat] at later
  have resume : m.stop.offset = (before ++ x :: passed).length := by rw [stop]; rfl
  rw [List.cons_append, allBehind, allFrom, if_neg (Nat.lt_irrefl _), here, ← later, ← resume,
    List.length_append, List.length_singleton]

/-- What is found in a text of blocks, where each block is searched by itself. -/
theorem flatMap_allBehind_blocks {f : Found α → List β} {text : γ → List Char} {g : γ → List β}
    (blocks : List γ) (before rest : List Char)
    (each : ∀ b ∈ blocks, ∀ before rest, (r.allBehind before (text b ++ rest)).flatMap f =
      g b ++ (r.allBehind (before ++ text b) rest).flatMap f) :
    (r.allBehind before (blocks.flatMap text ++ rest)).flatMap f =
      blocks.flatMap g ++ (r.allBehind (before ++ blocks.flatMap text) rest).flatMap f := by
  induction blocks generalizing before with
  | nil => simp
  | cons b blocks ih =>
      have later := ih (before ++ text b) fun b' hb' => each b' (List.mem_cons_of_mem b hb')
      rw [List.flatMap_cons, List.append_assoc, each b List.mem_cons_self, later,
        List.flatMap_cons, List.append_assoc, List.append_assoc]

end Recognizer

end ComponentAtlas.Text
