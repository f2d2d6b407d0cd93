import Mathlib.Data.List.Basic
import ComponentAtlas.Text.Recognizer

/-!
What recognizers offer. A recognizer answers with one of its ways of matching, and each way goes
forward over the text: the place after a match is reached from the place before it. So every match
that a search finds lies in the text.
-/

namespace ComponentAtlas.Text

/-- `d` is where one gets from `c` over the next characters of the text. -/
def Cursor.Reaches (c d : Cursor) : Prop :=
  ∃ passed, c.rest = passed ++ d.rest ∧ d.offset = c.offset + passed.length ∧
    d.before = passed.getLast?.or c.before

namespace Cursor

theorem Reaches.refl (c : Cursor) : c.Reaches c := ⟨[], rfl, rfl, rfl⟩

theorem Reaches.trans {c d e : Cursor} (h : c.Reaches d) (h' : d.Reaches e) : c.Reaches e := by
  obtain ⟨first, rest, offset, before⟩ := h
  obtain ⟨second, rest', offset', before'⟩ := h'
  refine ⟨first ++ second, ?_, ?_, ?_⟩
  · rw [rest, rest', List.append_assoc]
  · rw [offset', offset, List.length_append, Nat.add_assoc]
  · rw [before', before, List.getLast?_append, Option.or_assoc]

theorem reaches_next (before : Option Char) (offset : Nat) (x : Char) (rest : List Char) :
    Reaches ⟨before, offset, x :: rest⟩ ⟨some x, offset + 1, rest⟩ := ⟨[x], rfl, rfl, rfl⟩

/-- A place of a text: what stands before it and after it make up the text. -/
theorem place_of_reaches {s : List Char} {c : Cursor} (h : (start s).Reaches c) :
    ∃ before, s = before ++ c.rest ∧ c.offset = before.length ∧ c.before = before.getLast? := by
  obtain ⟨passed, rest, offset, before⟩ := h
  exact ⟨passed, rest, by simpa [start] using offset, by simpa [start] using before⟩

end Cursor

namespace Recognizer

variable {α β : Type}

/-- Every answer of `r` comes from a way of matching that `P` allows. -/
structure Offers (r : Recognizer α) (P : Cursor → α → Cursor → Prop) : Prop where
  way : ∀ {β : Type} {c : Cursor} {accept : α → Cursor → Option β} {b : β},
    r.offer c accept = some b → ∃ a d, P c a d ∧ accept a d = some b

/-- `r` only goes forward. -/
class Forward (r : Recognizer α) : Prop where
  offers : r.Offers fun c _ d => c.Reaches d

section Ways

variable {r s : Recognizer α} {P Q : Cursor → α → Cursor → Prop}

theorem Offers.imp (h : r.Offers P) (sub : ∀ c a d, P c a d → Q c a d) : r.Offers Q where
  way found := by
    obtain ⟨a, d, way, answer⟩ := h.way found
    exact ⟨a, d, sub _ a d way, answer⟩

theorem offers_pure (a : α) : (pure a : Recognizer α).Offers fun c x d => x = a ∧ d = c :=
  ⟨fun found => ⟨a, _, ⟨rfl, rfl⟩, found⟩⟩

theorem Offers.bind {f : α → Recognizer β} {R : α → Cursor → β → Cursor → Prop}
    (h : r.Offers P) (next : ∀ a, (f a).Offers (R a)) :
    (r >>= f).Offers fun c b e => ∃ a d, P c a d ∧ R a d b e where
  way {_ c accept e} found := by
    have found : r.offer c (fun a d => (f a).offer d accept) = some e := found
    obtain ⟨a, d, way, rest⟩ := h.way found
    obtain ⟨b, e, way', answer⟩ := (next a).way rest
    exact ⟨b, e, ⟨a, d, way, way'⟩, answer⟩

theorem Offers.either (h : r.Offers P) (h' : s.Offers P) : (r.either s).Offers P where
  way {_ c accept b} found := by
    have found : (r.offer c accept).or (s.offer c accept) = some b :=
      Option.or_eq_orElse.trans found
    rcases Option.or_eq_some_iff.mp found with first | ⟨_, second⟩
    · exact h.way first
    · exact h'.way second

theorem Offers.optional (h : r.Offers P) :
    (optional r).Offers fun c a? d => (∃ a, a? = some a ∧ P c a d) ∨ (a? = none ∧ d = c) where
  way {_ c accept b} found := by
    have found : (r.offer c fun a d => accept (some a) d).or (accept none c) = some b :=
      Option.or_eq_orElse.trans found
    rcases Option.or_eq_some_iff.mp found with first | ⟨_, without⟩
    · obtain ⟨a, d, way, answer⟩ := h.way first
      exact ⟨some a, d, .inl ⟨a, rfl, way⟩, answer⟩
    · exact ⟨none, c, .inr ⟨rfl, rfl⟩, without⟩

theorem Offers.captured (h : r.Offers P) :
    (captured r).Offers fun c span d => span.start = c ∧ ∃ a, P c a d where
  way {_ c accept b} found := by
    have found : r.offer c (fun _ d => accept ⟨c, d.offset - c.offset⟩ d) = some b := found
    obtain ⟨a, d, way, answer⟩ := h.way found
    exact ⟨_, d, ⟨rfl, a, way⟩, answer⟩

theorem offers_oneOf (p : Char → Bool) :
    (oneOf p).Offers fun c x d => p x = true ∧ c.rest = x :: d.rest ∧ c.Reaches d where
  way {_ c _ _} found := by
    obtain ⟨before, offset, rest⟩ := c
    cases rest with
    | nil => cases found
    | cons x rest =>
        by_cases holds : p x = true
        · refine ⟨x, _, ⟨holds, rfl, Cursor.reaches_next before offset x rest⟩, ?_⟩
          simpa [oneOf, holds] using found
        · simp [oneOf, holds] at found

theorem offers_exactly (x : Char) :
    (exactly x).Offers fun c _ d => c.rest = x :: d.rest ∧ c.Reaches d := by
  have form : (exactly x).Offers _ := (offers_oneOf (· == x)).bind fun _ => offers_pure ()
  refine form.imp ?_
  rintro c _ _ ⟨y, d, ⟨same, rest, forward⟩, _, rfl⟩
  exact ⟨beq_iff_eq.mp same ▸ rest, forward⟩

theorem afterLiteral_eq_some {needle : List Char} {c d : Cursor}
    (h : afterLiteral needle c = some d) : c.rest = needle ++ d.rest ∧ c.Reaches d := by
  induction needle generalizing c with
  | nil =>
      cases h
      exact ⟨rfl, .refl _⟩
  | cons n needle ih =>
      obtain ⟨before, offset, rest⟩ := c
      cases rest with
      | nil => cases h
      | cons x rest =>
          by_cases same : x = n
          · subst same
            obtain ⟨split, forward⟩ := ih (by simpa [afterLiteral] using h)
            have step := Cursor.reaches_next before offset x rest
            exact ⟨congrArg (x :: ·) split, step.trans forward⟩
          · simp [afterLiteral, same] at h

theorem offers_literal (word : String) :
    (literal word).Offers fun c _ d => c.rest = word.toList ++ d.rest ∧ c.Reaches d where
  way {_ c _ _} found := by
    dsimp only [literal] at found
    cases after : afterLiteral word.toList c with
    | none => simp [after] at found
    | some d => exact ⟨(), d, afterLiteral_eq_some after, by simpa [after] using found⟩

theorem reaches_of_mem_stepsOnto {p : Char → Bool} {before : Option Char} {offset : Nat}
    {rest : List Char} {found : List Cursor} {d : Cursor}
    (h : d ∈ stepsOnto p before offset rest found) :
    d ∈ found ∨ Cursor.Reaches ⟨before, offset, rest⟩ d := by
  induction rest generalizing before offset found with
  | nil =>
      rcases List.mem_cons.mp h with rfl | earlier
      · exact .inr (.refl _)
      · exact .inl earlier
  | cons x rest ih =>
      have here : d ∈ ⟨before, offset, x :: rest⟩ :: found →
          d ∈ found ∨ Cursor.Reaches ⟨before, offset, x :: rest⟩ d := by
        intro member
        rcases List.mem_cons.mp member with rfl | earlier
        · exact .inr (.refl _)
        · exact .inl earlier
      rw [stepsOnto] at h
      split at h
      · rcases ih h with earlier | later
        · exact here earlier
        · exact .inr ((Cursor.reaches_next before offset x rest).trans later)
      · exact here h

theorem reaches_of_mem_steps {p : Char → Bool} {c d : Cursor} (h : d ∈ steps p c) : c.Reaches d :=
  (reaches_of_mem_stepsOnto h).resolve_left List.not_mem_nil

/-- Places that are tried one after another. -/
theorem offers_findSome (places : Cursor → List Cursor)
    (h : ∀ c, ∀ d ∈ places c, c.Reaches d) :
    Offers ⟨fun c accept => (places c).findSome? (accept ())⟩ fun c _ d => c.Reaches d where
  way {_ c _ _} found := by
    obtain ⟨d, member, answer⟩ := List.exists_of_findSome?_eq_some found
    exact ⟨(), d, h c d member, answer⟩

/-- A condition on the place, over which nothing is passed. -/
theorem offers_check (holds : Cursor → Bool) :
    Offers ⟨fun c accept => if holds c then accept () c else none⟩
      fun c _ d => holds c = true ∧ d = c where
  way {_ c accept b} found := by
    by_cases here : holds c = true
    · exact ⟨(), c, ⟨here, rfl⟩, by simpa only [here, if_true] using found⟩
    · simp [here] at found

theorem offers_lineStart :
    lineStart.Offers fun c _ d => c.before.all (· == '\n') = true ∧ d = c := offers_check _

theorem offers_notFollowedBy (r : Recognizer α) :
    (notFollowedBy r).Offers fun c _ d => r.matchesAt c = false ∧ d = c where
  way {_ c accept b} found := by
    have found : (if r.matchesAt c then none else accept () c) = some b := found
    split at found
    · cases found
    · rename_i refused
      exact ⟨(), c, ⟨Bool.eq_false_iff.mpr refused, rfl⟩, found⟩

end Ways

section Instances

variable {r s : Recognizer α} {f : α → Recognizer β}

instance (a : α) : Forward (pure a : Recognizer α) where
  offers := (offers_pure a).imp fun c _ _ h => h.2 ▸ .refl c

instance [hr : Forward r] [hf : ∀ a, Forward (f a)] : Forward (r >>= f) where
  offers := (hr.offers.bind fun a => (hf a).offers).imp
    fun _ _ _ ⟨_, _, first, second⟩ => first.trans second

instance [hr : Forward r] [hs : Forward s] : Forward (r <|> s) := ⟨hr.offers.either hs.offers⟩

instance [hr : Forward r] : Forward (optional r) where
  offers := hr.offers.optional.imp fun c _ _ way => by
    rcases way with ⟨_, _, forward⟩ | ⟨_, rfl⟩
    · exact forward
    · exact .refl _

instance [hr : Forward r] : Forward (captured r) where
  offers := hr.offers.captured.imp fun _ _ _ ⟨_, _, forward⟩ => forward

/-- However often `r` is repeated, each repetition goes forward. -/
instance [hr : Forward r] : Forward (repeated r) where
  offers.way {_ c accept b} found := by
    have run : ∀ (budget : List Char) (c : Cursor), repeatAtMost r accept budget c = some b →
        ∃ d, c.Reaches d ∧ accept () d = some b := by
      intro budget
      induction budget with
      | nil => exact fun c answer => ⟨c, .refl c, answer⟩
      | cons _ budget ih =>
          intro c answer
          rw [repeatAtMost, ← Option.or_eq_orElse, Option.or_eq_some_iff] at answer
          rcases answer with once | ⟨_, stop⟩
          · obtain ⟨_, d, first, more⟩ := hr.offers.way once
            split at more
            · cases more
            · obtain ⟨e, later, last⟩ := ih d more
              exact ⟨e, first.trans later, last⟩
          · exact ⟨c, .refl c, stop⟩
    obtain ⟨d, forward, last⟩ := run c.rest c found
    exact ⟨(), d, forward, last⟩

instance (p : Char → Bool) : Forward (oneOf p) := ⟨(offers_oneOf p).imp fun _ _ _ h => h.2.2⟩

instance (x : Char) : Forward (exactly x) := ⟨(offers_exactly x).imp fun _ _ _ h => h.2⟩

instance (word : String) : Forward (literal word) :=
  ⟨(offers_literal word).imp fun _ _ _ h => h.2⟩

instance (words : List String) : Forward (anyOf words) := by
  induction words with
  | nil => exact ⟨⟨fun found => nomatch found⟩⟩
  | cons word words ih =>
      unfold anyOf
      infer_instance

instance (p : Char → Bool) : Forward (many p) :=
  ⟨offers_findSome (steps p) fun _ _ => reaches_of_mem_steps⟩

instance (p : Char → Bool) : Forward (many1 p) := by
  unfold many1
  infer_instance

instance (p : Char → Bool) : Forward (fewest1 p) := by
  have fewest : Forward ⟨fun c accept => (steps p c).reverse.findSome? (accept ())⟩ :=
    ⟨offers_findSome (fun c => (steps p c).reverse)
      fun _ _ member => reaches_of_mem_steps (List.mem_reverse.mp member)⟩
  unfold fewest1
  infer_instance

instance : Forward lineStart := ⟨offers_lineStart.imp fun c _ _ h => h.2 ▸ .refl c⟩

instance : Forward wordEdge := ⟨(offers_check _).imp fun c _ _ h => h.2 ▸ .refl c⟩

instance : Forward lineEnd := ⟨(offers_check _).imp fun c _ _ h => h.2 ▸ .refl c⟩

instance : Forward (notFollowedBy r) :=
  ⟨(offers_notFollowedBy r).imp fun c _ _ h => h.2 ▸ .refl c⟩

instance : Forward blanks := inferInstanceAs (Forward (many isBlank))

instance : Forward blanks1 := inferInstanceAs (Forward (many1 isBlank))

instance : Forward word := inferInstanceAs (Forward (captured (many1 isWord)))

end Instances

section Search

variable {r : Recognizer α} {P : Cursor → α → Cursor → Prop}

theorem Offers.at (h : r.Offers P) {c : Cursor} {m : Found α} (found : r.at? c = some m) :
    m.start = c ∧ P c m.value m.stop := by
  obtain ⟨a, d, way, answer⟩ := h.way found
  cases answer
  exact ⟨rfl, way⟩

theorem Offers.mem_allFrom (h : r.Offers P) {resume : Nat} {c : Cursor} {m : Found α}
    (found : m ∈ r.allFrom resume c.before c.offset c.rest) :
    c.Reaches m.start ∧ P m.start m.value m.stop := by
  obtain ⟨before, offset, rest⟩ := c
  induction rest generalizing resume before offset with
  | nil =>
      rw [allFrom] at found
      split at found
      · cases found
      · obtain ⟨same, way⟩ := h.at (Option.mem_toList.mp found)
        exact ⟨same ▸ .refl _, same ▸ way⟩
  | cons x rest ih =>
      have step := Cursor.reaches_next before offset x rest
      have later : ∀ resume, m ∈ r.allFrom resume (some x) (offset + 1) rest →
          Cursor.Reaches ⟨before, offset, x :: rest⟩ m.start ∧ P m.start m.value m.stop := by
        intro resume found
        obtain ⟨further, way⟩ := ih (some x) (offset + 1) found
        exact ⟨step.trans further, way⟩
      rw [allFrom] at found
      split at found
      · exact later _ found
      · cases here : r.at? ⟨before, offset, x :: rest⟩ with
        | none => exact later _ (by simpa [here] using found)
        | some first =>
            rw [here, List.mem_cons] at found
            rcases found with rfl | found
            · obtain ⟨same, way⟩ := h.at here
              exact ⟨same ▸ .refl _, same ▸ way⟩
            · exact later _ found

/-- Each match stands at a place of the text and is one that is offered there. -/
theorem Offers.mem_all (h : r.Offers P) {s : List Char} {m : Found α} (found : m ∈ r.all s) :
    (Cursor.start s).Reaches m.start ∧ P m.start m.value m.stop :=
  h.mem_allFrom (c := Cursor.start s) found

end Search

end Recognizer

end ComponentAtlas.Text
