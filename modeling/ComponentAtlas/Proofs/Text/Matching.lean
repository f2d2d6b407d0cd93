import ComponentAtlas.Proofs.Text.Recognizer
import ComponentAtlas.Proofs.Text.Words

/-!
Which way a recognizer takes. It prefers a way where whatever accepts the end of that way gets it,
and it refuses a place from which it has no way at all. Over a text put together of pieces a form is
followed piece by piece, and a search finds the form where it stands, unless an earlier match
reaches into it.
-/

namespace ComponentAtlas.Text

/-- The place between two parts of a text. -/
def Cursor.between (before after : List Char) : Cursor := ⟨before.getLast?, before.length, after⟩

/-- The piece `passed` of a text, between what stands before it and what follows. -/
def Span.between (before passed after : List Char) : Span :=
  ⟨.between before (passed ++ after), passed.length⟩

theorem Span.chars_between (before passed after : List Char) :
    (Span.between before passed after).chars = passed := List.take_left

namespace Recognizer

open Cursor (between)

variable {α β : Type} {r s : Recognizer α} {c d : Cursor} {a : α}

/-- Whatever accepts `a` at `d` gets it from `c`: other ways of `r` come later, if at all. -/
structure Prefers (r : Recognizer α) (c : Cursor) (a : α) (d : Cursor) : Prop where
  offer : ∀ {β : Type} {accept : α → Cursor → Option β} {b : β},
    accept a d = some b → r.offer c accept = some b

/-- `r` has no way of matching at `c`. -/
structure Refuses (r : Recognizer α) (c : Cursor) : Prop where
  offer : ∀ {β : Type} (accept : α → Cursor → Option β), r.offer c accept = none

theorem Offers.refuses {P : Cursor → α → Cursor → Prop} (h : r.Offers P)
    (no_way : ∀ a d, ¬ P c a d) : r.Refuses c where
  offer accept := by
    refine Option.eq_none_iff_forall_ne_some.mpr fun b found => ?_
    obtain ⟨a, d, way, _⟩ := h.way found
    exact no_way a d way

section Ways

theorem Prefers.bind {f : α → Recognizer β} {b : β} {e : Cursor} (h : r.Prefers c a d)
    (next : (f a).Prefers d b e) : (r >>= f).Prefers c b e where
  offer accepted := h.offer (next.offer accepted)

/-- A form goes on behind the way that its first part prefers. -/
theorem Prefers.then {f : α → Recognizer β} {γ : Type} {accept : β → Cursor → Option γ} {b : γ}
    (h : r.Prefers c a d) (next : (f a).offer d accept = some b) :
    (r >>= f).offer c accept = some b := h.offer next

theorem prefers_pure (a : α) (c : Cursor) : (pure a : Recognizer α).Prefers c a c := ⟨id⟩

theorem Prefers.either (h : r.Prefers c a d) : (r <|> s).Prefers c a d where
  offer {_ accept _} accepted := by
    change (r.offer c accept).orElse (fun _ => s.offer c accept) = _
    rw [h.offer accepted]
    rfl

theorem Prefers.optional (h : r.Prefers c a d) : (optional r).Prefers c (some a) d where
  offer {_ accept _} accepted := by
    change (r.offer c fun a d => accept (some a) d).orElse (fun _ => accept none c) = _
    rw [h.offer accepted]
    rfl

theorem Refuses.optional (h : r.Refuses c) : (optional r).Prefers c none c where
  offer {_ accept _} accepted := by
    change (r.offer c fun a d => accept (some a) d).orElse (fun _ => accept none c) = _
    rw [h.offer, accepted]
    rfl

theorem Refuses.notFollowedBy (h : r.Refuses c) : (notFollowedBy r).Prefers c () c where
  offer {_ accept _} accepted := by
    have refused : r.matchesAt c = false := by rw [matchesAt, h.offer]; rfl
    change (if r.matchesAt c then none else accept () c) = _
    rw [refused, if_neg Bool.false_ne_true, accepted]

/-- An optional part is taken where what follows accepts that. -/
theorem offer_optional {f : Option α → Recognizer β} {γ : Type} {accept : β → Cursor → Option γ}
    {b : γ} (h : (r.offer c fun a d => (f (some a)).offer d accept) = some b) :
    (optional r >>= f).offer c accept = some b := by
  change (r.offer c fun a d => (f (some a)).offer d accept).orElse
    (fun _ => (f none).offer c accept) = _
  rw [h]
  rfl

theorem Prefers.captured {before passed after : List Char}
    (h : r.Prefers (between before (passed ++ after)) a (between (before ++ passed) after)) :
    (captured r).Prefers (between before (passed ++ after)) (.between before passed after)
      (between (before ++ passed) after) where
  offer {_ accept b} accepted := by
    have length : (before ++ passed).length - before.length = passed.length := by
      rw [List.length_append]
      omega
    have here : accept ⟨between before (passed ++ after),
        (between (before ++ passed) after).offset - (between before (passed ++ after)).offset⟩
        (between (before ++ passed) after) = some b := by
      simp only [between, length]
      exact accepted
    exact h.offer here

theorem prefers_check {holds : Cursor → Bool} (h : holds c = true) :
    Prefers ⟨fun c accept => if holds c then accept () c else none⟩ c () c where
  offer {_ accept _} accepted := by
    change (if holds c then accept () c else none) = _
    rw [if_pos h, accepted]

theorem prefers_lineStart {before after : List Char}
    (h : before.getLast?.all (· == '\n') = true) :
    lineStart.Prefers (between before after) () (between before after) := prefers_check h

theorem prefers_wordEdge {before after : List Char}
    (h : before.getLast?.any isWord ≠ after.head?.any isWord) :
    wordEdge.Prefers (between before after) () (between before after) :=
  prefers_check (c := between before after) (bne_iff_ne.mpr h)

end Ways

section Characters

variable {p : Char → Bool} {x : Char} {before run rest : List Char}

theorem between_next (before rest : List Char) (x : Char) :
    (⟨some x, before.length + 1, rest⟩ : Cursor) = between (before ++ [x]) rest := by
  simp [between]

theorem prefers_oneOf (h : p x = true) :
    (oneOf p).Prefers (between before (x :: rest)) x (between (before ++ [x]) rest) where
  offer {_ accept _} accepted := by
    rw [← between_next] at accepted
    simpa [oneOf, between, h] using accepted

theorem prefers_exactly (x : Char) (before rest : List Char) :
    (exactly x).Prefers (between before (x :: rest)) () (between (before ++ [x]) rest) :=
  have one : (oneOf (· == x)).Prefers _ x _ := prefers_oneOf (beq_self_eq_true x)
  one.bind (prefers_pure () _)

theorem afterLiteral_between (needle before rest : List Char) :
    afterLiteral needle (between before (needle ++ rest)) =
      some (between (before ++ needle) rest) := by
  induction needle generalizing before with
  | nil => simp [afterLiteral]
  | cons n needle ih =>
      have step := ih (before ++ [n])
      rw [← between_next, List.append_assoc] at step
      simpa [afterLiteral, between] using step

theorem prefers_literal (word : String) (before rest : List Char) :
    (literal word).Prefers (between before (word.toList ++ rest)) ()
      (between (before ++ word.toList) rest) where
  offer accepted := by simpa [literal, afterLiteral_between] using accepted

theorem offers_anyOf (words : List String) :
    (anyOf words).Offers fun c _ d => ∃ w ∈ words, c.rest = w.toList ++ d.rest := by
  induction words with
  | nil =>
      refine ⟨fun found => ?_⟩
      cases found
  | cons w words ih =>
      refine ((offers_literal w).imp ?_).either (ih.imp ?_)
      · rintro c _ d ⟨split, _⟩
        exact ⟨w, List.mem_cons_self, split⟩
      · rintro c _ d ⟨w', member, split⟩
        exact ⟨w', List.mem_cons_of_mem w member, split⟩

theorem steps_between (h : ∀ y ∈ run, p y = true) (stop : rest.head?.any p = false)
    (before : List Char) (found : List Cursor) :
    ∃ more, stepsOnto p before.getLast? before.length (run ++ rest) found =
      between (before ++ run) rest :: more := by
  induction run generalizing before found with
  | nil =>
      rw [List.append_nil, List.nil_append]
      cases rest with
      | nil => exact ⟨found, rfl⟩
      | cons y rest =>
          have other : p y = false := by simpa using stop
          exact ⟨found, by simp [stepsOnto, other, between]⟩
  | cons y run ih =>
      have here : p y = true := h y List.mem_cons_self
      obtain ⟨more, last⟩ := ih (fun z hz => h z (List.mem_cons_of_mem y hz)) (before ++ [y])
        (between before (y :: (run ++ rest)) :: found)
      refine ⟨more, ?_⟩
      rw [List.cons_append, stepsOnto, if_pos here]
      simpa [between] using last

/-- As many characters of a class as there are. -/
theorem prefers_many (h : ∀ y ∈ run, p y = true) (stop : rest.head?.any p = false) :
    (many p).Prefers (between before (run ++ rest)) () (between (before ++ run) rest) where
  offer {_ accept _} accepted := by
    obtain ⟨more, places⟩ := steps_between h stop before []
    have first : steps p (between before (run ++ rest)) = between (before ++ run) rest :: more :=
      places
    simp only [many, first, List.findSome?_cons, accepted]

theorem prefers_many1 (nonempty : run ≠ []) (h : ∀ y ∈ run, p y = true)
    (stop : rest.head?.any p = false) :
    (many1 p).Prefers (between before (run ++ rest)) () (between (before ++ run) rest) := by
  obtain ⟨x, run, rfl⟩ := List.exists_cons_of_ne_nil nonempty
  have later : (many p).Prefers (between (before ++ [x]) (run ++ rest)) ()
      (between (before ++ [x] ++ run) rest) :=
    prefers_many (fun y hy => h y (List.mem_cons_of_mem x hy)) stop
  rw [List.append_assoc] at later
  exact (prefers_oneOf (h x List.mem_cons_self)).bind later

theorem prefers_blanks (h : ∀ y ∈ run, isBlank y = true) (stop : rest.head?.any isBlank = false) :
    blanks.Prefers (between before (run ++ rest)) () (between (before ++ run) rest) :=
  prefers_many h stop

theorem prefers_blanks1 (gap : Break) (stop : rest.head?.any isBlank = false) :
    blanks1.Prefers (between before (gap.chars ++ rest)) () (between (before ++ gap.chars) rest) :=
  prefers_many1 gap.nonempty gap.blank stop

theorem prefers_word (name : Word) (stop : rest.head?.any isWord = false) :
    word.Prefers (between before (name.chars ++ rest)) (.between before name.chars rest)
      (between (before ++ name.chars) rest) :=
  (prefers_many1 name.nonempty name.word stop).captured

theorem mem_stepsOnto_run {b : Option Char} {n : Nat} {found : List Cursor}
    (h : d ∈ stepsOnto p b n rest found) :
    d ∈ found ∨ ∃ run, (∀ y ∈ run, p y = true) ∧ rest = run ++ d.rest := by
  induction rest generalizing b n found with
  | nil =>
      rcases List.mem_cons.mp h with rfl | earlier
      · exact .inr ⟨[], by simp, rfl⟩
      · exact .inl earlier
  | cons x rest ih =>
      have here : d ∈ ⟨b, n, x :: rest⟩ :: found →
          d ∈ found ∨ ∃ run, (∀ y ∈ run, p y = true) ∧ x :: rest = run ++ d.rest := by
        intro member
        rcases List.mem_cons.mp member with rfl | earlier
        · exact .inr ⟨[], by simp, rfl⟩
        · exact .inl earlier
      rw [stepsOnto] at h
      split at h
      · rename_i holds
        rcases ih h with earlier | ⟨run, all, split⟩
        · exact here earlier
        · exact .inr ⟨x :: run, by simpa [holds] using all, congrArg (x :: ·) split⟩
      · exact here h

theorem offers_many (p : Char → Bool) :
    (many p).Offers fun c _ d => ∃ run, (∀ y ∈ run, p y = true) ∧ c.rest = run ++ d.rest where
  way found := by
    obtain ⟨d, member, answer⟩ := List.exists_of_findSome?_eq_some found
    exact ⟨(), d, (mem_stepsOnto_run member).resolve_left List.not_mem_nil, answer⟩

theorem offers_many1 (p : Char → Bool) :
    (many1 p).Offers fun c _ d =>
      ∃ x run, p x = true ∧ (∀ y ∈ run, p y = true) ∧ c.rest = x :: run ++ d.rest := by
  have form : (many1 p).Offers _ := (offers_oneOf p).bind fun _ => offers_many p
  refine form.imp ?_
  rintro c _ e ⟨x, d, ⟨holds, first, _⟩, run, all, later⟩
  exact ⟨x, run, holds, all, by rw [first, later, List.cons_append]⟩

theorem suffix_stepsOnto (b : Option Char) (n : Nat) (rest : List Char) (found : List Cursor) :
    found <:+ stepsOnto p b n rest found := by
  induction rest generalizing b n found with
  | nil => exact List.suffix_cons _ _
  | cons x rest ih =>
      rw [stepsOnto]
      split
      · exact (List.suffix_cons _ _).trans (ih (some x) (n + 1) _)
      · exact List.suffix_cons _ _

/-- Places are tried one by one from the nearest on; those before the first one that is accepted
are the places inside of `run`. -/
theorem findSome_steps {f : Cursor → Option β} {b : β} (h : ∀ y ∈ run, p y = true)
    (refused : ∀ i j, run = i ++ j → j ≠ [] → f (between (before ++ i) (j ++ rest)) = none)
    (accepted : f (between (before ++ run) rest) = some b) (found : List Cursor)
    (earlier : found.reverse.findSome? f = none) :
    (stepsOnto p before.getLast? before.length (run ++ rest) found).reverse.findSome? f =
      some b := by
  -- The places come with the last one first, so what is tried first stands at the end of `found`.
  induction run generalizing before found with
  | nil =>
      rw [List.append_nil] at accepted
      have places : between before rest :: found <:+
          stepsOnto p before.getLast? before.length rest found := by
        cases rest with
        | nil => exact List.suffix_refl _
        | cons y rest =>
            rw [stepsOnto]
            split
            · exact suffix_stepsOnto _ _ _ _
            · exact List.suffix_refl _
      obtain ⟨more, split⟩ := places
      rw [List.nil_append, ← split, List.reverse_append, List.reverse_cons, List.append_assoc,
        List.findSome?_append, earlier, List.singleton_append, List.findSome?_cons, accepted]
      rfl
  | cons x run ih =>
      have here : p x = true := h x List.mem_cons_self
      have first : f (between before (x :: run ++ rest)) = none := by
        simpa using refused [] (x :: run) rfl (List.cons_ne_nil x run)
      have later := @ih (before ++ [x]) (fun y hy => h y (List.mem_cons_of_mem x hy))
        (fun i j split some_left => by
          simpa using refused (x :: i) j (congrArg (x :: ·) split) some_left)
        (by simpa using accepted) (between before (x :: run ++ rest) :: found)
        (by rw [List.reverse_cons, List.findSome?_append, earlier]; simpa using first)
      rw [List.cons_append, stepsOnto, if_pos here]
      simpa [between] using later

/-- The shortest stretch of a class whose end is accepted. -/
theorem offer_fewest1 {accept : Unit → Cursor → Option β} {b : β} (first : p x = true)
    (h : ∀ y ∈ run, p y = true)
    (refused : ∀ i j, run = i ++ j → j ≠ [] →
      accept () (between (before ++ x :: i) (j ++ rest)) = none)
    (accepted : accept () (between (before ++ x :: run) rest) = some b) :
    (fewest1 p).offer (between before (x :: run ++ rest)) accept = some b := by
  refine (prefers_oneOf first).then ?_
  exact findSome_steps h (fun i j split some_left => by simpa using refused i j split some_left)
    (by simpa using accepted) [] rfl

theorem offer_captured_fewest1 {accept : Span → Cursor → Option β} {b : β} (first : p x = true)
    (h : ∀ y ∈ run, p y = true)
    (refused : ∀ i j span, run = i ++ j → j ≠ [] →
      accept span (between (before ++ x :: i) (j ++ rest)) = none)
    (accepted : accept (.between before (x :: run) rest) (between (before ++ x :: run) rest) =
      some b) :
    (captured (fewest1 p)).offer (between before (x :: run ++ rest)) accept = some b := by
  have length : (before ++ x :: run).length - before.length = (x :: run).length := by
    rw [List.length_append]
    omega
  refine offer_fewest1 first h (fun i j => refused i j _) ?_
  simp only [between, length]
  exact accepted

end Characters

section Search

variable {before after : List Char}

theorem Prefers.at (h : r.Prefers c a d) : r.at? c = some ⟨a, c, d⟩ := h.offer rfl

/-- Over a stretch in which nothing is found a search only goes on. -/
theorem firstFrom_append (before passed rest : List Char)
    (h : ∀ front back, passed = front ++ back → back ≠ [] →
      r.at? (between (before ++ front) (back ++ rest)) = none) :
    r.firstFrom before.getLast? before.length (passed ++ rest) =
      r.firstFrom (before ++ passed).getLast? (before ++ passed).length rest := by
  induction passed generalizing before with
  | nil => rw [List.append_nil, List.nil_append]
  | cons x passed ih =>
      have here : r.at? ⟨before.getLast?, before.length, x :: (passed ++ rest)⟩ = none := by
        simpa [between] using h [] (x :: passed) rfl (List.cons_ne_nil x passed)
      have later := ih (before ++ [x]) fun front back split some_left => by
        simpa using h (x :: front) back (congrArg (x :: ·) split) some_left
      rw [List.cons_append, firstFrom, here]
      simpa using later

theorem firstFrom_of_at {m : Found α} (h : r.at? (between before after) = some m) :
    r.firstFrom before.getLast? before.length after = some m := by
  cases after with
  | nil => exact h
  | cons x after =>
      have here : r.at? ⟨before.getLast?, before.length, x :: after⟩ = some m := h
      rw [firstFrom, here]

variable [Forward r]

/-- A search for all matches comes to each place that no match before it reaches over. -/
theorem mem_allFrom_of_at {m : Found α} (before mid : List Char) {resume : Nat}
    (h : r.at? (between (before ++ mid) after) = some m)
    (reached : resume ≤ (before ++ mid).length)
    (apart : ∀ m ∈ r.allFrom resume before.getLast? before.length (mid ++ after),
      m.start.offset < (before ++ mid).length → m.stop.offset ≤ (before ++ mid).length) :
    m ∈ r.allFrom resume before.getLast? before.length (mid ++ after) := by
  induction mid generalizing before resume with
  | nil =>
      rw [List.append_nil] at h reached
      rw [List.nil_append]
      cases after with
      | nil =>
          rw [allFrom, if_neg (Nat.not_lt.mpr reached)]
          exact Option.mem_toList.mpr h
      | cons x after =>
          have here : r.at? ⟨before.getLast?, before.length, x :: after⟩ = some m := h
          rw [allFrom, if_neg (Nat.not_lt.mpr reached), here]
          exact List.mem_cons_self
  | cons x mid ih =>
      have next := fun n => @ih (before ++ [x]) n (by simpa using h)
      simp only [List.append_assoc, List.singleton_append, List.getLast?_concat,
        List.length_append, List.length_singleton] at next
      simp only [List.cons_append, allFrom] at apart ⊢
      split
      · rename_i skipped
        rw [if_pos skipped] at apart
        exact next resume (by simpa using reached) (by simpa using apart)
      · rename_i tried
        rw [if_neg tried] at apart
        cases here : r.at? ⟨before.getLast?, before.length, x :: (mid ++ after)⟩ with
        | none =>
            simp only [here] at apart ⊢
            exact next resume (by simpa using reached) (by simpa using apart)
        | some first =>
            simp only [here] at apart ⊢
            -- The search resumes where this match stops, and that is not behind the place.
            have start : first.start.offset = before.length := by rw [(Forward.offers.at here).1]
            have stop := apart first List.mem_cons_self (by simp [start])
            refine List.mem_cons_of_mem _ (next first.stop.offset (by simpa using stop) ?_)
            intro m' hm'
            simpa using apart m' (List.mem_cons_of_mem _ hm')

theorem mem_all_of_at {m : Found α} (h : r.at? (between before after) = some m)
    (apart : ∀ m ∈ r.all (before ++ after), m.start.offset < before.length →
      m.stop.offset ≤ before.length) : m ∈ r.all (before ++ after) :=
  mem_allFrom_of_at [] before h (Nat.zero_le _) apart

/-- Matches are found from left to right. -/
theorem allFrom_pairwise (resume : Nat) (b : Option Char) (n : Nat) (rest : List Char) :
    (r.allFrom resume b n rest).Pairwise fun m m' => m.start.offset < m'.start.offset := by
  induction rest generalizing resume b n with
  | nil =>
      rw [allFrom]
      split
      · exact .nil
      · cases r.at? ⟨b, n, []⟩ with
        | none => exact .nil
        | some m => exact List.pairwise_singleton _ _
  | cons x rest ih =>
      rw [allFrom]
      split
      · exact ih _ _ _
      · split
        · rename_i m here
          refine List.pairwise_cons.mpr ⟨?_, ih _ _ _⟩
          intro m' later
          obtain ⟨passed, _, offset, _⟩ :=
            ((Forward.offers (r := r)).mem_allFrom (c := ⟨some x, n + 1, rest⟩) later).1
          rw [(Forward.offers.at here).1, offset]
          change n < n + 1 + passed.length
          omega
        · exact ih _ _ _

theorem all_pairwise (s : List Char) :
    (r.all s).Pairwise fun m m' => m.start.offset < m'.start.offset := allFrom_pairwise _ _ _ _

/-- Of the matches that start before `place` none reaches over it, and none is `taken`. -/
structure Clear (r : Recognizer α) (content : List Char) (place : Nat) (taken : α → Prop) :
    Prop where
  apart : ∀ m ∈ r.all content, m.start.offset < place → m.stop.offset ≤ place
  free : ∀ m ∈ r.all content, m.start.offset < place → ¬ taken m.value

/-- At a clear place a search finds what stands there, and before that nothing that is taken. -/
theorem exists_all_eq {m : Found α} {taken : α → Prop}
    (h : r.at? (between before after) = some m)
    (clear : Clear r (before ++ after) before.length taken) :
    ∃ front back, r.all (before ++ after) = front ++ m :: back ∧ ∀ m ∈ front, ¬ taken m.value := by
  obtain ⟨front, back, split⟩ := List.append_of_mem (mem_all_of_at h clear.apart)
  refine ⟨front, back, split, fun m' earlier => ?_⟩
  have order := all_pairwise (r := r) (before ++ after)
  rw [split] at order
  have sooner := (List.pairwise_append.mp order).2.2 m' earlier m List.mem_cons_self
  rw [(Forward.offers.at h).1] at sooner
  exact clear.free m' (split ▸ List.mem_append_left _ earlier) sooner

end Search

end Recognizer

end ComponentAtlas.Text
