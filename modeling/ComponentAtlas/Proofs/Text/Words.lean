import ComponentAtlas.Proofs.Text.Places

/-!
Words and the blanks between them. Blanks only part words, so a text whose words are joined by
single spaces has the words that it had, also item by item where commas cut it.
-/

namespace ComponentAtlas.Text

section Blanks

/-- The code points of all blanks. -/
def blankCodes : List Nat :=
  [9, 10, 11, 12, 13, 28, 29, 30, 31, 32, 0x85, 0xA0, 0x1680, 0x2000, 0x2001, 0x2002, 0x2003,
    0x2004, 0x2005, 0x2006, 0x2007, 0x2008, 0x2009, 0x200A, 0x2028, 0x2029, 0x202F, 0x205F, 0x3000]

theorem toNat_mem_blankCodes {c : Char} (h : isBlank c = true) : c.toNat ∈ blankCodes := by
  simp only [isBlank] at h
  split at h
  all_goals
    simp only [blankCodes, List.mem_cons, List.not_mem_nil, or_false]
    simp only [Bool.or_eq_true, Bool.and_eq_true, decide_eq_true_eq, beq_iff_eq] at h
    omega

theorem blankCodes_apart : ∀ n ∈ blankCodes, isWord (Char.ofNat n) = false := by decide +kernel

theorem isWord_of_isBlank {c : Char} (h : isBlank c = true) : isWord c = false := by
  rw [← Char.ofNat_toNat c]
  exact blankCodes_apart _ (toNat_mem_blankCodes h)

theorem isBlank_of_isWord {c : Char} (h : isWord c = true) : isBlank c = false :=
  Bool.eq_false_iff.mpr fun blank => Bool.noConfusion (h.symm.trans (isWord_of_isBlank blank))

/-- Blanks between two tokens, possibly none. -/
structure Gap where
  chars : List Char
  blank : ∀ c ∈ chars, isBlank c = true

def Gap.empty : Gap := ⟨[], by simp⟩

/-- Blanks that part two words. -/
structure Break extends Gap where
  nonempty : chars ≠ []

def Break.space : Break := ⟨⟨[' '], List.all_eq_true.mp (by decide)⟩, List.cons_ne_nil _ _⟩

def Gap.feed : Gap := ⟨['\n'], List.all_eq_true.mp (by decide)⟩

theorem singleton_ne_nil (c : Char) : [c] ≠ [] := List.cons_ne_nil c []

structure Word where
  chars : List Char
  nonempty : chars ≠ []
  word : ∀ c ∈ chars, isWord c = true

variable {rest : List Char}

theorem Gap.head?_any (gap : Gap) (stop : rest.head?.any isWord = false) :
    (gap.chars ++ rest).head?.any isWord = false := by
  obtain ⟨chars, blank⟩ := gap
  cases chars with
  | nil => exact stop
  | cons c chars => exact isWord_of_isBlank (blank c List.mem_cons_self)

theorem Break.exists_head? (gap : Break) (rest : List Char) :
    ∃ b, (gap.chars ++ rest).head? = some b ∧ isBlank b = true := by
  obtain ⟨b, chars, split⟩ := List.exists_cons_of_ne_nil gap.nonempty
  rw [split]
  exact ⟨b, rfl, gap.blank b (split ▸ List.mem_cons_self)⟩

theorem Break.head?_any (gap : Break) (rest : List Char) :
    (gap.chars ++ rest).head?.any isWord = false := by
  obtain ⟨b, first, blank⟩ := gap.exists_head? rest
  rw [first]
  exact isWord_of_isBlank blank

theorem Word.head?_any (name : Word) (rest : List Char) :
    (name.chars ++ rest).head?.any isBlank = false := by
  obtain ⟨chars, nonempty, word⟩ := name
  cases chars with
  | nil => exact absurd rfl nonempty
  | cons c chars => exact isBlank_of_isWord (word c List.mem_cons_self)

end Blanks

/-- A text has no character of a class where a check of each finds none. -/
theorem forall_not_of_all {p : Char → Bool} {s : List Char} (h : s.all (!p ·) = true) :
    ∀ c ∈ s, p c = false := fun c hc => by simpa using List.all_eq_true.mp h c hc

section Trimming

variable {s gap rest : List Char} {c : Char}

theorem trimLeft_append (h : ∀ c ∈ gap, isBlank c = true) (s : List Char) :
    trimLeft (gap ++ s) = trimLeft s := List.dropWhile_append_of_pos h

theorem trimLeft_cons (h : isBlank c = false) (rest : List Char) :
    trimLeft (c :: rest) = c :: rest := List.dropWhile_cons_of_neg (by simp [h])

theorem isBlank_of_trimLeft (h : trimLeft s = c :: rest) : isBlank c = false := by
  have stops := List.head?_dropWhile_not isBlank s
  rw [← trimLeft, h] at stops
  simpa using stops

/-- A text is what is left of it between the blanks that are trimmed. -/
theorem exists_trimLeft (s : List Char) :
    ∃ gap, (∀ c ∈ gap, isBlank c = true) ∧ s = gap ++ trimLeft s :=
  ⟨s.takeWhile isBlank, fun _ hc => List.mem_takeWhile_imp hc,
    (List.takeWhile_append_dropWhile).symm⟩

theorem exists_trimRightOf (p : Char → Bool) (s : List Char) :
    ∃ gap, (∀ c ∈ gap, p c = true) ∧ s = trimRightOf p s ++ gap := by
  refine ⟨(s.reverse.takeWhile p).reverse, ?_, ?_⟩
  · intro c hc
    exact List.mem_takeWhile_imp (List.mem_reverse.mp hc)
  · rw [trimRightOf, ← List.reverse_append, List.takeWhile_append_dropWhile, List.reverse_reverse]

/-- Behind their blanks equal texts start with the same character. -/
theorem eq_of_blanks_append {gap' rest' : List Char} {c' : Char} (h : ∀ c ∈ gap, isBlank c = true)
    (h' : ∀ c ∈ gap', isBlank c = true) (solid : isBlank c = false) (solid' : isBlank c' = false)
    (same : gap ++ c :: rest = gap' ++ c' :: rest') : c = c' := by
  have trimmed := congrArg trimLeft same
  rw [trimLeft_append h, trimLeft_append h', trimLeft_cons solid, trimLeft_cons solid'] at trimmed
  exact (List.cons.inj trimmed).1

theorem exists_blanks_append (h : ∃ c ∈ s, isBlank c = false) :
    ∃ gap c rest, s = gap ++ c :: rest ∧ (∀ c ∈ gap, isBlank c = true) ∧ isBlank c = false := by
  obtain ⟨gap, blank, split⟩ := exists_trimLeft s
  cases left : trimLeft s with
  | nil =>
      obtain ⟨c, member, solid⟩ := h
      rw [left, List.append_nil] at split
      exact Bool.noConfusion (solid.symm.trans (blank c (split ▸ member)))
  | cons c rest => exact ⟨gap, c, rest, left ▸ split, blank, isBlank_of_trimLeft left⟩

theorem not_of_getLast?_trimRightOf {p : Char → Bool} (h : (trimRightOf p s).getLast? = some c) :
    p c = false := by
  have stops := List.head?_dropWhile_not p s.reverse
  rw [trimRightOf, List.getLast?_reverse] at h
  rw [h] at stops
  simpa using stops

theorem mem_trimChars (h : isBlank c = false) : c ∈ trimChars s ↔ c ∈ s := by
  obtain ⟨front, blank, left⟩ := exists_trimLeft s
  obtain ⟨back, blank', right⟩ := exists_trimRightOf isBlank (trimLeft s)
  have not_in : ∀ {gap : List Char}, (∀ c ∈ gap, isBlank c = true) → c ∉ gap := fun all inside =>
    Bool.noConfusion (h.symm.trans (all c inside))
  rw [right, ← trimChars] at left
  rw [show c ∈ s ↔ c ∈ front ++ (trimChars s ++ back) from iff_of_eq (congrArg (c ∈ ·) left)]
  simp [not_in blank, not_in blank']

theorem isBlank_of_trimChars (h : trimChars s = c :: rest) : isBlank c = false := by
  have starts : c :: rest <+: trimLeft s := h ▸ trimRightOf_prefix isBlank (trimLeft s)
  obtain ⟨more, split⟩ := starts
  exact isBlank_of_trimLeft split.symm

/-- A text between blanks, where it starts with a blank and is not all of blanks. -/
theorem exists_trimChars (parted : s.head?.any isBlank = true) (h : ∃ c ∈ s, isBlank c = false) :
    ∃ (front : Break) (c : Char) (rest : List Char) (back : Gap),
      s = front.chars ++ (c :: rest ++ back.chars) ∧ isBlank c = false ∧
      ∃ last, (c :: rest).getLast? = some last ∧ isBlank last = false := by
  obtain ⟨front, blank, left⟩ := exists_trimLeft s
  obtain ⟨back, blank', right⟩ := exists_trimRightOf isBlank (trimLeft s)
  obtain ⟨x, member, solid⟩ := h
  have kept : x ∈ trimChars s := (mem_trimChars solid).mpr member
  obtain ⟨c, rest, shape⟩ := List.exists_cons_of_ne_nil (List.ne_nil_of_mem kept)
  have nonempty : front ≠ [] := by
    rintro rfl
    rw [List.nil_append] at left
    rw [left, right, ← trimChars, shape, List.cons_append] at parted
    exact Bool.noConfusion ((isBlank_of_trimChars shape).symm.trans (by simpa using parted))
  rw [right, ← trimChars, shape] at left
  obtain ⟨last, ends⟩ : ∃ last, (c :: rest).getLast? = some last :=
    ⟨_, List.getLast?_eq_some_getLast (List.cons_ne_nil c rest)⟩
  refine ⟨⟨⟨front, blank⟩, nonempty⟩, c, rest, ⟨back, blank'⟩, left,
    isBlank_of_trimChars shape, last, ends, not_of_getLast?_trimRightOf (s := trimLeft s) ?_⟩
  rw [← trimChars, shape]
  exact ends

end Trimming

section Words

variable {s s' t t' gap : List Char} {c : Char}

/-- Words split at a blank. -/
theorem words_append_cons (h : isBlank c = true) (s t : List Char) :
    words (s ++ c :: t) = words s ++ words t := by
  rw [words, splitAt_append_cons isBlank h, List.filter_append]
  rfl

@[simp]
theorem words_nil : words [] = [] := rfl

theorem words_cons (h : isBlank c = true) (s : List Char) : words (c :: s) = words s := by
  simpa using words_append_cons h [] s

theorem words_append_left (h : ∀ c ∈ gap, isBlank c = true) (s : List Char) :
    words (gap ++ s) = words s := by
  induction gap with
  | nil => rfl
  | cons c gap ih =>
      rw [List.cons_append, words_cons (h c List.mem_cons_self)]
      exact ih fun d hd => h d (List.mem_cons_of_mem c hd)

theorem words_append_right (h : ∀ c ∈ gap, isBlank c = true) (s : List Char) :
    words (s ++ gap) = words s := by
  cases gap with
  | nil => rw [List.append_nil]
  | cons c gap =>
      have nothing := words_append_left (fun d hd => h d (List.mem_cons_of_mem c hd)) []
      simpa [words_append_cons (h c List.mem_cons_self)] using nothing

theorem words_trimChars (s : List Char) : words (trimChars s) = words s := by
  obtain ⟨front, blank, left⟩ := exists_trimLeft s
  obtain ⟨back, blank', right⟩ := exists_trimRightOf isBlank (trimLeft s)
  have trimmed : words (trimLeft s) = words (trimChars s) :=
    (congrArg words right).trans (words_append_right blank' _)
  exact trimmed.symm.trans ((congrArg words left).trans (words_append_left blank _)).symm

theorem words_plain (nonempty : s ≠ []) (h : ∀ c ∈ s, isBlank c = false) : words s = [s] := by
  rw [words, splitAt_plain h]
  simp [nonempty]

theorem mem_words {w : List Char} (h : w ∈ words s) : ∀ c ∈ w, c ∈ s ∧ isBlank c = false :=
  mem_splitAt (List.mem_filter.mp h).1

theorem splitAt_cons_of_sep {isSep : Char → Bool} (h : isSep c = true) (s : List Char) :
    splitAt isSep (c :: s) = [] :: splitAt isSep s := splitAt_append_cons isSep h [] s

theorem splitAt_cons_of_plain {isSep : Char → Bool} (h : isSep c = false) {piece : List Char}
    {pieces : List (List Char)} (cut : splitAt isSep s = piece :: pieces) :
    splitAt isSep (c :: s) = (c :: piece) :: pieces := by
  simp [splitAt, cut, h]

theorem exists_last_piece (isSep : Char → Bool) (s : List Char) :
    ∃ front last, splitAt isSep s = front ++ [last] :=
  ⟨_, _, (List.dropLast_concat_getLast (splitAt_ne_nil isSep s)).symm⟩

/-- A character in front of a text makes no new word but the one that it stands in. -/
theorem mem_words_cons (h : isBlank c = false) {w : List Char} (member : w ∈ words (c :: s)) :
    c ∈ w ∨ w ∈ words s := by
  obtain ⟨piece, pieces, cut⟩ := List.exists_cons_of_ne_nil (splitAt_ne_nil isBlank s)
  obtain ⟨member, nonempty⟩ := List.mem_filter.mp member
  rw [splitAt_cons_of_plain h cut] at member
  rcases List.mem_cons.mp member with rfl | later
  · exact .inl List.mem_cons_self
  · exact .inr (List.mem_filter.mpr ⟨cut ▸ List.mem_cons_of_mem piece later, nonempty⟩)

/-- Where two texts meet, the last piece of the first goes on with the first piece of the second. -/
theorem splitAt_append {isSep : Char → Bool} {front back : List (List Char)}
    {last first : List Char} (hs : splitAt isSep s = front ++ [last])
    (ht : splitAt isSep t = first :: back) :
    splitAt isSep (s ++ t) = front ++ (last ++ first) :: back := by
  induction s generalizing front last with
  | nil =>
      obtain ⟨rfl, rfl⟩ := List.append_singleton_inj.mp
        (show [] ++ [[]] = front ++ [last] from hs)
      exact ht
  | cons c s ih =>
      obtain ⟨front', last', cut⟩ := exists_last_piece isSep s
      have later := ih cut
      cases sep : isSep c with
      | true =>
          rw [splitAt_cons_of_sep sep, cut, ← List.cons_append] at hs
          obtain ⟨rfl, rfl⟩ := List.append_singleton_inj.mp hs
          rw [List.cons_append, splitAt_cons_of_sep sep, later, List.cons_append]
      | false =>
          cases front' with
          | nil =>
              have whole : [] ++ [c :: last'] = front ++ [last] :=
                (splitAt_cons_of_plain sep cut).symm.trans hs
              obtain ⟨rfl, rfl⟩ := List.append_singleton_inj.mp whole
              exact splitAt_cons_of_plain sep later
          | cons piece pieces =>
              have whole : (c :: piece) :: pieces ++ [last'] = front ++ [last] :=
                (splitAt_cons_of_plain sep cut).symm.trans hs
              obtain ⟨rfl, rfl⟩ := List.append_singleton_inj.mp whole
              exact splitAt_cons_of_plain sep later

theorem exists_mem_splitAt {isSep : Char → Bool} (h : isSep c = false) (hc : c ∈ s) :
    ∃ piece ∈ splitAt isSep s, c ∈ piece := by
  obtain ⟨before, after, rfl⟩ := List.append_of_mem hc
  obtain ⟨front, last, cut⟩ := exists_last_piece isSep before
  obtain ⟨first, back, cut'⟩ := List.exists_cons_of_ne_nil (splitAt_ne_nil isSep after)
  refine ⟨last ++ c :: first, ?_, List.mem_append_right _ List.mem_cons_self⟩
  rw [splitAt_append cut (splitAt_cons_of_plain h cut')]
  exact List.mem_append_right _ List.mem_cons_self

theorem mem_flatten_words (h : isBlank c = false) : c ∈ (words s).flatten ↔ c ∈ s := by
  rw [List.mem_flatten]
  constructor
  · rintro ⟨w, hw, hc⟩
    exact (mem_words hw c hc).1
  · intro hc
    obtain ⟨piece, member, inside⟩ := exists_mem_splitAt h hc
    have nonempty : piece ≠ [] := List.ne_nil_of_mem inside
    exact ⟨piece, List.mem_filter.mpr ⟨member, by simpa using nonempty⟩, inside⟩

theorem head?_words {w : List Char} (nonempty : w ≠ []) (plain : ∀ c ∈ w, isBlank c = false)
    (stop : t.head?.all isBlank = true) : (words (w ++ t)).head? = some w := by
  cases t with
  | nil => rw [List.append_nil, words_plain nonempty plain, List.head?_cons]
  | cons b t =>
      have blank : isBlank b = true := by simpa using stop
      rw [words_append_cons blank, words_plain nonempty plain]
      rfl

/-- The items of a list, each as its words. -/
def wordsOfItems (s : List Char) : List (List (List Char)) := (splitOn ',' s).map words

/-- Cut at commas the texts have as many items, with the same words in each. -/
def SameWords (s t : List Char) : Prop := wordsOfItems s = wordsOfItems t

theorem SameWords.refl (s : List Char) : SameWords s s := rfl

theorem SameWords.symm (h : SameWords s t) : SameWords t s := Eq.symm h

theorem SameWords.trans (h : SameWords s t) (h' : SameWords t t') : SameWords s t' := Eq.trans h h'

theorem comma_of_isBlank (h : isBlank c = true) : (c == ',') = false :=
  beq_eq_false_iff_ne.mpr fun same => absurd h (by rw [same]; decide)

/-- A blank parts the last item before it from the first one behind it, as words only. -/
theorem wordsOfItems_append_cons (h : isBlank c = true) {front back : List (List Char)}
    {last first : List Char} (hs : splitOn ',' s = front ++ [last])
    (ht : splitOn ',' t = first :: back) :
    wordsOfItems (s ++ c :: t) =
      front.map words ++ (words last ++ words first) :: back.map words := by
  have behind : splitAt (· == ',') (c :: t) = (c :: first) :: back :=
    splitAt_cons_of_plain (by exact comma_of_isBlank h) ht
  have whole : splitOn ',' (s ++ c :: t) = front ++ (last ++ c :: first) :: back :=
    splitAt_append hs behind
  rw [wordsOfItems, whole, List.map_append, List.map_cons, words_append_cons h]

theorem SameWords.append_cons {b b' : Char} (hb : isBlank b = true) (hb' : isBlank b' = true)
    (hs : SameWords s s') (ht : SameWords t t') : SameWords (s ++ b :: t) (s' ++ b' :: t') := by
  obtain ⟨front, last, cut⟩ := exists_last_piece (· == ',') s
  obtain ⟨first, back, cut'⟩ := List.exists_cons_of_ne_nil (splitAt_ne_nil (· == ',') t)
  obtain ⟨front₂, last₂, cut₂⟩ := exists_last_piece (· == ',') s'
  obtain ⟨first₂, back₂, cut₂'⟩ := List.exists_cons_of_ne_nil (splitAt_ne_nil (· == ',') t')
  simp only [SameWords, wordsOfItems, splitOn, cut, cut₂, List.map_append] at hs
  simp only [SameWords, wordsOfItems, splitOn, cut', cut₂', List.map_cons, List.cons.injEq] at ht
  obtain ⟨fronts, lasts⟩ := List.append_singleton_inj.mp hs
  rw [SameWords, wordsOfItems_append_cons hb cut cut', wordsOfItems_append_cons hb' cut₂ cut₂',
    fronts, lasts, ht.1, ht.2]

theorem sameWords_cons (h : isBlank c = true) (s : List Char) : SameWords (c :: s) s := by
  obtain ⟨first, back, cut⟩ := List.exists_cons_of_ne_nil (splitAt_ne_nil (· == ',') s)
  have empty : splitOn ',' [] = [] ++ [[]] := rfl
  have whole := wordsOfItems_append_cons h empty cut
  rw [words_nil, List.nil_append, List.nil_append] at whole
  exact whole.trans (congrArg (List.map words) cut).symm

theorem sameWords_append_left (h : ∀ c ∈ gap, isBlank c = true) (s : List Char) :
    SameWords (gap ++ s) s := by
  induction gap with
  | nil => exact .refl s
  | cons c gap ih =>
      exact (sameWords_cons (h c List.mem_cons_self) _).trans
        (ih fun d hd => h d (List.mem_cons_of_mem c hd))

theorem sameWords_concat (h : isBlank c = true) (s : List Char) : SameWords (s ++ [c]) s := by
  obtain ⟨front, last, cut⟩ := exists_last_piece (· == ',') s
  have empty : splitOn ',' [] = [] :: [] := rfl
  have whole := wordsOfItems_append_cons h cut empty
  rw [words_nil, List.append_nil, List.map_nil] at whole
  refine whole.trans ?_
  simp only [wordsOfItems, splitOn, cut, List.map_append, List.map_singleton]

theorem sameWords_append_right (h : ∀ c ∈ gap, isBlank c = true) (s : List Char) :
    SameWords (s ++ gap) s := by
  cases gap with
  | nil =>
      rw [List.append_nil]
      exact .refl s
  | cons c gap =>
      have blank := h c List.mem_cons_self
      have nothing := sameWords_append_left (fun d hd => h d (List.mem_cons_of_mem c hd)) []
      rw [List.append_nil] at nothing
      exact (SameWords.append_cons blank blank (.refl s) nothing).trans (sameWords_concat blank s)

/-- Words joined by single spaces. -/
theorem sameWords_joinChars (s : List Char) : SameWords (joinChars [' '] (words s)) s := by
  induction size : s.length using Nat.strong_induction_on generalizing s with
  | _ n ih =>
    cases blank : s.find? isBlank with
    | none =>
        have plain : ∀ c ∈ s, isBlank c = false := by simpa using blank
        rcases eq_or_ne s [] with rfl | nonempty
        · exact .refl _
        · rw [words_plain nonempty plain, joinChars, List.intersperse_singleton, List.flatten_cons,
            List.flatten_nil, List.append_nil]
          exact .refl s
    | some b =>
        obtain ⟨hb, front, rest, rfl, plain⟩ := List.find?_eq_some_iff_append.mp blank
        have shorter : rest.length < n := by
          rw [← size, List.length_append, List.length_cons]
          omega
        have later := ih rest.length shorter rest rfl
        rw [words_append_cons hb]
        rcases eq_or_ne front [] with rfl | nonempty
        · exact later.trans (sameWords_cons hb rest).symm
        · rw [words_plain nonempty fun c hc => by simpa using plain c hc]
          cases some_word : words rest with
          | nil =>
              rw [some_word] at later
              have behind := SameWords.append_cons hb hb (.refl front) later
              simpa [joinChars] using (sameWords_concat hb front).symm.trans behind
          | cons w ws =>
              rw [some_word] at later
              have shape : joinChars [' '] ([front] ++ w :: ws) =
                  front ++ ' ' :: joinChars [' '] (w :: ws) := by simp [joinChars]
              rw [shape]
              exact SameWords.append_cons (by decide) hb (.refl front) later

end Words

section Parts

variable {s t needle : List Char} {c : Char}

/-- What does not hold a separator stands on one side of it. -/
theorem infix_of_infix_append_cons (h : c ∉ needle) (inside : needle <:+: s ++ c :: t) :
    needle <:+: s ∨ needle <:+: t := by
  obtain ⟨before, after, split⟩ := inside
  rw [List.append_assoc] at split
  rcases List.append_eq_append_iff.mp split with ⟨mid, rfl, beyond⟩ | ⟨mid, rfl, rest⟩
  · rcases List.append_eq_append_iff.mp beyond with ⟨more, rfl, _⟩ | ⟨more, rfl, rest⟩
    · exact .inl ⟨before, more, by rw [List.append_assoc]⟩
    · cases more with
      | nil => exact .inl ⟨before, [], by simp⟩
      | cons d more =>
          obtain ⟨rfl, _⟩ := List.cons.inj rest
          exact absurd (List.mem_append_right mid List.mem_cons_self) h
  · cases mid with
    | nil =>
        rw [List.nil_append] at rest
        cases needle with
        | nil => exact .inl (List.nil_infix)
        | cons d needle =>
            obtain ⟨rfl, _⟩ := List.cons.inj rest
            exact absurd List.mem_cons_self h
    | cons d mid =>
        obtain ⟨_, rfl⟩ := List.cons.inj rest
        exact .inr ⟨mid, after, List.append_assoc _ _ _⟩

theorem infix_of_infix_joinChars (h : c ∉ needle) (nonempty : needle ≠ [])
    {pieces : List (List Char)} (inside : needle <:+: joinChars [c] pieces) :
    ∃ piece ∈ pieces, needle <:+: piece := by
  induction pieces with
  | nil => exact absurd (List.infix_nil.mp inside) nonempty
  | cons piece pieces ih =>
      cases pieces with
      | nil => exact ⟨piece, List.mem_cons_self, by simpa [joinChars] using inside⟩
      | cons next pieces =>
          have shape : joinChars [c] (piece :: next :: pieces) =
              piece ++ c :: joinChars [c] (next :: pieces) := by simp [joinChars]
          rw [shape] at inside
          rcases infix_of_infix_append_cons h inside with here | later
          · exact ⟨piece, List.mem_cons_self, here⟩
          · obtain ⟨other, member, there⟩ := ih later
            exact ⟨other, List.mem_cons_of_mem _ member, there⟩

theorem infix_of_mem_splitAt {isSep : Char → Bool} {piece : List Char} (s : List Char)
    (h : piece ∈ splitAt isSep s) : piece <:+: s := by
  induction size : s.length using Nat.strong_induction_on generalizing s with
  | _ n ih =>
    by_cases parted : ∃ c ∈ s, isSep c = true
    · obtain ⟨c, member, sep⟩ := parted
      obtain ⟨before, after, rfl⟩ := List.append_of_mem member
      rw [List.length_append, List.length_cons] at size
      rw [splitAt_append_cons isSep sep, List.mem_append] at h
      rcases h with first | second
      · have part := ih before.length (by omega) before first rfl
        exact part.trans (List.prefix_append _ _).isInfix
      · have part := ih after.length (by omega) after second rfl
        exact part.trans ((List.suffix_cons c after).trans (List.suffix_append before _)).isInfix
    · rw [splitAt_plain (by simpa using parted), List.mem_singleton] at h
      exact h ▸ List.infix_rfl

end Parts

end ComponentAtlas.Text
