import Mathlib.Data.List.TakeWhile
import ComponentAtlas.Text.Pieces

/-!
What the pieces of a text are made of, what a text joined from pieces is made of, and that
splitting takes a joined text apart into its pieces where these hold no separator.
-/

namespace ComponentAtlas.Text

section Numbers

theorem isDigit_of_mem_toDigits {n : Nat} {c : Char} (h : c ∈ Nat.toDigits 10 n) :
    c.isDigit = true :=
  Nat.isDigit_of_mem_toDigits (by decide) (by decide) h

theorem toDigits_inj {m n : Nat} (h : Nat.toDigits 10 m = Nat.toDigits 10 n) : m = n := by
  have numbers := congrArg (Nat.ofDigitChars 10 · 0) h
  simpa only [Nat.ofDigitChars_toDigits (by decide : 1 < 10) (Nat.le_refl 10)] using numbers

theorem toList_toString_int (i : Int) : (toString i).toList =
    if 0 ≤ i then Nat.toDigits 10 i.toNat else '-' :: Nat.toDigits 10 (-i).toNat := by
  rw [Int.toString_eq_repr, Int.repr_eq_if]
  split <;> simp [Nat.toList_repr]

theorem mem_toString_int {i : Int} {c : Char} (h : c ∈ (toString i).toList) :
    c.isDigit = true ∨ c = '-' := by
  rw [toList_toString_int] at h
  split at h
  · exact .inl (isDigit_of_mem_toDigits h)
  · exact (List.mem_cons.mp h).symm.imp_left isDigit_of_mem_toDigits

theorem toString_int_inj {i j : Int} (h : toString i = toString j) : i = j := by
  have no_sign : ∀ {m n : Nat}, Nat.toDigits 10 m ≠ '-' :: Nat.toDigits 10 n := by
    intro m n same
    have digit := isDigit_of_mem_toDigits (same ▸ List.mem_cons_self)
    exact absurd digit (by decide)
  have chars := congrArg String.toList h
  rw [toList_toString_int, toList_toString_int] at chars
  split at chars <;> split at chars
  · have numbers := toDigits_inj chars
    omega
  · exact absurd chars no_sign
  · exact absurd chars.symm no_sign
  · have numbers := toDigits_inj (List.cons.inj chars).2
    omega

end Numbers

theorem splitAt_ne_nil (isSep : Char → Bool) (s : List Char) : splitAt isSep s ≠ [] := by
  induction s with
  | nil => simp [splitAt]
  | cons c rest ih =>
      rw [splitAt]
      split
      · simp
      · split <;> simp

/-- A piece has characters of the text only, and no separator. -/
theorem mem_splitAt {isSep : Char → Bool} {s piece : List Char} (h : piece ∈ splitAt isSep s) :
    ∀ c ∈ piece, c ∈ s ∧ isSep c = false := by
  induction s generalizing piece with
  | nil =>
      rw [splitAt, List.mem_singleton] at h
      simp [h]
  | cons first rest ih =>
      rw [splitAt] at h
      have later : ∀ p ∈ splitAt isSep rest, ∀ c ∈ p, c ∈ first :: rest ∧ isSep c = false :=
        fun p hp c hc => ⟨List.mem_cons_of_mem _ (ih hp c hc).1, (ih hp c hc).2⟩
      split at h
      · rename_i none_left
        exact absurd none_left (splitAt_ne_nil isSep rest)
      · rename_i head pieces cut
        rw [cut] at later
        split at h
        · rcases List.mem_cons.mp h with rfl | member
          · simp
          · exact later piece member
        · rename_i plain
          rcases List.mem_cons.mp h with rfl | member
          · intro c hc
            rcases List.mem_cons.mp hc with rfl | inside
            · exact ⟨List.mem_cons_self, Bool.eq_false_iff.mpr plain⟩
            · exact later head List.mem_cons_self c inside
          · exact later piece (List.mem_cons_of_mem _ member)

theorem mem_splitText {sep : Char} {s piece : String} (h : piece ∈ splitText sep s) :
    ∀ c ∈ piece.toList, c ∈ s.toList ∧ c ≠ sep := by
  obtain ⟨chars, member, rfl⟩ := List.mem_map.mp h
  intro c hc
  rw [String.toList_ofList] at hc
  obtain ⟨inside, notSep⟩ := mem_splitAt member c hc
  exact ⟨inside, by simpa using notSep⟩

theorem joinChars_cons_cons (sep piece next : List Char) (pieces : List (List Char)) :
    joinChars sep (piece :: next :: pieces) = piece ++ (sep ++ joinChars sep (next :: pieces)) := by
  simp [joinChars]

@[simp]
theorem joinChars_singleton (sep piece : List Char) : joinChars sep [piece] = piece := by
  simp [joinChars]

theorem joinChars_cons (sep piece : List Char) (pieces : List (List Char)) :
    ∃ rest, joinChars sep (piece :: pieces) = piece ++ rest := by
  cases pieces with
  | nil => exact ⟨[], by simp⟩
  | cons next pieces => exact ⟨_, joinChars_cons_cons sep piece next pieces⟩

theorem joinChars_append (sep : List Char) {before after : List (List Char)} (hb : before ≠ [])
    (ha : after ≠ []) :
    joinChars sep (before ++ after) = joinChars sep before ++ sep ++ joinChars sep after := by
  induction before with
  | nil => exact absurd rfl hb
  | cons piece before ih =>
      cases before with
      | nil =>
          obtain ⟨next, after, rfl⟩ := List.exists_cons_of_ne_nil ha
          simp [joinChars]
      | cons next before =>
          have tail := ih (List.cons_ne_nil next before)
          simp only [joinChars, List.cons_append, List.intersperse_cons_cons,
            List.flatten_cons] at tail ⊢
          simp only [tail, List.append_assoc]

/-- Where a text is joined from two lists of pieces, one more separator stands between them. -/
theorem join_append (sep : String) {before after : List String} (hb : before ≠ [])
    (ha : after ≠ []) : join sep (before ++ after) = join sep before ++ sep ++ join sep after := by
  have hb' : before.map String.toList ≠ [] := mt List.map_eq_nil_iff.mp hb
  have ha' : after.map String.toList ≠ [] := mt List.map_eq_nil_iff.mp ha
  apply String.toList_injective
  simp only [join, List.map_append, joinChars_append sep.toList hb' ha', String.toList_append,
    String.toList_ofList]

@[simp]
theorem join_singleton (sep piece : String) : join sep [piece] = piece := by
  simp [join, joinChars]

theorem join_cons (sep piece : String) {pieces : List String} (h : pieces ≠ []) :
    join sep (piece :: pieces) = piece ++ sep ++ join sep pieces := by
  simpa using join_append sep (List.cons_ne_nil piece []) h

theorem join_concat (sep : String) {pieces : List String} (h : pieces ≠ []) (last : String) :
    join sep (pieces ++ [last]) = join sep pieces ++ sep ++ last := by
  simpa using join_append sep h (List.cons_ne_nil last [])

/-- A run of a class ends where the class does. -/
theorem takeWhile_append_of_stop {p : Char → Bool} {run rest : List Char}
    (h : ∀ c ∈ run, p c = true) (stop : rest.head?.any p = false) :
    (run ++ rest).takeWhile p = run := by
  have nothing : rest.takeWhile p = [] := by
    cases rest with
    | nil => rfl
    | cons c rest => exact List.takeWhile_cons_of_neg (by simpa using stop)
  rw [List.takeWhile_append_of_pos h, nothing, List.append_nil]

theorem splitAt_append_cons (isSep : Char → Bool) {c : Char} (h : isSep c = true)
    (before after : List Char) :
    splitAt isSep (before ++ c :: after) = splitAt isSep before ++ splitAt isSep after := by
  induction before with
  | nil =>
      obtain ⟨piece, pieces, cut⟩ := List.exists_cons_of_ne_nil (splitAt_ne_nil isSep after)
      simp [splitAt, cut, h]
  | cons d before ih =>
      obtain ⟨piece, pieces, cut⟩ := List.exists_cons_of_ne_nil (splitAt_ne_nil isSep before)
      rw [List.cons_append, splitAt, ih, splitAt, cut]
      cases isSep d <;> rfl

theorem splitAt_plain {isSep : Char → Bool} {s : List Char} (h : ∀ c ∈ s, isSep c = false) :
    splitAt isSep s = [s] := by
  induction s with
  | nil => rfl
  | cons c rest ih =>
      rw [splitAt, ih fun d hd => h d (List.mem_cons_of_mem c hd)]
      simp [h c List.mem_cons_self]

/-- What is read from the first piece comes first. -/
theorem filterMap_cons_toList {α β : Type} (read : α → Option β) (a : α) (as : List α) :
    (a :: as).filterMap read = (read a).toList ++ as.filterMap read := by
  cases first : read a with
  | none => rw [List.filterMap_cons_none first]; rfl
  | some b => rw [List.filterMap_cons_some first]; rfl

theorem splitOn_plain {sep : Char} {s : List Char} (h : sep ∉ s) : splitOn sep s = [s] :=
  splitAt_plain fun _ hc => beq_eq_false_iff_ne.mpr fun e => h (e ▸ hc)

/-- A separator between two texts keeps their pieces apart. -/
theorem splitOn_append_cons (sep : Char) (before after : List Char) :
    splitOn sep (before ++ sep :: after) = splitOn sep before ++ splitOn sep after :=
  splitAt_append_cons (· == sep) (beq_self_eq_true sep) before after

theorem splitText_append (sep : Char) (before after : String) :
    splitText sep (before ++ String.ofList [sep] ++ after) =
      splitText sep before ++ splitText sep after := by
  simp only [splitText, String.toList_append, String.toList_ofList, List.append_assoc,
    List.singleton_append]
  rw [splitOn_append_cons, List.map_append]

/-- Pieces without separators are what the text joined from them is split into. -/
theorem splitOn_joinChars {sep : Char} {pieces : List (List Char)} (some_piece : pieces ≠ [])
    (h : ∀ p ∈ pieces, sep ∉ p) : splitOn sep (joinChars [sep] pieces) = pieces := by
  induction pieces with
  | nil => exact absurd rfl some_piece
  | cons piece pieces ih =>
      cases pieces with
      | nil => simp [splitOn_plain (h piece List.mem_cons_self)]
      | cons next pieces =>
          have later := ih (List.cons_ne_nil next pieces)
            fun p hp => h p (List.mem_cons_of_mem piece hp)
          rw [joinChars_cons_cons, List.singleton_append, splitOn_append_cons, later,
            splitOn_plain (h piece List.mem_cons_self)]
          rfl

theorem splitText_join {sep : Char} {pieces : List String} (some_piece : pieces ≠ [])
    (h : ∀ piece ∈ pieces, ∀ c ∈ piece.toList, c ≠ sep) :
    splitText sep (join (String.ofList [sep]) pieces) = pieces := by
  have some_piece : pieces.map String.toList ≠ [] := mt List.map_eq_nil_iff.mp some_piece
  have cut := splitOn_joinChars some_piece (List.forall_mem_map.mpr fun piece member inside =>
    h piece member sep inside rfl)
  rw [splitText, join, String.toList_ofList, String.toList_ofList, cut, List.map_map]
  exact List.map_id'' (fun _ => String.ofList_toList) pieces

theorem splitText_ne_nil (sep : Char) (s : String) : splitText sep s ≠ [] :=
  mt List.map_eq_nil_iff.mp (splitAt_ne_nil _ _)

theorem splitText_plain {sep : Char} {s : String} (h : sep ∉ s.toList) : splitText sep s = [s] := by
  rw [splitText, splitOn_plain h, List.map_singleton, String.ofList_toList]

theorem replaceChar_of_not_mem {old : Char} (new : Char) {s : List Char} (h : old ∉ s) :
    replaceChar old new s = s := by
  have kept : ∀ c ∈ s, (if c == old then new else c) = id c := by
    intro c hc
    have other : c ≠ old := fun same => h (same ▸ hc)
    simp [other]
  rw [replaceChar, List.map_congr_left kept, List.map_id]

/-- Another separator between pieces that do not hold the old one. -/
theorem replaceChar_joinChars {old : Char} (new : Char) {pieces : List (List Char)}
    (h : ∀ p ∈ pieces, old ∉ p) :
    replaceChar old new (joinChars [old] pieces) = joinChars [new] pieces := by
  induction pieces with
  | nil => rfl
  | cons p pieces ih =>
      have first := replaceChar_of_not_mem new (h p List.mem_cons_self)
      cases pieces with
      | nil => simp [first]
      | cons next pieces =>
          have later := ih fun q hq => h q (List.mem_cons_of_mem p hq)
          have split (t : List Char) : replaceChar old new (p ++ ([old] ++ t)) =
              replaceChar old new p ++ ([new] ++ replaceChar old new t) := by simp [replaceChar]
          rw [joinChars_cons_cons, joinChars_cons_cons, split, first, later]

/-- A piece at the end may as well be joined from pieces of its own. -/
theorem join_join (sep : String) {front back : List String} (some_front : front ≠ [])
    (some_back : back ≠ []) : join sep (front ++ [join sep back]) = join sep (front ++ back) := by
  simp [join_append sep some_front, some_back]

theorem mem_joinChars {sep : List Char} {pieces : List (List Char)} {c : Char}
    (h : c ∈ joinChars sep pieces) : c ∈ sep ∨ ∃ piece ∈ pieces, c ∈ piece := by
  induction pieces with
  | nil => simp [joinChars] at h
  | cons piece pieces ih =>
      cases pieces with
      | nil => exact .inr ⟨piece, List.mem_cons_self, by simpa [joinChars] using h⟩
      | cons next pieces =>
          rw [joinChars_cons_cons, List.mem_append, List.mem_append] at h
          rcases h with first | between | later
          · exact .inr ⟨piece, List.mem_cons_self, first⟩
          · exact .inl between
          · exact (ih later).imp_right fun ⟨p, hp, hc⟩ => ⟨p, List.mem_cons_of_mem _ hp, hc⟩

theorem mem_join {sep : String} {pieces : List String} {c : Char}
    (h : c ∈ (join sep pieces).toList) :
    c ∈ sep.toList ∨ ∃ piece ∈ pieces, c ∈ piece.toList := by
  rw [join, String.toList_ofList] at h
  refine (mem_joinChars h).imp_right fun ⟨chars, member, inside⟩ => ?_
  obtain ⟨piece, hp, rfl⟩ := List.mem_map.mp member
  exact ⟨piece, hp, inside⟩

/-- A joined text starts as its first piece does. -/
theorem head?_join (sep piece : String) (pieces : List String) (h : piece ≠ "") :
    (join sep (piece :: pieces)).toList.head? = piece.toList.head? := by
  obtain ⟨rest, shape⟩ := joinChars_cons sep.toList piece.toList (pieces.map String.toList)
  have nonempty : piece.toList ≠ [] := fun e => h (String.toList_eq_nil_iff.mp e)
  obtain ⟨c, cs, hc⟩ := List.exists_cons_of_ne_nil nonempty
  rw [join, String.toList_ofList, List.map_cons, shape, hc]
  rfl

theorem trimRightOf_prefix (p : Char → Bool) (s : List Char) : trimRightOf p s <+: s := by
  rw [trimRightOf, ← List.reverse_suffix, List.reverse_reverse]
  exact List.dropWhile_suffix p

theorem trimRightOf_eq_nil_iff (p : Char → Bool) (s : List Char) :
    trimRightOf p s = [] ↔ ∀ c ∈ s, p c = true := by
  rw [trimRightOf, List.reverse_eq_nil_iff, List.dropWhile_eq_nil_iff]
  simp only [List.mem_reverse]

/-- What is trimmed on the right starts as before unless nothing is left. -/
theorem trimRightOf_cons {p : Char → Bool} {c : Char} {rest : List Char}
    (h : ¬ ∀ d ∈ c :: rest, p d = true) : ∃ kept, trimRightOf p (c :: rest) = c :: kept := by
  cases shape : trimRightOf p (c :: rest) with
  | nil => exact absurd ((trimRightOf_eq_nil_iff p _).mp shape) h
  | cons d kept =>
      have start := shape ▸ trimRightOf_prefix p (c :: rest)
      rw [List.cons_prefix_cons] at start
      exact ⟨kept, by rw [start.1]⟩

theorem trimRightOf_append_cons {p : Char → Bool} {c : Char} {after : List Char}
    (before : List Char) (stop : p c = false) (h : ∀ d ∈ after, p d = true) :
    trimRightOf p (before ++ c :: after) = before ++ [c] := by
  have cut : ∀ d ∈ after.reverse, p d = true := fun d hd => h d (List.mem_reverse.mp hd)
  rw [trimRightOf, List.reverse_append, List.reverse_cons, List.append_assoc,
    List.dropWhile_append_of_pos cut]
  simp [stop]

theorem lastPiece_append {sep : Char} {after : List Char} (before : List Char) (h : sep ∉ after) :
    lastPiece sep (before ++ after) = lastPiece sep before ++ after := by
  have plain : ∀ c ∈ after.reverse, (c != sep) = true := fun c hc =>
    bne_iff_ne.mpr fun e => h (e ▸ List.mem_reverse.mp hc)
  rw [lastPiece, lastPiece, List.reverse_append, List.takeWhile_append_of_pos plain,
    List.reverse_append, List.reverse_reverse]

theorem lastPiece_append_cons {sep : Char} {after : List Char} (before : List Char)
    (h : sep ∉ after) : lastPiece sep (before ++ sep :: after) = after := by
  rw [List.append_cons, lastPiece_append _ h]
  simp [lastPiece]

/-- What follows the last separator is told apart from what stands before it. -/
theorem append_cons_inj {sep : Char} {before before' after after' : List Char}
    (h : sep ∉ after) (h' : sep ∉ after')
    (same : before ++ sep :: after = before' ++ sep :: after') :
    before = before' ∧ after = after' := by
  have ends := congrArg (lastPiece sep) same
  rw [lastPiece_append_cons before h, lastPiece_append_cons before' h'] at ends
  subst ends
  exact ⟨List.append_cancel_right same, rfl⟩

section Ends

theorem afterStart?_eq_some_iff {needle s rest : List Char} :
    afterStart? needle s = some rest ↔ s = needle ++ rest := by
  induction needle generalizing s with
  | nil => simp [afterStart?]
  | cons n needle ih =>
      cases s with
      | nil => simp [afterStart?]
      | cons c s =>
          rw [afterStart?]
          by_cases same : n = c
          · simp [same, ih]
          · have apart : ¬ c = n := fun e => same e.symm
            simp [same, apart]

theorem startsWith_iff (needle s : List Char) : startsWith needle s = true ↔ needle <+: s := by
  unfold startsWith
  rw [Option.isSome_iff_exists]
  exact exists_congr fun _ => afterStart?_eq_some_iff.trans eq_comm

theorem endsWith_iff (needle s : List Char) : endsWith needle s = true ↔ needle <:+ s := by
  unfold endsWith
  rw [startsWith_iff, List.reverse_prefix]

theorem append_of_cutAt? {needle s before after : List Char}
    (h : cutAt? needle s = some (before, after)) : s = before ++ needle ++ after := by
  induction s generalizing before with
  | nil =>
      obtain ⟨rest, found, same⟩ := Option.map_eq_some_iff.mp h
      cases same
      exact afterStart?_eq_some_iff.mp found
  | cons c s ih =>
      rw [cutAt?] at h
      cases found : afterStart? needle (c :: s) with
      | some rest =>
          rw [found] at h
          cases h
          exact afterStart?_eq_some_iff.mp found
      | none =>
          rw [found] at h
          obtain ⟨cut, later, same⟩ := Option.map_eq_some_iff.mp h
          cases same
          exact congrArg (c :: ·) (ih later)

end Ends

end ComponentAtlas.Text
