import ComponentAtlas.Extract.TypeScript.Body

/-!
Bracket blocks. A block starts with a bracket that its last character closes, and no bracket before
closes it. Counting open brackets from the first one on finds exactly the block at the start of a
text, and finds none exactly where no start of the text is a block.
-/

namespace ComponentAtlas.TypeScript

open Text

inductive Bracket where
  | brace
  | paren

namespace Bracket

def opener : Bracket → Char
  | brace => '{'
  | paren => '('

def closer : Bracket → Char
  | brace => '}'
  | paren => ')'

theorem opener_ne_closer (b : Bracket) : b.opener ≠ b.closer := by
  cases b <;> decide

end Bracket

/-- As many brackets are closed as are opened, and fewer before the end. -/
structure Block (b : Bracket) (s : List Char) : Prop where
  starts : s.head? = some b.opener
  even : s.count b.opener = s.count b.closer
  inside : ∀ p, p <+: s → p ≠ [] → p ≠ s → p.count b.closer < p.count b.opener

/-- With `depth` brackets open in front of it, the text closes the last one at its end. -/
structure Closes (b : Bracket) (depth : Nat) (s : List Char) : Prop where
  even : s.count b.closer = depth + s.count b.opener
  inside : ∀ p, p <+: s → p ≠ s → p.count b.closer < depth + p.count b.opener

section Closing

variable {b : Bracket} {depth after n : Nat} {c : Char} {s : List Char}

theorem closes_zero_iff : Closes b 0 s ↔ s = [] := by
  constructor
  · intro h
    cases s with
    | nil => rfl
    | cons c s =>
        have start := h.inside [] List.nil_prefix (List.cons_ne_nil c s).symm
        simp at start
  · rintro rfl
    exact ⟨rfl, fun p hp other => absurd (List.prefix_nil.mp hp) other⟩

theorem not_closes_nil (some_open : 0 < depth) : ¬ Closes b depth [] := fun h => by
  have even := h.even
  simp at even
  omega

/-- One character later `after` brackets are open. -/
theorem closes_cons_iff (some_open : 0 < depth)
    (step : after + [c].count b.closer = depth + [c].count b.opener) :
    Closes b depth (c :: s) ↔ Closes b after s := by
  have first (d : Char) (t : List Char) : (c :: t).count d = [c].count d + t.count d := by
    rw [← List.count_append, List.singleton_append]
  have opened := first b.opener
  have closed := first b.closer
  constructor
  · rintro ⟨even, inside⟩
    rw [opened, closed] at even
    refine ⟨by omega, fun p hp other => ?_⟩
    have here := inside (c :: p) (List.cons_prefix_cons.mpr ⟨rfl, hp⟩) (by simpa using other)
    rw [opened, closed] at here
    omega
  · rintro ⟨even, inside⟩
    refine ⟨by rw [opened, closed]; omega, fun p hp other => ?_⟩
    cases p with
    | nil => simpa using some_open
    | cons d p =>
        obtain ⟨rfl, behind⟩ := List.cons_prefix_cons.mp hp
        have here := inside p behind fun same => other (same ▸ rfl)
        rw [opened, closed]
        omega

theorem closingLength?_cons (some_open : 0 < depth)
    (step : after + [c].count b.closer = depth + [c].count b.opener) :
    closingLength? b.opener b.closer depth (c :: s) =
      if after = 0 then some 1 else (closingLength? b.opener b.closer after s).map (· + 1) := by
  have apart := b.opener_ne_closer
  obtain ⟨d, rfl⟩ : ∃ d, depth = d + 1 := ⟨depth - 1, by omega⟩
  by_cases opens : c = b.opener
  · subst opens
    obtain rfl : after = d + 2 := by simpa [apart] using step
    cases d <;> simp [closingLength?]
  · by_cases closes : c = b.closer
    · subst closes
      obtain rfl : after = d := by simpa [opens] using step
      cases after <;> simp [closingLength?, opens]
    · obtain rfl : after = d + 1 := by simpa [opens, closes] using step
      cases d <;> simp [closingLength?, opens, closes]

/-- The count ends exactly where the last open bracket is closed. -/
theorem closingLength?_eq_some_iff (some_open : 0 < depth) :
    closingLength? b.opener b.closer depth s = some n ↔
      n ≤ s.length ∧ Closes b depth (s.take n) := by
  induction s generalizing depth n with
  | nil =>
      have never := not_closes_nil (b := b) some_open
      simp [closingLength?, never]
  | cons c s ih =>
      have never := not_closes_nil (b := b) some_open
      obtain ⟨after, step⟩ : ∃ after, after + [c].count b.closer = depth + [c].count b.opener := by
        have once : [c].count b.closer ≤ 1 := List.count_le_length
        exact ⟨depth + [c].count b.opener - [c].count b.closer, by omega⟩
      rw [closingLength?_cons some_open step]
      cases n with
      | zero =>
          split <;> simp [never]
      | succ n =>
          rw [List.take_succ_cons, closes_cons_iff some_open step]
          split
          · rename_i all_closed
            subst all_closed
            rw [closes_zero_iff, List.take_eq_nil_iff]
            constructor
            · intro same
              obtain rfl : n = 0 := by simpa using same
              exact ⟨by simp, .inl rfl⟩
            · rintro ⟨fits, here⟩
              obtain rfl : n = 0 := here.elim id fun none => by simpa [none] using fits
              rfl
          · rename_i still_open
            simpa using ih (Nat.pos_of_ne_zero still_open)

end Closing

section Blocks

variable {b : Bracket} {n : Nat} {s : List Char}

/-- Behind its first bracket a block closes that bracket at its end. -/
theorem block_cons_iff : Block b (b.opener :: s) ↔ Closes b 1 s := by
  have apart := b.opener_ne_closer
  have opened (t : List Char) : (b.opener :: t).count b.opener = 1 + t.count b.opener := by
    rw [List.count_cons_self, Nat.add_comm]
  have closed (t : List Char) : (b.opener :: t).count b.closer = t.count b.closer :=
    List.count_cons_of_ne apart
  constructor
  · rintro ⟨_, even, inside⟩
    rw [opened, closed] at even
    refine ⟨even.symm, fun p hp other => ?_⟩
    have here := inside (b.opener :: p) (List.cons_prefix_cons.mpr ⟨rfl, hp⟩)
      (List.cons_ne_nil _ _) (by simpa using other)
    rwa [opened, closed] at here
  · rintro ⟨even, inside⟩
    refine ⟨rfl, by rw [opened, closed, even], fun p hp some_char other => ?_⟩
    obtain ⟨c, p, rfl⟩ := List.exists_cons_of_ne_nil some_char
    obtain ⟨rfl, behind⟩ := List.cons_prefix_cons.mp hp
    rw [opened, closed]
    exact inside p behind fun same => other (same ▸ rfl)

/-- What is counted off from a bracket is the block that it starts. -/
theorem closingLength?_block_iff : closingLength? b.opener b.closer 0 (b.opener :: s) = some n ↔
    n ≤ (b.opener :: s).length ∧ Block b ((b.opener :: s).take n) := by
  have first : closingLength? b.opener b.closer 0 (b.opener :: s) =
      (closingLength? b.opener b.closer 1 s).map (· + 1) := by
    simp [closingLength?]
  rw [first]
  cases n with
  | zero =>
      constructor
      · intro none
        obtain ⟨_, _, same⟩ := Option.map_eq_some_iff.mp none
        cases same
      · rintro ⟨_, block⟩
        cases block.starts
  | succ n =>
      rw [List.take_succ_cons, block_cons_iff]
      simpa using closingLength?_eq_some_iff Nat.one_pos

theorem closingLength?_eq_none_iff : closingLength? b.opener b.closer 0 (b.opener :: s) = none ↔
    ∀ p, p <+: b.opener :: s → ¬ Block b p := by
  rw [Option.eq_none_iff_forall_ne_some]
  constructor
  · intro unclosed p hp block
    refine unclosed p.length (closingLength?_block_iff.mpr ⟨hp.length_le, ?_⟩)
    rwa [← List.prefix_iff_eq_take.mp hp]
  · intro none n found
    exact none _ (List.take_prefix n _) (closingLength?_block_iff.mp found).2

end Blocks

end ComponentAtlas.TypeScript
