import ComponentAtlas.Path
import ComponentAtlas.Proofs.Text.Pieces

/-!
Which paths start with a slash, and which characters a path is made of. Normalising keeps both: a
path stays absolute or relative, and no character comes in but dots and slashes. The way from one
directory to another never starts with a slash.
-/

namespace ComponentAtlas.Path

open Text

/-- The characters of `s` all satisfy `P`. -/
def Over (P : Char → Prop) (s : String) : Prop := ∀ c ∈ s.toList, P c

theorem isAbsolute_iff_cons (s : String) :
    isAbsolute s = true ↔ ∃ rest, s.toList = '/' :: rest := by
  rw [isAbsolute]
  cases s.toList with
  | nil => simp
  | cons c rest => simp

theorem leadingSlashes_eq_zero_iff (s : String) : leadingSlashes s = 0 ↔ isAbsolute s = false := by
  rw [leadingSlashes, isAbsolute]
  cases s.toList with
  | nil => simp
  | cons c rest =>
      by_cases h : c = '/'
      · simp [h]
        split <;> omega
      · simp [h]

/-- A name is a place of its own: neither empty nor a single dot. -/
theorem not_isHere_ne_empty {name : String} (h : isHere name = false) : name ≠ "" := by
  rintro rfl
  exact absurd h (by decide)

theorem mem_climb {rooted : Bool} {stack : List String} {name n : String}
    (h : n ∈ climb rooted stack name) : n ∈ stack ∨ n = ".." ∨ n = name ∧ isHere name = false := by
  unfold climb at h
  split at h
  · exact .inl h
  · rename_i place
    split at h
    · split at h
      · split at h
        · exact absurd h List.not_mem_nil
        · exact .inr (.inl (List.mem_singleton.mp h))
      · split at h
        · exact (List.mem_cons.mp h).elim (fun e => .inr (.inl e)) .inl
        · exact .inl (List.mem_cons_of_mem _ h)
    · rcases List.mem_cons.mp h with rfl | below
      · exact .inr (.inr ⟨rfl, Bool.eq_false_iff.mpr place⟩)
      · exact .inl below

theorem mem_foldl_climb {rooted : Bool} {names stack : List String} {n : String}
    (h : n ∈ names.foldl (climb rooted) stack) :
    n ∈ stack ∨ n = ".." ∨ n ∈ names ∧ isHere n = false := by
  induction names generalizing stack with
  | nil => exact .inl h
  | cons name names ih =>
      rcases ih h with earlier | up | ⟨later, place⟩
      · rcases mem_climb earlier with old | up | ⟨rfl, place⟩
        · exact .inl old
        · exact .inr (.inl up)
        · exact .inr (.inr ⟨List.mem_cons_self, place⟩)
      · exact .inr (.inl up)
      · exact .inr (.inr ⟨List.mem_cons_of_mem _ later, place⟩)

theorem mem_climbAll {rooted : Bool} {names : List String} {n : String}
    (h : n ∈ climbAll rooted names) : n = ".." ∨ n ∈ names ∧ isHere n = false := by
  rw [climbAll, List.mem_reverse] at h
  exact (mem_foldl_climb h).resolve_left List.not_mem_nil

theorem mem_pieces {s name : String} (h : name ∈ pieces s) :
    ∀ c ∈ name.toList, c ∈ s.toList ∧ c ≠ '/' := mem_splitText h

/-- The names of a normal path are not empty and hold no slash; what is not of the path are dots. -/
theorem normalParts_names {s n : String} (h : n ∈ (normalParts s).names) :
    n ≠ "" ∧ ∀ c ∈ n.toList, (c ∈ s.toList ∨ c = '.') ∧ c ≠ '/' := by
  rcases mem_climbAll h with rfl | ⟨member, place⟩
  · refine ⟨by decide, fun c hc => ?_⟩
    have dot : c = '.' := by simpa using hc
    exact ⟨.inr dot, by rw [dot]; decide⟩
  · exact ⟨not_isHere_ne_empty place, fun c hc =>
      ⟨.inl (mem_pieces member c hc).1, (mem_pieces member c hc).2⟩⟩

theorem isAbsolute_of_no_slash {n : String} (h : ∀ c ∈ n.toList, c ≠ '/') :
    isAbsolute n = false := by
  rw [Bool.eq_false_iff]
  intro abs
  obtain ⟨rest, shape⟩ := (isAbsolute_iff_cons n).mp abs
  exact h '/' (by rw [shape]; exact List.mem_cons_self) rfl

theorem isAbsolute_join {name : String} {names : List String} (h : name ≠ "") :
    isAbsolute (join "/" (name :: names)) = isAbsolute name := by
  rw [isAbsolute, head?_join _ _ _ h, isAbsolute]

theorem isAbsolute_append {s : String} (t : String) (h : isAbsolute s = true) :
    isAbsolute (s ++ t) = true := by
  obtain ⟨rest, shape⟩ := (isAbsolute_iff_cons s).mp h
  exact (isAbsolute_iff_cons _).mpr ⟨rest ++ t.toList, by rw [String.toList_append, shape]; rfl⟩

theorem isAbsolute_slashText (n : Nat) : isAbsolute (slashText (n + 1)) = true :=
  (isAbsolute_iff_cons _).mpr ⟨List.replicate n '/', by
    rw [slashText, String.toList_ofList, List.replicate_succ]⟩

/-- Normalising keeps a path absolute or relative. -/
theorem isAbsolute_normalize (s : String) : isAbsolute (normalize s) = isAbsolute s := by
  rw [normalize, Parts.text]
  have slashes : (normalParts s).slashes = leadingSlashes s := rfl
  split
  · rename_i none_lead _
    rw [slashes, leadingSlashes_eq_zero_iff] at none_lead
    rw [none_lead]
    decide
  · cases lead : leadingSlashes s with
    | zero =>
        rw [slashes, lead]
        cases hn : (normalParts s).names with
        | nil => simp_all
        | cons name names =>
            have first := normalParts_names (hn ▸ List.mem_cons_self : name ∈ (normalParts s).names)
            have relative := isAbsolute_of_no_slash fun c hc => (first.2 c hc).2
            rw [(leadingSlashes_eq_zero_iff s).mp lead, ← relative, ← isAbsolute_join first.1]
            rfl
    | succ n =>
        have abs : isAbsolute s = true := by
          rw [← Bool.not_eq_false, ← leadingSlashes_eq_zero_iff, lead]
          exact Nat.succ_ne_zero n
        rw [slashes, lead, abs]
        exact isAbsolute_append _ (isAbsolute_slashText n)

theorem normalize_over {P : Char → Prop} (slash : P '/') (dot : P '.') {s : String}
    (h : Over P s) : Over P (normalize s) := by
  intro c hc
  rw [normalize, Parts.text] at hc
  split at hc
  · have same : c = '.' := by simpa using hc
    exact same ▸ dot
  · rw [String.toList_append, List.mem_append] at hc
    rcases hc with lead | member
    · rw [slashText, String.toList_ofList] at lead
      exact (List.mem_replicate.mp lead).2 ▸ slash
    · rcases mem_join member with between | ⟨name, hname, inside⟩
      · have same : c = '/' := by simpa using between
        exact same ▸ slash
      · rcases ((normalParts_names hname).2 c inside).1 with old | rfl
        · exact h c old
        · exact dot

theorem joined_over {P : Char → Prop} (slash : P '/') {base s : String}
    (hbase : Over P base) (hs : Over P s) : Over P (joined base s) := by
  intro c hc
  rw [joined] at hc
  split at hc
  · exact hs c hc
  · split at hc
    · rcases List.mem_append.mp (String.toList_append ▸ hc) with left | right
      · exact hbase c left
      · exact hs c right
    · simp only [String.toList_append, List.mem_append] at hc
      rcases hc with (left | between) | right
      · exact hbase c left
      · have same : c = '/' := by simpa using between
        exact same ▸ slash
      · exact hs c right

/-- An absolute path takes nothing from the working directory. -/
theorem absolute_over [here : WorkingDirectory] {P : Char → Prop} (slash : P '/') (dot : P '.')
    {s : String} (h : Over P s) (directory : isAbsolute s = false → Over P here.path) :
    Over P (absolute s) := by
  refine normalize_over slash dot ?_
  cases own : isAbsolute s with
  | true => rwa [joined, if_pos own]
  | false => exact joined_over slash (directory own) h

theorem isAbsolute_joined {base s : String} (h : isAbsolute base = true) :
    isAbsolute (joined base s) = true := by
  rw [joined]
  split
  · assumption
  · split
    · exact isAbsolute_append s h
    · exact isAbsolute_append s (isAbsolute_append "/" h)

/-- What follows the last slash is cut off, and then the slashes at the end. -/
theorem directory_eq (s : String) : directory s =
    if (trimRightOf (· != '/') s.toList).all (· == '/') then
      String.ofList (trimRightOf (· != '/') s.toList)
    else String.ofList (trimRightOf (· == '/') (trimRightOf (· != '/') s.toList)) := rfl

theorem isAbsolute_directory {s : String} (h : isAbsolute s = true) :
    isAbsolute (directory s) = true := by
  obtain ⟨rest, shape⟩ := (isAbsolute_iff_cons s).mp h
  obtain ⟨upTo, cut⟩ : ∃ upTo, trimRightOf (· != '/') s.toList = '/' :: upTo := by
    rw [shape]
    exact trimRightOf_cons fun none => by simpa using none '/' List.mem_cons_self
  rw [directory_eq, cut]
  split
  · exact (isAbsolute_iff_cons _).mpr ⟨upTo, String.toList_ofList⟩
  · rename_i named
    obtain ⟨kept, trimmed⟩ : ∃ kept, trimRightOf (· == '/') ('/' :: upTo) = '/' :: kept :=
      trimRightOf_cons (mt List.all_eq_true.mpr named)
    rw [trimmed]
    exact (isAbsolute_iff_cons _).mpr ⟨kept, String.toList_ofList⟩

theorem forwardSlashes_over (s : String) : Over (· ≠ '\\') (forwardSlashes s) := by
  intro c hc
  rw [forwardSlashes, String.toList_ofList] at hc
  obtain ⟨old, _, rfl⟩ := List.mem_map.mp hc
  by_cases h : old = '\\' <;> simp [h]

theorem forwardSlashes_eq {s : String} (h : Over (· ≠ '\\') s) : forwardSlashes s = s := by
  have same : s.toList.map (fun c => if c == '\\' then '/' else c) = s.toList.map id :=
    List.map_congr_left fun c hc => if_neg (by simpa using h c hc)
  rw [forwardSlashes, replaceChar, same, List.map_id, String.ofList_toList]

theorem isAbsolute_forwardSlashes {s : String} (h : isAbsolute s = true) :
    isAbsolute (forwardSlashes s) = true := by
  obtain ⟨rest, shape⟩ := (isAbsolute_iff_cons s).mp h
  refine (isAbsolute_iff_cons _).mpr ⟨replaceChar '\\' '/' rest, ?_⟩
  rw [forwardSlashes, String.toList_ofList, shape]
  rfl

theorem isAbsolute_standard {s : String} (h : isAbsolute s = true) :
    isAbsolute (standard s) = true :=
  isAbsolute_forwardSlashes (by rw [isAbsolute_normalize, h])

/-- Without backslashes the standard form is the normal one, and as relative as the path. -/
theorem isAbsolute_standard_of_over {s : String} (h : Over (· ≠ '\\') s) :
    isAbsolute (standard s) = isAbsolute s := by
  rw [standard, forwardSlashes_eq (normalize_over (by decide) (by decide) h), isAbsolute_normalize]

theorem dropCommon_snd_subset (as bs : List String) : (dropCommon as bs).2 ⊆ bs := by
  fun_induction dropCommon as bs with
  | case1 a as b bs same ih => exact fun n hn => List.mem_cons_of_mem _ (ih hn)
  | case2 a as b bs differ => exact List.Subset.refl _
  | case3 as bs done => exact List.Subset.refl _

/-- The names of the way: each leads up, or is a name of the target. -/
theorem relative_eq [WorkingDirectory] (target start : String) :
    ∃ way : List String, relative target start = (if way = [] then "." else join "/" way) ∧
      ∀ n ∈ way, n = ".." ∨ n ∈ pieces (absolute target) ∧ n ≠ "" := by
  have left := dropCommon_snd_subset ((pieces (absolute start)).filter (· != ""))
    ((pieces (absolute target)).filter (· != ""))
  unfold relative
  dsimp only
  generalize dropCommon ((pieces (absolute start)).filter (· != ""))
    ((pieces (absolute target)).filter (· != "")) = ends at left ⊢
  obtain ⟨up, down⟩ := ends
  refine ⟨up.map (fun _ => "..") ++ down, ?_, ?_⟩
  · dsimp only
    cases up.map (fun _ => "..") ++ down <;> rfl
  · intro n hn
    rcases List.mem_append.mp hn with above | below
    · obtain ⟨_, _, rfl⟩ := List.mem_map.mp above
      exact .inl rfl
    · obtain ⟨member, nonempty⟩ := List.mem_filter.mp (left below)
      exact .inr ⟨member, by simpa using nonempty⟩

theorem isAbsolute_relative [WorkingDirectory] (target start : String) :
    isAbsolute (relative target start) = false := by
  obtain ⟨way, shape, steps⟩ := relative_eq target start
  rw [shape]
  cases way with
  | nil => decide
  | cons n way =>
      rw [if_neg (List.cons_ne_nil n way)]
      rcases steps n List.mem_cons_self with rfl | ⟨member, nonempty⟩
      · rw [isAbsolute_join (by decide)]
        decide
      · rw [isAbsolute_join nonempty]
        exact isAbsolute_of_no_slash fun c hc => (mem_pieces member c hc).2

theorem relative_over [WorkingDirectory] {P : Char → Prop} (slash : P '/') (dot : P '.')
    {target : String} (start : String) (h : Over P (absolute target)) :
    Over P (relative target start) := by
  obtain ⟨way, shape, steps⟩ := relative_eq target start
  rw [shape]
  intro c hc
  split at hc
  · exact (by simpa using hc : c = '.') ▸ dot
  · rcases mem_join hc with between | ⟨n, hn, inside⟩
    · exact (by simpa using between : c = '/') ▸ slash
    · rcases steps n hn with rfl | ⟨member, _⟩
      · exact (by simpa using inside : c = '.') ▸ dot
      · exact h c (mem_pieces member c inside).1

theorem isAbsolute_withoutExtension {s : String} (h : isAbsolute s = false) :
    isAbsolute (withoutExtension s) = false := by
  unfold withoutExtension
  dsimp only
  split
  · rw [Bool.eq_false_iff]
    intro abs
    obtain ⟨rest, shape⟩ := (isAbsolute_iff_cons _).mp abs
    rw [String.toList_ofList] at shape
    have first : s.toList.head? = some '/' := by
      cases hs : s.toList with
      | nil => simp [hs] at shape
      | cons c cs =>
          rw [hs] at shape
          cases cut : s.length - (lastPiece '.' (lastPiece '/' s.toList)).length - 1 with
          | zero => simp_all
          | succ n => simp_all
    simp [isAbsolute, first] at h
  · exact h

end ComponentAtlas.Path
