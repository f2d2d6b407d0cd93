import Mathlib.Data.List.Basic
import ComponentAtlas.Proofs.Path.Shape

/-!
Ways from one place to another. A normal absolute path is its names behind one slash. Climbing
takes names up that lead up and puts the others on top, so the way from a directory to a place,
taken from that directory, ends in that place.
-/

namespace ComponentAtlas.Path

open Text

/-- A name of its own: it neither stays nor leads up, and holds no slash. -/
structure Proper (name : String) : Prop where
  not_here : isHere name = false
  not_up : name ≠ ".."
  no_slash : ∀ c ∈ name.toList, c ≠ '/'

instance (name : String) : Decidable (Proper name) :=
  decidable_of_iff (isHere name = false ∧ name ≠ ".." ∧ '/' ∉ name.toList)
    ⟨fun ⟨place, own, plain⟩ => ⟨place, own, fun _ hc slash => plain (slash ▸ hc)⟩,
      fun ⟨place, own, plain⟩ => ⟨place, own, fun slash => plain '/' slash rfl⟩⟩

/-- The absolute path of the names. -/
def ofNames (names : List String) : String := "/" ++ join "/" names

section Names

@[simp]
theorem toList_ofNames (names : List String) :
    (ofNames names).toList = '/' :: (join "/" names).toList := by
  rw [ofNames, String.toList_append]
  rfl

theorem pieces_append (s t : String) : pieces (s ++ "/" ++ t) = pieces s ++ pieces t :=
  splitText_append '/' s t

theorem pieces_join {names : List String} (some_name : names ≠ [])
    (h : ∀ n ∈ names, ∀ c ∈ n.toList, c ≠ '/') : pieces (join "/" names) = names :=
  splitText_join some_name h

@[simp]
theorem names_append (s t : String) :
    (parts (s ++ "/" ++ t)).names = (parts s).names ++ (parts t).names := by
  rw [parts, pieces_append, List.filter_append]
  rfl

theorem names_no_slash (s : String) : ∀ n ∈ (parts s).names, ∀ c ∈ n.toList, c ≠ '/' :=
  fun _ hn c hc => (mem_pieces (List.mem_filter.mp hn).1 c hc).2

@[simp]
theorem names_empty : (parts "").names = [] := by decide

/-- A slash in front adds no name. -/
@[simp]
theorem names_slash_append (s : String) : (parts ("/" ++ s)).names = (parts s).names := by
  simpa using names_append "" s

/-- A slash at the end adds no name. -/
@[simp]
theorem names_append_slash (s : String) : (parts (s ++ "/")).names = (parts s).names := by
  simpa using names_append s ""

theorem names_join {names : List String} (h : ∀ n ∈ names, ∀ c ∈ n.toList, c ≠ '/') :
    (parts (join "/" names)).names = names.filter (!isHere ·) := by
  cases names with
  | nil => exact names_empty
  | cons n names => rw [parts, pieces_join (List.cons_ne_nil n names) h]

theorem names_ofNames {names : List String} (h : ∀ n ∈ names, Proper n) :
    (parts (ofNames names)).names = names := by
  rw [ofNames, names_slash_append, names_join fun n hn => (h n hn).no_slash]
  exact List.filter_eq_self.mpr fun n hn => by simp [(h n hn).not_here]

theorem ofNames_over {P : Char → Prop} (slash : P '/') {names : List String}
    (h : ∀ n ∈ names, Over P n) : Over P (ofNames names) := by
  intro c hc
  rw [toList_ofNames] at hc
  rcases List.mem_cons.mp hc with rfl | inside
  · exact slash
  · rcases mem_join inside with between | ⟨n, hn, inside⟩
    · exact (by simpa using between : c = '/') ▸ slash
    · exact h n hn c inside

end Names

section Shown

theorem names_slashText_append (k : Nat) (t : String) :
    (parts (slashText k ++ t)).names = (parts t).names := by
  induction k with
  | zero => rw [slashText, List.replicate_zero, String.ofList_nil, String.empty_append]
  | succ k ih =>
      have front : slashText (k + 1) ++ t = "/" ++ (slashText k ++ t) := by
        apply String.toList_injective
        simp [slashText, List.replicate_succ]
      rw [front, names_slash_append, ih]

theorem leadingSlashes_slashText_append {k : Nat} (few : k ≤ 2) {t : String}
    (h : t.toList.head? ≠ some '/') : leadingSlashes (slashText k ++ t) = k := by
  have own : t.toList.takeWhile (· == '/') = [] := by
    cases shape : t.toList with
    | nil => rfl
    | cons c rest =>
        rw [shape] at h
        have other : c ≠ '/' := fun e => h (congrArg some e)
        simp [other]
  have count : ((slashText k ++ t).toList.takeWhile (· == '/')).length = k := by
    rw [slashText, String.toList_append, String.toList_ofList, List.takeWhile_append_of_pos
      (fun c hc => beq_iff_eq.mpr (List.mem_replicate.mp hc).2), own, List.append_nil,
      List.length_replicate]
  rw [leadingSlashes, count]
  exact if_pos few

/-- What a path is shown as has the parts of the path. -/
theorem parts_text {p : Parts} (few : p.slashes ≤ 2)
    (h : ∀ n ∈ p.names, isHere n = false ∧ ∀ c ∈ n.toList, c ≠ '/') : parts p.text = p := by
  obtain ⟨slashes, names⟩ := p
  dsimp only at few h
  have kept : names.filter (!isHere ·) = names :=
    List.filter_eq_self.mpr fun n hn => by simp [(h n hn).1]
  have start : (join "/" names).toList.head? ≠ some '/' := by
    cases names with
    | nil => decide
    | cons n names =>
        have own := h n List.mem_cons_self
        rw [head?_join _ _ _ (not_isHere_ne_empty own.1)]
        exact fun slash => own.2 '/' (List.mem_of_head? slash) rfl
  rw [Parts.text]
  split
  · rename_i none_lead none_named
    dsimp only at none_lead none_named
    rw [none_lead, none_named]
    decide
  · have shown : (parts (slashText slashes ++ join "/" names)).names = names := by
      rw [names_slashText_append, names_join fun n hn => (h n hn).2, kept]
    exact congrArg₂ Parts.mk (leadingSlashes_slashText_append few start) shown

theorem parts_text_parts (s : String) : parts (parts s).text = parts s := by
  refine parts_text ?_ ?_
  · show leadingSlashes s ≤ 2
    unfold leadingSlashes
    dsimp only
    split <;> omega
  · intro n hn
    exact ⟨by simpa using (List.mem_filter.mp hn).2, names_no_slash s n hn⟩

end Shown

section Climbing

theorem foldl_climb_filter (rooted : Bool) (names stack : List String) :
    names.foldl (climb rooted) stack = (names.filter (!isHere ·)).foldl (climb rooted) stack := by
  induction names generalizing stack with
  | nil => rfl
  | cons n names ih => cases here : isHere n <;> simp [here, climb, ih]

theorem foldl_climb_proper {names : List String} (h : ∀ n ∈ names, Proper n) (rooted : Bool)
    (stack : List String) : names.foldl (climb rooted) stack = names.reverse ++ stack := by
  induction names generalizing stack with
  | nil => rfl
  | cons n names ih =>
      have own := h n List.mem_cons_self
      have step : climb rooted stack n = n :: stack := by simp [climb, own.not_here, own.not_up]
      rw [List.foldl_cons, step, ih fun m hm => h m (List.mem_cons_of_mem n hm)]
      simp

/-- Going up as often as there are names on top leaves what is below them. -/
theorem foldl_climb_up {above : List String} (h : ∀ n ∈ above, Proper n) (rooted : Bool)
    (stack : List String) :
    (List.replicate above.length "..").foldl (climb rooted) (above ++ stack) = stack := by
  induction above with
  | nil => rfl
  | cons top above ih =>
      have own := h top List.mem_cons_self
      have step : climb rooted (top :: (above ++ stack)) ".." = above ++ stack := by
        simp [climb, isHere, own.not_up]
      rw [List.length_cons, List.replicate_succ, List.foldl_cons, List.cons_append, step]
      exact ih fun n hn => h n (List.mem_cons_of_mem top hn)

/-- From the root directory no name that leads up is ever kept. -/
theorem proper_climb {stack : List String} (h : ∀ n ∈ stack, Proper n) {name : String}
    (plain : ∀ c ∈ name.toList, c ≠ '/') : ∀ n ∈ climb true stack name, Proper n := by
  unfold climb
  split
  · exact h
  · rename_i place
    split
    · cases stack with
      | nil => exact h
      | cons top below =>
          have own := h top List.mem_cons_self
          simp only [beq_iff_eq, own.not_up, if_false]
          exact fun n hn => h n (List.mem_cons_of_mem top hn)
    · rename_i notUp
      intro n hn
      rcases List.mem_cons.mp hn with rfl | below
      · exact ⟨Bool.eq_false_iff.mpr place, mt beq_iff_eq.mpr notUp, plain⟩
      · exact h n below

theorem proper_climbAll {names : List String} (plain : ∀ n ∈ names, ∀ c ∈ n.toList, c ≠ '/') :
    ∀ n ∈ climbAll true names, Proper n := by
  have run : ∀ stack : List String, (∀ n ∈ stack, Proper n) →
      ∀ n ∈ names.foldl (climb true) stack, Proper n := by
    induction names with
    | nil => exact fun stack h => h
    | cons name names ih =>
        intro stack h
        have first := proper_climb h (plain name List.mem_cons_self)
        exact ih (fun n hn => plain n (List.mem_cons_of_mem name hn)) _ first
  intro n hn
  exact run [] (fun m hm => absurd hm List.not_mem_nil) n (List.mem_reverse.mp hn)

end Climbing

section Normal

/-- The path is normal and starts with one slash. -/
structure Normal (p : String) : Prop where
  one_slash : leadingSlashes p = 1
  normal : normalize p = p

theorem normalize_of_one_slash {s : String} (h : leadingSlashes s = 1) :
    normalize s = ofNames (climbAll true (parts s).names) := by
  have names : climbAll true (pieces s) = climbAll true (parts s).names :=
    congrArg List.reverse (foldl_climb_filter true (pieces s) [])
  have shape : normalParts s = ⟨1, climbAll true (parts s).names⟩ := by
    rw [normalParts, h, ← names]
    rfl
  rw [normalize, shape]
  rfl

theorem Normal.exists_names {p : String} (h : Normal p) :
    ∃ names, (∀ n ∈ names, Proper n) ∧ p = ofNames names :=
  ⟨_, proper_climbAll (names_no_slash p),
    h.normal.symm.trans (normalize_of_one_slash h.one_slash)⟩

theorem leadingSlashes_cons {s : String} (rest : List Char) (shape : s.toList = '/' :: rest)
    (h : rest.head? ≠ some '/') : leadingSlashes s = 1 := by
  rw [leadingSlashes, shape]
  cases rest with
  | nil => rfl
  | cons c rest =>
      have other : c ≠ '/' := fun e => h (congrArg some e)
      simp [other]

theorem Proper.head? {name : String} (h : Proper name) : name.toList.head? ≠ some '/' :=
  fun slash => h.no_slash '/' (List.mem_of_head? slash) rfl

theorem leadingSlashes_ofNames {names : List String} (h : ∀ n ∈ names, Proper n) :
    leadingSlashes (ofNames names) = 1 := by
  refine leadingSlashes_cons (join "/" names).toList (toList_ofNames names) ?_
  cases names with
  | nil => decide
  | cons n names =>
      have own := h n List.mem_cons_self
      rw [head?_join _ _ _ (not_isHere_ne_empty own.not_here)]
      exact own.head?

theorem normal_ofNames {names : List String} (h : ∀ n ∈ names, Proper n) :
    Normal (ofNames names) := by
  have one := leadingSlashes_ofNames h
  refine ⟨one, ?_⟩
  rw [normalize_of_one_slash one, names_ofNames h, climbAll, foldl_climb_proper h]
  simp

theorem normal_normalize {s : String} (h : leadingSlashes s = 1) : Normal (normalize s) := by
  rw [normalize_of_one_slash h]
  exact normal_ofNames (proper_climbAll (names_no_slash s))

end Normal

section Directories

/-- Below the root directory one more name follows a slash of its own. -/
theorem toList_ofNames_concat (init : List String) (last : String) :
    (ofNames (init ++ [last])).toList =
      (if init = [] then [] else (ofNames init).toList) ++ '/' :: last.toList := by
  cases init with
  | nil => simp
  | cons n init =>
      have split := join_concat "/" (List.cons_ne_nil n init) last
      rw [List.cons_append] at split
      simp [split]

theorem ofNames_concat {init : List String} (some_name : init ≠ []) (last : String) :
    ofNames (init ++ [last]) = ofNames init ++ "/" ++ last := by
  apply String.toList_injective
  simp [join_concat "/" some_name]

theorem Proper.exists_last {name : String} (h : Proper name) :
    ∃ before c, name.toList = before ++ [c] ∧ c ≠ '/' := by
  have nonempty : name.toList ≠ [] :=
    mt String.toList_eq_nil_iff.mp (not_isHere_ne_empty h.not_here)
  refine ⟨name.toList.dropLast, name.toList.getLast nonempty,
    (List.dropLast_concat_getLast nonempty).symm, ?_⟩
  exact h.no_slash _ (List.getLast_mem nonempty)

theorem ofNames_exists_last {names : List String} (h : ∀ n ∈ names, Proper n)
    (some_name : names ≠ []) : ∃ before c, (ofNames names).toList = before ++ [c] ∧ c ≠ '/' := by
  obtain ⟨init, last, rfl⟩ := (List.eq_nil_or_concat' names).resolve_left some_name
  obtain ⟨before, c, shape, other⟩ := (h last (by simp)).exists_last
  refine ⟨(if init = [] then [] else (ofNames init).toList) ++ '/' :: before, c, ?_, other⟩
  rw [toList_ofNames_concat, shape, ← List.cons_append, ← List.append_assoc]

theorem directory_ofNames {names : List String} (h : ∀ n ∈ names, Proper n) :
    directory (ofNames names) = ofNames names.dropLast := by
  rcases List.eq_nil_or_concat' names with rfl | ⟨init, last, rfl⟩
  · decide
  · have upTo : ∀ before, trimRightOf (· != '/') (before ++ '/' :: last.toList) = before ++ ['/'] :=
      fun before => trimRightOf_append_cons before (by decide) fun c hc =>
        bne_iff_ne.mpr ((h last (by simp)).no_slash c hc)
    rw [List.dropLast_concat, directory_eq, toList_ofNames_concat, upTo]
    by_cases top : init = []
    · rw [if_pos top, top]
      decide
    · obtain ⟨before, c, shape, other⟩ :=
        ofNames_exists_last (fun n hn => h n (List.mem_append_left _ hn)) top
      have named : ((ofNames init).toList ++ ['/']).all (· == '/') = false := by
        simp [shape, other]
      rw [if_neg top, named, if_neg Bool.false_ne_true, shape, List.append_assoc,
        List.singleton_append, trimRightOf_append_cons before (by simpa using other) (by simp),
        ← shape, String.ofList_toList]

/-- A relative path adds its names to those of the base. -/
theorem names_joined {base s : String} (relative : isAbsolute s = false) :
    (parts (joined base s)).names = (parts base).names ++ (parts s).names := by
  rw [joined, if_neg (by simp [relative])]
  split
  · rename_i slashed
    rcases List.eq_nil_or_concat' base.toList with empty | ⟨before, c, shape⟩
    · simp [String.toList_eq_nil_iff.mp empty]
    · have slash : c = '/' := by simpa [shape] using slashed
      have cut : base = String.ofList before ++ "/" := by
        apply String.toList_injective
        rw [shape, slash, String.toList_append, String.toList_ofList]
        rfl
      simp [cut]
  · exact names_append base s

/-- What follows a character that is no slash brings no slash to those in front. -/
theorem leadingSlashes_append {a : String} (some_letter : ∃ c ∈ a.toList, c ≠ '/') (t : String) :
    leadingSlashes (a ++ t) = leadingSlashes a := by
  have shorter : (a.toList.takeWhile (· == '/')).length ≠ a.toList.length := by
    intro whole
    obtain ⟨c, hc, letter⟩ := some_letter
    have all := List.takeWhile_eq_self_iff.mp
      ((List.takeWhile_prefix (· == '/')).eq_of_length whole) c hc
    exact letter (beq_iff_eq.mp all)
  unfold leadingSlashes
  rw [String.toList_append, List.takeWhile_append, if_neg shorter]

/-- A relative path behind a directory brings no slash to those in front. -/
theorem leadingSlashes_joined {base s : String} (relative : isAbsolute s = false) :
    leadingSlashes (joined base s) = leadingSlashes base := by
  have start : s.toList.takeWhile (· == '/') = [] := by
    cases shape : s.toList with
    | nil => rfl
    | cons c rest =>
        rw [isAbsolute, shape] at relative
        exact List.takeWhile_cons_of_neg (by simpa using relative)
  rw [joined, if_neg (by simp [relative])]
  by_cases all : ∀ c ∈ base.toList, (c == '/') = true
  · have slashed : base.toList.getLast?.all (· == '/') = true := by
      cases last : base.toList.getLast? with
      | none => rfl
      | some c => exact all c (List.mem_of_getLast? last)
    rw [if_pos slashed]
    unfold leadingSlashes
    rw [String.toList_append, List.takeWhile_append_of_pos all, start, List.append_nil,
      List.takeWhile_eq_self_iff.mpr all]
  · have some_letter : ∃ c ∈ base.toList, c ≠ '/' := by simpa using all
    split
    · exact leadingSlashes_append some_letter s
    · rw [String.append_assoc]
      exact leadingSlashes_append some_letter ("/" ++ s)

theorem normal_absolute [here : WorkingDirectory] {s : String} (h : leadingSlashes s ≠ 2) :
    Normal (absolute s) := by
  refine normal_normalize ?_
  cases own : isAbsolute s with
  | true =>
      have some_slash := mt (leadingSlashes_eq_zero_iff s).mp (by simp [own])
      have few : leadingSlashes s ≤ 2 := by
        unfold leadingSlashes
        dsimp only
        split <;> omega
      rw [joined, if_pos own]
      omega
  | false => rw [leadingSlashes_joined own, here.rooted]

end Directories

section Ways

theorem dropCommon_eq (as bs : List String) : ∃ common,
    as = common ++ (dropCommon as bs).1 ∧ bs = common ++ (dropCommon as bs).2 := by
  fun_induction dropCommon as bs with
  | case1 a as b bs same ih =>
      obtain ⟨common, left, right⟩ := ih
      obtain rfl := beq_iff_eq.mp same
      exact ⟨a :: common, congrArg (a :: ·) left, congrArg (a :: ·) right⟩
  | case2 a as b bs differ => exact ⟨[], rfl, rfl⟩
  | case3 as bs done => exact ⟨[], rfl, rfl⟩

/-- The names of the way: the way up, then the way down. -/
def wayNames (base place : List String) : List String :=
  List.replicate (dropCommon base place).1.length ".." ++ (dropCommon base place).2

/-- Going up from a directory and then down leads to what is below the directory above it. -/
theorem climbAll_up_down {common up down : List String} (base : ∀ n ∈ common ++ up, Proper n)
    (below : ∀ n ∈ down, Proper n) :
    climbAll true (common ++ up ++ (List.replicate up.length ".." ++ down)) = common ++ down := by
  have above : ∀ n ∈ up.reverse, Proper n := fun n hn =>
    base n (List.mem_append_right common (List.mem_reverse.mp hn))
  -- The names of the base stand upside down on the stack, so those to leave are on top.
  have gone := foldl_climb_up above true common.reverse
  rw [List.length_reverse] at gone
  rw [climbAll, List.foldl_append, List.foldl_append, foldl_climb_proper base, List.append_nil,
    List.reverse_append, gone, foldl_climb_proper below]
  simp

theorem climbAll_wayNames {base place : List String} (hbase : ∀ n ∈ base, Proper n)
    (hplace : ∀ n ∈ place, Proper n) : climbAll true (base ++ wayNames base place) = place := by
  obtain ⟨common, left, right⟩ := dropCommon_eq base place
  rw [wayNames]
  generalize (dropCommon base place).1 = up at left ⊢
  generalize (dropCommon base place).2 = down at right ⊢
  subst left right
  exact climbAll_up_down hbase fun n hn => hplace n (List.mem_append_right common hn)

/-- `base` names the directory that is `levels` above `directory`. -/
def Above (levels : Nat) (directory : String) (base : List String) : Prop :=
  ∃ below, below.length = levels ∧ (parts directory).names = base ++ below

/-- A relative path taken from a directory climbs from the names of the directory. -/
theorem normalize_joined {base : List String} (hbase : ∀ n ∈ base, Proper n) {s : String}
    (relative : isAbsolute s = false) : normalize (joined (ofNames base) s) =
      ofNames (climbAll true (base ++ (parts s).names)) := by
  have rooted := (leadingSlashes_joined relative).trans (leadingSlashes_ofNames hbase)
  rw [normalize_of_one_slash rooted, names_joined relative, names_ofNames hbase]

/-- The way from a directory to a place: up to the last directory above both, then down. Where
nothing leads up it starts with a dot. -/
def way (base place : String) : String :=
  let (up, down) := dropCommon (parts base).names (parts place).names
  join "/" (if up = [] then "." :: down else List.replicate up.length ".." ++ down)

theorem way_ofNames {base place : List String} (hbase : ∀ n ∈ base, Proper n)
    (hplace : ∀ n ∈ place, Proper n) :
    (way (ofNames base) (ofNames place)).toList.head? = some '.' ∧
      (parts (way (ofNames base) (ofNames place))).names = wayNames base place := by
  have dots : ∀ c ∈ "..".toList, c ≠ '/' := by simp
  have dot : ∀ c ∈ ".".toList, c ≠ '/' := by simp
  have below : ∀ n ∈ (dropCommon base place).2, Proper n := fun n hn =>
    hplace n (dropCommon_snd_subset base place hn)
  have kept : (dropCommon base place).2.filter (!isHere ·) = (dropCommon base place).2 :=
    List.filter_eq_self.mpr fun n hn => by simp [(below n hn).not_here]
  rw [way, wayNames, names_ofNames hbase, names_ofNames hplace]
  generalize dropCommon base place = ends at below kept ⊢
  obtain ⟨up, down⟩ := ends
  dsimp only at below kept ⊢
  cases up with
  | nil =>
      have plain : ∀ n ∈ "." :: down, ∀ c ∈ n.toList, c ≠ '/' :=
        List.forall_mem_cons.mpr ⟨dot, fun n hn => (below n hn).no_slash⟩
      rw [if_pos rfl, head?_join _ _ _ (by decide), names_join plain]
      exact ⟨by decide, kept⟩
  | cons first up =>
      have plain : ∀ n ∈ List.replicate (first :: up).length ".." ++ down,
          ∀ c ∈ n.toList, c ≠ '/' := by
        intro n hn
        rcases List.mem_append.mp hn with above | later
        · exact (List.mem_replicate.mp above).2 ▸ dots
        · exact (below n later).no_slash
      rw [if_neg (List.cons_ne_nil first up), names_join plain, List.filter_append, kept,
        List.length_cons, List.replicate_succ, List.cons_append, head?_join _ _ _ (by decide)]
      exact ⟨by decide, by simp [isHere]⟩

/-- The way from the directory of a path to a place, taken from there, ends in the place. -/
theorem normalize_joined_way {importer place s : String} (himporter : Normal importer)
    (hplace : Normal place)
    (h : s = way (directory importer) place ∨ s = way (directory importer) place ++ "/") :
    s.toList.head? = some '.' ∧ normalize (joined (directory importer) s) = place := by
  obtain ⟨names, proper, rfl⟩ := himporter.exists_names
  obtain ⟨there, proper_there, rfl⟩ := hplace.exists_names
  have above : ∀ n ∈ names.dropLast, Proper n := fun n hn =>
    proper n (List.dropLast_subset names hn)
  rw [directory_ofNames proper] at h ⊢
  obtain ⟨starts, steps⟩ := way_ofNames above proper_there
  have same : s.toList.head? = some '.' ∧ (parts s).names = wayNames names.dropLast there := by
    rcases h with rfl | rfl
    · exact ⟨starts, steps⟩
    · rw [names_append_slash, String.toList_append, List.head?_append, starts]
      exact ⟨rfl, steps⟩
  have relative : isAbsolute s = false := by
    rw [isAbsolute, same.1]
    decide
  refine ⟨same.1, ?_⟩
  rw [normalize_joined above relative, same.2, climbAll_wayNames above proper_there]

end Ways

end ComponentAtlas.Path
