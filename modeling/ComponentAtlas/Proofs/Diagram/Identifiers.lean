import Mathlib.Data.List.Nodup
import Mathlib.Data.List.Perm.Subperm
import ComponentAtlas.Diagram.Identifiers
import ComponentAtlas.Proofs.Table
import ComponentAtlas.Proofs.Text.Pieces

/-!
The identifiers of a diagram. Whatever ids come and in whatever order, each gets an identifier of
its own, and one that a diagram can hold.
-/

namespace ComponentAtlas.Diagram

open Text

/-- The characters that an identifier may have. -/
def IsPlain (c : Char) : Prop :=
  ('A' ≤ c ∧ c ≤ 'Z') ∨ ('a' ≤ c ∧ c ≤ 'z') ∨ ('0' ≤ c ∧ c ≤ '9') ∨ c = '_'

instance : DecidablePred IsPlain := fun c =>
  inferInstanceAs (Decidable (('A' ≤ c ∧ c ≤ 'Z') ∨ ('a' ≤ c ∧ c ≤ 'z') ∨ _ ∨ c = '_'))

theorem isIdentifierChar_iff (c : Char) : isIdentifierChar c = true ↔ IsPlain c := by
  delta isIdentifierChar isUpperLatin isLowerLatin Char.isUpper Char.isLower Char.isDigit IsPlain
  simp only [Bool.or_eq_true, Bool.and_eq_true, decide_eq_true_eq, beq_iff_eq, or_assoc]
  rfl

/-- The plain characters of an id, in their order, or `node` where it has none. -/
def stripped (id : String) : String :=
  let kept := id.toList.filter (IsPlain ·)
  if kept = [] then "node" else String.ofList kept

theorem identifierBase_eq_stripped (id : String) : identifierBase id = stripped id := by
  have kept : id.toList.filter isIdentifierChar = id.toList.filter (IsPlain ·) :=
    List.filter_congr fun c _ => by rw [Bool.eq_iff_iff, isIdentifierChar_iff, decide_eq_true_iff]
  unfold identifierBase stripped
  rw [kept]
  cases id.toList.filter (IsPlain ·) with
  | nil => rfl
  | cons c cs => rfl

/-- What a diagram can hold as an identifier. -/
structure IsIdentifier (s : String) : Prop where
  nonempty : s ≠ ""
  plain : ∀ c ∈ s.toList, isIdentifierChar c = true

theorem isIdentifier_base (id : String) : IsIdentifier (identifierBase id) := by
  unfold identifierBase
  split
  · exact ⟨by decide, List.all_eq_true.mp rfl⟩
  · rename_i cs some_char
    refine ⟨fun empty => ?_, fun c hc => ?_⟩
    · have no_char := congrArg String.toList empty
      rw [String.toList_ofList] at no_char
      exact some_char no_char
    · rw [String.toList_ofList] at hc
      exact (List.mem_filter.mp hc).2

/-- An identifier has some characters, all of them plain. -/
theorem isIdentifier_iff (s : String) : IsIdentifier s ↔ s ≠ "" ∧ ∀ c ∈ s.toList, IsPlain c := by
  simp only [← isIdentifierChar_iff]
  exact ⟨fun h => ⟨h.nonempty, h.plain⟩, fun h => ⟨h.1, h.2⟩⟩

theorem isIdentifierChar_of_isDigit {c : Char} (h : c.isDigit = true) :
    isIdentifierChar c = true := by
  simp [isIdentifierChar, h]

namespace Identifiers

section Numbering

theorem toList_numbered_succ (base : String) (n : ℕ) :
    (numbered base (n + 1)).toList = base.toList ++ '_' :: Nat.toDigits 10 (n + 2) := by
  have shape : numbered base (n + 1) = base ++ "_" ++ Nat.repr (n + 2) := rfl
  rw [shape, String.toList_append, String.toList_append, Nat.toList_repr, List.append_assoc]
  rfl

theorem isIdentifier_numbered {base : String} (h : IsIdentifier base) (n : ℕ) :
    IsIdentifier (numbered base n) := by
  cases n with
  | zero => exact h
  | succ n =>
      have shape := toList_numbered_succ base n
      constructor
      · intro empty
        rw [empty] at shape
        exact List.append_ne_nil_of_right_ne_nil _ (List.cons_ne_nil _ _) shape.symm
      · intro c hc
        rw [shape, List.mem_append, List.mem_cons] at hc
        rcases hc with old | rfl | digit
        · exact h.plain c old
        · decide
        · exact isIdentifierChar_of_isDigit (isDigit_of_mem_toDigits digit)

theorem numbered_injective (base : String) : Function.Injective (numbered base) := by
  have longer : ∀ n, base ≠ numbered base (n + 1) := by
    intro n same
    have shape := toList_numbered_succ base n
    rw [← same] at shape
    exact List.cons_ne_nil _ _ (List.self_eq_append_right.mp shape)
  intro m n same
  cases m with
  | zero =>
      cases n with
      | zero => rfl
      | succ n => exact absurd same (longer n)
  | succ m =>
      cases n with
      | zero => exact absurd same.symm (longer m)
      | succ n =>
          have shapes := congrArg String.toList same
          rw [toList_numbered_succ, toList_numbered_succ, List.append_cancel_left_eq,
            List.cons.injEq] at shapes
          exact Nat.add_right_cancel (toDigits_inj shapes.2) ▸ rfl

/-- There are more numbers to try than identifiers in use. -/
theorem exists_free (ids : Identifiers) (base : String) :
    ∃ n ∈ List.range (ids.used.length + 1), numbered base n ∉ ids.used := by
  by_contra all_used
  push Not at all_used
  have differ : ((List.range (ids.used.length + 1)).map (numbered base)).Nodup :=
    List.nodup_range.map (numbered_injective base)
  have within : (List.range (ids.used.length + 1)).map (numbered base) ⊆ ids.used := by
    intro candidate member
    obtain ⟨n, small, rfl⟩ := List.mem_map.mp member
    exact all_used n small
  have room := (differ.subperm within).length_le
  rw [List.length_map, List.length_range] at room
  exact Nat.not_succ_le_self _ room

/-- A fresh identifier has the least number that makes it one. -/
theorem fresh_spec (ids : Identifiers) (base : String) :
    ∃ n, ids.fresh base = numbered base n ∧ numbered base n ∉ ids.used ∧
      ∀ m < n, numbered base m ∈ ids.used := by
  obtain ⟨free, small, unused⟩ := exists_free ids base
  have found : ((List.range (ids.used.length + 1)).find?
      fun n => !ids.used.contains (numbered base n)).isSome :=
    List.find?_isSome.mpr ⟨free, small, by simpa using unused⟩
  obtain ⟨n, first⟩ := Option.isSome_iff_exists.mp found
  have shape : ids.fresh base = numbered base n := by
    unfold fresh
    dsimp only
    rw [List.find?_map]
    simp only [Function.comp_def, first, Option.map_some, Option.getD_some]
  obtain ⟨unused, _, earlier⟩ := List.find?_range_eq_some.mp first
  refine ⟨n, shape, by simpa using unused, fun m before => ?_⟩
  simpa using earlier m before

end Numbering

section Allotment

/-- Every id has one identifier, and no two have the same. -/
structure Allotted (ids : Identifiers) : Prop where
  ids_differ : (ids.map (·.1)).Nodup
  identifiers_differ : ids.used.Nodup
  holdable : ∀ entry ∈ ids, IsIdentifier entry.2

variable {ids : Identifiers}

theorem add_cases (ids : Identifiers) (id : String) :
    (id ∈ ids.map (·.1) ∧ ids.add id = ids) ∨
      (id ∉ ids.map (·.1) ∧ ids.add id = ids ++ [(id, ids.fresh (identifierBase id))]) := by
  by_cases known : id ∈ ids.map (·.1)
  · obtain ⟨identifier, found⟩ := lookup_of_mem known
    exact .inl ⟨known, by rw [add, found]⟩
  · exact .inr ⟨known, by rw [add, lookup_of_not_mem known]⟩

theorem Allotted.add (h : Allotted ids) (id : String) : Allotted (ids.add id) := by
  rcases add_cases ids id with ⟨_, same⟩ | ⟨new, longer⟩
  · exact same.symm ▸ h
  · obtain ⟨n, shape, unused, _⟩ := fresh_spec ids (identifierBase id)
    rw [longer, shape]
    constructor
    case ids_differ =>
      rw [List.map_append, List.map_singleton, ← List.concat_eq_append, List.nodup_concat]
      exact ⟨new, h.ids_differ⟩
    case identifiers_differ =>
      rw [used, List.map_append, List.map_singleton, ← List.concat_eq_append, List.nodup_concat]
      exact ⟨unused, h.identifiers_differ⟩
    case holdable =>
      rw [List.forall_mem_append, List.forall_mem_singleton]
      exact ⟨h.holdable, isIdentifier_numbered (isIdentifier_base id) n⟩

theorem mem_ids_add (ids : Identifiers) (id other : String) :
    other ∈ (ids.add id).map (·.1) ↔ other ∈ ids.map (·.1) ∨ other = id := by
  rcases add_cases ids id with ⟨known, same⟩ | ⟨_, longer⟩
  · rw [same]
    exact ⟨.inl, fun h => h.elim (fun old => old) fun e => e ▸ known⟩
  · rw [longer, List.map_append, List.map_singleton, List.mem_append, List.mem_singleton]

theorem allotted_foldl (h : Allotted ids) (all : List String) :
    Allotted (all.foldl Identifiers.add ids) ∧
      ∀ id, id ∈ (all.foldl Identifiers.add ids).map (·.1) ↔ id ∈ ids.map (·.1) ∨ id ∈ all := by
  induction all generalizing ids with
  | nil => simpa using h
  | cons id all ih =>
      obtain ⟨allotted, members⟩ := ih (h.add id)
      refine ⟨allotted, fun other => ?_⟩
      rw [List.foldl_cons, members, mem_ids_add, or_assoc, List.mem_cons]

theorem allotted_nil : Allotted [] where
  ids_differ := List.nodup_nil
  identifiers_differ := List.nodup_nil
  holdable := fun _ h => absurd h List.not_mem_nil

theorem allotted_ofList (all : List String) : Allotted (ofList all) :=
  (allotted_foldl allotted_nil all).1

theorem mem_ids_ofList (all : List String) (id : String) :
    id ∈ (ofList all).map (·.1) ↔ id ∈ all := by
  have members := (allotted_foldl allotted_nil all).2 id
  rwa [List.map_nil, or_iff_right List.not_mem_nil] at members

/-- The identifier of an id that has one. -/
theorem get_mem {id : String} (h : id ∈ ids.map (·.1)) : (id, ids.get id) ∈ ids := by
  obtain ⟨identifier, known⟩ := lookup_of_mem h
  rw [get, known, Option.getD_some]
  exact mem_of_lookup known

theorem Allotted.get_eq_iff (h : Allotted ids) {a b : String} (ha : a ∈ ids.map (·.1))
    (hb : b ∈ ids.map (·.1)) : ids.get a = ids.get b ↔ a = b := by
  refine ⟨fun same => ?_, congrArg _⟩
  have entry := List.inj_on_of_nodup_map h.identifiers_differ (get_mem ha) (get_mem hb) same
  exact congrArg Prod.fst entry

theorem Allotted.isIdentifier_get (h : Allotted ids) (id : String) : IsIdentifier (ids.get id) := by
  unfold get
  cases known : ids.lookup id with
  | some identifier => exact h.holdable (id, identifier) (mem_of_lookup known)
  | none => exact isIdentifier_base id

end Allotment

section Calls

variable {ids : Identifiers}

/-- What calls for one id after the other return, where `ids` is what earlier calls left. -/
def answers (ids : Identifiers) : List String → List String
  | [] => []
  | id :: rest => (ids.add id).get id :: answers (ids.add id) rest

/-- What a later call adds leaves what an id has. -/
theorem get_add_of_mem {id : String} (known : id ∈ ids.map (·.1)) (other : String) :
    (ids.add other).get id = ids.get id := by
  obtain ⟨identifier, found⟩ := lookup_of_mem known
  rcases add_cases ids other with ⟨_, same⟩ | ⟨_, longer⟩
  · rw [same]
  · rw [longer, get, get, List.lookup_append, found, Option.some_or]

theorem get_foldl_of_mem {id : String} (known : id ∈ ids.map (·.1)) (all : List String) :
    (all.foldl Identifiers.add ids).get id = ids.get id := by
  induction all generalizing ids with
  | nil => rfl
  | cons other all ih =>
      have still_known := (mem_ids_add ids other id).mpr (.inl known)
      rw [List.foldl_cons, ih still_known, get_add_of_mem known]

theorem get_add_of_new {id : String} (new : id ∉ ids.map (·.1)) :
    (ids.add id).get id = ids.fresh (identifierBase id) := by
  rcases add_cases ids id with ⟨known, _⟩ | ⟨_, longer⟩
  · exact absurd known new
  · rw [longer, get, List.lookup_append, lookup_of_not_mem new, Option.none_or,
      List.lookup_cons_self, Option.getD_some]

theorem answers_append (ids : Identifiers) (before after : List String) :
    ids.answers (before ++ after) =
      ids.answers before ++ (before.foldl Identifiers.add ids).answers after := by
  induction before generalizing ids with
  | nil => rfl
  | cons id before ih => rw [List.cons_append, answers, answers, ih, List.cons_append,
      List.foldl_cons]

/-- Every call returns what its id has once all calls are made. -/
theorem answers_eq_map (ids : Identifiers) (all : List String) :
    ids.answers all = all.map (all.foldl Identifiers.add ids).get := by
  induction all generalizing ids with
  | nil => rfl
  | cons id all ih =>
      have known := (mem_ids_add ids id id).mpr (.inr rfl)
      rw [answers, ih, List.map_cons, List.foldl_cons, get_foldl_of_mem known]

/-- The identifiers in use are those that calls have returned. -/
theorem mem_used_ofList (all : List String) (s : String) :
    s ∈ (ofList all).used ↔ s ∈ answers [] all := by
  have differ := (allotted_ofList all).ids_differ
  rw [answers_eq_map, used, List.mem_map, List.mem_map]
  constructor
  · rintro ⟨entry, there, rfl⟩
    have known : entry.1 ∈ (ofList all).map (·.1) := List.mem_map_of_mem there
    have own := List.inj_on_of_nodup_map differ (get_mem known) there rfl
    exact ⟨entry.1, (mem_ids_ofList all _).mp known, congrArg Prod.snd own⟩
  · rintro ⟨id, called, rfl⟩
    exact ⟨_, get_mem ((mem_ids_ofList all id).mpr called), rfl⟩

/-- A call for an id that was not called for before goes through the numbers and stops at the first
one that makes an identifier which no earlier call has returned. -/
theorem get_of_first_call (before after : List String) {id : String} (new : id ∉ before) :
    ∃ n, (ofList (before ++ id :: after)).get id = numbered (identifierBase id) n ∧
      numbered (identifierBase id) n ∉ answers [] before ∧
      ∀ m < n, numbered (identifierBase id) m ∈ answers [] before := by
  obtain ⟨n, shape, unused, earlier⟩ := fresh_spec (ofList before) (identifierBase id)
  have absent : id ∉ (ofList before).map (·.1) := mt (mem_ids_ofList before id).mp new
  have called : id ∈ ((ofList before).add id).map (·.1) := (mem_ids_add _ id id).mpr (.inr rfl)
  have stays : (ofList (before ++ id :: after)).get id = ((ofList before).add id).get id := by
    rw [ofList, List.foldl_append, List.foldl_cons]
    exact get_foldl_of_mem called after
  refine ⟨n, ?_, mt (mem_used_ofList before _).mpr unused, fun m less => ?_⟩
  · rw [stays, get_add_of_new absent, shape]
  · exact (mem_used_ofList before _).mp (earlier m less)

/-- The base of an id that was called for is in use: the first call for it returned the base, or an
earlier one had. -/
theorem base_mem_answers {all : List String} {id : String} (called : id ∈ all) :
    identifierBase id ∈ answers [] all := by
  obtain ⟨before, after, rfl, new⟩ := List.eq_append_cons_of_mem called
  obtain ⟨n, shape, _, earlier⟩ := get_of_first_call before after new
  cases n with
  | zero =>
      rw [answers_eq_map]
      exact List.mem_map.mpr ⟨id, called, shape⟩
  | succ n =>
      rw [answers_append]
      exact List.mem_append_left _ (earlier 0 n.succ_pos)

/-- The calls for any ids, one after the other: what they return, that it has plain characters only
and some of them, that it is the same for equal ids only, and how it is found. An id whose stripped
form no earlier call has returned gets that form itself. -/
theorem answers_identify (all : List String) :
    let ids := ofList all
    answers [] all = all.map ids.get ∧
      (∀ id ∈ all, ids.get id ≠ "" ∧ ∀ c ∈ (ids.get id).toList, IsPlain c) ∧
      (∀ a ∈ all, ∀ b ∈ all, ids.get a = ids.get b ↔ a = b) ∧
      ∀ before id after, all = before ++ id :: after →
        (id ∉ before → ∃ n, ids.get id = numbered (stripped id) n ∧
          numbered (stripped id) n ∉ answers [] before ∧
          ∀ m < n, numbered (stripped id) m ∈ answers [] before) ∧
        (stripped id ∉ answers [] before → ids.get id = stripped id) := by
  intro ids
  have allotted := allotted_ofList all
  refine ⟨answers_eq_map [] all, ?_, ?_, ?_⟩
  · exact fun id _ => (isIdentifier_iff _).mp (allotted.isIdentifier_get id)
  · intro a ha b hb
    exact allotted.get_eq_iff ((mem_ids_ofList all a).mpr ha) ((mem_ids_ofList all b).mpr hb)
  · rintro before id after rfl
    rw [← identifierBase_eq_stripped]
    refine ⟨get_of_first_call before after, fun unused => ?_⟩
    obtain ⟨n, shape, _, earlier⟩ := get_of_first_call before after (mt base_mem_answers unused)
    cases n with
    | zero => exact shape
    | succ n => exact absurd (earlier 0 n.succ_pos) unused

/-- A number makes an identifier that is the base of a later id, which then gets a number too. -/
example : answers [] ["a", "a$", "a_2", "a", "?"] = ["a", "a_2", "a_2_2", "a", "node"] := by
  decide +kernel

end Calls

end Identifiers

end ComponentAtlas.Diagram
