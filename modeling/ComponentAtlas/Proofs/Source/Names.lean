import ComponentAtlas.Source.Names
import ComponentAtlas.Proofs.Source.Inheritance
import ComponentAtlas.Proofs.Text.Matching

/-!
Lists of names that are cut at commas, shown with commas between them and read as a list of types
once more: what the second reading makes of them is what it would have made of the list itself.
-/

namespace ComponentAtlas

open Text Recognizer

section Items

variable {s item : List Char}

theorem dropComments_append (h : ∀ c ∈ s, c ≠ '#' ∧ c ≠ '/') (t : List Char) :
    dropComments false (s ++ t) = s ++ dropComments false t := by
  induction s with
  | nil => rfl
  | cons c s ih =>
      obtain ⟨no_hash, no_slash⟩ := h c List.mem_cons_self
      have later := ih fun d hd => h d (List.mem_cons_of_mem c hd)
      simp [dropComments, no_hash, no_slash, later]

theorem dropComments_plain (h : ∀ c ∈ s, c ≠ '#' ∧ c ≠ '/') : dropComments false s = s := by
  have whole := dropComments_append h []
  rwa [List.append_nil, dropComments, List.append_nil] at whole

/-- The text goes on with the word `as` between blanks. -/
def StartsAlias (s : List Char) : Prop :=
  ∃ x y more, ∃ front back : List Char, s = x :: front ++ "as".toList ++ y :: back ++ more ∧
    (∀ c ∈ x :: front, isBlank c = true) ∧ ∀ c ∈ y :: back, isBlank c = true

theorem aliasMark_offers : aliasMark.Offers fun c _ _ => StartsAlias c.rest := by
  have form : aliasMark.Offers _ :=
    (offers_many1 isBlank).bind fun _ =>
      (offers_literal "as").bind fun _ => offers_many1 isBlank
  refine form.imp ?_
  rintro c _ d ⟨_, e, ⟨x, front, blank, blanks, first⟩, _, f, ⟨word, _⟩, y, back, blank', blanks',
    last⟩
  exact ⟨x, y, d.rest, front, back, by rw [first, word, last]; simp,
    List.forall_mem_cons.mpr ⟨blank, blanks⟩, List.forall_mem_cons.mpr ⟨blank', blanks'⟩⟩

/-- The first piece of an item goes up to an alias mark or to its end. -/
theorem exists_firstPiece (s : List Char) :
    ∃ first pieces after, aliasMark.splitBy s = first :: pieces ∧ s = first ++ after ∧
      (after = [] ∨ StartsAlias after) := by
  rw [splitBy]
  cases found : aliasMark.all s with
  | nil => exact ⟨s, [], [], rfl, (List.append_nil s).symm, .inl rfl⟩
  | cons m ms =>
      have member : m ∈ aliasMark.all s := found ▸ List.mem_cons_self
      obtain ⟨reach, starts⟩ := aliasMark_offers.mem_all member
      obtain ⟨before, split, offset, _⟩ := Cursor.place_of_reaches reach
      refine ⟨before, piecesAround m.stop.rest m.stop.offset ms, m.start.rest, ?_, split,
        .inr starts⟩
      rw [piecesAround, Nat.sub_zero, offset, split, List.take_left]

/-- What counts as the name of an item goes up to a blank or to its end. -/
theorem exists_sourceName (s : List Char) :
    ∃ after, s = AliasSide.sourceName.pick (aliasMark.splitBy s) ++ after ∧
      after.head?.all isBlank = true := by
  obtain ⟨first, pieces, after, cut, split, ends⟩ := exists_firstPiece s
  refine ⟨after, by rw [cut]; exact split, ?_⟩
  rcases ends with rfl | ⟨x, y, more, front, back, rfl, blank, _⟩
  · rfl
  · exact blank x List.mem_cons_self

theorem typeName?_trimChars (s : List Char) : typeName? (trimChars s) = typeName? s := by
  rw [typeName?_eq_words, words_trimChars, ← typeName?_eq_words]

/-- The name of an item is read as the item itself. -/
theorem itemName?_read (plain : '=' ∉ item) :
    ((itemName? .sourceName item).bind fun name => typeName? name.toList) = typeName? item := by
  obtain ⟨after, split, blank⟩ := exists_sourceName (trimChars item)
  rw [itemName?]
  generalize AliasSide.sourceName.pick (aliasMark.splitBy (trimChars item)) = piece at split ⊢
  cases shape : trimChars item with
  | nil =>
      rw [← typeName?_trimChars, shape]
      rfl
  | cons c rest =>
      have solid : isBlank c = false := isBlank_of_trimChars shape
      rw [shape] at split
      -- An item does not start with a blank, so the piece does not end at once.
      obtain ⟨more, rfl⟩ : ∃ more, piece = c :: more := by
        cases piece with
        | nil =>
            rw [List.nil_append] at split
            rw [← split] at blank
            exact absurd blank (by simp [solid])
        | cons d more => exact ⟨more, by rw [(List.cons.inj split).1]⟩
      have kept : c ∈ trimChars (c :: more) := (mem_trimChars solid).mpr List.mem_cons_self
      have some_name : (trimChars (c :: more)).isEmpty = false :=
        List.isEmpty_eq_false_iff.mpr (List.ne_nil_of_mem kept)
      have sign : '=' ∉ trimChars item := fun h => plain ((mem_trimChars (by decide)).mp h)
      have stops : after.head?.any isTypePart = false := by
        cases after with
        | nil => rfl
        | cons b after => exact isTypePart_of_isBlank (by simpa using blank)
      have sign_piece : '=' ∉ c :: more := fun h => sign (by
        rw [shape, split]
        exact List.mem_append_left _ h)
      simp only [some_name, List.isEmpty_cons, Bool.or_self, Bool.false_eq_true, if_false,
        Option.bind_some, String.toList_ofList]
      rw [typeName?_trimChars, ← typeName?_trimChars item, typeName?_eq, if_neg sign_piece,
        typeName?_eq, if_neg sign, shape, trimLeft_cons solid, trimLeft_cons solid, split,
        leadingName?_append (List.cons_ne_nil c more) stops]

theorem mem_of_itemName? {name : String} {c : Char} (h : itemName? .sourceName item = some name)
    (hc : c ∈ name.toList) (solid : isBlank c = false) : c ∈ item := by
  obtain ⟨after, split, _⟩ := exists_sourceName (trimChars item)
  rw [itemName?] at h
  generalize AliasSide.sourceName.pick (aliasMark.splitBy (trimChars item)) = piece at split h
  split at h
  · cases h
  · cases h
    rw [String.toList_ofList, mem_trimChars solid] at hc
    rw [← mem_trimChars solid, split]
    exact List.mem_append_left _ hc

end Items

section Lists

variable {s : List Char}

theorem typeName?_cons {c : Char} (h : isBlank c = true) (s : List Char) :
    typeName? (c :: s) = typeName? s := by
  rw [typeName?_eq_words, words_cons h, ← typeName?_eq_words]

theorem typeNames_joinChars {pieces : List (List Char)} (h : ∀ p ∈ pieces, ',' ∉ p) :
    typeNames (' ' :: joinChars [',', ' '] pieces) = pieces.filterMap typeName? := by
  have one : ∀ p : List Char, ',' ∉ p → typeNames (' ' :: p) = (typeName? p).toList := by
    intro p plain
    have no_comma : ',' ∉ ' ' :: p := by simpa using plain
    rw [typeNames_of_not_mem no_comma, typeName?_cons (by decide)]
  induction pieces with
  | nil => rfl
  | cons p pieces ih =>
      have first := h p List.mem_cons_self
      have later := ih fun q hq => h q (List.mem_cons_of_mem p hq)
      have whole := filterMap_cons_toList typeName? p pieces
      cases pieces with
      | nil =>
          rw [joinChars, List.intersperse_singleton, List.flatten_singleton, one p first, whole,
            List.filterMap_nil, List.append_nil]
      | cons next pieces =>
          have shape : ' ' :: joinChars [',', ' '] (p :: next :: pieces) =
              (' ' :: p) ++ ',' :: ' ' :: joinChars [',', ' '] (next :: pieces) := by
            simp [joinChars]
          rw [shape, typeNames_append, later, one p first, whole]

theorem mem_item_splitOn {item : List Char} (h : item ∈ splitOn ',' s) :
    ∀ c ∈ item, c ∈ s ∧ c ≠ ',' := fun c hc =>
  (mem_splitAt h c hc).imp_right fun other => by simpa using other

theorem splitNameChars_plain {side : AliasSide} (h : ∀ c ∈ s, c ≠ '#' ∧ c ≠ '/') :
    splitNameChars side s = (splitOn ',' s).filterMap (itemName? side) := by
  rw [splitNameChars, dropComments_plain h]

theorem mem_of_splitNames {name : String} {c : Char} (plain : ∀ c ∈ s, c ≠ '#' ∧ c ≠ '/')
    (h : name ∈ splitNameChars .sourceName s) (hc : c ∈ name.toList) (solid : isBlank c = false) :
    c ∈ s ∧ c ≠ ',' := by
  rw [splitNameChars_plain plain] at h
  obtain ⟨item, hitem, shown⟩ := List.mem_filterMap.mp h
  exact mem_item_splitOn hitem c (mem_of_itemName? shown hc solid)

/-- Names between commas, shown with a comma and a space between them, are read as the list that
they were split from. -/
theorem typeNames_splitNames (h : ∀ c ∈ s, c ≠ '#' ∧ c ≠ '/' ∧ c ≠ '=') :
    typeNames (' ' :: (join ", " (splitNameChars .sourceName s)).toList) = typeNames s := by
  have plain : ∀ c ∈ s, c ≠ '#' ∧ c ≠ '/' := fun c hc => ⟨(h c hc).1, (h c hc).2.1⟩
  have no_comma : ∀ p ∈ (splitNameChars .sourceName s).map String.toList, ',' ∉ p := by
    intro p hp inside
    obtain ⟨name, member, rfl⟩ := List.mem_map.mp hp
    exact (mem_of_splitNames plain member inside (by decide)).2 rfl
  rw [join, String.toList_ofList, show ", ".toList = [',', ' '] from rfl,
    typeNames_joinChars no_comma, splitNameChars_plain plain, List.filterMap_map,
    List.filterMap_filterMap, typeNames]
  refine List.filterMap_congr fun item hitem => ?_
  exact itemName?_read fun sign => (h _ (mem_item_splitOn hitem _ sign).1).2.2 rfl

/-- What a description says of interfaces without bases. -/
theorem ofDescription_interfaces {names : List String}
    (one_part : ∀ name ∈ names, ';' ∉ name.toList) :
    Heritage.ofDescription (⟨[], names⟩ : Heritage).description? =
      ⟨[], typeNames (' ' :: (join ", " names).toList)⟩ := by
  cases names with
  | nil => rfl
  | cons name names =>
      have no_semicolon : ';' ∉ ' ' :: (join ", " (name :: names)).toList := by
        intro inside
        rcases List.mem_cons.mp inside with space | inside
        · cases space
        · rcases mem_join inside with separator | ⟨piece, member, inside⟩
          · exact absurd separator (by decide)
          · exact one_part piece member inside
      rw [← ofChars_implements no_semicolon]
      simp [Heritage.description?, Heritage.ofDescription]

end Lists

end ComponentAtlas
