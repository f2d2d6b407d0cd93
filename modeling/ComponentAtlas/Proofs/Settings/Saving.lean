import ComponentAtlas.Proofs.Settings.Store
import ComponentAtlas.Proofs.Text.Pieces
import ComponentAtlas.Proofs.Text.Utf8
import ComponentAtlas.Proofs.Toml.Contents

/-!
Saving settings, whatever reads and writes the texts of settings files, as long as what is written
is read back as the same dictionary. One key of the user's file changes, and nothing does where the
setting or its value is refused.
-/

namespace ComponentAtlas.Settings

open Text Toml

theorem name_of_ofName {dotted : String} {s : Setting} (h : Setting.ofName dotted = .ok s) :
    s.name = dotted := by
  unfold Setting.ofName at h
  split at h
  case h_1 => cases h
  case h_2 group key cut =>
    cases found : Setting.ofNames? (String.ofList group) (String.ofList key) with
    | none =>
        rw [found] at h
        cases h
    | some named =>
        rw [found] at h
        cases h
        have suits := List.find?_some found
        rw [Bool.and_eq_true, beq_iff_eq, beq_iff_eq] at suits
        rw [← String.ofList_toList (s := dotted), append_of_cutAt? cut, String.ofList_append,
          String.ofList_append, ← suits.1, ← suits.2]
        rfl

section Tables

/-- The value of a key in a group, where the group is a table. -/
def held? (table : Table) (group key : String) : Option Value :=
  (table.tableAt? group).bind fun entries => Table.get? entries key

theorem given?_eq_held? (table : Table) (s : Setting) :
    given? table s = held? table s.group s.key := by
  unfold given? held? Table.tableAt?
  cases table.get? s.group with
  | none => rfl
  | some v => cases v <;> rfl

/-- What a group holds at a key is two steps below the table. -/
theorem held?_eq_below (table : Table) (group key : String) :
    held? table group key = (table.get? group).bind (·.below? (.key key)) := by
  unfold held? Table.tableAt?
  cases table.get? group with
  | none => rfl
  | some v => cases v <;> rfl

theorem map_held?_of_group {a b : Table} {group : String}
    (same : (a.get? group).map Value.contents = (b.get? group).map Value.contents) (key : String) :
    (held? a group key).map Value.contents = (held? b group key).map Value.contents := by
  rw [held?_eq_below, held?_eq_below]
  cases here : a.get? group with
  | none =>
      rw [here, eq_comm, Option.map_none, Option.map_eq_none_iff] at same
      rw [same]
  | some v =>
      rw [here, eq_comm, Option.map_some, Option.map_eq_some_iff] at same
      obtain ⟨w, there, held⟩ := same
      rw [there]
      exact (Value.contents_eq_iff.mp held.symm).2 (.key key)

theorem told_toValue (s : Setting) (v : s.Carrier) : (s.toValue v).Told := by
  cases s with
  | excludePatterns =>
      refine Value.told_list fun w hw => ?_
      obtain ⟨pattern, _, rfl⟩ := List.mem_map.mp hw
      exact Value.told_of_scalar nofun nofun
  | _ => exact Value.told_of_scalar nofun nofun

theorem eq_toValue {found : Option Value} {s : Setting} {v : s.Carrier}
    (h : found.map Value.contents = some (s.toValue v).contents) : found = some (s.toValue v) := by
  obtain ⟨w, rfl, same⟩ := Option.map_eq_some_iff.mp h
  rw [told_toValue s v w same]

/-- One setting has a new value. Every other key of its group, and every other group, has or lacks
what it had or lacked. -/
structure Sets (before after : Table) (s : Setting) (v : s.Carrier) : Prop where
  value : given? after s = some (s.toValue v)
  keys : ∀ key, key ≠ s.key →
    (held? after s.group key).map Value.contents = (held? before s.group key).map Value.contents
  groups : ∀ group, group ≠ s.group →
    (after.get? group).map Value.contents = (before.get? group).map Value.contents

/-- Putting a value in the group of its setting leaves the other keys there and the other groups,
also when the table is then kept as the same dictionary only. -/
theorem sets_of_put? {before placed after : Table} {s : Setting} {v : s.Carrier}
    (h : put? before s v = some placed) (same : after.contents = placed.contents) :
    Sets before after s v := by
  obtain ⟨entries, own, rfl⟩ := Option.map_eq_some_iff.mp h
  have groups := Table.contents_eq_iff.mp same
  have placed (key : String) : held? (Table.put before s.group
      (.table (Table.put entries s.key (s.toValue v)))) s.group key =
        if key = s.key then some (s.toValue v) else held? before s.group key := by
    rw [held?, held?, Table.tableAt?, Table.get?_put, if_pos rfl, own]
    exact Table.get?_put entries s.key key (s.toValue v)
  have kept (key : String) := map_held?_of_group (groups s.group) key
  constructor
  case value =>
    rw [given?_eq_held?]
    refine eq_toValue ((kept s.key).trans ?_)
    rw [placed, if_pos rfl, Option.map_some]
  case keys =>
    intro key other
    rw [kept, placed, if_neg other]
  case groups =>
    intro group other
    rw [groups, Table.get?_put, if_neg other]

/-- A setting whose group is missing or a table has a place in the table. -/
theorem isSome_put? (table : Table) (s : Setting) (v : s.Carrier) :
    (put? table s v).isSome = (table.tableAt? s.group).isSome :=
  Option.isSome_map

theorem Sets.held?_eq {before after : Table} {s : Setting} {v : s.Carrier}
    (sets : Sets before after s v) {group key : String}
    (other : ¬ (group = s.group ∧ key = s.key)) :
    (held? after group key).map Value.contents = (held? before group key).map Value.contents := by
  by_cases own : group = s.group
  · subst own
    exact sets.keys key fun here => other ⟨rfl, here⟩
  · exact map_held?_of_group (sets.groups group own) key

end Tables

section Files

/-- A way that only leads down ends at its names. -/
theorem makeWay_end {names : List String} (down : ".." ∉ names) {t t' : Tree}
    {here folder : Names} (h : t.makeWay here names = .ok (t', folder)) :
    folder = here ++ names := by
  induction names generalizing t here with
  | nil =>
      rw [Tree.makeWay, Except.ok.injEq, Prod.mk.injEq] at h
      rw [← h.2, List.append_nil]
  | cons name rest ih =>
      rw [List.mem_cons, not_or] at down
      rw [Tree.makeWay, if_neg (by simpa using Ne.symm down.1)] at h
      have whole : here ++ name :: rest = (here ++ [name]) ++ rest := by
        rw [List.append_assoc, List.singleton_append]
      rw [whole]
      dsimp only at h
      split at h
      · exact ih down.2 h
      · cases h
      · exact ih down.2 h

theorem file?_putText (t : Tree) (file : Names) (text : String) :
    (t.putText file text).file? file = some (encodeUtf8 text) := by
  have absent : (t.entries.filter fun e => e.1 != file).lookup file = none := by
    rw [List.lookup_eq_none_iff]
    intro e he
    exact bne_iff_ne.mpr (Ne.symm (bne_iff_ne.mp (List.mem_filter.mp he).2))
  have entry : Tree.entry? (t.putText file text) file = some (.file (encodeUtf8 text)) := by
    unfold Tree.entry? Tree.putText Tree.putFile Tree.put
    rw [List.lookup_append, absent, Option.none_or, List.lookup_cons, beq_self_eq_true]
  rw [Tree.file?, Tree.item?, entry]

/-- What was written is in the file. -/
theorem file?_written {t t' : Tree} {file : Names} (down : ".." ∉ file) {text : String}
    (h : t.writeMakingFolders [] ⟨1, file⟩ text = .ok t') :
    t'.file? file = some (encodeUtf8 text) := by
  unfold Tree.writeMakingFolders at h
  cases way : t.makeWay (Tree.startOf [] ⟨1, file⟩) file.dropLast with
  | error e =>
      rw [way] at h
      cases h
  | ok made =>
      obtain ⟨tree, folder⟩ := made
      rw [way] at h
      have above : ".." ∉ file.dropLast := fun member => down (List.dropLast_subset file member)
      have place := makeWay_end above way
      change tree.writeText folder file.getLast? text = .ok t' at h
      cases last : file.getLast? with
      | none =>
          rw [last] at h
          cases h
      | some name =>
          have whole : folder ++ [name] = file := by
            obtain ⟨above, rfl⟩ := List.getLast?_eq_some_iff.mp last
            rw [place, List.dropLast_concat]
            rfl
          rw [last, Tree.writeText] at h
          split at h
          · cases h
          · rw [whole, Except.ok.injEq] at h
            exact h ▸ file?_putText tree file text

end Files

section Steps

variable {α β : Type}

theorem run_bind (step : Saving α) (next : α → Saving β) (t : Tree) :
    (step >>= next).run.run t =
      match step.run.run t with
      | (.ok a, t') => (next a).run.run t'
      | (.error e, t') => (.error e, t') := by
  rw [ExceptT.run_bind, StateT.run_bind]
  obtain ⟨_ | _, t'⟩ := step.run.run t <;> rfl

theorem run_get_bind (next : Tree → Saving β) (t : Tree) :
    (get >>= next : Saving β).run.run t = (next t).run.run t := rfl

theorem run_ofExcept (x : Except SaveError α) (t : Tree) :
    (MonadExcept.ofExcept x : Saving α).run.run t = (x, t) := by
  cases x <;> rfl

end Steps

section Outcomes

/-- A setting with the value that was saved for it, or why none was. -/
abbrev Outcome := Except SaveError ((s : Setting) × s.Carrier)

variable (parse : List Char → Option Table) (render : Table → Option String) (userFile : Names)

/-- What can come of saving, and the files after it. -/
inductive Saves (t : Tree) (dotted given : String) : Outcome → Tree → Prop
  | unknown {e : Setting.Unknown} (named : Setting.ofName dotted = .error e) :
      Saves t dotted given (.error (.unknown e)) t
  | refused {s : Setting} {r : Setting.Refusal} (named : Setting.ofName dotted = .ok s)
      (typed : s.read given = .error r) : Saves t dotted given (.error (.refused r)) t
  | unreadable {fault : Utf8Fault} (read : readTableBy parse t userFile = .error fault) :
      Saves t dotted given (.error (.unreadable fault)) t
  | notATable {s : Setting} {v : s.Carrier} {before : Table}
      (read : readTableBy parse t userFile = .ok before) (put : put? before s v = none) :
      Saves t dotted given (.error .notATable) t
  | unwritable {text : String} {e : Tree.WriteError}
      (written : t.writeMakingFolders [] ⟨1, userFile⟩ text = .error e) :
      Saves t dotted given (.error (.unwritable userFile)) t
  | emptied {s : Setting} {v : s.Carrier} {before placed : Table} {t' : Tree}
      (read : readTableBy parse t userFile = .ok before) (put : put? before s v = some placed)
      (form : render placed = none) : Saves t dotted given (.error (.noWrittenForm t')) t'
  | saved {s : Setting} {v : s.Carrier} {before placed : Table} {text : String} {t' : Tree}
      (named : Setting.ofName dotted = .ok s) (typed : s.read given = .ok v)
      (read : readTableBy parse t userFile = .ok before) (put : put? before s v = some placed)
      (form : render placed = some text)
      (written : t.writeMakingFolders [] ⟨1, userFile⟩ text = .ok t') :
      Saves t dotted given (.ok ⟨s, v⟩) t'

theorem run_writeTableBy (table : Table) (t : Tree) :
    (writeTableBy render userFile table).run.run t =
      match t.writeMakingFolders [] ⟨1, userFile⟩ ((render table).getD "") with
      | .error _ => (.error (.unwritable userFile), t)
      | .ok t' =>
        match render table with
        | none => (.error (.noWrittenForm t'), t')
        | some _ => (.ok (), t') := by
  unfold writeTableBy
  dsimp only
  rw [run_get_bind]
  cases t.writeMakingFolders [] ⟨1, userFile⟩ ((render table).getD "") with
  | error e => rfl
  | ok t' => cases render table <;> rfl

theorem saves_run (t : Tree) (dotted given : String) :
    let ran := (saveBy parse render userFile dotted given).run.run t
    Saves parse render userFile t dotted given ran.1 ran.2 := by
  unfold saveBy
  rw [run_bind, run_ofExcept]
  cases named : Setting.ofName dotted with
  | error e => exact .unknown named
  | ok s =>
      dsimp only [Except.mapError]
      rw [run_bind, run_ofExcept]
      cases typed : s.read given with
      | error r => exact .refused named typed
      | ok v =>
          dsimp only
          rw [run_get_bind, run_bind, run_ofExcept]
          cases read : readTableBy parse t userFile with
          | error fault => exact .unreadable read
          | ok before =>
              dsimp only
              cases put : put? before s v with
              | none => exact .notATable read put
              | some after =>
                  dsimp only
                  rw [run_bind, run_writeTableBy]
                  cases written : t.writeMakingFolders [] ⟨1, userFile⟩
                      ((render after).getD "") with
                  | error e => exact .unwritable written
                  | ok t' =>
                      cases form : render after with
                      | none => exact .emptied read put form
                      | some text =>
                          rw [form, Option.getD_some] at written
                          exact .saved named typed read put form written

theorem run_of_written {parse : List Char → Option Table} {render : Table → Option String}
    {userFile : Names} {t t' : Tree} {dotted given text : String} {s : Setting} {v : s.Carrier}
    {before placed : Table} (named : Setting.ofName dotted = .ok s) (typed : s.read given = .ok v)
    (read : readTableBy parse t userFile = .ok before) (put : put? before s v = some placed)
    (form : render placed = some text)
    (written : t.writeMakingFolders [] ⟨1, userFile⟩ text = .ok t') :
    (saveBy parse render userFile dotted given).run.run t = (.ok ⟨s, v⟩, t') := by
  unfold saveBy
  rw [run_bind, run_ofExcept, named]
  dsimp only [Except.mapError]
  rw [run_bind, run_ofExcept, typed]
  dsimp only
  rw [run_get_bind, run_bind, run_ofExcept, read]
  dsimp only
  rw [put]
  dsimp only
  rw [run_bind, run_writeTableBy, form, Option.getD_some, written]
  rfl

/-- The table that a save is about to write, where it gets that far. -/
def placed? (t : Tree) (dotted given : String) : Option Table :=
  match Setting.ofName dotted with
  | .error _ => none
  | .ok s =>
    match s.read given, readTableBy parse t userFile with
    | .ok v, .ok before => put? before s v
    | _, _ => none

/-- Reading what is written of a table gives the same dictionary. -/
def Restores (table : Table) : Prop :=
  ∀ text, render table = some text →
    ∃ again, parse (unifyLineEnds false text.toList) = some again ∧ again.contents = table.contents

/-- The table that a save is about to write is restored. -/
def ReadsBack (t : Tree) (dotted given : String) : Prop :=
  ∀ table, placed? parse userFile t dotted given = some table → Restores parse render table

variable {parse render userFile}

theorem placed?_eq_some {t : Tree} {dotted given : String} {s : Setting} {v : s.Carrier}
    {before : Table} (named : Setting.ofName dotted = .ok s) (typed : s.read given = .ok v)
    (read : readTableBy parse t userFile = .ok before) :
    placed? parse userFile t dotted given = put? before s v := by
  rw [placed?, named]
  dsimp only
  rw [typed, read]

theorem readTableBy_of_text {t : Tree} {text : String} {table : Table}
    (there : t.file? userFile = some (encodeUtf8 text))
    (reads : parse (unifyLineEnds false text.toList) = some table) :
    readTableBy parse t userFile = .ok table := by
  rw [readTableBy, there]
  dsimp only [readText]
  rw [decodeUtf8_encodeUtf8]
  dsimp only [Except.map]
  rw [reads, Option.getD_some]

theorem readTableBy_written (down : ".." ∉ userFile) {text : String} {again : Table} {t t' : Tree}
    (back : parse (unifyLineEnds false text.toList) = some again)
    (written : t.writeMakingFolders [] ⟨1, userFile⟩ text = .ok t') :
    readTableBy parse t' userFile = .ok again :=
  readTableBy_of_text (file?_written down written) back

end Outcomes

section Runs

/-- What a save put at a key of a group. -/
def valueAt? (group key : String) : Outcome → Option Value
  | .ok ⟨s, v⟩ => if group = s.group ∧ key = s.key then some (s.toValue v) else none
  | .error _ => none

def lastSaved? (group key : String) (outcomes : List Outcome) : Option Value :=
  outcomes.reverse.findSome? (valueAt? group key)

theorem lastSaved?_cons (group key : String) (first : Outcome) (rest : List Outcome) :
    lastSaved? group key (first :: rest) =
      (lastSaved? group key rest).or (valueAt? group key first) := by
  rw [lastSaved?, List.reverse_cons, List.findSome?_append, List.findSome?_singleton]
  rfl

/-- What a table holds after saves: at every key what was last saved there, and what it held before
where nothing was. -/
structure Follows (before after : Table) (outcomes : List Outcome) : Prop where
  saved : ∀ group key v, lastSaved? group key outcomes = some v → held? after group key = some v
  keys : ∀ group key, lastSaved? group key outcomes = none →
    (held? after group key).map Value.contents = (held? before group key).map Value.contents
  groups : ∀ group, (∀ key, lastSaved? group key outcomes = none) →
    (after.get? group).map Value.contents = (before.get? group).map Value.contents

-- Outcomes are added in front, as a run begins with its first save; what comes later wins.

theorem follows_nil (table : Table) : Follows table table [] where
  saved _ _ _ := nofun
  keys _ _ _ := rfl
  groups _ _ := rfl

theorem Follows.cons_error {before after : Table} {rest : List Outcome}
    (later : Follows before after rest) (e : SaveError) :
    Follows before after (.error e :: rest) := by
  have skip : ∀ group key, lastSaved? group key (.error e :: rest) = lastSaved? group key rest :=
    fun group key => by rw [lastSaved?_cons, valueAt?, Option.or_none]
  constructor
  case saved => exact fun group key v last => later.saved group key v (skip group key ▸ last)
  case keys => exact fun group key none => later.keys group key (skip group key ▸ none)
  case groups =>
    exact fun group untouched => later.groups group fun key => skip group key ▸ untouched key

theorem Sets.follows {before between after : Table} {s : Setting} {v : s.Carrier}
    {rest : List Outcome} (sets : Sets before between s v) (later : Follows between after rest) :
    Follows before after (.ok ⟨s, v⟩ :: rest) := by
  constructor
  case saved =>
    intro group key w last
    rw [lastSaved?_cons, Option.or_eq_some_iff] at last
    rcases last with again | ⟨none_later, here⟩
    · exact later.saved group key w again
    · rw [valueAt?, Option.ite_none_right_eq_some] at here
      obtain ⟨⟨rfl, rfl⟩, last⟩ := here
      cases last
      apply eq_toValue
      rw [later.keys _ _ none_later, ← given?_eq_held?, sets.value, Option.map_some]
  case keys =>
    intro group key untouched
    rw [lastSaved?_cons, Option.or_eq_none_iff] at untouched
    refine (later.keys group key untouched.1).trans (sets.held?_eq fun own => ?_)
    rw [valueAt?, if_pos own] at untouched
    cases untouched.2
  case groups =>
    intro group untouched
    simp only [lastSaved?_cons, Option.or_eq_none_iff] at untouched
    have other : group ≠ s.group := by
      rintro rfl
      have here := (untouched s.key).2
      rw [valueAt?, if_pos ⟨rfl, rfl⟩] at here
      cases here
    exact (later.groups group fun key => (untouched key).1).trans (sets.groups group other)

variable (parse : List Char → Option Table) (render : Table → Option String) (userFile : Names)

/-- Saves one after the other, each of which may fail. -/
def saveEachBy (requests : List (String × String)) : StateM Tree (List Outcome) :=
  requests.mapM fun typed => (saveBy parse render userFile typed.1 typed.2).run

theorem saveEachBy_cons (typed : String × String) (rest : List (String × String)) (t : Tree) :
    (saveEachBy parse render userFile (typed :: rest)).run t =
      let first := (saveBy parse render userFile typed.1 typed.2).run.run t
      let later := (saveEachBy parse render userFile rest).run first.2
      (first.1 :: later.1, later.2) := by
  rw [saveEachBy, List.mapM_cons]
  rfl

/-- The table that each of some saves is about to write is restored, in the files that the saves
before it leave. -/
def EachReadsBack : Tree → List (String × String) → Prop
  | _, [] => True
  | t, typed :: rest =>
    ReadsBack parse render userFile t typed.1 typed.2 ∧
      EachReadsBack ((saveBy parse render userFile typed.1 typed.2).run.run t).2 rest

variable {parse render userFile}

/-- It is enough that every table which has a written form is restored. -/
theorem eachReadsBack_of_restores (back : ∀ table, Restores parse render table) (t : Tree)
    (requests : List (String × String)) : EachReadsBack parse render userFile t requests := by
  induction requests generalizing t with
  | nil => trivial
  | cons typed rest ih => exact ⟨fun table _ => back table, ih _⟩

theorem saves_of_run {t t' : Tree} {dotted given : String} {outcome : Outcome}
    (ran : (saveBy parse render userFile dotted given).run.run t = (outcome, t')) :
    Saves parse render userFile t dotted given outcome t' := by
  have saves := saves_run parse render userFile t dotted given
  rwa [ran] at saves

/-- A save that succeeds sets the value that was typed for the setting that was named. -/
theorem sets_of_run (down : ".." ∉ userFile) {t t' : Tree} {dotted given : String}
    (back : ReadsBack parse render userFile t dotted given) {s : Setting} {v : s.Carrier}
    (ran : (saveBy parse render userFile dotted given).run.run t = (.ok ⟨s, v⟩, t')) :
    (s.name = dotted ∧ s.read given = .ok v) ∧
      ∃ before after, readTableBy parse t userFile = .ok before ∧
        readTableBy parse t' userFile = .ok after ∧ Sets before after s v := by
  cases saves_of_run ran with
  | @saved _ _ before placed text _ named typed read put form written =>
      have about := (placed?_eq_some named typed read).trans put
      obtain ⟨again, reread, same⟩ := back placed about text form
      exact ⟨⟨name_of_ofName named, typed⟩, before, again, read,
        readTableBy_written down reread written, sets_of_put? put same⟩

/-- A save that fails leaves the files as they were, unless the new table has no written form. -/
theorem untouched_of_run {t t' : Tree} {dotted given : String} {e : SaveError}
    (ran : (saveBy parse render userFile dotted given).run.run t = (.error e, t')) :
    t' = t ∨ ∃ (s : Setting) (v : s.Carrier) (before placed : Table), e = .noWrittenForm t' ∧
      readTableBy parse t userFile = .ok before ∧ put? before s v = some placed ∧
        render placed = none := by
  cases saves_of_run ran with
  | unknown | refused | unreadable | notATable | unwritable => exact .inl rfl
  | emptied read put form => exact .inr ⟨_, _, _, _, rfl, read, put, form⟩

theorem run_ne_notATable {t t' : Tree} {dotted given : String} {before : Table}
    (read : readTableBy parse t userFile = .ok before)
    (tables : ∀ s : Setting, (before.tableAt? s.group).isSome) :
    (saveBy parse render userFile dotted given).run.run t ≠ (.error .notATable, t') := by
  intro ran
  cases saves_of_run ran with
  | @notATable s v found again put =>
      cases read.symm.trans again
      have place := (isSome_put? before s v).trans (tables s)
      rw [put] at place
      cases place

/-- An outcome belongs to what was typed: the setting has the name that was given, and the value is
what was read for it. -/
def Answers (typed : String × String) (outcome : Outcome) : Prop :=
  ∀ s v, outcome = .ok ⟨s, v⟩ → s.name = typed.1 ∧ s.read typed.2 = .ok v

theorem follows_of_run (down : ".." ∉ userFile) {t t' : Tree} {requests : List (String × String)}
    (back : EachReadsBack parse render userFile t requests) {outcomes : List Outcome}
    {before : Table}
    (ran : (saveEachBy parse render userFile requests).run t = (outcomes, t'))
    (read : readTableBy parse t userFile = .ok before)
    (formed : ∀ tree, .error (.noWrittenForm tree) ∉ outcomes) :
    List.Forall₂ Answers requests outcomes ∧
      ∃ after, readTableBy parse t' userFile = .ok after ∧ Follows before after outcomes := by
  induction requests generalizing t outcomes before with
  | nil =>
      cases ran
      exact ⟨.nil, before, read, follows_nil before⟩
  | cons typed rest ih =>
      rw [saveEachBy_cons] at ran
      obtain ⟨restored, back⟩ := back
      rcases step : (saveBy parse render userFile typed.1 typed.2).run.run t with ⟨first, between⟩
      rcases run : (saveEachBy parse render userFile rest).run between with ⟨later, last⟩
      rw [step] at ran back
      dsimp only at ran back
      rw [run] at ran
      cases ran
      have formedLater : ∀ tree, .error (.noWrittenForm tree) ∉ later :=
        fun tree member => formed tree (List.mem_cons_of_mem _ member)
      cases first with
      | error e =>
          -- The next save finds the files that this one found, as nothing was emptied.
          obtain rfl | ⟨_, _, _, _, rfl, _⟩ := untouched_of_run step
          · obtain ⟨answers, after, read', follows⟩ := ih back run read formedLater
            exact ⟨.cons nofun answers, after, read', follows.cons_error e⟩
          · exact absurd List.mem_cons_self (formed between)
      | ok saved =>
          obtain ⟨s, v⟩ := saved
          obtain ⟨answer, _, middle, again, set, sets⟩ := sets_of_run down restored step
          cases read.symm.trans again
          obtain ⟨answers, after, read', follows⟩ := ih back run set formedLater
          refine ⟨.cons ?_ answers, after, read', sets.follows follows⟩
          rintro _ _ ⟨⟩
          exact answer

/-- Where a table that is written is read back as the same dictionary, a save that succeeds sets one
key and keeps all else, and after any number of saves each key has the value that was saved for it
last. A save that fails leaves the files as they were; only a table that has no written form is
lost. -/
theorem saveBy_sets (down : ".." ∉ userFile) :
    (∀ t t' dotted given s v, ReadsBack parse render userFile t dotted given →
      (saveBy parse render userFile dotted given).run.run t = (.ok ⟨s, v⟩, t') →
        (s.name = dotted ∧ s.read given = .ok v) ∧
          ∃ before after, readTableBy parse t userFile = .ok before ∧
            readTableBy parse t' userFile = .ok after ∧ Sets before after s v) ∧
    (∀ t t' dotted given e,
      (saveBy parse render userFile dotted given).run.run t = (.error e, t') →
        t' = t ∨ ∃ (s : Setting) (v : s.Carrier) (before placed : Table),
          e = .noWrittenForm t' ∧ readTableBy parse t userFile = .ok before ∧
            put? before s v = some placed ∧ render placed = none) ∧
    (∀ t t' dotted given before, readTableBy parse t userFile = .ok before →
      (∀ s : Setting, (before.tableAt? s.group).isSome) →
        (saveBy parse render userFile dotted given).run.run t ≠ (.error .notATable, t')) ∧
    ∀ t t' requests outcomes before, EachReadsBack parse render userFile t requests →
      (saveEachBy parse render userFile requests).run t = (outcomes, t') →
      readTableBy parse t userFile = .ok before →
      (∀ tree, .error (.noWrittenForm tree) ∉ outcomes) →
        List.Forall₂ Answers requests outcomes ∧
          ∃ after, readTableBy parse t' userFile = .ok after ∧ Follows before after outcomes := by
  refine ⟨?_, ?_, ?_, ?_⟩
  · exact fun _ _ _ _ _ _ back ran => sets_of_run down back ran
  · exact fun _ _ _ _ _ ran => untouched_of_run ran
  · exact fun _ _ _ _ _ read tables => run_ne_notATable read tables
  · exact fun _ _ _ _ _ back ran read formed => follows_of_run down back ran read formed

end Runs

section Standard

/-- Saving in files of the standard form, where the table that is written is restored. -/
theorem save_sets {userFile : Names} (down : ".." ∉ userFile) {t : Tree} {dotted given : String}
    (back : ReadsBack read? write? userFile t dotted given) {saved : Saved}
    (h : save t userFile dotted given = .ok saved) :
    (saved.setting.name = dotted ∧ saved.setting.read given = .ok saved.value) ∧
      ∃ before after, readTable t userFile = .ok before ∧
        readTable saved.tree userFile = .ok after ∧
          Sets before after saved.setting saved.value := by
  unfold save at h
  split at h
  · rename_i s v tree ran
    cases h
    exact sets_of_run down back ran
  · cases h

/-- A table inside of the group that changes stands before the group, another group after it. -/
def keptFile : String :=
  "[diagram.notes]\nowner = \"ops\"\n\n[diagram]\ntheme = \"dark\"\n\n[extra]\nlevel = 3\n"

def keptTable : Table :=
  [("diagram", .table [("notes", .table [("owner", .text "ops")]), ("theme", .text "dark")]),
    ("extra", .table [("level", .whole 3)])]

def turnedTable : Table :=
  [("diagram", .table [("notes", .table [("owner", .text "ops")]), ("theme", .text "dark"),
      ("direction", .text "LR")]),
    ("extra", .table [("level", .whole 3)])]

def turnedFile : String :=
  "[diagram]\ntheme = \"dark\"\ndirection = \"LR\"\n\n[extra]\nlevel = 3\n\n" ++
    "[diagram.notes]\nowner = \"ops\"\n"

theorem write?_turnedTable : write? turnedTable = some turnedFile := by
  have bare : keyText "diagram" = "diagram" ∧ keyText "extra" = "extra" ∧
      keyText "notes" = "notes" := by decide
  -- Sorting is no structural recursion, so that it is followed by its equations.
  have parts : (partsBelow 1 "" turnedTable).mergeSort (fun a b => a.depth ≤ b.depth) =
      [⟨1, "diagram", [("notes", .table [("owner", .text "ops")]), ("theme", .text "dark"),
          ("direction", .text "LR")]⟩,
        ⟨1, "extra", [("level", .whole 3)]⟩, ⟨2, "diagram.notes", [("owner", .text "ops")]⟩] := by
    simp [turnedTable, partsBelow, bare, List.mergeSort, List.MergeSort.Internal.splitInTwo]
  rw [write?, if_pos (by decide), tableText, parts]
  decide

set_option maxRecDepth 4000 in
theorem read?_keptFile : read? (unifyLineEnds false keptFile.toList) = some keptTable := by rfl

/-- The plain keys of the group now come before the table in it. -/
def rereadTable : Table :=
  [("diagram", .table [("theme", .text "dark"), ("direction", .text "LR"),
      ("notes", .table [("owner", .text "ops")])]),
    ("extra", .table [("level", .whole 3)])]

set_option maxRecDepth 4000 in
theorem read?_turnedFile : read? (unifyLineEnds false turnedFile.toList) = some rereadTable := by
  rfl

theorem restores_turnedTable : Restores read? write? turnedTable := by
  intro text form
  cases write?_turnedTable.symm.trans form
  refine ⟨rereadTable, read?_turnedFile, Table.contents_eq_iff.mpr fun key => ?_⟩
  simp only [rereadTable, turnedTable, Table.get?_cons]
  split_ifs
  · refine congrArg some (Table.contents_eq_of_get? fun name => ?_)
    simp only [Table.get?_cons]
    split_ifs <;> first | rfl | simp_all
  · rfl
  · rfl

/-- A direction is saved next to what the file held. A theme that there is not is refused, and all
stays as it was saved. -/
theorem saveBy_sets_direction :
    let file := ["home", "config.toml"]
    let t := Tree.empty.putText file keptFile
    let requests := [("diagram.direction", "LR"), ("diagram.theme", "pink")]
    let outcomes : List Outcome := [.ok ⟨.direction, Diagram.Direction.leftRight⟩,
      .error (.refused (.notAmong .theme ["default", "dark", "forest", "neutral"]))]
    EachReadsBack read? write? file t requests ∧ readTable t file = .ok keptTable ∧
      ∃ t' after, (saveEachBy read? write? file requests).run t = (outcomes, t') ∧
        readTable t' file = .ok after ∧ Follows keptTable after outcomes ∧
        held? after "diagram" "direction" = some (.text "LR") ∧
        (after.get? "extra").map Value.contents =
          some (Value.table [("level", .whole 3)]).contents := by
  intro file t requests outcomes
  have read : readTable t file = .ok keptTable :=
    readTableBy_of_text (file?_putText Tree.empty file keptFile) read?_keptFile
  have named : Setting.ofName "diagram.direction" = .ok .direction := by rfl
  have typed : Setting.direction.read "LR" = .ok Diagram.Direction.leftRight := by rfl
  have put : put? keptTable .direction Diagram.Direction.leftRight = some turnedTable := by rfl
  obtain ⟨t', written⟩ : ∃ t', t.writeMakingFolders [] ⟨1, file⟩ turnedFile = .ok t' :=
    ⟨_, by rfl⟩
  have first := run_of_written named typed read put write?_turnedTable written
  have ran : (saveEachBy read? write? file requests).run t = (outcomes, t') := by
    rw [saveEachBy_cons]
    dsimp only
    rw [first]
    rfl
  have back : EachReadsBack read? write? file t requests := by
    refine ⟨fun table placed => ?_, fun table placed => ?_, trivial⟩
    · cases ((placed?_eq_some named typed read).trans put).symm.trans placed
      exact restores_turnedTable
    · cases placed
  have formed : ∀ tree, .error (.noWrittenForm tree) ∉ outcomes := by simp [outcomes]
  obtain ⟨-, -, -, runs⟩ := saveBy_sets (by decide : ".." ∉ file)
  obtain ⟨-, after, reread, follows⟩ := runs _ _ _ _ _ back ran read formed
  refine ⟨back, read, t', after, ran, reread, follows, follows.saved _ _ _ rfl, ?_⟩
  have other : "extra" ≠ Setting.direction.group := by decide
  exact follows.groups "extra" fun key => by simp [outcomes, lastSaved?, valueAt?, other]

end Standard

end ComponentAtlas.Settings
