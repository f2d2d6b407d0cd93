import ComponentAtlas.Proofs.Settings.Layers

/-!
What merging layers comes to as a table. The result has the groups and the keys of the settings and
no others, and what stands at each of them is told by the layers alone: by what the last layer with
that key has there, or by the standard value. A diagram can always be configured from it.
-/

namespace ComponentAtlas

open Toml

namespace Diagram

theorem Direction.named?_name (d : Direction) : Direction.named? d.name = some d := by
  cases d <;> rfl

theorem Theme.named?_name (t : Theme) : Theme.named? t.name = some t := by
  cases t <;> rfl

/-- The values of a configuration make that configuration. -/
theorem Config.make_of_values (config : Config) :
    Config.make config.direction.name config.theme.name config.showLabels config.maxNodes =
      .ok config := by
  simp only [Config.make, Direction.named?_name, Theme.named?_name, Int.toNat_natCast,
    dif_pos config.one_le_maxNodes]

end Diagram

namespace Setting

/-- `s.Counts given v`: a settings file that gives `given` sets `s` to `v`. That is the same value,
but for a whole number of seconds, which counts as the floating-point number nearest to it. Values
of another kind count for nothing, and neither do words that are no choice and numbers that are not
at least the least one, as the undefined number never is. -/
inductive Counts : Setting → Value → Value → Prop
  | patterns (words : List String) :
      Counts excludePatterns (.list (words.map .text)) (.list (words.map .text))
  | depth {n : Int} (least : 0 ≤ n) : Counts maxDepth (.whole n) (.whole n)
  | fallback (b : Bool) : Counts fallbackResolution (.truth b) (.truth b)
  | direction {word : String} (choice : word ∈ ["TB", "LR", "BT", "RL"]) :
      Counts direction (.text word) (.text word)
  | theme {word : String} (choice : word ∈ ["default", "dark", "forest", "neutral"]) :
      Counts theme (.text word) (.text word)
  | labels (b : Bool) : Counts showLabels (.truth b) (.truth b)
  | nodes {n : Int} (least : 1 ≤ n) : Counts maxNodes (.whole n) (.whole n)
  | seconds {x : Float} (least : x ≥ 0.0) : Counts debounce (.number x) (.number x)
  | wholeSeconds {n : Int} (least : Decimal.ofWhole n ≥ 0.0) :
      Counts debounce (.whole n) (.number (Decimal.ofWhole n))
  | refresh (b : Bool) : Counts autoRefresh (.truth b) (.truth b)

section Counting

theorem mapM_text?_eq_some_iff (items : List Value) (words : List String) :
    items.mapM Value.text? = some words ↔ items = words.map .text := by
  constructor
  · intro read
    induction items generalizing words with
    | nil =>
        cases read
        rfl
    | cons item items ih =>
        rw [List.mapM_cons] at read
        obtain ⟨word, first, later⟩ := Option.bind_eq_some_iff.mp read
        obtain ⟨rest, tail, whole⟩ := Option.bind_eq_some_iff.mp later
        cases whole
        cases item with
        | text t =>
            cases first
            rw [ih rest tail, List.map_cons]
        | null | truth b | whole n | number x | list ts | table entries => cases first
  · rintro rfl
    exact mapM_text? words

theorem nodeLimit?_eq_some_iff (n : Int) (limit : { n : Nat // 1 ≤ n }) :
    nodeLimit? n = some limit ↔ n = limit.val := by
  have positive := limit.property
  unfold nodeLimit?
  split
  · rw [Option.some.injEq, Subtype.ext_iff]
    dsimp only
    omega
  · refine iff_of_false nofun ?_
    omega

/-- What a setting accepts is what counts for it. -/
theorem counts_of_accept? {s : Setting} {given : Value} {c : s.Carrier}
    (h : s.accept? given = some c) : s.Counts given (s.toValue c) := by
  cases s with
  | excludePatterns =>
      cases given with
      | list items =>
          rw [accept?, mapM_text?_eq_some_iff] at h
          exact h ▸ .patterns c
      | null | truth b | whole n | number x | text t | table entries => cases h
  | maxDepth =>
      cases given with
      | whole n =>
          rw [accept?, Option.ite_none_right_eq_some] at h
          obtain ⟨least, same⟩ := h
          cases same
          exact .depth least
      | null | truth b | number x | text t | list items | table entries => cases h
  | fallbackResolution =>
      cases given with
      | truth b =>
          cases h
          exact .fallback c
      | null | whole n | number x | text t | list items | table entries => cases h
  | direction =>
      cases given with
      | text word =>
          have named := List.find?_some (p := fun d => Diagram.Direction.name d == word) h
          rw [← eq_of_beq named]
          exact .direction (direction_allowed c)
      | null | truth b | whole n | number x | list items | table entries => cases h
  | theme =>
      cases given with
      | text word =>
          have named := List.find?_some (p := fun t => Diagram.Theme.name t == word) h
          rw [← eq_of_beq named]
          exact .theme (theme_allowed c)
      | null | truth b | whole n | number x | list items | table entries => cases h
  | showLabels =>
      cases given with
      | truth b =>
          cases h
          exact .labels c
      | null | whole n | number x | text t | list items | table entries => cases h
  | maxNodes =>
      cases given with
      | whole n =>
          rw [accept?, nodeLimit?_eq_some_iff] at h
          exact h ▸ .nodes (Int.ofNat_le.mpr c.property)
      | null | truth b | number x | text t | list items | table entries => cases h
  | debounce =>
      cases given with
      | whole n =>
          rw [accept?, seconds?_eq_some_iff] at h
          obtain ⟨rfl, least⟩ := h
          exact .wholeSeconds least
      | number x =>
          rw [accept?, seconds?_eq_some_iff] at h
          obtain ⟨rfl, least⟩ := h
          exact .seconds least
      | null | truth b | text t | list items | table entries => cases h
  | autoRefresh =>
      cases given with
      | truth b =>
          cases h
          exact .refresh c
      | null | whole n | number x | text t | list items | table entries => cases h

theorem accept?_of_counts {s : Setting} {given v : Value} (h : s.Counts given v) :
    ∃ c, s.accept? given = some c ∧ s.toValue c = v := by
  cases h with
  | patterns words => exact ⟨words, mapM_text? words, rfl⟩
  | depth least => exact ⟨_, if_pos least, rfl⟩
  | fallback b | labels b | refresh b => exact ⟨b, rfl, rfl⟩
  | direction choice =>
      simp only [List.mem_cons, List.not_mem_nil, or_false] at choice
      rcases choice with rfl | rfl | rfl | rfl <;> exact ⟨_, rfl, rfl⟩
  | theme choice =>
      simp only [List.mem_cons, List.not_mem_nil, or_false] at choice
      rcases choice with rfl | rfl | rfl | rfl <;> exact ⟨_, rfl, rfl⟩
  | @nodes n least =>
      lift n to ℕ using (by omega)
      exact ⟨⟨n, Int.ofNat_le.mp least⟩, (nodeLimit?_eq_some_iff _ _).mpr rfl, rfl⟩
  | seconds least => exact ⟨_, if_pos least, rfl⟩
  | wholeSeconds least => exact ⟨_, if_pos least, rfl⟩

end Counting

end Setting

namespace Settings

/-- The table has the group of the setting as a table with the key of the setting, and `v` there. -/
def Gives (t : Table) (s : Setting) (v : Value) : Prop :=
  ∃ entries, t.get? s.group = some (.table entries) ∧ Table.get? entries s.key = some v

/-- The last of the layers that give the setting anything gives it `v`. -/
def GivesLast (layers : List Table) (s : Setting) (v : Value) : Prop :=
  ∃ before layer after, layers = before ++ layer :: after ∧ Gives layer s v ∧
    ∀ later ∈ after, ∀ w, ¬ Gives later s w

/-- What the layers say of the setting. A value that comes last and does not count gives way to the
standard value, not to one of an earlier layer. -/
inductive Decides (layers : List Table) (s : Setting) : Value → Prop
  | counts {given v : Value} (last : GivesLast layers s given) (h : s.Counts given v) :
      Decides layers s v
  | discounted {given : Value} (last : GivesLast layers s given)
      (h : ∀ v, ¬ s.Counts given v) : Decides layers s (s.toValue s.standard)
  | untold (h : ∀ layer ∈ layers, ∀ v, ¬ Gives layer s v) :
      Decides layers s (s.toValue s.standard)

/-- The groups of a table, each with its keys. -/
def outline (t : Table) : List (String × List String) :=
  t.map fun entry => (entry.1, (entry.2.table?.getD []).map (·.1))

/-- The table is what the layers come to. -/
structure Merges (layers : List Table) (result : Table) : Prop where
  outlined : outline result = [
    ("scan", ["exclude_patterns", "max_depth", "fallback_resolution"]),
    ("diagram", ["direction", "theme", "show_labels", "max_nodes"]),
    ("watch", ["debounce_seconds", "auto_refresh"])]
  decided : ∀ s v, Gives result s v ↔ Decides layers s v

/-- Every setting has a value of its kind that is allowed, and those of the diagram make a
configuration. -/
structure Usable (result : Table) : Prop where
  scan : ∃ (words : List String) (depth : Int) (fallback : Bool),
    Gives result .excludePatterns (.list (words.map .text)) ∧
      Gives result .maxDepth (.whole depth) ∧ 0 ≤ depth ∧
      Gives result .fallbackResolution (.truth fallback)
  diagram : ∃ (direction theme : String) (labels : Bool) (limit : Int),
    Gives result .direction (.text direction) ∧ direction ∈ ["TB", "LR", "BT", "RL"] ∧
      Gives result .theme (.text theme) ∧ theme ∈ ["default", "dark", "forest", "neutral"] ∧
      Gives result .showLabels (.truth labels) ∧
      Gives result .maxNodes (.whole limit) ∧ 1 ≤ limit ∧
      ∃ config, Diagram.Config.make direction theme labels limit = .ok config
  watch : ∃ (seconds : Float) (refresh : Bool),
    Gives result .debounce (.number seconds) ∧ seconds ≥ 0.0 ∧
      Gives result .autoRefresh (.truth refresh)

section Layers

theorem given?_eq_some_iff (t : Table) (s : Setting) (v : Value) :
    given? t s = some v ↔ Gives t s v := by
  unfold given? Gives
  split
  · rename_i entries group
    simp [group]
  · rename_i no_table
    refine iff_of_false nofun ?_
    rintro ⟨entries, group, _⟩
    exact no_table entries group

theorem lastGiven?_eq_some_iff (layers : List Table) (s : Setting) (v : Value) :
    lastGiven? layers s = some v ↔ GivesLast layers s v := by
  constructor
  · intro found
    obtain ⟨after, layer, before, shape, gives, silent⟩ := List.findSome?_eq_some_iff.mp found
    refine ⟨before.reverse, layer, after.reverse, ?_, (given?_eq_some_iff layer s v).mp gives, ?_⟩
    · simpa using congrArg List.reverse shape
    · intro later member w given
      have nothing := silent later (List.mem_reverse.mp member)
      cases nothing.symm.trans ((given?_eq_some_iff later s w).mpr given)
  · rintro ⟨before, layer, after, rfl, gives, silent⟩
    refine List.findSome?_eq_some_iff.mpr ⟨after.reverse, layer, before.reverse, by simp,
      (given?_eq_some_iff layer s v).mpr gives, fun later member => ?_⟩
    rw [Option.eq_none_iff_forall_ne_some]
    intro w given
    exact silent later (List.mem_reverse.mp member) w ((given?_eq_some_iff later s w).mp given)

theorem lastGiven?_eq_none_iff (layers : List Table) (s : Setting) :
    lastGiven? layers s = none ↔ ∀ layer ∈ layers, ∀ v, ¬ Gives layer s v := by
  rw [lastGiven?, List.findSome?_eq_none_iff]
  simp only [List.mem_reverse, ← given?_eq_some_iff, Option.eq_none_iff_forall_ne_some, ne_eq]

theorem decided_eq (layers : List Table) (s : Setting) :
    decided layers s = ((lastGiven? layers s).bind s.accept?).getD s.standard := by
  unfold decided
  cases lastGiven? layers s <;> rfl

theorem decides_iff (layers : List Table) (s : Setting) (v : Value) :
    Decides layers s v ↔ v = s.toValue (decided layers s) := by
  rw [decided_eq]
  constructor
  · intro h
    cases h with
    | counts last h =>
        obtain ⟨c, accepted, rfl⟩ := Setting.accept?_of_counts h
        rw [(lastGiven?_eq_some_iff layers s _).mpr last, Option.bind_some, accepted,
          Option.getD_some]
    | @discounted given last h =>
        have refused : s.accept? given = none := by
          rw [Option.eq_none_iff_forall_ne_some]
          exact fun c accepted => h _ (Setting.counts_of_accept? accepted)
        rw [(lastGiven?_eq_some_iff layers s _).mpr last, Option.bind_some, refused,
          Option.getD_none]
    | untold h =>
        rw [(lastGiven?_eq_none_iff layers s).mpr h, Option.bind_none, Option.getD_none]
  · rintro rfl
    cases last : lastGiven? layers s with
    | none => exact .untold ((lastGiven?_eq_none_iff layers s).mp last)
    | some given =>
        have gives := (lastGiven?_eq_some_iff layers s given).mp last
        rw [Option.bind_some]
        cases accepted : s.accept? given with
        | some c => exact .counts gives (Setting.counts_of_accept? accepted)
        | none =>
            refine .discounted gives fun v counts => ?_
            obtain ⟨c, other, _⟩ := Setting.accept?_of_counts counts
            cases accepted.symm.trans other

theorem gives_toTable (settings : Settings) (s : Setting) :
    Gives settings.toTable s (s.toValue (settings s)) := by
  rw [← given?_eq_some_iff]
  cases s <;> rfl

theorem gives_toTable_iff (settings : Settings) (s : Setting) (v : Value) :
    Gives settings.toTable s v ↔ v = s.toValue (settings s) := by
  have own := (given?_eq_some_iff _ _ _).mpr (gives_toTable settings s)
  rw [← given?_eq_some_iff, own, Option.some.injEq, eq_comm]

theorem usable_toTable {settings : Settings} (allowed : ∀ s : Setting, s.Allowed (settings s)) :
    Usable settings.toTable where
  scan := ⟨_, _, _, gives_toTable settings .excludePatterns, gives_toTable settings .maxDepth,
    allowed .maxDepth, gives_toTable settings .fallbackResolution⟩
  diagram := ⟨_, _, _, _, gives_toTable settings .direction, allowed .direction,
    gives_toTable settings .theme, allowed .theme, gives_toTable settings .showLabels,
    gives_toTable settings .maxNodes, Int.ofNat_le.mpr (allowed .maxNodes),
    settings.diagram, settings.diagram.make_of_values⟩
  watch := ⟨_, _, gives_toTable settings .debounce, allowed .debounce,
    gives_toTable settings .autoRefresh⟩

/-- Merging fails for a whole number too large for a floating-point one only. Otherwise the result
is what the layers decide, and it can be used whatever they hold. -/
theorem ofLayers_merges (layers : List Table) :
    ((∃ settings, ofLayers layers = .ok settings) ↔ ∀ layer ∈ layers, Fits layer) ∧
      ∀ settings, ofLayers layers = .ok settings →
        Merges layers settings.toTable ∧ Usable settings.toTable := by
  simp only [ofLayers_eq_ok_iff]
  refine ⟨by simp, ?_⟩
  rintro settings ⟨rfl, _⟩
  refine ⟨⟨rfl, fun s v => ?_⟩, usable_toTable (allowed_decided layers)⟩
  rw [gives_toTable_iff, decides_iff]

/-- A layer with some settings, and one over it that leaves one of them, gives another a truth value
in the place of a number, and has no table in the group of the third. -/
def contested : List Table := [
  [("diagram", .table [("direction", .text "LR"), ("max_nodes", .whole 10)]),
    ("watch", .table [("debounce_seconds", .whole 1)])],
  [("diagram", .table [("max_nodes", .truth true), ("colour", .text "red")]), ("watch", .null)]]

/-- The first stays, the second goes back to its standard value, and the third is a number. -/
theorem ofLayers_merges_contested :
    ∃ settings, ofLayers contested = .ok settings ∧
      Gives settings.toTable .direction (.text "LR") ∧
      Gives settings.toTable .maxNodes (.whole 50) ∧
      Gives settings.toTable .debounce (.number (1.0 : Float)) := by
  obtain ⟨returns, merges⟩ := ofLayers_merges contested
  have fits : ∀ layer ∈ contested, Fits layer := by
    simp only [contested, List.forall_mem_cons]
    exact ⟨(holdsTooLarge_eq_false_iff _).mp rfl, (holdsTooLarge_eq_false_iff _).mp rfl, nofun⟩
  obtain ⟨settings, merged⟩ := returns.mpr fits
  obtain ⟨⟨_, decided⟩, _⟩ := merges settings merged
  have last (s : Setting) (v : Value) (h : lastGiven? contested s = some v) :
      GivesLast contested s v := (lastGiven?_eq_some_iff contested s v).mp h
  refine ⟨settings, merged, ?_, ?_, ?_⟩
  · exact (decided .direction _).mpr (.counts (last _ (.text "LR") rfl) (.direction (by decide)))
  · exact (decided .maxNodes _).mpr (.discounted (last _ (.truth true) rfl) nofun)
  · exact (decided .debounce _).mpr (.counts (last _ (.whole 1) rfl) (.wholeSeconds (by decide)))

end Layers

end Settings

end ComponentAtlas
