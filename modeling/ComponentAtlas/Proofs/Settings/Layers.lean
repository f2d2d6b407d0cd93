import Mathlib.Data.List.Induction
import ComponentAtlas.Proofs.Settings.Values
import ComponentAtlas.Settings.Layers

/-!
What layers of tables decide. The last layer that has a setting decides it: with its value if the
setting allows it, and with the standard value otherwise. Only a whole number too large for a
floating-point one stops it all.
-/

namespace ComponentAtlas.Settings

open Toml

section Layers

/-- What the last of the layers that have a setting says of it. -/
def lastGiven? (layers : List Table) (s : Setting) : Option Value :=
  layers.reverse.findSome? fun layer => given? layer s

/-- Every setting as the last layer that has it says, if it accepts that, and in its standard value
otherwise. -/
def decided (layers : List Table) : Settings := fun s =>
  match lastGiven? layers s with
  | none => s.standard
  | some v => (s.accept? v).getD s.standard

/-- A whole number of seconds is near a floating-point number. -/
def Fits (layer : Table) : Prop :=
  ∀ n, given? layer .debounce = some (.whole n) → (Decimal.ofWhole n).isInf = false

theorem holdsTooLarge_eq_false_iff (layer : Table) : holdsTooLarge layer = false ↔ Fits layer := by
  unfold holdsTooLarge
  rw [List.any_eq_false]
  constructor
  · intro none_large n gives
    have own := none_large .debounce (by decide)
    rw [gives] at own
    exact Bool.eq_false_iff.mpr own
  · intro fits s _
    cases gives : given? layer s with
    | none => exact Bool.false_ne_true
    | some v =>
        cases s with
        | debounce =>
            cases v with
            | whole n => exact Bool.eq_false_iff.mp (fits n gives)
            | null | truth b | number x | text t | list items | table entries =>
                exact Bool.false_ne_true
        | excludePatterns | maxDepth | fallbackResolution | direction | theme | showLabels
        | maxNodes | autoRefresh => exact Bool.false_ne_true

theorem decided_concat (layers : List Table) (layer : Table) :
    decided (layers ++ [layer]) = (decided layers).lay layer := by
  funext s
  have last : lastGiven? (layers ++ [layer]) s = (given? layer s).or (lastGiven? layers s) := by
    rw [lastGiven?, List.reverse_append, List.reverse_singleton, List.findSome?_append]
    simp [lastGiven?]
  unfold decided lay
  rw [last]
  cases given? layer s <;> rfl

theorem layChecked_eq_ok_iff (settings : Settings) (layer : Table) (result : Settings) :
    layChecked settings layer = .ok result ↔ result = settings.lay layer ∧ Fits layer := by
  rw [← holdsTooLarge_eq_false_iff, layChecked]
  cases holdsTooLarge layer <;> simp [eq_comm]

theorem ofLayers_concat (layers : List Table) (layer : Table) :
    ofLayers (layers ++ [layer]) =
      (ofLayers layers).bind fun settings => layChecked settings layer := by
  simp only [ofLayers, List.foldlM_append, List.foldlM_cons, List.foldlM_nil, bind_pure]
  rfl

/-- Layers give settings if none of them holds a number that is too large, and these settings are
what the layers decide. -/
theorem ofLayers_eq_ok_iff (layers : List Table) (settings : Settings) :
    ofLayers layers = .ok settings ↔
      settings = decided layers ∧ ∀ layer ∈ layers, Fits layer := by
  induction layers using List.reverseRecOn generalizing settings with
  | nil =>
      have empty : ofLayers [] = .ok (decided []) := rfl
      simp [empty, eq_comm]
  | append_singleton layers layer ih =>
      rw [ofLayers_concat, List.forall_mem_append, List.forall_mem_singleton]
      cases below : ofLayers layers with
      | error e =>
          refine iff_of_false nofun ?_
          rintro ⟨_, fits, _⟩
          cases below.symm.trans ((ih _).mpr ⟨rfl, fits⟩)
      | ok settings_below =>
          obtain ⟨rfl, fits⟩ := (ih _).mp below
          change layChecked (decided layers) layer = .ok settings ↔ _
          rw [layChecked_eq_ok_iff, decided_concat]
          exact and_congr_right fun _ => (and_iff_right fits).symm

theorem allowed_decided (layers : List Table) (s : Setting) : s.Allowed (decided layers s) := by
  unfold decided
  split
  · exact s.allowed_standard
  · rename_i given _
    cases accepted : s.accept? given with
    | none => exact s.allowed_standard
    | some v => exact Setting.allowed_of_accept? accepted

end Layers

section Single

variable (s : Setting) (v : s.Carrier)

/-- The layer that gives one setting and nothing else. -/
def single : Table := [(s.group, .table [(s.key, s.toValue v)])]

theorem given?_single : given? (single s v) s = some (s.toValue v) := by
  simp [given?, single, Table.get?]

theorem fits_single : Fits (single s v) := by
  intro n gives
  cases s with
  | debounce => cases (given?_single _ v).symm.trans gives
  | excludePatterns | maxDepth | fallbackResolution | direction | theme | showLabels | maxNodes
  | autoRefresh => cases gives

theorem decided_single :
    decided [single s v] s = (s.accept? (s.toValue v)).getD s.standard := by
  simp [decided, lastGiven?, given?_single]

/-- A value given as the only one is decided on if it is allowed; any other gives way to the
standard value. -/
theorem decided_single_iff : decided [single s v] s = v ↔ s.Allowed v := by
  constructor
  · intro same
    exact same ▸ allowed_decided [single s v] s
  · intro allowed
    rw [decided_single, (s.accept?_toValue v).mpr allowed]
    rfl

end Single

section Typed

/-- What a person may type for a setting is what a settings file may give it, and loading a file
that gives it decides on it. The text for the undefined number of seconds is the one exception. -/
theorem read_decided_iff {s : Setting} {given : String} {v : s.Carrier}
    (h : s.read given = .ok v) :
    let undefined := s = .debounce ∧ Decimal.reading? given = some .undefined
    (s.accept? (s.toValue v) = some v ↔ ¬ undefined) ∧
      ∃ settings, ofLayers [single s v] = .ok settings ∧ (settings s = v ↔ ¬ undefined) := by
  intro undefined
  have allowed : s.Allowed v ↔ ¬ undefined := Setting.allowed_of_read h
  refine ⟨(s.accept?_toValue v).trans allowed, decided [single s v], ?_, ?_⟩
  · rw [ofLayers_eq_ok_iff, List.forall_mem_singleton]
    exact ⟨rfl, fits_single s v⟩
  · exact (decided_single_iff s v).trans allowed

theorem read_decided_iff_scientific :
    Setting.debounce.read "+1e1" = .ok (10.0 : Float) ∧
      ∃ settings, ofLayers [single .debounce (10.0 : Float)] = .ok settings ∧
        settings .debounce = (10.0 : Float) := by
  have typed : Setting.debounce.read "+1e1" = .ok (10.0 : Float) := rfl
  have number : Decimal.reading? "+1e1" = some (.value .plus 1 1) := rfl
  obtain ⟨settings, loaded, decides⟩ := (read_decided_iff typed).2
  refine ⟨typed, settings, loaded, decides.mpr ?_⟩
  rintro ⟨_, undefined⟩
  cases number.symm.trans undefined

/-- The undefined number of seconds may be typed, but loading it goes back to the standard value. -/
theorem read_undefined_not_decided :
    let x : Float := 0.0 / 0.0
    Setting.debounce.read "nan" = .ok x ∧
      Setting.debounce.accept? (Setting.debounce.toValue x) ≠ some x ∧
      decided [single .debounce x] .debounce = (2.0 : Float) ∧ (2.0 : Float) ≠ x := by
  intro x
  have refused : ¬ Setting.debounce.Allowed x := by decide
  have passed : Setting.debounce.accept? (Setting.debounce.toValue x) = none := if_neg refused
  have standard : decided [single .debounce x] .debounce = (2.0 : Float) := by
    rw [decided_single, passed]
    rfl
  refine ⟨rfl, mt (Setting.debounce.accept?_toValue x).mp refused, standard, ?_⟩
  exact fun same => refused ((decided_single_iff .debounce x).mp (standard.trans same))

end Typed

end ComponentAtlas.Settings
