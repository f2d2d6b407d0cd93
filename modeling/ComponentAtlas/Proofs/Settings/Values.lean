import ComponentAtlas.Proofs.Decimal.Undefined
import ComponentAtlas.Settings.Setting

/-!
The values that a setting allows. A settings file can give these and no others, the standard value
is one of them, and so is what a person may type, the undefined number apart.
-/

namespace ComponentAtlas.Setting

open Text Toml

/-- What is asked of a value beyond its kind. -/
def Allowed : (s : Setting) → s.Carrier → Prop
  | maxDepth, n => 0 ≤ n
  | direction, d => d.name ∈ ["TB", "LR", "BT", "RL"]
  | theme, t => t.name ∈ ["default", "dark", "forest", "neutral"]
  | maxNodes, n => 1 ≤ n.val
  | debounce, x => x ≥ 0.0
  | _, _ => True

instance : (s : Setting) → (v : s.Carrier) → Decidable (s.Allowed v)
  | maxDepth, n => inferInstanceAs (Decidable (0 ≤ n))
  | direction, d => inferInstanceAs (Decidable (d.name ∈ ["TB", "LR", "BT", "RL"]))
  | theme, t => inferInstanceAs (Decidable (t.name ∈ ["default", "dark", "forest", "neutral"]))
  | maxNodes, n => inferInstanceAs (Decidable (1 ≤ n.val))
  | debounce, x => inferInstanceAs (Decidable (x ≥ 0.0))
  | excludePatterns, _ | fallbackResolution, _ | showLabels, _ | autoRefresh, _ => .isTrue trivial

section Allowed

theorem direction_allowed (d : Diagram.Direction) : direction.Allowed d := by
  cases d <;> decide

theorem theme_allowed (t : Diagram.Theme) : theme.Allowed t := by
  cases t <;> decide

theorem allowed_standard (s : Setting) : s.Allowed s.standard := by
  cases s with
  | maxDepth | direction | theme | maxNodes | debounce => decide
  | excludePatterns | fallbackResolution | showLabels | autoRefresh => trivial

theorem seconds?_eq_some_iff (x y : Float) : seconds? x = some y ↔ y = x ∧ x ≥ 0.0 := by
  unfold seconds?
  by_cases least : x ≥ 0.0
  · simp [least, eq_comm]
  · simp [least]

theorem allowed_of_accept? {s : Setting} {given : Value} {v : s.Carrier}
    (h : s.accept? given = some v) : s.Allowed v := by
  cases s with
  | excludePatterns | fallbackResolution | showLabels | autoRefresh => trivial
  | direction => exact direction_allowed v
  | theme => exact theme_allowed v
  | maxNodes => exact v.property
  | maxDepth =>
      cases given with
      | whole n =>
          by_cases least : 0 ≤ n
          · rw [accept?, if_pos least] at h
            cases h
            exact least
          · rw [accept?, if_neg least] at h
            cases h
      | null | truth b | number x | text t | list items | table entries => cases h
  | debounce =>
      cases given with
      | whole n =>
          rw [accept?, seconds?_eq_some_iff] at h
          exact h.1 ▸ h.2
      | number x =>
          rw [accept?, seconds?_eq_some_iff] at h
          exact h.1 ▸ h.2
      | null | truth b | text t | list items | table entries => cases h

theorem mapM_text? (words : List String) :
    (words.map Value.text).mapM Value.text? = some words := by
  induction words with
  | nil => rfl
  | cons word words ih =>
      rw [List.map_cons, List.mapM_cons, ih]
      rfl

/-- Written to a settings file and read back, a value is itself if it is allowed, and counts for
nothing otherwise. -/
theorem accept?_toValue (s : Setting) (v : s.Carrier) :
    s.accept? (s.toValue v) = some v ↔ s.Allowed v := by
  refine ⟨allowed_of_accept?, fun allowed => ?_⟩
  cases s with
  | fallbackResolution | showLabels | autoRefresh => rfl
  | excludePatterns => exact mapM_text? v
  | maxDepth => exact if_pos allowed
  | direction => cases v <;> decide
  | theme => cases v <;> decide
  | maxNodes => exact dif_pos v.property
  | debounce => exact if_pos allowed

end Allowed

section Typed

theorem least_of_readDepth {given : String} {n : Int} (h : readDepth given = .ok n) : 0 ≤ n := by
  unfold readDepth at h
  cases whole : readWhole given with
  | error reason =>
      rw [whole] at h
      cases h
  | ok m =>
      rw [whole] at h
      change (if m < 0 then Except.error (Refusal.below maxDepth "0") else .ok m) = .ok n at h
      split at h
      · cases h
      · rename_i least
        cases h
        exact Int.not_lt.mp least

theorem reading_of_readSeconds {given : String} {x : Float} (h : readSeconds given = .ok x) :
    ∃ r, Decimal.reading? given = some r ∧ r.toFloat = x ∧ ¬ x < 0.0 := by
  unfold readSeconds Decimal.float? at h
  cases reading : Decimal.reading? given with
  | none =>
      rw [reading] at h
      cases h
  | some r =>
      rw [reading, Option.map_some] at h
      dsimp only at h
      split at h
      · cases h
      · rename_i least
        cases h
        exact ⟨r, rfl, rfl, least⟩

/-- What a person may type is allowed, but for the one number that is not below zero and not at
least zero. -/
theorem allowed_of_read {s : Setting} {given : String} {v : s.Carrier} (h : s.read given = .ok v) :
    s.Allowed v ↔ ¬ (s = debounce ∧ Decimal.reading? given = some .undefined) := by
  cases s with
  | debounce =>
      have typed : readSeconds given = .ok v := h
      obtain ⟨r, reading, number, least⟩ := reading_of_readSeconds typed
      have defined : debounce.Allowed v ↔ Float.isNaN v = false :=
        (Decimal.ge_zero_iff v).trans (and_iff_right least)
      rw [defined, reading, ← number, ← Bool.not_eq_true, Decimal.isNaN_reading_iff]
      simp
  | maxDepth => exact iff_of_true (least_of_readDepth h) (by simp)
  | direction => exact iff_of_true (direction_allowed v) (by simp)
  | theme => exact iff_of_true (theme_allowed v) (by simp)
  | maxNodes => exact iff_of_true v.property (by simp)
  | excludePatterns | fallbackResolution | showLabels | autoRefresh =>
      exact iff_of_true trivial (by simp)

end Typed

end ComponentAtlas.Setting
