import ComponentAtlas.Proofs.Settings.Layers
import ComponentAtlas.Settings.Store

/-!
Loading settings, whatever reads the texts of settings files. What is missing, is a folder or has
another form counts as empty, so only bytes that are no text and a number that is too large stop it.
-/

namespace ComponentAtlas.Settings

open Text Toml

section Traversal

variable {α β ε : Type} {f : α → Except ε β} {g : α → β} {p : α → Prop}

/-- A traversal whose every step gives `g a` or fails gives all of them or fails. -/
theorem mapM_eq_ok_iff (each : ∀ a b, f a = .ok b ↔ b = g a ∧ p a) (as : List α) (bs : List β) :
    as.mapM f = .ok bs ↔ bs = as.map g ∧ ∀ a ∈ as, p a := by
  induction as generalizing bs with
  | nil => simp [pure, Except.pure, eq_comm]
  | cons a as ih =>
      rw [List.mapM_cons, List.map_cons, List.forall_mem_cons]
      cases first : f a with
      | error e =>
          refine iff_of_false nofun ?_
          rintro ⟨_, holds, _⟩
          cases first.symm.trans ((each a _).mpr ⟨rfl, holds⟩)
      | ok b =>
          obtain ⟨rfl, holds⟩ := (each a b).mp first
          cases later : as.mapM f with
          | error e =>
              refine iff_of_false nofun ?_
              rintro ⟨_, _, hold⟩
              cases later.symm.trans ((ih _).mpr ⟨rfl, hold⟩)
          | ok rest =>
              obtain ⟨rfl, hold⟩ := (ih rest).mp later
              change Except.ok (g a :: as.map g) = .ok bs ↔ _
              rw [Except.ok.injEq, eq_comm]
              exact (and_iff_left ⟨holds, hold⟩).symm

end Traversal

section Files

variable (parse : List Char → Option Table) (t : Tree)

/-- The bytes of a settings file, where it has any, are those of a text. -/
def Decodes (file : Names) : Prop :=
  ∀ bytes, t.file? file = some bytes → ∃ text, readText bytes = .ok text

/-- What a settings file counts as: the table that its text stands for, and an empty one where there
is no such file, no such text or no such table. -/
def contents (file : Names) : Table :=
  match t.file? file with
  | none => []
  | some bytes =>
    match readText bytes with
    | .ok text => (parse text).getD []
    | .error _ => []

theorem readLayerBy_eq_ok_iff (file : Names) (layer : Table) :
    readLayerBy parse t file = .ok layer ↔ layer = contents parse t file ∧ Decodes t file := by
  unfold readLayerBy readTableBy contents Decodes
  cases t.file? file with
  | none => simp [eq_comm]
  | some bytes =>
      cases decoded : readText bytes with
      | ok text => simp [decoded, Except.map, eq_comm]
      | error fault => simp [decoded, Except.map]

/-- The layers that are laid over each other, the user's first. -/
def layersOf (userFile : Names) (project : Option Names) : List Table :=
  (files userFile project).map (contents parse t)

theorem loadBy_of_layers {userFile : Names} {project : Option Names} {layers : List Table}
    (h : (files userFile project).mapM (readLayerBy parse t) = .ok layers) :
    loadBy parse t userFile project = (ofLayers layers).mapError fun _ => .tooLarge := by
  unfold loadBy
  rw [h]
  dsimp only [bind, Except.bind]
  cases ofLayers layers <;> rfl

theorem loadBy_eq_ok_iff_ofLayers (userFile : Names) (project : Option Names)
    (settings : Settings) :
    loadBy parse t userFile project = .ok settings ↔
      ∃ layers, (files userFile project).mapM (readLayerBy parse t) = .ok layers ∧
        ofLayers layers = .ok settings := by
  cases read : (files userFile project).mapM (readLayerBy parse t) with
  | error e =>
      have fails : loadBy parse t userFile project = .error e := by
        unfold loadBy
        rw [read]
        rfl
      simp [fails]
  | ok layers =>
      rw [loadBy_of_layers parse t read]
      cases merged : ofLayers layers <;> simp [merged, Except.mapError]

/-- Loading gives settings exactly when every settings file that is there decodes and none holds a
number that is too large, and then they are what the files decide. -/
theorem loadBy_eq_ok_iff (userFile : Names) (project : Option Names) (settings : Settings) :
    loadBy parse t userFile project = .ok settings ↔
      settings = decided (layersOf parse t userFile project) ∧
        (∀ file ∈ files userFile project, Decodes t file) ∧
        ∀ layer ∈ layersOf parse t userFile project, Fits layer := by
  rw [loadBy_eq_ok_iff_ofLayers]
  simp only [mapM_eq_ok_iff (readLayerBy_eq_ok_iff parse t), ofLayers_eq_ok_iff]
  constructor
  · rintro ⟨_, ⟨rfl, decode⟩, same, fits⟩
    exact ⟨same, decode, fits⟩
  · rintro ⟨same, decode, fits⟩
    exact ⟨_, ⟨rfl, decode⟩, same, fits⟩

/-- Where the settings files that are there decode and hold no number that is too large, loading
gives what they decide, and it fails everywhere else. What files decide is allowed for every
setting, whatever they hold. -/
theorem loadBy_decides (userFile : Names) (project : Option Names) :
    let layers := layersOf parse t userFile project
    let sound := (∀ file ∈ files userFile project, Decodes t file) ∧ ∀ layer ∈ layers, Fits layer
    ((∃ settings, loadBy parse t userFile project = .ok settings) ↔ sound) ∧
      (∀ settings, loadBy parse t userFile project = .ok settings ↔
        settings = decided layers ∧ sound) ∧
      ∀ s : Setting, s.Allowed (decided layers s) := by
  intro layers sound
  refine ⟨?_, loadBy_eq_ok_iff parse t userFile project, allowed_decided layers⟩
  simp only [loadBy_eq_ok_iff, exists_eq_left]
  exact Iff.rfl

/-- A byte that starts no character, in the settings file of a project, stops loading. -/
theorem load_fails_undecodable :
    let t : Tree := ⟨[(["proj", projectFile], .file [0xFF])]⟩
    ¬ ∃ settings, load t ["home", "config.toml"] (some ["proj"]) = .ok settings := by
  rintro t ⟨settings, loaded⟩
  obtain ⟨_, decode, _⟩ := (loadBy_eq_ok_iff Toml.read? t _ _ settings).mp loaded
  have there : t.file? ["proj", projectFile] = some [0xFF] := by decide
  have broken : readText [0xFF] = .error ⟨0xFF, 0, 1, .start⟩ := by
    simp [readText, decodeUtf8, decodeFrom, lead?, Except.map]
  obtain ⟨text, decodes⟩ := decode ["proj", projectFile] (by decide) _ there
  cases broken.symm.trans decodes

end Files

end ComponentAtlas.Settings
