import ComponentAtlas.Settings.Setting

/-!
Settings from layers of tables. A later layer is laid over the earlier ones; a value that it has but
that does not count puts the setting back to its standard value.
-/

namespace ComponentAtlas

open Toml

/-- A value for every setting. -/
abbrev Settings := (s : Setting) → s.Carrier

/-- A whole number is too large for the floating-point number that it should be. -/
inductive TooLarge where
  | mk
deriving DecidableEq

namespace Settings

def standard : Settings := Setting.standard

/-- What a layer says of a setting, where it has the setting's group as a table. -/
def given? (layer : Table) (s : Setting) : Option Value :=
  match layer.get? s.group with
  | some (.table entries) => Table.get? entries s.key
  | _ => none

def holdsTooLarge (layer : Table) : Bool :=
  Setting.all.any fun s => (given? layer s).any s.isTooLarge

/-- A layer laid over settings. -/
def lay (settings : Settings) (layer : Table) : Settings := fun s =>
  match given? layer s with
  | none => settings s
  | some v => (s.accept? v).getD s.standard

def layChecked (settings : Settings) (layer : Table) : Except TooLarge Settings :=
  if holdsTooLarge layer then .error .mk else .ok (settings.lay layer)

/-- The standard settings under all layers, the last one on top. -/
def ofLayers (layers : List Table) : Except TooLarge Settings := layers.foldlM layChecked standard

def diagram (settings : Settings) : Diagram.Config where
  direction := settings .direction
  theme := settings .theme
  showLabels := settings .showLabels
  maxNodes := (settings .maxNodes).val
  one_le_maxNodes := (settings .maxNodes).property

def groupTable (settings : Settings) (group : String) : Table :=
  (Setting.all.filter (·.group == group)).map fun s => (s.key, s.toValue (settings s))

/-- All settings as a settings file holds them. -/
def toTable (settings : Settings) : Table :=
  Setting.groups.map fun group => (group, .table (settings.groupTable group))

/-- The settings with more patterns of files to leave out. -/
def excluding (settings : Settings) (patterns : List String) : Settings
  | .excludePatterns => settings .excludePatterns ++ patterns
  | s => settings s

end Settings

end ComponentAtlas
