/-!
How a diagram is drawn. A configuration holds allowed values only, so drawing cannot fail.
-/

namespace ComponentAtlas.Diagram

inductive Direction where
  | topDown
  | leftRight
  | bottomUp
  | rightLeft
deriving DecidableEq

namespace Direction

def all : List Direction := [topDown, leftRight, bottomUp, rightLeft]

def name : Direction → String
  | topDown => "TB"
  | leftRight => "LR"
  | bottomUp => "BT"
  | rightLeft => "RL"

def named? (word : String) : Option Direction := all.find? (·.name == word)

end Direction

inductive Theme where
  | plain
  | dark
  | forest
  | neutral
deriving DecidableEq

namespace Theme

def all : List Theme := [plain, dark, forest, neutral]

def name : Theme → String
  | plain => "default"
  | dark => "dark"
  | forest => "forest"
  | neutral => "neutral"

def named? (word : String) : Option Theme := all.find? (·.name == word)

end Theme

/-- At least one node is always drawn. -/
structure Config where
  direction : Direction
  theme : Theme
  showLabels : Bool
  maxNodes : Nat
  one_le_maxNodes : 1 ≤ maxNodes

def Config.default : Config := ⟨.topDown, .plain, true, 50, by decide⟩

/-- Why values make no configuration. -/
inductive ConfigError where
  | direction (given : String)
  | theme (given : String)
  | maxNodes
deriving DecidableEq

def ConfigError.message : ConfigError → String
  | .direction given => "Unsupported diagram direction: " ++ given
  | .theme given => "Unsupported diagram theme: " ++ given
  | .maxNodes => "max_nodes must be at least 1"

/-- The configuration with the given values, the first one that is not allowed being named. -/
def Config.make (direction theme : String) (showLabels : Bool) (maxNodes : Int) :
    Except ConfigError Config :=
  match Direction.named? direction, Theme.named? theme with
  | none, _ => .error (.direction direction)
  | _, none => .error (.theme theme)
  | some d, some t =>
    if h : 1 ≤ maxNodes.toNat then .ok ⟨d, t, showLabels, maxNodes.toNat, h⟩
    else .error .maxNodes

end ComponentAtlas.Diagram
