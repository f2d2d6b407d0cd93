import ComponentAtlas.Decimal.Reading
import ComponentAtlas.Diagram.Config
import ComponentAtlas.Text.Case
import ComponentAtlas.Toml.Value

/-!
The settings: their names, their values, and the ways to get a value, from a settings file or as a
person types it. What is typed is refused with a reason; what a file holds counts or does not.
-/

namespace ComponentAtlas

open Text Toml

inductive Setting where
  | excludePatterns
  | maxDepth
  | fallbackResolution
  | direction
  | theme
  | showLabels
  | maxNodes
  | debounce
  | autoRefresh
deriving DecidableEq

namespace Setting

def all : List Setting :=
  [excludePatterns, maxDepth, fallbackResolution, direction, theme, showLabels, maxNodes, debounce,
    autoRefresh]

/-- The table of a settings file that holds the setting. -/
def group : Setting → String
  | excludePatterns | maxDepth | fallbackResolution => "scan"
  | direction | theme | showLabels | maxNodes => "diagram"
  | debounce | autoRefresh => "watch"

def groups : List String := ["scan", "diagram", "watch"]

def key : Setting → String
  | excludePatterns => "exclude_patterns"
  | maxDepth => "max_depth"
  | fallbackResolution => "fallback_resolution"
  | direction => "direction"
  | theme => "theme"
  | showLabels => "show_labels"
  | maxNodes => "max_nodes"
  | debounce => "debounce_seconds"
  | autoRefresh => "auto_refresh"

def name (s : Setting) : String := s!"{s.group}.{s.key}"

/-- What the values of a setting are. -/
abbrev Carrier : Setting → Type
  | excludePatterns => List String
  | maxDepth => Int
  | fallbackResolution | showLabels | autoRefresh => Bool
  | direction => Diagram.Direction
  | theme => Diagram.Theme
  | maxNodes => { n : Nat // 1 ≤ n }
  | debounce => Float

/-- The value of a setting that nothing is said about. -/
def standard : (s : Setting) → s.Carrier
  | excludePatterns => []
  | maxDepth => (5 : Int)
  | fallbackResolution | autoRefresh => true
  | direction => Diagram.Config.default.direction
  | theme => Diagram.Config.default.theme
  | showLabels => Diagram.Config.default.showLabels
  | maxNodes => ⟨Diagram.Config.default.maxNodes, Diagram.Config.default.one_le_maxNodes⟩
  | debounce => (2.0 : Float)

/-- The value as a settings file holds it. -/
def toValue : (s : Setting) → s.Carrier → Value
  | excludePatterns, patterns => .list (patterns.map .text)
  | maxDepth, n => .whole n
  | fallbackResolution, b | showLabels, b | autoRefresh, b => .truth b
  | direction, d => .text d.name
  | theme, t => .text t.name
  | maxNodes, n => .whole n.val
  | debounce, x => .number x

def nodeLimit? (n : Int) : Option { n : Nat // 1 ≤ n } :=
  if h : 1 ≤ n.toNat then some ⟨n.toNat, h⟩ else none

/-- Seconds that are not negative; an undefined number is none. -/
def seconds? (x : Float) : Option Float := if x ≥ 0.0 then some x else none

/-- What a value of a settings file makes of the setting, where it is of the right kind and allowed.
A whole number serves as a number; a truth value never does. -/
def accept? : (s : Setting) → Value → Option s.Carrier
  | excludePatterns, .list items => items.mapM Value.text?
  | maxDepth, .whole n => if 0 ≤ n then some n else none
  | fallbackResolution, .truth b | showLabels, .truth b | autoRefresh, .truth b => some b
  | direction, .text word => Diagram.Direction.named? word
  | theme, .text word => Diagram.Theme.named? word
  | maxNodes, .whole n => nodeLimit? n
  | debounce, .whole n => seconds? (Decimal.ofWhole n)
  | debounce, .number x => seconds? x
  | _, _ => none

/-- Whether a value would serve as a number but for its size. -/
def isTooLarge : Setting → Value → Bool
  | debounce, .whole n => (Decimal.ofWhole n).isInf
  | _, _ => false

/-! Names as a person types them. -/

/-- No setting has this name. -/
structure Unknown where
  name : String
deriving DecidableEq

def Unknown.message (e : Unknown) : String := quoted e.name

def ofNames? (group key : String) : Option Setting :=
  all.find? fun s => s.group == group && s.key == key

/-- The setting of a group and a key; an unknown group is named first. -/
def ofNames (group key : String) : Except Unknown Setting :=
  match ofNames? group key with
  | some s => .ok s
  | none => .error ⟨if groups.contains group then key else group⟩

/-- The setting with the dotted name. -/
def ofName (dotted : String) : Except Unknown Setting :=
  match cutAt? ['.'] dotted.toList with
  | none => .error ⟨dotted⟩
  | some (group, key) =>
    match ofNames? (String.ofList group) (String.ofList key) with
    | some s => .ok s
    | none => .error ⟨dotted⟩

/-! Values as a person types them. -/

/-- Why what was typed is no value of the setting. -/
inductive Refusal where
  | notTruth (setting : Setting) (given : String)
  | notWhole (reason : Decimal.WholeError)
  | notNumber (given : String)
  | notAmong (setting : Setting) (options : List String)
  | below (setting : Setting) (least : String)

def Refusal.message : Refusal → String
  | .notTruth setting given => s!"Expected true/false for {setting.name}, got {quoted given}"
  | .notWhole reason => reason.message
  | .notNumber given => s!"could not convert string to float: {quoted given}"
  | .notAmong setting options =>
    let listed := join ", " options
    s!"{setting.name} must be one of: {listed}"
  | .below setting least => s!"{setting.name} must be at least {least}"

def trueWords : List String := ["true", "yes", "on", "1"]

def falseWords : List String := ["false", "no", "off", "0"]

def readTruth (s : Setting) (given : String) : Except Refusal Bool :=
  let word := lower (trim given)
  if trueWords.contains word then .ok true
  else if falseWords.contains word then .ok false
  else .error (.notTruth s given)

def readWhole (given : String) : Except Refusal Int :=
  match Decimal.whole? given with
  | .ok n => .ok n
  | .error reason => .error (.notWhole reason)

def readDepth (given : String) : Except Refusal Int := do
  let n ← readWhole given
  if n < 0 then .error (.below maxDepth "0") else .ok n

def readNodeLimit (given : String) : Except Refusal { n : Nat // 1 ≤ n } := do
  match nodeLimit? (← readWhole given) with
  | some n => .ok n
  | none => .error (.below maxNodes "1")

def readSeconds (given : String) : Except Refusal Float :=
  match Decimal.float? given with
  | none => .error (.notNumber given)
  | some x => if x < 0.0 then .error (.below debounce "0.0") else .ok x

def readDirection (given : String) : Except Refusal Diagram.Direction :=
  match Diagram.Direction.named? given with
  | some d => .ok d
  | none => .error (.notAmong direction (Diagram.Direction.all.map (·.name)))

def readTheme (given : String) : Except Refusal Diagram.Theme :=
  match Diagram.Theme.named? given with
  | some t => .ok t
  | none => .error (.notAmong theme (Diagram.Theme.all.map (·.name)))

/-- Texts between commas, without the blanks around them; an empty one does not count. -/
def readPatterns (given : String) : List String :=
  ((splitText ',' given).map trim).filter (· != "")

/-- The value of a setting that a person typed. -/
def read : (s : Setting) → String → Except Refusal s.Carrier
  | excludePatterns, given => .ok (readPatterns given)
  | maxDepth, given => readDepth given
  | fallbackResolution, given => readTruth fallbackResolution given
  | showLabels, given => readTruth showLabels given
  | autoRefresh, given => readTruth autoRefresh given
  | direction, given => readDirection given
  | theme, given => readTheme given
  | maxNodes, given => readNodeLimit given
  | debounce, given => readSeconds given

end Setting

end ComponentAtlas
