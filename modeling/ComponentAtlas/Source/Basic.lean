import ComponentAtlas.Text.Quoted

/-!
What is known of a source file: its declarations, its imports, and what went wrong. Languages and
categories are closed vocabularies, each with the word by which it is written.
-/

namespace ComponentAtlas

open Text

/-- A word that belongs to no member of a vocabulary. -/
structure UnknownWord where
  word : String
  vocabulary : String
deriving DecidableEq

def UnknownWord.message (e : UnknownWord) : String :=
  s!"{quoted e.word} is not a valid {e.vocabulary}"

/-- The member of `all` that `name` writes as `word`. -/
def memberNamed {α : Type} (vocabulary : String) (name : α → String) (all : List α)
    (word : String) : Except UnknownWord α :=
  match all.find? (name · == word) with
  | some a => .ok a
  | none => .error ⟨word, vocabulary⟩

inductive Language where
  | typescript
  | javascript
  | react
  | python
  | csharp
deriving DecidableEq

namespace Language

def all : List Language := [typescript, javascript, react, python, csharp]

def name : Language → String
  | typescript => "typescript"
  | javascript => "javascript"
  | react => "react"
  | python => "python"
  | csharp => "csharp"

def named (word : String) : Except UnknownWord Language := memberNamed "Language" name all word

end Language

/-- The part that a declaration plays, as its name, its place and its text suggest. -/
inductive Kind where
  | component
  | cls
  | function
  | module
  | service
  | hook
  | context
  | store
  | api
  | util
  | type
  | config
  | unknown
deriving DecidableEq

namespace Kind

def all : List Kind :=
  [component, cls, function, module, service, hook, context, store, api, util, type, config,
    unknown]

def name : Kind → String
  | component => "component"
  | cls => "class"
  | function => "function"
  | module => "module"
  | service => "service"
  | hook => "hook"
  | context => "context"
  | store => "store"
  | api => "api"
  | util => "util"
  | type => "type"
  | config => "config"
  | unknown => "unknown"

def named (word : String) : Except UnknownWord Kind := memberNamed "ComponentType" name all word

end Kind

/-- The number of values of a word of thirty-two bits. -/
def wordSize : Nat := 0x100000000

/-- The sum of the code points, each step multiplying by thirty-one, in thirty-two bits. -/
def rollingHash (s : List Char) : Nat := s.foldl (fun h c => (31 * h + c.toNat) % wordSize) 0

/-- The distance from zero of a thirty-two bit word read as a signed number. -/
def signedMagnitude (h : Nat) : Nat := if h < wordSize / 2 then h else wordSize - h

def base36Digit (n : Nat) : Char := if n < 10 then Char.ofNat (48 + n) else Char.ofNat (87 + n)

def base36Onto (n : Nat) (digits : List Char) : List Char :=
  if n < 36 then base36Digit n :: digits
  else base36Onto (n / 36) (base36Digit (n % 36) :: digits)

def base36 (n : Nat) : String := String.ofList (base36Onto n [])

def pathHash (path : String) : String := base36 (signedMagnitude (rollingHash path.toList))

/-- The id of the declaration of `name` in the file at `path`. -/
def nodeId (path name : String) : String := s!"{name}_{pathHash path}"

/-- Lines count from one and columns from zero. -/
structure Declaration where
  name : String
  kind : Kind
  path : String
  line : Int
  column : Int
  language : Language
  description : Option String
  exportedNames : List String
deriving DecidableEq

def Declaration.id (d : Declaration) : String := nodeId d.path d.name

structure ImportStatement where
  source : String
  names : List String
  isDefault : Bool
  isNamespace : Bool
  isReexport : Bool
deriving DecidableEq

/-- Sources that start with a dot are places seen from the importing file. -/
def ImportStatement.isRelative (i : ImportStatement) : Bool := i.source.toList.head? == some '.'

/-- What was found in one file. -/
structure Extraction where
  path : String
  declarations : List Declaration
  imports : List ImportStatement
  errors : List String
deriving DecidableEq

def Extraction.isEmpty (e : Extraction) : Bool := e.declarations.isEmpty && e.imports.isEmpty

/-- The name that stands for everything that a file exports. -/
def everything : String := "*"

/-- The name under which a file exports its main declaration. -/
def defaultExport : String := "default"

end ComponentAtlas
