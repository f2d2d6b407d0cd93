import ComponentAtlas.Text.Pieces

/-!
Arguments of a command line: options, which start with a dash, and words. An option has a long name
and may have a letter; one that takes a value has it in the same argument or in the next one.
-/

namespace ComponentAtlas.Command

open Text

structure OptionForm where
  name : String
  letter : Option Char
  takesValue : Bool

/-- The arguments do not fit the command. -/
inductive UsageError where
  | mk
deriving DecidableEq

/-- What was given: options by name in order, and words. -/
structure Arguments where
  options : List (String × String)
  words : List String

namespace Arguments

/-- The values of an option, in order. -/
def values (a : Arguments) (name : String) : List String :=
  a.options.filterMap fun (n, v) => if n == name then some v else none

/-- Of an option that is given several times the last value counts. -/
def value? (a : Arguments) (name : String) : Option String := (a.values name).getLast?

def has (a : Arguments) (name : String) : Bool := a.options.any (·.1 == name)

end Arguments

/-- What one argument is: a word, the end of all options, or options of which the last one may wait
for its value. -/
inductive Piece where
  | word
  | endOfOptions
  | options (given : List (String × String)) (waiting : Option String)

/-- An option by its long name, with a value after an equals sign or without. -/
def longOption (forms : List OptionForm) (body : List Char) : Except UsageError Piece :=
  let (name, value) :=
    match cutAt? ['='] body with
    | some (name, value) => (name, some (String.ofList value))
    | none => (body, none)
  match forms.find? (·.name == String.ofList name), value with
  | none, _ => .error .mk
  | some form, none =>
    .ok (if form.takesValue then .options [] (some form.name) else .options [(form.name, "")] none)
  | some form, some value =>
    if form.takesValue then .ok (.options [(form.name, value)] none) else .error .mk

/-- Options by their letters; what follows the letter of one with a value is that value. -/
def letterOptions (forms : List OptionForm) (given : List (String × String)) :
    List Char → Except UsageError Piece
  | [] => .ok (.options given none)
  | c :: rest =>
    match forms.find? (·.letter == some c) with
    | none => .error .mk
    | some form =>
      if !form.takesValue then letterOptions forms (given ++ [(form.name, "")]) rest
      else if rest.isEmpty then .ok (.options given (some form.name))
      else .ok (.options (given ++ [(form.name, String.ofList rest)]) none)

def piece (forms : List OptionForm) (arg : String) : Except UsageError Piece :=
  match arg.toList with
  | ['-', '-'] => .ok .endOfOptions
  | '-' :: '-' :: body => longOption forms body
  | '-' :: c :: rest => letterOptions forms [] (c :: rest)
  | _ => .ok .word

/-- Reads the arguments after those in `done`. If options come first only, everything from the first
word on is words. -/
def readFrom (forms : List OptionForm) (optionsFirst : Bool) (done : Arguments) :
    List String → Except UsageError Arguments
  | [] => .ok done
  | arg :: rest => do
    match ← piece forms arg with
    | .endOfOptions => .ok { done with words := done.words ++ rest }
    | .word =>
      if optionsFirst then .ok { done with words := done.words ++ arg :: rest }
      else readFrom forms optionsFirst { done with words := done.words ++ [arg] } rest
    | .options given none =>
      readFrom forms optionsFirst { done with options := done.options ++ given } rest
    | .options given (some name) =>
      match rest with
      | [] => .error .mk
      | value :: rest =>
        let options := done.options ++ given ++ [(name, value)]
        readFrom forms optionsFirst { done with options } rest

def readArguments (forms : List OptionForm) (optionsFirst : Bool) (args : List String) :
    Except UsageError Arguments :=
  readFrom forms optionsFirst ⟨[], []⟩ args

end ComponentAtlas.Command
