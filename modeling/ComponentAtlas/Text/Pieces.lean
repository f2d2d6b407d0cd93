import ComponentAtlas.Text.Letters

/-!
Cutting texts: at a character, at a word, at blanks, and at the ends. Every function works on the
characters in order and keeps those that it does not drop unchanged.
-/

namespace ComponentAtlas.Text

def trimLeft (s : List Char) : List Char := s.dropWhile isBlank

def trimRightOf (p : Char → Bool) (s : List Char) : List Char := (s.reverse.dropWhile p).reverse

def trimChars (s : List Char) : List Char := trimRightOf isBlank (trimLeft s)

def trim (s : String) : String := String.ofList (trimChars s.toList)

/-- The pieces between the separators; one more piece than there are separators. -/
def splitAt (isSep : Char → Bool) : List Char → List (List Char)
  | [] => [[]]
  | c :: rest =>
    match splitAt isSep rest with
    | [] => [[c]]
    | piece :: pieces => if isSep c then [] :: piece :: pieces else (c :: piece) :: pieces

def splitOn (sep : Char) (s : List Char) : List (List Char) := splitAt (· == sep) s

def splitText (sep : Char) (s : String) : List String := (splitOn sep s.toList).map String.ofList

/-- The maximal blank-free pieces. -/
def words (s : List Char) : List (List Char) := (splitAt isBlank s).filter (!·.isEmpty)

def joinChars (sep : List Char) (pieces : List (List Char)) : List Char :=
  (pieces.intersperse sep).flatten

def join (sep : String) (pieces : List String) : String :=
  String.ofList (joinChars sep.toList (pieces.map String.toList))

/-- What follows `needle` where `s` starts with it. -/
def afterStart? : List Char → List Char → Option (List Char)
  | [], s => some s
  | _ :: _, [] => none
  | n :: needle, c :: s => if n == c then afterStart? needle s else none

def startsWith (needle : List Char) (s : List Char) : Bool := (afterStart? needle s).isSome

/-- The text before and after the first occurrence of `needle`. -/
def cutAt? (needle : List Char) : List Char → Option (List Char × List Char)
  | [] => (afterStart? needle []).map fun rest => ([], rest)
  | c :: s =>
    match afterStart? needle (c :: s) with
    | some rest => some ([], rest)
    | none => (cutAt? needle s).map fun (before, after) => (c :: before, after)

/-- How many characters stand before the first occurrence of `needle`. -/
def find? (needle : List Char) (s : List Char) : Option Nat :=
  (cutAt? needle s).map (·.1.length)

def occursIn (needle : List Char) : List Char → Bool
  | [] => startsWith needle []
  | c :: s => startsWith needle (c :: s) || occursIn needle s

def contains (s needle : String) : Bool := occursIn needle.toList s.toList

def endsWith (needle s : List Char) : Bool := startsWith needle.reverse s.reverse

/-- The part after the last separator, or all of the text. -/
def lastPiece (sep : Char) (s : List Char) : List Char :=
  (s.reverse.takeWhile (· != sep)).reverse

def firstPiece (sep : Char) (s : List Char) : List Char := s.takeWhile (· != sep)

def replaceChar (old new : Char) (s : List Char) : List Char :=
  s.map fun c => if c == old then new else c

end ComponentAtlas.Text
