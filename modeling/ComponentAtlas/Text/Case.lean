import ComponentAtlas.Text.Letters

/-!
Lower and upper case of whole texts. Two maps depend on more than one character: a capital sigma
at the end of a word becomes the final sigma, and a dotted capital I becomes two characters.
-/

namespace ComponentAtlas.Text

def isCased (c : Char) : Bool :=
  if c.toNat < 128 then c.isAlpha else CodeRun.anyContains casedRuns c.toNat

def isCaseIgnorable (c : Char) : Bool := CodeRun.anyContains caseIgnorableRuns c.toNat

/-- `c` moved by the shift of the run that contains it. -/
def shiftCase (table : Array CaseRun) (c : Char) : Char :=
  match CodeRun.bisect CaseRun.run table c.toNat 0 table.size with
  | some r => if r.run.contains c.toNat then Char.ofNat (c.toNat + r.shift).toNat else c
  | none => c

def dottedCapitalI : Char := 'İ'

def lowerChar (c : Char) : List Char :=
  if c.toNat < 128 then [c.toLower]
  else if c = dottedCapitalI then ['i', '\u0307']
  else [shiftCase lowercaseShifts c]

/-- Whether no cased character follows in the same word. -/
def endsWord (rest : List Char) : Bool :=
  match rest.dropWhile isCaseIgnorable with
  | [] => true
  | c :: _ => !isCased c

/-- `inWord` says that the nearest character before, ignorable ones apart, is cased. -/
def lowerFrom (inWord : Bool) : List Char → List Char
  | [] => []
  | c :: rest =>
    let next := if isCaseIgnorable c then inWord else isCased c
    let mapped := if c = 'Σ' then [if inWord && endsWord rest then 'ς' else 'σ'] else lowerChar c
    mapped ++ lowerFrom next rest

def lowerChars (s : List Char) : List Char := lowerFrom false s

def lower (s : String) : String := String.ofList (lowerChars s.toList)

def upperChar (c : Char) : List Char :=
  if c.toNat < 128 then [c.toUpper]
  else match uppercaseExpansions.lookup c.toNat with
    | some codes => codes.map Char.ofNat
    | none => [shiftCase uppercaseShifts c]

def upper (s : String) : String := String.ofList (s.toList.flatMap upperChar)

end ComponentAtlas.Text
