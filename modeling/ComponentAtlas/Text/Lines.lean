/-!
Places in a text as line and column. Lines end at a line feed; the line feed belongs to the line
that it ends, and lines are counted from one, columns from zero.
-/

namespace ComponentAtlas.Text

/-- The line of the character at `offset`, an offset beyond the end counting as the end. -/
def lineNumber (s : List Char) (offset : Nat) : Nat := (s.take offset).count '\n' + 1

/-- How many characters follow the last line feed of `s`. -/
def lastLineLength (s : List Char) : Nat := (s.reverse.takeWhile (· != '\n')).length

/-- How far `offset` lies from the start of its line. Beyond the end the distance still grows. -/
def columnNumber (s : List Char) (offset : Nat) : Nat :=
  lastLineLength (s.take offset) + (offset - s.length)

end ComponentAtlas.Text
