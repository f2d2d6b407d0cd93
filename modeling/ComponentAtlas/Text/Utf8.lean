import ComponentAtlas.Text.Hex

/-!
Text from bytes in UTF-8. A fault names the bytes that cannot be read: as many of a sequence as
could begin a character, or the one byte that begins none.
-/

namespace ComponentAtlas.Text

inductive FaultReason where
  | start
  | continuation
  | ended
deriving DecidableEq

def FaultReason.text : FaultReason → String
  | start => "invalid start byte"
  | continuation => "invalid continuation byte"
  | ended => "unexpected end of data"

/-- The faulty bytes are those at `position` and after it, `length` in all. -/
structure Utf8Fault where
  byte : UInt8
  position : Nat
  length : Nat
  reason : FaultReason
deriving DecidableEq

def Utf8Fault.message (f : Utf8Fault) : String :=
  if f.length == 1 then
    let byte := String.ofList (hexDigits 2 f.byte.toNat)
    s!"'utf-8' codec can't decode byte 0x{byte} in position {f.position}: {f.reason.text}"
  else
    s!"'utf-8' codec can't decode bytes in position {f.position}-{f.position + f.length - 1}: " ++
      f.reason.text

/-- What a first byte asks for: how many more bytes, the bounds of the first of them, and the bits
that it contributes itself. -/
structure Lead where
  more : Nat
  low : Nat
  high : Nat
  bits : Nat

/-- Overlong forms, surrogates and what lies beyond Unicode are ruled out by the second byte. -/
def lead? (b : Nat) : Option Lead :=
  if b < 0xC2 then none
  else if b < 0xE0 then some ⟨1, 0x80, 0xBF, b % 0x20⟩
  else if b < 0xF0 then
    some ⟨2, if b == 0xE0 then 0xA0 else 0x80, if b == 0xED then 0x9F else 0xBF, b % 0x10⟩
  else if b < 0xF5 then
    some ⟨3, if b == 0xF0 then 0x90 else 0x80, if b == 0xF4 then 0x8F else 0xBF, b % 0x08⟩
  else none

/-- The code point that `more` continuation bytes complete, or how many of them fit and why the
next one does not. -/
def complete (seen value low high : Nat) : Nat → List UInt8 → Except (Nat × FaultReason) Nat
  | 0, _ => .ok value
  | _ + 1, [] => .error (seen, .ended)
  | more + 1, b :: rest =>
    let n := b.toNat
    if low ≤ n && n ≤ high then complete (seen + 1) (value * 64 + n % 64) 0x80 0xBF more rest
    else .error (seen, .continuation)

/-- Reads on at `position`, the text so far being `done` from its end. -/
def decodeFrom (position : Nat) (done : List Char) (bytes : List UInt8) :
    Except Utf8Fault (List Char) :=
  match bytes with
  | [] => .ok done.reverse
  | b :: rest =>
    if b.toNat < 0x80 then decodeFrom (position + 1) (Char.ofNat b.toNat :: done) rest
    else match lead? b.toNat with
      | none => .error ⟨b, position, 1, .start⟩
      | some l =>
        match complete 1 l.bits l.low l.high l.more rest with
        | .ok code =>
          decodeFrom (position + 1 + l.more) (Char.ofNat code :: done) (rest.drop l.more)
        | .error (seen, reason) => .error ⟨b, position, seen, reason⟩
termination_by bytes.length
decreasing_by
  · simp
  · simp only [List.length_drop, List.length_cons]
    omega

def decodeUtf8 (bytes : List UInt8) : Except Utf8Fault (List Char) := decodeFrom 0 [] bytes

def encodeUtf8 (s : String) : List UInt8 := s.toUTF8.toList

/-- The text with every line end as a single line feed; `afterReturn` says that a carriage return
has just been replaced. -/
def unifyLineEnds (afterReturn : Bool) : List Char → List Char
  | [] => []
  | c :: rest =>
    if c == '\r' then '\n' :: unifyLineEnds true rest
    else if c == '\n' && afterReturn then unifyLineEnds false rest
    else c :: unifyLineEnds false rest

/-- The text of a file. -/
def readText (bytes : List UInt8) : Except Utf8Fault (List Char) :=
  (decodeUtf8 bytes).map (unifyLineEnds false)

end ComponentAtlas.Text
