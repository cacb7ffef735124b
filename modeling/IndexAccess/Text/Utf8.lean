import IndexAccess.Failure
import IndexAccess.Number.Power

/-!
# Decoding UTF-8

Bytes are decoded strictly: overlong forms, surrogates and code points beyond
the last plane are faults.  A fault covers the bytes that begin a sequence
correctly, up to the byte that cannot continue it.
-/

namespace IndexAccess
namespace Text

attribute [local instance] corePower

/-- Whether a byte continues a sequence. -/
def isContinuation (byte : UInt8) : Bool :=
  0x80 ≤ byte && byte < 0xc0

/-- The number of bytes of the sequence that a byte starts, if it starts
one. -/
def sequenceLength? (first : UInt8) : Option Nat :=
  if first < 0x80 then some 1
  else if first < 0xc2 then none
  else if first < 0xe0 then some 2
  else if first < 0xf0 then some 3
  else if first < 0xf5 then some 4
  else none

/-- Whether a byte can stand second: the first bytes of the longer sequences
rule out overlong forms, surrogates and code points that are too large. -/
def isSecond (first second : UInt8) : Bool :=
  isContinuation second &&
    (first != 0xe0 || 0xa0 ≤ second) && (first != 0xed || second < 0xa0) &&
    (first != 0xf0 || 0x90 ≤ second) && (first != 0xf4 || second < 0x90)

/-- The number of bytes after the first one that continue a sequence of the
given length correctly. -/
def continuationCount (first : UInt8) (length : Nat) : List UInt8 → Nat
  | [] => 0
  | second :: rest =>
    if 2 ≤ length && isSecond first second then
      1 + ((rest.take (length - 2)).takeWhile isContinuation).length
    else 0

def leadingBits (first : UInt8) (length : Nat) : Nat :=
  if length = 1 then first.toNat else first.toNat % 2 ^ (7 - length)

def codePoint (first : UInt8) (others : List UInt8) : Nat :=
  others.foldl (fun code byte => code * 64 + byte.toNat % 64)
    (leadingBits first (others.length + 1))

/-- Decodes the bytes at `position` and after.  Every character takes one unit
of `fuel`. -/
def decodeFrom (position : Nat) :
    (fuel : Nat) → List UInt8 → Except Utf8Fault (List Char)
  | 0, _ => .ok []
  | _ + 1, [] => .ok []
  | fuel + 1, first :: rest =>
    match sequenceLength? first with
    | none => .error (.invalidStart first position)
    | some length =>
      let count := continuationCount first length rest
      if count + 1 = length then do
        let chars ← decodeFrom (position + length) fuel (rest.drop count)
        return Char.ofNat (codePoint first (rest.take count)) :: chars
      else if count = rest.length then
        .error (.unexpectedEnd first position (count + 1))
      else .error (.invalidContinuation first position (count + 1))

def decodeUtf8 (bytes : List UInt8) : Except Utf8Fault (List Char) :=
  decodeFrom 0 bytes.length bytes

/-- A text with every line end, of one or two characters, as one line feed. -/
def unifyLineEnds : List Char → List Char
  | '\r' :: '\n' :: rest => '\n' :: unifyLineEnds rest
  | '\r' :: rest => '\n' :: unifyLineEnds rest
  | c :: rest => c :: unifyLineEnds rest
  | [] => []

def ofBytes (bytes : List UInt8) : Except Utf8Fault String := do
  let chars ← decodeUtf8 bytes
  return String.ofList (unifyLineEnds chars)

end Text
end IndexAccess
