/-!
# Texts

A text is a sequence of code points.  A code point is a character or, in a text
that names its characters by numbers, a surrogate that stands alone.  A string
is a text without surrogates.

A high surrogate directly before a low one stands for one character beyond the
basic plane.
-/

namespace IndexAccess

/-- A surrogate that stands for no character. -/
structure Surrogate where
  code : Nat
  inRange : 0xd800 ≤ code ∧ code < 0xe000
deriving DecidableEq

inductive CodePoint where
  | char (c : Char)
  | surrogate (s : Surrogate)
deriving DecidableEq

instance : Coe Char CodePoint := ⟨.char⟩

namespace CodePoint

def ofChars (cs : List Char) : List CodePoint :=
  cs.map .char

def char? : CodePoint → Option Char
  | char c => some c
  | surrogate _ => none

def code : CodePoint → Nat
  | char c => c.toNat
  | surrogate s => s.code

def ofCode (code : Nat) : CodePoint :=
  if inRange : 0xd800 ≤ code ∧ code < 0xe000 then surrogate ⟨code, inRange⟩
  else char (Char.ofNat code)

/-- The character of a code point; a surrogate shows as the replacement
character. -/
def toChar : CodePoint → Char
  | char c => c
  | surrogate _ => '\ufffd'

@[simp] theorem ofChars_nil : ofChars [] = [] := rfl

@[simp] theorem ofChars_cons (c : Char) (cs : List Char) :
    ofChars (c :: cs) = .char c :: ofChars cs := rfl

@[simp] theorem ofChars_append (cs ds : List Char) :
    ofChars (cs ++ ds) = ofChars cs ++ ofChars ds :=
  List.map_append

@[simp] theorem length_ofChars (cs : List Char) :
    (ofChars cs).length = cs.length :=
  List.length_map _

@[simp] theorem map_toChar_ofChars (cs : List Char) :
    (ofChars cs).map toChar = cs := by
  simp [ofChars, toChar, Function.comp_def]

theorem ofCode_toNat (c : Char) : ofCode c.toNat = char c := by
  have hrange : ¬(0xd800 ≤ c.toNat ∧ c.toNat < 0xe000) := by
    intro h
    have hvalid : c.toNat < 0xd800 ∨ (0xdfff < c.toNat ∧ c.toNat < 0x110000) :=
      c.valid
    omega
  simp [ofCode, hrange, Char.ofNat_toNat]

end CodePoint

structure Text where
  points : List CodePoint
deriving DecidableEq

namespace Text

def ofString (s : String) : Text :=
  ⟨CodePoint.ofChars s.toList⟩

instance : Coe String Text := ⟨ofString⟩

/-- The characters of a text, with the replacement character for surrogates. -/
def chars (t : Text) : List Char :=
  t.points.map CodePoint.toChar

/-- A text as a string, with the replacement character for surrogates. -/
def toString (t : Text) : String :=
  String.ofList t.chars

def length (t : Text) : Nat :=
  t.points.length

def isEmpty (t : Text) : Bool :=
  t.points.isEmpty

theorem chars_ofString (s : String) : (ofString s).chars = s.toList := by
  simp [chars, ofString]

@[simp] theorem toString_ofString (s : String) :
    (ofString s).toString = s := by
  simp [toString, chars_ofString]

theorem ofString_injective {s t : String}
    (h : ofString s = ofString t) : s = t := by
  rw [← toString_ofString s, h, toString_ofString]

def isHighSurrogate (code : Nat) : Bool :=
  0xd800 ≤ code && code < 0xdc00

def isLowSurrogate (code : Nat) : Bool :=
  0xdc00 ≤ code && code < 0xe000

/-- The code point of a pair of surrogates. -/
def joinSurrogates (high low : Nat) : Nat :=
  0x10000 + (high - 0xd800) * 0x400 + (low - 0xdc00)

/-- The surrogates of a code point beyond the basic plane. -/
def splitSurrogates (code : Nat) : Nat × Nat :=
  (0xd800 + (code - 0x10000) / 0x400, 0xdc00 + (code - 0x10000) % 0x400)

/-- How a text that names code points by numbers writes one: by its number, or,
if it is a surrogate, also as itself. -/
inductive Written where
  | code (number : Nat)
  | alone (s : Surrogate)
deriving DecidableEq

/-- The code points of a sequence of numbers, in which the number of a high
surrogate before that of a low one makes one code point with it.  A surrogate
that is written as itself stands alone. -/
def pointsOf : List Written → List CodePoint
  | [] => []
  | .alone s :: rest => .surrogate s :: pointsOf rest
  | [.code number] => [.ofCode number]
  | .code first :: .alone s :: rest =>
    .ofCode first :: pointsOf (.alone s :: rest)
  | .code first :: .code second :: rest =>
    if isHighSurrogate first && isLowSurrogate second then
      .ofCode (joinSurrogates first second) :: pointsOf rest
    else .ofCode first :: pointsOf (.code second :: rest)

def ofWritten (written : List Written) : Text :=
  ⟨pointsOf written⟩

theorem joinSurrogates_splitSurrogates {code : Nat} (h : 0x10000 ≤ code) :
    joinSurrogates (splitSurrogates code).1 (splitSurrogates code).2 =
      code := by
  have hparts : ∀ base high low rest : Nat, base ≤ code → rest = code - base →
      base + (high + rest / 0x400 - high) * 0x400 +
        (low + rest % 0x400 - low) = code := by
    omega
  exact hparts 0x10000 0xd800 0xdc00 (code - 0x10000) h rfl

end Text
end IndexAccess
