/-!
# Blank characters

Two sets of blank characters occur.  Texts of settings and descriptions are
trimmed of every blank character; the text of a number may be surrounded by the
six ASCII blanks only, once its other characters have been brought to ASCII.
-/

namespace IndexAccess
namespace Text

/-- Tab, line feed, vertical tab, form feed, carriage return and space. -/
def isAsciiBlank (c : Char) : Bool :=
  (0x09 ≤ c.toNat && c.toNat ≤ 0x0d) || c.toNat == 0x20

/-- The ASCII blanks, the four separators before the space, and the spaces and
line separators outside ASCII. -/
def isBlank (c : Char) : Bool :=
  isAsciiBlank c || (0x1c ≤ c.toNat && c.toNat ≤ 0x1f) ||
    (0x2000 ≤ c.toNat && c.toNat ≤ 0x200a) ||
    [0x85, 0xa0, 0x1680, 0x2028, 0x2029, 0x202f, 0x205f,
      0x3000].contains c.toNat

/-- Drops the characters satisfying `p` from both ends. -/
def trimBoth (p : Char → Bool) (cs : List Char) : List Char :=
  ((cs.dropWhile p).reverse.dropWhile p).reverse

def trim (s : String) : String :=
  String.ofList (trimBoth isBlank s.toList)

end Text
end IndexAccess
