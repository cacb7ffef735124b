import IndexAccess.Text.Basic
import IndexAccess.Text.Hexadecimal
import IndexAccess.Text.Printable

/-!
# Quoted texts

A quoted text stands between single quotes, or between double quotes when it
holds a single quote and no double quote.  The quote itself and the backslash
are escaped, line ends and tabs have short escapes, and any other character
that is not printable is shown by its number in hexadecimal.
-/

namespace IndexAccess
namespace Text

/-- The quote that encloses a text. -/
def quoteOf (cs : List Char) : Char :=
  if cs.contains '\'' && !cs.contains '"' then '"' else '\''

/-- The escapes that quoted texts and quoted bytes have in common. -/
def shortEscape? (quote c : Char) : Option (List Char) :=
  if c == quote || c == '\\' then some ['\\', c]
  else if c == '\n' then some ['\\', 'n']
  else if c == '\r' then some ['\\', 'r']
  else if c == '\t' then some ['\\', 't']
  else none

def numberEscape (code : Nat) : List Char :=
  if code < 0x100 then '\\' :: 'x' :: hexDigits 2 code
  else if code < 0x10000 then '\\' :: 'u' :: hexDigits 4 code
  else '\\' :: 'U' :: hexDigits 8 code

def quotedChar (quote c : Char) : List Char :=
  match shortEscape? quote c with
  | some escape => escape
  | none => if isPrintable c then [c] else numberEscape c.toNat

/-- A surrogate is never printable. -/
def quotedPoint (quote : Char) : CodePoint → List Char
  | .char c => quotedChar quote c
  | .surrogate s => numberEscape s.code

def quoted (t : Text) : String :=
  let quote := quoteOf t.chars
  String.ofList (quote :: t.points.flatMap (quotedPoint quote) ++ [quote])

def quotedByte (quote c : Char) : List Char :=
  match shortEscape? quote c with
  | some escape => escape
  | none =>
    if 0x20 ≤ c.toNat && c.toNat < 0x7f then [c]
    else '\\' :: 'x' :: hexDigits 2 c.toNat

/-- Bytes as they are shown inside a message: a quoted text of one character
per byte, marked by a `b`. -/
def quotedBytes (bytes : List UInt8) : String :=
  let cs := bytes.map fun byte => Char.ofNat byte.toNat
  let quote := quoteOf cs
  String.ofList ('b' :: quote :: cs.flatMap (quotedByte quote) ++ [quote])

example : quoted "it's" = "\"it's\"" := by decide +kernel
example : quoted "a\n\x01" = "'a\\n\\x01'" := by decide +kernel
example : quotedBytes [0x6b, 0x27] = "b\"k'\"" := by decide +kernel

end Text
end IndexAccess
