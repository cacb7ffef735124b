/-!
# Capital forms

The capital form of a text, for looking up names that consist of ASCII letters.
Every character whose capitals are ASCII letters is replaced by them; all
others stay as they are, since no such name contains their capitals.
-/

namespace IndexAccess
namespace Text

/-- The characters outside ASCII whose capitals are ASCII letters. -/
def asciiCapitals : List (Char × List Char) := [
  ('ß', ['S', 'S']), ('ı', ['I']), ('ſ', ['S']), ('\ufb00', ['F', 'F']),
  ('\ufb01', ['F', 'I']), ('\ufb02', ['F', 'L']), ('\ufb03', ['F', 'F', 'I']),
  ('\ufb04', ['F', 'F', 'L']), ('\ufb05', ['S', 'T']), ('\ufb06', ['S', 'T'])]

def capitalChar (c : Char) : List Char :=
  (asciiCapitals.lookup c).getD [c.toUpper]

def capital (s : String) : String :=
  String.ofList (s.toList.flatMap capitalChar)

example : capital "verbose" = "VERBOSE" := by decide +kernel
example : capital "ınfo" = "INFO" := by decide +kernel

end Text
end IndexAccess
