/-!
# Control sequences

A control sequence tells a terminal how to show what follows it.  It starts
with an escape character and an opening bracket; digits, semicolons and
question marks may follow, and a letter ends it.  Text that goes to no terminal
is printed without control sequences.  An escape character that starts none is
kept.
-/

namespace IndexAccess
namespace Text

/-- Whether a character may stand between the bracket and the letter. -/
def isParameter (c : Char) : Bool :=
  c.isDigit || c == ';' || c == '?'

/-- The length of parameters and a letter, if they stand at the front. -/
def parametersLength? : List Char → Option Nat
  | [] => none
  | c :: rest =>
    if isParameter c then (parametersLength? rest).map (· + 1)
    else if c.isAlpha then some 1
    else none

/-- The length of what follows the escape character of a control sequence. -/
def controlLength? : List Char → Option Nat
  | '[' :: rest => (parametersLength? rest).map (· + 1)
  | _ => none

/-- The characters without control sequences, after some that are still to be
left out. -/
def withoutSequences : (pending : Nat) → List Char → List Char
  | _, [] => []
  | pending + 1, _ :: rest => withoutSequences pending rest
  | 0, c :: rest =>
    match if c == '\x1b' then controlLength? rest else none with
    | some length => withoutSequences length rest
    | none => c :: withoutSequences 0 rest

def plain (s : String) : String :=
  String.ofList (withoutSequences 0 s.toList)

theorem withoutSequences_eq_self {cs : List Char} (h : '\x1b' ∉ cs) :
    withoutSequences 0 cs = cs := by
  induction cs with
  | nil => rfl
  | cons c rest ih =>
    simp only [List.mem_cons, not_or] at h
    simp [withoutSequences, Ne.symm h.1, ih h.2]

theorem plain_eq_self {s : String} (h : '\x1b' ∉ s.toList) : plain s = s := by
  simp [plain, withoutSequences_eq_self h]

end Text
end IndexAccess
