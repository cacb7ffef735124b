import IndexAccess.Binary64.Layout
import IndexAccess.Failure
import IndexAccess.Number.Power
import IndexAccess.Text.Basic
import IndexAccess.Text.Hexadecimal

/-!
# Printing JSON texts

A value is printed in ASCII only: other characters of a text are escaped by
their code points, in pairs of surrogates beyond the basic plane.  Without an
indent the text is one line with a space after commas and colons; with an
indent every member stands on a line of its own.
-/

namespace IndexAccess
namespace Json

attribute [local instance] corePower

/-- The layout of numbers, with the words that the reader accepts. -/
def numberLayout : Binary64.Layout :=
  { Binary64.Layout.plain with infinity := "Infinity", notANumber := "NaN" }

/-- A code escape of four hexadecimal digits. -/
def codeEscape (code : Nat) : List Char :=
  '\\' :: 'u' :: Text.hexDigits 4 code

def printedChar (c : Char) : List Char :=
  match c with
  | '"' => ['\\', '"']
  | '\\' => ['\\', '\\']
  | '\n' => ['\\', 'n']
  | '\r' => ['\\', 'r']
  | '\t' => ['\\', 't']
  | '\x0c' => ['\\', 'f']
  | '\x08' => ['\\', 'b']
  | c =>
    if 0x20 ≤ c.toNat ∧ c.toNat < 0x7f then [c]
    else if c.toNat < 0x10000 then codeEscape c.toNat
    else
      let (high, low) := Text.splitSurrogates c.toNat
      codeEscape high ++ codeEscape low

def printedPoint : CodePoint → List Char
  | .char c => printedChar c
  | .surrogate s => codeEscape s.code

def printedText (t : Text) : List Char :=
  '"' :: t.points.flatMap printedPoint ++ ['"']

/-- The text of a key: scalars other than texts are printed and then quoted. -/
def keyText : Value → Text
  | .text t => t
  | .boolean b => if b then "true" else "false"
  | .integer i => Number.integerText i
  | .number x => x.write numberLayout
  | _ => "null"

/-- What separates the members of a container at a level of nesting: the text
before the first member, between members, and after the last. -/
structure Separators where
  opening : List Char
  between : List Char
  closing : List Char

def Separators.at (indent : Option Nat) (level : Nat) : Separators :=
  match indent with
  | none => ⟨[], [',', ' '], []⟩
  | some width =>
    let inner := '\n' :: List.replicate (width * (level + 1)) ' '
    ⟨inner, ',' :: inner, '\n' :: List.replicate (width * level) ' '⟩

/-- The printed members of a container between its brackets; without members
there is nothing to separate. -/
def bracketed (opening closing : Char) (indent : Option Nat) (level : Nat)
    (members : List (List Char)) : List Char :=
  if members.isEmpty then [opening, closing]
  else
    let separators := Separators.at indent level
    opening :: separators.opening ++ separators.between.intercalate members ++
      separators.closing ++ [closing]

mutual

def printed (indent : Option Nat) (level : Nat) : Value → List Char
  | .boolean b => (if b then "true" else "false").toList
  | .integer i => (Number.integerText i).toList
  | .number x => (x.write numberLayout).toList
  | .text t => printedText t
  | .list items | .tuple items =>
    bracketed '[' ']' indent level (printedItems indent (level + 1) items)
  | .dict entries =>
    bracketed '{' '}' indent level (printedEntries indent (level + 1) entries)
  | _ => "null".toList

def printedItems (indent : Option Nat) (level : Nat) :
    List Value → List (List Char)
  | [] => []
  | item :: rest => printed indent level item :: printedItems indent level rest

def printedEntries (indent : Option Nat) (level : Nat) :
    List (Value × Value) → List (List Char)
  | [] => []
  | (key, item) :: rest =>
    (printedText (keyText key) ++ ':' :: ' ' :: printed indent level item) ::
      printedEntries indent level rest

end

def keyFault? : Value → Option ValueFailure
  | .null | .boolean _ | .number _ | .text _ => none
  | .integer i => if Number.isWritable i then none else some .integerTooLong
  | key => some (.keyNotSerializable key.classOf)

mutual

/-- The first reason why a value cannot be printed, a key before its value. -/
def printFault? : Value → Option ValueFailure
  | .null | .boolean _ | .number _ | .text _ => none
  | .integer i => if Number.isWritable i then none else some .integerTooLong
  | .list items | .tuple items => itemsFault? items
  | .dict entries => entriesFault? entries
  | v => some (.notSerializable v.classOf)

def itemsFault? : List Value → Option ValueFailure
  | [] => none
  | item :: rest => (printFault? item).or (itemsFault? rest)

def entriesFault? : List (Value × Value) → Option ValueFailure
  | [] => none
  | (key, item) :: rest =>
    ((keyFault? key).or (printFault? item)).or (entriesFault? rest)

end

/-- An indent of this width or more is no width at all. -/
def indentBound : Nat := 2 ^ (63 : Nat)

/-- An indent of this width or more does not fit into the memory. -/
def memoryBound : Nat := 2 ^ (36 : Nat)

def indentFault? (width : Nat) : Option ValueFailure :=
  if indentBound ≤ width then some .indentTooLarge
  else if memoryBound ≤ width then some .outOfMemory
  else none

/-- Why a value cannot be printed with an indent.  The indent is judged before
the value, but a text alone is printed without one. -/
def fault? (indent : Option Nat) : Value → Option ValueFailure
  | .text _ => none
  | v => (indentFault? (indent.getD 0)).or (printFault? v)

def print (indent : Option Nat) (v : Value) : Except Failure String :=
  match fault? indent v with
  | some failure => .error (.value failure)
  | none => .ok (String.ofList (printed indent 0 v))

end Json
end IndexAccess
