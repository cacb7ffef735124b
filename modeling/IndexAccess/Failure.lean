import IndexAccess.Value.Shown

/-!
# Failures

A failure is either one of index access itself or one of the values that an
operation works on.  Failures of index access carry a code; each kind of
failure has one message.
-/

namespace IndexAccess

inductive NodeFault where
  | noRepresentation (type : Class)
  | keyNotText (type : Class) (shownKey : String)
  | notFinite (type : Class) (shownNumber : String)
deriving DecidableEq, Repr

namespace NodeFault

def type : NodeFault → Class
  | noRepresentation type | keyNotText type _ | notFinite type _ => type

def message : NodeFault → String
  | noRepresentation type =>
    s!"Value type '{type.qualifiedName}' has no JSON node representation"
  | keyNotText _ key => s!"JSON object keys must be strings, got {key}"
  | notFinite _ number => s!"Non-finite number {number} is not valid JSON"

end NodeFault

/-- An index that could not be applied to a target, with the text of the
failure of the accessor that had agreed to apply it, if there was one. -/
structure Refusal where
  target : Class
  index : Value
  shownIndex : String
  reason : Option String

/-- The message of a refusal, with the verb for what was tried. -/
def Refusal.message (verb : String) (r : Refusal) : String :=
  let base :=
    s!"Index [{r.shownIndex}] cannot be {verb} on object of type '{r.target.name}'"
  match r.reason with
  | none => base
  | some reason => if reason.isEmpty then base else base ++ ": " ++ reason

inductive IndexFailure where
  | general (message : String)
  | valueIsNull (step : Nat) (shownIndex : String)
  | inaccessible (reason : String)
  | unsupported (message : String)
  | unrepresentable (fault : NodeFault)
  | notReadable (refusal : Refusal) (cause : Option IndexFailure)
  | notWritable (refusal : Refusal) (cause : Option IndexFailure)

/-- How an index is refused: for reading or for writing. -/
abbrev RefusalKind := Refusal → (cause : Option IndexFailure) → IndexFailure

namespace IndexFailure

def code : IndexFailure → String
  | general _ | valueIsNull _ _ => "E_JSON_INDEX"
  | inaccessible _ => "E_ACCESS"
  | unsupported _ => "E_UNSUPPORTED_OPERATION"
  | unrepresentable _ => "E_UNSUPPORTED_JSON_VALUE"
  | notReadable _ _ => "E_INDEX_NOT_READABLE"
  | notWritable _ _ => "E_INDEX_NOT_WRITABLE"

def message : IndexFailure → String
  | general message => message
  | valueIsNull step index =>
    s!"Cannot apply index [{index}] at step {step}: value is null"
  | inaccessible reason => reason
  | unsupported message => message
  | unrepresentable fault => fault.message
  | notReadable refusal _ => refusal.message "read"
  | notWritable refusal _ => refusal.message "written"

/-- The failure on account of which another one was raised. -/
def cause? : IndexFailure → Option IndexFailure
  | notReadable _ cause | notWritable _ cause => cause
  | _ => none

end IndexFailure

inductive Utf8Fault where
  | invalidStart (byte : UInt8) (position : Nat)
  | invalidContinuation (byte : UInt8) (position count : Nat)
  | unexpectedEnd (byte : UInt8) (position count : Nat)
deriving DecidableEq, Repr

/-- A failure of the operating system: its number, its text, and the path that
it is about, if there is one. -/
structure SystemFault where
  number : Nat
  text : String
  shownPath : Option String
deriving DecidableEq, Repr

inductive ValueFailure where
  | rejected (message : String)
  | raised (failure : Raised)
  | integerTooLong
  | tooManyDigits (count : Nat)
  | invalidInteger (shownText : String)
  | noInteger (type : Class)
  | integerOfNotANumber
  | integerOfInfinity
  | invalidNumber (shownText : String)
  | noNumber (type : Class)
  | integerOutOfRange
  | unhashable (type : Class)
  | missingKey (shownKey : String)
  | missingArgument (type : Class) (name : String)
  | excessArgument (type : Class)
  | noArguments (type : Class)
  | abstractClass (type : Class) (missing : String)
  | missingInputs
  | noMember (type : Class) (name : String)
  | notIterable (type : Class)
  | noSubscript (type : Class)
  | noColumn (type : Class)
  | noDefault (type : Class)
  | noSequence (position : Nat)
  | noPair (position length : Nat)
  | positionNotInteger (container : String) (position : Class)
  | notComparable (left right : Class)
  | textPositionNotInteger
  | duplicateAccessor (name : String)
  | notAnAccessor (type : Class)
  | notSerializable (type : Class)
  | keyNotSerializable (type : Class)
  | indentTooLarge
  | outOfMemory
  | invalidLogLevel (shownText : String)
  | invalidIndent (shownText : String)
  | negativeIndent (shownIndent : String)
  | recursionTooDeep
  | undecodable (fault : Utf8Fault)
  | system (fault : SystemFault)
  | nullCharacter
  | equalsSignInName
deriving DecidableEq, Repr

def Utf8Fault.message : Utf8Fault → String
  | invalidStart byte position => one byte position "invalid start byte"
  | invalidContinuation byte position count =>
    span byte position count "invalid continuation byte"
  | unexpectedEnd byte position count =>
    span byte position count "unexpected end of data"
where
  one (byte : UInt8) (position : Nat) (reason : String) : String :=
    let digits := String.ofList (Text.hexDigits 2 byte.toNat)
    s!"'utf-8' codec can't decode byte 0x{digits} in position {position}: {reason}"
  span (byte : UInt8) (position count : Nat) (reason : String) : String :=
    if count = 1 then one byte position reason
    else
      let last := position + count - 1
      s!"'utf-8' codec can't decode bytes in position {position}-{last}: {reason}"

namespace SystemFault

def invalidArgument : SystemFault := ⟨22, "Invalid argument", none⟩

def message (fault : SystemFault) : String :=
  let reason := s!"[Errno {fault.number}] {fault.text}"
  match fault.shownPath with
  | some path => s!"{reason}: {path}"
  | none => reason

end SystemFault

namespace ValueFailure

def message : ValueFailure → String
  | rejected message => message
  | raised failure => failure.message
  | integerTooLong =>
    s!"Exceeds the limit ({Number.digitLimit} digits) for integer string conversion; " ++
      "use sys.set_int_max_str_digits() to increase the limit"
  | tooManyDigits count =>
    s!"Exceeds the limit ({Number.digitLimit} digits) for integer string conversion: " ++
      s!"value has {count} digits; use sys.set_int_max_str_digits() to increase the limit"
  | invalidInteger text => s!"invalid literal for int() with base 10: {text}"
  | noInteger type =>
    "int() argument must be a string, a bytes-like object or a real number, " ++
      s!"not '{type.name}'"
  | integerOfNotANumber => "cannot convert float NaN to integer"
  | integerOfInfinity => "cannot convert float infinity to integer"
  | invalidNumber text => s!"could not convert string to float: {text}"
  | noNumber type =>
    s!"float() argument must be a string or a real number, not '{type.name}'"
  | integerOutOfRange => "int too large to convert to float"
  | unhashable type => s!"unhashable type: '{type.name}'"
  | missingKey key => key
  | missingArgument type name =>
    s!"{type.name}.__init__() missing 1 required positional argument: '{name}'"
  | excessArgument type =>
    s!"{type.name}.__new__() takes 1 positional argument but 2 were given"
  | noArguments type => s!"{type.name}() takes no arguments"
  | abstractClass type missing =>
    s!"Can't instantiate abstract class {type.name} with abstract method {missing}"
  | missingInputs =>
    "handle_read() missing 2 required positional arguments: 'document' and 'indexes'"
  | noMember type name => s!"'{type.name}' object has no attribute '{name}'"
  | notIterable type => s!"'{type.name}' object is not iterable"
  | noSubscript type => s!"'{type.name}' object is not subscriptable"
  | noColumn type =>
    s!"unsupported format string passed to {type.name}.__format__"
  | noDefault type =>
    s!"{type.name}.get() takes 2 positional arguments but 3 were given"
  | noSequence position =>
    s!"cannot convert dictionary update sequence element #{position} to a sequence"
  | noPair position length =>
    s!"dictionary update sequence element #{position} has length {length}; 2 is required"
  | positionNotInteger container position =>
    s!"{container} indices must be integers or slices, not {position.name}"
  | notComparable left right =>
    s!"'<' not supported between instances of '{left.name}' and '{right.name}'"
  | textPositionNotInteger => "string indices must be integers, not 'str'"
  | duplicateAccessor name => s!"Index accessor already registered: {name}"
  | notAnAccessor type => s!"Expected IndexAccessor, got {type.name}"
  | notSerializable type =>
    s!"Object of type {type.name} is not JSON serializable"
  | keyNotSerializable type =>
    s!"keys must be str, int, float, bool or None, not {type.name}"
  | indentTooLarge => "cannot fit 'int' into an index-sized integer"
  | outOfMemory => ""
  | invalidLogLevel text => s!"Invalid JSONINDEX_LOG_LEVEL value: {text}"
  | invalidIndent text => s!"Invalid JSONINDEX_JSON_INDENT value: {text}"
  | negativeIndent indent =>
    s!"JSONINDEX_JSON_INDENT must not be negative, got {indent}"
  | recursionTooDeep => "maximum recursion depth exceeded"
  | undecodable fault => fault.message
  | system fault => fault.message
  | nullCharacter => "embedded null byte"
  | equalsSignInName => "illegal environment variable name"

end ValueFailure

/-- A failure, or the request to end the program with an exit code. -/
inductive Failure where
  | index (failure : IndexFailure)
  | value (failure : ValueFailure)
  | exit (code : Nat)

namespace Failure

def message : Failure → String
  | index failure => failure.message
  | value failure => failure.message
  | exit code => toString code

end Failure

end IndexAccess
