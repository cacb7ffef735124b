import IndexAccess.CommandLine.Program

/-!
# The command line

Reads the arguments, the environment, and the document that a command names,
and prints the report of the command.
-/

namespace IndexAccess

partial def readAll (stream : IO.FS.Stream) (before : ByteArray) :
    IO ByteArray := do
  let chunk ← stream.read 65536
  if chunk.isEmpty then return before else readAll stream (before ++ chunk)

/-- The number and the text of a failure of the operating system. -/
def systemFailure? : IO.Error → Option (UInt32 × String)
  | .alreadyExists _ number text | .otherError number text
  | .resourceBusy number text | .resourceVanished number text
  | .unsupportedOperation number text | .hardwareFault number text
  | .unsatisfiedConstraints number text | .illegalOperation number text
  | .protocolError number text | .timeExpired number text
  | .interrupted _ number text | .noFileOrDirectory _ number text
  | .invalidArgument _ number text | .permissionDenied _ number text
  | .resourceExhausted _ number text | .inappropriateType _ number text
  | .noSuchThing _ number text => some (number, text)
  | .unexpectedEof | .userError _ => none

/-- What a failure to read a file says about it.  A missing file or directory,
a directory in place of a file and a loop of links leave no file; a name may be
too long to look for; otherwise there is a file that cannot be read. -/
def failedLookup (name : String) (error : IO.Error) : CommandLine.FileLookup :=
  match systemFailure? error with
  | none => .unreadable ⟨5, "Input/output error", none⟩
  | some (number, text) =>
    let fault : SystemFault :=
      ⟨number.toNat, text,
        some (Text.quoted (CommandLine.FileTree.plainPath name))⟩
    if [2, 9, 20, 21, 40].contains fault.number then .nothing
    else if fault.number = 36 then .notReached fault
    else .unreadable fault

def readFile (name : String) : IO CommandLine.FileLookup := do
  try
    let bytes ← IO.FS.readBinFile name
    return .content bytes.toList
  catch error => return failedLookup name error

def readEnvironment : IO Environment := do
  let names := [Settings.levelVariable, Settings.indentVariable]
  names.filterMapM fun name => do
    return (← IO.getEnv name).map fun value => (name, value)

/-- The world of a command: only the document that it names is read. -/
def readWorld (command : CommandLine.Command) : IO CommandLine.World := do
  let environment ← readEnvironment
  let features := FeatureRegistry.builtin
  let decoder := CommandLine.InputDecoder.strict
  match command with
  | .read "-" _ _ _ => do
    let input ← readAll (← IO.getStdin) ByteArray.empty
    return {
      environment, file := fun _ => .nothing, input := input.toList,
      decoder, features }
  | .read name _ _ _ => do
    let content ← readFile name
    return {
      environment, file := fun _ => content, input := [], decoder, features }
  | _ => return {
      environment, file := fun _ => .nothing, input := [], decoder, features }

def runProgram (args : List String) : IO UInt32 := do
  match CommandLine.parse? args with
  | none => do
    IO.eprintln "Usage: jsonindex [version | read FILENAME INDEXES... | list-accessors]"
    return 2
  | some command => do
    let start ← IO.monoMsNow
    let world ← readWorld command
    let now ← IO.monoMsNow
    let report := CommandLine.report world ((now - start : Nat) : Int) command
    IO.print report.output
    IO.eprint report.log
    match report.failure with
    | some failure => IO.eprintln failure.message
    | none => pure ()
    return report.exitCode.toUInt32

end IndexAccess

def main (args : List String) : IO UInt32 :=
  IndexAccess.runProgram args
