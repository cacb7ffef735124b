import IndexAccess.CommandLine.Arguments
import IndexAccess.CommandLine.Files
import IndexAccess.Feature.Builtin
import IndexAccess.Json.Printer
import IndexAccess.Log.Output
import IndexAccess.Text.ControlSequence
import IndexAccess.Text.Utf8
import IndexAccess.Value.Subscript

/-!
# The program

A command runs in a world that consists of the environment, the files, the
input stream and the registered features.  Its report gives the exit code, what
is printed, and what is logged.  A failure that no command turns into an exit
code ends the program with code one and is part of the report.

Files are decoded strictly.  How the input stream is decoded depends on the
locale: it is UTF-8 as well, but bytes that are no text may fail or be made
into something else.  Locales that make them into surrogates that stand alone
are left out, since a document of a command is a string.
-/

namespace IndexAccess
namespace CommandLine

/-- How the bytes of the input stream become a text.  Only where strict
decoding fails is a decoder free to choose. -/
structure InputDecoder where
  decode : List UInt8 → Except Utf8Fault String
  decode_of_ofBytes : ∀ {bytes : List UInt8} {text : String},
    Text.ofBytes bytes = .ok text → decode bytes = .ok text

/-- The decoder that makes nothing of bytes that are no text. -/
def InputDecoder.strict : InputDecoder where
  decode := Text.ofBytes
  decode_of_ofBytes := id

structure World where
  environment : Environment
  file : String → FileLookup
  input : List UInt8
  decoder : InputDecoder
  features : FeatureRegistry

structure Report where
  exitCode : Nat
  output : String
  log : String
  failure : Option Failure

def inputDocument (w : World) : Run String :=
  .ofExcept ((w.decoder.decode w.input).mapError fun fault =>
    .value (.undecodable fault))

def giveUp {α : Type} (text : String) : Run α := do
  Run.log Log.Level.error text
  Run.fail (.exit 1)

def fileDocument (w : World) (name : String) : Run String :=
  match w.file name with
  | .nothing => giveUp s!"File not found: {name}"
  | .notReached fault => Run.fail (.value (.system fault))
  | .unreadable fault => giveUp s!"Cannot read {name}: {fault.message}"
  | .content bytes =>
    match Text.ofBytes bytes with
    | .ok text => pure text
    | .error fault => giveUp s!"Cannot read {name}: {fault.message}"

/-- The text of a document; a dash stands for the input stream. -/
def document (w : World) (name : String) : Run String :=
  if name == "-" then inputDocument w else fileDocument w name

def featureData (w : World) (name : String) (inputs : Option Inputs) :
    Run Value := do
  let feature ← w.features.require name
  let result ← feature.handler inputs
  result.require name

/-- Prints a line without control sequences. -/
def printMessage (line : String) : Run Unit :=
  Run.printLine (Text.plain line)

def printVersion (w : World) : Run Unit := do
  let data ← featureData w "version" none
  let value ← Run.ofExcept (data.subscript "version")
  let text ← Run.ofExcept value.toText
  printMessage s!"jsonindex {text.toString}"

def printElement (w : World) (file : String) (indexes : List String) :
    Run Unit := do
  let text ← document w file
  let data ← featureData w "read"
    (some ⟨text, indexes.map fun index => .text (.ofString index)⟩)
  let value ← Run.ofExcept (data.subscript "value")
  let settings ← Run.ofExcept (Settings.load w.environment)
  let printed ← Run.ofExcept (Json.print settings.indent value)
  printMessage printed

/-- A text filled with spaces up to a width. -/
def padded (width : Nat) (s : String) : String :=
  s ++ String.ofList (List.replicate (width - s.length) ' ')

/-- The text of a value in a column.  Only texts and numbers have one; truth
values count as the integers one and zero. -/
def columnText : Value → Except Failure Text
  | .boolean b => (Value.integer (if b then 1 else 0)).toText
  | .text t => .ok t
  | .integer i => (Value.integer i).toText
  | .number x => (Value.number x).toText
  | .foreign .complex => (Value.foreign .complex).toText
  | v => .error (.value (.noColumn v.classOf))

def printEntry (entry : Value × Value) : Run Unit := do
  let name ← Run.ofExcept (columnText entry.1)
  let description ← Run.ofExcept entry.2.toText
  printMessage s!"  {padded 30 name.toString} {description.toString}"

def printListing (accessors : Value) : Run Unit :=
  if !accessors.truth then printMessage "  No index accessors registered."
  else do
    printMessage "Registered index accessors:"
    match accessors.entries? with
    | some entries => entries.forM printEntry
    | none => Run.fail (.value (.noMember accessors.classOf "items"))

/-- Why a value that is no dictionary has no accessors to list.  Containers
give members too, but none in place of a missing one. -/
def listingFailure : Value → ValueFailure
  | .node (.array _ _ _) => .noDefault .arrayNode
  | .node (.object _ _) => .noDefault .objectNode
  | v => .noMember v.classOf "get"

def printAccessors (w : World) : Run Unit := do
  let data ← featureData w "list-accessors" none
  match data.entries? with
  | some _ => printListing ((data.entry? "accessors").getD (.dict []))
  | none => Run.fail (.value (listingFailure data))

def perform (w : World) : Command → Run Unit
  | .version => printVersion w
  | .read file indexes _ _ => printElement w file indexes
  | .listAccessors _ => printAccessors w

/-- How a command logs; printing the version needs no setup. -/
def logOutput (w : World) : Command → Except Failure Log.Output
  | .version => .ok .bare
  | .read _ _ debug verbose => Log.Output.setup w.environment debug verbose
  | .listAccessors debug => Log.Output.setup w.environment debug false

/-- The report of a run whose records are written in a given way. -/
def reportOf (out : Log.Output) (milliseconds : Int)
    (run : Run Unit) : Report :=
  let log := out.written milliseconds run.records
  match run.outcome with
  | .ok () => ⟨0, run.output, log, none⟩
  | .error (.exit code) => ⟨code, run.output, log, none⟩
  | .error failure => ⟨1, run.output, log, some failure⟩

/-- The report of a command whose records are all written at one time. -/
def report (w : World) (milliseconds : Int) (command : Command) : Report :=
  match logOutput w command with
  | .ok out => reportOf out milliseconds (perform w command)
  | .error failure => ⟨1, "", "", some failure⟩

/-- The report of an argument list; nothing for a usage error. -/
def report? (w : World) (milliseconds : Int) (args : List String) :
    Option Report :=
  (parse? args).map (report w milliseconds)

end CommandLine
end IndexAccess
