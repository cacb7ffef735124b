/-!
# Command line arguments

A command is followed by options and arguments in any order; after two dashes
everything is an argument, and a dash alone is one.  An argument list that no
command accepts is a usage error.
-/

namespace IndexAccess
namespace CommandLine

inductive Command where
  | version
  | read (file : String) (indexes : List String) (debug verbose : Bool)
  | listAccessors (debug : Bool)
deriving DecidableEq, Repr

/-- Options and arguments, told apart. -/
structure Split where
  options : List String
  arguments : List String
deriving DecidableEq, Repr

def isOption (arg : String) : Bool :=
  arg.toList.head? == some '-' && arg != "-"

def split : List String → Split
  | [] => ⟨[], []⟩
  | arg :: rest =>
    if arg == "--" then ⟨[], rest⟩
    else if isOption arg then
      { split rest with options := arg :: (split rest).options }
    else { split rest with arguments := arg :: (split rest).arguments }

/-- Arguments whose options are all among the known ones. -/
def splitKnown? (known : List String) (args : List String) : Option Split :=
  let parts := split args
  if parts.options.all known.contains then some parts else none

def ofName? (name : String) (args : List String) : Option Command :=
  match name with
  | "version" =>
    match splitKnown? [] args with
    | some ⟨_, []⟩ => some .version
    | _ => none
  | "list-accessors" =>
    match splitKnown? ["--debug"] args with
    | some ⟨options, []⟩ => some (.listAccessors (options.contains "--debug"))
    | _ => none
  | "read" =>
    match splitKnown? ["--debug", "--verbose"] args with
    | some ⟨options, file :: index :: indexes⟩ =>
      some (.read file (index :: indexes) (options.contains "--debug")
        (options.contains "--verbose"))
    | _ => none
  | _ => none

/-- The command of an argument list; nothing for a usage error. -/
def parse? : List String → Option Command
  | "--" :: name :: args | name :: args => ofName? name args
  | [] => none

end CommandLine
end IndexAccess
