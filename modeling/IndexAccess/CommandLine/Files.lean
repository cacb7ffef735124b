import IndexAccess.Failure
import IndexAccess.Text.Quoted

/-!
# Files by name

Names of files are paths from the directory of a tree.  Empty components and
single dots of a path count for nothing, and two dots lead from an existing
directory back to the one that holds it; above the tree there are directories
whose members are unknown.  A path leads to a file only if every directory on
its way exists.  A component and a whole path may only have so many bytes.
-/

namespace IndexAccess
namespace CommandLine

/-- A place on the way of a path: one in the tree, or a directory above it. -/
inductive Place where
  | above
  | inside (path : List String)
deriving DecidableEq, Repr

namespace Place

def top : Place := inside []

def parent : Place → Place
  | above | inside [] => above
  | inside path => inside path.dropLast

def next? (part : String) : Place → Option Place
  | place@above => if part == ".." then some place.parent else none
  | place@(inside path) =>
    some (if part == ".." then place.parent else inside (path ++ [part]))

/-- The places on the way that components lead, the first and the last
included. -/
def way : Place → List String → List Place
  | place, [] => [place]
  | place, part :: rest =>
    match place.next? part with
    | some next => place :: way next rest
    | none => [place]

end Place

structure FileTree where
  files : List (Place × List UInt8)
  directories : List Place

/-- What comes of asking for a file: its bytes, or that no file is there, or a
failure of the operating system, either while it looks for the file or after it
has found it. -/
inductive FileLookup where
  | content (bytes : List UInt8)
  | nothing
  | notReached (fault : SystemFault)
  | unreadable (fault : SystemFault)

namespace FileTree

/-- The most bytes that a component may have. -/
def nameLimit : Nat := 255

/-- The most bytes that a path may have. -/
def pathLimit : Nat := 4095

def empty : FileTree := ⟨[], []⟩

/-- The components of a path that count. -/
def components (path : String) : List String :=
  (path.splitOn "/").filter fun part => part != "" && part != "."

/-- Refuses names that no file can have. -/
def requireNames (names : List String) : Except Failure Unit :=
  if names.any fun name => name.toList.contains '\x00' then
    .error (.value .nullCharacter)
  else .ok ()

/-- A tree with a named content, in place of what was there; a name that ends
in a slash is a directory.  The directories on the way are there as well. -/
def insert (t : FileTree) (name : String) (content : List UInt8) : FileTree :=
  let way := Place.top.way (components name)
  if name.toList.getLast? == some '/' then
    { t with directories := t.directories ++ way }
  else
    { files := match way.getLast? with
        | some place => Entries.put place content t.files
        | none => t.files
      directories := t.directories ++ way.dropLast }

def ofEntries (entries : List (String × List UInt8)) : FileTree :=
  entries.foldl (fun t entry => t.insert entry.1 entry.2) empty

def isDirectory (t : FileTree) (place : Place) : Bool :=
  place == .above || place == .top || t.directories.contains place

/-- How many slashes a path starts with. -/
def leadingSlashes (path : String) : Nat :=
  (path.toList.takeWhile (· == '/')).length

/-- A path without the components that count for nothing.  Exactly two slashes
at its front are kept, and more count as one. -/
def plainPath (path : String) : String :=
  let front := match leadingSlashes path with
    | 0 => ""
    | 2 => "//"
    | _ => "/"
  front ++ "/".intercalate (components path)

/-- The failure to look for a path that has too many bytes, or a component that
has. -/
def nameTooLong (path : String) : SystemFault :=
  ⟨36, "File name too long", some (Text.quoted (plainPath path))⟩

/-- Follows the components of `path` from a place on. -/
def follow (t : FileTree) (path : String) : Place → List String → FileLookup
  | place, [] =>
    match Entries.get? t.files place with
    | some content => .content content
    | none => .nothing
  | place, part :: rest =>
    if !t.isDirectory place then .nothing
    else if nameLimit < part.utf8ByteSize then .notReached (nameTooLong path)
    else
      match place.next? part with
      | some next => t.follow path next rest
      | none => .nothing

/-- Looks up the file at a path.  No file has a null character in its path, and
a path that starts with a slash starts above the tree. -/
def find (t : FileTree) (path : String) : FileLookup :=
  if path.toList.contains '\x00' then .nothing
  else if pathLimit < (plainPath path).utf8ByteSize then
    .notReached (nameTooLong path)
  else t.follow path (if leadingSlashes path = 0 then .top else .above)
    (components path)

end FileTree
end CommandLine
end IndexAccess
