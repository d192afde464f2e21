/-
# Files

What the program reads before it serves a machine is all it has to know of files: the names
in one directory and the bytes of one file.  Where the files are known beforehand, as a tree,
both follow from the tree.

A path is followed through a tree one part at a time.  Each part, also one that leads
nowhere or back, begins in a directory, so nothing comes after the name of a file, not even
a slash.
-/

namespace RemoteDebugger
namespace CommandLine

/-- The files that a machine may be served from. -/
structure Files where
  /-- The names of the files in a directory, if it can be read. -/
  directory? : String → Option (List String)
  /-- The bytes of a file, if it can be read. -/
  file? : String → Option (List UInt8)

/-- A location in a tree of files: the names that lead to it from the root, the last one first. -/
abbrev Location := List String

/-- A tree of files. -/
structure FileTree where
  /-- The directories, apart from the root. -/
  directories : List Location
  /-- The files and their bytes. -/
  files : List (Location × List UInt8)
  /-- The directory where paths begin that do not begin at the root. -/
  current : Location := []
deriving DecidableEq, Repr

namespace FileTree

/-- Whether a directory is at a location. -/
def isDirectory (tree : FileTree) (location : Location) : Bool :=
  location.isEmpty || tree.directories.contains location

/-- The bytes of the file at a location, if there is one. -/
def bytes? (tree : FileTree) (location : Location) : Option (List UInt8) :=
  tree.files.lookup location

/-- The names of the files in the directory at a location, if there is one. -/
def names? (tree : FileTree) (location : Location) : Option (List String) :=
  if tree.isDirectory location then
    some (tree.files.filterMap fun (file, _) =>
      match file with
      | [] => none
      | name :: parent => if parent = location then some name else none)
  else none

/-- Follow one part of a path. -/
def follow (tree : FileTree) (location : Location) (part : String) : Option Location :=
  if !tree.isDirectory location then none
  else if part = "" ∨ part = "." then some location
  else if part = ".." then some location.tail
  else if tree.isDirectory (part :: location) || (tree.bytes? (part :: location)).isSome then
    some (part :: location)
  else none

/-- The most bytes of a path. -/
def maxPathLength : Nat := 4095

/-- Where a path leads.  One that is empty or too long leads nowhere. -/
def locate (tree : FileTree) (path : String) : Option Location :=
  if path.isEmpty || maxPathLength < path.utf8ByteSize then none
  else ((path.toList.splitOn '/').map String.ofList).foldlM tree.follow
    (if path.startsWith "/" then [] else tree.current)

/-- All that can be read of a tree. -/
def readable (tree : FileTree) : Files where
  directory? path := (tree.locate path).bind tree.names?
  file? path := (tree.locate path).bind tree.bytes?

end FileTree
end CommandLine
end RemoteDebugger
