import Wiring.Files.Basic

/-!
# File trees

A directory held in memory, and what paths lead to from it. A path is followed name by name: each
name but the last must lead to a directory, `.` stays and `..` goes back up. Above the tree there
are only directories that lead nowhere but further up.
-/

namespace Wiring

/-- An empty directory, or a file with its content, at the names on the way to it. -/
structure TreeEntry where
  path : List String
  content : Option ByteArray

structure FileTree where
  entries : List TreeEntry

namespace FileTree

/-- The names of a path; empty ones stay. -/
def names (path : String) : List String := path.splitOn "/"

/-- The tree with these files and empty directories. -/
def ofList (entries : List (String × Option ByteArray)) : FileTree :=
  ⟨entries.map fun (path, content) => ⟨(names path).filter (· ∉ ["", "."]), content⟩⟩

/-- The content of the file at `location`. -/
def file? (t : FileTree) (location : List String) : Option ByteArray :=
  (t.entries.find? (·.path == location)).bind (·.content)

/-- Whether there is a directory at `location`. -/
def isDirectory (t : FileTree) (location : List String) : Bool :=
  location.isEmpty || t.entries.any fun e =>
    location.isPrefixOf e.path && (location.length < e.path.length || e.content.isNone)

/-- The names of one path come before those of another. -/
def comesBefore : List String → List String → Bool
  | [], _ => true
  | _ :: _, [] => false
  | a :: as, b :: bs => a < b || (a == b && comesBefore as bs)

/-- The files below a directory, in order. -/
def filesBelow (t : FileTree) (location : List String) : List FileBelow :=
  let files := t.entries.filterMap fun e =>
    if location.isPrefixOf e.path then
      e.content.map fun content => ⟨e.path.drop location.length, content⟩
    else none
  files.mergeSort fun a b => comesBefore a.path b.path

/-- What is at `location`. -/
def at? (t : FileTree) (location : List String) : Found :=
  match t.file? location with
  | some content => .file content
  | none => if t.isDirectory location then .directory (t.filesBelow location) else .missing

/-- The greatest number of bytes in a name. -/
def maxNameSize : Nat := 255

/-- The greatest number of bytes in a path. -/
def maxPathSize : Nat := 4095

/-- What some names lead to from a directory above the tree. -/
def followAbove : List String → Found
  | [] => .directory []
  | name :: rest =>
    if name ∈ ["", ".", ".."] then followAbove rest
    else if maxNameSize < name.utf8ByteSize then .unreachable .tooLong
    else .missing

/-- What some names lead to from `location`. -/
def follow (t : FileTree) (location : List String) : List String → Found
  | [] => t.at? location
  | name :: rest =>
    match t.at? location with
    | .file _ => .unreachable .throughFile
    | .directory _ =>
      if name = "" ∨ name = "." then follow t location rest
      else if name = ".." then
        if location = [] then followAbove rest else follow t location.dropLast rest
      else if maxNameSize < name.utf8ByteSize then .unreachable .tooLong
      else follow t (location ++ [name]) rest
    | found => found

/-- What is at a path. -/
def find (t : FileTree) : Files := fun path =>
  if path.contains '\x00' then .unreachable .nulCharacter
  else if path.isEmpty then .missing
  else if maxPathSize < path.utf8ByteSize then .unreachable .tooLong
  else if path.startsWith "/" then followAbove (names path)
  else t.follow [] (names path)

end FileTree

end Wiring
