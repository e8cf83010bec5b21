import SkillLint.Tree

/-!
# Changing a file tree

A directory can be created where nothing is, and a file can be written where no directory is; in both cases the place
must lie in a directory that exists. Creating a directory with the ones above it goes up the path until a directory can
be created or is found, and then down again, so that what has been created stays even when a later step fails.
-/

namespace SkillLint.FileTree

/-- A tree after an operation, and how the operation ended. -/
abbrev Attempt (ε α : Type) := FileTree × Except ε α

/-- Does an operation for one element after the other, up to the first for which it fails. -/
def attemptAll {ε α : Type} (step : FileTree → α → Attempt ε Unit) (t : FileTree) : List α → Attempt ε Unit
  | [] => (t, .ok ())
  | a :: more =>
    match step t a with
    | (made, .ok ()) => attemptAll step made more
    | (made, .error e) => (made, .error e)

/-- The segments of a path without the empty ones at its end. -/
def entrySegments (p : Path) : List String :=
  (p.segments.reverse.dropWhile fun s => s == "").reverse

/-- The directory and the name of the entry that a path would create. Dots name no new entry, and for them as for the
root the given error arises. -/
def locateEntry (t : FileTree) (p : Path) (dots : FileError) : Except FileError (Place × String) :=
  match refusal? p with
  | some e => .error e
  | none =>
    match (entrySegments p).getLast? with
    | none => .error dots
    | some name =>
      match t.walk (t.start p) (entrySegments p).dropLast with
      | .error e => .error e
      | .ok place =>
        match t.node? place with
        | none => .error .notFound
        | some (.file _) => .error .notDirectory
        | some .directory =>
          if name = "." ∨ name = ".." then .error dots
          else if nameLimit < name.utf8ByteSize then .error .nameTooLong
          else .ok (place, name)

/-- Creates the directory that a path names. -/
def createDirectory (t : FileTree) (p : Path) : Attempt FileError Unit :=
  match t.locateEntry p .alreadyExists with
  | .error e => (t, .error e)
  | .ok (place, name) =>
    if (t.node? (place ++ [name])).isSome then (t, .error .alreadyExists)
    else (t.put (place ++ [name]) .directory, .ok ())

/-- Creates the first of some paths as a directory, and before it, where it is missing, the paths behind it, each of
which is the parent of the one before. -/
def createLineage (t : FileTree) : List Path → Attempt FileError Unit
  | [] => (t, .ok ())
  | p :: above =>
    match t.createDirectory p with
    | (made, .ok ()) => (made, .ok ())
    | (_, .error .notFound) =>
      match t.createLineage above with
      | (made, .error e) => (made, .error e)
      | (made, .ok ()) =>
        match made.createDirectory p with
        | (last, .ok ()) => (last, .ok ())
        | (_, .error e) => if made.isDirectory p then (made, .ok ()) else (made, .error e)
    | (_, .error e) => if t.isDirectory p then (t, .ok ()) else (t, .error e)

/-- Creates the directory that a path names, with the directories above it that are missing. -/
def createDirectories (t : FileTree) (p : Path) : Attempt FileError Unit :=
  t.createLineage p.lineage

/-- Writes the file that a path names. -/
def writeFile (t : FileTree) (p : Path) (content : ByteArray) : Attempt FileError Unit :=
  match t.locateEntry p .isDirectory with
  | .error e => (t, .error e)
  | .ok (place, name) =>
    if p.text.toList.getLast? = some '/' then (t, .error .isDirectory)
    else
      match t.node? (place ++ [name]) with
      | some .directory => (t, .error .isDirectory)
      | _ => (t.put (place ++ [name]) (.file content), .ok ())

/-- The tree without a place and what lies below it. -/
def removeAt (t : FileTree) (place : Place) : FileTree :=
  { t with nodes := t.nodes.filter fun entry => !place.isPrefixOf entry.1 }

/-- Removes the file or the directory with its contents that a path leads to, and tells whether there was one. -/
def remove (t : FileTree) (p : Path) : FileTree × Bool :=
  match t.stat p, t.locate p with
  | .ok _, .ok place => (t.removeAt place, true)
  | _, _ => (t, false)

end SkillLint.FileTree
