import SkillLint.Path

/-!
# File trees

A file tree is the part of a file system that a run can see: which places hold a directory or a file, and the directory
that relative paths start from. A place is the list of names that lead to it from the root, which is always a directory.
A path is walked segment by segment; every place on the way must be a directory, and two dots lead to the one above,
where above the root is the root itself.
-/

namespace SkillLint

/-!
## Why a file operation fails

Each cause has the text under which the operating system knows it, and two more arise before it is asked or after it has
answered: a name with a NUL character is never passed on, and what was read may not be text.
-/

/-- The cause of a failed file operation. -/
inductive FileError where
  | notFound
  | alreadyExists
  | notDirectory
  | isDirectory
  | nameTooLong
  /-- The path holds a NUL character. -/
  | nulInName
  /-- The content is not UTF-8. -/
  | notText
deriving DecidableEq, Repr

/-- A cause as it is told to the user. -/
def FileError.message : FileError → String
  | .notFound => "No such file or directory (os error 2)"
  | .alreadyExists => "File exists (os error 17)"
  | .notDirectory => "Not a directory (os error 20)"
  | .isDirectory => "Is a directory (os error 21)"
  | .nameTooLong => "File name too long (os error 36)"
  | .nulInName => "file name contained an unexpected NUL byte"
  | .notText => "stream did not contain valid UTF-8"

/-! ## Places and what they hold -/

/-- The names that lead to a place from the root. -/
abbrev Place := List String

/-- What a place holds. -/
inductive Node where
  | directory
  | file (content : ByteArray)

instance : DecidableEq Node
  | .directory, .directory => isTrue rfl
  | .directory, .file _ => isFalse nofun
  | .file _, .directory => isFalse nofun
  | .file a, .file b =>
    match ByteArray.instDecidableEq a b with
    | isTrue h => isTrue (h ▸ rfl)
    | isFalse h => isFalse fun e => h (Node.file.inj e)

/-- A file tree as it is seen from a working directory. -/
structure FileTree where
  /-- What each place other than the root holds; the first node of a place counts. -/
  nodes : List (Place × Node)
  /-- The directory that relative paths start from. -/
  here : Place

namespace FileTree

/-- The greatest number of bytes in the name of an entry. -/
def nameLimit : Nat := 255

/-- The greatest number of bytes in a path. -/
def pathLimit : Nat := 4095

/-- What a place holds, if it holds anything. -/
def node? (t : FileTree) : Place → Option Node
  | [] => some .directory
  | name :: rest => t.nodes.lookup (name :: rest)

/-- The tree in which a place holds the given node. -/
def put (t : FileTree) (place : Place) (node : Node) : FileTree :=
  { t with nodes := (place, node) :: t.nodes.filter fun entry => entry.1 != place }

/-- The place that a walk from a place along some segments ends at. -/
def walk (t : FileTree) (place : Place) : List String → Except FileError Place
  | [] => .ok place
  | segment :: rest =>
    match t.node? place with
    | none => .error .notFound
    | some (.file _) => .error .notDirectory
    | some .directory =>
      if segment = "" ∨ segment = "." then t.walk place rest
      else if segment = ".." then t.walk place.dropLast rest
      else if nameLimit < segment.utf8ByteSize then .error .nameTooLong
      else if (t.node? (place ++ [segment])).isSome then t.walk (place ++ [segment]) rest
      else .error .notFound

/-- The place that a path starts from. -/
def start (t : FileTree) (p : Path) : Place :=
  if p.isAbsolute then [] else t.here

/-- Why a path is refused before it is walked, if it is. -/
def refusal? (p : Path) : Option FileError :=
  if '\x00' ∈ p.text.toList then some .nulInName
  else if p.text = "" then some .notFound
  else if pathLimit < p.text.utf8ByteSize then some .nameTooLong
  else none

/-- The place that a path leads to. -/
def locate (t : FileTree) (p : Path) : Except FileError Place :=
  match refusal? p with
  | some e => .error e
  | none => t.walk (t.start p) p.segments

/-- What a path leads to. -/
def stat (t : FileTree) (p : Path) : Except FileError Node :=
  match t.locate p with
  | .error e => .error e
  | .ok place =>
    match t.node? place with
    | some node => .ok node
    | none => .error .notFound

/-- Whether a path leads to something. -/
def contains (t : FileTree) (p : Path) : Bool :=
  match t.stat p with
  | .ok _ => true
  | .error _ => false

/-- Whether a path leads to a directory. -/
def isDirectory (t : FileTree) (p : Path) : Bool :=
  match t.stat p with
  | .ok .directory => true
  | _ => false

/-- Whether a path leads to a file. -/
def isFile (t : FileTree) (p : Path) : Bool :=
  match t.stat p with
  | .ok (.file _) => true
  | _ => false

/-- The content of the file that a path leads to. -/
def read (t : FileTree) (p : Path) : Except FileError ByteArray :=
  match t.stat p with
  | .ok (.file content) => .ok content
  | .ok .directory => .error .isDirectory
  | .error e => .error e

/-- The content of the file that a path leads to, as text. -/
def readText (t : FileTree) (p : Path) : Except FileError String :=
  match t.read p with
  | .error e => .error e
  | .ok content =>
    match String.fromUTF8? content with
    | some text => .ok text
    | none => .error .notText

/-- Whether the first names come before the second in a listing: by their first difference, a shorter list before its
extensions. -/
def listsBefore (p q : Place) : Bool :=
  !decide (q < p)

/-- What lies below a place: the names that lead there from the place, and the node. A directory comes before what it
holds, and entries of one directory come in the order of their names. -/
def below (t : FileTree) (place : Place) : List (Place × Node) :=
  ((t.nodes.filter fun entry => place.isPrefixOf entry.1 && place.length < entry.1.length).map fun entry =>
    (entry.1.drop place.length, entry.2)).mergeSort fun a b => listsBefore a.1 b.1

theorem lookup_filter_ne {place q : Place} (h : q ≠ place) (nodes : List (Place × Node)) :
    (nodes.filter fun entry => entry.1 != place).lookup q = nodes.lookup q := by
  induction nodes with
  | nil => rfl
  | cons entry more ih =>
    by_cases he : entry.1 = place
    · have hq : (q == entry.1) = false := beq_eq_false_iff_ne.2 (he ▸ h)
      rw [List.filter_cons_of_neg (by simp [he]), List.lookup_cons, hq, ih]
    · rw [List.filter_cons_of_pos (by simpa using he), List.lookup_cons, List.lookup_cons, ih]

/-- What a place holds after a node is put somewhere. -/
theorem node?_put (t : FileTree) (place q : Place) (node : Node) (h : place ≠ []) :
    (t.put place node).node? q = if q = place then some node else t.node? q := by
  cases q with
  | nil => rw [if_neg (Ne.symm h)]; rfl
  | cons name rest =>
    by_cases hq : name :: rest = place
    · rw [if_pos hq, node?, put, hq, List.lookup_cons, beq_self_eq_true]
    · rw [if_neg hq, node?, node?, put, List.lookup_cons, beq_eq_false_iff_ne.2 hq, lookup_filter_ne hq]

/-- A place other than the root that is written to is found again, and no other place changes. -/
theorem node?_put_self (t : FileTree) {place : Place} (node : Node) (h : place ≠ []) :
    (t.put place node).node? place = some node := by
  rw [node?_put t place place node h, if_pos rfl]

end FileTree

end SkillLint
