/-!
# Paths

A path is a text in which slashes separate segments. Its components leave out empty segments and dots, except for a dot
at the front; two paths with the same components lead to the same place wherever both lead somewhere. The text is kept
as it was written, since messages show it.
-/

namespace SkillLint

/-- A path, as it is written. -/
structure Path where
  text : String
deriving DecidableEq, Repr, Inhabited

namespace Path

/-- One component of a path. -/
inductive Component where
  /-- The root of the tree, at the front of an absolute path. -/
  | root
  /-- The dot at the front of a path. -/
  | here
  /-- Two dots: the directory above. -/
  | up
  /-- The name of an entry of a directory. -/
  | name (text : String)
deriving DecidableEq, Repr

/-- The texts between the slashes of a path. -/
def segments (p : Path) : List String :=
  (p.text.toList.splitOn '/').map String.ofList

/-- Whether a path starts at the root. -/
def isAbsolute (p : Path) : Bool :=
  p.text.toList.head? == some '/'

/-- The component that a segment behind the first one stands for. -/
def Component.ofSegment? (segment : String) : Option Component :=
  if segment = "" ∨ segment = "." then none
  else if segment = ".." then some .up
  else some (.name segment)

/-- The components of a path. -/
def components (p : Path) : List Component :=
  let start := if p.isAbsolute then [.root] else if p.segments.head? = some "." then [.here] else []
  start ++ p.segments.filterMap Component.ofSegment?

/-- A path followed by another one, which replaces it when it is absolute. -/
def join (p q : Path) : Path :=
  if q.isAbsolute then q
  else if p.text = "" ∨ p.text.toList.getLast? = some '/' then ⟨p.text ++ q.text⟩
  else ⟨p.text ++ "/" ++ q.text⟩

/-- The path of an entry of the directory that a path leads to. -/
def child (p : Path) (name : String) : Path :=
  p.join ⟨name⟩

/-- Names with slashes between them. -/
def ofNames (names : List String) : Path :=
  ⟨"/".intercalate names⟩

/-- Segments without the trailing ones that are empty or a dot. -/
def dropIdle (segments : List String) : List String :=
  (segments.reverse.dropWhile fun s => s == "" || s == ".").reverse

/-- The path without its last component; none for the root and for the empty path. -/
def parent? (p : Path) : Option Path :=
  match p.segments with
  | [] => none
  | first :: rest =>
    match dropIdle rest with
    | [] => if first = "" then none else some ⟨""⟩
    | kept =>
      let above := dropIdle kept.dropLast
      if above = [] ∧ first = "" then some ⟨"/"⟩ else some (ofNames (first :: above))

/-- A path and the paths above it, from the path itself up to the root or to the last path that is not empty. -/
def lineage (p : Path) : List Path :=
  go p.text.length p
where
  /-- At most `n` paths: a path above another one has a shorter text. -/
  go : Nat → Path → List Path
    | 0, p => if p.text = "" then [] else [p]
    | n + 1, p =>
      if p.text = "" then []
      else
        match p.parent? with
        | none => [p]
        | some above => p :: go n above

/-- The components of `p` behind those of `base`, if `p` starts with all of them. -/
def below? (p base : Path) : Option (List Component) :=
  if base.components.isPrefixOf p.components then some (p.components.drop base.components.length) else none

/-- A component as it is written. -/
def Component.text : Component → String
  | .root => "/"
  | .here => "."
  | .up => ".."
  | .name text => text

/-- The place of a component in the order of components, in which all names share one. -/
def Component.rank : Component → Nat
  | .root => 0
  | .here => 1
  | .up => 2
  | .name _ => 3

/-- Names come behind all other components, and among them their texts decide. -/
instance : Ord Component :=
  ⟨compareLex (compareOn Component.rank) (compareOn Component.text)⟩

/-- The order of paths is that of their components: the first ones that differ decide. -/
instance : Ord Path :=
  ⟨compareOn components⟩

/-- Whether a walk along some components, begun `depth` levels below a directory, leaves that directory at some point:
by going to the root, or by going up more often than down. The depth is counted without a bound. -/
def leaves (depth : Nat) : List Component → Bool
  | [] => false
  | .root :: _ => true
  | .here :: rest => leaves depth rest
  | .up :: rest => depth == 0 || leaves (depth - 1) rest
  | .name _ :: rest => leaves (depth + 1) rest

/-- Whether a path leads out of the directory that it is taken from. -/
def escapes (p : Path) : Bool :=
  leaves 0 p.components

end Path

end SkillLint
