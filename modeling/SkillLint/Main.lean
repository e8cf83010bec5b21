import SkillLint.CommandLine.Survey

/-!
# The program

Looks at the part of the file system that the arguments concern, runs the command line on it, writes what has changed,
prints, and ends with the exit status. Symbolic links count as what they lead to.
-/

namespace SkillLint.Main

open CommandLine

/-- The path of a place. -/
def pathOf (place : Place) : String :=
  "/" ++ "/".intercalate place

/-- What a path leads to; the content of a file is read on request only. -/
def inspect? (path : String) (content : Bool) : IO (Option Node) := do
  let file := (← IO.currentDir) / path
  if ← file.isDir then return some .directory
  if !(← file.pathExists) then return none
  return some (.file (← if content then IO.FS.readBinFile file else pure .empty))

/-- The tree with what lies at a place, unless it is known. -/
def learn (t : FileTree) (place : Place) (content : Bool) : IO FileTree := do
  if (t.node? place).isSome then return t
  match ← inspect? (pathOf place) content with
  | some node => return t.put place node
  | none => return t

/-- The tree with what lies along some segments from a place on. -/
def follow (t : FileTree) (content : Bool) (place : Place) : List String → IO FileTree
  | [] => return t
  | segment :: rest => do
    let next :=
      if segment = "" ∨ segment = "." then place
      else if segment = ".." then place.dropLast
      else place ++ [segment]
    follow (← learn t next (content && rest.isEmpty)) content next rest

/-- The tree with what lies along a path. -/
def learnPath (content : Bool) (t : FileTree) (path : Path) : IO FileTree :=
  if (FileTree.refusal? path).isSome then return t else follow t content (t.start path) path.segments

/-- The tree with everything below a place. -/
partial def learnBelow (t : FileTree) (place : Place) : IO FileTree := do
  let directory := (← IO.currentDir) / pathOf place
  if !(← directory.isDir) then return t
  (← directory.readDir).foldlM
    (fun t entry => do learnBelow (← learn t (place ++ [entry.fileName]) true) (place ++ [entry.fileName])) t

/-- The tree with everything below the directory that a path leads to. -/
def learnTree (t : FileTree) (path : Path) : IO FileTree := do
  let t ← learnPath true t path
  match t.locate path with
  | .ok place => learnBelow t place
  | .error _ => return t

/-- The tree with what a request looks at, surveyed the given number of times. -/
def learnRequest (e : Environment) (request : Request) : Nat → FileTree → IO FileTree
  | 0, t => return t
  | rounds + 1, t => do
    let survey := request.survey e t
    let t ← survey.documents.foldlM (learnPath true) t
    let t ← survey.trees.foldlM learnTree t
    let t ← survey.marks.foldlM (learnPath false) t
    learnRequest e request rounds t

/-- Writes a node that is new in a tree. -/
def writeNode (place : Place) : Node → IO Unit
  | .directory => IO.FS.createDirAll (pathOf place)
  | .file content => IO.FS.writeBinFile (pathOf place) content

/-- Writes what a run has changed, in the order of the changes. -/
def writeChanges (before after : FileTree) : IO Unit :=
  after.nodes.reverse.forM fun (place, node) =>
    if before.node? place = some node then pure () else writeNode place node

/-- The environment variables that a run looks at. -/
def readEnvironment : IO Environment := do
  let values ← watchedVariables.mapM fun name => return (name, ← IO.getEnv name)
  return fun name => (values.lookup name).join

/-- The tree in which only the working directory is known. -/
def startingTree : IO FileTree := do
  let here := (← IO.currentDir).toString.splitOn "/" |>.filter (· != "")
  follow ⟨[], here⟩ false [] here

end SkillLint.Main

/-- Runs the program on the arguments of the command line. -/
def main (arguments : List String) : IO UInt32 := do
  let e ← SkillLint.Main.readEnvironment
  let request := SkillLint.CommandLine.Request.ofArguments arguments
  let start ← SkillLint.Main.startingTree
  let known ← SkillLint.Main.learnRequest e request SkillLint.CommandLine.surveyRounds start
  let (made, outcome) := request.run .bare e known
  SkillLint.Main.writeChanges known made
  IO.print outcome.stdout
  IO.eprint outcome.stderr
  return UInt32.ofNat outcome.code
