import SkillLint.CommandLine

/-!
# What a run looks at

The places of a file system that a run can look at, so that only these have to be known before it. They depend on what is
known already: the files that a document refers to are known only with the document. So the survey is repeated with what
has been found.
-/

namespace SkillLint.CommandLine

/-- Paths that a run looks at. -/
structure Survey where
  /-- Files whose content counts. -/
  documents : List Path := []
  /-- Paths of which only matters what they lead to. -/
  marks : List Path := []
  /-- Directories that count with everything below them. -/
  trees : List Path := []
deriving DecidableEq, Repr

/-- The paths of two surveys. -/
def Survey.append (s₁ s₂ : Survey) : Survey :=
  ⟨s₁.documents ++ s₂.documents, s₁.marks ++ s₂.marks, s₁.trees ++ s₂.trees⟩

instance : Append Survey := ⟨Survey.append⟩

/-- How often the program surveys before a run. This is a choice: a survey each for what the request names, for what the
template holds, for the files of the new package, and for the files that its document refers to. Nothing is shown about
what one more survey would find. -/
def surveyRounds : Nat := 4

/-- The paths at which a configuration is looked for. -/
def surveyConfig (e : Environment) (explicit : Option Path) : Survey :=
  let s := sources e explicit
  { documents := s.explicit.toList ++ (s.named.map Path.mk).toList ++ s.user.toList }

/-- The paths that the validation of a package looks at. -/
def surveyPackage (t : FileTree) (root : Path) : Survey :=
  let targets :=
    match Package.openAt t root with
    | .error _ => []
    | .ok p =>
      match Extraction.ofText? p.content with
      | none => []
      | some e => (Markdown.references e.body).map fun r => root.join ⟨Check.filePart r.target⟩
  { documents := [root.child documentName], marks := root :: targets }

/-- Whether a segment of a path has a meaning of its own in patterns. -/
def hasWildcard (segment : String) : Bool :=
  segment.toList.any fun c => c == '*' || c == '?' || c == '['

/-- The part of a path before the first segment that is a pattern. -/
def patternBase (p : Path) : Path :=
  let kept := p.segments.takeWhile fun s => !hasWildcard s
  if kept.isEmpty then ⟨"."⟩ else if kept = [""] then ⟨"/"⟩ else Path.ofNames kept

/-- The paths that a template is looked for at. -/
def surveyTemplate (argument : String) : Survey :=
  if argument ∈ builtinTemplates then {}
  else
    let path : Path := ⟨argument⟩
    { documents := [path.child documentName], marks := [path], trees := [patternBase path] }

/-- The paths that the creation of a package looks at. -/
def surveyCreation (e : Environment) (t : FileTree) (c : Creation) : Survey :=
  surveyTemplate (c.template.getD "basic") ++ surveyConfig e none ++
    match c.scaffold? t with
    | .error _ => {}
    | .ok r =>
      let files :=
        match r.template.files t with
        | .error _ => []
        | .ok files => files.map fun file => r.target.join file.path
      let package :=
        match r.run t with
        | (made, .ok target) => surveyPackage made target
        | (_, .error _) => {}
      { marks := r.target :: files } ++ package

/-- The paths that a request looks at. -/
def Request.survey (e : Environment) (t : FileTree) : Request → Survey
  | validate v => surveyConfig e v.config ++ (v.root.map (surveyPackage t)).getD {}
  | create c => surveyCreation e t c
  | complete _ | help _ | version | refuse _ => {}

end SkillLint.CommandLine
