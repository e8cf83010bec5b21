import SkillLint.Proofs.Json.RoundTrip
import SkillLint.Render

/-!
# Reports are read back

A JSON object tells of a report what its members say, in whatever order they stand (`Told.ofJson?`). The object that a report is
rendered as tells the report itself, and with it how many of its findings are errors and warnings. So nothing of a report is
lost, whatever characters its texts have (`read_report`).
-/

namespace SkillLint.Render

/-! ## What an object tells -/

/-- The members of an object in which no key stands twice. -/
def membersOf? : Json → Option (List (String × Json))
  | .object members => if (members.map Prod.fst).Nodup then some members else none
  | _ => none

/-- The member under a key. -/
def member? {α : Type} (read? : Json → Option α) (key : String) (members : List (String × Json)) : Option α := do
  read? (← List.lookup key members)

/-- A text. -/
def textOf? : Json → Option String
  | .text s => some s
  | _ => none

/-- A number. -/
def numberOf? : Json → Option Nat
  | .number n => some n
  | _ => none

/-- A truth value. -/
def boolOf? : Json → Option Bool
  | .bool b => some b
  | _ => none

/-- The items of a list, each read in the same way. -/
def listOf? {α : Type} (read? : Json → Option α) : Json → Option (List α)
  | .list items => items.mapM read?
  | _ => none

/-- A severity, from the word for it. -/
def severityOf? : Json → Option Severity
  | .text word => if word = "error" then some .error else if word = "warning" then some .warning else none
  | _ => none

/-- A location: an object with one member, the field or the line. -/
def locationOf? (value : Json) : Option Location := do
  match ← membersOf? value with
  | [(key, value)] =>
    if key = "field" then return .field (← textOf? value)
    else if key = "line" then return .line (← numberOf? value)
    else none
  | _ => none

/-- A finding: the location is the one member that may be missing. -/
def findingOf? (value : Json) : Option Finding := do
  let members ← membersOf? value
  let location ←
    match List.lookup "location" members with
    | some value => some <$> locationOf? value
    | none => some none
  return ⟨← member? severityOf? "severity" members, ← member? textOf? "rule" members, ← member? textOf? "message" members,
    location⟩

/-- What a JSON object tells of a report. -/
structure Told where
  package : String
  passed : Bool
  clean : Bool
  errors : Nat
  warnings : Nat
  report : Report

/-- What a value tells of a report. -/
def Told.ofJson? (value : Json) : Option Told := do
  let members ← membersOf? value
  return ⟨← member? textOf? "package" members, ← member? boolOf? "passed" members, ← member? boolOf? "clean" members,
    ← member? numberOf? "errors" members, ← member? numberOf? "warnings" members,
    ⟨← member? (listOf? textOf?) "checks" members, ← member? (listOf? findingOf?) "diagnostics" members⟩⟩

/-- What a text in JSON notation tells of a report. -/
def Told.ofText? (content : String) : Option Told := do
  Told.ofJson? (← Json.ofText? content)

/-! ## What is written is told -/

/-- A list that has been written item by item is read back. -/
theorem listOf?_map {α : Type} {write : α → Json} {read? : Json → Option α} (h : ∀ a, read? (write a) = some a) (as : List α) :
    listOf? read? (.list (as.map write)) = some as := by
  rw [listOf?]
  induction as with
  | nil => rfl
  | cons a as ih =>
    rw [List.map_cons, List.mapM_cons, h, ih]
    rfl

theorem severityOf?_word (severity : Severity) : severityOf? (.text (severityWord severity)) = some severity := by
  cases severity <;> rfl

theorem locationOf?_locationJson (location : Location) : locationOf? (locationJson location) = some location := by
  cases location <;> rfl

/-- A finding is read back. -/
theorem findingOf?_findingJson (f : Finding) : findingOf? (findingJson f) = some f := by
  obtain ⟨severity, rule, message, location⟩ := f
  have hseverity := severityOf?_word severity
  cases location with
  | none =>
    simp [findingOf?, findingJson, membersOf?, member?, List.lookup_cons, hseverity, textOf?]
  | some location =>
    have hlocation := locationOf?_locationJson location
    simp [findingOf?, findingJson, membersOf?, member?, List.lookup_cons, hseverity, hlocation, textOf?]

/-- What the object that a report is rendered as tells. -/
theorem ofJson?_reportJson (root : Path) (r : Report) :
    Told.ofJson? (reportJson root r) = some ⟨root.text, r.passed, r.clean, r.errors.length, r.warnings.length, r⟩ := by
  have htext : ∀ s : String, textOf? (.text s) = some s := fun _ => rfl
  have hchecks : listOf? textOf? (.list (r.checks.map .text)) = some r.checks := listOf?_map htext _
  have hfindings : listOf? findingOf? (.list (r.findings.map findingJson)) = some r.findings :=
    listOf?_map findingOf?_findingJson _
  simp [Told.ofJson?, reportJson, membersOf?, member?, List.lookup_cons, hchecks, hfindings, textOf?, boolOf?, numberOf?]

/-! ## Nothing is lost -/

/-- An object that has a member is written between braces. -/
theorem exists_print_object (depth : Nat) (member : String × Json) (more : List (String × Json)) :
    ∃ inner, Json.print depth (.object (member :: more)) = '{' :: (inner ++ ['}']) := by
  rw [Json.print_object_cons, Json.printMore]
  exact ⟨Json.newLine (depth + 1) ++ Json.printMember (depth + 1) member ++
    more.flatMap (fun item => ',' :: (Json.newLine (depth + 1) ++ Json.printMember (depth + 1) item)) ++ Json.newLine depth,
    by simp⟩

/-- What a report that is rendered as JSON tells. -/
theorem ofText?_report (quiet color : Bool) (root : Path) (r : Report) : Told.ofText? (report ⟨.json, quiet, color⟩ root r) =
    some ⟨root.text, r.passed, r.clean, r.errors.length, r.warnings.length, r⟩ := by
  have hread : Json.ofText? (report ⟨.json, quiet, color⟩ root r) = some (reportJson root r) :=
    Json.ofText?_document (reportJson root r)
  rw [Told.ofText?, hread]
  exact ofJson?_reportJson root r

/-- Reports that are rendered alike are the same report on the same package. -/
theorem report_json_injective {quiet quiet' color color' : Bool} {root root' : Path} {r r' : Report}
    (h : report ⟨.json, quiet', color'⟩ root' r' = report ⟨.json, quiet, color⟩ root r) : root' = root ∧ r' = r := by
  have htold := ofText?_report quiet' color' root' r'
  rw [h, ofText?_report] at htold
  simp only [Option.some.injEq, Told.mk.injEq] at htold
  obtain ⟨hroot, -, -, -, -, hreport⟩ := htold
  exact ⟨congrArg Path.mk hroot.symm, hreport.symm⟩

/-- A report that is rendered as JSON is a single object with one line feed behind it, and the object tells all of the report: the
text of the path, the checks, the findings in their order, and how many of these are errors and warnings. So different reports,
and reports on different packages, are never rendered alike. -/
theorem read_report (quiet color : Bool) (root : Path) (r : Report) :
    ∃ inner told, report ⟨.json, quiet, color⟩ root r = "\x7b" ++ inner ++ "\x7d\n" ∧
      Told.ofText? (report ⟨.json, quiet, color⟩ root r) = some told ∧
      told.package = root.text ∧ told.report.checks = r.checks ∧ told.report.findings = r.findings ∧
      told.errors = (told.report.findings.filter fun f => f.severity = .error).length ∧
      told.warnings = (told.report.findings.filter fun f => f.severity = .warning).length ∧
      (told.passed = true ↔ told.errors = 0) ∧ (told.clean = true ↔ told.report.findings = []) ∧
      ∀ quiet' color' root' r', report ⟨.json, quiet', color'⟩ root' r' = report ⟨.json, quiet, color⟩ root r →
        root' = root ∧ r' = r := by
  obtain ⟨inner, hprint⟩ := exists_print_object 0 ("checks", .list (r.checks.map .text)) _
  refine ⟨String.ofList inner, _, ?_, ofText?_report quiet color root r, rfl, rfl, rfl, ?_, ?_, ?_, ?_, ?_⟩
  · have hdocument : report ⟨.json, quiet, color⟩ root r = String.ofList (Json.print 0 (reportJson root r) ++ ['\n']) := rfl
    rw [hdocument, reportJson, hprint, ← String.toList_inj]
    simp
  · refine congrArg List.length (List.filter_congr fun f _ => ?_)
    rw [Bool.eq_iff_iff, f.isError_iff, decide_eq_true_iff]
  · refine congrArg List.length (List.filter_congr fun f _ => ?_)
    rw [Bool.eq_iff_iff, Bool.not_eq_true', f.not_isError_iff, decide_eq_true_iff]
  · simp [Report.passed]
  · simp [Report.clean]
  · intro quiet' color' root' r' h
    exact report_json_injective h

end SkillLint.Render
