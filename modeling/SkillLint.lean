import SkillLint.Check
import SkillLint.CommandLine
import SkillLint.Config.Lookup
import SkillLint.Header
import SkillLint.Main
import SkillLint.Package
import SkillLint.Proofs.Check.BodySize
import SkillLint.Proofs.Check.Fields
import SkillLint.Proofs.Check.MissingFiles
import SkillLint.Proofs.Check.PathSeparator
import SkillLint.Proofs.Check.Person
import SkillLint.Proofs.Check.References
import SkillLint.Proofs.Check.SeparatorWord
import SkillLint.Proofs.Check.Settings
import SkillLint.Proofs.Check.TimeSensitive
import SkillLint.Proofs.CommandLine.Creation
import SkillLint.Proofs.CommandLine.Summary
import SkillLint.Proofs.CommandLine.Validation
import SkillLint.Proofs.Config.Independence
import SkillLint.Proofs.Config.Lookup
import SkillLint.Proofs.Config.Tightening
import SkillLint.Proofs.Containment
import SkillLint.Proofs.Continued
import SkillLint.Proofs.Distinct
import SkillLint.Proofs.Document
import SkillLint.Proofs.Fault
import SkillLint.Proofs.Header.Entries
import SkillLint.Proofs.Header.Meaning
import SkillLint.Proofs.Header.Reading
import SkillLint.Proofs.Header.RoundTrip
import SkillLint.Proofs.Header.ToolPieces
import SkillLint.Proofs.Header.ToolTokens
import SkillLint.Proofs.Header.Written
import SkillLint.Proofs.Json.Reader
import SkillLint.Proofs.Json.RoundTrip
import SkillLint.Proofs.LineEnds
import SkillLint.Proofs.Markdown.Continued
import SkillLint.Proofs.Markdown.Link
import SkillLint.Proofs.Markdown.Pattern
import SkillLint.Proofs.Markdown.References
import SkillLint.Proofs.Named
import SkillLint.Proofs.Order
import SkillLint.Proofs.Path
import SkillLint.Proofs.Presence
import SkillLint.Proofs.Render.Blocks
import SkillLint.Proofs.Render.Reading
import SkillLint.Proofs.Render.Style
import SkillLint.Proofs.Renumbering
import SkillLint.Proofs.Reordering
import SkillLint.Proofs.Report
import SkillLint.Proofs.Rule
import SkillLint.Proofs.RuleTable
import SkillLint.Proofs.Scaffold.Accepted
import SkillLint.Proofs.Scaffold.Confined
import SkillLint.Proofs.Scaffold.Copy
import SkillLint.Proofs.Scaffold.Document
import SkillLint.Proofs.Scaffold.Passing
import SkillLint.Proofs.Scaffold.Reading
import SkillLint.Proofs.Scaffold.Unforced
import SkillLint.Proofs.Scaffold.Writing
import SkillLint.Proofs.Separation
import SkillLint.Proofs.Template.Builtin
import SkillLint.Proofs.Template.Directory
import SkillLint.Proofs.Template.Substitution
import SkillLint.Proofs.Template.Title
import SkillLint.Proofs.Text.Continued
import SkillLint.Proofs.Text.Lines
import SkillLint.Proofs.Text.Occurrence
import SkillLint.Proofs.Text.Position
import SkillLint.Proofs.Text.Search
import SkillLint.Proofs.Text.Trim
import SkillLint.Proofs.Tree.Create
import SkillLint.Proofs.Tree.Glob
import SkillLint.Proofs.Tree.Place
import SkillLint.Proofs.Tree.Walk
import SkillLint.Proofs.Tree.Write
import SkillLint.Proofs.Verdict
import SkillLint.Proofs.Wording.Pronoun
import SkillLint.Proofs.Wording.TimeAnchor
import SkillLint.Render
import SkillLint.Report
import SkillLint.Scaffold
import SkillLint.Template
import SkillLint.Tree
import SkillLint.Yaml.Document
