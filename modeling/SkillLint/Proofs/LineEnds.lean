import SkillLint.Config.Lookup
import SkillLint.Package

/-!
# Line ends

Documents and configuration files are read line by line, so two texts with the same lines are read alike. A carriage return before
every line feed leaves the lines of a text as they are, and so does a line feed behind the last one.
-/

namespace SkillLint

namespace Text

/-- A text with a carriage return before every line feed. -/
def withReturns (s : List Char) : List Char :=
  s.flatMap fun c => if c = '\n' then ['\r', '\n'] else [c]

theorem withReturns_cons_of_ne {c : Char} (h : c ≠ '\n') (s : List Char) : withReturns (c :: s) = c :: withReturns s := by
  simp [withReturns, h]

theorem withReturns_newline (s : List Char) : withReturns ('\n' :: s) = '\r' :: '\n' :: withReturns s := by
  simp [withReturns]

/-- With a carriage return before every line feed, a text that had none has the lines that it had. -/
theorem lines_withReturns {s : List Char} (h : '\r' ∉ s) : lines (withReturns s) = lines s := by
  induction s with
  | nil => rfl
  | cons c s ih =>
    have hc : c ≠ '\r' := fun e => h (e ▸ List.mem_cons_self)
    have hs : '\r' ∉ s := fun e => h (List.mem_cons_of_mem _ e)
    by_cases hn : c = '\n'
    · rw [hn, withReturns_newline, lines_return_newline, lines_newline, ih hs]
    · rw [withReturns_cons_of_ne hn, lines, lines, if_neg hn, if_neg hn]
      simp only [hc, false_and, if_false, ih hs]

/-- A line feed behind the last line of a text ends that line and begins no other, unless the line has ended before, or the line
feed takes a carriage return away. -/
theorem lines_append_final {s : List Char} (hs : s ≠ []) (hn : s.getLast? ≠ some '\n') (hr : s.getLast? ≠ some '\r') :
    lines (s ++ ['\n']) = lines s := by
  induction s with
  | nil => exact absurd rfl hs
  | cons c s ih =>
    cases s with
    | nil =>
      have hc : c ≠ '\n' := fun e => hn (e ▸ rfl)
      have hc' : c ≠ '\r' := fun e => hr (e ▸ rfl)
      simp [lines, hc, hc', consLine]
    | cons d s =>
      rw [List.getLast?_cons_cons] at hn hr
      rw [List.cons_append, lines, lines, ih (List.cons_ne_nil d s) hn hr]
      rfl

/-- A carriage return at the end of a text is taken away by a line feed behind it. -/
example : lines ("a\r".toList ++ ['\n']) = ["a".toList] ∧ lines "a\r".toList = ["a\r".toList] := by
  decide

end Text

/-! ## Texts that are read alike -/

/-- Two texts are read alike, as documents, as packages and as configuration files. -/
structure ReadAlike (content content' : String) : Prop where
  /-- They are cut into the same header and body. -/
  document : Document.ofText? content' = Document.ofText? content
  /-- The same is read from their headers, and the body and its first line are the same. -/
  extraction : Extraction.ofText? content' = Extraction.ofText? content
  /-- They hold the same settings, or the same is wrong with them. -/
  config : Config.ofText content' = Config.ofText content
  /-- As the document of a package they give the same report or the same error. -/
  validate : ∀ (t : FileTree) (root : Path) (config : Config),
    Package.validate t ⟨root, content'⟩ config = Package.validate t ⟨root, content⟩ config

/-- Texts with the same lines are read alike. -/
theorem ReadAlike.of_lines {content content' : String} (h : Text.lines content'.toList = Text.lines content.toList) :
    ReadAlike content content' := by
  have hdocument : Document.ofText? content' = Document.ofText? content := by
    rw [Document.ofText?, h, Document.ofText?]
  have hextraction : Extraction.ofText? content' = Extraction.ofText? content := by
    rw [Extraction.ofText?, hdocument, Extraction.ofText?]
  refine ⟨hdocument, hextraction, ?_, fun t root config => ?_⟩
  · rw [Config.ofText, hdocument, Config.ofText]
  · rw [Package.validate, Package.validate, validateText, validateText, hextraction]
    rfl

/-- A text without carriage returns is read alike with one before every line feed. A text that does not end in a line feed is read
alike with one more at its end, unless there is a carriage return before it. -/
theorem readAlike_lineEnds :
    (∀ content : String, '\r' ∉ content.toList →
      ReadAlike content (String.ofList (Text.withReturns content.toList))) ∧
    ∀ content : String, content ≠ "" → content.toList.getLast? ≠ some '\n' → content.toList.getLast? ≠ some '\r' →
      ReadAlike content (content ++ "\n") := by
  refine ⟨fun content hreturn => ReadAlike.of_lines ?_, fun content hne hnewline hreturn => ReadAlike.of_lines ?_⟩
  · rw [String.toList_ofList, Text.lines_withReturns hreturn]
  · have hne : content.toList ≠ [] := fun e => hne (String.toList_eq_nil_iff.1 e)
    rw [String.toList_append]
    exact Text.lines_append_final hne hnewline hreturn

/-- A document with a quoted value, a reference at the end of a line and settings below its header key: it is read alike with a
carriage return before each of its line feeds, and with one line feed more. -/
theorem readAlike_lineEnds_quoted :
    let content := "---\nname: \"pdf\"\nlint:\n  disable: [body]\n---\nSee [x](a.md)\n\nbefore 2020"
    let returns := "---\r\nname: \"pdf\"\r\nlint:\r\n  disable: [body]\r\n---\r\nSee [x](a.md)\r\n\r\nbefore 2020"
    ReadAlike content returns ∧ ReadAlike content (content ++ "\n") ∧
      (Extraction.ofText? returns).map (fun e => e.fields.name) = some (some "pdf") ∧
      (Package.validate ⟨[], []⟩ ⟨⟨"a"⟩, returns⟩ {}).toOption.map (fun r => r.findings.map fun f => (f.rule, f.location)) =
        some [("header/unknown-key", some (.line 3)), ("header/missing-description", some (.field "description")),
          ("body/time-sensitive", some (.line 8)), ("references/missing", some (.line 6))] := by
  intro content returns
  obtain ⟨hreturns, hfinal⟩ := readAlike_lineEnds
  have hwritten : String.ofList (Text.withReturns content.toList) = returns := by decide
  have halike := hreturns content (by decide)
  rw [hwritten] at halike
  exact ⟨halike, hfinal content (by decide) (by decide) (by decide), by decide,
    by decide⟩

end SkillLint
