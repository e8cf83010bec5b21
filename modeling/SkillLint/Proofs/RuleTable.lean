import SkillLint.Proofs.Named

/-!
# The published rules

What a report can show. The table lists the rules with the severity of their findings, what these are about, and how often a rule
can be found at most; every finding is of a listed rule. A missing field draws one error and no finding about its value, and an
empty value draws one finding and no other.
-/

namespace SkillLint

/-! ## The table -/

/-- A row of the table of rules. -/
structure Rule.Row where
  code : String
  severity : Severity
  /-- What the findings are about. -/
  subject : Rule.Subject
  /-- How many findings of the rule a report can have, if there is a limit. -/
  most : Option Nat
deriving DecidableEq, Repr

/-- The table of the rules. -/
def Rule.published : List Rule.Row :=
  [⟨"header/malformed-line", .warning, .line, none⟩,
    ⟨"header/duplicate-key", .warning, .line, none⟩,
    ⟨"header/unknown-key", .warning, .line, none⟩,
    ⟨"header/missing-name", .error, .field "name", some 1⟩,
    ⟨"header/missing-description", .error, .field "description", some 1⟩,
    ⟨"name/empty", .error, .field "name", some 1⟩,
    ⟨"name/invalid-chars", .error, .field "name", some 1⟩,
    ⟨"name/too-long", .error, .field "name", some 1⟩,
    ⟨"name/reserved-word", .error, .field "name", some 2⟩,
    ⟨"name/angle-brackets", .error, .field "name", some 1⟩,
    ⟨"name/hyphenation", .warning, .field "name", some 1⟩,
    ⟨"name/generic", .warning, .field "name", some 1⟩,
    ⟨"description/empty", .error, .field "description", some 1⟩,
    ⟨"description/too-long", .error, .field "description", some 1⟩,
    ⟨"description/angle-brackets", .error, .field "description", some 1⟩,
    ⟨"description/person", .warning, .field "description", some 1⟩,
    ⟨"description/no-trigger", .warning, .field "description", some 1⟩,
    ⟨"tools/empty", .warning, .field "allowed-tools", some 1⟩,
    ⟨"tools/unknown", .warning, .field "allowed-tools", none⟩,
    ⟨"body/too-long", .warning, .document, some 1⟩,
    ⟨"body/backslash-path", .error, .line, some 1⟩,
    ⟨"body/time-sensitive", .warning, .line, some 4⟩,
    ⟨"references/outside-package", .warning, .line, none⟩,
    ⟨"references/missing", .error, .line, none⟩]

/-- How many findings of a rule a report can have, if there is a limit. -/
def Rule.most : Rule → Option Nat
  | headerMalformedLine | headerDuplicateKey | headerUnknownKey | toolsUnknown => none
  | referencesOutsidePackage | referencesMissing => none
  | nameReservedWord => some 2
  | bodyTimeSensitive => some 4
  | _ => some 1

/-- The table has one row for each rule and no others. -/
theorem Rule.published_eq : published = all.map fun rule => ⟨rule.code, rule.severity, rule.subject, rule.most⟩ := by
  decide

/-- The codes of the rules that the findings of a report are of, in report order. -/
def Report.codes (r : Report) : List String :=
  r.findings.map Finding.rule

/-- A report shows what the table of rules allows. -/
structure Report.FollowsTable (r : Report) : Prop where
  /-- Every finding has the code and the severity of a row, and is about what the row says. -/
  listed : ∀ f ∈ r.findings, ∃ row ∈ Rule.published,
    f.rule = row.code ∧ f.severity = row.severity ∧ row.subject.Fits f.location
  /-- No rule is found more often than its row allows. -/
  at_most : ∀ row ∈ Rule.published, ∀ most ∈ row.most, r.codes.count row.code ≤ most
  missing_name : "header/missing-name" ∈ r.codes → r.named ["name"] = []
  missing_description : "header/missing-description" ∈ r.codes → r.named ["description"] = []
  name_empty : "name/empty" ∈ r.codes → ∀ f ∈ r.named ["name"], f.rule = "name/empty"
  description_empty : "description/empty" ∈ r.codes → ∀ f ∈ r.named ["description"], f.rule = "description/empty"
  tools_empty : "tools/empty" ∈ r.codes → "tools/unknown" ∉ r.codes
  angle_brackets : "name/angle-brackets" ∈ r.codes → "name/invalid-chars" ∈ r.codes

/-! ## How often a rule is found -/

namespace Finding

theorem codes_listIf_sublist (condition : Bool) (f : Finding) : ((listIf condition f).map Finding.rule).Sublist [f.rule] := by
  cases condition with
  | true => exact List.Sublist.refl _
  | false => exact List.nil_sublist _

theorem mem_codes_listIf {condition : Bool} {f : Finding} {code : String} :
    code ∈ (listIf condition f).map Finding.rule ↔ condition = true ∧ code = f.rule := by
  cases condition <;> simp [listIf]

theorem length_filter_code (fs : List Finding) (rule : Rule) :
    (fs.filter fun f => f.IsNamedBy [rule.code]).length = (fs.map Finding.rule).count rule.code := by
  rw [List.count_eq_countP, List.countP_map, List.countP_eq_length_filter]
  refine congrArg List.length (List.filter_congr fun f _ => ?_)
  rw [Function.comp_apply, Bool.eq_iff_iff, decide_eq_true_iff, isNamedBy_code_iff, beq_iff_eq]

end Finding

namespace Check

/-- The codes of what can be found about a name that is not empty. -/
def nameCodes : List String :=
  ["name/invalid-chars", "name/too-long", "name/reserved-word", "name/reserved-word", "name/angle-brackets",
    "name/hyphenation", "name/generic"]

/-- The codes of what can be found about a description that is not blank. -/
def descriptionCodes : List String :=
  ["description/too-long", "description/angle-brackets", "description/person", "description/no-trigger"]

/-- An empty name draws one finding, and any other draws findings of the other rules, in their order. -/
theorem codes_checkName (value : String) (most : Nat) : (checkName value most).map Finding.rule = ["name/empty"] ∨
    ((checkName value most).map Finding.rule).Sublist nameCodes := by
  unfold checkName
  split
  · exact .inl rfl
  · right
    have hwords : ((reservedWords.filter fun word => Text.hasPart word.toList (Text.lowerAscii value.toList)).map
        fun _ => "name/reserved-word").Sublist ["name/reserved-word", "name/reserved-word"] :=
      List.filter_sublist.map fun _ => "name/reserved-word"
    simp only [List.map_append, List.map_map]
    exact (((((Finding.codes_listIf_sublist _ _).append (Finding.codes_listIf_sublist _ _)).append hwords).append
      (Finding.codes_listIf_sublist _ _)).append (Finding.codes_listIf_sublist _ _)).append
      (Finding.codes_listIf_sublist _ _)

/-- A blank description draws one finding, and any other draws findings of the other rules, in their order. -/
theorem codes_checkDescription (value : String) (most : Nat) :
    (checkDescription value most).map Finding.rule = ["description/empty"] ∨
      ((checkDescription value most).map Finding.rule).Sublist descriptionCodes := by
  unfold checkDescription
  split
  · exact .inl rfl
  · right
    simp only [List.map_append]
    exact (((Finding.codes_listIf_sublist _ _).append (Finding.codes_listIf_sublist _ _)).append
      (Finding.codes_listIf_sublist _ _)).append (Finding.codes_listIf_sublist _ _)

/-- A list without tools draws one finding, and any other draws findings about unknown tools. -/
theorem codes_checkTools (tools extra : List String) : (checkTools tools extra).map Finding.rule = ["tools/empty"] ∨
    ∀ code ∈ (checkTools tools extra).map Finding.rule, code = "tools/unknown" := by
  unfold checkTools
  split
  · exact .inl rfl
  · right
    intro code hcode
    rw [List.map_map] at hcode
    obtain ⟨entry, -, rfl⟩ := List.mem_map.1 hcode
    rfl

section

variable (c : Context)

/-- What is found about a name: that it is empty, or findings of the other rules, in their order. -/
theorem codes_nameFindings : (nameFindings c).map Finding.rule = ["name/empty"] ∨
    ((nameFindings c).map Finding.rule).Sublist nameCodes := by
  unfold nameFindings
  split
  · exact codes_checkName _ _
  · exact .inr (List.nil_sublist _)

/-- What is found about a description: that it is blank, or findings of the other rules, in their order. -/
theorem codes_descriptionFindings : (descriptionFindings c).map Finding.rule = ["description/empty"] ∨
    ((descriptionFindings c).map Finding.rule).Sublist descriptionCodes := by
  unfold descriptionFindings
  split
  · exact codes_checkDescription _ _
  · exact .inr (List.nil_sublist _)

/-- What is found about a tool list: that it lists no tools, or findings about unknown ones. -/
theorem codes_toolsFindings : (toolsFindings c).map Finding.rule = ["tools/empty"] ∨
    ∀ code ∈ (toolsFindings c).map Finding.rule, code = "tools/unknown" := by
  unfold toolsFindings
  split
  · exact codes_checkTools _ _
  · exact .inr fun code hcode => absurd hcode List.not_mem_nil

/-- Of all backslashes one draws a finding at most. -/
theorem codes_pathSeparatorFindings : ((pathSeparatorFindings c).map Finding.rule).Sublist ["body/backslash-path"] := by
  unfold pathSeparatorFindings
  split
  · exact List.Sublist.refl _
  · exact List.nil_sublist _

/-- Each lead draws one finding at most. -/
theorem codes_timeSensitiveFindings : ((timeSensitiveFindings c).map Finding.rule).Sublist
    (List.replicate 4 "body/time-sensitive") := by
  have hlength : ((timeSensitiveFindings c).map Finding.rule).length ≤ 4 := by
    rw [List.length_map]
    exact List.length_filterMap_le _ _
  refine List.sublist_replicate_iff.2 ⟨_, hlength, List.eq_replicate_iff.2 ⟨rfl, fun code hcode => ?_⟩⟩
  obtain ⟨f, hf, rfl⟩ := List.mem_map.1 hcode
  obtain ⟨rule, hr, hof⟩ := allOf_run c .timeSensitive f hf
  obtain rfl := List.mem_singleton.1 hr
  exact hof.code

/-- A check finds no rule more often than is allowed. -/
theorem count_codes_run_le {check : Check} {rule : Rule} (hr : rule ∈ check.rules) :
    ∀ most ∈ rule.most, ((run c check).map Finding.rule).count rule.code ≤ most := by
  intro most hmost
  -- It is enough that the codes are part of a list in which no rule of the check is too often.
  have hlist : ∀ codes : List String, ((run c check).map Finding.rule).Sublist codes →
      (∀ rule ∈ check.rules, ∀ most ∈ rule.most, codes.count rule.code ≤ most) →
        ((run c check).map Finding.rule).count rule.code ≤ most := fun codes hsub hcodes =>
    Nat.le_trans (hsub.count_le _) (hcodes rule hr most hmost)
  cases check with
  | name =>
    rcases codes_nameFindings c with h | h
    · exact hlist ["name/empty"] (h ▸ List.Sublist.refl _) (by decide)
    · exact hlist nameCodes h (by decide)
  | description =>
    rcases codes_descriptionFindings c with h | h
    · exact hlist ["description/empty"] (h ▸ List.Sublist.refl _) (by decide)
    · exact hlist descriptionCodes h (by decide)
  | allowedTools =>
    rcases codes_toolsFindings c with h | h
    · exact hlist ["tools/empty"] (h ▸ List.Sublist.refl _) (by decide)
    · have hne : ∀ rule ∈ allowedTools.rules, ∀ most ∈ rule.most, rule.code ≠ "tools/unknown" := by decide
      rw [run, List.count_eq_zero.2 fun hmem => hne rule hr most hmost (h _ hmem)]
      exact Nat.zero_le _
  | bodySize => exact hlist ["body/too-long"] (Finding.codes_listIf_sublist _ _) (by decide)
  | pathSeparators => exact hlist _ (codes_pathSeparatorFindings c) (by decide)
  | timeSensitive => exact hlist _ (codes_timeSensitiveFindings c) (by decide)
  | references =>
    have hnone : ∀ rule ∈ references.rules, rule.most = none := by decide
    rw [hnone rule hr] at hmost
    exact absurd hmost (by simp)

end

/-- A name with an angle bracket has an invalid character. -/
theorem mem_codes_checkName {value : String} {most : Nat}
    (h : "name/angle-brackets" ∈ (checkName value most).map Finding.rule) :
    "name/invalid-chars" ∈ (checkName value most).map Finding.rule := by
  unfold checkName at h ⊢
  split
  · rename_i hempty
    rw [if_pos hempty] at h
    exact absurd h (by decide)
  · rename_i hne
    rw [if_neg hne] at h
    simp only [List.map_append, List.mem_append, Finding.mem_codes_listIf] at h ⊢
    by_cases hvalid : ∀ c ∈ value.toList, isNameChar c = true
    · have hangle := hasAngleBrackets_of_isNameChar hvalid
      simp [hangle, Rule.onField, Rule.code] at h
    · rw [← invalidChars_isEmpty_iff, Bool.not_eq_true] at hvalid
      simp [hvalid, Rule.onField, Rule.code]

/-- When an angle bracket is found in the name of a header, so is an invalid character. -/
theorem mem_codes_nameFindings {c : Context} (h : "name/angle-brackets" ∈ (nameFindings c).map Finding.rule) :
    "name/invalid-chars" ∈ (nameFindings c).map Finding.rule := by
  unfold nameFindings at h ⊢
  split at h
  · exact mem_codes_checkName h
  · exact absurd h List.not_mem_nil

end Check

/-! ## The findings about a header -/

namespace Header

/-- What is found about missing fields: the name first, and each at most once. -/
theorem codes_missingFields (fields : HeaderFields) : ((missingFields fields).map Finding.rule).Sublist
    ["header/missing-name", "header/missing-description"] := by
  unfold missingFields
  rw [List.map_append]
  refine List.Sublist.append (show List.Sublist _ ["header/missing-name"] from ?_) ?_
  · split
    · exact List.Sublist.refl _
    · exact List.nil_sublist _
  · split
    · exact List.Sublist.refl _
    · exact List.nil_sublist _

variable {d : Document}

/-- What is found about the lines of a header is of no rule about missing fields. -/
theorem notMem_codes_lineFindings {rule : Rule} (hr : rule ∈ fieldRules) (number : Nat) (header : List (List Char)) :
    rule.code ∉ (lineFindings number header).map Finding.rule := by
  intro hmem
  obtain ⟨f, hf, hcode⟩ := List.mem_map.1 hmem
  obtain ⟨hline, -⟩ := (allOf_lineFindings number header).isOf_of_code hf hcode
  have hall : ∀ rule ∈ lineRules, rule ∉ fieldRules := by decide
  exact hall rule hline hr

/-- No rule about missing fields is found more often than is allowed when a header is read. -/
theorem count_codes_findings_le {rule : Rule} (hr : rule ∈ lineRules ++ fieldRules) :
    ∀ most ∈ rule.most, ((Extraction.ofDocument d).findings.map Finding.rule).count rule.code ≤ most := by
  intro most hmost
  rcases List.mem_append.1 hr with hr | hr
  · have hnone : ∀ rule ∈ lineRules, rule.most = none := by decide
    rw [hnone rule hr] at hmost
    exact absurd hmost (by simp)
  · have hline := notMem_codes_lineFindings hr d.headerStart d.header
    have hlimit : ∀ rule ∈ fieldRules, ∀ most ∈ rule.most,
        ["header/missing-name", "header/missing-description"].count rule.code ≤ most := by decide
    rw [Extraction.ofDocument_eq_meaning, Document.meaning, List.map_append, List.count_append,
      List.count_eq_zero.2 hline, Nat.zero_add]
    exact Nat.le_trans ((codes_missingFields _).count_le _) (hlimit rule hr most hmost)

/-- What is found about missing fields when a header is read is what its fields lack. -/
theorem mem_codes_findings_iff {rule : Rule} (hr : rule ∈ fieldRules) :
    rule.code ∈ (Extraction.ofDocument d).findings.map Finding.rule ↔
      rule.code ∈ (missingFields (Extraction.ofDocument d).fields).map Finding.rule := by
  have hline := notMem_codes_lineFindings hr d.headerStart d.header
  rw [Extraction.ofDocument_eq_meaning, Document.meaning, List.map_append, List.mem_append]
  exact ⟨fun h => h.resolve_left hline, .inr⟩

theorem mem_codes_missingFields_iff {fields : HeaderFields} {code : String} :
    code ∈ (missingFields fields).map Finding.rule ↔ fields.name = none ∧ code = "header/missing-name" ∨
      fields.description = none ∧ code = "header/missing-description" := by
  unfold missingFields
  cases fields.name <;> cases fields.description <;> simp [Rule.onField, Rule.code]

end Header

/-! ## The report -/

/-- Every rule is one of the header or of a check. -/
theorem Rule.mem_header_or_check (rule : Rule) :
    rule ∈ Header.lineRules ++ Header.fieldRules ∨ ∃ check : Check, rule ∈ check.rules := by
  have hall : ∀ rule ∈ all, rule ∈ Header.lineRules ++ Header.fieldRules ∨ ∃ check ∈ Check.all, rule ∈ check.rules := by
    decide
  rcases hall rule (mem_all rule) with hr | ⟨check, -, hr⟩
  · exact .inl hr
  · exact .inr ⟨check, hr⟩

theorem Report.count_codes (r : Report) (rule : Rule) : r.codes.count rule.code = (r.named [rule.code]).length := by
  rw [named, Finding.length_filter_code, codes]

namespace Extraction

variable (d : Document) (config : Config) (present : String → Bool)

/-- All that is found about a document is of rules. -/
theorem exists_isOf_of_mem_allFindings {f : Finding} (hf : f ∈ (ofDocument d).allFindings present config) :
    ∃ rule, f.IsOf rule := by
  rcases List.mem_append.1 hf with hf | hf
  · obtain ⟨rule, -, hof⟩ := Header.allOf_findings_ofDocument d f hf
    exact ⟨rule, hof⟩
  · obtain ⟨check, -, hf⟩ := List.mem_flatMap.1 hf
    obtain ⟨rule, -, hof⟩ := Check.allOf_run _ check f hf
    exact ⟨rule, hof⟩

/-- A rule of a check is in the report as often at most as the check finds it. -/
theorem count_codes_report_le {check : Check} {rule : Rule} (hr : rule ∈ check.rules) :
    ((ofDocument d).report config present).codes.count rule.code ≤
      ((Check.run ((ofDocument d).context config present) check).map Finding.rule).count rule.code := by
  rw [Report.count_codes, named_report_of_check d config present fun named hnamed =>
    Rule.isNamedBy_code_iff.1 hnamed ▸ hr, ← Finding.length_filter_code]
  exact List.length_filter_le _ _

/-- A rule of the header is in the report as often at most as it is found when the header is read. -/
theorem count_codes_report_le_of_header {rule : Rule} (hr : rule ∈ Header.lineRules ++ Header.fieldRules) :
    ((ofDocument d).report config present).codes.count rule.code ≤
      ((ofDocument d).findings.map Finding.rule).count rule.code := by
  rw [Report.count_codes, named_report_of_header d config present fun named hnamed =>
    Rule.isNamedBy_code_iff.1 hnamed ▸ hr, ← Finding.length_filter_code]
  exact List.length_filter_le _ _

variable {d config present}

/-- A rule of a check that is in the report is found by the check. -/
theorem mem_codes_run (check : Check) (rule : Rule) (hr : rule ∈ check.rules)
    (h : rule.code ∈ ((ofDocument d).report config present).codes) :
    rule.code ∈ (Check.run ((ofDocument d).context config present) check).map Finding.rule :=
  List.count_pos_iff.1 (Nat.lt_of_lt_of_le (List.count_pos_iff.2 h) (count_codes_report_le d config present hr))

/-- A rule about missing fields that is in the report is about a field that the header lacks. -/
theorem mem_codes_missingFields (rule : Rule) (hr : rule ∈ Header.fieldRules)
    (h : rule.code ∈ ((ofDocument d).report config present).codes) :
    rule.code ∈ (Header.missingFields (ofDocument d).fields).map Finding.rule := by
  have hall := List.mem_append_right Header.lineRules hr
  rw [← Header.mem_codes_findings_iff hr]
  exact List.count_pos_iff.1
    (Nat.lt_of_lt_of_le (List.count_pos_iff.2 h) (count_codes_report_le_of_header d config present hall))

/-- An error that a check finds is in the report. -/
theorem mem_codes_report_of_error (check : Check) (rule : Rule) (hs : rule.severity = .error)
    (h : rule.code ∈ (Check.run ((ofDocument d).context config present) check).map Finding.rule) :
    rule.code ∈ ((ofDocument d).report config present).codes := by
  obtain ⟨f, hf, hcode⟩ := List.mem_map.1 h
  obtain ⟨-, hof⟩ := (Check.allOf_run _ check).isOf_of_code hf hcode
  have herror : f.severity = .error := hof.severity.trans hs
  have hkeeps : Report.keeps config.disable f = true := Report.keeps_iff.2 fun hw => by simp [herror] at hw
  exact List.mem_map.2 ⟨f, List.mem_filter.2 ⟨mem_allFindings_of_mem_run _ _ hf, hkeeps⟩, hcode⟩

/-- The codes of what a check leaves in a report are among those of what it finds. -/
theorem mem_codes_of_mem_named (check : Check) {f : Finding}
    (hf : f ∈ ((ofDocument d).report config present).named [check.pattern]) :
    f.rule ∈ (Check.run ((ofDocument d).context config present) check).map Finding.rule := by
  rw [named_report_pattern] at hf
  obtain ⟨hrun, -⟩ := List.mem_filter.1 hf
  exact List.mem_map_of_mem hrun

/-- The report on a document shows what the table of rules allows. -/
theorem followsTable_report (d : Document) (config : Config) (present : String → Bool) :
    ((ofDocument d).report config present).FollowsTable where
  listed f hf := by
    obtain ⟨rule, hof⟩ := exists_isOf_of_mem_allFindings d config present (mem_allFindings_of_mem_report _ _ hf)
    refine ⟨⟨rule.code, rule.severity, rule.subject, rule.most⟩, ?_, hof.code, hof.severity, hof.subject⟩
    rw [Rule.published_eq]
    exact List.mem_map_of_mem (Rule.mem_all rule)
  at_most row hrow := by
    rw [Rule.published_eq] at hrow
    obtain ⟨rule, -, rfl⟩ := List.mem_map.1 hrow
    intro most hmost
    rcases rule.mem_header_or_check with hr | ⟨check, hr⟩
    · exact Nat.le_trans (count_codes_report_le_of_header d config present hr) (Header.count_codes_findings_le hr most hmost)
    · exact Nat.le_trans (count_codes_report_le d config present hr) (Check.count_codes_run_le _ hr most hmost)
  missing_name h := by
    have hname : (ofDocument d).fields.name = none := by
      have hmissing := mem_codes_missingFields .headerMissingName (by decide) h
      rcases Header.mem_codes_missingFields_iff.1 hmissing with ⟨hname, -⟩ | ⟨-, hother⟩
      · exact hname
      · exact absurd hother (by decide)
    have hnamed : ((ofDocument d).report config present).named ["name"] = _ := named_report_pattern d config present .name
    rw [hnamed, Check.run, Check.nameFindings, context, hname]
    rfl
  missing_description h := by
    have hdescription : (ofDocument d).fields.description = none := by
      have hmissing := mem_codes_missingFields .headerMissingDescription (by decide) h
      rcases Header.mem_codes_missingFields_iff.1 hmissing with ⟨-, hother⟩ | ⟨hdescription, -⟩
      · exact absurd hother (by decide)
      · exact hdescription
    have hnamed : ((ofDocument d).report config present).named ["description"] = _ :=
      named_report_pattern d config present .description
    rw [hnamed, Check.run, Check.descriptionFindings, context, hdescription]
    rfl
  name_empty h f hf := by
    have hempty : "name/empty" ∈ (Check.nameFindings _).map Finding.rule := mem_codes_run .name .nameEmpty (by decide) h
    have hrule := mem_codes_of_mem_named .name hf
    rcases Check.codes_nameFindings ((ofDocument d).context config present) with hcodes | hcodes
    · rw [Check.run, hcodes] at hrule
      exact List.mem_singleton.1 hrule
    · exact absurd (hcodes.subset hempty) (by decide)
  description_empty h f hf := by
    have hempty : "description/empty" ∈ (Check.descriptionFindings _).map Finding.rule :=
      mem_codes_run .description .descriptionEmpty (by decide) h
    have hrule := mem_codes_of_mem_named .description hf
    rcases Check.codes_descriptionFindings ((ofDocument d).context config present) with hcodes | hcodes
    · rw [Check.run, hcodes] at hrule
      exact List.mem_singleton.1 hrule
    · exact absurd (hcodes.subset hempty) (by decide)
  tools_empty h hunknown := by
    have hempty : "tools/empty" ∈ (Check.toolsFindings _).map Finding.rule :=
      mem_codes_run .allowedTools .toolsEmpty (by decide) h
    have hother : "tools/unknown" ∈ (Check.toolsFindings _).map Finding.rule :=
      mem_codes_run .allowedTools .toolsUnknown (by decide) hunknown
    rcases Check.codes_toolsFindings ((ofDocument d).context config present) with hcodes | hcodes
    · rw [hcodes] at hother
      exact absurd hother (by decide)
    · exact absurd (hcodes _ hempty) (by decide)
  angle_brackets h := by
    have hangle : "name/angle-brackets" ∈ (Check.nameFindings _).map Finding.rule :=
      mem_codes_run .name .nameAngleBrackets (by decide) h
    exact mem_codes_report_of_error .name .nameInvalidChars rfl (Check.mem_codes_nameFindings hangle)

end Extraction

namespace Package

/-- A document with fewer than two delimiter lines draws one error and no report. Otherwise there is a report, under whatever
settings and in whatever tree, and it shows what the table of rules allows. -/
theorem validate_rules (t : FileTree) (p : Package) (config : Config) :
    ((Text.lines p.content.toList).countP Document.isDelimiter < 2 → p.validate t config = .error .missingHeader) ∧
      (2 ≤ (Text.lines p.content.toList).countP Document.isDelimiter →
        ∃ report, p.validate t config = .ok report ∧ report.FollowsTable) := by
  refine ⟨fun h => p.validate_of_countP_lt t h config, fun h => ?_⟩
  obtain ⟨d, -, hreport⟩ := p.exists_validate_eq t h
  exact ⟨_, hreport config, Extraction.followsTable_report d config (p.holds t)⟩

/-- A name with both reserved words and angle brackets, no description, and a body with an anchor for each lead: the rules reach
their limits, and the missing description draws nothing else. A document that is cut off in its header draws the error. -/
theorem validate_rules_limits :
    let t : FileTree := ⟨[], []⟩
    let p : Package :=
      ⟨⟨"a"⟩, "---\nname: <Claude-Anthropic>\nallowed-tools:\n---\nbefore 2020 after 2020 as of 2020 until 2020 before 2021"⟩
    (⟨⟨"a"⟩, "---\nname: a"⟩ : Package).validate t {} = .error .missingHeader ∧
      2 ≤ (Text.lines p.content.toList).countP Document.isDelimiter ∧
      ∃ report, p.validate t {} = .ok report ∧ report.FollowsTable ∧ report.named ["description"] = [] ∧
        report.codes =
          ["header/missing-description", "name/invalid-chars", "name/reserved-word", "name/reserved-word",
            "name/angle-brackets", "tools/empty", "body/time-sensitive", "body/time-sensitive", "body/time-sensitive",
            "body/time-sensitive"] := by
  intro t p
  have hdelimiters : 2 ≤ (Text.lines p.content.toList).countP Document.isDelimiter := by decide +kernel
  obtain ⟨report, hreport, hfollows⟩ := (validate_rules t p {}).2 hdelimiters
  have hcodes : (p.validate t {}).toOption.map Report.codes =
      some ["header/missing-description", "name/invalid-chars", "name/reserved-word", "name/reserved-word",
        "name/angle-brackets", "tools/empty", "body/time-sensitive", "body/time-sensitive", "body/time-sensitive",
        "body/time-sensitive"] := by decide +kernel
  rw [hreport] at hcodes
  have hcodes := Option.some.inj hcodes
  have hmissing : "header/missing-description" ∈ report.codes := by
    rw [hcodes]
    exact List.mem_cons_self
  exact ⟨(validate_rules t _ {}).1 (by decide +kernel), hdelimiters, report, hreport, hfollows,
    hfollows.missing_description hmissing, hcodes⟩

end Package

end SkillLint
