import SkillLint.Proofs.Config.Limit
import SkillLint.Proofs.Config.Tightening
import SkillLint.Proofs.Document
import SkillLint.Proofs.Tree.Write

/-!
# The source that decides

The sources of the configuration that are there have an order, and the first of them decides alone: what the others are, and what
their files hold, does not matter (`load_firstSource`). The defaults come last and are always there, but they are used only when
there is nothing before them. A file that is first and cannot be used is an error, and what can be wrong with it is listed
(`Unusable`); a file that can be used holds settings that are in range. What the YAML of a header says is left to its reader, but for
headers that are blank or set one limit.
-/

namespace SkillLint.Config

/-! ## Files -/

/-- Whether the limits of a configuration are ones that a host accepts, and every disabled rule has a name. -/
structure InRange (config : Config) : Prop where
  name : 1 ≤ config.thresholds.maxNameLength ∧ config.thresholds.maxNameLength ≤ 64
  description : 1 ≤ config.thresholds.maxDescriptionLength ∧ config.thresholds.maxDescriptionLength ≤ 1024
  body : 1 ≤ config.thresholds.maxBodyLines
  disable : ∀ rule ∈ config.disable, ∃ c ∈ rule.toList, Text.isBlank c = false

/-- Whether a header gives a configuration: a blank one gives the defaults, and any other one the settings that it has in YAML. -/
inductive Gives (header : List Char) : Config → Prop where
  | blank (h : ∀ c ∈ header, Text.isBlank c = true) : Gives header {}
  | yaml (config : Config) (hblank : ∃ c ∈ header, Text.isBlank c = false) (h : ofYaml header = .ok config) : Gives header config

/-- Whether a file holds a configuration: the header between its first two delimiter lines gives it, and it is in range. -/
def Holds (t : FileTree) (path : Path) (config : Config) : Prop :=
  ∃ content d, t.readText path = .ok content ∧ Document.ofText? content = some d ∧ Gives d.headerText.toList config ∧ config.InRange

/-- What can be wrong with a configuration file. -/
inductive Unusable (t : FileTree) (path : Path) : Prop where
  /-- The path leads to nothing. -/
  | missing (h : t.contains path = false)
  /-- The path leads to a directory. -/
  | directory (h : t.isDirectory path = true)
  /-- The file does not hold a text. -/
  | notText (content : ByteArray) (h : t.read path = .ok content) (hbytes : ∀ text : String, text.toUTF8 ≠ content)
  /-- The text has fewer than two delimiter lines. -/
  | noHeader (content : String) (h : t.readText path = .ok content)
      (hfew : (Text.lines content.toList).countP Document.isDelimiter < 2)
  /-- What stands between the first two delimiter lines is not blank, and it is not well-formed YAML or a setting has the wrong
  type. -/
  | malformed (content : String) (d : Document) (error : Yaml.Error) (h : t.readText path = .ok content)
      (hd : Document.ofText? content = some d) (hblank : ∃ c ∈ d.headerText.toList, Text.isBlank c = false)
      (herror : ofYaml d.headerText.toList = .error error)
  /-- A limit or a disabled rule is not one that is accepted. -/
  | outOfRange (content : String) (d : Document) (config : Config) (h : t.readText path = .ok content)
      (hd : Document.ofText? content = some d) (hconfig : Gives d.headerText.toList config) (hrange : ¬config.InRange)

variable {t u : FileTree} {path : Path} {config : Config}

/-- A text is blank, or has a character that is not. -/
theorem forall_isBlank_or_exists (s : List Char) : (∀ c ∈ s, Text.isBlank c = true) ∨ ∃ c ∈ s, Text.isBlank c = false := by
  by_cases h : ∀ c ∈ s, Text.isBlank c = true
  · exact .inl h
  · simp only [not_forall, Bool.not_eq_true] at h
    obtain ⟨c, hc, hblank⟩ := h
    exact .inr ⟨c, hc, hblank⟩

/-- A header is read as the configurations that it gives. -/
theorem ofHeader_eq_ok_iff {header : List Char} : ofHeader header = .ok config ↔ Gives header config := by
  constructor
  · intro h
    rcases forall_isBlank_or_exists header with hblank | ⟨c, hc, hblank⟩
    · obtain rfl := Except.ok.inj ((ofHeader_of_forall hblank).symm.trans h)
      exact .blank hblank
    · exact .yaml config ⟨c, hc, hblank⟩ ((ofHeader_of_mem hc hblank).symm.trans h)
  · rintro (hblank | ⟨_, ⟨c, hc, hblank⟩, h⟩)
    · exact ofHeader_of_forall hblank
    · exact (ofHeader_of_mem hc hblank).trans h

/-- A header that cannot be read is not blank. -/
theorem ofHeader_eq_error {header : List Char} {error : Yaml.Error} (h : ofHeader header = .error error) :
    (∃ c ∈ header, Text.isBlank c = false) ∧ ofYaml header = .error error := by
  rcases forall_isBlank_or_exists header with hblank | ⟨c, hc, hblank⟩
  · exact nomatch (ofHeader_of_forall hblank).symm.trans h
  · exact ⟨⟨c, hc, hblank⟩, (ofHeader_of_mem hc hblank).symm.trans h⟩

/-- A configuration has no fault exactly when it is in range. -/
theorem fault?_eq_none_iff_inRange : config.fault? = none ↔ config.InRange := by
  have hblank : ∀ rule : String, Text.isBlankText rule.toList = false ↔ ∃ c ∈ rule.toList, Text.isBlank c = false := by
    intro rule
    rw [← Bool.not_eq_true, Text.isBlankText_iff]
    simp
  rw [fault?_eq_none_iff]
  simp only [hblank]
  exact ⟨fun ⟨hname, hdescription, hbody, hdisable⟩ => ⟨hname, hdescription, hbody, hdisable⟩,
    fun h => ⟨h.name, h.description, h.body, h.disable⟩⟩

/-- A text gives a configuration exactly when its header does and the settings are in range. -/
theorem ofText_eq_ok_iff {content : String} : ofText content = .ok config ↔
    ∃ d, Document.ofText? content = some d ∧ Gives d.headerText.toList config ∧ config.InRange := by
  simp only [← ofHeader_eq_ok_iff]
  unfold ofText
  cases hd : Document.ofText? content with
  | none => simp
  | some d =>
    cases hconfig : ofHeader d.headerText.toList with
    | error error => simp [hconfig]
    | ok found =>
      cases hfault : found.fault? with
      | some fault =>
        have hrange : ¬found.InRange := fun h => by
          rw [fault?_eq_none_iff_inRange.2 h] at hfault
          exact absurd hfault (by simp)
        simp only [Option.some.injEq, exists_eq_left', hconfig, Except.ok.injEq, hfault, reduceCtorEq, false_iff]
        rintro ⟨rfl, h⟩
        exact hrange h
      | none =>
        have hrange : found.InRange := fault?_eq_none_iff_inRange.1 hfault
        simp only [Option.some.injEq, exists_eq_left', hconfig, Except.ok.injEq, hfault]
        exact ⟨fun h => ⟨h, h ▸ hrange⟩, fun h => h.1⟩

/-- A file gives the configurations that it holds. -/
theorem loadFile_eq_ok_iff : loadFile t path = .ok config ↔ Holds t path config := by
  unfold loadFile Holds
  cases hread : t.readText path with
  | error cause => simp
  | ok content =>
    simp only [Except.ok.injEq, exists_eq_left', exists_and_left]
    rw [← ofText_eq_ok_iff]
    cases hcontent : ofText content with
    | error fault => simp
    | ok found => simp

theorem loadFile_congr (h : u.readText path = t.readText path) : loadFile u path = loadFile t path := by
  rw [loadFile, loadFile, h]

/-- A path that cannot be read as text leads to nothing or to a directory, or its file does not hold a text. -/
theorem Unusable.of_readText {cause : FileError} (h : t.readText path = .error cause) : Unusable t path := by
  cases hstat : t.stat path with
  | error e => exact .missing (by rw [FileTree.contains, hstat])
  | ok node =>
    cases node with
    | directory => exact .directory (by rw [FileTree.isDirectory, hstat])
    | file bytes =>
      have hread : t.read path = .ok bytes := by rw [FileTree.read, hstat]
      refine .notText bytes hread fun text htext => ?_
      rw [← htext] at hstat
      rw [FileTree.readText_of_stat hstat] at h
      exact absurd h (by simp)

/-- A file that cannot be used holds no configuration. -/
theorem Unusable.not_holds (h : Unusable t path) : ¬Holds t path config := by
  rintro ⟨content, d, hread, hd, hgives, hrange⟩
  have hstat := FileTree.stat_of_readText hread
  have hconfig := ofHeader_eq_ok_iff.2 hgives
  cases h with
  | missing h =>
    rw [FileTree.contains, hstat] at h
    exact absurd h (by simp)
  | directory h =>
    rw [FileTree.isDirectory, hstat] at h
    exact absurd h (by simp)
  | notText other h hother =>
    rw [FileTree.read, hstat] at h
    exact hother content (Except.ok.inj h)
  | noHeader other h hfew =>
    obtain rfl : content = other := Except.ok.inj (hread.symm.trans h)
    rw [Document.ofText?_eq_none_iff.2 hfew] at hd
    exact absurd hd (by simp)
  | malformed other d' error h hd' hblank herror =>
    obtain rfl : content = other := Except.ok.inj (hread.symm.trans h)
    obtain rfl : d = d' := Option.some.inj (hd.symm.trans hd')
    obtain ⟨c, hc, hblank⟩ := hblank
    exact absurd (hconfig.symm.trans ((ofHeader_of_mem hc hblank).trans herror)) (by simp)
  | outOfRange other d' found h hd' hfound hout =>
    obtain rfl : content = other := Except.ok.inj (hread.symm.trans h)
    obtain rfl : d = d' := Option.some.inj (hd.symm.trans hd')
    obtain rfl : config = found := Except.ok.inj (hconfig.symm.trans (ofHeader_eq_ok_iff.2 hfound))
    exact hout hrange

/-- A file that holds no configuration cannot be used. -/
theorem Unusable.of_forall_not_holds (h : ∀ config, ¬Holds t path config) : Unusable t path := by
  cases hread : t.readText path with
  | error cause => exact .of_readText hread
  | ok content =>
    cases hd : Document.ofText? content with
    | none => exact .noHeader content hread (Document.ofText?_eq_none_iff.1 hd)
    | some d =>
      cases hconfig : ofHeader d.headerText.toList with
      | error error =>
        obtain ⟨hblank, herror⟩ := ofHeader_eq_error hconfig
        exact .malformed content d error hread hd hblank herror
      | ok config =>
        have hgives := ofHeader_eq_ok_iff.1 hconfig
        exact .outOfRange content d config hread hd hgives fun hrange => h config ⟨content, d, hread, hd, hgives, hrange⟩

/-! ## Sources -/

/-- A source that a configuration can come from. -/
inductive Source where
  /-- A file that the caller names. -/
  | explicit (path : Path)
  /-- The file that the environment variable names. -/
  | named (value : String)
  /-- The user's settings file. -/
  | user (path : Path)
  | defaults
deriving DecidableEq

namespace Source

/-- The file of a source; the defaults are in no file. -/
def file? : Source → Option Path
  | explicit path | user path => some path
  | named value => some ⟨value⟩
  | defaults => none

/-- The configuration from a source. -/
def load (t : FileTree) : Source → Except ConfigError Config
  | explicit path | user path => loadFile t path
  | named value => (loadFile t ⟨value⟩).mapError .fromVariable
  | defaults => .ok {}

/-- A source with a file gives the configurations that the file holds. -/
theorem load_eq_ok_iff {source : Source} (h : source.file? = some path) :
    source.load t = .ok config ↔ Holds t path config := by
  cases source with
  | explicit p =>
    obtain rfl : p = path := Option.some.inj h
    exact loadFile_eq_ok_iff
  | user p =>
    obtain rfl : p = path := Option.some.inj h
    exact loadFile_eq_ok_iff
  | named value =>
    obtain rfl : ⟨value⟩ = path := Option.some.inj h
    rw [← loadFile_eq_ok_iff, load]
    cases loadFile t ⟨value⟩ with
    | error error => simp [Except.mapError]
    | ok found => simp [Except.mapError]
  | defaults => exact absurd h (by simp [file?])

/-- A source with a file gives an error exactly when the file cannot be used. -/
theorem exists_load_eq_error_iff {source : Source} (h : source.file? = some path) :
    (∃ error, source.load t = .error error) ↔ Unusable t path := by
  cases hload : source.load t with
  | error error =>
    refine iff_of_true ⟨error, rfl⟩ (.of_forall_not_holds fun config hholds => ?_)
    rw [(load_eq_ok_iff h).2 hholds] at hload
    exact absurd hload (by simp)
  | ok config =>
    refine iff_of_false (by simp) fun hunusable => hunusable.not_holds ((load_eq_ok_iff h).1 hload)

theorem load_congr {source : Source} (h : ∀ path ∈ source.file?, u.readText path = t.readText path) :
    source.load u = source.load t := by
  cases source with
  | explicit path => exact loadFile_congr (h path rfl)
  | user path => exact loadFile_congr (h path rfl)
  | named value => exact congrArg (Except.mapError ConfigError.fromVariable) (loadFile_congr (h ⟨value⟩ rfl))
  | defaults => rfl

end Source

/-- The sources that are there, in their order: a variable without a value is none, nor is a settings file that does not exist, and
the defaults are always there. -/
def Sources.present (s : Sources) (t : FileTree) : List Source :=
  s.explicit.toList.map .explicit ++ ((s.named.filter (· != "")).toList.map .named ++
    ((s.user.filter t.contains).toList.map .user ++ [.defaults]))

/-- The configuration comes from the first source that is there. -/
theorem load_of_present {s : Sources} {source : Source} {others : List Source} (h : s.present t = source :: others) :
    load t s = source.load t := by
  unfold Sources.present at h
  unfold load
  cases hexplicit : s.explicit with
  | some path =>
    rw [hexplicit] at h
    rw [← List.head_eq_of_cons_eq h]
    rfl
  | none =>
    rw [hexplicit] at h
    cases hnamed : s.named.filter (· != "") with
    | some value =>
      rw [hnamed] at h
      rw [← List.head_eq_of_cons_eq h]
      rfl
    | none =>
      rw [hnamed] at h
      cases huser : s.user.filter t.contains with
      | some path =>
        rw [huser] at h
        rw [← List.head_eq_of_cons_eq h]
        rfl
      | none =>
        rw [huser] at h
        rw [← List.head_eq_of_cons_eq h]
        rfl

/-- A file whose header is read as some settings holds them alone, and only if they are in range. -/
theorem holds_iff_of_ofHeader {content : String} {d : Document} {found : Config} (hread : t.readText path = .ok content)
    (hd : Document.ofText? content = some d) (hfound : ofHeader d.headerText.toList = .ok found) :
    Holds t path config ↔ config = found ∧ config.InRange := by
  constructor
  · rintro ⟨content', d', hread', hd', hgives, hrange⟩
    obtain rfl : content = content' := Except.ok.inj (hread.symm.trans hread')
    obtain rfl : d = d' := Option.some.inj (hd.symm.trans hd')
    exact ⟨Except.ok.inj ((ofHeader_eq_ok_iff.2 hgives).symm.trans hfound), hrange⟩
  · rintro ⟨rfl, hrange⟩
    exact ⟨content, d, hread, hd, ofHeader_eq_ok_iff.1 hfound, hrange⟩

theorem inRange_default : InRange {} :=
  fault?_eq_none_iff_inRange.1 (by decide)

/-- The configuration depends on the first source that is there alone. Wherever that source is the first, and its file is read with
the same result, the outcome is the same, whatever the other sources are and their files hold. Without a file that is first the
outcome is the defaults. A file that is first gives an error exactly when it cannot be used, and otherwise the settings that it
holds: the defaults if its header is blank, a limit that its header sets to a number, if it is in range, and an error if its header
sets the limit to a name. All settings that are loaded are in range. -/
theorem load_firstSource (t : FileTree) (s : Sources) :
    ∃ source others, s.present t = source :: others ∧
      (∀ u s' others', s'.present u = source :: others' →
        (∀ path ∈ source.file?, u.readText path = t.readText path) → load u s' = load t s) ∧
      (source.file? = none → load t s = .ok {}) ∧
      (∀ path ∈ source.file?, ((∃ error, load t s = .error error) ↔ Unusable t path) ∧
        (∀ config, load t s = .ok config ↔ Holds t path config) ∧
        ∀ content d, t.readText path = .ok content → Document.ofText? content = some d →
          ((∀ c ∈ d.headerText.toList, Text.isBlank c = true) → load t s = .ok {}) ∧
          (∀ (limit : Limit) (n : Nat), n < Yaml.powerOfTwo 64 → d.headerText = limit.header (toString n) →
            ∀ config, load t s = .ok config ↔ config = { thresholds := limit.set n } ∧ config.InRange) ∧
          ∀ (limit : Limit) (value : String), IsName value → d.headerText = limit.header value →
            ∃ error, load t s = .error error) ∧
      ∀ config, load t s = .ok config → config.InRange := by
  obtain ⟨source, others, hpresent⟩ : ∃ source others, s.present t = source :: others :=
    List.exists_cons_of_ne_nil (by simp [Sources.present])
  have hload := load_of_present hpresent
  refine ⟨source, others, hpresent, ?_, ?_, ?_, ?_⟩
  · intro u s' others' hpresent' hread
    rw [load_of_present hpresent', hload, Source.load_congr hread]
  · intro hnone
    rw [hload]
    cases source with
    | defaults => rfl
    | explicit path | named value | user path => exact absurd hnone (by simp [Source.file?])
  · intro path hpath
    have hok (config : Config) : load t s = .ok config ↔ Holds t path config := by rw [hload, Source.load_eq_ok_iff hpath]
    have herror : (∃ error, load t s = .error error) ↔ Unusable t path := by rw [hload, Source.exists_load_eq_error_iff hpath]
    refine ⟨herror, hok, fun content d hread hd => ⟨fun hblank => ?_, fun limit n hn hheader config => ?_, fun limit value hvalue hheader => ?_⟩⟩
    · exact (hok {}).2 ((holds_iff_of_ofHeader hread hd (ofHeader_of_forall hblank)).2 ⟨rfl, inRange_default⟩)
    · rw [hok, holds_iff_of_ofHeader hread hd (by rw [hheader, ofHeader_number limit hn])]
    · obtain ⟨error, hfault⟩ := ofHeader_name limit hvalue
      rw [← hheader] at hfault
      obtain ⟨hblank, hyaml⟩ := ofHeader_eq_error hfault
      exact herror.2 (.malformed content d error hread hd hblank hyaml)
  · intro config hconfig
    exact fault?_eq_none_iff_inRange.1 (fault?_eq_none_of_load hconfig)

/-- A document whose header sets a limit to a name. -/
example : (Document.ofText? "---\nlint:\n  thresholds:\n    max_body_lines: ten\n---\n").map Document.headerText =
    some (Limit.bodyLines.header "ten") := by
  decide +kernel

/-- A file that is named by the variable and does not exist is an error, though the user's settings file could be used. -/
example : (load ⟨[(["c.md"], .file "---\n---\n".toUTF8)], []⟩ { named := some "d.md", user := some ⟨"c.md"⟩ }).isOk = false := by
  decide

end SkillLint.Config
