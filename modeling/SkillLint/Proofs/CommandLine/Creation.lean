import SkillLint.CommandLine
import SkillLint.Proofs.Scaffold.Passing
import SkillLint.Proofs.Template.Directory

/-!
# Creating from the command line

A run that creates a package examines what is asked for, writes the files and inspects them then. What fails before the first file
is written leaves no trace (`run_init_failed`). What fails when the files have been written leaves the package as it was asked for: the
configuration may be unusable, or the document that comes from a directory may have no header
(`run_init_leaves_package`). A package from a built-in template can always be inspected.
-/

namespace SkillLint

/-- A request that is refused because of its target has found something there. -/
theorem ScaffoldRequest.contains_of_targetExists {r : ScaffoldRequest} {t : FileTree} {target : Path}
    (h : r.refusal? t = some (.targetExists target)) : target = r.target ∧ t.contains target = true := by
  unfold refusal? at h
  simp only at h
  split at h
  · exact nomatch h
  · split at h
    · exact nomatch h
    · split at h
      · rename_i hexists
        obtain rfl : r.target = target := ScaffoldError.targetExists.inj (Option.some.inj h)
        exact ⟨rfl, (Bool.and_eq_true_iff.1 hexists).1⟩
      · exact nomatch h

namespace CommandLine

/-! ## What is asked for -/

/-- A reading of items ends with the request that one of the items ends it with. -/
theorem exists_of_foldlM_eq_error {α : Type} {read : α → Item → Reading α} {items : List Item} {start : α} {request : Request}
    (h : items.foldlM read start = .error request) : ∃ a, ∃ item ∈ items, read a item = .error request := by
  induction items generalizing start with
  | nil => exact nomatch h
  | cons item more ih =>
    rw [List.foldlM_cons] at h
    cases hread : read start item with
    | error early =>
      rw [hread] at h
      obtain rfl : early = request := Except.error.inj h
      exact ⟨start, item, List.mem_cons_self, hread⟩
    | ok next =>
      rw [hread] at h
      obtain ⟨a, other, hother, he⟩ := ih h
      exact ⟨a, other, List.mem_cons_of_mem item hother, he⟩

/-- Whether a reading that ends early has come to something that cannot be used. -/
def Refuses {α : Type} (reading : Reading α) : Prop :=
  ∀ request, reading = .error request → ∃ error, request = .refuse error

section Refuses

variable {α β : Type}

theorem refuses_refuse (error : UsageError) : Refuses (refuse error : Reading α) :=
  fun _ h => ⟨error, (Except.error.inj h).symm⟩

theorem refuses_ok (a : α) : Refuses (.ok a : Reading α) :=
  fun _ h => nomatch h

/-- Two readings one after the other end early when one of them does. -/
theorem Refuses.bind {reading : Reading α} {next : α → Reading β} (h : Refuses reading) (hnext : ∀ a, Refuses (next a)) :
    Refuses (reading >>= next) := by
  intro request he
  cases hreading : reading with
  | error early =>
    rw [hreading] at he
    obtain rfl : early = request := Except.error.inj he
    exact h early hreading
  | ok a =>
    rw [hreading] at he
    exact hnext a request he

/-- A reading that depends on a test goes on, or it has come to something that cannot be used. -/
theorem refuses_ite (test : Prop) [Decidable test] (error : UsageError) (a : α) :
    Refuses (if test then refuse error else .ok a : Reading α) := by
  split
  · exact refuses_refuse error
  · exact refuses_ok a

theorem refuses_once (flag : Flag) (old : Option α) (new : α) : Refuses (once flag old new) :=
  refuses_ite _ _ _

theorem refuses_switchOn (flag : Flag) (old : Bool) : Refuses (switchOn flag old) :=
  refuses_ite _ _ _

theorem refuses_readPath (what value : String) : Refuses (readPath what value) :=
  refuses_ite _ _ _

end Refuses

/-- An item that ends the reading of what a new package is to be asks for help, or it cannot be used. -/
theorem Creation.read_eq_error {c : Creation} {item : Item} {request : Request} (h : c.read item = .error request) :
    request = .help .init ∨ ∃ error, request = .refuse error := by
  unfold read at h
  split at h
  · exact .inr (refuses_refuse _ _ h)
  · exact .inl (Except.error.inj h).symm
  · exact .inr ((refuses_switchOn _ _).bind (fun _ => refuses_ok _) _ h)
  · exact .inr (refuses_refuse _ _ h)
  · exact .inr ((refuses_once _ _ _).bind (fun _ => refuses_ok _) _ h)
  · exact .inr ((refuses_once _ _ _).bind (fun _ => refuses_ok _) _ h)
  · exact .inr ((refuses_readPath _ _).bind (fun _ => (refuses_once _ _ _).bind fun _ => refuses_ok _) _ h)
  · exact .inr (refuses_refuse _ _ h)
  · exact .inr (refuses_ite _ _ _ _ h)

/-- A command line that asks for a new package asks for one, or for help with that, or it cannot be used. -/
theorem Request.ofArguments_init (rest : List String) :
    (∃ c, ofArguments ("init" :: rest) = .create c) ∨ ofArguments ("init" :: rest) = .help .init ∨
      ∃ error, ofArguments ("init" :: rest) = .refuse error := by
  have hrequest : ofArguments ("init" :: rest) = settle .create ((Command.init.items rest).foldlM Creation.read {}) := rfl
  rw [hrequest]
  cases hread : (Command.init.items rest).foldlM Creation.read {} with
  | ok c => exact .inl ⟨c, rfl⟩
  | error request =>
    obtain ⟨c, item, -, he⟩ := exists_of_foldlM_eq_error hread
    exact .inr (Creation.read_eq_error he)

/-! ## What comes of it -/

/-- Whether a directory is not created or a file is not written while a package is created. -/
def Creation.WriteFails (c : Creation) (t : FileTree) : Prop :=
  ∃ r made error, c.scaffold? t = .ok r ∧ r.run t = (made, .error error) ∧ error.isOfWriting = true

/-- A package is not created and the tree is as it was, or it is not created since something is not written, or it is created and
inspected. -/
theorem create_cases (e : Environment) (t : FileTree) (c : Creation) :
    (∃ message, create e t c = (t, .failed e "" message)) ∨ (c.WriteFails t ∧ (create e t c).2.code = 1) ∨
      ∃ r made, c.scaffold? t = .ok r ∧ r.run t = (made, .ok r.target) ∧ create e t c = (made, inspectNew e made r.target) := by
  cases hscaffold : c.scaffold? t with
  | error message => exact .inl ⟨message, by rw [create, hscaffold]⟩
  | ok r =>
    rcases hrun : r.run t with ⟨made, error | target⟩
    · by_cases hw : error.isOfWriting = true
      · refine .inr (.inl ⟨⟨r, made, error, hscaffold, hrun, hw⟩, ?_⟩)
        rw [create, hscaffold]
        simp only [hrun]
        rfl
      · obtain rfl := ScaffoldRequest.eq_of_run_eq_error hrun (Bool.eq_false_iff.2 hw)
        exact .inl ⟨error.message, by rw [create, hscaffold]; simp only [hrun]⟩
    · obtain ⟨rfl, -⟩ := ScaffoldRequest.run_eq_ok hrun
      exact .inr (.inr ⟨r, made, rfl, hrun, by rw [create, hscaffold]; simp only [hrun]⟩)

/-- When all files of the template are written, the package that is asked for is created and inspected. -/
theorem run_of_written {e : Environment} {t : FileTree} {arguments : List String} (texts : ParserTexts) {c : Creation}
    {r : ScaffoldRequest} {files : List TemplateFile} (hrequest : Request.ofArguments arguments = .create c) (hscaffold : c.scaffold? t = .ok r)
    (hrefusal : r.refusal? t = none) (hfiles : r.template.files t = .ok files) (hwritten : (r.writeAll t files).2 = .ok ()) :
    r.run t = ((r.writeAll t files).1, .ok r.target) ∧
      run e t arguments texts = ((r.writeAll t files).1, inspectNew e (r.writeAll t files).1 r.target) := by
  have hrun : r.run t = ((r.writeAll t files).1, .ok r.target) := by
    rw [ScaffoldRequest.run_of_files hrefusal hfiles, hwritten]
    rfl
  refine ⟨hrun, ?_⟩
  rw [run, hrequest, Request.run, create, hscaffold]
  simp only [hrun]

/-- A new package that cannot be inspected makes the run fail, and what has been printed stays; otherwise the run ends with the verdict
on the package. -/
theorem inspectNew_cases (e : Environment) (t : FileTree) (target : Path) :
    (∃ message, inspectNew e t target = .failed e (createdLine (colorsForced e) target) message ∧
      ((∃ error, Config.load t (sources e none) = .error error) ∨
        ∃ config error, Config.load t (sources e none) = .ok config ∧ Package.validateAt t target config = .error error)) ∨
      ∃ config report, Config.load t (sources e none) = .ok config ∧ Package.validateAt t target config = .ok report ∧
        inspectNew e t target = .done (createdLine (colorsForced e) target ++ verdictLine (colorsForced e) target report ++
          nextSteps (colorsForced e) target) := by
  cases hload : Config.load t (sources e none) with
  | error error => exact .inl ⟨error.explanation, by rw [inspectNew, hload], .inl ⟨error, rfl⟩⟩
  | ok config =>
    cases hvalidate : Package.validateAt t target config with
    | error error =>
      exact .inl ⟨packageTrouble error, by rw [inspectNew, hload]; simp only [hvalidate], .inr ⟨config, error, rfl, hvalidate⟩⟩
    | ok report => exact .inr ⟨config, report, rfl, hvalidate, by rw [inspectNew, hload]; simp only [hvalidate]⟩

/-- A run that is asked to create a package and fails, though every directory that it creates and every file that it writes succeeds,
leaves the tree as it was and prints nothing to standard output, so that no request is refused behind it because of a target that was not
there before. The only exception is a package that has been created as it was asked for, and of which that has been printed: then
the configuration for its inspection cannot be loaded, or its document comes from a directory and the package cannot be
inspected. -/
theorem run_init_failed {e : Environment} {t made : FileTree} {rest : List String} {texts : ParserTexts} {out : Outcome}
    (hrun : run e t ("init" :: rest) texts = (made, out)) (hcode : out.code = 1)
    (hwrites : ∀ c, Request.ofArguments ("init" :: rest) = .create c → ¬c.WriteFails t) :
    (made = t ∧ out.stdout = "" ∧
      ∀ (r : ScaffoldRequest) target, r.refusal? made = some (.targetExists target) → t.contains target = true) ∨
    ∃ c r, Request.ofArguments ("init" :: rest) = .create c ∧ c.scaffold? t = .ok r ∧ r.run t = (made, .ok r.target) ∧
      out.stdout = createdLine (colorsForced e) r.target ∧
      ((∃ error, Config.load made (sources e none) = .error error) ∨
        ∃ config error directory, Config.load made (sources e none) = .ok config ∧ r.template = .directory directory ∧
          Package.validateAt made r.target config = .error error) := by
  rcases Request.ofArguments_init rest with ⟨c, hrequest⟩ | hhelp | ⟨error, hrefuse⟩
  · have hcreate : create e t c = (made, out) := by
      rw [← hrun, run, hrequest]
      rfl
    rcases create_cases e t c with ⟨message, hfailed⟩ | ⟨hfails, -⟩ | ⟨r, after, hscaffold, hmade, hinspect⟩
    · obtain ⟨rfl, rfl⟩ := Prod.mk.inj (hcreate.symm.trans hfailed)
      exact .inl ⟨rfl, rfl, fun r target h => (r.contains_of_targetExists h).2⟩
    · exact absurd hfails (hwrites c hrequest)
    · obtain ⟨rfl, rfl⟩ := Prod.mk.inj (hcreate.symm.trans hinspect)
      rcases inspectNew_cases e made r.target with ⟨message, hfailed, hcause⟩ | ⟨config, report, -, -, hdone⟩
      · refine .inr ⟨c, r, hrequest, hscaffold, hmade, congrArg Outcome.stdout hfailed, ?_⟩
        refine hcause.imp_right fun ⟨config, error, hload, hvalidate⟩ => ?_
        -- A document from a built-in template has its header, whatever the name and the description are.
        cases htemplate : r.template with
        | directory directory => exact ⟨config, error, directory, hload, rfl, hvalidate⟩
        | basic =>
          obtain ⟨report, hreport⟩ := ScaffoldRequest.exists_validateAt_run (.inl htemplate) hmade config
          exact nomatch hvalidate.symm.trans hreport
        | withReference =>
          obtain ⟨report, hreport⟩ := ScaffoldRequest.exists_validateAt_run (.inr htemplate) hmade config
          exact nomatch hvalidate.symm.trans hreport
      · rw [hdone] at hcode
        exact nomatch hcode
  · have hdone : (t, Outcome.done (texts.help .init)) = (made, out) := by
      rw [← hrun, run, hhelp]
      rfl
    obtain ⟨-, rfl⟩ := Prod.mk.inj hdone
    exact nomatch hcode
  · have hrefused : (t, Outcome.refused (texts.refusal error)) = (made, out) := by
      rw [← hrun, run, hrefuse]
      rfl
    obtain ⟨rfl, rfl⟩ := Prod.mk.inj hrefused
    exact .inl ⟨rfl, rfl, fun r target h => (r.contains_of_targetExists h).2⟩

/-- A target that is there already: the request is refused, and what the target holds is as it was. -/
theorem run_init_failed_existing :
    let t : FileTree := ⟨[(["a-skill"], .directory), (["a-skill", documentName], .file "old".toUTF8)], []⟩
    let e : Environment := fun _ => none
    let arguments := ["init", "a-skill", "-d", "Use when asked."]
    (run e t arguments).2.code = 1 ∧ (∀ c, Request.ofArguments arguments = .create c → ¬c.WriteFails t) ∧
      (run e t arguments).1 = t ∧ (run e t arguments).2.stdout = "" := by
  intro t e arguments
  have hrequest : Request.ofArguments arguments =
      .create { name := some "a-skill", description := some "Use when asked." } := by decide
  have hcode : (run e t arguments).2.code = 1 := by decide +kernel
  have hrefused : ScaffoldRequest.run ⟨"a-skill", "Use when asked.", .basic, ⟨"."⟩, false⟩ t =
      (t, .error (.targetExists ⟨"./a-skill"⟩)) := by
    have hrefusal : ScaffoldRequest.refusal? ⟨"a-skill", "Use when asked.", .basic, ⟨"."⟩, false⟩ t =
        some (.targetExists ⟨"./a-skill"⟩) := by decide +kernel
    rw [ScaffoldRequest.run, hrefusal]
  have hwrites : ∀ c, Request.ofArguments arguments = .create c → ¬c.WriteFails t := by
    rintro c hc ⟨r, made, error, hscaffold, hrun, hw⟩
    obtain rfl := Request.create.inj (hrequest.symm.trans hc)
    obtain rfl := Except.ok.inj hscaffold
    obtain rfl := Except.error.inj (congrArg Prod.snd (hrefused.symm.trans hrun))
    exact nomatch hw
  have hrun : run e t arguments = ((run e t arguments).1, (run e t arguments).2) := rfl
  refine ⟨hcode, hwrites, ?_⟩
  rcases run_init_failed hrun hcode hwrites with ⟨hsame, hempty, -⟩ | ⟨c, r, hc, hscaffold, hmade, -⟩
  · exact ⟨hsame, hempty⟩
  · obtain rfl := Request.create.inj (hrequest.symm.trans hc)
    obtain rfl := Except.ok.inj hscaffold
    exact nomatch congrArg Prod.snd (hrefused.symm.trans hmade)

/-- A tree with a directory in it that holds a document and nothing else. -/
def documentAlone (content : String) : FileTree :=
  ⟨[(["tpl"], .directory), (["tpl", documentName], .file content.toUTF8)], []⟩

/-- A directory that holds a document and nothing else is a template with that file. -/
theorem files_documentAlone (content : String) :
    Template.files (documentAlone content) (.directory ⟨"tpl"⟩) = .ok [⟨⟨documentName⟩, content.toUTF8⟩] := by
  have hbelow : (documentAlone content).below ["tpl"] = [([documentName], .file content.toUTF8)] :=
    List.mergeSort_singleton _
  have hpaths : Glob.list (documentAlone content) (Template.patternBelow ⟨"tpl"⟩) = .ok [⟨"tpl/SKILL.md"⟩] := by
    have hlist : Glob.list (documentAlone content) (Template.patternBelow ⟨"tpl"⟩) =
        .ok (Glob.expand (documentAlone content) [Glob.exactly "tpl", [.anyDepth], [.anyText]] ⟨"."⟩) := rfl
    have hentry : Glob.entry ⟨"."⟩ "tpl" = ⟨"tpl"⟩ := rfl
    have hlocate : (documentAlone content).locate ⟨"tpl"⟩ = .ok ["tpl"] := by rfl
    rw [hlist, Glob.expand_exactly, hentry, Glob.expand_everything, Glob.descendants_of_locate hlocate, hbelow]
    rfl
  show Template.directoryFiles (documentAlone content) ⟨"tpl"⟩ = _
  exact Template.directoryFiles_of_listed hpaths (by rfl) (List.pairwise_singleton _ _)

/-- Two runs that fail and leave their packages: a directory whose document has no header makes a package that has none, and a
configuration file that is missing is looked for when the package is there. Asked for again, with no such file named, the second
package is refused. -/
theorem run_init_leaves_package :
    let t : FileTree := documentAlone "# No header\n"
    let e : Environment := fun _ => none
    let named : Environment := fun name => if name = configVariable then some "missing.md" else none
    let copying := ["init", "a-skill", "-d", "Use when asked.", "-t", "tpl"]
    let builtin := ["init", "b-skill", "-d", "Use when asked."]
    ((run e t copying).2.code = 1 ∧ (∀ c, Request.ofArguments copying = .create c → ¬c.WriteFails t) ∧
      t.node? ["a-skill"] = none ∧ (run e t copying).1.node? ["a-skill"] = some .directory) ∧
    (run named t builtin).2.code = 1 ∧ (∀ c, Request.ofArguments builtin = .create c → ¬c.WriteFails t) ∧
      t.node? ["b-skill"] = none ∧ (run named t builtin).1.node? ["b-skill"] = some .directory ∧
      (run e (run named t builtin).1 builtin).2 =
        ⟨1, "", "Error: ./b-skill already exists (use --force to write into it)\n"⟩ := by
  intro t e named copying builtin
  refine ⟨?_, ?_⟩
  · have hrequest : Request.ofArguments copying =
        .create { name := some "a-skill", description := some "Use when asked.", template := some "tpl" } := by decide
    let r : ScaffoldRequest := ⟨"a-skill", "Use when asked.", .directory ⟨"tpl"⟩, ⟨"."⟩, false⟩
    have hscaffold : Creation.scaffold? { name := some "a-skill", description := some "Use when asked.", template := some "tpl" } t =
        .ok r := by rfl
    obtain ⟨hok, hrun⟩ :=
      run_of_written (e := e) .bare hrequest hscaffold (by decide +kernel) (files_documentAlone _) (by decide +kernel)
    rw [hrun]
    refine ⟨by decide +kernel, ?_, by decide +kernel, by decide +kernel⟩
    rintro c hc ⟨r', made, error, hscaffold', hfailed, -⟩
    obtain rfl := Request.create.inj (hrequest.symm.trans hc)
    obtain rfl : r = r' := Except.ok.inj hscaffold'
    exact nomatch congrArg Prod.snd (hok.symm.trans hfailed)
  · have hrequest : Request.ofArguments builtin =
        .create { name := some "b-skill", description := some "Use when asked." } := by decide
    refine ⟨by decide +kernel, ?_, by decide +kernel, by decide +kernel, by decide +kernel⟩
    rintro c hc ⟨r, made, error, hscaffold, hrun, -⟩
    obtain rfl := Request.create.inj (hrequest.symm.trans hc)
    obtain rfl := Except.ok.inj hscaffold
    have hok : (ScaffoldRequest.run ⟨"b-skill", "Use when asked.", .basic, ⟨"."⟩, false⟩ t).2 = .ok ⟨"./b-skill"⟩ := by
      decide +kernel
    exact nomatch hok.symm.trans (congrArg Prod.snd hrun)

end CommandLine

end SkillLint
