import SkillLint.Proofs.Scaffold.Writing
import SkillLint.Proofs.Template.Builtin
import SkillLint.Proofs.Template.Directory

/-!
# What a request without force leaves alone

Without force the target must not exist before the request. So a file of the package has its place where nothing was, if the path
of the target does not go up from something missing: the path spells the place at which it would lead somewhere once the missing
directories have been created, and a file of the package lies below that (`run_unforced`). A path that goes up from something
missing leads nowhere before the request and may lead to an existing directory while its files are written
(`run_unforced_detour`).
-/

namespace SkillLint

namespace ScaffoldRequest

variable {r : ScaffoldRequest} {t : FileTree}

/-! ## Requests that are not refused -/

/-- Without force, the target of a request that is not refused does not exist. -/
theorem contains_of_refusal? (h : r.refusal? t = none) (hf : r.force = false) : t.contains r.target = false := by
  unfold refusal? at h
  simp only [hf, Bool.not_false, Bool.and_true] at h
  split at h
  · exact absurd h (by simp)
  · split at h
    · exact absurd h (by simp)
    · split at h
      · exact absurd h (by simp)
      · rename_i hmissing
        simpa using hmissing

/-- A walk along the path of the target and a front of the path of a file that does not escape passes the directory of the
target. -/
theorem exists_home_of_walk (hrefusal : FileTree.refusal? r.target = none) {file : TemplateFile}
    (he : file.path.escapes = false) {more : List String} (hmore : more <+: file.path.segments) {place : Place}
    (hw : t.walk (t.start r.target) (r.target.segments ++ more) = .ok place) (hd : t.node? place = some .directory) :
    ∃ home, t.locate r.target = .ok home ∧ t.node? home = some .directory ∧ home <+: place := by
  have hleaves := Path.leaves_of_isPrefix (hmore.filterMap _) (Path.leaves_of_not_escapes he).2
  obtain ⟨home, hhome, hw⟩ := FileTree.exists_of_walk_append hw
  refine ⟨home, by rw [FileTree.locate, hrefusal]; exact hhome, ?_, FileTree.isPrefix_of_walk hleaves hw⟩
  cases more with
  | nil => exact Except.ok.inj hw ▸ hd
  | cons segment more => exact FileTree.node?_of_walk_cons hw

/-- Where a file that does not escape can be written, the path of the target leads to a directory, and the file lies below it. -/
theorem exists_home_of_isEntry (hroot : r.target.EndsInName) {file : TemplateFile} (he : file.path.escapes = false)
    {place : Place} {name : String} (h : t.IsEntry (r.filePath file) place name) :
    ∃ home, t.locate r.target = .ok home ∧ t.node? home = some .directory ∧ home <+: place ++ [name] := by
  have habs := (Path.leaves_of_not_escapes he).1
  have hstart : t.start (r.filePath file) = t.start r.target := by
    rw [FileTree.start, FileTree.start, filePath, Path.isAbsolute_join hroot.text_ne habs]
  obtain ⟨front, hfront, hwalk⟩ := h.segments_eq
  have hbefore : front = r.target.segments ++ file.path.segments.dropLast := by
    have hsegments := (hroot.segments_join habs).symm.trans hfront
    have hboth := congrArg List.dropLast hsegments
    rw [List.dropLast_append_of_ne_nil file.path.segments_ne_nil, List.dropLast_concat] at hboth
    exact hboth.symm
  rw [hbefore, hstart] at hwalk
  obtain ⟨home, hlocate, hd, hpre⟩ := exists_home_of_walk (FileTree.refusal?_join hroot.text_ne habs h.not_refused) he
    (List.dropLast_prefix _) hwalk h.directory
  exact ⟨home, hlocate, hd, hpre.trans (List.prefix_append _ _)⟩

/-- A file of the package has its place where nothing was, unless the target is there, or its path goes up from something
missing, or the path of the file escapes. -/
theorem Enters.node?_eq_none {s : FileSystem} {file : TemplateFile} {place : Place} (h : r.Enters s file place)
    (hroot : r.target.EndsInName) (hmissing : s.contains r.target = false) (hd : ¬s.Detours r.target)
    (he : file.path.escapes = false) : s.node? place = none := by
  obtain ⟨mid, q, name, hcovers, hentry, rfl⟩ := h
  obtain ⟨home, hhome, -, hbelow⟩ := exists_home_of_isEntry hroot he hentry
  have hnone := s.wellFormed.node?_placeOf_eq_none hcovers (FileTree.refusal?_of_locate hhome) hmissing hd
    (FileTree.walk_of_locate hhome).2
  rw [← hcovers.placeOf_eq, ← FileTree.eq_placeOf_of_locate hhome] at hnone
  cases hnode : s.node? (q ++ [name]) with
  | none => rfl
  | some node =>
    have hheld := s.wellFormed.held_of_isPrefix hbelow (by rw [hnode]; rfl)
    rw [hnone] at hheld
    exact absurd hheld (by simp)

/-- Whether a request without force may come to write where something is: the target does not exist, a file of the template has
its place there, and the path of the target goes up from something missing or the path of the file escapes. -/
def Detoured (r : ScaffoldRequest) (t : FileTree) (place : Place) : Prop :=
  t.contains r.target = false ∧ ∃ files, r.template.files t = .ok files ∧ ∃ file ∈ files,
    place = t.placeOf (r.target.join file.path) ∧ (t.Detours r.target ∨ file.path.escapes = true)

/-- Whatever comes of a request without force, a place that holds something keeps it, or the request has come to write there. -/
theorem node?_run_or_detoured {s : FileSystem} (hf : r.force = false) {place : Place} {node : Node}
    (hnode : s.node? place = some node) : (r.run s).1.node? place = some node ∨ r.Detoured s place := by
  rcases r.run_cases s with ⟨e, hsame⟩ | ⟨hrefusal, files, hfiles, hmade⟩
  · rw [hsame]
    exact .inl hnode
  · rw [hmade]
    have hmissing := contains_of_refusal? hrefusal hf
    rcases (r.writeAll_progress s files).node_eq place with he | ⟨file, hfile, henters, -⟩ | ⟨hnone, -⟩
    · exact .inl (he.trans hnode)
    · refine .inr ⟨hmissing, files, hfiles, file, hfile, henters.eq_placeOf, ?_⟩
      by_contra hneither
      rw [not_or, Bool.not_eq_true] at hneither
      rw [henters.node?_eq_none (endsInName_of_refusal? hrefusal) hmissing hneither.1 hneither.2] at hnode
      exact absurd hnode (by simp)
    · rw [hnone] at hnode
      exact absurd hnode (by simp)

/-- Without force, a place that holds something keeps it whatever comes of the request, if the path of the target does not go up
from something missing and the template is a built-in one or a directory whose path has no wildcards. In general a place keeps
what it holds unless a file of the template has its place there, the target does not exist, and its path goes up from something
missing or the path of the file escapes. When the request succeeds, the path of each file leads to a file of the package. -/
theorem run_unforced (r : ScaffoldRequest) (s : FileSystem) (hf : r.force = false) :
    (¬s.Detours r.target → r.template.IsLiteral →
      ∀ place node, s.node? place = some node → (r.run s).1.node? place = some node) ∧
    (∀ place node, s.node? place = some node → (r.run s).1.node? place = some node ∨ r.Detoured s place) ∧
    ∀ target files, (r.run s).2 = .ok target → r.template.files s = .ok files →
      ∀ file ∈ files, r.Holds files s (r.run s).1 file := by
  refine ⟨fun hd hliteral place node hnode => ?_, fun place node => node?_run_or_detoured hf,
    fun target files hok hfiles => ?_⟩
  · refine (node?_run_or_detoured hf hnode).resolve_right ?_
    rintro ⟨-, files, hfiles, file, hfile, -, hdetours | hescapes⟩
    · exact hd hdetours
    · rw [Template.escapes_files hliteral hfiles file hfile] at hescapes
      exact absurd hescapes (by simp)
  · have hrun : r.run s = ((r.run s).1, .ok target) := Prod.ext rfl hok
    obtain ⟨-, -, files', hfiles', hwritten⟩ := run_eq_ok hrun
    obtain rfl : files' = files := Except.ok.inj (hfiles'.symm.trans hfiles)
    exact writeAll_holds hwritten

/-- A destination that goes up from a directory that is there, and on to directories that are not, leads nowhere where something
was. -/
theorem run_unforced_missing :
    let t : FileTree := ⟨[(["a"], .directory), (["a", "notes"], .file "old".toUTF8)], []⟩
    let r : ScaffoldRequest := ⟨"my-skill", "Use when asked.", .basic, ⟨"a/../b/./c"⟩, false⟩
    t.WellFormed ∧ r.force = false ∧ ¬t.Detours r.target ∧ (r.run t).2 = .ok r.target ∧
      (r.run t).1.node? ["a", "notes"] = some (.file "old".toUTF8) := by
  intro t r
  have ht : t.WellFormed := by decide +kernel
  have hd : ¬t.Detours r.target := by decide +kernel
  exact ⟨ht, rfl, hd, by decide +kernel, (run_unforced r ⟨t, ht⟩ rfl).1 hd trivial _ _ rfl⟩

/-- A destination that goes up from a directory that is missing leads nowhere, so that a request without force is not refused; while
the file is written the directory is there, and the path leads to a document that was there before. -/
theorem run_unforced_detour :
    let t : FileTree :=
      ⟨[(["out"], .directory), (["out", "my-skill"], .directory), (["out", "my-skill", documentName], .file "old".toUTF8)], []⟩
    let r : ScaffoldRequest := ⟨"my-skill", "Use when asked.", .basic, ⟨"new/../out"⟩, false⟩
    t.WellFormed ∧ r.force = false ∧ t.Detours r.target ∧ (r.run t).2 = .ok r.target ∧
      t.node? ["out", "my-skill", documentName] = some (.file "old".toUTF8) ∧
      (r.run t).1.node? ["out", "my-skill", documentName] ≠ some (.file "old".toUTF8) := by
  intro t r
  have hok : (r.run t).2 = .ok r.target := by decide +kernel
  have hrun : r.run t = ((r.run t).1, .ok r.target) := Prod.ext rfl hok
  have hmade : (r.run t).1.node? ["out", "my-skill", documentName] = some (.file (r.render Template.basicDocument.toUTF8)) := by
    obtain ⟨-, -, files, hfiles, hwritten⟩ := run_eq_ok hrun
    obtain rfl : [⟨⟨documentName⟩, Template.basicDocument.toUTF8⟩] = files := Except.ok.inj hfiles
    obtain ⟨-, other, hother, -, hnode⟩ := writeAll_holds hwritten _ List.mem_cons_self
    obtain rfl := List.mem_singleton.1 hother
    have hplace : t.placeOf (r.target.join ⟨documentName⟩) = ["out", "my-skill", documentName] := by decide +kernel
    exact hplace ▸ hnode
  have hlost : r.render Template.basicDocument.toUTF8 ≠ "old".toUTF8 := by
    intro e
    have htext := congrArg String.fromUTF8? e
    rw [render_toUTF8, FileTree.decode_toUTF8, FileTree.decode_toUTF8, Template.substitute_basicDocument] at htext
    have hfirst := congrArg (·.toList.head?) (Option.some.inj htext)
    simp [Header.documentText, Text.endLines_cons, Header.delimiterLine] at hfirst
  refine ⟨by decide +kernel, rfl, by decide +kernel, hok, by decide +kernel, ?_⟩
  rw [hmade]
  exact fun e => hlost (Node.file.inj (Option.some.inj e))

end ScaffoldRequest

end SkillLint
