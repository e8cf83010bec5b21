import SkillLint.Proofs.Scaffold.Unforced

/-!
# Copying a template directory

The files of a directory are all read before the first is written. So what is written of each is made from what it held before the
request, wherever the target lies; files with different names have different places, and everything else is as it was or a
directory on the way to a file.
-/

namespace SkillLint.ScaffoldRequest

variable {r : ScaffoldRequest} {s : FileSystem} {made : FileTree}

/-- When the files of a directory are written, each is in the target under the names that it has in the directory, as it is
rendered from what it held before. -/
theorem read_of_written {directory : Path} (hhead : directory.components.head? ≠ some .here)
    (hliteral : Glob.IsLiteral directory.text.toList) {files : List TemplateFile}
    (hfiles : Template.directoryFiles s directory = .ok files) (hwritten : r.writeAll s files = (made, .ok ()))
    {names : List String} (hne : names ≠ []) (hn : ∀ name ∈ names, FileTree.IsEntryName name) {content : ByteArray}
    (hread : s.read (directory.join (Path.ofNames names)) = .ok content) :
    made.locate (r.target.join (Path.ofNames names)) = .ok (s.placeOf r.target ++ names) ∧
      made.read (r.target.join (Path.ofNames names)) = .ok (r.render content) := by
  have hmem := Template.mem_of_read hne hn hhead hliteral hfiles hread
  obtain ⟨hlocate, other, hother, hsame, hnode⟩ := writeAll_holds hwritten _ hmem
  have hplace := s.placeOf_join_ofNames r.target hne hn
  have hcontent : other.content = content := by
    -- Another file with the same place has the same names, and so the content that is read under them.
    obtain ⟨names', hne', hn', hpath, hheld⟩ := Template.exists_names_of_mem hhead hliteral hfiles hother
    have hplaces : s.placeOf (r.target.join other.path) = s.placeOf (r.target.join (Path.ofNames names)) := hsame
    rw [hpath, s.placeOf_join_ofNames r.target hne' hn', hplace, List.append_cancel_left_eq] at hplaces
    rw [hplaces, Template.node?_of_read hne hn hread] at hheld
    exact (Node.file.inj (Option.some.inj hheld)).symm
  rw [hcontent] at hnode
  exact ⟨hplace ▸ hlocate, FileTree.read_of_locate hlocate hnode⟩

/-- After a request with a directory as its template has succeeded, every file of the directory is in the target, as it is rendered
from what it held before. Every place is as it was, or it is that of such a file, or a directory has been created there on the
way to one. The target may lie in the directory, hold it or be it, and the files may have been there. -/
theorem run_directory {directory : Path} {above : List String} (htemplate : r.template = .directory directory)
    (hd : directory.components = above.map .name) (hliteral : Glob.IsLiteral directory.text.toList) {target : Path}
    (hrun : r.run s = (made, .ok target)) :
    target = r.target ∧
    (∀ names content, names ≠ [] → (∀ name ∈ names, FileTree.IsEntryName name) →
      s.read (directory.join (Path.ofNames names)) = .ok content →
      made.locate (target.join (Path.ofNames names)) = .ok (s.placeOf target ++ names) ∧
      (∀ text, content = text.toUTF8 →
        made.read (target.join (Path.ofNames names)) = .ok (Template.substitute r.placeholderValues text).toUTF8) ∧
      (String.fromUTF8? content = none → made.read (target.join (Path.ofNames names)) = .ok content)) ∧
    ∀ place, made.node? place = s.node? place ∨
      ∃ names content, names ≠ [] ∧ s.node? (s.here ++ above ++ names) = some (.file content) ∧
        (place = s.placeOf target ++ names ∧ made.node? place = some (.file (r.render content)) ∨
          s.node? place = none ∧ made.node? place = some .directory ∧
            s.Passes (target.join (Path.ofNames names)) place) := by
  obtain ⟨rfl, -, files, hfiles, hwritten⟩ := run_eq_ok hrun
  rw [htemplate] at hfiles
  have hhead : directory.components.head? ≠ some .here := by
    rw [hd]
    cases above <;> simp
  have hnamed := fun file (hf : file ∈ files) => Template.exists_names_of_mem hhead hliteral hfiles hf
  have hdirectory : s.placeOf directory = s.here ++ above := FileTree.placeOf_of_components hd
  have hprogress := r.writeAll_progress s files
  rw [hwritten] at hprogress
  refine ⟨rfl, fun names content hne hn hread => ?_, fun place => ?_⟩
  · obtain ⟨hlocate, hread'⟩ := read_of_written hhead hliteral hfiles hwritten hne hn hread
    refine ⟨hlocate, ?_, fun hbytes => ?_⟩
    · rintro text rfl
      rw [hread', render_toUTF8]
    · rw [hread', render, hbytes]
  · rcases hprogress.node_eq place with he | ⟨file, hf, henters, hnode⟩ | ⟨hnone, hdir, file, hf, hpasses⟩
    · exact .inl he
    · obtain ⟨names, hne, hn, hpath, hheld⟩ := hnamed file hf
      refine .inr ⟨names, file.content, hne, hdirectory ▸ hheld, .inl ⟨?_, hnode⟩⟩
      rw [henters.eq_placeOf, filePath, hpath, s.placeOf_join_ofNames r.target hne hn]
    · obtain ⟨names, hne, hn, hpath, hheld⟩ := hnamed file hf
      refine .inr ⟨names, file.content, hne, hdirectory ▸ hheld, .inr ⟨hnone, hdir, ?_⟩⟩
      rw [← hpath]
      exact hpasses

/-- A template that is written over itself, by force: the document has its placeholder replaced, and a hidden file that holds no
text is what it was. -/
theorem run_directory_itself :
    let t : FileTree :=
      ⟨[(["tpl"], .directory), (["tpl", ".hidden"], .directory), (["tpl", ".hidden", "x"], .file ⟨#[0xff]⟩),
        (["tpl", documentName], .file "name: \x7b\x7bname\x7d\x7d".toUTF8)], []⟩
    let r : ScaffoldRequest := ⟨"tpl", "Use when asked.", .directory ⟨"tpl"⟩, ⟨"."⟩, true⟩
    t.WellFormed ∧ Path.components ⟨"tpl"⟩ = [.name "tpl"] ∧ Glob.IsLiteral "tpl".toList ∧
      r.run t = ((r.run t).1, .ok ⟨"./tpl"⟩) ∧
      (r.run t).1.read ⟨"./tpl/SKILL.md"⟩ = .ok "name: tpl".toUTF8 ∧
      (r.run t).1.read ⟨"./tpl/.hidden/x"⟩ = .ok ⟨#[0xff]⟩ := by
  intro t r
  have ht : t.WellFormed := by decide +kernel
  have hliteral : Glob.IsLiteral "tpl".toList := by decide +kernel
  have hbelow : t.below ["tpl"] = [([".hidden"], .directory), ([".hidden", "x"], .file ⟨#[0xff]⟩),
      ([documentName], .file "name: \x7b\x7bname\x7d\x7d".toUTF8)] :=
    List.mergeSort_of_pairwise (by decide +kernel)
  have hpaths : Glob.list t (Template.patternBelow ⟨"tpl"⟩) = .ok [⟨"tpl/.hidden"⟩, ⟨"tpl/.hidden/x"⟩, ⟨"tpl/SKILL.md"⟩] := by
    have hlist : Glob.list t (Template.patternBelow ⟨"tpl"⟩) =
        .ok (Glob.expand t [Glob.exactly "tpl", [.anyDepth], [.anyText]] ⟨"."⟩) := rfl
    have hentry : Glob.entry ⟨"."⟩ "tpl" = ⟨"tpl"⟩ := rfl
    have hlocate : t.locate ⟨"tpl"⟩ = .ok ["tpl"] := by decide +kernel
    rw [hlist, Glob.expand_exactly, hentry, Glob.expand_everything, Glob.descendants, hlocate]
    simp only
    rw [hbelow]
    decide +kernel
  have hfiles : r.template.files t = .ok [⟨⟨".hidden/x"⟩, ⟨#[0xff]⟩⟩, ⟨⟨documentName⟩, "name: \x7b\x7bname\x7d\x7d".toUTF8⟩] := by
    show Template.directoryFiles t ⟨"tpl"⟩ = _
    exact Template.directoryFiles_of_listed hpaths (by rfl) (by decide +kernel)
  have hrun : r.run t = ((r.run t).1, .ok ⟨"./tpl"⟩) := by
    have hrefusal : r.refusal? t = none := by decide +kernel
    have htarget : r.target = ⟨"./tpl"⟩ := by decide +kernel
    have hwritten : (r.writeAll t [⟨⟨".hidden/x"⟩, ⟨#[0xff]⟩⟩, ⟨⟨documentName⟩, "name: \x7b\x7bname\x7d\x7d".toUTF8⟩]).2 =
      .ok () := by decide +kernel
    have hresult := congrArg Prod.snd (run_of_files hrefusal hfiles)
    rw [hwritten, htarget] at hresult
    exact Prod.ext rfl hresult
  have hcomponents : Path.components ⟨"tpl"⟩ = ["tpl"].map .name := by decide +kernel
  have hreplaced : Template.substitute r.placeholderValues "name: \x7b\x7bname\x7d\x7d" = "name: tpl" := by decide +kernel
  have hdocument : t.read (Path.join ⟨"tpl"⟩ (Path.ofNames [documentName])) = .ok "name: \x7b\x7bname\x7d\x7d".toUTF8 := by
    decide +kernel
  have hhidden : t.read (Path.join ⟨"tpl"⟩ (Path.ofNames [".hidden", "x"])) = .ok ⟨#[0xff]⟩ := by decide +kernel
  obtain ⟨-, hcopied, -⟩ := run_directory (s := ⟨t, ht⟩) rfl hcomponents hliteral hrun
  obtain ⟨-, htext, -⟩ := hcopied [documentName] _ (by simp) (by decide) hdocument
  obtain ⟨-, -, hbytes⟩ := hcopied [".hidden", "x"] _ (by simp) (by decide) hhidden
  refine ⟨ht, hcomponents, hliteral, hrun, ?_, hbytes (by decide +kernel)⟩
  rw [← hreplaced]
  exact htext _ rfl

end SkillLint.ScaffoldRequest
