import SkillLint.Proofs.Scaffold.Unforced

/-!
# Where a request changes a tree

A request that is refused, or whose template cannot be listed, changes nothing. Any other removes nothing, however it ends, and
changes a tree in the directory to which the path of the target leads then, besides new directories on the way there
(`run_confined`). Each step of the writing keeps this: a directory is created and a file is put where a walk along the path of the
file has come, which has gone through the directory of the target unless it has not got as far. Only the file of a template whose
path escapes is elsewhere. No such file is listed for a directory whose path is read as it is written; a path that is read as a
pattern can list one (`run_confined_stray`).
-/

namespace SkillLint.ScaffoldRequest

variable {r : ScaffoldRequest} {files : List TemplateFile} {t made last : FileTree} {place : Place}

/-- Whether a place is that of the directory to which the path of the target leads, or lies below it. -/
def Within (r : ScaffoldRequest) (t : FileTree) (place : Place) : Prop :=
  ∃ home, t.locate r.target = .ok home ∧ t.node? home = some .directory ∧ home <+: place

/-- Whether a place holds a new directory on the way to the target. -/
def Leading (r : ScaffoldRequest) (t made : FileTree) (place : Place) : Prop :=
  t.node? place = none ∧ made.node? place = some .directory ∧ t.Passes r.target place

/-- Whether a place is on the way to a file of the template whose path escapes, or that of the file. -/
def Strays (r : ScaffoldRequest) (files : List TemplateFile) (t : FileTree) (place : Place) : Prop :=
  ∃ file ∈ files, file.path.escapes = true ∧ t.Passes (r.filePath file) place

/-- Whether steps of a run have left a place as it was, or may have changed it. -/
def Accounted (r : ScaffoldRequest) (files : List TemplateFile) (t made : FileTree) (place : Place) : Prop :=
  made.node? place = t.node? place ∨ r.Within made place ∨ r.Leading t made place ∨ r.Strays files t place

/-! ## One step -/

theorem Within.of_covers (h : r.Within made place) (hc : made.Covers last) : r.Within last place := by
  obtain ⟨home, hlocate, hd, hpre⟩ := h
  exact ⟨home, hc.locate_eq hlocate, hc.directory_kept home hd, hpre⟩

/-- A place that stays as it is stays accounted for. -/
theorem Accounted.of_node?_eq (h : r.Accounted files t made place) (hc : made.Covers last)
    (he : last.node? place = made.node? place) : r.Accounted files t last place := by
  rcases h with hsame | hwithin | ⟨hnone, hd, hpasses⟩ | hstrays
  · exact .inl (he.trans hsame)
  · exact .inr (.inl (hwithin.of_covers hc))
  · exact .inr (.inr (.inl ⟨hnone, he.trans hd, hpasses⟩))
  · exact .inr (.inr (.inr hstrays))

/-- A path that is a front of that of a file leads on the way to the target, or through the directory of the target, unless the
path of the file escapes. -/
theorem passes_or_within_of_reaches (hroot : r.target.EndsInName) {file : TemplateFile} (he : file.path.escapes = false)
    (hreaches : t.Reaches (r.filePath file) place) (hd : t.node? place = some .directory) :
    t.Passes r.target place ∨ r.Within t place := by
  obtain ⟨x, habs, hpre, hlocate⟩ := hreaches
  have hrelative := (Path.leaves_of_not_escapes he).1
  have hstart : t.start x = t.start r.target := by
    rw [FileTree.start, FileTree.start, habs, filePath, Path.isAbsolute_join hroot.text_ne hrelative]
  have hsegments : (r.filePath file).segments = r.target.segments ++ file.path.segments := hroot.segments_join hrelative
  rw [hsegments] at hpre
  rcases List.prefix_or_prefix_of_prefix hpre (List.prefix_append r.target.segments _) with hshort | ⟨more, hmore⟩
  · refine .inl ⟨x.segments, hshort, ?_⟩
    rw [FileTree.eq_placeOf_of_locate hlocate, FileTree.placeOf, hstart]
  · have hrefusal : FileTree.refusal? r.target = none :=
      FileTree.refusal?_of_sublist (Path.text_isPrefix_of_segments ⟨more, hmore⟩).sublist hroot.text_ne
        (FileTree.refusal?_of_locate hlocate)
    have hwalk := (FileTree.walk_of_locate hlocate).2
    rw [← hmore, hstart] at hwalk
    rw [← hmore, List.prefix_append_right_inj] at hpre
    exact .inr (exists_home_of_walk hrefusal he hpre hwalk hd)

/-- Directories that are added on the way to a file are accounted for, as everything else is. -/
theorem Accounted.of_addsDirectories (hroot : r.target.EndsInName) (hc : t.Covers made) {file : TemplateFile} (hf : file ∈ files)
    (ha : made.AddsDirectories last (last.Reaches (r.filePath file))) (h : r.Accounted files t made place) :
    r.Accounted files t last place := by
  have hcovers := ha.extension.covers
  rcases ha.node_eq place with hsame | ⟨hnone, hd, hreaches⟩
  · exact h.of_node?_eq hcovers hsame
  · have hpasses : ∀ p, last.Passes p place → t.Passes p place := by
      rintro p ⟨front, hfront, hplace⟩
      exact ⟨front, hfront, by rw [hplace, hcovers.start_eq, hc.start_eq]⟩
    have hmissing : t.node? place = none := by
      rw [← Option.not_isSome_iff_eq_none]
      intro hheld
      have hkept := hc.held_kept hheld
      rw [hnone] at hkept
      exact absurd hkept (by simp)
    cases he : file.path.escapes with
    | true => exact .inr (.inr (.inr ⟨file, hf, he, hpasses _ hreaches.passes⟩))
    | false =>
      rcases passes_or_within_of_reaches hroot he hreaches hd with hleads | hwithin
      · exact .inr (.inr (.inl ⟨hmissing, hd, hpasses _ hleads⟩))
      · exact .inr (.inl hwithin)

/-- A file that is put at its entry is accounted for, as everything else is. -/
theorem Accounted.of_put (hroot : r.target.EndsInName) (hc : t.Covers made) {file : TemplateFile} (hf : file ∈ files) {q : Place}
    {name : String} (hentry : made.IsEntry (r.filePath file) q name) (hd : made.node? (q ++ [name]) ≠ some .directory)
    {content : ByteArray} (h : r.Accounted files t made place) :
    r.Accounted files t (made.put (q ++ [name]) (.file content)) place := by
  have hcovers := FileTree.covers_put_file made content hd
  by_cases hplace : place = q ++ [name]
  · cases he : file.path.escapes with
    | true =>
      refine .inr (.inr (.inr ⟨file, hf, he, (r.filePath file).segments, List.prefix_refl _, ?_⟩))
      rw [hplace, hentry.eq_placeOf, hc.placeOf_eq, FileTree.placeOf]
    | false => exact .inr (.inl (.of_covers (hplace ▸ exists_home_of_isEntry hroot he hentry) hcovers))
  · exact h.of_node?_eq hcovers (by rw [made.node?_put _ _ _ (by simp), if_neg hplace])

/-- A step, whether or not it succeeds, keeps every place accounted for. -/
theorem accounted_writeOne (hroot : r.target.EndsInName) (hc : t.Covers made) {file : TemplateFile} (hf : file ∈ files)
    (h : ∀ place, r.Accounted files t made place) (place : Place) : r.Accounted files t (r.writeOne made file).1 place := by
  obtain ⟨mid, hadds, ⟨hmade, -⟩ | ⟨q, name, hentry, hd, hmade⟩⟩ := r.writeOne_cases made file
  · rw [hmade]
    exact (h place).of_addsDirectories hroot hc hf hadds
  · rw [hmade]
    exact ((h place).of_addsDirectories hroot hc hf hadds).of_put hroot (hc.trans hadds.extension.covers) hf hentry hd

/-! ## All steps -/

/-- A run, whether or not it succeeds, keeps every place accounted for. -/
theorem accounted_writeAll (hroot : r.target.EndsInName) (t : FileTree) (files : List TemplateFile) (place : Place) :
    r.Accounted files t (r.writeAll t files).1 place := by
  have hall : r.Progress files t (r.writeAll t files).1 ∧ ∀ place, r.Accounted files t (r.writeAll t files).1 place :=
    FileTree.attemptAll_invariant (I := fun made => r.Progress files t made ∧ ∀ place, r.Accounted files t made place)
      (fun _ _ hf h => ⟨h.1.step hf, accounted_writeOne hroot h.1.covers hf h.2⟩) ⟨.refl r files t, fun _ => .inl rfl⟩
  exact hall.2 place

/-- A request that fails otherwise than by writing leaves the tree as it is. However a request ends, every directory is one still
and every file is one still, and every place that is not as it was is in the directory to which the path of the target leads then,
or holds a new directory on the way there, or is on the way to a file of the template whose path escapes. There is no such file
where the template is a built-in one or a directory whose path has no wildcards. -/
theorem run_confined (r : ScaffoldRequest) (s : FileSystem) :
    (∀ error, (r.run s).2 = .error error → error.isOfWriting = false → (r.run s).1 = s) ∧
    s.Covers (r.run s).1 ∧
    (∀ place, (r.run s).1.node? place = s.node? place ∨ r.Within (r.run s).1 place ∨ r.Leading s (r.run s).1 place ∨
      ∃ files, r.template.files s = .ok files ∧ r.Strays files s place) ∧
    (r.template.IsLiteral → ∀ place,
      (r.run s).1.node? place = s.node? place ∨ r.Within (r.run s).1 place ∨ r.Leading s (r.run s).1 place) := by
  constructor
  · intro error herror hw
    have hrun : r.run s = ((r.run s).1, .error error) := Prod.ext rfl herror
    exact eq_of_run_eq_error hrun hw
  rcases r.run_cases s with ⟨e, hsame⟩ | ⟨hrefusal, files, hfiles, hmade⟩
  · rw [hsame]
    exact ⟨(FileTree.Extends.refl s).covers, fun _ => .inl rfl, fun _ _ => .inl rfl⟩
  · rw [hmade]
    have haccounted := accounted_writeAll (endsInName_of_refusal? hrefusal) s files
    refine ⟨(r.writeAll_progress s files).covers, fun place => ?_, fun hliteral place => ?_⟩
    · exact (haccounted place).imp_right (Or.imp_right (Or.imp_right fun hstrays => ⟨files, hfiles, hstrays⟩))
    · rcases haccounted place with hsame | hwithin | hleading | ⟨file, hf, he, -⟩
      · exact .inl hsame
      · exact .inr (.inl hwithin)
      · exact .inr (.inr hleading)
      · rw [Template.escapes_files hliteral hfiles file hf] at he
        exact absurd he (by simp)

/-- A request that fails midway, since a directory stands where a file is to be written, has written another file into the target
and created a directory on the way there. -/
theorem run_confined_midway :
    let t : FileTree := ⟨[(["out"], .directory), (["out", "my-skill"], .directory),
      (["out", "my-skill", Template.referenceName], .directory), (["notes"], .file "old".toUTF8)], []⟩
    let r : ScaffoldRequest := ⟨"my-skill", "Use when asked.", .withReference, ⟨"new/../out"⟩, true⟩
    t.WellFormed ∧ (r.run t).2 = .error (.notWritten ⟨"new/../out/my-skill/reference.md"⟩ .isDirectory) ∧
      r.Within (r.run t).1 ["out", "my-skill", documentName] ∧ r.Leading t (r.run t).1 ["new"] ∧
      (r.run t).1.node? ["notes"] = some (.file "old".toUTF8) := by
  intro t r
  have ht : t.WellFormed := by decide +kernel
  have hplaces : ∀ place,
      (r.run t).1.node? place = t.node? place ∨ r.Within (r.run t).1 place ∨ r.Leading t (r.run t).1 place :=
    (run_confined r ⟨t, ht⟩).2.2.2 trivial
  have hhome : (r.run t).1.locate r.target = .ok ["out", "my-skill"] := by decide +kernel
  have hfile : ((r.run t).1.node? ["out", "my-skill", documentName]).isSome = true ∧
      (r.run t).1.node? ["out", "my-skill", documentName] ≠ some .directory := by decide +kernel
  have hnew : (r.run t).1.node? ["new"] = some .directory := by decide +kernel
  refine ⟨ht, by decide +kernel, ?_, ?_, by decide +kernel⟩
  · rcases hplaces ["out", "my-skill", documentName] with hsame | hwithin | hleading
    · rw [hsame] at hfile
      exact absurd hfile.1 (by decide)
    · exact hwithin
    · exact absurd hleading.2.1 hfile.2
  · rcases hplaces ["new"] with hsame | ⟨home, hlocate, -, hpre⟩ | hleading
    · rw [hsame] at hnew
      exact absurd hnew (by decide)
    · obtain rfl : ["out", "my-skill"] = home := Except.ok.inj (hhome.symm.trans hlocate)
      exact absurd hpre (by decide)
    · exact hleading

/-- A tree with a template whose path stands for other paths than itself when it is read as a pattern. -/
def patternTree : FileTree :=
  ⟨[(["a"], .directory), (["a", "**"], .directory), (["a", "**", "[.]?"], .directory), (["a", "**", "[.]?", ".*"], .directory),
    (["a", "**", "[.]?", ".*", documentName], .file "x".toUTF8)], []⟩

/-- Read as a pattern, the path of the template leads to the directory above it too. -/
theorem list_patternTree : Glob.list patternTree (Template.patternBelow ⟨"a/**/[.]?/.*"⟩) =
    .ok [⟨"a/**/[.]?/.*/../.*"⟩, ⟨"a/**/[.]?/.*/../.*/SKILL.md"⟩, ⟨"a/**/[.]?/.*/./SKILL.md"⟩] := by
  have hbelow : patternTree.below ["a"] = [(["**"], .directory), (["**", "[.]?"], .directory),
      (["**", "[.]?", ".*"], .directory), (["**", "[.]?", ".*", documentName], .file "x".toUTF8)] :=
    List.mergeSort_of_pairwise (by decide +kernel)
  have habove : patternTree.below ["a", "**", "[.]?"] = [([".*"], .directory), ([".*", documentName], .file "x".toUTF8)] :=
    List.mergeSort_of_pairwise (by decide +kernel)
  have hhome : patternTree.below ["a", "**", "[.]?", ".*"] = [([documentName], .file "x".toUTF8)] := List.mergeSort_singleton _
  have hfound : patternTree.locate ⟨"a"⟩ = .ok ["a"] ∧
      patternTree.locate ⟨"a/**/[.]?/.*"⟩ = .ok ["a", "**", "[.]?", ".*"] ∧
      patternTree.locate ⟨"a/**/[.]?/.*/.."⟩ = .ok ["a", "**", "[.]?"] ∧
      patternTree.locate ⟨"a/**/[.]?/.*/."⟩ = .ok ["a", "**", "[.]?", ".*"] := by decide +kernel
  have hdirectories : patternTree.isDirectory ⟨"a"⟩ = true ∧ patternTree.isDirectory ⟨"a/**/[.]?/.*"⟩ = true ∧
      patternTree.isDirectory ⟨"a/**/[.]?/.*/.."⟩ = true ∧ patternTree.isDirectory ⟨"a/**/[.]?/.*/."⟩ = true := by
    decide +kernel
  -- Of what lies below the first directory only the template itself has a name of two characters with a dot in front.
  have hnamed : (Glob.descendants patternTree ⟨"a"⟩).filter
      (fun q => Glob.accepts [.oneOf [('.', '.')], .anyChar] (Glob.lastName q)) = [⟨"a/**/[.]?/.*"⟩] := by
    rw [Glob.descendants_of_locate hfound.1, hbelow]
    decide +kernel
  have hchildren : (Glob.children patternTree ⟨"a/**/[.]?/.*"⟩).filter
      (fun q => Glob.accepts [.exact '.', .anyText] (Glob.lastName q)) = [] := by
    rw [Glob.children_of_locate hfound.2.1, hhome]
    decide +kernel
  have hdots : Glob.dotEntries [.exact '.', .anyText] ⟨"a/**/[.]?/.*"⟩ = [⟨"a/**/[.]?/.*/.."⟩, ⟨"a/**/[.]?/.*/."⟩] := by
    decide +kernel
  have hup : Glob.descendants patternTree ⟨"a/**/[.]?/.*/.."⟩ = [⟨"a/**/[.]?/.*/../.*"⟩, ⟨"a/**/[.]?/.*/../.*/SKILL.md"⟩] := by
    rw [Glob.descendants_of_locate hfound.2.2.1, habove]
    decide +kernel
  have hsame : Glob.descendants patternTree ⟨"a/**/[.]?/.*/."⟩ = [⟨"a/**/[.]?/.*/./SKILL.md"⟩] := by
    rw [Glob.descendants_of_locate hfound.2.2.2, hhome]
    decide +kernel
  have hlist : Glob.list patternTree (Template.patternBelow ⟨"a/**/[.]?/.*"⟩) = .ok (Glob.expand patternTree [Glob.exactly "a",
      [.anyDepth], [.oneOf [('.', '.')], .anyChar], [.exact '.', .anyText], [.anyDepth], [.anyText]] ⟨"."⟩) := rfl
  have hentry : Glob.entry ⟨"."⟩ "a" = ⟨"a"⟩ := rfl
  have hcontains : patternTree.contains ⟨"a"⟩ = true := by decide +kernel
  rw [hlist, Glob.expand_exactly, hentry, hcontains, Glob.expand_anyDepth hdirectories.1, hnamed, List.flatMap_singleton,
    Glob.expand_several hdirectories.2.1 (by decide) (by decide), hdots, hchildren]
  simp [Glob.expand_everything, hdirectories, hup, hsame]

/-- A template whose path is read as a pattern has a file above it, which is written beside the target. -/
theorem run_confined_stray :
    let r : ScaffoldRequest := ⟨"my-skill", "Use when asked.", .directory ⟨"a/**/[.]?/.*"⟩, ⟨"."⟩, false⟩
    patternTree.WellFormed ∧ Template.resolve patternTree "a/**/[.]?/.*" = .ok r.template ∧
      (r.run patternTree).2 = .ok r.target ∧
      patternTree.node? [".*", documentName] = none ∧ (r.run patternTree).1.node? [".*", documentName] ≠ none ∧
      ¬r.Within (r.run patternTree).1 [".*", documentName] ∧
      ¬r.Leading patternTree (r.run patternTree).1 [".*", documentName] := by
  intro r
  have hfiles : r.template.files patternTree = .ok [⟨⟨"../.*/SKILL.md"⟩, "x".toUTF8⟩, ⟨⟨documentName⟩, "x".toUTF8⟩] := by
    show Template.directoryFiles patternTree ⟨"a/**/[.]?/.*"⟩ = _
    exact Template.directoryFiles_of_listed list_patternTree (by rfl) (by decide +kernel)
  obtain ⟨written, hwritten, hresult, hhome, hmade, hfile⟩ :
      ∃ written, r.writeAll patternTree [⟨⟨"../.*/SKILL.md"⟩, "x".toUTF8⟩, ⟨⟨documentName⟩, "x".toUTF8⟩] = written ∧
        written.2 = .ok () ∧ written.1.locate r.target = .ok ["my-skill"] ∧
        written.1.node? [".*", documentName] ≠ none ∧ written.1.node? [".*", documentName] ≠ some .directory := by
    refine ⟨_, rfl, ?_⟩
    decide +kernel
  have hrun := run_of_files (by decide +kernel) hfiles
  rw [hwritten, hresult] at hrun
  rw [hrun]
  refine ⟨by decide +kernel, by decide +kernel, rfl, rfl, hmade, ?_, fun hleading => hfile hleading.2.1⟩
  rintro ⟨home, hlocate, -, hpre⟩
  rw [hhome] at hlocate
  obtain rfl : ["my-skill"] = home := Except.ok.inj hlocate
  exact absurd hpre (by decide)

end SkillLint.ScaffoldRequest
