import SkillLint.Proofs.Scaffold.Copy

/-!
# Templates that are accepted

An argument is accepted as a template when its path leads to a directory with a document. The files of the directory are listed
under paths made by the listing, so that the document is among them only if these begin with the components of the argument. They
do for every argument without wildcards that does not begin with a dot; where it does, nothing can be copied (`run_accepted`,
`run_accepted_dot`).
-/

namespace SkillLint

namespace Template

variable {t : FileTree} {directory : Path} {content : ByteArray}

/-- Whether the files of a directory can be listed, and the document is among them. -/
def ListsDocument (t : FileTree) (directory : Path) (content : ByteArray) : Prop :=
  ∃ files, (Template.directory directory).files t = .ok files ∧ ⟨⟨documentName⟩, content⟩ ∈ files

/-- An argument that is accepted as a directory is its path, and leads to a directory with a document. -/
theorem resolve_eq_directory {argument : String} (h : resolve t argument = .ok (.directory directory)) :
    directory = ⟨argument⟩ ∧ t.isDirectory directory = true ∧ t.isFile (directory.child documentName) = true := by
  unfold resolve at h
  split at h
  · exact nomatch h
  · split at h
    · exact nomatch h
    · split at h
      · exact nomatch h
      · rename_i hd
        split at h
        · exact nomatch h
        · rename_i hf
          obtain rfl : ⟨argument⟩ = directory := Template.directory.inj (Except.ok.inj h)
          exact ⟨rfl, by simpa using hd, by simpa using hf⟩

/-! ## What is listed -/

/-- Components whose texts make up the name of the document are the name alone. -/
theorem eq_of_ofNames_eq {rest : List Path.Component} (h : Path.ofNames (rest.map Path.Component.text) = ⟨documentName⟩) :
    rest = [.name documentName] := by
  have htext : ['/'].intercalate (rest.map fun c => c.text.toList) = documentName.toList := by
    rw [← congrArg (fun p => p.text.toList) h, Path.ofNames, String.toList_intercalate, List.map_map]
    rfl
  rcases rest with _ | ⟨c, _ | ⟨d, more⟩⟩
  · exact absurd htext (by decide)
  · have hc : c.text = documentName := String.toList_injective (by simpa using htext)
    cases c with
    | root => exact absurd hc (by decide)
    | here => exact absurd hc (by decide)
    | up => exact absurd hc (by decide)
    | name text => exact congrArg (fun text => [Path.Component.name text]) hc
  · have hslash : '/' ∈ documentName.toList := by
      rw [← htext, List.map_cons, List.intercalate_cons_of_ne_nil (by simp)]
      simp
    exact absurd hslash (by decide)

/-- A listed path that begins with the components of the directory's path is a file of the directory if it can be read. -/
theorem fileAt_of_read {path : Path} {rest : List Path.Component} (hp : path.components = directory.components ++ rest)
    (hread : t.read path = .ok content) :
    fileAt t directory path = .ok ⟨Path.ofNames (rest.map Path.Component.text), content⟩ := by
  have hbelow : path.below? directory = some rest := by
    rw [Path.below?, if_pos (List.isPrefixOf_iff_prefix.2 ⟨rest, hp.symm⟩), hp, List.drop_left]
  rw [fileAt, hbelow]
  simp only [hread]

theorem files_eq_map_mapM {paths : List Path} (h : Glob.list t (patternBelow directory) = .ok paths) :
    (Template.directory directory).files t = ((paths.filter t.isFile).mapM (fileAt t directory)).map sortFiles := by
  rw [files, directoryFiles, h]

/-- The document of a directory is listed if and only if all files that its pattern lists have paths that begin with the
components of the directory's path, and one of them is that of the document. -/
theorem listsDocument_iff (hread : t.read (directory.child documentName) = .ok content) :
    ListsDocument t directory content ↔ ∃ paths, Glob.list t (patternBelow directory) = .ok paths ∧
      (∀ path ∈ paths, t.isFile path = true → directory.components <+: path.components) ∧
      ∃ path ∈ paths, t.isFile path = true ∧ path.components = directory.components ++ [.name documentName] := by
  constructor
  · rintro ⟨files, hfiles, hmem⟩
    obtain ⟨paths, hpaths, hback, hforth⟩ := directoryFiles_eq_ok hfiles
    refine ⟨paths, hpaths, fun path hp hisFile => ?_, ?_⟩
    · obtain ⟨file, -, hat⟩ := hforth path hp hisFile
      obtain ⟨rest, hrest, -⟩ := fileAt_eq_ok hat
      exact ⟨rest, hrest.symm⟩
    · obtain ⟨path, hp, hisFile, hat⟩ := hback _ hmem
      obtain ⟨rest, hrest, hname, -⟩ := fileAt_eq_ok hat
      exact ⟨path, hp, hisFile, eq_of_ofNames_eq hname.symm ▸ hrest⟩
  · rintro ⟨paths, hpaths, hbelow, path, hp, hisFile, hcomponents⟩
    cases hall : (paths.filter t.isFile).mapM (fileAt t directory) with
    | error e =>
      obtain ⟨q, hq, herror⟩ := exists_of_mapM_eq_error hall
      obtain ⟨hlisted, hqfile⟩ := List.mem_filter.1 hq
      obtain ⟨rest, hrest⟩ := hbelow q hlisted hqfile
      obtain ⟨found, hfound⟩ := FileTree.exists_read_of_isFile hqfile
      exact absurd (herror.symm.trans (fileAt_of_read hrest.symm hfound)) (by simp)
    | ok files =>
      obtain ⟨found, hfound⟩ := FileTree.exists_read_of_isFile hisFile
      obtain ⟨file, hmem, hat⟩ := (mem_of_mapM_eq_ok hall).2 path (List.mem_filter.2 ⟨hp, hisFile⟩)
      have hdocument := Path.components_join_ofNames directory (List.cons_ne_nil documentName []) (by decide)
      have hsame : found = content := FileTree.read_congr (hcomponents.trans hdocument.symm) hfound hread
      obtain rfl := Except.ok.inj (hat.symm.trans (fileAt_of_read hcomponents hfound))
      refine ⟨sortFiles files, ?_, mem_sortFiles.2 (hsame ▸ hmem)⟩
      rw [files_eq_map_mapM hpaths, hall]
      rfl

/-! ## Arguments without wildcards -/

/-- An argument without wildcards that does not begin with a dot lists its document. -/
theorem listsDocument_of_head? {s : FileSystem} (hliteral : Glob.IsLiteral directory.text.toList)
    (hhead : directory.components.head? ≠ some .here) (hread : s.read (directory.child documentName) = .ok content) :
    ListsDocument s directory content := by
  have hne : [documentName] ≠ [] := List.cons_ne_nil _ _
  have hn : ∀ name ∈ [documentName], FileTree.IsEntryName name := by decide
  have hpaths := list_patternBelow s hliteral
  obtain ⟨place, hplace, hnode⟩ := FileTree.exists_locate_of_read hread
  obtain ⟨hfound, hlisted⟩ := listed_of_locate hne hn hhead hplace hnode
  refine (listsDocument_iff hread).2 ⟨_, hpaths, fun path hp _ => ?_, _, hlisted, ?_, ?_⟩
  · obtain ⟨names, hne', hn', rfl⟩ := exists_names_of_listed hliteral hpaths hp
    rw [components_listedPath hne' hn' hhead]
    exact List.prefix_append _ _
  · rw [FileTree.isFile, FileTree.stat_of_locate hfound hnode]
  · exact components_listedPath hne hn hhead

/-- No path that is listed for an argument without wildcards begins with a dot. -/
theorem head?_ne_of_listed {s : FileSystem} (hliteral : Glob.IsLiteral directory.text.toList) {paths : List Path}
    (hpaths : Glob.list s (patternBelow directory) = .ok paths) {path : Path} (hp : path ∈ paths) :
    path.components.head? ≠ some .here := by
  obtain ⟨names, hne, hn, rfl⟩ := exists_names_of_listed hliteral hpaths hp
  have hslash : ∀ segment ∈ listedSegments directory, '/' ∉ segment.toList := fun _ hs =>
    Path.slash_notMem_of_mem_segments (mem_segments_of_listed hs)
  have hstart : (Glob.origin directory).components = [.here] ∨ (Glob.origin directory).components.head? ≠ some .here := by
    unfold Glob.origin
    split
    · exact .inr (by decide)
    · exact .inl rfl
  have hfront := Glob.head?_foldl_entry hslash hstart
  rcases List.eq_nil_or_concat names with rfl | ⟨front, last, rfl⟩
  · exact absurd rfl hne
  · rw [List.concat_eq_append] at hn ⊢
    have hfront' := Glob.head?_foldl_entry (fun name hm => (hn name (List.mem_append_left _ hm)).2.2.2) hfront
    obtain ⟨-, hdot, -, hlast⟩ := hn last (by simp)
    rw [listedPath, List.foldl_append]
    exact (Glob.head?_entry hlast hfront').resolve_left fun h => hdot h.2

/-- An argument without wildcards that begins with a dot lists no files, or one that is not below it. -/
theorem files_of_head? {s : FileSystem} (hliteral : Glob.IsLiteral directory.text.toList)
    (hhead : directory.components.head? = some .here) :
    (Template.directory directory).files s = .ok [] ∨
      ∃ path, (Template.directory directory).files s = .error (.outside path) := by
  obtain ⟨paths, hpaths⟩ : ∃ paths, Glob.list s (patternBelow directory) = .ok paths := ⟨_, list_patternBelow s hliteral⟩
  have houtside : ∀ path ∈ paths.filter s.isFile, fileAt s directory path = .error (.outside path) := by
    intro path hp
    have hbelow : path.below? directory = none := by
      rw [Path.below?, if_neg]
      rw [List.isPrefixOf_iff_prefix]
      rintro ⟨rest, hrest⟩
      refine head?_ne_of_listed hliteral hpaths (List.mem_filter.1 hp).1 ?_
      rw [← hrest, List.head?_append, hhead]
      rfl
    rw [fileAt, hbelow]
  rw [files_eq_map_mapM hpaths]
  cases hall : (paths.filter s.isFile).mapM (fileAt s directory) with
  | error e =>
    obtain ⟨path, hp, he⟩ := exists_of_mapM_eq_error hall
    rw [houtside path hp] at he
    obtain rfl := Except.error.inj he
    exact .inr ⟨path, rfl⟩
  | ok found =>
    refine .inl (congrArg Except.ok (List.eq_nil_iff_forall_not_mem.2 fun file hf => ?_))
    obtain ⟨path, hp, hat⟩ := (mem_of_mapM_eq_ok hall).1 file (mem_sortFiles.1 hf)
    rw [houtside path hp] at hat
    exact nomatch hat

end Template

namespace ScaffoldRequest

variable {r : ScaffoldRequest} {t : FileTree} {directory : Path} {content : ByteArray}

/-! ## Requests -/

/-- A request with a directory that lists its document creates the document, when it is not refused and all files are written. -/
theorem run_of_listsDocument (htemplate : r.template = .directory directory)
    (hlists : Template.ListsDocument t directory content) (hrefusal : r.refusal? t = none)
    (hwritten : ∀ files, r.template.files t = .ok files → (r.writeAll t files).2 = .ok ()) :
    (r.run t).2 = .ok r.target ∧ (r.run t).1.isFile (r.target.child documentName) = true := by
  obtain ⟨files, hfiles, hmem⟩ := hlists
  rw [← htemplate] at hfiles
  have hall := hwritten files hfiles
  obtain ⟨hlocate, other, -, -, hnode⟩ := writeAll_holds (Prod.ext rfl hall) _ hmem
  rw [run_of_files hrefusal hfiles, hall]
  exact ⟨rfl, FileTree.isFile_of_read (FileTree.read_of_locate hlocate hnode)⟩

/-- A request with a directory whose path has no wildcards and begins with a dot leaves the tree as it is. -/
theorem run_eq_of_head? {s : FileSystem} (htemplate : r.template = .directory directory)
    (hliteral : Glob.IsLiteral directory.text.toList) (hhead : directory.components.head? = some .here) : (r.run s).1 = s := by
  rcases r.run_cases s with ⟨e, hsame⟩ | ⟨-, files, hfiles, hmade⟩
  · rw [hsame]
  · rw [htemplate] at hfiles
    rcases Template.files_of_head? hliteral hhead with hnone | ⟨path, herror⟩
    · obtain rfl := Except.ok.inj (hnone.symm.trans hfiles)
      rw [hmade]
      rfl
    · exact nomatch herror.symm.trans hfiles

/-- An argument that is accepted as a directory leads to one with a document that can be read. The document is listed, as it is
read there, if and only if all files that the pattern of the argument lists have paths that begin with its components and one is
that of the document; where the argument has no wildcards, that is when it does not begin with a dot. A request with a template
that lists its document succeeds and creates the document, with its placeholders replaced, unless it is refused or a file cannot
be written. A request with an argument that begins with a dot and has no wildcards leaves the tree as it is. -/
theorem run_accepted (s : FileSystem) {argument : String} {directory : Path}
    (h : Template.resolve s argument = .ok (.directory directory)) :
    directory = ⟨argument⟩ ∧ ∃ content, s.read (directory.child documentName) = .ok content ∧
      (Template.ListsDocument s directory content ↔ ∃ paths, Glob.list s (Template.patternBelow directory) = .ok paths ∧
        (∀ path ∈ paths, s.isFile path = true → directory.components <+: path.components) ∧
        ∃ path ∈ paths, s.isFile path = true ∧ path.components = directory.components ++ [.name documentName]) ∧
      (Glob.IsLiteral argument.toList →
        (Template.ListsDocument s directory content ↔ directory.components.head? ≠ some .here)) ∧
      ∀ r : ScaffoldRequest, r.template = .directory directory →
        (Template.ListsDocument s directory content → r.refusal? s = none →
          (∀ files, r.template.files s = .ok files → (r.writeAll s files).2 = .ok ()) →
          (r.run s).2 = .ok r.target ∧ (r.run s).1.isFile (r.target.child documentName) = true ∧
            (Glob.IsLiteral argument.toList → (r.run s).1.read (r.target.child documentName) = .ok (r.render content))) ∧
        (Glob.IsLiteral argument.toList → directory.components.head? = some .here → (r.run s).1 = s) := by
  obtain ⟨rfl, -, hdocument⟩ := Template.resolve_eq_directory h
  obtain ⟨content, hread⟩ := FileTree.exists_read_of_isFile hdocument
  have hhead : Glob.IsLiteral argument.toList →
      (Template.ListsDocument s ⟨argument⟩ content ↔ (Path.components ⟨argument⟩).head? ≠ some .here) := by
    refine fun hliteral => ⟨fun hlists => ?_, fun hhead => Template.listsDocument_of_head? hliteral hhead hread⟩
    intro hhere
    obtain ⟨files, hfiles, hmem⟩ := hlists
    rcases Template.files_of_head? hliteral hhere with hnone | ⟨path, herror⟩
    · obtain rfl := Except.ok.inj (hnone.symm.trans hfiles)
      exact absurd hmem List.not_mem_nil
    · exact nomatch herror.symm.trans hfiles
  refine ⟨rfl, content, hread, Template.listsDocument_iff hread, hhead, fun r htemplate => ⟨fun hlists hrefusal hwritten => ?_,
    fun hliteral hhere => run_eq_of_head? htemplate hliteral hhere⟩⟩
  obtain ⟨hresult, hfile⟩ := run_of_listsDocument htemplate hlists hrefusal hwritten
  refine ⟨hresult, hfile, fun hliteral => ?_⟩
  have hrun : r.run s = ((r.run s).1, .ok r.target) := Prod.ext rfl hresult
  obtain ⟨-, -, files, hfiles, hall⟩ := run_eq_ok hrun
  rw [htemplate] at hfiles
  exact (read_of_written ((hhead hliteral).1 hlists) hliteral hfiles hall (List.cons_ne_nil documentName []) (by decide)
    hread).2

/-- A template beside the working directory, with a slash behind its path: its document is copied. -/
theorem run_accepted_beside :
    let t : FileTree := ⟨[(["a"], .directory), (["tpl"], .directory), (["tpl", documentName], .file "\x7b\x7bname\x7d\x7d".toUTF8)],
      ["a"]⟩
    let r : ScaffoldRequest := ⟨"my-skill", "Use when asked.", .directory ⟨"../tpl/"⟩, ⟨"."⟩, false⟩
    t.WellFormed ∧ Template.resolve t "../tpl/" = .ok (.directory ⟨"../tpl/"⟩) ∧ (r.run t).2 = .ok r.target ∧
      (r.run t).1.read (r.target.child documentName) = .ok (r.render "\x7b\x7bname\x7d\x7d".toUTF8) := by
  intro t r
  have ht : t.WellFormed := by decide +kernel
  have hresolve : Template.resolve t "../tpl/" = .ok (.directory ⟨"../tpl/"⟩) := by decide +kernel
  have hliteral : Glob.IsLiteral "../tpl/".toList := by decide +kernel
  obtain ⟨-, content, hread, -, hlists, hruns⟩ := run_accepted ⟨t, ht⟩ hresolve
  have hcontent : t.read (Path.child ⟨"../tpl/"⟩ documentName) = .ok "\x7b\x7bname\x7d\x7d".toUTF8 := by rfl
  obtain rfl := Except.ok.inj (hcontent.symm.trans hread)
  have hpaths : Glob.list t (Template.patternBelow ⟨"../tpl/"⟩) = .ok [⟨"../tpl/SKILL.md"⟩] := by
    have hlist : Glob.list t (Template.patternBelow ⟨"../tpl/"⟩) =
        .ok (Glob.expand t [Glob.exactly "..", Glob.exactly "tpl", [.anyDepth], [.anyText]] ⟨"."⟩) := rfl
    have hup : Glob.entry ⟨"."⟩ ".." = ⟨".."⟩ := rfl
    have hentry : Glob.entry ⟨".."⟩ "tpl" = ⟨"../tpl"⟩ := rfl
    have hbelow : t.below ["tpl"] = [([documentName], .file "\x7b\x7bname\x7d\x7d".toUTF8)] := List.mergeSort_singleton _
    have hlocate : t.locate ⟨"../tpl"⟩ = .ok ["tpl"] := by decide +kernel
    rw [hlist, Glob.expand_exactly, hup, Glob.expand_exactly, hentry, Glob.expand_everything,
      Glob.descendants_of_locate hlocate, hbelow]
    rfl
  have hfiles : r.template.files t = .ok [⟨⟨documentName⟩, "\x7b\x7bname\x7d\x7d".toUTF8⟩] := by
    show Template.directoryFiles t ⟨"../tpl/"⟩ = _
    exact Template.directoryFiles_of_listed hpaths (by rfl) (List.pairwise_singleton _ _)
  have hwritten : (r.writeAll t [⟨⟨documentName⟩, "\x7b\x7bname\x7d\x7d".toUTF8⟩]).2 = .ok () := by decide +kernel
  have hhead : (Path.components ⟨"../tpl/"⟩).head? ≠ some .here := by decide +kernel
  have hrefusal : r.refusal? t = none := by decide +kernel
  obtain ⟨hresult, -, hcopied⟩ := (hruns r rfl).1 ((hlists hliteral).2 hhead) hrefusal fun files hf => by
    obtain rfl := Except.ok.inj (hfiles.symm.trans hf)
    exact hwritten
  exact ⟨ht, hresolve, hresult, hcopied hliteral⟩

/-- A template that is accepted and cannot be used: with a dot in front of its path, its document is listed without the dot and
taken for a file outside. -/
theorem run_accepted_dot :
    let t : FileTree := ⟨[(["tpl"], .directory), (["tpl", documentName], .file "x".toUTF8)], []⟩
    let r : ScaffoldRequest := ⟨"my-skill", "Use when asked.", .directory ⟨"./tpl"⟩, ⟨"."⟩, false⟩
    t.WellFormed ∧ Template.resolve t "./tpl" = .ok (.directory ⟨"./tpl"⟩) ∧
      t.read (Path.child ⟨"./tpl"⟩ documentName) = .ok "x".toUTF8 ∧
      r.template.files t = .error (.outside ⟨"tpl/SKILL.md"⟩) ∧
      r.run t = (t, .error (.listing (.outside ⟨"tpl/SKILL.md"⟩))) := by
  intro t r
  have hpaths : Glob.list t (Template.patternBelow ⟨"./tpl"⟩) = .ok [⟨"tpl/SKILL.md"⟩] := by
    have hlist : Glob.list t (Template.patternBelow ⟨"./tpl"⟩) =
        .ok (Glob.expand t [Glob.exactly ".", Glob.exactly "tpl", [.anyDepth], [.anyText]] ⟨"."⟩) := rfl
    have hhere : Glob.entry ⟨"."⟩ "." = ⟨"."⟩ := rfl
    have hentry : Glob.entry ⟨"."⟩ "tpl" = ⟨"tpl"⟩ := rfl
    have hbelow : t.below ["tpl"] = [([documentName], .file "x".toUTF8)] := List.mergeSort_singleton _
    have hlocate : t.locate ⟨"tpl"⟩ = .ok ["tpl"] := by decide +kernel
    rw [hlist, Glob.expand_exactly, hhere, Glob.expand_exactly, hentry, Glob.expand_everything,
      Glob.descendants_of_locate hlocate, hbelow]
    rfl
  have hfiles : r.template.files t = .error (.outside ⟨"tpl/SKILL.md"⟩) := by
    show Template.directoryFiles t ⟨"./tpl"⟩ = _
    rw [Template.directoryFiles, hpaths]
    rfl
  have hrefusal : r.refusal? t = none := by decide +kernel
  refine ⟨by decide +kernel, by decide +kernel, by rfl, hfiles, ?_⟩
  rw [run, hrefusal, hfiles]

end ScaffoldRequest

end SkillLint
