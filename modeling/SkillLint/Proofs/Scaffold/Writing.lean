import Mathlib.Data.List.Nodup
import SkillLint.Proofs.Tree.Write
import SkillLint.Scaffold

/-!
# Writing the files of a new package

Files are written one after the other, each behind the creation of its directory. After every step, whether or not it succeeds,
the tree covers the first one and differs from it only by files of the package at their places and by directories on the way to
them (`Progress`). When all steps succeed each path leads to a file of the package, its own unless a later one has the same
place; and files that lie directly in the target under different names are all there. A request keeps a tree well-formed, and one
that fails before its files are written leaves the tree as it is.
-/

namespace SkillLint

/-- Whether an error is that of a directory that is not created or of a file that is not written. -/
def ScaffoldError.isOfWriting : ScaffoldError → Bool
  | .notCreated _ _ | .notWritten _ _ => true
  | .emptyName | .notOneName _ | .targetExists _ | .listing _ => false

namespace ScaffoldRequest

variable {r : ScaffoldRequest} {t made : FileTree} {files : List TemplateFile}

/-- The path under which a file of the package is written. -/
def filePath (r : ScaffoldRequest) (file : TemplateFile) : Path :=
  r.target.join file.path

/-- Whether a file of the package has its place where it could be written after some steps of a run. -/
def Enters (r : ScaffoldRequest) (t : FileTree) (file : TemplateFile) (q : Place) : Prop :=
  ∃ mid place name, t.Covers mid ∧ mid.IsEntry (r.filePath file) place name ∧ q = place ++ [name]

/-- What steps of a run make of a tree: what is not as it was is a file of the package or a new directory on the way to one. -/
structure Progress (r : ScaffoldRequest) (files : List TemplateFile) (t made : FileTree) : Prop where
  covers : t.Covers made
  node_eq : ∀ q, made.node? q = t.node? q ∨
    (∃ file ∈ files, r.Enters t file q ∧ made.node? q = some (.file (r.render file.content))) ∨
    t.node? q = none ∧ made.node? q = some .directory ∧ ∃ file ∈ files, t.Passes (r.filePath file) q

/-- Whether the path of a file leads to a file of the package with its place. -/
def Holds (r : ScaffoldRequest) (files : List TemplateFile) (t made : FileTree) (file : TemplateFile) : Prop :=
  made.locate (r.filePath file) = .ok (t.placeOf (r.filePath file)) ∧
    ∃ other ∈ files, t.placeOf (r.filePath other) = t.placeOf (r.filePath file) ∧
      made.node? (t.placeOf (r.filePath file)) = some (.file (r.render other.content))

/-! ## One file -/

theorem render_toUTF8 (r : ScaffoldRequest) (text : String) :
    r.render text.toUTF8 = (Template.substitute r.placeholderValues text).toUTF8 := by
  rw [render, FileTree.decode_toUTF8]

/-- Writing one file adds directories on the way to it; then the file is put at its entry, unless the step fails. -/
theorem writeOne_cases (r : ScaffoldRequest) (t : FileTree) (file : TemplateFile) :
    ∃ mid, t.AddsDirectories mid (mid.Reaches (r.filePath file)) ∧
      ((r.writeOne t file).1 = mid ∧ (r.writeOne t file).2 ≠ .ok () ∨
        ∃ place name, mid.IsEntry (r.filePath file) place name ∧ mid.node? (place ++ [name]) ≠ some .directory ∧
          (r.writeOne t file).1 = mid.put (place ++ [name]) (.file (r.render file.content))) := by
  have hadds := FileTree.addsDirectories_createParent t (r.filePath file)
  refine ⟨_, hadds, ?_⟩
  unfold writeOne
  simp only [filePath]
  split
  · rename_i mid cause hmid
    rw [hmid]
    exact .inl ⟨rfl, nofun⟩
  · rename_i mid hmid
    rw [hmid]
    split
    · rename_i last cause hlast
      exact .inl ⟨FileTree.writeFile_eq_error hlast, nofun⟩
    · rename_i last hlast
      obtain ⟨place, name, hentry, hd, hput⟩ := FileTree.writeFile_eq_ok hlast
      exact .inr ⟨place, name, hentry, hd, hput⟩

/-- Writing one file fails only where a directory is not created or the file is not written. -/
theorem isOfWriting_of_writeOne (r : ScaffoldRequest) (t : FileTree) {file : TemplateFile} {error : ScaffoldError}
    (h : (r.writeOne t file).2 = .error error) : error.isOfWriting = true := by
  unfold writeOne at h
  simp only at h
  split at h
  · obtain rfl := Except.error.inj h
    rfl
  · split at h
    · obtain rfl := Except.error.inj h
      rfl
    · exact nomatch h

theorem Enters.eq_placeOf {file : TemplateFile} {q : Place} (h : r.Enters t file q) : q = t.placeOf (r.filePath file) := by
  obtain ⟨mid, place, name, hcovers, hentry, rfl⟩ := h
  rw [hentry.eq_placeOf, hcovers.placeOf_eq]

namespace Progress

theorem refl (r : ScaffoldRequest) (files : List TemplateFile) (t : FileTree) : r.Progress files t t :=
  ⟨(FileTree.Extends.refl t).covers, fun _ => .inl rfl⟩

/-- Directories on the way to a file of the package may be added. -/
theorem of_addsDirectories {mid : FileTree} {file : TemplateFile} (hf : file ∈ files) (h : r.Progress files t made)
    (ha : made.AddsDirectories mid (mid.Reaches (r.filePath file))) : r.Progress files t mid where
  covers := h.covers.trans ha.extension.covers
  node_eq := by
    intro q
    rcases ha.node_eq q with he | ⟨hnone, hd, hreaches⟩
    · rw [he]
      exact h.node_eq q
    · rcases h.node_eq q with he | ⟨other, -, -, hn⟩ | ⟨-, hn, -⟩
      · obtain ⟨front, hfront, hq⟩ := hreaches.passes
        refine .inr (.inr ⟨he ▸ hnone, hd, file, hf, front, hfront, ?_⟩)
        rw [hq, ha.extension.covers.start_eq, h.covers.start_eq]
      · rw [hnone] at hn
        exact absurd hn (by simp)
      · rw [hnone] at hn
        exact absurd hn (by simp)

/-- A file of the package may be put at its entry. -/
theorem of_put {file : TemplateFile} (hf : file ∈ files) (h : r.Progress files t made) {place : Place} {name : String}
    (he : made.IsEntry (r.filePath file) place name) (hd : made.node? (place ++ [name]) ≠ some .directory) :
    r.Progress files t (made.put (place ++ [name]) (.file (r.render file.content))) where
  covers := h.covers.trans (FileTree.covers_put_file made _ hd)
  node_eq := by
    intro q
    rw [FileTree.node?_put made _ q _ (by simp)]
    split
    · rename_i hq
      exact .inr (.inl ⟨file, hf, ⟨made, place, name, h.covers, he, hq⟩, rfl⟩)
    · exact h.node_eq q

/-- A step makes of the tree what steps of a run make of it. -/
theorem step {file : TemplateFile} (hf : file ∈ files) (h : r.Progress files t made) :
    r.Progress files t (r.writeOne made file).1 := by
  obtain ⟨mid, hadds, ⟨hmade, -⟩ | ⟨place, name, hentry, hd, hmade⟩⟩ := r.writeOne_cases made file
  · rw [hmade]
    exact h.of_addsDirectories hf hadds
  · rw [hmade]
    exact (h.of_addsDirectories hf hadds).of_put hf hentry hd

end Progress

/-- A step that succeeds makes the path of its file lead to the file. -/
theorem holds_of_writeOne {file : TemplateFile} (hf : file ∈ files) (h : r.Progress files t made) {last : FileTree}
    (hw : r.writeOne made file = (last, .ok ())) : r.Holds files t last file := by
  obtain ⟨mid, hadds, ⟨-, hfails⟩ | ⟨place, name, hentry, hd, hlast⟩⟩ := r.writeOne_cases made file
  · rw [hw] at hfails
    exact absurd rfl hfails
  · rw [hw] at hlast
    simp only at hlast
    have hcovers := FileTree.covers_put_file mid (r.render file.content) hd
    have hplace : place ++ [name] = t.placeOf (r.filePath file) := by
      rw [hentry.eq_placeOf, hadds.extension.covers.placeOf_eq, h.covers.placeOf_eq]
    have hself : (mid.put (place ++ [name]) (.file (r.render file.content))).node? (place ++ [name]) = _ :=
      mid.node?_put_self _ (by simp)
    rw [Holds, ← hplace, hlast]
    exact ⟨(hcovers.isEntry hentry).locate_eq (by rw [hself]; rfl), file, hf, hplace.symm, hself⟩

/-- A step keeps the path of a file leading to a file of the package. -/
theorem Holds.step {file other : TemplateFile} (hf : other ∈ files) (h : r.Progress files t made)
    (hh : r.Holds files t made file) : r.Holds files t (r.writeOne made other).1 file := by
  obtain ⟨hlocate, found, hfound, hsame, hnode⟩ := hh
  obtain ⟨mid, hadds, hcase⟩ := r.writeOne_cases made other
  have hmid := hadds.extension
  rcases hcase with ⟨hmade, -⟩ | ⟨place, name, hentry, hd, hmade⟩
  · rw [hmade]
    exact ⟨hmid.covers.locate_eq hlocate, found, hfound, hsame, hmid.node_kept _ _ hnode⟩
  · have hplace : place ++ [name] = t.placeOf (r.filePath other) := by
      rw [hentry.eq_placeOf, hmid.covers.placeOf_eq, h.covers.placeOf_eq]
    have hlast := (hmid.covers.trans (FileTree.covers_put_file mid (r.render other.content) hd)).locate_eq hlocate
    rw [hmade]
    by_cases hq : t.placeOf (r.filePath file) = place ++ [name]
    · refine ⟨hlast, other, hf, hplace.symm.trans hq.symm, ?_⟩
      rw [hq, mid.node?_put_self _ (by simp)]
    · refine ⟨hlast, found, hfound, hsame, ?_⟩
      rw [mid.node?_put _ _ _ (by simp), if_neg hq]
      exact hmid.node_kept _ _ hnode

/-! ## All files -/

/-- A run, whether or not it succeeds, changes nothing but what its steps change. -/
theorem writeAll_progress (r : ScaffoldRequest) (t : FileTree) (files : List TemplateFile) :
    r.Progress files t (r.writeAll t files).1 :=
  FileTree.attemptAll_invariant (fun _ _ hf h => h.step hf) (.refl r files t)

/-- When a run succeeds, the path of every file leads to a file of the package. -/
theorem writeAll_holds (h : r.writeAll t files = (made, .ok ())) : ∀ file ∈ files, r.Holds files t made file :=
  FileTree.attemptAll_forall (I := r.Progress files t) (fun _ _ hf h => h.step hf) (fun _ _ _ hf h hw => holds_of_writeOne hf h hw)
    (fun _ _ _ _ hf h hh => hh.step hf h) (.refl r files t) h

/-- Files that lie directly in the target are all there when they have been written under different names. -/
theorem writeAll_entries (hroot : r.target.EndsInName) (entries : List (String × ByteArray))
    (hs : ∀ entry ∈ entries, FileTree.IsEntryName entry.1) (hd : (entries.map fun entry => entry.1).Nodup)
    (h : r.writeAll t (entries.map fun entry => ⟨⟨entry.1⟩, entry.2⟩) = (made, .ok ())) :
    ∀ entry ∈ entries, ∃ place, made.locate (r.target.child entry.1) = .ok place ∧
      made.node? place = some (.file (r.render entry.2)) := by
  have hplace : ∀ entry ∈ entries, t.placeOf (r.target.child entry.1) = t.placeOf r.target ++ [entry.1] := by
    intro entry he
    obtain ⟨h1, h2, h3, hslash⟩ := hs entry he
    have hstart : t.start (r.target.child entry.1) = t.start r.target := by
      rw [FileTree.start, FileTree.start, Path.child, Path.isAbsolute_join hroot.text_ne (Path.isAbsolute_name hslash)]
    rw [FileTree.placeOf, hroot.segments_child hslash, FileTree.spelled_append, FileTree.spelled_name _ ⟨h1, h2, h3⟩, hstart,
      FileTree.placeOf]
  intro entry he
  obtain ⟨hlocate, file, hfile, hsame, hnode⟩ :=
    writeAll_holds h ⟨⟨entry.1⟩, entry.2⟩ (List.mem_map.2 ⟨entry, he, rfl⟩)
  obtain ⟨other, ho, rfl⟩ := List.mem_map.1 hfile
  have hnames : other.1 = entry.1 := by
    have hsame' : t.placeOf (r.target.child other.1) = t.placeOf (r.target.child entry.1) := hsame
    rw [hplace other ho, hplace entry he, List.append_cancel_left_eq] at hsame'
    exact List.head_eq_of_cons_eq hsame'
  obtain rfl : other = entry := List.inj_on_of_nodup_map hd ho he hnames
  exact ⟨_, hlocate, hnode⟩

/-! ## Requests -/

/-- The target of a request that is not refused ends in a name. -/
theorem endsInName_of_refusal? (h : r.refusal? t = none) : r.target.EndsInName := by
  unfold refusal? at h
  simp only at h
  split at h
  · exact absurd h (by simp)
  · rename_i hne
    split at h
    · exact absurd h (by simp)
    · rename_i hname
      exact .of_child (not_or.1 hname).1 r.destination hne

/-- A request that is not refused, and whose template has files, ends as the writing of the files does. -/
theorem run_of_files (hr : r.refusal? t = none) (hf : r.template.files t = .ok files) :
    r.run t = ((r.writeAll t files).1, (r.writeAll t files).2.map fun _ => r.target) := by
  unfold run
  rw [hr, hf]
  simp only
  split
  · rename_i made hmade
    rw [hmade]
    rfl
  · rename_i made e hmade
    rw [hmade]
    rfl

/-- A request leaves the tree as it is and fails, or it is not refused and writes the files of its template. -/
theorem run_cases (r : ScaffoldRequest) (t : FileTree) : (∃ e, r.run t = (t, .error e)) ∨
    r.refusal? t = none ∧ ∃ files, r.template.files t = .ok files ∧
      r.run t = ((r.writeAll t files).1, (r.writeAll t files).2.map fun _ => r.target) := by
  cases hr : r.refusal? t with
  | some e =>
    refine .inl ⟨e, ?_⟩
    unfold run
    rw [hr]
  | none =>
    cases hf : r.template.files t with
    | error e =>
      refine .inl ⟨.listing e, ?_⟩
      unfold run
      rw [hr, hf]
    | ok files => exact .inr ⟨rfl, files, rfl, run_of_files hr hf⟩

/-- A request that succeeds is not refused, and writes the files of its template into its target. -/
theorem run_eq_ok {target : Path} (h : r.run t = (made, .ok target)) : target = r.target ∧ r.refusal? t = none ∧
    ∃ files, r.template.files t = .ok files ∧ r.writeAll t files = (made, .ok ()) := by
  rcases r.run_cases t with ⟨e, he⟩ | ⟨hr, files, hf, hw⟩
  · rw [he] at h
    exact absurd (congrArg Prod.snd h) (by simp)
  · rw [hw] at h
    obtain ⟨hmade, hresult⟩ := Prod.mk.inj h
    cases hcases : (r.writeAll t files).2 with
    | error e =>
      rw [hcases] at hresult
      exact absurd hresult (by simp [Except.map])
    | ok u =>
      rw [hcases] at hresult
      exact ⟨(Except.ok.inj hresult).symm, hr, files, hf, Prod.ext hmade hcases⟩

/-- A request that fails otherwise than by writing leaves the tree as it is. -/
theorem eq_of_run_eq_error {error : ScaffoldError} (h : r.run t = (made, .error error)) (hw : error.isOfWriting = false) :
    made = t := by
  rcases r.run_cases t with ⟨e, he⟩ | ⟨-, files, -, hwritten⟩
  · rw [he] at h
    exact (congrArg Prod.fst h).symm
  · rw [hwritten] at h
    have herror : (r.writeAll t files).2 = .error error := by
      have hresult := congrArg Prod.snd h
      cases hall : (r.writeAll t files).2 with
      | error e =>
        rw [hall] at hresult
        exact congrArg _ (Except.error.inj hresult)
      | ok u =>
        rw [hall] at hresult
        exact nomatch hresult
    obtain ⟨mid, file, -, hfile⟩ := FileTree.exists_of_attemptAll_eq_error (Prod.ext rfl herror)
    rw [r.isOfWriting_of_writeOne mid hfile] at hw
    exact absurd hw (by simp)

/-- A request, whether or not it succeeds, keeps a tree well-formed. -/
theorem wellFormed_run (r : ScaffoldRequest) (s : FileSystem) : (r.run s).1.WellFormed := by
  rcases r.run_cases s with ⟨e, he⟩ | ⟨-, files, -, hw⟩
  · rw [he]
    exact s.wellFormed
  · rw [hw]
    refine FileTree.attemptAll_invariant (fun mid file _ hmid => ?_) s.wellFormed
    have hdirectories := hmid.createDirectories ((r.target.join file.path).parent?.getD ⟨""⟩)
    unfold writeOne
    simp only
    split
    · rename_i made cause hmade
      rw [hmade] at hdirectories
      exact hdirectories
    · rename_i made hmade
      rw [hmade] at hdirectories
      have hlast := hdirectories.writeFile (r.target.join file.path) (r.render file.content)
      split
      · rename_i last cause hwritten
        rw [hwritten] at hlast
        exact hlast
      · rename_i last hwritten
        rw [hwritten] at hlast
        exact hlast

end ScaffoldRequest

end SkillLint
