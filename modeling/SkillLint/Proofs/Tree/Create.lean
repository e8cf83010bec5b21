import SkillLint.Proofs.Tree.Place
import SkillLint.Tree.Write

/-!
# Creating directories

Creating a directory, with or without the ones above it and whether or not it succeeds, puts directories where nothing was and
leaves everything else as it is. The path tells where they are put: each is at a place that the path passes, which is one that
a front of its segments spells, and a path along this front leads there once the directory is created. A well-formed tree stays
one.
-/

namespace SkillLint.FileTree

/-- Whether a tree has, besides the nodes of another one, nothing but directories at places with a property. -/
structure AddsDirectories (t t' : FileTree) (P : Place → Prop) : Prop where
  here_eq : t'.here = t.here
  node_eq : ∀ q, t'.node? q = t.node? q ∨ t.node? q = none ∧ t'.node? q = some .directory ∧ P q

/-- Whether a path passes a place or ends there: a front of its segments spells the place. -/
def Passes (t : FileTree) (p : Path) (place : Place) : Prop :=
  ∃ front, front <+: p.segments ∧ place = spelled (t.start p) front

/-- Whether a path to a place is a front of another path. -/
def Reaches (t : FileTree) (p : Path) (place : Place) : Prop :=
  ∃ x : Path, x.isAbsolute = p.isAbsolute ∧ x.segments <+: p.segments ∧ t.locate x = .ok place

namespace AddsDirectories

variable {t t' t'' : FileTree} {P P' : Place → Prop}

theorem refl (t : FileTree) (P : Place → Prop) : t.AddsDirectories t P :=
  ⟨rfl, fun _ => .inl rfl⟩

/-- What is added in two steps is added. -/
theorem trans (h : t.AddsDirectories t' P) (h' : t'.AddsDirectories t'' P) : t.AddsDirectories t'' P where
  here_eq := h'.here_eq.trans h.here_eq
  node_eq := by
    intro q
    rcases h'.node_eq q with he' | ⟨hnone', hmade', hq'⟩
    · rw [he']
      exact h.node_eq q
    · rcases h.node_eq q with he | ⟨-, hmade, -⟩
      · exact .inr ⟨he ▸ hnone', hmade', hq'⟩
      · rw [hmade] at hnone'
        exact absurd hnone' (by simp)

theorem mono (h : t.AddsDirectories t' P) (hP : ∀ q, P q → P' q) : t.AddsDirectories t' P' :=
  ⟨h.here_eq, fun q => (h.node_eq q).imp_right fun hq => ⟨hq.1, hq.2.1, hP q hq.2.2⟩⟩

/-- A tree to which directories are added is extended. -/
theorem extension (h : t.AddsDirectories t' P) : t.Extends t' where
  here_eq := h.here_eq
  node_kept := by
    intro q node hn
    rcases h.node_eq q with he | ⟨hnone, -⟩
    · rw [he, hn]
    · rw [hnone] at hn
      exact absurd hn (by simp)

/-- A directory that is put where nothing was is added. -/
theorem of_put {place : Place} (h : t.node? place = none) (hP : P place) :
    t.AddsDirectories (t.put place .directory) P where
  here_eq := rfl
  node_eq := by
    intro q
    have hne : place ≠ [] := by
      rintro rfl
      exact absurd h (by simp [node?])
    rw [node?_put t place q _ hne]
    split
    · rename_i e
      exact .inr (e ▸ ⟨h, rfl, hP⟩)
    · exact .inl rfl

end AddsDirectories

/-! ## The entry that a path names -/

variable {t : FileTree} {p : Path}

theorem entrySegments_isPrefix (p : Path) : entrySegments p <+: p.segments :=
  List.rdropWhile_prefix _ p.segments

/-- The last segment behind which only empty ones are is not empty. -/
theorem ne_empty_of_entrySegments {front : List String} {name : String} (h : entrySegments p = front ++ [name]) :
    name ≠ "" := by
  have hlast := List.rdropWhile_last_not (fun s => s == "") p.segments
  have hdrop : p.segments.rdropWhile (fun s => s == "") = front ++ [name] := h
  rw [hdrop] at hlast
  simpa using hlast

/-- An entry is located in the directory to which the segments before the last one lead. -/
theorem locateEntry_eq_ok {dots : FileError} {place : Place} {name : String} (h : t.locateEntry p dots = .ok (place, name)) :
    refusal? p = none ∧ (∃ front, entrySegments p = front ++ [name] ∧ t.walk (t.start p) front = .ok place) ∧
      t.node? place = some .directory ∧ (name ≠ "" ∧ name ≠ "." ∧ name ≠ "..") ∧ name.utf8ByteSize ≤ nameLimit := by
  unfold locateEntry at h
  split at h
  · exact absurd h (by simp)
  · rename_i hrefusal
    split at h
    · exact absurd h (by simp)
    · rename_i last hlast
      obtain ⟨front, hfront⟩ := List.getLast?_eq_some_iff.1 hlast
      rw [hfront, List.dropLast_concat] at h
      split at h
      · exact absurd h (by simp)
      · rename_i q hwalk
        split at h
        · exact absurd h (by simp)
        · exact absurd h (by simp)
        · rename_i hd
          split at h
          · exact absurd h (by simp)
          · rename_i hdots
            split at h
            · exact absurd h (by simp)
            · rename_i hsize
              obtain ⟨rfl, rfl⟩ := Prod.mk.inj (Except.ok.inj h)
              exact ⟨hrefusal, ⟨front, hfront, hwalk⟩, hd, ⟨ne_empty_of_entrySegments hfront, not_or.1 hdots⟩,
                Nat.le_of_not_lt hsize⟩

/-- An entry is located in a directory, and has a name. -/
theorem isEntryName_of_locateEntry {dots : FileError} {place : Place} {name : String}
    (h : t.locateEntry p dots = .ok (place, name)) : t.node? place = some .directory ∧ IsEntryName name := by
  obtain ⟨-, ⟨front, hfront, -⟩, hd, ⟨h1, h2, h3⟩, -⟩ := locateEntry_eq_ok h
  have hm : name ∈ p.segments := by
    refine (entrySegments_isPrefix p).subset ?_
    rw [hfront]
    simp
  exact ⟨hd, h1, h2, h3, Path.slash_notMem_of_mem_segments hm⟩

/-- The empty segments at the end of a path go nowhere. -/
theorem walk_of_entrySegments {place q : Place} (hw : t.walk place (entrySegments p) = .ok q)
    (hd : t.node? q = some .directory) : t.walk place p.segments = .ok q := by
  have hidle : ∀ segments : List String, (∀ segment ∈ segments, segment = "") → t.walk q segments = .ok q := by
    intro segments hs
    induction segments with
    | nil => rfl
    | cons segment rest ih =>
      obtain ⟨rfl, hrest⟩ := List.forall_mem_cons.1 hs
      rw [walk_cons_of_directory hd, if_pos (.inl rfl), ih hrest]
  have hsegments : entrySegments p ++ p.segments.rtakeWhile (fun s => s == "") = p.segments :=
    List.rdropWhile_append_rtakeWhile
  rw [← hsegments, walk_append, hw]
  exact hidle _ fun segment hs => by simpa using List.mem_rtakeWhile_imp hs

/-- A path leads to its entry when a directory is put there. -/
theorem locate_put_directory {dots : FileError} {place : Place} {name : String} (h : t.locateEntry p dots = .ok (place, name))
    (hnone : t.node? (place ++ [name]) = none) : (t.put (place ++ [name]) .directory).locate p = .ok (place ++ [name]) := by
  obtain ⟨hrefusal, ⟨front, hfront, hwalk⟩, hd, hname, hsize⟩ := locateEntry_eq_ok h
  have hcovers := (extends_put t .directory hnone).covers
  have hmade : (t.put (place ++ [name]) .directory).node? (place ++ [name]) = some .directory :=
    node?_put_self t .directory (by simp)
  have hentry : (t.put (place ++ [name]) .directory).walk (t.start p) (entrySegments p) = .ok (place ++ [name]) := by
    rw [hfront, walk_append, hcovers.walk_eq hwalk]
    exact walk_entry (hcovers.directory_kept place hd) hname hsize (by rw [hmade]; rfl)
  rw [locate, hrefusal]
  simp only
  rw [hcovers.start_eq]
  exact walk_of_entrySegments hentry hmade

/-! ## Paths to created directories -/

theorem Reaches.of_covers {t' : FileTree} {q : Place} (h : t.Reaches p q) (hc : t.Covers t') : t'.Reaches p q := by
  obtain ⟨x, habs, hpre, hl⟩ := h
  exact ⟨x, habs, hpre, hc.locate_eq hl⟩

theorem Reaches.passes {q : Place} (h : t.Reaches p q) : t.Passes p q := by
  obtain ⟨x, habs, hpre, hl⟩ := h
  refine ⟨x.segments, hpre, ?_⟩
  rw [eq_placeOf_of_locate hl, placeOf, start, start, habs]

/-! ## Created directories -/

theorem createDirectory_root (t : FileTree) : (t.createDirectory ⟨"/"⟩).1 = t :=
  rfl

/-- Creating a directory adds one at most, where the path leads then. -/
theorem addsDirectories_createDirectory (t : FileTree) (p : Path) :
    t.AddsDirectories (t.createDirectory p).1 fun q => (t.createDirectory p).1.locate p = .ok q := by
  unfold createDirectory
  split
  · exact .refl t _
  · rename_i place name hentry
    split
    · exact .refl t _
    · rename_i hnone
      exact .of_put (by simpa using hnone) (locate_put_directory hentry (by simpa using hnone))

/-- What creating each of some directories keeps is kept when the first of them is created after the ones above it. -/
theorem createLineage_invariant {I : FileTree → Prop} {ps : List Path}
    (hstep : ∀ mid, ∀ p ∈ ps, I mid → I (mid.createDirectory p).1) (ht : I t) : I (t.createLineage ps).1 := by
  induction ps with
  | nil => exact ht
  | cons p above ih =>
    have hcreate : ∀ made, I made → I (made.createDirectory p).1 := fun made => hstep made p List.mem_cons_self
    have hfirst := hcreate t ht
    have habove := ih fun mid x hx => hstep mid x (List.mem_cons_of_mem _ hx)
    rw [createLineage]
    split
    · rename_i made hmade
      rw [hmade] at hfirst
      exact hfirst
    · split
      · rename_i made e hmade
        rw [hmade] at habove
        exact habove
      · rename_i made hmade
        rw [hmade] at habove
        have hlast := hcreate made habove
        split
        · rename_i last hl
          rw [hl] at hlast
          exact hlast
        · split
          · exact habove
          · exact habove
    · split
      · exact ht
      · exact ht

/-- Creating some directories, each on the way to a path, adds directories to which fronts of the path lead then. -/
theorem addsDirectories_createLineage {ps : List Path}
    (h : ∀ x ∈ ps, x.isAbsolute = p.isAbsolute ∧ (x = ⟨"/"⟩ ∨ x.segments <+: p.segments)) :
    t.AddsDirectories (t.createLineage ps).1 ((t.createLineage ps).1.Reaches p) := by
  refine createLineage_invariant (I := fun made => t.AddsDirectories made (made.Reaches p)) (fun mid x hx hmid => ?_)
    (.refl t _)
  obtain ⟨habs, hroot | hpre⟩ := h x hx
  · rw [hroot, createDirectory_root]
    exact hmid
  · have hadds := addsDirectories_createDirectory mid x
    exact (hmid.mono fun q hq => hq.of_covers hadds.extension.covers).trans
      (hadds.mono fun q hq => ⟨x, habs, hpre, hq⟩)

theorem eq_root_of_mem_go {n : Nat} {x : Path} (hx : x ∈ Path.lineage.go n ⟨"/"⟩) : x = ⟨"/"⟩ := by
  cases n <;> exact List.mem_singleton.1 hx

/-- The paths above a path start where it does, and their segments are fronts of its segments unless they are the root. -/
theorem segments_of_mem_go {n : Nat} {x : Path} (hx : x ∈ Path.lineage.go n p) :
    x.isAbsolute = p.isAbsolute ∧ (x = ⟨"/"⟩ ∨ x.segments <+: p.segments) := by
  induction n generalizing p with
  | zero =>
    unfold Path.lineage.go at hx
    split at hx
    · exact absurd hx List.not_mem_nil
    · rw [List.mem_singleton.1 hx]
      exact ⟨rfl, .inr (List.prefix_refl _)⟩
  | succ n ih =>
    unfold Path.lineage.go at hx
    split at hx
    · exact absurd hx List.not_mem_nil
    · split at hx
      · rw [List.mem_singleton.1 hx]
        exact ⟨rfl, .inr (List.prefix_refl _)⟩
      · rename_i above habove
        rcases List.mem_cons.1 hx with rfl | hx
        · exact ⟨rfl, .inr (List.prefix_refl _)⟩
        · have hne : above.text ≠ "" := by
            intro e
            cases n <;> simp [Path.lineage.go, e] at hx
          obtain ⟨habs, hsegments⟩ := Path.segments_parent? habove hne
          obtain ⟨habs', hsegments'⟩ := ih hx
          refine ⟨habs'.trans habs, ?_⟩
          rcases hsegments with rfl | hsegments
          · exact .inl (eq_root_of_mem_go hx)
          · exact hsegments'.imp_right fun hpre => hpre.trans hsegments

/-- Creating the directories above a path adds directories to which fronts of the path lead then. -/
theorem addsDirectories_createParent (t : FileTree) (p : Path) :
    t.AddsDirectories (t.createDirectories (p.parent?.getD ⟨""⟩)).1
      ((t.createDirectories (p.parent?.getD ⟨""⟩)).1.Reaches p) := by
  cases habove : p.parent? with
  | none => exact .refl t _
  | some above =>
    rw [Option.getD_some]
    by_cases hne : above.text = ""
    · obtain rfl : above = ⟨""⟩ := congrArg Path.mk hne
      exact .refl t _
    · obtain ⟨habs, hsegments⟩ := Path.segments_parent? habove hne
      refine addsDirectories_createLineage fun x hx => ?_
      obtain ⟨habs', hsegments'⟩ := segments_of_mem_go hx
      refine ⟨habs'.trans habs, ?_⟩
      rcases hsegments with rfl | hsegments
      · exact .inl (eq_root_of_mem_go hx)
      · exact hsegments'.imp_right fun hpre => hpre.trans hsegments

/-- Creating a directory with the ones above it keeps a tree well-formed. -/
theorem WellFormed.createDirectories (h : t.WellFormed) (p : Path) : (t.createDirectories p).1.WellFormed := by
  refine createLineage_invariant (fun mid q _ hmid => ?_) h
  unfold createDirectory
  split
  · exact hmid
  · rename_i place name hentry
    split
    · exact hmid
    · obtain ⟨hd, hname⟩ := isEntryName_of_locateEntry hentry
      exact hmid.put hd hname (.inl rfl)

end SkillLint.FileTree
