import SkillLint.Proofs.Path
import SkillLint.Tree

/-!
# Walks in a growing tree

A walk depends on the directories it passes and on something being where it goes next. A tree that covers another one has all
of that, whatever its files hold, so that every walk that leads somewhere leads to the same place still, and one that fails for
another reason than something missing fails for that reason still. A tree that extends another one covers it, and so does a tree
in which a file is put where no directory is.
-/

namespace SkillLint.FileTree

/-- Whether a tree holds every node of another one, seen from the same directory. -/
structure Extends (t t' : FileTree) : Prop where
  here_eq : t'.here = t.here
  node_kept : ∀ place node, t.node? place = some node → t'.node? place = some node

/-- Whether a tree has every directory of another one, and a file wherever that one has a file. -/
structure Covers (t t' : FileTree) : Prop where
  here_eq : t'.here = t.here
  directory_kept : ∀ place, t.node? place = some .directory → t'.node? place = some .directory
  file_kept : ∀ place content, t.node? place = some (.file content) → ∃ other, t'.node? place = some (.file other)

theorem Extends.refl (t : FileTree) : t.Extends t :=
  ⟨rfl, fun _ _ h => h⟩

theorem Extends.covers {t t' : FileTree} (h : t.Extends t') : t.Covers t' where
  here_eq := h.here_eq
  directory_kept := fun place => h.node_kept place .directory
  file_kept := fun place content hn => ⟨content, h.node_kept place _ hn⟩

theorem Covers.trans {t t' t'' : FileTree} (h : t.Covers t') (h' : t'.Covers t'') : t.Covers t'' where
  here_eq := h'.here_eq.trans h.here_eq
  directory_kept := fun place hd => h'.directory_kept place (h.directory_kept place hd)
  file_kept := by
    intro place content hn
    obtain ⟨other, ho⟩ := h.file_kept place content hn
    exact h'.file_kept place other ho

/-- A tree that covers another one has something wherever that one has something. -/
theorem Covers.held_kept {t t' : FileTree} (h : t.Covers t') {place : Place} (hs : (t.node? place).isSome = true) :
    (t'.node? place).isSome = true := by
  cases hn : t.node? place with
  | none => simp [hn] at hs
  | some node =>
    cases node with
    | directory =>
      rw [h.directory_kept place hn]
      rfl
    | file content =>
      obtain ⟨other, ho⟩ := h.file_kept place content hn
      rw [ho]
      rfl

theorem Covers.start_eq {t t' : FileTree} (h : t.Covers t') (p : Path) : t'.start p = t.start p := by
  rw [start, start, h.here_eq]

/-- A node that is put where nothing was extends the tree. -/
theorem extends_put (t : FileTree) {place : Place} (node : Node) (h : t.node? place = none) :
    t.Extends (t.put place node) where
  here_eq := rfl
  node_kept := by
    intro q found hq
    have hne : place ≠ [] := by
      rintro rfl
      exact absurd h (by simp [node?])
    rw [node?_put t place q node hne, if_neg, hq]
    rintro rfl
    rw [h] at hq
    exact absurd hq (by simp)

/-- A file that is put where no directory was covers the tree. -/
theorem covers_put_file (t : FileTree) {place : Place} (content : ByteArray) (h : t.node? place ≠ some .directory) :
    t.Covers (t.put place (.file content)) := by
  have hne : place ≠ [] := by
    rintro rfl
    exact h rfl
  refine ⟨rfl, fun q hq => ?_, fun q other hq => ?_⟩
  · rw [node?_put t place q _ hne, if_neg, hq]
    rintro rfl
    exact h hq
  · rw [node?_put t place q _ hne]
    split
    · exact ⟨content, rfl⟩
    · exact ⟨other, hq⟩

/-- A walk along two lists of segments goes along the first and then along the second. -/
theorem walk_append (t : FileTree) (place : Place) (front back : List String) :
    t.walk place (front ++ back) = (t.walk place front).bind fun q => t.walk q back := by
  induction front generalizing place with
  | nil => rfl
  | cons segment front ih =>
    rw [List.cons_append, walk, walk]
    split
    · rfl
    · rfl
    · split
      · exact ih place
      · split
        · exact ih place.dropLast
        · split
          · rfl
          · split
            · exact ih _
            · rfl

/-- A walk along two lists of segments that leads somewhere passes where the first one leads. -/
theorem exists_of_walk_append {t : FileTree} {place q : Place} {front back : List String}
    (h : t.walk place (front ++ back) = .ok q) : ∃ home, t.walk place front = .ok home ∧ t.walk home back = .ok q := by
  rw [walk_append] at h
  cases hfront : t.walk place front with
  | error e =>
    rw [hfront] at h
    exact absurd h (by simp [Except.bind])
  | ok home =>
    rw [hfront] at h
    exact ⟨home, rfl, h⟩

theorem walk_cons_of_directory {t : FileTree} {place : Place} (hd : t.node? place = some .directory) (segment : String)
    (rest : List String) : t.walk place (segment :: rest) =
      if segment = "" ∨ segment = "." then t.walk place rest
      else if segment = ".." then t.walk place.dropLast rest
      else if nameLimit < segment.utf8ByteSize then .error .nameTooLong
      else if (t.node? (place ++ [segment])).isSome then t.walk (place ++ [segment]) rest
      else .error .notFound := by
  rw [walk, hd]

/-- A walk that misses something, though not where it starts, starts from a directory. -/
theorem directory_of_walk_error {t : FileTree} {place : Place} {segments : List String} (hs : (t.node? place).isSome = true)
    (hw : t.walk place segments = .error .notFound) : t.node? place = some .directory := by
  cases segments with
  | nil => exact absurd hw (by simp [walk])
  | cons segment rest =>
    rw [walk] at hw
    split at hw
    · rename_i hn
      rw [hn] at hs
      exact absurd hs (by simp)
    · exact absurd (Except.error.inj hw) (by simp)
    · rename_i hd
      exact hd

/-- A walk that goes on from a place finds a directory there. -/
theorem node?_of_walk_cons {t : FileTree} {place q : Place} {segment : String} {rest : List String}
    (h : t.walk place (segment :: rest) = .ok q) : t.node? place = some .directory := by
  rw [walk] at h
  split at h
  · exact absurd h (by simp)
  · exact absurd h (by simp)
  · rename_i hd
    exact hd

/-- A walk into an entry of a directory. -/
theorem walk_entry {t : FileTree} {place : Place} {name : String} (hd : t.node? place = some .directory)
    (hn : name ≠ "" ∧ name ≠ "." ∧ name ≠ "..") (hs : name.utf8ByteSize ≤ nameLimit)
    (he : (t.node? (place ++ [name])).isSome = true) : t.walk place [name] = .ok (place ++ [name]) := by
  have hidle : ¬(name = "" ∨ name = ".") := not_or.2 ⟨hn.1, hn.2.1⟩
  rw [walk, hd]
  simp only
  rw [if_neg hidle, if_neg hn.2.2, if_neg (Nat.not_lt.2 hs), if_pos he, walk]

/-- A walk in a tree leads to the same place in every tree that covers it. -/
theorem Covers.walk_eq {t t' : FileTree} (h : t.Covers t') {segments : List String} {place q : Place}
    (hw : t.walk place segments = .ok q) : t'.walk place segments = .ok q := by
  induction segments generalizing place with
  | nil => exact hw
  | cons segment rest ih =>
    have hd := node?_of_walk_cons hw
    rw [walk, hd] at hw
    rw [walk, h.directory_kept place hd]
    simp only at hw ⊢
    split at hw
    · rename_i hi
      rw [if_pos hi]
      exact ih hw
    · rename_i hi
      rw [if_neg hi]
      split at hw
      · rename_i hu
        rw [if_pos hu]
        exact ih hw
      · rename_i hu
        rw [if_neg hu]
        split at hw
        · exact absurd hw (by simp)
        · rename_i hl
          rw [if_neg hl]
          split at hw
          · rename_i he
            rw [if_pos (h.held_kept he)]
            exact ih hw
          · exact absurd hw (by simp)

/-- A walk that fails in a tree, though nothing is missing, fails for the same reason in every tree that covers it. -/
theorem Covers.walk_error {t t' : FileTree} (h : t.Covers t') {segments : List String} {place : Place} {e : FileError}
    (he : e ≠ .notFound) (hw : t.walk place segments = .error e) : t'.walk place segments = .error e := by
  induction segments generalizing place with
  | nil => exact absurd hw (by simp [walk])
  | cons segment rest ih =>
    rw [walk] at hw ⊢
    split at hw
    · exact absurd (Except.error.inj hw).symm he
    · rename_i content hn
      obtain ⟨other, ho⟩ := h.file_kept place content hn
      rw [ho]
      exact hw
    · rename_i hd
      rw [h.directory_kept place hd]
      simp only
      split at hw
      · rename_i hidle
        rw [if_pos hidle]
        exact ih hw
      · rename_i hidle
        rw [if_neg hidle]
        split at hw
        · rename_i hup
          rw [if_pos hup]
          exact ih hw
        · rename_i hup
          rw [if_neg hup]
          split at hw
          · rename_i hlong
            rw [if_pos hlong]
            exact hw
          · rename_i hlong
            rw [if_neg hlong]
            split at hw
            · rename_i hs
              rw [if_pos (h.held_kept hs)]
              exact ih hw
            · exact absurd (Except.error.inj hw).symm he

/-- A path leads to the same place in every tree that covers a tree in which it leads somewhere. -/
theorem Covers.locate_eq {t t' : FileTree} (h : t.Covers t') {p : Path} {q : Place} (hl : t.locate p = .ok q) :
    t'.locate p = .ok q := by
  unfold locate at hl ⊢
  split at hl
  · exact absurd hl (by simp)
  · rw [h.start_eq]
    exact h.walk_eq hl

/-- A path leads to something in every tree that covers a tree in which it does. -/
theorem Covers.contains {t t' : FileTree} (h : t.Covers t') {p : Path} (hp : t.contains p = true) : t'.contains p = true := by
  unfold FileTree.contains stat at hp ⊢
  cases hl : t.locate p with
  | error cause => simp [hl] at hp
  | ok place =>
    have hheld : (t.node? place).isSome = true := by
      cases hn : t.node? place with
      | none => simp [hl, hn] at hp
      | some node => rfl
    obtain ⟨node, hn⟩ := Option.isSome_iff_exists.1 (h.held_kept hheld)
    rw [h.locate_eq hl]
    simp only [hn]

/-! ## What a path leads to -/

variable {t : FileTree} {p : Path}

theorem stat_of_locate {place : Place} {node : Node} (hl : t.locate p = .ok place) (hn : t.node? place = some node) :
    t.stat p = .ok node := by
  rw [stat, hl]
  simp only [hn]

/-- What a path leads to stands at the place that the path leads to. -/
theorem exists_locate_of_contains (h : t.contains p = true) : ∃ place, t.locate p = .ok place := by
  unfold FileTree.contains stat at h
  cases hl : t.locate p with
  | error e => simp [hl] at h
  | ok place => exact ⟨place, rfl⟩

/-- The file that is read stands at the place that the path leads to. -/
theorem exists_locate_of_read {content : ByteArray} (h : t.read p = .ok content) :
    ∃ place, t.locate p = .ok place ∧ t.node? place = some (.file content) := by
  unfold read stat at h
  cases hl : t.locate p with
  | error e => simp [hl] at h
  | ok place =>
    refine ⟨place, rfl, ?_⟩
    cases hn : t.node? place with
    | none => simp [hl, hn] at h
    | some node =>
      cases node with
      | directory => simp [hl, hn] at h
      | file found =>
        simp only [hl, hn] at h
        rw [Except.ok.inj h]

theorem read_of_locate {place : Place} {content : ByteArray} (hl : t.locate p = .ok place)
    (hn : t.node? place = some (.file content)) : t.read p = .ok content := by
  rw [read, stat_of_locate hl hn]

/-- A path to a directory leads to something. -/
theorem contains_of_isDirectory (h : t.isDirectory p = true) : t.contains p = true := by
  unfold isDirectory at h
  unfold FileTree.contains
  split at h
  · rename_i hs
    rw [hs]
  · exact absurd h (by simp)

/-- A path to a file leads to something. -/
theorem contains_of_isFile (h : t.isFile p = true) : t.contains p = true := by
  unfold isFile at h
  unfold FileTree.contains
  split at h
  · rename_i hs
    rw [hs]
  · exact absurd h (by simp)

/-- A file can be read. -/
theorem exists_read_of_isFile (h : t.isFile p = true) : ∃ content, t.read p = .ok content := by
  unfold isFile at h
  split at h
  · rename_i content hs
    exact ⟨content, by rw [read, hs]⟩
  · exact absurd h (by simp)

theorem isFile_of_read {content : ByteArray} (h : t.read p = .ok content) : t.isFile p = true := by
  obtain ⟨place, hl, hn⟩ := exists_locate_of_read h
  rw [isFile, stat_of_locate hl hn]

/-- What can be read as text is a file. -/
theorem isFile_of_readText {text : String} (h : t.readText p = .ok text) : t.isFile p = true := by
  unfold readText read at h
  unfold isFile
  cases hs : t.stat p with
  | error cause => simp [hs] at h
  | ok node =>
    cases node with
    | directory => simp [hs] at h
    | file content => rfl

/-! ## Joined paths -/

theorem text_ne_of_refusal? {p : Path} (h : refusal? p = none) : p.text ≠ "" := by
  intro e
  unfold refusal? at h
  simp [e] at h

/-- A path that leads somewhere is walked, and has a text. -/
theorem walk_of_locate {p : Path} {place : Place} (h : t.locate p = .ok place) :
    p.text ≠ "" ∧ t.walk (t.start p) p.segments = .ok place := by
  unfold locate at h
  split at h
  · exact absurd h (by simp)
  · rename_i hrefusal
    exact ⟨text_ne_of_refusal? hrefusal, h⟩

/-- A path that leads somewhere is not refused. -/
theorem refusal?_of_locate {place : Place} (h : t.locate p = .ok place) : refusal? p = none := by
  unfold locate at h
  split at h
  · exact absurd h (by simp)
  · assumption

/-- A path leads to the place where the walk along its front segments ends. -/
theorem walk_front {place : Place} (h : t.walk (t.start p) p.segments = .ok place) :
    t.walk (t.start p) p.frontSegments = .ok place := by
  rcases p.segments_eq_front with hs | hs
  · exact hs ▸ h
  · rw [hs] at h
    obtain ⟨q, hwalk, hlast⟩ := exists_of_walk_append h
    -- The empty segment at the end goes nowhere.
    rw [walk, node?_of_walk_cons hlast] at hlast
    rw [hwalk]
    exact hlast

/-- A path that goes on from another one is walked along the front segments of that one first. -/
theorem walk_join {root : Path} (hr : root.text ≠ "") (hp : p.isAbsolute = false) :
    t.walk (t.start (root.join p)) (root.join p).segments =
      (t.walk (t.start root) root.frontSegments).bind fun home => t.walk home p.segments := by
  have hstart : t.start (root.join p) = t.start root := by rw [start, start, Path.isAbsolute_join hr hp]
  rw [Path.segments_join root hp, hstart, walk_append]

/-- A path leads to the place where the walk along its segments ends, from the place that the path of the directory leads to. -/
theorem walk_of_locate_join {root p : Path} {home place : Place} (hp : p.isAbsolute = false) (hr : t.locate root = .ok home)
    (hl : t.locate (root.join p) = .ok place) : t.walk home p.segments = .ok place := by
  obtain ⟨hne, hhome⟩ := walk_of_locate hr
  obtain ⟨-, hplace⟩ := walk_of_locate hl
  rw [walk_join hne hp, walk_front hhome] at hplace
  exact hplace

/-- A path that is not refused leads to the place where the walk along its segments ends, from the place that the path of the
directory leads to. -/
theorem locate_join_of_walk {root p : Path} {home place : Place} (hp : p.isAbsolute = false)
    (hrefusal : refusal? (root.join p) = none) (hr : t.locate root = .ok home) (hw : t.walk home p.segments = .ok place) :
    t.locate (root.join p) = .ok place := by
  obtain ⟨hne, hhome⟩ := walk_of_locate hr
  rw [locate, hrefusal]
  simp only
  rw [walk_join hne hp, walk_front hhome]
  exact hw

/-- A text takes up no more bytes than one that it is a part of. -/
theorem utf8ByteSize_le_of_sublist {s s' : String} (h : s.toList.Sublist s'.toList) : s.utf8ByteSize ≤ s'.utf8ByteSize := by
  have hchars : ∀ {a b : List Char}, a.Sublist b → (String.ofList a).utf8ByteSize ≤ (String.ofList b).utf8ByteSize := by
    intro a b hab
    induction hab with
    | slnil => exact Nat.le_refl _
    | cons c _ ih =>
      rw [String.ofList_cons, String.utf8ByteSize_append]
      omega
    | cons_cons c _ ih =>
      rw [String.ofList_cons, String.ofList_cons, String.utf8ByteSize_append, String.utf8ByteSize_append]
      omega
  have hle := hchars h
  rwa [String.ofList_toList, String.ofList_toList] at hle

/-- A path whose text is part of the text of one that is not refused is not refused either, unless it is empty. -/
theorem refusal?_of_sublist {p q : Path} (hs : q.text.toList.Sublist p.text.toList) (hne : q.text ≠ "")
    (h : refusal? p = none) : refusal? q = none := by
  have hle := utf8ByteSize_le_of_sublist hs
  unfold refusal? at h ⊢
  split at h
  · exact absurd h (by simp)
  · rename_i hnul
    split at h
    · exact absurd h (by simp)
    · split at h
      · exact absurd h (by simp)
      · rename_i hlong
        rw [if_neg fun hm => hnul (hs.subset hm), if_neg hne, if_neg (by omega)]

/-- A path is not refused when one that goes on from it is not, unless it is empty. -/
theorem refusal?_join {root p : Path} (hr : root.text ≠ "") (hp : p.isAbsolute = false) (h : refusal? (root.join p) = none) :
    refusal? root = none := by
  refine refusal?_of_sublist ?_ hr h
  unfold Path.join
  simp only [hp, Bool.false_eq_true, if_false]
  split
  · simp
  · simp

/-- A path leads to a directory when one that goes on from it leads to something, unless it is empty. -/
theorem stat_of_locate_join {root p : Path} {place : Place} (hr : root.text ≠ "") (hp : p.isAbsolute = false)
    (hl : t.locate (root.join p) = .ok place) : t.stat root = .ok .directory := by
  obtain ⟨-, hwalk⟩ := walk_of_locate hl
  obtain ⟨segment, rest, hname⟩ := List.exists_cons_of_ne_nil (Path.segments_ne_nil p)
  rw [walk_join hr hp, hname] at hwalk
  cases hfront : t.walk (t.start root) root.frontSegments with
  | error cause =>
    rw [hfront] at hwalk
    exact absurd hwalk (by simp [Except.bind])
  | ok home =>
    rw [hfront] at hwalk
    have hdirectory : t.node? home = some .directory := node?_of_walk_cons hwalk
    have hhome : t.walk (t.start root) root.segments = .ok home := by
      rcases root.segments_eq_front with hroot | hroot
      · rw [hroot, hfront]
      · -- The empty segment at the end goes nowhere.
        rw [hroot, walk_append, hfront]
        show t.walk home [""] = .ok home
        rw [walk, hdirectory]
        rfl
    have hrefusal : refusal? root = none := refusal?_join hr hp (refusal?_of_locate hl)
    refine stat_of_locate ?_ hdirectory
    rw [locate, hrefusal]
    exact hhome

end SkillLint.FileTree
