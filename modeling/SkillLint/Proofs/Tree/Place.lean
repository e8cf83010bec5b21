import Mathlib.Data.List.Induction
import SkillLint.Proofs.Tree.Walk

/-!
# Places and the paths that spell them

The segments of a path spell a place, whatever there is in a tree (`spelled`). A walk that leads somewhere leads to the place that
its segments spell (`eq_spelled_of_walk`), so a path leads to the same place in all trees in which it leads anywhere. In a
well-formed tree a path that leads nowhere, without going up from something missing, spells a place that holds nothing
(`node?_placeOf_eq_none`).
-/

namespace SkillLint.FileTree

/-- The place that some segments spell, taken from a place. -/
def spelled (place : Place) : List String → Place
  | [] => place
  | segment :: rest =>
    if segment = "" ∨ segment = "." then spelled place rest
    else if segment = ".." then spelled place.dropLast rest
    else spelled (place ++ [segment]) rest

/-- The place to which a component leads from a place. -/
def follow (place : Place) : Path.Component → Place
  | .up => place.dropLast
  | .name text => place ++ [text]
  | .root | .here => place

/-- The place that a path spells. -/
def placeOf (t : FileTree) (p : Path) : Place :=
  spelled (t.start p) p.segments

/-- Whether an entry of a directory can have a name. -/
def IsEntryName (name : String) : Prop :=
  name ≠ "" ∧ name ≠ "." ∧ name ≠ ".." ∧ '/' ∉ name.toList

instance (name : String) : Decidable (IsEntryName name) :=
  inferInstanceAs (Decidable (_ ∧ _))

/-- Whether the nodes of a tree make up a tree: each lies in a directory and has a name, and relative paths start from a
directory. -/
structure WellFormed (t : FileTree) : Prop where
  here_held : t.node? t.here = some .directory
  parent_held : ∀ entry ∈ t.nodes, t.node? entry.1.dropLast = some .directory
  named : ∀ entry ∈ t.nodes, ∀ name ∈ entry.1, IsEntryName name

instance (t : FileTree) : Decidable t.WellFormed :=
  decidable_of_iff (t.node? t.here = some .directory ∧ (∀ entry ∈ t.nodes, t.node? entry.1.dropLast = some .directory) ∧
      ∀ entry ∈ t.nodes, ∀ name ∈ entry.1, IsEntryName name)
    ⟨fun h => ⟨h.1, h.2.1, h.2.2⟩, fun h => ⟨h.here_held, h.parent_held, h.named⟩⟩

/-- Whether a path goes up from something that is missing. -/
def Detours (t : FileTree) (p : Path) : Prop :=
  ∃ front back, p.segments = front ++ ".." :: back ∧ t.walk (t.start p) front = .error .notFound

/-- A path goes up from something missing when one of its segments does. -/
theorem detours_iff {t : FileTree} {p : Path} : t.Detours p ↔ ∃ i ∈ List.range p.segments.length,
    p.segments[i]? = some ".." ∧ t.walk (t.start p) (p.segments.take i) = .error .notFound := by
  constructor
  · rintro ⟨front, back, hs, hw⟩
    refine ⟨front.length, List.mem_range.2 (by simp [hs]), by simp [hs], ?_⟩
    rw [hs, List.take_left]
    exact hw
  · rintro ⟨i, -, hup, hw⟩
    obtain ⟨hi, he⟩ := List.getElem?_eq_some_iff.1 hup
    exact ⟨p.segments.take i, p.segments.drop (i + 1), by rw [← he, ← List.drop_eq_getElem_cons hi, List.take_append_drop], hw⟩

instance (t : FileTree) (p : Path) : Decidable (t.Detours p) :=
  decidable_of_iff _ detours_iff.symm

/-! ## Spelled places -/

/-- Two lists of segments spell a place one after the other. -/
theorem spelled_append (place : Place) (front back : List String) :
    spelled place (front ++ back) = spelled (spelled place front) back := by
  induction front generalizing place with
  | nil => rfl
  | cons segment front ih =>
    rw [List.cons_append, spelled, spelled]
    split
    · exact ih place
    · split
      · exact ih place.dropLast
      · exact ih (place ++ [segment])

theorem spelled_name (place : Place) {name : String} (h : name ≠ "" ∧ name ≠ "." ∧ name ≠ "..") :
    spelled place [name] = place ++ [name] := by
  have hidle : ¬(name = "" ∨ name = ".") := not_or.2 ⟨h.1, h.2.1⟩
  rw [spelled, if_neg hidle, if_neg h.2.2, spelled]

/-- Names spell the place below. -/
theorem spelled_names (place : Place) {names : List String} (h : ∀ name ∈ names, IsEntryName name) :
    spelled place names = place ++ names := by
  induction names generalizing place with
  | nil => simp [spelled]
  | cons name names ih =>
    obtain ⟨h1, h2, h3, -⟩ := h name List.mem_cons_self
    rw [← List.singleton_append, spelled_append, spelled_name place ⟨h1, h2, h3⟩,
      ih _ fun n hn => h n (List.mem_cons_of_mem _ hn), List.append_assoc]

/-- Segments spell the place to which the components that they stand for lead one after the other. -/
theorem spelled_eq_foldl (place : Place) (segments : List String) :
    spelled place segments = (segments.filterMap Path.Component.ofSegment?).foldl follow place := by
  induction segments generalizing place with
  | nil => rfl
  | cons segment rest ih =>
    rw [spelled, List.filterMap_cons, Path.Component.ofSegment?]
    split
    · exact ih place
    · split
      · exact ih place.dropLast
      · exact ih (place ++ [segment])

theorem foldl_follow_names (place : Place) (names : List String) : (names.map .name).foldl follow place = place ++ names := by
  induction names generalizing place with
  | nil => simp
  | cons name names ih => rw [List.map_cons, List.foldl_cons, follow, ih, List.append_assoc, List.singleton_append]

theorem spelled_of_names {place : Place} {segments names : List String}
    (h : segments.filterMap Path.Component.ofSegment? = names.map .name) : spelled place segments = place ++ names := by
  rw [spelled_eq_foldl, h, foldl_follow_names]

/-- Segments without steps up spell a place below the first one. -/
theorem isPrefix_spelled (place : Place) {segments : List String} (h : ".." ∉ segments) : place <+: spelled place segments := by
  induction segments generalizing place with
  | nil => exact List.prefix_refl place
  | cons segment rest ih =>
    have hne : segment ≠ ".." := fun e => h (e ▸ List.mem_cons_self)
    have hrest : ".." ∉ rest := fun e => h (List.mem_cons_of_mem _ e)
    rw [spelled, if_neg hne]
    split
    · exact ih place hrest
    · exact (List.prefix_append place [segment]).trans (ih _ hrest)

/-- Segments that do not leave a directory, begun below it, spell a place below it. -/
theorem isPrefix_spelled_below {home below : Place} {segments : List String}
    (h : Path.leaves below.length (segments.filterMap Path.Component.ofSegment?) = false) :
    home <+: spelled (home ++ below) segments := by
  induction segments generalizing below with
  | nil => exact List.prefix_append home below
  | cons segment rest ih =>
    rw [spelled]
    split
    · rename_i hidle
      have hnone : Path.Component.ofSegment? segment = none := if_pos hidle
      rw [List.filterMap_cons_none hnone] at h
      exact ih h
    · rename_i hidle
      split
      · rename_i hup
        have hsome : Path.Component.ofSegment? segment = some .up := by rw [Path.Component.ofSegment?, if_neg hidle, if_pos hup]
        rw [List.filterMap_cons_some hsome, Path.leaves, Bool.or_eq_false_iff, beq_eq_false_iff_ne] at h
        have hne : below ≠ [] := fun e => h.1 (by rw [e]; rfl)
        rw [List.dropLast_append_of_ne_nil hne]
        exact ih (by rw [List.length_dropLast]; exact h.2)
      · rename_i hup
        have hsome : Path.Component.ofSegment? segment = some (.name segment) := by
          rw [Path.Component.ofSegment?, if_neg hidle, if_neg hup]
        rw [List.filterMap_cons_some hsome, Path.leaves] at h
        rw [List.append_assoc]
        exact ih (by rw [List.length_append, List.length_singleton]; exact h)

theorem isPrefix_spelled_of_leaves {home : Place} {segments : List String}
    (h : Path.leaves 0 (segments.filterMap Path.Component.ofSegment?) = false) : home <+: spelled home segments := by
  have hbelow : home <+: spelled (home ++ []) segments := isPrefix_spelled_below h
  rwa [List.append_nil] at hbelow

variable {t : FileTree}

/-- A walk that leads somewhere leads to the place that its segments spell. -/
theorem eq_spelled_of_walk {place q : Place} {segments : List String} (h : t.walk place segments = .ok q) :
    q = spelled place segments := by
  induction segments generalizing place with
  | nil => exact (Except.ok.inj h).symm
  | cons segment rest ih =>
    rw [walk, node?_of_walk_cons h] at h
    rw [spelled]
    simp only at h
    split at h
    · rename_i hidle
      rw [if_pos hidle]
      exact ih h
    · rename_i hidle
      rw [if_neg hidle]
      split at h
      · rename_i hup
        rw [if_pos hup]
        exact ih h
      · rename_i hup
        rw [if_neg hup]
        split at h
        · exact absurd h (by simp)
        · split at h
          · exact ih h
          · exact absurd h (by simp)

/-- A path that leads somewhere leads to the place that it spells. -/
theorem eq_placeOf_of_locate {p : Path} {q : Place} (h : t.locate p = .ok q) : q = t.placeOf p :=
  eq_spelled_of_walk (walk_of_locate h).2

theorem Covers.placeOf_eq {t' : FileTree} (h : t.Covers t') (p : Path) : t'.placeOf p = t.placeOf p := by
  rw [placeOf, h.start_eq, placeOf]

/-- A path spells the place to which its components lead one after the other. -/
theorem placeOf_eq_foldl (t : FileTree) (p : Path) : t.placeOf p = p.components.foldl follow (t.start p) := by
  unfold placeOf Path.components
  simp only
  rw [spelled_eq_foldl, List.foldl_append]
  split
  · rfl
  · split <;> rfl

theorem placeOf_congr {p q : Path} (h : p.components = q.components) : t.placeOf p = t.placeOf q := by
  have habs : p.isAbsolute = q.isAbsolute := by
    rw [Bool.eq_iff_iff, ← Path.root_mem_components_iff, ← Path.root_mem_components_iff, h]
  rw [placeOf_eq_foldl, placeOf_eq_foldl, h, start, start, habs]

theorem read_congr {p q : Path} (h : p.components = q.components) {a b : ByteArray} (hp : t.read p = .ok a)
    (hq : t.read q = .ok b) : a = b := by
  obtain ⟨place, hplace, hnode⟩ := exists_locate_of_read hp
  obtain ⟨place', hplace', hnode'⟩ := exists_locate_of_read hq
  rw [eq_placeOf_of_locate hplace, placeOf_congr h] at hnode
  rw [eq_placeOf_of_locate hplace', hnode] at hnode'
  exact Node.file.inj (Option.some.inj hnode')

/-- Names that go on from a path spell the place below. -/
theorem placeOf_join_ofNames (t : FileTree) (root : Path) {names : List String} (hne : names ≠ [])
    (hn : ∀ name ∈ names, IsEntryName name) : t.placeOf (root.join (Path.ofNames names)) = t.placeOf root ++ names := by
  have hcomponents := Path.components_join_ofNames root hne hn
  have habs : (root.join (Path.ofNames names)).isAbsolute = root.isAbsolute := by
    rw [Bool.eq_iff_iff, ← Path.root_mem_components_iff, ← Path.root_mem_components_iff, hcomponents]
    simp
  rw [placeOf_eq_foldl, placeOf_eq_foldl, hcomponents, List.foldl_append, foldl_follow_names, start, start, habs]

theorem placeOf_of_components {p : Path} {names : List String} (h : p.components = names.map .name) :
    t.placeOf p = t.here ++ names := by
  have hstart : t.start p = t.here := by rw [start, (Path.segments_of_components h).1, if_neg Bool.false_ne_true]
  rw [placeOf_eq_foldl, h, foldl_follow_names, hstart]

/-! ## Well-formed trees -/

theorem mem_nodes_of_node? {place : Place} {node : Node} (hne : place ≠ []) (h : t.node? place = some node) :
    (place, node) ∈ t.nodes := by
  obtain ⟨name, rest, rfl⟩ := List.exists_cons_of_ne_nil hne
  obtain ⟨front, back, hnodes, -⟩ := List.lookup_eq_some_iff.1 h
  rw [hnodes]
  simp

namespace WellFormed

variable (h : t.WellFormed)

include h in
/-- What holds something in it is a directory. -/
theorem directory_of_held {place : Place} {name : String} (hs : (t.node? (place ++ [name])).isSome = true) :
    t.node? place = some .directory := by
  obtain ⟨node, hn⟩ := Option.isSome_iff_exists.1 hs
  have hparent := h.parent_held _ (mem_nodes_of_node? (by simp) hn)
  rwa [List.dropLast_concat] at hparent

include h in
/-- What lies above something held is held. -/
theorem held_of_isPrefix {place q : Place} (hp : place <+: q) (hs : (t.node? q).isSome = true) :
    (t.node? place).isSome = true := by
  obtain ⟨rest, rfl⟩ := hp
  induction rest using List.reverseRecOn with
  | nil => rwa [List.append_nil] at hs
  | append_singleton rest name ih =>
    rw [← List.append_assoc] at hs
    exact ih (by rw [h.directory_of_held hs]; rfl)

include h in
/-- Paths start from a directory. -/
theorem start_held (p : Path) : t.node? (t.start p) = some .directory := by
  unfold start
  split
  · rfl
  · exact h.here_held

include h in
/-- A dot leads to the working directory. -/
theorem locate_here : t.locate ⟨"."⟩ = .ok t.here := by
  have hwalk : t.walk t.here ["."] = .ok t.here := by
    rw [walk_cons_of_directory h.here_held, if_pos (.inr rfl), walk]
  exact hwalk

include h in
/-- What lies above a directory is a directory. -/
theorem directory_dropLast {place : Place} (hd : t.node? place = some .directory) : t.node? place.dropLast = some .directory := by
  rcases List.eq_nil_or_concat place with rfl | ⟨front, name, rfl⟩
  · rfl
  · rw [List.concat_eq_append] at hd ⊢
    rw [List.dropLast_concat]
    exact h.directory_of_held (by rw [hd]; rfl)

include h in
/-- A walk from a directory that leads somewhere leads to something. -/
theorem held_of_walk {place q : Place} {segments : List String} (hd : t.node? place = some .directory)
    (hw : t.walk place segments = .ok q) : (t.node? q).isSome = true := by
  induction segments generalizing place with
  | nil =>
    rw [← Except.ok.inj hw, hd]
    rfl
  | cons segment rest ih =>
    rw [walk, hd] at hw
    simp only at hw
    split at hw
    · exact ih hd hw
    · split at hw
      · exact ih (h.directory_dropLast hd) hw
      · split at hw
        · exact absurd hw (by simp)
        · split at hw
          · rename_i hs
            cases rest with
            | nil => exact Except.ok.inj hw ▸ hs
            | cons next rest => exact ih (node?_of_walk_cons hw) hw
          · exact absurd hw (by simp)

include h in
/-- A walk from a directory that misses something, and does not go up from what it misses, would lead to a place that holds
nothing. -/
theorem node?_spelled_eq_none {place : Place} {segments : List String} (hd : t.node? place = some .directory)
    (hw : t.walk place segments = .error .notFound)
    (hup : ∀ front back, segments = front ++ ".." :: back → t.walk place front ≠ .error .notFound) :
    t.node? (spelled place segments) = none := by
  induction segments generalizing place with
  | nil => exact absurd hw (by simp [walk])
  | cons segment rest ih =>
    -- A walk that goes on in the rest goes up from nothing missing there either.
    have hrest : ∀ q, (∀ front, t.walk place (segment :: front) = t.walk q front) →
        ∀ front back, rest = front ++ ".." :: back → t.walk q front ≠ .error .notFound := fun q hq front back e =>
      hq front ▸ hup (segment :: front) back (by rw [e, List.cons_append])
    have hwalk := fun front => walk_cons_of_directory hd segment front
    rw [hwalk] at hw
    rw [spelled]
    split at hw
    · rename_i hidle
      rw [if_pos hidle]
      exact ih hd hw (hrest place fun front => by rw [hwalk, if_pos hidle])
    · rename_i hidle
      rw [if_neg hidle]
      split at hw
      · rename_i hdots
        rw [if_pos hdots]
        exact ih (h.directory_dropLast hd) hw (hrest _ fun front => by rw [hwalk, if_neg hidle, if_pos hdots])
      · rename_i hdots
        rw [if_neg hdots]
        split at hw
        · exact absurd (Except.error.inj hw) (by simp)
        · rename_i hlong
          split at hw
          · rename_i hs
            exact ih (directory_of_walk_error hs hw) hw
              (hrest _ fun front => by rw [hwalk, if_neg hidle, if_neg hdots, if_neg hlong, if_pos hs])
          · rename_i hs
            -- Nothing is held below what is missing, and nothing leads up from there.
            have hnames : ".." ∉ rest := by
              intro hm
              obtain ⟨front, back, e⟩ := List.append_of_mem hm
              refine hup (segment :: front) back (by rw [e, List.cons_append]) ?_
              rw [hwalk, if_neg hidle, if_neg hdots, if_neg hlong, if_neg hs]
            have hbelow := isPrefix_spelled (place ++ [segment]) hnames
            exact Option.not_isSome_iff_eq_none.1 fun hheld => hs (h.held_of_isPrefix hbelow hheld)

include h in
/-- A path that is not refused and leads somewhere leads to something. -/
theorem contains_of_walk {p : Path} {place : Place} (hr : refusal? p = none)
    (hw : t.walk (t.start p) p.segments = .ok place) : t.contains p = true := by
  obtain ⟨node, hn⟩ := Option.isSome_iff_exists.1 (h.held_of_walk (h.start_held p) hw)
  have hl : t.locate p = .ok place := by
    rw [locate, hr]
    exact hw
  rw [FileTree.contains, stat_of_locate hl hn]

include h in
/-- A path that leads to nothing, and does not go up from something missing, spells a place that holds nothing, if it leads
somewhere once more is in the tree. -/
theorem node?_placeOf_eq_none {mid : FileTree} (hc : t.Covers mid) {p : Path} {place : Place}
    (hr : refusal? p = none) (hmissing : t.contains p = false) (hd : ¬t.Detours p)
    (hw : mid.walk (mid.start p) p.segments = .ok place) : t.node? (t.placeOf p) = none := by
  rw [hc.start_eq] at hw
  cases hwalk : t.walk (t.start p) p.segments with
  | ok q =>
    rw [h.contains_of_walk hr hwalk] at hmissing
    exact absurd hmissing (by simp)
  | error e =>
    by_cases he : e = .notFound
    · refine h.node?_spelled_eq_none (h.start_held p) (he ▸ hwalk) fun front back hs hfront => hd ⟨front, back, hs, hfront⟩
    · rw [hc.walk_error he hwalk] at hw
      exact absurd hw (by simp)

include h in
/-- A node that is put at an entry of a directory keeps the tree well-formed, if no file takes the place of a directory. -/
theorem put {place : Place} {name : String} {node : Node} (hd : t.node? place = some .directory) (hn : IsEntryName name)
    (hkept : node = .directory ∨ t.node? (place ++ [name]) ≠ some .directory) :
    (t.put (place ++ [name]) node).WellFormed := by
  have hdirectory : ∀ q, t.node? q = some .directory → (t.put (place ++ [name]) node).node? q = some .directory := by
    intro q hq
    rw [node?_put t _ q node (by simp)]
    split
    · rename_i he
      rw [hkept.resolve_right fun hne => hne (he ▸ hq)]
    · exact hq
  have hplace : ∀ n ∈ place, IsEntryName n := by
    intro n hm
    have hne : place ≠ [] := List.ne_nil_of_mem hm
    exact h.named _ (mem_nodes_of_node? hne hd) n hm
  refine ⟨hdirectory t.here h.here_held, fun entry he => ?_, fun entry he => ?_⟩
  · rcases List.mem_cons.1 he with rfl | he
    · rw [List.dropLast_concat]
      exact hdirectory place hd
    · exact hdirectory _ (h.parent_held entry (List.mem_filter.1 he).1)
  · rcases List.mem_cons.1 he with rfl | he
    · intro n hm
      rcases List.mem_append.1 hm with hm | hm
      · exact hplace n hm
      · exact List.mem_singleton.1 hm ▸ hn
    · exact h.named entry (List.mem_filter.1 he).1

end WellFormed

end SkillLint.FileTree

namespace SkillLint

/-- A file tree whose nodes make up a tree. -/
structure FileSystem extends FileTree where
  wellFormed : toFileTree.WellFormed

instance : Coe FileSystem FileTree :=
  ⟨FileSystem.toFileTree⟩

end SkillLint
