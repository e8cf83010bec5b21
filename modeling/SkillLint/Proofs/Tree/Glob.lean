import SkillLint.Proofs.Tree.Place
import SkillLint.Tree.Glob

/-!
# Listing what lies below a directory

A text in which no character has a meaning in patterns is a pattern for itself. So the pattern of a path followed by one for any
number of directories and one for any name lists what lies below the directory that the path leads to, and its listed paths go
on from that path by the names below the directory.
-/

namespace SkillLint.Glob

/-- Whether no character of a text has a meaning in patterns. -/
def IsLiteral (text : List Char) : Prop :=
  ∀ c ∈ text, c ≠ '*' ∧ c ≠ '?' ∧ c ≠ '['

instance (text : List Char) : Decidable (IsLiteral text) :=
  List.decidableBAll (fun c => c ≠ '*' ∧ c ≠ '?' ∧ c ≠ '[') text

/-- The pattern for a name alone. -/
def exactly (name : String) : List Token :=
  name.toList.map .exact

/-- The segments of a path behind the root. -/
def behindRoot (p : Path) : List String :=
  if p.isAbsolute then p.segments.tail else p.segments

/-- The path from which a path is listed, segment by segment. -/
def origin (p : Path) : Path :=
  if p.isAbsolute then ⟨"/"⟩ else ⟨"."⟩

/-! ## Patterns for names -/

/-- A text without wildcards is read as the pattern for itself, and then what stands behind it is read. -/
theorem parseFrom_literal {text : List Char} (h : IsLiteral text) (fuel position : Nat) (before : Option Char)
    (rest : List Char) : parseFrom (text.length + fuel) position before (text ++ rest) =
      (text.map .exact ++ ·) <$> parseFrom fuel (position + text.length) (text.getLast?.or before) rest := by
  induction text generalizing position before with
  | nil => simp
  | cons c more ih =>
    obtain ⟨hstar, hmark, hbracket⟩ := h c List.mem_cons_self
    have hlast : (c :: more).getLast?.or before = more.getLast?.or (some c) := by
      cases more with
      | nil => rfl
      | cons d more => simp [List.getLast?_cons]
    have hmore := ih (fun d hd => h d (List.mem_cons_of_mem c hd)) (position + 1) (some c)
    rw [List.length_cons, Nat.succ_add_eq_add_succ, List.cons_append, Nat.add_succ, parseFrom, hmore, hlast, Nat.add_assoc,
      Nat.add_comm 1]
    · cases parseFrom fuel (position + (more.length + 1)) (more.getLast?.or (some c)) rest <;> rfl
    · exact hmark
    · exact hstar
    · exact hbracket

/-- A segment without wildcards is read as the pattern for itself. -/
theorem parse_literal {name : String} (h : IsLiteral name.toList) : parse name.toList = .ok (exactly name) := by
  have hall := parseFrom_literal h 0 0 none []
  rw [List.append_nil, Nat.add_zero] at hall
  rw [parse, hall, parseFrom]
  simp [exactly]

/-- The pattern for a name alone stands for the name. -/
theorem literal?_exactly (name : String) : literal? (exactly name) = some name.toList := by
  rw [exactly]
  induction name.toList with
  | nil => rfl
  | cons c rest ih => rw [List.map_cons, literal?, ih, Option.map_some]

/-- Patterns for names alone are not left out. -/
theorem dropRepeats_exactly (names : List String) (patterns : List (List Token)) :
    dropRepeats (names.map exactly ++ patterns) = names.map exactly ++ dropRepeats patterns := by
  induction names with
  | nil => rfl
  | cons name names ih =>
    rw [List.map_cons, List.cons_append, dropRepeats, ih, List.cons_append]
    intro h
    have := literal?_exactly name
    rw [h] at this
    exact absurd this (by simp [literal?])

/-- Segments without wildcards are read as the patterns for themselves. -/
theorem mapM_parse_literal {names : List String} (h : ∀ name ∈ names, IsLiteral name.toList) (texts : List (List Char)) :
    (names.map String.toList ++ texts).mapM parse = (names.map exactly ++ ·) <$> texts.mapM parse := by
  induction names with
  | nil => simp
  | cons name names ih =>
    rw [List.map_cons, List.cons_append, List.mapM_cons, parse_literal (h name List.mem_cons_self),
      ih fun n hn => h n (List.mem_cons_of_mem _ hn)]
    cases texts.mapM parse <;> rfl

/-! ## Segments of patterns -/

theorem textSegments_eq {text last : List Char} {front : List (List Char)} (h : text.splitOn '/' = front ++ [last])
    (hne : last ≠ []) : textSegments text = front ++ [last] := by
  obtain ⟨c, rest, rfl⟩ := List.exists_cons_of_ne_nil hne
  rw [textSegments, h, List.reverse_append, List.reverse_singleton, List.singleton_append]
  simp

/-- Behind the first slash of an absolute path are the segments behind the empty one. -/
theorem splitOn_behind_root (p : Path) :
    (if p.isAbsolute then p.text.toList.drop 1 else p.text.toList).splitOn '/' = (behindRoot p).map String.toList := by
  unfold behindRoot
  cases habs : p.isAbsolute with
  | false => simp [Path.segments]
  | true =>
    obtain ⟨rest, hrest⟩ := List.head?_eq_some_iff.1 (beq_iff_eq.1 habs)
    simp [Path.segments, hrest, List.splitOn_cons_eq_if_modifyHead]

/-- A listing expands the patterns of the segments, from the root for an absolute pattern. -/
theorem list_of_parse {t : FileTree} {pattern : Path} {tokens : List Token} {patterns : List (List Token)}
    (htext : parse pattern.text.toList = .ok tokens)
    (hpatterns : (textSegments (if pattern.isAbsolute then pattern.text.toList.drop 1 else pattern.text.toList)).mapM parse =
      .ok patterns) : list t pattern = .ok (expand t (dropRepeats patterns) (origin pattern)) := by
  rw [list, htext]
  simp only [bind, Except.bind, pure, Except.pure]
  rw [hpatterns]
  rfl

/-! ## Paths of entries -/

section Entries

variable {p : Path} {name : String}

/-- The path of an entry, unless it is written without the dot. -/
theorem entry_eq_child (h : p.components ≠ [.here]) : entry p name = p.child name :=
  if_neg h

/-- The path of an entry starts where the path of the directory does. -/
theorem isAbsolute_entry (hn : '/' ∉ name.toList) : (entry p name).isAbsolute = p.isAbsolute := by
  unfold entry
  split
  · rename_i hhere
    have hrelative : p.isAbsolute = false := by
      rw [Bool.eq_false_iff]
      intro ha
      simp [Path.components, ha] at hhere
    rw [Path.isAbsolute_name hn, hrelative]
  · by_cases hp : p.text = ""
    · obtain rfl : p = ⟨""⟩ := congrArg Path.mk hp
      have hchild : Path.child ⟨""⟩ name = ⟨name⟩ := by simp [Path.child, Path.join, Path.isAbsolute_name hn]
      rw [hchild, Path.isAbsolute_name hn]
      rfl
    · exact Path.isAbsolute_join hp (Path.isAbsolute_name hn)

/-- The path of an entry leads up as often as the path of the directory and the name together. -/
theorem count_up_entry (hn : '/' ∉ name.toList) :
    (entry p name).components.count .up = p.components.count .up + [name].count ".." := by
  unfold entry
  split
  · rename_i hhere
    rw [hhere, Path.count_up_components, Path.segments_name hn]
    simp
  · rw [Path.count_up_components, Path.count_up_components, Path.child, Path.segments_join p (Path.isAbsolute_name hn),
      Path.segments_name hn, List.count_append]
    rcases p.segments_eq_front with h | h
    · rw [← h]
    · rw [h, List.count_append]
      rfl

variable {names : List String} (hn : ∀ name ∈ names, '/' ∉ name.toList)

include hn in
/-- A path that goes on by names starts where it did. -/
theorem isAbsolute_foldl_entry : (names.foldl entry p).isAbsolute = p.isAbsolute := by
  induction names generalizing p with
  | nil => rfl
  | cons name names ih =>
    rw [List.foldl_cons, ih fun n h => hn n (List.mem_cons_of_mem _ h), isAbsolute_entry (hn name List.mem_cons_self)]

include hn in
/-- A path that goes on by names leads up as often as it did and as the names do. -/
theorem count_up_foldl_entry :
    (names.foldl entry p).components.count .up = p.components.count .up + names.count ".." := by
  induction names generalizing p with
  | nil => rfl
  | cons name names ih =>
    rw [List.foldl_cons, ih fun n h => hn n (List.mem_cons_of_mem _ h), count_up_entry (hn name List.mem_cons_self),
      Nat.add_assoc, ← List.count_append, List.singleton_append]

include hn in
/-- A path that goes on by names has their components behind its own. -/
theorem components_foldl_entry (hne : p.components ≠ []) (hhere : p.components ≠ [.here]) :
    (names.foldl entry p).components = p.components ++ names.filterMap Path.Component.ofSegment? := by
  induction names generalizing p with
  | nil => simp
  | cons name names ih =>
    have htext : p.text ≠ "" := by
      intro e
      obtain rfl : p = ⟨""⟩ := congrArg Path.mk e
      exact hne rfl
    have hslash := hn name List.mem_cons_self
    have hentry : (entry p name).components = p.components ++ [name].filterMap Path.Component.ofSegment? := by
      rw [entry_eq_child hhere, Path.child, Path.components_join htext (Path.isAbsolute_name hslash), Path.segments_name hslash]
    obtain ⟨c, more, hmore⟩ := List.exists_cons_of_ne_nil hne
    rw [List.foldl_cons, ih fun n h => hn n (List.mem_cons_of_mem _ h), hentry, List.append_assoc, ← List.filterMap_append,
      List.singleton_append]
    · simp [hentry, hne]
    · rw [hentry, hmore, List.cons_append]
      intro he
      obtain ⟨hc, hrest⟩ := List.cons.inj he
      rw [hc, (List.append_eq_nil_iff.1 hrest).1] at hmore
      exact hhere hmore

/-- A path that stays at a dot or does not start with one goes on so, and does not start with one behind a name. -/
theorem head?_entry (hn : '/' ∉ name.toList) (hp : p.components = [.here] ∨ p.components.head? ≠ some .here) :
    (entry p name).components = [.here] ∧ name = "." ∨ (entry p name).components.head? ≠ some .here := by
  have hsegment : Path.components ⟨name⟩ = [.here] ∧ name = "." ∨ (Path.components ⟨name⟩).head? ≠ some .here := by
    by_cases hdot : name = "."
    · exact .inl ⟨hdot ▸ rfl, hdot⟩
    · rw [Path.components_segment hn hdot]
      exact .inr fun e => (Path.ne_of_mem_filterMap (List.mem_of_mem_head? e)).2 rfl
  unfold entry
  split
  · exact hsegment
  · rename_i hhere
    by_cases ht : p.text = ""
    · obtain rfl : p = ⟨""⟩ := congrArg Path.mk ht
      have hchild : Path.child ⟨""⟩ name = ⟨name⟩ := by simp [Path.child, Path.join, Path.isAbsolute_name hn]
      rw [hchild]
      exact hsegment
    · obtain ⟨c, more, hmore⟩ := List.exists_cons_of_ne_nil (Path.components_ne_nil ht)
      rw [Path.child, Path.components_join ht (Path.isAbsolute_name hn)]
      have hhead := hp.resolve_left hhere
      rw [hmore] at hhead ⊢
      exact .inr hhead

include hn in
/-- A path that stays at a dot or does not start with one goes on so. -/
theorem head?_foldl_entry (hp : p.components = [.here] ∨ p.components.head? ≠ some .here) :
    (names.foldl entry p).components = [.here] ∨ (names.foldl entry p).components.head? ≠ some .here := by
  induction names generalizing p with
  | nil => exact hp
  | cons name names ih =>
    rw [List.foldl_cons]
    exact ih (fun n h => hn n (List.mem_cons_of_mem _ h)) ((head?_entry (hn name List.mem_cons_self) hp).imp_left And.left)

/-- The path of an entry has no characters but those of the path of the directory, a slash and the name. -/
theorem entry_sublist (p : Path) (name : String) : (entry p name).text.toList.Sublist (p.text.toList ++ '/' :: name.toList) := by
  have hname : name.toList.Sublist (p.text.toList ++ '/' :: name.toList) :=
    (List.sublist_cons_self '/' _).trans (List.sublist_append_right _ _)
  unfold entry
  split
  · exact hname
  · unfold Path.child Path.join
    split
    · exact hname
    · split
      · rw [String.toList_append]
        exact (List.Sublist.refl _).append (List.sublist_cons_self '/' _)
      · simp

/-- A path that goes on by names has no characters but its own, slashes and those of the names. -/
theorem foldl_entry_sublist (p : Path) (names : List String) :
    (names.foldl entry p).text.toList.Sublist (p.text.toList ++ names.flatMap fun name => '/' :: name.toList) := by
  induction names generalizing p with
  | nil => simp
  | cons name names ih =>
    rw [List.foldl_cons, List.flatMap_cons, ← List.append_assoc]
    exact (ih (entry p name)).trans ((entry_sublist p name).append (List.Sublist.refl _))

end Entries

/-! ## Listed paths -/

variable {t : FileTree}

/-- What lies below a place: the nodes whose names go on from those of the place. -/
theorem mem_below_iff {place names : Place} {node : Node} :
    (names, node) ∈ t.below place ↔ names ≠ [] ∧ (place ++ names, node) ∈ t.nodes := by
  rw [FileTree.below, List.mem_mergeSort, List.mem_map]
  constructor
  · rintro ⟨⟨q, found⟩, hm, he⟩
    obtain ⟨hm, hbelow⟩ := List.mem_filter.1 hm
    obtain ⟨hpre, hlong⟩ := Bool.and_eq_true_iff.1 hbelow
    obtain ⟨rest, rfl⟩ := List.isPrefixOf_iff_prefix.1 hpre
    obtain ⟨rfl, rfl⟩ := Prod.mk.inj he
    rw [List.drop_left]
    refine ⟨?_, hm⟩
    rintro rfl
    simp at hlong
  · rintro ⟨hne, hm⟩
    refine ⟨(place ++ names, node), List.mem_filter.2 ⟨hm, ?_⟩, by simp⟩
    have hlong : 0 < names.length := List.length_pos_iff.2 hne
    simp [hlong]

/-- The paths below a directory go on by the names of the nodes below it. -/
theorem descendants_of_locate {p : Path} {place : Place} (hl : t.locate p = .ok place) :
    descendants t p = (t.below place).map fun (names, _) => names.foldl entry p := by
  rw [descendants, hl]

theorem children_of_locate {p : Path} {place : Place} (hl : t.locate p = .ok place) :
    children t p = ((t.below place).filter fun (names, _) => names.length == 1).map fun (names, _) => names.foldl entry p := by
  rw [children, hl]

/-- A star stands for every name. -/
theorem accepts_anyText (name : List Char) : accepts [.anyText] name = true := by
  have hends : [] ∈ ends name := by
    induction name with
    | nil => exact List.mem_singleton_self _
    | cons c rest ih => exact List.mem_cons_of_mem _ ih
  rw [accepts, List.any_eq_true]
  exact ⟨[], hends, rfl⟩

/-- Any number of directories and then any name: all that lies below a directory. -/
theorem expand_everything (p : Path) :
    expand t [[.anyDepth], [.anyText]] p = if t.isDirectory p then descendants t p else [] := by
  have hfilter : (descendants t p).filter (fun q => accepts [.anyText] (lastName q)) = descendants t p :=
    List.filter_eq_self.2 fun q _ => accepts_anyText (lastName q)
  have hflat : (descendants t p).flatMap (expand t []) = descendants t p := by
    simp only [expand]
    exact List.flatMap_singleton' _
  unfold expand
  simp only [literal?, hfilter, hflat, if_true]
  cases t.isDirectory p <;> rfl

/-- Any number of directories and then a pattern: what lies below a directory and has a name for which the pattern stands. -/
theorem expand_anyDepth {p : Path} (hd : t.isDirectory p = true) (pattern : List Token) (rest : List (List Token)) :
    expand t ([.anyDepth] :: pattern :: rest) p =
      ((descendants t p).filter fun q => accepts pattern (lastName q)).flatMap (expand t rest) := by
  conv_lhs => unfold expand
  simp [literal?, hd]

/-- A pattern for several names: the dots for which it stands, and then the entries for whose names it does. -/
theorem expand_several {p : Path} (hd : t.isDirectory p = true) {pattern : List Token} (hp : literal? pattern = none)
    (hne : pattern ≠ [.anyDepth]) (rest : List (List Token)) : expand t (pattern :: rest) p =
      (dotEntries pattern p).flatMap (expand t rest) ++
        ((children t p).filter fun q => accepts pattern (lastName q)).flatMap (expand t rest) := by
  conv_lhs => unfold expand
  simp [hp, hd, hne]

/-- What is listed below a directory: the paths that go on by the names of a node below it. -/
theorem mem_expand_everything_iff {p q : Path} : q ∈ expand t [[.anyDepth], [.anyText]] p ↔
    t.isDirectory p = true ∧ ∃ place names node, t.locate p = .ok place ∧ names ≠ [] ∧ (place ++ names, node) ∈ t.nodes ∧
      q = names.foldl entry p := by
  rw [expand_everything]
  cases hd : t.isDirectory p with
  | false => simp
  | true =>
    simp only [if_true, true_and]
    unfold descendants
    cases t.locate p with
    | error e => simp
    | ok place =>
      constructor
      · intro hq
        obtain ⟨⟨names, node⟩, hm, rfl⟩ := List.mem_map.1 hq
        obtain ⟨hne, hm⟩ := mem_below_iff.1 hm
        exact ⟨place, names, node, rfl, hne, hm, rfl⟩
      · rintro ⟨_, names, node, hplace, hne, hm, rfl⟩
        obtain rfl := Except.ok.inj hplace
        exact List.mem_map.2 ⟨(names, node), mem_below_iff.2 ⟨hne, hm⟩, rfl⟩

/-- A pattern for a name alone leads to the entry with the name, if there is one. -/
theorem expand_exactly (name : String) (patterns : List (List Token)) (p : Path) :
    expand t (exactly name :: patterns) p =
      if name = "." ∨ name = ".." then if t.isDirectory p then expand t patterns (entry p name) else []
      else if t.contains (entry p name) then expand t patterns (entry p name) else [] := by
  conv_lhs => unfold expand
  simp only [literal?_exactly, String.ofList_toList]

/-- Patterns for names alone list nothing but what the patterns behind them list from the entries with the names. -/
theorem mem_expand_exactly {names : List String} {patterns : List (List Token)} {p q : Path}
    (h : q ∈ expand t (names.map exactly ++ patterns) p) : q ∈ expand t patterns (names.foldl entry p) := by
  induction names generalizing p with
  | nil => exact h
  | cons name names ih =>
    rw [List.map_cons, List.cons_append, expand_exactly] at h
    rw [List.foldl_cons]
    split at h
    · split at h
      · exact ih h
      · exact absurd h List.not_mem_nil
    · split at h
      · exact ih h
      · exact absurd h List.not_mem_nil

/-! ## Entries that a walk passes -/

/-- The path of an entry leads to where a walk from the directory along the name ends. -/
theorem locate_entry {p : Path} {name : String} {home place : Place} (hn : '/' ∉ name.toList) (hl : t.locate p = .ok home)
    (hw : t.walk home [name] = .ok place) (hr : FileTree.refusal? (entry p name) = none) :
    t.locate (entry p name) = .ok place := by
  have hwalk : t.walk home (Path.segments ⟨name⟩) = .ok place := by rwa [Path.segments_name hn]
  unfold entry at hr ⊢
  split
  · rename_i hhere
    rw [if_pos hhere] at hr
    obtain ⟨habs, hsegments⟩ := Path.segments_of_here hhere
    have hhome : home = t.here ++ [] := by
      have hstart : t.start p = t.here := by rw [FileTree.start, habs, if_neg Bool.false_ne_true]
      rw [FileTree.eq_placeOf_of_locate hl, FileTree.placeOf, hstart]
      exact FileTree.spelled_of_names hsegments
    have hstart : t.start ⟨name⟩ = t.here := by rw [FileTree.start, Path.isAbsolute_name hn, if_neg Bool.false_ne_true]
    rw [FileTree.locate, hr]
    simp only
    rw [hstart, ← hwalk, hhome, List.append_nil]
  · rename_i hhere
    rw [if_neg hhere] at hr
    exact FileTree.locate_join_of_walk (Path.isAbsolute_name hn) hr hl hwalk

/-- Along a walk, patterns for names alone lead to the entries that the walk passes, where their paths are not refused. -/
theorem expand_of_walk {s : FileSystem} {p : Path} {names : List String} {home place : Place}
    (hn : ∀ name ∈ names, '/' ∉ name.toList) (hl : s.locate p = .ok home) (hw : s.walk home names = .ok place)
    (hr : ∀ front, front ≠ [] → front <+: names → FileTree.refusal? (front.foldl entry p) = none)
    (patterns : List (List Token)) :
    s.locate (names.foldl entry p) = .ok place ∧
      expand s (names.map exactly ++ patterns) p = expand s patterns (names.foldl entry p) := by
  induction names generalizing p home with
  | nil => exact ⟨hl.trans hw, rfl⟩
  | cons name names ih =>
    have hd := FileTree.node?_of_walk_cons hw
    rw [← List.singleton_append] at hw
    obtain ⟨next, hstep, hw⟩ := FileTree.exists_of_walk_append hw
    have hslash := hn name List.mem_cons_self
    have hentry := locate_entry hslash hl hstep (hr [name] (by simp) (List.prefix_append _ _))
    obtain ⟨hplace, hexpand⟩ := ih (fun n h => hn n (List.mem_cons_of_mem _ h)) hentry hw fun front _ hf =>
      hr (name :: front) (by simp) (List.cons_prefix_cons.2 ⟨rfl, hf⟩)
    refine ⟨hplace, ?_⟩
    obtain ⟨node, hnode⟩ := Option.isSome_iff_exists.1 (s.wellFormed.held_of_walk hd hstep)
    have hcontains : s.contains (entry p name) = true := by
      rw [FileTree.contains, FileTree.stat_of_locate hentry hnode]
    have hdirectory : s.isDirectory p = true := by
      rw [FileTree.isDirectory, FileTree.stat_of_locate hl hd]
    rw [List.map_cons, List.cons_append, expand_exactly, hcontains, hdirectory, List.foldl_cons, ← hexpand]
    simp

/-- The path that a path is listed from leads to where the path starts. -/
theorem locate_origin (s : FileSystem) (p : Path) : s.locate (origin p) = .ok (s.start p) := by
  unfold origin FileTree.start
  cases p.isAbsolute with
  | false => exact s.wellFormed.locate_here
  | true => rfl

/-- The root goes nowhere in a walk along the segments of a path. -/
theorem walk_behindRoot (t : FileTree) (p : Path) : t.walk (t.start p) (behindRoot p) = t.walk (t.start p) p.segments := by
  unfold behindRoot FileTree.start
  cases habs : p.isAbsolute with
  | false => rfl
  | true =>
    obtain ⟨rest, hs, -⟩ := Path.isAbsolute_iff.1 habs
    have hroot : t.node? [] = some .directory := rfl
    rw [hs, if_pos rfl, if_pos rfl, List.tail_cons, FileTree.walk_cons_of_directory hroot, if_pos (.inl rfl)]

/-- The segments behind the root have no slash in them. -/
theorem slash_notMem_behindRoot {p : Path} {segment : String} (h : segment ∈ behindRoot p) : '/' ∉ segment.toList := by
  refine Path.slash_notMem_of_mem_segments (p := p) ?_
  unfold behindRoot at h
  split at h
  · exact List.mem_of_mem_tail h
  · exact h

/-- A path that does not start with a dot begins as the first entry that is listed for it does, and goes on by its other
segments. -/
theorem exists_first_entry {p : Path} (ht : p.text ≠ "") (hhead : p.components.head? ≠ some .here) :
    ∃ first more, behindRoot p = first :: more ∧
      p.text.toList = (entry (origin p) first).text.toList ++ more.flatMap (fun segment => '/' :: segment.toList) ∧
      p.components = (entry (origin p) first).components ++ more.filterMap Path.Component.ofSegment? ∧
      (entry (origin p) first).text ≠ "" := by
  cases habs : p.isAbsolute with
  | true =>
    obtain ⟨behind, hs, hne⟩ := Path.isAbsolute_iff.1 habs
    obtain ⟨first, more, rfl⟩ := List.exists_cons_of_ne_nil hne
    have hslash : '/' ∉ first.toList := Path.slash_notMem_of_mem_segments (p := p) (by simp [hs])
    have hrelative := Path.isAbsolute_name hslash
    have horigin : origin p = ⟨"/"⟩ := if_pos habs
    have hentry : entry ⟨"/"⟩ first = ⟨"/" ++ first⟩ := by
      rw [entry_eq_child (by decide), Path.child, Path.join, hrelative]
      rfl
    have hcomponents : (entry ⟨"/"⟩ first).components = .root :: [first].filterMap Path.Component.ofSegment? := by
      rw [entry_eq_child (by decide), Path.child, Path.components_join (by decide) hrelative, Path.segments_name hslash]
      rfl
    refine ⟨first, more, by rw [behindRoot, habs, hs]; rfl, ?_, ?_, ?_⟩
    · rw [Path.toList_text_of_segments hs, horigin, hentry]
      simp
    · rw [horigin, hcomponents, List.cons_append, ← List.filterMap_append, List.singleton_append]
      unfold Path.components
      simp [habs, hs, Path.Component.ofSegment?]
    · rw [horigin, hentry]
      simp
  | false =>
    obtain ⟨first, more, hs, hempty, hdot⟩ := Path.exists_segments_of_head? ht habs hhead
    have hslash : '/' ∉ first.toList := Path.slash_notMem_of_mem_segments (p := p) (by simp [hs])
    have hentry : entry (origin p) first = ⟨first⟩ := by
      rw [origin, habs]
      rfl
    refine ⟨first, more, by rw [behindRoot, habs, hs]; rfl, ?_, ?_, ?_⟩
    · rw [Path.toList_text_of_segments hs, hentry]
    · rw [hentry, Path.components_segment hslash hdot, ← List.filterMap_append, List.singleton_append]
      unfold Path.components
      simp [habs, hs, hdot]
    · rw [hentry]
      exact hempty

variable {p : Path} (hhead : p.components.head? ≠ some .here)

include hhead in
/-- The path of the last entry on the way of a path has the components of the path. -/
theorem components_foldl_behindRoot (ht : p.text ≠ "") :
    ((behindRoot p).foldl entry (origin p)).components = p.components := by
  obtain ⟨first, more, hs, -, hcomponents, hfirst⟩ := exists_first_entry ht hhead
  have hslash : ∀ segment ∈ more, '/' ∉ segment.toList := fun segment h =>
    slash_notMem_behindRoot (hs ▸ List.mem_cons_of_mem _ h)
  rw [hs, List.foldl_cons, components_foldl_entry hslash (Path.components_ne_nil hfirst), hcomponents]
  rintro e
  rw [hcomponents, e] at hhead
  exact hhead rfl

include hhead in
/-- No path of an entry on the way of a path is refused, if the path is not. -/
theorem refusal?_foldl_entry (hr : FileTree.refusal? p = none) {front : List String} (hf : front ≠ [])
    (hpre : front <+: behindRoot p) : FileTree.refusal? (front.foldl entry (origin p)) = none := by
  obtain ⟨first, more, hs, htext, hcomponents, hfirst⟩ := exists_first_entry (FileTree.text_ne_of_refusal? hr) hhead
  obtain ⟨segment, passed, rfl⟩ := List.exists_cons_of_ne_nil hf
  rw [hs] at hpre
  obtain ⟨rfl, hpassed⟩ := List.cons_prefix_cons.1 hpre
  have hslash : ∀ segment ∈ passed, '/' ∉ segment.toList := fun segment h =>
    slash_notMem_behindRoot (hs ▸ List.mem_cons_of_mem _ (hpassed.subset h))
  rw [List.foldl_cons]
  refine FileTree.refusal?_of_sublist ?_ ?_ hr
  · obtain ⟨behind, rfl⟩ := hpassed
    rw [htext, List.flatMap_append, ← List.append_assoc]
    exact (foldl_entry_sublist _ passed).trans (List.sublist_append_left _ _)
  · intro e
    have hempty : passed.foldl entry (entry (origin p) segment) = ⟨""⟩ := congrArg Path.mk e
    have hnone : (passed.foldl entry (entry (origin p) segment)).components = [] := by
      rw [hempty]
      rfl
    rw [components_foldl_entry hslash (Path.components_ne_nil hfirst)] at hnone
    · exact Path.components_ne_nil hfirst (List.append_eq_nil_iff.1 hnone).1
    · rintro e
      rw [hcomponents, e] at hhead
      exact hhead rfl

end SkillLint.Glob
