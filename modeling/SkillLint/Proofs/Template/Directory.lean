import SkillLint.Proofs.Containment
import SkillLint.Proofs.Tree.Glob
import SkillLint.Template

/-!
# The files of a template directory

The files of a directory are listed by a pattern made from its path. Where no character of the path has a meaning in patterns,
the pattern lists what lies below the directory, so a file of the template has the path that leads to it from there: it does
not escape.
-/

namespace SkillLint.Template

open Glob

/-! ## The pattern -/

/-- The pattern for everything below a directory goes on from the path of the directory by stars. -/
theorem patternBelow_eq_join (directory : Path) : patternBelow directory = directory.join ⟨"**/*"⟩ := by
  have hstars : (directory.child "**").EndsInName := Path.EndsInName.of_child (by decide) directory (by decide)
  have htext := hstars.text_join (q := ⟨"*"⟩) rfl
  have hjoined : patternBelow directory = ⟨(directory.child "**").text ++ "/" ++ "*"⟩ := congrArg Path.mk htext
  rw [hjoined, Path.child, Path.join, Path.join]
  simp only [show Path.isAbsolute ⟨"**"⟩ = false from rfl, show Path.isAbsolute ⟨"**/*"⟩ = false from rfl, Bool.false_eq_true,
    if_false]
  split <;> simp only [String.append_assoc] <;> rfl

variable {t : FileTree} {directory : Path}

/-- The segments of a directory's path along which its files are listed: those in front, behind the root. -/
def listedSegments (directory : Path) : List String :=
  if directory.isAbsolute then directory.frontSegments.tail else directory.frontSegments

/-- A path that goes on from that of a directory is listed along the segments of the directory and then along its own. -/
theorem behindRoot_join (directory : Path) {p : Path} (hp : p.isAbsolute = false) :
    behindRoot (directory.join p) = listedSegments directory ++ p.segments ∧ origin (directory.join p) = origin directory := by
  have hsegments := Path.segments_join directory hp
  have habs : (directory.join p).isAbsolute = directory.isAbsolute := by
    by_cases ht : directory.text = ""
    · obtain rfl : directory = ⟨""⟩ := congrArg Path.mk ht
      simp [Path.join, hp]
      rfl
    · exact Path.isAbsolute_join ht hp
  refine ⟨?_, by rw [origin, origin, habs]⟩
  rw [behindRoot, habs, listedSegments, hsegments]
  split
  · rename_i hroot
    refine List.tail_append_of_ne_nil (Path.frontSegments_ne_nil ?_)
    rintro ht
    obtain rfl : directory = ⟨""⟩ := congrArg Path.mk ht
    exact absurd hroot (by decide)
  · rfl

/-- Files are listed along segments of the directory's path. -/
theorem mem_segments_of_listed {segment : String} (h : segment ∈ listedSegments directory) : segment ∈ directory.segments := by
  have hfront : segment ∈ directory.frontSegments := by
    unfold listedSegments at h
    split at h
    · exact List.mem_of_mem_tail h
    · exact h
  rcases directory.segments_eq_front with hs | hs
  · exact hs ▸ hfront
  · exact hs ▸ List.mem_append_left _ hfront

/-- Files are listed along all segments of the directory's path that lead up. -/
theorem count_listedSegments (directory : Path) :
    (listedSegments directory).count ".." = directory.components.count .up := by
  have hfront : directory.frontSegments.count ".." = directory.segments.count ".." := by
    rcases directory.segments_eq_front with hs | hs
    · rw [← hs]
    · rw [hs, List.count_append]
      rfl
  rw [Path.count_up_components, ← hfront, listedSegments]
  split
  · rename_i habs
    obtain ⟨rest, hrest, hne⟩ := Path.isAbsolute_iff.1 habs
    cases hcases : directory.frontSegments with
    | nil => rfl
    | cons first more =>
      have hfirst : first = "" := by
        rcases directory.segments_eq_front with hs | hs <;> rw [hcases, hrest] at hs <;>
          exact (List.head_eq_of_cons_eq hs).symm
      rw [hfirst, List.tail_cons, List.count_cons_of_ne (by decide)]
  · rfl

/-- Where no character of the path of a directory has a meaning in patterns, its pattern is one. -/
theorem exists_parse_eq_ok (hliteral : IsLiteral directory.text.toList) :
    ∃ tokens, parse (directory.join ⟨"**/*"⟩).text.toList = .ok tokens := by
  obtain ⟨front, htext, hfront, hlast⟩ : ∃ front, (directory.join ⟨"**/*"⟩).text.toList = front ++ "**/*".toList ∧
      IsLiteral front ∧ (front.getLast? = none ∨ front.getLast? = some '/') := by
    rw [Path.join, if_neg (by decide)]
    split
    · rename_i hends
      refine ⟨directory.text.toList, String.toList_append, hliteral, hends.imp_left fun e => ?_⟩
      rw [e]
      rfl
    · refine ⟨directory.text.toList ++ ['/'], by simp, fun c hc => ?_, .inr List.getLast?_concat⟩
      rcases List.mem_append.1 hc with hc | hc
      · exact hliteral c hc
      · rw [List.mem_singleton.1 hc]
        decide
  have hparse := parseFrom_literal hfront 4 0 none "**/*".toList
  rw [htext, parse, List.length_append]
  refine ⟨front.map .exact ++ [.anyDepth, .anyText], hparse.trans ?_⟩
  rcases hlast with hlast | hlast <;> rw [hlast] <;> rfl

/-- Where no character of the path of a directory has a meaning in patterns, its pattern is expanded along the segments of the
path and then to all that lies below. -/
theorem list_patternBelow (t : FileTree) (hliteral : IsLiteral directory.text.toList) :
    Glob.list t (patternBelow directory) =
      .ok (expand t ((listedSegments directory).map exactly ++ [[.anyDepth], [.anyText]]) (origin directory)) := by
  obtain ⟨tokens, htokens⟩ := exists_parse_eq_ok hliteral
  obtain ⟨hbehind, horigin⟩ := behindRoot_join directory (p := ⟨"**/*"⟩) rfl
  have hsplit := splitOn_behind_root (directory.join ⟨"**/*"⟩)
  have hlast : (listedSegments directory ++ Path.segments ⟨"**/*"⟩).map String.toList =
      ((listedSegments directory).map String.toList ++ ["**".toList]) ++ ["*".toList] := by
    rw [List.map_append, List.append_assoc]
    rfl
  rw [hbehind, hlast] at hsplit
  have hpatterns := mapM_parse_literal (fun name hn c hc =>
    hliteral c (Path.mem_text_of_mem_segments (mem_segments_of_listed hn) c hc).1) ["**".toList, "*".toList]
  have hstars : ["**".toList, "*".toList].mapM parse = .ok [[.anyDepth], [.anyText]] := rfl
  have hsegments := (textSegments_eq hsplit (by decide)).trans (List.append_assoc _ _ _)
  rw [hstars] at hpatterns
  rw [patternBelow_eq_join, list_of_parse htokens (hsegments ▸ hpatterns), dropRepeats_exactly, horigin]
  rfl

/-! ## The listed files -/

/-- What a step that never fails makes of a list: something of every element, and nothing else. -/
theorem mem_of_mapM_eq_ok {ε α β : Type} {f : α → Except ε β} {as : List α} {bs : List β} (h : as.mapM f = .ok bs) :
    (∀ b ∈ bs, ∃ a ∈ as, f a = .ok b) ∧ ∀ a ∈ as, ∃ b ∈ bs, f a = .ok b := by
  induction as generalizing bs with
  | nil =>
    obtain rfl : bs = [] := (Except.ok.inj h).symm
    simp
  | cons a more ih =>
    rw [List.mapM_cons] at h
    cases hfirst : f a with
    | error e => simp [hfirst, bind, Except.bind] at h
    | ok b =>
      cases hmore : more.mapM f with
      | error e => simp [hfirst, hmore, bind, Except.bind] at h
      | ok rest =>
        rw [hfirst, hmore] at h
        obtain rfl : bs = b :: rest := (Except.ok.inj h).symm
        obtain ⟨hback, hforth⟩ := ih hmore
        refine ⟨List.forall_mem_cons.2 ⟨⟨a, List.mem_cons_self, hfirst⟩, fun c hc => ?_⟩,
          List.forall_mem_cons.2 ⟨⟨b, List.mem_cons_self, hfirst⟩, fun c hc => ?_⟩⟩
        · obtain ⟨d, hd, hf⟩ := hback c hc
          exact ⟨d, List.mem_cons_of_mem _ hd, hf⟩
        · obtain ⟨d, hd, hf⟩ := hforth c hc
          exact ⟨d, List.mem_cons_of_mem _ hd, hf⟩

/-- A step that fails somewhere in a list fails for an element of it. -/
theorem exists_of_mapM_eq_error {ε α β : Type} {f : α → Except ε β} {as : List α} {e : ε} (h : as.mapM f = .error e) :
    ∃ a ∈ as, f a = .error e := by
  induction as with
  | nil => exact nomatch h
  | cons a more ih =>
    rw [List.mapM_cons] at h
    cases hfirst : f a with
    | error e' =>
      rw [hfirst] at h
      obtain rfl : e' = e := Except.error.inj h
      exact ⟨a, List.mem_cons_self, hfirst⟩
    | ok b =>
      cases hmore : more.mapM f with
      | error e' =>
        rw [hfirst, hmore] at h
        obtain rfl : e' = e := Except.error.inj h
        obtain ⟨c, hc, hf⟩ := ih hmore
        exact ⟨c, List.mem_cons_of_mem a hc, hf⟩
      | ok rest =>
        rw [hfirst, hmore] at h
        exact nomatch h

theorem mem_sortFiles {files : List TemplateFile} {file : TemplateFile} : file ∈ sortFiles files ↔ file ∈ files :=
  List.mem_mergeSort

/-- Sorted files come in the order of their paths. -/
theorem pairwise_sortFiles (files : List TemplateFile) :
    (sortFiles files).Pairwise fun a b => (compare a.path b.path).isLE = true := by
  have htrans : ∀ a b c : TemplateFile, (compare a.path b.path).isLE = true → (compare b.path c.path).isLE = true →
      (compare a.path c.path).isLE = true := fun _ _ _ => Std.TransCmp.isLE_trans
  have htotal : ∀ a b : TemplateFile, ((compare a.path b.path).isLE || (compare b.path a.path).isLE) = true := fun _ _ =>
    Path.isLE_compare_total _ _
  exact List.pairwise_mergeSort htrans htotal files

/-- The files of a directory are the listed paths to files. -/
theorem directoryFiles_eq_ok {files : List TemplateFile} (h : directoryFiles t directory = .ok files) :
    ∃ paths, Glob.list t (patternBelow directory) = .ok paths ∧
      (∀ file ∈ files, ∃ path ∈ paths, t.isFile path = true ∧ fileAt t directory path = .ok file) ∧
      ∀ path ∈ paths, t.isFile path = true → ∃ file ∈ files, fileAt t directory path = .ok file := by
  unfold directoryFiles at h
  split at h
  · exact absurd h (by simp)
  · rename_i paths hpaths
    cases hall : (paths.filter t.isFile).mapM (fileAt t directory) with
    | error e =>
      rw [hall] at h
      exact nomatch h
    | ok found =>
      rw [hall] at h
      obtain rfl : sortFiles found = files := Except.ok.inj h
      obtain ⟨hback, hforth⟩ := mem_of_mapM_eq_ok hall
      refine ⟨paths, hpaths, fun file hf => ?_, fun path hp hfile => ?_⟩
      · obtain ⟨path, hp, he⟩ := hback file (mem_sortFiles.1 hf)
        exact ⟨path, (List.mem_filter.1 hp).1, (List.mem_filter.1 hp).2, he⟩
      · obtain ⟨file, hf, he⟩ := hforth path (List.mem_filter.2 ⟨hp, hfile⟩)
        exact ⟨file, mem_sortFiles.2 hf, he⟩

/-- The files of a directory whose listed paths come in the order of the files are read one after the other. -/
theorem directoryFiles_of_listed {paths : List Path} {files : List TemplateFile}
    (h : Glob.list t (patternBelow directory) = .ok paths) (hfiles : (paths.filter t.isFile).mapM (fileAt t directory) = .ok files)
    (hsorted : files.Pairwise fun a b => (compare a.path b.path).isLE = true) : directoryFiles t directory = .ok files := by
  rw [directoryFiles, h]
  simp only [hfiles]
  exact congrArg Except.ok (List.mergeSort_of_pairwise hsorted)

/-- A listed path as a file: the components behind those of the directory, and the content that is read. -/
theorem fileAt_eq_ok {path : Path} {file : TemplateFile} (h : fileAt t directory path = .ok file) :
    ∃ rest, path.components = directory.components ++ rest ∧ file.path = Path.ofNames (rest.map Path.Component.text) ∧
      t.read path = .ok file.content := by
  unfold fileAt at h
  split at h
  · exact absurd h (by simp)
  · rename_i rest hrest
    split at h
    · exact absurd h (by simp)
    · rename_i content hcontent
      rw [← Except.ok.inj h]
      unfold Path.below? at hrest
      split at hrest
      · rename_i hpre
        obtain ⟨more, hmore⟩ := List.isPrefixOf_iff_prefix.1 hpre
        rw [← Option.some.inj hrest, ← hmore, List.drop_left]
        exact ⟨more, rfl, rfl, hcontent⟩
      · exact absurd hrest (by simp)

/-- What is listed below a directory goes on by names from a path that starts where the directory's path does, and leads up as
often. -/
theorem listed_below {s : FileSystem} (hliteral : IsLiteral directory.text.toList) {paths : List Path}
    (h : Glob.list s (patternBelow directory) = .ok paths) {path : Path} (hp : path ∈ paths) :
    path.isAbsolute = directory.isAbsolute ∧ path.components.count .up = directory.components.count .up := by
  obtain rfl := Except.ok.inj ((list_patternBelow s hliteral).symm.trans h)
  obtain ⟨-, place, names, node, -, -, hm, rfl⟩ := mem_expand_everything_iff.1 (mem_expand_exactly hp)
  have hslash : ∀ segment ∈ listedSegments directory, '/' ∉ segment.toList := fun _ hs =>
    Path.slash_notMem_of_mem_segments (mem_segments_of_listed hs)
  have hnames : ∀ name ∈ names, FileTree.IsEntryName name := fun name hn =>
    s.wellFormed.named _ hm name (List.mem_append_right _ hn)
  have hslash' : ∀ name ∈ names, '/' ∉ name.toList := fun name hn => (hnames name hn).2.2.2
  have hnone : names.count ".." = 0 := List.count_eq_zero.2 fun hn => (hnames _ hn).2.2.1 rfl
  rw [isAbsolute_foldl_entry hslash', isAbsolute_foldl_entry hslash, count_up_foldl_entry hslash',
    count_up_foldl_entry hslash, hnone, count_listedSegments, origin]
  cases directory.isAbsolute with
  | false => exact ⟨rfl, Nat.zero_add _⟩
  | true => exact ⟨rfl, Nat.zero_add _⟩

/-- Names make up a path that does not escape. -/
theorem escapes_ofNames {names : List String} (h : ∀ name ∈ names, name ≠ "" ∧ name ≠ ".." ∧ '/' ∉ name.toList) :
    (Path.ofNames names).escapes = false := by
  cases names with
  | nil => rfl
  | cons name names =>
    have hsegments := Path.segments_ofNames (List.cons_ne_nil name names) fun n hn => (h n hn).2.2
    rw [Bool.eq_false_iff, Ne, Path.escapes_eq_true_iff]
    rintro (habs | ⟨front, hpre, hclimbs⟩)
    · obtain ⟨rest, hrest, -⟩ := Path.isAbsolute_iff.1 habs
      rw [hsegments] at hrest
      exact (h name List.mem_cons_self).1 (List.head_eq_of_cons_eq hrest)
    · have hnone : (Path.ofNames (name :: names)).components.count .up = 0 := by
        rw [Path.count_up_components, hsegments]
        exact List.count_eq_zero.2 fun hm => (h _ hm).2.1 rfl
      have hfront := hpre.sublist.count_le Path.Component.up
      omega

/-- The files of a directory whose path has no wildcards have paths that do not escape. -/
theorem escapes_directoryFiles {s : FileSystem} (hliteral : IsLiteral directory.text.toList) {files : List TemplateFile}
    (h : directoryFiles s directory = .ok files) : ∀ file ∈ files, file.path.escapes = false := by
  intro file hf
  obtain ⟨paths, hpaths, hback, -⟩ := directoryFiles_eq_ok h
  obtain ⟨path, hp, -, hfile⟩ := hback file hf
  obtain ⟨rest, hrest, hpath, -⟩ := fileAt_eq_ok hfile
  obtain ⟨habs, hup⟩ := listed_below hliteral hpaths hp
  have hroot : rest.count .root = 0 := by
    have hcount := Path.count_root_components path
    rw [hrest, List.count_append, Path.count_root_components, habs] at hcount
    omega
  rw [hrest, List.count_append] at hup
  rw [hpath]
  refine escapes_ofNames fun name hn => ?_
  obtain ⟨c, hc, rfl⟩ := List.mem_map.1 hn
  cases c with
  | root => exact absurd hc (List.count_eq_zero.1 hroot)
  | up => exact absurd hc (List.count_eq_zero.1 (by omega))
  | here => exact ⟨by decide, by decide, by decide⟩
  | name text =>
    obtain ⟨hm, hne, -, hdots⟩ := Path.mem_segments_of_name_mem (p := path) (hrest ▸ List.mem_append_right _ hc)
    exact ⟨hne, hdots, Path.slash_notMem_of_mem_segments hm⟩

/-! ## Directories whose path does not start with a dot -/

section Names

variable {names : List String} (hne : names ≠ []) (hn : ∀ name ∈ names, FileTree.IsEntryName name)

/-- The path under which what lies below a directory under some names is listed. -/
def listedPath (directory : Path) (names : List String) : Path :=
  names.foldl entry ((listedSegments directory).foldl entry (origin directory))

include hne hn in
/-- The path from a directory on by names is listed along the segments of the directory and then along the names. -/
theorem behindRoot_join_names (directory : Path) :
    behindRoot (directory.join (Path.ofNames names)) = listedSegments directory ++ names ∧
      origin (directory.join (Path.ofNames names)) = origin directory := by
  obtain ⟨hbehind, horigin⟩ := behindRoot_join directory (Path.components_ofNames hne hn).2
  rw [Path.segments_ofNames hne fun n h => (hn n h).2.2.2] at hbehind
  exact ⟨hbehind, horigin⟩

variable (hhead : directory.components.head? ≠ some .here)

include hne hn hhead in
/-- The path from a directory on by names does not start with a dot. -/
theorem head?_join_names : (directory.join (Path.ofNames names)).components.head? ≠ some .here := by
  rw [Path.components_join_ofNames directory hne hn]
  cases hd : directory.components with
  | nil =>
    obtain ⟨name, more, rfl⟩ := List.exists_cons_of_ne_nil hne
    simp
  | cons c more =>
    rw [hd] at hhead
    exact hhead

include hne hn hhead in
/-- A listed path has the components of the directory and then names. -/
theorem components_listedPath : (listedPath directory names).components = directory.components ++ names.map .name := by
  obtain ⟨hbehind, horigin⟩ := behindRoot_join_names hne hn directory
  have hcomponents := Path.components_join_ofNames directory hne hn
  have ht : (directory.join (Path.ofNames names)).text ≠ "" := by
    intro e
    obtain ⟨name, more, rfl⟩ := List.exists_cons_of_ne_nil hne
    have hnone : directory.join (Path.ofNames (name :: more)) = ⟨""⟩ := congrArg Path.mk e
    have hempty : Path.components ⟨""⟩ = [] := rfl
    rw [hnone, hempty] at hcomponents
    simp at hcomponents
  rw [listedPath, ← List.foldl_append, ← hbehind, ← horigin,
    components_foldl_behindRoot (head?_join_names hne hn hhead) ht, hcomponents]

include hne hn hhead in
/-- Where the path from a directory on by names leads to something, that is listed, and the listed path leads there. -/
theorem listed_of_locate {s : FileSystem} {place : Place} {node : Node}
    (hl : s.locate (directory.join (Path.ofNames names)) = .ok place) (hnode : s.node? place = some node) :
    s.locate (listedPath directory names) = .ok place ∧ listedPath directory names ∈
      expand s ((listedSegments directory).map exactly ++ [[.anyDepth], [.anyText]]) (origin directory) := by
  obtain ⟨hbehind, horigin⟩ := behindRoot_join_names hne hn directory
  have hslash : ∀ segment ∈ listedSegments directory ++ names, '/' ∉ segment.toList := fun _ hs =>
    slash_notMem_behindRoot (hbehind ▸ hs)
  have hallowed : ∀ front, front ≠ [] → front <+: listedSegments directory ++ names →
      FileTree.refusal? (front.foldl entry (origin directory)) = none := fun front hf hpre =>
    horigin ▸ refusal?_foldl_entry (head?_join_names hne hn hhead) (FileTree.refusal?_of_locate hl) hf (hbehind ▸ hpre)
  have hstart := horigin ▸ locate_origin s (directory.join (Path.ofNames names))
  have hwalk := (walk_behindRoot s _).trans (FileTree.walk_of_locate hl).2
  rw [hbehind] at hwalk
  -- The directory itself is found on the way.
  obtain ⟨home, hhome, hbelow⟩ := FileTree.exists_of_walk_append hwalk
  have hdirectory : s.node? home = some .directory := by
    obtain ⟨name, more, rfl⟩ := List.exists_cons_of_ne_nil hne
    exact FileTree.node?_of_walk_cons hbelow
  have hplace : place = home ++ names := (FileTree.eq_spelled_of_walk hbelow).trans (FileTree.spelled_names home hn)
  have hpre : listedSegments directory <+: listedSegments directory ++ names := List.prefix_append _ _
  obtain ⟨hlocate, hexpand⟩ := expand_of_walk (fun s hs => hslash s (hpre.subset hs)) hstart hhome
    (fun front hf hfront => hallowed front hf (hfront.trans hpre)) [[.anyDepth], [.anyText]]
  have hfound := (expand_of_walk hslash hstart hwalk hallowed []).1
  rw [List.foldl_append] at hfound
  refine ⟨hfound, ?_⟩
  rw [hexpand, mem_expand_everything_iff, FileTree.isDirectory, FileTree.stat_of_locate hlocate hdirectory]
  exact ⟨rfl, home, names, node, hlocate, hne, hplace ▸ FileTree.mem_nodes_of_node? (by simp [hplace, hne]) hnode, rfl⟩

/-- A listed path with the components of the directory and then names is the file with these names. -/
theorem fileAt_names {path : Path} {file : TemplateFile} (hp : path.components = directory.components ++ names.map .name)
    (h : fileAt t directory path = .ok file) : file.path = Path.ofNames names ∧ t.read path = .ok file.content := by
  obtain ⟨rest, hrest, hpath, hread⟩ := fileAt_eq_ok h
  rw [hp, List.append_cancel_left_eq] at hrest
  rw [hpath, ← hrest, List.map_map]
  exact ⟨congrArg Path.ofNames (List.map_id'' (fun _ => rfl) names), hread⟩

include hne hn in
theorem node?_of_read {content : ByteArray} (hread : t.read (directory.join (Path.ofNames names)) = .ok content) :
    t.node? (t.placeOf directory ++ names) = some (.file content) := by
  obtain ⟨place, hplace, hnode⟩ := FileTree.exists_locate_of_read hread
  rwa [FileTree.eq_placeOf_of_locate hplace, FileTree.placeOf_join_ofNames t directory hne hn] at hnode

variable {s : FileSystem} (hliteral : IsLiteral directory.text.toList) {files : List TemplateFile}
  (h : directoryFiles s directory = .ok files)

include hliteral in
/-- What is listed below a directory has its components and then names. -/
theorem exists_names_of_listed {paths : List Path} (h : Glob.list s (patternBelow directory) = .ok paths) {path : Path}
    (hp : path ∈ paths) : ∃ names, names ≠ [] ∧ (∀ name ∈ names, FileTree.IsEntryName name) ∧
      path = listedPath directory names := by
  obtain rfl := Except.ok.inj ((list_patternBelow s hliteral).symm.trans h)
  obtain ⟨-, place, names, node, -, hne, hm, rfl⟩ := mem_expand_everything_iff.1 (mem_expand_exactly hp)
  exact ⟨names, hne, fun name hn => s.wellFormed.named _ hm name (List.mem_append_right _ hn), rfl⟩

include hhead hliteral h in
/-- Every file of a directory has names, under which it lies below the directory. -/
theorem exists_names_of_mem {file : TemplateFile} (hf : file ∈ files) :
    ∃ names, names ≠ [] ∧ (∀ name ∈ names, FileTree.IsEntryName name) ∧ file.path = Path.ofNames names ∧
      s.node? (s.placeOf directory ++ names) = some (.file file.content) := by
  obtain ⟨paths, hpaths, hback, -⟩ := directoryFiles_eq_ok h
  obtain ⟨path, hp, -, hfile⟩ := hback file hf
  obtain ⟨names, hne, hn, rfl⟩ := exists_names_of_listed hliteral hpaths hp
  have hcomponents := components_listedPath hne hn hhead
  obtain ⟨hpath, hread⟩ := fileAt_names hcomponents hfile
  obtain ⟨q, hq, hnode⟩ := FileTree.exists_locate_of_read hread
  have hplace : q = s.placeOf directory ++ names := by
    rw [FileTree.eq_placeOf_of_locate hq, ← FileTree.placeOf_join_ofNames s directory hne hn]
    exact FileTree.placeOf_congr (hcomponents.trans (Path.components_join_ofNames directory hne hn).symm)
  exact ⟨names, hne, hn, hpath, hplace ▸ hnode⟩

include hne hn hhead hliteral h in
/-- What is read below a directory under some names is a file of the directory. -/
theorem mem_of_read {content : ByteArray} (hread : s.read (directory.join (Path.ofNames names)) = .ok content) :
    ⟨Path.ofNames names, content⟩ ∈ files := by
  obtain ⟨paths, hpaths, -, hforth⟩ := directoryFiles_eq_ok h
  obtain rfl := Except.ok.inj ((list_patternBelow s hliteral).symm.trans hpaths)
  obtain ⟨place, hplace, hnode⟩ := FileTree.exists_locate_of_read hread
  obtain ⟨hfound, hlisted⟩ := listed_of_locate hne hn hhead hplace hnode
  have hisFile : s.isFile (listedPath directory names) = true := by
    rw [FileTree.isFile, FileTree.stat_of_locate hfound hnode]
  obtain ⟨file, hfile, hat⟩ := hforth _ hlisted hisFile
  obtain ⟨hpath, hfileRead⟩ := fileAt_names (components_listedPath hne hn hhead) hat
  have hcontent := hfileRead.symm.trans (FileTree.read_of_locate hfound hnode)
  have hsame : file = ⟨Path.ofNames names, content⟩ := by
    cases file
    simp only at hpath hcontent
    rw [hpath, Except.ok.inj hcontent]
  exact hsame ▸ hfile

end Names

/-! ## All templates -/

/-- Whether the directory of a template, if it is one, has a path in which no character has a meaning in patterns. -/
def IsLiteral : Template → Prop
  | .directory path => Glob.IsLiteral path.text.toList
  | .basic | .withReference => True

/-- The files of a template have paths that do not escape. -/
theorem escapes_files {s : FileSystem} {template : Template} (hliteral : template.IsLiteral) {files : List TemplateFile}
    (h : template.files s = .ok files) : ∀ file ∈ files, file.path.escapes = false := by
  cases template with
  | basic =>
    obtain rfl := Except.ok.inj h
    simp only [List.mem_singleton, forall_eq]
    decide
  | withReference =>
    obtain rfl := Except.ok.inj h
    simp only [List.mem_cons, List.not_mem_nil, or_false, forall_eq_or_imp, forall_eq]
    decide
  | directory path => exact escapes_directoryFiles hliteral h

end SkillLint.Template
