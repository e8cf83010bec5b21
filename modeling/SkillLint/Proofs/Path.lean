import Mathlib.Data.List.DropRight
import SkillLint.Path
import SkillLint.Proofs.Text.Join

/-!
# The segments of a path

A path whose text ends in something other than a slash ends in a name: its last segment is not empty, and the path of an entry
of the directory it leads to has one segment more. The components of a path are what its segments stand for, so that they are
those of both paths where a relative path is joined to another one. A path above another one has a front of its segments, unless
it is the root.
-/

namespace SkillLint.Path

/-- Whether the text of a path ends in a character other than a slash. -/
def EndsInName (p : Path) : Prop :=
  ∃ c, p.text.toList.getLast? = some c ∧ c ≠ '/'

/-- The texts between the slashes of a text that does not end in a slash, nor is empty, end in one that is not empty. -/
theorem getLast_splitOn_ne_nil {s : List Char} {c : Char} (hl : s.getLast? = some c) (hc : c ≠ '/') :
    ∃ front last, s.splitOn '/' = front ++ [last] ∧ last ≠ [] := by
  obtain ⟨init, rfl⟩ := List.getLast?_eq_some_iff.1 hl
  clear hl
  induction init with
  | nil => exact ⟨[], [c], List.splitOn_eq_singleton (by simpa using hc.symm), by simp⟩
  | cons d init ih =>
    obtain ⟨front, last, hs, hne⟩ := ih
    rw [List.cons_append, List.splitOn_cons_eq_if_modifyHead, hs]
    split
    · exact ⟨[] :: front, last, rfl, hne⟩
    · cases front with
      | nil => exact ⟨[], d :: last, rfl, by simp⟩
      | cons first front => exact ⟨(d :: first) :: front, last, rfl, hne⟩

/-- A path that has a text ends in a name when its text does not end in a slash. -/
theorem endsInName_of_text_ne {p : Path} (hne : p.text ≠ "") (hslash : p.text.toList.getLast? ≠ some '/') : p.EndsInName := by
  cases hl : p.text.toList.getLast? with
  | none => exact absurd (String.toList_eq_nil_iff.1 (List.getLast?_eq_none_iff.1 hl)) hne
  | some c => exact ⟨c, hl, fun e => hslash (by rw [hl, e])⟩

theorem isAbsolute_name {name : String} (hn : '/' ∉ name.toList) : Path.isAbsolute ⟨name⟩ = false := by
  rw [Bool.eq_false_iff]
  intro ha
  exact hn (List.mem_of_mem_head? (beq_iff_eq.1 ha))

theorem segments_name {name : String} (hn : '/' ∉ name.toList) : Path.segments ⟨name⟩ = [name] := by
  rw [segments, List.splitOn_eq_singleton hn, List.map_singleton, String.ofList_toList]

theorem segments_ne_nil (p : Path) : p.segments ≠ [] := by
  simp [segments, List.splitOn_ne_nil]

theorem toList_text (p : Path) : p.text.toList = ['/'].intercalate (p.segments.map String.toList) := by
  rw [segments, List.map_map]
  simp

theorem text_eq_of_segments {p : Path} (h : p.segments = [""]) : p.text = "" := by
  rw [← String.toList_eq_nil_iff, toList_text, h]
  rfl

namespace EndsInName

variable {p : Path} (h : p.EndsInName)

include h in
theorem text_ne : p.text ≠ "" := by
  rintro e
  obtain ⟨c, hl, -⟩ := h
  simp [e] at hl

include h in
/-- The last segment of a path that ends in a name is not empty. -/
theorem exists_segments : ∃ front name, p.segments = front ++ [name] ∧ name ≠ "" := by
  obtain ⟨c, hl, hc⟩ := h
  obtain ⟨front, last, hs, hne⟩ := getLast_splitOn_ne_nil hl hc
  refine ⟨front.map String.ofList, String.ofList last, by rw [segments, hs, List.map_append, List.map_singleton], fun e => ?_⟩
  have := congrArg String.toList e
  rw [String.toList_ofList] at this
  exact hne this

variable {name : String} (hn : '/' ∉ name.toList)

include h in
/-- A relative path goes on behind a slash. -/
theorem text_join {q : Path} (hq : q.isAbsolute = false) : (p.join q).text = p.text ++ "/" ++ q.text := by
  have hlast : ¬(p.text = "" ∨ p.text.toList.getLast? = some '/') := by
    rintro (e | e)
    · exact h.text_ne e
    · obtain ⟨c, hl, hc⟩ := h
      exact hc (Option.some.inj (hl.symm.trans e))
  rw [join, hq, if_neg Bool.false_ne_true, if_neg hlast]

include h in
theorem segments_join {q : Path} (hq : q.isAbsolute = false) : (p.join q).segments = p.segments ++ q.segments := by
  have ht : (p.text ++ "/" ++ q.text).toList = p.text.toList ++ '/' :: q.text.toList := by simp
  rw [segments, h.text_join hq, ht, List.splitOn_append_cons_self, List.map_append, segments, segments]

include h hn in
theorem segments_child : (p.child name).segments = p.segments ++ [name] := by
  rw [child, h.segments_join (isAbsolute_name hn), segments_name hn]

include hn in
/-- The path of an entry ends in a name if the entry has one. -/
theorem of_child (q : Path) (hne : name ≠ "") : (q.child name).EndsInName := by
  have hl : ∃ c, name.toList.getLast? = some c := by
    cases hg : name.toList.getLast? with
    | none => exact absurd (String.toList_eq_nil_iff.1 (List.getLast?_eq_none_iff.1 hg)) hne
    | some c => exact ⟨c, rfl⟩
  obtain ⟨c, hl⟩ := hl
  have hc : c ≠ '/' := by
    rintro rfl
    exact hn (List.mem_of_getLast? hl)
  refine ⟨c, ?_, hc⟩
  unfold child join
  split
  · exact hl
  · split
    · simp [hl]
    · simp [List.getLast?_cons, hl]

end EndsInName

/-! ## Joined paths -/

/-- Joining a relative path keeps the start of a path that has a text. -/
theorem isAbsolute_join {root p : Path} (hr : root.text ≠ "") (hp : p.isAbsolute = false) :
    (root.join p).isAbsolute = root.isAbsolute := by
  obtain ⟨c, rest, hc⟩ := List.exists_cons_of_ne_nil fun e => hr (String.toList_eq_nil_iff.1 e)
  unfold join
  simp only [hp, Bool.false_eq_true, if_false]
  split
  · simp [isAbsolute, hc]
  · simp [isAbsolute, hc]

/-- The segments of a path without an empty one behind a final slash. -/
def frontSegments (p : Path) : List String :=
  if p.text = "" ∨ p.text.toList.getLast? = some '/' then p.segments.dropLast else p.segments

theorem segments_of_slash {p : Path} {init : List Char} (h : p.text.toList = init ++ ['/']) :
    p.segments = (init.splitOn '/').map String.ofList ++ [""] := by
  rw [segments, h, List.splitOn_append_cons_self, List.map_append]
  rfl

/-- The segments of a path are those in front, and an empty one where a slash ends the path. -/
theorem segments_eq_front (p : Path) : p.segments = p.frontSegments ∨ p.segments = p.frontSegments ++ [""] := by
  unfold frontSegments
  split
  · rename_i h
    rcases h with h | h
    · obtain rfl : p = ⟨""⟩ := congrArg Path.mk h
      exact .inr rfl
    · obtain ⟨init, hinit⟩ := List.getLast?_eq_some_iff.1 h
      exact .inr (by rw [segments_of_slash hinit, List.dropLast_concat])
  · exact .inl rfl

theorem frontSegments_ne_nil {p : Path} (ht : p.text ≠ "") : p.frontSegments ≠ [] := by
  intro e
  rcases segments_eq_front p with h | h
  · exact segments_ne_nil p (h.trans e)
  · exact ht (text_eq_of_segments (by rw [h, e, List.nil_append]))

/-- Joining a relative path adds its segments to those in front. -/
theorem segments_join (root : Path) {p : Path} (hp : p.isAbsolute = false) :
    (root.join p).segments = root.frontSegments ++ p.segments := by
  unfold join frontSegments
  simp only [hp, Bool.false_eq_true, if_false]
  split
  · rename_i h
    rcases h with h | h
    · obtain rfl : root = ⟨""⟩ := congrArg Path.mk h
      rw [String.empty_append]
      rfl
    · obtain ⟨init, hinit⟩ := List.getLast?_eq_some_iff.1 h
      rw [segments_of_slash hinit, List.dropLast_concat, segments, String.toList_append, hinit, List.append_assoc,
        List.singleton_append, List.splitOn_append_cons_self, List.map_append, segments]
  · have ht : (root.text ++ "/" ++ p.text).toList = root.text.toList ++ '/' :: p.text.toList := by simp
    rw [segments, ht, List.splitOn_append_cons_self, List.map_append, segments, segments]

/-! ## Paths and their segments -/

/-- A segment consists of characters of the path, and has no slash in it. -/
theorem mem_text_of_mem_segments {p : Path} {segment : String} (h : segment ∈ p.segments) :
    ∀ c ∈ segment.toList, c ∈ p.text.toList ∧ c ≠ '/' := by
  obtain ⟨piece, hpiece, rfl⟩ := List.mem_map.1 h
  rw [String.toList_ofList]
  intro c hc
  obtain ⟨hm, hne⟩ := Text.mem_splitOnP hpiece c hc
  exact ⟨hm, by simpa using hne⟩

theorem slash_notMem_of_mem_segments {p : Path} {segment : String} (h : segment ∈ p.segments) : '/' ∉ segment.toList :=
  fun hm => (mem_text_of_mem_segments h '/' hm).2 rfl

/-- Names are the segments of the path that they make up. -/
theorem segments_ofNames {names : List String} (hne : names ≠ []) (h : ∀ name ∈ names, '/' ∉ name.toList) :
    (ofNames names).segments = names := by
  have hsplit : (['/'].intercalate (names.map String.toList)).splitOn '/' = names.map String.toList := by
    refine List.splitOn_intercalate '/' (fun l hl => ?_) (by simpa using hne)
    obtain ⟨name, hname, rfl⟩ := List.mem_map.1 hl
    exact h name hname
  have htext : (ofNames names).text.toList = ['/'].intercalate (names.map String.toList) := String.toList_intercalate
  rw [segments, htext, hsplit, List.map_map]
  simp

/-- A path starts at the root when its first segment is empty and has others behind it. -/
theorem isAbsolute_iff {p : Path} : p.isAbsolute = true ↔ ∃ rest, p.segments = "" :: rest ∧ rest ≠ [] := by
  rw [isAbsolute, beq_iff_eq, segments]
  cases p.text.toList with
  | nil => simp
  | cons c cs =>
    obtain ⟨first, more, hs⟩ := List.exists_cons_of_ne_nil (List.splitOn_ne_nil '/' cs)
    rw [List.splitOn_cons_eq_if_modifyHead, hs]
    by_cases hc : c = '/'
    · simp [hc]
    · simp [hc]

/-- The text of a path is its first segment and the others behind slashes. -/
theorem toList_text_of_segments {p : Path} {first : String} {rest : List String} (h : p.segments = first :: rest) :
    p.text.toList = first.toList ++ rest.flatMap fun segment => '/' :: segment.toList := by
  rw [toList_text, h]
  clear h
  induction rest generalizing first with
  | nil => simp
  | cons segment rest ih =>
    rw [List.map_cons, List.intercalate_cons_of_ne_nil (by simp), ih, List.flatMap_cons]
    simp

/-- A path whose segments are a front of those of another one has a front of its text. -/
theorem text_isPrefix_of_segments {p q : Path} (h : p.segments <+: q.segments) : p.text.toList <+: q.text.toList := by
  obtain ⟨more, hmore⟩ := h
  obtain ⟨first, rest, hs⟩ := List.exists_cons_of_ne_nil (segments_ne_nil p)
  rw [hs, List.cons_append] at hmore
  rw [toList_text_of_segments hs, toList_text_of_segments hmore.symm, List.flatMap_append, ← List.append_assoc]
  exact List.prefix_append _ _

/-! ## Components -/

/-- A relative path adds the components that its segments stand for. -/
theorem components_join {root p : Path} (hr : root.text ≠ "") (hp : p.isAbsolute = false) :
    (root.join p).components = root.components ++ p.segments.filterMap Component.ofSegment? := by
  have hsegments := segments_join root hp
  have hhead : (root.join p).segments.head? = root.segments.head? := by
    obtain ⟨first, rest, hfront⟩ := List.exists_cons_of_ne_nil (frontSegments_ne_nil hr)
    rcases segments_eq_front root with h | h <;> simp [hsegments, h, hfront]
  have hfront : root.segments.filterMap Component.ofSegment? = root.frontSegments.filterMap Component.ofSegment? := by
    rcases segments_eq_front root with h | h
    · rw [h]
    · simp [h, Component.ofSegment?]
  unfold components
  simp only
  rw [isAbsolute_join hr hp, hhead, hfront, hsegments, List.filterMap_append, List.append_assoc]

/-- A segment alone, unless it is a dot, has no component but the one that it stands for. -/
theorem components_segment {segment : String} (hs : '/' ∉ segment.toList) (hdot : segment ≠ ".") :
    Path.components ⟨segment⟩ = [segment].filterMap Component.ofSegment? := by
  unfold components
  simp only
  simp [isAbsolute_name hs, segments_name hs, hdot]

theorem ne_of_mem_filterMap {segments : List String} {c : Component} (h : c ∈ segments.filterMap Component.ofSegment?) :
    c ≠ .root ∧ c ≠ .here := by
  obtain ⟨segment, -, hs⟩ := List.mem_filterMap.1 h
  unfold Component.ofSegment? at hs
  split at hs
  · exact absurd hs (by simp)
  · split at hs <;> rw [← Option.some.inj hs] <;> simp

/-- As many components lead up as there are segments of two dots. -/
theorem count_up_components (p : Path) : p.components.count .up = p.segments.count ".." := by
  have hsegments : ∀ segments : List String, (segments.filterMap Component.ofSegment?).count .up = segments.count ".." := by
    intro segments
    induction segments with
    | nil => rfl
    | cons segment rest ih =>
      rw [List.filterMap_cons, List.count_cons, ← ih]
      unfold Component.ofSegment?
      by_cases hidle : segment = "" ∨ segment = "."
      · rcases hidle with rfl | rfl <;> simp
      · by_cases hup : segment = ".."
        · simp [hup]
        · simp [hidle, hup]
  unfold components
  simp only
  rw [List.count_append, hsegments]
  split
  · simp
  · split <;> simp

/-- The root is a component of the absolute paths, once. -/
theorem count_root_components (p : Path) : p.components.count .root = if p.isAbsolute then 1 else 0 := by
  have hsegments : .root ∉ p.segments.filterMap Component.ofSegment? := fun h => (ne_of_mem_filterMap h).1 rfl
  unfold components
  simp only
  rw [List.count_append, List.count_eq_zero.2 hsegments]
  split
  · rfl
  · split <;> rfl

/-- The root is a component of the absolute paths. -/
theorem root_mem_components_iff {p : Path} : .root ∈ p.components ↔ p.isAbsolute = true := by
  rw [← List.count_pos_iff, count_root_components]
  cases p.isAbsolute <;> simp

/-- A component that is a name stands for a segment. -/
theorem mem_segments_of_name_mem {p : Path} {name : String} (h : .name name ∈ p.components) :
    name ∈ p.segments ∧ name ≠ "" ∧ name ≠ "." ∧ name ≠ ".." := by
  have hm : .name name ∈ p.segments.filterMap Component.ofSegment? := by
    unfold components at h
    rcases List.mem_append.1 h with h | h
    · split at h
      · exact absurd h (by simp)
      · split at h <;> exact absurd h (by simp)
    · exact h
  obtain ⟨segment, hsegment, hs⟩ := List.mem_filterMap.1 hm
  unfold Component.ofSegment? at hs
  split at hs
  · exact absurd hs (by simp)
  · rename_i hidle
    split at hs
    · exact absurd (Option.some.inj hs) (by simp)
    · rename_i hup
      obtain rfl : segment = name := Component.name.inj (Option.some.inj hs)
      exact ⟨hsegment, (not_or.1 hidle).1, (not_or.1 hidle).2, hup⟩

/-- A path of names alone is relative, and its segments stand for the names. -/
theorem segments_of_components {p : Path} {names : List String} (h : p.components = names.map .name) :
    p.isAbsolute = false ∧ p.segments.filterMap Component.ofSegment? = names.map .name := by
  unfold components at h
  simp only at h
  split at h
  · cases names <;> simp at h
  · rename_i habs
    split at h
    · cases names <;> simp at h
    · exact ⟨Bool.not_eq_true _ ▸ habs, h⟩

/-- A path that stays where it starts is relative, and its segments stand for nothing. -/
theorem segments_of_here {p : Path} (h : p.components = [.here]) :
    p.isAbsolute = false ∧ p.segments.filterMap Component.ofSegment? = [] := by
  unfold components at h
  simp only at h
  split at h
  · exact absurd (List.head_eq_of_cons_eq h) (by simp)
  · rename_i habs
    refine ⟨Bool.not_eq_true _ ▸ habs, ?_⟩
    split at h
    · exact (List.cons.inj h).2
    · rw [List.nil_append] at h
      exact absurd rfl (ne_of_mem_filterMap (h ▸ List.mem_singleton_self _)).2

/-- A path that does not start with a dot, though it has a text and is relative, starts with a segment of its own. -/
theorem exists_segments_of_head? {p : Path} (ht : p.text ≠ "") (habs : p.isAbsolute = false)
    (hhead : p.components.head? ≠ some .here) : ∃ first rest, p.segments = first :: rest ∧ first ≠ "" ∧ first ≠ "." := by
  obtain ⟨first, rest, hs⟩ := List.exists_cons_of_ne_nil (segments_ne_nil p)
  refine ⟨first, rest, hs, ?_, ?_⟩
  · rintro rfl
    by_cases hrest : rest = []
    · exact ht (text_eq_of_segments (hrest ▸ hs))
    · rw [isAbsolute_iff.2 ⟨rest, hs, hrest⟩] at habs
      exact absurd habs (by simp)
  · rintro rfl
    unfold components at hhead
    simp [habs, hs] at hhead

/-- A path that has a text has components. -/
theorem components_ne_nil {p : Path} (ht : p.text ≠ "") : p.components ≠ [] := by
  by_cases hhead : p.components.head? = some .here
  · rintro e
    simp [e] at hhead
  · cases habs : p.isAbsolute with
    | true =>
      unfold components
      simp [habs]
    | false =>
      obtain ⟨first, rest, hs, hempty, hdot⟩ := exists_segments_of_head? ht habs hhead
      unfold components
      by_cases hup : first = ".." <;> simp [habs, hs, Component.ofSegment?, hempty, hdot, hup]

/-- Names make up a relative path of names alone. -/
theorem components_ofNames {names : List String} (hne : names ≠ [])
    (h : ∀ name ∈ names, name ≠ "" ∧ name ≠ "." ∧ name ≠ ".." ∧ '/' ∉ name.toList) :
    (ofNames names).components = names.map .name ∧ (ofNames names).isAbsolute = false := by
  have hsegments := segments_ofNames hne fun name hn => (h name hn).2.2.2
  have hnames : names.filterMap Component.ofSegment? = names.map .name := by
    rw [← List.filterMap_eq_map]
    refine List.filterMap_congr fun name hn => ?_
    obtain ⟨h1, h2, h3, -⟩ := h name hn
    simp [Component.ofSegment?, h1, h2, h3]
  obtain ⟨name, more, rfl⟩ := List.exists_cons_of_ne_nil hne
  obtain ⟨h1, h2, -⟩ := h name List.mem_cons_self
  have habs : (ofNames (name :: more)).isAbsolute = false := by
    rw [Bool.eq_false_iff]
    intro ha
    obtain ⟨rest, hrest, -⟩ := isAbsolute_iff.1 ha
    exact h1 (List.head_eq_of_cons_eq (hsegments.symm.trans hrest))
  refine ⟨?_, habs⟩
  unfold components
  simp only
  rw [habs, hsegments, hnames]
  simp [h2]

/-- Names that go on from a path are its last components. -/
theorem components_join_ofNames (root : Path) {names : List String} (hne : names ≠ [])
    (h : ∀ name ∈ names, name ≠ "" ∧ name ≠ "." ∧ name ≠ ".." ∧ '/' ∉ name.toList) :
    (root.join (ofNames names)).components = root.components ++ names.map .name := by
  obtain ⟨hnames, habs⟩ := components_ofNames hne h
  by_cases htext : root.text = ""
  · obtain rfl : root = ⟨""⟩ := congrArg Path.mk htext
    have hjoin : Path.join ⟨""⟩ (ofNames names) = ofNames names := by simp [join, habs]
    rw [hjoin, hnames]
    rfl
  · rw [components_join htext habs, (segments_of_components hnames).2]

/-! ## Paths above -/

theorem dropIdle_isPrefix (segments : List String) : dropIdle segments <+: segments :=
  List.rdropWhile_prefix _ segments

/-- A path above another one is the root, or its segments are a front of those of the other one. -/
theorem segments_parent? {p above : Path} (h : p.parent? = some above) (hne : above.text ≠ "") :
    above.isAbsolute = p.isAbsolute ∧ (above = ⟨"/"⟩ ∨ above.segments <+: p.segments) := by
  unfold parent? at h
  split at h
  · exact absurd h (by simp)
  · rename_i first rest hp
    have habs : p.isAbsolute = true ↔ first = "" ∧ rest ≠ [] := by
      rw [isAbsolute_iff, hp]
      simp [and_comm]
    split at h
    · split at h
      · exact absurd h (by simp)
      · rw [← Option.some.inj h] at hne
        exact absurd rfl hne
    · rename_i hkept
      have hrest : rest ≠ [] := fun e => hkept (by rw [e]; rfl)
      simp only at h
      split at h
      · rename_i hroot
        rw [← Option.some.inj h]
        exact ⟨(habs.2 ⟨hroot.2, hrest⟩).symm, .inl rfl⟩
      · rename_i hroot
        obtain ⟨more, hmore⟩ : ∃ more, more = dropIdle (dropIdle rest).dropLast := ⟨_, rfl⟩
        rw [← hmore] at h hroot
        have hpre : first :: more <+: p.segments := by
          have hlast := List.dropLast_prefix (dropIdle rest)
          rw [hp, List.cons_prefix_cons, hmore]
          exact ⟨rfl, (dropIdle_isPrefix _).trans (hlast.trans (dropIdle_isPrefix rest))⟩
        have hsegments : above.segments = first :: more := by
          rw [← Option.some.inj h]
          exact segments_ofNames (by simp) fun name hn => slash_notMem_of_mem_segments (hpre.subset hn)
        refine ⟨Bool.eq_iff_iff.2 ?_, .inr (hsegments ▸ hpre)⟩
        rw [habs, isAbsolute_iff, hsegments]
        constructor
        · rintro ⟨behind, e, -⟩
          exact ⟨(List.cons.inj e).1, hrest⟩
        · rintro ⟨rfl, -⟩
          exact ⟨more, rfl, fun e => hroot ⟨e, rfl⟩⟩

/-! ## The order of paths -/

instance : Std.TransOrd Component :=
  inferInstanceAs (Std.TransCmp (compareLex (compareOn Component.rank) (compareOn Component.text)))

instance : Std.TransOrd Path :=
  inferInstanceAs (Std.TransCmp (compareOn components))

theorem isLE_compare_total (p q : Path) : ((compare p q).isLE || (compare q p).isLE) = true := by
  rw [Std.OrientedOrd.eq_swap (a := p)]
  cases compare q p <;> rfl

end SkillLint.Path
