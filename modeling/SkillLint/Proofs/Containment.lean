import SkillLint.Check
import SkillLint.Proofs.Check.References
import SkillLint.Proofs.Tree.Place

/-!
# Containment

A path that does not escape stays below the directory that it is taken from. Whether it escapes is told by its components alone:
it is absolute, or on some front of it there are more steps up than names. In a tree, a walk along such a path ends below its
directory (`isPrefix_of_walk`), so a reference that leads to something outside its package is one whose path escapes.
-/

namespace SkillLint

/-! ## Escaping, by components -/

namespace Path

/-- Whether a component is the name of an entry. -/
def Component.isName : Component → Bool
  | .name _ => true
  | _ => false

/-- Whether some components go up more often than down, from a number of levels below a directory. -/
def Climbs (depth : Nat) (components : List Component) : Prop :=
  depth + components.countP Component.isName < components.count .up

section

variable {depth : Nat} {rest : List Component}

@[simp] theorem climbs_here : Climbs depth (.here :: rest) ↔ Climbs depth rest := by
  simp [Climbs, Component.isName]

@[simp] theorem climbs_name {text : String} : Climbs depth (.name text :: rest) ↔ Climbs (depth + 1) rest := by
  rw [Climbs, Climbs, List.countP_cons_of_pos rfl, List.count_cons_of_ne (by simp)]
  omega

@[simp] theorem climbs_up : Climbs (depth + 1) (.up :: rest) ↔ Climbs depth rest := by
  rw [Climbs, Climbs, List.countP_cons_of_neg (by simp [Component.isName]), List.count_cons_self]
  omega

/-- The empty front does not climb, so a front that does has the first component. -/
theorem exists_climbs_cons_iff {c : Component} : (∃ front, front <+: c :: rest ∧ Climbs depth front) ↔
    ∃ front, front <+: rest ∧ Climbs depth (c :: front) := by
  constructor
  · rintro ⟨front, hf, hc⟩
    rcases List.prefix_cons_iff.1 hf with rfl | ⟨more, rfl, hmore⟩
    · exact absurd hc (Nat.not_lt_zero _)
    · exact ⟨more, hmore, hc⟩
  · rintro ⟨front, hf, hc⟩
    exact ⟨c :: front, List.cons_prefix_cons.2 ⟨rfl, hf⟩, hc⟩

end

/-- A walk leaves its directory when it goes to the root, or when a front of it climbs above the directory. -/
theorem leaves_eq_true_iff {depth : Nat} {components : List Component} :
    leaves depth components = true ↔ .root ∈ components ∨ ∃ front, front <+: components ∧ Climbs depth front := by
  induction components generalizing depth with
  | nil => simp [leaves, Climbs]
  | cons c rest ih =>
    rw [exists_climbs_cons_iff]
    cases c with
    | root => simp [leaves]
    | here => simp [leaves, ih]
    | name text => simp [leaves, ih]
    | up =>
      cases depth with
      | zero =>
        have hup : Climbs 0 [.up] := Nat.zero_lt_one
        exact iff_of_true rfl (.inr ⟨[], List.nil_prefix, hup⟩)
      | succ depth => simp [leaves, ih]

/-- Whether a walk along some components leaves its directory, with its depth counted in 32 bits with a sign. -/
def leavesInt32 (depth : Int32) : List Component → Bool
  | [] => false
  | .root :: _ => true
  | .here :: rest => leavesInt32 depth rest
  | .up :: rest => depth - 1 < 0 || leavesInt32 (depth - 1) rest
  | .name _ :: rest => leavesInt32 (depth + 1) rest

/-- Counting the depth in 32 bits is counting it where a walk cannot come deeper than 32 bits can count. -/
theorem leavesInt32_eq {depth : Nat} {components : List Component}
    (h : ((depth + components.length : Nat) : Int) ≤ Int32.maxValue.toInt) :
    leavesInt32 (Int32.ofNat depth) components = leaves depth components := by
  have hmax : Int32.maxValue.toInt = 2147483647 := rfl
  induction components generalizing depth with
  | nil => rfl
  | cons c rest ih =>
    rw [List.length_cons] at h
    cases c with
    | root => rfl
    | here => exact ih (by omega)
    | name text =>
      have hdeeper : leavesInt32 (Int32.ofNat (depth + 1)) rest = leaves (depth + 1) rest := ih (by omega)
      rwa [Int32.ofNat_add] at hdeeper
    | up =>
      cases depth with
      | zero => rfl
      | succ depth =>
        have hback : Int32.ofNat (depth + 1) - 1 = Int32.ofNat depth := by
          rw [Int32.ofNat_add]
          exact Int32.add_sub_cancel _ _
        have hbelow : ¬Int32.ofNat depth < 0 := by
          rw [Int32.lt_iff_toInt_lt, Int32.toInt_ofNat_of_lt (by omega), Int32.toInt_zero]
          omega
        rw [leavesInt32, hback, decide_eq_false hbelow, ih (by omega)]
        rfl

/-- A front of a walk that does not leave its directory does not leave it. -/
theorem leaves_of_isPrefix {depth : Nat} {front components : List Component} (hp : front <+: components)
    (h : leaves depth components = false) : leaves depth front = false := by
  rw [Bool.eq_false_iff, Ne, leaves_eq_true_iff] at h ⊢
  rintro (hroot | ⟨more, hmore, hclimbs⟩)
  · exact h (.inl (hp.subset hroot))
  · exact h (.inr ⟨more, hmore.trans hp, hclimbs⟩)

theorem escapes_eq_true_iff {p : Path} : p.escapes = true ↔
    p.isAbsolute = true ∨ ∃ front, front <+: p.components ∧ front.countP Component.isName < front.count .up := by
  rw [escapes, leaves_eq_true_iff, root_mem_components_iff]
  simp only [Climbs, Nat.zero_add]

/-- A path that does not escape is relative, and the walk along its segments does not leave its directory. -/
theorem leaves_of_not_escapes {p : Path} (h : p.escapes = false) :
    p.isAbsolute = false ∧ leaves 0 (p.segments.filterMap Component.ofSegment?) = false := by
  have habs : p.isAbsolute = false := by
    rw [Bool.eq_false_iff]
    intro ha
    rw [escapes_eq_true_iff.2 (.inl ha)] at h
    exact absurd h (by simp)
  refine ⟨habs, ?_⟩
  unfold escapes components at h
  simp only [habs, Bool.false_eq_true, if_false] at h
  split at h
  · exact h
  · exact h

end Path

/-! ## Walks below a directory -/

namespace FileTree

variable {t : FileTree}

/-- A walk that does not leave its directory ends below it. -/
theorem isPrefix_of_walk {home place : Place} {segments : List String}
    (hl : Path.leaves 0 (segments.filterMap Path.Component.ofSegment?) = false) (hw : t.walk home segments = .ok place) :
    home <+: place := by
  rw [eq_spelled_of_walk hw]
  exact isPrefix_spelled_of_leaves hl

/-- A path that does not escape leads to a place below the directory, wherever it leads somewhere. -/
theorem isPrefix_of_not_escapes {root p : Path} {home place : Place} (he : p.escapes = false) (hr : t.locate root = .ok home)
    (hl : t.locate (root.join p) = .ok place) : home <+: place := by
  obtain ⟨habs, hleaves⟩ := Path.leaves_of_not_escapes he
  exact isPrefix_of_walk hleaves (walk_of_locate_join habs hr hl)

end FileTree

/-! ## References out of the package -/

/-- A reference that is not external draws the finding about leaving the package when its file is at a place outside it. -/
theorem Check.outside_mem_referenceFindings {t : FileTree} {root : Path} {home place : Place} (hr : t.locate root = .ok home)
    {c : Context} {r : Markdown.Reference} (hm : r ∈ Markdown.references c.body) (hx : isExternal r.target = false)
    (hl : t.locate (root.join ⟨filePart r.target⟩) = .ok place) (hout : ¬home <+: place) :
    Rule.referencesOutsidePackage.onLine (c.documentLine r.line)
      ("Reference '" ++ r.target ++ "' points outside the package; bundle the file instead") ∈ referenceFindings c := by
  have hescapes : Path.escapes ⟨filePart r.target⟩ = true := by
    cases he : Path.escapes ⟨filePart r.target⟩ with
    | true => rfl
    | false => exact absurd (FileTree.isPrefix_of_not_escapes he hr hl) hout
  have hfile : filePart r.target ≠ "" := by
    intro e
    rw [e] at hescapes
    exact absurd hescapes (by decide)
  exact List.mem_flatMap.2 ⟨r, hm, mem_checkReference_iff.2 ⟨hx, hfile, .inl ⟨hescapes, rfl⟩⟩⟩

/-- From a directory, a path that does not escape and leads to something leads to the directory or to a place below it; a path
escapes exactly when it is absolute or has, on some front of its components, more steps up than names. The depth may be counted
in 32 bits for a path with no more components than these can count. So a reference that is not external, and whose file is something
outside the directory, draws the finding about leaving the package. -/
theorem Package.containment (t : FileTree) (root : Path) (h : t.isDirectory root = true) :
    ∃ home, t.locate root = .ok home ∧
      (∀ p : Path, p.escapes = false → t.contains (root.join p) = true →
        ∃ place, t.locate (root.join p) = .ok place ∧ home <+: place) ∧
      (∀ p : Path, p.escapes = true ↔
        p.isAbsolute = true ∨ ∃ front, front <+: p.components ∧ front.countP Path.Component.isName < front.count .up) ∧
      (∀ p : Path, (p.components.length : Int) ≤ Int32.maxValue.toInt → Path.leavesInt32 0 p.components = p.escapes) ∧
      ∀ (c : Context), ∀ r ∈ Markdown.references c.body, Check.isExternal r.target = false →
        t.contains (root.join ⟨Check.filePart r.target⟩) = true →
        (∀ place, t.locate (root.join ⟨Check.filePart r.target⟩) = .ok place → ¬home <+: place) →
          Rule.referencesOutsidePackage.onLine (c.documentLine r.line)
              ("Reference '" ++ r.target ++ "' points outside the package; bundle the file instead") ∈
            Check.run c .references := by
  obtain ⟨home, hr⟩ := FileTree.exists_locate_of_contains (FileTree.contains_of_isDirectory h)
  refine ⟨home, hr, fun p he hc => ?_, fun p => Path.escapes_eq_true_iff, fun p hp => ?_, fun c r hm hx hc hout => ?_⟩
  · obtain ⟨place, hl⟩ := FileTree.exists_locate_of_contains hc
    exact ⟨place, hl, FileTree.isPrefix_of_not_escapes he hr hl⟩
  · have hcount : ((0 + p.components.length : Nat) : Int) ≤ Int32.maxValue.toInt := by rwa [Nat.zero_add]
    exact Path.leavesInt32_eq hcount
  · obtain ⟨place, hl⟩ := FileTree.exists_locate_of_contains hc
    exact Check.outside_mem_referenceFindings hr hm hx hl (hout place hl)

/-- A path that goes down and up again leads to a file of the package; a link that goes up once more leads to a file beside the
package and draws the finding. -/
theorem Package.containment_shared :
    let t : FileTree :=
      ⟨[(["pkg"], .directory), (["pkg", "docs"], .directory), (["pkg", "docs", "a.md"], .file ByteArray.empty),
        (["shared.md"], .file ByteArray.empty)], []⟩
    let c : Context := ⟨⟨none, none, none⟩, 5, "See [shared](docs/../../shared.md).", {}, fun _ => true⟩
    t.isDirectory ⟨"pkg"⟩ = true ∧
      (∃ place, t.locate (Path.join ⟨"pkg"⟩ ⟨"./docs/..//docs/a.md"⟩) = .ok place ∧ ["pkg"] <+: place) ∧
      Rule.referencesOutsidePackage.onLine 5
        "Reference 'docs/../../shared.md' points outside the package; bundle the file instead" ∈ Check.run c .references := by
  intro t c
  have hroot : t.isDirectory ⟨"pkg"⟩ = true := by decide +kernel
  obtain ⟨home, hhome, hbelow, -, -, houtside⟩ := containment t ⟨"pkg"⟩ hroot
  obtain rfl : home = ["pkg"] := Except.ok.inj (hhome.symm.trans rfl)
  refine ⟨hroot, hbelow ⟨"./docs/..//docs/a.md"⟩ (by decide +kernel) (by decide +kernel), ?_⟩
  have hshared : t.locate (Path.join ⟨"pkg"⟩ ⟨Check.filePart "docs/../../shared.md"⟩) = .ok ["shared.md"] := rfl
  refine houtside c ⟨"docs/../../shared.md", 0⟩ (by decide +kernel) (by decide +kernel) (by decide +kernel) ?_
  rintro place hplace
  obtain rfl := Except.ok.inj (hshared.symm.trans hplace)
  decide

/-- An external target is not taken for a path, even if it is one that leads to a file outside the package: from a directory
named like the scheme and up again. -/
theorem Package.containment_external :
    let t : FileTree :=
      ⟨[(["pkg"], .directory), (["pkg", "tel:"], .directory), (["shared.md"], .file ByteArray.empty)], []⟩
    let body := "[x](tel:/../../shared.md)"
    t.isDirectory ⟨"pkg"⟩ = true ∧ t.locate ⟨"pkg"⟩ = .ok ["pkg"] ∧
      Markdown.references body = [⟨"tel:/../../shared.md", 0⟩] ∧
      t.contains (Path.join ⟨"pkg"⟩ ⟨Check.filePart "tel:/../../shared.md"⟩) = true ∧
      t.locate (Path.join ⟨"pkg"⟩ ⟨Check.filePart "tel:/../../shared.md"⟩) = .ok ["shared.md"] ∧
      ¬["pkg"] <+: ["shared.md"] ∧ ∀ c : Context, c.body = body → Check.run c .references = [] := by
  intro t body
  have hrefs : Markdown.references body = [⟨"tel:/../../shared.md", 0⟩] := by decide +kernel
  refine ⟨by decide +kernel, rfl, hrefs, by decide +kernel, rfl, by decide, fun c hc => ?_⟩
  have hexternal : Check.isExternal "tel:/../../shared.md" = true := by decide +kernel
  rw [Check.run, Check.referenceFindings, hc, hrefs, List.flatMap_singleton, Check.checkReference]
  simp only [hexternal, Bool.true_or, if_true]

end SkillLint
