import SkillLint.Text.Lines
import SkillLint.Yaml.Error

/-!
# Configuration

A configuration sets the size limits of the checks, names the rules whose warnings are not wanted, and lists tools that
are known besides the built-in ones. The limits of the name and the description may be tightened but not widened, no
limit may be zero, and every disabled rule must have a name.
-/

namespace SkillLint

/-- The greatest number of characters that a host accepts in a name. -/
def nameLengthLimit : Nat := 64

/-- The greatest number of characters that a host accepts in a description. -/
def descriptionLengthLimit : Nat := 1024

/-- The size limits that the checks apply. -/
structure Thresholds where
  /-- The greatest number of characters in a name. -/
  maxNameLength : Nat := nameLengthLimit
  /-- The greatest number of characters in a description. -/
  maxDescriptionLength : Nat := descriptionLengthLimit
  /-- The number of body lines above which the body should be split. -/
  maxBodyLines : Nat := 500
deriving DecidableEq, Repr, Inhabited

/-- The settings of a validation run. -/
structure Config where
  thresholds : Thresholds := {}
  /-- The codes and families of the rules whose warnings are dropped. -/
  disable : List String := []
  /-- The names of tools that are known besides the built-in ones. -/
  extraTools : List String := []
deriving DecidableEq, Repr, Inhabited

/-- Why the content of a configuration file is not usable. -/
inductive ConfigFault where
  /-- The file has fewer than two delimiter lines. -/
  | noFrontmatter
  /-- The frontmatter is not well-formed, or a setting has the wrong type. -/
  | malformed (error : Yaml.Error)
  /-- The limit with this key is zero. -/
  | zeroThreshold (key : String)
  /-- The limit with this key is greater than a host allows. -/
  | aboveLimit (key : String) (value limit : Nat)
  /-- A disabled rule has a blank name. -/
  | blankRule (rule : String)
deriving DecidableEq, Repr

/-- A fault as it is told to the user. -/
def ConfigFault.message : ConfigFault → String
  | .noFrontmatter => "Failed to extract frontmatter from config"
  | .malformed _ => "Failed to parse config frontmatter"
  | .zeroThreshold key => "lint.thresholds." ++ key ++ " must be greater than 0"
  | .aboveLimit key value limit =>
    "lint.thresholds." ++ key ++ " is " ++ toString value ++ "; it may not exceed " ++ toString limit
  | .blankRule rule => "lint.disable contains an empty rule name: '" ++ rule ++ "'"

/-- A fault as it is told together with what is wrong in the frontmatter. -/
def ConfigFault.explanation (fault : ConfigFault) : String :=
  match fault with
  | .malformed error => fault.message ++ ": " ++ error.message
  | _ => fault.message

namespace Thresholds

/-- The limits with their keys, in the order in which they are examined. -/
def keyed (t : Thresholds) : List (String × Nat) :=
  [("max_name_length", t.maxNameLength), ("max_description_length", t.maxDescriptionLength),
    ("max_body_lines", t.maxBodyLines)]

/-- The limits that have an upper bound, with their keys and bounds. -/
def bounded (t : Thresholds) : List (String × Nat × Nat) :=
  [("max_name_length", t.maxNameLength, nameLengthLimit),
    ("max_description_length", t.maxDescriptionLength, descriptionLengthLimit)]

/-- The first fault of the limits: a zero limit comes before one that is too great. -/
def fault? (t : Thresholds) : Option ConfigFault :=
  match t.keyed.find? fun (_, value) => value == 0 with
  | some (key, _) => some (.zeroThreshold key)
  | none =>
    (t.bounded.find? fun (_, value, limit) => limit < value).map fun (key, value, limit) => .aboveLimit key value limit

end Thresholds

namespace Config

/-- The first fault of a configuration: the limits are examined before the disabled rules. -/
def fault? (c : Config) : Option ConfigFault :=
  match c.thresholds.fault? with
  | some fault => some fault
  | none => (c.disable.find? fun rule => Text.isBlankText rule.toList).map .blankRule

/-- A configuration has no fault exactly when its limits are positive, those with an upper bound keep it, and no
disabled rule has a blank name. -/
theorem fault?_eq_none_iff (c : Config) :
    c.fault? = none ↔
      (0 < c.thresholds.maxNameLength ∧ c.thresholds.maxNameLength ≤ nameLengthLimit)
        ∧ (0 < c.thresholds.maxDescriptionLength ∧ c.thresholds.maxDescriptionLength ≤ descriptionLengthLimit)
        ∧ 0 < c.thresholds.maxBodyLines ∧ ∀ rule ∈ c.disable, Text.isBlankText rule.toList = false := by
  have ht : c.thresholds.fault? = none ↔
      (0 < c.thresholds.maxNameLength ∧ c.thresholds.maxNameLength ≤ nameLengthLimit)
        ∧ (0 < c.thresholds.maxDescriptionLength ∧ c.thresholds.maxDescriptionLength ≤ descriptionLengthLimit)
        ∧ 0 < c.thresholds.maxBodyLines := by
    unfold Thresholds.fault?
    split
    · rename_i h
      have := List.find?_some h
      have hm := List.mem_of_find?_eq_some h
      simp only [Thresholds.keyed, List.mem_cons, Prod.mk.injEq, List.not_mem_nil, or_false] at hm
      simp only [beq_iff_eq] at this
      simp only [reduceCtorEq, false_iff]
      omega
    · rename_i h
      simp only [Thresholds.keyed, List.find?_eq_none, List.mem_cons, Prod.forall, Prod.mk.injEq, List.not_mem_nil,
        or_false, beq_iff_eq] at h
      have h1 := h _ _ (.inl ⟨rfl, rfl⟩)
      have h2 := h _ _ (.inr (.inl ⟨rfl, rfl⟩))
      have h3 := h _ _ (.inr (.inr ⟨rfl, rfl⟩))
      simp only [Thresholds.bounded, Option.map_eq_none_iff, List.find?_eq_none, List.mem_cons, Prod.forall,
        Prod.mk.injEq, List.not_mem_nil, or_false, decide_eq_true_eq, Nat.not_lt]
      constructor
      · intro g
        have g1 := g _ _ _ (.inl ⟨rfl, rfl, rfl⟩)
        have g2 := g _ _ _ (.inr ⟨rfl, rfl, rfl⟩)
        omega
      · rintro ⟨⟨_, g1⟩, ⟨_, g2⟩, _⟩ key value limit (⟨_, rfl, rfl⟩ | ⟨_, rfl, rfl⟩)
        · exact g1
        · exact g2
  unfold fault?
  split
  · rename_i fault h
    have : ¬ c.thresholds.fault? = none := by simp [h]
    rw [ht] at this
    simp only [reduceCtorEq, false_iff]
    exact fun ⟨h1, h2, h3, _⟩ => this ⟨h1, h2, h3⟩
  · rename_i h
    obtain ⟨h1, h2, h3⟩ := ht.1 h
    simp [h1, h2, h3, List.find?_eq_none]

end Config

end SkillLint
