import SkillLint.Config.Lookup
import SkillLint.Proofs.Json.RoundTrip
import SkillLint.Proofs.Text.Trim
import SkillLint.Proofs.Yaml.Nested

/-!
# Headers that set one limit

What the headers of a configuration give that are told apart without the rules of YAML: a blank one gives the defaults, one that sets
a limit to a number gives that limit (`ofHeader_number`), and one that sets a limit to a name cannot be used
(`ofHeader_name`).
-/

namespace SkillLint.Config

/-- The limits that a configuration can set. -/
inductive Limit where
  | nameLength
  | descriptionLength
  | bodyLines
deriving DecidableEq

namespace Limit

/-- The key of a limit in a header. -/
def key : Limit → String
  | nameLength => "max_name_length"
  | descriptionLength => "max_description_length"
  | bodyLines => "max_body_lines"

/-- The default limits, but for one of them. -/
def set (n : Nat) : Limit → Thresholds
  | nameLength => { maxNameLength := n }
  | descriptionLength => { maxDescriptionLength := n }
  | bodyLines => { maxBodyLines := n }

/-- A header that sets one limit and nothing else. -/
def header (limit : Limit) (value : String) : String :=
  "lint:\n  thresholds:\n    " ++ limit.key ++ ": " ++ value

theorem isWord_key (limit : Limit) : Yaml.IsWord limit.key.toList := by
  cases limit <;> exact .of_all (by decide) (by decide)

theorem toList_append₄ (a b c d : String) : (a ++ b ++ c ++ d).toList = a.toList ++ b.toList ++ c.toList ++ d.toList := by
  simp only [String.toList_append]

/-- Such a header is three keys, each deeper than the one before it, and a value. -/
theorem toList_header (limit : Limit) (value : String) :
    (limit.header value).toList = Yaml.nested "lint".toList "thresholds".toList limit.key.toList value.toList := by
  have hfront : "lint:\n  thresholds:\n    ".toList =
      "lint".toList ++ ':' :: '\n' :: (List.replicate 2 ' ' ++ ("thresholds".toList ++ ':' :: '\n' :: List.replicate 4 ' ')) := by
    decide +kernel
  have hcolon : ": ".toList = ':' :: List.replicate 1 ' ' := by decide +kernel
  refine (toList_append₄ _ _ _ _).trans ?_
  rw [hfront, hcolon, Yaml.append_eq_nested]

/-! ## Members -/

section Members

variable {d : Yaml.Document} {route : Yaml.Route} {mark place : Yaml.Mark} {value : Yaml.Node} (hlast : Yaml.Document.IsLast value)
include hlast

/-- A mapping whose only member is a limit sets that limit. -/
theorem readThresholds_key (limit : Limit) :
    readThresholds d route ((mark, .mappingStart none) :: (place, .scalar none none .plain limit.key.toList) :: value) =
      (d.nat (.key limit.key :: route) value).map fun n => limit.set n := by
  rw [readThresholds]
  cases limit
  all_goals
    rw [Yaml.Document.members_single hlast rfl, String.ofList_toList]
    simp only [Bind.bind, Except.bind]
    cases d.nat _ value <;> rfl

theorem readSettings_thresholds :
    readSettings d route ((mark, .mappingStart none) :: (place, .scalar none none .plain "thresholds".toList) :: value) =
      (readThresholds d (.key "thresholds" :: route) value).map fun t => { thresholds := t } := by
  rw [readSettings, Yaml.Document.members_single hlast rfl, String.ofList_toList]
  simp only [Bind.bind, Except.bind]
  cases readThresholds d _ value <;> rfl

theorem ofYaml_lint {text : List Char} (hd : Yaml.Document.ofText text = d) (hfailure : d.failure = none) (hseveral : d.several = false)
    (hevents : d.events = (mark, .mappingStart none) :: (place, .scalar none none .plain "lint".toList) :: value) :
    ofYaml text = readSettings d [.key "lint"] value := by
  rw [ofYaml, hd, hevents, Yaml.Document.members_single hlast rfl, String.ofList_toList]
  simp only [Bind.bind, Except.bind, Yaml.Document.finish, hfailure, hseveral]
  cases readSettings d [.key "lint"] value <;> rfl

end Members

/-- A header that sets a limit gives what its value gives as a number. -/
theorem ofYaml_header (limit : Limit) {value : String} (hvalue : Yaml.IsWord value.toList) :
    ofYaml (limit.header value).toList =
      (Yaml.Document.nat { events := Yaml.nestedEvents "lint".toList "thresholds".toList limit.key.toList value.toList }
        [.key limit.key, .key "thresholds", .key "lint"]
        ((Yaml.nestedEvents "lint".toList "thresholds".toList limit.key.toList value.toList).drop 6)).map fun n =>
          { thresholds := limit.set n } := by
  have hlength : limit.key.toList.length ≤ 1024 := by cases limit <;> decide
  have hlint : Yaml.IsWord "lint".toList := .of_all (by decide) (by decide)
  have hthresholds : Yaml.IsWord "thresholds".toList := .of_all (by decide) (by decide)
  have hd := Yaml.Document.ofText_nested hlint hthresholds limit.isWord_key hvalue (by decide) (by decide) hlength
  rw [limit.toList_header, ofYaml_lint (by rfl) hd rfl rfl rfl, readSettings_thresholds (by rfl), readThresholds_key (by rfl) limit]
  simp only [Yaml.nestedEvents, List.drop_succ_cons, List.drop_zero]
  generalize Yaml.Document.nat _ _ _ = number
  cases number <;> rfl

end Limit

/-! ## Values -/

section Values

variable {d : Yaml.Document} {route : Yaml.Route} {mark : Yaml.Mark} {rest : Yaml.Node} {s : List Char}

theorem nat_of_naturalOf? {n : Nat} (hs : Yaml.naturalOf? s = some n) (hn : n < Yaml.powerOfTwo 64) :
    d.nat route ((mark, .scalar none none .plain s) :: rest) = .ok n := by
  simp [Yaml.Document.nat, Yaml.Document.follow, hs, Option.filter, hn]

theorem nat_of_naturalOf?_eq_none (hs : Yaml.naturalOf? s = none) :
    ∃ error, d.nat route ((mark, .scalar none none .plain s) :: rest) = .error error := by
  simp [Yaml.Document.nat, Yaml.Document.follow, hs]

/-- What starts with a letter is no number. The letters of hexadecimal digits stand for too much in base ten. -/
theorem naturalOf?_of_isAlpha {c : Char} {rest : List Char} (hc : c.isAlpha = true) : Yaml.naturalOf? (c :: rest) = none := by
  have hrange := Text.toNat_of_isAlpha hc
  have hplus : c ≠ '+' := by
    rintro rfl
    exact absurd hc (by decide)
  have hzero : c ≠ '0' := by
    rintro rfl
    exact absurd hc (by decide)
  have hdigit : ¬c.isDigit = true := by
    intro h
    have hten := Text.toNat_of_isDigit h
    omega
  have hvalue : ((Yaml.hexValue? c).bind fun v => if v < 10 then some (10 * 0 + v) else none) = none := by
    rw [Yaml.hexValue?, if_neg hdigit]
    split
    · next h =>
      have hlower : 97 ≤ c.toNat := h.1
      exact if_neg (by omega)
    · split
      · next h =>
        have hupper : 65 ≤ c.toNat := h.1
        exact if_neg (by omega)
      · rfl
  have hunsigned : Yaml.unsignedOf? (c :: rest) = Yaml.digitsValue? 10 (c :: rest) := by
    unfold Yaml.unsignedOf?
    split <;> simp_all
  rw [Yaml.naturalOf?, List.head?_cons, if_neg (by simpa using hplus), hunsigned, Yaml.digitsValue?]
  simp only [List.isEmpty_cons, Bool.false_eq_true, if_false, List.foldlM_cons, hvalue]
  rfl

/-- Decimal digits have a value in base ten. -/
theorem foldlM_digits {digits : List Char} (h : ∀ d ∈ digits, d.isDigit = true) (n : Nat) :
    digits.foldlM (fun n d => (Yaml.hexValue? d).bind fun v => if v < 10 then some (10 * n + v) else none) n =
      some (Nat.ofDigitChars 10 digits n) := by
  induction digits generalizing n with
  | nil => rfl
  | cons d digits ih =>
    have hd := h d List.mem_cons_self
    have hvalue : Yaml.hexValue? d = some (d.toNat - 48) := by rw [Yaml.hexValue?, if_pos hd]
    have hlt : d.toNat - 48 < 10 := by
      have hten := Text.toNat_of_isDigit hd
      omega
    rw [List.foldlM_cons, hvalue, Option.bind_some, if_pos hlt]
    exact ih (fun e he => h e (List.mem_cons_of_mem d he)) _

/-- The decimal digits of a number stand for it. -/
theorem naturalOf?_toDigits (n : Nat) : Yaml.naturalOf? (Nat.toDigits 10 n) = some n := by
  have hdigits : ∀ d ∈ Nat.toDigits 10 n, d.isDigit = true := fun d hd => Nat.isDigit_of_mem_toDigits (by decide) (by decide) hd
  obtain ⟨first, rest, hcons⟩ := List.exists_cons_of_ne_nil (Nat.toDigits_ne_nil : Nat.toDigits 10 n ≠ [])
  have hfirst := hdigits first (hcons ▸ List.mem_cons_self)
  have hplus : first ≠ '+' := by
    rintro rfl
    exact absurd hfirst (by decide)
  have hnumber : Yaml.digitsValue? 10 (Nat.toDigits 10 n) = some n := by
    rw [Yaml.digitsValue?, foldlM_digits hdigits, Nat.ofDigitChars_ten_toDigits, if_neg (by simp)]
  have hunsigned : Yaml.unsignedOf? (Nat.toDigits 10 n) = some n := by
    by_cases hzero : (Nat.toDigits 10 n).head? = some '0'
    · have hdigit := Json.toDigits_of_head_zero hzero
      rw [hdigit] at hnumber ⊢
      exact hnumber
    · rw [← hnumber]
      unfold Yaml.unsignedOf?
      split <;> simp_all
  rw [Yaml.naturalOf?, hcons, List.head?_cons, if_neg (by simpa using hplus), ← hcons, hunsigned]

end Values

/-! ## Headers -/

/-- Whether a text is a name, and so no number: a letter, and then letters, digits and underscores. -/
def IsName (value : String) : Prop :=
  ∃ c rest, value = String.ofList (c :: rest) ∧ c.isAlpha = true ∧ ∀ d ∈ rest, Yaml.isWordChar d = true

theorem ofHeader_of_mem {header : List Char} {c : Char} (h : c ∈ header) (hc : Text.isBlank c = false) :
    ofHeader header = ofYaml header := by
  rw [ofHeader, if_neg]
  exact fun hblank => Bool.noConfusion (hc.symm.trans (Text.isBlankText_iff.1 hblank c h))

theorem ofHeader_of_forall {header : List Char} (h : ∀ c ∈ header, Text.isBlank c = true) : ofHeader header = .ok {} := by
  rw [ofHeader, if_pos (Text.isBlankText_iff.2 h)]

theorem ofHeader_header (limit : Limit) (value : String) :
    ofHeader (limit.header value).toList = ofYaml (limit.header value).toList := by
  have hmem : 'l' ∈ (limit.header value).toList := by
    rw [limit.toList_header]
    exact List.mem_append_left _ (by decide)
  exact ofHeader_of_mem hmem (by decide)

/-- A header that sets a limit to a number gives that limit. -/
theorem ofHeader_number (limit : Limit) {n : Nat} (hn : n < Yaml.powerOfTwo 64) :
    ofHeader (limit.header (toString n)).toList = .ok { thresholds := limit.set n } := by
  have hdigits : (toString n).toList = Nat.toDigits 10 n := by
    rw [Nat.toString_eq_ofList_toDigits, String.toList_ofList]
  have hword : Yaml.IsWord (toString n).toList := by
    rw [hdigits]
    refine ⟨Nat.toDigits_ne_nil, fun c hc => ?_⟩
    have hdigit := Nat.isDigit_of_mem_toDigits (by decide) (by decide) hc
    rw [Yaml.isWordChar, Char.isAlphanum, hdigit, Bool.or_true, Bool.true_or]
  have hnumber : Yaml.naturalOf? (toString n).toList = some n := by rw [hdigits, naturalOf?_toDigits]
  rw [ofHeader_header, limit.ofYaml_header hword]
  exact congrArg (Except.map _) (nat_of_naturalOf? hnumber hn)

/-- A header that sets a limit to a name cannot be used. -/
theorem ofHeader_name (limit : Limit) {value : String} (h : IsName value) :
    ∃ error, ofHeader (limit.header value).toList = .error error := by
  obtain ⟨c, rest, rfl, hc, hrest⟩ := h
  have hword : Yaml.IsWord (String.ofList (c :: rest)).toList := by
    rw [String.toList_ofList]
    refine ⟨List.cons_ne_nil c rest, List.forall_mem_cons.2 ⟨?_, hrest⟩⟩
    rw [Yaml.isWordChar, Char.isAlphanum, hc, Bool.true_or, Bool.true_or]
  have hnumber : Yaml.naturalOf? (String.ofList (c :: rest)).toList = none := by
    rw [String.toList_ofList, naturalOf?_of_isAlpha hc]
  obtain ⟨error, herror⟩ := nat_of_naturalOf?_eq_none (s := (String.ofList (c :: rest)).toList) hnumber
  rw [ofHeader_header, limit.ofYaml_header hword]
  exact ⟨error, congrArg (Except.map _) herror⟩

end SkillLint.Config
