import Mathlib.Data.Finset.Card

/-!
# The first of each kind

What a list keeps when of the elements with the same key only the first one stays: an element is kept exactly when no element
before it has its key, and the kept ones come in the order of these first places. So no two that are kept have the same key, and as
many are kept as there are keys.
-/

namespace SkillLint

variable {α β : Type}

/-- An element stands in a list behind a front that has none with its key. -/
def FirstBehind (key : α → β) (all earlier : List α) (x : α) : Prop :=
  (∃ later, all = earlier ++ x :: later) ∧ ∀ y ∈ earlier, key y ≠ key x

/-- The elements kept of a list are the first ones with their keys, in the order of the list. -/
structure FirstOfEach (key : α → β) (all kept : List α) : Prop where
  sublist : kept.Sublist all
  mem_iff : ∀ x, x ∈ kept ↔ ∃ earlier, FirstBehind key all earlier x
  order : kept.Pairwise fun x y => ∃ earlier, FirstBehind key all earlier y ∧ x ∈ earlier

/-- No two elements that are kept have the same key. -/
theorem FirstOfEach.distinct {key : α → β} {all kept : List α} (h : FirstOfEach key all kept) : (kept.map key).Nodup := by
  rw [List.Nodup, List.pairwise_map]
  refine h.order.imp ?_
  rintro x y ⟨earlier, ⟨-, hne⟩, hx⟩
  exact hne x hx

theorem FirstOfEach.nil (key : α → β) : FirstOfEach key [] [] where
  sublist := List.Sublist.refl _
  mem_iff x := by simp [FirstBehind]
  order := List.Pairwise.nil

variable {key : α → β} {x y : α} {xs earlier all kept : List α}

theorem FirstBehind.mem (h : FirstBehind key all earlier x) : x ∈ all := by
  obtain ⟨⟨later, rfl⟩, -⟩ := h
  simp

/-- The first element with its key among those that satisfy a test is the first one in the whole list, if no element that fails the
test has its key; what stood before it among them stands before it there. -/
theorem FirstBehind.of_filter {p : α → Bool} (h : FirstBehind key (xs.filter p) earlier y)
    (hkey : ∀ z ∈ xs, p z = false → key z ≠ key y) :
    ∃ front, FirstBehind key xs front y ∧ ∀ z ∈ earlier, z ∈ front := by
  obtain ⟨⟨later, hf⟩, hne⟩ := h
  obtain ⟨front, back, rfl, rfl, hback⟩ := List.filter_eq_append_iff.1 hf
  obtain ⟨skipped, rest, rfl, hskipped, -, -⟩ := List.filter_eq_cons_iff.1 hback
  refine ⟨front ++ skipped, ⟨⟨rest, by simp⟩, fun z hz => ?_⟩, fun z hz => List.mem_append_left _ (List.mem_filter.1 hz).1⟩
  cases hp : p z with
  | false =>
    rw [← List.append_assoc] at hkey
    exact hkey z (List.mem_append_left _ hz) hp
  | true =>
    rcases List.mem_append.1 hz with hz | hz
    · exact hne z (List.mem_filter.2 ⟨hz, hp⟩)
    · exact absurd hp (hskipped z hz)

/-- The first element with its key in a list is the first one among those that satisfy a test, if it satisfies the test itself. -/
theorem FirstBehind.filter {p : α → Bool} (h : FirstBehind key xs earlier y) (hy : p y = true) :
    FirstBehind key (xs.filter p) (earlier.filter p) y := by
  obtain ⟨⟨later, rfl⟩, hne⟩ := h
  refine ⟨⟨later.filter p, ?_⟩, fun z hz => hne z (List.mem_filter.1 hz).1⟩
  rw [List.filter_append, List.filter_cons_of_pos hy]

/-- A test that looks at keys alone may be made before or after the first elements are taken. -/
theorem FirstOfEach.filter {p : α → Bool} (h : FirstOfEach key all kept) (hp : ∀ x y, key x = key y → p x = p y) :
    FirstOfEach key (all.filter p) (kept.filter p) where
  sublist := h.sublist.filter p
  mem_iff y := by
    rw [List.mem_filter, h.mem_iff]
    constructor
    · rintro ⟨⟨earlier, hfirst⟩, hy⟩
      exact ⟨_, hfirst.filter hy⟩
    · rintro ⟨earlier, hfirst⟩
      have hy := (List.mem_filter.1 hfirst.mem).2
      obtain ⟨front, hfront, -⟩ := hfirst.of_filter fun z _ hz he => by
        rw [hp z y he, hy] at hz
        exact Bool.noConfusion hz
      exact ⟨⟨front, hfront⟩, hy⟩
  order := by
    refine (h.order.filter p).imp_of_mem ?_
    rintro x y hx hy ⟨earlier, hfirst, hbefore⟩
    exact ⟨_, hfirst.filter (List.mem_filter.1 hy).2, List.mem_filter.2 ⟨hbefore, (List.mem_filter.1 hx).2⟩⟩

/-- The first element of all is the first that is kept. -/
theorem FirstOfEach.head?_eq (h : FirstOfEach key all kept) : kept.head? = all.head? := by
  cases all with
  | nil => rw [List.sublist_nil.1 h.sublist]
  | cons x xs =>
    have hx : x ∈ kept := (h.mem_iff x).2 ⟨[], ⟨xs, rfl⟩, by simp⟩
    cases kept with
    | nil => exact absurd hx List.not_mem_nil
    | cons y kept =>
      rcases List.mem_cons.1 hx with rfl | hx
      · rfl
      · -- Nothing with the key of the first element stands before it, so nothing is kept before it.
        obtain ⟨earlier, ⟨⟨later, he⟩, hne⟩, hy⟩ := (List.pairwise_cons.1 h.order).1 x hx
        obtain ⟨z, more, rfl⟩ := List.exists_cons_of_ne_nil (List.ne_nil_of_mem hy)
        exact absurd (congrArg key (List.head_eq_of_cons_eq he).symm) (hne z List.mem_cons_self)

section

variable [DecidableEq β]

/-- Every key has an element that is kept. -/
theorem FirstOfEach.mem_map_key_iff (h : FirstOfEach key all kept) (k : β) : k ∈ kept.map key ↔ k ∈ all.map key := by
  constructor
  · exact fun hk => (h.sublist.map key).subset hk
  · intro hk
    obtain ⟨x, hx, rfl⟩ := List.mem_map.1 hk
    cases hfind : all.find? fun z => key z = key x with
    | none => exact absurd (List.find?_eq_none.1 hfind x hx) (by simp)
    | some first =>
      obtain ⟨hkey, earlier, later, hall, hearlier⟩ := List.find?_eq_some_iff_append.1 hfind
      have hsame : key first = key x := by simpa using hkey
      refine List.mem_map.2 ⟨first, (h.mem_iff first).2 ⟨earlier, ⟨later, hall⟩, fun z hz => ?_⟩, hsame⟩
      rw [hsame]
      simpa using hearlier z hz

/-- As many elements are kept as there are keys. -/
theorem FirstOfEach.length_eq (h : FirstOfEach key all kept) : kept.length = (all.map key).toFinset.card := by
  have hkeys : (kept.map key).toFinset = (all.map key).toFinset := by
    ext k
    rw [List.mem_toFinset, List.mem_toFinset, h.mem_map_key_iff]
  rw [← hkeys, List.toFinset_card_of_nodup h.distinct, List.length_map]

/-- The first element with its key among those with keys other than that of the head is the first one in the whole list; the
head and what stood before it among them stand before it there. -/
theorem FirstBehind.cons (h : FirstBehind key (xs.filter fun z => key z ≠ key x) earlier y) :
    ∃ front, FirstBehind key (x :: xs) front y ∧ x ∈ front ∧ ∀ z ∈ earlier, z ∈ front := by
  have hyx : key y ≠ key x := by simpa using (List.mem_filter.1 h.mem).2
  obtain ⟨front, ⟨⟨later, hxs⟩, hne⟩, hearlier⟩ := h.of_filter fun z _ hz => by
    have hzx : key z = key x := by simpa using hz
    exact hzx ▸ Ne.symm hyx
  exact ⟨x :: front, ⟨⟨later, congrArg (x :: ·) hxs⟩, List.forall_mem_cons.2 ⟨Ne.symm hyx, hne⟩⟩, List.mem_cons_self,
    fun z hz => List.mem_cons_of_mem x (hearlier z hz)⟩

/-- The first element stays, and behind it the first ones of the elements with other keys. -/
theorem FirstOfEach.cons (h : FirstOfEach key (xs.filter fun y => key y ≠ key x) kept) :
    FirstOfEach key (x :: xs) (x :: kept) where
  sublist := (h.sublist.trans List.filter_sublist).cons_cons x
  mem_iff y := by
    rw [List.mem_cons, h.mem_iff]
    constructor
    · rintro (rfl | ⟨earlier, hy⟩)
      · exact ⟨[], ⟨xs, rfl⟩, by simp⟩
      · obtain ⟨front, hfront, -⟩ := hy.cons
        exact ⟨front, hfront⟩
    · rintro ⟨earlier, ⟨later, he⟩, hne⟩
      cases earlier with
      | nil => exact .inl (List.cons.inj he).1.symm
      | cons z earlier =>
        obtain ⟨rfl, hxs⟩ := List.cons.inj he
        obtain ⟨hx, hearlier⟩ := List.forall_mem_cons.1 hne
        have hfirst : FirstBehind key xs earlier y := ⟨⟨later, hxs⟩, hearlier⟩
        exact .inr ⟨_, hfirst.filter (by simpa using Ne.symm hx)⟩
  order := by
    refine List.pairwise_cons.2 ⟨fun y hy => ?_, h.order.imp ?_⟩
    · obtain ⟨earlier, hfirst⟩ := (h.mem_iff y).1 hy
      obtain ⟨front, hfront, hx, -⟩ := hfirst.cons
      exact ⟨front, hfront, hx⟩
    · rintro y z ⟨earlier, hfirst, hy⟩
      obtain ⟨front, hfront, -, hearlier⟩ := hfirst.cons
      exact ⟨front, hfront, hearlier y hy⟩

/-- Erasing duplicates by their keys keeps the first element with each key. -/
theorem firstOfEach_eraseDupsBy (key : α → β) (xs : List α) :
    FirstOfEach key xs (xs.eraseDupsBy fun x y => key x == key y) := by
  match xs with
  | [] => exact FirstOfEach.nil key
  | x :: xs =>
    have hf : (xs.filter fun y => decide ((key y == key x) = false)) = xs.filter fun y => key y ≠ key x :=
      List.filter_congr fun y _ => by simp
    rw [List.eraseDupsBy_cons, hf]
    exact (firstOfEach_eraseDupsBy key _).cons
termination_by xs.length
decreasing_by exact Nat.lt_succ_of_le (List.length_filter_le _ _)

end

end SkillLint
