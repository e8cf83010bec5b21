import SkillLint.Proofs.Tree.Create

/-!
# Writing files

Writing a file puts one node at the place that its path spells, an entry of a directory where no directory is; a file that cannot
be written leaves the tree as it was. Steps that are done one after the other keep what each of them keeps.
-/

namespace SkillLint.FileTree

/-! ## Files -/

theorem entrySegments_eq {p : Path} (h : p.EndsInName) : entrySegments p = p.segments := by
  obtain ⟨front, name, hs, hne⟩ := h.exists_segments
  have hr : (front ++ [name]).reverse = name :: front.reverse := by simp
  rw [entrySegments, hs, hr, List.dropWhile_cons_of_neg (by simpa using hne), ← hr, List.reverse_reverse]

/-- Where a file is written: the name in a directory, which is found by a walk along the other segments of the path. -/
structure IsEntry (t : FileTree) (p : Path) (place : Place) (name : String) : Prop where
  not_refused : refusal? p = none
  segments_eq : ∃ front, p.segments = front ++ [name] ∧ t.walk (t.start p) front = .ok place
  directory : t.node? place = some .directory
  proper : name ≠ "" ∧ name ≠ "." ∧ name ≠ ".."
  size_le : name.utf8ByteSize ≤ nameLimit

theorem isEntry_of_locateEntry {t : FileTree} {p : Path} {dots : FileError} {place : Place} {name : String}
    (hp : p.EndsInName) (h : t.locateEntry p dots = .ok (place, name)) : t.IsEntry p place name := by
  obtain ⟨hrefusal, ⟨front, hs, hwalk⟩, hd, hname, hsize⟩ := locateEntry_eq_ok h
  exact ⟨hrefusal, ⟨front, (entrySegments_eq hp).symm.trans hs, hwalk⟩, hd, hname, hsize⟩

theorem IsEntry.eq_placeOf {t : FileTree} {p : Path} {place : Place} {name : String} (h : t.IsEntry p place name) :
    place ++ [name] = t.placeOf p := by
  obtain ⟨front, hp, hw⟩ := h.segments_eq
  rw [placeOf, hp, spelled_append, ← eq_spelled_of_walk hw, spelled_name place h.proper]

theorem IsEntry.locate_eq {t : FileTree} {p : Path} {place : Place} {name : String} (h : t.IsEntry p place name)
    (hs : (t.node? (place ++ [name])).isSome = true) : t.locate p = .ok (place ++ [name]) := by
  obtain ⟨front, hp, hw⟩ := h.segments_eq
  rw [locate, h.not_refused]
  simp only
  rw [hp, walk_append, hw]
  exact walk_entry h.directory h.proper h.size_le hs

theorem Covers.isEntry {t t' : FileTree} (hc : t.Covers t') {p : Path} {place : Place} {name : String}
    (h : t.IsEntry p place name) : t'.IsEntry p place name := by
  obtain ⟨front, hp, hw⟩ := h.segments_eq
  exact ⟨h.not_refused, ⟨front, hp, hc.start_eq p ▸ hc.walk_eq hw⟩, hc.directory_kept _ h.directory, h.proper, h.size_le⟩

/-- A file that is written is put at its entry, where no directory is. -/
theorem writeFile_eq_ok {t made : FileTree} {p : Path} {content : ByteArray} (h : t.writeFile p content = (made, .ok ())) :
    ∃ place name, t.IsEntry p place name ∧ t.node? (place ++ [name]) ≠ some .directory ∧
      made = t.put (place ++ [name]) (.file content) := by
  unfold writeFile at h
  split at h
  · exact absurd (congrArg Prod.snd h) (by simp)
  · rename_i place name he
    split at h
    · exact absurd (congrArg Prod.snd h) (by simp)
    · rename_i hslash
      split at h
      · exact absurd (congrArg Prod.snd h) (by simp)
      · rename_i hd
        have hp := Path.endsInName_of_text_ne (text_ne_of_refusal? (locateEntry_eq_ok he).1) hslash
        exact ⟨place, name, isEntry_of_locateEntry hp he, hd, (congrArg Prod.fst h).symm⟩

/-- A tree in which a file cannot be written stays as it was. -/
theorem writeFile_eq_error {t made : FileTree} {p : Path} {content : ByteArray} {e : FileError}
    (h : t.writeFile p content = (made, .error e)) : made = t := by
  unfold writeFile at h
  split at h
  · exact (congrArg Prod.fst h).symm
  · split at h
    · exact (congrArg Prod.fst h).symm
    · split at h
      · exact (congrArg Prod.fst h).symm
      · exact absurd (congrArg Prod.snd h) (by simp)

/-- Writing a file keeps a tree well-formed. -/
theorem WellFormed.writeFile {t : FileTree} (h : t.WellFormed) (p : Path) (content : ByteArray) :
    (t.writeFile p content).1.WellFormed := by
  unfold FileTree.writeFile
  split
  · exact h
  · rename_i place name hentry
    obtain ⟨hd, hname⟩ := isEntryName_of_locateEntry hentry
    split
    · exact h
    · split
      · exact h
      · rename_i hfile
        exact h.put hd hname (.inr hfile)

/-! ## One step after the other -/

section Attempts

variable {ε α : Type} {step : FileTree → α → Attempt ε Unit} {t made : FileTree} {steps : List α} {I : FileTree → Prop}

/-- What every step keeps is kept, whether or not one of the steps fails. -/
theorem attemptAll_invariant (hstep : ∀ mid, ∀ a ∈ steps, I mid → I (step mid a).1) (ht : I t) :
    I (t.attemptAll step steps).1 := by
  induction steps generalizing t with
  | nil => exact ht
  | cons a more ih =>
    have hfirst := hstep t a List.mem_cons_self ht
    rw [attemptAll]
    split
    · rename_i mid hmid
      rw [hmid] at hfirst
      exact ih (fun mid' b hb => hstep mid' b (List.mem_cons_of_mem _ hb)) hfirst
    · rename_i mid e hmid
      rw [hmid] at hfirst
      exact hfirst

/-- When the steps fail, one of them has failed with the same error. -/
theorem exists_of_attemptAll_eq_error {e : ε} (h : t.attemptAll step steps = (made, .error e)) :
    ∃ mid, ∃ a ∈ steps, (step mid a).2 = .error e := by
  induction steps generalizing t with
  | nil => exact absurd (congrArg Prod.snd h) (by simp [attemptAll])
  | cons a more ih =>
    rw [attemptAll] at h
    split at h
    · obtain ⟨mid, b, hb, he⟩ := ih h
      exact ⟨mid, b, List.mem_cons_of_mem a hb, he⟩
    · rename_i mid e' hmid
      refine ⟨t, a, List.mem_cons_self, ?_⟩
      rw [hmid]
      exact congrArg Prod.snd h

/-- What each step brings about, and no later one undoes, holds for all of them when none fails. -/
theorem attemptAll_forall {J : α → FileTree → Prop} (hstep : ∀ mid, ∀ a ∈ steps, I mid → I (step mid a).1)
    (hmake : ∀ mid last, ∀ a ∈ steps, I mid → step mid a = (last, .ok ()) → J a last)
    (hkeep : ∀ a ∈ steps, ∀ mid, ∀ b ∈ steps, I mid → J a mid → J a (step mid b).1) (ht : I t)
    (h : t.attemptAll step steps = (made, .ok ())) : ∀ a ∈ steps, J a made := by
  induction steps generalizing t with
  | nil => simp
  | cons a more ih =>
    have hfirst := hstep t a List.mem_cons_self ht
    rw [attemptAll] at h
    split at h
    · rename_i mid hmid
      rw [hmid] at hfirst
      have hmore := fun mid' b hb => hstep mid' b (List.mem_cons_of_mem a hb)
      intro b hb
      rcases List.mem_cons.1 hb with rfl | hb
      · have hboth := attemptAll_invariant (I := fun mid' => I mid' ∧ J b mid')
          (fun mid' c hc hmid' => ⟨hmore mid' c hc hmid'.1,
            hkeep b List.mem_cons_self mid' c (List.mem_cons_of_mem b hc) hmid'.1 hmid'.2⟩)
          ⟨hfirst, hmake t mid b List.mem_cons_self ht hmid⟩
        rw [h] at hboth
        exact hboth.2
      · exact ih hmore (fun mid' last c hc => hmake mid' last c (List.mem_cons_of_mem a hc))
          (fun c hc mid' d hd => hkeep c (List.mem_cons_of_mem a hc) mid' d (List.mem_cons_of_mem a hd)) hfirst h b hb
    · exact absurd (congrArg Prod.snd h) (by simp)

end Attempts

/-! ## Reading back -/

theorem decode_toUTF8 (text : String) : String.fromUTF8? text.toUTF8 = some text := by
  rw [String.fromUTF8?, String.toUTF8_eq_toByteArray, dif_pos text.isValidUTF8]
  rfl

/-- Bytes that are read as a text are those of the text. -/
theorem toUTF8_of_decode {bytes : ByteArray} {text : String} (h : String.fromUTF8? bytes = some text) :
    text.toUTF8 = bytes := by
  unfold String.fromUTF8? at h
  split at h
  · obtain rfl := Option.some.inj h
    rfl
  · exact absurd h (by simp)

theorem readText_of_stat {t : FileTree} {p : Path} {text : String} (h : t.stat p = .ok (.file text.toUTF8)) :
    t.readText p = .ok text := by
  rw [readText, read, h]
  simp only [decode_toUTF8]

/-- What can be read as text is a file that holds the bytes of the text. -/
theorem stat_of_readText {t : FileTree} {p : Path} {text : String} (h : t.readText p = .ok text) :
    t.stat p = .ok (.file text.toUTF8) := by
  unfold readText read at h
  cases hstat : t.stat p with
  | error e => simp [hstat] at h
  | ok node =>
    cases node with
    | directory => simp [hstat] at h
    | file bytes =>
      cases hbytes : String.fromUTF8? bytes with
      | none => simp [hstat, hbytes] at h
      | some found =>
        simp only [hstat, hbytes, Except.ok.injEq] at h
        rw [← toUTF8_of_decode hbytes, h]

end SkillLint.FileTree
