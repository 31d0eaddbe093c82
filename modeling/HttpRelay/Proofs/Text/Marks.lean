import HttpRelay.Text.Blank

namespace HttpRelay.Text

variable {sep c : Char} {cs ds front back : List Char} {p : Char → Bool}

theorem splitFirst_front (h : sep ∉ cs) (ds : List Char) :
    splitFirst sep (cs ++ ds) = (splitFirst sep ds).map fun r => (cs ++ r.1, r.2) := by
  induction cs with
  | nil => exact Option.map_id'.symm
  | cons c cs ih =>
    have hc : c ≠ sep := (List.ne_of_not_mem_cons h).symm
    rw [List.cons_append, splitFirst, if_neg hc, ih (List.not_mem_of_not_mem_cons h),
      Option.map_map]
    rfl

theorem splitFirst_of_not_mem (h : sep ∉ cs) : splitFirst sep cs = none := by
  have hfront := splitFirst_front h []
  rwa [List.append_nil] at hfront

theorem splitFirst_append (h : sep ∉ cs) (ds : List Char) :
    splitFirst sep (cs ++ sep :: ds) = some (cs, ds) := by
  rw [splitFirst_front h, splitFirst, if_pos rfl, Option.map_some, List.append_nil]

theorem splitFirst_takeWhile (sep : Char) (cs : List Char) :
    ((splitFirst sep cs).map (·.1)).getD cs = cs.takeWhile (· ≠ sep) := by
  induction cs with
  | nil => rfl
  | cons c cs ih =>
    rw [splitFirst]
    split
    · rename_i hc
      rw [List.takeWhile_cons_of_neg (by simp [hc])]
      rfl
    · rename_i hc
      rw [List.takeWhile_cons_of_pos (by simp [hc]), ← ih]
      cases splitFirst sep cs <;> rfl

theorem splitLast_of_not_mem (h : sep ∉ cs) : splitLast sep cs = none := by
  rw [splitLast, splitFirst_of_not_mem (by rwa [List.mem_reverse])]
  rfl

theorem splitLast_append (h : sep ∉ ds) (cs : List Char) :
    splitLast sep (cs ++ sep :: ds) = some (cs, ds) := by
  have hrev : (cs ++ sep :: ds).reverse = ds.reverse ++ sep :: cs.reverse := by
    rw [List.reverse_append, List.reverse_cons, List.append_assoc, List.singleton_append]
  rw [splitLast, hrev, splitFirst_append (by rwa [List.mem_reverse]), Option.map_some]
  dsimp only
  rw [List.reverse_reverse, List.reverse_reverse]

theorem splitLast_eq_some_iff :
    splitLast sep cs = some (front, back) ↔ cs = front ++ sep :: back ∧ sep ∉ back := by
  constructor
  · intro h
    by_cases hsep : sep ∈ cs.reverse
    · obtain ⟨right, left, hrev, hright⟩ := List.eq_append_cons_of_mem hsep
      have hcs : cs = left.reverse ++ sep :: right.reverse := by
        rw [← List.reverse_reverse cs, hrev]
        simp
      have hback : sep ∉ right.reverse := by rwa [List.mem_reverse]
      rw [hcs, splitLast_append hback, Option.some.injEq, Prod.mk.injEq] at h
      obtain ⟨rfl, rfl⟩ := h
      exact ⟨hcs, hback⟩
    · rw [List.mem_reverse] at hsep
      rw [splitLast_of_not_mem hsep] at h
      cases h
  · rintro ⟨rfl, hback⟩
    exact splitLast_append hback front

theorem eq_of_last_mark (h : cs ++ sep :: ds = front ++ sep :: back) (hds : sep ∉ ds)
    (hback : sep ∉ back) : cs = front ∧ ds = back := by
  have hsplit := splitLast_append hds cs
  rw [h, splitLast_append hback] at hsplit
  obtain ⟨hfront, hrest⟩ := Prod.mk.inj (Option.some.inj hsplit)
  exact ⟨hfront.symm, hrest.symm⟩

theorem splitAll_eq_splitOn (sep : Char) (cs : List Char) : splitAll sep cs = cs.splitOn sep := by
  induction cs with
  | nil => rfl
  | cons c cs ih =>
    rw [splitAll, ih, List.splitOn_cons_eq_if_modifyHead]
    simp only [beq_iff_eq]
    split
    · rfl
    · cases hsplit : cs.splitOn sep with
      | nil => exact absurd hsplit (List.splitOn_ne_nil sep cs)
      | cons piece pieces => rfl

theorem splitOn_intercalate_of_ne_nil {lines : List (List Char)} (h : lines ≠ []) :
    ([sep].intercalate lines).splitOn sep = lines.flatMap (List.splitOn sep) := by
  induction lines with
  | nil => exact absurd rfl h
  | cons line lines ih =>
    cases lines with
    | nil => simp
    | cons next lines =>
      rw [List.intercalate_cons_cons, List.append_assoc, List.singleton_append,
        List.splitOn_append_cons_self, ih (List.cons_ne_nil next lines)]
      rfl

theorem splitAll_concat (sep : Char) (cs ds : List Char) :
    splitAll sep (cs ++ sep :: ds) = splitAll sep cs ++ splitAll sep ds := by
  simp only [splitAll_eq_splitOn, List.splitOn_append_cons_self]

theorem splitAll_append (h : sep ∉ cs) (ds : List Char) :
    splitAll sep (cs ++ sep :: ds) = cs :: splitAll sep ds := by
  rw [splitAll_concat, splitAll_eq_splitOn sep cs, List.splitOn_eq_singleton h]
  rfl

theorem splitAll_ended {lines : List (List Char)} (h : ∀ line ∈ lines, sep ∉ line) :
    splitAll sep (lines.flatMap (· ++ [sep])) = lines ++ [[]] := by
  induction lines with
  | nil => rfl
  | cons line lines ih =>
    rw [List.forall_mem_cons] at h
    rw [List.flatMap_cons, List.append_assoc, List.singleton_append, splitAll_append h.1, ih h.2]
    rfl

theorem mem_of_mem_trimChars (h : c ∈ trimChars cs) : c ∈ cs := by
  have hleft : c ∈ trimLeft cs :=
    List.mem_reverse.mp ((List.dropWhile_suffix _).mem (List.mem_reverse.mp h))
  exact (List.dropWhile_suffix _).mem hleft

theorem exists_splitAll (h : c ∈ cs) (hc : c ≠ sep) : ∃ piece ∈ splitAll sep cs, c ∈ piece := by
  induction cs with
  | nil => exact absurd h List.not_mem_nil
  | cons d cs ih =>
    rw [splitAll]
    rcases List.mem_cons.mp h with rfl | hcs
    · rw [if_neg hc]
      cases splitAll sep cs with
      | nil => exact ⟨_, List.mem_cons_self, List.mem_cons_self⟩
      | cons piece pieces => exact ⟨_, List.mem_cons_self, List.mem_cons_self⟩
    · obtain ⟨piece, hpiece, hmem⟩ := ih hcs
      split
      · exact ⟨piece, List.mem_cons_of_mem _ hpiece, hmem⟩
      · cases hsplit : splitAll sep cs with
        | nil =>
          rw [hsplit] at hpiece
          exact absurd hpiece List.not_mem_nil
        | cons first pieces =>
          rw [hsplit] at hpiece
          rcases List.mem_cons.mp hpiece with rfl | hlater
          · exact ⟨_, List.mem_cons_self, List.mem_cons_of_mem _ hmem⟩
          · exact ⟨piece, List.mem_cons_of_mem _ hlater, hmem⟩

theorem exists_of_mapM {α β : Type} {f : α → Option β} {xs : List α} {ys : List β} {x : α}
    (h : xs.mapM f = some ys) (hx : x ∈ xs) : ∃ y ∈ ys, f x = some y := by
  induction xs generalizing ys with
  | nil => exact absurd hx List.not_mem_nil
  | cons first xs ih =>
    rw [List.mapM_cons] at h
    obtain ⟨y, hy, h⟩ := Option.bind_eq_some_iff.mp h
    obtain ⟨zs, hzs, h⟩ := Option.bind_eq_some_iff.mp h
    obtain rfl := Option.some.inj h
    rcases List.mem_cons.mp hx with rfl | hlater
    · exact ⟨y, List.mem_cons_self, hy⟩
    · obtain ⟨z, hz, hfz⟩ := ih hzs hlater
      exact ⟨z, List.mem_cons_of_mem _ hz, hfz⟩

theorem dropWhile_mark (h : p c = false) (cs ds : List Char) :
    (cs ++ c :: ds).dropWhile p = cs.dropWhile p ++ c :: ds := by
  rw [List.dropWhile_append, List.dropWhile_cons_of_neg (by simp [h])]
  split
  · rename_i hempty
    rw [List.isEmpty_iff.mp hempty]
    rfl
  · rfl

theorem takeWhile_mark (h : p c = false) (cs ds : List Char) :
    (cs ++ c :: ds).takeWhile p = cs.takeWhile p := by
  rw [List.takeWhile_append, List.takeWhile_cons_of_neg (by simp [h]), List.append_nil]
  split
  · rename_i hall
    exact ((List.takeWhile_prefix p).eq_of_length hall).symm
  · rfl

theorem dropWhileRight_mark (h : p c = false) (cs ds : List Char) :
    ((cs ++ c :: ds).reverse.dropWhile p).reverse =
      cs ++ c :: (ds.reverse.dropWhile p).reverse := by
  rw [List.reverse_append, List.reverse_cons, List.append_assoc, List.singleton_append,
    dropWhile_mark h, List.reverse_append, List.reverse_cons, List.reverse_reverse,
    List.append_assoc, List.singleton_append]

theorem trimLeft_mark (h : isBlank c = false) (cs ds : List Char) :
    trimLeft (cs ++ c :: ds) = trimLeft cs ++ c :: ds := dropWhile_mark h cs ds

theorem trimRight_mark (h : isBlank c = false) (cs ds : List Char) :
    trimRight (cs ++ c :: ds) = cs ++ c :: trimRight ds := dropWhileRight_mark h cs ds

end HttpRelay.Text
