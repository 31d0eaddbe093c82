import HttpRelay.Proofs.Text.Replacement

namespace HttpRelay.Utf8

variable {p : Pending} {t front bs : Bytes} {s : Carry} {text : String}

def heldBack : Carry → Bytes
  | none => []
  | some p => p.held

theorem Opens.held_eq (h : Opens t p) : p.held = t := by
  induction h with
  | @lead b p h =>
    have hform := lead_form b
    rw [h] at hform
    cases hform <;> rfl
  | more ht ha hm ih => rw [Pending.extend, ih]

inductive Holding : Bytes → Carry → Prop where
  | nothing : Holding [] none
  | opened {t : Bytes} {p : Pending} (h : Opens t p) : Holding t (some p)

inductive Judged (bs : Bytes) : Except Fault String → Prop where
  | valid {text : String} (h : run none bs = (text.toList, none)) : Judged bs (.ok text)
  | incomplete {front t : Bytes} {p : Pending} (hbs : front ++ t = bs) (ht : Opens t p) :
    Judged bs (.error (.incomplete front.length))
  | invalid {front part rest : Bytes} (hbs : front ++ (part ++ rest) = bs)
    (hfront : (run none front).2 = none)
    (hpart : run none (part ++ rest) =
      (replacement :: (run none rest).1, (run none rest).2)) :
    Judged bs (.error (.invalid front.length part.length))

theorem run_char_behind {c : Char} (hfront : run none front = (text.toList, none))
    (hp : Path none t c) : run none (front ++ t) = ((text.push c).toList, none) := by
  rw [run_append, hfront, run_path hp, String.toList_push]

theorem strictFrom_judged (hfront : run none front = (text.toList, none)) (h : Holding t s)
    (bs : Bytes) :
    Judged (front ++ (t ++ bs)) (strictFrom text (front.length + t.length) s bs) := by
  -- a character that is complete joins the bytes in front, so that only one can be in hand
  induction bs generalizing front t text s with
  | nil =>
    cases h with
    | nothing =>
      rw [List.append_nil, List.append_nil]
      exact .valid hfront
    | opened h =>
      rw [strictFrom, h.held_eq, Nat.add_sub_cancel, List.append_nil]
      exact .incomplete rfl h
  | cons b rest ih =>
    cases h with
    | nothing =>
      rw [strictFrom]
      cases hlead : lead b with
      | char c =>
        have hrest := ih (run_char_behind hfront (.one hlead)) .nothing
        rwa [List.length_append, List.append_assoc] at hrest
      | opens p => exact ih hfront (.opened (.lead hlead))
      | invalid =>
        have hpart : run none ([b] ++ rest) =
            (replacement :: (run none rest).1, (run none rest).2) := by
          rw [List.singleton_append, run, step, begin, hlead]
          rfl
        exact .invalid rfl (congrArg Prod.snd hfront) hpart
    | @opened _ p h =>
      have hbehind : t ++ b :: rest = t ++ [b] ++ rest := by simp
      rw [strictFrom]
      by_cases ha : p.accepts b = true
      · rw [if_pos ha, hbehind]
        by_cases hm : p.missing = 1
        · have hrest := ih (run_char_behind hfront (h.path (.last ha hm))) .nothing
          rw [if_pos hm]
          rwa [List.length_append, List.length_append, List.append_assoc] at hrest
        · rw [if_neg hm]
          have hrest := ih hfront (.opened (h.more ha hm))
          rwa [List.length_append] at hrest
      · rw [if_neg ha, h.held_eq, Nat.add_sub_cancel]
        refine .invalid rfl (congrArg Prod.snd hfront) ?_
        rw [run_append, h.run Holds.start, run_refused ha]
        rfl

theorem strict_judged (bs : Bytes) : Judged bs (strict bs) := by
  have hnothing : run none [] = ("".toList, none) := rfl
  exact strictFrom_judged hnothing .nothing bs

theorem run_eq_lossy (h : (run none front).2 = none) :
    run none front = ((lossy front).toList, none) := by
  rw [toList_lossy, h, flush, List.append_nil]
  exact Prod.ext rfl h

theorem settle_eq_run (text : String) (bs : Bytes) :
    settle text bs = (text ++ String.ofList (run none bs).1, heldBack (run none bs).2) := by
  fun_induction settle text bs with
  | case1 text bs more hmore =>
    have hjudged := strict_judged bs
    rw [hmore] at hjudged
    cases hjudged with
    | valid h => rw [h, String.ofList_toList, heldBack]
  | case2 text bs index hindex =>
    have hjudged := strict_judged bs
    rw [hindex] at hjudged
    cases hjudged with
    | @incomplete front t p hbs ht =>
      subst hbs
      rw [run_unfinished ht, List.take_left, List.drop_left, String.ofList_toList, heldBack,
        ht.held_eq]
  | case3 text bs index length hindex ih =>
    have hjudged := strict_judged bs
    rw [hindex] at hjudged
    cases hjudged with
    | @invalid front part rest hbs hfront hpart =>
      subst hbs
      have hdrop : (front ++ (part ++ rest)).drop (front.length + part.length) = rest := by
        rw [← List.append_assoc, ← List.length_append, List.drop_left]
      rw [hdrop, List.take_left] at ih ⊢
      rw [ih, run_append, run_eq_lossy hfront, hpart]
      simp [← String.toList_inj]

theorem Holding.heldBack_eq (h : Holding t s) : heldBack s = t := by
  cases h with
  | nothing => rfl
  | opened h => exact h.held_eq

theorem Holding.run (h : Holding t s) (bs : Bytes) : run none (t ++ bs) = run s bs := by
  cases h with
  | nothing => rfl
  | opened h =>
    rw [run_append, h.run Holds.start]
    rfl

theorem holding_run (bs : Bytes) : Holding (heldBack (run none bs).2) (run none bs).2 := by
  cases hs : (Utf8.run none bs).2 with
  | none => exact .nothing
  | some p =>
    obtain ⟨front, t, -, ht⟩ := Holds.start.run bs p hs
    rw [heldBack, ht.held_eq]
    exact .opened ht

section Holding

variable (h : Holding t s)

include h

theorem Holding.behind (bs : Bytes) : Holding (heldBack (Utf8.run s bs).2) (Utf8.run s bs).2 := by
  rw [← h.run]
  exact holding_run _

theorem Holding.push (segment : Bytes) : push t segment =
    (nonempty (String.ofList (Utf8.run s segment).1), heldBack (Utf8.run s segment).2) := by
  rw [Utf8.push, settle_eq_run, h.run, String.empty_append]

theorem Holding.finish : finish t = (nonempty (String.ofList (flush s)), []) := by
  cases h with
  | nothing => rfl
  | opened h =>
    have htext : lossy t = String.ofList [replacement] := by
      rw [← String.toList_inj, toList_lossy, h.run Holds.start, String.toList_ofList]
      rfl
    rw [Utf8.finish, if_neg (by simpa using h.ne_nil), htext]
    rfl

end Holding

end HttpRelay.Utf8
