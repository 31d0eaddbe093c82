import HttpRelay.Proofs.Text.Settling

namespace HttpRelay.Utf8

variable {p : Pending} {t read : Bytes} {s : Carry}

def pushes (held : Bytes) : List Bytes → List String × Bytes
  | [] => ([], held)
  | segment :: segments =>
    let (text, next) := push held segment
    let (texts, last) := pushes next segments
    (text.toList ++ texts, last)

def decodeSegments (held : Bytes) (segments : List Bytes) : List String × Bytes :=
  let (texts, next) := pushes held segments
  let (text, last) := finish next
  (texts ++ text.toList, last)

structure Carried (read : Bytes) (out : String) (held : Bytes) : Prop where
  text : ∃ front, front ++ held = read ∧ out = lossy front
  short : held.length ≤ 3
  unfinished : held = [] ∨ Unfinished held
  decided : ∀ cs, (∀ more, cs <+: (lossy (read ++ more)).toList) ↔ cs <+: out.toList

theorem Opens.usual_of_last (h : Opens t p) (hm : p.missing = 1) :
    p.low = 0x80 ∧ p.high = 0xbf := by
  cases h with
  | @lead b _ h =>
    have hform := lead_form b
    rw [h] at hform
    cases hform with
    | two => exact ⟨rfl, rfl⟩
    | three => cases hm
    | four => cases hm
  | more => exact ⟨rfl, rfl⟩

theorem Opens.path_to_low (h : Opens t p) :
    ∃ more c, Path (some p) (more ++ [0x80]) c := by
  have hmissing := h.bounded.missing
  obtain ⟨n, hn⟩ : ∃ n, p.missing = n + 1 := ⟨p.missing - 1, by omega⟩
  induction n generalizing t p with
  | zero =>
    obtain ⟨hlow, hhigh⟩ := h.usual_of_last hn
    refine ⟨[], _, .last ?_ hn⟩
    rw [accepts_iff, hlow, hhigh]
    decide
  | succ n ih =>
    have ha : p.accepts p.low = true :=
      (accepts_iff p p.low).mpr ⟨Nat.le_refl _, h.bounded.range⟩
    have hm : p.missing ≠ 1 := by omega
    have hnext : (p.extend p.low).missing = n + 1 := by
      rw [Pending.extend]
      dsimp only
      omega
    obtain ⟨more, c, hpath⟩ := ih (h.more ha hm) (by omega) hnext
    exact ⟨p.low :: more, c, .more ha hm hpath⟩

theorem Opens.completes_otherwise (h : Opens t p) :
    ∃ more c, c ≠ replacement ∧ Path (some p) more c := by
  obtain ⟨more, c, hpath⟩ := h.path_to_low
  refine ⟨more ++ [0x80], c, ?_, hpath⟩
  rintro rfl
  have hencoded := encode_of_path (h.path hpath)
  have hreplacement : String.utf8EncodeChar replacement = [0xef, 0xbf] ++ [0xbd] := by decide
  rw [hreplacement, ← List.append_assoc] at hencoded
  have hlast := (List.append_inj' hencoded rfl).2
  cases hlast

theorem prefix_of_prefixes {cs ds : List Char} {c d : Char} (hc : cs <+: ds ++ [c])
    (hd : cs <+: ds ++ [d]) (hne : c ≠ d) : cs <+: ds := by
  rcases List.prefix_concat_iff.mp hc with rfl | h
  · rcases List.prefix_concat_iff.mp hd with heq | h
    · obtain rfl := List.singleton_inj.mp (List.append_cancel_left heq)
      exact absurd rfl hne
    · exact h
  · exact h

theorem carried_nil (hs : (run none read).2 = none) : Carried read (lossy read) [] where
  text := ⟨read, List.append_nil read, rfl⟩
  short := Nat.zero_le 3
  unfinished := .inl rfl
  decided cs := by
    constructor
    · intro h
      have hread := h []
      rwa [List.append_nil] at hread
    · intro h more
      apply h.trans
      rw [toList_lossy, hs, flush, List.append_nil, toList_lossy, run_append, List.append_assoc]
      exact List.prefix_append _ _

theorem Opens.carried (h : Opens t p) (front : Bytes) :
    Carried (front ++ t) (lossy front) t where
  text := ⟨front, rfl, rfl⟩
  short := h.length_le
  unfinished := .inr h.unfinished
  decided cs := by
    constructor
    · intro hcs
      obtain ⟨more, c, hne, hpath⟩ := h.completes_otherwise
      have hend := hcs []
      have hmore := hcs more
      rw [List.append_nil, toList_lossy, run_unfinished h] at hend
      rw [toList_lossy, run_append, run_unfinished h, run_path hpath, flush, List.append_nil]
        at hmore
      exact prefix_of_prefixes hmore hend hne
    · intro hcs more
      apply hcs.trans
      rw [toList_lossy (front ++ t ++ more), run_append, run_unfinished h, List.append_assoc]
      exact List.prefix_append _ _

theorem run_carried (read : Bytes) :
    Carried read (String.ofList (run none read).1) (heldBack (run none read).2) := by
  cases hs : (run none read).2 with
  | none =>
    have htext : String.ofList (run none read).1 = lossy read := by
      rw [← String.toList_inj, String.toList_ofList, toList_lossy, hs, flush, List.append_nil]
    rw [htext]
    exact carried_nil hs
  | some p =>
    obtain ⟨front, t, rfl, ht⟩ := Holds.start.run read p hs
    rw [run_unfinished ht, String.ofList_toList, heldBack, ht.held_eq]
    exact ht.carried front

theorem join_nonempty (text : String) : String.join (nonempty text).toList = text := by
  unfold nonempty
  by_cases h : text.isEmpty = true
  · rw [if_pos h, String.isEmpty_iff.mp h]
    rfl
  · rw [if_neg h]
    exact String.empty_append

theorem ne_of_mem_nonempty {text part : String} (h : part ∈ (nonempty text).toList) :
    part ≠ "" := by
  rintro rfl
  unfold nonempty at h
  by_cases he : text.isEmpty = true
  · rw [if_pos he] at h
    cases h
  · rw [if_neg he] at h
    obtain rfl := List.mem_singleton.mp h
    exact he rfl

theorem pushes_eq_run (h : Holding t s) (segments : List Bytes) :
    String.join (pushes t segments).1 = String.ofList (run s segments.flatten).1 ∧
      Holding (pushes t segments).2 (run s segments.flatten).2 := by
  induction segments generalizing t s with
  | nil => exact ⟨rfl, h⟩
  | cons segment segments ih =>
    obtain ⟨htexts, hlast⟩ := ih (h.behind segment)
    rw [List.flatten_cons, run_append, pushes, h.push]
    refine ⟨?_, hlast⟩
    dsimp only
    rw [String.join_append, join_nonempty, htexts, String.ofList_append]

theorem ne_of_mem_pushes {held : Bytes} {segments : List Bytes} {text : String}
    (h : text ∈ (pushes held segments).1) : text ≠ "" := by
  induction segments generalizing held with
  | nil => cases h
  | cons segment segments ih =>
    rcases List.mem_append.mp h with hfirst | hrest
    · exact ne_of_mem_nonempty hfirst
    · exact ih hrest

theorem join_decodeSegments (segments : List Bytes) :
    String.join (decodeSegments [] segments).1 = lossy segments.flatten := by
  obtain ⟨htexts, hlast⟩ := pushes_eq_run .nothing segments
  rw [decodeSegments]
  dsimp only
  rw [String.join_append, htexts, hlast.finish, join_nonempty, ← String.ofList_append,
    ← toList_lossy, String.ofList_toList]

theorem ne_of_mem_decodeSegments {segments : List Bytes} {text : String}
    (h : text ∈ (decodeSegments [] segments).1) : text ≠ "" := by
  rw [decodeSegments] at h
  dsimp only at h
  rw [(pushes_eq_run .nothing segments).2.finish] at h
  rcases List.mem_append.mp h with hpushed | hlast
  · exact ne_of_mem_pushes hpushed
  · exact ne_of_mem_nonempty hlast

theorem pushes_carried (segments : List Bytes) :
    Carried segments.flatten (String.join (pushes [] segments).1) (pushes [] segments).2 := by
  obtain ⟨htexts, hlast⟩ := pushes_eq_run .nothing segments
  rw [htexts, ← hlast.heldBack_eq]
  exact run_carried segments.flatten

theorem finish_clears (held : Bytes) : (finish held).2 = [] := by
  unfold finish
  split <;> rfl

/-- Decoding by segments is decoding the whole, wherever the cuts fall, and at each cut nothing
is held back that is already decided. -/
theorem segments_decoded (segments : List Bytes) :
    String.join (decodeSegments [] segments).1 = lossy segments.flatten ∧
      (∀ cs, Replaced segments.flatten cs ↔
        cs = (String.join (decodeSegments [] segments).1).toList) ∧
      (∀ text ∈ (decodeSegments [] segments).1, text ≠ "") ∧
      (∀ before, before <+: segments → Carried before.flatten
        (String.join (pushes [] before).1) (pushes [] before).2) ∧
      ∀ more, decodeSegments (decodeSegments [] segments).2 more = decodeSegments [] more := by
  refine ⟨join_decodeSegments segments, ?_, fun _ => ne_of_mem_decodeSegments,
    fun before _ => pushes_carried before, fun more => ?_⟩
  · intro cs
    rw [join_decodeSegments, replaced_iff]
  · exact congrArg (decodeSegments · more) (finish_clears _)

end HttpRelay.Utf8
