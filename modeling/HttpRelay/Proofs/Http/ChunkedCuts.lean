import HttpRelay.Proofs.Http.ChunkedFeeds

namespace HttpRelay.Chunked

def push : BodyEvent → List BodyEvent → List BodyEvent
  | .data x, .data y :: es => .data (x ++ y) :: es
  | v, es => v :: es

def merge (es : List BodyEvent) : List BodyEvent := es.foldr push []

theorem push_push (x y : Bytes) (es : List BodyEvent) :
    push (.data x) (push (.data y) es) = push (.data (x ++ y)) es := by
  cases es with
  | nil => rfl
  | cons v es => cases v <;> simp [push]

theorem foldr_push_atoms {bs : Bytes} (h : bs ≠ []) (es : List BodyEvent) :
    (atoms (.data bs)).foldr push es = push (.data bs) es := by
  induction bs with
  | nil => exact absurd (Eq.refl _) h
  | cons x bs ih =>
    by_cases hb : bs = []
    · subst hb
      rfl
    · have := ih hb
      simp only [atoms, List.map_cons, List.foldr_cons] at this ⊢
      rw [this, push_push]
      rfl

theorem merge_bytewise {es : List BodyEvent} (h : ∀ bs, .data bs ∈ es → bs ≠ []) :
    merge (bytewise es) = merge es := by
  induction es with
  | nil => rfl
  | cons v es ih =>
    have := ih fun bs hb => h bs (List.mem_cons_of_mem v hb)
    simp only [merge, bytewise, List.flatMap_cons, List.foldr_append, List.foldr_cons] at this ⊢
    rw [this]
    cases v with
    | data bs => exact foldr_push_atoms (h bs List.mem_cons_self) _
    | _ => rfl

inductive Ending where
  | complete (left : Bytes)
  | waiting
  | malformed
deriving DecidableEq, Repr

def Drained.ending (d : Drained) : Ending :=
  match d.fault with
  | some _ => .malformed
  | none => if d.state = .done then .complete d.buffer else .waiting

theorem Drained.Same.ending {d e : Drained} (h : d.Same e) : d.ending = e.ending := by
  have hs := h.standing
  simp only [Drained.standing, Drained.ending] at hs ⊢
  cases hd : d.fault <;> cases he : e.fault <;> simp_all

/-- Whatever the cuts between feeds, the events are the same up to cuts in their data, and so is
the end. -/
theorem feed_independent_of_cuts {w : Bytes} {ps qs : List Bytes} (hp : ps.flatten = w)
    (hq : qs.flatten = w)
    (hl : ∀ f, (feed .size [] (singles w)).fault = some f → f.isLimit = false) :
    merge (feed .size [] ps).events = merge (feed .size [] qs).events ∧
      (feed .size [] ps).ending = (feed .size [] qs).ending := by
  have key : ∀ rs : List Bytes, rs.flatten = w →
      (feed .size [] rs).Same (drain .size w) := by
    rintro rs rfl
    exact feed_same_drain trivial settled_start
      (feed_of_singles trivial settled_start (standing_ne_of_fault hl))
  have hm : ∀ rs : List Bytes, merge (bytewise (feed .size [] rs).events) =
      merge (feed .size [] rs).events := fun rs =>
    merge_bytewise fun bs => feed_data_ne_nil (s := .size) trivial
  have same := (key ps hp).trans (key qs hq).symm
  refine ⟨?_, same.ending⟩
  rw [← hm ps, same.events, hm qs]

def sample : Bytes := "2;a\r\nhi\r\n1\r\n!\r\n0\r\nt: u\r\n\r\n?".toUTF8.toList

theorem feed_sample_cuts :
    ([sample.take 4, sample.drop 4].flatten = sample ∧
      [sample.take 6, (sample.drop 6).take 9, sample.drop 15].flatten = sample ∧
      ∀ f, (feed .size [] (singles sample)).fault = some f → f.isLimit = false) ∧
    merge (feed .size [] [sample.take 4, sample.drop 4]).events =
      merge (feed .size [] [sample.take 6, (sample.drop 6).take 9, sample.drop 15]).events ∧
    (feed .size [] [sample.take 4, sample.drop 4]).ending =
      (feed .size [] [sample.take 6, (sample.drop 6).take 9, sample.drop 15]).ending := by
  have hl : ∀ f, (feed .size [] (singles sample)).fault = some f → f.isLimit = false := by
    have hnone : (feed .size [] (singles sample)).fault = none := by decide +kernel
    intro f hf
    rw [hnone] at hf
    cases hf
  have hp : [sample.take 4, sample.drop 4].flatten = sample := by decide +kernel
  have hq : [sample.take 6, (sample.drop 6).take 9, sample.drop 15].flatten = sample := by
    decide +kernel
  exact ⟨⟨hp, hq, hl⟩, feed_independent_of_cuts hp hq hl⟩

end HttpRelay.Chunked
