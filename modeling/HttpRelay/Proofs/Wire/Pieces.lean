import HttpRelay.Wire.Peer

namespace HttpRelay.Arrival

variable {p : Bytes} {ps qs : List Bytes} {later : List Arrival}

def bytes : Arrival → Bytes
  | data bytes _ => bytes
  | fault _ => []

@[simp]
theorem pieces_nil : pieces [] = [] := rfl

@[simp]
theorem pieces_nil_cons (ps : List Bytes) : pieces ([] :: ps) = pieces ps := rfl

theorem pieces_cons (hp : p ≠ []) (ps : List Bytes) :
    pieces (p :: ps) = .data p hp :: pieces ps :=
  List.filterMap_cons_some (dif_neg hp)

theorem pieces_of_flatten (h : ps.flatten = []) : pieces ps = [] := by
  refine List.filterMap_eq_nil_iff.mpr fun p hp => ?_
  rw [List.flatten_eq_nil_iff.mp h p hp]
  rfl

theorem flatten_bytes_pieces (ps : List Bytes) : ((pieces ps).map bytes).flatten = ps.flatten := by
  induction ps with
  | nil => rfl
  | cons p ps ih =>
    by_cases hp : p = []
    · subst hp
      exact ih
    · rw [pieces_cons hp, List.map_cons, List.flatten_cons, ih]
      rfl

theorem pieces_eq_append (h : pieces ps = pieces qs ++ later) :
    ∃ rs, ps.flatten = qs.flatten ++ rs.flatten ∧ later = pieces rs := by
  obtain ⟨read, rs, rfl, hread, hrest⟩ := List.filterMap_eq_append_iff.mp h
  have hflatten : read.flatten = qs.flatten := by
    rw [← flatten_bytes_pieces, ← flatten_bytes_pieces qs]
    exact congrArg (fun as => (as.map bytes).flatten) hread
  exact ⟨rs, by rw [List.flatten_append, hflatten], hrest.symm⟩

end HttpRelay.Arrival
