import HttpRelay.Failure

namespace HttpRelay

def fault? {ε α : Type} : Except ε α → Option ε
  | .error e => some e
  | .ok _ => none

section

variable {ε φ α β : Type} {r s : Except ε α}

@[simp] theorem fault?_map (r : Except ε α) (f : α → β) : fault? (r.map f) = fault? r := by
  cases r <;> rfl

theorem fault?_map_congr (h : fault? r = fault? s) (f : α → β) :
    fault? (r.map f) = fault? (s.map f) := by
  rw [fault?_map, fault?_map, h]

@[simp] theorem fault?_mapError (r : Except ε α) (f : ε → φ) :
    fault? (r.mapError f) = (fault? r).map f := by
  cases r <;> rfl

theorem exists_of_bind {f : α → Except ε β} {b : β} (h : r >>= f = .ok b) :
    ∃ a, r = .ok a ∧ f a = .ok b := by
  cases r with
  | error e => cases h
  | ok a => exact ⟨a, rfl, h⟩

theorem map_eq_ok_iff {f : α → β} {b : β} : r.map f = .ok b ↔ ∃ a, r = .ok a ∧ f a = b := by
  cases r with
  | error e => exact iff_of_false nofun (by rintro ⟨_, ⟨⟩, _⟩)
  | ok a => simp [Except.map]

theorem isOk_bind {f : α → Except ε β} (h : (r >>= f).isOk = true) :
    ∃ a, r = .ok a ∧ (f a).isOk = true := by
  cases r with
  | error e => cases h
  | ok a => exact ⟨a, rfl, h⟩

theorem fault?_bind (r : Except ε α) {f g : α → Except ε β}
    (h : ∀ a, fault? (f a) = fault? (g a)) : fault? (r >>= f) = fault? (r >>= g) := by
  cases r with
  | error e => rfl
  | ok a => exact h a

theorem fault?_eq_some {e : ε} : fault? r = some e ↔ r = .error e := by
  cases r <;> simp [fault?]

theorem isOk_eq_fault? (r : Except ε α) : r.isOk = (fault? r).isNone := by
  cases r <;> rfl

end

end HttpRelay
