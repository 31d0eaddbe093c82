import Mathlib.Data.Nat.Init

/-!
Loops pass by pass. A loop that something bounds is left after so many passes, with the result that
its passes keep aiming at.
-/

namespace HttpRelay.Loop

inductive Pass (σ ρ : Type) where
  | again (next : σ)
  | leave (result : ρ)

variable {σ ρ : Type} {body : σ → Pass σ ρ} {size : σ → Nat} {aim : σ → ρ}

inductive Leaves (body : σ → Pass σ ρ) : Nat → σ → ρ → Prop
  | now {s : σ} {r : ρ} (h : body s = .leave r) : Leaves body 1 s r
  | later {n : Nat} {s t : σ} {r : ρ} (h : body s = .again t) (behind : Leaves body n t r) :
    Leaves body (n + 1) s r

def LeftWithin (body : σ → Pass σ ρ) (most : Nat) (s : σ) (r : ρ) : Prop :=
  ∃ n ≤ most, Leaves body n s r

structure Bounded (body : σ → Pass σ ρ) (size : σ → Nat) (aim : σ → ρ) : Prop where
  again : ∀ {s t}, body s = .again t → size t < size s ∧ aim t = aim s
  leave : ∀ {s r}, body s = .leave r → r = aim s

theorem Bounded.leftWithin (h : Bounded body size aim) (s : σ) :
    LeftWithin body (size s + 1) s (aim s) := by
  -- induction on what is left to do, which the passes share only by way of its size
  induction hsize : size s using Nat.strong_induction_on generalizing s with
  | _ left ih =>
    cases hpass : body s with
    | leave r =>
      obtain rfl := h.leave hpass
      exact ⟨1, Nat.le_add_left 1 left, .now hpass⟩
    | again t =>
      obtain ⟨hless, haim⟩ := h.again hpass
      obtain ⟨n, hn, hleaves⟩ := ih (size t) (hsize ▸ hless) t rfl
      rw [haim] at hleaves
      exact ⟨n + 1, by omega, .later hpass hleaves⟩

theorem LeftWithin.mono {most more : Nat} {s : σ} {r : ρ} (h : LeftWithin body most s r)
    (hle : most ≤ more) : LeftWithin body more s r := by
  obtain ⟨n, hn, hleaves⟩ := h
  exact ⟨n, Nat.le_trans hn hle, hleaves⟩

end HttpRelay.Loop
