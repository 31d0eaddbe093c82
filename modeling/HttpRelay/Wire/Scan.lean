import HttpRelay.Text.Utf8

/-!
Scanners that read bytes one at a time until they accept or refuse the input. A scanner that
has seen part of its input goes on from the state it reached.
-/

namespace HttpRelay.Wire

inductive Verdict (σ α ε : Type) where
  | next (state : σ)
  | accept (value : α)
  | refuse (cause : ε)

inductive Scan (σ α ε : Type) where
  | done (value : α) (rest : Bytes)
  | more (state : σ)
  | bad (cause : ε)

variable {σ α ε : Type}

def scan (step : σ → UInt8 → Verdict σ α ε) (s : σ) : Bytes → Scan σ α ε
  | [] => .more s
  | b :: rest =>
    match step s b with
    | .next t => scan step t rest
    | .accept a => .done a rest
    | .refuse e => .bad e

theorem scan_rest_length {step : σ → UInt8 → Verdict σ α ε} {s : σ} {bs : Bytes} {a : α}
    {rest : Bytes} (h : scan step s bs = .done a rest) : rest.length < bs.length := by
  induction bs generalizing s with
  | nil => simp [scan] at h
  | cons b tail ih =>
    simp only [scan] at h
    split at h
    · have := ih h
      simp only [List.length_cons]
      omega
    · simp only [Scan.done.injEq] at h
      simp [h.2]
    · simp at h

end HttpRelay.Wire
