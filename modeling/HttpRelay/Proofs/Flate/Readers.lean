import HttpRelay.Flate.Inflate

namespace HttpRelay.Flate

variable {α β : Type}

namespace Source

def followed (s : Source) (more : Bytes) : Source := ⟨s.bits, s.bytes ++ more⟩

variable {s t : Source} {more : Bytes}

theorem bit?_followed {b : Bool} (h : s.bit? = some (b, t)) :
    (s.followed more).bit? = some (b, t.followed more) := by
  unfold bit? at h
  split at h
  · obtain ⟨rfl, rfl⟩ := Prod.mk.inj (Option.some.inj h)
    rfl
  · obtain ⟨rfl, rfl⟩ := Prod.mk.inj (Option.some.inj h)
    rfl
  · cases h

theorem number?_followed {n v : Nat} (h : s.number? n = some (v, t)) :
    (s.followed more).number? n = some (v, t.followed more) := by
  induction n generalizing s v with
  | zero =>
    obtain ⟨rfl, rfl⟩ := Prod.mk.inj (Option.some.inj h)
    rfl
  | succ n ih =>
    rw [number?] at h ⊢
    cases hb : s.bit? with
    | none =>
      rw [hb] at h
      cases h
    | some r =>
      rw [hb] at h
      obtain ⟨q, hq, hv⟩ := Option.map_eq_some_iff.mp h
      obtain ⟨rfl, rfl⟩ := Prod.mk.inj hv
      rw [bit?_followed (t := r.2) hb]
      dsimp only
      rw [ih hq]
      rfl

end Source

structure Reader (read : Source → Except Halt (α × Source)) : Prop where
  keeps : ∀ {s t : Source} {v : α}, read s = .ok (v, t) → ∀ more : Bytes,
    read (s.followed more) = .ok (v, t.followed more)
  halts : ∀ s, read s ≠ .error .full

namespace Reader

variable {f : Source → Except Halt (α × Source)} {g : α × Source → Except Halt (β × Source)}

theorem pure (v : α) : Reader fun s => .ok (v, s) where
  keeps h more := by
    obtain ⟨rfl, rfl⟩ := Prod.mk.inj (Except.ok.inj h)
    rfl
  halts _ := nofun

theorem fault {e : Halt} (h : e ≠ .full) : Reader fun _ => (.error e : Except Halt (α × Source)) where
  keeps h := nomatch h
  halts _ hfull := h (Except.error.inj hfull)

theorem bind (hf : Reader f) (hg : ∀ v, Reader fun s => g (v, s)) :
    Reader fun s => f s >>= g where
  keeps {s t v} h more := by
    cases hr : f s with
    | error e =>
      rw [hr] at h
      cases h
    | ok r =>
      rw [hr] at h
      rw [hf.keeps (t := r.2) hr]
      exact (hg r.1).keeps h more
  halts s h := by
    cases hr : f s with
    | error e =>
      rw [hr] at h
      rw [Except.error.inj h] at hr
      exact hf.halts s hr
    | ok r =>
      rw [hr] at h
      exact (hg r.1).halts r.2 h

theorem ite {c : Prop} [Decidable c] {f g : Source → Except Halt (α × Source)} (hf : Reader f)
    (hg : Reader g) : Reader fun s => if c then f s else g s := by
  by_cases hc : c
  · simpa only [if_pos hc] using hf
  · simpa only [if_neg hc] using hg

theorem bit {g : Bool → Source → Except Halt (α × Source)} (hg : ∀ b, Reader (g b)) :
    Reader fun s => match s.bit? with
      | none => .error .incomplete
      | some (b, s) => g b s where
  keeps {s t v} h more := by
    cases hb : s.bit? with
    | none =>
      rw [hb] at h
      cases h
    | some r =>
      rw [hb] at h
      rw [Source.bit?_followed (t := r.2) hb]
      exact (hg r.1).keeps h more
  halts s h := by
    cases hb : s.bit? with
    | none =>
      rw [hb] at h
      cases h
    | some r =>
      rw [hb] at h
      exact (hg r.1).halts r.2 h

end Reader

theorem Huffman.reader_walk (symbols : Array Nat) (word first index : Nat) (counts : List Nat) :
    Reader fun s => walk symbols word first index s counts := by
  induction counts generalizing word first index with
  | nil => exact Reader.fault (by decide)
  | cons count rest ih =>
    apply Reader.bit
    intro b
    dsimp only
    split
    · exact Reader.pure _
    · exact ih _ _ _

theorem Huffman.reader_read (h : Huffman) : Reader h.read := reader_walk h.symbols 0 0 0 h.counts

namespace Inflate

theorem reader_number (n : Nat) (f : Nat → α) : Reader fun s => number s n f where
  keeps {s t v} h more := by
    unfold number at h ⊢
    cases hn : s.number? n with
    | none =>
      rw [hn] at h
      cases h
    | some r =>
      rw [hn] at h
      obtain ⟨rfl, rfl⟩ := Prod.mk.inj (Except.ok.inj h)
      rw [Source.number?_followed (t := r.2) hn]
  halts s h := by
    unfold number at h
    split at h <;> cases h

theorem reader_extended (codes : Array (Nat × Nat)) (symbol : Nat) :
    Reader (extended codes symbol) := by
  unfold extended
  cases codes[symbol]? with
  | none => exact Reader.fault (by decide)
  | some code => exact reader_number _ _

theorem repetition_eq (distances : Huffman) (symbol : Nat) (s : Source) :
    repetition distances symbol s = (do
      let (length, s) ← extended lengthCodes (symbol - 257) s
      let (d, s) ← distances.read s
      let (distance, s) ← extended distanceCodes d s
      pure (.repetition length distance, s)) := by
  unfold repetition
  cases extended lengthCodes (symbol - 257) s with
  | error e => rfl
  | ok length =>
    dsimp only [bind, Except.bind]
    cases distances.read length.2 with
    | error e => rfl
    | ok d =>
      dsimp only
      cases extended distanceCodes d.1 d.2 <;> rfl

theorem reader_repetition (distances : Huffman) (symbol : Nat) :
    Reader (repetition distances symbol) := by
  rw [funext (repetition_eq distances symbol)]
  apply Reader.bind (reader_extended lengthCodes _)
  intro length
  apply Reader.bind distances.reader_read
  intro d
  apply Reader.bind (reader_extended distanceCodes d)
  intro distance
  exact Reader.pure (Token.repetition length distance)

theorem token_eq (literals distances : Huffman) (s : Source) : token literals distances s = (do
    let (symbol, s) ← literals.read s
    if symbol < 256 then pure (.literal symbol.toUInt8, s)
    else if symbol = 256 then pure (.blockEnd, s)
    else repetition distances symbol s) := by
  unfold token
  cases literals.read s <;> rfl

theorem reader_token (literals distances : Huffman) : Reader (token literals distances) := by
  rw [funext (token_eq literals distances)]
  apply Reader.bind literals.reader_read
  intro symbol
  have hlong := Reader.ite (c := symbol = 256) (Reader.pure Token.blockEnd)
    (reader_repetition distances symbol)
  exact Reader.ite (c := symbol < 256) (Reader.pure (Token.literal symbol.toUInt8)) hlong

theorem reader_shortLengths (n : Nat) : Reader fun s => shortLengths s n := by
  induction n with
  | zero => exact Reader.pure []
  | succ n ih =>
    apply Reader.bind (reader_number 3 id)
    intro v
    apply Reader.bind ih
    intro vs
    exact Reader.pure (v :: vs)

theorem reader_lengthRun (previous : Option Nat) (symbol : Nat) :
    Reader (lengthRun previous symbol) := by
  apply Reader.ite (Reader.pure (symbol, 1))
  refine Reader.ite ?_ (Reader.ite (reader_number 3 _) (reader_number 7 _))
  cases previous with
  | none => exact Reader.fault (by decide)
  | some l => exact reader_number 2 _

theorem reader_codeLengths (code : Huffman) (wanted : Nat) (held : List Nat) :
    Reader (codeLengths code wanted held) where
  keeps {s t v} h more := by
    fun_induction codeLengths code wanted held s with
    | case1 held s hw he =>
      obtain ⟨rfl, rfl⟩ := Prod.mk.inj (Except.ok.inj h)
      rw [codeLengths, if_pos hw, if_pos he]
    | case2 => cases h
    | case3 => cases h
    | case4 => cases h
    | case5 held s hw symbol s' hr l n s'' hl ih =>
      rw [codeLengths, if_neg hw]
      split <;> rename_i hr'
      all_goals rw [code.reader_read.keeps hr] at hr'
      · cases hr'
      · obtain ⟨rfl, rfl⟩ := Prod.mk.inj (Except.ok.inj hr')
        split <;> rename_i hl'
        all_goals rw [(reader_lengthRun _ _).keeps hl] at hl'
        · cases hl'
        · cases hl'
          exact ih h
  halts s h := by
    fun_induction codeLengths code wanted held s with
    | case1 => cases h
    | case2 => cases h
    | case3 held s hw e hr =>
      rw [Except.error.inj h] at hr
      exact code.reader_read.halts s hr
    | case4 held s hw symbol s' hr e hl =>
      rw [Except.error.inj h] at hl
      exact (reader_lengthRun _ _).halts s' hl
    | case5 _ _ _ _ _ _ _ _ _ _ ih => exact ih h

theorem reader_blockHead : Reader blockHead := reader_number 3 _

theorem reader_readCodes : Reader readCodes := by
  apply Reader.bind (reader_number 5 _)
  intro literals
  apply Reader.bind (reader_number 5 _)
  intro distances
  apply Reader.bind (reader_number 4 _)
  intro lengths
  refine Reader.ite (Reader.fault (by decide)) ?_
  apply Reader.bind (reader_shortLengths lengths)
  intro short
  refine Reader.ite (Reader.fault (by decide)) ?_
  apply Reader.bind (reader_codeLengths _ _ [])
  intro all
  exact Reader.ite (Reader.pure _) (Reader.fault (by decide))

theorem tokens_eq (bound : Nat) (literals distances : Huffman) (output : ByteArray) (s : Source) :
    tokens bound literals distances output s =
      match token literals distances s with
      | .error e => .error ⟨e, output.size⟩
      | .ok (.literal b, t) =>
        if bound ≤ output.size then .error ⟨.full, output.size⟩
        else tokens bound literals distances (output.push b) t
      | .ok (.repetition length distance, t) =>
        if bound < output.size + length then .error ⟨.full, output.size⟩
        else tokens bound literals distances (copy output distance length) t
      | .ok (.blockEnd, t) => .ok ⟨output, t⟩ := by
  rw [tokens]
  split <;> rename_i h <;> rw [h]

theorem blocks_eq (bound : Nat) (output : ByteArray) (s : Source) :
    blocks bound output s =
      match blockHead s with
      | .error e => .error ⟨e, output.size⟩
      | .ok ((last, kind), t) =>
        block bound kind output t >>= fun p =>
          if last then .ok p else blocks bound p.output p.source := by
  rw [blocks]
  split <;> rename_i h <;> rw [h]
  dsimp only
  split <;> rename_i h' <;> rw [h'] <;> rfl

end Inflate

end HttpRelay.Flate
