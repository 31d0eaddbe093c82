import HttpRelay.Flate.Bounded
import HttpRelay.Proofs.Flate.Readers
import HttpRelay.Proofs.Outcomes

namespace HttpRelay.Flate

variable {bound : Nat} {output : ByteArray} {bs : Bytes} {s : Source} {p : Progress}

def Progress.followed (p : Progress) (more : Bytes) : Progress :=
  ⟨p.output, p.source.followed more⟩

namespace Inflate

theorem tokens_followed {literals distances : Huffman}
    (h : tokens bound literals distances output s = .ok p) (more : Bytes) :
    tokens bound literals distances output (s.followed more) = .ok (p.followed more) := by
  have hread := reader_token literals distances
  fun_induction tokens bound literals distances output s with
  | case1 => cases h
  | case2 => cases h
  | case3 output s b t ht hroom ih =>
    rw [tokens_eq, hread.keeps ht more]
    dsimp only
    rw [if_neg hroom, ih h]
  | case4 => cases h
  | case5 output s length distance t ht hroom ih =>
    rw [tokens_eq, hread.keeps ht more]
    dsimp only
    rw [if_neg hroom, ih h]
  | case6 output s t ht =>
    rw [tokens_eq, hread.keeps ht more, ← Except.ok.inj h]
    rfl

theorem stored_followed {n : Nat} (h : stored bound output n bs = .ok p) (more : Bytes) :
    stored bound output n (bs ++ more) = .ok (p.followed more) := by
  fun_induction stored bound output n bs with
  | case1 =>
    rw [← Except.ok.inj h]
    rfl
  | case2 => cases h
  | case3 => cases h
  | case4 output n b bs hroom ih =>
    rw [List.cons_append, stored, if_neg hroom, ih h]

theorem storedBlock_followed (h : storedBlock bound output s = .ok p) (more : Bytes) :
    storedBlock bound output (s.followed more) = .ok (p.followed more) := by
  unfold storedBlock at h
  split at h
  · rename_i a b c d rest hbytes
    have hmore : (s.followed more).align.bytes = a :: b :: c :: d :: (rest ++ more) :=
      congrArg (· ++ more) hbytes
    split at h
    · rename_i hlengths
      rw [storedBlock, hmore]
      dsimp only
      rw [if_pos hlengths, stored_followed h]
    · cases h
  · cases h

theorem block_followed {kind : Nat} (h : block bound kind output s = .ok p) (more : Bytes) :
    block bound kind output (s.followed more) = .ok (p.followed more) := by
  unfold block at h ⊢
  split at h
  · exact storedBlock_followed h more
  · exact tokens_followed h more
  · split at h
    · cases h
    · rename_i codes
      rw [reader_readCodes.keeps codes]
      exact tokens_followed h more
  · cases h

theorem blocks_followed (h : blocks bound output s = .ok p) (more : Bytes) :
    blocks bound output (s.followed more) = .ok (p.followed more) := by
  fun_induction blocks bound output s with
  | case1 => cases h
  | case2 => cases h
  | case3 output s kind t q hblock hhead =>
    rw [blocks_eq, reader_blockHead.keeps hhead]
    dsimp only
    rw [block_followed hblock, ← Except.ok.inj h]
    rfl
  | case4 output s last kind t hhead q hblock hlast ih =>
    rw [blocks_eq, reader_blockHead.keeps hhead]
    dsimp only
    rw [block_followed hblock, ← ih h]
    exact if_neg hlast

end Inflate

theorem inflate_append {rest : Bytes} (h : inflate bound bs = .ok (output, rest)) (more : Bytes) :
    inflate bound (bs ++ more) = .ok (output, rest ++ more) := by
  unfold inflate at h ⊢
  cases hp : Inflate.blocks bound .empty (.ofBytes bs) with
  | error e =>
    rw [hp] at h
    cases h
  | ok p =>
    rw [hp] at h
    have hmore := Inflate.blocks_followed hp more
    obtain ⟨rfl, rfl⟩ := Prod.mk.inj (Except.ok.inj h)
    exact congrArg (Except.map _) hmore

theorem inflateUpTo_append {limit : Nat} {rest : Bytes}
    (h : inflateUpTo limit bs = .ok (output, rest)) (more : Bytes) :
    inflateUpTo limit (bs ++ more) = .ok (output, rest ++ more) := by
  unfold inflateUpTo at h ⊢
  cases hi : inflate (HttpRelay.Flate.bound limit) bs with
  | error e =>
    rw [hi] at h
    cases h
  | ok r =>
    rw [hi] at h
    obtain rfl := Except.ok.inj h
    rw [inflate_append hi more]
    rfl

namespace Gzip

def Keeps (skip : Bytes → Except Fault Bytes) : Prop :=
  ∀ {bs rest}, skip bs = .ok rest → ∀ more, skip (bs ++ more) = .ok (rest ++ more)

theorem keeps_text (size : Nat) : Keeps (skipText size) := by
  intro bs rest h more
  fun_induction skipText size bs with
  | case1 => cases h
  | case2 size bs =>
    rw [List.cons_append, skipText, if_pos rfl, Except.ok.inj h]
  | case3 => cases h
  | case4 size b bs hb hsize ih =>
    rw [List.cons_append, skipText, if_neg hb, if_neg hsize, ih h]

theorem keeps_extra : Keeps skipExtra := by
  intro bs rest h more
  unfold skipExtra at h
  split at h
  · rename_i a b bs
    dsimp only at h
    split at h
    · cases h
    · rename_i hlength
      rw [List.cons_append, List.cons_append, skipExtra, ← Except.ok.inj h,
        List.drop_append_of_le_length (by omega)]
      exact if_neg (by rw [List.length_append]; omega)
  · cases h

theorem keeps_optional {flags mask : UInt8} {skip : Bytes → Except Fault Bytes}
    (hskip : Keeps skip) : Keeps (optional flags mask skip) := by
  intro bs rest h more
  unfold optional at h ⊢
  split at h
  · rename_i habsent
    rw [if_pos habsent, Except.ok.inj h]
  · rename_i hpresent
    rw [if_neg hpresent, hskip h]

theorem checkHeader_append {whole rest : Bytes} (h : checkHeader whole bs = .ok rest)
    (more : Bytes) : checkHeader (whole ++ more) (bs ++ more) = .ok (rest ++ more) := by
  have hlength : (whole ++ more).length - (bs ++ more).length = whole.length - bs.length := by
    simp only [List.length_append]
    omega
  have htake : (whole ++ more).take (whole.length - bs.length) =
      whole.take (whole.length - bs.length) := List.take_append_of_le_length (by omega)
  unfold checkHeader at h
  split at h
  · dsimp only at h
    split at h
    · rename_i hsum
      rw [checkHeader.eq_def]
      dsimp only [List.cons_append] at hlength ⊢
      rw [hlength, htake, if_pos hsum, Except.ok.inj h]
    · cases h
  · cases h

theorem skipHeader_append {rest : Bytes} (h : skipHeader bs = .ok rest) (more : Bytes) :
    skipHeader (bs ++ more) = .ok (rest ++ more) := by
  unfold skipHeader at h
  split at h
  · rename_i id₁ id₂ method flags _ _ _ _ _ _ fields
    split at h
    · cases h
    · rename_i hsound
      obtain ⟨afterExtra, hextra, h⟩ := exists_of_bind h
      obtain ⟨afterName, hname, h⟩ := exists_of_bind h
      obtain ⟨afterComment, hcomment, h⟩ := exists_of_bind h
      simp only [skipHeader, List.cons_append]
      rw [if_neg hsound, keeps_optional keeps_extra hextra]
      dsimp only [bind, Except.bind]
      rw [keeps_optional (keeps_text 0) hname]
      dsimp only
      rw [keeps_optional (keeps_text 0) hcomment]
      dsimp only
      unfold optional at h ⊢
      split at h
      · rename_i habsent
        rw [if_pos habsent, Except.ok.inj h]
      · rename_i hpresent
        rw [if_neg hpresent]
        exact checkHeader_append h more
  · cases h

theorem checkTrailer_append {trailer : Bytes} (h : checkTrailer output trailer = .ok ())
    (more : Bytes) : checkTrailer output (trailer ++ more) = .ok () := by
  unfold checkTrailer at h
  split at h
  · cases h
  · rename_i hlength
    have hsum : (trailer ++ more).take 4 = trailer.take 4 :=
      List.take_append_of_le_length (by omega)
    have hsize : ((trailer ++ more).drop 4).take 4 = (trailer.drop 4).take 4 := by
      rw [List.drop_append_of_le_length (by omega),
        List.take_append_of_le_length (by rw [List.length_drop]; omega)]
    rw [checkTrailer, hsum, hsize, if_neg (by rw [List.length_append]; omega)]
    exact h

theorem unwrap_append {limit : Nat} (h : unwrap limit bs = .ok output) (more : Bytes) :
    unwrap limit (bs ++ more) = .ok output := by
  obtain ⟨rest, hheader, h⟩ := exists_of_bind h
  obtain ⟨⟨inflated, trailer⟩, hinflate, h⟩ := exists_of_bind h
  obtain ⟨_, hwithin, h⟩ := exists_of_bind h
  obtain ⟨⟨⟩, htrailer, h⟩ := exists_of_bind h
  obtain rfl := Except.ok.inj h
  rw [unwrap, skipHeader_append hheader]
  dsimp only [bind, Except.bind]
  rw [inflateUpTo_append hinflate]
  dsimp only
  rw [hwithin]
  dsimp only
  rw [checkTrailer_append htrailer]
  rfl

end Gzip

end HttpRelay.Flate
