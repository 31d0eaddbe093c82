import HttpRelay.Flate.Bounded
import HttpRelay.Proofs.Flate.Room
import HttpRelay.Proofs.Outcomes

/-!
What a limit does to decompressing: data hands out so many bytes and then has an answer, and a
limit either leaves the answer as it is or is passed before.
-/

namespace HttpRelay.Flate

variable {α β : Type} {start size limit : Nat} {output : ByteArray}

/-- How much of what has come out was handed out when a fault takes back the rest. -/
def flushed (n : Nat) : Nat := (n - 1) / window * window

theorem flushed_le (n : Nat) : flushed n ≤ n := by
  have := Nat.div_mul_le_self (n - 1) window
  rw [flushed]
  omega

theorem le_bound_iff {n : Nat} : n ≤ bound limit ↔ flushed n ≤ limit := by
  simp only [bound, flushed, window]
  omega

theorem within_bind {f : ByteArray → Except Fault α} : within limit output >>= f =
    if limit < output.size then .error (.tooLarge limit) else f output := by
  unfold within
  split <;> rfl

def Blameless (r : Except Fault α) : Prop := ∀ n, r ≠ .error (.tooLarge n)

namespace Blameless

theorem ok (v : α) : Blameless (.ok v) := fun _ => nofun

theorem fault {e : Fault} (h : ∀ n, e ≠ .tooLarge n) : Blameless (.error e : Except Fault α) :=
  fun n hn => h n (Except.error.inj hn)

theorem bind {r : Except Fault α} {f : α → Except Fault β} (hr : Blameless r)
    (hf : ∀ v, Blameless (f v)) : Blameless (r >>= f) := by
  cases r with
  | error e => exact fault fun n hn => hr n (congrArg Except.error hn)
  | ok v => exact hf v

end Blameless

structure Capped (start : Nat) (decoder : Nat → Except Fault ByteArray) (size : Nat)
    (answer : Except Fault ByteArray) : Prop where
  grows : start ≤ size
  blameless : Blameless answer
  output : ∀ output, answer = .ok output → output.size = size
  within : ∀ limit, size ≤ limit → decoder limit = answer
  beyond : ∀ limit, start ≤ limit → limit < size → decoder limit = .error (.tooLarge limit)

namespace Capped

variable {decoder : Nat → Except Fault ByteArray} {answer : Except Fault ByteArray}

theorem fault (start : Nat) {e : Fault} (h : ∀ n, e ≠ .tooLarge n) :
    Capped start (fun _ => .error e) start (.error e) where
  grows := Nat.le_refl _
  blameless := .fault h
  output _ := nofun
  within _ _ := rfl
  beyond _ hstart hlimit := absurd hstart (Nat.not_le_of_lt hlimit)

theorem measured (output : ByteArray) {answer : Except Fault ByteArray} (h : Blameless answer)
    (hsame : ∀ o, answer = .ok o → o = output) :
    Capped (flushed output.size)
      (fun limit => if limit < output.size then .error (.tooLarge limit) else answer)
      output.size answer where
  grows := flushed_le _
  blameless := h
  output o ho := congrArg ByteArray.size (hsame o ho)
  within _ hlimit := if_neg (Nat.not_lt_of_le hlimit)
  beyond _ _ hlimit := if_pos hlimit

theorem within_output (output : ByteArray) :
    Capped (flushed output.size) (Flate.within · output) output.size (.ok output) :=
  measured output (.ok output) fun _ ho => (Except.ok.inj ho).symm

theorem stopped {e : Stopped} (h : e.halt ≠ .full) : ∃ size answer,
    Capped (flushed e.size) (fun limit => .error (e.fault limit)) size answer := by
  obtain ⟨halt, n⟩ := e
  cases halt with
  | full => exact absurd rfl h
  | corrupt => exact ⟨_, _, fault (flushed n) nofun⟩
  | incomplete =>
    refine ⟨n, .error .incomplete, flushed_le n, .fault nofun, nofun, fun limit hlimit => ?_,
      fun limit _ hlimit => ?_⟩
    · simp only [Stopped.fault, if_neg (Nat.not_lt_of_le hlimit)]
    · simp only [Stopped.fault, if_pos hlimit]

theorem inflate (bs : Bytes) {finish : ByteArray × Bytes → Nat → Except Fault ByteArray}
    (hfinish : ∀ v, ∃ size answer, Capped (flushed v.1.size) (finish v) size answer) :
    ∃ size answer, Capped 0 (fun limit => inflateUpTo limit bs >>= fun v => finish v limit)
      size answer := by
  obtain ⟨r, hr⟩ := ends_inflate bs
  have hrest : ∃ size answer, Capped (flushed (produced (fun v => v.1.size) r))
      (fun limit => r.mapError (·.fault limit) >>= fun v => finish v limit) size answer := by
    cases r with
    | ok v => exact hfinish v
    | error e => exact stopped fun hfull => hr.settled e.size (by rw [← hfull])
  obtain ⟨size, answer, h⟩ := hrest
  refine ⟨size, answer, Nat.zero_le _, h.blameless, h.output, fun limit hlimit => ?_,
    fun limit _ hlimit => ?_⟩
  · have hroom := le_bound_iff.mpr (Nat.le_trans h.grows hlimit)
    rw [inflateUpTo, hr.fits _ hroom]
    exact h.within limit hlimit
  -- the bound lies behind the limit, so what has room may still go over the limit
  · by_cases hroom : produced (fun v : ByteArray × Bytes => v.1.size) r ≤ bound limit
    · rw [inflateUpTo, hr.fits _ hroom]
      exact h.beyond limit (le_bound_iff.mp hroom) hlimit
    · obtain ⟨n, hn⟩ := hr.cut _ (Nat.zero_le _) (Nat.lt_of_not_le hroom)
      rw [inflateUpTo, hn]
      rfl

theorem blamesLimit_iff (h : Capped 0 decoder size answer) :
    blamesLimit (decoder limit) = true ↔ limit < size := by
  by_cases hsize : size ≤ limit
  · rw [h.within limit hsize]
    refine iff_of_false (fun hblames => ?_) (Nat.not_lt_of_le hsize)
    unfold blamesLimit at hblames
    split at hblames
    · exact h.blameless _ rfl
    · cases hblames
  · rw [h.beyond limit (Nat.zero_le _) (Nat.lt_of_not_le hsize)]
    exact iff_of_true rfl (Nat.lt_of_not_le hsize)

variable {unwrap : Nat → Bytes → Except Fault ByteArray}
  (hunwrap : ∀ bs, ∃ size answer, Capped 0 (unwrap · bs) size answer)

include hunwrap

theorem any_blamesLimit (parts : List Bytes) : ∃ most, ∀ limit,
    (parts.any fun part => blamesLimit (unwrap limit part)) = true ↔ limit < most := by
  induction parts with
  | nil => exact ⟨0, fun limit => iff_of_false Bool.false_ne_true (Nat.not_lt_zero limit)⟩
  | cons part parts ih =>
    obtain ⟨most, hmost⟩ := ih
    obtain ⟨size, answer, h⟩ := hunwrap part
    refine ⟨max size most, fun limit => ?_⟩
    rw [List.any_cons, Bool.or_eq_true, h.blamesLimit_iff, hmost]
    omega

theorem inPieces (bs : Bytes) : ∃ size answer, Capped 0 (inPieces unwrap · bs) size answer := by
  obtain ⟨size, answer, h⟩ := hunwrap bs
  have hbeyond (limit : Nat) (hlimit : limit < size) :
      Flate.inPieces unwrap limit bs = .error (.tooLarge limit) := by
    rw [Flate.inPieces, h.beyond limit (Nat.zero_le _) hlimit]
    exact ite_self _
  cases answer with
  | ok output =>
    refine ⟨size, .ok output, h.grows, h.blameless, h.output, fun limit hlimit => ?_,
      fun limit _ => hbeyond limit⟩
    rw [Flate.inPieces, h.within limit hlimit]
  | error e =>
    obtain ⟨most, hmost⟩ := any_blamesLimit hunwrap (taken bs)
    refine ⟨max size most, .error e, Nat.zero_le _, h.blameless, nofun, fun limit hlimit => ?_,
      fun limit _ hlimit => ?_⟩
    · obtain ⟨hsize, hparts⟩ := Nat.max_le.mp hlimit
      rw [Flate.inPieces, h.within limit hsize]
      exact if_neg (mt (hmost limit).mp (Nat.not_lt_of_le hparts))
    · by_cases hsize : limit < size
      · exact hbeyond limit hsize
      · have hparts : limit < most := by omega
        rw [Flate.inPieces, h.within limit (Nat.le_of_not_lt hsize)]
        exact if_pos ((hmost limit).mpr hparts)

end Capped

theorem inPieces_eq_ok_iff {unwrap : Nat → Bytes → Except Fault ByteArray} {bs : Bytes} :
    inPieces unwrap limit bs = .ok output ↔ unwrap limit bs = .ok output := by
  unfold inPieces
  cases unwrap limit bs with
  | ok o => exact Iff.rfl
  | error e =>
    dsimp only
    split <;> exact iff_of_false nofun nofun

theorem capped_raw : ∀ bs, ∃ size answer, Capped 0 (raw · bs) size answer := by
  refine Capped.inPieces fun bs => ?_
  apply Capped.inflate bs
  intro v
  exact ⟨_, _, Capped.within_output v.1⟩

theorem Zlib.capped_decode : ∀ bs, ∃ size answer, Capped 0 (Zlib.decode · bs) size answer := by
  refine Capped.inPieces fun bs => ?_
  unfold Zlib.unwrap
  split
  · split
    · apply Capped.inflate
      rintro ⟨output, trailer⟩
      by_cases hshort : trailer.length < 4
      · simp only [if_pos hshort]
        exact ⟨_, _, Capped.measured output (.fault nofun) nofun⟩
      -- a bad checksum shows before the output is measured, and takes back a window
      · by_cases hsum : bigEndian (trailer.take 4) ≠ Adler.ofByteArray output
        · simp only [if_neg hshort, if_pos hsum]
          exact ⟨_, _, Capped.fault _ nofun⟩
        · simp only [if_neg hshort, if_neg hsum]
          exact ⟨_, _, Capped.within_output output⟩
    · exact ⟨_, _, Capped.fault 0 nofun⟩
  · exact ⟨_, _, Capped.fault 0 nofun⟩

namespace Gzip

theorem blameless_text (size : Nat) (bs : Bytes) : Blameless (skipText size bs) := by
  fun_induction skipText size bs with
  | case1 => exact .fault nofun
  | case2 => exact .ok _
  | case3 => exact .fault nofun
  | case4 _ _ _ _ _ ih => exact ih

theorem blameless_extra (bs : Bytes) : Blameless (skipExtra bs) := by
  unfold skipExtra
  split
  · dsimp only
    split
    · exact .fault nofun
    · exact .ok _
  · exact .fault nofun

theorem blameless_optional {flags mask : UInt8} {skip : Bytes → Except Fault Bytes}
    (h : ∀ bs, Blameless (skip bs)) (bs : Bytes) : Blameless (optional flags mask skip bs) := by
  unfold optional
  split
  · exact .ok _
  · exact h bs

theorem blameless_checkHeader (whole bs : Bytes) : Blameless (checkHeader whole bs) := by
  unfold checkHeader
  split
  · dsimp only
    split
    · exact .ok _
    · exact .fault nofun
  · exact .fault nofun

theorem blameless_skipHeader (bs : Bytes) : Blameless (skipHeader bs) := by
  unfold skipHeader
  split
  · split
    · exact .fault nofun
    · apply Blameless.bind (blameless_optional blameless_extra _)
      intro afterExtra
      apply Blameless.bind (blameless_optional (blameless_text 0) _)
      intro afterName
      apply Blameless.bind (blameless_optional (blameless_text 0) _)
      intro afterComment
      exact blameless_optional (blameless_checkHeader _) _
  · exact .fault nofun

theorem blameless_checkTrailer (output : ByteArray) (trailer : Bytes) :
    Blameless (checkTrailer output trailer) := by
  unfold checkTrailer
  split
  · exact .fault nofun
  · split
    · exact .ok _
    · exact .fault nofun

theorem capped_decode : ∀ bs, ∃ size answer, Capped 0 (decode · bs) size answer := by
  refine Capped.inPieces fun bs => ?_
  unfold unwrap
  cases hheader : skipHeader bs with
  | error e => exact ⟨_, _, Capped.fault 0 fun n hn =>
      blameless_skipHeader bs n (by rw [hheader, hn])⟩
  | ok rest =>
    apply Capped.inflate rest
    rintro ⟨output, trailer⟩
    simp only [within_bind]
    have hcheck : Blameless (checkTrailer output trailer >>= fun _ => pure output) :=
      (blameless_checkTrailer output trailer).bind fun _ => .ok output
    refine ⟨_, _, Capped.measured output hcheck fun o ho => ?_⟩
    obtain ⟨_, _, ho⟩ := exists_of_bind ho
    exact (Except.ok.inj ho).symm

end Gzip

section

variable {decoder : Nat → Except Fault ByteArray}

def Gives (decoder : Nat → Except Fault ByteArray) (output : ByteArray) : Prop :=
  ∃ room, decoder room = .ok output

def Exceeds (decoder : Nat → Except Fault ByteArray) (limit : Nat) : Prop :=
  ∃ size answer, Capped 0 decoder size answer ∧ limit < size

def Breaks (decoder : Nat → Except Fault ByteArray) (limit : Nat) : Prop :=
  ∃ size fault, Capped 0 decoder size (.error fault) ∧ size ≤ limit

theorem Exceeds.decoder_eq (h : Exceeds decoder limit) :
    decoder limit = .error (.tooLarge limit) := by
  obtain ⟨size, answer, hcapped, hsize⟩ := h
  exact hcapped.beyond limit (Nat.zero_le _) hsize

theorem Breaks.decoder_eq (h : Breaks decoder limit) :
    ∃ fault, decoder limit = .error fault ∧ ∀ n, fault ≠ .tooLarge n := by
  obtain ⟨size, fault, hcapped, hsize⟩ := h
  refine ⟨fault, hcapped.within limit hsize, fun n hn => hcapped.blameless n ?_⟩
  rw [hn]

namespace Capped

variable {answer : Except Fault ByteArray}

theorem gives_iff (h : Capped 0 decoder size answer) :
    Gives decoder output ↔ answer = .ok output := by
  constructor
  · rintro ⟨room, hroom⟩
    by_cases hsize : size ≤ room
    · rw [← h.within room hsize, hroom]
    · rw [h.beyond room (Nat.zero_le _) (Nat.lt_of_not_le hsize)] at hroom
      cases hroom
  · intro hanswer
    exact ⟨size, (h.within size (Nat.le_refl _)).trans hanswer⟩

theorem eq_ok_iff (h : Capped 0 decoder size answer) :
    decoder limit = .ok output ↔ Gives decoder output ∧ output.size ≤ limit := by
  rw [h.gives_iff]
  constructor
  · intro hlimit
    have hanswer := h.gives_iff.mp ⟨limit, hlimit⟩
    refine ⟨hanswer, Nat.le_of_not_lt fun hsize => ?_⟩
    rw [h.beyond limit (Nat.zero_le _) (h.output output hanswer ▸ hsize)] at hlimit
    cases hlimit
  · rintro ⟨hanswer, hsize⟩
    rw [h.within limit (h.output output hanswer ▸ hsize), hanswer]

theorem breaks_iff (h : Capped 0 decoder size answer) : Breaks decoder limit ↔
    ∃ fault, decoder limit = .error fault ∧ ∀ n, fault ≠ .tooLarge n := by
  refine ⟨Breaks.decoder_eq, ?_⟩
  rintro ⟨fault, hfault, hblameless⟩
  by_cases hsize : size ≤ limit
  · rw [h.within limit hsize] at hfault
    exact ⟨size, fault, hfault ▸ h, hsize⟩
  · rw [h.beyond limit (Nat.zero_le _) (Nat.lt_of_not_le hsize)] at hfault
    exact absurd (Except.error.inj hfault).symm (hblameless limit)

theorem exceeds_iff (h : Capped 0 decoder size answer) (hgives : Gives decoder output) :
    Exceeds decoder limit ↔ limit < output.size := by
  rw [h.output output (h.gives_iff.mp hgives)]
  refine ⟨fun hexceeds => Nat.lt_of_not_le fun hsize => ?_, fun hsize => ⟨size, answer, h, hsize⟩⟩
  have hfault := hexceeds.decoder_eq
  rw [h.within limit hsize] at hfault
  exact h.blameless limit hfault

end Capped

end

end HttpRelay.Flate
