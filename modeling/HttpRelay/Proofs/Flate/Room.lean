import HttpRelay.Proofs.Flate.Readers

/-!
Room for the output decides only whether inflating gets to its end: with less room than what
comes out it stops for lack of room, and with more it ends the same way.
-/

namespace HttpRelay.Flate

variable {α β : Type} {start : Nat}

def produced (size : α → Nat) : Except Stopped α → Nat
  | .ok v => size v
  | .error e => e.size

structure Ends (size : α → Nat) (start : Nat) (run : Nat → Except Stopped α)
    (r : Except Stopped α) : Prop where
  grows : start ≤ produced size r
  settled : ∀ n, r ≠ .error ⟨.full, n⟩
  fits : ∀ bound, produced size r ≤ bound → run bound = r
  cut : ∀ bound, start ≤ bound → bound < produced size r → ∃ n, run bound = .error ⟨.full, n⟩

namespace Ends

variable {size : α → Nat} {size' : β → Nat} {run : Nat → Except Stopped α} {r : Except Stopped α}

theorem done (v : α) : Ends size (size v) (fun _ => .ok v) (.ok v) where
  grows := Nat.le_refl _
  settled _ := nofun
  fits _ _ := rfl
  cut _ hstart hbound := absurd hstart (Nat.not_le_of_lt hbound)

theorem fault {e : Halt} (h : e ≠ .full) (start : Nat) :
    Ends size start (fun _ => .error ⟨e, start⟩) (.error ⟨e, start⟩) where
  grows := Nat.le_refl _
  settled _ hfull := h (congrArg Stopped.halt (Except.error.inj hfull))
  fits _ _ := rfl
  cut _ hstart hbound := absurd hstart (Nat.not_le_of_lt hbound)

theorem push (n : Nat) (h : Ends size (start + n) run r) :
    Ends size start
      (fun bound => if bound < start + n then .error ⟨.full, start⟩ else run bound) r where
  grows := Nat.le_of_add_right_le h.grows
  settled := h.settled
  fits bound hbound := by
    have := h.grows
    rw [if_neg (by omega), h.fits bound hbound]
  cut bound hstart hbound := by
    by_cases hroom : bound < start + n
    · exact ⟨start, if_pos hroom⟩
    · rw [if_neg hroom]
      exact h.cut bound (Nat.le_of_not_lt hroom) hbound

theorem bind {v : α} {next : α → Nat → Except Stopped β} {r : Except Stopped β}
    (h : Ends size start run (.ok v)) (hnext : Ends size' (size v) (next v) r) :
    Ends size' start (fun bound => run bound >>= fun v => next v bound) r where
  grows := Nat.le_trans h.grows hnext.grows
  settled := hnext.settled
  fits bound hbound := by
    rw [h.fits bound (Nat.le_trans hnext.grows hbound)]
    exact hnext.fits bound hbound
  cut bound hstart hbound := by
    by_cases hroom : bound < size v
    · obtain ⟨n, hn⟩ := h.cut bound hstart hroom
      rw [hn]
      exact ⟨n, rfl⟩
    · rw [h.fits bound (Nat.le_of_not_lt hroom)]
      exact hnext.cut bound (Nat.le_of_not_lt hroom) hbound

theorem bind_error {e : Stopped} {next : α → Nat → Except Stopped β}
    (h : Ends size start run (.error e)) :
    Ends size' start (fun bound => run bound >>= fun v => next v bound) (.error e) where
  grows := h.grows
  settled n hfull := h.settled n (congrArg Except.error (Except.error.inj hfull))
  fits bound hbound := by
    rw [h.fits bound hbound]
    rfl
  cut bound hstart hbound := by
    obtain ⟨n, hn⟩ := h.cut bound hstart hbound
    rw [hn]
    exact ⟨n, rfl⟩

end Ends

namespace Inflate

theorem size_copy (output : ByteArray) (distance n : Nat) :
    (copy output distance n).size = output.size + n := by
  induction n generalizing output with
  | zero => rfl
  | succ n ih =>
    rw [copy, ih, ByteArray.size_push]
    omega

abbrev PartEnds (output : ByteArray) (run : Nat → Except Stopped Progress)
    (r : Except Stopped Progress) : Prop :=
  Ends (fun p : Progress => p.output.size) output.size run r

theorem ends_push {output : ByteArray} {b : UInt8} {run : Nat → Except Stopped Progress}
    {r : Except Stopped Progress} (h : PartEnds (output.push b) run r) :
    PartEnds output
      (fun bound => if bound ≤ output.size then .error ⟨.full, output.size⟩ else run bound) r := by
  simp only [← Nat.lt_add_one_iff]
  apply Ends.push 1
  rw [← ByteArray.size_push]
  exact h

theorem ends_tokens (literals distances : Huffman) (output : ByteArray) (s : Source) :
    ∃ r, PartEnds output (fun bound => tokens bound literals distances output s) r := by
  rw [funext fun bound => tokens_eq bound literals distances output s]
  cases ht : token literals distances s with
  | error e =>
    have hhalt : e ≠ .full := fun hfull => (reader_token _ _).halts s (hfull ▸ ht)
    exact ⟨_, Ends.fault hhalt _⟩
  | ok v =>
    obtain ⟨token, t⟩ := v
    cases token with
    | literal b =>
      obtain ⟨r, hr⟩ := ends_tokens literals distances (output.push b) t
      exact ⟨r, ends_push hr⟩
    | repetition length distance =>
      obtain ⟨r, hr⟩ := ends_tokens literals distances (copy output distance length) t
      rw [PartEnds, size_copy] at hr
      exact ⟨r, hr.push length⟩
    | blockEnd => exact ⟨_, Ends.done (⟨output, t⟩ : Progress)⟩
termination_by s.size
decreasing_by all_goals exact size_token ht

theorem ends_stored (output : ByteArray) (n : Nat) (bs : Bytes) :
    ∃ r, PartEnds output (fun bound => stored bound output n bs) r := by
  induction n generalizing output bs with
  | zero => exact ⟨_, Ends.done (⟨output, .ofBytes bs⟩ : Progress)⟩
  | succ n ih =>
    cases bs with
    | nil => exact ⟨_, Ends.fault (by decide) _⟩
    | cons b bs =>
      obtain ⟨r, hr⟩ := ih (output.push b) bs
      exact ⟨r, ends_push hr⟩

theorem ends_storedBlock (output : ByteArray) (s : Source) :
    ∃ r, PartEnds output (fun bound => storedBlock bound output s) r := by
  simp only [storedBlock]
  split
  · split
    · exact ends_stored output _ _
    · exact ⟨_, Ends.fault (by decide) _⟩
  · exact ⟨_, Ends.fault (by decide) _⟩

theorem ends_block (kind : Nat) (output : ByteArray) (s : Source) :
    ∃ r, PartEnds output (fun bound => block bound kind output s) r := by
  simp only [block]
  split
  · exact ends_storedBlock output s
  · exact ends_tokens _ _ output s
  · cases hc : readCodes s with
    | error e =>
      have hhalt : e ≠ .full := fun hfull => reader_readCodes.halts s (hfull ▸ hc)
      exact ⟨_, Ends.fault hhalt _⟩
    | ok codes => exact ends_tokens codes.1.1 codes.1.2 output codes.2
  · exact ⟨_, Ends.fault (by decide) _⟩

theorem ends_blocks (output : ByteArray) (s : Source) :
    ∃ r, PartEnds output (fun bound => blocks bound output s) r := by
  rw [funext fun bound => blocks_eq bound output s]
  cases hh : blockHead s with
  | error e =>
    have hhalt : e ≠ .full := fun hfull => reader_blockHead.halts s (hfull ▸ hh)
    exact ⟨_, Ends.fault hhalt _⟩
  | ok head =>
    obtain ⟨⟨last, kind⟩, t⟩ := head
    obtain ⟨r, hr⟩ := ends_block kind output t
    cases r with
    | error e => exact ⟨_, hr.bind_error⟩
    | ok p =>
      cases last with
      | true => exact ⟨_, hr.bind (Ends.done p)⟩
      | false =>
        -- some bound lets the block end, so fewer bits are left behind it
        obtain ⟨r', hr'⟩ := ends_blocks p.output p.source
        exact ⟨r', hr.bind hr'⟩
termination_by s.size
decreasing_by
  have := size_number hh
  have := size_block (hr.fits p.output.size (Nat.le_refl _))
  omega

end Inflate

theorem ends_inflate (bs : Bytes) :
    ∃ r, Ends (fun v : ByteArray × Bytes => v.1.size) 0 (fun bound => inflate bound bs) r := by
  obtain ⟨r, hr⟩ := Inflate.ends_blocks .empty (.ofBytes bs)
  have hmap : (fun bound => inflate bound bs) = fun bound =>
      Inflate.blocks bound .empty (.ofBytes bs) >>= fun p => .ok (p.output, p.source.bytes) := by
    funext bound
    rw [inflate]
    cases Inflate.blocks bound .empty (.ofBytes bs) <;> rfl
  rw [hmap]
  cases r with
  | error e => exact ⟨_, hr.bind_error⟩
  | ok p => exact ⟨_, hr.bind (Ends.done (p.output, p.source.bytes))⟩

end HttpRelay.Flate
