import HttpRelay.Proofs.Http.HeadText

namespace HttpRelay.HeadReader

open Wire (Scan scan_next scan_accept scan_refuse)

variable {d : Draft} {name : String} {held bs rest : Bytes} {b : UInt8} {head : Head}

theorem digit_of_isDigitByte (h : isDigitByte b = true) :
    ∃ n : Fin 10, b = HeadText.digit n := by
  have hrange : 0x30 ≤ b.toNat ∧ b.toNat ≤ 0x39 := by
    simpa [isDigitByte, UInt8.le_iff_toNat_le] using h
  refine ⟨⟨b.toNat - 0x30, by omega⟩, ?_⟩
  have hsum : 0x30 + (b.toNat - 0x30) = b.toNat := by omega
  rw [HeadText.digit]
  dsimp only
  rw [hsum]
  exact UInt8.ofNat_toNat.symm

theorem Gathers.sound {p : UInt8 → Bool} {s : Bytes → Stage} (hs : Gathers p s) (held : Bytes)
    (h : Wire.scan step (s held) bs = .done head rest) :
    ∃ run b next, (∀ b ∈ run, p b = true) ∧ p b = false ∧ bs = run ++ b :: next ∧
      Wire.scan step (s (run.reverse ++ held)) (b :: next) = .done head rest := by
  induction bs generalizing held with
  | nil => cases h
  | cons b bs ih =>
    by_cases hb : p b = true
    · rw [scan_next (hs held b hb)] at h
      obtain ⟨run, b', next, hrun, hb', rfl, hnext⟩ := ih (b :: held) h
      refine ⟨b :: run, b', next, List.forall_mem_cons.mpr ⟨hb, hrun⟩, hb', rfl, ?_⟩
      rw [List.reverse_cons, List.append_assoc]
      exact hnext
    · exact ⟨[], b, bs, by simp, eq_false_of_ne_true hb, rfl, h⟩

theorem lineEnd_sound {s t : Stage} {fault : Fault} (hs : step s 0x0d = .next t)
    (ht : ∀ b, step t b = afterReturn b (step s 0x0a) fault) (hb : b = 0x0d ∨ b = 0x0a)
    (h : Wire.scan step s (b :: bs) = .done head rest) :
    ∃ e : LineEnd, ∃ next, b :: bs = e.bytes ++ next ∧
      Wire.scan step s (0x0a :: next) = .done head rest := by
  rcases hb with rfl | rfl
  · rw [scan_next hs] at h
    cases bs with
    | nil => cases h
    | cons b bs =>
      by_cases hb : b = 0x0a
      · have hsame : step t b = step s 0x0a := by rw [ht, afterReturn, if_pos hb]
        rw [Wire.scan, hsame] at h
        exact ⟨.crlf, bs, by rw [hb]; rfl, h⟩
      · rw [scan_refuse (by rw [ht, afterReturn, if_neg hb])] at h
        cases h
  · exact ⟨.lf, bs, rfl, h⟩

theorem addField_sound {s : Stage} (hs : step s b = addField d name held)
    (h : Wire.scan step s (b :: bs) = .done head rest) :
    d.fields.length < maxHeaders ∧
      Wire.scan step (.line { d with fields := (name, valueText held) :: d.fields }) bs =
        .done head rest := by
  by_cases hroom : d.fields.length < maxHeaders
  · rw [addField, if_pos hroom] at hs
    rw [scan_next hs] at h
    exact ⟨hroom, h⟩
  · rw [addField, if_neg hroom] at hs
    rw [scan_refuse hs] at h
    cases h

theorem value_sound (h : Wire.scan step (.value d name held) bs = .done head rest) :
    ∃ value, ∃ e : LineEnd, ∃ next, (∀ b ∈ value, isTextByte b = true) ∧
      bs = value ++ (e.bytes ++ next) ∧ d.fields.length < maxHeaders ∧
      Wire.scan step
        (.line { d with fields := (name, valueText (value.reverse ++ held)) :: d.fields }) next =
        .done head rest := by
  obtain ⟨value, b, next, hvalue, htext, rfl, hafter⟩ := (gathers_value d name).sound held h
  by_cases hend : b = 0x0d ∨ b = 0x0a
  · obtain ⟨e, next, hbytes, hfeed⟩ := lineEnd_sound rfl (fun _ => rfl) hend hafter
    rw [hbytes]
    exact ⟨value, e, next, hvalue, rfl, addField_sound rfl hfeed⟩
  · obtain ⟨hret, hfeed⟩ := not_or.mp hend
    have hrefuse : step (.value d name (value.reverse ++ held)) b = .refuse .headerValue := by
      rw [step, valueStep, if_neg hret, if_neg hfeed, if_neg (by simp [htext])]
    rw [scan_refuse hrefuse] at hafter
    cases hafter

theorem valueStart_sound (h : Wire.scan step (.valueStart d name) bs = .done head rest) :
    ∃ blanks next, (∀ b ∈ blanks, isBlankByte b = true) ∧ bs = blanks ++ next ∧
      (∀ b ∈ next.head?, isBlankByte b = false) ∧
      Wire.scan step (.value d name []) next = .done head rest := by
  obtain ⟨blanks, b, next, hblanks, hb, rfl, hafter⟩ := (gathers_blanks d name).sound [] h
  have hsame : step (.valueStart d name) b = step (.value d name []) b := by
    rw [step, valueStartStep, if_neg (by simp [hb])]
    rfl
  rw [Wire.scan, hsame] at hafter
  refine ⟨blanks, b :: next, hblanks, rfl, ?_, hafter⟩
  intro b' hb'
  obtain rfl := Option.some.inj hb'
  exact hb

theorem name_sound (h : Wire.scan step (.name d held) bs = .done head rest) :
    ∃ name next, (∀ b ∈ name, isNameByte b = true) ∧ bs = name ++ 0x3a :: next ∧
      Wire.scan step (.valueStart d (asciiText (name.reverse ++ held))) next =
        .done head rest := by
  obtain ⟨name, b, next, hname, hb, rfl, hafter⟩ := (gathers_name d).sound held h
  by_cases hcolon : b = 0x3a
  · subst hcolon
    exact ⟨name, next, hname, rfl, hafter⟩
  · have hrefuse : step (.name d (name.reverse ++ held)) b = .refuse .headerName := by
      rw [step, nameStep, if_neg hcolon, if_neg (by simp [hb])]
    rw [scan_refuse hrefuse] at hafter
    cases hafter

theorem field_sound (hb : isNameByte b = true)
    (h : Wire.scan step (.name d [b]) bs = .done head rest) :
    ∃ f : FieldText, ∃ next, b :: bs = f.bytes ++ next ∧ d.fields.length < maxHeaders ∧
      Wire.scan step (.line { d with fields := f.field :: d.fields }) next = .done head rest := by
  obtain ⟨name, afterName, hname, rfl, hstart⟩ := name_sound h
  obtain ⟨blanks, afterBlanks, hblanks, rfl, hfirst, hvalue⟩ := valueStart_sound hstart
  obtain ⟨value, e, next, htext, rfl, hroom, hline⟩ := value_sound hvalue
  have hvalueStart : ∀ b' ∈ value.head?, isBlankByte b' = false := by
    intro b' hb'
    cases value with
    | nil => cases hb'
    | cons x value => exact hfirst b' hb'
  refine ⟨⟨b :: name, blanks, value, e, List.cons_ne_nil b name,
    List.forall_mem_cons.mpr ⟨hb, hname⟩, hblanks, htext, hvalueStart⟩, next, ?_, hroom, ?_⟩
  · simp [FieldText.bytes]
  · rw [List.append_nil] at hline
    rw [FieldText.field, List.reverse_cons]
    exact hline

theorem line_sound (hd : d.fields.length ≤ maxHeaders)
    (h : Wire.scan step (.line d) bs = .done head rest) :
    ∃ fs : List FieldText, ∃ e : LineEnd, d.fields.length + fs.length ≤ maxHeaders ∧
      bs = fs.flatMap FieldText.bytes ++ (e.bytes ++ rest) ∧
      head = ({ d with fields := (fs.map FieldText.field).reverse ++ d.fields } : Draft).head := by
  -- a field is a run of bytes, so the induction is on what is left and not byte by byte
  induction hn : bs.length using Nat.strongRecOn generalizing bs d with
  | ind n ih =>
    cases bs with
    | nil => cases h
    | cons b bs =>
      by_cases hend : b = 0x0d ∨ b = 0x0a
      · obtain ⟨e, next, hbytes, hfeed⟩ := lineEnd_sound rfl (fun _ => rfl) hend h
        rw [scan_accept rfl, Scan.done.injEq] at hfeed
        obtain ⟨rfl, rfl⟩ := hfeed
        exact ⟨[], e, hd, hbytes, rfl⟩
      obtain ⟨hret, hfeed⟩ := not_or.mp hend
      by_cases hname : isNameByte b = true
      · have hnext : step (.line d) b = .next (.name d [b]) := by
          rw [step, lineStep, if_neg hret, if_neg hfeed, if_pos hname]
        rw [scan_next hnext] at h
        obtain ⟨f, next, hbytes, hroom, hline⟩ := field_sound hname h
        have hlen : next.length < n := by
          have hl := congrArg List.length hbytes
          have hpos := List.length_pos_iff.mpr f.name_ne_nil
          rw [List.length_append, FieldText.bytes, List.length_append] at hl
          omega
        let taken : Draft := { d with fields := f.field :: d.fields }
        obtain ⟨fs, e, hcount, rfl, hhead⟩ := ih next.length hlen (d := taken) hroom hline rfl
        refine ⟨f :: fs, e, ?_, ?_, ?_⟩
        · simp only [taken, List.length_cons] at hcount ⊢
          omega
        · rw [hbytes, List.flatMap_cons, List.append_assoc]
        · rw [hhead, List.map_cons, List.reverse_cons, List.append_assoc]
          rfl
      · have hrefuse : step (.line d) b = .refuse .headerName := by
          rw [step, lineStep, if_neg hret, if_neg hfeed, if_neg hname]
        rw [scan_refuse hrefuse] at h
        cases h

theorem reason_sound (h : Wire.scan step (.reason d held) bs = .done head rest) :
    ∃ reason, ∃ e : LineEnd, ∃ next, (∀ b ∈ reason, isTextByte b = true) ∧
      bs = reason ++ (e.bytes ++ next) ∧
      Wire.scan step (.line { d with reason := reasonText (reason.reverse ++ held) }) next =
        .done head rest := by
  obtain ⟨reason, b, next, hreason, htext, rfl, hafter⟩ := (gathers_reason d).sound held h
  by_cases hend : b = 0x0d ∨ b = 0x0a
  · obtain ⟨e, next, hbytes, hfeed⟩ := lineEnd_sound rfl (fun _ => rfl) hend hafter
    rw [hbytes]
    exact ⟨reason, e, next, hreason, rfl, hfeed⟩
  · obtain ⟨hret, hfeed⟩ := not_or.mp hend
    have hrefuse : step (.reason d (reason.reverse ++ held)) b = .refuse .status := by
      rw [step, reasonStep, if_neg hret, if_neg hfeed, if_neg (by simp [htext])]
    rw [scan_refuse hrefuse] at hafter
    cases hafter

theorem codeEnd_sound (hd : d.reason = "")
    (h : Wire.scan step (.codeEnd d) bs = .done head rest) :
    ∃ reason : Option Bytes, ∃ e : LineEnd, ∃ next,
      (∀ b ∈ reason.getD [], isTextByte b = true) ∧
      bs = (reason.map (0x20 :: ·)).getD [] ++ (e.bytes ++ next) ∧
      Wire.scan step (.line { d with reason := reasonText (reason.getD []).reverse }) next =
        .done head rest := by
  have hnone : ({ d with reason := reasonText [] } : Draft) = d := by
    obtain ⟨version, status, reason, fields⟩ := d
    obtain rfl := hd
    rfl
  cases bs with
  | nil => cases h
  | cons b bs =>
    by_cases hblank : b = 0x20
    · subst hblank
      obtain ⟨reason, e, next, hreason, rfl, hline⟩ := reason_sound h
      rw [List.append_nil] at hline
      exact ⟨some reason, e, next, hreason, rfl, hline⟩
    by_cases hend : b = 0x0d ∨ b = 0x0a
    · obtain ⟨e, next, hbytes, hfeed⟩ := lineEnd_sound rfl (fun _ => rfl) hend h
      refine ⟨none, e, next, by simp, hbytes, ?_⟩
      rw [Option.getD_none, List.reverse_nil, hnone]
      exact hfeed
    · obtain ⟨hret, hfeed⟩ := not_or.mp hend
      have hrefuse : step (.codeEnd d) b = .refuse .status := by
        rw [step, codeEndStep, if_neg hblank, if_neg hret, if_neg hfeed]
      rw [scan_refuse hrefuse] at h
      cases h

theorem code_sound {digits : Nat}
    (h : Wire.scan step (.code d digits) bs = .done head rest) :
    ∃ n : Fin 10, ∃ next, bs = HeadText.digit n :: next ∧
      Wire.scan step (if digits = 2 then .codeEnd { d with status := 10 * d.status + n }
        else .code { d with status := 10 * d.status + n } (digits + 1)) next =
        .done head rest := by
  cases bs with
  | nil => cases h
  | cons b bs =>
    by_cases hdigit : isDigitByte b = true
    · obtain ⟨n, rfl⟩ := digit_of_isDigitByte hdigit
      rw [scan_next (codeStep_digit d digits n)] at h
      exact ⟨n, bs, rfl, h⟩
    · rw [scan_refuse (by rw [step, codeStep, if_neg hdigit])] at h
      cases h

theorem codes_sound (h : Wire.scan step (.code d 0) bs = .done head rest) :
    ∃ x y z : Fin 10, ∃ next,
      bs = HeadText.digit x :: HeadText.digit y :: HeadText.digit z :: next ∧
      Wire.scan step (.codeEnd { d with status := 10 * (10 * (10 * d.status + x) + y) + z })
        next = .done head rest := by
  obtain ⟨x, next, rfl, hx⟩ := code_sound h
  obtain ⟨y, next, rfl, hy⟩ := code_sound hx
  obtain ⟨z, next, rfl, hz⟩ := code_sound hy
  exact ⟨x, y, z, next, rfl, hz⟩

theorem versionDigit_sound (h : Wire.scan step .versionDigit bs = .done head rest) :
    ∃ minor : Fin 2, ∃ next, bs = HeadText.digit minor :: 0x20 :: next ∧
      Wire.scan step (.code ⟨minor, 0, "", []⟩ 0) next = .done head rest := by
  have hblank : ∀ d bs, Wire.scan step (.versionBlank d) bs = .done head rest →
      ∃ next, bs = 0x20 :: next ∧ Wire.scan step (.code d 0) next = .done head rest := by
    intro d bs h
    cases bs with
    | nil => cases h
    | cons b bs =>
      by_cases hb : b = 0x20
      · rw [scan_next (by rw [step, if_pos hb])] at h
        exact ⟨bs, by rw [hb], h⟩
      · rw [scan_refuse (by rw [step, if_neg hb])] at h
        cases h
  cases bs with
  | nil => cases h
  | cons b bs =>
    have hstep : step .versionDigit b = digitStep b := rfl
    rw [digitStep] at hstep
    by_cases hzero : b = 0x30
    · rw [if_pos hzero] at hstep
      rw [scan_next hstep] at h
      obtain ⟨next, rfl, hcode⟩ := hblank _ _ h
      exact ⟨0, next, by rw [hzero]; rfl, hcode⟩
    rw [if_neg hzero] at hstep
    by_cases hone : b = 0x31
    · rw [if_pos hone] at hstep
      rw [scan_next hstep] at h
      obtain ⟨next, rfl, hcode⟩ := hblank _ _ h
      exact ⟨1, next, by rw [hone]; rfl, hcode⟩
    · rw [if_neg hone] at hstep
      rw [scan_refuse hstep] at h
      cases h

theorem version_sound {expected : Bytes} {s : Stage} (hs : step s b = versionStep expected b)
    (h : Wire.scan step s (b :: bs) = .done head rest) :
    ∃ next, b :: bs = expected ++ next ∧
      Wire.scan step .versionDigit next = .done head rest := by
  induction expected generalizing s b bs with
  | nil =>
    rw [scan_refuse hs] at h
    cases h
  | cons x expected ih =>
    cases expected with
    | nil =>
      rw [versionStep] at hs
      by_cases hb : b = x
      · rw [if_pos hb] at hs
        rw [scan_next hs] at h
        exact ⟨bs, by rw [hb]; rfl, h⟩
      · rw [if_neg hb] at hs
        rw [scan_refuse hs] at h
        cases h
    | cons y expected =>
      rw [versionStep] at hs
      · by_cases hb : b = x
        · rw [if_pos hb] at hs
          rw [scan_next hs] at h
          cases bs with
          | nil => cases h
          | cons b' bs =>
            obtain ⟨next, hbytes, hdigit⟩ := ih rfl h
            exact ⟨next, by rw [hb, hbytes]; rfl, hdigit⟩
        · rw [if_neg hb] at hs
          rw [scan_refuse hs] at h
          cases h
      · simp

theorem leading_sound (h : Wire.scan step .leading bs = .done head rest) :
    ∃ ends : List LineEnd, ∃ next, bs = ends.flatMap LineEnd.bytes ++ (versionName ++ next) ∧
      Wire.scan step .versionDigit next = .done head rest := by
  induction hn : bs.length using Nat.strongRecOn generalizing bs with
  | ind n ih =>
    cases bs with
    | nil => cases h
    | cons b bs =>
      by_cases hend : b = 0x0d ∨ b = 0x0a
      · obtain ⟨e, next, hbytes, hfeed⟩ := lineEnd_sound rfl (fun _ => rfl) hend h
        have hlen : next.length < n := by
          rw [← hn, hbytes, List.length_append]
          cases e <;> simp [LineEnd.bytes]
        have hnext : Wire.scan step .leading next = .done head rest := hfeed
        obtain ⟨ends, more, rfl, hdigit⟩ := ih next.length hlen hnext rfl
        refine ⟨e :: ends, more, ?_, hdigit⟩
        rw [hbytes, List.flatMap_cons, List.append_assoc]
      · obtain ⟨hret, hfeed⟩ := not_or.mp hend
        have hversion : step .leading b = versionStep versionName b := by
          rw [step, leadingStep, if_neg hret, if_neg hfeed]
        obtain ⟨next, hbytes, hdigit⟩ := version_sound hversion h
        exact ⟨[], next, hbytes, hdigit⟩

theorem scan_sound (h : scan bs = .done head rest) :
    ∃ t : HeadText, t.fields.length ≤ maxHeaders ∧ bs = t.bytes ++ rest ∧ head = t.head := by
  obtain ⟨ends, afterLeading, rfl, hdigit⟩ := leading_sound h
  obtain ⟨minor, afterMinor, rfl, hcode⟩ := versionDigit_sound hdigit
  obtain ⟨x, y, z, afterCode, rfl, hcodeEnd⟩ := codes_sound hcode
  obtain ⟨reason, statusEnd, afterStatus, hreason, rfl, hline⟩ := codeEnd_sound rfl hcodeEnd
  obtain ⟨fs, finalEnd, hcount, rfl, rfl⟩ := line_sound (by exact Nat.zero_le _) hline
  rw [List.length_nil, Nat.zero_add] at hcount
  let t : HeadText := ⟨ends, minor, x, y, z, reason, statusEnd, fs, finalEnd, hreason⟩
  refine ⟨t, hcount, ?_, ?_⟩
  · have hbytes : t.reasonBytes = (reason.map (0x20 :: ·)).getD [] := by
      cases reason <;> rfl
    simp only [HeadText.bytes, hbytes, t, List.append_assoc, List.cons_append]
  · have hstatus : 10 * (10 * (10 * 0 + (x : Nat)) + y) + z = t.status := by
      rw [HeadText.status]
      dsimp only [t]
      omega
    simp [HeadText.head, Draft.head, ← hstatus, t]

theorem scan_iff : scan bs = .done head rest ↔
    ∃ t : HeadText, t.fields.length ≤ maxHeaders ∧ bs = t.bytes ++ rest ∧ head = t.head := by
  constructor
  · exact scan_sound
  · rintro ⟨t, hcount, rfl, rfl⟩
    exact t.scan_bytes rest hcount

end HttpRelay.HeadReader
