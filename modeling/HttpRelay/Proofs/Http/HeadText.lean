import HttpRelay.Http.HeadReader
import HttpRelay.Proofs.Wire.Resume

namespace HttpRelay

inductive LineEnd where
  | crlf
  | lf
deriving DecidableEq, Repr

def LineEnd.bytes : LineEnd → Bytes
  | crlf => [0x0d, 0x0a]
  | lf => [0x0a]

structure FieldText where
  name : Bytes
  blanks : Bytes
  value : Bytes
  lineEnd : LineEnd
  name_ne_nil : name ≠ []
  name_bytes : ∀ b ∈ name, HeadReader.isNameByte b = true
  blanks_bytes : ∀ b ∈ blanks, HeadReader.isBlankByte b = true
  value_bytes : ∀ b ∈ value, HeadReader.isTextByte b = true
  value_start : ∀ b ∈ value.head?, HeadReader.isBlankByte b = false

namespace FieldText

def bytes (f : FieldText) : Bytes := f.name ++ 0x3a :: (f.blanks ++ (f.value ++ f.lineEnd.bytes))

def field (f : FieldText) : String × String :=
  (HeadReader.asciiText f.name.reverse, HeadReader.valueText f.value.reverse)

end FieldText

structure HeadText where
  leading : List LineEnd
  minor : Fin 2
  hundreds : Fin 10
  tens : Fin 10
  units : Fin 10
  reason : Option Bytes
  statusEnd : LineEnd
  fields : List FieldText
  finalEnd : LineEnd
  reason_bytes : ∀ b ∈ reason.getD [], HeadReader.isTextByte b = true

namespace HeadText

def digit (n : Nat) : UInt8 := (0x30 + n).toUInt8

def reasonBytes (t : HeadText) : Bytes :=
  match t.reason with
  | some reason => 0x20 :: reason
  | none => []

def bytes (t : HeadText) : Bytes :=
  t.leading.flatMap LineEnd.bytes ++ (HeadReader.versionName ++ digit t.minor :: 0x20 ::
    digit t.hundreds :: digit t.tens :: digit t.units :: (t.reasonBytes ++ (t.statusEnd.bytes ++
      (t.fields.flatMap FieldText.bytes ++ t.finalEnd.bytes))))

def status (t : HeadText) : Nat := 100 * t.hundreds + 10 * t.tens + t.units

def head (t : HeadText) : Head where
  version := t.minor
  status := t.status.toUInt16
  reason := HeadReader.reasonText (t.reason.getD []).reverse
  headers := t.fields.map FieldText.field

end HeadText

namespace HeadReader

open Wire (Scan scan_next scan_accept scan_refuse)

variable {d : Draft} {rest : Bytes}

theorem scan_leading (ends : List LineEnd) (rest : Bytes) :
    Wire.scan step .leading (ends.flatMap LineEnd.bytes ++ rest) =
      Wire.scan step .leading rest := by
  induction ends with
  | nil => rfl
  | cons e ends ih =>
    rw [List.flatMap_cons, List.append_assoc]
    cases e <;> exact ih

theorem scan_version (rest : Bytes) :
    Wire.scan step .leading (versionName ++ rest) = Wire.scan step .versionDigit rest := rfl

theorem scan_minor (minor : Fin 2) (rest : Bytes) :
    Wire.scan step .versionDigit (HeadText.digit minor :: 0x20 :: rest) =
      Wire.scan step (.code ⟨minor, 0, "", []⟩ 0) rest := by
  match minor with
  | 0 => rfl
  | 1 => rfl

theorem codeStep_digit (d : Draft) (digits : Nat) (n : Fin 10) :
    codeStep d digits (HeadText.digit n) =
      .next (if digits = 2 then .codeEnd { d with status := 10 * d.status + n }
        else .code { d with status := 10 * d.status + n } (digits + 1)) := by
  have hd : isDigitByte (HeadText.digit n) = true := by
    revert n
    decide
  have hv : (HeadText.digit n).toNat - 0x30 = n := by
    revert n
    decide
  rw [codeStep, if_pos hd, hv]

theorem scan_code (d : Draft) (a b c : Fin 10) (rest : Bytes) :
    Wire.scan step (.code d 0)
        (HeadText.digit a :: HeadText.digit b :: HeadText.digit c :: rest) =
      Wire.scan step (.codeEnd { d with status := 10 * (10 * (10 * d.status + a) + b) + c })
        rest := by
  rw [scan_next (codeStep_digit d 0 a), if_neg (by decide), scan_next (codeStep_digit _ 1 b),
    if_neg (by decide), scan_next (codeStep_digit _ 2 c), if_pos rfl]

def Gathers (p : UInt8 → Bool) (s : Bytes → Stage) : Prop :=
  ∀ held b, p b = true → step (s held) b = .next (s (b :: held))

theorem Gathers.scan {p : UInt8 → Bool} {s : Bytes → Stage} (hs : Gathers p s) {run : Bytes}
    (h : ∀ b ∈ run, p b = true) (held rest : Bytes) :
    Wire.scan step (s held) (run ++ rest) = Wire.scan step (s (run.reverse ++ held)) rest := by
  induction run generalizing held with
  | nil => rfl
  | cons b run ih =>
    obtain ⟨hb, hrun⟩ := List.forall_mem_cons.mp h
    rw [List.cons_append, scan_next (hs held b hb), ih hrun, List.reverse_cons,
      List.append_assoc]
    rfl

theorem isTextByte_ne {b : UInt8} (h : isTextByte b = true) : b ≠ 0x0d ∧ b ≠ 0x0a := by
  constructor <;> rintro rfl <;> exact absurd h (by decide)

theorem isNameByte_ne {b : UInt8} (h : isNameByte b = true) :
    b ≠ 0x0d ∧ b ≠ 0x0a ∧ b ≠ 0x3a := by
  refine ⟨?_, ?_, ?_⟩ <;> rintro rfl <;> exact absurd h (by decide)

theorem gathers_reason (d : Draft) : Gathers isTextByte (.reason d) := by
  intro held b hb
  obtain ⟨hreturn, hfeed⟩ := isTextByte_ne hb
  rw [step, reasonStep, if_neg hreturn, if_neg hfeed, if_pos hb]

theorem gathers_value (d : Draft) (name : String) : Gathers isTextByte (.value d name) := by
  intro held b hb
  obtain ⟨hreturn, hfeed⟩ := isTextByte_ne hb
  rw [step, valueStep, if_neg hreturn, if_neg hfeed, if_pos hb]

theorem gathers_name (d : Draft) : Gathers isNameByte (.name d) := by
  intro held b hb
  rw [step, nameStep, if_neg (isNameByte_ne hb).2.2, if_pos hb]

theorem gathers_blanks (d : Draft) (name : String) :
    Gathers isBlankByte fun _ => .valueStart d name := by
  intro held b hb
  rw [step, valueStartStep, if_pos hb]

theorem scan_reason (d : Draft) (held reason : Bytes) (e : LineEnd) (rest : Bytes)
    (h : ∀ b ∈ reason, isTextByte b = true) :
    Wire.scan step (.reason d held) (reason ++ (e.bytes ++ rest)) =
      Wire.scan step (.line { d with reason := reasonText (reason.reverse ++ held) }) rest := by
  rw [(gathers_reason d).scan h]
  cases e <;> rfl

theorem scan_statusEnd (t : HeadText) (d : Draft) (hd : d.reason = "") (rest : Bytes) :
    Wire.scan step (.codeEnd d) (t.reasonBytes ++ (t.statusEnd.bytes ++ rest)) =
      Wire.scan step (.line { d with reason := reasonText (t.reason.getD []).reverse }) rest := by
  unfold HeadText.reasonBytes
  cases hr : t.reason with
  | none =>
    have hnone : ({ d with reason := reasonText [] } : Draft) = d := by
      obtain ⟨version, status, reason, fields⟩ := d
      obtain rfl := hd
      rfl
    simp only [List.nil_append, Option.getD_none, List.reverse_nil, hnone]
    cases t.statusEnd <;> rfl
  | some reason =>
    have hbytes := t.reason_bytes
    rw [hr, Option.getD_some] at hbytes
    rw [List.cons_append, Option.getD_some]
    have := scan_reason d [] reason t.statusEnd rest hbytes
    rw [List.append_nil] at this
    exact this

theorem scan_name (d : Draft) (held name rest : Bytes)
    (h : ∀ b ∈ name, isNameByte b = true) :
    Wire.scan step (.name d held) (name ++ 0x3a :: rest) =
      Wire.scan step (.valueStart d (asciiText (name.reverse ++ held))) rest := by
  rw [(gathers_name d).scan h]
  rfl

theorem scan_blanks (d : Draft) (name : String) (blanks rest : Bytes)
    (h : ∀ b ∈ blanks, isBlankByte b = true) :
    Wire.scan step (.valueStart d name) (blanks ++ rest) =
      Wire.scan step (.valueStart d name) rest :=
  (gathers_blanks d name).scan h [] rest

def fieldEnd (d : Draft) (name : String) (held rest : Bytes) : Scan Stage Head Fault :=
  Wire.scan step (.valueReturn d name held) (0x0a :: rest)

theorem fieldEnd_of_room {d : Draft} (h : d.fields.length < maxHeaders) (name : String)
    (held rest : Bytes) : fieldEnd d name held rest =
      Wire.scan step (.line { d with fields := (name, valueText held) :: d.fields }) rest := by
  have hstep : step (.valueReturn d name held) 0x0a =
      .next (.line { d with fields := (name, valueText held) :: d.fields }) := by
    rw [step, afterReturn, if_pos rfl, addField, if_pos h]
  rw [fieldEnd, scan_next hstep]

theorem fieldEnd_of_full {d : Draft} (h : ¬ d.fields.length < maxHeaders) (name : String)
    (held rest : Bytes) : fieldEnd d name held rest = .bad .tooManyHeaders := by
  have hstep : step (.valueReturn d name held) 0x0a = .refuse .tooManyHeaders := by
    rw [step, afterReturn, if_pos rfl, addField, if_neg h]
  rw [fieldEnd, scan_refuse hstep]

theorem scan_valueEnd (d : Draft) (name : String) (held : Bytes) (e : LineEnd) (rest : Bytes) :
    Wire.scan step (.value d name held) (e.bytes ++ rest) = fieldEnd d name held rest := by
  cases e with
  | crlf => exact scan_next rfl (0x0a :: rest)
  | lf =>
    have hstep : step (.value d name held) 0x0a = step (.valueReturn d name held) 0x0a := rfl
    change Wire.scan step (.value d name held) (0x0a :: rest) = _
    rw [fieldEnd, Wire.scan, Wire.scan, hstep]

theorem scan_value (d : Draft) (name : String) (held value : Bytes) (e : LineEnd) (rest : Bytes)
    (h : ∀ b ∈ value, isTextByte b = true) :
    Wire.scan step (.value d name held) (value ++ (e.bytes ++ rest)) =
      fieldEnd d name (value.reverse ++ held) rest := by
  rw [(gathers_value d name).scan h]
  exact scan_valueEnd d name (value.reverse ++ held) e rest

theorem scan_valueStart (d : Draft) (name : String) (value : Bytes) (e : LineEnd) (rest : Bytes)
    (h : ∀ b ∈ value, isTextByte b = true)
    (hstart : ∀ b ∈ value.head?, isBlankByte b = false) :
    Wire.scan step (.valueStart d name) (value ++ (e.bytes ++ rest)) =
      fieldEnd d name value.reverse rest := by
  cases value with
  | nil =>
    have hsame : Wire.scan step (.valueStart d name) (e.bytes ++ rest) =
        Wire.scan step (.value d name []) (e.bytes ++ rest) := by
      cases e <;> rfl
    exact hsame.trans (scan_valueEnd d name [] e rest)
  | cons b value =>
    have hb := h b List.mem_cons_self
    have hnot : ¬ isBlankByte b = true := by
      rw [hstart b rfl]
      decide
    have hstep : step (.valueStart d name) b = .next (.value d name [b]) := by
      rw [step, valueStartStep, if_neg hnot, valueStep, if_neg (isTextByte_ne hb).1,
        if_neg (isTextByte_ne hb).2, if_pos hb]
    rw [List.cons_append, scan_next hstep,
      scan_value d name [b] value e rest fun b' hb' => h b' (List.mem_cons_of_mem b hb'),
      List.reverse_cons]

theorem scan_field (f : FieldText) (d : Draft) (rest : Bytes) :
    Wire.scan step (.line d) (f.bytes ++ rest) =
      fieldEnd d (asciiText f.name.reverse) f.value.reverse rest := by
  obtain ⟨b, name, hname⟩ := List.exists_cons_of_ne_nil f.name_ne_nil
  have hbytes : ∀ b' ∈ b :: name, isNameByte b' = true := hname ▸ f.name_bytes
  have hb := hbytes b List.mem_cons_self
  have hstep : step (.line d) b = .next (.name d [b]) := by
    rw [step, lineStep, if_neg (isNameByte_ne hb).1, if_neg (isNameByte_ne hb).2.1, if_pos hb]
  rw [FieldText.bytes, hname, List.append_assoc, List.cons_append, scan_next hstep,
    List.cons_append, List.append_assoc, List.append_assoc,
    scan_name d [b] name _ fun b' hb' => hbytes b' (List.mem_cons_of_mem b hb'),
    ← List.reverse_cons, scan_blanks d _ f.blanks _ f.blanks_bytes,
    scan_valueStart d _ f.value f.lineEnd rest f.value_bytes f.value_start]

theorem scan_fields (fs : List FieldText) (d : Draft) (rest : Bytes)
    (h : d.fields.length + fs.length ≤ maxHeaders) :
    Wire.scan step (.line d) (fs.flatMap FieldText.bytes ++ rest) =
      Wire.scan step (.line { d with fields := (fs.map FieldText.field).reverse ++ d.fields })
        rest := by
  induction fs generalizing d with
  | nil => rfl
  | cons f fs ih =>
    rw [List.length_cons] at h
    have hroom : d.fields.length < maxHeaders := by omega
    rw [List.flatMap_cons, List.append_assoc, scan_field, fieldEnd_of_room hroom,
      ih _ (by rw [List.length_cons]; omega), List.map_cons, List.reverse_cons,
      List.append_assoc]
    rfl

theorem scan_fields_of_many (fs : List FieldText) (d : Draft) (rest : Bytes)
    (hd : d.fields.length ≤ maxHeaders) (h : maxHeaders < d.fields.length + fs.length) :
    Wire.scan step (.line d) (fs.flatMap FieldText.bytes ++ rest) = .bad .tooManyHeaders := by
  induction fs generalizing d with
  | nil =>
    rw [List.length_nil] at h
    omega
  | cons f fs ih =>
    rw [List.length_cons] at h
    rw [List.flatMap_cons, List.append_assoc, scan_field]
    by_cases hroom : d.fields.length < maxHeaders
    · rw [fieldEnd_of_room hroom]
      refine ih _ hroom ?_
      rw [List.length_cons]
      omega
    · exact fieldEnd_of_full hroom _ _ _

end HeadReader

namespace HeadText

open HeadReader

variable (t : HeadText) (rest : Bytes)

def draft (t : HeadText) : Draft :=
  ⟨t.minor, t.status, reasonText (t.reason.getD []).reverse, []⟩

theorem scan_statusLine : HeadReader.scan (t.bytes ++ rest) =
    Wire.scan step (.line t.draft)
      (t.fields.flatMap FieldText.bytes ++ (t.finalEnd.bytes ++ rest)) := by
  have hstatus : 10 * (10 * (10 * 0 + (t.hundreds : Nat)) + t.tens) + t.units = t.status := by
    rw [status]
    omega
  rw [HeadReader.scan, bytes]
  simp only [List.append_assoc, List.cons_append]
  rw [scan_leading, scan_version, scan_minor, scan_code, hstatus, scan_statusEnd _ _ rfl]
  rfl

theorem scan_bytes (h : t.fields.length ≤ maxHeaders) :
    HeadReader.scan (t.bytes ++ rest) = .done t.head rest := by
  rw [scan_statusLine, scan_fields t.fields t.draft _ (by simpa [draft] using h)]
  cases t.finalEnd <;> simp [LineEnd.bytes, Wire.scan, step, lineStep, afterReturn, Draft.head,
    draft, head]

theorem scan_bytes_of_many (h : maxHeaders < t.fields.length) :
    HeadReader.scan (t.bytes ++ rest) = .bad .tooManyHeaders := by
  rw [scan_statusLine]
  exact scan_fields_of_many t.fields t.draft _ (Nat.zero_le _) (by simpa [draft] using h)

end HeadText

end HttpRelay
