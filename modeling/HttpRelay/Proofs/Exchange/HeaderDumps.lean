import HttpRelay.Http.HeaderBlocks
import HttpRelay.Proofs.Exchange.HeadCuts
import HttpRelay.Proofs.Text.Marks
import HttpRelay.Proofs.Text.Numerals
import HttpRelay.Proofs.Text.Replacement

namespace HttpRelay

structure Unbroken (cs : List Char) : Prop where
  feed : '\n' ∉ cs
  ret : '\r' ∉ cs

namespace Unbroken

variable {cs ds : List Char}

theorem append (h : Unbroken cs) (h' : Unbroken ds) : Unbroken (cs ++ ds) where
  feed hmem := (List.mem_append.mp hmem).elim h.feed h'.feed
  ret hmem := (List.mem_append.mp hmem).elim h.ret h'.ret

end Unbroken

structure Head.Lined (head : Head) : Prop where
  reason : Unbroken head.reason.toList
  names : ∀ f ∈ head.headers, Unbroken f.1.toList ∧ ':' ∉ f.1.toList
  values : ∀ f ∈ head.headers, Unbroken f.2.toList

namespace HeadReader

variable {bs : Bytes}

theorem mem_asciiText {c : Char} (h : c ∈ (asciiText bs).toList) : UInt8.ofNat c.toNat ∈ bs := by
  rw [asciiText, String.toList_ofList] at h
  obtain ⟨b, hb, rfl⟩ := List.mem_map.mp h
  have hvalue : (Char.ofNat b.toNat).toNat = b.toNat :=
    Utf8.toNat_charOfNat (.inl (by have := b.toNat_lt; omega))
  rw [hvalue, UInt8.ofNat_toNat]
  exact List.mem_reverse.mp hb

theorem unbroken_asciiText (hfeed : 0x0a ∉ bs) (hret : 0x0d ∉ bs) :
    Unbroken (asciiText bs).toList :=
  ⟨fun h => hfeed (mem_asciiText h), fun h => hret (mem_asciiText h)⟩

theorem unbroken_reasonText (h : ∀ b ∈ bs, isTextByte b = true) :
    Unbroken (reasonText bs).toList := by
  unfold reasonText
  split
  · exact unbroken_asciiText (fun hb => (isTextByte_ne (h _ hb)).2 rfl)
      fun hb => (isTextByte_ne (h _ hb)).1 rfl
  · exact ⟨List.not_mem_nil, List.not_mem_nil⟩

theorem mem_valueText {c : Char} (h : c ∈ (valueText bs).toList) (hc : c.toNat < 0x80) :
    UInt8.ofNat c.toNat ∈ bs := by
  rw [valueText, Text.trim, String.toList_ofList] at h
  have hbyte := Utf8.mem_lossy (Text.mem_of_mem_trimChars h) hc
  exact (List.dropWhile_suffix _).mem (List.mem_reverse.mp hbyte)

theorem unbroken_valueText (h : ∀ b ∈ bs, isTextByte b = true) :
    Unbroken (valueText bs).toList where
  feed hc := (isTextByte_ne (h _ (mem_valueText hc (by decide)))).2 rfl
  ret hc := (isTextByte_ne (h _ (mem_valueText hc (by decide)))).1 rfl

end HeadReader

theorem HeadText.head_lined (t : HeadText) : t.head.Lined where
  reason := HeadReader.unbroken_reasonText fun b hb =>
    t.reason_bytes b (List.mem_reverse.mp hb)
  names f hf := by
    obtain ⟨line, -, rfl⟩ := List.mem_map.mp hf
    have hname : ∀ b ∈ line.name.reverse, HeadReader.isNameByte b = true :=
      fun b hb => line.name_bytes b (List.mem_reverse.mp hb)
    refine ⟨HeadReader.unbroken_asciiText ?_ ?_, fun hc => ?_⟩
    · exact fun hb => (HeadReader.isNameByte_ne (hname _ hb)).2.1 rfl
    · exact fun hb => (HeadReader.isNameByte_ne (hname _ hb)).1 rfl
    · exact (HeadReader.isNameByte_ne (hname _ (HeadReader.mem_asciiText hc))).2.2 rfl
  values f hf := by
    obtain ⟨line, -, rfl⟩ := List.mem_map.mp hf
    exact HeadReader.unbroken_valueText fun b hb => line.value_bytes b (List.mem_reverse.mp hb)

def Head.Readable (head : Head) : Prop :=
  ∃ buffer incoming, (nextHead buffer incoming).outcome = some (.ok head)

theorem Head.Readable.lined {head : Head} (h : head.Readable) : head.Lined := by
  obtain ⟨buffer, incoming, ho⟩ := h
  obtain ⟨heads, -, -, -, -, -, rfl⟩ := (HeadSearch.searches _ buffer _ _).sound ho
  exact heads.final.head_lined

namespace HeaderBlocks

variable {head : Head} {heads : List Head} {cs front name line : List Char}

def versionWord (head : Head) : List Char :=
  ['H', 'T', 'T', 'P', '/', '1', '.'] ++ Nat.toDigits 10 head.version

def statusStart (head : Head) : List Char :=
  versionWord head ++ ' ' :: (Nat.toDigits 10 head.status.toNat ++ [' '])

def statusLine (head : Head) : List Char := statusStart head ++ head.reason.toList

def fieldLine (f : String × String) : List Char := f.1.toList ++ ':' :: ' ' :: f.2.toList

def headLines (head : Head) : List (List Char) :=
  statusLine head :: (head.headers.map fieldLine ++ [[]])

def dump (heads : List Head) : String :=
  String.ofList ((heads.flatMap headLines).flatMap (· ++ ['\r', '\n']))

def HasMark (cs : List Char) : Prop := [':', ' '] <:+: cs

instance (cs : List Char) : Decidable (HasMark cs) :=
  inferInstanceAs (Decidable ([':', ' '] <:+: cs))

theorem splitField_front (h : ':' ∉ front) (cs : List Char) :
    splitField (front ++ cs) = (splitField cs).map fun r => (front ++ r.1, r.2) := by
  induction front with
  | nil => exact Option.map_id'.symm
  | cons c front ih =>
    have hc : c ≠ ':' := (List.ne_of_not_mem_cons h).symm
    rw [List.cons_append, splitField, ih (List.not_mem_of_not_mem_cons h), Option.map_map]
    · rfl
    · simp [hc]

theorem splitField_append (h : ':' ∉ name) (value : List Char) :
    splitField (name ++ ':' :: ' ' :: value) = some (name, value) := by
  rw [splitField_front h, splitField, Option.map_some, List.append_nil]

theorem splitField_eq_none_iff : splitField cs = none ↔ ¬ HasMark cs := by
  unfold HasMark
  fun_induction splitField cs with
  | case1 rest => exact iff_of_false nofun fun h => h ⟨[], rest, rfl⟩
  | case2 c rest hmark ih =>
    rw [Option.map_eq_none_iff, ih, List.infix_cons_iff, not_or, iff_and_self]
    rintro - ⟨more, hmore⟩
    exact hmark more (List.cons.inj hmore).1.symm (List.cons.inj hmore).2.symm
  | case3 => simp

theorem lineField?_fieldLine {f : String × String} (h : ':' ∉ f.1.toList) :
    lineField? (fieldLine f) = some f := by
  rw [lineField?, fieldLine, splitField_append h]
  simp only [String.ofList_toList]

def entry (head : Head) : String × String :=
  match splitField head.reason.toList with
  | some (name, value) => (String.ofList (statusStart head ++ name), String.ofList value)
  | none => (statusKey, toString head.status)

theorem not_mem_versionWord {c : Char} (hc : c.isDigit = false)
    (h : c ∉ ['H', 'T', 'T', 'P', '/', '1', '.']) (head : Head) : c ∉ versionWord head := by
  intro hmem
  exact (List.mem_append.mp hmem).elim h (Text.not_mem_toDigits hc head.version)

theorem not_mem_statusStart {c : Char} (hc : c.isDigit = false)
    (h : c ∉ ['H', 'T', 'T', 'P', '/', '1', '.']) (hblank : c ≠ ' ') (head : Head) :
    c ∉ statusStart head := by
  intro hmem
  rcases List.mem_append.mp hmem with hword | hrest
  · exact not_mem_versionWord hc h head hword
  rcases List.mem_cons.mp hrest with rfl | hrest
  · exact hblank rfl
  rcases List.mem_append.mp hrest with hcode | hlast
  · exact Text.not_mem_toDigits hc _ hcode
  · exact hblank (List.mem_singleton.mp hlast)

theorem splitField_statusLine (head : Head) : splitField (statusLine head) =
    (splitField head.reason.toList).map fun r => (statusStart head ++ r.1, r.2) :=
  splitField_front (not_mem_statusStart (by decide) (by decide) (by decide) head) _

theorem splitAll_statusLine (head : Head) :
    (Text.splitAll ' ' (statusLine head))[1]? = some (Nat.toDigits 10 head.status.toNat) := by
  have hword : ' ' ∉ versionWord head := not_mem_versionWord (by decide) (by decide) head
  have hcode : ' ' ∉ Nat.toDigits 10 head.status.toNat := Text.not_mem_toDigits (by decide) _
  rw [statusLine, statusStart, List.append_assoc, List.cons_append, Text.splitAll_append hword,
    List.append_assoc, List.singleton_append, Text.splitAll_append hcode]
  rfl

theorem lineField?_statusLine (head : Head) : lineField? (statusLine head) = some (entry head) := by
  rw [lineField?, splitField_statusLine, entry]
  cases splitField head.reason.toList with
  | some r => rfl
  | none =>
    rw [Option.map_none, splitAll_statusLine]
    have hcode : String.ofList (Nat.toDigits 10 head.status.toNat) = toString head.status := by
      rw [← String.toList_inj, String.toList_ofList, ← Text.toList_toString]
      rfl
    simp only [Option.map_some, hcode]

theorem entry_key_iff : (entry head).1 = statusKey ↔ ¬ HasMark head.reason.toList := by
  rw [← splitField_eq_none_iff, entry]
  cases splitField head.reason.toList with
  | none => exact iff_of_true rfl rfl
  | some r =>
    apply iff_of_false
    · intro h
      -- no status line begins with the letter that the key begins with
      have hkey : statusKey.toList.head? = some 'h' := by decide
      rw [← h, String.toList_ofList] at hkey
      exact absurd (Option.some.inj hkey) (by decide)
    · exact nofun

theorem entry_eq_status_iff :
    entry head = (statusKey, toString head.status) ↔ ¬ HasMark head.reason.toList := by
  constructor
  · intro h
    exact entry_key_iff.mp (congrArg Prod.fst h)
  · intro h
    rw [entry, splitField_eq_none_iff.mpr h]

theorem dropReturns_ended (h : '\r' ∉ line) : dropReturns (line ++ ['\r']) = line := by
  have hrev : line.reverse.dropWhile (· = '\r') = line.reverse := by
    cases hcs : line.reverse with
    | nil => rfl
    | cons c cs =>
      have hc : c ∈ line := List.mem_reverse.mp (hcs ▸ List.mem_cons_self)
      exact List.dropWhile_cons_of_neg (by simpa using ne_of_mem_of_not_mem hc h)
  rw [dropReturns, List.reverse_append, List.reverse_singleton, List.singleton_append,
    List.dropWhile_cons_of_pos (by decide), hrev, List.reverse_reverse]

theorem parseLines_fields {fs : Fields} (h : ∀ f ∈ fs, ':' ∉ f.1.toList ∧ '\r' ∉ fieldLine f)
    (held : Fields) (rest : List (List Char)) :
    parseLines held (fs.map (fieldLine · ++ ['\r']) ++ ['\r'] :: rest) =
      close (held ++ fs) ++ parseLines [] rest := by
  induction fs generalizing held with
  | nil =>
    rw [List.append_nil]
    rfl
  | cons f fs ih =>
    rw [List.forall_mem_cons] at h
    have hne : fieldLine f ≠ [] := by simp [fieldLine]
    rw [List.map_cons, List.cons_append, parseLines, dropReturns_ended h.1.2]
    rw [if_neg (by simp [hne]), lineField?_fieldLine h.1.1, Option.toList_some, ih h.2,
      List.append_assoc]
    rfl

theorem unbroken_statusLine (h : head.Lined) : Unbroken (statusLine head) where
  feed hmem := (List.mem_append.mp hmem).elim
    (not_mem_statusStart (by decide) (by decide) (by decide) head) h.reason.feed
  ret hmem := (List.mem_append.mp hmem).elim
    (not_mem_statusStart (by decide) (by decide) (by decide) head) h.reason.ret

theorem unbroken_fieldLine (h : head.Lined) {f : String × String} (hf : f ∈ head.headers) :
    Unbroken (fieldLine f) :=
  (h.names f hf).1.append ⟨by simp [(h.values f hf).feed], by simp [(h.values f hf).ret]⟩

theorem feed_not_mem_headLines (h : head.Lined) : ∀ line ∈ headLines head, '\n' ∉ line := by
  intro line hline
  rcases List.mem_cons.mp hline with rfl | hline
  · exact (unbroken_statusLine h).feed
  rcases List.mem_append.mp hline with hfield | hempty
  · obtain ⟨f, hf, rfl⟩ := List.mem_map.mp hfield
    exact (unbroken_fieldLine h hf).feed
  · rw [List.mem_singleton.mp hempty]
    exact List.not_mem_nil

theorem parseLines_head (h : head.Lined) (rest : List (List Char)) :
    parseLines [] ((headLines head).map (· ++ ['\r']) ++ rest) =
      (entry head :: head.headers) :: parseLines [] rest := by
  have hne : statusLine head ≠ [] := List.cons_ne_nil _ _
  have hfields : ∀ f ∈ head.headers, ':' ∉ f.1.toList ∧ '\r' ∉ fieldLine f :=
    fun f hf => ⟨(h.names f hf).2, (unbroken_fieldLine h hf).ret⟩
  rw [headLines, List.map_cons, List.cons_append, parseLines,
    dropReturns_ended (unbroken_statusLine h).ret, if_neg (by simp [hne]), lineField?_statusLine,
    List.map_append, List.map_map, List.append_assoc]
  exact parseLines_fields hfields [entry head] rest

theorem parse_dump (h : ∀ head ∈ heads, head.Lined) :
    parse (dump heads) = heads.map fun head => entry head :: head.headers := by
  have hlines : (heads.flatMap headLines).flatMap (· ++ ['\r', '\n']) =
      ((heads.flatMap headLines).map (· ++ ['\r'])).flatMap (· ++ ['\n']) := by
    simp [List.flatMap_map]
  have hfeed : ∀ line ∈ (heads.flatMap headLines).map (· ++ ['\r']), '\n' ∉ line := by
    intro line hline
    obtain ⟨plain, hplain, rfl⟩ := List.mem_map.mp hline
    obtain ⟨head, hhead, hplain⟩ := List.mem_flatMap.mp hplain
    simpa using feed_not_mem_headLines (h head hhead) plain hplain
  rw [parse, dump, String.toList_ofList, hlines, Text.splitAll_ended hfeed]
  clear hlines hfeed
  induction heads with
  | nil => rfl
  | cons head heads ih =>
    rw [List.forall_mem_cons] at h
    rw [List.flatMap_cons, List.map_append, List.append_assoc, parseLines_head h.1, ih h.2,
      List.map_cons]

/-- What comes of heads that are written down and read back: a block for each, with all of its
headers in their order, and the status code in front wherever the reason holds no mark. -/
structure DumpsBack (heads : List Head) : Prop where
  blocks : parse (dump heads) = heads.map fun head => entry head :: head.headers
  entries : ∀ head ∈ heads, entry head = (statusKey, toString head.status) ↔
    ¬ HasMark head.reason.toList
  keys : ∀ head ∈ heads, (entry head).1 = statusKey ↔ ¬ HasMark head.reason.toList
  groups_iff : parse (dump heads) = heads.map group ↔
    ∀ head ∈ heads, ¬ HasMark head.reason.toList

theorem dumpsBack (h : ∀ head ∈ heads, head.Readable) : DumpsBack heads where
  blocks := parse_dump fun head hhead => (h head hhead).lined
  entries _ _ := entry_eq_status_iff
  keys _ _ := entry_key_iff
  groups_iff := by
    rw [parse_dump fun head hhead => (h head hhead).lined, List.map_inj_left]
    have hgroup : ∀ head : Head, entry head :: head.headers = group head ↔
        ¬ HasMark head.reason.toList := fun head => by
      rw [group, List.cons_eq_cons, and_iff_left rfl, entry_eq_status_iff]
    exact forall₂_congr fun head _ => hgroup head

end HeaderBlocks

namespace Sample

def linked : HeadText :=
  { final with
    reason := some (Utf8.encode "Connection established")
    fields := [field (Utf8.encode "Link") (Utf8.encode "<a>; title: b") (by decide +kernel),
      field (Utf8.encode "X-Empty") [] (by decide +kernel),
      field (Utf8.encode "Link") (Utf8.encode "<c>") (by decide +kernel)]
    reason_bytes := by decide +kernel }

def remark : HeadText :=
  { final with
    reason := some (Utf8.encode "OK: fine")
    fields := []
    reason_bytes := by decide +kernel }

theorem linked_readable : linked.head.Readable :=
  ⟨[], ⟨Arrival.pieces [linked.bytes], .silent⟩, by decide +kernel⟩

theorem remark_readable : remark.head.Readable :=
  ⟨[], ⟨Arrival.pieces [remark.bytes], .silent⟩, by decide +kernel⟩

end Sample

namespace HeaderBlocks

theorem dumpsBack_sample :
    (∀ head ∈ [Sample.linked.head, Sample.remark.head], head.Readable) ∧
      DumpsBack [Sample.linked.head, Sample.remark.head] ∧
      ¬ HasMark Sample.linked.head.reason.toList := by
  have h : ∀ head ∈ [Sample.linked.head, Sample.remark.head], head.Readable := by
    rw [List.forall_mem_cons, List.forall_mem_singleton]
    exact ⟨Sample.linked_readable, Sample.remark_readable⟩
  exact ⟨h, dumpsBack h, by decide +kernel⟩

theorem parse_remark : Sample.remark.head.Readable ∧
    parse (dump [Sample.remark.head]) = [[("HTTP/1.1 200 OK", "fine")]] ∧
    [Sample.remark.head].map group = [[(statusKey, "200")]] := by
  refine ⟨Sample.remark_readable, ?_, ?_⟩ <;> decide +kernel

end HeaderBlocks

end HttpRelay
