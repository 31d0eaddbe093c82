import Mathlib.Tactic.Tauto
import HttpRelay.Http.Request
import HttpRelay.Proofs.Http.ChunkedText
import HttpRelay.Proofs.Text.Characters
import HttpRelay.Proofs.Text.Numerals

namespace HttpRelay

structure RequestText where
  method : String
  target : String
  version : String
  headers : Fields
  body : Bytes
deriving DecidableEq, Repr

namespace RequestText

def cut (mark bs : Bytes) : Option (Bytes × Bytes) :=
  if mark <+: bs then some ([], bs.drop mark.length)
  else match bs with
    | [] => none
    | b :: rest => (cut mark rest).map fun (front, behind) => (b :: front, behind)

def linesOf : Bytes → List Bytes
  | [] => [[]]
  | 0x0d :: 0x0a :: rest => [] :: linesOf rest
  | b :: rest =>
    match linesOf rest with
    | [] => [[b]]
    | line :: lines => (b :: line) :: lines

def text (bs : Bytes) : Option String := (Utf8.strict bs).toOption

def readField (line : Bytes) : Option (String × String) :=
  match cut [0x3a] line with
  | some (name, 0x20 :: value) => do
    let name ← text name
    let value ← text value
    pure (name, value)
  | _ => none

/-- Reads a request as any peer would: the head ends with the first empty line, the request line
falls into three parts, and a name ends with the first colon. -/
def read (bs : Bytes) : Option RequestText := do
  let (head, body) ← cut (crlf ++ crlf) bs
  let line ← (linesOf head).head?
  let (method, rest) ← cut [0x20] line
  let (target, version) ← cut [0x20] rest
  let method ← text method
  let target ← text target
  let version ← text version
  let headers ← (linesOf head).tail.mapM readField
  pure ⟨method, target, version, headers, body⟩

variable {mark l rest : Bytes} {b : UInt8}

theorem cut_here (mark rest : Bytes) : cut mark (mark ++ rest) = some ([], rest) := by
  rw [cut.eq_def, if_pos (List.prefix_append mark rest), List.drop_left]

theorem cut_skip (h : ¬ mark <+: b :: rest) :
    cut mark (b :: rest) = (cut mark rest).map fun (front, behind) => (b :: front, behind) := by
  rw [cut, if_neg h]

theorem cut_append {m : UInt8} (mark : Bytes) (h : m ∉ l) (rest : Bytes) :
    cut (m :: mark) (l ++ rest) =
      (cut (m :: mark) rest).map fun (front, behind) => (l ++ front, behind) := by
  induction l with
  | nil => simp
  | cons b l ih =>
    rw [List.mem_cons, not_or] at h
    have hne : ¬ m :: mark <+: b :: (l ++ rest) := by
      intro hp
      exact h.1 (List.cons_prefix_cons.mp hp).1
    rw [List.cons_append, cut_skip hne, ih h.2, Option.map_map]
    rfl

theorem cut_single {m : UInt8} (h : m ∉ l) (rest : Bytes) :
    cut [m] (l ++ m :: rest) = some (l, rest) := by
  have hhere : cut [m] (m :: rest) = some ([], rest) := cut_here [m] rest
  rw [cut_append [] h, hhere]
  simp

section Lines

variable {ls : List Bytes}

theorem linesOf_cons (h : b ≠ 0x0d) (hrest : linesOf rest = l :: ls) :
    linesOf (b :: rest) = (b :: l) :: ls := by
  rw [linesOf.eq_def]
  split
  · rename_i heq
    cases heq
  · rename_i heq
    exact absurd (List.cons.inj heq).1 h
  · rename_i heq
    obtain ⟨rfl, rfl⟩ := List.cons.inj heq
    rw [hrest]

theorem linesOf_append (h : 0x0d ∉ l) (hrest : linesOf rest = [] :: ls) :
    linesOf (l ++ rest) = l :: ls := by
  induction l with
  | nil => exact hrest
  | cons b l ih =>
    rw [List.mem_cons, not_or] at h
    exact linesOf_cons (Ne.symm h.1) (ih h.2)

theorem linesOf_intercalate (hne : ls ≠ []) (h : ∀ l ∈ ls, 0x0d ∉ l) :
    linesOf (crlf.intercalate ls) = ls := by
  induction ls with
  | nil => exact absurd rfl hne
  | cons l ls ih =>
    rw [List.forall_mem_cons] at h
    cases ls with
    | nil =>
      have hend : linesOf [] = [[]] := rfl
      have hl := linesOf_append h.1 hend
      rw [List.append_nil] at hl
      rwa [List.intercalate_singleton]
    | cons l' ls =>
      have hrest := ih (by simp) h.2
      rw [List.intercalate_cons_cons, List.append_assoc]
      apply linesOf_append h.1
      rw [crlf, List.cons_append, List.cons_append, List.nil_append, linesOf, ← crlf, hrest]

theorem cut_lineEnd (hl : l ≠ []) (h : 0x0d ∉ l) (rest : Bytes) :
    cut (crlf ++ crlf) (crlf ++ (l ++ rest)) =
      (cut (crlf ++ crlf) (l ++ rest)).map fun (front, behind) => (crlf ++ front, behind) := by
  obtain ⟨b, l, rfl⟩ := List.exists_cons_of_ne_nil hl
  rw [List.mem_cons, not_or] at h
  -- the end of a line is not yet an empty line: the next one begins with another byte
  have hreturn : ¬ crlf ++ crlf <+: 0x0d :: 0x0a :: (b :: l ++ rest) := by
    intro hp
    have hrest := (List.cons_prefix_cons.mp (List.cons_prefix_cons.mp hp).2).2
    exact h.1 (List.cons_prefix_cons.mp hrest).1
  have hfeed : ¬ crlf ++ crlf <+: 0x0a :: (b :: l ++ rest) := by
    intro hp
    exact absurd (List.cons_prefix_cons.mp hp).1 (by decide)
  change cut (crlf ++ crlf) (0x0d :: 0x0a :: (b :: l ++ rest)) = _
  rw [cut_skip hreturn, cut_skip hfeed, Option.map_map]
  rfl

theorem cut_lines (hne : ls ≠ []) (h : ∀ l ∈ ls, l ≠ [] ∧ 0x0d ∉ l) (body : Bytes) :
    cut (crlf ++ crlf) (ls.flatMap (· ++ crlf) ++ (crlf ++ body)) =
      some (crlf.intercalate ls, body) := by
  induction ls with
  | nil => exact absurd rfl hne
  | cons l ls ih =>
    rw [List.forall_mem_cons] at h
    have hskip : ∀ rest, cut (crlf ++ crlf) (l ++ rest) =
        (cut (crlf ++ crlf) rest).map fun (front, behind) => (l ++ front, behind) :=
      cut_append (0x0a :: crlf) h.1.2
    rw [List.flatMap_cons, List.append_assoc, List.append_assoc, hskip]
    cases ls with
    | nil =>
      have hhere : cut (crlf ++ crlf) (crlf ++ (crlf ++ body)) = some ([], body) := by
        rw [← List.append_assoc, cut_here]
      rw [List.flatMap_nil, List.nil_append, hhere, List.intercalate_singleton]
      simp
    | cons l' ls =>
      have hrest := ih (by simp) h.2
      rw [List.flatMap_cons, List.append_assoc, List.append_assoc] at hrest ⊢
      rw [List.forall_mem_cons] at h
      rw [cut_lineEnd h.2.1.1 h.2.1.2, hrest, List.intercalate_cons_cons]
      simp

end Lines

def bytesOf (cs : List Char) : Bytes := cs.flatMap String.utf8EncodeChar

theorem text_bytesOf (t : String) : text (bytesOf t.toList) = some t := by
  have h := Utf8.strict_encode t
  rw [Utf8.encode] at h
  rw [text, bytesOf, h]
  rfl

theorem bytesOf_append (cs ds : List Char) : bytesOf (cs ++ ds) = bytesOf cs ++ bytesOf ds :=
  List.flatMap_append

theorem bytesOf_inj {cs ds : List Char} : bytesOf cs = bytesOf ds ↔ cs = ds := by
  constructor
  · intro h
    have hcs := text_bytesOf (String.ofList cs)
    have hds := text_bytesOf (String.ofList ds)
    rw [String.toList_ofList] at hcs hds
    rw [h, hds, Option.some_inj] at hcs
    exact (String.ofList_injective hcs).symm
  · exact congrArg bytesOf

theorem not_mem_bytesOf {cs : List Char} (hb : b.toNat < 0x80)
    (h : ∀ c ∈ cs, c.toNat ≠ b.toNat) : b ∉ bytesOf cs := by
  intro hm
  obtain ⟨c, hc, hbc⟩ := List.mem_flatMap.mp hm
  exact h c hc (Utf8.mem_encodeChar hbc hb)

structure Clean (f : String × String) : Prop where
  name : ∀ c ∈ f.1.toList, c ≠ '\r' ∧ c ≠ ':'
  value : ∀ c ∈ f.2.toList, c ≠ '\r'

def fieldLine (f : String × String) : Bytes :=
  bytesOf f.1.toList ++ 0x3a :: 0x20 :: bytesOf f.2.toList

theorem bytesOf_fieldChars (f : String × String) :
    bytesOf (Request.fieldChars f) = fieldLine f ++ crlf := by
  rw [Request.fieldChars, List.append_assoc, List.cons_append, List.cons_append, bytesOf_append]
  have hmarks : ∀ cs, bytesOf (':' :: ' ' :: cs) = 0x3a :: 0x20 :: bytesOf cs := fun _ => rfl
  rw [hmarks, bytesOf_append, fieldLine, List.append_assoc]
  rfl

theorem char_ne {c d : Char} (h : c ≠ d) : c.toNat ≠ d.toNat :=
  fun hn => h (Char.toNat_inj.mp hn)

theorem Clean.line {f : String × String} (h : Clean f) :
    fieldLine f ≠ [] ∧ 0x0d ∉ fieldLine f := by
  have hname : (0x0d : UInt8) ∉ bytesOf f.1.toList :=
    not_mem_bytesOf (by decide) fun c hc => char_ne (d := '\r') (h.name c hc).1
  have hvalue : (0x0d : UInt8) ∉ bytesOf f.2.toList :=
    not_mem_bytesOf (by decide) fun c hc => char_ne (d := '\r') (h.value c hc)
  refine ⟨by simp [fieldLine], ?_⟩
  rw [fieldLine, List.mem_append, List.mem_cons, List.mem_cons, not_or, not_or, not_or]
  exact ⟨hname, by decide, by decide, hvalue⟩

theorem readField_fieldLine {f : String × String} (h : Clean f) :
    readField (fieldLine f) = some f := by
  have hname : (0x3a : UInt8) ∉ bytesOf f.1.toList :=
    not_mem_bytesOf (by decide) fun c hc => char_ne (d := ':') (h.name c hc).2
  rw [readField, fieldLine, cut_single hname]
  simp only [text_bytesOf]
  rfl

theorem mapM_readField {fs : Fields} (h : ∀ f ∈ fs, Clean f) :
    (fs.map fieldLine).mapM readField = some fs := by
  induction fs with
  | nil => rfl
  | cons f fs ih =>
    rw [List.forall_mem_cons] at h
    rw [List.map_cons, List.mapM_cons, readField_fieldLine h.1, ih h.2]
    rfl

section Validate

theorem ne_of_visible {c : Char} (h : Text.isVisible c = true) : c ≠ '\r' ∧ c ≠ ' ' := by
  constructor
  · rintro rfl
    exact absurd h (by decide)
  · rintro rfl
    exact absurd h (by decide)

theorem visible_of_isWord {w : String} (h : Request.isWord w = true) {c : Char}
    (hc : c ∈ w.toList) : Text.isVisible c = true :=
  List.all_eq_true.mp h c hc

theorem clean_of_valid {f : String × String} (hname : Request.isName f.1 = true)
    (hvalue : Request.isValue f.2 = true) : Clean f := by
  simp only [Request.isName, Bool.and_eq_true, Bool.not_eq_true', List.contains_eq_mem,
    decide_eq_false_iff_not] at hname
  refine ⟨fun c hc => ⟨(ne_of_visible (visible_of_isWord hname.1.2 hc)).1, ?_⟩, fun c hc => ?_⟩
  · rintro rfl
    exact hname.2 hc
  · have hall := List.all_eq_true.mp hvalue c hc
    simp only [Bool.and_eq_true, decide_eq_true_eq] at hall
    exact hall.1.1

theorem clean_of_validate {fs : Fields} (h : Request.validateFields fs = .ok ()) :
    ∀ f ∈ fs, Clean f := by
  induction fs with
  | nil => exact fun f hf => absurd hf List.not_mem_nil
  | cons f fs ih =>
    obtain ⟨name, value⟩ := f
    rw [Request.validateFields] at h
    by_cases hname : Request.isName name = true
    · by_cases hvalue : Request.isValue value = true
      · rw [if_neg (by simp [hname]), if_neg (by simp [hvalue])] at h
        rw [List.forall_mem_cons]
        exact ⟨clean_of_valid hname hvalue, ih h⟩
      · rw [if_neg (by simp [hname]), if_pos (by simp [hvalue])] at h
        cases h
    · rw [if_pos (by simp [hname])] at h
      cases h

theorem clean_named {name value : String}
    (hname : name.toList.all (fun c => c ≠ '\r' ∧ c ≠ ':') = true)
    (hvalue : ∀ c ∈ value.toList, c ≠ '\r') : Clean (name, value) where
  name c hc := by simpa using List.all_eq_true.mp hname c hc
  value := hvalue

theorem clean_length (n : Nat) : Clean ("Content-Length", toString n) := by
  apply clean_named (by decide)
  rw [Text.toList_toString]
  rintro c hc rfl
  exact Text.not_mem_toDigits (by decide) n hc

theorem clean_announced {r : Request} (h : Request.validateFields r.headers = .ok ()) :
    ∀ f ∈ r.announced, Clean f := by
  intro f hf
  rw [Request.announced] at hf
  split at hf
  · exact clean_of_validate h f hf
  · rcases List.mem_append.mp hf with hf | hf
    · exact clean_of_validate h f hf
    · rw [List.mem_singleton.mp hf]
      exact clean_length _

end Validate

def requestLine (r : Request) : Bytes :=
  bytesOf r.method.toList ++ 0x20 :: (bytesOf r.target.toList ++ 0x20 ::
    bytesOf "HTTP/1.1".toList)

theorem bytesOf_headChars (r : Request) :
    bytesOf r.headChars =
      (requestLine r :: r.announced.map fieldLine).flatMap (· ++ crlf) ++ crlf := by
  have hfields : bytesOf (r.announced.flatMap Request.fieldChars) =
      (r.announced.map fieldLine).flatMap (· ++ crlf) := by
    rw [bytesOf, List.flatMap_assoc, List.flatMap_map]
    exact congrArg (r.announced.flatMap ·) (funext bytesOf_fieldChars)
  have hline : bytesOf (r.method.toList ++ ' ' :: r.target.toList ++ " HTTP/1.1".toList ++
      Request.lineEnd) = requestLine r ++ crlf := by
    have hspace : ∀ cs, bytesOf (' ' :: cs) = 0x20 :: bytesOf cs := fun _ => rfl
    have hversion : " HTTP/1.1".toList = ' ' :: "HTTP/1.1".toList := by decide
    rw [bytesOf_append, bytesOf_append, bytesOf_append, hspace, hversion, hspace, requestLine]
    simp only [List.append_assoc, List.cons_append]
    rfl
  rw [Request.headChars, bytesOf_append, bytesOf_append, hline, hfields, List.flatMap_cons]
  rfl

theorem requestLine_line {r : Request} (hm : Request.isWord r.method = true)
    (ht : Request.isWord r.target = true) : requestLine r ≠ [] ∧ 0x0d ∉ requestLine r := by
  have hfree : ∀ {w : String}, Request.isWord w = true → (0x0d : UInt8) ∉ bytesOf w.toList :=
    fun hw => not_mem_bytesOf (by decide) fun c hc =>
      char_ne (d := '\r') (ne_of_visible (visible_of_isWord hw hc)).1
  refine ⟨by simp [requestLine], ?_⟩
  rw [requestLine, List.mem_append, List.mem_cons, List.mem_append, List.mem_cons, not_or, not_or,
    not_or, not_or]
  exact ⟨hfree hm, by decide, hfree ht, by decide, hfree (by decide)⟩

def sent (r : Request) : RequestText where
  method := r.method
  target := r.target
  version := "HTTP/1.1"
  headers := r.headers ++
    if r.body ≠ [] ∧ ¬ r.headers.has "Content-Length" ∧ ¬ r.headers.has "Transfer-Encoding" then
      [("Content-Length", toString r.body.length)]
    else []
  body := r.body

theorem headers_sent (r : Request) : (sent r).headers = r.announced := by
  rw [sent, Request.announced]
  dsimp only
  by_cases h : (r.body.isEmpty || r.headers.has "Content-Length" ||
      r.headers.has "Transfer-Encoding") = true
  · rw [if_pos h, if_neg, List.append_nil]
    simp only [Bool.or_eq_true, List.isEmpty_iff] at h
    tauto
  · rw [if_neg h, if_pos]
    simp only [Bool.or_eq_true, List.isEmpty_iff] at h
    tauto

theorem read_headChars {r : Request} (hm : Request.isWord r.method = true)
    (ht : Request.isWord r.target = true) (hf : ∀ f ∈ r.announced, Clean f) :
    read (bytesOf r.headChars ++ r.body) = some (sent r) := by
  have hlines : ∀ l ∈ requestLine r :: r.announced.map fieldLine, l ≠ [] ∧ 0x0d ∉ l := by
    rw [List.forall_mem_cons]
    refine ⟨requestLine_line hm ht, fun l hl => ?_⟩
    obtain ⟨f, hmem, rfl⟩ := List.mem_map.mp hl
    exact (hf f hmem).line
  have hspace : ∀ {w : String}, Request.isWord w = true → (0x20 : UInt8) ∉ bytesOf w.toList :=
    fun hw => not_mem_bytesOf (by decide) fun c hc =>
      char_ne (d := ' ') (ne_of_visible (visible_of_isWord hw hc)).2
  have hcut := cut_lines (by simp) hlines r.body
  have hsplit := linesOf_intercalate (by simp) fun l hl => (hlines l hl).2
  have hmethod : cut [0x20] (requestLine r) = some (bytesOf r.method.toList,
      bytesOf r.target.toList ++ 0x20 :: bytesOf "HTTP/1.1".toList) := cut_single (hspace hm) _
  rw [bytesOf_headChars, List.append_assoc, read, hcut]
  simp only [Option.bind_eq_bind, Option.bind_some, hsplit, List.head?_cons, List.tail_cons,
    hmethod, cut_single (hspace ht), text_bytesOf, mapM_readField hf]
  rw [← headers_sent]
  rfl

end RequestText

namespace Request

theorem encode_of_valid {r : Request} (h : r.validate = .ok ()) :
    r.encode = .ok (RequestText.bytesOf r.headChars ++ r.body) := by
  rw [encode, h]
  rfl

theorem encode_of_error {r : Request} {e : Failure} (h : r.validate = .error e) :
    r.encode = .error e := by
  rw [encode, h]
  rfl

theorem of_validate {r : Request} (h : r.validate = .ok ()) :
    isWord r.method = true ∧ isWord r.target = true ∧ validateFields r.headers = .ok () := by
  rw [validate] at h
  by_cases hm : (r.method.isEmpty || !isWord r.method) = true
  · rw [if_pos hm] at h
    cases h
  by_cases ht : (!isWord r.target) = true
  · rw [if_neg hm, if_pos ht] at h
    cases h
  rw [if_neg hm, if_neg ht] at h
  simp only [Bool.or_eq_true, Bool.not_eq_true', not_or, Bool.not_eq_false] at hm ht
  exact ⟨hm.2, ht, h⟩

/-- A request is encoded if and only if it is valid, and what has been encoded is read back as that
one request: no part of it can be taken for another part. -/
theorem encode_reads_back (r : Request) :
    match r.validate with
    | .error e => r.encode = .error e
    | .ok () => ∃ bytes, r.encode = .ok bytes ∧
        RequestText.read bytes = some (RequestText.sent r) := by
  cases h : r.validate with
  | error e => exact encode_of_error h
  | ok _ =>
    obtain ⟨hm, ht, hf⟩ := of_validate h
    exact ⟨_, encode_of_valid h, RequestText.read_headChars hm ht (RequestText.clean_announced hf)⟩

example : (post "/a" [0x68, 0x69]).encode.toOption.bind RequestText.read =
    some ⟨"POST", "/a", "HTTP/1.1", [("Content-Length", "2")], [0x68, 0x69]⟩ := by
  decide +kernel

end Request

end HttpRelay
