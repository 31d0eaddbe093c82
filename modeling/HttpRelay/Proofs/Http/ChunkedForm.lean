import HttpRelay.Proofs.Http.ChunkedCuts
import HttpRelay.Proofs.Http.ChunkedText

namespace HttpRelay

structure Block where
  size : SizeForm
  data : Bytes
  data_ne_nil : data ≠ []
  size_value : size.value = data.length

structure TrailerLine where
  line : Bytes
  line_ne_nil : line ≠ []
  line_whole : ¬ crlf <:+: line

structure BodyForm where
  blocks : List Block
  last : SizeForm
  trailers : List TrailerLine
  last_value : last.value = 0

namespace Block

def bytes (c : Block) : Bytes := c.size.bytes ++ (c.data ++ crlf)

def events (c : Block) : List BodyEvent :=
  [.chunkStart c.size.value, .data c.data, .chunkEnd]

theorem numbered (c : Block) : c.size.digits ≠ [] := by
  apply SizeForm.digits_ne_nil
  rw [c.size_value]
  exact Nat.ne_of_gt (List.length_pos_iff.mpr c.data_ne_nil)

end Block

def TrailerLine.bytes (t : TrailerLine) : Bytes := t.line ++ crlf

namespace BodyForm

def bytes (t : BodyForm) : Bytes :=
  t.blocks.flatMap Block.bytes ++
    (t.last.bytes ++ (t.trailers.flatMap TrailerLine.bytes ++ crlf))

def events (t : BodyForm) : List BodyEvent := t.blocks.flatMap Block.events ++ [.done]

def payload (t : BodyForm) : Bytes := t.blocks.flatMap Block.data

def Numbered (t : BodyForm) : Prop := t.last.digits ≠ []

theorem data_ne_nil (t : BodyForm) {bs : Bytes} (h : .data bs ∈ t.events) : bs ≠ [] := by
  rcases List.mem_append.mp h with hblock | hdone
  · obtain ⟨c, -, hc⟩ := List.mem_flatMap.mp hblock
    obtain rfl : bs = c.data := by simpa [Block.events] using hc
    exact c.data_ne_nil
  · simp at hdone

theorem payload_events (t : BodyForm) : Chunked.payload t.events = t.payload := by
  have hblocks : ∀ cs : List Block,
      Chunked.payload (cs.flatMap Block.events) = cs.flatMap Block.data := by
    intro cs
    induction cs with
    | nil => rfl
    | cons c cs ih =>
      rw [List.flatMap_cons, List.flatMap_cons, Chunked.payload_append, ih]
      simp [Chunked.payload, Block.events, BodyEvent.payload]
  rw [events, Chunked.payload_append, hblocks]
  exact List.append_nil _

theorem Numbered.digit_first {t : BodyForm} (h : t.Numbered) :
    ∃ b more, t.bytes = b :: more ∧ (SizeLine.digit? b).isSome = true := by
  have hsize : ∀ size : SizeForm, size.digits ≠ [] → ∀ rest,
      ∃ b more, size.bytes ++ rest = b :: more ∧ (SizeLine.digit? b).isSome = true := by
    intro size hne rest
    obtain ⟨b, digits, hdigits⟩ := List.exists_cons_of_ne_nil hne
    have hb : b ∈ size.digits := by
      rw [hdigits]
      exact List.mem_cons_self
    refine ⟨b, digits ++ (size.tail.bytes ++ rest), ?_, size.digits_hex b hb⟩
    rw [SizeForm.bytes, hdigits, List.append_assoc]
    rfl
  unfold bytes
  cases t.blocks with
  | nil => exact hsize t.last h _
  | cons c cs =>
    rw [List.flatMap_cons, Block.bytes, List.append_assoc, List.append_assoc]
    exact hsize c.size c.numbered _

theorem merge_events (t : BodyForm) : Chunked.merge t.events = t.events := by
  have hblocks : ∀ cs : List Block, Chunked.merge (cs.flatMap Block.events ++ [.done]) =
      cs.flatMap Block.events ++ [.done] := by
    intro cs
    induction cs with
    | nil => rfl
    | cons c cs ih =>
      have hc : ∀ es, Chunked.merge (c.events ++ es) = c.events ++ Chunked.merge es :=
        fun _ => rfl
      rw [List.flatMap_cons, List.append_assoc, hc, ih]
  exact hblocks t.blocks

end BodyForm

namespace Chunked

variable {s : State} {b w rest : Bytes} {es : List BodyEvent}

def Reply.events (r : Reply) : List BodyEvent :=
  match r.found with
  | .ok (some e) => [e]
  | _ => []

inductive Call where
  | feed (bytes : Bytes)
  | decode
deriving DecidableEq, Repr

def Call.bytes : Call → Bytes
  | feed p => p
  | decode => []

structure Session where
  state : State
  buffer : Bytes
  events : List BodyEvent
deriving DecidableEq, Repr

namespace Session

def start : Session := ⟨.size, [], []⟩

def call (s : Session) : Call → Session
  | .feed p => { s with buffer := s.buffer ++ p }
  | .decode =>
    let r := Chunked.decode s.state s.buffer
    ⟨r.state, r.buffer, s.events ++ r.events⟩

def run (calls : List Call) : Session := calls.foldl call start

end Session

inductive Taken : State → Bytes → List BodyEvent → Prop
  | size (cs : List Block) : Taken .size (cs.flatMap Block.bytes) (cs.flatMap Block.events)
  | data (cs : List Block) (size : SizeForm) (part : Bytes) (n : Nat) (hn : 0 < n)
      (hsize : size.value = part.length + n) :
      Taken (.data n) (cs.flatMap Block.bytes ++ (size.bytes ++ part))
        (cs.flatMap Block.events ++ [.chunkStart size.value, .data part])
  | endPending (cs : List Block) (c : Block) :
      Taken .endPending (cs.flatMap Block.bytes ++ (c.size.bytes ++ c.data))
        (cs.flatMap Block.events ++ [.chunkStart c.size.value, .data c.data])
  | dataEnd (cs : List Block) (c : Block) :
      Taken .dataEnd (cs.flatMap Block.bytes ++ (c.size.bytes ++ c.data))
        (cs.flatMap Block.events ++ c.events)
  | trailers (cs : List Block) (last : SizeForm) (ts : List TrailerLine) (h : last.value = 0) :
      Taken .trailers
        (cs.flatMap Block.bytes ++ (last.bytes ++ ts.flatMap TrailerLine.bytes))
        (cs.flatMap Block.events)
  | done (t : BodyForm) : Taken .done t.bytes t.events

def Reply.Continues (r : Reply) (w : Bytes) (es : List BodyEvent) (b : Bytes) : Prop :=
  ∃ used reported, b = used ++ r.buffer ∧ Taken r.state (w ++ used) reported ∧
    bytewise (es ++ r.events) = bytewise reported

theorem splitLine_sound {line : Bytes} (h : splitLine b = some (line, rest)) :
    ¬ crlf <:+: line ∧ b = line ++ (crlf ++ rest) := by
  fun_induction splitLine b generalizing line with
  | case1 tail =>
    simp only [Option.some.injEq, Prod.mk.injEq] at h
    obtain ⟨rfl, rfl⟩ := h
    exact ⟨by decide, rfl⟩
  | case2 x tail hne ih =>
    simp only [Option.map_eq_some_iff, Prod.mk.injEq, Prod.exists] at h
    obtain ⟨l, t, hl, rfl, rfl⟩ := h
    obtain ⟨hwhole, htail⟩ := ih hl
    refine ⟨?_, by rw [htail]; rfl⟩
    intro hin
    rcases List.infix_cons_iff.mp hin with ⟨more, hmore⟩ | hin
    · obtain ⟨hx, hl⟩ := List.cons.inj hmore
      apply hne (more ++ (crlf ++ t)) hx.symm
      rw [htail, ← hl]
      rfl
    · exact hwhole hin
  | case3 => cases h

namespace Reply

variable {r : Reply}

theorem Continues.still (h : Taken s w es) (hs : r.state = s) (hb : r.buffer = b)
    (he : r.events = []) : r.Continues w es b := by
  refine ⟨[], es, hb.symm, ?_, ?_⟩
  · rw [hs, List.append_nil]
    exact h
  · rw [he, List.append_nil]

theorem Continues.behind {x : Bytes} (h : r.Continues (w ++ x) es b) :
    r.Continues w es (x ++ b) := by
  obtain ⟨used, reported, rfl, htaken, hevents⟩ := h
  rw [List.append_assoc] at htaken
  exact ⟨x ++ used, reported, (List.append_assoc _ _ _).symm, htaken, hevents⟩

end Reply

theorem skipTrailers_continues (cs : List Block) (last : SizeForm) (h : last.value = 0)
    (ts : List TrailerLine) (b : Bytes) :
    (skipTrailers b).Continues
      (cs.flatMap Block.bytes ++ (last.bytes ++ ts.flatMap TrailerLine.bytes))
      (cs.flatMap Block.events) b := by
  fun_induction skipTrailers b generalizing ts with
  | case1 b hs =>
    apply Reply.Continues.still (.trailers cs last ts h) rfl rfl
    by_cases hl : maxLine < b.length
    · simp [Reply.events, hl]
    · simp [Reply.events, hl]
  | case2 b rest hs =>
    obtain ⟨-, rfl⟩ := splitLine_sound hs
    refine ⟨crlf, BodyForm.events ⟨cs, last, ts, h⟩, rfl, ?_, rfl⟩
    have hdone := Taken.done ⟨cs, last, ts, h⟩
    simpa only [BodyForm.bytes, List.append_assoc] using hdone
  | case3 b x line rest hs ih =>
    obtain ⟨hwhole, rfl⟩ := splitLine_sound hs
    have hnext := ih (ts ++ [⟨x :: line, List.cons_ne_nil x line, hwhole⟩])
    have hb : x :: line ++ (crlf ++ rest) = (x :: line ++ crlf) ++ rest :=
      (List.append_assoc _ _ _).symm
    rw [hb]
    apply Reply.Continues.behind
    simpa [TrailerLine.bytes] using hnext

theorem readSize_continues (cs : List Block) (b : Bytes) :
    (readSize b).Continues (cs.flatMap Block.bytes) (cs.flatMap Block.events) b := by
  unfold readSize
  split
  · rename_i rest hs
    obtain ⟨t, ht, rfl⟩ := SizeLine.scan_sound hs
    apply Reply.Continues.behind
    have htrailers := skipTrailers_continues cs t ht [] rest
    rwa [List.flatMap_nil, List.append_nil] at htrailers
  · rename_i size rest hn hs
    obtain ⟨t, rfl, rfl⟩ := SizeLine.scan_sound hs
    have hdata := Taken.data cs t [] t.value (Nat.pos_of_ne_zero hn) (Nat.zero_add _).symm
    rw [List.append_nil] at hdata
    refine ⟨t.bytes, _, rfl, hdata, ?_⟩
    simp [Reply.events, bytewise, atoms]
  · apply Reply.Continues.still (.size cs) rfl rfl
    by_cases hl : maxLine < b.length
    · simp [Reply.events, hl]
    · simp [Reply.events, hl]
  · exact Reply.Continues.still (.size cs) rfl rfl rfl

theorem readData_continues (cs : List Block) (size : SizeForm) (part : Bytes) (n : Nat)
    (hn : 0 < n) (hsize : size.value = part.length + n) (b : Bytes) :
    (readData n b).Continues (cs.flatMap Block.bytes ++ (size.bytes ++ part))
      (cs.flatMap Block.events ++ [.chunkStart size.value, .data part]) b := by
  -- data that comes in pieces is one run of bytes
  have hjoin : ∀ piece, bytewise (cs.flatMap Block.events ++
      [.chunkStart size.value, .data part] ++ [.data piece]) =
      bytewise (cs.flatMap Block.events ++ [.chunkStart size.value, .data (part ++ piece)]) := by
    intro piece
    simp [bytewise, atoms]
  by_cases hb : b = []
  · subst hb
    exact Reply.Continues.still (.data cs size part n hn hsize) rfl rfl rfl
  rcases Nat.lt_or_ge b.length n with hlt | hge
  · rw [readData_of_lt hb hlt]
    refine ⟨b, _, (List.append_nil b).symm, ?_, hjoin b⟩
    have hdata := Taken.data cs size (part ++ b) (n - b.length) (Nat.sub_pos_of_lt hlt) (by
      rw [List.length_append]
      omega)
    simpa only [List.append_assoc] using hdata
  · rw [readData_of_le hn hge]
    have hlen : (b.take n).length = n := List.length_take_of_le hge
    have hne : part ++ b.take n ≠ [] := by
      apply List.append_ne_nil_of_right_ne_nil
      rw [← List.length_pos_iff, hlen]
      exact hn
    have hvalue : size.value = (part ++ b.take n).length := by
      rw [List.length_append, hlen, hsize]
    have hend := Taken.endPending cs ⟨size, part ++ b.take n, hne, hvalue⟩
    refine ⟨b.take n, _, (List.take_append_drop n b).symm, ?_, hjoin (b.take n)⟩
    simpa only [List.append_assoc] using hend

theorem readDataEnd_continues (cs : List Block) (c : Block) (b : Bytes) :
    (readDataEnd b).Continues (cs.flatMap Block.bytes ++ (c.size.bytes ++ c.data))
      (cs.flatMap Block.events ++ c.events) b := by
  unfold readDataEnd
  split
  · rename_i rest
    have hnext := readSize_continues (cs ++ [c]) rest
    have hb : (0x0d :: 0x0a :: rest : Bytes) = crlf ++ rest := rfl
    rw [hb]
    apply Reply.Continues.behind
    simpa [Block.bytes] using hnext
  · exact Reply.Continues.still (.dataEnd cs c) rfl rfl rfl
  · exact Reply.Continues.still (.dataEnd cs c) rfl rfl rfl

theorem decode_continues (h : Taken s w es) (b : Bytes) : (decode s b).Continues w es b := by
  cases h with
  | size cs => exact readSize_continues cs b
  | data cs size part n hn hsize => exact readData_continues cs size part n hn hsize b
  | endPending cs c =>
    refine ⟨[], cs.flatMap Block.events ++ c.events, rfl, ?_, ?_⟩
    · rw [List.append_nil]
      exact .dataEnd cs c
    · rw [List.append_assoc]
      rfl
  | dataEnd cs c => exact readDataEnd_continues cs c b
  | trailers cs last ts h => exact skipTrailers_continues cs last h ts b
  | done t => exact Reply.Continues.still (.done t) rfl rfl rfl

namespace Session

structure Sound (s : Session) (fed : Bytes) : Prop where
  state_sound : s.state.Sound
  taken : ∃ w es, fed = w ++ s.buffer ∧ Taken s.state w es ∧ bytewise s.events = bytewise es
  data_ne_nil : ∀ bs, .data bs ∈ s.events → bs ≠ []

theorem start_sound : start.Sound [] :=
  ⟨trivial, ⟨[], [], rfl, .size [], rfl⟩, fun _ h => nomatch h⟩

theorem call_sound {s : Session} {fed : Bytes} (h : s.Sound fed) (c : Call) :
    (s.call c).Sound (fed ++ c.bytes) := by
  obtain ⟨w, es, hfed, htaken, hevents⟩ := h.taken
  cases c with
  | feed p =>
    refine ⟨h.state_sound, ⟨w, es, ?_, htaken, hevents⟩, h.data_ne_nil⟩
    rw [call, Call.bytes, hfed, List.append_assoc]
  | decode =>
    obtain ⟨used, reported, hbuffer, hnext, hreported⟩ := decode_continues htaken s.buffer
    refine ⟨decode_sound h.state_sound s.buffer, ⟨w ++ used, reported, ?_, hnext, ?_⟩, ?_⟩
    · rw [call, Call.bytes, hfed, List.append_nil, List.append_assoc, ← hbuffer]
    · rw [call, bytewise_append, hevents, ← bytewise_append, hreported]
    · intro bs hbs
      rcases List.mem_append.mp hbs with hold | hnew
      · exact h.data_ne_nil bs hold
      · apply decode_data_ne_nil h.state_sound (b := s.buffer)
        unfold Reply.events at hnew
        split at hnew
        · rename_i e he
          rw [he, List.mem_singleton.mp hnew]
        · cases hnew

theorem run_sound (calls : List Call) : (run calls).Sound (calls.flatMap Call.bytes) := by
  have hcalls : ∀ s fed, Sound s fed →
      (calls.foldl call s).Sound (fed ++ calls.flatMap Call.bytes) := by
    induction calls with
    | nil =>
      intro s fed hs
      rwa [List.flatMap_nil, List.append_nil]
    | cons c calls ih =>
      intro s fed hs
      rw [List.flatMap_cons, ← List.append_assoc]
      exact ih _ _ (call_sound hs c)
  exact hcalls start [] start_sound

theorem events_of_done {s : Session} {fed : Bytes} (h : s.Sound fed) (hs : s.state = .done) :
    ∃ t : BodyForm, fed = t.bytes ++ s.buffer ∧ merge s.events = t.events ∧
      payload s.events = t.payload := by
  obtain ⟨w, es, hfed, htaken, hevents⟩ := h.taken
  rw [hs] at htaken
  cases htaken with
  | done t =>
    refine ⟨t, hfed, ?_, ?_⟩
    · rw [← merge_bytewise h.data_ne_nil, hevents, merge_bytewise fun _ => t.data_ne_nil,
        t.merge_events]
    · rw [← payload_bytewise, hevents, payload_bytewise, t.payload_events]

/-- Whatever is fed and however often it is decoded in between, the decoder ends behind a body
in chunks and has reported what this body says. -/
theorem body_of_done {calls : List Call} (h : (run calls).state = .done) :
    ∃ t : BodyForm, calls.flatMap Call.bytes = t.bytes ++ (run calls).buffer ∧
      merge (run calls).events = t.events ∧ payload (run calls).events = t.payload ∧
      ∀ c ∈ t.blocks, c.size.digits ≠ [] ∧ c.size.value < 2 ^ 64 := by
  obtain ⟨t, hfed, hmerge, hpayload⟩ := events_of_done (run_sound calls) h
  exact ⟨t, hfed, hmerge, hpayload, fun c _ => ⟨c.numbered, c.size.value_lt⟩⟩

def alphabet : List Call :=
  [.feed "1A;x=y\r\nabcdefghijklm".toUTF8.toList, .decode, .decode,
    .feed "nopqrstuvwxyz\r\n00".toUTF8.toList, .decode, .decode, .decode,
    .feed "\r\nTag: a\r\n\r\nnext".toUTF8.toList, .decode]

theorem body_of_alphabet : (run alphabet).state = .done ∧
    ∃ t : BodyForm, alphabet.flatMap Call.bytes = t.bytes ++ (run alphabet).buffer ∧
      merge (run alphabet).events = t.events ∧ payload (run alphabet).events = t.payload ∧
      ∀ c ∈ t.blocks, c.size.digits ≠ [] ∧ c.size.value < 2 ^ 64 := by
  have h : (run alphabet).state = .done := by decide +kernel
  exact ⟨h, body_of_done h⟩

def undigited : List Call := [.feed (crlf ++ crlf), .decode]

theorem undigited_done : (run undigited).state = .done ∧
    ¬ ∃ t : BodyForm, t.Numbered ∧
      undigited.flatMap Call.bytes = t.bytes ++ (run undigited).buffer := by
  refine ⟨by decide +kernel, ?_⟩
  rintro ⟨t, hnumbered, hbytes⟩
  obtain ⟨b, more, hstart, hb⟩ := hnumbered.digit_first
  rw [hstart] at hbytes
  obtain rfl : 0x0d = b := (List.cons.inj hbytes).1
  exact absurd hb (by decide)

end Session

end Chunked

end HttpRelay
