import Mathlib.Control.Monad.Basic
import HttpRelay.Proofs.Exchange.BodyPieces
import HttpRelay.Proofs.Exchange.BodyRuns
import HttpRelay.Proofs.Exchange.HeadPieces
import HttpRelay.Proofs.Http.ChunkedText
import HttpRelay.Proofs.Http.HeadText

namespace HttpRelay

structure HeadText.Fits (t : HeadText) : Prop where
  fields : t.fields.length ≤ HeadReader.maxHeaders
  short : t.bytes.length ≤ maxHead

theorem HeadText.Fits.reads {t : HeadText} (h : t.Fits) : HeadReader.Reads t.bytes t.head := by
  have := t.scan_bytes [] h.fields
  rwa [List.append_nil] at this

structure HeadsText where
  interims : List HeadText
  final : HeadText
  interims_fit : ∀ t ∈ interims, t.Fits
  interims_interim : ∀ t ∈ interims, t.head.isInterim = true
  final_fits : final.Fits
  final_final : final.head.isInterim = false

namespace HeadsText

def bytes (t : HeadsText) : Bytes := t.interims.flatMap HeadText.bytes ++ t.final.bytes

theorem leads (t : HeadsText) (rest : Bytes) : Leads t.final.head rest (t.bytes ++ rest) := by
  have hinterims : ∀ is : List HeadText, (∀ i ∈ is, i.Fits) →
      (∀ i ∈ is, i.head.isInterim = true) →
      Leads t.final.head rest (is.flatMap HeadText.bytes ++ (t.final.bytes ++ rest)) := by
    intro is hfit hint
    induction is with
    | nil => exact .final t.final_fits.reads t.final_fits.short t.final_final
    | cons i is ih =>
      have hi := hfit i List.mem_cons_self
      rw [List.flatMap_cons, List.append_assoc]
      refine .interim hi.reads hi.short (hint i List.mem_cons_self) (ih ?_ ?_)
      · exact fun j hj => hfit j (List.mem_cons_of_mem i hj)
      · exact fun j hj => hint j (List.mem_cons_of_mem i hj)
  rw [bytes, List.append_assoc]
  exact hinterims t.interims t.interims_fit t.interims_interim

end HeadsText

def Head.IsBodiless (head : Head) (method : String) : Prop :=
  Text.sameName method "HEAD" = true ∨ Framing.isBodiless head.status = true

inductive Head.Announces (head : Head) (method : String) : Bytes → Bytes → Bool → Prop where
  | nothing (bodiless : head.IsBodiless method) (wire : Bytes) :
      Announces head method [] wire false
  | chunks (body : ¬ head.IsBodiless method) (chunked : head.isChunked = true)
      (text : ChunkedText) (extra : Bytes) :
      Announces head method text.payload (text.bytes ++ extra) false
  | length (body : ¬ head.IsBodiless method) (plain : head.isChunked = false)
      {payload : Bytes} (length : head.contentLength = .ok (some payload.length))
      (extra : Bytes) : Announces head method payload (payload ++ extra) false
  | untilClose (body : ¬ head.IsBodiless method) (plain : head.isChunked = false)
      (length : head.contentLength = .ok none) (payload : Bytes) :
      Announces head method payload payload true

namespace Head

variable {head : Head} {method : String} {payload wire : Bytes} {closes : Bool}

theorem ofHead_of_bodiless (h : head.IsBodiless method) :
    Framing.ofHead head method = .ok (.empty false) := by
  have hbodiless : (Text.sameName method "HEAD" || Framing.isBodiless head.status) = true := by
    simpa [IsBodiless] using h
  exact if_pos hbodiless

theorem ofHead_of_body (h : ¬ head.IsBodiless method) : Framing.ofHead head method =
    if head.isChunked then .ok (.chunked .size) else head.contentLength.map fun
      | some n => .length n
      | none => .untilClose := by
  have hbody : ¬ (Text.sameName method "HEAD" || Framing.isBodiless head.status) = true := by
    simpa [IsBodiless] using h
  exact if_neg hbody

theorem Announces.framing (h : head.Announces method payload wire closes) :
    ∃ framing, Framing.ofHead head method = .ok framing ∧
      (closes = false ∧ (∀ b more, b ++ more = wire → framing.Running b more payload) ∨
        closes = true ∧ framing = .untilClose ∧ wire = payload) := by
  cases h with
  | nothing bodiless wire =>
    exact ⟨_, ofHead_of_bodiless bodiless, .inl ⟨rfl, fun b more _ => Framing.running_empty b more⟩⟩
  | chunks body chunked text extra =>
    refine ⟨.chunked .size, ?_, .inl ⟨rfl, fun b more hb => text.running hb⟩⟩
    rw [ofHead_of_body body, if_pos chunked]
  | length body plain length extra =>
    refine ⟨.length payload.length, ?_, .inl ⟨rfl, fun b more hb => ?_⟩⟩
    · rw [ofHead_of_body body, plain, length]
      rfl
    · have hle : payload.length ≤ (b ++ more).length := by
        rw [hb, List.length_append]
        exact Nat.le_add_right _ _
      have hrun := Framing.running_length hle
      rwa [hb, List.take_left] at hrun
  | untilClose body plain length payload =>
    refine ⟨.untilClose, ?_, .inr ⟨rfl, rfl, rfl⟩⟩
    rw [ofHead_of_body body, plain, length]
    rfl

end Head

theorem Receipt.of_announced {head : Head} {method : String} {payload wire left : Bytes}
    {closes : Bool} {ps : List Bytes} {later : List Arrival} {ending : HttpRelay.Ending}
    (h : head.Announces method payload wire closes) (hps : left ++ ps.flatten = wire)
    (hclose : closes = true → Incoming.ClosesAtOnce ⟨later, ending⟩) :
    ∃ framing, Framing.ofHead head method = .ok framing ∧
      (Receipt.of framing left ⟨Arrival.pieces ps ++ later, ending⟩).outcome = some (.ok ()) ∧
      (Receipt.of framing left ⟨Arrival.pieces ps ++ later, ending⟩).payload = payload := by
  obtain ⟨framing, hf, ⟨-, hrun⟩ | ⟨hc, rfl, rfl⟩⟩ := h.framing
  · exact ⟨framing, hf, collect_running later ending (hrun left ps.flatten hps)⟩
  · rw [← hps]
    exact ⟨_, hf, collect_untilClose (hclose hc) left⟩

namespace Request

variable {request : Request} {expected : UInt16} {peer : Peer}

theorem exchangeHeads_of_leads {bytes rest : Bytes} {p : Outgoing} {head : Head}
    {ps : List Bytes} {later : List Arrival} (he : request.encode = .ok bytes)
    (hs : (peer.outgoing.send bytes .write).outcome = some (.ok p))
    (hl : Leads head rest ps.flatten) (hi : peer.incoming.arrivals = Arrival.pieces ps ++ later) :
    ∃ qs : List Bytes, ∃ left : Bytes, left ++ qs.flatten = rest ∧
      (request.exchangeHeads peer).outcome =
        some (.ok (head, left, ⟨Arrival.pieces qs ++ later, peer.incoming.ending⟩)) := by
  have hbuffered : Leads head rest ([] ++ ps.flatten) := hl
  obtain ⟨qs, left, hrest, houtcome, hbuffer, hincoming⟩ :=
    HeadSearch.search_leads later (!([] : Bytes).isEmpty) peer.incoming.ending hbuffered
  refine ⟨qs, left, hrest, ?_⟩
  rw [exchangeHeads_of_sent he hs, Run.after, HeadSearch.run, nextHead, hi]
  dsimp only
  rw [houtcome, hbuffer, hincoming]
  rfl

structure Delivers (s : Run Head) (head : Head) (payload : Bytes) : Prop where
  outcome : s.outcome = some (.ok head)
  nonempty : ∀ t ∈ Effect.fragments s.effects, t ≠ ""
  text : String.join (Effect.fragments s.effects) = Utf8.lossy payload

theorem Delivers.fragments_eq_nil {s : Run Head} {head : Head} {payload : Bytes}
    (h : Delivers s head payload) (hp : payload = []) : Effect.fragments s.effects = [] := by
  have htext := h.text
  rw [hp] at htext
  cases hf : Effect.fragments s.effects with
  | nil => rfl
  | cons t ts =>
    rw [hf, String.join_cons] at htext
    have hempty : t ++ String.join ts = "" := htext
    have ht : t = "" := (String.append_eq_empty_iff.mp hempty).1
    exact absurd ht (h.nonempty t (by rw [hf]; exact List.mem_cons_self))

theorem stream_of_receipt {head : Head} {left payload : Bytes} {incoming : Incoming}
    {framing : Framing}
    (h : (request.exchangeHeads peer).outcome = some (.ok (head, left, incoming)))
    (hs : head.status = expected) (hf : Framing.ofHead head request.method = .ok framing)
    (ho : (Receipt.of framing left incoming).outcome = some (.ok ()))
    (hp : (Receipt.of framing left incoming).payload = payload) :
    Delivers (request.stream expected peer) head payload := by
  have houtcome := congrArg Run.outcome (stream_of_framing h hs hf)
  rw [ho] at houtcome
  refine ⟨houtcome, ?_, ?_⟩
  · rw [fragments_stream h hs hf]
    exact fun t => Stream.fragments_ne_empty
  · rw [fragments_stream h hs hf, ← hp]
    exact Stream.text_relayed ho

/-- A stream hands on exactly the payload of a response, however its bytes are cut into reads. -/
theorem stream_delivers {bytes payload wire : Bytes} {p : Outgoing} {heads : HeadsText}
    {closes : Bool} {ps : List Bytes} {later : List Arrival}
    (he : request.encode = .ok bytes)
    (hs : (peer.outgoing.send bytes .write).outcome = some (.ok p))
    (hstatus : heads.final.head.status = expected)
    (hbody : heads.final.head.Announces request.method payload wire closes)
    (hps : ps.flatten = heads.bytes ++ wire)
    (hi : peer.incoming.arrivals = Arrival.pieces ps ++ later)
    (hclose : closes = true → Incoming.ClosesAtOnce ⟨later, peer.incoming.ending⟩) :
    Delivers (request.stream expected peer) heads.final.head payload ∧
      (heads.final.head.IsBodiless request.method →
        Effect.fragments (request.stream expected peer).effects = []) := by
  have hleads := heads.leads wire
  rw [← hps] at hleads
  obtain ⟨qs, left, hrest, hheads⟩ := exchangeHeads_of_leads he hs hleads hi
  obtain ⟨framing, hf, ho, hp⟩ := Receipt.of_announced hbody hrest hclose
  have hdelivers := stream_of_receipt hheads hstatus hf ho hp
  refine ⟨hdelivers, fun hbodiless => hdelivers.fragments_eq_nil ?_⟩
  cases hbody with
  | nothing => rfl
  | chunks body => exact absurd hbodiless body
  | length body => exact absurd hbodiless body
  | untilClose body => exact absurd hbodiless body

end Request

namespace Sample

def sender (ps : List Bytes) : Peer := ⟨⟨Arrival.pieces ps, .silent⟩, ⟨[], .takesAll, []⟩⟩

def request : Request := Request.get "/"

def early : HeadText where
  leading := []
  minor := 1
  hundreds := 1
  tens := 0
  units := 3
  reason := some (Utf8.encode "Early Hints")
  statusEnd := .crlf
  fields := []
  finalEnd := .crlf
  reason_bytes := by decide +kernel

def field (name value : Bytes)
    (h : name ≠ [] ∧ (∀ b ∈ name, HeadReader.isNameByte b = true) ∧
      (∀ b ∈ value, HeadReader.isTextByte b = true) ∧
        ∀ b ∈ value.head?, HeadReader.isBlankByte b = false) : FieldText :=
  ⟨name, [0x20], value, .crlf, h.1, h.2.1, by decide +kernel, h.2.2.1, h.2.2.2⟩

def final : HeadText where
  leading := [.crlf]
  minor := 1
  hundreds := 2
  tens := 0
  units := 0
  reason := some (Utf8.encode "OK")
  statusEnd := .lf
  fields := [field (Utf8.encode "Transfer-Encoding") (Utf8.encode "chunked") (by decide +kernel)]
  finalEnd := .crlf
  reason_bytes := by decide +kernel

def heads : HeadsText where
  interims := [early]
  final := final
  interims_fit := by
    intro t ht
    obtain rfl := List.mem_singleton.mp ht
    exact ⟨by decide +kernel, by decide +kernel⟩
  interims_interim := by decide +kernel
  final_fits := ⟨by decide +kernel, by decide +kernel⟩
  final_final := by decide +kernel

def size (digits : Bytes) (extension : Option Bytes)
    (h : digits ≠ [] ∧ digits.length ≤ SizeLine.maxDigits ∧
      (∀ b ∈ digits, (SizeLine.digit? b).isSome = true) ∧
        ∀ b ∈ extension.getD [], b ≠ 0x0d) : SizeText :=
  ⟨digits, [], extension, h.1, h.2.1, h.2.2.1, by simp, h.2.2.2⟩

def body : ChunkedText where
  chunks :=
    [⟨size (Utf8.encode "02") (some (Utf8.encode "a=b")) (by decide +kernel), [0x21, 0xc3],
        by decide, by decide +kernel, by decide +kernel⟩,
      ⟨size (Utf8.encode "1") none (by decide +kernel), [0xa9], by decide, by decide +kernel,
        by decide +kernel⟩]
  last := size (Utf8.encode "000") none (by decide +kernel)
  trailers := [⟨Utf8.encode "t: u", by decide +kernel, by decide +kernel, by decide +kernel⟩]
  last_value := by decide +kernel
  last_short := by decide +kernel

def wire : Bytes := body.bytes ++ [0x3f]

def pieces : List Bytes := [(heads.bytes ++ wire).take 9, (heads.bytes ++ wire).drop 9]

def sent : Bytes := Utf8.encode "GET / HTTP/1.1\r\n\r\n"

end Sample

namespace Request

theorem stream_delivers_sample :
    (Sample.request.encode = .ok Sample.sent ∧
      ((Sample.sender Sample.pieces).outgoing.send Sample.sent .write).outcome =
        some (.ok ⟨[], .takesAll, []⟩) ∧
      Sample.heads.final.head.status = 200 ∧
      Sample.heads.final.head.Announces Sample.request.method Sample.body.payload Sample.wire
        false ∧
      Sample.pieces.flatten = Sample.heads.bytes ++ Sample.wire ∧
      (Sample.sender Sample.pieces).incoming.arrivals = Arrival.pieces Sample.pieces ++ []) ∧
    Delivers (Sample.request.stream 200 (Sample.sender Sample.pieces)) Sample.heads.final.head
      Sample.body.payload ∧
    (Sample.heads.final.head.IsBodiless Sample.request.method →
      Effect.fragments (Sample.request.stream 200 (Sample.sender Sample.pieces)).effects = []) := by
  have he : Sample.request.encode = .ok Sample.sent := by decide +kernel
  have hs : ((Sample.sender Sample.pieces).outgoing.send Sample.sent .write).outcome =
      some (.ok ⟨[], .takesAll, []⟩) := by decide +kernel
  have hstatus : Sample.heads.final.head.status = 200 := by decide +kernel
  have hbodiless : ¬ Sample.heads.final.head.IsBodiless Sample.request.method := by
    unfold Head.IsBodiless
    decide +kernel
  have hbody : Sample.heads.final.head.Announces Sample.request.method Sample.body.payload
      Sample.wire false := .chunks hbodiless (by decide +kernel) Sample.body [0x3f]
  have hps : Sample.pieces.flatten = Sample.heads.bytes ++ Sample.wire := by decide +kernel
  have hi : (Sample.sender Sample.pieces).incoming.arrivals =
      Arrival.pieces Sample.pieces ++ [] := rfl
  exact ⟨⟨he, hs, hstatus, hbody, hps, hi⟩, stream_delivers he hs hstatus hbody hps hi nofun⟩

end Request

namespace Sample

def announcing (hundreds tens units : Fin 10) (fields : List FieldText) : HeadText where
  leading := []
  minor := 1
  hundreds := hundreds
  tens := tens
  units := units
  reason := none
  statusEnd := .crlf
  fields := fields ++
    [field (Utf8.encode "Content-Length") (Utf8.encode "5") (by decide +kernel)]
  finalEnd := .crlf
  reason_bytes := by decide +kernel

def crowded : HeadText :=
  announcing 2 0 0 (List.replicate 100 (field [0x78] [0x79] (by decide +kernel)))

def overlongPieces : List Bytes :=
  Utf8.encode "HTTP/1.1 100 " :: List.replicate 17 (List.replicate 4096 0x61)

def overlong : HeadText where
  leading := []
  minor := 1
  hundreds := 1
  tens := 0
  units := 0
  reason := some (List.replicate 17 (List.replicate 4096 0x61)).flatten
  statusEnd := .crlf
  fields := []
  finalEnd := .crlf
  reason_bytes := by
    intro b hb
    obtain ⟨bs, hbs, hb⟩ := List.mem_flatten.mp hb
    rw [List.eq_of_mem_replicate hbs] at hb
    rw [List.eq_of_mem_replicate hb]
    decide

theorem overlong_bytes : overlong.bytes = overlongPieces.flatten ++ (crlf ++ crlf) := by
  have hstart : Utf8.encode "HTTP/1.1 100 " =
      HeadReader.versionName ++ [0x31, 0x20, 0x31, 0x30, 0x30, 0x20] := by decide +kernel
  rw [overlongPieces, List.flatten_cons, hstart]
  generalize hreason : (List.replicate 17 (List.replicate 4096 (0x61 : UInt8))).flatten = reason
  simp only [HeadText.bytes, HeadText.reasonBytes, overlong, hreason]
  simp [LineEnd.bytes, HeadText.digit, crlf]

theorem length_overlongPieces : maxHead < ([] ++ overlongPieces.flatten).length := by
  have hstart : (Utf8.encode "HTTP/1.1 100 ").length = 13 := by decide +kernel
  rw [List.nil_append, overlongPieces, List.flatten_cons, List.length_append, hstart,
    List.length_flatten, List.map_replicate, List.sum_replicate_nat, List.length_replicate]
  decide

def hello : Bytes := Utf8.encode "hello"

def slow : Peer := sender (overlongPieces ++ [crlf ++ crlf ++ (final.bytes ++ wire)])

theorem slow_outcome : (request.stream 200 slow).outcome =
    some (.error HeadSearch.headTooLong) := by
  have he : request.encode = .ok sent := by decide +kernel
  have hs : (slow.outgoing.send sent .write).outcome = some (.ok ⟨[], .takesAll, []⟩) := by
    decide +kernel
  have hreads : HeadReader.Reads ([] ++ overlongPieces.flatten ++ (crlf ++ crlf))
      overlong.head := by
    have hscan := overlong.scan_bytes [] (by decide)
    rw [List.append_nil, overlong_bytes] at hscan
    rw [HeadReader.Reads, List.nil_append, hscan]
  have hnext : (nextHead [] slow.incoming).outcome = some (.error HeadSearch.headTooLong) := by
    rw [nextHead, slow, sender, Arrival.pieces, List.filterMap_append]
    exact HeadSearch.search_overlong _ false .silent hreads (by decide) length_overlongPieces
  have hheads : (request.exchangeHeads slow).outcome =
      some (.error HeadSearch.headTooLong) := by
    rw [Request.exchangeHeads_of_sent he hs, Run.after, HeadSearch.run, hnext]
    rfl
  rw [Request.stream, Run.bind_of_error hheads]

def switching : HeadText := announcing 1 0 1 []

end Sample

namespace Request

/-- Bodies that are not delivered: behind a final head with too many header lines, behind an
interim head that is too long, and behind a head that switches protocols. -/
theorem stream_withholds :
    (Sample.crowded.bytes.length ≤ maxHead ∧ Sample.crowded.head.isInterim = false ∧
      Sample.crowded.head.Announces Sample.request.method Sample.hello Sample.hello false ∧
      Sample.crowded.head.status = 200 ∧
      (Sample.request.stream 200
        (Sample.sender [Sample.crowded.bytes ++ Sample.hello])).outcome =
          some (.error (HeadSearch.badHead .tooManyHeaders))) ∧
    (Sample.overlong.head.isInterim = true ∧ Sample.final.Fits ∧
      Sample.final.head.Announces Sample.request.method Sample.body.payload Sample.wire false ∧
      Sample.slow.incoming.arrivals = Arrival.pieces (Sample.overlongPieces ++
        [crlf ++ crlf ++ (Sample.final.bytes ++ Sample.wire)]) ∧
      Sample.overlongPieces.flatten ++ (crlf ++ crlf) = Sample.overlong.bytes ∧
      (Sample.request.stream 200 Sample.slow).outcome =
        some (.error HeadSearch.headTooLong)) ∧
    (Sample.switching.Fits ∧ Sample.switching.head.isInterim = false ∧
      Sample.switching.head.contentLength = .ok (some 5) ∧
      (Sample.request.stream 101
        (Sample.sender [Sample.switching.bytes ++ Sample.hello])).outcome =
          some (.ok Sample.switching.head) ∧
      Effect.fragments (Sample.request.stream 101
        (Sample.sender [Sample.switching.bytes ++ Sample.hello])).effects = []) := by
  have hcrowded : ¬ Sample.crowded.head.IsBodiless Sample.request.method := by
    unfold Head.IsBodiless
    decide +kernel
  have hfinal : ¬ Sample.final.head.IsBodiless Sample.request.method := by
    unfold Head.IsBodiless
    decide +kernel
  refine ⟨⟨by decide +kernel, by decide +kernel, ?_, by decide +kernel, by decide +kernel⟩,
    ⟨by decide +kernel, Sample.heads.final_fits, ?_, rfl, Sample.overlong_bytes.symm,
      Sample.slow_outcome⟩,
    ⟨⟨by decide +kernel, by decide +kernel⟩, by decide +kernel, by decide +kernel,
      by decide +kernel, by decide +kernel⟩⟩
  · have hlength : Sample.crowded.head.Announces Sample.request.method Sample.hello
        (Sample.hello ++ []) false := .length hcrowded (by decide +kernel) (by decide +kernel) []
    rwa [List.append_nil] at hlength
  · exact .chunks hfinal (by decide +kernel) Sample.body [0x3f]

end Request

end HttpRelay
