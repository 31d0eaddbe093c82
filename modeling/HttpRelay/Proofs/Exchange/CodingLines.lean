import HttpRelay.Proofs.Exchange.Bodiless
import HttpRelay.Proofs.Exchange.Intake
import HttpRelay.Proofs.Http.FieldLines
import HttpRelay.Proofs.Http.GzipMembers
import HttpRelay.Proofs.Outcomes

namespace HttpRelay

namespace Request

/-- What is looked at of an outcome: the body, or the kind of the failure. -/
def seen (outcome : Except Failure Snapshot) : Except Category String :=
  (outcome.map Snapshot.body).mapError Failure.category

def Alike (r s : Run Snapshot) : Prop := r.outcome.map seen = s.outcome.map seen

variable {request : Request} {limit : UInt64} {c d : Connection} {head : Head} {buffer : Bytes}
  {incoming : Incoming}

def undecoded (request : Request) (limit : UInt64) (answer : Head × Bytes × Incoming) :
    Run Bytes := do
  let framing ← answer.1.framing request.method
  Fetch.gather limit .empty framing answer.2.1 answer.2.2.ending answer.2.2.arrivals

def decoded (limit : UInt64) (c : Connection) (head : Head) (body : Bytes) :
    Except Failure Snapshot :=
  (ContentCoding.decode limit body head.contentEncoding).map (snapshot c head)

theorem gather_eq_undecoded (request : Request) (limit : UInt64) (c : Connection)
    (answer : Head × Bytes × Incoming) : request.gather limit c answer =
      request.undecoded limit answer >>= fun body =>
        Run.ofExcept (decoded limit c answer.1 body) := by
  have hrest : ∀ body, (Run.ofExcept (ContentCoding.decode limit body answer.1.contentEncoding) >>=
      fun text => pure (snapshot c answer.1 text)) =
        Run.ofExcept (decoded limit c answer.1 body) := by
    intro body
    rw [decoded]
    cases ContentCoding.decode limit body answer.1.contentEncoding <;> rfl
  simp only [gather, undecoded, Fetch.gather_eq_gathered, Run.bind_assoc, ← hrest]
  rfl

theorem fetch_outcome (limit : UInt64)
    (h : (request.exchangeHeads c.peer).outcome = some (.ok (head, buffer, incoming))) :
    (request.fetch limit c).outcome =
      (request.undecoded limit (head, buffer, incoming)).outcome.map
        (·.bind (decoded limit c head)) := by
  rw [fetch_eq_gather, Run.bind_of_ok h, gather_eq_undecoded]
  exact Run.outcome_bind_ofExcept _ _

theorem undecoded_codingsMerged (request : Request) (limit : UInt64) (head : Head) (buffer : Bytes)
    (incoming : Incoming) : request.undecoded limit (head.codingsMerged, buffer, incoming) =
      request.undecoded limit (head, buffer, incoming) := by
  have hframing : head.codingsMerged.framing request.method = head.framing request.method := by
    rw [Head.framing, Head.framing, Head.ofHead_codingsMerged]
    rfl
  rw [undecoded, undecoded, hframing]

structure SpreadCodings (request : Request) (limit : UInt64) (c d : Connection) (head : Head)
    (body : Option (Except Failure Bytes)) : Prop where
  alike_iff : Alike (request.fetch limit c) (request.fetch limit d) ↔
    head.codingLines.length ≤ 1 ∨ ∀ s, (request.fetch limit c).outcome ≠ some (.ok s)
  firstOnly : ∀ s, (request.fetch limit c).outcome = some (.ok s) ↔ ∃ bs text,
    body = some (.ok bs) ∧ ContentCoding.decode limit bs head.codingLines.head? = .ok text ∧
      s = snapshot c head text
  listRefused : 2 ≤ head.codingLines.length → ∀ bs, body = some (.ok bs) →
    (request.fetch limit d).outcome = some (.error (.decompression
      (ContentCoding.normalize (some (", ".intercalate head.codingLines)))
      "unsupported content encoding"))

theorem decoded_eq_ok_iff {bs : Bytes} {s : Snapshot} : decoded limit c head bs = .ok s ↔
    ∃ text, ContentCoding.decode limit bs head.codingLines.head? = .ok text ∧
      s = snapshot c head text := by
  rw [decoded, Head.contentEncoding_eq_head?, map_eq_ok_iff]
  simp only [eq_comm]

theorem decoded_category {bs : Bytes} {e : Failure} (h : decoded limit c head bs = .error e) :
    e.category = .decompression := by
  rw [decoded] at h
  cases hd : ContentCoding.decode limit bs head.contentEncoding with
  | ok text =>
    rw [hd] at h
    cases h
  | error e' =>
    rw [hd] at h
    obtain rfl := Except.error.inj h
    obtain ⟨reason, rfl⟩ := ContentCoding.decode_error hd
    rfl

theorem decoded_merged (hlines : 2 ≤ head.codingLines.length) (limit : UInt64) (d : Connection)
    (bs : Bytes) : decoded limit d head.codingsMerged bs = .error (.decompression
      (ContentCoding.normalize (some (", ".intercalate head.codingLines)))
      "unsupported content encoding") := by
  have hne : head.codingLines ≠ [] := by
    intro hnil
    rw [hnil] at hlines
    exact absurd hlines (by decide)
  rw [decoded, Head.contentEncoding_codingsMerged hne,
    ContentCoding.decode_of_comma (ContentCoding.comma_mem_intercalate hlines)]
  rfl

theorem seen_decoded (limit : UInt64) (c d : Connection) (head : Head) (bs : Bytes) :
    seen (decoded limit c head bs) = seen (decoded limit d head bs) := by
  rw [decoded, decoded]
  cases ContentCoding.decode limit bs head.contentEncoding <;> rfl

theorem seen_merged_iff (hlines : 2 ≤ head.codingLines.length) {bs : Bytes} :
    seen (decoded limit c head bs) = seen (decoded limit d head.codingsMerged bs) ↔
      ∀ s, decoded limit c head bs ≠ .ok s := by
  rw [decoded_merged hlines]
  cases hdec : decoded limit c head bs with
  | ok s => exact iff_of_false nofun fun h => h s rfl
  | error e => exact iff_of_true (congrArg Except.error (decoded_category hdec)) nofun

section Decoders

variable {f g : Bytes → Except Failure Snapshot} {body : Option (Except Failure Bytes)}
  {r s : Run Snapshot}

theorem alike_iff_seen (hr : r.outcome = body.map (·.bind f))
    (hs : s.outcome = body.map (·.bind g)) :
    Alike r s ↔ ∀ bs, body = some (.ok bs) → seen (f bs) = seen (g bs) := by
  rw [Alike, hr, hs]
  match body with
  | none => exact iff_of_true rfl nofun
  | some (.error e) => exact iff_of_true rfl nofun
  | some (.ok bs) =>
    constructor
    · rintro h _ ⟨⟩
      exact Option.some.inj h
    · intro h
      exact congrArg some (h bs rfl)

theorem outcome_ok_iff (hr : r.outcome = body.map (·.bind f)) {snapshot : Snapshot} :
    r.outcome = some (.ok snapshot) ↔ ∃ bs, body = some (.ok bs) ∧ f bs = .ok snapshot := by
  rw [hr]
  match body with
  | none => exact iff_of_false nofun nofun
  | some (.error e) => exact iff_of_false nofun nofun
  | some (.ok bs) =>
    constructor
    · intro h
      exact ⟨bs, rfl, Option.some.inj h⟩
    · rintro ⟨_, ⟨⟩, h⟩
      exact congrArg some h

end Decoders

/-- However its codings are spread, a response is fetched by the first line of them alone, so
that it comes out as with all of them on one line exactly where there is no second line, or
nothing comes out at all. -/
theorem spreadCodings
    (h : (request.exchangeHeads c.peer).outcome = some (.ok (head, buffer, incoming)))
    (hd : (request.exchangeHeads d.peer).outcome =
      some (.ok (head.codingsMerged, buffer, incoming))) :
    SpreadCodings request limit c d head
      (request.undecoded limit (head, buffer, incoming)).outcome := by
  have hfetch := fetch_outcome limit h
  have hmerged := fetch_outcome limit hd
  rw [undecoded_codingsMerged] at hmerged
  generalize (request.undecoded limit (head, buffer, incoming)).outcome = body at hfetch hmerged ⊢
  constructor
  · rw [alike_iff_seen hfetch hmerged]
    by_cases hfew : head.codingLines.length ≤ 1
    · apply iff_of_true ?_ (.inl hfew)
      intro bs _
      rw [Head.codingsMerged_of_few hfew]
      exact seen_decoded limit c d head bs
    · rw [or_iff_right hfew]
      have hlines : 2 ≤ head.codingLines.length := by omega
      simp only [seen_merged_iff hlines, ne_eq, outcome_ok_iff hfetch]
      constructor
      · rintro h s ⟨bs, hbs, hs⟩
        exact h bs hbs s hs
      · intro h bs hbs s hs
        exact h s ⟨bs, hbs, hs⟩
  · intro s
    rw [outcome_ok_iff hfetch]
    simp only [decoded_eq_ok_iff, exists_and_left]
  · rintro hlines bs rfl
    rw [hmerged]
    simp only [Option.map_some, Except.bind, decoded_merged hlines]

end Request

namespace Sample

def packed : Bytes := ContentCoding.sample

def packedLength : FieldText :=
  field (Utf8.encode "Content-Length") (Utf8.encode "21") (by decide +kernel)

def coding (value : Bytes) (h : (∀ b ∈ value, HeadReader.isTextByte b = true) ∧
    ∀ b ∈ value.head?, HeadReader.isBlankByte b = false) : FieldText :=
  field (Utf8.encode "Content-Encoding") value ⟨by decide +kernel, by decide +kernel, h⟩

def spread : HeadText :=
  { final with
    fields := [coding (Utf8.encode "identity") (by decide +kernel), packedLength,
      coding (Utf8.encode "gzip") (by decide +kernel)] }

def listed : HeadText :=
  { final with
    fields := [coding (Utf8.encode "identity, gzip") (by decide +kernel), packedLength] }

def served (head : HeadText) : Connection := ⟨sender [head.bytes ++ packed], none⟩

theorem served_heads :
    (request.exchangeHeads (served spread).peer).outcome =
        some (.ok (spread.head, packed, ⟨[], .silent⟩)) ∧
      (request.exchangeHeads (served listed).peer).outcome =
        some (.ok (spread.head.codingsMerged, packed, ⟨[], .silent⟩)) := by
  constructor <;> decide +kernel

end Sample

namespace Request

theorem spreadCodings_sample :
    (Sample.request.exchangeHeads (Sample.served Sample.spread).peer).outcome =
        some (.ok (Sample.spread.head, Sample.packed, ⟨[], .silent⟩)) ∧
      (Sample.request.exchangeHeads (Sample.served Sample.listed).peer).outcome =
        some (.ok (Sample.spread.head.codingsMerged, Sample.packed, ⟨[], .silent⟩)) ∧
      SpreadCodings Sample.request ContentCoding.maxBody (Sample.served Sample.spread)
        (Sample.served Sample.listed) Sample.spread.head
        (Sample.request.undecoded ContentCoding.maxBody
          (Sample.spread.head, Sample.packed, ⟨[], .silent⟩)).outcome :=
  ⟨Sample.served_heads.1, Sample.served_heads.2,
    spreadCodings Sample.served_heads.1 Sample.served_heads.2⟩

theorem fetch_overlooks_coding :
    (Sample.request.exchangeHeads (Sample.served Sample.spread).peer).outcome =
        some (.ok (Sample.spread.head, Sample.packed, ⟨[], .silent⟩)) ∧
      (Sample.request.exchangeHeads (Sample.served Sample.listed).peer).outcome =
        some (.ok (Sample.spread.head.codingsMerged, Sample.packed, ⟨[], .silent⟩)) ∧
      Sample.spread.head.codingLines = ["identity", "gzip"] ∧
      (Sample.request.fetch ContentCoding.maxBody (Sample.served Sample.spread)).outcome.map seen =
        some (.ok (Utf8.lossy Sample.packed)) ∧
      (Sample.request.fetch ContentCoding.maxBody (Sample.served Sample.listed)).outcome.map seen =
        some (.error .decompression) ∧
      ContentCoding.decode ContentCoding.maxBody Sample.packed (some "gzip") = .ok "a" := by
  refine ⟨?_, ?_, ?_, ?_, ?_, ContentCoding.decode_sample⟩ <;> decide +kernel

end Request

end HttpRelay
