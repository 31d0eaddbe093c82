import HttpRelay.Proofs.Exchange.HeadReads

namespace HttpRelay

variable {buffer more rest : Bytes} {n : Nat}

/-- Of the first so many bytes of some heads, those of an unfinished head exceed the limit. -/
def HeadText.Overruns : List HeadText → Nat → Prop
  | [], _ => False
  | t :: ts, n => if n < t.bytes.length then maxHead < n else Overruns ts (n - t.bytes.length)

open HeadText (Overruns)

theorem HeadText.overruns_within {t : HeadText} {ts : List HeadText} (h : n < t.bytes.length) :
    Overruns (t :: ts) n ↔ maxHead < n := by
  rw [Overruns, if_pos h]

theorem HeadText.overruns_behind {t : HeadText} {ts : List HeadText} :
    Overruns (t :: ts) (t.bytes.length + n) ↔ Overruns ts n := by
  rw [Overruns, if_neg (by omega), Nat.add_sub_cancel_left]

theorem HeadText.not_overruns_of_le {ts : List HeadText} (h : n ≤ maxHead) : ¬ Overruns ts n := by
  induction ts generalizing n with
  | nil => exact id
  | cons t ts ih =>
    rw [Overruns]
    split
    · exact Nat.not_lt.mpr h
    · exact ih (Nat.le_trans (Nat.sub_le _ _) h)

def HeadText.Overrun (ts : List HeadText) (buffer : Bytes) (ps : List Bytes) : Prop :=
  ∃ qs, qs <+: ps ∧ Overruns ts (buffer ++ qs.flatten).length

open HeadText (Overrun)

theorem HeadText.overrun_nil {ts : List HeadText} :
    Overrun ts buffer [] ↔ Overruns ts buffer.length := by
  constructor
  · rintro ⟨qs, hqs, h⟩
    rw [List.prefix_nil.mp hqs, List.flatten_nil, List.append_nil] at h
    exact h
  · intro h
    exact ⟨[], List.nil_prefix, by rwa [List.flatten_nil, List.append_nil]⟩

theorem HeadText.overrun_cons {ts : List HeadText} {p : Bytes} {ps : List Bytes} :
    Overrun ts buffer (p :: ps) ↔ Overruns ts buffer.length ∨ Overrun ts (buffer ++ p) ps := by
  constructor
  · rintro ⟨qs, hqs, h⟩
    rcases List.prefix_cons_iff.mp hqs with rfl | ⟨rs, rfl, hrs⟩
    · rw [List.flatten_nil, List.append_nil] at h
      exact .inl h
    · rw [List.flatten_cons, ← List.append_assoc] at h
      exact .inr ⟨rs, hrs, h⟩
  · rintro (h | ⟨qs, hqs, h⟩)
    · exact ⟨[], List.nil_prefix, by rwa [List.flatten_nil, List.append_nil]⟩
    · refine ⟨p :: qs, List.prefix_cons_iff.mpr (.inr ⟨qs, rfl, hqs⟩), ?_⟩
      rwa [List.flatten_cons, ← List.append_assoc]

namespace HeadSeries

def texts (s : HeadSeries) : List HeadText := s.interims ++ [s.final]

theorem induction {P : HeadSeries → Prop}
    (single : ∀ t hcount hfinal, P (.single t hcount hfinal))
    (cons : ∀ t hcount hinterim s, P s → P (s.cons t hcount hinterim)) (s : HeadSeries) : P s := by
  obtain ⟨interims, final, hcounted, hinterim, hcount, hfinal⟩ := s
  induction interims with
  | nil => exact single final hcount hfinal
  | cons t ts ih =>
    obtain ⟨htcount, htscounted⟩ := List.forall_mem_cons.mp hcounted
    obtain ⟨htinterim, htsinterim⟩ := List.forall_mem_cons.mp hinterim
    exact cons t htcount htinterim _ (ih htscounted htsinterim)

theorem bytes_single {t : HeadText} {hcount : t.fields.length ≤ HeadReader.maxHeaders}
    {hfinal : t.head.isInterim = false} : (single t hcount hfinal).bytes = t.bytes :=
  List.nil_append _

theorem not_overruns_of_bytes_le {s : HeadSeries} (h : s.bytes.length ≤ n) :
    ¬ Overruns s.texts n := by
  induction s using HeadSeries.induction generalizing n with
  | single t hcount hfinal =>
    obtain ⟨k, rfl⟩ := Nat.exists_eq_add_of_le h
    exact HeadText.overruns_behind.not.mpr id
  | cons t hcount hinterim s ih =>
    rw [bytes_cons, List.length_append] at h
    obtain ⟨k, rfl⟩ := Nat.exists_eq_add_of_le (Nat.le_of_add_right_le h)
    exact HeadText.overruns_behind.not.mpr (ih (by omega))

end HeadSeries

namespace HeadSearch

inductive Judged (s : HeadSeries) (rest buffer more : Bytes) : Prop where
  | found (settled : (look buffer).settled = some (.ok s.final.head))
      (left : (look buffer).buffer ++ more = rest) (whole : s.bytes.length ≤ buffer.length)
  | refused (settled : (look buffer).settled = some (.error headTooLong))
      (exceeded : Overruns s.texts buffer.length)
  | pending (settled : (look buffer).settled = none) (more_ne_nil : more ≠ [])
      (t : HeadSeries) (final : t.final = s.final)
      (left : (look buffer).buffer ++ more = t.bytes ++ rest)
      (overruns : ∀ ps : Bytes, Overruns s.texts (buffer ++ ps).length ↔
        Overruns t.texts ((look buffer).buffer ++ ps).length)
      (within : ¬ Overruns s.texts buffer.length)

theorem judged_of_part {s : HeadSeries} {t : HeadText} {ts : List HeadText} {part : Bytes}
    (hcount : t.fields.length ≤ HeadReader.maxHeaders) (htexts : s.texts = t :: ts)
    (hbytes : t.bytes = buffer ++ part) (hpart : part ≠ [])
    (h : buffer ++ more = s.bytes ++ rest) (hmore : more ≠ []) : Judged s rest buffer more := by
  have hreads : HeadReader.Reads (buffer ++ part) t.head := by
    rw [HeadReader.Reads, ← hbytes, ← List.append_nil t.bytes]
    exact t.scan_bytes [] hcount
  have hlength : buffer.length < t.bytes.length := by
    rw [hbytes, List.length_append]
    exact Nat.lt_add_of_pos_right (List.length_pos_iff.mpr hpart)
  by_cases hlong : maxHead < buffer.length
  · apply Judged.refused
    · rw [look_of_overlong hreads hpart hlong]
    · rw [htexts]
      exact (HeadText.overruns_within hlength).mpr hlong
  · obtain ⟨stage, hstage⟩ := hreads.scan_part hpart
    have hlook := look_of_more hstage (Nat.not_lt.mp hlong)
    apply Judged.pending (by rw [hlook]) hmore s rfl
    · rw [hlook]
      exact h
    · intro ps
      rw [hlook]
    · rw [htexts]
      exact (HeadText.overruns_within hlength).not.mpr hlong

theorem look_judged {s : HeadSeries} (h : buffer ++ more = s.bytes ++ rest) :
    Judged s rest buffer more := by
  induction s using HeadSeries.induction generalizing buffer with
  | single t hcount hfinal =>
    rcases Wire.cut_cases h with ⟨part, hpart, hbytes, hmore⟩ | ⟨behind, rfl, hrest⟩
    · exact judged_of_part hcount rfl hbytes hpart h (by simp [hmore, hpart])
    · change Judged _ rest (t.bytes ++ behind) more
      have hlook := look_of_final (t.scan_bytes behind hcount) hfinal
      apply Judged.found
      · rw [hlook]
        rfl
      · rw [hlook, hrest]
      · exact (List.prefix_append _ _).length_le
  | cons t hcount hinterim s ih =>
    rw [HeadSeries.bytes_cons, List.append_assoc] at h
    rcases Wire.cut_cases h with ⟨part, hpart, hbytes, hmore⟩ | ⟨behind, rfl, hrest⟩
    · refine judged_of_part hcount rfl hbytes hpart ?_ (by simp [hmore, hpart])
      rw [h, HeadSeries.bytes_cons, List.append_assoc]
    · obtain ⟨hsettled, hbuffer⟩ := look_text hcount hinterim behind
      have hshift : ∀ ps : Bytes, Overruns (s.cons t hcount hinterim).texts
          (t.bytes ++ behind ++ ps).length ↔ Overruns s.texts (behind ++ ps).length := by
        intro ps
        rw [List.append_assoc, List.length_append]
        exact HeadText.overruns_behind
      have hhere := hshift []
      rw [List.append_nil, List.append_nil] at hhere
      cases ih hrest.symm with
      | found settled left whole =>
        refine Judged.found (hsettled.trans settled) ?_ ?_
        · rw [hbuffer, left]
        · rw [HeadSeries.bytes_cons, List.length_append, List.length_append]
          omega
      | refused settled exceeded => exact .refused (hsettled.trans settled) (hhere.mpr exceeded)
      | pending settled more_ne_nil u final left overruns within =>
        refine Judged.pending (hsettled.trans settled) more_ne_nil u final ?_ ?_ ?_
        · rw [hbuffer, left]
        · intro ps
          rw [hshift, hbuffer]
          exact overruns ps
        · exact hhere.not.mpr within

theorem search_judged {buffer : Bytes} {s : HeadSeries} {ps : List Bytes} {missing : Bytes}
    (later : List Arrival) (received : Bool) (ending : Ending)
    (h : buffer ++ (ps.flatten ++ missing) = s.bytes ++ rest) :
    Overrun s.texts buffer ps ∧
        (search received buffer ending (Arrival.pieces ps ++ later)).outcome =
          some (.error headTooLong) ∨
      ¬ Overrun s.texts buffer ps ∧ (missing = [] →
        (search received buffer ending (Arrival.pieces ps ++ later)).Finds s.final.head rest later
          ending) := by
  cases look_judged h with
  | found settled left whole =>
    right
    constructor
    · rintro ⟨qs, -, hover⟩
      refine s.not_overruns_of_bytes_le (Nat.le_trans whole ?_) hover
      exact (List.prefix_append _ _).length_le
    · rintro rfl
      rw [search_of_settled settled]
      rw [List.append_nil] at left
      exact ⟨rfl, ps, left, rfl⟩
  | refused settled exceeded =>
    left
    rw [search_of_settled settled]
    exact ⟨⟨[], List.nil_prefix, by rwa [List.flatten_nil, List.append_nil]⟩, rfl⟩
  | pending settled more_ne_nil t final left overruns within =>
    cases ps with
    | nil =>
      right
      refine ⟨HeadText.overrun_nil.not.mpr within, fun hmissing => absurd hmissing ?_⟩
      simpa using more_ne_nil
    | cons p ps =>
      by_cases hp : p = []
      · subst hp
        have hover : Overrun s.texts buffer ([] :: ps) ↔ Overrun s.texts buffer ps := by
          rw [HeadText.overrun_cons, or_iff_right within, List.append_nil]
        rw [hover]
        exact search_judged later received ending h
      have hleft : (look buffer).buffer ++ p ++ (ps.flatten ++ missing) = t.bytes ++ rest := by
        rwa [List.flatten_cons, List.append_assoc, ← List.append_assoc] at left
      have hover : Overrun s.texts buffer (p :: ps) ↔
          Overrun t.texts ((look buffer).buffer ++ p) ps := by
        rw [HeadText.overrun_cons, or_iff_right within]
        have hstop (qs : List Bytes) : Overruns s.texts (buffer ++ p ++ qs.flatten).length ↔
            Overruns t.texts ((look buffer).buffer ++ p ++ qs.flatten).length := by
          rw [List.append_assoc, List.append_assoc]
          exact overruns _
        simp only [Overrun, hstop]
      rw [Arrival.pieces_cons hp, List.cons_append, search_of_pending settled, hover, ← final]
      rcases search_judged later true ending hleft with ⟨hyes, ho⟩ | ⟨hnot, hfinds⟩
      · exact .inl ⟨hyes, ho⟩
      · exact .inr ⟨hnot, fun hmissing => ⟨(hfinds hmissing).outcome, (hfinds hmissing).left⟩⟩

end HeadSearch

theorem exists_stop {ps : List Bytes} {k : Nat} (hbuffer : buffer.length ≤ k)
    (hps : ∀ p ∈ ps, p.length ≤ n) (hk : k < (buffer ++ ps.flatten).length) :
    ∃ qs, qs <+: ps ∧ k < (buffer ++ qs.flatten).length ∧
      (buffer ++ qs.flatten).length ≤ k + n := by
  induction ps generalizing buffer with
  | nil =>
    rw [List.flatten_nil, List.append_nil] at hk
    omega
  | cons p ps ih =>
    obtain ⟨hp, hps⟩ := List.forall_mem_cons.mp hps
    by_cases hfirst : (buffer ++ p).length ≤ k
    · rw [List.flatten_cons, ← List.append_assoc] at hk
      obtain ⟨qs, hqs, hbeyond, hwithin⟩ := ih hfirst hps hk
      refine ⟨p :: qs, List.prefix_cons_iff.mpr (.inr ⟨qs, rfl, hqs⟩), ?_⟩
      rw [List.flatten_cons, ← List.append_assoc]
      exact ⟨hbeyond, hwithin⟩
    · refine ⟨[p], List.prefix_cons_iff.mpr (.inr ⟨[], rfl, List.nil_prefix⟩), ?_⟩
      rw [List.flatten_singleton]
      rw [List.length_append] at hfirst ⊢
      omega

theorem HeadText.overruns_inside {t : HeadText} {before behind : List HeadText}
    (h : n < t.bytes.length) :
    Overruns (before ++ t :: behind) ((before.flatMap HeadText.bytes).length + n) ↔
      maxHead < n := by
  induction before with
  | nil =>
    rw [List.flatMap_nil, List.length_nil, Nat.zero_add]
    exact overruns_within h
  | cons t' before ih =>
    rw [List.flatMap_cons, List.length_append, Nat.add_assoc]
    exact overruns_behind.trans ih

theorem HeadText.length_le_of_not_overrun {ts : List HeadText} {ps : List Bytes} {t : HeadText}
    (h : ¬ Overrun ts buffer ps) (hbuffer : buffer.length ≤ maxHead)
    (hps : ∀ p ∈ ps, p.length ≤ n)
    (hread : (ts.flatMap HeadText.bytes).length ≤ (buffer ++ ps.flatten).length) (ht : t ∈ ts) :
    t.bytes.length ≤ maxHead + n := by
  obtain ⟨before, behind, rfl⟩ := List.append_of_mem ht
  rw [List.flatMap_append, List.flatMap_cons, List.length_append, List.length_append] at hread
  refine Nat.le_of_not_lt fun hlong => h ?_
  let start := (before.flatMap HeadText.bytes).length
  have hstop : start + maxHead < (buffer ++ ps.flatten).length := by omega
  obtain ⟨qs, hqs, hbeyond, hwithin⟩ := exists_stop (by omega) hps hstop
  obtain ⟨k, hk⟩ := Nat.exists_eq_add_of_le (Nat.le_of_add_right_le (Nat.le_of_lt hbeyond))
  refine ⟨qs, hqs, ?_⟩
  rw [hk]
  exact (overruns_inside (by omega)).mpr (by omega)

theorem HeadSeries.bytes_texts (s : HeadSeries) : s.texts.flatMap HeadText.bytes = s.bytes := by
  rw [texts, List.flatMap_append, List.flatMap_singleton, bytes]

open HeadSearch in
/-- A reader refuses a head for its length only where one of its reads ends inside the head with
more than the limit of it there; so no head that it reads is longer than the limit and the read
that brings its end. -/
theorem nextHead_limit (buffer : Bytes) :
    (∀ (heads : HeadSeries) (ps : List Bytes) (missing rest : Bytes),
      buffer ++ (ps.flatten ++ missing) = heads.bytes ++ rest → ∀ later ending,
        let found := nextHead buffer ⟨Arrival.pieces ps ++ later, ending⟩
        (Overrun heads.texts buffer ps → found.outcome = some (.error headTooLong)) ∧
        (¬ Overrun heads.texts buffer ps → missing = [] →
          found.Finds heads.final.head rest later ending)) ∧
    ∀ incoming head, (nextHead buffer incoming).outcome = some (.ok head) →
      ∃ (heads : HeadSeries) (ps : List Bytes) (later : List Arrival),
        incoming.arrivals = Arrival.pieces ps ++ later ∧ heads.final.head = head ∧
        buffer ++ ps.flatten = heads.bytes ++ (nextHead buffer incoming).buffer ∧
        ¬ Overrun heads.texts buffer ps ∧
        (buffer.length ≤ maxHead → ∀ n, (∀ p ∈ ps, p.length ≤ n) →
          ∀ t ∈ heads.texts, t.bytes.length ≤ maxHead + n) := by
  constructor
  · intro heads ps missing rest hbytes later ending
    dsimp only
    rcases search_judged later (!buffer.isEmpty) ending hbytes with ⟨hover, ho⟩ | ⟨hover, hf⟩
    · exact ⟨fun _ => ho, fun hnot => absurd hover hnot⟩
    · exact ⟨fun hyes => absurd hyes hover, fun _ => hf⟩
  · rintro ⟨arrivals, ending⟩ head h
    obtain ⟨heads, ps, later, rfl, -, hbytes, rfl⟩ := (searches _ _ _ _).sound h
    have hover : ¬ Overrun heads.texts buffer ps := by
      have hwhole : buffer ++ (ps.flatten ++ []) = heads.bytes ++
          (nextHead buffer ⟨Arrival.pieces ps ++ later, ending⟩).buffer := by
        rw [List.append_nil]
        exact hbytes
      rcases search_judged later (!buffer.isEmpty) ending hwhole with ⟨-, ho⟩ | ⟨hover, -⟩
      · cases ho.symm.trans h
      · exact hover
    refine ⟨heads, ps, later, rfl, rfl, hbytes, hover, ?_⟩
    intro hbuffer n hps t ht
    apply HeadText.length_le_of_not_overrun hover hbuffer hps _ ht
    rw [heads.bytes_texts, hbytes, List.length_append]
    exact Nat.le_add_right _ _

theorem nextHead_limit_sample :
    let ps := [Sample.heads.bytes.take 9, Sample.heads.bytes.drop 9 ++ [0x21]]
    [] ++ (ps.flatten ++ []) = Sample.series.bytes ++ [0x21] ∧
      ¬ Overrun Sample.series.texts [] ps ∧
      (nextHead [] ⟨Arrival.pieces ps ++ [], .silent⟩).Finds Sample.series.final.head [0x21] []
        .silent := by
  dsimp only
  have hbytes : [] ++ ([Sample.heads.bytes.take 9, Sample.heads.bytes.drop 9 ++ [0x21]].flatten ++
      []) = Sample.series.bytes ++ [0x21] := by decide +kernel
  have hover : ¬ Overrun Sample.series.texts []
      [Sample.heads.bytes.take 9, Sample.heads.bytes.drop 9 ++ [0x21]] := by
    rintro ⟨qs, ⟨rs, hqs⟩, hover⟩
    have hall : [Sample.heads.bytes.take 9, Sample.heads.bytes.drop 9 ++ [0x21]].flatten.length ≤
        maxHead := by decide +kernel
    rw [← hqs, List.flatten_append, List.length_append] at hall
    exact HeadText.not_overruns_of_le (Nat.le_of_add_right_le hall) hover
  refine ⟨hbytes, hover, ?_⟩
  exact ((nextHead_limit []).1 Sample.series _ [] [0x21] hbytes [] .silent).2 hover rfl

theorem nextHead_of_last {t : HeadText} (hcount : t.fields.length ≤ HeadReader.maxHeaders)
    (hfinal : t.head.isInterim = false) {ps : List Bytes} {p : Bytes}
    (hbytes : (ps ++ [p]).flatten = t.bytes) (hps : ps.flatten.length ≤ maxHead)
    (ending : Ending) :
    (nextHead [] ⟨Arrival.pieces (ps ++ [p]), ending⟩).outcome = some (.ok t.head) := by
  let s : HeadSeries := .single t hcount hfinal
  have hover : ¬ Overrun s.texts [] (ps ++ [p]) := by
    rintro ⟨qs, hqs, hover⟩
    rw [List.nil_append] at hover
    rcases List.prefix_concat_iff.mp hqs with rfl | hpart
    · have hlength : s.bytes.length = (ps ++ [p]).flatten.length := by
        rw [hbytes, HeadSeries.bytes_single]
      exact s.not_overruns_of_bytes_le (Nat.le_of_eq hlength) hover
    · obtain ⟨rs, rfl⟩ := hpart
      rw [List.flatten_append, List.length_append] at hps
      exact HeadText.not_overruns_of_le (Nat.le_of_add_right_le hps) hover
  have hwhole : [] ++ ((ps ++ [p]).flatten ++ []) = s.bytes ++ [] := by
    rw [List.append_nil, List.append_nil, HeadSeries.bytes_single]
    exact hbytes
  rcases HeadSearch.search_judged [] false ending hwhole with ⟨hyes, -⟩ | ⟨-, hfinds⟩
  · exact absurd hyes hover
  · have hfound := (hfinds rfl).outcome
    rw [List.append_nil] at hfound
    exact hfound

namespace Sample

def oversized : HeadText :=
  { final with
    leading := []
    reason := some (List.replicate 65532 0x61)
    statusEnd := .crlf
    fields := []
    reason_bytes := by
      intro b hb
      rw [List.eq_of_mem_replicate hb]
      decide }

def oversizedStart : List Bytes :=
  Utf8.encode "HTTP/1.1 200 " :: List.replicate 15 (List.replicate 4096 0x61)

def oversizedEnd : Bytes := List.replicate 4092 0x61 ++ (crlf ++ crlf)

theorem oversized_bytes : (oversizedStart ++ [oversizedEnd]).flatten = oversized.bytes := by
  have hstart : Utf8.encode "HTTP/1.1 200 " =
      HeadReader.versionName ++ [0x31, 0x20, 0x32, 0x30, 0x30, 0x20] := by decide +kernel
  have hreason : List.replicate 65532 (0x61 : UInt8) =
      (List.replicate 15 (List.replicate 4096 0x61)).flatten ++ List.replicate 4092 0x61 := by
    rw [List.flatten_replicate_replicate, List.replicate_append_replicate]
  rw [List.flatten_append, oversizedStart, List.flatten_cons, hstart, oversizedEnd]
  simp only [HeadText.bytes, HeadText.reasonBytes, oversized, final, hreason]
  generalize (List.replicate 15 (List.replicate 4096 (0x61 : UInt8))).flatten = start
  generalize List.replicate 4092 (0x61 : UInt8) = last
  simp [LineEnd.bytes, HeadText.digit, crlf]

theorem length_oversizedStart : oversizedStart.flatten.length = 61453 := by
  have hstart : (Utf8.encode "HTTP/1.1 200 ").length = 13 := by decide +kernel
  rw [oversizedStart, List.flatten_cons, List.length_append, hstart, List.length_flatten,
    List.map_replicate, List.sum_replicate_nat, List.length_replicate]

theorem length_oversized : oversized.bytes.length = 65549 := by
  rw [← oversized_bytes, List.flatten_append, List.length_append, length_oversizedStart,
    List.flatten_singleton, oversizedEnd, List.length_append, List.length_replicate]
  rfl

end Sample

theorem nextHead_reads_oversized :
    maxHead < Sample.oversized.bytes.length ∧
    (Sample.oversizedStart ++ [Sample.oversizedEnd]).flatten = Sample.oversized.bytes ∧
    (nextHead []
      ⟨Arrival.pieces (Sample.oversizedStart ++ [Sample.oversizedEnd]), .closed⟩).outcome =
      some (.ok Sample.oversized.head) := by
  refine ⟨?_, Sample.oversized_bytes, ?_⟩
  · rw [Sample.length_oversized]
    decide
  · refine nextHead_of_last (by decide) (by decide +kernel) Sample.oversized_bytes ?_ .closed
    rw [Sample.length_oversizedStart]
    decide

end HttpRelay
