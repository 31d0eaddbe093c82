import HttpRelay.Http.HeaderBlocks
import HttpRelay.Proofs.Text.Marks

namespace HttpRelay.HeaderBlocks

variable {held : Fields} {line other cs ds : List Char} {lines others : List (List Char)}

def feedsOnly : List Char → List Char
  | '\r' :: '\n' :: rest => '\n' :: feedsOnly rest
  | c :: rest => c :: feedsOnly rest
  | [] => []

def entries (line : List Char) : Fields := (lineField? (dropReturns line)).toList

theorem entries_of_blank (h : dropReturns line = []) : entries line = [] := by
  rw [entries, h]
  rfl

theorem parseLines_of_blank (h : dropReturns line = []) (held : Fields)
    (rest : List (List Char)) :
    parseLines held (line :: rest) = close held ++ parseLines [] rest := by
  rw [parseLines, h]
  rfl

theorem parseLines_of_filled (h : dropReturns line ≠ []) (held : Fields)
    (rest : List (List Char)) :
    parseLines held (line :: rest) = parseLines (held ++ entries line) rest := by
  rw [parseLines, if_neg (by simpa using h)]
  rfl

theorem parseLines_append_blank (held : Fields) (before after : List (List Char)) :
    parseLines held (before ++ [] :: after) =
      parseLines held before ++ parseLines [] after := by
  induction before generalizing held with
  | nil => exact parseLines_of_blank rfl held after
  | cons line before ih =>
    rw [List.cons_append]
    by_cases h : dropReturns line = []
    · rw [parseLines_of_blank h, parseLines_of_blank h, ih, List.append_assoc]
    · rw [parseLines_of_filled h, parseLines_of_filled h, ih]

theorem parseLines_congr (h : lines.map dropReturns = others.map dropReturns) (held : Fields) :
    parseLines held lines = parseLines held others := by
  induction lines generalizing held others with
  | nil =>
    rw [List.map_nil] at h
    rw [List.map_eq_nil_iff.mp h.symm]
  | cons line lines ih =>
    obtain ⟨other, others, rfl, hline, hlines⟩ := List.map_eq_cons_iff.mp h.symm
    have hentries : entries line = entries other := by rw [entries, entries, hline]
    by_cases hblank : dropReturns line = []
    · rw [parseLines_of_blank hblank, parseLines_of_blank (hline.trans hblank), ih hlines.symm]
    · have hother : dropReturns other ≠ [] := hline ▸ hblank
      rw [parseLines_of_filled hblank, parseLines_of_filled hother, hentries, ih hlines.symm]

theorem flatten_close (held : Fields) : (close held).flatten = held := by
  cases held with
  | nil => rfl
  | cons f held => exact List.append_nil _

theorem flatten_parseLines (held : Fields) (lines : List (List Char)) :
    (parseLines held lines).flatten = held ++ lines.flatMap entries := by
  induction lines generalizing held with
  | nil => rw [parseLines, flatten_close, List.flatMap_nil, List.append_nil]
  | cons line lines ih =>
    rw [List.flatMap_cons]
    by_cases h : dropReturns line = []
    · rw [parseLines_of_blank h, List.flatten_append, flatten_close, ih, entries_of_blank h]
    · rw [parseLines_of_filled h, ih, List.append_assoc]

theorem ne_nil_of_mem_close {group : Fields} (h : group ∈ close held) : group ≠ [] := by
  cases held with
  | nil => exact absurd h List.not_mem_nil
  | cons f held =>
    rw [List.mem_singleton.mp h]
    exact List.cons_ne_nil f held

theorem ne_nil_of_mem_parseLines {group : Fields} (h : group ∈ parseLines held lines) :
    group ≠ [] := by
  induction lines generalizing held with
  | nil => exact ne_nil_of_mem_close h
  | cons line lines ih =>
    by_cases hblank : dropReturns line = []
    · rw [parseLines_of_blank hblank] at h
      rcases List.mem_append.mp h with hclosed | hlater
      · exact ne_nil_of_mem_close hclosed
      · exact ih hlater
    · rw [parseLines_of_filled hblank] at h
      exact ih h

theorem dropReturns_cons_congr (h : dropReturns line = dropReturns other) (c : Char) :
    dropReturns (c :: line) = dropReturns (c :: other) := by
  have hreverse := List.reverse_inj.mp h
  simp only [dropReturns, List.reverse_cons, List.dropWhile_append, hreverse]

theorem splitAll_cons_congr (h : (Text.splitAll '\n' cs).map dropReturns =
    (Text.splitAll '\n' ds).map dropReturns) (c : Char) :
    (Text.splitAll '\n' (c :: cs)).map dropReturns =
      (Text.splitAll '\n' (c :: ds)).map dropReturns := by
  rw [Text.splitAll, Text.splitAll]
  split
  · rw [List.map_cons, List.map_cons, h]
  · cases hcs : Text.splitAll '\n' cs with
    | nil => exact absurd hcs (by rw [Text.splitAll_eq_splitOn]; exact List.splitOn_ne_nil _ _)
    | cons piece pieces =>
      rw [hcs] at h
      obtain ⟨piece', pieces', hds, hpiece, hpieces⟩ := List.map_eq_cons_iff.mp h.symm
      rw [hds]
      simp only [List.map_cons, dropReturns_cons_congr hpiece c, hpieces]

theorem splitAll_feedsOnly (cs : List Char) :
    (Text.splitAll '\n' (feedsOnly cs)).map dropReturns =
      (Text.splitAll '\n' cs).map dropReturns := by
  fun_induction feedsOnly cs with
  | case1 rest ih =>
    have hreturn : dropReturns ['\r'] = dropReturns [] := rfl
    have hfree : '\n' ∉ ['\r'] := by decide
    have hcut : Text.splitAll '\n' ('\r' :: '\n' :: rest) =
        ['\r'] :: Text.splitAll '\n' rest := Text.splitAll_append hfree rest
    have hfeed : Text.splitAll '\n' ('\n' :: feedsOnly rest) =
        [] :: Text.splitAll '\n' (feedsOnly rest) := Text.splitAll_append List.not_mem_nil _
    rw [hcut, hfeed, List.map_cons, List.map_cons, hreturn, ih]
  | case2 c rest _ ih => exact splitAll_cons_congr ih c
  | case3 => rfl

/-- Blocks stand on their own: a blank line parts what is read, the kind of line end does not
count, and the groups are what the lines say, cut into parts that all hold something. -/
theorem blocks_independent (a b : String) :
    parse (a ++ "\n\n" ++ b) = parse a ++ parse b ∧
    parse (String.ofList (feedsOnly a.toList)) = parse a ∧
    (∀ group ∈ parse a, group ≠ []) ∧
    (parse a).flatten = (Text.splitAll '\n' a.toList).flatMap entries := by
  refine ⟨?_, ?_, ?_, ?_⟩
  · have htext : (a ++ "\n\n" ++ b).toList = a.toList ++ '\n' :: ([] ++ '\n' :: b.toList) := by
      simp
    rw [parse, htext, Text.splitAll_concat, Text.splitAll_concat]
    exact parseLines_append_blank [] _ _
  · rw [parse, String.toList_ofList]
    exact parseLines_congr (splitAll_feedsOnly a.toList) []
  · intro group hgroup
    exact ne_nil_of_mem_parseLines hgroup
  · exact flatten_parseLines [] _

def noisy : String := "\r\n\r\nHTTP/1.1 404 Not Found\nbogus\nX-A: 1\n\r\r\nbogus\r\n"

def notFound : Fields := [(statusKey, "404"), ("X-A", "1")]

theorem blocks_independent_noisy : notFound ∈ parse noisy ∧ notFound ≠ [] ∧
    parse (noisy ++ "\n\n" ++ noisy) = [notFound, notFound] ∧
    parse (String.ofList (feedsOnly noisy.toList)) = [notFound] := by
  have hnoisy : parse noisy = [notFound] := by decide +kernel
  have hmem : notFound ∈ parse noisy := hnoisy ▸ List.mem_cons_self
  obtain ⟨hjoined, hfeeds, hfilled, -⟩ := blocks_independent noisy noisy
  exact ⟨hmem, hfilled notFound hmem, by rw [hjoined, hnoisy]; rfl, hfeeds.trans hnoisy⟩

end HttpRelay.HeaderBlocks
