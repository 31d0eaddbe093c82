import HttpRelay.Proofs.Relay.CutOff

namespace HttpRelay.Relay

variable {items : List Item} {v : View} {m : Move}

namespace View

theorem load_receive (v : View) : v.receive.feed.load ≤ v.feed.load := by
  have hle : v.feed.channel.receive.1.queue.length ≤ v.feed.channel.queue.length := by
    rcases v.feed.channel.receive_cases with ⟨-, hrec⟩ | ⟨-, item, rest, hq, hrec⟩ |
      ⟨-, -, -, hrec⟩ | ⟨-, -, -, -, hrec⟩
    · exact Nat.le_of_eq (by rw [hrec])
    · rw [hrec, hq]
      dsimp only
      rw [Channel.queue_grant]
      exact Nat.le_succ _
    · exact Nat.le_of_eq (by rw [hrec])
    · exact Nat.le_of_eq (by rw [hrec])
  rw [receive, Feed.load, Feed.load]
  dsimp only
  omega

theorem load_produce (v : View) : (v.move .produce).feed.load ≤ v.feed.load := by
  rw [move]
  cases hs : v.feed.step with
  | none => exact Nat.le_refl _
  | some g => exact Nat.le_of_lt (Feed.load_step hs)

theorem load_move (h : Underway items v) (hm : m ≠ .abandon) :
    (v.move m).feed.load ≤ v.feed.load := by
  cases m with
  | produce => exact v.load_produce
  | insist =>
    rw [move_insist h.stage.nil_of_closed]
    exact v.load_produce
  | receive => exact v.load_receive
  | abandon => exact absurd rfl hm

theorem results_move (v : View) (m : Move) : v.results.length ≤ (v.move m).results.length := by
  cases m with
  | receive => exact (List.prefix_append _ _).length_le
  | _ => exact Nat.le_refl _

theorem results_receive_of_idle (h : Underway items v) (hs : v.feed.step = none) :
    v.receive.results.length = v.results.length + 1 := by
  rw [receive]
  dsimp only
  rcases v.feed.channel.receive_cases with ⟨-, hrec⟩ | ⟨-, item, rest, -, hrec⟩ |
    ⟨-, -, -, hrec⟩ | ⟨-, hq, hc, -, hrec⟩
  · rw [hrec]
    exact List.length_append
  · rw [hrec]
    exact List.length_append
  · rw [hrec]
    exact List.length_append
  · obtain ⟨p, hp⟩ := h.stage.advance_of_empty h.sound h.capacity hc hq
    rcases Feed.step_of_open hc h.concluded with ⟨hnone, -⟩ | ⟨-, g, -, hstep, -⟩
    · rw [hnone] at hp
      cases hp
    · rw [hstep] at hs
      cases hs

def along (v : View) (σ : Nat → Move) : Nat → View
  | 0 => v
  | n + 1 => (v.along σ n).move (σ n)

theorem along_add (v : View) (σ : Nat → Move) (n k : Nat) :
    v.along σ (n + k) = (v.along σ n).along (fun i => σ (n + i)) k := by
  induction k with
  | zero => rfl
  | succ k ih => exact congrArg (·.move (σ (n + k))) ih

end View

structure Fair (σ : Nat → Move) : Prop where
  produces : ∀ n, ∃ m, n ≤ m ∧ σ m = .produce
  receives : ∀ n, ∃ m, n ≤ m ∧ σ m = .receive
  stays : ∀ n, σ n ≠ .abandon

theorem Fair.shift {σ : Nat → Move} (h : Fair σ) (n : Nat) : Fair fun i => σ (n + i) := by
  have hlater : ∀ move, (∀ n, ∃ m, n ≤ m ∧ σ m = move) →
      ∀ k, ∃ m, k ≤ m ∧ σ (n + m) = move := by
    intro move hmove k
    obtain ⟨m, hm, hσ⟩ := hmove (n + k)
    obtain ⟨d, rfl⟩ := Nat.exists_eq_add_of_le hm
    exact ⟨k + d, Nat.le_add_right k d, Nat.add_assoc n k d ▸ hσ⟩
  exact ⟨hlater _ h.produces, hlater _ h.receives, fun i => h.stays (n + i)⟩

namespace View

variable {σ : Nat → Move} {n k : Nat}

theorem underway_along (h : Underway items v) (hσ : ∀ n, σ n ≠ .abandon) (n : Nat) :
    Underway items (v.along σ n) := by
  induction n with
  | zero => exact h
  | succ n ih => exact underway_move ih (hσ n)

theorem results_along (v : View) (σ : Nat → Move) (hnk : n ≤ k) :
    (v.along σ n).results.length ≤ (v.along σ k).results.length := by
  obtain ⟨d, rfl⟩ := Nat.exists_eq_add_of_le hnk
  induction d with
  | zero => exact Nat.le_refl _
  | succ d ih => exact Nat.le_trans (ih (Nat.le_add_right n d)) (results_move _ _)

theorem replies_along (v : View) (σ : Nat → Move) (hnk : n ≤ k) :
    (v.along σ n).feed.replies <+: (v.along σ k).feed.replies := by
  obtain ⟨d, rfl⟩ := Nat.exists_eq_add_of_le hnk
  induction d with
  | zero => exact List.prefix_refl _
  | succ d ih => exact (ih (Nat.le_add_right n d)).trans (View.move_grows _ _).replies

theorem load_along (h : Underway items v) (hσ : ∀ n, σ n ≠ .abandon) (hnk : n ≤ k) :
    (v.along σ k).feed.load ≤ (v.along σ n).feed.load := by
  obtain ⟨d, rfl⟩ := Nat.exists_eq_add_of_le hnk
  induction d with
  | zero => exact Nat.le_refl _
  | succ d ih =>
    have hmove := load_move (underway_along h hσ (n + d)) (hσ (n + d))
    exact Nat.le_trans hmove (ih (Nat.le_add_right n d))

theorem along_of_idle (h : Underway items v) (hσ : ∀ n, σ n ≠ .abandon)
    (hs : (v.along σ n).feed.step = none) (hnk : n ≤ k) :
    v.along σ k = v.along σ n ∨
      (v.along σ n).results.length < (v.along σ k).results.length := by
  obtain ⟨d, rfl⟩ := Nat.exists_eq_add_of_le hnk
  induction d with
  | zero => exact .inl rfl
  | succ d ih =>
    have hunderway := underway_along h hσ n
    rcases ih (Nat.le_add_right n d) with hsame | hmore
    · have hnext : v.along σ (n + (d + 1)) = (v.along σ n).move (σ (n + d)) :=
        congrArg (·.move (σ (n + d))) hsame
      rw [hnext]
      cases hm : σ (n + d) with
      | produce =>
        rw [move, hs]
        exact .inl rfl
      | insist =>
        rw [move_insist hunderway.stage.nil_of_closed, move, hs]
        exact .inl rfl
      | receive =>
        refine .inr ?_
        rw [move, results_receive_of_idle hunderway hs]
        exact Nat.lt_succ_self _
      | abandon => exact absurd hm (hσ (n + d))
    · exact .inr (Nat.lt_of_lt_of_le hmore (results_move _ _))

theorem exists_later_result (h : Underway items v) (hσ : Fair σ) (n : Nat) :
    ∃ k, (v.along σ n).results.length < (v.along σ k).results.length := by
  generalize hload : (v.along σ n).feed.load = load
  induction load using Nat.strongRecOn generalizing n with
  | ind load ih =>
    obtain ⟨p, hp, hproduce⟩ := hσ.produces n
    have hle := load_along h hσ.stays hp
    cases hs : (v.along σ p).feed.step with
    | some g =>
      -- the producer goes on, so that less is left to be done
      have hnext : v.along σ (p + 1) = { v.along σ p with feed := g } := by
        rw [along, hproduce, move, hs]
        rfl
      have hlt : (v.along σ (p + 1)).feed.load < load := by
        rw [hnext, ← hload]
        exact Nat.lt_of_lt_of_le (Feed.load_step hs) hle
      obtain ⟨k, hk⟩ := ih _ hlt (p + 1) rfl
      exact ⟨k, Nat.lt_of_le_of_lt (results_along v σ (by omega)) hk⟩
    | none =>
      -- the producer waits for the consumer, whose next call comes to something
      obtain ⟨r, hr, hreceive⟩ := hσ.receives p
      have hresults := results_along v σ hp
      rcases along_of_idle h hσ.stays hs hr with hsame | hmore
      · refine ⟨r + 1, Nat.lt_of_le_of_lt hresults ?_⟩
        rw [along, hreceive, move, hsame, results_receive_of_idle (underway_along h hσ.stays p) hs]
        exact Nat.lt_succ_self _
      · exact ⟨r, Nat.lt_of_le_of_lt hresults hmore⟩

theorem exists_results (h : Underway items v) (hσ : Fair σ) (n : Nat) :
    ∃ k, n ≤ (v.along σ k).results.length := by
  induction n with
  | zero => exact ⟨0, Nat.zero_le _⟩
  | succ n ih =>
    obtain ⟨k, hk⟩ := ih
    obtain ⟨l, hl⟩ := exists_later_result h hσ k
    exact ⟨l, by omega⟩

/-- What the consumer of a feed gets to see in whatever order the two sides go on: the items and the
end behind them for ever, and nothing but the end from the moment at which it closes the channel. -/
structure Shows (start : View) (items : List Item) : Prop where
  sound : ∀ ms : List Move, .abandon ∉ ms → ∃ n, (start.run ms).results = upTo n items
  complete : ∀ σ : Nat → Move, Fair σ → ∀ n, ∃ k m, n ≤ m ∧
    (start.along σ k).results = items.map some ++ List.replicate m none
  cutOff : ∀ before later : List Move, .abandon ∉ before →
    ∃ n, (start.run (before ++ .abandon :: later)).results =
      upTo n items ++ List.replicate (later.count .receive) none

theorem shows_of_underway (h : Underway items v) : v.Shows items where
  sound ms hms := by
    obtain ⟨n, hn, -⟩ := (underway_run h hms).shown
    exact ⟨n, hn⟩
  complete σ hσ n := by
    obtain ⟨k, hk⟩ := exists_results h hσ (items.length + n)
    obtain ⟨m, hm, -⟩ := (underway_along h hσ.stays k).shown
    rw [hm, length_upTo] at hk
    obtain ⟨d, rfl⟩ := Nat.exists_eq_add_of_le hk
    refine ⟨k, n + d, Nat.le_add_right n d, ?_⟩
    rw [hm, Nat.add_assoc, upTo_length_add]
  cutOff before later hbefore := by
    obtain ⟨n, hn, -⟩ := (underway_run h hbefore).shown
    refine ⟨n, ?_⟩
    rw [run, List.foldl_append, List.foldl_cons]
    exact (cutOff_run (Channel.cutOff_abandon _) later).trans (congrArg (· ++ _) hn)

end View

end HttpRelay.Relay
