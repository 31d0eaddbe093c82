import HttpRelay.Proofs.Relay.FeedSteps

namespace HttpRelay.Relay

namespace Feed

def insist (f : Feed) : Option Feed :=
  let heedless : Feed := { f with cancellation := none }
  heedless.step.map fun g => { g with cancellation := f.cancellation }

def pending (f : Feed) : List Act := f.work ++ f.conclusion

end Feed

/-- A moment at which one of the two sides of a feed goes on. A close by the consumer cuts the
producer short when it looks, and it may look some acts too late. -/
inductive Move where
  | produce
  | insist
  | receive
  | abandon
deriving DecidableEq, Repr

def Reception.result : Reception → List (Option Item)
  | .item i => [some i]
  | .finished => [none]
  | .waits => []

structure View where
  feed : Feed
  results : List (Option Item)

namespace View

def receive (v : View) : View :=
  ⟨{ v.feed with channel := v.feed.channel.receive.1 },
    v.results ++ v.feed.channel.receive.2.result⟩

def move (v : View) : Move → View
  | .produce => { v with feed := v.feed.step.getD v.feed }
  | .insist => { v with feed := v.feed.insist.getD v.feed }
  | .receive => v.receive
  | .abandon => { v with feed := v.feed.abandon }

def run (v : View) (ms : List Move) : View := ms.foldl move v

end View

variable {items : List Item} {f g : Feed} {v : View}

theorem advance_append {c : Channel} {a : Act} {as bs : List Act} :
    Act.advance c (a :: as ++ bs) =
      (Act.advance c (a :: as)).map fun p => { p with rest := p.rest ++ bs } := by
  rw [List.cons_append, Act.advance, Act.advance]
  split <;> rfl

namespace Feed

theorem step_of_open (hc : f.channel.closed = false) (hw : f.conclusion = [] → f.work = []) :
    (Act.advance f.channel f.pending = none ∧ f.step = none) ∨
      ∃ p g, Act.advance f.channel f.pending = some p ∧ f.step = some g ∧
        g.channel = p.channel ∧ g.pending = p.rest ∧ (g.conclusion = [] → g.work = []) ∧
        g.cancellation = f.cancellation := by
  have hnotice : f.cancelNotice? = none := by
    rw [cancelNotice?, if_neg (by simp [hc])]
  cases hwork : f.work with
  | nil =>
    rw [pending, hwork, List.nil_append, step_of_done hwork]
    cases hp : Act.advance f.channel f.conclusion with
    | none => exact .inl ⟨rfl, rfl⟩
    | some p =>
      refine .inr ⟨p, _, rfl, rfl, rfl, ?_, fun _ => hwork, rfl⟩
      change f.work ++ p.rest = p.rest
      rw [hwork, List.nil_append]
  | cons a as =>
    have hne : f.work ≠ [] := by
      rw [hwork]
      exact List.cons_ne_nil a as
    rw [pending, step_of_working hne hnotice, hwork, advance_append]
    cases hp : Act.advance f.channel (a :: as) with
    | none => exact .inl ⟨rfl, rfl⟩
    | some p =>
      refine .inr ⟨_, _, rfl, rfl, rfl, rfl, fun hnil => ?_, rfl⟩
      exact absurd (hwork.symm.trans (hw hnil)) (by simp)

theorem step_of_over (hp : f.pending = []) : f.step = none := by
  obtain ⟨hw, hc⟩ := List.append_eq_nil_iff.mp hp
  rw [step_of_done hw, hc]
  rfl

theorem insist_of_unnoticed (h : f.cancelNotice? = none) : f.insist = f.step := by
  have hnotice : ({ f with cancellation := none } : Feed).cancelNotice? = none := ite_self _
  by_cases hw : f.work = []
  · have hheedless : ({ f with cancellation := none } : Feed).step = _ := step_of_done hw
    rw [insist, hheedless, step_of_done hw, Option.map_map]
    rfl
  · have hheedless : ({ f with cancellation := none } : Feed).step = _ :=
      step_of_working hw hnotice
    rw [insist, hheedless, step_of_working hw h, Option.map_map]
    rfl

theorem insist_eq_step (h : f.channel.closed = true → f.pending = []) : f.insist = f.step := by
  cases hc : f.channel.closed with
  | true =>
    have hp := h hc
    have hheedless : ({ f with cancellation := none } : Feed).step = none := step_of_over hp
    rw [insist, hheedless, step_of_over hp]
    rfl
  | false =>
    apply insist_of_unnoticed
    rw [cancelNotice?, if_neg (by simp [hc])]

structure Grows (f g : Feed) : Prop where
  effects : f.effects <+: g.effects
  replies : f.replies <+: g.replies

theorem grows_refl (f : Feed) : f.Grows f := ⟨List.prefix_refl _, List.prefix_refl _⟩

theorem step_grows (h : f.step = some g) : f.Grows g := by
  rcases step_cases h with ⟨-, q, -, rfl⟩ | ⟨-, notice, -, rfl⟩ | ⟨-, -, q, -, rfl⟩
  · exact ⟨List.prefix_append _ _, List.prefix_append _ _⟩
  · exact ⟨List.prefix_append _ _, List.prefix_refl _⟩
  · exact ⟨List.prefix_append _ _, List.prefix_append _ _⟩

theorem insist_grows (h : f.insist = some g) : f.Grows g := by
  obtain ⟨g', hg, rfl⟩ := Option.map_eq_some_iff.mp h
  have hgrows := step_grows hg
  exact ⟨hgrows.effects, hgrows.replies⟩

end Feed

theorem View.move_grows (v : View) (m : Move) : v.feed.Grows (v.move m).feed := by
  cases m with
  | produce =>
    rw [move]
    cases h : v.feed.step with
    | none => exact v.feed.grows_refl
    | some g => exact Feed.step_grows h
  | insist =>
    rw [move]
    cases h : v.feed.insist with
    | none => exact v.feed.grows_refl
    | some g => exact Feed.insist_grows h
  | receive | abandon => exact ⟨List.prefix_refl _, List.prefix_refl _⟩

structure Underway (items : List Item) (v : View) : Prop where
  shown : ∃ n, v.results = upTo n items ∧
    items.drop n = v.feed.channel.queue ++ v.feed.pending.flatMap Act.items
  stage : Stage v.feed.channel v.feed.pending
  sound : v.feed.channel.Sound
  capacity : 0 < v.feed.channel.capacity
  senders : v.feed.channel.senders ≠ 0
  ended : v.feed.channel.ended = true → v.feed.channel.closed = true ∧ v.feed.channel.queue = []
  concluded : v.feed.conclusion = [] → v.feed.work = []

namespace View

theorem underway_step (h : Underway items v) (hg : v.feed.step = some g) :
    Underway items { v with feed := g } := by
  have hc : v.feed.channel.closed = false := by
    rw [← Bool.not_eq_true]
    intro hc
    rw [Feed.step_of_over (h.stage.nil_of_closed hc)] at hg
    cases hg
  rcases Feed.step_of_open hc h.concluded with ⟨-, hnone⟩ | ⟨p, g', hp, hstep, hch, hpend, hconcl, -⟩
  · rw [hnone] at hg
    cases hg
  · rw [hstep] at hg
    obtain rfl := Option.some.inj hg
    have hcarried := h.stage.advance h.sound hp
    obtain ⟨n, hresults, hdrop⟩ := h.shown
    rw [← hch, ← hpend] at hcarried
    refine ⟨⟨n, hresults, ?_⟩, hcarried.stage, hcarried.sound, ?_, ?_, ?_, hconcl⟩
    · rw [hdrop]
      exact hcarried.items.symm
    · rw [hcarried.capacity]
      exact h.capacity
    · rw [hcarried.senders]
      exact h.senders
    · intro he
      rw [hcarried.ended] at he
      exact absurd (hc.symm.trans (h.ended he).1) (by simp)

theorem underway_receive (h : Underway items v) : Underway items v.receive := by
  obtain ⟨n, hresults, hdrop⟩ := h.shown
  -- once the channel is closed nothing is pending, and an empty queue is the end of the items
  have hover : v.feed.channel.closed = true → v.feed.pending.flatMap Act.items = [] := by
    intro hc
    rw [h.stage.nil_of_closed hc]
    rfl
  have hend : v.feed.channel.closed = true → v.feed.channel.queue = [] →
      v.results ++ [none] = upTo (n + 1) items ∧ items.drop (n + 1) = [] := by
    intro hc hq
    rw [hq, hover hc] at hdrop
    refine ⟨?_, ?_⟩
    · rw [upTo_succ, hdrop, hresults]
      rfl
    · rw [← List.drop_drop, hdrop]
      rfl
  rcases v.feed.channel.receive_cases with ⟨he, hrec⟩ | ⟨he, item, rest, hq, hrec⟩ |
    ⟨-, hq, hc, hrec⟩ | ⟨-, -, -, -, hrec⟩ <;> rw [receive, hrec]
  · obtain ⟨hc, hq⟩ := h.ended he
    obtain ⟨hnext, hnil⟩ := hend hc hq
    refine ⟨⟨n + 1, hnext, ?_⟩, h.stage, h.sound, h.capacity, h.senders, h.ended, h.concluded⟩
    rw [hnil, hq]
    exact (hover hc).symm
  · rw [hq] at hdrop
    refine ⟨⟨n + 1, ?_, ?_⟩, ?_, h.sound.receive hq, ?_, ?_, ?_, h.concluded⟩
    · rw [upTo_succ, hdrop, hresults]
      rfl
    · rw [← List.drop_drop, hdrop, Channel.queue_grant]
      rfl
    · exact h.stage.congr (Channel.closed_grant _) (Channel.line_grant _)
    · rw [Channel.capacity_grant]
      exact h.capacity
    · rw [Channel.senders_grant]
      exact h.senders
    · intro hended
      rw [Channel.ended_grant] at hended
      exact absurd (he.symm.trans hended) (by simp)
  · have hclosed : v.feed.channel.closed = true := hc.resolve_right h.senders
    obtain ⟨hnext, hnil⟩ := hend hclosed hq
    refine ⟨⟨n + 1, hnext, ?_⟩, h.stage.congr rfl rfl, ⟨h.sound.fits, h.sound.full,
      h.sound.distinct⟩, h.capacity, h.senders, fun _ => ⟨hclosed, hq⟩, h.concluded⟩
    rw [hnil, hq]
    exact (hover hclosed).symm
  · refine ⟨⟨n, ?_, hdrop⟩, h.stage, h.sound, h.capacity, h.senders, h.ended, h.concluded⟩
    exact (List.append_nil _).trans hresults

theorem move_insist (h : v.feed.channel.closed = true → v.feed.pending = []) :
    v.move .insist = v.move .produce :=
  congrArg (fun o : Option Feed => { v with feed := o.getD v.feed }) (Feed.insist_eq_step h)

theorem underway_move (h : Underway items v) {m : Move} (hm : m ≠ .abandon) :
    Underway items (v.move m) := by
  have hproduce : Underway items (v.move .produce) := by
    rw [move]
    cases hs : v.feed.step with
    | none => exact h
    | some g => exact underway_step h hs
  cases m with
  | produce => exact hproduce
  | insist =>
    rw [move_insist h.stage.nil_of_closed]
    exact hproduce
  | receive => exact underway_receive h
  | abandon => exact absurd rfl hm

theorem underway_run {ms : List Move} (h : Underway items v) (hms : .abandon ∉ ms) :
    Underway items (v.run ms) := by
  induction ms generalizing v with
  | nil => exact h
  | cons m ms ih =>
    rw [List.mem_cons, not_or] at hms
    exact ih (underway_move h (Ne.symm hms.1)) hms.2

end View

end HttpRelay.Relay
