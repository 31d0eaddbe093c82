import HttpRelay.Proofs.Relay.FeedEffects
import HttpRelay.Proofs.Relay.FeedRuns

namespace HttpRelay.Relay

variable {p : Effect → Bool} {f g : Feed}

namespace Feed

theorem later_insist (hp : ∀ r, p (.logged r) = false) (h : f.insist = some g) :
    Later p f g := by
  obtain ⟨g', hg, rfl⟩ := Option.map_eq_some_iff.mp h
  have hnotes : ({ f with cancellation := none } : Feed).NotesOnly := by
    intro notice hnotice
    cases hnotice
  exact ⟨id, fun _ => (step_keeps hp hnotes hg).2⟩

end Feed

namespace View

theorem later_move (hp : ∀ r, p (.logged r) = false) (v : View) (m : Move) :
    Feed.Later p v.feed (v.move m).feed := by
  cases m with
  | produce =>
    rw [move]
    cases h : v.feed.step with
    | none => exact .rfl
    | some g => exact Feed.later_step hp h
  | insist =>
    rw [move]
    cases h : v.feed.insist with
    | none => exact .rfl
    | some g => exact Feed.later_insist hp h
  | receive => exact Feed.later_channel _ _
  | abandon => exact Feed.later_channel _ _

theorem later_run (hp : ∀ r, p (.logged r) = false) (v : View) (ms : List Move) :
    Feed.Later p v.feed (v.run ms).feed := by
  induction ms generalizing v with
  | nil => exact .rfl
  | cons m ms ih => exact (later_move hp v m).trans (ih (v.move m))

theorem run_effects (v : View) (ms : List Move) : v.feed.effects <+: (v.run ms).feed.effects := by
  induction ms generalizing v with
  | nil => exact List.prefix_refl _
  | cons m ms ih => exact (v.move_grows m).effects.trans (ih (v.move m))

end View

def Move.Starts : List Move → Prop
  | [] => False
  | .receive :: ms => Starts ms
  | .produce :: _ | .insist :: _ => True
  | .abandon :: _ => False

structure Feed.BeginsWith (f : Feed) (e : Effect) : Prop where
  work : ∃ as, f.work = .effect e :: as
  open_ : f.channel.closed = false
  waits : f.channel.receive = (f.channel, .waits)

theorem View.effect_of_starts {v : View} {e : Effect} {ms : List Move}
    (h : v.feed.BeginsWith e) (hms : Move.Starts ms) : e ∈ (v.run ms).feed.effects := by
  obtain ⟨as, hwork⟩ := h.work
  have hnotice : v.feed.cancelNotice? = none := by
    rw [Feed.cancelNotice?, if_neg (by simp [h.open_])]
  have hadvance : Act.advance v.feed.channel (.effect e :: as) =
      some ⟨v.feed.channel, as, [e], []⟩ := rfl
  have hdone : ∀ {w : View} (ms : List Move), e ∈ w.feed.effects →
      e ∈ (w.run ms).feed.effects := fun ms he => (View.run_effects _ ms).subset he
  induction ms generalizing v with
  | nil => exact hms.elim
  | cons m ms ih =>
    cases m with
    | produce =>
      apply hdone ms
      rw [View.move, Feed.step, hwork]
      dsimp only
      rw [hnotice, hadvance]
      simp [Feed.record]
    | insist =>
      apply hdone ms
      rw [View.move, Feed.insist, Feed.step]
      dsimp only
      rw [hwork]
      simp [Feed.cancelNotice?, hadvance, Feed.record]
    | receive =>
      -- nothing has been sent yet, so there is nothing to take
      have hsame : v.receive.feed = v.feed := by
        rw [View.receive, h.waits]
      have hbegins : v.receive.feed.BeginsWith e := by
        rw [hsame]
        exact h
      apply ih hbegins hms
      · rwa [hsame]
      · rwa [hsame]
      · rwa [hsame]
    | abandon => exact hms.elim

end HttpRelay.Relay
