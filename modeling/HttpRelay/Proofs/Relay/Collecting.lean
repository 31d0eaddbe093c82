import HttpRelay.Proofs.Relay.FeedEffects
import HttpRelay.Proofs.Relay.FeedRuns

namespace HttpRelay.Relay.Feed

variable {items : List Item} {f g k : Feed} {p : Effect → Bool}

def Attended (items : List Item) (f : Feed) : Prop := ∃ results, Underway items ⟨f, results⟩

structure Keeps (p : Effect → Bool) (items : List Item) (f g : Feed) : Prop where
  attended : f.Attended items → g.Attended items
  due : f.Attended items → g.due p = f.due p

theorem Keeps.rfl : Keeps p items f f := ⟨id, fun _ => Eq.refl _⟩

theorem Keeps.trans (h : Keeps p items f g) (h' : Keeps p items g k) : Keeps p items f k :=
  ⟨fun hf => h'.attended (h.attended hf), fun hf => (h'.due (h.attended hf)).trans (h.due hf)⟩

theorem Attended.open_of_step (h : f.Attended items) (hs : f.step = some g) :
    f.channel.closed = false := by
  obtain ⟨results, hunder⟩ := h
  rw [← Bool.not_eq_true]
  intro hc
  rw [step_of_over (hunder.stage.nil_of_closed hc)] at hs
  cases hs

theorem Attended.receive {c : Channel} {r : Reception} (h : f.Attended items)
    (hr : f.channel.receive = (c, r)) : Attended items { f with channel := c } := by
  have hc : f.channel.receive.1 = c := congrArg Prod.fst hr
  subst hc
  obtain ⟨results, hunder⟩ := h
  exact ⟨_, View.underway_receive hunder⟩

theorem keeps_channel {c : Channel} {r : Reception} (hr : f.channel.receive = (c, r)) :
    Keeps p items f { f with channel := c } :=
  ⟨fun h => h.receive hr, fun _ => Eq.refl _⟩

section Steps

variable (hp : ∀ r, p (.logged r) = false)

include hp

theorem due_step (h : f.Attended items) (hs : f.step = some g) : g.due p = f.due p := by
  have hnotice : f.cancelNotice? = none := by
    rw [cancelNotice?, if_neg (by simp [h.open_of_step hs])]
  rcases step_cases hs with ⟨hw, q, hq, rfl⟩ | ⟨-, notice, hc, -⟩ | ⟨-, -, q, hq, rfl⟩
  · have := Act.countP_advance hp hq
    simp only [due, record, hw, List.countP_append, List.countP_nil]
    omega
  · cases hnotice.symm.trans hc
  · have := Act.countP_advance hp hq
    simp only [due, record, List.countP_append]
    omega

theorem keeps_step (hs : f.step = some g) : Keeps p items f g :=
  ⟨fun ⟨_, h⟩ => ⟨_, View.underway_step h hs⟩, fun h => due_step hp h hs⟩

theorem keeps_settle (f : Feed) : Keeps p items f f.settle := by
  fun_induction settle f with
  | case1 f g hs ih => exact (keeps_step hp hs).trans ih
  | case2 => exact .rfl

theorem keeps_receive (f : Feed) : Keeps p items f f.receive.1 := by
  unfold receive
  split
  · exact (keeps_settle hp f).trans (keeps_channel rfl)
  · rename_i c r _ hr
    exact keeps_channel hr

theorem keeps_take (f : Feed) (n : Nat) : Keeps p items f (f.take n).1 := by
  induction n generalizing f with
  | zero => exact .rfl
  | succ n ih =>
    have hr : Keeps p items f _ := keeps_receive hp f
    rw [take]
    split
    · rename_i g i heq
      rw [heq] at hr
      exact hr.trans (ih g)
    · rename_i g r _ heq
      rw [heq] at hr
      exact hr

theorem keeps_collect (f : Feed) : Keeps p items f f.collect.1 := by
  fun_induction collect f with
  | case1 f c i h g is hc ih =>
    rw [hc] at ih
    exact (keeps_channel h).trans ih
  | case2 f c h => exact keeps_channel h
  | case3 f c h g hs ih => exact (keeps_step hp hs).trans ih
  | case4 => exact .rfl

end Steps

theorem pending_collect (h : f.Attended items) : f.collect.1.pending = [] := by
  fun_induction collect f with
  | case1 f c i hr g is hc ih =>
    rw [hc] at ih
    exact ih (h.receive hr)
  -- the consumer has come to the end, which only the producer can have put there
  | case2 f c hr =>
    obtain ⟨results, hunder⟩ := h
    apply hunder.stage.nil_of_closed
    rcases f.channel.receive_cases with ⟨he, -⟩ | ⟨-, item, rest, -, hrec⟩ | ⟨-, -, hc, -⟩ |
      ⟨-, -, -, -, hrec⟩
    · exact (hunder.ended he).1
    · rw [hr] at hrec
      cases hrec
    · exact hc.resolve_right hunder.senders
    · rw [hr] at hrec
      cases hrec
  | case3 f c hr g hs ih =>
    obtain ⟨results, hunder⟩ := h
    exact ih ⟨_, View.underway_step hunder hs⟩
  -- nothing is queued, so that a producer with something left to do could go on
  | case4 f c hr hs =>
    obtain ⟨results, hunder⟩ := h
    rcases f.channel.receive_cases with ⟨-, hrec⟩ | ⟨-, item, rest, -, hrec⟩ | ⟨-, -, -, hrec⟩ |
      ⟨-, hq, hc, -, -⟩
    · rw [hr] at hrec
      cases hrec
    · rw [hr] at hrec
      cases hrec
    · rw [hr] at hrec
      cases hrec
    · obtain ⟨q, hq⟩ := hunder.stage.advance_of_empty hunder.sound hunder.capacity hc hq
      rcases step_of_open hc hunder.concluded with ⟨hnone, -⟩ | ⟨-, g, -, hstep, -⟩
      · cases hnone.symm.trans hq
      · cases hs.symm.trans hstep

theorem countP_collect (hp : ∀ r, p (.logged r) = false) (h : f.Attended items) (count : Nat) :
    (f.consume count .collect).1.effects.countP p = f.due p := by
  have htake : Keeps p items f _ := (keeps_settle hp f).trans (keeps_take hp f.settle count)
  have hall := htake.trans (keeps_collect hp _)
  have hpending := pending_collect (htake.attended h)
  obtain ⟨hwork, hconclusion⟩ := List.append_eq_nil_iff.mp hpending
  have hrest : (f.settle.take count).1.collect.1.settle = (f.settle.take count).1.collect.1 := by
    rw [settle, step_of_over hpending]
  have hdue := hall.due h
  rw [due, hwork, hconclusion] at hdue
  rw [consume]
  dsimp only
  rw [hrest]
  exact hdue

end HttpRelay.Relay.Feed
