import Mathlib.Data.List.ReduceOption
import HttpRelay.Proofs.Relay.FeedRuns

namespace HttpRelay.Relay.Feed

variable {f g k : Feed} {items more : List Item}

def Reaches (f g : Feed) (items : List Item) : Prop :=
  ∀ results, ∃ ms added, View.run ⟨f, results⟩ ms = ⟨g, results ++ added⟩ ∧
    added.reduceOption = items

theorem reaches_refl (f : Feed) : f.Reaches f [] :=
  fun results => ⟨[], [], by rw [List.append_nil]; rfl, rfl⟩

theorem Reaches.trans (h : f.Reaches g items) (h' : g.Reaches k more) :
    f.Reaches k (items ++ more) := by
  intro results
  obtain ⟨ms, added, hrun, hadded⟩ := h results
  obtain ⟨ns, later, hrun', hlater⟩ := h' (results ++ added)
  refine ⟨ms ++ ns, added ++ later, ?_, ?_⟩
  · rw [View.run, List.foldl_append]
    refine (congrArg (View.run · ns) hrun).trans ?_
    rw [hrun', List.append_assoc]
  · rw [List.reduceOption_append, hadded, hlater]

theorem reaches_step (hs : f.step = some g) : f.Reaches g [] := by
  intro results
  refine ⟨[.produce], [], ?_, rfl⟩
  rw [List.append_nil, View.run, List.foldl_cons, View.move, hs]
  rfl

theorem reaches_abandon (f : Feed) : f.Reaches f.abandon [] :=
  fun results => ⟨[.abandon], [], by rw [List.append_nil]; rfl, rfl⟩

theorem reaches_receive (f : Feed) {c : Channel} {r : Reception} (hr : f.channel.receive = (c, r)) :
    f.Reaches { f with channel := c } r.result.reduceOption := by
  intro results
  refine ⟨[.receive], r.result, ?_, rfl⟩
  rw [View.run, List.foldl_cons, View.move, View.receive]
  dsimp only
  rw [hr]
  rfl

theorem reaches_settle (f : Feed) : f.Reaches f.settle [] := by
  fun_induction settle f with
  | case1 f g h ih => exact (reaches_step h).trans ih
  | case2 => exact reaches_refl _

theorem reaches_collect (f : Feed) : f.Reaches f.collect.1 f.collect.2 := by
  fun_induction collect f with
  | case1 f c i h g items hc ih =>
    rw [hc] at ih
    exact (reaches_receive f h).trans ih
  | case2 f c h => exact reaches_receive f h
  | case3 f c h g hs ih => exact (reaches_step hs).trans ih
  | case4 => exact reaches_refl _

theorem reaches_receive_settled (f : Feed) :
    f.Reaches f.receive.1 f.receive.2.result.reduceOption := by
  rcases hr : f.channel.receive with ⟨c, r⟩
  cases r with
  | waits =>
    have hreceive : f.receive = ({ f.settle with channel := f.settle.channel.receive.1 },
        f.settle.channel.receive.2) := by
      rw [receive, hr]
    rw [hreceive]
    exact (reaches_settle f).trans (reaches_receive f.settle rfl)
  | item i =>
    have hreceive : f.receive = ({ f with channel := c }, .item i) := by rw [receive, hr]
    rw [hreceive]
    exact reaches_receive f hr
  | finished =>
    have hreceive : f.receive = ({ f with channel := c }, .finished) := by rw [receive, hr]
    rw [hreceive]
    exact reaches_receive f hr

theorem reaches_take (f : Feed) (n : Nat) : f.Reaches (f.take n).1 (f.take n).2 := by
  induction n generalizing f with
  | zero => exact reaches_refl f
  | succ n ih =>
    have hone := reaches_receive_settled f
    rcases hr : f.receive with ⟨g, r⟩
    rw [hr] at hone
    rw [take, hr]
    cases r with
    | item i => exact hone.trans (ih g)
    | finished => exact hone
    | waits => exact hone

theorem reaches_consume (f : Feed) (count : Nat) (wish : Wish) :
    f.Reaches (f.consume count wish).1 (f.consume count wish).2 := by
  have htake := (reaches_settle f).trans (reaches_take f.settle count)
  rw [List.nil_append] at htake
  cases wish with
  | collect =>
    have hall := (htake.trans (reaches_collect _)).trans (reaches_settle _)
    rwa [List.append_nil] at hall
  | close =>
    have hclosed := htake.trans (reaches_abandon _)
    rw [List.append_nil] at hclosed
    have hlast := (hclosed.trans (reaches_take _ 1)).trans (reaches_settle _)
    rwa [List.append_nil] at hlast
  | leave =>
    have hleft := (htake.trans (reaches_abandon _)).trans (reaches_settle _)
    rwa [List.append_nil, List.append_nil] at hleft

end HttpRelay.Relay.Feed
