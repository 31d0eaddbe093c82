import HttpRelay.Proofs.Exchange.Receipts
import HttpRelay.Proofs.Http.BodyFeeds
import HttpRelay.Proofs.Text.Settling

/-!
The two loops over a body do what its receipt says. Each handles the events of a buffer one by
one, and the receipt drains the buffer as a whole.
-/

namespace HttpRelay

open Utf8 (Holding)

def Framing.Stop.settled : Framing.Stop → Option (Except Failure Unit)
  | hungry => none
  | complete => some (.ok ())
  | broken failure => some (.error failure)

theorem Framing.Stop.eq_hungry_of_settled {stop : Framing.Stop} (h : stop.settled = none) :
    stop = .hungry := by
  cases stop with
  | hungry => rfl
  | complete => cases h
  | broken failure => cases h

namespace Receipt

variable {f : Framing} {b : Bytes} {ending : HttpRelay.Ending}

theorem collect_of_settled {outcome : Except Failure Unit}
    (h : (f.drain b).stop.settled = some outcome) (arrivals : List Arrival) :
    collect f b ending arrivals = ⟨(f.drain b).events.map .event, some outcome⟩ := by
  cases hstop : (f.drain b).stop with
  | hungry =>
    rw [hstop] at h
    cases h
  | complete =>
    rw [hstop] at h
    cases h
    cases arrivals <;> simp [collect, hstop, drainedSignals]
  | broken failure =>
    rw [hstop] at h
    cases h
    cases arrivals <;> simp [collect, hstop, drainedSignals]

section Hungry

variable (h : (f.drain b).stop = .hungry)

include h

theorem collect_nil_of_hungry : collect f b ending [] =
    ⟨(f.drain b).events.map .event ++ [.asked],
      ending.outcome (f.drain b).framing.finish⟩ := by
  simp [collect, h, drainedSignals]

theorem collect_data_of_hungry {bytes : Bytes} (filled : bytes ≠ []) (rest : List Arrival) :
    collect f b ending (.data bytes filled :: rest) =
      (collect (f.drain b).framing ((f.drain b).buffer ++ bytes) ending rest).after
        ((f.drain b).events.map .event ++ [.asked]) := by
  simp [collect, h, drainedSignals]

theorem collect_fault_of_hungry (fault : IoFault) (rest : List Arrival) :
    collect f b ending (.fault fault :: rest) =
      ⟨(f.drain b).events.map .event ++ [.asked],
        some (if fault.isClose then (f.drain b).framing.finish else .error (.read fault))⟩ := by
  simp [collect, h, drainedSignals]

end Hungry

theorem exists_signals_eq (f : Framing) (b : Bytes) (ending : HttpRelay.Ending)
    (arrivals : List Arrival) : ∃ rest, (collect f b ending arrivals).signals =
      (f.drain b).events.map .event ++ rest := by
  cases hsettled : (f.drain b).stop.settled with
  | some outcome =>
    exact ⟨[], by rw [collect_of_settled hsettled, List.append_nil]⟩
  | none =>
    have hstop := Framing.Stop.eq_hungry_of_settled hsettled
    match arrivals with
    | [] => exact ⟨[.asked], by rw [collect_nil_of_hungry hstop]⟩
    | .data bytes filled :: rest =>
      rw [collect_data_of_hungry hstop]
      exact ⟨_, List.append_assoc _ _ _⟩
    | .fault fault :: rest => exact ⟨[.asked], by rw [collect_fault_of_hungry hstop]⟩

end Receipt

namespace Stream

variable {held : Bytes} {s : Utf8.Carry} {f : Framing} {b : Bytes} {d : Framing.Drained} {t : Turn}

inductive Follows (s : Utf8.Carry) (d : Framing.Drained) (t : Turn) : Prop where
  | settled {outcome : Except Failure Unit} (hd : d.stop.settled = some outcome)
    (ht : t.settled = some outcome)
    (effects : effects s (some outcome) (d.events.map .event) = t.effects)
  | hungry {s' : Utf8.Carry} (hd : d.stop = .hungry) (ht : t.settled = none)
    (framing : t.framing = d.framing) (buffer : t.buffer = d.buffer) (held : Holding t.held s')
    (effects : ∀ outcome rest, effects s outcome (d.events.map .event ++ rest) =
      t.effects ++ effects s' outcome rest)

theorem Follows.after {s s' : Utf8.Carry} {e : BodyEvent} {es : List Effect}
    (h : Follows s' d t) (he : react s (.event e) = (es, s')) :
    Follows s (d.after [e]) (t.after es) := by
  have hstart (outcome : Option (Except Failure Unit)) (rest : List Signal) :
      effects s outcome (.event e :: rest) = es ++ effects s' outcome rest := by
    rw [effects, he]
  cases h with
  | settled hd ht heffects =>
    refine .settled hd ht ?_
    exact (hstart _ _).trans (congrArg (es ++ ·) heffects)
  | hungry hd ht framing buffer held heffects =>
    refine .hungry hd ht framing buffer held fun outcome rest => ?_
    have hrest := congrArg (es ++ ·) (heffects outcome rest)
    exact (hstart _ _).trans (hrest.trans (List.append_assoc _ _ _).symm)

theorem turn_follows (h : Holding held s) (f : Framing) (b : Bytes) :
    Follows s (f.drain b) (turn held f b) := by
  fun_induction turn held f b generalizing s with
  | case1 held f b failure g c hreply =>
    rw [Framing.drain_of_fault (congrArg Framing.Reply.found hreply)]
    exact .settled rfl rfl rfl
  | case2 held f b g c hreply =>
    rw [Framing.drain_of_waiting (congrArg Framing.Reply.found hreply), hreply]
    exact .hungry rfl rfl rfl rfl h fun _ _ => rfl
  | case3 held f b size g c hreply ih =>
    rw [Framing.drain_of_event (congrArg Framing.Reply.found hreply) nofun, hreply]
    exact (ih h).after rfl
  | case4 held f b segment g c hreply text held' hpush ih =>
    rw [Framing.drain_of_event (congrArg Framing.Reply.found hreply) nofun, hreply]
    rw [h.push, Prod.mk.injEq] at hpush
    obtain ⟨rfl, rfl⟩ := hpush
    exact (ih (h.behind segment)).after rfl
  | case5 held f b g c hreply ih =>
    rw [Framing.drain_of_event (congrArg Framing.Reply.found hreply) nofun, hreply]
    exact (ih h).after rfl
  | case6 held f b g c hreply text held' hfinish =>
    rw [Framing.drain_of_done (congrArg Framing.Reply.found hreply)]
    rw [h.finish, Prod.mk.injEq] at hfinish
    obtain ⟨rfl, rfl⟩ := hfinish
    exact .settled rfl rfl rfl

theorem ended_eq (h : Holding held s) (f : Framing) :
    ended held f = ⟨effects s (some f.finish) [], some f.finish⟩ := by
  unfold ended
  cases f.finish with
  | error e => rfl
  | ok u =>
    rw [h.finish]
    rfl

theorem relay_eq_effects (h : Holding held s) (f : Framing) (b : Bytes) (ending : Ending)
    (arrivals : List Arrival) : relay held f b ending arrivals =
      ⟨effects s (Receipt.collect f b ending arrivals).outcome
          (Receipt.collect f b ending arrivals).signals,
        (Receipt.collect f b ending arrivals).outcome⟩ := by
  -- from one buffer to the next, the loop and the receipt share the state of the decoder
  induction arrivals generalizing held s f b with
  | nil =>
    cases turn_follows h f b with
    | settled hd ht heffects =>
      rw [Receipt.collect_of_settled hd, heffects]
      simp only [relay, ht]
    | hungry hd ht hframing hbuffer hheld heffects =>
      rw [Receipt.collect_nil_of_hungry hd, heffects]
      cases ending with
      | closed =>
        simp only [relay, ht, ended_eq hheld, hframing]
        simp [Run.after, effects, react, Ending.outcome]
      | silent =>
        simp only [relay, ht]
        simp [Run.after, Run.stuck, effects, react, Ending.outcome]
  | cons a rest ih =>
    cases turn_follows h f b with
    | settled hd ht heffects =>
      rw [Receipt.collect_of_settled hd, heffects]
      simp only [relay, ht]
    | hungry hd ht hframing hbuffer hheld heffects =>
      cases a with
      | data bytes filled =>
        rw [Receipt.collect_data_of_hungry hd]
        simp only [relay, ht, hframing, hbuffer, ih hheld, Receipt.after, List.append_assoc]
        rw [heffects]
        simp [Run.after, effects, react]
      | fault fault =>
        rw [Receipt.collect_fault_of_hungry hd, heffects]
        simp only [relay, ht, ended_eq hheld, hframing]
        split <;> simp [Run.after, Run.fail, effects, react]

theorem relay_eq_relayed (f : Framing) (b : Bytes) (incoming : Incoming) :
    relay [] f b incoming.ending incoming.arrivals = (Receipt.of f b incoming).relayed :=
  relay_eq_effects .nothing f b incoming.ending incoming.arrivals

end Stream

namespace Fetch

variable {limit : UInt64} {body : Collected} {f : Framing} {b : Bytes} {d : Framing.Drained}
  {t : Turn}

inductive Follows (limit : UInt64) (body : Collected) (d : Framing.Drained) (t : Turn) : Prop where
  | overrun (ht : t.settled = some (.error (tooLarge limit)))
    (collected : ∀ outcome rest, collect limit outcome body.segments body.size
      (d.events.map .event ++ rest) = Run.fail (tooLarge limit))
  | settled {outcome : Except Failure Unit} (hd : d.stop.settled = some outcome)
    (ht : t.settled = some outcome)
    (collected : collect limit (some outcome) body.segments body.size (d.events.map .event) =
      ⟨[], some (outcome.map fun _ => t.body.bytes)⟩)
  | hungry (hd : d.stop = .hungry) (ht : t.settled = none) (framing : t.framing = d.framing)
    (buffer : t.buffer = d.buffer)
    (collected : ∀ outcome rest, collect limit outcome body.segments body.size
      (d.events.map .event ++ rest) = collect limit outcome t.body.segments t.body.size rest)

theorem Follows.after {body' : Collected} {e : BodyEvent} (h : Follows limit body' d t)
    (he : ∀ outcome rest, collect limit outcome body.segments body.size (.event e :: rest) =
      collect limit outcome body'.segments body'.size rest) :
    Follows limit body (d.after [e]) t := by
  cases h with
  | overrun ht collected =>
    exact .overrun ht fun outcome rest => (he _ _).trans (collected outcome rest)
  | settled hd ht collected => exact .settled hd ht ((he _ _).trans collected)
  | hungry hd ht framing buffer collected =>
    exact .hungry hd ht framing buffer fun outcome rest => (he _ _).trans (collected outcome rest)

theorem collect_data_of_lt {segment : Bytes}
    (h : limit.toNat < body.size + segment.length)
    (outcome : Option (Except Failure Unit)) (rest : List Signal) :
    collect limit outcome body.segments body.size (.event (.data segment) :: rest) =
      Run.fail (tooLarge limit) := by
  rw [collect, if_pos h]

theorem turn_follows (limit : UInt64) (body : Collected) (f : Framing) (b : Bytes) :
    Follows limit body (f.drain b) (turn limit body f b) := by
  fun_induction turn limit body f b with
  | case1 body f b failure g c hreply =>
    rw [Framing.drain_of_fault (congrArg Framing.Reply.found hreply)]
    exact .settled rfl rfl rfl
  | case2 body f b g c hreply =>
    rw [Framing.drain_of_waiting (congrArg Framing.Reply.found hreply), hreply]
    exact .hungry rfl rfl rfl rfl fun _ _ => rfl
  | case3 body f b segment g c hreply hover =>
    rw [Framing.drain_of_event (congrArg Framing.Reply.found hreply) nofun]
    exact .overrun rfl fun outcome rest => collect_data_of_lt hover outcome _
  | case4 body f b segment g c hreply hfits ih =>
    rw [Framing.drain_of_event (congrArg Framing.Reply.found hreply) nofun, hreply]
    refine ih.after fun outcome rest => ?_
    rw [collect, if_neg hfits]
    rfl
  | case5 body f b g c hreply =>
    rw [Framing.drain_of_done (congrArg Framing.Reply.found hreply)]
    exact .settled rfl rfl rfl
  | case6 body f b size g c hreply ih =>
    rw [Framing.drain_of_event (congrArg Framing.Reply.found hreply) nofun, hreply]
    exact ih.after fun _ _ => rfl
  | case7 body f b g c hreply ih =>
    rw [Framing.drain_of_event (congrArg Framing.Reply.found hreply) nofun, hreply]
    exact ih.after fun _ _ => rfl

theorem gather_eq_collect (limit : UInt64) (body : Collected) (f : Framing) (b : Bytes)
    (ending : Ending) (arrivals : List Arrival) : gather limit body f b ending arrivals =
      collect limit (Receipt.collect f b ending arrivals).outcome body.segments body.size
        (Receipt.collect f b ending arrivals).signals := by
  induction arrivals generalizing body f b with
  | nil =>
    cases turn_follows limit body f b with
    -- the loop stops inside the buffer, whatever the receipt goes on with
    | overrun ht collected =>
      obtain ⟨rest, hrest⟩ := Receipt.exists_signals_eq f b ending []
      rw [hrest, collected]
      simp [gather, ht, Run.fail, Except.map]
    | settled hd ht collected =>
      rw [Receipt.collect_of_settled hd, collected]
      simp only [gather, ht]
    | hungry hd ht hframing hbuffer collected =>
      rw [Receipt.collect_nil_of_hungry hd, collected]
      simp only [gather, ht, hframing, ended]
      cases ending <;> simp [collect, Run.after, Ending.outcome, Collected.bytes]
  | cons a rest ih =>
    cases turn_follows limit body f b with
    | overrun ht collected =>
      obtain ⟨signals, hsignals⟩ := Receipt.exists_signals_eq f b ending (a :: rest)
      rw [hsignals, collected]
      simp [gather, ht, Run.fail, Except.map]
    | settled hd ht collected =>
      rw [Receipt.collect_of_settled hd, collected]
      simp only [gather, ht]
    | hungry hd ht hframing hbuffer collected =>
      cases a with
      | data bytes filled =>
        rw [Receipt.collect_data_of_hungry hd]
        simp only [gather, ht, hframing, hbuffer, ih, Receipt.after, List.append_assoc]
        rw [collected]
        rfl
      | fault fault =>
        rw [Receipt.collect_fault_of_hungry hd, collected]
        simp only [gather, ht, hframing, ended]
        cases hclose : fault.isClose <;>
          simp [collect, Run.after, Collected.bytes, Except.map]

theorem gather_eq_gathered (limit : UInt64) (f : Framing) (b : Bytes) (incoming : Incoming) :
    gather limit .empty f b incoming.ending incoming.arrivals =
      (Receipt.of f b incoming).gathered limit :=
  gather_eq_collect limit .empty f b incoming.ending incoming.arrivals

end Fetch

end HttpRelay
