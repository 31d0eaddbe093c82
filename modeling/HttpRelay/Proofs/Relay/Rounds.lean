import HttpRelay.Proofs.Relay.Order

namespace HttpRelay.Relay

open Scheduler (Step advance round rounds)

def Scheduler.holding (s : Scheduler) (tasks : List (Nat × Task)) : Scheduler :=
  { s with tasks := tasks }

def Scheduler.looked (s : Scheduler) (c : Channel) (records : List Log.Record) : Scheduler :=
  { s with channel := c }.note records

section Round

variable {s : Scheduler} {slot : Nat} {t u : Task} {v : Value} {c : Channel}
  {records : List Log.Record}

theorem round_of_going (ha : advance s.channel slot t = (c, .going u, records))
    (rest : List (Nat × Task)) :
    round s ((slot, t) :: rest) =
      ((round (s.looked c records) rest).1.holding
          ((slot, u) :: (round (s.looked c records) rest).1.tasks),
        (round (s.looked c records) rest).2) := by
  rw [Scheduler.round, ha]
  rfl

theorem round_of_done (ha : advance s.channel slot t = (c, .done v, records))
    (rest : List (Nat × Task)) :
    round s ((slot, t) :: rest) =
      ((round ((s.looked c records).release t) rest).1,
        (slot, v) :: (round ((s.looked c records).release t) rest).2) := by
  rw [Scheduler.round, ha]
  rfl

theorem release_holding (s : Scheduler) (tasks : List (Nat × Task)) (t : Task) :
    (s.holding tasks).release t = (s.release t).holding tasks := by
  cases t <;> rfl

end Round

namespace History

variable {h : History} {s : Scheduler} {pre rest : List (Nat × Task)}

theorem run_poll (h : History) (place : Nat) (places : List Nat) :
    h.run ((place :: places).map .poll) = (h.poll place).run (places.map .poll) :=
  rfl

theorem round_runs (hs : h.state = s.holding (pre ++ rest)) :
    ∃ places : List Nat,
      (h.run (places.map .poll)).state =
        (round (s.holding []) rest).1.holding (pre ++ (round (s.holding []) rest).1.tasks) ∧
      (h.run (places.map .poll)).results =
        h.results ++ (round (s.holding []) rest).2.flatMap (·.2.result) := by
  induction rest generalizing h s pre with
  | nil => exact ⟨[], hs, (List.append_nil _).symm⟩
  | cons x rest ih =>
    obtain ⟨slot, t⟩ := x
    have htasks : h.state.tasks = pre ++ (slot, t) :: rest := by rw [hs]; rfl
    have hchannel : h.channel = s.channel := by rw [channel, hs]; rfl
    rcases ha : advance s.channel slot t with ⟨c, progress, records⟩
    have hlook : advance (s.holding []).channel slot t = (c, progress, records) := ha
    cases progress with
    | going u =>
      have hpoll := poll_of_going htasks (hchannel ▸ ha)
      have hstate : (h.poll pre.length).state =
          (s.looked c records).holding ((pre ++ [(slot, u)]) ++ rest) := by
        rw [hpoll, hs, List.append_assoc]
        rfl
      obtain ⟨places, hrun, hresults⟩ := ih hstate
      have hsame : (h.poll pre.length).results = h.results := by rw [hpoll]
      refine ⟨pre.length :: places, ?_, ?_⟩
      · rw [run_poll, hrun, round_of_going hlook, List.append_assoc]
        rfl
      · rw [run_poll, hresults, round_of_going hlook, hsame]
        rfl
    | done v =>
      have hpoll := poll_of_done htasks (hchannel ▸ ha)
      have hstate : (h.poll pre.length).state =
          ((s.looked c records).release t).holding (pre ++ rest) := by
        rw [hpoll, hs, ← release_holding]
        rfl
      obtain ⟨places, hrun, hresults⟩ := ih hstate
      have hone : (h.poll pre.length).results = h.results ++ v.result := by rw [hpoll]
      have hround := round_of_done hlook rest
      rw [show (s.holding []).looked c records = (s.looked c records).holding [] from rfl,
        release_holding] at hround
      refine ⟨pre.length :: places, ?_, ?_⟩
      · rw [run_poll, hrun, hround]
      · rw [run_poll, hresults, hround, hone, List.flatMap_cons, List.append_assoc]

theorem run_append (h : History) (ts us : List Turn) : h.run (ts ++ us) = (h.run ts).run us :=
  List.foldl_append

theorem rounds_run (h : History) (n : Nat) :
    ∃ places : List Nat,
      (h.run (places.map .poll)).state = (h.state.rounds n).1 ∧
      (h.run (places.map .poll)).results =
        h.results ++ (h.state.rounds n).2.flatMap (·.2.result) := by
  induction n generalizing h with
  | zero => exact ⟨[], rfl, (List.append_nil _).symm⟩
  | succ n ih =>
    have hheld : h.state = h.state.holding ([] ++ h.state.tasks) := rfl
    obtain ⟨places, hstate, hresults⟩ := round_runs hheld
    rcases hr : round (h.state.holding []) h.state.tasks with ⟨s, done⟩
    have hround : round { h.state with tasks := [] } h.state.tasks = (s, done) := hr
    rw [hr] at hstate hresults
    have hs : (h.run (places.map .poll)).state = s := hstate
    cases done with
    | nil =>
      refine ⟨places, ?_, ?_⟩
      · rw [rounds, hround, hs]
      · rw [rounds, hround, hresults]
    | cons d done =>
      obtain ⟨later, hlater, hmore⟩ := ih (h.run (places.map .poll))
      refine ⟨places ++ later, ?_, ?_⟩
      · rw [List.map_append, run_append, rounds, hround, hlater, hs]
      · rw [List.map_append, run_append, rounds, hround, hmore, hresults, hs, List.append_assoc,
          ← List.flatMap_append]

theorem step_runs (h : History) (t : Step) :
    ∃ places : List Nat,
      (h.run (.act t :: places.map .poll)).state = (h.state.step t).1 ∧
      (h.run (.act t :: places.map .poll)).results =
        h.results ++ (h.state.step t).2.2.flatMap (·.2.result) := by
  exact (h.turn (.act t)).rounds_run ((h.state.act t).1.tasks.length + 1)

end History

end HttpRelay.Relay
