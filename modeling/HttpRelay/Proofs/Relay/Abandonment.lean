import HttpRelay.Proofs.Relay.CutOff
import HttpRelay.Proofs.Relay.Order

namespace HttpRelay.Relay

open Scheduler (Step Answer Progress advance takeAll)

namespace Channel

variable {c : Channel} {slot : Nat}

@[simp]
theorem abandoned_grant (c : Channel) : c.grant.abandoned = c.abandoned := by
  unfold grant
  split
  · rfl
  · split <;> rfl

@[simp]
theorem abandoned_cancel (c : Channel) (ticket : Nat) :
    (c.cancel ticket).abandoned = c.abandoned := abandoned_grant _

theorem abandoned_receive (c : Channel) : c.receive.1.abandoned = c.abandoned := by
  rcases c.receive_cases with ⟨-, h⟩ | ⟨-, item, rest, -, h⟩ | ⟨-, -, -, h⟩ | ⟨-, -, -, -, h⟩
  · rw [h]
  · rw [h]
    exact abandoned_grant _
  · rw [h]
  · rw [h]

theorem abandoned_trySend (c : Channel) (item : Item) :
    (c.trySend item).1.abandoned = c.abandoned := by
  rcases c.trySend_cases item with ⟨-, h⟩ | ⟨-, -, h⟩ | ⟨-, -, h⟩
  · rw [h]
  · rw [h]
    rfl
  · rw [h]

theorem abandoned_takeAll (c : Channel) (got : List Item) :
    (takeAll c got).1.abandoned = c.abandoned := by
  fun_induction takeAll c got with
  | case1 c got d i hd ih =>
    have hreceive := c.abandoned_receive
    rw [hd] at hreceive
    exact ih.trans hreceive
  | case2 c got d r hother hd =>
    have hreceive := c.abandoned_receive
    rw [hd] at hreceive
    exact hreceive

theorem abandoned_advance (c : Channel) (slot : Nat) (t : Task) :
    (advance c slot t).1.abandoned = c.abandoned := by
  cases t with
  | send item =>
    rcases c.send_cases slot item with ⟨-, h⟩ | ⟨-, -, h⟩ | ⟨-, -, h⟩ <;> rw [advance, h] <;> rfl
  | resend item =>
    rcases c.resume_cases slot with ⟨-, h⟩ | ⟨-, w, -, -, h⟩ | ⟨-, -, h⟩
    · rw [advance, h]
      exact abandoned_cancel c slot
    · rw [advance, h]
      rfl
    · rw [advance, h]
  | closed => rfl
  | receive =>
    have hreceive := c.abandoned_receive
    rw [advance]
    split <;> rename_i h <;> rwa [h] at hreceive
  | collect got =>
    have htake := abandoned_takeAll c got
    rw [advance]
    split <;> rename_i h <;> rwa [h] at htake

end Channel

def Task.last : Task → Value
  | .send _ | .resend _ => .sent
  | .closed => .closed
  | .receive => .finished
  | .collect got => .items got.reverse

theorem Channel.CutOff.advance {c : Channel} (h : c.CutOff) (slot : Nat) (t : Task) :
    ∃ d records, Scheduler.advance c slot t = (d, .done t.last, records) ∧ d.CutOff ∧
      t.accepted c slot = [] := by
  have hreceive : c.receive = (c, .finished) := if_pos h.ended
  cases t with
  | send item =>
    have hsend : c.send slot item = (c, .discarded) := if_pos h.closed
    rw [Scheduler.advance, Task.accepted, hsend]
    exact ⟨c, _, rfl, h, rfl⟩
  | resend item =>
    have hresume : c.resume slot = (c.cancel slot, .discarded) := if_pos h.closed
    rw [Scheduler.advance, Task.accepted, hresume]
    exact ⟨c.cancel slot, _, rfl, h.cancel slot, rfl⟩
  | closed =>
    rw [Scheduler.advance, h.closed]
    exact ⟨c, _, rfl, h, rfl⟩
  | receive =>
    rw [Scheduler.advance, hreceive]
    exact ⟨c, _, rfl, h, rfl⟩
  | collect got =>
    have htake : takeAll c got = (c, got, .finished) := by
      rw [takeAll.eq_def, hreceive]
    rw [Scheduler.advance, htake]
    exact ⟨c, _, rfl, h, rfl⟩

theorem Channel.close_eq {c : Channel} (h : c.closed = true) : c.close = c := by
  rw [close, ← h]

theorem Channel.CutOff.abandon_eq {c : Channel} (h : c.CutOff) (ha : c.abandoned = true) :
    c.abandon = c := by
  obtain ⟨capacity, queue, waiting, granted, closed, abandoned, ended, senders⟩ := c
  obtain ⟨hclosed, hended, hqueue⟩ := h
  cases hclosed
  cases hended
  cases hqueue
  cases ha
  rfl

namespace Scheduler

variable {s : Scheduler}

structure GivenUp (s : Scheduler) : Prop where
  abandoned : s.channel.abandoned = true
  cutOff : s.channel.CutOff

structure Keeps (s r : Scheduler) : Prop where
  abandoned : r.channel.abandoned = s.channel.abandoned
  handle : r.handle = .gone → s.handle = .gone

theorem givenUp_dropHandle (s : Scheduler) : s.dropHandle.GivenUp :=
  ⟨rfl, s.channel.cutOff_abandon⟩

theorem keeps_release (s : Scheduler) (t : Task) :
    s.Keeps (s.release t) ∨ (s.release t).GivenUp := by
  cases t with
  | send | resend | closed => exact .inl ⟨rfl, id⟩
  | receive => exact .inl ⟨rfl, nofun⟩
  | collect got => exact .inr s.givenUp_dropHandle

theorem cutOff_release (h : s.channel.CutOff) (t : Task) : (s.release t).channel.CutOff := by
  cases t with
  | collect got => exact s.channel.cutOff_abandon
  | _ => exact ⟨h.closed, h.ended, h.queue⟩

theorem keeps_drop (s : Scheduler) (slot : Nat) : s.Keeps (s.drop slot) ∨ (s.drop slot).GivenUp := by
  unfold drop
  cases s.tasks.find? (·.1 = slot) with
  | none => exact .inl ⟨rfl, id⟩
  | some x =>
    obtain ⟨n, t⟩ := x
    cases t with
    | receive | collect got => exact .inr (givenUp_dropHandle _)
    | _ => exact .inl ⟨s.channel.abandoned_cancel slot, id⟩

theorem cutOff_drop (h : s.channel.CutOff) (slot : Nat) : (s.drop slot).channel.CutOff := by
  unfold drop
  cases s.tasks.find? (·.1 = slot) with
  | none => exact h
  | some x =>
    obtain ⟨n, t⟩ := x
    cases t with
    | receive | collect got => exact s.channel.cutOff_abandon
    | _ => exact cutOff_release (h.cancel slot) _

theorem keeps_act (s : Scheduler) (t : Step) : s.Keeps (s.act t).1 ∨ (s.act t).1.GivenUp := by
  cases t with
  | send | closed | clone | dropSender | guard | close =>
    rw [act, withSender]
    split <;> exact .inl ⟨rfl, id⟩
  | trySend sender item =>
    rw [act, withSender]
    split
    · exact .inl ⟨s.channel.abandoned_trySend item, id⟩
    · exact .inl ⟨rfl, id⟩
  | receive | collect =>
    rw [act, withHandle]
    split
    · refine .inl ⟨rfl, ?_⟩
      intro hgone
      cases hgone
    · exact .inl ⟨rfl, id⟩
  | cancel slot => exact s.keeps_drop slot
  | dropGuard guard =>
    rw [act]
    split <;> exact .inl ⟨rfl, id⟩
  | abandon =>
    rw [act, withHandle]
    split
    · exact .inr ⟨rfl, s.channel.cutOff_abandon⟩
    · exact .inl ⟨rfl, id⟩
  | dropHandle =>
    rw [act]
    split
    · exact .inr s.givenUp_dropHandle
    · exact .inl ⟨rfl, id⟩

theorem offer_cutOff (h : s.channel.CutOff) (item : Item) :
    s.offer item = (s, .taken false) := by
  have hrefused : s.channel.trySend item = (s.channel, .refused) := if_pos h.closed
  simp [offer, hrefused, note]

theorem cutOff_act (h : s.channel.CutOff) (t : Step) : (s.act t).1.channel.CutOff := by
  cases t with
  | send | closed | clone | dropSender | guard =>
    rw [act, withSender]
    split <;> exact ⟨h.closed, h.ended, h.queue⟩
  | trySend sender item =>
    rw [act, withSender]
    split
    · rwa [offer_cutOff h]
    · exact h
  | close sender =>
    rw [act, withSender]
    split
    · exact h.close
    · exact h
  | receive | collect =>
    rw [act, withHandle]
    split <;> exact h
  | cancel slot => exact cutOff_drop h slot
  | dropGuard guard =>
    rw [act]
    split
    · exact h.close
    · exact h
  | abandon =>
    rw [act, withHandle]
    split
    · exact s.channel.cutOff_abandon
    · exact h
  | dropHandle =>
    rw [act]
    split
    · exact s.channel.cutOff_abandon
    · exact h

theorem offered_cutOff (h : s.channel.CutOff) (t : Step) : s.offered t = [] := by
  cases t with
  | trySend sender item =>
    rw [offered, act, withSender]
    split
    · rw [offer_cutOff h]
      rfl
    · rfl
  | _ => rfl

def endings (tasks : List (Nat × Task)) : List (Nat × Value) := tasks.map fun x => (x.1, x.2.last)

theorem round_cutOff (h : s.channel.CutOff) (tasks : List (Nat × Task)) :
    (s.round tasks).1.tasks = s.tasks ∧ (s.round tasks).2 = endings tasks := by
  induction tasks generalizing s with
  | nil => exact ⟨rfl, rfl⟩
  | cons x tasks ih =>
    obtain ⟨slot, t⟩ := x
    obtain ⟨d, records, ha, hd, -⟩ := h.advance slot t
    have hrelease : ∀ r : Scheduler, (r.release t).tasks = r.tasks := by
      intro r
      cases t <;> rfl
    obtain ⟨htasks, hdone⟩ := ih (cutOff_release (s := { s with channel := d }.note records) hd t)
    rw [round, ha]
    refine ⟨htasks.trans (hrelease _), ?_⟩
    dsimp only
    rw [hdone]
    rfl

theorem rounds_of_idle (h : s.tasks = []) (n : Nat) :
    (s.rounds n).1.tasks = [] ∧ (s.rounds n).2 = [] := by
  cases n with
  | zero => exact ⟨h, rfl⟩
  | succ n =>
    rw [rounds, h]
    exact ⟨rfl, rfl⟩

theorem settle_cutOff (h : s.channel.CutOff) :
    s.settle.1.tasks = [] ∧ s.settle.2 = endings s.tasks := by
  obtain ⟨htasks, hdone⟩ := round_cutOff (s := { s with tasks := [] }) h s.tasks
  obtain ⟨hidle, hlater⟩ := rounds_of_idle htasks s.tasks.length
  rw [settle, rounds]
  split
  · rename_i r hr
    rw [hr] at htasks hdone
    exact ⟨htasks, hdone⟩
  · rename_i r done hne hr
    rw [hr] at hdone hidle hlater
    refine ⟨hidle, ?_⟩
    dsimp only
    rw [hlater, List.append_nil]
    exact hdone

end Scheduler

structure Ebbs (h k : History) : Prop where
  givenUp : k.state.GivenUp
  accepted : k.accepted = h.accepted
  results : ∃ n, k.results = h.results ++ List.replicate n none

def Turn.Closes : Turn → Prop
  | .act .abandon | .act (.close _) => True
  | _ => False

namespace History

variable {h k l : History}

theorem keeps_poll (h : History) (place : Nat) :
    h.state.Keeps (h.poll place).state ∨ (h.poll place).state.GivenUp := by
  cases hget : h.state.tasks[place]? with
  | none =>
    rw [poll_of_none hget]
    exact .inl ⟨rfl, id⟩
  | some x =>
    obtain ⟨slot, t⟩ := x
    obtain ⟨before, after, hs, rfl⟩ := split_of_get hget
    obtain ⟨⟨c, progress, records⟩, hadvance⟩ : ∃ r, advance h.channel slot t = r := ⟨_, rfl⟩
    have hc : c.abandoned = h.channel.abandoned := by
      rw [← h.channel.abandoned_advance slot t, hadvance]
    cases progress with
    | going u =>
      rw [poll_of_going hs hadvance]
      exact .inl ⟨hc, id⟩
    | done v =>
      rw [poll_of_done hs hadvance]
      rcases Scheduler.keeps_release _ t with hkeeps | hgone
      · exact .inl ⟨hkeeps.abandoned.trans hc, hkeeps.handle⟩
      · exact .inr hgone

theorem keeps_turn (h : History) (t : Turn) :
    h.state.Keeps (h.turn t).state ∨ (h.turn t).state.GivenUp := by
  cases t with
  | act t => exact h.state.keeps_act t
  | giveUp slot =>
    rw [turn]
    split
    · exact h.state.keeps_drop slot
    · exact .inl ⟨rfl, id⟩
  | poll place => exact h.keeps_poll place

theorem ebbs_refl (hg : h.state.GivenUp) : Ebbs h h := ⟨hg, rfl, 0, (List.append_nil _).symm⟩

theorem ebbs_trans (hk : Ebbs h k) (hl : Ebbs k l) : Ebbs h l := by
  obtain ⟨m, hm⟩ := hk.results
  obtain ⟨n, hn⟩ := hl.results
  refine ⟨hl.givenUp, hl.accepted.trans hk.accepted, m + n, ?_⟩
  rw [hn, hm, List.append_assoc, List.replicate_append_replicate]

theorem poll_cutOff (hc : h.channel.CutOff) {place slot : Nat} {t : Task}
    (hget : h.state.tasks[place]? = some (slot, t)) :
    (h.poll place).channel.CutOff ∧ (h.poll place).accepted = h.accepted ∧
      (∃ n, (h.poll place).results = h.results ++ List.replicate n none) ∧
      (h.poll place).state.tasks = h.state.tasks.eraseIdx place := by
  obtain ⟨before, after, hs, rfl⟩ := split_of_get hget
  obtain ⟨d, records, ha, hd, haccepted⟩ := hc.advance slot t
  have htasks : h.state.tasks.eraseIdx before.length = before ++ after := by
    rw [hs, List.eraseIdx_append_of_length_le (Nat.le_refl _), Nat.sub_self, List.eraseIdx_zero,
      List.tail_cons]
  have hresult : ∃ n, t.last.result = List.replicate n none := by
    cases t with
    | receive => exact ⟨1, rfl⟩
    | _ => exact ⟨0, rfl⟩
  obtain ⟨n, hn⟩ := hresult
  rw [poll_of_done hs ha, haccepted, hn, htasks]
  refine ⟨Scheduler.cutOff_release hd t, List.append_nil _, ⟨n, rfl⟩, ?_⟩
  cases t <;> rfl

theorem cutOff_turn (hc : h.channel.CutOff) (t : Turn) :
    (h.turn t).channel.CutOff ∧ (h.turn t).accepted = h.accepted ∧
      ∃ n, (h.turn t).results = h.results ++ List.replicate n none := by
  have hidle : ∃ n, h.results = h.results ++ List.replicate n none :=
    ⟨0, (List.append_nil _).symm⟩
  cases t with
  | act t =>
    refine ⟨Scheduler.cutOff_act hc t, ?_, hidle⟩
    rw [turn, Scheduler.offered_cutOff hc, List.append_nil]
  | giveUp slot =>
    rw [turn]
    split
    · exact ⟨Scheduler.cutOff_drop hc slot, rfl, hidle⟩
    · exact ⟨hc, rfl, hidle⟩
  | poll place =>
    cases hget : h.state.tasks[place]? with
    | none =>
      rw [turn, poll_of_none hget]
      exact ⟨hc, rfl, hidle⟩
    | some x =>
      obtain ⟨hcut, haccepted, hresults, -⟩ := poll_cutOff hc hget
      exact ⟨hcut, haccepted, hresults⟩

theorem ebbs_turn (hg : h.state.GivenUp) (t : Turn) : Ebbs h (h.turn t) := by
  obtain ⟨hcut, haccepted, hresults⟩ := cutOff_turn hg.cutOff t
  have habandoned : (h.turn t).channel.abandoned = true := by
    rcases h.keeps_turn t with hkeeps | hgone
    · exact hkeeps.abandoned.trans hg.abandoned
    · exact hgone.abandoned
  exact ⟨⟨habandoned, hcut⟩, haccepted, hresults⟩

theorem ebbs_run (hg : h.state.GivenUp) (ts : List Turn) : Ebbs h (h.run ts) := by
  induction ts generalizing h with
  | nil => exact ebbs_refl hg
  | cons t ts ih =>
    have hturn := ebbs_turn hg t
    exact ebbs_trans hturn (ih hturn.givenUp)

structure Final (s : Scheduler) : Prop where
  cutOff : s.channel.abandoned = true → s.channel.CutOff
  abandoned : s.handle = .gone → s.channel.abandoned = true

theorem final_turn (hf : Final h.state) (t : Turn) : Final (h.turn t).state := by
  rcases h.keeps_turn t with hkeeps | hgone
  · constructor
    · intro ha
      exact (cutOff_turn (hf.cutOff (hkeeps.abandoned.symm.trans ha)) t).1
    · intro hhandle
      exact hkeeps.abandoned.trans (hf.abandoned (hkeeps.handle hhandle))
  · exact ⟨fun _ => hgone.cutOff, fun _ => hgone.abandoned⟩

theorem final_run (capacity : Capacity) (ts : List Turn) : Final ((start capacity).run ts).state := by
  have hall : ∀ h : History, Final h.state → Final (h.run ts).state := by
    induction ts with
    | nil => exact fun h hf => hf
    | cons t ts ih => exact fun h hf => ih _ (final_turn hf t)
  exact hall _ ⟨nofun, nofun⟩

theorem close_again (hc : h.channel.closed = true) (sender : Nat) :
    h.turn (.act (.close sender)) = h := by
  have hact : (h.state.act (.close sender)).1 = h.state := by
    rw [Scheduler.act, Scheduler.withSender]
    split
    · dsimp only
      rw [Channel.close_eq hc, closeRecords, if_pos hc, Scheduler.note, List.append_nil]
    · rfl
  have hoffered : h.state.offered (.close sender) = [] := rfl
  rw [turn, hact, hoffered, List.append_nil]

theorem abandon_again (hg : h.state.GivenUp) : h.turn (.act .abandon) = h := by
  have hact : (h.state.act .abandon).1 = h.state := by
    rw [Scheduler.act, Scheduler.withHandle]
    split
    · dsimp only
      rw [hg.cutOff.abandon_eq hg.abandoned]
    · rfl
  have hoffered : h.state.offered .abandon = [] := rfl
  rw [turn, hact, hoffered, List.append_nil]

theorem closes_again (hg : h.state.GivenUp) {us : List Turn} (hus : ∀ u ∈ us, u.Closes) :
    h.run us = h := by
  have hclose : ∀ u : Turn, u.Closes → h.turn u = h := by
    intro u hu
    match u, hu with
    | .act .abandon, _ => exact abandon_again hg
    | .act (.close sender), _ => exact close_again hg.cutOff.closed sender
  induction us with
  | nil => rfl
  | cons u us ih =>
    rw [List.forall_mem_cons] at hus
    rw [run, List.foldl_cons, hclose u hus.1]
    exact ih hus.2

structure Dead (h k : History) : Prop extends Ebbs h k where
  refuses {sender : Nat} {item : Item} : k.state.hasSender sender = true →
    k.state.act (.trySend sender item) = (k.state, .taken false)
  known {b : Bool} :
    k.state.closedForSenders = some b ∨ k.state.closedForConsumer = some b → b = true
  finishes {place slot : Nat} {t : Task} : k.state.tasks[place]? = some (slot, t) →
    (∃ d records, advance k.channel slot t = (d, .done t.last, records)) ∧
      (k.poll place).state.tasks = k.state.tasks.eraseIdx place
  settles : k.state.settle.1.tasks = [] ∧ k.state.settle.2 = Scheduler.endings k.state.tasks
  closes {us : List Turn} : (∀ u ∈ us, u.Closes) → k.run us = k

theorem dead_of_ebbs (he : Ebbs h k) : Dead h k := by
  have hcut := he.givenUp.cutOff
  refine ⟨he, ?_, ?_, ?_, Scheduler.settle_cutOff hcut, closes_again he.givenUp⟩
  · intro sender item hheld
    rw [Scheduler.act, Scheduler.withSender, if_pos hheld, Scheduler.offer_cutOff hcut]
  · intro b hb
    have hclosed := hcut.closed
    rw [Scheduler.closedForSenders, Scheduler.closedForConsumer, hclosed] at hb
    rcases hb with hsenders | hconsumer
    · split at hsenders <;> cases hsenders
      rfl
    · split at hconsumer <;> cases hconsumer
      rfl
  · intro place slot t hget
    obtain ⟨d, records, ha, -, -⟩ := hcut.advance slot t
    exact ⟨⟨d, records, ha⟩, (poll_cutOff hcut hget).2.2.2⟩

/-- Whatever has happened before, the channel is dead once its consumer has closed it or is
gone, and it stays so whatever happens then. -/
theorem dead_of_abandoned (capacity : Capacity) (ts : List Turn) :
    let h := (start capacity).run ts
    (h.state.handle = .free → (h.turn (.act .abandon)).channel.abandoned = true) ∧
      (h.state.handle = .gone → h.channel.abandoned = true) ∧
      (h.channel.closed = true → ∀ sender, h.turn (.act (.close sender)) = h) ∧
      (h.channel.abandoned = true → ∀ us, Dead h (h.run us)) := by
  have hf := final_run capacity ts
  refine ⟨?_, hf.abandoned, fun hc => close_again hc, ?_⟩
  · intro hfree
    rw [turn, channel, Scheduler.act, Scheduler.withHandle, if_pos hfree]
    rfl
  · intro ha us
    exact dead_of_ebbs (ebbs_run ⟨ha, hf.cutOff ha⟩ us)

def busy : List Turn :=
  [.act (.clone 0), .act (.send 0 (.fragment "a")), .poll 0, .act (.send 1 (.fragment "b")),
    .poll 0, .act (.closed 0), .act .abandon]

def late : List Turn :=
  [.act .receive, .poll 2, .act (.trySend 1 (.fragment "c")), .poll 0, .act (.send 0 (.failure "d")),
    .poll 0, .poll 0, .act .dropHandle]

theorem dead_of_busy :
    let h := (start 1).run busy
    Dead h (h.run late) ∧ h.accepted = [.fragment "a"] ∧ (h.run late).results = [none] ∧
      (h.run late).state.tasks = [] := by
  have hall := dead_of_abandoned 1 busy
  have habandoned : ((start 1).run busy).channel.abandoned = true := by decide
  refine ⟨hall.2.2.2 habandoned late, by decide, by decide, by decide⟩

end History

end HttpRelay.Relay
