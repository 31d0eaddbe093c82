import HttpRelay.Proofs.Relay.Order

namespace HttpRelay.Relay

open Scheduler (Step advance)

def Task.received : Task → Nat
  | .receive => 1
  | _ => 0

structure Drains (h k : History) : Prop where
  closed : k.channel.closed = true
  accepted : k.accepted = h.accepted
  results : ∃ n, k.results = h.results ++ upTo n h.channel.queue ∧
    k.channel.queue = h.channel.queue.drop n

structure Finishes (h : History) (place : Nat) (t : Task) (k : History) : Prop where
  tasks : k.state.tasks = h.state.tasks.eraseIdx place
  closed : k.channel.closed = true
  accepted : k.accepted = h.accepted
  results : k.results = h.results ++ upTo t.received h.channel.queue
  queue : k.channel.queue = h.channel.queue.drop t.received

namespace History

variable {capacity : Capacity} {h k l : History} {before after : List (Nat × Task)} {slot : Nat}

theorem drains_refl (hc : h.channel.closed = true) : Drains h h :=
  ⟨hc, rfl, 0, (List.append_nil _).symm, rfl⟩

theorem drains_trans (hk : Drains h k) (hl : Drains k l) : Drains h l := by
  obtain ⟨m, hm, hqm⟩ := hk.results
  obtain ⟨n, hn, hqn⟩ := hl.results
  refine ⟨hl.closed, hl.accepted.trans hk.accepted, m + n, ?_, ?_⟩
  · rw [hn, hm, hqm, upTo_add, List.append_assoc]
  · rw [hqn, hqm, List.drop_drop]

theorem drains_of_queue (hc : k.channel.closed = true) (ha : k.accepted = h.accepted)
    (hr : k.results = h.results) (hq : k.channel.queue = h.channel.queue) : Drains h k :=
  ⟨hc, ha, 0, by rw [hr]; exact (List.append_nil _).symm, hq⟩

theorem drains_act (hc : h.channel.closed = true) {t : Step} (ht : (Turn.act t).KeepsConsumer) :
    Drains h (h.turn (.act t)) := by
  have hidle : ∀ {s : Scheduler}, s.channel.closed = true → s.channel.queue = h.channel.queue →
      Drains h { h with state := s, accepted := h.accepted ++ [] } :=
    fun hs hq => drains_of_queue hs (List.append_nil _) rfl hq
  cases t with
  | collect | cancel | abandon | dropHandle => exact ht.elim
  | receive =>
    rw [turn, Scheduler.act, Scheduler.withHandle]
    split <;> exact hidle hc rfl
  | trySend sender item =>
    have hrefused : h.state.channel.trySend item = (h.state.channel, .refused) := if_pos hc
    rw [turn, Scheduler.offered, Scheduler.act, Scheduler.withSender]
    split
    · simp only [Scheduler.offer, hrefused]
      exact hidle hc rfl
    · exact hidle hc rfl
  | dropGuard guard =>
    rw [turn, Scheduler.act]
    split
    · exact hidle rfl rfl
    · exact hidle hc rfl
  | close sender =>
    rw [turn, Scheduler.act, Scheduler.withSender]
    split
    · exact hidle rfl rfl
    · exact hidle hc rfl
  | send | closed | clone | dropSender | guard =>
    rw [turn, Scheduler.act, Scheduler.withSender]
    split <;> exact hidle hc rfl

theorem drains_giveUp (ho : Ordered capacity h) (hc : h.channel.closed = true) (given : Nat) :
    Drains h (h.turn (.giveUp given)) := by
  rcases h.giveUp_cases given with hself | ⟨before, t, after, hs, ht, hgive⟩
  · rw [hself]
    exact drains_refl hc
  · rw [hgive, drop_of_split ho hs ht]
    have hcancel : (h.channel.cancel given).closed = true := by
      rw [Channel.cancel, Channel.closed_grant]
      exact hc
    have hqueue : (h.channel.cancel given).queue = h.channel.queue := by
      rw [Channel.cancel, Channel.queue_grant]
    cases t with
    | receive | collect got => cases ht
    | _ => exact drains_of_queue hcancel rfl rfl hqueue

theorem finishes_of_closed (ho : Ordered capacity h) (hc : h.channel.closed = true) {place : Nat}
    {t : Task} (hget : h.state.tasks[place]? = some (slot, t)) :
    Finishes h place t (h.poll place) := by
  obtain ⟨before, after, hs, rfl⟩ := split_of_get hget
  have htasks : h.state.tasks.eraseIdx before.length = before ++ after := by
    rw [hs, List.eraseIdx_append_of_length_le (Nat.le_refl _), Nat.sub_self, List.eraseIdx_zero,
      List.tail_cons]
  cases t with
  | send item =>
    have hsend : h.channel.send slot item = (h.channel, .discarded) := if_pos hc
    rw [poll_of_done (v := .sent) (c := h.channel) hs (by rw [advance, hsend])]
    refine ⟨htasks.symm, hc, ?_, rfl, rfl⟩
    simp [Task.accepted, hsend]
  | resend item =>
    have hresume : h.channel.resume slot = (h.channel.cancel slot, .discarded) := if_pos hc
    rw [poll_of_done (v := .sent) (c := h.channel.cancel slot) hs (by rw [advance, hresume])]
    refine ⟨htasks.symm, ?_, ?_, rfl, ?_⟩
    · exact (Channel.closed_grant _).trans hc
    · simp [Task.accepted, hresume]
    · exact Channel.queue_grant _
  | closed =>
    rw [poll_of_done (v := .closed) (c := h.channel) hs (by rw [advance, hc, if_pos rfl])]
    exact ⟨htasks.symm, hc, List.append_nil _, rfl, rfl⟩
  | receive =>
    rcases h.channel.receive_cases with ⟨he, hrec⟩ | ⟨-, item, rest, hq, hrec⟩ |
      ⟨-, hq, -, hrec⟩ | ⟨-, -, hopen, -, -⟩
    · have hq := (ho.ended he).1
      rw [poll_of_done (v := .finished) (c := h.channel) hs (by rw [advance, hrec])]
      refine ⟨htasks.symm, hc, List.append_nil _, ?_, ?_⟩
      · rw [hq]
        rfl
      · refine hq.trans ?_
        rw [hq]
        rfl
    · rw [poll_of_done (v := .item item) hs (by rw [advance, hrec])]
      refine ⟨htasks.symm, ?_, List.append_nil _, ?_, ?_⟩
      · exact (Channel.closed_grant _).trans hc
      · rw [hq]
        rfl
      · refine (Channel.queue_grant _).trans ?_
        rw [hq]
        rfl
    · rw [poll_of_done (v := .finished) hs (by rw [advance, hrec])]
      refine ⟨htasks.symm, hc, List.append_nil _, ?_, ?_⟩
      · rw [hq]
        rfl
      · refine hq.trans ?_
        rw [hq]
        rfl
    · exact absurd (hc.symm.trans hopen) (by simp)
  | collect got =>
    have hmem : (slot, .collect got) ∈ h.state.tasks := by
      rw [hs]
      exact List.mem_append_right _ List.mem_cons_self
    exact absurd rfl (ho.single _ hmem got)

theorem drains_poll (ho : Ordered capacity h) (hc : h.channel.closed = true) (place : Nat) :
    Drains h (h.poll place) := by
  cases hget : h.state.tasks[place]? with
  | none =>
    rw [poll_of_none hget]
    exact drains_refl hc
  | some x =>
    have hf := finishes_of_closed ho hc hget
    exact ⟨hf.closed, hf.accepted, _, hf.results, hf.queue⟩

theorem drains_turn (ho : Ordered capacity h) (hc : h.channel.closed = true) {t : Turn}
    (ht : t.KeepsConsumer) : Drains h (h.turn t) := by
  cases t with
  | act t => exact drains_act hc ht
  | giveUp slot => exact drains_giveUp ho hc slot
  | poll place => exact drains_poll ho hc place

theorem drains_run {ts : List Turn} (ho : Ordered capacity h) (hc : h.channel.closed = true)
    (hts : ∀ t ∈ ts, t.KeepsConsumer) : Drains h (h.run ts) := by
  induction ts generalizing h with
  | nil => exact drains_refl hc
  | cons t ts ih =>
    rw [List.forall_mem_cons] at hts
    have hturn := drains_turn ho hc hts.1
    exact drains_trans hturn (ih (ordered_turn ho hts.1) hturn.closed hts.2)

/-- Whatever the parties do in whatever order, as long as the consumer stays: what came out and what
is queued is what went in. From a close on, only the queued items come out, and then the end. -/
theorem received_in_order (capacity : Capacity) (ts : List Turn) (hts : ∀ t ∈ ts, t.KeepsConsumer) :
    let h := (start capacity).run ts
    h.received ++ h.channel.queue = h.accepted ∧
      h.channel.queue.length ≤ max capacity.val 1 ∧
      (h.channel.closed = true →
        (∀ us : List Turn, (∀ t ∈ us, t.KeepsConsumer) → Drains h (h.run us)) ∧
        ∀ place slot t, h.state.tasks[place]? = some (slot, t) →
          Finishes h place t (h.poll place)) := by
  have ho := ordered_run (ordered_start capacity) hts
  refine ⟨ho.conserved, ?_, fun hc => ⟨?_, ?_⟩⟩
  · have hfits := ho.sound.fits
    rw [ho.capacity_eq] at hfits
    omega
  · exact fun us hus => drains_run ho hc hus
  · exact fun place slot t hget => finishes_of_closed ho hc hget

def crowded : List Turn :=
  [.act (.send 0 (.fragment "a")), .poll 0, .act (.send 0 (.fragment "b")), .poll 0,
    .act (.clone 0), .act (.close 1)]

def drained : List Turn := [.act .receive, .poll 0, .poll 0, .act .receive, .poll 0]

theorem crowded_drains :
    let h := (start 0).run crowded
    Drains h (h.run drained) ∧ h.accepted = [.fragment "a"] ∧
      (h.run drained).results = [some (.fragment "a"), none] := by
  refine ⟨?_, by decide, by decide⟩
  have hclosed : ((start 0).run crowded).channel.closed = true := by decide
  have hall := received_in_order 0 crowded (by simp [crowded, Turn.KeepsConsumer])
  exact (hall.2.2 hclosed).1 drained (by simp [drained, Turn.KeepsConsumer])

end History

end HttpRelay.Relay
