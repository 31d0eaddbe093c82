import HttpRelay.Proofs.Relay.FeedRuns

namespace HttpRelay.Relay

structure Channel.CutOff (c : Channel) : Prop where
  closed : c.closed = true
  ended : c.ended = true
  queue : c.queue = []

variable {c d : Channel} {as : List Act} {f g : Feed} {v : View}

theorem Channel.cutOff_abandon (c : Channel) : c.abandon.CutOff := ⟨rfl, rfl, rfl⟩

theorem Channel.CutOff.close (h : c.CutOff) : c.close.CutOff := ⟨rfl, h.ended, h.queue⟩

theorem Channel.CutOff.cancel (h : c.CutOff) (ticket : Nat) : (c.cancel ticket).CutOff :=
  ⟨(closed_grant _).trans h.closed, (ended_grant _).trans h.ended,
    (queue_cancel c ticket).trans h.queue⟩

theorem Act.cutOff_perform (h : c.CutOff) (a : Act) :
    a.perform c = .waits ∨ ∃ d es rs, a.perform c = .done d es rs ∧ d.CutOff := by
  cases a with
  | effect | ask => exact .inr ⟨c, _, _, rfl, h⟩
  | close | finish => exact .inr ⟨c.close, _, _, rfl, h.close⟩
  | send i =>
    have hsend : c.send ownTicket i = (c, .discarded) := if_pos h.closed
    rw [perform, hsend]
    exact .inr ⟨c, _, _, rfl, h⟩
  | resend i =>
    have hresume : c.resume ownTicket = (c.cancel ownTicket, .discarded) := if_pos h.closed
    rw [perform, hresume]
    exact .inr ⟨c.cancel ownTicket, _, _, rfl, h.cancel ownTicket⟩
  | offer text =>
    have hrefused : c.trySend (.fragment text) = (c, .refused) := if_pos h.closed
    rw [perform, hrefused]
    exact .inr ⟨c, _, _, rfl, h⟩
  | awaitClose =>
    rw [perform, if_pos h.closed]
    exact .inr ⟨c, _, _, rfl, h⟩
  | hang => exact .inl rfl

theorem Act.cutOff_advance {p : Advance} (h : c.CutOff) (hp : Act.advance c as = some p) :
    p.channel.CutOff := by
  cases as with
  | nil => cases hp
  | cons a as =>
    rcases cutOff_perform h a with hwaits | ⟨d, es, rs, hdone, hd⟩
    · rw [advance, hwaits] at hp
      cases hp
    · rw [advance, hdone] at hp
      obtain rfl := Option.some.inj hp
      exact hd

theorem Feed.cutOff_step (h : f.channel.CutOff) (hs : f.step = some g) : g.channel.CutOff := by
  rcases step_cases hs with ⟨-, q, hq, rfl⟩ | ⟨-, notice, -, rfl⟩ | ⟨-, -, q, hq, rfl⟩
  · exact Act.cutOff_advance h hq
  · exact h.close
  · exact Act.cutOff_advance h hq

theorem Feed.cutOff_insist (h : f.channel.CutOff) (hs : f.insist = some g) :
    g.channel.CutOff := by
  obtain ⟨k, hk, rfl⟩ := Option.map_eq_some_iff.mp hs
  have hcut : k.channel.CutOff := cutOff_step (f := { f with cancellation := none }) h hk
  exact hcut

namespace View

theorem cutOff_getD (h : v.feed.channel.CutOff) {o : Option Feed}
    (ho : ∀ g, o = some g → g.channel.CutOff) : (o.getD v.feed).channel.CutOff := by
  cases o with
  | none => exact h
  | some g => exact ho g rfl

theorem cutOff_move (h : v.feed.channel.CutOff) (m : Move) :
    (v.move m).feed.channel.CutOff ∧
      (v.move m).results = v.results ++ List.replicate ([m].count .receive) none := by
  cases m with
  | produce => exact ⟨cutOff_getD h fun _ => Feed.cutOff_step h, (List.append_nil _).symm⟩
  | insist => exact ⟨cutOff_getD h fun _ => Feed.cutOff_insist h, (List.append_nil _).symm⟩
  | receive =>
    have hend : v.feed.channel.receive = (v.feed.channel, .finished) := if_pos h.ended
    rw [move, receive, hend]
    exact ⟨h, rfl⟩
  | abandon => exact ⟨v.feed.channel.cutOff_abandon, (List.append_nil _).symm⟩

theorem cutOff_run (h : v.feed.channel.CutOff) (ms : List Move) :
    (v.run ms).results = v.results ++ List.replicate (ms.count .receive) none := by
  induction ms generalizing v with
  | nil => exact (List.append_nil _).symm
  | cons m ms ih =>
    obtain ⟨hcut, hresults⟩ := cutOff_move h m
    have hcount : [m].count .receive + ms.count .receive = (m :: ms).count .receive := by
      rw [← List.count_append]
      rfl
    rw [run, List.foldl_cons]
    refine (ih hcut).trans ?_
    rw [hresults, List.append_assoc, List.replicate_append_replicate, hcount]

end View

end HttpRelay.Relay
