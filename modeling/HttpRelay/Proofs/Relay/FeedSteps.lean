import HttpRelay.Proofs.Relay.Interleavings

namespace HttpRelay.Relay

variable {c d : Channel} {as bs : List Act}

def Act.items : Act → List Item
  | .send item | .resend item => [item]
  | .offer text => [.fragment text]
  | _ => []

def Act.IsPlain : Act → Prop
  | .effect _ | .send _ => True
  | _ => False

inductive Stage (c : Channel) : List Act → Prop where
  | going (as : List Act) (hp : ∀ a ∈ as, a.IsPlain) (hc : c.closed = false) (hl : c.line = []) :
    Stage c (as ++ [.finish])
  | waiting (i : Item) (as : List Act) (hp : ∀ a ∈ as, a.IsPlain) (hc : c.closed = false)
    (hl : c.line = [⟨ownTicket, i⟩]) : Stage c (.resend i :: as ++ [.finish])
  | through (hc : c.closed = true) (hl : c.line = []) : Stage c []

theorem Stage.congr (h : Stage c as) (hc : d.closed = c.closed) (hl : d.line = c.line) :
    Stage d as := by
  cases h with
  | going as hp hc' hl' => exact .going as hp (hc.trans hc') (hl.trans hl')
  | waiting i as hp hc' hl' => exact .waiting i as hp (hc.trans hc') (hl.trans hl')
  | through hc' hl' => exact .through (hc.trans hc') (hl.trans hl')

theorem Stage.nil_of_closed (h : Stage c as) (hc : c.closed = true) : as = [] := by
  cases h with
  | going as hp hc' hl => exact absurd (hc'.symm.trans hc) (by simp)
  | waiting i as hp hc' hl => exact absurd (hc'.symm.trans hc) (by simp)
  | through => rfl

structure Carried (c : Channel) (as : List Act) (d : Channel) (bs : List Act) : Prop where
  stage : Stage d bs
  sound : d.Sound
  items : d.queue ++ bs.flatMap Act.items = c.queue ++ as.flatMap Act.items
  capacity : d.capacity = c.capacity
  senders : d.senders = c.senders
  ended : d.ended = c.ended

theorem advance_finish (c : Channel) : Act.advance c [.finish] = some ⟨c.close, [], [], []⟩ := rfl

theorem advance_effect (c : Channel) (e : Effect) (as : List Act) :
    Act.advance c (.effect e :: as) = some ⟨c, as, [e], []⟩ := rfl

section Send

variable {i : Item}

theorem advance_send_of_room (hc : c.closed = false) (hr : 0 < c.room) (as : List Act) :
    Act.advance c (.send i :: as) = some ⟨c.push i, as, [], []⟩ := by
  have hsend : c.send ownTicket i = (c.push i, .accepted) := by
    rw [Channel.send, if_neg (by simp [hc]), if_pos hr]
  simp only [Act.advance, Act.perform, hsend]

theorem advance_send_of_full (hc : c.closed = false) (hr : c.room = 0) (as : List Act) :
    Act.advance c (.send i :: as) =
      some ⟨c.await ⟨ownTicket, i⟩, .resend i :: as, [], []⟩ := by
  have hsend : c.send ownTicket i = (c.await ⟨ownTicket, i⟩, .waits) := by
    rw [Channel.send, if_neg (by simp [hc]), if_neg (by omega)]
    rfl
  simp only [Act.advance, Act.perform, hsend]

theorem advance_resend (hc : c.closed = false) (hl : c.line = [⟨ownTicket, i⟩]) (as : List Act) :
    (c.granted = [⟨ownTicket, i⟩] ∧ Act.advance c (.resend i :: as) =
        some ⟨(c.withdraw ownTicket).push i, as, [], []⟩) ∨
      (c.waiting = [⟨ownTicket, i⟩] ∧ c.granted = [] ∧
        Act.advance c (.resend i :: as) = none) := by
  rcases List.append_eq_singleton_iff.mp hl with ⟨hg, hw⟩ | ⟨hg, hw⟩
  · refine .inr ⟨hw, hg, ?_⟩
    rcases c.resume_cases ownTicket with ⟨hclosed, -⟩ | ⟨-, w, hw, -⟩ | ⟨-, -, hres⟩
    · exact absurd (hc.symm.trans hclosed) (by simp)
    · simp [hg] at hw
    · simp only [Act.advance, Act.perform, hres]
  · refine .inl ⟨hg, ?_⟩
    rcases c.resume_cases ownTicket with ⟨hclosed, -⟩ | ⟨-, w, hw, -, hres⟩ | ⟨-, hnone, -⟩
    · exact absurd (hc.symm.trans hclosed) (by simp)
    · rw [hg, List.mem_singleton] at hw
      simp only [Act.advance, Act.perform, hres, hw]
    · exact absurd rfl (hnone _ (by rw [hg]; exact List.mem_singleton.mpr rfl))

end Send

theorem Stage.advance (h : Stage c as) (hs : c.Sound) {p : Advance}
    (hp : Act.advance c as = some p) : Carried c as p.channel p.rest := by
  cases h with
  | through => cases hp
  | going as hplain hc hl =>
    cases as with
    | nil =>
      obtain rfl := Option.some.inj hp
      exact ⟨.through rfl hl, ⟨hs.fits, hs.full, hs.distinct⟩, rfl, rfl, rfl, rfl⟩
    | cons a as =>
      rw [List.forall_mem_cons] at hplain
      cases a with
      | effect e =>
        obtain rfl := Option.some.inj hp
        exact ⟨.going as hplain.2 hc hl, hs, rfl, rfl, rfl, rfl⟩
      | send i =>
        by_cases hr : 0 < c.room
        · rw [List.cons_append, advance_send_of_room hc hr] at hp
          obtain rfl := Option.some.inj hp
          refine ⟨.going as hplain.2 hc hl, hs.push hr i, ?_, rfl, rfl, rfl⟩
          simp [Channel.push, Act.items]
        · have hzero : c.room = 0 := by omega
          have hticket : ownTicket ∉ c.tickets := by
            rw [Channel.tickets, hl]
            exact List.not_mem_nil
          rw [List.cons_append, advance_send_of_full hc hzero] at hp
          obtain rfl := Option.some.inj hp
          refine ⟨.waiting i as hplain.2 hc ?_, hs.await hzero hticket, rfl, rfl, rfl, rfl⟩
          rw [Channel.line_await, hl]
          rfl
      | _ => exact hplain.1.elim
  | waiting i as hplain hc hl =>
    rcases advance_resend hc hl (as ++ [.finish]) with ⟨hg, hadv⟩ | ⟨-, -, hadv⟩
    · have hmem : (⟨ownTicket, i⟩ : Waiter) ∈ c.granted := by
        rw [hg]
        exact List.mem_singleton.mpr rfl
      rw [List.cons_append, hadv] at hp
      obtain rfl := Option.some.inj hp
      refine ⟨.going as hplain hc ?_, hs.withdraw_push hmem rfl i, ?_, rfl, rfl, rfl⟩
      · refine (hs.line_withdraw hmem rfl).trans ?_
        rw [hl]
        rfl
      · simp [Channel.push, Channel.withdraw, Act.items]
    · rw [List.cons_append, hadv] at hp
      cases hp

theorem Stage.replies_advance (h : Stage c as) {p : Advance} (hp : Act.advance c as = some p) :
    p.replies = [] := by
  cases h with
  | through => cases hp
  | going as hplain hc hl =>
    cases as with
    | nil =>
      obtain rfl := Option.some.inj hp
      rfl
    | cons a as =>
      rw [List.forall_mem_cons] at hplain
      cases a with
      | effect e =>
        obtain rfl := Option.some.inj hp
        rfl
      | send i =>
        by_cases hr : 0 < c.room
        · rw [List.cons_append, advance_send_of_room hc hr] at hp
          obtain rfl := Option.some.inj hp
          rfl
        · rw [List.cons_append, advance_send_of_full hc (by omega)] at hp
          obtain rfl := Option.some.inj hp
          rfl
      | _ => exact hplain.1.elim
  | waiting i as hplain hc hl =>
    rcases advance_resend hc hl (as ++ [.finish]) with ⟨-, hadv⟩ | ⟨-, -, hadv⟩
    · rw [List.cons_append, hadv] at hp
      obtain rfl := Option.some.inj hp
      rfl
    · rw [List.cons_append, hadv] at hp
      cases hp

theorem Stage.advance_of_empty (h : Stage c as) (hs : c.Sound) (hcap : 0 < c.capacity)
    (hc : c.closed = false) (hq : c.queue = []) : ∃ p, Act.advance c as = some p := by
  cases h with
  | through hc' => exact absurd (hc.symm.trans hc') (by simp)
  | going as hplain hc' hl =>
    cases as with
    | nil => exact ⟨_, advance_finish c⟩
    | cons a as =>
      rw [List.forall_mem_cons] at hplain
      cases a with
      | effect e => exact ⟨_, advance_effect c e _⟩
      | send i =>
        by_cases hr : 0 < c.room
        · exact ⟨_, advance_send_of_room hc hr _⟩
        · exact ⟨_, advance_send_of_full hc (by omega) _⟩
      | _ => exact hplain.1.elim
  | waiting i as hplain hc' hl =>
    rcases advance_resend hc hl (as ++ [.finish]) with ⟨-, hadv⟩ | ⟨hw, hg, -⟩
    · exact ⟨_, hadv⟩
    · have hfull := hs.full (by simp [hw])
      simp only [hq, hg, List.length_nil] at hfull
      omega

namespace Feed

variable {f g : Feed}

theorem plain_failureActs (category : Category) (note message : String) :
    ∀ a ∈ failureActs category note message, a.IsPlain := by
  intro a ha
  simp only [failureActs, List.mem_cons, List.not_mem_nil, or_false] at ha
  rcases ha with rfl | rfl | rfl <;> trivial

theorem step_of_done (hw : f.work = []) : f.step =
    (Act.advance f.channel f.conclusion).map fun q =>
      { f.record q with conclusion := q.rest } := by
  rw [step, hw]

theorem step_of_notice (hw : f.work ≠ []) {notice : List Effect}
    (hc : f.cancelNotice? = some notice) : f.step = some (f.cancel notice) := by
  obtain ⟨a, as, hwork⟩ := List.exists_cons_of_ne_nil hw
  rw [step, hwork]
  dsimp only
  rw [hc]

theorem step_of_working (hw : f.work ≠ []) (hc : f.cancelNotice? = none) : f.step =
    (Act.advance f.channel f.work).map fun q => { f.record q with work := q.rest } := by
  obtain ⟨a, as, hwork⟩ := List.exists_cons_of_ne_nil hw
  rw [step, hwork]
  dsimp only
  rw [hc]

theorem step_cases (h : f.step = some g) :
    (f.work = [] ∧ ∃ q, Act.advance f.channel f.conclusion = some q ∧
      g = { f.record q with conclusion := q.rest }) ∨
    (f.work ≠ [] ∧ ∃ notice, f.cancelNotice? = some notice ∧ g = f.cancel notice) ∨
    (f.work ≠ [] ∧ f.cancelNotice? = none ∧ ∃ q, Act.advance f.channel f.work = some q ∧
      g = { f.record q with work := q.rest }) := by
  by_cases hw : f.work = []
  · rw [step_of_done hw] at h
    obtain ⟨q, hq, rfl⟩ := Option.map_eq_some_iff.mp h
    exact .inl ⟨hw, q, hq, rfl⟩
  · cases hc : f.cancelNotice? with
    | some notice =>
      rw [step_of_notice hw hc] at h
      exact .inr (.inl ⟨hw, notice, rfl, (Option.some.inj h).symm⟩)
    | none =>
      rw [step_of_working hw hc] at h
      obtain ⟨q, hq, rfl⟩ := Option.map_eq_some_iff.mp h
      exact .inr (.inr ⟨hw, rfl, q, hq, rfl⟩)

end Feed

end HttpRelay.Relay
