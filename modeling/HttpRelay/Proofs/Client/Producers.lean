import HttpRelay.Producer
import HttpRelay.Proofs.Relay.Fairness

namespace HttpRelay

open Relay

namespace Producer

def Action.IsCall : Action → Prop
  | .offer _ | .ask => True
  | .close | .awaitClose => False

def OnlyCalls (p : Producer) : Prop := ∀ a ∈ p.actions, a.IsCall

def Action.answer (c : Channel) : Action → Reply
  | .offer _ => .taken (!c.closed && decide (c.queue.length < c.capacity))
  | .ask => .closed c.closed
  | .close | .awaitClose => .nothing

def Action.Fits : Action → Reply → Prop
  | .offer _, r => ∃ b, r = .taken b
  | .ask, r => ∃ b, r = .closed b
  | .close, r | .awaitClose, r => r = .nothing

def Action.accepted : Action → Reply → List Item
  | .offer text, .taken true => [.fragment text]
  | _, _ => []

def accepted (as : List Action) (rs : List Reply) : List Item :=
  (as.zipWith Action.accepted rs).flatten

def failureItems (p : Producer) : List Item :=
  match p.ending with
  | .success => []
  | .failure message => [.failure message]
  | .panic => [.failure "worker error: blocking job panicked"]

def items (p : Producer) (rs : List Reply) : List Item :=
  accepted p.actions rs ++ if rs.length < p.actions.length then [] else p.failureItems

def reply? (p : Producer) (f : Feed) : Option Reply :=
  p.actions[f.replies.length]?.map (Action.answer f.channel)

def start (p : Producer) (capacity : Capacity) : View := ⟨p.feed capacity, []⟩

def moment (p : Producer) (capacity : Capacity) (σ : Nat → Move) (n : Nat) : View :=
  (p.start capacity).along σ n

variable {p : Producer} {capacity : Capacity} {v : View}

theorem lt_length_of_drop {as rest : List Action} {a : Action} {n : Nat}
    (h : as.drop n = a :: rest) : n < as.length := by
  apply Nat.lt_of_not_le
  intro hle
  rw [List.drop_of_length_le hle] at h
  cases h

theorem accepted_snoc {as rest : List Action} {rs : List Reply} {a : Action}
    (h : as.drop rs.length = a :: rest) (r : Reply) :
    accepted as (rs ++ [r]) = accepted as rs ++ a.accepted r := by
  have htake : (as.take rs.length).length = rs.length :=
    List.length_take_of_le (Nat.le_of_lt (lt_length_of_drop h))
  have hzip : ∀ qs : List Reply, as.zipWith Action.accepted (rs ++ qs) =
      (as.take rs.length).zipWith Action.accepted rs ++
        (a :: rest).zipWith Action.accepted qs := by
    intro qs
    rw [← h, ← List.zipWith_append htake, List.take_append_drop]
  have hself := hzip []
  rw [List.append_nil, List.zipWith_nil_right, List.append_nil] at hself
  rw [accepted, accepted, hzip [r], ← hself, List.flatten_append, List.zipWith_cons_cons,
    List.zipWith_nil_right, List.flatten_singleton]

theorem Action.perform_call {a : Action} (ha : a.IsCall) (c : Channel) :
    ∃ d es r, a.act.perform c = .done d es [r] ∧ a.Fits r ∧
      (c.Sound → c.line = [] → r = a.answer c ∧ c.LetsGo ownTicket (a.accepted r) d) := by
  have hline : c.line = [] → c.line.filter (·.ticket ≠ ownTicket) = c.line := by
    intro hl
    rw [hl]
    rfl
  have hroom : c.line = [] → (0 < c.room ↔ c.queue.length < c.capacity) := by
    intro hl
    rw [c.room_pos_iff, (List.append_eq_nil_iff.mp hl).1]
    rfl
  cases a with
  | close | awaitClose => exact ha.elim
  | ask =>
    refine ⟨c, [], .closed c.closed, rfl, ⟨c.closed, rfl⟩, fun hs hl => ⟨rfl, ?_⟩⟩
    exact hs.letsGo_self (hline hl)
  | offer text =>
    rcases c.trySend_cases (.fragment text) with ⟨hc, ht⟩ | ⟨hc, hr, ht⟩ | ⟨hc, hr, ht⟩
    · refine ⟨c, [], .taken false, ?_, ⟨false, rfl⟩, fun hs hl => ⟨?_, hs.letsGo_self (hline hl)⟩⟩
      · simp only [act, Act.perform, ht]
      · simp [answer, hc]
    · refine ⟨c.push (.fragment text), [], .taken true, ?_, ⟨true, rfl⟩,
        fun hs hl => ⟨?_, hs.letsGo_push hc hr (hline hl) _⟩⟩
      · simp only [act, Act.perform, ht]
      · simp [answer, hc, (hroom hl).mp hr]
    · refine ⟨c, [.logged fullRecord], .taken false, ?_, ⟨false, rfl⟩,
        fun hs hl => ⟨?_, hs.letsGo_self (hline hl)⟩⟩
      · simp only [act, Act.perform, ht]
      · simp [answer, hc, ← hroom hl, hr]

structure Offering (p : Producer) (capacity : Capacity) (v : View) : Prop where
  answered : v.feed.replies.length ≤ p.actions.length
  work : v.feed.work = (p.actions.drop v.feed.replies.length).map Action.act
  conclusion : v.feed.conclusion = (p.feed capacity).conclusion
  cancellation : v.feed.cancellation = none
  shown : ∃ items, v.results = items.map some ∧
    items ++ v.feed.channel.queue = accepted p.actions v.feed.replies
  sound : v.feed.channel.Sound
  line : v.feed.channel.line = []
  capacity_eq : v.feed.channel.capacity = max capacity.val 1
  closed : v.feed.channel.closed = false
  ended : v.feed.channel.ended = false
  senders : v.feed.channel.senders ≠ 0

theorem offering_start (p : Producer) (capacity : Capacity) :
    p.Offering capacity (p.start capacity) where
  answered := Nat.zero_le _
  work := rfl
  conclusion := rfl
  cancellation := rfl
  shown := ⟨[], rfl, by rw [accepted, start, feed, List.zipWith_nil_right]; rfl⟩
  sound := Channel.sound_new capacity
  line := rfl
  capacity_eq := rfl
  closed := rfl
  ended := rfl
  senders := Nat.one_ne_zero

theorem offering_receive (h : p.Offering capacity v) : p.Offering capacity v.receive := by
  obtain ⟨items, hresults, hitems⟩ := h.shown
  rcases v.feed.channel.receive_cases with ⟨he, -⟩ | ⟨-, item, rest, hq, hrec⟩ |
    ⟨-, -, hc, -⟩ | ⟨-, -, -, -, hrec⟩
  · exact absurd (h.ended.symm.trans he) (by simp)
  · rw [View.receive, hrec]
    refine ⟨h.answered, h.work, h.conclusion, h.cancellation, ⟨items ++ [item], ?_, ?_⟩,
      h.sound.receive hq, ?_, ?_, ?_, ?_, ?_⟩
    · rw [hresults, List.map_append]
      rfl
    · dsimp only
      rw [Channel.queue_grant, ← hitems, hq, List.append_assoc]
      rfl
    · exact (Channel.line_grant _).trans h.line
    · exact (Channel.capacity_grant _).trans h.capacity_eq
    · exact (Channel.closed_grant _).trans h.closed
    · exact (Channel.ended_grant _).trans h.ended
    · dsimp only
      rw [Channel.senders_grant]
      exact h.senders
  · have hclosed := hc.resolve_right h.senders
    exact absurd (h.closed.symm.trans hclosed) (by simp)
  · rw [View.receive, hrec]
    refine ⟨h.answered, h.work, h.conclusion, h.cancellation, ⟨items, ?_, hitems⟩, h.sound, h.line,
      h.capacity_eq, h.closed, h.ended, h.senders⟩
    exact (List.append_nil _).trans hresults

def answered (f : Feed) (d : Channel) (es : List Effect) (r : Reply) (rest : List Action) : Feed :=
  { f.record ⟨d, rest.map Action.act, es, [r]⟩ with work := rest.map Action.act }

theorem step_call (hcalls : p.OnlyCalls) (h : p.Offering capacity v) {a : Action}
    {rest : List Action} (hdrop : p.actions.drop v.feed.replies.length = a :: rest) :
    ∃ d es, v.feed.channel.LetsGo ownTicket (a.accepted (a.answer v.feed.channel)) d ∧
      v.feed.step = some (answered v.feed d es (a.answer v.feed.channel) rest) := by
  have ha : a.IsCall := by
    apply hcalls
    exact List.mem_of_mem_drop (hdrop ▸ List.mem_cons_self)
  obtain ⟨d, es, r, hperform, -, hanswer⟩ := Action.perform_call ha v.feed.channel
  obtain ⟨rfl, hgo⟩ := hanswer h.sound h.line
  have hwork : v.feed.work = a.act :: rest.map Action.act := by
    rw [h.work, hdrop, List.map_cons]
  have hne : v.feed.work ≠ [] := by
    rw [hwork]
    exact List.cons_ne_nil _ _
  have hnotice : v.feed.cancelNotice? = none := by
    rw [Feed.cancelNotice?, h.cancellation, ite_self]
  have hadvance : Act.advance v.feed.channel v.feed.work =
      some ⟨d, rest.map Action.act, es, [a.answer v.feed.channel]⟩ := by
    rw [hwork, Act.advance, hperform]
  refine ⟨d, es, hgo, ?_⟩
  rw [Feed.step_of_working hne hnotice, hadvance]
  rfl

theorem offering_answered (h : p.Offering capacity v) {a : Action} {rest : List Action}
    (hdrop : p.actions.drop v.feed.replies.length = a :: rest) {r : Reply} {d : Channel}
    (hgo : v.feed.channel.LetsGo ownTicket (a.accepted r) d) (es : List Effect) :
    p.Offering capacity { v with feed := answered v.feed d es r rest } := by
  obtain ⟨items, hresults, hitems⟩ := h.shown
  have hlength : (v.feed.replies ++ [r]).length = v.feed.replies.length + 1 := List.length_append
  have hnext : p.actions.drop (v.feed.replies.length + 1) = rest := by
    rw [← List.tail_drop, hdrop]
    rfl
  refine ⟨?_, ?_, h.conclusion, h.cancellation, ⟨items, hresults, ?_⟩, hgo.sound, ?_,
    hgo.capacity.trans h.capacity_eq, hgo.closed.trans h.closed, hgo.ended.trans h.ended, ?_⟩
  · exact hlength ▸ lt_length_of_drop hdrop
  · dsimp only [answered, Feed.record]
    rw [hlength, hnext]
  · dsimp only [answered, Feed.record]
    rw [accepted_snoc hdrop, ← hitems, hgo.queue, List.append_assoc]
  · dsimp only [answered, Feed.record]
    rw [hgo.line, h.line]
    rfl
  · exact fun hzero => h.senders (hgo.senders.symm.trans hzero)

theorem offering_call (hcalls : p.OnlyCalls) (h : p.Offering capacity v)
    (hlt : v.feed.replies.length < p.actions.length) :
    ∃ g, v.feed.step = some g ∧ g.replies = v.feed.replies ++ (p.reply? v.feed).toList ∧
      p.Offering capacity { v with feed := g } := by
  obtain ⟨a, rest, hdrop⟩ : ∃ a rest, p.actions.drop v.feed.replies.length = a :: rest :=
    ⟨_, _, List.drop_eq_getElem_cons hlt⟩
  have hreply : p.reply? v.feed = some (a.answer v.feed.channel) := by
    rw [reply?, ← List.head?_drop, hdrop]
    rfl
  obtain ⟨d, es, hgo, hstep⟩ := step_call hcalls h hdrop
  refine ⟨_, hstep, ?_, offering_answered h hdrop hgo es⟩
  rw [hreply]
  rfl

structure Concluding (p : Producer) (capacity : Capacity) (v : View) : Prop where
  answered : v.feed.replies.length = p.actions.length
  work : v.feed.work = []
  underway : Underway (p.items v.feed.replies) v
  capacity_eq : v.feed.channel.capacity = max capacity.val 1

theorem conclusion_eq (p : Producer) (capacity : Capacity) :
    ∃ as, (p.feed capacity).conclusion = as ++ [.finish] ∧ (∀ a ∈ as, a.IsPlain) ∧
      as.flatMap Act.items = p.failureItems := by
  obtain ⟨actions, ending⟩ := p
  cases ending with
  | success => exact ⟨[], rfl, nofun, rfl⟩
  | failure message => exact ⟨failureActs message, rfl, Feed.plain_failureActs _ _ _, rfl⟩
  | panic =>
    exact ⟨failureActs Pool.panicked.message, rfl, Feed.plain_failureActs _ _ _, rfl⟩

theorem concluding_of_offering (h : p.Offering capacity v)
    (hall : v.feed.replies.length = p.actions.length) : p.Concluding capacity v := by
  obtain ⟨as, hconclusion, hplain, has⟩ := p.conclusion_eq capacity
  obtain ⟨items, hresults, hitems⟩ := h.shown
  have hwork : v.feed.work = [] := by
    rw [h.work, List.drop_of_length_le (Nat.le_of_eq hall.symm)]
    rfl
  have hpending : v.feed.pending = as ++ [.finish] := by
    rw [Feed.pending, hwork, h.conclusion, hconclusion, List.nil_append]
  have hall_items : p.items v.feed.replies =
      items ++ (v.feed.channel.queue ++ p.failureItems) := by
    rw [Producer.items, if_neg (Nat.not_lt_of_le (Nat.le_of_eq hall.symm)), ← hitems,
      List.append_assoc]
  refine ⟨hall, hwork, ⟨⟨items.length, ?_, ?_⟩, ?_, h.sound, ?_, h.senders, ?_, fun _ => hwork⟩,
    h.capacity_eq⟩
  · rw [hall_items, upTo_length, hresults]
  · rw [hall_items, List.drop_left, hpending, List.flatMap_append, has]
    exact congrArg (_ ++ ·) (List.append_nil _).symm
  · rw [hpending]
    exact .going as hplain h.closed h.line
  · rw [h.capacity_eq]
    exact Nat.lt_of_lt_of_le Nat.zero_lt_one (Nat.le_max_right _ _)
  · intro he
    exact absurd (h.ended.symm.trans he) (by simp)

theorem concluding_produce (h : p.Concluding capacity v) :
    (v.move .produce).feed.replies = v.feed.replies ∧ p.Concluding capacity (v.move .produce) := by
  have hunderway := View.underway_move h.underway (m := .produce) nofun
  have hstage : Stage v.feed.channel v.feed.conclusion := by
    have hstage := h.underway.stage
    rwa [Feed.pending, h.work] at hstage
  rw [View.move, Feed.step_of_done h.work] at hunderway ⊢
  cases hq : Act.advance v.feed.channel v.feed.conclusion with
  | none => exact ⟨rfl, h⟩
  | some q =>
    rw [hq] at hunderway
    have hreplies : v.feed.replies ++ q.replies = v.feed.replies := by
      rw [hstage.replies_advance hq, List.append_nil]
    have hcapacity := (hstage.advance h.underway.sound hq).capacity
    refine ⟨hreplies, ?_, h.work, ?_, hcapacity.trans h.capacity_eq⟩
    · exact (congrArg List.length hreplies).trans h.answered
    · have hitems : p.items (v.feed.replies ++ q.replies) = p.items v.feed.replies :=
        congrArg p.items hreplies
      exact hitems ▸ hunderway

theorem concluding_receive (h : p.Concluding capacity v) : p.Concluding capacity v.receive where
  answered := h.answered
  work := h.work
  underway := View.underway_receive h.underway
  capacity_eq := v.feed.channel.capacity_receive.trans h.capacity_eq

inductive Stands (p : Producer) (capacity : Capacity) (v : View) : Prop where
  | calling (hlt : v.feed.replies.length < p.actions.length) (h : p.Offering capacity v)
  | through (h : p.Concluding capacity v)

theorem Offering.stands (h : p.Offering capacity v) : p.Stands capacity v := by
  rcases Nat.lt_or_eq_of_le h.answered with hlt | hall
  · exact .calling hlt h
  · exact .through (concluding_of_offering h hall)

theorem Stands.move_insist (h : p.Stands capacity v) : v.move .insist = v.move .produce := by
  apply View.move_insist
  cases h with
  | calling hlt hoffering =>
    intro hc
    exact absurd (hoffering.closed.symm.trans hc) (by simp)
  | through hconcluding => exact hconcluding.underway.stage.nil_of_closed

theorem Stands.move (hcalls : p.OnlyCalls) (h : p.Stands capacity v) {m : Move}
    (hm : m ≠ .abandon) :
    p.Stands capacity (v.move m) ∧ (v.move m).feed.replies =
      v.feed.replies ++ if m = .receive then [] else (p.reply? v.feed).toList := by
  have hproduce : p.Stands capacity (v.move .produce) ∧
      (v.move .produce).feed.replies = v.feed.replies ++ (p.reply? v.feed).toList := by
    cases h with
    | calling hlt hoffering =>
      obtain ⟨g, hstep, hreplies, hnext⟩ := offering_call hcalls hoffering hlt
      rw [View.move, hstep]
      exact ⟨hnext.stands, hreplies⟩
    | through hconcluding =>
      obtain ⟨hreplies, hnext⟩ := concluding_produce hconcluding
      have hnone : p.reply? v.feed = none := by
        rw [reply?, hconcluding.answered, List.getElem?_eq_none (Nat.le_refl _)]
        rfl
      rw [hnone]
      exact ⟨.through hnext, hreplies.trans (List.append_nil _).symm⟩
  cases m with
  | produce => exact hproduce
  | insist =>
    rw [h.move_insist]
    exact hproduce
  | receive =>
    refine ⟨?_, (List.append_nil _).symm⟩
    cases h with
    | calling _ hoffering => exact (offering_receive hoffering).stands
    | through hconcluding => exact .through (concluding_receive hconcluding)
  | abandon => exact absurd rfl hm

theorem stands_along (capacity : Capacity) (hcalls : p.OnlyCalls) {σ : Nat → Move}
    (hσ : ∀ n, σ n ≠ .abandon) (n : Nat) :
    p.Stands capacity (p.moment capacity σ n) := by
  induction n with
  | zero => exact (offering_start p capacity).stands
  | succ n ih => exact (ih.move hcalls (hσ n)).1

theorem Stands.answered (h : p.Stands capacity v) :
    v.feed.replies.length ≤ p.actions.length := by
  cases h with
  | calling _ hoffering => exact hoffering.answered
  | through hconcluding => exact Nat.le_of_eq hconcluding.answered

theorem Stands.capacity_eq (h : p.Stands capacity v) :
    v.feed.channel.capacity = max capacity.val 1 := by
  cases h with
  | calling _ hoffering => exact hoffering.capacity_eq
  | through hconcluding => exact hconcluding.capacity_eq

theorem Stands.shown (h : p.Stands capacity v) :
    ∃ n, v.results = upTo n (p.items v.feed.replies) ∧
      (v.feed.replies.length < p.actions.length → n ≤ (p.items v.feed.replies).length) := by
  cases h with
  | calling hlt hoffering =>
    obtain ⟨items, hresults, hitems⟩ := hoffering.shown
    have hall : p.items v.feed.replies = items ++ v.feed.channel.queue := by
      rw [Producer.items, if_pos hlt, List.append_nil, hitems]
    refine ⟨items.length, ?_, fun _ => ?_⟩
    · rw [hall, upTo_length, hresults]
    · rw [hall, List.length_append]
      exact Nat.le_add_right _ _
  | through hconcluding =>
    obtain ⟨n, hn, -⟩ := hconcluding.underway.shown
    refine ⟨n, hn, fun hlt => ?_⟩
    exact absurd hconcluding.answered (Nat.ne_of_lt hlt)

theorem replies_succ (hcalls : p.OnlyCalls) {σ : Nat → Move}
    (hσ : ∀ n, σ n ≠ .abandon) (n : Nat) :
    (p.moment capacity σ (n + 1)).feed.replies = (p.moment capacity σ n).feed.replies ++
      if σ n = .receive then [] else (p.reply? (p.moment capacity σ n).feed).toList :=
  ((stands_along capacity hcalls hσ n).move hcalls (hσ n)).2

theorem exists_concluding (capacity : Capacity) (hcalls : p.OnlyCalls) {σ : Nat → Move}
    (hσ : Fair σ) :
    ∃ k, p.Concluding capacity (p.moment capacity σ k) := by
  have hanswered : ∀ n ≤ p.actions.length, ∃ k,
      n ≤ (p.moment capacity σ k).feed.replies.length := by
    intro n hn
    induction n with
    | zero => exact ⟨0, Nat.zero_le _⟩
    | succ n ih =>
      obtain ⟨k, hk⟩ := ih (Nat.le_of_succ_le hn)
      obtain ⟨m, hm, hproduce⟩ := hσ.produces k
      have hlater := ((p.start capacity).replies_along σ hm).length_le
      refine ⟨m + 1, ?_⟩
      rw [replies_succ hcalls hσ.stays, hproduce, if_neg nofun, List.length_append, reply?]
      rcases Nat.lt_or_ge (p.moment capacity σ m).feed.replies.length p.actions.length with
        hlt | hge
      · rw [List.getElem?_eq_getElem hlt]
        exact Nat.add_le_add (Nat.le_trans hk hlater) (Nat.le_refl 1)
      · exact Nat.le_add_right_of_le (Nat.le_trans hn hge)
  obtain ⟨k, hk⟩ := hanswered _ (Nat.le_refl _)
  refine ⟨k, ?_⟩
  cases stands_along capacity hcalls hσ.stays k with
  | calling hlt _ => exact absurd hlt (Nat.not_lt_of_le hk)
  | through hconcluding => exact hconcluding

/-- What the consumer of a producer gets to see in whatever order the two sides go on. -/
structure Faithful (p : Producer) (capacity : Capacity) (σ : Nat → Move) : Prop where
  answers : ∀ k, (p.moment capacity σ (k + 1)).feed.replies =
    (p.moment capacity σ k).feed.replies ++
      if σ k = .receive then [] else (p.reply? (p.moment capacity σ k).feed).toList
  capacity_eq : ∀ k, (p.moment capacity σ k).feed.channel.capacity = max capacity.val 1
  shown : ∀ k, ∃ n,
    (p.moment capacity σ k).results =
      upTo n (p.items (p.moment capacity σ k).feed.replies) ∧
    ((p.moment capacity σ k).feed.replies.length < p.actions.length →
      n ≤ (p.items (p.moment capacity σ k).feed.replies).length)
  complete : Fair σ → ∀ n, ∃ k m, n ≤ m ∧
    (p.moment capacity σ k).feed.replies.length = p.actions.length ∧
    (p.moment capacity σ k).results =
      (p.items (p.moment capacity σ k).feed.replies).map some ++ List.replicate m none

theorem faithful_of_calls (hcalls : p.OnlyCalls) {σ : Nat → Move}
    (hσ : ∀ n, σ n ≠ .abandon) : p.Faithful capacity σ where
  answers := replies_succ hcalls hσ
  capacity_eq k := (stands_along capacity hcalls hσ k).capacity_eq
  shown k := (stands_along capacity hcalls hσ k).shown
  complete hfair n := by
    obtain ⟨k, hconcluding⟩ := exists_concluding capacity hcalls hfair
    have hshows := View.shows_of_underway hconcluding.underway
    obtain ⟨d, m, hm, hresults⟩ := hshows.complete _ (hfair.shift k) n
    have hgrown : (p.moment capacity σ k).feed.replies <+:
        (p.moment capacity σ (k + d)).feed.replies := View.replies_along _ σ (Nat.le_add_right k d)
    have hstands := stands_along capacity hcalls hσ (k + d)
    have hsame : (p.moment capacity σ (k + d)).feed.replies =
        (p.moment capacity σ k).feed.replies := by
      apply (hgrown.eq_of_length_le ?_).symm
      rw [hconcluding.answered]
      exact hstands.answered
    refine ⟨k + d, m, hm, ?_, ?_⟩
    · rw [hsame, hconcluding.answered]
    · rw [hsame, moment, View.along_add]
      exact hresults

end Producer

end HttpRelay
