import HttpRelay.Relay.Feed

namespace HttpRelay.Relay.Channel

variable {c d : Channel}

def line (c : Channel) : List Waiter := c.granted ++ c.waiting

def tickets (c : Channel) : List Nat := c.line.map Waiter.ticket

structure Sound (c : Channel) : Prop where
  fits : c.queue.length + c.granted.length ≤ c.capacity
  full : c.waiting ≠ [] → c.capacity ≤ c.queue.length + c.granted.length
  distinct : c.tickets.Nodup

theorem room_pos_iff (c : Channel) :
    0 < c.room ↔ c.queue.length + c.granted.length < c.capacity := by
  simp only [room]
  omega

section Grant

@[simp]
theorem closed_grant (c : Channel) : c.grant.closed = c.closed := by
  unfold grant
  split
  · rfl
  · split <;> rfl

@[simp]
theorem ended_grant (c : Channel) : c.grant.ended = c.ended := by
  unfold grant
  split
  · rfl
  · split <;> rfl

@[simp]
theorem senders_grant (c : Channel) : c.grant.senders = c.senders := by
  unfold grant
  split
  · rfl
  · split <;> rfl

@[simp]
theorem capacity_grant (c : Channel) : c.grant.capacity = c.capacity := by
  unfold grant
  split
  · rfl
  · split <;> rfl

@[simp]
theorem line_grant (c : Channel) : c.grant.line = c.line := by
  unfold grant
  split
  · rfl
  · rename_i w rest hw
    split
    · simp [line, hw]
    · rfl

theorem sound_grant (hfits : c.queue.length + c.granted.length ≤ c.capacity)
    (hfull : c.waiting ≠ [] → c.capacity ≤ c.queue.length + c.granted.length + 1)
    (hd : c.tickets.Nodup) : c.grant.Sound := by
  refine ⟨?_, ?_, by rwa [tickets, line_grant]⟩
  · unfold grant
    split
    · exact hfits
    · split
      · rename_i hr
        have := (room_pos_iff c).mp hr
        simp only [List.length_append, List.length_singleton]
        omega
      · exact hfits
  · unfold grant
    split
    · rename_i hw
      exact fun hne => absurd hw hne
    · rename_i w rest hw
      have := hfull (by simp [hw])
      split
      · intro _
        simp only [List.length_append, List.length_singleton]
        omega
      · rename_i hr
        intro _
        rw [room_pos_iff] at hr
        omega

end Grant

theorem sound_new (capacity : Capacity) : (new capacity).Sound :=
  ⟨Nat.zero_le _, fun h => absurd rfl h, List.nodup_nil⟩

theorem Sound.push (h : c.Sound) (hr : 0 < c.room) (item : Item) : (c.push item).Sound := by
  have hlt := (room_pos_iff c).mp hr
  refine ⟨?_, fun hw => ?_, h.distinct⟩
  · simp only [Channel.push, List.length_append, List.length_singleton]
    omega
  · have := h.full hw
    omega

def await (c : Channel) (w : Waiter) : Channel := { c with waiting := c.waiting ++ [w] }

theorem line_await (c : Channel) (w : Waiter) : (c.await w).line = c.line ++ [w] := by
  simp [line, await]

theorem Sound.await (h : c.Sound) (hr : c.room = 0) {w : Waiter} (hw : w.ticket ∉ c.tickets) :
    (c.await w).Sound := by
  refine ⟨h.fits, fun _ => ?_, ?_⟩
  · have hn : ¬ 0 < c.room := by omega
    rw [room_pos_iff] at hn
    change c.capacity ≤ c.queue.length + c.granted.length
    omega
  · rw [tickets, line_await, List.map_append, List.nodup_append]
    refine ⟨h.distinct, by simp, ?_⟩
    intro t ht u hu
    rw [List.map_singleton, List.mem_singleton] at hu
    rintro rfl
    exact hw (hu ▸ ht)

theorem send_cases (c : Channel) (ticket : Nat) (item : Item) :
    (c.closed = true ∧ c.send ticket item = (c, .discarded)) ∨
      (c.closed = false ∧ 0 < c.room ∧ c.send ticket item = (c.push item, .accepted)) ∨
      (c.closed = false ∧ c.room = 0 ∧ c.send ticket item = (c.await ⟨ticket, item⟩, .waits)) := by
  unfold send
  by_cases hc : c.closed = true
  · exact .inl ⟨hc, if_pos hc⟩
  · rw [if_neg hc]
    rw [Bool.not_eq_true] at hc
    by_cases hr : 0 < c.room
    · exact .inr (.inl ⟨hc, hr, if_pos hr⟩)
    · exact .inr (.inr ⟨hc, by omega, if_neg hr⟩)

theorem trySend_cases (c : Channel) (item : Item) :
    (c.closed = true ∧ c.trySend item = (c, .refused)) ∨
      (c.closed = false ∧ 0 < c.room ∧ c.trySend item = (c.push item, .accepted)) ∨
      (c.closed = false ∧ c.room = 0 ∧ c.trySend item = (c, .full)) := by
  unfold trySend
  by_cases hc : c.closed = true
  · exact .inl ⟨hc, if_pos hc⟩
  · rw [if_neg hc]
    rw [Bool.not_eq_true] at hc
    by_cases hr : 0 < c.room
    · exact .inr (.inl ⟨hc, hr, if_pos hr⟩)
    · exact .inr (.inr ⟨hc, by omega, if_neg hr⟩)

def withdraw (c : Channel) (ticket : Nat) : Channel :=
  { c with granted := c.granted.filter (·.ticket ≠ ticket) }

theorem resume_cases (c : Channel) (ticket : Nat) :
    (c.closed = true ∧ c.resume ticket = (c.cancel ticket, .discarded)) ∨
      (c.closed = false ∧ ∃ w ∈ c.granted, w.ticket = ticket ∧
        c.resume ticket = ((c.withdraw ticket).push w.item, .accepted)) ∨
      (c.closed = false ∧ (∀ w ∈ c.granted, w.ticket ≠ ticket) ∧
        c.resume ticket = (c, .waits)) := by
  unfold resume
  by_cases hc : c.closed = true
  · exact .inl ⟨hc, if_pos hc⟩
  · rw [if_neg hc]
    rw [Bool.not_eq_true] at hc
    cases hf : c.granted.find? (·.ticket = ticket) with
    | some w =>
      have hw := List.find?_some hf
      exact .inr (.inl ⟨hc, w, List.mem_of_find?_eq_some hf, by simpa using hw, rfl⟩)
    | none =>
      rw [List.find?_eq_none] at hf
      exact .inr (.inr ⟨hc, by simpa using hf, rfl⟩)

theorem receive_cases (c : Channel) :
    (c.ended = true ∧ c.receive = (c, .finished)) ∨
      (c.ended = false ∧ ∃ item rest, c.queue = item :: rest ∧
        c.receive = ({ c with queue := rest }.grant, .item item)) ∨
      (c.ended = false ∧ c.queue = [] ∧ (c.closed = true ∨ c.senders = 0) ∧
        c.receive = ({ c with ended := true }, .finished)) ∨
      (c.ended = false ∧ c.queue = [] ∧ c.closed = false ∧ c.senders ≠ 0 ∧
        c.receive = (c, .waits)) := by
  unfold receive
  cases he : c.ended with
  | true => exact .inl ⟨rfl, if_pos rfl⟩
  | false =>
    refine .inr ?_
    cases hq : c.queue with
    | cons item rest => exact .inl ⟨rfl, item, rest, rfl, rfl⟩
    | nil =>
      refine .inr ?_
      cases hc : c.closed with
      | true => exact .inl ⟨rfl, rfl, .inl rfl, by simp⟩
      | false =>
        by_cases hs : c.senders = 0
        · exact .inl ⟨rfl, rfl, .inr hs, by simp [hs]⟩
        · exact .inr ⟨rfl, rfl, rfl, hs, by simp [hs]⟩

theorem capacity_receive (c : Channel) : c.receive.1.capacity = c.capacity := by
  rcases c.receive_cases with ⟨-, h⟩ | ⟨-, item, rest, -, h⟩ | ⟨-, -, -, h⟩ | ⟨-, -, -, -, h⟩ <;>
    rw [h]
  exact capacity_grant _

theorem Sound.receive (h : c.Sound) {item : Item} {rest : List Item}
    (hq : c.queue = item :: rest) : ({ c with queue := rest }.grant).Sound := by
  have hfits := h.fits
  rw [hq, List.length_cons] at hfits
  refine sound_grant ?_ (fun hw => ?_) h.distinct
  · change rest.length + c.granted.length ≤ c.capacity
    omega
  · have hfull := h.full hw
    rw [hq, List.length_cons] at hfull
    change c.capacity ≤ rest.length + c.granted.length + 1
    omega

theorem line_cancel (c : Channel) (ticket : Nat) :
    (c.cancel ticket).line = c.line.filter (·.ticket ≠ ticket) := by
  rw [cancel, line_grant, line, line, List.filter_append]

theorem length_filter_ticket {ws : List Waiter} (hd : (ws.map Waiter.ticket).Nodup)
    (ticket : Nat) : ws.length ≤ (ws.filter (·.ticket ≠ ticket)).length + 1 := by
  induction ws with
  | nil => simp
  | cons w ws ih =>
    rw [List.map_cons, List.nodup_cons] at hd
    by_cases hw : w.ticket = ticket
    -- tickets are distinct, so nobody behind this one is taken out as well
    · have hall : ws.filter (·.ticket ≠ ticket) = ws := by
        rw [List.filter_eq_self]
        intro v hv
        have hne : v.ticket ≠ ticket := by
          rintro hvt
          exact hd.1 (List.mem_map.mpr ⟨v, hv, hvt.trans hw.symm⟩)
        simpa using hne
      rw [List.filter_cons_of_neg (by simpa using hw), hall]
      exact Nat.le_refl _
    · have := ih hd.2
      rw [List.filter_cons_of_pos (by simpa using hw), List.length_cons, List.length_cons]
      omega

theorem length_filter_of_mem {ws : List Waiter} {w : Waiter} (hw : w ∈ ws) {ticket : Nat}
    (ht : w.ticket = ticket) : (ws.filter (·.ticket ≠ ticket)).length < ws.length := by
  apply List.length_filter_lt_length_iff_exists.mpr
  exact ⟨w, hw, by simpa using ht⟩

theorem Sound.distinct_granted (h : c.Sound) : (c.granted.map Waiter.ticket).Nodup := by
  have hd := h.distinct
  rw [tickets, line, List.map_append] at hd
  exact (List.nodup_append.mp hd).1

theorem nodup_filter_line (h : c.Sound) (ticket : Nat) :
    ((c.line.filter (·.ticket ≠ ticket)).map Waiter.ticket).Nodup :=
  List.Nodup.sublist (List.filter_sublist.map _) h.distinct

theorem Sound.cancel (h : c.Sound) (ticket : Nat) : (c.cancel ticket).Sound := by
  have hle : (c.granted.filter (·.ticket ≠ ticket)).length ≤ c.granted.length :=
    List.length_filter_le _ _
  have hge := length_filter_ticket h.distinct_granted ticket
  have hfits := h.fits
  refine sound_grant ?_ (fun hw => ?_) ?_
  · dsimp only
    omega
  · have hwaiting : c.waiting ≠ [] := by
      intro hnil
      simp [hnil] at hw
    have hfull := h.full hwaiting
    dsimp only
    omega
  · rw [tickets, line, ← List.filter_append]
    exact nodup_filter_line h ticket

theorem Sound.line_withdraw (h : c.Sound) {w : Waiter} (hw : w ∈ c.granted) {ticket : Nat}
    (ht : w.ticket = ticket) :
    (c.withdraw ticket).line = c.line.filter (·.ticket ≠ ticket) := by
  have hwaiting : c.waiting.filter (·.ticket ≠ ticket) = c.waiting := by
    rw [List.filter_eq_self]
    intro v hv
    have hd := h.distinct
    rw [tickets, line, List.map_append, List.nodup_append] at hd
    have hne : v.ticket ≠ ticket := by
      intro hvt
      exact hd.2.2 _ (List.mem_map_of_mem hw) _ (List.mem_map_of_mem hv) (ht.trans hvt.symm)
    simpa using hne
  rw [line, line, List.filter_append, hwaiting]
  rfl

theorem Sound.withdraw_push (h : c.Sound) {w : Waiter} (hw : w ∈ c.granted) {ticket : Nat}
    (ht : w.ticket = ticket) (item : Item) : ((c.withdraw ticket).push item).Sound := by
  have hlt := length_filter_of_mem hw ht
  have hge := length_filter_ticket h.distinct_granted ticket
  have hfits := h.fits
  refine ⟨?_, fun hwaiting => ?_, ?_⟩
  · simp only [Channel.push, withdraw, List.length_append, List.length_singleton]
    omega
  · have hfull := h.full hwaiting
    simp only [Channel.push, withdraw, List.length_append, List.length_singleton]
    omega
  · have hline : ((c.withdraw ticket).push item).line = c.line.filter (·.ticket ≠ ticket) :=
      h.line_withdraw hw ht
    rw [tickets, hline]
    exact nodup_filter_line h ticket

structure LetsGo (c : Channel) (ticket : Nat) (items : List Item) (d : Channel) : Prop where
  queue : d.queue = c.queue ++ items
  line : d.line = c.line.filter (·.ticket ≠ ticket)
  sound : d.Sound
  capacity : d.capacity = c.capacity
  closed : d.closed = c.closed
  ended : d.ended = c.ended
  senders : d.senders = c.senders
  refuses : c.closed = true → items = []

variable {ticket : Nat}

theorem Sound.letsGo_self (h : c.Sound) (hl : c.line.filter (·.ticket ≠ ticket) = c.line) :
    c.LetsGo ticket [] c where
  queue := (List.append_nil _).symm
  line := hl.symm
  sound := h
  capacity := rfl
  closed := rfl
  ended := rfl
  senders := rfl
  refuses _ := rfl

theorem Sound.letsGo_cancel (h : c.Sound) (ticket : Nat) :
    c.LetsGo ticket [] (c.cancel ticket) where
  queue := by rw [queue_cancel, List.append_nil]
  line := line_cancel c ticket
  sound := h.cancel ticket
  capacity := capacity_grant _
  closed := closed_grant _
  ended := ended_grant _
  senders := senders_grant _
  refuses _ := rfl

theorem Sound.letsGo_push (h : c.Sound) (hc : c.closed = false) (hr : 0 < c.room)
    (hl : c.line.filter (·.ticket ≠ ticket) = c.line) (item : Item) :
    c.LetsGo ticket [item] (c.push item) where
  queue := rfl
  line := hl.symm
  sound := h.push hr item
  capacity := rfl
  closed := rfl
  ended := rfl
  senders := rfl
  refuses ht := absurd ht (by simp [hc])

theorem Sound.letsGo_withdraw (h : c.Sound) (hc : c.closed = false) {w : Waiter}
    (hw : w ∈ c.granted) (ht : w.ticket = ticket) :
    c.LetsGo ticket [w.item] ((c.withdraw ticket).push w.item) where
  queue := rfl
  line := h.line_withdraw hw ht
  sound := h.withdraw_push hw ht w.item
  capacity := rfl
  closed := rfl
  ended := rfl
  senders := rfl
  refuses ht := absurd ht (by simp [hc])

end HttpRelay.Relay.Channel
