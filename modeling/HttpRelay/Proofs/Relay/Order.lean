import Mathlib.Data.List.ReduceOption
import HttpRelay.Proofs.Relay.Interleavings

namespace HttpRelay.Relay

open Scheduler (Step Answer Progress advance)

section Lined

variable {tasks before after : List (Nat × Task)} {next slot : Nat} {line : List Waiter}
  {t : Task}

structure Lined (tasks : List (Nat × Task)) (next : Nat) (line : List Waiter) : Prop where
  distinct : (tasks.map Prod.fst).Nodup
  fresh : ∀ x ∈ tasks, x.1 < next
  waiting : ∀ w ∈ line, (w.ticket, .resend w.item) ∈ tasks

theorem Lined.launch (h : Lined tasks next line) (t : Task) :
    Lined (tasks ++ [(next, t)]) (next + 1) line := by
  refine ⟨?_, ?_, fun w hw => List.mem_append_left _ (h.waiting w hw)⟩
  · rw [List.map_append, List.nodup_append]
    refine ⟨h.distinct, by simp, ?_⟩
    intro n hn m hm
    obtain ⟨x, hx, rfl⟩ := List.mem_map.mp hn
    rw [List.map_singleton, List.mem_singleton] at hm
    have := h.fresh x hx
    omega
  · intro x hx
    rcases List.mem_append.mp hx with hx | hx
    · exact Nat.lt_succ_of_lt (h.fresh x hx)
    · rw [List.mem_singleton.mp hx]
      exact Nat.lt_succ_self next

theorem Lined.eq_of_slot (h : Lined (before ++ (slot, t) :: after) next line) {u : Task}
    (hu : (slot, u) ∈ before ++ (slot, t) :: after) : u = t := by
  have hd := h.distinct
  rw [List.map_append, List.map_cons, List.nodup_append, List.nodup_cons] at hd
  rcases List.mem_append.mp hu with hb | ha
  · exact absurd rfl (hd.2.2 slot (List.mem_map.mpr ⟨_, hb, rfl⟩) slot List.mem_cons_self)
  · rcases List.mem_cons.mp ha with he | ha
    · exact (Prod.mk.inj he).2
    · exact absurd (List.mem_map.mpr ⟨_, ha, rfl⟩) hd.2.1.1

theorem Lined.slot_of_mem (h : Lined (before ++ (slot, t) :: after) next line) {x : Nat × Task}
    (hx : x ∈ before ++ after) : x.1 ≠ slot := by
  have hd := h.distinct
  rw [List.map_append, List.map_cons, List.nodup_append, List.nodup_cons] at hd
  rcases List.mem_append.mp hx with hb | ha
  · exact hd.2.2 x.1 (List.mem_map_of_mem hb) slot List.mem_cons_self
  · exact fun he => hd.2.1.1 (List.mem_map.mpr ⟨x, ha, he⟩)

theorem Lined.filter_slot (h : Lined (before ++ (slot, t) :: after) next line) :
    (before ++ (slot, t) :: after).filter (·.1 ≠ slot) = before ++ after := by
  have hall : (before ++ after).filter (·.1 ≠ slot) = before ++ after := by
    rw [List.filter_eq_self]
    intro x hx
    simpa using h.slot_of_mem hx
  rw [List.filter_append, List.filter_cons_of_neg (by simp), ← List.filter_append, hall]

theorem Lined.find_slot (h : Lined (before ++ (slot, t) :: after) next line) :
    (before ++ (slot, t) :: after).find? (·.1 = slot) = some (slot, t) := by
  have hbefore : before.find? (·.1 = slot) = none := by
    rw [List.find?_eq_none]
    intro x hx
    simpa using h.slot_of_mem (List.mem_append_left after hx)
  rw [List.find?_append, hbefore, Option.none_or]
  exact List.find?_cons_of_pos (by simp)

theorem Lined.remove (h : Lined (before ++ (slot, t) :: after) next line) :
    Lined (before ++ after) next (line.filter (·.ticket ≠ slot)) := by
  have hsub : (before ++ after).Sublist (before ++ (slot, t) :: after) :=
    (List.sublist_cons_self _ _).append_left before
  refine ⟨List.Nodup.sublist (hsub.map _) h.distinct, fun x hx => h.fresh x (hsub.subset hx), ?_⟩
  intro w hw
  obtain ⟨hw, hne⟩ := List.mem_filter.mp hw
  rw [← h.filter_slot]
  exact List.mem_filter.mpr ⟨h.waiting w hw, by simpa using hne⟩

theorem Lined.filter_line (h : Lined (before ++ (slot, t) :: after) next line)
    (ht : ∀ item, t ≠ .resend item) : line.filter (·.ticket ≠ slot) = line := by
  rw [List.filter_eq_self]
  intro w hw
  have hne : w.ticket ≠ slot := by
    rintro rfl
    exact ht w.item (h.eq_of_slot (h.waiting w hw)).symm
  simpa using hne

theorem Lined.remove_of_ne (h : Lined (before ++ (slot, t) :: after) next line)
    (ht : ∀ item, t ≠ .resend item) : Lined (before ++ after) next line := by
  have hr := h.remove
  rwa [h.filter_line ht] at hr

theorem Lined.await {item : Item}
    (h : Lined (before ++ (slot, .send item) :: after) next line) :
    Lined (before ++ (slot, .resend item) :: after) next (line ++ [⟨slot, item⟩]) := by
  refine ⟨by simpa using h.distinct, ?_, ?_⟩
  · intro x hx
    rcases List.mem_append.mp hx with hb | ha
    · exact h.fresh x (List.mem_append_left _ hb)
    · rcases List.mem_cons.mp ha with rfl | ha
      · exact h.fresh (slot, .send item) (List.mem_append_right _ List.mem_cons_self)
      · exact h.fresh x (List.mem_append_right _ (List.mem_cons_of_mem _ ha))
  · intro w hw
    rcases List.mem_append.mp hw with hw | hw
    · have hmem := h.waiting w hw
      rcases List.mem_append.mp hmem with hb | ha
      · exact List.mem_append_left _ hb
      · rcases List.mem_cons.mp ha with he | ha
        · exact absurd (Prod.mk.inj he).2 nofun
        · exact List.mem_append_right _ (List.mem_cons_of_mem _ ha)
    · rw [List.mem_singleton.mp hw]
      exact List.mem_append_right _ List.mem_cons_self

theorem countP_senders (before after : List (Nat × Task)) (slot : Nat) (t : Task) :
    (before ++ (slot, t) :: after).countP (·.2.isSenders) =
      (before ++ after).countP (·.2.isSenders) + if t.isSenders then 1 else 0 := by
  rw [List.countP_append, List.countP_cons, List.countP_append]
  exact (Nat.add_assoc _ _ _).symm

end Lined

theorem count_of_hasSender {s : Scheduler} {sender : Nat} (h : s.hasSender sender = true) :
    (s.senders.set sender false).count true + 1 = s.senders.count true := by
  rw [Scheduler.hasSender, List.getD_eq_getElem?_getD] at h
  cases hget : s.senders[sender]? with
  | none => simp [hget] at h
  | some held =>
    obtain ⟨hlt, hheld⟩ := List.getElem?_eq_some_iff.mp hget
    have htrue : held = true := by simpa [hget] using h
    have hpos : 0 < s.senders.count true :=
      List.count_pos_iff.mpr (htrue ▸ hheld ▸ List.getElem_mem hlt)
    rw [List.count_set hlt, hheld, htrue]
    simp only [beq_self_eq_true, if_true, Bool.false_beq, Bool.not_true, Bool.false_eq_true,
      if_false]
    omega

structure Ordered (capacity : Capacity) (h : History) : Prop where
  conserved : h.received ++ h.channel.queue = h.accepted
  capacity_eq : h.channel.capacity = max capacity.val 1
  sound : h.channel.Sound
  lined : Lined h.state.tasks h.state.nextSlot h.channel.line
  senders : h.channel.senders =
    h.state.senders.count true + h.state.tasks.countP (·.2.isSenders)
  ended : h.channel.ended = true →
    h.channel.queue = [] ∧ (h.channel.closed = true ∨ h.channel.senders = 0)
  single : ∀ x ∈ h.state.tasks, ∀ got, x.2 ≠ .collect got

namespace History

variable {capacity : Capacity} {h : History} {before after : List (Nat × Task)} {slot : Nat} {t : Task}

theorem ordered_start (capacity : Capacity) : Ordered capacity (start capacity) where
  conserved := rfl
  capacity_eq := rfl
  sound := Channel.sound_new capacity
  lined := ⟨List.nodup_nil, fun _ hx => absurd hx List.not_mem_nil,
    fun _ hw => absurd hw List.not_mem_nil⟩
  senders := rfl
  ended := nofun
  single := fun _ hx => absurd hx List.not_mem_nil

theorem ended_eq_false (ho : Ordered capacity h) (hc : h.channel.closed = false)
    (hs : 0 < h.channel.senders) : h.channel.ended = false := by
  rw [← Bool.not_eq_true]
  intro he
  rcases (ho.ended he).2 with hclosed | hzero
  · simp [hc] at hclosed
  · omega

theorem split_of_get {place : Nat} {x : Nat × Task} (hget : h.state.tasks[place]? = some x) :
    ∃ before after, h.state.tasks = before ++ x :: after ∧ before.length = place := by
  obtain ⟨hlt, hx⟩ := List.getElem?_eq_some_iff.mp hget
  refine ⟨h.state.tasks.take place, h.state.tasks.drop (place + 1), ?_, ?_⟩
  · rw [← hx, List.getElem_cons_drop, List.take_append_drop]
  · rw [List.length_take]
    omega

theorem poll_of_going {c : Channel} {u : Task} {records : List Log.Record}
    (hs : h.state.tasks = before ++ (slot, t) :: after)
    (ha : advance h.channel slot t = (c, .going u, records)) : h.poll before.length =
      ⟨{ { h.state with channel := c }.note records with
          tasks := before ++ (slot, u) :: after },
        h.accepted ++ t.accepted h.channel slot, h.results⟩ := by
  have hget : h.state.tasks[before.length]? = some (slot, t) := by simp [hs]
  rw [poll, hget]
  simp [ha, Scheduler.note, hs]

theorem poll_of_done {c : Channel} {v : Value} {records : List Log.Record}
    (hs : h.state.tasks = before ++ (slot, t) :: after)
    (ha : advance h.channel slot t = (c, .done v, records)) : h.poll before.length =
      ⟨{ { h.state with channel := c }.note records with tasks := before ++ after }.release t,
        h.accepted ++ t.accepted h.channel slot, h.results ++ v.result⟩ := by
  have hget : h.state.tasks[before.length]? = some (slot, t) := by simp [hs]
  have herase : (before ++ (slot, t) :: after).eraseIdx before.length = before ++ after := by
    rw [List.eraseIdx_append_of_length_le (Nat.le_refl _), Nat.sub_self, List.eraseIdx_zero,
      List.tail_cons]
  rw [poll, hget]
  simp [ha, Scheduler.note, hs, herase]

theorem poll_of_none {place : Nat} (hs : h.state.tasks[place]? = none) : h.poll place = h := by
  rw [poll, hs]

theorem senders_pos (ho : Ordered capacity h) (hs : h.state.tasks = before ++ (slot, t) :: after)
    (ht : t.isSenders = true) : 0 < h.channel.senders := by
  rw [ho.senders, hs, countP_senders, ht, if_pos rfl]
  omega

theorem single_of_split (ho : Ordered capacity h)
    (hs : h.state.tasks = before ++ (slot, t) :: after) :
    ∀ x ∈ before ++ after, ∀ got, x.2 ≠ .collect got := by
  intro x hx
  apply ho.single
  rw [hs]
  exact ((List.sublist_cons_self _ _).append_left before).subset hx

theorem ordered_leave (ho : Ordered capacity h)
    (hs : h.state.tasks = before ++ (slot, t) :: after) (ht : t.isSenders = true)
    {items : List Item} {c : Channel} (hc : h.channel.LetsGo slot items c) {k : History}
    (haccepted : k.accepted = h.accepted ++ items) (hresults : k.results = h.results)
    (hchannel : k.channel = c.dropSender) (htasks : k.state.tasks = before ++ after)
    (hnext : k.state.nextSlot = h.state.nextSlot) (hheld : k.state.senders = h.state.senders) :
    Ordered capacity k where
  conserved := by
    rw [haccepted, ← ho.conserved, received, received, hresults, hchannel, List.append_assoc]
    exact congrArg _ hc.queue
  capacity_eq := by
    rw [hchannel]
    exact hc.capacity.trans ho.capacity_eq
  sound := by
    rw [hchannel]
    exact ⟨hc.sound.fits, hc.sound.full, hc.sound.distinct⟩
  lined := by
    have hline : k.channel.line = h.channel.line.filter (·.ticket ≠ slot) := by
      rw [hchannel]
      exact hc.line
    rw [htasks, hnext, hline]
    exact Lined.remove (hs ▸ ho.lined)
  senders := by
    have hcount := ho.senders
    rw [hs, countP_senders, ht, if_pos rfl] at hcount
    rw [hchannel, htasks, hheld]
    change c.senders - 1 = _
    rw [hc.senders]
    omega
  ended he := by
    rw [hchannel] at he ⊢
    have hended : h.channel.ended = true := hc.ended.symm.trans he
    obtain ⟨hq, hclosed | hzero⟩ := ho.ended hended
    · refine ⟨?_, .inl (hc.closed.trans hclosed)⟩
      change c.queue = []
      rw [hc.queue, hq, hc.refuses hclosed, List.append_nil]
    -- without a close the end is there only when no sender is left, and this one was
    · have := senders_pos ho hs ht
      omega
  single := by
    rw [htasks]
    exact single_of_split ho hs

theorem ordered_call (ho : Ordered capacity h) {k : History} {items : List Item}
    (haccepted : k.accepted = h.accepted ++ items) (hresults : k.results = h.results)
    (hqueue : k.channel.queue = h.channel.queue ++ items)
    (hcapacity : k.channel.capacity = h.channel.capacity) (hsound : k.channel.Sound)
    (hline : k.channel.line = h.channel.line)
    (hended : k.channel.ended = true →
      k.channel.queue = [] ∧ (k.channel.closed = true ∨ k.channel.senders = 0))
    (htasks : k.state.tasks = h.state.tasks) (hnext : k.state.nextSlot = h.state.nextSlot)
    (hsenders : k.channel.senders =
      k.state.senders.count true + h.state.tasks.countP (·.2.isSenders)) :
    Ordered capacity k where
  conserved := by
    rw [received, hresults, hqueue, haccepted, ← ho.conserved, ← List.append_assoc]
    rfl
  capacity_eq := hcapacity.trans ho.capacity_eq
  sound := hsound
  lined := by rw [htasks, hnext, hline]; exact ho.lined
  senders := by rw [htasks]; exact hsenders
  ended := hended
  single := by rw [htasks]; exact ho.single

theorem ordered_idle (ho : Ordered capacity h) {k : History} (haccepted : k.accepted = h.accepted)
    (hresults : k.results = h.results) (hchannel : k.channel = h.channel)
    (htasks : k.state.tasks = h.state.tasks) (hnext : k.state.nextSlot = h.state.nextSlot)
    (hheld : k.state.senders = h.state.senders) : Ordered capacity k := by
  refine ordered_call ho (haccepted.trans (List.append_nil _).symm) hresults ?_ ?_ ?_ ?_ ?_
    htasks hnext ?_ <;> rw [hchannel]
  · exact (List.append_nil _).symm
  · exact ho.sound
  · exact ho.ended
  · rw [hheld]
    exact ho.senders

theorem ordered_await {item : Item} (ho : Ordered capacity h)
    (hs : h.state.tasks = before ++ (slot, .send item) :: after) (hr : h.channel.room = 0)
    {k : History} (haccepted : k.accepted = h.accepted) (hresults : k.results = h.results)
    (hchannel : k.channel = h.channel.await ⟨slot, item⟩)
    (htasks : k.state.tasks = before ++ (slot, .resend item) :: after)
    (hnext : k.state.nextSlot = h.state.nextSlot) (hheld : k.state.senders = h.state.senders) :
    Ordered capacity k where
  conserved := by rw [received, hresults, hchannel, haccepted]; exact ho.conserved
  capacity_eq := by rw [hchannel]; exact ho.capacity_eq
  sound := by
    have hticket : slot ∉ h.channel.tickets := by
      intro hmem
      obtain ⟨w, hw, hslot⟩ := List.mem_map.mp hmem
      have htask := ho.lined.waiting w hw
      rw [hs, hslot] at htask
      exact absurd ((hs ▸ ho.lined).eq_of_slot htask) (by simp)
    rw [hchannel]
    exact ho.sound.await hr hticket
  lined := by
    rw [htasks, hnext, hchannel, Channel.line_await]
    exact Lined.await (hs ▸ ho.lined)
  senders := by
    have hcount := ho.senders
    rw [hs, countP_senders] at hcount
    rw [htasks, hheld, hchannel, countP_senders]
    exact hcount
  ended := by rw [hchannel]; exact ho.ended
  single := by
    intro x hx got
    rw [htasks] at hx
    rcases List.mem_append.mp hx with hb | ha
    · exact single_of_split ho hs x (List.mem_append_left _ hb) got
    · rcases List.mem_cons.mp ha with rfl | ha
      · simp
      · exact single_of_split ho hs x (List.mem_append_right _ ha) got

theorem ordered_poll_send {item : Item} (ho : Ordered capacity h)
    (hs : h.state.tasks = before ++ (slot, .send item) :: after) :
    Ordered capacity (h.poll before.length) := by
  have hline : h.channel.line.filter (·.ticket ≠ slot) = h.channel.line :=
    Lined.filter_line (t := .send item) (hs ▸ ho.lined) (by simp)
  rcases h.channel.send_cases slot item with ⟨-, hsend⟩ | ⟨hc, hr, hsend⟩ | ⟨-, hr, hsend⟩
  · rw [poll_of_done (v := .sent) (c := h.channel) hs (by rw [advance, hsend])]
    refine ordered_leave ho hs rfl (ho.sound.letsGo_self hline) ?_ ?_ rfl rfl rfl rfl
    · simp [Task.accepted, hsend]
    · simp [Value.result]
  · rw [poll_of_done (v := .sent) (c := h.channel.push item) hs (by rw [advance, hsend])]
    refine ordered_leave ho hs rfl (ho.sound.letsGo_push hc hr hline item) ?_ ?_ rfl rfl rfl rfl
    · simp [Task.accepted, hsend]
    · simp [Value.result]
  · rw [poll_of_going hs (by rw [advance, hsend])]
    refine ordered_await ho hs hr ?_ rfl rfl rfl rfl rfl
    simp [Task.accepted, hsend]

theorem ordered_poll_resend {item : Item} (ho : Ordered capacity h)
    (hs : h.state.tasks = before ++ (slot, .resend item) :: after) :
    Ordered capacity (h.poll before.length) := by
  rcases h.channel.resume_cases slot with ⟨-, hres⟩ | ⟨hc, w, hw, ht, hres⟩ | ⟨-, -, hres⟩
  · rw [poll_of_done (v := .sent) (c := h.channel.cancel slot) hs (by rw [advance, hres])]
    refine ordered_leave ho hs rfl (ho.sound.letsGo_cancel slot) ?_ ?_ rfl rfl rfl rfl
    · simp [Task.accepted, hres]
    · simp [Value.result]
  · have hitem : w.item = item := by
      have htask := ho.lined.waiting w (List.mem_append_left _ hw)
      rw [hs, ht] at htask
      exact Task.resend.inj ((hs ▸ ho.lined).eq_of_slot htask)
    rw [poll_of_done (v := .sent) hs (by rw [advance, hres])]
    refine ordered_leave ho hs rfl (ho.sound.letsGo_withdraw hc hw ht) ?_ ?_ rfl rfl rfl rfl
    · simp [Task.accepted, hres, hitem]
    · simp [Value.result]
  · rw [poll_of_going hs (by rw [advance, hres])]
    refine ordered_idle ho ?_ rfl rfl hs.symm rfl rfl
    simp [Task.accepted, hres]

theorem ordered_poll_closed (ho : Ordered capacity h)
    (hs : h.state.tasks = before ++ (slot, .closed) :: after) :
    Ordered capacity (h.poll before.length) := by
  have hline : h.channel.line.filter (·.ticket ≠ slot) = h.channel.line :=
    Lined.filter_line (t := .closed) (hs ▸ ho.lined) (by simp)
  cases hc : h.channel.closed with
  | true =>
    rw [poll_of_done (v := .closed) (c := h.channel) hs (by rw [advance, hc, if_pos rfl])]
    refine ordered_leave ho hs rfl (ho.sound.letsGo_self hline) rfl ?_ rfl rfl rfl rfl
    simp [Value.result]
  | false =>
    rw [poll_of_going (u := .closed) (c := h.channel) hs (by rw [advance, hc]; rfl)]
    exact ordered_idle ho (List.append_nil _) rfl rfl hs.symm rfl rfl

theorem ordered_received (ho : Ordered capacity h)
    (hs : h.state.tasks = before ++ (slot, .receive) :: after) {c : Channel}
    (result : Option Item) (hq : h.channel.queue = result.toList ++ c.queue)
    (hsound : c.Sound) (hline : c.line = h.channel.line)
    (hcapacity : c.capacity = h.channel.capacity) (hsenders : c.senders = h.channel.senders)
    (hended : c.ended = true → c.queue = [] ∧ (c.closed = true ∨ c.senders = 0)) {k : History}
    (haccepted : k.accepted = h.accepted) (hresults : k.results = h.results ++ [result])
    (hchannel : k.channel = c) (htasks : k.state.tasks = before ++ after)
    (hnext : k.state.nextSlot = h.state.nextSlot) (hheld : k.state.senders = h.state.senders) :
    Ordered capacity k where
  conserved := by
    have hone : [result].reduceOption = result.toList := by cases result <;> rfl
    rw [received, hresults, List.reduceOption_append, hone, hchannel, haccepted,
      List.append_assoc, ← hq]
    exact ho.conserved
  capacity_eq := by rw [hchannel, hcapacity]; exact ho.capacity_eq
  sound := by rw [hchannel]; exact hsound
  lined := by
    rw [htasks, hnext, hchannel, hline]
    exact Lined.remove_of_ne (t := .receive) (hs ▸ ho.lined) (by simp)
  senders := by
    have hcount := ho.senders
    rw [hs, countP_senders] at hcount
    rw [hchannel, hsenders, htasks, hheld]
    exact hcount
  ended := by rw [hchannel]; exact hended
  single := by
    rw [htasks]
    exact single_of_split ho hs

theorem ordered_poll_receive (ho : Ordered capacity h)
    (hs : h.state.tasks = before ++ (slot, .receive) :: after) :
    Ordered capacity (h.poll before.length) := by
  rcases h.channel.receive_cases with ⟨he, hrec⟩ | ⟨he, item, rest, hq, hrec⟩ |
    ⟨-, hq, hc, hrec⟩ | ⟨-, -, -, -, hrec⟩
  · rw [poll_of_done (v := .finished) (c := h.channel) hs (by rw [advance, hrec])]
    exact ordered_received ho hs none rfl ho.sound rfl rfl rfl ho.ended
      (List.append_nil _) rfl rfl rfl rfl rfl
  · rw [poll_of_done (v := .item item) hs (by rw [advance, hrec])]
    refine ordered_received ho hs (some item) ?_ (ho.sound.receive hq) ?_ ?_ ?_ ?_
      (List.append_nil _) rfl rfl rfl rfl rfl
    · rw [Channel.queue_grant]
      exact hq
    · exact Channel.line_grant _
    · exact Channel.capacity_grant _
    · exact Channel.senders_grant _
    · intro hended
      rw [Channel.ended_grant] at hended
      exact absurd (he.symm.trans hended) (by simp)
  · rw [poll_of_done (v := .finished) hs (by rw [advance, hrec])]
    exact ordered_received (c := { h.channel with ended := true }) ho hs none rfl
      ⟨ho.sound.fits, ho.sound.full, ho.sound.distinct⟩ rfl rfl rfl (fun _ => ⟨hq, hc⟩)
      (List.append_nil _) rfl rfl rfl rfl rfl
  · rw [poll_of_going hs (by rw [advance, hrec])]
    exact ordered_idle ho (List.append_nil _) rfl rfl hs.symm rfl rfl

theorem ordered_poll (ho : Ordered capacity h) (place : Nat) : Ordered capacity (h.poll place) := by
  cases hget : h.state.tasks[place]? with
  | none => rwa [poll_of_none hget]
  | some x =>
    obtain ⟨slot, t⟩ := x
    obtain ⟨before, after, hs, rfl⟩ := split_of_get hget
    cases t with
    | send item => exact ordered_poll_send ho hs
    | resend item => exact ordered_poll_resend ho hs
    | closed => exact ordered_poll_closed ho hs
    | receive => exact ordered_poll_receive ho hs
    | collect got =>
      have hmem : (slot, .collect got) ∈ h.state.tasks := by
        rw [hs]
        exact List.mem_append_right _ List.mem_cons_self
      exact absurd rfl (ho.single _ hmem got)

theorem drop_of_split (ho : Ordered capacity h)
    (hs : h.state.tasks = before ++ (slot, t) :: after) (ht : t.isSenders = true) :
    h.state.drop slot =
      { h.state with tasks := before ++ after, channel := h.channel.cancel slot }.release t := by
  have hlined := hs ▸ ho.lined
  rw [Scheduler.drop, hs, hlined.find_slot]
  dsimp only
  rw [hlined.filter_slot]
  cases t with
  | receive | collect got => cases ht
  | _ => rfl

theorem giveUp_cases (h : History) (given : Nat) :
    h.turn (.giveUp given) = h ∨
      ∃ before t after, h.state.tasks = before ++ (given, t) :: after ∧ t.isSenders = true ∧
        h.turn (.giveUp given) = { h with state := h.state.drop given } := by
  rw [turn]
  split
  · rename_i hx
    obtain ⟨⟨slot, t⟩, hmem, rfl, ht⟩ := hx
    obtain ⟨before, after, hs⟩ := List.append_of_mem hmem
    exact .inr ⟨before, t, after, hs, ht, rfl⟩
  · exact .inl rfl

theorem ordered_giveUp (ho : Ordered capacity h) (given : Nat) :
    Ordered capacity (h.turn (.giveUp given)) := by
  rcases h.giveUp_cases given with hself | ⟨before, t, after, hs, ht, hgive⟩
  · rwa [hself]
  · have hleave := ho.sound.letsGo_cancel given
    rw [hgive, drop_of_split ho hs ht]
    cases t with
    | receive | collect got => cases ht
    | _ => exact ordered_leave ho hs rfl hleave (List.append_nil _).symm rfl rfl rfl rfl rfl

theorem ordered_launch (ho : Ordered capacity h) (ht : ∀ got, t ≠ .collect got)
    (hended : t.isSenders = true → h.channel.ended = true → h.channel.closed = true)
    {k : History} (haccepted : k.accepted = h.accepted) (hresults : k.results = h.results)
    (hchannel : k.channel = if t.isSenders then h.channel.addSender else h.channel)
    (htasks : k.state.tasks = h.state.tasks ++ [(h.state.nextSlot, t)])
    (hnext : k.state.nextSlot = h.state.nextSlot + 1) (hheld : k.state.senders = h.state.senders) :
    Ordered capacity k := by
  have hcount : k.state.tasks.countP (·.2.isSenders) =
      h.state.tasks.countP (·.2.isSenders) + if t.isSenders then 1 else 0 := by
    rw [htasks, List.countP_append, List.countP_singleton]
  have hlined : Lined k.state.tasks k.state.nextSlot h.channel.line := by
    rw [htasks, hnext]
    exact ho.lined.launch t
  have hsingle : ∀ x ∈ k.state.tasks, ∀ got, x.2 ≠ .collect got := by
    intro x hx got
    rw [htasks] at hx
    rcases List.mem_append.mp hx with hx | hx
    · exact ho.single x hx got
    · rw [List.mem_singleton.mp hx]
      exact ht got
  cases hsender : t.isSenders with
  | true =>
    rw [hsender, if_pos rfl] at hchannel hcount
    refine ⟨?_, ?_, ?_, ?_, ?_, ?_, hsingle⟩ <;> rw [hchannel]
    · rw [received, hresults, haccepted]
      exact ho.conserved
    · exact ho.capacity_eq
    · exact ⟨ho.sound.fits, ho.sound.full, ho.sound.distinct⟩
    · exact hlined
    · rw [hcount, hheld]
      exact congrArg (· + 1) ho.senders
    · intro he
      exact ⟨(ho.ended he).1, .inl (hended hsender he)⟩
  | false =>
    rw [hsender] at hchannel hcount
    refine ⟨?_, ?_, ?_, ?_, ?_, ?_, hsingle⟩ <;> rw [hchannel]
    · rw [received, hresults, haccepted]
      exact ho.conserved
    · exact ho.capacity_eq
    · exact ho.sound
    · exact hlined
    · rw [hcount, hheld]
      exact ho.senders
    · exact ho.ended

theorem ordered_close (ho : Ordered capacity h) {k : History} (haccepted : k.accepted = h.accepted)
    (hresults : k.results = h.results) (hchannel : k.channel = h.channel.close)
    (htasks : k.state.tasks = h.state.tasks) (hnext : k.state.nextSlot = h.state.nextSlot)
    (hheld : k.state.senders = h.state.senders) : Ordered capacity k := by
  refine ordered_call ho (haccepted.trans (List.append_nil _).symm) hresults ?_ ?_ ?_ ?_ ?_
    htasks hnext ?_ <;> rw [hchannel]
  · exact (List.append_nil _).symm
  · rfl
  · exact ⟨ho.sound.fits, ho.sound.full, ho.sound.distinct⟩
  · rfl
  · exact fun he => ⟨(ho.ended he).1, .inl rfl⟩
  · rw [hheld]
    exact ho.senders

theorem ordered_offer (ho : Ordered capacity h) (item : Item)
    (hopen : h.channel.ended = true → h.channel.closed = true) :
    Ordered capacity { h with
      state := (h.state.offer item).1
      accepted := h.accepted ++ if (h.state.offer item).2 = .taken true then [item] else [] } := by
  rcases h.channel.trySend_cases item with ⟨-, hr⟩ | ⟨hc, hroom, hr⟩ | ⟨-, -, hr⟩
  · refine ordered_idle ho ?_ rfl ?_ rfl rfl rfl <;> simp [Scheduler.offer, hr, Scheduler.note]
  · have he : h.channel.ended = false := by
      rw [← Bool.not_eq_true]
      exact fun he => absurd (hopen he) (by simp [hc])
    have haccepted : (if (h.state.offer item).2 = .taken true then [item] else []) = [item] := by
      simp [Scheduler.offer, hr]
    refine ordered_call ho (congrArg (h.accepted ++ ·) haccepted) rfl ?_ ?_ ?_ ?_ ?_ rfl rfl ?_ <;>
      simp only [Scheduler.offer, hr, Scheduler.note]
    · rfl
    · rfl
    · exact ho.sound.push hroom item
    · rfl
    · intro hended
      exact absurd (he.symm.trans hended) (by simp)
    · exact ho.senders
  · refine ordered_idle ho ?_ rfl ?_ rfl rfl rfl <;> simp [Scheduler.offer, hr, Scheduler.note]

theorem closed_of_ended (ho : Ordered capacity h) {sender : Nat}
    (hs : h.state.hasSender sender = true) (he : h.channel.ended = true) :
    h.channel.closed = true := by
  have hcount := count_of_hasSender hs
  have hsenders := ho.senders
  by_contra hc
  rw [Bool.not_eq_true] at hc
  have := ended_eq_false ho hc (by omega)
  simp [this] at he

theorem ordered_act (ho : Ordered capacity h) {t : Step} (ht : (Turn.act t).KeepsConsumer) :
    Ordered capacity (h.turn (.act t)) := by
  have hidle : Ordered capacity { h with accepted := h.accepted ++ [] } :=
    ordered_idle ho (List.append_nil _) rfl rfl rfl rfl rfl
  cases t with
  | collect | cancel | abandon | dropHandle => exact ht.elim
  | receive =>
    rw [turn, Scheduler.act, Scheduler.withHandle]
    split
    · exact ordered_launch (t := .receive) ho (by simp) nofun (List.append_nil _) rfl rfl rfl rfl rfl
    · exact hidle
  | dropGuard guard =>
    rw [turn, Scheduler.act]
    split
    · exact ordered_close ho (List.append_nil _) rfl rfl rfl rfl rfl
    · exact hidle
  | send sender item =>
    rw [turn, Scheduler.act, Scheduler.withSender]
    split
    · rename_i hs
      exact ordered_launch (t := .send item) ho (by simp) (fun _ => closed_of_ended ho hs)
        (List.append_nil _) rfl rfl rfl rfl rfl
    · exact hidle
  | closed sender =>
    rw [turn, Scheduler.act, Scheduler.withSender]
    split
    · rename_i hs
      exact ordered_launch (t := .closed) ho (by simp) (fun _ => closed_of_ended ho hs)
        (List.append_nil _) rfl rfl rfl rfl rfl
    · exact hidle
  | trySend sender item =>
    rw [turn, Scheduler.offered, Scheduler.act, Scheduler.withSender]
    split
    · rename_i hs
      exact ordered_offer ho item (closed_of_ended ho hs)
    · exact hidle
  | close sender =>
    rw [turn, Scheduler.act, Scheduler.withSender]
    split
    · exact ordered_close ho (List.append_nil _) rfl rfl rfl rfl rfl
    · exact hidle
  | clone sender =>
    rw [turn, Scheduler.act, Scheduler.withSender]
    split
    · rename_i hs
      refine ordered_call ho rfl rfl (List.append_nil _).symm rfl
        ⟨ho.sound.fits, ho.sound.full, ho.sound.distinct⟩ rfl ?_ rfl rfl ?_
      · intro he
        have hclosed : h.channel.closed = true := closed_of_ended ho hs he
        exact ⟨(ho.ended he).1, .inl hclosed⟩
      · have hcount := ho.senders
        change h.channel.senders + 1 = (h.state.senders ++ [true]).count true + _
        rw [List.count_append, List.count_singleton_self]
        omega
    · exact hidle
  | dropSender sender =>
    rw [turn, Scheduler.act, Scheduler.withSender]
    split
    · rename_i hs
      refine ordered_call ho rfl rfl (List.append_nil _).symm rfl
        ⟨ho.sound.fits, ho.sound.full, ho.sound.distinct⟩ rfl ?_ rfl rfl ?_
      · intro he
        have hclosed : h.channel.closed = true := closed_of_ended ho hs he
        exact ⟨(ho.ended he).1, .inl hclosed⟩
      · have hcount := ho.senders
        have hheld := count_of_hasSender hs
        change h.channel.senders - 1 = (h.state.senders.set sender false).count true + _
        omega
    · exact hidle
  | guard sender =>
    rw [turn, Scheduler.act, Scheduler.withSender]
    split
    · exact ordered_idle ho (List.append_nil _) rfl rfl rfl rfl rfl
    · exact hidle

theorem ordered_turn (ho : Ordered capacity h) {t : Turn} (ht : t.KeepsConsumer) :
    Ordered capacity (h.turn t) := by
  cases t with
  | act t => exact ordered_act ho ht
  | giveUp slot => exact ordered_giveUp ho slot
  | poll place => exact ordered_poll ho place

theorem ordered_run {ts : List Turn} (ho : Ordered capacity h) (hts : ∀ t ∈ ts, t.KeepsConsumer) :
    Ordered capacity (h.run ts) := by
  induction ts generalizing h with
  | nil => exact ho
  | cons t ts ih =>
    rw [List.forall_mem_cons] at hts
    exact ih (ordered_turn ho hts.1) hts.2

end History

end HttpRelay.Relay
