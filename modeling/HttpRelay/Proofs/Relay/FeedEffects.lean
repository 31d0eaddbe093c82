import HttpRelay.Proofs.Relay.FeedSteps

namespace HttpRelay.Relay

variable {p : Effect → Bool} {c d : Channel}

def Act.brings (p : Effect → Bool) : Act → Bool
  | .effect e => p e
  | _ => false

namespace Act

variable {a b : Act} {es : List Effect} {rs : List Reply} {as : List Act}

def effect? : Act → Option Effect
  | .effect e => some e
  | _ => none

def outstanding (p : Effect → Bool) (as : List Act) : List Effect :=
  (as.filterMap effect?).filter p

theorem outstanding_cons (p : Effect → Bool) (a : Act) (as : List Act) :
    outstanding p (a :: as) = outstanding p [a] ++ outstanding p as := by
  rw [outstanding, outstanding, outstanding, ← List.filter_append, ← List.filterMap_append]
  rfl

theorem outstanding_append (p : Effect → Bool) (as bs : List Act) :
    outstanding p (as ++ bs) = outstanding p as ++ outstanding p bs := by
  rw [outstanding, List.filterMap_append, List.filter_append]
  rfl

theorem length_outstanding (p : Effect → Bool) (as : List Act) :
    (outstanding p as).length = as.countP (brings p) := by
  induction as with
  | nil => rfl
  | cons a as ih =>
    rw [outstanding_cons, List.length_append, ih, List.countP_cons, Nat.add_comm]
    cases a with
    | effect e => cases h : p e <;> simp [outstanding, effect?, brings, h]
    | _ => rfl

theorem filter_logged (hp : ∀ r, p (.logged r) = false) (rs : List Log.Record) :
    (rs.map Effect.logged).filter p = [] := by
  apply List.filter_eq_nil_iff.mpr
  intro e he
  obtain ⟨r, -, rfl⟩ := List.mem_map.mp he
  simp [hp r]

theorem countP_logged (hp : ∀ r, p (.logged r) = false) (rs : List Log.Record) :
    (rs.map Effect.logged).countP p = 0 := by
  rw [List.countP_eq_length_filter, filter_logged hp]
  rfl

theorem filter_perform (hp : ∀ r, p (.logged r) = false) (h : a.perform c = .done d es rs) :
    es.filter p = outstanding p [a] := by
  cases a with
  | effect e =>
    simp only [perform, Deed.done.injEq] at h
    rw [← h.2.1]
    rfl
  | send item =>
    simp only [perform] at h
    split at h <;> simp only [Deed.done.injEq, reduceCtorEq] at h
    · rw [← h.2.1]
      rfl
    · rw [← h.2.1]
      exact filter_logged hp [_]
  | resend item =>
    simp only [perform] at h
    split at h <;> simp only [Deed.done.injEq, reduceCtorEq] at h
    rw [← h.2.1]
    rfl
  | offer text =>
    simp only [perform] at h
    split at h <;> simp only [Deed.done.injEq] at h
    · rw [← h.2.1]
      rfl
    · rw [← h.2.1]
      exact filter_logged hp [_]
    · rw [← h.2.1]
      rfl
  | close =>
    simp only [perform, Deed.done.injEq] at h
    rw [← h.2.1]
    exact filter_logged hp _
  | awaitClose =>
    simp only [perform] at h
    split at h <;> simp only [Deed.done.injEq, reduceCtorEq] at h
    rw [← h.2.1]
    rfl
  | hang => simp [perform] at h
  | ask | finish =>
    simp only [perform, Deed.done.injEq] at h
    rw [← h.2.1]
    rfl

theorem outstanding_of_queued (h : a.perform c = .queued d b) :
    outstanding p [b] = outstanding p [a] := by
  cases a with
  | send item =>
    simp only [perform] at h
    split at h <;> simp only [Deed.queued.injEq, reduceCtorEq] at h
    rw [← h.2]
    rfl
  | resend item => simp only [perform] at h; split at h <;> simp at h
  | offer text => simp only [perform] at h; split at h <;> simp at h
  | awaitClose => simp only [perform] at h; split at h <;> simp at h
  | _ => simp [perform] at h

theorem filter_advance (hp : ∀ r, p (.logged r) = false) {q : Advance}
    (h : advance c as = some q) :
    q.effects.filter p ++ outstanding p q.rest = outstanding p as := by
  cases as with
  | nil => cases h
  | cons a as =>
    rw [outstanding_cons]
    simp only [advance] at h
    split at h
    · rename_i heq
      obtain rfl := Option.some.inj h
      rw [filter_perform hp heq]
    · rename_i heq
      obtain rfl := Option.some.inj h
      dsimp only
      rw [outstanding_cons, outstanding_of_queued heq]
      rfl
    · cases h

theorem countP_advance (hp : ∀ r, p (.logged r) = false) {q : Advance}
    (h : advance c as = some q) :
    q.effects.countP p + q.rest.countP (brings p) = as.countP (brings p) := by
  rw [← length_outstanding, ← length_outstanding, ← filter_advance hp h, List.length_append,
    List.countP_eq_length_filter]

end Act

namespace Feed

variable {f g : Feed}

def due (p : Effect → Bool) (f : Feed) : Nat :=
  f.effects.countP p + f.work.countP (Act.brings p) + f.conclusion.countP (Act.brings p)

def NotesOnly (f : Feed) : Prop :=
  ∀ notice, f.cancellation = some notice → ∃ rs : List Log.Record, notice = rs.map .logged

theorem NotesOnly.countP_notice (hp : ∀ r, p (.logged r) = false) (hn : f.NotesOnly)
    {notice : List Effect} (h : f.cancelNotice? = some notice) : notice.countP p = 0 := by
  unfold cancelNotice? at h
  split at h
  · obtain ⟨rs, rfl⟩ := hn notice h
    exact Act.countP_logged hp rs
  · simp at h

theorem step_keeps (hp : ∀ r, p (.logged r) = false) (hn : f.NotesOnly) (h : f.step = some g) :
    g.NotesOnly ∧ g.due p ≤ f.due p := by
  rcases step_cases h with ⟨hw, q, hq, rfl⟩ | ⟨-, notice, hc, rfl⟩ | ⟨-, -, q, hq, rfl⟩
  · have := Act.countP_advance hp hq
    refine ⟨hn, ?_⟩
    simp only [due, record, hw, List.countP_append, List.countP_nil]
    omega
  · have hnotice := hn.countP_notice hp hc
    refine ⟨hn, ?_⟩
    simp only [due, cancel, List.countP_append, hnotice, List.countP_nil]
    omega
  · have := Act.countP_advance hp hq
    refine ⟨hn, ?_⟩
    simp only [due, record, List.countP_append]
    omega

structure Later (p : Effect → Bool) (f g : Feed) : Prop where
  notes : f.NotesOnly → g.NotesOnly
  due_le : f.NotesOnly → g.due p ≤ f.due p

theorem Later.rfl : Later p f f := ⟨id, fun _ => Nat.le_refl _⟩

theorem Later.trans {k : Feed} (h : Later p f g) (h' : Later p g k) : Later p f k :=
  ⟨fun hn => h'.notes (h.notes hn), fun hn => Nat.le_trans (h'.due_le (h.notes hn)) (h.due_le hn)⟩

theorem later_channel (f : Feed) (c : Channel) : Later p f { f with channel := c } :=
  ⟨id, fun _ => Nat.le_refl _⟩

variable (hp : ∀ r, p (.logged r) = false)

include hp

theorem later_step (h : f.step = some g) : Later p f g :=
  ⟨fun hn => (step_keeps hp hn h).1, fun hn => (step_keeps hp hn h).2⟩

theorem later_settle (f : Feed) : Later p f f.settle := by
  fun_induction settle f with
  | case1 f g h ih => exact (later_step hp h).trans ih
  | case2 => exact .rfl

theorem later_receive (f : Feed) : Later p f f.receive.1 := by
  unfold receive
  split
  · exact (later_settle hp f).trans (later_channel _ _)
  · exact later_channel _ _

theorem later_take (f : Feed) (n : Nat) : Later p f (f.take n).1 := by
  induction n generalizing f with
  | zero => exact .rfl
  | succ n ih =>
    have hr := later_receive hp f
    rw [take]
    split
    · rename_i g i heq
      rw [heq] at hr
      exact hr.trans (ih g)
    · rename_i g r _ heq
      rw [heq] at hr
      exact hr

theorem later_collect (f : Feed) : Later p f f.collect.1 := by
  fun_induction collect f with
  | case1 f c i h g items hc ih =>
    rw [hc] at ih
    exact (later_channel f c).trans ih
  | case2 => exact later_channel _ _
  | case3 f c h g hs ih => exact (later_step hp hs).trans ih
  | case4 => exact .rfl

theorem later_consume (f : Feed) (count : Nat) (wish : Wish) :
    Later p f (f.consume count wish).1 := by
  have htake := (later_settle hp f).trans (later_take hp f.settle count)
  cases wish with
  | collect => exact (htake.trans (later_collect hp _)).trans (later_settle hp _)
  | close =>
    have htake' := htake.trans (later_channel _ (f.settle.take count).1.channel.abandon)
    exact (htake'.trans (later_take hp _ 1)).trans (later_settle hp _)
  | leave =>
    have htake' := htake.trans (later_channel _ (f.settle.take count).1.channel.abandon)
    exact htake'.trans (later_settle hp _)

end Feed

end HttpRelay.Relay
