import HttpRelay.Proofs.Exchange.Factories

namespace HttpRelay

namespace Effect

def isAttempting : Effect → Bool
  | attempting .. => true
  | _ => false

def isRepetition : Effect → Bool
  | attempting .reconnect _ => true
  | _ => false

def isCounted (k : Category) : Effect → Bool
  | counted c => c = k
  | _ => false

def isMark : Effect → Bool
  | attempting .. | counted _ => true
  | _ => false

def marks (es : List Effect) : List Effect := es.filter isMark

theorem marks_append (es fs : List Effect) : marks (es ++ fs) = marks es ++ marks fs :=
  List.filter_append es fs

theorem countP_marks {q : Effect → Bool} (hq : ∀ e, q e = true → e.isMark = true)
    (es : List Effect) : (marks es).countP q = es.countP q := by
  rw [marks, List.countP_filter]
  apply List.countP_congr
  intro e _
  rw [Bool.and_eq_true]
  exact ⟨fun h => h.1, fun h => ⟨h, hq e h⟩⟩

theorem marks_inner {es : List Effect} (h : ∀ e ∈ es, e.IsInner) : marks es = [] := by
  apply List.filter_eq_nil_iff.mpr
  intro e he
  have hi := h e he
  cases e with
  | attempting | counted => cases hi
  | _ => exact Bool.false_ne_true

theorem Announced.marks {es : List Effect} (h : Announced es) : marks es = [] := by
  obtain ⟨target, proxy, rest, rfl, hw⟩ := h
  change Effect.marks rest = []
  exact marks_inner fun e he => (hw e he).isInner

inductive Attempts : List Effect → Prop
  | none : Attempts []
  | once (tunnelled : Bool) : Attempts [.attempting .initial tunnelled]
  | twice (tunnelled again : Bool) :
    Attempts [.attempting .initial tunnelled, .attempting .reconnect again]

theorem Attempts.of_prefix {es fs : List Effect} (h : Attempts fs) (hp : es <+: fs) :
    Attempts es := by
  cases h with
  | none =>
    rw [List.prefix_nil.mp hp]
    exact .none
  | once tunnelled =>
    rcases List.prefix_cons_iff.mp hp with rfl | ⟨t, rfl, ht⟩
    · exact .none
    · rw [List.prefix_nil.mp ht]
      exact .once tunnelled
  | twice tunnelled again =>
    rcases List.prefix_cons_iff.mp hp with rfl | ⟨t, rfl, ht⟩
    · exact .none
    · rcases List.prefix_cons_iff.mp ht with rfl | ⟨u, rfl, hu⟩
      · exact .once tunnelled
      · rw [List.prefix_nil.mp hu]
        exact .twice tunnelled again

section Attempts

variable {es : List Effect}

theorem Attempts.length_le (h : Attempts es) : es.length ≤ 2 := by
  cases h with
  | none => exact Nat.zero_le 2
  | once => exact Nat.le_succ 1
  | twice => exact Nat.le_refl 2

theorem Attempts.countP_attempting (h : Attempts es) : es.countP isAttempting = es.length := by
  cases h <;> rfl

theorem Attempts.countP_repetition (h : Attempts es) :
    es.countP isRepetition = if es.length = 2 then 1 else 0 := by
  cases h <;> rfl

theorem Attempts.countP_counted (h : Attempts es) (k : Category) :
    es.countP (isCounted k) = 0 := by
  cases h <;> rfl

end Attempts

end Effect

namespace Reconnect

variable {α : Type} {connect : Attempt → Run Connection} {op : Connection → Run α}

def attempted (connect : Attempt → Run Connection) (a : Attempt) : List Effect :=
  match (connect a).outcome with
  | some (.ok c) => [.attempting a c.tunnelHead.isSome]
  | _ => []

theorem attempted_cases (connect : Attempt → Run Connection) (a : Attempt) :
    (∃ c, (connect a).outcome = some (.ok c) ∧
      attempted connect a = [.attempting a c.tunnelHead.isSome]) ∨
    ((∀ c, (connect a).outcome ≠ some (.ok c)) ∧ attempted connect a = []) := by
  unfold attempted
  cases (connect a).outcome with
  | none =>
    refine .inr ⟨?_, rfl⟩
    intro c hc
    cases hc
  | some o =>
    cases o with
    | error e =>
      refine .inr ⟨?_, rfl⟩
      intro c hc
      cases hc
    | ok c => exact .inl ⟨c, rfl, rfl⟩

section Marks

variable (hconnect : ∀ a, Effect.Announced (connect a).effects)
  (hop : ∀ c, (op c).Only Effect.IsInner)

include hconnect hop

theorem marks_once (a : Attempt) :
    Effect.marks (once connect op a).effects = attempted connect a := by
  unfold attempted
  cases hc : (connect a).outcome with
  | none =>
    rw [once, Run.bind_of_none hc]
    exact (hconnect a).marks
  | some o =>
    cases o with
    | error e =>
      rw [once, Run.bind_of_error hc]
      exact (hconnect a).marks
    | ok c =>
      have hattempt : Effect.marks (attempt (fun _ c => op c) a c).effects =
          .attempting a c.tunnelHead.isSome :: Effect.marks (op c).effects := rfl
      rw [once, Run.bind_of_ok hc, Run.after, Effect.marks_append, (hconnect a).marks, hattempt,
        Effect.marks_inner (hop c)]
      rfl

theorem marks_of_abandoned (target : Endpoint) {c : Connection}
    (hc : (connect .initial).outcome = some (.ok c))
    (ho : (op c).outcome = some (.error .unexpectedClose)) :
    Effect.marks (withReconnect target connect fun _ c => op c).effects =
      .attempting .initial c.tunnelHead.isSome :: attempted connect .reconnect := by
  have hfirst : Effect.marks (.attempting .initial c.tunnelHead.isSome :: (op c).effects) =
      .attempting .initial c.tunnelHead.isSome :: Effect.marks (op c).effects := rfl
  have hwarning : Effect.marks (warning target).effects = [] := rfl
  rw [withReconnect_of_abandoned target hc ho, Run.after, Run.after, Run.after,
    Effect.marks_append, Effect.marks_append, Effect.marks_append, (hconnect .initial).marks,
    hfirst, Effect.marks_inner (hop c), hwarning, marks_once hconnect hop]
  rfl

theorem marks_of_not_abandoned (target : Endpoint) (h : ¬ Abandoned connect op) :
    Effect.marks (withReconnect target connect fun _ c => op c).effects =
      attempted connect .initial := by
  rw [withReconnect_of_not_abandoned target h, marks_once hconnect hop]

theorem attempts_withReconnect (target : Endpoint) :
    Effect.Attempts (Effect.marks (withReconnect target connect fun _ c => op c).effects) ∧
      ((Effect.marks (withReconnect target connect fun _ c => op c).effects).length = 2 ↔
        Abandoned connect op ∧ ∃ c, (connect .reconnect).outcome = some (.ok c)) := by
  by_cases h : Abandoned connect op
  · obtain ⟨c, hc, ho⟩ := h
    rw [marks_of_abandoned hconnect hop target hc ho]
    rcases attempted_cases connect .reconnect with ⟨d, hd, hagain⟩ | ⟨hnone, hagain⟩
    · rw [hagain]
      exact ⟨.twice _ _, iff_of_true rfl ⟨⟨c, hc, ho⟩, d, hd⟩⟩
    · rw [hagain]
      refine ⟨.once _, iff_of_false (Nat.succ_ne_succ_iff.mpr Nat.zero_ne_one) ?_⟩
      rintro ⟨-, d, hd⟩
      exact hnone d hd
  · rw [marks_of_not_abandoned hconnect hop target h]
    rcases attempted_cases connect .initial with ⟨c, -, hfirst⟩ | ⟨-, hfirst⟩
    · rw [hfirst]
      exact ⟨.once _, iff_of_false (Nat.succ_ne_succ_iff.mpr Nat.zero_ne_one) fun hr => h hr.1⟩
    · rw [hfirst]
      exact ⟨.none, iff_of_false (Nat.zero_ne_add_one 1) fun hr => h hr.1⟩

end Marks

end Reconnect

namespace Exchange

def RunsTwice {α : Type} (x : Exchange) (factory : Factory) (op : Connection → Run α) : Prop :=
  ∃ proxy c, x.prepare = .ok proxy ∧
    Reconnect.Abandoned (fun a => factory.connector a x.target proxy) op ∧
    (factory.connector .reconnect x.target proxy).outcome = some (.ok c)

theorem attempts_run {α : Type} (x : Exchange) (factory : Factory) {op : Connection → Run α}
    (hop : ∀ c, (op c).Only Effect.IsInner) :
    Effect.Attempts (Effect.marks (x.run factory.connector op).effects) ∧
      ((Effect.marks (x.run factory.connector op).effects).length = 2 ↔
        x.RunsTwice factory op) := by
  cases hp : x.prepare with
  | error e =>
    rw [run_of_refused hp]
    refine ⟨.none, iff_of_false (Nat.zero_ne_add_one 1) ?_⟩
    rintro ⟨proxy, c, hproxy, -⟩
    cases hp.symm.trans hproxy
  | ok proxy =>
    obtain ⟨hattempts, htwice⟩ := Reconnect.attempts_withReconnect
      (fun a => factory.announced a x.target proxy) hop x.target
    rw [run_of_prepared hp]
    refine ⟨hattempts, htwice.trans ?_⟩
    constructor
    · rintro ⟨habandoned, c, hc⟩
      exact ⟨proxy, c, hp, habandoned, hc⟩
    · rintro ⟨proxy', c, hproxy, habandoned, hc⟩
      cases hp.symm.trans hproxy
      exact ⟨habandoned, c, hc⟩

end Exchange

end HttpRelay
