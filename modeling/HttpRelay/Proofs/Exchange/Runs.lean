import HttpRelay.Exchange.Run

namespace HttpRelay

namespace Run

variable {α β : Type}

theorem bind_of_ok {r : Run α} {a : α} (h : r.outcome = some (.ok a)) (f : α → Run β) :
    r >>= f = (f a).after r.effects := by
  change r.andThen f = _
  rw [andThen, h]

theorem bind_of_error {r : Run α} {e : Failure} (h : r.outcome = some (.error e))
    (f : α → Run β) : r >>= f = ⟨r.effects, some (.error e)⟩ := by
  change r.andThen f = _
  rw [andThen, h]

theorem bind_of_none {r : Run α} (h : r.outcome = none) (f : α → Run β) :
    r >>= f = ⟨r.effects, none⟩ := by
  change r.andThen f = _
  rw [andThen, h]

theorem act_bind (e : Effect) (f : Unit → Run β) : act e >>= f = (f ()).after [e] := rfl

theorem after_bind (es : List Effect) (r : Run α) (f : α → Run β) :
    r.after es >>= f = (r >>= f).after es := by
  have ho : (r.after es).outcome = r.outcome := rfl
  cases h : r.outcome with
  | none => rw [bind_of_none h, bind_of_none (ho.trans h)]; rfl
  | some o =>
    cases o with
    | error e => rw [bind_of_error h, bind_of_error (ho.trans h)]; rfl
    | ok a =>
      rw [bind_of_ok h, bind_of_ok (ho.trans h)]
      simp only [after, List.append_assoc]

theorem bind_assoc {γ : Type} (r : Run α) (f : α → Run β) (g : β → Run γ) :
    (r >>= f) >>= g = r >>= fun a => f a >>= g := by
  cases h : r.outcome with
  | none => rw [bind_of_none h, bind_of_none h, bind_of_none rfl]
  | some o =>
    cases o with
    | error e => rw [bind_of_error h, bind_of_error h, bind_of_error rfl]
    | ok a => rw [bind_of_ok h, bind_of_ok h, after_bind]

theorem bind_pure (r : Run α) (g : α → β) :
    (r >>= fun a => pure (g a)) = ⟨r.effects, r.outcome.map (·.map g)⟩ := by
  cases h : r.outcome with
  | none => rw [bind_of_none h]; rfl
  | some o =>
    cases o with
    | ok a =>
      rw [bind_of_ok h, after]
      simp only [pure, ok, List.append_nil]
      rfl
    | error e => rw [bind_of_error h]; rfl

theorem outcome_bind_ofExcept (r : Run α) (g : α → Except Failure β) :
    (r >>= fun a => ofExcept (g a)).outcome = r.outcome.map (·.bind g) := by
  cases h : r.outcome with
  | none => rw [bind_of_none h]; rfl
  | some o =>
    cases o with
    | error e => rw [bind_of_error h]; rfl
    | ok a => rw [bind_of_ok h]; rfl

def Only (P : Effect → Prop) (r : Run α) : Prop := ∀ e ∈ r.effects, P e

variable {P : Effect → Prop} {r : Run α} {f : α → Run β}

theorem Only.after {es : List Effect} (h : ∀ e ∈ es, P e) (hr : r.Only P) :
    (r.after es).Only P := by
  intro e he
  rcases List.mem_append.mp he with hl | hr'
  · exact h e hl
  · exact hr e hr'

theorem Only.bind (hr : r.Only P) (hf : ∀ a, (f a).Only P) : (r >>= f).Only P := by
  cases h : r.outcome with
  | none =>
    rw [bind_of_none h]
    exact hr
  | some o =>
    cases o with
    | error e =>
      rw [bind_of_error h]
      exact hr
    | ok a =>
      rw [bind_of_ok h]
      exact (hf a).after hr

theorem Only.ofExcept (o : Except Failure α) : (Run.ofExcept o).Only P := by
  intro e he
  exact absurd he List.not_mem_nil

theorem Only.act {e : Effect} (h : P e) : (Run.act e).Only P := by
  intro e' he
  rwa [List.mem_singleton.mp he]

theorem Only.imp {Q : Effect → Prop} (hr : r.Only P) (h : ∀ e, P e → Q e) : r.Only Q :=
  fun e he => h e (hr e he)

theorem bind_error {e : Failure} (h : (r >>= f).outcome = some (.error e)) :
    r.outcome = some (.error e) ∨
      ∃ a, r.outcome = some (.ok a) ∧ (f a).outcome = some (.error e) := by
  cases hr : r.outcome with
  | none =>
    rw [bind_of_none hr] at h
    cases h
  | some o =>
    cases o with
    | error e' =>
      rw [bind_of_error hr] at h
      have he : e' = e := by simpa using h
      exact .inl (by rw [he])
    | ok a =>
      rw [bind_of_ok hr] at h
      exact .inr ⟨a, rfl, h⟩

theorem mapFailure_error {g : Failure → Failure} {e : Failure}
    (h : (r.mapFailure g).outcome = some (.error e)) :
    ∃ e', r.outcome = some (.error e') ∧ g e' = e := by
  cases hr : r.outcome with
  | none =>
    rw [mapFailure, hr] at h
    cases h
  | some o =>
    cases o with
    | ok a =>
      rw [mapFailure, hr] at h
      cases h
    | error e' =>
      rw [mapFailure, hr] at h
      exact ⟨e', rfl, Except.error.inj (Option.some.inj h)⟩

section FailsOnly

variable {Q : Failure → Prop}

def FailsOnly (P : Failure → Prop) (r : Run α) : Prop :=
  ∀ e, r.outcome = some (.error e) → P e

theorem FailsOnly.bind (hr : r.FailsOnly Q) (hf : ∀ a, r.outcome = some (.ok a) →
    (f a).FailsOnly Q) : (r >>= f).FailsOnly Q := by
  intro e h
  rcases bind_error h with hfirst | ⟨a, ha, hrest⟩
  · exact hr e hfirst
  · exact hf a ha e hrest

theorem FailsOnly.ofExcept {o : Except Failure α} (h : ∀ e, o = .error e → Q e) :
    (Run.ofExcept o).FailsOnly Q :=
  fun e he => h e (Option.some.inj he)

theorem FailsOnly.act (e : Effect) : (Run.act e).FailsOnly Q := nofun

theorem FailsOnly.stuck : (Run.stuck : Run α).FailsOnly Q := nofun

theorem FailsOnly.pure (a : α) : (pure a : Run α).FailsOnly Q := nofun

theorem FailsOnly.fail {e : Failure} (h : Q e) : (Run.fail e : Run α).FailsOnly Q := by
  intro e' he
  obtain rfl := Except.error.inj (Option.some.inj he)
  exact h

theorem FailsOnly.imp {Q' : Failure → Prop} (hr : r.FailsOnly Q) (h : ∀ e, Q e → Q' e) :
    r.FailsOnly Q' :=
  fun e he => h e (hr e he)

theorem FailsOnly.mapFailure {g : Failure → Failure} (h : ∀ e, Q (g e)) :
    (r.mapFailure g).FailsOnly Q := by
  intro e he
  obtain ⟨e', -, rfl⟩ := mapFailure_error he
  exact h e'

end FailsOnly

theorem ofExcept_bind (r : Except Failure α) (f : α → Run β) :
    ofExcept r >>= f = match r with
      | .ok a => f a
      | .error e => fail e := by
  cases r <;> rfl

end Run

namespace Effect

theorem fragments_append (es fs : List Effect) :
    fragments (es ++ fs) = fragments es ++ fragments fs := List.filterMap_append

theorem writtenBytes_append (es fs : List Effect) :
    writtenBytes (es ++ fs) = writtenBytes es ++ writtenBytes fs := by
  simp only [writtenBytes, List.filterMap_append, List.flatten_append]

theorem writtenBytes_prefix {es fs : List Effect} (h : es <+: fs) :
    writtenBytes es <+: writtenBytes fs := by
  obtain ⟨rest, rfl⟩ := h
  rw [writtenBytes_append]
  exact List.prefix_append _ _

def IsWire : Effect → Prop
  | .wrote _ | .flushed | .asked | .logged _ => True
  | _ => False

def IsQuiet : Effect → Prop
  | .asked | .logged _ => True
  | _ => False

def IsIntake : Effect → Prop
  | .asked | .logged _ | .fragment _ => True
  | _ => False

theorem IsQuiet.isIntake {e : Effect} (h : e.IsQuiet) : e.IsIntake := by
  cases e <;> trivial

theorem IsQuiet.isWire {e : Effect} (h : e.IsQuiet) : e.IsWire := by
  cases e <;> trivial

theorem writtenBytes_intake {es : List Effect} (h : ∀ e ∈ es, e.IsIntake) :
    writtenBytes es = [] := by
  have hnone : es.filterMap written? = [] := by
    apply List.filterMap_eq_nil_iff.mpr
    intro e he
    have hi := h e he
    cases e with
    | wrote bytes => cases hi
    | _ => rfl
  rw [writtenBytes, hnone, List.flatten_nil]

theorem writtenBytes_quiet {es : List Effect} (h : ∀ e ∈ es, e.IsQuiet) :
    writtenBytes es = [] :=
  writtenBytes_intake fun e he => (h e he).isIntake

theorem fragments_wire {es : List Effect} (h : ∀ e ∈ es, e.IsWire) :
    fragments es = [] := by
  apply List.filterMap_eq_nil_iff.mpr
  intro e he
  have hw := h e he
  cases e with
  | fragment text => cases hw
  | _ => rfl

theorem quiet_logged (records : List Log.Record) :
    ∀ e ∈ records.map Effect.logged, e.IsQuiet := by
  intro e he
  obtain ⟨record, -, rfl⟩ := List.mem_map.mp he
  trivial

end Effect

end HttpRelay
