import HttpRelay.Client
import HttpRelay.Proofs.Exchange.Attempts
import HttpRelay.Proofs.Relay.FeedMoves

namespace HttpRelay

open Relay

def Run.failure? {α : Type} (r : Run α) : Option Category :=
  match r.outcome with
  | some (.error e) => some e.category
  | _ => none

namespace Exchange

variable {α : Type}

def fetchNotes (x : Exchange) : Option (Except Failure α) → List Effect
  | some (.error e) => [.counted e.category, .logged ⟨.warn, .client, x.failureNote e⟩]
  | _ => []

theorem fetch_eq (x : Exchange) (connector : Connector) :
    let r := x.run connector (x.fullRequest.fetch ContentCoding.maxBody)
    x.fetch connector = ⟨r.effects ++ x.fetchNotes r.outcome, r.outcome⟩ := by
  dsimp only
  rw [fetch, Run.onFailure]
  split
  · rename_i e he
    rw [he]
    rfl
  · rename_i hne
    have hnotes : x.fetchNotes (x.run connector
        (x.fullRequest.fetch ContentCoding.maxBody)).outcome = [] := by
      unfold fetchNotes
      split
      · rename_i e he
        exact absurd he (hne e)
      · rfl
    rw [hnotes, List.append_nil]

def fetchFeed (x : Exchange) (connector : Connector) : Feed :=
  let r := x.run connector (x.fullRequest.fetch ContentCoding.maxBody)
  { channel := .new .least
    work := r.effects.map .effect ++ (if r.outcome.isNone then [.hang] else [])
    conclusion := (x.fetchNotes r.outcome).map .effect ++ [.finish]
    cancellation := some []
    effects := []
    replies := [] }

end Exchange

inductive Job where
  | fetch (x : Exchange) (factory : Factory)
  | stream (x : Exchange) (factory : Factory) (expected : UInt16)
  | produce (p : Producer)

namespace Job

def feed (capacity : Capacity) : Job → Feed
  | fetch x factory => x.fetchFeed factory.connector
  | stream x factory expected => x.feed factory.connector expected capacity
  | produce p => p.feed capacity

def failure? : Job → Option Category
  | fetch x factory => (x.fetch factory.connector).failure?
  | stream x factory expected => (x.stream factory.connector expected).failure?
  | produce p => p.message?.map fun _ => .worker

def RunsTwice : Job → Prop
  | fetch x factory => x.RunsTwice factory (x.fullRequest.fetch ContentCoding.maxBody)
  | stream x factory expected => x.RunsTwice factory fun c => x.fullRequest.stream expected c.peer
  | produce _ => False

def attempts (j : Job) : List Effect := Act.outstanding Effect.isMark (j.feed .least).work

def verdict (j : Job) : List Effect := (j.failure?.map Effect.counted).toList

variable {j : Job} {capacity : Capacity}

theorem outstanding_effects (es : List Effect) :
    Act.outstanding Effect.isMark (es.map .effect) = Effect.marks es := by
  have hsome : Act.effect? ∘ Act.effect = some := rfl
  rw [Act.outstanding, List.filterMap_map, hsome, List.filterMap_some]
  rfl

theorem outstanding_acts (es : List Effect) :
    Act.outstanding Effect.isMark (es.map Exchange.act) = Effect.marks es := by
  induction es with
  | nil => rfl
  | cons e es ih =>
    rw [List.map_cons, Act.outstanding_cons, ih]
    cases e <;> rfl

theorem outstanding_hang {α : Type} (o : Option α) :
    Act.outstanding Effect.isMark (if o.isNone then [Act.hang] else []) = [] := by
  split <;> rfl

theorem outstanding_actions (as : List Producer.Action) :
    Act.outstanding Effect.isMark (as.map Producer.Action.act) = [] := by
  induction as with
  | nil => rfl
  | cons a as ih =>
    rw [List.map_cons, Act.outstanding_cons, ih]
    cases a <;> rfl

theorem attempts_job (j : Job) :
    Effect.Attempts j.attempts ∧ (j.attempts.length = 2 ↔ j.RunsTwice) := by
  cases j with
  | fetch x factory =>
    rw [attempts, feed, Exchange.fetchFeed, Act.outstanding_append, outstanding_effects,
      outstanding_hang, List.append_nil]
    exact x.attempts_run factory fun c =>
      (Request.fetch_wire _ _ c).imp fun _ => Effect.IsWire.isInner
  | stream x factory expected =>
    rw [attempts, feed, Exchange.feed, Act.outstanding_append, outstanding_acts,
      outstanding_hang, List.append_nil]
    exact x.attempts_run factory fun c => Request.stream_inner _ _ c.peer
  | produce p =>
    rw [attempts, feed, Producer.feed, outstanding_actions]
    exact ⟨.none, iff_of_false (Nat.zero_ne_add_one 1) id⟩

theorem outstanding_conclusion (j : Job) (capacity : Capacity) :
    Act.outstanding Effect.isMark (j.feed capacity).conclusion = j.verdict := by
  cases j with
  | fetch x factory =>
    rw [feed, Exchange.fetchFeed, verdict, failure?, Run.failure?, Exchange.fetch_eq]
    dsimp only
    rw [Act.outstanding_append, outstanding_effects]
    cases (x.run factory.connector (x.fullRequest.fetch ContentCoding.maxBody)).outcome with
    | none => rfl
    | some o => cases o <;> rfl
  | stream x factory expected =>
    rw [feed, Exchange.feed, verdict, failure?, Run.failure?]
    dsimp only
    cases (x.stream factory.connector expected).outcome with
    | none => rfl
    | some o => cases o <;> rfl
  | produce p =>
    rw [feed, Producer.feed, verdict, failure?]
    dsimp only
    cases p.message? <;> rfl

theorem conclusion_ne_nil (j : Job) (capacity : Capacity) : (j.feed capacity).conclusion ≠ [] := by
  cases j with
  | _ => exact List.append_ne_nil_of_right_ne_nil _ (List.cons_ne_nil _ _)

theorem notesOnly_feed (j : Job) (capacity : Capacity) : (j.feed capacity).NotesOnly := by
  cases j with
  | fetch x factory =>
    intro notice h
    obtain rfl := Option.some.inj h
    exact ⟨[], rfl⟩
  | stream x factory expected =>
    intro notice h
    obtain rfl := Option.some.inj h
    exact ⟨[_], rfl⟩
  | produce p =>
    intro notice h
    cases h

def isFetch : Job → Bool
  | fetch .. => true
  | _ => false

end Job

inductive Status where
  | working
  | concluding
  | cancelled
deriving DecidableEq, Repr

def Status.next (f : Feed) : Status → Status
  | working =>
    if f.work = [] then concluding
    else if f.cancelNotice?.isSome then cancelled
    else working
  | s => s

structure Party where
  job : Job
  view : View
  status : Status

/-- What a job has done for the statistics, and what it is still to do for them. -/
inductive Accounted (j : Job) (f : Feed) : Status → Prop
  | working (hc : Act.outstanding Effect.isMark f.conclusion = j.verdict) (hne : f.conclusion ≠ [])
    (h : Effect.marks f.effects ++ Act.outstanding Effect.isMark f.work = j.attempts) :
    Accounted j f .working
  | concluding (hw : f.work = [])
    (h : Effect.marks f.effects ++ Act.outstanding Effect.isMark f.conclusion =
      j.attempts ++ j.verdict) :
    Accounted j f .concluding
  | cancelled (hp : f.pending = []) (h : Effect.marks f.effects <+: j.attempts) :
    Accounted j f .cancelled

namespace Accounted

variable {j : Job} {f g : Feed} {s : Status} {notice : List Effect}

theorem not_isMark_logged (r : Log.Record) : Effect.isMark (.logged r) = false := rfl

theorem marks_advance {q : Advance} {as : List Act} (h : Act.advance f.channel as = some q) :
    Effect.marks (f.record q).effects ++ Act.outstanding Effect.isMark q.rest =
      Effect.marks f.effects ++ Act.outstanding Effect.isMark as := by
  rw [← Act.filter_advance not_isMark_logged h, ← List.append_assoc]
  exact congrArg (· ++ _) (Effect.marks_append _ _)

theorem start (j : Job) (capacity : Capacity) : Accounted j (j.feed capacity) .working := by
  apply Accounted.working (j.outstanding_conclusion capacity) (j.conclusion_ne_nil capacity)
  cases j <;> rfl

theorem cancel (h : Accounted j f .working) (hn : f.NotesOnly)
    (hnotice : f.cancelNotice? = some notice) : Accounted j (f.cancel notice) .cancelled := by
  cases h with
  | working hc hne hwork =>
    have hnone : Effect.marks notice = [] := by
      have hcount := hn.countP_notice not_isMark_logged hnotice
      exact List.length_eq_zero_iff.mp ((List.countP_eq_length_filter ..).symm.trans hcount)
    refine .cancelled rfl ?_
    have heffects : Effect.marks (f.cancel notice).effects = Effect.marks f.effects := by
      rw [Feed.cancel, Effect.marks_append, hnone, List.append_nil]
    rw [heffects, ← hwork]
    exact List.prefix_append _ _

theorem congr (h : Accounted j f s) (hw : g.work = f.work) (hc : g.conclusion = f.conclusion)
    (he : g.effects = f.effects) : Accounted j g s := by
  cases h with
  | working hconcl hne hwork =>
    apply Accounted.working
    · rwa [hc]
    · rwa [hc]
    · rwa [hw, he]
  | concluding hw' htotal =>
    apply Accounted.concluding (hw.trans hw')
    rwa [hc, he]
  | cancelled hp hprefix =>
    apply Accounted.cancelled
    · rwa [Feed.pending, hw, hc]
    · rwa [he]

theorem conclude (h : Accounted j f .working) (hw : f.work = []) :
    Accounted j f .concluding := by
  cases h with
  | working hconcl hne hwork =>
    apply Accounted.concluding hw
    rw [hw] at hwork
    have hnone : Act.outstanding Effect.isMark [] = [] := rfl
    rw [hconcl, ← hwork, hnone, List.append_nil]

theorem step (h : Accounted j f s) (hn : f.NotesOnly) (hg : f.step = some g) :
    Accounted j g (s.next f) := by
  rcases Feed.step_cases hg with ⟨hw, q, hq, rfl⟩ | ⟨hw, notice, hc, rfl⟩ | ⟨hw, hc, q, hq, rfl⟩
  · have hmarks := marks_advance hq
    have hconcluding : Accounted j f .concluding →
        Accounted j { f.record q with conclusion := q.rest } .concluding := by
      intro hf
      cases hf with
      | concluding _ htotal => exact .concluding hw (hmarks.trans htotal)
    cases h with
    | working hconcl hne hwork =>
      rw [Status.next, if_pos hw]
      exact hconcluding ((Accounted.working hconcl hne hwork).conclude hw)
    | concluding hw' htotal => exact hconcluding (.concluding hw' htotal)
    | cancelled hp =>
      rw [(List.append_eq_nil_iff.mp hp).2] at hq
      cases hq
  · cases h with
    | working hconcl hne hwork =>
      rw [Status.next, if_neg hw, hc]
      exact (Accounted.working hconcl hne hwork).cancel hn hc
    | concluding hw' => exact absurd hw' hw
    | cancelled hp => exact absurd (List.append_eq_nil_iff.mp hp).1 hw
  · cases h with
    | working hconcl hne hwork =>
      rw [Status.next, if_neg hw, hc]
      exact .working hconcl hne ((marks_advance hq).trans hwork)
    | concluding hw' => exact absurd hw' hw
    | cancelled hp => exact absurd (List.append_eq_nil_iff.mp hp).1 hw

theorem wait (h : Accounted j f s) (hg : f.step = none) : Accounted j f (s.next f) := by
  cases h with
  | working hconcl hne hwork =>
    have hworking := Accounted.working hconcl hne hwork
    by_cases hw : f.work = []
    · rw [Status.next, if_pos hw]
      exact hworking.conclude hw
    · have hc : f.cancelNotice? = none := by
        cases hc : f.cancelNotice? with
        | none => rfl
        | some notice => cases (Feed.step_of_notice hw hc).symm.trans hg
      rw [Status.next, if_neg hw, hc]
      exact hworking
  | concluding hw htotal => exact .concluding hw htotal
  | cancelled hp hprefix => exact .cancelled hp hprefix

theorem produce (h : Accounted j f s) (hn : f.NotesOnly) :
    Accounted j (f.step.getD f) (s.next f) := by
  cases hg : f.step with
  | some g => exact h.step hn hg
  | none => exact h.wait hg

theorem insist (h : Accounted j f s) :
    Accounted j (f.insist.getD f) (s.next { f with cancellation := none }) := by
  have hheedless : Accounted j ({ f with cancellation := none } : Feed) s := h.congr rfl rfl rfl
  have hnotes : ({ f with cancellation := none } : Feed).NotesOnly := nofun
  rw [Feed.insist]
  cases hg : ({ f with cancellation := none } : Feed).step with
  | some g => exact (hheedless.step hnotes hg).congr rfl rfl rfl
  | none => exact (hheedless.wait hg).congr rfl rfl rfl

end Accounted

namespace Party

def start (capacity : Capacity) (job : Job) : Party := ⟨job, ⟨job.feed capacity, []⟩, .working⟩

def feed (p : Party) : Feed := p.view.feed

def effects (p : Party) : List Effect := p.feed.effects

def quit (p : Party) : Party :=
  match p.status, p.feed.cancelNotice? with
  | .working, some notice =>
    { p with view := { p.view with feed := p.feed.cancel notice }, status := .cancelled }
  | _, _ => p

def move (p : Party) : Move → Party
  | .produce => { p with view := p.view.move .produce, status := p.status.next p.feed }
  | .insist =>
    { p with
      view := p.view.move .insist, status := p.status.next { p.feed with cancellation := none } }
  | .receive => { p with view := p.view.move .receive }
  | .abandon =>
    let p := { p with view := p.view.move .abandon }
    if p.job.isFetch then p.quit else p

def Finished (p : Party) : Prop := p.feed.pending = []

instance (p : Party) : Decidable p.Finished := inferInstanceAs (Decidable (_ = []))

def failure? (p : Party) : Option Category :=
  if p.status = .concluding then p.job.failure? else none

def runs (p : Party) : Nat := p.effects.countP Effect.isAttempting

structure Sound (p : Party) : Prop where
  notes : p.feed.NotesOnly
  accounted : Accounted p.job p.feed p.status

variable {p : Party}

theorem sound_start (capacity : Capacity) (job : Job) : (start capacity job).Sound :=
  ⟨job.notesOnly_feed capacity, Accounted.start job capacity⟩

theorem sound_quit (h : p.Sound) : p.quit.Sound := by
  unfold quit
  split
  · rename_i notice hs hc
    have haccounted := h.accounted
    rw [hs] at haccounted
    exact ⟨h.notes, haccounted.cancel h.notes hc⟩
  · exact h

theorem sound_move (h : p.Sound) (m : Move) : (p.move m).Sound := by
  have hnotes : (p.view.move m).feed.NotesOnly := by
    exact (View.later_move (p := Effect.isMark) Accounted.not_isMark_logged p.view m).notes h.notes
  cases m with
  | produce => exact ⟨hnotes, h.accounted.produce h.notes⟩
  | insist => exact ⟨hnotes, h.accounted.insist⟩
  | receive => exact ⟨hnotes, h.accounted.congr rfl rfl rfl⟩
  | abandon =>
    have habandoned : Sound { p with view := p.view.move .abandon } :=
      ⟨hnotes, h.accounted.congr rfl rfl rfl⟩
    rw [move]
    dsimp only
    split
    · exact sound_quit habandoned
    · exact habandoned

theorem quit_effects (p : Party) : p.effects <+: p.quit.effects := by
  unfold quit
  split
  · exact List.prefix_append _ _
  · exact List.prefix_refl _

theorem move_effects (p : Party) (m : Move) : p.effects <+: (p.move m).effects := by
  have hview := (p.view.move_grows m).effects
  cases m with
  | produce | insist | receive => exact hview
  | abandon =>
    rw [move]
    dsimp only
    split
    · exact hview.trans (quit_effects { p with view := p.view.move .abandon })
    · exact hview

theorem status_of_finished (h : p.Sound) (hf : p.Finished) :
    p.status = .concluding ∨ p.status = .cancelled := by
  have haccounted := h.accounted
  cases hs : p.status with
  | working =>
    rw [hs] at haccounted
    cases haccounted with
    | working _ hne => exact absurd (List.append_eq_nil_iff.mp hf).2 hne
  | concluding => exact .inl rfl
  | cancelled => exact .inr rfl

theorem failure?_of_cancelled (hs : p.status = .cancelled) : p.failure? = none := by
  rw [failure?, if_neg]
  rw [hs]
  nofun

theorem marks_of_finished (h : p.Sound) (hf : p.Finished) :
    ∃ as, Effect.Attempts as ∧
      Effect.marks p.effects = as ++ (p.failure?.map Effect.counted).toList ∧
      (p.status = .concluding → (as.length = 2 ↔ p.job.RunsTwice)) := by
  obtain ⟨hattempts, htwice⟩ := p.job.attempts_job
  have haccounted := h.accounted
  rcases status_of_finished h hf with hs | hs
  · rw [hs] at haccounted
    cases haccounted with
    | concluding _ htotal =>
      rw [(List.append_eq_nil_iff.mp hf).2] at htotal
      refine ⟨p.job.attempts, hattempts, ?_, fun _ => htwice⟩
      rw [failure?, if_pos hs]
      exact (List.append_nil _).symm.trans htotal
  · rw [hs] at haccounted
    cases haccounted with
    | cancelled _ hprefix =>
      refine ⟨_, hattempts.of_prefix hprefix, ?_, ?_⟩
      · rw [failure?_of_cancelled hs]
        exact (List.append_nil _).symm
      · intro hc
        cases hs.symm.trans hc

section Finished

variable (h : p.Sound) (hf : p.Finished)

include h hf

theorem countP_counted (k : Category) :
    p.effects.countP (Effect.isCounted k) = if p.failure? = some k then 1 else 0 := by
  obtain ⟨as, has, hmarks, -⟩ := marks_of_finished h hf
  have hmark : ∀ e, Effect.isCounted k e = true → e.isMark = true := by
    intro e he
    cases e with
    | counted c => rfl
    | _ => cases he
  rw [← Effect.countP_marks hmark, hmarks, List.countP_append, has.countP_counted, Nat.zero_add]
  cases p.failure? with
  | none => rfl
  | some c => by_cases hc : c = k <;> simp [Effect.isCounted, hc]

theorem runs_eq : ∃ as, Effect.Attempts as ∧ p.runs = as.length ∧
    p.effects.countP Effect.isRepetition = as.countP Effect.isRepetition ∧
    (p.status = .concluding → (as.length = 2 ↔ p.job.RunsTwice)) := by
  obtain ⟨as, has, hmarks, htwice⟩ := marks_of_finished h hf
  refine ⟨as, has, ?_, ?_, htwice⟩
  · have hmark : ∀ e : Effect, e.isAttempting = true → e.isMark = true := by
      intro e he
      cases e with
      | attempting => rfl
      | _ => cases he
    rw [runs, ← Effect.countP_marks hmark, hmarks, List.countP_append, has.countP_attempting]
    cases p.failure? <;> rfl
  · have hmark : ∀ e : Effect, e.isRepetition = true → e.isMark = true := by
      intro e he
      cases e with
      | attempting => rfl
      | _ => cases he
    rw [← Effect.countP_marks hmark, hmarks, List.countP_append]
    cases p.failure? <;> rfl

theorem runs_le : p.runs ≤ 2 := by
  obtain ⟨as, has, hruns, -, -⟩ := runs_eq h hf
  rw [hruns]
  exact has.length_le

theorem countP_repetition :
    p.effects.countP Effect.isRepetition = if p.runs = 2 then 1 else 0 := by
  obtain ⟨as, has, hruns, hcount, -⟩ := runs_eq h hf
  rw [hruns, hcount, has.countP_repetition]

theorem runs_eq_two_iff (hs : p.status = .concluding) : p.runs = 2 ↔ p.job.RunsTwice := by
  obtain ⟨as, -, hruns, -, htwice⟩ := runs_eq h hf
  rw [hruns]
  exact htwice hs

end Finished

end Party

end HttpRelay
