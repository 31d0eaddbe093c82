import HttpRelay.Proofs.Client.Traffic
import HttpRelay.Proofs.Relay.ConsumerRuns

namespace HttpRelay

open Relay

namespace Relay.Feed

variable {f g k : Feed} {rest : List Act}

def Produces (f g : Feed) : Prop :=
  ∃ n, View.run ⟨f, []⟩ (List.replicate n .produce) = ⟨g, []⟩

theorem produces_refl (f : Feed) : f.Produces f := ⟨0, rfl⟩

theorem produces_step (hs : f.step = some g) : f.Produces g := by
  refine ⟨1, ?_⟩
  rw [List.replicate_one, View.run, List.foldl_cons, View.move, hs]
  rfl

theorem Produces.trans (h : f.Produces g) (h' : g.Produces k) : f.Produces k := by
  obtain ⟨m, hm⟩ := h
  obtain ⟨n, hn⟩ := h'
  refine ⟨m + n, ?_⟩
  rw [List.replicate_add, View.run, List.foldl_append]
  exact (congrArg (View.run · _) hm).trans hn

theorem produces_work (es : List Effect) (hc : f.cancelNotice? = none)
    (hw : f.work = es.map .effect ++ rest) :
    f.Produces { f with work := rest, effects := f.effects ++ es } := by
  induction es generalizing f with
  | nil =>
    rw [List.append_nil, ← show f.work = rest from hw]
    exact produces_refl f
  | cons e es ih =>
    have hstep : f.step =
        some { f with work := es.map .effect ++ rest, effects := f.effects ++ [e] } := by
      have hne : f.work ≠ [] := by
        rw [hw]
        exact List.cons_ne_nil _ _
      rw [step_of_working hne hc, hw, List.map_cons, List.cons_append, advance_effect]
      simp [record]
    have hrest := ih (f := { f with
      work := es.map .effect ++ rest, effects := f.effects ++ [e] }) hc rfl
    rw [List.append_cons]
    exact (produces_step hstep).trans hrest

theorem produces_conclusion (es : List Effect) (hw : f.work = [])
    (hc : f.conclusion = es.map .effect ++ rest) :
    f.Produces { f with conclusion := rest, effects := f.effects ++ es } := by
  induction es generalizing f with
  | nil =>
    rw [List.append_nil, ← show f.conclusion = rest from hc]
    exact produces_refl f
  | cons e es ih =>
    have hstep : f.step =
        some { f with conclusion := es.map .effect ++ rest, effects := f.effects ++ [e] } := by
      rw [step_of_done hw, hc, List.map_cons, List.cons_append, advance_effect]
      simp [record]
    have hrest := ih (f := { f with
      conclusion := es.map .effect ++ rest, effects := f.effects ++ [e] }) hw rfl
    rw [List.append_cons]
    exact (produces_step hstep).trans hrest

end Relay.Feed

theorem Exchange.fetchFeed_produces (x : Exchange) (connector : Connector) :
    ∃ f : Feed, (x.fetchFeed connector).Produces f ∧ f.effects = (x.fetch connector).effects := by
  have hwork := Feed.produces_work (f := x.fetchFeed connector) _ rfl rfl
  rw [fetch_eq]
  cases ho : (x.run connector (x.fullRequest.fetch ContentCoding.maxBody)).outcome with
  | none => exact ⟨_, hwork, (List.append_nil _).symm⟩
  | some o =>
    have hdone : (if (some o).isNone then [Act.hang] else []) = [] := rfl
    rw [ho, hdone] at hwork
    have hconclusion : (x.fetchFeed connector).conclusion =
        (x.fetchNotes (some o)).map .effect ++ [.finish] := by
      rw [← ho]
      rfl
    exact ⟨_, hwork.trans (Feed.produces_conclusion _ rfl hconclusion), rfl⟩

namespace Party

def run (p : Party) (ms : List Move) : Party := ms.foldl move p

theorem quit_job (p : Party) : p.quit.job = p.job := by
  unfold quit
  split <;> rfl

theorem move_job (p : Party) (m : Move) : (p.move m).job = p.job := by
  cases m with
  | produce | insist | receive => rfl
  | abandon =>
    rw [move]
    dsimp only
    split
    · exact quit_job _
    · rfl

theorem run_view {p : Party} {ms : List Move}
    (h : p.job.isFetch = false ∨ .abandon ∉ ms) : (p.run ms).view = p.view.run ms := by
  induction ms generalizing p with
  | nil => rfl
  | cons m ms ih =>
    have hview : (p.move m).view = p.view.move m := by
      cases m with
      | produce | insist | receive => rfl
      | abandon =>
        have hfetch : p.job.isFetch = false := by
          apply h.resolve_right
          exact not_not_intro List.mem_cons_self
        rw [move]
        dsimp only
        rw [hfetch]
        rfl
    rw [run, List.foldl_cons, View.run, List.foldl_cons, ← hview]
    apply ih
    rw [move_job]
    exact h.imp_right fun hm hmem => hm (List.mem_cons_of_mem _ hmem)

end Party

namespace Traffic

variable {t : Traffic} {c : Client} {ps : List Party} {p : Party}

structure Follows (t : Traffic) (c : Client) : Prop where
  clients : 0 < t.clients
  capacity : t.capacity = c.capacity
  stats : t.stats = c.stats

structure Serves (t : Traffic) (c : Client) (ps : List Party) (p : Party) : Prop where
  clients : 0 < t.clients
  capacity : t.capacity = c.capacity
  stats : t.stats = c.stats.noteAll p.effects
  parties : t.parties = ps ++ [p]

theorem follows_ofClient (c : Client) : (ofClient c).Follows c :=
  ⟨Nat.one_pos, rfl, rfl⟩

theorem serves_start (h : t.Follows c) (j : Job) :
    (t.turn (.start 0 j)).Serves c t.parties (.start c.capacity j) := by
  have hstats : c.stats.noteAll (Party.start c.capacity j).effects = c.stats := by
    cases j <;> rfl
  rw [turn, if_pos h.clients, h.capacity]
  exact ⟨h.clients, rfl, h.stats.trans hstats.symm, rfl⟩

theorem serves_move (h : t.Serves c ps p) (m : Move) :
    (t.turn (.move ps.length m)).Serves c ps (p.move m) := by
  have hget : t.parties[ps.length]? = some p := by
    rw [h.parties]
    exact List.getElem?_concat_length
  obtain ⟨more, hmore⟩ := p.move_effects m
  rw [turn, goOn, hget]
  dsimp only
  constructor
  · exact h.clients
  · exact h.capacity
  · rw [h.stats, ← hmore, List.drop_left, Stats.noteAll, Stats.noteAll, Stats.noteAll,
      List.foldl_append]
  · rw [h.parties, List.set_append_right _ _ (Nat.le_refl _), Nat.sub_self]
    rfl

theorem serves_run (h : t.Serves c ps p) (ms : List Move) :
    (t.run (ms.map (.move ps.length))).Serves c ps (p.run ms) := by
  induction ms generalizing t p with
  | nil => exact h
  | cons m ms ih => exact ih (serves_move h m)

theorem follows_job (h : t.Follows c) (j : Job) (ms : List Move) :
    ∃ ts, (t.run ts).Follows (c.note ((Party.start c.capacity j).run ms).effects) := by
  have hserves := serves_run (serves_start h j) ms
  refine ⟨.start 0 j :: ms.map (.move t.parties.length), ?_⟩
  exact ⟨hserves.clients, hserves.capacity, hserves.stats⟩

theorem follows_fetch (h : t.Follows c) (factory : Factory) (x : Exchange) :
    ∃ ts, (t.run ts).Follows (c.fetch factory.connector x).1 := by
  obtain ⟨f, ⟨n, hrun⟩, heffects⟩ := x.fetchFeed_produces factory.connector
  have hview : ((Party.start c.capacity (.fetch x factory)).run (List.replicate n .produce)).view =
      ⟨f, []⟩ := by
    refine (Party.run_view (.inr ?_)).trans hrun
    intro hmem
    cases List.eq_of_mem_replicate hmem
  have hfollows := follows_job h (.fetch x factory) (List.replicate n .produce)
  rw [Party.effects, Party.feed, hview, heffects] at hfollows
  exact hfollows

theorem follows_consume (h : t.Follows c) {j : Job} (hj : j.isFetch = false) (count : Nat)
    (wish : Feed.Wish) :
    ∃ ts, (t.run ts).Follows (c.note ((j.feed c.capacity).consume count wish).1.effects) := by
  obtain ⟨ms, added, hrun, -⟩ := Feed.reaches_consume (j.feed c.capacity) count wish []
  have hview := (Party.run_view (.inl hj) : ((Party.start c.capacity j).run ms).view = _).trans hrun
  have hfollows := follows_job h j ms
  rw [Party.effects, Party.feed, hview] at hfollows
  exact hfollows

inductive Session : Client → Client → Prop
  | none (c : Client) : Session c c
  | fetch {c d : Client} (h : Session c d) (factory : Factory) (x : Exchange) :
    Session c (d.fetch factory.connector x).1
  | stream {c d : Client} (h : Session c d) (factory : Factory) (x : Exchange)
    (expected : UInt16) (count : Nat) (wish : Feed.Wish) :
    Session c (d.stream factory.connector x expected count wish).1
  | produce {c d : Client} (h : Session c d) (job : Nat) (p : Producer) (count : Nat)
    (wish : Feed.Wish) : Session c (d.produce job p count wish).1

theorem run_append (t : Traffic) (ts us : List Turn) : t.run (ts ++ us) = (t.run ts).run us :=
  List.foldl_append

theorem follows_session {d : Client} (h : Session c d) :
    ∃ ts, ((ofClient c).run ts).Follows d := by
  induction h with
  | none => exact ⟨[], follows_ofClient c⟩
  | fetch h factory x ih =>
    obtain ⟨ts, hts⟩ := ih
    obtain ⟨us, hus⟩ := follows_fetch hts factory x
    rw [← run_append] at hus
    exact ⟨_, hus⟩
  | stream h factory x expected count wish ih =>
    obtain ⟨ts, hts⟩ := ih
    obtain ⟨us, hus⟩ := follows_consume hts (j := .stream x factory expected) rfl count wish
    rw [← run_append] at hus
    exact ⟨_, hus⟩
  | produce h job p count wish ih =>
    obtain ⟨ts, hts⟩ := ih
    obtain ⟨us, hus⟩ := follows_consume hts (j := .produce p) rfl count wish
    rw [← run_append] at hus
    exact ⟨_, hus.clients, hus.capacity, hus.stats⟩

end Traffic

end HttpRelay
