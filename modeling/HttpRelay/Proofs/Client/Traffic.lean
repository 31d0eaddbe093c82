import Mathlib.Algebra.BigOperators.Group.List.Basic
import Mathlib.Algebra.GroupWithZero.Nat
import Mathlib.Data.UInt
import HttpRelay.Proofs.Client.Parties
import HttpRelay.Proofs.Exchange.Consumers

namespace HttpRelay

open Relay

namespace Stats

theorem count_increment (s : Stats) (c k : Category) :
    (s.increment c).count k = s.count k + if c = k then 1 else 0 := by
  by_cases h : k = c
  · subst h
    simp [increment]
  · simp [increment, h, Ne.symm h]

theorem count_note (s : Stats) (e : Effect) (k : Category) :
    (s.note e).count k = s.count k + if e.isCounted k then 1 else 0 := by
  cases e with
  | counted c =>
    rw [note, count_increment]
    simp [Effect.isCounted]
  | attempting a tunnelled => cases a <;> exact (UInt64.add_zero _).symm
  | _ => exact (UInt64.add_zero _).symm

theorem reconnects_note (s : Stats) (e : Effect) :
    (s.note e).reconnects = s.reconnects + if e.isRepetition then 1 else 0 := by
  cases e with
  | attempting a tunnelled =>
    cases a with
    | initial => exact (UInt64.add_zero _).symm
    | reconnect => rfl
  | _ => exact (UInt64.add_zero _).symm

theorem ofNat_ite (p : Prop) [Decidable p] :
    UInt64.ofNat (if p then 1 else 0) = if p then 1 else 0 := apply_ite UInt64.ofNat p 1 0

theorem value_noteAll (value : Stats → UInt64) {q : Effect → Bool}
    (h : ∀ s e, value (s.note e) = value s + if q e then 1 else 0) (s : Stats)
    (es : List Effect) : value (s.noteAll es) = value s + .ofNat (es.countP q) := by
  induction es generalizing s with
  | nil => exact (UInt64.add_zero _).symm
  | cons e es ih =>
    calc value (s.noteAll (e :: es))
        = value (s.note e) + .ofNat (es.countP q) := ih (s.note e)
      _ = value s + (if q e then 1 else 0) + .ofNat (es.countP q) := by rw [h]
      _ = value s + .ofNat ((e :: es).countP q) := by
        rw [List.countP_cons, UInt64.ofNat_add, ofNat_ite, UInt64.add_assoc,
          UInt64.add_comm (if q e then 1 else 0)]

theorem count_noteAll (s : Stats) (es : List Effect) (k : Category) :
    (s.noteAll es).count k = s.count k + .ofNat (es.countP (Effect.isCounted k)) :=
  value_noteAll (fun s => s.count k) (fun s e => s.count_note e k) s es

theorem reconnects_noteAll (s : Stats) (es : List Effect) :
    (s.noteAll es).reconnects = s.reconnects + .ofNat (es.countP Effect.isRepetition) :=
  value_noteAll reconnects reconnects_note s es

theorem total_of_count {s : Stats} {value : Category → Nat}
    (h : ∀ k, s.count k = .ofNat (value k)) :
    s.total = .ofNat (Category.all.map value).sum := by
  have hsum : ∀ ks : List Category,
      (ks.map s.count).foldr (· + ·) 0 = UInt64.ofNat (ks.map value).sum := by
    intro ks
    induction ks with
    | nil => rfl
    | cons k ks ih =>
      rw [List.map_cons, List.foldr_cons, ih, h, List.map_cons, List.sum_cons, UInt64.ofNat_add]
  exact hsum Category.all

theorem sum_summary (s : Stats) : (s.summary.map Prod.snd).sum = s.total := by
  have hpositive : ∀ ks : List Category,
      (((ks.map fun k => (k, s.count k)).filter (0 < ·.2)).map Prod.snd).sum =
        (ks.map s.count).sum := by
    intro ks
    induction ks with
    | nil => rfl
    | cons k ks ih =>
      rw [List.map_cons, List.map_cons, List.sum_cons, ← ih]
      by_cases hk : 0 < s.count k
      · rw [List.filter_cons_of_pos (by simpa using hk), List.map_cons, List.sum_cons]
      · have hzero : s.count k = 0 := UInt64.le_zero_iff.mp (UInt64.not_lt.mp hk)
        rw [List.filter_cons_of_neg (by simpa using hk), hzero, UInt64.zero_add]
  exact hpositive Category.all

end Stats

structure Traffic where
  capacity : Capacity
  clients : Nat
  stats : Stats
  parties : List Party

namespace Traffic

inductive Turn where
  | clone (client : Nat)
  | start (client : Nat) (job : Job)
  | move (place : Nat) (m : Move)
  | quit (place : Nat)

def ofClient (c : Client) : Traffic := ⟨c.capacity, 1, c.stats, []⟩

def goOn (t : Traffic) (place : Nat) (f : Party → Party) : Traffic :=
  match t.parties[place]? with
  | none => t
  | some p =>
    { t with
      stats := t.stats.noteAll ((f p).effects.drop p.effects.length)
      parties := t.parties.set place (f p) }

def turn (t : Traffic) : Turn → Traffic
  | .clone client => if client < t.clients then { t with clients := t.clients + 1 } else t
  | .start client job =>
    if client < t.clients then { t with parties := t.parties ++ [.start t.capacity job] } else t
  | .move place m => t.goOn place (·.move m)
  | .quit place => t.goOn place Party.quit

def run (t : Traffic) (ts : List Turn) : Traffic := ts.foldl turn t

structure Sound (t : Traffic) : Prop where
  parties : ∀ p ∈ t.parties, p.Sound
  count : ∀ k, t.stats.count k =
    .ofNat (t.parties.map fun p => p.effects.countP (Effect.isCounted k)).sum
  reconnects : t.stats.reconnects =
    .ofNat (t.parties.map fun p => p.effects.countP Effect.isRepetition).sum

variable {t : Traffic}

theorem sound_ofConfig (config : Config) (fits : config.channelCapacity ≤ maxPermits) :
    (ofClient (.ofConfig config fits)).Sound :=
  ⟨fun _ hp => absurd hp List.not_mem_nil, fun _ => rfl, rfl⟩

theorem sum_replace {ps : List Party} {place : Nat} {p q : Party} (r : Effect → Bool)
    (hp : ps[place]? = some p) (h : p.effects <+: q.effects) :
    ((ps.set place q).map fun p => p.effects.countP r).sum =
      (ps.map fun p => p.effects.countP r).sum +
        (q.effects.drop p.effects.length).countP r := by
  obtain ⟨hlt, hget⟩ := List.getElem?_eq_some_iff.mp hp
  obtain ⟨more, hmore⟩ := h
  have hsum : ∀ p : Party, ((ps.set place p).map fun p => p.effects.countP r).sum =
      ((ps.map fun p => p.effects.countP r).take place).sum + p.effects.countP r +
        ((ps.map fun p => p.effects.countP r).drop (place + 1)).sum := by
    intro p
    rw [List.map_set, List.sum_set, if_pos]
    rwa [List.length_map]
  have hsame : ps.set place p = ps := by
    rw [← hget, List.set_getElem_self]
  have hold := hsum p
  rw [hsame] at hold
  rw [hsum, hold, ← hmore, List.drop_left, List.countP_append]
  omega

theorem sound_goOn (ht : t.Sound) (place : Nat) {f : Party → Party}
    (hf : ∀ p : Party, p.Sound → (f p).Sound) (he : ∀ p : Party, p.effects <+: (f p).effects) :
    (t.goOn place f).Sound := by
  unfold goOn
  cases hp : t.parties[place]? with
  | none => exact ht
  | some p =>
    have hmem : p ∈ t.parties := List.mem_of_getElem? hp
    constructor
    · intro q hq
      rcases List.mem_or_eq_of_mem_set hq with hq | rfl
      · exact ht.parties q hq
      · exact hf p (ht.parties p hmem)
    · intro k
      rw [Stats.count_noteAll, ht.count, ← UInt64.ofNat_add, sum_replace _ hp (he p)]
    · rw [Stats.reconnects_noteAll, ht.reconnects, ← UInt64.ofNat_add, sum_replace _ hp (he p)]

theorem sound_turn (ht : t.Sound) (turn : Turn) : (t.turn turn).Sound := by
  cases turn with
  | clone client =>
    rw [Traffic.turn]
    split
    · exact ⟨ht.parties, ht.count, ht.reconnects⟩
    · exact ht
  | start client job =>
    have hnone : ∀ r, (Party.start t.capacity job).effects.countP r = 0 := by
      intro r
      cases job <;> rfl
    rw [Traffic.turn]
    split
    · constructor
      · intro p hp
        rcases List.mem_append.mp hp with hp | hp
        · exact ht.parties p hp
        · rw [List.mem_singleton.mp hp]
          exact Party.sound_start t.capacity job
      · intro k
        rw [ht.count, List.map_append, List.sum_append, List.map_singleton, List.sum_singleton,
          hnone, Nat.add_zero]
      · rw [ht.reconnects, List.map_append, List.sum_append, List.map_singleton,
          List.sum_singleton, hnone, Nat.add_zero]
    · exact ht
  | move place m =>
    exact sound_goOn ht place (fun _ hp => Party.sound_move hp m) fun p => p.move_effects m
  | quit place =>
    exact sound_goOn ht place (fun _ hp => Party.sound_quit hp) Party.quit_effects

theorem sound_run (ht : t.Sound) (ts : List Turn) : (t.run ts).Sound := by
  induction ts generalizing t with
  | nil => exact ht
  | cons turn ts ih => exact ih (sound_turn ht turn)

theorem sum_eq_countP {ps : List Party} {value : Party → Nat} {q : Party → Bool}
    (h : ∀ p ∈ ps, value p = if q p then 1 else 0) : (ps.map value).sum = ps.countP q := by
  induction ps with
  | nil => rfl
  | cons p ps ih =>
    rw [List.map_cons, List.sum_cons, List.countP_cons, h p List.mem_cons_self,
      ih fun p hp => h p (List.mem_cons_of_mem _ hp), Nat.add_comm]

theorem sum_kinds (ps : List Party) :
    (Category.all.map fun k => ps.countP (·.failure? = some k)).sum =
      ps.countP (·.failure?.isSome) := by
  induction ps with
  | nil => rfl
  | cons p ps ih =>
    have hone : (Category.all.map fun k =>
        if decide (p.failure? = some k) = true then 1 else 0).sum =
        if p.failure?.isSome = true then 1 else 0 := by
      cases p.failure? with
      | none => rfl
      | some k => cases k <;> rfl
    simp only [List.countP_cons]
    rw [List.sum_map_add, ih, hone]

structure Counts (t : Traffic) (counter : UInt64) (q : Party → Bool) : Prop where
  wrapped : counter = .ofNat (t.parties.countP q)
  exact_of_lt : t.parties.length < UInt64.size → counter.toNat = t.parties.countP q

theorem counts {counter : UInt64} {q : Party → Bool}
    (h : counter = .ofNat (t.parties.countP q)) : t.Counts counter q := by
  refine ⟨h, fun hfew => ?_⟩
  rw [h]
  exact UInt64.toNat_ofNat_of_lt (Nat.lt_of_le_of_lt List.countP_le_length hfew)

structure Tally (t : Traffic) : Prop where
  settled : ∀ p ∈ t.parties,
    p.status = .concluding ∨ p.status = .cancelled ∧ p.failure? = none
  count : ∀ k, t.Counts (t.stats.count k) (·.failure? = some k)
  total : t.Counts t.stats.total (·.failure?.isSome)
  summary : (t.stats.summary.map Prod.snd).sum = t.stats.total
  runs : ∀ p ∈ t.parties, p.runs ≤ 2
  reconnects : t.Counts t.stats.reconnects (·.runs = 2)
  twice : ∀ p ∈ t.parties, p.status = .concluding → (p.runs = 2 ↔ p.job.RunsTwice)

/-- However the parties take their turns, each failure and each repetition is counted once. -/
theorem tally (config : Config) (fits : config.channelCapacity ≤ maxPermits) (ts : List Turn)
    (h : ∀ p ∈ ((ofClient (.ofConfig config fits)).run ts).parties, p.Finished) :
    ((ofClient (.ofConfig config fits)).run ts).Tally := by
  have hs := sound_run (sound_ofConfig config fits) ts
  generalize (ofClient (.ofConfig config fits)).run ts = t at h hs ⊢
  have hcount : ∀ k, t.stats.count k = .ofNat (t.parties.countP (·.failure? = some k)) := by
    intro k
    rw [hs.count]
    congr 1
    apply sum_eq_countP
    intro p hp
    simpa using Party.countP_counted (hs.parties p hp) (h p hp) k
  constructor
  · intro p hp
    apply (Party.status_of_finished (hs.parties p hp) (h p hp)).imp_right
    intro hcancelled
    exact ⟨hcancelled, Party.failure?_of_cancelled hcancelled⟩
  · exact fun k => counts (hcount k)
  · apply counts
    rw [Stats.total_of_count hcount, sum_kinds]
  · exact Stats.sum_summary _
  · exact fun p hp => Party.runs_le (hs.parties p hp) (h p hp)
  · apply counts
    rw [hs.reconnects]
    congr 1
    apply sum_eq_countP
    intro p hp
    simpa using Party.countP_repetition (hs.parties p hp) (h p hp)
  · exact fun p hp => Party.runs_eq_two_iff (hs.parties p hp) (h p hp)

def sampleConfig : Config := ⟨.info, .plain, 10000, 4, ⟨3, by decide⟩, .webPki⟩

theorem sampleConfig_fits : sampleConfig.channelCapacity ≤ maxPermits := by decide

def sampleTurns : List Turn :=
  let factory := Factory.ofLinks Exchange.sampleLinks
  [.clone 0,
    .start 0 (.fetch Exchange.sampleExchange factory),
    .start 1 (.stream Exchange.sampleExchange factory 200),
    .start 1 (.stream Exchange.sampleExchange factory 200),
    .start 0 (.produce ⟨[.offer "a"], .panic⟩),
    .move 1 .produce, .move 1 .produce, .move 1 .abandon] ++
  (List.replicate 24 [Turn.move 0 .produce, .move 1 .produce, .move 2 .produce, .move 2 .receive,
    .move 3 .produce, .move 3 .receive]).flatten

theorem tally_sample :
    let t := (ofClient (.ofConfig sampleConfig sampleConfig_fits)).run sampleTurns
    (sampleConfig.channelCapacity ≤ maxPermits ∧ ∀ p ∈ t.parties, p.Finished) ∧ t.Tally ∧
      t.stats.count .read = 2 ∧ t.stats.count .worker = 1 ∧ t.stats.total = 3 ∧
      t.stats.reconnects = 2 := by
  have hfinished :
      ∀ p ∈ ((ofClient (.ofConfig sampleConfig sampleConfig_fits)).run sampleTurns).parties,
        p.Finished := by
    decide +kernel
  refine ⟨⟨sampleConfig_fits, hfinished⟩, ?_, ?_⟩
  · exact tally sampleConfig sampleConfig_fits sampleTurns hfinished
  · decide +kernel

end Traffic

end HttpRelay
