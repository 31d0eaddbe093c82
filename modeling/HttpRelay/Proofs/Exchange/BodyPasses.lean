import HttpRelay.Proofs.Exchange.BodyLoops
import HttpRelay.Proofs.Http.DecoderLoops

namespace HttpRelay

open Loop (Pass Bounded LeftWithin)

namespace Stream

structure Handling where
  held : Bytes
  framing : Framing
  buffer : Bytes
  effects : List Effect

def handle (x : Handling) : Pass Handling Turn :=
  match x.framing.decode x.buffer with
  | ⟨.error failure, framing, buffer⟩ =>
    .leave ⟨x.effects, some (.error failure), x.held, framing, buffer⟩
  | ⟨.ok none, framing, buffer⟩ => .leave ⟨x.effects, none, x.held, framing, buffer⟩
  | ⟨.ok (some (.chunkStart size)), framing, buffer⟩ =>
    .again ⟨x.held, framing, buffer, x.effects ++ [note s!"Chunk of {size} bytes"]⟩
  | ⟨.ok (some (.data segment)), framing, buffer⟩ =>
    let (text, held) := Utf8.push x.held segment
    .again ⟨held, framing, buffer, x.effects ++ fragment text⟩
  | ⟨.ok (some .chunkEnd), framing, buffer⟩ =>
    .again ⟨x.held, framing, buffer, x.effects ++ [note "Chunk complete"]⟩
  | ⟨.ok (some .done), framing, buffer⟩ =>
    let (text, held) := Utf8.finish x.held
    .leave ⟨x.effects ++ fragment text, some (.ok ()), held, framing, buffer⟩

def Handling.aim (x : Handling) : Turn := (turn x.held x.framing x.buffer).after x.effects

theorem bounded_handle :
    Bounded handle (fun x => x.framing.weight x.buffer) Handling.aim where
  again {x y} h := by
    obtain ⟨held, f, b, es⟩ := x
    simp only [handle] at h
    simp only [Handling.aim]
    fun_cases turn held f b with
    | case1 failure g c hreply =>
      simp only [hreply] at h
      cases h
    | case2 g c hreply =>
      simp only [hreply] at h
      cases h
    | case3 size g c hreply =>
      simp only [hreply] at h
      cases h
      refine ⟨Framing.weight_lt_of_event hreply nofun, ?_⟩
      simp [Turn.after]
    | case4 segment g c hreply text held' hpush =>
      simp only [hreply, hpush] at h
      cases h
      refine ⟨Framing.weight_lt_of_event hreply nofun, ?_⟩
      simp [Turn.after]
    | case5 g c hreply =>
      simp only [hreply] at h
      cases h
      refine ⟨Framing.weight_lt_of_event hreply nofun, ?_⟩
      simp [Turn.after]
    | case6 g c hreply text held' hfinish =>
      simp only [hreply] at h
      cases h
  leave {x r} h := by
    obtain ⟨held, f, b, es⟩ := x
    simp only [handle] at h
    simp only [Handling.aim]
    fun_cases turn held f b with
    | case1 failure g c hreply =>
      simp only [hreply] at h
      cases h
      simp [Turn.after]
    | case2 g c hreply =>
      simp only [hreply] at h
      cases h
      simp [Turn.after]
    | case3 size g c hreply =>
      simp only [hreply] at h
      cases h
    | case4 segment g c hreply text held' hpush =>
      simp only [hreply] at h
      cases h
    | case5 g c hreply =>
      simp only [hreply] at h
      cases h
    | case6 g c hreply text held' hfinish =>
      simp only [hreply, hfinish] at h
      cases h
      simp [Turn.after]

theorem turn_leftWithin (held : Bytes) (f : Framing) (b : Bytes) :
    LeftWithin handle (3 * b.length + 3) ⟨held, f, b, []⟩ (turn held f b) := by
  have hleft := bounded_handle.leftWithin ⟨held, f, b, []⟩
  exact hleft.mono (Nat.add_le_add_right (f.weight_le b) 1)

structure Relaying where
  held : Bytes
  framing : Framing
  buffer : Bytes
  arrivals : List Arrival
  effects : List Effect

def pass (ending : Ending) (x : Relaying) : Pass Relaying (Run Unit) :=
  let t := turn x.held x.framing x.buffer
  let effects := x.effects ++ t.effects
  match t.settled with
  | some outcome => .leave ⟨effects, some outcome⟩
  | none =>
    match x.arrivals with
    | [] =>
      .leave <| match ending with
        | .closed => (ended t.held t.framing).after (effects ++ [.asked])
        | .silent => Run.stuck.after (effects ++ [.asked])
    | .data bytes _ :: rest =>
      .again ⟨t.held, t.framing, t.buffer ++ bytes, rest, effects ++ [.asked]⟩
    | .fault f :: _ =>
      .leave ((if f.isClose then ended t.held t.framing else Run.fail (.read f)).after
        (effects ++ [.asked]))

def Relaying.aim (ending : Ending) (x : Relaying) : Run Unit :=
  (relay x.held x.framing x.buffer ending x.arrivals).after x.effects

theorem bounded_pass (ending : Ending) :
    Bounded (pass ending) (fun x => x.arrivals.length) (Relaying.aim ending) where
  again {x y} h := by
    obtain ⟨held, f, b, arrivals, es⟩ := x
    simp only [pass] at h
    split at h
    · cases h
    · rename_i hsettled
      cases arrivals with
      | nil => cases h
      | cons a rest =>
        cases a with
        | data bytes filled =>
          cases h
          refine ⟨Nat.lt_succ_self _, ?_⟩
          simp [Relaying.aim, relay, hsettled, Run.after]
        | fault fault => cases h
  leave {x r} h := by
    obtain ⟨held, f, b, arrivals, es⟩ := x
    simp only [pass] at h
    split at h
    · rename_i outcome hsettled
      cases h
      cases arrivals <;> simp [Relaying.aim, relay, hsettled, Run.after]
    · rename_i hsettled
      cases arrivals with
      | nil =>
        cases h
        cases ending <;> simp [Relaying.aim, relay, hsettled, Run.after]
      | cons a rest =>
        cases a with
        | data bytes filled => cases h
        | fault fault =>
          cases h
          simp [Relaying.aim, relay, hsettled, Run.after]

theorem relay_leftWithin (held : Bytes) (f : Framing) (b : Bytes) (ending : Ending)
    (arrivals : List Arrival) : LeftWithin (pass ending) (arrivals.length + 1)
      ⟨held, f, b, arrivals, []⟩ (relay held f b ending arrivals) :=
  (bounded_pass ending).leftWithin ⟨held, f, b, arrivals, []⟩

end Stream

namespace Fetch

structure Handling where
  body : Collected
  framing : Framing
  buffer : Bytes

def handle (limit : UInt64) (x : Handling) : Pass Handling Turn :=
  match x.framing.decode x.buffer with
  | ⟨.error failure, framing, buffer⟩ => .leave ⟨some (.error failure), x.body, framing, buffer⟩
  | ⟨.ok none, framing, buffer⟩ => .leave ⟨none, x.body, framing, buffer⟩
  | ⟨.ok (some (.data segment)), framing, buffer⟩ =>
    if limit.toNat < x.body.size + segment.length then
      .leave ⟨some (.error (tooLarge limit)), x.body, framing, buffer⟩
    else .again ⟨x.body.add segment, framing, buffer⟩
  | ⟨.ok (some .done), framing, buffer⟩ => .leave ⟨some (.ok ()), x.body, framing, buffer⟩
  | ⟨.ok (some (.chunkStart _)), framing, buffer⟩ => .again ⟨x.body, framing, buffer⟩
  | ⟨.ok (some .chunkEnd), framing, buffer⟩ => .again ⟨x.body, framing, buffer⟩

theorem bounded_handle (limit : UInt64) : Bounded (handle limit)
    (fun x => x.framing.weight x.buffer) fun x => turn limit x.body x.framing x.buffer where
  again {x y} h := by
    obtain ⟨body, f, b⟩ := x
    simp only [handle] at h
    dsimp only
    fun_cases turn limit body f b with
    | case1 failure g c hreply =>
      simp only [hreply] at h
      cases h
    | case2 g c hreply =>
      simp only [hreply] at h
      cases h
    | case3 segment g c hreply hover =>
      simp only [hreply, if_pos hover] at h
      cases h
    | case4 segment g c hreply hfits =>
      simp only [hreply, if_neg hfits] at h
      cases h
      exact ⟨Framing.weight_lt_of_event hreply nofun, rfl⟩
    | case5 g c hreply =>
      simp only [hreply] at h
      cases h
    | case6 size g c hreply =>
      simp only [hreply] at h
      cases h
      exact ⟨Framing.weight_lt_of_event hreply nofun, rfl⟩
    | case7 g c hreply =>
      simp only [hreply] at h
      cases h
      exact ⟨Framing.weight_lt_of_event hreply nofun, rfl⟩
  leave {x r} h := by
    obtain ⟨body, f, b⟩ := x
    simp only [handle] at h
    dsimp only
    fun_cases turn limit body f b with
    | case1 failure g c hreply =>
      simp only [hreply] at h
      cases h
      rfl
    | case2 g c hreply =>
      simp only [hreply] at h
      cases h
      rfl
    | case3 segment g c hreply hover =>
      simp only [hreply, if_pos hover] at h
      cases h
      rfl
    | case4 segment g c hreply hfits =>
      simp only [hreply, if_neg hfits] at h
      cases h
    | case5 g c hreply =>
      simp only [hreply] at h
      cases h
      rfl
    | case6 size g c hreply =>
      simp only [hreply] at h
      cases h
    | case7 g c hreply =>
      simp only [hreply] at h
      cases h

theorem turn_leftWithin (limit : UInt64) (body : Collected) (f : Framing) (b : Bytes) :
    LeftWithin (handle limit) (3 * b.length + 3) ⟨body, f, b⟩ (turn limit body f b) := by
  have hleft := (bounded_handle limit).leftWithin ⟨body, f, b⟩
  exact hleft.mono (Nat.add_le_add_right (f.weight_le b) 1)

structure Gathering where
  body : Collected
  framing : Framing
  buffer : Bytes
  arrivals : List Arrival
  effects : List Effect

def pass (limit : UInt64) (ending : Ending) (x : Gathering) : Pass Gathering (Run Bytes) :=
  let t := turn limit x.body x.framing x.buffer
  match t.settled with
  | some outcome => .leave ⟨x.effects, some (outcome.map fun _ => t.body.bytes)⟩
  | none =>
    match x.arrivals with
    | [] => .leave ⟨x.effects ++ [.asked], ending.outcome (ended t.body t.framing)⟩
    | .data bytes _ :: rest =>
      .again ⟨t.body, t.framing, t.buffer ++ bytes, rest, x.effects ++ [.asked]⟩
    | .fault f :: _ =>
      .leave ⟨x.effects ++ [.asked],
        some (if f.isClose then ended t.body t.framing else .error (.read f))⟩

def Gathering.aim (limit : UInt64) (ending : Ending) (x : Gathering) : Run Bytes :=
  (gather limit x.body x.framing x.buffer ending x.arrivals).after x.effects

theorem bounded_pass (limit : UInt64) (ending : Ending) :
    Bounded (pass limit ending) (fun x => x.arrivals.length) (Gathering.aim limit ending) where
  again {x y} h := by
    obtain ⟨body, f, b, arrivals, es⟩ := x
    simp only [pass] at h
    split at h
    · cases h
    · rename_i hsettled
      cases arrivals with
      | nil => cases h
      | cons a rest =>
        cases a with
        | data bytes filled =>
          cases h
          refine ⟨Nat.lt_succ_self _, ?_⟩
          simp [Gathering.aim, gather, hsettled, Run.after]
        | fault fault => cases h
  leave {x r} h := by
    obtain ⟨body, f, b, arrivals, es⟩ := x
    simp only [pass] at h
    split at h
    · rename_i outcome hsettled
      cases h
      cases arrivals <;> simp [Gathering.aim, gather, hsettled, Run.after]
    · rename_i hsettled
      cases arrivals with
      | nil =>
        cases h
        simp [Gathering.aim, gather, hsettled, Run.after]
      | cons a rest =>
        cases a with
        | data bytes filled => cases h
        | fault fault =>
          cases h
          simp [Gathering.aim, gather, hsettled, Run.after]

theorem gather_leftWithin (limit : UInt64) (body : Collected) (f : Framing) (b : Bytes)
    (ending : Ending) (arrivals : List Arrival) : LeftWithin (pass limit ending)
      (arrivals.length + 1) ⟨body, f, b, arrivals, []⟩ (gather limit body f b ending arrivals) :=
  (bounded_pass limit ending).leftWithin ⟨body, f, b, arrivals, []⟩

end Fetch

end HttpRelay
