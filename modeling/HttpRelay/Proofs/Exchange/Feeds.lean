import HttpRelay.Exchange.Feed
import HttpRelay.Proofs.Exchange.Reconnects
import HttpRelay.Proofs.Relay.Collecting

namespace HttpRelay

open Relay

namespace Exchange

variable {x : Exchange} {connector : Connector} {expected : UInt16}

def items (es : List Effect) (o : Except Failure Head) : List Item :=
  (Effect.fragments es).map .fragment ++
    match o with
    | .ok _ => []
    | .error e => [.failure e.message]

theorem items_acts (es : List Effect) :
    (es.map act).flatMap Act.items = (Effect.fragments es).map .fragment := by
  induction es with
  | nil => rfl
  | cons e es ih =>
    rw [List.map_cons, List.flatMap_cons, ih]
    cases e <;> rfl

theorem plain_act (e : Effect) : (act e).IsPlain := by
  cases e <;> trivial

theorem plain_conclusion (x : Exchange) (o : Except Failure Head) :
    ∀ a ∈ x.conclusion o, a.IsPlain := by
  cases o with
  | ok head =>
    intro a ha
    rw [List.mem_singleton.mp ha]
    trivial
  | error e => exact Feed.plain_failureActs _ _ _

theorem underway_feed {o : Except Failure Head}
    (ho : (x.stream connector expected).outcome = some o) (capacity : Capacity) :
    Underway (items (x.stream connector expected).effects o)
      ⟨x.feed connector expected capacity, []⟩ := by
  have hpending : (x.feed connector expected capacity).pending =
      ((x.stream connector expected).effects.map act ++ x.conclusion o) ++ [.finish] := by
    simp [Feed.pending, feed, ho]
  have hconclusion : (x.feed connector expected capacity).conclusion ≠ [] := by
    simp [feed]
  have hopen : (x.feed connector expected capacity).channel.ended ≠ true := Bool.false_ne_true
  refine ⟨⟨0, rfl, ?_⟩, ?_, Channel.sound_new capacity, ?_, Nat.one_ne_zero,
    fun h => absurd h hopen, fun h => absurd h hconclusion⟩
  · rw [hpending, List.flatMap_append, List.flatMap_append, items_acts]
    cases o <;> simp [items, conclusion, Feed.failureActs, Act.items, feed, Channel.new]
  · rw [hpending]
    refine .going _ (fun a ha => ?_) rfl rfl
    rcases List.mem_append.mp ha with ha | ha
    · obtain ⟨e, -, rfl⟩ := List.mem_map.mp ha
      exact plain_act e
    · exact plain_conclusion x o a ha
  · exact Nat.lt_of_lt_of_le Nat.zero_lt_one (Nat.le_max_right _ _)

theorem brings_act (e : Effect) : (act e).brings Effect.isConnecting = e.isConnecting := by
  cases e <;> rfl

theorem countP_conclusion (x : Exchange) (outcome : Except Failure Head) :
    (x.conclusion outcome).countP (Act.brings Effect.isConnecting) = 0 := by
  cases outcome <;> rfl

theorem due_feed (x : Exchange) (connector : Connector) (expected : UInt16) (capacity : Capacity) :
    (x.feed connector expected capacity).due Effect.isConnecting =
      (x.stream connector expected).effects.countP Effect.isConnecting := by
  have hacts : ∀ es : List Effect,
      (es.map act).countP (Act.brings Effect.isConnecting) =
        es.countP Effect.isConnecting := by
    intro es
    rw [List.countP_map]
    exact List.countP_congr fun e _ => by rw [Function.comp, brings_act]
  have hhang : (if (x.stream connector expected).outcome.isNone then [Act.hang]
      else []).countP (Act.brings Effect.isConnecting) = 0 := by
    split <;> rfl
  have hconclusion : (((x.stream connector expected).outcome.map x.conclusion).getD []).countP
      (Act.brings Effect.isConnecting) = 0 := by
    cases (x.stream connector expected).outcome with
    | none => rfl
    | some o => exact countP_conclusion x o
  simp only [Feed.due, feed, List.countP_nil, List.countP_append, hacts, hhang,
    hconclusion, Nat.zero_add, Nat.add_zero]
  rfl

theorem contacts_consume_le (x : Exchange) (connector : Connector) (expected : UInt16)
    (capacity : Capacity) (count : Nat) (wish : Feed.Wish) :
    (Effect.contacts ((x.feed connector expected capacity).consume count wish).1.effects).length ≤
      (Effect.contacts (x.stream connector expected).effects).length := by
  have hnotes : (x.feed connector expected capacity).NotesOnly := by
    intro notice hn
    obtain rfl := Option.some.inj hn
    exact ⟨[_], rfl⟩
  have hlogged : ∀ r, Effect.isConnecting (.logged r) = false := fun r => rfl
  have hdue := (Feed.later_consume hlogged (x.feed connector expected capacity)
    count wish).due_le hnotes
  rw [due_feed] at hdue
  rw [Effect.length_contacts, Effect.length_contacts]
  exact Nat.le_trans (Nat.le_trans (Nat.le_add_right _ _) (Nat.le_add_right _ _)) hdue

theorem contacts_collect {o : Except Failure Head}
    (ho : (x.stream connector expected).outcome = some o) (capacity : Capacity) (count : Nat) :
    (Effect.contacts
      ((x.feed connector expected capacity).consume count .collect).1.effects).length =
      (Effect.contacts (x.stream connector expected).effects).length := by
  have hcount := Feed.countP_collect (p := Effect.isConnecting) (fun _ => rfl)
    ⟨_, underway_feed ho capacity⟩ count
  rw [Effect.length_contacts, Effect.length_contacts, hcount, due_feed]

end Exchange

end HttpRelay
