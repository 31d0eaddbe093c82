import Mathlib.Data.Nat.Find
import HttpRelay.Proofs.Client.Producers

namespace HttpRelay

open Relay

inductive Program where
  | done (ending : Producer.Ending)
  | offer (text : String) (next : Bool → Program)
  | ask (next : Bool → Program)

namespace Program

/-- As far as a program has been answered, a producer makes the same calls, and ends as the program
does where there is no call left. -/
inductive Follows : Program → List Reply → Producer → Prop where
  | done (ending : Producer.Ending) (rs : List Reply) : Follows (.done ending) rs ⟨[], ending⟩
  | offers (text : String) (next : Bool → Program) (as : List Producer.Action)
    (ending : Producer.Ending) : Follows (.offer text next) [] ⟨.offer text :: as, ending⟩
  | offered {text : String} {next : Bool → Program} {b : Bool} {rs : List Reply}
    {as : List Producer.Action} {ending : Producer.Ending}
    (h : Follows (next b) rs ⟨as, ending⟩) :
    Follows (.offer text next) (.taken b :: rs) ⟨.offer text :: as, ending⟩
  | asks (next : Bool → Program) (as : List Producer.Action) (ending : Producer.Ending) :
    Follows (.ask next) [] ⟨.ask :: as, ending⟩
  | asked {next : Bool → Program} {b : Bool} {rs : List Reply} {as : List Producer.Action}
    {ending : Producer.Ending} (h : Follows (next b) rs ⟨as, ending⟩) :
    Follows (.ask next) (.closed b :: rs) ⟨.ask :: as, ending⟩

end Program

def Relay.View.holding (v : View) (p : Producer) : View :=
  { v with feed :=
      { v.feed with
        work := p.actions.map Producer.Action.act
        conclusion := (p.feed .least).conclusion
        cancellation := none } }

namespace Program

variable {v : View} {σ : Nat → Move}

theorem along_receives (v : View) (p : Producer) {n : Nat} (hσ : ∀ i < n, σ i = .receive) :
    (v.holding p).along σ n = (v.along σ n).holding p ∧
      (v.along σ n).feed.replies = v.feed.replies := by
  induction n with
  | zero => exact ⟨rfl, rfl⟩
  | succ n ih =>
    obtain ⟨hstate, hreplies⟩ := ih fun i hi => hσ i (Nat.lt_succ_of_lt hi)
    rw [View.along, View.along, hσ n (Nat.lt_succ_self n), hstate]
    exact ⟨rfl, hreplies⟩

theorem move_call {a : Producer.Action} (ha : a.IsCall) (v : View) {m : Move}
    (hreceive : m ≠ .receive) (habandon : m ≠ .abandon) :
    ∃ (w : View) (r : Reply), a.Fits r ∧ w.feed.replies = v.feed.replies ++ [r] ∧
      ∀ as ending, (v.holding ⟨a :: as, ending⟩).move m = w.holding ⟨as, ending⟩ := by
  obtain ⟨d, es, r, hperform, hr, -⟩ := Producer.Action.perform_call ha v.feed.channel
  let w : View := { v with feed := v.feed.record ⟨d, [], es, [r]⟩ }
  refine ⟨w, r, hr, rfl, fun as ending => ?_⟩
  have hne : (v.holding ⟨a :: as, ending⟩).feed.work ≠ [] := List.cons_ne_nil _ _
  have hnotice : (v.holding ⟨a :: as, ending⟩).feed.cancelNotice? = none := ite_self _
  have hadvance : Act.advance v.feed.channel (a.act :: as.map Producer.Action.act) =
      some ⟨d, as.map Producer.Action.act, es, [r]⟩ := by
    rw [Act.advance, hperform]
  have hstep : (v.holding ⟨a :: as, ending⟩).feed.step = some (w.holding ⟨as, ending⟩).feed := by
    rw [Feed.step_of_working hne hnotice]
    exact congrArg (Option.map _) hadvance
  cases m with
  | produce =>
    rw [View.move, hstep]
    rfl
  | insist =>
    rw [View.move, Feed.insist_of_unnoticed hnotice, hstep]
    rfl
  | receive => exact absurd rfl hreceive
  | abandon => exact absurd rfl habandon

def Scripted (program : Program) : Prop :=
  ∀ (v : View) (σ : Nat → Move), (∀ n, σ n ≠ .abandon) → ∃ p : Producer,
    p.OnlyCalls ∧ ∀ k, ∃ rs,
      ((v.holding p).along σ k).feed.replies = v.feed.replies ++ rs ∧ program.Follows rs p

theorem scripted_call {program : Program} {a : Producer.Action} (ha : a.IsCall)
    (hnext : ∀ as ending, program.Follows [] ⟨a :: as, ending⟩)
    (hlater : ∀ r, a.Fits r → ∃ next : Program, next.Scripted ∧ ∀ rs as ending,
      next.Follows rs ⟨as, ending⟩ → program.Follows (r :: rs) ⟨a :: as, ending⟩) :
    program.Scripted := by
  intro v σ hσ
  have hidle : ∀ p k, (∀ i < k, σ i = .receive) →
      ((v.holding p).along σ k).feed.replies = v.feed.replies ++ [] := by
    intro p k hk
    obtain ⟨hstate, hreplies⟩ := along_receives v p hk
    rw [hstate, List.append_nil]
    exact hreplies
  by_cases hturn : ∃ n, σ n ≠ .receive
  · -- the call is made at the first move that is the producer's
    obtain ⟨n, hn, hbefore⟩ : ∃ n, σ n ≠ .receive ∧ ∀ i < n, σ i = .receive :=
      ⟨Nat.find hturn, Nat.find_spec hturn, fun i hi => not_not.mp (Nat.find_min hturn hi)⟩
    obtain ⟨w, r, hr, hreplies, hmove⟩ := move_call ha (v.along σ n) hn (hσ n)
    obtain ⟨next, hscripted, hfollows⟩ := hlater r hr
    obtain ⟨⟨as, ending⟩, hcalls, hrest⟩ := hscripted w (fun i => σ (n + 1 + i)) fun i => hσ _
    refine ⟨⟨a :: as, ending⟩, List.forall_mem_cons.mpr ⟨ha, hcalls⟩, fun k => ?_⟩
    rcases Nat.lt_or_ge n k with hlt | hge
    · obtain ⟨d, rfl⟩ := Nat.exists_eq_add_of_le hlt
      obtain ⟨rs, hrs, hnextFollows⟩ := hrest d
      obtain ⟨hstate, hsame⟩ := along_receives v ⟨a :: as, ending⟩ hbefore
      refine ⟨r :: rs, ?_, hfollows rs as ending hnextFollows⟩
      rw [View.along_add, View.along, hstate, hmove, hrs, hreplies, hsame, List.append_assoc]
      rfl
    · refine ⟨[], hidle _ k fun i hi => hbefore i (Nat.lt_of_lt_of_le hi hge), ?_⟩
      exact hnext as ending
  · have hall : ∀ i, σ i = .receive := fun i => not_not.mp fun hi => hturn ⟨i, hi⟩
    refine ⟨⟨[a], .success⟩, List.forall_mem_singleton.mpr ha, fun k => ⟨[], ?_, ?_⟩⟩
    · exact hidle _ k fun i _ => hall i
    · exact hnext [] .success

theorem scripted (program : Program) : program.Scripted := by
  induction program with
  | done ending =>
    intro v σ hσ
    refine ⟨⟨[], ending⟩, nofun, fun k => ?_⟩
    obtain ⟨rs, hrs⟩ := (v.holding ⟨[], ending⟩).replies_along σ (Nat.zero_le k)
    exact ⟨rs, hrs.symm, .done ending rs⟩
  | offer text next ih =>
    refine scripted_call (a := .offer text) trivial (.offers text next) fun r hr => ?_
    obtain ⟨b, rfl⟩ := hr
    exact ⟨next b, ih b, fun rs as ending => .offered⟩
  | ask next ih =>
    refine scripted_call (a := .ask) trivial (.asks next) fun r hr => ?_
    obtain ⟨b, rfl⟩ := hr
    exact ⟨next b, ih b, fun rs as ending => .asked⟩

end Program

/-- What comes of the blocking producers on a schedule. The wait for a permit of the pool is a time
in which the producer does not move. -/
structure Producer.Relayed (capacity : Capacity) (σ : Nat → Move) : Prop where
  faithful : ∀ p : Producer, p.OnlyCalls → p.Faithful capacity σ
  followed : ∀ program : Program, ∃ p : Producer, p.OnlyCalls ∧
    ∀ k, program.Follows (p.moment capacity σ k).feed.replies p

theorem Producer.relayed (capacity : Capacity) {σ : Nat → Move} (hσ : ∀ n, σ n ≠ .abandon) :
    Relayed capacity σ where
  faithful p hcalls := faithful_of_calls hcalls hσ
  followed program := by
    obtain ⟨p, hcalls, hfollows⟩ := program.scripted (start ⟨[], .success⟩ capacity) σ hσ
    refine ⟨p, hcalls, fun k => ?_⟩
    obtain ⟨rs, hrs, hprogram⟩ := hfollows k
    have hsame : (p.moment capacity σ k).feed.replies = rs := hrs
    rwa [hsame]

namespace Program.Sample

def program : Program :=
  .offer "a" fun _ => .offer "b" fun taken =>
    if taken then .done .success else .ask fun _ => .done (.failure "full")

def script : Producer := ⟨[.offer "a", .offer "b", .ask], .failure "full"⟩

def turns (n : Nat) : Move := if n % 4 = 3 then .receive else .produce

theorem fair_turns : Fair turns where
  produces n := ⟨4 * n, by omega, if_neg (by omega)⟩
  receives n := ⟨4 * n + 3, by omega, if_pos (by omega)⟩
  stays n := by
    rw [turns]
    split <;> exact nofun

end Program.Sample

open Program.Sample in
theorem Producer.relayed_sample : (∀ n, turns n ≠ .abandon) ∧ Relayed 1 turns :=
  ⟨fair_turns.stays, relayed 1 fair_turns.stays⟩

open Program.Sample in
example : program.Follows [.taken true, .taken false, .closed false] script ∧
    (script.moment 1 turns 12).results =
      [some (.fragment "a"), some (.failure "full"), none] :=
  ⟨.offered (.offered (.asked (.done _ _))), by decide +kernel⟩

end HttpRelay
