import HttpRelay.Pool

namespace HttpRelay

structure Semaphore where
  free : Nat
  line : List Nat
deriving DecidableEq, Repr

namespace Semaphore

def acquire (s : Semaphore) (job : Nat) : Semaphore × Option Nat :=
  if 0 < s.free then ({ s with free := s.free - 1 }, some job)
  else ({ s with line := s.line ++ [job] }, none)

def release (s : Semaphore) : Semaphore × Option Nat :=
  match s.line with
  | [] => ({ s with free := s.free + 1 }, none)
  | job :: rest => ({ s with line := rest }, some job)

def withdraw (s : Semaphore) (job : Nat) : Semaphore := { s with line := s.line.erase job }

theorem release_line (s : Semaphore) : s.release.2.toList ++ s.release.1.line = s.line := by
  obtain ⟨free, line⟩ := s
  cases line <;> rfl

end Semaphore

namespace Pool

section Operations

variable {p : Pool} {job : Nat}

theorem request_of_room (hw : p.waiting = []) (ha : 0 < p.available) :
    p.request job = { p with running := p.running ++ [job] } := by
  have ha' : 0 < available { p with waiting := [job] } := ha
  simp [request, hw, grant, ha']

theorem request_of_full (ha : p.available = 0) :
    p.request job = { p with waiting := p.waiting ++ [job] } := by
  have ha' : available { p with waiting := p.waiting ++ [job] } = 0 := ha
  rw [request, grant]
  split
  · rfl
  · rw [if_neg (by omega)]

theorem finish_of_none (hw : p.waiting = []) :
    p.finish job = { p with running := p.running.erase job } := by
  simp [finish, grant, hw]

theorem finish_of_waiting {next : Nat} {rest : List Nat} (hw : p.waiting = next :: rest)
    (hj : job ∈ p.running) (hfits : p.running.length ≤ p.size) : p.finish job =
      { p with running := p.running.erase job ++ [next], waiting := rest } := by
  have hlength := List.length_erase_of_mem hj
  have hpos := List.length_pos_of_mem hj
  have ha : 0 < available { p with running := p.running.erase job } := by
    simp only [available]
    omega
  simp [finish, grant, hw, available] at ha ⊢
  omega

end Operations

variable {α : Type}

inductive Ending (α : Type) where
  | returns (value : α)
  | panics

def Ending.answer : Ending α → Except Failure α
  | .returns value => .ok value
  | .panics => .error panicked

inductive Turn (α : Type) where
  | call
  | handOver (job : Nat)
  | finish (job : Nat) (ending : Ending α)
  | leave (job : Nat)

structure Session (α : Type) where
  pool : Pool
  permits : Semaphore
  calls : Nat
  /-- The jobs that have been granted a permit, in the order of the grants. -/
  admitted : List Nat
  handed : List Nat
  ended : List Nat
  gone : List Nat
  answers : List (Nat × Except Failure α)

namespace Session

variable {capacity job : Nat} {s t : Session α}

def start (size : Capacity) : Session α := ⟨.new size, ⟨max size.val 1, []⟩, 0, [], [], [], [], []⟩

/-- A job that was given a permit has it until it ends, but loses it with its caller as long as
it has not been handed over. -/
def keeps (s : Session α) (job : Nat) : Bool :=
  !s.ended.contains job && (s.handed.contains job || !s.gone.contains job)

def holders (s : Session α) : List Nat := s.admitted.filter s.keeps

def Runs (s : Session α) (job : Nat) : Prop := job ∈ s.handed ∧ job ∉ s.ended

instance : Decidable (s.Runs job) := inferInstanceAs (Decidable (_ ∧ _))

def note (s : Session α) (job : Nat) (ending : Ending α) : Session α :=
  { s with
    ended := s.ended ++ [job]
    answers := s.answers ++ if job ∈ s.gone then [] else [(job, ending.answer)] }

def giveBack (s : Session α) (job : Nat) : Session α :=
  { s with
    pool := s.pool.finish job
    permits := s.permits.release.1
    admitted := s.admitted ++ s.permits.release.2.toList }

def turn (s : Session α) : Turn α → Session α
  | .call =>
    { s with
      pool := s.pool.request s.calls
      permits := (s.permits.acquire s.calls).1
      calls := s.calls + 1
      admitted := s.admitted ++ (s.permits.acquire s.calls).2.toList }
  | .handOver job =>
    if job ∈ s.holders ∧ job ∉ s.handed ∧ job ∉ s.gone then
      { s with handed := s.handed ++ [job] }
    else s
  | .finish job ending =>
    if s.Runs job then (s.note job ending).giveBack job else s
  | .leave job =>
    if job ∈ s.gone ∨ s.calls ≤ job then s
    else
      let left := { s with gone := s.gone ++ [job] }
      if job ∈ s.permits.line then
        { left with pool := s.pool.abandon job, permits := s.permits.withdraw job }
      else if job ∈ s.holders ∧ job ∉ s.handed then left.giveBack job
      else left

def run (s : Session α) (ts : List (Turn α)) : Session α := ts.foldl turn s

structure Orderly (s : Session α) : Prop where
  in_order : (s.admitted ++ s.permits.line).Pairwise (· < ·)
  called : ∀ job ∈ s.admitted ++ s.permits.line, job < s.calls
  left : ∀ job ∈ s.gone, job < s.calls
  handed : ∀ job ∈ s.handed, job ∈ s.admitted
  ended : ∀ job ∈ s.ended, job ∈ s.admitted
  attended : ∀ job ∈ s.permits.line, job ∉ s.gone

structure Sound (capacity : Nat) (s : Session α) : Prop extends Orderly s where
  balanced : s.permits.free + s.holders.length = capacity
  exhausted : s.permits.line = [] ∨ s.permits.free = 0
  pool_eq : s.pool = ⟨capacity, s.holders, s.permits.line⟩

theorem keeps_iff : s.keeps job = true ↔
    job ∉ s.ended ∧ (job ∈ s.handed ∨ job ∉ s.gone) := by
  simp [keeps]

theorem mem_holders : job ∈ s.holders ↔
    job ∈ s.admitted ∧ job ∉ s.ended ∧ (job ∈ s.handed ∨ job ∉ s.gone) := by
  rw [holders, List.mem_filter, keeps_iff]

theorem Orderly.not_admitted (h : Orderly s) (hj : job ∈ s.permits.line) :
    job ∉ s.admitted := by
  intro ha
  have hlt := (List.pairwise_append.mp h.in_order).2.2 job ha job hj
  omega

theorem Orderly.nodup_holders (h : Orderly s) : s.holders.Nodup := by
  have hlt := (List.pairwise_append.mp h.in_order).1
  exact (hlt.filter _).imp (fun hij => by omega)

theorem Orderly.keeps_first (h : Orderly s) (hj : job ∈ s.permits.line) :
    s.keeps job = true := by
  rw [keeps_iff]
  constructor
  · intro he
    exact h.not_admitted hj (h.ended job he)
  · exact .inr (h.attended job hj)

theorem Orderly.keeps_new (h : Orderly s) : s.keeps s.calls = true := by
  rw [keeps_iff]
  constructor
  · intro he
    have hlt := h.called _ (List.mem_append_left _ (h.ended _ he))
    omega
  · right
    intro hg
    have hlt := h.left _ hg
    omega

theorem Sound.line_eq_nil (h : Sound capacity s) (hf : 0 < s.permits.free) :
    s.permits.line = [] :=
  h.exhausted.resolve_right (by omega)

theorem Sound.available (h : Sound capacity s) : s.pool.available = s.permits.free := by
  have hb := h.balanced
  rw [h.pool_eq, Pool.available]
  dsimp only
  omega

theorem sound_start (size : Capacity) : Sound (max size.val 1) (start size : Session α) where
  in_order := .nil
  called := by simp [start]
  left := by simp [start]
  handed := by simp [start]
  ended := by simp [start]
  attended := by simp [start]
  balanced := by simp [start, holders]
  exhausted := by simp [start]
  pool_eq := rfl

theorem Orderly.call (h : Orderly s) {admitted line : List Nat} (pool : Pool) (free : Nat)
    (hsame : admitted ++ line = s.admitted ++ s.permits.line ++ [s.calls])
    (hadmitted : ∀ j ∈ s.admitted, j ∈ admitted)
    (hline : ∀ j ∈ line, j ∈ s.permits.line ∨ j = s.calls) :
    Orderly { s with
      pool := pool
      permits := ⟨free, line⟩
      calls := s.calls + 1
      admitted := admitted } where
  in_order := by
    dsimp only
    rw [hsame]
    apply List.pairwise_append.mpr
    refine ⟨h.in_order, List.pairwise_singleton _ _, ?_⟩
    intro i hi j hj
    rw [List.mem_singleton.mp hj]
    exact h.called i hi
  called := by
    dsimp only
    rw [hsame]
    intro j hj
    rcases List.mem_append.mp hj with hj | hj
    · have := h.called j hj
      omega
    · rw [List.mem_singleton.mp hj]
      omega
  left := fun j hj => Nat.lt_succ_of_lt (h.left j hj)
  handed := fun j hj => hadmitted j (h.handed j hj)
  ended := fun j hj => hadmitted j (h.ended j hj)
  attended := by
    intro j hj hg
    rcases hline j hj with hold | rfl
    · exact h.attended j hold hg
    · have := h.left _ hg
      omega

theorem sound_call (h : Sound capacity s) : Sound capacity (s.turn .call) := by
  have hb := h.balanced
  by_cases hf : 0 < s.permits.free
  · have hl := h.line_eq_nil hf
    have hp : s.pool.request s.calls = { s.pool with running := s.pool.running ++ [s.calls] } :=
      request_of_room (by rw [h.pool_eq]; exact hl) (by rw [h.available]; exact hf)
    have hturn : s.turn .call = { s with
        pool := ⟨capacity, s.holders ++ [s.calls], []⟩
        permits := ⟨s.permits.free - 1, []⟩
        calls := s.calls + 1
        admitted := s.admitted ++ [s.calls] } := by
      rw [turn, hp, Semaphore.acquire, if_pos hf, h.pool_eq, hl]
      rfl
    have hholders : (s.turn .call).holders = s.holders ++ [s.calls] := by
      rw [hturn, holders, List.filter_append]
      exact congrArg (s.holders ++ ·) (List.filter_cons_of_pos h.keeps_new)
    refine ⟨?_, ?_, .inl (by rw [hturn]), by rw [hholders, hturn]⟩
    · rw [hturn]
      apply h.toOrderly.call
      · rw [hl, List.append_nil, List.append_nil]
      · intro j hj
        exact List.mem_append_left _ hj
      · simp
    · rw [hholders, List.length_append, List.length_singleton, hturn]
      dsimp only
      omega
  · have hp : s.pool.request s.calls = { s.pool with waiting := s.pool.waiting ++ [s.calls] } :=
      request_of_full (by rw [h.available]; omega)
    have hturn : s.turn .call = { s with
        pool := ⟨capacity, s.holders, s.permits.line ++ [s.calls]⟩
        permits := ⟨s.permits.free, s.permits.line ++ [s.calls]⟩
        calls := s.calls + 1
        admitted := s.admitted } := by
      rw [turn, hp, Semaphore.acquire, if_neg hf, h.pool_eq, Option.toList_none, List.append_nil]
    have hholders : (s.turn .call).holders = s.holders := by
      rw [hturn]
      rfl
    refine ⟨?_, ?_, .inr ?_, by rw [hholders, hturn]⟩
    · rw [hturn]
      apply h.toOrderly.call
      · rw [List.append_assoc]
      · exact fun j hj => hj
      · intro j hj
        simpa using hj
    · rw [hholders, hturn]
      exact hb
    · rw [hturn]
      dsimp only
      omega

theorem mem_line_release {j : Nat} (hj : j ∈ s.permits.release.1.line) : j ∈ s.permits.line := by
  rw [← s.permits.release_line]
  exact List.mem_append_right _ hj

theorem Orderly.giveBack (h : Orderly s) (job : Nat) : Orderly (s.giveBack job) where
  in_order := by
    have ho := h.in_order
    rwa [← s.permits.release_line, ← List.append_assoc] at ho
  called := by
    have hc := h.called
    rwa [← s.permits.release_line, ← List.append_assoc] at hc
  left := h.left
  handed := fun j hj => List.mem_append_left _ (h.handed j hj)
  ended := fun j hj => List.mem_append_left _ (h.ended j hj)
  attended := fun j hj => h.attended j (mem_line_release hj)

structure LetsGo (s : Session α) (job : Nat) (t : Session α) : Prop where
  orderly : Orderly t
  pool : t.pool = s.pool
  permits : t.permits = s.permits
  admitted : t.admitted = s.admitted
  keeps : ∀ j, t.keeps j = true ↔ s.keeps j = true ∧ j ≠ job

theorem LetsGo.holders_giveBack (hl : LetsGo s job t) (h : Orderly s) :
    (t.giveBack job).holders = s.holders.erase job ++ s.permits.release.2.toList := by
  have hkeeps : t.keeps = fun j => (j != job) && s.keeps j := by
    funext j
    rw [Bool.eq_iff_iff, hl.keeps, Bool.and_eq_true, bne_iff_ne, and_comm]
  have hheld : t.admitted.filter t.keeps = s.holders.erase job := by
    rw [hl.admitted, hkeeps, ← List.filter_filter, h.nodup_holders.erase_eq_filter]
    rfl
  have hnext : t.permits.release.2.toList.filter t.keeps = t.permits.release.2.toList := by
    apply List.filter_eq_self.mpr
    intro j hj
    apply hl.orderly.keeps_first
    rw [← t.permits.release_line]
    exact List.mem_append_left _ hj
  rw [← hheld, ← hl.permits, ← hnext, ← List.filter_append]
  rfl

theorem LetsGo.sound (hl : LetsGo s job t) (h : Sound capacity s) (hj : job ∈ s.holders) :
    Sound capacity (t.giveBack job) := by
  have hb := h.balanced
  have hlength := List.length_erase_of_mem hj
  have hpos := List.length_pos_of_mem hj
  have hholders := hl.holders_giveBack h.toOrderly
  have hpermits : (t.giveBack job).permits = s.permits.release.1 := by
    rw [← hl.permits]
    rfl
  have hpool : (t.giveBack job).pool = s.pool.finish job := by
    rw [← hl.pool]
    rfl
  rcases hline : s.permits.line with - | ⟨next, rest⟩
  · have hrelease : s.permits.release = (⟨s.permits.free + 1, []⟩, none) := by
      rw [Semaphore.release, hline]
    have hp : s.pool.finish job = { s.pool with running := s.pool.running.erase job } :=
      finish_of_none (by rw [h.pool_eq]; exact hline)
    rw [hrelease] at hholders hpermits
    rw [Option.toList_none, List.append_nil] at hholders
    refine ⟨hl.orderly.giveBack job, ?_, .inl (by rw [hpermits]), ?_⟩
    · rw [hholders, hpermits]
      dsimp only
      omega
    · rw [hpool, hp, hholders, hpermits, h.pool_eq, hline]
  · have hrelease : s.permits.release = (⟨s.permits.free, rest⟩, some next) := by
      rw [Semaphore.release, hline]
    have hp : s.pool.finish job =
        { s.pool with running := s.pool.running.erase job ++ [next], waiting := rest } :=
      finish_of_waiting (by rw [h.pool_eq]; exact hline) (by rw [h.pool_eq]; exact hj)
        (by rw [h.pool_eq]; dsimp only; omega)
    have hexhausted := h.exhausted
    rw [hline] at hexhausted
    rw [hrelease] at hholders hpermits
    rw [Option.toList_some] at hholders
    refine ⟨hl.orderly.giveBack job, ?_, .inr ?_, ?_⟩
    · rw [hholders, hpermits, List.length_append, List.length_singleton]
      dsimp only
      omega
    · rw [hpermits]
      exact hexhausted.resolve_left nofun
    · rw [hpool, hp, hholders, hpermits, h.pool_eq]

theorem Runs.mem_holders (h : Orderly s) (hr : s.Runs job) : job ∈ s.holders :=
  Session.mem_holders.mpr ⟨h.handed job hr.1, hr.2, .inl hr.1⟩

theorem sound_handOver (h : Sound capacity s) (job : Nat) :
    Sound capacity (s.turn (.handOver job)) := by
  rw [turn]
  split
  · rename_i hjob
    have hmem := mem_holders.mp hjob.1
    have hholders : holders { s with handed := s.handed ++ [job] } = s.holders := by
      apply List.filter_congr
      intro j _
      rw [Bool.eq_iff_iff, keeps_iff, keeps_iff, List.mem_append, List.mem_singleton]
      constructor
      · rintro ⟨he, (hh | rfl) | hg⟩
        · exact ⟨he, .inl hh⟩
        · exact ⟨he, .inr hjob.2.2⟩
        · exact ⟨he, .inr hg⟩
      · rintro ⟨he, hh | hg⟩
        · exact ⟨he, .inl (.inl hh)⟩
        · exact ⟨he, .inr hg⟩
    have ho : Orderly { s with handed := s.handed ++ [job] } := by
      refine { h.toOrderly with handed := ?_ }
      intro j hj
      rcases List.mem_append.mp hj with hj | hj
      · exact h.handed j hj
      · rw [List.mem_singleton.mp hj]
        exact hmem.1
    refine ⟨ho, ?_, h.exhausted, ?_⟩
    · rw [hholders]
      exact h.balanced
    · rw [hholders]
      exact h.pool_eq
  · exact h

theorem Runs.letsGo (hr : s.Runs job) (h : Orderly s) (ending : Ending α) :
    LetsGo s job (s.note job ending) where
  orderly := by
    refine { h with ended := ?_ }
    intro j hj
    rcases List.mem_append.mp hj with hj | hj
    · exact h.ended j hj
    · rw [List.mem_singleton.mp hj]
      exact h.handed job hr.1
  pool := rfl
  permits := rfl
  admitted := rfl
  keeps := by
    intro j
    rw [keeps_iff, keeps_iff, note, List.mem_append, List.mem_singleton, not_or]
    constructor
    · rintro ⟨⟨he, hne⟩, hk⟩
      exact ⟨⟨he, hk⟩, hne⟩
    · rintro ⟨⟨he, hk⟩, hne⟩
      exact ⟨⟨he, hne⟩, hk⟩

theorem turn_finish (hr : s.Runs job) (ending : Ending α) :
    s.turn (.finish job ending) = (s.note job ending).giveBack job := if_pos hr

theorem sound_finish (h : Sound capacity s) (job : Nat) (ending : Ending α) :
    Sound capacity (s.turn (.finish job ending)) := by
  by_cases hr : s.Runs job
  · rw [turn_finish hr]
    exact (hr.letsGo h.toOrderly ending).sound h (hr.mem_holders h.toOrderly)
  · rw [turn, if_neg hr]
    exact h

theorem Orderly.leave (h : Orderly s) (hcalled : job < s.calls) (hline : job ∉ s.permits.line) :
    Orderly { s with gone := s.gone ++ [job] } := by
  refine { h with left := ?_, attended := ?_ }
  · intro j hj
    rcases List.mem_append.mp hj with hj | hj
    · exact h.left j hj
    · rw [List.mem_singleton.mp hj]
      exact hcalled
  · intro j hj hg
    rcases List.mem_append.mp hg with hg | hg
    · exact h.attended j hj hg
    · rw [List.mem_singleton.mp hg] at hj
      exact hline hj

theorem keeps_leave {j : Nat} : keeps { s with gone := s.gone ++ [job] } j = true ↔
    s.keeps j = true ∧ (j ∈ s.handed ∨ j ≠ job) := by
  rw [keeps_iff, keeps_iff, List.mem_append, List.mem_singleton, not_or]
  constructor
  · rintro ⟨he, hh | ⟨hg, hne⟩⟩
    · exact ⟨⟨he, .inl hh⟩, .inl hh⟩
    · exact ⟨⟨he, .inr hg⟩, .inr hne⟩
  · rintro ⟨⟨he, hh | hg⟩, hh' | hne⟩
    · exact ⟨he, .inl hh⟩
    · exact ⟨he, .inl hh⟩
    · exact ⟨he, .inl hh'⟩
    · exact ⟨he, .inr ⟨hg, hne⟩⟩

theorem holders_leave (h : ∀ j ∈ s.holders, j ∈ s.handed ∨ j ≠ job) :
    holders { s with gone := s.gone ++ [job] } = s.holders := by
  apply List.filter_congr
  intro j hj
  rw [Bool.eq_iff_iff, keeps_leave, and_iff_left_iff_imp]
  intro hk
  exact h j (List.mem_filter.mpr ⟨hj, hk⟩)

theorem sound_withdraw (h : Sound capacity s) (hcalled : job < s.calls)
    (hline : job ∈ s.permits.line) :
    Sound capacity { s with
      gone := s.gone ++ [job]
      pool := s.pool.abandon job
      permits := s.permits.withdraw job } := by
  have hnodup : s.permits.line.Nodup :=
    (List.pairwise_append.mp h.in_order).2.1.imp (fun hij => by omega)
  have hsub : (s.permits.line.erase job).Sublist s.permits.line := List.erase_sublist
  have hholders : holders { s with gone := s.gone ++ [job] } = s.holders := by
    apply holders_leave
    intro j hj
    right
    rintro rfl
    exact h.not_admitted hline (mem_holders.mp hj).1
  refine ⟨⟨?_, ?_, ?_, h.handed, h.ended, ?_⟩, ?_, ?_, ?_⟩
  · exact h.in_order.sublist (hsub.append_left _)
  · intro j hj
    exact h.called j ((hsub.append_left _).subset hj)
  · intro j hj
    rcases List.mem_append.mp hj with hj | hj
    · exact h.left j hj
    · rw [List.mem_singleton.mp hj]
      exact hcalled
  · intro j hj hg
    rcases List.mem_append.mp hg with hg | hg
    · exact h.attended j (hsub.subset hj) hg
    · rw [List.mem_singleton.mp hg] at hj
      exact hnodup.not_mem_erase hj
  · exact (congrArg (fun l => s.permits.free + l.length) hholders).trans h.balanced
  · apply h.exhausted.imp_left
    intro hl
    exact absurd hline (by simp [hl])
  · change s.pool.abandon job = ⟨capacity, holders { s with gone := s.gone ++ [job] }, _⟩
    rw [hholders, abandon, h.pool_eq]
    rfl

theorem sound_leave (h : Sound capacity s) (job : Nat) : Sound capacity (s.turn (.leave job)) := by
  rw [turn]
  split
  · exact h
  · rename_i hstays
    rw [not_or, Nat.not_le] at hstays
    dsimp only
    split
    · rename_i hline
      exact sound_withdraw h hstays.2 hline
    · rename_i hline
      have ho := h.toOrderly.leave hstays.2 hline
      split
      · rename_i hjob
        have hl : LetsGo s job { s with gone := s.gone ++ [job] } := by
          refine ⟨ho, rfl, rfl, rfl, ?_⟩
          intro j
          rw [keeps_leave, and_congr_right_iff]
          intro _
          rw [or_iff_right_iff_imp]
          rintro hj rfl
          exact hjob.2 hj
        exact hl.sound h hjob.1
      · rename_i hjob
        have hholders : holders { s with gone := s.gone ++ [job] } = s.holders := by
          apply holders_leave
          intro j hj
          by_cases hne : j = job
          · subst hne
            left
            exact Decidable.of_not_not fun hh => hjob ⟨hj, hh⟩
          · exact .inr hne
        refine ⟨ho, ?_, h.exhausted, ?_⟩
        · rw [hholders]
          exact h.balanced
        · rw [hholders]
          exact h.pool_eq

theorem sound_turn (h : Sound capacity s) (t : Turn α) : Sound capacity (s.turn t) := by
  cases t with
  | call => exact sound_call h
  | handOver job => exact sound_handOver h job
  | finish job ending => exact sound_finish h job ending
  | leave job => exact sound_leave h job

theorem sound_run (h : Sound capacity s) (ts : List (Turn α)) : Sound capacity (s.run ts) := by
  induction ts generalizing s with
  | nil => exact h
  | cons t ts ih => exact ih (sound_turn h t)

theorem runs_turn (hr : s.Runs job) {t : Turn α} (ht : ∀ ending, t ≠ .finish job ending) :
    (s.turn t).Runs job := by
  cases t with
  | call => exact hr
  | handOver other =>
    rw [turn]
    split
    · exact ⟨List.mem_append_left _ hr.1, hr.2⟩
    · exact hr
  | finish other ending =>
    rw [turn]
    split
    · refine ⟨hr.1, ?_⟩
      intro he
      rcases List.mem_append.mp he with he | he
      · exact hr.2 he
      · rw [List.mem_singleton] at he
        subst he
        exact ht ending rfl
    · exact hr
  | leave other =>
    rw [turn]
    split
    · exact hr
    · dsimp only
      split
      · exact hr
      · split <;> exact hr

theorem runs_run (hr : s.Runs job) {ts : List (Turn α)} (hts : ∀ ending, .finish job ending ∉ ts) :
    (s.run ts).Runs job := by
  induction ts generalizing s with
  | nil => exact hr
  | cons t ts ih =>
    apply ih
    · apply runs_turn hr
      rintro ending rfl
      exact hts ending List.mem_cons_self
    · intro ending hmem
      exact hts ending (List.mem_cons_of_mem t hmem)

structure BrokenDown (s : Session α) (job : Nat) (t : Session α) : Prop where
  told : job ∉ s.gone → t.answers = s.answers ++ [(job, .error (.worker "blocking job panicked"))]
  untold : job ∈ s.gone → t.answers = s.answers
  released : job ∉ t.holders
  passed_on : (s.pool.waiting = [] ∧ t.pool.available = s.pool.available + 1) ∨
    ∃ next rest, s.pool.waiting = next :: rest ∧ t.pool.waiting = rest ∧
      t.holders = s.holders.erase job ++ [next]

theorem brokenDown (h : Sound capacity s) (hr : s.Runs job) :
    BrokenDown s job (s.turn (.finish job .panics)) := by
  have hl := hr.letsGo h.toOrderly .panics
  have hholders := hl.holders_giveBack h.toOrderly
  have ht := hl.sound h (hr.mem_holders h.toOrderly)
  rw [turn_finish hr]
  refine ⟨?_, ?_, ?_, ?_⟩
  · intro hstays
    change s.answers ++ (if job ∈ s.gone then [] else _) = _
    rw [if_neg hstays]
    rfl
  · intro hgone
    change s.answers ++ (if job ∈ s.gone then [] else _) = _
    rw [if_pos hgone, List.append_nil]
  · intro hmem
    have hended : job ∈ s.ended ++ [job] := List.mem_append_right _ List.mem_cons_self
    exact (mem_holders.mp hmem).2.1 hended
  · have hpermits : ((s.note job .panics).giveBack job).permits = s.permits.release.1 := rfl
    rw [ht.available, h.available, ht.pool_eq, h.pool_eq, hholders, hpermits]
    rcases hline : s.permits.line with - | ⟨next, rest⟩
    · left
      rw [Semaphore.release, hline]
      exact ⟨rfl, rfl⟩
    · right
      rw [Semaphore.release, hline]
      exact ⟨next, rest, rfl, rfl, rfl⟩

theorem holders_call (h : Sound capacity s) (hfree : 0 < s.permits.free) :
    (s.turn .call).admitted = s.admitted ++ [s.calls] ∧
      (s.turn .call).holders = s.holders ++ [s.calls] := by
  have hadmitted : (s.turn .call).admitted = s.admitted ++ [s.calls] := by
    rw [turn, Semaphore.acquire, if_pos hfree]
    rfl
  refine ⟨hadmitted, ?_⟩
  change (s.turn .call).admitted.filter s.keeps = _
  rw [hadmitted, List.filter_append]
  exact congrArg (s.holders ++ ·) (List.filter_cons_of_pos h.keeps_new)

theorem line_call (hfree : s.permits.free = 0) :
    (s.turn .call).permits.line = s.permits.line ++ [s.calls] := by
  rw [turn, Semaphore.acquire, if_neg (by omega)]

theorem runs_handOver (hj : job ∈ s.holders) (hstays : job ∉ s.gone) :
    (s.turn (.handOver job)).Runs job := by
  have hended := (mem_holders.mp hj).2.1
  rw [turn]
  split
  · exact ⟨List.mem_append_right _ List.mem_cons_self, hended⟩
  · rename_i hcond
    exact ⟨Decidable.of_not_not fun hh => hcond ⟨hj, hh, hstays⟩, hended⟩

structure Accounted (size : Capacity) (s : Session α) : Prop where
  bounded : s.holders.length ≤ max size.val 1
  balanced : s.pool.available + s.holders.length = max size.val 1
  pool_running : s.pool.running = s.holders
  pool_waiting : s.pool.waiting = s.permits.line
  pool_available : s.pool.available = s.permits.free
  in_order : (s.admitted ++ s.pool.waiting).Pairwise (· < ·)
  granted : 0 < s.pool.available → (s.turn .call).admitted = s.admitted ++ [s.calls] ∧
    (s.turn .call).holders = s.holders ++ [s.calls]
  lined_up : s.pool.available = 0 → (s.turn .call).pool.waiting = s.pool.waiting ++ [s.calls]
  started : ∀ job ∈ s.holders, job ∉ s.gone → (s.turn (.handOver job)).Runs job
  kept : ∀ job, s.Runs job → ∀ ts : List (Turn α), (∀ ending, .finish job ending ∉ ts) →
    job ∈ (s.run ts).holders
  broken_down : ∀ job, s.Runs job → BrokenDown s job (s.turn (.finish job .panics))

end Session

open Session in
/-- Whatever callers and jobs do in whatever order, the permits that are free and those of the
jobs under way make up the pool; permits are granted in the order of the calls, at once where one
is free, and a job that has been handed over has its permit until it ends. -/
theorem permits_accounted (size : Capacity) (ts : List (Turn α)) :
    Accounted size ((start size).run ts) := by
  have h : Sound (max size.val 1) ((start size : Session α).run ts) :=
    sound_run (sound_start size) ts
  have hb := h.balanced
  have ha := h.available
  refine ⟨by omega, by omega, by rw [h.pool_eq], by rw [h.pool_eq], ha, ?_, ?_, ?_, ?_, ?_, ?_⟩
  · rw [h.pool_eq]
    exact h.in_order
  · intro hfree
    exact holders_call h (ha ▸ hfree)
  · intro hnone
    rw [(sound_call h).pool_eq, h.pool_eq]
    exact line_call (ha ▸ hnone)
  · exact fun job hj hstays => runs_handOver hj hstays
  · intro job hr us hus
    have hlater := sound_run h us
    exact (runs_run hr hus).mem_holders hlater.toOrderly
  · exact fun job hr => brokenDown h hr

def Session.busy : Session Nat :=
  (start 2).run [.call, .call, .call, .handOver 1, .handOver 0, .leave 1]

theorem permits_accounted_busy :
    (Session.busy.Runs 0 ∧ Session.busy.Runs 1 ∧ Session.busy.pool = ⟨2, [0, 1], [2]⟩ ∧
      (Session.busy.turn (.finish 0 .panics)).pool = ⟨2, [1, 2], []⟩) ∧
    Session.Accounted 2 Session.busy :=
  ⟨by decide +kernel, permits_accounted 2 _⟩

end Pool

end HttpRelay
