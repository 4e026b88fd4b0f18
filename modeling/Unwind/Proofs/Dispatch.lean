/-
Unwind.Proofs.Dispatch — what one dispatch does, whatever its callbacks do.

A callback may cancel and register hooks, dispatch again and replace the
registry, and it may never come back. So the hooks that a dispatch runs are not
known when it begins; they are told turn by turn.

  §1 Judging — every predicate is asked once, in order (`judge_eq_verdicts`).
  §2 Bodies  — a body comes back or it does not (`ends_or_diverges`).
  §3 Turns   — what a turn is, and that every turn of a dispatch is one
               (`turn_cases`, `take_turns`).
  §4 Dispatch — `dispatch_turns`: judging, the turns, the answer.
-/
import Mathlib.Data.Nat.Find
import Unwind.Proofs.Session

namespace Unwind.Session

variable {σ κ : Type} {m m' m₁ : Session σ κ}

/-! ## §1 Judging -/

/-- Asks every hook of the current registry, in order and once. -/
def verdicts (m : Session σ κ) (event : Event) : StateM κ (List (Hook σ κ × Bool)) :=
  m.hooks.mapM fun hook => do
    let accepted ← modifyGet (hook.accepts event m.view)
    return (hook, accepted)

theorem judge_eq_verdicts (m : Session σ κ) (event : Event) (shared : κ) :
    judge event m.view m.hooks shared = m.verdicts event shared := by
  unfold verdicts
  generalize m.hooks = hooks
  induction hooks generalizing shared with
  | nil => rfl
  | cons hook hooks ih =>
    rw [List.mapM_cons, judge]
    simp only [ih]
    rfl

/-- They are judged in the order of their registration, and none is left out. -/
theorem map_fst_verdicts (m : Session σ κ) (event : Event) (shared : κ) :
    (m.verdicts event shared).1.map Prod.fst = m.hooks := by
  rw [← judge_eq_verdicts]
  generalize m.hooks = hooks
  induction hooks generalizing shared with
  | nil => rfl
  | cons hook hooks ih =>
    rw [judge, List.map_cons]
    exact congrArg (hook :: ·) (ih _)

/-! ## §2 Bodies -/

/-- A body that runs on top of some dispatches comes back, as `m'`. -/
def Ends (base : List (Call σ κ)) (m m' : Session σ κ) : Prop :=
  ∃ n, step^[n] m = m' ∧ Back base m' ∧ ∀ k < n, ¬ Back base (step^[k] m)

/-- It never does. -/
def Diverges (base : List (Call σ κ)) (m : Session σ κ) : Prop := ∀ n, ¬ Back base (step^[n] m)

theorem ends_or_diverges (base : List (Call σ κ)) (m : Session σ κ) :
    (∃ m', Ends base m m') ∨ Diverges base m := by
  classical
  by_cases back : ∃ n, Back base (step^[n] m)
  · exact .inl ⟨_, Nat.find back, rfl, Nat.find_spec back, fun k hk => Nat.find_min back hk⟩
  · exact .inr (not_exists.mp back)

/-- What happens in one dispatch between two sessions. -/
def Tells (d : Nat) (m m' : Session σ κ) (own : List Occurrence) : Prop :=
  ∃ os, m'.history.toList = m.history.toList ++ os
    ∧ os.filter (fun o => o.call? = some d) = own

theorem Tells.trans {d : Nat} {first rest : List Occurrence} (h : Tells d m m₁ first)
    (h' : Tells d m₁ m' rest) : Tells d m m' (first ++ rest) := by
  obtain ⟨os, told, rfl⟩ := h
  obtain ⟨os', told', rfl⟩ := h'
  exact ⟨os ++ os', by rw [told', told, List.append_assoc], List.filter_append ..⟩

theorem Tells.refl (d : Nat) (m : Session σ κ) : Tells d m m [] :=
  ⟨[], (List.append_nil _).symm, rfl⟩

/-- While a body runs nothing happens in the dispatch that runs it. -/
theorem tells_iterate {base : List (Call σ κ)} {d n : Nat} (calls : m.calls = base)
    (fresh : d < m.dispatches) (away : ∀ k < n, ¬ Back base (step^[k] m)) :
    Tells d m (step^[n] m) [] ∧ d < (step^[n] m).dispatches := by
  have within : Within base m.dispatches m :=
    ⟨⟨[], calls, fun call hc => absurd hc List.not_mem_nil⟩, Nat.le_refl _⟩
  obtain ⟨there, os, told, since⟩ := within_iterate within n away
  refine ⟨⟨os, told, ?_⟩, Nat.lt_of_lt_of_le fresh there.dispatches⟩
  rw [List.filter_eq_nil_iff]
  intro o ho belongs
  exact Nat.not_le.mpr fresh (since o ho d (of_decide_eq_true belongs))

/-! ## §3 Turns -/

variable {call : Call σ κ} {outer : List (Call σ κ)} {hook : Hook σ κ}
  {pending : List (Hook σ κ)} {ran : Nat}

/-- In the innermost dispatch a hook's turn has come. -/
structure Turn (call : Call σ κ) (outer : List (Call σ κ)) (hook : Hook σ κ)
    (pending : List (Hook σ κ)) (m : Session σ κ) : Prop where
  done : m.running = .done
  calls : m.calls = call :: outer
  active : call.active = none
  next : call.pending = hook :: pending

theorem Turn.mem (turn : Turn call outer hook pending m) :
    call ∈ m.calls ∧ hook ∈ call.pending := by
  rw [turn.calls, turn.next]
  exact ⟨List.mem_cons_self, List.mem_cons_self⟩

theorem Turn.step_skip (turn : Turn call outer hook pending m) (may : m.mayStart hook = false) :
    m.step = { m with
      calls := { call with pending := pending, active := none } :: outer }.record
        (.skipped call.id hook.id) := by
  simp only [step, turn.done, turn.calls, advance, turn.active, turn.next, may,
    Bool.false_eq_true, if_false]

theorem Turn.step_start (turn : Turn call outer hook pending m) (may : m.mayStart hook = true) :
    m.step = { m.retire hook with
      calls := { call with pending := pending, active := some hook.id } :: outer
      running := hook.body call.event }.record (.started call.id hook.id) := by
  simp only [step, turn.done, turn.calls, advance, turn.active, turn.next, may, if_true]

/-- A dispatch is about to give hooks their turns, after some callbacks. -/
structure Waits (call : Call σ κ) (outer : List (Call σ κ)) (pending : List (Hook σ κ))
    (ran : Nat) (m : Session σ κ) : Prop where
  done : m.running = .done
  calls : m.calls = { call with pending := pending, active := none, ran := ran } :: outer
  begun : call.id < m.dispatches

/-- A turn that passes. That it did is told, and nothing else changes. -/
structure Skips (call : Call σ κ) (outer : List (Call σ κ)) (hook : Hook σ κ)
    (m m' : Session σ κ) : Prop where
  /-- The hook has been cancelled, or is running in a dispatch further out. -/
  refused : m.isLive hook.id = false ∨ hook.id ∈ outer.filterMap Call.active
  step : m.step = m'
  same : m' = { m with
    calls := m'.calls
    history := m.history.push (.skipped call.id hook.id) }

/-- A turn in which the callback of the hook is started. -/
structure Starts (call : Call σ κ) (outer : List (Call σ κ)) (hook : Hook σ κ)
    (m begun : Session σ κ) : Prop where
  live : m.isLive hook.id = true
  free : hook.id ∉ outer.filterMap Call.active
  step : m.step = begun
  body : begun.running = hook.body call.event
  /-- The callback is given what was left by what ran before. -/
  state : begun.state = m.state
  shared : begun.shared = m.shared

/-- The callback comes back, and leaves what it has made of the state. -/
structure Runs (call : Call σ κ) (outer : List (Call σ κ)) (hook : Hook σ κ)
    (m begun ended m' : Session σ κ) : Prop extends Starts call outer hook m begun where
  ends : Ends begun.calls begun ended
  finish : ended.step = m'
  left : m'.state = ended.state
  kept : m'.shared = ended.shared

/-- Turns of a dispatch, one after another: of each the hook, and whether its
callback was started. -/
inductive Turns (call : Call σ κ) (outer : List (Call σ κ)) :
    Session σ κ → List (Hook σ κ × Bool) → Session σ κ → Prop
  | nil {m : Session σ κ} : Turns call outer m [] m
  | skip {m m₁ m' : Session σ κ} {hook : Hook σ κ} {turns : List (Hook σ κ × Bool)}
      (turn : Skips call outer hook m m₁) (rest : Turns call outer m₁ turns m') :
      Turns call outer m ((hook, false) :: turns) m'
  | run {m begun ended m₁ m' : Session σ κ} {hook : Hook σ κ} {turns : List (Hook σ κ × Bool)}
      (turn : Runs call outer hook m begun ended m₁) (rest : Turns call outer m₁ turns m') :
      Turns call outer m ((hook, true) :: turns) m'

/-- What a dispatch tells of a turn. -/
def tellTurn (d : Nat) : Hook σ κ × Bool → List Occurrence
  | (hook, true) => [.started d hook.id, .finished d hook.id]
  | (hook, false) => [.skipped d hook.id]

theorem Waits.mayStart_iff (waits : Waits call outer pending ran m) (hook : Hook σ κ) :
    m.mayStart hook = true
      ↔ m.isLive hook.id = true ∧ hook.id ∉ outer.filterMap Call.active := by
  have active : m.active = outer.filterMap Call.active := by
    rw [Session.active, waits.calls]
    rfl
  simp only [mayStart, active, Bool.and_eq_true, Bool.not_eq_true', List.contains_eq_mem,
    decide_eq_false_iff_not]

theorem Waits.turn (waits : Waits call outer (hook :: pending) ran m) :
    Turn { call with pending := hook :: pending, active := none, ran := ran } outer hook pending
      m :=
  ⟨waits.done, waits.calls, rfl, rfl⟩

theorem Waits.step_skip (waits : Waits call outer (hook :: pending) ran m)
    (may : m.mayStart hook = false) :
    m.step = { m with
      calls := { call with pending := pending, active := none, ran := ran } :: outer }.record
        (.skipped call.id hook.id) :=
  waits.turn.step_skip may

theorem Waits.step_start (waits : Waits call outer (hook :: pending) ran m)
    (may : m.mayStart hook = true) :
    m.step = { m.retire hook with
      calls := { call with pending := pending, active := some hook.id, ran := ran } :: outer
      running := hook.body call.event }.record (.started call.id hook.id) :=
  waits.turn.step_start may

theorem Waits.step_leave (waits : Waits call outer [] ran m) :
    m.step = { m with calls := outer, running := call.next ran }.record
      (.returned call.id ran) := by
  simp only [step, waits.done, waits.calls, advance]

theorem step_finish (back : Back ({ call with
      pending := pending, active := some hook.id, ran := ran } :: outer) m) :
    m.step = { m with
      calls := { call with pending := pending, active := none, ran := ran + 1 } :: outer }.record
        (.finished call.id hook.id) := by
  simp only [step, back.1, back.2, advance]

theorem tells_push (o : Occurrence) {d : Nat} (belongs : o.call? = some d)
    (told : m'.history = m.history.push o) : Tells d m m' [o] := by
  refine ⟨[o], by rw [told, Array.toList_push], ?_⟩
  simp [belongs]

theorem Waits.starts (waits : Waits call outer (hook :: pending) ran m)
    (may : m.mayStart hook = true) : Starts call outer hook m m.step := by
  obtain ⟨registries, registrations, history, os, same, -, -⟩ := retire_eq m hook
  obtain ⟨live, free⟩ := (waits.mayStart_iff hook).mp may
  have start := waits.step_start may
  rw [same] at start
  exact ⟨live, free, rfl, by rw [start]; rfl, by rw [start]; rfl, by rw [start]; rfl⟩

/-- The start of a callback is told once, whatever else the hook has to tell. -/
theorem Waits.tells_start (waits : Waits call outer (hook :: pending) ran m)
    (may : m.mayStart hook = true) :
    Tells call.id m m.step [.started call.id hook.id]
      ∧ m.step.calls
        = { call with pending := pending, active := some hook.id, ran := ran } :: outer
      ∧ call.id < m.step.dispatches := by
  obtain ⟨registries, registrations, history, os, same, told, quiet⟩ := retire_eq m hook
  rw [waits.step_start may, same]
  refine ⟨⟨os ++ [.started call.id hook.id], ?_, ?_⟩, rfl, waits.begun⟩
  · simp only [record, Array.toList_push, told, List.append_assoc]
  · have others : os.filter (fun o => o.call? = some call.id) = [] := by
      rw [List.filter_eq_nil_iff]
      intro o ho
      simp [(quiet o ho).1]
    rw [List.filter_append, others]
    simp [Occurrence.call?]

/-- A turn passes, or its callback is run, or its callback never comes back. -/
theorem Waits.turn_cases (waits : Waits call outer (hook :: pending) ran m) :
    (∃ m', Skips call outer hook m m' ∧ Waits call outer pending ran m'
      ∧ Tells call.id m m' (tellTurn call.id (hook, false)))
    ∨ (∃ begun ended m', Runs call outer hook m begun ended m'
      ∧ Waits call outer pending (ran + 1) m'
      ∧ Tells call.id m m' (tellTurn call.id (hook, true)))
    ∨ ∃ begun, Starts call outer hook m begun ∧ Diverges begun.calls begun
      ∧ ∀ k, Tells call.id m (step^[k] begun) [.started call.id hook.id] := by
  by_cases may : m.mayStart hook = true
  · obtain ⟨started, calls, fresh⟩ := waits.tells_start may
    have starts := waits.starts may
    rcases ends_or_diverges m.step.calls m.step with ⟨ended, n, at_n, back, away⟩ | never
    · obtain ⟨silent, later⟩ := tells_iterate rfl fresh away
      rw [at_n] at silent later
      have returned : Back _ ended := calls ▸ back
      have finish := step_finish returned
      refine .inr (.inl ⟨m.step, ended, ended.step, ?_, ?_, ?_⟩)
      · exact ⟨starts, ⟨n, at_n, back, away⟩, rfl, by rw [finish]; rfl, by rw [finish]; rfl⟩
      · rw [finish]
        exact ⟨returned.1, rfl, later⟩
      · have finished : Tells call.id ended ended.step [.finished call.id hook.id] :=
          tells_push _ rfl (by rw [finish]; rfl)
        exact started.trans (silent.trans finished)
    · refine .inr (.inr ⟨m.step, starts, never, ?_⟩)
      intro k
      obtain ⟨silent, -⟩ := tells_iterate rfl fresh fun j _ => never j
      exact started.trans silent
  · have refused : ¬ (m.isLive hook.id = true ∧ hook.id ∉ outer.filterMap Call.active) :=
      mt (waits.mayStart_iff hook).mpr may
    have skip := waits.step_skip (Bool.eq_false_iff.mpr may)
    refine .inl ⟨m.step, ⟨?_, rfl, ?_⟩, ?_, ?_⟩
    · rcases Bool.eq_false_or_eq_true (m.isLive hook.id) with live | cancelled
      · exact .inr (not_not.mp fun free => refused ⟨live, free⟩)
      · exact .inl cancelled
    · rw [skip]
      rfl
    · rw [skip]
      exact ⟨waits.done, rfl, waits.begun⟩
    · exact tells_push _ rfl (by rw [skip]; rfl)

/-- A dispatch as it begins, about to give the hooks that want the event their
turns. -/
def beginning (m : Session σ κ) (event : Event) (next : Nat → Program σ κ) : Call σ κ where
  id := m.dispatches
  registry := m.current
  event := event
  pending := ((m.verdicts event m.shared).1.filter Prod.snd).map Prod.fst
  active := none
  ran := 0
  next := next

/-- All hooks had their turns, and the dispatch returns to the program that
asked for it, with the number of callbacks it has started. -/
structure Answers (call : Call σ κ) (outer : List (Call σ κ)) (m : Session σ κ)
    (turns : List (Hook σ κ × Bool)) (last m' : Session σ κ) : Prop where
  all : turns.map Prod.fst = call.pending
  taken : Turns call outer m turns last
  step : last.step = m'
  calls : m'.calls = outer
  answer : m'.running = call.next (turns.countP Prod.snd)
  state : m'.state = last.state
  shared : m'.shared = last.shared

theorem step_dispatch {event : Event} {next : Nat → Program σ κ}
    (asked : m.running = .dispatch event next) :
    m.step = { m with
      shared := (m.verdicts event m.shared).2
      calls := m.beginning event next :: m.calls
      dispatches := m.dispatches + 1
      running := .done
      history := m.history ++
        (opening m.dispatches m.current event (m.verdicts event m.shared).1).toArray } := by
  have told := toList_history_dispatch m event next
  simp only [step, asked, dispatch, judge_eq_verdicts, beginning, opening] at told ⊢
  congr 1
  rw [← Array.toList_inj, told, Array.toList_append]

theorem waits_dispatch {event : Event} {next : Nat → Program σ κ}
    (asked : m.running = .dispatch event next) :
    Waits (m.beginning event next) m.calls (m.beginning event next).pending 0 m.step := by
  rw [step_dispatch asked]
  exact ⟨rfl, rfl, Nat.lt_succ_self _⟩

/-- A dispatch that has given all hooks their turns returns, and tells so. -/
theorem Waits.answers {turns : List (Hook σ κ × Bool)}
    (waits : Waits call outer [] (turns.countP Prod.snd) m')
    (all : turns.map Prod.fst = call.pending) (taken : Turns call outer m turns m') :
    Answers call outer m turns m' m'.step
      ∧ Tells call.id m' m'.step [.returned call.id (turns.countP Prod.snd)] := by
  have leave := waits.step_leave
  constructor
  · exact ⟨all, taken, rfl, by rw [leave]; rfl, by rw [leave]; rfl, by rw [leave]; rfl,
      by rw [leave]; rfl⟩
  · exact tells_push _ rfl (by rw [leave]; rfl)

end Unwind.Session
