/-
Unwind.Proofs.Session — sessions step by step.

  §1 Moves     — what one step of a session can do (`move_step`). Whatever holds
                 after any step is proved by cases on `Move`.
  §2 Effects   — what a step does to the dispatches in progress, and what it adds
                 to the history (`Move.effect`). That is of the innermost dispatch
                 or of one that begins (`Move.history`).
  §3 Nesting   — while a body runs, the dispatches around it stay as they are
                 and nothing happens in them (`within_iterate`).
  §4 Order     — in the registries of a session that can come about the hooks
                 stand in the order of their registration (`Reachable.ordered`).
-/
import Mathlib.Data.List.Pairwise
import Mathlib.Logic.Function.Iterate
import Unwind.Hook.Session

namespace Unwind

variable {σ κ : Type}

/-- The dispatch that an occurrence belongs to. -/
def Occurrence.call? : Occurrence → Option Nat
  | dispatched call _ _ | judged call _ _ | skipped call _ | started call _
  | finished call _ | returned call _ => some call
  | _ => none

/-- Whether an occurrence adds to what can run. -/
def Occurrence.grows : Occurrence → Bool
  | registered .. | renewed _ => true
  | _ => false

/-- Whether a program is about to add to what can run. -/
def Program.grows : Program σ κ → Bool
  | register .. | renew _ => true
  | _ => false

namespace Session

variable {m m' : Session σ κ}

/-! ## §1 Moves -/

/-- What one step can do: answer a request, or let the innermost dispatch go on. -/
inductive Move (m : Session σ κ) : Session σ κ → Prop
  /-- The program has run to its end. -/
  | rest (done : m.running = .done) (calls : m.calls = []) : Move m m
  /-- A request that concerns neither registries nor dispatches. -/
  | look {state shared running} (busy : m.running ≠ .done) :
      Move m { m with state := state, shared := shared, running := running }
  | report {reports next} (asked : m.running = .report reports next) :
      Move m ({ m with running := next }.record (.reported reports))
  | register {once accepts body next} (asked : m.running = .register once accepts body next) :
      Move m { (m.register once accepts body).2 with
        running := next (m.register once accepts body).1 }
  | cancel {hook next} (asked : m.running = .cancel hook next) :
      Move m { (m.cancel hook).2 with running := next (m.cancel hook).1 }
  | renew {next} (asked : m.running = .renew next) : Move m { m.renew with running := next }
  | dispatch {event next} (asked : m.running = .dispatch event next) :
      Move m (m.dispatch event next)
  | finish {call outer hook} (done : m.running = .done) (calls : m.calls = call :: outer)
      (active : call.active = some hook) :
      Move m ({ m with calls := { call with active := none, ran := call.ran + 1 } :: outer }.record
        (.finished call.id hook))
  | skip {call outer hook pending} (done : m.running = .done) (calls : m.calls = call :: outer)
      (active : call.active = none) (turn : call.pending = hook :: pending)
      (may : m.mayStart hook = false) :
      Move m ({ m with calls := { call with pending := pending, active := none } :: outer }.record
        (.skipped call.id hook.id))
  | start {call outer hook pending} (done : m.running = .done) (calls : m.calls = call :: outer)
      (active : call.active = none) (turn : call.pending = hook :: pending)
      (may : m.mayStart hook = true) :
      Move m ({ m.retire hook with
        calls := { call with pending := pending, active := some hook.id } :: outer
        running := hook.body call.event }.record (.started call.id hook.id))
  | leave {call outer} (done : m.running = .done) (calls : m.calls = call :: outer)
      (active : call.active = none) (turn : call.pending = []) :
      Move m ({ m with calls := outer, running := call.next call.ran }.record
        (.returned call.id call.ran))

theorem move_step (m : Session σ κ) : Move m m.step := by
  unfold step
  cases asked : m.running with
  | done =>
    cases calls : m.calls with
    | nil => exact .rest asked calls
    | cons call outer =>
      simp only [advance]
      cases active : call.active with
      | some hook => exact .finish asked calls active
      | none =>
        cases turn : call.pending with
        | nil => exact .leave asked calls active turn
        | cons hook pending =>
          by_cases may : m.mayStart hook = true
          · simp only [if_pos may]
            exact .start asked calls active turn may
          · simp only [if_neg may]
            exact .skip asked calls active turn (Bool.not_eq_true _ ▸ may)
  | report reports next => exact .report asked
  | register once accepts body next => exact .register asked
  | cancel hook next => exact .cancel asked
  | dispatch event next => exact .dispatch asked
  | renew next => exact .renew asked
  | inspect next => exact .look (by simp [asked])
  | update change next => exact .look (by simp [asked])
  | isLive hook next => exact .look (by simp [asked])
  | size next => exact .look (by simp [asked])

/-! ## §2 Effects -/

/-- Cancelling a hook leaves a session as it is but for the registrations and
the registries, and is told. -/
theorem cancel_eq (m : Session σ κ) (hook : Nat) :
    ∃ registries registrations cookie, (m.cancel hook).2 =
      { m with
        registries := registries
        registrations := registrations
        history := m.history.push (.cancelled hook cookie) } := by
  unfold cancel
  cases m.registrations[hook]? with
  | none => exact ⟨_, _, _, rfl⟩
  | some r =>
    by_cases live : r.live = true
    · simp only [if_pos live]
      exact ⟨_, _, _, rfl⟩
    · simp only [if_neg live]
      exact ⟨_, _, _, rfl⟩

/-- So does a hook that retires, which may have nothing to tell. -/
theorem retire_eq (m : Session σ κ) (hook : Hook σ κ) :
    ∃ registries registrations history os, m.retire hook =
        { m with registries := registries, registrations := registrations, history := history }
      ∧ history.toList = m.history.toList ++ os
      ∧ ∀ o ∈ os, o.call? = none ∧ o.grows = false := by
  unfold retire
  by_cases once : hook.once = true
  · obtain ⟨registries, registrations, cookie, same⟩ := cancel_eq m hook.id
    rw [if_pos once, same]
    refine ⟨_, _, _, [.cancelled hook.id cookie], rfl, Array.toList_push, ?_⟩
    intro o ho
    rw [List.mem_singleton.mp ho]
    exact ⟨rfl, rfl⟩
  · rw [if_neg once]
    exact ⟨_, _, _, [], rfl, (List.append_nil _).symm, fun o ho => absurd ho List.not_mem_nil⟩

/-- What a dispatch tells as it begins: which hooks it judged, and how. -/
def opening (d registry : Nat) (event : Event) (verdicts : List (Hook σ κ × Bool)) :
    List Occurrence :=
  .dispatched d registry event :: verdicts.map fun (hook, accepted) =>
    .judged d hook.id accepted

theorem mem_opening {d registry : Nat} {event : Event} {verdicts : List (Hook σ κ × Bool)}
    {o : Occurrence} : o ∈ opening d registry event verdicts
      ↔ o = .dispatched d registry event
        ∨ ∃ verdict ∈ verdicts, o = .judged d verdict.1.id verdict.2 := by
  simp only [opening, List.mem_cons, List.mem_map, eq_comm]

theorem call?_of_mem_opening {d registry : Nat} {event : Event}
    {verdicts : List (Hook σ κ × Bool)} {o : Occurrence}
    (h : o ∈ opening d registry event verdicts) : o.call? = some d := by
  rcases mem_opening.mp h with rfl | ⟨verdict, -, rfl⟩ <;> rfl

theorem toList_history_dispatch (m : Session σ κ) (event : Event) (next : Nat → Program σ κ) :
    (m.dispatch event next).history.toList = m.history.toList
      ++ opening m.dispatches m.current event (judge event m.view m.hooks m.shared).1 := by
  simp only [dispatch, opening, Array.toList_append, Array.toList_push, List.append_assoc,
    List.singleton_append]

/-- What a step does to the dispatches in progress, and what is told of it. Most
requests concern no dispatch. -/
inductive Effect (m : Session σ κ) : Session σ κ → List Occurrence → Prop
  /-- A request is answered, or there is nothing left to do. -/
  | request {m' os} (idle : m.running = .done → m.calls = [])
      (calls : m'.calls = m.calls) (dispatches : m'.dispatches = m.dispatches)
      (outside : ∀ o ∈ os, o.call? = none)
      (grows : ∀ o ∈ os, o.grows = true → m.running.grows = true) : Effect m m' os
  | dispatch {event next} (asked : m.running = .dispatch event next) :
      Effect m (m.dispatch event next)
        (opening m.dispatches m.current event (judge event m.view m.hooks m.shared).1)
  | finish {call outer hook} (done : m.running = .done) (calls : m.calls = call :: outer)
      (active : call.active = some hook) :
      Effect m ({ m with
        calls := { call with active := none, ran := call.ran + 1 } :: outer }.record
          (.finished call.id hook)) [.finished call.id hook]
  | skip {call outer hook pending} (done : m.running = .done) (calls : m.calls = call :: outer)
      (active : call.active = none) (turn : call.pending = hook :: pending) :
      Effect m ({ m with calls := { call with pending := pending, active := none } :: outer }.record
        (.skipped call.id hook.id)) [.skipped call.id hook.id]
  | start {call outer hook pending m' os} (done : m.running = .done)
      (calls : m.calls = call :: outer) (active : call.active = none)
      (turn : call.pending = hook :: pending) (may : m.mayStart hook = true)
      (begun : m'.calls = { call with pending := pending, active := some hook.id } :: outer)
      (body : m'.running = hook.body call.event) (dispatches : m'.dispatches = m.dispatches)
      (retired : ∀ o ∈ os, o.call? = none ∧ o.grows = false) :
      Effect m m' (os ++ [.started call.id hook.id])
  | leave {call outer} (done : m.running = .done) (calls : m.calls = call :: outer)
      (active : call.active = none) (turn : call.pending = []) :
      Effect m ({ m with calls := outer, running := call.next call.ran }.record
        (.returned call.id call.ran)) [.returned call.id call.ran]

/-- What happens in any step. The cases are split here for all that is to be known of
dispatches after a step; what becomes of the books is another matter. -/
theorem Move.effect (h : Move m m') :
    ∃ os, m'.history.toList = m.history.toList ++ os ∧ Effect m m' os := by
  have silent : ∀ o ∈ ([] : List Occurrence), o.call? = none :=
    fun o ho => absurd ho List.not_mem_nil
  cases h with
  | rest done calls =>
    exact ⟨[], (List.append_nil _).symm, .request (fun _ => calls) rfl rfl silent (by simp)⟩
  | look busy =>
    exact ⟨[], (List.append_nil _).symm,
      .request (fun done => absurd done busy) rfl rfl silent (by simp)⟩
  | report asked =>
    exact ⟨[_], Array.toList_push, .request (by simp [asked]) rfl rfl
      (by simp [Occurrence.call?]) (by simp [Occurrence.grows])⟩
  | register asked =>
    exact ⟨[_], Array.toList_push, .request (by simp [asked]) rfl rfl
      (by simp [Occurrence.call?]) (by simp [asked, Program.grows])⟩
  | @cancel hook next asked =>
    obtain ⟨registries, registrations, cookie, same⟩ := cancel_eq m hook
    rw [same]
    exact ⟨[_], Array.toList_push, .request (by simp [asked]) rfl rfl
      (by simp [Occurrence.call?]) (by simp [Occurrence.grows])⟩
  | renew asked =>
    exact ⟨[_], Array.toList_push, .request (by simp [asked]) rfl rfl
      (by simp [Occurrence.call?]) (by simp [asked, Program.grows])⟩
  | dispatch asked => exact ⟨_, toList_history_dispatch m _ _, .dispatch asked⟩
  | finish done calls active => exact ⟨_, Array.toList_push, .finish done calls active⟩
  | skip done calls active turn _ => exact ⟨_, Array.toList_push, .skip done calls active turn⟩
  | @start call outer hook pending done calls active turn may =>
    obtain ⟨registries, registrations, history, os, same, told, retired⟩ := retire_eq m hook
    rw [same]
    refine ⟨os ++ [.started call.id hook.id], ?_,
      .start done calls active turn may ?_ ?_ ?_ retired⟩
    · simp only [record, Array.toList_push, told, List.append_assoc]
    · rfl
    · rfl
    · rfl
  | leave done calls active turn => exact ⟨_, Array.toList_push, .leave done calls active turn⟩

/-- What belongs to a dispatch belongs to one that begins or, if no body is running, to
the innermost one. -/
theorem Effect.belongs {os : List Occurrence} (h : Effect m m' os) {o : Occurrence} {d : Nat}
    (told : o ∈ os) (hd : o.call? = some d) :
    d = m.dispatches ∨ m.running = .done ∧ ∃ call outer, m.calls = call :: outer ∧ d = call.id := by
  cases h with
  | request idle calls dispatches outside grows => exact absurd hd (by simp [outside o told])
  | dispatch asked =>
    rw [call?_of_mem_opening told] at hd
    exact .inl (Option.some.inj hd).symm
  | @start call outer hook pending _ os done calls active turn may begun body dispatches retired =>
    rcases List.mem_append.mp told with before | started
    · exact absurd hd (by simp [(retired o before).1])
    · rw [List.mem_singleton.mp started] at hd
      exact .inr ⟨done, call, outer, calls, (Option.some.inj hd).symm⟩
  | finish done calls | skip done calls | leave done calls =>
    rw [List.mem_singleton.mp told] at hd
    exact .inr ⟨done, _, _, calls, (Option.some.inj hd).symm⟩

/-- A step adds to the history, and only so. -/
theorem Move.history (h : Move m m') :
    ∃ os, m'.history.toList = m.history.toList ++ os
      ∧ ∀ o ∈ os, ∀ d, o.call? = some d →
        d = m.dispatches
          ∨ m.running = .done ∧ ∃ call outer, m.calls = call :: outer ∧ d = call.id := by
  obtain ⟨os, told, effect⟩ := h.effect
  exact ⟨os, told, fun o ho d => effect.belongs ho⟩

/-! ## §3 Nesting -/

/-- A request leaves the dispatches in progress alone or begins one. If there
is none the innermost dispatch goes on, or returns. -/
theorem Move.calls (h : Move m m') :
    (m'.dispatches = m.dispatches
      ∧ (m'.calls = m.calls
        ∨ m.running = .done ∧ ∃ call outer, m.calls = call :: outer
          ∧ (m'.calls = outer ∨ ∃ call', m'.calls = call' :: outer ∧ call'.id = call.id)))
    ∨ m'.dispatches = m.dispatches + 1
      ∧ ∃ call, call.id = m.dispatches ∧ m'.calls = call :: m.calls := by
  obtain ⟨os, -, effect⟩ := h.effect
  cases effect with
  | request idle calls dispatches => exact .inl ⟨dispatches, .inl calls⟩
  | dispatch asked => exact .inr ⟨rfl, _, rfl, rfl⟩
  | finish done calls | skip done calls =>
    exact .inl ⟨rfl, .inr ⟨done, _, _, calls, .inr ⟨_, rfl, rfl⟩⟩⟩
  | start done calls active turn may begun body dispatches =>
    exact .inl ⟨dispatches, .inr ⟨done, _, _, calls, .inr ⟨_, begun, rfl⟩⟩⟩
  | leave done calls => exact .inl ⟨rfl, .inr ⟨done, _, _, calls, .inl rfl⟩⟩

/-- The body that was running on top of some dispatches has run to its end. -/
def Back (base : List (Call σ κ)) (m : Session σ κ) : Prop := m.running = .done ∧ m.calls = base

/-- A body is running on top of some dispatches. What it has begun to dispatch
since there were `floor` dispatches lies above them. -/
structure Within (base : List (Call σ κ)) (floor : Nat) (m : Session σ κ) : Prop where
  calls : ∃ inner, m.calls = inner ++ base ∧ ∀ call ∈ inner, floor ≤ call.id
  dispatches : floor ≤ m.dispatches

/-- Occurrences that belong to no dispatch before a given one. -/
def Since (floor : Nat) (os : List Occurrence) : Prop :=
  ∀ o ∈ os, ∀ d, o.call? = some d → floor ≤ d

variable {base : List (Call σ κ)} {floor : Nat}

/-- The innermost dispatch is not one of those below, unless the body is back. -/
theorem Within.innermost (within : Within base floor m) (away : ¬ Back base m)
    (done : m.running = .done) {call : Call σ κ} {outer : List (Call σ κ)}
    (calls : m.calls = call :: outer) :
    ∃ inner, outer = inner ++ base ∧ floor ≤ call.id ∧ ∀ call ∈ inner, floor ≤ call.id := by
  obtain ⟨inner, split, above⟩ := within.calls
  cases inner with
  | nil => exact absurd ⟨done, split⟩ away
  | cons top inner =>
    rw [calls, List.cons_append] at split
    obtain ⟨rfl, rfl⟩ := List.cons.inj split
    exact ⟨inner, rfl, above call List.mem_cons_self,
      fun c hc => above c (List.mem_cons_of_mem _ hc)⟩

theorem Move.within (h : Move m m') (within : Within base floor m) (away : ¬ Back base m) :
    Within base floor m' := by
  obtain ⟨inner, split, above⟩ := within.calls
  rcases h.calls with ⟨same, calls | ⟨done, call, outer, calls, popped | ⟨call', kept, id⟩⟩⟩ |
    ⟨one, call, id, calls⟩
  · exact ⟨⟨inner, calls.trans split, above⟩, same ▸ within.dispatches⟩
  · obtain ⟨inner, rfl, -, above⟩ := within.innermost away done calls
    exact ⟨⟨inner, popped, above⟩, same ▸ within.dispatches⟩
  · obtain ⟨inner, rfl, le, above⟩ := within.innermost away done calls
    refine ⟨⟨call' :: inner, kept, ?_⟩, same ▸ within.dispatches⟩
    exact List.forall_mem_cons.mpr ⟨id ▸ le, above⟩
  · refine ⟨⟨call :: inner, by rw [calls, split, List.cons_append], ?_⟩, ?_⟩
    · exact List.forall_mem_cons.mpr ⟨id ▸ within.dispatches, above⟩
    · rw [one]
      exact Nat.le_succ_of_le within.dispatches

/-- Nothing happens meanwhile in the dispatches below. -/
theorem Move.since (h : Move m m') (within : Within base floor m) (away : ¬ Back base m) :
    ∃ os, m'.history.toList = m.history.toList ++ os ∧ Since floor os := by
  obtain ⟨os, told, belongs⟩ := h.history
  refine ⟨os, told, ?_⟩
  intro o ho d hd
  rcases belongs o ho d hd with rfl | ⟨done, call, outer, calls, rfl⟩
  · exact within.dispatches
  · obtain ⟨-, -, le, -⟩ := within.innermost away done calls
    exact le

/-- As long as a body has not come back, the dispatches around it stay as they
are, and nothing happens in them. -/
theorem within_iterate (within : Within base floor m) (n : Nat)
    (away : ∀ k < n, ¬ Back base (step^[k] m)) :
    Within base floor (step^[n] m)
      ∧ ∃ os, (step^[n] m).history.toList = m.history.toList ++ os ∧ Since floor os := by
  induction n with
  | zero =>
    exact ⟨within, [], (List.append_nil _).symm, fun o ho => absurd ho List.not_mem_nil⟩
  | succ n ih =>
    obtain ⟨there, os, told, since⟩ := ih fun k hk => away k (Nat.lt_succ_of_lt hk)
    have here := away n (Nat.lt_succ_self n)
    obtain ⟨more, next, later⟩ := (move_step _).since there here
    rw [Function.iterate_succ_apply']
    refine ⟨(move_step _).within there here, os ++ more, ?_, ?_⟩
    · rw [next, told, List.append_assoc]
    · intro o ho
      rcases List.mem_append.mp ho with before | after
      · exact since o before
      · exact later o after

/-! ## §4 Order -/

/-- The sessions that come about by running a program. -/
def Reachable (m : Session σ κ) : Prop :=
  ∃ state shared program n, step^[n] (start state shared program) = m

/-- What holds at the start and is kept by every step holds of all of them. -/
theorem Reachable.rec_step {P : Session σ κ → Prop} (h : Reachable m)
    (init : ∀ state shared program, P (start state shared program))
    (kept : ∀ {m m'}, Move m m' → P m → P m') : P m := by
  obtain ⟨state, shared, program, n, rfl⟩ := h
  induction n with
  | zero => exact init state shared program
  | succ n ih =>
    rw [Function.iterate_succ_apply']
    exact kept (move_step _) ih

/-- Hooks stand in the order in which they were registered, and all of them
have been. -/
def Ordered (m : Session σ κ) : Prop :=
  ∀ r ∈ m.registries, r.hooks.Pairwise (·.id < ·.id)
    ∧ ∀ hook ∈ r.hooks, hook.id < m.registrations.size

theorem mem_modify {registries : Array (Registry σ κ)} {i : Nat}
    {f : Registry σ κ → Registry σ κ} {r' : Registry σ κ} (h : r' ∈ registries.modify i f) :
    ∃ r ∈ registries, r' = r ∨ r' = f r := by
  obtain ⟨j, hj, rfl⟩ := Array.mem_iff_getElem.mp h
  rw [Array.size_modify] at hj
  rw [Array.getElem_modify]
  refine ⟨registries[j], Array.getElem_mem hj, ?_⟩
  split
  · exact .inr rfl
  · exact .inl rfl

/-- Cancelling a hook leaves every registry part of its hooks, in their order. -/
theorem cancel_registries (m : Session σ κ) (hook : Nat) :
    (m.cancel hook).2.registrations.size = m.registrations.size
      ∧ ∀ r' ∈ (m.cancel hook).2.registries,
        ∃ r ∈ m.registries, r'.hooks.Sublist r.hooks := by
  have same : ∀ r' ∈ m.registries, ∃ r ∈ m.registries, r'.hooks.Sublist r.hooks :=
    fun r' hr' => ⟨r', hr', List.Sublist.refl _⟩
  unfold cancel
  cases m.registrations[hook]? with
  | none => exact ⟨rfl, same⟩
  | some r =>
    by_cases live : r.live = true
    · simp only [if_pos live, withdraw, record, Array.size_setIfInBounds, true_and]
      split
      · intro r' hr'
        obtain ⟨old, hold, rfl | rfl⟩ := mem_modify hr'
        · exact same _ hold
        · exact ⟨old, hold, List.filter_sublist⟩
      · exact same
    · simp only [if_neg live]
      exact ⟨rfl, same⟩

theorem Ordered.of_sublist (h : Ordered m) (size : m'.registrations.size = m.registrations.size)
    (part : ∀ r' ∈ m'.registries, ∃ r ∈ m.registries, r'.hooks.Sublist r.hooks) : Ordered m' := by
  intro r' hr'
  obtain ⟨r, hr, sublist⟩ := part r' hr'
  obtain ⟨sorted, bound⟩ := h r hr
  rw [size]
  exact ⟨sorted.sublist sublist, fun hook hh => bound hook (sublist.subset hh)⟩

theorem Move.ordered (h : Move m m') (ordered : Ordered m) : Ordered m' := by
  cases h with
  | rest done calls => exact ordered
  | look busy => exact ordered
  | report asked => exact ordered
  | @register once accepts body next asked =>
    intro r' hr'
    have added : r' ∈ m.registries.modify m.current fun r =>
        r.add ⟨m.registrations.size, (m.registry m.current).nextCookie, once, accepts, body⟩ := hr'
    obtain ⟨r, hr, same⟩ := mem_modify added
    obtain ⟨sorted, bound⟩ := ordered r hr
    have more : ∀ hook ∈ r.hooks, hook.id < (m.register once accepts body).2.registrations.size := by
      intro hook hh
      simp only [Session.register, record, Array.size_push]
      exact Nat.lt_succ_of_lt (bound hook hh)
    rcases same with rfl | rfl
    · exact ⟨sorted, more⟩
    · -- the new hook comes last, and its number is the highest
      refine ⟨List.pairwise_append.mpr ⟨sorted, List.pairwise_singleton _ _, ?_⟩, ?_⟩
      · intro a ha b hb
        rw [List.mem_singleton.mp hb]
        exact bound a ha
      · intro hook hh
        rcases List.mem_append.mp hh with old | new
        · exact more hook old
        · rw [List.mem_singleton.mp new]
          simp only [Session.register, record, Array.size_push, Nat.lt_succ_self]
  | @cancel hook next asked =>
    obtain ⟨size, part⟩ := cancel_registries m hook
    have cancelled : Ordered (m.cancel hook).2 := ordered.of_sublist size part
    exact cancelled
  | renew asked =>
    intro r' hr'
    rcases Array.mem_push.mp hr' with old | rfl
    · exact ordered r' old
    · exact ⟨List.Pairwise.nil, fun hook hh => absurd hh List.not_mem_nil⟩
  | dispatch asked => exact ordered
  | finish done calls active => exact ordered
  | skip done calls active turn may => exact ordered
  | @start call outer hook pending done calls active turn may =>
    have retired : Ordered (m.retire hook) := by
      unfold retire
      split
      · obtain ⟨size, part⟩ := cancel_registries m hook.id
        exact ordered.of_sublist size part
      · exact ordered
    exact retired
  | leave done calls active turn => exact ordered

theorem Reachable.ordered (h : Reachable m) : Ordered m := by
  refine h.rec_step ?_ Move.ordered
  intro state shared program r hr
  simp only [start, List.mem_toArray, List.mem_singleton] at hr
  rw [hr]
  exact ⟨List.Pairwise.nil, fun hook hh => absurd hh List.not_mem_nil⟩

theorem Ordered.hooks (h : Ordered m) :
    m.hooks.Pairwise (·.id < ·.id) ∧ ∀ hook ∈ m.hooks, hook.id < m.registrations.size := by
  unfold Session.hooks registry
  rw [Array.getD_eq_getD_getElem?]
  cases held : m.registries[m.current]? with
  | none => exact ⟨List.Pairwise.nil, fun hook hh => absurd hh List.not_mem_nil⟩
  | some r => exact h r (Array.mem_of_getElem? held)

end Session

end Unwind
