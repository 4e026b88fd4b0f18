/-
Unwind.Proofs.OneShot — a hook that is `once` runs at most once, at its first turn.

Several dispatches in progress can have such a hook among those that await
their turns. It runs in the one that comes to its turn first, and it is
cancelled as it begins to, so that none of the others runs it.

  §1 Callbacks — which of them are running (`Move.active`), and that their
                 hooks and those that await their turns have been registered
                 (`Reachable.numbered`).
  §2 Firing    — what happens at the turn of a hook that is `once`
                 (`Intact.fires`).
  §3 Runs      — `runs_once`: from the registration of the hook on.
-/
import Unwind.Proofs.Cancellation

namespace Unwind

variable {σ κ : Type}

/-- Whether an occurrence is the start of a hook's callback. -/
def Occurrence.starts (hook : Nat) : Occurrence → Bool
  | started _ h => h = hook
  | _ => false

namespace Session

variable {m m' : Session σ κ}

/-! ## §1 Callbacks -/

theorem countP_starts {hook : Nat} {os : List Occurrence} (never : ∀ d, .started d hook ∉ os) :
    os.countP (Occurrence.starts hook) = 0 := by
  rw [List.countP_eq_zero]
  intro o there starts
  cases o with
  | started d h =>
    obtain rfl := of_decide_eq_true starts
    exact never d there
  | _ => cases starts

/-- The callbacks that are running are that of the innermost dispatch and those
further out. -/
theorem active_cons {call : Call σ κ} {outer : List (Call σ κ)} (calls : m.calls = call :: outer) :
    m.active = call.active.toList ++ outer.filterMap Call.active := by
  rw [Session.active, calls]
  cases running : call.active <;> simp [running]

/-- A step ends the innermost callback at most, or it starts one that is not running. -/
theorem Move.active_cases (h : Move m m') :
    m'.active <:+ m.active
      ∨ ∃ d id, id ∉ m.active ∧ m'.active = id :: m.active ∧ .started d id ∈ news m m' := by
  obtain ⟨os, told, effect⟩ := h.effect
  cases effect with
  | request idle calls =>
    rw [Session.active, calls]
    exact .inl List.suffix_rfl
  | dispatch asked => exact .inl List.suffix_rfl
  | finish done calls | skip done calls | leave done calls =>
    rw [active_cons calls]
    exact .inl (List.suffix_append _ _)
  | @start call outer hook pending _ os done calls active turn may begun =>
    have free : hook.id ∉ m.active := by simpa [mayStart] using (Bool.and_eq_true_iff.mp may).2
    refine .inr ⟨call.id, hook.id, free, ?_, ?_⟩
    · rw [active_cons begun, active_cons calls, active]
      rfl
    · rw [news_eq told]
      exact List.mem_append_right _ (List.mem_singleton_self _)

/-- A callback that is running was running before, or it has been started. -/
theorem Move.active (h : Move m m') {id : Nat} (running : id ∈ m'.active) :
    id ∈ m.active ∨ ∃ d, .started d id ∈ news m m' := by
  rcases h.active_cases with ended | ⟨d, begun, -, active, started⟩
  · exact .inl (ended.subset running)
  · rw [active] at running
    rcases List.mem_cons.mp running with rfl | before
    · exact .inr ⟨d, started⟩
    · exact .inl before

/-- The hooks that await their turns and those whose callbacks are running have
been registered. -/
structure Numbered (m : Session σ κ) : Prop where
  pending : ∀ call ∈ m.calls, ∀ hook ∈ call.pending, hook.id < m.registrations.size
  active : ∀ id ∈ m.active, id < m.registrations.size

theorem Move.numbered (h : Move m m') (ordered : Ordered m) (numbered : Numbered m) :
    Numbered m' := by
  constructor
  · intro call there hook turn
    refine Nat.lt_of_lt_of_le ?_ h.size_registrations
    rcases h.call there with ⟨call, before, -, -, part⟩ | ⟨-, judged, -⟩
    · exact numbered.pending call before hook (part turn)
    · exact ordered.hooks.2 hook (judged hook turn).1
  · intro id running
    refine Nat.lt_of_lt_of_le ?_ h.size_registrations
    rcases h.active running with before | ⟨d, started⟩
    · exact numbered.active id before
    · obtain ⟨call, outer, hook, pending, turn, -, rfl, -⟩ := h.started started
      exact numbered.pending call turn.mem.1 hook turn.mem.2

theorem Reachable.numbered (h : Reachable m) : Numbered m := by
  have both : Ordered m ∧ Numbered m := by
    refine h.rec_step (P := fun m => Ordered m ∧ Numbered m) ?_ ?_
    · intro state shared program
      exact ⟨Reachable.ordered ⟨_, _, _, 0, rfl⟩, by simp [start], by simp [start, Session.active]⟩
    · intro m m' move kept
      exact ⟨move.ordered kept.1, move.numbered kept.1 kept.2⟩
  exact both.2

/-! ## §2 Firing -/

/-- What holds of a hook that is `once` after some things have happened since
it was registered with a registry. -/
structure Intact (hook : Hook σ κ) (registry : Nat) (os : List Occurrence) (m : Session σ κ) :
    Prop where
  known : ∃ live, m.registrations[hook.id]? = some ⟨registry, hook.cookie, live⟩
  held : ∀ r, ∀ held ∈ (m.registry r).hooks, held.id = hook.id → held = hook
  pending : ∀ call ∈ m.calls, ∀ turn ∈ call.pending, turn.id = hook.id →
    turn = hook ∧ call.registry = registry ∧ .judged call.id hook.id true ∈ os
  /-- Its callback does not run before it has been cancelled. -/
  active : hook.id ∈ m.active → m.isLive hook.id = false
  settled : Settled hook.id (answers hook.id os) m
  starts : os.countP (Occurrence.starts hook.id) ≤ (!m.isLive hook.id).toNat

section firing

variable {hook : Hook σ κ} {registry : Nat} {os : List Occurrence} {call : Call σ κ}
  {outer : List (Call σ κ)} {pending : List (Hook σ κ)}

theorem Intact.live (h : Intact hook registry os m) :
    m.isLive hook.id = (answers hook.id os).isEmpty := h.settled.isLive

/-- A turn of a hook with its number is a turn of the hook. -/
theorem Intact.turn {turn : Hook σ κ} (h : Intact hook registry os m)
    (comes : Turn call outer turn pending m) (same : turn.id = hook.id) :
    turn = hook ∧ call.registry = registry ∧ .judged call.id hook.id true ∈ os :=
  h.pending call comes.mem.1 turn comes.mem.2 same

theorem Turn.step_once (turn : Turn call outer hook pending m) (may : m.mayStart hook = true)
    (once : hook.once = true) :
    m.step = { (m.cancel hook.id).2 with
      calls := { call with pending := pending, active := some hook.id } :: outer
      running := hook.body call.event }.record (.started call.id hook.id) := by
  rw [turn.step_start may, retire, if_pos once]

/-- As the callback of a hook that is `once` starts, the hook is not live any
more and has left its registry. -/
structure Fires (hook : Hook σ κ) (call : Call σ κ) (registry : Nat) (m : Session σ κ) :
    Prop where
  running : m.step.running = hook.body call.event
  /-- The callback is given what was left by what ran before. -/
  state : m.step.state = m.state
  shared : m.step.shared = m.shared
  told : news m m.step
    = [.cancelled hook.id (some hook.cookie), .started call.id hook.id]
  cancelled : m.step.isLive hook.id = false
  existing : m.step.hasRegistry registry = true
  left : ∀ held ∈ (m.step.registry registry).hooks, held.id ≠ hook.id

theorem Reachable.step (h : Reachable m) : Reachable m.step := by
  obtain ⟨state, shared, program, n, rfl⟩ := h
  exact ⟨state, shared, program, n + 1, Function.iterate_succ_apply' ..⟩

theorem Reachable.iterate (h : Reachable m) (n : Nat) : Reachable (Session.step^[n] m) := by
  induction n with
  | zero => exact h
  | succ n ih =>
    rw [Function.iterate_succ_apply']
    exact ih.step

/-- A hook that has been cancelled is in no registry that exists. -/
theorem Reachable.not_held (h : Reachable m) {r id : Nat} (there : m.hasRegistry r = true)
    (dead : m.isLive id = false) : ∀ held ∈ (m.registry r).hooks, held.id ≠ id := by
  rintro held mem rfl
  rw [h.live_of_mem r there held mem] at dead
  cases dead

/-- The callback is started at the hook's turn if the hook is live. -/
theorem Intact.fires (h : Intact hook registry os m) (reachable : Reachable m)
    (once : hook.once = true) (turn : Turn call outer hook pending m)
    (live : m.isLive hook.id = true) : Fires hook call registry m := by
  -- it is not running further out, as it would have been cancelled before that
  have free : hook.id ∉ m.active := by
    intro running
    rw [h.active running] at live
    cases live
  have may : m.mayStart hook = true := by simp [mayStart, live, free]
  obtain ⟨-, home, -⟩ := h.turn turn rfl
  obtain ⟨was, known⟩ := h.known
  have alive : was = true := by
    rw [isLive, known] at live
    exact live
  have step := turn.step_once may once
  obtain ⟨-, told⟩ := cancel_known known
  obtain ⟨-, dead, -⟩ := cancel_answers m hook.id
  obtain ⟨registries, registrations, cookie, eq⟩ := cancel_eq m hook.id
  have cancelled : m.step.isLive hook.id = false := by
    rw [step]
    exact (dead hook.id).trans (by simp)
  have existing : m.step.hasRegistry registry = true := by
    rw [step]
    simp [hasRegistry, record, home]
  rw [eq] at step told
  refine ⟨by rw [step]; rfl, by rw [step]; rfl, by rw [step]; rfl, ?_, cancelled, existing,
    reachable.step.not_held existing cancelled⟩
  rw [step]
  rw [alive, if_pos rfl] at told
  exact news_push_push told rfl

/-- It is not if the hook is not live. -/
theorem Turn.passes (turn : Turn call outer hook pending m) (dead : m.isLive hook.id = false) :
    news m m.step = [.skipped call.id hook.id] := by
  rw [turn.step_skip (by simp [mayStart, dead])]
  exact news_push rfl

/-- A step starts the callback of the hook, or it has nothing to do with it. -/
theorem Intact.starts_or_not (h : Intact hook registry os m) (reachable : Reachable m)
    (once : hook.once = true) :
    (m.isLive hook.id = true ∧ ∃ call, Fires hook call registry m)
      ∨ ∀ d, .started d hook.id ∉ news m m.step := by
  by_cases starting : ∃ d, .started d hook.id ∈ news m m.step
  · obtain ⟨d, started⟩ := starting
    obtain ⟨call, outer, turn, pending, comes, may, same, -⟩ := (move_step m).started started
    obtain ⟨rfl, -⟩ := h.turn comes same
    have live : m.isLive turn.id = true := (Bool.and_eq_true_iff.mp may).1
    exact .inl ⟨live, call, h.fires reachable once comes live⟩
  · exact .inr (not_exists.mp starting)

theorem Intact.held_step (h : Intact hook registry os m) (reachable : Reachable m) :
    ∀ r, ∀ held ∈ (m.step.registry r).hooks, held.id = hook.id → held = hook := by
  intro r held there same
  rcases (move_step m).held reachable.some_registry there with before |
    ⟨once, accepts, body, next, -, rfl⟩
  · exact h.held r held before same
  · obtain ⟨live, known⟩ := h.known
    obtain ⟨bound, -⟩ := Array.getElem?_eq_some_iff.mp known
    exact absurd same (Nat.ne_of_gt bound)

theorem Intact.pending_step (h : Intact hook registry os m) (reachable : Reachable m) :
    ∀ call ∈ m.step.calls, ∀ turn ∈ call.pending, turn.id = hook.id → turn = hook
      ∧ call.registry = registry ∧ .judged call.id hook.id true ∈ os ++ news m m.step := by
  intro call there turn waiting same
  rcases (move_step m).call there with ⟨call', before, id, home, part⟩ | ⟨home, judged, -⟩
  · obtain ⟨is, was, judged⟩ := h.pending call' before turn (part waiting) same
    rw [id, home]
    exact ⟨is, was, List.mem_append_left _ judged⟩
  · -- a dispatch that begins: what it has await a turn is held by the current registry
    obtain ⟨held, judged⟩ := judged turn waiting
    obtain rfl := h.held m.current turn held same
    obtain ⟨live, known⟩ := h.known
    obtain ⟨live, there⟩ := reachable.registered m.current turn held
    have entry := Option.some.inj (there.symm.trans known)
    exact ⟨rfl, home.trans (congrArg Registration.registry entry), List.mem_append_right _ judged⟩

/-- A hook that was cancelled before stays so, and one that is started now is
cancelled in the same step. -/
theorem Intact.active_step (h : Intact hook registry os m) (reachable : Reachable m)
    (once : hook.once = true) {cancelled : Bool} (answered : Answered hook.id cancelled m m.step)
    (running : hook.id ∈ m.step.active) : m.step.isLive hook.id = false := by
  rcases (move_step m).active running with before | ⟨d, started⟩
  · rw [answered.live, h.active before, Bool.false_and]
  · rcases h.starts_or_not reachable once with ⟨-, call, fires⟩ | never
    · exact fires.cancelled
    · exact absurd started (never d)

theorem Intact.starts_step (h : Intact hook registry os m) (reachable : Reachable m)
    (once : hook.once = true) {cancelled : Bool}
    (answered : Answered hook.id cancelled m m.step) :
    (os ++ news m m.step).countP (Occurrence.starts hook.id)
      ≤ (!m.step.isLive hook.id).toNat := by
  rw [List.countP_append]
  rcases h.starts_or_not reachable once with ⟨live, call, fires⟩ | never
  · have none : os.countP (Occurrence.starts hook.id) = 0 := by
      simpa [live] using h.starts
    rw [none, fires.told, fires.cancelled]
    simp [Occurrence.starts]
  · rw [countP_starts never, answered.live]
    refine Nat.le_trans h.starts ?_
    cases m.isLive hook.id <;> simp

theorem Intact.step (h : Intact hook registry os m) (reachable : Reachable m)
    (once : hook.once = true) : Intact hook registry (os ++ news m m.step) m.step := by
  obtain ⟨live, known⟩ := h.known
  obtain ⟨bound, -⟩ := Array.getElem?_eq_some_iff.mp known
  obtain ⟨cancelled, answered, -⟩ := (move_step m).answers bound
  have settled := h.settled.answered answered
  rw [← answers_append] at settled
  exact ⟨(move_step m).registered known, h.held_step reachable, h.pending_step reachable,
    h.active_step reachable once answered, settled, h.starts_step reachable once answered⟩

theorem Intact.iterate (h : Intact hook registry os m) (reachable : Reachable m)
    (once : hook.once = true) (n : Nat) :
    Intact hook registry (os ++ news m (Session.step^[n] m)) (Session.step^[n] m) := by
  induction n with
  | zero => simpa [news_same] using h
  | succ n ih =>
    rw [news_iterate_succ, ← List.append_assoc, Function.iterate_succ_apply']
    exact ih.step (reachable.iterate n) once

/-- The predicate of a hook that has been cancelled is never asked. -/
theorem Intact.not_judged (h : Intact hook registry os m) (reachable : Reachable m)
    (ended : answers hook.id os ≠ []) (n d : Nat) (accepted : Bool) :
    .judged d hook.id accepted ∉ news m (Session.step^[n] m) := by
  intro judged
  obtain ⟨k, -, judged⟩ := mem_news_iterate judged
  obtain ⟨held, there, same⟩ := (move_step _).judged judged
  obtain ⟨live, known⟩ := h.known
  exact (reachable.iterate k).not_held (by simp [hasRegistry]) (h.settled.dead known ended k)
    held there same

end firing

/-! ## §3 Runs -/

/-- How it stands with a hook that is `once`, some things having happened since
it was registered. -/
structure OneShot (hook : Hook σ κ) (registry : Nat) (os : List Occurrence) (m : Session σ κ) :
    Prop where
  starts : os.countP (Occurrence.starts hook.id) ≤ 1
  /-- It has turns only in dispatches on its registry, and only where it was
  asked whether it wants the event, and did. -/
  turns : ∀ {call outer turn pending}, Turn call outer turn pending m → turn.id = hook.id →
    turn = hook ∧ call.registry = registry ∧ .judged call.id hook.id true ∈ os
  /-- At a turn before which nobody has cancelled it, its callback starts. -/
  first : answers hook.id os = [] → ∀ {call outer pending}, Turn call outer hook pending m →
    Fires hook call registry m
  /-- All its other turns pass. -/
  later : answers hook.id os ≠ [] → ∀ {call outer pending}, Turn call outer hook pending m →
    news m m.step = [.skipped call.id hook.id]
  /-- Once it has been cancelled, its callback is never started, nor is its
  predicate ever asked. -/
  never : answers hook.id os ≠ [] → ∀ n d, .started d hook.id ∉ news m (Session.step^[n] m)
    ∧ ∀ accepted, .judged d hook.id accepted ∉ news m (Session.step^[n] m)

theorem Intact.oneShot {hook : Hook σ κ} {registry : Nat} {os : List Occurrence}
    (h : Intact hook registry os m) (reachable : Reachable m) (once : hook.once = true) :
    OneShot hook registry os m where
  starts := Nat.le_trans h.starts (Bool.toNat_le _)
  turns comes same := h.turn comes same
  first none _ _ _ turn := h.fires reachable once turn (by rw [h.live, none]; rfl)
  later ended _ _ _ turn := turn.passes (by rw [h.live, List.isEmpty_eq_false_iff.mpr ended])
  never ended n d := by
    obtain ⟨live, known⟩ := h.known
    exact ⟨h.settled.not_started known ended n d, h.not_judged reachable ended n d⟩

theorem intact_register (reachable : Reachable m) {once : Bool} {accepts : Predicate κ}
    {body : Event → Program σ κ} {next : Handle → Program σ κ}
    (asked : m.running = .register once accepts body next) :
    Intact (m.newHook once accepts body) m.current (news m m.step) m.step := by
  have known := known_register asked
  have live : m.step.isLive m.registrations.size = true := by
    rw [isLive, known]
    rfl
  have calls : m.step.calls = m.calls := by
    rw [step_register asked]
    rfl
  refine ⟨⟨true, known⟩, ?_, ?_, ?_, ?_, ?_⟩
  · intro r held there same
    rcases (move_step m).held reachable.some_registry there with before |
      ⟨once', accepts', body', next', asked', rfl⟩
    · obtain ⟨live, registered⟩ := reachable.registered r held before
      obtain ⟨bound, -⟩ := Array.getElem?_eq_some_iff.mp registered
      exact absurd same (Nat.ne_of_lt bound)
    · rw [asked] at asked'
      obtain ⟨⟩ := asked'
      rfl
  · intro call there turn waiting same
    rw [calls] at there
    exact absurd same (Nat.ne_of_lt (reachable.numbered.pending call there turn waiting))
  · intro running
    rw [active, calls, ← active] at running
    exact absurd (reachable.numbered.active _ running) (Nat.lt_irrefl _)
  · rw [news_register asked]
    exact .inl ⟨rfl, live⟩
  · rw [news_register asked]
    exact Nat.zero_le _

/-- However a session goes on after a hook has been registered that is `once`:
its callback starts at most once, at the hook's first turn, and only if nobody
has cancelled the hook by then. -/
theorem runs_once (reachable : Reachable m) {accepts : Predicate κ}
    {body : Event → Program σ κ} {next : Handle → Program σ κ}
    (asked : m.running = .register true accepts body next) :
    let hook := m.newHook true accepts body
    m.step.running = next ⟨hook.id, hook.cookie⟩
      ∧ ∀ n, OneShot hook m.current (news m (step^[n] m.step)) (step^[n] m.step) := by
  intro hook
  refine ⟨by rw [step_register asked]; rfl, ?_⟩
  intro n
  have intact := (intact_register reachable asked).iterate reachable.step rfl n
  rw [news_iterate_step]
  exact intact.oneShot (reachable.step.iterate n) rfl

/-- A session about to register a hook that is `once`, with another one before
it whose callback dispatches again. -/
def nested : Session Nat Unit :=
  step^[1] <| start 0 () <|
    .register false (fun _ _ c => (true, c)) (fun event => .dispatch event fun _ => .done) fun _ =>
    .register true (fun _ _ c => (true, c))
      (fun event => .dispatch event fun _ => .update (fun s c => (s + 1, c)) .done) fun _ =>
    .dispatch (.pc 0) fun _ => .done

/-- Two dispatches come to have the hook await its turn. It runs in the inner
one, and passes in the outer one. -/
theorem runs_once_nested :
    nested.Reachable
      ∧ (∃ accepts body next, nested.running = .register true accepts body next)
      ∧ news (step^[4] nested.step) (step^[5] nested.step)
        = [.cancelled 1 (some 1), .started 1 1]
      ∧ news (step^[12] nested.step) (step^[13] nested.step) = [.skipped 0 1]
      ∧ (∀ n, (news nested (step^[n] nested.step)).countP (Occurrence.starts 1) ≤ 1)
      ∧ (step^[20] nested).state = 1 := by
  have reachable : nested.Reachable := ⟨0, (), _, 1, rfl⟩
  obtain ⟨-, oneShot⟩ := runs_once reachable rfl
  have inner := (oneShot 4).first (by decide) ⟨rfl, rfl, rfl, rfl⟩
  have outer := (oneShot 12).later (by decide) ⟨rfl, rfl, rfl, rfl⟩
  exact ⟨reachable, ⟨_, _, _, rfl⟩, inner.told, outer, fun n => (oneShot n).starts, by decide⟩

end Session

end Unwind
