/-
Unwind.Proofs.Cancellation — cancelling a hook is final and happens once.

Whoever holds a handle may cancel the hook, at any time and any number of
times, and so may the hook itself. Of all these cancellations the first one
succeeds; it is the end of the hook.

  §1 Turns   — where what is told of hooks comes from (`Move.origin`): so a
               callback is started only at its hook's turn, and only if the
               hook is live (`Move.started`).
  §2 Answers — what those who cancel a hook are told (`answers`), and what a
               step has to do with it (`Move.answers`).
  §3 Runs    — `cancelled_once_and_for_all`: the answers over a whole run.
-/
import Unwind.Proofs.Bookkeeping

namespace Unwind

variable {σ κ : Type}

/-- The answer to one who cancelled a hook: whether that ended it. -/
def Occurrence.answer? (hook : Nat) : Occurrence → Option Bool
  | cancelled h cookie => if h = hook then some cookie.isSome else none
  | _ => none

/-- Whether an occurrence is neither that a hook was asked whether it wants an
event nor that its callback was started. -/
def Occurrence.isPlain : Occurrence → Bool
  | judged .. | started .. => false
  | _ => true

theorem Occurrence.isPlain_of_call? {o : Occurrence} (none : o.call? = none) :
    o.isPlain = true := by
  cases o with
  | judged | started => cases none
  | _ => rfl

namespace Session

variable {m m' : Session σ κ}

/-! ## §1 Turns -/

/-- What an occurrence comes from that is about a hook in a dispatch. -/
inductive Origin (m : Session σ κ) : Occurrence → Prop
  | judged {hook accepted} (held : hook ∈ m.hooks) :
      Origin m (.judged m.dispatches hook.id accepted)
  | started {call outer hook pending} (comes : Turn call outer hook pending m)
      (may : m.mayStart hook = true) : Origin m (.started call.id hook.id)
  | plain {o} (h : o.isPlain = true) : Origin m o

theorem Move.origin (h : Move m m') {o : Occurrence} (told : o ∈ news m m') : Origin m o := by
  obtain ⟨os, added, effect⟩ := h.effect
  rw [news_eq added] at told
  cases effect with
  | request idle calls dispatches outside =>
    exact .plain (Occurrence.isPlain_of_call? (outside o told))
  | @dispatch event next asked =>
    rw [judge_eq_verdicts] at told
    rcases mem_opening.mp told with rfl | ⟨verdict, there, rfl⟩
    · exact .plain rfl
    · exact .judged (map_fst_verdicts m event m.shared ▸ List.mem_map_of_mem there)
  | start done calls active turn may begun body dispatches retired =>
    rcases List.mem_append.mp told with before | now
    · exact .plain (Occurrence.isPlain_of_call? (retired o before).1)
    · rw [List.mem_singleton.mp now]
      exact .started ⟨done, calls, active, turn⟩ may
  | finish | skip | leave => exact List.mem_singleton.mp told ▸ .plain rfl

/-- A callback is started at its hook's turn, and only if the hook may start. -/
theorem Move.started (h : Move m m') {d hook : Nat} (started : .started d hook ∈ news m m') :
    ∃ call outer turn pending, Turn call outer turn pending m ∧ m.mayStart turn = true
      ∧ turn.id = hook ∧ call.id = d := by
  cases h.origin started with
  | started comes may => exact ⟨_, _, _, _, comes, may, rfl, rfl⟩
  | plain other => cases other

/-- The predicates that are asked are those of the hooks of the current registry. -/
theorem Move.judged (h : Move m m') {d id : Nat} {accepted : Bool}
    (judged : .judged d id accepted ∈ news m m') : ∃ hook ∈ m.hooks, hook.id = id := by
  cases h.origin judged with
  | judged held => exact ⟨_, held, rfl⟩
  | plain other => cases other

/-! ## §2 Answers -/

/-- The answers to all who cancelled a hook, in order. -/
def answers (hook : Nat) (os : List Occurrence) : List Bool :=
  os.filterMap (Occurrence.answer? hook)

theorem answers_append (hook : Nat) (os os' : List Occurrence) :
    answers hook (os ++ os') = answers hook os ++ answers hook os' :=
  List.filterMap_append

/-- One who cancels a hook is told whether it was live, and it no longer is. -/
theorem cancel_answers (m : Session σ κ) (hook : Nat) :
    (m.cancel hook).1 = m.isLive hook
      ∧ (∀ h, (m.cancel hook).2.isLive h = (m.isLive h && decide (h ≠ hook)))
      ∧ ∃ cookie, (m.cancel hook).2.history = m.history.push (.cancelled hook cookie)
          ∧ cookie.isSome = m.isLive hook := by
  by_cases live : m.isLive hook = true
  · obtain ⟨reg, known, alive⟩ := isLive_iff.mp live
    rw [cancel_of_live known alive]
    exact ⟨live.symm, isLive_withdraw known, some reg.cookie, rfl, live.symm⟩
  · rw [Bool.not_eq_true] at live
    rw [cancel_of_not_live live]
    refine ⟨live.symm, ?_, none, rfl, live.symm⟩
    intro h
    by_cases same : h = hook
    · simp [same, live]
    · simp [same]

/-- How a hook came to be cancelled, or not, from one session to another. -/
structure Answered (hook : Nat) (cancelled : Bool) (m m' : Session σ κ) : Prop where
  told : answers hook (news m m') = if cancelled then [m.isLive hook] else []
  live : m'.isLive hook = (m.isLive hook && !cancelled)

theorem Answered.of_silent {hook : Nat} (registrations : m'.registrations = m.registrations)
    (silent : ∀ o ∈ news m m', o.answer? hook = none) : Answered hook false m m' := by
  refine ⟨List.filterMap_eq_nil_iff.mpr silent, ?_⟩
  rw [isLive, registrations, Bool.not_false, Bool.and_true, isLive]

theorem Answered.of_push {hook : Nat} {o : Occurrence} (told : m'.history = m.history.push o)
    (silent : o.answer? hook = none) (registrations : m'.registrations = m.registrations) :
    Answered hook false m m' := by
  refine .of_silent registrations ?_
  rw [news_push told]
  simpa using silent

/-- A hook is cancelled, and what happens besides is no matter of another. -/
theorem Answered.of_cancel {hook other : Nat} {os : List Occurrence}
    (told : m'.history.toList = (m.cancel other).2.history.toList ++ os)
    (silent : ∀ o ∈ os, o.answer? hook = none)
    (registrations : m'.registrations = (m.cancel other).2.registrations) :
    Answered hook (decide (other = hook)) m m' := by
  obtain ⟨-, live, cookie, pushed, ended⟩ := cancel_answers m other
  have news : news m m' = .cancelled other cookie :: os :=
    news_eq (by rw [told, pushed, Array.toList_push, List.append_assoc, List.singleton_append])
  have rest : os.filterMap (Occurrence.answer? hook) = [] := List.filterMap_eq_nil_iff.mpr silent
  constructor
  · rw [news, answers, List.filterMap_cons, rest]
    by_cases same : other = hook
    · simp [Occurrence.answer?, same, ended]
    · simp [Occurrence.answer?, same]
  · rw [isLive, registrations, ← isLive, live hook, ← decide_not]
    simp only [ne_comm]

/-- When a step cancels a hook: on request, or at the turn of a hook that is
`once`. -/
inductive Cancels (hook : Nat) (m : Session σ κ) : Prop
  | request {next} (asked : m.running = .cancel hook next)
  | turn {call outer turn pending} (comes : Turn call outer turn pending m)
      (may : m.mayStart turn = true) (once : turn.once = true) (same : turn.id = hook)

/-- A step cancels a hook or it does not. -/
theorem Move.answers (h : Move m m') {hook : Nat} (known : hook < m.registrations.size) :
    ∃ cancelled, Answered hook cancelled m m' ∧ (cancelled = true → m.Cancels hook) := by
  suffices Answered hook false m m'
      ∨ ∃ other, Answered hook (decide (other = hook)) m m' ∧ m.Cancels other by
    rcases this with no | ⟨other, yes, cancels⟩
    · exact ⟨false, no, nofun⟩
    · exact ⟨_, yes, fun same => of_decide_eq_true same ▸ cancels⟩
  cases h with
  | rest done calls => exact .inl (.of_silent rfl (by simp [news_same]))
  | look busy => exact .inl (.of_silent rfl (by simp [news_same (m := m)]))
  | report asked => exact .inl (.of_push rfl rfl rfl)
  | @register once accepts body next asked =>
    refine .inl ⟨by rw [news_push rfl]; rfl, ?_⟩
    show (m.register once accepts body).2.isLive hook = _
    rw [isLive_register, decide_eq_false (Nat.ne_of_lt known), Bool.or_false, Bool.not_false,
      Bool.and_true]
  | @cancel other next asked =>
    exact .inr ⟨other, .of_cancel (List.append_nil _).symm (by simp) rfl, .request asked⟩
  | renew asked => exact .inl (.of_push rfl rfl rfl)
  | @dispatch event next asked =>
    refine .inl (.of_silent rfl ?_)
    rw [news_eq (toList_history_dispatch m event next)]
    intro o ho
    rcases List.mem_cons.mp ho with rfl | judged
    · rfl
    · obtain ⟨verdict, -, rfl⟩ := List.mem_map.mp judged
      rfl
  | finish done calls active => exact .inl (.of_push rfl rfl rfl)
  | skip done calls active turn may => exact .inl (.of_push rfl rfl rfl)
  | @start call outer other pending done calls active turn may =>
    by_cases once : other.once = true
    · have retired : m.retire other = (m.cancel other.id).2 := if_pos once
      rw [retired]
      refine .inr ⟨other.id, .of_cancel Array.toList_push ?_ rfl,
        .turn ⟨done, calls, active, turn⟩ may once rfl⟩
      simp [Occurrence.answer?]
    · have kept : m.retire other = m := if_neg once
      rw [kept]
      exact .inl (.of_push rfl rfl rfl)
  | leave done calls active turn => exact .inl (.of_push rfl rfl rfl)

/-! ## §3 Runs -/

/-- Of all who cancelled a hook the first succeeded and no other, and the hook
is live as long as nobody has. -/
def Settled (hook : Nat) (cancels : List Bool) (m : Session σ κ) : Prop :=
  cancels = [] ∧ m.isLive hook = true
    ∨ (∃ k, cancels = true :: List.replicate k false) ∧ m.isLive hook = false

theorem Settled.isLive {hook : Nat} {cancels : List Bool} (h : Settled hook cancels m) :
    m.isLive hook = cancels.isEmpty := by
  rcases h with ⟨rfl, live⟩ | ⟨⟨k, rfl⟩, dead⟩
  · exact live
  · exact dead

theorem Settled.answered {hook : Nat} {cancels : List Bool} {cancelled : Bool}
    (h : Settled hook cancels m) (answered : Answered hook cancelled m m') :
    Settled hook (cancels ++ answers hook (news m m')) m' := by
  rw [answered.told]
  have live := answered.live
  cases cancelled with
  | false =>
    rw [Bool.not_false, Bool.and_true] at live
    simpa [Settled, live] using h
  | true =>
    rw [Bool.not_true, Bool.and_false] at live
    -- the one more answer is whether the hook was live until now
    refine .inr ⟨?_, live⟩
    rcases h with ⟨rfl, was⟩ | ⟨⟨k, rfl⟩, was⟩
    · exact ⟨0, by simp [was]⟩
    · exact ⟨k + 1, by simp [was, List.replicate_succ']⟩

theorem registered_iterate {hook r : Nat} {cookie : UInt32} {live : Bool}
    (known : m.registrations[hook]? = some ⟨r, cookie, live⟩) (n : Nat) :
    ∃ live, (step^[n] m).registrations[hook]? = some ⟨r, cookie, live⟩ := by
  induction n with
  | zero => exact ⟨live, known⟩
  | succ n ih =>
    obtain ⟨live, known⟩ := ih
    rw [Function.iterate_succ_apply']
    exact (move_step _).registered known

theorem settled_iterate {hook r : Nat} {cookie : UInt32} {live : Bool} {cancels : List Bool}
    (known : m.registrations[hook]? = some ⟨r, cookie, live⟩) (h : Settled hook cancels m)
    (n : Nat) : Settled hook (cancels ++ answers hook (news m (step^[n] m))) (step^[n] m) := by
  induction n with
  | zero => simpa [news_same, answers] using h
  | succ n ih =>
    obtain ⟨live, known⟩ := registered_iterate known n
    obtain ⟨bound, -⟩ := Array.getElem?_eq_some_iff.mp known
    obtain ⟨cancelled, answered, -⟩ := (move_step (step^[n] m)).answers bound
    rw [news_iterate_succ, answers_append, ← List.append_assoc, Function.iterate_succ_apply']
    exact ih.answered answered

/-- A hook that has been cancelled is never live again. -/
theorem Settled.dead {hook r : Nat} {cookie : UInt32} {live : Bool} {cancels : List Bool}
    (h : Settled hook cancels m) (known : m.registrations[hook]? = some ⟨r, cookie, live⟩)
    (ended : cancels ≠ []) (n : Nat) : (step^[n] m).isLive hook = false := by
  rw [(settled_iterate known h n).isLive, List.isEmpty_eq_false_iff]
  exact List.append_ne_nil_of_left_ne_nil ended _

/-- Its callback is never started. -/
theorem Settled.not_started {hook r : Nat} {cookie : UInt32} {live : Bool} {cancels : List Bool}
    (h : Settled hook cancels m) (known : m.registrations[hook]? = some ⟨r, cookie, live⟩)
    (ended : cancels ≠ []) (n d : Nat) : .started d hook ∉ news m (step^[n] m) := by
  intro started
  obtain ⟨k, -, started⟩ := mem_news_iterate started
  obtain ⟨-, -, turn, -, -, may, rfl, -⟩ := (move_step _).started started
  simp [mayStart, h.dead known ended k] at may

/-- How a hook stands after some have cancelled it, with these answers. -/
structure Stands (handle : Handle) (cancels : List Bool) (m : Session σ κ) : Prop where
  settled : Settled handle.hook cancels m
  /-- Who asks whether the hook is live is told whether nobody has cancelled it. -/
  isLive : ∀ next, m.running = .isLive handle.hook next →
    m.step = { m with running := next cancels.isEmpty }
  /-- So is who cancels it, and the dispatches in progress stay as they are. -/
  cancel : ∀ next, m.running = .cancel handle.hook next →
    m.step.running = next cancels.isEmpty ∧ m.step.calls = m.calls
      ∧ news m m.step
        = [.cancelled handle.hook (if cancels.isEmpty then some handle.cookie else none)]
  /-- Nobody else does but the hook itself at its turn. -/
  cause : answers handle.hook (news m m.step) ≠ [] → m.Cancels handle.hook
  /-- After the first, to cancel the hook changes nothing. -/
  late : cancels ≠ [] → ∀ next, m.running = .cancel handle.hook next →
    m.step = { m with
        running := next false
        history := m.history.push (.cancelled handle.hook none) }
      ∧ m.step.log = m.log
  /-- Nor is its callback started any more, in whatever dispatch it has yet to
  have its turn. -/
  never : cancels ≠ [] → ∀ n d, .started d handle.hook ∉ news m (step^[n] m)

theorem step_cancel {hook : Nat} {next : Bool → Program σ κ}
    (asked : m.running = .cancel hook next) :
    m.step = { (m.cancel hook).2 with running := next (m.cancel hook).1 } := by
  simp only [step, asked]

theorem Settled.stands {handle : Handle} {r : Nat} {live : Bool} {cancels : List Bool}
    (h : Settled handle.hook cancels m)
    (known : m.registrations[handle.hook]? = some ⟨r, handle.cookie, live⟩) :
    Stands handle cancels m where
  settled := h
  isLive next asked := by simp only [step, asked, h.isLive]
  cancel next asked := by
    have same : live = cancels.isEmpty := by
      rw [← h.isLive, Session.isLive, known]
      rfl
    obtain ⟨answer, told⟩ := cancel_known known
    obtain ⟨registries, registrations, cookie, eq⟩ := cancel_eq m handle.hook
    rw [step_cancel asked, answer, same]
    refine ⟨rfl, by rw [eq], ?_⟩
    rw [← same]
    exact news_push told
  cause told := by
    obtain ⟨bound, -⟩ := Array.getElem?_eq_some_iff.mp known
    obtain ⟨cancelled, answered, cause⟩ := (move_step m).answers bound
    cases cancelled with
    | true => exact cause rfl
    | false => exact absurd answered.told told
  late ended next asked := by
    have dead := h.isLive
    rw [List.isEmpty_eq_false_iff.mpr ended] at dead
    rw [step_cancel asked, cancel_of_not_live dead]
    refine ⟨rfl, ?_⟩
    simp [log, record, Occurrence.reports]
  never ended := h.not_started known ended

/-- However a session goes on after a hook has been registered: of all who
cancel the hook the first succeeds and no other, and that is the end of it. Those
who cancel are the program and the bodies of hooks; predicates make no requests. -/
theorem cancelled_once_and_for_all {once : Bool} {accepts : Predicate κ}
    {body : Event → Program σ κ} {next : Handle → Program σ κ}
    (asked : m.running = .register once accepts body next) :
    let handle := (m.register once accepts body).1
    m.step.running = next handle
      ∧ ∀ n, Stands handle (answers handle.hook (news m (step^[n] m.step))) (step^[n] m.step) := by
  intro handle
  have known : m.step.registrations[handle.hook]? = some ⟨m.current, handle.cookie, true⟩ :=
    known_register asked
  have live : m.step.isLive handle.hook = true := by
    rw [isLive, known]
    rfl
  refine ⟨by rw [step_register asked], ?_⟩
  intro n
  obtain ⟨after, still⟩ := registered_iterate known n
  have settled := settled_iterate known (.inl ⟨rfl, live⟩) n
  rw [news_iterate_step, answers_append, news_register asked]
  exact settled.stands still

/-- A session about to register a hook that cancels itself, twice, in a dispatch
within a dispatch that has the hook's turn still to come. -/
def selfCancelling : Session Nat Unit :=
  step^[1] <| start 0 () <|
    .register false (fun _ _ c => (true, c)) (fun _ => .dispatch (.pc 0) fun _ => .done) fun _ =>
    .register false (fun _ _ c => (true, c))
      (fun _ => .cancel 1 fun _ => .cancel 1 fun _ => .update (fun s c => (s + 1, c)) .done)
      fun _ =>
    .dispatch (.pc 0) fun _ => .done

/-- Its body runs to its end in the inner dispatch, and in the outer one the
hook does not get to run. -/
theorem cancelled_once_and_for_all_selfCancelling :
    ∃ accepts body next, selfCancelling.running = .register false accepts body next
      ∧ answers 1 (news selfCancelling (step^[7] selfCancelling.step)) = [true, false]
      ∧ (∀ n d, .started d 1 ∉ news (step^[7] selfCancelling.step)
          (step^[n] (step^[7] selfCancelling.step)))
      ∧ (step^[20] selfCancelling).state = 1 := by
  obtain ⟨-, stands⟩ := cancelled_once_and_for_all (m := selfCancelling) rfl
  have cancels : answers 1 (news selfCancelling (step^[7] selfCancelling.step))
      = [true, false] := by
    decide
  refine ⟨_, _, _, rfl, cancels, (stands 7).never ?_, by decide⟩
  show answers 1 _ ≠ []
  rw [cancels]
  simp

end Session

end Unwind
