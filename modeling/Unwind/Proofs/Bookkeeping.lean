/-
Unwind.Proofs.Bookkeeping — what becomes of registries and registrations.

Of all that a step can do, three things concern the books of a session, which
are its registries and registrations: a hook is registered, a hook that is live
is withdrawn, a new registry is begun. So what is to hold of the books after
every step is proved for these three, and for the steps that leave the books
as they are (`Reachable.rec_books`).

  §1 Time    — what has happened between two moments (`news`).
  §2 Entries — what each of the three does to the books.
  §3 Steps   — a step does at most one of them (`Move.bookkeeping`).
  §4 Holding — the hooks that a registry holds are registered there
               (`Reachable.registered`), and live as long as the registry
               exists (`Reachable.live_of_mem`).
-/
import Unwind.Proofs.Dispatch

namespace Unwind

variable {σ κ : Type}

/-- Whether an occurrence tells of a change to the books. -/
def Occurrence.isEntry : Occurrence → Bool
  | registered .. | cancelled _ (some _) => true
  | _ => false

namespace Session

variable {m m' m'' : Session σ κ}

/-! ## §1 Time -/

/-- What has happened since an earlier moment. -/
def news (m m' : Session σ κ) : List Occurrence := m'.history.toList.drop m.history.size

theorem news_eq {os : List Occurrence} (told : m'.history.toList = m.history.toList ++ os) :
    news m m' = os := by
  rw [news, told, ← Array.length_toList, List.drop_left]

theorem news_push {o : Occurrence} (told : m'.history = m.history.push o) :
    news m m' = [o] :=
  news_eq (by rw [told, Array.toList_push])

theorem news_same (told : m'.history = m.history) : news m m' = [] :=
  news_eq (by rw [told, List.append_nil])

theorem news_push_push {o o' : Occurrence} (told : m'.history = m.history.push o)
    (next : m''.history = m'.history.push o') : news m m'' = [o, o'] :=
  news_eq (by simp [next, told])

theorem Move.told (h : Move m m') : m'.history.toList = m.history.toList ++ news m m' := by
  obtain ⟨os, told, -⟩ := h.history
  rw [news_eq told]
  exact told

/-- What has happened since is what had happened by then, and what has
happened after that. -/
theorem news_trans (told : m'.history.toList = m.history.toList ++ news m m')
    (next : m''.history.toList = m'.history.toList ++ news m' m'') :
    m''.history.toList = m.history.toList ++ news m m''
      ∧ news m m'' = news m m' ++ news m' m'' := by
  have both : m''.history.toList = m.history.toList ++ (news m m' ++ news m' m'') := by
    rw [next, told, List.append_assoc]
  rw [news_eq both]
  exact ⟨both, rfl⟩

theorem told_iterate (m : Session σ κ) (n : Nat) :
    (step^[n] m).history.toList = m.history.toList ++ news m (step^[n] m) := by
  induction n with
  | zero => simp [news_same]
  | succ n ih =>
    rw [Function.iterate_succ_apply']
    exact (news_trans ih (move_step _).told).1

/-- What has happened after one more step. -/
theorem news_iterate_succ (m : Session σ κ) (n : Nat) :
    news m (step^[n + 1] m) = news m (step^[n] m) ++ news (step^[n] m) (step^[n] m).step := by
  rw [Function.iterate_succ_apply']
  exact (news_trans (told_iterate m n) (move_step _).told).2

theorem news_iterate_step (m : Session σ κ) (n : Nat) :
    news m (step^[n] m.step) = news m m.step ++ news m.step (step^[n] m.step) :=
  (news_trans (move_step m).told (told_iterate m.step n)).2

theorem mem_news_iterate {n : Nat} {o : Occurrence} (h : o ∈ news m (step^[n] m)) :
    ∃ k < n, o ∈ news (step^[k] m) (step^[k] m).step := by
  induction n with
  | zero => simp [news_same] at h
  | succ n ih =>
    rw [news_iterate_succ] at h
    rcases List.mem_append.mp h with before | now
    · obtain ⟨k, hk, told⟩ := ih before
      exact ⟨k, Nat.lt_succ_of_lt hk, told⟩
    · exact ⟨n, Nat.lt_succ_self n, now⟩

/-! ## §2 Entries -/

@[simp] theorem registry_record (o : Occurrence) (r : Nat) :
    (m.record o).registry r = m.registry r := rfl

@[simp] theorem isLive_record (o : Occurrence) (hook : Nat) :
    (m.record o).isLive hook = m.isLive hook := rfl

@[simp] theorem hasRegistry_record (o : Occurrence) (r : Nat) :
    (m.record o).hasRegistry r = m.hasRegistry r := rfl

theorem registry_start (state : σ) (shared : κ) (program : Program σ κ) (r : Nat) :
    (start state shared program).registry r = .empty := by
  cases r <;> rfl

/-! ### Registering -/

/-- The hook that a registration makes. -/
def newHook (m : Session σ κ) (once : Bool) (accepts : Predicate κ)
    (body : Event → Program σ κ) : Hook σ κ :=
  ⟨m.registrations.size, (m.registry m.current).nextCookie, once, accepts, body⟩

section register

variable (once : Bool) (accepts : Predicate κ) (body : Event → Program σ κ)

theorem registry_register (pos : 0 < m.registries.size) (r : Nat) :
    (m.register once accepts body).2.registry r
      = if r = m.current then (m.registry r).add (m.newHook once accepts body)
        else m.registry r := by
  have last : m.current < m.registries.size := Nat.sub_lt pos Nat.one_pos
  simp only [register, registry, record, newHook, Array.getD_eq_getD_getElem?,
    Array.getElem?_modify]
  by_cases same : r = m.current
  · subst same
    simp [Array.getElem?_eq_getElem last]
  · rw [if_neg (Ne.symm same), if_neg same]

theorem registrations_register :
    (m.register once accepts body).2.registrations
      = m.registrations.push ⟨m.current, (m.registry m.current).nextCookie, true⟩ := rfl

theorem history_register :
    (m.register once accepts body).2.history = m.history.push
      (.registered m.registrations.size m.current (m.registry m.current).nextCookie once) := by
  simp only [register, record, current, Array.size_modify]

theorem getElem?_registrations_register {h : Nat} {reg : Registration}
    (known : m.registrations[h]? = some reg) :
    (m.register once accepts body).2.registrations[h]? = some reg := by
  obtain ⟨bound, -⟩ := Array.getElem?_eq_some_iff.mp known
  rw [registrations_register, Array.getElem?_push, if_neg (Nat.ne_of_lt bound), known]

theorem isLive_register (hook : Nat) :
    (m.register once accepts body).2.isLive hook
      = (m.isLive hook || decide (hook = m.registrations.size)) := by
  simp only [isLive, registrations_register, Array.getElem?_push]
  by_cases new : hook = m.registrations.size
  · simp [new]
  · simp [new]

theorem hasRegistry_register (r : Nat) :
    (m.register once accepts body).2.hasRegistry r = m.hasRegistry r := by
  simp only [register, hasRegistry, record, current, Array.size_modify]

end register

section asked

variable {once : Bool} {accepts : Predicate κ} {body : Event → Program σ κ}
  {next : Handle → Program σ κ} (asked : m.running = .register once accepts body next)

include asked

theorem step_register : m.step = { (m.register once accepts body).2 with
    running := next (m.register once accepts body).1 } := by
  simp only [step, asked]

theorem news_register : news m m.step = [.registered m.registrations.size m.current
    (m.registry m.current).nextCookie once] := by
  rw [step_register asked]
  exact news_push (history_register once accepts body)

theorem known_register : m.step.registrations[m.registrations.size]?
    = some ⟨m.current, (m.registry m.current).nextCookie, true⟩ := by
  rw [step_register asked]
  exact Array.getElem?_push_size

end asked

/-! ### Cancelling -/

section cancel

variable {hook : Nat} {reg : Registration}

theorem isLive_iff : m.isLive hook = true
    ↔ ∃ reg, m.registrations[hook]? = some reg ∧ reg.live = true := by
  simp only [isLive, Option.any_eq_true]

/-- To cancel a hook that is not live changes nothing, and is told. -/
theorem cancel_of_not_live (dead : m.isLive hook = false) :
    m.cancel hook = (false, m.record (.cancelled hook none)) := by
  unfold cancel
  cases known : m.registrations[hook]? with
  | none => rfl
  | some reg =>
    have retired : reg.live = false := by simpa [isLive, known] using dead
    simp only [retired, Bool.false_eq_true, if_false]

/-- To cancel a hook that is live withdraws it. -/
theorem cancel_of_live (known : m.registrations[hook]? = some reg) (live : reg.live = true) :
    m.cancel hook
      = (true, (m.withdraw hook reg).record (.cancelled hook (some reg.cookie))) := by
  simp only [cancel, known, live, if_true]

theorem cancel_known {r : Nat} {cookie : UInt32} {live : Bool}
    (known : m.registrations[hook]? = some ⟨r, cookie, live⟩) :
    (m.cancel hook).1 = live
      ∧ (m.cancel hook).2.history
        = m.history.push (.cancelled hook (if live then some cookie else none)) := by
  cases live <;> simp [cancel, known, record, withdraw]

theorem registry_withdraw (r : Nat) :
    (m.withdraw hook reg).registry r
      = if r = reg.registry ∧ m.hasRegistry r = true then (m.registry r).remove reg.cookie
        else m.registry r := by
  unfold withdraw registry
  by_cases existing : m.hasRegistry reg.registry = true
  · rw [if_pos existing]
    simp only [Array.getD_eq_getD_getElem?, Array.getElem?_modify]
    by_cases home : r = reg.registry
    · rw [if_pos home.symm, if_pos ⟨home, home ▸ existing⟩]
      cases m.registries[r]? <;> rfl
    · rw [if_neg (Ne.symm home), if_neg (mt And.left home)]
  · have gone : ¬ (r = reg.registry ∧ m.hasRegistry r = true) := by
      rintro ⟨rfl, there⟩
      exact existing there
    rw [if_neg existing, if_neg gone]

theorem getElem?_registrations_withdraw (known : m.registrations[hook]? = some reg) (h : Nat) :
    (m.withdraw hook reg).registrations[h]?
      = if h = hook then some { reg with live := false } else m.registrations[h]? := by
  obtain ⟨bound, -⟩ := Array.getElem?_eq_some_iff.mp known
  rw [withdraw, Array.getElem?_setIfInBounds]
  by_cases same : h = hook
  · rw [if_pos same.symm, if_pos same, if_pos bound]
  · rw [if_neg (Ne.symm same), if_neg same]

theorem mem_of_mem_withdraw {r : Nat} {held : Hook σ κ} {o : Occurrence}
    (h : held ∈ (((m.withdraw hook reg).record o).registry r).hooks) :
    held ∈ (m.registry r).hooks := by
  rw [registry_record, registry_withdraw] at h
  split at h
  · exact (List.mem_filter.mp h).1
  · exact h

theorem isLive_withdraw (known : m.registrations[hook]? = some reg) (h : Nat) :
    (m.withdraw hook reg).isLive h = (m.isLive h && decide (h ≠ hook)) := by
  rw [isLive, getElem?_registrations_withdraw known]
  by_cases same : h = hook
  · simp [same]
  · simp [same, isLive]

theorem size_registries_withdraw (hook : Nat) (reg : Registration) :
    (m.withdraw hook reg).registries.size = m.registries.size := by
  unfold withdraw
  split
  · exact Array.size_modify
  · rfl

theorem size_registries_cancel (m : Session σ κ) (hook : Nat) :
    (m.cancel hook).2.registries.size = m.registries.size := by
  by_cases live : m.isLive hook = true
  · obtain ⟨reg, known, live⟩ := isLive_iff.mp live
    rw [cancel_of_live known live]
    exact size_registries_withdraw hook reg
  · rw [cancel_of_not_live (Bool.eq_false_iff.mpr live)]
    rfl

theorem hasRegistry_withdraw (hook : Nat) (reg : Registration) (r : Nat) :
    (m.withdraw hook reg).hasRegistry r = m.hasRegistry r := by
  simp only [hasRegistry, current, size_registries_withdraw]
  rfl

theorem hasRegistry_cancel (m : Session σ κ) (hook r : Nat) :
    (m.cancel hook).2.hasRegistry r = m.hasRegistry r := by
  obtain ⟨registries, registrations, cookie, eq⟩ := cancel_eq m hook
  have size := size_registries_cancel m hook
  rw [eq] at size ⊢
  simp only [hasRegistry, current, size]

end cancel

/-! ### Renewing -/

/-- A new registry holds no hooks, and the others are left as they are. -/
theorem registry_renew (m : Session σ κ) (r : Nat) : m.renew.registry r = m.registry r := by
  simp only [renew, record, registry, Array.getD_eq_getD_getElem?, Array.getElem?_push]
  by_cases new : r = m.registries.size
  · simp [new]
  · rw [if_neg new]

theorem hasRegistry_renew {r : Nat} (h : m.renew.hasRegistry r = true) :
    m.hasRegistry r = true ∨ r = m.registries.size := by
  simp only [hasRegistry, renew, record, current, Array.size_push, Nat.add_sub_cancel,
    Bool.or_eq_true, beq_iff_eq] at h ⊢
  rcases h with new | inProgress
  · exact .inr new
  · exact .inl (.inr inProgress)

/-! ## §3 Steps -/

/-- From one session to another the books have stayed the same. -/
structure Aside (m m' : Session σ κ) : Prop where
  registries : m'.registries = m.registries
  registrations : m'.registrations = m.registrations
  /-- A registry may have ceased to exist, and none exists again. -/
  existing : ∀ r, m'.hasRegistry r = true → m.hasRegistry r = true
  told : ∃ os, m'.history.toList = m.history.toList ++ os ∧ ∀ o ∈ os, o.isEntry = false

theorem Aside.registry (aside : Aside m m') (r : Nat) : m'.registry r = m.registry r := by
  rw [Session.registry, aside.registries, Session.registry]

theorem Aside.isLive (aside : Aside m m') (hook : Nat) : m'.isLive hook = m.isLive hook := by
  rw [Session.isLive, aside.registrations, Session.isLive]

/-- What a step does to the books: at most one thing. -/
inductive Bookkeeping (m m' : Session σ κ) : Prop
  | aside (h : Aside m m')
  | register {once accepts body next} (asked : m.running = .register once accepts body next)
      (h : Aside (m.register once accepts body).2 m')
  | withdraw {hook reg} (known : m.registrations[hook]? = some reg) (live : reg.live = true)
      (h : Aside ((m.withdraw hook reg).record (.cancelled hook (some reg.cookie))) m')
  | renew (h : Aside m.renew m')

/-- A dispatch that goes on, or one further out, is one that was in progress. -/
theorem call_of_cons {call top call' : Call σ κ} {outer : List (Call σ κ)}
    (there : call' ∈ top :: outer) (calls : m.calls = call :: outer) (id : top.id = call.id)
    (registry : top.registry = call.registry) (pending : top.pending ⊆ call.pending) :
    ∃ call ∈ m.calls, call'.id = call.id ∧ call'.registry = call.registry
      ∧ call'.pending ⊆ call.pending := by
  rw [calls]
  rcases List.mem_cons.mp there with rfl | further
  · exact ⟨call, List.mem_cons_self, id, registry, pending⟩
  · exact ⟨call', List.mem_cons_of_mem _ further, rfl, rfl, List.Subset.refl _⟩

/-- Where the dispatches in progress come from: each was in progress before, and
no further hooks have come to await their turns in it, or it begins, and the
hooks that await their turns are those of the current registry that want the
event. That it begins is told. -/
theorem Move.call (h : Move m m') {call' : Call σ κ} (there : call' ∈ m'.calls) :
    (∃ call ∈ m.calls, call'.id = call.id ∧ call'.registry = call.registry
      ∧ call'.pending ⊆ call.pending)
    ∨ call'.registry = m.current
      ∧ (∀ hook ∈ call'.pending, hook ∈ m.hooks ∧ .judged call'.id hook.id true ∈ news m m')
      ∧ .dispatched call'.id m.current call'.event ∈ news m m' := by
  have same (there : call' ∈ m.calls) : ∃ call ∈ m.calls, call'.id = call.id
      ∧ call'.registry = call.registry ∧ call'.pending ⊆ call.pending :=
    ⟨call', there, rfl, rfl, List.Subset.refl _⟩
  obtain ⟨os, told, effect⟩ := h.effect
  cases effect with
  | request idle calls => exact .inl (same (calls ▸ there))
  | @dispatch event next asked =>
    rw [news_eq told]
    rcases List.mem_cons.mp there with rfl | further
    · refine .inr ⟨rfl, ?_, List.mem_cons_self⟩
      intro hook wanted
      obtain ⟨verdict, accepted, rfl⟩ := List.mem_map.mp wanted
      obtain ⟨judged, yes⟩ := List.mem_filter.mp accepted
      constructor
      · rw [judge_eq_verdicts] at judged
        rw [← map_fst_verdicts m event m.shared]
        exact List.mem_map_of_mem judged
      · exact mem_opening.mpr (.inr ⟨verdict, judged, by rw [yes]⟩)
    · exact .inl (same further)
  | finish done calls active =>
    exact .inl (call_of_cons there calls rfl rfl (List.Subset.refl _))
  | skip done calls active turn =>
    exact .inl (call_of_cons there calls rfl rfl (by simp [turn]))
  | start done calls active turn may begun =>
    rw [begun] at there
    exact .inl (call_of_cons there calls rfl rfl (by simp [turn]))
  | leave done calls active turn =>
    exact .inl (same (calls ▸ List.mem_cons_of_mem _ there))

/-- A registry that exists existed before, unless it is a new one. -/
theorem Move.existing (h : Move m m') (size : m'.registries.size = m.registries.size) {r : Nat}
    (there : m'.hasRegistry r = true) : m.hasRegistry r = true := by
  simp only [hasRegistry, current, size, Bool.or_eq_true, beq_iff_eq, List.any_eq_true] at there ⊢
  rcases there with last | ⟨call', inProgress, rfl⟩
  · exact .inl last
  · rcases h.call inProgress with ⟨call, mem, -, registry, -⟩ | ⟨last, -⟩
    · exact .inr ⟨call, mem, registry.symm⟩
    · exact .inl last

/-- What a cancellation does to the books, whoever asked for it. -/
theorem Bookkeeping.of_cancel (hook : Nat) (h : Aside (m.cancel hook).2 m') :
    Bookkeeping m m' := by
  by_cases live : m.isLive hook = true
  · obtain ⟨reg, known, live⟩ := isLive_iff.mp live
    rw [cancel_of_live known live] at h
    exact .withdraw known live h
  · rw [cancel_of_not_live (Bool.eq_false_iff.mpr live)] at h
    obtain ⟨os, told, aside⟩ := h.told
    refine .aside ⟨h.registries, h.registrations, h.existing, .cancelled hook none :: os, ?_, ?_⟩
    · simp [told, record]
    · exact List.forall_mem_cons.mpr ⟨rfl, aside⟩

theorem Aside.of_push {o : Occurrence} (h : Move m m') (registries : m'.registries = m.registries)
    (registrations : m'.registrations = m.registrations) (told : m'.history = m.history.push o)
    (aside : o.isEntry = false) : Aside m m' :=
  ⟨registries, registrations, fun _ => h.existing (by rw [registries]),
    [o], by rw [told, Array.toList_push], by simpa using aside⟩

/-- Another program that goes on, or another state, is no matter of the books. -/
theorem Aside.of_running {state : σ} {shared : κ} {running : Program σ κ} :
    Aside m { m with state := state, shared := shared, running := running } :=
  ⟨rfl, rfl, fun _ => id, [], (List.append_nil _).symm, by simp⟩

theorem Move.bookkeeping (h : Move m m') : Bookkeeping m m' := by
  have move := h
  cases h with
  | rest done calls => exact .aside .of_running
  | look busy => exact .aside .of_running
  | report asked => exact .aside (.of_push move rfl rfl rfl rfl)
  | register asked => exact .register asked .of_running
  | @cancel hook next asked => exact .of_cancel hook .of_running
  | renew asked => exact .renew .of_running
  | @dispatch event next asked =>
    refine .aside ⟨rfl, rfl, fun _ => move.existing rfl,
      _, toList_history_dispatch m event next, ?_⟩
    intro o ho
    rcases mem_opening.mp ho with rfl | ⟨verdict, -, rfl⟩ <;> rfl
  | finish done calls active => exact .aside (.of_push move rfl rfl rfl rfl)
  | skip done calls active turn may => exact .aside (.of_push move rfl rfl rfl rfl)
  | @start call outer hook pending done calls active turn may =>
    by_cases once : hook.once = true
    · have retired : m.retire hook = (m.cancel hook.id).2 := if_pos once
      rw [retired] at move ⊢
      have size := size_registries_cancel m hook.id
      refine .of_cancel hook.id ⟨rfl, rfl, ?_, [_], Array.toList_push, by
        simp [Occurrence.isEntry]⟩
      intro r there
      rw [hasRegistry_cancel]
      exact move.existing size there
    · have kept : m.retire hook = m := if_neg once
      rw [kept] at move ⊢
      exact .aside (.of_push move rfl rfl rfl rfl)
  | leave done calls active turn => exact .aside (.of_push move rfl rfl rfl rfl)

/-- A hook that is registered stays so, under its cookie. -/
theorem Move.registered (h : Move m m') {hook r : Nat} {cookie : UInt32} {live : Bool}
    (known : m.registrations[hook]? = some ⟨r, cookie, live⟩) :
    ∃ live, m'.registrations[hook]? = some ⟨r, cookie, live⟩ := by
  cases h.bookkeeping with
  | aside same => exact ⟨live, by rw [same.registrations, known]⟩
  | @register once accepts body next asked same =>
    rw [same.registrations]
    exact ⟨live, getElem?_registrations_register once accepts body known⟩
  | @withdraw other reg there alive same =>
    rw [same.registrations]
    show ∃ live, (m.withdraw other reg).registrations[hook]? = _
    rw [getElem?_registrations_withdraw there]
    split
    · rename_i same
      rw [← same, known] at there
      exact ⟨false, by rw [← Option.some.inj there]⟩
    · exact ⟨live, known⟩
  | renew same => exact ⟨live, by rw [same.registrations]; exact known⟩

theorem Move.size_registrations (h : Move m m') :
    m.registrations.size ≤ m'.registrations.size := by
  cases h.bookkeeping with
  | aside same => rw [same.registrations]
  | register asked same =>
    rw [same.registrations, registrations_register, Array.size_push]
    exact Nat.le_succ _
  | @withdraw hook reg known live same =>
    rw [same.registrations]
    exact Nat.le_of_eq Array.size_setIfInBounds.symm
  | renew same =>
    rw [same.registrations]
    exact Nat.le_refl _

/-- What holds of the books at the start, and is kept by each of the three
things that concern them, holds of the books of every session. -/
@[elab_as_elim]
theorem Reachable.rec_books {P : Session σ κ → Prop} (h : Reachable m)
    (init : ∀ state shared program, P (start state shared program))
    (aside : ∀ {m m'}, Aside m m' → P m → P m')
    (register : ∀ {m} once accepts body, Reachable m → P m → P (m.register once accepts body).2)
    (withdraw : ∀ {m hook reg}, Reachable m → m.registrations[hook]? = some reg →
      reg.live = true → P m →
      P ((m.withdraw hook reg).record (.cancelled hook (some reg.cookie))))
    (renew : ∀ {m}, Reachable m → P m → P m.renew) : P m := by
  obtain ⟨state, shared, program, n, rfl⟩ := h
  induction n with
  | zero => exact init state shared program
  | succ n ih =>
    have reached : Reachable (step^[n] (start state shared program)) := ⟨_, _, _, n, rfl⟩
    rw [Function.iterate_succ_apply']
    cases (move_step (step^[n] (start state shared program))).bookkeeping with
    | aside same => exact aside same ih
    | register asked same => exact aside same (register _ _ _ reached ih)
    | withdraw known live same => exact aside same (withdraw reached known live ih)
    | renew same => exact aside same (renew reached ih)

/-! ## §4 Holding -/

theorem Reachable.some_registry (h : Reachable m) : 0 < m.registries.size := by
  refine h.rec_books ?_ ?_ ?_ ?_ ?_
  · intro state shared program
    exact Nat.one_pos
  · intro m m' same pos
    rw [same.registries]
    exact pos
  · intro m once accepts body _ pos
    simpa [Session.register, record] using pos
  · intro m hook reg _ _ _ pos
    exact Nat.lt_of_lt_of_eq pos (size_registries_withdraw hook reg).symm
  · intro m _ pos
    simp [Session.renew, record]

/-- A hook that a registry holds was held before, unless it is a new one. -/
theorem Move.held (h : Move m m') (pos : 0 < m.registries.size) {r : Nat} {hook : Hook σ κ}
    (held : hook ∈ (m'.registry r).hooks) :
    hook ∈ (m.registry r).hooks
      ∨ ∃ once accepts body next, m.running = .register once accepts body next
          ∧ hook = m.newHook once accepts body := by
  cases h.bookkeeping with
  | aside same =>
    rw [same.registry] at held
    exact .inl held
  | @register once accepts body next asked same =>
    rw [same.registry, registry_register once accepts body pos] at held
    split at held
    · rcases List.mem_append.mp held with old | new
      · exact .inl old
      · exact .inr ⟨once, accepts, body, next, asked, List.mem_singleton.mp new⟩
    · exact .inl held
  | withdraw known live same =>
    rw [same.registry] at held
    exact .inl (mem_of_mem_withdraw held)
  | renew same =>
    rw [same.registry, registry_renew] at held
    exact .inl held

/-- The hooks that a registry holds are registered there, under the cookies
that they have. -/
theorem Reachable.registered (h : Reachable m) : ∀ r, ∀ hook ∈ (m.registry r).hooks,
    ∃ live, m.registrations[hook.id]? = some ⟨r, hook.cookie, live⟩ := by
  refine h.rec_books ?_ ?_ ?_ ?_ ?_
  · intro state shared program r hook held
    rw [registry_start] at held
    exact absurd held List.not_mem_nil
  · intro m m' same ih r hook held
    rw [same.registry] at held
    rw [same.registrations]
    exact ih r hook held
  · intro m once accepts body reached ih r hook held
    rw [registry_register once accepts body reached.some_registry] at held
    split at held
    · rename_i last
      rcases List.mem_append.mp held with old | new
      · obtain ⟨live, known⟩ := ih r hook old
        exact ⟨live, getElem?_registrations_register once accepts body known⟩
      · rw [List.mem_singleton.mp new, last, registrations_register]
        exact ⟨true, Array.getElem?_push_size⟩
    · obtain ⟨live, known⟩ := ih r hook held
      exact ⟨live, getElem?_registrations_register once accepts body known⟩
  · intro m cancelled reg _ known live ih r hook held
    obtain ⟨was, there⟩ := ih r hook (mem_of_mem_withdraw held)
    show ∃ live, (m.withdraw cancelled reg).registrations[hook.id]? = _
    rw [getElem?_registrations_withdraw known]
    split
    · rename_i same
      rw [← same, there] at known
      exact ⟨false, by rw [← Option.some.inj known]⟩
    · exact ⟨was, there⟩
  · intro m _ ih r hook held
    rw [registry_renew] at held
    exact ih r hook held

/-- As long as a registry exists, the hooks that it holds are live. -/
theorem Reachable.live_of_mem (h : Reachable m) : ∀ r, m.hasRegistry r = true →
    ∀ hook ∈ (m.registry r).hooks, m.isLive hook.id = true := by
  refine h.rec_books ?_ ?_ ?_ ?_ ?_
  · intro state shared program r _ hook held
    rw [registry_start] at held
    exact absurd held List.not_mem_nil
  · intro m m' same ih r there hook held
    rw [same.registry] at held
    rw [same.isLive]
    exact ih r (same.existing r there) hook held
  · intro m once accepts body reached ih r there hook held
    rw [registry_register once accepts body reached.some_registry] at held
    rw [hasRegistry_register] at there
    rw [isLive_register, Bool.or_eq_true]
    split at held
    · rcases List.mem_append.mp held with old | new
      · exact .inl (ih r there hook old)
      · rw [List.mem_singleton.mp new]
        exact .inr (decide_eq_true rfl)
    · exact .inl (ih r there hook held)
  · intro m cancelled reg reached known live ih r there hook held
    rw [hasRegistry_record, hasRegistry_withdraw] at there
    have old := mem_of_mem_withdraw held
    rw [isLive_record, isLive_withdraw known, ih r there hook old, Bool.true_and,
      decide_eq_true_iff]
    -- the hook itself has gone, since it is registered under the cookie that goes
    rintro rfl
    obtain ⟨was, registered⟩ := reached.registered r hook old
    obtain rfl := Option.some.inj (registered.symm.trans known)
    rw [registry_record, registry_withdraw, if_pos ⟨rfl, there⟩] at held
    simp [Registry.remove] at held
  · intro m _ ih r there hook held
    rw [registry_renew] at held
    rcases hasRegistry_renew there with existing | new
    · exact ih r existing hook held
    · rw [registry, new, Array.getD_eq_getD_getElem?, Array.getElem?_eq_none le_rfl] at held
      exact absurd held List.not_mem_nil

end Session

end Unwind
