/-
Unwind.Proofs.Nesting — dispatches nest only so deep.

A callback may dispatch again, and so may the callbacks that this starts. No hook
is started whose callback is running already, so every further dispatch that nests
in the others has one hook less to run. What can undo this is a hook that is
registered meanwhile.

  §1 Callbacks — those that are running belong to pairwise distinct hooks
                 (`Reachable.nodup_active`).
  §2 Stacks    — every dispatch but the innermost one is running a callback
                 (`Reachable.stacked`).
  §3 Growth    — as long as nothing is registered and no registry is replaced,
                 the hooks that can run are those there were (`Confined.iterate`),
                 and they bound the number of dispatches in progress
                 (`Confined.length_calls_le`).
-/
import Mathlib.Data.List.Nodup
import Unwind.Proofs.OneShot

namespace Unwind

variable {σ κ : Type}

namespace Session

variable {m m' : Session σ κ}

/-! ## §1 Callbacks -/

theorem Move.nodup_active (h : Move m m') (nodup : m.active.Nodup) : m'.active.Nodup := by
  rcases h.active_cases with ended | ⟨d, begun, free, active, -⟩
  · exact nodup.sublist ended.sublist
  · rw [active]
    exact List.nodup_cons.mpr ⟨free, nodup⟩

/-- No hook is started whose callback is running already. -/
theorem Reachable.nodup_active (h : Reachable m) : m.active.Nodup :=
  h.rec_step (fun _ _ _ => List.nodup_nil) Move.nodup_active

/-! ## §2 Stacks -/

/-- Every dispatch but the innermost one is running a callback, and so is that one
as long as a body goes on. -/
structure Stacked (m : Session σ κ) : Prop where
  outer : ∀ call ∈ m.calls.tail, call.active.isSome = true
  busy : m.running ≠ .done → ∀ call ∈ m.calls, call.active.isSome = true

theorem Move.stacked (h : Move m m') (stacked : Stacked m) : Stacked m' := by
  have outer {call : Call σ κ} {outer : List (Call σ κ)} (calls : m.calls = call :: outer) :
      ∀ call ∈ outer, call.active.isSome = true := by
    have outer := stacked.outer
    rwa [calls] at outer
  obtain ⟨os, -, effect⟩ := h.effect
  cases effect with
  | request idle calls =>
    have all : ∀ call ∈ m'.calls, call.active.isSome = true := by
      intro call there
      rw [calls] at there
      by_cases done : m.running = .done
      · rw [idle done] at there
        exact absurd there List.not_mem_nil
      · exact stacked.busy done call there
    exact ⟨fun call there => all call (List.mem_of_mem_tail there), fun _ => all⟩
  | dispatch asked => exact ⟨stacked.busy (by simp [asked]), fun busy => absurd rfl busy⟩
  | finish done calls | skip done calls =>
    exact ⟨outer calls, fun busy => absurd done busy⟩
  | start done calls active turn may begun =>
    refine ⟨?_, fun _ => ?_⟩ <;> rw [begun]
    · exact outer calls
    · exact List.forall_mem_cons.mpr ⟨rfl, outer calls⟩
  | leave done calls =>
    exact ⟨fun call there => outer calls call (List.mem_of_mem_tail there),
      fun _ => outer calls⟩

theorem Reachable.stacked (h : Reachable m) : Stacked m :=
  h.rec_step (fun _ _ _ => ⟨by simp [start], by simp [start]⟩) Move.stacked

/-- So there is at most one dispatch more than there are callbacks running. -/
theorem Stacked.length_calls_le (h : Stacked m) : m.calls.length ≤ m.active.length + 1 := by
  have outer := h.outer
  cases calls : m.calls with
  | nil => exact Nat.zero_le _
  | cons call outer' =>
    rw [calls] at outer
    have all := List.filterMap_length_eq_length.mpr outer
    rw [active_cons calls, List.length_append, List.length_cons]
    rw [List.tail_cons] at all
    omega

/-! ## §3 Growth -/

/-- The next step neither registers a hook nor replaces the registry. -/
def Quiet (m : Session σ κ) : Prop := ∀ o ∈ news m m.step, o.grows = false

/-- What is told first is part of the news. -/
theorem mem_news_of_push {m₁ : Session σ κ} {o : Occurrence}
    (told : m₁.history = m.history.push o) (aside : Aside m₁ m') : o ∈ news m m' := by
  obtain ⟨os, next, -⟩ := aside.told
  have all : m'.history.toList = m.history.toList ++ o :: os := by simp [next, told]
  rw [news_eq all]
  exact List.mem_cons_self

/-- Where nothing grows, the current registry stays, and it loses hooks at most. -/
theorem Quiet.hooks_subset (quiet : Quiet m) : m.step.hooks ⊆ m.hooks := by
  intro hook held
  cases (move_step m).bookkeeping with
  | aside same =>
    rw [hooks, same.registry, current, same.registries] at held
    exact held
  | @register once accepts body next asked same =>
    cases quiet _ (mem_news_of_push (history_register once accepts body) same)
  | @withdraw cancelled reg known live same =>
    have size : ((m.withdraw cancelled reg).record
        (.cancelled cancelled (some reg.cookie))).registries.size = m.registries.size :=
      size_registries_withdraw cancelled reg
    rw [hooks, same.registry, current, same.registries, size] at held
    exact mem_of_mem_withdraw held
  | renew same => cases quiet _ (mem_news_of_push rfl same)

theorem hooks_iterate_subset {n : Nat} (quiet : ∀ k < n, Quiet (step^[k] m)) :
    (step^[n] m).hooks ⊆ m.hooks := by
  induction n with
  | zero => exact List.Subset.refl _
  | succ n ih =>
    rw [Function.iterate_succ_apply']
    exact List.Subset.trans (quiet n (Nat.lt_succ_self n)).hooks_subset
      (ih fun k hk => quiet k (Nat.lt_succ_of_lt hk))

/-- All hooks that can run are some of these. -/
structure Confined (ids : List Nat) (m : Session σ κ) : Prop where
  hooks : ∀ hook ∈ m.hooks, hook.id ∈ ids
  pending : ∀ call ∈ m.calls, ∀ hook ∈ call.pending, hook.id ∈ ids
  active : ∀ id ∈ m.active, id ∈ ids

theorem Confined.step {ids : List Nat} (h : Confined ids m) (quiet : Quiet m) :
    Confined ids m.step where
  hooks hook held := h.hooks hook (quiet.hooks_subset held)
  pending call there hook waiting := by
    rcases (move_step m).call there with ⟨call', before, -, -, part⟩ | ⟨-, judged, -⟩
    · exact h.pending call' before hook (part waiting)
    · exact h.hooks hook (judged hook waiting).1
  active id running := by
    rcases (move_step m).active running with before | ⟨d, started⟩
    · exact h.active id before
    · obtain ⟨call, outer, hook, pending, turn, -, rfl, -⟩ := (move_step m).started started
      exact h.pending call turn.mem.1 hook turn.mem.2

theorem Confined.iterate {ids : List Nat} (h : Confined ids m) {n : Nat}
    (quiet : ∀ k < n, Quiet (Session.step^[k] m)) : Confined ids (Session.step^[n] m) := by
  induction n with
  | zero => exact h
  | succ n ih =>
    rw [Function.iterate_succ_apply']
    exact (ih fun k hk => quiet k (Nat.lt_succ_of_lt hk)).step (quiet n (Nat.lt_succ_self n))

/-- The hooks that have their turns in a dispatch are held by the registry as it
begins. -/
theorem mem_hooks_of_beginning {event : Event} {next : Nat → Program σ κ} {hook : Hook σ κ}
    (turn : hook ∈ (m.beginning event next).pending) : hook ∈ m.hooks := by
  obtain ⟨verdict, accepted, rfl⟩ := List.mem_map.mp turn
  rw [← map_fst_verdicts m event m.shared]
  exact List.mem_map_of_mem (List.mem_filter.mp accepted).1

/-- As an outermost dispatch begins, the hooks that can run are those of the registry. -/
theorem confined_dispatch {event : Event} {next : Nat → Program σ κ}
    (asked : m.running = .dispatch event next) (idle : m.calls = []) :
    Confined (m.hooks.map Hook.id) m.step := by
  rw [step_dispatch asked, idle]
  constructor
  · exact fun hook held => List.mem_map_of_mem held
  · intro call there hook waiting
    rw [List.mem_singleton.mp there] at waiting
    exact List.mem_map_of_mem (mem_hooks_of_beginning waiting)
  · exact fun id running => absurd running List.not_mem_nil

/-- So dispatches nest at most one deeper than there are such hooks. -/
theorem Confined.length_calls_le {ids : List Nat} (h : Confined ids m) (reachable : Reachable m) :
    m.calls.length ≤ ids.length + 1 := by
  have running := reachable.nodup_active.length_le_of_subset h.active
  have stacked := reachable.stacked.length_calls_le
  omega

end Session

end Unwind
