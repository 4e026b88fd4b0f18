/-
Unwind.Proofs.Cut — what limits do to a backtrace.

  §1 Visits    — a visit whose scan did not give up is the same under every
                 larger budget (`innermost_of_le`, `ofFrame_of_le`).
  §2 Caps      — a lower cap keeps an initial part of the visits
                 (`take_visitsFrom`), and a walk that the cap did not stop is
                 the same under every larger cap (`run_of_cap_le`).
  §3 Budgets   — a walk in which no scan gave up is the same under every larger
                 budget (`visitsFrom_of_budget_le`).
  §4 Backtrace — `limits_only_cut`: a smaller cap leaves out entries and nothing
                 else, and diagnostics that name no limit promise that larger
                 limits would change nothing.
-/
import Unwind.Proofs.Chain
import Unwind.Proofs.Scan
import Mathlib.Data.List.Infix

namespace Unwind

/-! ## §1 Visits -/

namespace Visit

@[simp] theorem scan_ofFrame (memory : Memory) (budget : UInt32) (frame : Frame) :
    (ofFrame memory budget frame).scan = Scan.run memory budget frame.pc := by
  simp only [ofFrame]
  split
  · rfl
  · split <;> rfl

@[simp] theorem scan_innermost (cpu : Cpu) (budget : UInt32) :
    (innermost cpu budget).scan = Scan.run cpu.memory budget cpu.pc := rfl

variable {budget budget' : UInt32} (le : budget ≤ budget')
include le

theorem ofFrame_of_le (memory : Memory) (frame : Frame)
    (h : (ofFrame memory budget frame).scan.stop ≠ .budgetExhausted) :
    ofFrame memory budget' frame = ofFrame memory budget frame := by
  rw [scan_ofFrame] at h
  simp only [ofFrame, Scan.run_of_le memory frame.pc le h]

theorem innermost_of_le (cpu : Cpu)
    (h : (innermost cpu budget).scan.stop ≠ .budgetExhausted) :
    innermost cpu budget' = innermost cpu budget := by
  rw [scan_innermost] at h
  simp only [innermost, Scan.run_of_le cpu.memory cpu.pc le h]

omit le in
/-- Only a scan that gave up has to do with the budget. -/
theorem diagnostics_of_stop {v : Visit} (h : v.scan.stop ≠ .budgetExhausted) :
    v.diagnostics budget' = v.diagnostics budget := by
  simp only [diagnostics, if_neg h]

omit le in
/-- A scan that gave up is among the diagnostics. -/
theorem stop_of_diagnostics {v : Visit}
    (h : .scanLimitExceeded v.pc budget ∉ v.diagnostics budget) :
    v.scan.stop ≠ .budgetExhausted := by
  intro gaveUp
  apply h
  simp [diagnostics, gaveUp]

end Visit

/-! ## §2 Caps -/

namespace Walk

/-- With less room a walk makes the first of the same visits. -/
theorem take_visitsFrom (memory : Memory) (budget : UInt32) {room room' : Nat}
    (le : room ≤ room') (start : Frame) :
    (visitsFrom memory budget room' start).take room = visitsFrom memory budget room start := by
  apply List.ext_getElem?
  intro i
  rw [List.getElem?_take, getElem?_visitsFrom, getElem?_visitsFrom]
  by_cases h : i < room
  · rw [if_pos h, if_pos h, if_pos (Nat.lt_of_lt_of_le h le)]
  · rw [if_neg h, if_neg h]

theorem take_callers (cpu : Cpu) (budget : UInt32) {cap cap' : Nat} (le : cap ≤ cap') :
    (run ⟨budget, cap'⟩ cpu).callers.take (cap - 1) = (run ⟨budget, cap⟩ cpu).callers := by
  rw [callers_run, callers_run]
  exact take_visitsFrom _ _ (Nat.sub_le_sub_right le 1) _

/-- The visits under a lower cap are an initial part of those under a higher. -/
theorem isPrefix_visits (cpu : Cpu) (budget : UInt32) {cap cap' : Nat} (le : cap ≤ cap') :
    (run ⟨budget, cap⟩ cpu).visits <+: (run ⟨budget, cap'⟩ cpu).visits := by
  unfold visits
  rw [← take_callers cpu budget le, innermost_run, innermost_run]
  exact List.prefix_cons_inj _ |>.mpr (List.take_prefix _ _)

/-- A chain that ends within the room leaves the rest of a larger room unused. -/
theorem visitsFrom_of_room_le (memory : Memory) (budget : UInt32) {room room' : Nat}
    (le : room ≤ room') (start : Frame)
    (ended : Frame.chain memory budget start room = none) :
    visitsFrom memory budget room' start = visitsFrom memory budget room start := by
  apply List.ext_getElem?
  intro i
  rw [getElem?_visitsFrom, getElem?_visitsFrom]
  by_cases h : i < room
  · rw [if_pos h, if_pos (Nat.lt_of_lt_of_le h le)]
  · rw [if_neg h, Frame.chain_none_of_le _ _ (Nat.not_lt.mp h) ended]
    simp

/-- A walk that the cap did not stop makes the same visits under a larger
cap. -/
theorem run_of_cap_le (cpu : Cpu) (budget : UInt32) {cap cap' : Nat} (le : cap ≤ cap')
    (h : (run ⟨budget, cap⟩ cpu).ending ≠ .capReached) :
    run ⟨budget, cap'⟩ cpu = { run ⟨budget, cap⟩ cpu with limits := ⟨budget, cap'⟩ } := by
  rw [ne_eq, ← isTruncated_backtrace, ← Cpu.backtrace, isTruncated_iff_chain,
    Option.not_isSome_iff_eq_none] at h
  simp only [run, Visit.next?_innermost]
  rw [visitsFrom_of_room_le _ _ (Nat.sub_le_sub_right le 1) _ h]

/-! ## §3 Budgets -/

/-- Visits none of which gave up are made in the same way under a larger
budget. -/
theorem visitsFrom_of_budget_le (memory : Memory) {budget budget' : UInt32}
    (le : budget ≤ budget') (room : Nat) (start : Frame)
    (h : ∀ v ∈ visitsFrom memory budget room start, v.scan.stop ≠ .budgetExhausted) :
    visitsFrom memory budget' room start = visitsFrom memory budget room start := by
  induction room generalizing start with
  | zero => rfl
  | succ room ih =>
    have same : Visit.ofFrame memory budget' start = Visit.ofFrame memory budget start := by
      apply Visit.ofFrame_of_le le memory start
      exact h _ (by simp [visitsFrom])
    have caller : start.caller? memory budget' = start.caller? memory budget := by
      rw [← Visit.next?_ofFrame, same, Visit.next?_ofFrame]
    cases hc : start.caller? memory budget with
    | none =>
      rw [visitsFrom_succ_of_none _ _ hc, visitsFrom_succ_of_none _ _ (caller.trans hc), same]
    | some frame =>
      rw [visitsFrom_succ_of_caller _ _ hc] at h ⊢
      rw [visitsFrom_succ_of_caller _ _ (caller.trans hc), same,
        ih frame fun v hv => h v (List.mem_cons_of_mem _ hv)]

/-- A walk in which no scan gave up makes the same visits under a larger
budget. -/
theorem run_of_budget_le (cpu : Cpu) {budget budget' : UInt32} (le : budget ≤ budget')
    (cap : Nat) (h : ∀ v ∈ (run ⟨budget, cap⟩ cpu).visits, v.scan.stop ≠ .budgetExhausted) :
    run ⟨budget', cap⟩ cpu = { run ⟨budget, cap⟩ cpu with limits := ⟨budget', cap⟩ } := by
  have innermost : Visit.innermost cpu budget' = Visit.innermost cpu budget :=
    Visit.innermost_of_le le cpu (h _ List.mem_cons_self)
  simp only [visits, callers_run] at h
  simp only [run, innermost, Visit.next?_innermost]
  rw [visitsFrom_of_budget_le _ le _ _ fun v hv => h v (List.mem_cons_of_mem _ hv)]

/-! ## §4 Backtrace -/

/-- No visit of a walk gave up if the backtrace says nothing of it. -/
theorem stop_of_backtrace (w : Walk)
    (h : ∀ start budget, .scanLimitExceeded start budget ∉ w.backtrace.diagnostics) :
    ∀ v ∈ w.visits, v.scan.stop ≠ .budgetExhausted := by
  intro v hv
  have silent : .scanLimitExceeded v.pc w.limits.scanBudget
      ∉ v.diagnostics w.limits.scanBudget := by
    intro hd
    exact h _ _ (List.mem_append_left _ (List.mem_flatMap.mpr ⟨v, hv, hd⟩))
  exact Visit.stop_of_diagnostics silent

/-- What a backtrace tells of its visits, without what it tells of the cap. -/
theorem filter_diagnostics (w : Walk) :
    w.backtrace.diagnostics.filter (fun d => !d.isCut)
      = w.visits.flatMap (Visit.diagnostics w.limits.scanBudget) := by
  have kept : (w.visits.flatMap (Visit.diagnostics w.limits.scanBudget)).filter (fun d => !d.isCut)
      = w.visits.flatMap (Visit.diagnostics w.limits.scanBudget) := by
    rw [List.filter_eq_self]
    intro d hd
    obtain ⟨v, -, hv⟩ := List.mem_flatMap.mp hd
    rw [Visit.isCut_of_mem_diagnostics _ hv, Bool.not_false]
  have dropped : w.cut.filter (fun d => !d.isCut) = [] := by
    unfold cut
    split <;> rfl
  simp only [backtrace, List.filter_append, kept, dropped, List.append_nil]

/-- A walk that no limit stopped gives the same backtrace under any other
limits. -/
theorem backtrace_of_limits (w : Walk) (limits : Limits) (uncut : w.ending ≠ .capReached)
    (h : ∀ v ∈ w.visits, v.scan.stop ≠ .budgetExhausted) :
    { w with limits := limits }.backtrace = w.backtrace := by
  have same : w.visits.flatMap (Visit.diagnostics limits.scanBudget)
      = w.visits.flatMap (Visit.diagnostics w.limits.scanBudget) :=
    List.flatMap_congr fun v hv => Visit.diagnostics_of_stop (h v hv)
  have uncut' : { w with limits := limits }.ending ≠ .capReached := uncut
  unfold backtrace cut
  rw [if_neg uncut, if_neg uncut']
  exact congrArg (Backtrace.mk _ _ <| · ++ []) same

theorem length_pcs_eq_succ_iff (cpu : Cpu) (budget : UInt32) {cap : Nat} (pos : 1 ≤ cap) :
    (cpu.backtrace ⟨budget, cap + 1⟩).pcs.length = cap + 1
      ↔ (Frame.chain cpu.memory budget (Frame.first cpu budget) (cap - 1)).isSome := by
  have le := length_callers_le ⟨budget, cap + 1⟩ cpu
  have last := getElem?_callers ⟨budget, cap + 1⟩ cpu (cap - 1)
  simp only [Nat.add_sub_cancel] at le last
  rw [if_pos (by omega)] at last
  rw [Backtrace.pcs, List.length_cons, Nat.add_right_cancel_iff, ← Option.isSome_map, ← last,
    isSome_getElem?]
  omega

/-- **Limits only cut a backtrace**, and its diagnostics say so. Under one
budget, a smaller cap leaves out the entries beyond it, and with them their
diagnostics; a backtrace is truncated exactly if one more entry would find its
place. A backtrace whose diagnostics name neither limit is the backtrace under
all larger limits. -/
theorem limits_only_cut (cpu : Cpu) {b b' : UInt32} {c c' : Nat} (budget_le : b ≤ b')
    (cap_pos : 1 ≤ c) (cap_le : c ≤ c') :
    ((cpu.backtrace ⟨b, c⟩).pcs
          = (cpu.backtrace ⟨b, c'⟩).pcs.take (min c (cpu.backtrace ⟨b, c'⟩).pcs.length)
        ∧ (cpu.backtrace ⟨b, c⟩).diagnostics.filter (fun d => !d.isCut)
            <+: (cpu.backtrace ⟨b, c'⟩).diagnostics)
      ∧ ((cpu.backtrace ⟨b, c⟩).isTruncated = true
          ↔ (cpu.backtrace ⟨b, c + 1⟩).pcs.length = c + 1)
      ∧ ((∀ start budget, .scanLimitExceeded start budget ∉ (cpu.backtrace ⟨b, c⟩).diagnostics) →
          (∀ cap, .frameCapExceeded cap ∉ (cpu.backtrace ⟨b, c⟩).diagnostics) →
          cpu.backtrace ⟨b', c'⟩ = cpu.backtrace ⟨b, c⟩) := by
  refine ⟨⟨?_, ?_⟩, ?_, ?_⟩
  · obtain ⟨c, rfl⟩ : ∃ n, c = n + 1 := ⟨c - 1, by omega⟩
    rw [← List.take_eq_take_min]
    simp only [Backtrace.pcs, List.take_succ_cons, Cpu.backtrace, backtrace,
      ← take_callers cpu b cap_le, List.map_take, Nat.add_sub_cancel, innermost_run]
  · rw [Cpu.backtrace, filter_diagnostics]
    exact ((isPrefix_visits cpu b cap_le).flatMap _).trans (List.prefix_append _ _)
  · rw [length_pcs_eq_succ_iff cpu b cap_pos]
    exact isTruncated_iff_chain ⟨b, c⟩ cpu
  · intro noScan noCap
    have stops := stop_of_backtrace (run ⟨b, c⟩ cpu) noScan
    have uncut : (run ⟨b, c⟩ cpu).ending ≠ .capReached := by
      intro ended
      apply noCap c
      apply List.mem_append_right
      rw [cut, if_pos ended]
      exact List.mem_singleton_self _
    calc cpu.backtrace ⟨b', c'⟩
        = { run ⟨b', c⟩ cpu with limits := ⟨b', c'⟩ }.backtrace := by
          rw [Cpu.backtrace, run_of_cap_le cpu b' cap_le]
          rw [run_of_budget_le cpu budget_le c stops]
          exact uncut
      _ = { run ⟨b, c⟩ cpu with limits := ⟨b', c'⟩ }.backtrace := by
          rw [run_of_budget_le cpu budget_le c stops]
      _ = cpu.backtrace ⟨b, c⟩ := backtrace_of_limits _ _ uncut stops

/-- A machine stopped behind the prologue of a function; all around it lie
returns. -/
def behindPrologue : Cpu where
  pc := 0x80001008
  register r := if r = .sp then 0x80002000 else 0
  memory := .ofEntries Instruction.returnRa
    [(0x80001000, Marker.word (.adjustSp (-24))), (0x80001004, Marker.word (.saveRa 20)),
      (0x80001008, 0), (0x80002014, 0x80003008)]

/-- Three words of budget and two frames just do for that machine; so it keeps
its backtrace under larger limits, and loses one entry to a cap of one. -/
theorem limits_only_cut_behindPrologue :
    (12 : UInt32) ≤ 16384 ∧ 1 ≤ 2 ∧ 2 ≤ 512
      ∧ behindPrologue.backtrace ⟨16384, 512⟩ = behindPrologue.backtrace ⟨12, 2⟩
      ∧ (behindPrologue.backtrace ⟨12, 2⟩).pcs = [0x80001008, 0x80003008]
      ∧ (behindPrologue.backtrace ⟨12, 1⟩).isTruncated = true := by
  have budget_le : (12 : UInt32) ≤ 16384 := by decide
  have silent : (behindPrologue.backtrace ⟨12, 2⟩).diagnostics = [] := by decide +kernel
  have listed : (behindPrologue.backtrace ⟨12, 2⟩).pcs = [0x80001008, 0x80003008] := by
    decide +kernel
  obtain ⟨-, -, same⟩ :=
    limits_only_cut behindPrologue budget_le (show 1 ≤ 2 by decide) (show 2 ≤ 512 by decide)
  obtain ⟨-, cut, -⟩ :=
    limits_only_cut behindPrologue budget_le (show 1 ≤ 1 by decide) (show 1 ≤ 512 by decide)
  refine ⟨budget_le, by decide, by decide, ?_, listed, ?_⟩
  · exact same (by simp [silent]) (by simp [silent])
  · exact cut.mpr (by rw [listed]; rfl)

end Walk

end Unwind
