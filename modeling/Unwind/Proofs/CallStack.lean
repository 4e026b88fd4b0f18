/-
Unwind.Proofs.CallStack — a well-formed call stack is recovered exactly.

A call stack is well-formed if every caller is stopped inside a function of a
known layout and its own return address stands in the spill slot (`Callers`),
and if the function in which the processor stopped has either run its prologue
(`Spilled`) or is a leaf that keeps its return address in the register
(`Leaf`).

  §1 Stacks     — well-formed call stacks.
  §2 Chains     — the calling chain of such a stack is the stack itself
                  (`Callers.chain`, `Callers.chain_end`).
  §3 Backtraces — `recovers_call_stack`: the backtrace lists the stack up to the
                  frame cap, and its diagnostics are those of the last scan.
-/
import Unwind.Proofs.Cut
import Unwind.Proofs.Function

namespace Unwind

/-! ## §1 Stacks -/

/-- The frames of the callers, the innermost of them first: `n` functions that
have run their prologues, and a last one that did not spill its return address.
A spilled return address lies two instructions behind the call. -/
structure Callers (memory : Memory) (budget : UInt32) (n : Nat) (frame : Nat → Frame)
    (layout : Nat → Layout) : Prop where
  around : ∀ i < n, (layout i).Around memory budget (frame i).pc
  returns : ∀ i < n,
    memory.word ((frame i).sp + .ofNat (layout i).raOffset.toNat) = (frame (i + 1)).pc + 8
  no_overflow : ∀ i < n, (frame (i + 1)).pc.toNat + 8 < 2 ^ 32
  sp : ∀ i < n, (frame (i + 1)).sp = (frame i).sp - .ofInt (layout i).frameSize.toInt
  last : (Scan.run memory budget (frame n).pc).raOffset = none

/-- The function in which the processor stopped has run its prologue. What it
spilled is taken as it is. -/
structure Spilled (cpu : Cpu) (budget : UInt32) (l : Layout) (caller : Frame) : Prop where
  around : l.Around cpu.memory budget cpu.pc
  returns : cpu.memory.word (cpu.register .sp + .ofNat l.raOffset.toNat) = caller.pc
  sp : caller.sp = cpu.register .sp - .ofInt l.frameSize.toInt

/-- The function in which the processor stopped has not spilled its return
address. It may have moved the stack pointer. -/
structure Leaf (cpu : Cpu) (budget : UInt32) (caller : Frame) : Prop where
  unspilled : (Scan.run cpu.memory budget cpu.pc).raOffset = none
  returns : cpu.register .ra = caller.pc
  sp : caller.sp = match (Scan.run cpu.memory budget cpu.pc).frameSize with
    | some size => cpu.register .sp - .ofInt size.toInt
    | none => cpu.register .sp

/-! ## §2 Chains -/

theorem Layout.Around.frame? {l : Layout} {memory : Memory} {budget pc : UInt32}
    (around : l.Around memory budget pc) :
    (Scan.run memory budget pc).frame? = some (l.raOffset, l.frameSize) := by
  obtain ⟨offset, size, -⟩ := around.run
  simp only [Scan.frame?, offset, size]

theorem Spilled.first {cpu : Cpu} {budget : UInt32} {l : Layout} {caller : Frame}
    (spilled : Spilled cpu budget l caller) : Frame.first cpu budget = caller := by
  obtain ⟨offset, size, -⟩ := spilled.around.run
  simp only [Frame.first, offset, size, spilled.returns, ← spilled.sp]

theorem Leaf.first {cpu : Cpu} {budget : UInt32} {caller : Frame}
    (leaf : Leaf cpu budget caller) : Frame.first cpu budget = caller := by
  simp only [Frame.first, leaf.unspilled, leaf.returns]
  exact congrArg (Frame.mk caller.pc) leaf.sp.symm

namespace Callers

variable {memory : Memory} {budget : UInt32} {n : Nat} {frame : Nat → Frame}
  {layout : Nat → Layout}

/-- Unwinding a frame of the stack gives the next one. -/
theorem caller? (callers : Callers memory budget n frame layout) {i : Nat} (h : i < n) :
    (frame i).caller? memory budget = some (frame (i + 1)) := by
  have above : 8 ≤ (frame (i + 1)).pc + 8 := by
    have := callers.no_overflow i h
    apply UInt32.le_iff_toNat_le.mpr
    rw [UInt32.toNat_add, show (8 : UInt32).toNat = 8 from rfl]
    omega
  simp only [Frame.caller?, (callers.around i h).frame?, callers.returns i h, if_pos above,
    UInt32.add_sub_cancel, ← callers.sp i h]

/-- The calling chain passes through all frames of the stack. -/
theorem chain (callers : Callers memory budget n frame layout) {i : Nat} (h : i ≤ n) :
    Frame.chain memory budget (frame 0) i = some (frame i) := by
  induction i with
  | zero => rfl
  | succ i ih => rw [Frame.chain, ih (Nat.le_of_succ_le h), Option.bind_some, callers.caller? h]

/-- It ends behind them: the last function has no whole prologue. -/
theorem chain_end (callers : Callers memory budget n frame layout) :
    Frame.chain memory budget (frame 0) (n + 1) = none := by
  rw [Frame.chain, callers.chain le_rfl, Option.bind_some, Frame.caller?, Scan.frame?,
    callers.last]

end Callers

/-! ## §3 Backtraces -/

namespace Visit

variable {v : Visit} (budget : UInt32)

/-- A visit inside a function of a known layout has nothing to tell. -/
theorem diagnostics_of_around {memory : Memory} {l : Layout} {pc : UInt32}
    (around : l.Around memory budget pc) (scan : v.scan = Scan.run memory budget pc) :
    v.diagnostics budget = [] := by
  obtain ⟨offset, size, stop⟩ := around.run
  rw [← scan] at offset size stop
  simp [diagnostics, incomplete, Scan.isIncomplete, offset, size, stop]

/-- Of a function that did not spill its return address, a visit tells that the
scan gave up, if it did, and that the prologue was only half found, if it was. -/
theorem diagnostics_of_unspilled (unspilled : v.scan.raOffset = none) :
    v.diagnostics budget
      = (if v.scan.stop = .budgetExhausted then [.scanLimitExceeded v.pc budget] else [])
        ++ (v.scan.frameSize.map fun size => .incompletePrologue v.pc none (some size)).toList := by
  cases size : v.scan.frameSize <;>
    simp [diagnostics, incomplete, Scan.isIncomplete, unspilled, size]

end Visit

namespace Callers

variable {cpu : Cpu} {limits : Limits} {n : Nat} {frame : Nat → Frame} {layout : Nat → Layout}
  (callers : Callers cpu.memory limits.scanBudget n frame layout)
  (first : Frame.first cpu limits.scanBudget = frame 0)
include callers first

/-- The pcs are those of the stack, as many as the frame cap admits. -/
theorem pcs (pos : 1 ≤ limits.frameCap) :
    (cpu.backtrace limits).pcs
      = (cpu.pc :: (List.range (n + 1)).map fun i => (frame i).pc).take limits.frameCap := by
  apply List.ext_getElem?
  intro i
  rw [List.getElem?_take]
  cases i with
  | zero =>
    have listed : 0 < limits.frameCap := pos
    rw [if_pos listed]
    rfl
  | succ i =>
    have listed := Walk.getElem?_callers limits cpu i
    rw [Backtrace.pcs, List.getElem?_cons_succ, List.getElem?_cons_succ, listed, first]
    have room : i < limits.frameCap - 1 ↔ i + 1 < limits.frameCap := by omega
    simp only [room]
    split
    · by_cases inside : i < n + 1
      · rw [callers.chain (Nat.le_of_lt_succ inside), List.getElem?_map,
          List.getElem?_range inside]
        rfl
      · rw [Frame.chain_none_of_le _ _ (Nat.not_lt.mp inside) callers.chain_end,
          List.getElem?_eq_none (by simpa using inside)]
        rfl
    · rfl

/-- The backtrace is truncated exactly if the stack has more entries than the
frame cap admits. -/
theorem isTruncated (pos : 1 ≤ limits.frameCap) :
    (cpu.backtrace limits).isTruncated = decide (limits.frameCap < n + 2) := by
  rw [Bool.eq_iff_iff, Walk.isTruncated_iff_chain, first, decide_eq_true_iff]
  constructor
  · intro goesOn
    by_contra beyond
    rw [Frame.chain_none_of_le _ _ (by omega) callers.chain_end] at goesOn
    exact absurd goesOn (by simp)
  · intro cut
    rw [callers.chain (by omega), Option.isSome_some]

/-- With room for the whole stack, every caller is visited. -/
theorem visits (room : n + 2 ≤ limits.frameCap) :
    (Walk.run limits cpu).callers
      = (List.range (n + 1)).map fun i =>
          Visit.ofFrame cpu.memory limits.scanBudget (frame i) := by
  rw [Walk.callers_run, first]
  apply List.ext_getElem?
  intro i
  rw [Walk.getElem?_visitsFrom, List.getElem?_map]
  by_cases inside : i < n + 1
  · rw [if_pos (by omega), callers.chain (Nat.le_of_lt_succ inside), List.getElem?_range inside]
    rfl
  · rw [Frame.chain_none_of_le _ _ (Nat.not_lt.mp inside) callers.chain_end,
      List.getElem?_eq_none (by simpa using inside)]
    split <;> rfl

/-- What the backtrace tells of a stack it lists to the end: nothing but what
the first and the last scan call for. -/
theorem diagnostics (room : n + 2 ≤ limits.frameCap) :
    (cpu.backtrace limits).diagnostics
      = (Visit.innermost cpu limits.scanBudget).diagnostics limits.scanBudget
        ++ (Visit.ofFrame cpu.memory limits.scanBudget (frame n)).diagnostics
            limits.scanBudget := by
  have whole : (cpu.backtrace limits).isTruncated = false := by
    rw [callers.isTruncated first (by omega), decide_eq_false (by omega)]
  have uncut : (Walk.run limits cpu).cut = [] := by
    rw [Walk.cut, if_neg]
    rw [← Walk.isTruncated_backtrace, ← Cpu.backtrace, whole]
    exact Bool.false_ne_true
  have silent : (List.range n).flatMap (fun i =>
      (Visit.ofFrame cpu.memory limits.scanBudget (frame i)).diagnostics limits.scanBudget)
        = [] := by
    apply List.flatMap_eq_nil_iff.mpr
    intro i hi
    exact Visit.diagnostics_of_around _ (callers.around i (List.mem_range.mp hi))
      (Visit.scan_ofFrame ..)
  show ((Walk.run limits cpu).innermost :: (Walk.run limits cpu).callers).flatMap
    (Visit.diagnostics limits.scanBudget) ++ _ = _
  rw [uncut, List.append_nil, callers.visits first room, List.flatMap_cons, List.flatMap_map,
    List.range_succ, List.flatMap_append, silent, List.nil_append, List.flatMap_singleton,
    Walk.innermost_run]

end Callers

/-- **A well-formed call stack is recovered exactly.** The backtrace lists the
pc and its callers, innermost first, up to the frame cap, and it is truncated
exactly if that leaves some of them out. If the innermost function has run its
prologue, the only diagnostics of the whole stack are those of the scan from
the last caller. -/
theorem recovers_call_stack (cpu : Cpu) (limits : Limits) (pos : 1 ≤ limits.frameCap) {n : Nat}
    {frame : Nat → Frame} {layout : Nat → Layout}
    (callers : Callers cpu.memory limits.scanBudget n frame layout)
    (innermost : (∃ l, Spilled cpu limits.scanBudget l (frame 0))
      ∨ Leaf cpu limits.scanBudget (frame 0)) :
    let b := cpu.backtrace limits
    let stack := cpu.pc :: (List.range (n + 1)).map fun i => (frame i).pc
    let last := Scan.run cpu.memory limits.scanBudget (frame n).pc
    (n + 2 ≤ limits.frameCap → b.pcs = stack ∧ b.isTruncated = false)
    ∧ (limits.frameCap < n + 2 → b.pcs = stack.take limits.frameCap ∧ b.isTruncated = true)
    ∧ (n + 2 ≤ limits.frameCap → ∀ l, Spilled cpu limits.scanBudget l (frame 0) →
        b.diagnostics
          = (if last.stop = .budgetExhausted then
              [.scanLimitExceeded (frame n).pc limits.scanBudget] else [])
            ++ (last.frameSize.map fun size =>
              .incompletePrologue (frame n).pc none (some size)).toList) := by
  intro b stack last
  have first : Frame.first cpu limits.scanBudget = frame 0 := by
    rcases innermost with ⟨l, spilled⟩ | leaf
    · exact spilled.first
    · exact leaf.first
  have listed := callers.pcs first pos
  have truncated := callers.isTruncated first pos
  refine ⟨?_, ?_, ?_⟩
  · intro room
    have size : stack.length = n + 2 := by simp [stack]
    have all : stack.length ≤ limits.frameCap := by rwa [size]
    exact ⟨listed.trans (List.take_of_length_le all),
      truncated.trans (decide_eq_false (Nat.not_lt.mpr room))⟩
  · intro cut
    exact ⟨listed, truncated.trans (decide_eq_true cut)⟩
  · intro room l spilled
    have silent : (Visit.innermost cpu limits.scanBudget).diagnostics limits.scanBudget = [] :=
      Visit.diagnostics_of_around _ spilled.around (Visit.scan_innermost ..)
    have unspilled : (Visit.ofFrame cpu.memory limits.scanBudget (frame n)).scan.raOffset
        = none := by
      rw [Visit.scan_ofFrame]
      exact callers.last
    rw [callers.diagnostics first room, silent, List.nil_append,
      Visit.diagnostics_of_unspilled limits.scanBudget unspilled, Visit.scan_ofFrame,
      Visit.pc_ofFrame]

/-- A machine stopped in the body of a function that was called from the body of
another, which was called from beyond. All around lie returns. -/
def calledTwice : Cpu where
  pc := 0x80001008
  register r := if r = .sp then 0x80002000 else 0
  memory := .ofEntries Instruction.returnRa
    [(0x80001000, Marker.word (.adjustSp (-24))), (0x80001004, Marker.word (.saveRa 20)),
      (0x80001008, 0), (0x80002014, 0x80001108),
      (0x80001100, Marker.word (.adjustSp (-32))), (0x80001104, Marker.word (.saveRa 28)),
      (0x80001108, 0), (0x80002034, 0x80003010)]

/-- Where the two functions of that machine lie: behind the prologue each has one
more instruction. -/
theorem around_calledTwice {l : Layout}
    (h : l = ⟨0x80001000, 0x80001004, -24, 20⟩ ∨ l = ⟨0x80001100, 0x80001104, -32, 28⟩) :
    l.Around calledTwice.memory 12 (l.spill + 4) := by
  have body : ∀ address, l.entry ≤ address → address ≤ l.spill + 4 →
      address.toNat % 4 = (l.spill + 4).toNat % 4 → address ≠ l.entry → address ≠ l.spill →
      address = l.spill + 4 := by
    intro address low high aligned entry spill
    rw [UInt32.le_iff_toNat_le] at low high
    rw [ne_eq, ← UInt32.toNat_inj] at entry spill
    apply UInt32.toNat_inj.mp
    rcases h with rfl | rfl <;> simp at * <;> omega
  rcases h with rfl | rfl
  all_goals
    refine ⟨by decide, by decide, by decide, by decide, by decide, by decide, ?_, by decide⟩
    intro address low high aligned entry spill
    rw [body address low high aligned entry spill]
    decide

/-- Three frames just do for the stack of that machine. -/
theorem recovers_call_stack_calledTwice :
    (calledTwice.backtrace ⟨12, 3⟩).pcs = [0x80001008, 0x80001108, 0x80003008]
      ∧ (calledTwice.backtrace ⟨12, 3⟩).isTruncated = false
      ∧ (calledTwice.backtrace ⟨12, 2⟩).isTruncated = true := by
  let frame (i : Nat) : Frame :=
    if i = 0 then ⟨0x80001108, 0x80002018⟩ else ⟨0x80003008, 0x80002038⟩
  let layout (_ : Nat) : Layout := ⟨0x80001100, 0x80001104, -32, 28⟩
  have callers : Callers calledTwice.memory 12 1 frame layout := by
    refine ⟨?_, ?_, ?_, ?_, ?_⟩
    · intro i hi
      rw [Nat.lt_one_iff.mp hi]
      exact around_calledTwice (.inr rfl)
    · decide
    · decide
    · decide
    · decide +kernel
  have spilled : Spilled calledTwice 12 ⟨0x80001000, 0x80001004, -24, 20⟩ (frame 0) := by
    exact ⟨around_calledTwice (.inl rfl), by decide, by decide⟩
  obtain ⟨whole, -, -⟩ :=
    recovers_call_stack calledTwice ⟨12, 3⟩ (by decide) callers (.inl ⟨_, spilled⟩)
  obtain ⟨-, cut, -⟩ :=
    recovers_call_stack calledTwice ⟨12, 2⟩ (by decide) callers (.inl ⟨_, spilled⟩)
  exact ⟨(whole (by decide)).1, (whole (by decide)).2, (cut (by decide)).2⟩

end Unwind
