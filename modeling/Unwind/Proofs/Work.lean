/-
Unwind.Proofs.Work — how much of the memory a walk reads.

Nearly all of a walk's reads are those of its scans; besides, a visit reads at most
one spill slot. What a walk reads is counted here entry by entry, and bounded by the
limits. The innermost visit stands outside the loop and may read a slot of its own
for half a prologue, and still there is one scan and one slot at most for each entry.

  §1 Visits — which visits read a spill slot (`isSome_slot_ofFrame`).
  §2 Walks  — `reads_accounted`: the sum over the entries, and the two bounds.
-/
import Unwind.Proofs.Diagnosis
import Unwind.Proofs.Reads
import Unwind.Proofs.Search
import Mathlib.Algebra.Group.Action.Defs
import Mathlib.Algebra.Order.BigOperators.Group.List

namespace Unwind

/-! ## §1 Visits -/

namespace Visit

/-- The innermost visit reads a slot if the return address was spilled at all. -/
theorem isSome_slot_innermost (cpu : Cpu) (budget : UInt32) :
    (innermost cpu budget).slot.isSome
      = (Scan.run cpu.memory budget cpu.pc).raOffset.isSome := by
  simp only [innermost, Option.isSome_map]

/-- The visit of a frame reads a slot if the prologue is whole. -/
theorem isSome_slot_ofFrame (memory : Memory) (budget : UInt32) (frame : Frame) :
    (ofFrame memory budget frame).slot.isSome
      = (Scan.run memory budget frame.pc).isComplete := by
  rw [← Scan.isSome_frame?_eq]
  cases prologue : (Scan.run memory budget frame.pc).frame? with
  | none => simp only [ofFrame, prologue, Option.isSome_none]
  | some found =>
    obtain ⟨offset, size⟩ := found
    rw [slot_ofFrame prologue]
    rfl

/-- A visit reads what its scan reads, and its slot. -/
theorem length_flatMap_reads (visits : List Visit) :
    (visits.flatMap reads).length
      = (visits.map fun v => v.scan.reads.size).sum + visits.countP fun v => v.slot.isSome := by
  induction visits with
  | nil => rfl
  | cons v visits ih =>
    have own : v.reads.length = v.scan.reads.size + if v.slot.isSome then 1 else 0 := by
      rw [reads, List.length_append, Array.length_toList]
      cases v.slot <;> rfl
    rw [List.flatMap_cons, List.length_append, own, ih, List.map_cons, List.sum_cons,
      List.countP_cons]
    omega

end Visit

/-! ## §2 Walks -/

namespace Walk

variable (limits : Limits) (cpu : Cpu)

/-- The sizes of the scans, entry by entry. -/
theorem map_size_reads_visits :
    (run limits cpu).visits.map (fun v => v.scan.reads.size)
      = (cpu.backtrace limits).pcs.map fun pc =>
          (Scan.run cpu.memory limits.scanBudget pc).reads.size := by
  have scans := congrArg (List.map fun entry => entry.2.reads.size) (map_visits_run limits cpu)
  rwa [List.map_map, List.map_map] at scans

/-- The callers whose slots are read are those with a whole prologue. -/
theorem countP_slot_callers :
    (run limits cpu).callers.countP (fun v => v.slot.isSome)
      = (cpu.backtrace limits).callers.countP fun pc =>
          (Scan.run cpu.memory limits.scanBudget pc).isComplete := by
  rw [Cpu.backtrace, backtrace, List.countP_map]
  refine List.countP_congr fun v hv => ?_
  rw [callers_run] at hv
  obtain ⟨i, frame, -, rfl⟩ := mem_visitsFrom hv
  rw [Visit.isSome_slot_ofFrame, Function.comp_apply, Visit.pc_ofFrame]

/-- What a walk reads, entry by entry. -/
theorem length_reads_run :
    (run limits cpu).reads.length
      = ((cpu.backtrace limits).pcs.map fun pc =>
          (Scan.run cpu.memory limits.scanBudget pc).reads.size).sum
        + (if (Scan.run cpu.memory limits.scanBudget cpu.pc).raOffset.isSome then 1 else 0)
        + (cpu.backtrace limits).callers.countP fun pc =>
            (Scan.run cpu.memory limits.scanBudget pc).isComplete := by
  rw [reads, Visit.length_flatMap_reads, map_size_reads_visits, visits, List.countP_cons,
    countP_slot_callers, innermost_run, Visit.isSome_slot_innermost]
  omega

/-- With `n` words for a scan at most, each entry costs `n` words and a slot. -/
theorem length_reads_run_le {n : Nat}
    (most : ∀ pc, (Scan.run cpu.memory limits.scanBudget pc).reads.size ≤ n) :
    (run limits cpu).reads.length ≤ max limits.frameCap 1 * (n + 1) := by
  have scans := List.sum_le_card_nsmul ((cpu.backtrace limits).pcs.map fun pc =>
    (Scan.run cpu.memory limits.scanBudget pc).reads.size) n (by simpa using fun pc _ => most pc)
  have slots := List.countP_le_length
    (p := fun pc => (Scan.run cpu.memory limits.scanBudget pc).isComplete)
    (l := (cpu.backtrace limits).callers)
  have entries : (cpu.backtrace limits).pcs.length = (cpu.backtrace limits).callers.length + 1 :=
    rfl
  have room := length_callers_le limits cpu
  rw [List.length_map, smul_eq_mul] at scans
  calc (run limits cpu).reads.length
      ≤ (cpu.backtrace limits).pcs.length * n + (cpu.backtrace limits).pcs.length := by
        rw [length_reads_run]
        split <;> omega
    _ = (cpu.backtrace limits).pcs.length * (n + 1) := (Nat.mul_succ _ _).symm
    _ ≤ max limits.frameCap 1 * (n + 1) := Nat.mul_le_mul_right _ (by omega)

/-- **The work of a walk is accounted for** entry by entry: the words that the scan
from it reads, the innermost entry's slot if its scan met a spill, and the slot of
every other entry with a whole prologue. So it is bounded by the limits, whether they
were checked or not. -/
theorem reads_accounted (limits : Limits) (cpu : Cpu) :
    let scan := Scan.run cpu.memory limits.scanBudget
    let b := cpu.backtrace limits
    let reads := (run limits cpu).reads.length
    reads = (b.pcs.map fun pc => (scan pc).reads.size).sum
        + (if (scan cpu.pc).raOffset.isSome then 1 else 0)
        + b.callers.countP (fun pc => (scan pc).isComplete)
      ∧ (∀ budget cap, Limits.checked budget cap = .ok limits →
          reads ≤ limits.frameCap * (limits.scanBudget.toNat / 4 + 1))
      ∧ reads ≤ max limits.frameCap 1 * (max 1 ((limits.scanBudget.toNat + 3) / 4) + 1) := by
  have bound := length_reads_run_le limits cpu (Scan.size_reads_run_le cpu.memory limits.scanBudget)
  refine ⟨length_reads_run limits cpu, fun budget cap accepted => ?_, bound⟩
  have words := Limits.words_of_checked accepted
  obtain ⟨-, -, room, rfl⟩ := Limits.checked_eq_ok_iff.mp accepted
  have entries : max cap 1 = cap := by omega
  rw [words, entries] at bound
  exact bound

end Walk

end Unwind
