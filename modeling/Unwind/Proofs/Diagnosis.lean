/-
Unwind.Proofs.Diagnosis — the diagnostics of a walk are what its scans call for.

What a scan calls for is said here by itself, from the way it stopped and the
two halves of a prologue (`Scan.diagnosis`). A walk scans from each of its
entries once, so its diagnostics can be told from its pcs.

  §1 Visits  — every visit of a walk scans from the pc that it lists
               (`scan_of_mem_visits`).
  §2 Entries — an entry that is neither the first nor the last has a whole
               prologue (`isSome_frame?_of_between`).
  §3 Walks   — `diagnostics_are_findings`: entry by entry, and the cut at the
               end.
-/
import Unwind.Proofs.Cut

namespace Unwind

/-- What a scan from a pc calls for: that it gave up, and that it found one half
of a prologue without the other. -/
def Scan.diagnosis (budget pc : UInt32) (s : Scan) : List Diagnostic :=
  (match s.stop with
    | .budgetExhausted => [.scanLimitExceeded pc budget]
    | .complete | .returned | .bottom => [])
  ++ match s.raOffset, s.frameSize with
    | some offset, none => [.incompletePrologue pc (some offset) none]
    | none, some size => [.incompletePrologue pc none (some size)]
    | none, none | some _, some _ => []

/-! ## §1 Visits -/

theorem Visit.diagnostics_eq (budget : UInt32) (v : Visit) :
    v.diagnostics budget = v.scan.diagnosis budget v.pc := by
  unfold diagnostics incomplete Scan.diagnosis Scan.isIncomplete
  congr 1
  · cases v.scan.stop <;> rfl
  · cases v.scan.raOffset <;> cases v.scan.frameSize <;> rfl

theorem Scan.diagnosis_ne_cut {budget pc : UInt32} {s : Scan} {d : Diagnostic}
    (h : d ∈ s.diagnosis budget pc) : d.isCut = false := by
  unfold diagnosis at h
  rcases List.mem_append.mp h with h | h
  · split at h <;> simp_all [Diagnostic.isCut]
  · split at h <;> simp_all [Diagnostic.isCut]

namespace Walk

/-- The visits from a frame on are visits of frames of its chain. -/
theorem mem_visitsFrom {memory : Memory} {budget : UInt32} {room : Nat} {start : Frame}
    {v : Visit} (h : v ∈ visitsFrom memory budget room start) :
    ∃ i frame, Frame.chain memory budget start i = some frame
      ∧ v = Visit.ofFrame memory budget frame := by
  obtain ⟨i, listed⟩ := List.mem_iff_getElem?.mp h
  rw [getElem?_visitsFrom] at listed
  split at listed
  · obtain ⟨frame, there, rfl⟩ := Option.map_eq_some_iff.mp listed
    exact ⟨i, frame, there, rfl⟩
  · cases listed

/-- Every visit scans from the pc that it lists. -/
theorem scan_of_mem_visits {limits : Limits} {cpu : Cpu} {v : Visit}
    (h : v ∈ (run limits cpu).visits) :
    v.scan = Scan.run cpu.memory limits.scanBudget v.pc := by
  rw [visits, callers_run] at h
  rcases List.mem_cons.mp h with rfl | caller
  · rfl
  · obtain ⟨i, frame, -, rfl⟩ := mem_visitsFrom caller
    rw [Visit.scan_ofFrame, Visit.pc_ofFrame]

theorem pcs_backtrace (w : Walk) : w.backtrace.pcs = w.visits.map Visit.pc := rfl

/-! ## §2 Entries -/

variable (limits : Limits) (cpu : Cpu)

/-- An entry behind the first is the pc of a frame of the chain. -/
theorem frame_of_getElem?_pcs {i : Nat} {pc : UInt32}
    (h : (cpu.backtrace limits).pcs[i + 1]? = some pc) :
    ∃ frame, Frame.chain cpu.memory limits.scanBudget (Frame.first cpu limits.scanBudget) i
        = some frame ∧ frame.pc = pc := by
  rw [Backtrace.pcs, List.getElem?_cons_succ, getElem?_callers] at h
  split at h
  · exact Option.map_eq_some_iff.mp h
  · cases h

/-- An entry that is neither the first nor the last has a whole prologue, since
the chain goes on from it. -/
theorem isSome_frame?_of_between {i : Nat} {pc : UInt32}
    (h : (cpu.backtrace limits).pcs[i]? = some pc) (first : 0 < i)
    (last : i + 1 < (cpu.backtrace limits).pcs.length) :
    (Scan.run cpu.memory limits.scanBudget pc).frame?.isSome = true := by
  obtain ⟨i, rfl⟩ : ∃ n, i = n + 1 := ⟨i - 1, by omega⟩
  obtain ⟨frame, there, rfl⟩ := frame_of_getElem?_pcs limits cpu h
  obtain ⟨caller, next, -⟩ := frame_of_getElem?_pcs limits cpu (List.getElem?_eq_getElem last)
  rw [Frame.chain, there, Option.bind_some, Frame.caller?] at next
  cases whole : (Scan.run cpu.memory limits.scanBudget frame.pc).frame? with
  | none => simp only [whole] at next; cases next
  | some prologue => rfl

/-- Both halves of a prologue are not one of them. -/
theorem not_isIncomplete_of_frame? {s : Scan} (whole : s.frame?.isSome = true) :
    s.isIncomplete = false := by
  rw [Scan.isSome_frame?_eq, Findings.isComplete, Bool.and_eq_true] at whole
  rw [Scan.isIncomplete, whole.1, whole.2]
  rfl

/-! ## §3 Walks -/

/-- A walk scans from each of its entries, once and in order. -/
theorem map_visits_run :
    (run limits cpu).visits.map (fun v => (v.pc, v.scan))
      = (cpu.backtrace limits).pcs.map fun pc =>
          (pc, Scan.run cpu.memory limits.scanBudget pc) := by
  rw [Cpu.backtrace, pcs_backtrace, List.map_map]
  refine List.map_congr_left fun v hv => ?_
  rw [scan_of_mem_visits hv]
  rfl

/-- What a walk notes is what these scans call for, and that it was cut. -/
theorem diagnostics_run :
    (cpu.backtrace limits).diagnostics
      = (cpu.backtrace limits).pcs.flatMap (fun pc =>
          (Scan.run cpu.memory limits.scanBudget pc).diagnosis limits.scanBudget pc)
        ++ (run limits cpu).cut := by
  rw [Cpu.backtrace, pcs_backtrace, List.flatMap_map]
  show (run limits cpu).visits.flatMap (Visit.diagnostics limits.scanBudget) ++ _ = _
  congr 1
  refine List.flatMap_congr fun v hv => ?_
  rw [Visit.diagnostics_eq, scan_of_mem_visits hv]

/-- A cut is told of behind all that the scans call for. -/
theorem last_of_frameCapExceeded {i cap : Nat}
    (h : (cpu.backtrace limits).diagnostics[i]? = some (.frameCapExceeded cap)) :
    i + 1 = (cpu.backtrace limits).diagnostics.length := by
  have bound := (List.getElem?_eq_some_iff.mp h).1
  have one : (run limits cpu).cut.length ≤ 1 := by unfold cut; split <;> simp
  rw [diagnostics_run] at h bound ⊢
  rw [List.length_append] at bound ⊢
  by_contra early
  rw [List.getElem?_append_left (by omega)] at h
  obtain ⟨pc, -, called⟩ := List.mem_flatMap.mp (List.mem_of_getElem? h)
  cases Scan.diagnosis_ne_cut called

/-- **The diagnostics are the findings of the scans**, one scan for each entry
and in order: that a scan gave up, that it found half a prologue, and at the end
that the walk was cut at the frame cap. So a cut is told of at most once and last,
and only the first entry and the last one can lack one half of their prologue. -/
theorem diagnostics_are_findings :
    let walk := run limits cpu
    let b := cpu.backtrace limits
    let scan := Scan.run cpu.memory limits.scanBudget
    let chain := Frame.chain cpu.memory limits.scanBudget (Frame.first cpu limits.scanBudget)
    walk.visits.map (fun v => (v.pc, v.scan)) = b.pcs.map (fun pc => (pc, scan pc))
    ∧ b.diagnostics = b.pcs.flatMap (fun pc => (scan pc).diagnosis limits.scanBudget pc)
        ++ (if walk.ending = .capReached then [.frameCapExceeded limits.frameCap] else [])
    ∧ (walk.ending = .capReached ↔ (chain (max limits.frameCap 1 - 1)).isSome)
    ∧ (∀ i cap, b.diagnostics[i]? = some (.frameCapExceeded cap) →
        i + 1 = b.diagnostics.length)
    ∧ (∀ i pc, b.pcs[i]? = some pc → (scan pc).isIncomplete = true →
        i = 0 ∨ i + 1 = b.pcs.length)
    ∧ (∀ i pc, b.pcs[i]? = some pc → 0 < i → i + 1 < b.pcs.length →
        (scan pc).stop = .complete) := by
  intro walk b scan chain
  refine ⟨map_visits_run limits cpu, diagnostics_run limits cpu, ?_,
    fun i cap => last_of_frameCapExceeded limits cpu, ?_, ?_⟩
  · have room : max limits.frameCap 1 - 1 = limits.frameCap - 1 := by omega
    rw [room, ← isTruncated_backtrace]
    exact isTruncated_iff_chain limits cpu
  · intro i pc listed half
    by_contra between
    rw [not_or] at between
    have bound : i < b.pcs.length := (List.getElem?_eq_some_iff.mp listed).1
    have last : i + 1 < b.pcs.length := Nat.lt_of_le_of_ne bound between.2
    have whole := isSome_frame?_of_between limits cpu listed (Nat.pos_of_ne_zero between.1) last
    rw [not_isIncomplete_of_frame? whole] at half
    cases half
  · intro i pc listed first last
    exact (Scan.isSome_frame? _ _ _).mp (isSome_frame?_of_between limits cpu listed first last)

end Walk

end Unwind
