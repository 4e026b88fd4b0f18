/-
Unwind.Proofs.Reads — a backtrace depends on what it reads, and on nothing else.

Which addresses a walk reads is decided by the words it has read before. So two
machines are compared on the addresses that the walk reads on one of them: if
they have the same words there, and the same pc, stack pointer and return address,
the walk goes the same way on the other.

  §1 Visits — what a visit reads, and that nothing else of the memory decides it
              (`innermost_of_agree`, `ofFrame_of_agree`).
  §2 Walks  — the same of a whole walk (`run_of_agree`), and of snapshots
              (`backtrace_depends_on_reads`).
-/
import Unwind.Machine.Snapshot
import Unwind.Proofs.Cut

namespace Unwind

/-- A memory has the same words as another at some addresses. -/
def Memory.Agrees (memory' memory : Memory) (addresses : List UInt32) : Prop :=
  ∀ a ∈ addresses, memory'.word a = memory.word a

/-! ## §1 Visits -/

namespace Visit

variable {memory memory' : Memory} {budget : UInt32}

theorem scan_of_agree {v : Visit} (scan : v.scan = Scan.run memory budget v.pc)
    (agree : memory'.Agrees memory v.reads) : Scan.run memory' budget v.pc = v.scan := by
  rw [scan]
  refine Scan.run_of_agree memory v.pc budget fun a ha => agree a ?_
  rw [reads, scan]
  exact List.mem_append_left _ (Array.mem_toList_iff.mpr ha)

theorem word_slot_of_agree {v : Visit} (agree : memory'.Agrees memory v.reads) {slot : UInt32}
    (read : v.slot = some slot) : memory'.word slot = memory.word slot := by
  refine agree slot (List.mem_append_right _ ?_)
  rw [read]
  exact List.mem_singleton_self slot

/-- A visit reads the spill slot of a whole prologue. -/
theorem slot_ofFrame {frame : Frame} {offset : UInt16} {size : Int16}
    (prologue : (Scan.run memory budget frame.pc).frame? = some (offset, size)) :
    (ofFrame memory budget frame).slot = some (spillSlot frame.sp offset) := by
  simp only [ofFrame, prologue]
  split <;> rfl

/-- The visit of a frame depends on its scan and on the spill slot it reads. -/
theorem ofFrame_of_agree {frame : Frame}
    (agree : memory'.Agrees memory (ofFrame memory budget frame).reads) :
    ofFrame memory' budget frame = ofFrame memory budget frame := by
  have scan := scan_of_agree (by rw [scan_ofFrame, pc_ofFrame]) agree
  rw [pc_ofFrame, scan_ofFrame] at scan
  cases prologue : (Scan.run memory budget frame.pc).frame? with
  | none => simp only [ofFrame, scan, prologue]
  | some found =>
    obtain ⟨offset, size⟩ := found
    have spilled := word_slot_of_agree agree (slot_ofFrame prologue)
    simp only [ofFrame, scan, prologue, spilled]

/-- So does the innermost visit, and on the three registers it looks at. -/
theorem innermost_of_agree {cpu cpu' : Cpu} (pc : cpu'.pc = cpu.pc)
    (ra : cpu'.register .ra = cpu.register .ra) (sp : cpu'.register .sp = cpu.register .sp)
    (agree : cpu'.memory.Agrees cpu.memory (innermost cpu budget).reads) :
    innermost cpu' budget = innermost cpu budget := by
  have scan : Scan.run cpu'.memory budget cpu.pc = Scan.run cpu.memory budget cpu.pc :=
    scan_of_agree (v := innermost cpu budget) rfl agree
  simp only [innermost, pc, ra, sp, scan]
  cases spilled : (Scan.run cpu.memory budget cpu.pc).raOffset with
  | none => rfl
  | some offset =>
    have slot : (innermost cpu budget).slot = some (spillSlot (cpu.register .sp) offset) := by
      simp only [innermost, spilled, Option.map_some]
    simp only [Option.map_some, word_slot_of_agree agree slot]

end Visit

/-! ## §2 Walks -/

namespace Walk

/-- By induction on the room: a visit goes the same way, and so leads to the same
caller. -/
theorem visitsFrom_of_agree {memory memory' : Memory} {budget : UInt32} {room : Nat}
    {start : Frame}
    (agree : memory'.Agrees memory ((visitsFrom memory budget room start).flatMap Visit.reads)) :
    visitsFrom memory' budget room start = visitsFrom memory budget room start := by
  induction room generalizing start with
  | zero => rfl
  | succ room ih =>
    have same : Visit.ofFrame memory' budget start = Visit.ofFrame memory budget start := by
      apply Visit.ofFrame_of_agree
      intro a ha
      apply agree
      rw [visitsFrom, List.flatMap_cons]
      exact List.mem_append_left _ ha
    simp only [visitsFrom, same]
    congr 1
    cases next : (Visit.ofFrame memory budget start).next? with
    | none => rfl
    | some caller =>
      apply ih
      intro a ha
      apply agree
      rw [visitsFrom, List.flatMap_cons]
      simp only [next]
      exact List.mem_append_right _ ha

/-- The walk goes the same way on a machine that looks the same where it looks. -/
theorem run_of_agree {limits : Limits} {cpu cpu' : Cpu} (pc : cpu'.pc = cpu.pc)
    (ra : cpu'.register .ra = cpu.register .ra) (sp : cpu'.register .sp = cpu.register .sp)
    (agree : cpu'.memory.Agrees cpu.memory (run limits cpu).reads) :
    run limits cpu' = run limits cpu := by
  have innermost : Visit.innermost cpu' limits.scanBudget
      = Visit.innermost cpu limits.scanBudget :=
    Visit.innermost_of_agree pc ra sp fun a ha => agree a (List.mem_append_left _ ha)
  simp only [run, innermost, Visit.next?_innermost]
  congr 1
  apply visitsFrom_of_agree
  intro a ha
  apply agree
  rw [reads, visits, List.flatMap_cons, callers_run]
  exact List.mem_append_right _ ha

/-- The walk of one machine is that of another: its reads in order, its backtrace
with the diagnostics, and its log. -/
structure Repeats (limits : Limits) (cpu' cpu : Cpu) : Prop where
  reads : (run limits cpu').reads = (run limits cpu).reads
  backtrace : cpu'.backtrace limits = cpu.backtrace limits
  reports : (run limits cpu').reports = (run limits cpu).reports

/-- **A backtrace depends only on what it reads**: on the pc, the return address and
the stack pointer, and on the words at the addresses read on the way. Of a snapshot
it depends neither on the other registers nor on how large the image is. -/
theorem backtrace_depends_on_reads (limits : Limits) :
    (∀ {cpu cpu' : Cpu}, cpu'.pc = cpu.pc → cpu'.register .ra = cpu.register .ra →
      cpu'.register .sp = cpu.register .sp →
      cpu'.memory.Agrees cpu.memory (run limits cpu).reads → Repeats limits cpu' cpu)
    ∧ ∀ {s s' : Snapshot}, s'.pc = s.pc → s'.register .ra = s.register .ra →
      s'.register .sp = s.register .sp →
      (∀ a ∈ (run limits s.cpu).reads, s'.rdram.word a = s.rdram.word a) →
      Repeats limits s'.cpu s.cpu := by
  have repeats {cpu cpu' : Cpu} (pc : cpu'.pc = cpu.pc)
      (ra : cpu'.register .ra = cpu.register .ra) (sp : cpu'.register .sp = cpu.register .sp)
      (agree : cpu'.memory.Agrees cpu.memory (run limits cpu).reads) :
      Repeats limits cpu' cpu := by
    have same := run_of_agree pc ra sp agree
    exact ⟨by rw [same], by rw [Cpu.backtrace, same, Cpu.backtrace], by rw [same]⟩
  exact ⟨repeats, fun {s s'} => @repeats s.cpu s'.cpu⟩

/-- A machine stopped behind the prologue of a function that called itself. The
image ends below the second spill slot. -/
def stoppedInLoop : Snapshot :=
  .ofRegisters 0x80000008 ((Vector.replicate 32 0).set 29 0x80000010) ⟨#[
    Marker.word (.adjustSp (-24)), Marker.word (.saveRa 20), 0, 0, 0, 0, 0, 0, 0, 0x80000008]⟩

/-- The same machine, with other registers and a larger image, of which the word in
that slot is zero. -/
def stoppedInLarger : Snapshot where
  pc := 0x80000008
  registers := ((Vector.replicate 32 7).set 29 0x80000010).set 31 0
  hi := 3
  lo := 4
  rdram := ⟨#[
    Marker.word (.adjustSp (-24)), Marker.word (.saveRa 20), 0, 8, 8, 8, 8, 8, 8, 0x80000008,
    8, 8, 8, 8, 8, 0, 8]⟩

theorem backtrace_depends_on_reads_stoppedInLarger :
    stoppedInLarger.rdram.len ≠ stoppedInLoop.rdram.len
      ∧ 0x8000003c ∈ (run ⟨16, 4⟩ stoppedInLarger.cpu).reads
      ∧ stoppedInLarger.cpu.backtrace ⟨16, 4⟩ = stoppedInLoop.cpu.backtrace ⟨16, 4⟩
      ∧ (stoppedInLarger.cpu.backtrace ⟨16, 4⟩).pcs = [0x80000008, 0x80000008] := by
  have listed : (stoppedInLoop.cpu.backtrace ⟨16, 4⟩).pcs = [0x80000008, 0x80000008] := by
    decide +kernel
  have alike : (run ⟨16, 4⟩ stoppedInLoop.cpu).reads.all (fun a =>
      stoppedInLarger.rdram.word a == stoppedInLoop.rdram.word a) = true := by
    decide +kernel
  have agree : ∀ a ∈ (run ⟨16, 4⟩ stoppedInLoop.cpu).reads,
      stoppedInLarger.rdram.word a = stoppedInLoop.rdram.word a :=
    fun a ha => eq_of_beq (List.all_eq_true.mp alike a ha)
  have slot : 0x8000003c ∈ (run ⟨16, 4⟩ stoppedInLoop.cpu).reads := by decide +kernel
  have same : Repeats ⟨16, 4⟩ stoppedInLarger.cpu stoppedInLoop.cpu :=
    (backtrace_depends_on_reads ⟨16, 4⟩).2 rfl (by decide) (by decide) agree
  exact ⟨by decide, same.reads ▸ slot, same.backtrace, same.backtrace ▸ listed⟩

end Walk

end Unwind
