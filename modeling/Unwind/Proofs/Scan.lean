/-
Unwind.Proofs.Scan — what a prologue scan finds, reads and reports.

  §1 Words   — what one word adds to the findings.
  §2 Ends    — a scan has a whole frame exactly if it stopped for that
               (`isSome_frame?`), and it warns exactly if it gave up
               (`reports_run`).
  §3 Budgets — a budget only decides when to give up: a scan that ended for any
               other reason is the same scan under every larger budget
               (`run_of_le`).
  §4 Reads   — a scan depends on the words at the addresses it reads, and on
               nothing else of the memory (`run_of_agree`).
-/
import Unwind.Prologue

namespace Unwind

/-! ## §1 Words -/

namespace Findings

variable (f : Findings) (address : UInt32)

@[simp] theorem reads_note (marker? : Option Marker) :
    (f.note address marker?).reads = f.reads.push address := by
  cases marker? with
  | none => rfl
  | some marker =>
    cases marker with
    | saveRa offset => simp only [note, mark]; split <;> rfl
    | adjustSp amount => simp only [note, mark]; split <;> rfl
    | returnRa => rfl

theorem mem_reads_note (marker? : Option Marker) {a : UInt32} (h : a ∈ f.reads ∨ a = address) :
    a ∈ (f.note address marker?).reads := by
  rw [reads_note, Array.mem_push]
  exact h

/-- A return is neither half of a prologue. -/
theorem isComplete_note_returnRa :
    (f.note address (some .returnRa)).isComplete = f.isComplete := rfl

/-- A word is worth a report of the least severity, if any. -/
theorem reports_note (marker? : Option Marker) :
    ∃ traces, (f.note address marker?).reports.toList = f.reports.toList ++ traces
      ∧ ∀ r ∈ traces, r.severity = .trace := by
  have silent : ∃ traces, f.reports.toList = f.reports.toList ++ traces
      ∧ ∀ r ∈ traces, r.severity = .trace :=
    ⟨[], (List.append_nil _).symm, fun r hr => absurd hr List.not_mem_nil⟩
  have told (r : Report) (trace : r.severity = .trace) :
      ∃ traces, (f.reports.push r).toList = f.reports.toList ++ traces
        ∧ ∀ r ∈ traces, r.severity = .trace :=
    ⟨[r], Array.toList_push, by simpa using trace⟩
  cases marker? with
  | none => exact silent
  | some marker =>
    cases marker with
    | saveRa offset =>
      simp only [note, mark]
      split
      · exact told _ rfl
      · exact silent
    | adjustSp amount =>
      simp only [note, mark]
      split
      · exact told _ rfl
      · exact silent
    | returnRa => exact told _ rfl

end Findings

namespace Scan

variable (memory : Memory) (start : UInt32)

/-! ## §2 Ends -/

/-- The one warning of a scan that has given up. -/
def failure (start : UInt32) : Stop → List Report
  | .budgetExhausted => [.scanFailed start]
  | _ => []

/-- A search that begins with part of a prologue at most completes it exactly
if it stops for that. -/
theorem isComplete_search (budget : UInt32) (found : Findings) (pc : UInt32)
    (part : found.isComplete = false) :
    (search memory start budget found pc).isComplete
      = decide ((search memory start budget found pc).stop = .complete) := by
  fun_induction search memory start budget found pc with
  | case1 found pc marker? found' returned =>
    have same : found'.isComplete = found.isComplete := by
      simp only [found', returned, Findings.isComplete_note_returnRa]
    rw [same, part]
    rfl
  | case2 found pc marker? found' going complete => rw [complete]; rfl
  | case3 found pc marker? found' going incomplete low =>
    rw [Bool.not_eq_true] at incomplete
    rw [incomplete]
    rfl
  | case4 found pc marker? found' going incomplete high beyond =>
    rw [Bool.not_eq_true] at incomplete
    exact incomplete
  | case5 found pc marker? found' going incomplete high within ih =>
    rw [Bool.not_eq_true] at incomplete
    exact ih incomplete

theorem isSome_frame?_eq (s : Scan) : s.frame?.isSome = s.isComplete := by
  unfold frame? Findings.isComplete
  cases s.raOffset <;> cases s.frameSize <;> rfl

/-- A scan has a whole frame exactly if it stopped for that. -/
theorem isSome_frame? (budget : UInt32) :
    (run memory budget start).frame?.isSome = true
      ↔ (run memory budget start).stop = .complete := by
  rw [isSome_frame?_eq, run, isComplete_search memory start budget .empty start rfl,
    decide_eq_true_iff]

/-- A search reports nothing severe but that it has given up. -/
theorem reports_search (budget : UInt32) (found : Findings) (pc : UInt32) :
    ∃ traces, (search memory start budget found pc).reports.toList
        = found.reports.toList ++ traces
          ++ failure start (search memory start budget found pc).stop
      ∧ ∀ r ∈ traces, r.severity = .trace := by
  fun_induction search memory start budget found pc with
  | case1 found pc marker? found' returned =>
    obtain ⟨traces, told, quiet⟩ := found.reports_note pc marker?
    exact ⟨traces, told.trans (List.append_nil _).symm, quiet⟩
  | case2 found pc marker? found' going complete =>
    obtain ⟨traces, told, quiet⟩ := found.reports_note pc marker?
    exact ⟨traces, told.trans (List.append_nil _).symm, quiet⟩
  | case3 found pc marker? found' going incomplete low =>
    obtain ⟨traces, told, quiet⟩ := found.reports_note pc marker?
    exact ⟨traces, told.trans (List.append_nil _).symm, quiet⟩
  | case4 found pc marker? found' going incomplete high beyond =>
    obtain ⟨traces, told, quiet⟩ := found.reports_note pc marker?
    refine ⟨traces, ?_, quiet⟩
    rw [← told]
    exact Array.toList_push
  | case5 found pc marker? found' going incomplete high within ih =>
    obtain ⟨traces, told, quiet⟩ := found.reports_note pc marker?
    obtain ⟨later, rest, quiet'⟩ := ih
    refine ⟨traces ++ later, ?_, ?_⟩
    · rw [rest, told, List.append_assoc found.reports.toList]
    · intro r hr
      exact (List.mem_append.mp hr).elim (quiet r) (quiet' r)

/-- `reports_search` for a whole scan. -/
theorem reports_run (budget : UInt32) :
    ∃ traces, (run memory budget start).reports.toList
        = traces ++ failure start (run memory budget start).stop
      ∧ ∀ r ∈ traces, r.severity = .trace :=
  reports_search memory start budget .empty start

/-! ## §3 Budgets -/

/-- A scan that did not give up goes the same way under a larger budget. -/
theorem search_of_le {budget budget' : UInt32} (le : budget ≤ budget') (found : Findings)
    (pc : UInt32)
    (h : (search memory start budget found pc).stop ≠ .budgetExhausted) :
    search memory start budget' found pc = search memory start budget found pc := by
  fun_induction search memory start budget found pc with
  | case1 found pc marker? found' returned =>
    rw [search, if_pos returned]
  | case2 found pc marker? found' going complete =>
    rw [search, if_neg going, if_pos complete]
  | case3 found pc marker? found' going incomplete low =>
    rw [search, if_neg going, if_neg incomplete, dif_pos low]
  | case4 => exact absurd rfl h
  | case5 found pc marker? found' going incomplete high within ih =>
    have within' : ¬ start - pc + 4 ≥ budget' := fun beyond => within (UInt32.le_trans le beyond)
    rw [search, if_neg going, if_neg incomplete, dif_neg high, if_neg within']
    exact ih h

/-- `search_of_le` for a whole scan. -/
theorem run_of_le {budget budget' : UInt32} (le : budget ≤ budget')
    (h : (run memory budget start).stop ≠ .budgetExhausted) :
    run memory budget' start = run memory budget start :=
  search_of_le memory start le .empty start h

/-! ## §4 Reads -/

/-- What has been read stays read. -/
theorem mem_reads_search (budget : UInt32) (found : Findings) (pc : UInt32) {a : UInt32}
    (h : a ∈ found.reads ∨ a = pc) : a ∈ (search memory start budget found pc).reads := by
  fun_induction search memory start budget found pc with
  | case1 found pc marker? found' returned => exact found.mem_reads_note pc marker? h
  | case2 found pc marker? found' going complete => exact found.mem_reads_note pc marker? h
  | case3 found pc marker? found' going incomplete low =>
    exact found.mem_reads_note pc marker? h
  | case4 found pc marker? found' going incomplete high beyond =>
    exact found.mem_reads_note pc marker? h
  | case5 found pc marker? found' going incomplete high within ih =>
    exact ih (.inl (found.mem_reads_note pc marker? h))

/-- A search goes the same way in a memory that has the same words where it
reads. By induction on the search, each word it looks at being one of them. -/
theorem search_of_agree {memory' : Memory} (budget : UInt32) (found : Findings) (pc : UInt32)
    (agree : ∀ a ∈ (search memory start budget found pc).reads, memory'.word a = memory.word a) :
    search memory' start budget found pc = search memory start budget found pc := by
  have here : memory'.word pc = memory.word pc :=
    agree pc (mem_reads_search memory start budget found pc (.inr rfl))
  fun_induction search memory start budget found pc with
  | case1 found pc marker? found' returned =>
    rw [search, here, if_pos returned]
  | case2 found pc marker? found' going complete =>
    rw [search, here, if_neg going, if_pos complete]
  | case3 found pc marker? found' going incomplete low =>
    rw [search, here, if_neg going, if_neg incomplete, dif_pos low]
  | case4 found pc marker? found' going incomplete high beyond =>
    rw [search, here, if_neg going, if_neg incomplete, dif_neg high, if_pos beyond]
  | case5 found pc marker? found' going incomplete high within ih =>
    have next : memory'.word (pc - 4) = memory.word (pc - 4) :=
      agree _ (mem_reads_search memory start budget found' (pc - 4) (.inr rfl))
    rw [search, here, if_neg going, if_neg incomplete, dif_neg high, if_neg within]
    exact ih agree next

/-- `search_of_agree` for a whole scan. -/
theorem run_of_agree {memory' : Memory} (budget : UInt32)
    (agree : ∀ a ∈ (run memory budget start).reads, memory'.word a = memory.word a) :
    run memory' budget start = run memory budget start :=
  search_of_agree memory start budget .empty start agree

end Scan

end Unwind
