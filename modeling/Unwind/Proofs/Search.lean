/-
Unwind.Proofs.Search — a scan is a bounded search downwards.

What a scan has to come to is said here by itself, from the words at and below its
start: `Scan.Over` names the four things that end it, `Scan.IsExtent` is the least
number of words after which one of them holds, and `IsFirst` is what the first
marker of a kind among so many words says. None of them knows of a loop.

  §1 Markers — what is read off a marker, and off the first word that is one.
  §2 Extents — how far a scan has to go, which is never below the address zero
               (`IsExtent.four_mul_le`) and never beyond the budget.
  §3 Words   — what so many words add up to, one after the other.
  §4 Scans   — a scan ends with the words of its extent (`run_eq_endedAt`), and
               `run_is_bounded_search`.
  §5 Budgets — a larger budget only makes the extent larger, and
               `budget_extends_scan`.
-/
import Unwind.Limits
import Unwind.Proofs.Function
import Unwind.Proofs.Scan
import Mathlib.Data.List.Nodup
import Mathlib.Order.Bounds.Defs

namespace Unwind

/-! ## §1 Markers -/

namespace Marker

/-- The offset at which a marker spills the return address. -/
def offset? : Marker → Option UInt16
  | saveRa offset => some offset
  | adjustSp _ | returnRa => none

/-- The amount by which a marker adjusts the stack pointer. -/
def amount? : Marker → Option Int16
  | adjustSp amount => some amount
  | saveRa _ | returnRa => none

theorem offset?_eq_some_iff {marker : Marker} {offset : UInt16} :
    marker.offset? = some offset ↔ marker = saveRa offset := by
  cases marker <;> simp [offset?]

theorem amount?_eq_some_iff {marker : Marker} {amount : Int16} :
    marker.amount? = some amount ↔ marker = adjustSp amount := by
  cases marker <;> simp [amount?]

/-- What is read off the marker in a word is read off the word. -/
theorem bind_ofWord?_eq_some_iff {α : Type} {marker : α → Marker} {read : Marker → Option α}
    (read_eq : ∀ {m a}, read m = some a ↔ m = marker a) {w : UInt32} {a : α} :
    (ofWord? w).bind read = some a ↔ w = (marker a).word := by
  rw [Option.bind_eq_some_iff, ← ofWord?_eq_some_iff]
  constructor
  · rintro ⟨m, recognised, found⟩
    rw [recognised, read_eq.mp found]
  · exact fun recognised => ⟨_, recognised, read_eq.mpr rfl⟩

end Marker

section First

variable {α : Type} (marker : α → Marker) (word : Nat → UInt32)

/-- What the first one among `n` words says that is a marker of one kind. -/
def IsFirst (n : Nat) : Option α → Prop
  | some a => ∃ i < n, word i = (marker a).word ∧ ∀ j < i, ∀ b, word j ≠ (marker b).word
  | none => ∀ i < n, ∀ b, word i ≠ (marker b).word

variable {marker word} {n : Nat} {first? : Option α}

/-- One more word says something only if none before it did. -/
theorem IsFirst.succ (h : IsFirst marker word n first?) (read : Marker → Option α)
    (read_eq : ∀ {m a}, read m = some a ↔ m = marker a) :
    IsFirst marker word (n + 1) (first?.or ((Marker.ofWord? (word n)).bind read)) := by
  have read_word {w a} : (Marker.ofWord? w).bind read = some a ↔ w = (marker a).word :=
    Marker.bind_ofWord?_eq_some_iff read_eq
  cases first? with
  | some a =>
    obtain ⟨i, lt, spells, before⟩ := h
    exact ⟨i, Nat.lt_succ_of_lt lt, spells, before⟩
  | none =>
    rw [Option.none_or]
    cases found : (Marker.ofWord? (word n)).bind read with
    | some a => exact ⟨n, Nat.lt_succ_self n, read_word.mp found, h⟩
    | none =>
      intro i lt b spells
      rcases Nat.lt_succ_iff_lt_or_eq.mp lt with lt | rfl
      · exact h i lt b spells
      · rw [read_word.mpr spells] at found
        cases found

theorem IsFirst.isSome_iff (h : IsFirst marker word n first?) :
    first?.isSome = true ↔ ∃ i < n, ∃ a, word i = (marker a).word := by
  cases first? with
  | some a =>
    obtain ⟨i, lt, spells, -⟩ := h
    exact iff_of_true rfl ⟨i, lt, a, spells⟩
  | none =>
    refine iff_of_false (by simp) ?_
    rintro ⟨i, lt, a, spells⟩
    exact h i lt a spells

end First

namespace Findings

variable (f : Findings) (address : UInt32)

/-- The first spill that is met counts. -/
theorem raOffset_note (marker? : Option Marker) :
    (f.note address marker?).raOffset = f.raOffset.or (marker?.bind Marker.offset?) := by
  cases marker? with
  | none => exact Option.or_none.symm
  | some marker =>
    cases marker with
    | saveRa offset => cases h : f.raOffset <;> simp [note, mark, report, h, Marker.offset?]
    | adjustSp amount =>
      simp only [note, mark, Option.bind_some, Marker.offset?, Option.or_none]
      split <;> rfl
    | returnRa => exact Option.or_none.symm

/-- The first adjustment that is met counts. -/
theorem frameSize_note (marker? : Option Marker) :
    (f.note address marker?).frameSize = f.frameSize.or (marker?.bind Marker.amount?) := by
  cases marker? with
  | none => exact Option.or_none.symm
  | some marker =>
    cases marker with
    | saveRa offset =>
      simp only [note, mark, Option.bind_some, Marker.amount?, Option.or_none]
      split <;> rfl
    | adjustSp amount => cases h : f.frameSize <;> simp [note, mark, report, h, Marker.amount?]
    | returnRa => exact Option.or_none.symm

end Findings

/-! ## §2 Extents -/

/-- A budget that was accepted covers whole words, and one at least. -/
theorem Limits.words_of_checked {budget : UInt32} {cap : Nat} {limits : Limits}
    (accepted : checked budget cap = .ok limits) :
    max 1 ((budget.toNat + 3) / 4) = budget.toNat / 4 := by
  obtain ⟨full, aligned, -, -⟩ := checked_eq_ok_iff.mp accepted
  have pos : budget.toNat ≠ 0 := fun empty => full (UInt32.toNat_inj.mp empty)
  have whole : budget.toNat % 4 = 0 := congrArg UInt32.toNat aligned
  omega

namespace Scan

/-- The address of the word that a scan reads as its `i`-th, the word at the start
being the zeroth. -/
def address (start : UInt32) (i : Nat) : UInt32 := .ofNat (start.toNat - 4 * i)

@[simp] theorem toNat_address (start : UInt32) (i : Nat) :
    (address start i).toNat = start.toNat - 4 * i :=
  UInt32.toNat_ofNat_of_lt' (Nat.lt_of_le_of_lt (Nat.sub_le _ _) start.toNat_lt)

theorem address_lt_four_iff (start : UInt32) (i : Nat) :
    address start i < 4 ↔ start.toNat - 4 * i < 4 := by
  rw [UInt32.lt_iff_toNat_lt, toNat_address]
  rfl

theorem address_zero (start : UInt32) : address start 0 = start := by
  apply UInt32.toNat_inj.mp
  rw [toNat_address, Nat.mul_zero, Nat.sub_zero]

variable (memory : Memory) (budget start : UInt32)

/-- The word that a scan reads as its `i`-th. -/
def word (i : Nat) : UInt32 := memory.word (address start i)

/-- Why a scan reads no further than its first `k` words. -/
inductive Over (k : Nat) : Prop
  /-- The last of them is a return. -/
  | returned (last : word memory start (k - 1) = Marker.word .returnRa)
  /-- Among them are both halves of a prologue. -/
  | complete
      (saves : ∃ i < k, ∃ offset, word memory start i = Marker.word (.saveRa offset))
      (adjusts : ∃ i < k, ∃ amount, word memory start i = Marker.word (.adjustSp amount))
  /-- There is no word below the last of them. -/
  | bottom (low : address start (k - 1) < 4)
  /-- The budget covers no more. -/
  | budgetExhausted (covered : budget.toNat ≤ 4 * k)

/-- How many words a scan reads: at least one, and no more than it has to. -/
def IsExtent (n : Nat) : Prop := IsLeast {k | 1 ≤ k ∧ Over memory budget start k} n

variable {memory budget start} {n : Nat}

/-- A budget of `b` bytes covers no more than `⌈b / 4⌉` words. -/
theorem IsExtent.le_budget (extent : IsExtent memory budget start n) :
    n ≤ max 1 ((budget.toNat + 3) / 4) :=
  extent.2 ⟨Nat.le_max_left _ _, .budgetExhausted (by omega)⟩

/-- Under limits that were accepted it is no more than the instructions they cover. -/
theorem IsExtent.le_scanInstructions (extent : IsExtent memory budget start n) {cap : Nat}
    {limits : Limits} (accepted : Limits.checked budget cap = .ok limits) :
    n ≤ limits.scanInstructions.toNat := by
  have most := extent.le_budget
  rw [Limits.words_of_checked accepted] at most
  obtain ⟨-, -, -, rfl⟩ := Limits.checked_eq_ok_iff.mp accepted
  have words : (Limits.scanInstructions ⟨budget, cap⟩).toNat = budget.toNat / 4 := by
    rw [Limits.scanInstructions, UInt32.toNat_div]
    rfl
  rw [words]
  exact most

/-- A scan does not get below the address zero. -/
theorem IsExtent.four_mul_le (extent : IsExtent memory budget start n) {i : Nat} (lt : i < n) :
    4 * i ≤ start.toNat := by
  by_contra below
  have pos : 1 ≤ i := by omega
  have low : address start (i - 1) < 4 := (address_lt_four_iff start _).mpr (by omega)
  exact absurd (extent.2 ⟨pos, .bottom low⟩) (Nat.not_le.mpr lt)

theorem IsExtent.not_over (extent : IsExtent memory budget start n) {k : Nat} (pos : 1 ≤ k)
    (lt : k < n) : ¬ Over memory budget start k :=
  fun ended => absurd (extent.2 ⟨pos, ended⟩) (Nat.not_le.mpr lt)

variable (memory budget start)

/-- A scan gets to the bottom at the latest. -/
theorem exists_isExtent : ∃ n, IsExtent memory budget start n := by
  have bottom : address start (start.toNat / 4 + 1 - 1) < 4 :=
    (address_lt_four_iff start _).mpr (by omega)
  have ends : ∃ k, 1 ≤ k ∧ Over memory budget start k :=
    ⟨start.toNat / 4 + 1, Nat.le_add_left _ _, .bottom bottom⟩
  classical
  exact ⟨Nat.find ends, Nat.find_spec ends, fun k hk => Nat.find_min' ends hk⟩

/-! ## §3 Words -/

/-- What the first `k` words add up to. -/
def after : Nat → Findings
  | 0 => .empty
  | k + 1 => (after k).note (address start k) (Marker.ofWord? (word memory start k))

theorem reads_after (k : Nat) :
    (after memory start k).reads.toList = (List.range k).map (address start) := by
  induction k with
  | zero => rfl
  | succ k ih =>
    rw [after, Findings.reads_note, Array.toList_push, ih, List.range_succ, List.map_append]
    rfl

theorem raOffset_after (k : Nat) :
    IsFirst .saveRa (word memory start) k (after memory start k).raOffset := by
  induction k with
  | zero => exact fun i lt => absurd lt (Nat.not_lt_zero i)
  | succ k ih =>
    rw [after, Findings.raOffset_note]
    exact ih.succ Marker.offset? Marker.offset?_eq_some_iff

theorem frameSize_after (k : Nat) :
    IsFirst .adjustSp (word memory start) k (after memory start k).frameSize := by
  induction k with
  | zero => exact fun i lt => absurd lt (Nat.not_lt_zero i)
  | succ k ih =>
    rw [after, Findings.frameSize_note]
    exact ih.succ Marker.amount? Marker.amount?_eq_some_iff

/-- Both halves of a prologue are found exactly if both are among the words. -/
theorem isComplete_after (k : Nat) :
    (after memory start k).isComplete = true
      ↔ (∃ i < k, ∃ offset, word memory start i = Marker.word (.saveRa offset))
        ∧ ∃ i < k, ∃ amount, word memory start i = Marker.word (.adjustSp amount) := by
  rw [Findings.isComplete, Bool.and_eq_true, (raOffset_after memory start k).isSome_iff,
    (frameSize_after memory start k).isSome_iff]

/-- The scan that ends with its first `n` words. If several things end it at once,
a return goes first and the budget last. -/
def endedAt (n : Nat) : Scan :=
  let found := after memory start n
  if word memory start (n - 1) = Marker.word .returnRa then ⟨found, .returned⟩
  else if found.isComplete then ⟨found, .complete⟩
  else if address start (n - 1) < 4 then ⟨found, .bottom⟩
  else ⟨found.report (.scanFailed start), .budgetExhausted⟩

/-! ## §4 Scans -/

variable {memory budget start}

/-- The bytes covered so far are counted without wrapping around. -/
theorem toNat_covered {k : Nat} (inside : 4 * k ≤ start.toNat) (high : ¬ address start k < 4) :
    (start - address start k + 4).toNat = 4 * (k + 1) := by
  have le : address start k ≤ start := by
    rw [UInt32.le_iff_toNat_le, toNat_address]
    omega
  have := start.toNat_lt
  rw [address_lt_four_iff] at high
  rw [UInt32.toNat_add, UInt32.toNat_sub_of_le _ _ le, toNat_address,
    show (4 : UInt32).toNat = 4 from rfl]
  omega

theorem address_succ {k : Nat} (high : ¬ address start k < 4) :
    address start k - 4 = address start (k + 1) := by
  have le : (4 : UInt32) ≤ address start k := UInt32.not_lt.mp high
  apply UInt32.toNat_inj.mp
  rw [UInt32.toNat_sub_of_le _ _ le, toNat_address, toNat_address,
    show (4 : UInt32).toNat = 4 from rfl]
  omega

/-- The budget is used up exactly when it covers no more than the words so far. -/
theorem budget_le_iff {k : Nat} (inside : 4 * k ≤ start.toNat) (high : ¬ address start k < 4) :
    budget ≤ start - address start k + 4 ↔ budget.toNat ≤ 4 * (k + 1) := by
  rw [UInt32.le_iff_toNat_le, toNat_covered inside high]

/-- A scan that has come down to its `k`-th word reads that one. -/
theorem search_after (k : Nat) :
    search memory start budget (after memory start k) (address start k)
      = if word memory start k = Marker.word .returnRa then
          ⟨after memory start (k + 1), .returned⟩
        else if (after memory start (k + 1)).isComplete then
          ⟨after memory start (k + 1), .complete⟩
        else if address start k < 4 then ⟨after memory start (k + 1), .bottom⟩
        else if budget ≤ start - address start k + 4 then
          ⟨(after memory start (k + 1)).report (.scanFailed start), .budgetExhausted⟩
        else search memory start budget (after memory start (k + 1)) (address start k - 4) := by
  rw [search]
  simp only [Marker.ofWord?_eq_some_iff, dite_eq_ite]
  rfl

theorem search_over {k : Nat} (inside : 4 * k ≤ start.toNat)
    (ended : Over memory budget start (k + 1)) :
    search memory start budget (after memory start k) (address start k)
      = endedAt memory start (k + 1) := by
  rw [search_after, endedAt, Nat.add_sub_cancel]
  split
  case isTrue returned => rfl
  case isFalse going =>
    split
    case isTrue complete => rfl
    case isFalse incomplete =>
      split
      case isTrue low => rfl
      case isFalse high =>
        have covered : budget ≤ start - address start k + 4 := by
          rw [budget_le_iff inside high]
          cases ended with
          | returned last => exact absurd last going
          | complete saves adjusts =>
            exact absurd ((isComplete_after memory start _).mpr ⟨saves, adjusts⟩) incomplete
          | bottom low => exact absurd low high
          | budgetExhausted covered => exact covered
        rw [if_pos covered]

theorem search_not_over {k : Nat} (inside : 4 * k ≤ start.toNat)
    (goes : ¬ Over memory budget start (k + 1)) :
    search memory start budget (after memory start k) (address start k)
      = search memory start budget (after memory start (k + 1)) (address start (k + 1)) := by
  have going : ¬ word memory start k = Marker.word .returnRa := fun last => goes (.returned last)
  have incomplete : ¬ (after memory start (k + 1)).isComplete = true := by
    intro complete
    obtain ⟨saves, adjusts⟩ := (isComplete_after memory start _).mp complete
    exact goes (.complete saves adjusts)
  have high : ¬ address start k < 4 := fun low => goes (.bottom low)
  have within : ¬ budget ≤ start - address start k + 4 :=
    fun covered => goes (.budgetExhausted ((budget_le_iff inside high).mp covered))
  rw [search_after, if_neg going, if_neg incomplete, if_neg high, if_neg within,
    address_succ high]

/-- A scan that has come down to its `k`-th word ends with its first `n` words. By
induction on the words that are left. -/
theorem search_eq_endedAt (extent : IsExtent memory budget start n) {left k : Nat}
    (split : n = k + 1 + left) :
    search memory start budget (after memory start k) (address start k)
      = endedAt memory start n := by
  have inside : 4 * k ≤ start.toNat := extent.four_mul_le (by omega)
  induction left generalizing k with
  | zero =>
    subst split
    exact search_over inside extent.1.2
  | succ left ih =>
    have goes := extent.not_over (Nat.le_add_left 1 k) (by omega)
    rw [search_not_over inside goes]
    exact ih (by omega) (extent.four_mul_le (by omega))

/-- A scan ends with the words of its extent. -/
theorem run_eq_endedAt (extent : IsExtent memory budget start n) :
    run memory budget start = endedAt memory start n := by
  have pos : n = 0 + 1 + (n - 1) := by
    have := extent.1.1
    omega
  have whole := search_eq_endedAt extent pos
  rw [address_zero] at whole
  exact whole

/-- What the words of its extent add up to is what a scan has found, but for what it
says of having given up. -/
theorem read_run (extent : IsExtent memory budget start n) {α : Type} (read : Findings → α)
    (read_report : ∀ f r, read (f.report r) = read f) :
    read (run memory budget start).toFindings = read (after memory start n) := by
  rw [run_eq_endedAt extent, endedAt]
  split
  case isTrue => rfl
  case isFalse =>
    split
    case isTrue => rfl
    case isFalse =>
      split
      case isTrue => rfl
      case isFalse => exact read_report _ _

theorem raOffset_run (extent : IsExtent memory budget start n) :
    (run memory budget start).raOffset = (after memory start n).raOffset :=
  read_run extent Findings.raOffset fun _ _ => rfl

theorem frameSize_run (extent : IsExtent memory budget start n) :
    (run memory budget start).frameSize = (after memory start n).frameSize :=
  read_run extent Findings.frameSize fun _ _ => rfl

theorem reads_run (extent : IsExtent memory budget start n) :
    (run memory budget start).reads.toList = (List.range n).map (address start) := by
  rw [← reads_after memory start n]
  exact congrArg Array.toList (read_run extent Findings.reads fun _ _ => rfl)

/-- A scan under a budget of `b` bytes reads at most `⌈b / 4⌉` words, and always one. -/
theorem size_reads_run_le (memory : Memory) (budget start : UInt32) :
    (run memory budget start).reads.size ≤ max 1 ((budget.toNat + 3) / 4) := by
  obtain ⟨n, extent⟩ := exists_isExtent memory budget start
  rw [← Array.length_toList, reads_run extent, List.length_map, List.length_range]
  exact extent.le_budget

theorem stop_run (extent : IsExtent memory budget start n) :
    (run memory budget start).stop
      = if word memory start (n - 1) = Marker.word .returnRa then .returned
        else if (after memory start n).isComplete then .complete
        else if address start (n - 1) < 4 then .bottom
        else .budgetExhausted := by
  rw [run_eq_endedAt extent, endedAt]
  simp only [apply_ite Scan.stop]

/-- Every word is read once. -/
theorem IsExtent.nodup_addresses (extent : IsExtent memory budget start n) :
    ((List.range n).map (address start)).Nodup := by
  refine List.Nodup.map_on ?_ List.nodup_range
  intro i hi j hj same
  have := extent.four_mul_le (List.mem_range.mp hi)
  have := extent.four_mul_le (List.mem_range.mp hj)
  have := congrArg UInt32.toNat same
  rw [toNat_address, toNat_address] at this
  omega

/-- **A scan is the bounded search downwards.** It reads the words at and below its
start one by one, each once and none below the address zero, up to the first at which
it is over: at a return, with both halves of a prologue, at the bottom, or with the
budget used up. Of each half it keeps the first that it reads, and if several things
end it at once, they count in that order. -/
theorem run_is_bounded_search (memory : Memory) (budget start : UInt32) :
    let s := run memory budget start
    ∃ n, IsLeast {k | 1 ≤ k ∧ Over memory budget start k} n
      ∧ n ≤ max 1 ((budget.toNat + 3) / 4)
      ∧ (∀ cap limits, Limits.checked budget cap = .ok limits →
          n ≤ limits.scanInstructions.toNat)
      ∧ s.reads.toList = (List.range n).map (address start)
      ∧ s.reads.toList.Nodup
      ∧ (∀ i < n, (address start i).toNat + 4 * i = start.toNat)
      ∧ IsFirst .saveRa (word memory start) n s.raOffset
      ∧ IsFirst .adjustSp (word memory start) n s.frameSize
      ∧ s.stop = (if word memory start (n - 1) = Marker.word .returnRa then .returned
          else if s.raOffset.isSome && s.frameSize.isSome then .complete
          else if address start (n - 1) < 4 then .bottom
          else .budgetExhausted)
      ∧ (s.frame?.isSome = true ↔ s.stop = .complete) := by
  intro s
  obtain ⟨n, extent⟩ := exists_isExtent memory budget start
  have reads : s.reads.toList = (List.range n).map (address start) := reads_run extent
  have offset : s.raOffset = (after memory start n).raOffset := raOffset_run extent
  have size : s.frameSize = (after memory start n).frameSize := frameSize_run extent
  refine ⟨n, extent, extent.le_budget, ?_, reads, reads ▸ extent.nodup_addresses, ?_,
    offset ▸ raOffset_after memory start n, size ▸ frameSize_after memory start n, ?_,
    isSome_frame? memory start budget⟩
  · exact fun cap limits accepted => extent.le_scanInstructions accepted
  · intro i lt
    rw [toNat_address]
    exact Nat.sub_add_cancel (extent.four_mul_le lt)
  · rw [offset, size]
    exact stop_run extent

/-! ## §5 Budgets -/

variable {budget' : UInt32} {m : Nat}

/-- What is over under a budget is over under every smaller one. -/
theorem Over.of_le (le : budget ≤ budget') {k : Nat} (ended : Over memory budget' start k) :
    Over memory budget start k := by
  cases ended with
  | returned last => exact .returned last
  | complete saves adjusts => exact .complete saves adjusts
  | bottom low => exact .bottom low
  | budgetExhausted covered =>
    exact .budgetExhausted (Nat.le_trans (UInt32.le_iff_toNat_le.mp le) covered)

theorem IsExtent.le_of_le (le : budget ≤ budget') (extent : IsExtent memory budget start n)
    (extent' : IsExtent memory budget' start m) : n ≤ m :=
  extent.2 ⟨extent'.1.1, extent'.1.2.of_le le⟩

/-- What has been found stays found. -/
theorem after_of_le {α : Type} {read : Findings → Option α}
    (kept : ∀ f address marker? a, read f = some a → read (f.note address marker?) = some a)
    {k k' : Nat} (le : k ≤ k') {a : α} (found : read (after memory start k) = some a) :
    read (after memory start k') = some a := by
  induction le with
  | refl => exact found
  | step _ ih => exact kept _ _ _ a ih

/-- **A larger budget only extends a scan.** It reads on where the smaller one gave up,
keeps what was found, and changes nothing if the scan ended for another reason. -/
theorem budget_extends_scan (memory : Memory) (start : UInt32) {budget budget' : UInt32}
    (le : budget ≤ budget') :
    let s := run memory budget start
    let s' := run memory budget' start
    s.reads.toList <+: s'.reads.toList
      ∧ (∀ offset, s.raOffset = some offset → s'.raOffset = some offset)
      ∧ (∀ size, s.frameSize = some size → s'.frameSize = some size)
      ∧ (s.stop ≠ .budgetExhausted → s' = s) := by
  intro s s'
  obtain ⟨n, extent⟩ := exists_isExtent memory budget start
  obtain ⟨m, extent'⟩ := exists_isExtent memory budget' start
  have further : n ≤ m := extent.le_of_le le extent'
  refine ⟨?_, ?_, ?_, run_of_le memory start le⟩
  · rw [reads_run extent, reads_run extent', ← Nat.add_sub_of_le further, List.range_add,
      List.map_append]
    exact List.prefix_append _ _
  · intro offset found
    rw [raOffset_run extent] at found
    rw [raOffset_run extent']
    refine after_of_le (fun f address marker? a h => ?_) further found
    rw [Findings.raOffset_note, h, Option.some_or]
  · intro size found
    rw [frameSize_run extent] at found
    rw [frameSize_run extent']
    refine after_of_le (fun f address marker? a h => ?_) further found
    rw [Findings.frameSize_note, h, Option.some_or]

/-- A function of one instruction behind its prologue; all around it lie returns. -/
def plainFunction : Memory :=
  .ofEntries Instruction.returnRa
    [(0x80001000, Marker.word (.adjustSp (-24))), (0x80001004, Marker.word (.saveRa 20)),
      (0x80001008, 0)]

/-- Two words of budget reach the spill, three the whole prologue, and then a scan is
done. -/
theorem budget_extends_scan_plainFunction :
    (8 : UInt32) ≤ 12 ∧ (12 : UInt32) ≤ 16384
      ∧ (run plainFunction 8 0x80001008).stop = .budgetExhausted
      ∧ [0x80001008, 0x80001004] <+: (run plainFunction 12 0x80001008).reads.toList
      ∧ (run plainFunction 12 0x80001008).raOffset = some 20
      ∧ (run plainFunction 12 0x80001008).stop = .complete
      ∧ run plainFunction 16384 0x80001008 = run plainFunction 12 0x80001008 := by
  have le : (8 : UInt32) ≤ 12 := by decide
  have le' : (12 : UInt32) ≤ 16384 := by decide
  have read : (run plainFunction 8 0x80001008).reads.toList = [0x80001008, 0x80001004] := by
    decide +kernel
  have spilled : (run plainFunction 8 0x80001008).raOffset = some 20 := by decide +kernel
  have gaveUp : (run plainFunction 8 0x80001008).stop = .budgetExhausted := by decide +kernel
  have complete : (run plainFunction 12 0x80001008).stop = .complete := by decide +kernel
  obtain ⟨reads, offset, -, -⟩ := budget_extends_scan plainFunction 0x80001008 le
  obtain ⟨-, -, -, same⟩ := budget_extends_scan plainFunction 0x80001008 le'
  exact ⟨le, le', gaveUp, read ▸ reads, offset 20 spilled, complete,
    same (by rw [complete]; decide)⟩

end Scan

end Unwind
