/-
Unwind.Proofs.Attempts — how many words a run tries to write.

The address of a word of a run is computed from its number in 32 bits, and nothing
bounds the length of a run. What bounds the numbers is that a run ends with the first
word that is not backed: the directly mapped segments are `2 ^ 28` words long, so
after at most as many words the addresses have left them, whatever their alignment.

  §1 Attempts — a run that keeps account of the words it tries to write; it tries
                every word that has only backed ones before it (`lt_length_traceRun`).
  §2 Bounds   — some word among the first `2 ^ 28 + 1` is not backed
                (`exists_not_backedWord`), and so `run_never_overflows`. A large
                image makes a run try as many (`length_traceRun_of_full`).
-/
import Unwind.Proofs.Writing

namespace Unwind.Rdram

variable (m : Rdram)

/-! ## §1 Attempts -/

/-- A run of words, from number `i` on, with the numbers of the words that it tries to
write. For each of them it computes an address, whether or not the word is backed. -/
def traceRun (m : Rdram) (base : UInt32) : Nat → List UInt32 → List Nat × Bool × Rdram
  | _, [] => ([], true, m)
  | i, value :: values =>
    match m.writeWord (base + 4 * UInt32.ofNat i) value with
    | (true, m) =>
      let (numbers, result) := m.traceRun base (i + 1) values
      (i :: numbers, result)
    | (false, m) => ([i], false, m)

/-- The account does not change the run. -/
theorem snd_traceRun (base : UInt32) (i : Nat) (values : List UInt32) :
    (m.traceRun base i values).2 = m.writeRun base i values := by
  fun_induction traceRun m base i values with
  | case1 => rfl
  | case2 m i value values m' written numbers result tried ih =>
    rw [writeRun, written]
    rwa [tried] at ih
  | case3 m i value values m' refused => rw [writeRun, refused]

/-- The words of a run are tried one after the other. -/
theorem fst_traceRun (base : UInt32) (i : Nat) (values : List UInt32) :
    (m.traceRun base i values).1 = List.range' i (m.traceRun base i values).1.length := by
  fun_induction traceRun m base i values with
  | case1 => rfl
  | case2 m i value values m' written numbers result tried ih =>
    rw [tried] at ih
    exact congrArg (i :: ·) ih
  | case3 => rfl

/-- A word is tried if the run has it and all words before it are backed. -/
theorem lt_length_traceRun (base : UInt32) (i : Nat) (values : List UInt32) (n : Nat) :
    n < (m.traceRun base i values).1.length
      ↔ n < values.length
        ∧ ∀ k < n, FlatMemory.BackedWord m.bytes (place base (i + k)) := by
  -- as the run goes: no word is left, a word is written, a word is refused
  fun_induction traceRun m base i values generalizing n with
  | case1 => simp
  | case2 m i value values m' written numbers result tried ih =>
    have here : FlatMemory.BackedWord m.bytes (place base i) := by
      rw [← fst_writeWord m _ value, place, written]
    -- the write leaves the length of the image, so the later words are backed as before
    have same : m'.bytes.length = m.bytes.length := by
      rw [← FlatMemory.length_storeBytes m.bytes (place base i) (Word.bytes value),
        ← bytes_writeWord, place, written]
    cases n with
    | zero => simp
    | succ n =>
      have rest := ih n
      simp only [tried, FlatMemory.backedWord_congr same, Nat.add_right_comm i 1] at rest
      rw [Nat.forall_lt_succ_left]
      simpa [here, Nat.add_assoc] using rest
  | case3 m i value values m' refused =>
    have lacks : ¬ FlatMemory.BackedWord m.bytes (place base i) := by
      rw [← fst_writeWord m _ value, place, refused]
      exact Bool.false_ne_true
    cases n with
    | zero => simp
    | succ n =>
      rw [Nat.forall_lt_succ_left]
      simp [lacks]

/-! ## §2 Bounds -/

theorem toNat_place (base : UInt32) (i : Nat) :
    (place base i).toNat = (base.toNat + 4 * i) % 2 ^ 32 := by
  have sum : place base i = base + UInt32.ofNat (4 * i) := by
    rw [← FlatMemory.add_ofNat_zero (place base i)]
    exact place_add base i 0
  rw [sum, UInt32.toNat_add, UInt32.toNat_ofNat', Nat.add_mod_mod]

/-- Only directly mapped words are backed. -/
theorem mapped_of_backedWord {address : UInt32}
    (backed : FlatMemory.BackedWord m.bytes address) : address.toNat / 2 ^ 30 = 2 := by
  have first := backed 0 (by decide)
  rw [FlatMemory.add_ofNat_zero, FlatMemory.backed_iff] at first
  exact first.1

/-- A run begins outside of the directly mapped segments, or it comes to their end. -/
theorem exists_not_backedWord (address : UInt32) :
    ∃ k ≤ 2 ^ 28, ¬ FlatMemory.BackedWord m.bytes (place address k) := by
  by_cases mapped : address.toNat / 2 ^ 30 = 2
  · -- the first word from the end of the segments on
    refine ⟨(3 * 2 ^ 30 - address.toNat + 3) / 4, by omega, fun backed => ?_⟩
    have inside := mapped_of_backedWord m backed
    rw [toNat_place] at inside
    omega
  · refine ⟨0, Nat.zero_le _, fun backed => mapped ?_⟩
    rw [place_zero] at backed
    exact mapped_of_backedWord m backed

theorem length_traceRun_le (address : UInt32) (values : List UInt32) :
    (m.traceRun address 0 values).1.length ≤ 2 ^ 28 + 1 := by
  obtain ⟨k, le, lacks⟩ := exists_not_backedWord m address
  rw [← Nat.not_lt, lt_length_traceRun]
  rintro ⟨-, backed⟩
  have here := backed k (Nat.lt_succ_of_le le)
  rw [Nat.zero_add] at here
  exact lacks here

/-- **A run of words never tries more than `2 ^ 28 + 1` of them**, whatever its length
and wherever it begins. The words it tries are those that have only backed ones before
them. So their numbers, and four times their numbers, fit in 32 bits. -/
theorem run_never_overflows (m : Rdram) (address : UInt32) (values : List UInt32) :
    let run := m.traceRun address 0 values
    run.2 = m.writeWords address values
      ∧ run.1 = List.range run.1.length
      ∧ (∀ i, i ∈ run.1 ↔ i < values.length
          ∧ ∀ k < i, FlatMemory.BackedWord m.bytes (place address k))
      ∧ run.1.length ≤ 2 ^ 28 + 1
      ∧ ∀ i ∈ run.1, 4 * i ≤ 2 ^ 30
          ∧ (UInt32.ofNat i).toNat = i
          ∧ (4 * UInt32.ofNat i).toNat = 4 * i := by
  intro run
  have numbers : run.1 = List.range run.1.length := by
    rw [List.range_eq_range']
    exact fst_traceRun m address 0 values
  have bound : run.1.length ≤ 2 ^ 28 + 1 := length_traceRun_le m address values
  have tries (i : Nat) : i ∈ run.1 ↔ i < values.length
      ∧ ∀ k < i, FlatMemory.BackedWord m.bytes (place address k) := by
    rw [numbers, List.mem_range]
    simpa using lt_length_traceRun m address 0 values i
  refine ⟨snd_traceRun m address 0 values, numbers, tries, bound, fun i tried => ?_⟩
  rw [numbers, List.mem_range] at tried
  have small : i ≤ 2 ^ 28 := by omega
  have cast : (UInt32.ofNat i).toNat = i :=
    UInt32.toNat_ofNat_of_lt' (Nat.lt_of_le_of_lt small (by decide))
  refine ⟨by omega, cast, ?_⟩
  rw [UInt32.toNat_mul, cast]
  exact Nat.mod_eq_of_lt (Nat.lt_of_le_of_lt (Nat.mul_le_mul_left 4 small) (by decide))

/-- The bound is reached: in an image as large as a segment, a run from the beginning of
the first one goes through both and one word further. -/
theorem length_traceRun_of_full (full : 2 ^ 29 ≤ m.len) {values : List UInt32}
    (long : 2 ^ 28 < values.length) :
    (m.traceRun 0x80000000 0 values).1.length = 2 ^ 28 + 1 := by
  apply Nat.le_antisymm (length_traceRun_le m _ values)
  refine (lt_length_traceRun m _ _ values _).mpr ⟨long, fun k lt i hi => ?_⟩
  rw [place_add, FlatMemory.backed_iff, length_bytes, UInt32.toNat_add, UInt32.toNat_ofNat']
  simp only [UInt32.reduceToNat]
  omega

end Unwind.Rdram
