/-
Unwind.Proofs.Bytes — words and their four bytes.

`Word.byte w i` is byte `i` of a word, the most significant one being byte 0.
A word is determined by its bytes (`eq_of_byte`), and what the image operations
do to words is done to each byte by itself: bitwise operations act bytewise
(`byte_or`, `byte_blend`), shifts by whole bytes move bytes along
(`byte_shiftLeft`, `byte_shiftRight`).
-/
import Unwind.Machine.Word
import Mathlib.Tactic.IntervalCases

namespace Unwind.Word

/-- Byte `i` of a word, the most significant one first. -/
def byte (w : UInt32) (i : Nat) : UInt8 := (bytes w).getD i 0

theorem bytes_eq (w : UInt32) : bytes w = [byte w 0, byte w 1, byte w 2, byte w 3] := rfl

@[simp] theorem length_bytes (w : UInt32) : (bytes w).length = 4 := rfl

/-- As a number, a byte is a digit to the base 256. -/
theorem toNat_byte (w : UInt32) {i : Nat} (h : i < 4) :
    (byte w i).toNat = w.toNat / 2 ^ (24 - 8 * i) % 256 := by
  interval_cases i
  all_goals
    simp only [byte, bytes, List.getD_cons_zero, List.getD_cons_succ, UInt32.toNat_toUInt8,
      UInt32.toNat_shiftRight, Nat.shiftRight_eq_div_pow]
    simp

/-- Two words with the same bytes are the same. -/
theorem eq_of_byte {v w : UInt32} (h : ∀ i < 4, byte v i = byte w i) : v = w := by
  have digit : ∀ i < 4, v.toNat / 2 ^ (24 - 8 * i) % 256 = w.toNat / 2 ^ (24 - 8 * i) % 256 := by
    intro i hi
    rw [← toNat_byte v hi, ← toNat_byte w hi, h i hi]
  have d0 := digit 0 (by decide)
  have d1 := digit 1 (by decide)
  have d2 := digit 2 (by decide)
  have d3 := digit 3 (by decide)
  have hv := v.toNat_lt
  have hw := w.toNat_lt
  apply UInt32.toNat_inj.mp
  simp only [Nat.reducePow, Nat.reduceMul, Nat.reduceSub] at d0 d1 d2 d3 hv hw
  omega

@[simp] theorem byte_zero (i : Nat) : byte 0 i = 0 := by
  rcases i with _ | _ | _ | _ | i <;> rfl

/-- A word that is not zero has a byte that is not. -/
theorem exists_byte_ne_zero {w : UInt32} (h : w ≠ 0) : ∃ i < 4, byte w i ≠ 0 := by
  by_contra none
  refine h (eq_of_byte fun i hi => ?_)
  rw [byte_zero]
  by_contra bit
  exact none ⟨i, hi, bit⟩

theorem byte_or (v w : UInt32) {i : Nat} (h : i < 4) :
    byte (v ||| w) i = byte v i ||| byte w i := by
  interval_cases i <;> simp [byte, bytes, UInt32.shiftRight_or]

theorem byte_and (v w : UInt32) {i : Nat} (h : i < 4) :
    byte (v &&& w) i = byte v i &&& byte w i := by
  interval_cases i <;> simp [byte, bytes, UInt32.shiftRight_and]

theorem byte_not (w : UInt32) {i : Nat} (h : i < 4) : byte (~~~w) i = ~~~(byte w i) := by
  apply UInt8.toNat_inj.mp
  have hw := w.toNat_lt
  rw [toNat_byte _ h, UInt32.toNat_not, UInt8.toNat_not, toNat_byte _ h]
  interval_cases i <;> simp <;> omega

/-- A blend is made byte by byte. -/
theorem byte_blend (old value mask : UInt32) {i : Nat} (h : i < 4) :
    byte (blend old value mask) i
      = (byte old i &&& ~~~(byte mask i)) ||| (byte value i &&& byte mask i) := by
  rw [blend, byte_or _ _ h, byte_and _ _ h, byte_and _ _ h, byte_not _ h]

/-- A shift to the left by whole bytes moves bytes up and fills in zeros. -/
theorem byte_shiftLeft (w : UInt32) {i k : Nat} (hi : i < 4) (hk : k < 4) :
    byte (w <<< UInt32.ofNat (8 * k)) i = if i + k < 4 then byte w (i + k) else 0 := by
  apply UInt8.toNat_inj.mp
  have hw := w.toNat_lt
  rw [toNat_byte _ hi, UInt32.toNat_shiftLeft, Nat.shiftLeft_eq]
  split
  · rename_i h
    rw [toNat_byte _ h]
    interval_cases k <;> interval_cases i <;> simp at h ⊢ <;> omega
  · rename_i h
    interval_cases k <;> interval_cases i <;> simp at h ⊢ <;> omega

/-- A shift to the right by whole bytes moves bytes down and fills in zeros. -/
theorem byte_shiftRight (w : UInt32) {i k : Nat} (hi : i < 4) (hk : k < 4) :
    byte (w >>> UInt32.ofNat (8 * k)) i = if k ≤ i then byte w (i - k) else 0 := by
  apply UInt8.toNat_inj.mp
  have hw := w.toNat_lt
  rw [toNat_byte _ hi, UInt32.toNat_shiftRight, Nat.shiftRight_eq_div_pow]
  split
  · rename_i h
    rw [toNat_byte _ (Nat.lt_of_le_of_lt (Nat.sub_le i k) hi)]
    interval_cases k <;> interval_cases i <;> simp at h ⊢ <;> omega
  · rename_i h
    interval_cases k <;> interval_cases i <;> simp at h ⊢ <;> omega

/-- The two shifts by which a word is laid over two others: its bytes stand side
by side, between zeros. -/
theorem bytes_shiftRight_append (w : UInt32) {k : Nat} (pos : 0 < k) (hk : k < 4) :
    bytes (w >>> UInt32.ofNat (8 * k)) ++ bytes (w <<< UInt32.ofNat (8 * (4 - k)))
      = List.replicate k 0 ++ (bytes w ++ List.replicate (4 - k) 0) := by
  have left : 4 - k < 4 := by omega
  rw [bytes_eq, bytes_eq (w <<< _), bytes_eq w]
  simp only [byte_shiftRight w _ hk, byte_shiftLeft w _ left, Nat.reduceLT]
  interval_cases k <;> rfl

/-- So do those of two words that are shifted together. -/
theorem zip_bytes_shift (v w : UInt32) {k : Nat} (pos : 0 < k) (hk : k < 4) :
    (bytes (v >>> UInt32.ofNat (8 * k))).zip (bytes (w >>> UInt32.ofNat (8 * k)))
        ++ (bytes (v <<< UInt32.ofNat (8 * (4 - k)))).zip (bytes (w <<< UInt32.ofNat (8 * (4 - k))))
      = List.replicate k (0, 0) ++ ((bytes v).zip (bytes w) ++ List.replicate (4 - k) (0, 0)) := by
  have same : (bytes (v >>> UInt32.ofNat (8 * k))).length
      = (bytes (w >>> UInt32.ofNat (8 * k))).length := rfl
  have zeros : ∀ n, (List.replicate n (0 : UInt8)).zip (List.replicate n (0 : UInt8))
      = List.replicate n (0, 0) := fun n => List.zip_replicate'
  rw [← List.zip_append same, bytes_shiftRight_append v pos hk, bytes_shiftRight_append w pos hk,
    List.zip_append (by simp), List.zip_append (by simp), zeros, zeros]

/-- A byte as a word stands in its last place. -/
theorem byte_toUInt32 (b : UInt8) {i : Nat} (h : i < 4) :
    byte b.toUInt32 i = if i = 3 then b else 0 := by
  apply UInt8.toNat_inj.mp
  have hb := b.toNat_lt
  rw [toNat_byte _ h, UInt8.toNat_toUInt32]
  interval_cases i <;> simp <;> omega

/-- A byte shifted to the top of a word has zeros behind it. -/
theorem bytes_topByte (b : UInt8) : bytes (b.toUInt32 <<< 24) = [b, 0, 0, 0] := by
  have h24 : (24 : UInt32) = UInt32.ofNat (8 * 3) := rfl
  rw [bytes_eq, h24]
  simp only [byte_shiftLeft _ (k := 3), Nat.reduceLT, byte_toUInt32, Nat.reduceAdd]
  rfl

/-- So does a half word. -/
theorem bytes_topHalf (h : UInt16) :
    bytes (h.toUInt32 <<< 16) = [(h >>> 8).toUInt8, h.toUInt8, 0, 0] := by
  have h16 : (16 : UInt32) = UInt32.ofNat (8 * 2) := rfl
  have lt := h.toNat_lt
  have upper : byte h.toUInt32 2 = (h >>> 8).toUInt8 := by
    apply UInt8.toNat_inj.mp
    rw [toNat_byte _ (by decide), UInt16.toNat_toUInt8, UInt16.toNat_shiftRight,
      UInt16.toNat_toUInt32, Nat.shiftRight_eq_div_pow]
    rfl
  have lower : byte h.toUInt32 3 = h.toUInt8 := by
    apply UInt8.toNat_inj.mp
    rw [toNat_byte _ (by decide), UInt16.toNat_toUInt8, UInt16.toNat_toUInt32]
    exact congrArg (· % 256) (Nat.div_one _)
  rw [bytes_eq, h16]
  simp only [byte_shiftLeft _ (k := 2), Nat.reduceLT, Nat.reduceAdd, upper, lower, if_true,
    if_false]

/-- The bytes of a word are those it was put together from. -/
theorem byte_ofBytes (a b c d : UInt8) {i : Nat} (h : i < 4) :
    byte (ofBytes a b c d) i = [a, b, c, d].getD i 0 := by
  have h24 : (24 : UInt32) = UInt32.ofNat (8 * 3) := rfl
  have h16 : (16 : UInt32) = UInt32.ofNat (8 * 2) := rfl
  have h8 : (8 : UInt32) = UInt32.ofNat (8 * 1) := rfl
  rw [ofBytes, byte_or _ _ h, byte_or _ _ h, byte_or _ _ h, h24, h16, h8,
    byte_shiftLeft _ h (by decide), byte_shiftLeft _ h (by decide), byte_shiftLeft _ h (by decide),
    byte_toUInt32 d h]
  interval_cases i <;> simp [byte_toUInt32]

/-- The upper half of a word holds its first two bytes. -/
theorem high_eq (w : UInt32) :
    high w = (byte w 0).toUInt16 <<< 8 ||| (byte w 1).toUInt16 := by
  have hw := w.toNat_lt
  have h0 := toNat_byte w (i := 0) (by decide)
  have h1 := toNat_byte w (i := 1) (by decide)
  apply UInt16.toNat_inj.mp
  rw [high, UInt32.toNat_toUInt16, UInt32.toNat_shiftRight, UInt16.toNat_or,
    UInt16.toNat_shiftLeft, UInt8.toNat_toUInt16, UInt8.toNat_toUInt16, h0, h1]
  simp only [UInt32.reduceToNat, UInt16.reduceToNat, Nat.reduceMod, Nat.reduceMul, Nat.reduceSub,
    Nat.shiftLeft_eq, Nat.shiftRight_eq_div_pow, Nat.reducePow]
  have room : w.toNat / 16777216 % 256 * 256 % 65536 = 2 ^ 8 * (w.toNat / 16777216 % 256) := by
    omega
  have low : w.toNat / 65536 % 256 < 2 ^ 8 := Nat.mod_lt _ (by decide)
  rw [room, ← Nat.two_pow_add_eq_or_of_lt low]
  omega

end Unwind.Word
