/-
Unwind.Proofs.FlatMemory — main memory as a flat run of bytes.

This is what an image of main memory is meant to be, without words in it: a
list of bytes, seen through two directly mapped segments byte by byte. An
access to several bytes is an access to each of them by itself, whatever its
alignment; a byte that is not backed reads as zero and is not written.

  §1 Addresses — which addresses are backed, and by which byte.
  §2 Reading   — bytes, half words and words, most significant byte first.
  §3 Writing   — masked stores at consecutive addresses: what they change
                 (`getElem?_storeAll`) and what they do not
                 (`getElem?_storeAll_of_ne`).
  §4 Accesses  — the memory after a scripted access.
-/
import Mathlib.Algebra.Group.Nat.Defs
import Unwind.Machine.Word
import Unwind.Script.Access

namespace Unwind

/-- A memory as its bytes from the lowest address up. -/
abbrev FlatMemory := List UInt8

namespace FlatMemory

/-! ## §1 Addresses -/

/-- The byte of the memory that a directly mapped address stands for. -/
def offset (address : UInt32) : Nat := (address &&& 0x1fffffff).toNat

/-- Whether an address is directly mapped and its byte lies in the memory. -/
def Backed (m : FlatMemory) (address : UInt32) : Prop :=
  address &&& 0xc0000000 = 0x80000000 ∧ offset address < m.length

instance (m : FlatMemory) (address : UInt32) : Decidable (Backed m address) :=
  inferInstanceAs (Decidable (_ ∧ _))

theorem offset_eq (address : UInt32) : offset address = address.toNat % 2 ^ 29 := by
  rw [offset, UInt32.toNat_and]
  exact Nat.and_two_pow_sub_one_eq_mod address.toNat 29

/-- An address is directly mapped if its upper two bits are 10. -/
theorem mapped_iff (address : UInt32) :
    address &&& 0xc0000000 = 0x80000000 ↔ address.toNat / 2 ^ 30 = 2 := by
  have upper : (address &&& 0xc0000000).toNat / 2 ^ 30 = address.toNat / 2 ^ 30 := by
    have lt := address.toNat_lt
    rw [UInt32.toNat_and, Nat.and_div_two_pow]
    exact (Nat.and_two_pow_sub_one_eq_mod _ 2).trans (Nat.mod_eq_of_lt (by omega))
  have lower : (address &&& 0xc0000000).toNat % 2 ^ 30 = 0 := by
    rw [UInt32.toNat_and, Nat.and_mod_two_pow]
    exact Nat.and_zero _
  rw [← UInt32.toNat_inj, ← upper]
  simp only [UInt32.reduceToNat]
  omega

theorem backed_iff (m : FlatMemory) (address : UInt32) :
    m.Backed address ↔ address.toNat / 2 ^ 30 = 2 ∧ address.toNat % 2 ^ 29 < m.length := by
  rw [Backed, mapped_iff, offset_eq]

theorem add_ofNat_zero (address : UInt32) : address + UInt32.ofNat 0 = address :=
  UInt32.add_zero address

theorem add_ofNat_succ (address : UInt32) (k : Nat) :
    address + UInt32.ofNat (k + 1) = address + 1 + UInt32.ofNat k := by
  rw [UInt32.ofNat_add, UInt32.add_comm (UInt32.ofNat k), ← UInt32.add_assoc]
  rfl

/-- Addresses less than the size of a segment apart have different bytes. -/
theorem offset_add_ne (address : UInt32) {i k : Nat} (hi : i < 2 ^ 29) (hk : k < 2 ^ 29)
    (ne : i ≠ k) : offset (address + UInt32.ofNat i) ≠ offset (address + UInt32.ofNat k) := by
  rw [offset_eq, offset_eq, UInt32.toNat_add, UInt32.toNat_add, UInt32.toNat_ofNat',
    UInt32.toNat_ofNat']
  omega

/-- Either segment begins at the first byte of the memory. -/
theorem segment (m : FlatMemory) {base p : UInt32}
    (start : base = 0x80000000 ∨ base = 0xa0000000) (h : p.toNat < 2 ^ 29) :
    (m.Backed (base + p) ↔ p.toNat < m.length) ∧ offset (base + p) = p.toNat := by
  rw [backed_iff, offset_eq, UInt32.toNat_add]
  rcases start with rfl | rfl
  · simp only [UInt32.reduceToNat]
    omega
  · simp only [UInt32.reduceToNat]
    omega

/-! ## §2 Reading -/

/-- The byte at an address. -/
def byte (m : FlatMemory) (address : UInt32) : UInt8 :=
  if m.Backed address then m.getD (offset address) 0 else 0

theorem byte_segments (m : FlatMemory) {p : UInt32} (h : p.toNat < 2 ^ 29) :
    m.byte (0x80000000 + p) = m.byte (0xa0000000 + p) := by
  obtain ⟨cached, low⟩ := segment m (.inl rfl) h
  obtain ⟨uncached, high⟩ := segment m (.inr rfl) h
  simp only [byte, cached, uncached, low, high]

/-- The half word at an address. -/
def half (m : FlatMemory) (address : UInt32) : UInt16 :=
  (m.byte address).toUInt16 <<< 8 ||| (m.byte (address + 1)).toUInt16

/-- The word at an address. -/
def word (m : FlatMemory) (address : UInt32) : UInt32 :=
  Word.ofBytes (m.byte address) (m.byte (address + 1)) (m.byte (address + 2))
    (m.byte (address + 3))

theorem word_segments (m : FlatMemory) {p : UInt32} (h : p.toNat + 4 ≤ 2 ^ 29) :
    m.word (0x80000000 + p) = m.word (0xa0000000 + p) := by
  have shift : ∀ k : Nat, k < 4 → (p + UInt32.ofNat k).toNat < 2 ^ 29 := by
    intro k hk
    rw [UInt32.toNat_add, UInt32.toNat_ofNat']
    omega
  have b0 := byte_segments m (p := p) (by omega)
  have b1 := byte_segments m (shift 1 (by decide))
  have b2 := byte_segments m (shift 2 (by decide))
  have b3 := byte_segments m (shift 3 (by decide))
  simp only [← UInt32.add_assoc] at b1 b2 b3
  rw [word, b0, show (1 : UInt32) = UInt32.ofNat 1 from rfl, b1,
    show (2 : UInt32) = UInt32.ofNat 2 from rfl, b2,
    show (3 : UInt32) = UInt32.ofNat 3 from rfl, b3]
  rfl

/-! ## §3 Writing -/

/-- The bits of `value` where `mask` is set, those of `old` elsewhere. -/
def blend (old value mask : UInt8) : UInt8 := (old &&& ~~~mask) ||| (value &&& mask)

/-- Replaces the masked bits of the byte at an address, if it is backed. -/
def store (m : FlatMemory) (address : UInt32) (value mask : UInt8) : FlatMemory :=
  if m.Backed address then m.modify (offset address) fun old => blend old value mask else m

/-- Stores bytes, each with its mask, at an address and those that follow. -/
def storeAll (m : FlatMemory) (address : UInt32) : List (UInt8 × UInt8) → FlatMemory
  | [] => m
  | (value, mask) :: rest => (m.store address value mask).storeAll (address + 1) rest

/-- Storing four bytes, one after another. -/
theorem storeAll_four (m : FlatMemory) (address : UInt32) (b₀ b₁ b₂ b₃ : UInt8 × UInt8) :
    m.storeAll address [b₀, b₁, b₂, b₃]
      = (((m.store (address + UInt32.ofNat 0) b₀.1 b₀.2).store
          (address + UInt32.ofNat 1) b₁.1 b₁.2).store
          (address + UInt32.ofNat 2) b₂.1 b₂.2).store (address + UInt32.ofNat 3) b₃.1 b₃.2 := by
  rw [add_ofNat_succ address 2, add_ofNat_succ (address + 1) 1, add_ofNat_succ address 1,
    add_ofNat_zero]
  rfl

theorem store_segments (m : FlatMemory) {p : UInt32} (h : p.toNat < 2 ^ 29)
    (value mask : UInt8) :
    m.store (0x80000000 + p) value mask = m.store (0xa0000000 + p) value mask := by
  obtain ⟨cached, low⟩ := segment m (.inl rfl) h
  obtain ⟨uncached, high⟩ := segment m (.inr rfl) h
  simp only [store, cached, uncached, low, high]

@[simp] theorem length_store (m : FlatMemory) (address : UInt32) (value mask : UInt8) :
    (m.store address value mask).length = m.length := by
  unfold store
  split
  · exact List.length_modify _ _ _
  · rfl

@[simp] theorem length_storeAll (m : FlatMemory) (address : UInt32)
    (bytes : List (UInt8 × UInt8)) : (m.storeAll address bytes).length = m.length := by
  induction bytes generalizing m address with
  | nil => rfl
  | cons b rest ih => rw [storeAll, ih, length_store]

theorem backed_congr {m m' : FlatMemory} (h : m.length = m'.length) (address : UInt32) :
    m.Backed address ↔ m'.Backed address := by
  rw [Backed, Backed, h]

theorem getElem?_store_of_ne (m : FlatMemory) {address : UInt32} {j : Nat}
    (h : m.Backed address → offset address ≠ j) (value mask : UInt8) :
    (m.store address value mask)[j]? = m[j]? := by
  unfold store
  split
  · rename_i backed
    exact List.getElem?_modify_ne _ _ (h backed)
  · rfl

theorem getElem?_store_self (m : FlatMemory) {address : UInt32} (h : m.Backed address)
    (value mask : UInt8) :
    (m.store address value mask)[offset address]? = some (blend (m.byte address) value mask) := by
  have lt := h.2
  rw [store, if_pos h, List.getElem?_modify_eq, byte, if_pos h, List.getD_eq_getElem?_getD,
    List.getElem?_eq_getElem lt]
  rfl

theorem byte_store_of_ne (m : FlatMemory) {address other : UInt32}
    (h : offset address ≠ offset other) (value mask : UInt8) :
    (m.store address value mask).byte other = m.byte other := by
  simp only [byte, List.getD_eq_getElem?_getD, getElem?_store_of_ne m fun _ => h,
    backed_congr (length_store m address value mask)]

/-- Stores that stay within a segment are the same in the other one. -/
theorem storeAll_segments (m : FlatMemory) {p : UInt32} (bytes : List (UInt8 × UInt8))
    (h : p.toNat + bytes.length ≤ 2 ^ 29) :
    m.storeAll (0x80000000 + p) bytes = m.storeAll (0xa0000000 + p) bytes := by
  induction bytes generalizing m p with
  | nil => rfl
  | cons b rest ih =>
    rw [List.length_cons] at h
    have next : (p + 1).toNat = p.toNat + 1 := by
      rw [UInt32.toNat_add]
      simp only [UInt32.reduceToNat]
      omega
    rw [storeAll, storeAll, store_segments m (by omega), UInt32.add_assoc, UInt32.add_assoc]
    exact ih _ (by omega)

/-- With no bit masked nothing is stored. -/
@[simp] theorem store_mask_zero (m : FlatMemory) (address : UInt32) (value : UInt8) :
    m.store address value 0 = m := by
  have keep : (fun old => blend old value 0) = id := by
    funext old
    simp [blend]
  rw [store, keep, List.modify_id, ite_self]

theorem storeAll_append (m : FlatMemory) (address : UInt32) (first rest : List (UInt8 × UInt8)) :
    m.storeAll address (first ++ rest)
      = (m.storeAll address first).storeAll (address + UInt32.ofNat first.length) rest := by
  induction first generalizing m address with
  | nil =>
    rw [List.length_nil, add_ofNat_zero]
    rfl
  | cons b first ih =>
    rw [List.cons_append, storeAll, storeAll, ih, List.length_cons, add_ofNat_succ]

/-- With no bit masked anywhere nothing is stored. -/
theorem storeAll_mask_zero (m : FlatMemory) (address : UInt32) (bytes : List (UInt8 × UInt8))
    (h : ∀ b ∈ bytes, b.2 = 0) : m.storeAll address bytes = m := by
  induction bytes generalizing address with
  | nil => rfl
  | cons b rest ih =>
    rw [storeAll, h b List.mem_cons_self, store_mask_zero]
    exact ih _ fun c hc => h c (List.mem_cons_of_mem _ hc)

theorem storeAll_append_unmasked (m : FlatMemory) (address : UInt32)
    (bytes rest : List (UInt8 × UInt8)) (h : ∀ b ∈ rest, b.2 = 0) :
    m.storeAll address (bytes ++ rest) = m.storeAll address bytes := by
  rw [storeAll_append, storeAll_mask_zero _ _ _ h]

/-- What stores do not reach stays as it was. -/
theorem getElem?_storeAll_of_ne (m : FlatMemory) (address : UInt32)
    (bytes : List (UInt8 × UInt8)) (j : Nat)
    (h : ∀ k < bytes.length, m.Backed (address + UInt32.ofNat k) →
      offset (address + UInt32.ofNat k) ≠ j) :
    (m.storeAll address bytes)[j]? = m[j]? := by
  induction bytes generalizing m address with
  | nil => rfl
  | cons b rest ih =>
    rw [storeAll, ih]
    · apply getElem?_store_of_ne
      simpa using h 0 (Nat.succ_pos _)
    · intro k hk backed
      rw [← add_ofNat_succ] at backed ⊢
      exact h (k + 1) (Nat.succ_lt_succ hk) ((backed_congr (length_store m _ _ _) _).mp backed)

/-- Where no byte is backed nothing is stored. -/
theorem storeAll_of_not_backed (m : FlatMemory) (address : UInt32)
    (bytes : List (UInt8 × UInt8))
    (h : ∀ k < bytes.length, ¬ m.Backed (address + UInt32.ofNat k)) :
    m.storeAll address bytes = m := by
  apply List.ext_getElem?
  intro j
  exact getElem?_storeAll_of_ne m address bytes j fun k hk backed => absurd backed (h k hk)

/-- Every byte that is backed is stored, with its own mask. -/
theorem getElem?_storeAll (m : FlatMemory) (address : UInt32) (bytes : List (UInt8 × UInt8))
    (short : bytes.length ≤ 2 ^ 29) {k : Nat} (hk : k < bytes.length)
    (backed : m.Backed (address + UInt32.ofNat k)) :
    (m.storeAll address bytes)[offset (address + UInt32.ofNat k)]?
      = some (blend (m.byte (address + UInt32.ofNat k)) bytes[k].1 bytes[k].2) := by
  induction bytes generalizing m address k with
  | nil => exact absurd hk (Nat.not_lt_zero _)
  | cons b rest ih =>
    rw [List.length_cons] at short hk
    rw [storeAll]
    cases k with
    | zero =>
      -- the bytes that follow are stored elsewhere
      rw [getElem?_storeAll_of_ne]
      · rw [add_ofNat_zero] at backed ⊢
        exact getElem?_store_self m backed _ _
      · intro k hk _
        rw [← add_ofNat_succ]
        exact offset_add_ne address (by omega) (by omega) (Nat.succ_ne_zero k)
    | succ k =>
      -- the byte before was stored elsewhere
      have kept : (m.store address b.1 b.2).byte (address + UInt32.ofNat (k + 1))
          = m.byte (address + UInt32.ofNat (k + 1)) := by
        apply byte_store_of_ne
        have ne := offset_add_ne address (i := 0) (k := k + 1) (by omega) (by omega) (by omega)
        rwa [add_ofNat_zero] at ne
      rw [add_ofNat_succ] at backed kept ⊢
      rw [ih _ _ (by omega) (by omega) ((backed_congr (length_store m _ _ _) _).mpr backed), kept]
      rfl

/-! ## §4 Accesses -/

/-- Whether all four bytes of a word are backed. -/
def BackedWord (m : FlatMemory) (address : UInt32) : Prop :=
  ∀ k < 4, m.Backed (address + UInt32.ofNat k)

instance (m : FlatMemory) (address : UInt32) : Decidable (BackedWord m address) :=
  inferInstanceAs (Decidable (∀ k < 4, _))

theorem backedWord_congr {m m' : FlatMemory} (h : m.length = m'.length) (address : UInt32) :
    m.BackedWord address ↔ m'.BackedWord address := by
  simp only [BackedWord, backed_congr h]

/-- Stores whole bytes. -/
def storeBytes (m : FlatMemory) (address : UInt32) (bytes : List UInt8) : FlatMemory :=
  m.storeAll address (bytes.map fun b => (b, 0xff))

/-- Stores words one after another, up to and including the first one that is
not wholly backed. -/
def storeWords (m : FlatMemory) (address : UInt32) : List UInt32 → FlatMemory
  | [] => m
  | value :: values =>
    let m' := m.storeBytes address (Word.bytes value)
    if m.BackedWord address then m'.storeWords (address + 4) values else m'

/-- The memory after a scripted access. -/
def after (m : FlatMemory) : Script.Access → FlatMemory
  | .writeWord address value => m.storeBytes address (Word.bytes value)
  | .writeHalf address value => m.storeBytes address [(value >>> 8).toUInt8, value.toUInt8]
  | .writeByte address value => m.storeBytes address [value]
  | .writeMasked address value mask =>
    m.storeAll address ((Word.bytes value).zip (Word.bytes mask))
  | .writeWords address values => m.storeWords address values
  | _ => m

/-- A whole byte is stored as it is. -/
@[simp] theorem blend_full (old value : UInt8) : blend old value 0xff = value := by
  have none : ~~~(0xff : UInt8) = 0 := by decide
  rw [blend, none, UInt8.and_zero, UInt8.zero_or]
  exact UInt8.and_neg_one

theorem storeBytes_append (m : FlatMemory) (address : UInt32) (first rest : List UInt8) :
    m.storeBytes address (first ++ rest)
      = (m.storeBytes address first).storeBytes (address + UInt32.ofNat first.length) rest := by
  rw [storeBytes, List.map_append, storeAll_append, List.length_map]
  rfl

/-- A byte that is backed is stored. -/
theorem getElem?_storeBytes (m : FlatMemory) (address : UInt32) (bytes : List UInt8)
    (short : bytes.length ≤ 2 ^ 29) {k : Nat} (hk : k < bytes.length)
    (backed : m.Backed (address + UInt32.ofNat k)) :
    (m.storeBytes address bytes)[offset (address + UInt32.ofNat k)]? = some bytes[k] := by
  have stored := getElem?_storeAll m address (bytes.map fun b => (b, 0xff))
    (by rwa [List.length_map]) (by rwa [List.length_map]) backed
  rw [storeBytes, stored, List.getElem_map, blend_full]

theorem getElem?_storeBytes_of_ne (m : FlatMemory) (address : UInt32) (bytes : List UInt8)
    (j : Nat) (h : ∀ k < bytes.length, m.Backed (address + UInt32.ofNat k) →
      offset (address + UInt32.ofNat k) ≠ j) :
    (m.storeBytes address bytes)[j]? = m[j]? :=
  getElem?_storeAll_of_ne m address _ j fun k hk => h k (by rwa [List.length_map] at hk)

@[simp] theorem length_storeBytes (m : FlatMemory) (address : UInt32) (bytes : List UInt8) :
    (m.storeBytes address bytes).length = m.length :=
  length_storeAll m address _

/-- And read back. -/
theorem byte_storeBytes (m : FlatMemory) (address : UInt32) (bytes : List UInt8)
    (short : bytes.length ≤ 2 ^ 29) {k : Nat} (hk : k < bytes.length)
    (backed : m.Backed (address + UInt32.ofNat k)) :
    (m.storeBytes address bytes).byte (address + UInt32.ofNat k) = bytes[k] := by
  have still := (backed_congr (length_storeBytes m address bytes) _).mpr backed
  rw [byte, if_pos still, List.getD_eq_getElem?_getD,
    getElem?_storeBytes m address bytes short hk backed, Option.getD_some]

theorem length_storeWords (m : FlatMemory) (address : UInt32) (values : List UInt32) :
    (m.storeWords address values).length = m.length := by
  induction values generalizing m address with
  | nil => rfl
  | cons value values ih =>
    rw [storeWords]
    split
    · rw [ih, length_storeBytes]
    · exact length_storeBytes m address _

/-- No access makes the memory shorter or longer. -/
theorem length_after (m : FlatMemory) (access : Script.Access) :
    (m.after access).length = m.length := by
  cases access with
  | writeWord address value => exact length_storeBytes m address _
  | writeHalf address value => exact length_storeBytes m address _
  | writeByte address value => exact length_storeBytes m address _
  | writeMasked address value mask => exact length_storeAll m address _
  | writeWords address values => exact length_storeWords m address values
  | _ => rfl

theorem length_foldl_after (m : FlatMemory) (accesses : List Script.Access) :
    (accesses.foldl after m).length = m.length := by
  induction accesses generalizing m with
  | nil => rfl
  | cons access rest ih => rw [List.foldl_cons, ih, length_after]

end FlatMemory

end Unwind
