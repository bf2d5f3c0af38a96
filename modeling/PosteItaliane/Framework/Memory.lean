import Mathlib.Algebra.Order.Ring.Int
import Mathlib.Data.Nat.Basic

/-!
# Bytes in memory

Numbers as their bytes, least significant first, and structures as bytes at fixed offsets.
A copy of some bytes to the start of a buffer replaces the fields it covers and leaves those
behind it.
-/

namespace Framework.Memory

/-- The `n` bytes of a number; what does not fit is lost. -/
def bytes : ℕ → ℕ → List UInt8
  | 0, _ => []
  | n + 1, v => UInt8.ofNat v :: bytes n (v / 256)

/-- The number with the given bytes. -/
def value : List UInt8 → ℕ
  | [] => 0
  | b :: bs => b.toNat + 256 * value bs

@[simp] theorem length_bytes (n v : ℕ) : (bytes n v).length = n := by
  induction n generalizing v with
  | zero => rfl
  | succ n ih => rw [bytes, List.length_cons, ih]

theorem value_bytes (n v : ℕ) : value (bytes n v) = v % 256 ^ n := by
  induction n generalizing v with
  | zero => rw [pow_zero, Nat.mod_one]; rfl
  | succ n ih =>
    have hhead : (UInt8.ofNat v).toNat = v % 256 := UInt8.toNat_ofNat'
    rw [bytes, value, ih, hhead, pow_succ', Nat.mod_mul]

/-- The bytes of a signed integer, in two's complement. -/
def intBytes (n : ℕ) (z : ℤ) : List UInt8 := bytes n (z % (256 ^ n : ℕ)).toNat

/-- The signed integer with the given bytes. -/
def intValue (bs : List UInt8) : ℤ := (value bs : ℤ).bmod (256 ^ bs.length)

@[simp] theorem length_intBytes (n : ℕ) (z : ℤ) : (intBytes n z).length = n := length_bytes n _

theorem intValue_intBytes (n : ℕ) (z : ℤ) : intValue (intBytes n z) = z.bmod (256 ^ n) := by
  have hpos : (0 : ℤ) < (256 ^ n : ℕ) := by exact_mod_cast Nat.pow_pos (by decide : 0 < 256)
  have hnonneg : 0 ≤ z % (256 ^ n : ℕ) := Int.emod_nonneg z hpos.ne'
  have hlt : z % (256 ^ n : ℕ) < (256 ^ n : ℕ) := Int.emod_lt_of_pos z hpos
  have hvalue : (value (intBytes n z) : ℤ) = z % (256 ^ n : ℕ) := by
    rw [intBytes, value_bytes, Nat.mod_eq_of_lt (by omega), Int.toNat_of_nonneg hnonneg]
  rw [intValue, length_intBytes, hvalue, Int.emod_bmod]

/-- The integers that `n` bytes hold. -/
def Fits (n : ℕ) (z : ℤ) : Prop := -(256 ^ n : ℕ) ≤ z * 2 ∧ z * 2 < (256 ^ n : ℕ)

instance (n : ℕ) (z : ℤ) : Decidable (Fits n z) := inferInstanceAs (Decidable (_ ∧ _))

theorem intValue_of_fits {n : ℕ} {z : ℤ} (h : Fits n z) : intValue (intBytes n z) = z := by
  rw [intValue_intBytes]
  exact Int.bmod_eq_of_le_mul_two h.1 h.2

variable {α : Type*}

/-- The buffer after some bytes are copied to its start. -/
def overwrite (new old : List α) : List α := new ++ old.drop new.length

/-- The `n` bytes at an offset. -/
def field (offset n : ℕ) (buffer : List α) : List α := (buffer.drop offset).take n

/-- A field that is covered by the copy. -/
theorem field_overwrite_new {offset n : ℕ} {new : List α} (h : offset + n ≤ new.length)
    (old : List α) : field offset n (overwrite new old) = field offset n new := by
  rw [field, field, overwrite, List.drop_append_of_le_length (by omega),
    List.take_append_of_le_length (by rw [List.length_drop]; omega)]

theorem field_overwrite_old {offset n : ℕ} {new : List α} (h : new.length ≤ offset)
    (old : List α) : field offset n (overwrite new old) = field offset n old := by
  obtain ⟨k, rfl⟩ := Nat.exists_eq_add_of_le h
  rw [field, field, overwrite, List.drop_length_add_append, List.drop_drop]

theorem field_append_left {n : ℕ} {first : List α} (h : first.length = n) (others : List α) :
    field 0 n (first ++ others) = first := by
  rw [field, List.drop_zero, List.take_append_of_le_length h.ge, List.take_of_length_le h.le]

theorem field_append_right {k n offset : ℕ} {first : List α} (h : first.length = k)
    (others : List α) : field (k + offset) n (first ++ others) = field offset n others := by
  rw [field, field, ← h, List.drop_length_add_append]

end Framework.Memory
