import Mathlib.Data.List.Range
import Mathlib.Data.Nat.ModEq
import Mathlib.Data.UInt

/-!
# Counters kept as bytes

A counter of `k` bytes in network order, and the increment that carries from the last byte to
the first.  A machine word written with its most significant byte first is such a counter, and
`increment_bytes` says that to write `n` and to increment is to write `n + 1`; the carry that
leaves the first byte tells that the counter has come round to zero.
-/

namespace Turbine
namespace BigEndian

/-- The `k` low bytes of `n`, the most significant one first. -/
def bytes : ℕ → ℕ → List UInt8
  | 0, _ => []
  | k + 1, n => UInt8.ofNat (n / 256 ^ k) :: bytes k n

/-- One more, and whether the carry leaves the first byte. -/
def increment : List UInt8 → List UInt8 × Bool
  | [] => ([], true)
  | b :: bs =>
      if (increment bs).2 then ((b + 1) :: (increment bs).1, b + 1 == 0)
      else (b :: (increment bs).1, false)

theorem ofNat_eq_zero_iff (n : ℕ) : UInt8.ofNat n = 0 ↔ 256 ∣ n := by
  rw [← UInt8.toNat_inj, UInt8.toNat_ofNat', Nat.dvd_iff_mod_eq_zero]
  rfl

/-- **To increment the bytes of a number is to write the next one.** -/
theorem increment_bytes (k n : ℕ) :
    increment (bytes k n) = (bytes k (n + 1), decide (256 ^ k ∣ n + 1)) := by
  induction k with
  | zero => simp [bytes, increment]
  | succ k ih =>
    have hquot : (n + 1) / 256 ^ k = n / 256 ^ k + if 256 ^ k ∣ n + 1 then 1 else 0 :=
      Nat.succ_div
    rw [bytes, bytes, increment, ih]
    by_cases hcarry : 256 ^ k ∣ n + 1
    · rw [if_pos hcarry] at hquot
      have hfirst : UInt8.ofNat (n / 256 ^ k) + 1 = UInt8.ofNat ((n + 1) / 256 ^ k) := by
        rw [hquot, UInt8.ofNat_add]
        rfl
      have hzero : (UInt8.ofNat ((n + 1) / 256 ^ k) == 0) = decide (256 ^ (k + 1) ∣ n + 1) := by
        rw [Bool.eq_iff_iff, beq_iff_eq, ofNat_eq_zero_iff, decide_eq_true_iff, pow_succ]
        exact Nat.dvd_div_iff_mul_dvd hcarry
      rw [if_pos (by simpa using hcarry), hfirst, hzero]
    · simp only [if_neg hcarry, Nat.add_zero] at hquot
      have hnot : ¬ 256 ^ (k + 1) ∣ n + 1 := fun h =>
        hcarry ((pow_dvd_pow 256 (Nat.le_succ k)).trans h)
      rw [if_neg (by simpa using hcarry), hquot, decide_eq_false hnot]

/-- The bytes determine the number, as far as they hold it. -/
theorem mod_eq_of_bytes_eq {k m n : ℕ} (h : bytes k m = bytes k n) :
    m % 256 ^ k = n % 256 ^ k := by
  induction k with
  | zero => rw [pow_zero, Nat.mod_one, Nat.mod_one]
  | succ k ih =>
    obtain ⟨hfirst, hrest⟩ := List.cons.inj h
    have hquot : m / 256 ^ k % 256 = n / 256 ^ k % 256 := by
      have htoNat := congrArg UInt8.toNat hfirst
      rwa [UInt8.toNat_ofNat', UInt8.toNat_ofNat'] at htoNat
    rw [pow_succ, Nat.mod_mul, Nat.mod_mul, ih hrest, hquot]

/-- Numbers that fit have different bytes. -/
theorem bytes_inj {k m n : ℕ} (hm : m < 256 ^ k) (hn : n < 256 ^ k) :
    bytes k m = bytes k n ↔ m = n := by
  refine ⟨fun h => ?_, fun h => by rw [h]⟩
  have hmod := mod_eq_of_bytes_eq h
  rwa [Nat.mod_eq_of_lt hm, Nat.mod_eq_of_lt hn] at hmod

/-- The first numbers are all different, as long as they fit. -/
theorem nodup_map_bytes {k n : ℕ} (hn : n ≤ 256 ^ k) : ((List.range n).map (bytes k)).Nodup := by
  refine List.Nodup.map_on ?_ List.nodup_range
  intro a ha b hb heq
  have ha' : a < 256 ^ k := lt_of_lt_of_le (List.mem_range.mp ha) hn
  have hb' : b < 256 ^ k := lt_of_lt_of_le (List.mem_range.mp hb) hn
  exact (bytes_inj ha' hb').mp heq

end BigEndian
end Turbine
