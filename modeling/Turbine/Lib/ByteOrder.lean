import Mathlib.Data.Nat.Notation

/-!
# Words and their bytes

A word of 32 bits and the four bytes it has in memory, on machines of either byte order.
What has the most significant byte first is in *network order*; `toBe` rearranges a word so
that its bytes in memory are in network order, and does nothing on a big-endian machine.

One identity ties the two ways in which bytes from the network become words
(`toBe_fromBeBytes`): to read four bytes as a number and then to put that number into
network order is to take the four bytes as they lie in memory.
-/

namespace Turbine
namespace ByteOrder

/-- The byte order of a machine. -/
inductive Endian where
  | little
  | big
  deriving DecidableEq

/-- The byte with weight `256 ^ i`. -/
def byte {w : ℕ} (x : BitVec w) (i : ℕ) : BitVec 8 := x.extractLsb' (8 * i) 8

/-- The word with these bytes, the most significant one first. -/
def fromBeBytes (a b c d : BitVec 8) : BitVec 32 := a ++ b ++ c ++ d

/-- The word with these bytes, the least significant one first. -/
def fromLeBytes (a b c d : BitVec 8) : BitVec 32 := fromBeBytes d c b a

/-- The word that has these bytes in memory. -/
def fromNeBytes : Endian → BitVec 8 → BitVec 8 → BitVec 8 → BitVec 8 → BitVec 32
  | .little => fromLeBytes
  | .big => fromBeBytes

def swapBytes (x : BitVec 32) : BitVec 32 := fromLeBytes (byte x 3) (byte x 2) (byte x 1) (byte x 0)

/-- The word whose bytes in memory are those of `x` in network order. -/
def toBe (e : Endian) (x : BitVec 32) : BitVec 32 :=
  match e with
  | .little => swapBytes x
  | .big => x

section

variable (a b c d : BitVec 8)

@[simp] theorem byte_zero_fromBeBytes : byte (fromBeBytes a b c d) 0 = d :=
  BitVec.extractLsb'_append_eq_right

@[simp] theorem byte_one_fromBeBytes : byte (fromBeBytes a b c d) 1 = c := by
  rw [byte, fromBeBytes, BitVec.extractLsb'_append_eq_of_le (by decide)]
  exact BitVec.extractLsb'_append_eq_right

@[simp] theorem byte_two_fromBeBytes : byte (fromBeBytes a b c d) 2 = b := by
  rw [byte, fromBeBytes, BitVec.extractLsb'_append_eq_of_le (by decide),
    BitVec.extractLsb'_append_eq_of_le (by decide)]
  exact BitVec.extractLsb'_append_eq_right

@[simp] theorem byte_three_fromBeBytes : byte (fromBeBytes a b c d) 3 = a := by
  rw [byte, fromBeBytes, BitVec.extractLsb'_append_eq_of_le (by decide),
    BitVec.extractLsb'_append_eq_of_le (by decide)]
  exact BitVec.extractLsb'_append_eq_left

/-- **Reading in network order and writing in network order.** -/
theorem toBe_fromBeBytes (e : Endian) :
    toBe e (fromBeBytes a b c d) = fromNeBytes e a b c d := by
  cases e with
  | little => simp only [toBe, swapBytes, byte_zero_fromBeBytes, byte_one_fromBeBytes,
      byte_two_fromBeBytes, byte_three_fromBeBytes, fromNeBytes]
  | big => rfl

end

/-- The two bytes of a number of 16 bits, as a word. -/
theorem fromBeBytes_half (x : BitVec 16) :
    fromBeBytes 0 0 (byte x 1) (byte x 0) = x.zeroExtend 32 := by
  refine BitVec.eq_of_getLsbD_eq fun i hi => ?_
  simp only [fromBeBytes, byte, BitVec.getLsbD_append, BitVec.getLsbD_extractLsb',
    BitVec.getLsbD_setWidth]
  -- the two bytes of `x`, and then the zeros
  rcases Nat.lt_or_ge i 8 with hlow | hhigh
  · simp [hlow, hi]
  · have hlow : ¬ i < 8 := Nat.not_lt.mpr hhigh
    rcases Nat.lt_or_ge i 16 with hmid | htop
    · have hbit : i - 8 < 8 := by omega
      have hpos : 8 + (i - 8) = i := by omega
      simp [hlow, hbit, hpos, hi]
    · have hbit : ¬ i - 8 < 8 := by omega
      simp [hlow, hbit, BitVec.getLsbD_of_ge x i htop]

end ByteOrder
end Turbine
