import Mathlib.Data.Int.CardIntervalMod
import Mathlib.Data.List.Perm.Subperm
import Mathlib.Order.Interval.Finset.Nat

/-!
# A counter that wraps, read modulo something else

A counter with `M` values starts at `c`, and its successive values `(c + i) % M` are reduced
modulo `n`.  Away from the wrap these residues run through all the classes, one after the
other.  At the wrap the counter jumps from `M - 1` to `0`, and the residue goes on as if
nothing had happened only when `n` divides `M`.

So the `n` residues that start at `c` are all different exactly when the window does not
reach the wrap or the wrap does not show (`residue_injOn_iff`).  A window that does reach it
repeats a residue: with `k` values left before the wrap and `t = M % n`, either the first
value is met again `t` places later, or the value `t` places before the wrap is met again
right after it.

Over a longer stretch the repetitions add up, one for each wrap and no more: any two residues
are met equally often up to the number of wraps and one (`tally_le`).
-/

namespace Turbine
namespace WrappingCounter

/-- The residue modulo `n` of the value that a counter modulo `M` has `i` steps after `c`. -/
def residue (M n c i : ℕ) : ℕ := (c + i) % M % n

theorem residue_lt {M n c i : ℕ} (hn : 0 < n) : residue M n c i < n := Nat.mod_lt _ hn

/-- One step of the counter. -/
theorem residue_succ (M n c i : ℕ) : residue M n ((c + 1) % M) i = residue M n c (i + 1) := by
  rw [residue, residue, Nat.mod_add_mod, Nat.add_right_comm, Nat.add_assoc]

theorem residue_zero {M c : ℕ} (n : ℕ) (hc : c < M) : residue M n c 0 = c % n := by
  rw [residue, Nat.add_zero, Nat.mod_eq_of_lt hc]

variable {M n c : ℕ}

/-- While the wrap does not show, the residues are those of consecutive numbers. -/
theorem residue_of_smooth (h : c + n ≤ M ∨ n ∣ M) {i : ℕ} (hi : i < n) :
    residue M n c i = (c + i) % n := by
  rcases h with hle | hdvd
  · have hlt : c + i < M := by omega
    rw [residue, Nat.mod_eq_of_lt hlt]
  · exact Nat.mod_mod_of_dvd _ hdvd

/-- A window across a wrap that does show has the same residue twice. -/
theorem exists_residue_eq (hn : n < M) (hc : c < M) (hwrap : M < c + n) (hdvd : ¬ n ∣ M) :
    ∃ i j, i < n ∧ j < n ∧ i ≠ j ∧ residue M n c i = residue M n c j := by
  have hn0 : 0 < n := by omega
  have ht0 : 0 < M % n := Nat.emod_pos_of_not_dvd hdvd
  have htn : M % n < n := Nat.mod_lt M hn0
  -- what is left of `M` without its remainder
  have hrest : n ∣ M - M % n := Nat.dvd_sub_mod M
  rcases Nat.lt_or_ge (M % n) (M - c) with hlt | hge
  · refine ⟨M - c - M % n, M - c, by omega, by omega, by omega, ?_⟩
    have hi : c + (M - c - M % n) = M - M % n := by omega
    have hj : c + (M - c) = M := by omega
    have hbefore : (M - M % n) % M = M - M % n := Nat.mod_eq_of_lt (by omega)
    rw [residue, residue, hi, hj, Nat.mod_self, Nat.zero_mod, hbefore]
    exact Nat.mod_eq_zero_of_dvd hrest
  · refine ⟨0, M % n, hn0, htn, by omega, ?_⟩
    obtain ⟨q, hq⟩ := hrest
    have hj : (c + M % n) % M = c + M % n - M := by
      rw [Nat.mod_eq_sub_mod (by omega), Nat.mod_eq_of_lt (by omega)]
    have hsplit : c = c + M % n - M + n * q := by omega
    rw [residue_zero n hc, residue, hj]
    conv_lhs => rw [hsplit]
    exact Nat.add_mul_mod_self_left _ _ _

/-- **When a window of residues has no repetition.** -/
theorem residue_injOn_iff (hn : n < M) (hc : c < M) :
    Set.InjOn (residue M n c) (Set.Iio n) ↔ c + n ≤ M ∨ n ∣ M := by
  constructor
  · intro hinj
    by_contra hnot
    obtain ⟨hwrap, hdvd⟩ := not_or.mp hnot
    obtain ⟨i, j, hi, hj, hne, heq⟩ := exists_residue_eq hn hc (Nat.not_le.mp hwrap) hdvd
    exact hne (hinj hi hj heq)
  · intro h i hi j hj heq
    rw [residue_of_smooth h hi, residue_of_smooth h hj] at heq
    have hmem : ∀ k, k < n → c + k ∈ Finset.Ico c (c + n) := by
      intro k hk
      exact Finset.mem_Ico.mpr ⟨by omega, by omega⟩
    exact Nat.add_left_cancel (Nat.mod_injOn_Ico c n (hmem i hi) (hmem j hj) heq)

/-- Of `n` numbers below `n`, each one occurs once if and only if none is repeated. -/
theorem count_eq_one_iff_nodup {l : List ℕ} (hlen : l.length = n) (hlt : ∀ p ∈ l, p < n) :
    (∀ p, p < n → l.count p = 1) ↔ l.Nodup := by
  constructor
  · intro h
    refine List.nodup_iff_count_le_one.mpr fun p => ?_
    rcases Nat.lt_or_ge p n with hp | hp
    · exact (h p hp).le
    · rw [List.count_eq_zero.mpr fun hmem => absurd (hlt p hmem) (by omega)]
      exact Nat.zero_le 1
  · intro hnodup p hp
    have hsub : l ⊆ List.range n := fun q hq => List.mem_range.mpr (hlt q hq)
    have hperm : l.Perm (List.range n) :=
      (List.subperm_of_subset hnodup hsub).perm_of_length_le (by simp [hlen])
    exact List.count_eq_one_of_mem hnodup (hperm.mem_iff.mpr (List.mem_range.mpr hp))

/-- **When a window of residues has each one once.** -/
theorem count_residues_eq_one_iff (hn0 : 0 < n) (hn : n < M) (hc : c < M) :
    (∀ p, p < n → ((List.range n).map (residue M n c)).count p = 1) ↔ c + n ≤ M ∨ n ∣ M := by
  rw [← residue_injOn_iff hn hc, count_eq_one_iff_nodup (by simp)]
  · rw [List.nodup_map_iff_inj_on List.nodup_range]
    simp only [List.mem_range, Set.InjOn, Set.mem_Iio]
  · intro p hp
    obtain ⟨i, -, rfl⟩ := List.mem_map.mp hp
    exact residue_lt hn0

/-! ## Long stretches -/

/-- How often `p` is among the residues of the first `k` values from `c` on. -/
def tally (M n c k p : ℕ) : ℕ := Nat.count (fun i => residue M n c i = p) k

theorem tally_succ (M n c k p : ℕ) :
    tally M n c (k + 1) p = tally M n c k p + if residue M n c k = p then 1 else 0 :=
  Nat.count_succ _ _

/-- A predicate with period `M` is met equally often in each period. -/
theorem count_of_periodic {P : ℕ → Prop} [DecidablePred P] (hP : ∀ x, P (M + x) ↔ P x) (q r : ℕ) :
    Nat.count P (q * M + r) = q * Nat.count P M + Nat.count P r := by
  induction q with
  | zero => simp
  | succ q ih =>
    have hsplit : (q + 1) * M + r = M + (q * M + r) := by ring
    rw [hsplit, Nat.count_add]
    simp only [hP]
    rw [ih]
    ring

theorem count_congr_lt {P Q : ℕ → Prop} [DecidablePred P] [DecidablePred Q] {x : ℕ}
    (h : ∀ y, y < x → (P y ↔ Q y)) : Nat.count P x = Nat.count Q x := by
  induction x with
  | zero => rfl
  | succ x ih =>
    rw [Nat.count_succ, Nat.count_succ, ih fun y hy => h y (by omega)]
    simp only [h x (by omega)]

/-- The numbers below `x`, at most `M`, whose residue is `p`. -/
theorem count_residue_of_le {p x : ℕ} (hp : p < n) (hx : x ≤ M) :
    Nat.count (fun y => y % M % n = p) x = x / n + if p < x % n then 1 else 0 := by
  have hn : 0 < n := by omega
  have hmod : Nat.count (fun y => y % M % n = p) x = Nat.count (· ≡ p [MOD n]) x := by
    refine count_congr_lt fun y hy => ?_
    rw [Nat.mod_eq_of_lt (Nat.lt_of_lt_of_le hy hx), Nat.ModEq, Nat.mod_eq_of_lt hp]
  rw [hmod, Nat.count_modEq_card x hn, Nat.mod_eq_of_lt hp]

theorem count_residue {p : ℕ} (hp : p < n) (hM : 0 < M) (x : ℕ) :
    Nat.count (fun y => y % M % n = p) x =
      x / M * (M / n + if p < M % n then 1 else 0) +
        (x % M / n + if p < x % M % n then 1 else 0) := by
  have hx : x / M * M + x % M = x := Nat.div_add_mod' x M
  conv_lhs => rw [← hx]
  rw [count_of_periodic (fun y => by rw [Nat.add_mod_left]), count_residue_of_le hp (Nat.le_refl M),
    count_residue_of_le hp (Nat.mod_lt x hM).le]

/-- Passing two bounds, `p` gains on `q` at most once. -/
theorem indicator_le (p q a b : ℕ) :
    (if p < a then 1 else 0) + (if q < b then 1 else 0) ≤
      (if q < a then 1 else 0) + (if p < b then 1 else 0) + 1 := by
  split_ifs <;> omega

/-- **How uneven the residues can be.**  Among the first `k` values from `c` on, two residues
are met equally often, up to one and to the number of wraps. -/
theorem tally_le {k p q : ℕ} (hc : c < M) (hp : p < n) (hq : q < n) :
    tally M n c k p ≤ tally M n c k q + (c + k) / M + 1 := by
  have hM : 0 < M := by omega
  have hcount : ∀ r, r < n → (c + k) / M * (M / n) +
      (c + k) / M * (if r < M % n then 1 else 0) +
        ((c + k) % M / n + if r < (c + k) % M % n then 1 else 0) =
      (c / n + if r < c % n then 1 else 0) + tally M n c k r := by
    intro r hr
    have hsplit : Nat.count (fun y => y % M % n = r) (c + k) =
        Nat.count (fun y => y % M % n = r) c + tally M n c k r := Nat.count_add _ _ _
    rwa [count_residue hr hM, count_residue_of_le hr hc.le, Nat.mul_add] at hsplit
  have hwraps : (c + k) / M * (if p < M % n then 1 else 0) ≤ (c + k) / M := by
    split_ifs <;> simp
  have hends := indicator_le p q ((c + k) % M % n) (c % n)
  have hp' := hcount p hp
  have hq' := hcount q hq
  -- what is left is linear in the five terms of each count
  generalize (c + k) / M * (M / n) = full at hp' hq'
  generalize (c + k) / M * (if p < M % n then 1 else 0) = wp at hp' hwraps
  generalize (c + k) / M * (if q < M % n then 1 else 0) = wq at hq'
  generalize (c + k) / M = wraps at hwraps ⊢
  generalize (c + k) % M / n = last at hp' hq'
  generalize c / n = before at hp' hq'
  omega

end WrappingCounter
end Turbine
