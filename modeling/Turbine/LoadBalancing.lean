import Turbine.Config.Types
import Turbine.Lib.WrappingCounter

/-!
# Picking a backend

`pick_backend` takes its turn with one `fetch_add` on the upstream's counter and reduces the
value it found modulo the number of backends.  The counter is an `AtomicUsize` and wraps at
`2 ^ w`, for a pointer of `w` bits.  All the connections of an upstream share it, and since
the `fetch_add` is all they share, the order of the picks is the order of the `fetch_add`s:
a sequence of picks is a sequence of calls, whoever makes them.

`Random` does not draw a number: it takes the nanoseconds of the current second, from a clock
that may have been set to a time before the epoch.  Then `duration_since` fails, and the
`unwrap` behind it panics.

A reference `&Backend` is kept as the position it points to and the backend there, since two
positions of the list may hold the same address and round-robin is about positions.
-/

namespace Turbine

namespace NonEmpty

variable {α : Type}

/-- `NonEmpty::len`. -/
def len (l : NonEmpty α) : ℕ := l.tail.length + 1

/-- `NonEmpty::index`: a reference to the element at position `i`; it panics (`none`) when
there is none. -/
def index (l : NonEmpty α) (i : ℕ) : Option (ℕ × α) := l.toList[i]?.map fun a => (i, a)

theorem len_pos (l : NonEmpty α) : 0 < l.len := Nat.succ_pos _

theorem index_of_lt {l : NonEmpty α} {i : ℕ} (h : i < l.len) : ∃ a, l.index i = some (i, a) := by
  have hlen : i < l.toList.length := h
  exact ⟨l.toList[i], by rw [index, List.getElem?_eq_getElem hlen, Option.map_some]⟩

end NonEmpty

namespace LoadBalancingStrategy

open WrappingCounter

/-- `LoadBalancingStrategy::pick_backend`, on a machine whose pointers have `w` bits.  `now` is
what `Random` finds on the clock: the nanoseconds of the current second, or `none` if it shows
a time before the epoch.  The result is `none` if the call panics. -/
def pickBackend (w : ℕ) (strategy : LoadBalancingStrategy) (now : Option ℕ)
    (backends : NonEmpty Backend) : Option (ℕ × Backend) × LoadBalancingStrategy :=
  match strategy, now with
  | .roundRobin ix, _ => (backends.index (ix % backends.len), .roundRobin ((ix + 1) % 2 ^ w))
  | .random, none => (none, .random)
  | .random, some nanos =>
      let random := nanos % 2 ^ w
      (backends.index (random % backends.len), .random)

/-- **A pick is a reference to a backend of the list, or `Random` has found the clock before
the epoch.** -/
theorem pickBackend_cases (w : ℕ) (strategy : LoadBalancingStrategy) (now : Option ℕ)
    (backends : NonEmpty Backend) :
    (∃ b backend, (strategy.pickBackend w now backends).1 = some (b, backend) ∧
        backends.index b = some (b, backend)) ∨
      ((strategy.pickBackend w now backends).1 = none ∧ strategy = .random ∧ now = none) := by
  match strategy, now with
  | .roundRobin ix, _ =>
    obtain ⟨backend, hb⟩ := NonEmpty.index_of_lt (Nat.mod_lt ix backends.len_pos)
    exact Or.inl ⟨_, backend, hb, hb⟩
  | .random, none => exact Or.inr ⟨rfl, rfl, rfl⟩
  | .random, some nanos =>
    obtain ⟨backend, hb⟩ := NonEmpty.index_of_lt (Nat.mod_lt (nanos % 2 ^ w) backends.len_pos)
    exact Or.inl ⟨_, backend, hb, hb⟩

/-- A pick does not change which strategy it is. -/
theorem pickBackend_random_iff (w : ℕ) (strategy : LoadBalancingStrategy) (now : Option ℕ)
    (backends : NonEmpty Backend) :
    (strategy.pickBackend w now backends).2 = .random ↔ strategy = .random := by
  match strategy, now with
  | .roundRobin ix, _ => simp [pickBackend]
  | .random, none => simp [pickBackend]
  | .random, some nanos => simp [pickBackend]

/-- One pick after the other; the clock is read anew by each of them. -/
def picks (w : ℕ) (backends : NonEmpty Backend) :
    LoadBalancingStrategy → List (Option ℕ) → List (Option (ℕ × Backend))
  | _, [] => []
  | strategy, now :: clocks =>
      (strategy.pickBackend w now backends).1 ::
        picks w backends (strategy.pickBackend w now backends).2 clocks

/-- Round-robin does not panic, whatever the clock shows. -/
theorem ne_none_of_mem_picks {w : ℕ} {backends : NonEmpty Backend} {c : ℕ}
    {clocks : List (Option ℕ)} {r : Option (ℕ × Backend)}
    (h : r ∈ picks w backends (.roundRobin c) clocks) : r ≠ none := by
  induction clocks generalizing c with
  | nil => exact absurd h List.not_mem_nil
  | cons now clocks ih =>
    rcases List.mem_cons.mp h with rfl | htail
    · rcases pickBackend_cases w (.roundRobin c) now backends with
        ⟨b, backend, hpick, -⟩ | ⟨-, hrandom, -⟩
      · rw [hpick]
        exact Option.some_ne_none _
      · exact absurd hrandom (by simp)
    · exact ih htail

/-- The positions that round-robin picks are the residues of a wrapping counter. -/
theorem positions_picks {w : ℕ} {backends : NonEmpty Backend} {c : ℕ} (hc : c < 2 ^ w)
    (clocks : List (Option ℕ)) :
    (picks w backends (.roundRobin c) clocks).map (Option.map Prod.fst) =
      (List.range clocks.length).map (fun i => some (residue (2 ^ w) backends.len c i)) := by
  induction clocks generalizing c with
  | nil => rfl
  | cons now clocks ih =>
    obtain ⟨b, hb⟩ := NonEmpty.index_of_lt (Nat.mod_lt c backends.len_pos)
    have hnext : (c + 1) % 2 ^ w < 2 ^ w := Nat.mod_lt _ (Nat.two_pow_pos w)
    rw [picks, List.map_cons, pickBackend, hb, ih hnext, List.length_cons, List.range_succ_eq_map,
      List.map_cons, List.map_map, residue_zero _ hc]
    simp only [residue_succ]
    rfl

/-- **Round-robin is fair exactly where the wrap does not show.**  For every pointer width,
every list of backends shorter than `2 ^ w`, every value of the counter and whatever the clock
shows: as many picks in a row as there are backends stay in bounds, and they pick each position
exactly once if and only if the counter does not wrap among them or the number of backends
divides `2 ^ w`. -/
theorem fair_iff (w : ℕ) (backends : NonEmpty Backend) (hn : backends.len < 2 ^ w) (c : ℕ)
    (hc : c < 2 ^ w) (clocks : List (Option ℕ)) (hclocks : clocks.length = backends.len) :
    (∀ r ∈ picks w backends (.roundRobin c) clocks, r ≠ none) ∧
      ((∀ p, p < backends.len →
          ((picks w backends (.roundRobin c) clocks).map (Option.map Prod.fst)).count
            (some p) = 1) ↔
        c + backends.len ≤ 2 ^ w ∨ backends.len ∣ 2 ^ w) := by
  refine ⟨fun r => ne_none_of_mem_picks, ?_⟩
  rw [← count_residues_eq_one_iff backends.len_pos hn hc, positions_picks hc, hclocks]
  have hsome : (List.range backends.len).map (fun i => some (residue (2 ^ w) backends.len c i)) =
      ((List.range backends.len).map (residue (2 ^ w) backends.len c)).map some := by
    rw [List.map_map]
    rfl
  rw [hsome]
  simp only [List.count_map_of_injective _ some (Option.some_injective ℕ)]

/-- Three backends, two of them at the same address. -/
def threeBackends : NonEmpty Backend :=
  ⟨⟨.v4 1 80⟩, [⟨.v4 1 81⟩, ⟨.v4 1 80⟩]⟩

/-- A counter of 64 bits and three backends: fair from `5`, and across the wrap the first
position is picked twice. -/
theorem fair_iff_threeBackends :
    (∀ p, p < 3 →
        ((picks 64 threeBackends (.roundRobin 5) [none, some 0, none]).map
          (Option.map Prod.fst)).count (some p) = 1) ∧
      (picks 64 threeBackends (.roundRobin 18446744073709551615) [none, some 0, none]).map
        (Option.map Prod.fst) = [some 0, some 0, some 1] ∧
      ¬ (18446744073709551615 + 3 ≤ 2 ^ 64 ∨ 3 ∣ 2 ^ 64) := by
  have hfair := (fair_iff 64 threeBackends (by decide) 5 (by decide) [none, some 0, none] rfl).2
  have hwrap := (fair_iff 64 threeBackends (by decide) 18446744073709551615 (by decide)
    [none, some 0, none] rfl).2
  exact ⟨hfair.mpr (by decide), by decide, fun h => absurd (hwrap.mpr h 0 (by decide)) (by decide)⟩

end LoadBalancingStrategy
end Turbine
