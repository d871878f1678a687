import Mathlib.Data.List.Induction

/-!
# Runs of a labelled step function

A system is given by one function `step : σ → α → Option σ`: the state it is in,
the label of the step taken, and the state it moves to --- or `none` when that
label is not enabled there.  All the nondeterminism sits in the labels, so a run
is just the list of its labels, and a concrete run can be evaluated.

The two rules every later invariant goes through are here.  `run_induction` is
induction on a run from its last step, with the labels so far in view, which is
what a statement about the history of a run needs.  `run_invariant_of_allowed`
is the rule for a property that only survives the runs all of whose steps meet a
side condition: the condition is asked of each step in the state it is taken in,
and nothing else about the run is used.
-/

namespace Turbine
namespace Runs

variable {σ α : Type*}

/-- The state after the steps labelled `as`, or `none` as soon as one of them is
not enabled. -/
def run (step : σ → α → Option σ) : σ → List α → Option σ
  | s, [] => some s
  | s, a :: as => (step s a).bind fun t => run step t as

theorem run_cons (step : σ → α → Option σ) (s : σ) (a : α) (as : List α) :
    run step s (a :: as) = (step s a).bind fun t => run step t as := rfl

theorem run_append (step : σ → α → Option σ) (s : σ) (as bs : List α) :
    run step s (as ++ bs) = (run step s as).bind fun t => run step t bs := by
  induction as generalizing s with
  | nil => rfl
  | cons a as ih =>
    rw [List.cons_append, run_cons, run_cons]
    cases step s a with
    | none => rfl
    | some t => exact ih t

theorem run_append_eq_some {step : σ → α → Option σ} {s u : σ} {as bs : List α} :
    run step s (as ++ bs) = some u ↔
      ∃ t, run step s as = some t ∧ run step t bs = some u := by
  rw [run_append, Option.bind_eq_some_iff]

theorem run_cons_eq_some {step : σ → α → Option σ} {s u : σ} {a : α} {as : List α} :
    run step s (a :: as) = some u ↔ ∃ t, step s a = some t ∧ run step t as = some u := by
  rw [run_cons, Option.bind_eq_some_iff]

theorem run_singleton (step : σ → α → Option σ) (s : σ) (a : α) :
    run step s [a] = step s a := by
  rw [run_cons]
  cases step s a <;> rfl

theorem run_snoc_eq_some {step : σ → α → Option σ} {s u : σ} {as : List α} {a : α} :
    run step s (as ++ [a]) = some u ↔ ∃ t, run step s as = some t ∧ step t a = some u := by
  rw [run_append_eq_some]
  simp only [run_singleton]

/-- **Induction on a run, from its last step.**  The labels so far are part of the
motive, so it may speak about the history and not only about the state. -/
theorem run_induction {step : σ → α → Option σ} {s₀ : σ} {motive : List α → σ → Prop}
    (nil : motive [] s₀)
    (snoc : ∀ as a s t, run step s₀ as = some s → motive as s → step s a = some t →
      motive (as ++ [a]) t)
    {as : List α} {s : σ} (h : run step s₀ as = some s) : motive as s := by
  induction as using List.reverseRecOn generalizing s with
  | nil =>
    rw [← Option.some.inj h]
    exact nil
  | append_singleton as a ih =>
    obtain ⟨t, ht, hs⟩ := run_snoc_eq_some.mp h
    exact snoc _ _ _ _ ht (ih ht) hs

/-- The ways to cut a run that is one step longer: at its last step, or where the
shorter run can be cut. -/
theorem eq_append_cons_snoc {as pre post : List α} {a b : α}
    (h : as ++ [b] = pre ++ a :: post) :
    (pre = as ∧ a = b) ∨ ∃ post', as = pre ++ a :: post' := by
  rcases List.eq_nil_or_concat post with rfl | ⟨post', x, rfl⟩
  · obtain ⟨rfl, hb⟩ := List.append_inj' h rfl
    exact Or.inl ⟨rfl, (List.singleton_inj.mp hb).symm⟩
  · rw [List.concat_eq_append, ← List.cons_append, ← List.append_assoc] at h
    exact Or.inr ⟨post', (List.append_inj' h rfl).1⟩

/-- A property of the first state that every step preserves holds all along. -/
theorem run_invariant {step : σ → α → Option σ} {I : σ → Prop} {s₀ : σ} (h₀ : I s₀)
    (hstep : ∀ s a t, I s → step s a = some t → I t) {as : List α} {s : σ}
    (h : run step s₀ as = some s) : I s :=
  run_induction (motive := fun _ s => I s) h₀ (fun _ a s t _ hI hs => hstep s a t hI hs) h

/-- If every label is enabled in the states with a property that every step preserves, then
every list of labels is a run. -/
theorem exists_run_of_invariant {step : σ → α → Option σ} {I : σ → Prop}
    (hstep : ∀ s a, I s → ∃ t, step s a = some t ∧ I t) (as : List α) {s : σ} (hs : I s) :
    ∃ t, run step s as = some t ∧ I t := by
  induction as generalizing s with
  | nil => exact ⟨s, rfl, hs⟩
  | cons a as ih =>
    obtain ⟨t, ht, hI⟩ := hstep s a hs
    obtain ⟨u, hu, hIu⟩ := ih hI
    exact ⟨u, run_cons_eq_some.mpr ⟨t, ht, hu⟩, hIu⟩

/-- **Simulation.**  If every step of one system is matched by a run of another one between
the images of its states, then so is every run. -/
theorem run_simulation {σ' α' : Type*} {step : σ → α → Option σ} {step' : σ' → α' → Option σ'}
    {f : σ → σ'} (h : ∀ s a t, step s a = some t → ∃ bs, run step' (f s) bs = some (f t))
    {s t : σ} {as : List α} (hrun : run step s as = some t) :
    ∃ bs, run step' (f s) bs = some (f t) := by
  induction as generalizing s with
  | nil =>
    obtain rfl := Option.some.inj hrun
    exact ⟨[], rfl⟩
  | cons a as ih =>
    obtain ⟨u, hu, hrest⟩ := run_cons_eq_some.mp hrun
    obtain ⟨bs, hbs⟩ := h s a u hu
    obtain ⟨cs, hcs⟩ := ih hrest
    exact ⟨bs ++ cs, run_append_eq_some.mpr ⟨f u, hbs, hcs⟩⟩

/-- Every step of the run labelled `as` from `s₀` is taken in a state in which `G`
allows its label. -/
def Allowed (step : σ → α → Option σ) (G : σ → α → Prop) (s₀ : σ) (as : List α) : Prop :=
  ∀ pre a post s, as = pre ++ a :: post → run step s₀ pre = some s → G s a

theorem Allowed.nil {step : σ → α → Option σ} {G : σ → α → Prop} {s₀ : σ} :
    Allowed step G s₀ [] := by
  intro pre a post s heq
  exact absurd heq (by simp)

theorem allowed_cons {step : σ → α → Option σ} {G : σ → α → Prop} {s : σ} {a : α}
    {as : List α} :
    Allowed step G s (a :: as) ↔ G s a ∧ ∀ t, step s a = some t → Allowed step G t as := by
  constructor
  · intro h
    refine ⟨h [] a as s rfl rfl, fun t ht pre b post u heq hu => ?_⟩
    refine h (a :: pre) b post u (congrArg (a :: ·) heq) ?_
    rw [run_cons, ht]
    exact hu
  · rintro ⟨ha, has⟩ pre b post u heq hu
    cases pre with
    | nil =>
      obtain ⟨rfl, -⟩ := List.cons.inj heq
      obtain rfl := Option.some.inj hu
      exact ha
    | cons c pre =>
      obtain ⟨rfl, hpost⟩ := List.cons.inj heq
      obtain ⟨t, ht, hu'⟩ := run_cons_eq_some.mp hu
      exact has t ht pre b post u hpost hu'

/-- For a run that is written down: each step is allowed and leads to the next state. -/
theorem Allowed.cons {step : σ → α → Option σ} {G : σ → α → Prop} {s t : σ} {a : α}
    {as : List α} (ha : G s a) (ht : step s a = some t) (has : Allowed step G t as) :
    Allowed step G s (a :: as) := by
  refine allowed_cons.mpr ⟨ha, fun t' ht' => ?_⟩
  obtain rfl := Option.some.inj (ht.symm.trans ht')
  exact has

/-- Whether a run is allowed can be computed along it. -/
instance decidableAllowed {step : σ → α → Option σ} {G : σ → α → Prop}
    [∀ s a, Decidable (G s a)] : ∀ (s : σ) (as : List α), Decidable (Allowed step G s as)
  | _, [] => isTrue .nil
  | s, a :: as =>
      match ht : step s a with
      | none => decidable_of_iff (G s a) (by simp [allowed_cons, ht])
      | some t =>
          have : Decidable (Allowed step G t as) := decidableAllowed t as
          decidable_of_iff (G s a ∧ Allowed step G t as) (by simp [allowed_cons, ht])

theorem Allowed.of_append {step : σ → α → Option σ} {G : σ → α → Prop} {s₀ : σ}
    {as bs : List α} (h : Allowed step G s₀ (as ++ bs)) : Allowed step G s₀ as := by
  intro pre a post s heq hs
  refine h pre a (post ++ bs) s ?_ hs
  rw [heq, List.append_assoc, List.cons_append]

theorem Allowed.last {step : σ → α → Option σ} {G : σ → α → Prop} {s₀ s : σ}
    {as : List α} {a : α} (h : Allowed step G s₀ (as ++ [a])) (hs : run step s₀ as = some s) :
    G s a :=
  h as a [] s rfl hs

theorem allowed_snoc {step : σ → α → Option σ} {G : σ → α → Prop} {s₀ s : σ} {as : List α}
    {a : α} (hs : run step s₀ as = some s) :
    Allowed step G s₀ (as ++ [a]) ↔ Allowed step G s₀ as ∧ G s a := by
  refine ⟨fun h => ⟨h.of_append, h.last hs⟩, ?_⟩
  rintro ⟨has, ha⟩ pre b post t heq ht
  rcases eq_append_cons_snoc heq with ⟨rfl, rfl⟩ | ⟨post', rfl⟩
  · obtain rfl := Option.some.inj (hs.symm.trans ht)
    exact ha
  · exact has pre b post' t rfl ht

/-- **The invariant rule for guarded runs.**  A property that every allowed step
preserves holds along every run all of whose steps are allowed. -/
theorem run_invariant_of_allowed {step : σ → α → Option σ} {G : σ → α → Prop} {I : σ → Prop}
    {s₀ : σ} (h₀ : I s₀) (hstep : ∀ s a t, I s → G s a → step s a = some t → I t)
    {as : List α} {s : σ} (hG : Allowed step G s₀ as) (h : run step s₀ as = some s) : I s := by
  refine run_induction (motive := fun as s => Allowed step G s₀ as → I s) (fun _ => h₀) ?_ h hG
  intro as a s t hs ih ht hG
  exact hstep s a t (ih hG.of_append) (hG.last hs) ht

theorem allowed_of_forall_mem {step : σ → α → Option σ} {P : α → Prop} {s₀ : σ} {as : List α}
    (h : ∀ a ∈ as, P a) : Allowed step (fun _ a => P a) s₀ as := by
  rintro pre a post s rfl -
  exact h a (List.mem_append_right _ List.mem_cons_self)

theorem Allowed.and {step : σ → α → Option σ} {G H : σ → α → Prop} {s₀ : σ} {as : List α}
    (hG : Allowed step G s₀ as) (hH : Allowed step H s₀ as) :
    Allowed step (fun s a => G s a ∧ H s a) s₀ as :=
  fun pre a post s heq hs => ⟨hG pre a post s heq hs, hH pre a post s heq hs⟩

/-- What one condition says about a step in the states that an invariant leaves, it says
about the steps of a run that meets the condition. -/
theorem Allowed.imp {step : σ → α → Option σ} {G H : σ → α → Prop} {I : σ → Prop} {s₀ : σ}
    (h₀ : I s₀) (hstep : ∀ s a t, I s → G s a → step s a = some t → I t)
    (himp : ∀ s a, I s → G s a → H s a) {as : List α} (hG : Allowed step G s₀ as) :
    Allowed step H s₀ as := by
  rintro pre a post s rfl hs
  have hI : I s := run_invariant_of_allowed h₀ hstep hG.of_append hs
  exact himp s a hI (hG pre a post s rfl hs)

/-- **The exact condition on runs.**  If a step keeps `P` precisely when it is allowed, and
no step brings `P` back, then `P` holds at the end of precisely the runs all of whose steps
are allowed.  `I` is what holds in any case. -/
theorem run_iff_allowed {step : σ → α → Option σ} {G : σ → α → Prop} {I P : σ → Prop} {s₀ : σ}
    (hI₀ : I s₀) (hP₀ : P s₀) (hI : ∀ s a t, I s → step s a = some t → I t)
    (hP : ∀ s a t, I s → step s a = some t → (P t ↔ P s ∧ G s a)) {as : List α} {s : σ}
    (h : run step s₀ as = some s) : P s ↔ Allowed step G s₀ as := by
  refine run_induction (motive := fun as s => P s ↔ Allowed step G s₀ as)
    (iff_of_true hP₀ .nil) ?_ h
  intro as a s t hs ih ht
  rw [hP s a t (run_invariant hI₀ hI hs) ht, allowed_snoc hs, ih]

/-- **The exact condition on all that is reached.**  If every label is enabled everywhere,
and a step from a state with `P` keeps `P` precisely when it is allowed, then `P` holds in
every state reached precisely when it holds in the first one and all steps are allowed. -/
theorem reached_iff_allowed {step : σ → α → Option σ} {G : σ → α → Prop} {P : σ → Prop} {s₀ : σ}
    (hstep : ∀ s a, ∃ t, step s a = some t ∧ (P s → (P t ↔ G s a))) {as : List α} :
    (∀ pre post s, as = pre ++ post → run step s₀ pre = some s → P s) ↔
      P s₀ ∧ Allowed step G s₀ as := by
  constructor
  · intro h
    refine ⟨h [] as s₀ rfl rfl, fun pre a post s heq hs => ?_⟩
    obtain ⟨t, ht, hiff⟩ := hstep s a
    refine (hiff (h pre (a :: post) s heq hs)).mp (h (pre ++ [a]) post t ?_ ?_)
    · rw [heq, List.append_assoc, List.singleton_append]
    · exact run_snoc_eq_some.mpr ⟨s, hs, ht⟩
  · rintro ⟨hP₀, hG⟩ pre post s rfl hs
    refine run_invariant_of_allowed hP₀ ?_ hG.of_append hs
    intro s a t hP ha ht
    obtain ⟨t', ht', hiff⟩ := hstep s a
    obtain rfl := Option.some.inj (ht.symm.trans ht')
    exact (hiff hP).mpr ha

end Runs
end Turbine
