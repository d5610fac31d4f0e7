import Mathlib.Data.List.Basic

/-!
# Runs of operations

Operations one after the other, each of which may be the last: what it does is recorded, and there
may be no state to go on from.

* **`runs_induction`** is the rule for a run up to the first operation that was not good. The
  invariant speaks about the operations that are done and the state they have led to.
-/

namespace Interaction

variable {O S X : Type}

/-- What is recorded of the operations, one after the other. -/
def runs (step : O → S → X × Option S) : List O → S → List X
  | [], _ => []
  | op :: ops, s => (step op s).1 :: ((step op s).2.map (runs step ops)).getD []

theorem runs_map {O' : Type} (f : O' → O) (step : O → S → X × Option S) (ops : List O') (s : S) :
    runs step (ops.map f) s = runs (fun op => step (f op)) ops s := by
  induction ops generalizing s with
  | nil => rfl
  | cons op ops ih =>
    rw [List.map_cons, runs, runs]
    cases (step (f op) s).2 with
    | none => rfl
    | some s' => exact congrArg _ (ih s')

/-- What a program with a state of its own leaves to go on from. -/
def resumption {ε α δ σ : Type} : Except ε (α × δ) × σ → Option (δ × σ)
  | (.ok (_, d), s) => some (d, s)
  | (.error _, _) => none

theorem runs_induction_from {step : O → S → X × Option S} (I : List O → S → Prop) {Good : X → Prop}
    (hstep : ∀ done op s s', I done s → Good (step op s).1 → (step op s).2 = some s' →
      I (done ++ [op]) s')
    {done ops : List O} {s : S} (hI : I done s) {pre suf : List X} {x : X}
    (heq : runs step ops s = pre ++ x :: suf) (hgood : ∀ y ∈ pre, Good y) :
    ∃ op s', ops[pre.length]? = some op ∧ I (done ++ ops.take pre.length) s' ∧
      x = (step op s').1 := by
  induction pre generalizing done ops s with
  | nil =>
    cases ops with
    | nil => cases heq
    | cons op ops =>
      rw [runs] at heq
      obtain ⟨hx, -⟩ := List.cons.inj heq
      refine ⟨op, s, rfl, ?_, hx.symm⟩
      simpa using hI
  | cons first pre ih =>
    cases ops with
    | nil => cases heq
    | cons op ops =>
      rw [runs] at heq
      obtain ⟨hfirst, htail⟩ := List.cons.inj heq
      have hfirstGood : Good (step op s).1 := by
        rw [hfirst]
        exact hgood first List.mem_cons_self
      cases hnext : (step op s).2 with
      | none =>
        -- the run has ended
        rw [hnext] at htail
        simp at htail
      | some s' =>
        rw [hnext] at htail
        have hI' := hstep done op s s' hI hfirstGood hnext
        obtain ⟨op', s'', hop, hrest, hx⟩ :=
          ih hI' htail fun y hy => hgood y (List.mem_cons_of_mem _ hy)
        refine ⟨op', s'', hop, ?_, hx⟩
        simpa using hrest

/-- **The rule for a run up to the first operation that was not good.** An operation before which
all were good starts from a state in which `I` holds of the operations before it. -/
theorem runs_induction {step : O → S → X × Option S} (I : List O → S → Prop) {Good : X → Prop}
    (hstep : ∀ done op s s', I done s → Good (step op s).1 → (step op s).2 = some s' →
      I (done ++ [op]) s')
    {ops : List O} {s : S} (hI : I [] s) {pre suf : List X} {x : X}
    (heq : runs step ops s = pre ++ x :: suf) (hgood : ∀ y ∈ pre, Good y) :
    ∃ op s', ops[pre.length]? = some op ∧ I (ops.take pre.length) s' ∧ x = (step op s').1 :=
  runs_induction_from I hstep hI heq hgood

end Interaction
