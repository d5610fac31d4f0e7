import SpiNand.Interaction.Logic
import Mathlib.Data.List.Induction

/-!
# What a history says

`Since P p q tr` is the past-time *since* on a finite history: at some point an event satisfied
`p`, the history before it satisfied `P`, and no event after it satisfied `q`. Monitors are
written with small states that stand for such formulas.

* **`since_append_singleton`** is the unfolding at the end of a history, by which the state is
  kept.
* **`Monitor.run_induction`** proves a relation between the history and the monitor's state.
-/

namespace Interaction

variable {X : Type}

/-- An event with `p` happened after a history with `P`, and no event with `q` since. -/
def Since (P : List X → Prop) (p q : X → Prop) (tr : List X) : Prop :=
  ∃ pre e suf, tr = pre ++ e :: suf ∧ P pre ∧ p e ∧ ∀ x ∈ suf, ¬ q x

/-- An event with `p` happened, and no event with `q` since. -/
abbrev SinceAny (p q : X → Prop) : List X → Prop := Since (fun _ => True) p q

variable {P : List X → Prop} {p q : X → Prop}

theorem since_append_singleton (tr : List X) (x : X) :
    Since P p q (tr ++ [x]) ↔ (P tr ∧ p x) ∨ (Since P p q tr ∧ ¬ q x) := by
  constructor
  · rintro ⟨pre, e, suf, heq, hP, hp, hq⟩
    rcases List.eq_nil_or_concat suf with rfl | ⟨suf, y, rfl⟩
    · -- the event with `p` is the last one
      obtain ⟨rfl, hx⟩ := List.append_inj' heq rfl
      obtain rfl := List.singleton_inj.mp hx
      exact .inl ⟨hP, hp⟩
    · -- it came earlier, and the last event does not end the formula
      rw [List.concat_eq_append, ← List.cons_append, ← List.append_assoc] at heq
      obtain ⟨rfl, hx⟩ := List.append_inj' heq rfl
      obtain rfl := List.singleton_inj.mp hx
      rw [List.concat_eq_append] at hq
      exact .inr ⟨⟨pre, e, suf, rfl, hP, hp, fun z hz => hq z (List.mem_append_left _ hz)⟩,
        hq x (List.mem_append_right _ (List.mem_singleton.mpr rfl))⟩
  · rintro (⟨hP, hp⟩ | ⟨⟨pre, e, suf, rfl, hP, hp, hq⟩, hx⟩)
    · exact ⟨tr, x, [], rfl, hP, hp, fun _ h => absurd h List.not_mem_nil⟩
    · refine ⟨pre, e, suf ++ [x], by rw [List.append_assoc, List.cons_append], hP, hp, ?_⟩
      intro z hz
      rcases List.mem_append.mp hz with hz | hz
      · exact hq z hz
      · exact List.mem_singleton.mp hz ▸ hx

/-- A formula just became true. -/
theorem Since.now {tr : List X} {x : X} (hP : P tr) (hp : p x) : Since P p q (tr ++ [x]) :=
  (since_append_singleton tr x).mpr (.inl ⟨hP, hp⟩)

/-- A formula stays true over an event that does not end it. -/
theorem Since.step {tr : List X} {x : X} (h : Since P p q tr) (hx : ¬ q x) :
    Since P p q (tr ++ [x]) :=
  (since_append_singleton tr x).mpr (.inr ⟨h, hx⟩)

namespace Monitor

variable {Q A μ : Type} (M : Monitor μ Q A)

/-- A relation between the history and the state that every exchange preserves holds after
every history. -/
theorem run_induction {J : List (Q × A) → μ → Prop} {m : μ} (hnil : J [] m)
    (hstep : ∀ tr m e, J tr m → J (tr ++ [e]) (M.step m e.1 e.2)) (tr : List (Q × A)) :
    J tr (M.run m tr) := by
  induction tr using List.reverseRecOn with
  | nil => exact hnil
  | append_singleton tr e ih =>
    rw [run_append]
    exact hstep tr _ e ih

/-- A relation between the environment and the state that every exchange preserves holds at the
end of every program. -/
theorem run_trace_induction {ε α σ : Type} {env : σ → Q → A × σ} {J : μ → σ → Prop}
    (hstep : ∀ m s q, J m s → J (M.step m q (env s q).1) (env s q).2) (p : Prog Q A ε α) {m : μ}
    {s : σ} (h : J m s) : J (M.run m (p.trace env s)) (p.eval env s).2 := by
  induction p generalizing m s with
  | done a => exact h
  | stop e => exact h
  | ask q k ih => exact ih _ (hstep m s q h)

end Monitor

/-- What no question with `P` ends, a program that asks such questions alone does not end. -/
theorem Prog.eval_invariant {Q A ε α σ : Type} {env : σ → Q → A × σ} {P : Q → Prop} {J : σ → Prop}
    (hstep : ∀ s q, P q → J s → J (env s q).2) (p : Prog Q A ε α) {s : σ} (h : J s)
    (hP : ∀ x ∈ p.trace env s, P x.1) : J (p.eval env s).2 := by
  induction p generalizing s with
  | done a => exact h
  | stop e => exact h
  | ask q k ih =>
    rw [trace_ask] at hP
    have hq : P q := hP _ List.mem_cons_self
    exact ih _ (hstep s q hq h) fun x hx => hP x (List.mem_cons_of_mem _ hx)

end Interaction
