import SpiNand.Interaction.Logic

/-!
# Programs beside another party

The questions of a program are answered from a state that another party changes as well: `act`
are the steps of that party, of which it takes any number before each question.

* **`interleave`** is the environment in which a *schedule* says which steps these are.
* **`Handler.interleaved`** allows every choice of steps. What is verified for it holds for every
  schedule (`wp_interleave`).
* **`Stable`** predicates survive the steps of the other party. `wp_ask_of_stable` is the rule for
  one question: what is known before it is known when it is answered, if it is stable.
* **`Paced good K`** schedules do something good at least once in any `K` questions, and
  **`Handler.paced`** counts down to it. What is verified for it holds for every paced schedule
  (`wp_paced`), and what holds for every schedule need not be verified again
  (`wp_of_interleaved`).
-/

namespace Interaction

variable {Q A ε α β σ ι : Type}

/-- The steps of the other party before each question, and then the answer. -/
def interleave (act : σ → ι → σ) (env : σ → Q → A × σ) :
    σ × (Nat → List ι) → Q → A × (σ × (Nat → List ι))
  | (s, sched), q =>
    let s' := (sched 0).foldl act s
    ((env s' q).1, ((env s' q).2, fun n => sched (n + 1)))

/-- Any steps of the other party, and then the answer. -/
def Handler.interleaved (act : σ → ι → σ) (env : σ → Q → A × σ) : Handler σ Q A where
  pre s q φ := ∀ l : List ι, φ (env (l.foldl act s) q).1 (env (l.foldl act s) q).2
  mono h hφ l := h _ _ (hφ l)

/-- No step of the other party makes `J` false. -/
def Stable (act : σ → ι → σ) (J : σ → Prop) : Prop := ∀ s i, J s → J (act s i)

theorem Stable.foldl {act : σ → ι → σ} {J : σ → Prop} (hJ : Stable act J) {s : σ} (hs : J s)
    (l : List ι) : J (l.foldl act s) := by
  induction l generalizing s with
  | nil => exact hs
  | cons i l ih =>
    have hstep : J (act s i) := hJ s i hs
    exact ih hstep

namespace Prog

variable {act : σ → ι → σ} {env : σ → Q → A × σ} {E : ε → σ → Prop}

/-- What is known and stable is known at the answer. -/
theorem wp_ask_of_stable {J : σ → Prop} {q : Q} {k : A → Prog Q A ε α} {R : α → σ → Prop}
    (hJ : Stable act J)
    (h : ∀ s, J s → wp (Handler.interleaved act env) E (k (env s q).1) R (env s q).2) {s : σ}
    (hs : J s) : wp (Handler.interleaved act env) E (ask q k) R s :=
  fun l => h _ (hJ.foldl hs l)

/-- What is verified for any steps of the other party holds for every schedule. -/
theorem wp_interleave {p : Prog Q A ε α} {R : α → σ → Prop} {s : σ}
    (h : wp (Handler.interleaved act env) E p R s) (sched : Nat → List ι) :
    wp (Handler.env (interleave act env)) (fun e s' => E e s'.1) p (fun a s' => R a s'.1)
      (s, sched) := by
  induction p generalizing s sched with
  | done a => exact h
  | stop e => exact h
  | ask q k ih =>
    have hanswer := h (sched 0)
    exact ih _ hanswer _

end Prog

/-! ## Schedules with something good in them -/

/-- Of any `K` places in the schedule at least one is good. -/
def Paced (good : List ι → Prop) (K : Nat) (sched : Nat → List ι) : Prop :=
  ∀ n, ∃ i < K, good (sched (n + i))

theorem Paced.tail {good : List ι → Prop} {K : Nat} {sched : Nat → List ι}
    (h : Paced good K sched) : Paced good K fun n => sched (n + 1) := by
  intro n
  obtain ⟨i, hi, hgood⟩ := h (n + 1)
  have hplace : n + 1 + i = n + i + 1 := by omega
  rw [hplace] at hgood
  exact ⟨i, hi, hgood⟩

/-- Any steps of the other party; the state counts the questions before the next good ones, fewer
than `K`. -/
def Handler.paced (act : σ → ι → σ) (env : σ → Q → A × σ) (good : List ι → Prop) (K : Nat) :
    Handler (σ × Nat) Q A where
  pre s q φ := ∀ l m, (good l ∧ m < K ∨ s.2 = m + 1) →
    φ (env (l.foldl act s.1) q).1 ((env (l.foldl act s.1) q).2, m)
  mono h hφ l m hm := h _ _ (hφ l m hm)

namespace Prog

variable {act : σ → ι → σ} {env : σ → Q → A × σ} {good : List ι → Prop} {K : Nat}

/-- What is verified for paced steps of the other party holds for every paced schedule. -/
theorem wp_paced {E : ε → σ × Nat → Prop} {p : Prog Q A ε α} {R : α → σ × Nat → Prop} {s : σ}
    {m : Nat} (h : wp (Handler.paced act env good K) E p R (s, m)) {sched : Nat → List ι}
    (hsched : Paced good K sched) (hm : good (sched m)) :
    wp (Handler.env (interleave act env)) (fun e x => ∃ m, E e (x.1, m)) p
      (fun a x => Paced good K x.2 ∧ ∃ m, good (x.2 m) ∧ R a (x.1, m)) (s, sched) := by
  induction p generalizing s m sched with
  | done a => exact ⟨hsched, m, hm, h⟩
  | stop e => exact ⟨m, h⟩
  | ask q k ih =>
    have htail := hsched.tail
    cases m with
    | zero =>
      obtain ⟨i, hi, hgood⟩ := hsched 1
      rw [Nat.add_comm] at hgood
      exact ih _ (h (sched 0) i (.inl ⟨hm, hi⟩)) htail hgood
    | succ m => exact ih _ (h (sched 0) m (.inr rfl)) htail hm

/-- What holds for any steps of the other party holds for paced ones. -/
theorem wp_of_interleaved {E : ε → σ → Prop} {p : Prog Q A ε α} {R : α → σ → Prop} {s : σ}
    (h : wp (Handler.interleaved act env) E p R s) {m : Nat} (hm : m < K) :
    wp (Handler.paced act env good K) (fun e x => E e x.1) p (fun a x => R a x.1 ∧ x.2 < K)
      (s, m) := by
  induction p generalizing s m with
  | done a => exact ⟨h, hm⟩
  | stop e => exact h
  | ask q k ih =>
    intro l m' hpace
    have hm' : m' < K := by
      rcases hpace with ⟨-, hlt⟩ | hcount
      · exact hlt
      · have hcount' : m = m' + 1 := hcount
        omega
    exact ih _ (h l) hm'

/-- A first part that needs no good steps. -/
theorem wp_seq_of_interleaved {E : ε → σ × Nat → Prop} {p : Prog Q A ε α} {f : α → Prog Q A ε β}
    {R : β → σ × Nat → Prop} {s : σ} {m : Nat} (hm : m < K)
    (h : wp (Handler.interleaved act env) (fun e s' => ∀ m, E e (s', m)) p
      (fun a s' => ∀ m < K, wp (Handler.paced act env good K) E (f a) R (s', m)) s) :
    wp (Handler.paced act env good K) E (p >>= f) R (s, m) := by
  apply wp_seq
  apply wp_weaken (wp_of_interleaved h hm)
  · intro e x hstop
    exact hstop x.2
  · rintro a x ⟨hnext, hx⟩
    exact hnext x.2 hx

/-- What is known and stable is known at the answer, and `G` as well if the steps were good. -/
theorem wp_ask_paced {J G : σ → Prop} {E : ε → σ × Nat → Prop} {q : Q} {k : A → Prog Q A ε α}
    {R : α → σ × Nat → Prop} {s : σ} {m : Nat} (hJ : Stable act J)
    (hG : ∀ l s, good l → J s → G (l.foldl act s)) (hs : J s) (hm : m < K)
    (h : ∀ s' m', m' < K → G s' ∨ J s' ∧ m' < m →
      wp (Handler.paced act env good K) E (k (env s' q).1) R ((env s' q).2, m')) :
    wp (Handler.paced act env good K) E (ask q k) R (s, m) := by
  intro l m' hpace
  rcases hpace with ⟨hgood, hlt⟩ | hcount
  · exact h _ m' hlt (.inl (hG l s hgood hs))
  · have hcount' : m = m' + 1 := hcount
    exact h _ m' (by omega) (.inr ⟨hJ.foldl hs l, by omega⟩)

end Prog

end Interaction
