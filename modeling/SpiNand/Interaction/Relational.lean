import SpiNand.Interaction.Prog
import Mathlib.Data.List.Forall2

/-!
# Programs in lockstep

`Rel S T p p'` says that two programs ask questions related by `S`, go on in lockstep whatever
the common answer is, and end in results related by `T`.

* **`Rel.run`** is what it says of two runs in one environment that answers related questions
  alike, **`Rel.self`** what it says of one run.
* **`Alike.run`**: a program does not tell two environments apart that answer alike from related
  states.
* **`Respects J S m`** is the relation of a program in `do` notation to itself, from any two
  states related by `J`; its rules follow the constructs of the notation.
-/

namespace Interaction

namespace Prog

variable {Q A ε α α' β β' σ δ : Type} {S : Q → Q → Prop}

/-- Related questions, the same answers, related results. -/
def Rel (S : Q → Q → Prop) (T : α → α' → Prop) : Prog Q A ε α → Prog Q A ε α' → Prop
  | .done a, .done a' => T a a'
  | .stop e, .stop e' => e = e'
  | .ask q k, .ask q' k' => S q q' ∧ ∀ a, Rel S T (k a) (k' a)
  | _, _ => False

theorem Rel.bind {T : α → α' → Prop} {U : β → β' → Prop} {p : Prog Q A ε α} {p' : Prog Q A ε α'}
    {f : α → Prog Q A ε β} {f' : α' → Prog Q A ε β'} (h : Rel S T p p')
    (hf : ∀ a a', T a a' → Rel S U (f a) (f' a')) : Rel S U (p.bind f) (p'.bind f') := by
  induction p generalizing p' with
  | done a =>
    cases p' with
    | done a' => exact hf a a' h
    | stop e' => exact h.elim
    | ask q' k' => exact h.elim
  | stop e =>
    cases p' with
    | done a' => exact h.elim
    | stop e' => exact h
    | ask q' k' => exact h.elim
  | ask q k ih =>
    cases p' with
    | done a' => exact h.elim
    | stop e' => exact h.elim
    | ask q' k' => exact ⟨h.1, fun a => ih a (h.2 a)⟩

/-- What a program ends in, with the state of the environment. -/
def SameEnd (T : α → α' → Prop) : Except ε α × σ → Except ε α' × σ → Prop
  | (.ok a, s), (.ok a', s') => T a a' ∧ s = s'
  | (.error e, s), (.error e', s') => e = e' ∧ s = s'
  | _, _ => False

/-- Two runs in an environment that answers related questions alike. -/
theorem Rel.run {T : α → α' → Prop} {env : σ → Q → A × σ}
    (henv : ∀ s q q', S q q' → env s q = env s q') {p : Prog Q A ε α} {p' : Prog Q A ε α'}
    (h : Rel S T p p') (s : σ) :
    List.Forall₂ (fun x x' : Q × A => S x.1 x'.1 ∧ x.2 = x'.2) (p.trace env s) (p'.trace env s) ∧
      SameEnd T (p.eval env s) (p'.eval env s) := by
  induction p generalizing p' s with
  | done a =>
    cases p' with
    | done a' => exact ⟨.nil, h, rfl⟩
    | stop e' => exact h.elim
    | ask q' k' => exact h.elim
  | stop e =>
    cases p' with
    | done a' => exact h.elim
    | stop e' => exact ⟨.nil, h, rfl⟩
    | ask q' k' => exact h.elim
  | ask q k ih =>
    cases p' with
    | done a' => exact h.elim
    | stop e' => exact h.elim
    | ask q' k' =>
      obtain ⟨hq, hk⟩ := h
      have heq := henv s q q' hq
      rw [trace_ask, trace_ask, eval_ask, eval_ask, ← heq]
      obtain ⟨htrace, hend⟩ := ih _ (hk (env s q).1) (env s q).2
      exact ⟨.cons ⟨hq, rfl⟩ htrace, hend⟩

/-- One run of a program that is in lockstep with itself. -/
theorem Rel.self {T : α → α → Prop} {p : Prog Q A ε α} (h : Rel S T p p) (env : σ → Q → A × σ)
    (s : σ) : (∀ x ∈ p.trace env s, S x.1 x.1) ∧ ∀ a s', p.eval env s = (.ok a, s') → T a a := by
  induction p generalizing s with
  | done a =>
    refine ⟨fun x hx => absurd hx List.not_mem_nil, fun a' s' heval => ?_⟩
    obtain ⟨rfl, -⟩ := Prod.mk.inj heval |>.imp Except.ok.inj id
    exact h
  | stop e =>
    exact ⟨fun x hx => absurd hx List.not_mem_nil, fun a' s' heval => nomatch heval⟩
  | ask q k ih =>
    obtain ⟨htrace, hend⟩ := ih _ (h.2 (env s q).1) (env s q).2
    refine ⟨fun x hx => ?_, hend⟩
    rcases List.mem_cons.mp hx with rfl | hx
    · exact h.1
    · exact htrace x hx

/-! ## One program in two environments -/

section Alike

variable {τ : Type} {R : σ → τ → Prop} {env : σ → Q → A × σ} {env' : τ → Q → A × τ}

/-- From related states the environments answer alike, and are in related states again. -/
def Alike (R : σ → τ → Prop) (env : σ → Q → A × σ) (env' : τ → Q → A × τ) : Prop :=
  ∀ s t q, R s t → (env s q).1 = (env' t q).1 ∧ R (env s q).2 (env' t q).2

/-- What a program asks and returns in one of them it asks and returns in the other. -/
theorem Alike.run (h : Alike R env env') (p : Prog Q A ε α) {s : σ} {t : τ} (hst : R s t) :
    p.trace env s = p.trace env' t ∧ (p.eval env s).1 = (p.eval env' t).1 ∧
      R (p.eval env s).2 (p.eval env' t).2 := by
  induction p generalizing s t with
  | done a => exact ⟨rfl, rfl, hst⟩
  | stop e => exact ⟨rfl, rfl, hst⟩
  | ask q k ih =>
    obtain ⟨hanswer, hnext⟩ := h s t q hst
    obtain ⟨htrace, hresult, hend⟩ := ih (env s q).1 hnext
    rw [trace_ask, trace_ask, eval_ask, eval_ask, ← hanswer, htrace]
    exact ⟨rfl, hresult, hend⟩

end Alike

/-! ## Programs with a state of their own -/

/-- From related states, related questions and one result, and related states again. -/
def Respects (J : δ → δ → Prop) (S : Q → Q → Prop) (m : StateT δ (Prog Q A ε) α) : Prop :=
  ∀ d d', J d d' → Rel S (fun r r' => r.1 = r'.1 ∧ J r.2 r'.2) (m d) (m d')

variable {J : δ → δ → Prop}

theorem respects_pure (a : α) : Respects J S (pure a : StateT δ (Prog Q A ε) α) :=
  fun _ _ hd => ⟨rfl, hd⟩

theorem respects_stop (e : ε) : Respects J S (fun _ => .stop e : StateT δ (Prog Q A ε) α) :=
  fun _ _ _ => rfl

theorem respects_bind {m : StateT δ (Prog Q A ε) α} {f : α → StateT δ (Prog Q A ε) β}
    (hm : Respects J S m) (hf : ∀ a, Respects J S (f a)) : Respects J S (m >>= f) := by
  intro d d' hd
  apply Rel.bind (hm d d' hd)
  rintro ⟨a, e⟩ ⟨a', e'⟩ ⟨rfl, he⟩
  exact hf a e e' he

theorem respects_ite {c : Prop} [Decidable c] {m n : StateT δ (Prog Q A ε) α}
    (hm : Respects J S m) (hn : Respects J S n) : Respects J S (if c then m else n) := by
  split
  · exact hm
  · exact hn

end Prog

end Interaction
