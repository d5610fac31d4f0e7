import SpiNand.Interaction.Prog

/-!
# A logic for interaction programs

`wp H E p Q s` is the weakest precondition of the program `p`, from the state `s` of whoever
answers it, for the postcondition `Q` on a returned value and `E` on a stop. How one question
is answered is the parameter `H`, a *handler*. Three handlers are used:

* **`Handler.env`** answers from an environment, so `wp` says what `eval` returns
  (`wp_env_iff`).
* **`Handler.tracing`** answers anything with a given property, and its state is the list of the
  exchanges so far, so that `wp` relates a result to the exchanges (`wp_tracing`).
* **`Monitor.handler`** answers anything at all while a *monitor* watches the exchanges and
  decides which questions are allowed; `wp` then bounds the exchanges of `p` in every
  environment (`Monitor.sound`).

The rules are `wp_bind` for sequencing, `wp_mono` for weakening, and one rule for each
constructor. `wpS` and its rules do the same for programs in `do` notation.
-/

namespace Interaction

variable {Q A ε α β σ μ : Type}

/-- What may happen at one question: a monotone predicate transformer on the state of whoever
answers. -/
structure Handler (σ Q A : Type) where
  pre : σ → Q → (A → σ → Prop) → Prop
  mono : ∀ {s q} {φ ψ : A → σ → Prop}, (∀ a s', φ a s' → ψ a s') → pre s q φ → pre s q ψ

/-- Answers from an environment. -/
def Handler.env (env : σ → Q → A × σ) : Handler σ Q A where
  pre s q φ := φ (env s q).1 (env s q).2
  mono h := h _ _

/-- A handler under which two facts about one question hold together. -/
class Handler.Conjunctive (H : Handler σ Q A) : Prop where
  and : ∀ {s q} {φ ψ : A → σ → Prop}, H.pre s q φ → H.pre s q ψ →
    H.pre s q fun a s' => φ a s' ∧ ψ a s'

namespace Prog

/-- The weakest precondition of a program under the handler `H`. -/
def wp (H : Handler σ Q A) (E : ε → σ → Prop) :
    Prog Q A ε α → (α → σ → Prop) → σ → Prop
  | .done a, R, s => R a s
  | .stop e, _, s => E e s
  | .ask q k, R, s => H.pre s q fun a s' => wp H E (k a) R s'

variable {H : Handler σ Q A} {E : ε → σ → Prop}

@[simp] theorem wp_done (a : α) (R : α → σ → Prop) (s : σ) :
    wp H E (done a) R s ↔ R a s := Iff.rfl

@[simp] theorem wp_stop (e : ε) (R : α → σ → Prop) (s : σ) :
    wp H E (stop e) R s ↔ E e s := Iff.rfl

theorem wp_ask (q : Q) (k : A → Prog Q A ε α) (R : α → σ → Prop) (s : σ) :
    wp H E (ask q k) R s ↔ H.pre s q fun a s' => wp H E (k a) R s' := Iff.rfl

/-- The rule for sequencing: the second part starts where the first one ends. -/
theorem wp_bind (p : Prog Q A ε α) (f : α → Prog Q A ε β) (R : β → σ → Prop) (s : σ) :
    wp H E (p.bind f) R s ↔ wp H E p (fun a s' => wp H E (f a) R s') s := by
  induction p generalizing s with
  | done a => exact Iff.rfl
  | stop e => exact Iff.rfl
  | ask q k ih =>
    have h : (fun a s' => wp H E ((k a).bind f) R s')
        = fun a s' => wp H E (k a) (fun b s'' => wp H E (f b) R s'') s' :=
      funext fun a => funext fun s' => propext (ih a s')
    rw [bind_ask, wp_ask, wp_ask, h]

/-- The rule for sequencing, in `do` notation. -/
theorem wp_seq {p : Prog Q A ε α} {f : α → Prog Q A ε β} {R : β → σ → Prop} {s : σ}
    (h : wp H E p (fun a s' => wp H E (f a) R s') s) : wp H E (p >>= f) R s :=
  (wp_bind p f R s).mpr h

/-- The rule of consequence, for both postconditions. -/
theorem wp_weaken {E' : ε → σ → Prop} {p : Prog Q A ε α} {R R' : α → σ → Prop} {s : σ}
    (h : wp H E p R s) (hE : ∀ e s', E e s' → E' e s') (hR : ∀ a s', R a s' → R' a s') :
    wp H E' p R' s := by
  induction p generalizing s with
  | done a => exact hR a s h
  | stop e => exact hE e s h
  | ask q k ih => exact H.mono (fun a s' h' => ih a h') h

theorem wp_mono {p : Prog Q A ε α} {R R' : α → σ → Prop} {s : σ}
    (h : wp H E p R s) (hR : ∀ a s', R a s' → R' a s') : wp H E p R' s :=
  wp_weaken h (fun _ _ he => he) hR

/-- The rule of conjunction. -/
theorem wp_and [H.Conjunctive] {p : Prog Q A ε α} {R R' : α → σ → Prop} {s : σ}
    (h : wp H E p R s) (h' : wp H E p R' s) : wp H E p (fun a s' => R a s' ∧ R' a s') s := by
  induction p generalizing s with
  | done a => exact ⟨h, h'⟩
  | stop e => exact h
  | ask q k ih => exact H.mono (fun a s' hk => ih a hk.1 hk.2) (Handler.Conjunctive.and h h')

/-- Under an environment, the weakest precondition is what `eval` returns. -/
theorem wp_env_iff (env : σ → Q → A × σ) (p : Prog Q A ε α) (R : α → σ → Prop) (s : σ) :
    wp (Handler.env env) E p R s ↔
      match eval env p s with
      | (.ok a, s') => R a s'
      | (.error e, s') => E e s' := by
  induction p generalizing s with
  | done a => exact Iff.rfl
  | stop e => exact Iff.rfl
  | ask q k ih => exact ih _ _

/-- A program that never stops returns a value that satisfies the postcondition. -/
theorem eval_of_wp {env : σ → Q → A × σ} {p : Prog Q A ε α} {R : α → σ → Prop} {s : σ}
    (h : wp (Handler.env env) (fun _ _ => False) p R s) :
    ∃ a s', eval env p s = (.ok a, s') ∧ R a s' := by
  rw [wp_env_iff] at h
  match hev : eval env p s with
  | (.ok a, s') => rw [hev] at h; exact ⟨a, s', rfl, h⟩
  | (.error e, s') => rw [hev] at h; exact h.elim

/-! ## Programs with a state of their own

`wpS` is the weakest precondition of a program over `StateT δ` for a postcondition that does not
mention the program's own state `δ`, from every such state. -/

section StateT

variable {δ : Type}

/-- The rule for sequencing, on a given state. -/
theorem wp_stateT_bind {m : StateT δ (Prog Q A ε) α} {f : α → StateT δ (Prog Q A ε) β} {d : δ}
    {R : β × δ → σ → Prop} {s : σ} (h : wp H E (m d) (fun r s' => wp H E (f r.1 r.2) R s') s) :
    wp H E ((m >>= f) d) R s := by
  rw [stateT_bind, wp_bind]
  exact h

/-- The weakest precondition from every state of the program itself. -/
def wpS (H : Handler σ Q A) (E : ε → σ → Prop) (m : StateT δ (Prog Q A ε) α)
    (R : α → σ → Prop) (s : σ) : Prop :=
  ∀ d, wp H E (m d) (fun r s' => R r.1 s') s

theorem wpS_pure {a : α} {R : α → σ → Prop} {s : σ} (h : R a s) :
    wpS H E (pure a : StateT δ (Prog Q A ε) α) R s := fun _ => h

theorem wpS_get {R : δ → σ → Prop} {s : σ} (h : ∀ d, R d s) :
    wpS H E (get : StateT δ (Prog Q A ε) δ) R s := fun d => h d

theorem wpS_modify {f : δ → δ} {R : PUnit → σ → Prop} {s : σ} (h : R ⟨⟩ s) :
    wpS H E (modify f : StateT δ (Prog Q A ε) PUnit) R s := fun _ => h

theorem wpS_bind {m : StateT δ (Prog Q A ε) α} {f : α → StateT δ (Prog Q A ε) β}
    {R : β → σ → Prop} {s : σ} (h : wpS H E m (fun a s' => wpS H E (f a) R s') s) :
    wpS H E (m >>= f) R s := by
  intro d
  exact wp_stateT_bind (wp_mono (h d) fun r _ hr => hr r.2)

theorem wpS_ite {c : Prop} [Decidable c] {m n : StateT δ (Prog Q A ε) α} {R : α → σ → Prop}
    {s : σ} (hm : c → wpS H E m R s) (hn : ¬ c → wpS H E n R s) :
    wpS H E (if c then m else n) R s := by
  split
  · exact hm ‹_›
  · exact hn ‹_›

theorem wpS_weaken {E' : ε → σ → Prop} {m : StateT δ (Prog Q A ε) α} {R R' : α → σ → Prop}
    {s : σ} (h : wpS H E m R s) (hE : ∀ e s', E e s' → E' e s') (hR : ∀ a s', R a s' → R' a s') :
    wpS H E' m R' s :=
  fun d => wp_weaken (h d) hE fun r s' => hR r.1 s'

theorem wpS_mono {m : StateT δ (Prog Q A ε) α} {R R' : α → σ → Prop} {s : σ}
    (h : wpS H E m R s) (hR : ∀ a s', R a s' → R' a s') : wpS H E m R' s :=
  fun d => wp_mono (h d) fun r s' => hR r.1 s'

theorem wpS_and [H.Conjunctive] {m : StateT δ (Prog Q A ε) α} {R R' : α → σ → Prop} {s : σ}
    (h : wpS H E m R s) (h' : wpS H E m R' s) : wpS H E m (fun a s' => R a s' ∧ R' a s') s :=
  fun d => wp_and (h d) (h' d)

end StateT

end Prog

/-! ## Exchanges -/

/-- Any answer with `P`, on top of the exchanges so far. -/
def Handler.tracing (P : Q → A → Prop) : Handler (List (Q × A)) Q A where
  pre tr q φ := ∀ a, P q a → φ a (tr ++ [(q, a)])
  mono h hφ a ha := h _ _ (hφ a ha)

theorem Prog.wp_tracing_ask {P : Q → A → Prop} {E : ε → List (Q × A) → Prop} {q : Q}
    {k : A → Prog Q A ε α} {R : α → List (Q × A) → Prop} {tr : List (Q × A)}
    (h : ∀ a, P q a → (k a).wp (Handler.tracing P) E R (tr ++ [(q, a)])) :
    (Prog.ask q k).wp (Handler.tracing P) E R tr := h

/-- Where all answers have `P`, the postcondition holds of the result and the exchanges. -/
theorem Prog.wp_tracing {P : Q → A → Prop} {E : ε → List (Q × A) → Prop} {p : Prog Q A ε α}
    {R : α → List (Q × A) → Prop} {tr : List (Q × A)} (h : p.wp (Handler.tracing P) E R tr)
    {env : σ → Q → A × σ} {s : σ} (hP : ∀ x ∈ p.trace env s, P x.1 x.2) :
    match (p.eval env s).1 with
    | .ok a => R a (tr ++ p.trace env s)
    | .error e => E e (tr ++ p.trace env s) := by
  induction p generalizing tr s with
  | done a => rwa [trace_done, List.append_nil]
  | stop e => rwa [trace_stop, List.append_nil]
  | ask q k ih =>
    rw [trace_ask] at hP ⊢
    have hhead : P q (env s q).1 := hP _ List.mem_cons_self
    have htail := ih _ (h _ hhead) fun x hx => hP x (List.mem_cons_of_mem _ hx)
    rwa [List.append_assoc, List.singleton_append] at htail

/-! ## Monitors

A monitor reads the exchanges one after the other, keeping a state of its own, and says which
questions may be asked in which state. -/

/-- A watcher of the exchanges: how its state moves, and what it allows to be asked. -/
structure Monitor (μ Q A : Type) where
  step : μ → Q → A → μ
  allows : μ → Q → Prop

namespace Monitor

variable (M : Monitor μ Q A)

/-- The state of the monitor after a list of exchanges. -/
def run (m : μ) (tr : List (Q × A)) : μ := tr.foldl (fun m e => M.step m e.1 e.2) m

@[simp] theorem run_nil (m : μ) : M.run m [] = m := rfl

@[simp] theorem run_cons (m : μ) (e : Q × A) (tr : List (Q × A)) :
    M.run m (e :: tr) = M.run (M.step m e.1 e.2) tr := rfl

theorem run_append (m : μ) (tr tr' : List (Q × A)) :
    M.run m (tr ++ tr') = M.run (M.run m tr) tr' := List.foldl_append

/-- Every question on the list is allowed in the state that the exchanges before it lead to. -/
def Accepts (m : μ) (tr : List (Q × A)) : Prop :=
  ∀ pre e suf, tr = pre ++ e :: suf → M.allows (M.run m pre) e.1

theorem accepts_nil (m : μ) : M.Accepts m [] := by
  intro pre e suf h
  simp at h

theorem accepts_cons (m : μ) (e : Q × A) (tr : List (Q × A)) :
    M.Accepts m (e :: tr) ↔ M.allows m e.1 ∧ M.Accepts (M.step m e.1 e.2) tr := by
  constructor
  · intro h
    exact ⟨h [] e tr rfl, fun pre e' suf heq => h (e :: pre) e' suf (by rw [heq]; rfl)⟩
  · rintro ⟨hhead, htail⟩ pre e' suf heq
    cases pre with
    | nil =>
      obtain ⟨rfl, -⟩ := List.cons.inj heq
      exact hhead
    | cons e₀ pre =>
      obtain ⟨rfl, rfl⟩ := List.cons.inj heq
      exact htail pre e' suf rfl

/-- What is accepted after an accepted list, in the state that it leads to. -/
theorem accepts_append {m : μ} {tr tr' : List (Q × A)} (h : M.Accepts m tr)
    (h' : M.Accepts (M.run m tr) tr') : M.Accepts m (tr ++ tr') := by
  induction tr generalizing m with
  | nil => exact h'
  | cons e tr ih =>
    obtain ⟨hhead, htail⟩ := (M.accepts_cons m e tr).mp h
    exact (M.accepts_cons m e (tr ++ tr')).mpr ⟨hhead, ih htail h'⟩

/-- Any answer at all, provided that the question is allowed. -/
def handler : Handler μ Q A where
  pre m q φ := M.allows m q ∧ ∀ a, φ a (M.step m q a)
  mono h hm := ⟨hm.1, fun a => h _ _ (hm.2 a)⟩

/-- Every list that an accepted one starts with is accepted. -/
theorem accepts_of_append {m : μ} {tr tr' : List (Q × A)} (h : M.Accepts m (tr ++ tr')) :
    M.Accepts m tr := by
  intro pre e suf heq
  apply h pre e (suf ++ tr')
  rw [heq, List.append_assoc, List.cons_append]

/-- A program verified against the monitor keeps to it in every environment, and its
postcondition holds of the state the exchanges lead the monitor to. -/
theorem sound {E : ε → μ → Prop} {p : Prog Q A ε α} {R : α → μ → Prop} {m : μ}
    (h : p.wp M.handler E R m) (env : σ → Q → A × σ) (s : σ) :
    M.Accepts m (p.trace env s) ∧
      match (p.eval env s).1 with
      | .ok a => R a (M.run m (p.trace env s))
      | .error e => E e (M.run m (p.trace env s)) := by
  induction p generalizing m s with
  | done a => exact ⟨M.accepts_nil m, h⟩
  | stop e => exact ⟨M.accepts_nil m, h⟩
  | ask q k ih =>
    obtain ⟨hq, hk⟩ := h
    -- the monitor admits every answer, so also the one this environment gives
    have hrest := ih (env s q).1 (hk (env s q).1) (env s q).2
    obtain ⟨hacc, hpost⟩ := hrest
    exact ⟨(M.accepts_cons m _ _).mpr ⟨hq, hacc⟩, hpost⟩

end Monitor

end Interaction
