import Mathlib.Logic.Basic

/-!
# Interaction programs

A driver is a program that talks to something it does not control: it asks a question, is
given an answer, and goes on depending on that answer. `Prog Q A ε α` is the tree of such a
conversation. It is finite along every branch, so a loop that the answers alone can end is
written with fuel, and the branch that runs out of it ends in `stop`.

* **`Prog.bind`** makes it a monad, so that C code can be written in `do` notation over
  `StateT δ (Prog Q A ε)`, where `δ` holds the program's own global variables.
* **`Prog.eval`**, **`Prog.trace`** run a program in an *environment*, a function that answers
  one question and moves its own state: the result, and the exchanges on the way.
* **`Prog.lift`** is a program as a part of one that has more questions to ask.
* The `StateT` lemmas at the end say what the `do` notation means on a given state.
-/

namespace Interaction

/-- A program that asks questions in `Q`, receives answers in `A`, and ends in a value of `α`
or is stopped with a reason in `ε`. -/
inductive Prog (Q A ε α : Type) where
  | done (a : α)
  | stop (e : ε)
  | ask (q : Q) (k : A → Prog Q A ε α)

namespace Prog

variable {Q A ε α β γ σ : Type}

def bind : Prog Q A ε α → (α → Prog Q A ε β) → Prog Q A ε β
  | .done a, f => f a
  | .stop e, _ => .stop e
  | .ask q k, f => .ask q fun a => (k a).bind f

instance : Monad (Prog Q A ε) where
  pure := .done
  bind := bind

@[simp] theorem pure_eq (a : α) : (pure a : Prog Q A ε α) = .done a := rfl

@[simp] theorem bind_eq (p : Prog Q A ε α) (f : α → Prog Q A ε β) : p >>= f = p.bind f := rfl

@[simp] theorem bind_done (a : α) (f : α → Prog Q A ε β) : (done a : Prog Q A ε α).bind f = f a :=
  rfl

@[simp] theorem bind_stop (e : ε) (f : α → Prog Q A ε β) :
    (stop e : Prog Q A ε α).bind f = .stop e := rfl

@[simp] theorem bind_ask (q : Q) (k : A → Prog Q A ε α) (f : α → Prog Q A ε β) :
    (ask q k).bind f = .ask q fun a => (k a).bind f := rfl

/-! ## Running a program

An environment `env : σ → Q → A × σ` answers a question from its state. `eval` gives the result
of the whole conversation and the state it leaves behind, `trace` the list of exchanges. -/

/-- The result of `p` in the environment `env`, and the environment's state afterwards. -/
def eval (env : σ → Q → A × σ) : Prog Q A ε α → σ → Except ε α × σ
  | .done a, s => (.ok a, s)
  | .stop e, s => (.error e, s)
  | .ask q k, s => eval env (k (env s q).1) (env s q).2

/-- The exchanges of `p` with the environment `env`, in order. -/
def trace (env : σ → Q → A × σ) : Prog Q A ε α → σ → List (Q × A)
  | .done _, _ => []
  | .stop _, _ => []
  | .ask q k, s => (q, (env s q).1) :: trace env (k (env s q).1) (env s q).2

variable (env : σ → Q → A × σ)

@[simp] theorem eval_done (a : α) (s : σ) : eval env (done a : Prog Q A ε α) s = (.ok a, s) := rfl

@[simp] theorem eval_stop (e : ε) (s : σ) : eval env (stop e : Prog Q A ε α) s = (.error e, s) :=
  rfl

@[simp] theorem eval_ask (q : Q) (k : A → Prog Q A ε α) (s : σ) :
    eval env (ask q k) s = eval env (k (env s q).1) (env s q).2 := rfl

@[simp] theorem trace_done (a : α) (s : σ) : trace env (done a : Prog Q A ε α) s = [] := rfl

@[simp] theorem trace_stop (e : ε) (s : σ) : trace env (stop e : Prog Q A ε α) s = [] := rfl

@[simp] theorem trace_ask (q : Q) (k : A → Prog Q A ε α) (s : σ) :
    trace env (ask q k) s = (q, (env s q).1) :: trace env (k (env s q).1) (env s q).2 := rfl

/-- A sequence runs its second part from where the first part ended, if it ended normally. -/
theorem eval_bind (p : Prog Q A ε α) (f : α → Prog Q A ε β) (s : σ) :
    eval env (p.bind f) s =
      match eval env p s with
      | (.ok a, s') => eval env (f a) s'
      | (.error e, s') => (.error e, s') := by
  induction p generalizing s with
  | done a => rfl
  | stop e => rfl
  | ask q k ih => exact ih _ _

/-- The first part of a sequence having returned, the sequence goes on with the second. -/
theorem eval_bind_ok {env : σ → Q → A × σ} {p : Prog Q A ε α} {s s' : σ} {a : α}
    (h : eval env p s = (.ok a, s')) (f : α → Prog Q A ε β) :
    eval env (p.bind f) s = eval env (f a) s' := by
  rw [eval_bind, h]

theorem trace_bind_ok {env : σ → Q → A × σ} {p : Prog Q A ε α} {s s' : σ} {a : α}
    (h : eval env p s = (.ok a, s')) (f : α → Prog Q A ε β) :
    trace env (p.bind f) s = trace env p s ++ trace env (f a) s' := by
  induction p generalizing s with
  | done b =>
    cases h
    rfl
  | stop e => exact nomatch h
  | ask q k ih =>
    have hrest : eval env (k (env s q).1) (env s q).2 = (.ok a, s') := h
    rw [bind_ask, trace_ask, trace_ask, ih _ hrest]
    rfl

/-- The exchanges of a sequence depend on its second part through that part's exchanges alone. -/
theorem trace_bind_congr (p : Prog Q A ε α) {f : α → Prog Q A ε β} {g : α → Prog Q A ε γ}
    (h : ∀ a s, trace env (f a) s = trace env (g a) s) (s : σ) :
    trace env (p.bind f) s = trace env (p.bind g) s := by
  induction p generalizing s with
  | done a => exact h a s
  | stop e => rfl
  | ask q k ih => exact congrArg _ (ih _ _)

/-! ## Asking more

A program that asks questions in `Q`, in an environment that answers questions in `Q'` and in
which `f` is how those in `Q` are asked. -/

section Lift

variable {Q' : Type} (f : Q → Q')

def lift : Prog Q A ε α → Prog Q' A ε α
  | .done a => .done a
  | .stop e => .stop e
  | .ask q k => .ask (f q) fun a => lift (k a)

variable (env' : σ → Q' → A × σ)

/-- The environment as seen by questions in `Q`. -/
def asked (s : σ) (q : Q) : A × σ := env' s (f q)

theorem eval_lift (p : Prog Q A ε α) (s : σ) :
    (p.lift f).eval env' s = p.eval (asked f env') s := by
  induction p generalizing s with
  | done a => rfl
  | stop e => rfl
  | ask q k ih => exact ih _ _

theorem trace_lift (p : Prog Q A ε α) (s : σ) :
    (p.lift f).trace env' s = (p.trace (asked f env') s).map fun x => (f x.1, x.2) := by
  induction p generalizing s with
  | done a => rfl
  | stop e => rfl
  | ask q k ih => exact congrArg _ (ih _ _)

end Lift

/-! ## The `do` notation on a state

`StateT δ (Prog Q A ε)` carries the program's global variables `δ` next to the conversation.
Applied to a state, its operations are those of `Prog`. -/

section StateT

variable {δ : Type}

theorem stateT_bind (m : StateT δ (Prog Q A ε) α) (f : α → StateT δ (Prog Q A ε) β) (d : δ) :
    (m >>= f) d = (m d).bind fun r => f r.1 r.2 := rfl

theorem stateT_modify_bind (g : δ → δ) (f : PUnit → StateT δ (Prog Q A ε) α) (d : δ) :
    (modify g >>= f) d = f ⟨⟩ (g d) := rfl

theorem stateT_pure (a : α) (d : δ) : (pure a : StateT δ (Prog Q A ε) α) d = .done (a, d) := rfl

theorem stateT_ite (c : Prop) [Decidable c] (m n : StateT δ (Prog Q A ε) α) (d : δ) :
    (if c then m else n) d = if c then m d else n d := by
  split <;> rfl

end StateT

end Prog

end Interaction
