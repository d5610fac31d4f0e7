import SpiNand.Bus.Environment
import SpiNand.Interaction.Runs
import SpiNand.Interaction.Past
import SpiNand.Interaction.Relational

/-!
# Runs of the driver's operations

`Operation` names the public functions, and `steps` runs a list of them one after the other in
one environment, recording what each one sent and returned.

* **`steps_induction`** is the rule for runs: what each operation preserves holds before and
  after each operation of every run.
* **`step_of_wp`**, **`step_of_monitor`** turn a verified function into what one such step does,
  **`step_relates`** keeps a watcher and the environment in step.
* **`steps_matches`**: runs in two environments that answer alike are the same run.
-/

namespace SpiNand

open Interaction Interaction.Prog

variable {σ μ α : Type}

/-- The public operations of `nand_flash.h`, with their arguments; an argument of pointer type
is what the pointer refers to before the call. -/
inductive Operation
  | init
  | id
  | reset
  | readParamsPage (paramsPage : List UInt8) (len : UInt32)
  | checkBadBlock (blockAddr : UInt32) (isBad : Bool)
  | markBadBlock (blockAddr : UInt32)
  | eraseBlock (blockAddr : UInt16)
  | progPage (pageAddr : UInt32) (data : PageData)
  | isFree (pageAddr : UInt32) (isFree : Option Bool)
  | readPage (pageAddr : UInt32) (offset : UInt16) (data : List UInt8) (len : UInt32)
      (eccFatal : Option Bool)
  | copyPage (srcPageAddr destPageAddr : UInt32) (eccFatal : Option Bool)
  | printBadBlocks

/-- What an operation returns: its status, its buffer and its flag, where it has them. -/
structure OpResult where
  ui32Status : Status
  data : List UInt8
  flag : Option Bool

/-- An operation that returns a status alone. -/
def statusOnly (m : DriverM Status) : DriverM OpResult := do
  return ⟨← m, [], none⟩

/-- The function behind an operation; `fuel` is that of the loop of `nand_mark_bad_block`. -/
def Operation.run (fuel : Nat) : Operation → DriverM OpResult
  | .init => statusOnly nandInit
  | .id => statusOnly nandId
  | .reset => statusOnly nandReset
  | .readParamsPage paramsPage len => do
    let (ui32Status, data) ← nandReadParamsPage paramsPage len
    return ⟨ui32Status, data, none⟩
  | .checkBadBlock blockAddr isBad => do
    let (ui32Status, isBad) ← nandCheckBadBlock blockAddr isBad
    return ⟨ui32Status, [], some isBad⟩
  | .markBadBlock blockAddr => statusOnly (nandMarkBadBlock fuel blockAddr)
  | .eraseBlock blockAddr => statusOnly (nandEraseBlock blockAddr)
  | .progPage pageAddr data => statusOnly (nandProgPage pageAddr data)
  | .isFree pageAddr free => do
    let (ui32Status, free) ← nandIsFree pageAddr free
    return ⟨ui32Status, [], free⟩
  | .readPage pageAddr offset data len eccFatal => do
    let read ← nandReadPage pageAddr offset data len eccFatal
    return ⟨read.ui32Status, read.data, read.eccFatal⟩
  | .copyPage srcPageAddr destPageAddr eccFatal => do
    let (ui32Status, eccFatal) ← nandCopyPage srcPageAddr destPageAddr eccFatal
    return ⟨ui32Status, [], eccFatal⟩
  | .printBadBlocks => statusOnly nandPrintBadBlocks

/-- A function whose result is put in another form. -/
theorem wpS_map {H : Handler σ Call Answer} {E : Halt → σ → Prop} {β : Type} {m : DriverM α}
    {f : α → β} {R : β → σ → Prop} {s : σ} (h : wpS H E m (fun a => R (f a)) s) :
    wpS H E (m >>= fun a => pure (f a)) R s :=
  wpS_bind (wpS_mono h fun _ _ ha => wpS_pure ha)

/-! ## Steps -/

/-- One operation of a run: what it was, the environment around it, what it sent, and its
result, unless it was stopped. -/
structure Step (σ : Type) where
  op : Operation
  before : σ
  trace : Trace
  result : Except Halt OpResult
  after : σ

/-- One operation in an environment with a stack. -/
def Operation.step (env : Environment σ) (fuel : Nat) (op : Operation) (d : Driver)
    (s : σ × (Nat → Answer)) : Step σ where
  op := op
  before := s.1
  trace := (op.run fuel d).trace (withStack env) s
  result := ((op.run fuel d).eval (withStack env) s).1.map Prod.fst
  after := ((op.run fuel d).eval (withStack env) s).2.1

/-- A run of operations one after the other, in `env` with a stack. It ends early where an
operation does not return. -/
def steps (env : Environment σ) (fuel : Nat) :
    List Operation → Driver → σ × (Nat → Answer) → List (Step σ)
  | [], _, _ => []
  | op :: ops, d, s =>
    op.step env fuel d s :: match (op.run fuel d).eval (withStack env) s with
      | (.ok (_, d'), s') => steps env fuel ops d' s'
      | (.error _, _) => []

/-- All that was sent in a run, in order. -/
def sent (l : List (Step σ)) : Trace := l.flatMap Step.trace

@[simp] theorem sent_nil : sent ([] : List (Step σ)) = [] := rfl

@[simp] theorem sent_cons (st : Step σ) (l : List (Step σ)) :
    sent (st :: l) = st.trace ++ sent l := rfl

theorem steps_induction_from {env : Environment σ} {fuel : Nat} {Ok : Operation → Prop}
    {I : Trace → σ → Prop} {A : Step σ → Prop} {P : Trace → Step σ → Prop}
    (hstep : ∀ op, Ok op → ∀ d s tr, I tr s.1 → A (op.step env fuel d s) →
      P tr (op.step env fuel d s) ∧ (∀ r, (op.step env fuel d s).result = .ok r →
        I (tr ++ (op.step env fuel d s).trace) (op.step env fuel d s).after))
    {ops : List Operation} (hops : ∀ op ∈ ops, Ok op) (tr : Trace) {d : Driver}
    {s : σ × (Nat → Answer)} (hI : I tr s.1) (hA : ∀ st ∈ steps env fuel ops d s, A st)
    {pre suf : List (Step σ)} {st : Step σ} (heq : steps env fuel ops d s = pre ++ st :: suf) :
    P (tr ++ sent pre) st := by
  induction ops generalizing d s tr pre with
  | nil => simp [steps] at heq
  | cons op ops ih =>
    rw [steps] at heq hA
    obtain ⟨hP, hnext⟩ := hstep op (hops op List.mem_cons_self) d s tr hI
      (hA _ List.mem_cons_self)
    cases pre with
    | nil =>
      -- the step asked for is the first one
      obtain ⟨rfl, -⟩ := List.cons.inj heq
      rwa [sent_nil, List.append_nil]
    | cons st₀ pre =>
      -- it comes later: the run went on, so the first operation returned and left `I` behind
      obtain ⟨rfl, htail⟩ := List.cons.inj heq
      match heval : (op.run fuel d).eval (withStack env) s with
      | (.ok (r, d'), s') =>
        have hres : (op.step env fuel d s).result = .ok r := by
          simp [Operation.step, heval, Except.map]
        have hafter : (op.step env fuel d s).after = s'.1 := by simp [Operation.step, heval]
        have hI' := hnext r hres
        rw [hafter] at hI'
        rw [heval] at htail hA
        rw [sent_cons, ← List.append_assoc]
        exact ih (fun op' h' => hops op' (List.mem_cons_of_mem op h')) _ hI'
          (fun st' h' => hA st' (List.mem_cons_of_mem _ h')) htail
      | (.error e, s') =>
        rw [heval] at htail
        simp at htail

/-- **The rule for runs.** If each operation, started where `I` holds of what was sent so far and
of the environment, satisfies `P` and leaves `I` behind if it returns, then `P` holds of every
step of every run. -/
theorem steps_induction {env : Environment σ} {fuel : Nat} (Ok : Operation → Prop)
    (I : Trace → σ → Prop) (P : Trace → Step σ → Prop)
    (hstep : ∀ op, Ok op → ∀ d s tr, I tr s.1 → P tr (op.step env fuel d s) ∧
      (∀ r, (op.step env fuel d s).result = .ok r →
        I (tr ++ (op.step env fuel d s).trace) (op.step env fuel d s).after))
    {ops : List Operation} (hops : ∀ op ∈ ops, Ok op) {d : Driver}
    {s : σ × (Nat → Answer)} (hI : I [] s.1) {pre suf : List (Step σ)} {st : Step σ}
    (heq : steps env fuel ops d s = pre ++ st :: suf) : P (sent pre) st :=
  steps_induction_from (A := fun _ => True) (fun op hop d s tr hI _ => hstep op hop d s tr hI)
    hops [] hI (fun _ _ => trivial) heq

/-- The rule for runs all of whose steps satisfy `A`. -/
theorem steps_induction_of {env : Environment σ} {fuel : Nat} (A : Step σ → Prop)
    (I : Trace → σ → Prop) (P : Trace → Step σ → Prop)
    (hstep : ∀ (op : Operation) d s tr, I tr s.1 → A (op.step env fuel d s) →
      P tr (op.step env fuel d s) ∧ (∀ r, (op.step env fuel d s).result = .ok r →
        I (tr ++ (op.step env fuel d s).trace) (op.step env fuel d s).after))
    {ops : List Operation} {d : Driver} {s : σ × (Nat → Answer)} (hI : I [] s.1)
    (hA : ∀ st ∈ steps env fuel ops d s, A st) {pre suf : List (Step σ)} {st : Step σ}
    (heq : steps env fuel ops d s = pre ++ st :: suf) : P (sent pre) st :=
  steps_induction_from (fun op (_ : True) => hstep op) (fun _ _ => trivial) [] hI hA
    heq

/-- What one step of a verified operation returns and leaves behind. -/
theorem step_of_wp {env : Environment σ} {fuel : Nat} (op : Operation) {E : Halt → σ → Prop}
    {R : OpResult → σ → Prop} {s : σ} (h : wpS (Handler.stacked env) E (op.run fuel) R s)
    (d : Driver) (stack : Nat → Answer) :
    match (op.step env fuel d (s, stack)).result with
    | .ok r => R r (op.step env fuel d (s, stack)).after
    | .error e => E e (op.step env fuel d (s, stack)).after := by
  have hwp := wp_withStack (h d) stack
  rw [wp_env_iff] at hwp
  unfold Operation.step
  match heval : (op.run fuel d).eval (withStack env) (s, stack) with
  | (.ok (r, d'), s') => rw [heval] at hwp; exact hwp
  | (.error e, s') => rw [heval] at hwp; exact hwp

/-- A verified operation that is never stopped returns. -/
theorem step_returns {env : Environment σ} {fuel : Nat} (op : Operation)
    {R : OpResult → σ → Prop} {s : σ}
    (h : wpS (Handler.stacked env) (fun _ _ => False) (op.run fuel) R s) (d : Driver)
    (stack : Nat → Answer) :
    ∃ r, (op.step env fuel d (s, stack)).result = .ok r ∧
      R r (op.step env fuel d (s, stack)).after := by
  have hstep := step_of_wp op h d stack
  cases hres : (op.step env fuel d (s, stack)).result with
  | ok r => rw [hres] at hstep; exact ⟨r, rfl, hstep⟩
  | error e => rw [hres] at hstep; exact hstep.elim

/-- What one step of an operation verified against a monitor sends and returns. -/
theorem step_of_monitor {M : Monitor μ Call Answer} {fuel : Nat} {op : Operation}
    {E : Halt → μ → Prop} {R : OpResult → μ → Prop} {m : μ}
    (h : wpS M.handler E (op.run fuel) R m) (env : Environment σ) (d : Driver)
    (s : σ × (Nat → Answer)) :
    M.Accepts m (op.step env fuel d s).trace ∧
      match (op.step env fuel d s).result with
      | .ok r => R r (M.run m (op.step env fuel d s).trace)
      | .error e => E e (M.run m (op.step env fuel d s).trace) := by
  obtain ⟨hacc, hpost⟩ := M.sound (h d) (withStack env) s
  refine ⟨hacc, ?_⟩
  unfold Operation.step
  match heval : (op.run fuel d).eval (withStack env) s with
  | (.ok (r, d'), s') => rw [heval] at hpost; exact hpost
  | (.error e, s') => rw [heval] at hpost; exact hpost

/-- A relation between a watcher of the commands and the environment that every call preserves
holds after an operation if it held before. -/
theorem step_relates {M : CmdMonitor μ} {env : Environment σ} {J : μ → σ → Prop}
    (hcall : ∀ m s q, J m s → J (M.toMonitor.step m q (env s q).1) (env s q).2) (fuel : Nat)
    (op : Operation) (d : Driver) {s : σ × (Nat → Answer)} {m : μ} (h : J m s.1) :
    J (M.toMonitor.run m (op.step env fuel d s).trace) (op.step env fuel d s).after := by
  -- reading the stack moves neither the watcher nor the environment
  have hstacked : ∀ m (s : σ × (Nat → Answer)) q, J m s.1 →
      J (M.toMonitor.step m q (withStack env s q).1) (withStack env s q).2.1 := by
    intro m s q hJ
    cases q with
    | uninit => exact hJ
    | blockingTransfer t => exact hcall m s.1 _ hJ
    | setup c => exact hcall m s.1 _ hJ
    | void v => exact hcall m s.1 _ hJ
  exact M.toMonitor.run_trace_induction (J := fun m (s : σ × (Nat → Answer)) => J m s.1)
    hstacked (op.run fuel d) h

/-! ## Two environments -/

section Alike

variable {τ : Type} {R : σ → τ → Prop} {env : Environment σ} {env' : Environment τ}

/-- Steps that ask and return the same, from related states to related states. -/
structure Step.Matches (R : σ → τ → Prop) (st : Step σ) (st' : Step τ) : Prop where
  op : st.op = st'.op
  before : R st.before st'.before
  trace : st.trace = st'.trace
  result : st.result = st'.result
  after : R st.after st'.after

theorem alike_withStack (h : Alike R env env') :
    Alike (fun x y => R x.1 y.1 ∧ x.2 = y.2) (withStack env) (withStack env') := by
  rintro ⟨s, stack⟩ ⟨t, _⟩ q ⟨hst, rfl⟩
  cases q with
  | uninit => exact ⟨rfl, hst, rfl⟩
  | blockingTransfer tr => exact ⟨(h s t _ hst).1, (h s t _ hst).2, rfl⟩
  | setup c => exact ⟨(h s t _ hst).1, (h s t _ hst).2, rfl⟩
  | void v => exact ⟨(h s t _ hst).1, (h s t _ hst).2, rfl⟩

/-- A run in one environment matches that in the other, step by step. -/
theorem steps_matches (h : Alike R env env') (fuel : Nat) (ops : List Operation) (d : Driver)
    {s : σ} {t : τ} (hst : R s t) (stack : Nat → Answer) :
    List.Forall₂ (Step.Matches R) (steps env fuel ops d (s, stack))
      (steps env' fuel ops d (t, stack)) := by
  induction ops generalizing d s t stack with
  | nil => exact .nil
  | cons op ops ih =>
    obtain ⟨htrace, hresult, hafter, hstack⟩ :=
      (alike_withStack h).run (op.run fuel d) (s := (s, stack)) (t := (t, stack)) ⟨hst, rfl⟩
    rw [steps, steps]
    refine .cons ⟨rfl, hst, htrace, congrArg (·.map Prod.fst) hresult, hafter⟩ ?_
    -- the rest of the run starts where this operation has ended, if it has
    rcases heval : (op.run fuel d).eval (withStack env) (s, stack) with ⟨result, s', stack₁⟩
    rcases heval' : (op.run fuel d).eval (withStack env') (t, stack) with ⟨result', t', stack₂⟩
    rw [heval, heval'] at hresult hafter hstack
    obtain rfl : result = result' := hresult
    obtain rfl : stack₁ = stack₂ := hstack
    cases result with
    | ok r => exact ih r.2 hafter stack₁
    | error e => exact .nil

end Alike

/-- A monitor that watches one operation at a time accepts every step of every run. -/
theorem steps_accepts {M : Monitor μ Call Answer} {env : Environment σ} {fuel : Nat}
    (Ok : Operation → Prop) {E : Halt → μ → Prop} {R : OpResult → μ → Prop} {m : μ}
    (h : ∀ op, Ok op → wpS M.handler E (op.run fuel) R m) {ops : List Operation}
    (hops : ∀ op ∈ ops, Ok op) {d : Driver} {s : σ × (Nat → Answer)} :
    ∀ st ∈ steps env fuel ops d s, M.Accepts m st.trace := by
  intro st hst
  obtain ⟨pre, suf, heq⟩ := List.append_of_mem hst
  exact steps_induction Ok (fun _ _ => True) (fun _ st => M.Accepts m st.trace)
    (fun op hop d s _ _ => ⟨(step_of_monitor (h op hop) env d s).1, fun _ _ => trivial⟩)
    hops trivial heq

/-- A run has no other operations. -/
theorem op_mem {env : Environment σ} {fuel : Nat} {ops : List Operation} {d : Driver}
    {s : σ × (Nat → Answer)} {st : Step σ} (h : st ∈ steps env fuel ops d s) : st.op ∈ ops := by
  induction ops generalizing d s with
  | nil => cases h
  | cons op ops ih =>
    rw [steps] at h
    rcases List.mem_cons.mp h with rfl | h
    · exact List.mem_cons_self
    · split at h
      · exact List.mem_cons_of_mem op (ih h)
      · cases h

/-- A run all of whose operations return is complete. -/
theorem length_steps {env : Environment σ} {fuel : Nat} {ops : List Operation} {d : Driver}
    {s : σ × (Nat → Answer)} (h : ∀ x ∈ steps env fuel ops d s, ∃ r, x.result = .ok r) :
    (steps env fuel ops d s).length = ops.length := by
  induction ops generalizing d s with
  | nil => rfl
  | cons op ops ih =>
    obtain ⟨r, hr⟩ := h _ List.mem_cons_self
    rw [steps] at h ⊢
    rcases heval : (op.run fuel d).eval (withStack env) s with ⟨e | ⟨r', d'⟩, s'⟩
    · simp [Operation.step, heval, Except.map] at hr
    · rw [heval] at h
      exact congrArg (· + 1) (ih fun x hx => h x (List.mem_cons_of_mem _ hx))

/-! ## Runs as sequences -/

/-- A run is a sequence of operations that hand on the driver's globals, the environment and the
stack. -/
theorem steps_eq_runs (env : Environment σ) (fuel : Nat) (ops : List Operation) (d : Driver)
    (s : σ × (Nat → Answer)) :
    steps env fuel ops d s = runs (fun op x => (op.step env fuel x.1 x.2,
      resumption ((op.run fuel x.1).eval (withStack env) x.2))) ops (d, s) := by
  induction ops generalizing d s with
  | nil => rfl
  | cons op ops ih =>
    rw [steps, runs]
    rcases (op.run fuel d).eval (withStack env) s with ⟨e | ⟨r, d'⟩, s'⟩
    · rfl
    · exact congrArg _ (ih d' s')

theorem step_after {env : Environment σ} {fuel : Nat} {op : Operation}
    {x x' : Driver × σ × (Nat → Answer)}
    (h : resumption ((op.run fuel x.1).eval (withStack env) x.2) = some x') :
    (op.step env fuel x.1 x.2).after = x'.2.1 := by
  unfold Operation.step
  rcases heval : (op.run fuel x.1).eval (withStack env) x.2 with ⟨e | ⟨r, d'⟩, s'⟩
  · rw [heval] at h
    cases h
  · rw [heval] at h
    cases h
    rfl

end SpiNand
