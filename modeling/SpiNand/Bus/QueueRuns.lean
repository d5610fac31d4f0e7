import SpiNand.Bus.Runs
import SpiNand.Driver.QuadRead

/-!
# Runs with quad reads

`QueueOperation` adds the two quad reads to the public operations, which all go out on a single
lane. `queueSteps` runs a list of them one after the other, and `queueSteps_induction` is the rule
for such runs.
-/

namespace SpiNand

open Interaction Interaction.Prog

variable {σ : Type}

/-- The quad reads, and the public operations. -/
inductive QueueOperation
  | readX4 (columnAddr : UInt16) (data : List UInt8) (dataLen : UInt32)
  | readQuadio (columnAddr : UInt16) (data dataLen : UInt32)
  | single (op : Operation)

/-- The function behind an operation. -/
def QueueOperation.run (fuel : Nat) : QueueOperation → QueueM OpResult
  | .readX4 columnAddr data dataLen => hal do
    let (ui32Status, data) ← nandCmdReadX4 columnAddr data dataLen
    return ⟨ui32Status, data, none⟩
  | .readQuadio columnAddr data dataLen => do
    return ⟨← nandCmdReadQuadio columnAddr data dataLen, [], none⟩
  | .single op => hal (op.run fuel)

/-- Whoever answers a driver with a queue. -/
abbrev QueueEnvironment (σ : Type) := σ → QueueCall → Answer × σ

/-- One operation of a run: what it was, what was exchanged before it, the driver and the
environment it started from, what it exchanged, and its result with the driver it leaves, unless
it was stopped. -/
structure QueueStep (σ : Type) where
  op : QueueOperation
  past : QueueTrace
  driver : Driver
  before : σ
  trace : QueueTrace
  result : Except Halt (OpResult × Driver)
  after : σ

/-- One operation in an environment. -/
def QueueOperation.step (env : QueueEnvironment σ) (fuel : Nat) (op : QueueOperation)
    (past : QueueTrace) (d : Driver) (s : σ) : QueueStep σ where
  op := op
  past := past
  driver := d
  before := s
  trace := (op.run fuel d).trace env s
  result := ((op.run fuel d).eval env s).1
  after := ((op.run fuel d).eval env s).2

/-- A run of operations one after the other. It ends early where an operation does not return. -/
def queueSteps (env : QueueEnvironment σ) (fuel : Nat) :
    List QueueOperation → QueueTrace → Driver → σ → List (QueueStep σ)
  | [], _, _, _ => []
  | op :: ops, past, d, s =>
    let st := op.step env fuel past d s
    st :: match st.result with
      | .ok (_, d') => queueSteps env fuel ops (past ++ st.trace) d' st.after
      | .error _ => []

/-- The first operation is a step of the run. -/
theorem step_mem_queueSteps (env : QueueEnvironment σ) (fuel : Nat) (op : QueueOperation)
    (ops : List QueueOperation) (past : QueueTrace) (d : Driver) (s : σ) :
    op.step env fuel past d s ∈ queueSteps env fuel (op :: ops) past d s :=
  List.mem_cons_self

/-- **The rule for runs with quad reads.** If each operation that meets the condition `A`, started
where `I` holds, satisfies `P` and leaves `I` behind if it returns, then in a run all of whose
steps meet the condition all steps satisfy `P`. -/
theorem queueSteps_induction {env : QueueEnvironment σ} {fuel : Nat} {A P : QueueStep σ → Prop}
    {I : QueueTrace → Driver → Prop}
    (hstep : ∀ (op : QueueOperation) past d s, I past d → A (op.step env fuel past d s) →
      P (op.step env fuel past d s) ∧ ∀ r d', (op.step env fuel past d s).result = .ok (r, d') →
        I (past ++ (op.step env fuel past d s).trace) d')
    {ops : List QueueOperation} {past : QueueTrace} {d : Driver} {s : σ} (hI : I past d)
    (hA : ∀ st ∈ queueSteps env fuel ops past d s, A st) :
    ∀ st ∈ queueSteps env fuel ops past d s, P st := by
  induction ops generalizing past d s with
  | nil => exact fun st hst => absurd hst List.not_mem_nil
  | cons op ops ih =>
    rw [queueSteps] at hA ⊢
    obtain ⟨hP, hnext⟩ := hstep op past d s hI (hA _ List.mem_cons_self)
    intro st hst
    rcases List.mem_cons.mp hst with rfl | hst
    · exact hP
    · match hres : (op.step env fuel past d s).result with
      | .ok (r, d') =>
        rw [hres] at hst
        refine ih (hnext r d' hres) (fun st' hst' => hA st' (List.mem_cons_of_mem _ ?_)) st hst
        rwa [hres]
      | .error e =>
        rw [hres] at hst
        exact absurd hst List.not_mem_nil

end SpiNand
