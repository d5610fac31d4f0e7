import SpiNand.Rtt.Lines

/-!
# What the driver prints

`system_init` gives `am_print_string` to `am_util_stdio_printf_init()`, so what the driver prints
goes to the host over the channel, while the host reads it at its own pace. The driver does not
notice (`steps_withConsole`), and the host receives whole lines (`console_lines`).

`am_util_stdio_printf()` is code of the Ambiq SDK, which is not here: a parameter, of which nothing
is assumed but that it hands the lines of the driver on (`Printf.Redirects`).
-/

namespace SpiNand.Rtt

open Interaction Interaction.Prog

variable {σ α : Type}

/-! ## An environment with a console -/

/-- The channel, and what its host will do. -/
abbrev Console := (Memory × UpHost) × (Nat → List HostStep)

/-- A line of the driver, as a call. -/
def lineCall (text : String) : UpCall := .amPrintString (lineBytes text)

/-- `am_util_stdio_printf()`, as a program of the function that it prints with. -/
abbrev Printf := (List UInt8 → TargetM Unit) → String → TargetM Unit

/-- A short line goes to that function, in one call. -/
def Printf.Redirects (printf : Printf) : Prop :=
  ∀ print text, (lineBytes text).length ≤ maxLine → printf print text = print (lineBytes text)

def printLine (printf : Printf) (turns : Nat) (con : Console) (text : String) : Console :=
  ((printf (amPrintString turns) text).eval (interleave UpHost.act env) con).2

/-- The surroundings `dev` of the driver, and a console that prints. -/
def withConsole (dev : Environment σ) (printf : Printf) (turns : Nat) :
    Environment (σ × Console)
  | s, .void (.printf text) =>
    ((dev s.1 (.void (.printf text))).1,
      ((dev s.1 (.void (.printf text))).2, printLine printf turns s.2 text))
  | s, q => ((dev s.1 q).1, ((dev s.1 q).2, s.2))

/-! ## The driver does not notice -/

/-- A program returns and asks the same as without a console, and leaves the console as printing
its lines does. -/
theorem eval_withConsole (dev : Environment σ) (printf : Printf) (turns : Nat)
    (p : Prog Call Answer Halt α) (s : σ) (con : Console) (stack : Nat → Answer) :
    p.trace (withStack (withConsole dev printf turns)) ((s, con), stack) =
        p.trace (withStack dev) (s, stack) ∧
      p.eval (withStack (withConsole dev printf turns)) ((s, con), stack) =
        ((p.eval (withStack dev) (s, stack)).1,
          (((p.eval (withStack dev) (s, stack)).2.1,
            (consoleLines (p.trace (withStack dev) (s, stack))).foldl (printLine printf turns) con),
            (p.eval (withStack dev) (s, stack)).2.2)) := by
  induction p generalizing s con stack with
  | done a => exact ⟨rfl, rfl⟩
  | stop e => exact ⟨rfl, rfl⟩
  | ask q k ih =>
    cases q with
    | uninit =>
      have hrest := ih (stack 0) s con fun n => stack (n + 1)
      exact ⟨congrArg _ hrest.1, hrest.2⟩
    | blockingTransfer t =>
      have hrest := ih (dev s (.blockingTransfer t)).1 (dev s (.blockingTransfer t)).2 con stack
      exact ⟨congrArg _ hrest.1, hrest.2⟩
    | setup c =>
      have hrest := ih (dev s (.setup c)).1 (dev s (.setup c)).2 con stack
      exact ⟨congrArg _ hrest.1, hrest.2⟩
    | void v =>
      cases v with
      | printf text =>
        have hrest := ih (dev s (.void (.printf text))).1 (dev s (.void (.printf text))).2
          (printLine printf turns con text) stack
        exact ⟨congrArg _ hrest.1, hrest.2⟩
      | _ =>
        refine ⟨congrArg _ (ih _ _ con stack).1, ?_⟩
        exact (ih _ _ con stack).2

/-- A step, without the console. -/
def silent (st : Step (σ × Console)) : Step σ :=
  ⟨st.op, st.before.1, st.trace, st.result, st.after.1⟩

theorem sent_silent (run : List (Step (σ × Console))) :
    SpiNand.sent (run.map silent) = SpiNand.sent run :=
  List.flatMap_map ..

theorem step_withConsole (dev : Environment σ) (printf : Printf) (turns fuel : Nat)
    (op : Operation) (d : Driver) (s : σ) (con : Console) (stack : Nat → Answer) :
    silent (op.step (withConsole dev printf turns) fuel d ((s, con), stack)) =
        op.step dev fuel d (s, stack) ∧
      (op.step (withConsole dev printf turns) fuel d ((s, con), stack)).after.2 =
        (consoleLines (op.step dev fuel d (s, stack)).trace).foldl
          (printLine printf turns) con := by
  obtain ⟨htrace, heval⟩ := eval_withConsole dev printf turns (op.run fuel d) s con stack
  unfold silent Operation.step
  rw [htrace, heval]
  exact ⟨rfl, rfl⟩

/-- The operations of a run return and ask the same as without a
console, and leave it as printing their lines does. -/
theorem steps_withConsole (dev : Environment σ) (printf : Printf) (turns fuel : Nat)
    (ops : List Operation) (d : Driver) (s : σ) (con : Console) (stack : Nat → Answer) :
    (steps (withConsole dev printf turns) fuel ops d ((s, con), stack)).map silent =
        steps dev fuel ops d (s, stack) ∧
      ∀ pre st suf,
        steps (withConsole dev printf turns) fuel ops d ((s, con), stack) = pre ++ st :: suf →
        st.after.2 =
          (consoleLines (SpiNand.sent (pre ++ [st]))).foldl (printLine printf turns) con := by
  induction ops generalizing d s con stack with
  | nil =>
    refine ⟨rfl, fun pre st suf heq => ?_⟩
    simp [steps] at heq
  | cons op ops ih =>
    obtain ⟨hsilent, hafter⟩ := step_withConsole dev printf turns fuel op d s con stack
    obtain ⟨-, heval⟩ := eval_withConsole dev printf turns (op.run fuel d) s con stack
    have htrace : (op.step (withConsole dev printf turns) fuel d ((s, con), stack)).trace =
        (op.step dev fuel d (s, stack)).trace := congrArg Step.trace hsilent
    have hlines : (op.step dev fuel d (s, stack)).trace =
        (op.run fuel d).trace (withStack dev) (s, stack) := rfl
    rw [steps, steps, heval]
    rcases hev : (op.run fuel d).eval (withStack dev) (s, stack) with ⟨result, s', stack'⟩
    cases result with
    | ok r =>
      obtain ⟨r, d'⟩ := r
      obtain ⟨hmap, hlast⟩ := ih d' s'
        ((consoleLines (op.step dev fuel d (s, stack)).trace).foldl (printLine printf turns) con)
        stack'
      refine ⟨?_, fun pre st suf heq => ?_⟩
      · rw [List.map_cons, hsilent]
        exact congrArg _ hmap
      · cases pre with
        | nil =>
          obtain ⟨rfl, -⟩ := List.cons.inj heq
          rw [hafter, List.nil_append, sent_cons, sent_nil, List.append_nil, htrace]
        | cons st₀ pre =>
          obtain ⟨rfl, htail⟩ := List.cons.inj heq
          rw [hlast pre st suf htail, List.cons_append, sent_cons, consoleLines_append,
            List.foldl_append, htrace]
    | error e =>
      refine ⟨?_, fun pre st suf heq => ?_⟩
      · rw [List.map_cons, hsilent]
        rfl
      · cases pre with
        | nil =>
          obtain ⟨rfl, -⟩ := List.cons.inj heq
          rw [hafter, List.nil_append, sent_cons, sent_nil, List.append_nil, htrace]
        | cons st₀ pre =>
          obtain ⟨rfl, htail⟩ := List.cons.inj heq
          simp at htail

/-! ## The host receives whole lines -/

variable {printf : Printf}

/-- A line that is printed is a call of `am_print_string()`. -/
theorem printLine_eq (hprintf : printf.Redirects) (turns : Nat) (con : Console) {text : String}
    (hshort : (lineBytes text).length ≤ maxLine) :
    printLine printf turns con text =
      (((lineCall text).prog turns).eval (interleave UpHost.act env) con).2 := by
  have hcall : (lineCall text).prog turns =
      (amPrintString turns (lineBytes text)).bind fun _ => Prog.done 0 := rfl
  unfold printLine
  rw [hprintf (amPrintString turns) text hshort, hcall, eval_bind]
  rcases (amPrintString turns (lineBytes text)).eval (interleave UpHost.act env) con with
    ⟨_ | _, con'⟩ <;> rfl

/-- Where every call returns, printing lines one after the other is a run of calls. -/
theorem foldl_printLine (hprintf : printf.Redirects) (turns : Nat) {lines : List String}
    (hlines : ∀ text ∈ lines, (lineBytes text).length ≤ maxLine) (con : Console)
    (hreturns : ∀ x ∈ (runCalls turns (lines.map lineCall) con).1, ∃ v, x.result = .ok v) :
    (lines.foldl (printLine printf turns) con).1 = (runCalls turns (lines.map lineCall) con).2 := by
  induction lines generalizing con with
  | nil => rfl
  | cons text lines ih =>
    rw [List.map_cons, runCalls] at hreturns ⊢
    rw [List.foldl_cons, printLine_eq hprintf turns con (hlines text List.mem_cons_self)]
    generalize ((lineCall text).prog turns).eval (interleave UpHost.act env) con = r at hreturns ⊢
    obtain ⟨result, con'⟩ := r
    cases result with
    | ok v =>
      exact ih (fun text' htext => hlines text' (List.mem_cons_of_mem _ htext)) con' fun x hx =>
        hreturns x (List.mem_cons_of_mem _ hx)
    | error e =>
      obtain ⟨v, hv⟩ := hreturns _ (List.mem_singleton.mpr rfl)
      cases hv

/-- The messages of lines are the lines, but for those that were skipped. -/
theorem Whole.lines {t : UInt8} {xs : List CallStep} {stream : List UInt8} (h : Whole t xs stream)
    {lines : List String} (hxs : xs.map CallStep.call = lines.map lineCall) :
    ∃ kept : List String, kept.Sublist lines ∧ stream = kept.flatMap lineBytes := by
  induction h generalizing lines with
  | nil t =>
    have hnone : lines = [] := by
      cases lines with
      | nil => rfl
      | cons text lines => cases hxs
    subst hnone
    exact ⟨[], List.Sublist.refl [], rfl⟩
  | @sent t x xs stream hresult tail ih =>
    cases lines with
    | nil => cases hxs
    | cons text lines =>
      obtain ⟨hcall, hrest⟩ := List.cons.inj hxs
      obtain ⟨kept, hkept, hstream⟩ := ih hrest
      refine ⟨text :: kept, hkept.cons_cons text, ?_⟩
      rw [hcall, hstream]
      rfl
  | @skipped t x xs stream hresult hroom tail ih =>
    cases lines with
    | nil => cases hxs
    | cons text lines =>
      obtain ⟨-, hrest⟩ := List.cons.inj hxs
      obtain ⟨kept, hkept, hstream⟩ := ih hrest
      exact ⟨kept, hkept.cons text, hstream⟩

/-- What was printed through a fresh channel in the default mode: the calls of the lines, of which
some lines were kept. -/
theorem printed_lines (hprintf : printf.Redirects) {w : Memory × UpHost} (hw : Fresh w)
    (hskip : w.1.setting.flags = seggerRttModeNoBlockSkip) {turns : Nat} (hturns : 2 ≤ turns)
    (sched : Nat → List HostStep) {lines : List String}
    (hlines : ∀ text ∈ lines, (lineBytes text).length ≤ maxLine) :
    let calls := runCalls turns (lines.map lineCall) (w, sched)
    calls.1.map CallStep.call = lines.map lineCall ∧
      (lines.foldl (printLine printf turns) (w, sched)).1 = calls.2 ∧
      ∃ kept : List String, Whole w.1.activeTerminal calls.1 (kept.flatMap lineBytes) ∧
        kept.Sublist lines ∧
        ∀ later : List HostStep,
          let w' := later.foldl UpHost.act calls.2
          w'.2.received ++ unread w' = kept.flatMap lineBytes := by
  have hsized : ∀ call ∈ lines.map lineCall, call.Sized := by
    intro call hcall
    obtain ⟨text, htext, rfl⟩ := List.mem_map.mp hcall
    have hshort := hlines text htext
    show (lineBytes text).length + 4 < 0x80000000
    unfold maxLine at hshort
    omega
  have hkeeps : ∀ call ∈ lines.map lineCall, call.KeepsMode := by
    intro call hcall
    obtain ⟨text, -, rfl⟩ := List.mem_map.mp hcall
    exact trivial
  obtain ⟨⟨hcalls, hreturns⟩, c', stream, known', hwhole, hup⟩ :=
    run_whole hw hskip hturns hsized hkeeps sched
  obtain ⟨kept, hkept, hstream⟩ := hwhole.lines hcalls
  rw [hstream] at hwhole hup
  have hprinted := foldl_printLine hprintf turns hlines (w, sched) hreturns
  refine ⟨hcalls, hprinted, kept, hwhole, hkept, fun later => ?_⟩
  have hlater := (stable_up c' _ [] known').foldl hup later
  exact hlater.received_unread.1

/-- **The console.** In every run of operations after `SEGGER_RTT_Init()`, with any answers of the
HAL and the flash and whatever the host does: the operations return and ask the same as without a
console. After each the channel is as the calls of `am_print_string()` with the lines printed so far
leave it, and the host has received the start of those lines, but for whole lines that were
skipped, each for lack of room when it was printed. -/
theorem console_lines (dev : Environment σ) {printf : Printf} (hprintf : printf.Redirects)
    {turns : Nat} (hturns : 2 ≤ turns) (fuel : Nat) (ops : List Operation) (d : Driver) (s : σ)
    (stack : Nat → Answer) (m : Memory) (sched : Nat → List HostStep) :
    ∃ m', (seggerRttInit bufferSizeUp).eval Memory.access m = (.ok (), m') ∧
      let run := steps (withConsole dev printf turns) fuel ops d
        ((s, ((m', ⟨0, 0, []⟩), sched)), stack)
      run.map silent = steps dev fuel ops d (s, stack) ∧
        ∀ pre st suf, run = pre ++ st :: suf →
          let lines := consoleLines (SpiNand.sent (pre ++ [st]))
          let calls := runCalls turns (lines.map lineCall) ((m', ⟨0, 0, []⟩), sched)
          calls.1.map CallStep.call = lines.map lineCall ∧ st.after.2.1 = calls.2 ∧
            ∃ kept : List String, Whole m.activeTerminal calls.1 (kept.flatMap lineBytes) ∧
              kept.Sublist lines ∧
              ∀ later : List HostStep,
                let w' := later.foldl UpHost.act calls.2
                w'.2.received ++ unread w' = kept.flatMap lineBytes := by
  obtain ⟨m', heval, hfresh, hsetting⟩ := init_fresh (z := bufferSizeUp) m (by decide)
  have hskip : m'.setting.flags = seggerRttModeNoBlockSkip := by rw [hsetting]
  have hactive : m'.activeTerminal = m.activeTerminal := congrArg Setting.active hsetting
  obtain ⟨hsilent, hafter⟩ :=
    steps_withConsole dev printf turns fuel ops d s ((m', ⟨0, 0, []⟩), sched) stack
  refine ⟨m', heval, hsilent, fun pre st suf heq => ?_⟩
  rw [hafter pre st suf heq, ← hactive]
  apply printed_lines hprintf hfresh hskip hturns sched
  intro text htext
  apply lines_short dev fuel ops d (s, stack)
  -- the lines printed so far are among those of the whole run
  have hall : SpiNand.sent (steps dev fuel ops d (s, stack)) =
      SpiNand.sent (pre ++ [st]) ++ SpiNand.sent suf := by
    rw [← hsilent, sent_silent, heq, List.append_cons]
    exact List.flatMap_append
  rw [hall, consoleLines_append]
  exact List.mem_append_left _ htext

/-- A bus on which everything fails. -/
def deadBus : Environment Unit := fun _ _ => (⟨amHalStatusTimeout, fun _ => 0⟩, ())

/-- A `printf` that prints every string in one call. -/
def plainPrintf : Printf := fun print text => print (lineBytes text)

theorem plainPrintf_redirects : plainPrintf.Redirects := fun _ _ _ => rfl

theorem deadBus_console :
    ∃ m', (seggerRttInit bufferSizeUp).eval Memory.access (smallChannel 0).1 = (.ok (), m') ∧
      let run := steps (withConsole deadBus plainPrintf 2) 1 [.init, .printBadBlocks] Driver.initial
        (((), ((m', ⟨0, 0, []⟩), fun _ => [.look])), fun _ => .zero)
      run.map silent =
          steps deadBus 1 [.init, .printBadBlocks] Driver.initial ((), fun _ => .zero) ∧
        ∀ pre st suf, run = pre ++ st :: suf →
          let lines := consoleLines (SpiNand.sent (pre ++ [st]))
          let calls := runCalls 2 (lines.map lineCall) ((m', ⟨0, 0, []⟩), fun _ => [.look])
          calls.1.map CallStep.call = lines.map lineCall ∧ st.after.2.1 = calls.2 ∧
            ∃ kept : List String,
              Whole (smallChannel 0).1.activeTerminal calls.1 (kept.flatMap lineBytes) ∧
              kept.Sublist lines ∧
              ∀ later : List HostStep,
                let w' := later.foldl UpHost.act calls.2
                w'.2.received ++ unread w' = kept.flatMap lineBytes :=
  console_lines deadBus plainPrintf_redirects (by decide) 1
    [.init, .printBadBlocks] Driver.initial () (fun _ => .zero) (smallChannel 0).1 _

end SpiNand.Rtt
