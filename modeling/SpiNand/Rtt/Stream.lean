import SpiNand.Rtt.Calls

/-!
# The stream from the target to the host

Runs of calls that write to an up-buffer, with the host reading it in between and meanwhile.
There is one stream of bytes to which each call adds what `UpCall.outcome` says, and the host has
received the start of it: nothing is lost, repeated or reordered, whatever the host does and when
(`runCalls_atomic`). A channel that does not block never waits (`runCalls_return`).
-/

namespace SpiNand.Rtt

open Interaction Interaction.Prog

/-! ## Runs -/

/-- The free cells, as the target computes them from the offsets. -/
def Memory.free (m : Memory) : Nat :=
  (if m.word .rdOff ≤ m.word .wrOff then
    m.word .sizeOfBuffer - 1 - m.word .wrOff + m.word .rdOff
  else
    m.word .rdOff - m.word .wrOff - 1).toNat

def Memory.setting (m : Memory) : Setting :=
  ⟨m.word .sizeOfBuffer, m.word .flags, m.activeTerminal⟩

/-- The bytes in the buffer that the host has not taken yet. -/
def unread (w : Memory × UpHost) : List UInt8 :=
  let size := (w.1.word .sizeOfBuffer).toNat
  let wr := (w.1.word .wrOff).toNat
  let rd := w.2.rdOff.toNat
  (List.range (if rd ≤ wr then wr - rd else size - rd + wr)).map fun i =>
    w.1.pBuffer ((rd + i) % size)

/-- A call of a run: the state before it, what it returned, and the state after it. -/
structure CallStep where
  call : UpCall
  before : Memory × UpHost
  result : Except Stop Int
  after : Memory × UpHost

/-- Calls one after the other, up to one that waits, and the state after them. The host follows a
schedule. -/
def runCalls (fuel : Nat) :
    List UpCall → (Memory × UpHost) × (Nat → List HostStep) → List CallStep × (Memory × UpHost)
  | [], s => ([], s.1)
  | call :: calls, s =>
    let r := (call.prog fuel).eval (interleave UpHost.act env) s
    let x : CallStep := ⟨call, s.1, r.1, r.2.1⟩
    match r.1 with
    | .ok _ => (x :: (runCalls fuel calls r.2).1, (runCalls fuel calls r.2).2)
    | .error _ => ([x], r.2.1)

/-- A run makes no other calls. -/
theorem mem_calls (fuel : Nat) (calls : List UpCall)
    (s : (Memory × UpHost) × (Nat → List HostStep)) :
    ∀ x ∈ (runCalls fuel calls s).1, x.call ∈ calls := by
  induction calls generalizing s with
  | nil => exact fun x hx => absurd hx List.not_mem_nil
  | cons call calls ih =>
    intro x hx
    unfold runCalls at hx
    generalize (call.prog fuel).eval (interleave UpHost.act env) s = r at hx
    obtain ⟨result, s'⟩ := r
    cases result with
    | ok v =>
      rcases List.mem_cons.mp hx with rfl | hx
      · exact List.mem_cons_self
      · exact List.mem_cons_of_mem _ (ih s' x hx)
    | error e =>
      obtain rfl := List.mem_singleton.mp hx
      exact List.mem_cons_self

/-- The calls of a run, each as one step, and the stream of bytes that they add up to: a call that
returns finds room that was there at some time during the call, and one that waits, which is the
last, has added a part of what it would add. -/
inductive Atomically : Setting → List CallStep → Setting → List UInt8 → Prop where
  | nil (c : Setting) : Atomically c [] c []
  | returned {c c' : Setting} {x : CallStep} {xs : List CallStep} {stream : List UInt8} (room : Nat)
      (hbefore : x.before.1.free ≤ room)
      (hafter : room ≤ x.after.1.free + (x.call.outcome c room).bytes.length)
      (hresult : x.result = .ok (x.call.outcome c room).result)
      (tail : Atomically (x.call.outcome c room).setting xs c' stream) :
      Atomically c (x :: xs) c' ((x.call.outcome c room).bytes ++ stream)
  | waiting {c : Setting} {x : CallStep} (room k : Nat) (hbefore : x.before.1.free ≤ room)
      (hwaits : x.call.Waits c) (hfull : room < (x.call.outcome c room).bytes.length)
      (hresult : x.result = .error .outOfFuel) :
      Atomically c [x] (x.call.outcome c room).setting ((x.call.outcome c room).bytes.take k)

/-! ## What the offsets say -/

variable {c : Setting} {items : List UInt8} {known : Nat} {w : Memory × UpHost}

theorem UpState.free {released taken seen : Nat}
    (hw : UpState c items [] known released taken seen w) :
    w.1.free + items.length + 1 = released + c.size.toNat := by
  have hqueue := hw.queue.learn
  have h1 := hqueue.released_le
  have h2 := hqueue.taken_le
  have h3 := hqueue.seen_le
  have hfits : items.length < released + c.size.toNat := by simpa using hqueue.fits
  unfold Memory.free
  rw [hw.size]
  exact toNat_avail hqueue.rd_eq hqueue.wr_eq (by omega) hfits

/-- What the host has taken and what it has not are the whole stream. -/
theorem Up.received_unread (h : Up c items [] known w) :
    w.2.received ++ unread w = items ∧ (unread w).length < c.size.toNat := by
  obtain ⟨released, taken, seen, hw⟩ := h
  have h1 := hw.queue.known_le
  have h2 := hw.queue.released_le
  have h3 := hw.queue.taken_le
  have h4 := hw.queue.seen_le
  have h5 : items.length < known + c.size.toNat := by simpa using hw.queue.fits
  have hused := Ring.used_eq (n := c.size.toNat) (a := taken) (b := items.length)
    (by omega) (by omega)
  rw [← hw.next, ← hw.queue.wr_eq] at hused
  have hunread : unread w = items.drop taken := by
    unfold unread
    rw [hw.size]
    apply List.ext_getElem?
    intro i
    rw [List.getElem?_drop, List.getElem?_map, hused]
    rcases Nat.lt_or_ge i (items.length - taken) with hlt | hge
    · have hlen : taken + i < (items ++ []).length := by
        rw [List.append_nil]
        omega
      have hcell := hw.queue.cell_eq (taken + i) (by omega) hlen
      have hitem : taken + i < items.length := by omega
      have hoff : (w.2.rdOff.toNat + i) % c.size.toNat = (taken + i) % c.size.toNat := by
        rw [hw.next, Nat.mod_add_mod]
      rw [List.getElem?_range hlt, List.getElem?_eq_getElem hitem, Option.map_some, hoff, hcell]
      simp
    · rw [List.getElem?_eq_none (by rw [List.length_range]; omega),
        List.getElem?_eq_none (by omega)]
      rfl
  rw [hunread, hw.received]
  refine ⟨List.take_append_drop taken items, ?_⟩
  rw [List.length_drop]
  omega

theorem outcome_size (c : Setting) (room : Nat) (call : UpCall) :
    (call.outcome c room).setting.size = c.size := by
  cases call <;> simp only [UpCall.outcome] <;> repeat' split
  all_goals rfl

/-! ## Every run is one of single steps -/

/-- One call, from a state that satisfies the invariant to one that does. -/
inductive OneCall (c : Setting) (items : List UInt8) (x : CallStep) : Prop where
  | returned (room known' : Nat) (hbefore : x.before.1.free ≤ room)
      (hafter : room ≤ x.after.1.free + (x.call.outcome c room).bytes.length)
      (hresult : x.result = .ok (x.call.outcome c room).result)
      (hup : Up (x.call.outcome c room).setting (items ++ (x.call.outcome c room).bytes) [] known'
        x.after)
  | waiting (room k known' : Nat) (hbefore : x.before.1.free ≤ room) (hwaits : x.call.Waits c)
      (hfull : room < (x.call.outcome c room).bytes.length)
      (hresult : x.result = .error .outOfFuel)
      (hup : Up (x.call.outcome c room).setting
        (items ++ (x.call.outcome c room).bytes.take k) [] known' x.after)

theorem call_atomic {fuel : Nat} {call : UpCall} (hfuel : 2 ≤ fuel) (hsized : call.Sized)
    (h : Up c items [] known w) (sched : Nat → List HostStep) :
    OneCall c items ⟨call, w, ((call.prog fuel).eval (interleave UpHost.act env) (w, sched)).1,
      ((call.prog fuel).eval (interleave UpHost.act env) (w, sched)).2.1⟩ := by
  obtain ⟨released, taken, seen, hw⟩ := h
  have hbefore := hw.free
  have hup : Up c items [] released w := ⟨released, taken, seen, hw.learn⟩
  have hwp : wp upHandler (fun e w' => OneCall c items ⟨call, w, .error e, w'⟩) (call.prog fuel)
      (fun v w' => OneCall c items ⟨call, w, .ok v, w'⟩) w := by
    apply wp_upCall hfuel hsized hup
    constructor
    · intro room seen' known' w' hseen hknown hroom hw'
      refine .returned room known' (by show w.1.free ≤ room; omega) ?_ rfl hw'
      obtain ⟨released', taken', seen'', hw'⟩ := hw'
      have hafter := hw'.free
      have hle := hw'.queue.known_le
      rw [outcome_size, List.length_append] at hafter
      show room ≤ w'.1.free + (call.outcome c room).bytes.length
      omega
    · intro room k known' w' hknown hroom hwaits hfull hw'
      exact .waiting room k known' (by show w.1.free ≤ room; omega) hwaits hfull rfl hw'
  have hrun := (wp_env_iff _ _ _ _).mp (wp_interleave hwp sched)
  generalize (call.prog fuel).eval (interleave UpHost.act env) (w, sched) = r at hrun
  obtain ⟨result, s'⟩ := r
  cases result with
  | ok v => exact hrun
  | error e => exact hrun

theorem run_atomic {fuel : Nat} (hfuel : 2 ≤ fuel) {calls : List UpCall}
    (hsized : ∀ call ∈ calls, call.Sized) (h : Up c items [] known w)
    (sched : Nat → List HostStep) :
    ∃ c' stream known', Atomically c (runCalls fuel calls (w, sched)).1 c' stream ∧
      Up c' (items ++ stream) [] known' (runCalls fuel calls (w, sched)).2 := by
  induction calls generalizing c items known w sched with
  | nil =>
    refine ⟨c, [], known, .nil c, ?_⟩
    rw [List.append_nil]
    exact h
  | cons call calls ih =>
    have hcall := call_atomic hfuel (hsized call List.mem_cons_self) h sched
    unfold runCalls
    generalize (call.prog fuel).eval (interleave UpHost.act env) (w, sched) = r at hcall
    obtain ⟨result, w', sched'⟩ := r
    cases hcall with
    | returned room known' hbefore hafter hresult hup =>
      have hok : result = .ok (call.outcome c room).result := hresult
      obtain ⟨c', stream, known'', htail, hup'⟩ :=
        ih (fun call hcall => hsized call (List.mem_cons_of_mem _ hcall)) hup sched'
      subst hok
      refine ⟨c', _, known'', .returned room hbefore hafter rfl htail, ?_⟩
      rw [← List.append_assoc]
      exact hup'
    | waiting room k known' hbefore hwaits hfull hresult hup =>
      have herror : result = .error .outOfFuel := hresult
      subst herror
      exact ⟨_, _, known', .waiting room k hbefore hwaits hfull rfl, hup⟩

/-! ## From an empty buffer -/

/-- An initialised channel whose buffer is empty, and a host that has just attached to it. -/
structure Fresh (w : Memory × UpHost) : Prop where
  acID : w.1.word .acID ≠ 0
  size : 0 < (w.1.word .sizeOfBuffer).toNat
  wrOff : w.1.word .wrOff = 0
  rdOff : w.1.word .rdOff = 0
  host : w.2 = ⟨0, 0, []⟩

theorem Fresh.up (hw : Fresh w) : Up w.1.setting [] [] 0 w := by
  have hqueue := Ring.Queue.empty hw.size w.1.pBuffer
  refine ⟨0, 0, 0, hw.acID, rfl, rfl, rfl, ?_, ?_, ?_, ?_⟩
  · rw [hw.wrOff, hw.rdOff]
    exact hqueue
  · rw [hw.host, Nat.zero_mod]
    rfl
  · rw [hw.host, Nat.zero_mod]
    rfl
  · rw [hw.host]
    rfl

/-- **One stream.** In every run of calls each call does what it does as one step, and at every
later time the host has received the start of what the calls have added to the stream; the rest
is in the buffer. -/
theorem runCalls_atomic (hw : Fresh w) {fuel : Nat} (hfuel : 2 ≤ fuel) (calls : List UpCall)
    (hsized : ∀ call ∈ calls, call.Sized) (sched : Nat → List HostStep) :
    ∃ c' stream, Atomically w.1.setting (runCalls fuel calls (w, sched)).1 c' stream ∧
      ∀ later : List HostStep,
        let w' := later.foldl UpHost.act (runCalls fuel calls (w, sched)).2
        w'.2.received ++ unread w' = stream ∧ (unread w').length < c'.size.toNat := by
  obtain ⟨c', stream, known', hatomic, hup⟩ := run_atomic hfuel hsized hw.up sched
  refine ⟨c', stream, hatomic, fun later => ?_⟩
  have hlater := (stable_up c' stream [] known').foldl hup later
  exact hlater.received_unread

/-- An up-buffer of eight bytes. -/
def smallWords (flags : UInt32) : Field → UInt32
  | .acID => 83
  | .sizeOfBuffer => 8
  | .wrOff => 0
  | .rdOff => 0
  | .flags => flags

/-- The buffer, and a host that has just attached. -/
def smallChannel (flags : UInt32) : Memory × UpHost :=
  (⟨smallWords flags, fun _ => 0, 0⟩, ⟨0, 0, []⟩)

theorem smallChannel_fresh (flags : UInt32) : Fresh (smallChannel flags) :=
  ⟨show (83 : UInt32) ≠ 0 by decide, show 0 < (8 : UInt32).toNat by decide, rfl, rfl, rfl⟩

/-- More than fits at a time, for two terminals. -/
def smallCalls : List UpCall :=
  [.write [104, 101, 108, 108, 111], .terminalOut 1 [33], .setFlagsUpBuffer 0, .putChar 10]

theorem smallCalls_sized : ∀ call ∈ smallCalls, call.Sized := by
  unfold smallCalls
  simp [UpCall.Sized]

theorem smallCalls_atomic :
    ∃ c' stream, Atomically (smallChannel 2).1.setting
        (runCalls 9 smallCalls (smallChannel 2, fun _ => [.look, .take, .release])).1 c' stream ∧
      ∀ later : List HostStep,
        let w' := later.foldl UpHost.act
          (runCalls 9 smallCalls (smallChannel 2, fun _ => [.look, .take, .release])).2
        w'.2.received ++ unread w' = stream ∧ (unread w').length < c'.size.toNat :=
  runCalls_atomic (smallChannel_fresh 2) (by decide) smallCalls smallCalls_sized _

/-! ## Channels that do not block -/

theorem mode_of_waits {call : UpCall} (h : call.Waits c) :
    c.mode = seggerRttModeBlockIfFifoFull := by
  have hmode : c.flags = seggerRttModeBlockIfFifoFull →
      c.mode = seggerRttModeBlockIfFifoFull := by
    intro hflags
    unfold Setting.mode
    rw [hflags]
    rfl
  cases call with
  | setTerminal id => exact h
  | terminalOut id s => exact h
  | writeSkipNoLock s => exact h.elim
  | putCharSkipNoLock ch => exact h.elim
  | putCharSkip ch => exact h.elim
  | setFlagsUpBuffer Flags => exact h.elim
  | writeNoLock s => exact hmode h
  | write s => exact hmode h
  | writeString s => exact hmode h
  | amPrintString s => exact hmode h
  | libcWrite s => exact hmode h
  | putChar ch => exact hmode h

/-- The call does not make a channel block. -/
def UpCall.KeepsNonBlocking : UpCall → Prop
  | .setFlagsUpBuffer Flags => Flags &&& seggerRttModeMask ≠ seggerRttModeBlockIfFifoFull
  | _ => True

theorem outcome_mode {call : UpCall} {room : Nat} (hcall : call.KeepsNonBlocking)
    (hmode : c.mode ≠ seggerRttModeBlockIfFifoFull) :
    (call.outcome c room).setting.mode ≠ seggerRttModeBlockIfFifoFull := by
  cases call with
  | setFlagsUpBuffer Flags => exact hcall
  | _ =>
    simp only [UpCall.outcome]
    repeat' split
    all_goals exact hmode

theorem run_returns {fuel : Nat} {calls : List UpCall}
    {s : (Memory × UpHost) × (Nat → List HostStep)} {c' : Setting} {stream : List UInt8}
    (h : Atomically c (runCalls fuel calls s).1 c' stream)
    (hcalls : ∀ call ∈ calls, call.KeepsNonBlocking)
    (hmode : c.mode ≠ seggerRttModeBlockIfFifoFull) :
    (runCalls fuel calls s).1.map CallStep.call = calls ∧
      ∀ x ∈ (runCalls fuel calls s).1, ∃ v, x.result = .ok v := by
  induction calls generalizing c s stream with
  | nil =>
    refine ⟨rfl, fun x hx => ?_⟩
    exact absurd hx List.not_mem_nil
  | cons call calls ih =>
    unfold runCalls at h ⊢
    generalize (call.prog fuel).eval (interleave UpHost.act env) s = r at h ⊢
    obtain ⟨result, s'⟩ := r
    cases result with
    | ok v =>
      have hrun : Atomically c (⟨call, s.1, .ok v, s'.1⟩ :: (runCalls fuel calls s').1) c' stream :=
        h
      generalize hrest : (runCalls fuel calls s').1 = xs at hrun
      cases hrun with
      | waiting room k hbefore hwaits hfull hresult => cases hresult
      | returned room hbefore hafter hresult htail =>
        subst hrest
        have hmode' : (call.outcome c room).setting.mode ≠ seggerRttModeBlockIfFifoFull :=
          outcome_mode (hcalls call List.mem_cons_self) hmode
        have hrest := ih htail (fun call hcall => hcalls call (List.mem_cons_of_mem _ hcall)) hmode'
        refine ⟨?_, fun x hx => ?_⟩
        · show call :: _ = _
          rw [hrest.1]
        · rcases List.mem_cons.mp hx with rfl | hx
          · exact ⟨v, rfl⟩
          · exact hrest.2 x hx
    | error e =>
      cases h with
      | returned room hbefore hafter hresult htail => cases hresult
      | waiting room k hbefore hwaits hfull hresult => exact absurd (mode_of_waits hwaits) hmode

/-- **A channel that does not block never waits for the host**, though `SEGGER_RTT_TerminalOut()`
writes with `_WriteBlocking()`: every call returns, whatever the host does and when. -/
theorem runCalls_return (hw : Fresh w) (hmode : w.1.setting.mode ≠ seggerRttModeBlockIfFifoFull)
    {fuel : Nat} (hfuel : 2 ≤ fuel) (calls : List UpCall) (hsized : ∀ call ∈ calls, call.Sized)
    (hcalls : ∀ call ∈ calls, call.KeepsNonBlocking) (sched : Nat → List HostStep) :
    (runCalls fuel calls (w, sched)).1.map CallStep.call = calls ∧
      ∀ x ∈ (runCalls fuel calls (w, sched)).1, ∃ v, x.result = .ok v := by
  obtain ⟨c', stream, known', hatomic, -⟩ := run_atomic hfuel hsized hw.up sched
  exact run_returns hatomic hcalls hmode

theorem smallCalls_return :
    (runCalls 2 smallCalls (smallChannel 1, fun _ => [])).1.map CallStep.call = smallCalls ∧
      ∀ x ∈ (runCalls 2 smallCalls (smallChannel 1, fun _ => [])).1, ∃ v, x.result = .ok v :=
  runCalls_return (smallChannel_fresh 1) (by decide) (by decide) smallCalls smallCalls_sized
    (by unfold smallCalls; simp [UpCall.KeepsNonBlocking]; decide) _

end SpiNand.Rtt
