import SpiNand.Rtt.Terminals

/-!
# Messages in the default mode

`SEGGER_RTT_Init()` leaves the channel in the mode that skips what does not fit. Then the stream is
made of whole messages: a call sends all of its message or nothing, and nothing only if there was
not enough room for it when the call began. What it returns is the same in all runs where it sends
its message, and in all where it does not (`messages_whole`).
-/

namespace SpiNand.Rtt

open Interaction Interaction.Prog

/-! ## Messages -/

/-- What a call sends while the terminal `t` is set, unless it sends nothing. -/
def UpCall.message (t : UInt8) : UpCall → List UInt8
  | .setTerminal id => terminalSwitch id
  | .terminalOut id s => framed id t s
  | call => call.text

/-- The terminal that is set after the message was sent. -/
def UpCall.nextTerminal (t : UInt8) : UpCall → UInt8
  | .setTerminal id => id
  | _ => t

/-- There is such a terminal. -/
def UpCall.HasTerminal : UpCall → Prop
  | .setTerminal id | .terminalOut id _ => id.toNat < aTerminalId.length
  | _ => True

/-- What a call returns that has sent its message, or that has sent nothing. `_write()` returns the
length in both cases, and `am_print_string()` returns nothing. -/
def UpCall.answer (sent : Bool) : UpCall → Int
  | .writeNoLock s | .write s | .writeString s => if sent then s.length else 0
  | .writeSkipNoLock _ | .putCharSkipNoLock _ | .putCharSkip _ | .putChar _ => if sent then 1 else 0
  | .setTerminal _ => if sent then 0 else -1
  | .terminalOut id s =>
    if sent then s.length else if id.toNat < aTerminalId.length then 0 else -1
  | .libcWrite s => s.length
  | .amPrintString _ | .setFlagsUpBuffer _ => 0

/-- The result of the call says whether it has sent its message. -/
def UpCall.Tells : UpCall → Prop
  | .writeNoLock s | .write s | .writeString s | .terminalOut _ s => s ≠ []
  | .libcWrite _ | .amPrintString _ | .setFlagsUpBuffer _ => False
  | _ => True

theorem answer_ne {call : UpCall} (h : call.Tells) : call.answer true ≠ call.answer false := by
  have hlength : ∀ {s : List UInt8}, s ≠ [] → ((s.length : Nat) : Int) ≠ 0 := by
    intro s hs
    have hpos := List.length_pos_of_ne_nil hs
    omega
  cases call with
  | writeNoLock s | write s | writeString s => exact hlength h
  | terminalOut id s =>
    have hpos := hlength h
    show ((s.length : Nat) : Int) ≠ if id.toNat < aTerminalId.length then 0 else -1
    split
    · exact hpos
    · omega
  | libcWrite s | amPrintString s => exact h.elim
  | setFlagsUpBuffer Flags => exact h.elim
  | writeSkipNoLock s | putCharSkipNoLock ch | putCharSkip ch | putChar ch =>
    exact show (1 : Int) ≠ 0 by decide
  | setTerminal id => exact show (0 : Int) ≠ -1 by decide

/-- The call leaves the mode of the channel as it is. -/
def UpCall.KeepsMode : UpCall → Prop
  | .setFlagsUpBuffer _ => False
  | _ => True

/-- The calls of a run and the stream of their messages, some of which were skipped. -/
inductive Whole : UInt8 → List CallStep → List UInt8 → Prop where
  | nil (t : UInt8) : Whole t [] []
  | sent {t : UInt8} {x : CallStep} {xs : List CallStep} {stream : List UInt8}
      (hresult : x.result = .ok (x.call.answer true))
      (tail : Whole (x.call.nextTerminal t) xs stream) :
      Whole t (x :: xs) (x.call.message t ++ stream)
  | skipped {t : UInt8} {x : CallStep} {xs : List CallStep} {stream : List UInt8}
      (hresult : x.result = .ok (x.call.answer false))
      (hroom : x.call.HasTerminal → x.before.1.free < (x.call.message t).length)
      (tail : Whole t xs stream) : Whole t (x :: xs) stream

/-! ## One call -/

variable {c : Setting}

/-- A call in the default mode, as one step. -/
inductive OneMessage (call : UpCall) (c : Setting) (room : Nat) (o : Outcome) : Prop where
  | sent (hresult : o.result = call.answer true) (hbytes : o.bytes = call.message c.active)
      (hsetting : o.setting = { c with active := call.nextTerminal c.active })
  | skipped (hresult : o.result = call.answer false) (hbytes : o.bytes = [])
      (hsetting : o.setting = c)
      (hroom : call.HasTerminal → room < (call.message c.active).length)

theorem outcome_whole {call : UpCall} (hcall : call.KeepsMode)
    (hskip : c.flags = seggerRttModeNoBlockSkip) (room : Nat) :
    OneMessage call c room (call.outcome c room) := by
  have hmode : c.mode = seggerRttModeNoBlockSkip := by
    unfold Setting.mode
    rw [hskip]
    rfl
  have haccepted : ∀ len, accepted c.flags room len = if room < len then 0 else len := by
    intro len
    unfold accepted
    rw [if_pos hskip]
  have hframed : ∀ (id : UInt8) (s : List UInt8), (framed id c.active s).length = s.length + 4 := by
    intro id s
    unfold framed terminalSwitch
    simp only [List.length_append, List.length_cons, List.length_nil]
    omega
  cases call with
  | writeNoLock s | write s | writeString s | amPrintString s | libcWrite s =>
    by_cases hroom : room < s.length
    · simp only [UpCall.outcome, haccepted, if_pos hroom]
      exact .skipped rfl rfl rfl fun _ => hroom
    · simp only [UpCall.outcome, haccepted, if_neg hroom, List.take_length]
      exact .sent rfl rfl rfl
  | writeSkipNoLock s =>
    by_cases hroom : room < s.length
    · simp only [UpCall.outcome, if_pos hroom]
      exact .skipped rfl rfl rfl fun _ => hroom
    · simp only [UpCall.outcome, if_neg hroom]
      exact .sent rfl rfl rfl
  | putCharSkipNoLock ch | putCharSkip ch =>
    by_cases hroom : room < 1
    · simp only [UpCall.outcome, if_pos hroom]
      exact .skipped rfl rfl rfl fun _ => hroom
    · simp only [UpCall.outcome, if_neg hroom]
      exact .sent rfl rfl rfl
  | putChar ch =>
    have hblock : c.flags ≠ seggerRttModeBlockIfFifoFull := by
      rw [hskip]
      decide
    by_cases hroom : room < 1
    · simp only [UpCall.outcome, if_pos (And.intro hroom hblock)]
      exact .skipped rfl rfl rfl fun _ => hroom
    · simp only [UpCall.outcome, if_neg fun hboth : room < 1 ∧ _ => hroom hboth.1]
      exact .sent rfl rfl rfl
  | setFlagsUpBuffer Flags => exact hcall.elim
  | setTerminal id =>
    by_cases hok : id.toNat < aTerminalId.length ∧
        (c.mode = seggerRttModeBlockIfFifoFull ∨ 2 ≤ room)
    · simp only [UpCall.outcome, if_pos hok]
      exact .sent rfl rfl rfl
    · simp only [UpCall.outcome, if_neg hok]
      refine .skipped rfl rfl rfl fun hid => ?_
      show room < 2
      by_contra hlt
      exact hok ⟨hid, .inr (by omega)⟩
  | terminalOut id s =>
    by_cases hid : aTerminalId.length ≤ id.toNat
    · simp only [UpCall.outcome, if_pos hid]
      refine .skipped ?_ rfl rfl fun hlt => absurd hid (Nat.not_le.mpr hlt)
      exact (if_neg (Nat.not_lt.mpr hid)).symm
    · by_cases hroom : room < s.length + 4
      · simp only [UpCall.outcome, if_neg hid, if_pos hmode, if_pos hroom]
        refine .skipped (if_pos (Nat.not_le.mp hid)).symm rfl rfl fun _ => ?_
        show room < (framed id c.active s).length
        rw [hframed]
        exact hroom
      · simp only [UpCall.outcome, if_neg hid, if_pos hmode, if_neg hroom]
        exact .sent rfl rfl rfl

/-! ## Runs -/

theorem atomically_whole {xs : List CallStep} {c' : Setting} {stream : List UInt8}
    (h : Atomically c xs c' stream) (hskip : c.flags = seggerRttModeNoBlockSkip)
    (hcalls : ∀ x ∈ xs, x.call.KeepsMode) : Whole c.active xs stream := by
  induction h with
  | nil c => exact .nil c.active
  | @returned c c' x xs stream room hbefore hafter hresult tail ih =>
    have hrest := fun hskip' =>
      ih hskip' fun x hx => hcalls x (List.mem_cons_of_mem _ hx)
    cases outcome_whole (hcalls x List.mem_cons_self) hskip room with
    | sent hanswer hbytes hsetting =>
      rw [hsetting] at hrest
      rw [hanswer] at hresult
      rw [hbytes]
      exact .sent hresult (hrest hskip)
    | skipped hanswer hbytes hsetting hroom =>
      rw [hsetting] at hrest
      rw [hanswer] at hresult
      rw [hbytes, List.nil_append]
      exact .skipped hresult (fun hid => Nat.lt_of_le_of_lt hbefore (hroom hid)) (hrest hskip)
  | @waiting c x room k hbefore hwaits hfull hresult =>
    have hblock := mode_of_waits hwaits
    unfold Setting.mode at hblock
    rw [hskip] at hblock
    exact absurd hblock (by decide)

/-- The initialisation leaves an empty buffer, in the default mode. -/
theorem init_fresh (m : Memory) {z : UInt32} (hz : 0 < z.toNat) :
    ∃ m', (seggerRttInit z).eval Memory.access m = (.ok (), m') ∧
      Fresh (m', ⟨0, 0, []⟩) ∧ m'.setting = ⟨z, seggerRttModeNoBlockSkip, m.activeTerminal⟩ := by
  refine ⟨_, rfl, ?_, ?_⟩
  · constructor
    · simp [Memory.access]
    · simpa [Memory.access] using hz
    · simp [Memory.access]
    · simp [Memory.access]
    · rfl
  · simp [Memory.access, Memory.setting]

variable {w : Memory × UpHost}

theorem run_whole (hw : Fresh w) (hskip : w.1.setting.flags = seggerRttModeNoBlockSkip) {fuel : Nat}
    (hfuel : 2 ≤ fuel) {calls : List UpCall} (hsized : ∀ call ∈ calls, call.Sized)
    (hcalls : ∀ call ∈ calls, call.KeepsMode) (sched : Nat → List HostStep) :
    ((runCalls fuel calls (w, sched)).1.map CallStep.call = calls ∧
      ∀ x ∈ (runCalls fuel calls (w, sched)).1, ∃ v, x.result = .ok v) ∧
    ∃ c' stream known', Whole w.1.activeTerminal (runCalls fuel calls (w, sched)).1 stream ∧
      Up c' stream [] known' (runCalls fuel calls (w, sched)).2 := by
  obtain ⟨c', stream, known', hatomic, hup⟩ := run_atomic hfuel hsized hw.up sched
  have hmem := mem_calls fuel calls (w, sched)
  have hwhole := atomically_whole hatomic hskip fun x hx => hcalls _ (hmem x hx)
  have hkeeps : ∀ call ∈ calls, call.KeepsNonBlocking := by
    intro call hcall
    have hkeep := hcalls call hcall
    cases call with
    | setFlagsUpBuffer Flags => exact hkeep.elim
    | _ => trivial
  have hmode : w.1.setting.mode ≠ seggerRttModeBlockIfFifoFull := by
    unfold Setting.mode
    rw [hskip]
    decide
  exact ⟨run_returns hatomic hkeeps hmode, c', stream, known', hwhole, hup⟩

/-- **Whole messages or nothing.** After `SEGGER_RTT_Init()` every call of a run that does not
change the mode returns, and the stream is made of whole messages in the order of the calls. A
message is missing only if there was not enough room for it when its call began, or if there is no
such terminal, and where the result of the call can tell, it does. -/
theorem messages_whole (m : Memory) {fuel : Nat} (hfuel : 2 ≤ fuel) (calls : List UpCall)
    (hsized : ∀ call ∈ calls, call.Sized) (hcalls : ∀ call ∈ calls, call.KeepsMode)
    (sched : Nat → List HostStep) :
    ∃ m', (seggerRttInit bufferSizeUp).eval Memory.access m = (.ok (), m') ∧
      (runCalls fuel calls ((m', ⟨0, 0, []⟩), sched)).1.map CallStep.call = calls ∧
      ∃ stream, Whole m.activeTerminal (runCalls fuel calls ((m', ⟨0, 0, []⟩), sched)).1 stream ∧
        (∀ call ∈ calls, call.Tells → call.answer true ≠ call.answer false) ∧
        ∀ later : List HostStep,
          let w' := later.foldl UpHost.act (runCalls fuel calls ((m', ⟨0, 0, []⟩), sched)).2
          w'.2.received ++ unread w' = stream := by
  obtain ⟨m', heval, hfresh, hsetting⟩ := init_fresh (z := bufferSizeUp) m (by decide)
  have hskip : m'.setting.flags = seggerRttModeNoBlockSkip := by rw [hsetting]
  have hactive : m'.setting.active = m.activeTerminal := by rw [hsetting]
  obtain ⟨⟨hreturned, -⟩, c', stream, known', hwhole, hup⟩ :=
    run_whole hfresh hskip hfuel hsized hcalls sched
  rw [← hactive]
  refine ⟨m', heval, hreturned, stream, hwhole, fun _ _ htells => answer_ne htells,
    fun later => ?_⟩
  have hlater := (stable_up c' stream [] known').foldl hup later
  exact hlater.received_unread.1

/-- Messages to a host that does not read. -/
def smallMessages : List UpCall :=
  [.libcWrite [79, 75, 10], .terminalOut 3 [33], .writeSkipNoLock [46], .putChar 10]

theorem smallMessages_whole :
    ∃ m', (seggerRttInit bufferSizeUp).eval Memory.access (smallChannel 2).1 = (.ok (), m') ∧
      (runCalls 2 smallMessages ((m', ⟨0, 0, []⟩), fun _ => [])).1.map CallStep.call =
        smallMessages ∧
      ∃ stream, Whole 0 (runCalls 2 smallMessages ((m', ⟨0, 0, []⟩), fun _ => [])).1 stream ∧
        (∀ call ∈ smallMessages, call.Tells → call.answer true ≠ call.answer false) ∧
        ∀ later : List HostStep,
          let w' := later.foldl UpHost.act
            (runCalls 2 smallMessages ((m', ⟨0, 0, []⟩), fun _ => [])).2
          w'.2.received ++ unread w' = stream :=
  messages_whole (smallChannel 2).1 (by decide) smallMessages
    (by unfold smallMessages; simp [UpCall.Sized])
    (by unfold smallMessages; simp [UpCall.KeepsMode]) _

end SpiNand.Rtt
