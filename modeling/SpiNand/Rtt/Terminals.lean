import SpiNand.Rtt.Stream

/-!
# Terminals

One channel carries the output for sixteen terminals: `0xFF` and an identification switch the host
to another one. `Viewer` is what the host makes of the bytes it receives. If no text has a `0xFF`
in it, every text appears on the terminal that it is for, and a text of
`SEGGER_RTT_TerminalOut()` does not move what is written after it (`terminals_shown`).
-/

namespace SpiNand.Rtt

/-! ## The host's terminals -/

/-- The terminal that an identification names. -/
def terminalOf (b : UInt8) : UInt8 := UInt8.ofNat (aTerminalId.idxOf b)

/-- The terminal that the host writes to, whether a switch has begun, and the bytes that were
shown so far, each with its terminal. -/
structure Viewer where
  terminal : UInt8
  switching : Bool
  shown : List (UInt8 × UInt8)

/-- The host receives a byte. -/
def Viewer.see (v : Viewer) (b : UInt8) : Viewer :=
  if v.switching then { v with terminal := terminalOf b, switching := false }
  else if b = 0xFF then { v with switching := true }
  else { v with shown := v.shown ++ [(v.terminal, b)] }

def Viewer.sees (v : Viewer) (bytes : List UInt8) : Viewer := bytes.foldl see v

/-- A host that starts on the terminal `t`. -/
def Viewer.start (t : UInt8) : Viewer := ⟨t, false, []⟩

/-- A text on one terminal. -/
def onTerminal (t : UInt8) (s : List UInt8) : List (UInt8 × UInt8) := s.map fun b => (t, b)

namespace Viewer

variable {t id : UInt8} {shown : List (UInt8 × UInt8)} {s : List UInt8}

theorem sees_append (v : Viewer) (s s' : List UInt8) : v.sees (s ++ s') = (v.sees s).sees s' :=
  List.foldl_append

/-- Plain text is shown on the terminal it arrives at. -/
theorem sees_plain (h : 0xFF ∉ s) :
    sees ⟨t, false, shown⟩ s = ⟨t, false, shown ++ onTerminal t s⟩ := by
  induction s generalizing shown with
  | nil =>
    show (⟨t, false, shown⟩ : Viewer) = ⟨t, false, shown ++ []⟩
    rw [List.append_nil]
  | cons b s ih =>
    have hb : b ≠ 0xFF := fun heq => h (heq ▸ List.mem_cons_self)
    have hs : 0xFF ∉ s := fun hmem => h (List.mem_cons_of_mem b hmem)
    have hsee : see ⟨t, false, shown⟩ b = ⟨t, false, shown ++ [(t, b)]⟩ := by
      simp [see, hb]
    show sees (see ⟨t, false, shown⟩ b) s = _
    rw [hsee, ih hs, List.append_assoc]
    rfl

theorem terminalOf_aTerminalId (h : id.toNat < aTerminalId.length) :
    terminalOf (aTerminalId.getD id.toNat 0) = id := by
  have hall : ∀ n < 16, terminalOf (aTerminalId.getD n 0) = UInt8.ofNat n := by decide
  rw [hall id.toNat h, UInt8.ofNat_toNat]

/-- A switch moves the host and shows nothing. -/
theorem sees_switch (h : id.toNat < aTerminalId.length) :
    sees ⟨t, false, shown⟩ (terminalSwitch id) = ⟨id, false, shown⟩ := by
  have hid := terminalOf_aTerminalId h
  have hbegin : see ⟨t, false, shown⟩ 0xFF = ⟨t, true, shown⟩ := rfl
  show see (see ⟨t, false, shown⟩ 0xFF) (aTerminalId.getD id.toNat 0) = _
  rw [hbegin]
  show (⟨terminalOf (aTerminalId.getD id.toNat 0), false, shown⟩ : Viewer) = _
  rw [hid]

/-- A framed text is shown on its terminal, and the host is back where it was. -/
theorem sees_framed (hid : id.toNat < aTerminalId.length) (ht : t.toNat < aTerminalId.length)
    (hs : 0xFF ∉ s) :
    sees ⟨t, false, shown⟩ (framed id t s) = ⟨t, false, shown ++ onTerminal id s⟩ := by
  unfold framed
  rw [sees_append, sees_append, sees_switch hid, sees_plain hs, sees_switch ht]

/-- What the host makes of bytes does not depend on what it has shown before. -/
theorem sees_shown (t : UInt8) (switching : Bool) (shown : List (UInt8 × UInt8)) (s : List UInt8) :
    sees ⟨t, switching, shown⟩ s =
      { sees ⟨t, switching, []⟩ s with shown := shown ++ (sees ⟨t, switching, []⟩ s).shown } := by
  induction s generalizing t switching shown with
  | nil =>
    show (⟨t, switching, shown⟩ : Viewer) = ⟨t, switching, shown ++ []⟩
    rw [List.append_nil]
  | cons b s ih =>
    have hsee : ∀ shown, ∃ t' switching' shown', see ⟨t, switching, shown⟩ b =
        ⟨t', switching', shown ++ shown'⟩ ∧ see ⟨t, switching, []⟩ b = ⟨t', switching', shown'⟩ := by
      intro shown
      unfold see
      split
      · exact ⟨_, _, [], by rw [List.append_nil], rfl⟩
      · split
        · exact ⟨_, _, [], by rw [List.append_nil], rfl⟩
        · exact ⟨_, _, [(t, b)], rfl, rfl⟩
    obtain ⟨t', switching', shown', h, h'⟩ := hsee shown
    show sees (see ⟨t, switching, shown⟩ b) s =
      { sees (see ⟨t, switching, []⟩ b) s with
        shown := shown ++ (sees (see ⟨t, switching, []⟩ b) s).shown }
    rw [h, h', ih t' switching' (shown ++ shown'), ih t' switching' shown', List.append_assoc]

/-- What was shown stays. -/
theorem shown_prefix_see (v : Viewer) (b : UInt8) : v.shown <+: (v.see b).shown := by
  unfold see
  split
  · exact List.prefix_rfl
  · split
    · exact List.prefix_rfl
    · exact List.prefix_append _ _

theorem shown_prefix_sees (v : Viewer) (s : List UInt8) : v.shown <+: (v.sees s).shown := by
  induction s generalizing v with
  | nil => exact List.prefix_rfl
  | cons b s ih => exact (shown_prefix_see v b).trans (ih (v.see b))

/-- Who has received less has been shown less. -/
theorem shown_mono (v : Viewer) {s s' : List UInt8} (h : s <+: s') :
    (v.sees s).shown <+: (v.sees s').shown := by
  obtain ⟨rest, rfl⟩ := h
  rw [sees_append]
  exact shown_prefix_sees _ rest

end Viewer

/-! ## What the calls mean to show -/

/-- The terminal that a call writes to, while `t` is set. -/
def UpCall.terminal (t : UInt8) : UpCall → UInt8
  | .terminalOut id _ => id
  | _ => t

/-- How much of the text of a call its result says was written. `_write()` does not say it, and
`am_print_string()` returns nothing. -/
def UpCall.Wrote (call : UpCall) (result : Int) (k : Nat) : Prop :=
  match call with
  | .writeNoLock _ | .write _ | .writeString _ | .putCharSkipNoLock _ | .putCharSkip _
  | .putChar _ => result = k
  | .writeSkipNoLock s => result = 1 ∧ k = s.length ∨ result = 0 ∧ k = 0
  | .terminalOut _ _ => k = result.toNat
  | .libcWrite s => result = s.length
  | .setTerminal _ => result = 0 ∨ result = -1
  | .setFlagsUpBuffer _ => result = 0
  | .amPrintString _ => True

/-- The terminal that is set after a call with the given result. -/
def UpCall.terminalAfter (t : UInt8) (result : Int) : UpCall → UInt8
  | .setTerminal id => if result = 0 then id else t
  | _ => t

/-- What the calls of a run show: of each text as much as was written, on its terminal. Of the
text of a call that waits it is some part. -/
inductive Shows : UInt8 → List CallStep → List (UInt8 × UInt8) → Prop where
  | nil (t : UInt8) : Shows t [] []
  | returned {t : UInt8} {x : CallStep} {xs : List CallStep} {shown : List (UInt8 × UInt8)}
      (result : Int) (k : Nat) (hresult : x.result = .ok result) (hk : x.call.Wrote result k)
      (tail : Shows (x.call.terminalAfter t result) xs shown) :
      Shows t (x :: xs) (onTerminal (x.call.terminal t) (x.call.text.take k) ++ shown)
  | waiting {t : UInt8} {x : CallStep} (k : Nat) (hresult : x.result = .error .outOfFuel) :
      Shows t [x] (onTerminal (x.call.terminal t) (x.call.text.take k))

variable {c : Setting}

/-- A text for a terminal is refused, or some of it is framed. -/
theorem terminalOut_outcome (c : Setting) (room : Nat) (id : UInt8) (s : List UInt8) :
    (∃ result : Int, result ≤ 0 ∧
      UpCall.outcome c room (.terminalOut id s) = ⟨result, [], c⟩) ∨
    ∃ n : Nat, id.toNat < aTerminalId.length ∧ n ≤ s.length ∧
      UpCall.outcome c room (.terminalOut id s) = ⟨n, framed id c.active (s.take n), c⟩ := by
  simp only [UpCall.outcome]
  split
  · exact .inl ⟨-1, by decide, rfl⟩
  · rename_i hid
    have hid' := Nat.not_le.mp hid
    have hall : s.take s.length = s := List.take_length
    split
    · split
      · exact .inl ⟨0, by decide, rfl⟩
      · exact .inr ⟨s.length, hid', Nat.le_refl _, by rw [hall]⟩
    · split
      · split
        · exact .inl ⟨-1, by decide, rfl⟩
        · have htrim : s.take (min s.length (room - 4)) = s.take (room - 4) := by
            rw [Nat.min_comm, ← List.take_take, hall]
          exact .inr ⟨min s.length (room - 4), hid', Nat.min_le_left _ _, by rw [htrim]⟩
      · split
        · exact .inr ⟨s.length, hid', Nat.le_refl _, by rw [hall]⟩
        · exact .inl ⟨-1, by decide, rfl⟩

/-- One step shows as much of the text as its result says, and leaves the host at the terminal
that is set. -/
theorem outcome_shown {call : UpCall} (hplain : 0xFF ∉ call.text) (room : Nat)
    (hactive : c.active.toNat < aTerminalId.length) :
    ∃ k, call.Wrote (call.outcome c room).result k ∧
      (Viewer.start c.active).sees (call.outcome c room).bytes =
        ⟨(call.outcome c room).setting.active, false,
          onTerminal (call.terminal c.active) (call.text.take k)⟩ ∧
      (call.outcome c room).setting.active =
        call.terminalAfter c.active (call.outcome c room).result ∧
      (call.outcome c room).setting.active.toNat < aTerminalId.length := by
  have hplain_take : ∀ {s : List UInt8} (k : Nat), 0xFF ∉ s → 0xFF ∉ s.take k :=
    fun k hs hmem => hs (List.mem_of_mem_take hmem)
  cases call with
  | writeNoLock s | write s | writeString s =>
    exact ⟨accepted c.flags room s.length, rfl, Viewer.sees_plain (hplain_take _ hplain), rfl,
      hactive⟩
  | amPrintString s =>
    exact ⟨accepted c.flags room s.length, trivial, Viewer.sees_plain (hplain_take _ hplain), rfl,
      hactive⟩
  | libcWrite s =>
    exact ⟨accepted c.flags room s.length, rfl, Viewer.sees_plain (hplain_take _ hplain), rfl,
      hactive⟩
  | writeSkipNoLock s =>
    by_cases hroom : room < s.length
    · simp only [UpCall.outcome, if_pos hroom]
      exact ⟨0, .inr ⟨rfl, rfl⟩, rfl, rfl, hactive⟩
    · simp only [UpCall.outcome, if_neg hroom]
      refine ⟨s.length, .inl ⟨rfl, rfl⟩, ?_, rfl, hactive⟩
      rw [UpCall.text, List.take_length]
      exact Viewer.sees_plain hplain
  | putCharSkipNoLock ch | putCharSkip ch =>
    by_cases hroom : room < 1
    · simp only [UpCall.outcome, if_pos hroom]
      exact ⟨0, rfl, rfl, rfl, hactive⟩
    · simp only [UpCall.outcome, if_neg hroom]
      exact ⟨1, rfl, Viewer.sees_plain hplain, rfl, hactive⟩
  | putChar ch =>
    by_cases hroom : room < 1 ∧ c.flags ≠ seggerRttModeBlockIfFifoFull
    · simp only [UpCall.outcome, if_pos hroom]
      exact ⟨0, rfl, rfl, rfl, hactive⟩
    · simp only [UpCall.outcome, if_neg hroom]
      exact ⟨1, rfl, Viewer.sees_plain hplain, rfl, hactive⟩
  | setFlagsUpBuffer Flags => exact ⟨0, rfl, rfl, rfl, hactive⟩
  | setTerminal id =>
    by_cases hok : id.toNat < aTerminalId.length ∧
        (c.mode = seggerRttModeBlockIfFifoFull ∨ 2 ≤ room)
    · simp only [UpCall.outcome, if_pos hok]
      exact ⟨0, .inl rfl, Viewer.sees_switch hok.1, rfl, hok.1⟩
    · simp only [UpCall.outcome, if_neg hok]
      exact ⟨0, .inr rfl, rfl, rfl, hactive⟩
  | terminalOut id s =>
    rcases terminalOut_outcome c room id s with ⟨result, hresult, hout⟩ | ⟨n, hid, hn, hout⟩
    · rw [hout]
      refine ⟨0, ?_, rfl, rfl, hactive⟩
      show 0 = result.toNat
      omega
    · rw [hout]
      refine ⟨n, rfl, ?_, rfl, hactive⟩
      exact Viewer.sees_framed hid hactive (hplain_take n hplain)

/-- The stream of a run shows what its calls mean to show. -/
theorem atomically_shown {xs : List CallStep} {c' : Setting} {stream : List UInt8}
    (h : Atomically c xs c' stream) (hplain : ∀ x ∈ xs, 0xFF ∉ x.call.text)
    (hactive : c.active.toNat < aTerminalId.length) :
    Shows c.active xs ((Viewer.start c.active).sees stream).shown := by
  induction h with
  | nil c => exact .nil c.active
  | @returned c c' x xs stream room hbefore hafter hresult tail ih =>
    obtain ⟨k, hk, hsees, hnext, hactive'⟩ :=
      outcome_shown (hplain x List.mem_cons_self) room hactive
    have hrest := ih (fun x hx => hplain x (List.mem_cons_of_mem _ hx)) hactive'
    rw [Viewer.sees_append, hsees, Viewer.sees_shown]
    rw [hnext] at hrest ⊢
    exact .returned _ k hresult hk hrest
  | @waiting c x room k hbefore hwaits hfull hresult =>
    obtain ⟨k', -, hsees, -, -⟩ := outcome_shown (hplain x List.mem_cons_self) room hactive
    have hprefix := (Viewer.start c.active).shown_mono
      (List.take_prefix k (x.call.outcome c room).bytes)
    rw [hsees] at hprefix
    have hpart := List.prefix_iff_eq_take.mp hprefix
    rw [hpart]
    show Shows _ _ ((onTerminal _ _).take _)
    unfold onTerminal
    rw [← List.map_take, List.take_take]
    exact .waiting _ hresult

/-- **Every text is shown on its terminal.** In every run of calls whose texts have no `0xFF` in
them, the host shows of each text as much as its call has written, in the order of the calls and
each on the terminal it is for; what it has shown at an earlier time is the start of that. -/
theorem terminals_shown {w : Memory × UpHost} (hw : Fresh w)
    (hactive : w.1.activeTerminal.toNat < aTerminalId.length) {fuel : Nat} (hfuel : 2 ≤ fuel)
    (calls : List UpCall) (hsized : ∀ call ∈ calls, call.Sized)
    (hplain : ∀ call ∈ calls, 0xFF ∉ call.text) (sched : Nat → List HostStep) :
    ∃ texts, Shows w.1.activeTerminal (runCalls fuel calls (w, sched)).1 texts ∧
      ∀ later : List HostStep,
        let w' := later.foldl UpHost.act (runCalls fuel calls (w, sched)).2
        let viewer := (Viewer.start w.1.activeTerminal).sees w'.2.received
        viewer.shown <+: texts ∧ (unread w' = [] → viewer.shown = texts) := by
  obtain ⟨c', stream, known', hatomic, hup⟩ := run_atomic hfuel hsized hw.up sched
  have hcalls := mem_calls fuel calls (w, sched)
  refine ⟨_, atomically_shown hatomic (fun x hx => hplain _ (hcalls x hx)) hactive,
    fun later => ?_⟩
  have hlater := (stable_up c' stream [] known').foldl hup later
  have hsplit : _ ++ _ = stream := hlater.received_unread.1
  refine ⟨Viewer.shown_mono _ ⟨_, hsplit⟩, fun hall => ?_⟩
  rw [hall, List.append_nil] at hsplit
  rw [hsplit]
  rfl

theorem smallCalls_shown :
    ∃ texts, Shows 0 (runCalls 9 smallCalls (smallChannel 2, fun _ => [.look, .take, .release])).1
        texts ∧
      ∀ later : List HostStep,
        let w' := later.foldl UpHost.act
          (runCalls 9 smallCalls (smallChannel 2, fun _ => [.look, .take, .release])).2
        let viewer := (Viewer.start 0).sees w'.2.received
        viewer.shown <+: texts ∧ (unread w' = [] → viewer.shown = texts) :=
  terminals_shown (smallChannel_fresh 2) (by decide) (by decide) smallCalls smallCalls_sized
    (by unfold smallCalls; simp [UpCall.text]) _

end SpiNand.Rtt
