import SpiNand.Rtt.Writing

/-!
# Calls that write to an up-buffer

What the calls are for: the target appends to a stream of bytes, and the host receives it from the
start on. `UpCall.outcome` says what a call does as one step on the stream, given how much room it
finds. The calls of the target are many accesses each, with the host reading and releasing bytes
between any two of them, and they do what the one step does (`wp_upCall`).
-/

namespace SpiNand.Rtt

open Interaction Interaction.Prog

/-! ## Calls as one step -/

inductive UpCall where
  | writeNoLock (pBuffer : List UInt8)
  | write (pBuffer : List UInt8)
  | writeString (s : List UInt8)
  | amPrintString (pcStr : List UInt8)
  | libcWrite (ptr : List UInt8)
  | writeSkipNoLock (pBuffer : List UInt8)
  | putCharSkipNoLock (ch : UInt8)
  | putCharSkip (ch : UInt8)
  | putChar (ch : UInt8)
  | setFlagsUpBuffer (Flags : UInt32)
  | setTerminal (TerminalId : UInt8)
  | terminalOut (TerminalId : UInt8) (s : List UInt8)
  deriving DecidableEq, Repr

/-- The call, with its result as a number. -/
def UpCall.prog (fuel : Nat) : UpCall → TargetM Int
  | .writeNoLock pBuffer => do
    let n ← seggerRttWriteNoLock fuel pBuffer (strlen pBuffer)
    return n.toNat
  | .write pBuffer => do
    let n ← seggerRttWrite fuel pBuffer (strlen pBuffer)
    return n.toNat
  | .writeString s => do
    let n ← seggerRttWriteString fuel s
    return n.toNat
  | .amPrintString pcStr => do
    Rtt.amPrintString fuel pcStr
    return 0
  | .libcWrite ptr => do
    let n ← Rtt.write fuel ptr (strlen ptr)
    return n.toNat
  | .writeSkipNoLock pBuffer => do
    let n ← seggerRttWriteSkipNoLock pBuffer (strlen pBuffer)
    return n.toNat
  | .putCharSkipNoLock ch => do
    let n ← seggerRttPutCharSkipNoLock ch
    return n.toNat
  | .putCharSkip ch => do
    let n ← seggerRttPutCharSkip ch
    return n.toNat
  | .putChar ch => do
    let n ← seggerRttPutChar fuel ch
    return n.toNat
  | .setFlagsUpBuffer Flags => seggerRttSetFlagsUpBuffer Flags
  | .setTerminal TerminalId => seggerRttSetTerminal fuel TerminalId
  | .terminalOut TerminalId s => seggerRttTerminalOut fuel TerminalId s

/-- The text of a call. -/
def UpCall.text : UpCall → List UInt8
  | .writeNoLock s | .write s | .writeString s | .amPrintString s | .libcWrite s
  | .writeSkipNoLock s | .terminalOut _ s => s
  | .putCharSkipNoLock ch | .putCharSkip ch | .putChar ch => [ch]
  | .setFlagsUpBuffer _ | .setTerminal _ => []

/-- What a call returns, what it appends to the stream, and what it leaves set. -/
structure Outcome where
  result : Int
  bytes : List UInt8
  setting : Setting

/-- The bytes that switch the host to a terminal. -/
def terminalSwitch (id : UInt8) : List UInt8 := [0xFF, aTerminalId.getD id.toNat 0]

/-- A text for one terminal, in the output of another one. -/
def framed (id active : UInt8) (s : List UInt8) : List UInt8 :=
  terminalSwitch id ++ s ++ terminalSwitch active

def Setting.mode (c : Setting) : UInt32 := c.flags &&& seggerRttModeMask

/-- A call as one step on a channel with `room` free cells. -/
def UpCall.outcome (c : Setting) (room : Nat) : UpCall → Outcome
  | .writeNoLock s | .write s | .writeString s =>
    ⟨accepted c.flags room s.length, s.take (accepted c.flags room s.length), c⟩
  | .amPrintString s => ⟨0, s.take (accepted c.flags room s.length), c⟩
  | .libcWrite s => ⟨s.length, s.take (accepted c.flags room s.length), c⟩
  | .writeSkipNoLock s => if room < s.length then ⟨0, [], c⟩ else ⟨1, s, c⟩
  | .putCharSkipNoLock ch | .putCharSkip ch => if room < 1 then ⟨0, [], c⟩ else ⟨1, [ch], c⟩
  | .putChar ch =>
    if room < 1 ∧ c.flags ≠ seggerRttModeBlockIfFifoFull then ⟨0, [], c⟩ else ⟨1, [ch], c⟩
  | .setFlagsUpBuffer Flags => ⟨0, [], { c with flags := Flags }⟩
  | .setTerminal id =>
    if id.toNat < aTerminalId.length ∧ (c.mode = seggerRttModeBlockIfFifoFull ∨ 2 ≤ room) then
      ⟨0, terminalSwitch id, { c with active := id }⟩
    else
      ⟨-1, [], c⟩
  | .terminalOut id s =>
    if aTerminalId.length ≤ id.toNat then ⟨-1, [], c⟩
    else if c.mode = seggerRttModeNoBlockSkip then
      if room < s.length + 4 then ⟨0, [], c⟩ else ⟨s.length, framed id c.active s, c⟩
    else if c.mode = seggerRttModeNoBlockTrim then
      if room < 4 then ⟨-1, [], c⟩
      else ⟨(min s.length (room - 4) : Nat), framed id c.active (s.take (room - 4)), c⟩
    else if c.mode = seggerRttModeBlockIfFifoFull then ⟨s.length, framed id c.active s, c⟩
    else ⟨-1, [], c⟩

/-- The calls that wait for the host when there is no room. -/
def UpCall.Waits (c : Setting) : UpCall → Prop
  | .writeNoLock _ | .write _ | .writeString _ | .amPrintString _ | .libcWrite _ | .putChar _ =>
    c.flags = seggerRttModeBlockIfFifoFull
  | .setTerminal _ | .terminalOut _ _ => c.mode = seggerRttModeBlockIfFifoFull
  | .writeSkipNoLock _ | .putCharSkipNoLock _ | .putCharSkip _ | .setFlagsUpBuffer _ => False

/-- What a call writes is an object of the program, so that its size is an `int`.
`SEGGER_RTT_WriteSkipNoLock()` must not be called with nothing to write. -/
def UpCall.Sized : UpCall → Prop
  | .writeNoLock s | .write s | .writeString s | .amPrintString s | .libcWrite s
  | .terminalOut _ s => s.length + 4 < 0x80000000
  | .writeSkipNoLock s => s ≠ [] ∧ s.length + 4 < 0x80000000
  | _ => True

theorem toNat_strlen {s : List UInt8} (h : s.length + 4 < 0x80000000) :
    (strlen s).toNat = s.length :=
  UInt32.toNat_ofNat_of_lt' (by rw [UInt32.size]; omega)

theorem toInt_of_toNat {v : UInt32} {n : Nat} (h : v.toNat = n) (hn : n < 0x80000000) :
    toInt v = n := by
  have hv : 2 * v.toBitVec.toNat < 0x100000000 := by
    rw [UInt32.toNat_toBitVec]
    omega
  have hint : toInt v = v.toBitVec.toInt := rfl
  rw [hint, BitVec.toInt_eq_toNat_of_lt hv, UInt32.toNat_toBitVec, h]

variable {c : Setting} {items : List UInt8} {known : Nat} {w : Memory × UpHost}
  {E : Stop → Memory × UpHost → Prop}

/-! ## Terminals -/

theorem wp_postTerminalSwitch {R : Unit → Memory × UpHost → Prop} {fuel : Nat} {id : UInt8}
    (h : Up c items [] known w)
    (hR : ∀ known' w', known ≤ known' → Up c (items ++ terminalSwitch id) [] known' w' → R () w')
    (hE : ∀ k known' w', known ≤ known' → k ≤ 2 →
      ¬ (items.length + 2 < known + c.size.toNat ∧ 2 ≤ fuel) →
      Up c (items ++ (terminalSwitch id).take k) [] known' w' → E .outOfFuel w') :
    wp upHandler E (postTerminalSwitch fuel id) R w := by
  unfold postTerminalSwitch
  apply wp_seq
  apply wp_writeBlocking h (Nat.le_refl _)
  · intro known' w' hknown hw'
    exact hR known' w' hknown hw'
  · intro k known' w' hknown hk hnot hw'
    exact hE k known' w' hknown hk hnot hw'

/-- The three parts of a text for a terminal, of which a stop leaves the start. -/
theorem wp_terminalFrame {R : Int → Memory × UpHost → Prop} {fuel : Nat} {id : UInt8}
    {s : List UInt8} {NumBytes : UInt32} (h : Up c items [] known w)
    (hlen : NumBytes.toNat ≤ s.length)
    (hR : ∀ known' w', known ≤ known' →
      Up c (items ++ framed id c.active (s.take NumBytes.toNat)) [] known' w' → R (toInt NumBytes) w')
    (hE : ∀ k known' w', known ≤ known' →
      ¬ (items.length + NumBytes.toNat + 4 < known + c.size.toNat ∧ 2 ≤ fuel) →
      Up c (items ++ (framed id c.active (s.take NumBytes.toNat)).take k) [] known' w' →
      E .outOfFuel w') :
    wp upHandler E (terminalFrame fuel id s NumBytes) R w := by
  have hswitch : ∀ id, (terminalSwitch id).length = 2 := fun _ => rfl
  have htext : (s.take NumBytes.toNat).length = NumBytes.toNat := by
    rw [List.length_take]
    omega
  unfold terminalFrame
  apply wp_seq
  apply wp_postTerminalSwitch h
  · intro known₁ w₁ hknown₁ h₁
    apply wp_seq
    apply wp_writeBlocking h₁ hlen
    · intro known₂ w₂ hknown₂ h₂
      apply wp_seq
      apply wp_loadActiveTerminal h₂
      intro w₃ h₃
      apply wp_seq
      apply wp_postTerminalSwitch h₃
      · intro known₄ w₄ hknown₄ h₄
        apply hR known₄ w₄ (by omega)
        unfold framed
        simpa only [List.append_assoc] using h₄
      · intro k known₄ w₄ hknown₄ hk hnot h₄
        apply hE (2 + NumBytes.toNat + k) known₄ w₄ (by omega)
        · simp only [List.length_append, hswitch, htext] at hnot
          omega
        · have hlong : (terminalSwitch id ++ s.take NumBytes.toNat).length =
              2 + NumBytes.toNat := by
            rw [List.length_append, hswitch, htext]
          unfold framed
          rw [← hlong, List.take_length_add_append]
          simpa only [List.append_assoc] using h₄
    · intro k known₂ w₂ hknown₂ hk hnot h₂
      apply hE (2 + k) known₂ w₂ (by omega)
      · simp only [List.length_append, hswitch] at hnot
        omega
      · unfold framed
        rw [List.append_assoc, ← hswitch id, List.take_length_add_append,
          List.take_append_of_le_length (by omega), List.take_take, Nat.min_eq_left hk]
        simpa only [List.append_assoc] using h₂
  · intro k known₁ w₁ hknown₁ hk hnot h₁
    apply hE k known₁ w₁ hknown₁ (by omega)
    unfold framed
    rw [List.append_assoc, List.take_append_of_le_length (by rw [hswitch]; omega)]
    exact h₁

/-! ## Calls do what one step does -/

/-- What is known where a call ends: it has returned what one step returns with the room that was
free at some time during the call, or it waits in a mode in which it may, and has written a part
of its data. -/
structure OneStep (call : UpCall) (c : Setting) (items : List UInt8) (known : Nat)
    (R : Int → Memory × UpHost → Prop) (E : Stop → Memory × UpHost → Prop) : Prop where
  returns : ∀ room seen known' w', known ≤ seen → seen ≤ known' →
    room + items.length + 1 = seen + c.size.toNat →
    Up (call.outcome c room).setting (items ++ (call.outcome c room).bytes) [] known' w' →
    R (call.outcome c room).result w'
  waits : ∀ room k known' w', known ≤ known' → room + items.length + 1 = known + c.size.toNat →
    call.Waits c → room < (call.outcome c room).bytes.length →
    Up (call.outcome c room).setting (items ++ (call.outcome c room).bytes.take k) [] known' w' →
    E .outOfFuel w'

/-- There is some room, of which a call knows that waits in any case. -/
theorem Up.room (h : Up c items [] known w) :
    ∃ room, room + items.length + 1 = known + c.size.toNat := by
  have hfits : items.length < known + c.size.toNat := by simpa using h.fits
  exact ⟨known + c.size.toNat - 1 - items.length, by omega⟩

variable {call : UpCall} {fuel : Nat} {R : Int → Memory × UpHost → Prop}

section Writes

variable {s : List UInt8} {result : Nat → Int} {R' : UInt32 → Memory × UpHost → Prop}

/-- The calls that write as `SEGGER_RTT_WriteNoLock()` does, and return something of their own. -/
theorem wp_writeNoLock (hfuel : 2 ≤ fuel) (hs : s.length + 4 < 0x80000000)
    (hout : ∀ room, call.outcome c room =
      ⟨result (accepted c.flags room s.length), s.take (accepted c.flags room s.length), c⟩)
    (hwaits : c.flags = seggerRttModeBlockIfFifoFull → call.Waits c)
    (h : Up c items [] known w) (hone : OneStep call c items known R E)
    (hR : ∀ v w', R (result v.toNat) w' → R' v w') :
    wp upHandler E (seggerRttWriteNoLock fuel s (strlen s)) R' w := by
  apply wp_seggerRttWriteNoLock h (toNat_strlen hs)
  · intro room seen known' v w' hseen hknown hroom hv hw'
    have hreturns := hone.returns room seen known' w' hseen hknown hroom
    rw [hout] at hreturns
    apply hR
    rw [hv] at hw' ⊢
    exact hreturns hw'
  · intro k known' w' hknown hk hblock hnot hw'
    obtain ⟨room, hroom⟩ := h.room
    have hall : accepted c.flags room s.length = s.length := by rw [hblock]; rfl
    have hstops := hone.waits room k known' w' hknown hroom (hwaits hblock)
    rw [hout, hall, List.take_length] at hstops
    exact hstops (show room < s.length by omega) hw'

theorem wp_write (hfuel : 2 ≤ fuel) (hs : s.length + 4 < 0x80000000)
    (hout : ∀ room, call.outcome c room =
      ⟨result (accepted c.flags room s.length), s.take (accepted c.flags room s.length), c⟩)
    (hwaits : c.flags = seggerRttModeBlockIfFifoFull → call.Waits c)
    (h : Up c items [] known w) (hone : OneStep call c items known R E)
    (hR : ∀ v w', R (result v.toNat) w' → R' v w') :
    wp upHandler E (seggerRttWrite fuel s (strlen s)) R' w := by
  unfold seggerRttWrite
  apply wp_seq
  apply wp_init h
  intro w₁ h₁
  exact wp_writeNoLock hfuel hs hout hwaits h₁ hone hR

end Writes

theorem wp_setTerminal {id : UInt8} (hfuel : 2 ≤ fuel) (h : Up c items [] known w)
    (hone : OneStep (.setTerminal id) c items known R E) :
    wp upHandler E (seggerRttSetTerminal fuel id) R w := by
  unfold seggerRttSetTerminal
  apply wp_seq
  apply wp_init h
  intro w₁ h₁
  split
  · rename_i hid
    apply wp_seq
    apply wp_load_flags h₁
    intro w₂ h₂
    split
    · rename_i hblock
      have hout : ∀ room, UpCall.outcome c room (.setTerminal id) =
          ⟨0, terminalSwitch id, { c with active := id }⟩ := fun room => if_pos ⟨hid, .inl hblock⟩
      obtain ⟨room, hroom⟩ := h.room
      apply wp_seq
      apply wp_storeActiveTerminal h₂
      intro w₃ h₃
      apply wp_seq
      apply wp_writeBlocking h₃ (Nat.le_refl _)
      · intro known' w' hknown hw'
        have hgot := hone.returns room known known' w' (Nat.le_refl _) hknown hroom
        rw [hout] at hgot
        exact hgot hw'
      · intro k known' w' hknown hk hnot hw'
        have hstops := hone.waits room k known' w' hknown hroom hblock
        rw [hout] at hstops
        refine hstops ?_ hw'
        show room < 2
        have hnot' : ¬ (items.length + 2 < known + c.size.toNat ∧ 2 ≤ fuel) := hnot
        omega
    · rename_i hblock
      apply wp_seq
      apply wp_getAvailWriteSpace h₂
      intro Avail known' w₃ hknown hAvail h₃
      have hgot := hone.returns Avail.toNat known' known'
      split
      · rename_i hroom
        have htwo : 2 ≤ Avail.toNat := UInt32.le_iff_toNat_le.mp hroom
        apply wp_seq
        apply wp_storeActiveTerminal h₃
        intro w₄ h₄
        apply wp_seq
        apply wp_writeNoCheck h₄ (Nat.le_refl _)
        · show items.length + 2 < known' + c.size.toNat
          omega
        · intro w₅ h₅
          have hret := hgot w₅ hknown (Nat.le_refl _) hAvail
          have hout : UpCall.outcome c Avail.toNat (.setTerminal id) =
              ⟨0, terminalSwitch id, { c with active := id }⟩ := if_pos ⟨hid, .inr htwo⟩
          rw [hout] at hret
          exact hret h₅
      · rename_i hroom
        have hret := hgot w₃ hknown (Nat.le_refl _) hAvail
        have hout : UpCall.outcome c Avail.toNat (.setTerminal id) = ⟨-1, [], c⟩ := by
          apply if_neg
          rintro ⟨-, hmode | hle⟩
          · exact hblock hmode
          · exact hroom (UInt32.le_iff_toNat_le.mpr hle)
        rw [hout, List.append_nil] at hret
        exact hret h₃
  · rename_i hid
    obtain ⟨room, hroom⟩ := h₁.room
    have hret := hone.returns room known known w₁ (Nat.le_refl _) (Nat.le_refl _) hroom
    have hout : UpCall.outcome c room (.setTerminal id) = ⟨-1, [], c⟩ :=
      if_neg fun hok => hid hok.1
    rw [hout, List.append_nil] at hret
    exact hret h₁

theorem wp_terminalOut {id : UInt8} {s : List UInt8} (hfuel : 2 ≤ fuel)
    (hs : s.length + 4 < 0x80000000) (h : Up c items [] known w)
    (hone : OneStep (.terminalOut id s) c items known R E) :
    wp upHandler E (seggerRttTerminalOut fuel id s) R w := by
  have hlen : (strlen s).toNat = s.length := toNat_strlen hs
  have hlen4 : (strlen s + 4).toNat = s.length + 4 := by
    rw [UInt32.toNat_add, hlen]
    exact Nat.mod_eq_of_lt (show s.length + 4 < 0x100000000 by omega)
  unfold seggerRttTerminalOut
  apply wp_seq
  apply wp_init h
  intro w₁ h₁
  split
  · rename_i hid
    have hid' : ¬ aTerminalId.length ≤ id.toNat := Nat.not_le.mpr hid
    apply wp_seq
    apply wp_getAvailWriteSpace h₁
    intro Avail known₂ w₂ hknown₂ hAvail h₂
    apply wp_seq
    apply wp_load_flags h₂
    intro w₃ h₃
    -- what is left in every mode: the frame around the text that the mode lets through
    have hframe : ∀ N : UInt32, N.toNat ≤ s.length → ∀ room known₀, known ≤ known₀ →
        known₀ ≤ known₂ → room + items.length + 1 = known₀ + c.size.toNat →
        UpCall.outcome c room (.terminalOut id s) =
          ⟨N.toNat, framed id c.active (s.take N.toNat), c⟩ →
        (N.toNat + 4 ≤ Avail.toNat ∨ (known₀ = known ∧ c.mode = seggerRttModeBlockIfFifoFull)) →
        wp upHandler E (terminalFrame fuel id s N) R w₃ := by
      intro N hN room known₀ hknown₀ hseen hroom hout hfits
      have hbytes : (framed id c.active (s.take N.toNat)).length = N.toNat + 4 := by
        unfold framed terminalSwitch
        simp only [List.length_append, List.length_cons, List.length_nil, List.length_take]
        omega
      apply wp_terminalFrame h₃ hN
      · intro known' w' hknown' hw'
        have hret := hone.returns room known₀ known' w' hknown₀ (by omega) hroom
        rw [hout] at hret
        rw [toInt_of_toNat rfl (by omega)]
        exact hret hw'
      · intro k known' w' hknown' hnot hw'
        rcases hfits with hfits | ⟨rfl, hmode⟩
        · exact absurd (show _ ∧ _ from ⟨by omega, hfuel⟩) hnot
        · have hstops := hone.waits room k known' w' (by omega) hroom hmode
          rw [hout] at hstops
          refine hstops ?_ hw'
          show room < (framed id c.active (s.take N.toNat)).length
          omega
    have hrefused : ∀ result room known₀, known ≤ known₀ → known₀ ≤ known₂ →
        room + items.length + 1 = known₀ + c.size.toNat →
        UpCall.outcome c room (.terminalOut id s) = ⟨result, [], c⟩ → R result w₃ := by
      intro result room known₀ hknown₀ hseen hroom hout
      have hret := hone.returns room known₀ known₂ w₃ hknown₀ hseen hroom
      rw [hout, List.append_nil] at hret
      exact hret h₃
    have htake : s.take s.length = s := List.take_length
    show wp upHandler E (if c.flags &&& seggerRttModeMask = seggerRttModeNoBlockSkip then _ else _)
      R w₃
    split
    · rename_i hskip
      have hmode : c.mode = seggerRttModeNoBlockSkip := hskip
      split
      · rename_i hlt
        rw [UInt32.lt_iff_toNat_lt, hlen4] at hlt
        apply hrefused 0 Avail.toNat known₂ hknown₂ (Nat.le_refl _) hAvail
        simp only [UpCall.outcome, if_neg hid', if_pos hmode, if_pos hlt]
      · rename_i hge
        rw [UInt32.lt_iff_toNat_lt, hlen4] at hge
        apply hframe (strlen s) (by omega) Avail.toNat known₂ hknown₂ (Nat.le_refl _) hAvail
        · simp only [UpCall.outcome, if_neg hid', if_pos hmode, if_neg hge, hlen, htake]
        · left
          omega
    · rename_i hskip
      have hmode : ¬ c.mode = seggerRttModeNoBlockSkip := hskip
      split
      · rename_i htrim
        have hmode' : c.mode = seggerRttModeNoBlockTrim := htrim
        have hfour : Avail < 4 ↔ Avail.toNat < 4 := UInt32.lt_iff_toNat_lt
        split
        · rename_i hlt
          rw [hfour] at hlt
          apply hrefused (-1) Avail.toNat known₂ hknown₂ (Nat.le_refl _) hAvail
          simp only [UpCall.outcome, if_neg hid', if_neg hmode, if_pos hmode', if_pos hlt]
        · rename_i hge
          rw [hfour] at hge
          have hrest : (Avail - 4).toNat = Avail.toNat - 4 :=
            toNat_sub_of_toNat_le (Nat.not_lt.mp hge)
          have hN : (if strlen s < Avail - 4 then strlen s else Avail - 4).toNat =
              min s.length (Avail.toNat - 4) := by
            simp only [UInt32.lt_iff_toNat_lt, hlen, hrest]
            split <;> omega
          have htrimmed : s.take (min s.length (Avail.toNat - 4)) = s.take (Avail.toNat - 4) := by
            rw [Nat.min_comm, ← List.take_take, htake]
          apply hframe _ (by omega) Avail.toNat known₂ hknown₂ (Nat.le_refl _) hAvail
          · simp only [UpCall.outcome, if_neg hid', if_neg hmode, if_pos hmode', if_neg hge, hN,
              htrimmed]
          · left
            omega
      · rename_i htrim
        have hmode' : ¬ c.mode = seggerRttModeNoBlockTrim := htrim
        obtain ⟨room, hroom⟩ := h.room
        split
        · rename_i hblock
          have hmode'' : c.mode = seggerRttModeBlockIfFifoFull := hblock
          apply hframe (strlen s) (by omega) room known (Nat.le_refl _) hknown₂ hroom
          · simp only [UpCall.outcome, if_neg hid', if_neg hmode, if_neg hmode', if_pos hmode'',
              hlen, htake]
          · right
            exact ⟨rfl, hmode''⟩
        · rename_i hblock
          have hmode'' : ¬ c.mode = seggerRttModeBlockIfFifoFull := hblock
          apply hrefused (-1) room known (Nat.le_refl _) hknown₂ hroom
          simp only [UpCall.outcome, if_neg hid', if_neg hmode, if_neg hmode', if_neg hmode'']
  · rename_i hid
    obtain ⟨room, hroom⟩ := h₁.room
    have hret := hone.returns room known known w₁ (Nat.le_refl _) (Nat.le_refl _) hroom
    have hout : UpCall.outcome c room (.terminalOut id s) = ⟨-1, [], c⟩ :=
      if_pos (Nat.not_lt.mp hid)
    rw [hout, List.append_nil] at hret
    exact hret h₁

theorem wp_putCharSkip {ch : UInt8} {R' : UInt32 → Memory × UpHost → Prop}
    (hout : ∀ room, call.outcome c room = if room < 1 then ⟨0, [], c⟩ else ⟨1, [ch], c⟩)
    (h : Up c items [] known w) (hone : OneStep call c items known R E)
    (hR : ∀ v w', R v.toNat w' → R' v w') :
    wp upHandler E (seggerRttPutCharSkipNoLock ch) R' w := by
  unfold seggerRttPutCharSkipNoLock
  apply wp_seq
  apply wp_nextWrOff h
  intro WrOff w₁ hWrOff h₁
  apply wp_putIfFree h₁ hWrOff
  intro room known' w' hknown hroom hw'
  have hret := hone.returns room known' known' w' hknown (Nat.le_refl _) hroom
  rw [hout] at hret
  apply hR
  split at hw'
  · rename_i hfull
    rw [if_pos hfull] at hret ⊢
    exact hret hw'
  · rename_i hfree
    rw [if_neg hfree] at hret ⊢
    exact hret hw'

theorem wp_putChar {ch : UInt8} {R' : UInt32 → Memory × UpHost → Prop} (hfuel : 2 ≤ fuel)
    (h : Up c items [] known w) (hone : OneStep (.putChar ch) c items known R E)
    (hR : ∀ v w', R v.toNat w' → R' v w') :
    wp upHandler E (seggerRttPutChar fuel ch) R' w := by
  have hput : ∀ known₃ w₃ WrOff, known ≤ known₃ → Up c items [] known₃ w₃ →
      WrOff.toNat = (items.length + 1) % c.size.toNat →
      (c.flags = seggerRttModeBlockIfFifoFull → items.length + 1 < known₃ + c.size.toNat) →
      wp upHandler E (putIfFree ch WrOff) R' w₃ := by
    intro known₃ w₃ WrOff hknown₃ h₃ hWrOff hwaited
    apply wp_putIfFree h₃ hWrOff
    intro room known' w' hknown hroom hw'
    have hret := hone.returns room known' known' w' (by omega) (Nat.le_refl _) hroom
    apply hR
    split at hw'
    · rename_i hfull
      have hmode : c.flags ≠ seggerRttModeBlockIfFifoFull := by
        intro hblock
        have := hwaited hblock
        omega
      have hout : UpCall.outcome c room (.putChar ch) = ⟨0, [], c⟩ := if_pos ⟨hfull, hmode⟩
      rw [hout] at hret
      rw [if_pos hfull]
      exact hret hw'
    · rename_i hfree
      have hout : UpCall.outcome c room (.putChar ch) = ⟨1, [ch], c⟩ :=
        if_neg fun hboth => hfree hboth.1
      rw [hout] at hret
      rw [if_neg hfree]
      exact hret hw'
  unfold seggerRttPutChar
  apply wp_seq
  apply wp_init h
  intro w₁ h₁
  apply wp_seq
  apply wp_nextWrOff h₁
  intro WrOff w₂ hWrOff h₂
  apply wp_seq
  apply wp_load_flags h₂
  intro w₃ h₃
  apply wp_seq
  split
  · rename_i hblock
    apply wp_putCharWait h₃ hWrOff
    · intro known' w' hknown hfree hw'
      exact hput known' w' WrOff hknown hw' hWrOff fun _ => hfree
    · intro known' w' hknown hnot hw'
      obtain ⟨room, hroom⟩ := h.room
      have hout : UpCall.outcome c room (.putChar ch) = ⟨1, [ch], c⟩ :=
        if_neg fun hboth => hboth.2 hblock
      have hstops := hone.waits room 0 known' w' hknown hroom hblock
      rw [hout, List.take_zero, List.append_nil] at hstops
      exact hstops (show room < 1 by omega) hw'
  · rename_i hblock
    exact hput known w₃ WrOff (Nat.le_refl _) h₃ hWrOff fun hmode => absurd hmode hblock

/-- Every call, as one step. -/
theorem wp_upCall (hfuel : 2 ≤ fuel) (hsized : call.Sized) (h : Up c items [] known w)
    (hone : OneStep call c items known R E) : wp upHandler E (call.prog fuel) R w := by
  cases call with
  | writeNoLock s =>
    apply wp_seq
    exact wp_writeNoLock hfuel hsized (fun _ => rfl) id h hone fun _ _ hr => hr
  | write s =>
    apply wp_seq
    exact wp_write hfuel hsized (fun _ => rfl) id h hone fun _ _ hr => hr
  | writeString s =>
    apply wp_seq
    exact wp_write hfuel hsized (fun _ => rfl) id h hone fun _ _ hr => hr
  | amPrintString s =>
    apply wp_seq
    unfold amPrintString
    apply wp_seq
    exact @wp_write c items known w E _ fuel R s (fun _ => 0) _ hfuel hsized (fun _ => rfl) id h
      hone fun _ _ hr => hr
  | libcWrite s =>
    apply wp_seq
    unfold write
    apply wp_seq
    refine @wp_write c items known w E _ fuel R s (fun _ => s.length) _ hfuel hsized
      (fun _ => rfl) id h hone fun _ w' hr => ?_
    have hlen : (strlen s).toNat = s.length := toNat_strlen hsized
    show R ((strlen s).toNat) w'
    rw [hlen]
    exact hr
  | writeSkipNoLock s =>
    apply wp_seq
    apply wp_seggerRttWriteSkipNoLock h (toNat_strlen hsized.2)
    intro room known' w' hknown hroom hw'
    have hret := hone.returns room known' known' w' hknown (Nat.le_refl _) hroom
    simp only [UpCall.outcome] at hret
    split at hw'
    · rename_i hfull
      rw [if_pos hfull] at hret ⊢
      exact hret hw'
    · rename_i hfree
      rw [if_neg hfree] at hret ⊢
      exact hret hw'
  | putCharSkipNoLock ch =>
    apply wp_seq
    exact wp_putCharSkip (fun _ => rfl) h hone fun _ _ hr => hr
  | putCharSkip ch =>
    apply wp_seq
    unfold seggerRttPutCharSkip
    apply wp_seq
    apply wp_init h
    intro w₁ h₁
    exact wp_putCharSkip (fun _ => rfl) h₁ hone fun _ _ hr => hr
  | putChar ch =>
    apply wp_seq
    exact wp_putChar hfuel h hone fun _ _ hr => hr
  | setFlagsUpBuffer Flags =>
    apply wp_seq
    apply wp_init h
    intro w₁ h₁
    apply wp_seq
    apply wp_store_flags h₁
    intro w₂ h₂
    obtain ⟨room, hroom⟩ := h.room
    have hret := hone.returns room known known w₂ (Nat.le_refl _) (Nat.le_refl _) hroom
    simp only [UpCall.outcome, List.append_nil] at hret
    exact hret h₂
  | setTerminal id => exact wp_setTerminal hfuel h hone
  | terminalOut id s => exact wp_terminalOut hfuel hsized h hone

end SpiNand.Rtt
