import SpiNand.Chip.BadBlockList
import SpiNand.Rtt.Messages

/-!
# The lines of the driver

What the driver prints in any run, with any answers of the HAL and the flash, are lines of at most
`maxLine` bytes (`lines_short`): messages that the channel counts without an overflow.
-/

namespace SpiNand.Rtt

open Interaction Interaction.Prog

variable {σ : Type}

/-! ## Bytes of a line -/

def lineBytes (text : String) : List UInt8 := text.toUTF8.data.toList

theorem length_lineBytes_append (s t : String) :
    (lineBytes (s ++ t)).length = (lineBytes s).length + (lineBytes t).length := by
  simp [lineBytes]

theorem length_lineBytes_le (s : String) : (lineBytes s).length ≤ 4 * s.length := by
  have hchars : ∀ chars : List Char, chars.utf8Encode.size ≤ 4 * chars.length := by
    intro chars
    induction chars with
    | nil => simp
    | cons c chars ih =>
      have hc := c.utf8Size_le_four
      rw [List.utf8Encode_cons, List.utf8Encode_singleton]
      simp only [ByteArray.size_append, List.size_toByteArray, String.length_utf8EncodeChar,
        List.length_cons]
      omega
  have h := hchars s.toList
  rw [String.utf8Encode_toList, String.length_toList] at h
  exact h

/-- The longest line: a fixed text, or a number with text around it. -/
def maxLine : Nat := 100

/-- A 32-bit number has at most ten digits. -/
theorem length_decimal (n : UInt32) : (lineBytes (toString n)).length ≤ 40 := by
  have hdigits : (toString n.toNat).length ≤ 10 :=
    (Nat.length_repr_le_iff (by decide)).mpr (Nat.lt_trans n.toNat_lt (by decide))
  have h := length_lineBytes_le (toString n.toNat)
  have hn : toString n = toString n.toNat := rfl
  rw [hn]
  omega

theorem length_number {t : String} (n : UInt32) (h : (lineBytes t).length ≤ 60) :
    (lineBytes (toString n ++ t)).length ≤ maxLine := by
  have hn := length_decimal n
  rw [length_lineBytes_append]
  unfold maxLine
  omega

theorem length_numbered {s t : String} (n : UInt32)
    (h : (lineBytes s).length + (lineBytes t).length ≤ 60) :
    (lineBytes (s ++ toString n ++ t)).length ≤ maxLine := by
  have hn := length_decimal n
  rw [length_lineBytes_append, length_lineBytes_append]
  unfold maxLine
  omega

/-! ## The watcher -/

/-- A watcher that allows short lines only. -/
def lineMonitor : Monitor Unit Call Answer where
  step _ _ _ := ()
  allows _ q := ∀ text, q = .void (.printf text) → (lineBytes text).length ≤ maxLine

instance : Handler.IgnoresStack lineMonitor.handler where
  uninit h := ⟨by simp [lineMonitor], h⟩

theorem short_of_accepts {tr : Trace} (h : lineMonitor.Accepts () tr) {text : String}
    (htext : text ∈ consoleLines tr) : (lineBytes text).length ≤ maxLine := by
  obtain ⟨⟨q, a⟩, hx, hprint⟩ := List.mem_filterMap.mp htext
  obtain ⟨pre, suf, heq⟩ := List.append_of_mem hx
  apply h pre (q, a) suf heq
  simp only at hprint
  split at hprint
  · rename_i printed
    rw [Option.some.inj hprint]
  · cases hprint

/-- `m` prints short lines. -/
def Short {α : Type} (m : DriverM α) : Prop :=
  wpS lineMonitor.handler (fun _ _ => True) m (fun _ _ => True) ()

section Rules

variable {α β : Type}

theorem short_pure (a : α) : Short (pure a : DriverM α) := wpS_pure trivial

theorem short_bind {m : DriverM α} {f : α → DriverM β} (hm : Short m) (hf : ∀ a, Short (f a)) :
    Short (m >>= f) :=
  wpS_bind (wpS_mono hm fun a _ _ => hf a)

theorem short_ite {c : Prop} [Decidable c] {m n : DriverM α} (hm : Short m) (hn : Short n) :
    Short (if c then m else n) :=
  wpS_ite (fun _ => hm) fun _ => hn

/-- The first use of a variable, a setup call, or any other call but `printf`. -/
theorem short_call {q : Call} (hq : ∀ text, q ≠ .void (.printf text)) : Short (call q) :=
  fun _ => ⟨fun text heq => absurd heq (hq text), fun _ => trivial⟩

theorem short_void {v : Void} (hv : ∀ text, v ≠ .printf text) : Short (void v) :=
  short_bind (short_call fun text heq => hv text (Call.void.inj heq)) fun _ => short_pure _

theorem short_setup (c : Setup) : Short (setup c) :=
  short_bind (short_call (by simp)) fun _ => short_pure _

theorem short_printf {text : String} (h : (lineBytes text).length ≤ maxLine) :
    Short (amUtilStdioPrintf text) := by
  refine short_bind (fun _ => ⟨fun text' heq => ?_, fun _ => trivial⟩) fun _ => short_pure _
  cases heq
  exact h

/-! A command prints nothing, and so does a wait. -/

theorem short_cmd {c : NandCmd} {φ : Answer → Unit → Prop} (h : ∀ a, φ a ()) :
    Handler.cmd lineMonitor.handler c φ () :=
  fun _ _ => ⟨by simp [lineMonitor], h⟩

theorem short_sent {c : NandCmd} {R : Status → Unit → Prop} {K : Unit → Prop} (hR : ∀ st, R st ())
    (hK : K ()) : Handler.cmd lineMonitor.handler c (Sent R K) () :=
  short_cmd fun _ => ⟨fun _ => hK, fun _ => hR _⟩

theorem short_waited {n : Nat} {R : Status → Unit → Prop} {K : UInt8 → Unit → Prop}
    (hR : ∀ st, R st ()) (hK : ∀ statusReg, K statusReg ()) :
    Handler.polls lineMonitor.handler n (Waited R K) () := by
  refine Handler.polls_of_inv (fun _ _ => True) ?_ (fun _ _ => hR _) trivial
  intro n s _
  apply short_cmd
  intro a
  split
  · exact hR _
  · split
    · exact ⟨by simp [lineMonitor], fun _ => trivial⟩
    · exact hK _

end Rules

/-! ## The operations -/

theorem short_readPage (pageAddr : UInt32) (offset : UInt16) (data : List UInt8) (len : UInt32)
    (eccFatal : Option Bool) : Short (nandReadPage pageAddr offset data len eccFatal) := by
  apply wpS_readPage
  apply short_sent (fun _ => trivial)
  apply short_waited (fun _ => trivial)
  intro statusReg
  exact short_cmd fun _ => trivial

theorem short_checkBadBlock (blockAddr : UInt32) (isBad : Bool) :
    Short (nandCheckBadBlock blockAddr isBad) :=
  wpS_checkBadBlock fun markers _ => short_readPage _ _ markers _ _

theorem short_copyPage (srcPageAddr destPageAddr : UInt32) (eccFatal : Option Bool) :
    Short (nandCopyPage srcPageAddr destPageAddr eccFatal) := by
  apply wpS_copyPage
  apply short_sent (fun _ => trivial)
  apply short_waited (fun _ => trivial)
  intro statusReg
  split
  · trivial
  · apply short_sent (fun _ => trivial)
    apply short_sent (fun _ => trivial)
    apply short_sent (fun _ => trivial)
    exact short_waited (fun _ => trivial) fun _ => trivial

theorem short_markBadBlock (fuel : Nat) (blockAddr : UInt32) :
    Short (nandMarkBadBlock fuel blockAddr) := by
  have hspins : ∀ {K : Unit → Prop} (n : Nat), K () →
      Handler.spins lineMonitor.handler (fun _ _ => True) (fun _ _ => True) K n () := by
    intro K n hK
    induction n with
    | zero => trivial
    | succ n ih =>
      apply short_cmd
      intro a
      split
      · trivial
      · split
        · exact ih
        · exact hK
  apply wpS_markBadBlock
  apply short_sent (fun _ => trivial)
  apply hspins
  apply short_sent (fun _ => trivial)
  apply short_sent (fun _ => trivial)
  apply short_sent (fun _ => trivial)
  exact short_waited (fun _ => trivial) fun _ => trivial

theorem short_readParamsPage (paramsPage : List UInt8) (len : UInt32) :
    Short (nandReadParamsPage paramsPage len) := by
  apply wpS_readParamsPage (fun _ => trivial)
  intro _
  apply short_cmd
  intro a
  split
  · trivial
  · apply short_sent (fun _ => trivial)
    apply wpS_mono (short_readPage _ _ _ _ _)
    intro read s _
    split
    · trivial
    · exact short_cmd fun _ => trivial

theorem short_reset : Short nandReset := by
  apply short_bind
  · exact carries_reset.run (short_cmd fun _ => trivial)
  · intro st
    apply short_ite (short_pure _)
    exact short_bind (short_void (by simp)) fun _ => short_pure _

theorem short_printBadBlocksLoop :
    ∀ (n : Nat) (i total : UInt32) (isBad : Bool) (st : Status),
      Short (nandPrintBadBlocksLoop n i total isBad st)
  | 0, i, total, isBad, st =>
    short_bind (short_printf (length_numbered total (by decide))) fun _ => short_pure _
  | n + 1, i, total, isBad, st => by
    apply short_bind (short_checkBadBlock i isBad)
    intro r
    apply short_ite
    · exact short_bind (short_printf (length_numbered i (by decide))) fun _ => short_pure _
    · apply short_ite
      · apply short_bind (short_printf (length_number i (by decide)))
        intro _
        exact short_printBadBlocksLoop n (i + 1) _ _ _
      · exact short_printBadBlocksLoop n (i + 1) _ _ _

theorem short_init : Short nandInit := by
  have hfail : ∀ text, (lineBytes text).length ≤ maxLine →
      Short (amUtilStdioPrintf text >>= fun _ => pure amDevicesMspiFlashStatusError) :=
    fun text h => short_bind (short_printf h) fun _ => short_pure _
  have hconfigure : Short amHalMspiDeviceConfigure := by
    apply short_bind (wpS_get fun _ => trivial)
    intro d
    apply short_bind (short_setup _)
    intro st
    exact short_ite (short_bind (wpS_modify trivial) fun _ => short_pure _) (short_pure _)
  -- a step of the initialisation, with the text it prints where it fails
  have hcheck : ∀ {m : DriverM Status} {fail next : DriverM Status}, Short m → Short fail →
      Short next → Short (m >>= fun st => if amHalStatusSuccess ≠ st then fail else next) :=
    fun hm hf hn => short_bind hm fun _ => short_ite hf hn
  have hvoid : ∀ {v : Void} {next : DriverM Status}, (∀ text, v ≠ .printf text) → Short next →
      Short (void v >>= fun _ => next) := fun hv hn => short_bind (short_void hv) fun _ => hn
  refine hvoid (by simp) ?_
  apply hcheck (short_setup _) (hfail _ (by decide))
  apply hcheck (short_setup _) (hfail _ (by decide))
  apply hcheck hconfigure (hfail _ (by decide))
  apply hcheck (short_setup _) (hfail _ (by decide))
  apply short_bind (wpS_get fun _ => trivial)
  intro d
  refine hvoid (by simp) ?_
  apply hcheck short_reset (short_pure _)
  apply hcheck ((carries_setFeatures _ _).run (short_cmd fun _ => trivial)) (short_pure _)
  apply hcheck (short_setup _) (short_pure _)
  apply hcheck hconfigure (short_pure _)
  apply hcheck (short_setup _) (short_pure _)
  refine hvoid (by simp) ?_
  refine hvoid (by simp) ?_
  refine hvoid (by simp) ?_
  refine hvoid (by simp) ?_
  apply hcheck (short_setup _) (short_pure _)
  apply hcheck (short_setup _) (short_pure _)
  refine hvoid (by simp) ?_
  refine hvoid (by simp) ?_
  exact short_pure _

theorem short_operation (fuel : Nat) (op : Operation) : Short (op.run fuel) := by
  have hmap : ∀ {α : Type} {m : DriverM α} {f : α → OpResult}, Short m →
      Short (m >>= fun a => pure (f a)) := fun hm => short_bind hm fun _ => short_pure _
  cases op with
  | init => exact hmap short_init
  | id => exact hmap (wpS_id (short_cmd fun _ _ => trivial))
  | reset => exact hmap short_reset
  | readParamsPage paramsPage len => exact hmap (short_readParamsPage paramsPage len)
  | checkBadBlock blockAddr isBad => exact hmap (short_checkBadBlock blockAddr isBad)
  | markBadBlock blockAddr => exact hmap (short_markBadBlock fuel blockAddr)
  | eraseBlock blockAddr =>
    apply hmap
    apply wpS_eraseBlock
    apply short_sent (fun _ => trivial)
    apply short_sent (fun _ => trivial)
    exact short_waited (fun _ => trivial) fun _ => trivial
  | progPage pageAddr data =>
    apply hmap
    apply wpS_progPage
    apply short_sent (fun _ => trivial)
    apply short_sent (fun _ => trivial)
    apply short_sent (fun _ => trivial)
    apply short_sent (fun _ => trivial)
    exact short_waited (fun _ => trivial) fun _ => trivial
  | isFree pageAddr isFree =>
    exact hmap (wpS_isFree fun eccData _ => short_readPage _ _ eccData _ _)
  | readPage pageAddr offset data len eccFatal =>
    exact hmap (short_readPage pageAddr offset data len eccFatal)
  | copyPage srcPageAddr destPageAddr eccFatal =>
    exact hmap (short_copyPage srcPageAddr destPageAddr eccFatal)
  | printBadBlocks =>
    apply hmap
    apply short_bind (short_bind (short_bind (short_call (by simp)) fun _ =>
      short_pure _) fun _ => short_pure _)
    intro isBad
    apply short_bind (short_printf (by decide))
    intro _
    exact short_printBadBlocksLoop numBlocks 0 0 isBad 0

/-- **Every line is short.** -/
theorem lines_short (env : Environment σ) (fuel : Nat) (ops : List Operation) (d : Driver)
    (s : σ × (Nat → Answer)) {text : String}
    (htext : text ∈ consoleLines (SpiNand.sent (steps env fuel ops d s))) :
    (lineBytes text).length ≤ maxLine := by
  have hall : ∀ st ∈ steps env fuel ops d s, lineMonitor.Accepts () st.trace :=
    steps_accepts (fun _ => True) (fun op _ => short_operation fuel op) fun _ _ => trivial
  obtain ⟨x, hx, hprint⟩ := List.mem_filterMap.mp htext
  obtain ⟨st, hst, hmem⟩ := List.mem_flatMap.mp hx
  exact short_of_accepts (hall st hst) (List.mem_filterMap.mpr ⟨x, hmem, hprint⟩)

end SpiNand.Rtt
