import SpiNand.Rtt.Terminals

/-!
# A host that reads

A host that empties the buffer every so many accesses: before at least one of any `K` accesses of
the target it takes everything that is there and releases it (`Drains`). Then no call waits
forever, and how long one may take is known: in each turn of a loop that waits, data is written
or the next time that the host reads comes closer.

* **`wp_writeBlockingLoop_paced`** is the loop of `_WriteBlocking()`, by a measure of what is left
  to write and to wait for.
* **`runCalls_live`**: every call returns. **`printed_delivered`**: what is printed is received.
-/

namespace SpiNand.Rtt

open Interaction Interaction.Prog

/-! ## Emptying the buffer -/

/-- Among the steps, the host reads the write offset, takes as many bytes as a buffer of `size`
cells can hold, and moves the read offset. -/
def Drains (size : Nat) (l : List HostStep) : Prop :=
  ∃ before k after,
    l = before ++ .look :: List.replicate k .take ++ .release :: after ∧ size ≤ k + 1

variable {c : Setting} {items staged : List UInt8} {known K : Nat} {w : Memory × UpHost}

/-- The host takes the next `k` bytes, or all that it has seen. -/
theorem UpState.takes {released taken seen : Nat}
    (hw : UpState c items staged known released taken seen w) (k : Nat) :
    ∃ taken', UpState c items staged known released taken' seen
      ((List.replicate k HostStep.take).foldl UpHost.act w) ∧
      (taken' = taken + k ∨ taken' = seen) := by
  induction k generalizing taken w with
  | zero => exact ⟨taken, hw, .inl rfl⟩
  | succ k ih =>
    obtain ⟨taken₁, hw₁, hstep⟩ := hw.take
    obtain ⟨taken', hw', hrest⟩ := ih hw₁
    have hle := hw'.queue.taken_le
    refine ⟨taken', hw', ?_⟩
    rcases hrest with hall | hend
    · rcases hstep with hone | ⟨hsame, hend⟩
      · left
        omega
      · right
        omega
    · exact .inr hend

/-- After that the target may know that the whole buffer is free. -/
theorem Up.drained {l : List HostStep} (h : Up c items staged known w)
    (hl : Drains c.size.toNat l) : Up c items staged items.length (l.foldl UpHost.act w) := by
  obtain ⟨before, k, after, rfl, hk⟩ := hl
  rw [List.foldl_append, List.foldl_append, List.foldl_cons, List.foldl_cons]
  obtain ⟨released, taken, seen, hw⟩ := (stable_up c items staged known).foldl h before
  obtain ⟨taken', hw', hall⟩ := hw.look.takes k
  have htaken : taken' = items.length := by
    have h1 := hw.queue.known_le
    have h2 := hw.queue.released_le
    have h3 := hw.queue.fits
    have h4 := hw'.queue.taken_le
    omega
  subst htaken
  have hfree : Up c items staged items.length _ := ⟨_, _, _, hw'.release.learn⟩
  exact (stable_up c items staged items.length).foldl hfree after

/-- Everything was received by then. -/
theorem Up.received_of_known {w : Memory × UpHost} (h : Up c items [] items.length w) :
    w.2.received = items := by
  obtain ⟨released, taken, seen, hw⟩ := h
  have h1 := hw.queue.known_le
  have h2 := hw.queue.released_le
  rw [hw.received, List.take_of_length_le (by omega)]

/-! ## Waiting for such a host -/

/-- The accesses of the target, beside a host that empties the buffer before at least one of any
`K` accesses. The state counts the accesses before the next such one. -/
abbrev pacedHandler (size : Nat) (K : Nat) : Handler ((Memory × UpHost) × Nat) Access Reply :=
  Handler.paced UpHost.act env (Drains size) K

variable {E : Stop → (Memory × UpHost) × Nat → Prop} {m : Nat}

/-- At each access the buffer has been emptied, or the next time comes closer. -/
theorem wp_ask_drained {α : Type} {q : Access} {k : Reply → TargetM α}
    {R : α → (Memory × UpHost) × Nat → Prop} (h : Up c items staged known w) (hm : m < K)
    (hR : ∀ known' w' m', known ≤ known' → m' < K → items.length ≤ known' ∨ m' < m →
      Up c items staged known' w' →
      wp (pacedHandler c.size.toNat K) E (k (env w' q).1) R ((env w' q).2, m')) :
    wp (pacedHandler c.size.toNat K) E (.ask q k) R (w, m) := by
  have hknown := h.known_le
  apply wp_ask_paced (stable_up c items staged known) (fun l w hl hw => hw.drained hl) h hm
  rintro w' m' hm' (hdrained | ⟨hsame, hlt⟩)
  · exact hR items.length w' m' hknown hm' (.inl (Nat.le_refl _)) hdrained
  · exact hR known w' m' (Nat.le_refl _) hm' (.inr hlt) hsame

theorem wp_load_rdOff_paced {R : UInt32 → (Memory × UpHost) × Nat → Prop}
    (h : Up c items staged known w) (hm : m < K)
    (hR : ∀ v released w' m', known ≤ released → v.toNat = released % c.size.toNat → m' < K →
      items.length ≤ released ∨ m' < m → Up c items staged released w' → R v (w', m')) :
    wp (pacedHandler c.size.toNat K) E (load .rdOff) R (w, m) := by
  apply wp_ask_drained h hm
  rintro known' w' m' hknown hm' hpace ⟨released, taken, seen, hw⟩
  have hreleased := hw.queue.known_le
  exact hR (w'.1.word .rdOff) released w' m' (by omega) hw.queue.rd_eq hm' (by omega)
    ⟨released, taken, seen, hw.learn⟩

theorem wp_load_sizeOfBuffer_paced {R : UInt32 → (Memory × UpHost) × Nat → Prop}
    (h : Up c items staged known w) (hm : m < K)
    (hR : ∀ known' w' m', known ≤ known' → m' < K → items.length ≤ known' ∨ m' < m →
      Up c items staged known' w' → R c.size (w', m')) :
    wp (pacedHandler c.size.toNat K) E (load .sizeOfBuffer) R (w, m) := by
  apply wp_ask_drained h hm
  rintro known' w' m' hknown hm' hpace ⟨released, taken, seen, hw⟩
  show R (w'.1.word .sizeOfBuffer) (w', m')
  rw [hw.size]
  exact hR known' w' m' hknown hm' hpace ⟨released, taken, seen, hw⟩

theorem wp_store_wrOff_paced {R : Unit → (Memory × UpHost) × Nat → Prop} {v : UInt32}
    (h : Up c items staged known w) (hm : m < K)
    (hv : v.toNat = (items.length + staged.length) % c.size.toNat)
    (hR : ∀ known' w' m', known ≤ known' → m' < K → items.length ≤ known' ∨ m' < m →
      Up c (items ++ staged) [] known' w' → R () (w', m')) :
    wp (pacedHandler c.size.toNat K) E (store .wrOff v) R (w, m) := by
  apply wp_ask_drained h hm
  intro known' w' m' hknown hm' hpace hw'
  exact hR known' _ m' hknown hm' hpace (hw'.store_wrOff hv)

/-! ## The loop of `_WriteBlocking()` -/

/-- One turn: something is written, or there is nothing to write, or the buffer is full and the
next time that the host empties it is over or closer. -/
theorem wp_writeBlockingLoop_turn {R : UInt32 → (Memory × UpHost) × Nat → Prop} {fuel : Nat}
    {WrOff NumBytes NumBytesWritten : UInt32} {pBuffer : List UInt8} (h : Up c items [] known w)
    (hm : m < K) (hsize : 2 ≤ c.size.toNat) (hWrOff : WrOff.toNat = items.length % c.size.toNat)
    (hlen : NumBytes.toNat ≤ pBuffer.length)
    (hR : ∀ n known' w' m', known ≤ known' → n.toNat ≤ NumBytes.toNat →
      WrOff.toNat + n.toNat ≤ c.size.toNat → m' < K →
      1 ≤ n.toNat ∨ NumBytes.toNat = 0 ∨ known < items.length ∧ (items.length ≤ known' ∨ m' < m) →
      Up c (items ++ pBuffer.take n.toNat) [] known' w' →
      wp (pacedHandler c.size.toNat K) E (if NumBytes - n = 0 then pure (NumBytesWritten + n)
        else writeBlockingLoop fuel (wrapAround c.size (WrOff + n)) (pBuffer.drop n.toNat)
          (NumBytes - n) (NumBytesWritten + n)) R (w', m')) :
    wp (pacedHandler c.size.toNat K) E
      (writeBlockingLoop (fuel + 1) WrOff pBuffer NumBytes NumBytesWritten) R (w, m) := by
  have hlt := h.wrOff_lt hWrOff
  unfold writeBlockingLoop
  apply wp_seq
  apply wp_load_rdOff_paced h hm
  intro RdOff released w₁ m₁ hreleased hRdOff hm₁ hpace₁ h₁
  apply wp_seq
  apply wp_load_sizeOfBuffer_paced h₁ hm₁
  intro known₂ w₂ m₂ hknown₂ hm₂ hpace₂ h₂
  have hknown := h₁.known_le
  have hfits : items.length < released + c.size.toNat := by simpa using h₁.fits
  have hn := toNat_numBytesToWrite hRdOff hWrOff hknown hfits NumBytes
  generalize numBytesToWrite c.size RdOff WrOff NumBytes = n at hn
  have htake : (pBuffer.take n.toNat).length = n.toNat := by
    rw [List.length_take]
    omega
  have hwrap : (wrapAround c.size (WrOff + n)).toNat =
      (items.length + (pBuffer.take n.toNat).length) % c.size.toNat := by
    rw [htake]
    exact toNat_wrapAround hWrOff (by omega)
  rcases Nat.eq_zero_or_pos n.toNat with hzero | hpos
  · -- nothing is written: there is nothing to write, or the buffer was full
    have hturn := hR n
    have hnone : pBuffer.take n.toNat = [] := by rw [hzero, List.take_zero]
    rw [hnone] at hwrap hturn
    apply wp_seq
    rw [hnone, memcpyTo, pure_eq, wp_done]
    apply wp_seq
    apply wp_store_wrOff_paced h₂ hm₂ hwrap
    intro known₃ w₃ m₃ hknown₃ hm₃ hpace₃ h₃
    exact hturn known₃ w₃ m₃ (by omega) (by omega) (by omega) hm₃ (by omega) h₃
  · apply wp_seq_of_interleaved hm₂
    apply wp_memcpyTo h₂ (by rw [htake, List.length_nil]; omega) (by simpa using hWrOff)
      (by rw [htake]; omega)
    intro w₃ h₃ m₃ hm₃
    rw [List.nil_append] at h₃
    apply wp_seq_of_interleaved hm₃
    apply wp_store_wrOff h₃ hwrap
    intro w₄ h₄ m₄ hm₄
    exact hR n known₂ w₄ m₄ (by omega) (by omega) (by omega) hm₄ (.inl hpos) h₄

/-- How many turns are enough for `len` bytes. -/
def turns (K len items known m : Nat) : Nat :=
  len * (K + 2) + if items ≤ known then 1 else m + 2

/-- The loop ends. -/
theorem wp_writeBlockingLoop_paced {R : UInt32 → (Memory × UpHost) × Nat → Prop} {fuel : Nat}
    {WrOff NumBytes NumBytesWritten : UInt32} {pBuffer : List UInt8} (h : Up c items [] known w)
    (hm : m < K) (hsize : 2 ≤ c.size.toNat) (hWrOff : WrOff.toNat = items.length % c.size.toNat)
    (hlen : NumBytes.toNat ≤ pBuffer.length)
    (hfuel : turns K NumBytes.toNat items.length known m ≤ fuel)
    (hR : ∀ known' w' m', m' < K → Up c (items ++ pBuffer.take NumBytes.toNat) [] known' w' →
      R (NumBytesWritten + NumBytes) (w', m')) :
    wp (pacedHandler c.size.toNat K) E
      (writeBlockingLoop fuel WrOff pBuffer NumBytes NumBytesWritten) R (w, m) := by
  induction fuel generalizing items known WrOff NumBytes NumBytesWritten pBuffer w m with
  | zero =>
    unfold turns at hfuel
    split at hfuel <;> omega
  | succ fuel ih =>
    apply wp_writeBlockingLoop_turn h hm hsize hWrOff hlen
    intro n known' w' m' hknown hn hend hm' hprogress hw'
    have hrest : (NumBytes - n).toNat = NumBytes.toNat - n.toNat := toNat_sub_of_toNat_le hn
    split
    · rename_i hdone
      have hzero : (NumBytes - n).toNat = 0 := by rw [hdone]; rfl
      have heq : n = NumBytes := by
        rw [← UInt32.toNat_inj]
        omega
      rw [heq] at hw' ⊢
      exact hR known' w' m' hm' hw'
    · rename_i hmore
      have hmore' : n.toNat < NumBytes.toNat := by
        have hne : (NumBytes - n).toNat ≠ 0 := by
          intro hzero
          apply hmore
          rw [← UInt32.toNat_inj, hzero]
          rfl
        omega
      have htake : (items ++ pBuffer.take n.toNat).length = items.length + n.toNat := by
        rw [List.length_append, List.length_take]
        omega
      have hwrap : (wrapAround c.size (WrOff + n)).toNat =
          (items.length + n.toNat) % c.size.toNat := toNat_wrapAround hWrOff hend
      refine ih hw' hm' (by rw [htake, hwrap]) (by rw [List.length_drop]; omega) ?_ ?_
      · -- the measure is smaller
        rw [htake, hrest]
        unfold turns at hfuel ⊢
        rcases Nat.eq_zero_or_pos n.toNat with hzero | hpos
        · have hwait : known < items.length := by omega
          rw [if_neg (by omega)] at hfuel
          rw [hzero, Nat.sub_zero]
          split <;> omega
        · have hturn :
              (NumBytes.toNat - n.toNat) * (K + 2) + (K + 2) ≤ NumBytes.toNat * (K + 2) := by
            rw [← Nat.succ_mul]
            exact Nat.mul_le_mul_right _ (by omega)
          split <;> omega
      · intro known'' w'' m'' hm'' hw''
        have hsum : NumBytesWritten + n + (NumBytes - n) = NumBytesWritten + NumBytes := by
          rw [UInt32.add_assoc, UInt32.add_comm n, UInt32.sub_add_cancel]
        rw [hrest, List.append_assoc, ← List.take_add, Nat.add_sub_cancel' hn] at hw''
        rw [hsum]
        exact hR known'' w'' m'' hm'' hw''

/-! ## Calls that wait -/

/-- Enough turns for `len` bytes, however much there is in the buffer. -/
def patience (K len : Nat) : Nat := len * (K + 2) + K + 1

theorem turns_le {len items : Nat} (hm : m < K) :
    turns K len items known m ≤ patience K len := by
  unfold turns patience
  split <;> omega

theorem two_le_patience (K len : Nat) : 2 ≤ patience K (len + 2) := by
  have := Nat.mul_le_mul_left (len + 2) (show 2 ≤ K + 2 by omega)
  unfold patience
  omega

theorem patience_mono {len len' : Nat} (h : len ≤ len') : patience K len ≤ patience K len' := by
  unfold patience
  have := Nat.mul_le_mul_right (K + 2) h
  omega

section Calls

variable {α : Type} {fuel : Nat}

theorem wp_writeBlocking_paced {R : UInt32 → (Memory × UpHost) × Nat → Prop} {NumBytes : UInt32}
    {pBuffer : List UInt8} (h : Up c items [] known w) (hm : m < K) (hsize : 2 ≤ c.size.toNat)
    (hlen : NumBytes.toNat ≤ pBuffer.length) (hfuel : patience K NumBytes.toNat ≤ fuel)
    (hR : ∀ items' known' w' m', m' < K → Up c items' [] known' w' → R NumBytes (w', m')) :
    wp (pacedHandler c.size.toNat K) E (writeBlocking fuel pBuffer NumBytes) R (w, m) := by
  unfold writeBlocking
  apply wp_seq_of_interleaved hm
  apply wp_load_wrOff h
  intro WrOff w₁ hWrOff h₁ m₁ hm₁
  apply wp_writeBlockingLoop_paced h₁ hm₁ hsize hWrOff hlen (Nat.le_trans (turns_le hm₁) hfuel)
  intro known' w' m' hm' hw'
  rw [UInt32.zero_add]
  exact hR _ known' w' m' hm' hw'

theorem wp_postTerminalSwitch_paced {R : Unit → (Memory × UpHost) × Nat → Prop} {id : UInt8}
    (h : Up c items [] known w) (hm : m < K) (hsize : 2 ≤ c.size.toNat)
    (hfuel : patience K 2 ≤ fuel)
    (hR : ∀ items' known' w' m', m' < K → Up c items' [] known' w' → R () (w', m')) :
    wp (pacedHandler c.size.toNat K) E (postTerminalSwitch fuel id) R (w, m) := by
  unfold postTerminalSwitch
  apply wp_seq
  apply wp_writeBlocking_paced h hm hsize (Nat.le_refl _) hfuel
  intro items' known' w' m' hm' hw'
  exact hR items' known' w' m' hm' hw'

/-- A wait for room for one byte. -/
theorem wp_putCharWait_paced {R : Unit → (Memory × UpHost) × Nat → Prop} {WrOff : UInt32}
    (h : Up c items [] known w) (hm : m < K) (hsize : 2 ≤ c.size.toNat)
    (hWrOff : WrOff.toNat = (items.length + 1) % c.size.toNat)
    (hfuel : turns K 0 items.length known m ≤ fuel)
    (hR : ∀ known' w' m', m' < K → Up c items [] known' w' → R () (w', m')) :
    wp (pacedHandler c.size.toNat K) E (putCharWait fuel WrOff) R (w, m) := by
  induction fuel generalizing known w m with
  | zero =>
    unfold turns at hfuel
    split at hfuel <;> omega
  | succ fuel ih =>
    unfold putCharWait
    apply wp_seq
    apply wp_load_rdOff_paced h hm
    intro RdOff released w₁ m₁ hreleased hRdOff hm₁ hpace h₁
    have hfull := full_iff h₁ hWrOff hRdOff
    split
    · rename_i heq
      rw [hfull] at heq
      apply ih h₁ hm₁
      unfold turns at hfuel ⊢
      rw [if_neg (by omega)] at hfuel ⊢
      omega
    · exact hR released w₁ m₁ hm₁ h₁

theorem wp_writeNoLock_paced {R : UInt32 → (Memory × UpHost) × Nat → Prop} {s : List UInt8}
    (hblock : c.flags = seggerRttModeBlockIfFifoFull) (hs : s.length + 4 < 0x80000000)
    (h : Up c items [] known w) (hm : m < K) (hsize : 2 ≤ c.size.toNat)
    (hfuel : patience K s.length ≤ fuel) (hR : ∀ v x, R v x) :
    wp (pacedHandler c.size.toNat K) E (seggerRttWriteNoLock fuel s (strlen s)) R (w, m) := by
  have hlen : (strlen s).toNat = s.length := toNat_strlen hs
  unfold seggerRttWriteNoLock
  apply wp_seq_of_interleaved hm
  apply wp_load_flags h
  intro w₁ h₁ m₁ hm₁
  rw [if_neg (by rw [hblock]; decide), if_neg (by rw [hblock]; decide), if_pos hblock]
  apply wp_writeBlocking_paced h₁ hm₁ hsize (Nat.le_of_eq hlen) (by rw [hlen]; exact hfuel)
  intro items' known' w' m' hm' hw'
  exact hR _ _

theorem wp_write_paced {R : UInt32 → (Memory × UpHost) × Nat → Prop} {s : List UInt8}
    (hblock : c.flags = seggerRttModeBlockIfFifoFull) (hs : s.length + 4 < 0x80000000)
    (h : Up c items [] known w) (hm : m < K) (hsize : 2 ≤ c.size.toNat)
    (hfuel : patience K s.length ≤ fuel) (hR : ∀ v x, R v x) :
    wp (pacedHandler c.size.toNat K) E (seggerRttWrite fuel s (strlen s)) R (w, m) := by
  unfold seggerRttWrite
  apply wp_seq_of_interleaved hm
  apply wp_init h
  intro w₁ h₁ m₁ hm₁
  exact wp_writeNoLock_paced hblock hs h₁ hm₁ hsize hfuel hR

theorem wp_putChar_paced {R : UInt32 → (Memory × UpHost) × Nat → Prop} {ch : UInt8}
    (hblock : c.flags = seggerRttModeBlockIfFifoFull) (h : Up c items [] known w) (hm : m < K)
    (hsize : 2 ≤ c.size.toNat) (hfuel : patience K 0 ≤ fuel) (hR : ∀ v x, R v x) :
    wp (pacedHandler c.size.toNat K) E (seggerRttPutChar fuel ch) R (w, m) := by
  unfold seggerRttPutChar
  apply wp_seq_of_interleaved hm
  apply wp_init h
  intro w₁ h₁ m₁ hm₁
  apply wp_seq_of_interleaved hm₁
  apply wp_nextWrOff h₁
  intro WrOff w₂ hWrOff h₂ m₂ hm₂
  apply wp_seq_of_interleaved hm₂
  apply wp_load_flags h₂
  intro w₃ h₃ m₃ hm₃
  rw [if_pos hblock]
  apply wp_seq
  apply wp_putCharWait_paced h₃ hm₃ hsize hWrOff (Nat.le_trans (turns_le hm₃) hfuel)
  intro known₄ w₄ m₄ hm₄ h₄
  have hput : wp upHandler (fun _ _ => False) (putIfFree ch WrOff) (fun _ _ => True) w₄ :=
    wp_putIfFree h₄ hWrOff fun _ _ _ _ _ _ => trivial
  apply wp_weaken (wp_of_interleaved hput hm₄)
  · intro e x hstop
    exact hstop.elim
  · intro v x _
    exact hR v x

theorem wp_setTerminal_paced {R : Int → (Memory × UpHost) × Nat → Prop} {id : UInt8}
    (hblock : c.mode = seggerRttModeBlockIfFifoFull) (h : Up c items [] known w) (hm : m < K)
    (hsize : 2 ≤ c.size.toNat) (hfuel : patience K 2 ≤ fuel) (hR : ∀ v x, R v x) :
    wp (pacedHandler c.size.toNat K) E (seggerRttSetTerminal fuel id) R (w, m) := by
  unfold seggerRttSetTerminal
  apply wp_seq_of_interleaved hm
  apply wp_init h
  intro w₁ h₁ m₁ hm₁
  split
  · apply wp_seq_of_interleaved hm₁
    apply wp_load_flags h₁
    intro w₂ h₂ m₂ hm₂
    have hmode : c.flags &&& seggerRttModeMask = seggerRttModeBlockIfFifoFull := hblock
    rw [if_pos hmode]
    apply wp_seq_of_interleaved hm₂
    apply wp_storeActiveTerminal h₂
    intro w₃ h₃ m₃ hm₃
    apply wp_seq
    apply wp_writeBlocking_paced h₃ hm₃ hsize (Nat.le_refl _) hfuel
    intro items' known' w' m' hm' hw'
    exact hR _ _
  · exact hR _ _

theorem wp_terminalFrame_paced {R : Int → (Memory × UpHost) × Nat → Prop} {id : UInt8}
    {s : List UInt8} {NumBytes : UInt32} (h : Up c items [] known w) (hm : m < K)
    (hsize : 2 ≤ c.size.toNat) (hlen : NumBytes.toNat ≤ s.length)
    (hfuel : patience K (s.length + 2) ≤ fuel) (hR : ∀ v x, R v x) :
    wp (pacedHandler c.size.toNat K) E (terminalFrame fuel id s NumBytes) R (w, m) := by
  have htwo : patience K 2 ≤ fuel := Nat.le_trans (patience_mono (by omega)) hfuel
  have htext : patience K NumBytes.toNat ≤ fuel := Nat.le_trans (patience_mono (by omega)) hfuel
  unfold terminalFrame
  apply wp_seq
  apply wp_postTerminalSwitch_paced h hm hsize htwo
  intro items₁ known₁ w₁ m₁ hm₁ h₁
  apply wp_seq
  apply wp_writeBlocking_paced h₁ hm₁ hsize hlen htext
  intro items₂ known₂ w₂ m₂ hm₂ h₂
  apply wp_seq_of_interleaved hm₂
  apply wp_loadActiveTerminal h₂
  intro w₃ h₃ m₃ hm₃
  apply wp_seq
  apply wp_postTerminalSwitch_paced h₃ hm₃ hsize htwo
  intro items₄ known₄ w₄ m₄ hm₄ h₄
  exact hR _ _

theorem wp_terminalOut_paced {R : Int → (Memory × UpHost) × Nat → Prop} {id : UInt8}
    {s : List UInt8} (hblock : c.mode = seggerRttModeBlockIfFifoFull)
    (hs : s.length + 4 < 0x80000000) (h : Up c items [] known w) (hm : m < K)
    (hsize : 2 ≤ c.size.toNat) (hfuel : patience K (s.length + 2) ≤ fuel) (hR : ∀ v x, R v x) :
    wp (pacedHandler c.size.toNat K) E (seggerRttTerminalOut fuel id s) R (w, m) := by
  unfold seggerRttTerminalOut
  apply wp_seq_of_interleaved hm
  apply wp_init h
  intro w₁ h₁ m₁ hm₁
  split
  · apply wp_seq_of_interleaved hm₁
    apply wp_getAvailWriteSpace h₁
    intro Avail known₂ w₂ hknown₂ hAvail h₂ m₂ hm₂
    apply wp_seq_of_interleaved hm₂
    apply wp_load_flags h₂
    intro w₃ h₃ m₃ hm₃
    have hmode : c.flags &&& seggerRttModeMask = seggerRttModeBlockIfFifoFull := hblock
    simp only [hmode]
    exact wp_terminalFrame_paced h₃ hm₃ hsize (Nat.le_of_eq (toNat_strlen hs)) hfuel hR
  · exact hR _ _

/-- No call waits forever for a host that reads. -/
theorem wp_upCall_paced {call : UpCall} (hsized : call.Sized) (h : Up c items [] known w)
    (hm : m < K) (hsize : 2 ≤ c.size.toNat) (hfuel : patience K (call.text.length + 2) ≤ fuel) :
    wp (pacedHandler c.size.toNat K) (fun _ _ => False) (call.prog fuel) (fun _ _ => True)
      (w, m) := by
  by_cases hwaits : call.Waits c
  · have htext : patience K call.text.length ≤ fuel :=
      Nat.le_trans (patience_mono (by omega)) hfuel
    cases call with
    | writeNoLock s =>
      apply wp_seq
      exact wp_writeNoLock_paced hwaits hsized h hm hsize htext fun _ _ => trivial
    | write s =>
      apply wp_seq
      exact wp_write_paced hwaits hsized h hm hsize htext fun _ _ => trivial
    | writeString s =>
      apply wp_seq
      exact wp_write_paced hwaits hsized h hm hsize htext fun _ _ => trivial
    | amPrintString s =>
      apply wp_seq
      apply wp_seq
      exact wp_write_paced hwaits hsized h hm hsize htext fun _ _ => trivial
    | libcWrite s =>
      apply wp_seq
      apply wp_seq
      exact wp_write_paced hwaits hsized h hm hsize htext fun _ _ => trivial
    | putChar ch =>
      apply wp_seq
      exact wp_putChar_paced hwaits h hm hsize
        (Nat.le_trans (patience_mono (Nat.zero_le _)) hfuel) fun _ _ => trivial
    | setTerminal id =>
      exact wp_setTerminal_paced hwaits h hm hsize hfuel fun _ _ => trivial
    | terminalOut id s =>
      exact wp_terminalOut_paced hwaits hsized h hm hsize hfuel fun _ _ => trivial
    | writeSkipNoLock s => exact hwaits.elim
    | putCharSkipNoLock ch => exact hwaits.elim
    | putCharSkip ch => exact hwaits.elim
    | setFlagsUpBuffer Flags => exact hwaits.elim
  · have htwo : 2 ≤ fuel := Nat.le_trans (two_le_patience K _) hfuel
    have hcall : wp upHandler (fun _ _ => False) (call.prog fuel) (fun _ _ => True) w := by
      apply wp_upCall htwo hsized h
      constructor
      · intros
        trivial
      · intro room k known' w' hknown hroom hwaits'
        exact absurd hwaits' hwaits
    apply wp_weaken (wp_of_interleaved hcall hm)
    · intro e x hstop
      exact hstop
    · intros
      trivial

end Calls

/-! ## Runs -/

theorem call_returns {call : UpCall} {fuel : Nat} (hsized : call.Sized)
    (h : Up c items [] known w) (hsize : 2 ≤ c.size.toNat)
    (hfuel : patience K (call.text.length + 2) ≤ fuel) {sched : Nat → List HostStep}
    (hsched : Paced (Drains c.size.toNat) K sched) :
    ∃ v s', (call.prog fuel).eval (interleave UpHost.act env) (w, sched) = (.ok v, s') ∧
      Paced (Drains c.size.toNat) K s'.2 := by
  obtain ⟨m, hm, hgood⟩ := hsched 0
  rw [Nat.zero_add] at hgood
  have hrun := wp_paced (wp_upCall_paced hsized h hm hsize hfuel) hsched hgood
  apply eval_of_wp
  exact wp_weaken hrun (fun e s' hstop => hstop.elim fun _ h => h) fun v s' hv => hv.1

/-- A run beside a host that reads: all calls return, each as one step. -/
theorem run_live {fuel : Nat} {calls : List UpCall} (hsized : ∀ call ∈ calls, call.Sized)
    (hfuel : ∀ call ∈ calls, patience K (call.text.length + 2) ≤ fuel)
    (h : Up c items [] known w) (hsize : 2 ≤ c.size.toNat) {sched : Nat → List HostStep}
    (hsched : Paced (Drains c.size.toNat) K sched) :
    (runCalls fuel calls (w, sched)).1.map CallStep.call = calls ∧
      ∀ x ∈ (runCalls fuel calls (w, sched)).1, ∃ v, x.result = .ok v := by
  induction calls generalizing c items known w sched with
  | nil =>
    refine ⟨rfl, fun x hx => ?_⟩
    exact absurd hx List.not_mem_nil
  | cons call calls ih =>
    have hcall := hsized call List.mem_cons_self
    have hturns := hfuel call List.mem_cons_self
    have htwo : 2 ≤ fuel := Nat.le_trans (two_le_patience K _) hturns
    have hone := call_atomic htwo hcall h sched
    obtain ⟨v, ⟨w', sched'⟩, hev, hsched'⟩ := call_returns hcall h hsize hturns hsched
    unfold runCalls
    rw [hev] at hone ⊢
    cases hone with
    | waiting room k known' hbefore hwaits hfull hresult hup => cases hresult
    | returned room known' hbefore hafter hresult hup =>
      have hkeep : (call.outcome c room).setting.size = c.size := outcome_size c room call
      rw [← hkeep] at hsize hsched'
      have hrest := ih (fun call hcall => hsized call (List.mem_cons_of_mem _ hcall))
        (fun call hcall => hfuel call (List.mem_cons_of_mem _ hcall)) hup hsize hsched'
      refine ⟨?_, fun x hx => ?_⟩
      · show call :: _ = _
        rw [hrest.1]
      · rcases List.mem_cons.mp hx with rfl | hx
        · exact ⟨v, rfl⟩
        · exact hrest.2 x hx

/-- **A host that reads is enough.** If the host empties the buffer before at least one of any `K`
accesses of the target, every call returns, also on a channel that blocks, and the loops take no
more turns than `patience` says. -/
theorem runCalls_live (hw : Fresh w) (hsize : 2 ≤ (w.1.word .sizeOfBuffer).toNat) {fuel : Nat}
    (calls : List UpCall) (hsized : ∀ call ∈ calls, call.Sized)
    (hfuel : ∀ call ∈ calls, patience K (call.text.length + 2) ≤ fuel)
    (sched : Nat → List HostStep)
    (hsched : Paced (Drains (w.1.word .sizeOfBuffer).toNat) K sched) :
    (runCalls fuel calls (w, sched)).1.map CallStep.call = calls ∧
      ∀ x ∈ (runCalls fuel calls (w, sched)).1, ∃ v, x.result = .ok v :=
  run_live hsized hfuel hw.up hsize hsched

/-- A host that empties a buffer of eight bytes before every second access. -/
def slowHost (n : Nat) : List HostStep :=
  if n % 2 = 0 then .look :: List.replicate 7 .take ++ [.release] else []

theorem slowHost_paced : Paced (Drains (8 : UInt32).toNat) 2 slowHost := by
  intro n
  have heven : ∀ k, k % 2 = 0 → Drains (8 : UInt32).toNat (slowHost k) := by
    intro k hk
    refine ⟨[], 7, [], ?_, by decide⟩
    unfold slowHost
    rw [if_pos hk]
    rfl
  rcases Nat.mod_two_eq_zero_or_one n with hn | hn
  · exact ⟨0, by decide, heven _ hn⟩
  · exact ⟨1, by decide, heven _ (by omega)⟩

theorem smallCalls_live :
    (runCalls 40 smallCalls (smallChannel 2, slowHost)).1.map CallStep.call = smallCalls ∧
      ∀ x ∈ (runCalls 40 smallCalls (smallChannel 2, slowHost)).1, ∃ v, x.result = .ok v :=
  runCalls_live (smallChannel_fresh 2) (by decide) smallCalls smallCalls_sized (by decide) _
    slowHost_paced

/-! ## What is printed -/

/-- The calls of which a blocking channel loses nothing. -/
def UpCall.Prints : UpCall → Prop
  | .writeNoLock _ | .write _ | .writeString _ | .amPrintString _ | .libcWrite _
  | .putChar _ => True
  | .setTerminal id | .terminalOut id _ => id.toNat < aTerminalId.length
  | .writeSkipNoLock _ | .putCharSkipNoLock _ | .putCharSkip _ | .setFlagsUpBuffer _ => False

/-- What the calls send while the terminal `t` is set. -/
def output (t : UInt8) : List UpCall → List UInt8
  | [] => []
  | .setTerminal id :: calls => terminalSwitch id ++ output id calls
  | .terminalOut id s :: calls => framed id t s ++ output t calls
  | call :: calls => call.text ++ output t calls

/-- The texts, each with its terminal. -/
def printed (t : UInt8) : List UpCall → List (UInt8 × UInt8)
  | [] => []
  | .setTerminal id :: calls => printed id calls
  | call :: calls => onTerminal (call.terminal t) call.text ++ printed t calls

/-- One call, on a channel that blocks. -/
theorem outcome_output {call : UpCall} (hcall : call.Prints)
    (hblock : c.flags = seggerRttModeBlockIfFifoFull) (room : Nat) (calls : List UpCall) :
    (call.outcome c room).setting.flags = seggerRttModeBlockIfFifoFull ∧
      (call.outcome c room).bytes ++ output (call.outcome c room).setting.active calls =
        output c.active (call :: calls) := by
  have hall : ∀ s : List UInt8, s.take (accepted c.flags room s.length) = s := by
    intro s
    rw [hblock]
    exact List.take_length
  have hmode : c.mode = seggerRttModeBlockIfFifoFull := by
    unfold Setting.mode
    rw [hblock]
    rfl
  cases call with
  | writeNoLock s | write s | writeString s | amPrintString s | libcWrite s =>
    refine ⟨hblock, ?_⟩
    show s.take _ ++ _ = s ++ _
    rw [hall]
    rfl
  | putChar ch =>
    have hout : UpCall.outcome c room (.putChar ch) = ⟨1, [ch], c⟩ :=
      if_neg fun hboth => hboth.2 hblock
    rw [hout]
    exact ⟨hblock, rfl⟩
  | setTerminal id =>
    have hout : UpCall.outcome c room (.setTerminal id) =
        ⟨0, terminalSwitch id, { c with active := id }⟩ := if_pos ⟨hcall, .inl hmode⟩
    rw [hout]
    exact ⟨hblock, rfl⟩
  | terminalOut id s =>
    have hid : ¬ aTerminalId.length ≤ id.toNat := Nat.not_le.mpr hcall
    have hout : UpCall.outcome c room (.terminalOut id s) =
        ⟨s.length, framed id c.active s, c⟩ := by
      simp only [UpCall.outcome, if_neg hid, hmode]
      rfl
    rw [hout]
    exact ⟨hblock, rfl⟩
  | writeSkipNoLock s => exact hcall.elim
  | putCharSkipNoLock ch => exact hcall.elim
  | putCharSkip ch => exact hcall.elim
  | setFlagsUpBuffer Flags => exact hcall.elim

/-- Where all calls have returned, the stream is what they send. -/
theorem atomically_output {xs : List CallStep} {c' : Setting} {stream : List UInt8}
    (h : Atomically c xs c' stream) (hblock : c.flags = seggerRttModeBlockIfFifoFull)
    (hprints : ∀ x ∈ xs, x.call.Prints) (hreturns : ∀ x ∈ xs, ∃ v, x.result = .ok v) :
    stream = output c.active (xs.map CallStep.call) := by
  induction h with
  | nil c => rfl
  | @returned c c' x xs stream room hbefore hafter hresult tail ih =>
    obtain ⟨hflags, houtput⟩ :=
      outcome_output (hprints x List.mem_cons_self) hblock room (xs.map CallStep.call)
    have hrest := ih hflags (fun x hx => hprints x (List.mem_cons_of_mem _ hx))
      fun x hx => hreturns x (List.mem_cons_of_mem _ hx)
    rw [hrest, houtput]
    rfl
  | @waiting c x room k hbefore hwaits hfull hresult =>
    obtain ⟨v, hv⟩ := hreturns x List.mem_cons_self
    rw [hresult] at hv
    cases hv

theorem atomically_size {xs : List CallStep} {c' : Setting} {stream : List UInt8}
    (h : Atomically c xs c' stream) : c'.size = c.size := by
  induction h with
  | nil c => rfl
  | @returned c c' x xs stream room hbefore hafter hresult tail ih =>
    rw [ih, outcome_size]
  | @waiting c x room k hbefore hwaits hfull hresult => exact outcome_size c room x.call

/-- After the host has emptied the buffer once more, it has received all that the calls send. -/
theorem run_delivered (hw : Fresh w) (hsize : 2 ≤ (w.1.word .sizeOfBuffer).toNat)
    (hblock : w.1.word .flags = seggerRttModeBlockIfFifoFull) {fuel : Nat} {calls : List UpCall}
    (hsized : ∀ call ∈ calls, call.Sized)
    (hfuel : ∀ call ∈ calls, patience K (call.text.length + 2) ≤ fuel)
    (hprints : ∀ call ∈ calls, call.Prints) {sched : Nat → List HostStep}
    (hsched : Paced (Drains (w.1.word .sizeOfBuffer).toNat) K sched) {later : List HostStep}
    (hlater : Drains (w.1.word .sizeOfBuffer).toNat later) :
    (later.foldl UpHost.act (runCalls fuel calls (w, sched)).2).2.received =
      output w.1.activeTerminal calls := by
  cases calls with
  | nil => exact (hw.up.drained hlater).received_of_known
  | cons call calls =>
    have htwo : 2 ≤ fuel := Nat.le_trans (two_le_patience K _) (hfuel call List.mem_cons_self)
    obtain ⟨hcalls, hreturns⟩ := run_live hsized hfuel hw.up hsize hsched
    obtain ⟨c', stream, known', hatomic, hup⟩ := run_atomic htwo hsized hw.up sched
    have hmem := mem_calls fuel (call :: calls) (w, sched)
    have hstream := atomically_output hatomic hblock (fun x hx => hprints _ (hmem x hx)) hreturns
    have hkeep : c'.size = w.1.word .sizeOfBuffer := atomically_size hatomic
    rw [← hkeep] at hlater
    rw [(hup.drained hlater).received_of_known, hstream, hcalls]
    rfl

/-- **What is printed is received.** On a channel that blocks, beside a host that empties the
buffer before at least one of any `K` accesses, every byte of every call arrives, once and in
order, by the next time that the host empties the buffer. -/
theorem printed_delivered (hw : Fresh w) (hsize : 2 ≤ (w.1.word .sizeOfBuffer).toNat)
    (hblock : w.1.word .flags = seggerRttModeBlockIfFifoFull) {fuel : Nat} (calls : List UpCall)
    (hsized : ∀ call ∈ calls, call.Sized)
    (hfuel : ∀ call ∈ calls, patience K (call.text.length + 2) ≤ fuel)
    (hprints : ∀ call ∈ calls, call.Prints) (sched : Nat → List HostStep)
    (hsched : Paced (Drains (w.1.word .sizeOfBuffer).toNat) K sched) (later : List HostStep)
    (hlater : Drains (w.1.word .sizeOfBuffer).toNat later) :
    (later.foldl UpHost.act (runCalls fuel calls (w, sched)).2).2.received =
      output w.1.activeTerminal calls :=
  run_delivered hw hsize hblock hsized hfuel hprints hsched hlater

/-- More than fits at a time, with a text for another terminal. -/
def smallPrints : List UpCall :=
  [.write [104, 101, 108, 108, 111, 10], .terminalOut 1 [33], .setTerminal 2, .libcWrite [63, 10]]

theorem smallPrints_sized : ∀ call ∈ smallPrints, call.Sized := by
  unfold smallPrints
  simp [UpCall.Sized]

theorem smallPrints_prints : ∀ call ∈ smallPrints, call.Prints := by
  unfold smallPrints
  simp [UpCall.Prints, aTerminalId]

theorem smallPrints_delivered :
    (List.foldl UpHost.act (runCalls 50 smallPrints (smallChannel 2, slowHost)).2
      (slowHost 0)).2.received = output 0 smallPrints :=
  printed_delivered (smallChannel_fresh 2) (by decide) rfl smallPrints smallPrints_sized
    (by decide) smallPrints_prints _ slowHost_paced _ ⟨[], 7, [], rfl, by decide⟩

/-- What is sent shows every text on its terminal. -/
theorem output_shown {t : UInt8} {calls : List UpCall} (ht : t.toNat < aTerminalId.length)
    (hprints : ∀ call ∈ calls, call.Prints) (hplain : ∀ call ∈ calls, 0xFF ∉ call.text) :
    ((Viewer.start t).sees (output t calls)).shown = printed t calls := by
  induction calls generalizing t with
  | nil => rfl
  | cons call calls ih =>
    have hcall := hprints call List.mem_cons_self
    have htext := hplain call List.mem_cons_self
    have hrest : ∀ {t : UInt8}, t.toNat < aTerminalId.length →
        ((Viewer.start t).sees (output t calls)).shown = printed t calls :=
      fun ht => ih ht (fun call hcall => hprints call (List.mem_cons_of_mem _ hcall))
        fun call hcall => hplain call (List.mem_cons_of_mem _ hcall)
    have hafter : ∀ {t' : UInt8} {bytes : List UInt8} {shown : List (UInt8 × UInt8)},
        t'.toNat < aTerminalId.length → (Viewer.start t).sees bytes = ⟨t', false, shown⟩ →
        ((Viewer.start t).sees (bytes ++ output t' calls)).shown = shown ++ printed t' calls := by
      intro t' bytes shown ht' hsees
      rw [Viewer.sees_append, hsees, Viewer.sees_shown]
      exact congrArg _ (hrest ht')
    cases call with
    | writeNoLock s | write s | writeString s | amPrintString s | libcWrite s | putChar ch =>
      exact hafter ht (Viewer.sees_plain htext)
    | setTerminal id => exact hafter hcall (Viewer.sees_switch hcall)
    | terminalOut id s => exact hafter ht (Viewer.sees_framed hcall ht htext)
    | writeSkipNoLock s => exact hcall.elim
    | putCharSkipNoLock ch => exact hcall.elim
    | putCharSkip ch => exact hcall.elim
    | setFlagsUpBuffer Flags => exact hcall.elim

/-- **What is printed is shown**, in full and each text on its terminal. -/
theorem printed_shown (hw : Fresh w) (hsize : 2 ≤ (w.1.word .sizeOfBuffer).toNat)
    (hblock : w.1.word .flags = seggerRttModeBlockIfFifoFull)
    (hactive : w.1.activeTerminal.toNat < aTerminalId.length) {fuel : Nat} (calls : List UpCall)
    (hsized : ∀ call ∈ calls, call.Sized)
    (hfuel : ∀ call ∈ calls, patience K (call.text.length + 2) ≤ fuel)
    (hprints : ∀ call ∈ calls, call.Prints) (hplain : ∀ call ∈ calls, 0xFF ∉ call.text)
    (sched : Nat → List HostStep)
    (hsched : Paced (Drains (w.1.word .sizeOfBuffer).toNat) K sched) (later : List HostStep)
    (hlater : Drains (w.1.word .sizeOfBuffer).toNat later) :
    ((Viewer.start w.1.activeTerminal).sees
      (later.foldl UpHost.act (runCalls fuel calls (w, sched)).2).2.received).shown =
      printed w.1.activeTerminal calls := by
  rw [run_delivered hw hsize hblock hsized hfuel hprints hsched hlater]
  exact output_shown hactive hprints hplain

theorem smallPrints_shown :
    ((Viewer.start 0).sees (List.foldl UpHost.act
      (runCalls 50 smallPrints (smallChannel 2, slowHost)).2 (slowHost 0)).2.received).shown =
      printed 0 smallPrints :=
  printed_shown (smallChannel_fresh 2) (by decide) rfl (by decide) smallPrints smallPrints_sized
    (by decide) smallPrints_prints (by unfold smallPrints; simp [UpCall.text]) _ slowHost_paced _
    ⟨[], 7, [], rfl, by decide⟩

end SpiNand.Rtt
