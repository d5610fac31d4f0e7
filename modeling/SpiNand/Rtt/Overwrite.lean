import SpiNand.Rtt.Delivery

/-!
# Recording without a host

While no host reads the buffer, `SEGGER_RTT_WriteWithOverwriteNoLock()` keeps the newest bytes in
it: it moves the read offset past the oldest ones, as a host would have done.

* **`Recorded size items staged dropped`** is the invariant: of everything that was written,
  `dropped` bytes were overwritten and the rest is in the buffer.
* **`recorder_keeps_newest`**: a host that attaches later receives the newest bytes, as many as the
  buffer holds. No message may be longer than that.
-/

namespace SpiNand.Rtt

open Interaction Interaction.Prog

/-! ## The invariant -/

structure Recorded (size : UInt32) (items staged : List UInt8) (dropped : Nat) (m : Memory) :
    Prop where
  acID : m.word .acID ≠ 0
  size_eq : m.word .sizeOfBuffer = size
  queue : Ring.Queue size.toNat m.pBuffer (m.word .wrOff).toNat (m.word .rdOff).toNat items staged
    dropped dropped dropped dropped

/-- The accesses of the target alone. -/
abbrev aloneHandler : Handler Memory Access Reply := Handler.env Memory.access

variable {size : UInt32} {items staged : List UInt8} {dropped : Nat} {m : Memory}
  {E : Stop → Memory → Prop}

theorem wp_load_alone {R : UInt32 → Memory → Prop} {f : Field} (h : R (m.word f) m) :
    wp aloneHandler E (load f) R m := h

theorem wp_store_alone {R : Unit → Memory → Prop} {f : Field} {v : UInt32}
    (h : R () { m with word := Function.update m.word f v }) :
    wp aloneHandler E (store f v) R m := h

theorem Recorded.dropped_le (h : Recorded size items staged dropped m) : dropped ≤ items.length :=
  h.queue.seen_le

theorem Recorded.storeByte {R : Unit → Memory → Prop} {i : UInt32} {b : UInt8}
    (h : Recorded size items staged dropped m)
    (hroom : items.length + staged.length + 1 < dropped + size.toNat)
    (hi : i.toNat = (items.length + staged.length) % size.toNat)
    (hR : ∀ m', Recorded size items (staged ++ [b]) dropped m' → R () m') :
    wp aloneHandler E (storeByte i b) R m :=
  hR _ { h with queue := h.queue.stage b hroom hi }

theorem Recorded.memcpyTo {R : Unit → Memory → Prop} {off : UInt32} {bytes : List UInt8}
    (h : Recorded size items staged dropped m)
    (hroom : items.length + staged.length + bytes.length < dropped + size.toNat)
    (hoff : off.toNat = (items.length + staged.length) % size.toNat)
    (hend : off.toNat + bytes.length ≤ size.toNat)
    (hR : ∀ m', Recorded size items (staged ++ bytes) dropped m' → R () m') :
    wp aloneHandler E (Rtt.memcpyTo off bytes) R m :=
  wp_memcpyTo_of (J := fun staged m => Recorded size items staged dropped m)
    (fun h => h.storeByte) h hroom hoff hend hR

theorem Recorded.storeWrOff {R : Unit → Memory → Prop} {v : UInt32}
    (h : Recorded size items staged dropped m)
    (hv : v.toNat = (items.length + staged.length) % size.toNat)
    (hR : ∀ m', m'.word .wrOff = v → Recorded size (items ++ staged) [] dropped m' → R () m') :
    wp aloneHandler E (store .wrOff v) R m := by
  have hqueue := h.queue.publish hv
  apply hR { m with word := Function.update m.word .wrOff v }
  · show Function.update m.word .wrOff v .wrOff = v
    rw [Function.update_self]
  · constructor
    · simpa using h.acID
    · simpa using h.size_eq
    · simpa using hqueue

/-! ## Making room -/

/-- `RdOff` ends as its remainder. -/
theorem wp_wrapRdOff {R : Unit → Memory → Prop} {fuel : Nat} {z : UInt32}
    (hsize : m.word .sizeOfBuffer = z)
    (hfuel : (m.word .rdOff).toNat < fuel * z.toNat)
    (hR : ∀ v : UInt32, v.toNat = (m.word .rdOff).toNat % z.toNat →
      R () { m with word := Function.update m.word .rdOff v }) :
    wp aloneHandler E (wrapRdOff fuel) R m := by
  induction fuel generalizing m with
  | zero =>
    rw [Nat.zero_mul] at hfuel
    exact absurd hfuel (Nat.not_lt_zero _)
  | succ fuel ih =>
    rw [Nat.succ_mul] at hfuel
    unfold wrapRdOff
    apply wp_seq
    apply wp_load_alone
    apply wp_seq
    apply wp_load_alone
    rw [hsize]
    split
    · rename_i hge
      rw [ge_iff_le, UInt32.le_iff_toNat_le] at hge
      have hsub : (m.word .rdOff - z).toNat = (m.word .rdOff).toNat - z.toNat :=
        toNat_sub_of_toNat_le hge
      apply wp_seq
      apply wp_store_alone
      apply ih
      · simpa using hsize
      · simp only [Function.update_self, hsub]
        omega
      · intro v hv
        simp only [Function.update_self, hsub] at hv
        rw [Function.update_idem]
        apply hR
        rw [hv, ← Nat.mod_eq_sub_mod hge]
    · rename_i hlt
      rw [ge_iff_le, UInt32.le_iff_toNat_le] at hlt
      have hsame := hR (m.word .rdOff) (Nat.mod_eq_of_lt (by omega)).symm
      rw [Function.update_eq_self] at hsame
      exact hsame

/-- The oldest bytes are given up until there is room for the new ones. -/
theorem wp_makeRoom {R : Unit → Memory → Prop} {fuel : Nat} {Avail NumBytes : UInt32}
    (h : Recorded size items [] dropped m) (hfuel : 2 ≤ fuel) (hsize : size.toNat < 0x80000000)
    (hfit : NumBytes.toNat < size.toNat)
    (hAvail : Avail.toNat + items.length + 1 = dropped + size.toNat)
    (hR : ∀ m', m'.word .wrOff = m.word .wrOff →
      Recorded size items [] (max dropped (items.length + NumBytes.toNat + 1 - size.toNat)) m' →
      R () m') :
    wp aloneHandler E (if NumBytes > Avail then do
      let RdOff ← load .rdOff
      store .rdOff (RdOff + (NumBytes - Avail))
      wrapRdOff fuel
    else pure ()) R m := by
  have hdropped := h.dropped_le
  split
  · rename_i hgt
    rw [gt_iff_lt, UInt32.lt_iff_toNat_lt] at hgt
    have hmore : (NumBytes - Avail).toNat = NumBytes.toNat - Avail.toNat :=
      toNat_sub_of_toNat_le (Nat.le_of_lt hgt)
    have hrd := h.queue.rd_lt
    have hRdOff : (m.word .rdOff + (NumBytes - Avail)).toNat =
        (m.word .rdOff).toNat + (NumBytes.toNat - Avail.toNat) := by
      rw [UInt32.toNat_add, hmore]
      exact Nat.mod_eq_of_lt (show _ < 0x100000000 by omega)
    have hmax : max dropped (items.length + NumBytes.toNat + 1 - size.toNat) =
        dropped + (NumBytes.toNat - Avail.toNat) := by omega
    rw [hmax] at hR
    apply wp_seq
    apply wp_load_alone
    apply wp_seq
    apply wp_store_alone
    apply wp_wrapRdOff (z := size)
    · simpa using h.size_eq
    · have := Nat.mul_le_mul_right size.toNat hfuel
      simp only [Function.update_self, hRdOff]
      omega
    · intro v hv
      simp only [Function.update_self, hRdOff] at hv
      rw [Function.update_idem]
      have hoff : v.toNat = (dropped + (NumBytes.toNat - Avail.toNat)) % size.toNat := by
        rw [hv, h.queue.rd_eq, Nat.mod_add_mod]
      have hqueue := h.queue.skip (by omega) (by omega) hoff
      apply hR
      · simp
      · constructor
        · simpa using h.acID
        · simpa using h.size_eq
        · simpa using hqueue
  · rename_i hle
    rw [gt_iff_lt, UInt32.lt_iff_toNat_lt] at hle
    have hmax : max dropped (items.length + NumBytes.toNat + 1 - size.toNat) = dropped := by omega
    rw [hmax] at hR
    exact hR m rfl h

/-! ## Writing -/

variable {pData : List UInt8}

/-- The round in which the data ends. -/
theorem wp_overwriteLoop_last {R : Unit → Memory → Prop} {fuel : Nat} {Avail NumBytes : UInt32}
    (h : Recorded size items [] dropped m) (hlen : NumBytes.toNat = pData.length)
    (hlast : NumBytes < Avail) (hend : (m.word .wrOff).toNat + NumBytes.toNat < size.toNat)
    (hroom : items.length + NumBytes.toNat < dropped + size.toNat)
    (hR : ∀ m', Recorded size (items ++ pData) [] dropped m' → R () m') :
    wp aloneHandler E (overwriteLoop (fuel + 1) Avail pData NumBytes) R m := by
  have hwr := h.queue.wr_eq
  have htake : pData.take NumBytes.toNat = pData := by rw [hlen, List.take_length]
  unfold overwriteLoop
  apply wp_seq
  apply wp_load_alone
  rw [if_pos hlast, htake]
  apply wp_seq
  apply h.memcpyTo (by rw [List.length_nil]; omega) hwr (by omega)
  intro m₁ h₁
  rw [List.nil_append] at h₁
  apply h₁.storeWrOff
  · rw [toNat_add_of_toNat_le (z := size) (by omega), hwr, ← hlen,
      Ring.offset_add (by omega)]
  · intro m₂ _ h₂
    exact hR m₂ h₂

/-- The data is written in one round, or in two. -/
theorem wp_overwriteLoop {R : Unit → Memory → Prop} {fuel : Nat} {NumBytes : UInt32}
    (h : Recorded size items [] dropped m) (hlen : NumBytes.toNat = pData.length)
    (hfit : NumBytes.toNat < size.toNat)
    (hroom : items.length + NumBytes.toNat < dropped + size.toNat)
    (hR : ∀ m', Recorded size (items ++ pData) [] dropped m' → R () m') :
    wp aloneHandler E (overwriteLoop (fuel + 2) (size - m.word .wrOff) pData NumBytes) R m := by
  have hwr := h.queue.wr_eq
  have hlt := h.queue.wr_lt
  have hRem : (size - m.word .wrOff).toNat = size.toNat - (m.word .wrOff).toNat :=
    toNat_sub_of_toNat_le (Nat.le_of_lt hlt)
  by_cases hlast : NumBytes < size - m.word .wrOff
  · have hend : (m.word .wrOff).toNat + NumBytes.toNat < size.toNat := by
      rw [UInt32.lt_iff_toNat_lt, hRem] at hlast
      omega
    exact wp_overwriteLoop_last h hlen hlast hend hroom hR
  · unfold overwriteLoop
    apply wp_seq
    apply wp_load_alone
    rw [if_neg hlast]
    rw [UInt32.lt_iff_toNat_lt, hRem] at hlast
    generalize size - m.word .wrOff = Rem at hRem
    have htake : (pData.take Rem.toNat).length = Rem.toNat := by
      rw [List.length_take]
      omega
    have hlap : (items.length + Rem.toNat) % size.toNat = 0 := by
      rw [← Ring.wrap_add (by omega), if_pos (by omega)]
    have hrest : (NumBytes - Rem).toNat = NumBytes.toNat - Rem.toNat :=
      toNat_sub_of_toNat_le (by omega)
    apply wp_seq
    apply h.memcpyTo (by rw [htake, List.length_nil]; omega) hwr (by omega)
    intro m₁ h₁
    rw [List.nil_append] at h₁
    apply wp_seq
    apply h₁.storeWrOff
    · rw [htake, hlap]
      rfl
    · intro m₂ hzero h₂
      apply wp_seq
      apply wp_load_alone
      rw [h₂.size_eq]
      split
      · -- the data ends where the buffer does
        rename_i hdone
        have hall : NumBytes.toNat = Rem.toNat := by
          have : (NumBytes - Rem).toNat = 0 := by rw [hdone]; rfl
          omega
        rw [← hall, hlen, List.take_length] at h₂
        exact hR m₂ h₂
      · have hsub : (size - 1).toNat = size.toNat - 1 :=
          toNat_sub_of_toNat_le (show 1 ≤ size.toNat by omega)
        have hstart : (m₂.word .wrOff).toNat = 0 := by rw [hzero]; rfl
        apply wp_overwriteLoop_last h₂
        · rw [hrest, hlen, List.length_drop]
        · rw [UInt32.lt_iff_toNat_lt, hrest, hsub]
          omega
        · omega
        · rw [List.length_append, htake, hrest]
          omega
        · intro m₃ h₃
          rw [List.append_assoc, List.take_append_drop] at h₃
          exact hR m₃ h₃

/-- One call. -/
theorem wp_writeWithOverwrite {R : Unit → Memory → Prop} {fuel : Nat} {NumBytes : UInt32}
    (h : Recorded size items [] dropped m) (hfuel : 2 ≤ fuel) (hsize : size.toNat < 0x80000000)
    (hlen : NumBytes.toNat = pData.length) (hfit : NumBytes.toNat < size.toNat)
    (hR : ∀ m', Recorded size (items ++ pData) []
      (max dropped (items.length + pData.length + 1 - size.toNat)) m' → R () m') :
    wp aloneHandler E (seggerRttWriteWithOverwriteNoLock fuel pData NumBytes) R m := by
  obtain ⟨fuel, rfl⟩ : ∃ k, fuel = k + 2 := ⟨fuel - 2, by omega⟩
  have hfits : items.length < dropped + size.toNat := by simpa using h.queue.fits
  have hAvail := toNat_overwriteAvail h.queue.rd_eq h.queue.wr_eq h.dropped_le hfits
  unfold seggerRttWriteWithOverwriteNoLock
  unfold overwriteAvail
  apply wp_seq
  apply wp_seq
  apply wp_load_alone
  apply wp_seq
  apply wp_load_alone
  apply wp_seq
  apply wp_load_alone
  rw [pure_eq, wp_done, h.size_eq]
  generalize (if m.word .wrOff = m.word .rdOff then size - 1
    else if m.word .wrOff < m.word .rdOff then m.word .rdOff - m.word .wrOff - 1
    else m.word .rdOff - m.word .wrOff - 1 + size) = Avail at hAvail
  apply wp_seq
  apply wp_makeRoom h hfuel hsize hfit hAvail
  intro m₁ _ h₁
  apply wp_seq
  apply wp_load_alone
  apply wp_seq
  apply wp_load_alone
  rw [h₁.size_eq]
  apply wp_overwriteLoop h₁ hlen hfit (by omega)
  rw [hlen]
  exact hR

/-! ## Runs -/

def runOverwrites (fuel : Nat) : List (List UInt8) → TargetM Unit
  | [] => pure ()
  | s :: texts => do
    seggerRttWriteWithOverwriteNoLock fuel s (strlen s)
    runOverwrites fuel texts

/-- What is not in the buffer any more is the oldest of what was written. -/
theorem wp_runOverwrites {fuel : Nat} {texts : List (List UInt8)}
    (h : Recorded size items [] (items.length + 1 - size.toNat) m) (hfuel : 2 ≤ fuel)
    (hsize : size.toNat < 0x80000000) (htexts : ∀ s ∈ texts, s.length < size.toNat) :
    wp aloneHandler (fun _ _ => False) (runOverwrites fuel texts)
      (fun _ m' => Recorded size (items ++ texts.flatten) []
        ((items ++ texts.flatten).length + 1 - size.toNat) m') m := by
  induction texts generalizing items m with
  | nil =>
    have hnone : items ++ ([] : List (List UInt8)).flatten = items := List.append_nil items
    show Recorded size (items ++ ([] : List (List UInt8)).flatten) [] _ m
    rw [hnone]
    exact h
  | cons s texts ih =>
    have hs := htexts s List.mem_cons_self
    have hlen : (strlen s).toNat = s.length :=
      UInt32.toNat_ofNat_of_lt' (show s.length < 0x100000000 by omega)
    apply wp_seq
    apply wp_writeWithOverwrite h hfuel hsize hlen (by omega)
    intro m' h'
    have hdropped : max (items.length + 1 - size.toNat) (items.length + s.length + 1 - size.toNat) =
        (items ++ s).length + 1 - size.toNat := by
      rw [List.length_append]
      omega
    rw [hdropped] at h'
    have hrest := ih h' fun s hs => htexts s (List.mem_cons_of_mem _ hs)
    rw [List.append_assoc] at hrest
    exact hrest

/-! ## The host attaches -/

/-- A host that starts to read where the read offset is. -/
def Memory.attach (m : Memory) : UpHost := ⟨m.word .rdOff, m.word .rdOff, []⟩

/-- Until then the buffer is as if a host had received what was overwritten. -/
theorem Recorded.up (h : Recorded size items [] dropped m) :
    Up ⟨size, m.word .flags, m.activeTerminal⟩ items [] dropped
      (m, { m.attach with received := items.take dropped }) :=
  ⟨dropped, dropped, dropped,
    { acID := h.acID
      size := h.size_eq
      flags := rfl
      active := rfl
      queue := h.queue
      looked := h.queue.rd_eq
      next := h.queue.rd_eq
      received := rfl }⟩

/-- What the host does does not depend on what it has received. -/
theorem foldl_act_received (earlier : List UInt8) (w : Memory × UpHost) (l : List HostStep) :
    l.foldl UpHost.act (w.1, { w.2 with received := earlier ++ w.2.received }) =
      ((l.foldl UpHost.act w).1,
        { (l.foldl UpHost.act w).2 with
          received := earlier ++ (l.foldl UpHost.act w).2.received }) := by
  induction l generalizing w with
  | nil => rfl
  | cons i l ih =>
    have hstep : UpHost.act (w.1, { w.2 with received := earlier ++ w.2.received }) i =
        ((UpHost.act w i).1,
          { (UpHost.act w i).2 with received := earlier ++ (UpHost.act w i).2.received }) := by
      cases i with
      | look => rfl
      | release => rfl
      | take =>
        simp only [UpHost.act]
        split
        · rfl
        · rw [List.append_assoc]
    rw [List.foldl_cons, List.foldl_cons, hstep]
    exact ih _

/-- **The newest bytes are kept.** After any run of calls, none of which writes more than the buffer
holds, a host that attaches and empties the buffer receives the end of all that was written, up to
`SizeOfBuffer - 1` bytes. -/
theorem recorder_keeps_newest (hm : Fresh (m, ⟨0, 0, []⟩))
    (hsize : (m.word .sizeOfBuffer).toNat < 0x80000000) {fuel : Nat} (hfuel : 2 ≤ fuel)
    (texts : List (List UInt8)) (htexts : ∀ s ∈ texts, s.length < (m.word .sizeOfBuffer).toNat) :
    ∃ m', (runOverwrites fuel texts).eval Memory.access m = (.ok (), m') ∧
      ∀ later : List HostStep, Drains (m.word .sizeOfBuffer).toNat later →
        (later.foldl UpHost.act (m', m'.attach)).2.received =
          texts.flatten.drop (texts.flatten.length + 1 - (m.word .sizeOfBuffer).toNat) := by
  have hstart : Recorded (m.word .sizeOfBuffer) [] [] (0 + 1 - (m.word .sizeOfBuffer).toNat) m := by
    have hpos : 0 < (m.word .sizeOfBuffer).toNat := hm.size
    have hnone : 0 + 1 - (m.word .sizeOfBuffer).toNat = 0 := by omega
    have hqueue := Ring.Queue.empty hpos m.pBuffer
    rw [hnone]
    refine ⟨hm.acID, rfl, ?_⟩
    rw [hm.wrOff, hm.rdOff]
    exact hqueue
  obtain ⟨_, m', heval, hrecorded⟩ := eval_of_wp (wp_runOverwrites hstart hfuel hsize htexts)
  refine ⟨m', heval, fun later hlater => ?_⟩
  rw [List.nil_append] at hrecorded
  generalize texts.flatten = written at hrecorded
  have hreceived := (hrecorded.up.drained hlater).received_of_known
  have hghost := foldl_act_received
    (written.take (written.length + 1 - (m.word .sizeOfBuffer).toNat)) (m', m'.attach) later
  have hattach : (m'.attach).received = [] := rfl
  rw [hattach, List.append_nil] at hghost
  rw [hghost] at hreceived
  have hsplit := List.take_append_drop (written.length + 1 - (m.word .sizeOfBuffer).toNat) written
  exact List.append_cancel_left (hreceived.trans hsplit.symm)

theorem smallRecorder_keeps_newest :
    ∃ m', (runOverwrites 2 [[1, 2, 3, 4, 5], [6, 7, 8, 9, 10, 11, 12], [13]]).eval Memory.access
        (smallChannel 0).1 = (.ok (), m') ∧
      ∀ later : List HostStep, Drains 8 later →
        (later.foldl UpHost.act (m', m'.attach)).2.received =
          [1, 2, 3, 4, 5, 6, 7, 8, 9, 10, 11, 12, 13].drop 6 :=
  recorder_keeps_newest (smallChannel_fresh 0) (by decide) (by decide)
    [[1, 2, 3, 4, 5], [6, 7, 8, 9, 10, 11, 12], [13]] (by decide)

/-- A longer message can be lost as a whole: here the second time around ends one cell before the
end of the buffer, and the offsets are equal. -/
example :
    let m' := ((runOverwrites 4 [List.replicate 15 42]).eval Memory.access (smallChannel 0).1).2
    m'.word .wrOff = m'.word .rdOff := by
  decide

end SpiNand.Rtt
