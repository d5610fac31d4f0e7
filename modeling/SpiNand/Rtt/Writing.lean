import SpiNand.Rtt.UpChannel

/-!
# Writing to an up-buffer

One rule for each function of the target that writes, whatever the host does meanwhile. A rule
says what the call publishes, in terms of the room that the host had made by the time the call
looked for it: `known + size` is one more than the items that may be published.

* **`wp_writeBlockingLoop`** is the loop that waits for the host: a stop in it has published a
  part of the data, and there is none if the data fits (`Suffices`).
* **`accepted`** is what the mode of a channel does with data for which there may be no room.
-/

namespace SpiNand.Rtt

open Interaction Interaction.Prog

variable {c : Setting} {items : List UInt8} {known : Nat} {w : Memory × UpHost}
  {E : Stop → Memory × UpHost → Prop}

/-! ## Room -/

/-- What the target finds free, and never less than it knew of. -/
theorem wp_getAvailWriteSpace {R : UInt32 → Memory × UpHost → Prop} (h : Up c items [] known w)
    (hR : ∀ v known' w', known ≤ known' → v.toNat + items.length + 1 = known' + c.size.toNat →
      Up c items [] known' w' → R v w') :
    wp upHandler E getAvailWriteSpace R w := by
  unfold getAvailWriteSpace
  apply wp_seq
  apply wp_load_rdOff h
  intro RdOff released w₁ hreleased hRdOff h₁
  apply wp_seq
  apply wp_load_wrOff h₁
  intro WrOff w₂ hWrOff h₂
  apply wp_seq
  apply wp_load_sizeOfBuffer h₂
  intro w₃ h₃
  have havail := toNat_avail hRdOff hWrOff h₃.known_le (by simpa using h₃.fits)
  exact hR _ released w₃ hreleased havail h₃

/-! ## Writing without a check -/

/-- Data that ends before the buffer does. -/
theorem wp_copyStraight {R : Unit → Memory × UpHost → Prop} {WrOff NumBytes : UInt32}
    {pData : List UInt8} (h : Up c items [] known w)
    (hWrOff : WrOff.toNat = items.length % c.size.toNat) (hlen : NumBytes.toNat ≤ pData.length)
    (hroom : items.length + NumBytes.toNat < known + c.size.toNat)
    (hend : WrOff.toNat + NumBytes.toNat < c.size.toNat)
    (hR : ∀ w', Up c (items ++ pData.take NumBytes.toNat) [] known w' → R () w') :
    wp upHandler E (copyStraight WrOff pData NumBytes) R w := by
  have htake : (pData.take NumBytes.toNat).length = NumBytes.toNat := by
    rw [List.length_take]
    omega
  unfold copyStraight
  apply wp_seq
  apply wp_memcpyTo h (by simpa [htake] using hroom) (by simpa using hWrOff) (by omega)
  intro w₁ h₁
  apply wp_store_wrOff h₁ _ hR
  rw [List.nil_append, htake, toNat_add_of_toNat_le (z := c.size) (by omega), hWrOff,
    Ring.offset_add (by omega)]

/-- Data that reaches the end of the buffer. -/
theorem wp_copyWrapped {R : Unit → Memory × UpHost → Prop} {WrOff Rem NumBytes : UInt32}
    {pData : List UInt8} (h : Up c items [] known w)
    (hWrOff : WrOff.toNat = items.length % c.size.toNat) (hlen : NumBytes.toNat ≤ pData.length)
    (hroom : items.length + NumBytes.toNat < known + c.size.toNat)
    (hend : WrOff.toNat + Rem.toNat = c.size.toNat) (hRem : Rem.toNat ≤ NumBytes.toNat)
    (hR : ∀ w', Up c (items ++ pData.take NumBytes.toNat) [] known w' → R () w') :
    wp upHandler E (copyWrapped WrOff Rem pData NumBytes) R w := by
  have hknown := h.known_le
  have hNumBytes : (NumBytes - Rem).toNat = NumBytes.toNat - Rem.toNat :=
    toNat_sub_of_toNat_le hRem
  have htake : (pData.take Rem.toNat).length = Rem.toNat := by
    rw [List.length_take]
    omega
  have hdrop : ((pData.drop Rem.toNat).take (NumBytes.toNat - Rem.toNat)).length =
      NumBytes.toNat - Rem.toNat := by
    rw [List.length_take, List.length_drop]
    omega
  have hlap : (items.length + Rem.toNat) % c.size.toNat = 0 := by
    rw [← Ring.wrap_add (by omega), if_pos (by omega)]
  have hdata : pData.take Rem.toNat ++ (pData.drop Rem.toNat).take (NumBytes.toNat - Rem.toNat) =
      pData.take NumBytes.toNat := by
    rw [← List.take_add, Nat.add_sub_cancel' hRem]
  have hsplit : items.length + NumBytes.toNat =
      items.length + Rem.toNat + (NumBytes.toNat - Rem.toNat) := by omega
  unfold copyWrapped
  rw [hNumBytes]
  apply wp_seq
  apply wp_memcpyTo h (by rw [htake, List.length_nil]; omega) (by simpa using hWrOff) (by omega)
  intro w₁ h₁
  rw [List.nil_append] at h₁
  apply wp_seq
  apply wp_memcpyTo h₁ (by rw [htake, hdrop]; omega) (by rw [htake, hlap]; rfl)
    (by rw [hdrop, UInt32.toNat_zero]; omega)
  intro w₂ h₂
  rw [hdata] at h₂
  apply wp_store_wrOff h₂ _ hR
  rw [hNumBytes, List.length_take, Nat.min_eq_left hlen, hsplit, Nat.add_mod, hlap, Nat.zero_add,
    Nat.mod_mod, Nat.mod_eq_of_lt (by omega)]

theorem Up.wrOff_lt {WrOff : UInt32} (h : Up c items [] known w)
    (hWrOff : WrOff.toNat = items.length % c.size.toNat) : WrOff.toNat < c.size.toNat := by
  have hknown := h.known_le
  have hfits := h.fits
  rw [hWrOff]
  exact Nat.mod_lt _ (by omega)

/-- Data for which there is room is published as a whole. -/
theorem wp_writeNoCheck {R : Unit → Memory × UpHost → Prop} {pData : List UInt8}
    {NumBytes : UInt32} (h : Up c items [] known w) (hlen : NumBytes.toNat ≤ pData.length)
    (hroom : items.length + NumBytes.toNat < known + c.size.toNat)
    (hR : ∀ w', Up c (items ++ pData.take NumBytes.toNat) [] known w' → R () w') :
    wp upHandler E (writeNoCheck pData NumBytes) R w := by
  unfold writeNoCheck
  apply wp_seq
  apply wp_load_wrOff h
  intro WrOff w₁ hWrOff h₁
  apply wp_seq
  apply wp_load_sizeOfBuffer h₁
  intro w₂ h₂
  have hlt := h₂.wrOff_lt hWrOff
  have hRem : (c.size - WrOff).toNat = c.size.toNat - WrOff.toNat :=
    toNat_sub_of_toNat_le (Nat.le_of_lt hlt)
  show wp upHandler E (if c.size - WrOff > NumBytes then _ else _) R w₂
  split
  · rename_i hgt
    rw [gt_iff_lt, UInt32.lt_iff_toNat_lt, hRem] at hgt
    exact wp_copyStraight h₂ hWrOff hlen hroom (by omega) hR
  · rename_i hle
    rw [gt_iff_lt, UInt32.lt_iff_toNat_lt, hRem] at hle
    exact wp_copyWrapped h₂ hWrOff hlen hroom (by omega) (by omega) hR

/-! ## Waiting for room -/

/-- The data fits, and so does its part before the end of the buffer in the turns that are left:
what wraps around takes a second turn. -/
def Suffices (c : Setting) (fuel items known wr len : Nat) : Prop :=
  items + len < known + c.size.toNat ∧ (2 ≤ fuel ∨ (fuel = 1 ∧ wr + len ≤ c.size.toNat))

/-- One turn publishes what there is room for, up to the end of the buffer. -/
theorem wp_writeBlockingLoop_succ {R : UInt32 → Memory × UpHost → Prop} {fuel : Nat}
    {WrOff NumBytes NumBytesWritten : UInt32} {pBuffer : List UInt8} (h : Up c items [] known w)
    (hWrOff : WrOff.toNat = items.length % c.size.toNat) (hlen : NumBytes.toNat ≤ pBuffer.length)
    (hR : ∀ n known' w', known ≤ known' →
      n.toNat = min (min (known' + c.size.toNat - 1 - items.length) (c.size.toNat - WrOff.toNat))
        NumBytes.toNat →
      Up c (items ++ pBuffer.take n.toNat) [] known' w' →
      wp upHandler E (if NumBytes - n = 0 then pure (NumBytesWritten + n)
        else writeBlockingLoop fuel (wrapAround c.size (WrOff + n)) (pBuffer.drop n.toNat)
          (NumBytes - n) (NumBytesWritten + n)) R w') :
    wp upHandler E (writeBlockingLoop (fuel + 1) WrOff pBuffer NumBytes NumBytesWritten) R w := by
  unfold writeBlockingLoop
  apply wp_seq
  apply wp_load_rdOff h
  intro RdOff released w₁ hreleased hRdOff h₁
  apply wp_seq
  apply wp_load_sizeOfBuffer h₁
  intro w₂ h₂
  have hknown := h₂.known_le
  have hfits : items.length < released + c.size.toNat := by simpa using h₂.fits
  have hn := toNat_numBytesToWrite hRdOff hWrOff hknown hfits NumBytes
  have hlt := h.wrOff_lt hWrOff
  generalize numBytesToWrite c.size RdOff WrOff NumBytes = n at hn
  have htake : (pBuffer.take n.toNat).length = n.toNat := by
    rw [List.length_take]
    omega
  apply wp_seq
  apply wp_memcpyTo h₂ (by rw [htake, List.length_nil]; omega) (by simpa using hWrOff)
    (by rw [htake]; omega)
  intro w₃ h₃
  rw [List.nil_append] at h₃
  apply wp_seq
  apply wp_store_wrOff h₃
  · rw [htake]
    exact toNat_wrapAround hWrOff (by omega)
  · intro w₄ h₄
    exact hR n released w₄ hreleased hn h₄

/-- The whole loop. Where it stops, it has published a part of the data. -/
theorem wp_writeBlockingLoop {R : UInt32 → Memory × UpHost → Prop} {fuel : Nat}
    {WrOff NumBytes NumBytesWritten : UInt32} {pBuffer : List UInt8} (h : Up c items [] known w)
    (hWrOff : WrOff.toNat = items.length % c.size.toNat) (hlen : NumBytes.toNat ≤ pBuffer.length)
    (hR : ∀ known' w', known ≤ known' → Up c (items ++ pBuffer.take NumBytes.toNat) [] known' w' →
      R (NumBytesWritten + NumBytes) w')
    (hE : ∀ k known' w', known ≤ known' → k ≤ NumBytes.toNat →
      ¬ Suffices c fuel items.length known WrOff.toNat NumBytes.toNat →
      Up c (items ++ pBuffer.take k) [] known' w' → E .outOfFuel w') :
    wp upHandler E (writeBlockingLoop fuel WrOff pBuffer NumBytes NumBytesWritten) R w := by
  induction fuel generalizing items known WrOff NumBytes NumBytesWritten pBuffer w with
  | zero =>
    have hstop : Up c (items ++ pBuffer.take 0) [] known w := by simpa using h
    refine hE 0 known w (Nat.le_refl _) (Nat.zero_le _) ?_ hstop
    unfold Suffices
    omega
  | succ fuel ih =>
    apply wp_writeBlockingLoop_succ h hWrOff hlen
    intro n known' w' hknown hn hw'
    have hlt := h.wrOff_lt hWrOff
    have hn_le : n.toNat ≤ NumBytes.toNat := by omega
    have hrest : (NumBytes - n).toNat = NumBytes.toNat - n.toNat := toNat_sub_of_toNat_le hn_le
    split
    · -- everything is written
      rename_i hdone
      have hzero : (NumBytes - n).toNat = 0 := by rw [hdone]; rfl
      have heq : n = NumBytes := by
        rw [← UInt32.toNat_inj]
        omega
      rw [heq] at hw' ⊢
      exact hR known' w' hknown hw'
    · rename_i hmore
      have hmore' : n.toNat < NumBytes.toNat := by
        have hne : (NumBytes - n).toNat ≠ 0 := by
          intro hzero
          apply hmore
          rw [← UInt32.toNat_inj, hzero]
          rfl
        omega
      have htake : (items ++ pBuffer.take n.toNat).length = items.length + n.toNat := by
        rw [List.length_append, List.length_take]
        omega
      have hwrap : (wrapAround c.size (WrOff + n)).toNat =
          (items.length + n.toNat) % c.size.toNat := toNat_wrapAround hWrOff (by omega)
      have hwrap' : (wrapAround c.size (WrOff + n)).toNat =
          if WrOff.toNat + n.toNat = c.size.toNat then 0 else WrOff.toNat + n.toNat := by
        rw [hwrap, ← Ring.wrap_add (by omega), ← hWrOff]
      have hjoin : ∀ k, items ++ pBuffer.take n.toNat ++ (pBuffer.drop n.toNat).take k =
          items ++ pBuffer.take (n.toNat + k) := by
        intro k
        rw [List.append_assoc, ← List.take_add]
      refine ih hw' (by rw [htake, hwrap]) (by rw [List.length_drop]; omega) ?_ ?_
      · intro known'' w'' hknown' hw''
        rw [hrest, hjoin, Nat.add_sub_cancel' hn_le] at hw''
        have hsum : NumBytesWritten + n + (NumBytes - n) = NumBytesWritten + NumBytes := by
          rw [UInt32.add_assoc, UInt32.add_comm n, UInt32.sub_add_cancel]
        rw [hsum]
        exact hR known'' w'' (Nat.le_trans hknown hknown') hw''
      · intro k known'' w'' hknown' hk hnot hw''
        rw [hjoin] at hw''
        refine hE (n.toNat + k) known'' w'' (Nat.le_trans hknown hknown') (by omega) ?_ hw''
        intro hsuff
        apply hnot
        rw [htake, hwrap', hrest]
        have := h.known_le
        obtain ⟨hroom, hturns⟩ := hsuff
        refine ⟨by omega, ?_⟩
        split <;> omega

theorem wp_writeBlocking {R : UInt32 → Memory × UpHost → Prop} {fuel : Nat} {NumBytes : UInt32}
    {pBuffer : List UInt8} (h : Up c items [] known w) (hlen : NumBytes.toNat ≤ pBuffer.length)
    (hR : ∀ known' w', known ≤ known' → Up c (items ++ pBuffer.take NumBytes.toNat) [] known' w' →
      R NumBytes w')
    (hE : ∀ k known' w', known ≤ known' → k ≤ NumBytes.toNat →
      ¬ (items.length + NumBytes.toNat < known + c.size.toNat ∧ 2 ≤ fuel) →
      Up c (items ++ pBuffer.take k) [] known' w' → E .outOfFuel w') :
    wp upHandler E (writeBlocking fuel pBuffer NumBytes) R w := by
  unfold writeBlocking
  apply wp_seq
  apply wp_load_wrOff h
  intro WrOff w₁ hWrOff h₁
  apply wp_writeBlockingLoop h₁ hWrOff hlen
  · intro known' w' hknown hw'
    rw [UInt32.zero_add]
    exact hR known' w' hknown hw'
  · intro k known' w' hknown hk hnot hw'
    refine hE k known' w' hknown hk ?_ hw'
    intro hsuff
    exact hnot ⟨hsuff.1, .inl hsuff.2⟩

/-! ## The modes of a channel -/

/-- How many of `len` bytes a channel takes when there is room for `room`. -/
def accepted (flags : UInt32) (room len : Nat) : Nat :=
  if flags = seggerRttModeNoBlockSkip then if room < len then 0 else len
  else if flags = seggerRttModeNoBlockTrim then min room len
  else if flags = seggerRttModeBlockIfFifoFull then len
  else 0

theorem wp_seggerRttWriteNoLock {R : UInt32 → Memory × UpHost → Prop} {fuel : Nat}
    {NumBytes : UInt32} {pBuffer : List UInt8} (h : Up c items [] known w)
    (hlen : NumBytes.toNat = pBuffer.length)
    (hR : ∀ room seen known' v w', known ≤ seen → seen ≤ known' →
      room + items.length + 1 = seen + c.size.toNat →
      v.toNat = accepted c.flags room pBuffer.length →
      Up c (items ++ pBuffer.take v.toNat) [] known' w' → R v w')
    (hE : ∀ k known' w', known ≤ known' → k ≤ pBuffer.length →
      c.flags = seggerRttModeBlockIfFifoFull →
      ¬ (items.length + pBuffer.length < known + c.size.toNat ∧ 2 ≤ fuel) →
      Up c (items ++ pBuffer.take k) [] known' w' → E .outOfFuel w') :
    wp upHandler E (seggerRttWriteNoLock fuel pBuffer NumBytes) R w := by
  -- the channels that look at no offset before they answer
  have hroom : known + c.size.toNat - 1 - items.length + items.length + 1 = known + c.size.toNat := by
    have hfits : items.length < known + c.size.toNat := by simpa using h.fits
    omega
  unfold seggerRttWriteNoLock
  apply wp_seq
  apply wp_load_flags h
  intro w₁ h₁
  unfold accepted at hR
  split
  · rename_i hskip
    simp only [hskip, if_true] at hR
    apply wp_seq
    apply wp_getAvailWriteSpace h₁
    intro Avail known' w₂ hknown hAvail h₂
    split
    · rename_i hlt
      rw [UInt32.lt_iff_toNat_lt, hlen] at hlt
      apply hR Avail.toNat known' known' 0 w₂ hknown (Nat.le_refl _) hAvail
      · rw [if_pos hlt]
        rfl
      · simpa using h₂
    · rename_i hge
      rw [UInt32.lt_iff_toNat_lt, hlen] at hge
      apply wp_seq
      apply wp_writeNoCheck h₂ (by omega) (by omega)
      intro w₃ h₃
      apply hR Avail.toNat known' known' NumBytes w₃ hknown (Nat.le_refl _) hAvail _ h₃
      rw [if_neg hge, hlen]
  · split
    · rename_i htrim
      simp only [htrim, if_true] at hR
      apply wp_seq
      apply wp_getAvailWriteSpace h₁
      intro Avail known' w₂ hknown hAvail h₂
      have hStatus : (if Avail < NumBytes then Avail else NumBytes).toNat =
          min Avail.toNat pBuffer.length := by
        simp only [UInt32.lt_iff_toNat_lt]
        split <;> omega
      show wp upHandler E (do
        writeNoCheck pBuffer (if Avail < NumBytes then Avail else NumBytes)
        return if Avail < NumBytes then Avail else NumBytes) R w₂
      generalize (if Avail < NumBytes then Avail else NumBytes) = Status at hStatus
      apply wp_seq
      apply wp_writeNoCheck h₂ (by omega) (by omega)
      intro w₃ h₃
      exact hR Avail.toNat known' known' Status w₃ hknown (Nat.le_refl _) hAvail hStatus h₃
    · split
      · rename_i hblock
        simp only [hblock, if_true] at hR
        apply wp_writeBlocking h₁ (Nat.le_of_eq hlen)
        · intro known' w' hknown hw'
          exact hR _ known known' NumBytes w' (Nat.le_refl _) hknown hroom hlen hw'
        · intro k known' w' hknown hk hnot hw'
          rw [hlen] at hk hnot
          exact hE k known' w' hknown hk hblock hnot hw'
      · rename_i hskip htrim hblock
        simp only [hskip, htrim, hblock, if_false] at hR
        apply hR _ known known 0 w₁ (Nat.le_refl _) (Nat.le_refl _) hroom rfl
        simpa using h₁

/-- The call that skips what does not fit, with its cases written out. -/
theorem wp_seggerRttWriteSkipNoLock {R : UInt32 → Memory × UpHost → Prop} {NumBytes : UInt32}
    {pBuffer : List UInt8} (h : Up c items [] known w) (hlen : NumBytes.toNat = pBuffer.length)
    (hR : ∀ room known' w', known ≤ known' → room + items.length + 1 = known' + c.size.toNat →
      Up c (items ++ if room < pBuffer.length then [] else pBuffer) [] known' w' →
      R (if room < pBuffer.length then 0 else 1) w') :
    wp upHandler E (seggerRttWriteSkipNoLock pBuffer NumBytes) R w := by
  unfold seggerRttWriteSkipNoLock
  apply wp_seq
  apply wp_load_rdOff h
  intro RdOff released w₁ hreleased hRdOff h₁
  apply wp_seq
  apply wp_load_wrOff h₁
  intro WrOff w₂ hWrOff h₂
  apply wp_seq
  apply wp_load_sizeOfBuffer h₂
  intro w₃ h₃
  have hknown := h₃.known_le
  have hfits : items.length < released + c.size.toNat := by simpa using h₃.fits
  obtain ⟨lap, ha, hlt, hlt', hb⟩ := Ring.exists_lap hknown hfits
  rw [← hRdOff] at ha hlt
  rw [← hWrOff] at hb hlt'
  have hsize := c.size.toNat_lt
  have htake : pBuffer.take NumBytes.toNat = pBuffer := by rw [hlen, List.take_length]
  obtain ⟨room, hroom⟩ : ∃ room, room + items.length + 1 = released + c.size.toNat :=
    ⟨released + c.size.toNat - 1 - items.length, by omega⟩
  have hgive : pBuffer.length ≤ room → ∀ w',
      Up c (items ++ pBuffer.take NumBytes.toNat) [] released w' → R 1 w' := by
    intro hle w' hw'
    have hgot := hR room released w' hreleased hroom
    rw [if_neg (by omega), if_neg (by omega)] at hgot
    rw [htake] at hw'
    exact hgot hw'
  have hskip : room < pBuffer.length → R 0 w₃ := by
    intro hgt
    have hgot := hR room released w₃ hreleased hroom
    rw [if_pos hgt, if_pos hgt, List.append_nil] at hgot
    exact hgot h₃
  have hAvail : (c.size - WrOff - 1).toNat = c.size.toNat - WrOff.toNat - 1 := by
    simp only [UInt32.toNat_sub, UInt32.toNat_one]
    omega
  have hRem : (c.size - WrOff).toNat = c.size.toNat - WrOff.toNat :=
    toNat_sub_of_toNat_le (Nat.le_of_lt hlt')
  split
  · rename_i hle
    rw [UInt32.le_iff_toNat_le] at hle
    have hsum : (c.size - WrOff - 1 + RdOff).toNat = room := by
      simp only [UInt32.toNat_add, hAvail]
      omega
    show wp upHandler E (if c.size - WrOff - 1 ≥ NumBytes then _ else _) R w₃
    split
    · rename_i hstraight
      rw [ge_iff_le, UInt32.le_iff_toNat_le, hAvail] at hstraight
      apply wp_seq
      exact wp_copyStraight h₃ hWrOff (Nat.le_of_eq hlen) (by omega) (by omega)
        (hgive (by omega))
    · rename_i hstraight
      rw [ge_iff_le, UInt32.le_iff_toNat_le, hAvail] at hstraight
      split
      · rename_i hwrapped
        rw [ge_iff_le, UInt32.le_iff_toNat_le, hsum] at hwrapped
        apply wp_seq
        exact wp_copyWrapped h₃ hWrOff (Nat.le_of_eq hlen) (by omega) (by omega) (by omega)
          (hgive (by omega))
      · rename_i hwrapped
        rw [ge_iff_le, UInt32.le_iff_toNat_le, hsum] at hwrapped
        exact hskip (by omega)
  · rename_i hgt
    rw [UInt32.le_iff_toNat_le] at hgt
    have hgap : (RdOff - WrOff - 1).toNat = room := by
      simp only [UInt32.toNat_sub, UInt32.toNat_one]
      omega
    split
    · rename_i hstraight
      rw [ge_iff_le, UInt32.le_iff_toNat_le, hgap] at hstraight
      apply wp_seq
      exact wp_copyStraight h₃ hWrOff (Nat.le_of_eq hlen) (by omega) (by omega)
        (hgive (by omega))
    · rename_i hstraight
      rw [ge_iff_le, UInt32.le_iff_toNat_le, hgap] at hstraight
      exact hskip (by omega)

/-! ## Single characters -/

theorem wp_nextWrOff {R : UInt32 → Memory × UpHost → Prop} (h : Up c items [] known w)
    (hR : ∀ v w', v.toNat = (items.length + 1) % c.size.toNat → Up c items [] known w' → R v w') :
    wp upHandler E nextWrOff R w := by
  unfold nextWrOff
  apply wp_seq
  apply wp_load_wrOff h
  intro WrOff w₁ hWrOff h₁
  apply wp_seq
  apply wp_load_sizeOfBuffer h₁
  intro w₂ h₂
  have hlt := h₂.wrOff_lt hWrOff
  have hnext := toNat_wrapAround (k := 1) hWrOff (by rw [UInt32.toNat_one]; omega)
  exact hR _ w₂ hnext h₂

/-- The buffer is full if the next offset is the read offset. -/
theorem full_iff {WrOff RdOff : UInt32} {released : Nat} (h : Up c items [] released w)
    (hWrOff : WrOff.toNat = (items.length + 1) % c.size.toNat)
    (hRdOff : RdOff.toNat = released % c.size.toNat) :
    WrOff = RdOff ↔ items.length + 1 = released + c.size.toNat := by
  have hknown := h.known_le
  have hfits : items.length < released + c.size.toNat := by simpa using h.fits
  rw [← UInt32.toNat_inj, hWrOff, hRdOff]
  constructor
  · intro heq
    by_contra hne
    have := Ring.eq_of_offset_eq (n := c.size.toNat) (a := released) (b := items.length + 1)
      (by omega) (by omega) heq.symm
    omega
  · intro heq
    rw [heq, Nat.add_mod_right]

theorem wp_putIfFree {R : UInt32 → Memory × UpHost → Prop} {ch : UInt8} {WrOff : UInt32}
    (h : Up c items [] known w) (hWrOff : WrOff.toNat = (items.length + 1) % c.size.toNat)
    (hR : ∀ room known' w', known ≤ known' → room + items.length + 1 = known' + c.size.toNat →
      Up c (items ++ if room < 1 then [] else [ch]) [] known' w' → R (if room < 1 then 0 else 1) w') :
    wp upHandler E (putIfFree ch WrOff) R w := by
  unfold putIfFree
  apply wp_seq
  apply wp_load_rdOff h
  intro RdOff released w₁ hreleased hRdOff h₁
  have hknown := h₁.known_le
  have hfits : items.length < released + c.size.toNat := by simpa using h₁.fits
  have hfull := full_iff h₁ hWrOff hRdOff
  split
  · rename_i hfree
    rw [ne_eq, hfull] at hfree
    apply wp_seq
    apply wp_load_wrOff h₁
    intro off w₂ hoff h₂
    apply wp_seq
    apply wp_storeByte h₂ (by rw [List.length_nil]; omega) (by simpa using hoff)
    intro w₃ h₃
    apply wp_seq
    apply wp_store_wrOff h₃ (by simpa using hWrOff)
    intro w₄ h₄
    have hgot := hR (released + c.size.toNat - 1 - items.length) released w₄ hreleased (by omega)
    rw [if_neg (by omega), if_neg (by omega)] at hgot
    exact hgot (by simpa using h₄)
  · rename_i hfree
    rw [ne_eq, hfull, Decidable.not_not] at hfree
    have hgot := hR 0 released w₁ hreleased (by omega)
    rw [if_pos Nat.one_pos, if_pos Nat.one_pos, List.append_nil] at hgot
    exact hgot h₁

/-- The wait ends when there is room for the byte. -/
theorem wp_putCharWait {R : Unit → Memory × UpHost → Prop} {fuel : Nat} {WrOff : UInt32}
    (h : Up c items [] known w) (hWrOff : WrOff.toNat = (items.length + 1) % c.size.toNat)
    (hR : ∀ known' w', known ≤ known' → items.length + 1 < known' + c.size.toNat →
      Up c items [] known' w' → R () w')
    (hE : ∀ known' w', known ≤ known' → ¬ (items.length + 1 < known + c.size.toNat ∧ 1 ≤ fuel) →
      Up c items [] known' w' → E .outOfFuel w') :
    wp upHandler E (putCharWait fuel WrOff) R w := by
  induction fuel generalizing known w with
  | zero => exact hE known w (Nat.le_refl _) (by omega) h
  | succ fuel ih =>
    unfold putCharWait
    apply wp_seq
    apply wp_load_rdOff h
    intro RdOff released w₁ hreleased hRdOff h₁
    have hfits : items.length < released + c.size.toNat := by simpa using h₁.fits
    have hfull := full_iff h₁ hWrOff hRdOff
    split
    · rename_i heq
      rw [hfull] at heq
      refine ih h₁ ?_ ?_
      · intro known' w' hknown
        exact hR known' w' (Nat.le_trans hreleased hknown)
      · intro known' w' hknown _ hw'
        exact hE known' w' (Nat.le_trans hreleased hknown) (by omega) hw'
    · rename_i hne
      rw [hfull] at hne
      exact hR released w₁ hreleased (by omega) h₁

end SpiNand.Rtt
