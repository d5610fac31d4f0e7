import SpiNand.Interaction.Interleaving
import SpiNand.Rtt.Memory

/-!
# A down-buffer between the host and the target

The other direction: the host puts bytes in the buffer, up to the read offset as it has last read
it, and publishes them by moving the write offset, and the target reads.

* **`Down c released got seen`** is the invariant: `got` is everything that the target has taken,
  the start of what the host has sent; it has released `released` bytes, and knows that `seen`
  bytes were published.
* **`stable_down`**: the host keeps it, whatever it sends.
* **`wp_seggerRttReadNoLock`**: a read takes what was published when it looked, as far as the
  caller has room for it.
-/

namespace SpiNand.Rtt

open Interaction Interaction.Prog

/-! ## The host -/

/-- The host's view of a down-buffer: the read offset that it has read, the offset of the byte it
puts next, and the bytes that it has put. -/
structure DownHost where
  rdOff : UInt32
  wrOff : UInt32
  sent : List UInt8

inductive SenderStep where
  | look
  | put (b : UInt8)
  | publish
  deriving DecidableEq, Repr

def DownHost.act (w : Memory × DownHost) : SenderStep → Memory × DownHost
  | .look => (w.1, { w.2 with rdOff := w.1.word .rdOff })
  | .put b =>
    if wrapAround (w.1.word .sizeOfBuffer) (w.2.wrOff + 1) = w.2.rdOff then w
    else ({ w.1 with pBuffer := Function.update w.1.pBuffer w.2.wrOff.toNat b },
      { w.2 with
        wrOff := wrapAround (w.1.word .sizeOfBuffer) (w.2.wrOff + 1)
        sent := w.2.sent ++ [b] })
  | .publish => ({ w.1 with word := Function.update w.1.word .wrOff w.2.wrOff }, w.2)

/-! ## The invariant -/

structure DownState (size : UInt32) (items staged got : List UInt8) (known released seen : Nat)
    (w : Memory × DownHost) : Prop where
  acID : w.1.word .acID ≠ 0
  sizeOfBuffer : w.1.word .sizeOfBuffer = size
  queue : Ring.Queue size.toNat w.1.pBuffer (w.1.word .wrOff).toNat (w.1.word .rdOff).toNat
    items staged known released got.length seen
  looked : w.2.rdOff.toNat = known % size.toNat
  next : w.2.wrOff.toNat = (items.length + staged.length) % size.toNat
  sent : w.2.sent = items ++ staged
  got : got <+: items

def Down (size : UInt32) (released : Nat) (got : List UInt8) (seen : Nat)
    (w : Memory × DownHost) : Prop :=
  ∃ items staged known, DownState size items staged got known released seen w

variable {size : UInt32} {released seen : Nat} {got : List UInt8}

theorem stable_down (size : UInt32) (released : Nat) (got : List UInt8) (seen : Nat) :
    Stable DownHost.act (Down size released got seen) := by
  rintro ⟨m, h⟩ i ⟨items, staged, known, hw⟩
  have hsize : m.word .sizeOfBuffer = size := hw.sizeOfBuffer
  have hnext : h.wrOff.toNat = (items.length + staged.length) % size.toNat := hw.next
  have hlooked : h.rdOff.toNat = known % size.toNat := hw.looked
  have hpos := hw.queue.pos
  cases i with
  | look =>
    exact ⟨items, staged, released, { hw with queue := hw.queue.learn, looked := hw.queue.rd_eq }⟩
  | put b =>
    have hlt : h.wrOff.toNat < size.toNat := by
      rw [hnext]
      exact Nat.mod_lt _ hpos
    have hsucc : (wrapAround size (h.wrOff + 1)).toNat =
        (items.length + staged.length + 1) % size.toNat :=
      toNat_wrapAround hnext (by rw [UInt32.toNat_one]; omega)
    show Down size released got seen
      (if wrapAround (m.word .sizeOfBuffer) (h.wrOff + 1) = h.rdOff then (m, h) else _)
    rw [hsize]
    split
    · exact ⟨items, staged, known, hw⟩
    · rename_i hne
      have hfits := hw.queue.fits
      have hroom : items.length + staged.length + 1 < known + size.toNat := by
        -- a full buffer is one lap ahead of what was released
        have hfull : items.length + staged.length + 1 ≠ known + size.toNat := by
          intro heq
          apply hne
          rw [← UInt32.toNat_inj, hsucc, hlooked, heq, Nat.add_mod_right]
        omega
      have hqueue := hw.queue.stage b hroom hnext
      refine ⟨items, staged ++ [b], known,
        { hw with queue := hqueue, sizeOfBuffer := hsize, next := ?_, sent := ?_ }⟩
      · rw [List.length_append, List.length_singleton, ← Nat.add_assoc]
        exact hsucc
      · have hsent : h.sent = items ++ staged := hw.sent
        show h.sent ++ [b] = items ++ (staged ++ [b])
        rw [hsent, List.append_assoc]
  | publish =>
    have hqueue := hw.queue.publish hnext
    refine ⟨items ++ staged, [], known,
      { hw with acID := ?_, sizeOfBuffer := ?_, queue := ?_, next := ?_, sent := ?_, got := ?_ }⟩
    · simpa [DownHost.act] using hw.acID
    · simpa [DownHost.act] using hw.sizeOfBuffer
    · simpa [DownHost.act] using hqueue
    · show h.wrOff.toNat = ((items ++ staged).length + 0) % size.toNat
      rw [hnext, List.length_append, Nat.add_zero]
    · show h.sent = items ++ staged ++ []
      rw [List.append_nil]
      exact hw.sent
    · exact hw.got.trans (List.prefix_append items staged)

/-! ## Single accesses -/

abbrev downHandler : Handler (Memory × DownHost) Access Reply :=
  Handler.interleaved DownHost.act env

variable {E : Stop → Memory × DownHost → Prop} {w : Memory × DownHost}

theorem Down.seen_lt (h : Down size released got seen w) :
    got.length ≤ seen ∧ seen < released + size.toNat := by
  obtain ⟨items, staged, known, hw⟩ := h
  have h1 := hw.queue.known_le
  have h2 := hw.queue.taken_le
  have h3 := hw.queue.seen_le
  have h4 := hw.queue.fits
  omega

theorem wp_initDown {R : Unit → Memory × DownHost → Prop} {n : UInt32}
    (h : Down size released got seen w)
    (hR : ∀ w', Down size released got seen w' → R () w') :
    wp downHandler E (init n) R w := by
  apply wp_ask_of_stable (stable_down size released got seen) _ h
  rintro w' ⟨items, staged, known, hw⟩
  have hbranch : (if w'.1.word .acID = 0 then doInit n else pure ()) = (pure () : TargetM Unit) :=
    if_neg hw.acID
  show wp downHandler E (if w'.1.word .acID = 0 then doInit n else pure ()) R w'
  rw [hbranch]
  exact hR w' ⟨items, staged, known, hw⟩

theorem wp_loadDown_rdOff {R : UInt32 → Memory × DownHost → Prop}
    (h : Down size released got seen w)
    (hR : ∀ v w', v.toNat = released % size.toNat → Down size released got seen w' → R v w') :
    wp downHandler E (load .rdOff) R w := by
  apply wp_ask_of_stable (stable_down size released got seen) _ h
  rintro w' ⟨items, staged, known, hw⟩
  show R (w'.1.word .rdOff) w'
  exact hR _ w' hw.queue.rd_eq ⟨items, staged, known, hw⟩

theorem wp_loadDown_sizeOfBuffer {R : UInt32 → Memory × DownHost → Prop}
    (h : Down size released got seen w)
    (hR : ∀ w', Down size released got seen w' → R size w') :
    wp downHandler E (load .sizeOfBuffer) R w := by
  apply wp_ask_of_stable (stable_down size released got seen) _ h
  rintro w' ⟨items, staged, known, hw⟩
  show R (w'.1.word .sizeOfBuffer) w'
  rw [hw.sizeOfBuffer]
  exact hR w' ⟨items, staged, known, hw⟩

/-- A load of the write offset, by which the target learns what was published. -/
theorem wp_loadDown_wrOff {R : UInt32 → Memory × DownHost → Prop}
    (h : Down size released got seen w)
    (hR : ∀ v seen' w', seen ≤ seen' → v.toNat = seen' % size.toNat →
      Down size released got seen' w' → R v w') :
    wp downHandler E (load .wrOff) R w := by
  apply wp_ask_of_stable (stable_down size released got seen) _ h
  rintro w' ⟨items, staged, known, hw⟩
  show R (w'.1.word .wrOff) w'
  exact hR _ items.length w' hw.queue.seen_le hw.queue.wr_eq
    ⟨items, staged, known, { hw with queue := hw.queue.look }⟩

/-- A load of the next cell takes the next byte. -/
theorem wp_loadByte {R : UInt8 → Memory × DownHost → Prop} {i : UInt32}
    (h : Down size released got seen w) (hseen : got.length < seen)
    (hi : i.toNat = got.length % size.toNat)
    (hR : ∀ b w', Down size released (got ++ [b]) seen w' → R b w') :
    wp downHandler E (loadByte i) R w := by
  apply wp_ask_of_stable (stable_down size released got seen) _ h
  rintro w' ⟨items, staged, known, hw⟩
  have hcell := hw.queue.cell_taken hseen
  have htake := hw.queue.take hseen
  show R (w'.1.pBuffer i.toNat) w'
  refine hR _ w' ⟨items, staged, known, { hw with queue := ?_, got := ?_ }⟩
  · rw [List.length_append, List.length_singleton]
    exact htake
  · rw [hi]
    have hitems : items.take got.length = got := (List.prefix_iff_eq_take.mp hw.got).symm
    refine ⟨items.drop (got.length + 1), ?_⟩
    have hsucc : items.take (got.length + 1) = got ++ [w'.1.pBuffer (got.length % size.toNat)] := by
      rw [List.take_add_one, hcell, hitems]
      rfl
    rw [← hsucc, List.take_append_drop]

/-- A store of the read offset behind the bytes that were taken releases them. -/
theorem wp_storeDown_rdOff {R : Unit → Memory × DownHost → Prop} {v : UInt32}
    (h : Down size released got seen w) (hv : v.toNat = got.length % size.toNat)
    (hR : ∀ w', Down size got.length got seen w' → R () w') :
    wp downHandler E (store .rdOff v) R w := by
  apply wp_ask_of_stable (stable_down size released got seen) _ h
  rintro w' ⟨items, staged, known, hw⟩
  have hrelease := hw.queue.release hv
  refine hR _ ⟨items, staged, known, { hw with acID := ?_, sizeOfBuffer := ?_, queue := ?_ }⟩
  · simpa [env, Memory.access] using hw.acID
  · simpa [env, Memory.access] using hw.sizeOfBuffer
  · simpa [env, Memory.access] using hrelease

/-- Copying in one piece what the target knows to be there. -/
theorem wp_memcpyFrom {R : List UInt8 → Memory × DownHost → Prop} {off : UInt32} {n : Nat}
    (h : Down size released got seen w) (hseen : got.length + n ≤ seen)
    (hoff : off.toNat = got.length % size.toNat) (hend : off.toNat + n ≤ size.toNat)
    (hR : ∀ bytes w', bytes.length = n → Down size released (got ++ bytes) seen w' → R bytes w') :
    wp downHandler E (memcpyFrom off n) R w := by
  induction n generalizing off got R w with
  | zero =>
    have hdone := hR [] w rfl (by simpa using h)
    exact hdone
  | succ n ih =>
    apply wp_seq
    apply wp_loadByte h (by omega) hoff
    intro b w₁ h₁
    apply wp_seq
    have hfinish : ∀ bytes w', bytes.length = n →
        Down size released (got ++ [b] ++ bytes) seen w' → R (b :: bytes) w' := by
      intro bytes w' hbytes hw'
      refine hR (b :: bytes) w' (by rw [List.length_cons, hbytes]) ?_
      simpa using hw'
    cases n with
    | zero => exact hfinish [] w₁ rfl (by simpa using h₁)
    | succ n =>
      have hsucc : (off + 1).toNat = off.toNat + 1 := by
        rw [toNat_add_of_toNat_le (z := size) (by rw [UInt32.toNat_one]; omega), UInt32.toNat_one]
      refine ih h₁ ?_ ?_ ?_ hfinish
      · rw [List.length_append, List.length_singleton]
        omega
      · rw [List.length_append, List.length_singleton, hsucc, hoff,
          Ring.offset_add (by omega)]
      · omega

end SpiNand.Rtt
