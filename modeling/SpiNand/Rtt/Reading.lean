import SpiNand.Rtt.DownChannel

/-!
# Reading from a down-buffer

What the host sends arrives in order, each byte once, whatever the host does while the target
reads (`downCalls_in_order`). `DownCall.outcome` says what a call does as one step, given the
bytes that are there when it looks.
-/

namespace SpiNand.Rtt

open Interaction Interaction.Prog

variable {size : UInt32} {seen : Nat} {got : List UInt8} {w : Memory × DownHost}
  {E : Stop → Memory × DownHost → Prop}

/-! ## Reads -/

/-- The first part of a read: afterwards what there is left to read lies in one piece, or the
caller has no room left. -/
theorem wp_readUntilWrapAround {R : List UInt8 × UInt32 × UInt32 → Memory × DownHost → Prop}
    {RdOff WrOff BufferSize : UInt32} (h : Down size got.length got seen w)
    (hRdOff : RdOff.toNat = got.length % size.toNat) (hWrOff : WrOff.toNat = seen % size.toNat)
    (hR : ∀ bytes RdOff' BufferSize' w',
      bytes.length + BufferSize'.toNat = BufferSize.toNat →
      RdOff'.toNat = (got ++ bytes).length % size.toNat →
      (BufferSize'.toNat = 0 ∨ WrOff.toNat = RdOff'.toNat + (seen - (got ++ bytes).length)) →
      (got ++ bytes).length ≤ seen →
      Down size got.length (got ++ bytes) seen w' → R (bytes, RdOff', BufferSize') w') :
    wp downHandler E (readUntilWrapAround RdOff WrOff BufferSize) R w := by
  obtain ⟨hle, hlt⟩ := h.seen_lt
  obtain ⟨lap, ha, hRd, hWr, hb⟩ := Ring.exists_lap hle hlt
  rw [← hRdOff] at ha hRd
  rw [← hWrOff] at hb hWr
  unfold readUntilWrapAround
  split
  · rename_i hgt
    rw [gt_iff_lt, UInt32.lt_iff_toNat_lt] at hgt
    apply wp_seq
    apply wp_loadDown_sizeOfBuffer h
    intro w₁ h₁
    have hend : (size - RdOff).toNat = size.toNat - RdOff.toNat :=
      toNat_sub_of_toNat_le (Nat.le_of_lt hRd)
    have hRem : (min (size - RdOff) BufferSize).toNat =
        min (size.toNat - RdOff.toNat) BufferSize.toNat := by
      rw [toNat_min, hend]
    show wp downHandler E (do
      let bytes ← memcpyFrom RdOff (min (size - RdOff) BufferSize).toNat
      return (bytes, wrapAround size (RdOff + min (size - RdOff) BufferSize),
        BufferSize - min (size - RdOff) BufferSize)) R w₁
    generalize min (size - RdOff) BufferSize = NumBytesRem at hRem
    apply wp_seq
    apply wp_memcpyFrom h₁ (by omega) hRdOff (by omega)
    intro bytes w₂ hbytes h₂
    have hnext := toNat_wrapAround (k := NumBytesRem) hRdOff (by omega)
    have hrest : (BufferSize - NumBytesRem).toNat = BufferSize.toNat - NumBytesRem.toNat :=
      toNat_sub_of_toNat_le (by omega)
    have hpos : (got ++ bytes).length = got.length + NumBytesRem.toNat := by
      rw [List.length_append, hbytes]
    apply hR bytes _ _ w₂ (by omega) (by rw [hpos]; exact hnext) _ (by omega) h₂
    rw [hrest, hnext, hpos, ← Ring.wrap_add (by omega), ← hRdOff]
    split <;> omega
  · rename_i hle'
    rw [gt_iff_lt, UInt32.lt_iff_toNat_lt] at hle'
    refine hR [] RdOff BufferSize w (Nat.zero_add _) ?_ (.inr ?_) ?_ ?_
    · rwa [List.append_nil]
    · rw [List.append_nil]
      omega
    · rwa [List.append_nil]
    · rwa [List.append_nil]

theorem wp_seggerRttReadNoLock {R : List UInt8 → Memory × DownHost → Prop} {BufferSize : UInt32}
    (h : Down size got.length got seen w)
    (hR : ∀ bytes seen' w', seen ≤ seen' →
      bytes.length = min (seen' - got.length) BufferSize.toNat →
      Down size (got ++ bytes).length (got ++ bytes) seen' w' → R bytes w') :
    wp downHandler E (seggerRttReadNoLock BufferSize) R w := by
  unfold seggerRttReadNoLock
  apply wp_seq
  apply wp_initDown h
  intro w₁ h₁
  apply wp_seq
  apply wp_loadDown_rdOff h₁
  intro RdOff w₂ hRdOff h₂
  apply wp_seq
  apply wp_loadDown_wrOff h₂
  intro WrOff seen' w₃ hseen hWrOff h₃
  have hWr : WrOff.toNat < size.toNat := by
    have := h₃.seen_lt
    rw [hWrOff]
    exact Nat.mod_lt _ (by omega)
  apply wp_seq
  apply wp_readUntilWrapAround h₃ hRdOff hWrOff
  intro bytes RdOff' BufferSize' w₄ hcount hRdOff' hpiece hle h₄
  have hRd' : RdOff'.toNat < size.toNat := by
    rw [hRdOff']
    exact Nat.mod_lt _ (by omega)
  have hRem : (min (WrOff - RdOff') BufferSize').toNat =
      min (seen' - (got ++ bytes).length) BufferSize'.toNat := by
    rw [toNat_min]
    rcases hpiece with hfull | hpiece
    · omega
    · rw [toNat_sub_of_toNat_le (by omega)]
      omega
  show wp downHandler E (do
    let bytes' ← memcpyFrom RdOff' (min (WrOff - RdOff') BufferSize').toNat
    (if bytes ++ bytes' ≠ [] then store .rdOff (RdOff' + min (WrOff - RdOff') BufferSize')
      else pure () : TargetM Unit)
    return bytes ++ bytes') R w₄
  generalize min (WrOff - RdOff') BufferSize' = NumBytesRem at hRem
  apply wp_seq
  apply wp_memcpyFrom h₄ (by omega) hRdOff' (by omega)
  intro bytes' w₅ hbytes' h₅
  have hlen : (bytes ++ bytes').length = min (seen' - got.length) BufferSize.toNat := by
    rw [List.length_append] at hle ⊢
    rw [List.length_append] at hRem hpiece
    omega
  have hall : got ++ bytes ++ bytes' = got ++ (bytes ++ bytes') := List.append_assoc _ _ _
  apply wp_seq
  split
  · have hoff : (RdOff' + NumBytesRem).toNat = RdOff'.toNat + NumBytesRem.toNat :=
      toNat_add_of_toNat_le (z := size) (by omega)
    apply wp_storeDown_rdOff h₅
    · rw [hoff, List.length_append, hbytes', Ring.offset_add (by omega), hRdOff']
    · intro w₆ h₆
      rw [hall] at h₆
      exact hR _ seen' w₆ hseen hlen h₆
  · rename_i hnone
    rw [ne_eq, Decidable.not_not] at hnone
    have hsame : got ++ (bytes ++ bytes') = got := by rw [hnone, List.append_nil]
    rw [hall, hsame] at h₅
    refine hR _ seen' w₅ hseen hlen ?_
    rw [hsame]
    exact h₅

/-- Equal offsets mean that nothing is there. -/
theorem Down.offset_eq_iff {RdOff WrOff : UInt32} (h : Down size got.length got seen w)
    (hRdOff : RdOff.toNat = got.length % size.toNat) (hWrOff : WrOff.toNat = seen % size.toNat) :
    WrOff = RdOff ↔ seen - got.length = 0 := by
  obtain ⟨hle, hlt⟩ := h.seen_lt
  rw [← UInt32.toNat_inj, hRdOff, hWrOff]
  constructor
  · intro heq
    have := Ring.eq_of_offset_eq hle hlt heq.symm
    omega
  · intro hzero
    have hsame : seen = got.length := by omega
    rw [hsame]

/-! ## Calls as one step -/

inductive DownCall where
  | read (BufferSize : UInt32)
  | getKey
  | waitKey
  | hasKey
  deriving DecidableEq, Repr

/-- What a call returns, and the bytes that it stores in the caller's buffer. -/
structure DownResult where
  value : Int
  bytes : List UInt8
  deriving DecidableEq, Repr

def DownCall.prog (fuel : Nat) : DownCall → TargetM DownResult
  | .read BufferSize => do
    let bytes ← seggerRttRead BufferSize
    return ⟨bytes.length, bytes⟩
  | .getKey => do
    let r ← seggerRttGetKey
    return ⟨r, []⟩
  | .waitKey => do
    let r ← seggerRttWaitKey fuel
    return ⟨r, []⟩
  | .hasKey => do
    let r ← seggerRttHasKey
    return ⟨r, []⟩

/-- How many bytes a call takes when `avail` are there. -/
def DownCall.count (avail : Nat) : DownCall → Nat
  | .read BufferSize => min avail BufferSize.toNat
  | .getKey | .waitKey => min avail 1
  | .hasKey => 0

/-- A key, or -1 if there is none. -/
def keyOf : List UInt8 → Int
  | [] => -1
  | b :: _ => b.toNat

/-- The answer of a call that takes `taken` while `avail` bytes are there. -/
def DownCall.answer (avail : Nat) (taken : List UInt8) : DownCall → DownResult
  | .read _ => ⟨taken.length, taken⟩
  | .getKey | .waitKey => ⟨keyOf taken, []⟩
  | .hasKey => ⟨if avail = 0 then 0 else 1, []⟩

theorem wp_seggerRttGetKey {R : Int → Memory × DownHost → Prop}
    (h : Down size got.length got seen w)
    (hR : ∀ taken avail w', seen ≤ got.length + avail → taken.length = min avail 1 →
      Down size (got ++ taken).length (got ++ taken) (got.length + avail) w' → R (keyOf taken) w') :
    wp downHandler E seggerRttGetKey R w := by
  unfold seggerRttGetKey
  apply wp_seq
  apply wp_seggerRttReadNoLock h
  intro bytes seen' w' hseen hbytes hw'
  have hle := hw'.seen_lt.1
  rw [List.length_append] at hle
  have havail : got.length + (seen' - got.length) = seen' := by omega
  have hret := hR bytes (seen' - got.length) w' (by omega) hbytes (by rwa [havail])
  cases bytes with
  | nil => exact hret
  | cons b bytes =>
    have hnil : bytes = [] := by
      rw [List.length_cons, UInt32.toNat_one] at hbytes
      apply List.eq_nil_of_length_eq_zero
      omega
    subst hnil
    exact hret

/-- The wait ends with a byte. Where it goes on, there was none when it began. -/
theorem wp_seggerRttWaitKey {R : Int → Memory × DownHost → Prop} {fuel : Nat}
    (h : Down size got.length got seen w)
    (hR : ∀ taken avail w', seen ≤ got.length + avail → avail ≠ 0 → taken.length = 1 →
      Down size (got ++ taken).length (got ++ taken) (got.length + avail) w' → R (keyOf taken) w')
    (hE : ∀ w', (1 ≤ fuel → seen = got.length) → Down size got.length got seen w' →
      E .outOfFuel w') :
    wp downHandler E (seggerRttWaitKey fuel) R w := by
  induction fuel generalizing w with
  | zero => exact hE w (by omega) h
  | succ fuel ih =>
    unfold seggerRttWaitKey
    apply wp_seq
    apply wp_seggerRttGetKey h
    intro taken avail w' hseen htaken hw'
    cases taken with
    | nil =>
      have hzero : avail = 0 := by
        rw [List.length_nil] at htaken
        omega
      have hle := h.seen_lt.1
      have hsame : seen = got.length := by omega
      rw [if_pos (show keyOf [] < 0 by decide)]
      rw [hzero, List.append_nil, Nat.add_zero, ← hsame] at hw'
      rw [hsame] at hw'
      subst hsame
      exact ih hw' fun w'' _ hw'' => hE w'' (fun _ => rfl) hw''
    | cons b taken =>
      have hkey : ¬ keyOf (b :: taken) < 0 := by
        show ¬ (b.toNat : Int) < 0
        omega
      rw [List.length_cons] at htaken
      rw [if_neg hkey]
      exact hR (b :: taken) avail w' hseen (by omega) (by rw [List.length_cons]; omega) hw'

/-! ## Runs -/

/-- The bytes in the buffer that the target has not released, as the offsets say. -/
def Memory.used (m : Memory) : Nat :=
  let size := (m.word .sizeOfBuffer).toNat
  let wr := (m.word .wrOff).toNat
  let rd := (m.word .rdOff).toNat
  if rd ≤ wr then wr - rd else size - rd + wr

structure DownStep where
  call : DownCall
  before : Memory × DownHost
  result : Except Stop DownResult
  after : Memory × DownHost

/-- Calls one after the other, up to one that waits, and the state after them. -/
def runDownCalls (fuel : Nat) :
    List DownCall → (Memory × DownHost) × (Nat → List SenderStep) →
      List DownStep × (Memory × DownHost)
  | [], s => ([], s.1)
  | call :: calls, s =>
    let r := (call.prog fuel).eval (interleave DownHost.act env) s
    let x : DownStep := ⟨call, s.1, r.1, r.2.1⟩
    match r.1 with
    | .ok _ => (x :: (runDownCalls fuel calls r.2).1, (runDownCalls fuel calls r.2).2)
    | .error _ => ([x], r.2.1)

/-- The calls of a run, each as one step, and the bytes that they take: `pos` bytes were taken
before, and `seen` bytes were there at some earlier time. A call takes of the bytes that are
there at some time during the call, and what an earlier call has found is still there. -/
inductive InOrder : Nat → Nat → List DownStep → List UInt8 → Prop where
  | nil (pos seen : Nat) : InOrder pos seen [] []
  | returned {pos seen : Nat} {x : DownStep} {xs : List DownStep} {rest : List UInt8}
      (avail : Nat) (taken : List UInt8) (hseen : seen ≤ pos + avail)
      (hbefore : x.before.1.used ≤ avail) (hafter : avail ≤ x.after.1.used + taken.length)
      (htaken : taken.length = x.call.count avail) (hwait : x.call = .waitKey → avail ≠ 0)
      (hresult : x.result = .ok (x.call.answer avail taken))
      (tail : InOrder (pos + taken.length) (pos + avail) xs rest) :
      InOrder pos seen (x :: xs) (taken ++ rest)
  | waiting {pos : Nat} {x : DownStep} (hcall : x.call = .waitKey) (hbefore : x.before.1.used = 0)
      (hresult : x.result = .error .outOfFuel) : InOrder pos pos [x] []

theorem DownState.used {items staged : List UInt8} {known released : Nat}
    (hw : DownState size items staged got known released seen w) :
    w.1.used = items.length - released := by
  have h1 := hw.queue.known_le
  have h2 := hw.queue.released_le
  have h3 := hw.queue.taken_le
  have h4 := hw.queue.seen_le
  have h5 := hw.queue.fits
  have hused := Ring.used_eq (n := size.toNat) (a := released) (b := items.length)
    (by omega) (by omega)
  rw [← hw.queue.rd_eq, ← hw.queue.wr_eq] at hused
  unfold Memory.used
  rw [hw.sizeOfBuffer]
  exact hused

/-- What the offsets say is there, the target may see. -/
theorem Down.look (h : Down size got.length got seen w) :
    seen ≤ got.length + w.1.used ∧ Down size got.length got (got.length + w.1.used) w := by
  obtain ⟨items, staged, known, hw⟩ := h
  have hused := hw.used
  have h3 := hw.queue.taken_le
  have h4 := hw.queue.seen_le
  have hlen : got.length + w.1.used = items.length := by omega
  rw [hlen]
  exact ⟨h4, items, staged, known, { hw with queue := hw.queue.look }⟩

/-- One call, from a state that satisfies the invariant to one that does. -/
inductive OneRead (size : UInt32) (got : List UInt8) (seen : Nat) (x : DownStep) : Prop where
  | returned (avail : Nat) (taken : List UInt8) (hseen : seen ≤ got.length + avail)
      (hafter : avail ≤ x.after.1.used + taken.length)
      (htaken : taken.length = x.call.count avail) (hwait : x.call = .waitKey → avail ≠ 0)
      (hresult : x.result = .ok (x.call.answer avail taken))
      (hdown : Down size (got ++ taken).length (got ++ taken) (got.length + avail) x.after)
  | waiting (hcall : x.call = .waitKey) (hseen : seen = got.length)
      (hresult : x.result = .error .outOfFuel) (hdown : Down size got.length got seen x.after)

theorem wp_downCall {call : DownCall} {fuel : Nat} (hfuel : 1 ≤ fuel)
    (h : Down size got.length got seen w) :
    wp downHandler (fun e w' => OneRead size got seen ⟨call, w, .error e, w'⟩) (call.prog fuel)
      (fun r w' => OneRead size got seen ⟨call, w, .ok r, w'⟩) w := by
  have hafter : ∀ {taken : List UInt8} {avail : Nat} {w' : Memory × DownHost},
      Down size (got ++ taken).length (got ++ taken) (got.length + avail) w' →
      avail ≤ w'.1.used + taken.length := by
    intro taken avail w' hw'
    have hle := hw'.look.1
    rw [List.length_append] at hle
    omega
  cases call with
  | read BufferSize =>
    apply wp_seq
    apply wp_seggerRttReadNoLock h
    intro bytes seen' w' hseen hbytes hw'
    have hle := hw'.seen_lt.1
    rw [List.length_append] at hle
    have havail : got.length + (seen' - got.length) = seen' := by omega
    have hdown : Down size (got ++ bytes).length (got ++ bytes) (got.length + (seen' - got.length))
        w' := by rwa [havail]
    exact .returned (seen' - got.length) bytes (by omega) (hafter hdown) hbytes nofun rfl hdown
  | getKey =>
    apply wp_seq
    apply wp_seggerRttGetKey h
    intro taken avail w' hseen htaken hw'
    exact .returned avail taken hseen (hafter hw') htaken nofun rfl hw'
  | waitKey =>
    apply wp_seq
    apply wp_seggerRttWaitKey h
    · intro taken avail w' hseen havail htaken hw'
      have hcount : taken.length = min avail 1 := by omega
      exact .returned avail taken hseen (hafter hw') hcount (fun _ => havail) rfl hw'
    · intro w' hsame hw'
      exact .waiting rfl (hsame hfuel) rfl hw'
  | hasKey =>
    apply wp_seq
    unfold seggerRttHasKey
    apply wp_seq
    apply wp_initDown h
    intro w₁ h₁
    apply wp_seq
    apply wp_loadDown_rdOff h₁
    intro RdOff w₂ hRdOff h₂
    apply wp_seq
    apply wp_loadDown_wrOff h₂
    intro WrOff seen' w' hseen hWrOff hw'
    have hle := hw'.seen_lt.1
    have havail : got.length + (seen' - got.length) = seen' := by omega
    have hdown : Down size (got ++ []).length (got ++ []) (got.length + (seen' - got.length)) w' := by
      rw [havail, List.append_nil]
      exact hw'
    refine .returned (seen' - got.length) [] (by omega) (hafter hdown) rfl nofun ?_ hdown
    have hempty : RdOff = WrOff ↔ seen' - got.length = 0 := by
      rw [eq_comm]
      exact hw'.offset_eq_iff hRdOff hWrOff
    show Except.ok (⟨if RdOff ≠ WrOff then 1 else 0, []⟩ : DownResult) =
      .ok ⟨if seen' - got.length = 0 then 0 else 1, []⟩
    simp only [ne_eq, hempty, ite_not]

theorem downRun_in_order {fuel : Nat} (hfuel : 1 ≤ fuel) (calls : List DownCall)
    (h : Down size got.length got seen w) (sched : Nat → List SenderStep) :
    ∃ rest seen', InOrder got.length seen (runDownCalls fuel calls (w, sched)).1 rest ∧
      Down size (got ++ rest).length (got ++ rest) seen' (runDownCalls fuel calls (w, sched)).2 := by
  induction calls generalizing got seen w sched with
  | nil =>
    refine ⟨[], seen, .nil got.length seen, ?_⟩
    rw [List.append_nil]
    exact h
  | cons call calls ih =>
    obtain ⟨hused, hlook⟩ := h.look
    have hcall := @wp_downCall _ _ _ _ call fuel hfuel hlook
    have hrun := (wp_env_iff _ _ _ _).mp (wp_interleave hcall sched)
    unfold runDownCalls
    generalize (call.prog fuel).eval (interleave DownHost.act env) (w, sched) = r at hrun
    obtain ⟨result, w', sched'⟩ := r
    cases result with
    | ok r =>
      cases hrun with
      | waiting hcall hseen hresult hdown => cases hresult
      | returned avail taken hseen hafter htaken hwait hresult hdown =>
        obtain ⟨rest, seen', htail, hend⟩ := ih hdown sched'
        rw [List.append_assoc] at hend
        refine ⟨taken ++ rest, seen', ?_, hend⟩
        rw [List.length_append] at htail
        exact .returned avail taken (by omega) (show w.1.used ≤ avail by omega) hafter htaken hwait
          hresult htail
    | error e =>
      cases hrun with
      | returned avail taken hseen hafter htaken hwait hresult hdown => cases hresult
      | waiting hcall hseen hresult hdown =>
        have hle := h.seen_lt.1
        obtain rfl : seen = got.length := by omega
        have hend : Down size (got ++ []).length (got ++ []) (got.length + w.1.used) w' := by
          rw [List.append_nil]
          exact hdown
        exact ⟨[], _, .waiting hcall (show w.1.used = 0 by omega) hresult, hend⟩

/-- An initialised channel whose buffer is empty, and a host that has just attached to it. -/
structure FreshDown (w : Memory × DownHost) : Prop where
  acID : w.1.word .acID ≠ 0
  size : 0 < (w.1.word .sizeOfBuffer).toNat
  wrOff : w.1.word .wrOff = 0
  rdOff : w.1.word .rdOff = 0
  host : w.2 = ⟨0, 0, []⟩

theorem FreshDown.down (hw : FreshDown w) : Down (w.1.word .sizeOfBuffer) 0 [] 0 w := by
  have hqueue := Ring.Queue.empty hw.size w.1.pBuffer
  refine ⟨[], [], 0, hw.acID, rfl, ?_, ?_, ?_, ?_, List.prefix_rfl⟩
  · rw [hw.wrOff, hw.rdOff]
    exact hqueue
  · rw [hw.host, Nat.zero_mod]
    rfl
  · rw [hw.host]
    exact (Nat.zero_mod _).symm
  · rw [hw.host]
    rfl

/-- **What the host sends arrives in order.** In every run of reads each call does what it does as
one step, and the bytes that the calls take are, at every later time, the start of what the host
has put in the buffer, which never holds more than fits. -/
theorem downCalls_in_order (hw : FreshDown w) {fuel : Nat} (hfuel : 1 ≤ fuel)
    (calls : List DownCall) (sched : Nat → List SenderStep) :
    ∃ taken, InOrder 0 0 (runDownCalls fuel calls (w, sched)).1 taken ∧
      ∀ later : List SenderStep,
        let w' := later.foldl DownHost.act (runDownCalls fuel calls (w, sched)).2
        taken <+: w'.2.sent ∧
          w'.2.sent.length < taken.length + (w.1.word .sizeOfBuffer).toNat := by
  obtain ⟨taken, seen', horder, hdown⟩ := downRun_in_order hfuel calls hw.down sched
  rw [List.nil_append] at hdown
  refine ⟨taken, horder, fun later => ?_⟩
  obtain ⟨items, staged, known, hlater⟩ :=
    (stable_down _ taken.length taken seen').foldl hdown later
  have hknown := hlater.queue.known_le
  have hfits := hlater.queue.fits
  refine ⟨?_, ?_⟩
  · show taken <+: _
    rw [hlater.sent]
    exact hlater.got.trans (List.prefix_append items staged)
  · show List.length _ < _
    rw [hlater.sent, List.length_append]
    omega

/-- A down-buffer of four bytes, and a host that has just attached. -/
def keyboard : Memory × DownHost :=
  (⟨fun f => if f = .acID then 83 else if f = .sizeOfBuffer then 4 else 0, fun _ => 0, 0⟩,
    ⟨0, 0, []⟩)

theorem keyboard_in_order :
    ∃ taken, InOrder 0 0 (runDownCalls 3 [.hasKey, .waitKey, .read 8] (keyboard,
        fun _ => [.look, .put 97, .put 98, .publish])).1 taken ∧
      ∀ later : List SenderStep,
        let w' := later.foldl DownHost.act (runDownCalls 3 [.hasKey, .waitKey, .read 8] (keyboard,
          fun _ => [.look, .put 97, .put 98, .publish])).2
        taken <+: w'.2.sent ∧
          w'.2.sent.length < taken.length + (keyboard.1.word .sizeOfBuffer).toNat :=
  downCalls_in_order ⟨by decide, by decide, by decide, by decide, rfl⟩ (by decide) _ _

end SpiNand.Rtt
