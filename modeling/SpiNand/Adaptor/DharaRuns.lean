import SpiNand.Chip.Durability
import SpiNand.Driver.DharaAdaptor

/-!
# Runs of Dhara

Dhara sees the flash through the values that the adaptor's functions return. Each of them has one
value that it returns on success only, its *good* value: 0, and 1 for `dhara_nand_is_free`, which
returns 0 also where the page could not be read. As long as all calls return their good values, and
no copy overlooks a failure of the chip, Dhara works on the page store (`dharaSteps_atomic`). What
it wrote it reads back, whatever a copy overlooks (`dharaSteps_durable`).
-/

namespace SpiNand

open Interaction Interaction.Prog WriteOnce

/-! ## The calls -/

/-- A part of the data area of a page. -/
structure PageSpan where
  offset : UInt32
  length : UInt32
  fits : offset.toNat + length.toNat ≤ pageSize

/-- The calls that Dhara makes, with arguments in range. -/
inductive DharaCall
  | isBad (b : Fin numBlocks)
  | markBad (b : Fin numBlocks)
  | erase (b : Fin numBlocks) (err : Option DharaError)
  | prog (p : Fin numPages) (data : PageData) (err : Option DharaError)
  | isFree (p : Fin numPages)
  | read (p : Fin numPages) (span : PageSpan) (data : List UInt8) (err : Option DharaError)
  | copy (src dst : Fin numPages) (err : Option DharaError)

/-- What a call returns, and what `*err` and the buffer hold afterwards. -/
structure DharaResult where
  value : Int
  err : Option DharaError
  data : List UInt8

namespace DharaCall

def run : DharaCall → DriverM DharaResult
  | .isBad b => do
    let value ← dharaNandIsBad (UInt32.ofNat b)
    return ⟨value, none, []⟩
  | .markBad b => do
    dharaNandMarkBad (UInt32.ofNat b)
    return ⟨0, none, []⟩
  | .erase b err => do
    let (value, err) ← dharaNandErase (UInt32.ofNat b) err
    return ⟨value, err, []⟩
  | .prog p data err => do
    let (value, err) ← dharaNandProg (UInt32.ofNat p) data err
    return ⟨value, err, []⟩
  | .isFree p => do
    let value ← dharaNandIsFree (UInt32.ofNat p)
    return ⟨value, none, []⟩
  | .read p span data err => do
    let (value, err, data) ← dharaNandRead (UInt32.ofNat p) span.offset span.length data err
    return ⟨value, err, data⟩
  | .copy src dst err => do
    let (value, err) ← dharaNandCopy (UInt32.ofNat src) (UInt32.ofNat dst) err
    return ⟨value, err, []⟩

/-- The operation on the store that the call stands for. A mark leaves none. -/
def blockOp : DharaCall → BlockOp
  | .isBad b | .markBad b => .check b false
  | .erase b _ => .page (.erase b)
  | .prog p data _ => .page (.prog p data)
  | .isFree p => .isFree p none
  | .read p span data _ => .page (.read p span.offset.toUInt16 data span.length none)
  | .copy src dst _ => .page (.copy src dst none)

/-- What the call does to the pages. -/
def access (call : DharaCall) : PageAccess := call.blockOp.access

/-- The value that is returned on success only. -/
def good : DharaCall → Int
  | .isFree _ => 1
  | _ => 0

/-- The good value of the call rules out that an array command has failed. -/
def Vouches : DharaCall → Prop
  | .isBad _ => False
  | .isFree _ => False
  | .copy _ _ _ => False
  | _ => True

/-- The call may return its good value although it has programmed a page wrongly. -/
def Overlooks : DharaCall → Prop
  | .copy _ _ _ => True
  | _ => False

/-- So may the operation that it stands for. -/
theorem Overlooks.blockOp {call : DharaCall} (h : call.Overlooks) :
    call.blockOp.operation.Overlooks := by
  cases call with
  | copy src dst err => exact h
  | _ => exact h.elim

/-- What a call that returned its good value says about the pages `store` that it found. -/
def Says (store : Nat → Row) : DharaCall → DharaResult → Prop
  | .isBad b, _ => isMarked store b = false
  | .isFree p, _ => ¬ EccAreaFree store p
  | .read p span data _, r => r.data =
      (List.range span.length.toNat).map (fun i => store p (span.offset.toNat + i)) ++
        data.drop span.length.toNat
  | _, _ => True

end DharaCall

/-! ## One call -/

/-- What holds wherever a call may end that started from the pages `store` when `n` array commands
had failed. -/
structure Leaves (store : Nat → Row) (call : DharaCall) (n : Nat) (s : WornChip) : Prop where
  contained : ∀ p, ¬ call.access.Touches blockOf p → s.chip.core.array p = store p
  all_or_nothing : s.failures = n →
    s.chip.core.array = store ∨ s.chip.core.array = call.access.apply store

/-- Where a call may end that returns. -/
structure Acts (store : Nat → Row) (call : DharaCall) (n : Nat) (r : DharaResult) (s : WornChip) :
    Prop extends Leaves store call n s where
  ready : r.value = call.good → s.chip.busy = 0
  vouched : r.value = call.good → call.Vouches → s.failures = n
  success : r.value = call.good → s.failures = n →
    s.chip.core.array = call.access.apply store ∧ call.Says store r

section Calls

variable {store : Nat → Row} {call : DharaCall} {st : Status} {T P : Prop} {r : DharaResult}
  {s : WornChip} {m : Core Unit} {n : Nat}

theorem Settles.leaves (h : Settles store call.access n st T P s) : Leaves store call n s :=
  ⟨h.contained, h.all_or_nothing⟩

/-- The driver's operation failed, and the adaptor says so. -/
theorem Settles.failed (h : Settles store call.access n st T P s) (hvalue : r.value ≠ call.good) :
    Acts store call n r s :=
  ⟨h.leaves, fun hgood => absurd hgood hvalue, fun hgood => absurd hgood hvalue,
    fun hgood => absurd hgood hvalue⟩

theorem Settles.succeeded (h : Settles store call.access n st T P s)
    (hst : st = amHalStatusSuccess) (hT : call.Vouches → T)
    (htold : r.value = call.good → P → call.Says store r) : Acts store call n r s := by
  refine ⟨h.leaves, fun _ => h.ready hst, fun _ hvouches => h.vouched hst (hT hvouches), ?_⟩
  intro hgood hn
  obtain ⟨harray, hP⟩ := h.success hst hn
  exact ⟨harray, htold hgood hP⟩

/-- `*err = e`, in a call that failed: where `err` is `NULL` it does not return. -/
theorem wpS_assignErr_failed {err : Option DharaError} {e : DharaError} {α : Type}
    {next : Option DharaError → DriverM α} {R : α → WornChip → Prop} (h : Leaves store call n s)
    (hnext : ∀ err', wpS WornChip.handler (fun _ s' => Leaves store call n s') (next err') R s) :
    wpS WornChip.handler (fun _ s' => Leaves store call n s') (assignErr err e >>= next) R s := by
  cases err with
  | none => exact fun _ => h
  | some e₀ => exact wpS_bind (wpS_pure (hnext _))

theorem ready_dharaErase (hs : s.Ready m n) (b : Fin numBlocks) (err : Option DharaError) :
    wpS WornChip.handler (fun _ s' => Leaves m.array (.erase b err) n s')
      (DharaCall.run (.erase b err)) (Acts m.array (.erase b err) n) s := by
  have hblock : (UInt32.ofNat b).toUInt16 = UInt16.ofNat b := UInt32.toUInt16_ofNat
  apply wpS_map
  apply wpS_bind
  rw [hblock]
  apply wpS_mono (ready_eraseBlock_settles hs b.isLt)
  intro st s' h
  apply wpS_ite
  · intro _
    apply wpS_assignErr_failed h.leaves
    intro err'
    exact wpS_pure (h.failed (show (-1 : Int) ≠ 0 by decide))
  · intro hok
    exact wpS_pure (h.succeeded (not_ne_iff.mp hok) id fun _ _ => trivial)

theorem ready_dharaProg (hs : s.Ready m n) (p : Fin numPages) (data : PageData)
    (err : Option DharaError) :
    wpS WornChip.handler (fun _ s' => Leaves m.array (.prog p data err) n s')
      (DharaCall.run (.prog p data err)) (Acts m.array (.prog p data err) n) s := by
  apply wpS_map
  apply wpS_bind
  apply wpS_mono (ready_progPage_settles hs p.isLt data)
  intro st s' h
  apply wpS_ite
  · intro _
    apply wpS_assignErr_failed h.leaves
    intro err'
    exact wpS_pure (h.failed (show (-1 : Int) ≠ 0 by decide))
  · intro hok
    exact wpS_pure (h.succeeded (not_ne_iff.mp hok) id fun _ _ => trivial)

theorem ready_dharaIsBad (hs : s.Ready m n) (b : Fin numBlocks) :
    wpS WornChip.handler (fun _ s' => Leaves m.array (.isBad b) n s') (DharaCall.run (.isBad b))
      (Acts m.array (.isBad b) n) s := by
  have hbad : DharaError.badBlock.toInt ≠ 0 := by decide
  apply wpS_map
  apply wpS_uninitBool
  intro isBad
  apply wpS_bind
  apply wpS_mono (ready_checkBadBlock_settles hs b isBad)
  intro checked s' h
  apply wpS_ite
  · intro _
    exact wpS_pure (Settles.failed h hbad)
  · intro hok
    apply wpS_ite
    · intro _
      exact wpS_pure (Settles.failed h hbad)
    · intro hclean
      apply wpS_pure
      apply Settles.succeeded h (not_ne_iff.mp hok) id
      intro _ hmarked
      show isMarked m.array b = false
      rw [← hmarked]
      exact Bool.not_eq_true _ ▸ hclean

theorem ready_dharaIsFree (hs : s.Ready m n) (p : Fin numPages) :
    wpS WornChip.handler (fun _ s' => Leaves m.array (.isFree p) n s') (DharaCall.run (.isFree p))
      (Acts m.array (.isFree p) n) s := by
  apply wpS_map
  apply wpS_uninitBool
  intro isFree
  apply wpS_bind
  apply wpS_mono (ready_isFree_settles hs p (some isFree))
  intro checked s' h
  apply wpS_ite
  · intro _
    exact wpS_pure (Settles.failed h (show (0 : Int) ≠ 1 by decide))
  · intro hok
    apply wpS_pure
    apply Settles.succeeded h (not_ne_iff.mp hok) id
    intro hgood hanswer hfree
    rw [hanswer] at hgood
    have hzero : (if decide (EccAreaFree m.array p) = true then (0 : Int) else 1) = 1 := hgood
    rw [if_pos (decide_eq_true hfree)] at hzero
    exact absurd hzero (by decide)

theorem ready_dharaRead (hs : s.Ready m n) (p : Fin numPages) (span : PageSpan) (data : List UInt8)
    (err : Option DharaError) :
    wpS WornChip.handler (fun _ s' => Leaves m.array (.read p span data err) n s')
      (DharaCall.run (.read p span data err)) (Acts m.array (.read p span data err) n) s := by
  -- the offset is within a page, so it is not cut off
  have hoffset : span.offset.toUInt16.toNat = span.offset.toNat := by
    have hfits := span.fits
    have hpage : pageSize = 2048 := rfl
    rw [UInt32.toNat_toUInt16]
    exact Nat.mod_eq_of_lt (by omega)
  apply wpS_map
  apply wpS_uninitBool
  intro eccErr
  apply wpS_bind
  have hread := ready_readPage_settles
    (E := fun _ s' => Leaves m.array (.read p span data err) n s')
    hs (UInt32.ofNat p) span.offset.toUInt16 data span.length (some eccErr) p
  rw [rowOf_ofNat p.isLt, hoffset] at hread
  apply wpS_mono hread
  intro read s' h
  apply wpS_ite
  · intro _
    exact wpS_pure (Settles.failed h (show (-1 : Int) ≠ 0 by decide))
  · intro hok
    apply wpS_ite
    · intro _
      apply wpS_assignErr_failed h.leaves
      intro err'
      exact wpS_pure (Settles.failed h (show (-1 : Int) ≠ 0 by decide))
    · intro hflag
      apply wpS_pure
      have hclear : read.eccFatal.getD eccErr = false := Bool.not_eq_true _ ▸ hflag
      exact Settles.succeeded h (not_ne_iff.mp hok) (fun _ => hclear) fun _ hdata => hdata

theorem ready_dharaCopy (hs : s.Ready m n) (src dst : Fin numPages) (err : Option DharaError) :
    wpS WornChip.handler (fun _ s' => Leaves m.array (.copy src dst err) n s')
      (DharaCall.run (.copy src dst err)) (Acts m.array (.copy src dst err) n) s := by
  apply wpS_map
  apply wpS_uninitBool
  intro eccErr
  apply wpS_bind
  apply wpS_mono (ready_copyPage_settles hs src.isLt dst.isLt (some eccErr))
  intro copied s' h
  apply wpS_ite
  · intro _
    exact wpS_pure (Settles.failed h (show (-1 : Int) ≠ 0 by decide))
  · intro hok
    apply wpS_ite
    · -- the flag may say so of a copy that succeeded
      intro _
      apply wpS_assignErr_failed h.leaves
      intro err'
      exact wpS_pure (Settles.failed h (show (-1 : Int) ≠ 0 by decide))
    · intro _
      exact wpS_pure (Settles.succeeded h (not_ne_iff.mp hok) id fun _ _ => trivial)

/-- **The simulation of one call**, from a ready chip. -/
theorem ready_dharaCall (hs : s.Ready m n) (call : DharaCall) :
    wpS WornChip.handler (fun _ s' => Leaves m.array call n s') call.run
      (Acts m.array call n) s := by
  cases call with
  | isBad b => exact ready_dharaIsBad hs b
  | markBad b =>
    -- the chip is not asked
    apply wpS_pure
    have harray : s.chip.core.array = m.array := congrArg Core.array hs.core
    exact ⟨⟨fun p _ => congrFun harray p, fun _ => .inl harray⟩, fun _ => hs.busy,
      fun _ _ => hs.failures, fun _ _ => ⟨harray, trivial⟩⟩
  | erase b err => exact ready_dharaErase hs b err
  | prog p data err => exact ready_dharaProg hs p data err
  | isFree p => exact ready_dharaIsFree hs p
  | read p span data err => exact ready_dharaRead hs p span data err
  | copy src dst err => exact ready_dharaCopy hs src dst err

end Calls

/-! ## Runs -/

/-- One call of a run, with the chip before and after it. -/
structure DharaStep where
  call : DharaCall
  before : WornChip
  result : Except Halt DharaResult
  after : WornChip

def DharaCall.step (call : DharaCall) (d : Driver) (s : WornChip × (Nat → Answer)) :
    DharaStep where
  call := call
  before := s.1
  result := ((call.run d).eval (withStack WornChip.env) s).1.map Prod.fst
  after := ((call.run d).eval (withStack WornChip.env) s).2.1

/-- A run of calls one after the other. It ends early where a call does not return. -/
def dharaSteps (calls : List DharaCall) (d : Driver) (s : WornChip × (Nat → Answer)) :
    List DharaStep :=
  runs (fun call x => (call.step x.1 x.2,
    resumption ((call.run x.1).eval (withStack WornChip.env) x.2))) calls (d, s)

theorem dharaStep_after {call : DharaCall} {x x' : Driver × WornChip × (Nat → Answer)}
    (h : resumption ((call.run x.1).eval (withStack WornChip.env) x.2) = some x') :
    (call.step x.1 x.2).after = x'.2.1 := by
  unfold DharaCall.step
  rcases heval : (call.run x.1).eval (withStack WornChip.env) x.2 with ⟨e | ⟨r, d'⟩, s'⟩
  · rw [heval] at h
    cases h
  · rw [heval] at h
    cases h
    rfl

namespace DharaStep

/-- The call returned its good value. -/
def Good (st : DharaStep) : Prop := ∃ r, st.result = .ok r ∧ r.value = st.call.good

/-- No array command failed. -/
def NoneFailed (st : DharaStep) : Prop := st.after.failures = st.before.failures

/-- The call returned its good value, and overlooked no failure. -/
def Lasts (st : DharaStep) : Prop := st.Good ∧ (st.call.Overlooks → st.NoneFailed)

/-- One call of a run is an atomic step of the store from the pages `store`. It changes no page but
those of its access. Unless an array command failed it has the effect of the access or none, and
if it returned its good value the effect, and what it says is so. -/
structure Atomic (store : Nat → Row) (call : DharaCall) (st : DharaStep) : Prop where
  call_eq : st.call = call
  before : st.before.chip.core.array = store
  contained : ∀ p, ¬ call.access.Touches blockOf p → st.after.chip.core.array p = store p
  all_or_nothing : st.NoneFailed →
    st.after.chip.core.array = store ∨ st.after.chip.core.array = call.access.apply store
  ready : st.Good → st.after.chip.busy = 0
  vouched : st.Good → call.Vouches → st.NoneFailed
  success : ∀ r, st.result = .ok r → r.value = call.good → st.NoneFailed →
    st.after.chip.core.array = call.access.apply store ∧ call.Says store r

/-- A call that lasts has had its effect. -/
theorem Atomic.effect {store : Nat → Row} {call : DharaCall} {st : DharaStep}
    (h : st.Atomic store call) (hlasts : st.Lasts) :
    st.after.chip.core.array = call.access.apply store := by
  obtain ⟨hgood, hlooked⟩ := hlasts
  obtain ⟨r, hr, hvalue⟩ := hgood
  have hvouched := h.vouched ⟨r, hr, hvalue⟩
  rw [h.call_eq] at hvalue hlooked
  have huntouched : (∀ p, ¬ call.access.Touches blockOf p) → st.after.chip.core.array = store :=
    fun ha => funext fun p => h.contained p (ha p)
  cases call with
  | isBad b => exact huntouched fun _ => id
  | markBad b => exact huntouched fun _ => id
  | erase b err => exact (h.success r hr hvalue (hvouched trivial)).1
  | prog p data err => exact (h.success r hr hvalue (hvouched trivial)).1
  | isFree p => exact huntouched fun _ => id
  | read p span data err => exact huntouched fun _ => id
  | copy src dst err => exact (h.success r hr hvalue (hlooked trivial)).1

end DharaStep

/-- The pages after a sequence of calls. -/
def dharaReplay (store : Nat → Row) (calls : List DharaCall) : Nat → Row :=
  replay store (calls.map DharaCall.blockOp)

theorem dharaStep_atomic {s : WornChip} (hready : s.chip.busy = 0) (call : DharaCall) (d : Driver)
    (stack : Nat → Answer) :
    DharaStep.Atomic s.chip.core.array call (call.step d (s, stack)) := by
  have hs : s.Ready s.chip.core s.failures := ⟨rfl, hready, rfl⟩
  have hwp := wp_withStack (ready_dharaCall hs call d) stack
  rw [wp_env_iff] at hwp
  unfold DharaCall.step
  rcases heval : (call.run d).eval (withStack WornChip.env) (s, stack)
    with ⟨e | ⟨r, d'⟩, s', stack'⟩
  · rw [heval] at hwp
    exact ⟨rfl, rfl, hwp.contained, hwp.all_or_nothing, fun ⟨r, hr, _⟩ => (nomatch hr),
      fun ⟨r, hr, _⟩ => (nomatch hr), fun r hr => (nomatch hr)⟩
  · rw [heval] at hwp
    refine ⟨rfl, rfl, hwp.contained, hwp.all_or_nothing, ?_, ?_, ?_⟩
    · rintro ⟨r', hr, hgood⟩
      cases hr
      exact hwp.ready hgood
    · rintro ⟨r', hr, hgood⟩
      cases hr
      exact hwp.vouched hgood
    · intro r' hr hgood
      cases hr
      exact hwp.success hgood

/-- **Dhara's page store.** In every run of calls from a ready chip that may wear out, with any
results of the HAL, any busy times and any status bits: a call before which all returned their good
values, with no failure overlooked by a copy, finds the pages that the store has there and is an
atomic step from there. -/
theorem dharaSteps_atomic (s : WornChip) (hready : s.chip.busy = 0) (calls : List DharaCall)
    (d : Driver) (stack : Nat → Answer) {pre suf : List DharaStep} {st : DharaStep}
    (heq : dharaSteps calls d (s, stack) = pre ++ st :: suf) (hgood : ∀ x ∈ pre, x.Lasts) :
    ∃ call, calls[pre.length]? = some call ∧
      st.Atomic (dharaReplay s.chip.core.array (calls.take pre.length)) call := by
  -- between calls the chip is ready and has the pages of the store
  obtain ⟨call, x, hcall, ⟨hbusy, hpages⟩, rfl⟩ := runs_induction
    (fun done x => x.2.1.chip.busy = 0 ∧ x.2.1.chip.core.array = dharaReplay s.chip.core.array done)
    (by
      intro done call x x' hI hlasts hnext
      have hatomic := dharaStep_atomic hI.1 call x.1 x.2.2
      have hbusy := hatomic.ready hlasts.1
      have hafter := hatomic.effect hlasts
      have hends := dharaStep_after hnext
      rw [hends] at hbusy hafter
      refine ⟨hbusy, ?_⟩
      rw [hafter, hI.2]
      unfold dharaReplay
      rw [List.map_append, replay_append]
      rfl)
    ⟨hready, rfl⟩ heq hgood
  have hatomic := dharaStep_atomic hbusy call x.1 x.2.2
  rw [hpages] at hatomic
  exact ⟨call, hcall, hatomic⟩

/-- A block is checked and erased, and a page of it programmed. -/
def journalCalls : List DharaCall :=
  [.isBad ⟨13, by decide⟩, .erase ⟨13, by decide⟩ none, .prog ⟨832, by decide⟩ (.fill 0xF5) none]

/-- The calls on a chip that tears the program. -/
def tornJournal : List DharaStep :=
  dharaSteps journalCalls Driver.initial
    (⟨⟨⟨fun _ _ => 0x12, fun _ _ => 0x34, true⟩, 0, fun _ => ⟨0, fun _ => 0, 0, fun _ => 0⟩⟩,
      none, 0, fun n => if n = 9 then ⟨false, true, fun _ _ => 0x5A⟩ else .harmless⟩,
      fun _ => .zero)

theorem tornJournal_eq :
    ∃ first second third, tornJournal = [first, second] ++ third :: [] ∧
      (first.Lasts ∧ second.Lasts) ∧ third.after.failures = 1 :=
  ⟨_, _, _, rfl, ⟨⟨⟨_, rfl, rfl⟩, fun h => h.elim⟩, ⟨_, rfl, rfl⟩, fun h => h.elim⟩, rfl⟩

/-- The program that is torn finds the block erased, and is an atomic step from there. -/
theorem tornJournal_atomic :
    ∃ third call, third ∈ tornJournal ∧ third.after.failures = 1 ∧ journalCalls[2]? = some call ∧
      DharaStep.Atomic (dharaReplay (fun _ _ => 0x12) (journalCalls.take 2)) call third := by
  obtain ⟨first, second, third, heq, hlasts, htorn⟩ := tornJournal_eq
  have hgood : ∀ x ∈ [first, second], x.Lasts := by simpa using hlasts
  obtain ⟨call, hcall, hatomic⟩ := dharaSteps_atomic _ rfl journalCalls Driver.initial
    (fun _ => .zero) heq hgood
  refine ⟨third, call, ?_, htorn, hcall, hatomic⟩
  rw [heq]
  exact List.mem_append_right _ List.mem_cons_self

/-! ## Durability -/

/-- What is known of a page after a sequence of calls. -/
def dharaLearned (p : Nat) (calls : List DharaCall) : Option Row :=
  learned p (calls.map DharaCall.blockOp)

/-- A call before which all returned their good values finds each page holding what it is known to
hold. -/
theorem dharaSteps_known {s : WornChip} (hready : s.chip.busy = 0) (calls : List DharaCall)
    (d : Driver) (stack : Nat → Answer) {pre suf : List DharaStep} {st : DharaStep}
    (heq : dharaSteps calls d (s, stack) = pre ++ st :: suf) (hgood : ∀ x ∈ pre, x.Good) (p : Nat) :
    ∃ call store, calls[pre.length]? = some call ∧ st.Atomic store call ∧
      Known store p (dharaLearned p (calls.take pre.length)) := by
  obtain ⟨call, x, hcall, ⟨hbusy, hknown⟩, rfl⟩ := runs_induction
    (fun done x => x.2.1.chip.busy = 0 ∧ Known x.2.1.chip.core.array p (dharaLearned p done))
    (by
      intro done call x x' hI hgood hnext
      have hatomic := dharaStep_atomic hI.1 call x.1 x.2.2
      have hbusy := hatomic.ready hgood
      have heffect : ¬ call.blockOp.operation.Overlooks →
          (call.step x.1 x.2).after.chip.core.array =
            call.blockOp.access.apply x.2.1.chip.core.array :=
        fun hlooks => hatomic.effect ⟨hgood, fun h => absurd h.blockOp hlooks⟩
      have hknown := Known.learn hI.2 hatomic.contained heffect
      have hends := dharaStep_after hnext
      rw [hends] at hbusy hknown
      refine ⟨hbusy, ?_⟩
      unfold dharaLearned
      rw [List.map_append]
      exact hknown.learned_append)
    ⟨hready, fun row hrow => nomatch hrow⟩ heq hgood
  exact ⟨call, x.2.1.chip.core.array, hcall, dharaStep_atomic hbusy call x.1 x.2.2, hknown⟩

/-- The bytes of a page that was erased and programmed with `data`. -/
theorem span_of_programmed (data : PageData) (span : PageSpan) :
    (List.range span.length.toNat).map
        (fun i => Row.erased.overwrite 0 data.bytes (span.offset.toNat + i)) =
      (data.bytes.drop span.offset.toNat).take span.length.toNat := by
  have hfits := span.fits
  have hlen := data.length_bytes
  apply List.ext_getElem
  · simp
    omega
  · intro i hi hi'
    have hlt : i < span.length.toNat := by simpa using hi
    have hbyte : span.offset.toNat + i < data.bytes.length := by omega
    simp [Row.overwrite, hbyte]

/-- **Dhara reads what it wrote.** In a run from a ready chip that may wear out, in which Dhara
erases a block and programs a page of it, and in which all calls before a later read of the page
returned their good values, the read returns the bytes that were programmed, if no other call named
the page in between and the read returns 0 too. -/
theorem dharaSteps_durable (s : WornChip) (hready : s.chip.busy = 0)
    {before between after : List DharaCall} {b : Fin numBlocks} {p : Fin numPages}
    {data : PageData} {eraseErr progErr : Option DharaError} (hb : blockOf p = b)
    (hbetween : ∀ call ∈ between, ¬ call.access.Touches blockOf p)
    (hafter : ∀ call ∈ after, ¬ call.access.Touches blockOf p) {calls : List DharaCall}
    (hcalls : calls =
      before ++ .erase b eraseErr :: (between ++ .prog p data progErr :: after))
    {span : PageSpan} {buffer : List UInt8} {err : Option DharaError} (d : Driver)
    (stack : Nat → Answer) {pre suf : List DharaStep} {st : DharaStep}
    (heq : dharaSteps (calls ++ [.read p span buffer err]) d (s, stack) = pre ++ st :: suf)
    (hlen : pre.length = calls.length) (hgood : ∀ x ∈ pre, x.Good) {r : DharaResult}
    (hr : st.result = .ok r) (hvalue : r.value = 0) :
    r.data = (data.bytes.drop span.offset.toNat).take span.length.toNat ++
      buffer.drop span.length.toNat := by
  obtain ⟨call, store, hcall, hatomic, hknown⟩ := dharaSteps_known hready _ d stack heq hgood p
  -- the step is that of the read
  rw [hlen, List.getElem?_append_right (le_refl _), Nat.sub_self, List.getElem?_cons_zero] at hcall
  obtain rfl := (Option.some.inj hcall).symm
  rw [hlen, List.take_left] at hknown
  have hread : st.Good := by
    refine ⟨r, hr, ?_⟩
    rw [hatomic.call_eq]
    exact hvalue
  -- a good value of a read rules out a failure
  have hnone : st.NoneFailed := hatomic.vouched hread trivial
  obtain ⟨-, htold⟩ := hatomic.success r hr hvalue hnone
  have hdata : r.data = (List.range span.length.toNat).map
      (fun i => store p (span.offset.toNat + i)) ++ buffer.drop span.length.toNat := htold
  have hops : ∀ {l : List DharaCall}, (∀ call ∈ l, ¬ call.access.Touches blockOf p) →
      ∀ op ∈ l.map DharaCall.blockOp, ¬ op.access.Touches blockOf p := by
    intro l hl op hop
    obtain ⟨call, hmem, rfl⟩ := List.mem_map.mp hop
    exact hl call hmem
  have hrow : store p = Row.erased.overwrite 0 data.bytes := by
    apply hknown
    unfold dharaLearned
    rw [hcalls, List.map_append, List.map_cons, List.map_append, List.map_cons]
    exact learned_erase_prog data hb (hops hbetween) (hops hafter)
  rw [hdata, hrow, span_of_programmed]

/-- An erase, a program and a copy that overlooks a failure, and a read of two bytes. -/
def journalRead : List DharaStep :=
  dharaSteps ([.erase ⟨13, by decide⟩ none, .prog ⟨832, by decide⟩ (.fill 0xF5) none,
        .copy ⟨832, by decide⟩ ⟨896, by decide⟩ none] ++
      [.read ⟨832, by decide⟩ ⟨3, 2, by decide⟩ [0, 0, 7] none]) Driver.initial
    (⟨⟨⟨fun _ _ => 0x12, fun _ _ => 0x34, true⟩, 0, fun _ => ⟨0, fun _ => 0, 0, fun _ => 0⟩⟩,
      none, 0, fun n => if n = 12 then ⟨false, true, fun _ _ => 0x5A⟩ else .harmless⟩,
      fun _ => .zero)

theorem journalRead_eq :
    ∃ first second third fourth r, journalRead = [first, second, third] ++ fourth :: [] ∧
      (first.Good ∧ second.Good ∧ third.Good) ∧ fourth.before.failures = 1 ∧
      fourth.result = .ok r ∧ r.value = 0 :=
  ⟨_, _, _, _, _, rfl, ⟨⟨_, rfl, rfl⟩, ⟨_, rfl, rfl⟩, _, rfl, rfl⟩, rfl, rfl, rfl⟩

theorem journalRead_durable :
    ∃ fourth r, fourth ∈ journalRead ∧ fourth.before.failures = 1 ∧ fourth.result = .ok r ∧
      r.data = ((PageData.fill 0xF5).bytes.drop 3).take 2 ++ [7] := by
  obtain ⟨first, second, third, fourth, r, heq, hgood, hfailed, hr, hvalue⟩ := journalRead_eq
  have hcopy : ¬ (DharaCall.copy ⟨832, by decide⟩ ⟨896, by decide⟩ none).access.Touches
      blockOf 832 := by
    show ¬ (832 = 896)
    decide
  refine ⟨fourth, r, ?_, hfailed, hr, ?_⟩
  · rw [heq]
    exact List.mem_append_right _ List.mem_cons_self
  · have hpre : ∀ x ∈ [first, second, third], x.Good := by simpa using hgood
    exact @dharaSteps_durable _ rfl [] [] [.copy ⟨832, by decide⟩ ⟨896, by decide⟩ none]
      ⟨13, by decide⟩ ⟨832, by decide⟩ (.fill 0xF5) none none (by decide) (by simp)
      (by simpa using hcopy) _ rfl ⟨3, 2, by decide⟩ [0, 0, 7] none Driver.initial
      (fun _ => .zero) _ _ _ heq rfl hpre r hr hvalue

end SpiNand
