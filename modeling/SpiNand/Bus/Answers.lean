import SpiNand.Bus.Runs

/-!
# Devices that answer from a sequence

A `Device` answers the calls from a sequence, one element each, and may have a state of its own
that shows through in what is received. `adversary` has none: the HAL's results and the bytes
received are any sequence at all.

* **`Waits answers n j`** says, on the sequence, that a wait of `n` polls ends with the `j`-th,
  and **`device_wait`** is the rule of the wait in these terms.
* **`Reads`**, **`Copies`** say that a page read and a page copy succeed.
-/

namespace SpiNand

open Interaction Interaction.Prog

/-- What the calls are answered with. -/
abbrev Answers := Nat → Answer

/-- The sequence after `k` answers. -/
def Answers.after (k : Nat) (answers : Answers) : Answers := fun n => answers (n + k)

@[simp] theorem Answers.after_zero (answers : Answers) (k : Nat) : answers.after k 0 = answers k :=
  congrArg answers (Nat.zero_add k)

theorem Answers.after_after (answers : Answers) (j k : Nat) :
    (answers.after j).after k = answers.after (j + k) := by
  funext n
  show answers (n + k + j) = answers (n + (j + k))
  congr 1
  omega

/-- A device with a state: what is received for a command, given the answer of the sequence, and
the state afterwards. Status reads are answered by the sequence alone, and only the result of a
SET_FEATURES may be other than that of the sequence. -/
structure Device (ρ : Type) where
  view : ρ → NandCmd → Answer → Answer
  next : ρ → NandCmd → Answer → ρ
  view_getStatus : ∀ x a, view x (.getFeatures featureRegStatus) a = a
  next_getStatus : ∀ x a, next x (.getFeatures featureRegStatus) a = x
  status_view : ∀ x c a, (∀ reg value, c ≠ .setFeatures reg value) → (view x c a).status = a.status

variable {ρ α : Type}

/-- The device as an environment. Calls that return nothing use up no answer. -/
def Device.env (D : Device ρ) : Environment (ρ × Answers)
  | (x, answers), .blockingTransfer t =>
    match t.decode with
    | some c =>
      (D.view x c (answers 0), (D.next x c (D.view x c (answers 0)), answers.after 1))
    | none => (answers 0, (x, answers.after 1))
  | (x, answers), .void _ => (answers 0, (x, answers))
  | (x, answers), _ => (answers 0, (x, answers.after 1))

/-- No device at all: every answer is that of the sequence. -/
def adversary : Device Unit where
  view _ _ a := a
  next _ _ _ := ()
  view_getStatus _ _ := rfl
  next_getStatus _ _ := rfl
  status_view _ _ _ _ := rfl

section Device

variable {D : Device ρ} {E : Halt → ρ × Answers → Prop}

/-- The handler of a device, with anything on the stack. -/
abbrev Device.handler (D : Device ρ) : Handler (ρ × Answers) Call Answer := Handler.stacked D.env

/-- A command, by what the device shows for it. -/
theorem cmd_device {c : NandCmd} {φ : Answer → ρ × Answers → Prop} {x : ρ} {answers : Answers}
    (h : φ (D.view x c (answers 0)) (D.next x c (D.view x c (answers 0)), answers.after 1)) :
    Handler.cmd D.handler c φ (x, answers) := by
  intro t ht
  have henv : D.env (x, answers) (.blockingTransfer t) =
      (D.view x c (answers 0), (D.next x c (D.view x c (answers 0)), answers.after 1)) := by
    simp only [Device.env, ht]
  show φ (D.env (x, answers) (.blockingTransfer t)).1 (D.env (x, answers) (.blockingTransfer t)).2
  rw [henv]
  exact h

/-- A status read. -/
theorem cmd_device_status {φ : Answer → ρ × Answers → Prop} {x : ρ} {answers : Answers}
    (h : φ (answers 0) (x, answers.after 1)) :
    Handler.cmd D.handler (.getFeatures featureRegStatus) φ (x, answers) := by
  apply cmd_device
  rw [D.view_getStatus, D.next_getStatus]
  exact h

/-! ## Waits -/

/-- Of at most `n` status reads, the first `j` show busy and the next one ready. -/
def Waits (answers : Answers) (n j : Nat) : Prop :=
  j < n ∧ (∀ i < j, (answers i).ShowsBusy) ∧ (answers j).ShowsReady

/-- One poll that shows busy. -/
theorem waits_succ {answers : Answers} {n : Nat} (hbusy : (answers 0).ShowsBusy) (j : Nat) :
    Waits answers (n + 1) j ↔ ∃ k, j = k + 1 ∧ Waits (answers.after 1) n k := by
  constructor
  · rintro ⟨hj, hbefore, hready⟩
    cases j with
    | zero =>
      -- the first poll does not end it
      exact absurd hready hbusy.not_showsReady
    | succ k =>
      refine ⟨k, rfl, Nat.lt_of_succ_lt_succ hj, fun i hi => ?_, hready⟩
      exact hbefore (i + 1) (Nat.succ_lt_succ hi)
  · rintro ⟨k, rfl, hk, hbefore, hready⟩
    refine ⟨Nat.succ_lt_succ hk, fun i hi => ?_, hready⟩
    cases i with
    | zero => exact hbusy
    | succ i => exact hbefore i (Nat.lt_of_succ_lt_succ hi)

/-- A wait whose first poll fails does not end ready. -/
theorem not_waits_of_failed {answers : Answers} {n : Nat}
    (hfail : (answers 0).status ≠ amHalStatusSuccess) (j : Nat) : ¬ Waits answers n j := by
  rintro ⟨-, hbefore, hready⟩
  cases j with
  | zero => exact hfail hready.1
  | succ j => exact hfail (hbefore 0 (Nat.succ_pos j)).1

/-- **The rule for waits.** A wait goes on after the poll that shows ready, or ends with a status
that is not success. -/
theorem device_wait {R : Status → ρ × Answers → Prop} {K : UInt8 → ρ × Answers → Prop} {x : ρ}
    {n : Nat} {answers : Answers}
    (hready : ∀ j, Waits answers n j → K ((answers j).bytes 0) (x, answers.after (j + 1)))
    (hfail : (∀ j, ¬ Waits answers n j) →
      ∀ st s, st ≠ amHalStatusSuccess → R st s) :
    Handler.polls D.handler n (Waited R K) (x, answers) := by
  induction n generalizing answers with
  | zero =>
    have hnone : ∀ j, ¬ Waits answers 0 j := fun j h => Nat.not_lt_zero j h.1
    have htimeout : amHalStatusTimeout ≠ amHalStatusSuccess := by decide
    exact hfail hnone _ _ htimeout
  | succ n ih =>
    apply cmd_device_status
    by_cases hok : (answers 0).status = amHalStatusSuccess
    · rw [dif_neg (not_ne_iff.mpr hok)]
      cases hoip : oip ((answers 0).bytes 0) with
      | true =>
        -- busy: the rest of the wait is a wait with one poll less
        have hbusy : (answers 0).ShowsBusy := ⟨hok, hoip⟩
        rw [if_pos rfl]
        apply ih (fun k hk => hready (k + 1) ((waits_succ hbusy _).mpr ⟨k, rfl, hk⟩))
        intro hnone
        apply hfail
        intro j hj
        obtain ⟨k, rfl, hk⟩ := (waits_succ hbusy j).mp hj
        exact hnone k hk
      | false =>
        rw [if_neg Bool.false_ne_true]
        exact hready 0 ⟨Nat.succ_pos n, fun i hi => absurd hi (Nat.not_lt_zero i), hok, hoip⟩
    · rw [dif_pos hok]
      exact hfail (not_waits_of_failed hok) _ _ hok

/-- A wait has one end. -/
theorem Waits.unique {answers : Answers} {n j k : Nat} (hj : Waits answers n j)
    (hk : Waits answers n k) : j = k := by
  obtain ⟨-, hbeforej, hreadyj⟩ := hj
  obtain ⟨-, hbeforek, hreadyk⟩ := hk
  rcases Nat.lt_trichotomy j k with hlt | heq | hlt
  · exact absurd hreadyj (hbeforek j hlt).not_showsReady
  · exact heq
  · exact absurd hreadyk (hbeforej k hlt).not_showsReady

/-! ## Commands

Only a SET_FEATURES is not answered with the status of the sequence. -/

/-- A command followed by the check of its status. -/
theorem device_sent {c : NandCmd} (hc : ∀ reg value, c ≠ .setFeatures reg value)
    {R : Status → ρ × Answers → Prop} {K : ρ × Answers → Prop} {x : ρ} {answers : Answers}
    (hok : (answers 0).status = amHalStatusSuccess →
      K (D.next x c (D.view x c (answers 0)), answers.after 1))
    (hfail : (answers 0).status ≠ amHalStatusSuccess →
      ∀ st s, st ≠ amHalStatusSuccess → R st s) :
    Handler.cmd D.handler c (Sent R K) (x, answers) := by
  apply cmd_device
  have hstatus := D.status_view x c (answers 0) hc
  refine ⟨fun h => hok (hstatus.symm.trans h), fun h => ?_⟩
  exact hfail (fun h' => h (hstatus.trans h')) _ _ h

/-- A command after which every way on is as claimed. -/
theorem device_sent_total {c : NandCmd} {R : Status → ρ × Answers → Prop}
    {K : ρ × Answers → Prop} {s : ρ × Answers} (hR : ∀ st s', R st s') (hK : ∀ s', K s') :
    Handler.cmd D.handler c (Sent R K) s :=
  cmd_device ⟨fun _ => hK _, fun _ => hR _ _⟩

/-! ## Page reads and page copies -/

/-- A page read succeeds, with the chip ready at the `j`-th poll: the PAGE_READ, the wait and the
READ_CACHE do. -/
def Reads (answers : Answers) (j : Nat) : Prop :=
  (answers 0).status = amHalStatusSuccess ∧
    Waits (answers.after 1) (pollBudget pageReadTimeUs) j ∧
    (answers (j + 2)).status = amHalStatusSuccess

/-- Where everything succeeds and the chip is always ready, so does a read. -/
theorem reads_zero : Reads (fun _ => .zero) 0 := by
  refine ⟨rfl, ⟨by decide, fun i hi => absurd hi (Nat.not_lt_zero i), rfl, ?_⟩, rfl⟩
  decide

theorem device_readPage {pageAddr : UInt32} {offset : UInt16} {data : List UInt8} {len : UInt32}
    {eccFatal : Option Bool} {R : ReadResult → ρ × Answers → Prop} {x : ρ} {answers : Answers}
    (hreads : ∀ j x', Reads answers j →
      x' = D.next x (.pageRead (rowOf pageAddr))
        (D.view x (.pageRead (rowOf pageAddr)) (answers 0)) →
      ∀ s, R ⟨amHalStatusSuccess, received len.toNat data
        (D.view x' (.readCache offset.toNat len.toNat) (answers (j + 2))),
        eccFatal.map fun _ => nandStatusToEcc ((answers (j + 1)).bytes 0) = .fatal⟩ s)
    (hfails : (∀ j, ¬ Reads answers j) →
      ∀ read s, read.ui32Status ≠ amHalStatusSuccess → R read s) :
    wpS D.handler E (nandReadPage pageAddr offset data len eccFatal) R (x, answers) := by
  apply wpS_readPage
  apply device_sent (by nofun)
  · intro hread
    refine device_wait (fun j hwait => ?_) fun hnone => ?_
    · -- the chip is ready: the READ_CACHE decides
      apply cmd_device
      simp only [Answers.after_zero]
      generalize hx' : D.next x (.pageRead (rowOf pageAddr)) _ = x'
      have hstatus : (D.view x' (.readCache offset.toNat len.toNat) (answers (j + 2))).status =
          (answers (j + 2)).status := D.status_view _ _ _ nofun
      by_cases hcache : (answers (j + 2)).status = amHalStatusSuccess
      · have hR := hreads j x' ⟨hread, hwait, hcache⟩ hx'.symm
        rw [← hcache, ← hstatus] at hR
        exact hR _
      · have hnone : ∀ k, ¬ Reads answers k := by
          intro k hk
          obtain rfl := hk.2.1.unique hwait
          exact hcache hk.2.2
        exact hfails hnone _ _ (fun hok => hcache (hstatus.symm.trans hok))
    · exact fun st s hst => hfails (fun j hj => hnone j hj.2.1) _ s hst
  · intro hfail
    exact fun st s hst => hfails (fun j hj => hfail hj.1) _ s hst

/-- A page read that succeeds, and how. -/
theorem device_readPage_of_reads {pageAddr : UInt32} {offset : UInt16} {data : List UInt8}
    {len : UInt32} {eccFatal : Option Bool} {R : ReadResult → ρ × Answers → Prop} {x x' : ρ}
    {answers : Answers} {j : Nat} (hj : Reads answers j)
    (hx : x' = D.next x (.pageRead (rowOf pageAddr))
      (D.view x (.pageRead (rowOf pageAddr)) (answers 0)))
    (hR : ∀ s, R ⟨amHalStatusSuccess, received len.toNat data
      (D.view x' (.readCache offset.toNat len.toNat) (answers (j + 2))),
      eccFatal.map fun _ => nandStatusToEcc ((answers (j + 1)).bytes 0) = .fatal⟩ s) :
    wpS D.handler E (nandReadPage pageAddr offset data len eccFatal) R (x, answers) := by
  apply device_readPage
  · intro j' x'' hj' hx'
    -- the wait has one end
    have hends : j' = j := hj'.2.1.unique hj.2.1
    rw [hends, hx', ← hx]
    exact hR
  · intro hnone
    exact absurd hj (hnone j)

/-- A page read that does not succeed. -/
theorem device_readPage_of_not_reads {pageAddr : UInt32} {offset : UInt16} {data : List UInt8}
    {len : UInt32} {eccFatal : Option Bool} {R : ReadResult → ρ × Answers → Prop} {x : ρ}
    {answers : Answers} (hnone : ∀ j, ¬ Reads answers j)
    (hR : ∀ read s, read.ui32Status ≠ amHalStatusSuccess → R read s) :
    wpS D.handler E (nandReadPage pageAddr offset data len eccFatal) R (x, answers) := by
  apply device_readPage
  · intro j x' hj
    exact absurd hj (hnone j)
  · intro _
    exact hR

/-- The cache is written back: WRITE_ENABLE, PROGRAM_LOAD_RANDOM and PROGRAM_EXECUTE succeed, and
the chip is ready at the `k`-th poll after them. -/
def WritesBack (answers : Answers) (k : Nat) : Prop :=
  (answers 0).status = amHalStatusSuccess ∧ (answers 1).status = amHalStatusSuccess ∧
    (answers 2).status = amHalStatusSuccess ∧
    Waits (answers.after 3) (pollBudget programTimeUs) k

theorem device_writeBack {row column : Nat} {data : List UInt8}
    {R : Status → ρ × Answers → Prop} {K : UInt8 → ρ × Answers → Prop} {x : ρ} {answers : Answers}
    (hdone : ∀ k, WritesBack answers k → ∀ s, K ((answers.after 3 k).bytes 0) s)
    (hfail : (∀ k, ¬ WritesBack answers k) → ∀ st s, st ≠ amHalStatusSuccess → R st s) :
    Handler.cmd D.handler .writeEnable (Sent R <|
      Handler.cmd D.handler (.programLoadRandom column data) <| Sent R <|
      Handler.cmd D.handler (.programExecute row) <| Sent R <|
      Handler.polls D.handler (pollBudget programTimeUs) <| Waited R K) (x, answers) := by
  refine device_sent (by nofun) (fun henable => ?_) fun h => hfail fun k hk => h hk.1
  refine device_sent (by nofun) (fun hload => ?_) fun h => hfail fun k hk => h hk.2.1
  refine device_sent (by nofun) (fun hexecute => ?_) fun h => hfail fun k hk => h hk.2.2.1
  refine device_wait (fun k hwait => ?_) fun hnone => hfail fun k hk => hnone k hk.2.2.2
  exact hdone k ⟨henable, hload, hexecute, hwait⟩ _

/-- A page copy succeeds, with the chip ready at the `j`-th poll of the read, whose status shows
no fatal error, and at the `k`-th poll of the program. -/
def Copies (answers : Answers) (j k : Nat) : Prop :=
  (answers 0).status = amHalStatusSuccess ∧
    Waits (answers.after 1) (pollBudget pageReadTimeUs) j ∧
    nandStatusToEcc ((answers (j + 1)).bytes 0) ≠ .fatal ∧
    WritesBack (answers.after (j + 2)) k

/-- Where everything succeeds and the chip is always ready, so does a copy. -/
theorem copies_zero : Copies (fun _ => .zero) 0 0 := by
  refine ⟨rfl, ⟨by decide, fun i hi => absurd hi (Nat.not_lt_zero i), rfl, by decide⟩,
    by decide, ?_⟩
  exact ⟨rfl, rfl, rfl, by decide, fun i hi => absurd hi (Nat.not_lt_zero i), rfl, by decide⟩

/-- `nand_copy_page` with a pointer for the ECC flag: it succeeds as `Copies` says, and then has
not written the flag. -/
theorem device_copyPage {srcPageAddr destPageAddr : UInt32} {flag : Bool}
    {R : Status × Option Bool → ρ × Answers → Prop} {x : ρ} {answers : Answers}
    (hcopies : ∀ j k, Copies answers j k → ∀ s, R (amHalStatusSuccess, some flag) s)
    (hfails : (∀ j k, ¬ Copies answers j k) →
      ∀ st flag' s, st ≠ amHalStatusSuccess → R (st, flag') s) :
    wpS D.handler E (nandCopyPage srcPageAddr destPageAddr (some flag)) R (x, answers) := by
  apply wpS_copyPage
  refine device_sent (by nofun) (fun hread => ?_) fun h st s => hfails (fun j k hk => h hk.1) st _ s
  refine device_wait (fun j hwait => ?_) fun h st s => hfails (fun j k hk => h j hk.2.1) st _ s
  -- a copy that succeeds is one with this `j`
  have hj : ∀ {j' k}, Copies answers j' k → j' = j := fun h => h.2.1.unique hwait
  by_cases hfatal : nandStatusToEcc ((answers (j + 1)).bytes 0) = .fatal
  · have herr : amHalStatusHwErr ≠ amHalStatusSuccess := by decide
    have hnone : ∀ j' k, ¬ Copies answers j' k := by
      intro j' k h
      obtain rfl := hj h
      exact h.2.2.1 hfatal
    rw [if_pos ⟨hfatal, nofun⟩]
    exact hfails hnone _ _ _ herr
  · rw [if_neg fun h => hfatal h.1]
    apply device_writeBack (fun k hback s => hcopies j k ⟨hread, hwait, hfatal, hback⟩ s)
    intro hnone st s
    refine hfails (fun j' k h => ?_) st _ s
    obtain rfl := hj h
    exact hnone k h.2.2.2

end Device

/-! ## Outcomes -/

/-- What a function returns on a device, from a sequence of answers and a stack. -/
def outcome (D : Device ρ) (x : ρ) (m : DriverM α) (d : Driver) (answers : Answers)
    (stack : Nat → Answer) : Except Halt α :=
  ((m d).eval (withStack D.env) ((x, answers), stack)).1.map Prod.fst

/-- What a function sends and receives on a device, from a sequence of answers and a stack. -/
def conversation (D : Device ρ) (x : ρ) (m : DriverM α) (d : Driver) (answers : Answers)
    (stack : Nat → Answer) : Trace :=
  (m d).trace (withStack D.env) ((x, answers), stack)

/-- A verified function has the outcome that was verified, whatever is on the stack. -/
theorem outcome_map_eq {β : Type} {D : Device ρ} {x : ρ} {m : DriverM α} {answers : Answers}
    {f : α → β} {o : Except Halt β}
    (h : wpS D.handler (fun e _ => o = .error e) m (fun a _ => o = .ok (f a)) (x, answers))
    (d : Driver) (stack : Nat → Answer) : (outcome D x m d answers stack).map f = o := by
  have hwp := wp_withStack (h d) stack
  rw [wp_env_iff] at hwp
  unfold outcome
  match heval : (m d).eval (withStack D.env) ((x, answers), stack) with
  | (.ok r, s') => rw [heval] at hwp; exact hwp.symm
  | (.error e, s') => rw [heval] at hwp; exact hwp.symm

theorem outcome_eq {D : Device ρ} {x : ρ} {m : DriverM α} {answers : Answers} {o : Except Halt α}
    (h : wpS D.handler (fun e _ => o = .error e) m (fun a _ => o = .ok a) (x, answers))
    (d : Driver) (stack : Nat → Answer) : outcome D x m d answers stack = o := by
  have hmap := outcome_map_eq (f := id) h d stack
  rwa [Except.map_id, id] at hmap

/-- A local variable without an initialiser is what is on top of the stack. -/
theorem outcome_uninitBool {D : Device ρ} {x : ρ} (f : Bool → DriverM α) (d : Driver)
    (answers : Answers) (stack : Nat → Answer) :
    outcome D x (uninitBool >>= f) d answers stack =
      outcome D x (f ((stack 0).bytes 0 ≠ 0)) d answers (fun n => stack (n + 1)) := rfl

end SpiNand
