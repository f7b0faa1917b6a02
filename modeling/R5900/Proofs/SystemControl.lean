import R5900.Proofs.Arithmetic
import R5900.Proofs.BitField
import R5900.SystemControl

/-!
# System control

The fields of the control registers are independent of each other: the simp lemmas say what each
change of a field leaves alone. From these follows what taking an exception does.

* `SystemControl.raise_eq_ok`: the address of a handler never wraps, so taking an exception does
  not fault; `SystemControl.handler` is that address.
* `SystemControl.Records`: what the registers record of an exception; `SystemControl.records_enter`
  says that entering its handler records it.
* `SystemControl.Admits`: the condition under which an interrupt is taken. It concerns the latched
  lines, which are published just before (`SystemControl.interruptDue_publish`).
-/

namespace R5900

/-! ## Cause -/

namespace Cause

variable (c : Cause)

theorem code_eq : c.code = (c.bits &&& 0x7C) >>> 2 := by
  rw [UInt32.shiftRight_and]
  rfl

@[simp] theorem code_setLines (lines : UInt32) : (c.setLines lines).code = c.code := by
  rw [code_eq, code_eq, setLines, replace_and_of_disjoint _ _ (by decide)]

@[simp] theorem inDelaySlot_setLines (lines : UInt32) :
    (c.setLines lines).inDelaySlot = c.inDelaySlot := by
  have hmask : testBit32 lineMask 31 = false := by decide
  simp [inDelaySlot, setLines, hmask]

@[simp] theorem lines_setLines (lines : UInt32) : (c.setLines lines).lines = lines &&& lineMask :=
  replace_and_self ..

@[simp] theorem code_setCode (e : Exception) : (c.setCode e.code).code = e.code := by
  rw [code_eq, setCode, replace_and_self]
  cases e <;> simp only [Exception.code] <;> decide

@[simp] theorem inDelaySlot_setCode (code : UInt32) :
    (c.setCode code).inDelaySlot = c.inDelaySlot := by
  have hmask : testBit32 0x7C 31 = false := by decide
  simp [inDelaySlot, setCode, hmask]

@[simp] theorem lines_setCode (code : UInt32) : (c.setCode code).lines = c.lines :=
  replace_and_of_disjoint _ _ (by decide)

@[simp] theorem code_setInDelaySlot (value : Bool) : (c.setInDelaySlot value).code = c.code := by
  rw [code_eq, code_eq, setInDelaySlot, putBit32_and value (by decide)]

@[simp] theorem inDelaySlot_setInDelaySlot (value : Bool) :
    (c.setInDelaySlot value).inDelaySlot = value := by
  rw [inDelaySlot, setInDelaySlot, testBit32_putBit32, if_pos rfl]

@[simp] theorem lines_setInDelaySlot (value : Bool) : (c.setInDelaySlot value).lines = c.lines :=
  putBit32_and value (by decide)

end Cause

/-! ## Status -/

theorem Status.exceptionLevel_setExceptionLevel (status : Status) (value : Bool) :
    (status.setExceptionLevel value).exceptionLevel = value := by
  rw [exceptionLevel, setExceptionLevel, testBit32_putBit32, if_pos rfl]

namespace SystemControl

variable (s : SystemControl)

/-! ## Registers -/

theorem get_put_self (r : ControlReg) (value : UInt32) : (s.put r value).get r = value := by
  simp [get, put]

theorem get_put_of_ne {r r' : ControlReg} (value : UInt32) (h : r ≠ r') :
    (s.put r value).get r' = s.get r' := by
  obtain ⟨i⟩ := r
  obtain ⟨j⟩ := r'
  have hij : i.val ≠ j.val := fun heq => h (congrArg ControlReg.mk (Fin.ext heq))
  exact Vector.getElem_set_ne i.isLt j.isLt hij

theorem status_put_of_ne {r : ControlReg} (value : UInt32) (h : r ≠ .status) :
    (s.put r value).status = s.status :=
  congrArg Status.mk (s.get_put_of_ne value h)

@[simp] theorem status_setCause (cause : Cause) : (s.setCause cause).status = s.status :=
  s.status_put_of_ne _ (by decide)

@[simp] theorem status_setStatus (status : Status) : (s.setStatus status).status = status :=
  congrArg Status.mk (s.get_put_self _ _)

@[simp] theorem cause_setCause (cause : Cause) : (s.setCause cause).cause = cause :=
  congrArg Cause.mk (s.get_put_self _ _)

/-! ## Counting and publishing -/

@[simp] theorem latched_publish : s.publish.latched = s.latched := rfl

@[simp] theorem status_publish : s.publish.status = s.status :=
  s.status_setCause _

@[simp] theorem cause_publish : s.publish.cause = s.cause.setLines s.latched :=
  s.cause_setCause _

theorem get_publish_of_ne {r : ControlReg} (h : r ≠ .cause) : s.publish.get r = s.get r :=
  s.get_put_of_ne _ h.symm

theorem get_countCycles_of_ne (cycles : UInt32) {r : ControlReg} (h : r ≠ .count) :
    (s.countCycles cycles).get r = s.get r := by
  have hcount : (s.put .count (s.get .count + cycles)).get r = s.get r := s.get_put_of_ne _ h.symm
  unfold countCycles
  dsimp only
  split
  · exact hcount
  · exact hcount

@[simp] theorem status_countCycles (cycles : UInt32) :
    (s.countCycles cycles).status = s.status :=
  congrArg Status.mk (s.get_countCycles_of_ne cycles (by decide))

@[simp] theorem cause_countCycles (cycles : UInt32) : (s.countCycles cycles).cause = s.cause :=
  congrArg Cause.mk (s.get_countCycles_of_ne cycles (by decide))

/-- An interrupt is taken with the registers `s`: both enable bits are set, no exception or error is
being handled, and a latched line is let through. -/
structure Admits : Prop where
  interruptEnable : s.status.interruptEnable = true
  masterEnable : s.status.masterEnable = true
  exceptionLevel : s.status.exceptionLevel = false
  errorLevel : s.status.errorLevel = false
  line : s.latched &&& s.status.lines ≠ 0

theorem and_lineMask_and_lines (x : UInt32) (status : Status) :
    x &&& lineMask &&& status.lines = x &&& status.lines := by
  refine eq_of_testBit32 fun p => ?_
  simp only [Status.lines, testBit32_and]
  cases testBit32 lineMask p <;> simp

/-- Once the latched lines are published, an interrupt is due exactly if it is admitted. -/
theorem interruptDue_publish : s.publish.interruptDue = true ↔ s.Admits := by
  simp only [interruptDue, status_publish, cause_publish, Cause.lines_setLines,
    and_lineMask_and_lines, Bool.and_eq_true, Bool.not_eq_true', bne_iff_ne]
  constructor
  · rintro ⟨⟨⟨⟨h0, h1⟩, h2⟩, h3⟩, h4⟩
    exact ⟨h0, h1, h2, h3, h4⟩
  · rintro ⟨h0, h1, h2, h3, h4⟩
    exact ⟨⟨⟨⟨h0, h1⟩, h2⟩, h3⟩, h4⟩

/-- While an exception is being handled, no interrupt is taken. -/
theorem interruptDue_of_exceptionLevel (h : s.status.exceptionLevel = true) :
    s.interruptDue = false := by
  simp [interruptDue, h]

/-! ## Taking an exception -/

/-- The address of the handler of an exception. -/
def handler (e : Exception) : UInt32 :=
  vectorBase s.status + vectorOffset e s.status.exceptionLevel

theorem toNat_vectorBase_le (status : Status) : (vectorBase status).toNat ≤ 0xBFC00200 := by
  unfold vectorBase
  split <;> decide

theorem toNat_vectorOffset_le (e : Exception) (nested : Bool) :
    (vectorOffset e nested).toNat ≤ 0x200 := by
  cases nested with
  | true =>
    show (0x180 : UInt32).toNat ≤ 0x200
    decide
  | false => cases e <;> exact Nat.le_of_ble_eq_true rfl

/-- Taking an exception does not fault: the sum of a vector base and offset does not wrap. -/
theorem raise_eq_ok (e : Exception) (pc : UInt32) (inDelaySlot : Bool) :
    s.raise e pc inDelaySlot = .ok (s.handler e, s.enter e pc inDelaySlot) := by
  have hbase := toNat_vectorBase_le s.status
  have hoffset := toNat_vectorOffset_le e s.status.exceptionLevel
  have hsum : Checked.add32 (vectorBase s.status) (vectorOffset e s.status.exceptionLevel) =
      .ok (s.handler e) := Checked.add32_eq_ok (by omega)
  rw [raise, hsum]
  rfl

/-- What is known of the registers `s'` after the exception was taken with the registers `s`, at
`pc` or in the delay slot of the branch before it. An exception inside an exception leaves the
resume address, the delay-slot mark and the status alone. -/
structure Records (e : Exception) (pc : UInt32) (inDelaySlot : Bool) (s' : SystemControl) :
    Prop where
  code : s'.cause.code = e.code
  badVAddr : s'.get .badVAddr = e.badAddress?.getD (s.get .badVAddr)
  outermost : s.status.exceptionLevel = false →
    s'.get .epc = (if inDelaySlot then pc - 4 else pc) ∧ s'.cause.inDelaySlot = inDelaySlot ∧
      s'.status = s.status.setExceptionLevel true
  nested : s.status.exceptionLevel = true →
    s'.get .epc = s.get .epc ∧ s'.cause.inDelaySlot = s.cause.inDelaySlot ∧ s'.status = s.status

/-- The registers after the bad address of an exception, if it has one, is recorded. -/
def withBadAddress (e : Exception) : SystemControl :=
  match e.badAddress? with
  | some a => s.put .badVAddr a
  | none => s

theorem get_withBadAddress (e : Exception) :
    (s.withBadAddress e).get .badVAddr = e.badAddress?.getD (s.get .badVAddr) := by
  unfold withBadAddress
  cases e.badAddress? with
  | none => rfl
  | some a => exact s.get_put_self _ a

theorem get_withBadAddress_of_ne (e : Exception) {r : ControlReg} (h : r ≠ .badVAddr) :
    (s.withBadAddress e).get r = s.get r := by
  unfold withBadAddress
  cases e.badAddress? with
  | none => rfl
  | some a => exact s.get_put_of_ne a h.symm

theorem status_withBadAddress (e : Exception) : (s.withBadAddress e).status = s.status :=
  congrArg Status.mk (s.get_withBadAddress_of_ne e (by decide))

theorem enter_of_nested {e : Exception} {pc : UInt32} {inDelaySlot : Bool}
    (h : s.status.exceptionLevel = true) :
    s.enter e pc inDelaySlot = (s.withBadAddress e).setCause (s.cause.setCode e.code) := by
  unfold enter
  simp only [h, if_true]
  rfl

theorem enter_of_outermost {e : Exception} {pc : UInt32} {inDelaySlot : Bool}
    (h : s.status.exceptionLevel = false) :
    s.enter e pc inDelaySlot =
      (((s.withBadAddress e).put .epc (if inDelaySlot then pc - 4 else pc)).setStatus
        (s.status.setExceptionLevel true)).setCause
        ((s.cause.setCode e.code).setInDelaySlot inDelaySlot) := by
  have hstatus : ((s.withBadAddress e).put .epc (if inDelaySlot then pc - 4 else pc)).status =
      s.status := by
    rw [status_put_of_ne _ _ (by decide), status_withBadAddress]
  rw [← hstatus]
  unfold enter
  simp only [h, Bool.false_eq_true, if_false]
  rfl

/-- Taking an exception records it. -/
theorem records_enter (e : Exception) (pc : UInt32) (inDelaySlot : Bool) :
    s.Records e pc inDelaySlot (s.enter e pc inDelaySlot) := by
  cases hnested : s.status.exceptionLevel with
  | true =>
    rw [enter_of_nested s hnested]
    refine ⟨?_, ?_, fun h => ?_, fun _ => ⟨?_, ?_, ?_⟩⟩
    · rw [cause_setCause, Cause.code_setCode]
    · exact (get_put_of_ne _ _ (by decide)).trans (s.get_withBadAddress e)
    · rw [hnested] at h
      cases h
    · exact (get_put_of_ne _ _ (by decide)).trans (s.get_withBadAddress_of_ne e (by decide))
    · rw [cause_setCause, Cause.inDelaySlot_setCode]
    · rw [status_setCause, status_withBadAddress]
  | false =>
    rw [enter_of_outermost s hnested]
    refine ⟨?_, ?_, fun _ => ⟨?_, ?_, ?_⟩, fun h => ?_⟩
    · rw [cause_setCause, Cause.code_setInDelaySlot, Cause.code_setCode]
    · refine (get_put_of_ne _ _ (by decide)).trans ((get_put_of_ne _ _ (by decide)).trans ?_)
      exact (get_put_of_ne _ _ (by decide)).trans (s.get_withBadAddress e)
    · refine (get_put_of_ne _ _ (by decide)).trans ((get_put_of_ne _ _ (by decide)).trans ?_)
      exact get_put_self _ _ _
    · rw [cause_setCause, Cause.inDelaySlot_setInDelaySlot]
    · rw [status_setCause, status_setStatus]
    · rw [hnested] at h
      cases h

/-- Taking an exception sets the exception level. -/
theorem exceptionLevel_enter (e : Exception) (pc : UInt32) (inDelaySlot : Bool) :
    (s.enter e pc inDelaySlot).status.exceptionLevel = true := by
  have hrecords := s.records_enter e pc inDelaySlot
  cases hnested : s.status.exceptionLevel with
  | true => rw [(hrecords.nested hnested).2.2, hnested]
  | false =>
    rw [(hrecords.outermost hnested).2.2, Status.exceptionLevel_setExceptionLevel]

/-- Taking an exception latches and releases no line. -/
@[simp] theorem latched_enter (e : Exception) (pc : UInt32) (inDelaySlot : Bool) :
    (s.enter e pc inDelaySlot).latched = s.latched := by
  have haddress : (s.withBadAddress e).latched = s.latched := by
    unfold withBadAddress
    split <;> rfl
  cases h : s.status.exceptionLevel with
  | true =>
    rw [s.enter_of_nested h]
    exact haddress
  | false =>
    rw [s.enter_of_outermost h]
    exact haddress

/-- Taking an exception leaves the lines alone that the cause register shows. -/
@[simp] theorem lines_cause_enter (e : Exception) (pc : UInt32) (inDelaySlot : Bool) :
    (s.enter e pc inDelaySlot).cause.lines = s.cause.lines := by
  cases h : s.status.exceptionLevel with
  | true => rw [s.enter_of_nested h, cause_setCause, Cause.lines_setCode]
  | false =>
    rw [s.enter_of_outermost h, cause_setCause, Cause.lines_setInDelaySlot, Cause.lines_setCode]

/-- Taking an exception leaves the lines alone that are let through. -/
@[simp] theorem lines_status_enter (e : Exception) (pc : UInt32) (inDelaySlot : Bool) :
    (s.enter e pc inDelaySlot).status.lines = s.status.lines := by
  have hrecords := s.records_enter e pc inDelaySlot
  cases h : s.status.exceptionLevel with
  | true => rw [(hrecords.nested h).2.2]
  | false =>
    rw [(hrecords.outermost h).2.2]
    exact putBit32_and true (by decide)

end SystemControl

end R5900
