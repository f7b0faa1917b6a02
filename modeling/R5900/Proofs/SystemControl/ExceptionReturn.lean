import R5900.Proofs.SystemControl

/-!
# Leaving exceptions

An exception inside an exception leaves the resume address, the delay-slot mark and the status
register alone, so one return leaves all of them at once, for the place where the first one was
taken.

* `SystemControl.Nests`: what a sequence of exceptions records that are taken inside an exception;
  `SystemControl.raiseAll_of_nested` takes them one by one.
* `SystemControl.exceptionReturn_undoes`: returning after an exception and any others inside it.
-/

namespace R5900

namespace Status

variable (status : Status)

@[simp] theorem errorLevel_setExceptionLevel (value : Bool) :
    (status.setExceptionLevel value).errorLevel = status.errorLevel := by
  rw [errorLevel, setExceptionLevel, testBit32_putBit32, if_neg (by decide)]
  rfl

/-- Setting the exception level back to what it was restores the register bit for bit. -/
theorem setExceptionLevel_setExceptionLevel {status : Status} {value : Bool}
    (h : status.exceptionLevel = value) (value' : Bool) :
    (status.setExceptionLevel value').setExceptionLevel value = status := by
  obtain ⟨bits⟩ := status
  refine congrArg Status.mk (eq_of_testBit32 fun q => ?_)
  show testBit32 (putBit32 (putBit32 bits 1 value') 1 value) q = testBit32 bits q
  rw [testBit32_putBit32, testBit32_putBit32]
  split
  · rename_i hq
    rw [← testBit32_of_toNat_mod hq]
    exact h.symm
  · rfl

end Status

namespace SystemControl

variable {s s' : SystemControl}

/-! ## Handlers -/

theorem handler_of_outermost (h : s.status.exceptionLevel = false) (e : Exception) :
    s.handler e = vectorBase s.status + vectorOffset e false := by
  rw [handler, h]

/-- Taking an exception leaves the registers alone that record nothing of it. -/
theorem get_enter_of_ne (e : Exception) (pc : UInt32) (inDelaySlot : Bool) {r : ControlReg}
    (hepc : r ≠ .epc) (hcause : r ≠ .cause) (haddress : r ≠ .badVAddr) (hstatus : r ≠ .status) :
    (s.enter e pc inDelaySlot).get r = s.get r := by
  cases h : s.status.exceptionLevel with
  | true =>
    rw [s.enter_of_nested h]
    exact (get_put_of_ne _ _ hcause.symm).trans (s.get_withBadAddress_of_ne e haddress)
  | false =>
    rw [s.enter_of_outermost h]
    refine (get_put_of_ne _ _ hcause.symm).trans ((get_put_of_ne _ _ hstatus.symm).trans ?_)
    exact (get_put_of_ne _ _ hepc.symm).trans (s.get_withBadAddress_of_ne e haddress)

theorem exceptionReturn_of_not_error (h : s.status.errorLevel = false) :
    s.exceptionReturn = (s.get .epc, s.setStatus (s.status.setExceptionLevel false)) := by
  rw [exceptionReturn, h]
  rfl

theorem get_exceptionReturn_of_ne (s : SystemControl) {r : ControlReg} (h : r ≠ .status) :
    s.exceptionReturn.2.get r = s.get r := by
  unfold exceptionReturn
  split <;> exact get_put_of_ne _ _ h.symm

theorem latched_exceptionReturn (s : SystemControl) : s.exceptionReturn.2.latched = s.latched := by
  unfold exceptionReturn
  split <;> rfl

theorem cause_exceptionReturn (s : SystemControl) : s.exceptionReturn.2.cause = s.cause :=
  congrArg Cause.mk (s.get_exceptionReturn_of_ne (by decide))

/-! ## Sequences of exceptions -/

/-- An exception to be taken at an address, or in the delay slot of the branch before it. -/
structure Raising where
  exception : Exception
  pc : UInt32
  inDelaySlot : Bool

/-- Where to resume after an exception that is taken inside no other. -/
def Raising.resume (r : Raising) : UInt32 := if r.inDelaySlot then r.pc - 4 else r.pc

/-- The code of the last exception, or else the given one. -/
def lastCode (code : UInt32) (rs : List Raising) : UInt32 :=
  rs.foldl (fun _ r => r.exception.code) code

/-- The address of the last exception that is about one, or else the given one. -/
def lastAddress (address : UInt32) (rs : List Raising) : UInt32 :=
  rs.foldl (fun a r => r.exception.badAddress?.getD a) address

/-- What is known of the registers `s'` and the handlers after the exceptions `rs` were taken inside
an exception, with the registers `s`: every handler is the common one, and only the code and the
address of the last exceptions are recorded. -/
structure Nests (s : SystemControl) (rs : List Raising) (handlers : List UInt32)
    (s' : SystemControl) : Prop where
  handlers : handlers = List.replicate rs.length (vectorBase s.status + 0x180)
  status : s'.status = s.status
  epc : s'.get .epc = s.get .epc
  inDelaySlot : s'.cause.inDelaySlot = s.cause.inDelaySlot
  code : s'.cause.code = lastCode s.cause.code rs
  badVAddr : s'.get .badVAddr = lastAddress (s.get .badVAddr) rs
  others : ∀ r, r ≠ .epc → r ≠ .cause → r ≠ .badVAddr → s'.get r = s.get r
  latched : s'.latched = s.latched
  lines : s'.cause.lines = s.cause.lines

theorem Nests.refl (s : SystemControl) : s.Nests [] [] s :=
  ⟨rfl, rfl, rfl, rfl, rfl, rfl, fun _ _ _ _ => rfl, rfl, rfl⟩

/-- What is known of the address `target` and the registers `s'` after the exception `first` was
taken with the registers `s`, then the exceptions `rest` inside it, and then all of them were left:
the processor is where the first one was taken and as it was, but for what exceptions record. -/
structure Resumes (s : SystemControl) (first : Raising) (rest : List Raising) (target : UInt32)
    (s' : SystemControl) : Prop where
  target : target = first.resume
  status : s'.status = s.status
  others : ∀ r, r ≠ .epc → r ≠ .cause → r ≠ .badVAddr → s'.get r = s.get r
  latched : s'.latched = s.latched
  epc : s'.get .epc = first.resume
  inDelaySlot : s'.cause.inDelaySlot = first.inDelaySlot
  lines : s'.cause.lines = s.cause.lines
  code : s'.cause.code = ((first :: rest).getLast (List.cons_ne_nil _ _)).exception.code
  badVAddr : s'.get .badVAddr =
    (((first :: rest).filterMap (·.exception.badAddress?)).getLast?).getD (s.get .badVAddr)

theorem lastCode_eq (first : Raising) (rest : List Raising) :
    lastCode first.exception.code rest =
      ((first :: rest).getLast (List.cons_ne_nil _ _)).exception.code := by
  induction rest generalizing first with
  | nil => rfl
  | cons r rest ih =>
    rw [List.getLast_cons (List.cons_ne_nil _ _)]
    exact ih r

theorem lastAddress_eq (address : UInt32) (rs : List Raising) :
    lastAddress address rs =
      ((rs.filterMap (·.exception.badAddress?)).getLast?).getD address := by
  induction rs generalizing address with
  | nil => rfl
  | cons r rest ih =>
    have hcons : lastAddress address (r :: rest) =
        lastAddress (r.exception.badAddress?.getD address) rest := rfl
    rw [hcons, ih]
    cases h : r.exception.badAddress? with
    | none => simp only [List.filterMap_cons, h, Option.getD_none]
    | some a => simp only [List.filterMap_cons, h, List.getLast?_cons, Option.getD_some]

/-- Exceptions that begin inside no other exception or error are left for the place where the first
one was taken. -/
theorem resumes_of_nests {first : Raising} {rest : List Raising} {handlers : List UInt32}
    (hlevel : s.status.exceptionLevel = false) (herror : s.status.errorLevel = false)
    (h : (s.enter first.exception first.pc first.inDelaySlot).Nests rest handlers s') :
    s.Resumes first rest s'.exceptionReturn.1 s'.exceptionReturn.2 := by
  have hrecords := s.records_enter first.exception first.pc first.inDelaySlot
  obtain ⟨hepc, hslot, hstatus⟩ := hrecords.outermost hlevel
  have hepc' : s'.get .epc = first.resume := h.epc.trans hepc
  have hstatus' : s'.status = s.status.setExceptionLevel true := h.status.trans hstatus
  have hreturn : s'.exceptionReturn =
      (s'.get .epc, s'.setStatus (s'.status.setExceptionLevel false)) :=
    exceptionReturn_of_not_error
      (by rw [hstatus', Status.errorLevel_setExceptionLevel, herror])
  have hrestored : s'.exceptionReturn.2.status = s.status := by
    rw [hreturn, status_setStatus, hstatus', Status.setExceptionLevel_setExceptionLevel hlevel]
  refine ⟨?_, hrestored, ?_, ?_, ?_, ?_, ?_, ?_, ?_⟩
  · rw [hreturn]
    exact hepc'
  · intro r hr hcause haddress
    by_cases hr' : r = .status
    · subst hr'
      exact congrArg Status.bits hrestored
    · rw [get_exceptionReturn_of_ne _ hr', h.others r hr hcause haddress]
      exact get_enter_of_ne _ _ _ hr hcause haddress hr'
  · rw [latched_exceptionReturn, h.latched, latched_enter]
  · rw [get_exceptionReturn_of_ne _ (by decide), hepc']
  · rw [cause_exceptionReturn, h.inDelaySlot, hslot]
  · rw [cause_exceptionReturn, h.lines, lines_cause_enter]
  · rw [cause_exceptionReturn, h.code, hrecords.code, lastCode_eq]
  · rw [get_exceptionReturn_of_ne _ (by decide), h.badVAddr, hrecords.badVAddr, ← lastAddress_eq]
    rfl

/-- An exception that begins inside no other exception or error is left for the place where it was
taken. -/
theorem resumes_of_enter (hlevel : s.status.exceptionLevel = false)
    (herror : s.status.errorLevel = false) (first : Raising) :
    s.Resumes first [] (s.enter first.exception first.pc first.inDelaySlot).exceptionReturn.1
      (s.enter first.exception first.pc first.inDelaySlot).exceptionReturn.2 :=
  resumes_of_nests hlevel herror (.refl _)

end SystemControl

end R5900
