import R5900.Proofs.Device.BitAction
import R5900.Proofs.Device.Registers
import R5900.Proofs.Device.TimerInterrupt
import R5900.Proofs.Device.WellFormed

/-!
# The history of timer interrupts

Bus cycles, accesses to the registers and takes of the raised interrupts come in any order. This
module says when an interrupt is among those that are taken.

* `Timer.actsOnBit_flag`: a write clears a flag if it stores a one into it, and does nothing to it
  otherwise, whatever its width.
* `TimerOperation.isSet_of_perform`, `TimerOperation.raises_of_perform`: what one operation does to
  the flags and to the raised interrupts.
* `Timer.interrupts_once`: a take returns the interrupt of a timer exactly if one of its flags has
  risen since the take before; and once a flag has risen, it does not rise again until it is
  acknowledged.
-/

namespace R5900

open Peripheral (ActsOnBit Keeps)

/-! ## Flags and writes -/

namespace Counter

theorem mode_written_of_ne (c : Counter) (i : Fin 4) {offset : UInt32} (word : UInt32)
    (h : offset ≠ 0x10) : (c.written i offset word).mode = c.mode := by
  unfold written
  split
  case h_2 => exact absurd rfl h
  case h_4 => split <;> rfl
  all_goals rfl

/-- Of the words written to the registers of a counter, one written to the mode clears the flags that
are one in it. -/
theorem isSet_written (c : Counter) (i : Fin 4) (offset word : UInt32) (flag : CounterFlag) :
    flag.isSet (c.written i offset word) =
      if offset = 0x10 then flag.isSet c && !testBit32 word flag.position.toUInt32
      else flag.isSet c := by
  split
  · rename_i h
    subst h
    have hword := testBit_toUInt16 word flag.position.toUInt32
    rw [flag.isSet_eq, flag.isSet_eq]
    refine (testBit_writeMode c word.toUInt16 _).trans ?_
    cases flag with
    | equal => exact congrArg (fun bit => _ && !bit) hword
    | overflow => exact congrArg (fun bit => _ && !bit) hword
  · rename_i h
    exact isSet_of_mode (c.mode_written_of_ne i word h) flag

end Counter

namespace Timer

/-- The address of the mode of a timer. -/
def modeAddress (i : Fin 4) : UInt32 := base + UInt32.ofNat i.val * stride + 0x10

theorem register?_modeAddress (i : Fin 4) : register? (modeAddress i) = some (i, 0x10) := by
  revert i
  decide

theorem eq_modeAddress_iff {a : UInt32} {i : Fin 4} :
    a = modeAddress i ↔ index? a = some i ∧ offset a = 0x10 := by
  constructor
  · rintro rfl
    obtain ⟨hindex, hoffset, -⟩ := register?_eq_some_iff.1 (register?_modeAddress i)
    exact ⟨hindex, hoffset⟩
  · rintro ⟨hindex, hoffset⟩
    exact eq_of_register? (register?_eq_some_iff.2 ⟨hindex, hoffset, .inr (.inl rfl)⟩)
      (register?_modeAddress i)

/-- **A flag is cleared by a one that is stored into it**, and a write does nothing else to it. -/
theorem actsOnBit_flag (i : Fin 4) (flag : CounterFlag) :
    ActsOnBit (modeAddress i) flag.position.toUInt32
      (fun t : Timer => flag.isSet (t.counters.get i)) fun y s => y && !s where
  reads t address := congrArg (fun t : Timer => flag.isSet (t.counters.get i))
    (device_readWord t address)
  writes t address word := by
    show flag.isSet ((t.writeWord address word).device.counters.get i) = _
    rw [device_writeWord]
    cases hindex : index? address with
    | none =>
      rw [if_neg fun h => by cases hindex.symm.trans (eq_modeAddress_iff.1 h).1]
      rfl
    | some j =>
      show flag.isSet ((t.counters.set j
        ((t.counters.get j).written j (offset address) word))[i.val]) = _
      by_cases hij : j = i
      · subst hij
        have hiff : address = modeAddress j ↔ offset address = 0x10 :=
          eq_modeAddress_iff.trans (and_iff_right hindex)
        rw [Vector.getElem_set_self, Counter.isSet_written]
        simp only [hiff]
      · rw [Vector.getElem_set_ne _ _ fun heq => hij (Fin.ext heq), if_neg fun h => hij ?_]
        · rfl
        · exact Option.some.inj (hindex.symm.trans (eq_modeAddress_iff.1 h).1)
  idle y := Bool.and_true y
  carriesNone := by
    revert i
    cases flag <;> decide
  doubleReads _ _ := rfl
  doubleWrites _ _ _ := rfl

/-- Accesses leave the raised interrupts. -/
theorem keeps_raised (raised : UInt8) : Keeps fun t : Timer => t.raised = raised :=
  Peripheral.keeps_of_words (fun t address ht => (device_readWord t address).symm ▸ ht)
    (fun t address value ht => (raised_writeWord t address value).trans ht)
    (fun _ _ => rfl) (fun _ _ _ => rfl)

end Timer

/-! ## Operations -/

/-- What is done with the timers. -/
inductive TimerOperation where
  | step
  | take
  | read (w : Width) (address : UInt32)
  | write (w : Width) (address : UInt32) (value : w.Value)

namespace TimerOperation

/-- The timers after an operation. -/
def perform (t : Timer) : TimerOperation → Except Fault Timer
  | step => t.step
  | take => .ok t.take.2
  | read w address => Reply.device <$> Peripheral.read w t address
  | write w address value => Reply.device <$> Peripheral.write w t address value

/-- Accesses are made at the addresses of the timers, and writes are aligned. -/
def Admissible : TimerOperation → Prop
  | step => True
  | take => True
  | read _ address => (Timer.index? address).isSome = true
  | write w address _ => (Timer.index? address).isSome = true ∧ w.bytes ∣ address.toNat

/-- The operation stores a one into the place of a flag of the timer `i`. -/
def acknowledges (i : Fin 4) (flag : CounterFlag) : TimerOperation → Bool
  | write w address value =>
    w.storedBit address value (Timer.modeAddress i) flag.position.toUInt32
  | _ => false

section Perform

variable {operation : TimerOperation} {t t' : Timer} (h : operation.Admissible)
include h

/-- An operation on bounded timers succeeds, and leaves them bounded. -/
theorem perform_eq_ok (ht : t.Bounded) : ∃ t', operation.perform t = .ok t' ∧ t'.Bounded := by
  have hfits {address : UInt32} (hindex : (Timer.index? address).isSome = true) :
      address.toNat + 12 < 2 ^ 32 := by
    obtain ⟨i, hi⟩ := Option.isSome_iff_exists.1 hindex
    have hbounds := Timer.bounds_of_index? hi
    omega
  cases operation with
  | step => exact Timer.step_eq_ok ht
  | take => exact ⟨_, rfl, ht⟩
  | read w address =>
    obtain ⟨r, hr⟩ := Peripheral.read_eq_ok w t (hfits h)
    refine ⟨r.device, ?_, Timer.keeps_bounded.read ht hr⟩
    rw [perform, hr]
    rfl
  | write w address value =>
    obtain ⟨r, hr⟩ := Peripheral.write_eq_ok w t value (hfits h.1)
    refine ⟨r.device, ?_, Timer.keeps_bounded.write ht hr⟩
    rw [perform, hr]
    rfl

variable (hperform : operation.perform t = .ok t') (i : Fin 4)
include hperform

/-- **Only a bus cycle sets a flag**, and only a one that is stored into it clears it. -/
theorem isSet_of_perform (flag : CounterFlag) (hstep : operation ≠ .step) :
    flag.isSet (t'.counters.get i) =
      (flag.isSet (t.counters.get i) && !operation.acknowledges i flag) := by
  cases operation with
  | step => exact absurd rfl hstep
  | take =>
    cases hperform
    exact (Bool.and_true _).symm
  | read w address =>
    obtain ⟨r, hr, rfl⟩ := exists_of_map_eq_ok hperform
    exact ((Timer.actsOnBit_flag i flag).read hr).trans (Bool.and_true _).symm
  | write w address value =>
    obtain ⟨r, hr, rfl⟩ := exists_of_map_eq_ok hperform
    have hposition : flag.position.toUInt32 < 32 := by cases flag <;> decide
    have haddress : 16 ∣ (Timer.modeAddress i).toNat := by
      revert i
      decide
    exact (Timer.actsOnBit_flag i flag).write hposition haddress h.2 hr

theorem eq_step_of_rises {flag : CounterFlag}
    (hrises : flag.Rises (t.counters.get i) (t'.counters.get i)) : operation = .step := by
  by_contra hstep
  have hset := isSet_of_perform h hperform i flag hstep
  rw [hrises.1, hrises.2, Bool.false_and] at hset
  cases hset

/-- After an operation the interrupt of a timer is raised, if it is not a take, and it was raised
before or a flag of the timer rises. -/
theorem raises_of_perform : t'.Raises i ↔
    operation ≠ .take ∧ (t.Raises i ∨ (t.counters.get i).FlagRises (t'.counters.get i)) := by
  by_cases hstep : operation = .step
  · subst hstep
    have htake : TimerOperation.step ≠ .take := fun heq => by cases heq
    exact (Timer.raises_of_step hperform i).trans (and_iff_right htake).symm
  · have hflat : ¬(t.counters.get i).FlagRises (t'.counters.get i) := by
      rw [Counter.flagRises_iff]
      rintro ⟨flag, hrises⟩
      exact hstep (eq_step_of_rises h hperform i hrises)
    have hsame (hraised : t'.raised = t.raised) : t'.Raises i ↔ t.Raises i := by
      rw [Timer.Raises, Timer.Raises, hraised]
    rw [or_iff_left hflat]
    cases operation with
    | step => exact absurd rfl hstep
    | take =>
      cases hperform
      exact iff_of_false (fun hraises => hraises UInt8.zero_and) fun hne => hne.1 rfl
    | read w address =>
      obtain ⟨r, hr, rfl⟩ := exists_of_map_eq_ok hperform
      have htake : TimerOperation.read w address ≠ .take := fun heq => by cases heq
      exact (hsame ((Timer.keeps_raised t.raised).read rfl hr)).trans (and_iff_right htake).symm
    | write w address value =>
      obtain ⟨r, hr, rfl⟩ := exists_of_map_eq_ok hperform
      have htake : TimerOperation.write w address value ≠ .take := fun heq => by cases heq
      exact (hsame ((Timer.keeps_raised t.raised).write rfl hr)).trans (and_iff_right htake).symm

end Perform

end TimerOperation

/-! ## Histories -/

/-- The states of the timers under operations, from new timers on: operation `k` leads from state `k`
to the next one. -/
structure TimerHistory (operation : Nat → TimerOperation) (state : Nat → Timer) : Prop where
  initial : state 0 = .initial
  next : ∀ k, (operation k).perform (state k) = .ok (state (k + 1))

namespace Timer

section States

variable (state : Nat → Timer) (i : Fin 4) (flag : CounterFlag) (k : Nat)

/-- A flag of the timer `i` is waiting to be acknowledged in state `k`. -/
def Waits : Prop := flag.isSet ((state k).counters.get i) = true

/-- Operation `k` sets a flag. -/
def RisesAt : Prop := ¬Waits state i flag k ∧ Waits state i flag (k + 1)

/-- Operation `k` clears a flag. -/
def FallsAt : Prop := Waits state i flag k ∧ ¬Waits state i flag (k + 1)

theorem risesAt_iff : RisesAt state i flag k ↔
    flag.Rises ((state k).counters.get i) ((state (k + 1)).counters.get i) :=
  and_congr_left fun _ => Bool.not_eq_true _ ▸ Iff.rfl

end States

/-- In a history, the interrupts of the timer `i` go with the edges of its flags. -/
structure InterruptsOnce (operation : Nat → TimerOperation) (state : Nat → Timer) (i : Fin 4) :
    Prop where
  /-- A take returns the interrupt exactly if a bus cycle has set a flag since the take before. -/
  taken : ∀ k, operation k = .take →
    ((state k).take.1 &&& 1 <<< UInt8.ofNat i.val ≠ 0 ↔
      ∃ j < k, operation j = .step ∧ (∃ flag, RisesAt state i flag j) ∧
        ∀ l, j < l → l < k → operation l ≠ .take)
  /-- Only bus cycles set flags. -/
  rises : ∀ flag k, RisesAt state i flag k → operation k = .step
  /-- Only a one that a write stores into a flag clears it. -/
  falls : ∀ flag k, FallsAt state i flag k ↔
    Waits state i flag k ∧ (operation k).acknowledges i flag = true
  /-- A flag that is set is acknowledged before it is set again. -/
  once : ∀ flag j l, j < l → RisesAt state i flag j → RisesAt state i flag l →
    ∃ m, j < m ∧ m < l ∧ (operation m).acknowledges i flag = true

end Timer

/-- What is set by events and cleared by resets is set if there was an event since the last reset. -/
theorem since_iff (raised event reset : Nat → Prop) (hzero : ¬raised 0)
    (hnext : ∀ k, raised (k + 1) ↔ ¬reset k ∧ (raised k ∨ event k)) (k : Nat) :
    raised k ↔ ∃ j < k, event j ∧ ∀ l, j ≤ l → l < k → ¬reset l := by
  induction k with
  | zero => exact iff_of_false hzero fun ⟨j, hj, _⟩ => Nat.not_lt_zero j hj
  | succ k ih =>
    rw [hnext, ih]
    constructor
    · rintro ⟨hreset, ⟨j, hj, hevent, hl⟩ | hevent⟩
      · refine ⟨j, Nat.lt_succ_of_lt hj, hevent, fun l hjl hlk => ?_⟩
        rcases Nat.lt_succ_iff_lt_or_eq.1 hlk with hlk | rfl
        · exact hl l hjl hlk
        · exact hreset
      · refine ⟨k, Nat.lt_succ_self k, hevent, fun l hkl hlk => ?_⟩
        exact Nat.le_antisymm (Nat.le_of_lt_succ hlk) hkl ▸ hreset
    · rintro ⟨j, hj, hevent, hl⟩
      refine ⟨hl k (Nat.le_of_lt_succ hj) (Nat.lt_succ_self k), ?_⟩
      rcases Nat.lt_succ_iff_lt_or_eq.1 hj with hj | rfl
      · exact .inl ⟨j, hj, hevent, fun l hjl hlk => hl l hjl (Nat.lt_succ_of_lt hlk)⟩
      · exact .inr hevent

namespace TimerHistory

variable {operation : Nat → TimerOperation} (h : ∀ k, (operation k).Admissible)
include h

/-- Admissible operations can be performed one after the other. -/
theorem exists_states : ∃ state, TimerHistory operation state := by
  choose next hnext using fun (t : { t : Timer // t.Bounded }) k =>
    TimerOperation.perform_eq_ok (h k) t.2
  let state : Nat → { t : Timer // t.Bounded } := fun k =>
    k.rec ⟨.initial, Timer.bounded_initial⟩ fun k t => ⟨next t k, (hnext t k).2⟩
  exact ⟨fun k => (state k).1, rfl, fun k => (hnext (state k) k).1⟩

variable {state : Nat → Timer} (hstate : TimerHistory operation state) (i : Fin 4)
include hstate

theorem eq_step_of_risesAt {flag : CounterFlag} {k : Nat}
    (hrises : Timer.RisesAt state i flag k) : operation k = .step :=
  TimerOperation.eq_step_of_rises (h k) (hstate.next k) i ((Timer.risesAt_iff ..).1 hrises)

theorem fallsAt_iff (flag : CounterFlag) (k : Nat) : Timer.FallsAt state i flag k ↔
    Timer.Waits state i flag k ∧ (operation k).acknowledges i flag = true := by
  refine and_congr_right fun hwaits => ?_
  have hnext := hstate.next k
  by_cases hstep : operation k = .step
  · -- a bus cycle clears no flag, and acknowledges none
    have hkept : Timer.Waits state i flag (k + 1) := by
      rw [hstep] at hnext
      obtain ⟨r, hr, hk⟩ := Timer.step_eq_ok_iff.1 hnext
      rw [Timer.Waits, hk, Timer.get_cycled]
      exact (Counter.cycle_of_step (hr i)).keepsFlags flag hwaits
    rw [hstep]
    exact iff_of_false (not_not_intro hkept) Bool.false_ne_true
  · have hset := TimerOperation.isSet_of_perform (h k) hnext i flag hstep
    rw [Timer.Waits] at hwaits
    rw [Timer.Waits, hset, hwaits, Bool.true_and, Bool.not_eq_true', Bool.not_eq_false]

/-- A flag waits until it is acknowledged. -/
theorem waits_of_unacknowledged {flag : CounterFlag} {j l : Nat} (hjl : j ≤ l)
    (hwaits : Timer.Waits state i flag j)
    (hnone : ∀ m, j ≤ m → m < l → ¬(operation m).acknowledges i flag = true) :
    Timer.Waits state i flag l := by
  induction l, hjl using Nat.le_induction with
  | base => exact hwaits
  | succ l hjl ih =>
    have hl := ih fun m hjm hml => hnone m hjm (Nat.lt_succ_of_lt hml)
    by_contra hfalls
    exact hnone l hjl (Nat.lt_succ_self l) ((fallsAt_iff h hstate i flag l).1 ⟨hl, hfalls⟩).2

/-- The interrupt of a timer is raised exactly if a bus cycle has set one of its flags since the last
take. -/
theorem raises_iff (k : Nat) : (state k).Raises i ↔
    ∃ j < k, (∃ flag, Timer.RisesAt state i flag j) ∧ ∀ l, j ≤ l → l < k → operation l ≠ .take := by
  refine since_iff (fun k => (state k).Raises i) (fun k => ∃ flag, Timer.RisesAt state i flag k)
    (fun k => operation k = .take) ?_ (fun k => ?_) k
  · rw [hstate.initial]
    exact fun hraises => hraises UInt8.zero_and
  · simp only [Timer.risesAt_iff, ← Counter.flagRises_iff]
    exact TimerOperation.raises_of_perform (h k) (hstate.next k) i

/-- What is set by one operation and again by a later one is acknowledged between them. -/
theorem exists_acknowledges {flag : CounterFlag} {j l : Nat} (hjl : j < l)
    (hj : Timer.RisesAt state i flag j) (hl : Timer.RisesAt state i flag l) :
    ∃ m, j < m ∧ m < l ∧ (operation m).acknowledges i flag = true := by
  by_contra hnone
  simp only [not_exists, not_and] at hnone
  exact hl.1 (waits_of_unacknowledged h hstate i hjl hj.2 hnone)

theorem interruptsOnce : Timer.InterruptsOnce operation state i where
  taken k _ := by
    refine (raises_iff h hstate i k).trans (exists_congr fun j => and_congr_right fun hjk => ?_)
    constructor
    · rintro ⟨⟨flag, hrises⟩, htakes⟩
      exact ⟨eq_step_of_risesAt h hstate i hrises, ⟨flag, hrises⟩,
        fun l hjl hlk => htakes l hjl.le hlk⟩
    · rintro ⟨hstep, hrises, htakes⟩
      refine ⟨hrises, fun l hjl hlk => ?_⟩
      rcases hjl.eq_or_lt with rfl | hjl
      · rw [hstep]
        exact nofun
      · exact htakes l hjl hlk
  rises flag k hrises := eq_step_of_risesAt h hstate i hrises
  falls flag k := fallsAt_iff h hstate i flag k
  once flag j l hjl hj hl := exists_acknowledges h hstate i hjl hj hl

end TimerHistory

/-- **A timer interrupts once for every edge of a flag.** Let bus cycles, takes of the raised
interrupts and accesses to the registers be made from new timers on, in any order; the writes are
aligned, and of any width. All of them succeed. A take returns the interrupt of a timer exactly if a
bus cycle has set one of its flags since the take before. Only bus cycles set a flag, whatever is
written; and a flag is cleared exactly by a write that stores a one into it, of a narrow write in its
own lane. So a flag that has been set is not set again, and raises no other interrupt, until it is
acknowledged. -/
theorem Timer.interrupts_once (operation : Nat → TimerOperation)
    (h : ∀ k, (operation k).Admissible) :
    (∃ state, TimerHistory operation state) ∧
      ∀ state, TimerHistory operation state → ∀ i : Fin 4, InterruptsOnce operation state i :=
  ⟨TimerHistory.exists_states h, fun _ hstate i => TimerHistory.interruptsOnce h hstate i⟩

/-- A counter matches in its first bus cycle; the interrupt is taken, and the match acknowledged by a
byte. -/
theorem Timer.interrupts_once_acknowledged :
    let operation : Nat → TimerOperation
      | 0 => .write .word 0x10000010 (0x180 : UInt32)
      | 1 => .write .half 0x10000020 (1 : UInt16)
      | 3 => .take
      | 4 => .write .byte 0x10000011 (4 : UInt8)
      | _ => .step
    (∀ k, (operation k).Admissible) ∧ (∃ state, TimerHistory operation state) ∧
      ∀ state, TimerHistory operation state → ∀ i : Fin 4, InterruptsOnce operation state i := by
  intro operation
  have h : ∀ k, (operation k).Admissible := by
    intro k
    match k with
    | 0 => exact ⟨by decide, by decide⟩
    | 1 => exact ⟨by decide, by decide⟩
    | 3 => trivial
    | 4 => exact ⟨by decide, by decide⟩
    | 2 => trivial
    | _ + 5 => trivial
  exact ⟨h, interrupts_once operation h⟩

end R5900
