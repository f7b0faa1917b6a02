import R5900.Proofs.BitField
import R5900.Proofs.Device.Timer

/-!
# Timers raise what they flag

A counter has two flags. An increment sets a flag if the counter reaches the flag's mark and the
mode enables it, and never clears one (`Counter.isSet_increment`); nothing else of the mode changes
(`Counter.settings_increment`). A bus cycle raises the interrupt of a counter exactly if it sets one
of its flags (`Counter.Cycle.interrupt`). The four counters step one after the other, and what one
has raised the next ones keep; so the interrupt of a timer is raised after a bus cycle exactly if it
was raised before or one of its flags rises in the cycle (`Timer.raises_of_step`).
-/

namespace R5900

/-! ## Flags -/

/-- What a counter flags: that the count reaches the comparison value, or that it wraps to zero. -/
inductive CounterFlag where
  | equal
  | overflow
  deriving DecidableEq, Repr

namespace CounterFlag

/-- The position of a flag in the mode. -/
def position : CounterFlag → UInt16
  | equal => Counter.equalFlag
  | overflow => Counter.overflowFlag

/-- The flag is waiting to be acknowledged. -/
def isSet : CounterFlag → Counter → Bool
  | equal => Counter.equalFlagged
  | overflow => Counter.overflowFlagged

/-- The mode of the counter enables the flag. -/
def isEnabled : CounterFlag → Counter → Bool
  | equal => Counter.matchInterrupt
  | overflow => Counter.overflowInterrupt

/-- The count whose reaching is flagged. -/
def mark : CounterFlag → Counter → UInt16
  | equal, c => c.compare
  | overflow, _ => 0

/-- The flag is clear in the counter `c` and set in the counter `c'`. -/
def Rises (flag : CounterFlag) (c c' : Counter) : Prop := flag.isSet c = false ∧ flag.isSet c' = true

theorem exists_iff {P : CounterFlag → Prop} : (∃ flag, P flag) ↔ P .equal ∨ P .overflow := by
  constructor
  · rintro ⟨flag, h⟩
    cases flag with
    | equal => exact .inl h
    | overflow => exact .inr h
  · rintro (h | h)
    · exact ⟨.equal, h⟩
    · exact ⟨.overflow, h⟩

theorem isSet_eq (flag : CounterFlag) (c : Counter) :
    flag.isSet c = c.mode.toNat.testBit flag.position.toNat := by
  cases flag <;> exact testBit16_eq ..

theorem mark_of_compare {c c' : Counter} (flag : CounterFlag) (h : c'.compare = c.compare) :
    flag.mark c' = flag.mark c := by
  cases flag with
  | equal => exact h
  | overflow => rfl

end CounterFlag

namespace Counter

variable {c c' c'' : Counter}

/-- A flag of the counter `c` is clear that is set in the counter `c'`. -/
def FlagRises (c c' : Counter) : Prop :=
  c.equalFlagged = false ∧ c'.equalFlagged = true ∨
    c.overflowFlagged = false ∧ c'.overflowFlagged = true

theorem flagRises_iff : c.FlagRises c' ↔ ∃ flag : CounterFlag, flag.Rises c c' :=
  (CounterFlag.exists_iff (P := fun flag => flag.Rises c c')).symm

/-- No flag of the counter `c` is clear in the counter `c'`. -/
def KeepsFlags (c c' : Counter) : Prop :=
  ∀ flag : CounterFlag, flag.isSet c = true → flag.isSet c' = true

/-- Where no flag is cleared, flags that rise on the way are those that rise on one of its parts. -/
theorem flagRises_trans (h : c.KeepsFlags c') (h' : c'.KeepsFlags c'') :
    c.FlagRises c'' ↔ c.FlagRises c' ∨ c'.FlagRises c'' := by
  simp only [flagRises_iff, ← exists_or]
  refine exists_congr fun flag => ?_
  have hfirst := h flag
  have hsecond := h' flag
  unfold CounterFlag.Rises
  cases hc : flag.isSet c <;> cases hc' : flag.isSet c' <;> cases hc'' : flag.isSet c'' <;>
    simp_all

/-! ## Settings -/

/-- The mode without the flags. -/
def settings (c : Counter) : UInt16 := c.mode &&& ~~~0xC00

theorem settings_and {mask : UInt16} (h : ~~~0xC00 &&& mask = mask) :
    c.settings &&& mask = c.mode &&& mask := by
  rw [settings, UInt16.and_assoc, h]

/-- What the settings are, the counter does. -/
theorem congr_settings (h : c'.settings = c.settings) :
    c'.runs = c.runs ∧ c'.divider? = c.divider? ∧ c'.returnsToZero = c.returnsToZero ∧
      ∀ flag : CounterFlag, flag.isEnabled c' = flag.isEnabled c := by
  have hmask : ∀ {mask : UInt16}, ~~~0xC00 &&& mask = mask → c'.mode &&& mask = c.mode &&& mask :=
    fun hm => (settings_and hm).symm.trans ((congrArg (· &&& _) h).trans (settings_and hm))
  refine ⟨?_, ?_, ?_, fun flag => ?_⟩
  · exact congrArg (· != 0) (hmask (by decide))
  · unfold divider?
    rw [hmask (by decide)]
  · exact congrArg (· != 0) (hmask (by decide))
  · cases flag <;> exact congrArg (· != 0) (hmask (by decide))

theorem clock?_of_settings (h : c'.settings = c.settings) : c'.clock? = c.clock? := by
  obtain ⟨hruns, hdivider, -⟩ := congr_settings h
  rw [clock?, clock?, hruns, hdivider]

/-! ## Increments -/

/-- An increment sets the flag, if it is not set already. -/
def meets (c : Counter) (flag : CounterFlag) : Bool :=
  decide (c.count + 1 = flag.mark c) && flag.isEnabled c

/-- Setting a bit on a condition shows in that bit only. -/
theorem testBit_ite_putBit16 (x p : UInt16) (condition : Bool) (i : Nat) :
    (if condition then putBit16 x p true else x).toNat.testBit i =
      (x.toNat.testBit i || condition && decide (p.toNat % 16 = i)) := by
  cases condition with
  | false => simp
  | true =>
    rw [if_pos rfl, testBit_putBit16]
    by_cases hi : p.toNat % 16 = i <;> simp [hi]

theorem testBit_increment (c : Counter) (i : Nat) :
    c.increment.1.mode.toNat.testBit i =
      (c.mode.toNat.testBit i ||
        (c.meets .equal && !CounterFlag.equal.isSet c) && decide (10 = i) ||
        (c.meets .overflow && !CounterFlag.overflow.isSet c) && decide (11 = i)) :=
  (testBit_ite_putBit16 _ _ _ i).trans (congrArg (· || _) (testBit_ite_putBit16 _ _ _ i))

/-- **An increment sets the flags whose marks it reaches**, and clears none. -/
theorem isSet_increment (c : Counter) (flag : CounterFlag) :
    flag.isSet c.increment.1 = (flag.isSet c || c.meets flag) := by
  have hsame (y m : Bool) : (y || m && !y) = (y || m) := by cases y <;> cases m <;> rfl
  rw [CounterFlag.isSet_eq]
  cases flag with
  | equal =>
    have hbit : c.mode.toNat.testBit 10 = CounterFlag.equal.isSet c :=
      (CounterFlag.isSet_eq .equal c).symm
    refine (testBit_increment c 10).trans ?_
    simp [hbit, hsame]
  | overflow =>
    have hbit : c.mode.toNat.testBit 11 = CounterFlag.overflow.isSet c :=
      (CounterFlag.isSet_eq .overflow c).symm
    refine (testBit_increment c 11).trans ?_
    simp [hbit, hsame]

/-- An increment leaves the settings. -/
theorem settings_increment (c : Counter) : c.increment.1.settings = c.settings := by
  refine UInt16.toNat_inj.1 (Nat.eq_of_testBit_eq fun i => ?_)
  rw [settings, settings, UInt16.toNat_and, UInt16.toNat_and, Nat.testBit_and, Nat.testBit_and,
    testBit_increment]
  by_cases h10 : 10 = i
  · subst h10
    exact (Bool.and_false _).trans (Bool.and_false _).symm
  · by_cases h11 : 11 = i
    · subst h11
      exact (Bool.and_false _).trans (Bool.and_false _).symm
    · rw [decide_eq_false h10, decide_eq_false h11, Bool.and_false, Bool.and_false, Bool.or_false,
        Bool.or_false]

theorem count_increment (c : Counter) : c.increment.1.count =
    if c.count + 1 = c.compare ∧ c.returnsToZero = true then 0 else c.count + 1 := by
  simp only [increment, Bool.and_eq_true, decide_eq_true_iff]

theorem keepsFlags_increment (c : Counter) : c.KeepsFlags c.increment.1 := fun flag h => by
  rw [isSet_increment, h, Bool.true_or]

/-- An increment raises an interrupt exactly if it sets a flag. -/
theorem interrupt_increment (c : Counter) : c.increment.2 = true ↔ c.FlagRises c.increment.1 := by
  have hrises (flag : CounterFlag) :
      flag.Rises c c.increment.1 ↔ (c.meets flag && !flag.isSet c) = true := by
    rw [CounterFlag.Rises, isSet_increment]
    cases flag.isSet c <;> simp
  have hinterrupt : c.increment.2 =
      (c.meets .equal && !CounterFlag.equal.isSet c ||
        c.meets .overflow && !CounterFlag.overflow.isSet c) := rfl
  rw [flagRises_iff, CounterFlag.exists_iff, hrises, hrises, hinterrupt, Bool.or_eq_true]

/-! ## Bus cycles -/

theorem isSet_of_mode (h : c'.mode = c.mode) (flag : CounterFlag) :
    flag.isSet c' = flag.isSet c := by
  rw [flag.isSet_eq, flag.isSet_eq, h]

theorem isSet_prescaler (c : Counter) (prescaler : UInt32) (flag : CounterFlag) :
    flag.isSet { c with prescaler } = flag.isSet c := by
  cases flag <;> rfl

theorem not_flagRises_of_mode (h : c'.mode = c.mode) : ¬c.FlagRises c' := by
  rw [flagRises_iff]
  rintro ⟨flag, hclear, hset⟩
  rw [isSet_of_mode h, hclear] at hset
  cases hset

/-- **A bus cycle raises the interrupt of a counter exactly if it sets one of its flags.** -/
theorem Cycle.interrupt {r : Counter × Bool} (h : c.Cycle r) : r.2 = true ↔ c.FlagRises r.1 := by
  cases h with
  | rest => exact iff_of_false Bool.false_ne_true (not_flagRises_of_mode rfl)
  | wait => exact iff_of_false Bool.false_ne_true (not_flagRises_of_mode rfl)
  | tick => exact interrupt_increment _

/-- A bus cycle clears no flag. -/
theorem Cycle.keepsFlags {r : Counter × Bool} (h : c.Cycle r) : c.KeepsFlags r.1 := by
  cases h with
  | rest => exact fun _ hset => hset
  | wait => exact fun flag hset => (isSet_prescaler ..).trans hset
  | tick =>
    exact fun flag hset => keepsFlags_increment _ flag ((isSet_prescaler ..).trans hset)

end Counter

namespace Timer

/-- The interrupt of a timer is raised. -/
def Raises (t : Timer) (i : Nat) : Prop := t.raised &&& (1 <<< UInt8.ofNat i) ≠ 0

theorem or_and_distrib (x y z : UInt8) : (x ||| y) &&& z = x &&& z ||| y &&& z :=
  UInt8.toBitVec_inj.1 BitVec.and_or_distrib_right

/-- The step of a counter raises the interrupt of its own timer only. -/
theorem raises_put (t : Timer) (i j : Fin 4) (r : Counter × Bool) :
    (t.put i r).Raises j ↔ t.Raises j ∨ i = j ∧ r.2 = true := by
  have hbit : ∀ i j : Fin 4, (1 : UInt8) <<< UInt8.ofNat i.val &&& 1 <<< UInt8.ofNat j.val ≠ 0 ↔
      i = j := by decide
  obtain ⟨c, interrupt⟩ := r
  cases interrupt with
  | false =>
    refine ⟨.inl, ?_⟩
    rintro (h | ⟨-, h⟩)
    · exact h
    · cases h
  | true =>
    show (t.raised ||| 1 <<< UInt8.ofNat i.val) &&& 1 <<< UInt8.ofNat j.val ≠ 0 ↔ _
    rw [or_and_distrib, ne_eq, UInt8.or_eq_zero_iff, not_and_or, ← ne_eq, ← ne_eq, hbit]
    simp [Raises]

theorem raises_cycled (t : Timer) (r : Fin 4 → Counter × Bool) (i : Fin 4) :
    (t.cycled r).Raises i ↔ t.Raises i ∨ (r i).2 = true := by
  revert i
  simp [Fin.forall_fin_succ, cycled_eq, raises_put]

/-- **After a bus cycle the interrupt of a timer is raised exactly if it was before or a flag of the
timer rises.** -/
theorem raises_of_step {t t' : Timer} (h : t.step = .ok t') (i : Fin 4) :
    t'.Raises i ↔ t.Raises i ∨ (t.counters.get i).FlagRises (t'.counters.get i) := by
  obtain ⟨r, hr, rfl⟩ := step_eq_ok_iff.1 h
  rw [raises_cycled, get_cycled, (Counter.cycle_of_step (hr i)).interrupt]

end Timer

end R5900
