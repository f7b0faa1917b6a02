import R5900.Proofs.Device.TimerInterrupt

/-!
# Running timers in closed form

What any number of bus cycles makes of a timer can be said without passing them. The prescaler of a
running counter decides how many increments they are (`Counter.increments`), and the mode and the
comparison value where these take the count (`Counter.countAfter`): round the whole range of the
count, or round the comparison value, once the count is below it. A flag is set if one of the
increments reaches its mark.

* `Counter.countAfter_succ`: one more increment of the closed form.
* `Counter.advancesTo_of_steps`: bus cycles make of a counter what the closed form says.
* `Timer.steps_advance`: so they do of each of the four timers, whatever the others do; and they
  fault only if a prescaler is full at the start.
-/

namespace R5900

/-! ## Numbers that count round -/

section Modulus

variable {a d : Nat}

theorem succ_div_mod_of_lt (h : a % d + 1 < d) :
    (a + 1) / d = a / d ∧ (a + 1) % d = a % d + 1 := by
  have hsum := Nat.mod_add_div a d
  exact (Nat.div_mod_unique (Nat.zero_lt_of_lt h)).2 ⟨by omega, h⟩

theorem succ_div_mod_of_le (hd : 0 < d) (h : d ≤ a % d + 1) :
    (a + 1) / d = a / d + 1 ∧ (a + 1) % d = 0 := by
  have hsum := Nat.mod_add_div a d
  have hlt := Nat.mod_lt a hd
  refine (Nat.div_mod_unique hd).2 ⟨?_, hd⟩
  rw [Nat.mul_add]
  omega

/-- Counting round: at the last number, zero is next. -/
theorem succ_mod_eq (hd : 0 < d) : (a + 1) % d = if a % d + 1 = d then 0 else a % d + 1 := by
  have hlt := Nat.mod_lt a hd
  split
  · rename_i heq
    exact (succ_div_mod_of_le hd heq.ge).2
  · exact (succ_div_mod_of_lt (by omega)).2

end Modulus

namespace Counter

/-! ## The closed form -/

section ClosedForm

variable (c : Counter)

/-- The bus cycles up to the first increment. If the clock was changed, the prescaler may be past the
divider already. -/
def firstIncrement (divider : Nat) : Nat := max 1 (divider - c.prescaler.toNat)

/-- How often `n` bus cycles increment the count. -/
def increments (divider n : Nat) : Nat :=
  if n < c.firstIncrement divider then 0 else 1 + (n - c.firstIncrement divider) / divider

/-- The prescaler after `n` bus cycles. -/
def prescalerAfter (divider n : Nat) : Nat :=
  if n < c.firstIncrement divider then c.prescaler.toNat + n
  else (n - c.firstIncrement divider) % divider

/-- The number of counts if a match returns to zero; a comparison value of zero is the wrap. -/
def period : Nat := if c.compare = 0 then 65536 else c.compare.toNat

/-- The count after `k` increments. If a match returns to zero, a count that is at the comparison
value or past it has to wrap first. -/
def countAfter (k : Nat) : Nat :=
  if c.returnsToZero then
    if c.count.toNat < c.period then (c.count.toNat + k) % c.period
    else if c.count.toNat + k < 65536 then c.count.toNat + k
    else (c.count.toNat + k - 65536) % c.period
  else (c.count.toNat + k) % 65536

/-- One of the next `k` increments reaches a value. -/
def Reaches (value : UInt16) (k : Nat) : Prop :=
  ∃ j < k, (c.countAfter j + 1) % 65536 = value.toNat

/-- In `k` increments, the counter `c` becomes `c'`, whatever its prescaler. -/
structure CountsTo (k : Nat) (c' : Counter) : Prop where
  count : c'.count.toNat = c.countAfter k
  flag : ∀ flag : CounterFlag, flag.isSet c' = true ↔
    flag.isSet c = true ∨ flag.isEnabled c = true ∧ c.Reaches (flag.mark c) k
  settings : c'.settings = c.settings
  compare : c'.compare = c.compare
  hold : c'.hold = c.hold

/-- In `n` bus cycles, the counter `c` that runs with a divider becomes `c'`. -/
structure RunsTo (divider n : Nat) (c' : Counter) : Prop where
  counts : c.CountsTo (c.increments divider n) c'
  prescaler : c'.prescaler.toNat = c.prescalerAfter divider n

/-- In `n` bus cycles, the counter `c` becomes `c'`; if it does not run on the bus clock, it stays. -/
def AdvancesTo (n : Nat) (c' : Counter) : Prop :=
  match c.clock? with
  | none => c' = c
  | some divider => c.RunsTo divider.toNat n c'

end ClosedForm

/-! ## One more cycle -/

section Succ

variable {c : Counter} {divider n : Nat}

theorem prescalerAfter_lt (hpos : 0 < divider) (hn : n ≠ 0) :
    c.prescalerAfter divider n < divider := by
  rw [prescalerAfter]
  split
  · rename_i hlt
    rw [firstIncrement] at hlt
    omega
  · exact Nat.mod_lt _ hpos

/-- Below the divider, a bus cycle counts in the prescaler. -/
theorem after_succ_of_lt (h : c.prescalerAfter divider n + 1 < divider) :
    c.increments divider (n + 1) = c.increments divider n ∧
      c.prescalerAfter divider (n + 1) = c.prescalerAfter divider n + 1 := by
  unfold increments prescalerAfter at *
  by_cases hfirst : n < c.firstIncrement divider
  · rw [if_pos hfirst] at h
    have hnext : n + 1 < c.firstIncrement divider := by
      rw [firstIncrement]
      omega
    simp only [if_pos hfirst, if_pos hnext, Nat.add_assoc, and_self]
  · rw [if_neg hfirst] at h
    have hnext : ¬n + 1 < c.firstIncrement divider := fun hlt => hfirst (Nat.lt_of_succ_lt hlt)
    have hshift : n + 1 - c.firstIncrement divider = n - c.firstIncrement divider + 1 := by omega
    obtain ⟨hdiv, hmod⟩ := succ_div_mod_of_lt h
    simp only [if_neg hfirst, if_neg hnext, hshift, hdiv, hmod, and_self]

/-- At the divider, a bus cycle increments the count and starts the prescaler again. -/
theorem after_succ_of_le (hpos : 0 < divider) (h : divider ≤ c.prescalerAfter divider n + 1) :
    c.increments divider (n + 1) = c.increments divider n + 1 ∧
      c.prescalerAfter divider (n + 1) = 0 := by
  unfold increments prescalerAfter at *
  by_cases hfirst : n < c.firstIncrement divider
  · rw [if_pos hfirst] at h
    have hnext : n + 1 = c.firstIncrement divider := by
      rw [firstIncrement] at hfirst ⊢
      omega
    simp only [if_pos hfirst, hnext, Nat.lt_irrefl, if_false, Nat.sub_self, Nat.zero_div,
      Nat.zero_mod, and_self]
  · rw [if_neg hfirst] at h
    have hnext : ¬n + 1 < c.firstIncrement divider := fun hlt => hfirst (Nat.lt_of_succ_lt hlt)
    have hshift : n + 1 - c.firstIncrement divider = n - c.firstIncrement divider + 1 := by omega
    obtain ⟨hdiv, hmod⟩ := succ_div_mod_of_le hpos h
    simp only [if_neg hfirst, if_neg hnext, hshift, hdiv, hmod, Nat.add_assoc, and_self]

theorem period_pos (c : Counter) : 0 < c.period := by
  rw [period]
  split
  · decide
  · rename_i hne
    exact Nat.pos_of_ne_zero fun hzero => hne (UInt16.toNat_inj.1 hzero)

theorem period_le (c : Counter) : c.period ≤ 65536 := by
  have hlt : c.compare.toNat < 65536 := c.compare.toNat_lt
  rw [period]
  split <;> omega

theorem countAfter_zero (c : Counter) : c.countAfter 0 = c.count.toNat := by
  have hlt : c.count.toNat < 65536 := c.count.toNat_lt
  unfold countAfter
  split
  · split
    · exact Nat.mod_eq_of_lt ‹_›
    · exact if_pos hlt
  · exact Nat.mod_eq_of_lt hlt

/-- An increment that reaches the comparison value is the last one of a period, and the period is the
whole range if the comparison value is zero. -/
theorem eq_compare_iff (c : Counter) {x : Nat} (hx : x < 65536) :
    (x + 1) % 65536 = c.compare.toNat ↔ x + 1 = c.period := by
  have hlt : c.compare.toNat < 65536 := c.compare.toNat_lt
  have hzero : c.compare = 0 ↔ c.compare.toNat = 0 := UInt16.toNat_inj.symm
  rw [period]
  split <;> rename_i h <;> rw [hzero] at h <;> omega

/-- Counting round a period, the last count is the one before the comparison value. -/
theorem succ_mod_period (c : Counter) (a : Nat) : (a + 1) % c.period =
    if (a % c.period + 1) % 65536 = c.compare.toNat then 0 else (a % c.period + 1) % 65536 := by
  have hround := Nat.mod_lt a c.period_pos
  have hle := c.period_le
  simp only [c.eq_compare_iff (x := a % c.period) (by omega)]
  rw [succ_mod_eq c.period_pos]
  split
  · rfl
  · exact (Nat.mod_eq_of_lt (by omega)).symm

/-- One more increment: a match returns to zero, if it is meant to. -/
theorem countAfter_succ (c : Counter) (k : Nat) : c.countAfter (k + 1) =
    if (c.countAfter k + 1) % 65536 = c.compare.toNat ∧ c.returnsToZero = true then 0
    else (c.countAfter k + 1) % 65536 := by
  have hcount : c.count.toNat < 65536 := c.count.toNat_lt
  unfold countAfter
  cases c.returnsToZero with
  | false =>
    simp only [Bool.false_eq_true, if_false, and_false]
    omega
  | true =>
    simp only [if_true, and_true]
    by_cases hbelow : c.count.toNat < c.period
    · simp only [if_pos hbelow]
      exact c.succ_mod_period _
    · simp only [if_neg hbelow]
      by_cases hwrapped : c.count.toNat + k < 65536
      · -- on the way to the wrap the comparison value is behind
        have hmatch := c.eq_compare_iff hwrapped
        rw [if_pos hwrapped]
        by_cases hnext : c.count.toNat + (k + 1) < 65536
        · rw [if_pos hnext, if_neg fun h => hbelow (by omega)]
          omega
        · have hzero : c.count.toNat + (k + 1) - 65536 = 0 := by omega
          have hwrap : (c.count.toNat + k + 1) % 65536 = 0 := by omega
          rw [if_neg hnext, hzero, hwrap, Nat.zero_mod, ite_self]
      · have hnext : ¬c.count.toNat + (k + 1) < 65536 := by omega
        have hshift : c.count.toNat + (k + 1) - 65536 = c.count.toNat + k - 65536 + 1 := by omega
        rw [if_neg hwrapped, if_neg hnext, hshift]
        exact c.succ_mod_period _

-- a count of 10 that is past the comparison value 5 wraps first, and returns to zero from then on
example : (⟨10, 0x40, 5, 0, 0⟩ : Counter).countAfter 65525 = 65535 ∧
    (⟨10, 0x40, 5, 0, 0⟩ : Counter).countAfter 65533 = 2 := by decide

end Succ

/-! ## Increments -/

section Increments

variable {c c' : Counter} {k : Nat}

theorem countsTo_zero (c : Counter) : c.CountsTo 0 c where
  count := c.countAfter_zero.symm
  flag _ := (or_iff_left fun ⟨_, j, hj, _⟩ => Nat.not_lt_zero j hj).symm
  settings := rfl
  compare := rfl
  hold := rfl

theorem CountsTo.prescaler (h : c.CountsTo k c') (prescaler : UInt32) :
    c.CountsTo k { c' with prescaler } where
  count := h.count
  flag flag := by rw [isSet_prescaler, h.flag]
  settings := h.settings
  compare := h.compare
  hold := h.hold

/-- Increments reach what the last one or one before reaches. -/
theorem reaches_succ (c : Counter) (value : UInt16) (k : Nat) :
    c.Reaches value (k + 1) ↔ c.Reaches value k ∨ (c.countAfter k + 1) % 65536 = value.toNat :=
  Nat.exists_lt_succ_right

/-- **An increment leads from one closed form to the next.** -/
theorem CountsTo.increment (h : c.CountsTo k c') : c.CountsTo (k + 1) c'.increment.1 := by
  obtain ⟨-, -, hreturns, henabled⟩ := congr_settings h.settings
  have hnext : (c'.count + 1).toNat = (c.countAfter k + 1) % 65536 := by
    rw [← h.count]
    exact UInt16.toNat_add ..
  refine ⟨?_, fun flag => ?_, (settings_increment c').trans h.settings, h.compare, h.hold⟩
  · have hmatch : c'.count + 1 = c'.compare ∧ c'.returnsToZero = true ↔
        (c.countAfter k + 1) % 65536 = c.compare.toNat ∧ c.returnsToZero = true := by
      rw [← UInt16.toNat_inj, hnext, h.compare, hreturns]
    rw [countAfter_succ, count_increment]
    simp only [hmatch]
    split
    · rfl
    · exact hnext
  · have hmeets : c'.meets flag = true ↔ flag.isEnabled c = true ∧
        (c.countAfter k + 1) % 65536 = (flag.mark c).toNat := by
      rw [meets, Bool.and_eq_true, decide_eq_true_iff, henabled, flag.mark_of_compare h.compare,
        ← UInt16.toNat_inj, hnext, and_comm]
    rw [isSet_increment, Bool.or_eq_true, h.flag, hmeets, reaches_succ, and_or_left, or_assoc]

end Increments

/-! ## Bus cycles of one counter -/

/-- A counter after a number of bus cycles. -/
def steps (c : Counter) : Nat → Except Fault Counter
  | 0 => .ok c
  | n + 1 => do
    let c ← c.steps n
    Prod.fst <$> c.step

section Steps

variable {c c' : Counter} {divider n : Nat}

theorem runsTo_zero (c : Counter) (divider : Nat) : c.RunsTo divider 0 c := by
  have hfirst : 0 < c.firstIncrement divider := Nat.lt_of_lt_of_le Nat.one_pos (Nat.le_max_left ..)
  have hincrements : c.increments divider 0 = 0 := if_pos hfirst
  refine ⟨?_, (if_pos hfirst).symm⟩
  rw [hincrements]
  exact c.countsTo_zero

/-- A bus cycle leads from one closed form to the next. -/
theorem RunsTo.cycle {clock : UInt32} {r : Counter × Bool} (hclock : c.clock? = some clock)
    (h : c.RunsTo clock.toNat n c') (hcycle : c'.Cycle r) : c.RunsTo clock.toNat (n + 1) r.1 := by
  have hclock' : c'.clock? = some clock := (clock?_of_settings h.counts.settings).trans hclock
  cases hcycle with
  | rest hrest =>
    rw [hclock'] at hrest
    cases hrest
  | wait hsame hlt =>
    cases hsame.symm.trans hclock'
    have hfit : (c'.prescaler + 1).toNat = c'.prescaler.toNat + 1 := by
      rw [UInt32.toNat_add]
      exact Nat.mod_eq_of_lt (Nat.lt_trans hlt clock.toNat_lt)
    rw [h.prescaler] at hfit hlt
    obtain ⟨hincrements, hafter⟩ := after_succ_of_lt hlt
    exact ⟨hincrements ▸ h.counts.prescaler _, hfit.trans hafter.symm⟩
  | tick hsame hle =>
    cases hsame.symm.trans hclock'
    rw [h.prescaler] at hle
    obtain ⟨hincrements, hafter⟩ := after_succ_of_le (toNat_clock_pos hclock) hle
    exact ⟨hincrements ▸ (h.counts.prescaler 0).increment, hafter.symm⟩

/-- **Bus cycles make of a counter what the closed form says.** -/
theorem advancesTo_of_steps (h : c.steps n = .ok c') : c.AdvancesTo n c' := by
  rw [AdvancesTo]
  induction n generalizing c' with
  | zero =>
    cases h
    split
    · rfl
    · exact runsTo_zero c _
  | succ n ih =>
    obtain ⟨c₁, h₁, h⟩ := exists_of_bind_eq_ok h
    obtain ⟨r, hstep, rfl⟩ := exists_of_map_eq_ok h
    have hcycle := cycle_of_step hstep
    have ih := ih h₁
    split at ih
    · rename_i hclock
      subst ih
      cases hcycle with
      | rest => rfl
      | wait hsome => cases hclock.symm.trans hsome
      | tick hsome => cases hclock.symm.trans hsome
    · rename_i hclock
      exact ih.cycle hclock hcycle

/-- After a bus cycle, a prescaler is not full. -/
theorem not_exhausted_of_steps (h : c.steps n = .ok c') (hn : n ≠ 0) : ¬c'.Exhausted := by
  have hadvances := advancesTo_of_steps h
  rintro ⟨hclock', hfull⟩
  rw [AdvancesTo] at hadvances
  split at hadvances
  · rename_i hclock
    rw [hadvances, hclock] at hclock'
    cases hclock'
  · rename_i clock hclock
    have hlt := prescalerAfter_lt (c := c) (toNat_clock_pos hclock) hn
    have hle := toNat_clock_le hclock
    rw [← hadvances.prescaler, hfull] at hlt
    exact absurd (Nat.lt_of_lt_of_le hlt hle) (by decide)

end Steps

end Counter

/-! ## Bus cycles of the four timers -/

namespace Timer

/-- The timers after a number of bus cycles. -/
def steps (t : Timer) : Nat → Except Fault Timer
  | 0 => .ok t
  | n + 1 => do
    let t ← t.steps n
    t.step

variable {t t' : Timer} {n : Nat}

/-- In bus cycles of the timers, each counter makes its own, and the interrupt of a timer is raised
when one of its flags rises. -/
theorem get_of_steps (h : t.steps n = .ok t') (i : Fin 4) :
    (t.counters.get i).steps n = .ok (t'.counters.get i) ∧
      (t.counters.get i).KeepsFlags (t'.counters.get i) ∧
      (t'.Raises i ↔ t.Raises i ∨ (t.counters.get i).FlagRises (t'.counters.get i)) := by
  induction n generalizing t' with
  | zero =>
    cases h
    exact ⟨rfl, fun _ hset => hset, (or_iff_left (Counter.not_flagRises_of_mode rfl)).symm⟩
  | succ n ih =>
    obtain ⟨t₁, h₁, hstep⟩ := exists_of_bind_eq_ok h
    obtain ⟨hsteps, hkeeps, hraises⟩ := ih h₁
    obtain ⟨r, hr, ht'⟩ := step_eq_ok_iff.1 hstep
    have hget : t'.counters.get i = (r i).1 := by rw [ht', get_cycled]
    have hkeeps' : (t₁.counters.get i).KeepsFlags (t'.counters.get i) :=
      hget ▸ (Counter.cycle_of_step (hr i)).keepsFlags
    refine ⟨?_, fun flag hset => hkeeps' flag (hkeeps flag hset), ?_⟩
    · rw [Counter.steps, hsteps, hget]
      show Prod.fst <$> (t₁.counters.get i).step = _
      rw [hr]
      rfl
    · rw [raises_of_step hstep, hraises, Counter.flagRises_trans hkeeps hkeeps', or_assoc]

/-- Timers with room in their prescalers pass any number of bus cycles. -/
theorem exists_steps (h : ∀ i : Fin 4, ¬(t.counters.get i).Exhausted) (n : Nat) :
    ∃ t', t.steps n = .ok t' := by
  induction n with
  | zero => exact ⟨t, rfl⟩
  | succ n ih =>
    obtain ⟨t₁, h₁⟩ := ih
    have hroom (i : Fin 4) : ¬(t₁.counters.get i).Exhausted := by
      by_cases hn : n = 0
      · subst hn
        cases h₁
        exact h i
      · exact Counter.not_exhausted_of_steps (get_of_steps h₁ i).1 hn
    choose r hr using fun i => Counter.exists_step_iff.2 (hroom i)
    refine ⟨t₁.cycled r, ?_⟩
    rw [steps, h₁]
    exact step_eq_ok_iff.2 ⟨r, hr, rfl⟩

/-- Timers that pass a bus cycle had room in their prescalers. -/
theorem not_exhausted_of_steps (h : t.steps n = .ok t') (hn : n ≠ 0) (i : Fin 4) :
    ¬(t.counters.get i).Exhausted := by
  induction n generalizing t' with
  | zero => exact absurd rfl hn
  | succ n ih =>
    obtain ⟨t₁, h₁, hstep⟩ := exists_of_bind_eq_ok h
    by_cases hzero : n = 0
    · subst hzero
      cases h₁
      obtain ⟨r, hr, -⟩ := step_eq_ok_iff.1 hstep
      exact Counter.not_exhausted_of_step (hr i)
    · exact ih h₁ hzero

/-- **Timers run as their closed form says.** Any number of bus cycles succeed on any timers, unless
the prescaler of a running one is full at the start. What a timer is after `n` of them depends on this
timer alone. If it is stopped or runs on the clock of the display, it has not changed. Otherwise its
prescaler tells how many increments `k` there have been, and the count is `k` further on, round the
whole range or round the comparison value; a flag is set exactly if it was before, or if the mode
enables it and one of the `k` increments reached the comparison value or zero; nothing else has
changed. The interrupt of the timer is raised exactly if it was before or one of its flags has
risen. -/
theorem steps_advance (t : Timer) (n : Nat) :
    ((∃ t', t.steps n = .ok t') ↔ n = 0 ∨ ∀ i : Fin 4, ¬(t.counters.get i).Exhausted) ∧
      ∀ t', t.steps n = .ok t' → ∀ i : Fin 4,
        (t.counters.get i).steps n = .ok (t'.counters.get i) ∧
        (t.counters.get i).AdvancesTo n (t'.counters.get i) ∧
        (t'.Raises i ↔ t.Raises i ∨ (t.counters.get i).FlagRises (t'.counters.get i)) := by
  refine ⟨⟨?_, ?_⟩, fun t' h i => ?_⟩
  · rintro ⟨t', h⟩
    exact or_iff_not_imp_left.2 fun hn => not_exhausted_of_steps h hn
  · rintro (rfl | h)
    · exact ⟨t, rfl⟩
    · exact exists_steps h n
  · obtain ⟨hsteps, -, hraises⟩ := get_of_steps h i
    exact ⟨hsteps, Counter.advancesTo_of_steps hsteps, hraises⟩

end Timer

end R5900
