import R5900.Proofs.Device.Access

/-!
# Bus cycles of the timers

A bus cycle leaves a counter alone, or counts it in its prescaler, or increments it
(`Counter.Cycle`); it faults only if the prescaler of a running counter is full
(`Counter.exists_step_iff`). The four counters do so one after the other and independently: the
timers pass a bus cycle exactly if every counter does, and each of them has made its own step then
(`Timer.step_eq_ok_iff`).

A prescaler counts bus cycles up to the divider, which is 256 at most, and starts again at zero. So
it stays below 256 (`Timer.Bounded`), and incrementing it never overflows: a bus cycle on bounded
timers does not fault and leaves them bounded (`Timer.step_eq_ok`), and so do all accesses to the
registers (`Timer.keeps_bounded`).
-/

namespace R5900

/-! ## One counter -/

namespace Counter

/-- The bus cycles for one increment of a counter that runs on the bus clock; none if the counter
is stopped or runs on the clock of the display. -/
def clock? (c : Counter) : Option UInt32 := if c.runs then c.divider? else none

/-- The counter runs on the bus clock, and its prescaler cannot count another cycle. -/
def Exhausted (c : Counter) : Prop := c.clock?.isSome = true ∧ c.prescaler = 0xFFFFFFFF

/-- What a bus cycle makes of the counter `c`, and whether that raises an interrupt. -/
inductive Cycle (c : Counter) : Counter × Bool → Prop
  | rest (h : c.clock? = none) : Cycle c (c, false)
  | wait {divider : UInt32} (h : c.clock? = some divider)
      (hlt : c.prescaler.toNat + 1 < divider.toNat) :
      Cycle c ({ c with prescaler := c.prescaler + 1 }, false)
  | tick {divider : UInt32} (h : c.clock? = some divider)
      (hle : divider.toNat ≤ c.prescaler.toNat + 1) :
      Cycle c ({ c with prescaler := 0 } : Counter).increment

variable {c : Counter}

theorem divider_mem {divider : UInt32} (h : c.divider? = some divider) :
    divider = 1 ∨ divider = 16 ∨ divider = 256 := by
  unfold divider? at h
  split at h <;> cases h <;> decide

theorem divider?_of_clock? {divider : UInt32} (h : c.clock? = some divider) :
    c.divider? = some divider := by
  rw [clock?] at h
  split at h
  · exact h
  · cases h

theorem toNat_clock_pos {divider : UInt32} (h : c.clock? = some divider) : 0 < divider.toNat := by
  rcases divider_mem (divider?_of_clock? h) with rfl | rfl | rfl <;> decide

theorem toNat_clock_le {divider : UInt32} (h : c.clock? = some divider) : divider.toNat ≤ 256 := by
  rcases divider_mem (divider?_of_clock? h) with rfl | rfl | rfl <;> decide

/-- A step in terms of the clock. -/
theorem step_eq (c : Counter) : c.step = c.clock?.elim (.ok (c, false)) fun divider => do
    let prescaler ← Checked.add32 c.prescaler 1
    if prescaler < divider then return ({ c with prescaler }, false)
    return ({ c with prescaler := 0 } : Counter).increment := by
  rw [step, clock?]
  cases c.runs with
  | false => rfl
  | true => cases c.divider? <;> rfl

/-- A bus cycle faults only if the prescaler is full, and is one of three otherwise. -/
theorem exists_cycle (h : ¬c.Exhausted) : ∃ r, c.step = .ok r ∧ c.Cycle r := by
  rw [step_eq]
  cases hclock : c.clock? with
  | none => exact ⟨_, rfl, .rest hclock⟩
  | some divider =>
    have hfull : c.prescaler ≠ 0xFFFFFFFF := fun heq => h ⟨Option.isSome_of_eq_some hclock, heq⟩
    have hfit : c.prescaler.toNat + 1 < 2 ^ 32 := by
      have hne : c.prescaler.toNat ≠ 2 ^ 32 - 1 := fun heq => hfull (UInt32.toNat_inj.1 heq)
      have hlt := c.prescaler.toNat_lt
      omega
    have hsum : (c.prescaler + 1).toNat = c.prescaler.toNat + 1 := by
      rw [UInt32.toNat_add]
      exact Nat.mod_eq_of_lt hfit
    simp only [Option.elim_some, Checked.add32_eq_ok (b := 1) hfit]
    by_cases hlt : c.prescaler + 1 < divider
    · refine ⟨_, if_pos hlt, .wait hclock ?_⟩
      rwa [UInt32.lt_iff_toNat_lt, hsum] at hlt
    · refine ⟨_, if_neg hlt, .tick hclock ?_⟩
      rwa [UInt32.lt_iff_toNat_lt, hsum, Nat.not_lt] at hlt

theorem not_exhausted_of_step {r : Counter × Bool} (h : c.step = .ok r) : ¬c.Exhausted := by
  rintro ⟨hclock, hfull⟩
  obtain ⟨divider, hclock⟩ := Option.isSome_iff_exists.1 hclock
  have hfault : Checked.add32 c.prescaler 1 = .error .overflow := by
    rw [hfull]
    rfl
  rw [step_eq, hclock, Option.elim_some, hfault] at h
  cases h

theorem exists_step_iff : (∃ r, c.step = .ok r) ↔ ¬c.Exhausted := by
  constructor
  · rintro ⟨r, h⟩
    exact not_exhausted_of_step h
  · intro h
    obtain ⟨r, hstep, -⟩ := exists_cycle h
    exact ⟨r, hstep⟩

theorem cycle_of_step {r : Counter × Bool} (h : c.step = .ok r) : c.Cycle r := by
  obtain ⟨r', hstep, hcycle⟩ := exists_cycle (not_exhausted_of_step h)
  rw [hstep] at h
  cases h
  exact hcycle

/-- The prescaler is below the greatest divider. -/
def Bounded (c : Counter) : Prop := c.prescaler.toNat < 256

theorem Bounded.not_exhausted (h : c.Bounded) : ¬c.Exhausted := by
  rintro ⟨-, hfull⟩
  rw [Bounded, hfull] at h
  exact absurd h (by decide)

/-- A bus cycle leaves a bounded counter bounded. -/
theorem Cycle.bounded {r : Counter × Bool} (h : c.Cycle r) (hc : c.Bounded) : r.1.Bounded := by
  cases h with
  | rest => exact hc
  | wait hclock hlt =>
    have hle := toNat_clock_le hclock
    have hc : c.prescaler.toNat < 256 := hc
    show (c.prescaler + 1).toNat < 256
    rw [UInt32.toNat_add]
    exact Nat.lt_of_le_of_lt (Nat.mod_le _ _) (Nat.lt_of_lt_of_le hlt hle)
  | tick =>
    show (0 : UInt32).toNat < 256
    decide

end Counter

/-! ## The four counters -/

namespace Timer

variable {t : Timer}

/-- The timers after the counter `i` has made a step. -/
def put (t : Timer) (i : Fin 4) (r : Counter × Bool) : Timer :=
  ⟨t.counters.setIfInBounds i r.1,
    if r.2 then t.raised ||| (1 <<< UInt8.ofNat i.val) else t.raised⟩

theorem get_put (t : Timer) (i j : Fin 4) (r : Counter × Bool) :
    (t.put i r).counters.get j = if i = j then r.1 else t.counters.get j := by
  refine (Vector.getElem_setIfInBounds j.isLt).trans ?_
  simp only [Fin.ext_iff]
  rfl

/-- A stopped counter makes a step too; nothing is put then that is not there. -/
theorem stepCounter_eq (t : Timer) (i : Fin 4) :
    t.stepCounter i = t.put i <$> (t.counters.get i).step := by
  have hset : ∀ c, t.counters.setIfInBounds i.val c = t.counters.set i.val c i.isLt := fun c =>
    Vector.ext fun j hj => by rw [Vector.getElem_setIfInBounds, Vector.getElem_set]
  unfold stepCounter put
  simp only [hset]
  cases hruns : t.counters[i].runs with
  | true => rfl
  | false =>
    have hstep : (t.counters.get i).step = .ok (t.counters.get i, false) := by
      rw [Counter.step]
      exact if_pos (congrArg (!·) hruns)
    rw [hstep]
    show _ = Except.ok (⟨t.counters.set i t.counters[i.val], t.raised⟩ : Timer)
    rw [Vector.set_getElem_self]
    rfl

/-- The timers after every counter `i` has made the step `r i`. -/
def cycled (t : Timer) (r : Fin 4 → Counter × Bool) : Timer :=
  (List.finRange 4).foldl (fun t i => t.put i (r i)) t

theorem cycled_eq (t : Timer) (r : Fin 4 → Counter × Bool) :
    t.cycled r = (((t.put 0 (r 0)).put 1 (r 1)).put 2 (r 2)).put 3 (r 3) := rfl

theorem get_cycled (t : Timer) (r : Fin 4 → Counter × Bool) (i : Fin 4) :
    (t.cycled r).counters.get i = (r i).1 := by
  revert i
  simp [Fin.forall_fin_succ, cycled_eq, get_put]

/-- **The timers pass a bus cycle exactly if every counter does**, and then each has made its own
step. -/
theorem step_eq_ok_iff {t' : Timer} :
    t.step = .ok t' ↔ ∃ r : Fin 4 → Counter × Bool,
      (∀ i, (t.counters.get i).step = .ok (r i)) ∧ t' = t.cycled r := by
  have hget : ∀ (t : Timer) (i j : Fin 4) (r : Counter × Bool), i ≠ j →
      (t.put i r).counters.get j = t.counters.get j := fun t i j r hne => by
    rw [get_put, if_neg hne]
  constructor
  · intro h
    obtain ⟨t₀, h₀, h⟩ := exists_of_bind_eq_ok h
    obtain ⟨t₁, h₁, h⟩ := exists_of_bind_eq_ok h
    obtain ⟨t₂, h₂, h₃⟩ := exists_of_bind_eq_ok h
    rw [stepCounter_eq] at h₀ h₁ h₂ h₃
    obtain ⟨r₀, hr₀, rfl⟩ := exists_of_map_eq_ok h₀
    obtain ⟨r₁, hr₁, rfl⟩ := exists_of_map_eq_ok h₁
    obtain ⟨r₂, hr₂, rfl⟩ := exists_of_map_eq_ok h₂
    obtain ⟨r₃, hr₃, rfl⟩ := exists_of_map_eq_ok h₃
    simp (disch := decide) only [hget] at hr₁ hr₂ hr₃
    refine ⟨fun | 0 => r₀ | 1 => r₁ | 2 => r₂ | 3 => r₃, fun i => ?_, rfl⟩
    match i with
    | 0 => exact hr₀
    | 1 => exact hr₁
    | 2 => exact hr₂
    | 3 => exact hr₃
  · rintro ⟨r, h, rfl⟩
    have hok : ∀ (t' : Timer) (i : Fin 4), t'.counters.get i = t.counters.get i →
        t'.stepCounter i = .ok (t'.put i (r i)) := fun t' i hi => by
      rw [stepCounter_eq, hi, h]
      rfl
    simp (disch := simp (disch := decide) only [hget]) only [step, hok, bind, Except.bind]
    rfl

/-- All four prescalers are below the greatest divider. -/
def Bounded (t : Timer) : Prop := ∀ i : Fin 4, (t.counters.get i).Bounded

theorem bounded_initial : initial.Bounded := by
  intro i
  have hinitial : initial.counters[i] = Counter.initial := Vector.getElem_replicate i.isLt
  show (initial.counters[i]).prescaler.toNat < 256
  rw [hinitial]
  decide

/-- A bus cycle on bounded timers does not fault, and leaves them bounded. -/
theorem step_eq_ok (ht : t.Bounded) : ∃ t', t.step = .ok t' ∧ t'.Bounded := by
  choose r hstep hcycle using fun i => Counter.exists_cycle (ht i).not_exhausted
  refine ⟨_, step_eq_ok_iff.2 ⟨r, hstep, rfl⟩, fun i => ?_⟩
  rw [get_cycled]
  exact (hcycle i).bounded (ht i)

/-! ## Accesses -/

/-- Replacing a counter by a bounded one leaves all of them bounded. -/
theorem bounded_set {c : Counter} {i : Nat} {hi : i < 4} (ht : t.Bounded) (hc : c.Bounded) :
    ({ t with counters := t.counters.set i c hi } : Timer).Bounded := by
  intro j
  show ((t.counters.set i c hi)[j.val]).Bounded
  rw [Vector.getElem_set]
  split
  · exact hc
  · exact ht j

theorem device_readWord (t : Timer) (address : UInt32) : (t.readWord address).device = t := by
  unfold readWord
  split
  · rfl
  · dsimp only
    split
    · rfl
    · rfl
    · rfl
    · split <;> rfl
    · rfl

theorem bounded_writeWord {t : Timer} (ht : t.Bounded) (address word : UInt32) :
    (t.writeWord address word).device.Bounded := by
  unfold writeWord
  split
  · exact ht
  · rename_i i _
    dsimp only
    split
    · exact bounded_set ht (show (0 : UInt32).toNat < 256 by decide)
    · exact bounded_set ht (ht i)
    · exact bounded_set ht (ht i)
    · split
      · exact bounded_set ht (ht i)
      · exact ht
    · exact ht

/-- Accesses of every width leave bounded timers bounded. -/
theorem keeps_bounded : Peripheral.Keeps Timer.Bounded :=
  Peripheral.keeps_of_words (fun t address ht => (device_readWord t address).symm ▸ ht)
    (fun _ address value ht => bounded_writeWord ht address value) (fun _ _ => rfl)
    (fun _ _ _ => rfl)

end Timer

end R5900
