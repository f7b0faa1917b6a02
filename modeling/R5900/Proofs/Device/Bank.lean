import R5900.Proofs.Device.Access

/-!
# The units of a bank

An access to a unit of a bank changes the device of that unit and no other (`Bank.sameBut_of_read`,
`Bank.sameBut_of_write`), so an access to a bank keeps what the accesses to its timers keep
(`Bank.timer_read`, `Bank.timer_write`). A `Bank.Part` is a unit together with where its device
stands in the bank; facts about accesses to it need not say which of the standard devices it is.
-/

namespace R5900

namespace Bank

/-! ## What an access leaves alone -/

/-- The bank `b'` is the bank `b` but for the device of a unit. -/
structure SameBut (unit : UnitId) (b b' : Bank) : Prop where
  intc : unit ≠ .intc → b'.intc = b.intc
  timer : unit ≠ .timer → b'.timer = b.timer
  gs : unit ≠ .gs → b'.gs = b.gs
  rdram : unit ≠ .rdram → b'.rdram = b.rdram
  dmac : unit ≠ .dmac → b'.dmac = b.dmac
  sif : unit ≠ .sif → b'.sif = b.sif
  vif : unit ≠ .vif → b'.vif = b.vif
  ipu : unit ≠ .ipu → b'.ipu = b.ipu
  attached : ∀ i, unit ≠ .attached i → b'.attached[i]? = b.attached[i]?

theorem SameBut.refl (unit : UnitId) (b : Bank) : b.SameBut unit b :=
  ⟨fun _ => rfl, fun _ => rfl, fun _ => rfl, fun _ => rfl, fun _ => rfl, fun _ => rfl, fun _ => rfl,
    fun _ => rfl, fun _ _ => rfl⟩

theorem sameBut_attached (b : Bank) (i : Nat) (device : Device) :
    b.SameBut (.attached i) { b with attached := b.attached.setIfInBounds i device } := by
  refine { SameBut.refl _ b with attached := fun j hne => ?_ }
  exact Array.getElem?_setIfInBounds_ne fun hij => hne (congrArg _ hij)

/-- A read changes the device of its unit only. -/
theorem sameBut_of_read {w : Width} {b : Bank} {unit : UnitId} {address : UInt32}
    {r : Reply Bank w.Value} (h : b.read w unit address = .ok r) : b.SameBut unit r.device := by
  cases unit <;> simp only [read] at h
  case attached i =>
    split at h
    · obtain ⟨r', -, hd⟩ := exists_of_answer_eq_ok h
      rw [hd]
      exact b.sameBut_attached i _
    · cases h
      exact .refl _ b
  all_goals
    obtain ⟨r', -, hd⟩ := exists_of_answer_eq_ok h
    rw [hd]
    constructor <;> intros <;> first | rfl | contradiction

/-- A write changes the device of its unit only. -/
theorem sameBut_of_write {w : Width} {b : Bank} {unit : UnitId} {address : UInt32} {value : w.Value}
    {r : Reply Bank Unit} (h : b.write w unit address value = .ok r) : b.SameBut unit r.device := by
  cases unit <;> simp only [write] at h
  case attached i =>
    split at h
    · obtain ⟨r', -, hd⟩ := exists_of_answer_eq_ok h
      rw [hd]
      exact b.sameBut_attached i _
    · cases h
      exact .refl _ b
  all_goals
    obtain ⟨r', -, hd⟩ := exists_of_answer_eq_ok h
    rw [hd]
    constructor <;> intros <;> first | rfl | contradiction

/-! ## What accesses keep -/

section Timer

variable {P : Timer → Prop} (hP : Peripheral.Keeps P)
include hP

/-- What the accesses to the timers keep, a read from any unit keeps. -/
theorem timer_read {w : Width} {b : Bank} {unit : UnitId} {address : UInt32}
    {r : Reply Bank w.Value} (hb : P b.timer) (h : b.read w unit address = .ok r) :
    P r.device.timer := by
  by_cases hunit : unit = .timer
  · subst hunit
    simp only [read] at h
    obtain ⟨r', hr, hd⟩ := exists_of_answer_eq_ok h
    rw [hd]
    exact hP.read hb hr
  · rw [(sameBut_of_read h).timer hunit]
    exact hb

/-- What the accesses to the timers keep, a write to any unit keeps. -/
theorem timer_write {w : Width} {b : Bank} {unit : UnitId} {address : UInt32} {value : w.Value}
    {r : Reply Bank Unit} (hb : P b.timer) (h : b.write w unit address value = .ok r) :
    P r.device.timer := by
  by_cases hunit : unit = .timer
  · subst hunit
    simp only [write] at h
    obtain ⟨r', hr, hd⟩ := exists_of_answer_eq_ok h
    rw [hd]
    exact hP.write hb hr
  · rw [(sameBut_of_write h).timer hunit]
    exact hb

end Timer

/-! ## Parts -/

/-- A unit whose device is of kind `δ`, with where the device stands in a bank. -/
structure Part (δ : Type) [Peripheral δ] where
  unit : UnitId
  get : Bank → δ
  put : Bank → δ → Bank
  get_put : ∀ b d, get (put b d) = d
  put_get : ∀ b, put b (get b) = b
  read_eq : ∀ (w : Width) (b : Bank) (address : UInt32),
    b.read w unit address = answer (put b) (Peripheral.read w (get b) address)
  write_eq : ∀ (w : Width) (b : Bank) (address : UInt32) (value : w.Value),
    b.write w unit address value = answer (put b) (Peripheral.write w (get b) address value)
  get_of_sameBut : ∀ {unit' : UnitId} {b b' : Bank}, unit' ≠ unit → b.SameBut unit' b' →
    get b' = get b

/-- The interrupt controller. -/
def intcPart : Part Intc :=
  ⟨.intc, intc, fun b d => { b with intc := d }, fun _ _ => rfl, fun _ => rfl, fun _ _ _ => rfl,
    fun _ _ _ _ => rfl, fun hne h => h.intc hne⟩

/-- The DMA controller. -/
def dmacPart : Part Dmac :=
  ⟨.dmac, dmac, fun b d => { b with dmac := d }, fun _ _ => rfl, fun _ => rfl, fun _ _ _ => rfl,
    fun _ _ _ _ => rfl, fun hne h => h.dmac hne⟩

/-- The graphics unit. -/
def gsPart : Part Gs :=
  ⟨.gs, gs, fun b d => { b with gs := d }, fun _ _ => rfl, fun _ => rfl, fun _ _ _ => rfl,
    fun _ _ _ _ => rfl, fun hne h => h.gs hne⟩

/-- The vector interfaces. -/
def vifPart : Part PassiveRegisters :=
  ⟨.vif, vif, fun b d => { b with vif := d }, fun _ _ => rfl, fun _ => rfl, fun _ _ _ => rfl,
    fun _ _ _ _ => rfl, fun hne h => h.vif hne⟩

/-- The image processor. -/
def ipuPart : Part PassiveRegisters :=
  ⟨.ipu, ipu, fun b d => { b with ipu := d }, fun _ _ => rfl, fun _ => rfl, fun _ _ _ => rfl,
    fun _ _ _ _ => rfl, fun hne h => h.ipu hne⟩

end Bank

end R5900
