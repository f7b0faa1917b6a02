import R5900.Proofs.Action
import R5900.Proofs.Device.Intc
import R5900.Proofs.Device.Timer

/-!
# Narrow writes act on their lane

A narrow write reads the containing word, keeps the bits that the device lets it carry over,
replaces its lane and writes the word back. That this acts on the lane alone is a property of three
functions of a device together, its word read, its word write and its carried bits
(`WritesBitwise`):

* every bit that shows after a word write depends on the written bit of its own position only, and
* writing back the carried bits changes nothing that shows.

`WritesBitwise.keepsLanes` derives the rule for narrow writes from these, and each device meets them
at every address, the control register of the mailbox excepted, which sets bits in other lanes
(`Peripheral.narrowWrites_keepLanes`).
-/

namespace R5900

namespace Peripheral

variable {δ : Type} [Peripheral δ]

/-! ## Lanes -/

/-- The position lies in the lane of `bits` bits from the bit `lane` up. -/
def InLane (lane : UInt32) (bits : Nat) (p : UInt32) : Prop :=
  lane.toNat ≤ p.toNat ∧ p.toNat < lane.toNat + bits

instance (lane : UInt32) (bits : Nat) (p : UInt32) : Decidable (InLane lane bits p) :=
  inferInstanceAs (Decidable (_ ∧ _))

/-- In the lane the word `x` has the bits of `inside`, and elsewhere those of `outside`. -/
structure MergesLane (lane : UInt32) (bits : Nat) (inside outside x : UInt32) : Prop where
  inside : ∀ p, p < 32 → InLane lane bits p → testBit32 x p = testBit32 inside p
  outside : ∀ p, p < 32 → ¬InLane lane bits p → testBit32 x p = testBit32 outside p

/-- The word that a device shows at an address. -/
def shown (d : δ) (a : UInt32) : UInt32 := (readWord d a).value

/-- The word that a device shows at an address after a word was written there. -/
def shownAfter (d : δ) (a word : UInt32) : UInt32 := shown (writeWord d a word).device a

/-- In every state of the device, a byte or halfword written into the word at an address shows in
its lane as if the whole word had been written with zeros around it, and leaves the other bits of
the word as they were. -/
structure KeepsLanes (δ : Type) [Peripheral δ] (a : UInt32) : Prop where
  byte : ∀ (d : δ) (k : UInt32), k < 4 → ∀ v : UInt8,
    MergesLane (8 * k) 8 (shownAfter d a (v.toUInt32 <<< (8 * k))) (shown d a)
      (shown (writeByte d (a + k) v).device a)
  half : ∀ (d : δ) (k : UInt32), k = 0 ∨ k = 2 → ∀ v : UInt16,
    MergesLane (8 * k) 16 (shownAfter d a (v.toUInt32 <<< (8 * k))) (shown d a)
      (shown (writeHalf d (a + k) v).device a)

theorem testBit32_lane {lane p : UInt32} (hlane : lane < 32) (hp : p < 32) {bits : Nat}
    {ones : UInt32} (hones : ones.toNat = 2 ^ bits - 1) :
    testBit32 (ones <<< lane) p = true ↔ InLane lane bits p := by
  rw [testBit32_shiftLeft _ hlane hp, hones, Nat.testBit_two_pow_sub_one, Bool.and_eq_true,
    decide_eq_true_iff, decide_eq_true_iff]
  exact and_congr_right fun hle => Nat.sub_lt_iff_lt_add' hle

/-- A value of `bits` bits moved into a lane has no bit outside it. -/
theorem testBit32_value {lane p : UInt32} (hlane : lane < 32) (hp : p < 32) {bits : Nat}
    {value : UInt32} (hvalue : value.toNat < 2 ^ bits) (h : ¬InLane lane bits p) :
    testBit32 (value <<< lane) p = false := by
  rw [testBit32_shiftLeft _ hlane hp, Bool.and_eq_false_imp]
  intro hle
  have hbits : bits ≤ p.toNat - lane.toNat := by
    have hle' := of_decide_eq_true hle
    unfold InLane at h
    omega
  exact Nat.testBit_lt_two_pow (Nat.lt_of_lt_of_le hvalue (Nat.pow_le_pow_right (by decide) hbits))

/-! ## From words to lanes -/

/-- What the rule for lanes needs of a device at an address. -/
structure WritesBitwise (δ : Type) [Peripheral δ] (a : UInt32) : Prop where
  /-- Reading the word leaves the device as it is. -/
  read : ∀ d : δ, (readWord d a).device = d
  /-- A bit that shows after a write depends on the written bit of its position only. -/
  bit : ∀ (d : δ) {x y p : UInt32}, testBit32 x p = testBit32 y p →
    testBit32 (shownAfter d a x) p = testBit32 (shownAfter d a y) p
  /-- Writing the carried bits back changes nothing that shows. -/
  carried : ∀ d : δ, shownAfter d a (shown d a &&& retained δ a) = shown d a

variable {a : UInt32}

/-- A narrow write shows as a word write of the carried bits with the lane replaced. -/
theorem shown_writeLane (hread : ∀ d : δ, (readWord d a).device = d) (d : δ)
    {address lane mask value : UInt32} (haddress : wordAddress address = a) :
    shown (writeLane d address lane mask value).device a = shownAfter d a
      (shown d a &&& retained δ a &&& ~~~(mask <<< lane) ||| value <<< lane) := by
  subst haddress
  show shown (writeWord (readWord d _).device _ _).device _ = _
  rw [hread]
  rfl

/-- A narrow write acts on its lane if the bits of a word are written one by one. -/
theorem WritesBitwise.mergesLane (h : WritesBitwise δ a) (d : δ)
    {address lane mask value : UInt32} {bits : Nat}
    (haddress : wordAddress address = a) (hlane : lane < 32) (hmask : mask.toNat = 2 ^ bits - 1)
    (hvalue : value.toNat < 2 ^ bits) :
    MergesLane lane bits (shownAfter d a (value <<< lane)) (shown d a)
      (shown (writeLane d address lane mask value).device a) := by
  rw [shown_writeLane h.read d haddress]
  refine ⟨fun p hp hin => h.bit d ?_, fun p hp hout => ?_⟩
  · have hset := (testBit32_lane hlane hp hmask).2 hin
    simp [hset]
  · have hclear := mt (testBit32_lane hlane hp hmask).1 hout
    rw [Bool.not_eq_true] at hclear
    refine Eq.trans (h.bit d ?_) (congrArg (testBit32 · p) (h.carried d))
    simp [hclear, testBit32_value hlane hp hvalue hout]

/-- Every address is that of a byte of its word. -/
theorem exists_lane (address : UInt32) : ∃ k, k < 4 ∧ address = wordAddress address + k := by
  refine ⟨address &&& 3, ?_, ?_⟩
  · rw [UInt32.lt_iff_toNat_lt, toNat_and_mask address 3 2 rfl]
    exact Nat.mod_lt _ (by decide)
  · rw [UInt32.add_comm]
    exact (and_add_and_not address 3).symm

section Lanes

variable {k : UInt32} (hk : k < 4)
include hk

theorem lane_lt : 8 * k < 32 := by
  have hlt : k.toNat < 4 := hk
  rw [UInt32.lt_iff_toNat_lt, UInt32.toNat_mul]
  show 8 * k.toNat % 2 ^ 32 < 32
  omega

variable (ha : 4 ∣ a.toNat)
include ha

theorem toNat_lane : (a + k).toNat = a.toNat + k.toNat := by
  have hlt : k.toNat < 4 := hk
  have hmax := a.toNat_lt
  rw [UInt32.toNat_add, Nat.mod_eq_of_lt (by omega)]

theorem lane_of_even (h : 2 ∣ (a + k).toNat) : k = 0 ∨ k = 2 := by
  have hlt : k.toNat < 4 := hk
  rw [toNat_lane hk ha] at h
  have hk : k.toNat = 0 ∨ k.toNat = 2 := by omega
  exact hk.imp (fun h0 => UInt32.toNat_inj.1 h0) fun h2 => UInt32.toNat_inj.1 h2

/-- The word at `a` contains its byte `k`. -/
theorem wordAddress_lane : wordAddress (a + k) = a := by
  have hlt : k.toNat < 4 := hk
  rw [wordAddress, ← UInt32.toNat_inj, toNat_and_not_mask _ 3 2 rfl, toNat_lane hk ha]
  omega

theorem and_three_lane : (a + k) &&& 3 = k := by
  have hlt : k.toNat < 4 := hk
  rw [← UInt32.toNat_inj, toNat_and_mask _ 3 2 rfl, toNat_lane hk ha]
  omega

theorem byteLane_lane : byteLane (a + k) = 8 * k := by
  rw [byteLane, and_three_lane hk ha, UInt32.mul_comm]

theorem halfLane_lane (heven : k = 0 ∨ k = 2) : halfLane (a + k) = 8 * k := by
  have htwo : (a + k) &&& 2 = k := by
    rw [show (2 : UInt32) = 3 &&& 2 from rfl, ← UInt32.and_assoc, and_three_lane hk ha]
    rcases heven with rfl | rfl <;> rfl
  rw [halfLane, htwo, UInt32.mul_comm]

end Lanes

/-- Narrow writes into a word whose bits are written one by one act on their lane. -/
theorem WritesBitwise.keepsLanes (h : WritesBitwise δ a) (ha : 4 ∣ a.toNat) : KeepsLanes δ a where
  byte d k hk v := by
    rw [writeByte, byteLane_lane hk ha]
    refine h.mergesLane d (wordAddress_lane hk ha) (lane_lt hk) rfl ?_
    rw [UInt8.toNat_toUInt32]
    exact v.toNat_lt
  half d k heven v := by
    have hk : k < 4 := by rcases heven with rfl | rfl <;> decide
    rw [writeHalf, halfLane_lane hk ha heven]
    refine h.mergesLane d (wordAddress_lane hk ha) (lane_lt hk) rfl ?_
    rw [UInt16.toNat_toUInt32]
    exact v.toNat_lt

end Peripheral

open Peripheral

/-! ## The devices -/

namespace Intc

theorem shownAfter_eq (d : Intc) (a word : UInt32) :
    shownAfter d a word =
      if a = statusAddress then d.status &&& ~~~word
      else if a = maskAddress then d.mask ^^^ field32 word 0 15 else 0 := by
  show ((d.writeWord a word).device.readWord a).value = _
  unfold writeWord readWord
  split
  · rfl
  · split <;> rfl

theorem writesBitwise (a : UInt32) : WritesBitwise Intc a where
  read d := device_readWord d a
  bit d x y p h := by
    rw [shownAfter_eq, shownAfter_eq]
    split
    · simp [h]
    · split
      · simp [field32, h]
      · rfl
  carried d := by
    show shownAfter d a (shown d a &&& 0) = (d.readWord a).value
    rw [shownAfter_eq, UInt32.and_zero, readWord]
    split
    · simp
    · split
      · simp [field32]
      · rfl

end Intc

namespace Dmac

theorem device_readWord (d : Dmac) (a : UInt32) : (d.readWord a).device = d := by
  unfold readWord
  split <;> split <;> rfl

theorem shown_eq (d : Dmac) (a : UInt32) :
    shown d a =
      match DmaChannel.ofAddress? a with
      | some channel => (DmaChannel.register? a).elim 0 (d.channelWord channel)
      | none => (DmaRegister.ofAddress? a).elim 0 d.get := by
  show (d.readWord a).value = _
  unfold readWord
  split <;> split <;> simp [*]

theorem shownAfter_eq (d : Dmac) (a word : UInt32) :
    shownAfter d a word =
      match DmaChannel.ofAddress? a with
      | some _ => (DmaChannel.register? a).elim 0 fun _ => word
      | none => (DmaRegister.ofAddress? a).elim 0 fun register =>
        (d.set register word).get register := by
  show shown (d.writeWord a word).device a = _
  rw [shown_eq]
  unfold writeWord
  cases DmaChannel.ofAddress? a with
  | some channel =>
    cases DmaChannel.register? a with
    | some register => simp [channelWord, setChannelWord]
    | none => rfl
  | none => cases DmaRegister.ofAddress? a <;> rfl

theorem testBit32_set (d : Dmac) (register : DmaRegister) {x y p : UInt32}
    (h : testBit32 x p = testBit32 y p) :
    testBit32 ((d.set register x).get register) p =
      testBit32 ((d.set register y).get register) p := by
  cases register <;> simp [set, get, h]

theorem eq_of_status {a : UInt32} (h : DmaRegister.ofAddress? a = some .status) :
    a = 0x1000E010 := by
  unfold DmaRegister.ofAddress? at h
  split at h <;> first | rfl | cases h

/-- Writing back what a narrow write carries over leaves a global register as it is: of the status
register, where ones act, nothing is carried over. -/
theorem set_retained (d : Dmac) {a : UInt32} {register : DmaRegister}
    (h : DmaRegister.ofAddress? a = some register) :
    (d.set register (d.get register &&& retained a)).get register = d.get register := by
  unfold retained
  split
  · subst_vars
    cases h
    simp [set, get]
  · rename_i hne
    cases register with
    | status => exact absurd (eq_of_status h) hne
    | _ => simp [set, get]

theorem retained_of_channel {a : UInt32} {channel : DmaChannel}
    (h : DmaChannel.ofAddress? a = some channel) : retained a = 0xFFFFFFFF := by
  refine if_neg fun hstatus => ?_
  subst hstatus
  cases h

theorem writesBitwise (a : UInt32) : WritesBitwise Dmac a where
  read d := device_readWord d a
  bit d x y p h := by
    rw [shownAfter_eq, shownAfter_eq]
    cases DmaChannel.ofAddress? a with
    | some channel => cases DmaChannel.register? a <;> simp [h]
    | none =>
      cases DmaRegister.ofAddress? a with
      | some register => exact testBit32_set d register h
      | none => rfl
  carried d := by
    show shownAfter d a (shown d a &&& retained a) = shown d a
    rw [shownAfter_eq, shown_eq]
    cases hchannel : DmaChannel.ofAddress? a with
    | some channel =>
      rw [retained_of_channel hchannel]
      cases DmaChannel.register? a <;> simp
    | none =>
      cases hregister : DmaRegister.ofAddress? a with
      | some register => exact set_retained d hregister
      | none => rfl

end Dmac

namespace Sif

theorem device_readWord (d : Sif) (a : UInt32) : (d.readWord a).device = d := by
  unfold readWord
  split <;> rfl

theorem shown_eq (d : Sif) (a : UInt32) :
    shown d a = (SifRegister.ofAddress? a).elim 0 d.get := by
  show (d.readWord a).value = _
  unfold readWord
  cases SifRegister.ofAddress? a <;> rfl

theorem shownAfter_eq (d : Sif) (a word : UInt32) :
    shownAfter d a word =
      (SifRegister.ofAddress? a).elim 0 fun register => (d.set register word).get register := by
  show shown (d.writeWord a word).device a = _
  rw [shown_eq]
  unfold writeWord
  cases SifRegister.ofAddress? a <;> rfl

theorem eq_of_subFlag {a : UInt32} (h : SifRegister.ofAddress? a = some .subFlag) :
    a &&& 0xFF = 0x30 := by
  unfold SifRegister.ofAddress? at h
  split at h <;> first | assumption | cases h

/-- Writing back what a narrow write carries over leaves a register as it is, unless it is the
control register, whose writes set bits of their own. -/
theorem set_retained (d : Sif) {a : UInt32} {register : SifRegister}
    (h : SifRegister.ofAddress? a = some register) (hne : register ≠ .control) :
    (d.set register (d.get register &&& retained a)).get register = d.get register := by
  unfold retained
  split
  · rename_i hflag
    rw [SifRegister.ofAddress?, hflag] at h
    cases h
    simp [set, get]
  · rename_i hflag
    cases register with
    | subFlag => exact absurd (eq_of_subFlag h) hflag
    | control => exact absurd rfl hne
    | _ => simp [set, get]

theorem writesBitwise {a : UInt32} (ha : SifRegister.ofAddress? a ≠ some .control) :
    WritesBitwise Sif a where
  read d := device_readWord d a
  bit d x y p h := by
    rw [shownAfter_eq, shownAfter_eq]
    cases SifRegister.ofAddress? a with
    | some register => cases register <;> simp [set, get, h]
    | none => rfl
  carried d := by
    show shownAfter d a (shown d a &&& retained a) = shown d a
    rw [shownAfter_eq, shown_eq]
    cases hregister : SifRegister.ofAddress? a with
    | some register =>
      exact set_retained d hregister fun hcontrol => ha (hregister.trans (congrArg some hcontrol))
    | none => rfl

/-- A narrow write to the control register sets bits outside its lane. -/
theorem not_keepsLanes {a : UInt32} (ha : 4 ∣ a.toNat)
    (h : SifRegister.ofAddress? a = some .control) : ¬KeepsLanes Sif a := by
  intro hlanes
  have hout : ¬InLane (8 * 1) 8 0 := by decide
  have hkept := (hlanes.byte initial 1 (by decide) 0).outside 0 (by decide) hout
  rw [writeByte, shown_writeLane (fun d => device_readWord d a) _ (wordAddress_lane (by decide) ha),
    shownAfter_eq, shown_eq, h] at hkept
  have hset : testBit32 0xF0000001 0 = true := by decide
  simp [get, set, initial, hset] at hkept

end Sif

namespace Counter

theorem testBit32_toUInt32 (x : UInt16) (p : UInt32) :
    testBit32 x.toUInt32 p = x.toNat.testBit (p.toNat % 32) := by
  rw [testBit32_eq, UInt16.toNat_toUInt32]

theorem testBit_toUInt16 (x : UInt32) (p : UInt32) :
    x.toUInt16.toNat.testBit (p.toNat % 32) = (decide (p.toNat % 32 < 16) && testBit32 x p) := by
  rw [UInt32.toNat_toUInt16, Nat.testBit_mod_two_pow, testBit32_eq]

/-- Of a mode that is written, a flag stays set unless one is written to it. -/
theorem testBit_writeMode (c : Counter) (value : UInt16) (i : Nat) :
    (c.writeMode value).toNat.testBit i =
      if i = 10 ∨ i = 11 then c.mode.toNat.testBit i && !value.toNat.testBit i
      else value.toNat.testBit i := by
  simp only [writeMode, testBit_putBit16, equalFlagged, overflowFlagged, testBit16_eq]
  show (if 11 = i then c.mode.toNat.testBit 11 && !value.toNat.testBit 11
    else if 10 = i then c.mode.toNat.testBit 10 && !value.toNat.testBit 10
    else value.toNat.testBit i) = _
  by_cases h11 : i = 11
  · simp [h11]
  · by_cases h10 : i = 10
    · simp [h10]
    · rw [if_neg (Ne.symm h11), if_neg (Ne.symm h10), if_neg (not_or.2 ⟨h10, h11⟩)]

/-- The word of a register of the timer `i`, by its offset. -/
def wordAt (c : Counter) (i : Fin 4) (offset : UInt32) : UInt32 :=
  match offset with
  | 0x00 => c.count.toUInt32
  | 0x10 => c.mode.toUInt32
  | 0x20 => c.compare.toUInt32
  | 0x30 => if i.val < 2 then c.hold.toUInt32 else 0
  | _ => 0

/-- The word of a register of the timer `i`, by its offset, after a write there. -/
def wordAfter (c : Counter) (i : Fin 4) (offset word : UInt32) : UInt32 :=
  match offset with
  | 0x00 => word.toUInt16.toUInt32
  | 0x10 => (c.writeMode word.toUInt16).toUInt32
  | 0x20 => word.toUInt16.toUInt32
  | 0x30 => if i.val < 2 then word.toUInt16.toUInt32 else 0
  | _ => 0

theorem testBit32_wordAfter (c : Counter) (i : Fin 4) (offset : UInt32) {x y p : UInt32}
    (h : testBit32 x p = testBit32 y p) :
    testBit32 (c.wordAfter i offset x) p = testBit32 (c.wordAfter i offset y) p := by
  have hlow : testBit32 x.toUInt16.toUInt32 p = testBit32 y.toUInt16.toUInt32 p := by
    rw [testBit32_toUInt32, testBit32_toUInt32, testBit_toUInt16, testBit_toUInt16, h]
  have hmode : testBit32 (c.writeMode x.toUInt16).toUInt32 p =
      testBit32 (c.writeMode y.toUInt16).toUInt32 p := by
    simp only [testBit32_toUInt32] at hlow ⊢
    rw [testBit_writeMode, testBit_writeMode, hlow]
  unfold wordAfter
  split
  · exact hlow
  · exact hmode
  · exact hlow
  · split
    · exact hlow
    · rfl
  · rfl

/-- Writing a mode back with its flags clear leaves it as it is. -/
theorem writeMode_clear (c : Counter) : c.writeMode (c.mode &&& ~~~0xC00) = c.mode := by
  have hmask : ∀ i < 16, (~~~0xC00 : UInt16).toNat.testBit i = !decide (i = 10 ∨ i = 11) := by
    decide
  refine UInt16.toNat_inj.1 (Nat.eq_of_testBit_eq fun i => ?_)
  rw [testBit_writeMode, UInt16.toNat_and, Nat.testBit_and]
  by_cases hi : i < 16
  · rw [hmask i hi]
    by_cases hflag : i = 10 ∨ i = 11 <;> simp [hflag]
  · have hhigh : c.mode.toNat.testBit i = false := Nat.testBit_lt_two_pow
      (Nat.lt_of_lt_of_le c.mode.toNat_lt (Nat.pow_le_pow_right (by decide) (Nat.le_of_not_lt hi)))
    simp [hhigh]

theorem wordAfter_wordAt (c : Counter) (i : Fin 4) (offset : UInt32) :
    c.wordAfter i offset (c.wordAt i offset &&& if offset = 0x10 then ~~~0xC00 else 0xFFFFFFFF) =
      c.wordAt i offset := by
  unfold wordAfter wordAt
  split
  case h_2 =>
    show (c.writeMode (c.mode.toUInt32 &&& ~~~0xC00).toUInt16).toUInt32 = c.mode.toUInt32
    rw [UInt32.toUInt16_and, UInt16.toUInt16_toUInt32]
    exact congrArg _ c.writeMode_clear
  case h_4 => split <;> simp
  all_goals simp

end Counter

namespace Timer

theorem shown_eq (t : Timer) (a : UInt32) :
    shown t a = (index? a).elim 0 fun i => (t.counters.get i).wordAt i (offset a) := by
  show (t.readWord a).value = _
  unfold readWord
  cases index? a with
  | none => rfl
  | some i =>
    have hget : ∀ v : Vector Counter 4, v.get i = v[i.val] := fun _ => rfl
    dsimp only [Option.elim, Counter.wordAt]
    generalize offset a = o
    split
    case h_4 => split <;> simp [*]
    all_goals simp [*]

theorem shownAfter_eq (t : Timer) (a word : UInt32) :
    shownAfter t a word =
      (index? a).elim 0 fun i => (t.counters.get i).wordAfter i (offset a) word := by
  show shown (t.writeWord a word).device a = _
  rw [shown_eq]
  unfold writeWord
  cases index? a with
  | none => rfl
  | some i =>
    have hget : ∀ v : Vector Counter 4, v.get i = v[i.val] := fun _ => rfl
    dsimp only [Option.elim, Counter.wordAfter, Counter.wordAt]
    generalize offset a = o
    split
    case h_4 => split <;> simp [*]
    all_goals simp [*]

theorem writesBitwise (a : UInt32) : WritesBitwise Timer a where
  read t := device_readWord t a
  bit t x y p h := by
    rw [shownAfter_eq, shownAfter_eq]
    cases index? a with
    | none => rfl
    | some i => exact (t.counters.get i).testBit32_wordAfter i _ h
  carried t := by
    show shownAfter t a (shown t a &&& retained a) = shown t a
    rw [shownAfter_eq, shown_eq]
    cases index? a with
    | none => rfl
    | some i => exact (t.counters.get i).wordAfter_wordAt i _

end Timer

namespace Gs

theorem device_readWord (d : Gs) (a : UInt32) : (d.readWord a).device = d := by
  show (d.readDouble _).device = d
  unfold readDouble
  split <;> rfl

theorem toNat_wordLane (a : UInt32) : (wordLane a).toNat = 0 ∨ (wordLane a).toNat = 32 := by
  have hbit : (a &&& 4).toNat = (a.toNat.testBit 2).toNat * 2 ^ 2 :=
    (UInt32.toNat_and a 4).trans (Nat.and_two_pow a.toNat 2)
  rw [wordLane, UInt32.toNat_toUInt64, UInt32.toNat_mul, hbit]
  cases a.toNat.testBit 2
  · exact .inl rfl
  · exact .inr rfl

section Lane

variable {lane : UInt64} (hlane : lane.toNat = 0 ∨ lane.toNat = 32) (p : UInt32)
include hlane

/-- The bits of a half of a doubleword. -/
theorem testBit32_half (x : UInt64) :
    testBit32 (x >>> lane).toUInt32 p = x.toNat.testBit (lane.toNat + p.toNat % 32) := by
  have hlt : lane.toNat % 64 = lane.toNat := by omega
  have hp : p.toNat % 32 < 32 := Nat.mod_lt _ (by decide)
  rw [testBit32_eq, UInt64.toNat_toUInt32, Nat.testBit_mod_two_pow, UInt64.toNat_shiftRight, hlt,
    Nat.testBit_shiftRight, decide_eq_true hp, Bool.true_and]

theorem testBit_shiftedWord (word : UInt32) :
    (word.toUInt64 <<< lane).toNat.testBit (lane.toNat + p.toNat % 32) = testBit32 word p := by
  have hlt : lane.toNat % 64 = lane.toNat := by omega
  have hp : lane.toNat + p.toNat % 32 < 64 := by omega
  rw [UInt64.toNat_shiftLeft, hlt, Nat.testBit_mod_two_pow, decide_eq_true hp, Bool.true_and,
    Nat.testBit_shiftLeft, decide_eq_true (Nat.le_add_right ..), Bool.true_and,
    Nat.add_sub_cancel_left, UInt32.toNat_toUInt64, testBit32_eq]

/-- A half of a doubleword that is replaced by a word has the bits of the word. -/
theorem testBit_merged (x : UInt64) (word : UInt32) :
    (x &&& ~~~((0xFFFFFFFF : UInt64) <<< lane) ||| word.toUInt64 <<< lane).toNat.testBit
      (lane.toNat + p.toNat % 32) = testBit32 word p := by
  have hp : lane.toNat + p.toNat % 32 < 64 := by omega
  have hones : ((0xFFFFFFFF : UInt64) <<< lane).toNat.testBit (lane.toNat + p.toNat % 32) = true :=
    calc ((0xFFFFFFFF : UInt64) <<< lane).toNat.testBit (lane.toNat + p.toNat % 32)
        = testBit32 0xFFFFFFFF p := testBit_shiftedWord hlane p 0xFFFFFFFF
      _ = true := testBit32_ones p
  rw [UInt64.toNat_or, Nat.testBit_or, UInt64.toNat_and, Nat.testBit_and, testBit_not64 _ hp, hones,
    testBit_shiftedWord hlane, Bool.not_true, Bool.and_false, Bool.false_or]

end Lane

/-- What a bit of a register shows after a write: of the status register, an event flag that is not
written as one stays. -/
def bitAfter (d : Gs) (register : GsRegister) (i : Nat) (written : Bool) : Bool :=
  match register with
  | .status => (d.get .status).toNat.testBit i && !(written && eventFlags.toNat.testBit i)
  | _ => written

theorem shown_eq (d : Gs) (a p : UInt32) :
    testBit32 (shown d a) p = (GsRegister.ofAddress? (doubleAddress a)).elim false fun register =>
      (d.get register).toNat.testBit ((wordLane a).toNat + p.toNat % 32) := by
  show testBit32 ((d.readDouble (doubleAddress a)).value >>> wordLane a).toUInt32 p = _
  rw [testBit32_half (toNat_wordLane a), readDouble]
  cases GsRegister.ofAddress? (doubleAddress a) with
  | some register => rfl
  | none => exact Nat.zero_testBit _

theorem get_put (d : Gs) (register : GsRegister) (value : UInt64) :
    (d.put register value).get register = value :=
  Vector.getElem_set_self _

theorem shownAfter_eq (d : Gs) (a word p : UInt32) :
    testBit32 (shownAfter d a word) p =
      (GsRegister.ofAddress? (doubleAddress a)).elim false fun register =>
        d.bitAfter register ((wordLane a).toNat + p.toNat % 32) (testBit32 word p) := by
  have hp : (wordLane a).toNat + p.toNat % 32 < 64 := by
    have hlane := toNat_wordLane a
    omega
  show testBit32 (shown (d.writeWord a word).device a) p = _
  rw [shown_eq, writeWord]
  cases hregister : GsRegister.ofAddress? (doubleAddress a) with
  | none => rfl
  | some register =>
    cases register
    case status =>
      simp only [Option.elim, writeDouble, hregister, set, get_put, bitAfter]
      rw [UInt64.toNat_and, Nat.testBit_and, testBit_not64 _ hp, UInt64.toNat_and, Nat.testBit_and,
        testBit_merged (toNat_wordLane a)]
    all_goals
      simp only [Option.elim, writeDouble, readDouble, hregister, set, get_put, bitAfter]
      exact testBit_merged (toNat_wordLane a) p _ word

theorem writesBitwise (a : UInt32) : WritesBitwise Gs a where
  read d := device_readWord d a
  bit d x y p h := by rw [shownAfter_eq, shownAfter_eq, h]
  carried d := by
    refine eq_of_testBit32 fun p => ?_
    show testBit32 (shownAfter d a (shown d a &&& retained a)) p = testBit32 (shown d a) p
    have hslot : GsRegister.ofAddress? (doubleAddress a) = GsRegister.ofAddress? a := by
      rw [GsRegister.ofAddress?, doubleAddress, UInt32.and_assoc]
      rfl
    rw [shownAfter_eq, testBit32_and, shown_eq, retained, hslot]
    cases GsRegister.ofAddress? a with
    | none => rfl
    | some register =>
      cases register
      case status => simp [bitAfter]
      all_goals simp [bitAfter, testBit32_ones]

end Gs

/-- **A narrow write acts on its lane alone.** Of the interrupt controller, the timers, the DMA
controller and the graphics unit, in every state and at every aligned address, a byte or halfword
write shows in its lane what a word write with zeros around it would show there, and leaves the rest
of the word. Of the mailbox, so does a write to every register but the control register. -/
theorem Peripheral.narrowWrites_keepLanes {a : UInt32} (ha : 4 ∣ a.toNat) :
    KeepsLanes Intc a ∧ KeepsLanes Timer a ∧ KeepsLanes Dmac a ∧ KeepsLanes Gs a ∧
      (KeepsLanes Sif a ↔ SifRegister.ofAddress? a ≠ some .control) := by
  refine ⟨(Intc.writesBitwise a).keepsLanes ha, (Timer.writesBitwise a).keepsLanes ha,
    (Dmac.writesBitwise a).keepsLanes ha, (Gs.writesBitwise a).keepsLanes ha, ?_⟩
  exact ⟨fun hlanes hcontrol => Sif.not_keepsLanes ha hcontrol hlanes,
    fun hcontrol => (Sif.writesBitwise hcontrol).keepsLanes ha⟩

/-- The law at the status register of the DMA controller, which clears flags and toggles masks. -/
theorem Peripheral.narrowWrites_keepLanes_dmacStatus :
    4 ∣ (0x1000E010 : UInt32).toNat ∧ KeepsLanes Intc 0x1000E010 ∧ KeepsLanes Timer 0x1000E010 ∧
      KeepsLanes Dmac 0x1000E010 ∧ KeepsLanes Gs 0x1000E010 ∧
      (KeepsLanes Sif 0x1000E010 ↔ SifRegister.ofAddress? 0x1000E010 ≠ some .control) :=
  ⟨by decide, Peripheral.narrowWrites_keepLanes (by decide)⟩

end R5900
