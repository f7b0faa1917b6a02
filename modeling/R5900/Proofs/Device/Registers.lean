import R5900.Proofs.Device.HeldBytes

/-!
# The registers of the devices

A device is told by what it does with addresses: which register an address is decoded into, what a
register holds and how a write changes it (`Peripheral.Decodes`). For every device whose decoding is
more than the comparison of an address this module gives the three, and says that a write to one
register shows in no other (`Sif.get_set_of_ne`, `Timer.held_written`, `Dmac.held_written`,
`Gs.held_written`); of the DMA controller, only a write to the enable register does.
-/

namespace R5900

namespace Peripheral

/-- The device decodes addresses into registers. At an address it shows what `get` takes from the
register there, and a write changes the device as `set` does; where there is no register it shows
zero and ignores writes. -/
structure Decodes {δ ρ : Type} [Peripheral δ] (register? : UInt32 → Option ρ)
    (get : δ → ρ → UInt32) (set : δ → ρ → UInt32 → δ) : Prop where
  shown : ∀ (d : δ) (a : UInt32), shown d a = (register? a).elim 0 (get d)
  read : ∀ (d : δ) (a : UInt32), (readWord d a).device = d
  write : ∀ (d : δ) (a word : UInt32),
    (writeWord d a word).device = (register? a).elim d fun register => set d register word

end Peripheral

open Peripheral

/-! ## The mailbox -/

namespace SifRegister

/-- The low byte of the addresses of a register. -/
def offset : SifRegister → UInt32
  | .mainCommand => 0x00
  | .subCommand => 0x10
  | .mainFlag => 0x20
  | .subFlag => 0x30
  | .control => 0x40
  | .bd6 => 0x60

theorem and_of_ofAddress? {a : UInt32} {register : SifRegister} (h : ofAddress? a = some register) :
    a &&& 0xFF = register.offset := by
  unfold ofAddress? at h
  split at h <;> cases h <;> assumption

end SifRegister

namespace Sif

theorem get_set_of_ne (d : Sif) {register register' : SifRegister} (word : UInt32)
    (h : register ≠ register') : (d.set register word).get register' = d.get register' := by
  cases register <;> cases register' <;> first | rfl | exact absurd rfl h

theorem decodes : Decodes SifRegister.ofAddress? get set where
  shown := shown_eq
  read := device_readWord
  write d a word := by
    show (d.writeWord a word).device = _
    unfold writeWord
    cases SifRegister.ofAddress? a <;> rfl

end Sif

/-! ## The timers -/

namespace Counter

/-- The timer `i` after a word is written to its register at an offset. -/
def written (c : Counter) (i : Fin 4) (offset word : UInt32) : Counter :=
  match offset with
  | 0x00 => { c with count := word.toUInt16, prescaler := 0 }
  | 0x10 => { c with mode := c.writeMode word.toUInt16 }
  | 0x20 => { c with compare := word.toUInt16 }
  | 0x30 => if i.val < 2 then { c with hold := word.toUInt16 } else c
  | _ => c

/-- A write to one register of a timer does not show in another one. -/
theorem wordAt_written (c : Counter) (i : Fin 4) {offset offset' : UInt32} (word : UInt32)
    (h : offset ≠ offset') : (c.written i offset word).wordAt i offset' = c.wordAt i offset' := by
  unfold written
  split
  case h_4 =>
    split
    · unfold wordAt
      split <;> first | rfl | exact absurd rfl h
    · rfl
  all_goals
    unfold wordAt
    split <;> first | rfl | exact absurd rfl h

end Counter

namespace Timer

/-- The timer `i` has a register at the offset; only the first two have the last one. -/
def HasRegister (i : Fin 4) (offset : UInt32) : Prop :=
  offset = 0 ∨ offset = 0x10 ∨ offset = 0x20 ∨ offset = 0x30 ∧ i.val < 2

instance (i : Fin 4) (offset : UInt32) : Decidable (HasRegister i offset) :=
  inferInstanceAs (Decidable (_ ∨ _))

/-- The timer and the offset of the register at an address. -/
def register? (a : UInt32) : Option (Fin 4 × UInt32) :=
  (index? a).bind fun i => if HasRegister i (offset a) then some (i, offset a) else none

theorem register?_eq_some_iff {a : UInt32} {r : Fin 4 × UInt32} :
    register? a = some r ↔ index? a = some r.1 ∧ offset a = r.2 ∧ HasRegister r.1 r.2 := by
  obtain ⟨i, o⟩ := r
  simp only [register?, Option.bind_eq_some_iff, Option.ite_none_right_eq_some, Option.some.injEq,
    Prod.mk.injEq]
  constructor
  · rintro ⟨j, hindex, hregister, rfl, rfl⟩
    exact ⟨hindex, rfl, hregister⟩
  · rintro ⟨hindex, rfl, hregister⟩
    exact ⟨i, hindex, hregister, rfl, rfl⟩

theorem offset_lt (a : UInt32) : (offset a).toNat < 0x800 := by
  rw [offset, toNat_and_mask a 0x7FF 11 rfl]
  exact Nat.mod_lt _ (by decide)

/-- The address of a timer is told by the timer and the offset in it. -/
theorem toNat_of_index? {a : UInt32} {i : Fin 4} (h : index? a = some i) :
    a.toNat = 0x10000000 + 0x800 * i.val + (offset a).toNat := by
  have hindex : ((a - base) / stride).toNat = i.val := by
    dsimp only [index?] at h
    split at h
    · rw [← Option.some.inj h]
    · cases h
  have hquotient : (a - base).toNat / 0x800 = i.val := by rwa [UInt32.toNat_div] at hindex
  have ha : a.toNat = (a - base).toNat + 0x10000000 := by
    have hsum := congrArg UInt32.toNat (UInt32.sub_add_cancel a base)
    rw [UInt32.toNat_add] at hsum
    refine (hsum.symm.trans (Nat.mod_eq_of_lt ?_))
    show (a - base).toNat + 0x10000000 < 2 ^ 32
    omega
  rw [offset, toNat_and_mask a 0x7FF 11 rfl]
  omega

theorem bounds_of_index? {a : UInt32} {i : Fin 4} (h : index? a = some i) :
    0x10000000 ≤ a.toNat ∧ a.toNat < 0x10002000 := by
  have ha := toNat_of_index? h
  have hoffset := offset_lt a
  omega

/-- Two addresses of one register are the same. -/
theorem eq_of_register? {a b : UInt32} {r : Fin 4 × UInt32} (ha : register? a = some r)
    (hb : register? b = some r) : a = b := by
  obtain ⟨hia, hoa, -⟩ := register?_eq_some_iff.1 ha
  obtain ⟨hib, hob, -⟩ := register?_eq_some_iff.1 hb
  exact UInt32.toNat_inj.1 (by rw [toNat_of_index? hia, toNat_of_index? hib, hoa, hob])

/-- What a register of a timer holds. -/
def held (t : Timer) (r : Fin 4 × UInt32) : UInt32 := (t.counters.get r.1).wordAt r.1 r.2

/-- The effect of a write on a register of a timer. -/
def written (t : Timer) (r : Fin 4 × UInt32) (word : UInt32) : Timer :=
  { t with counters := t.counters.set r.1 ((t.counters.get r.1).written r.1 r.2 word) }

theorem device_writeWord (t : Timer) (a word : UInt32) :
    (t.writeWord a word).device = (index? a).elim t fun i => t.written (i, offset a) word := by
  unfold writeWord
  cases index? a with
  | none => rfl
  | some i =>
    have hget : ∀ v : Vector Counter 4, v.get i = v[i.val] := fun _ => rfl
    dsimp only [Option.elim, written, Counter.written]
    generalize offset a = o
    split
    case h_4 => split <;> simp [*]
    all_goals simp [*]

theorem decodes : Decodes register? held written where
  shown t a := by
    rw [shown_eq, register?]
    cases index? a with
    | none => rfl
    | some i =>
      by_cases h : HasRegister i (offset a)
      · simp only [Option.bind_some, if_pos h, Option.elim_some, held]
      · simp only [Option.bind_some, if_neg h, Option.elim_some, Option.elim_none]
        unfold HasRegister at h
        unfold Counter.wordAt
        split <;> simp_all
  read := device_readWord
  write t a word := by
    show (t.writeWord a word).device = _
    rw [device_writeWord, register?]
    cases index? a with
    | none => rfl
    | some i =>
      by_cases h : HasRegister i (offset a)
      · simp only [Option.bind_some, if_pos h, Option.elim_some]
      · have hsame : (t.counters.get i).written i (offset a) word = t.counters.get i := by
          unfold HasRegister at h
          unfold Counter.written
          split <;> simp_all
        simp only [Option.bind_some, if_neg h, Option.elim_some, Option.elim_none, written, hsame]
        show (⟨t.counters.set i t.counters[i.val], t.raised⟩ : Timer) = t
        rw [Vector.set_getElem_self]

theorem held_written (t : Timer) {r s : Fin 4 × UInt32} (word : UInt32) (hne : s ≠ r) :
    (t.written s word).held r = t.held r := by
  obtain ⟨i, o⟩ := r
  obtain ⟨j, o'⟩ := s
  show ((t.counters.set j _)[i.val]).wordAt i o = (t.counters[i.val]).wordAt i o
  by_cases hij : j = i
  · subst hij
    rw [Vector.getElem_set_self]
    exact Counter.wordAt_written _ _ _ fun heq => hne (congrArg (Prod.mk j) heq)
  · rw [Vector.getElem_set_ne _ _ fun heq => hij (Fin.ext heq)]

end Timer

/-! ## The DMA controller -/

namespace DmaChannel

/-- The low byte of the addresses of a channel's register. -/
def offset : Fin 7 → UInt32
  | 0 => 0x00
  | 1 => 0x10
  | 2 => 0x20
  | 3 => 0x30
  | 4 => 0x40
  | 5 => 0x50
  | 6 => 0x80

theorem and_of_register? {a : UInt32} {register : Fin 7} (h : register? a = some register) :
    a &&& 0xFF = offset register := by
  unfold register? at h
  split at h <;> cases h <;> assumption

theorem index_injective {channel channel' : DmaChannel}
    (h : channel.index.val = channel'.index.val) : channel = channel' := by
  cases channel <;> cases channel' <;> first | rfl | exact absurd h (by decide)

end DmaChannel

namespace DmaRegister

/-- The address of a global register. -/
def address : DmaRegister → UInt32
  | .control => 0x1000E000
  | .status => 0x1000E010
  | .priority => 0x1000E020
  | .skip => 0x1000E030
  | .ringSize => 0x1000E040
  | .ringOffset => 0x1000E050
  | .stall => 0x1000E060
  | .enabled => Dmac.enabledAddress
  | .enable => Dmac.enableAddress

theorem eq_of_ofAddress? {a : UInt32} {register : DmaRegister} (h : ofAddress? a = some register) :
    a = register.address := by
  unfold ofAddress? at h
  split at h <;> cases h <;> rfl

end DmaRegister

namespace Dmac

/-- The register at an address, of a channel or a global one. -/
def register? (a : UInt32) : Option (DmaChannel × Fin 7 ⊕ DmaRegister) :=
  match DmaChannel.ofAddress? a with
  | some channel => (DmaChannel.register? a).map fun i => .inl (channel, i)
  | none => (DmaRegister.ofAddress? a).map .inr

/-- What a register holds. -/
def held (d : Dmac) : DmaChannel × Fin 7 ⊕ DmaRegister → UInt32
  | .inl (channel, i) => d.channelWord channel i
  | .inr register => d.get register

/-- The effect of a write on a register. -/
def written (d : Dmac) (r : DmaChannel × Fin 7 ⊕ DmaRegister) (word : UInt32) : Dmac :=
  match r with
  | .inl (channel, i) => d.setChannelWord channel i word
  | .inr register => d.set register word

theorem decodes : Decodes register? held written where
  shown d a := by
    rw [shown_eq, register?]
    cases DmaChannel.ofAddress? a with
    | some channel => cases DmaChannel.register? a <;> rfl
    | none => cases DmaRegister.ofAddress? a <;> rfl
  read := device_readWord
  write d a word := by
    show (d.writeWord a word).device = _
    rw [writeWord, register?]
    cases DmaChannel.ofAddress? a with
    | some channel => cases DmaChannel.register? a <;> rfl
    | none => cases DmaRegister.ofAddress? a <;> rfl

/-- Only a write to the enable register shows in another register. -/
theorem held_written (d : Dmac) {r s : DmaChannel × Fin 7 ⊕ DmaRegister} (word : UInt32)
    (hne : s ≠ r) (henable : ¬(s = .inr .enable ∧ r = .inr .enabled)) :
    (d.written s word).held r = d.held r := by
  match s, r with
  | .inl (channel, i), .inl (channel', j) =>
    show ((d.channels.set channel.index _)[channel'.index.val])[j.val] =
      (d.channels[channel'.index.val])[j.val]
    by_cases hchannel : channel = channel'
    · subst hchannel
      rw [Vector.getElem_set_self]
      refine Vector.getElem_set_ne _ _ fun heq => hne ?_
      rw [Fin.ext heq]
    · rw [Vector.getElem_set_ne _ _ fun heq => hchannel (DmaChannel.index_injective heq)]
  | .inl _, .inr register => cases register <;> rfl
  | .inr register, .inl _ => cases register <;> rfl
  | .inr register, .inr register' =>
    cases register <;> cases register' <;>
      first | rfl | exact absurd rfl hne | exact absurd ⟨rfl, rfl⟩ henable

theorem channel_of_register? {a : UInt32} {channel : DmaChannel} {i : Fin 7}
    (h : register? a = some (.inl (channel, i))) :
    DmaChannel.ofAddress? a = some channel ∧ DmaChannel.register? a = some i := by
  unfold register? at h
  cases hchannel : DmaChannel.ofAddress? a with
  | some channel' =>
    rw [hchannel] at h
    obtain ⟨j, hj, heq⟩ := Option.map_eq_some_iff.1 h
    cases heq
    exact ⟨rfl, hj⟩
  | none =>
    rw [hchannel] at h
    obtain ⟨register, -, heq⟩ := Option.map_eq_some_iff.1 h
    cases heq

theorem eq_address_of_register? {a : UInt32} {register : DmaRegister}
    (h : register? a = some (.inr register)) : a = register.address := by
  unfold register? at h
  cases hchannel : DmaChannel.ofAddress? a with
  | some channel =>
    rw [hchannel] at h
    obtain ⟨i, -, heq⟩ := Option.map_eq_some_iff.1 h
    cases heq
  | none =>
    rw [hchannel] at h
    obtain ⟨register', hregister, heq⟩ := Option.map_eq_some_iff.1 h
    cases heq
    exact DmaRegister.eq_of_ofAddress? hregister

end Dmac

/-! ## The graphics unit -/

namespace Gs

/-- The register whose slot contains a word, and the lowest bit of the word in it. -/
def register? (a : UInt32) : Option (GsRegister × UInt64) :=
  (GsRegister.ofAddress? (doubleAddress a)).map fun register => (register, wordLane a)

/-- What a half of a register holds. -/
def held (d : Gs) (r : GsRegister × UInt64) : UInt32 := (d.get r.1 >>> r.2).toUInt32

/-- A doubleword with a half of it replaced. -/
def merged (x lane : UInt64) (word : UInt32) : UInt64 :=
  x &&& ~~~((0xFFFFFFFF : UInt64) <<< lane) ||| word.toUInt64 <<< lane

/-- The effect of a write on a half of a register; of the status register nothing is written
back. -/
def written (d : Gs) (r : GsRegister × UInt64) (word : UInt32) : Gs :=
  d.set r.1 (merged (if r.1 = .status then 0 else d.get r.1) r.2 word)

theorem decodes : Decodes register? held written where
  shown d a := by
    show ((d.readDouble (doubleAddress a)).value >>> wordLane a).toUInt32 = _
    rw [readDouble, register?]
    cases GsRegister.ofAddress? (doubleAddress a) with
    | some register => rfl
    | none =>
      show ((0 : UInt64) >>> wordLane a).toUInt32 = 0
      rw [UInt64.zero_shiftRight]
      rfl
  read := device_readWord
  write d a word := by
    show (d.writeWord a word).device = _
    rw [writeWord, register?]
    cases hregister : GsRegister.ofAddress? (doubleAddress a) with
    | none =>
      simp only [readDouble, writeDouble, hregister]
      rfl
    | some register =>
      cases register <;> simp only [readDouble, writeDouble, hregister] <;> rfl

section Halves

variable {lane lane' : UInt64} (hlane : lane.toNat = 0 ∨ lane.toNat = 32)
  (hlane' : lane'.toNat = 0 ∨ lane'.toNat = 32) (hne : lane ≠ lane') (p : UInt32)
include hlane hlane' hne

theorem testBit_shiftedWord_other (word : UInt32) :
    (word.toUInt64 <<< lane).toNat.testBit (lane'.toNat + p.toNat % 32) = false := by
  have hne : lane.toNat ≠ lane'.toNat := fun heq => hne (UInt64.toNat_inj.1 heq)
  have hlt : lane.toNat % 64 = lane.toNat := by omega
  rw [UInt64.toNat_shiftLeft, hlt, Nat.testBit_mod_two_pow, Nat.testBit_shiftLeft,
    UInt32.toNat_toUInt64]
  rcases hlane with h | h
  · have hhigh : 32 ≤ lane'.toNat + p.toNat % 32 - lane.toNat := by omega
    rw [Nat.testBit_lt_two_pow (Nat.lt_of_lt_of_le word.toNat_lt
      (Nat.pow_le_pow_right (by decide) hhigh)), Bool.and_false, Bool.and_false]
  · have hlow : ¬lane.toNat ≤ lane'.toNat + p.toNat % 32 := by omega
    rw [decide_eq_false hlow, Bool.false_and, Bool.and_false]

/-- A half of a doubleword stays when the other one is replaced. -/
theorem testBit_merged_other (x : UInt64) (word : UInt32) :
    (merged x lane word).toNat.testBit (lane'.toNat + p.toNat % 32) =
      x.toNat.testBit (lane'.toNat + p.toNat % 32) := by
  have hp : lane'.toNat + p.toNat % 32 < 64 := by omega
  have hones := testBit_shiftedWord_other hlane hlane' hne p 0xFFFFFFFF
  rw [merged, UInt64.toNat_or, Nat.testBit_or, UInt64.toNat_and, Nat.testBit_and,
    testBit_not64 _ hp, testBit_shiftedWord_other hlane hlane' hne p word, Bool.or_false]
  exact (congrArg (fun bit => _ && !bit) hones).trans (Bool.and_true _)

end Halves

theorem get_set_of_ne (d : Gs) {register register' : GsRegister} (value : UInt64)
    (h : register ≠ register') : (d.set register value).get register' = d.get register' := by
  cases register <;> exact d.get_put_of_ne _ h

/-- A write to a half of a register does not show in any other half. -/
theorem held_written (d : Gs) {r s : GsRegister × UInt64} (word : UInt32)
    (hr : r.2.toNat = 0 ∨ r.2.toNat = 32) (hs : s.2.toNat = 0 ∨ s.2.toNat = 32) (hne : s ≠ r) :
    (d.written s word).held r = d.held r := by
  obtain ⟨register, lane'⟩ := r
  obtain ⟨register', lane⟩ := s
  by_cases hregister : register' = register
  · subst hregister
    have hlanes : lane ≠ lane' := fun heq => hne (by rw [heq])
    refine eq_of_testBit32 fun p => ?_
    rw [held, held, testBit32_half hr, testBit32_half hr, written]
    have hp : lane'.toNat + p.toNat % 32 < 64 := by
      have hr : lane'.toNat = 0 ∨ lane'.toNat = 32 := hr
      omega
    have hother := fun x => testBit_merged_other hs hr hlanes p x word
    cases register'
    case status =>
      -- only event flags that are written as one are cleared, and none is written here
      simp only [set, get_put, if_pos]
      rw [UInt64.toNat_and, Nat.testBit_and, testBit_not64 _ hp, UInt64.toNat_and, Nat.testBit_and,
        hother]
      simp
    all_goals
      simp only [set, get_put, reduceCtorEq, if_false]
      exact hother _
  · exact congrArg (fun x => (x >>> lane').toUInt32) (d.get_set_of_ne _ hregister)

theorem toNat_doubleAddress (a : UInt32) : (doubleAddress a).toNat = a.toNat - a.toNat % 8 :=
  toNat_and_not_mask a 7 3 rfl

theorem ofAddress?_doubleAddress (a : UInt32) :
    GsRegister.ofAddress? (doubleAddress a) = GsRegister.ofAddress? a :=
  GsRegister.ofAddress?_congr (by
    rw [toNat_doubleAddress]
    omega)

end Gs

end R5900
