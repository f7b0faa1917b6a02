import Mathlib.Data.List.Basic
import R5900.Proofs.Bus.Operation
import R5900.Proofs.Device.BitAction

/-!
# The history of acknowledged and toggled bits

The status and the mask of the interrupt controller and the status of the DMA controller do not hold
what is written to them. This module says what their bits are after any history of latched sources and
of accesses on the bus, whatever the widths and the addresses of the accesses
(`Bus.bits_of_replay`): the latest event decides about a status bit of the interrupt controller, and
the parity of the stored ones about a mask bit.

The step is `Bus.bit_of_perform`: an access on the bus does to such a bit what is stored into it.
-/

namespace R5900

/-! ## Events -/

/-- A source is latched, or an access is made on the bus. -/
inductive BusEvent where
  | raise (source : InterruptSource)
  | access (operation : BusOperation)

/-- What an access stores into the bit `p` of the word at `a`; a read stores zero. -/
def BusOperation.stores (a p : UInt32) : BusOperation → Bool
  | read _ _ => false
  | write w address value => w.storedBit address value a p

namespace BusEvent

/-- The bus after an event. -/
def perform (b : Bus) : BusEvent → Except Fault Bus
  | raise source => .ok { b with devices := { b.devices with intc := b.devices.intc.raise source } }
  | access operation => Prod.snd <$> operation.perform b

/-- An event whose access the bus answers. -/
def Answerable : BusEvent → Prop
  | raise _ => True
  | access operation => operation.Answerable

/-- What an event stores into the bit `p` of the word at `a`; latching a source stores zero. -/
def stores (a p : UInt32) : BusEvent → Bool
  | raise _ => false
  | access operation => operation.stores a p

/-- What an event makes of the status bit `p` of the interrupt controller, if it does anything to it:
the bit is set when its source is latched and cleared when a one is stored into it. -/
def latch? (p : UInt32) : BusEvent → Option Bool
  | raise source => if source.bit = p then some true else none
  | access operation => if operation.stores Intc.statusAddress p then some false else none

end BusEvent

/-- The bus after events in order. -/
def Bus.replay (b : Bus) : List BusEvent → Except Fault Bus
  | [] => .ok b
  | event :: events => do
    let b ← event.perform b
    b.replay events

/-! ## Histories of a bit -/

section History

variable {α : Type}

/-- Of events that decide about a bit or leave it alone, the last that decides counts. -/
theorem foldl_getD_eq (f : α → Option Bool) (y : Bool) (events : List α) :
    events.foldl (fun y event => (f event).getD y) y = (events.filterMap f).getLast?.getD y := by
  induction events generalizing y with
  | nil => rfl
  | cons event events ih =>
    rw [List.foldl_cons, ih, List.filterMap_cons]
    cases f event with
    | none => rfl
    | some value => rw [List.getLast?_cons, Option.getD_some, Option.getD_some]

/-- Events that toggle a bit count by their parity. -/
theorem foldl_xor_eq (f : α → Bool) (y : Bool) (events : List α) :
    events.foldl (fun y event => y ^^ f event) y = (y ^^ decide (events.countP f % 2 = 1)) := by
  induction events generalizing y with
  | nil => exact (Bool.xor_false y).symm
  | cons event events ih =>
    rw [List.foldl_cons, ih, List.countP_cons, Bool.xor_assoc]
    congr 1
    cases f event with
    | false => exact Bool.false_xor _
    | true =>
      rw [Bool.true_xor, if_pos rfl, ← decide_not, decide_eq_decide]
      omega

end History

namespace Bus

/-! ## One event -/

section Step

variable {b : Bus} (hmap : b.map = standardMap)
include hmap

/-- **An access on the bus does to a bit what it stores into it**, if the word of the bit lies in a
region of its device. -/
theorem bit_of_perform {δ : Type} [Peripheral δ] (P : Bank.Part δ) {a p : UInt32} {bit : δ → Bool}
    {act : Bool → Bool → Bool} (hacts : Peripheral.ActsOnBit a p bit act) (hp : p < 32)
    (ha : 16 ∣ a.toNat) (hroute : b.route a = .device P.unit) {operation : BusOperation}
    (h : operation.Answerable) {answer : Option Nat × Bus}
    (hanswer : operation.perform b = .ok answer) :
    bit (P.get answer.2.devices) = act (bit (P.get b.devices)) (operation.stores a p) := by
  cases operation with
  | read w address =>
    obtain ⟨r, hr, hanswer⟩ := exists_of_bind_eq_ok hanswer
    cases hanswer
    show bit (P.get r.bus.devices) = act (bit (P.get b.devices)) false
    rw [hacts.idle]
    rcases part_of_read P hr with ⟨r', hr', hget⟩ | hget <;> rw [hget]
    exact hacts.read hr'
  | write w address value =>
    obtain ⟨r, hr, hanswer⟩ := exists_of_bind_eq_ok hanswer
    cases hanswer
    show bit (P.get r.bus.devices) = act (bit (P.get b.devices)) (w.storedBit address value a p)
    rcases part_of_write P hr with ⟨-, r', hr', hget⟩ | ⟨hother, hget⟩ <;> rw [hget]
    · exact hacts.write hp ha h hr'
    · -- a write that reaches the word goes where the word is
      have hstored : w.storedBit address value a p = false := by
        refine Width.storedBit_of_disjoint value hp fun hreach => hother ?_
        obtain ⟨region, hmem, hcontains⟩ := exists_mem_of_route hmap hroute
        have hslot := slot_eq_of_overlap h (Nat.dvd_trans (by decide) ha) hreach
        exact route_of_mem hmap hmem (contains_of_slot_eq hmem hslot hcontains)
      rw [hstored, hacts.idle]

variable {event : BusEvent} {b' : Bus} (h : event.Answerable) (hevent : event.perform b = .ok b')
include h hevent

theorem map_of_event : b'.map = standardMap := by
  cases event with
  | raise source => cases hevent; exact hmap
  | access operation =>
    obtain ⟨answer, hanswer, rfl⟩ := exists_of_map_eq_ok hevent
    exact (map_of_perform hanswer).trans hmap

variable {p : UInt32} (hp : p < 32)
include hp

theorem intcStatus_of_event : testBit32 b'.devices.intc.status p =
    (event.latch? p).getD (testBit32 b.devices.intc.status p) := by
  cases event with
  | raise source =>
    cases hevent
    have hbit : source.bit.toNat % 32 = p.toNat % 32 ↔ source.bit = p := by
      have hsource : source.bit.toNat < 32 := by cases source <;> decide
      have hp : p.toNat < 32 := hp
      rw [Nat.mod_eq_of_lt hsource, Nat.mod_eq_of_lt hp, UInt32.toNat_inj]
    refine (b.devices.intc.testBit32_raise source p).trans ?_
    simp only [hbit, BusEvent.latch?]
    split <;> rfl
  | access operation =>
    obtain ⟨answer, hanswer, rfl⟩ := exists_of_map_eq_ok hevent
    have hmem : (Region.slot Intc.statusAddress, UnitId.intc) ∈ standardMap := by decide
    refine (bit_of_perform hmap Bank.intcPart (Intc.actsOnBit_status p) hp (by decide)
      (route_of_mem hmap hmem (by decide)) h hanswer).trans ?_
    simp only [BusEvent.latch?]
    cases operation.stores Intc.statusAddress p with
    | true => exact Bool.and_false _
    | false => exact Bool.and_true _

theorem intcMask_of_event : testBit32 b'.devices.intc.mask p =
    (testBit32 b.devices.intc.mask p ^^ (event.stores Intc.maskAddress p && decide (p < 15))) := by
  cases event with
  | raise source => cases hevent; exact (Bool.xor_false _).symm
  | access operation =>
    obtain ⟨answer, hanswer, rfl⟩ := exists_of_map_eq_ok hevent
    have hmem : (Region.slot Intc.maskAddress, UnitId.intc) ∈ standardMap := by decide
    exact bit_of_perform hmap Bank.intcPart (Intc.actsOnBit_mask hp) hp (by decide)
      (route_of_mem hmap hmem (by decide)) h hanswer

theorem dmacStatus_of_event : testBit32 b'.devices.dmac.status p =
    ((testBit32 b.devices.dmac.status p &&
      !(event.stores Dmac.statusAddress p && testBit32 Dmac.statusFlags p)) ^^
      (event.stores Dmac.statusAddress p && testBit32 Dmac.maskFlags p)) := by
  cases event with
  | raise source => cases hevent; simp [BusEvent.stores]
  | access operation =>
    obtain ⟨answer, hanswer, rfl⟩ := exists_of_map_eq_ok hevent
    have hmem : (Region.range 0x10008000 0x1000F000, UnitId.dmac) ∈ standardMap := by decide
    exact bit_of_perform hmap Bank.dmacPart (Dmac.actsOnBit_status p) hp (by decide)
      (route_of_mem hmap hmem (by decide)) h hanswer

end Step

/-! ## All events -/

section Replay

variable {b : Bus} (hmap : b.map = standardMap) {events : List BusEvent}
  (h : ∀ event ∈ events, event.Answerable)
include hmap h

theorem exists_of_replay : ∃ b', b.replay events = .ok b' := by
  induction events generalizing b with
  | nil => exact ⟨b, rfl⟩
  | cons event events ih =>
    have hevent := h event List.mem_cons_self
    obtain ⟨b₁, hb₁⟩ : ∃ b₁, event.perform b = .ok b₁ := by
      cases event with
      | raise source => exact ⟨_, rfl⟩
      | access operation =>
        obtain ⟨answer, hanswer⟩ := exists_of_perform hmap hevent
        exact ⟨answer.2, by rw [BusEvent.perform, hanswer]; rfl⟩
    obtain ⟨b', hb'⟩ := ih (map_of_event hmap hevent hb₁) fun event' hmem =>
      h event' (List.mem_cons_of_mem _ hmem)
    exact ⟨b', by rw [replay, hb₁]; exact hb'⟩

/-- What every event does to a bit, all events do to it in order. -/
theorem bit_of_replay (bit : Bus → Bool) (act : Bool → BusEvent → Bool)
    (hstep : ∀ {b b' : Bus} {event : BusEvent}, b.map = standardMap → event.Answerable →
      event.perform b = .ok b' → bit b' = act (bit b) event)
    {b' : Bus} (hreplay : b.replay events = .ok b') : bit b' = events.foldl act (bit b) := by
  induction events generalizing b with
  | nil => cases hreplay; rfl
  | cons event events ih =>
    obtain ⟨b₁, hb₁, hreplay⟩ := exists_of_bind_eq_ok hreplay
    have hevent := h event List.mem_cons_self
    rw [List.foldl_cons, ← hstep hmap hevent hb₁]
    exact ih (map_of_event hmap hevent hb₁)
      (fun event' hmem => h event' (List.mem_cons_of_mem _ hmem)) hreplay

end Replay

/-- **Acknowledged and toggled bits are functions of their history.** Start with a new interrupt
controller and a new DMA controller on the standard map, and let sources be latched and accesses be
made in any order: aligned ones of any width anywhere, and reads between the memories at any address.
All accesses answer. Afterwards a status bit of the interrupt controller is set exactly if the last
event among the latchings of its source and the ones stored into it is a latching; a mask bit is set
exactly if it has a source and an odd number of ones was stored into it; and a status bit of the DMA
controller is set exactly if it is one of the masks and an odd number of ones was stored into it. -/
theorem bits_of_replay {b : Bus} (hmap : b.map = standardMap)
    (hintc : b.devices.intc = .initial) (hdmac : b.devices.dmac = .initial)
    (events : List BusEvent) (h : ∀ event ∈ events, event.Answerable) :
    ∃ b', b.replay events = .ok b' ∧ ∀ p : UInt32, p < 32 →
      (testBit32 b'.devices.intc.status p = true ↔
        (events.filterMap (·.latch? p)).getLast? = some true) ∧
      (testBit32 b'.devices.intc.mask p = true ↔
        p < 15 ∧ events.countP (·.stores Intc.maskAddress p) % 2 = 1) ∧
      (testBit32 b'.devices.dmac.status p = true ↔
        testBit32 0x63FF0000 p = true ∧
          events.countP (·.stores Dmac.statusAddress p) % 2 = 1) := by
  obtain ⟨b', hreplay⟩ := exists_of_replay hmap h
  refine ⟨b', hreplay, fun p hp => ⟨?_, ?_, ?_⟩⟩
  · have hstatus := bit_of_replay hmap h (fun b => testBit32 b.devices.intc.status p)
      (fun y event => (event.latch? p).getD y)
      (fun hmap h hevent => intcStatus_of_event hmap h hevent hp) hreplay
    rw [hintc] at hstatus
    rw [hstatus, foldl_getD_eq]
    cases (events.filterMap (·.latch? p)).getLast? <;> simp [Intc.initial]
  · have hmask := bit_of_replay hmap h (fun b => testBit32 b.devices.intc.mask p)
      (fun y event => y ^^ (event.stores Intc.maskAddress p && decide (p < 15)))
      (fun hmap h hevent => intcMask_of_event hmap h hevent hp) hreplay
    rw [hintc] at hmask
    rw [hmask, foldl_xor_eq]
    by_cases hlow : p < 15 <;> simp [Intc.initial, hlow]
  · have hstatus := bit_of_replay hmap h (fun b => testBit32 b.devices.dmac.status p)
      (fun y event =>
        (y && !(event.stores Dmac.statusAddress p && testBit32 Dmac.statusFlags p)) ^^
          (event.stores Dmac.statusAddress p && testBit32 Dmac.maskFlags p))
      (fun hmap h hevent => dmacStatus_of_event hmap h hevent hp) hreplay
    have hclear : testBit32 Dmac.initial.status p = false := testBit32_zero p
    rw [hdmac, hclear] at hstatus
    have hmasks : testBit32 0x63FF0000 p = testBit32 Dmac.maskFlags p := rfl
    -- no bit is both a flag and a mask
    have hflags : (testBit32 Dmac.statusFlags p && testBit32 Dmac.maskFlags p) = false := by
      rw [← testBit32_and]
      exact testBit32_zero p
    rw [hstatus, hmasks]
    cases hmask : testBit32 Dmac.maskFlags p with
    | false =>
      rw [List.foldl_fixed' (fun event => by rw [Bool.and_false, Bool.false_and]; rfl) events]
      simp
    | true =>
      rw [hmask, Bool.and_true] at hflags
      simp only [hflags, Bool.and_false, Bool.not_false, Bool.and_true]
      rw [foldl_xor_eq]
      simp

/-- A latched source that is acknowledged by a byte, its mask bit toggled by a halfword, and a mask of
the DMA controller toggled by a quadword. -/
theorem bits_of_replay_acknowledged :
    let b := (Simulation.initial .standard none).machine.bus
    let events : List BusEvent :=
      [.raise .timer0, .access (.write .byte 0x1000F001 (0x02 : UInt8)),
        .access (.write .half 0x1000F010 (0x0200 : UInt16)),
        .access (.write .quad 0x1000E010 ⟨0x10000, 0⟩)]
    b.map = standardMap ∧ b.devices.intc = .initial ∧ b.devices.dmac = .initial ∧
      (∀ event ∈ events, event.Answerable) ∧
      ∃ b', b.replay events = .ok b' ∧ ∀ p : UInt32, p < 32 →
        (testBit32 b'.devices.intc.status p = true ↔
          (events.filterMap (·.latch? p)).getLast? = some true) ∧
        (testBit32 b'.devices.intc.mask p = true ↔
          p < 15 ∧ events.countP (·.stores Intc.maskAddress p) % 2 = 1) ∧
        (testBit32 b'.devices.dmac.status p = true ↔
          testBit32 0x63FF0000 p = true ∧
            events.countP (·.stores Dmac.statusAddress p) % 2 = 1) := by
  intro b events
  have hbyte : Width.byte.bytes ∣ (0x1000F001 : UInt32).toNat := by decide
  have hhalf : Width.half.bytes ∣ (0x1000F010 : UInt32).toNat := by decide
  have hquad : Width.quad.bytes ∣ (0x1000E010 : UInt32).toNat := by decide
  have hanswerable : ∀ event ∈ events, event.Answerable :=
    List.forall_mem_cons.2 ⟨trivial, List.forall_mem_cons.2 ⟨hbyte,
      List.forall_mem_cons.2 ⟨hhalf, List.forall_mem_singleton.2 hquad⟩⟩⟩
  exact ⟨rfl, rfl, rfl, hanswerable, bits_of_replay (b := b) rfl rfl rfl events hanswerable⟩

end Bus

end R5900
