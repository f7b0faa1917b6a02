import Mathlib.Logic.Function.Iterate
import R5900.Proofs.SystemControl

/-!
# Counting cycles

Cycles can be counted one by one or many at once. Counting many decides about the timer line by one
comparison: it subtracts the counter and one from the comparison value and compares the result with
the number of cycles, and both subtractions wrap. The result is the number of cycles that can be
counted before the one in which the counter reaches the comparison value
(`SystemControl.distance`), so the comparison is right wherever the two registers are.

* `SystemControl.countCycles_eq`: counting moves the counter on, and latches the timer line exactly
  if the counter passes the comparison value (`SystemControl.Passes`).
* `SystemControl.countCycles_add`: counting in two parts is counting the sum.
* `SystemControl.countCycles_batched`: so counting many cycles at once is counting them one by one.
-/

namespace R5900

namespace SystemControl

variable (s : SystemControl)

/-! ## Replacing a register -/

theorem put_get (r : ControlReg) : s.put r (s.get r) = s := by
  show (⟨s.registers.set r.index s.registers[r.index.val], s.latched⟩ : SystemControl) = s
  rw [Vector.set_getElem_self]

theorem put_put (r : ControlReg) (a b : UInt32) : (s.put r a).put r b = s.put r b := by
  simp only [put, Vector.set_set]

/-- Latching a line twice is latching it once. -/
theorem request_request (line : Line) : (s.request line).request line = s.request line := by
  simp only [request, UInt32.or_assoc, UInt32.or_self]

/-! ## The way to the comparison value -/

/-- How many cycles can be counted before the one in which the counter reaches the comparison
value. -/
def distance : Nat := (s.get .compare - s.get .count - 1).toNat

/-- Counting so many cycles takes the counter to the comparison value, or past it. -/
def Passes (cycles : UInt32) : Prop :=
  ∃ k : Nat, 1 ≤ k ∧ k ≤ cycles.toNat ∧ s.get .compare = s.get .count + UInt32.ofNat k

theorem distance_lt : s.distance < 2 ^ 32 := UInt32.toNat_lt _

/-- The comparison value is reached one cycle after the distance. -/
theorem compare_eq : s.get .compare = s.get .count + UInt32.ofNat (s.distance + 1) := by
  rw [UInt32.ofNat_add, distance, UInt32.ofNat_toNat]
  show _ = s.get .count + (s.get .compare - s.get .count - 1 + 1)
  rw [UInt32.sub_add_cancel, UInt32.add_comm, UInt32.sub_add_cancel]

theorem distance_of_compare {k : Nat} (hk : k < 2 ^ 32)
    (h : s.get .compare = s.get .count + UInt32.ofNat (k + 1)) : s.distance = k := by
  have hone : UInt32.ofNat (k + 1) - 1 = UInt32.ofNat k := by
    rw [UInt32.ofNat_add]
    exact UInt32.add_sub_cancel (UInt32.ofNat k) 1
  rw [distance, h, UInt32.add_comm, UInt32.add_sub_cancel, hone]
  exact UInt32.toNat_ofNat_of_lt' hk

theorem passes_iff (cycles : UInt32) : s.Passes cycles ↔ s.distance < cycles.toNat := by
  constructor
  · rintro ⟨k, hpos, hle, hcompare⟩
    obtain ⟨k, rfl⟩ : ∃ j, k = j + 1 := ⟨k - 1, (Nat.sub_add_cancel hpos).symm⟩
    rw [s.distance_of_compare (Nat.lt_trans hle cycles.toNat_lt) hcompare]
    exact hle
  · intro hlt
    exact ⟨s.distance + 1, Nat.le_add_left 1 _, hlt, s.compare_eq⟩

instance (cycles : UInt32) : Decidable (s.Passes cycles) :=
  decidable_of_iff _ (s.passes_iff cycles).symm

/-- The comparison that counting makes says whether the counter passes the comparison value. -/
theorem reachesCompare_eq (cycles : UInt32) : s.reachesCompare cycles = decide (s.Passes cycles) := by
  rw [reachesCompare, Bool.eq_iff_iff, Bool.and_eq_true, decide_eq_true_iff, decide_eq_true_iff,
    UInt32.lt_iff_toNat_lt, passes_iff]
  refine and_iff_right_of_imp fun hlt => bne_iff_ne.2 ?_
  rintro rfl
  exact Nat.not_lt_zero _ hlt

/-! ## Counting -/

/-- **Counting moves the counter on, and latches the timer line exactly if the counter passes the
comparison value.** -/
theorem countCycles_eq (cycles : UInt32) :
    s.countCycles cycles =
      if s.Passes cycles then (s.put .count (s.get .count + cycles)).request .timer
      else s.put .count (s.get .count + cycles) := by
  simp only [countCycles, reachesCompare_eq, decide_eq_true_iff]

theorem get_countCycles (cycles : UInt32) :
    (s.countCycles cycles).get .count = s.get .count + cycles := by
  have hcount := s.get_put_self .count (s.get .count + cycles)
  rw [countCycles_eq]
  split
  · exact hcount
  · exact hcount

/-- Counting takes the counter closer to the comparison value, until it is passed. -/
theorem distance_countCycles_of_not_passes {cycles : UInt32} (h : ¬s.Passes cycles) :
    (s.countCycles cycles).distance + cycles.toNat = s.distance := by
  rw [passes_iff, Nat.not_lt] at h
  have hlt := s.distance_lt
  have hsplit : UInt32.ofNat (s.distance + 1) =
      cycles + UInt32.ofNat (s.distance - cycles.toNat + 1) := by
    rw [show s.distance + 1 = cycles.toNat + (s.distance - cycles.toNat + 1) by omega,
      UInt32.ofNat_add, UInt32.ofNat_toNat]
  have hrest : (s.countCycles cycles).distance = s.distance - cycles.toNat := by
    refine distance_of_compare _ (by omega) ?_
    rw [get_countCycles_of_ne _ _ (by decide), get_countCycles, s.compare_eq, hsplit,
      UInt32.add_assoc]
  omega

/-- Counting nothing changes nothing. -/
theorem countCycles_zero : s.countCycles 0 = s := by
  have hpasses : ¬s.Passes 0 := fun h => Nat.not_lt_zero _ ((s.passes_iff 0).1 h)
  rw [countCycles_eq, if_neg hpasses, UInt32.add_zero, put_get]

/-- **Counting in two parts is counting the sum**, if that does not wrap. -/
theorem countCycles_add {a b : UInt32} (h : a.toNat + b.toNat < 2 ^ 32) :
    (s.countCycles a).countCycles b = s.countCycles (a + b) := by
  have hsum : (a + b).toNat = a.toNat + b.toNat := by
    rw [UInt32.toNat_add]
    exact Nat.mod_eq_of_lt h
  have hcount : (s.put .count (s.get .count + a)).put .count (s.get .count + a + b) =
      s.put .count (s.get .count + (a + b)) := by rw [put_put, UInt32.add_assoc]
  have hrequest : ∀ s' : SystemControl, ∀ value,
      (s'.request .timer).put .count value = (s'.put .count value).request .timer :=
    fun _ _ => rfl
  have hb := (s.countCycles a).countCycles_eq b
  rw [get_countCycles] at hb
  by_cases ha : s.Passes a
  · -- the first part latches the line already, so the second one cannot add to it
    have hab : s.Passes (a + b) := by
      rw [passes_iff] at ha ⊢
      omega
    rw [hb, s.countCycles_eq a, if_pos ha, s.countCycles_eq (a + b), if_pos hab, hrequest, hcount,
      request_request, ite_self]
  · have hrest := s.distance_countCycles_of_not_passes ha
    have hiff : (s.countCycles a).Passes b ↔ s.Passes (a + b) := by
      rw [passes_iff, passes_iff]
      omega
    rw [hb, s.countCycles_eq (a + b)]
    simp only [hiff]
    rw [s.countCycles_eq a, if_neg ha, hcount]

/-- Counting cycles one by one is counting them at once. -/
theorem countCycles_iterate {n : Nat} (hn : n < 2 ^ 32) :
    (fun s : SystemControl => s.countCycles 1)^[n] s = s.countCycles (UInt32.ofNat n) := by
  induction n with
  | zero => exact s.countCycles_zero.symm
  | succ n ih =>
    have hlt : n < 2 ^ 32 := Nat.lt_of_succ_lt hn
    have hfit : (UInt32.ofNat n).toNat + (1 : UInt32).toNat < 2 ^ 32 := by
      rw [UInt32.toNat_ofNat_of_lt' hlt]
      exact hn
    rw [Function.iterate_succ_apply', ih hlt, countCycles_add s hfit, UInt32.ofNat_add]
    rfl

/-- **Counting many cycles at once is counting them one by one.** Counting `a` cycles and then `b`
more, fewer than `2 ^ 32` together, leaves all registers and lines as counting `a + b` does. So any
number of cycles below `2 ^ 32` can be counted one by one; it moves the counter on and latches the
timer line exactly if the counter passes the comparison value on its way, and changes nothing else.
The counter passes nothing if no cycle is counted, or if it starts at the comparison value. -/
theorem countCycles_batched {a b : UInt32} (h : a.toNat + b.toNat < 2 ^ 32) :
    (s.countCycles a).countCycles b = s.countCycles (a + b) ∧
      (∀ n : UInt32, s.countCycles n = (fun s : SystemControl => s.countCycles 1)^[n.toNat] s ∧
        s.countCycles n =
          if s.Passes n then (s.put .count (s.get .count + n)).request .timer
          else s.put .count (s.get .count + n)) ∧
      ¬s.Passes 0 ∧ (s.get .compare = s.get .count → ∀ n, ¬s.Passes n) := by
  refine ⟨s.countCycles_add h, fun n => ⟨?_, s.countCycles_eq n⟩, ?_, fun hequal n => ?_⟩
  · rw [countCycles_iterate s n.toNat_lt, UInt32.ofNat_toNat]
  · rw [passes_iff]
    exact Nat.not_lt_zero _
  · -- a whole turn of the counter is one cycle more than can be counted
    have hfar : s.distance = 2 ^ 32 - 1 := by
      rw [distance, hequal, UInt32.sub_self]
      rfl
    have hn := n.toNat_lt
    rw [passes_iff]
    omega

/-- Nearly a whole turn of the counter, split before its last cycle, in which the counter wraps to the
comparison value. -/
theorem countCycles_batched_wrapping :
    let s := SystemControl.initial.put .count 1
    (0xFFFFFFFE : UInt32).toNat + (1 : UInt32).toNat < 2 ^ 32 ∧
      (s.countCycles 0xFFFFFFFE).countCycles 1 = s.countCycles (0xFFFFFFFE + 1) ∧
      (∀ n : UInt32, s.countCycles n = (fun s : SystemControl => s.countCycles 1)^[n.toNat] s ∧
        s.countCycles n =
          if s.Passes n then (s.put .count (s.get .count + n)).request .timer
          else s.put .count (s.get .count + n)) ∧
      ¬s.Passes 0 ∧ (s.get .compare = s.get .count → ∀ n, ¬s.Passes n) := by
  intro s
  have hfit : (0xFFFFFFFE : UInt32).toNat + (1 : UInt32).toNat < 2 ^ 32 := by decide
  exact ⟨hfit, s.countCycles_batched hfit⟩

end SystemControl

end R5900
