import R5900.Execute.Instruction
import R5900.Proofs.Bus.Access

/-!
# Actions that do not fault

How an action runs, part by part: an equation for each way to begin a sequence of actions, and for
virtual accesses.

* An address is aligned to a width exactly if it is a multiple of it (`Exec.isAligned_iff`).
* An aligned virtual access is done, and changes nothing but the scratchpad or what the accesses on
  the bus change (`Machine.read_eq_done`, `Machine.write_eq_done`).
-/

namespace R5900

namespace Exec

/-! ## Sequences -/

section Sequence

variable {α β : Type} {m : Machine} {k : α → Exec β}

theorem run_bind_done {x : Exec α} {a : α} {m' : Machine} (h : x.run m = .done a m') :
    (x >>= k).run m = (k a).run m' := by
  have hx : x m = .done a m' := h
  simp only [run, bind, hx]

theorem run_bind_raised {x : Exec α} {e : Exception} {m' : Machine} (h : x.run m = .raised e m') :
    (x >>= k).run m = .raised e m' := by
  have hx : x m = .raised e m' := h
  simp only [run, bind, hx]

theorem run_bind_faulted {x : Exec α} {fault : Fault} (h : x.run m = .faulted fault) :
    (x >>= k).run m = .faulted fault := by
  have hx : x m = .faulted fault := h
  simp only [run, bind, hx]

@[simp] theorem run_pure (a : α) : (pure a : Exec α).run m = .done a m := rfl

@[simp] theorem run_raise (e : Exception) : (raise e : Exec α).run m = .raised e m := rfl

-- the parentheses keep `simp` from rewriting by definition: the kernel would have to find out again
-- by unfolding both sides, down to the arithmetic of the operands
@[simp] theorem run_ofCore_bind (f : Core → α) :
    (ofCore f >>= k).run m = (k (f m.core)).run m := (rfl)

@[simp] theorem run_onCore_bind (f : Core → Core) (k : Unit → Exec β) :
    (onCore f >>= k).run m = (k ()).run { m with core := f m.core } := (rfl)

theorem run_ofChecked_bind {x : Except Fault α} {a : α} (h : x = .ok a) :
    (ofChecked x >>= k).run m = (k a).run m := by
  subst h
  rfl

/-- Sequences of actions may be grouped in any way. -/
theorem bind_bind {γ : Type} (x : Exec α) (f : α → Exec β) (g : β → Exec γ) :
    (x >>= f) >>= g = x >>= fun a => f a >>= g := by
  funext m
  show ((x >>= f) >>= g).run m = (x >>= fun a => f a >>= g).run m
  cases hx : x.run m with
  | done a m' =>
    simp only [run, bind] at hx ⊢
    rw [hx]
  | raised e m' => rw [run_bind_raised hx, run_bind_raised (run_bind_raised hx)]
  | faulted fault => rw [run_bind_faulted hx, run_bind_faulted (run_bind_faulted hx)]

end Sequence

/-! ## Alignment -/

/-- The alignment test of an access says that its address is a multiple of its width. -/
theorem isAligned_iff (w : Width) (a : UInt32) : isAligned w a = true ↔ w.bytes ∣ a.toNat := by
  unfold isAligned
  rw [decide_eq_true_iff, ← UInt32.toNat_inj, Nat.dvd_iff_mod_eq_zero]
  cases w with
  | byte => rw [toNat_and_mask a _ 0 rfl]; rfl
  | half => rw [toNat_and_mask a _ 1 rfl]; rfl
  | word => rw [toNat_and_mask a _ 2 rfl]; rfl
  | double => rw [toNat_and_mask a _ 3 rfl]; rfl
  | quad => rw [toNat_and_mask a _ 4 rfl]; rfl

/-- The address of the word that contains a byte is aligned. -/
theorem dvd_wordAddress (a : UInt32) : Width.word.bytes ∣ (a &&& ~~~3).toNat := by
  rw [← isAligned_iff]
  simp [isAligned, UInt32.and_assoc, Width.bytes]

/-- The address of the doubleword that contains a byte is aligned. -/
theorem dvd_doubleAddress (a : UInt32) : Width.double.bytes ∣ (a &&& ~~~7).toNat := by
  rw [← isAligned_iff]
  simp [isAligned, UInt32.and_assoc, Width.bytes]

end Exec

/-! ## Virtual accesses -/

namespace Machine

/-- An aligned virtual read is done; it leaves the core alone. -/
theorem read_eq_done (w : Width) {a : UInt32} (ha : w.bytes ∣ a.toNat) (m : Machine) :
    ∃ v m', (Machine.read w a).run m = .done v m' ∧ m'.core = m.core ∧ m.bus.Accessed m'.bus := by
  obtain ⟨core, bus, journal⟩ := m
  have hfit := Location.fits_ofVirtual w ha
  simp only [Exec.run, Machine.read]
  cases hloc : Location.ofVirtual a with
  | scratchpad offset =>
    rw [hloc] at hfit
    simp only [Memory.load_eq_ok _ _ hfit]
    exact ⟨_, _, rfl, rfl, .refl⟩
  | bus address =>
    rw [hloc] at hfit
    obtain ⟨r, hr⟩ := bus.read_eq_ok w hfit.1 hfit.2
    simp only [hr]
    exact ⟨_, _, rfl, rfl, Bus.Accessed.refl.read hr⟩

/-- An aligned virtual write is done; of the core it changes the scratchpad only. -/
theorem write_eq_done (w : Width) {a : UInt32} (value : w.Value) (ha : w.bytes ∣ a.toNat)
    (m : Machine) :
    ∃ m', (Machine.write w a value).run m = .done () m' ∧
      (∃ scratchpad, m'.core = { m.core with scratchpad := scratchpad }) ∧
      m.bus.Accessed m'.bus := by
  obtain ⟨core, bus, journal⟩ := m
  have hfit := Location.fits_ofVirtual w ha
  simp only [Exec.run, Machine.write]
  cases hloc : Location.ofVirtual a with
  | scratchpad offset =>
    rw [hloc] at hfit
    have hfits : core.scratchpad.fits w offset = true := decide_eq_true hfit
    simp only [hfits, if_true]
    exact ⟨_, rfl, ⟨_, rfl⟩, .refl⟩
  | bus address =>
    rw [hloc] at hfit
    obtain ⟨r, hr⟩ := bus.write_eq_ok w value hfit.1 hfit.2
    simp only [hr]
    exact ⟨_, rfl, ⟨core.scratchpad, rfl⟩, Bus.Accessed.refl.write hr⟩

end Machine

end R5900
