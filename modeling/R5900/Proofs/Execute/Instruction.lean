import R5900.Proofs.Action
import R5900.Proofs.Execute.Specification
import R5900.Proofs.Instruction.Decoding

/-!
# Instructions do what they are meant to do

`Instruction.execute_settles` is the one case analysis over all instructions: executed on any
machine, an instruction whose shift amount fits either raises an exception that it is meant to raise
and leaves the machine as it was, or it is done and raises nothing (`Instruction.Completes`). Being
done says where control goes, and that the bus has changed by accesses only.

The other results read off it: `Instruction.interpret_raises_iff` says when a decoded word raises an
exception.
-/

namespace R5900

open Exec

/-! ## Aligned loads and stores -/

namespace Exec

section Aligned

variable {w : Width} {base : Gpr} {offset : UInt16} {m : Machine}

theorem run_loadAligned (h : w.bytes ∣ (m.core.addressOf base offset).toNat) :
    (loadAligned w base offset).run m =
      (Machine.read w (m.core.addressOf base offset)).run m := by
  rw [Core.addressOf_eq] at h ⊢
  simp only [loadAligned, effectiveAddress, run_ofCore_bind, (isAligned_iff w _).2 h, if_true]

theorem run_loadAligned_of_not (h : ¬w.bytes ∣ (m.core.addressOf base offset).toNat) :
    (loadAligned w base offset).run m =
      .raised (.addressErrorLoad (m.core.addressOf base offset)) m := by
  rw [Core.addressOf_eq] at h ⊢
  rw [← isAligned_iff] at h
  simp only [loadAligned, effectiveAddress, run_ofCore_bind, if_neg h, run_raise]

theorem run_storeAligned {value : w.Value} (h : w.bytes ∣ (m.core.addressOf base offset).toNat) :
    (storeAligned w base offset value).run m =
      (Machine.write w (m.core.addressOf base offset) value).run m := by
  rw [Core.addressOf_eq] at h ⊢
  simp only [storeAligned, effectiveAddress, run_ofCore_bind, (isAligned_iff w _).2 h, if_true]

theorem run_storeAligned_of_not {value : w.Value}
    (h : ¬w.bytes ∣ (m.core.addressOf base offset).toNat) :
    (storeAligned w base offset value).run m =
      .raised (.addressErrorStore (m.core.addressOf base offset)) m := by
  rw [Core.addressOf_eq] at h ⊢
  rw [← isAligned_iff] at h
  simp only [storeAligned, effectiveAddress, run_ofCore_bind, if_neg h, run_raise]

end Aligned

/-! ## Partial accesses -/

/-- A partial load is done, whatever the address. -/
theorem run_loadPart (op : PartLoadOp) (rt : Gpr) (a : UInt32) (m : Machine) :
    ∃ m', (Exec.loadPart op rt a).run m = .done () m' ∧
      m'.core.sequencing = m.core.sequencing ∧ m.bus.Accessed m'.bus := by
  cases op with
  | lwl =>
    obtain ⟨v, m', hrun, hcore, hbus⟩ := Machine.read_eq_done .word (dvd_wordAddress a) m
    refine ⟨_, run_bind_done hrun, ?_, hbus⟩
    simp [hcore]
  | lwr =>
    obtain ⟨v, m', hrun, hcore, hbus⟩ := Machine.read_eq_done .word (dvd_wordAddress a) m
    refine ⟨_, run_bind_done hrun, ?_, hbus⟩
    dsimp only
    split <;> simp [hcore]
  | ldl =>
    obtain ⟨v, m', hrun, hcore, hbus⟩ := Machine.read_eq_done .double (dvd_doubleAddress a) m
    refine ⟨_, run_bind_done hrun, ?_, hbus⟩
    simp [hcore]
  | ldr =>
    obtain ⟨v, m', hrun, hcore, hbus⟩ := Machine.read_eq_done .double (dvd_doubleAddress a) m
    refine ⟨_, run_bind_done hrun, ?_, hbus⟩
    simp [hcore]

/-- Reading an aligned value and writing one computed from it is done. -/
theorem run_modify {α : Type} (w : Width) {a : UInt32} (ha : w.bytes ∣ a.toNat) (f : Core → α)
    (g : w.Value → α → w.Value) (m : Machine) :
    ∃ m', (do
        let memory ← Machine.read w a
        let value ← ofCore f
        Machine.write w a (g memory value)).run m = .done () m' ∧
      m'.core.sequencing = m.core.sequencing ∧ m.bus.Accessed m'.bus := by
  obtain ⟨v, m₁, hread, hcore, hbus⟩ := Machine.read_eq_done w ha m
  obtain ⟨m₂, hwrite, ⟨scratchpad, hcore'⟩, hbus'⟩ :=
    Machine.write_eq_done w (g v (f m₁.core)) ha m₁
  refine ⟨m₂, (run_bind_done hread).trans hwrite, ?_, hbus.trans hbus'⟩
  rw [hcore', hcore]
  rfl

/-- A partial store is done, whatever the address. -/
theorem run_storePart (op : PartStoreOp) (rt : Gpr) (a : UInt32) (m : Machine) :
    ∃ m', (Exec.storePart op rt a).run m = .done () m' ∧
      m'.core.sequencing = m.core.sequencing ∧ m.bus.Accessed m'.bus := by
  cases op with
  | swl => exact run_modify .word (dvd_wordAddress a) _ _ m
  | swr => exact run_modify .word (dvd_wordAddress a) _ _ m
  | sdl => exact run_modify .double (dvd_doubleAddress a) _ _ m
  | sdr => exact run_modify .double (dvd_doubleAddress a) _ _ m

end Exec

/-! ## All instructions -/

namespace Instruction

section Partial

variable {rt base : Gpr} {offset : UInt16} {pc : UInt32} {m m' : Machine}

theorem run_loadPart {op : PartLoadOp}
    (h : (Exec.loadPart op rt (m.core.addressOf base offset)).run m = .done () m') :
    (execute (.loadPart op rt offset base) pc).run m = .done (pc + 4) m' := by
  simp only [execute, effectiveAddress, run_ofCore_bind, ← Core.addressOf_eq]
  exact run_bind_done h

theorem run_storePart {op : PartStoreOp}
    (h : (Exec.storePart op rt (m.core.addressOf base offset)).run m = .done () m') :
    (execute (.storePart op rt offset base) pc).run m = .done (pc + 4) m' := by
  simp only [execute, effectiveAddress, run_ofCore_bind, ← Core.addressOf_eq]
  exact run_bind_done h

end Partial

/-- How an instruction at `pc` that is done has changed the machine `m` into `m'`, with the address
`next` of the next instruction. -/
def Effect (i : Instruction) (pc : UInt32) (m : Machine) (next : UInt32) (m' : Machine) : Prop :=
  match i.transfer pc m.core with
  | .next => next = pc + 4 ∧ m'.core.sequencing = m.core.sequencing
  | .branch target => next = pc + 4 ∧ m' = { m with core := (i.link pc m.core).branchTo target }
  | .skip => next = pc + 8 ∧ m' = { m with core := i.link pc m.core }
  | .resume target =>
    next = target ∧ m' = { m with core.control := m.core.control.exceptionReturn.2 }

/-- An instruction at `pc` is done with the machine `m` as it is meant to be. -/
structure Completes (i : Instruction) (pc : UInt32) (m : Machine) (next : UInt32) (m' : Machine) :
    Prop where
  quiet : ∀ e, ¬Raises m.core i e
  effect : i.Effect pc m next m'
  accessed : m.bus.Accessed m'.bus

/-- On the machine `m`, an instruction at `pc` raises what it is meant to raise and changes nothing,
or is done as it is meant to be. -/
def Settles (i : Instruction) (pc : UInt32) (m : Machine) : Prop :=
  (∃ e, (i.execute pc).run m = .raised e m ∧ Raises m.core i e) ∨
    ∃ next m', (i.execute pc).run m = .done next m' ∧ i.Completes pc m next m'

section Classes

variable {i : Instruction} {pc : UInt32} {m : Machine}

/-- Instructions that only change registers and the journal settle. -/
theorem settles_plain {c : Core} {j : Journal}
    (hrun : (i.execute pc).run m = .done (pc + 4) ⟨c, m.bus, j⟩)
    (hquiet : ∀ e, ¬Raises m.core i e) (hnext : i.transfer pc m.core = .next)
    (hc : c.sequencing = m.core.sequencing) : i.Settles pc m := by
  refine .inr ⟨_, _, hrun, hquiet, ?_, .refl⟩
  rw [Effect, hnext]
  exact ⟨rfl, hc⟩

/-- Instructions that access the bus and then go on settle. -/
theorem settles_access {m' : Machine} (hrun : (i.execute pc).run m = .done (pc + 4) m')
    (hquiet : ∀ e, ¬Raises m.core i e) (hnext : i.transfer pc m.core = .next)
    (hc : m'.core.sequencing = m.core.sequencing) (hbus : m.bus.Accessed m'.bus) :
    i.Settles pc m := by
  refine .inr ⟨_, _, hrun, hquiet, ?_, hbus⟩
  rw [Effect, hnext]
  exact ⟨rfl, hc⟩

/-- Jumps settle. -/
theorem settles_jump {target : UInt32}
    (hrun : (i.execute pc).run m =
      .done (pc + 4) { m with core := (i.link pc m.core).branchTo target })
    (hquiet : ∀ e, ¬Raises m.core i e) (hbranch : i.transfer pc m.core = .branch target) :
    i.Settles pc m := by
  refine .inr ⟨_, _, hrun, hquiet, ?_, .refl⟩
  rw [Effect, hbranch]
  exact ⟨rfl, rfl⟩

/-- Instructions that compute a checked doubleword settle, if the checks hold. -/
theorem settles_checked (rd : Gpr) {x : Except Fault UInt64} (hx : ∃ v, x = .ok v)
    (hrun : (i.execute pc).run m = (setChecked rd x >>= fun _ => pure (pc + 4)).run m)
    (hquiet : ∀ e, ¬Raises m.core i e) (hnext : i.transfer pc m.core = .next) :
    i.Settles pc m := by
  obtain ⟨v, rfl⟩ := hx
  exact settles_plain hrun hquiet hnext (Core.sequencing_setDouble ..)

/-- Multiplications settle. -/
theorem settles_product {pipe : Pipeline} {rd : Gpr} {value : UInt64}
    (hrun : (i.execute pc).run m = (setProduct pipe rd value >>= fun _ => pure (pc + 4)).run m)
    (hquiet : ∀ e, ¬Raises m.core i e) (hnext : i.transfer pc m.core = .next) :
    i.Settles pc m :=
  settles_plain hrun hquiet hnext (by simp)

/-- Conditional branches settle. -/
theorem settles_branch {taken likely : Bool} {target : UInt32}
    (hrun : (i.execute pc).run m =
      (branch pc taken likely target).run { m with core := i.link pc m.core })
    (hquiet : ∀ e, ¬Raises m.core i e)
    (htransfer : i.transfer pc m.core = .conditional taken likely target) : i.Settles pc m := by
  cases taken with
  | true => exact settles_jump hrun hquiet htransfer
  | false =>
    cases likely with
    | true =>
      refine .inr ⟨_, _, hrun, hquiet, ?_, .refl⟩
      rw [Effect, htransfer]
      exact ⟨rfl, rfl⟩
    | false => exact settles_plain hrun hquiet htransfer (Core.sequencing_link ..)

/-- Traps settle. -/
theorem settles_trap {test : TrapTest} {a b : UInt64}
    (hrun : (i.execute pc).run m =
      (trapIf (test.holds a b) >>= fun _ => pure (pc + 4)).run m)
    (hraises : ∀ e, Raises m.core i e ↔ test.Compares a b ∧ e = .trap)
    (hnext : i.transfer pc m.core = .next) : i.Settles pc m := by
  by_cases h : test.Compares a b
  · rw [(test.holds_iff a b).2 h] at hrun
    exact .inl ⟨_, hrun, (hraises _).2 ⟨h, rfl⟩⟩
  · have hfalse : test.holds a b = false := by
      rw [← Bool.not_eq_true, test.holds_iff a b]
      exact h
    rw [hfalse] at hrun
    refine settles_plain hrun ?_ hnext rfl
    intro e he
    exact h ((hraises e).1 he).1

section Aligned

variable {w : Width} {base : Gpr} {offset : UInt16}

/-- Aligned loads settle. -/
theorem settles_load (f : w.Value → Core → Core)
    (hrun : (i.execute pc).run m =
      (loadAligned w base offset >>= fun v => onCore (f v) >>= fun _ => pure (pc + 4)).run m)
    (hraises : ∀ e, Raises m.core i e ↔ ¬w.bytes ∣ (m.core.addressOf base offset).toNat ∧
      e = .addressErrorLoad (m.core.addressOf base offset))
    (hnext : i.transfer pc m.core = .next)
    (hf : ∀ v, (f v m.core).sequencing = m.core.sequencing) : i.Settles pc m := by
  by_cases ha : w.bytes ∣ (m.core.addressOf base offset).toNat
  · obtain ⟨v, m', hread, hcore, hbus⟩ := Machine.read_eq_done w ha m
    have hload := (run_loadAligned ha).trans hread
    refine settles_access (hrun.trans (run_bind_done hload)) ?_ hnext ?_ hbus
    · intro e he
      exact ((hraises e).1 he).1 ha
    · show (f v m'.core).sequencing = m.core.sequencing
      rw [hcore]
      exact hf v
  · exact .inl ⟨_, hrun.trans (run_bind_raised (run_loadAligned_of_not ha)),
      (hraises _).2 ⟨ha, rfl⟩⟩

/-- Aligned stores settle. -/
theorem settles_store (value : w.Value)
    (hrun : (i.execute pc).run m =
      (storeAligned w base offset value >>= fun _ => pure (pc + 4)).run m)
    (hraises : ∀ e, Raises m.core i e ↔ ¬w.bytes ∣ (m.core.addressOf base offset).toNat ∧
      e = .addressErrorStore (m.core.addressOf base offset))
    (hnext : i.transfer pc m.core = .next) : i.Settles pc m := by
  by_cases ha : w.bytes ∣ (m.core.addressOf base offset).toNat
  · obtain ⟨m', hwrite, ⟨scratchpad, hcore⟩, hbus⟩ := Machine.write_eq_done w value ha m
    have hstore := (run_storeAligned ha).trans hwrite
    refine settles_access (hrun.trans (run_bind_done hstore)) ?_ hnext ?_ hbus
    · intro e he
      exact ((hraises e).1 he).1 ha
    · rw [hcore]
      rfl
  · exact .inl ⟨_, hrun.trans (run_bind_raised (run_storeAligned_of_not ha)),
      (hraises _).2 ⟨ha, rfl⟩⟩

end Aligned

end Classes

/-- **Every instruction whose shift amount fits settles on every machine.** -/
theorem execute_settles (i : Instruction) (pc : UInt32) (m : Machine) (hi : i.ShiftsFit) :
    i.Settles pc m := by
  cases i with
  | shift op rd rt amount =>
    refine settles_checked rd (op.eval_eq_ok (m.core.double rt) hi) ?_ nofun rfl
    simp only [execute, run_ofCore_bind]
  | shiftBy op rd rt rs =>
    refine settles_checked rd (op.eval_eq_ok (m.core.double rt) (m.core.word rs)) ?_ nofun rfl
    simp only [execute, run_ofCore_bind]
  | leadingSigns rd rs =>
    refine settles_checked rd (leadingSignsOf_eq_ok (m.core.double rs)) ?_ nofun rfl
    simp only [execute, run_ofCore_bind]
  | multiply signed pipe rd rs rt =>
    obtain ⟨v, hv⟩ := product_eq_ok signed (m.core.word rs) (m.core.word rt)
    have hrun : (execute (.multiply signed pipe rd rs rt) pc).run m =
        (setProduct pipe rd v >>= fun _ => pure (pc + 4)).run m := by
      simp only [execute, run_ofCore_bind, run_ofChecked_bind hv]
    exact settles_product hrun nofun rfl
  | multiplyAdd signed pipe rd rs rt =>
    obtain ⟨v, hv⟩ := product_eq_ok signed (m.core.word rs) (m.core.word rt)
    have hrun : (execute (.multiplyAdd signed pipe rd rs rt) pc).run m =
        (setProduct pipe rd (m.core.accumulator pipe + v) >>= fun _ => pure (pc + 4)).run m := by
      simp only [execute, run_ofCore_bind, run_ofChecked_bind hv]
    exact settles_product hrun nofun rfl
  | divide signed pipe rs rt =>
    obtain ⟨⟨q, r⟩, hv⟩ := quotient_eq_ok signed (m.core.word rs) (m.core.word rt)
    have hrun : (execute (.divide signed pipe rs rt) pc).run m =
        .done (pc + 4) { m with core := m.core.setResultWords pipe r q } := by
      simp only [execute, run_ofCore_bind, run_ofChecked_bind hv, run_onCore_bind, run_pure]
    exact settles_plain hrun nofun rfl (Core.sequencing_setResultWords ..)
  | moveIf isZero rd rs rt =>
    refine settles_plain rfl nofun rfl ?_
    dsimp only
    split
    · exact Core.sequencing_setDouble ..
    · rfl
  | syscall => exact .inl ⟨_, rfl, .syscall⟩
  | breakpoint => exact .inl ⟨_, rfl, .breakpoint⟩
  | trap test rs rt =>
    refine settles_trap ?_ (fun _ => Raises.trap_iff) rfl
    simp only [execute, run_ofCore_bind]
  | trapImm test rs imm =>
    refine settles_trap ?_ (fun _ => Raises.trapImm_iff) rfl
    simp only [execute, run_ofCore_bind]
  | jumpRegister rs => exact settles_jump rfl nofun rfl
  | jumpLinkRegister rd rs => exact settles_jump rfl nofun rfl
  | jump link target => cases link <;> exact settles_jump rfl nofun rfl
  | branchPair test likely rs rt offset =>
    refine settles_branch ?_ nofun rfl
    simp only [execute, run_ofCore_bind, link]
  | branchZero test likely rs offset =>
    refine settles_branch ?_ nofun rfl
    simp only [execute, run_ofCore_bind, link]
  | branchLink test likely rs offset =>
    refine settles_branch ?_ nofun rfl
    simp only [execute, run_ofCore_bind, run_onCore_bind, link]
  | branchFloat condition likely offset =>
    refine settles_branch ?_ nofun rfl
    simp only [execute, run_ofCore_bind, link]
  | exceptionReturn => exact .inr ⟨_, _, rfl, nofun, ⟨rfl, rfl⟩, .refl⟩
  | load op rt offset base =>
    refine settles_load (fun v c => c.setQuad rt (op.extend v (c.quad rt))) ?_
      (fun _ => Raises.load_iff) rfl (fun _ => Core.sequencing_setQuad ..)
    simp only [execute]
  | store op rt offset base =>
    refine settles_store (op.width.ofQuad (m.core.quad rt)) ?_ (fun _ => Raises.store_iff) rfl
    simp only [execute, run_ofCore_bind]
  | loadFloat ft offset base =>
    refine settles_load (fun v c => { c with float := c.float.put ft v }) ?_
      (fun _ => Raises.loadFloat_iff) rfl (fun _ => rfl)
    simp only [execute]
  | storeFloat ft offset base =>
    refine settles_store (m.core.float.get ft) ?_ (fun _ => Raises.storeFloat_iff) rfl
    simp only [execute, run_ofCore_bind]
  | loadPart op rt offset base =>
    obtain ⟨m', hrun, hc, hbus⟩ := Exec.run_loadPart op rt (m.core.addressOf base offset) m
    exact settles_access (run_loadPart hrun) nofun rfl hc hbus
  | storePart op rt offset base =>
    obtain ⟨m', hrun, hc, hbus⟩ := Exec.run_storePart op rt (m.core.addressOf base offset) m
    exact settles_access (run_storePart hrun) nofun rfl hc hbus
  | _ => exact settles_plain rfl nofun rfl (by first | rfl | simp)

/-- Interpreting an instruction is executing it where the core is, and moving on. -/
theorem run_interpret (i : Instruction) (m : Machine) : i.interpret.run m =
    (i.execute m.core.pc >>= fun next => onCore fun c => { c with pc := next }).run m := by
  simp only [interpret, run_ofCore_bind]

/-- An instruction that is executed moves the machine on to the next address. -/
theorem interpret_of_execute {i : Instruction} {m m' : Machine} {next : UInt32}
    (h : (i.execute m.core.pc).run m = .done next m') :
    i.interpret.run m = .done () { m' with core.pc := next } :=
  (run_interpret i m).trans (run_bind_done h)

/-- Interpreting an instruction raises what the instruction is meant to raise and changes nothing,
or is done with the instruction and moves to the next one. -/
theorem interpret_cases (i : Instruction) (m : Machine) (hi : i.ShiftsFit) :
    (∃ e, i.interpret.run m = .raised e m ∧ Raises m.core i e) ∨
      ∃ next m', i.interpret.run m = .done () { m' with core.pc := next } ∧
        i.Completes m.core.pc m next m' := by
  rcases i.execute_settles m.core.pc m hi with ⟨e, he, hraises⟩ | ⟨next, m', hdone, hm'⟩
  · exact .inl ⟨e, (i.run_interpret m).trans (run_bind_raised he), hraises⟩
  · exact .inr ⟨next, m', interpret_of_execute hdone, hm'⟩

/-- **A decoded word raises an exception exactly if its instruction is meant to raise it, and then
the whole machine is as before.** It never faults, and what cannot raise an exception is done. -/
theorem interpret_raises_iff (w : UInt32) (m : Machine) :
    (∀ e m', (decode w).interpret.run m = .raised e m' ↔ Raises m.core (decode w) e ∧ m' = m) ∧
      (∀ fault, (decode w).interpret.run m ≠ .faulted fault) ∧
      ((decode w).mayRaise = false → ∃ m', (decode w).interpret.run m = .done () m') := by
  rcases interpret_cases (decode w) m (decode_shiftsFit w) with
    ⟨e₀, hrun, hraises⟩ | ⟨next, m₀, hrun, hm₀⟩
  · rw [hrun]
    refine ⟨fun e m' => ⟨?_, ?_⟩, nofun, fun hquiet => ?_⟩
    · intro h
      cases h
      exact ⟨hraises, rfl⟩
    · rintro ⟨he, rfl⟩
      rw [hraises.unique he]
    · rw [hraises.mayRaise] at hquiet
      cases hquiet
  · rw [hrun]
    refine ⟨fun e m' => ⟨nofun, ?_⟩, nofun, fun _ => ⟨_, rfl⟩⟩
    rintro ⟨he, -⟩
    exact absurd he (hm₀.quiet e)

end Instruction

end R5900
