import R5900.Proofs.Action

/-!
# Postconditions of actions

`Exec.Ensures x m post` says that if the action `x` is done on the machine `m`, then its value and
the machine afterwards meet `post`. The simp lemmas say for each way to build an action what it
takes to ensure a postcondition; applied to the action of an instruction, they leave what the
postcondition says of the machine that the instruction computes.

Accesses to memory have rules of their own (`Machine.ensures_read`, `Machine.ensures_write` and
those of loads and stores made from them): of the core, they change the scratchpad only.
-/

namespace R5900

namespace Exec

/-- If the action is done on the machine, its value and the machine afterwards meet `post`. -/
def Ensures {α : Type} (x : Exec α) (m : Machine) (post : α → Machine → Prop) : Prop :=
  ∀ a m', x.run m = .done a m' → post a m'

section Rules

variable {α β : Type} {m : Machine} {post : α → Machine → Prop}

theorem Ensures.mono {x : Exec α} {post' : α → Machine → Prop} (h : x.Ensures m post)
    (himp : ∀ a m', post a m' → post' a m') : x.Ensures m post' :=
  fun a m' hrun => himp a m' (h a m' hrun)

theorem ensures_of_done {x : Exec α} {a : α} {m' : Machine} (h : x.run m = .done a m') :
    x.Ensures m post ↔ post a m' := by
  refine ⟨fun hx => hx a m' h, fun hpost b m'' hrun => ?_⟩
  rw [h] at hrun
  cases hrun
  exact hpost

theorem ensures_of_raised {x : Exec α} {e : Exception} {m' : Machine}
    (h : x.run m = .raised e m') : x.Ensures m post := by
  intro a m'' hrun
  rw [h] at hrun
  cases hrun

@[simp] theorem ensures_pure (a : α) : (pure a : Exec α).Ensures m post ↔ post a m :=
  ensures_of_done rfl

@[simp] theorem ensures_bind {x : Exec β} {k : β → Exec α} :
    (x >>= k).Ensures m post ↔ x.Ensures m fun b m' => (k b).Ensures m' post := by
  constructor
  · intro h b m' hx a m'' hk
    exact h a m'' ((run_bind_done hx).trans hk)
  · intro h a m' hrun
    cases hx : x.run m with
    | done b m'' =>
      rw [run_bind_done hx] at hrun
      exact h b m'' hx a m' hrun
    | raised e m'' =>
      rw [run_bind_raised hx] at hrun
      cases hrun
    | faulted fault =>
      rw [run_bind_faulted hx] at hrun
      cases hrun

@[simp] theorem ensures_ofCore (f : Core → α) : (ofCore f).Ensures m post ↔ post (f m.core) m :=
  ensures_of_done rfl

@[simp] theorem ensures_onCore (f : Core → Core) {post : Unit → Machine → Prop} :
    (onCore f).Ensures m post ↔ post () { m with core := f m.core } :=
  ensures_of_done rfl

@[simp] theorem ensures_note (n : Note) {post : Unit → Machine → Prop} :
    (note n).Ensures m post ↔ post () { m with journal := m.journal.add n } :=
  ensures_of_done rfl

@[simp] theorem ensures_raise (e : Exception) : (raise e : Exec α).Ensures m post ↔ True :=
  iff_true_intro (ensures_of_raised rfl)

@[simp] theorem ensures_ofChecked (x : Except Fault α) :
    (ofChecked x).Ensures m post ↔ ∀ a, x = .ok a → post a m := by
  cases x with
  | error fault =>
    refine iff_of_true ?_ nofun
    intro a m' hrun
    cases hrun
  | ok a =>
    refine (ensures_of_done rfl).trans ⟨?_, fun h => h a rfl⟩
    rintro h _ ⟨⟩
    exact h

@[simp] theorem ensures_ite {c : Prop} [Decidable c] {x y : Exec α} :
    (if c then x else y).Ensures m post ↔ (c → x.Ensures m post) ∧ (¬c → y.Ensures m post) := by
  split
  · rename_i h
    exact ⟨fun hx => ⟨fun _ => hx, absurd h⟩, fun hx => hx.1 h⟩
  · rename_i h
    exact ⟨fun hy => ⟨fun hc => absurd hc h, fun _ => hy⟩, fun hy => hy.2 h⟩

end Rules

end Exec

namespace Machine

open Exec

/-- A read ensures what holds of every value, with the core as it was. -/
theorem ensures_read {w : Width} {a : UInt32} {m : Machine} {post : w.Value → Machine → Prop}
    (h : ∀ value bus journal, post value ⟨m.core, bus, journal⟩) :
    Ensures (Machine.read w a) m post := by
  intro value m' hrun
  obtain ⟨core, bus, journal⟩ := m
  simp only [run, Machine.read] at hrun
  split at hrun <;> split at hrun <;> cases hrun <;> exact h _ _ _

/-- A write ensures what holds of every scratchpad, with the rest of the core as it was. -/
theorem ensures_write {w : Width} {a : UInt32} {value : w.Value} {m : Machine}
    {post : Unit → Machine → Prop}
    (h : ∀ scratchpad bus journal, post () ⟨{ m.core with scratchpad }, bus, journal⟩) :
    Ensures (Machine.write w a value) m post := by
  intro _ m' hrun
  obtain ⟨core, bus, journal⟩ := m
  simp only [run, Machine.write] at hrun
  split at hrun <;> split at hrun <;> cases hrun
  · exact h _ _ _
  · exact h core.scratchpad _ _

end Machine

namespace Exec

variable {w : Width} {base : Gpr} {offset : UInt16} {m : Machine}

theorem ensures_loadAligned {post : w.Value → Machine → Prop}
    (h : ∀ value bus journal, post value ⟨m.core, bus, journal⟩) :
    (loadAligned w base offset).Ensures m post := by
  simp only [loadAligned, effectiveAddress, ensures_bind, ensures_ofCore, ensures_ite,
    ensures_raise, implies_true, and_true]
  exact fun _ => Machine.ensures_read h

theorem ensures_storeAligned {value : w.Value} {post : Unit → Machine → Prop}
    (h : ∀ scratchpad bus journal, post () ⟨{ m.core with scratchpad }, bus, journal⟩) :
    (storeAligned w base offset value).Ensures m post := by
  simp only [storeAligned, effectiveAddress, ensures_bind, ensures_ofCore, ensures_ite,
    ensures_raise, implies_true, and_true]
  exact fun _ => Machine.ensures_write h

/-- A partial store ensures what holds of every scratchpad, with the rest of the core as it was. -/
theorem ensures_storePart {op : PartStoreOp} {rt : Gpr} {a : UInt32} {post : Unit → Machine → Prop}
    (h : ∀ scratchpad bus journal, post () ⟨{ m.core with scratchpad }, bus, journal⟩) :
    (Exec.storePart op rt a).Ensures m post := by
  cases op <;> simp only [Exec.storePart, ensures_bind, ensures_ofCore] <;>
    exact Machine.ensures_read fun _ _ _ => Machine.ensures_write h

end Exec

end R5900
