import R5900.Bus.Basic
import R5900.Core
import R5900.Journal

/-!
# The machine and its actions

The machine is the processor with its bus and the journal. An action on it has one of three
outcomes: it is done, it raises an exception of the processor, or it faults. The machine after an
exception is part of the outcome, because the exception is delivered in it; after a fault there is
none.

Virtual reads and writes reach the scratchpad or the bus and check no alignment.
-/

namespace R5900

/-- The processor with its bus and the journal. -/
structure Machine where
  core : Core
  bus : Bus
  journal : Journal

/-- How an action on the machine ends. -/
inductive Outcome (α : Type) where
  | done (value : α) (machine : Machine)
  | raised (exception : Exception) (machine : Machine)
  | faulted (fault : Fault)

/-- An action on the machine. -/
def Exec (α : Type) : Type := Machine → Outcome α

namespace Exec

/-- Run an action on a machine. -/
@[inline] def run {α : Type} (x : Exec α) (m : Machine) : Outcome α := x m

@[always_inline]
instance : Monad Exec where
  pure a := fun m => .done a m
  bind x f := fun m =>
    match x m with
    | .done a m => f a m
    | .raised e m => .raised e m
    | .faulted fault => .faulted fault

/-- Read something off the processor. -/
@[inline] def ofCore {α : Type} (f : Core → α) : Exec α := fun m => .done (f m.core) m

/-- Change the processor. -/
@[inline] def onCore (f : Core → Core) : Exec Unit := fun m => .done () { m with core := f m.core }

/-- Raise an exception. -/
@[inline] def raise {α : Type} (e : Exception) : Exec α := fun m => .raised e m

/-- A computation that may fault. -/
@[inline] def ofChecked {α : Type} (x : Except Fault α) : Exec α := fun m =>
  match x with
  | .ok a => .done a m
  | .error fault => .faulted fault

/-- Add a note to the journal. -/
@[inline] def note (n : Note) : Exec Unit := fun m => .done () { m with journal := m.journal.add n }

end Exec

namespace Machine

/-- The report of a scratchpad read. -/
def scratchpadReadNote (offset : Nat) : Note :=
  ⟨.trace, fun _ => "Read from scratchpad at " ++ Text.hexPadded 4 offset⟩

/-- The report of a scratchpad write. -/
def scratchpadWriteNote (offset : Nat) : Note :=
  ⟨.trace, fun _ => "Write to scratchpad at " ++ Text.hexPadded 4 offset⟩

/-- Read a value at a virtual address. -/
def read (w : Width) (address : UInt32) : Exec w.Value := fun m =>
  match m with
  | ⟨core, bus, journal⟩ =>
    match Location.ofVirtual address with
    | .scratchpad offset =>
      match core.scratchpad.load w offset with
      | .ok value => .done value ⟨core, bus, journal.add (scratchpadReadNote offset)⟩
      | .error fault => .faulted fault
    | .bus address =>
      match bus.read w address with
      | .ok r => .done r.value ⟨core, r.bus, journal.addAll r.notes⟩
      | .error fault => .faulted fault

/-- Write a value at a virtual address. -/
def write (w : Width) (address : UInt32) (value : w.Value) : Exec Unit := fun m =>
  match m with
  | ⟨core, bus, journal⟩ =>
    match Location.ofVirtual address with
    | .scratchpad offset =>
      if core.scratchpad.fits w offset then
        .done () ⟨{ core with scratchpad := core.scratchpad.put w offset value }, bus,
          journal.add (scratchpadWriteNote offset)⟩
      else .faulted (core.scratchpad.misfit w offset)
    | .bus address =>
      match bus.write w address value with
      | .ok r => .done () ⟨core, r.bus, journal.addAll r.notes⟩
      | .error fault => .faulted fault

end Machine

end R5900
