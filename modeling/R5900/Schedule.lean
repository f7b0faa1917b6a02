import R5900.Fault

/-!
# The schedule of video events

Three events recur once in every video frame. The schedule keeps the cycle count and the next due
time of each event in a queue, earliest first. `next` answers with the earliest event if it is due,
and otherwise with how long the processor may run; it moves an event that it answers with to the
following frame. An event is late rather than lost if time has jumped over it.

The main statements are that a stretch to run is never empty (`pos_of_next_run`) and that `overdue`,
the sum of how late the events are, falls with every event (`overdue_next_lt`); together they make a
loop over the schedule end.
-/

namespace R5900

/-- A video event. -/
inductive VideoEvent where
  | vblankStart
  /-- The graphics unit sees the vertical blank. -/
  | gsVblank
  | vblankEnd
  deriving DecidableEq, Repr

/-- The name of a video event. -/
def VideoEvent.name : VideoEvent → String
  | .vblankStart => "VBlankStart"
  | .gsVblank => "GsVBlank"
  | .vblankEnd => "VBlankEnd"

/-- An event and the cycle at which it is due. -/
structure PendingEvent where
  event : VideoEvent
  due : UInt64
  deriving DecidableEq, Repr

/-- The cycle count and the pending events, earliest first. -/
structure Schedule where
  cycle : UInt64
  queue : List PendingEvent
  deriving DecidableEq, Repr

/-- What comes next. -/
inductive NextEvent where
  /-- The processor may run this many cycles. -/
  | run (cycles : UInt64)
  | event (event : VideoEvent)
  deriving DecidableEq, Repr

namespace Schedule

/-- The cycles of a video frame. -/
def frame : UInt64 := 4920115
/-- The cycle of a frame at which the vertical blank starts. -/
def vblankStart : UInt64 := 4489019
/-- The cycles after which the graphics unit sees the vertical blank. -/
def gsDelay : UInt64 := 65622
/-- The longest stretch that is run without looking at the queue. -/
def longestRun : UInt64 := 32

/-- The first frame. -/
def initial : Schedule :=
  ⟨0, [⟨.vblankStart, vblankStart⟩, ⟨.gsVblank, vblankStart + gsDelay⟩, ⟨.vblankEnd, frame⟩]⟩

/-- Put an event into a queue behind those that are due no later. -/
def insert (e : PendingEvent) : List PendingEvent → List PendingEvent
  | [] => [e]
  | x :: xs => if x.due ≤ e.due then x :: insert e xs else e :: x :: xs

/-- The earliest event if it is due, or else how long the processor may run. -/
def next (s : Schedule) : Except Fault (NextEvent × Schedule) :=
  match s.queue with
  | [] => .ok (.run longestRun, s)
  | e :: rest =>
    if s.cycle < e.due then .ok (.run (min (e.due - s.cycle) longestRun), s)
    else do
      let due ← Checked.add64 e.due frame
      return (.event e.event, { s with queue := insert { e with due := due } rest })

/-- Let time pass. -/
def tick (s : Schedule) (cycles : UInt64) : Except Fault Schedule := do
  return { s with cycle := ← Checked.add64 s.cycle cycles }

/-! ## Termination of loops over the schedule -/

/-- How late an event is at a cycle, counting the cycle at which it is due as one. -/
def lateness (cycle : UInt64) (e : PendingEvent) : Nat := cycle.toNat + 1 - e.due.toNat

/-- How late all events are together. -/
def overdue (s : Schedule) : Nat := s.queue.foldr (fun e n => lateness s.cycle e + n) 0

/-- Inserting an event adds its lateness to the sum. -/
theorem overdue_insert (cycle : UInt64) (e : PendingEvent) (q : List PendingEvent) :
    overdue ⟨cycle, insert e q⟩ = lateness cycle e + overdue ⟨cycle, q⟩ := by
  induction q with
  | nil => rfl
  | cons x xs ih =>
    unfold insert
    split
    · have hcons : overdue ⟨cycle, x :: insert e xs⟩ =
          lateness cycle x + overdue ⟨cycle, insert e xs⟩ := rfl
      have hcons' : overdue ⟨cycle, x :: xs⟩ = lateness cycle x + overdue ⟨cycle, xs⟩ := rfl
      omega
    · rfl

/-- The lesser of two numbers is one of them. -/
theorem minCases (a b : UInt64) : min a b = a ∨ min a b = b := by
  show (if a ≤ b then a else b) = a ∨ (if a ≤ b then a else b) = b
  split <;> simp

/-- Waiting changes nothing, and a stretch to run is not empty. -/
theorem pos_of_next_run {s t : Schedule} {n : UInt64} (h : s.next = .ok (.run n, t)) :
    t = s ∧ 0 < n.toNat := by
  unfold next at h
  split at h
  · obtain ⟨hn, ht⟩ := Prod.mk.inj (Except.ok.inj h)
    cases hn
    exact ⟨ht.symm, by decide⟩
  · rename_i e rest _
    split at h
    · rename_i hlt
      obtain ⟨hn, ht⟩ := Prod.mk.inj (Except.ok.inj h)
      cases hn
      refine ⟨ht.symm, ?_⟩
      have hd : 0 < (e.due - s.cycle).toNat := by
        rw [UInt64.lt_iff_toNat_lt] at hlt
        rw [UInt64.toNat_sub_of_le _ _ (UInt64.le_iff_toNat_le.2 (Nat.le_of_lt hlt))]
        omega
      have hr : 0 < longestRun.toNat := by decide
      rcases minCases (e.due - s.cycle) longestRun with heq | heq <;> rw [heq] <;> assumption
    · obtain ⟨due, -, hd⟩ := exists_of_bind_eq_ok h
      cases hd

/-- An event moves to the next frame, so the events are less late together. -/
theorem overdue_next_lt {s t : Schedule} {e : VideoEvent} (h : s.next = .ok (.event e, t)) :
    t.cycle = s.cycle ∧ t.overdue < s.overdue := by
  unfold next at h
  split at h
  · cases h
  · rename_i p rest hq
    split at h
    · cases h
    · rename_i hle
      obtain ⟨due, hc, hd⟩ := exists_of_bind_eq_ok h
      cases hd
      refine ⟨rfl, ?_⟩
      have hdue := Checked.toNat_of_add64 hc
      have hf : 0 < frame.toNat := by decide
      rw [UInt64.lt_iff_toNat_lt] at hle
      have hbefore : s.overdue = lateness s.cycle p + overdue ⟨s.cycle, rest⟩ := by
        unfold overdue
        rw [hq]
        rfl
      rw [hbefore, overdue_insert]
      simp only [lateness]
      omega

end Schedule

end R5900
