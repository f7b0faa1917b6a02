import R5900.Proofs.Arithmetic
import R5900.Proofs.Schedule

/-!
# The timeline of video events

However a new schedule is ticked and asked what comes next, the events that it answers with are
those of one timeline without end: event number `j` is `Schedule.emission j`, due at the cycle
`Schedule.dueCycle j`.

The invariant is `Schedule.Awaits s j`: the queue holds the events `j`, `j + 1` and `j + 2` of the
timeline, in this order. Due cycles increase strictly along it, so the event `j + 3`, which is put
back when the event `j` is taken, goes to the end of the queue; no two pending events are ever due
at once, however late they are.

* `Schedule.answersNext_of_awaits`: what such a schedule answers next, and `Schedule.awaits_next`:
  it then awaits the event after the one that it answered with.
* `Schedule.calls_emit`: after any sequence of calls on a new schedule, the events of the answers
  are the first ones of the timeline, and the next answer is as it should be.
-/

namespace R5900

/-- The event of an answer that is no stretch to run. -/
def NextEvent.event? : NextEvent → Option VideoEvent
  | .run _ => none
  | .event e => some e

/-- A pending event on the timeline: the event and its due cycle as a number. -/
def PendingEvent.entry (e : PendingEvent) : VideoEvent × Nat := (e.event, e.due.toNat)

namespace Schedule

/-! ## The timeline -/

/-- Event number `j`, counted from zero. -/
def emission (j : Nat) : VideoEvent :=
  match j % 3 with
  | 0 => .vblankStart
  | 1 => .gsVblank
  | _ => .vblankEnd

/-- The cycle at which event number `j` is due. -/
def dueCycle (j : Nat) : Nat :=
  (match j % 3 with
    | 0 => 4489019
    | 1 => 4554641
    | _ => 4920115) + 4920115 * (j / 3)

theorem emission_add_three (j : Nat) : emission (j + 3) = emission j := by
  unfold emission
  rw [Nat.add_mod_right]

/-- The event after the next two is due one frame later. -/
theorem dueCycle_add_three (j : Nat) : dueCycle (j + 3) = dueCycle j + frame.toNat := by
  have hframe : frame.toNat = 4920115 := rfl
  unfold dueCycle
  rw [Nat.add_mod_right, hframe]
  omega

theorem dueCycle_lt_succ (j : Nat) : dueCycle j < dueCycle (j + 1) := by
  have hphase : j % 3 = 0 ∨ j % 3 = 1 ∨ j % 3 = 2 := by omega
  rcases hphase with h | h | h
  · have hnext : (j + 1) % 3 = 1 := by omega
    simp only [dueCycle, h, hnext]
    omega
  · have hnext : (j + 1) % 3 = 2 := by omega
    simp only [dueCycle, h, hnext]
    omega
  · have hnext : (j + 1) % 3 = 0 := by omega
    simp only [dueCycle, h, hnext]
    omega

/-- The schedule has answered with the first `j` events of the timeline: the next three are
pending. -/
def Awaits (s : Schedule) (j : Nat) : Prop :=
  s.queue.map PendingEvent.entry =
    [(emission j, dueCycle j), (emission (j + 1), dueCycle (j + 1)),
      (emission (j + 2), dueCycle (j + 2))]

theorem awaits_initial : initial.Awaits 0 := by
  unfold Awaits initial
  decide

/-- The pending events of a schedule that awaits the event `j`. -/
theorem Awaits.exists_queue {s : Schedule} {j : Nat} (h : s.Awaits j) :
    ∃ a b c, s.queue = [a, b, c] ∧ a.entry = (emission j, dueCycle j) ∧
      b.entry = (emission (j + 1), dueCycle (j + 1)) ∧
      c.entry = (emission (j + 2), dueCycle (j + 2)) := by
  obtain ⟨a, q, hq, ha, h⟩ := List.map_eq_cons_iff.1 h
  obtain ⟨b, q', hq', hb, h⟩ := List.map_eq_cons_iff.1 h
  obtain ⟨c, q'', hq'', hc, h⟩ := List.map_eq_cons_iff.1 h
  rw [List.map_eq_nil_iff] at h
  exact ⟨a, b, c, by rw [hq, hq', hq'', h], ha, hb, hc⟩

/-! ## The next answer -/

/-- What a schedule answers next after `j` events: the event `j` as soon as it is due, and until
then how long to run, at most up to the cycle at which it is due. Only moving the event to the
next frame can overflow. -/
structure AnswersNext (s : Schedule) (j : Nat) : Prop where
  event : dueCycle j ≤ s.cycle.toNat → dueCycle j + frame.toNat < 2 ^ 64 →
    ∃ s', s.next = .ok (.event (emission j), s')
  overflow : dueCycle j ≤ s.cycle.toNat → 2 ^ 64 ≤ dueCycle j + frame.toNat →
    s.next = .error .overflow
  run : s.cycle.toNat < dueCycle j → ∃ n : UInt64, s.next = .ok (.run n, s) ∧
    n.toNat = min (dueCycle j - s.cycle.toNat) 32 ∧ 1 ≤ n.toNat ∧ n.toNat ≤ 32 ∧
    s.cycle.toNat + n.toNat ≤ dueCycle j

section Next

variable {s : Schedule} {j : Nat}

theorem next_of_due {e : PendingEvent} {rest : List PendingEvent} (hq : s.queue = e :: rest)
    (hdue : e.due.toNat ≤ s.cycle.toNat) :
    s.next = (do
      let due ← Checked.add64 e.due frame
      return (.event e.event, { s with queue := insert { e with due := due } rest })) := by
  have hlt : ¬s.cycle < e.due := by
    rw [UInt64.lt_iff_toNat_lt]
    omega
  unfold next
  rw [hq]
  exact if_neg hlt

/-- Once the event `j` is due and can be moved to the next frame, it is answered with and the event
after it is awaited. -/
theorem awaits_next (h : s.Awaits j) (hdue : dueCycle j ≤ s.cycle.toNat)
    (hfit : dueCycle j + frame.toNat < 2 ^ 64) :
    ∃ s', s.next = .ok (.event (emission j), s') ∧ s'.cycle = s.cycle ∧ s'.Awaits (j + 1) := by
  obtain ⟨a, b, c, hq, ha, hb, hc⟩ := h.exists_queue
  obtain ⟨haevent, hadue⟩ := Prod.mk.inj ha
  have hsum : (a.due + frame).toNat = dueCycle (j + 3) := by
    rw [UInt64.toNat_add, hadue, Nat.mod_eq_of_lt hfit, dueCycle_add_three]
  have hbdue : b.due ≤ a.due + frame := by
    rw [UInt64.le_iff_toNat_le, hsum, (Prod.mk.inj hb).2]
    exact Nat.le_of_lt ((dueCycle_lt_succ (j + 1)).trans (dueCycle_lt_succ (j + 2)))
  have hcdue : c.due ≤ a.due + frame := by
    rw [UInt64.le_iff_toNat_le, hsum, (Prod.mk.inj hc).2]
    exact Nat.le_of_lt (dueCycle_lt_succ (j + 2))
  have hqueue : insert { a with due := a.due + frame } [b, c] =
      [b, c, { a with due := a.due + frame }] := by
    simp only [insert, if_pos hbdue, if_pos hcdue]
  have hnext := next_of_due hq (hadue ▸ hdue)
  rw [Checked.add64_eq_ok (show a.due.toNat + frame.toNat < 2 ^ 64 by rwa [hadue])] at hnext
  refine ⟨⟨s.cycle, [b, c, { a with due := a.due + frame }]⟩, ?_, rfl, ?_⟩
  · rw [hnext, ← haevent, ← hqueue]
    rfl
  · have hlast : PendingEvent.entry { a with due := a.due + frame } =
        (emission (j + 3), dueCycle (j + 3)) := by
      rw [emission_add_three, ← haevent, ← hsum]
      rfl
    show [b.entry, c.entry, PendingEvent.entry { a with due := a.due + frame }] = _
    rw [hb, hc, hlast]

theorem next_eq_error (h : s.Awaits j) (hdue : dueCycle j ≤ s.cycle.toNat)
    (hover : 2 ^ 64 ≤ dueCycle j + frame.toNat) : s.next = .error .overflow := by
  obtain ⟨a, b, c, hq, ha, -, -⟩ := h.exists_queue
  have hadue : a.due.toNat = dueCycle j := (Prod.mk.inj ha).2
  rw [next_of_due hq (hadue ▸ hdue), Checked.add64_eq_error (by rwa [hadue])]
  rfl

/-- Until the event `j` is due, the answer is a stretch that ends no later. -/
theorem next_eq_run (h : s.Awaits j) (hwait : s.cycle.toNat < dueCycle j) :
    ∃ n : UInt64, s.next = .ok (.run n, s) ∧ n.toNat = min (dueCycle j - s.cycle.toNat) 32 := by
  obtain ⟨a, b, c, hq, ha, -, -⟩ := h.exists_queue
  have hadue : a.due.toNat = dueCycle j := (Prod.mk.inj ha).2
  have hlt : s.cycle < a.due := by rwa [UInt64.lt_iff_toNat_lt, hadue]
  have hsub : (a.due - s.cycle).toNat = dueCycle j - s.cycle.toNat := by
    rw [UInt64.toNat_sub_of_le _ _ (UInt64.le_iff_toNat_le.2 (by omega)), hadue]
  refine ⟨min (a.due - s.cycle) longestRun, ?_, ?_⟩
  · unfold next
    rw [hq]
    exact if_pos hlt
  · rw [UInt64.toNat_min, hsub]
    rfl

theorem answersNext_of_awaits (h : s.Awaits j) : s.AnswersNext j := by
  refine ⟨fun hdue hfit => ?_, next_eq_error h, fun hwait => ?_⟩
  · obtain ⟨s', hnext, -⟩ := awaits_next h hdue hfit
    exact ⟨s', hnext⟩
  · obtain ⟨n, hnext, hn⟩ := next_eq_run h hwait
    exact ⟨n, hnext, hn, by omega, by omega, by omega⟩

end Next

/-! ## Sequences of calls -/

/-- A call on a schedule. -/
inductive Call where
  /-- Let time pass. -/
  | tick (cycles : UInt64)
  /-- Ask what comes next. -/
  | next

/-- The time that a call lets pass. -/
def Call.cycles : Call → Nat
  | .tick cycles => cycles.toNat
  | .next => 0

/-- Make a call; its answer, if it asks for one, and the schedule after it. -/
def call (s : Schedule) : Call → Except Fault (Option NextEvent × Schedule)
  | .tick cycles => do return (none, ← s.tick cycles)
  | .next => do
    let (answer, s) ← s.next
    return (some answer, s)

/-- Make calls in order; the answers, first one first, and the schedule after all calls. -/
def calls (s : Schedule) : List Call → Except Fault (List NextEvent × Schedule)
  | [] => .ok ([], s)
  | c :: rest => do
    let (answer?, s) ← s.call c
    let (answers, s) ← calls s rest
    return (answer?.toList ++ answers, s)

/-- No sum overflows that calls form, beginning at a cycle count and after `j` events: neither the
cycle count nor the due cycle of an event that is moved to the next frame. -/
def SumsFit (cycle j : Nat) : List Call → Prop
  | [] => True
  | .tick cycles :: rest => cycle + cycles.toNat < 2 ^ 64 ∧ SumsFit (cycle + cycles.toNat) j rest
  | .next :: rest =>
    if dueCycle j ≤ cycle then
      dueCycle j + frame.toNat < 2 ^ 64 ∧ SumsFit cycle (j + 1) rest
    else SumsFit cycle j rest

section Calls

variable {s s' : Schedule} {j : Nat} {answers : List NextEvent} {cs : List Call}

theorem calls_cons_of_ok {c : Call} {answer? : Option NextEvent} (h : s.call c = .ok (answer?, s'))
    (cs : List Call) :
    s.calls (c :: cs) = (do
      let (answers, s) ← s'.calls cs
      return (answer?.toList ++ answers, s)) := by
  rw [calls, h]
  rfl

theorem calls_cons_of_error {c : Call} {fault : Fault} (h : s.call c = .error fault)
    (cs : List Call) : s.calls (c :: cs) = .error fault := by
  rw [calls, h]
  rfl

/-- Calls after a call that succeeds succeed exactly if they do by themselves. -/
theorem exists_calls_cons_iff {c : Call} {answer? : Option NextEvent}
    (h : s.call c = .ok (answer?, s')) (cs : List Call) :
    (∃ r, s.calls (c :: cs) = .ok r) ↔ ∃ r, s'.calls cs = .ok r := by
  rw [calls_cons_of_ok h]
  constructor
  · rintro ⟨r, hr⟩
    obtain ⟨r', hr', -⟩ := exists_of_bind_eq_ok hr
    exact ⟨r', hr'⟩
  · rintro ⟨r, hr⟩
    rw [hr]
    exact ⟨_, rfl⟩

theorem call_tick_eq_ok {n : UInt64} (h : s.cycle.toNat + n.toNat < 2 ^ 64) :
    s.call (.tick n) = .ok (none, { s with cycle := s.cycle + n }) := by
  rw [call, tick, Checked.add64_eq_ok h]
  rfl

theorem call_tick_eq_error {n : UInt64} (h : 2 ^ 64 ≤ s.cycle.toNat + n.toNat) :
    s.call (.tick n) = .error .overflow := by
  rw [call, tick, Checked.add64_eq_error h]
  rfl

theorem call_next_eq_ok {answer : NextEvent} (h : s.next = .ok (answer, s')) :
    s.call .next = .ok (some answer, s') := by
  rw [call, h]
  rfl

theorem call_next_eq_error {fault : Fault} (h : s.next = .error fault) :
    s.call .next = .error fault := by
  rw [call, h]
  rfl

/-- The calls that fault are those with a sum that overflows. -/
theorem sumsFit_iff (h : s.Awaits j) : SumsFit s.cycle.toNat j cs ↔ ∃ r, s.calls cs = .ok r := by
  induction cs generalizing s j with
  | nil => exact iff_of_true trivial ⟨_, rfl⟩
  | cons c cs ih =>
    cases c with
    | tick n =>
      rw [SumsFit]
      by_cases hfit : s.cycle.toNat + n.toNat < 2 ^ 64
      · have hsum : s.cycle.toNat + n.toNat = (s.cycle + n).toNat := by
          rw [UInt64.toNat_add, Nat.mod_eq_of_lt hfit]
        rw [exists_calls_cons_iff (call_tick_eq_ok hfit), and_iff_right hfit, hsum]
        exact ih (s := { s with cycle := s.cycle + n }) h
      · rw [calls_cons_of_error (call_tick_eq_error (Nat.le_of_not_lt hfit))]
        exact iff_of_false (fun h => hfit h.1) nofun
    | next =>
      rw [SumsFit]
      by_cases hdue : dueCycle j ≤ s.cycle.toNat
      · rw [if_pos hdue]
        by_cases hfit : dueCycle j + frame.toNat < 2 ^ 64
        · obtain ⟨s', hnext, hcycle, h'⟩ := awaits_next h hdue hfit
          rw [exists_calls_cons_iff (call_next_eq_ok hnext), and_iff_right hfit, ← hcycle]
          exact ih h'
        · have hnext := next_eq_error h hdue (Nat.le_of_not_lt hfit)
          rw [calls_cons_of_error (call_next_eq_error hnext)]
          exact iff_of_false (fun h => hfit h.1) nofun
      · obtain ⟨n, hnext, -⟩ := next_eq_run h (Nat.lt_of_not_le hdue)
        rw [if_neg hdue, exists_calls_cons_iff (call_next_eq_ok hnext)]
        exact ih h

/-- A call of a schedule that awaits the event `j` answers with the event `j` or with no event, and
then the event after it or again the event `j` is awaited. -/
theorem awaits_of_call {c : Call} {answer? : Option NextEvent} (h : s.Awaits j)
    (hcall : s.call c = .ok (answer?, s')) :
    s'.cycle.toNat = s.cycle.toNat + c.cycles ∧
      (answer?.toList.filterMap NextEvent.event? = [] ∧ s'.Awaits j ∨
        answer?.toList.filterMap NextEvent.event? = [emission j] ∧ s'.Awaits (j + 1)) := by
  cases c with
  | tick n =>
    by_cases hfit : s.cycle.toNat + n.toNat < 2 ^ 64
    · rw [call_tick_eq_ok hfit] at hcall
      cases hcall
      exact ⟨by rw [UInt64.toNat_add, Nat.mod_eq_of_lt hfit]; rfl, .inl ⟨rfl, h⟩⟩
    · rw [call_tick_eq_error (Nat.le_of_not_lt hfit)] at hcall
      cases hcall
  | next =>
    by_cases hdue : dueCycle j ≤ s.cycle.toNat
    · by_cases hfit : dueCycle j + frame.toNat < 2 ^ 64
      · obtain ⟨s₁, hnext, hcycle, h'⟩ := awaits_next h hdue hfit
        rw [call_next_eq_ok hnext] at hcall
        cases hcall
        exact ⟨by rw [hcycle]; rfl, .inr ⟨rfl, h'⟩⟩
      · rw [call_next_eq_error (next_eq_error h hdue (Nat.le_of_not_lt hfit))] at hcall
        cases hcall
    · obtain ⟨n, hnext, -⟩ := next_eq_run h (Nat.lt_of_not_le hdue)
      rw [call_next_eq_ok hnext] at hcall
      cases hcall
      exact ⟨rfl, .inl ⟨rfl, h⟩⟩

/-- Calls answer with events of the timeline in order, from the awaited one on, and the first one
that they leave out is awaited then. -/
theorem awaits_of_calls (h : s.Awaits j) (hcalls : s.calls cs = .ok (answers, s')) :
    s'.cycle.toNat = s.cycle.toNat + (cs.map Call.cycles).sum ∧
      ∃ k, s'.Awaits (j + k) ∧
        answers.filterMap NextEvent.event? = (List.range' j k).map emission := by
  induction cs generalizing s j answers with
  | nil =>
    cases hcalls
    exact ⟨rfl, 0, h, rfl⟩
  | cons c cs ih =>
    obtain ⟨⟨answer?, s₁⟩, hcall, hrest⟩ := exists_of_bind_eq_ok hcalls
    obtain ⟨⟨answers', s₂⟩, hcalls', hr⟩ := exists_of_bind_eq_ok hrest
    cases hr
    obtain ⟨hcycle, hevents⟩ := awaits_of_call h hcall
    rw [List.map_cons, List.sum_cons, ← Nat.add_assoc, ← hcycle]
    rcases hevents with ⟨hnone, h₁⟩ | ⟨hone, h₁⟩
    · obtain ⟨hcycle', k, h', hk⟩ := ih h₁ hcalls'
      refine ⟨hcycle', k, h', ?_⟩
      rw [List.filterMap_append, hnone, hk, List.nil_append]
    · obtain ⟨hcycle', k, h', hk⟩ := ih h₁ hcalls'
      refine ⟨hcycle', k + 1, ?_, ?_⟩
      · rwa [Nat.add_comm k, ← Nat.add_assoc]
      · rw [List.filterMap_append, hone, hk, List.range'_succ, List.map_cons]
        rfl

end Calls

/-- **A schedule answers with every video event exactly once, in order and never early.** Calls on a
new schedule succeed exactly if no sum that they form overflows. Then the events that they are
answered with are the first `j` of the timeline, each once and in order; the cycle count is the time
that has passed; and the next answer is the event `j`, if it is due, and otherwise how long to run
before it is. -/
theorem calls_emit (cs : List Call) :
    (SumsFit 0 0 cs ↔ ∃ r, initial.calls cs = .ok r) ∧
      ∀ answers s, initial.calls cs = .ok (answers, s) →
        s.cycle.toNat = (cs.map Call.cycles).sum ∧
          ∃ j, answers.filterMap NextEvent.event? = (List.range j).map emission ∧
            s.AnswersNext j := by
  refine ⟨sumsFit_iff awaits_initial, fun answers s hcalls => ?_⟩
  obtain ⟨hcycle, j, h, hevents⟩ := awaits_of_calls awaits_initial hcalls
  rw [Nat.zero_add] at h
  refine ⟨hcycle.trans (Nat.zero_add _), j, ?_, answersNext_of_awaits h⟩
  rw [hevents, List.range_eq_range']

/-- One tick over two frames, after which the late events come one by one. -/
theorem calls_emit_late :
    let cs : List Call := [.next, .tick 9840230, .next, .next, .next, .next, .next, .next, .next]
    ∃ answers s, initial.calls cs = .ok (answers, s) ∧ answers.filterMap NextEvent.event? =
        [.vblankStart, .gsVblank, .vblankEnd, .vblankStart, .gsVblank, .vblankEnd] ∧
      SumsFit 0 0 cs ∧ s.cycle.toNat = 9840230 ∧ s.AnswersNext 6 := by
  intro cs
  obtain ⟨⟨answers, s⟩, hcalls⟩ : ∃ r, initial.calls cs = .ok r := ⟨_, rfl⟩
  have hevents : answers.filterMap NextEvent.event? =
      [.vblankStart, .gsVblank, .vblankEnd, .vblankStart, .gsVblank, .vblankEnd] := by
    cases hcalls
    rfl
  obtain ⟨hfit, hemit⟩ := calls_emit cs
  obtain ⟨hcycle, j, hj, hnext⟩ := hemit answers s hcalls
  have hlength : j = 6 := by
    have := congrArg List.length (hevents.symm.trans hj)
    rw [List.length_map, List.length_range] at this
    exact this.symm
  subst hlength
  exact ⟨answers, s, hcalls, hevents, hfit.2 ⟨_, hcalls⟩, hcycle, hnext⟩

end Schedule

end R5900
