import R5900.Schedule

/-!
# Due events

`Schedule.dueEvents` takes the events that are due from a schedule, one after the other and
earliest first, and moves each to the next frame; it ends when the first event of the queue is not
due. In a schedule that is ordered, as every schedule is that starts from the first frame, these
are exactly the events due by now (`Schedule.dueEvents_spec`).

`Schedule.next` answers with these events one by one, and in between with a stretch that ends
before the next event is due (`Schedule.next_eq`, `Schedule.next_of_waits`).
-/

namespace R5900

theorem Checked.eq_of_add64 {a b c : UInt64} (h : Checked.add64 a b = .ok c) : c = a + b := by
  unfold Checked.add64 at h
  split at h <;> cases h
  rfl

/-- The event one frame later. -/
def PendingEvent.inNextFrame (e : PendingEvent) : PendingEvent :=
  { e with due := e.due + Schedule.frame }

theorem PendingEvent.event_inNextFrame (e : PendingEvent) : e.inNextFrame.event = e.event := by
  unfold inNextFrame
  rfl

namespace Schedule

/-- The queue holds the earliest event first. -/
def Ordered (s : Schedule) : Prop := s.queue.Pairwise fun a b => a.due.toNat ≤ b.due.toNat

/-- The first event of the queue, if there is one, is not due. -/
def Waits (s : Schedule) : Prop := ∀ e ∈ s.queue.head?, s.cycle < e.due

/-! ## The queue -/

theorem insert_perm (e : PendingEvent) (q : List PendingEvent) : (insert e q).Perm (e :: q) := by
  induction q with
  | nil => exact .refl _
  | cons x xs ih =>
    unfold insert
    split
    · exact (ih.cons x).trans (.swap e x xs)
    · exact .refl _

theorem pairwise_insert {e : PendingEvent} {q : List PendingEvent}
    (h : q.Pairwise fun a b => a.due.toNat ≤ b.due.toNat) :
    (insert e q).Pairwise fun a b => a.due.toNat ≤ b.due.toNat := by
  induction q with
  | nil => exact List.pairwise_singleton _ e
  | cons x xs ih =>
    obtain ⟨hx, hxs⟩ := List.pairwise_cons.1 h
    unfold insert
    split
    · rename_i hle
      refine List.pairwise_cons.2 ⟨?_, ih hxs⟩
      intro y hy
      rcases List.mem_cons.1 ((insert_perm e xs).mem_iff.1 hy) with rfl | hy
      · exact UInt64.le_iff_toNat_le.1 hle
      · exact hx y hy
    · rename_i hlt
      rw [UInt64.le_iff_toNat_le] at hlt
      refine List.pairwise_cons.2 ⟨?_, h⟩
      intro y hy
      rcases List.mem_cons.1 hy with rfl | hy
      · omega
      · have := hx y hy
        omega

theorem ordered_initial : initial.Ordered := by
  simp [Ordered, initial, vblankStart, gsDelay, frame]

/-- In an ordered schedule that waits, no event is due. -/
theorem lt_of_waits {s : Schedule} (ho : s.Ordered) (hw : s.Waits) {e : PendingEvent}
    (he : e ∈ s.queue) : s.cycle.toNat < e.due.toNat := by
  obtain ⟨cycle, queue⟩ := s
  cases queue with
  | nil => cases he
  | cons x xs =>
    have hx : cycle.toNat < x.due.toNat := UInt64.lt_iff_toNat_lt.1 (hw x rfl)
    rcases List.mem_cons.1 he with rfl | he
    · exact hx
    · have := (List.pairwise_cons.1 ho).1 e he
      exact Nat.lt_of_lt_of_le hx this

/-! ## The events that are due -/

/-- Take the first event of the queue if it is due, and put it back one frame later. -/
def takeDue (s : Schedule) : Except Fault (Option (PendingEvent × Schedule)) :=
  match s.queue with
  | [] => .ok none
  | e :: rest =>
    if s.cycle < e.due then .ok none
    else do
      let due ← Checked.add64 e.due frame
      return some (e, { s with queue := insert { e with due := due } rest })

theorem waits_of_takeDue {s : Schedule} (h : s.takeDue = .ok none) : s.Waits := by
  obtain ⟨cycle, queue⟩ := s
  intro e he
  cases queue with
  | nil => cases he
  | cons x xs =>
    cases he
    by_cases hlt : cycle < e.due
    · exact hlt
    · have htake : (if cycle < e.due then _ else _) = _ := h
      rw [if_neg hlt] at htake
      obtain ⟨due, -, htake⟩ := exists_of_bind_eq_ok htake
      cases htake

theorem takeDue_of_waits {s : Schedule} (h : s.Waits) : s.takeDue = .ok none := by
  obtain ⟨cycle, queue⟩ := s
  cases queue with
  | nil => rfl
  | cons e rest => exact if_pos (h e rfl)

/-- The event that is taken is the first of the queue, it is due, and it is put back one frame
later. -/
theorem of_takeDue_eq_some {s s' : Schedule} {e : PendingEvent}
    (h : s.takeDue = .ok (some (e, s'))) :
    ∃ rest, s.queue = e :: rest ∧ ¬s.cycle < e.due ∧
      e.inNextFrame.due.toNat = e.due.toNat + frame.toNat ∧
      s' = ⟨s.cycle, insert e.inNextFrame rest⟩ := by
  obtain ⟨cycle, queue⟩ := s
  cases queue with
  | nil => cases h
  | cons x xs =>
    by_cases hlt : cycle < x.due
    · have htake : takeDue ⟨cycle, x :: xs⟩ = .ok none := if_pos hlt
      rw [htake] at h
      cases h
    · have htake : (if cycle < x.due then _ else _) = _ := h
      rw [if_neg hlt] at htake
      obtain ⟨due, hdue, htake⟩ := exists_of_bind_eq_ok htake
      have hsum := Checked.toNat_of_add64 hdue
      have heq := Checked.eq_of_add64 hdue
      cases htake
      exact ⟨xs, rfl, hlt, by rw [← hsum, heq]; rfl, by rw [heq]; rfl⟩

/-! ## What comes next -/

theorem toNat_min_le_left (a b : UInt64) : (min a b).toNat ≤ a.toNat := by
  show (if a ≤ b then a else b).toNat ≤ a.toNat
  split
  · exact Nat.le_refl _
  · rename_i hgt
    rw [UInt64.le_iff_toNat_le] at hgt
    omega

/-- While no event is due, the processor may run, and it stops before the next event is due. -/
theorem next_of_waits {s : Schedule} (h : s.Waits) :
    ∃ n, s.next = .ok (.run n, s) ∧ 0 < n.toNat ∧
      ∀ e ∈ s.queue.head?, s.cycle.toNat + n.toNat ≤ e.due.toNat := by
  obtain ⟨cycle, queue⟩ := s
  cases queue with
  | nil => exact ⟨longestRun, rfl, by decide, nofun⟩
  | cons e rest =>
    have hlt : cycle < e.due := h e rfl
    have hnext : next ⟨cycle, e :: rest⟩ =
        .ok (.run (min (e.due - cycle) longestRun), ⟨cycle, e :: rest⟩) := if_pos hlt
    refine ⟨_, hnext, (pos_of_next_run hnext).2, ?_⟩
    intro x hx
    cases hx
    rw [UInt64.lt_iff_toNat_lt] at hlt
    have hsub : (e.due - cycle).toNat = e.due.toNat - cycle.toNat :=
      UInt64.toNat_sub_of_le _ _ (UInt64.le_iff_toNat_le.2 (Nat.le_of_lt hlt))
    have hmin := toNat_min_le_left (e.due - cycle) longestRun
    show cycle.toNat + (min (e.due - cycle) longestRun).toNat ≤ e.due.toNat
    omega

/-- What comes next, by whether the first event of the queue is due. -/
theorem next_eq (s : Schedule) :
    (s.takeDue = .ok none ∧ s.Waits) ∨
      (∃ fault, s.takeDue = .error fault ∧ s.next = .error fault) ∨
      ∃ e s', s.takeDue = .ok (some (e, s')) ∧ s.next = .ok (.event e.event, s') := by
  obtain ⟨cycle, queue⟩ := s
  cases queue with
  | nil => exact .inl ⟨rfl, nofun⟩
  | cons e rest =>
    by_cases hlt : cycle < e.due
    · have htake : takeDue ⟨cycle, e :: rest⟩ = .ok none := if_pos hlt
      exact .inl ⟨htake, waits_of_takeDue htake⟩
    · have htake : takeDue ⟨cycle, e :: rest⟩ = (do
          let due ← Checked.add64 e.due frame
          return some (e, ⟨cycle, insert { e with due := due } rest⟩)) := if_neg hlt
      have hnext : next ⟨cycle, e :: rest⟩ = (do
          let due ← Checked.add64 e.due frame
          return (.event e.event, ⟨cycle, insert { e with due := due } rest⟩)) := if_neg hlt
      rw [htake, hnext]
      cases Checked.add64 e.due frame with
      | error fault => exact .inr (.inl ⟨fault, rfl, rfl⟩)
      | ok due => exact .inr (.inr ⟨e, _, rfl, rfl⟩)

theorem overdue_takeDue_lt {s s' : Schedule} {e : PendingEvent}
    (h : s.takeDue = .ok (some (e, s'))) : s'.overdue < s.overdue := by
  rcases s.next_eq with ⟨htake, -⟩ | ⟨fault, htake, -⟩ | ⟨e₁, s₁, htake, hnext⟩
  · rw [htake] at h
    cases h
  · rw [htake] at h
    cases h
  · rw [htake] at h
    cases h
    exact (overdue_next_lt hnext).2

/-! ## All events that are due -/

set_option linter.unusedVariables false in
/-- The due events, in the order in which they come, and the schedule after them. -/
def dueEvents (s : Schedule) : Except Fault (List PendingEvent × Schedule) :=
  match h : s.takeDue with
  | .error fault => .error fault
  | .ok none => .ok ([], s)
  | .ok (some (e, s')) => do
    let (events, s'') ← dueEvents s'
    return (e :: events, s'')
termination_by s.overdue
decreasing_by exact overdue_takeDue_lt h

theorem dueEvents_of_error {s : Schedule} {fault : Fault} (h : s.takeDue = .error fault) :
    s.dueEvents = .error fault := by
  rw [dueEvents]
  split <;> simp_all

theorem dueEvents_of_waits {s : Schedule} (h : s.takeDue = .ok none) :
    s.dueEvents = .ok ([], s) := by
  rw [dueEvents]
  split <;> simp_all

theorem dueEvents_of_due {s s' : Schedule} {e : PendingEvent}
    (h : s.takeDue = .ok (some (e, s'))) :
    s.dueEvents = (do
      let (events, s'') ← dueEvents s'
      return (e :: events, s'')) := by
  rw [dueEvents]
  split <;> simp_all

/-- An induction over the due events of a schedule: nothing is due, or the first event is taken. -/
theorem dueEvents_induction {P : Schedule → List PendingEvent → Schedule → Prop}
    (hwait : ∀ s, s.Waits → P s [] s)
    (hdue : ∀ s e s' events s'', s.takeDue = .ok (some (e, s')) → P s' events s'' →
      P s (e :: events) s'')
    {s s' : Schedule} {events : List PendingEvent} (h : s.dueEvents = .ok (events, s')) :
    P s events s' := by
  obtain ⟨n, hn⟩ : ∃ n, s.overdue = n := ⟨_, rfl⟩
  induction n using Nat.strongRecOn generalizing s events with
  | ind n ih =>
    rcases s.next_eq with ⟨htake, hw⟩ | ⟨fault, htake, -⟩ | ⟨e, s₁, htake, -⟩
    · rw [dueEvents_of_waits htake] at h
      cases h
      exact hwait _ hw
    · rw [dueEvents_of_error htake] at h
      cases h
    · rw [dueEvents_of_due htake] at h
      obtain ⟨⟨events', s₂⟩, hevents, h⟩ := exists_of_bind_eq_ok h
      cases h
      have hlt : s₁.overdue < n := hn ▸ overdue_takeDue_lt htake
      exact hdue s e s₁ events' _ htake (ih _ hlt hevents rfl)

/-- Taking the due events takes no time. -/
theorem cycle_of_dueEvents {s s' : Schedule} {events : List PendingEvent}
    (h : s.dueEvents = .ok (events, s')) : s'.cycle = s.cycle := by
  refine dueEvents_induction (P := fun s _ s' => s'.cycle = s.cycle) ?_ ?_ h
  · intro s _
    rfl
  · intro s e s₁ events s' htake ih
    obtain ⟨rest, -, -, -, rfl⟩ := of_takeDue_eq_some htake
    exact ih

/-- Taking the due events from an ordered schedule: each of them was due, none is left that is due,
and no event is lost or made up, as each one taken is put back one frame later. -/
theorem dueEvents_spec {s s' : Schedule} {events : List PendingEvent}
    (h : s.dueEvents = .ok (events, s')) (ho : s.Ordered) :
    s'.cycle = s.cycle ∧ s'.Ordered ∧ (∀ e ∈ events, e.due.toNat ≤ s.cycle.toNat) ∧
      (∀ e ∈ s'.queue, s.cycle.toNat < e.due.toNat) ∧
      (events ++ s'.queue).Perm (events.map PendingEvent.inNextFrame ++ s.queue) := by
  revert ho
  refine dueEvents_induction (P := fun s events s' => s.Ordered → s'.cycle = s.cycle ∧ s'.Ordered ∧
    (∀ e ∈ events, e.due.toNat ≤ s.cycle.toNat) ∧ (∀ e ∈ s'.queue, s.cycle.toNat < e.due.toNat) ∧
    (events ++ s'.queue).Perm (events.map PendingEvent.inNextFrame ++ s.queue)) ?_ ?_ h
  · intro s hw ho
    exact ⟨rfl, ho, nofun, fun e he => lt_of_waits ho hw he, .refl _⟩
  · intro s e s₁ events s' htake ih ho
    obtain ⟨rest, hq, hle, -, rfl⟩ := of_takeDue_eq_some htake
    rw [Ordered, hq] at ho
    obtain ⟨hcycle, hordered, hevents, hqueue, hperm⟩ :=
      ih (pairwise_insert (List.pairwise_cons.1 ho).2)
    refine ⟨hcycle, hordered, ?_, hqueue, ?_⟩
    · intro x hx
      rcases List.mem_cons.1 hx with rfl | hx
      · rw [UInt64.lt_iff_toNat_lt] at hle
        exact Nat.le_of_not_lt hle
      · exact hevents x hx
    · have hinsert : (events.map PendingEvent.inNextFrame ++ insert e.inNextFrame rest).Perm
          (e.inNextFrame :: (events.map PendingEvent.inNextFrame ++ rest)) :=
        ((insert_perm _ _).append_left _).trans List.perm_middle
      rw [hq, List.cons_append, List.map_cons, List.cons_append]
      exact (((hperm.trans hinsert).cons e).trans (.swap _ _ _)).trans
        (List.perm_middle.symm.cons _)

end Schedule

end R5900
