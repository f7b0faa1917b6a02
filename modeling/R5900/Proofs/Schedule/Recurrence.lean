import R5900.Proofs.Arithmetic
import R5900.Proofs.Schedule

/-!
# Recurring events

Every pending event recurs once a frame, without end. `Schedule.Recurs` says which events a
schedule stands for: the pending ones and all that follow them. Taking the due events neither adds
to these nor loses one (`Schedule.mem_dueEvents_or_recurs`, `Schedule.recurs_of_dueEvents`), so
that the events that are taken are exactly the ones that the schedule stands for up to now
(`Schedule.mem_dueEvents_iff`).

An event that is put back into the queue must still have a due cycle. `Schedule.Fits` says that
this is so for every event that is due before a given cycle, and then the due events can be taken
(`Schedule.dueEvents_eq_ok`).
-/

namespace R5900

namespace Schedule

/-- The event is a pending one, or one that follows it a number of frames later. -/
def Recurs (s : Schedule) (x : PendingEvent) : Prop :=
  ∃ e ∈ s.queue, ∃ k : Nat, x.event = e.event ∧ x.due.toNat = e.due.toNat + k * frame.toNat

/-- Every event that is due before the cycle `stop` can be put back one frame later. -/
def Fits (s : Schedule) (stop : Nat) : Prop :=
  ∀ e ∈ s.queue, ∀ k : Nat, e.due.toNat + k * frame.toNat < stop →
    e.due.toNat + (k + 1) * frame.toNat < 2 ^ 64

variable {s s' : Schedule} {e x : PendingEvent} {events : List PendingEvent}

/-- One frame and then some are one more frame. -/
theorem add_succ_mul (a k f : Nat) : a + (k + 1) * f = a + f + k * f := by
  rw [Nat.succ_mul, Nat.add_assoc, Nat.add_comm f]

/-! ## Taking one event -/

theorem mem_queue_of_takeDue (h : s.takeDue = .ok (some (e, s'))) :
    x ∈ s'.queue ↔ x = e.inNextFrame ∨ (∃ rest, s.queue = e :: rest ∧ x ∈ rest) := by
  obtain ⟨rest, hq, -, -, rfl⟩ := of_takeDue_eq_some h
  rw [(insert_perm e.inNextFrame rest).mem_iff, List.mem_cons, hq]
  refine or_congr_right ⟨fun hx => ⟨rest, rfl, hx⟩, ?_⟩
  rintro ⟨rest', heq, hx⟩
  cases heq
  exact hx

theorem recurs_of_mem (hx : x ∈ s.queue) : s.Recurs x :=
  ⟨x, hx, 0, rfl, by rw [Nat.zero_mul, Nat.add_zero]⟩

theorem takeDue_mem_queue (h : s.takeDue = .ok (some (e, s'))) : e ∈ s.queue := by
  obtain ⟨rest, hq, -⟩ := of_takeDue_eq_some h
  rw [hq]
  exact List.mem_cons_self

/-- What recurs after an event is taken recurred before. -/
theorem recurs_of_takeDue (h : s.takeDue = .ok (some (e, s'))) (hx : s'.Recurs x) : s.Recurs x := by
  obtain ⟨e', he', k, hevent, hdue⟩ := hx
  rcases (mem_queue_of_takeDue h).1 he' with rfl | ⟨rest, hq, he'⟩
  · obtain ⟨-, -, -, hnext, -⟩ := of_takeDue_eq_some h
    refine ⟨e, takeDue_mem_queue h, k + 1, hevent.trans e.event_inNextFrame, ?_⟩
    rw [hdue, hnext, add_succ_mul]
  · exact ⟨e', hq ▸ List.mem_cons_of_mem e he', k, hevent, hdue⟩

/-- What recurs before an event is taken is this event, or recurs after it, too. -/
theorem eq_or_recurs_of_takeDue (h : s.takeDue = .ok (some (e, s'))) (hx : s.Recurs x) :
    x = e ∨ s'.Recurs x := by
  obtain ⟨e', he', k, hevent, hdue⟩ := hx
  obtain ⟨rest, hq, -, hnext, -⟩ := of_takeDue_eq_some h
  rw [hq] at he'
  rcases List.mem_cons.1 he' with rfl | he'
  · cases k with
    | zero =>
      rw [Nat.zero_mul, Nat.add_zero] at hdue
      refine .inl ?_
      obtain ⟨event, due⟩ := x
      have hdue' : due = e'.due := UInt64.toNat_inj.1 hdue
      rw [show event = e'.event from hevent, hdue']
    | succ k =>
      refine .inr ⟨e'.inNextFrame, (mem_queue_of_takeDue h).2 (.inl rfl), k,
        hevent.trans e'.event_inNextFrame.symm, ?_⟩
      rw [hdue, hnext, add_succ_mul]
  · exact .inr ⟨e', (mem_queue_of_takeDue h).2 (.inr ⟨rest, hq, he'⟩), k, hevent, hdue⟩

/-! ## Taking all due events -/

theorem recurs_of_mem_dueEvents (h : s.dueEvents = .ok (events, s')) :
    ∀ x ∈ events, s.Recurs x := by
  refine dueEvents_induction (P := fun s events _ => ∀ x ∈ events, s.Recurs x) ?_ ?_ h
  · intro s _ x hx
    cases hx
  · intro s e s₁ events s' htake ih x hx
    rcases List.mem_cons.1 hx with rfl | hx
    · exact recurs_of_mem (takeDue_mem_queue htake)
    · exact recurs_of_takeDue htake (ih x hx)

/-- What recurs after the due events are taken recurred before. -/
theorem recurs_of_dueEvents (h : s.dueEvents = .ok (events, s')) (hx : s'.Recurs x) :
    s.Recurs x := by
  revert hx
  refine dueEvents_induction (P := fun s _ s' => s'.Recurs x → s.Recurs x) ?_ ?_ h
  · intro s _ hx
    exact hx
  · intro s e s₁ events s' htake ih hx
    exact recurs_of_takeDue htake (ih hx)

/-- What recurs before the due events are taken is one of them, or recurs after them, too. -/
theorem mem_dueEvents_or_recurs (h : s.dueEvents = .ok (events, s')) (hx : s.Recurs x) :
    x ∈ events ∨ s'.Recurs x := by
  revert hx
  refine dueEvents_induction (P := fun s events s' => s.Recurs x → x ∈ events ∨ s'.Recurs x) ?_ ?_ h
  · intro s _ hx
    exact .inr hx
  · intro s e s₁ events s' htake ih hx
    rcases eq_or_recurs_of_takeDue htake hx with rfl | hx
    · exact .inl List.mem_cons_self
    · exact (ih hx).imp_left (List.mem_cons_of_mem e)

/-- What recurs is due no earlier than the pending events. -/
theorem le_due_of_recurs {c : Nat} (hc : ∀ e ∈ s.queue, c ≤ e.due.toNat) (hx : s.Recurs x) :
    c ≤ x.due.toNat := by
  obtain ⟨e, he, k, -, hdue⟩ := hx
  rw [hdue]
  exact Nat.le_trans (hc e he) (Nat.le_add_right _ _)

/-- The due events of an ordered schedule are those that it stands for up to now. -/
theorem mem_dueEvents_iff (h : s.dueEvents = .ok (events, s')) (ho : s.Ordered) :
    x ∈ events ↔ s.Recurs x ∧ x.due.toNat ≤ s.cycle.toNat := by
  obtain ⟨-, -, hdue, hlater, -⟩ := dueEvents_spec h ho
  constructor
  · intro hx
    exact ⟨recurs_of_mem_dueEvents h x hx, hdue x hx⟩
  · rintro ⟨hx, hle⟩
    rcases mem_dueEvents_or_recurs h hx with hx | hx
    · exact hx
    · have : s.cycle.toNat + 1 ≤ x.due.toNat := le_due_of_recurs hlater hx
      omega

/-! ## Due cycles that fit -/

/-- If an event that is due now has a frame left before the last cycle, every event does. -/
theorem fits_of_add_frame_le {stop : Nat} (h : stop + frame.toNat ≤ 2 ^ 64) : s.Fits stop := by
  intro e _ k hk
  rw [Nat.succ_mul]
  omega

theorem fits_of_takeDue {stop : Nat} (h : s.takeDue = .ok (some (e, s'))) (hs : s.Fits stop) :
    s'.Fits stop := by
  intro x hx k hk
  rcases (mem_queue_of_takeDue h).1 hx with rfl | ⟨rest, hq, hx⟩
  · obtain ⟨-, -, -, hnext, -⟩ := of_takeDue_eq_some h
    rw [hnext, ← add_succ_mul] at hk
    rw [hnext, ← add_succ_mul]
    exact hs e (takeDue_mem_queue h) (k + 1) hk
  · exact hs x (hq ▸ List.mem_cons_of_mem e hx) k hk

/-- If the due cycles fit, the first event can be taken if it is due. -/
theorem takeDue_eq_ok {stop : Nat} (hs : s.Fits stop) (hlt : s.cycle.toNat < stop) :
    ∃ r, s.takeDue = .ok r := by
  obtain ⟨cycle, queue⟩ := s
  cases queue with
  | nil => exact ⟨none, rfl⟩
  | cons e rest =>
    by_cases hwait : cycle < e.due
    · exact ⟨none, if_pos hwait⟩
    · have hdue : e.due.toNat ≤ cycle.toNat := by
        rw [UInt64.lt_iff_toNat_lt] at hwait
        exact Nat.le_of_not_lt hwait
      have hfit := hs e List.mem_cons_self 0
      rw [Nat.zero_mul, Nat.add_zero, Nat.zero_add, Nat.one_mul] at hfit
      have hsum := Checked.add64_eq_ok (hfit (Nat.lt_of_le_of_lt hdue hlt))
      refine ⟨some (e, ⟨cycle, insert e.inNextFrame rest⟩), ?_⟩
      have htake : takeDue ⟨cycle, e :: rest⟩ = (do
          let due ← Checked.add64 e.due frame
          return some (e, ⟨cycle, insert { e with due := due } rest⟩)) := if_neg hwait
      rw [htake, hsum]
      rfl

/-- If the due cycles fit, the due events can be taken, and they still fit after that. -/
theorem dueEvents_eq_ok {stop : Nat} (hs : s.Fits stop) (hlt : s.cycle.toNat < stop) :
    ∃ events s', s.dueEvents = .ok (events, s') ∧ s'.cycle = s.cycle ∧ s'.Fits stop := by
  obtain ⟨n, hn⟩ : ∃ n, s.overdue = n := ⟨_, rfl⟩
  induction n using Nat.strongRecOn generalizing s with
  | ind n ih =>
    obtain ⟨r, htake⟩ := takeDue_eq_ok hs hlt
    cases r with
    | none => exact ⟨[], s, dueEvents_of_waits htake, rfl, hs⟩
    | some r =>
      obtain ⟨e, s₁⟩ := r
      obtain ⟨rest, -, -, -, hs₁⟩ := of_takeDue_eq_some htake
      have hcycle : s₁.cycle = s.cycle := by rw [hs₁]
      obtain ⟨events, s', hevents, hcycle', hfits⟩ := ih s₁.overdue
        (hn ▸ overdue_takeDue_lt htake) (fits_of_takeDue htake hs) (hcycle ▸ hlt) rfl
      refine ⟨e :: events, s', ?_, hcycle'.trans hcycle, hfits⟩
      rw [dueEvents_of_due htake, hevents]
      rfl

end Schedule

end R5900
