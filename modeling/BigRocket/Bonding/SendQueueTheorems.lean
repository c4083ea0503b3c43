/-
The send queue loses ordinary frames only, one at a time and the oldest first,
and counts what it loses.
-/
import BigRocket.Bonding.SendQueue

namespace BigRocket.Bonding

open Lib List

namespace BoundedSendQueue

variable {q : BoundedSendQueue} {item : Offered}

theorem offer_cases (q : BoundedSendQueue) (item : Offered) :
    (q.deque.length < q.capacity ∧
      q.offer item = (true, { q with deque := q.deque ++ [item] })) ∨
    (∃ older old newer, q.capacity ≤ q.deque.length ∧ q.deque = older ++ old :: newer ∧
      old.isOrdinary = true ∧ (∀ f ∈ older, f.isOrdinary = false) ∧
      q.offer item = (true, { q with
        deque := older ++ newer ++ [item]
        droppedCount := q.droppedCount + 1 })) ∨
    (q.capacity ≤ q.deque.length ∧ (∀ f ∈ q.deque, f.isOrdinary = false) ∧
      q.offer item = (false, { q with droppedCount := q.droppedCount + 1 })) := by
  by_cases hroom : q.deque.length < q.capacity
  · exact .inl ⟨hroom, if_pos hroom⟩
  · have hfull : q.capacity ≤ q.deque.length := not_lt.mp hroom
    cases hindex : q.deque.findIdx? Offered.isOrdinary with
    | none =>
      refine .inr (.inr ⟨hfull, findIdx?_eq_none_iff.mp hindex, ?_⟩)
      rw [offer, if_neg hroom, hindex]
    | some i =>
      obtain ⟨hi, hordinary, hfirst⟩ := findIdx?_eq_some_iff_getElem.mp hindex
      refine .inr (.inl ⟨q.deque.take i, q.deque[i], q.deque.drop (i + 1), hfull, ?_, hordinary,
        ?_, ?_⟩)
      · rw [← drop_eq_getElem_cons hi, take_append_drop]
      · intro f hf
        obtain ⟨j, hj, rfl⟩ := mem_iff_getElem.mp hf
        rw [length_take] at hj
        exact Bool.eq_false_iff.mpr (by simpa using hfirst j (by omega))
      · rw [offer, if_neg hroom, hindex, ← eraseIdx_eq_take_drop_succ]

end BoundedSendQueue

namespace SendQueueRun

variable {capacity : Nat} {r : SendQueueRun}

structure Sound (capacity : Nat) (r : SendQueueRun) : Prop where
  capacity_eq : r.queue.capacity = capacity
  bounded : r.queue.deque.length ≤ capacity
  ordered : (r.polled ++ r.queue.deque).Sublist r.accepted
  tickets : (r.accepted.map Offered.ticket).Pairwise (· < ·)
  numbered : ∀ f ∈ r.accepted, f.ticket < r.offered
  kept : ∀ f ∈ r.accepted, f.isOrdinary = false → f ∈ r.polled ++ r.queue.deque
  counted : r.offered = r.polled.length + r.queue.deque.length + r.queue.droppedCount

theorem sound_create : Sound capacity (create capacity) where
  capacity_eq := rfl
  bounded := Nat.zero_le _
  ordered := .slnil
  tickets := .nil
  numbered := nofun
  kept := nofun
  counted := rfl

theorem Sound.tickets_concat (h : Sound capacity r) (frame : Frame) :
    ((r.accepted ++ [(⟨r.offered, frame⟩ : Offered)]).map Offered.ticket).Pairwise (· < ·) := by
  rw [map_append, pairwise_append]
  refine ⟨h.tickets, pairwise_singleton .., ?_⟩
  intro a ha b hb
  obtain ⟨f, hf, rfl⟩ := mem_map.mp ha
  rw [mem_singleton.mp hb]
  exact h.numbered f hf

theorem Sound.numbered_concat (h : Sound capacity r) (frame : Frame) :
    ∀ f ∈ r.accepted ++ [⟨r.offered, frame⟩], f.ticket < r.offered + 1 := by
  intro f hf
  rcases mem_append.mp hf with hf | hf
  · exact Nat.lt_succ_of_lt (h.numbered f hf)
  · rw [mem_singleton.mp hf]
    exact Nat.lt_succ_self _

theorem Sound.offer (h : Sound capacity r) (frame : Frame) :
    Sound capacity (r.step (.offer frame)) := by
  have hcounted := h.counted
  have hcapacity := h.capacity_eq
  have hbounded := h.bounded
  rcases r.queue.offer_cases ⟨r.offered, frame⟩ with ⟨hroom, heq⟩ |
    ⟨older, old, newer, hfull, hdeque, hordinary, -, heq⟩ | ⟨hfull, hnone, heq⟩
  · refine ⟨?_, ?_, ?_, ?_, ?_, ?_, ?_⟩ <;> simp only [step, heq, if_true]
    · exact hcapacity
    · rw [length_append, length_singleton]
      omega
    · rw [← append_assoc]
      exact h.ordered.append_right _
    · exact h.tickets_concat frame
    · exact h.numbered_concat frame
    · intro f hf hpriority
      rw [← append_assoc]
      rcases mem_append.mp hf with hf | hf
      · exact mem_append_left _ (h.kept f hf hpriority)
      · exact mem_append_right _ hf
    · rw [length_append, length_singleton]
      omega
  · have hlength : r.queue.deque.length = (older ++ newer).length + 1 := by
      rw [hdeque]
      simp
      omega
    have hsublist : (older ++ newer).Sublist r.queue.deque := by
      rw [hdeque]
      exact (List.Sublist.refl older).append (sublist_cons_self old newer)
    refine ⟨?_, ?_, ?_, ?_, ?_, ?_, ?_⟩ <;> simp only [step, heq, if_true]
    · exact hcapacity
    · rw [length_append, length_singleton]
      omega
    · rw [← append_assoc]
      exact (((List.Sublist.refl r.polled).append hsublist).trans h.ordered).append_right _
    · exact h.tickets_concat frame
    · exact h.numbered_concat frame
    · intro f hf hpriority
      rw [← append_assoc]
      rcases mem_append.mp hf with hf | hf
      · -- a frame that was kept so far is none that makes room
        have hkept := h.kept f hf hpriority
        have hne : f ≠ old := by
          rintro rfl
          rw [hordinary] at hpriority
          cases hpriority
        rw [hdeque] at hkept
        simp only [mem_append, mem_cons] at hkept ⊢
        tauto
      · exact mem_append_right _ hf
    · rw [length_append, length_singleton]
      omega
  · refine ⟨?_, ?_, ?_, ?_, ?_, ?_, ?_⟩ <;> simp only [step, heq, Bool.false_eq_true, if_false]
    · exact hcapacity
    · exact hbounded
    · exact h.ordered
    · exact h.tickets
    · exact fun f hf => Nat.lt_succ_of_lt (h.numbered f hf)
    · exact h.kept
    · omega

theorem polled_append_poll (r : SendQueueRun) :
    (r.step .poll).polled ++ (r.step .poll).queue.deque = r.polled ++ r.queue.deque := by
  simp only [step, BoundedSendQueue.poll]
  cases r.queue.deque with
  | nil => simp
  | cons f deque => simp

theorem Sound.poll (h : Sound capacity r) : Sound capacity (r.step .poll) where
  capacity_eq := h.capacity_eq
  bounded := le_trans (by simp [step, BoundedSendQueue.poll]) h.bounded
  ordered := by
    rw [polled_append_poll]
    exact h.ordered
  tickets := h.tickets
  numbered := h.numbered
  kept := by
    rw [polled_append_poll]
    exact h.kept
  counted := by
    have hboth := congrArg List.length (polled_append_poll r)
    rw [length_append, length_append] at hboth
    exact h.counted.trans (congrArg (· + r.queue.droppedCount) hboth.symm)

theorem Sound.step (h : Sound capacity r) (e : SendQueueEvent) : Sound capacity (r.step e) := by
  cases e with
  | offer frame => exact h.offer frame
  | poll => exact h.poll

theorem sound_run (events : List SendQueueEvent) : Sound capacity (run capacity events) := by
  induction events using List.reverseRecOn with
  | nil => exact sound_create
  | append_singleton events e ih =>
    rw [run, exec_concat]
    exact ih.step e

theorem Sound.ticket_lt (h : Sound capacity r) {older newer : List Offered} {old g : Offered}
    (hdeque : r.queue.deque = older ++ old :: newer) (hg : g ∈ newer) : old.ticket < g.ticket := by
  have hsublist : [old, g].Sublist r.accepted := by
    have hpair : [old, g].Sublist (old :: newer) :=
      List.Sublist.cons_cons old (singleton_sublist.mpr hg)
    have hall : (old :: newer).Sublist (r.polled ++ r.queue.deque) := by
      rw [hdeque]
      exact (sublist_append_right older _).trans (sublist_append_right r.polled _)
    exact hpair.trans (hall.trans h.ordered)
  have htickets := h.tickets.sublist (hsublist.map Offered.ticket)
  simpa using htickets

theorem Sound.evicted (h : Sound capacity r) (e : SendQueueEvent) {f : Offered}
    (hf : f ∈ r.queue.deque) (hgone : f ∉ (r.step e).queue.deque)
    (hpolled : f ∉ (r.step e).polled) :
    r.queue.deque.length = capacity ∧ f.isOrdinary = true ∧
      ∀ g ∈ r.queue.deque, g.isOrdinary = true → f.ticket ≤ g.ticket := by
  cases e with
  | poll =>
    have hmem : f ∈ (r.step .poll).polled ++ (r.step .poll).queue.deque := by
      rw [polled_append_poll]
      exact mem_append_right _ hf
    rcases mem_append.mp hmem with hmem | hmem
    · exact absurd hmem hpolled
    · exact absurd hmem hgone
  | offer frame =>
    have hcapacity := h.capacity_eq
    have hbounded := h.bounded
    rcases r.queue.offer_cases ⟨r.offered, frame⟩ with ⟨hroom, heq⟩ |
      ⟨older, old, newer, hfull, hdeque, hordinary, holder, heq⟩ | ⟨hfull, hnone, heq⟩
    · simp only [SendQueueRun.step, heq] at hgone
      exact absurd (mem_append_left _ hf) hgone
    · simp only [SendQueueRun.step, heq] at hgone
      have hf' := hf
      rw [hdeque] at hf'
      obtain rfl : f = old := by
        simp only [mem_append, mem_cons] at hf' hgone
        tauto
      refine ⟨by omega, hordinary, fun g hg hgordinary => ?_⟩
      rw [hdeque] at hg
      rcases mem_append.mp hg with hg | hg
      · rw [holder g hg] at hgordinary
        cases hgordinary
      · rcases mem_cons.mp hg with rfl | hg
        · exact le_rfl
        · exact (h.ticket_lt hdeque hg).le
    · simp only [SendQueueRun.step, heq] at hgone
      exact absurd hf hgone

/-- **The send queue** is bounded and in order, keeps control and priority frames,
evicts the oldest ordinary one, and accounts for every offer. -/
theorem sendQueue_sound (capacity : Nat) (events : List SendQueueEvent) :
    (run capacity events).queue.deque.length ≤ capacity ∧
    ((run capacity events).polled ++ (run capacity events).queue.deque).Sublist
      (run capacity events).accepted ∧
    ((run capacity events).accepted.map Offered.ticket).Pairwise (· < ·) ∧
    (∀ f ∈ (run capacity events).accepted, f.isOrdinary = false →
      f ∈ (run capacity events).polled ++ (run capacity events).queue.deque) ∧
    (∀ e, ∀ f ∈ (run capacity events).queue.deque,
      f ∉ (run capacity (events ++ [e])).queue.deque → f ∉ (run capacity (events ++ [e])).polled →
        (run capacity events).queue.deque.length = capacity ∧ f.isOrdinary = true ∧
          ∀ g ∈ (run capacity events).queue.deque, g.isOrdinary = true → f.ticket ≤ g.ticket) ∧
    (run capacity events).offered = (run capacity events).polled.length +
      (run capacity events).queue.deque.length + (run capacity events).queue.droppedCount := by
  have h : Sound capacity (run capacity events) := sound_run events
  refine ⟨h.bounded, h.ordered, h.tickets, h.kept, fun e f hf hgone hpolled => ?_, h.counted⟩
  rw [run, exec_concat] at hgone hpolled
  exact h.evicted e hf hgone hpolled

end SendQueueRun

end BigRocket.Bonding
