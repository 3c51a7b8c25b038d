import Nebula.Firewall.Conntrack

/-! # What a purge does to any table

A turn pops a slot and may push one, so the size of the heap does not tell when the loop ends. The slots at
or before `now` do: every turn leaves one fewer. Nothing is assumed about the heap, which may have several
slots for a flow, slots of flows that are gone, and none for a flow that is there.
-/

namespace Nebula

open Rust

namespace Conntrack

/-- The table has the flows of `ct`, less some that have expired. -/
def LessExpired (now : Instant) (ct purged : Conntrack) : Prop :=
  ∀ packet, purged.conns.get packet = ct.conns.get packet ∨
    (purged.conns.get packet = none ∧ ∃ entry, ct.conns.get packet = some entry ∧ entry.expires ≤ now)

theorem LessExpired.settle {now : Instant} {ct mid : Conntrack} (less : LessExpired now ct mid)
    (packet : Packet) : LessExpired now ct (mid.settle now packet) := by
  intro other
  rcases settle_cases mid now packet with ⟨-, same⟩ | ⟨entry, here, ⟨expired, same⟩ | ⟨-, same⟩⟩ <;> rw [same]
  · exact less other
  · dsimp only
    rw [HashMap.get_remove]
    split
    · next popped =>
      subst popped
      rcases less other with kept | ⟨gone, -⟩
      · exact .inr ⟨rfl, entry, kept.symm.trans here, expired⟩
      · cases gone.symm.trans here
    · exact less other
  · exact less other

theorem lessExpired_purgeExpired (ct : Conntrack) (now : Instant) :
    LessExpired now ct (ct.purgeExpired now) := by
  refine (purge_induction now (P := LessExpired now ct) (fun packet => .inl rfl) ?_).1
  intro mid expires packet less next expired
  have popped : LessExpired now ct { mid with expiryHeap := mid.expiryHeap.pop } := less
  exact popped.settle packet

theorem due_eq_zero {ct : Conntrack} {now : Instant} (late : ∀ slot ∈ ct.expiryHeap.slots, now < slot.1) :
    ct.due now = 0 := by
  apply List.countP_eq_zero.mpr
  intro slot member
  simpa using late slot member

theorem purgeTurn_of_late {ct : Conntrack} {now : Instant}
    (late : ∀ slot ∈ ct.expiryHeap.slots, now < slot.1) : ct.purgeTurn now = .done ct := by
  unfold purgeTurn
  split
  · rfl
  · next expires packet next =>
    rw [if_pos]
    apply late (expires, packet)
    rw [MinHeap.slots_of_peek next]
    exact List.mem_cons_self

/-- The loop comes to its end after as many turns as there are slots at or before `now`. -/
theorem exists_purge_turns (ct : Conntrack) (now : Instant) :
    ∃ visited, Loop.Turns (purgeLoop now) ct visited (ct.purgeExpired now) ∧ visited.length = ct.due now := by
  obtain ⟨visited, last, turns, left⟩ := Loop.exists_turns (purgeLoop now) ct
  obtain ⟨same, late⟩ := purgeTurn_done left
  have counted : ct.due now = last.due now + visited.length := turns.measure_eq due_of_turn
  rw [due_eq_zero late, Nat.zero_add] at counted
  rw [← same] at turns
  exact ⟨visited, turns, counted.symm⟩

/-- For any table: the loop takes as many turns as there are slots at or before `now` and leaves none of
them; a flow that expires later stays as it is, and no other than an expired one is missing. -/
theorem purge_drops_expired (ct : Conntrack) (now : Instant) :
    (∃ visited, Loop.Turns (purgeLoop now) ct visited (ct.purgeExpired now) ∧
      visited.length = ct.expiryHeap.count (· ≤ now) ∧
      (purgeLoop now).body (ct.purgeExpired now) = .done (ct.purgeExpired now)) ∧
    (∀ slot ∈ (ct.purgeExpired now).expiryHeap.slots, now < slot.1) ∧
    (∀ packet entry, ct.conns.get packet = some entry → now < entry.expires →
      (ct.purgeExpired now).conns.get packet = some entry) ∧
    ∀ packet, (ct.purgeExpired now).conns.get packet ≠ ct.conns.get packet →
      (ct.purgeExpired now).conns.get packet = none ∧
        ∃ entry, ct.conns.get packet = some entry ∧ entry.expires ≤ now := by
  have less := lessExpired_purgeExpired ct now
  have late : ∀ slot ∈ (ct.purgeExpired now).expiryHeap.slots, now < slot.1 :=
    (purge_induction now (P := fun _ => True) trivial fun _ _ _ _ _ _ => trivial).2
  obtain ⟨visited, turns, counted⟩ := exists_purge_turns ct now
  refine ⟨⟨visited, turns, counted, ?_⟩, late, ?_, ?_⟩
  · exact purgeTurn_of_late late
  · intro packet entry tracked live
    rcases less packet with kept | ⟨-, entry', tracked', expired⟩
    · rw [kept, tracked]
    · obtain rfl := Option.some.inj (tracked.symm.trans tracked')
      exact absurd live (Nat.not_lt.mpr expired)
  · intro packet changed
    exact (less packet).resolve_left changed

end Conntrack

end Nebula
