import Nebula.Firewall.Conntrack
import Nebula.Machine.Run
import Nebula.Machine.TimedMap
import Mathlib.Tactic.Common

/-! # The table of flows is a timed map

A refresh leaves the heap alone and a removal leaves its slot behind, so the heap says little about
the table. What it does say is enough: every tracked flow has a slot no later than its expiry. A purge
then drops the expired flows and no others, and at every time the table answers as the map in which
a flow lasts until the end of its last record.
-/

namespace Nebula

open Rust Machine

namespace Conntrack

/-! ## What a purge leaves -/

section Purge

variable {timeout : Packet → Duration} {clock now : Instant} {ct ct' : Conntrack}

/-- Every flow has a slot no later than its expiry, and an expiry that a record could give it by `clock`. -/
def Scheduled (timeout : Packet → Duration) (clock : Instant) (ct : Conntrack) : Prop :=
  ∀ packet entry, ct.conns.get packet = some entry → entry.expires ≤ clock + timeout packet ∧
    ∃ slot, (slot, packet) ∈ ct.expiryHeap.slots ∧ slot ≤ entry.expires

theorem scheduled_new (timeout : Packet → Duration) (clock : Instant) : new.Scheduled timeout clock := by
  rintro packet entry ⟨⟩

theorem Scheduled.later (scheduled : ct.Scheduled timeout clock) (passed : clock ≤ now) :
    ct.Scheduled timeout now := by
  intro packet entry found
  obtain ⟨bounded, slot⟩ := scheduled packet entry found
  exact ⟨le_trans bounded (Nat.add_le_add_right passed _), slot⟩

/-- The entry of a flow that has not expired at `now`. -/
def unexpired (now : Instant) (ct : Conntrack) (packet : Packet) : Option ConnEntry :=
  (ct.conns.get packet).filter fun entry => now < entry.expires

/-- A slot that has been popped is missed by no flow, and only an expired flow is dropped. -/
theorem settle_spec (scheduled : ct.Scheduled timeout clock) {expires : Instant} {packet : Packet}
    (next : ct.expiryHeap.peek = some (expires, packet)) (now : Instant) :
    ({ ct with expiryHeap := ct.expiryHeap.pop }.settle now packet).Scheduled timeout clock ∧
      ∀ other, ({ ct with expiryHeap := ct.expiryHeap.pop }.settle now packet).unexpired now other =
        ct.unexpired now other := by
  -- the slots of the other flows survive the pop
  have kept (other : Packet) (entry : ConnEntry) (distinct : other ≠ packet)
      (found : ct.conns.get other = some entry) : entry.expires ≤ clock + timeout other ∧
        ∃ slot, (slot, other) ∈ ct.expiryHeap.pop.slots ∧ slot ≤ entry.expires := by
    obtain ⟨bounded, slot, member, early⟩ := scheduled other entry found
    rcases MinHeap.mem_pop next member with same | member
    · cases same
      exact absurd rfl distinct
    · exact ⟨bounded, slot, member, early⟩
  unfold settle
  cases tracked : ct.conns.get packet with
  | none =>
    refine ⟨?_, fun other => rfl⟩
    intro other entry found
    apply kept other entry ?_ found
    rintro rfl
    cases tracked.symm.trans found
  | some entry =>
    dsimp only
    split
    · next expired =>
      constructor
      · intro other entry' found
        obtain ⟨distinct, found⟩ := HashMap.of_get_remove found
        exact kept other entry' distinct found
      · intro other
        unfold unexpired
        rw [HashMap.get_remove]
        split
        · next same =>
          subst same
          rw [tracked, Option.filter_some_neg (by simpa using expired), Option.filter_none]
        · rfl
    · next live =>
      refine ⟨?_, fun other => rfl⟩
      intro other entry' found
      by_cases same : other = packet
      · subst same
        obtain rfl := Option.some.inj (tracked.symm.trans found)
        exact ⟨(scheduled other entry tracked).1, entry.expires, MinHeap.mem_push.mpr (.inl rfl), le_refl _⟩
      · obtain ⟨bounded, slot, member, early⟩ := kept other entry' same found
        exact ⟨bounded, slot, MinHeap.mem_push.mpr (.inr member), early⟩

/-- A purge keeps the invariant and drops exactly the flows that have expired. -/
theorem purgeExpired_spec (scheduled : ct.Scheduled timeout clock) (now : Instant) :
    (ct.purgeExpired now).Scheduled timeout clock ∧
      ∀ packet, (ct.purgeExpired now).conns.get packet = ct.unexpired now packet := by
  have purged := purge_induction now
    (P := fun mid => mid.Scheduled timeout clock ∧ ∀ packet, mid.unexpired now packet = ct.unexpired now packet)
    ⟨scheduled, fun packet => rfl⟩ (by
      rintro mid expires packet ⟨held, same⟩ next -
      obtain ⟨held', same'⟩ := settle_spec held next now
      exact ⟨held', fun other => (same' other).trans (same other)⟩)
  obtain ⟨⟨held, same⟩, late⟩ := purged
  refine ⟨held, ?_⟩
  intro packet
  rw [← same packet, unexpired]
  cases tracked : (ct.purgeExpired now).conns.get packet with
  | none => rfl
  | some entry =>
    obtain ⟨-, slot, member, early⟩ := held packet entry tracked
    have live : now < entry.expires := lt_of_lt_of_le (late _ member) early
    exact (Option.filter_some_pos (by simpa using live)).symm

/-- What is unexpired later survives the purge. -/
theorem unexpired_purgeExpired (scheduled : ct.Scheduled timeout clock) {later : Instant}
    (passed : now ≤ later) (packet : Packet) :
    (ct.purgeExpired now).unexpired later packet = ct.unexpired later packet := by
  rw [unexpired, (purgeExpired_spec scheduled now).2 packet, unexpired, Option.filter_filter, unexpired]
  congr 1
  funext entry
  rw [← Bool.decide_and, decide_eq_decide]
  exact and_iff_right_of_imp fun live => lt_of_le_of_lt passed live

theorem scheduled_remove (scheduled : ct.Scheduled timeout clock) (packet : Packet) :
    (ct.remove packet).Scheduled timeout clock := by
  intro other entry found
  exact scheduled other entry (HashMap.of_get_remove found).2

/-- A record at the time of the clock gives no flow an expiry before one it already had a slot for. -/
theorem scheduled_record {latest : Instant} {packet : Packet} {incoming : Bool} {version : UInt16}
    (scheduled : ct.Scheduled timeout now)
    (recorded : ct.record latest packet incoming version now (timeout packet) = .ok ct') :
    ct'.Scheduled timeout now := by
  unfold record at recorded
  split at recorded
  · cases recorded
  · cases recorded
    intro other entry found
    rw [HashMap.get_insert] at found
    split at found
    · next same =>
      subst same
      cases found
      refine ⟨le_refl _, ?_⟩
      cases tracked : ct.conns.get other with
      | none => exact ⟨now + timeout other, by simp [HashMap.containsKey, tracked, MinHeap.mem_push], le_refl _⟩
      | some entry =>
        obtain ⟨bounded, slot, member, early⟩ := scheduled other entry tracked
        exact ⟨slot, by simpa [HashMap.containsKey, tracked] using member, le_trans early bounded⟩
    · obtain ⟨bounded, slot, member, early⟩ := scheduled other entry found
      refine ⟨bounded, slot, ?_, early⟩
      dsimp only
      split
      · exact MinHeap.mem_push.mpr (.inr member)
      · exact member

end Purge

/-! ## Sequences of calls -/

/-- The calls of the table, each with the time it is given. -/
inductive Call where
  | record (packet : Packet) (incoming : Bool) (rulesVersion : UInt16) (now : Instant)
  | get (packet : Packet) (now : Instant)
  | remove (packet : Packet)
  | purgeExpired (now : Instant)

def Call.time : Call → Option Instant
  | .record _ _ _ now => some now
  | .get _ now => some now
  | .remove _ => none
  | .purgeExpired now => some now

section Calls

variable (latest : Instant) (timeout : Packet → Duration)

/-- A table that answers calls one after another, with the timeout of each packet. A record that unwinds
leaves the table as it was. -/
def system : System Conntrack Call (Exec (Option (Bool × UInt16))) where
  step ct
    | .record packet incoming rulesVersion now =>
      match ct.record latest packet incoming rulesVersion now (timeout packet) with
      | .ok ct => (ct, .ok none)
      | .error cause => (ct, .error cause)
    | .get packet now =>
      let (ct, found) := ct.get packet now
      (ct, .ok found)
    | .remove packet => (ct.remove packet, .ok none)
    | .purgeExpired now => (ct.purgeExpired now, .ok none)

/-- What a call does to the timed map: a record that does not unwind writes until its timeout is over. -/
def Call.write : Call → Option (TimedWrite Packet (Bool × UInt16) Instant)
  | .record packet incoming rulesVersion now =>
    if latest < now + timeout packet then none
    else some (.record packet (incoming, rulesVersion) (now + timeout packet))
  | .remove packet => some (.remove packet)
  | .get _ _ => none
  | .purgeExpired _ => none

/-- The table answers as the timed map at `clock` and ever after. -/
structure Represents (clock : Instant) (ct : Conntrack) (map : TimedMap Packet (Bool × UInt16) Instant) :
    Prop where
  scheduled : ct.Scheduled timeout clock
  answers : ∀ packet now, clock ≤ now →
    (ct.unexpired now packet).map (fun entry => (entry.incoming, entry.rulesVersion)) = map.lookup packet now

variable {latest timeout} {clock now : Instant} {ct : Conntrack}
  {map : TimedMap Packet (Bool × UInt16) Instant}

theorem Represents.later (held : Represents timeout clock ct map) (passed : clock ≤ now) :
    Represents timeout now ct map where
  scheduled := held.scheduled.later passed
  answers packet after bound := held.answers packet after (le_trans passed bound)

theorem Represents.purge (held : Represents timeout clock ct map) (passed : now ≤ clock) :
    Represents timeout clock (ct.purgeExpired now) map where
  scheduled := (purgeExpired_spec held.scheduled now).1
  answers packet after bound := by
    rw [unexpired_purgeExpired held.scheduled (le_trans passed bound)]
    exact held.answers packet after bound

theorem Represents.remove (held : Represents timeout clock ct map) (packet : Packet) :
    Represents timeout clock (ct.remove packet) (map.write (.remove packet)) where
  scheduled := scheduled_remove held.scheduled packet
  answers other after bound := by
    unfold unexpired Conntrack.remove TimedMap.lookup
    rw [HashMap.get_remove]
    dsimp only [TimedMap.write]
    split
    · rfl
    · exact held.answers other after bound

theorem Represents.record (held : Represents timeout now ct map) {packet : Packet} {incoming : Bool}
    {version : UInt16} {ct' : Conntrack}
    (recorded : ct.record latest packet incoming version now (timeout packet) = .ok ct') :
    Represents timeout now ct' (map.write (.record packet (incoming, version) (now + timeout packet))) where
  scheduled := scheduled_record held.scheduled recorded
  answers other after bound := by
    unfold Conntrack.record at recorded
    split at recorded
    · cases recorded
    · cases recorded
      unfold unexpired TimedMap.lookup
      rw [HashMap.get_insert]
      dsimp only [TimedMap.write]
      split
      · simp only [Option.filter_some]
        split
        · rfl
        · rfl
      · exact held.answers other after bound

/-- A call at the time of the clock does to the table what it does to the timed map. -/
theorem Represents.step (held : Represents timeout clock ct map) (call : Call)
    (current : ∀ t ∈ call.time, t = clock) :
    Represents timeout clock ((system latest timeout).step ct call).1
      (map.apply (Call.write latest timeout) call) := by
  cases call with
  | record packet incoming version now =>
    obtain rfl := current now rfl
    dsimp only [system, TimedMap.apply, Call.write]
    rcases recorded : ct.record latest packet incoming version now (timeout packet) with cause | ct'
    · unfold Conntrack.record at recorded
      split at recorded
      · next unwinds =>
        rw [if_pos unwinds]
        exact held
      · cases recorded
    · have fits : ¬ latest < now + timeout packet := by
        intro unwinds
        rw [Conntrack.record, if_pos unwinds] at recorded
        cases recorded
      rw [if_neg fits]
      exact held.record recorded
  | get packet now =>
    obtain rfl := current now rfl
    exact held.purge (le_refl now)
  | remove packet => exact held.remove packet
  | purgeExpired now =>
    obtain rfl := current now rfl
    exact held.purge (le_refl now)

/-- After every chronological run the table stands for the map of the run's writes. -/
theorem represents_run (latest : Instant) (timeout : Packet → Duration) {calls : List Call}
    (ordered : Chronological Call.time calls) {clock : Instant}
    (seen : ∀ call ∈ calls, ∀ t ∈ call.time, t ≤ clock) :
    Represents timeout clock ((system latest timeout).exec .new calls)
      (.after (Call.write latest timeout) calls) := by
  refine Chronological.induction
    (P := fun clock calls => Represents timeout clock ((system latest timeout).exec .new calls)
      (.after (Call.write latest timeout) calls)) ?_ ?_ ?_ ordered seen
  · intro clock
    exact ⟨scheduled_new timeout clock, fun packet now bound => rfl⟩
  · intro clock now calls passed held
    exact held.later passed
  · intro clock calls call current held
    rw [System.exec_concat, TimedMap.after_concat]
    exact held.step call current

/-- The call is a record of `packet` that does not unwind, or removes it. -/
def Call.Settles (latest : Instant) (timeout : Packet → Duration) (packet : Packet) : Call → Prop
  | .record other _ _ now => other = packet ∧ now + timeout packet ≤ latest
  | .remove other => other = packet
  | .get _ _ => False
  | .purgeExpired _ => False

theorem settles_iff_writes {packet : Packet} {call : Call} :
    call.Settles latest timeout packet ↔ TimedMap.Writes (Call.write latest timeout) packet call := by
  unfold TimedMap.Writes
  cases call with
  | record other incoming version now =>
    dsimp only [Call.Settles, Call.write]
    split
    · next unwinds =>
      constructor
      · rintro ⟨rfl, fits⟩
        exact absurd unwinds (not_lt.mpr fits)
      · rintro ⟨write, ⟨⟩, -⟩
    · next fits =>
      constructor
      · rintro ⟨rfl, -⟩
        exact ⟨_, rfl, rfl⟩
      · rintro ⟨write, ⟨⟩, rfl⟩
        exact ⟨rfl, not_lt.mp fits⟩
  | remove other => simp [Call.Settles, Call.write, TimedWrite.key]
  | get _ _ => simp [Call.Settles, Call.write]
  | purgeExpired _ => simp [Call.Settles, Call.write]

/-- The last call that settled `packet` recorded these values, at a time whose timeout is not over at `now`. -/
def RecordedLast (latest : Instant) (timeout : Packet → Duration) (calls : List Call) (packet : Packet)
    (now : Instant) (incoming : Bool) (version : UInt16) : Prop :=
  ∃ recorded, recorded + timeout packet ≤ latest ∧
    Last (Call.Settles latest timeout packet) calls (.record packet incoming version recorded) ∧
    now < recorded + timeout packet

theorem lookup_after_iff (calls : List Call) (packet : Packet) (now : Instant) (incoming : Bool)
    (version : UInt16) :
    (TimedMap.after (Call.write latest timeout) calls).lookup packet now = some (incoming, version) ↔
      RecordedLast latest timeout calls packet now incoming version := by
  have same : Call.Settles latest timeout packet = TimedMap.Writes (Call.write latest timeout) packet :=
    funext fun call => propext settles_iff_writes
  unfold RecordedLast
  rw [TimedMap.lookup_eq_some_iff, same]
  constructor
  · rintro ⟨ends, entry, live⟩
    obtain ⟨call, written, last⟩ := (TimedMap.entry_after_iff _ _ _ _ _).mp entry
    cases call with
    | record other incoming' version' recorded =>
      dsimp only [Call.write] at written
      split at written
      · cases written
      · next fits =>
        cases written
        exact ⟨recorded, not_lt.mp fits, last, live⟩
    | remove other => cases written
    | get _ _ => cases written
    | purgeExpired _ => cases written
  · rintro ⟨recorded, fits, last, live⟩
    refine ⟨recorded + timeout packet, (TimedMap.entry_after_iff _ _ _ _ _).mpr ?_, live⟩
    exact ⟨.record packet incoming version recorded, if_neg (not_lt.mpr fits), last⟩

/-- A lookup finds the values of the flow's last record if that has not been removed since and its timeout
is not over, and else nothing. -/
theorem get_eq_some_iff_recordedLast (latest : Instant) (timeout : Packet → Duration) (calls : List Call)
    (packet : Packet) (now : Instant)
    (ordered : Chronological Call.time (calls ++ [.get packet now])) :
    (∀ incoming version,
      (((system latest timeout).exec .new calls).get packet now).2 = some (incoming, version) ↔
        RecordedLast latest timeout calls packet now incoming version) ∧
      ((((system latest timeout).exec .new calls).get packet now).2 = none ↔
        ∀ incoming version, ¬ RecordedLast latest timeout calls packet now incoming version) := by
  have held := represents_run latest timeout ordered.of_append (ordered.le_last rfl)
  have answer : (((system latest timeout).exec .new calls).get packet now).2 =
      (TimedMap.after (Call.write latest timeout) calls).lookup packet now := by
    rw [← held.answers packet now (le_refl now), ← (purgeExpired_spec held.scheduled now).2 packet]
    rfl
  rw [answer]
  constructor
  · intro incoming version
    exact lookup_after_iff calls packet now incoming version
  · rw [Option.eq_none_iff_forall_ne_some, Prod.forall]
    apply forall₂_congr
    intro incoming version
    exact not_congr (lookup_after_iff calls packet now incoming version)

end Calls

/-- The flow of the source's tests, by its local port. -/
def packet (port : UInt16) : Packet where
  localAddr := .v4 (.new 10 0 0 1)
  remoteAddr := .v4 (.new 10 0 0 2)
  localPort := port
  remotePort := 90
  protocol := .udp
  fragment := false

/-- A flow recorded at 0 and refreshed at 5 for ten more outlives its first slot, which is due at 10. -/
theorem refreshed_flow_outlives_first_slot :
    (((system 1000 fun _ => 10).exec .new
      [.record (packet 1) true 0 0, .record (packet 1) true 0 5, .purgeExpired 10]).get (packet 1) 10).2 =
        some (true, 0) := by
  have ordered : Chronological Call.time
      ([.record (packet 1) true 0 0, .record (packet 1) true 0 5, .purgeExpired 10] ++
        [.get (packet 1) 10]) := by
    unfold Chronological
    decide
  refine ((get_eq_some_iff_recordedLast 1000 (fun _ => 10) _ (packet 1) 10 ordered).1 true 0).mpr ?_
  refine ⟨5, by decide, ⟨[.record (packet 1) true 0 0], [.purgeExpired 10], rfl, ?_⟩, by decide⟩
  intro later member
  rw [List.mem_singleton.mp member]
  exact not_false

end Conntrack

end Nebula
