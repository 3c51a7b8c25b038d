import Nebula.Firewall.Packet
import Nebula.Rust.HashMap
import Nebula.Rust.Loop
import Nebula.Rust.MinHeap
import Mathlib.Data.Nat.Basic

/-! # Tracked flows and their lazy expiry

`Conntrack` of the firewall: a table of flows and a heap with a slot for each of them. Instants and
durations are natural numbers; `latest` is the last instant the clock type can represent, past which
`now + timeout` unwinds.
-/

namespace Nebula

open Rust

abbrev Instant := ℕ
abbrev Duration := ℕ

structure ConnEntry where
  expires : Instant
  incoming : Bool
  rulesVersion : UInt16
deriving DecidableEq, Repr

structure Conntrack where
  conns : HashMap Packet ConnEntry
  expiryHeap : MinHeap Instant Packet

namespace Conntrack

def new : Conntrack := ⟨.empty, .empty⟩

/-- What becomes of the slot of `packet` once it has been popped. -/
def settle (ct : Conntrack) (now : Instant) (packet : Packet) : Conntrack :=
  match ct.conns.get packet with
  | some entry =>
    if entry.expires ≤ now then { ct with conns := ct.conns.remove packet }
    else { ct with expiryHeap := ct.expiryHeap.push entry.expires packet }
  | none => ct

/-- The slot of a flow that is gone is discarded, that of an expired flow goes with the flow, and a flow
that was refreshed gets a later one. -/
theorem settle_cases (ct : Conntrack) (now : Instant) (packet : Packet) :
    (ct.conns.get packet = none ∧ ct.settle now packet = ct) ∨
      ∃ entry, ct.conns.get packet = some entry ∧
        ((entry.expires ≤ now ∧ ct.settle now packet = { ct with conns := ct.conns.remove packet }) ∨
          (now < entry.expires ∧
            ct.settle now packet = { ct with expiryHeap := ct.expiryHeap.push entry.expires packet })) := by
  unfold settle
  rcases found : ct.conns.get packet with _ | entry
  · exact .inl ⟨rfl, rfl⟩
  · refine .inr ⟨entry, rfl, ?_⟩
    dsimp only
    split
    · next expired => exact .inl ⟨expired, rfl⟩
    · next live => exact .inr ⟨Nat.not_le.mp live, rfl⟩

/-- One turn of the loop of `purge_expired`. -/
def purgeTurn (now : Instant) (ct : Conntrack) : Flow Conntrack Conntrack :=
  match ct.expiryHeap.peek with
  | none => .done ct
  | some (expires, packet) =>
    if now < expires then .done ct
    else .next ({ ct with expiryHeap := ct.expiryHeap.pop }.settle now packet)

/-- The slots at or before `now`. -/
def due (now : Instant) (ct : Conntrack) : ℕ := ct.expiryHeap.count (· ≤ now)

theorem due_settle (ct : Conntrack) (now : Instant) (packet : Packet) :
    (ct.settle now packet).due now = ct.due now := by
  unfold settle
  split
  · next entry _ =>
    split
    · rfl
    · next live => simp [due, MinHeap.count_push, live]
  · rfl

theorem purgeTurn_next {now : Instant} {ct ct' : Conntrack} (turn : ct.purgeTurn now = .next ct') :
    ∃ expires packet, ct.expiryHeap.peek = some (expires, packet) ∧ expires ≤ now ∧
      ct' = { ct with expiryHeap := ct.expiryHeap.pop }.settle now packet := by
  unfold purgeTurn at turn
  split at turn
  · cases turn
  · next expires packet next =>
    split at turn
    · cases turn
    · next expired =>
      cases turn
      exact ⟨expires, packet, next, Nat.not_lt.mp expired, rfl⟩

/-- The loop leaves the table as it is once no slot is due. -/
theorem purgeTurn_done {now : Instant} {ct ct' : Conntrack} (turn : ct.purgeTurn now = .done ct') :
    ct' = ct ∧ ∀ slot ∈ ct.expiryHeap.slots, now < slot.1 := by
  unfold purgeTurn at turn
  split at turn
  · next empty =>
    cases turn
    refine ⟨rfl, ?_⟩
    intro slot member
    exact absurd member (MinHeap.not_mem_of_peek empty slot)
  · next expires packet next =>
    split at turn
    · next late =>
      cases turn
      refine ⟨rfl, ?_⟩
      intro slot member
      exact lt_of_lt_of_le late (MinHeap.key_le_of_peek next member)
    · cases turn

/-- A turn pops a due slot, and one that it pushes back is not due. -/
theorem due_of_turn {now : Instant} {ct ct' : Conntrack} (turn : ct.purgeTurn now = .next ct') :
    ct.due now = ct'.due now + 1 := by
  obtain ⟨expires, packet, next, expired, rfl⟩ := purgeTurn_next turn
  have popped := MinHeap.count_pop next (· ≤ now)
  rw [if_pos (decide_eq_true expired)] at popped
  rw [due_settle, due, due, popped]

/-- The loop of `purge_expired`. A slot it pushes back is past `now`, so the due slots are worked off. -/
def purgeLoop (now : Instant) : Loop Conntrack Conntrack where
  body := purgeTurn now
  rank := due now
  descends {ct ct'} turn := by
    rw [due_of_turn turn]
    exact Nat.lt_succ_self _

def purgeExpired (ct : Conntrack) (now : Instant) : Conntrack := (purgeLoop now).run ct

theorem get_of_settle {ct : Conntrack} {now : Instant} {packet other : Packet} {entry : ConnEntry}
    (found : (ct.settle now other).conns.get packet = some entry) : ct.conns.get packet = some entry := by
  unfold settle at found
  split at found
  · split at found
    · exact (HashMap.of_get_remove found).2
    · exact found
  · exact found

/-- What settling a due slot preserves holds after a purge, and then no slot is due. -/
theorem purge_induction (now : Instant) {P : Conntrack → Prop} {ct : Conntrack} (start : P ct)
    (settled : ∀ mid expires packet, P mid → mid.expiryHeap.peek = some (expires, packet) → expires ≤ now →
      P ({ mid with expiryHeap := mid.expiryHeap.pop }.settle now packet)) :
    P (ct.purgeExpired now) ∧ ∀ slot ∈ (ct.purgeExpired now).expiryHeap.slots, now < slot.1 := by
  refine Loop.run_induction (purgeLoop now) (P := P)
    (Q := fun purged => P purged ∧ ∀ slot ∈ purged.expiryHeap.slots, now < slot.1) ?_ ?_ start
  · intro mid mid' held turn
    obtain ⟨expires, packet, next, expired, rfl⟩ := purgeTurn_next turn
    exact settled mid expires packet held next expired
  · intro mid mid' held turn
    obtain ⟨rfl, late⟩ := purgeTurn_done turn
    exact ⟨held, late⟩

/-- A purge drops flows and changes none. -/
theorem get_of_purge {now : Instant} {ct : Conntrack} {packet : Packet} {entry : ConnEntry}
    (found : (ct.purgeExpired now).conns.get packet = some entry) : ct.conns.get packet = some entry := by
  refine (purge_induction now
    (P := fun mid => mid.conns.get packet = some entry → ct.conns.get packet = some entry) id ?_).1 found
  intro mid expires other held next expired found
  have before := get_of_settle found
  exact held before

/-- The table after the purge, and the direction and version of the flow if it is still tracked. -/
def get (ct : Conntrack) (packet : Packet) (now : Instant) : Conntrack × Option (Bool × UInt16) :=
  let ct := ct.purgeExpired now
  (ct, (ct.conns.get packet).map fun entry => (entry.incoming, entry.rulesVersion))

/-- `record`; the sum that unwinds comes before every write. -/
def record (latest : Instant) (ct : Conntrack) (packet : Packet) (incoming : Bool) (rulesVersion : UInt16)
    (now : Instant) (timeout : Duration) : Exec Conntrack :=
  if latest < now + timeout then .error .overflow
  else
    let expires := now + timeout
    let isNew := !ct.conns.containsKey packet
    .ok {
      conns := ct.conns.insert packet { expires, incoming, rulesVersion }
      expiryHeap := if isNew then ct.expiryHeap.push expires packet else ct.expiryHeap }

/-- A record unwinds, or it writes the entry of its packet and nothing else. -/
theorem record_cases (latest : Instant) (ct : Conntrack) (packet : Packet) (incoming : Bool)
    (rulesVersion : UInt16) (now : Instant) (timeout : Duration) :
    (latest < now + timeout ∧ ct.record latest packet incoming rulesVersion now timeout = .error .overflow) ∨
      (now + timeout ≤ latest ∧ ∃ ct', ct.record latest packet incoming rulesVersion now timeout = .ok ct' ∧
        ct'.conns = ct.conns.insert packet ⟨now + timeout, incoming, rulesVersion⟩) := by
  unfold record
  split
  · next unwinds => exact .inl ⟨unwinds, rfl⟩
  · next fits => exact .inr ⟨Nat.not_lt.mp fits, _, rfl, rfl⟩

section Record

variable {latest : Instant} {ct ct' : Conntrack} {packet : Packet} {incoming : Bool} {rulesVersion : UInt16}
  {now : Instant} {timeout : Duration}

theorem conns_of_record (recorded : ct.record latest packet incoming rulesVersion now timeout = .ok ct') :
    ct'.conns = ct.conns.insert packet ⟨now + timeout, incoming, rulesVersion⟩ := by
  rcases record_cases latest ct packet incoming rulesVersion now timeout with
    ⟨-, unwound⟩ | ⟨-, after, done, same⟩
  · cases unwound.symm.trans recorded
  · obtain rfl := Except.ok.inj (done.symm.trans recorded)
    exact same

theorem fits_of_record (recorded : ct.record latest packet incoming rulesVersion now timeout = .ok ct') :
    now + timeout ≤ latest := by
  rcases record_cases latest ct packet incoming rulesVersion now timeout with ⟨-, unwound⟩ | ⟨fits, -⟩
  · cases unwound.symm.trans recorded
  · exact fits

end Record

def remove (ct : Conntrack) (packet : Packet) : Conntrack := { ct with conns := ct.conns.remove packet }

end Conntrack

end Nebula
