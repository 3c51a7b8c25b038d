import Nebula.Firewall.Firewall
import Nebula.Firewall.Rule.Builder
import Mathlib.Tactic.Common

/-! # Who let a flow in

A tracked flow is looked up by its 5-tuple alone. A packet therefore passes either because its peer owns
its remote address, or because the flow is still tracked; and a flow is tracked only since a call on
the same packet passed for a peer that owns the address.
-/

namespace Nebula

open Rust

/-! ## Which flows are tracked -/

namespace Conntrack

def Tracks (ct : Conntrack) (packet : Packet) : Prop := ∃ entry, ct.conns.get packet = some entry

theorem not_tracks_new (packet : Packet) : ¬ new.Tracks packet := by
  rintro ⟨entry, found⟩
  cases found

theorem tracks_of_purge (now : Instant) {ct : Conntrack} {packet : Packet}
    (tracked : (ct.purgeExpired now).Tracks packet) : ct.Tracks packet := by
  obtain ⟨entry, found⟩ := tracked
  exact ⟨entry, get_of_purge found⟩

/-- A flow recorded is tracked, and no other flow is that was not tracked before. -/
theorem tracks_of_record {latest : Instant} {ct ct' : Conntrack} {packet other : Packet} {incoming : Bool}
    {version : UInt16} {now : Instant} {timeout : Duration}
    (recorded : ct.record latest packet incoming version now timeout = .ok ct') (tracked : ct'.Tracks other) :
    other = packet ∨ ct.Tracks other := by
  unfold record at recorded
  split at recorded
  · cases recorded
  · cases recorded
    obtain ⟨entry, found⟩ := tracked
    rw [HashMap.get_insert] at found
    split at found
    · next same => exact .inl same
    · exact .inr ⟨entry, found⟩

end Conntrack

namespace Firewall

variable {contains : Contains} {latest : Instant} {snapshot : VersionedRules} {packet other : Packet}
  {incoming : Bool} {remote : PeerIdentity} {now : Instant} {fw : Firewall}

theorem tracks_of_passedOver {table table' : Conntrack}
    (passed : PassedOver contains snapshot packet remote table table') (tracked : table'.Tracks other) :
    table.Tracks other := by
  obtain ⟨entry, found⟩ := tracked
  exact ⟨entry, (passed.get contains found).2⟩

/-- A call that passes finds the flow tracked, or its peer owns the remote address. -/
theorem tracks_or_owns_of_ok
    (passed : (fw.evaluate contains latest now packet incoming remote).2 = .ok (.ok ())) :
    (fw.conntrack.value.purgeExpired now).Tracks packet ∨ remote.owns contains packet.remoteAddr = true := by
  have spec := evaluated_evaluate contains latest fw now packet incoming remote
  rw [passed] at spec
  generalize (fw.evaluate contains latest now packet incoming remote).1 = fw' at spec
  cases spec with
  | refreshed sound entry after found admitted recorded => exact .inl ⟨entry, found⟩
  | entered sound table after skipped checked recorded => exact .inr (owns_of_check contains checked)

/-- A call tracks no new flow but its own, and that one only if it passes for a peer that owns the address. -/
theorem tracks_of_evaluate
    (tracked : (fw.evaluate contains latest now packet incoming remote).1.conntrack.value.Tracks other) :
    fw.conntrack.value.Tracks other ∨
      (other = packet ∧ (fw.evaluate contains latest now packet incoming remote).2 = .ok (.ok ()) ∧
        remote.owns contains packet.remoteAddr = true) := by
  have spec := evaluated_evaluate contains latest fw now packet incoming remote
  generalize fw.evaluate contains latest now packet incoming remote = result at *
  obtain ⟨fw', answer⟩ := result
  cases spec with
  | poisoned => exact .inl tracked
  | refreshed sound entry after found admitted recorded =>
    left
    rcases Conntrack.tracks_of_record recorded tracked with rfl | before
    · exact Conntrack.tracks_of_purge now ⟨entry, found⟩
    · exact Conntrack.tracks_of_purge now before
  | refused sound table reason passed failed =>
    exact .inl (Conntrack.tracks_of_purge now (tracks_of_passedOver passed tracked))
  | entered sound table after passed checked recorded =>
    rcases Conntrack.tracks_of_record recorded tracked with rfl | before
    · exact .inr ⟨rfl, rfl, owns_of_check contains checked⟩
    · exact .inl (Conntrack.tracks_of_purge now (tracks_of_passedOver passed before))
  | unwound sound table unrepresentable passed =>
    left
    apply Conntrack.tracks_of_purge now
    rcases passed with rfl | passed
    · exact tracked
    · exact tracks_of_passedOver passed tracked

/-! ## Over whole runs -/

/-- An earlier call on the packet passed for a peer that owns the packet's remote address. -/
def OpenedByOwner (contains : Contains) (log : List (Call × Option (Exec (Except DropReason Unit))))
    (packet : Packet) :
    Prop :=
  ∃ now incoming remote, (.evaluate now packet incoming remote, some (.ok (.ok ()))) ∈ log ∧
    remote.owns contains packet.remoteAddr = true

/-- In every run, each tracked flow was opened by an owner of its remote address. -/
theorem tracked_openedByOwner (contains : Contains) (latest : Instant) (fw : Firewall)
    (fresh : fw.conntrack.value = .new) (calls : List Call) (packet : Packet)
    (tracked : ((system contains latest).exec fw calls).conntrack.value.Tracks packet) :
    OpenedByOwner contains ((system contains latest).log fw calls) packet := by
  refine (system contains latest).history_invariant (s := fw)
    (fun log state => ∀ packet, state.conntrack.value.Tracks packet → OpenedByOwner contains log packet)
    ?_ ?_ calls packet tracked
  · intro packet tracked
    rw [fresh] at tracked
    exact absurd tracked (Conntrack.not_tracks_new packet)
  · intro log state call held other tracked
    -- what was opened before stays in the longer log
    have kept (earlier : OpenedByOwner contains log other) :
        OpenedByOwner contains (log ++ [(call, ((system contains latest).step state call).2)]) other := by
      obtain ⟨now, incoming, remote, member, owned⟩ := earlier
      exact ⟨now, incoming, remote, List.mem_append_left _ member, owned⟩
    cases call with
    | reload rules => exact kept (held other tracked)
    | evaluate now packet incoming remote =>
      rcases tracks_of_evaluate tracked with before | ⟨rfl, passed, owned⟩
      · exact kept (held other before)
      · refine ⟨now, incoming, remote, List.mem_append_right _ ?_, owned⟩
        rw [List.mem_singleton, Prod.mk.injEq]
        exact ⟨rfl, (congrArg some passed).symm⟩

/-- A packet passes only for a peer that owns its remote address, or on a flow that is still tracked and
that an earlier call on the same packet opened for such a peer. -/
theorem evaluate_ok_owned_or_opened (contains : Contains) (latest : Instant) (rules : RuleSet)
    (options : FirewallOptions) (assigned unsafeNets : List IpNet) (calls : List Call) (now : Instant)
    (packet : Packet) (incoming : Bool) (remote : PeerIdentity)
    (passed : (((system contains latest).exec (.new rules options assigned unsafeNets) calls).evaluate
      contains latest now packet incoming remote).2 = .ok (.ok ())) :
    remote.owns contains packet.remoteAddr = true ∨
      ((((system contains latest).exec
        (.new rules options assigned unsafeNets) calls).conntrack.value.purgeExpired
          now).Tracks packet ∧
        OpenedByOwner contains
          ((system contains latest).log (.new rules options assigned unsafeNets) calls) packet) := by
  rcases tracks_or_owns_of_ok passed with tracked | owned
  · exact .inr ⟨tracked, tracked_openedByOwner contains latest _ rfl calls packet
      (Conntrack.tracks_of_purge now tracked)⟩
  · exact .inl owned

/-! ## A peer on another peer's flow -/

/-- The one rule `inbound any any`, open to every peer. -/
def inboundAny : RuleSet :=
  ((RuleSetBuilder.new [] false false).addRules
    [{ incoming := true, proto := .any, port := .any, groups := ["any"], host := none, cidr := none,
       localCidr := .unset, caName := none, caSha := none }]).build

/-- A ruleset that matches nothing. -/
def closed : RuleSet := (RuleSetBuilder.new [] false false).build

def sharedFlow : Packet where
  localAddr := .v4 ⟨[10, 0, 0, 1], rfl⟩
  remoteAddr := .v4 ⟨[10, 0, 0, 2], rfl⟩
  localPort := 80
  remotePort := 4000
  protocol := .udp
  fragment := false

def owner : PeerIdentity := ⟨"owner", [], "ca", "sha", [.host (.v4 ⟨[10, 0, 0, 2], rfl⟩)], []⟩

def stranger : PeerIdentity := ⟨"stranger", [], "ca", "sha", [.host (.v4 ⟨[10, 0, 0, 3], rfl⟩)], []⟩

def firewall : Firewall := new inboundAny ⟨10, 10, 10⟩ [.host (.v4 ⟨[10, 0, 0, 1], rfl⟩)] []

/-- The owner's packet is let through, and then the stranger's with the owner's address. -/
theorem stranger_passes_on_tracked_flow :
    stranger.owns prefixContains sharedFlow.remoteAddr = false ∧
      (((system prefixContains 1000).exec firewall [.evaluate 0 sharedFlow true owner]).evaluate
        prefixContains 1000 1 sharedFlow true stranger).2 = .ok (.ok ()) := by
  decide +kernel

/-- The stranger's packet of the same run rests on the owner's. -/
theorem stranger_rests_on_owner :
    (((system prefixContains 1000).exec firewall [.evaluate 0 sharedFlow true owner]).evaluate
        prefixContains 1000 1 sharedFlow true stranger).2 = .ok (.ok ()) ∧
      OpenedByOwner prefixContains
        ((system prefixContains 1000).log firewall [.evaluate 0 sharedFlow true owner])
        sharedFlow := by
  have passed : (((system prefixContains 1000).exec firewall [.evaluate 0 sharedFlow true owner]).evaluate
      prefixContains 1000 1 sharedFlow true stranger).2 = .ok (.ok ()) := by decide +kernel
  refine ⟨passed, ?_⟩
  rcases evaluate_ok_owned_or_opened prefixContains 1000 inboundAny ⟨10, 10, 10⟩ _ [] _ 1 sharedFlow true
    stranger
    passed with owned | ⟨-, opened⟩
  · exact absurd owned (by decide)
  · exact opened

end Firewall

end Nebula
