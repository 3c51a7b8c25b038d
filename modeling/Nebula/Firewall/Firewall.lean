import Nebula.Firewall.Conntrack
import Nebula.Firewall.Rule.Tree
import Nebula.Machine.Run
import Nebula.Rust.Mutex
import Mathlib.Tactic.SplitIfs

/-! # The firewall

`Firewall::evaluate` in the three steps that take a lock of their own: the snapshot of the ruleset, the
lookup in the table of tracked flows, and the final entry of a flow that passed every check. `reload`
swaps the ruleset and leaves the tracked flows alone. A call either answers or unwinds, and what it
has written before it unwinds stays written.
-/

namespace Nebula

open Rust

/-- The timeouts of `FirewallOptions`; its other fields are read by the callers of the firewall only. -/
structure FirewallOptions where
  tcpTimeout : Duration
  udpTimeout : Duration
  defaultTimeout : Duration

inductive DropReason where
  | invalidLocalIp
  | invalidRemoteIp
  | noMatchingRule
deriving DecidableEq, Repr

structure VersionedRules where
  version : UInt16
  rules : RuleSet

structure Firewall where
  rules : VersionedRules
  conntrack : Mutex Conntrack
  options : FirewallOptions
  routableNetworks : List IpNet

namespace Firewall

/-- The assigned networks become host routes, the unsafe ones keep their prefix. -/
def new (rules : RuleSet) (options : FirewallOptions) (assignedNetworks unsafeNetworks : List IpNet) :
    Firewall where
  rules := { version := 0, rules }
  conntrack := { value := .new }
  options
  routableNetworks := assignedNetworks.map (fun net => .host net.addr) ++ unsafeNetworks

/-- `reload`; `UInt16` addition wraps as `wrapping_add` does. -/
def reload (fw : Firewall) (rules : RuleSet) : Firewall :=
  { fw with rules := { version := fw.rules.version + 1, rules } }

def timeoutFor (options : FirewallOptions) : Protocol → Duration
  | .tcp => options.tcpTimeout
  | .udp => options.udpTimeout
  | _ => options.defaultTimeout

section Evaluate

variable (contains : Contains) (latest : Instant)

/-- Enter a flow that passed, in a section that unwinds if its expiry cannot be represented. -/
def recordFlow (options : FirewallOptions) (packet : Packet) (incoming : Bool) (version : UInt16)
    (now : Instant) (ct : Conntrack) : Conntrack × Exec Unit :=
  match ct.record latest packet incoming version now (timeoutFor options packet.protocol) with
  | .ok ct => (ct, .ok ())
  | .error cause => (ct, .error cause)

/-- The lookup block: whether the packet belongs to a tracked flow that the snapshot still admits. -/
def lookup (options : FirewallOptions) (snapshot : VersionedRules) (packet : Packet) (remote : PeerIdentity)
    (now : Instant) (ct : Conntrack) : Conntrack × Exec Bool :=
  match ct.get packet now with
  | (ct, some (connIncoming, connVersion)) =>
    let refresh := recordFlow latest options packet connIncoming snapshot.version now ct
    if connVersion = snapshot.version then (refresh.1, refresh.2.map fun _ => true)
    else if snapshot.rules.matches contains packet connIncoming remote then
      (refresh.1, refresh.2.map fun _ => true)
    else (ct.remove packet, .ok false)
  | (ct, none) => (ct, .ok false)

/-- What the lookup block finds and does: no flow, a flow it refreshes, or a flow it evicts. -/
theorem lookup_cases (options : FirewallOptions) (snapshot : VersionedRules) (packet : Packet)
    (remote : PeerIdentity) (now : Instant) (ct : Conntrack) :
    ((ct.purgeExpired now).conns.get packet = none ∧
        lookup contains latest options snapshot packet remote now ct = (ct.purgeExpired now, .ok false)) ∨
      ∃ entry, (ct.purgeExpired now).conns.get packet = some entry ∧
        (((entry.rulesVersion = snapshot.version ∨
          snapshot.rules.matches contains packet entry.incoming remote = true) ∧
            lookup contains latest options snapshot packet remote now ct =
              ((recordFlow latest options packet entry.incoming snapshot.version now (ct.purgeExpired now)).1,
                (recordFlow latest options packet entry.incoming snapshot.version now
                  (ct.purgeExpired now)).2.map fun _ => true)) ∨
          (entry.rulesVersion ≠ snapshot.version ∧
            snapshot.rules.matches contains packet entry.incoming remote = false ∧
            lookup contains latest options snapshot packet remote now ct =
              ((ct.purgeExpired now).remove packet, .ok false))) := by
  unfold lookup Conntrack.get
  rcases found : (ct.purgeExpired now).conns.get packet with _ | entry
  · exact .inl ⟨rfl, by simp [found]⟩
  · refine .inr ⟨entry, rfl, ?_⟩
    simp only [found, Option.map_some]
    split_ifs with current admitted
    · exact .inl ⟨.inl current, rfl⟩
    · exact .inl ⟨.inr admitted, rfl⟩
    · exact .inr ⟨current, by simpa using admitted, rfl⟩

/-- The three checks of a packet that no tracked flow carries. -/
def check (routableNetworks : List IpNet) (rules : RuleSet) (packet : Packet) (incoming : Bool)
    (remote : PeerIdentity) : Except DropReason Unit :=
  if ¬ remote.owns contains packet.remoteAddr then .error .invalidRemoteIp
  else if ¬ routableNetworks.any (contains · packet.localAddr) then .error .invalidLocalIp
  else if ¬ rules.matches contains packet incoming remote then .error .noMatchingRule
  else .ok ()

theorem owns_of_check {routableNetworks : List IpNet} {rules : RuleSet} {packet : Packet} {incoming : Bool}
    {remote : PeerIdentity} (passed : check contains routableNetworks rules packet incoming remote = .ok ()) :
    remote.owns contains packet.remoteAddr = true := by
  unfold check at passed
  split at passed
  · cases passed
  · next owned => exact not_not.mp owned

theorem matches_of_check {routableNetworks : List IpNet} {rules : RuleSet} {packet : Packet} {incoming : Bool}
    {remote : PeerIdentity} (passed : check contains routableNetworks rules packet incoming remote = .ok ()) :
    rules.matches contains packet incoming remote = true := by
  unfold check at passed
  split_ifs at passed with foreign unreachable matched
  exact matched

/-- `evaluate` at the time `now` that it reads from the clock. -/
def evaluate (fw : Firewall) (now : Instant) (packet : Packet) (incoming : Bool) (remote : PeerIdentity) :
    Firewall × Exec (Except DropReason Unit) :=
  let snapshot := fw.rules
  match fw.conntrack.locked (lookup contains latest fw.options snapshot packet remote now) with
  | (conntrack, .error cause) => ({ fw with conntrack }, .error cause)
  | (conntrack, .ok true) => ({ fw with conntrack }, .ok (.ok ()))
  | (conntrack, .ok false) =>
    match check contains fw.routableNetworks snapshot.rules packet incoming remote with
    | .error reason => ({ fw with conntrack }, .ok (.error reason))
    | .ok () =>
      match conntrack.locked (recordFlow latest fw.options packet incoming snapshot.version now) with
      | (conntrack, .ok ()) => ({ fw with conntrack }, .ok (.ok ()))
      | (conntrack, .error cause) => ({ fw with conntrack }, .error cause)

/-- The table that the lookup block hands on to the checks: the purged one, less the flow if the snapshot
no longer admits it. -/
inductive PassedOver (snapshot : VersionedRules) (packet : Packet) (remote : PeerIdentity) (table : Conntrack) :
    Conntrack → Prop
  | untracked (absent : table.conns.get packet = none) :
    PassedOver snapshot packet remote table table
  | evicted (entry : ConnEntry) (found : table.conns.get packet = some entry)
    (stale : entry.rulesVersion ≠ snapshot.version)
    (unmatched : snapshot.rules.matches contains packet entry.incoming remote = false) :
    PassedOver snapshot packet remote table (table.remove packet)

theorem PassedOver.get {snapshot : VersionedRules} {packet other : Packet} {remote : PeerIdentity}
    {table table' : Conntrack} {entry : ConnEntry}
    (passed : PassedOver contains snapshot packet remote table table')
    (found : table'.conns.get other = some entry) : other ≠ packet ∧ table.conns.get other = some entry := by
  cases passed with
  | untracked absent =>
    refine ⟨?_, found⟩
    rintro rfl
    cases absent.symm.trans found
  | evicted => exact HashMap.of_get_remove found

/-- All that a call of `evaluate` can do and answer. -/
inductive Evaluated (fw : Firewall) (now : Instant) (packet : Packet) (incoming : Bool) (remote : PeerIdentity) :
    Firewall → Exec (Except DropReason Unit) → Prop
  | poisoned (broken : fw.conntrack.poisoned = true) :
    Evaluated fw now packet incoming remote fw (.error .poisoned)
  | refreshed (sound : fw.conntrack.poisoned = false) (entry : ConnEntry) (after : Conntrack)
    (found : (fw.conntrack.value.purgeExpired now).conns.get packet = some entry)
    (admitted : entry.rulesVersion = fw.rules.version ∨
      fw.rules.rules.matches contains packet entry.incoming remote = true)
    (recorded : (fw.conntrack.value.purgeExpired now).record latest packet entry.incoming fw.rules.version now
      (timeoutFor fw.options packet.protocol) = .ok after) :
    Evaluated fw now packet incoming remote { fw with conntrack := { value := after } } (.ok (.ok ()))
  | refused (sound : fw.conntrack.poisoned = false) (table : Conntrack) (reason : DropReason)
    (passed : PassedOver contains fw.rules packet remote (fw.conntrack.value.purgeExpired now) table)
    (failed : check contains fw.routableNetworks fw.rules.rules packet incoming remote = .error reason) :
    Evaluated fw now packet incoming remote { fw with conntrack := { value := table } } (.ok (.error reason))
  | entered (sound : fw.conntrack.poisoned = false) (table after : Conntrack)
    (passed : PassedOver contains fw.rules packet remote (fw.conntrack.value.purgeExpired now) table)
    (checked : check contains fw.routableNetworks fw.rules.rules packet incoming remote = .ok ())
    (recorded : table.record latest packet incoming fw.rules.version now
      (timeoutFor fw.options packet.protocol) = .ok after) :
    Evaluated fw now packet incoming remote { fw with conntrack := { value := after } } (.ok (.ok ()))
  | unwound (sound : fw.conntrack.poisoned = false) (table : Conntrack)
    (unrepresentable : latest < now + timeoutFor fw.options packet.protocol)
    (passed : table = fw.conntrack.value.purgeExpired now ∨
      PassedOver contains fw.rules packet remote (fw.conntrack.value.purgeExpired now) table) :
    Evaluated fw now packet incoming remote { fw with conntrack := { value := table, poisoned := true } }
      (.error .overflow)

/-- A section that records a flow, under a sound lock. -/
theorem locked_record {mutex : Mutex Conntrack} (sound : mutex.poisoned = false) (options : FirewallOptions)
    (packet : Packet) (incoming : Bool) (version : UInt16) (now : Instant) :
    (latest < now + timeoutFor options packet.protocol ∧
        mutex.locked (recordFlow latest options packet incoming version now) =
          ({ value := mutex.value, poisoned := true }, .error .overflow)) ∨
      ∃ after, mutex.value.record latest packet incoming version now
          (timeoutFor options packet.protocol) = .ok after ∧
        mutex.locked (recordFlow latest options packet incoming version now) = ({ value := after }, .ok ()) := by
  rcases Conntrack.record_cases latest mutex.value packet incoming version now
    (timeoutFor options packet.protocol) with ⟨unwinds, failed⟩ | ⟨-, after, recorded, -⟩
  · exact .inl ⟨unwinds, Mutex.locked_of_error sound (by rw [recordFlow, failed])⟩
  · exact .inr ⟨after, recorded, Mutex.locked_of_ok sound (by rw [recordFlow, recorded])⟩

/-- What the lookup block does under a sound lock. -/
theorem locked_lookup {mutex : Mutex Conntrack} (sound : mutex.poisoned = false) (options : FirewallOptions)
    (snapshot : VersionedRules) (packet : Packet) (remote : PeerIdentity) (now : Instant) :
    (∃ table, PassedOver contains snapshot packet remote (mutex.value.purgeExpired now) table ∧
        mutex.locked (lookup contains latest options snapshot packet remote now) =
          ({ value := table }, .ok false)) ∨
      ∃ entry, (mutex.value.purgeExpired now).conns.get packet = some entry ∧
        (entry.rulesVersion = snapshot.version ∨
          snapshot.rules.matches contains packet entry.incoming remote = true) ∧
        ((latest < now + timeoutFor options packet.protocol ∧
            mutex.locked (lookup contains latest options snapshot packet remote now) =
              ({ value := mutex.value.purgeExpired now, poisoned := true }, .error .overflow)) ∨
          ∃ after, (mutex.value.purgeExpired now).record latest packet entry.incoming snapshot.version now
              (timeoutFor options packet.protocol) = .ok after ∧
            mutex.locked (lookup contains latest options snapshot packet remote now) =
              ({ value := after }, .ok true)) := by
  rcases lookup_cases contains latest options snapshot packet remote now mutex.value with
    ⟨absent, same⟩ | ⟨entry, found, ⟨admitted, same⟩ | ⟨stale, unmatched, same⟩⟩
  · exact .inl ⟨_, .untracked absent, Mutex.locked_of_ok sound same⟩
  · refine .inr ⟨entry, found, admitted, ?_⟩
    rcases Conntrack.record_cases latest (mutex.value.purgeExpired now) packet entry.incoming snapshot.version
      now (timeoutFor options packet.protocol) with ⟨unwinds, failed⟩ | ⟨-, after, recorded, -⟩
    · rw [recordFlow, failed] at same
      exact .inl ⟨unwinds, Mutex.locked_of_error sound same⟩
    · rw [recordFlow, recorded] at same
      exact .inr ⟨after, recorded, Mutex.locked_of_ok sound same⟩
  · exact .inl ⟨_, .evicted entry found stale unmatched, Mutex.locked_of_ok sound same⟩

theorem evaluated_evaluate (fw : Firewall) (now : Instant) (packet : Packet) (incoming : Bool)
    (remote : PeerIdentity) :
    Evaluated contains latest fw now packet incoming remote
      (fw.evaluate contains latest now packet incoming remote).1
      (fw.evaluate contains latest now packet incoming remote).2 := by
  unfold evaluate
  dsimp only
  cases sound : fw.conntrack.poisoned with
  | true =>
    rw [Mutex.locked_of_poisoned sound]
    exact .poisoned sound
  | false =>
    rcases locked_lookup contains latest sound fw.options fw.rules packet remote now with
      ⟨table, passed, same⟩ | ⟨entry, found, admitted, ⟨unwinds, same⟩ | ⟨after, recorded, same⟩⟩ <;>
      rw [same]
    · rcases checked : check contains fw.routableNetworks fw.rules.rules packet incoming remote with reason | _
      · exact .refused sound table reason passed checked
      · dsimp only
        rcases @locked_record latest { value := table } rfl fw.options packet incoming fw.rules.version now with
          ⟨unwinds, same⟩ | ⟨after, recorded, same⟩ <;> rw [same]
        · exact .unwound sound table unwinds (.inr passed)
        · exact .entered sound table after passed checked recorded
    · exact .unwound sound _ unwinds (.inl rfl)
    · exact .refreshed sound entry after found admitted recorded

/-- A call touches nothing but the table. -/
theorem Evaluated.frame {fw fw' : Firewall} {now : Instant} {packet : Packet} {incoming : Bool}
    {remote : PeerIdentity} {answer : Exec (Except DropReason Unit)}
    (evaluated : Evaluated contains latest fw now packet incoming remote fw' answer) :
    fw'.rules = fw.rules ∧ fw'.options = fw.options := by
  cases evaluated with
  | poisoned | refreshed | refused | entered | unwound => exact ⟨rfl, rfl⟩

/-- The calls a firewall receives, each `evaluate` with the time it reads. -/
inductive Call where
  | evaluate (now : Instant) (packet : Packet) (incoming : Bool) (remote : PeerIdentity)
  | reload (rules : RuleSet)

/-- A firewall that answers calls one after another; `reload` answers nothing. -/
def system : Machine.System Firewall Call (Option (Exec (Except DropReason Unit))) where
  step fw
    | .evaluate now packet incoming remote =>
      let (fw, answer) := fw.evaluate contains latest now packet incoming remote
      (fw, some answer)
    | .reload rules => (fw.reload rules, none)

end Evaluate

end Firewall

end Nebula
