import Nebula.Firewall.Ownership
import Nebula.Firewall.TimedFlows

/-! # What a firewall admits without a reload

A packet passes for what it is, if the three checks pass, or for what passed before it: an earlier
call on the same packet whose timeout is not over. Every call that passes, in either direction and on
either ground, starts the timeout anew; a call that is refused changes nothing.
-/

namespace Nebula

open Rust Machine

namespace Firewall

/-- The time a call reads, which a reload does not. -/
def Call.time : Call → Option Instant
  | .evaluate now _ _ _ => some now
  | .reload _ => none

/-- The flow the call would enter or refresh ends at an instant the clock can represent. -/
def Call.Representable (latest : Instant) (options : FirewallOptions) : Call → Prop
  | .evaluate now packet _ _ => now + timeoutFor options packet.protocol ≤ latest
  | .reload _ => True

/-- An earlier call on the packet passed, and its timeout is not over at `now`. -/
def AdmittedBefore (options : FirewallOptions) (log : List (Call × Option (Exec (Except DropReason Unit))))
    (packet : Packet) (now : Instant) : Prop :=
  ∃ earlier incoming remote, (.evaluate earlier packet incoming remote, some (.ok (.ok ()))) ∈ log ∧
    now < earlier + timeoutFor options packet.protocol

/-- The address is one of the firewall's own, or lies in an unsafe network. -/
def LocallyRoutable (contains : Contains) (assignedNetworks unsafeNetworks : List IpNet) (addr : IpAddr) :
    Prop :=
  (∃ net ∈ assignedNetworks, net.addr = addr) ∨ ∃ net ∈ unsafeNetworks, contains net addr = true

section Step

variable {contains : Contains} {latest : Instant} {options : FirewallOptions} {packet other : Packet}
  {incoming : Bool} {remote : PeerIdentity} {clock now : Instant} {fw : Firewall}
  {log : List (Call × Option (Exec (Except DropReason Unit)))}

/-- What a run without a reload keeps: a sound lock, one version, and a table whose unexpired flows are
those that a call admitted. -/
structure Admits (rules : RuleSet) (options : FirewallOptions) (routable : List IpNet) (clock : Instant)
    (log : List (Call × Option (Exec (Except DropReason Unit)))) (fw : Firewall) : Prop where
  sound : fw.conntrack.poisoned = false
  rules_eq : fw.rules = ⟨0, rules⟩
  options_eq : fw.options = options
  routable_eq : fw.routableNetworks = routable
  scheduled : fw.conntrack.value.Scheduled (fun packet => timeoutFor options packet.protocol) clock
  current : ∀ packet entry, fw.conntrack.value.conns.get packet = some entry → entry.rulesVersion = 0
  admitted : ∀ packet now, clock ≤ now →
    ((∃ entry, fw.conntrack.value.unexpired now packet = some entry) ↔ AdmittedBefore options log packet now)

theorem admittedBefore_concat {call : Call} {answer : Option (Exec (Except DropReason Unit))} :
    AdmittedBefore options (log ++ [(call, answer)]) packet now ↔
      AdmittedBefore options log packet now ∨
        ∃ earlier incoming remote, call = .evaluate earlier packet incoming remote ∧
          answer = some (.ok (.ok ())) ∧ now < earlier + timeoutFor options packet.protocol := by
  unfold AdmittedBefore
  simp only [List.mem_append, List.mem_singleton, Prod.mk.injEq]
  constructor
  · rintro ⟨earlier, incoming, remote, member | ⟨rfl, rfl⟩, live⟩
    · exact .inl ⟨earlier, incoming, remote, member, live⟩
    · exact .inr ⟨earlier, incoming, remote, rfl, rfl, live⟩
  · rintro (⟨earlier, incoming, remote, member, live⟩ | ⟨earlier, incoming, remote, rfl, rfl, live⟩)
    · exact ⟨earlier, incoming, remote, .inl member, live⟩
    · exact ⟨earlier, incoming, remote, .inr ⟨rfl, rfl⟩, live⟩

/-- What an earlier call admitted ends no later than what a call at the clock admits. -/
theorem Admits.le_current {rules : RuleSet} {routable : List IpNet}
    (held : Admits rules options routable now log fw) {later : Instant} (passed : now ≤ later)
    (before : AdmittedBefore options log packet later) :
    later < now + timeoutFor options packet.protocol := by
  obtain ⟨entry, live⟩ := (held.admitted packet later passed).mpr before
  obtain ⟨found, unexpired⟩ := Option.filter_eq_some_iff.mp live
  exact lt_of_lt_of_le (of_decide_eq_true unexpired) (held.scheduled packet entry found).1

theorem Admits.later {rules : RuleSet} {routable : List IpNet} (held : Admits rules options routable clock log fw)
    (passed : clock ≤ now) : Admits rules options routable now log fw :=
  { held with
    scheduled := held.scheduled.later passed
    admitted := fun packet after bound => held.admitted packet after (le_trans passed bound) }

/-- A purge alone, and a call that does not pass, admit nothing new. -/
theorem Admits.purged {rules : RuleSet} {routable : List IpNet} (held : Admits rules options routable now log fw)
    {call : Call} {answer : Option (Exec (Except DropReason Unit))} (refused : answer ≠ some (.ok (.ok ()))) :
    Admits rules options routable now (log ++ [(call, answer)])
      { fw with conntrack := { value := fw.conntrack.value.purgeExpired now } } :=
  { held with
    sound := rfl
    scheduled := (Conntrack.purgeExpired_spec held.scheduled now).1
    current := by
      intro packet entry found
      rw [(Conntrack.purgeExpired_spec held.scheduled now).2] at found
      exact held.current packet entry (Option.filter_eq_some_iff.mp found).1
    admitted := by
      intro packet later passed
      dsimp only
      rw [Conntrack.unexpired_purgeExpired held.scheduled passed, held.admitted packet later passed,
        admittedBefore_concat]
      constructor
      · exact .inl
      · rintro (before | ⟨_, _, _, _, rfl, _⟩)
        · exact before
        · exact absurd rfl refused }

/-- A call that passes enters or refreshes its flow, and that lasts from then on. -/
theorem Admits.recorded {rules : RuleSet} {routable : List IpNet}
    (held : Admits rules options routable now log fw) {direction : Bool} {after : Conntrack}
    (recorded : (fw.conntrack.value.purgeExpired now).record latest packet direction fw.rules.version now
      (timeoutFor fw.options packet.protocol) = .ok after) (incoming : Bool) (remote : PeerIdentity) :
    Admits rules options routable now
      (log ++ [(.evaluate now packet incoming remote, some (.ok (.ok ())))])
      { fw with conntrack := { value := after } } := by
  have purged := Conntrack.purgeExpired_spec held.scheduled now
  rw [held.options_eq] at recorded
  have conns := Conntrack.conns_of_record recorded
  refine { held with sound := rfl, scheduled := ?_, current := ?_, admitted := ?_ }
  · exact Conntrack.scheduled_record purged.1 recorded
  · intro other entry found
    dsimp only at found
    rw [conns, HashMap.get_insert] at found
    split at found
    · cases found
      rw [held.rules_eq]
    · rw [purged.2] at found
      exact held.current other entry (Option.filter_eq_some_iff.mp found).1
  · intro other later passed
    dsimp only
    rw [admittedBefore_concat, Conntrack.unexpired, conns, HashMap.get_insert]
    split
    · next same =>
      subst same
      constructor
      · rintro ⟨entry, live⟩
        obtain ⟨⟨⟩, unexpired⟩ := Option.filter_eq_some_iff.mp live
        exact .inr ⟨now, incoming, remote, rfl, rfl, of_decide_eq_true unexpired⟩
      · intro admitted
        have live : later < now + timeoutFor options other.protocol := by
          rcases admitted with before | ⟨_, _, _, ⟨⟩, _, live⟩
          · exact held.le_current passed before
          · exact live
        exact ⟨_, Option.filter_some_pos (decide_eq_true live)⟩
    · next distinct =>
      have kept := Conntrack.unexpired_purgeExpired held.scheduled passed other
      rw [Conntrack.unexpired] at kept
      rw [kept, held.admitted other later passed]
      constructor
      · exact .inl
      · rintro (before | ⟨_, _, _, ⟨⟩, _, _⟩)
        · exact before
        · exact absurd rfl distinct

/-- Every flow carries the one version there is, so the lookup block evicts nothing. -/
theorem Admits.passedOver {rules : RuleSet} {routable : List IpNet}
    (held : Admits rules options routable now log fw) {table : Conntrack}
    (passed : PassedOver contains fw.rules packet remote (fw.conntrack.value.purgeExpired now) table) :
    table = fw.conntrack.value.purgeExpired now ∧ ¬ AdmittedBefore options log packet now := by
  have purged := (Conntrack.purgeExpired_spec held.scheduled now).2 packet
  cases passed with
  | untracked absent =>
    refine ⟨rfl, ?_⟩
    intro before
    obtain ⟨entry, live⟩ := (held.admitted packet now (le_refl now)).mpr before
    cases (absent.symm.trans purged).trans live
  | evicted entry found stale =>
    rw [purged] at found
    rw [held.rules_eq] at stale
    exact absurd (held.current packet entry (Option.filter_eq_some_iff.mp found).1) stale

/-- One call: it passes if an earlier call admitted the packet, and else answers what the checks say. -/
theorem Admits.evaluate (contains : Contains) {rules : RuleSet} {routable : List IpNet}
    (held : Admits rules options routable now log fw)
    (fits : now + timeoutFor options packet.protocol ≤ latest) (incoming : Bool) (remote : PeerIdentity) :
    Admits rules options routable now
        (log ++ [(.evaluate now packet incoming remote,
          some (fw.evaluate contains latest now packet incoming remote).2)])
        (fw.evaluate contains latest now packet incoming remote).1 ∧
      (AdmittedBefore options log packet now →
        (fw.evaluate contains latest now packet incoming remote).2 = .ok (.ok ())) ∧
      (¬ AdmittedBefore options log packet now →
        (fw.evaluate contains latest now packet incoming remote).2 =
          .ok (check contains routable rules packet incoming remote)) := by
  have spec := evaluated_evaluate contains latest fw now packet incoming remote
  generalize fw.evaluate contains latest now packet incoming remote = result at *
  obtain ⟨fw', answer⟩ := result
  have checks : check contains fw.routableNetworks fw.rules.rules packet incoming remote =
      check contains routable rules packet incoming remote := by rw [held.routable_eq, held.rules_eq]
  cases spec with
  | poisoned broken => cases held.sound.symm.trans broken
  | unwound sound table unrepresentable =>
    rw [held.options_eq] at unrepresentable
    exact absurd fits (not_le.mpr unrepresentable)
  | refreshed sound entry after found admitted recorded =>
    rw [(Conntrack.purgeExpired_spec held.scheduled now).2] at found
    have before := (held.admitted packet now (le_refl now)).mp ⟨entry, found⟩
    exact ⟨held.recorded recorded incoming remote, fun _ => rfl, fun new => absurd before new⟩
  | refused sound table reason skipped failed =>
    obtain ⟨rfl, new⟩ := held.passedOver skipped
    refine ⟨held.purged (by rintro ⟨⟩), fun before => absurd before new, fun _ => ?_⟩
    rw [← checks, failed]
  | entered sound table after skipped checked recorded =>
    obtain ⟨rfl, new⟩ := held.passedOver skipped
    refine ⟨held.recorded recorded incoming remote, fun _ => rfl, fun _ => ?_⟩
    rw [← checks, checked]

end Step

theorem admits_run (contains : Contains) (latest : Instant) (rules : RuleSet) (options : FirewallOptions)
    (assigned unsafeNets : List IpNet) {calls : List Call} (noReload : ∀ rules, .reload rules ∉ calls)
    (fits : ∀ call ∈ calls, call.Representable latest options) (ordered : Chronological Call.time calls)
    {clock : Instant} (seen : ∀ call ∈ calls, ∀ t ∈ call.time, t ≤ clock) :
    Admits rules options (new rules options assigned unsafeNets).routableNetworks clock
      ((system contains latest).log (new rules options assigned unsafeNets) calls)
      ((system contains latest).exec (new rules options assigned unsafeNets) calls) := by
  refine Chronological.induction (P := fun clock calls => (∀ rules, .reload rules ∉ calls) →
    (∀ call ∈ calls, call.Representable latest options) →
    Admits rules options (new rules options assigned unsafeNets).routableNetworks clock
      ((system contains latest).log (new rules options assigned unsafeNets) calls)
      ((system contains latest).exec (new rules options assigned unsafeNets) calls))
    ?_ ?_ ?_ ordered seen noReload fits
  · intro clock _ _
    refine ⟨rfl, rfl, rfl, rfl, Conntrack.scheduled_new _ clock, ?_, ?_⟩
    · rintro packet entry ⟨⟩
    · intro packet now _
      constructor
      · rintro ⟨entry, ⟨⟩⟩
      · rintro ⟨earlier, incoming, remote, member, -⟩
        cases member
  · intro clock now calls passed held noReload fits
    exact (held noReload fits).later passed
  · intro clock calls call current held noReload fits
    simp only [List.mem_append, List.mem_singleton, not_or] at noReload fits
    have before := held (fun rules => (noReload rules).1) (fun call member => fits call (.inl member))
    rw [System.log_concat, System.exec_concat]
    cases call with
    | reload rules => exact absurd rfl (noReload rules).2
    | evaluate now packet incoming remote =>
      obtain rfl := current now rfl
      exact (before.evaluate contains (fits _ (.inr rfl)) incoming remote).1

/-- The order of the three checks, with the local address compared as `new` arranges it. -/
theorem check_spec {contains : Contains} (exact : ∀ addr other, contains (.host addr) other = true ↔ addr = other)
    (rules : RuleSet) (options : FirewallOptions) (assigned unsafeNets : List IpNet) (packet : Packet)
    (incoming : Bool) (remote : PeerIdentity) :
    let answer := check contains (new rules options assigned unsafeNets).routableNetworks rules packet incoming
      remote
    (answer = .ok () ↔ remote.owns contains packet.remoteAddr = true ∧
        LocallyRoutable contains assigned unsafeNets packet.localAddr ∧
        rules.matches contains packet incoming remote = true) ∧
      (remote.owns contains packet.remoteAddr = false → answer = .error .invalidRemoteIp) ∧
      (remote.owns contains packet.remoteAddr = true →
        ¬ LocallyRoutable contains assigned unsafeNets packet.localAddr → answer = .error .invalidLocalIp) ∧
      (remote.owns contains packet.remoteAddr = true →
        LocallyRoutable contains assigned unsafeNets packet.localAddr →
        rules.matches contains packet incoming remote = false → answer = .error .noMatchingRule) := by
  have routable : (new rules options assigned unsafeNets).routableNetworks.any
      (contains · packet.localAddr) = true ↔ LocallyRoutable contains assigned unsafeNets packet.localAddr := by
    simp [new, LocallyRoutable, exact]
  simp only [check, ← routable]
  refine ⟨?_, ?_, ?_, ?_⟩
  · split_ifs with owned reachable matched <;> simp_all
  · intro foreign
    rw [if_pos (by simp [foreign])]
  · intro owned unreachable
    rw [if_neg (not_not.mpr owned), if_pos unreachable]
  · intro owned reachable unmatched
    rw [if_neg (not_not.mpr owned), if_neg (not_not.mpr reachable), if_pos (by simp [unmatched])]

/-- Without a reload a call passes exactly if the three checks pass or an earlier call on the same packet
passed less than its timeout ago; otherwise it names the first check that fails. -/
theorem evaluate_ok_iff_checks_or_admittedBefore (contains : Contains)
    (exact : ∀ addr other, contains (.host addr) other = true ↔ addr = other) (latest : Instant)
    (rules : RuleSet) (options : FirewallOptions) (assigned unsafeNets : List IpNet) (calls : List Call)
    (now : Instant) (packet : Packet) (incoming : Bool) (remote : PeerIdentity)
    (noReload : ∀ rules, .reload rules ∉ calls)
    (ordered : Chronological Call.time (calls ++ [.evaluate now packet incoming remote]))
    (fits : ∀ call ∈ calls ++ [.evaluate now packet incoming remote], call.Representable latest options) :
    let fw := new rules options assigned unsafeNets
    let log := (system contains latest).log fw calls
    let answer := (((system contains latest).exec fw calls).evaluate contains latest now packet incoming remote).2
    (answer = .ok (.ok ()) ↔
        (remote.owns contains packet.remoteAddr = true ∧
            LocallyRoutable contains assigned unsafeNets packet.localAddr ∧
            rules.matches contains packet incoming remote = true) ∨
          AdmittedBefore options log packet now) ∧
      (¬ AdmittedBefore options log packet now →
        (remote.owns contains packet.remoteAddr = false → answer = .ok (.error .invalidRemoteIp)) ∧
        (remote.owns contains packet.remoteAddr = true →
          ¬ LocallyRoutable contains assigned unsafeNets packet.localAddr →
          answer = .ok (.error .invalidLocalIp)) ∧
        (remote.owns contains packet.remoteAddr = true →
          LocallyRoutable contains assigned unsafeNets packet.localAddr →
          rules.matches contains packet incoming remote = false → answer = .ok (.error .noMatchingRule))) := by
  intro fw log answer
  have held := admits_run contains latest rules options assigned unsafeNets noReload
    (fun call member => fits call (List.mem_append_left _ member)) ordered.of_append (ordered.le_last rfl)
  have representable := fits _ (List.mem_append_right _ (List.mem_singleton_self _))
  obtain ⟨-, passes, answers⟩ := held.evaluate contains representable incoming remote
  obtain ⟨ok, foreign, unreachable, unmatched⟩ :=
    check_spec exact rules options assigned unsafeNets packet incoming remote
  constructor
  · by_cases before : AdmittedBefore options log packet now
    · exact iff_of_true (passes before) (.inr before)
    · rw [or_iff_left before, ← ok]
      constructor
      · intro passed
        exact Except.ok.inj ((answers before).symm.trans passed)
      · intro passed
        exact (answers before).trans (congrArg Except.ok passed)
  · intro new
    have answered := answers new
    refine ⟨?_, ?_, ?_⟩
    · intro foreign'
      exact answered.trans (congrArg Except.ok (foreign foreign'))
    · intro owned unreachable'
      exact answered.trans (congrArg Except.ok (unreachable owned unreachable'))
    · intro owned reachable unmatched'
      exact answered.trans (congrArg Except.ok (unmatched owned reachable unmatched'))

/-- The owner's packet at 0 lets the packet of another peer pass at 9, in the other direction. -/
theorem return_leg_passes_before_timeout :
    (((system prefixContains 1000).exec firewall [.evaluate 0 sharedFlow true owner]).evaluate prefixContains 1000
      9 sharedFlow false stranger).2 = .ok (.ok ()) := by
  refine (evaluate_ok_iff_checks_or_admittedBefore prefixContains prefixContains_host 1000 inboundAny ⟨10, 10, 10⟩
    _ [] [.evaluate 0 sharedFlow true owner] 9 sharedFlow false stranger ?_ ?_ ?_).1.mpr (.inr ?_)
  · intro rules member
    cases List.mem_singleton.mp member
  · unfold Chronological
    decide
  · intro call member
    rcases List.mem_pair.mp member with rfl | rfl
    · change 0 + 10 ≤ 1000
      decide
    · change 9 + 10 ≤ 1000
      decide
  · have passed : (firewall.evaluate prefixContains 1000 0 sharedFlow true owner).2 = .ok (.ok ()) := by
      decide +kernel
    refine ⟨0, true, owner, List.mem_singleton.mpr ?_, by decide⟩
    rw [Prod.mk.injEq]
    exact ⟨rfl, (congrArg some passed).symm⟩

end Firewall

end Nebula
