import Nebula.Firewall.Purge
import Nebula.Listener.Arrivals
import Nebula.Listener.SenderIdentity

/-! # Answers get in

The two forwarding tasks share one firewall, and their calls of `evaluate` go on lock by lock. When the firewall has
let a packet out to the mesh, a packet of the same flow that `mesh_to_tun` looks up in time is written to the tun
device, whatever the rules say about inbound packets and whatever else the two tasks do in between. The time counts
from when the clock was read for the packet let out, or for an inbound call on the same flow that was under way by
then: that call may still replace the expiry by an earlier one.
-/

namespace Nebula.Listener

open Rust Machine Firewall

variable {lib : Externals} {contains : Contains} {latest : Instant}

/-! ## The calls of the two tasks -/

/-- What the clock says to a section that begins a call of `evaluate`. -/
def clockReadings (g : Gateway lib) : GatewayEvent → List Instant
  | .session _ => []
  | .meshToTun now => match g.node.progress with
    | .identified .. => [now]
    | .receiving | .parsed .. | .evaluating .. | .unwound _ => []
  | .tunToMesh _ now => match g.outgoing with
    | .identified .. => [now]
    | .reading | .lookingUp .. | .connecting .. | .identifying .. | .evaluating .. | .sending .. | .unwound _ => []

def Progress.call : Progress → List Running
  | .evaluating _ running => [running]
  | .receiving | .parsed .. | .identified .. | .unwound _ => []

def Outgoing.call : Outgoing → List Running
  | .evaluating _ running => [running]
  | .reading | .lookingUp .. | .connecting .. | .identifying .. | .identified .. | .sending .. | .unwound _ => []

/-- The calls of `evaluate` that have read the clock and not returned. -/
def Gateway.underWay (g : Gateway lib) : List Running := g.node.progress.call ++ g.outgoing.call

variable (contains latest) in
/-- What a step does to the firewall and to the calls under way. -/
inductive FirewallStep (g : Gateway lib) (event : GatewayEvent) (next : Gateway lib) : Prop
  | aside (same : next.node.firewall = g.node.firewall) (calls : next.underWay ⊆ g.underWay)
  | begins (now : Instant) (packet : Packet) (incoming : Bool) (peer : PeerIdentity)
      (reads : now ∈ clockReadings g event) (same : next.node.firewall = g.node.firewall)
      (calls : ∀ running ∈ next.underWay, running ∈ g.underWay ∨
        running = g.node.firewall.snapshot now packet incoming peer)
  | proceeds (running : Running) (under : running ∈ g.underWay)
      (same : next.node.firewall = (running.proceed contains latest g.node.firewall).1)
      (calls : ∀ other ∈ next.underWay, other ∈ g.underWay ∨
        other = (running.proceed contains latest g.node.firewall).2 ∧ ∀ answer, other.phase ≠ .returned answer)

theorem firewallStep_meshToTun (g : Gateway lib) (now : Instant) :
    FirewallStep contains latest g (.meshToTun now) ((gateway lib contains latest).step g (.meshToTun now)).1 := by
  obtain ⟨⟨inner, firewall, name, sha, progress⟩, callers, outgoing⟩ := g
  rcases ran : meshToTun lib contains latest ⟨inner, firewall, name, sha, progress⟩ now with ⟨node, evaluated⟩
  rw [@step_meshToTun lib contains latest ⟨_, callers, outgoing⟩ now node evaluated ran]
  unfold meshToTun at ran
  cases progress with
  | evaluating bytes running =>
    have under : running ∈ [running] ++ outgoing.call := List.mem_append_left _ List.mem_cons_self
    have others : outgoing.call ⊆ [running] ++ outgoing.call := List.subset_append_right _ _
    have onward (unanswered : ∀ answer, (running.proceed contains latest firewall).2.phase ≠ .returned answer) :
        ∀ other ∈ (running.proceed contains latest firewall).2 :: outgoing.call, other ∈ [running] ++ outgoing.call ∨
          other = (running.proceed contains latest firewall).2 ∧ ∀ answer, other.phase ≠ .returned answer := by
      intro other member
      rcases List.mem_cons.mp member with rfl | member
      · exact .inr ⟨rfl, unanswered⟩
      · exact .inl (others member)
    dsimp only at ran
    split at ran
    next looking =>
      obtain ⟨rfl, -⟩ := Prod.mk.inj ran
      exact .proceeds running under rfl (onward fun answer => looking ▸ nofun)
    next recording =>
      obtain ⟨rfl, -⟩ := Prod.mk.inj ran
      exact .proceeds running under rfl (onward fun answer => recording ▸ nofun)
    · obtain ⟨rfl, -⟩ := Prod.mk.inj ran
      exact .proceeds running under rfl fun other member => .inl (others member)
    · obtain ⟨rfl, -⟩ := Prod.mk.inj ran
      exact .proceeds running under rfl fun other member => .inl (others member)
  | identified bytes packet peer =>
    obtain ⟨rfl, -⟩ := Prod.mk.inj ran
    refine .begins now packet true peer List.mem_cons_self rfl ?_
    intro running member
    rcases List.mem_cons.mp member with rfl | member
    · exact .inr rfl
    · exact .inl member
  | receiving | parsed | unwound =>
    dsimp only at ran
    repeat' split at ran
    all_goals
      obtain ⟨rfl, -⟩ := Prod.mk.inj ran
      exact .aside rfl fun _ => id

theorem firewallStep_tunToMesh (g : Gateway lib) (read : Bytes) (now : Instant) :
    FirewallStep contains latest g (.tunToMesh read now) (tunToMesh lib contains latest g read now).1 := by
  obtain ⟨node, callers, outgoing⟩ := g
  rcases ran : tunToMesh lib contains latest ⟨node, callers, outgoing⟩ read now with ⟨next, output⟩
  unfold tunToMesh at ran
  cases outgoing with
  | evaluating raw running =>
    have under : running ∈ node.progress.call ++ [running] := List.mem_append_right _ List.mem_cons_self
    have others : node.progress.call ⊆ node.progress.call ++ [running] := List.subset_append_left _ _
    have onward (unanswered : ∀ answer, (running.proceed contains latest node.firewall).2.phase ≠ .returned answer) :
        ∀ other ∈ node.progress.call ++ [(running.proceed contains latest node.firewall).2],
          other ∈ node.progress.call ++ [running] ∨
            other = (running.proceed contains latest node.firewall).2 ∧ ∀ answer, other.phase ≠ .returned answer := by
      intro other member
      rcases List.mem_append.mp member with member | new
      · exact .inl (others member)
      · obtain rfl := List.mem_singleton.mp new
        exact .inr ⟨rfl, unanswered⟩
    dsimp only at ran
    split at ran
    next looking =>
      obtain ⟨rfl, -⟩ := Prod.mk.inj ran
      exact .proceeds running under rfl (onward fun answer => looking ▸ nofun)
    next recording =>
      obtain ⟨rfl, -⟩ := Prod.mk.inj ran
      exact .proceeds running under rfl (onward fun answer => recording ▸ nofun)
    · obtain ⟨rfl, -⟩ := Prod.mk.inj ran
      refine .proceeds running under rfl fun other member => .inl (others ?_)
      rwa [Gateway.underWay, Outgoing.call, List.append_nil] at member
    next verdict returned =>
      obtain ⟨rfl, -⟩ := Prod.mk.inj ran
      refine .proceeds running under rfl fun other member => .inl (others ?_)
      rcases verdict with reason | _
      · rwa [Gateway.underWay, if_neg nofun, Outgoing.call, List.append_nil] at member
      · rwa [Gateway.underWay, if_pos rfl, Outgoing.call, List.append_nil] at member
  | identified raw packet peer =>
    obtain ⟨rfl, -⟩ := Prod.mk.inj ran
    refine .begins now packet false peer List.mem_cons_self rfl ?_
    intro running member
    rcases List.mem_append.mp member with member | new
    · exact .inl (List.mem_append_left _ member)
    · exact .inr (List.mem_singleton.mp new)
  | reading | lookingUp | connecting | identifying | sending | unwound =>
    dsimp only at ran
    repeat' split at ran
    all_goals
      obtain ⟨rfl, -⟩ := Prod.mk.inj ran
      exact .aside rfl fun _ => id

theorem firewallStep (g : Gateway lib) (event : GatewayEvent) :
    FirewallStep contains latest g event ((gateway lib contains latest).step g event).1 := by
  cases event with
  | session event => exact .aside rfl fun _ => id
  | meshToTun now => exact firewallStep_meshToTun g now
  | tunToMesh read now => exact firewallStep_tunToMesh g read now

/-- The rules and the timeouts stand, and every call under way has read the clock in the run and the rules. -/
structure Settled (ruleset : VersionedRules) (timeouts : FirewallOptions) (readings : List Instant) (g : Gateway lib) :
    Prop where
  rules : g.node.firewall.rules = ruleset
  options : g.node.firewall.options = timeouts
  calls : ∀ running ∈ g.underWay, running.call.snapshot = ruleset ∧ running.call.now ∈ readings ∧
    ∀ answer, running.phase ≠ .returned answer

section Settled

variable {rules : VersionedRules} {options : FirewallOptions} {readings : List Instant} {g : Gateway lib}

theorem Settled.step (settled : Settled rules options readings g) (event : GatewayEvent) :
    Settled rules options (readings ++ clockReadings g event) ((gateway lib contains latest).step g event).1 := by
  have still {running : Running} (member : running ∈ g.underWay) : running.call.snapshot = rules ∧
      running.call.now ∈ readings ++ clockReadings g event ∧ ∀ answer, running.phase ≠ .returned answer := by
    obtain ⟨snapshot, read, unanswered⟩ := settled.calls running member
    exact ⟨snapshot, List.mem_append_left _ read, unanswered⟩
  cases @firewallStep lib contains latest g event with
  | aside same calls =>
    exact ⟨same ▸ settled.rules, same ▸ settled.options, fun running member => still (calls member)⟩
  | begins now packet incoming peer reads same calls =>
    refine ⟨same ▸ settled.rules, same ▸ settled.options, fun running member => ?_⟩
    rcases calls running member with member | rfl
    · exact still member
    · exact ⟨settled.rules, List.mem_append_right _ reads, nofun⟩
  | proceeds running under same calls =>
    obtain ⟨rules_eq, options_eq, call_eq⟩ := running.proceed_frame contains latest g.node.firewall
    refine ⟨?_, ?_, fun other member => ?_⟩
    · rw [same, rules_eq, settled.rules]
    · rw [same, options_eq, settled.options]
    · rcases calls other member with member | ⟨rfl, unanswered⟩
      · exact still member
      · rw [call_eq]
        exact ⟨(still under).1, (still under).2.1, unanswered⟩

theorem Settled.run (settled : Settled rules options readings g) (events : List GatewayEvent) :
    Settled rules options (readings ++ (gateway lib contains latest).gather clockReadings g events)
      ((gateway lib contains latest).exec g events) := by
  induction events using List.reverseRecOn with
  | nil => exact (List.append_nil readings).symm ▸ settled
  | append_singleton events event ih =>
    rw [System.gather_concat, System.exec_concat, ← List.append_assoc]
    exact ih.step event

end Settled

/-! ## One flow of the shared firewall -/

/-- The flow of the packet is admitted under the rules in force, and at least until then. -/
structure OpenUntil (packet : Packet) (until_ : Instant) (fw : Firewall) : Prop where
  sound : fw.conntrack.poisoned = false
  tracked : ∃ entry, fw.conntrack.value.conns.get packet = some entry ∧ entry.rulesVersion = fw.rules.version ∧
    until_ ≤ entry.expires

section Flow

variable {fw : Firewall} {packet : Packet} {until_ : Instant} {running : Running}

/-- A section that records the flow of the packet under the rules in force, or another one. -/
theorem OpenUntil.of_record {ct ct' : Conntrack} {now : Instant} {other : Packet} {incoming : Bool} {timeout : Duration}
    (recorded : ct.record latest other incoming fw.rules.version now timeout = .ok ct')
    (own : other = packet → until_ ≤ now + timeout)
    (tracked : other ≠ packet → ∃ entry, ct.conns.get packet = some entry ∧ entry.rulesVersion = fw.rules.version ∧
      until_ ≤ entry.expires) :
    OpenUntil packet until_ { fw with conntrack := { value := ct' } } := by
  refine ⟨rfl, ?_⟩
  rw [Conntrack.conns_of_record recorded, HashMap.get_insert]
  split
  next here => exact ⟨_, rfl, rfl, own here.symm⟩
  next elsewhere => exact tracked (Ne.symm elsewhere)

/-- A call in time leaves the flow open; if it is on the flow and comes to the lookup block, it passes. -/
theorem OpenUntil.proceed (open_ : OpenUntil packet until_ fw) (snapshot : running.call.snapshot = fw.rules)
    (soon : running.call.now < until_)
    (fits : running.call.now + timeoutFor fw.options running.call.packet.protocol ≤ latest)
    (lasts : running.call.packet = packet → until_ ≤ running.call.now + timeoutFor fw.options packet.protocol) :
    OpenUntil packet until_ (running.proceed contains latest fw).1 ∧
      (running.phase = .looking → running.call.packet = packet →
        (running.proceed contains latest fw).2.phase = .returned (.ok (.ok ()))) := by
  obtain ⟨entry, found, current, expires⟩ := open_.tracked
  have kept : (fw.conntrack.value.purgeExpired running.call.now).conns.get packet = some entry := by
    rcases Conntrack.lessExpired_purgeExpired fw.conntrack.value running.call.now packet with
      same | ⟨-, other, there, gone⟩
    · rw [same, found]
    · obtain rfl := Option.some.inj (found.symm.trans there)
      exact absurd (lt_of_lt_of_le soon expires) (Nat.not_lt.mpr gone)
  have own (same : running.call.packet = packet) :
      until_ ≤ running.call.now + timeoutFor fw.options running.call.packet.protocol := same ▸ lasts same
  obtain ⟨call, _ | _ | answer⟩ := running
  · -- The purge leaves the flow, and the block refreshes it or has to do with another one.
    dsimp only at snapshot soon fits own kept
    unfold Running.proceed
    dsimp only
    rcases locked_lookup contains latest open_.sound fw.options call.snapshot call.packet call.remote call.now with
      ⟨table, passed, same⟩ | ⟨entry', found', admitted, ⟨unwinds, same⟩ | ⟨after, recorded, same⟩⟩
    · rw [same]
      cases passed with
      | untracked absent =>
        have elsewhere : call.packet ≠ packet := by
          rintro rfl
          cases absent.symm.trans kept
        exact ⟨⟨rfl, entry, kept, current, expires⟩, fun _ here => absurd here elsewhere⟩
      | evicted entry' there stale unmatched =>
        have elsewhere : call.packet ≠ packet := by
          rintro rfl
          obtain rfl := Option.some.inj (there.symm.trans kept)
          exact stale (snapshot ▸ current)
        refine ⟨⟨rfl, entry, ?_, current, expires⟩, fun _ here => absurd here elsewhere⟩
        exact (HashMap.get_remove_of_ne _ (Ne.symm elsewhere)).trans kept
    · exact absurd fits (Nat.not_le.mpr unwinds)
    · rw [same]
      rw [snapshot] at recorded
      exact ⟨.of_record recorded own fun _ => ⟨entry, kept, current, expires⟩, fun _ _ => rfl⟩
  · dsimp only at snapshot fits own
    unfold Running.proceed
    dsimp only
    rcases @locked_record latest _ open_.sound fw.options call.packet call.incoming call.snapshot.version call.now with
      ⟨unwinds, -⟩ | ⟨after, recorded, same⟩
    · exact absurd fits (Nat.not_le.mpr unwinds)
    · rw [same]
      rw [snapshot] at recorded
      exact ⟨.of_record recorded own fun _ => ⟨entry, found, current, expires⟩, nofun⟩
  · exact ⟨open_, nofun⟩

/-- A call that passes opens its flow. -/
theorem openUntil_of_passed (snapshot : running.call.snapshot = fw.rules)
    (unanswered : ∀ answer, running.phase ≠ .returned answer)
    (passed : (running.proceed contains latest fw).2.phase = .returned (.ok (.ok ()))) :
    OpenUntil running.call.packet (running.call.now + timeoutFor fw.options running.call.packet.protocol)
      (running.proceed contains latest fw).1 := by
  have sound : fw.conntrack.poisoned = false := by
    by_contra broken
    have broken : fw.conntrack.poisoned = true := by simpa using broken
    obtain ⟨call, _ | _ | answer⟩ := running
    · simp only [Running.proceed, Mutex.locked_of_poisoned broken, Shared.afterLookup] at passed
      cases passed
    · simp only [Running.proceed, Mutex.locked_of_poisoned broken] at passed
      cases passed
    · exact absurd rfl (unanswered answer)
  obtain ⟨call, _ | _ | answer⟩ := running
  · unfold Running.proceed at passed ⊢
    dsimp only at snapshot passed ⊢
    rcases locked_lookup contains latest sound fw.options call.snapshot call.packet call.remote call.now with
      ⟨table, -, same⟩ | ⟨entry, found, admitted, ⟨unwinds, same⟩ | ⟨after, recorded, same⟩⟩
    · rw [same] at passed
      dsimp only [Shared.afterLookup] at passed
      split at passed
      · cases passed
      · cases passed
    · rw [same] at passed
      cases passed
    · rw [same]
      rw [snapshot] at recorded
      exact .of_record recorded (fun _ => le_rfl) fun elsewhere => absurd rfl elsewhere
  · unfold Running.proceed at passed ⊢
    dsimp only at snapshot passed ⊢
    rcases @locked_record latest _ sound fw.options call.packet call.incoming call.snapshot.version call.now with
      ⟨unwinds, same⟩ | ⟨after, recorded, same⟩
    · rw [same] at passed
      cases passed
    · rw [same]
      rw [snapshot] at recorded
      exact .of_record recorded (fun _ => le_rfl) fun elsewhere => absurd rfl elsewhere
  · exact absurd rfl (unanswered answer)

end Flow

/-! ## The request and the answer -/

/-- The flow is open for its timeout from `since`, and no call on it that is under way has read the clock before. -/
structure Held (ruleset : VersionedRules) (timeouts : FirewallOptions) (packet : Packet) (since : Instant)
    (readings : List Instant) (g : Gateway lib) : Prop where
  settled : Settled ruleset timeouts readings g
  open_ : OpenUntil packet (since + timeoutFor timeouts packet.protocol) g.node.firewall
  young : ∀ running ∈ g.underWay, running.call.packet = packet → since ≤ running.call.now

section Answer

variable {ruleset : VersionedRules} {timeouts : FirewallOptions} {packet : Packet} {since : Instant}
  {readings : List Instant} {g : Gateway lib}

/-- The calls that a step leaves under way have read the clock by then, or in it. -/
theorem young_step (young : ∀ running ∈ g.underWay, running.call.packet = packet → since ≤ running.call.now)
    (event : GatewayEvent) (later : ∀ t ∈ clockReadings g event, since ≤ t) :
    ∀ running ∈ ((gateway lib contains latest).step g event).1.underWay, running.call.packet = packet →
      since ≤ running.call.now := by
  intro running member here
  cases @firewallStep lib contains latest g event with
  | aside same calls => exact young running (calls member) here
  | begins now other incoming peer reads same calls =>
    rcases calls running member with member | rfl
    · exact young running member here
    · exact later now reads
  | proceeds call under same calls =>
    rcases calls running member with member | ⟨rfl, -⟩
    · exact young running member here
    · rw [(call.proceed_frame contains latest g.node.firewall).2.2] at here ⊢
      exact young call under here

/-- What a call under way does to a flow that is held open. -/
theorem Held.proceed (held : Held ruleset timeouts packet since readings g)
    (soon : ∀ t ∈ readings, t < since + timeoutFor timeouts packet.protocol)
    (fits : ∀ t ∈ readings, ∀ protocol, t + timeoutFor timeouts protocol ≤ latest) {running : Running}
    (under : running ∈ g.underWay) :
    OpenUntil packet (since + timeoutFor timeouts packet.protocol) (running.proceed contains latest g.node.firewall).1 ∧
      (running.phase = .looking → running.call.packet = packet →
        (running.proceed contains latest g.node.firewall).2.phase = .returned (.ok (.ok ()))) := by
  obtain ⟨snapshot, read, -⟩ := held.settled.calls running under
  have options := held.settled.options
  refine held.open_.proceed (snapshot.trans held.settled.rules.symm) (soon _ read) ?_ ?_
  · rw [options]
    exact fits _ read _
  · intro here
    rw [options]
    exact Nat.add_le_add_right (held.young running under here) _

theorem Held.step (held : Held ruleset timeouts packet since readings g) (event : GatewayEvent)
    (later : ∀ t ∈ clockReadings g event, since ≤ t)
    (soon : ∀ t ∈ readings, t < since + timeoutFor timeouts packet.protocol)
    (fits : ∀ t ∈ readings, ∀ protocol, t + timeoutFor timeouts protocol ≤ latest) :
    Held ruleset timeouts packet since (readings ++ clockReadings g event)
      ((gateway lib contains latest).step g event).1 where
  settled := held.settled.step event
  young := young_step held.young event later
  open_ := by
    cases @firewallStep lib contains latest g event with
    | aside same calls => exact same ▸ held.open_
    | begins now other incoming peer reads same calls => exact same ▸ held.open_
    | proceeds running under same calls =>
      rw [same]
      exact (held.proceed soon fits under).1

theorem Held.run (held : Held ruleset timeouts packet since readings g) (events : List GatewayEvent)
    (later : ∀ t ∈ (gateway lib contains latest).gather clockReadings g events, since ≤ t)
    (soon : ∀ t ∈ readings ++ (gateway lib contains latest).gather clockReadings g events,
      t < since + timeoutFor timeouts packet.protocol)
    (fits : ∀ t ∈ readings ++ (gateway lib contains latest).gather clockReadings g events, ∀ protocol,
      t + timeoutFor timeouts protocol ≤ latest) :
    Held ruleset timeouts packet since (readings ++ (gateway lib contains latest).gather clockReadings g events)
      ((gateway lib contains latest).exec g events) := by
  induction events using List.reverseRecOn with
  | nil => exact (List.append_nil readings).symm ▸ held
  | append_singleton events event ih =>
    rw [System.gather_concat] at later
    rw [System.gather_concat, ← List.append_assoc] at soon fits ⊢
    rw [System.exec_concat]
    have before := ih (fun t member => later t (List.mem_append_left _ member))
      (fun t member => soon t (List.mem_append_left _ member)) (fun t member => fits t (List.mem_append_left _ member))
    exact before.step event (fun t member => later t (List.mem_append_right _ member))
      (fun t member => soon t (List.mem_append_left _ member)) (fun t member => fits t (List.mem_append_left _ member))

theorem written_of_passed {bytes : Bytes} {running : Running} {now : Instant}
    (doing : g.node.progress = .evaluating bytes running)
    (passed : (running.proceed contains latest g.node.firewall).2.phase = .returned (.ok (.ok ()))) :
    ((gateway lib contains latest).step g (.meshToTun now)).2 =
      .inbound ⟨running.call.packet, running.call.remote, .ok (.ok ()), some bytes⟩ := by
  have ran : (meshToTun lib contains latest g.node now).2 =
      some ⟨running.call.packet, running.call.remote, .ok (.ok ()), some bytes⟩ := by
    rw [← (running.proceed_frame contains latest g.node.firewall).2.2]
    simp only [meshToTun, doing, passed, if_true]
  rcases whole : meshToTun lib contains latest g.node now with ⟨node, evaluated⟩
  rw [whole] at ran
  rw [step_meshToTun whole, show evaluated = _ from ran]
  rfl

theorem firewall_of_outbound {raw : Bytes} {running : Running} (doing : g.outgoing = .evaluating raw running)
    (read : Bytes) (now : Instant) :
    (tunToMesh lib contains latest g read now).1.node.firewall =
      (running.proceed contains latest g.node.firewall).1 := by
  unfold tunToMesh
  rw [doing]
  dsimp only
  split
  all_goals rfl

/-- The clock does not go back, and no flow would end past the last instant. Once the firewall has let out a packet,
`mesh_to_tun` writes every packet of the same flow that it looks up before the clock has been read at the end of the
flow's timeout. The timeout counts from `since`: no call on the flow that is under way when the packet is let out, that
of the packet itself included, has read the clock before then. -/
theorem answer_gets_in (inner : lib.Inner) (rules : RuleSet) (options : FirewallOptions)
    (assigned unsafeNets : List IpNet) (caName caSha : String) (before middle : List GatewayEvent) (read bytes : Bytes)
    (packet : Packet) (peer : PeerIdentity) (running : Running) (since now now' : Instant) :
    let start := Gateway.start lib inner (.new rules options assigned unsafeNets) caName caSha
    let request := (gateway lib contains latest).exec start before
    let events := before ++ .tunToMesh read now :: middle
    let readings := (gateway lib contains latest).gather clockReadings start events
    let answer := (gateway lib contains latest).exec start events
    readings.Pairwise (· ≤ ·) → (∀ t ∈ readings, ∀ protocol, t + timeoutFor options protocol ≤ latest) →
    ((gateway lib contains latest).step request (.tunToMesh read now)).2 =
      .outbound ⟨packet, peer, .ok (.ok ()), none⟩ →
    (∀ call ∈ request.underWay, call.call.packet = packet → since ≤ call.call.now) →
    (∀ t ∈ readings, t < since + timeoutFor options packet.protocol) →
    answer.node.progress = .evaluating bytes running → running.phase = .looking → running.call.packet = packet →
    ((gateway lib contains latest).step answer (.meshToTun now')).2 =
      .inbound ⟨packet, running.call.remote, .ok (.ok ()), some bytes⟩ := by
  intro start request events readings answer ordered fits letOut oldest soon doing looking same
  have split : readings = (gateway lib contains latest).gather clockReadings start before ++
      (clockReadings request (.tunToMesh read now) ++ (gateway lib contains latest).gather clockReadings
        ((gateway lib contains latest).step request (.tunToMesh read now)).1 middle) :=
    System.gather_append ..
  have reached : answer = (gateway lib contains latest).exec
      ((gateway lib contains latest).step request (.tunToMesh read now)).1 middle := System.exec_append ..
  have initially : Settled ⟨0, rules⟩ options [] start := ⟨rfl, rfl, fun _ member => absurd member List.not_mem_nil⟩
  have settled : Settled ⟨0, rules⟩ options ((gateway lib contains latest).gather clockReadings start before) request :=
    initially.run before
  -- The request opens the flow.
  obtain ⟨raw, asking, sending, packet_eq, -, passed⟩ := evaluating_of_outbound letOut
  have under : asking ∈ request.underWay := by
    rw [Gateway.underWay, sending]
    exact List.mem_append_right _ List.mem_cons_self
  obtain ⟨snapshot, asked, unanswered⟩ := settled.calls asking under
  have opened := openUntil_of_passed (snapshot.trans settled.rules.symm) unanswered passed
  rw [← firewall_of_outbound sending read now, packet_eq, settled.options] at opened
  have later : ∀ t ∈ clockReadings request (.tunToMesh read now) ++ (gateway lib contains latest).gather clockReadings
      ((gateway lib contains latest).step request (.tunToMesh read now)).1 middle, since ≤ t := by
    intro t member
    rw [split] at ordered
    exact le_trans (oldest asking under packet_eq) ((List.pairwise_append.mp ordered).2.2 _ asked t member)
  have held : Held ⟨0, rules⟩ options packet since ((gateway lib contains latest).gather clockReadings start before ++
      clockReadings request (.tunToMesh read now))
      ((gateway lib contains latest).step request (.tunToMesh read now)).1 := by
    refine ⟨settled.step _, ⟨opened.sound, ?_⟩, ?_⟩
    · obtain ⟨entry, found, current, expires⟩ := opened.tracked
      exact ⟨entry, found, current, le_trans (Nat.add_le_add_right (oldest asking under packet_eq) _) expires⟩
    · exact young_step oldest _ fun t member => later t (List.mem_append_left _ member)
  -- What follows leaves it open, and the lookup block of the answer finds it.
  rw [← List.append_assoc] at split
  rw [split] at soon fits
  have held := held.run middle (fun t member => later t (List.mem_append_right _ member)) soon fits
  rw [← reached] at held
  have under : running ∈ answer.underWay := by
    rw [Gateway.underWay, doing]
    exact List.mem_append_left _ List.mem_cons_self
  rw [← same]
  exact written_of_passed doing ((held.proceed soon fits under).2 looking same)

end Answer

/-! ## Host B asks host A, under rules that let nothing in -/

section

open TestNetwork

deriving instance DecidableEq for Forwarded, GatewayOutput

/-- Host A opens a tunnel, and host B reads a packet for it, and the clock for the packet. -/
def untilRequest : List GatewayEvent :=
  .session (.other (.datagram stage0Datagram (endpoint 1) (ambient 2))) :: List.replicate 3 (.tunToMesh udpFromB 0) ++
    [.tunToMesh [] 1, .tunToMesh [] 0]

/-- Host B sends the packet, and `mesh_to_tun` takes host A's answer and reads the clock five time units later. -/
def untilAnswer : List GatewayEvent :=
  [.tunToMesh [] 0, .session (.other (.datagram packetDatagram (endpoint 1) (ambient 3))), .meshToTun 0, .meshToTun 0,
    .meshToTun 6]

def answering : Gateway meshNetwork :=
  (gateway meshNetwork prefixContains 1000).exec forwarding (untilRequest ++ .tunToMesh [] 0 :: untilAnswer)

theorem request_let_out :
    ((gateway meshNetwork prefixContains 1000).step ((gateway meshNetwork prefixContains 1000).exec forwarding
      untilRequest) (.tunToMesh [] 0)).2 = .outbound ⟨packetFromA, identityA ["test"], .ok (.ok ()), none⟩ := by
  decide +kernel

theorem answer_in_hand : ∃ running, answering.node.progress = .evaluating udpPacket running ∧
    running.phase = .looking ∧ running.call.packet = packetFromA ∧ running.call.remote = identityA ["test"] := by
  have inHand : answering.node.progress.inHand = [udpPacket] := by decide +kernel
  have asked : answering.node.progress.call.map (fun running =>
      (running.phase, running.call.packet, running.call.remote)) = [(.looking, packetFromA, identityA ["test"])] := by
    decide +kernel
  rcases doing : answering.node.progress with _ | _ | _ | ⟨bytes, running⟩ | _
  all_goals rw [doing] at inHand asked
  case evaluating =>
    obtain rfl := List.singleton_inj.mp inHand
    have same := List.singleton_inj.mp asked
    simp only [Prod.mk.injEq] at same
    exact ⟨running, rfl, same⟩
  all_goals cases asked

/-- The answer is written. -/
theorem answer_is_written :
    ((gateway meshNetwork prefixContains 1000).step answering (.meshToTun 0)).2 =
      .inbound ⟨packetFromA, identityA ["test"], .ok (.ok ()), some udpPacket⟩ := by
  obtain ⟨running, doing, looking, packet, remote⟩ := answer_in_hand
  have readings : (gateway meshNetwork prefixContains 1000).gather clockReadings forwarding
      (untilRequest ++ .tunToMesh [] 0 :: untilAnswer) = [1, 6] := by decide +kernel
  have oldest : ∀ call ∈ ((gateway meshNetwork prefixContains 1000).exec forwarding untilRequest).underWay,
      1 ≤ call.call.now := by decide +kernel
  have ordered : ((gateway meshNetwork prefixContains 1000).gather clockReadings forwarding
      (untilRequest ++ .tunToMesh [] 0 :: untilAnswer)).Pairwise (· ≤ ·) := by
    rw [readings]
    decide
  have soon : ∀ t ∈ (gateway meshNetwork prefixContains 1000).gather clockReadings forwarding
      (untilRequest ++ .tunToMesh [] 0 :: untilAnswer), t < 1 + timeoutFor ⟨10, 10, 10⟩ packetFromA.protocol := by
    rw [readings]
    decide
  have fits : ∀ t ∈ (gateway meshNetwork prefixContains 1000).gather clockReadings forwarding
      (untilRequest ++ .tunToMesh [] 0 :: untilAnswer), ∀ protocol, t + timeoutFor ⟨10, 10, 10⟩ protocol ≤ 1000 := by
    rw [readings]
    intro t member protocol
    have short : timeoutFor ⟨10, 10, 10⟩ protocol = 10 := by cases protocol <;> rfl
    have early : ∀ t ∈ [1, 6], t + 10 ≤ 1000 := by decide
    rw [short]
    exact early t member
  have main := @answer_gets_in meshNetwork prefixContains 1000 (.new ca hostB keyB .aesGcm (vpn 2) [] []) outboundAny
    ⟨10, 10, 10⟩ [.host (vpn 2)] [] ca.details.name "" untilRequest untilAnswer [] udpPacket packetFromA
    (identityA ["test"]) running 1 0 0
  dsimp only at main
  rw [← forwarding, ← answering, remote] at main
  exact main ordered fits request_let_out (fun call member _ => oldest call member) soon doing looking packet

end

end Nebula.Listener
