import Nebula.Firewall.Rule.Builder
import Mathlib.Tactic.Common

/-! # What a rule means, and that compilation preserves it

`Rule.Admits` reads one rule on its own, without tables: direction, protocol, port interval,
certificate authority, peer selector and local network. Each `add_to_*` helper adds precisely the
part of that meaning its level decides, whatever the level already holds; a whole builder therefore
matches a packet exactly when one of the accepted rules admits it.
-/

namespace Nebula

open Rust

/-! ## One rule read on its own -/

namespace Rule

/-- The interval of port keys `port_bounds` gives the rule contains `key`. -/
def PortCovers (rule : Rule) (key : ℤ) : Prop :=
  ∃ start stop, portBounds rule.port = .ok (start, stop) ∧ start ≤ key ∧ key ≤ stop

/-- ICMP rules have no ports; any other rule admits its interval, or everything if that contains 0. -/
def PortAdmits (rule : Rule) (packet : Packet) (incoming : Bool) : Prop :=
  rule.proto.isIcmp = true ∨ rule.PortCovers (portKey packet incoming) ∨ rule.PortCovers 0

def ProtoAdmits (rule : Rule) (packet : Packet) : Prop :=
  rule.proto = .any ∨
    (rule.proto = packet.protocol ∧ (packet.protocol = .tcp ∨ packet.protocol = .udp)) ∨
    (rule.proto.isIcmp = true ∧ packet.protocol.isIcmp = true)

def CaAdmits (rule : Rule) (remote : PeerIdentity) : Prop :=
  (rule.caSha = none ∧ rule.caName = none) ∨ rule.caSha = some remote.caSha ∨
    rule.caName = some remote.caName

/-- No selector at all, `"any"` among the groups, or host `"any"`. -/
def AnyPeer (rule : Rule) : Prop :=
  (rule.groups = [] ∧ rule.host = none ∧ rule.cidr = none) ∨ "any" ∈ rule.groups ∨ rule.host = some "any"

variable (contains : Contains)

def PeerAdmits (rule : Rule) (packet : Packet) (remote : PeerIdentity) : Prop :=
  rule.AnyPeer ∨ (rule.groups ≠ [] ∧ ∀ group ∈ rule.groups, group ∈ remote.groups) ∨
    rule.host = some remote.name ∨ ∃ net, rule.cidr = some net ∧ contains net packet.remoteAddr = true

/-- The rule's local network, or the builder's default when it names none. -/
def LocalAdmits (default : LocalCidrDefault) (rule : Rule) (packet : Packet) : Prop :=
  match rule.localCidr, default with
  | .any, _ => True
  | .net net, _ => contains net packet.localAddr = true
  | .unset, .any => True
  | .unset, .nets nets => ∃ net ∈ nets, contains net packet.localAddr = true

/-- What the rule asks of the peer and the addresses, ports and protocol aside. -/
def EndpointsAdmit (default : LocalCidrDefault) (rule : Rule) (packet : Packet)
    (remote : PeerIdentity) : Prop :=
  rule.CaAdmits remote ∧ rule.PeerAdmits contains packet remote ∧ rule.LocalAdmits contains default packet

/-- The rule, read on its own, admits the packet. -/
def Admits (default : LocalCidrDefault) (rule : Rule) (packet : Packet) (incoming : Bool)
    (remote : PeerIdentity) : Prop :=
  rule.incoming = incoming ∧ rule.ProtoAdmits packet ∧ rule.PortAdmits packet incoming ∧
    rule.EndpointsAdmit contains default packet remote

/-- Whatever has been added before, `add_rule` returns `Ok` for this rule. -/
def Accepted (rule : Rule) : Prop := ∀ b : RuleSetBuilder, ∃ b', b.addRule rule = .ok b'

end Rule

/-! ## Each level adds its part of the meaning -/

section Levels

variable (contains : Contains)

theorem isAny_iff (rule : Rule) : isAny rule.groups rule.host rule.cidr = true ↔ rule.AnyPeer := by
  simp only [isAny, Rule.AnyPeer, Bool.or_eq_true, Bool.and_eq_true, List.isEmpty_iff,
    Option.isNone_iff_eq_none, List.any_eq_true, beq_iff_eq, exists_eq_right, and_assoc, or_assoc]

theorem LocalCidr.matches_iff (lc : LocalCidr) (packet : Packet) :
    lc.matches contains packet = true ↔
      lc.any = true ∨ ∃ net ∈ lc.nets, contains net packet.localAddr = true := by
  simp [LocalCidr.matches]

theorem LocalCidr.not_matches_empty (packet : Packet) :
    ¬ (({} : LocalCidr).matches contains packet = true) := by simp [LocalCidr.matches]

theorem mergeLocalCidr_matches (lc : LocalCidr) (default : LocalCidrDefault) (rule : Rule) (packet : Packet) :
    (mergeLocalCidr lc default rule.localCidr).matches contains packet = true ↔
      lc.matches contains packet = true ∨ rule.LocalAdmits contains default packet := by
  simp only [LocalCidr.matches_iff, Rule.LocalAdmits]
  cases rule.localCidr with
  | unset => cases default <;> simp [mergeLocalCidr, or_and_right, exists_or, or_assoc]
  | any => simp [mergeLocalCidr]
  | net net => simp [mergeLocalCidr, or_and_right, exists_or, or_assoc]

theorem mergeCidr_matches {P : LocalCidr → Prop} {C : Prop} {merge : LocalCidr → LocalCidr}
    (none : ¬ P {}) (adds : ∀ lc, P (merge lc) ↔ P lc ∨ C) (cidrs : List (IpNet × LocalCidr)) (net : IpNet)
    (addr : IpAddr) :
    (∃ entry ∈ mergeCidr cidrs net merge, contains entry.1 addr = true ∧ P entry.2) ↔
      (∃ entry ∈ cidrs, contains entry.1 addr = true ∧ P entry.2) ∨ (contains net addr = true ∧ C) := by
  induction cidrs with
  | nil => simp [mergeCidr, adds, none]
  | cons head rest ih =>
    obtain ⟨other, lc⟩ := head
    rw [mergeCidr]
    split
    · next same =>
      subst same
      simp only [List.mem_cons, exists_eq_or_imp, adds, and_or_left]
      exact or_right_comm
    · simp only [List.mem_cons, exists_eq_or_imp, ih, or_assoc]

theorem PeerRule.matches_iff (pr : PeerRule) (packet : Packet) (remote : PeerIdentity) :
    pr.matches contains packet remote = true ↔
      (∃ lc, pr.any = some lc ∧ lc.matches contains packet = true) ∨
      (∃ entry ∈ pr.groups, (∀ group ∈ entry.1, group ∈ remote.groups) ∧
        entry.2.matches contains packet = true) ∨
      (∃ lc, pr.hosts.get remote.name = some lc ∧ lc.matches contains packet = true) ∨
      (∃ entry ∈ pr.cidrs, contains entry.1 packet.remoteAddr = true ∧
        entry.2.matches contains packet = true) := by
  simp only [PeerRule.matches, Bool.or_eq_true, Option.any_eq_true, List.any_eq_true, Bool.and_eq_true,
    List.all_eq_true, List.contains_iff_mem, or_assoc]

theorem PeerRule.not_matches_empty (packet : Packet) (remote : PeerIdentity) :
    ¬ (({} : PeerRule).matches contains packet remote = true) := by simp [PeerRule.matches]

section Peer

variable {packet : Packet} {merge : LocalCidr → LocalCidr} {C : Prop}
  (adds : ∀ lc, (merge lc).matches contains packet = true ↔ lc.matches contains packet = true ∨ C)

include adds

theorem addGroups_matches (pr : PeerRule) (groups : List String) (remote : PeerIdentity) :
    (addGroups pr merge groups).matches contains packet remote = true ↔
      pr.matches contains packet remote = true ∨
        ((groups ≠ [] ∧ ∀ group ∈ groups, group ∈ remote.groups) ∧ C) := by
  cases groups with
  | nil => simp [addGroups]
  | cons group rest =>
    simp only [addGroups, List.isEmpty_cons, Bool.false_eq_true, if_false, PeerRule.matches_iff,
      List.mem_append, List.mem_singleton, or_and_right, exists_or, exists_eq_left, adds,
      LocalCidr.not_matches_empty, false_or, ne_eq, reduceCtorEq, not_false_eq_true, true_and]
    simp only [or_assoc, or_left_comm, or_comm]

theorem addHost_matches (pr : PeerRule) (host : Option String) (remote : PeerIdentity) :
    (addHost pr merge host).matches contains packet remote = true ↔
      pr.matches contains packet remote = true ∨ (host = some remote.name ∧ C) := by
  cases host with
  | none => simp [addHost]
  | some host =>
    have hosts := HashMap.exists_get_upsert_iff (P := fun lc => lc.matches contains packet = true)
      (LocalCidr.not_matches_empty contains packet) adds pr.hosts host remote.name
    simp only [addHost, PeerRule.matches_iff, hosts, Option.some.injEq, @eq_comm _ host]
    simp only [or_assoc, or_left_comm, or_comm]

theorem addCidr_matches (pr : PeerRule) (cidr : Option IpNet) (remote : PeerIdentity) :
    (addCidr pr merge cidr).matches contains packet remote = true ↔
      pr.matches contains packet remote = true ∨
        ((∃ net, cidr = some net ∧ contains net packet.remoteAddr = true) ∧ C) := by
  cases cidr with
  | none => simp [addCidr]
  | some net =>
    have cidrs := mergeCidr_matches contains (P := fun lc => lc.matches contains packet = true)
      (LocalCidr.not_matches_empty contains packet) adds pr.cidrs net packet.remoteAddr
    simp only [addCidr, PeerRule.matches_iff, cidrs, Option.some.injEq, exists_eq_left', or_assoc]

end Peer

/-- A rule filed under a peer table adds its peer selector joined with its local network. -/
theorem addToPeerRule_matches (pr : PeerRule) (default : LocalCidrDefault) (rule : Rule) (packet : Packet)
    (remote : PeerIdentity) :
    (addToPeerRule pr default rule).matches contains packet remote = true ↔
      pr.matches contains packet remote = true ∨
        (rule.PeerAdmits contains packet remote ∧ rule.LocalAdmits contains default packet) := by
  have adds := fun lc => mergeLocalCidr_matches contains lc default rule packet
  simp only [addToPeerRule, Rule.PeerAdmits, ← isAny_iff]
  split
  · next any =>
    simp only [PeerRule.matches_iff, any, true_or, true_and, Option.some.injEq, exists_eq_left', adds]
    cases pr.any with
    | none =>
      simp only [Option.getD_none, LocalCidr.not_matches_empty, false_or, reduceCtorEq, false_and,
        exists_false]
      exact or_comm
    | some lc =>
      simp only [Option.getD_some, Option.some.injEq, exists_eq_left']
      exact or_right_comm
  · next selective =>
    rw [addCidr_matches contains adds, addHost_matches contains adds, addGroups_matches contains adds]
    simp only [selective, Bool.false_eq_true, false_or, or_and_right, or_assoc]

theorem CaRule.matches_iff (ca : CaRule) (packet : Packet) (remote : PeerIdentity) :
    ca.matches contains packet remote = true ↔
      (∃ pr, ca.any = some pr ∧ pr.matches contains packet remote = true) ∨
      (∃ pr, ca.caShas.get remote.caSha = some pr ∧ pr.matches contains packet remote = true) ∨
      (∃ pr, ca.caNames.get remote.caName = some pr ∧ pr.matches contains packet remote = true) := by
  simp only [CaRule.matches, Bool.or_eq_true, Option.any_eq_true, or_assoc]

theorem CaRule.not_matches_empty (packet : Packet) (remote : PeerIdentity) :
    ¬ (({} : CaRule).matches contains packet remote = true) := by simp [CaRule.matches]

section Ca

variable {packet : Packet} {remote : PeerIdentity} {add : PeerRule → PeerRule} {C : Prop}
  (adds : ∀ pr, (add pr).matches contains packet remote = true ↔ pr.matches contains packet remote = true ∨ C)

include adds

theorem addCaSha_matches (ca : CaRule) (sha : Option String) :
    (addCaSha ca add sha).matches contains packet remote = true ↔
      ca.matches contains packet remote = true ∨ (sha = some remote.caSha ∧ C) := by
  cases sha with
  | none => simp [addCaSha]
  | some sha =>
    have shas := HashMap.exists_get_upsert_iff (P := fun pr => pr.matches contains packet remote = true)
      (PeerRule.not_matches_empty contains packet remote) adds ca.caShas sha remote.caSha
    simp only [addCaSha, CaRule.matches_iff, shas, Option.some.injEq, @eq_comm _ sha]
    simp only [or_left_comm, or_comm]

theorem addCaName_matches (ca : CaRule) (name : Option String) :
    (addCaName ca add name).matches contains packet remote = true ↔
      ca.matches contains packet remote = true ∨ (name = some remote.caName ∧ C) := by
  cases name with
  | none => simp [addCaName]
  | some name =>
    have names := HashMap.exists_get_upsert_iff (P := fun pr => pr.matches contains packet remote = true)
      (PeerRule.not_matches_empty contains packet remote) adds ca.caNames name remote.caName
    simp only [addCaName, CaRule.matches_iff, names, Option.some.injEq, @eq_comm _ name, or_assoc]

end Ca

/-- A rule filed under a port key adds its authority joined with what it asks of the peer. -/
theorem addToCaRule_matches (ca : CaRule) (default : LocalCidrDefault) (rule : Rule) (packet : Packet)
    (remote : PeerIdentity) :
    (addToCaRule ca default rule).matches contains packet remote = true ↔
      ca.matches contains packet remote = true ∨ rule.EndpointsAdmit contains default packet remote := by
  have adds := fun pr => addToPeerRule_matches contains pr default rule packet remote
  simp only [addToCaRule, Rule.EndpointsAdmit, Rule.CaAdmits, Bool.and_eq_true, Option.isNone_iff_eq_none]
  split
  · next unscoped =>
    simp only [CaRule.matches_iff, unscoped, and_self, true_or, true_and, Option.some.injEq,
      exists_eq_left', adds]
    cases ca.any with
    | none =>
      simp only [Option.getD_none, PeerRule.not_matches_empty, false_or, reduceCtorEq, false_and,
        exists_false]
      exact or_comm
    | some pr =>
      simp only [Option.getD_some, Option.some.injEq, exists_eq_left']
      exact or_right_comm
  · next selective =>
    rw [addCaName_matches contains adds, addCaSha_matches contains adds]
    simp only [selective, false_or, or_and_right, or_assoc]

theorem mem_portsFrom {start stop key : ℤ} : key ∈ portsFrom start stop ↔ start ≤ key ∧ key ≤ stop := by
  simp only [portsFrom, List.mem_map, List.mem_range]
  constructor
  · rintro ⟨k, bound, rfl⟩
    omega
  · rintro ⟨low, high⟩
    exact ⟨(key - start).toNat, by omega, by omega⟩

/-- The port loop adds the rule under exactly the keys of the interval. -/
theorem addToTable_matches (table : PortTable) (start stop : ℤ) (default : LocalCidrDefault) (rule : Rule)
    (packet : Packet) (remote : PeerIdentity) (key : ℤ) :
    (∃ ca, (addToTable table start stop default rule).get key = some ca ∧
        ca.matches contains packet remote = true) ↔
      (∃ ca, table.get key = some ca ∧ ca.matches contains packet remote = true) ∨
        ((start ≤ key ∧ key ≤ stop) ∧ rule.EndpointsAdmit contains default packet remote) := by
  have adds := fun ca => addToCaRule_matches contains ca default rule packet remote
  rw [← mem_portsFrom, addToTable]
  -- The table is the loop's accumulator, so the induction is over any table it has reached.
  induction portsFrom start stop generalizing table with
  | nil => simp
  | cons port rest ih =>
    have filed := HashMap.exists_get_upsert_iff (P := fun ca => ca.matches contains packet remote = true)
      (CaRule.not_matches_empty contains packet remote) adds table port key
    rw [List.foldl_cons]
    refine (ih _).trans ?_
    rw [filed, List.mem_cons, or_and_right, or_assoc]

theorem portTableMatches_iff (table : PortTable) (packet : Packet) (incoming : Bool) (remote : PeerIdentity) :
    portTableMatches contains table packet incoming remote = true ↔
      (∃ ca, table.get (portKey packet incoming) = some ca ∧ ca.matches contains packet remote = true) ∨
      (∃ ca, table.get portAny = some ca ∧ ca.matches contains packet remote = true) := by
  simp only [portTableMatches, Bool.or_eq_true, Option.any_eq_true]

/-- The interval `start..=stop` lets the packet's key in, or is open to every port. -/
def IntervalAdmits (start stop : ℤ) (packet : Packet) (incoming : Bool) : Prop :=
  (start ≤ portKey packet incoming ∧ portKey packet incoming ≤ stop) ∨ (start ≤ portAny ∧ portAny ≤ stop)

theorem portTableMatches_addToTable (table : PortTable) (start stop : ℤ) (default : LocalCidrDefault)
    (rule : Rule) (packet : Packet) (incoming : Bool) (remote : PeerIdentity) :
    portTableMatches contains (addToTable table start stop default rule) packet incoming remote = true ↔
      portTableMatches contains table packet incoming remote = true ∨
        (IntervalAdmits start stop packet incoming ∧ rule.EndpointsAdmit contains default packet remote) := by
  simp only [portTableMatches_iff, addToTable_matches, IntervalAdmits, or_and_right]
  simp only [or_assoc, or_left_comm, or_comm]

/-- Filing a rule in its protocol's table is seen by the packets of that protocol only. -/
theorem fileIn_matches (dir : Direction) {update : PortTable → PortTable} {rule : Rule} {packet : Packet}
    {incoming : Bool} {remote : PeerIdentity} {C : Prop} (known : ∀ number, rule.proto ≠ .other number)
    (adds : ∀ table, portTableMatches contains (update table) packet incoming remote = true ↔
      portTableMatches contains table packet incoming remote = true ∨ C) :
    (RuleSetBuilder.fileIn dir rule.proto update).matches contains packet incoming remote = true ↔
      dir.matches contains packet incoming remote = true ∨ (rule.ProtoAdmits packet ∧ C) := by
  simp only [Direction.matches, Bool.or_eq_true, Rule.ProtoAdmits]
  cases proto : rule.proto with
  | other number => exact absurd proto (known number)
  | any =>
    simp only [RuleSetBuilder.fileIn, adds, true_or, true_and]
    exact or_right_comm
  | tcp | udp | icmp | icmpV6 =>
    cases packet.protocol <;> simp [RuleSetBuilder.fileIn, adds, Protocol.isIcmp, or_assoc]

end Levels

/-! ## The whole builder -/

namespace RuleSetBuilder

theorem addRule_eq_ok_iff (b b' : RuleSetBuilder) (rule : Rule) :
    b.addRule rule = .ok b' ↔ ∃ bounds, portBounds rule.port = .ok bounds ∧
      (∀ number, rule.proto ≠ .other number) ∧ b.file rule (filedBounds rule bounds) = b' := by
  rw [addRule]
  cases portBounds rule.port with
  | error => simp
  | ok bounds => cases rule.proto <;> simp

theorem accepted_iff (rule : Rule) : rule.Accepted ↔
    (∃ bounds, portBounds rule.port = .ok bounds) ∧ ∀ number, rule.proto ≠ .other number := by
  constructor
  · intro accepted
    obtain ⟨_, added⟩ := accepted (new [] false false)
    obtain ⟨bounds, ports, known, _⟩ := (addRule_eq_ok_iff _ _ _).mp added
    exact ⟨⟨bounds, ports⟩, known⟩
  · rintro ⟨⟨bounds, ports⟩, known⟩ b
    exact ⟨_, (addRule_eq_ok_iff _ _ _).mpr ⟨bounds, ports, known, rfl⟩⟩

/-- The interval an accepted rule is filed under lets in what its ports, read on their own, do. -/
theorem intervalAdmits_filedBounds {rule : Rule} {bounds : ℤ × ℤ} (ports : portBounds rule.port = .ok bounds)
    (packet : Packet) (incoming : Bool) :
    IntervalAdmits (filedBounds rule bounds).1 (filedBounds rule bounds).2 packet incoming ↔
      rule.PortAdmits packet incoming := by
  have covers : ∀ key, rule.PortCovers key ↔ bounds.1 ≤ key ∧ key ≤ bounds.2 := by
    intro key
    simp only [Rule.PortCovers, ports, Except.ok.injEq, Prod.ext_iff]
    constructor
    · rintro ⟨start, stop, ⟨rfl, rfl⟩, inside⟩
      exact inside
    · intro inside
      exact ⟨bounds.1, bounds.2, ⟨rfl, rfl⟩, inside⟩
  simp only [Rule.PortAdmits, covers, IntervalAdmits]
  rcases Bool.eq_false_or_eq_true (portIgnored rule) with ignored | kept
  · have icmp : rule.proto.isIcmp = true := (Bool.and_eq_true_iff.mp ignored).1
    simp [filedBounds, ignored, icmp]
  · rw [filedBounds, kept, if_neg Bool.false_ne_true]
    rcases Bool.eq_false_or_eq_true rule.proto.isIcmp with icmp | portful
    · have wildcard : rule.port = .any := by simpa [portIgnored, icmp] using kept
      rw [wildcard] at ports
      cases ports
      simp
    · simp [portful]

@[simp] theorem file_default (b : RuleSetBuilder) (rule : Rule) (bounds : ℤ × ℤ) :
    (b.file rule bounds).defaultLocalCidr = b.defaultLocalCidr := by
  rw [file]
  split <;> rfl

variable (contains : Contains)

/-- An accepted rule adds exactly what it admits on its own. -/
theorem addRule_matches {b b' : RuleSetBuilder} {rule : Rule} (added : b.addRule rule = .ok b')
    (packet : Packet) (incoming : Bool) (remote : PeerIdentity) :
    b'.build.matches contains packet incoming remote = true ↔
      b.build.matches contains packet incoming remote = true ∨
        rule.Admits contains b.defaultLocalCidr packet incoming remote := by
  obtain ⟨bounds, ports, known, rfl⟩ := (addRule_eq_ok_iff _ _ _).mp added
  have filed := fun dir => fileIn_matches contains dir known (fun table =>
    portTableMatches_addToTable contains table (filedBounds rule bounds).1 (filedBounds rule bounds).2
      b.defaultLocalCidr rule packet incoming remote)
  simp only [intervalAdmits_filedBounds ports] at filed
  simp only [Rule.Admits, RuleSet.matches, build, file]
  cases side : rule.incoming with
  | true =>
    cases incoming with
    | true => simpa using filed b.inbound
    | false => simp
  | false =>
    cases incoming with
    | true => simp
    | false => simpa using filed b.outbound

/-- After any sequence of `add_rule` calls on a builder, the tree matches what it matched before or
what some accepted rule of the sequence admits. -/
theorem addRules_matches (b : RuleSetBuilder) (rules : List Rule) (packet : Packet) (incoming : Bool)
    (remote : PeerIdentity) :
    (b.addRules rules).build.matches contains packet incoming remote = true ↔
      b.build.matches contains packet incoming remote = true ∨
        ∃ rule ∈ rules, rule.Accepted ∧ rule.Admits contains b.defaultLocalCidr packet incoming remote := by
  induction rules generalizing b with
  | nil => simp [addRules]
  | cons rule rest ih =>
    cases added : b.addRule rule with
    | error error =>
      have refused : ¬ rule.Accepted := by
        intro accepted
        obtain ⟨b', ok⟩ := accepted b
        rw [added] at ok
        cases ok
      have skip : b.addRules (rule :: rest) = b.addRules rest := by simp [addRules, added]
      simp only [skip, ih, List.mem_cons, exists_eq_or_imp, refused, false_and, false_or]
    | ok b' =>
      have go : b.addRules (rule :: rest) = b'.addRules rest := by simp [addRules, added]
      obtain ⟨bounds, ports, known, same⟩ := (addRule_eq_ok_iff _ _ _).mp added
      have accepted : rule.Accepted := (accepted_iff rule).mpr ⟨⟨bounds, ports⟩, known⟩
      have default : b'.defaultLocalCidr = b.defaultLocalCidr := by rw [← same, file_default]
      simp only [go, ih, addRule_matches contains added, default, List.mem_cons, exists_eq_or_imp,
        accepted, true_and, or_assoc]

theorem new_matches (assigned : List IpNet) (hasUnsafe defaultAny : Bool) (packet : Packet) (incoming : Bool)
    (remote : PeerIdentity) :
    (new assigned hasUnsafe defaultAny).build.matches contains packet incoming remote = false := by
  cases incoming <;> cases packet with
  | mk _ _ _ _ protocol _ =>
    cases protocol <;> simp [new, build, RuleSet.matches, Direction.matches, portTableMatches]

/-- Rule compilation preserves meaning: the built tree matches a packet if and only if some accepted
rule of the sequence, read on its own, admits it. -/
theorem build_matches_iff (assigned : List IpNet) (hasUnsafe defaultAny : Bool) (rules : List Rule)
    (packet : Packet) (incoming : Bool) (remote : PeerIdentity) :
    ((new assigned hasUnsafe defaultAny).addRules rules).build.matches contains packet incoming remote = true ↔
      ∃ rule ∈ rules, rule.Accepted ∧
        rule.Admits contains (new assigned hasUnsafe defaultAny).defaultLocalCidr packet incoming remote := by
  rw [addRules_matches, new_matches]
  simp

end RuleSetBuilder

end Nebula
