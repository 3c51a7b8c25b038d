import Nebula.Firewall.Rule.Tree

/-! # Compiling rules into the tree

`RuleSetBuilder::add_rule` and its helpers. A refused rule returns its error and leaves the builder
as it was; an accepted one is filed under every port key of its interval, and the advisory warnings
are recorded beside it.
-/

namespace Nebula

open Rust

inductive PortSpec where
  | any
  | fragment
  | single (port : UInt16)
  | range (start stop : UInt16)
deriving DecidableEq, Repr

inductive LocalCidrSpec where
  | unset
  | any
  | net (net : IpNet)
deriving DecidableEq, Repr

inductive RuleError where
  | unknownProtocol (proto : Protocol)
  | invalidPortRange (start stop : UInt16)
deriving DecidableEq, Repr

inductive RuleWarning where
  | groupsShadowedByAny (incoming : Bool)
  | hostAnyShadowsGroups (incoming : Bool) (groups : List String)
  | hostAnyShadowsCidr (incoming : Bool) (cidr : IpNet)
  | groupsAnyShadowsHost (incoming : Bool) (host : String)
  | groupsAnyShadowsCidr (incoming : Bool) (cidr : IpNet)
  | icmpPortIgnored (incoming : Bool) (port : PortSpec)
deriving DecidableEq, Repr

inductive LocalCidrDefault where
  | any
  | nets (nets : List IpNet)
deriving DecidableEq, Repr

/-- The arguments of one `add_rule` call. -/
structure Rule where
  incoming : Bool
  proto : Protocol
  port : PortSpec
  groups : List String
  host : Option String
  cidr : Option IpNet
  localCidr : LocalCidrSpec
  caName : Option String
  caSha : Option String
deriving DecidableEq, Repr

structure RuleSetBuilder where
  inbound : Direction
  outbound : Direction
  defaultLocalCidr : LocalCidrDefault
  warnings : List RuleWarning

def portBounds : PortSpec → Except RuleError (ℤ × ℤ)
  | .any => .ok (portAny, portAny)
  | .fragment => .ok (portFragment, portFragment)
  | .single port => .ok (port.toNat, port.toNat)
  | .range start stop =>
      if stop < start then .error (.invalidPortRange start stop) else .ok (start.toNat, stop.toNat)

def isAny (groups : List String) (host : Option String) (cidr : Option IpNet) : Bool :=
  (groups.isEmpty && host.isNone && cidr.isNone) || groups.any (· == "any") || host == some "any"

def mergeLocalCidr (lc : LocalCidr) (default : LocalCidrDefault) : LocalCidrSpec → LocalCidr
  | .any => { lc with any := true }
  | .net net => { lc with nets := lc.nets ++ [net] }
  | .unset =>
    match default with
    | .any => { lc with any := true }
    | .nets nets => { lc with nets := lc.nets ++ nets }

/-- Merge into the first entry for `net`, or file a new one. -/
def mergeCidr (cidrs : List (IpNet × LocalCidr)) (net : IpNet) (merge : LocalCidr → LocalCidr) :
    List (IpNet × LocalCidr) :=
  match cidrs with
  | [] => [(net, merge {})]
  | (other, lc) :: rest =>
    if other = net then (other, merge lc) :: rest else (other, lc) :: mergeCidr rest net merge

def addGroups (pr : PeerRule) (merge : LocalCidr → LocalCidr) (groups : List String) : PeerRule :=
  if groups.isEmpty then pr else { pr with groups := pr.groups ++ [(groups, merge {})] }

def addHost (pr : PeerRule) (merge : LocalCidr → LocalCidr) : Option String → PeerRule
  | some host => { pr with hosts := pr.hosts.upsert host {} merge }
  | none => pr

def addCidr (pr : PeerRule) (merge : LocalCidr → LocalCidr) : Option IpNet → PeerRule
  | some cidr => { pr with cidrs := mergeCidr pr.cidrs cidr merge }
  | none => pr

/-- The three selectors of a rule are filed independently, each with the rule's local network. -/
def addToPeerRule (pr : PeerRule) (default : LocalCidrDefault) (rule : Rule) : PeerRule :=
  let merge lc := mergeLocalCidr lc default rule.localCidr
  if isAny rule.groups rule.host rule.cidr then { pr with any := some (merge (pr.any.getD {})) }
  else addCidr (addHost (addGroups pr merge rule.groups) merge rule.host) merge rule.cidr

def addCaSha (ca : CaRule) (add : PeerRule → PeerRule) : Option String → CaRule
  | some sha => { ca with caShas := ca.caShas.upsert sha {} add }
  | none => ca

def addCaName (ca : CaRule) (add : PeerRule → PeerRule) : Option String → CaRule
  | some name => { ca with caNames := ca.caNames.upsert name {} add }
  | none => ca

def addToCaRule (ca : CaRule) (default : LocalCidrDefault) (rule : Rule) : CaRule :=
  let add pr := addToPeerRule pr default rule
  if rule.caSha.isNone && rule.caName.isNone then { ca with any := some (add (ca.any.getD {})) }
  else addCaName (addCaSha ca add rule.caSha) add rule.caName

/-- The ports `start..=stop`. -/
def portsFrom (start stop : ℤ) : List ℤ := (List.range (stop + 1 - start).toNat).map fun k : ℕ => start + k

/-- The port loop of `add_rule` on one table. -/
def addToTable (table : PortTable) (start stop : ℤ) (default : LocalCidrDefault) (rule : Rule) : PortTable :=
  (portsFrom start stop).foldl (fun table port => table.upsert port {} (addToCaRule · default rule)) table

namespace RuleSetBuilder

def new (assignedNetworks : List IpNet) (hasUnsafeNetworks defaultLocalCidrAny : Bool) : RuleSetBuilder where
  inbound := {}
  outbound := {}
  defaultLocalCidr :=
    if !hasUnsafeNetworks || defaultLocalCidrAny then .any else .nets assignedNetworks
  warnings := []

/-- The warnings of `check_sanity`, in the order the source pushes them. -/
def checkSanity (rule : Rule) : List RuleWarning :=
  let groupsHasAny := rule.groups.any (· == "any")
  (if groupsHasAny && 1 < rule.groups.length then [.groupsShadowedByAny rule.incoming] else []) ++
  (if rule.host == some "any" then
    (if rule.groups.isEmpty then [] else [.hostAnyShadowsGroups rule.incoming rule.groups]) ++
      (rule.cidr.map (RuleWarning.hostAnyShadowsCidr rule.incoming)).toList
  else []) ++
  (if groupsHasAny then
    ((rule.host.filter (· != "any")).map (RuleWarning.groupsAnyShadowsHost rule.incoming)).toList ++
      (rule.cidr.map (RuleWarning.groupsAnyShadowsCidr rule.incoming)).toList
  else [])

/-- The table of a direction that rules of a protocol are filed in. -/
def fileIn (dir : Direction) (proto : Protocol) (update : PortTable → PortTable) : Direction :=
  match proto with
  | .any => { dir with anyProto := update dir.anyProto }
  | .tcp => { dir with tcp := update dir.tcp }
  | .udp => { dir with udp := update dir.udp }
  | .icmp | .icmpV6 => { dir with icmp := update dir.icmp }
  | .other _ => dir

/-- ICMP has no ports: whatever port such a rule asks for, it is filed under the wildcard. -/
def portIgnored (rule : Rule) : Bool := rule.proto.isIcmp && rule.port != .any

def filedBounds (rule : Rule) (bounds : ℤ × ℤ) : ℤ × ℤ :=
  if portIgnored rule then (portAny, portAny) else bounds

/-- `add_rule` past its two checks: the warnings and the port loop. -/
def file (b : RuleSetBuilder) (rule : Rule) (bounds : ℤ × ℤ) : RuleSetBuilder :=
  let update table := addToTable table bounds.1 bounds.2 b.defaultLocalCidr rule
  let ignored := if portIgnored rule then [.icmpPortIgnored rule.incoming rule.port] else []
  let warnings := b.warnings ++ ignored ++ checkSanity rule
  if rule.incoming then { b with inbound := fileIn b.inbound rule.proto update, warnings }
  else { b with outbound := fileIn b.outbound rule.proto update, warnings }

def addRule (b : RuleSetBuilder) (rule : Rule) : Except RuleError RuleSetBuilder :=
  match portBounds rule.port with
  | .error error => .error error
  | .ok bounds =>
    match rule.proto with
    | .other _ => .error (.unknownProtocol rule.proto)
    | _ => .ok (b.file rule (filedBounds rule bounds))

def build (b : RuleSetBuilder) : RuleSet := ⟨b.inbound, b.outbound⟩

/-- A sequence of `add_rule` calls whose errors the caller drops. -/
def addRules (b : RuleSetBuilder) (rules : List Rule) : RuleSetBuilder :=
  rules.foldl (fun b rule => match b.addRule rule with | .ok b => b | .error _ => b) b

end RuleSetBuilder

end Nebula
