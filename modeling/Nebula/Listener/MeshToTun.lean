import Nebula.Firewall.Concurrent
import Nebula.Listener.Packet
import Nebula.Protocol.LighthouseSender

/-! # From the mesh to the tun device

`mesh_to_tun` beside the other tasks of a listener. For each packet it takes its locks one after
another: to receive the packet, to look up its sender's identity, and those of `evaluate`. What it receives
carries the address of the sender and not its tunnel, so the identity is that of whichever tunnel the
address points to by then. A trace remembers which tunnel decrypted each packet on its way.
-/

namespace Nebula.Listener

open Rust

/-! ## Identities -/

/-- `to_ipnet`, which expects a prefix length that is valid for the family. -/
def toIpnet (n : Network) : Exec IpNet :=
  match IpNet.new n.addr n.prefixLen with
  | some net => .ok net
  | none => .error .expect

def toHostRoute (n : Network) : IpNet := .host n.addr

def peerIdentity (info : PeerInfo) (caName caSha : String) : Exec PeerIdentity := do
  let unsafeNetworks ← info.unsafeNetworks.mapM toIpnet
  return {
    name := info.name, groups := info.groups, caName, caSha,
    vpnNetworks := info.networks.map toHostRoute, unsafeNetworks }

/-- The identity of the holder of a certificate. -/
def identityOf (cert : Certificate) (caName caSha : String) : Exec PeerIdentity :=
  peerIdentity
    ⟨cert.details.name, cert.details.groups, cert.details.networks, cert.details.unsafeNetworks⟩ caName caSha

/-! ## The task -/

/-- Where `mesh_to_tun` is between two of its locks. -/
inductive Progress where
  | receiving
  | parsed (src : IpAddr) (bytes : Bytes) (packet : Packet)
  | identified (bytes : Bytes) (packet : Packet) (peer : PeerIdentity)
  /-- It is in a call of `evaluate`. -/
  | evaluating (bytes : Bytes) (running : Firewall.Running)
  | unwound (cause : Panic)

/-- What the tasks of a listener share, and how far `mesh_to_tun` is. -/
structure Node (lib : Externals) where
  session : lib.Inner
  firewall : Firewall
  caName : String
  caSha : String
  progress : Progress

/-- A packet the task evaluated, as whose, the answer, and what it wrote to the tun device. -/
structure Evaluated where
  packet : Packet
  peer : PeerIdentity
  answer : Exec (Except DropReason Unit)
  written : Option Bytes
deriving DecidableEq

inductive Event where
  /-- A section of another task under the lock of the session. -/
  | session (event : SessionEvent)
  /-- A section of another task's call of `evaluate`, whatever that call has read. -/
  | firewall (running : Firewall.Running)
  | reload (rules : RuleSet)
  /-- The next section of `mesh_to_tun`, with what the clock says, should it ask. -/
  | meshToTun (now : Instant)

section Task

variable (lib : Externals) (contains : Contains) (latest : Instant)

def meshToTun (node : Node lib) (now : Instant) : Node lib × Option Evaluated :=
  match node.progress with
  | .receiving =>
    match recv lib node.session with
    | (session, none) => ({ node with session }, none)
    | (session, some (src, bytes)) =>
      match parse bytes true with
      | .error cause => ({ node with session, progress := .unwound cause }, none)
      | .ok none => ({ node with session }, none)
      | .ok (some packet) => ({ node with session, progress := .parsed src bytes packet }, none)
  | .parsed src bytes packet =>
    match peerInfo lib node.session src with
    | none => ({ node with progress := .receiving }, none)
    | some info =>
      match peerIdentity info node.caName node.caSha with
      | .error cause => ({ node with progress := .unwound cause }, none)
      | .ok peer => ({ node with progress := .identified bytes packet peer }, none)
  -- Nothing looks at what the clock said before the ruleset is read, so that the two reads can be one step.
  | .identified bytes packet peer =>
    ({ node with progress := .evaluating bytes (node.firewall.snapshot now packet true peer) }, none)
  | .evaluating bytes running =>
    let (firewall, running) := running.proceed contains latest node.firewall
    let ⟨call, phase⟩ := running
    match phase with
    | .looking | .recording => ({ node with firewall, progress := .evaluating bytes running }, none)
    | .returned (.error cause) =>
      ({ node with firewall, progress := .unwound cause }, some ⟨call.packet, call.remote, .error cause, none⟩)
    | .returned (.ok verdict) =>
      ({ node with firewall, progress := .receiving },
        some ⟨call.packet, call.remote, .ok verdict, if verdict = .ok () then some bytes else none⟩)
  | .unwound _ => (node, none)

/-- A listener, one section of its tasks after another. -/
def listener : Machine.System (Node lib) Event (Option Evaluated) where
  step node
    | .session event => ({ node with session := ((session lib).step node.session event).1 }, none)
    | .firewall running => ({ node with firewall := (running.proceed contains latest node.firewall).1 }, none)
    | .reload rules => ({ node with firewall := node.firewall.reload rules }, none)
    | .meshToTun now => meshToTun lib contains latest node now

end Task

/-- What the task evaluates is the packet of its call, and it writes what the firewall lets in. -/
theorem evaluating_of_evaluated {lib : Externals} {contains : Contains} {latest : Instant} {node : Node lib}
    {now : Instant} {evaluated : Evaluated} (answered : (meshToTun lib contains latest node now).2 = some evaluated) :
    ∃ bytes running, node.progress = .evaluating bytes running ∧ running.call.packet = evaluated.packet ∧
      running.call.remote = evaluated.peer ∧
      evaluated.written = if evaluated.answer = .ok (.ok ()) then some bytes else none := by
  unfold meshToTun at answered
  rcases doing : node.progress with _ | ⟨src, bytes, packet⟩ | ⟨bytes, packet, peer⟩ | ⟨bytes, running⟩ | cause
  · simp only [doing] at answered
    repeat' split at answered
    all_goals cases answered
  · simp only [doing] at answered
    repeat' split at answered
    all_goals cases answered
  · simp [doing] at answered
  · simp only [doing] at answered
    refine ⟨bytes, running, rfl, ?_⟩
    rw [← (running.proceed_frame contains latest node.firewall).2.2]
    split at answered
    · cases answered
    · cases answered
    · cases answered
      exact ⟨rfl, rfl, rfl⟩
    · cases answered
      refine ⟨rfl, rfl, ?_⟩
      simp only [Except.ok.injEq]
  · simp [doing] at answered

/-! ## Which tunnel decrypted a packet -/

/-- A tunnel and the index it is filed under. -/
structure Origin where
  index : UInt32
  peer : Peer
deriving DecidableEq, Repr

/-- What a section puts into the inbox, with the tunnel that decrypted it. -/
def delivers (lib : Externals) (inner : lib.Inner) : SessionEvent → Option (Origin × Bytes)
  | .datagram datagram _ _ =>
    match Header.parse datagram with
    | .error _ => none
    | .ok hdr =>
      if hdr.type_ = Header.message then
        (openPacket lib inner hdr (datagram.take Header.len) (datagram.drop Header.len)).2.map
          fun (peer, bytes) => (⟨hdr.remoteIndex, peer⟩, bytes)
      else none
  | _ => none

/-- The sections of the session so far, and the origins of what is in its inbox and of the packet that
`mesh_to_tun` has in hand. -/
structure Trace where
  sections : List SessionEvent
  queue : List (Origin × Bytes)
  inHand : Option (Origin × Bytes)
  /-- How many sections came before the task's last lookup of an identity. -/
  lookup : ℕ

def Trace.new : Trace := ⟨[], [], none, 0⟩

/-- A section of the session takes the oldest item of the inbox or adds to it. -/
def Trace.after (lib : Externals) (trace : Trace) (inner : lib.Inner) (event : SessionEvent) : Trace :=
  { trace with
    sections := trace.sections ++ [event]
    queue := match event with
      | .recv => trace.queue.tail
      | event => trace.queue ++ (delivers lib inner event).toList }

/-- A listener that is watched; watching it changes nothing it does. -/
def traced (lib : Externals) (contains : Contains) (latest : Instant) :
    Machine.System (Node lib × Trace) Event (Option Evaluated) where
  step state event :=
    let (node, trace) := state
    let (next, evaluated) := (listener lib contains latest).step node event
    let trace := match event, node.progress with
      | .session event, _ => trace.after lib node.session event
      | .meshToTun _, .receiving =>
        { trace.after lib node.session .recv with inHand := trace.queue.head? }
      | .meshToTun _, .parsed src _ _ =>
        { trace.after lib node.session (.peerInfo src) with lookup := trace.sections.length }
      | _, _ => trace
    ((next, trace), evaluated)

section Delivery

variable {lib : Externals}

/-- The item of the inbox for a delivery. -/
def item (delivery : Origin × Bytes) : IpAddr × Bytes := (delivery.1.peer.vpnAddr, delivery.2)

theorem inbox_handleDatagram (inner : lib.Inner) (datagram : Bytes) (source : SocketAddr) (ambient : Ambient) :
    (handleDatagram lib inner datagram source ambient).1.inbox =
      inner.inbox ++ (delivers lib inner (.datagram datagram source ambient)).toList.map item := by
  unfold handleDatagram delivers
  split
  next failure parsed => simp [parsed]
  next hdr parsed =>
    simp only [parsed]
    have unopened := (tunnelsOnly_openPacket inner hdr (datagram.take Header.len)
      (datagram.drop Header.len)).inbox
    split_ifs with handshake message message lighthouse
    · rw [handshake] at message
      cases message
    · rw [(tunnelsOnly_handleHandshake ..).inbox]
      simp
    · unfold handleMessage
      rcases ran : openPacket lib inner hdr (datagram.take Header.len) (datagram.drop Header.len) with
        ⟨next, _ | ⟨peer, bytes⟩⟩
      · rw [ran] at unopened
        simpa using unopened
      · rw [ran] at unopened
        simpa [item] using unopened
    · unfold handleLighthousePacket
      rcases ran : openPacket lib inner hdr (datagram.take Header.len) (datagram.drop Header.len) with
        ⟨next, _ | ⟨peer, bytes⟩⟩
      · rw [ran] at unopened
        simpa using unopened
      · rw [ran] at unopened
        simpa using (handleLighthouse_spec next bytes).2.2.2.trans unopened
    · simp

/-- The inbox holds what the trace says, after every section. -/
theorem inbox_after {inner : lib.Inner} {trace : Trace} (event : SessionEvent)
    (filled : inner.inbox = trace.queue.map item) :
    ((session lib).step inner event).1.inbox = (trace.after lib inner event).queue.map item := by
  cases event with
  | datagram datagram source ambient =>
    rw [step_datagram, inbox_handleDatagram, filled]
    exact List.map_append.symm
  | recv =>
    change (recv lib inner).1.inbox = trace.queue.tail.map item
    rw [List.map_tail, ← filled]
    unfold recv
    split
    next empty => rw [empty, List.tail_nil]
    next first rest inbox => rw [inbox, List.tail_cons]
  | openHandshake vpnAddr remote waiter ambient =>
    change (openHandshake lib inner vpnAddr remote waiter ambient).1.inbox = _
    have same := (tunnelsOnly_openHandshake inner vpnAddr remote waiter ambient).inbox
    simpa [same, Trace.after, delivers] using filled
  | sendTyped vpnAddr type_ payload =>
    change (sendTyped lib inner vpnAddr type_ payload).1.inbox = _
    have same := (tunnelsOnly_sendTyped inner vpnAddr type_ payload).inbox
    simpa [same, Trace.after, delivers] using filled
  | resolveKnown vpnAddr => simpa [session, Trace.after, delivers] using filled
  | awaitLighthouse vpnAddr waiter => simpa [session, awaitLighthouse, Trace.after, delivers] using filled
  | peerInfo vpnAddr => simpa [session, Trace.after, delivers] using filled

end Delivery

end Nebula.Listener
