import Nebula.Listener.Arrivals
import Nebula.Protocol.MeshDelivery

/-! # From one tun device to the other

Two listeners, each with the session it is given, and everything between them: the tasks go on in any order, and the
network hands either session whatever datagrams it likes, but forges none. What one host's `mesh_to_tun` writes
to its tun device the other host's `tun_to_mesh` has read from its own, both firewalls have let it through, and it
is written once at most.
-/

namespace Nebula.Listener

open Rust Machine

/-! ## The two listeners -/

/-- What a listener does next. Nothing else uses its session. -/
inductive NodeEvent where
  /-- The receive loop of the session. -/
  | datagram (bytes : Bytes) (source : SocketAddr) (ambient : Ambient)
  /-- The call of `connect` that `tun_to_mesh` waits for, or has waited for. -/
  | advance (i : ℕ) (ambient : Ambient)
  | timeOut (i : ℕ)
  | meshToTun (now : Instant)
  | tunToMesh (read : Bytes) (now : Instant)

def NodeEvent.gateway : NodeEvent → GatewayEvent
  | .datagram bytes source ambient => .session (.other (.datagram bytes source ambient))
  | .advance i ambient => .session (.advance i ambient)
  | .timeOut i => .session (.timeOut i)
  | .meshToTun now => .meshToTun now
  | .tunToMesh read now => .tunToMesh read now

variable {lib : Externals}

/-- The section of the session that a call of `connect` is at. -/
def callOnMesh (side : Side) (inner : lib.Inner) (i : ℕ) (caller : Caller) (ambient : Ambient) : List MeshEvent :=
  match caller.stage with
  | .unknown => [.call side (.awaitLighthouse caller.vpnAddr i) rfl]
  | .asking _ (lighthouse :: _) =>
    [.call side (.sendTyped lighthouse Header.lighthouse
      (lib.metaCodec.encode (Lighthouse.hostQuery caller.vpnAddr))) rfl]
  | .opening remote =>
    match allocateIndex lib inner ambient.subsecNanos with
    | none => []
    | some _ => [.call side (.openHandshake caller.vpnAddr remote i ambient) rfl]
  | _ => []

theorem isCall_recv : SessionEvent.recv.isCall = true := rfl

/-- What the session goes through, as a session of the two. -/
def NodeEvent.onMesh (side : Side) (g : Gateway lib) : NodeEvent → List MeshEvent
  | .datagram bytes source ambient => [.deliver side bytes source ambient]
  | .advance i ambient =>
    match g.callers[i]? with
    | none => []
    | some caller => callOnMesh side g.node.session i caller ambient
  | .timeOut _ => []
  | .meshToTun _ =>
    match g.node.progress with
    | .receiving => [.call side .recv isCall_recv]
    | .parsed .. | .identified .. | .evaluating .. | .unwound _ => []
  | .tunToMesh _ _ =>
    match g.outgoing with
    | .sending raw packet _ => [.call side (.sendTyped packet.remoteAddr Header.message raw) rfl]
    | .reading | .lookingUp .. | .connecting .. | .identifying .. | .identified .. | .evaluating .. | .unwound _ => []

abbrev OverlayEvent := Side × NodeEvent

section System

variable (lib) (contains : Contains) (latest : Instant)

def overlay : System (Side → Gateway lib) OverlayEvent GatewayOutput where
  step nodes event :=
    let (next, output) := (gateway lib contains latest).step (nodes event.1) event.2.gateway
    (Function.update nodes event.1 next, output)

/-- What `Listener::new` is given. -/
structure BuiltListener where
  session : BuiltSession
  firewall : Firewall
  caName : String
  caSha : String

def BuiltListener.start (built : BuiltListener) : Gateway lib :=
  .start lib built.session.start built.firewall built.caName built.caSha

/-- The run of the two sessions. -/
def meshRun (built : Side → BuiltListener) (events : List OverlayEvent) : List MeshEvent :=
  (overlay lib contains latest).gather (fun nodes event => event.2.onMesh event.1 (nodes event.1))
    (fun side => (built side).start lib) events

/-- The handshakes that the two sessions open and answer. -/
abbrev overlayHandshakes (built : Side → BuiltListener) (events : List OverlayEvent) :
    History lib.snow.HandshakeState :=
  meshHandshakes lib (fun side => (built side).session) (meshRun lib contains latest built events)

/-- What a listener does of a run. -/
def eventsOf (side : Side) (events : List OverlayEvent) : List GatewayEvent :=
  events.filterMap fun event => if event.1 = side then some event.2.gateway else none

/-- The run of one listener. -/
def logOf (built : Side → BuiltListener) (events : List OverlayEvent) (side : Side) : GatewayLog :=
  (gateway lib contains latest).log ((built side).start lib) (eventsOf side events)

end System

/-! ## One step, on the sessions -/

section Step

variable {contains : Contains} {latest : Instant} {side : Side} {g : Gateway lib}

theorem side_of_onMesh (event : NodeEvent) : ∀ call ∈ event.onMesh side g, call.side = side := by
  intro call member
  cases event with
  | timeOut i => exact absurd member List.not_mem_nil
  | datagram bytes source ambient => rw [List.mem_singleton.mp member]; rfl
  | advance i ambient =>
    unfold NodeEvent.onMesh callOnMesh at member
    repeat' split at member
    all_goals grind [MeshEvent.side]
  | meshToTun now =>
    unfold NodeEvent.onMesh at member
    split at member
    all_goals grind [MeshEvent.side]
  | tunToMesh read now =>
    unfold NodeEvent.onMesh at member
    split at member
    all_goals grind [MeshEvent.side]

/-- `connect` is still looking for an index. -/
theorem unfinished_iff (inner : lib.Inner) (v : IpAddr) (remote : SocketAddr) (i : WaiterId) (ambient : Ambient) :
    (openHandshake lib inner v remote i ambient).2.1 = none ↔ allocateIndex lib inner ambient.subsecNanos = none := by
  unfold openHandshake
  dsimp only
  split
  next free => exact iff_of_true rfl free
  next index allocated =>
    have some : allocateIndex lib inner ambient.subsecNanos = .some index := allocated
    rw [some]
    refine iff_of_false ?_ nofun
    split
    · exact nofun
    · exact nofun

theorem exec_advance (i : ℕ) (ambient : Ambient) (caller : Caller) (callers : List Caller) (inner : lib.Inner) :
    (advance lib ⟨inner, callers⟩ i caller ambient).1.inner =
      (session lib).exec inner ((callOnMesh side inner i caller ambient).map MeshEvent.step) := by
  obtain ⟨connects, v, stage⟩ := caller
  cases stage with
  | begun =>
    unfold advance
    dsimp only
    split
    · rfl
    · rfl
  | unknown => rfl
  | asking heard lighthouses =>
    cases lighthouses with
    | nil =>
      cases heard with
      | nothing | value | dropped => rfl
    | cons lighthouse rest =>
      unfold advance
      change _ = (sendTyped lib inner lighthouse Header.lighthouse _).1
      dsimp only
      split
      next ran => rw [ran]; rfl
      next ran => rw [ran]; rfl
      next ran => rw [ran]; rfl
  | opening remote =>
    have unfinished := unfinished_iff inner v remote i ambient
    unfold advance callOnMesh
    dsimp only
    rcases allocated : allocateIndex lib inner ambient.subsecNanos with _ | index
    · have none := unfinished.mpr allocated
      rcases ran : openHandshake lib inner v remote i ambient with ⟨after, result, effects⟩
      rw [ran] at none
      obtain rfl : result = Option.none := none
      rfl
    · change _ = (openHandshake lib inner v remote i ambient).1
      rcases ran : openHandshake lib inner v remote i ambient with ⟨after, _ | (failure | _), effects⟩
      · rw [ran, allocated] at unfinished
        cases unfinished.mp rfl
      · rfl
      · rfl
  | awaiting heard =>
    cases heard with
    | nothing | value | dropped => rfl
  | resolved | returned => rfl

/-- The message that was sealed, and for which address. -/
def messageOf (item : Sealing) : Option (IpAddr × Bytes) :=
  if item.header.type_ = Header.message then some (item.dest, item.payload) else none

def Forwarded.message (forwarded : Forwarded) : IpAddr × Bytes := (forwarded.packet.remoteAddr, forwarded.raw)

theorem sealing_of_failed {inner : lib.Inner} {v : IpAddr} {type_ : UInt8} {payload : Bytes}
    (failed : ∃ failure, (sendTyped lib inner v type_ payload).2 = .error failure) :
    sealing inner (.sendTyped v type_ payload) = [] := by
  obtain ⟨failure, failed⟩ := failed
  unfold sealing
  dsimp only
  rw [failed]
  cases sender inner (.sendTyped v type_ payload) with
  | none | some => rfl

theorem messages_of_sent {inner : lib.Inner} {v : IpAddr} {payload : Bytes} {sent : Bytes × SocketAddr}
    (ok : (sendTyped lib inner v Header.message payload).2 = .ok sent) :
    (sealing inner (.sendTyped v Header.message payload)).filterMap messageOf = [(v, payload)] := by
  obtain ⟨packet, dest⟩ := sent
  obtain ⟨i, peer, indexed, here, -⟩ := sendTyped_spec ok
  have seals : sender inner (.sendTyped v Header.message payload) = some (i, peer) := by
    simp [sender, indexed, Inner.tunnel_eq_some_iff.mpr here]
  unfold sealing
  dsimp only
  rw [ok, seals]
  rfl

/-- What goes to the lighthouses is no message. -/
theorem messages_lighthouse (inner : lib.Inner) (v : IpAddr) (payload : Bytes) :
    (sealing inner (.sendTyped v Header.lighthouse payload)).filterMap messageOf = [] := by
  refine List.filterMap_eq_nil_iff.mpr ?_
  intro item member
  obtain ⟨type_, peer, same, -, -, header⟩ := mem_sealing member
  obtain ⟨-, rfl, -⟩ := SessionEvent.sendTyped.inj same
  rw [messageOf, header]
  rfl

/-- A call of `connect` neither takes a packet nor sends a message. -/
theorem unheard_advance (i : ℕ) (ambient : Ambient) (caller : Caller) (inner : lib.Inner) :
    (session lib).gather taken inner ((callOnMesh side inner i caller ambient).map MeshEvent.step) = [] ∧
      ((session lib).gather sealing inner
        ((callOnMesh side inner i caller ambient).map MeshEvent.step)).filterMap messageOf = [] := by
  obtain ⟨connects, v, stage⟩ := caller
  cases stage with
  | asking heard lighthouses =>
    cases lighthouses with
    | nil => exact ⟨rfl, rfl⟩
    | cons lighthouse rest =>
      refine ⟨rfl, ?_⟩
      rw [show (session lib).gather sealing inner ((callOnMesh side inner i
        ⟨connects, v, .asking heard (lighthouse :: rest)⟩ ambient).map MeshEvent.step) = sealing inner _ ++ [] from rfl,
        List.append_nil]
      exact messages_lighthouse inner lighthouse _
  | opening remote =>
    unfold callOnMesh
    dsimp only
    cases allocateIndex lib inner ambient.subsecNanos with
    | none | some => exact ⟨rfl, rfl⟩
  | begun | unknown | awaiting | resolved | returned => exact ⟨rfl, rfl⟩

variable (contains latest side g) in
/-- The sections show what the listener takes from its session and what it sends over it. -/
structure Mirrored (event : NodeEvent) : Prop where
  session : ((gateway lib contains latest).step g event.gateway).1.node.session =
    (session lib).exec g.node.session ((event.onMesh side g).map MeshEvent.step)
  taken : (Nebula.session lib).gather taken g.node.session ((event.onMesh side g).map MeshEvent.step) =
    takes g event.gateway
  sealed : ((Nebula.session lib).gather sealing g.node.session
      ((event.onMesh side g).map MeshEvent.step)).filterMap messageOf =
    (forwards [(event.gateway, ((gateway lib contains latest).step g event.gateway).2)]).map Forwarded.message

theorem Mirrored.of_silent {event : NodeEvent} (silent : event.onMesh side g = [])
    (same : ((gateway lib contains latest).step g event.gateway).1.node.session = g.node.session)
    (nothing : takes g event.gateway = [])
    (quiet : forwards [(event.gateway, ((gateway lib contains latest).step g event.gateway).2)] = []) :
    Mirrored contains latest side g event := by
  constructor
  · rw [silent]
    exact same
  · rw [silent, nothing]
    rfl
  · rw [silent, quiet]
    rfl

theorem mirrored_advance (i : ℕ) (ambient : Ambient) : Mirrored contains latest side g (.advance i ambient) := by
  rcases here : g.callers[i]? with _ | caller
  · refine .of_silent ?_ ?_ rfl rfl
    · simp only [NodeEvent.onMesh, here]
    · simp only [NodeEvent.gateway, gateway, callers, here]
  · have calls : (NodeEvent.advance i ambient).onMesh side g = callOnMesh side g.node.session i caller ambient := by
      simp only [NodeEvent.onMesh, here]
    constructor
    · rw [calls]
      simp only [NodeEvent.gateway, gateway, callers, here]
      exact exec_advance i ambient caller g.callers g.node.session
    · rw [calls]
      exact (unheard_advance i ambient caller g.node.session).1
    · rw [calls]
      exact (unheard_advance i ambient caller g.node.session).2

theorem mirrored_meshToTun (now : Instant) : Mirrored contains latest side g (.meshToTun now) := by
  have quiet : forwards [(GatewayEvent.meshToTun now, ((gateway lib contains latest).step g (.meshToTun now)).2)] =
      [] := by
    unfold gateway
    dsimp only
    split
    · rfl
    · rfl
  by_cases idle : g.node.progress = .receiving
  · have calls : (NodeEvent.meshToTun now).onMesh side g = [.call side .recv isCall_recv] := by
      simp only [NodeEvent.onMesh, idle]
    constructor
    · rw [calls]
      exact session_receiving idle now
    · rw [calls]
      simp only [NodeEvent.gateway, takes, idle]
      exact List.append_nil _
    · rw [calls, NodeEvent.gateway, quiet]
      rfl
  · refine .of_silent ?_ (session_not_receiving idle now) ?_ quiet
    · dsimp only [NodeEvent.onMesh]
      split
      next doing => exact absurd doing idle
      all_goals rfl
    · dsimp only [NodeEvent.gateway, takes]
      split
      next doing => exact absurd doing idle
      all_goals rfl

theorem mirrored_tunToMesh (read : Bytes) (now : Instant) : Mirrored contains latest side g (.tunToMesh read now) := by
  by_cases cleared : ∃ raw packet peer, g.outgoing = .sending raw packet peer
  · obtain ⟨raw, packet, peer, cleared⟩ := cleared
    have calls : (NodeEvent.tunToMesh read now).onMesh side g =
        [.call side (.sendTyped packet.remoteAddr Header.message raw) rfl] := by
      simp only [NodeEvent.onMesh, cleared]
    constructor
    · rw [calls]
      exact session_sending cleared read now
    · rw [calls]
      rfl
    · rw [calls]
      change (sealing g.node.session (.sendTyped packet.remoteAddr Header.message raw) ++ []).filterMap messageOf =
        (forwards [(_, (tunToMesh lib contains latest g read now).2)]).map Forwarded.message
      rw [List.append_nil]
      rcases ran : sendTyped lib g.node.session packet.remoteAddr Header.message raw with ⟨after, failure | sent⟩
      · rw [sealing_of_failed ⟨failure, congrArg Prod.snd ran⟩]
        unfold tunToMesh
        rw [cleared]
        dsimp only
        rw [ran]
        cases failure with
        | err | panic => rfl
      · rw [messages_of_sent (congrArg Prod.snd ran)]
        unfold tunToMesh
        rw [cleared]
        dsimp only
        rw [ran]
        rfl
  · push Not at cleared
    refine .of_silent ?_ (session_not_sending cleared read now) rfl ?_
    · dsimp only [NodeEvent.onMesh]
      split
      next raw packet peer doing => exact absurd doing (cleared raw packet peer)
      all_goals rfl
    · dsimp only [NodeEvent.gateway, gateway]
      unfold tunToMesh
      split
      case h_7 raw packet peer doing => exact absurd doing (cleared raw packet peer)
      all_goals
        repeat' split
        all_goals rfl

theorem mirrored (event : NodeEvent) : Mirrored contains latest side g event := by
  cases event with
  | datagram | timeOut => exact ⟨rfl, rfl, rfl⟩
  | advance i ambient => exact mirrored_advance i ambient
  | meshToTun now => exact mirrored_meshToTun now
  | tunToMesh read now => exact mirrored_tunToMesh read now

end Step

/-! ## A whole run, on the sessions -/

section Run

variable {contains : Contains} {latest : Instant} {built : Side → BuiltListener}

theorem stepOf_onMesh (side other : Side) (g : Gateway lib) (event : NodeEvent) :
    (event.onMesh side g).flatMap (·.stepOf other) =
      if side = other then (event.onMesh side g).map MeshEvent.step else [] := by
  have at_side := @side_of_onMesh lib side g event
  generalize event.onMesh side g = calls at at_side ⊢
  induction calls with
  | nil => simp
  | cons call rest ih =>
    rw [List.forall_mem_cons] at at_side
    rw [List.flatMap_cons, ih at_side.2, MeshEvent.stepOf, at_side.1]
    split
    · rfl
    · rfl

theorem eventsOf_concat (side : Side) (events : List OverlayEvent) (event : OverlayEvent) :
    eventsOf side (events ++ [event]) =
      eventsOf side events ++ if event.1 = side then [event.2.gateway] else [] := by
  rw [eventsOf, List.filterMap_append]
  by_cases here : event.1 = side
  · simp [eventsOf, here]
  · simp [eventsOf, here]

variable (lib contains latest built) in
/-- The two sessions go through the run of the two sessions, and their records show what the listeners take and
send. -/
structure Carried (events : List OverlayEvent) (m : Mesh lib) (side : Side) : Prop where
  node : (overlay lib contains latest).exec (fun side => (built side).start lib) events side =
    (gateway lib contains latest).exec ((built side).start lib) (eventsOf side events)
  session : m.session side =
    ((gateway lib contains latest).exec ((built side).start lib) (eventsOf side events)).node.session
  received : m.received side =
    (gateway lib contains latest).gather takes ((built side).start lib) (eventsOf side events)
  sealed : (m.sealed side).filterMap messageOf =
    (forwards (logOf lib contains latest built events side)).map Forwarded.message

theorem carried_run (events : List OverlayEvent) (side : Side) :
    Carried lib contains latest built events
      ((mesh lib).exec (.start lib fun side => (built side).session) (meshRun lib contains latest built events))
      side := by
  induction events using List.reverseRecOn with
  | nil => exact ⟨rfl, rfl, rfl, rfl⟩
  | append_singleton events event carried =>
    rw [meshRun, System.gather_concat, System.exec_append, ← meshRun]
    generalize (mesh lib).exec _ (meshRun lib contains latest built events) = m at carried ⊢
    obtain ⟨final, sealings, taking⟩ := session_of_mesh side m (event.2.onMesh event.1
      ((overlay lib contains latest).exec (fun side => (built side).start lib) events event.1))
    rw [stepOf_onMesh] at final sealings taking
    obtain ⟨acting, event⟩ := event
    dsimp only at final sealings taking ⊢
    by_cases here : acting = side
    · subst here
      have events' : eventsOf acting (events ++ [(acting, event)]) = eventsOf acting events ++ [event.gateway] := by
        rw [eventsOf_concat, if_pos rfl]
      rw [if_pos rfl, carried.session, carried.node] at final sealings taking
      rw [carried.node]
      have shown := @mirrored lib contains latest acting
        ((gateway lib contains latest).exec ((built acting).start lib) (eventsOf acting events)) event
      constructor
      · rw [events', System.exec_concat, System.exec_concat, ← carried.node]
        exact Function.update_self ..
      · rw [events', System.exec_concat, shown.session]
        exact final
      · rw [events', System.gather_concat, ← carried.received, ← shown.taken]
        exact taking
      · rw [logOf, events', System.log_concat, sealings, List.filterMap_append, carried.sealed, shown.sealed,
          ← List.map_append]
        exact congrArg _ (List.filterMap_append).symm
    · rw [if_neg here] at final sealings taking
      have same : eventsOf side (events ++ [(acting, event)]) = eventsOf side events := by
        rw [eventsOf_concat, if_neg here, List.append_nil]
      constructor
      · rw [same, System.exec_concat]
        exact (Function.update_of_ne (Ne.symm here) ..).trans carried.node
      · rw [same]
        exact final.trans carried.session
      · rw [same]
        exact (taking.trans (List.append_nil _)).trans carried.received
      · rw [logOf, same, sealings, List.filterMap_append, carried.sealed]
        exact List.append_nil _

end Run

/-! ## Delivery -/

/-- A packet that one host sends and the other one writes: the sender has let it out to the receiver, as which its host
certificate identifies it, and the receiver has let it in as the sender. -/
structure SamePacket (sender receiver : BuiltListener) (sent : Forwarded) (written : Written) : Prop where
  bytes : sent.raw = written.bytes
  dest : sent.packet.remoteAddr = receiver.session.vpnAddr
  parsedOut : parse written.bytes false = .ok (some sent.packet)
  peerOut : identityOf receiver.session.hostCert sender.caName sender.caSha = .ok sent.peer
  parsedIn : parse written.bytes true = .ok (some written.packet)
  peerIn : identityOf sender.session.hostCert receiver.caName receiver.caSha = .ok written.peer
  letIn : written.answer = .ok (.ok ())

section Delivery

variable {contains : Contains} {latest : Instant} {built : Side → BuiltListener} {events : List OverlayEvent}

/-- The payload, if the message is for the address. -/
def payloadFor (v : IpAddr) (message : IpAddr × Bytes) : Option Bytes :=
  if message.1 = v then some message.2 else none

theorem payloads_addressed (v : IpAddr) (sent : List Forwarded) :
    (sent.map Forwarded.message).filterMap (payloadFor v) =
      (sent.filter (·.packet.remoteAddr = v)).map Forwarded.raw := by
  induction sent with
  | nil => rfl
  | cons forwarded rest ih =>
    by_cases here : forwarded.packet.remoteAddr = v
    · simp [Forwarded.message, payloadFor, here, ← ih]
    · simp [Forwarded.message, payloadFor, here, ← ih]

/-- What the session gives `mesh_to_tun` is part of what the other listener has sent for its address. -/
theorem received_of_forwards
    (sound : (overlayHandshakes lib contains latest built events).Sound lib fun side => (built side).session)
    (fresh : ((meshRun lib contains latest built events).filterMap (·.paired.entropy)).Nodup)
    (unforged : UnforgedRun (.start lib fun side => (built side).session) (meshRun lib contains latest built events))
    (side : Side) :
    (((gateway lib contains latest).gather takes ((built side).start lib) (eventsOf side events)).map Prod.snd).Subperm
      (((forwards (logOf lib contains latest built events side.other)).map Forwarded.message).filterMap
        (payloadFor (built side).session.vpnAddr)) := by
  obtain ⟨items, ⟨chosen, same, sublist⟩, values, good⟩ :=
    filed_of_mesh (fun side => (built side).session) _ sound fresh unforged side
  have order := (received_of_mesh (fun side => (built side).session) _ side).trans values
  have mine := @carried_run lib contains latest built events side
  have other := @carried_run lib contains latest built events side.other
  generalize (mesh lib).exec _ (meshRun lib contains latest built events) = m at order sublist mine other
  rw [mine.received] at order
  have payloads : items.filterMap (fun item => (messageOf item).bind (payloadFor (built side).session.vpnAddr)) =
      items.map Sealing.payload := by
    rw [← List.filterMap_eq_map]
    refine List.filterMap_congr fun item member => ?_
    obtain ⟨message, dest⟩ := good item member
    simp [messageOf, payloadFor, message, dest]
  have first : (((gateway lib contains latest).gather takes ((built side).start lib) (eventsOf side events)).map
      Prod.snd).Sublist (items.map Sealing.payload) := by
    have all := congrArg (List.map Prod.snd) order
    rw [List.map_append, List.map_map] at all
    exact all ▸ List.sublist_append_left _ _
  rw [← other.sealed, List.filterMap_filterMap]
  refine first.subperm.trans ⟨chosen.filterMap _, ?_, sublist.filterMap _⟩
  rw [← payloads]
  exact same.filterMap _

/-- The tunnels of a listener are with the other host, under the contents of its host certificate. -/
theorem details_of_tunnelFor
    (sound : (overlayHandshakes lib contains latest built events).Sound lib fun side => (built side).session)
    (fresh : ((meshRun lib contains latest built events).filterMap (·.paired.entropy)).Nodup)
    (unforged : UnforgedRun (.start lib fun side => (built side).session) (meshRun lib contains latest built events))
    {side : Side} {earlier later : List GatewayEvent} (split : eventsOf side events = earlier ++ later) {v : IpAddr}
    {used : Peer} (has : TunnelFor ((gateway lib contains latest).exec ((built side).start lib) earlier).node.session v
      used) : used.cert.details = (built side.other).session.hostCert.details := by
  obtain ⟨i, -, here⟩ := has
  have addressed := addressed_run sound.toIdeal _ fresh unforged ⟨List.Subset.refl _, List.Subset.refl _⟩
  have mine := (@carried_run lib contains latest built events side).session
  rw [split, System.exec_append] at mine
  obtain ⟨sections, ran⟩ := @session_run lib contains latest
    ((gateway lib contains latest).exec ((built side).start lib) earlier) later
  obtain ⟨final, there, same⟩ := established_persists _ sections here
  rw [← ran, ← mine] at there
  rw [← same.cert]
  exact (addressed side i final (Inner.tunnel_eq_some_iff.mpr there)).1

theorem identityOf_of_details {cert cert' : Certificate} (same : cert.details = cert'.details) (caName caSha : String) :
    identityOf cert caName caSha = identityOf cert' caName caSha := by
  unfold identityOf
  rw [same]

/-- The packets that a host writes to its tun device are packets that the other one has read from its own, let out to
this host and sent to it, and that this host's firewall has let in as the other host: each of them once at most,
whatever the network repeats, delays or makes up. -/
theorem tun_to_tun
    (sound : (overlayHandshakes lib contains latest built events).Sound lib fun side => (built side).session)
    (itself : ∀ addr, contains (.host addr) addr = true)
    (fresh : ((meshRun lib contains latest built events).filterMap (·.paired.entropy)).Nodup)
    (unforged : UnforgedRun (.start lib fun side => (built side).session) (meshRun lib contains latest built events))
    (side : Side) :
    let received := logOf lib contains latest built events side
    let sent := logOf lib contains latest built events side.other
    ((writes received).map Written.bytes).Subperm
        (((forwards sent).filter (·.packet.remoteAddr = (built side).session.vpnAddr)).map Forwarded.raw) ∧
      ∀ written ∈ writes received, ∃ forwarded ∈ forwards sent,
        SamePacket (built side.other) (built side) forwarded written ∧
        written.bytes ∈ (gateway lib contains latest).gather reads ((built side.other).start lib)
          (eventsOf side.other events) ∧
        (forwarded.packet, forwarded.peer) ∈ letOut sent := by
  intro received sent
  have part := received_of_forwards sound fresh unforged side
  have arriving (ran : List GatewayEvent) := @arriving_run lib contains latest (built side).session.caCert
    (built side).session.hostCert (built side).session.hostPrivateKey (built side).session.cipher
    (built side).session.vpnAddr (built side).session.lighthouses (built side).session.staticHosts (built side).caName
    (built side).caSha (built side).firewall ran
  have watched (ran : List GatewayEvent) := @watched_run lib contains latest (built side.other).session.caCert
    (built side.other).session.hostCert (built side.other).session.hostPrivateKey (built side.other).session.cipher
    (built side.other).session.vpnAddr (built side.other).session.lighthouses (built side.other).session.staticHosts
    (built side.other).caName (built side.other).caSha itself (built side.other).firewall ran
  have within : ((writes received).map Written.bytes).Subperm
      (((forwards sent).filter (·.packet.remoteAddr = (built side).session.vpnAddr)).map Forwarded.raw) := by
    rw [← payloads_addressed]
    exact ((List.sublist_append_left _ _).trans (arriving _).order).subperm.trans part
  refine ⟨within, fun written member => ?_⟩
  obtain ⟨forwarded, found, raw⟩ := List.mem_map.mp (within.subset (List.mem_map_of_mem member))
  obtain ⟨found, dest⟩ := List.mem_filter.mp found
  have dest := of_decide_eq_true dest
  -- The packet came in under the other host's tunnel.
  obtain ⟨entry, logged, wrote⟩ := List.mem_filterMap.mp member
  obtain ⟨before, event, after, split, rfl⟩ := (System.mem_log_iff _).mp logged
  obtain ⟨letIn, src, used, came⟩ := (arriving before).written wrote
  obtain ⟨earlier, first, later, rfl, ⟨-, has⟩, -⟩ := came.found
  have usedIn := details_of_tunnelFor sound fresh unforged (split.trans (List.append_assoc _ _ _)) has
  -- The packet went out under the tunnel to this host.
  obtain ⟨entry, logged, out⟩ := List.mem_filterMap.mp found
  obtain ⟨before', event', after', split', rfl⟩ := (System.mem_log_iff _).mp logged
  have gone : ((gateway lib contains latest).step ((gateway lib contains latest).exec ((built side.other).start lib)
      before') event').2 = .forwarded forwarded := by
    dsimp only at out
    split at out
    next same => exact same.trans (congrArg _ (Option.some.inj out))
    · cases out
  obtain ⟨parsedOut, ⟨usedOut, -, identity, earlier', first', later', rfl, ⟨-, has'⟩, -⟩, -⟩ :=
    (watched before').forwarded rfl gone
  have usedOut := details_of_tunnelFor sound fresh unforged (split'.trans (List.append_assoc _ _ _)) has'
  refine ⟨forwarded, found, ⟨raw, dest, raw ▸ parsedOut, ?_, came.parsed, ?_, letIn⟩, ?_, ?_⟩
  · rw [Side.other_other] at usedOut
    exact (identityOf_of_details usedOut _ _).symm.trans identity
  · exact (identityOf_of_details usedIn _ _).symm.trans came.identity
  · exact raw ▸ (watched _).read.subset (List.mem_append_left _ (List.mem_map_of_mem found))
  · exact (watched _).cleared.subset (List.mem_append_left _ (List.mem_map_of_mem found))

end Delivery

/-! ## Host A sends a packet, which comes twice -/

section

open TestNetwork

/-- Host A lets out everything to any peer, and host B lets in everything from any peer. -/
def listeners : Side → BuiltListener
  | .left => ⟨{ builtA with staticHosts := [(vpn 2, endpoint 2)] },
      .new outboundAny ⟨10, 10, 10⟩ [.host (vpn 1)] [], ca.details.name, ""⟩
  | .right => ⟨builtB, .new Firewall.inboundAny ⟨10, 10, 10⟩ [.host (vpn 2)] [], ca.details.name, ""⟩

/-- A UDP packet from host A to host B. -/
def udpFromA : Bytes :=
  [0x45, 0, 0, 24, 0, 0, 0, 0, 64, 17, 0, 0, 10, 100, 0, 1, 10, 100, 0, 2, 0, 53, 0, 53]

/-- The packet in the tunnel. -/
def udpInTunnel : Bytes := packetToB 3 udpFromA

/-- Host A reads the packet, opens a tunnel for it and sends it; it comes twice, and host B writes it. -/
def carriedRun : List OverlayEvent :=
  [(.left, .tunToMesh udpFromA 0), (.left, .tunToMesh [] 0), (.left, .advance 0 (ambient 1)),
    (.left, .advance 0 (ambient 1)), (.right, .datagram stage0Datagram (endpoint 1) (ambient 2)),
    (.left, .datagram reply (endpoint 2) (ambient 3)), (.left, .advance 0 (ambient 4))] ++
    List.replicate 6 (.left, .tunToMesh [] 0) ++
    [(.right, .datagram udpInTunnel (endpoint 1) (ambient 5)),
      (.right, .datagram udpInTunnel (endpoint 1) (ambient 6))] ++
    List.replicate 10 (.right, .meshToTun 0)

def carriedMesh : List MeshEvent := meshRun dataNetwork prefixContains 1000 listeners carriedRun

def carriedLog (side : Side) : GatewayLog := logOf dataNetwork prefixContains 1000 listeners carriedRun side

theorem carriedMesh_fresh : (carriedMesh.filterMap (·.paired.entropy)).Nodup := by decide +kernel

theorem carriedMesh_unforged :
    UnforgedRun (.start dataNetwork fun side => (listeners side).session) carriedMesh :=
  unforgedRun_of_genuine (by decide +kernel)

theorem carriedLog_writes : (writes (carriedLog .right)).map Written.bytes = [udpFromA] := by decide +kernel

/-- Host B writes the packet once, as host A's, and host A has read it and let it out to host B. -/
theorem packet_written_once :
    (writes (carriedLog .right)).map Written.bytes = [udpFromA] ∧
      ∃ written ∈ writes (carriedLog .right), ∃ forwarded ∈ forwards (carriedLog .left), forwarded.raw = udpFromA ∧
        SamePacket (listeners .left) (listeners .right) forwarded written := by
  have sound : (overlayHandshakes dataNetwork prefixContains 1000 listeners carriedRun).Sound dataNetwork
      fun side => (listeners side).session := dataNetwork_sound (meshHandshakes_calls _ carriedMesh)
  obtain ⟨-, carried⟩ := tun_to_tun sound (fun addr => (prefixContains_host addr addr).mpr rfl) carriedMesh_fresh
    carriedMesh_unforged .right
  rw [← carriedLog, ← carriedLog, show Side.right.other = Side.left from rfl] at carried
  have member : udpFromA ∈ (writes (carriedLog .right)).map Written.bytes := by
    rw [carriedLog_writes]
    exact List.mem_singleton_self _
  obtain ⟨written, member, bytes⟩ := List.mem_map.mp member
  obtain ⟨forwarded, found, same, -, -⟩ := carried written member
  exact ⟨carriedLog_writes, written, member, forwarded, found, same.bytes.trans bytes, same⟩

end

end Nebula.Listener
