import Nebula.Listener.MeshToTun
import Nebula.Protocol.Connected

/-! # A node between its tun device and the mesh

`tun_to_mesh` and `mesh_to_tun` beside the receive loop of their session and whatever calls of `connect` are made on
it. `tun_to_mesh` takes one packet at a time, and anything else may happen between two of its awaits and between two
of the locks that `evaluate` takes. What it forwards is watched from the packet it read to the datagram that goes
out.
-/

namespace Nebula.Listener

open Rust Machine

/-! ## The tasks -/

/-- Where `tun_to_mesh` is between two of its awaits, or of its locks. -/
inductive Outgoing where
  | reading
  | lookingUp (raw : Bytes) (packet : Packet)
  /-- It has called `connect` and waits for that call. -/
  | connecting (raw : Bytes) (packet : Packet) (call : ℕ)
  | identifying (raw : Bytes) (packet : Packet)
  | identified (raw : Bytes) (packet : Packet) (peer : PeerIdentity)
  /-- It is in a call of `evaluate`. -/
  | evaluating (raw : Bytes) (running : Firewall.Running)
  | sending (raw : Bytes) (packet : Packet) (peer : PeerIdentity)
  | unwound (cause : Panic)

/-- The tasks of a listener with all the calls of `connect` and `resolve` on its session. -/
structure Gateway (lib : Externals) where
  node : Node lib
  callers : List Caller
  outgoing : Outgoing

inductive GatewayEvent where
  /-- The receive loop, a call of `connect` or `resolve`, or another task that sends. -/
  | session (event : CallersEvent)
  | meshToTun (now : Instant)
  /-- The next section of `tun_to_mesh`, with what a read gives and what the clock says, should it ask. -/
  | tunToMesh (read : Bytes) (now : Instant)

/-- A packet of the tun device that went out, as whom its destination was admitted, and the datagram. -/
structure Forwarded where
  raw : Bytes
  packet : Packet
  peer : PeerIdentity
  datagram : Bytes
  dest : SocketAddr

inductive GatewayOutput where
  | silent
  | effects (effects : List Effect)
  | inbound (evaluated : Evaluated)
  | outbound (evaluated : Evaluated)
  | forwarded (forwarded : Forwarded)

section Tasks

variable (lib : Externals) (contains : Contains) (latest : Instant)

def tunToMesh (g : Gateway lib) (read : Bytes) (now : Instant) : Gateway lib × GatewayOutput :=
  match g.outgoing with
  | .reading =>
    match parse read false with
    | .error cause => ({ g with outgoing := .unwound cause }, .silent)
    | .ok none => (g, .silent)
    | .ok (some packet) => ({ g with outgoing := .lookingUp read packet }, .silent)
  | .lookingUp raw packet =>
    match peerInfo lib g.node.session packet.remoteAddr with
    | some _ => ({ g with outgoing := .identifying raw packet }, .silent)
    | none =>
      if packet.remoteAddr.isMulticast then ({ g with outgoing := .reading }, .silent)
      else
        ({ g with
          callers := g.callers ++ [⟨true, packet.remoteAddr, .begun⟩]
          outgoing := .connecting raw packet g.callers.length }, .silent)
  | .connecting raw packet call =>
    match g.callers[call]?.map Caller.stage with
    | some (.returned (.ok ())) => ({ g with outgoing := .identifying raw packet }, .silent)
    | some (.returned (.error (.err _))) => ({ g with outgoing := .reading }, .silent)
    | some (.returned (.error (.panic cause))) => ({ g with outgoing := .unwound cause }, .silent)
    | _ => (g, .silent)
  | .identifying raw packet =>
    match peerInfo lib g.node.session packet.remoteAddr with
    | none => ({ g with outgoing := .reading }, .silent)
    | some info =>
      match peerIdentity info g.node.caName g.node.caSha with
      | .error cause => ({ g with outgoing := .unwound cause }, .silent)
      | .ok peer => ({ g with outgoing := .identified raw packet peer }, .silent)
  | .identified raw packet peer =>
    ({ g with outgoing := .evaluating raw (g.node.firewall.snapshot now packet false peer) }, .silent)
  | .evaluating raw running =>
    let (firewall, running) := running.proceed contains latest g.node.firewall
    let node := { g.node with firewall }
    let ⟨call, phase⟩ := running
    match phase with
    | .looking | .recording => ({ g with node, outgoing := .evaluating raw running }, .silent)
    | .returned (.error cause) =>
      ({ g with node, outgoing := .unwound cause }, .outbound ⟨call.packet, call.remote, .error cause, none⟩)
    | .returned (.ok verdict) =>
      ({ g with node, outgoing := if verdict = .ok () then .sending raw call.packet call.remote else .reading },
        .outbound ⟨call.packet, call.remote, .ok verdict, none⟩)
  | .sending raw packet peer =>
    match sendTyped lib g.node.session packet.remoteAddr Header.message raw with
    | (session, .ok (datagram, dest)) =>
      ({ g with node := { g.node with session }, outgoing := .reading },
        .forwarded ⟨raw, packet, peer, datagram, dest⟩)
    | (session, .error (.err _)) =>
      ({ g with node := { g.node with session }, outgoing := .reading }, .silent)
    | (session, .error (.panic cause)) =>
      ({ g with node := { g.node with session }, outgoing := .unwound cause }, .silent)
  | .unwound _ => (g, .silent)

def gateway : System (Gateway lib) GatewayEvent GatewayOutput where
  step g
    | .session event =>
      let (state, effects) := (callers lib).step ⟨g.node.session, g.callers⟩ event
      ({ g with node := { g.node with session := state.inner }, callers := state.callers }, .effects effects)
    | .meshToTun now =>
      let (node, evaluated) := meshToTun lib contains latest g.node now
      ({ g with node }, match evaluated with
        | some evaluated => .inbound evaluated
        | none => .silent)
    | .tunToMesh read now => tunToMesh lib contains latest g read now

/-- A listener as `Listener::new` and `run` start it, on a session that is built. -/
def Gateway.start (inner : lib.Inner) (firewall : Firewall) (caName caSha : String) : Gateway lib :=
  ⟨⟨inner, firewall, caName, caSha, .receiving⟩, [], .reading⟩

end Tasks

/-! ## The session of a node -/

variable {lib : Externals} {contains : Contains} {latest : Instant}

theorem step_meshToTun {g : Gateway lib} {now : Instant} {node : Node lib} {evaluated : Option Evaluated}
    (ran : meshToTun lib contains latest g.node now = (node, evaluated)) :
    (gateway lib contains latest).step g (.meshToTun now) =
      ({ g with node }, evaluated.elim .silent .inbound) := by
  unfold gateway
  dsimp only
  rw [ran]
  cases evaluated with
  | none => rfl
  | some evaluated => rfl

/-- `mesh_to_tun` takes from the session when it has nothing in hand. -/
theorem session_receiving {node : Node lib} (idle : node.progress = .receiving) (now : Instant) :
    (meshToTun lib contains latest node now).1.session = (recv lib node.session).1 := by
  unfold meshToTun
  rw [idle]
  dsimp only
  rcases recv lib node.session with ⟨after, _ | ⟨src, bytes⟩⟩
  · rfl
  · dsimp only
    rcases parse bytes true with _ | _ | _
    · rfl
    · rfl
    · rfl

theorem session_not_receiving {node : Node lib} (busy : node.progress ≠ .receiving) (now : Instant) :
    (meshToTun lib contains latest node now).1.session = node.session := by
  unfold meshToTun
  split
  next idle => exact absurd idle busy
  all_goals
    repeat' split
    all_goals rfl

/-- `tun_to_mesh` sends a packet that it has been let to send. -/
theorem session_sending {g : Gateway lib} {raw : Bytes} {packet : Packet} {peer : PeerIdentity}
    (cleared : g.outgoing = .sending raw packet peer) (read : Bytes) (now : Instant) :
    (tunToMesh lib contains latest g read now).1.node.session =
      (sendTyped lib g.node.session packet.remoteAddr Header.message raw).1 := by
  unfold tunToMesh
  rw [cleared]
  dsimp only
  rcases sendTyped lib g.node.session packet.remoteAddr Header.message raw with ⟨after, (_ | _) | _⟩
  · rfl
  · rfl
  · rfl

theorem session_not_sending {g : Gateway lib} (uncleared : ∀ raw packet peer, g.outgoing ≠ .sending raw packet peer)
    (read : Bytes) (now : Instant) :
    (tunToMesh lib contains latest g read now).1.node.session = g.node.session := by
  unfold tunToMesh
  split
  case h_7 raw packet peer cleared => exact absurd cleared (uncleared raw packet peer)
  all_goals
    repeat' split
    all_goals rfl

/-- What goes out is the packet that the task has been let to send. -/
theorem sending_of_forwarded {g : Gateway lib} {read : Bytes} {now : Instant} {forwarded : Forwarded}
    (sent : (tunToMesh lib contains latest g read now).2 = .forwarded forwarded) :
    g.outgoing = .sending forwarded.raw forwarded.packet forwarded.peer ∧
      (sendTyped lib g.node.session forwarded.packet.remoteAddr Header.message forwarded.raw).2 =
        .ok (forwarded.datagram, forwarded.dest) := by
  obtain ⟨node, callers, outgoing⟩ := g
  unfold tunToMesh at sent
  dsimp only at sent ⊢
  cases outgoing with
  | sending raw packet peer =>
    dsimp only at sent
    split at sent
    next sent' =>
      cases sent
      exact ⟨rfl, congrArg Prod.snd sent'⟩
    · cases sent
    · cases sent
  | reading | lookingUp | connecting | identifying | identified | evaluating | unwound =>
    dsimp only at sent
    repeat' split at sent
    all_goals cases sent

/-- What the firewall answers, it answers in the task's call. -/
theorem evaluating_of_outbound {g : Gateway lib} {read : Bytes} {now : Instant} {evaluated : Evaluated}
    (asked : (tunToMesh lib contains latest g read now).2 = .outbound evaluated) :
    ∃ raw running, g.outgoing = .evaluating raw running ∧ running.call.packet = evaluated.packet ∧
      running.call.remote = evaluated.peer ∧
      (running.proceed contains latest g.node.firewall).2.phase = .returned evaluated.answer := by
  obtain ⟨node, callers, outgoing⟩ := g
  unfold tunToMesh at asked
  dsimp only at asked ⊢
  cases outgoing with
  | evaluating raw running =>
    refine ⟨raw, running, rfl, ?_⟩
    rw [← (running.proceed_frame contains latest node.firewall).2.2]
    dsimp only at asked
    split at asked
    · cases asked
    · cases asked
    next returned =>
      cases asked
      exact ⟨rfl, rfl, returned⟩
    next returned =>
      cases asked
      exact ⟨rfl, rfl, returned⟩
  | reading | lookingUp | connecting | identifying | identified | sending | unwound =>
    dsimp only at asked
    repeat' split at asked
    all_goals cases asked

/-- Every step takes the session through a section, if any. -/
theorem session_step (g : Gateway lib) (event : GatewayEvent) :
    ∃ sections, ((gateway lib contains latest).step g event).1.node.session =
      (session lib).exec g.node.session sections := by
  cases event with
  | session event => exact inner_run ⟨g.node.session, g.callers⟩ [event]
  | meshToTun now =>
    by_cases idle : g.node.progress = .receiving
    · exact ⟨[.recv], session_receiving idle now⟩
    · exact ⟨[], session_not_receiving idle now⟩
  | tunToMesh read now =>
    by_cases cleared : ∃ raw packet peer, g.outgoing = .sending raw packet peer
    · obtain ⟨raw, packet, peer, cleared⟩ := cleared
      exact ⟨[.sendTyped packet.remoteAddr Header.message raw], session_sending cleared read now⟩
    · push Not at cleared
      exact ⟨[], session_not_sending cleared read now⟩

theorem session_run (g : Gateway lib) (events : List GatewayEvent) :
    ∃ sections, ((gateway lib contains latest).exec g events).node.session =
      (session lib).exec g.node.session sections := by
  induction events generalizing g with
  | nil => exact ⟨[], rfl⟩
  | cons event rest ih =>
    obtain ⟨sections, here⟩ := @session_step lib contains latest g event
    obtain ⟨more, there⟩ := ih ((gateway lib contains latest).step g event).1
    refine ⟨sections ++ more, ?_⟩
    rw [System.exec_cons, there, here, (session lib).exec_append]

/-- No task renames the certificate authority. -/
theorem named_step (g : Gateway lib) (event : GatewayEvent) :
    ((gateway lib contains latest).step g event).1.node.caName = g.node.caName ∧
      ((gateway lib contains latest).step g event).1.node.caSha = g.node.caSha := by
  cases event with
  | session event => exact ⟨rfl, rfl⟩
  | meshToTun now =>
    unfold gateway meshToTun
    dsimp only
    repeat' split
    all_goals exact ⟨rfl, rfl⟩
  | tunToMesh read now =>
    unfold gateway tunToMesh
    dsimp only
    repeat' split
    all_goals exact ⟨rfl, rfl⟩

/-- A listener keeps the names it was started with, and its session has gone through sections since. -/
theorem start_run (inner : lib.Inner) (firewall : Firewall) (caName caSha : String) (events : List GatewayEvent) :
    let g := (gateway lib contains latest).exec (.start lib inner firewall caName caSha) events
    (g.node.caName = caName ∧ g.node.caSha = caSha) ∧
      ∃ sections, g.node.session = (session lib).exec inner sections := by
  refine ⟨?_, session_run _ events⟩
  induction events using List.reverseRecOn with
  | nil => exact ⟨rfl, rfl⟩
  | append_singleton events event ih =>
    rw [System.exec_concat]
    generalize (gateway lib contains latest).exec (.start lib inner firewall caName caSha) events = g at ih
    have kept := @named_step lib contains latest g event
    exact ⟨kept.1.trans ih.1, kept.2.trans ih.2⟩

end Nebula.Listener
