import Mathlib.Data.List.Perm.Subperm
import Nebula.Protocol.Mesh
import Nebula.Protocol.Nonces

/-! # What two sessions get from each other

A key belongs to one direction of one tunnel of one session. So what a session opens it opens under the mirror of
the key that sealed it, the other session has sealed it for this session's address, and it is opened once; and no
two payloads of the whole system are sealed with one key and one nonce.
-/

namespace Nebula

open Rust Machine

variable {lib : Externals} {built : Side → BuiltSession} {drawn : List Bytes} {m : Mesh lib}

/-- The two keys of every answer differ. -/
def History.TwoKeys {H : Type} (h : History H) : Prop := ∀ a ∈ h.answers, a.keys.sendKey ≠ a.keys.recvKey

/-- What the results below assume of the library, in the handshakes of one run. -/
structure History.Sound (lib : Externals) (built : Side → BuiltSession) (h : History lib.snow.HandshakeState) : Prop
    extends h.Ideal lib built where
  twoKeys : h.TwoKeys

theorem History.Sound.within {h all : History lib.snow.HandshakeState} (sound : all.Sound lib built)
    (within : h.Within all) : h.Sound lib built where
  toIdeal := sound.toIdeal.within within
  twoKeys a member := sound.twoKeys a (within.answers member)

section Keys

variable {h : History lib.snow.HandshakeState} {p : Pair lib} {side side' : Side} {i i' : UInt32}
  {peer peer' : Peer}

/-- Answers with a key in common are one. -/
theorem Explained.one_answer (sound : h.Sound lib built) (explained : Explained built drawn h p) {a a' : Answer}
    (member : a ∈ h.answers) (member' : a' ∈ h.answers) {key : Key} (mine : key ∈ a.keys.both)
    (theirs : key ∈ a'.keys.both) : a = a' := by
  by_contra different
  have drewOther : a.ambient.entropy ≠ a'.ambient.entropy := fun same =>
    different (List.inj_on_of_nodup_map explained.distinct member member' same)
  exact sound.fresh a member a' member' drewOther mine theirs

/-- A tunnel sends under one key of its answer and receives under the other. -/
theorem both_of_keyed {a : Answer} (keyed : OwnAnswer side i peer a ∨ OtherAnswer side i peer a) :
    peer.transport.sendCipher.key ∈ a.keys.both ∧ peer.transport.recvCipher.key ∈ a.keys.both := by
  unfold SplitKeys.both
  rcases keyed with own | other
  · rw [own.sends, own.receives]
    simp
  · rw [other.sends, other.receives]
    simp

/-- No two tunnels of the two sessions send under one key. -/
theorem Explained.sends_apart (sound : h.Sound lib built) (explained : Explained built drawn h p)
    (here : (p.session side).tunnel i = some peer) (there : (p.session side').tunnel i' = some peer')
    (same : peer.transport.sendCipher.key = peer'.transport.sendCipher.key) : side = side' ∧ i = i' := by
  obtain ⟨a, member, keyed⟩ := explained.keyed side i peer (Inner.tunnel_eq_some_iff.mp here)
  obtain ⟨a', member', keyed'⟩ := explained.keyed side' i' peer' (Inner.tunnel_eq_some_iff.mp there)
  obtain rfl := explained.one_answer sound member member' (both_of_keyed keyed).1 (same ▸ (both_of_keyed keyed').1)
  have apart := sound.twoKeys a member
  rcases keyed with own | other
  · rcases keyed' with own' | other'
    · exact ⟨own.side.symm.trans own'.side, own.index.symm.trans own'.index⟩
    · exact absurd (own.sends.symm.trans (same.trans other'.sends)) apart
  · rcases keyed' with own' | other'
    · exact absurd (own'.sends.symm.trans (same.symm.trans other.sends)) apart
    · refine ⟨?_, other.asked.symm.trans other'.asked⟩
      rw [← Side.other_other side, ← other.side, other'.side, Side.other_other]

/-- What one session opens the other one sealed. -/
theorem Explained.opens_other (sound : h.Sound lib built) (explained : Explained built drawn h p)
    (here : (p.session side).tunnel i = some peer) (there : (p.session side').tunnel i' = some peer')
    (same : peer.transport.recvCipher.key = peer'.transport.sendCipher.key) : side' = side.other := by
  obtain ⟨a, member, keyed⟩ := explained.keyed side i peer (Inner.tunnel_eq_some_iff.mp here)
  obtain ⟨a', member', keyed'⟩ := explained.keyed side' i' peer' (Inner.tunnel_eq_some_iff.mp there)
  obtain rfl := explained.one_answer sound member member' (both_of_keyed keyed).2 (same ▸ (both_of_keyed keyed').1)
  have apart := sound.twoKeys a member
  rcases keyed with own | other
  · rcases keyed' with own' | other'
    · exact absurd (own'.sends.symm.trans (same.symm.trans own.receives)) apart
    · rw [← own.side, other'.side, Side.other_other]
  · rcases keyed' with own' | other'
    · rw [← own'.side, other.side]
    · exact absurd (other.receives.symm.trans (same.trans other'.sends)) apart

end Keys

/-! ## Delivery -/

section Delivery

variable {event : MeshEvent} {side : Side}

/-- What the callers of `recv` get of a payload that the other session has sealed for this one. -/
structure FromOther (built : Side → BuiltSession) (side : Side) (item : Sealing)
    (got : (UInt32 × UInt64) × IpAddr × Bytes) : Prop where
  message : item.header.type_ = Header.message
  dest : item.dest = (built side).vpnAddr
  packet : got.1 = (item.header.remoteIndex, item.header.messageCounter)
  contents : got.2 = ((built side.other).vpnAddr, item.payload)

theorem mem_filed {inner : lib.Inner} {event : SessionEvent} {got : (UInt32 × UInt64) × IpAddr × Bytes}
    (new : got ∈ filed inner event) :
    ∃ packet peer plain, event.packet = some packet ∧ packet.hdr.type_ = Header.message ∧
      inner.tunnel packet.hdr.remoteIndex = some peer ∧
      peer.transport.recvCipher.decrypt lib.aead packet.hdr.messageCounter packet.headerBytes packet.body =
        .ok plain ∧
      got = ((packet.hdr.remoteIndex, packet.hdr.messageCounter), peer.vpnAddr, plain) := by
  rcases carries : event.packet with _ | packet
  · rw [filed_of_packet carries] at new
    cases new
  rw [filed_of_some carries] at new
  split at new
  next message =>
    obtain ⟨⟨peer, plain⟩, opened, rfl⟩ := Option.map_eq_some_iff.mp (Option.mem_toList.mp new)
    rw [(tunnel_openPacket inner packet).2] at opened
    obtain ⟨peer', held, rest⟩ := Option.bind_eq_some_iff.mp opened
    obtain ⟨plain', took, same⟩ := Option.map_eq_some_iff.mp rest
    obtain ⟨rfl, rfl⟩ := Prod.mk.inj same
    refine ⟨packet, peer', plain', rfl, message, held, ?_, rfl⟩
    unfold contents at took
    split at took
    next len out decrypted =>
      cases took
      exact (decrypt_spec lib.aead peer'.transport packet.hdr.messageCounter packet.headerBytes packet.body
        (List.replicate packet.body.length 0)).2.2 len out decrypted
    · cases took
  · cases new

/-- The header of a packet that carries a sealed header. -/
theorem header_of_encode {event : SessionEvent} {packet : DataPacket} (carries : event.packet = some packet)
    {header : Header} (version : header.version < 16) (type_ : header.type_ < 16)
    (same : header.encode = packet.headerBytes) : packet.hdr = header := by
  cases event with
  | datagram bytes source ambient =>
    simp only [SessionEvent.packet] at carries
    split at carries
    · cases carries
    next hdr parsed =>
      split at carries
      · cases carries
        have parsed' := Header.parse_encode header version type_ (bytes.drop Header.len)
        rw [same, List.take_append_drop, parsed] at parsed'
        exact Except.ok.inj parsed'
      · cases carries
  | resolveKnown | awaitLighthouse | openHandshake | sendTyped | peerInfo | recv => cases carries

theorem fromOther_of_filed {h : History lib.snow.HandshakeState} (sound : h.Sound lib built)
    (explained : Explained built drawn h m.pair) (addressed : Addressed built m) (kept : Kept m)
    (unforged : event.Unforged m) {got : (UInt32 × UInt64) × IpAddr × Bytes}
    (new : got ∈ filed (m.session event.side) event.step) :
    ∃ item ∈ m.sealed event.side.other, FromOther built event.side item got := by
  obtain ⟨packet, peer, plain, carries, message, held, decrypted, rfl⟩ := mem_filed new
  cases event with
  | call side event own =>
    cases event with
    | datagram => cases own
    | resolveKnown | awaitLighthouse | openHandshake | sendTyped | peerInfo | recv => cases carries
  | deliver side datagram source ambient =>
    obtain ⟨which, item, member, cipher, aad, rfl⟩ := unforged.data packet peer plain carries held decrypted
    obtain ⟨type_, peer', counter, known, held', cipher', header, dest⟩ := kept.under which item member
    have key : peer.transport.recvCipher.key = peer'.transport.sendCipher.key := by rw [← cipher, cipher']
    obtain rfl := explained.opens_other sound held held' key
    have small : item.header.version < 16 ∧ item.header.type_ < 16 := by
      rw [header]
      have version : Header.currentVersion < 16 := by decide
      rcases known with rfl | rfl
      · exact ⟨version, (by decide : Header.message < 16)⟩
      · exact ⟨version, (by decide : Header.lighthouse < 16)⟩
    have parsed := header_of_encode carries small.1 small.2 aad
    refine ⟨item, member, parsed ▸ message, ?_, by rw [parsed], ?_⟩
    · rw [dest, (addressed _ _ _ held').2, Side.other_other]
    · rw [(addressed _ _ _ held).2]

/-! ### Whole runs -/

/-- What a session seals goes on its record. -/
theorem sealed_step (side : Side) (m : Mesh lib) (event : MeshEvent) :
    ((mesh lib).step m event).1.sealed side =
      m.sealed side ++ (session lib).gather sealing (m.session side) (event.stepOf side) := by
  unfold MeshEvent.stepOf
  split
  next here =>
    subst here
    exact (Function.update_self ..).trans (congrArg _ (List.append_nil _).symm)
  next elsewhere => exact (Function.update_of_ne (Ne.symm elsewhere) _ _).trans (List.append_nil _).symm

theorem received_step (side : Side) (m : Mesh lib) (event : MeshEvent) :
    ((mesh lib).step m event).1.received side =
      m.received side ++ (session lib).gather taken (m.session side) (event.stepOf side) := by
  unfold MeshEvent.stepOf
  split
  next here =>
    subst here
    exact (Function.update_self ..).trans (congrArg _ (List.append_nil _).symm)
  next elsewhere => exact (Function.update_of_ne (Ne.symm elsewhere) _ _).trans (List.append_nil _).symm

/-- Each of the two sessions, with its records, goes through its own sections as if it were alone. -/
theorem session_of_mesh (side : Side) (m : Mesh lib) (events : List MeshEvent) :
    ((mesh lib).exec m events).session side =
        (session lib).exec (m.session side) (events.flatMap (·.stepOf side)) ∧
      ((mesh lib).exec m events).sealed side =
        m.sealed side ++ (session lib).gather sealing (m.session side) (events.flatMap (·.stepOf side)) ∧
      ((mesh lib).exec m events).received side =
        m.received side ++ (session lib).gather taken (m.session side) (events.flatMap (·.stepOf side)) := by
  obtain ⟨final, shown⟩ :=
    (mesh lib).part_gather (session lib) (·.session side) (·.stepOf side) (session_step side) m events (α := Sealing)
  obtain ⟨-, given⟩ :=
    (mesh lib).part_gather (session lib) (·.session side) (·.stepOf side) (session_step side) m events
      (α := IpAddr × Bytes)
  refine ⟨final, ?_, ?_⟩
  · rw [shown]
    exact (mesh lib).book_run (·.sealed side) (sealed_step side) m events
  · rw [given]
    exact (mesh lib).book_run (·.received side) (received_step side) m events

/-- Items that are found in a list, each with a key of its own, make up a part of it. -/
theorem part_of_items {α β κ : Type} (l : List α) (P : α → Prop) (key : α → κ) (value : α → β)
    {items : List (κ × β)} (found : ∀ item ∈ items, ∃ a ∈ l, P a ∧ item = (key a, value a))
    (nodup : (items.map Prod.fst).Nodup) :
    ∃ part : List α, part.Subperm l ∧ items.map Prod.snd = part.map value ∧ ∀ a ∈ part, P a := by
  have chosen : ∃ part : List α, items = part.map (fun a => (key a, value a)) ∧ ∀ a ∈ part, a ∈ l ∧ P a := by
    clear nodup
    induction items with
    | nil => exact ⟨[], rfl, nofun⟩
    | cons item rest ih =>
      obtain ⟨part, rfl, good⟩ := ih fun other member => found other (List.mem_cons_of_mem _ member)
      obtain ⟨a, member, holds, rfl⟩ := found item List.mem_cons_self
      exact ⟨a :: part, rfl, List.forall_mem_cons.mpr ⟨⟨member, holds⟩, good⟩⟩
  obtain ⟨part, rfl, good⟩ := chosen
  rw [List.map_map] at nodup
  refine ⟨part, ?_, ?_, fun a member => (good a member).2⟩
  · exact List.subperm_of_subset (List.Nodup.of_map key nodup) fun a member => (good a member).1
  · rw [List.map_map]
    rfl

/-- What a session files in its inbox is a part of what the other one has sealed for its address. -/
theorem filed_of_mesh (built : Side → BuiltSession) (events : List MeshEvent)
    (sound : (meshHandshakes lib built events).Sound lib built) (fresh : (events.filterMap (·.paired.entropy)).Nodup)
    (unforged : UnforgedRun (.start lib built) events) (side : Side) :
    ∃ part : List Sealing, part.Subperm (((mesh lib).exec (.start lib built) events).sealed side.other) ∧
      ((session lib).gather filed (built side).start (events.flatMap (·.stepOf side))).map Prod.snd =
        part.map (fun item => ((built side.other).vpnAddr, item.payload)) ∧
      ∀ item ∈ part, item.header.type_ = Header.message ∧ item.dest = (built side).vpnAddr := by
  refine part_of_items _ _ (fun item => (item.header.remoteIndex, item.header.messageCounter)) _ ?_ (filed_once _ _)
  intro got member
  have shown := ((mesh lib).part_gather (session lib) (·.session side) (·.stepOf side) (session_step side)
    (.start lib built) events).2 filed
  rw [show (built side).start = (Mesh.start lib built).session side from rfl, shown] at member
  obtain ⟨before, event, after, rfl, here⟩ := System.mem_gather_iff.mp member
  unfold MeshEvent.stepOf at here
  split at here
  next same =>
    subst same
    rw [System.gather, System.gather, List.append_nil] at here
    obtain ⟨sofar, now, -⟩ := unforgedRun_append.mp unforged
    rw [List.filterMap_append] at fresh
    have drawn := (List.nodup_append.mp fresh).1
    have listed := @meshHandshakes_within lib built before (event :: after)
    obtain ⟨h, within, explained⟩ := explained_mesh sound.toIdeal before drawn sofar listed
    obtain ⟨item, sealed, fromOther⟩ := fromOther_of_filed (sound.within within) explained
      (addressed_run sound.toIdeal before drawn sofar listed) (kept_run before) now here
    refine ⟨item, ?_, ⟨fromOther.message, fromOther.dest⟩, Prod.ext fromOther.packet fromOther.contents⟩
    have later := (session_of_mesh event.side.other ((mesh lib).exec (.start lib built) before) (event :: after)).2.1
    rw [← System.exec_append] at later
    rw [later]
    exact List.mem_append_left _ sealed
  · cases here

/-- The callers of `recv` get what is filed, in its order. -/
theorem received_of_mesh (built : Side → BuiltSession) (events : List MeshEvent) (side : Side) :
    ((mesh lib).exec (.start lib built) events).received side ++
        (((mesh lib).exec (.start lib built) events).session side).inbox =
      ((session lib).gather filed (built side).start (events.flatMap (·.stepOf side))).map Prod.snd := by
  obtain ⟨final, -, got⟩ := session_of_mesh side (.start lib built) events
  rw [final, got]
  exact received_in_order (built side).start (events.flatMap (·.stepOf side))

/-- Two sessions open tunnels to each other and send, and the network loses, repeats, reorders and makes up
datagrams but forges none. What the callers of `recv` of either get, and what its inbox still holds, are message
payloads that the other has sealed for its address, under the other's address, and each of them once at most. -/
theorem mesh_delivers (built : Side → BuiltSession) (events : List MeshEvent)
    (sound : (meshHandshakes lib built events).Sound lib built) (fresh : (events.filterMap (·.paired.entropy)).Nodup)
    (unforged : UnforgedRun (.start lib built) events) (side : Side) :
    let reached := (mesh lib).exec (.start lib built) events
    ∃ part : List Sealing, part.Subperm (reached.sealed side.other) ∧
      reached.received side ++ (reached.session side).inbox =
        part.map (fun item => ((built side.other).vpnAddr, item.payload)) ∧
      ∀ item ∈ part, item.header.type_ = Header.message ∧ item.dest = (built side).vpnAddr := by
  intro reached
  obtain ⟨part, within, values, good⟩ := filed_of_mesh built events sound fresh unforged side
  exact ⟨part, within, (received_of_mesh built events side).trans values, good⟩

end Delivery

/-! ## Sealing -/

section Sealing

theorem sealing_sublist (inner : lib.Inner) (event : SessionEvent) :
    ((sealing inner event).map fun item => (item.index, item.nonce)).Sublist (nonces inner event) := by
  cases event with
  | sendTyped v type_ payload =>
    rcases seals : sender inner (.sendTyped v type_ payload) with _ | ⟨i, peer⟩
    · simp only [sealing, seals, List.map_nil, List.nil_sublist]
    · rcases sent : (sendTyped lib inner v type_ payload).2 with failure | packet
      · simp only [sealing, seals, sent, List.map_nil, List.nil_sublist]
      · simp only [sealing, seals, sent, nonces, List.map_cons, List.map_nil, Option.toList_some]
        exact List.Sublist.refl _
  | datagram | resolveKnown | awaitLighthouse | openHandshake | peerInfo | recv => exact List.nil_sublist _

variable (lib) in
/-- The data packets that the callers of `send` of one session were given in a run. -/
def putOut (built : Side → BuiltSession) (side : Side) (events : List MeshEvent) : List Bytes :=
  (mesh lib).gather (fun m event =>
    if event.side = side then ((mesh lib).step m event).2.sentPacket else []) (.start lib built) events

/-- Packet for packet, what goes out is what is on record. -/
theorem putOut_sealed (built : Side → BuiltSession) (side : Side) (events : List MeshEvent) :
    List.Forall₂ (Sealing.SealedAs lib) (((mesh lib).exec (.start lib built) events).sealed side)
      (putOut lib built side events) := by
  induction events using List.reverseRecOn with
  | nil => exact .nil
  | append_singleton events event ih =>
    rw [System.exec_concat, sealed_step, putOut, System.gather_concat]
    refine List.rel_append ih ?_
    unfold MeshEvent.stepOf
    split
    next here =>
      subst here
      rw [System.gather, System.gather, List.append_nil]
      exact sealing_of_sent _ event.step
    · exact .nil

/-- In the same system, with at most 2^64 - 3 sends on either side: the packets that go out on either side are one
for one and in their order its payloads on record, each sealed under the key, the nonce and the header there; and no
key seals two payloads with one nonce, be it on the same side or not, in one tunnel or in two. -/
theorem mesh_seals_once (built : Side → BuiltSession) (events : List MeshEvent)
    (sound : (meshHandshakes lib built events).Sound lib built)
    (fresh : (events.filterMap (·.paired.entropy)).Nodup) (unforged : UnforgedRun (.start lib built) events)
    (few : ∀ side, 2 + sealings (events.flatMap (·.stepOf side)) < 2 ^ 64) :
    let reached := (mesh lib).exec (.start lib built) events
    (∀ side, List.Forall₂ (Sealing.SealedAs lib) (reached.sealed side) (putOut lib built side events)) ∧
      ((reached.sealed .left ++ reached.sealed .right).map fun item => (item.cipher.key, item.nonce)).Nodup := by
  intro reached
  refine ⟨fun side => putOut_sealed built side events, ?_⟩
  obtain ⟨h, within, explained⟩ :=
    explained_mesh sound.toIdeal events fresh unforged ⟨List.Subset.refl _, List.Subset.refl _⟩
  have kept : Kept reached := kept_run events
  have apart {side side' : Side} {one other : Sealing} (here : one ∈ reached.sealed side)
      (there : other ∈ reached.sealed side') (same : one.cipher.key = other.cipher.key) :
      side = side' ∧ one.index = other.index := by
    obtain ⟨-, peer, -, -, held, cipher, -, -⟩ := kept.under side one here
    obtain ⟨-, peer', -, -, held', cipher', -, -⟩ := kept.under side' other there
    rw [cipher, cipher'] at same
    exact explained.sends_apart (sound.within within) held held' same
  have oneSide (side : Side) : ((reached.sealed side).map fun item => (item.cipher.key, item.nonce)).Nodup := by
    have roomy : Roomy (events.flatMap (·.stepOf side)) ((built side).start : lib.Inner) :=
      ⟨few side, fun i peer held => by cases held⟩
    have distinct : ((reached.sealed side).map fun item => (item.index, item.nonce)).Nodup := by
      have onRecord : reached.sealed side =
          (session lib).gather sealing (built side).start (events.flatMap (·.stepOf side)) :=
        (session_of_mesh side (.start lib built) events).2.1
      rw [onRecord, ← System.gather_map]
      exact (nonces_of_roomy roomy).sublist ((session lib).gather_sublist sealing_sublist _ _)
    refine List.pairwise_map.mpr ((List.pairwise_map.mp distinct).imp_of_mem ?_)
    intro one other here there different same
    obtain ⟨key, nonce⟩ := Prod.mk.inj same
    exact different (Prod.ext (apart here there key).2 nonce)
  rw [List.map_append]
  refine List.nodup_append.mpr ⟨oneSide .left, oneSide .right, ?_⟩
  rintro _ left _ right rfl
  obtain ⟨one, here, rfl⟩ := List.mem_map.mp left
  obtain ⟨other, there, same⟩ := List.mem_map.mp right
  cases (apart here there (Prod.mk.inj same).1.symm).1

end Sealing

/-! ## Two hosts, and a packet that comes twice

Whether a delivery is forged can be checked where it happens.
-/

section Check

def genuineDelivery (m : Mesh lib) (side : Side) (event : SessionEvent) (datagram : Bytes) : Bool :=
  match event.packet with
  | none => (m.sent side.other).any fun sent => handshakeBody sent = handshakeBody datagram
  | some packet =>
    match (m.session side).tunnel packet.hdr.remoteIndex with
    | none => true
    | some peer =>
      match peer.transport.recvCipher.decrypt lib.aead packet.hdr.messageCounter packet.headerBytes packet.body with
      | .error _ => true
      | .ok plain => (m.sealed .left ++ m.sealed .right).any fun item =>
          item.cipher = peer.transport.recvCipher ∧ item.header.encode = packet.headerBytes ∧ item.payload = plain

def genuineRun : Mesh lib → List MeshEvent → Bool
  | _, [] => true
  | m, event :: rest =>
    (match event with
      | .call .. => true
      | .deliver side datagram _ _ => genuineDelivery m side event.step datagram) &&
      genuineRun ((mesh lib).step m event).1 rest

theorem unforged_of_genuine {m : Mesh lib} {side : Side} {datagram : Bytes} {source : SocketAddr} {ambient : Ambient}
    (genuine : genuineDelivery m side (.datagram datagram source ambient) datagram = true) :
    Unforged m side datagram source ambient := by
  unfold genuineDelivery at genuine
  rcases carries : (SessionEvent.datagram datagram source ambient).packet with _ | packet
  · rw [carries] at genuine
    obtain ⟨sent, member, same⟩ := List.any_eq_true.mp genuine
    exact ⟨fun _ _ _ _ => ⟨sent, member, of_decide_eq_true same⟩, fun _ _ _ some => by cases carries.symm.trans some⟩
  · rw [carries] at genuine
    constructor
    · intro i peer free now
      -- A data packet makes no tunnel.
      cases tunnelStep (m.session side) (.datagram datagram source ambient) with
      | aside none => cases carries.symm.trans none
      | added k new none => cases carries.symm.trans none
      | drew k old none => cases carries.symm.trans none
      | received other carries' seals tunnels =>
        obtain rfl := Option.some.inj (carries.symm.trans carries')
        exact absurd now (by
          change ((session lib).step (m.session side) (.datagram datagram source ambient)).1.tunnel i ≠ some peer
          rw [tunnels, Function.update_apply]
          split
          next here =>
            rw [← here, free]
            exact nofun
          · rw [free]
            exact nofun)
    · intro packet' peer plain carries' held decrypted
      obtain rfl := Option.some.inj (carries.symm.trans carries')
      dsimp only at genuine
      rw [held] at genuine
      dsimp only at genuine
      rw [decrypted] at genuine
      obtain ⟨item, member, same⟩ := List.any_eq_true.mp genuine
      rcases List.mem_append.mp member with left | right
      · exact ⟨.left, item, left, of_decide_eq_true same⟩
      · exact ⟨.right, item, right, of_decide_eq_true same⟩

theorem unforgedRun_of_genuine {m : Mesh lib} {events : List MeshEvent} (genuine : genuineRun m events = true) :
    UnforgedRun m events := by
  induction events generalizing m with
  | nil => trivial
  | cons event rest ih =>
    obtain ⟨here, later⟩ := (Bool.and_eq_true_iff).mp genuine
    refine ⟨?_, ih later⟩
    cases event with
    | call => trivial
    | deliver side datagram source ambient => exact unforged_of_genuine here

end Check

namespace TestNetwork

/-- The bound handshake and an AEAD that opens packets. -/
def dataNetwork : Externals := { boundNetwork with aead := clearAead }

/-- Handshakes on this network are as they should be, whoever makes them. -/
theorem dataNetwork_sound {built : Side → BuiltSession} {h : History BoundParty}
    (calls : h.Calls dataNetwork built) : h.Sound dataNetwork built where
  toIdeal :=
    have ideal := boundNetwork_ideal ⟨calls.opened, calls.answered⟩
    ⟨ideal.reads, ideal.finishes, ideal.fresh⟩
  twoKeys a member := by
    obtain ⟨drawn, -, -, -, -, sends, receives⟩ := respond_bound (calls.answered a member)
    rw [sends, receives]
    intro same
    exact drawn.ne_flipped drawn (splitKey_inj ((List.length_map _).trans drawn.1) drawn.1 same).symm

/-- What host A seals for host B. -/
def packetToB (counter : UInt64) (payload : Bytes) : Bytes :=
  (dataHeader Header.message indexB counter).encode ++ (payload ++ (splitKey (ambient 2).entropy).items.take 16)

def reply : Bytes := (afterCopy.sent .right).headD []

/-- Host A opens a tunnel and sends two messages; host B gets a packet that nobody sealed, then the second message,
then the first, twice. -/
def reorderedMesh : List MeshEvent :=
  [.call .left (.openHandshake (vpn 2) (endpoint 2) 0 (ambient 1)) rfl,
    .deliver .right stage0Datagram (endpoint 1) (ambient 2), .deliver .left reply (endpoint 2) (ambient 3),
    .call .left (.sendTyped (vpn 2) Header.message [1, 2, 3]) rfl,
    .call .left (.sendTyped (vpn 2) Header.message [4]) rfl,
    .deliver .right ((dataHeader Header.message indexB 9).encode ++ List.replicate 20 0) (endpoint 9) (ambient 4),
    .deliver .right (packetToB 4 [4]) (endpoint 1) (ambient 5),
    .deliver .right (packetToB 3 [1, 2, 3]) (endpoint 1) (ambient 6),
    .deliver .right (packetToB 3 [1, 2, 3]) (endpoint 1) (ambient 7), .call .right .recv rfl]

def reorderedEnd : Mesh dataNetwork := (mesh dataNetwork).exec (.start dataNetwork hosts) reorderedMesh

theorem reorderedMesh_unforged : UnforgedRun (.start dataNetwork hosts) reorderedMesh :=
  unforgedRun_of_genuine (by decide +kernel)

theorem reorderedMesh_fresh : (reorderedMesh.filterMap (·.paired.entropy)).Nodup := by decide +kernel

end TestNetwork

open TestNetwork in
/-- Each message arrives once, though one is late and comes twice. -/
theorem reordered_messages_arrive_once :
    (∃ part : List Sealing, part.Subperm (reorderedEnd.sealed .left) ∧
      reorderedEnd.received .right ++ (reorderedEnd.session .right).inbox =
        part.map fun item => ((hosts .left).vpnAddr, item.payload)) ∧
      reorderedEnd.received .right = [(vpn 1, [4])] ∧ (reorderedEnd.session .right).inbox = [(vpn 1, [1, 2, 3])] := by
  have delivers := mesh_delivers hosts reorderedMesh (dataNetwork_sound (meshHandshakes_calls hosts reorderedMesh))
    reorderedMesh_fresh reorderedMesh_unforged .right
  rw [← reorderedEnd, show Side.right.other = Side.left from rfl] at delivers
  obtain ⟨part, within, same, -⟩ := delivers
  have evaluated : reorderedEnd.received .right = [(vpn 1, [4])] ∧
      (reorderedEnd.session .right).inbox = [(vpn 1, [1, 2, 3])] := by decide +kernel
  exact ⟨⟨part, within, same⟩, evaluated⟩

open TestNetwork in
/-- Host A seals two messages under one key, which are the two packets it sends. -/
theorem two_messages_two_nonces :
    List.Forall₂ (Sealing.SealedAs dataNetwork) (reorderedEnd.sealed .left)
        (putOut dataNetwork hosts .left reorderedMesh) ∧
      ((reorderedEnd.sealed .left ++ reorderedEnd.sealed .right).map fun item => (item.cipher.key, item.nonce)).Nodup ∧
      (reorderedEnd.sealed .left).map Sealing.payload = [[1, 2, 3], [4]] := by
  have few (side : Side) : 2 + sealings (reorderedMesh.flatMap (·.stepOf side)) < 2 ^ 64 := by
    cases side with
    | left => decide +kernel
    | right => decide +kernel
  have sealed : (reorderedEnd.sealed .left).map Sealing.payload = [[1, 2, 3], [4]] := by decide +kernel
  have once := mesh_seals_once hosts reorderedMesh (dataNetwork_sound (meshHandshakes_calls hosts reorderedMesh))
    reorderedMesh_fresh reorderedMesh_unforged few
  rw [← reorderedEnd] at once
  exact ⟨once.1 .left, once.2, sealed⟩

end Nebula
