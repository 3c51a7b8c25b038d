import Nebula.Protocol.Tunnels

/-! # What a session accepts

The windows of a session only close: a number that a tunnel has taken it refuses for good, and a tunnel that exists
is never replaced. So no packet is opened twice, whatever datagrams reach the session, and the callers of `recv`
get the contents of each at most once.
-/

namespace Nebula

open Rust Machine

variable {lib : Externals}

namespace ReplayWindow

variable {w : ReplayWindow} {counter : UInt64}

/-- A counter that has been tried is refused from then on. -/
theorem refuses_after (w : ReplayWindow) (counter : UInt64) : (w.checkAndUpdate counter).1.Refuses counter := by
  by_cases refused : w.Refuses counter
  · rw [checkAndUpdate_of_refuses refused]
    exact refused
  · by_cases above : w.current < counter
    · rw [checkAndUpdate_above above]
      refine ⟨UInt64.le_refl _, .inr ?_⟩
      have zero : ((w.jumpTo counter).current - counter).toNat = 0 := congrArg UInt64.toNat (UInt64.sub_self counter)
      rw [current_mark, bit_mark, zero]
      exact Bool.or_true _
    · have behind : counter ≤ w.current := UInt64.not_lt.mp above
      have clear : ¬ (windowSize ≤ (w.current - counter).toNat ∨ w.bit (w.current - counter).toNat = true) :=
        fun old => refused ⟨behind, old⟩
      rw [not_or, Nat.not_le] at clear
      rw [checkAndUpdate_behind behind clear.1, if_neg clear.2]
      refine ⟨behind, .inr ?_⟩
      rw [current_mark, bit_mark, decide_eq_true rfl, Bool.or_true]

/-- What the window refuses it refuses for good. -/
theorem Refuses.checkAndUpdate (refused : w.Refuses counter) (other : UInt64) :
    (w.checkAndUpdate other).1.Refuses counter := by
  obtain ⟨behind, old⟩ := refused
  by_cases above : w.current < other
  · have order : counter ≤ other := UInt64.le_trans behind (UInt64.le_of_lt above)
    rw [checkAndUpdate_above above]
    refine ⟨order, ?_⟩
    have far : (other - counter).toNat = (w.current - counter).toNat + (other - w.current).toNat := by
      rw [UInt64.toNat_sub_of_le _ _ order, UInt64.toNat_sub_of_le _ _ behind,
        UInt64.toNat_sub_of_le _ _ (UInt64.le_of_lt above)]
      rw [UInt64.le_iff_toNat_le] at behind
      rw [UInt64.lt_iff_toNat_lt] at above
      omega
    change windowSize ≤ (other - counter).toNat ∨ ((w.jumpTo other).mark 0).bit (other - counter).toNat = true
    by_cases inside : (other - counter).toNat < windowSize
    · have marked := old.resolve_left (by omega)
      refine .inr ?_
      rw [bit_mark, bit_jumpTo w other inside, decide_eq_true (by omega : (other - w.current).toNat ≤ _), far,
        Nat.add_sub_cancel, marked]
      rfl
    · exact .inl (Nat.not_lt.mp inside)
  · have notAbove : other ≤ w.current := UInt64.not_lt.mp above
    by_cases inside : (w.current - other).toNat < windowSize
    · rw [checkAndUpdate_behind notAbove inside]
      split
      · exact ⟨behind, old⟩
      · refine ⟨behind, old.imp_right fun marked => ?_⟩
        rw [current_mark, bit_mark, marked, Bool.true_or]
    · rw [checkAndUpdate_stale notAbove inside]
      exact ⟨behind, old⟩

end ReplayWindow

/-- The index and the packet number of a data packet that the session opens. -/
def accepted (inner : lib.Inner) (event : SessionEvent) : List (UInt32 × UInt64) :=
  (event.packet.toList.filter fun packet =>
    (openPacket lib inner packet.hdr packet.headerBytes packet.body).2.isSome).map fun packet =>
      (packet.hdr.remoteIndex, packet.hdr.messageCounter)

/-- The tunnel at this index takes no packet of this number any more. -/
def Closed (inner : lib.Inner) (packet : UInt32 × UInt64) : Prop :=
  ∃ peer, inner.tunnel packet.1 = some peer ∧ peer.transport.replay.Refuses packet.2

section Accept

variable {inner : lib.Inner}

theorem replay_received (peer : Peer) (aead : Aead) (packet : DataPacket) :
    (peer.received aead packet).transport.replay =
      (peer.transport.replay.checkAndUpdate packet.hdr.messageCounter).1 := by
  unfold Peer.received Transport.decrypt
  dsimp only
  split
  · rfl
  · rfl

theorem Closed.step {used : UInt32 × UInt64} (closed : Closed inner used) (event : SessionEvent) :
    Closed ((session lib).step inner event).1 used := by
  obtain ⟨peer, held, refused⟩ := closed
  cases tunnelStep inner event with
  | aside carries seals tunnels => exact ⟨peer, by rw [tunnels, held], refused⟩
  | added k new carries seals free fresh tunnels =>
    have apart : used.1 ≠ k := by
      intro here
      rw [← here, held] at free
      cases free
    exact ⟨peer, by rw [tunnels, Function.update_of_ne apart, held], refused⟩
  | received packet carries seals tunnels =>
    by_cases here : used.1 = packet.hdr.remoteIndex
    · refine ⟨peer.received lib.aead packet, ?_, ?_⟩
      · rw [tunnels, here, Function.update_self, ← here, held]
        rfl
      · rw [replay_received]
        exact refused.checkAndUpdate packet.hdr.messageCounter
    · exact ⟨peer, by rw [tunnels, Function.update_of_ne here, held], refused⟩
  | drew k old carries seals was tunnels =>
    by_cases here : used.1 = k
    · subst here
      obtain rfl := Option.some.inj (held.symm.trans was)
      exact ⟨peer.drawn, by rw [tunnels, Function.update_self], refused⟩
    · exact ⟨peer, by rw [tunnels, Function.update_of_ne here, held], refused⟩

/-- A packet opens only under a tunnel whose window takes its number. -/
theorem mem_accepted {event : SessionEvent} {used : UInt32 × UInt64} (opened : used ∈ accepted inner event) :
    ∃ packet peer, event.packet = some packet ∧ used = (packet.hdr.remoteIndex, packet.hdr.messageCounter) ∧
      inner.tunnel packet.hdr.remoteIndex = some peer ∧
      ¬ peer.transport.replay.Refuses packet.hdr.messageCounter := by
  obtain ⟨packet, found, rfl⟩ := List.mem_map.mp opened
  obtain ⟨carried, opens⟩ := List.mem_filter.mp found
  rw [(tunnel_openPacket inner packet).2] at opens
  rcases held : inner.tunnel packet.hdr.remoteIndex with _ | peer
  · rw [held] at opens
    cases opens
  · refine ⟨packet, peer, Option.mem_toList.mp carried, rfl, held, fun refused => ?_⟩
    let call : SealedPacket :=
      ⟨packet.hdr.messageCounter, packet.headerBytes, packet.body, List.replicate packet.body.length 0⟩
    have replayed : (peer.transport.receive lib.aead call).2 = .error (.err .replayedPacket) := by
      rw [Transport.receive_of_refuses lib.aead refused]
    change (peer.transport.decrypt lib.aead _ _ _ _).2 = _ at replayed
    rw [held, Option.bind_some, replayed] at opens
    cases opens

/-- Whatever datagrams reach a session, in whatever order and however often, and whatever its callers do
meanwhile: it opens no two packets with one number under one index. -/
theorem accepted_once (inner : lib.Inner) (events : List SessionEvent) :
    ((session lib).gather accepted inner events).Nodup := by
  refine (session lib).nodup_gather (fun _ _ => True) Closed (fun _ _ _ _ => trivial) ?_ ?_ trivial
  · intro event rest inner _
    refine ⟨?_, ?_⟩
    · unfold accepted
      cases event.packet with
      | none => exact List.nodup_nil
      | some packet =>
        rw [Option.toList_some, List.filter_cons]
        split
        · simp
        · exact List.nodup_nil
    · rintro used opened ⟨peer, held, refused⟩
      obtain ⟨packet, other, -, rfl, there, fresh⟩ := mem_accepted opened
      obtain rfl := Option.some.inj (held.symm.trans there)
      exact fresh refused
  · rintro event rest inner _ used (closed | opened)
    · exact closed.step event
    · obtain ⟨packet, peer, carried, rfl, held, -⟩ := mem_accepted opened
      cases tunnelStep inner event with
      | received other carries seals tunnels =>
        obtain rfl := Option.some.inj (carried.symm.trans carries)
        refine ⟨peer.received lib.aead packet, ?_, ?_⟩
        · rw [tunnels, Function.update_self, held]
          rfl
        · rw [replay_received]
          exact ReplayWindow.refuses_after peer.transport.replay packet.hdr.messageCounter
      | aside none => cases carried.symm.trans none
      | added k new none => cases carried.symm.trans none
      | drew k old none => cases carried.symm.trans none

/-- The item a data packet puts into the inbox, with the index and the number of the packet. -/
def filed (inner : lib.Inner) (event : SessionEvent) : List ((UInt32 × UInt64) × IpAddr × Bytes) :=
  (event.packet.toList.filter fun packet => packet.hdr.type_ = Header.message).flatMap fun packet =>
    ((openPacket lib inner packet.hdr packet.headerBytes packet.body).2.map fun (peer, bytes) =>
      ((packet.hdr.remoteIndex, packet.hdr.messageCounter), peer.vpnAddr, bytes)).toList

/-- What a caller of `recv` gets. -/
def taken (inner : lib.Inner) : SessionEvent → List (IpAddr × Bytes)
  | .recv => (recv lib inner).2.toList
  | _ => []

theorem filed_of_packet {event : SessionEvent} (carries : event.packet = none) : filed inner event = [] := by
  unfold filed
  rw [carries]
  rfl

theorem filed_of_some {event : SessionEvent} {packet : DataPacket} (carries : event.packet = some packet) :
    filed inner event =
      if packet.hdr.type_ = Header.message then
        ((openPacket lib inner packet.hdr packet.headerBytes packet.body).2.map fun (peer, bytes) =>
          ((packet.hdr.remoteIndex, packet.hdr.messageCounter), peer.vpnAddr, bytes)).toList
      else [] := by
  simp only [filed, carries, Option.toList_some, List.filter_cons, List.filter_nil, decide_eq_true_eq]
  split
  · rw [List.flatMap_cons, List.flatMap_nil, List.append_nil]
  · rfl

/-- The inbox is a queue: data packets file at its end and `recv` takes from its head. -/
theorem inbox_step (inner : lib.Inner) (event : SessionEvent) :
    taken inner event ++ ((session lib).step inner event).1.inbox =
      inner.inbox ++ (filed inner event).map Prod.snd := by
  cases event with
  | datagram bytes source ambient =>
    change (handleDatagram lib inner bytes source ambient).1.inbox = _
    unfold handleDatagram
    split
    next failure parsed =>
      rw [filed_of_packet (by simp only [SessionEvent.packet, parsed])]
      exact (List.append_nil _).symm
    next hdr parsed =>
      dsimp only
      have unfiled := (tunnelsOnly_openPacket inner hdr (bytes.take Header.len) (bytes.drop Header.len)).inbox
      split_ifs with handshake message lighthouse
      · rw [filed_of_packet (by simp only [SessionEvent.packet, parsed, handshake]; rfl)]
        exact (tunnelsOnly_handleHandshake inner hdr (bytes.drop Header.len) source ambient).inbox.trans
          (List.append_nil _).symm
      · have carries : (SessionEvent.datagram bytes source ambient).packet =
            some ⟨hdr, bytes.take Header.len, bytes.drop Header.len⟩ := by
          simp only [SessionEvent.packet, parsed, if_pos (Or.inl message)]
        rw [filed_of_some carries, if_pos message]
        unfold handleMessage
        split
        next next peer plain opened =>
          rw [opened] at unfiled ⊢
          exact congrArg (· ++ [(peer.vpnAddr, plain)]) unfiled
        next next opened =>
          rw [opened] at unfiled ⊢
          exact unfiled.trans (List.append_nil _).symm
      · have carries : (SessionEvent.datagram bytes source ambient).packet =
            some ⟨hdr, bytes.take Header.len, bytes.drop Header.len⟩ := by
          simp only [SessionEvent.packet, parsed, if_pos (Or.inr lighthouse)]
        rw [filed_of_some carries, if_neg message]
        refine Eq.trans ?_ (List.append_nil _).symm
        unfold handleLighthousePacket
        split
        next next peer plain opened =>
          rw [opened] at unfiled
          exact (handleLighthouse_spec next plain).2.2.2.trans unfiled
        next next opened =>
          rw [opened] at unfiled
          exact unfiled
      · rw [filed_of_packet (by simp only [SessionEvent.packet, parsed, message, lighthouse, or_self, if_false])]
        exact (List.append_nil _).symm
  | resolveKnown v => exact (List.append_nil _).symm
  | awaitLighthouse v waiter => exact (List.append_nil _).symm
  | openHandshake v remote waiter ambient =>
    exact (tunnelsOnly_openHandshake inner v remote waiter ambient).inbox.trans (List.append_nil _).symm
  | sendTyped v type_ payload =>
    exact (tunnelsOnly_sendTyped inner v type_ payload).inbox.trans (List.append_nil _).symm
  | peerInfo v => exact (List.append_nil _).symm
  | recv =>
    change (recv lib inner).2.toList ++ (recv lib inner).1.inbox = inner.inbox ++ []
    unfold recv
    split
    next empty => rw [empty]; rfl
    next item rest held => rw [held]; exact (List.append_nil _).symm

/-- An item is filed for an accepted packet, and for no other item's packet. -/
theorem filed_sublist (inner : lib.Inner) (event : SessionEvent) :
    ((filed inner event).map Prod.fst).Sublist (accepted inner event) := by
  unfold filed accepted
  cases event.packet with
  | none => exact List.Sublist.refl _
  | some packet =>
    rcases opened : (openPacket lib inner packet.hdr packet.headerBytes packet.body).2 with _ | found
    · by_cases message : packet.hdr.type_ = Header.message <;> simp [opened, message]
    · by_cases message : packet.hdr.type_ = Header.message <;> simp [opened, message]

theorem received_in_order (inner : lib.Inner) (events : List SessionEvent) :
    (session lib).gather taken inner events ++ ((session lib).exec inner events).inbox =
      inner.inbox ++ ((session lib).gather filed inner events).map Prod.snd := by
  rw [← System.gather_map]
  exact (session lib).queue_run taken (fun inner event => (filed inner event).map Prod.snd) Inner.inbox
    inbox_step inner events

theorem filed_once (inner : lib.Inner) (events : List SessionEvent) :
    (((session lib).gather filed inner events).map Prod.fst).Nodup := by
  rw [← System.gather_map]
  exact (accepted_once inner events).sublist ((session lib).gather_sublist filed_sublist inner events)

/-- Whatever datagrams reach a session, in whatever order and however often: the callers of `recv` get, in order,
what was in the inbox and then the contents of message packets, and no packet number of an index twice. -/
theorem received_once (inner : lib.Inner) (events : List SessionEvent) :
    (session lib).gather taken inner events ++ ((session lib).exec inner events).inbox =
        inner.inbox ++ ((session lib).gather filed inner events).map Prod.snd ∧
      (((session lib).gather filed inner events).map Prod.fst).Nodup :=
  ⟨received_in_order inner events, filed_once inner events⟩

end Accept

end Nebula
