import Nebula.Protocol.Tunnels

/-! # What a session seals under

A tunnel draws its counters one after another and never goes back, and a tunnel that exists is never replaced. So
as long as a session is not asked for more packets than a tunnel has counters, no key and nonce of a tunnel serve
twice.
-/

namespace Nebula

open Rust Machine

variable {lib : Externals}

theorem CipherImpl.nonce_injective (c : CipherImpl) : Function.Injective c.nonce := by
  intro one other same
  have bytes : beBytes 8 one.toNat = beBytes 8 other.toNat := by
    have tails := List.append_cancel_left same
    cases kind : c.cipher with
    | aesGcm => simpa only [kind] using tails
    | chaChaPoly => exact List.reverse_injective (by simpa only [kind] using tails)
  have numbers := congrArg beNat bytes
  rw [beNat_beBytes 8 _ one.toNat_lt, beNat_beBytes 8 _ other.toNat_lt] at numbers
  exact UInt64.toNat_inj.mp numbers

/-- The tunnel an event seals a payload under, and the nonce it seals it with. -/
def nonces (inner : lib.Inner) (event : SessionEvent) : List (UInt32 × Bytes) :=
  (sender inner event).toList.map fun (i, peer) =>
    (i, peer.transport.sendCipher.nonce peer.transport.nextCounter.2)

def SessionEvent.sends : SessionEvent → Bool
  | .sendTyped .. => true
  | _ => false

section Send

variable {inner : lib.Inner} {i : UInt32} {peer : Peer}

theorem sends_of_sender {event : SessionEvent} (seals : sender inner event = some (i, peer)) :
    event.sends = true := by
  cases event with
  | sendTyped => rfl
  | _ => cases seals

/-- How many payloads a run is asked to seal. -/
def sealings (events : List SessionEvent) : ℕ := events.countP SessionEvent.sends

theorem sealings_cons (event : SessionEvent) (rest : List SessionEvent) :
    sealings (event :: rest) = sealings rest + if event.sends then 1 else 0 := List.countP_cons

/-- No tunnel runs out of counters in what is still to come. -/
def Roomy (rest : List SessionEvent) (inner : lib.Inner) : Prop :=
  2 + sealings rest < 2 ^ 64 ∧ ∀ i peer, inner.tunnel i = some peer →
    peer.transport.sendCounter.toNat + sealings rest < 2 ^ 64

/-- The tunnel has sealed under the nonce, or passed it over. -/
def Spent (inner : lib.Inner) (used : UInt32 × Bytes) : Prop :=
  ∃ peer counter, inner.tunnel used.1 = some peer ∧ counter ≤ peer.transport.sendCounter ∧
    used.2 = peer.transport.sendCipher.nonce counter

theorem nextCounter_of_room {t : Transport} (more : ℕ) (room : t.sendCounter.toNat + (more + 1) < 2 ^ 64) :
    t.nextCounter.2.toNat = t.sendCounter.toNat + 1 := by
  change (t.sendCounter + 1).toNat = _
  rw [UInt64.toNat_add]
  exact Nat.mod_eq_of_lt (by simp; omega)

/-- The sending half of a tunnel takes no part in receiving. -/
theorem received_sends (peer : Peer) (aead : Aead) (packet : DataPacket) :
    (peer.received aead packet).transport.sendCipher = peer.transport.sendCipher ∧
      (peer.received aead packet).transport.sendCounter = peer.transport.sendCounter := by
  unfold Peer.received Transport.decrypt
  dsimp only
  split
  · exact ⟨rfl, rfl⟩
  · exact ⟨rfl, rfl⟩

theorem Roomy.step {event : SessionEvent} {rest : List SessionEvent} (roomy : Roomy (event :: rest) inner) :
    Roomy rest ((session lib).step inner event).1 := by
  obtain ⟨few, room⟩ := roomy
  rw [sealings_cons] at few
  have fewer (k : UInt32) (other : Peer) (there : inner.tunnel k = some other) :
      other.transport.sendCounter.toNat + sealings rest < 2 ^ 64 := by
    have bound := room k other there
    rw [sealings_cons] at bound
    omega
  refine ⟨by omega, ?_⟩
  cases tunnelStep inner event with
  | aside carries seals tunnels => exact tunnels ▸ fewer
  | added k new carries seals free fresh tunnels =>
    intro i peer now
    rw [tunnels, Function.update_apply] at now
    split at now
    · obtain ⟨_, _, _, transport⟩ := fresh
      cases now
      rw [transport]
      exact lt_of_le_of_lt (Nat.add_le_add_left (Nat.le_add_right _ _) 2) few
    · exact fewer i peer now
  | received packet carries seals tunnels =>
    intro i peer now
    rw [tunnels, Function.update_apply] at now
    split at now
    next here =>
      obtain ⟨before, was, rfl⟩ := Option.map_eq_some_iff.mp now
      rw [(received_sends before lib.aead packet).2]
      exact fewer _ before was
    · exact fewer i peer now
  | drew k old carries seals held tunnels =>
    intro i peer now
    rw [tunnels, Function.update_apply] at now
    split at now
    next here =>
      cases now
      have bound := room k old held
      rw [sealings_cons, if_pos (sends_of_sender seals)] at bound
      have next : old.drawn.transport.sendCounter.toNat = old.transport.sendCounter.toNat + 1 :=
        nextCounter_of_room (sealings rest) bound
      omega
    · exact fewer i peer now

/-- What a tunnel has sealed under it never seals under again: its key stays and its counter only grows. -/
theorem Spent.step {event : SessionEvent} {rest : List SessionEvent} {used : UInt32 × Bytes}
    (roomy : Roomy (event :: rest) inner) (spent : Spent inner used) :
    Spent ((session lib).step inner event).1 used := by
  obtain ⟨peer, counter, held, below, same⟩ := spent
  cases tunnelStep inner event with
  | aside carries seals tunnels => exact ⟨peer, counter, by rw [tunnels, held], below, same⟩
  | added k new carries seals free fresh tunnels =>
    have apart : used.1 ≠ k := by
      intro here
      rw [← here, held] at free
      cases free
    exact ⟨peer, counter, by rw [tunnels, Function.update_of_ne apart, held], below, same⟩
  | received packet carries seals tunnels =>
    by_cases here : used.1 = packet.hdr.remoteIndex
    · obtain ⟨cipher, sent⟩ := received_sends peer lib.aead packet
      refine ⟨peer.received lib.aead packet, counter, ?_, sent ▸ below, cipher ▸ same⟩
      rw [tunnels, here, Function.update_self, ← here, held]
      rfl
    · exact ⟨peer, counter, by rw [tunnels, Function.update_of_ne here, held], below, same⟩
  | drew k old carries seals was tunnels =>
    by_cases here : used.1 = k
    · subst here
      obtain rfl := Option.some.inj (held.symm.trans was)
      have bound := roomy.2 _ _ held
      rw [sealings_cons, if_pos (sends_of_sender seals)] at bound
      refine ⟨peer.drawn, counter, by rw [tunnels, Function.update_self], ?_, same⟩
      have next : peer.drawn.transport.sendCounter.toNat = peer.transport.sendCounter.toNat + 1 :=
        nextCounter_of_room (sealings rest) bound
      rw [UInt64.le_iff_toNat_le] at below ⊢
      omega
    · exact ⟨peer, counter, by rw [tunnels, Function.update_of_ne here, held], below, same⟩

theorem mem_nonces {event : SessionEvent} {used : UInt32 × Bytes} (sealed : used ∈ nonces inner event) :
    ∃ peer, sender inner event = some (used.1, peer) ∧
      used.2 = peer.transport.sendCipher.nonce peer.transport.nextCounter.2 := by
  obtain ⟨⟨i, peer⟩, source, rfl⟩ := List.mem_map.mp sealed
  exact ⟨peer, Option.mem_toList.mp source, rfl⟩

/-- From any state, a session that is not asked for more packets than it has counters left seals no two of
them with one nonce under the key of one tunnel. -/
theorem nonces_of_roomy {events : List SessionEvent} (roomy : Roomy events inner) :
    ((session lib).gather nonces inner events).Nodup := by
  refine (session lib).nodup_gather Roomy Spent (fun _ _ _ => Roomy.step) ?_ ?_ roomy
  · intro event rest inner roomy
    refine ⟨?_, fun used sealed spent => ?_⟩
    · unfold nonces
      cases sender inner event with
      | none => exact List.nodup_nil
      | some sealing => simp
    · obtain ⟨peer, seals, nonce⟩ := mem_nonces sealed
      obtain ⟨other, counter, held, below, same⟩ := spent
      have was : inner.tunnel used.1 = some peer := by
        cases tunnelStep inner event with
        | aside carries none => cases none.symm.trans seals
        | added k new carries none => cases none.symm.trans seals
        | received packet carries none => cases none.symm.trans seals
        | drew k old carries some held =>
          cases some.symm.trans seals
          exact held
      obtain rfl := Option.some.inj (held.symm.trans was)
      have bound := roomy.2 _ _ held
      rw [sealings_cons, if_pos (sends_of_sender seals)] at bound
      have next := nextCounter_of_room (sealings rest) bound
      rw [CipherImpl.nonce_injective _ (same.symm.trans nonce), UInt64.le_iff_toNat_le] at below
      omega
  · rintro event rest inner roomy used (spent | sealed)
    · exact spent.step roomy
    · obtain ⟨peer, seals, nonce⟩ := mem_nonces sealed
      cases tunnelStep inner event with
      | aside carries none => cases none.symm.trans seals
      | added k new carries none => cases none.symm.trans seals
      | received packet carries none => cases none.symm.trans seals
      | drew k old carries some held tunnels =>
        cases some.symm.trans seals
        exact ⟨peer.drawn, _, by rw [tunnels, Function.update_self], UInt64.le_refl _, nonce⟩

/-- A packet that goes out was sealed with the nonce drawn for it, under the key of its tunnel. -/
theorem sent_of_nonces {event : SessionEvent} {packet : Bytes} {dest : SocketAddr}
    (sent : ((session lib).step inner event).2 = .sent (.ok (packet, dest))) :
    ∃ i peer nonce payload header ciphertext, inner.tunnel i = some peer ∧ nonces inner event = [(i, nonce)] ∧
      lib.aead.encrypt peer.transport.sendCipher.cipher peer.transport.sendCipher.key nonce
        (Header.encode header) payload = some ciphertext ∧
      packet = header.encode ++ ciphertext ∧ dest = peer.remote := by
  cases event with
  | sendTyped v type_ payload =>
    have produced := SessionOutput.sent.inj sent
    obtain ⟨i, peer, indexed, here, -⟩ := sendTyped_spec produced
    obtain ⟨rfl, ciphertext, packed, encrypted⟩ := (sendTyped_established indexed here type_ payload).2 _ _ produced
    have held := Inner.tunnel_eq_some_iff.mpr here
    refine ⟨i, peer, peer.transport.sendCipher.nonce peer.transport.nextCounter.2, payload, _, ciphertext, held, ?_,
      ?_, packed, rfl⟩
    · simp only [nonces, sender, indexed, held, Option.bind_some, Option.map_some, Option.toList_some,
        List.map_cons, List.map_nil]
    · unfold CipherImpl.encrypt okOr at encrypted
      split at encrypted
      next sealed => exact sealed.trans (congrArg some (Except.ok.inj encrypted))
      · cases encrypted
  | datagram | resolveKnown | awaitLighthouse | openHandshake | peerInfo | recv => cases sent

/-- Over any run of a session with at most 2^64 - 3 sends: each packet that goes out is sealed, under the key of
the tunnel it goes through, with the one nonce drawn for it, and no tunnel draws a nonce twice. -/
theorem nonces_used_once (caCert hostCert : Certificate) (hostPrivateKey : Key) (cipher : Cipher) (vpnAddr : IpAddr)
    (lighthouses : List IpAddr) (staticHosts : List (IpAddr × SocketAddr)) (events : List SessionEvent)
    (few : 2 + sealings events < 2 ^ 64) :
    let start : lib.Inner := .new caCert hostCert hostPrivateKey cipher vpnAddr lighthouses staticHosts
    ((session lib).gather nonces start events).Nodup ∧
      ∀ before event after packet dest, events = before ++ event :: after →
        ((session lib).step ((session lib).exec start before) event).2 = .sent (.ok (packet, dest)) →
        ∃ i peer nonce payload header ciphertext, ((session lib).exec start before).tunnel i = some peer ∧
          nonces ((session lib).exec start before) event = [(i, nonce)] ∧
          lib.aead.encrypt peer.transport.sendCipher.cipher peer.transport.sendCipher.key nonce
            (Header.encode header) payload = some ciphertext ∧
          packet = header.encode ++ ciphertext ∧ dest = peer.remote := by
  intro start
  have roomy : Roomy events start := ⟨few, fun i peer held => by cases held⟩
  exact ⟨nonces_of_roomy roomy, fun _ _ _ _ _ _ sent => sent_of_nonces sent⟩

open TestNetwork in
/-- Two packets of one tunnel. -/
theorem second_packet_second_nonce :
    let events : List SessionEvent :=
      [.openHandshake (vpn 2) (endpoint 2) 0 (ambient 1), .datagram stage2Datagram (endpoint 2) (ambient 3),
        .sendTyped (vpn 2) Header.message [1], .sendTyped (vpn 2) Header.message [1]]
    ((session meshNetwork).gather nonces (.new ca hostA keyA .aesGcm (vpn 1) [] []) events).Nodup ∧
      (session meshNetwork).gather nonces (.new ca hostA keyA .aesGcm (vpn 1) [] []) events =
        [(indexA, List.replicate 11 0 ++ [3]), (indexA, List.replicate 11 0 ++ [4])] := by
  intro events
  exact ⟨(nonces_used_once ca hostA keyA .aesGcm (vpn 1) [] [] events (by decide)).1, by decide +kernel⟩

end Send

end Nebula
