import Nebula.Protocol.LighthouseSender
import Nebula.Protocol.ReplayHistory

/-! # Data packets between two sessions

Two sessions with a tunnel to each other and a network between them that loses, repeats and reorders what
the first one sends. The counters of the packets are those `send_typed` draws, the same for both packet types,
and the window of the receiver sees no others. What its inbox receives is therefore told by the numbers
of the datagrams it accepts, and which those are by their counters.
-/

namespace Nebula

open Rust ReplayWindow

/-- What is assumed of the AEAD: it opens exactly what it has sealed under the same key, nonce and associated
data, and appends a tag of 16 bytes. -/
structure Aead.Ideal (aead : Aead) : Prop where
  opens_iff : ∀ cipher key nonce aad plaintext ciphertext,
    aead.decrypt cipher key nonce aad ciphertext = some plaintext ↔
      aead.encrypt cipher key nonce aad plaintext = some ciphertext
  tag : ∀ {cipher key nonce aad plaintext ciphertext},
    aead.encrypt cipher key nonce aad plaintext = some ciphertext → ciphertext.length = plaintext.length + 16

/-! ## The channel -/

/-- The types of packets that `send_typed` is called with. -/
inductive DataType where
  | message
  | lighthouse
deriving DecidableEq, Repr

def DataType.code : DataType → UInt8
  | .message => Header.message
  | .lighthouse => Header.lighthouse

/-- A datagram that has been sent, and the call that sent it. -/
structure Sent where
  type_ : DataType
  payload : Bytes
  datagram : Bytes
deriving DecidableEq, Repr

/-- The counter in the header of a datagram. -/
def Sent.counter (item : Sent) : UInt64 :=
  match Header.parse item.datagram with
  | .ok hdr => hdr.messageCounter
  | .error _ => 0

/-- A sender, a receiver and everything sent so far, oldest first. -/
structure Channel (lib : Externals) where
  sender : lib.Inner
  receiver : lib.Inner
  sent : List Sent
  /-- What the callers of the receiver's `recv` have got. -/
  received : List (IpAddr × Bytes)

inductive ChannelEvent where
  | send (type_ : DataType) (payload : Bytes)
  /-- The network delivers one of the datagrams, be it for the first time or again. -/
  | deliver (number : ℕ) (source : SocketAddr) (ambient : Ambient)
  | recv

inductive ChannelOutput where
  | sent
  | delivered (number : ℕ) (accepted : Bool) (effects : List Effect)
  | unknown
  | received
deriving DecidableEq, Repr

section Channel

variable (lib : Externals)

/-- Whether the session decrypts the datagram. -/
def accepts (inner : lib.Inner) (datagram : Bytes) : Bool :=
  match Header.parse datagram with
  | .ok hdr => (openPacket lib inner hdr (datagram.take Header.len) (datagram.drop Header.len)).2.isSome
  | .error _ => false

/-- A sender that sends to `dest` only, and whose datagrams are all that the receiver gets. -/
def channel (dest : IpAddr) : Machine.System (Channel lib) ChannelEvent ChannelOutput where
  step c
    | .send type_ payload =>
      match sendTyped lib c.sender dest type_.code payload with
      | (sender, .ok (datagram, _)) =>
        ({ c with sender, sent := c.sent ++ [⟨type_, payload, datagram⟩] }, .sent)
      | (sender, .error _) => ({ c with sender }, .sent)
    | .deliver number source ambient =>
      match c.sent[number]? with
      | some item =>
        let (receiver, effects) := handleDatagram lib c.receiver item.datagram source ambient
        ({ c with receiver }, .delivered number (accepts lib c.receiver item.datagram) effects)
      | none => (c, .unknown)
    | .recv =>
      let (receiver, item) := recv lib c.receiver
      ({ c with receiver, received := c.received ++ item.toList }, .received)

/-- Two sessions that have sent each other nothing yet. -/
def Channel.between (sender receiver : lib.Inner) : Channel lib := ⟨sender, receiver, [], []⟩

/-- The two sessions hold entries for each other, at `i` and `j`, with mirrored keys and each other's indices. -/
structure Linked (sender receiver : lib.Inner) (i j : UInt32) (toReceiver toSender : Peer) : Prop where
  indexed : sender.indexByVpnAddr.get receiver.vpnAddr = some i
  here : sender.peersByIndex.get i = some (.established toReceiver)
  there : receiver.peersByIndex.get j = some (.established toSender)
  indices : toReceiver.remoteIndex = j ∧ toSender.remoteIndex = i
  names : toReceiver.vpnAddr = receiver.vpnAddr ∧ toSender.vpnAddr = sender.vpnAddr
  mirrored : ∃ cipher k₁ k₂, toReceiver.transport = .new cipher k₁ k₂ ∧ toSender.transport = .new cipher k₂ k₁

end Channel

/-- How many packets a run sends. -/
def sends (events : List ChannelEvent) : ℕ :=
  events.countP fun event => match event with
    | .send .. => true
    | _ => false

abbrev ChannelLog := List (ChannelEvent × ChannelOutput)

/-- The datagrams that have arrived, by their numbers. -/
def arrived (log : ChannelLog) : List ℕ :=
  log.filterMap fun (_, output) => match output with
    | .delivered number _ _ => some number
    | _ => none

/-- Those of them that the receiver accepted, in this order. -/
def acceptedNumbers (log : ChannelLog) : List ℕ :=
  log.filterMap fun (_, output) => match output with
    | .delivered number true _ => some number
    | _ => none

/-- The datagrams of these numbers. -/
def picked (sent : List Sent) (numbers : List ℕ) : List Sent := numbers.filterMap (sent[·]?)

/-- What the inbox should get for a datagram. -/
def Sent.item (from_ : IpAddr) (item : Sent) : Option (IpAddr × Bytes) :=
  match item.type_ with
  | .message => some (from_, item.payload)
  | .lighthouse => none

variable {lib : Externals}

/-! ## Sending -/

/-- The sender's tunnel with its counter moved on. -/
def Peer.withSendCounter (peer : Peer) (sendCounter : UInt64) : Peer :=
  { peer with transport := { peer.transport with sendCounter } }

/-- `send_typed` spends the next counter of the tunnel its address points to, and seals the payload under it. -/
theorem sendTyped_through {inner : lib.Inner} {v : IpAddr} {i : UInt32} {peer : Peer} {counter : UInt64}
    (indexed : inner.indexByVpnAddr.get v = some i)
    (here : inner.peersByIndex.get i = some (.established (peer.withSendCounter counter)))
    (type_ : UInt8) (payload : Bytes) :
    (sendTyped lib inner v type_ payload).1 =
        { inner with
          peersByIndex := inner.peersByIndex.insert i (.established (peer.withSendCounter (counter + 1))) } ∧
      ∀ packet dest, (sendTyped lib inner v type_ payload).2 = .ok (packet, dest) →
        ∃ ciphertext, packet = (dataHeader type_ peer.remoteIndex (counter + 1)).encode ++ ciphertext ∧
          peer.transport.sendCipher.encrypt lib.aead (counter + 1)
            (dataHeader type_ peer.remoteIndex (counter + 1)).encode payload = .ok ciphertext := by
  obtain ⟨after, produced⟩ := sendTyped_established indexed here type_ payload
  refine ⟨after, ?_⟩
  intro packet dest sent
  exact (produced packet dest sent).2

theorem parse_dataHeader (type_ : DataType) (remoteIndex : UInt32) (counter : UInt64) (body : Bytes) :
    Header.parse ((dataHeader type_.code remoteIndex counter).encode ++ body) =
      .ok (dataHeader type_.code remoteIndex counter) := by
  apply Header.parse_encode
  · exact (by decide : Header.currentVersion < 16)
  · cases type_ with
    | message => exact (by decide : Header.message < 16)
    | lighthouse => exact (by decide : Header.lighthouse < 16)

variable (lib) in
/-- The datagram is its payload, sealed by the tunnel of `peer`. -/
def Sealed (peer : Peer) (item : Sent) : Prop :=
  ∃ ciphertext,
    item.datagram = (dataHeader item.type_.code peer.remoteIndex item.counter).encode ++ ciphertext ∧
    peer.transport.sendCipher.encrypt lib.aead item.counter
      (dataHeader item.type_.code peer.remoteIndex item.counter).encode item.payload = .ok ciphertext

theorem counter_of_packed {type_ : DataType} {payload ciphertext : Bytes} {remoteIndex : UInt32}
    {counter : UInt64} :
    (Sent.mk type_ payload ((dataHeader type_.code remoteIndex counter).encode ++ ciphertext)).counter =
      counter := by
  simp only [Sent.counter, parse_dataHeader]
  rfl

/-! ## Receiving -/

section Receive

variable {inner : lib.Inner} {j : UInt32} {peer from_ : Peer} {item : Sent}

/-- The receiver's tunnel with its window moved on. -/
def Peer.withReplay (peer : Peer) (replay : ReplayWindow) : Peer :=
  { peer with transport := { peer.transport with replay } }

theorem decrypt_of_opened {aead : Aead} {t : Transport} {counter : UInt64} {aad ciphertext payload out : Bytes}
    (opened : t.recvCipher.decrypt aead counter aad ciphertext = .ok payload)
    (room : payload.length ≤ out.length) :
    t.decrypt aead counter aad ciphertext out =
      ({ t with replay := (t.replay.checkAndUpdate counter).1 },
        if (t.replay.checkAndUpdate counter).2 then .ok (payload.length, payload ++ out.drop payload.length)
        else .error (.err .replayedPacket)) := by
  unfold Transport.decrypt
  dsimp only
  cases (t.replay.checkAndUpdate counter).2 with
  | false => rfl
  | true =>
    refine Prod.ext rfl (bind_eq_ok.mpr ⟨payload, opened, ?_⟩)
    exact if_pos room

/-- What the other side has sealed is decrypted if the window accepts its counter. -/
theorem openPacket_sealed (ideal : lib.aead.Ideal) {hdr : Header} {ciphertext payload : Bytes}
    (there : inner.peersByIndex.get hdr.remoteIndex = some (.established peer))
    (mirrored : peer.transport.recvCipher = from_.transport.sendCipher)
    (encrypted : from_.transport.sendCipher.encrypt lib.aead hdr.messageCounter hdr.encode payload =
      .ok ciphertext) :
    openPacket lib inner hdr hdr.encode ciphertext =
      ({ inner with
        peersByIndex := inner.peersByIndex.insert hdr.remoteIndex (.established
          (peer.withReplay (peer.transport.replay.checkAndUpdate hdr.messageCounter).1)) },
        if (peer.transport.replay.checkAndUpdate hdr.messageCounter).2 then some (peer, payload) else none) := by
  have produced := okOr_eq_ok encrypted
  have opened : peer.transport.recvCipher.decrypt lib.aead hdr.messageCounter hdr.encode ciphertext =
      .ok payload := by
    rw [mirrored, CipherImpl.decrypt, (ideal.opens_iff ..).mpr produced]
    rfl
  have room : payload.length ≤ (List.replicate ciphertext.length (0 : UInt8)).length := by
    rw [List.length_replicate, ideal.tag produced]
    omega
  simp only [openPacket, there, decrypt_of_opened opened room]
  cases (peer.transport.replay.checkAndUpdate hdr.messageCounter).2 with
  | false => rfl
  | true =>
    rw [if_pos rfl, if_pos rfl]
    simp only [List.take_left]
    rfl

/-- What delivering a datagram does to the receiver, whose window was `before`. -/
structure Delivers (inner : lib.Inner) (j : UInt32) (peer : Peer) (item : Sent) (next : lib.Inner)
    (effects : List Effect) (accepted : Bool) : Prop where
  window : accepted = (peer.transport.replay.checkAndUpdate item.counter).2
  peers : next.peersByIndex = inner.peersByIndex.insert j (.established
    (peer.withReplay (peer.transport.replay.checkAndUpdate item.counter).1))
  inbox : next.inbox = inner.inbox ++ if accepted then (item.item peer.vpnAddr).toList else []
  lighthouse : item.type_ = .message → next.lighthouseTables = inner.lighthouseTables ∧ effects = []

/-- How the two kinds of datagrams are handled once they are opened, or are not. -/
theorem delivers_of_opened {hdr : Header} {opened : Option (Peer × Bytes)} {after : lib.Inner}
    (parsed : Header.parse item.datagram = .ok hdr) (typed : hdr.type_ = item.type_.code)
    (ran : openPacket lib inner hdr (item.datagram.take Header.len) (item.datagram.drop Header.len) =
      (after, opened))
    (unfiled : after.inbox = inner.inbox ∧ after.lighthouseTables = inner.lighthouseTables)
    (plain : ∀ found, opened = some found → found = (peer, item.payload))
    (window : opened.isSome = (peer.transport.replay.checkAndUpdate item.counter).2)
    (peers : after.peersByIndex = inner.peersByIndex.insert j (.established
      (peer.withReplay (peer.transport.replay.checkAndUpdate item.counter).1)))
    (source : SocketAddr) (ambient : Ambient) :
    Delivers inner j peer item (handleDatagram lib inner item.datagram source ambient).1
      (handleDatagram lib inner item.datagram source ambient).2 (accepts lib inner item.datagram) := by
  have accepted : accepts lib inner item.datagram = opened.isSome := by
    simp only [accepts, parsed, ran]
  rw [accepted]
  cases type : item.type_ with
  | message =>
    have message : hdr.type_ = Header.message := by rw [typed, type]; rfl
    have handled : handleDatagram lib inner item.datagram source ambient =
        handleMessage lib inner hdr (item.datagram.take Header.len) (item.datagram.drop Header.len) := by
      simp only [handleDatagram, parsed, message]
      rw [if_neg (by decide), if_true]
    rw [handled]
    unfold handleMessage
    rw [ran]
    cases opened with
    | none => exact ⟨window, peers, by simp [unfiled.1], fun _ => ⟨unfiled.2, rfl⟩⟩
    | some found =>
      obtain rfl := plain found rfl
      exact ⟨window, peers, by simp [unfiled.1, Sent.item, type], fun _ => ⟨unfiled.2, rfl⟩⟩
  | lighthouse =>
    have lighthouse : hdr.type_ = Header.lighthouse := by rw [typed, type]; rfl
    have handled : handleDatagram lib inner item.datagram source ambient =
        handleLighthousePacket lib inner hdr (item.datagram.take Header.len)
          (item.datagram.drop Header.len) := by
      simp only [handleDatagram, parsed, lighthouse]
      rw [if_neg (by decide), if_neg (by decide), if_true]
    rw [handled]
    unfold handleLighthousePacket
    rw [ran]
    cases opened with
    | none => exact ⟨window, peers, by simp [unfiled.1], by simp [type]⟩
    | some found =>
      obtain rfl := plain found rfl
      obtain ⟨-, samePeers, -, inbox⟩ := handleLighthouse_spec after item.payload
      exact ⟨window, samePeers.trans peers, by simp [inbox, unfiled.1, Sent.item, type], by simp [type]⟩

/-- The header of a sealed datagram is read back, with the sealed payload behind it. -/
theorem Sealed.header (isSealed : Sealed lib from_ item) :
    ∃ hdr, Header.parse item.datagram = .ok hdr ∧ item.datagram.take Header.len = hdr.encode ∧
      hdr.type_ = item.type_.code ∧ hdr.remoteIndex = from_.remoteIndex ∧ hdr.messageCounter = item.counter ∧
      from_.transport.sendCipher.encrypt lib.aead hdr.messageCounter hdr.encode item.payload =
        .ok (item.datagram.drop Header.len) := by
  obtain ⟨ciphertext, packed, encrypted⟩ := isSealed
  refine ⟨dataHeader item.type_.code from_.remoteIndex item.counter, ?_, ?_, rfl, rfl, rfl, ?_⟩
  · rw [packed]
    exact parse_dataHeader item.type_ from_.remoteIndex item.counter ciphertext
  · rw [packed]
    exact List.take_left' (Header.length_encode _)
  · rw [packed, List.drop_left' (Header.length_encode _)]
    exact encrypted

theorem delivers_handleDatagram (ideal : lib.aead.Ideal)
    (there : inner.peersByIndex.get from_.remoteIndex = some (.established peer))
    (mirrored : peer.transport.recvCipher = from_.transport.sendCipher)
    (isSealed : Sealed lib from_ item) (source : SocketAddr) (ambient : Ambient) :
    Delivers inner from_.remoteIndex peer item (handleDatagram lib inner item.datagram source ambient).1
      (handleDatagram lib inner item.datagram source ambient).2 (accepts lib inner item.datagram) := by
  obtain ⟨hdr, parsed, headerBytes, typed, remoteIndex, counter, encrypted⟩ := isSealed.header
  rw [← remoteIndex] at there ⊢
  have ran := openPacket_sealed ideal there mirrored encrypted
  rw [← headerBytes, counter] at ran
  refine delivers_of_opened parsed typed ran ⟨rfl, rfl⟩ ?_ ?_ rfl source ambient
  · intro found opened
    split at opened
    · exact (Option.some.inj opened).symm
    · cases opened
  · split
    next accepted => exact accepted.symm
    next refused => exact (Bool.eq_false_iff.mpr refused).symm

end Receive

/-! ## Numbers and counters -/

theorem picked_concat (sent : List Sent) (numbers : List ℕ) (number : ℕ) :
    picked sent (numbers ++ [number]) = picked sent numbers ++ sent[number]?.toList := by
  rw [picked, List.filterMap_append]
  cases found : sent[number]? with
  | none => simp [picked, found]
  | some item => simp [picked, found]

/-- What is sent later does not change what the numbers so far stand for. -/
theorem picked_append {sent : List Sent} {numbers : List ℕ} (known : ∀ number ∈ numbers, number < sent.length)
    (more : List Sent) : picked (sent ++ more) numbers = picked sent numbers := by
  apply List.filterMap_congr
  intro number member
  exact List.getElem?_append_left (known number member)

/-- Datagrams with different numbers have different counters. -/
theorem counter_mem_iff {sent : List Sent} (ordered : sent.Pairwise fun x y => x.counter < y.counter)
    {number : ℕ} {item : Sent} (found : sent[number]? = some item) (numbers : List ℕ) :
    item.counter ∈ (picked sent numbers).map Sent.counter ↔ number ∈ numbers := by
  constructor
  · intro member
    obtain ⟨other, picked, same⟩ := List.mem_map.mp member
    obtain ⟨index, member, there⟩ := List.mem_filterMap.mp picked
    obtain ⟨bound, rfl⟩ := List.getElem?_eq_some_iff.mp found
    obtain ⟨bound', rfl⟩ := List.getElem?_eq_some_iff.mp there
    have injective := List.pairwise_iff_getElem.mp ordered
    rcases Nat.lt_trichotomy number index with before | rfl | after
    · exact absurd (injective number index bound bound' before) (same ▸ UInt64.lt_irrefl _)
    · exact member
    · exact absurd (injective index number bound' bound after) (same ▸ UInt64.lt_irrefl _)
  · intro member
    exact List.mem_map_of_mem (List.mem_filterMap.mpr ⟨number, member, found⟩)

/-! ## Every run -/

section Run

variable {sender receiver : lib.Inner} {i j : UInt32} {toReceiver toSender : Peer}

/-- What every run keeps, once it has sent `count` packets and the receiver has accepted `accepted`. -/
structure Coherent (receiver : lib.Inner) (dest : IpAddr) (i : UInt32) (toReceiver toSender : Peer) (count : ℕ)
    (accepted : List ℕ) (c : Channel lib) : Prop where
  indexed : c.sender.indexByVpnAddr.get dest = some i
  here : c.sender.peersByIndex.get i =
    some (.established (toReceiver.withSendCounter (UInt64.ofNat (2 + count))))
  there : ∃ window, c.receiver.peersByIndex.get toReceiver.remoteIndex =
      some (.established (toSender.withReplay window)) ∧
    Represents ((picked c.sent accepted).map Sent.counter) window
  isSealed : ∀ item ∈ c.sent, Sealed lib toReceiver item ∧ item.counter.toNat ≤ 2 + count
  ordered : c.sent.Pairwise fun x y => x.counter < y.counter
  nodup : accepted.Nodup
  known : ∀ number ∈ accepted, number < c.sent.length
  delivered : c.received ++ c.receiver.inbox =
    receiver.inbox ++ (picked c.sent accepted).filterMap (Sent.item toSender.vpnAddr)

variable {dest : IpAddr} {count : ℕ} {accepted : List ℕ} {c : Channel lib}

theorem Coherent.send (coherent : Coherent receiver dest i toReceiver toSender count accepted c)
    (room : 3 + count < 2 ^ 64) (type_ : DataType) (payload : Bytes) :
    Coherent receiver dest i toReceiver toSender (count + 1) accepted
      ((channel lib dest).step c (.send type_ payload)).1 := by
  obtain ⟨after, produced⟩ := sendTyped_through coherent.indexed coherent.here type_.code payload
  have next : UInt64.ofNat (2 + count) + 1 = UInt64.ofNat (2 + (count + 1)) :=
    (UInt64.ofNat_add (2 + count) 1).symm
  have place : (UInt64.ofNat (2 + (count + 1))).toNat = 2 + (count + 1) :=
    UInt64.toNat_ofNat_of_lt' (show 2 + (count + 1) < 2 ^ 64 by omega)
  rw [next] at after produced
  have indexed : (sendTyped lib c.sender dest type_.code payload).1.indexByVpnAddr.get dest = some i := by
    rw [after]
    exact coherent.indexed
  have here : (sendTyped lib c.sender dest type_.code payload).1.peersByIndex.get i =
      some (.established (toReceiver.withSendCounter (UInt64.ofNat (2 + (count + 1))))) := by
    rw [after]
    exact HashMap.get_insert_self _ _ _
  have older : ∀ item ∈ c.sent, Sealed lib toReceiver item ∧ item.counter.toNat ≤ 2 + (count + 1) := by
    intro item member
    obtain ⟨isSealed, bound⟩ := coherent.isSealed item member
    exact ⟨isSealed, by omega⟩
  rcases ran : sendTyped lib c.sender dest type_.code payload with ⟨sender, failure | ⟨datagram, remote⟩⟩
  · rw [ran] at indexed here
    simp only [channel, ran]
    exact ⟨indexed, here, coherent.there, older, coherent.ordered, coherent.nodup, coherent.known,
      coherent.delivered⟩
  · rw [ran] at indexed here
    obtain ⟨ciphertext, rfl, encrypted⟩ := produced datagram remote (by rw [ran])
    simp only [channel, ran]
    have counter := @counter_of_packed type_ payload ciphertext toReceiver.remoteIndex
      (UInt64.ofNat (2 + (count + 1)))
    have same := picked_append coherent.known
    refine ⟨indexed, here, ?_, ?_, ?_, coherent.nodup, ?_, ?_⟩
    · rw [same]
      exact coherent.there
    · intro item member
      rcases List.mem_append.mp member with earlier | new
      · exact older item earlier
      · obtain rfl := List.mem_singleton.mp new
        refine ⟨⟨ciphertext, ?_, ?_⟩, ?_⟩
        · rw [counter]
        · rw [counter]
          exact encrypted
        · rw [counter, place]
    · rw [List.pairwise_append]
      refine ⟨coherent.ordered, List.pairwise_singleton _ _, ?_⟩
      intro item member last new
      obtain rfl := List.mem_singleton.mp new
      have bound := (coherent.isSealed item member).2
      rw [counter, UInt64.lt_iff_toNat_lt, place]
      omega
    · intro number member
      rw [List.length_append]
      exact Nat.lt_of_lt_of_le (coherent.known number member) (Nat.le_add_right _ _)
    · rw [same]
      exact coherent.delivered

/-- What delivering a datagram does, in terms of the window that the receiver has by then. -/
theorem Coherent.delivers (ideal : lib.aead.Ideal)
    (mirrored : toSender.transport.recvCipher = toReceiver.transport.sendCipher)
    (coherent : Coherent receiver dest i toReceiver toSender count accepted c) {number : ℕ} {item : Sent}
    (found : c.sent[number]? = some item) (source : SocketAddr) (ambient : Ambient) :
    ∃ window, Represents ((picked c.sent accepted).map Sent.counter) window ∧
      Delivers c.receiver toReceiver.remoteIndex (toSender.withReplay window) item
        (handleDatagram lib c.receiver item.datagram source ambient).1
        (handleDatagram lib c.receiver item.datagram source ambient).2
        (accepts lib c.receiver item.datagram) := by
  obtain ⟨window, there, represents⟩ := coherent.there
  have isSealed := (coherent.isSealed item (List.mem_of_getElem? found)).1
  exact ⟨window, represents, delivers_handleDatagram ideal there mirrored isSealed source ambient⟩

/-- The receiver accepts what its window admits, and its inbox gets what it accepts. -/
theorem Coherent.deliver (ideal : lib.aead.Ideal)
    (mirrored : toSender.transport.recvCipher = toReceiver.transport.sendCipher)
    (coherent : Coherent receiver dest i toReceiver toSender count accepted c) {number : ℕ} {item : Sent}
    (found : c.sent[number]? = some item) (source : SocketAddr) (ambient : Ambient) :
    (accepts lib c.receiver item.datagram = true ↔
      Admits ((picked c.sent accepted).map Sent.counter) item.counter) ∧
    Coherent receiver dest i toReceiver toSender count
      (if accepts lib c.receiver item.datagram then accepted ++ [number] else accepted)
      { c with receiver := (handleDatagram lib c.receiver item.datagram source ambient).1 } := by
  obtain ⟨window, represents, delivers⟩ := coherent.delivers ideal mirrored found source ambient
  obtain ⟨admitted, represents'⟩ := represents.step item.counter
  have answer : accepts lib c.receiver item.datagram = (window.checkAndUpdate item.counter).2 := delivers.window
  have there : (handleDatagram lib c.receiver item.datagram source ambient).1.peersByIndex.get
      toReceiver.remoteIndex =
        some (.established (toSender.withReplay (window.checkAndUpdate item.counter).1)) := by
    rw [delivers.peers]
    exact HashMap.get_insert_self _ _ _
  have inbox := delivers.inbox
  rw [← answer] at admitted represents'
  refine ⟨admitted, ?_⟩
  generalize accepts lib c.receiver item.datagram = taken at admitted represents' inbox ⊢
  cases taken with
  | false =>
    rw [if_neg Bool.false_ne_true] at represents' inbox ⊢
    rw [List.append_nil] at inbox
    refine ⟨coherent.indexed, coherent.here, ⟨_, there, represents'⟩, coherent.isSealed, coherent.ordered,
      coherent.nodup, coherent.known, ?_⟩
    rw [inbox]
    exact coherent.delivered
  | true =>
    rw [if_pos rfl] at represents' inbox ⊢
    have fresh : number ∉ accepted := by
      rw [← counter_mem_iff coherent.ordered found]
      exact (admitted.mp rfl).1
    have more : picked c.sent (accepted ++ [number]) = picked c.sent accepted ++ [item] := by
      rw [picked_concat, found]
      rfl
    refine ⟨coherent.indexed, coherent.here, ⟨_, there, ?_⟩, coherent.isSealed, coherent.ordered, ?_, ?_, ?_⟩
    · rw [more, List.map_append]
      exact represents'
    · exact List.nodup_append.mpr ⟨coherent.nodup, by simp,
        fun known member last new same => fresh (List.mem_singleton.mp new ▸ same ▸ member)⟩
    · intro known member
      rcases List.mem_append.mp member with earlier | new
      · exact coherent.known known earlier
      · obtain rfl := List.mem_singleton.mp new
        exact (List.getElem?_eq_some_iff.mp found).1
    · rw [inbox, ← List.append_assoc, coherent.delivered, more, List.filterMap_append, List.append_assoc]
      congr 2

theorem Coherent.recv (coherent : Coherent receiver dest i toReceiver toSender count accepted c) :
    Coherent receiver dest i toReceiver toSender count accepted ((channel lib dest).step c .recv).1 := by
  have delivered := coherent.delivered
  obtain ⟨window, there, represents⟩ := coherent.there
  simp only [channel, Nebula.recv]
  split
  · exact ⟨coherent.indexed, coherent.here, ⟨window, there, represents⟩, coherent.isSealed, coherent.ordered,
      coherent.nodup, coherent.known, by simpa using delivered⟩
  next first rest inbox =>
    rw [inbox] at delivered
    exact ⟨coherent.indexed, coherent.here, ⟨window, there, represents⟩, coherent.isSealed, coherent.ordered,
      coherent.nodup, coherent.known, by simpa using delivered⟩

theorem Coherent.of_append_nil (coherent : Coherent receiver dest i toReceiver toSender count accepted c)
    {more : List ℕ} (empty : more = []) :
    Coherent receiver dest i toReceiver toSender count (accepted ++ more) c := by
  rw [empty, List.append_nil]
  exact coherent

theorem sends_concat (events : List ChannelEvent) (event : ChannelEvent) :
    sends (events ++ [event]) = sends events + sends [event] := List.countP_append

theorem acceptedNumbers_concat (log : ChannelLog) (event : ChannelEvent) (output : ChannelOutput) :
    acceptedNumbers (log ++ [(event, output)]) = acceptedNumbers log ++ acceptedNumbers [(event, output)] :=
  List.filterMap_append

theorem mem_arrived_of_accepted {log : ChannelLog} {number : ℕ} (accepted : number ∈ acceptedNumbers log) :
    number ∈ arrived log := by
  obtain ⟨⟨event, output⟩, member, same⟩ := List.mem_filterMap.mp accepted
  refine List.mem_filterMap.mpr ⟨(event, output), member, ?_⟩
  cases output with
  | delivered number' taken effects =>
    cases taken with
    | true => exact same
    | false => cases same
  | sent => cases same
  | unknown => cases same
  | received => cases same

/-- The channel stays coherent, whatever the network does. -/
theorem coherent_run (ideal : lib.aead.Ideal) (linked : Linked lib sender receiver i j toReceiver toSender)
    (events : List ChannelEvent) (few : sends events < 2 ^ 64 - 3) :
    Coherent receiver receiver.vpnAddr i toReceiver toSender (sends events)
      (acceptedNumbers ((channel lib receiver.vpnAddr).log (.between lib sender receiver) events))
      ((channel lib receiver.vpnAddr).exec (.between lib sender receiver) events) := by
  obtain ⟨cipher, k₁, k₂, toReceiverKeys, toSenderKeys⟩ := linked.mirrored
  have mirrored : toSender.transport.recvCipher = toReceiver.transport.sendCipher := by
    rw [toReceiverKeys, toSenderKeys]
    rfl
  induction events using List.reverseRecOn with
  | nil =>
    have here : toReceiver.withSendCounter (UInt64.ofNat 2) = toReceiver := by
      unfold Peer.withSendCounter
      rw [show UInt64.ofNat 2 = toReceiver.transport.sendCounter by rw [toReceiverKeys]; rfl]
    have there : toSender.withReplay .new = toSender := by
      unfold Peer.withReplay
      rw [show ReplayWindow.new = toSender.transport.replay by rw [toSenderKeys]; rfl]
    refine ⟨linked.indexed, ?_, ⟨.new, ?_, represents_new⟩, ?_, ?_, List.nodup_nil, ?_, ?_⟩
    · exact linked.here.trans (by rw [show sends [] = 0 from rfl, here])
    · rw [linked.indices.1, there]
      exact linked.there
    · simp [Channel.between]
    · exact List.Pairwise.nil
    · simp [acceptedNumbers, Machine.System.log]
    · simp [Channel.between, acceptedNumbers, Machine.System.log, picked]
  | append_singleton events event ih =>
    rw [sends_concat] at few ⊢
    have coherent := ih (by omega)
    rw [Machine.System.log_concat, Machine.System.exec_concat, acceptedNumbers_concat]
    generalize acceptedNumbers _ = accepted at coherent ⊢
    generalize (channel lib receiver.vpnAddr).exec _ events = c at coherent ⊢
    cases event with
    | send type_ payload =>
      have room : sends events + 1 < 2 ^ 64 - 3 := few
      have quiet : ((channel lib receiver.vpnAddr).step c (.send type_ payload)).2 = .sent := by
        simp only [channel]
        split
        · rfl
        · rfl
      rw [quiet]
      exact (coherent.send (by omega) type_ payload).of_append_nil rfl
    | deliver number source ambient =>
      cases found : c.sent[number]? with
      | none =>
        simp only [channel, found]
        exact coherent.of_append_nil rfl
      | some item =>
        have delivered := (coherent.deliver ideal mirrored found source ambient).2
        simp only [channel, found]
        generalize accepts lib c.receiver item.datagram = taken at delivered ⊢
        cases taken with
        | true => exact delivered
        | false => exact delivered.of_append_nil rfl
    | recv => exact coherent.recv.of_append_nil rfl

/-- The two sessions hold entries for each other and the first sends the second fewer than 2^64 - 3 packets, in a
run in which the network loses, repeats and reorders them at will. Then no datagram is accepted twice; the
inbox receives exactly the payloads of the accepted messages, from the sender's address; a lighthouse
packet leaves the inbox alone and a message everything that lighthouse traffic touches; and a datagram
that arrives for the first time is accepted if and only if its counter is above the largest accepted so
far or less than 1024 below it. -/
theorem channel_delivers (ideal : lib.aead.Ideal)
    (linked : Linked lib sender receiver i j toReceiver toSender) (events : List ChannelEvent)
    (few : sends events < 2 ^ 64 - 3) :
    let start : Channel lib := .between lib sender receiver
    let log := (channel lib receiver.vpnAddr).log start events
    let reached := (channel lib receiver.vpnAddr).exec start events
    let accepted := picked reached.sent (acceptedNumbers log)
    (acceptedNumbers log).Nodup ∧
    (∀ number ∈ acceptedNumbers log, number < reached.sent.length) ∧
    reached.received ++ reached.receiver.inbox =
      receiver.inbox ++ accepted.filterMap (Sent.item sender.vpnAddr) ∧
    ∀ number item source ambient, reached.sent[number]? = some item →
      ∃ next taken effects,
        (channel lib receiver.vpnAddr).step reached (.deliver number source ambient) =
          ({ reached with receiver := next }, .delivered number taken effects) ∧
        (item.type_ = .lighthouse → next.inbox = reached.receiver.inbox) ∧
        (item.type_ = .message →
          next.lighthouseTables = reached.receiver.lighthouseTables ∧ effects = []) ∧
        (number ∉ arrived log →
          (taken = true ↔ highWater (accepted.map Sent.counter) < item.counter ∨
            (highWater (accepted.map Sent.counter)).toNat - item.counter.toNat < windowSize)) := by
  intro start log reached accepted
  have coherent := coherent_run ideal linked events few
  obtain ⟨cipher, k₁, k₂, toReceiverKeys, toSenderKeys⟩ := linked.mirrored
  have mirrored : toSender.transport.recvCipher = toReceiver.transport.sendCipher := by
    rw [toReceiverKeys, toSenderKeys]
    rfl
  refine ⟨coherent.nodup, coherent.known, ?_, ?_⟩
  · rw [← linked.names.2]
    exact coherent.delivered
  · intro number item source ambient found
    obtain ⟨window, -, delivers⟩ := coherent.delivers ideal mirrored found source ambient
    refine ⟨(handleDatagram lib reached.receiver item.datagram source ambient).1,
      accepts lib reached.receiver item.datagram,
      (handleDatagram lib reached.receiver item.datagram source ambient).2, ?_, ?_, delivers.lighthouse, ?_⟩
    · simp only [channel, found]
    · intro lighthouse
      have inbox := delivers.inbox
      simpa [Sent.item, lighthouse] using inbox
    · intro first
      rw [(coherent.deliver ideal mirrored found source ambient).1, Admits,
        counter_mem_iff coherent.ordered found]
      exact and_iff_right (fun accepted => first (mem_arrived_of_accepted accepted))

end Run

/-! ## Two packets that arrive in the wrong order, one of them twice -/

section

open TestNetwork

/-- Host A after its handshake with host B. -/
def linkedA : meshNetwork.Inner :=
  (session meshNetwork).exec (.new ca hostA keyA .aesGcm (vpn 1) [] [])
    [.openHandshake (vpn 2) (endpoint 2) 0 (ambient 1), .datagram stage2Datagram (endpoint 2) (ambient 3)]

def tunnelToB : Peer where
  transport := .new .aesGcm (.replicate 32 3) (.replicate 32 255)
  remote := endpoint 2
  vpnAddr := vpn 2
  cert := hostB
  remoteIndex := indexB

def tunnelToA : Peer where
  transport := .new .aesGcm (.replicate 32 255) (.replicate 32 3)
  remote := endpoint 1
  vpnAddr := vpn 1
  cert := hostA
  remoteIndex := indexA

theorem linkedA_answeredMeshA : Linked meshNetwork linkedA answeredMeshA indexA indexB tunnelToB tunnelToA := by
  have evaluated : linkedA.indexByVpnAddr.get answeredMeshA.vpnAddr = some indexA ∧
      linkedA.peersByIndex.get indexA = some (.established tunnelToB) ∧
      answeredMeshA.peersByIndex.get indexB = some (.established tunnelToA) ∧
      tunnelToB.vpnAddr = answeredMeshA.vpnAddr ∧ tunnelToA.vpnAddr = linkedA.vpnAddr := by decide +kernel
  obtain ⟨indexed, here, there, names⟩ := evaluated
  exact ⟨indexed, here, there, ⟨rfl, rfl⟩, names, .aesGcm, .replicate 32 3, .replicate 32 255, rfl, rfl⟩

theorem clearAead_ideal : clearAead.Ideal where
  opens_iff := by
    intro cipher key nonce aad plaintext ciphertext
    have tag : (key.items.take 16).length = 16 := by
      rw [List.length_take, key.size]
      rfl
    change (if _ then some _ else none) = some plaintext ↔ some (plaintext ++ key.items.take 16) = some ciphertext
    constructor
    · intro opened
      split at opened
      next tagged =>
        cases opened
        rw [← tagged.2, List.take_append_drop]
      · cases opened
    · intro produced
      cases produced
      have body : (plaintext ++ key.items.take 16).length - 16 = plaintext.length := by
        rw [List.length_append, tag, Nat.add_sub_cancel]
      rw [body, List.drop_left, List.take_left, if_pos]
      exact ⟨by rw [List.length_append, tag]; omega, rfl⟩
  tag := by
    intro cipher key nonce aad plaintext ciphertext produced
    cases produced
    rw [List.length_append, List.length_take, key.size]
    rfl

def reorderedRun : List ChannelEvent :=
  [.send .message [1, 2, 3], .send .lighthouse (protobufMeta misleading), .deliver 1 (endpoint 1) (ambient 3),
    .deliver 0 (endpoint 1) (ambient 3), .deliver 0 (endpoint 1) (ambient 3)]

def reordered : Channel meshNetwork :=
  (channel meshNetwork answeredMeshA.vpnAddr).exec (.between meshNetwork linkedA answeredMeshA) reorderedRun

def reorderedLog : ChannelLog :=
  (channel meshNetwork answeredMeshA.vpnAddr).log (.between meshNetwork linkedA answeredMeshA) reorderedRun

/-- The receiver accepts both packets once, and its inbox gets the message. -/
theorem reordered_packets_accepted_once :
    acceptedNumbers reorderedLog = [1, 0] ∧
      reordered.received ++ reordered.receiver.inbox = [(vpn 1, [1, 2, 3])] := by
  have evaluated : acceptedNumbers reorderedLog = [1, 0] ∧
      (picked reordered.sent (acceptedNumbers reorderedLog)).filterMap (Sent.item linkedA.vpnAddr) =
        [(vpn 1, [1, 2, 3])] ∧
      answeredMeshA.inbox = [] := by decide +kernel
  obtain ⟨accepted, messages, empty⟩ := evaluated
  have delivered : reordered.received ++ reordered.receiver.inbox = answeredMeshA.inbox ++
      (picked reordered.sent (acceptedNumbers reorderedLog)).filterMap (Sent.item linkedA.vpnAddr) := by
    unfold reordered reorderedLog
    exact (channel_delivers clearAead_ideal linkedA_answeredMeshA reorderedRun (by decide)).2.2.1
  rw [messages, empty] at delivered
  exact ⟨accepted, delivered⟩

end

end Nebula
