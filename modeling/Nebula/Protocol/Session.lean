import Nebula.Machine.Run
import Nebula.Protocol.Handshake
import Nebula.Protocol.Header
import Nebula.Protocol.Lighthouse
import Nebula.Rust.HashMap

/-! # Sessions

The state behind the lock of a `Session` and the sections that run under it: the handlers of the receive
loop, and the parts of `resolve`, `connect`, `send_typed`, `peer_info` and `recv` between two awaits.
Each section is one step; what it sends, wakes or cancels is its output. A section that reads clocks
or draws randomness is given those readings. A one-shot sender is its number: a sender that a later
one replaces in its table is dropped, which cancels the call that waits for it.
-/

namespace Nebula

open Rust

/-- The crates a session calls. -/
structure Externals where
  snow : Snow
  handshakeCodec : HandshakeCodec
  metaCodec : MetaCodec
  aead : Aead
  crypto : CertCrypto

abbrev WaiterId := ℕ

/-- A tunnel whose handshake is complete. -/
structure Peer where
  transport : Transport
  remote : SocketAddr
  vpnAddr : IpAddr
  cert : Certificate
  /-- The peer's own index, stamped on every data packet sent to it. -/
  remoteIndex : UInt32
deriving DecidableEq, Repr

inductive PeerState (HandshakeState : Type) where
  | handshaking (hs : HandshakeState)
  | established (peer : Peer)
deriving DecidableEq, Repr

structure Inner (HandshakeState : Type) where
  caCert : Certificate
  hostCert : Certificate
  hostPrivateKey : Key
  cipher : Cipher
  vpnAddr : IpAddr
  lighthouses : List IpAddr
  knownAddrs : HashMap IpAddr SocketAddr
  peersByIndex : HashMap UInt32 (PeerState HandshakeState)
  indexByVpnAddr : HashMap IpAddr UInt32
  connected : HashMap IpAddr WaiterId
  lighthouseWaiters : HashMap IpAddr WaiterId
  /-- What has been sent into the inbox and not been received yet, oldest first. -/
  inbox : List (IpAddr × Bytes)

/-- What a section reads from clocks and the random generator. -/
structure Ambient where
  nowUnix : Int64
  unixNanos : UInt64
  /-- The successive `subsec_nanos` readings of `allocate_index`. -/
  subsecNanos : List UInt32
  entropy : Bytes

/-- What a section does beside changing the state. -/
inductive Effect where
  | sendTo (packet : Bytes) (dest : SocketAddr)
  | wake (waiter : WaiterId)
  | answer (waiter : WaiterId) (addrs : List SocketAddr)
  | cancel (waiter : WaiterId)
deriving DecidableEq, Repr

def randIndex (subsecNanos : UInt32) : UInt32 := subsecNanos ^^^ 0x9E3779B9

section Session

variable (lib : Externals)

abbrev Externals.Inner (lib : Externals) : Type := Nebula.Inner lib.snow.HandshakeState

/-- The state `Session::build` starts from, its certificates and key decoded. -/
def Inner.new {H : Type} (caCert hostCert : Certificate) (hostPrivateKey : Key) (cipher : Cipher)
    (vpnAddr : IpAddr) (lighthouses : List IpAddr) (staticHosts : List (IpAddr × SocketAddr)) :
    Inner H where
  caCert
  hostCert
  hostPrivateKey
  cipher
  vpnAddr
  lighthouses
  knownAddrs := staticHosts.foldl (fun known (vpnAddr, addr) => known.insert vpnAddr addr) .empty
  peersByIndex := .empty
  indexByVpnAddr := .empty
  connected := .empty
  lighthouseWaiters := .empty
  inbox := []

/-- `allocate_index`: the first candidate that is neither 0 nor in use, if a reading yields one. -/
def allocateIndex (inner : lib.Inner) (subsecNanos : List UInt32) : Option UInt32 :=
  (subsecNanos.map randIndex).find? fun candidate => candidate ≠ 0 ∧ !inner.peersByIndex.containsKey candidate

/-- A peer's certificate from its handshake, verified, with its first network's address. -/
def admitCert (inner : lib.Inner) (details : NebulaHandshakeDetails) (keys : SplitKeys) (nowUnix : Int64) :
    Option (Certificate × IpAddr) :=
  match Certificate.recombine details.cert keys.remoteStatic .curve25519 with
  | .error _ => none
  | .ok cert =>
    match verifyHostCert lib.crypto cert inner.caCert nowUnix with
    | .error _ => none
    | .ok () => cert.details.networks.head?.map fun network => (cert, network.addr)

def establish (inner : lib.Inner) (index : UInt32) (cert : Certificate) (vpnAddr : IpAddr) (keys : SplitKeys)
    (source : SocketAddr) (remoteIndex : UInt32) : lib.Inner :=
  { inner with
    peersByIndex := inner.peersByIndex.insert index (.established
      { transport := .new inner.cipher keys.sendKey keys.recvKey, remote := source, vpnAddr, cert,
        remoteIndex })
    indexByVpnAddr := inner.indexByVpnAddr.insert vpnAddr index }

/-- The branch of `handle_handshake` for a stage-0 message. -/
def handleStage0 (inner : lib.Inner) (body : Bytes) (source : SocketAddr) (ambient : Ambient) :
    lib.Inner × List Effect :=
  match allocateIndex lib inner ambient.subsecNanos with
  | none => (inner, [])
  | some index =>
    match respond lib.snow lib.handshakeCodec inner.cipher inner.hostPrivateKey
      inner.hostCert.encodeForHandshake index body ambient.unixNanos ambient.entropy with
    | .error _ => (inner, [])
    | .ok (theirDetails, reply, keys) =>
      match admitCert lib inner theirDetails keys ambient.nowUnix with
      | none => (inner, [])
      | some (cert, vpnAddr) =>
        let header : Header := {
          version := Header.currentVersion, type_ := Header.handshake, subtype := Header.ixPsk0,
          remoteIndex := theirDetails.initiatorIndex, messageCounter := 2 }
        (establish lib inner index cert vpnAddr keys source theirDetails.initiatorIndex,
          [.sendTo (header.encode ++ reply) source])

/-- The branch of `handle_handshake` for the reply to a pending handshake of ours. The pending state is
taken out of the table before the reply is read. -/
def handleStage2 (inner : lib.Inner) (index : UInt32) (body : Bytes) (source : SocketAddr)
    (ambient : Ambient) : lib.Inner × List Effect :=
  match inner.peersByIndex.get index with
  | some (.handshaking hs) =>
    let inner := { inner with peersByIndex := inner.peersByIndex.remove index }
    match finishInitiator lib.snow lib.handshakeCodec hs body with
    | .error _ => (inner, [])
    | .ok (theirDetails, keys) =>
      match admitCert lib inner theirDetails keys ambient.nowUnix with
      | none => (inner, [])
      | some (cert, vpnAddr) =>
        let inner := establish lib inner index cert vpnAddr keys source theirDetails.responderIndex
        match inner.connected.get vpnAddr with
        | some waiter => ({ inner with connected := inner.connected.remove vpnAddr }, [.wake waiter])
        | none => (inner, [])
  | _ => (inner, [])

def handleHandshake (inner : lib.Inner) (hdr : Header) (body : Bytes) (source : SocketAddr)
    (ambient : Ambient) : lib.Inner × List Effect :=
  if hdr.remoteIndex = 0 then handleStage0 lib inner body source ambient
  else handleStage2 lib inner hdr.remoteIndex body source ambient

/-- Decrypt a packet under the tunnel it names. Its window is updated whether or not that succeeds. -/
def openPacket (inner : lib.Inner) (hdr : Header) (headerBytes body : Bytes) :
    lib.Inner × Option (Peer × Bytes) :=
  match inner.peersByIndex.get hdr.remoteIndex with
  | some (.established peer) =>
    let (transport, opened) :=
      peer.transport.decrypt lib.aead hdr.messageCounter headerBytes body (List.replicate body.length 0)
    let inner := { inner with
      peersByIndex := inner.peersByIndex.insert hdr.remoteIndex (.established { peer with transport }) }
    match opened with
    | .ok (len, out) => (inner, some (peer, out.take len))
    | .error _ => (inner, none)
  | _ => (inner, none)

def handleMessage (inner : lib.Inner) (hdr : Header) (headerBytes body : Bytes) : lib.Inner × List Effect :=
  match openPacket lib inner hdr headerBytes body with
  | (inner, some (peer, bytes)) => ({ inner with inbox := inner.inbox ++ [(peer.vpnAddr, bytes)] }, [])
  | (inner, none) => (inner, [])

def handleLighthouse (inner : lib.Inner) (body : Bytes) : lib.Inner × List Effect :=
  match lib.metaCodec.decode body with
  | none => (inner, [])
  | some message =>
    if message.type = MetaType.hostQueryReply ∨ message.type = MetaType.hostUpdateNotification then
      match Lighthouse.candidateAddrs message with
      | [] => (inner, [])
      | first :: rest =>
        match message.details.bind (·.vpnAddr) with
        | none => (inner, [])
        | some addr =>
          let vpnAddr := Lighthouse.addrToIp addr
          let inner := { inner with knownAddrs := inner.knownAddrs.insert vpnAddr first }
          match inner.lighthouseWaiters.get vpnAddr with
          | some waiter =>
            ({ inner with lighthouseWaiters := inner.lighthouseWaiters.remove vpnAddr },
              [.answer waiter (first :: rest)])
          | none => (inner, [])
    else (inner, [])

def handleLighthousePacket (inner : lib.Inner) (hdr : Header) (headerBytes body : Bytes) :
    lib.Inner × List Effect :=
  match openPacket lib inner hdr headerBytes body with
  | (inner, some (_, bytes)) => handleLighthouse lib inner bytes
  | (inner, none) => (inner, [])

/-- One turn of the receive loop. -/
def handleDatagram (inner : lib.Inner) (datagram : Bytes) (source : SocketAddr) (ambient : Ambient) :
    lib.Inner × List Effect :=
  match Header.parse datagram with
  | .error _ => (inner, [])
  | .ok hdr =>
    let headerBytes := datagram.take Header.len
    let body := datagram.drop Header.len
    if hdr.type_ = Header.handshake then handleHandshake lib inner hdr body source ambient
    else if hdr.type_ = Header.message then handleMessage lib inner hdr headerBytes body
    else if hdr.type_ = Header.lighthouse then handleLighthousePacket lib inner hdr headerBytes body
    else (inner, [])

/-- The waiter that an insertion drops. -/
def replaced (waiters : HashMap IpAddr WaiterId) (vpnAddr : IpAddr) : List Effect :=
  (waiters.get vpnAddr).toList.map Effect.cancel

/-- The second section of `resolve`: wait for a lighthouse, and learn which ones to ask. -/
def awaitLighthouse (inner : lib.Inner) (vpnAddr : IpAddr) (waiter : WaiterId) :
    lib.Inner × List IpAddr × List Effect :=
  ({ inner with lighthouseWaiters := inner.lighthouseWaiters.insert vpnAddr waiter }, inner.lighthouses,
    replaced inner.lighthouseWaiters vpnAddr)

/-- The section of `connect` behind `resolve`. A failing `stage0` leaves the waiter registered. -/
def openHandshake (inner : lib.Inner) (vpnAddr : IpAddr) (remote : SocketAddr) (waiter : WaiterId)
    (ambient : Ambient) : lib.Inner × Option (Res Unit) × List Effect :=
  let dropped := replaced inner.connected vpnAddr
  let inner := { inner with connected := inner.connected.insert vpnAddr waiter }
  match allocateIndex lib inner ambient.subsecNanos with
  | none => (inner, none, dropped)
  | some index =>
    match stage0 lib.snow lib.handshakeCodec inner.cipher inner.hostPrivateKey
      inner.hostCert.encodeForHandshake index ambient.unixNanos ambient.entropy with
    | .error failure => (inner, some (.error failure), dropped)
    | .ok (hs, msg) =>
      let header : Header := {
        version := Header.currentVersion, type_ := Header.handshake, subtype := Header.ixPsk0,
        remoteIndex := 0, messageCounter := 1 }
      ({ inner with peersByIndex := inner.peersByIndex.insert index (.handshaking hs) }, some (.ok ()),
        dropped ++ [.sendTo (header.encode ++ msg) remote])

/-- `send_typed`: the packet and where it goes. The counter is spent even if encryption fails. -/
def sendTyped (inner : lib.Inner) (vpnAddr : IpAddr) (type_ : UInt8) (payload : Bytes) :
    lib.Inner × Res (Bytes × SocketAddr) :=
  match inner.indexByVpnAddr.get vpnAddr with
  | none => (inner, .error (.err (.peerUnreachable vpnAddr)))
  | some index =>
    match inner.peersByIndex.get index with
    | some (.established peer) =>
      let (transport, counter) := peer.transport.nextCounter
      let header : Header := {
        version := Header.currentVersion, type_, subtype := 0, remoteIndex := peer.remoteIndex,
        messageCounter := counter }
      ({ inner with
        peersByIndex := inner.peersByIndex.insert index (.established { peer with transport }) }, do
        let (len, ciphertext) ←
          transport.encrypt lib.aead counter header.encode payload (List.replicate (payload.length + 32) 0)
        return (header.encode ++ ciphertext.take len, peer.remote))
    | _ => (inner, .error (.err (.peerUnreachable vpnAddr)))

structure PeerInfo where
  name : String
  groups : List String
  networks : List Network
  unsafeNetworks : List Network
deriving DecidableEq, Repr

def peerInfo (inner : lib.Inner) (vpnAddr : IpAddr) : Option PeerInfo := do
  let index ← inner.indexByVpnAddr.get vpnAddr
  match ← inner.peersByIndex.get index with
  | .established peer =>
    let details := peer.cert.details
    some ⟨details.name, details.groups, details.networks, details.unsafeNetworks⟩
  | .handshaking _ => none

/-- `recv`, which waits while the inbox is empty. -/
def recv (inner : lib.Inner) : lib.Inner × Option (IpAddr × Bytes) :=
  match inner.inbox with
  | [] => (inner, none)
  | item :: rest => ({ inner with inbox := rest }, some item)

/-- The sections that run under the lock of a session. -/
inductive SessionEvent where
  | datagram (bytes : Bytes) (source : SocketAddr) (ambient : Ambient)
  | resolveKnown (vpnAddr : IpAddr)
  | awaitLighthouse (vpnAddr : IpAddr) (waiter : WaiterId)
  | openHandshake (vpnAddr : IpAddr) (remote : SocketAddr) (waiter : WaiterId) (ambient : Ambient)
  | sendTyped (vpnAddr : IpAddr) (type_ : UInt8) (payload : Bytes)
  | peerInfo (vpnAddr : IpAddr)
  | recv

inductive SessionOutput where
  | handled (effects : List Effect)
  | known (addr : Option SocketAddr)
  | asking (lighthouses : List IpAddr) (effects : List Effect)
  | opened (result : Option (Res Unit)) (effects : List Effect)
  | sent (result : Res (Bytes × SocketAddr))
  | info (info : Option PeerInfo)
  | received (item : Option (IpAddr × Bytes))

/-- A session, one section after another, in whatever order its tasks get the lock. -/
def session : Machine.System lib.Inner SessionEvent SessionOutput where
  step inner
    | .datagram bytes source ambient =>
      let (inner, effects) := handleDatagram lib inner bytes source ambient
      (inner, .handled effects)
    | .resolveKnown vpnAddr => (inner, .known (inner.knownAddrs.get vpnAddr))
    | .awaitLighthouse vpnAddr waiter =>
      let (inner, lighthouses, effects) := awaitLighthouse lib inner vpnAddr waiter
      (inner, .asking lighthouses effects)
    | .openHandshake vpnAddr remote waiter ambient =>
      let (inner, result, effects) := openHandshake lib inner vpnAddr remote waiter ambient
      (inner, .opened result effects)
    | .sendTyped vpnAddr type_ payload =>
      let (inner, result) := sendTyped lib inner vpnAddr type_ payload
      (inner, .sent result)
    | .peerInfo vpnAddr => (inner, .info (peerInfo lib inner vpnAddr))
    | .recv =>
      let (inner, item) := recv lib inner
      (inner, .received item)

end Session

end Nebula
