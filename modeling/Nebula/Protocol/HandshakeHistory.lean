import Nebula.Protocol.HandshakePair

/-! # What two sessions have opened and answered

A history lists the handshakes the two sessions have opened and those they have answered. Every datagram on
the network is one of these, every answer stands for a tunnel of the session that gave it, and the keys of
every tunnel are those of one answer, seen from the one side or the other. Every step of the pair can be
explained by a longer history.
-/

namespace Nebula

open Rust

variable {lib : Externals}

def SplitKeys.both (keys : SplitKeys) : List Key := [keys.sendKey, keys.recvKey]

/-! ## What the two sessions have done -/

/-- A handshake that a session opened. -/
structure Opening (H : Type) where
  side : Side
  index : UInt32
  ambient : Ambient
  hs : H
  msg : Bytes

/-- A handshake that a session answered. -/
structure Answer where
  side : Side
  index : UInt32
  ambient : Ambient
  body : Bytes
  details : NebulaHandshakeDetails
  reply : Bytes
  keys : SplitKeys

structure History (H : Type) where
  openings : List (Opening H)
  answers : List Answer

/-- The handshake that a section opens, if it does. -/
def opens (side : Side) (inner : lib.Inner) : SessionEvent → List (Opening lib.snow.HandshakeState)
  | .openHandshake _ _ _ ambient =>
    match allocateIndex lib inner ambient.subsecNanos with
    | none => []
    | some index =>
      match stage0 lib.snow lib.handshakeCodec inner.cipher inner.hostPrivateKey inner.hostCert.encodeForHandshake
          index ambient.unixNanos ambient.entropy with
      | .error _ => []
      | .ok (hs, msg) => [⟨side, index, ambient, hs, msg⟩]
  | _ => []

/-- The answer that a section gives, if it does: to a first message, under a certificate it admits. -/
def answers (side : Side) (inner : lib.Inner) : SessionEvent → List Answer
  | .datagram datagram _ ambient =>
    match handshakeBody datagram, allocateIndex lib inner ambient.subsecNanos with
    | some (0, body), some index =>
      match respond lib.snow lib.handshakeCodec inner.cipher inner.hostPrivateKey inner.hostCert.encodeForHandshake
          index body ambient.unixNanos ambient.entropy with
      | .error _ => []
      | .ok (details, reply, keys) =>
        match admitCert lib inner details keys ambient.nowUnix with
        | none => []
        | some _ => [⟨side, index, ambient, body, details, reply, keys⟩]
    | _, _ => []
  | _ => []

namespace History

structure Within {H : Type} (h all : History H) : Prop where
  openings : h.openings ⊆ all.openings
  answers : h.answers ⊆ all.answers

theorem Within.trans {H : Type} {h all more : History H} (within : h.Within all) (further : all.Within more) :
    h.Within more :=
  ⟨List.Subset.trans within.openings further.openings, List.Subset.trans within.answers further.answers⟩

/-- The calls of `stage0` and `respond` are those of the sessions of these configurations. -/
structure Calls (lib : Externals) (built : Side → BuiltSession) (h : History lib.snow.HandshakeState) : Prop where
  opened : ∀ o ∈ h.openings, Initiates lib (built o.side).start o.index o.ambient o.hs o.msg
  answered : ∀ a ∈ h.answers,
    Responds lib (built a.side).start a.index a.ambient a.body a.details a.reply a.keys

/-- What is assumed of the Noise handshake, in these openings and answers: a responder reads the details that the
initiator wrote; an initiator completes its handshake only with the answer to its own message, reads the details of
that answer and gets the mirrored keys; and answers that drew different randomness have no key in common. -/
structure Ideal (lib : Externals) (built : Side → BuiltSession) (h : History lib.snow.HandshakeState) : Prop where
  reads : ∀ o ∈ h.openings, ∀ a ∈ h.answers, a.body = o.msg →
    a.details = ⟨(built o.side).hostCert.encodeForHandshake, o.index, 0, 0, o.ambient.unixNanos, 2⟩
  finishes : ∀ o ∈ h.openings, ∀ a ∈ h.answers, ∀ theirs mine,
    finishInitiator lib.snow lib.handshakeCodec o.hs a.reply = .ok (theirs, mine) →
    a.body = o.msg ∧ theirs = ⟨(built a.side).hostCert.encodeForHandshake, a.details.initiatorIndex, a.index, 0,
        a.ambient.unixNanos, 2⟩ ∧
      mine.sendKey = a.keys.recvKey ∧ mine.recvKey = a.keys.sendKey
  fresh : ∀ a ∈ h.answers, ∀ a' ∈ h.answers, a.ambient.entropy ≠ a'.ambient.entropy →
    a.keys.both.Disjoint a'.keys.both

theorem Ideal.within {built : Side → BuiltSession} {h all : History lib.snow.HandshakeState}
    (ideal : all.Ideal lib built) (within : h.Within all) : h.Ideal lib built where
  reads o opened a answered := ideal.reads o (within.openings opened) a (within.answers answered)
  finishes o opened a answered := ideal.finishes o (within.openings opened) a (within.answers answered)
  fresh a answered a' answered' := ideal.fresh a (within.answers answered) a' (within.answers answered')

end History

/-- The calls were made by the sessions of these configurations, and what was answered had been opened. -/
structure History.Genuine (lib : Externals) (built : Side → BuiltSession) (h : History lib.snow.HandshakeState) : Prop
    extends h.Calls lib built where
  asked : ∀ a ∈ h.answers, ∃ o ∈ h.openings, o.side = a.side.other ∧ o.msg = a.body

/-- The keys of the tunnel at `i` are those of its session's own answer. -/
structure OwnAnswer (side : Side) (i : UInt32) (peer : Peer) (a : Answer) : Prop where
  side : a.side = side
  index : a.index = i
  sends : peer.transport.sendCipher.key = a.keys.sendKey
  receives : peer.transport.recvCipher.key = a.keys.recvKey

/-- The keys of the tunnel at `i` mirror those of an answer that the other session gave for `i`. -/
structure OtherAnswer (side : Side) (i : UInt32) (peer : Peer) (a : Answer) : Prop where
  side : a.side = side.other
  asked : a.details.initiatorIndex = i
  index : peer.remoteIndex = a.index
  sends : peer.transport.sendCipher.key = a.keys.recvKey
  receives : peer.transport.recvCipher.key = a.keys.sendKey

/-- The tunnel that an answer established. -/
structure Stands (built : Side → BuiltSession) (a : Answer) (peer : Peer) : Prop where
  own : OwnAnswer a.side a.index peer a
  remoteIndex : peer.remoteIndex = a.details.initiatorIndex
  vpnAddr : peer.vpnAddr = (built a.side.other).vpnAddr

/-- What every run of the pair keeps, with the randomness it has drawn. -/
structure Explained (built : Side → BuiltSession) (drawn : List Bytes) (h : History lib.snow.HandshakeState)
    (p : Pair lib) : Prop where
  identity : ∀ side, (p.session side).identity = (built side).start.identity (H := lib.snow.HandshakeState)
  genuine : h.Genuine lib built
  distinct : (h.answers.map (·.ambient.entropy)).Nodup
  among : ∀ a ∈ h.answers, a.ambient.entropy ∈ drawn
  pending : ∀ side i hs, (p.session side).peersByIndex.get i = some (.handshaking hs) →
    ∃ o ∈ h.openings, o.side = side ∧ o.hs = hs
  sent : ∀ side, ∀ datagram ∈ p.sent side, ∀ asked, handshakeBody datagram = some asked →
    (∃ o ∈ h.openings, o.side = side ∧ asked = (0, o.msg)) ∨
      ∃ a ∈ h.answers, a.side = side ∧ asked = (a.details.initiatorIndex, a.reply)
  stands : ∀ a ∈ h.answers, ∃ peer, (p.session a.side).peersByIndex.get a.index = some (.established peer) ∧
    Stands built a peer
  keyed : ∀ side i peer, (p.session side).peersByIndex.get i = some (.established peer) →
    ∃ a ∈ h.answers, OwnAnswer side i peer a ∨ OtherAnswer side i peer a

/-! ## One step -/

theorem OwnAnswer.of_sameTunnel {side : Side} {i : UInt32} {peer peer' : Peer} {a : Answer}
    (own : OwnAnswer side i peer a) (same : SameTunnel peer peer') : OwnAnswer side i peer' a :=
  ⟨own.side, own.index, by rw [same.sendCipher, own.sends], by rw [same.recvCipher, own.receives]⟩

theorem OtherAnswer.of_sameTunnel {side : Side} {i : UInt32} {peer peer' : Peer} {a : Answer}
    (other : OtherAnswer side i peer a) (same : SameTunnel peer peer') : OtherAnswer side i peer' a :=
  ⟨other.side, other.asked, by rw [same.remoteIndex, other.index], by rw [same.sendCipher, other.sends],
    by rw [same.recvCipher, other.receives]⟩

theorem Stands.of_sameTunnel {built : Side → BuiltSession} {a : Answer} {peer peer' : Peer}
    (stands : Stands built a peer) (same : SameTunnel peer peer') : Stands built a peer' :=
  ⟨stands.own.of_sameTunnel same, by rw [same.remoteIndex, stands.remoteIndex],
    by rw [same.vpnAddr, stands.vpnAddr]⟩

section Step

variable {built : Side → BuiltSession} {drawn : List Bytes} {h all : History lib.snow.HandshakeState}
  {p p' : Pair lib} {event : PairEvent} {side : Side} {section_ : SessionEvent}
  {incoming : Option (UInt32 × Bytes)} {ambient : Ambient} {packets : List Bytes}

/-- What the history after a step of one session has to say about that session; the rest follows. -/
structure Accounts (built : Side → BuiltSession) (drawn : List Bytes) (h h' : History lib.snow.HandshakeState)
    (p' : Pair lib) (side : Side) (packets : List Bytes) : Prop where
  openings : h.openings ⊆ h'.openings
  answers : h.answers ⊆ h'.answers
  genuine : h'.Genuine lib built
  distinct : (h'.answers.map (·.ambient.entropy)).Nodup
  among : ∀ a ∈ h'.answers, a.ambient.entropy ∈ drawn
  pending : ∀ i hs, (p'.session side).peersByIndex.get i = some (.handshaking hs) →
    ∃ o ∈ h'.openings, o.side = side ∧ o.hs = hs
  sent : ∀ datagram ∈ packets, ∀ asked, handshakeBody datagram = some asked →
    (∃ o ∈ h'.openings, o.side = side ∧ asked = (0, o.msg)) ∨
      ∃ a ∈ h'.answers, a.side = side ∧ asked = (a.details.initiatorIndex, a.reply)
  stands : ∀ a ∈ h'.answers, a ∈ h.answers ∨
    a.side = side ∧ ∃ peer, (p'.session side).peersByIndex.get a.index = some (.established peer) ∧
      Stands built a peer
  keyed : ∀ i peer, (p'.session side).peersByIndex.get i = some (.established peer) →
    ∃ a ∈ h'.answers, OwnAnswer side i peer a ∨ OtherAnswer side i peer a

theorem Explained.extend (explained : Explained built drawn h p)
    (moves : Moves p event p' side section_ incoming ambient packets) {drawn' : List Bytes}
    {h' : History lib.snow.HandshakeState} (accounts : Accounts built drawn' h h' p' side packets) :
    Explained built drawn' h' p' := by
  have both {P : Side → Prop} (here : P side) (there : P side.other) (which : Side) : P which := by
    rcases which.eq_or_other side with rfl | rfl
    · exact here
    · exact there
  obtain ⟨session, sent⟩ := moves.others
  refine ⟨?_, accounts.genuine, accounts.distinct, accounts.among, ?_, ?_, ?_, ?_⟩
  · refine both ?_ ?_
    · exact moves.identity.trans (explained.identity side)
    · rw [session]
      exact explained.identity side.other
  · refine both accounts.pending ?_
    intro i hs there
    rw [session] at there
    obtain ⟨o, member, same⟩ := explained.pending side.other i hs there
    exact ⟨o, accounts.openings member, same⟩
  · have older (which : Side) (datagram : Bytes) (member : datagram ∈ p.sent which) (asked : UInt32 × Bytes)
        (body : handshakeBody datagram = some asked) :
        (∃ o ∈ h'.openings, o.side = which ∧ asked = (0, o.msg)) ∨
          ∃ a ∈ h'.answers, a.side = which ∧ asked = (a.details.initiatorIndex, a.reply) := by
      rcases explained.sent which datagram member asked body with ⟨o, member, same⟩ | ⟨a, member, same⟩
      · exact .inl ⟨o, accounts.openings member, same⟩
      · exact .inr ⟨a, accounts.answers member, same⟩
    refine both ?_ ?_
    · intro datagram member asked body
      rw [moves.sent] at member
      rcases List.mem_append.mp member with earlier | new
      · exact older side datagram earlier asked body
      · exact accounts.sent datagram new asked body
    · rw [sent]
      exact older side.other
  · intro a member
    rcases accounts.stands a member with before | ⟨rfl, new⟩
    · obtain ⟨peer, there, stands⟩ := explained.stands a before
      rcases a.side.eq_or_other side with same | same
      · rw [same] at there ⊢
        obtain ⟨peer', here, tunnel⟩ := moves.advance.persists there
        exact ⟨peer', here, stands.of_sameTunnel tunnel⟩
      · rw [same] at there ⊢
        rw [session]
        exact ⟨peer, there, stands⟩
    · exact new
  · refine both accounts.keyed ?_
    intro i peer there
    rw [session] at there
    obtain ⟨a, member, same⟩ := explained.keyed side.other i peer there
    exact ⟨a, accounts.answers member, same⟩

/-- The calls of a session depend on its configuration only. -/
theorem Initiates.of_identity {inner inner' : lib.Inner} (same : inner.identity = inner'.identity)
    {index : UInt32} {hs : lib.snow.HandshakeState} {msg : Bytes} (stage : Initiates lib inner index ambient hs msg) :
    Initiates lib inner' index ambient hs msg := by
  simp only [Inner.identity, Prod.mk.injEq] at same
  obtain ⟨-, host, key, cipher⟩ := same
  unfold Initiates at stage ⊢
  rw [← host, ← key, ← cipher]
  exact stage

theorem Responds.of_identity {inner inner' : lib.Inner} (same : inner.identity = inner'.identity) {index : UInt32}
    {body reply : Bytes} {details : NebulaHandshakeDetails} {keys : SplitKeys}
    (responded : Responds lib inner index ambient body details reply keys) :
    Responds lib inner' index ambient body details reply keys := by
  simp only [Inner.identity, Prod.mk.injEq] at same
  obtain ⟨-, host, key, cipher⟩ := same
  unfold Responds at responded ⊢
  rw [← host, ← key, ← cipher]
  exact responded

/-- The certificate that a session sends is admitted as its own and for its own address. -/
theorem hostCert_of_admitCert {inner : lib.Inner} {details : NebulaHandshakeDetails} {keys : SplitKeys}
    {nowUnix : Int64} {cert : Certificate} {v : IpAddr} {session : BuiltSession}
    (admitted : admitCert lib inner details keys nowUnix = some (cert, v))
    (sent : details.cert = session.hostCert.encodeForHandshake) :
    cert.details = session.hostCert.details ∧ v = session.vpnAddr := by
  obtain ⟨-, recombined, network⟩ := admitCert_spec admitted
  obtain ⟨der, decoded⟩ := session.decoded
  have own := Certificate.recombine_rekey (Certificate.recombine_encodeForHandshake decoded) keys.remoteStatic
    .curve25519
  rw [sent, own] at recombined
  cases recombined
  exact ⟨rfl, Option.some.inj (network.symm.trans session.first)⟩

/-- Tunnels that were there before are keyed as before. -/
theorem Explained.keyed_after (explained : Explained built drawn h p) {i : UInt32} {peer peer' : Peer}
    (was : (p.session side).peersByIndex.get i = some (.established peer)) (same : SameTunnel peer peer') :
    ∃ a ∈ h.answers, OwnAnswer side i peer' a ∨ OtherAnswer side i peer' a := by
  obtain ⟨a, member, own | other⟩ := explained.keyed side i peer was
  · exact ⟨a, member, .inl (own.of_sameTunnel same)⟩
  · exact ⟨a, member, .inr (other.of_sameTunnel same)⟩

/-- A pending handshake becomes a tunnel with an answer that the other session gave for it. -/
theorem Explained.finished (ideal : h.Ideal lib built) (explained : Explained built drawn h p)
    (moves : Moves p event p' side section_ incoming ambient packets) {i : UInt32} {hs : lib.snow.HandshakeState}
    {peer : Peer} (was : (p.session side).peersByIndex.get i = some (.handshaking hs))
    (now : (p'.session side).peersByIndex.get i = some (.established peer)) :
    ∃ a ∈ h.answers, OtherAnswer side i peer a := by
  obtain ⟨body, details, keys, cert, v, source, asked, nonzero, completed, rfl⟩ :=
    moves.advance.completes was now
  obtain ⟨datagram, sent, came⟩ := moves.came _ asked
  obtain ⟨o, opened, -, rfl⟩ := explained.pending side i hs was
  rcases explained.sent side.other datagram sent _ came with ⟨o', -, -, same⟩ | ⟨a, member, owner, same⟩
  · exact absurd (congrArg Prod.fst same) nonzero
  · obtain ⟨rfl, rfl⟩ := Prod.mk.inj same
    obtain ⟨-, rfl, sends, receives⟩ := ideal.finishes o opened a member _ _ completed
    exact ⟨a, member, owner, rfl, rfl, sends, receives⟩

/-- A step that sends nothing needs no more history. -/
theorem Explained.quiet (ideal : h.Ideal lib built) (explained : Explained built drawn h p)
    (moves : Moves p event p' side section_ incoming ambient []) {drawn' : List Bytes} (more : drawn ⊆ drawn') :
    Explained built drawn' h p' := by
  refine explained.extend moves ⟨fun _ => id, fun _ => id, explained.genuine, explained.distinct, ?_, ?_, ?_,
    ?_, ?_⟩
  · intro a member
    exact more (explained.among a member)
  · intro i hs now
    exact explained.pending side i hs (moves.advance.pending_before now)
  · intro datagram member
    cases member
  · intro a member
    exact .inl member
  · intro i peer now
    rcases moves.advance.tunnel_before now with ⟨before, was, same⟩ | ⟨hs, was⟩
    · exact explained.keyed_after was same
    · obtain ⟨a, member, answer⟩ := explained.finished ideal moves was now
      exact ⟨a, member, .inr answer⟩

theorem handshakeBody_packet (remoteIndex : UInt32) (counter : UInt64) (body : Bytes) :
    handshakeBody ((handshakeHeader remoteIndex counter).encode ++ body) = some (remoteIndex, body) := by
  have parsed := Header.parse_encode (handshakeHeader remoteIndex counter)
    (by decide : Header.currentVersion < 16) (by decide : Header.handshake < 16) body
  simp only [handshakeBody, parsed]
  rw [if_pos (show (handshakeHeader remoteIndex counter).type_ = Header.handshake from rfl),
    List.drop_left' (Header.length_encode _)]
  rfl

theorem Explained.opened (explained : Explained built drawn h p) {index : UInt32} {hs : lib.snow.HandshakeState}
    {msg : Bytes} (moves : Moves p event p' side section_ incoming ambient [(handshakeHeader 0 1).encode ++ msg])
    {drawn' : List Bytes} (more : drawn ⊆ drawn') (stage : Initiates lib (p.session side) index ambient hs msg)
    (peers : (p'.session side).peersByIndex = (p.session side).peersByIndex.insert index (.handshaking hs)) :
    Explained built drawn' ⟨⟨side, index, ambient, hs, msg⟩ :: h.openings, h.answers⟩ p' := by
  let o : Opening lib.snow.HandshakeState := ⟨side, index, ambient, hs, msg⟩
  refine explained.extend moves ⟨List.subset_cons_self _ _, fun _ => id, ⟨⟨?_, explained.genuine.answered⟩, ?_⟩,
    explained.distinct, ?_, ?_, ?_, ?_, ?_⟩
  · intro other member
    rcases List.mem_cons.mp member with rfl | earlier
    · exact stage.of_identity (explained.identity side)
    · exact explained.genuine.opened other earlier
  · intro a member
    obtain ⟨other, opened, from_⟩ := explained.genuine.asked a member
    exact ⟨other, List.mem_cons_of_mem _ opened, from_⟩
  · intro a member
    exact more (explained.among a member)
  · intro i hs' now
    rw [peers, HashMap.get_insert] at now
    split at now
    · cases now
      exact ⟨o, List.mem_cons_self, rfl, rfl⟩
    · obtain ⟨other, member, same⟩ := explained.pending side i hs' now
      exact ⟨other, List.mem_cons_of_mem _ member, same⟩
  · intro datagram member asked body
    obtain rfl := List.mem_singleton.mp member
    rw [handshakeBody_packet] at body
    exact .inl ⟨o, List.mem_cons_self, rfl, (Option.some.inj body).symm⟩
  · intro a member
    exact .inl member
  · intro i peer now
    rw [peers, HashMap.get_insert] at now
    split at now
    · cases now
    · exact explained.keyed side i peer now

/-- A session answers what the other one has opened, so the tunnel it establishes is for the other's address. -/
theorem Explained.answered (ideal : all.Ideal lib built) (explained : Explained built drawn h p)
    (within : h.Within all) {index : UInt32} {body reply : Bytes} {details : NebulaHandshakeDetails} {keys : SplitKeys}
    {cert : Certificate} {v : IpAddr} {source : SocketAddr}
    (moves : Moves p event p' side section_ incoming ambient
      [(handshakeHeader details.initiatorIndex 2).encode ++ reply])
    {drawn' : List Bytes} (more : drawn ⊆ drawn') (new : ambient.entropy ∈ drawn')
    (unused : ambient.entropy ∉ drawn) (asked : incoming = some (0, body))
    (responded : Responds lib (p.session side) index ambient body details reply keys)
    (admitted : admitCert lib (p.session side) details keys ambient.nowUnix = some (cert, v))
    (peers : (p'.session side).peersByIndex = (p.session side).peersByIndex.insert index (.established
      (tunnelOf (p.session side).cipher keys source v cert details.initiatorIndex)))
    (listed : ⟨side, index, ambient, body, details, reply, keys⟩ ∈ all.answers) :
    Explained built drawn' ⟨h.openings, ⟨side, index, ambient, body, details, reply, keys⟩ :: h.answers⟩ p' := by
  obtain ⟨datagram, sent, came⟩ := moves.came _ asked
  have genuine := responded.of_identity (explained.identity side)
  obtain ⟨o, opened, owner, rfl⟩ : ∃ o ∈ h.openings, o.side = side.other ∧ o.msg = body := by
    rcases explained.sent side.other datagram sent _ came with ⟨o, opened, owner, same⟩ | ⟨b, answer, -, same⟩
    · exact ⟨o, opened, owner, (congrArg Prod.snd same).symm⟩
    · have usable := (respond_spec (explained.genuine.answered b answer)).1
      exact absurd (congrArg Prod.fst same).symm usable
  have read := ideal.reads o (within.openings opened) _ listed rfl
  have address : v = (built side.other).vpnAddr := by
    refine (hostCert_of_admitCert admitted ?_).2
    rw [show details = _ from read, owner]
  let a : Answer := ⟨side, index, ambient, o.msg, details, reply, keys⟩
  have own : OwnAnswer side index
      (tunnelOf (p.session side).cipher keys source v cert details.initiatorIndex) a := ⟨rfl, rfl, rfl, rfl⟩
  refine explained.extend moves ⟨fun _ => id, List.subset_cons_self _ _, ⟨⟨explained.genuine.opened, ?_⟩, ?_⟩, ?_, ?_,
    ?_, ?_, ?_, ?_⟩
  · intro other member
    rcases List.mem_cons.mp member with rfl | earlier
    · exact genuine
    · exact explained.genuine.answered other earlier
  · intro other member
    rcases List.mem_cons.mp member with rfl | earlier
    · exact ⟨o, opened, owner, rfl⟩
    · exact explained.genuine.asked other earlier
  · refine List.nodup_cons.mpr ⟨?_, explained.distinct⟩
    intro member
    obtain ⟨other, earlier, same⟩ := List.mem_map.mp member
    have among := explained.among other earlier
    rw [show other.ambient.entropy = ambient.entropy from same] at among
    exact unused among
  · intro other member
    rcases List.mem_cons.mp member with rfl | earlier
    · exact new
    · exact more (explained.among other earlier)
  · intro i hs now
    rw [peers, HashMap.get_insert] at now
    split at now
    · cases now
    · exact explained.pending side i hs now
  · intro other member said answer
    obtain rfl := List.mem_singleton.mp member
    rw [handshakeBody_packet] at answer
    exact .inr ⟨a, List.mem_cons_self, rfl, (Option.some.inj answer).symm⟩
  · intro other member
    rcases List.mem_cons.mp member with rfl | earlier
    · refine .inr ⟨rfl, _, ?_, own, rfl, address⟩
      rw [peers, HashMap.get_insert_self]
    · exact .inl earlier
  · intro i peer now
    rw [peers, HashMap.get_insert] at now
    split at now
    next here =>
      cases now
      subst here
      exact ⟨a, List.mem_cons_self, .inl own⟩
    · obtain ⟨other, member, same⟩ := explained.keyed side i peer now
      exact ⟨other, List.mem_cons_of_mem _ member, same⟩

/-- Whatever a session does, a longer history explains it, of the openings and answers that its section makes. -/
theorem Explained.step (ideal : all.Ideal lib built) (explained : Explained built drawn h p) (within : h.Within all)
    (moves : Moves p event p' side section_ incoming ambient packets)
    (listed : (⟨opens side (p.session side) section_, answers side (p.session side) section_⟩ : History _).Within all)
    (unused : ∀ entropy, event.entropy = some entropy → entropy ∉ drawn) :
    ∃ h' : History lib.snow.HandshakeState, h'.Within all ∧ Explained built (drawn ++ event.entropy.toList) h' p' := by
  have more : drawn ⊆ drawn ++ event.entropy.toList := List.subset_append_left _ _
  have quiet (moves : Moves p event p' side section_ incoming ambient []) :
      ∃ h' : History lib.snow.HandshakeState, h'.Within all ∧ Explained built (drawn ++ event.entropy.toList) h' p' :=
    ⟨h, within, explained.quiet (ideal.within within) moves more⟩
  cases moves.advance with
  | idle peers => exact quiet moves
  | used was same peers => exact quiet moves
  | @opened index hs msg call allocated stage peers =>
    refine ⟨⟨⟨side, index, ambient, hs, msg⟩ :: h.openings, h.answers⟩, ⟨?_, within.answers⟩,
      explained.opened moves more stage peers⟩
    obtain ⟨v, remote, waiter, rfl⟩ := call
    have made : ⟨side, index, ambient, hs, msg⟩ ∈
        opens side (p.session side) (.openHandshake v remote waiter ambient) := by
      simp only [opens, allocated, show _ = Except.ok _ from stage, List.mem_singleton]
    exact List.cons_subset.mpr ⟨listed.openings made, within.openings⟩
  | @answered index body reply details keys cert v source asked call allocated responded admitted peers =>
    have drew := moves.drawn (List.cons_ne_nil _ _)
    have new : ambient.entropy ∈ drawn ++ event.entropy.toList := by simp [drew]
    obtain ⟨datagram, from_, rfl, came⟩ := call
    have made : ⟨side, index, ambient, body, details, reply, keys⟩ ∈
        answers side (p.session side) (.datagram datagram from_ ambient) := by
      simp only [answers, came, allocated, show _ = Except.ok _ from responded, admitted, List.mem_singleton]
    exact ⟨⟨h.openings, ⟨side, index, ambient, body, details, reply, keys⟩ :: h.answers⟩,
      ⟨within.openings, List.cons_subset.mpr ⟨listed.answers made, within.answers⟩⟩,
      explained.answered ideal within moves more new (unused _ drew) asked responded admitted peers
        (listed.answers made)⟩
  | finished asked nonzero was completed peers => exact quiet moves
  | forgot was peers => exact quiet moves

/-- What a section opens and answers it opens and answers by the calls of its session. -/
theorem calls_of_section {built : Side → BuiltSession} {side : Side} {inner : lib.Inner}
    (same : inner.identity = (built side).start.identity (H := lib.snow.HandshakeState)) (event : SessionEvent) :
    (⟨opens side inner event, answers side inner event⟩ : History _).Calls lib built where
  opened o member := by
    cases event with
    | openHandshake v remote waiter ambient =>
      simp only [opens] at member
      split at member
      · cases member
      next index allocated =>
        split at member
        · cases member
        next hs msg stage =>
          obtain rfl := List.mem_singleton.mp member
          exact Initiates.of_identity same stage
    | datagram | resolveKnown | awaitLighthouse | sendTyped | peerInfo | recv => cases member
  answered a member := by
    cases event with
    | datagram datagram source ambient =>
      simp only [answers] at member
      split at member
      next body index came allocated =>
        split at member
        · cases member
        next details reply keys responded =>
          split at member
          · cases member
          next cert admitted =>
            obtain rfl := List.mem_singleton.mp member
            exact Responds.of_identity same responded
      · cases member
    | openHandshake | resolveKnown | awaitLighthouse | sendTyped | peerInfo | recv => cases member

end Step

end Nebula
