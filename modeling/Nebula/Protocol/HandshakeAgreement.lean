import Nebula.Machine.Part
import Nebula.Protocol.HandshakeHistory
import Mathlib.Data.List.Nodup

/-! # The two ends of a tunnel agree

An initiator that completes a handshake finds the responder's tunnel in place, with its own index, the mirrored
keys and its own address, and both tunnels stay. No two tunnels of a session share a key, since each goes back
to an answer of its own.
-/

namespace Nebula

open Rust

variable {lib : Externals}

/-! ## Every run -/

/-- The keys of a tunnel. -/
def Peer.keys (peer : Peer) : List Key := [peer.transport.sendCipher.key, peer.transport.recvCipher.key]

/-- The other end of the tunnel `peer`, which is filed under `i` by the session with this address. -/
structure Mirrors (i : UInt32) (vpnAddr : IpAddr) (peer other : Peer) : Prop where
  remoteIndex : other.remoteIndex = i
  sends : other.transport.sendCipher.key = peer.transport.recvCipher.key
  receives : other.transport.recvCipher.key = peer.transport.sendCipher.key
  vpnAddr : other.vpnAddr = vpnAddr

section Run

def Pair.opens (p : Pair lib) (event : PairEvent) : List (Opening lib.snow.HandshakeState) :=
  match event.runs p with
  | some (side, section_) => Nebula.opens side (p.session side) section_
  | none => []

def Pair.answers (p : Pair lib) (event : PairEvent) : List Answer :=
  match event.runs p with
  | some (side, section_) => Nebula.answers side (p.session side) section_
  | none => []

variable (lib) in
/-- The handshakes that the two sessions open and answer in a run. -/
def pairHandshakes (built : Side → BuiltSession) (events : List PairEvent) : History lib.snow.HandshakeState where
  openings := (pair lib).gather Pair.opens (.start lib built) events
  answers := (pair lib).gather Pair.answers (.start lib built) events

theorem pairHandshakes_within (built : Side → BuiltSession) (before after : List PairEvent) :
    (pairHandshakes lib built before).Within (pairHandshakes lib built (before ++ after)) := by
  unfold pairHandshakes
  rw [Machine.System.gather_append, Machine.System.gather_append]
  exact ⟨List.subset_append_left _ _, List.subset_append_left _ _⟩

theorem identity_pair (built : Side → BuiltSession) (events : List PairEvent) (side : Side) :
    (((pair lib).exec (.start lib built) events).session side).identity =
      (built side).start.identity (H := lib.snow.HandshakeState) := by
  refine (pair lib).state_invariant (fun p => (p.session side).identity = (built side).start.identity) ?_ rfl events
  intro p event same
  rcases pair_step_cases p event with still | ⟨actor, section_, incoming, ambient, packets, -, moves⟩
  · rw [still]
    exact same
  · rcases side.eq_or_other actor with rfl | rfl
    · exact moves.identity.trans same
    · rw [moves.others.1]
      exact same

/-- What is opened and answered is so by the calls of the two sessions. -/
theorem pairHandshakes_calls (built : Side → BuiltSession) (events : List PairEvent) :
    (pairHandshakes lib built events).Calls lib built := by
  constructor
  · intro o member
    obtain ⟨before, event, after, -, here⟩ := Machine.System.mem_gather_iff.mp member
    unfold Pair.opens at here
    split at here
    next side section_ runs => exact (calls_of_section (identity_pair built before side) section_).opened o here
    · cases here
  · intro a member
    obtain ⟨before, event, after, -, here⟩ := Machine.System.mem_gather_iff.mp member
    unfold Pair.answers at here
    split at here
    next side section_ runs => exact (calls_of_section (identity_pair built before side) section_).answered a here
    · cases here

variable (built : Side → BuiltSession)

/-- The tunnel at `i` has its other end in place. -/
def Agreed (p : Pair lib) (side : Side) (i : UInt32) : Prop :=
  ∃ peer other, (p.session side).peersByIndex.get i = some (.established peer) ∧
    (p.session side.other).peersByIndex.get peer.remoteIndex = some (.established other) ∧
    Mirrors i (built side).vpnAddr peer other

variable (lib) in
/-- A step of the run turned the pending handshake at `i` into a tunnel. -/
def CreatedAsInitiator (events : List PairEvent) (side : Side) (i : UInt32) : Prop :=
  ∃ before event after hs peer, events = before ++ event :: after ∧
    (((pair lib).exec (.start lib built) before).session side).peersByIndex.get i = some (.handshaking hs) ∧
    (((pair lib).exec (.start lib built) (before ++ [event])).session side).peersByIndex.get i =
      some (.established peer)

variable {built} {drawn : List Bytes} {h : History lib.snow.HandshakeState} {p : Pair lib}

theorem tunnel_persists (p : Pair lib) (event : PairEvent) {side : Side} {i : UInt32} {peer : Peer}
    (was : (p.session side).peersByIndex.get i = some (.established peer)) :
    ∃ peer', (((pair lib).step p event).1.session side).peersByIndex.get i = some (.established peer') ∧
      SameTunnel peer peer' := by
  rcases pair_step_cases p event with same | ⟨actor, section_, incoming, ambient, packets, -, moves⟩
  · rw [same]
    exact ⟨peer, was, .refl peer⟩
  · rcases side.eq_or_other actor with rfl | rfl
    · exact moves.advance.persists was
    · rw [moves.others.1]
      exact ⟨peer, was, .refl peer⟩

theorem Agreed.step {side : Side} {i : UInt32} (agreed : Agreed built p side i) (event : PairEvent) :
    Agreed built ((pair lib).step p event).1 side i := by
  obtain ⟨peer, other, here, there, mirrors⟩ := agreed
  obtain ⟨peer', here', same⟩ := tunnel_persists p event here
  obtain ⟨other', there', same'⟩ := tunnel_persists p event there
  refine ⟨peer', other', here', same.remoteIndex ▸ there', ?_, ?_, ?_, ?_⟩
  · rw [same'.remoteIndex, mirrors.remoteIndex]
  · rw [same'.sendCipher, same.recvCipher, mirrors.sends]
  · rw [same'.recvCipher, same.sendCipher, mirrors.receives]
  · rw [same'.vpnAddr, mirrors.vpnAddr]

/-- The step that completes a handshake finds the responder's tunnel in place. -/
theorem Explained.agreed (ideal : h.Ideal lib built) (explained : Explained built drawn h p) (event : PairEvent)
    {side : Side} {i : UInt32} {hs : lib.snow.HandshakeState} {peer : Peer}
    (was : (p.session side).peersByIndex.get i = some (.handshaking hs))
    (now : (((pair lib).step p event).1.session side).peersByIndex.get i = some (.established peer)) :
    Agreed built ((pair lib).step p event).1 side i := by
  rcases pair_step_cases p event with same | ⟨actor, section_, incoming, ambient, packets, -, moves⟩
  · rw [same, was] at now
    cases now
  rcases side.eq_or_other actor with rfl | rfl
  · obtain ⟨a, member, answer⟩ := explained.finished ideal moves was now
    obtain ⟨other, there, stands⟩ := explained.stands a member
    have own := stands.own
    refine ⟨peer, other, now, ?_, ?_, ?_, ?_, ?_⟩
    · rw [moves.others.1, answer.index, ← answer.side]
      exact there
    · rw [stands.remoteIndex, answer.asked]
    · rw [own.sends, answer.receives]
    · rw [own.receives, answer.sends]
    · rw [stands.vpnAddr, answer.side, Side.other_other]
  · rw [moves.others.1, was] at now
    cases now

/-- Different answers have no key in common, and so have the tunnels that go back to them. -/
theorem Explained.keys_disjoint (ideal : h.Ideal lib built) (explained : Explained built drawn h p) {side : Side}
    {i i' : UInt32} {peer peer' : Peer} (apart : i ≠ i')
    (here : (p.session side).peersByIndex.get i = some (.established peer))
    (there : (p.session side).peersByIndex.get i' = some (.established peer')) :
    peer.keys.Disjoint peer'.keys := by
  have keysOf {i : UInt32} {peer : Peer} {a : Answer}
      (keyed : OwnAnswer side i peer a ∨ OtherAnswer side i peer a) : peer.keys ⊆ a.keys.both := by
    rcases keyed with own | other
    · rw [Peer.keys, own.sends, own.receives]
      exact fun _ => id
    · rw [Peer.keys, other.sends, other.receives]
      exact (List.Perm.swap _ _ _).subset
  obtain ⟨a, member, keyed⟩ := explained.keyed side i peer here
  obtain ⟨a', member', keyed'⟩ := explained.keyed side i' peer' there
  have different : a ≠ a' := by
    rintro rfl
    rcases keyed with own | other <;> rcases keyed' with own' | other'
    · exact apart (own.index.symm.trans own'.index)
    · exact side.other_ne (other'.side.symm.trans own.side)
    · exact side.other_ne (other.side.symm.trans own'.side)
    · exact apart (other.asked.symm.trans other'.asked)
  have drewOther : a.ambient.entropy ≠ a'.ambient.entropy := by
    intro same
    exact different (List.inj_on_of_nodup_map explained.distinct member member' same)
  have disjoint := ideal.fresh a member a' member' drewOther
  exact fun key mine theirs => disjoint (keysOf keyed mine) (keysOf keyed' theirs)

/-- A run of the pair that is listed in `all` is explained by a part of `all`. -/
theorem explained_run {all : History lib.snow.HandshakeState} (ideal : all.Ideal lib built) (events : List PairEvent)
    (fresh : (events.filterMap PairEvent.entropy).Nodup) (listed : (pairHandshakes lib built events).Within all) :
    ∃ h : History lib.snow.HandshakeState, h.Within all ∧
      Explained built (events.filterMap PairEvent.entropy) h ((pair lib).exec (.start lib built) events) := by
  induction events using List.reverseRecOn with
  | nil =>
    refine ⟨⟨[], []⟩, ⟨List.nil_subset _, List.nil_subset _⟩, fun _ => rfl, ⟨⟨?_, ?_⟩, ?_⟩, List.nodup_nil, ?_, ?_, ?_,
      ?_, ?_⟩
    all_goals simp [Pair.start, BuiltSession.start, Inner.new]
  | append_singleton events event ih =>
    have drawn : (events ++ [event]).filterMap PairEvent.entropy =
        events.filterMap PairEvent.entropy ++ event.entropy.toList := by
      rw [List.filterMap_append]
      cases entropy : event.entropy with
      | none => simp [entropy]
      | some bytes => simp [entropy]
    rw [drawn] at fresh ⊢
    obtain ⟨before, -, apart⟩ := List.nodup_append.mp fresh
    obtain ⟨h, within, explained⟩ := ih before ((pairHandshakes_within built events [event]).trans listed)
    rw [Machine.System.exec_concat]
    rcases pair_step_cases ((pair lib).exec (.start lib built) events) event with
      same | ⟨side, section_, incoming, ambient, packets, runs, moves⟩
    · rw [same]
      exact ⟨h, within,
        { explained with among := fun a member => List.mem_append_left _ (explained.among a member) }⟩
    · refine explained.step ideal within moves ?_ ?_
      · unfold pairHandshakes at listed
        rw [Machine.System.gather_concat, Machine.System.gather_concat, Pair.opens, Pair.answers, runs] at listed
        exact ⟨(List.append_subset.mp listed.openings).2, (List.append_subset.mp listed.answers).2⟩
      · intro entropy drew member
        exact apart entropy member entropy (by simp [drew]) rfl

theorem agreed_run {side : Side} {i : UInt32} (agreed : Agreed built p side i) (events : List PairEvent) :
    Agreed built ((pair lib).exec p events) side i := by
  refine (pair lib).state_invariant (fun state => Agreed built state side i) ?_ agreed events
  intro state event agreed
  exact agreed.step event

/-- Two sessions open handshakes in any order, and the network loses, repeats and reorders the datagrams. Whenever
one holds a tunnel at its index `i` that it created as the initiator, the other holds a tunnel at the index
that this one names, which names `i`, has the mirrored keys and is for the initiator's address. No two
tunnels of one session have a key in common. -/
theorem tunnels_agree (built : Side → BuiltSession) (events : List PairEvent)
    (ideal : (pairHandshakes lib built events).Ideal lib built)
    (fresh : (events.filterMap PairEvent.entropy).Nodup) :
    let reached := (pair lib).exec (.start lib built) events
    (∀ side i peer, CreatedAsInitiator lib built events side i →
      (reached.session side).peersByIndex.get i = some (.established peer) →
      ∃ other, (reached.session side.other).peersByIndex.get peer.remoteIndex = some (.established other) ∧
        Mirrors i (built side).vpnAddr peer other) ∧
    ∀ side i i' peer peer', i ≠ i' →
      (reached.session side).peersByIndex.get i = some (.established peer) →
      (reached.session side).peersByIndex.get i' = some (.established peer') →
      peer.keys.Disjoint peer'.keys := by
  intro reached
  refine ⟨?_, ?_⟩
  · rintro side i peer ⟨before, event, after, hs, created, rfl, was, now⟩ here
    rw [List.filterMap_append] at fresh
    obtain ⟨h, within, explained⟩ := explained_run ideal before (List.nodup_append.mp fresh).1
      (pairHandshakes_within built before (event :: after))
    rw [Machine.System.exec_concat] at now
    have agreed := agreed_run (explained.agreed (ideal.within within) event was now) after
    rw [← Machine.System.exec_cons, ← Machine.System.exec_append] at agreed
    obtain ⟨peer', other, there, otherEnd, mirrors⟩ := agreed
    obtain rfl : peer' = peer := by
      have same := there.symm.trans here
      cases same
      rfl
    exact ⟨other, otherEnd, mirrors⟩
  · intro side i i' peer peer' apart here there
    obtain ⟨h, within, explained⟩ := explained_run ideal events fresh ⟨List.Subset.refl _, List.Subset.refl _⟩
    exact explained.keys_disjoint (ideal.within within) apart here there

end Run

/-! ## A handshake whose reply repeats the first message

This stand-in for `snow` lets an initiator accept a reply only if it repeats the message it has sent. The two
split keys are what the responder drew and the same with the first bit of each byte flipped, and only draws
whose first byte has that bit clear are accepted. The codec knows the messages of the test network.
-/

namespace TestNetwork

structure BoundParty where
  initiator : Bool
  publicKey : Bytes
  remoteStatic : Option Bytes
  /-- The first message, once it is known. -/
  transcript : Bytes
  /-- What the responder has drawn, once it is known. -/
  ephemeral : Bytes
deriving DecidableEq

def newBoundParty (initiator : Bool) (key : Key) : BoundParty :=
  ⟨initiator, if key = keyA then hostA.publicKey else hostB.publicKey, none, [], []⟩

/-- The first message with its length, as the reply repeats it. -/
def bound (transcript : Bytes) : Bytes := beBytes 8 transcript.length ++ transcript

def splitKey (ephemeral : Bytes) : Key :=
  if size : ephemeral.length = 32 then ⟨ephemeral, size⟩ else .replicate 32 0

def flipped (ephemeral : Bytes) : Bytes := ephemeral.map (· + 128)

def boundSnow : Snow where
  HandshakeState := BoundParty
  buildInitiator _ key := some (newBoundParty true key)
  buildResponder _ key := some (newBoundParty false key)
  writeMessage hs entropy payload :=
    if entropy.length = 32 ∧ entropy.headD 128 < 128 ∧ payload.length + 64 ≤ 65535 then
      match hs.initiator with
      | true =>
        some ({ hs with transcript := entropy ++ hs.publicKey ++ payload }, entropy ++ hs.publicKey ++ payload)
      | false =>
        some ({ hs with ephemeral := entropy }, entropy ++ hs.publicKey ++ (bound hs.transcript ++ payload))
    else none
  readMessage hs message :=
    if message.length < 64 then none
    else match hs.initiator with
      | true =>
        if (message.drop 64).take (bound hs.transcript).length = bound hs.transcript then
          some ({ hs with ephemeral := message.take 32, remoteStatic := some ((message.drop 32).take 32) },
            (message.drop 64).drop (bound hs.transcript).length)
        else none
      | false =>
        if message.length ≤ 65535 then
          some ({ hs with transcript := message, remoteStatic := some ((message.drop 32).take 32) },
            message.drop 64)
        else none
  getRemoteStatic hs := hs.remoteStatic
  rawSplit hs := (splitKey hs.ephemeral, splitKey (flipped hs.ephemeral))
  isInitiator hs := hs.initiator

/-- What host B answers to a copy of the message. -/
def welcomeAgain : NebulaHandshake where
  details := some {
    cert := hostB.encodeForHandshake, initiatorIndex := indexA, responderIndex := randIndex 4, cookie := 0
    time := (ambient 4).unixNanos, certVersion := 2 }
  hmac := []

def known : List NebulaHandshake := [hello, welcome, welcomeAgain]

def testCodec : HandshakeCodec where
  encode message := if message ∈ known then protobuf message else []
  decode payload := known.find? (protobuf · = payload)

def boundNetwork : Externals := { network with snow := boundSnow, handshakeCodec := testCodec }

instance : DecidableEq boundNetwork.snow.HandshakeState := inferInstanceAs (DecidableEq BoundParty)

/-- What the codec reads is what it wrote. -/
theorem testCodec_reads {message read : NebulaHandshake}
    (decoded : testCodec.decode (testCodec.encode message) = some read) : read = message := by
  have found : known.find? (protobuf · = testCodec.encode message) = some read := decoded
  have member : read ∈ known := List.mem_of_find?_eq_some found
  have same : protobuf read = testCodec.encode message := by simpa using List.find?_some found
  have distinct : (known.map protobuf).Nodup ∧ [] ∉ known.map protobuf := by decide +kernel
  change protobuf read = if message ∈ known then protobuf message else [] at same
  split at same
  next among => exact List.inj_on_of_nodup_map distinct.1 member among same
  next unknown =>
    rw [← same] at distinct
    exact absurd (List.mem_map_of_mem member) distinct.2

theorem length_publicKey (initiator : Bool) (key : Key) :
    (newBoundParty initiator key).publicKey.length = 32 := by
  unfold newBoundParty
  dsimp only
  split
  · exact length_beBytes 32 _
  · exact length_beBytes 32 _

section Bound

variable {cipher : Cipher} {key : Key} {cert body msg reply : Bytes} {index : UInt32} {time : UInt64}
  {entropy : Bytes} {hs : BoundParty} {details : NebulaHandshakeDetails} {keys : SplitKeys}

/-- A draw that the parties accept. -/
def IsEphemeral (entropy : Bytes) : Prop := entropy.length = 32 ∧ entropy.headD 128 < 128

def opening (cert : Bytes) (index : UInt32) (time : UInt64) : NebulaHandshake :=
  ⟨some ⟨cert, index, 0, 0, time, 2⟩, []⟩

def closing (cert : Bytes) (initiatorIndex index : UInt32) (time : UInt64) : NebulaHandshake :=
  ⟨some ⟨cert, initiatorIndex, index, 0, time, 2⟩, []⟩

theorem stage0_bound (stage : stage0 boundSnow testCodec cipher key cert index time entropy = .ok (hs, msg)) :
    entropy.length = 32 ∧ msg.length ≤ 65535 ∧ hs.initiator = true ∧ hs.transcript = msg ∧
      msg.drop 64 = testCodec.encode (opening cert index time) := by
  obtain ⟨hs₀, built, wrote⟩ := bind_eq_ok.mp stage
  cases okOr_eq_ok built
  have wrote := okOr_eq_ok wrote
  change (if _ then _ else none) = some (hs, msg) at wrote
  split at wrote
  next fits =>
    cases wrote
    have size := length_publicKey true key
    refine ⟨fits.1, ?_, rfl, rfl, ?_⟩
    · rw [List.length_append, List.length_append, size, fits.1]
      have room := fits.2.2
      omega
    · exact List.drop_left' (by rw [List.length_append, size, fits.1])
  · cases wrote

theorem decodeDetailsOf_spec {codec : HandshakeCodec} {missing : String} {payload : Bytes}
    (extracted : decodeDetailsOf codec missing payload = .ok details) :
    ∃ read, codec.decode payload = some read ∧ read.details = some details := by
  obtain ⟨handshake, decoded, named⟩ := bind_eq_ok.mp extracted
  exact ⟨handshake, okOr_eq_ok decoded, okOr_eq_ok named⟩

theorem writeMessage_reply {hs' : BoundParty} {payload message : Bytes} (responder : hs.initiator = false)
    (wrote : boundSnow.writeMessage hs entropy payload = some (hs', message)) :
    IsEphemeral entropy ∧ message = entropy ++ hs.publicKey ++ (bound hs.transcript ++ payload) ∧
      hs' = { hs with ephemeral := entropy } := by
  simp only [boundSnow] at wrote
  split at wrote
  next room =>
    rw [responder] at wrote
    cases wrote
    exact ⟨⟨room.1, room.2.1⟩, rfl, by rw [responder]⟩
  · cases wrote

theorem readMessage_opening {hs' : BoundParty} {payload message : Bytes} (responder : hs.initiator = false)
    (read : boundSnow.readMessage hs message = some (hs', payload)) :
    message.length ≤ 65535 ∧ payload = message.drop 64 ∧
      hs' = { hs with transcript := message, remoteStatic := some ((message.drop 32).take 32) } := by
  simp only [boundSnow, responder] at read
  split_ifs at read with short fits
  cases read
  exact ⟨fits, rfl, by rw [responder]⟩

theorem readMessage_reply {hs' : BoundParty} {payload message : Bytes} (initiator : hs.initiator = true)
    (read : boundSnow.readMessage hs message = some (hs', payload)) :
    (message.drop 64).take (bound hs.transcript).length = bound hs.transcript ∧
      payload = (message.drop 64).drop (bound hs.transcript).length ∧
      hs' = { hs with ephemeral := message.take 32, remoteStatic := some ((message.drop 32).take 32) } := by
  simp only [boundSnow, initiator] at read
  split_ifs at read with short repeats
  cases read
  exact ⟨repeats, rfl, by rw [initiator]⟩

theorem respond_bound
    (answered : respond boundSnow testCodec cipher key cert index body time entropy =
      .ok (details, reply, keys)) :
    IsEphemeral entropy ∧ body.length ≤ 65535 ∧
      (∃ read, testCodec.decode (body.drop 64) = some read ∧ read.details = some details) ∧
      reply.take 32 = entropy ∧
      reply.drop 64 = bound body ++ testCodec.encode (closing cert details.initiatorIndex index time) ∧
      keys.sendKey = splitKey (flipped entropy) ∧ keys.recvKey = splitKey entropy := by
  obtain ⟨hs₀, built, answered⟩ := bind_eq_ok.mp answered
  cases okOr_eq_ok built
  obtain ⟨⟨hs₁, payload⟩, read, answered⟩ := bind_eq_ok.mp answered
  obtain ⟨fits, rfl, rfl⟩ := readMessage_opening rfl (okOr_eq_ok read)
  obtain ⟨their, extracted, answered⟩ := bind_eq_ok.mp answered
  dsimp only at answered
  split at answered
  · cases answered
  obtain ⟨⟨hs₂, message⟩, wrote, answered⟩ := bind_eq_ok.mp answered
  obtain ⟨ephemeral, rfl, rfl⟩ := writeMessage_reply rfl (okOr_eq_ok wrote)
  obtain ⟨keys', split, answered⟩ := bind_eq_ok.mp answered
  cases answered
  have size := length_publicKey false key
  refine ⟨ephemeral, fits, decodeDetailsOf_spec extracted, ?_, ?_, ?_⟩
  · rw [List.append_assoc]
    exact List.take_left' ephemeral.1
  · exact List.drop_left' (by rw [List.length_append, size, ephemeral.1])
  · exact Prod.mk.inj (splitKeys_spec split).2

theorem finishInitiator_bound (initiator : hs.initiator = true)
    (finished : finishInitiator boundSnow testCodec hs reply = .ok (details, keys)) :
    (reply.drop 64).take (bound hs.transcript).length = bound hs.transcript ∧
      (∃ read, testCodec.decode ((reply.drop 64).drop (bound hs.transcript).length) = some read ∧
        read.details = some details) ∧
      keys.sendKey = splitKey (reply.take 32) ∧ keys.recvKey = splitKey (flipped (reply.take 32)) := by
  obtain ⟨⟨hs₁, payload⟩, read, finished⟩ := bind_eq_ok.mp finished
  obtain ⟨repeats, rfl, rfl⟩ := readMessage_reply initiator (okOr_eq_ok read)
  obtain ⟨their, extracted, finished⟩ := bind_eq_ok.mp finished
  dsimp only at finished
  split at finished
  · cases finished
  obtain ⟨keys', split, finished⟩ := bind_eq_ok.mp finished
  cases finished
  have halves := (splitKeys_spec split).2.trans (if_pos initiator)
  exact ⟨repeats, decodeDetailsOf_spec extracted, Prod.mk.inj halves⟩

/-- A reply that repeats a message repeats no other. -/
theorem bound_inj {first second rest rest' : Bytes} (fits : first.length ≤ 65535) (fits' : second.length ≤ 65535)
    (same : bound first ++ rest = bound second ++ rest') : first = second ∧ rest = rest' := by
  unfold bound at same
  rw [List.append_assoc, List.append_assoc] at same
  obtain ⟨lengths, others⟩ := List.append_inj same (by simp)
  have equal := congrArg beNat lengths
  rw [beNat_beBytes _ _ (by omega), beNat_beBytes _ _ (by omega)] at equal
  exact List.append_inj others equal

theorem splitKey_inj {first second : Bytes} (size : first.length = 32) (size' : second.length = 32)
    (same : splitKey first = splitKey second) : first = second := by
  unfold splitKey at same
  rw [dif_pos size, dif_pos size'] at same
  exact congrArg Arr.items same

theorem flipped_injective : Function.Injective flipped := by
  apply List.map_injective_iff.mpr
  intro b b' same
  exact (UInt8.add_left_inj 128).mp same

/-- The first byte of a draw tells it from the flipped ones. -/
theorem IsEphemeral.ne_flipped {first second : Bytes} (drawn : IsEphemeral first) (other : IsEphemeral second) :
    first ≠ flipped second := by
  rintro rfl
  obtain ⟨-, low⟩ := drawn
  obtain ⟨-, low'⟩ := other
  cases second with
  | nil => exact absurd low' (by decide)
  | cons b rest =>
    change b + 128 < 128 at low
    change b < 128 at low'
    rw [UInt8.lt_iff_toNat_lt, UInt8.toNat_add] at low
    rw [UInt8.lt_iff_toNat_lt] at low'
    have top : (128 : UInt8).toNat = 128 := rfl
    omega

end Bound

/-- Handshakes on this network are as they should be, whoever makes them. -/
theorem boundNetwork_ideal {built : Side → BuiltSession} {h : History BoundParty}
    (calls : h.Calls boundNetwork built) : h.Ideal boundNetwork built where
  reads o opened a answered asked := by
    obtain ⟨-, -, -, -, payload⟩ := stage0_bound (calls.opened o opened)
    obtain ⟨-, -, ⟨read, decoded, named⟩, -⟩ := respond_bound (calls.answered a answered)
    rw [asked, payload] at decoded
    rw [testCodec_reads decoded] at named
    exact (Option.some.inj named).symm
  finishes o opened a answered theirs mine completed := by
    obtain ⟨-, fits, initiator, transcript, -⟩ := stage0_bound (calls.opened o opened)
    obtain ⟨-, fits', -, drawn, rest, sends, receives⟩ := respond_bound (calls.answered a answered)
    obtain ⟨repeats, ⟨read, decoded, named⟩, sends', receives'⟩ := finishInitiator_bound initiator completed
    rw [transcript] at repeats decoded
    rw [drawn] at sends' receives'
    rw [rest] at repeats decoded
    obtain ⟨same, payload⟩ := bound_inj fits' fits
      (calc
        _ = _ := (List.take_append_drop _ _).symm
        _ = _ := congrArg (· ++ _) repeats)
    rw [← payload] at decoded
    rw [testCodec_reads decoded] at named
    exact ⟨same, (Option.some.inj named).symm, sends'.trans receives.symm, receives'.trans sends.symm⟩
  fresh a answered a' answered' apart := by
    obtain ⟨drawn, -, -, -, -, sends, receives⟩ := respond_bound (calls.answered a answered)
    obtain ⟨drawn', -, -, -, -, sends', receives'⟩ := respond_bound (calls.answered a' answered')
    unfold SplitKeys.both
    rw [sends, receives, sends', receives']
    have size := drawn.1
    have size' := drawn'.1
    have flippedSize : (flipped _).length = 32 := (List.length_map _).trans size
    have flippedSize' : (flipped _).length = 32 := (List.length_map _).trans size'
    intro key mine theirs
    simp only [List.mem_cons, List.not_mem_nil, or_false] at mine theirs
    rcases mine with rfl | rfl <;> rcases theirs with same | same
    · exact apart (flipped_injective (splitKey_inj flippedSize flippedSize' same))
    · exact drawn'.ne_flipped drawn (splitKey_inj flippedSize size' same).symm
    · exact drawn.ne_flipped drawn' (splitKey_inj size flippedSize' same)
    · exact apart (splitKey_inj size size' same)

def builtA : BuiltSession where
  caCert := ca
  hostCert := hostA
  hostPrivateKey := keyA
  cipher := .aesGcm
  vpnAddr := vpn 1
  lighthouses := []
  staticHosts := []
  decoded := ⟨hostA.encode, by decide +kernel⟩
  first := by decide

def builtB : BuiltSession where
  caCert := ca
  hostCert := hostB
  hostPrivateKey := keyB
  cipher := .aesGcm
  vpnAddr := vpn 2
  lighthouses := []
  staticHosts := []
  decoded := ⟨hostB.encode, by decide +kernel⟩
  first := by decide

def hosts : Side → BuiltSession
  | .left => builtA
  | .right => builtB

/-- Host A opens a tunnel, and its message arrives at host B once more after the reply. -/
def copiedRun : List PairEvent :=
  [.act .left (.openHandshake (vpn 2) (endpoint 2) 0 (ambient 1)) rfl, .deliver .right 0 (endpoint 1) (ambient 2),
    .deliver .left 0 (endpoint 2) (ambient 3), .deliver .right 0 (endpoint 1) (ambient 4)]

def afterCopy : Pair boundNetwork := (pair boundNetwork).exec (.start boundNetwork hosts) copiedRun

/-- Host A's tunnel. -/
def tunnelA : Peer :=
  let drawn := (ambient 2).entropy
  let keys : SplitKeys := ⟨hostB.publicKey, splitKey drawn, splitKey (flipped drawn)⟩
  tunnelOf .aesGcm keys (endpoint 2) (vpn 2) hostB indexB

/-- Host B's tunnel for the answer it gave when it drew this. -/
def tunnelB (drawn : Bytes) : Peer :=
  let keys : SplitKeys := ⟨hostA.publicKey, splitKey (flipped drawn), splitKey drawn⟩
  tunnelOf .aesGcm keys (endpoint 1) (vpn 1) hostA indexA

theorem session_afterCopy :
    (afterCopy.session .left).peersByIndex.get indexA = some (.established tunnelA) ∧
      (afterCopy.session .right).peersByIndex.get indexB = some (.established (tunnelB (ambient 2).entropy)) ∧
      (afterCopy.session .right).peersByIndex.get (randIndex 4) =
        some (.established (tunnelB (ambient 4).entropy)) := by
  decide +kernel

/-- The reply to host A's message turned its pending handshake into the tunnel. -/
theorem copiedRun_created : CreatedAsInitiator boundNetwork hosts copiedRun .left indexA := by
  refine ⟨copiedRun.take 2, .deliver .left 0 (endpoint 2) (ambient 3), copiedRun.drop 3,
    { newBoundParty true keyA with transcript := stage0Datagram.drop Header.len }, tunnelA, rfl, ?_, ?_⟩
  · decide +kernel
  · decide +kernel

end TestNetwork

open TestNetwork in
/-- Host B has the other end of host A's tunnel, and the copy of the message got keys of its own. -/
theorem opened_tunnel_agrees :
    (afterCopy.session .left).peersByIndex.get indexA = some (.established tunnelA) ∧
      (∃ other, (afterCopy.session .right).peersByIndex.get tunnelA.remoteIndex = some (.established other) ∧
        Mirrors indexA (vpn 1) tunnelA other) ∧
      (tunnelB (ambient 2).entropy).keys.Disjoint (tunnelB (ambient 4).entropy).keys := by
  have fresh : (copiedRun.filterMap PairEvent.entropy).Nodup := by decide +kernel
  obtain ⟨here, there, again⟩ := session_afterCopy
  have apart : indexB ≠ randIndex 4 := by decide +kernel
  have agree := tunnels_agree hosts copiedRun (boundNetwork_ideal (pairHandshakes_calls hosts copiedRun)) fresh
  exact ⟨here, agree.1 .left indexA tunnelA copiedRun_created here,
    agree.2 .right indexB (randIndex 4) _ _ apart there again⟩

end Nebula
