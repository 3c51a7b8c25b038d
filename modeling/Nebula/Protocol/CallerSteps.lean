import Nebula.Protocol.Callers

/-! # What one step can do to calls

`Movement` says once what any step can do to the calls on a session and to its two tables of senders: a
call is made, or goes on by itself; a call files a sender and the one that had its place hears of the
end of its own; or a datagram takes a sender out and tells its call. Everything about waiting follows.
-/

namespace Nebula

open Rust

variable {lib : Externals}

namespace Stage

/-- A sender of the call is filed for the addresses, and nothing has come through it. -/
def awaitsAddrs : Stage → Bool
  | .asking .nothing _ => true
  | _ => false

/-- A sender of the call is filed for the tunnel, and nothing has come through it. -/
def awaitsPeer : Stage → Bool
  | .awaiting .nothing => true
  | _ => false

def finished : Stage → Bool
  | .resolved _ => true
  | .returned _ => true
  | _ => false

/-- The call has heard of the end of its sender, and nothing else. -/
def cancelled : Stage → Bool
  | .asking .dropped _ => true
  | .awaiting .dropped => true
  | _ => false

/-- The call has been told that the tunnel is there, or has already returned so. -/
def signalled : Stage → Bool
  | .awaiting (.value ()) => true
  | .returned (.ok ()) => true
  | _ => false

/-- A call waits for addresses, or for a tunnel, or it does not wait and then it hears nothing. -/
theorem waiting_cases (stage : Stage) :
    (∃ lighthouses, stage = .asking .nothing lighthouses) ∨ stage = .awaiting .nothing ∨
      (stage.awaitsAddrs = false ∧ stage.awaitsPeer = false ∧ ∀ effect, stage.hear effect = stage) := by
  rcases stage with _ | _ | ⟨_ | _ | _, lighthouses⟩ | _ | ⟨_ | _ | _⟩ | _ | _
  case asking.nothing => exact .inl ⟨lighthouses, rfl⟩
  case awaiting.nothing => exact .inr (.inl rfl)
  all_goals exact .inr (.inr ⟨rfl, rfl, fun _ => rfl⟩)

theorem awaitsAddrs_iff {stage : Stage} :
    stage.awaitsAddrs = true ↔ ∃ lighthouses, stage = .asking .nothing lighthouses := by
  constructor
  · intro waits
    rcases stage.waiting_cases with found | rfl | ⟨addrs, -⟩
    · exact found
    · cases waits
    · cases addrs.symm.trans waits
  · rintro ⟨lighthouses, rfl⟩
    rfl

theorem awaitsPeer_iff {stage : Stage} : stage.awaitsPeer = true ↔ stage = .awaiting .nothing := by
  constructor
  · intro waits
    rcases stage.waiting_cases with ⟨lighthouses, rfl⟩ | found | ⟨-, peer, -⟩
    · cases waits
    · exact found
    · cases peer.symm.trans waits
  · rintro rfl
    rfl

@[simp] theorem awaitsAddrs_hear_cancel (stage : Stage) (i : WaiterId) :
    (stage.hear (.cancel i)).awaitsAddrs = false := by
  rcases stage.waiting_cases with ⟨lighthouses, rfl⟩ | rfl | ⟨addrs, -, deaf⟩
  · rfl
  · rfl
  · rw [deaf, addrs]

@[simp] theorem awaitsPeer_hear_cancel (stage : Stage) (i : WaiterId) :
    (stage.hear (.cancel i)).awaitsPeer = false := by
  rcases stage.waiting_cases with ⟨lighthouses, rfl⟩ | rfl | ⟨-, peer, deaf⟩
  · rfl
  · rfl
  · rw [deaf, peer]

@[simp] theorem awaitsAddrs_hear_answer (stage : Stage) (i : WaiterId) (addrs : List SocketAddr) :
    (stage.hear (.answer i addrs)).awaitsAddrs = false := by
  rcases stage.waiting_cases with ⟨lighthouses, rfl⟩ | rfl | ⟨addrs, -, deaf⟩
  · rfl
  · rfl
  · rw [deaf, addrs]

@[simp] theorem awaitsPeer_hear_wake (stage : Stage) (i : WaiterId) :
    (stage.hear (.wake i)).awaitsPeer = false := by
  rcases stage.waiting_cases with ⟨lighthouses, rfl⟩ | rfl | ⟨-, peer, deaf⟩
  · rfl
  · rfl
  · rw [deaf, peer]

@[simp] theorem cancelled_hear_answer (stage : Stage) (i : WaiterId) (addrs : List SocketAddr) :
    (stage.hear (.answer i addrs)).cancelled = stage.cancelled := by
  rcases stage.waiting_cases with ⟨lighthouses, rfl⟩ | rfl | ⟨-, -, deaf⟩
  · rfl
  · rfl
  · rw [deaf]

@[simp] theorem cancelled_hear_wake (stage : Stage) (i : WaiterId) :
    (stage.hear (.wake i)).cancelled = stage.cancelled := by
  rcases stage.waiting_cases with ⟨lighthouses, rfl⟩ | rfl | ⟨-, -, deaf⟩
  · rfl
  · rfl
  · rw [deaf]

theorem not_cancelled {stage : Stage} (waits : stage.awaitsAddrs = true ∨ stage.awaitsPeer = true) :
    stage.cancelled = false := by
  rcases waits with addrs | peer
  · obtain ⟨lighthouses, rfl⟩ := awaitsAddrs_iff.mp addrs
    rfl
  · obtain rfl := awaitsPeer_iff.mp peer
    rfl

theorem signalled_hear {stage : Stage} (told : stage.signalled = true) (effect : Effect) :
    (stage.hear effect).signalled = true := by
  rcases stage.waiting_cases with ⟨lighthouses, rfl⟩ | rfl | ⟨-, -, deaf⟩
  · cases told
  · cases told
  · rw [deaf, told]

theorem hear_wake {stage : Stage} (waits : stage.awaitsPeer = true) (i : WaiterId) :
    stage.hear (.wake i) = .awaiting (.value ()) := by
  rw [awaitsPeer_iff.mp waits]
  rfl

theorem hear_answer {stage : Stage} (waits : stage.awaitsAddrs = true) (i : WaiterId) (addrs : List SocketAddr) :
    ∃ asked, stage.hear (.answer i addrs) = .asking (.value addrs) asked := by
  obtain ⟨lighthouses, rfl⟩ := awaitsAddrs_iff.mp waits
  exact ⟨lighthouses, rfl⟩

theorem hear_finished {stage : Stage} (ended : stage.finished = true) (effect : Effect) :
    stage.hear effect = stage := by
  rcases stage.waiting_cases with ⟨lighthouses, rfl⟩ | rfl | ⟨-, -, deaf⟩
  · cases ended
  · cases ended
  · exact deaf effect

/-- Nothing that is heard makes a call wait. -/
theorem awaitsAddrs_of_hear {stage : Stage} {effect : Effect} (waits : (stage.hear effect).awaitsAddrs = true) :
    stage.awaitsAddrs = true := by
  rcases stage.waiting_cases with ⟨lighthouses, rfl⟩ | rfl | ⟨-, -, deaf⟩
  · rfl
  · cases effect <;> cases waits
  · rwa [deaf] at waits

theorem awaitsPeer_of_hear {stage : Stage} {effect : Effect} (waits : (stage.hear effect).awaitsPeer = true) :
    stage.awaitsPeer = true := by
  rcases stage.waiting_cases with ⟨lighthouses, rfl⟩ | rfl | ⟨-, -, deaf⟩
  · cases effect <;> cases waits
  · rfl
  · rwa [deaf] at waits

theorem not_peer_of_addrs (stage : Stage) (waits : stage.awaitsAddrs = true) :
    ¬ (stage.awaitsPeer = true ∨ stage.finished = true) := by
  obtain ⟨lighthouses, rfl⟩ := awaitsAddrs_iff.mp waits
  simp [awaitsPeer, finished]

theorem not_addrs_of_peer (stage : Stage) (waits : stage.awaitsPeer = true) :
    ¬ (stage.awaitsAddrs = true ∨ stage.finished = true) := by
  obtain rfl := awaitsPeer_iff.mp waits
  simp [awaitsAddrs, finished]

end Stage

/-- The call whose sender is `filed` hears of an effect. -/
def tells (tell : WaiterId → Effect) (filed : Option WaiterId) (k : ℕ) (caller : Caller) : Stage :=
  if filed = some k then caller.stage.hear (tell k) else caller.stage

/-! ## Sections that reach a call -/

/-- The tables of senders. -/
def Inner.waiters {H : Type} (inner : Inner H) : HashMap IpAddr WaiterId × HashMap IpAddr WaiterId :=
  (inner.lighthouseWaiters, inner.connected)

section Datagrams

variable (inner : lib.Inner) (datagram : Bytes) (source : SocketAddr) (ambient : Ambient)

variable (lib) in
/-- The datagram is the reply that completes a pending handshake of ours, with the peer at `v`. -/
def CompletesAsInitiator (inner : lib.Inner) (datagram : Bytes) (ambient : Ambient) (v : IpAddr) : Prop :=
  ∃ hdr hs details keys cert, Header.parse datagram = .ok hdr ∧ hdr.type_ = Header.handshake ∧
    hdr.remoteIndex ≠ 0 ∧ inner.peersByIndex.get hdr.remoteIndex = some (.handshaking hs) ∧
    finishInitiator lib.snow lib.handshakeCodec hs (datagram.drop Header.len) = .ok (details, keys) ∧
    admitCert lib inner details keys ambient.nowUnix = some (cert, v)

variable {inner datagram ambient} in
/-- A completed handshake takes out the sender at the peer's address and wakes its call. -/
theorem handleDatagram_completes {v : IpAddr} (completes : CompletesAsInitiator lib inner datagram ambient v) :
    (handleDatagram lib inner datagram source ambient).1.waiters =
        (inner.lighthouseWaiters, inner.connected.remove v) ∧
      (handleDatagram lib inner datagram source ambient).2 = (inner.connected.get v).toList.map Effect.wake := by
  obtain ⟨hdr, hs, details, keys, cert, parsed, handshake, ours, pending, finished, admitted⟩ := completes
  rw [handleDatagram_reply parsed handshake ours]
  simp only [handleStage2, pending, finished]
  change admitCert lib { inner with peersByIndex := inner.peersByIndex.remove hdr.remoteIndex } details keys
    ambient.nowUnix = some (cert, v) at admitted
  simp only [admitted, establish]
  rcases waiting : inner.connected.get v with _ | waiter
  · simp [Inner.waiters, HashMap.remove_of_absent _ waiting]
  · simp [Inner.waiters]

theorem waiters_openPacket (hdr : Header) (headerBytes body : Bytes) :
    (openPacket lib inner hdr headerBytes body).1.waiters = inner.waiters := by
  rcases openPacket_spec inner hdr headerBytes body with same | ⟨peer, peer', opened, -, -, same, -⟩ <;> rw [same]
  rfl

theorem waiters_sendTyped (v : IpAddr) (type_ : UInt8) (payload : Bytes) :
    (sendTyped lib inner v type_ payload).1.waiters = inner.waiters := by
  rcases sendTyped_cases inner v type_ payload with same | ⟨index, peer, peer', -, same⟩ <;> rw [same]
  rfl

variable (lib) in
/-- The datagram says inside a tunnel where the host at `v` can be reached. -/
def AnswersFor (inner : lib.Inner) (datagram : Bytes) (v : IpAddr) (addrs : List SocketAddr) : Prop :=
  ∃ hdr peer bytes message first rest, LighthouseTraffic lib inner datagram hdr peer bytes ∧
    lib.metaCodec.decode bytes = some message ∧ Announces message v first rest ∧ addrs = first :: rest

variable {inner datagram} in
/-- An answer takes out the sender at the address it is for and hands its call the addresses. -/
theorem handleDatagram_answers {v : IpAddr} {addrs : List SocketAddr}
    (answers : AnswersFor lib inner datagram v addrs) :
    (handleDatagram lib inner datagram source ambient).1.waiters =
        (inner.lighthouseWaiters.remove v, inner.connected) ∧
      (handleDatagram lib inner datagram source ambient).2 =
        (inner.lighthouseWaiters.get v).toList.map (Effect.answer · addrs) := by
  obtain ⟨hdr, peer, bytes, message, first, rest, traffic, decoded, announces, rfl⟩ := answers
  rw [handleDatagram_lighthouse traffic, handleLighthouse_announced decoded announces]
  have unopened := waiters_openPacket inner hdr (datagram.take Header.len) (datagram.drop Header.len)
  obtain ⟨lighthouseWaiters, connected⟩ := Prod.mk.inj unopened
  simp only [Inner.waiters, lighthouseWaiters, connected, and_self]

/-- The effects reach no call, and the tables of senders are as they were. -/
def Silent (inner : lib.Inner) (outcome : lib.Inner × List Effect) : Prop :=
  outcome.1.waiters = inner.waiters ∧ ∀ effect ∈ outcome.2, effect.waiter = none

variable {inner datagram ambient} in
theorem silent_or_completes {hdr : Header} (parsed : Header.parse datagram = .ok hdr)
    (handshake : hdr.type_ = Header.handshake) :
    Silent inner (handleHandshake lib inner hdr (datagram.drop Header.len) source ambient) ∨
      ∃ v, CompletesAsInitiator lib inner datagram ambient v := by
  unfold handleHandshake
  split_ifs with fresh
  · left
    unfold handleStage0
    repeat' split
    all_goals exact ⟨rfl, by simp [Effect.waiter]⟩
  · rcases pending : inner.peersByIndex.get hdr.remoteIndex with _ | ⟨hs⟩ | ⟨peer⟩
    · rw [handleStage2_not_pending (by simp [pending])]
      exact .inl ⟨rfl, by simp⟩
    · rcases finished : finishInitiator lib.snow lib.handshakeCodec hs (datagram.drop Header.len) with
        failure | ⟨details, keys⟩
      · rw [handleStage2_rejected pending (by simp [finished])]
        exact .inl ⟨rfl, by simp⟩
      · rcases admitted : admitCert lib inner details keys ambient.nowUnix with _ | ⟨cert, v⟩
        · change admitCert lib { inner with peersByIndex := inner.peersByIndex.remove hdr.remoteIndex } details
            keys ambient.nowUnix = none at admitted
          exact .inl (by simp [handleStage2, pending, finished, admitted, Silent, Inner.waiters])
        · exact .inr ⟨v, hdr, hs, details, keys, cert, parsed, handshake, fresh, pending, finished, admitted⟩
    · rw [handleStage2_not_pending (by simp [pending])]
      exact .inl ⟨rfl, by simp⟩

/-- A datagram reaches no call, or it is an answer or the completion of a handshake. -/
theorem handleDatagram_waiters :
    Silent inner (handleDatagram lib inner datagram source ambient) ∨
      (∃ v addrs, AnswersFor lib inner datagram v addrs) ∨
      ∃ v, CompletesAsInitiator lib inner datagram ambient v := by
  unfold handleDatagram
  split
  · exact .inl ⟨rfl, by simp⟩
  next hdr parsed =>
    have unopened := waiters_openPacket inner hdr (datagram.take Header.len) (datagram.drop Header.len)
    dsimp only
    split_ifs with handshake message lighthouse
    · exact (silent_or_completes source parsed handshake).imp_right .inr
    · unfold handleMessage
      split
      all_goals
        next opened =>
          rw [opened] at unopened
          exact .inl ⟨unopened, by simp⟩
    · unfold handleLighthousePacket
      split
      next next peer bytes opened =>
        by_cases announced : ∃ message v first rest, lib.metaCodec.decode bytes = some message ∧
            Announces message v first rest
        · obtain ⟨message, v, first, rest, decoded, announces⟩ := announced
          exact .inr (.inl ⟨v, first :: rest, hdr, peer, bytes, message, first, rest,
            ⟨parsed, lighthouse, by rw [opened]⟩, decoded, announces, rfl⟩)
        · rw [opened] at unopened
          rw [handleLighthouse_other next fun message v first rest decoded announces =>
            announced ⟨message, v, first, rest, decoded, announces⟩]
          exact .inl ⟨unopened, by simp⟩
      next next opened =>
        rw [opened] at unopened
        exact .inl ⟨unopened, by simp⟩
    · exact .inl ⟨rfl, by simp⟩

end Datagrams

/-! ## Every step -/

/-- A stage that a call comes to by itself, without having heard anything new. -/
structure Quiet (before after : Stage) : Prop where
  addrs : after.awaitsAddrs → before.awaitsAddrs
  peer : after.awaitsPeer → before.awaitsPeer
  addrsKept : before.awaitsAddrs ∨ before.finished → after.awaitsAddrs ∨ after.finished
  peerKept : before.awaitsPeer ∨ before.finished → after.awaitsPeer ∨ after.finished
  cancelled : after.cancelled → before.cancelled
  signalled : before.signalled → after.signalled

theorem Quiet.refl (stage : Stage) : Quiet stage stage := ⟨id, id, id, id, id, id⟩

/-- A call that is over waits for nothing. -/
theorem quiet_finished {before after : Stage} (ended : after.finished = true)
    (told : before.signalled = true → after.signalled = true) : Quiet before after := by
  rcases after with _ | _ | _ | _ | _ | _ | _ <;> cases ended <;>
    exact ⟨by simp [Stage.awaitsAddrs], by simp [Stage.awaitsPeer], fun _ => .inr rfl, fun _ => .inr rfl,
      by simp [Stage.cancelled], told⟩

/-- The stages that begin or end a section of `resolve`, without a wait. -/
structure Idle (stage : Stage) : Prop where
  addrs : stage.awaitsAddrs = false
  peer : stage.awaitsPeer = false
  finished : stage.finished = false
  cancelled : stage.cancelled = false
  signalled : stage.signalled = false

theorem Idle.quiet {before after : Stage} (idle : Idle before) (idle' : Idle after) : Quiet before after where
  addrs := by simp [idle'.addrs]
  peer := by simp [idle'.peer]
  addrsKept := by simp [idle.addrs, idle.finished]
  peerKept := by simp [idle.peer, idle.finished]
  cancelled := by simp [idle'.cancelled]
  signalled := by simp [idle.signalled]

/-- `resolve` fails, or it ends with an address that has been heard of or was known. -/
theorem quiet_resume (caller : Caller) {before : Stage} (result : Res SocketAddr)
    (untold : before.signalled = false) (ended : Idle before ∨ ∃ failure, result = .error failure) :
    Quiet before (caller.resume result) := by
  unfold Caller.resume
  split_ifs with connects
  · rcases result with failure | remote
    · exact quiet_finished rfl (by simp [untold])
    · rcases ended with idle | ⟨failure, ⟨⟩⟩
      exact idle.quiet ⟨rfl, rfl, rfl, rfl, rfl⟩
  · exact quiet_finished rfl (by simp [untold])

/-- What a step can do to the calls and the tables of senders. -/
inductive Movement (state : Callers lib) (event : CallersEvent) (next : Callers lib) : Prop
  | called (connects : Bool) (vpnAddr : IpAddr) (tables : next.inner.waiters = state.inner.waiters)
      (grown : next.callers = state.callers ++ [⟨connects, vpnAddr, .begun⟩])
  | moved (after : ℕ → Caller → Stage) (tables : next.inner.waiters = state.inner.waiters)
      (pointwise : Pointwise after state.callers next.callers)
      (quiet : ∀ k caller, state.callers[k]? = some caller → Quiet caller.stage (after k caller))
  | filedAddrs (i : ℕ) (caller : Caller) (lighthouses : List IpAddr) (ambient : Ambient)
      (cause : event = .advance i ambient) (here : state.callers[i]? = some caller)
      (unknown : caller.stage = .unknown)
      (tables : next.inner.waiters =
        (state.inner.lighthouseWaiters.insert caller.vpnAddr i, state.inner.connected))
      (told : List Caller)
      (cancelled : Pointwise (tells Effect.cancel (state.inner.lighthouseWaiters.get caller.vpnAddr))
        state.callers told)
      (placed : next.callers = updateStage told i fun _ => .asking .nothing lighthouses)
  | filedPeer (i : ℕ) (caller : Caller) (remote : SocketAddr) (stage : Stage) (ambient : Ambient)
      (cause : event = .advance i ambient) (here : state.callers[i]? = some caller)
      (opening : caller.stage = .opening remote)
      (opened : stage = .awaiting .nothing ∨ ∃ failure, stage = .returned (.error failure))
      (tables : next.inner.waiters =
        (state.inner.lighthouseWaiters, state.inner.connected.insert caller.vpnAddr i))
      (told : List Caller)
      (cancelled : Pointwise (tells Effect.cancel (state.inner.connected.get caller.vpnAddr)) state.callers told)
      (placed : next.callers = updateStage told i fun _ => stage)
  | answered (v : IpAddr) (addrs : List SocketAddr)
      (tables : next.inner.waiters = (state.inner.lighthouseWaiters.remove v, state.inner.connected))
      (pointwise : Pointwise (tells (Effect.answer · addrs) (state.inner.lighthouseWaiters.get v))
        state.callers next.callers)
  | completed (v : IpAddr)
      (tables : next.inner.waiters = (state.inner.lighthouseWaiters, state.inner.connected.remove v))
      (pointwise : Pointwise (tells Effect.wake (state.inner.connected.get v)) state.callers next.callers)

section Step

variable {state : Callers lib} {event : CallersEvent}

theorem Movement.unmoved : Movement state event state :=
  .moved (fun _ caller => caller.stage) rfl (fun k => by simp) fun _ caller _ => .refl caller.stage

theorem movement_proceed {i : ℕ} {caller : Caller} (here : state.callers[i]? = some caller) {stage : Stage}
    {inner : lib.Inner} {effects : List Effect} (silent : Silent state.inner (inner, effects))
    (quiet : Quiet caller.stage stage) : Movement state event (state.proceed i stage inner effects).1 := by
  refine .moved (fun k caller => if i = k then stage else caller.stage) silent.1 ?_ ?_
  · rw [Callers.proceed, deliver_silent state.callers effects silent.2]
    exact pointwise_updateStage state.callers i fun _ => stage
  · intro k other there
    split
    · next same =>
      subst same
      obtain rfl := Option.some.inj (here.symm.trans there)
      exact quiet
    · exact .refl _

theorem movement_advance {i : ℕ} {caller : Caller} (here : state.callers[i]? = some caller) (ambient : Ambient) :
    Movement state (.advance i ambient) (advance lib state i caller ambient).1 := by
  have still : Silent state.inner (state.inner, []) := ⟨rfl, by simp⟩
  unfold advance
  dsimp only
  split
  · next begun =>
    have idle : Idle caller.stage := by
      rw [begun]
      exact ⟨rfl, rfl, rfl, rfl, rfl⟩
    split
    · exact movement_proceed here still (quiet_resume caller _ idle.signalled (.inl idle))
    · exact movement_proceed here still (idle.quiet ⟨rfl, rfl, rfl, rfl, rfl⟩)
  · next unknown =>
    exact .filedAddrs i caller state.inner.lighthouses ambient rfl here unknown rfl _
      (pointwise_deliver_filed state.callers _ Effect.cancel fun _ => rfl) rfl
  · next heard lighthouse rest asking =>
    have asked : Quiet caller.stage (.asking heard rest) := by
      rw [asking]
      rcases heard with _ | _ | _ <;> exact ⟨id, id, id, id, id, id⟩
    have sent := waiters_sendTyped state.inner lighthouse Header.lighthouse
      (lib.metaCodec.encode (Lighthouse.hostQuery caller.vpnAddr))
    split
    · next ran =>
      rw [ran] at sent
      exact movement_proceed here ⟨sent, by simp [Effect.waiter]⟩ asked
    · next ran =>
      rw [ran] at sent
      exact movement_proceed here ⟨sent, by simp⟩ asked
    · next cause ran =>
      rw [ran] at sent
      exact movement_proceed here ⟨sent, by simp⟩ (quiet_resume caller _ (by rw [asking]; rfl) (.inr ⟨_, rfl⟩))
  · next addrs heard =>
    have idle : Idle caller.stage := by
      rw [heard]
      exact ⟨rfl, rfl, rfl, rfl, rfl⟩
    exact movement_proceed here still (quiet_resume caller _ idle.signalled (.inl idle))
  · next dropped =>
    exact movement_proceed here still (quiet_resume caller _ (by rw [dropped]; rfl) (.inr ⟨_, rfl⟩))
  · next remote opening =>
    rcases openHandshake_cases state.inner caller.vpnAddr remote i ambient with
      busy | ⟨index, -, ⟨failure, -, ran⟩ | ⟨hs, msg, packet, -, ran⟩⟩
    · split
      · exact .unmoved
      · next ran => cases (congrArg (·.2.1) ran).symm.trans busy
      · next ran => cases (congrArg (·.2.1) ran).symm.trans busy
    · rw [ran]
      exact .filedPeer i caller remote _ ambient rfl here opening (.inr ⟨failure, rfl⟩) rfl _
        (pointwise_deliver_filed state.callers _ Effect.cancel fun _ => rfl) rfl
    · rw [ran]
      refine .filedPeer i caller remote _ ambient rfl here opening (.inl rfl) rfl _
        (pointwise_deliver_filed state.callers _ Effect.cancel fun _ => rfl) ?_
      dsimp only [Callers.proceed]
      rw [List.foldl_append]
      rfl
  · exact movement_proceed here still (quiet_finished rfl fun _ => rfl)
  · next dropped =>
    exact movement_proceed here still (quiet_finished rfl (by rw [dropped]; exact id))
  all_goals exact .unmoved

theorem quiet_timeOut (caller : Caller) : Quiet caller.stage caller.timeOut := by
  unfold Caller.timeOut
  split
  · next waits => exact quiet_resume caller _ (by rw [waits]; rfl) (.inr ⟨_, rfl⟩)
  · next waits => exact quiet_finished rfl (by rw [waits]; exact id)
  · exact .refl _

theorem Movement.silent {inner : lib.Inner} {effects : List Effect} (silent : Silent state.inner (inner, effects)) :
    Movement state event { inner, callers := effects.foldl deliver state.callers } := by
  refine .moved (fun _ caller => caller.stage) silent.1 ?_ fun _ caller _ => .refl caller.stage
  rw [deliver_silent _ _ silent.2]
  exact fun k => by simp

theorem movement_datagram (datagram : Bytes) (source : SocketAddr) (ambient : Ambient) :
    Movement state event { inner := (handleDatagram lib state.inner datagram source ambient).1
                           callers := (handleDatagram lib state.inner datagram source ambient).2.foldl deliver
                             state.callers } := by
  rcases handleDatagram_waiters state.inner datagram source ambient with
    silent | ⟨v, addrs, answers⟩ | ⟨v, completes⟩
  · exact .silent silent
  · obtain ⟨tables, effects⟩ := handleDatagram_answers source ambient answers
    refine .answered v addrs tables ?_
    rw [effects]
    exact pointwise_deliver_filed state.callers _ _ fun _ => rfl
  · obtain ⟨tables, effects⟩ := handleDatagram_completes source completes
    refine .completed v tables ?_
    rw [effects]
    exact pointwise_deliver_filed state.callers _ _ fun _ => rfl

theorem silent_sent (result : Res (Bytes × SocketAddr)) :
    ∀ effect ∈ (SessionOutput.sent result).effects, effect.waiter = none := by
  rcases result with _ | ⟨packet, dest⟩ <;> simp [SessionOutput.effects, Effect.waiter]

theorem movement_other (task : OtherTask) :
    Movement state (.other task) ((callers lib).step state (.other task)).1 := by
  cases task with
  | datagram datagram source ambient => exact movement_datagram datagram source ambient
  | sendTyped v type_ payload =>
    exact .silent ⟨waiters_sendTyped state.inner v type_ payload, silent_sent _⟩
  | peerInfo v => exact .unmoved
  | recv =>
    refine .silent ⟨?_, by simp [SessionOutput.effects]⟩
    change (recv lib state.inner).1.waiters = state.inner.waiters
    unfold recv
    split <;> rfl

theorem movement_step (state : Callers lib) (event : CallersEvent) :
    Movement state event ((callers lib).step state event).1 := by
  cases event with
  | call connects vpnAddr => exact .called connects vpnAddr rfl rfl
  | advance i ambient =>
    rcases here : state.callers[i]? with _ | caller
    · simp only [callers, here]
      exact .unmoved
    · simp only [callers, here]
      exact movement_advance here ambient
  | timeOut i =>
    refine .moved _ rfl (pointwise_updateStage state.callers i Caller.timeOut) ?_
    intro k caller here
    split
    · exact quiet_timeOut caller
    · exact .refl _
  | other task => exact movement_other task

end Step

/-! ## Calls run sections of the session -/

theorem inner_advance (state : Callers lib) (i : ℕ) (caller : Caller) (ambient : Ambient) :
    ∃ sections, (advance lib state i caller ambient).1.inner = (session lib).exec state.inner sections := by
  unfold advance
  dsimp only
  split
  · split <;> exact ⟨[], rfl⟩
  · exact ⟨[.awaitLighthouse caller.vpnAddr i], rfl⟩
  · next heard lighthouse rest asking =>
    refine ⟨[.sendTyped lighthouse Header.lighthouse
      (lib.metaCodec.encode (Lighthouse.hostQuery caller.vpnAddr))], ?_⟩
    split <;> next ran => exact (congrArg Prod.fst ran).symm
  · exact ⟨[], rfl⟩
  · exact ⟨[], rfl⟩
  · next remote opening =>
    split
    · exact ⟨[], rfl⟩
    · next ran => exact ⟨[.openHandshake caller.vpnAddr remote i ambient], (congrArg Prod.fst ran).symm⟩
    · next ran => exact ⟨[.openHandshake caller.vpnAddr remote i ambient], (congrArg Prod.fst ran).symm⟩
  all_goals exact ⟨[], rfl⟩

/-- The states that a session comes to with calls on it are states of its runs. -/
theorem inner_run (state : Callers lib) (events : List CallersEvent) :
    ∃ sections, ((callers lib).exec state events).inner = (session lib).exec state.inner sections := by
  induction events using List.reverseRecOn with
  | nil => exact ⟨[], rfl⟩
  | append_singleton events event ih =>
    obtain ⟨sections, same⟩ := ih
    rw [(callers lib).exec_concat]
    generalize (callers lib).exec state events = reached at same ⊢
    suffices stepped : ∃ more,
        ((callers lib).step reached event).1.inner = (session lib).exec reached.inner more by
      obtain ⟨more, stepped⟩ := stepped
      exact ⟨sections ++ more, by rw [stepped, same, (session lib).exec_append]⟩
    cases event with
    | call connects vpnAddr => exact ⟨[], rfl⟩
    | timeOut i => exact ⟨[], rfl⟩
    | other task => exact ⟨[task.event], rfl⟩
    | advance i ambient =>
      rcases here : reached.callers[i]? with _ | caller
      · exact ⟨[], by simp only [callers, here]; rfl⟩
      · simp only [callers, here]
        exact inner_advance reached i caller ambient

end Nebula
