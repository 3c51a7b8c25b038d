import Nebula.Protocol.CopiedHandshake
import Nebula.Protocol.FailedConnect
import Nebula.Protocol.FirstNetwork
import Nebula.Protocol.Waiters

/-! # What a successful `connect` is worth

`connect` returns once its sender is used, which only the reply that completes a handshake with its peer does. The
peer's address points to a tunnel from then on, so that no later `peer_info` comes back empty and no later send
finds the peer unreachable, whatever the session does meanwhile.
-/

namespace Nebula

open Rust Machine

variable {lib : Externals}

/-! ## Who has been told -/

/-- Call `k` has been told that its tunnel is there, or has returned so. -/
def ToldFor (callers : List Caller) (k : ℕ) (v : IpAddr) : Prop :=
  ∃ caller, callers[k]? = some caller ∧ caller.vpnAddr = v ∧ caller.stage.signalled = true

section Told

variable {callers next : List Caller} {k : ℕ} {v : IpAddr}

/-- Only a wake tells a call. -/
theorem signalled_of_hear {stage : Stage} {effect : Effect} (told : (stage.hear effect).signalled = true) :
    stage.signalled = true ∨ ∃ i, effect = .wake i := by
  rcases stage.waiting_cases with ⟨lighthouses, rfl⟩ | rfl | ⟨-, -, deaf⟩
  · cases effect <;> cases told
  · cases effect with
    | wake i => exact .inr ⟨i, rfl⟩
    | sendTo | answer | cancel => cases told
  · exact .inl (deaf effect ▸ told)

theorem ToldFor.of_pointwise {after : ℕ → Caller → Stage} (pointwise : Pointwise after callers next)
    (nothing : ∀ k caller, callers[k]? = some caller → (after k caller).signalled = true →
      caller.stage.signalled = true) (told : ToldFor next k v) : ToldFor callers k v := by
  obtain ⟨caller, here, vpnAddr, signalled⟩ := told
  obtain ⟨was, before, rfl⟩ := pointwise.of_get here
  exact ⟨was, before, vpnAddr, nothing k was before signalled⟩

/-- Effects that wake no one tell no one. -/
theorem ToldFor.of_deliver {effects : List Effect} (quiet : ∀ i, Effect.wake i ∉ effects)
    (told : ToldFor (effects.foldl deliver callers) k v) : ToldFor callers k v := by
  induction effects generalizing callers with
  | nil => exact told
  | cons effect rest ih =>
    have later := ih (fun i member => quiet i (List.mem_cons_of_mem _ member)) told
    unfold deliver at later
    split at later
    · exact later
    next i addressed =>
      refine later.of_pointwise (pointwise_updateStage callers i _) fun j caller here signalled => ?_
      split at signalled
      · rcases signalled_of_hear signalled with before | ⟨w, rfl⟩
        · exact before
        · exact absurd List.mem_cons_self (quiet w)
      · exact signalled

theorem ToldFor.of_proceed {state : Callers lib} {i : ℕ} {caller : Caller} (here : state.callers[i]? = some caller)
    {stage : Stage} {inner : lib.Inner} {effects : List Effect} (quiet : ∀ w, Effect.wake w ∉ effects)
    (untold : stage.signalled = true → caller.stage.signalled = true)
    (told : ToldFor (state.proceed i stage inner effects).1.callers k v) : ToldFor state.callers k v := by
  obtain ⟨other, now, vpnAddr, signalled⟩ := told
  obtain ⟨was, before, rfl⟩ := (pointwise_updateStage (effects.foldl deliver state.callers) i fun _ => stage).of_get now
  by_cases same : i = k
  · subst same
    obtain ⟨stage', there⟩ := get_deliver here effects
    obtain rfl := Option.some.inj (before.symm.trans there)
    rw [if_pos rfl] at signalled
    exact ⟨caller, here, vpnAddr, untold signalled⟩
  · rw [if_neg same] at signalled
    exact ToldFor.of_deliver quiet ⟨was, before, vpnAddr, signalled⟩

theorem not_signalled_resume (caller : Caller) (result : Res SocketAddr) :
    (caller.resume result).signalled ≠ true := by
  unfold Caller.resume
  split
  · cases result <;> exact nofun
  · exact nofun

theorem quiet_replaced (waiters : HashMap IpAddr WaiterId) (addr : IpAddr) (w : WaiterId) :
    Effect.wake w ∉ replaced waiters addr := by
  unfold replaced
  simp

end Told

/-! ## Every step -/

section Step

variable {state : Callers lib} {k : ℕ} {v : IpAddr}

/-- A call that goes on tells no other, and returns `Ok` only if it has been told. -/
theorem ToldFor.of_advance {i : ℕ} {caller : Caller} (here : state.callers[i]? = some caller) {ambient : Ambient}
    (told : ToldFor (advance lib state i caller ambient).1.callers k v) : ToldFor state.callers k v := by
  have silent (w : WaiterId) : Effect.wake w ∉ ([] : List Effect) := List.not_mem_nil
  unfold advance at told
  dsimp only at told
  split at told
  · split at told
    · exact told.of_proceed here silent fun signalled => absurd signalled (not_signalled_resume caller _)
    · exact told.of_proceed here silent fun signalled => by cases signalled
  · exact told.of_proceed here (quiet_replaced _ _) fun signalled => by cases signalled
  next heard lighthouse rest asking =>
    split at told
    · exact told.of_proceed here (by simp) fun signalled => by cases signalled
    · exact told.of_proceed here silent fun signalled => by cases signalled
    · exact told.of_proceed here silent fun signalled => absurd signalled (not_signalled_resume caller _)
  · exact told.of_proceed here silent fun signalled => absurd signalled (not_signalled_resume caller _)
  · exact told.of_proceed here silent fun signalled => absurd signalled (not_signalled_resume caller _)
  next remote opening =>
    rcases openHandshake_cases state.inner caller.vpnAddr remote i ambient with
      busy | ⟨index, -, ⟨failure, -, ran⟩ | ⟨hs, msg, packet, -, ran⟩⟩
    · split at told
      · exact told
      next ran => cases (congrArg (·.2.1) ran).symm.trans busy
      next ran => cases (congrArg (·.2.1) ran).symm.trans busy
    · rw [ran] at told
      exact told.of_proceed here (quiet_replaced _ _) fun signalled => by cases signalled
    · rw [ran] at told
      refine told.of_proceed here (fun w member => ?_) fun signalled => by cases signalled
      rcases List.mem_append.mp member with dropped | sent
      · exact quiet_replaced _ _ w dropped
      · simp at sent
  next woken => exact told.of_proceed here silent fun _ => by rw [woken]; rfl
  · exact told.of_proceed here silent fun signalled => by cases signalled
  all_goals exact told

theorem ToldFor.of_timeOut {i : ℕ} (told : ToldFor (updateStage state.callers i Caller.timeOut) k v) :
    ToldFor state.callers k v := by
  refine told.of_pointwise (pointwise_updateStage state.callers i Caller.timeOut) fun j caller here signalled => ?_
  split at signalled
  · unfold Caller.timeOut at signalled
    split at signalled
    · exact absurd signalled (not_signalled_resume caller _)
    · cases signalled
    · exact signalled
  · exact signalled

theorem indexed_of_completes {inner : lib.Inner} {datagram : Bytes} {ambient : Ambient} (source : SocketAddr)
    (completes : CompletesAsInitiator lib inner datagram ambient v) :
    ∃ i, (handleDatagram lib inner datagram source ambient).1.indexByVpnAddr.get v = some i := by
  obtain ⟨hdr, hs, details, keys, cert, parsed, handshake, ours, pending, finished, admitted⟩ := completes
  rw [handleDatagram_reply parsed handshake ours]
  simp only [handleStage2, pending, finished]
  change admitCert lib { inner with peersByIndex := inner.peersByIndex.remove hdr.remoteIndex } details keys
    ambient.nowUnix = some (cert, v) at admitted
  simp only [admitted, establish]
  refine ⟨hdr.remoteIndex, ?_⟩
  split
  · exact HashMap.get_insert_self _ _ _
  · exact HashMap.get_insert_self _ _ _

/-- A datagram tells a call only by completing a handshake with the call's peer. -/
theorem told_by_datagram (filed : WaitersFiled state) (datagram : Bytes) (source : SocketAddr) (ambient : Ambient)
    (told : ToldFor ((callers lib).step state (.other (.datagram datagram source ambient))).1.callers k v) :
    ToldFor state.callers k v ∨
      ∃ i, (handleDatagram lib state.inner datagram source ambient).1.indexByVpnAddr.get v = some i := by
  change ToldFor ((handleDatagram lib state.inner datagram source ambient).2.foldl deliver state.callers) k v at told
  rcases handleDatagram_waiters state.inner datagram source ambient with
    silent | ⟨w, addrs, answers⟩ | ⟨w, completes⟩
  · left
    refine told.of_deliver fun i member => ?_
    cases silent.2 _ member
  · left
    rw [(handleDatagram_answers source ambient answers).2] at told
    exact told.of_deliver (by simp)
  · rw [(handleDatagram_completes source completes).2] at told
    obtain ⟨caller, now, vpnAddr, signalled⟩ := told
    have pointwise := pointwise_deliver_filed state.callers (state.inner.connected.get w) Effect.wake fun _ => rfl
    obtain ⟨was, before, rfl⟩ := pointwise.of_get now
    dsimp only at vpnAddr signalled
    split at signalled
    next its =>
      obtain ⟨owner, there, address, -⟩ := filed.peer.owned w k its
      obtain rfl := Option.some.inj (before.symm.trans there)
      rw [← vpnAddr, address]
      exact .inr (indexed_of_completes source completes)
    · exact .inl ⟨was, before, vpnAddr, signalled⟩

/-- The addresses of the calls that have been told point to tunnels. -/
def ToldReached (state : Callers lib) : Prop :=
  ∀ k v, ToldFor state.callers k v → ∃ i, state.inner.indexByVpnAddr.get v = some i

theorem still_indexed_calls (state : Callers lib) (events : List CallersEvent) {i : UInt32}
    (was : state.inner.indexByVpnAddr.get v = some i) :
    ∃ i', ((callers lib).exec state events).inner.indexByVpnAddr.get v = some i' := by
  obtain ⟨sections, same⟩ := inner_run state events
  rw [same]
  exact still_indexed_run state.inner sections was

theorem ToldReached.step (reached : ToldReached state) (filed : WaitersFiled state) (event : CallersEvent) :
    ToldReached ((callers lib).step state event).1 := by
  intro k v told
  suffices before : ToldFor state.callers k v ∨
      ∃ i, ((callers lib).step state event).1.inner.indexByVpnAddr.get v = some i by
    rcases before with before | now
    · obtain ⟨i, was⟩ := reached k v before
      exact still_indexed_calls state [event] was
    · exact now
  cases event with
  | call connects vpnAddr =>
    left
    obtain ⟨caller, here, address, signalled⟩ := told
    have here : (state.callers ++ [⟨connects, vpnAddr, .begun⟩])[k]? = some caller := here
    rcases lt_or_ge k state.callers.length with old | new
    · rw [List.getElem?_append_left old] at here
      exact ⟨caller, here, address, signalled⟩
    · rw [List.getElem?_append_right new] at here
      obtain rfl := List.mem_singleton.mp (List.mem_of_getElem? here)
      cases signalled
  | advance i ambient =>
    left
    rcases here : state.callers[i]? with _ | caller
    · simp only [callers, here] at told
      exact told
    · simp only [callers, here] at told
      exact told.of_advance here
  | timeOut i => exact .inl told.of_timeOut
  | other task =>
    cases task with
    | datagram datagram source ambient => exact told_by_datagram filed datagram source ambient told
    | sendTyped w type_ payload =>
      left
      refine ToldFor.of_deliver (fun i member => ?_) told
      cases silent_sent _ _ member
    | peerInfo w => exact .inl told
    | recv => exact .inl told

end Step

section Run

variable (lib) in
/-- The address points to an established tunnel, for a certificate that the CA signed and whose first network has
this address; `peer_info` tells what it says, and no send finds the peer unreachable. -/
def WithinReach (inner : lib.Inner) (caCert : Certificate) (v : IpAddr) : Prop :=
  ∃ index peer nowUnix, inner.indexByVpnAddr.get v = some index ∧
    inner.peersByIndex.get index = some (.established peer) ∧ peer.cert.firstAddr = some v ∧
    verifyHostCert lib.crypto peer.cert caCert nowUnix = .ok () ∧
    peerInfo lib inner v = some (.of peer.cert) ∧
    ∀ type_ payload addr, (sendTyped lib inner v type_ payload).2 ≠ .error (.err (.peerUnreachable addr))

variable (caCert hostCert : Certificate) (hostPrivateKey : Key) (cipher : Cipher) (vpnAddr : IpAddr)
  (lighthouses : List IpAddr) (staticHosts : List (IpAddr × SocketAddr))

theorem toldReached_run (events : List CallersEvent) :
    ToldReached ((callers lib).exec
      ⟨.new caCert hostCert hostPrivateKey cipher vpnAddr lighthouses staticHosts, []⟩ events) := by
  refine ((callers lib).state_invariant (fun state => WaitersFiled state ∧ ToldReached state) ?_ ⟨?_, ?_⟩ events).2
  · rintro state event ⟨filed, reached⟩
    exact ⟨filed.step (movement_step state event), reached.step filed event⟩
  · exact waitersFiled_run lib caCert hostCert hostPrivateKey cipher vpnAddr lighthouses staticHosts []
  · rintro k v ⟨caller, here, -⟩
    cases here

/-- Where an address points to a tunnel while calls go on, it is within reach. -/
theorem withinReach_of_indexed (events : List CallersEvent) {v : IpAddr} {index : UInt32}
    (indexed : ((callers lib).exec
      ⟨.new caCert hostCert hostPrivateKey cipher vpnAddr lighthouses staticHosts, []⟩
      events).inner.indexByVpnAddr.get v = some index) :
    WithinReach lib ((callers lib).exec
      ⟨.new caCert hostCert hostPrivateKey cipher vpnAddr lighthouses staticHosts, []⟩ events).inner caCert v := by
  obtain ⟨sections, same⟩ := @inner_run lib
    ⟨.new caCert hostCert hostPrivateKey cipher vpnAddr lighthouses staticHosts, []⟩ events
  have sound := @sound_run lib caCert hostCert hostPrivateKey cipher vpnAddr lighthouses staticHosts sections
  dsimp only at sound same
  rw [← same] at sound
  obtain ⟨peer, here, rfl⟩ := sound.indexed v index indexed
  obtain ⟨_, _, ambient, _, _, admission⟩ := sound.established index peer here
  exact ⟨index, peer, ambient.nowUnix, indexed, here, admission.network, admission.verified,
    peerInfo_established indexed here, sendTyped_not_unreachable indexed here⟩

/-- A `connect` that has returned `Ok` leaves its peer within reach in every later state. -/
theorem connect_reaches (events more : List CallersEvent) (i : ℕ) (v : IpAddr)
    (returned : ((callers lib).exec
      ⟨.new caCert hostCert hostPrivateKey cipher vpnAddr lighthouses staticHosts, []⟩ events).callers[i]? =
        some ⟨true, v, .returned (.ok ())⟩) :
    WithinReach lib ((callers lib).exec
      ⟨.new caCert hostCert hostPrivateKey cipher vpnAddr lighthouses staticHosts, []⟩ (events ++ more)).inner
      caCert v := by
  obtain ⟨index, was⟩ := toldReached_run caCert hostCert hostPrivateKey cipher vpnAddr lighthouses staticHosts events
    i v ⟨_, returned, rfl, rfl⟩
  have still := still_indexed_calls _ more was
  rw [← (callers lib).exec_append] at still
  obtain ⟨index', indexed⟩ := still
  exact withinReach_of_indexed caCert hostCert hostPrivateKey cipher vpnAddr lighthouses staticHosts _ indexed

end Run

namespace TestNetwork

/-- Host A connects to host B. -/
def connectRun : List CallersEvent :=
  untilWaiting true 0 1 ++ [.other (.datagram stage2Datagram (endpoint 2) (ambient 3)), .advance 0 (ambient 4)]

def sendRun : List CallersEvent := [.other (.sendTyped (vpn 2) Header.message [1])]

end TestNetwork

open TestNetwork in
/-- Host A's call returns, and host A can reach host B after it has sent it a packet. -/
theorem connected_host_is_reached :
    WithinReach network ((callers network).exec (callersA [(vpn 2, endpoint 2)]) (connectRun ++ sendRun)).inner ca
      (vpn 2) := by
  have returned : ((callers network).exec (callersA [(vpn 2, endpoint 2)]) connectRun).callers[0]? =
      some ⟨true, vpn 2, .returned (.ok ())⟩ := by decide +kernel
  unfold callersA at returned ⊢
  exact connect_reaches ca hostA keyA .aesGcm (vpn 1) [] [(vpn 2, endpoint 2)] connectRun sendRun 0 (vpn 2) returned

end Nebula
