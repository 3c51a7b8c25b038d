import Nebula.Protocol.CallerSteps
import Mathlib.Logic.Relation

/-! # What a failed `connect` leaves behind

`connect` files a sender and a pending handshake before it can fail, and none of its failures takes them
out again. A failed call leaves the keys of the tables as they were exactly if it files no new one: the
address is not known and another call's sender stands at its place among those for the lighthouses, or it
is known, `stage0` fails, and another call's sender stands at its place among those for tunnels. A
handshake that gets no answer always leaves one more index in use.
-/

namespace Nebula

open Rust

variable {lib : Externals}

/-- The tables of pending and established tunnels and of senders have the same keys. -/
structure SameKeys {H : Type} (before after : Inner H) : Prop where
  peersByIndex : before.peersByIndex.SameKeys after.peersByIndex
  connected : before.connected.SameKeys after.connected
  lighthouseWaiters : before.lighthouseWaiters.SameKeys after.lighthouseWaiters

theorem SameKeys.refl {H : Type} (inner : Inner H) : SameKeys inner inner := ⟨.refl _, .refl _, .refl _⟩

theorem SameKeys.trans {H : Type} {first second third : Inner H} (one : SameKeys first second)
    (two : SameKeys second third) : SameKeys first third where
  peersByIndex := one.peersByIndex.trans two.peersByIndex
  connected := one.connected.trans two.connected
  lighthouseWaiters := one.lighthouseWaiters.trans two.lighthouseWaiters

/-! ## A call by itself -/

/-- The event is a step of call `i`, whose sections get the readings `ambient`, or a section of another task
that is neither a call nor the receive loop. -/
def Undisturbed (i : ℕ) (ambient : Ambient) : CallersEvent → Prop
  | .advance j readings => j = i ∧ readings = ambient
  | .timeOut j => j = i
  | .other (.datagram ..) => False
  | .other _ => True
  | .call .. => False

variable (lib) in
/-- A call `connect(v)` is made in `state`, is not disturbed until it returns an error, and leaves `next`. -/
def FailedConnect (state : Callers lib) (v : IpAddr) (ambient : Ambient) (next : Callers lib) : Prop :=
  ∃ events caller error, (∀ event ∈ events, Undisturbed state.callers.length ambient event) ∧
    next = (callers lib).exec state (.call true v :: events) ∧
    next.callers[state.callers.length]? = some caller ∧ caller.stage = .returned (.error (.err error))

variable (lib) in
/-- The `stage0` of the section of `connect` behind `resolve`. -/
abbrev stage0Of (inner : lib.Inner) (index : UInt32) (ambient : Ambient) :
    Res (lib.snow.HandshakeState × Bytes) :=
  stage0 lib.snow lib.handshakeCodec inner.cipher inner.hostPrivateKey inner.hostCert.encodeForHandshake index
    ambient.unixNanos ambient.entropy

variable (lib) in
/-- The call files nothing under a new key: it has to ask for the address where another call already does, or
it knows the address, its `stage0` fails, and another call waits for the tunnel. -/
def FilesNothingNew (inner : lib.Inner) (v : IpAddr) (ambient : Ambient) : Prop :=
  match inner.knownAddrs.get v with
  | none => inner.lighthouseWaiters.containsKey v = true
  | some _ => inner.connected.containsKey v = true ∧
      ∀ index, allocateIndex lib inner ambient.subsecNanos = some index →
        ∃ failure, stage0Of lib inner index ambient = .error failure

/-- The states differ in what is filed under their keys, in their inboxes and lists of lighthouses only. -/
structure Alike (before after : lib.Inner) : Prop where
  identity : after.identity = before.identity
  knownAddrs : after.knownAddrs = before.knownAddrs
  waiters : after.waiters = before.waiters
  peersByIndex : before.peersByIndex.SameKeys after.peersByIndex

theorem Alike.refl (inner : lib.Inner) : Alike inner inner := ⟨rfl, rfl, rfl, .refl _⟩

theorem Alike.trans {first second third : lib.Inner} (one : Alike first second) (two : Alike second third) :
    Alike first third where
  identity := two.identity.trans one.identity
  knownAddrs := two.knownAddrs.trans one.knownAddrs
  waiters := two.waiters.trans one.waiters
  peersByIndex := one.peersByIndex.trans two.peersByIndex

theorem alike_sendTyped (inner : lib.Inner) (v : IpAddr) (type_ : UInt8) (payload : Bytes) :
    Alike inner (sendTyped lib inner v type_ payload).1 := by
  rcases sendTyped_cases inner v type_ payload with same | ⟨index, peer, peer', was, same⟩ <;> rw [same]
  · exact .refl _
  · refine ⟨rfl, rfl, rfl, ?_⟩
    rw [HashMap.sameKeys_insert_iff]
    simp [HashMap.containsKey, was]

theorem alike_recv (inner : lib.Inner) : Alike inner (recv lib inner).1 := by
  unfold recv
  split <;> exact ⟨rfl, rfl, rfl, .refl _⟩

/-- Which index is free is a matter of the keys. -/
theorem Alike.allocateIndex {before after : lib.Inner} (alike : Alike before after) (readings : List UInt32) :
    Nebula.allocateIndex lib after readings = Nebula.allocateIndex lib before readings := by
  unfold Nebula.allocateIndex
  congr 1
  funext candidate
  rw [alike.peersByIndex candidate]

theorem Alike.stage0Of {before after : lib.Inner} (alike : Alike before after) (index : UInt32)
    (ambient : Ambient) : Nebula.stage0Of lib after index ambient = Nebula.stage0Of lib before index ambient := by
  have same := alike.identity
  simp only [Inner.identity, Prod.mk.injEq] at same
  obtain ⟨-, hostCert, hostPrivateKey, cipher⟩ := same
  rw [Nebula.stage0Of, hostCert, hostPrivateKey, cipher]

variable (lib) in
/-- How far an undisturbed call for `v` can be, and what it has made of the tables of `before` by then. -/
inductive Attempt (before : lib.Inner) (v : IpAddr) (i : ℕ) (ambient : Ambient) : Stage → lib.Inner → Prop
  | begun : Attempt before v i ambient .begun before
  | unknown (missing : before.knownAddrs.get v = none) : Attempt before v i ambient .unknown before
  | asking (missing : before.knownAddrs.get v = none) (lighthouses : List IpAddr) :
    Attempt before v i ambient (.asking .nothing lighthouses)
      { before with lighthouseWaiters := before.lighthouseWaiters.insert v i }
  | unresolved (missing : before.knownAddrs.get v = none) (failure : Failure Error) :
    Attempt before v i ambient (.returned (.error failure))
      { before with lighthouseWaiters := before.lighthouseWaiters.insert v i }
  | opening {remote : SocketAddr} (known : before.knownAddrs.get v = some remote) :
    Attempt before v i ambient (.opening remote) before
  | refused {remote : SocketAddr} {index : UInt32} {failure : Failure Error}
    (known : before.knownAddrs.get v = some remote)
    (allocated : allocateIndex lib before ambient.subsecNanos = some index)
    (failed : stage0Of lib before index ambient = .error failure) :
    Attempt before v i ambient (.returned (.error failure))
      { before with connected := before.connected.insert v i }
  | awaiting {remote : SocketAddr} {index : UInt32} {hs : lib.snow.HandshakeState} {msg : Bytes}
    (known : before.knownAddrs.get v = some remote)
    (allocated : allocateIndex lib before ambient.subsecNanos = some index)
    (opened : stage0Of lib before index ambient = .ok (hs, msg)) :
    Attempt before v i ambient (.awaiting .nothing)
      { before with
        connected := before.connected.insert v i
        peersByIndex := before.peersByIndex.insert index (.handshaking hs) }
  | timedOut {remote : SocketAddr} {index : UInt32} {hs : lib.snow.HandshakeState} {msg : Bytes}
    (known : before.knownAddrs.get v = some remote)
    (allocated : allocateIndex lib before ambient.subsecNanos = some index)
    (opened : stage0Of lib before index ambient = .ok (hs, msg)) :
    Attempt before v i ambient (.returned (.error (.err (.timeout "handshake"))))
      { before with
        connected := before.connected.insert v i
        peersByIndex := before.peersByIndex.insert index (.handshaking hs) }

variable (lib) in
/-- Call `i` is an undisturbed call of `connect(v)`. -/
def Attempting (before : lib.Inner) (v : IpAddr) (i : ℕ) (ambient : Ambient) (state : Callers lib) : Prop :=
  ∃ stage changed, state.callers[i]? = some ⟨true, v, stage⟩ ∧ Attempt lib before v i ambient stage changed ∧
    Alike changed state.inner

section Step

variable {before changed : lib.Inner} {v : IpAddr} {i : ℕ} {ambient : Ambient} {state : Callers lib}

theorem get_deliver {callers : List Caller} {caller : Caller} (here : callers[i]? = some caller)
    (effects : List Effect) :
    ∃ stage, (effects.foldl deliver callers)[i]? = some { caller with stage } := by
  induction effects generalizing callers caller with
  | nil => exact ⟨caller.stage, here⟩
  | cons effect rest ih =>
    rw [List.foldl_cons]
    unfold deliver
    split
    · exact ih here
    · next waiter addressed =>
      obtain ⟨stage, now⟩ := ih ((pointwise_updateStage callers waiter _).get here)
      exact ⟨stage, now⟩

theorem get_proceed {caller : Caller} (here : state.callers[i]? = some caller) (stage : Stage) (inner : lib.Inner)
    (effects : List Effect) :
    (state.proceed i stage inner effects).1.callers[i]? = some { caller with stage } := by
  obtain ⟨told, now⟩ := get_deliver here effects
  rw [Callers.proceed, (pointwise_updateStage _ i fun _ => stage).get now, if_pos rfl]

theorem attempting_proceed {was stage : Stage} {inner : lib.Inner} {effects : List Effect}
    (here : state.callers[i]? = some ⟨true, v, was⟩) (attempt : Attempt lib before v i ambient stage changed)
    (alike : Alike changed inner) :
    Attempting lib before v i ambient (state.proceed i stage inner effects).1 :=
  ⟨stage, changed, get_proceed here stage inner effects, attempt, alike⟩

theorem attempting_advance {stage : Stage} (here : state.callers[i]? = some ⟨true, v, stage⟩)
    (attempt : Attempt lib before v i ambient stage changed) (alike : Alike changed state.inner) :
    Attempting lib before v i ambient (advance lib state i ⟨true, v, stage⟩ ambient).1 := by
  unfold advance
  cases attempt with
  | begun =>
    dsimp only
    rw [alike.knownAddrs]
    split
    · next addr known => exact attempting_proceed here (.opening known) alike
    · next missing => exact attempting_proceed here (.unknown missing) alike
  | unknown missing =>
    refine attempting_proceed here (.asking missing state.inner.lighthouses) ?_
    obtain ⟨lighthouseWaiters, connected⟩ := Prod.mk.inj alike.waiters
    refine ⟨alike.identity, alike.knownAddrs, ?_, alike.peersByIndex⟩
    simp only [Inner.waiters, lighthouseWaiters, connected]
  | asking missing lighthouses =>
    cases lighthouses with
    | nil => exact ⟨_, _, here, .asking missing [], alike⟩
    | cons lighthouse rest =>
      dsimp only
      have sent := alike.trans (alike_sendTyped state.inner lighthouse Header.lighthouse
        (lib.metaCodec.encode (Lighthouse.hostQuery v)))
      split
      · next ran =>
        rw [ran] at sent
        exact attempting_proceed here (.asking missing rest) sent
      · next ran =>
        rw [ran] at sent
        exact attempting_proceed here (.asking missing rest) sent
      · next ran =>
        rw [ran] at sent
        exact attempting_proceed here (.unresolved missing _) sent
  | unresolved missing failure => exact ⟨_, _, here, .unresolved missing failure, alike⟩
  | @opening remote known =>
    dsimp only
    obtain ⟨lighthouseWaiters, connected⟩ := Prod.mk.inj alike.waiters
    rcases openHandshake_cases state.inner v remote i ambient with
      busy | ⟨index, allocated, ⟨failure, failed, ran⟩ | ⟨hs, msg, packet, opened, ran⟩⟩
    · split
      · exact ⟨_, _, here, .opening known, alike⟩
      · next ran => cases (congrArg (·.2.1) ran).symm.trans busy
      · next ran => cases (congrArg (·.2.1) ran).symm.trans busy
    · rw [ran]
      refine attempting_proceed here
        (.refused known ((alike.allocateIndex _).symm.trans allocated)
          ((alike.stage0Of index ambient).symm.trans failed)) ?_
      refine ⟨alike.identity, alike.knownAddrs, ?_, alike.peersByIndex⟩
      simp only [Inner.waiters, lighthouseWaiters, connected]
    · rw [ran]
      refine attempting_proceed here
        (.awaiting known ((alike.allocateIndex _).symm.trans allocated)
          ((alike.stage0Of index ambient).symm.trans opened)) ?_
      refine ⟨alike.identity, alike.knownAddrs, ?_, alike.peersByIndex.insert index _ _⟩
      simp only [Inner.waiters, lighthouseWaiters, connected]
  | refused known allocated failed => exact ⟨_, _, here, .refused known allocated failed, alike⟩
  | awaiting known allocated opened => exact ⟨_, _, here, .awaiting known allocated opened, alike⟩
  | timedOut known allocated opened => exact ⟨_, _, here, .timedOut known allocated opened, alike⟩

theorem attempt_timeOut {stage : Stage} (attempt : Attempt lib before v i ambient stage changed) :
    Attempt lib before v i ambient (Caller.timeOut ⟨true, v, stage⟩) changed := by
  cases attempt with
  | asking missing lighthouses =>
    cases lighthouses with
    | nil => exact .unresolved missing _
    | cons lighthouse rest => exact .asking missing (lighthouse :: rest)
  | awaiting known allocated opened => exact .timedOut known allocated opened
  | begun => exact .begun
  | unknown missing => exact .unknown missing
  | unresolved missing failure => exact .unresolved missing failure
  | opening known => exact .opening known
  | refused known allocated failed => exact .refused known allocated failed
  | timedOut known allocated opened => exact .timedOut known allocated opened

theorem attempting_other (attempting : Attempting lib before v i ambient state) (task : OtherTask)
    (apart : Undisturbed i ambient (.other task)) :
    Attempting lib before v i ambient ((callers lib).step state (.other task)).1 := by
  obtain ⟨stage, changed, here, attempt, alike⟩ := attempting
  cases task with
  | datagram => exact absurd apart id
  | sendTyped w type_ payload =>
    have silent := deliver_silent state.callers _ (silent_sent (sendTyped lib state.inner w type_ payload).2)
    exact ⟨stage, changed, (congrArg (·[i]?) silent).trans here, attempt,
      alike.trans (alike_sendTyped state.inner w type_ payload)⟩
  | peerInfo w => exact ⟨stage, changed, here, attempt, alike⟩
  | recv => exact ⟨stage, changed, here, attempt, alike.trans (alike_recv state.inner)⟩

theorem attempting_step (attempting : Attempting lib before v i ambient state) {event : CallersEvent}
    (apart : Undisturbed i ambient event) :
    Attempting lib before v i ambient ((callers lib).step state event).1 := by
  obtain ⟨stage, changed, here, attempt, alike⟩ := attempting
  cases event with
  | call => exact absurd apart id
  | advance j readings =>
    obtain ⟨rfl, rfl⟩ := apart
    simp only [callers, here]
    exact attempting_advance here attempt alike
  | timeOut j =>
    obtain rfl : j = i := apart
    refine ⟨_, changed, (pointwise_updateStage state.callers j Caller.timeOut).get here, ?_, alike⟩
    rw [if_pos rfl]
    exact attempt_timeOut attempt
  | other task => exact attempting_other ⟨stage, changed, here, attempt, alike⟩ task apart

theorem attempting_run {events : List CallersEvent} (attempting : Attempting lib before v i ambient state)
    (apart : ∀ event ∈ events, Undisturbed i ambient event) :
    Attempting lib before v i ambient ((callers lib).exec state events) := by
  refine (callers lib).invariant_of_allowed (Undisturbed i ambient) (Attempting lib before v i ambient) ?_
    attempting events apart
  intro state event apart attempting
  exact attempting_step attempting apart

end Step

/-! ## What failed calls leave -/

theorem Alike.sameKeys {before changed after : lib.Inner} (alike : Alike changed after) :
    SameKeys before after ↔ SameKeys before changed := by
  obtain ⟨lighthouseWaiters, connected⟩ := Prod.mk.inj alike.waiters
  constructor
  · intro same
    exact ⟨same.peersByIndex.trans alike.peersByIndex.symm, connected ▸ same.connected,
      lighthouseWaiters ▸ same.lighthouseWaiters⟩
  · intro same
    exact ⟨same.peersByIndex.trans alike.peersByIndex, connected ▸ same.connected,
      lighthouseWaiters ▸ same.lighthouseWaiters⟩

/-- The tables of a failed call have their keys exactly if it files nothing new. -/
theorem Attempt.sameKeys_iff {before changed : lib.Inner} {v : IpAddr} {i : ℕ} {ambient : Ambient} {error : Error}
    (attempt : Attempt lib before v i ambient (.returned (.error (.err error))) changed) :
    SameKeys before changed ↔ FilesNothingNew lib before v ambient := by
  unfold FilesNothingNew
  cases attempt with
  | unresolved missing =>
    simp only [missing]
    rw [← HashMap.sameKeys_insert_iff _ v i]
    exact ⟨fun same => same.lighthouseWaiters, fun same => ⟨.refl _, .refl _, same⟩⟩
  | refused known allocated failed =>
    simp only [known, allocated, Option.some.injEq, forall_eq']
    rw [← HashMap.sameKeys_insert_iff _ v i]
    exact ⟨fun same => ⟨same.connected, _, failed⟩, fun same => ⟨.refl _, same.1, .refl _⟩⟩
  | @timedOut _ index hs msg known allocated opened =>
    simp only [known, allocated, Option.some.injEq, forall_eq']
    refine iff_of_false ?_ ?_
    · intro same
      have present := (HashMap.sameKeys_insert_iff _ _ _).mp same.peersByIndex
      rw [HashMap.containsKey, (allocateIndex_spec allocated).2] at present
      cases present
    · rintro ⟨-, failure, failed⟩
      cases opened.symm.trans failed

theorem FailedConnect.attempt {state next : Callers lib} {v : IpAddr} {ambient : Ambient}
    (failed : FailedConnect lib state v ambient next) :
    ∃ error changed,
      Attempt lib state.inner v state.callers.length ambient (.returned (.error (.err error))) changed ∧
      Alike changed next.inner := by
  obtain ⟨events, caller, error, apart, rfl, here, returned⟩ := failed
  have made : Attempting lib state.inner v state.callers.length ambient
      ((callers lib).step state (.call true v)).1 :=
    ⟨.begun, state.inner, List.getElem?_concat_length, .begun, .refl _⟩
  obtain ⟨stage, changed, there, attempt, alike⟩ := attempting_run made apart
  obtain rfl := Option.some.inj (here.symm.trans there)
  cases returned
  exact ⟨error, changed, attempt, alike⟩

/-- A call `connect(v)` that fails with no datagram handled and no other call going on in between leaves the
keys of the three tables as they were exactly if it files nothing under a new key. Any number of failed
calls that each file nothing new leave them so. -/
theorem failed_connect_keeps_keys_iff (state : Callers lib) :
    (∀ v ambient next, FailedConnect lib state v ambient next →
      (SameKeys state.inner next.inner ↔ FilesNothingNew lib state.inner v ambient)) ∧
    ∀ next, Relation.ReflTransGen (fun before after => ∃ v ambient, FailedConnect lib before v ambient after ∧
        FilesNothingNew lib before.inner v ambient) state next →
      SameKeys state.inner next.inner := by
  have exactly {state next : Callers lib} {v : IpAddr} {ambient : Ambient}
      (failed : FailedConnect lib state v ambient next) :
      SameKeys state.inner next.inner ↔ FilesNothingNew lib state.inner v ambient := by
    obtain ⟨error, changed, attempt, alike⟩ := failed.attempt
    rw [alike.sameKeys, attempt.sameKeys_iff]
  refine ⟨fun v ambient next failed => exactly failed, ?_⟩
  intro next attempts
  induction attempts with
  | refl => exact .refl _
  | tail _ last ih =>
    obtain ⟨v, ambient, failed, nothingNew⟩ := last
    exact ih.trans ((exactly failed).mpr nothingNew)

/-! ## Calls that fail for want of an answer -/

namespace TestNetwork

/-- The sections of the next call for host B until it gives up. -/
def unanswered (state : Callers network) (nanos : UInt32) : List CallersEvent :=
  [.advance state.callers.length (ambient nanos), .advance state.callers.length (ambient nanos),
    .timeOut state.callers.length]

def afterUnanswered (state : Callers network) (nanos : UInt32) : Callers network :=
  (callers network).exec state (.call true (vpn 2) :: unanswered state nanos)

theorem failedConnect_unanswered {state : Callers network} {nanos : UInt32} (error : Error)
    (returned : (afterUnanswered state nanos).callers[state.callers.length]? =
      some ⟨true, vpn 2, .returned (.error (.err error))⟩) :
    FailedConnect network state (vpn 2) (ambient nanos) (afterUnanswered state nanos) :=
  ⟨unanswered state nanos, _, error, by simp [unanswered, Undisturbed], rfl, returned, rfl⟩

end TestNetwork

open TestNetwork in
/-- A call for a host that nobody knows leaves its sender behind. Two calls for a host that is known and does
not answer leave a sender and two indices. -/
theorem failed_connects_fill_tables :
    let unknown := afterUnanswered (callersA []) 1
    let silent := callersA [(vpn 2, endpoint 2)]
    let once := afterUnanswered silent 1
    let twice := afterUnanswered once 3
    (FailedConnect network (callersA []) (vpn 2) (ambient 1) unknown ∧
      ¬ SameKeys (callersA []).inner unknown.inner) ∧
    (FailedConnect network silent (vpn 2) (ambient 1) once ∧ ¬ SameKeys silent.inner once.inner) ∧
    FailedConnect network once (vpn 2) (ambient 3) twice ∧ ¬ SameKeys once.inner twice.inner ∧
    twice.inner.peersByIndex.containsKey indexA = true ∧
    twice.inner.peersByIndex.containsKey (randIndex 3) = true := by
  intro unknown silent once twice
  refine ⟨⟨failedConnect_unanswered (.peerUnreachable (vpn 2)) (by decide +kernel), ?_⟩,
    ⟨failedConnect_unanswered (.timeout "handshake") (by decide +kernel), ?_⟩,
    failedConnect_unanswered (.timeout "handshake") (by decide +kernel), ?_, by decide +kernel,
    by decide +kernel⟩
  · intro same
    exact absurd (same.lighthouseWaiters (vpn 2)) (by decide +kernel)
  · intro same
    exact absurd (same.peersByIndex indexA) (by decide +kernel)
  · intro same
    exact absurd (same.peersByIndex (randIndex 3)) (by decide +kernel)

open TestNetwork in
/-- A second call for a host that nobody knows finds the sender of the first at its place, and leaves the
keys of the tables as they are. -/
theorem second_unknown_connect_keeps_keys :
    let unknown := afterUnanswered (callersA []) 1
    FilesNothingNew network unknown.inner (vpn 2) (ambient 3) ∧
      SameKeys unknown.inner (afterUnanswered unknown 3).inner := by
  intro unknown
  have failed : FailedConnect network unknown (vpn 2) (ambient 3) (afterUnanswered unknown 3) :=
    failedConnect_unanswered (.peerUnreachable (vpn 2)) (by decide +kernel)
  have nothingNew : FilesNothingNew network unknown.inner (vpn 2) (ambient 3) := by
    have missing : unknown.inner.knownAddrs.get (vpn 2) = none := by decide +kernel
    have present : unknown.inner.lighthouseWaiters.containsKey (vpn 2) = true := by decide +kernel
    rw [FilesNothingNew, missing]
    exact present
  exact ⟨nothingNew, ((failed_connect_keeps_keys_iff unknown).1 _ _ _ failed).mpr nothingNew⟩

end Nebula
