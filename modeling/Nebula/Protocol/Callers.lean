import Nebula.Protocol.LighthouseSender

/-! # Calls of `connect` and `resolve`

Any number of calls beside the receive loop and the other tasks of a session, each cut at its awaits: the
sections it runs under the lock, and the waits for what comes through a one-shot channel, which end by
themselves after five seconds. The place of a call among all calls, in the order they were made, is the
number of its senders; it files one at most in each of the two tables.
-/

namespace Nebula

open Rust

/-- What has come through a one-shot channel: nothing yet, a value, or the end of its sender. -/
inductive Heard (α : Type) where
  | nothing
  | value (value : α)
  | dropped
deriving DecidableEq, Repr

/-- How far a call is. -/
inductive Stage where
  | begun
  /-- The address is not known, and no sender is filed yet. -/
  | unknown
  /-- A sender is filed; the lighthouses are those that remain to be asked before the wait. -/
  | asking (heard : Heard (List SocketAddr)) (lighthouses : List IpAddr)
  /-- `resolve` has returned to `connect`. -/
  | opening (remote : SocketAddr)
  /-- A sender is filed and the handshake opened. -/
  | awaiting (heard : Heard Unit)
  | resolved (result : Res SocketAddr)
  | returned (result : Res Unit)
deriving DecidableEq, Repr

/-- A call of `connect`, or of `resolve` by itself. -/
structure Caller where
  connects : Bool
  vpnAddr : IpAddr
  stage : Stage
deriving DecidableEq, Repr

/-- Where the result of `resolve` takes a call. -/
def Caller.resume (caller : Caller) (result : Res SocketAddr) : Stage :=
  if caller.connects then
    match result with
    | .ok remote => .opening remote
    | .error failure => .returned (.error failure)
  else .resolved result

/-- The first of the addresses that came through the channel. -/
def firstOf (vpnAddr : IpAddr) (addrs : List SocketAddr) : Res SocketAddr :=
  okOr (.peerUnreachable vpnAddr) addrs.head?

/-- Where the end of the five seconds takes a call: nowhere, unless it waits and has heard nothing. -/
def Caller.timeOut (caller : Caller) : Stage :=
  match caller.stage with
  | .asking .nothing [] => caller.resume (.error (.err (.peerUnreachable caller.vpnAddr)))
  | .awaiting .nothing => .returned (.error (.err (.timeout "handshake")))
  | stage => stage

/-- The call that an effect reaches through its channel. -/
def Effect.waiter : Effect → Option WaiterId
  | .sendTo _ _ => none
  | .wake waiter => some waiter
  | .answer waiter _ => some waiter
  | .cancel waiter => some waiter

/-- What comes through a channel first is all that is heard. -/
def Stage.hear : Stage → Effect → Stage
  | .asking .nothing lighthouses, .answer _ addrs => .asking (.value addrs) lighthouses
  | .asking .nothing lighthouses, .cancel _ => .asking .dropped lighthouses
  | .awaiting .nothing, .wake _ => .awaiting (.value ())
  | .awaiting .nothing, .cancel _ => .awaiting .dropped
  | stage, _ => stage

/-- One call moves from its stage to another. -/
def updateStage (callers : List Caller) (i : ℕ) (move : Caller → Stage) : List Caller :=
  callers.modify i fun caller => { caller with stage := move caller }

def deliver (callers : List Caller) (effect : Effect) : List Caller :=
  match effect.waiter with
  | none => callers
  | some i => updateStage callers i fun caller => caller.stage.hear effect

/-- A session and the calls made on it. -/
structure Callers (lib : Externals) where
  inner : lib.Inner
  callers : List Caller

/-- The sections of other tasks than these calls. -/
inductive OtherTask where
  | datagram (bytes : Bytes) (source : SocketAddr) (ambient : Ambient)
  | sendTyped (vpnAddr : IpAddr) (type_ : UInt8) (payload : Bytes)
  | peerInfo (vpnAddr : IpAddr)
  | recv

def OtherTask.event : OtherTask → SessionEvent
  | .datagram bytes source ambient => .datagram bytes source ambient
  | .sendTyped vpnAddr type_ payload => .sendTyped vpnAddr type_ payload
  | .peerInfo vpnAddr => .peerInfo vpnAddr
  | .recv => .recv

def SessionOutput.effects : SessionOutput → List Effect
  | .handled effects => effects
  | .asking _ effects => effects
  | .opened _ effects => effects
  | .sent (.ok (packet, dest)) => [.sendTo packet dest]
  | _ => []

inductive CallersEvent where
  | call (connects : Bool) (vpnAddr : IpAddr)
  /-- The next section of a call, or its return. -/
  | advance (i : ℕ) (ambient : Ambient)
  | timeOut (i : ℕ)
  | other (task : OtherTask)

section Step

variable (lib : Externals)

/-- A section of call `i` has left `inner` behind and takes the call to `stage`. -/
def Callers.proceed {lib : Externals} (state : Callers lib) (i : ℕ) (stage : Stage) (inner : lib.Inner)
    (effects : List Effect) : Callers lib × List Effect :=
  ({ inner, callers := updateStage (effects.foldl deliver state.callers) i fun _ => stage }, effects)

def advance (state : Callers lib) (i : ℕ) (caller : Caller) (ambient : Ambient) : Callers lib × List Effect :=
  let v := caller.vpnAddr
  match caller.stage with
  | .begun =>
    match state.inner.knownAddrs.get v with
    | some addr => state.proceed i (caller.resume (.ok addr)) state.inner []
    | none => state.proceed i .unknown state.inner []
  | .unknown =>
    let (inner, lighthouses, effects) := awaitLighthouse lib state.inner v i
    state.proceed i (.asking .nothing lighthouses) inner effects
  | .asking heard (lighthouse :: rest) =>
    let payload := lib.metaCodec.encode (Lighthouse.hostQuery v)
    match sendTyped lib state.inner lighthouse Header.lighthouse payload with
    | (inner, .ok (packet, dest)) => state.proceed i (.asking heard rest) inner [.sendTo packet dest]
    | (inner, .error (.err _)) => state.proceed i (.asking heard rest) inner []
    | (inner, .error (.panic cause)) => state.proceed i (caller.resume (.error (.panic cause))) inner []
  | .asking (.value addrs) [] => state.proceed i (caller.resume (firstOf v addrs)) state.inner []
  | .asking .dropped [] =>
    state.proceed i (caller.resume (.error (.err (.peerUnreachable v)))) state.inner []
  | .opening remote =>
    match openHandshake lib state.inner v remote i ambient with
    -- `allocate_index` still looks for an index, so the section has not ended
    | (_, none, _) => (state, [])
    | (inner, some (.error failure), effects) => state.proceed i (.returned (.error failure)) inner effects
    | (inner, some (.ok ()), effects) => state.proceed i (.awaiting .nothing) inner effects
  | .awaiting (.value ()) => state.proceed i (.returned (.ok ())) state.inner []
  | .awaiting .dropped =>
    state.proceed i (.returned (.error (.err (.handshakeFailed "cancelled")))) state.inner []
  | .asking .nothing [] => (state, [])
  | .awaiting .nothing => (state, [])
  | .resolved _ => (state, [])
  | .returned _ => (state, [])

/-- A session with calls on it, in whatever order its tasks go on. -/
def callers : Machine.System (Callers lib) CallersEvent (List Effect) where
  step state
    | .call connects vpnAddr =>
      ({ state with callers := state.callers ++ [⟨connects, vpnAddr, .begun⟩] }, [])
    | .advance i ambient =>
      match state.callers[i]? with
      | none => (state, [])
      | some caller => advance lib state i caller ambient
    | .timeOut i => ({ state with callers := updateStage state.callers i Caller.timeOut }, [])
    | .other task =>
      let (inner, output) := (session lib).step state.inner task.event
      ({ inner, callers := output.effects.foldl deliver state.callers }, output.effects)

end Step

/-! ## Where the calls are after a step -/

/-- The calls that hear of it go to the stage that `after` says. -/
def Pointwise (after : ℕ → Caller → Stage) (before next : List Caller) : Prop :=
  ∀ k : ℕ, next[k]? = before[k]?.map fun caller => { caller with stage := after k caller }

theorem Pointwise.get {after : ℕ → Caller → Stage} {before next : List Caller} {k : ℕ} {caller : Caller}
    (pointwise : Pointwise after before next) (here : before[k]? = some caller) :
    next[k]? = some { caller with stage := after k caller } := by
  rw [pointwise k, here]
  rfl

theorem Pointwise.of_get {after : ℕ → Caller → Stage} {before next : List Caller} {k : ℕ} {caller : Caller}
    (pointwise : Pointwise after before next) (here : next[k]? = some caller) :
    ∃ was, before[k]? = some was ∧ caller = { was with stage := after k was } := by
  rw [pointwise k] at here
  obtain ⟨was, found, same⟩ := Option.map_eq_some_iff.mp here
  exact ⟨was, found, same.symm⟩

theorem pointwise_updateStage (callers : List Caller) (i : ℕ) (move : Caller → Stage) :
    Pointwise (fun k caller => if i = k then move caller else caller.stage) callers
      (updateStage callers i move) := by
  intro k
  rw [updateStage, List.getElem?_modify]
  rcases callers[k]? with _ | caller
  · rfl
  · by_cases same : i = k <;> simp [same]

theorem deliver_silent (callers : List Caller) (effects : List Effect)
    (silent : ∀ effect ∈ effects, effect.waiter = none) :
    effects.foldl deliver callers = callers := by
  induction effects with
  | nil => rfl
  | cons effect rest ih =>
    rw [List.forall_mem_cons] at silent
    rw [List.foldl_cons, deliver, silent.1]
    exact ih silent.2

/-- What comes of telling the one whose sender a table holds. -/
theorem pointwise_deliver_filed (callers : List Caller) (filed : Option WaiterId) (tell : WaiterId → Effect)
    (addressed : ∀ i, (tell i).waiter = some i) :
    Pointwise (fun k caller => if filed = some k then caller.stage.hear (tell k) else caller.stage) callers
      ((filed.toList.map tell).foldl deliver callers) := by
  cases filed with
  | none =>
    intro k
    simp
  | some i =>
    intro k
    have told := pointwise_updateStage callers i (fun caller => caller.stage.hear (tell i)) k
    simp only [Option.toList_some, List.map_cons, List.map_nil, List.foldl_cons, List.foldl_nil, deliver,
      addressed, told, Option.some.injEq]
    rcases callers[k]? with _ | caller
    · rfl
    · by_cases same : i = k
      · subst same
        rfl
      · simp [same]

theorem Pointwise.trans {first second : ℕ → Caller → Stage} {before mid next : List Caller}
    (one : Pointwise first before mid) (two : Pointwise second mid next) :
    Pointwise (fun k caller => second k { caller with stage := first k caller }) before next := by
  intro k
  rw [two k, one k, Option.map_map]
  rfl

theorem Pointwise.congr {after after' : ℕ → Caller → Stage} {before next : List Caller}
    (pointwise : Pointwise after before next) (same : ∀ k caller, after k caller = after' k caller) :
    Pointwise after' before next := by
  rwa [← funext₂ same]

/-! ## Sections -/

section Sections

variable {lib : Externals} (inner : lib.Inner)

/-- The section of `connect` behind `resolve` files the sender first; then it looks for an index, and opens
the handshake under it unless `stage0` fails. -/
theorem openHandshake_cases (v : IpAddr) (remote : SocketAddr) (i : WaiterId) (ambient : Ambient) :
    (openHandshake lib inner v remote i ambient).2.1 = none ∨
      ∃ index, allocateIndex lib inner ambient.subsecNanos = some index ∧
        ((∃ failure, stage0 lib.snow lib.handshakeCodec inner.cipher inner.hostPrivateKey
            inner.hostCert.encodeForHandshake index ambient.unixNanos ambient.entropy = .error failure ∧
          openHandshake lib inner v remote i ambient =
            ({ inner with connected := inner.connected.insert v i }, some (.error failure),
              replaced inner.connected v)) ∨
        ∃ hs msg packet, stage0 lib.snow lib.handshakeCodec inner.cipher inner.hostPrivateKey
            inner.hostCert.encodeForHandshake index ambient.unixNanos ambient.entropy = .ok (hs, msg) ∧
          openHandshake lib inner v remote i ambient =
            ({ inner with
                connected := inner.connected.insert v i
                peersByIndex := inner.peersByIndex.insert index (.handshaking hs) },
              some (.ok ()), replaced inner.connected v ++ [.sendTo packet remote])) := by
  unfold openHandshake
  dsimp only
  split
  · exact .inl rfl
  next index allocated =>
    refine .inr ⟨index, allocated, ?_⟩
    split
    · next failure failed => exact .inl ⟨failure, failed, rfl⟩
    · next hs msg opened => exact .inr ⟨hs, msg, _, opened, rfl⟩

/-- `send_typed` changes nothing but the transport of an established tunnel. -/
theorem sendTyped_cases (v : IpAddr) (type_ : UInt8) (payload : Bytes) :
    (sendTyped lib inner v type_ payload).1 = inner ∨
      ∃ index peer peer', inner.peersByIndex.get index = some (.established peer) ∧
        (sendTyped lib inner v type_ payload).1 =
          { inner with peersByIndex := inner.peersByIndex.insert index (.established peer') } := by
  unfold sendTyped
  split
  · exact .inl rfl
  next index indexed =>
    split
    · next peer was => exact .inr ⟨index, peer, _, was, rfl⟩
    · exact .inl rfl

end Sections

namespace TestNetwork

/-- Host A, to which host B's address is known or not, and no call on it yet. -/
def callersA (staticHosts : List (IpAddr × SocketAddr)) : Callers network :=
  ⟨.new ca hostA keyA .aesGcm (vpn 1) [] staticHosts, []⟩

end TestNetwork

end Nebula
