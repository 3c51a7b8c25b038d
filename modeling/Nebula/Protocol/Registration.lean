import Nebula.Protocol.Connected
import Nebula.Protocol.HandshakePair
import Nebula.Protocol.LighthouseSender
import Nebula.Protocol.Returning

/-! # Building a session

`Session::build` reads the certificates and the key of its host, starts the receive loop, and registers the host with
one lighthouse after another: a `connect`, then an announcement through the tunnel. Nobody else calls the session
until that is done, but datagrams come in between. `resolve` relies on it: every lighthouse is within reach of a
session that has been handed out.
-/

namespace Nebula

open Rust Machine

/-! ## What a session is built from -/

/-- The crate `pem`. The tag and the contents of a block, or why the text has none. -/
structure PemCrate where
  parse : Bytes → Except String (String × Bytes)

/-- The errors of building a session. -/
inductive BuildError where
  | protocol (error : Error)
  | pem (message : String)
  /-- The text quotes both tags. -/
  | pemTag (expected got : String)
  | io
deriving DecidableEq, Repr

/-- A failure that `build` passes on. -/
def buildFailure : Failure Error → Failure BuildError
  | .err error => .err (.protocol error)
  | .panic cause => .panic cause

def passOn {α : Type} : Res α → Fallible BuildError α
  | .ok value => .ok value
  | .error failure => .error (buildFailure failure)

namespace Pem

def certificateV2Banner : String := "NEBULA CERTIFICATE V2"

def x25519PrivateKeyBanner : String := "NEBULA X25519 PRIVATE KEY"

def decode (pem : PemCrate) (input : Bytes) (expectedTag : String) : Fallible BuildError Bytes :=
  match pem.parse input with
  | .error message => .error (.err (.pem message))
  | .ok (tag, contents) =>
    if tag ≠ expectedTag then .error (.err (.pemTag expectedTag tag)) else .ok contents

end Pem

/-- Without the address to bind, which only the socket is made from. -/
structure SessionConfig where
  caCertPem : Bytes
  hostCertPem : Bytes
  hostKeyPem : Bytes
  cipher : Cipher
  lighthouses : List IpAddr
  staticHosts : List (IpAddr × SocketAddr)

/-- `key_bytes.as_slice().try_into()`. -/
def privateKey (keyBytes : Bytes) : Fallible BuildError Key :=
  if size : keyBytes.length = 32 then .ok ⟨keyBytes, size⟩
  else .error (.err (.pem "host private key is not 32 bytes"))

/-- What `build` does before the receive loop starts: the new state, and the address of the socket if the socket
tells it. -/
def prepare {H : Type} (pem : PemCrate) (config : SessionConfig) (localAddr : Option SocketAddr) :
    Fallible BuildError (Inner H × SocketAddr) := do
  let caDer ← Pem.decode pem config.caCertPem Pem.certificateV2Banner
  let caCert ← passOn (Certificate.decode caDer)
  let hostDer ← Pem.decode pem config.hostCertPem Pem.certificateV2Banner
  let hostCert ← passOn (Certificate.decode hostDer)
  let keyBytes ← Pem.decode pem config.hostKeyPem Pem.x25519PrivateKeyBanner
  let hostPrivateKey ← privateKey keyBytes
  let network ← okOr (.protocol .certNoNetworks) hostCert.details.networks.head?
  let localAddr ← okOr .io localAddr
  return (.new caCert hostCert hostPrivateKey config.cipher network.addr config.lighthouses config.staticHosts,
    localAddr)

theorem passOn_eq_ok {α : Type} {result : Res α} {value : α} (ok : passOn result = .ok value) : result = .ok value := by
  cases result <;> cases ok
  rfl

/-- What comes out is the start of a session whose address is its certificate's first. -/
theorem prepare_spec {H : Type} {pem : PemCrate} {config : SessionConfig} {localAddr : Option SocketAddr}
    {inner : Inner H} {addr : SocketAddr} (ready : prepare pem config localAddr = .ok (inner, addr)) :
    ∃ built : BuiltSession, inner = built.start ∧ built.lighthouses = config.lighthouses := by
  obtain ⟨caDer, -, ready⟩ := bind_eq_ok.mp ready
  obtain ⟨caCert, -, ready⟩ := bind_eq_ok.mp ready
  obtain ⟨hostDer, -, ready⟩ := bind_eq_ok.mp ready
  obtain ⟨hostCert, decoded, ready⟩ := bind_eq_ok.mp ready
  obtain ⟨keyBytes, -, ready⟩ := bind_eq_ok.mp ready
  obtain ⟨hostPrivateKey, -, ready⟩ := bind_eq_ok.mp ready
  obtain ⟨network, first, ready⟩ := bind_eq_ok.mp ready
  obtain ⟨localAddr, -, ready⟩ := bind_eq_ok.mp ready
  obtain ⟨rfl, -⟩ := Prod.mk.inj (Except.ok.inj ready)
  exact ⟨⟨caCert, hostCert, hostPrivateKey, config.cipher, network.addr, config.lighthouses, config.staticHosts,
    ⟨hostDer, passOn_eq_ok decoded⟩, by rw [okOr_eq_ok first]; rfl⟩, rfl, rfl⟩

/-! ## Registering -/

/-- How far `register_with_lighthouses` is. -/
inductive Registering where
  /-- It waits for its call `i` of `connect`. -/
  | connecting (i : ℕ) (lighthouse : IpAddr) (rest : List IpAddr)
  | announcing (lighthouse : IpAddr) (rest : List IpAddr)
  | finished (result : Fallible BuildError Unit)
deriving DecidableEq, Repr

/-- A session with its registration, which makes all the calls. -/
structure Building (lib : Externals) where
  session : Callers lib
  registering : Registering

inductive BuildingEvent where
  /-- The next section of the registration. The send that may end it can fail. -/
  | advance (ambient : Ambient) (sendFails : Bool)
  /-- The five seconds of a wait are over. -/
  | timeOut
  | datagram (bytes : Bytes) (source : SocketAddr) (ambient : Ambient)

/-- A packet to a lighthouse. -/
structure Announcement where
  lighthouse : IpAddr
  packet : Bytes
  dest : SocketAddr
deriving DecidableEq, Repr

inductive BuildingOutput where
  | effects (effects : List Effect)
  | announced (announcement : Announcement)
deriving DecidableEq, Repr

def BuildingOutput.announcement : BuildingOutput → Option Announcement
  | .effects _ => none
  | .announced announcement => some announcement

section Step

variable (lib : Externals)

/-- The next turn of the loop over the lighthouses. -/
def registerNext {lib : Externals} (session : Callers lib) : List IpAddr → Building lib
  | [] => ⟨session, .finished (.ok ())⟩
  | lighthouse :: rest =>
    ⟨((callers lib).step session (.call true lighthouse)).1, .connecting session.callers.length lighthouse rest⟩

def register (payload : Bytes) (b : Building lib) (ambient : Ambient) (sendFails : Bool) :
    Building lib × BuildingOutput :=
  match b.registering with
  | .connecting i lighthouse rest =>
    match b.session.callers[i]?.map Caller.stage with
    | some (.returned (.ok ())) => ({ b with registering := .announcing lighthouse rest }, .effects [])
    | some (.returned (.error failure)) =>
      ({ b with registering := .finished (.error (buildFailure failure)) }, .effects [])
    | _ =>
      let (session, effects) := (callers lib).step b.session (.advance i ambient)
      ({ b with session }, .effects effects)
  | .announcing lighthouse rest =>
    match sendTyped lib b.session.inner lighthouse Header.lighthouse payload with
    | (inner, .error failure) =>
      (⟨{ b.session with inner }, .finished (.error (buildFailure failure))⟩, .effects [])
    | (inner, .ok (packet, dest)) =>
      if sendFails then (⟨{ b.session with inner }, .finished (.error (.err .io))⟩, .effects [])
      else (registerNext { b.session with inner } rest, .announced ⟨lighthouse, packet, dest⟩)
  | .finished _ => (b, .effects [])

/-- A session that is being built, in whatever order its registration and its receive loop go on. -/
def building (payload : Bytes) : System (Building lib) BuildingEvent BuildingOutput where
  step b
    | .advance ambient sendFails => register lib payload b ambient sendFails
    | .timeOut =>
      match b.registering with
      | .connecting i _ _ => ({ b with session := ((callers lib).step b.session (.timeOut i)).1 }, .effects [])
      | _ => (b, .effects [])
    | .datagram bytes source ambient =>
      let (session, effects) := (callers lib).step b.session (.other (.datagram bytes source ambient))
      ({ b with session }, .effects effects)

variable {lib} in
def Building.start (inner : lib.Inner) : Building lib := registerNext ⟨inner, []⟩ inner.lighthouses

/-- The announcements that have gone out, oldest first. -/
def announcements (log : List (BuildingEvent × BuildingOutput)) : List Announcement :=
  log.filterMap fun entry => entry.2.announcement

end Step

/-! ## What a step can do -/

variable {lib : Externals}

/-- The state of `b` after some calls, and whether the registration has come one step further. -/
inductive Progress (payload : Bytes) (b next : Building lib) : BuildingOutput → Prop
  | aside (effects : List Effect) (calls : List CallersEvent)
      (session : next.session = (callers lib).exec b.session calls) (same : next.registering = b.registering) :
      Progress payload b next (.effects effects)
  | connected (i : ℕ) (lighthouse : IpAddr) (rest : List IpAddr)
      (was : b.registering = .connecting i lighthouse rest)
      (returned : b.session.callers[i]?.map Caller.stage = some (.returned (.ok ())))
      (session : next.session = b.session) (now : next.registering = .announcing lighthouse rest) :
      Progress payload b next (.effects [])
  | failed (calls : List CallersEvent) (session : next.session = (callers lib).exec b.session calls)
      (failure : Failure BuildError) (now : next.registering = .finished (.error failure)) :
      Progress payload b next (.effects [])
  | announced (lighthouse : IpAddr) (rest : List IpAddr) (packet : Bytes) (dest : SocketAddr)
      (session : Callers lib) (was : b.registering = .announcing lighthouse rest)
      (sent : (sendTyped lib b.session.inner lighthouse Header.lighthouse payload).2 = .ok (packet, dest))
      (calls : session = (callers lib).exec b.session [.other (.sendTyped lighthouse Header.lighthouse payload)])
      (now : next = registerNext session rest) :
      Progress payload b next (.announced ⟨lighthouse, packet, dest⟩)

/-- A send is a section of another task that tells no call. -/
theorem exec_sendTyped (state : Callers lib) (v : IpAddr) (type_ : UInt8) (payload : Bytes) :
    (callers lib).exec state [.other (.sendTyped v type_ payload)] =
      { state with inner := (sendTyped lib state.inner v type_ payload).1 } := by
  have quiet := deliver_silent state.callers _ (silent_sent (sendTyped lib state.inner v type_ payload).2)
  exact congrArg (Callers.mk (sendTyped lib state.inner v type_ payload).1) quiet

theorem progress_register (payload : Bytes) (b : Building lib) (ambient : Ambient) (sendFails : Bool) :
    Progress payload b (register lib payload b ambient sendFails).1 (register lib payload b ambient sendFails).2 := by
  unfold register
  split
  next i lighthouse rest was =>
    split
    next returned => exact .connected i lighthouse rest was returned rfl rfl
    next failure returned => exact .failed [] rfl _ rfl
    · exact .aside _ [.advance i ambient] rfl rfl
  next lighthouse rest was =>
    have ran := exec_sendTyped b.session lighthouse Header.lighthouse payload
    split
    next inner failure sent =>
      rw [sent] at ran
      exact .failed _ ran.symm _ rfl
    next inner packet dest sent =>
      rw [sent] at ran
      split
      · exact .failed _ ran.symm _ rfl
      · exact .announced lighthouse rest packet dest _ was (by rw [sent]) ran.symm rfl
  · exact .aside _ [] rfl rfl

theorem progress_step (payload : Bytes) (b : Building lib) (event : BuildingEvent) :
    Progress payload b ((building lib payload).step b event).1 ((building lib payload).step b event).2 := by
  cases event with
  | advance ambient sendFails => exact progress_register payload b ambient sendFails
  | timeOut =>
    unfold building
    dsimp only
    split
    next i lighthouse rest was => exact .aside _ [.timeOut i] rfl rfl
    · exact .aside _ [] rfl rfl
  | datagram bytes source ambient => exact .aside _ [.other (.datagram bytes source ambient)] rfl rfl

/-! ## What every step of the registration keeps -/

/-- The lighthouses that have not been announced to. -/
def Registering.remaining : Registering → List IpAddr
  | .connecting _ lighthouse rest | .announcing lighthouse rest => lighthouse :: rest
  | .finished _ => []

/-- The packet is the payload, sealed under the tunnel that the session has for the lighthouse, and goes to the other
end of that tunnel, whose certificate the CA has signed for the lighthouse's address. -/
def Announcement.Sealed (inner : lib.Inner) (caCert : Certificate) (payload : Bytes) (item : Announcement) : Prop :=
  ∃ index peer nowUnix, inner.indexByVpnAddr.get item.lighthouse = some index ∧
    inner.peersByIndex.get index = some (.established peer) ∧ peer.cert.firstAddr = some item.lighthouse ∧
    verifyHostCert lib.crypto peer.cert caCert nowUnix = .ok () ∧ item.dest = peer.remote ∧
    SentThrough lib.aead peer payload item.packet

/-- A registration as far as it has come, with what has gone out. -/
structure Registered (start : lib.Inner) (sent : List Announcement) (b : Building lib) : Prop where
  calls : ∃ calls, b.session = (callers lib).exec ⟨start, []⟩ calls
  called : ∀ i lighthouse rest, b.registering = .connecting i lighthouse rest →
    ∃ stage, b.session.callers[i]? = some ⟨true, lighthouse, stage⟩
  connected : ∀ lighthouse rest, b.registering = .announcing lighthouse rest →
    ∃ index, b.session.inner.indexByVpnAddr.get lighthouse = some index
  announced : ∀ item ∈ sent, ∃ index, b.session.inner.indexByVpnAddr.get item.lighthouse = some index
  order : ∃ rest, sent.map Announcement.lighthouse ++ rest = start.lighthouses ∧
    ((∀ failure, b.registering ≠ .finished (.error failure)) → rest = b.registering.remaining)

section Step

variable {start : lib.Inner} {payload : Bytes} {sent : List Announcement} {b next : Building lib}

theorem announced_later {items : List Announcement} {state : Callers lib} (calls : List CallersEvent)
    (announced : ∀ item ∈ items, ∃ index, state.inner.indexByVpnAddr.get item.lighthouse = some index) :
    ∀ item ∈ items,
      ∃ index, ((callers lib).exec state calls).inner.indexByVpnAddr.get item.lighthouse = some index := by
  intro item member
  obtain ⟨index, indexed⟩ := announced item member
  exact still_indexed_calls state calls indexed

theorem Registered.aside (registered : Registered start sent b) (calls : List CallersEvent)
    (session : next.session = (callers lib).exec b.session calls) (same : next.registering = b.registering) :
    Registered start sent next where
  calls := by
    obtain ⟨before, reached⟩ := registered.calls
    exact ⟨before ++ calls, by rw [session, reached, (callers lib).exec_append]⟩
  called i lighthouse rest now := by
    obtain ⟨stage, here⟩ := registered.called i lighthouse rest (same ▸ now)
    rw [session]
    exact still_called here calls
  connected lighthouse rest now := by
    obtain ⟨index, indexed⟩ := registered.connected lighthouse rest (same ▸ now)
    rw [session]
    exact still_indexed_calls b.session calls indexed
  announced := session ▸ announced_later calls registered.announced
  order := same ▸ registered.order

theorem Registered.failed (registered : Registered start sent b) (calls : List CallersEvent)
    (session : next.session = (callers lib).exec b.session calls) {failure : Failure BuildError}
    (now : next.registering = .finished (.error failure)) : Registered start sent next where
  calls := by
    obtain ⟨before, reached⟩ := registered.calls
    exact ⟨before ++ calls, by rw [session, reached, (callers lib).exec_append]⟩
  called i lighthouse rest other := by cases now.symm.trans other
  connected lighthouse rest other := by cases now.symm.trans other
  announced := session ▸ announced_later calls registered.announced
  order := by
    obtain ⟨rest, all, -⟩ := registered.order
    exact ⟨rest, all, fun unfailed => absurd now (unfailed failure)⟩

/-- The next turn of the loop, from a state in which no call is awaited. -/
theorem registered_next {session : Callers lib} {rest : List IpAddr}
    (calls : ∃ calls, session = (callers lib).exec ⟨start, []⟩ calls)
    (announced : ∀ item ∈ sent, ∃ index, session.inner.indexByVpnAddr.get item.lighthouse = some index)
    (all : sent.map Announcement.lighthouse ++ rest = start.lighthouses) :
    Registered start sent (registerNext session rest) := by
  cases rest with
  | nil =>
    exact {
      calls
      called := nofun
      connected := nofun
      announced
      order := ⟨[], all, fun _ => rfl⟩ }
  | cons lighthouse rest =>
    obtain ⟨before, reached⟩ := calls
    exact {
      calls := ⟨before ++ [.call true lighthouse], by rw [(callers lib).exec_concat, ← reached]; rfl⟩
      called := by
        rintro i other others same
        cases same
        exact ⟨.begun, List.getElem?_concat_length⟩
      connected := nofun
      announced := announced_later [.call true lighthouse] announced
      order := ⟨lighthouse :: rest, all, fun _ => rfl⟩ }

/-- What goes out is sealed under the tunnel for the lighthouse. -/
theorem Registered.sealed {built : BuiltSession} {item : Announcement} (registered : Registered built.start sent b)
    (progress : Progress payload b next (.announced item)) : item.Sealed b.session.inner built.caCert payload := by
  cases progress with
  | announced lighthouse rest packet dest session was delivered calls now =>
    obtain ⟨index, indexed⟩ := registered.connected lighthouse rest was
    obtain ⟨before, reached⟩ := registered.calls
    have within : WithinReach lib b.session.inner built.caCert lighthouse := by
      rw [reached] at indexed ⊢
      exact withinReach_of_indexed _ _ _ _ _ _ _ before indexed
    obtain ⟨index', peer, nowUnix, indexed', here, first, verified, -⟩ := within
    obtain ⟨i, peer', its, there, toPeer, through⟩ := sendTyped_spec delivered
    obtain rfl := Option.some.inj (indexed'.symm.trans its)
    obtain rfl := PeerState.established.inj (Option.some.inj (here.symm.trans there))
    exact ⟨index', peer, nowUnix, indexed', here, first, verified, toPeer, through⟩

theorem Registered.step {built : BuiltSession} {output : BuildingOutput} (registered : Registered built.start sent b)
    (progress : Progress payload b next output) :
    Registered built.start (sent ++ output.announcement.toList) next := by
  cases progress with
  | aside effects calls session same => exact (List.append_nil sent).symm ▸ registered.aside calls session same
  | failed calls session failure now => exact (List.append_nil sent).symm ▸ registered.failed calls session now
  | connected i lighthouse rest was returned session now =>
    rw [BuildingOutput.announcement, Option.toList_none, List.append_nil]
    obtain ⟨rest', all, remaining⟩ := registered.order
    obtain rfl := remaining (by rw [was]; exact nofun)
    exact {
      calls := session ▸ registered.calls
      called := by
        rw [now]
        exact nofun
      connected := by
        rintro other others same
        cases now.symm.trans same
        obtain ⟨stage, here⟩ := registered.called i lighthouse rest was
        rw [here] at returned
        obtain rfl := Option.some.inj returned
        obtain ⟨before, reached⟩ := registered.calls
        rw [session, reached]
        rw [reached] at here
        exact toldReached_run _ _ _ _ _ _ _ before i lighthouse ⟨_, here, rfl, rfl⟩
      announced := session ▸ registered.announced
      order := ⟨_, all, fun _ => by rw [was, now]; rfl⟩ }
  | announced lighthouse rest packet dest session was delivered calls now =>
    rw [now]
    obtain ⟨rest', all, remaining⟩ := registered.order
    obtain rfl := remaining (by rw [was]; exact nofun)
    rw [was] at all
    obtain ⟨index, indexed⟩ := registered.connected lighthouse rest was
    refine registered_next ?_ ?_ ?_
    · obtain ⟨before, reached⟩ := registered.calls
      exact ⟨before ++ _, by rw [calls, reached, (callers lib).exec_append]⟩
    · intro item member
      rcases List.mem_append.mp member with old | new
      · exact calls ▸ announced_later _ registered.announced item old
      · obtain rfl := List.mem_singleton.mp new
        exact calls ▸ still_indexed_calls b.session _ indexed
    · rw [List.map_append, List.append_assoc]
      exact all

end Step

/-! ## Every run -/

theorem registered_run (built : BuiltSession) (payload : Bytes) (events : List BuildingEvent) :
    Registered built.start
      (announcements ((building lib payload).log (.start built.start) events))
      ((building lib payload).exec (.start built.start) events) := by
  refine (building lib payload).history_invariant
    (fun log b => Registered built.start (announcements log) b) ?_ ?_ events
  · exact registered_next ⟨[], rfl⟩ (fun item member => absurd member List.not_mem_nil) rfl
  · intro log b event registered
    have next := registered.step (progress_step payload b event)
    unfold announcements at next ⊢
    rw [List.filterMap_append]
    exact next

/-- While a session is built, whatever datagrams come in: the lighthouses it has announced itself to are the first
of those configured, in this order, and each announcement is the same message, sealed under the tunnel that the session
has for the lighthouse at that step, whose certificate the configured CA signed for the lighthouse's address. If the
session is handed out, it has announced itself to all of them, and from then on, whatever its callers and the network
do, each of them stays within its reach, as do those that a later `resolve` asks. -/
theorem session_handed_out_registered (pem : PemCrate) (config : SessionConfig) (localAddr : Option SocketAddr)
    {inner : lib.Inner} {addr : SocketAddr} (ready : prepare pem config localAddr = .ok (inner, addr))
    (events : List BuildingEvent) :
    let payload := lib.metaCodec.encode (Lighthouse.hostUpdateNotification inner.vpnAddr [addr])
    let reached := (building lib payload).exec (.start inner) events
    let sent := announcements ((building lib payload).log (.start inner) events)
    sent.map Announcement.lighthouse <+: config.lighthouses ∧
      (∀ before event after item, events = before ++ event :: after →
        ((building lib payload).step ((building lib payload).exec (.start inner) before) event).2 = .announced item →
        item.Sealed ((building lib payload).exec (.start inner) before).session.inner inner.caCert payload) ∧
      (reached.registering = .finished (.ok ()) →
        sent.map Announcement.lighthouse = config.lighthouses ∧
        ∀ more : List CallersEvent, let later := ((callers lib).exec reached.session more).inner
          later.lighthouses = config.lighthouses ∧
          ∀ lighthouse ∈ later.lighthouses, WithinReach lib later inner.caCert lighthouse) := by
  intro payload reached sent
  obtain ⟨built, rfl, configured⟩ := prepare_spec ready
  have registered := @registered_run lib built payload events
  obtain ⟨rest, all, remaining⟩ := registered.order
  have all : sent.map Announcement.lighthouse ++ rest = config.lighthouses := all.trans configured
  refine ⟨⟨rest, all⟩, ?_, fun handedOut => ?_⟩
  · rintro before event after item - announced
    have progress := progress_step payload ((building lib payload).exec (.start built.start) before) event
    rw [announced] at progress
    exact (registered_run built payload before).sealed progress
  obtain rfl : rest = [] := by
    have unfailed : ∀ failure, reached.registering ≠ .finished (.error failure) := by
      rw [handedOut]
      exact nofun
    rw [remaining unfailed]
    exact congrArg Registering.remaining handedOut
  rw [List.append_nil] at all
  refine ⟨all, fun more => ?_⟩
  obtain ⟨calls, before⟩ := registered.calls
  have kept : ((callers lib).exec reached.session more).inner.lighthouses = config.lighthouses := by
    rw [lighthouses_calls, before, lighthouses_calls]
    exact configured
  refine ⟨kept, fun lighthouse member => ?_⟩
  rw [kept, ← all] at member
  obtain ⟨item, sent, rfl⟩ := List.mem_map.mp member
  obtain ⟨index, indexed⟩ := registered.announced item sent
  have still := still_indexed_calls reached.session more indexed
  rw [before, ← (callers lib).exec_append] at still ⊢
  obtain ⟨index', indexed'⟩ := still
  exact withinReach_of_indexed _ _ _ _ _ _ _ (calls ++ more) indexed'

/-! ## Building ends -/

section Ends

variable {n : ℕ} {b : Building lib}

/-- The five seconds of a wait are over. -/
def BuildingEvent.frees : BuildingEvent → Bool
  | .timeOut => true
  | _ => false

/-- The section of the registration that the event asks for runs to its end. -/
def Building.moves (b : Building lib) : BuildingEvent → Bool
  | .advance ambient _ =>
    match b.registering with
    | .connecting i _ _ => endsSection i b.session (.advance i ambient)
    | _ => true
  | _ => false

/-- The sections that the registration may still have before it, with `n` lighthouses. -/
def Building.ahead (n : ℕ) (b : Building lib) : ℕ :=
  match b.registering with
  | .connecting i _ rest => b.session.ahead n i + 2 + rest.length * (n + 7)
  | .announcing _ rest => 1 + rest.length * (n + 7)
  | .finished _ => 0

/-- There is a call where the registration waits for one. -/
def Building.Calls (n : ℕ) (b : Building lib) : Prop :=
  b.session.inner.lighthouses.length ≤ n ∧ ∀ i lighthouse rest, b.registering = .connecting i lighthouse rest →
    ∃ stage, b.session.callers[i]? = some ⟨true, lighthouse, stage⟩ ∧ stage.isResolved = false

/-- The call that the registration waits for is not blocked. -/
def Building.Free (b : Building lib) : Prop :=
  ∀ i lighthouse rest, b.registering = .connecting i lighthouse rest →
    ∃ stage, b.session.callers[i]? = some ⟨true, lighthouse, stage⟩ ∧ stage.blocked = false

theorem ahead_registerNext (n : ℕ) (session : Callers lib) (rest : List IpAddr) :
    (registerNext session rest).ahead n = rest.length * (n + 7) := by
  cases rest with
  | nil => rw [List.length_nil, Nat.zero_mul]; rfl
  | cons lighthouse rest =>
    have here : ((callers lib).step session (.call true lighthouse)).1.callers[session.callers.length]? =
        some ⟨true, lighthouse, .begun⟩ := List.getElem?_concat_length
    simp only [registerNext, Building.ahead, Callers.ahead_of_get here, Stage.ahead, List.length_cons]
    rw [Nat.succ_mul]
    omega

theorem calls_of_idle (few : b.session.inner.lighthouses.length ≤ n)
    (idle : ∀ i lighthouse rest, b.registering ≠ .connecting i lighthouse rest) : b.Calls n :=
  ⟨few, fun i lighthouse rest now => absurd now (idle i lighthouse rest)⟩

theorem calls_registerNext {session : Callers lib} (few : session.inner.lighthouses.length ≤ n)
    (rest : List IpAddr) : (registerNext session rest).Calls n := by
  cases rest with
  | nil => exact calls_of_idle few fun _ _ _ => Registering.noConfusion
  | cons lighthouse rest =>
    refine ⟨few, ?_⟩
    rintro i other others same
    cases same
    exact ⟨.begun, List.getElem?_concat_length, rfl⟩

/-- What a step does to a registration that has sections before it. -/
structure Counted (n : ℕ) (b : Building lib) (frees moves : Bool) (next : Building lib) : Prop where
  calls : next.Calls n
  falls : next.ahead n ≤ b.ahead n
  freed : frees = true → next.Free
  stays : b.Free → moves = false → next.Free
  lower : b.Free → moves = true → next.ahead n ≤ b.ahead n - 1

/-- A step beside the registration, or of the call that it waits for. -/
theorem counted_connecting (calls : b.Calls n) {i : ℕ} {lighthouse : IpAddr} {rest : List IpAddr}
    (was : b.registering = .connecting i lighthouse rest) (event : CallersEvent)
    (unfinished : endsSection i b.session event = true →
      ∀ caller, b.session.callers[i]? = some caller → caller.stage.finished ≠ true) :
    Counted n b (event.frees i) (endsSection i b.session event)
      { b with session := ((callers lib).step b.session event).1 } := by
  obtain ⟨few, called⟩ := calls
  obtain ⟨stage, here, unresolved⟩ := called i lighthouse rest was
  have here : b.session.callers[i]? = some ⟨true, lighthouse, stage⟩ := here
  -- all that is said of the call after the step is said of the one that is awaited
  have only {P : Stage → Prop} (found : ∃ stage,
      ((callers lib).step b.session event).1.callers[i]? = some ⟨true, lighthouse, stage⟩ ∧ P stage) :
      ∀ i lighthouse rest, b.registering = .connecting i lighthouse rest → ∃ stage,
        ((callers lib).step b.session event).1.callers[i]? = some ⟨true, lighthouse, stage⟩ ∧ P stage := by
    rintro j other others same
    cases was.symm.trans same
    exact found
  refine ⟨⟨?_, only (unresolved_step here rfl unresolved event)⟩, ?_, ?_, ?_, ?_⟩
  · exact (lighthouses_calls b.session [event]).symm ▸ few
  · obtain ⟨stage', now, fewer⟩ := ahead_step here few event
    simp only [Building.ahead, was, Callers.ahead_of_get here, Callers.ahead_of_get now]
    exact Nat.add_le_add_right (Nat.add_le_add_right fewer 2) _
  · intro frees
    cases event with
    | timeOut j =>
      obtain rfl : j = i := by simpa [CallersEvent.frees] using frees
      exact only (free_timeOut here)
    | call | advance | other => cases frees
  · intro free unended
    obtain ⟨stage', there, free⟩ := free i lighthouse rest was
    cases here.symm.trans there
    exact only (free_step here free unended)
  · intro free ends
    obtain ⟨stage', there, free⟩ := free i lighthouse rest was
    cases here.symm.trans there
    obtain ⟨stage', now, lower⟩ := ahead_section here few free ends
    have more := unfinished ends _ here
    have more := mt (@Stage.ahead_eq_zero n stage).mp more
    simp only [Building.ahead, was, Callers.ahead_of_get here, Callers.ahead_of_get now] at lower ⊢
    omega

/-- A step beside a registration that waits for no call. -/
theorem counted_beside {next : Building lib}
    (idle : ∀ i lighthouse rest, b.registering ≠ .connecting i lighthouse rest)
    (few : next.session.inner.lighthouses.length ≤ n) (same : next.registering = b.registering) {frees moves : Bool}
    (ended : moves = true → b.ahead n = 0) : Counted n b frees moves next := by
  have still : next.ahead n = b.ahead n := by
    rcases was : b.registering with ⟨i, lighthouse, rest⟩ | _ | _
    · exact absurd was (idle i lighthouse rest)
    all_goals simp only [Building.ahead, same, was]
  have idle : ∀ i lighthouse rest, next.registering ≠ .connecting i lighthouse rest := same ▸ idle
  have free : next.Free := fun i lighthouse rest now => absurd now (idle i lighthouse rest)
  refine ⟨calls_of_idle few idle, Nat.le_of_eq still, fun _ => free, fun _ _ => free, fun _ moved => ?_⟩
  rw [still, ended moved]

/-- The registration goes on with the next lighthouse, or it ends. -/
theorem counted_moved {next : Building lib} (calls : next.Calls n) (lower : next.ahead n ≤ b.ahead n - 1) :
    Counted n b false true next :=
  ⟨calls, Nat.le_trans lower (Nat.sub_le _ _), fun frees => absurd frees Bool.false_ne_true,
    fun _ stays => absurd stays.symm Bool.false_ne_true, fun _ _ => lower⟩

/-- A section of a registration that waits for a call. -/
theorem counted_register (calls : b.Calls n) {i : ℕ} {lighthouse : IpAddr} {rest : List IpAddr}
    (was : b.registering = .connecting i lighthouse rest) (payload : Bytes) (ambient : Ambient) (sendFails : Bool) :
    Counted n b false (endsSection i b.session (.advance i ambient)) (register lib payload b ambient sendFails).1 := by
  obtain ⟨stage, here, unresolved⟩ := calls.2 i lighthouse rest was
  rcases stage with _ | _ | _ | _ | _ | result | result
  case resolved => cases unresolved
  case returned =>
    have ends : endsSection i b.session (.advance i ambient) = true := by
      simp only [endsSection, here, Option.map_some, decide_true, Bool.and_true]
    rw [ends]
    have before : b.ahead n = 0 + 2 + rest.length * (n + 7) := by
      simp only [Building.ahead, was, Callers.ahead_of_get here]
      rfl
    rcases result with failure | ⟨⟩
    · simp only [register, was, here, Option.map_some]
      exact counted_moved (calls_of_idle calls.1 fun _ _ _ => Registering.noConfusion) (Nat.zero_le _)
    · simp only [register, was, here, Option.map_some]
      refine counted_moved (calls_of_idle calls.1 fun _ _ _ => Registering.noConfusion) ?_
      rw [before, Building.ahead]
      dsimp only
      omega
  all_goals
    have counted := counted_connecting calls was (.advance i ambient) fun _ caller there => by
      cases here.symm.trans there
      exact Bool.false_ne_true
    simp only [register, was, here, Option.map_some]
    rw [was] at counted
    exact counted

theorem counted_step (calls : b.Calls n) (payload : Bytes) (event : BuildingEvent) :
    Counted n b event.frees (b.moves event) ((building lib payload).step b event).1 := by
  have kept (events : List CallersEvent) : ((callers lib).exec b.session events).inner.lighthouses.length ≤ n :=
    (lighthouses_calls b.session events).symm ▸ calls.1
  rcases was : b.registering with ⟨i, lighthouse, rest⟩ | ⟨lighthouse, rest⟩ | result
  case connecting =>
    cases event with
    | timeOut =>
      have counted := counted_connecting calls was (.timeOut i) nofun
      have frees : (CallersEvent.timeOut i).frees i = true := decide_eq_true rfl
      simp only [building, was]
      rw [was, frees] at counted
      exact counted
    | datagram bytes source ambient =>
      exact counted_connecting calls was (.other (.datagram bytes source ambient)) nofun
    | advance ambient sendFails =>
      simp only [Building.moves, was]
      exact counted_register calls was payload ambient sendFails
  case announcing =>
    have idle : ∀ i lighthouse rest, b.registering ≠ .connecting i lighthouse rest := by
      rw [was]
      exact nofun
    cases event with
    | timeOut =>
      simp only [building, was]
      exact counted_beside idle calls.1 rfl nofun
    | datagram bytes source ambient =>
      refine counted_beside idle ?_ ?_ ?_
      · exact kept [.other (.datagram bytes source ambient)]
      · rfl
      · exact nofun
    | advance ambient sendFails =>
      have ran := exec_sendTyped b.session lighthouse Header.lighthouse payload
      have few := kept [.other (.sendTyped lighthouse Header.lighthouse payload)]
      rw [ran] at few
      have before : b.ahead n = 1 + rest.length * (n + 7) := by simp only [Building.ahead, was]
      simp only [Building.moves, building, register, was]
      split
      next inner failure sent =>
        rw [sent] at few
        exact counted_moved (calls_of_idle few fun _ _ _ => Registering.noConfusion) (Nat.zero_le _)
      next inner packet dest sent =>
        rw [sent] at few
        split
        · exact counted_moved (calls_of_idle few fun _ _ _ => Registering.noConfusion) (Nat.zero_le _)
        · refine counted_moved (calls_registerNext few rest) ?_
          rw [ahead_registerNext, before, Nat.add_sub_cancel_left]
  case finished =>
    have idle : ∀ i lighthouse rest, b.registering ≠ .connecting i lighthouse rest := by
      rw [was]
      exact nofun
    have none : b.ahead n = 0 := by simp only [Building.ahead, was]
    cases event with
    | timeOut =>
      simp only [building, was]
      exact counted_beside idle calls.1 rfl fun _ => none
    | datagram bytes source ambient =>
      refine counted_beside idle ?_ ?_ ?_
      · exact kept [.other (.datagram bytes source ambient)]
      · rfl
      · exact fun _ => none
    | advance ambient sendFails =>
      simp only [building, register, was]
      exact counted_beside idle calls.1 rfl fun _ => none

theorem building_descends (n : ℕ) (payload : Bytes) :
    (building lib payload).Descends BuildingEvent.frees Building.moves (Building.Calls n) Building.Free
      (Building.ahead n) where
  kept _ event calls := (counted_step calls payload event).calls
  falls _ event calls := (counted_step calls payload event).falls
  freed _ event calls := (counted_step calls payload event).freed
  stays _ event calls := (counted_step calls payload event).stays
  lower _ event calls := (counted_step calls payload event).lower

/-- Building a session ends, whatever datagrams come in: once the registration has taken `n + 7` turns for each of the
`n` lighthouses. In a turn the five seconds of its wait pass, if it waits, and a section of it runs to its end. -/
theorem registration_ends (inner : lib.Inner) (payload : Bytes) (events : List BuildingEvent)
    (enough : inner.lighthouses.length * (inner.lighthouses.length + 7) ≤
      (building lib payload).turns BuildingEvent.frees Building.moves false (.start inner) events) :
    ∃ result, ((building lib payload).exec (.start inner) events).registering = .finished result := by
  have start : (Building.start inner).Calls inner.lighthouses.length := calls_registerNext (le_refl _) inner.lighthouses
  rw [← ahead_registerNext inner.lighthouses.length ⟨inner, []⟩ inner.lighthouses] at enough
  have none := (building_descends inner.lighthouses.length payload).exhausted start events enough
  rcases now : ((building lib payload).exec (.start inner) events).registering with _ | _ | result
  case finished => exact ⟨result, rfl⟩
  all_goals
    simp only [Building.ahead, now] at none
    omega

end Ends

/-! ## A host and its lighthouse -/

namespace TestNetwork

/-- A digit of base 64. -/
def base64Digit (n : ℕ) : UInt8 :=
  if n < 26 then UInt8.ofNat (65 + n)
  else if n < 52 then UInt8.ofNat (71 + n)
  else if n < 62 then UInt8.ofNat (n - 4)
  else if n = 62 then 43
  else 47

def base64 : Bytes → Bytes
  | a :: b :: c :: rest =>
    let n := beNat [a, b, c]
    base64Digit (n / 2 ^ 18) :: base64Digit (n / 2 ^ 12 % 64) :: base64Digit (n / 2 ^ 6 % 64) ::
      base64Digit (n % 64) :: base64 rest
  | [a, b] =>
    let n := beNat [a, b]
    [base64Digit (n / 2 ^ 10), base64Digit (n / 2 ^ 4 % 64), base64Digit (n % 16 * 4), 61]
  | [a] => [base64Digit (a.toNat / 4), base64Digit (a.toNat % 4 * 16), 61, 61]
  | [] => []

/-- A block with lines of 64 digits. -/
def pemBlock (tag : String) (contents : Bytes) : Bytes :=
  let line (text : String) : Bytes := text.toList.map (fun c => UInt8.ofNat c.toNat) ++ [10]
  let digits (i : ℕ) : Bytes := base64 ((contents.drop (48 * i)).take 48) ++ [10]
  line ("-----BEGIN " ++ tag ++ "-----") ++ (List.range ((contents.length + 47) / 48)).flatMap digits ++
    line ("-----END " ++ tag ++ "-----")

/-- The blocks of host A's configuration. -/
def blocksA : List (String × Bytes) :=
  [(Pem.certificateV2Banner, ca.encode), (Pem.certificateV2Banner, hostA.encode),
    (Pem.x25519PrivateKeyBanner, keyA.items)]

def pemCrate : PemCrate where
  parse input :=
    match blocksA.find? (fun block => pemBlock block.1 block.2 = input) with
    | some block => .ok block
    | none => .error "malformed framing"

/-- Host A, whose lighthouse is host B. -/
def configA : SessionConfig where
  caCertPem := pemBlock Pem.certificateV2Banner ca.encode
  hostCertPem := pemBlock Pem.certificateV2Banner hostA.encode
  hostKeyPem := pemBlock Pem.x25519PrivateKeyBanner keyA.items
  cipher := .aesGcm
  lighthouses := [vpn 2]
  staticHosts := [(vpn 2, endpoint 2)]

def preparedA : meshNetwork.Inner := .new ca hostA keyA .aesGcm (vpn 1) [vpn 2] [(vpn 2, endpoint 2)]

def announcementA : Bytes := protobufMeta (Lighthouse.hostUpdateNotification (vpn 1) [endpoint 1])

/-- Host A opens the handshake, gets the reply, and announces itself. -/
def registerRun : List BuildingEvent :=
  [.advance (ambient 1) false, .advance (ambient 1) false, .datagram stage2Datagram (endpoint 2) (ambient 3),
    .advance (ambient 4) false, .advance (ambient 4) false, .advance (ambient 4) false]

/-- Nobody answers host A. -/
def silentRun : List BuildingEvent := (List.replicate 8 [.timeOut, .advance (ambient 1) false]).flatten

end TestNetwork

open TestNetwork in
/-- Host A gives up. -/
theorem unanswered_registration_ends :
    ∃ result, ((building meshNetwork announcementA).exec (.start preparedA) silentRun).registering = .finished result :=
  registration_ends preparedA announcementA silentRun (by decide +kernel)

open TestNetwork in
theorem prepare_configA : prepare pemCrate configA (some (endpoint 1)) = .ok (preparedA, endpoint 1) := by
  have ca : Pem.decode pemCrate configA.caCertPem Pem.certificateV2Banner = .ok ca.encode ∧
      Certificate.decode ca.encode = .ok ca := by decide +kernel
  have host : Pem.decode pemCrate configA.hostCertPem Pem.certificateV2Banner = .ok hostA.encode ∧
      Certificate.decode hostA.encode = .ok hostA := by decide +kernel
  have key : Pem.decode pemCrate configA.hostKeyPem Pem.x25519PrivateKeyBanner = .ok keyA.items := by decide +kernel
  unfold prepare
  rw [ca.1, host.1, key]
  dsimp only [bind, Except.bind]
  rw [ca.2, host.2]
  rfl

open TestNetwork in
/-- Host A is handed out with host B in its reach, also after it has sent a packet there. -/
theorem registered_host_reaches_lighthouse :
    let reached := (building meshNetwork announcementA).exec (.start preparedA) registerRun
    reached.registering = .finished (.ok ()) ∧
      WithinReach meshNetwork ((callers meshNetwork).exec reached.session sendRun).inner ca (vpn 2) := by
  have handedOut : ((building meshNetwork announcementA).exec (.start preparedA) registerRun).registering =
      .finished (.ok ()) := by decide +kernel
  have main := (@session_handed_out_registered meshNetwork pemCrate configA _ _ _ prepare_configA registerRun).2.2
  obtain ⟨-, reach⟩ := main handedOut
  obtain ⟨kept, within⟩ := reach sendRun
  exact ⟨handedOut, within (vpn 2) (by rw [kept]; exact List.mem_singleton_self _)⟩

end Nebula
