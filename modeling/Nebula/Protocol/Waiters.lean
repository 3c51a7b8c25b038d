import Nebula.Protocol.CallerSteps

/-! # Who is told when an address or a tunnel is there

Each of the two tables of senders has room for one call for an address. A call that files its sender
where another call still waits ends the other's wait, and nothing else ends a wait without telling what
it was for: a call that waits has its sender filed, so it is told by whatever empties its place.
-/

namespace Nebula

open Rust

variable {lib : Externals}

/-! ## What is filed -/

section Filed

/-- Every call that waits has its sender filed, and the calls with a filed sender wait, or have given up. -/
structure Filed (waits : Stage → Bool) (table : HashMap IpAddr WaiterId) (callers : List Caller) : Prop where
  registered : ∀ i caller, callers[i]? = some caller → waits caller.stage → table.get caller.vpnAddr = some i
  owned : ∀ v i, table.get v = some i → ∃ caller, callers[i]? = some caller ∧ caller.vpnAddr = v ∧
    (waits caller.stage ∨ caller.stage.finished)

variable {waits : Stage → Bool} {table : HashMap IpAddr WaiterId} {callers next : List Caller}
  {after : ℕ → Caller → Stage}

/-- A call has its sender filed at one place. -/
theorem Filed.unique (filed : Filed waits table callers) {v w : IpAddr} {i : ℕ} (one : table.get v = some i)
    (other : table.get w = some i) : v = w := by
  obtain ⟨caller, here, rfl, -⟩ := filed.owned v i one
  obtain ⟨caller', here', rfl, -⟩ := filed.owned w i other
  obtain rfl := Option.some.inj (here.symm.trans here')
  rfl

/-- A step that puts no call among those that wait and lets none give up silently. -/
theorem Filed.kept (filed : Filed waits table callers) (pointwise : Pointwise after callers next)
    (waited : ∀ k caller, callers[k]? = some caller → waits (after k caller) → waits caller.stage)
    (stays : ∀ k caller, callers[k]? = some caller → waits caller.stage ∨ caller.stage.finished →
      waits (after k caller) ∨ (after k caller).finished) : Filed waits table next where
  registered k caller here waiting := by
    obtain ⟨was, before, rfl⟩ := pointwise.of_get here
    exact filed.registered k was before (waited k was before waiting)
  owned v i there := by
    obtain ⟨was, before, key, stage⟩ := filed.owned v i there
    exact ⟨_, pointwise.get before, key, stays i was before stage⟩

theorem Filed.called (filed : Filed waits table callers) (caller : Caller) (idle : waits caller.stage = false) :
    Filed waits table (callers ++ [caller]) where
  registered k other here waiting := by
    rcases lt_trichotomy k callers.length with old | new | beyond
    · rw [List.getElem?_append_left old] at here
      exact filed.registered k other here waiting
    · subst new
      rw [List.getElem?_concat_length] at here
      cases here
      cases idle.symm.trans waiting
    · rw [List.getElem?_eq_none (by rw [List.length_append]; exact beyond)] at here
      cases here
  owned v i there := by
    obtain ⟨was, before, owner⟩ := filed.owned v i there
    have old : i < callers.length := (List.getElem?_eq_some_iff.mp before).1
    exact ⟨was, (List.getElem?_append_left old).trans before, owner⟩

/-- A call files its sender at a place that is free. -/
theorem Filed.inserted (filed : Filed waits table callers) {i : ℕ} {caller : Caller} {stage : Stage}
    (here : callers[i]? = some caller) (free : table.get caller.vpnAddr = none)
    (idle : ¬ (waits caller.stage ∨ caller.stage.finished)) (held : waits stage ∨ stage.finished) :
    Filed waits (table.insert caller.vpnAddr i) (updateStage callers i fun _ => stage) where
  registered k other now waiting := by
    obtain ⟨was, before, rfl⟩ := (pointwise_updateStage callers i fun _ => stage).of_get now
    by_cases same : i = k
    · subst same
      obtain rfl := Option.some.inj (here.symm.trans before)
      exact HashMap.get_insert_self _ _ _
    · rw [if_neg same] at waiting
      have registered := filed.registered k was before waiting
      have distinct : was.vpnAddr ≠ caller.vpnAddr := by
        intro equal
        rw [equal, free] at registered
        cases registered
      exact (HashMap.get_insert_of_ne _ _ distinct).trans registered
  owned v k there := by
    rw [HashMap.get_insert] at there
    split at there
    · next same =>
      cases there
      refine ⟨_, (pointwise_updateStage callers i fun _ => stage).get here, same.symm, ?_⟩
      rw [if_pos rfl]
      exact held
    · obtain ⟨was, before, key, holds⟩ := filed.owned v k there
      have apart : i ≠ k := by
        rintro rfl
        obtain rfl := Option.some.inj (here.symm.trans before)
        exact idle holds
      refine ⟨_, (pointwise_updateStage callers i fun _ => stage).get before, key, ?_⟩
      rw [if_neg apart]
      exact holds

/-- The sender at an address is taken out, and its call hears of something and no longer waits. -/
theorem Filed.told (filed : Filed waits table callers) (v : IpAddr) {tell : WaiterId → Effect}
    (ends : ∀ (stage : Stage) (i : WaiterId), waits (stage.hear (tell i)) = false)
    (pointwise : Pointwise (tells tell (table.get v)) callers next) : Filed waits (table.remove v) next where
  registered k other now waiting := by
    obtain ⟨was, before, rfl⟩ := pointwise.of_get now
    dsimp only [tells] at waiting ⊢
    split at waiting
    · cases (ends was.stage k).symm.trans waiting
    · next elsewhere =>
      have registered := filed.registered k was before waiting
      have distinct : was.vpnAddr ≠ v := by
        rintro rfl
        exact elsewhere registered
      rw [HashMap.get_remove_of_ne _ distinct, registered]
  owned w k there := by
    obtain ⟨distinct, found⟩ := HashMap.of_get_remove there
    obtain ⟨was, before, key, holds⟩ := filed.owned w k found
    have elsewhere : table.get v ≠ some k := fun also => distinct (filed.unique found also)
    refine ⟨_, pointwise.get before, key, ?_⟩
    rw [tells, if_neg elsewhere]
    exact holds

/-- What one table's call hears of does not concern the other table. -/
theorem Filed.beside {waits' : Stage → Bool} {table' : HashMap IpAddr WaiterId}
    (filed : Filed waits table callers) (other : Filed waits' table' callers)
    (exclusive : ∀ stage : Stage, waits stage → waits' stage ∨ stage.finished → False) {v : IpAddr}
    {tell : WaiterId → Effect}
    (never : ∀ (stage : Stage) (i : WaiterId), waits' (stage.hear (tell i)) → waits' stage)
    (pointwise : Pointwise (tells tell (table.get v)) callers next) : Filed waits' table' next := by
  refine other.kept pointwise ?_ ?_
  · intro k caller here waiting
    unfold tells at waiting
    split at waiting
    · exact never _ _ waiting
    · exact waiting
  · intro k caller here holds
    unfold tells
    split
    · next filedHere =>
      obtain ⟨owner, there, -, owns⟩ := filed.owned v k filedHere
      obtain rfl := Option.some.inj (here.symm.trans there)
      have ended : caller.stage.finished = true :=
        owns.resolve_left fun waiting => exclusive _ waiting holds
      rw [Stage.hear_finished ended]
      exact holds
    · exact holds

/-- A call files its sender in place of another, which hears of its end. -/
theorem Filed.replaced {waits' : Stage → Bool} {table' : HashMap IpAddr WaiterId}
    (filed : Filed waits table callers) (other : Filed waits' table' callers)
    (exclusive : ∀ stage : Stage, waits stage → waits' stage ∨ stage.finished → False)
    (never : ∀ (stage : Stage) (i : WaiterId),
      waits (stage.hear (.cancel i)) = false ∧ waits' (stage.hear (.cancel i)) = false)
    {i : ℕ} {caller : Caller} (here : callers[i]? = some caller) {told : List Caller}
    (cancelled : Pointwise (tells Effect.cancel (table.get caller.vpnAddr)) callers told)
    (deaf : ∀ effect, caller.stage.hear effect = caller.stage)
    (idle : waits caller.stage = false ∧ waits' caller.stage = false ∧ caller.stage.finished = false)
    {stage : Stage} (held : waits stage ∨ stage.finished) (apart : waits' stage = false) :
    Filed waits (table.insert caller.vpnAddr i) (updateStage told i fun _ => stage) ∧
      Filed waits' table' (updateStage told i fun _ => stage) := by
  obtain ⟨idle, idle', unfinished⟩ := idle
  have still : told[i]? = some caller := by
    rw [cancelled.get here, tells, deaf, ite_self]
  have mine := filed.told caller.vpnAddr (fun stage i => (never stage i).1) cancelled
  have theirs := filed.beside other exclusive
    (fun stage i waiting => by rw [(never stage i).2] at waiting; cases waiting) cancelled
  constructor
  · rw [← HashMap.insert_remove]
    exact mine.inserted still (HashMap.get_remove_self _ _) (by simp [idle, unfinished]) held
  · refine theirs.kept (pointwise_updateStage told i fun _ => stage) ?_ ?_
    · intro k was there waiting
      split at waiting
      · cases apart.symm.trans waiting
      · exact waiting
    · intro k was there holds
      split
      · next same =>
        subst same
        obtain rfl := Option.some.inj (still.symm.trans there)
        simp [idle', unfinished] at holds
      · exact holds

end Filed

/-! ## What steps leave filed -/

section Step

variable {state : Callers lib} {event : CallersEvent}

/-- The senders of all calls that wait are filed. -/
structure WaitersFiled (state : Callers lib) : Prop where
  addrs : Filed Stage.awaitsAddrs state.inner.lighthouseWaiters state.callers
  peer : Filed Stage.awaitsPeer state.inner.connected state.callers

theorem WaitersFiled.step {next : Callers lib} (filed : WaitersFiled state) (movement : Movement state event next) :
    WaitersFiled next := by
  cases movement with
  | called connects vpnAddr tables grown =>
    obtain ⟨lighthouseWaiters, connected⟩ := Prod.mk.inj tables
    exact ⟨by rw [lighthouseWaiters, grown]; exact filed.addrs.called _ rfl,
      by rw [connected, grown]; exact filed.peer.called _ rfl⟩
  | moved after tables pointwise quiet =>
    obtain ⟨lighthouseWaiters, connected⟩ := Prod.mk.inj tables
    constructor
    · rw [lighthouseWaiters]
      exact filed.addrs.kept pointwise (fun k caller here => (quiet k caller here).addrs)
        fun k caller here => (quiet k caller here).addrsKept
    · rw [connected]
      exact filed.peer.kept pointwise (fun k caller here => (quiet k caller here).peer)
        fun k caller here => (quiet k caller here).peerKept
  | filedAddrs i caller lighthouses ambient cause here unknown tables told cancelled placed =>
    obtain ⟨lighthouseWaiters, connected⟩ := Prod.mk.inj tables
    have held : (Stage.asking .nothing lighthouses).awaitsAddrs = true ∨
        (Stage.asking .nothing lighthouses).finished = true := .inl rfl
    have replaced := filed.addrs.replaced filed.peer Stage.not_peer_of_addrs (by simp) here cancelled
      (by rw [unknown]; exact fun _ => rfl) (by rw [unknown]; exact ⟨rfl, rfl, rfl⟩) held rfl
    exact ⟨lighthouseWaiters ▸ placed ▸ replaced.1, connected ▸ placed ▸ replaced.2⟩
  | filedPeer i caller remote stage ambient cause here opening opened tables told cancelled placed =>
    obtain ⟨lighthouseWaiters, connected⟩ := Prod.mk.inj tables
    have held : (stage.awaitsPeer = true ∨ stage.finished = true) ∧ stage.awaitsAddrs = false := by
      rcases opened with rfl | ⟨failure, rfl⟩
      · exact ⟨.inl rfl, rfl⟩
      · exact ⟨.inr rfl, rfl⟩
    have replaced := filed.peer.replaced filed.addrs Stage.not_addrs_of_peer (by simp) here cancelled
      (by rw [opening]; exact fun _ => rfl) (by rw [opening]; exact ⟨rfl, rfl, rfl⟩) held.1 held.2
    exact ⟨lighthouseWaiters ▸ placed ▸ replaced.2, connected ▸ placed ▸ replaced.1⟩
  | answered v addrs tables pointwise =>
    obtain ⟨lighthouseWaiters, connected⟩ := Prod.mk.inj tables
    constructor
    · rw [lighthouseWaiters]
      exact filed.addrs.told v (fun stage i => stage.awaitsAddrs_hear_answer i addrs) pointwise
    · rw [connected]
      exact filed.addrs.beside filed.peer Stage.not_peer_of_addrs (fun _ _ => Stage.awaitsPeer_of_hear) pointwise
  | completed v tables pointwise =>
    obtain ⟨lighthouseWaiters, connected⟩ := Prod.mk.inj tables
    constructor
    · rw [lighthouseWaiters]
      exact filed.peer.beside filed.addrs Stage.not_addrs_of_peer (fun _ _ => Stage.awaitsAddrs_of_hear) pointwise
    · rw [connected]
      exact filed.peer.told v Stage.awaitsPeer_hear_wake pointwise

/-- Nothing takes back what a call has been told. -/
theorem signalled_step {next : Callers lib} (movement : Movement state event next) {i : ℕ} {caller : Caller}
    (here : state.callers[i]? = some caller) (told : caller.stage.signalled = true) :
    ∃ caller', next.callers[i]? = some caller' ∧ caller'.stage.signalled = true := by
  have heard {tell : WaiterId → Effect} {filed : Option WaiterId} {after : List Caller}
      (pointwise : Pointwise (tells tell filed) state.callers after) :
      ∃ caller', after[i]? = some caller' ∧ caller'.stage.signalled = true := by
    refine ⟨_, pointwise.get here, ?_⟩
    dsimp only [tells]
    split
    · exact Stage.signalled_hear told _
    · exact told
  -- the call that files a sender is another one
  have placed {j : ℕ} {other : Caller} (there : state.callers[j]? = some other)
      (untold : other.stage.signalled = false) {filed : Option WaiterId} {after : List Caller} (stage : Stage)
      (cancelled : Pointwise (tells Effect.cancel filed) state.callers after) :
      ∃ caller', (updateStage after j fun _ => stage)[i]? = some caller' ∧ caller'.stage.signalled = true := by
    obtain ⟨caller', mid, still⟩ := heard cancelled
    refine ⟨_, (pointwise_updateStage after j fun _ => stage).get mid, ?_⟩
    rw [if_neg]
    · exact still
    · rintro rfl
      obtain rfl := Option.some.inj (here.symm.trans there)
      cases untold.symm.trans told
  cases movement with
  | called connects vpnAddr tables grown =>
    have old : i < state.callers.length := (List.getElem?_eq_some_iff.mp here).1
    exact ⟨caller, grown ▸ (List.getElem?_append_left old).trans here, told⟩
  | moved after tables pointwise quiet => exact ⟨_, pointwise.get here, (quiet i caller here).signalled told⟩
  | filedAddrs j other lighthouses ambient cause there unknown tables told' cancelled now =>
    rw [now]
    exact placed there (by rw [unknown]; rfl) _ cancelled
  | filedPeer j other remote stage ambient cause there opening opened tables told' cancelled now =>
    rw [now]
    exact placed there (by rw [opening]; rfl) _ cancelled
  | answered v addrs tables pointwise => exact heard pointwise
  | completed v tables pointwise => exact heard pointwise

/-- A wait is ended without what it was for by another call for the same address only. -/
theorem cancelled_step {next : Callers lib} (filed : WaitersFiled state) (movement : Movement state event next)
    {i : ℕ} {caller caller' : Caller} (here : state.callers[i]? = some caller)
    (waits : caller.stage.awaitsAddrs = true ∨ caller.stage.awaitsPeer = true)
    (now : next.callers[i]? = some caller') (ended : caller'.stage.cancelled = true) :
    ∃ j ambient other, event = .advance j ambient ∧ j ≠ i ∧ state.callers[j]? = some other ∧
      other.vpnAddr = caller.vpnAddr ∧ (caller.stage.awaitsAddrs = true ∧ other.stage = .unknown ∨
        caller.stage.awaitsPeer = true ∧ ∃ remote, other.stage = .opening remote) := by
  have before := Stage.not_cancelled waits
  -- the call that is told is the one whose sender the table holds
  have heard {tell : WaiterId → Effect} {held : Option WaiterId} {after : List Caller} {was : Caller}
      (pointwise : Pointwise (tells tell held) state.callers after) (there : after[i]? = some was)
      (dropped : was.stage.cancelled = true) :
      held = some i ∧ (caller.stage.hear (tell i)).cancelled = true := by
    rw [pointwise.get here] at there
    cases there
    dsimp only [tells] at dropped
    split at dropped
    · next filed => exact ⟨filed, dropped⟩
    · cases before.symm.trans dropped
  have placed {j : ℕ} {stage : Stage} {held : Option WaiterId} {after : List Caller}
      (pointwise : Pointwise (tells Effect.cancel held) state.callers after)
      (placed : next.callers = updateStage after j fun _ => stage) (uncancelled : stage.cancelled = false) :
      j ≠ i ∧ held = some i := by
    rw [placed] at now
    obtain ⟨was, mid, rfl⟩ := (pointwise_updateStage after j fun _ => stage).of_get now
    dsimp only at ended
    split at ended
    · cases uncancelled.symm.trans ended
    · next distinct => exact ⟨distinct, (heard pointwise mid ended).1⟩
  cases movement with
  | called connects vpnAddr tables grown =>
    have old : i < state.callers.length := (List.getElem?_eq_some_iff.mp here).1
    rw [grown, List.getElem?_append_left old, here] at now
    cases now
    cases before.symm.trans ended
  | moved after tables pointwise quiet =>
    rw [pointwise.get here] at now
    cases now
    cases before.symm.trans ((quiet i caller here).cancelled ended)
  | filedAddrs j other lighthouses ambient cause there unknown tables told cancelled now' =>
    obtain ⟨distinct, mine⟩ := placed cancelled now' rfl
    obtain ⟨owner, here', key, owns⟩ := filed.addrs.owned _ _ mine
    obtain rfl := Option.some.inj (here.symm.trans here')
    refine ⟨j, ambient, other, cause, distinct, there, key.symm, .inl ⟨?_, unknown⟩⟩
    rcases waits with waits | waits
    · exact waits
    · exact absurd owns (Stage.not_addrs_of_peer _ waits)
  | filedPeer j other remote stage ambient cause there opening opened tables told cancelled now' =>
    obtain ⟨distinct, mine⟩ := placed cancelled now' (by rcases opened with rfl | ⟨failure, rfl⟩ <;> rfl)
    obtain ⟨owner, here', key, owns⟩ := filed.peer.owned _ _ mine
    obtain rfl := Option.some.inj (here.symm.trans here')
    refine ⟨j, ambient, other, cause, distinct, there, key.symm, .inr ⟨?_, remote, opening⟩⟩
    rcases waits with waits | waits
    · exact absurd owns (Stage.not_peer_of_addrs _ waits)
    · exact waits
  | answered v addrs tables pointwise =>
    have dropped := (heard pointwise now ended).2
    rw [Stage.cancelled_hear_answer] at dropped
    cases before.symm.trans dropped
  | completed v tables pointwise =>
    have dropped := (heard pointwise now ended).2
    rw [Stage.cancelled_hear_wake] at dropped
    cases before.symm.trans dropped

/-- An answer hands its addresses to the call that waits for the host. -/
theorem WaitersFiled.answered (filed : WaitersFiled state) {datagram : Bytes} (source : SocketAddr)
    (ambient : Ambient) {addrs : List SocketAddr} {i : ℕ} {caller : Caller} (here : state.callers[i]? = some caller)
    (waits : caller.stage.awaitsAddrs) (answers : AnswersFor lib state.inner datagram caller.vpnAddr addrs) :
    ∃ asked, ((callers lib).step state (.other (.datagram datagram source ambient))).1.callers[i]? =
      some { caller with stage := .asking (.value addrs) asked } := by
  have registered := filed.addrs.registered i caller here waits
  obtain ⟨-, effects⟩ := handleDatagram_answers source ambient answers
  obtain ⟨asked, heard⟩ := Stage.hear_answer waits i addrs
  refine ⟨asked, ?_⟩
  change ((handleDatagram lib state.inner datagram source ambient).2.foldl deliver state.callers)[i]? = _
  rw [effects, (pointwise_deliver_filed state.callers _ (Effect.answer · addrs) fun _ => rfl).get here,
    if_pos registered, heard]

end Step

/-! ## Runs -/

section Run

variable (lib) (caCert hostCert : Certificate) (hostPrivateKey : Key) (cipher : Cipher) (vpnAddr : IpAddr)
  (lighthouses : List IpAddr) (staticHosts : List (IpAddr × SocketAddr))

theorem waitersFiled_run (events : List CallersEvent) :
    WaitersFiled ((callers lib).exec
      ⟨.new caCert hostCert hostPrivateKey cipher vpnAddr lighthouses staticHosts, []⟩ events) := by
  refine (callers lib).state_invariant WaitersFiled ?_ ?_ events
  · intro state event filed
    exact filed.step (movement_step state event)
  · exact ⟨⟨by simp, by simp [Inner.new]⟩, ⟨by simp, by simp [Inner.new]⟩⟩

theorem signalled_run {state : Callers lib} {i : ℕ} {caller : Caller} (here : state.callers[i]? = some caller)
    (told : caller.stage.signalled = true) (more : List CallersEvent) :
    ∃ caller', ((callers lib).exec state more).callers[i]? = some caller' ∧ caller'.stage.signalled = true := by
  refine (callers lib).state_invariant
    (fun state => ∃ caller, state.callers[i]? = some caller ∧ caller.stage.signalled = true) ?_ ⟨caller, here, told⟩
    more
  rintro state event ⟨caller, here, told⟩
  exact signalled_step (movement_step state event) here told

/-- In every reachable state of a session with any number of calls on it: at most one call of `connect` and
one of `resolve` wait for an address. A step ends the wait of a call without what it waits for only if
it files the sender of another call of the same kind for the same address. A datagram that completes a
handshake with `v` as initiator signals every `connect(v)` that waits, for good; and one that answers for
`v` hands its addresses to every `resolve(v)` that waits. -/
theorem every_waiter_told (events : List CallersEvent) :
    let state := (callers lib).exec
      ⟨.new caCert hostCert hostPrivateKey cipher vpnAddr lighthouses staticHosts, []⟩ events
    let after (event : CallersEvent) := ((callers lib).step state event).1
    (∀ (i j : ℕ) (a b : Caller), state.callers[i]? = some a → state.callers[j]? = some b → a.vpnAddr = b.vpnAddr →
      (a.stage.awaitsAddrs ∧ b.stage.awaitsAddrs) ∨ (a.stage.awaitsPeer ∧ b.stage.awaitsPeer) → i = j) ∧
    (∀ (event : CallersEvent) (i : ℕ) (caller caller' : Caller), state.callers[i]? = some caller →
      caller.stage.awaitsAddrs ∨ caller.stage.awaitsPeer →
      (after event).callers[i]? = some caller' → caller'.stage.cancelled →
      ∃ j ambient other, event = .advance j ambient ∧ j ≠ i ∧ state.callers[j]? = some other ∧
        other.vpnAddr = caller.vpnAddr ∧ (caller.stage.awaitsAddrs ∧ other.stage = .unknown ∨
          caller.stage.awaitsPeer ∧ ∃ remote, other.stage = .opening remote)) ∧
    (∀ datagram source ambient v, CompletesAsInitiator lib state.inner datagram ambient v →
      ∀ (i : ℕ) (caller : Caller), state.callers[i]? = some caller → caller.vpnAddr = v → caller.stage.awaitsPeer →
        let next := after (.other (.datagram datagram source ambient))
        next.callers[i]? = some { caller with stage := .awaiting (.value ()) } ∧
          ∀ more, ∃ caller', ((callers lib).exec next more).callers[i]? = some caller' ∧
            caller'.stage.signalled) ∧
    ∀ datagram source ambient v addrs, AnswersFor lib state.inner datagram v addrs →
      ∀ (i : ℕ) (caller : Caller), state.callers[i]? = some caller → caller.vpnAddr = v → caller.stage.awaitsAddrs →
        ∃ asked, (after (.other (.datagram datagram source ambient))).callers[i]? =
          some { caller with stage := .asking (.value addrs) asked } := by
  intro state after
  have filed : WaitersFiled state :=
    waitersFiled_run lib caCert hostCert hostPrivateKey cipher vpnAddr lighthouses staticHosts events
  refine ⟨?_, ?_, ?_, ?_⟩
  · rintro i j a b first second same (⟨mine, yours⟩ | ⟨mine, yours⟩)
    · have one := filed.addrs.registered i a first mine
      have two := filed.addrs.registered j b second yours
      exact Option.some.inj (one.symm.trans (same ▸ two))
    · have one := filed.peer.registered i a first mine
      have two := filed.peer.registered j b second yours
      exact Option.some.inj (one.symm.trans (same ▸ two))
  · intro event i caller caller' here waits now ended
    exact cancelled_step filed (movement_step state event) here waits now ended
  · rintro datagram source ambient v completes i caller here rfl waits next
    have told : next.callers[i]? = some { caller with stage := .awaiting (.value ()) } := by
      have registered := filed.peer.registered i caller here waits
      obtain ⟨-, effects⟩ := handleDatagram_completes source completes
      change ((handleDatagram lib state.inner datagram source ambient).2.foldl deliver state.callers)[i]? = _
      rw [effects, (pointwise_deliver_filed state.callers _ Effect.wake fun _ => rfl).get here, if_pos registered,
        Stage.hear_wake waits]
    exact ⟨told, fun more => signalled_run lib told rfl more⟩
  · rintro datagram source ambient v addrs answers i caller here rfl waits
    exact filed.answered source ambient here waits answers

end Run

/-! ## Two calls for one address -/

namespace TestNetwork

/-- How far the calls are after a run. -/
def stagesAfter (staticHosts : List (IpAddr × SocketAddr)) (events : List CallersEvent) : List Stage :=
  ((callers network).exec (callersA staticHosts) events).callers.map Caller.stage

/-- A call for host B, until it waits. -/
def untilWaiting (connects : Bool) (i : ℕ) (nanos : UInt32) : List CallersEvent :=
  [.call connects (vpn 2), .advance i (ambient nanos), .advance i (ambient nanos)]

end TestNetwork

open TestNetwork in
/-- The first of two `connect` calls waits until the second one ends its wait, and fails; the reply to the
handshake it opened signals the second. The first of two `resolve` calls is ended in the same way. -/
theorem second_call_cancels_first :
    let known := [(vpn 2, endpoint 2)]
    let both := untilWaiting true 0 1 ++ untilWaiting true 1 3
    let reply := CallersEvent.other (.datagram stage2Datagram (endpoint 2) (ambient 2))
    stagesAfter known (untilWaiting true 0 1) = [.awaiting .nothing] ∧
      stagesAfter known both = [.awaiting .dropped, .awaiting .nothing] ∧
      stagesAfter known (both ++ [reply]) = [.awaiting .dropped, .awaiting (.value ())] ∧
      stagesAfter known (both ++ [reply, .advance 0 (ambient 4)]) =
        [.returned (.error (.err (.handshakeFailed "cancelled"))), .awaiting (.value ())] ∧
      stagesAfter [] (untilWaiting false 0 1) = [.asking .nothing []] ∧
      stagesAfter [] (untilWaiting false 0 1 ++ untilWaiting false 1 3) =
        [.asking .dropped [], .asking .nothing []] := by
  decide +kernel

end Nebula
