import Nebula.Machine.Turns
import Nebula.Protocol.FailedConnect
import Nebula.Protocol.Waiters

/-! # Every call returns

A call that waits is set free after five seconds, and its other sections run to their end unless `allocate_index` finds
no index. Whatever the rest of the session does meanwhile, a call of `connect` or `resolve` has returned once this has
happened as often as there are lighthouses, and five times more.
-/

namespace Nebula

open Rust Machine

variable {lib : Externals}

/-! ## The lighthouses stay as configured -/

section Lighthouses

variable (inner : lib.Inner)

theorem lighthouses_openPacket (hdr : Header) (headerBytes body : Bytes) :
    (openPacket lib inner hdr headerBytes body).1.lighthouses = inner.lighthouses := by
  rcases openPacket_spec inner hdr headerBytes body with same | ⟨_, _, _, _, _, same, _⟩ <;> rw [same]

theorem lighthouses_handleLighthouse (body : Bytes) :
    (handleLighthouse lib inner body).1.lighthouses = inner.lighthouses := by
  unfold handleLighthouse
  dsimp only
  repeat' split
  all_goals rfl

theorem lighthouses_handleHandshake (hdr : Header) (body : Bytes) (source : SocketAddr) (ambient : Ambient) :
    (handleHandshake lib inner hdr body source ambient).1.lighthouses = inner.lighthouses := by
  unfold handleHandshake
  split
  · unfold handleStage0
    repeat' split
    all_goals rfl
  · unfold handleStage2
    dsimp only
    repeat' split
    all_goals rfl

theorem lighthouses_handleMessage (hdr : Header) (headerBytes body : Bytes) :
    (handleMessage lib inner hdr headerBytes body).1.lighthouses = inner.lighthouses := by
  rw [← lighthouses_openPacket inner hdr headerBytes body]
  unfold handleMessage
  split <;> next opened => rw [opened]

theorem lighthouses_handleLighthousePacket (hdr : Header) (headerBytes body : Bytes) :
    (handleLighthousePacket lib inner hdr headerBytes body).1.lighthouses = inner.lighthouses := by
  rw [← lighthouses_openPacket inner hdr headerBytes body]
  unfold handleLighthousePacket
  split
  next opened => rw [opened, lighthouses_handleLighthouse]
  next opened => rw [opened]

theorem lighthouses_handleDatagram (datagram : Bytes) (source : SocketAddr) (ambient : Ambient) :
    (handleDatagram lib inner datagram source ambient).1.lighthouses = inner.lighthouses := by
  unfold handleDatagram
  split
  · rfl
  · dsimp only
    split
    · exact lighthouses_handleHandshake inner _ _ source ambient
    split
    · exact lighthouses_handleMessage inner _ _ _
    split
    · exact lighthouses_handleLighthousePacket inner _ _ _
    · rfl

theorem lighthouses_step (event : SessionEvent) :
    ((session lib).step inner event).1.lighthouses = inner.lighthouses := by
  cases event with
  | datagram bytes source ambient => exact lighthouses_handleDatagram inner bytes source ambient
  | sendTyped v type_ payload =>
    change (sendTyped lib inner v type_ payload).1.lighthouses = inner.lighthouses
    rcases sendTyped_cases inner v type_ payload with same | ⟨_, _, _, _, same⟩ <;> rw [same]
  | openHandshake v remote waiter ambient =>
    change (openHandshake lib inner v remote waiter ambient).1.lighthouses = inner.lighthouses
    unfold openHandshake
    dsimp only
    repeat' split
    all_goals rfl
  | recv =>
    change (recv lib inner).1.lighthouses = inner.lighthouses
    unfold recv
    split <;> rfl
  | resolveKnown | awaitLighthouse | peerInfo => rfl

theorem lighthouses_calls (state : Callers lib) (events : List CallersEvent) :
    ((callers lib).exec state events).inner.lighthouses = state.inner.lighthouses := by
  obtain ⟨sections, same⟩ := inner_run state events
  rw [same]
  refine (session lib).state_invariant (fun inner => inner.lighthouses = state.inner.lighthouses) ?_ rfl sections
  intro inner event kept
  rw [lighthouses_step, kept]

end Lighthouses

/-! ## Where a step takes a call -/

section Steps

variable {state : Callers lib} {i : ℕ} {caller : Caller}

/-- A call goes on by a section of its own, or stays where it is. -/
theorem advance_cases (state : Callers lib) (i : ℕ) (caller : Caller) (ambient : Ambient) :
    (advance lib state i caller ambient).1 = state ∨
      ∃ stage inner effects, (advance lib state i caller ambient).1 = (state.proceed i stage inner effects).1 := by
  unfold advance
  dsimp only
  repeat' split
  all_goals first | exact .inl rfl | exact .inr ⟨_, _, _, rfl⟩

/-- What a call keeps whatever it hears. -/
def HeardKeeps (P : Stage → Prop) : Prop := ∀ stage effect, P stage → P (stage.hear effect)

variable {P : Stage → Prop}

theorem HeardKeeps.delivered (keeps : HeardKeeps P) {callers : List Caller} (here : callers[i]? = some caller)
    (held : P caller.stage) (effects : List Effect) :
    ∃ stage, (effects.foldl deliver callers)[i]? = some { caller with stage } ∧ P stage := by
  induction effects generalizing callers caller with
  | nil => exact ⟨caller.stage, here, held⟩
  | cons effect rest ih =>
    rw [List.foldl_cons, deliver]
    split
    · exact ih here held
    next waiter addressed =>
      have told := (pointwise_updateStage callers waiter fun caller => caller.stage.hear effect).get here
      obtain ⟨stage, now, held⟩ := ih told (by
        dsimp only
        split
        · exact keeps _ effect held
        · exact held)
      exact ⟨stage, now, held⟩

/-- Where a step takes call `i`: by a section of its own, by the end of a wait, or by what it hears. -/
theorem HeardKeeps.step (keeps : HeardKeeps P) (here : state.callers[i]? = some caller) (held : P caller.stage)
    (event : CallersEvent) (timedOut : event = .timeOut i → P caller.timeOut)
    (advanced : ∀ ambient, event = .advance i ambient →
      ∃ stage, (advance lib state i caller ambient).1.callers[i]? = some { caller with stage } ∧ P stage) :
    ∃ stage, ((callers lib).step state event).1.callers[i]? = some { caller with stage } ∧ P stage := by
  cases event with
  | call connects vpnAddr =>
    have old : i < state.callers.length := (List.getElem?_eq_some_iff.mp here).1
    exact ⟨caller.stage, (List.getElem?_append_left old).trans here, held⟩
  | timeOut j =>
    have now := (pointwise_updateStage state.callers j Caller.timeOut).get here
    refine ⟨_, now, ?_⟩
    split
    next same => exact timedOut (congrArg CallersEvent.timeOut same)
    · exact held
  | advance j ambient =>
    rcases there : state.callers[j]? with _ | mover
    · simp only [callers, there]
      exact ⟨caller.stage, here, held⟩
    simp only [callers, there]
    by_cases own : j = i
    · subst own
      obtain rfl := Option.some.inj (here.symm.trans there)
      exact advanced ambient rfl
    · rcases advance_cases state j mover ambient with same | ⟨stage, inner, effects, same⟩
      · rw [same]
        exact ⟨caller.stage, here, held⟩
      · rw [same]
        obtain ⟨stage', heard, held⟩ := keeps.delivered here held effects
        have now := (pointwise_updateStage (effects.foldl deliver state.callers) j fun _ => stage).get heard
        rw [if_neg own] at now
        exact ⟨stage', now, held⟩
  | other task => exact keeps.delivered here held _

theorem still_called_step (here : state.callers[i]? = some caller) (event : CallersEvent) :
    ∃ stage, ((callers lib).step state event).1.callers[i]? = some { caller with stage } := by
  have keeps : HeardKeeps fun _ => True := fun _ _ => id
  obtain ⟨stage, now, -⟩ := keeps.step here trivial event (fun _ => trivial) fun ambient _ => by
    rcases advance_cases state i caller ambient with same | ⟨stage, inner, effects, same⟩
    · exact ⟨caller.stage, by rw [same, here], trivial⟩
    · exact ⟨stage, by rw [same, get_proceed here], trivial⟩
  exact ⟨stage, now⟩

theorem still_called (here : state.callers[i]? = some caller) (events : List CallersEvent) :
    ∃ stage, ((callers lib).exec state events).callers[i]? = some { caller with stage } := by
  refine (callers lib).state_invariant (fun state => ∃ stage, state.callers[i]? = some { caller with stage }) ?_
    ⟨caller.stage, here⟩ events
  rintro state event ⟨stage, here⟩
  obtain ⟨stage', now⟩ := still_called_step here event
  exact ⟨stage', now⟩

end Steps

/-! ## How far a call has to go -/

namespace Stage

/-- The call waits for a channel through which nothing has come. -/
def blocked : Stage → Bool
  | .asking .nothing [] => true
  | .awaiting .nothing => true
  | _ => false

/-- What only a call of `resolve` by itself comes to. -/
def isResolved : Stage → Bool
  | .resolved _ => true
  | _ => false

/-- The sections that a call may still have before it, on a session with `n` lighthouses. -/
def ahead (n : ℕ) : Stage → ℕ
  | .begun => n + 5
  | .unknown => n + 4
  | .asking _ lighthouses => lighthouses.length + 3
  | .opening _ => 2
  | .awaiting _ => 1
  | .resolved _ | .returned _ => 0

theorem ahead_eq_zero {n : ℕ} {stage : Stage} : stage.ahead n = 0 ↔ stage.finished = true := by
  cases stage <;> simp [ahead, finished]

@[simp] theorem ahead_hear (n : ℕ) (stage : Stage) (effect : Effect) : (stage.hear effect).ahead n = stage.ahead n := by
  rcases stage.waiting_cases with ⟨lighthouses, rfl⟩ | rfl | ⟨-, -, deaf⟩
  · cases effect <;> rfl
  · cases effect <;> rfl
  · rw [deaf]

theorem not_blocked_hear {stage : Stage} (free : stage.blocked = false) (effect : Effect) :
    (stage.hear effect).blocked = false := by
  rcases stage.waiting_cases with ⟨_ | ⟨lighthouse, rest⟩, rfl⟩ | rfl | ⟨-, -, deaf⟩
  · cases free
  · cases effect <;> rfl
  · cases free
  · rw [deaf, free]

theorem not_resolved_hear {stage : Stage} (unresolved : stage.isResolved = false) (effect : Effect) :
    (stage.hear effect).isResolved = false := by
  rcases stage.waiting_cases with ⟨lighthouses, rfl⟩ | rfl | ⟨-, -, deaf⟩
  · cases effect <;> rfl
  · cases effect <;> rfl
  · rw [deaf, unresolved]

end Stage

theorem not_resolved_resume {caller : Caller} (connects : caller.connects = true) (result : Res SocketAddr) :
    (caller.resume result).isResolved = false := by
  unfold Caller.resume
  rw [if_pos connects]
  cases result <;> rfl

theorem ahead_resume (n : ℕ) (caller : Caller) (result : Res SocketAddr) : (caller.resume result).ahead n ≤ 2 := by
  unfold Caller.resume
  split
  · cases result <;> simp [Stage.ahead]
  · simp [Stage.ahead]

theorem ahead_resume_error (n : ℕ) (caller : Caller) (failure : Failure Error) :
    (caller.resume (.error failure)).ahead n = 0 := by
  unfold Caller.resume
  split <;> rfl

/-- The five seconds end a wait. -/
theorem ahead_timeOut (n : ℕ) (caller : Caller) :
    caller.timeOut.blocked = false ∧ caller.timeOut.ahead n ≤ caller.stage.ahead n := by
  unfold Caller.timeOut
  split
  · have none := ahead_resume_error n caller (.err (.peerUnreachable caller.vpnAddr))
    refine ⟨?_, none ▸ Nat.zero_le _⟩
    unfold Caller.resume
    split <;> rfl
  · exact ⟨rfl, Nat.zero_le _⟩
  next waits peer =>
    refine ⟨?_, le_refl _⟩
    unfold Stage.blocked
    split
    next same => exact absurd same waits
    next same => exact absurd same peer
    · rfl

/-! ## A section of the call -/

section Sections

variable {state : Callers lib} {i n : ℕ} {caller : Caller}

/-- The section of call `i` that the event asks for runs to its end. -/
def endsSection (i : ℕ) (state : Callers lib) : CallersEvent → Bool
  | .advance j ambient =>
    j = i && match state.callers[i]?.map Caller.stage with
      | some (.opening _) => (allocateIndex lib state.inner ambient.subsecNanos).isSome
      | _ => true
  | _ => false

variable (n) in
/-- A later stage of the call. -/
structure Further (caller : Caller) (stage : Stage) : Prop where
  lower : stage.ahead n < caller.stage.ahead n
  unresolved : caller.connects = true → stage.isResolved = false

theorem further_resume {result : Res SocketAddr} (more : 2 < caller.stage.ahead n) :
    Further n caller (caller.resume result) :=
  ⟨lt_of_le_of_lt (ahead_resume n caller result) more, fun connects => not_resolved_resume connects result⟩

theorem further_resume_error {failure : Failure Error} (more : 0 < caller.stage.ahead n) :
    Further n caller (caller.resume (.error failure)) :=
  ⟨ahead_resume_error n caller failure ▸ more, fun connects => not_resolved_resume connects _⟩

theorem further_proceed (here : state.callers[i]? = some caller) {next : Stage} (inner : lib.Inner)
    (effects : List Effect) (further : Further n caller next) :
    ∃ stage, (state.proceed i next inner effects).1.callers[i]? = some { caller with stage } ∧
      Further n caller stage :=
  ⟨next, get_proceed here next inner effects, further⟩

/-- The section that opens a handshake only fails to end where `allocate_index` does. -/
theorem openHandshake_unended_iff {inner : lib.Inner} {v : IpAddr} {remote : SocketAddr} {ambient : Ambient} :
    (openHandshake lib inner v remote i ambient).2.1 = none ↔ allocateIndex lib inner ambient.subsecNanos = none := by
  constructor
  · intro unended
    unfold openHandshake at unended
    dsimp only at unended
    split at unended
    next missing => exact missing
    · split at unended <;> cases unended
  · intro missing
    unfold openHandshake
    dsimp only
    split
    · rfl
    next index allocated => cases missing.symm.trans allocated

/-- A section brings a call further, if it is not blocked or over and the section ends. -/
theorem advance_further (here : state.callers[i]? = some caller) (few : state.inner.lighthouses.length ≤ n)
    (ambient : Ambient) :
    (∃ stage, (advance lib state i caller ambient).1.callers[i]? = some { caller with stage } ∧
        Further n caller stage) ∨
      (advance lib state i caller ambient).1 = state ∧ (caller.stage.blocked = true ∨
        caller.stage.finished = true ∨ endsSection i state (.advance i ambient) = false) := by
  unfold advance
  dsimp only
  split
  next begun =>
    left
    split
    · refine further_proceed here _ _ (further_resume ?_)
      rw [begun, Stage.ahead]
      omega
    · refine further_proceed here _ _ ⟨?_, fun _ => rfl⟩
      rw [begun]
      exact Nat.lt_succ_self (n + 4)
  next unknown =>
    refine .inl (further_proceed here _ _ ⟨?_, fun _ => rfl⟩)
    rw [unknown]
    exact Nat.succ_lt_succ (Nat.lt_succ_of_le (Nat.add_le_add_right few 2))
  next heard lighthouse rest asking =>
    left
    have asked : Further n caller (.asking heard rest) := by
      refine ⟨?_, fun _ => rfl⟩
      rw [asking]
      exact Nat.lt_succ_self _
    split
    · exact further_proceed here _ _ asked
    · exact further_proceed here _ _ asked
    · refine further_proceed here _ _ (further_resume_error ?_)
      rw [asking]
      exact Nat.succ_pos _
  next addrs answered =>
    refine .inl (further_proceed here _ _ (further_resume ?_))
    rw [answered]
    exact Nat.lt_succ_self 2
  next dropped =>
    refine .inl (further_proceed here _ _ (further_resume_error ?_))
    rw [dropped]
    exact Nat.succ_pos _
  next remote opening =>
    split
    next ran =>
      have missing := openHandshake_unended_iff.mp (congrArg (·.2.1) ran)
      refine .inr ⟨rfl, .inr (.inr ?_)⟩
      simp only [endsSection, here, opening, Option.map_some, missing, Option.isSome_none, Bool.and_false]
    · refine .inl (further_proceed here _ _ ⟨?_, fun _ => rfl⟩)
      rw [opening]
      exact Nat.succ_pos 1
    · refine .inl (further_proceed here _ _ ⟨?_, fun _ => rfl⟩)
      rw [opening]
      exact Nat.lt_succ_self 1
  next woken =>
    refine .inl (further_proceed here _ _ ⟨?_, fun _ => rfl⟩)
    rw [woken]
    exact Nat.succ_pos 0
  next dropped =>
    refine .inl (further_proceed here _ _ ⟨?_, fun _ => rfl⟩)
    rw [dropped]
    exact Nat.succ_pos 0
  next waits => exact .inr ⟨rfl, .inl (by rw [waits]; rfl)⟩
  next waits => exact .inr ⟨rfl, .inl (by rw [waits]; rfl)⟩
  next ended => exact .inr ⟨rfl, .inr (.inl (by rw [ended]; rfl))⟩
  next ended => exact .inr ⟨rfl, .inr (.inl (by rw [ended]; rfl))⟩

/-- A section that ends brings a call that is free further. -/
theorem ahead_section (here : state.callers[i]? = some caller) (few : state.inner.lighthouses.length ≤ n)
    {event : CallersEvent} (free : caller.stage.blocked = false) (ends : endsSection i state event = true) :
    ∃ stage, ((callers lib).step state event).1.callers[i]? = some { caller with stage } ∧
      stage.ahead n ≤ caller.stage.ahead n - 1 := by
  cases event with
  | call | timeOut | other => cases ends
  | advance j ambient =>
    obtain rfl : j = i := by simpa using (Bool.and_eq_true _ _).mp ends |>.1
    simp only [callers, here]
    rcases advance_further here few ambient with ⟨stage, now, further⟩ | ⟨same, blocked | ended | unended⟩
    · exact ⟨stage, now, Nat.le_sub_one_of_lt further.lower⟩
    · cases free.symm.trans blocked
    · rw [same]
      refine ⟨caller.stage, here, ?_⟩
      rw [Stage.ahead_eq_zero.mpr ended]
    · cases unended.symm.trans ends

/-- No step sets a call back. -/
theorem ahead_step (here : state.callers[i]? = some caller) (few : state.inner.lighthouses.length ≤ n)
    (event : CallersEvent) :
    ∃ stage, ((callers lib).step state event).1.callers[i]? = some { caller with stage } ∧
      stage.ahead n ≤ caller.stage.ahead n := by
  have keeps : HeardKeeps fun stage => stage.ahead n ≤ caller.stage.ahead n := by
    intro stage effect fewer
    rwa [Stage.ahead_hear]
  refine keeps.step here (le_refl _) event (fun _ => (ahead_timeOut n caller).2) fun ambient _ => ?_
  rcases advance_further here few ambient with ⟨stage, now, further⟩ | ⟨same, -⟩
  · exact ⟨stage, now, le_of_lt further.lower⟩
  · exact ⟨caller.stage, by rw [same, here], le_refl _⟩

/-- A call of `connect` never becomes one of `resolve`. -/
theorem unresolved_step (here : state.callers[i]? = some caller) (connects : caller.connects = true)
    (unresolved : caller.stage.isResolved = false) (event : CallersEvent) :
    ∃ stage, ((callers lib).step state event).1.callers[i]? = some { caller with stage } ∧
      stage.isResolved = false := by
  have keeps : HeardKeeps fun stage => stage.isResolved = false := fun _ effect held =>
    Stage.not_resolved_hear held effect
  refine keeps.step here unresolved event (fun _ => ?_) fun ambient _ => ?_
  · unfold Caller.timeOut
    split
    · exact not_resolved_resume connects _
    · rfl
    · exact unresolved
  · rcases advance_further here (le_refl _) ambient with ⟨stage, now, further⟩ | ⟨same, -⟩
    · exact ⟨stage, now, further.unresolved connects⟩
    · exact ⟨caller.stage, by rw [same, here], unresolved⟩

/-- A call that is free stays so until a section of it ends. -/
theorem free_step (here : state.callers[i]? = some caller) {event : CallersEvent}
    (free : caller.stage.blocked = false) (unended : endsSection i state event = false) :
    ∃ stage, ((callers lib).step state event).1.callers[i]? = some { caller with stage } ∧ stage.blocked = false := by
  have keeps : HeardKeeps fun stage => stage.blocked = false := fun _ effect held =>
    Stage.not_blocked_hear held effect
  refine keeps.step here free event (fun _ => (ahead_timeOut 0 caller).1) ?_
  rintro ambient rfl
  -- only the search for an index does not end
  rcases opening : caller.stage with _ | _ | _ | remote | _ | _ | _
  case opening =>
    have missing : allocateIndex lib state.inner ambient.subsecNanos = none := by
      simpa [endsSection, here, opening] using unended
    have unended := @openHandshake_unended_iff lib i state.inner caller.vpnAddr remote ambient |>.mpr missing
    simp only [advance, opening]
    split
    · exact ⟨caller.stage, here, free⟩
    next ran => cases (congrArg (·.2.1) ran).symm.trans unended
    next ran => cases (congrArg (·.2.1) ran).symm.trans unended
  all_goals simp [endsSection, here, opening] at unended

/-- The five seconds set a call free. -/
theorem free_timeOut (here : state.callers[i]? = some caller) :
    ∃ stage, ((callers lib).step state (.timeOut i)).1.callers[i]? = some { caller with stage } ∧
      stage.blocked = false := by
  have now := (pointwise_updateStage state.callers i Caller.timeOut).get here
  rw [if_pos rfl] at now
  exact ⟨_, now, (ahead_timeOut 0 caller).1⟩

end Sections

/-! ## Every run -/

section Run

/-- The five seconds of a wait of call `i` are over. -/
def CallersEvent.frees (i : ℕ) : CallersEvent → Bool
  | .timeOut j => j = i
  | _ => false

/-- What call `i` has before it. -/
def Callers.ahead (state : Callers lib) (n i : ℕ) : ℕ :=
  (state.callers[i]?.map fun caller => caller.stage.ahead n).getD 0

theorem Callers.ahead_of_get {state : Callers lib} {i : ℕ} {caller : Caller} (here : state.callers[i]? = some caller)
    (n : ℕ) : state.ahead n i = caller.stage.ahead n := by
  rw [Callers.ahead, here]
  rfl

theorem call_descends (caller : Caller) (n i : ℕ) :
    (callers lib).Descends (CallersEvent.frees i) (endsSection i)
      (fun state => state.inner.lighthouses.length ≤ n ∧ ∃ stage, state.callers[i]? = some { caller with stage })
      (fun state => ∃ stage, state.callers[i]? = some { caller with stage } ∧ stage.blocked = false)
      (fun state => state.ahead n i) where
  kept := by
    rintro state event ⟨few, stage, here⟩
    obtain ⟨stage', now⟩ := still_called_step here event
    have same := lighthouses_calls state [event]
    exact ⟨same ▸ few, stage', now⟩
  falls := by
    rintro state event ⟨few, stage, here⟩
    obtain ⟨stage', now, fewer⟩ := ahead_step here few event
    rwa [Callers.ahead_of_get here, Callers.ahead_of_get now]
  freed := by
    rintro state event ⟨-, stage, here⟩ frees
    cases event with
    | timeOut j =>
      obtain rfl : j = i := by simpa [CallersEvent.frees] using frees
      obtain ⟨stage', now, free⟩ := free_timeOut here
      exact ⟨stage', now, free⟩
    | call | advance | other => cases frees
  stays := by
    rintro state event - ⟨stage, here, free⟩ unended
    obtain ⟨stage', now, free⟩ := free_step here free unended
    exact ⟨stage', now, free⟩
  lower := by
    rintro state event ⟨few, -⟩ ⟨stage, here, free⟩ ends
    obtain ⟨stage', now, lower⟩ := ahead_section here few free ends
    rwa [Callers.ahead_of_get here, Callers.ahead_of_get now]

/-- Whatever else goes on, a call of `connect` or `resolve` has returned when it has taken as many turns as it has
sections before it: in a turn the five seconds of its wait pass, if it waits, and a section of it runs to its end. For
a call that begins these are five and one for each lighthouse. -/
theorem every_call_returns (state : Callers lib) (i : ℕ) (caller : Caller) (made : state.callers[i]? = some caller)
    (more : List CallersEvent)
    (enough : caller.stage.ahead state.inner.lighthouses.length ≤
      (callers lib).turns (CallersEvent.frees i) (endsSection i) false state more) :
    ∃ stage, ((callers lib).exec state more).callers[i]? = some { caller with stage } ∧ stage.finished = true := by
  have descends := @call_descends lib caller state.inner.lighthouses.length i
  rw [← Callers.ahead_of_get made] at enough
  have none := descends.exhausted ⟨le_refl _, caller.stage, made⟩ more enough
  obtain ⟨stage, now⟩ := still_called made more
  rw [Callers.ahead_of_get now] at none
  exact ⟨stage, now, Stage.ahead_eq_zero.mp none⟩

end Run

namespace TestNetwork

/-- Host A has begun to connect to host B, whose address it knows. -/
def begunA : Callers network :=
  (callers network).exec (callersA [(vpn 2, endpoint 2)]) [.call true (vpn 2)]

/-- Nobody answers, and another host opens a tunnel meanwhile. -/
def turnsRun : List CallersEvent :=
  .advance 0 (ambient 1) :: .other (.datagram stage0Datagram (endpoint 2) (ambient 3)) ::
    (List.replicate 5 [.timeOut 0, .advance 0 (ambient 1)]).flatten

end TestNetwork

open TestNetwork in
/-- Host A's call returns all the same. -/
theorem unanswered_call_returns :
    ∃ stage, ((callers network).exec begunA turnsRun).callers[0]? = some ⟨true, vpn 2, stage⟩ ∧
      stage.finished = true :=
  every_call_returns begunA 0 ⟨true, vpn 2, .begun⟩ (by decide +kernel) turnsRun (by decide +kernel)

end Nebula
