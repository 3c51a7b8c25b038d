import Nebula.Firewall.Ownership

/-! # Concurrent calls of the firewall

`evaluate` takes its locks one at a time: the snapshot under the read lock of the ruleset, the lookup
block under the lock of the table, and the final record under the same lock again. Between them other
calls and reloads may run. A run is any sequence of such steps; the calls stay in the state with the
snapshot they took, so that a flow can be traced to the call that vouches for it.
-/

namespace Nebula

open Rust Machine

namespace Firewall

/-- The arguments of a call of `evaluate` and what it has read. -/
structure Evaluation where
  now : Instant
  packet : Packet
  incoming : Bool
  remote : PeerIdentity
  snapshot : VersionedRules

inductive Phase where
  /-- The snapshot is taken and the lookup block comes next. -/
  | looking
  /-- No flow carries the packet, the checks have passed, and the flow is still to be recorded. -/
  | recording
  | returned (answer : Exec (Except DropReason Unit))
deriving DecidableEq

structure Running where
  call : Evaluation
  phase : Phase

/-- A firewall and the calls made to it, by number. -/
structure Shared where
  firewall : Firewall
  calls : HashMap ℕ Running

/-- One atomic step of one call, or a reload. -/
inductive Action where
  | snapshot (id : ℕ) (now : Instant) (packet : Packet) (incoming : Bool) (remote : PeerIdentity)
  | lookup (id : ℕ)
  | record (id : ℕ)
  | reload (rules : RuleSet)

namespace Shared

def start (fw : Firewall) : Shared := ⟨fw, .empty⟩

/-- The call `id` leaves a section of the table and goes on with `phase`. -/
def advance (s : Shared) (id : ℕ) (call : Evaluation) (conntrack : Mutex Conntrack) (phase : Phase) : Shared where
  firewall := { s.firewall with conntrack }
  calls := s.calls.insert id ⟨call, phase⟩

section Steps

variable (contains : Contains) (latest : Instant)

/-- What follows the lookup block: the call returns, or the checks let it record its flow. -/
def afterLookup (fw : Firewall) (call : Evaluation) : Exec Bool → Phase
  | .error cause => .returned (.error cause)
  | .ok true => .returned (.ok (.ok ()))
  | .ok false =>
    match check contains fw.routableNetworks call.snapshot.rules call.packet call.incoming call.remote with
    | .error reason => .returned (.ok (.error reason))
    | .ok () => .recording

/-- A step of a call that has not come to it does nothing; numbers of calls are used once. -/
def step (s : Shared) : Action → Shared
  | .snapshot id now packet incoming remote =>
    match s.calls.get id with
    | some _ => s
    | none =>
      { s with calls := s.calls.insert id ⟨⟨now, packet, incoming, remote, s.firewall.rules⟩, .looking⟩ }
  | .lookup id =>
    match s.calls.get id with
    | some ⟨call, .looking⟩ =>
      let (conntrack, found) := s.firewall.conntrack.locked
        (Firewall.lookup contains latest s.firewall.options call.snapshot call.packet call.remote call.now)
      s.advance id call conntrack (afterLookup contains s.firewall call found)
    | _ => s
  | .record id =>
    match s.calls.get id with
    | some ⟨call, .recording⟩ =>
      let (conntrack, recorded) := s.firewall.conntrack.locked
        (recordFlow latest s.firewall.options call.packet call.incoming call.snapshot.version call.now)
      s.advance id call conntrack (.returned (recorded.map fun _ => .ok ()))
    | _ => s
  | .reload rules => { s with firewall := s.firewall.reload rules }

def system : System Shared Action Unit where
  step s action := (s.step contains latest action, ())

/-- A call whose three steps run without interruption is a call of `evaluate`. -/
theorem uninterrupted (s : Shared) (id : ℕ) (unused : s.calls.get id = none) (now : Instant) (packet : Packet)
    (incoming : Bool) (remote : PeerIdentity) :
    (system contains latest).exec s [.snapshot id now packet incoming remote, .lookup id, .record id] =
      { firewall := (s.firewall.evaluate contains latest now packet incoming remote).1
        calls := s.calls.insert id ⟨⟨now, packet, incoming, remote, s.firewall.rules⟩,
          .returned (s.firewall.evaluate contains latest now packet incoming remote).2⟩ } := by
  have again (a b : Running) : (s.calls.insert id a).insert id b = s.calls.insert id b := by
    ext other
    simp only [HashMap.get_insert]
    split
    · rfl
    · rfl
  simp only [system, System.exec_cons, System.exec_nil, step, unused, HashMap.get_insert_self, evaluate, advance,
    again]
  rcases s.firewall.conntrack.locked (Firewall.lookup contains latest s.firewall.options s.firewall.rules packet
    remote now) with ⟨conntrack, cause | _ | _⟩
  · simp [afterLookup]
  · rcases checked : check contains s.firewall.routableNetworks s.firewall.rules.rules packet incoming remote with
      reason | _
    · simp [afterLookup, checked]
    · rcases recorded : conntrack.locked (recordFlow latest s.firewall.options packet incoming
        s.firewall.rules.version now) with ⟨conntrack', cause | _⟩
      · simp [afterLookup, checked, recorded, Except.map]
      · simp [afterLookup, checked, recorded, Except.map]
  · simp [afterLookup]

end Steps

end Shared

/-! ## A call with its caller

The caller has the call at hand, and takes it through its sections one at a time.
-/

/-- `evaluate` has read the clock and the ruleset. -/
def snapshot (fw : Firewall) (now : Instant) (packet : Packet) (incoming : Bool) (remote : PeerIdentity) : Running :=
  ⟨⟨now, packet, incoming, remote, fw.rules⟩, .looking⟩

section Proceed

variable (contains : Contains) (latest : Instant)

/-- The next section under the lock of the table. -/
def Running.proceed (fw : Firewall) (running : Running) : Firewall × Running :=
  match running with
  | ⟨call, .looking⟩ =>
    let (conntrack, found) := fw.conntrack.locked
      (lookup contains latest fw.options call.snapshot call.packet call.remote call.now)
    ({ fw with conntrack }, ⟨call, Shared.afterLookup contains fw call found⟩)
  | ⟨call, .recording⟩ =>
    let (conntrack, recorded) := fw.conntrack.locked
      (recordFlow latest fw.options call.packet call.incoming call.snapshot.version call.now)
    ({ fw with conntrack }, ⟨call, .returned (recorded.map fun _ => .ok ())⟩)
  | ⟨call, .returned answer⟩ => (fw, ⟨call, .returned answer⟩)

/-- A call that a firewall is shared for goes through the same sections. -/
theorem Shared.step_proceed (s : Shared) (id : ℕ) {running : Running} (found : s.calls.get id = some running) :
    (running.phase = .looking → s.step contains latest (.lookup id) =
        ⟨(running.proceed contains latest s.firewall).1,
          s.calls.insert id (running.proceed contains latest s.firewall).2⟩) ∧
      (running.phase = .recording → s.step contains latest (.record id) =
        ⟨(running.proceed contains latest s.firewall).1,
          s.calls.insert id (running.proceed contains latest s.firewall).2⟩) := by
  obtain ⟨call, phase⟩ := running
  constructor
  · rintro ⟨⟩
    simp only [step, found, Running.proceed, advance]
  · rintro ⟨⟩
    simp only [step, found, Running.proceed, advance]

/-- A section touches nothing but the table, and the call keeps what it has read. -/
theorem Running.proceed_frame (fw : Firewall) (running : Running) :
    (running.proceed contains latest fw).1.rules = fw.rules ∧
      (running.proceed contains latest fw).1.options = fw.options ∧
      (running.proceed contains latest fw).2.call = running.call := by
  obtain ⟨call, _ | _ | answer⟩ := running
  · exact ⟨rfl, rfl, rfl⟩
  · exact ⟨rfl, rfl, rfl⟩
  · exact ⟨rfl, rfl, rfl⟩

/-- A peer that owns the remote address is never refused for it. -/
theorem Running.answer_of_owner (fw : Firewall) {running : Running}
    (owned : running.call.remote.owns contains running.call.packet.remoteAddr = true)
    (open_ : running.phase ≠ .returned (.ok (.error .invalidRemoteIp))) :
    (running.proceed contains latest fw).2.phase ≠ .returned (.ok (.error .invalidRemoteIp)) := by
  obtain ⟨call, _ | _ | answer⟩ := running
  · unfold proceed
    dsimp only
    rcases fw.conntrack.locked _ with ⟨after, cause | (_ | _)⟩
    · exact nofun
    · dsimp only [Shared.afterLookup]
      split
      next reason failed =>
        rintro ⟨⟩
        rw [check, owned] at failed
        grind
      · exact nofun
    · exact nofun
  · unfold proceed
    dsimp only
    rcases fw.conntrack.locked _ with ⟨after, cause | _⟩
    · exact nofun
    · exact nofun
  · exact open_

end Proceed

namespace Shared

/-! ## Who vouches for a flow -/

/-- A call on the packet took a snapshot of this version, whose ruleset matches the packet in this direction
for the peer of the call. -/
def Vouched (contains : Contains) (calls : HashMap ℕ Running) (packet : Packet) (version : UInt16)
    (direction : Bool) : Prop :=
  ∃ id running, calls.get id = some running ∧ running.call.packet = packet ∧
    running.call.snapshot.version = version ∧
    running.call.snapshot.rules.matches contains packet direction running.call.remote = true

/-- The invariant of concurrent runs, over the rulesets there have been so far. -/
structure Vouches (contains : Contains) (history : List RuleSet) (s : Shared) : Prop where
  counted : s.firewall.rules.version.toNat + 1 = history.length
  current : history[s.firewall.rules.version.toNat]? = some s.firewall.rules.rules
  snapshots : ∀ id running, s.calls.get id = some running →
    history[running.call.snapshot.version.toNat]? = some running.call.snapshot.rules
  flows : ∀ packet entry, s.firewall.conntrack.value.conns.get packet = some entry →
    Vouched contains s.calls packet entry.rulesVersion entry.incoming
  recording : ∀ id running, s.calls.get id = some running → running.phase = .recording →
    running.call.snapshot.rules.matches contains running.call.packet running.call.incoming running.call.remote =
      true
  passed : ∀ id running, s.calls.get id = some running → running.phase = .returned (.ok (.ok ())) →
    ∃ direction, Vouched contains s.calls running.call.packet running.call.snapshot.version direction

section Invariant

variable {contains : Contains} {latest : Instant} {history : List RuleSet} {s : Shared} {id : ℕ}
  {call : Evaluation} {phase : Phase} {calls : HashMap ℕ Running} {packet : Packet} {version : UInt16}
  {direction : Bool}

/-- A call that goes on to another phase vouches as before. -/
theorem Vouched.advance (vouched : Vouched contains calls packet version direction)
    (found : calls.get id = some ⟨call, phase⟩) (next : Phase) :
    Vouched contains (calls.insert id ⟨call, next⟩) packet version direction := by
  obtain ⟨other, running, member, rest⟩ := vouched
  by_cases same : other = id
  · subst same
    obtain rfl := Option.some.inj (found.symm.trans member)
    exact ⟨other, _, HashMap.get_insert_self .., rest⟩
  · refine ⟨other, running, ?_, rest⟩
    rw [HashMap.get_insert_of_ne _ _ same]
    exact member

theorem Vouched.fresh (vouched : Vouched contains calls packet version direction) (unused : calls.get id = none)
    (running : Running) : Vouched contains (calls.insert id running) packet version direction := by
  obtain ⟨other, running', member, rest⟩ := vouched
  refine ⟨other, running', ?_, rest⟩
  rw [HashMap.get_insert_of_ne]
  · exact member
  · rintro rfl
    cases unused.symm.trans member

/-- A call goes on after a section that leaves only flows some call vouches for. -/
theorem Vouches.advance (held : Vouches contains history s) (found : s.calls.get id = some ⟨call, phase⟩)
    {conntrack : Mutex Conntrack} {next : Phase}
    (flows : ∀ packet entry, conntrack.value.conns.get packet = some entry →
      Vouched contains s.calls packet entry.rulesVersion entry.incoming)
    (recording : next = .recording →
      call.snapshot.rules.matches contains call.packet call.incoming call.remote = true)
    (passed : next = .returned (.ok (.ok ())) →
      ∃ direction, Vouched contains s.calls call.packet call.snapshot.version direction) :
    Vouches contains history (s.advance id call conntrack next) where
  counted := held.counted
  current := held.current
  snapshots := by
    exact HashMap.forall_get_insert (held.snapshots id ⟨call, phase⟩ found) held.snapshots
  flows := by
    intro packet entry tracked
    exact (flows packet entry tracked).advance found next
  recording := by
    exact HashMap.forall_get_insert recording held.recording
  passed := by
    refine HashMap.forall_get_insert ?_ ?_
    · intro returned
      obtain ⟨direction, vouched⟩ := passed returned
      exact ⟨direction, vouched.advance found next⟩
    · intro other running member returned
      obtain ⟨direction, vouched⟩ := held.passed other running member returned
      exact ⟨direction, vouched.advance found next⟩

theorem Vouches.snapshot (held : Vouches contains history s) (unused : s.calls.get id = none) (now : Instant)
    (packet : Packet) (incoming : Bool) (remote : PeerIdentity) :
    Vouches contains history
      { s with calls := s.calls.insert id ⟨⟨now, packet, incoming, remote, s.firewall.rules⟩, .looking⟩ } where
  counted := held.counted
  current := held.current
  snapshots := by
    exact HashMap.forall_get_insert held.current held.snapshots
  flows := by
    intro packet entry tracked
    exact (held.flows packet entry tracked).fresh unused _
  recording := by
    refine HashMap.forall_get_insert ?_ held.recording
    rintro ⟨⟩
  passed := by
    refine HashMap.forall_get_insert ?_ ?_
    · rintro ⟨⟩
    · intro other running member returned
      obtain ⟨direction, vouched⟩ := held.passed other running member returned
      exact ⟨direction, vouched.fresh unused _⟩

/-- A reload adds its ruleset to the history; the version counts it as long as it does not wrap. -/
theorem Vouches.reload (held : Vouches contains history s) (rules : RuleSet) (few : history.length < 65536) :
    Vouches contains (history ++ [rules]) { s with firewall := s.firewall.reload rules } := by
  have version : (s.firewall.rules.version + 1).toNat = history.length := by
    rw [UInt16.toNat_add, ← held.counted]
    apply Nat.mod_eq_of_lt
    change s.firewall.rules.version.toNat + 1 < 65536
    rw [held.counted]
    exact few
  refine ⟨?_, ?_, ?_, held.flows, held.recording, held.passed⟩
  · rw [Firewall.reload, version, List.length_append, List.length_singleton]
  · rw [Firewall.reload, version]
    exact List.getElem?_concat_length
  · intro id running member
    have known := held.snapshots id running member
    rw [List.getElem?_append_left (List.getElem?_eq_some_iff.mp known).1]
    exact known

/-- Recording a flow that some call vouches for. -/
theorem vouched_of_record {table after : Conntrack} {timeout : Duration} {now : Instant}
    (flows : ∀ packet entry, table.conns.get packet = some entry →
      Vouched contains calls packet entry.rulesVersion entry.incoming)
    (own : Vouched contains calls packet version direction)
    (recorded : table.record latest packet direction version now timeout = .ok after) (other : Packet)
    (entry : ConnEntry) (tracked : after.conns.get other = some entry) :
    Vouched contains calls other entry.rulesVersion entry.incoming := by
  rw [Conntrack.conns_of_record recorded] at tracked
  refine HashMap.forall_get_insert ?_ flows other entry tracked
  exact own

/-- The lookup block keeps a flow of its version, revalidates it for the peer of the call, or evicts it. -/
theorem Vouches.lookup (held : Vouches contains history s) (found : s.calls.get id = some ⟨call, .looking⟩) :
    Vouches contains history (s.step contains latest (.lookup id)) := by
  have purged (packet : Packet) (entry : ConnEntry)
      (tracked : (s.firewall.conntrack.value.purgeExpired call.now).conns.get packet = some entry) :
      Vouched contains s.calls packet entry.rulesVersion entry.incoming :=
    held.flows packet entry (Conntrack.get_of_purge tracked)
  rw [step, found]
  dsimp only
  cases sound : s.firewall.conntrack.poisoned with
  | true =>
    rw [Mutex.locked_of_poisoned sound]
    apply held.advance found held.flows
    · rintro ⟨⟩
    · rintro ⟨⟩
  | false =>
    rcases locked_lookup contains latest sound s.firewall.options call.snapshot call.packet call.remote call.now
      with ⟨table, passed, same⟩ | ⟨entry, tracked, admitted, ⟨-, same⟩ | ⟨after, recorded, same⟩⟩ <;> rw [same]
    · apply held.advance found
      · intro packet entry tracked
        exact purged packet entry (passed.get contains tracked).2
      · intro next
        unfold afterLookup at next
        dsimp only at next
        split at next
        · cases next
        · next checked => exact matches_of_check contains checked
      · intro next
        unfold afterLookup at next
        dsimp only at next
        split at next
        · cases next
        · cases next
    · apply held.advance found purged
      · rintro ⟨⟩
      · rintro ⟨⟩
    · have own : Vouched contains s.calls call.packet call.snapshot.version entry.incoming := by
        rcases admitted with version | matched
        · rw [← version]
          exact purged call.packet entry tracked
        · exact ⟨id, _, found, rfl, rfl, matched⟩
      apply held.advance found (vouched_of_record purged own recorded)
      · rintro ⟨⟩
      · intro _
        exact ⟨entry.incoming, own⟩

/-- The final record enters the flow with the version and the direction of the call itself. -/
theorem Vouches.record (held : Vouches contains history s) (found : s.calls.get id = some ⟨call, .recording⟩) :
    Vouches contains history (s.step contains latest (.record id)) := by
  have own : Vouched contains s.calls call.packet call.snapshot.version call.incoming :=
    ⟨id, _, found, rfl, rfl, held.recording id _ found rfl⟩
  rw [step, found]
  dsimp only
  cases sound : s.firewall.conntrack.poisoned with
  | true =>
    rw [Mutex.locked_of_poisoned sound]
    apply held.advance found held.flows
    · rintro ⟨⟩
    · rintro ⟨⟩
  | false =>
    rcases locked_record latest sound s.firewall.options call.packet call.incoming call.snapshot.version call.now
      with ⟨-, same⟩ | ⟨after, recorded, same⟩ <;> rw [same]
    · apply held.advance found
      · intro packet entry tracked
        exact held.flows packet entry tracked
      · rintro ⟨⟩
      · rintro ⟨⟩
    · apply held.advance found (vouched_of_record held.flows own recorded)
      · rintro ⟨⟩
      · intro _
        exact ⟨call.incoming, own⟩

end Invariant

/-! ## Over every interleaving -/

/-- The rulesets that the actions load, in order. -/
def reloaded (actions : List Action) : List RuleSet :=
  actions.filterMap fun action => match action with | .reload rules => some rules | _ => none

theorem vouches_run (contains : Contains) (latest : Instant) (rules : RuleSet) (options : FirewallOptions)
    (assigned unsafeNets : List IpNet) (actions : List Action) (few : (reloaded actions).length < 65536) :
    Vouches contains (rules :: reloaded actions)
      ((system contains latest).exec (start (new rules options assigned unsafeNets)) actions) := by
  induction actions using List.reverseRecOn with
  | nil =>
    refine ⟨rfl, rfl, ?_, ?_, ?_, ?_⟩
    · rintro id running ⟨⟩
    · rintro packet entry ⟨⟩
    · rintro id running ⟨⟩
    · rintro id running ⟨⟩
  | append_singleton actions action ih =>
    rw [reloaded, List.filterMap_append, List.length_append] at few
    have held := ih (lt_of_le_of_lt (Nat.le_add_right _ _) few)
    rw [System.exec_concat, reloaded, List.filterMap_append]
    change Vouches contains _ (step contains latest _ action)
    generalize (system contains latest).exec (start (new rules options assigned unsafeNets)) actions = s at held ⊢
    cases action with
    | reload next =>
      rw [← List.cons_append]
      exact held.reload next few
    | snapshot id now packet incoming remote =>
      rw [List.filterMap_cons_none rfl, List.filterMap_nil, List.append_nil, step]
      cases unused : s.calls.get id with
      | some running => exact held
      | none => exact held.snapshot unused now packet incoming remote
    | lookup id =>
      rw [List.filterMap_cons_none rfl, List.filterMap_nil, List.append_nil]
      rcases found : s.calls.get id with _ | ⟨call, _ | _ | answer⟩
      · rw [step, found]
        exact held
      · exact held.lookup found
      · rw [step, found]
        exact held
      · rw [step, found]
        exact held
    | record id =>
      rw [List.filterMap_cons_none rfl, List.filterMap_nil, List.append_nil]
      rcases found : s.calls.get id with _ | ⟨call, _ | _ | answer⟩
      · rw [step, found]
        exact held
      · rw [step, found]
        exact held
      · exact held.record found
      · rw [step, found]
        exact held

/-- In every interleaving with fewer than 65536 reloads, a call with the flow's version vouches for each flow;
and a call passes only if the ruleset of its version matches its packet for a peer presented under it. -/
theorem flows_vouched_and_passed_under_version (contains : Contains) (latest : Instant) (rules : RuleSet)
    (options : FirewallOptions) (assigned unsafeNets : List IpNet) (actions : List Action)
    (few : (reloaded actions).length < 65536) :
    let s := (system contains latest).exec (start (new rules options assigned unsafeNets)) actions
    (∀ packet entry, s.firewall.conntrack.value.conns.get packet = some entry →
        ∃ id running, s.calls.get id = some running ∧ running.call.packet = packet ∧
          running.call.snapshot.version = entry.rulesVersion ∧
          running.call.snapshot.rules.matches contains packet entry.incoming running.call.remote = true) ∧
      ∀ id running, s.calls.get id = some running → running.phase = .returned (.ok (.ok ())) →
        ∃ versionRules, (rules :: reloaded actions)[running.call.snapshot.version.toNat]? = some versionRules ∧
          running.call.snapshot.rules = versionRules ∧
          ∃ id' presented direction, s.calls.get id' = some presented ∧
            presented.call.packet = running.call.packet ∧
            presented.call.snapshot = running.call.snapshot ∧
            versionRules.matches contains running.call.packet direction presented.call.remote = true := by
  intro s
  have held := vouches_run contains latest rules options assigned unsafeNets actions few
  refine ⟨held.flows, ?_⟩
  intro id running member returned
  obtain ⟨direction, id', presented, member', same, version, matched⟩ := held.passed id running member returned
  have own := held.snapshots id running member
  have other := held.snapshots id' presented member'
  rw [version, own] at other
  have rules_eq : running.call.snapshot.rules = presented.call.snapshot.rules := Option.some.inj other
  refine ⟨_, own, rfl, id', presented, direction, member', same, ?_, ?_⟩
  · rcases presented with ⟨⟨_, _, _, _, ⟨_, _⟩⟩, _⟩
    cases version
    cases rules_eq
    rfl
  · rw [rules_eq]
    exact matched

/-- A call that took its snapshot before a reload to `closed` still enters the owner's flow after it. -/
def straddling : List Action :=
  [.snapshot 0 0 sharedFlow true owner, .reload closed, .lookup 0, .record 0]

/-- What it enters carries the old version, and the old ruleset matches it. -/
theorem straddling_passes_under_old_version :
    ∃ id presented direction,
      ((system prefixContains 1000).exec (start Firewall.firewall) straddling).calls.get id = some presented ∧
        presented.call.packet = sharedFlow ∧ presented.call.snapshot.version = 0 ∧
        presented.call.snapshot.rules.matches prefixContains sharedFlow direction presented.call.remote = true := by
  have summary : (((system prefixContains 1000).exec (start Firewall.firewall) straddling).calls.get 0).map
      (fun running => (running.call.packet, running.call.snapshot.version, running.phase)) =
        some (sharedFlow, 0, .returned (.ok (.ok ()))) := by decide +kernel
  obtain ⟨running, found, fields⟩ := Option.map_eq_some_iff.mp summary
  obtain ⟨packet_eq, version_eq, phase_eq⟩ :
      running.call.packet = sharedFlow ∧ running.call.snapshot.version = 0 ∧
        running.phase = .returned (.ok (.ok ())) := by simpa using fields
  obtain ⟨rules, -, own, id, presented, direction, member, packet_eq', snapshot_eq, matched⟩ :=
    (flows_vouched_and_passed_under_version prefixContains 1000 inboundAny ⟨10, 10, 10⟩ _ [] straddling
      (by decide)).2 0 running found phase_eq
  refine ⟨id, presented, direction, member, packet_eq'.trans packet_eq, ?_, ?_⟩
  · rw [snapshot_eq, version_eq]
  · rw [snapshot_eq, own, ← packet_eq]
    exact matched

end Shared

end Firewall

end Nebula
