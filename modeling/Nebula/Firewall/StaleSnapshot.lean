import Nebula.Firewall.Concurrent

/-! # Calls with an older ruleset

The snapshot of a call is compared with the version of a flow for equality only, and the final record does
not compare them at all. So a call that comes to the table with an older ruleset than the flow of its packet
has been recorded under evicts the flow, or puts its own version in the place of the newer one. It keeps
away from every newer flow exactly if it never meets one, and the flow it meets is another call's.
-/

namespace Nebula

open Rust Machine

namespace Firewall

namespace Shared

/-- The call whose section the step is, and the table that the section finds: the lookup block purges it
first. -/
def acting (s : Shared) : Action → Option (Evaluation × Conntrack)
  | .lookup id =>
    match s.calls.get id with
    | some ⟨call, .looking⟩ => some (call, s.firewall.conntrack.value.purgeExpired call.now)
    | _ => none
  | .record id =>
    match s.calls.get id with
    | some ⟨call, .recording⟩ => some (call, s.firewall.conntrack.value)
    | _ => none
  | .snapshot .. => none
  | .reload _ => none

section Step

variable (contains : Contains) (latest : Instant)

/-- The step leaves every flow of a newer version than its call's snapshot as it finds it. -/
def KeepsNewer (s : Shared) (action : Action) : Prop :=
  ∀ call table, s.acting action = some (call, table) →
    ∀ packet entry, table.conns.get packet = some entry → call.snapshot.version < entry.rulesVersion →
      (s.step contains latest action).firewall.conntrack.value.conns.get packet = some entry

/-- The call has to give its packet's flow an expiry that is no instant, in place of which it unwinds; the
lookup block does so only for a flow that its snapshot still admits. -/
def Unrepresentable (s : Shared) (action : Action) (call : Evaluation) (entry : ConnEntry) : Prop :=
  latest < call.now + timeoutFor s.firewall.options call.packet.protocol ∧
    ∀ id, action = .lookup id →
      call.snapshot.rules.matches contains call.packet entry.incoming call.remote = true

/-- The step's call finds its packet tracked under a newer version than its snapshot, and goes on. -/
def Overtaken (s : Shared) (action : Action) : Prop :=
  s.firewall.conntrack.poisoned = false ∧
    ∃ call table entry, s.acting action = some (call, table) ∧ table.conns.get call.packet = some entry ∧
      call.snapshot.version < entry.rulesVersion ∧ ¬ s.Unrepresentable contains latest action call entry

variable {contains latest} {s : Shared} {action : Action} {call : Evaluation} {table : Conntrack}

theorem keepsNewer_iff_of_acting (acts : s.acting action = some (call, table)) {after : Conntrack}
    (left : (s.step contains latest action).firewall.conntrack.value = after) :
    s.KeepsNewer contains latest action ↔
      ∀ packet entry, table.conns.get packet = some entry → call.snapshot.version < entry.rulesVersion →
        after.conns.get packet = some entry := by
  subst left
  constructor
  · intro keeps
    exact keeps call table acts
  · rintro keeps call' table' acts'
    cases acts.symm.trans acts'
    exact keeps

theorem overtaken_iff_of_acting (acts : s.acting action = some (call, table))
    (sound : s.firewall.conntrack.poisoned = false) :
    s.Overtaken contains latest action ↔
      ∃ entry, (table.conns.get call.packet = some entry ∧ call.snapshot.version < entry.rulesVersion) ∧
        ¬ s.Unrepresentable contains latest action call entry := by
  constructor
  · rintro ⟨-, call', table', entry, acts', tracked, newer, writes⟩
    cases acts.symm.trans acts'
    exact ⟨entry, ⟨tracked, newer⟩, writes⟩
  · rintro ⟨entry, ⟨tracked, newer⟩, writes⟩
    exact ⟨sound, call, table, entry, acts, tracked, newer, writes⟩

/-- A section that leaves the table as it finds it keeps everything; this is all it does where its call has
nothing to lose. -/
theorem keepsNewer_iff_of_untouched (acts : s.acting action = some (call, table))
    (left : (s.step contains latest action).firewall.conntrack.value = table)
    (safe : s.firewall.conntrack.poisoned = true ∨
      ∀ entry, table.conns.get call.packet = some entry → call.snapshot.version < entry.rulesVersion →
        s.Unrepresentable contains latest action call entry) :
    s.KeepsNewer contains latest action ↔ ¬ s.Overtaken contains latest action := by
  refine iff_of_true ((keepsNewer_iff_of_acting acts left).mpr fun packet entry tracked _ => tracked) ?_
  rintro ⟨sound, call', table', entry, acts', tracked, newer, writes⟩
  cases acts.symm.trans acts'
  rcases safe with poisoned | safe
  · cases poisoned.symm.trans sound
  · exact writes (safe entry tracked newer)

/-- A section that writes to its own packet only, and nothing newer there, loses exactly a newer flow of that
packet. -/
theorem keepsNewer_iff_of_write (acts : s.acting action = some (call, table)) {after : Conntrack}
    (left : (s.step contains latest action).firewall.conntrack.value = after)
    (sound : s.firewall.conntrack.poisoned = false)
    (others : ∀ other, other ≠ call.packet → after.conns.get other = table.conns.get other)
    (own : ∀ entry, call.snapshot.version < entry.rulesVersion → after.conns.get call.packet ≠ some entry)
    (writes : ∀ entry, table.conns.get call.packet = some entry →
      ¬ s.Unrepresentable contains latest action call entry) :
    s.KeepsNewer contains latest action ↔ ¬ s.Overtaken contains latest action := by
  rw [keepsNewer_iff_of_acting acts left, overtaken_iff_of_acting acts sound]
  constructor
  · rintro keeps ⟨entry, ⟨tracked, newer⟩, -⟩
    exact own entry newer (keeps call.packet entry tracked newer)
  · intro none other entry tracked newer
    rw [others other, tracked]
    rintro rfl
    exact none ⟨entry, ⟨tracked, newer⟩, writes entry tracked⟩

/-- A flow is recorded under the version of the call, which is not newer than itself. -/
theorem keepsNewer_iff_of_record (acts : s.acting action = some (call, table)) {after : Conntrack}
    {incoming : Bool} (left : (s.step contains latest action).firewall.conntrack.value = after)
    (sound : s.firewall.conntrack.poisoned = false)
    (recorded : table.record latest call.packet incoming call.snapshot.version call.now
      (timeoutFor s.firewall.options call.packet.protocol) = .ok after) :
    s.KeepsNewer contains latest action ↔ ¬ s.Overtaken contains latest action := by
  have conns := Conntrack.conns_of_record recorded
  refine keepsNewer_iff_of_write acts left sound ?_ ?_ ?_
  · intro other distinct
    rw [conns, HashMap.get_insert_of_ne _ _ distinct]
  · intro entry newer same
    rw [conns, HashMap.get_insert_self] at same
    cases same
    exact absurd newer (UInt16.lt_irrefl _)
  · rintro entry - ⟨unwinds, -⟩
    exact absurd unwinds (Nat.not_lt.mpr (Conntrack.fits_of_record recorded))

theorem keepsNewer_lookup_iff {id : ℕ} (found : s.calls.get id = some ⟨call, .looking⟩) :
    s.KeepsNewer contains latest (.lookup id) ↔ ¬ s.Overtaken contains latest (.lookup id) := by
  have acts : s.acting (.lookup id) = some (call, s.firewall.conntrack.value.purgeExpired call.now) := by
    simp only [acting, found]
  have left : (s.step contains latest (.lookup id)).firewall.conntrack =
      (s.firewall.conntrack.locked (Firewall.lookup contains latest s.firewall.options call.snapshot call.packet
        call.remote call.now)).1 := by
    simp only [step, found, advance]
  cases sound : s.firewall.conntrack.poisoned with
  | true =>
    rw [Mutex.locked_of_poisoned sound] at left
    refine iff_of_true ((keepsNewer_iff_of_acting acts (congrArg Mutex.value left)).mpr ?_) ?_
    · intro packet entry tracked _
      exact Conntrack.get_of_purge tracked
    · rintro ⟨sound', -⟩
      cases sound.symm.trans sound'
  | false =>
    rcases locked_lookup contains latest sound s.firewall.options call.snapshot call.packet call.remote call.now
      with ⟨table, passed, same⟩ | ⟨entry, tracked, admitted, ⟨unwinds, same⟩ | ⟨after, recorded, same⟩⟩ <;>
      rw [same] at left
    · cases passed with
      | untracked absent =>
        refine keepsNewer_iff_of_untouched acts (by rw [left]) (.inr ?_)
        intro entry tracked
        cases absent.symm.trans tracked
      | evicted entry tracked stale unmatched =>
        refine keepsNewer_iff_of_write acts (congrArg Mutex.value left) sound ?_ ?_ ?_
        · intro other distinct
          exact HashMap.get_remove_of_ne _ distinct
        · intro entry' newer same
          cases (HashMap.get_remove_self _ _).symm.trans same
        · rintro entry' tracked' ⟨-, matched⟩
          obtain rfl := Option.some.inj (tracked.symm.trans tracked')
          cases unmatched.symm.trans (matched id rfl)
    · refine keepsNewer_iff_of_untouched acts (by rw [left]) (.inr ?_)
      intro entry' tracked' newer
      obtain rfl := Option.some.inj (tracked.symm.trans tracked')
      rcases admitted with current | matched
      · rw [current] at newer
        exact absurd newer (UInt16.lt_irrefl _)
      · exact ⟨unwinds, fun _ _ => matched⟩
    · exact keepsNewer_iff_of_record acts (congrArg Mutex.value left) sound recorded

theorem keepsNewer_record_iff {id : ℕ} (found : s.calls.get id = some ⟨call, .recording⟩) :
    s.KeepsNewer contains latest (.record id) ↔ ¬ s.Overtaken contains latest (.record id) := by
  have acts : s.acting (.record id) = some (call, s.firewall.conntrack.value) := by
    simp only [acting, found]
  have left : (s.step contains latest (.record id)).firewall.conntrack =
      (s.firewall.conntrack.locked (recordFlow latest s.firewall.options call.packet call.incoming
        call.snapshot.version call.now)).1 := by
    simp only [step, found, advance]
  cases sound : s.firewall.conntrack.poisoned with
  | true =>
    rw [Mutex.locked_of_poisoned sound] at left
    exact keepsNewer_iff_of_untouched acts (by rw [left]) (.inl sound)
  | false =>
    rcases locked_record latest sound s.firewall.options call.packet call.incoming call.snapshot.version call.now
      with ⟨unwinds, same⟩ | ⟨after, recorded, same⟩ <;>
      rw [same] at left
    · refine keepsNewer_iff_of_untouched acts (by rw [left]) (.inr fun entry _ _ => ⟨unwinds, ?_⟩)
      rintro other ⟨⟩
    · exact keepsNewer_iff_of_record acts (congrArg Mutex.value left) sound recorded

/-- In every state a step keeps the newer flows exactly if its call is not overtaken. -/
theorem keepsNewer_iff (s : Shared) (action : Action) :
    s.KeepsNewer contains latest action ↔ ¬ s.Overtaken contains latest action := by
  have idle (none : s.acting action = none) :
      s.KeepsNewer contains latest action ↔ ¬ s.Overtaken contains latest action := by
    refine iff_of_true ?_ ?_
    · rintro call table acts
      cases none.symm.trans acts
    · rintro ⟨-, call, table, entry, acts, -⟩
      cases none.symm.trans acts
  cases action with
  | snapshot => exact idle rfl
  | reload => exact idle rfl
  | lookup id =>
    rcases found : s.calls.get id with _ | ⟨call, _ | _ | answer⟩
    · exact idle (by simp only [acting, found])
    · exact keepsNewer_lookup_iff found
    · exact idle (by simp only [acting, found])
    · exact idle (by simp only [acting, found])
  | record id =>
    rcases found : s.calls.get id with _ | ⟨call, _ | _ | answer⟩
    · exact idle (by simp only [acting, found])
    · exact idle (by simp only [acting, found])
    · exact keepsNewer_record_iff found
    · exact idle (by simp only [acting, found])

/-- What a section finds is in the table, less what its purge drops. -/
theorem get_of_acting (acts : s.acting action = some (call, table)) {packet : Packet} {entry : ConnEntry}
    (tracked : table.conns.get packet = some entry) :
    s.firewall.conntrack.value.conns.get packet = some entry := by
  unfold acting at acts
  split at acts
  · split at acts
    · cases acts
      exact Conntrack.get_of_purge tracked
    · cases acts
  · split at acts
    · cases acts
      exact tracked
    · cases acts
  · cases acts
  · cases acts

theorem exists_call_of_acting (acts : s.acting action = some (call, table)) :
    ∃ id running, s.calls.get id = some running ∧ running.call = call := by
  unfold acting at acts
  split at acts
  · split at acts
    · next found =>
      cases acts
      exact ⟨_, _, found, rfl⟩
    · cases acts
  · split at acts
    · next found =>
      cases acts
      exact ⟨_, _, found, rfl⟩
    · cases acts
  · cases acts
  · cases acts

end Step

/-- The steps of a run keep the newer flows exactly if none of their calls is overtaken. With fewer than 65536
reloads, a call is overtaken only by another one for the same packet that took its snapshot of a later
ruleset. -/
theorem newer_flows_kept_iff_never_overtaken (contains : Contains) (latest : Instant) (rules : RuleSet)
    (options : FirewallOptions) (assigned unsafeNets : List IpNet) (actions : List Action) :
    let reached := (system contains latest).exec (start (new rules options assigned unsafeNets))
    ((∀ before action after, actions = before ++ action :: after →
        (reached before).KeepsNewer contains latest action) ↔
      ∀ before action after, actions = before ++ action :: after →
        ¬ (reached before).Overtaken contains latest action) ∧
    ((reloaded actions).length < 65536 → ∀ before action after, actions = before ++ action :: after →
      (reached before).Overtaken contains latest action →
        ∃ call table id other, (reached before).acting action = some (call, table) ∧
          (reached before).calls.get id = some other ∧ other.call.packet = call.packet ∧
          call.snapshot.version < other.call.snapshot.version ∧
          (rules :: reloaded before)[call.snapshot.version.toNat]? = some call.snapshot.rules ∧
          (rules :: reloaded before)[other.call.snapshot.version.toNat]? = some other.call.snapshot.rules) := by
  intro reached
  refine ⟨?_, ?_⟩
  · exact forall₃_congr fun before action after => imp_congr_right fun _ => keepsNewer_iff (reached before) action
  · rintro few before action after rfl ⟨-, call, table, entry, acts, tracked, newer, -⟩
    have fewer : (reloaded before).length < 65536 := by
      rw [reloaded, List.filterMap_append, List.length_append] at few
      exact lt_of_le_of_lt (Nat.le_add_right _ _) few
    have held := vouches_run contains latest rules options assigned unsafeNets before fewer
    obtain ⟨id, other, found, same, version, -⟩ := held.flows call.packet entry (get_of_acting acts tracked)
    obtain ⟨_, running, own, rfl⟩ := exists_call_of_acting acts
    refine ⟨running.call, table, id, other, acts, found, same, ?_, held.snapshots _ running own,
      held.snapshots id other found⟩
    rw [version]
    exact newer

/-! ## A call that began before a reload -/

def guarded (rules : RuleSet) : Firewall :=
  new rules ⟨10, 10, 10⟩ [.host (.v4 (.new 10 0 0 1))] []

/-- Call 0 takes its snapshot, and after a reload call 1 enters the owner's flow. -/
def overtaking : List Action :=
  [.snapshot 0 0 sharedFlow true owner, .reload inboundAny, .snapshot 1 1 sharedFlow true owner, .lookup 1,
    .record 1]

/-- The owner's flow after the first ruleset, the run above and some more steps. -/
def flowAfter (rules : RuleSet) (more : List Action) : Option ConnEntry :=
  ((system prefixContains 1000).exec (start (guarded rules))
    (overtaking ++ more)).firewall.conntrack.value.conns.get sharedFlow

/-- What is answered to call 2, on the reply to the owner, after the run above and some more steps. -/
def answerAfter (rules : RuleSet) (more : List Action) : Option Phase :=
  (((system prefixContains 1000).exec (start (guarded rules))
    (overtaking ++ more ++ [.snapshot 2 2 sharedFlow false owner, .lookup 2])).calls.get 2).map Running.phase

/-- Under the ruleset it has read, which admits nothing, call 0 evicts the flow that call 1 has entered under
the new one, and the reply on it is dropped. Under one that admits the flow, it gives it the old version. -/
theorem older_call_evicts_newer_flow :
    ¬ ((system prefixContains 1000).exec (start (guarded closed)) overtaking).KeepsNewer prefixContains 1000
        (.lookup 0) ∧
      flowAfter closed [] = some ⟨11, true, 1⟩ ∧ flowAfter closed [.lookup 0] = none ∧
      answerAfter closed [] = some (.returned (.ok (.ok ()))) ∧
      answerAfter closed [.lookup 0] = some (.returned (.ok (.error .noMatchingRule))) ∧
      flowAfter inboundAny [] = some ⟨11, true, 1⟩ ∧ flowAfter inboundAny [.lookup 0] = some ⟨10, true, 0⟩ := by
  have evicted : flowAfter closed [.lookup 0] = none := by decide +kernel
  refine ⟨?_, by decide +kernel, evicted, by decide +kernel, by decide +kernel, by decide +kernel,
    by decide +kernel⟩
  have found : (((system prefixContains 1000).exec (start (guarded closed)) overtaking).acting (.lookup 0)).map
      (fun (call, table) => (call.snapshot.version, table.conns.get sharedFlow)) =
        some (0, some ⟨11, true, 1⟩) := by decide +kernel
  intro keeps
  obtain ⟨⟨call, table⟩, acts, fields⟩ := Option.map_eq_some_iff.mp found
  obtain ⟨version, tracked⟩ := Prod.mk.inj fields
  have kept := keeps call table acts sharedFlow ⟨11, true, 1⟩ tracked (by rw [version]; decide)
  unfold flowAfter at evicted
  rw [System.exec_concat] at evicted
  cases evicted.symm.trans kept

end Shared

end Firewall

end Nebula
