import Nebula.Firewall.Admission
import Nebula.Firewall.Rule.Meaning

/-! # What a reload revalidates

A flow is revalidated when its version differs from the ruleset's. The version has sixteen bits and
wraps, so a flow that sleeps through 65536 reloads wakes up with the version of a ruleset it was never
checked against. In every run in which no flow does, a packet passes only if the ruleset in force
matches it for a peer that was seen with it since the last reload.
-/

namespace Nebula

open Rust Machine

namespace Firewall

/-! ## Reloads in a run -/

def Call.isReload : Call → Bool
  | .reload _ => true
  | .evaluate _ _ _ _ => false

/-- The call evaluates `packet`. -/
def Call.On (packet : Packet) (call : Call) : Prop :=
  ∃ now incoming remote, call = .evaluate now packet incoming remote

def reloads (calls : List Call) : ℕ := calls.countP Call.isReload

/-- The ruleset after the calls, of a firewall that started with `rules`. -/
def inForce (rules : RuleSet) (calls : List Call) : RuleSet :=
  calls.foldl (fun rules call => match call with | .reload next => next | .evaluate _ _ _ _ => rules) rules

/-- `identity` was presented with `packet` in a call after the most recent reload. -/
def PresentedSinceReload (calls : List Call) (packet : Packet) (identity : PeerIdentity) : Prop :=
  ∃ earlier since, calls = earlier ++ since ∧ reloads since = 0 ∧
    ∃ now incoming, .evaluate now packet incoming identity ∈ since

/-- Between two successive calls on a packet, the second within the timeout of the first, the number of
reloads is not a positive multiple of 65536. -/
def NoFullTurn (options : FirewallOptions) (calls : List Call) : Prop :=
  ∀ before mid after packet now incoming remote now' incoming' remote',
    calls = before ++ .evaluate now packet incoming remote ::
      (mid ++ .evaluate now' packet incoming' remote' :: after) →
    (∀ call ∈ mid, ¬ call.On packet) → now' < now + timeoutFor options packet.protocol →
    65536 ∣ reloads mid → reloads mid = 0

section Reloads

variable {options : FirewallOptions} {rules : RuleSet} {calls more : List Call} {call : Call} {packet : Packet}
  {identity : PeerIdentity}

theorem reloads_append (calls more : List Call) : reloads (calls ++ more) = reloads calls + reloads more :=
  List.countP_append

theorem inForce_append (rules : RuleSet) (calls more : List Call) :
    inForce rules (calls ++ more) = inForce (inForce rules calls) more := List.foldl_append

/-- Only a reload changes the ruleset in force. -/
theorem inForce_of_reloads (none : reloads more = 0) : inForce rules more = rules := by
  induction more with
  | nil => rfl
  | cons call rest ih =>
    cases call with
    | evaluate now packet incoming remote => exact ih none
    | reload next => simp [reloads, Call.isReload] at none

theorem PresentedSinceReload.append (presented : PresentedSinceReload calls packet identity)
    (none : reloads more = 0) : PresentedSinceReload (calls ++ more) packet identity := by
  obtain ⟨earlier, since, rfl, quiet, now, incoming, member⟩ := presented
  refine ⟨earlier, since ++ more, List.append_assoc .., ?_, now, incoming, List.mem_append_left _ member⟩
  rw [reloads_append, quiet, none]

theorem presentedSinceReload_last (calls : List Call) (now : Instant) (packet : Packet) (incoming : Bool)
    (identity : PeerIdentity) :
    PresentedSinceReload (calls ++ [.evaluate now packet incoming identity]) packet identity :=
  ⟨calls, _, rfl, rfl, now, incoming, List.mem_singleton_self _⟩

/-- Whoever was presented since the last reload is the peer of this call or of an earlier one. -/
theorem PresentedSinceReload.before {now : Instant} {other : Packet} {incoming : Bool} {remote : PeerIdentity}
    (presented : PresentedSinceReload (calls ++ [.evaluate now other incoming remote]) packet identity) :
    identity = remote ∨ PresentedSinceReload calls packet identity := by
  obtain ⟨earlier, since, split, quiet, now', incoming', member⟩ := presented
  induction since using List.reverseRecOn with
  | nil => cases member
  | append_singleton front last _ =>
    rw [← List.append_assoc] at split
    obtain ⟨rfl, last_eq⟩ := List.append_inj' split rfl
    obtain rfl := List.singleton_inj.mp last_eq
    rcases List.mem_append.mp member with member | final
    · refine .inr ⟨earlier, front, rfl, ?_, now', incoming', member⟩
      rw [reloads_append] at quiet
      exact Nat.eq_zero_of_add_eq_zero_right quiet
    · cases List.mem_singleton.mp final
      exact .inl rfl

theorem NoFullTurn.of_append (apart : NoFullTurn options (calls ++ more)) : NoFullTurn options calls := by
  intro before mid after packet now incoming remote now' incoming' remote' split
  apply apart before mid (after ++ more) packet now incoming remote now' incoming' remote'
  rw [split, List.append_assoc, List.cons_append, List.append_assoc, List.cons_append]

/-- Fewer than 65536 reloads in all make no full turn. -/
theorem noFullTurn_of_few (few : reloads calls < 65536) (options : FirewallOptions) : NoFullTurn options calls := by
  intro before mid after packet now incoming remote now' incoming' remote' split _ _ turns
  have counted : reloads calls = reloads before + (reloads mid + reloads after) := by
    rw [split, reloads_append, ← List.singleton_append, reloads_append, reloads_append, ← List.singleton_append,
      reloads_append]
    simp [reloads, Call.isReload]
  omega

end Reloads

/-! ## Where a tracked flow comes from -/

/-- The flow goes back to the last call on its packet, and the ruleset that was in force then matched it for
a peer presented under that ruleset. -/
def Rooted (contains : Contains) (rules : RuleSet) (options : FirewallOptions) (calls : List Call)
    (packet : Packet) (entry : ConnEntry) : Prop :=
  ∃ before mid now incoming remote, calls = before ++ .evaluate now packet incoming remote :: mid ∧
    (∀ call ∈ mid, ¬ call.On packet) ∧ entry.expires = now + timeoutFor options packet.protocol ∧
    entry.rulesVersion = UInt16.ofNat (reloads before) ∧
    ∃ identity, (inForce rules before).matches contains packet entry.incoming identity = true ∧
      PresentedSinceReload (before ++ [.evaluate now packet incoming remote]) packet identity

/-- What every run keeps: the version counts the reloads, and every flow behind a sound lock is rooted. -/
structure Traced (contains : Contains) (rules : RuleSet) (options : FirewallOptions) (clock : Instant)
    (calls : List Call) (fw : Firewall) : Prop where
  rules_eq : fw.rules = ⟨UInt16.ofNat (reloads calls), inForce rules calls⟩
  options_eq : fw.options = options
  scheduled : fw.conntrack.value.Scheduled (fun packet => timeoutFor options packet.protocol) clock
  rooted : fw.conntrack.poisoned = false → ∀ packet entry, fw.conntrack.value.conns.get packet = some entry →
    Rooted contains rules options calls packet entry

section Step

variable {contains : Contains} {latest : Instant} {options : FirewallOptions} {rules : RuleSet}
  {calls : List Call} {packet other : Packet} {incoming : Bool} {remote : PeerIdentity} {clock now : Instant}
  {fw fw' : Firewall} {entry : ConnEntry}

theorem Rooted.concat (rooted : Rooted contains rules options calls packet entry) {call : Call}
    (elsewhere : ¬ call.On packet) : Rooted contains rules options (calls ++ [call]) packet entry := by
  obtain ⟨before, mid, now, incoming, remote, rfl, untouched, rest⟩ := rooted
  refine ⟨before, mid ++ [call], now, incoming, remote, ?_, ?_, rest⟩
  · rw [List.append_assoc, List.cons_append]
  · intro later member
    rcases List.mem_append.mp member with earlier | final
    · exact untouched later earlier
    · rw [List.mem_singleton.mp final]
      exact elsewhere

/-- Numbers of reloads that the version counter does not tell apart. -/
theorem dvd_of_version_eq {before mid : ℕ} (same : UInt16.ofNat before = UInt16.ofNat (before + mid)) :
    65536 ∣ mid := by
  have remainders := congrArg UInt16.toNat same
  simp only [UInt16.toNat_ofNat'] at remainders
  omega

theorem Traced.later (held : Traced contains rules options clock calls fw) (passed : clock ≤ now) :
    Traced contains rules options now calls fw :=
  { held with scheduled := held.scheduled.later passed }

/-- A flow that the purge leaves is one of before, and not expired. -/
theorem Traced.found_after_purge (held : Traced contains rules options now calls fw)
    (found : (fw.conntrack.value.purgeExpired now).conns.get packet = some entry) :
    fw.conntrack.value.conns.get packet = some entry ∧ now < entry.expires := by
  rw [(Conntrack.purgeExpired_spec held.scheduled now).2] at found
  obtain ⟨found, live⟩ := Option.filter_eq_some_iff.mp found
  exact ⟨found, of_decide_eq_true live⟩

/-- A flow with the version in force was checked against the ruleset in force, unless a full turn of the
version lies between. -/
theorem Traced.current (held : Traced contains rules options now calls fw)
    (sound : fw.conntrack.poisoned = false)
    (apart : NoFullTurn options (calls ++ [.evaluate now packet incoming remote]))
    (found : (fw.conntrack.value.purgeExpired now).conns.get packet = some entry)
    (version : entry.rulesVersion = fw.rules.version) :
    ∃ identity, fw.rules.rules.matches contains packet entry.incoming identity = true ∧
      PresentedSinceReload calls packet identity := by
  obtain ⟨tracked, live⟩ := held.found_after_purge found
  obtain ⟨before, mid, entered, incoming', remote', rfl, untouched, expires, stamped, identity, matched, presented⟩ :=
    held.rooted sound packet entry tracked
  have counted : reloads (before ++ .evaluate entered packet incoming' remote' :: mid) =
      reloads before + reloads mid := reloads_append before _
  rw [stamped, held.rules_eq, counted] at version
  have quiet : reloads mid = 0 := by
    apply apart before mid [] packet entered incoming' remote' now incoming remote
    · rw [List.append_assoc, List.cons_append]
    · exact untouched
    · rw [← expires]
      exact live
    · exact dvd_of_version_eq version
  refine ⟨identity, ?_, ?_⟩
  · have unchanged : inForce (inForce rules before) (.evaluate entered packet incoming' remote' :: mid) =
        inForce rules before := inForce_of_reloads quiet
    rw [held.rules_eq, inForce_append, unchanged]
    exact matched
  · have extended := presented.append quiet
    rwa [List.append_assoc, List.singleton_append] at extended

/-- The flow of a call that passes: the ruleset in force matches it in the direction it is entered with. -/
theorem Traced.justified (held : Traced contains rules options now calls fw)
    (apart : NoFullTurn options (calls ++ [.evaluate now packet incoming remote]))
    (evaluated : Evaluated contains latest fw now packet incoming remote fw' (.ok (.ok ()))) :
    ∃ direction identity,
      (direction = incoming ∨ ∃ entry, (fw.conntrack.value.purgeExpired now).conns.get packet = some entry ∧
        direction = entry.incoming) ∧
      fw.rules.rules.matches contains packet direction identity = true ∧
      PresentedSinceReload (calls ++ [.evaluate now packet incoming remote]) packet identity ∧
      fw'.conntrack.value.conns.get packet =
        some ⟨now + timeoutFor options packet.protocol, direction, fw.rules.version⟩ := by
  cases evaluated with
  | refreshed sound entry after found admitted recorded =>
    have entered := Conntrack.conns_of_record recorded
    rw [held.options_eq] at entered
    have direction : entry.incoming = incoming ∨
        ∃ entry', (fw.conntrack.value.purgeExpired now).conns.get packet = some entry' ∧
          entry.incoming = entry'.incoming := .inr ⟨entry, found, rfl⟩
    rcases admitted with version | matched
    · obtain ⟨identity, matched, presented⟩ := held.current sound apart found version
      refine ⟨entry.incoming, identity, direction, matched, presented.append rfl, ?_⟩
      dsimp only
      rw [entered, HashMap.get_insert_self]
    · refine ⟨entry.incoming, remote, direction, matched, presentedSinceReload_last .., ?_⟩
      dsimp only
      rw [entered, HashMap.get_insert_self]
  | entered sound table after skipped checked recorded =>
    have entered := Conntrack.conns_of_record recorded
    rw [held.options_eq] at entered
    refine ⟨incoming, remote, .inl rfl, matches_of_check contains checked, presentedSinceReload_last .., ?_⟩
    dsimp only
    rw [entered, HashMap.get_insert_self]

/-- A call writes no flow but its own. -/
theorem get_of_evaluated_of_ne {answer : Exec (Except DropReason Unit)} (distinct : other ≠ packet)
    (evaluated : Evaluated contains latest fw now packet incoming remote fw' answer)
    (found : fw'.conntrack.value.conns.get other = some entry) :
    fw.conntrack.value.conns.get other = some entry ∨
      (fw.conntrack.value.purgeExpired now).conns.get other = some entry := by
  cases evaluated with
  | poisoned => exact .inl found
  | refreshed sound entry' after found' admitted recorded =>
    dsimp only at found
    rw [Conntrack.conns_of_record recorded, HashMap.get_insert_of_ne _ _ distinct] at found
    exact .inr found
  | refused sound table reason passed failed => exact .inr (passed.get contains found).2
  | entered sound table after passed checked recorded =>
    dsimp only at found
    rw [Conntrack.conns_of_record recorded, HashMap.get_insert_of_ne _ _ distinct] at found
    exact .inr (passed.get contains found).2
  | unwound sound table unrepresentable passed =>
    rcases passed with rfl | passed
    · exact .inr found
    · exact .inr (passed.get contains found).2

theorem scheduled_passedOver {snapshot : VersionedRules} {timeout : Packet → Duration} {table table' : Conntrack}
    (scheduled : table.Scheduled timeout clock)
    (passed : PassedOver contains snapshot packet remote table table') : table'.Scheduled timeout clock := by
  cases passed with
  | untracked => exact scheduled
  | evicted => exact Conntrack.scheduled_remove scheduled packet

theorem scheduled_evaluated {answer : Exec (Except DropReason Unit)}
    (scheduled : fw.conntrack.value.Scheduled (fun packet => timeoutFor fw.options packet.protocol) now)
    (evaluated : Evaluated contains latest fw now packet incoming remote fw' answer) :
    fw'.conntrack.value.Scheduled (fun packet => timeoutFor fw.options packet.protocol) now := by
  have purged := (Conntrack.purgeExpired_spec scheduled now).1
  cases evaluated with
  | poisoned => exact scheduled
  | refreshed sound entry after found admitted recorded => exact Conntrack.scheduled_record purged recorded
  | refused sound table reason passed failed => exact scheduled_passedOver purged passed
  | entered sound table after passed checked recorded =>
    exact Conntrack.scheduled_record (scheduled_passedOver purged passed) recorded
  | unwound sound table unrepresentable passed =>
    rcases passed with rfl | passed
    · exact purged
    · exact scheduled_passedOver purged passed

/-- After a call, a flow of its packet behind a sound lock was entered by a call that passed. -/
theorem passed_of_get {answer : Exec (Except DropReason Unit)}
    (evaluated : Evaluated contains latest fw now packet incoming remote fw' answer)
    (sound' : fw'.conntrack.poisoned = false) (found : fw'.conntrack.value.conns.get packet = some entry) :
    answer = .ok (.ok ()) := by
  cases evaluated with
  | poisoned broken => cases sound'.symm.trans broken
  | refreshed => rfl
  | refused sound table reason passed failed => exact absurd rfl (passed.get contains found).1
  | entered => rfl
  | unwound => cases sound'

theorem sound_of_evaluated {answer : Exec (Except DropReason Unit)}
    (evaluated : Evaluated contains latest fw now packet incoming remote fw' answer)
    (sound' : fw'.conntrack.poisoned = false) : fw.conntrack.poisoned = false := by
  cases evaluated with
  | poisoned => exact sound'
  | refreshed sound | refused sound | entered sound | unwound sound => exact sound

theorem Traced.evaluate {answer : Exec (Except DropReason Unit)}
    (held : Traced contains rules options now calls fw)
    (apart : NoFullTurn options (calls ++ [.evaluate now packet incoming remote]))
    (evaluated : Evaluated contains latest fw now packet incoming remote fw' answer) :
    Traced contains rules options now (calls ++ [.evaluate now packet incoming remote]) fw' where
  rules_eq := by
    rw [evaluated.frame.1, held.rules_eq, reloads_append, inForce_append]
    rfl
  options_eq := by rw [evaluated.frame.2, held.options_eq]
  scheduled := by
    have scheduled := held.scheduled
    rw [← held.options_eq] at scheduled ⊢
    exact scheduled_evaluated scheduled evaluated
  rooted := by
    intro sound' other entry found
    have sound := sound_of_evaluated evaluated sound'
    by_cases same : other = packet
    · subst same
      obtain rfl := passed_of_get evaluated sound' found
      obtain ⟨direction, identity, -, matched, presented, entered⟩ := held.justified apart evaluated
      obtain rfl := Option.some.inj (found.symm.trans entered)
      rw [held.rules_eq] at matched ⊢
      exact ⟨calls, [], now, incoming, remote, rfl, by simp, rfl, rfl, identity, matched, presented⟩
    · have before : fw.conntrack.value.conns.get other = some entry := by
        rcases get_of_evaluated_of_ne same evaluated found with kept | kept
        · exact kept
        · exact (held.found_after_purge kept).1
      apply (held.rooted sound other entry before).concat
      rintro ⟨_, _, _, ⟨⟩⟩
      exact same rfl

theorem Traced.reload (held : Traced contains rules options clock calls fw) (next : RuleSet) :
    Traced contains rules options clock (calls ++ [.reload next]) (fw.reload next) where
  rules_eq := by
    rw [reloads_append, inForce_append, Firewall.reload, held.rules_eq, UInt16.ofNat_add]
    rfl
  options_eq := held.options_eq
  scheduled := held.scheduled
  rooted := by
    intro sound packet entry found
    apply (held.rooted sound packet entry found).concat
    rintro ⟨_, _, _, ⟨⟩⟩

end Step

theorem traced_run (contains : Contains) (latest : Instant) (rules : RuleSet) (options : FirewallOptions)
    (assigned unsafeNets : List IpNet) {calls : List Call} (ordered : Chronological Call.time calls)
    (apart : NoFullTurn options calls) {clock : Instant} (seen : ∀ call ∈ calls, ∀ t ∈ call.time, t ≤ clock) :
    Traced contains rules options clock calls
      ((system contains latest).exec (new rules options assigned unsafeNets) calls) := by
  refine Chronological.induction (P := fun clock calls => NoFullTurn options calls →
    Traced contains rules options clock calls
      ((system contains latest).exec (new rules options assigned unsafeNets) calls)) ?_ ?_ ?_ ordered seen apart
  · intro clock _
    refine ⟨rfl, rfl, Conntrack.scheduled_new _ clock, ?_⟩
    rintro - packet entry ⟨⟩
  · intro clock now calls passed held apart
    exact (held apart).later passed
  · intro clock calls call current held apart
    have before := held apart.of_append
    rw [System.exec_concat]
    cases call with
    | reload next => exact before.reload next
    | evaluate now packet incoming remote =>
      obtain rfl := current now rfl
      exact before.evaluate apart (evaluated_evaluate ..)

/-- The ruleset in force matches the packet, in the direction of the call or of the tracked flow, for a peer
presented with it in this call or since the most recent reload. -/
def Revalidated (contains : Contains) (fw : Firewall) (calls : List Call) (now : Instant) (packet : Packet)
    (incoming : Bool) (remote : PeerIdentity) : Prop :=
  ∃ direction identity,
    (direction = incoming ∨ ∃ entry, (fw.conntrack.value.purgeExpired now).conns.get packet = some entry ∧
      direction = entry.incoming) ∧
    (identity = remote ∨ PresentedSinceReload calls packet identity) ∧
    fw.rules.rules.matches contains packet direction identity = true

/-- In every run in which no flow sleeps through a full turn of the version, every call that passes is
revalidated. -/
theorem revalidated_of_noFullTurn (contains : Contains) (latest : Instant) (rules : RuleSet)
    (options : FirewallOptions) (assigned unsafeNets : List IpNet) (run : List Call)
    (ordered : Chronological Call.time run) (apart : NoFullTurn options run) (calls after : List Call)
    (now : Instant) (packet : Packet) (incoming : Bool) (remote : PeerIdentity)
    (at_call : run = calls ++ .evaluate now packet incoming remote :: after)
    (passed : (((system contains latest).exec (new rules options assigned unsafeNets) calls).evaluate contains
      latest now packet incoming remote).2 = .ok (.ok ())) :
    Revalidated contains ((system contains latest).exec (new rules options assigned unsafeNets) calls) calls now
      packet incoming remote := by
  rw [List.append_cons] at at_call
  subst at_call
  have held := traced_run contains latest rules options assigned unsafeNets ordered.of_append.of_append
    apart.of_append.of_append (ordered.of_append.le_last rfl)
  have evaluated := evaluated_evaluate contains latest
    ((system contains latest).exec (new rules options assigned unsafeNets) calls) now packet incoming remote
  rw [passed] at evaluated
  obtain ⟨direction, identity, stored, matched, presented, -⟩ := held.justified apart.of_append evaluated
  exact ⟨direction, identity, stored, presented.before, matched⟩

/-- An owner's flow passes again after a reload to the same ruleset. -/
theorem flow_passes_after_reload :
    Revalidated prefixContains
      ((system prefixContains 1000).exec firewall [.evaluate 0 sharedFlow true owner, .reload inboundAny])
      [.evaluate 0 sharedFlow true owner, .reload inboundAny] 1 sharedFlow true owner := by
  apply revalidated_of_noFullTurn prefixContains 1000 inboundAny ⟨10, 10, 10⟩ _ []
    [.evaluate 0 sharedFlow true owner, .reload inboundAny, .evaluate 1 sharedFlow true owner]
  · unfold Chronological
    decide
  · exact noFullTurn_of_few (by decide) _
  · rfl
  · decide +kernel

/-! ## A full turn of the version -/

theorem exec_reloads (contains : Contains) (latest : Instant) (rules : RuleSet) (count : ℕ) (fw : Firewall) :
    (system contains latest).exec fw (List.replicate (count + 1) (.reload rules)) =
      { fw with rules := ⟨fw.rules.version + UInt16.ofNat (count + 1), rules⟩ } := by
  induction count generalizing fw with
  | zero => rfl
  | succ count ih =>
    rw [List.replicate_succ, System.exec_cons, ih]
    have version : fw.rules.version + 1 + UInt16.ofNat (count + 1) =
        fw.rules.version + UInt16.ofNat (count + 1 + 1) := by
      rw [UInt16.add_assoc, UInt16.add_comm 1, UInt16.ofNat_add (count + 1)]
      rfl
    rw [← version]
    rfl

/-- After 65536 reloads to a ruleset that matches nothing, the owner's flow still passes. -/
theorem flow_survives_full_turn :
    (((system prefixContains 1000).exec firewall
        (.evaluate 0 sharedFlow true owner :: List.replicate 65536 (.reload closed))).evaluate prefixContains 1000 1
          sharedFlow true owner).2 = .ok (.ok ()) ∧
      ¬ Revalidated prefixContains
        ((system prefixContains 1000).exec firewall
          (.evaluate 0 sharedFlow true owner :: List.replicate 65536 (.reload closed)))
        (.evaluate 0 sharedFlow true owner :: List.replicate 65536 (.reload closed)) 1 sharedFlow true owner := by
  rw [System.exec_cons, exec_reloads prefixContains 1000 closed 65535]
  constructor
  · decide +kernel
  · rintro ⟨direction, identity, -, -, matched⟩
    cases matched.symm.trans
      (RuleSetBuilder.new_matches prefixContains [] false false sharedFlow direction identity)

end Firewall

end Nebula
