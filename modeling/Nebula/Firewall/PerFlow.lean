import Nebula.Firewall.Revalidation
import Nebula.Machine.Part

/-! # A firewall is its flows

What a firewall answers about one packet, over any run of `evaluate` and `reload` calls, is what a machine answers
that knows this packet alone: no table of flows, no heap and no purge, one entry and the time at which it ends.
The calls on other packets, and the lazy purges they cause, make no difference to it.
-/

namespace Nebula.Firewall

open Rust Machine

/-! ## The machine for one flow -/

/-- The rules in force, and the flow's entry if it has been admitted. The entry may have ended. -/
structure OneFlow where
  rules : VersionedRules
  entry : Option ConnEntry

section OneFlow

variable (contains : Contains) (options : FirewallOptions) (routable : List IpNet) (packet : Packet)

/-- The flow is admitted, or stays admitted, in a direction. -/
def OneFlow.letIn (flow : OneFlow) (now : Instant) (direction : Bool) : OneFlow × Except DropReason Unit :=
  ({ flow with entry := some ⟨now + timeoutFor options packet.protocol, direction, flow.rules.version⟩ }, .ok ())

/-- A flow that is not admitted, or no longer, has to pass the checks. -/
def OneFlow.enter (flow : OneFlow) (now : Instant) (incoming : Bool) (remote : PeerIdentity) :
    OneFlow × Except DropReason Unit :=
  match check contains routable flow.rules.rules packet incoming remote with
  | .ok () => flow.letIn options packet now incoming
  | .error reason => ({ flow with entry := none }, .error reason)

def OneFlow.evaluate (flow : OneFlow) (now : Instant) (incoming : Bool) (remote : PeerIdentity) :
    OneFlow × Except DropReason Unit :=
  match flow.entry.filter fun entry => now < entry.expires with
  | some entry =>
    if entry.rulesVersion = flow.rules.version ∨
        flow.rules.rules.matches contains packet entry.incoming remote = true then
      flow.letIn options packet now entry.incoming
    else flow.enter contains options routable packet now incoming remote
  | none => flow.enter contains options routable packet now incoming remote

/-- The call is about the packet, or about the rules. -/
def Call.concerns : Call → Bool
  | .evaluate _ other _ _ => other = packet
  | .reload _ => true

def oneFlow : System OneFlow Call (Option (Exec (Except DropReason Unit))) where
  step flow
    | .evaluate now _ incoming remote =>
      let (flow, answer) := flow.evaluate contains options routable packet now incoming remote
      (flow, some (.ok answer))
    | .reload rules => ({ flow with rules := ⟨flow.rules.version + 1, rules⟩ }, none)

end OneFlow

/-! ## One call -/

section Step

variable {contains : Contains} {latest : Instant} {options : FirewallOptions} {routable : List IpNet}
  {packet other : Packet} {incoming : Bool} {remote : PeerIdentity} {clock now : Instant} {fw fw' : Firewall}
  {flow : OneFlow}

/-- From `clock` on, the firewall and the machine tell the same about the packet. -/
structure Follows (options : FirewallOptions) (routable : List IpNet) (packet : Packet) (clock : Instant)
    (fw : Firewall) (flow : OneFlow) : Prop where
  sound : fw.conntrack.poisoned = false
  rules_eq : fw.rules = flow.rules
  options_eq : fw.options = options
  routable_eq : fw.routableNetworks = routable
  scheduled : fw.conntrack.value.Scheduled (fun packet => timeoutFor options packet.protocol) clock
  entry : ∀ now, clock ≤ now →
    fw.conntrack.value.unexpired now packet = flow.entry.filter fun entry => now < entry.expires

theorem Follows.later (follows : Follows options routable packet clock fw flow) (passed : clock ≤ now) :
    Follows options routable packet now fw flow :=
  { follows with
    scheduled := follows.scheduled.later passed
    entry := fun after bound => follows.entry after (le_trans passed bound) }

theorem Follows.reload (follows : Follows options routable packet clock fw flow) (rules : RuleSet) :
    Follows options routable packet clock (fw.reload rules)
      { flow with rules := ⟨flow.rules.version + 1, rules⟩ } :=
  { follows with rules_eq := by rw [Firewall.reload, follows.rules_eq] }

/-- A table that shows a flow as the purged one did shows it so from then on. -/
theorem unexpired_of_conns {ct ct' : Conntrack} {later : Instant}
    (same : ct'.conns.get other = ct.unexpired now other) (passed : now ≤ later) :
    ct'.unexpired later other = ct.unexpired later other := by
  rw [Conntrack.unexpired, same, Conntrack.unexpired, Conntrack.unexpired, Option.filter_filter]
  congr 1
  funext entry
  rw [Bool.eq_iff_iff]
  simp only [Bool.and_eq_true, decide_eq_true_eq]
  exact ⟨And.right, fun live => ⟨lt_of_le_of_lt passed live, live⟩⟩

/-- A call that returns leaves every other packet as the purge left it. -/
theorem conns_of_evaluated_of_ne {answer : Except DropReason Unit} (distinct : other ≠ packet)
    (evaluated : Evaluated contains latest fw now packet incoming remote fw' (.ok answer)) :
    fw'.conntrack.value.conns.get other = (fw.conntrack.value.purgeExpired now).conns.get other := by
  have passedOver {table : Conntrack}
      (passed : PassedOver contains fw.rules packet remote (fw.conntrack.value.purgeExpired now) table) :
      table.conns.get other = (fw.conntrack.value.purgeExpired now).conns.get other := by
    cases passed with
    | untracked absent => rfl
    | evicted entry found stale unmatched => exact HashMap.get_remove_of_ne _ distinct
  cases evaluated with
  | refreshed sound entry after found admitted recorded =>
    rw [Conntrack.conns_of_record recorded, HashMap.get_insert_of_ne _ _ distinct]
  | refused sound table reason passed failed => exact passedOver passed
  | entered sound table after passed checked recorded =>
    rw [Conntrack.conns_of_record recorded, HashMap.get_insert_of_ne _ _ distinct]
    exact passedOver passed

/-- A call whose flow would end at a representable instant returns, on a lock that is sound, and leaves it so. -/
theorem evaluated_of_fits {answer : Exec (Except DropReason Unit)} (sound : fw.conntrack.poisoned = false)
    (fits : now + timeoutFor fw.options packet.protocol ≤ latest)
    (evaluated : Evaluated contains latest fw now packet incoming remote fw' answer) :
    (∃ verdict, answer = .ok verdict) ∧ fw'.conntrack.poisoned = false ∧
      fw'.routableNetworks = fw.routableNetworks := by
  cases evaluated with
  | poisoned broken => cases sound.symm.trans broken
  | refreshed sound entry after found admitted recorded => exact ⟨⟨_, rfl⟩, rfl, rfl⟩
  | refused sound table reason passed failed => exact ⟨⟨_, rfl⟩, rfl, rfl⟩
  | entered sound table after passed checked recorded => exact ⟨⟨_, rfl⟩, rfl, rfl⟩
  | unwound sound table unrepresentable passed => exact absurd fits (Nat.not_le.mpr unrepresentable)

/-- A call that returns keeps everything but the packet's own entry. -/
theorem Follows.evaluated {answer : Exec (Except DropReason Unit)} {flow' : OneFlow}
    (follows : Follows options routable packet now fw flow)
    (fits : now + timeoutFor options other.protocol ≤ latest)
    (evaluated : Evaluated contains latest fw now other incoming remote fw' answer)
    (rules : flow'.rules = flow.rules)
    (entry : ∀ later, now ≤ later →
      fw'.conntrack.value.unexpired later packet = flow'.entry.filter fun entry => later < entry.expires) :
    Follows options routable packet now fw' flow' := by
  obtain ⟨-, sound, routable_eq⟩ :=
    evaluated_of_fits follows.sound (by rw [follows.options_eq]; exact fits) evaluated
  obtain ⟨rules_eq, options_eq⟩ := evaluated.frame
  have scheduled := follows.scheduled
  rw [← follows.options_eq] at scheduled
  refine ⟨sound, by rw [rules_eq, follows.rules_eq, rules], by rw [options_eq, follows.options_eq],
    by rw [routable_eq, follows.routable_eq], ?_, entry⟩
  rw [← follows.options_eq]
  exact scheduled_evaluated scheduled evaluated

/-- A call on another packet makes no difference. -/
theorem Follows.beside (follows : Follows options routable packet now fw flow) (distinct : packet ≠ other)
    (fits : now + timeoutFor options other.protocol ≤ latest) :
    Follows options routable packet now (fw.evaluate contains latest now other incoming remote).1 flow := by
  have evaluated := evaluated_evaluate contains latest fw now other incoming remote
  obtain ⟨⟨verdict, answered⟩, -⟩ :=
    evaluated_of_fits follows.sound (by rw [follows.options_eq]; exact fits) evaluated
  refine follows.evaluated fits evaluated rfl ?_
  intro later passed
  rw [answered] at evaluated
  rw [← follows.entry later passed]
  refine unexpired_of_conns ?_ passed
  rw [conns_of_evaluated_of_ne distinct evaluated, (Conntrack.purgeExpired_spec follows.scheduled now).2]

/-! ## A call on the flow itself -/

/-- What the machine does with a flow it finds admitted. -/
theorem OneFlow.evaluate_of_live {entry : ConnEntry}
    (live : (flow.entry.filter fun entry => now < entry.expires) = some entry)
    (admitted : entry.rulesVersion = flow.rules.version ∨
      flow.rules.rules.matches contains packet entry.incoming remote = true) :
    flow.evaluate contains options routable packet now incoming remote =
      flow.letIn options packet now entry.incoming := by
  rw [OneFlow.evaluate, live]
  exact if_pos admitted

/-- What it does where nothing admits the flow any more. -/
theorem OneFlow.evaluate_of_passedOver {table table' : Conntrack} (version : VersionedRules)
    (same : version = flow.rules)
    (shown : table.conns.get packet = flow.entry.filter fun entry => now < entry.expires)
    (passed : PassedOver contains version packet remote table table') :
    flow.evaluate contains options routable packet now incoming remote =
      flow.enter contains options routable packet now incoming remote := by
  subst same
  cases passed with
  | untracked absent => rw [OneFlow.evaluate, ← shown, absent]
  | evicted entry found stale unmatched =>
    rw [OneFlow.evaluate, ← shown, found]
    exact if_neg (by simp [stale, unmatched])

/-- A call on the packet itself gets the machine's answer. -/
theorem Follows.evaluate (contains : Contains) (follows : Follows options routable packet now fw flow)
    (fits : now + timeoutFor options packet.protocol ≤ latest) (incoming : Bool) (remote : PeerIdentity) :
    Follows options routable packet now (fw.evaluate contains latest now packet incoming remote).1
        (flow.evaluate contains options routable packet now incoming remote).1 ∧
      (fw.evaluate contains latest now packet incoming remote).2 =
        .ok (flow.evaluate contains options routable packet now incoming remote).2 := by
  have evaluated := evaluated_evaluate contains latest fw now packet incoming remote
  generalize outcome : fw.evaluate contains latest now packet incoming remote = result at evaluated
  obtain ⟨fw', answer⟩ := result
  dsimp only at evaluated ⊢
  have shown : (fw.conntrack.value.purgeExpired now).conns.get packet =
      flow.entry.filter fun entry => now < entry.expires := by
    rw [(Conntrack.purgeExpired_spec follows.scheduled now).2, follows.entry now le_rfl]
  have kept := evaluated
  cases evaluated with
  | poisoned broken => cases follows.sound.symm.trans broken
  | unwound sound table unrepresentable passed =>
    rw [follows.options_eq] at unrepresentable
    exact absurd fits (Nat.not_le.mpr unrepresentable)
  | refreshed sound entry after found admitted recorded =>
    rw [shown] at found
    rw [follows.rules_eq] at admitted
    rw [OneFlow.evaluate_of_live found admitted]
    refine ⟨follows.evaluated fits kept rfl ?_, rfl⟩
    intro later passed
    rw [Conntrack.unexpired, Conntrack.conns_of_record recorded, HashMap.get_insert_self, follows.rules_eq,
      follows.options_eq]
    rfl
  | refused sound table reason passed failed =>
    rw [OneFlow.evaluate_of_passedOver fw.rules follows.rules_eq shown passed]
    rw [follows.rules_eq, follows.routable_eq] at failed
    simp only [OneFlow.enter, failed]
    refine ⟨follows.evaluated fits kept rfl ?_, trivial⟩
    intro later _
    have gone : table.conns.get packet = none := by
      cases passed with
      | untracked absent => exact absent
      | evicted entry found stale unmatched => exact HashMap.get_remove_self ..
    rw [Conntrack.unexpired, gone]
  | entered sound table after passed checked recorded =>
    rw [OneFlow.evaluate_of_passedOver fw.rules follows.rules_eq shown passed]
    rw [follows.rules_eq, follows.routable_eq] at checked
    simp only [OneFlow.enter, checked]
    refine ⟨follows.evaluated fits kept rfl ?_, rfl⟩
    intro later _
    rw [Conntrack.unexpired, Conntrack.conns_of_record recorded, HashMap.get_insert_self, follows.rules_eq,
      follows.options_eq]
    rfl

end Step

/-! ## Every run -/

section Run

variable (contains : Contains) (latest : Instant) (rules : RuleSet) (options : FirewallOptions)
  (assigned unsafeNets : List IpNet) (packet : Packet)

/-- With calls in the order of their times and no timeout past the last instant, the answers on a packet are those
of the machine that is given the calls on this packet, and the reloads, alone. -/
theorem answers_of_one_flow (calls : List Call) (ordered : Chronological Call.time calls)
    (fits : ∀ call ∈ calls, call.Representable latest options) :
    let fw := new rules options assigned unsafeNets
    ((system contains latest).log fw calls).filter (fun entry => entry.1.concerns packet) =
      (oneFlow contains options fw.routableNetworks packet).log ⟨⟨0, rules⟩, none⟩
        (calls.filter (Call.concerns packet)) := by
  intro fw
  rw [← (system contains latest).gather_log_filter (Call.concerns packet) fw calls,
    ← (system contains latest).gather_filter (Call.concerns packet) fw calls]
  refine (Eq.symm ((system contains latest).part_run _ _ _
    (fun rest fw flow => Chronological Call.time rest ∧ (∀ call ∈ rest, call.Representable latest options) ∧
      ∃ clock, (∀ t ∈ rest.filterMap Call.time, clock ≤ t) ∧
        Follows options (new rules options assigned unsafeNets).routableNetworks packet clock fw flow) ?_ ?_).2)
  · rintro call rest fw flow ⟨ordered, fits, clock, ahead, follows⟩
    rw [List.forall_mem_cons] at fits
    cases call with
    | reload next => exact ⟨⟨ordered, fits.2, clock, ahead, follows.reload next⟩, rfl⟩
    | evaluate now other incoming remote =>
      obtain ⟨first, ordered⟩ := List.pairwise_cons.mp ordered
      have follows := follows.later (ahead now (List.mem_cons_self ..))
      dsimp only [Call.concerns]
      by_cases same : other = packet
      · subst same
        obtain ⟨follows, answered⟩ := follows.evaluate contains fits.1 incoming remote
        simp only [decide_true, if_true]
        refine ⟨⟨ordered, fits.2, now, first, follows⟩, ?_⟩
        simp only [System.log, oneFlow, system, answered]
        rfl
      · simp only [decide_eq_false same, Bool.false_eq_true, if_false]
        exact ⟨⟨ordered, fits.2, now, first, follows.beside (Ne.symm same) fits.1⟩, rfl⟩
  · refine ⟨ordered, fits, 0, fun _ _ => Nat.zero_le _, rfl, rfl, rfl, rfl, Conntrack.scheduled_new _ _, ?_⟩
    intro now _
    rfl

end Run

/-- A flow, another one beside it, and a reload to rules that match neither. -/
def besideAnother : List Call :=
  [.evaluate 0 sharedFlow true owner, .evaluate 1 { sharedFlow with localPort := 81 } true owner,
    .evaluate 2 sharedFlow false stranger, .reload closed, .evaluate 3 { sharedFlow with localPort := 81 } true owner,
    .evaluate 4 sharedFlow true owner]

/-- The flow passes in both directions until the reload ends it, whatever happens beside it. -/
theorem flow_ends_with_its_rules :
    (((system prefixContains 1000).log firewall besideAnother).filter
        fun entry => entry.1.concerns sharedFlow).map Prod.snd =
      [some (.ok (.ok ())), some (.ok (.ok ())), none, some (.ok (.error .noMatchingRule))] := by
  have alone := answers_of_one_flow prefixContains 1000 inboundAny ⟨10, 10, 10⟩ [.host (.v4 ⟨[10, 0, 0, 1], rfl⟩)] []
    sharedFlow besideAnother (by unfold Chronological; decide)
    (by simp [besideAnother, Call.Representable, timeoutFor, sharedFlow])
  refine (congrArg (List.map Prod.snd) alone).trans ?_
  decide +kernel

end Nebula.Firewall
