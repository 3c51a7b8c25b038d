import Nebula.Firewall.Rule.Meaning

/-! # What the warnings say

A warning of `check_sanity` names a selector that `"any"` beside it makes useless, and the one about ICMP a port
that is not looked at. They are true of the rule they are recorded for, and all that is true of it is recorded.
Whoever takes out of each rule what its warnings name gets rules that match the same packets, and no more warnings.
-/

namespace Nebula

open Rust RuleSetBuilder

/-! ## Warnings and rules -/

namespace RuleWarning

/-- What the warning says is true of the rule. -/
def HoldsOf (rule : Rule) : RuleWarning → Prop
  | .groupsShadowedByAny incoming =>
    incoming = rule.incoming ∧ "any" ∈ rule.groups ∧ 1 < rule.groups.length
  | .hostAnyShadowsGroups incoming groups =>
    incoming = rule.incoming ∧ rule.host = some "any" ∧ groups = rule.groups ∧ groups ≠ []
  | .hostAnyShadowsCidr incoming cidr =>
    incoming = rule.incoming ∧ rule.host = some "any" ∧ rule.cidr = some cidr
  | .groupsAnyShadowsHost incoming host =>
    incoming = rule.incoming ∧ "any" ∈ rule.groups ∧ rule.host = some host ∧ host ≠ "any"
  | .groupsAnyShadowsCidr incoming cidr =>
    incoming = rule.incoming ∧ "any" ∈ rule.groups ∧ rule.cidr = some cidr
  | .icmpPortIgnored incoming port =>
    incoming = rule.incoming ∧ rule.proto.isIcmp = true ∧ port = rule.port ∧ port ≠ .any

/-- The rule without what the warning names. -/
def heed (rule : Rule) : RuleWarning → Rule
  | .groupsShadowedByAny _ => { rule with groups := ["any"] }
  | .hostAnyShadowsGroups _ groups => { rule with groups := rule.groups.filter (· ∉ groups) }
  | .hostAnyShadowsCidr _ cidr | .groupsAnyShadowsCidr _ cidr =>
    { rule with cidr := rule.cidr.filter (· ≠ cidr) }
  | .groupsAnyShadowsHost _ host => { rule with host := rule.host.filter (· ≠ host) }
  | .icmpPortIgnored _ port => if rule.port = port then { rule with port := .any } else rule

end RuleWarning

namespace Rule

/-- The warnings that `add_rule` records for a rule it accepts. -/
def warnings (rule : Rule) : List RuleWarning :=
  (if portIgnored rule then [.icmpPortIgnored rule.incoming rule.port] else []) ++ checkSanity rule

def heeding (rule : Rule) (warnings : List RuleWarning) : Rule := warnings.foldl RuleWarning.heed rule

end Rule

/-- Out of the rule of each call that `add_rule` accepts is taken what this call has warned about. -/
def RuleSetBuilder.heed (b : RuleSetBuilder) : List Rule → List Rule
  | [] => []
  | rule :: rest =>
    match b.addRule rule with
    | .ok after => rule.heeding (after.warnings.drop b.warnings.length) :: after.heed rest
    | .error _ => rule :: b.heed rest

/-! ## One rule -/

section Recorded

variable {rule : Rule}

theorem mem_checkSanity_iff (warning : RuleWarning) :
    warning ∈ checkSanity rule ↔ warning.HoldsOf rule ∧ ∀ side port, warning ≠ .icmpPortIgnored side port := by
  have contains : rule.groups.any (· == "any") = true ↔ "any" ∈ rule.groups := by simp
  unfold checkSanity
  rw [Bool.eq_iff_iff.mpr (contains.trans decide_eq_true_iff.symm)]
  constructor
  · intro member
    simp only [List.mem_append] at member
    rcases member with (shadowed | host) | groups
    · split at shadowed
      next several =>
        obtain rfl := List.mem_singleton.mp shadowed
        simp only [Bool.and_eq_true, decide_eq_true_eq] at several
        exact ⟨⟨rfl, several.1, several.2⟩, fun _ _ => RuleWarning.noConfusion⟩
      · cases shadowed
    · split at host
      next any =>
        have any := beq_iff_eq.mp any
        rcases List.mem_append.mp host with named | named
        · split at named
          · cases named
          next several =>
            obtain rfl := List.mem_singleton.mp named
            exact ⟨⟨rfl, any, rfl, fun none => several (by rw [none]; rfl)⟩, fun _ _ => RuleWarning.noConfusion⟩
        · obtain ⟨cidr, found, rfl⟩ := Option.map_eq_some_iff.mp (Option.mem_toList.mp named)
          exact ⟨⟨rfl, any, found⟩, fun _ _ => RuleWarning.noConfusion⟩
      · cases host
    · split at groups
      next any =>
        have any := of_decide_eq_true any
        rcases List.mem_append.mp groups with named | named
        · obtain ⟨host, found, rfl⟩ := Option.map_eq_some_iff.mp (Option.mem_toList.mp named)
          obtain ⟨found, other⟩ := Option.filter_eq_some_iff.mp found
          exact ⟨⟨rfl, any, found, by simpa using other⟩, fun _ _ => RuleWarning.noConfusion⟩
        · obtain ⟨cidr, found, rfl⟩ := Option.map_eq_some_iff.mp (Option.mem_toList.mp named)
          exact ⟨⟨rfl, any, found⟩, fun _ _ => RuleWarning.noConfusion⟩
      · cases groups
  · rintro ⟨holds, other⟩
    cases warning with
    | groupsShadowedByAny incoming =>
      obtain ⟨rfl, any, several⟩ := holds
      simp [any, several]
    | hostAnyShadowsGroups incoming groups =>
      obtain ⟨rfl, any, rfl, several⟩ := holds
      simp [any, several]
    | hostAnyShadowsCidr incoming cidr =>
      obtain ⟨rfl, any, found⟩ := holds
      simp [any, found]
    | groupsAnyShadowsHost incoming host =>
      obtain ⟨rfl, any, found, named⟩ := holds
      simp [any, found, named]
    | groupsAnyShadowsCidr incoming cidr =>
      obtain ⟨rfl, any, found⟩ := holds
      simp [any, found]
    | icmpPortIgnored incoming port => exact absurd rfl (other incoming port)

/-- The recorded warnings are those that are true of the rule. -/
theorem mem_warnings_iff (warning : RuleWarning) : warning ∈ rule.warnings ↔ warning.HoldsOf rule := by
  rw [Rule.warnings, List.mem_append, mem_checkSanity_iff]
  constructor
  · rintro (ported | ⟨holds, -⟩)
    · split at ported
      next ignored =>
        obtain rfl := List.mem_singleton.mp ported
        obtain ⟨icmp, named⟩ := Bool.and_eq_true_iff.mp ignored
        exact ⟨rfl, icmp, rfl, bne_iff_ne.mp named⟩
      · cases ported
    · exact holds
  · intro holds
    cases warning with
    | icmpPortIgnored incoming port =>
      obtain ⟨rfl, icmp, rfl, named⟩ := holds
      have ignored : portIgnored rule = true := Bool.and_eq_true_iff.mpr ⟨icmp, bne_iff_ne.mpr named⟩
      exact .inl (by rw [if_pos ignored]; exact List.mem_singleton_self _)
    | groupsShadowedByAny | hostAnyShadowsGroups | hostAnyShadowsCidr | groupsAnyShadowsHost | groupsAnyShadowsCidr =>
      exact .inr ⟨holds, fun _ _ => RuleWarning.noConfusion⟩

end Recorded

/-! ## Heeding some of the warnings -/

section Heeding

variable {contains : Contains} {default : LocalCidrDefault} {rule heeded : Rule} {packet : Packet} {incoming : Bool}
  {remote : PeerIdentity}

/-- The `"any"` of the rule that its warnings are about, which none of them names. -/
def KeepsAny (rule heeded : Rule) : Prop :=
  (rule.host = some "any" ∧ heeded.host = some "any") ∨
    (rule.host ≠ some "any" ∧ "any" ∈ rule.groups ∧ "any" ∈ heeded.groups)

/-- What is left of a rule from which some of what its warnings name has been taken. -/
structure Heeds (rule heeded : Rule) : Prop where
  rest : heeded.incoming = rule.incoming ∧ heeded.proto = rule.proto ∧ heeded.localCidr = rule.localCidr ∧
    heeded.caName = rule.caName ∧ heeded.caSha = rule.caSha
  port : heeded.port = rule.port ∨ rule.proto.isIcmp = true ∧ heeded.port = .any
  peer : heeded.groups = rule.groups ∧ heeded.host = rule.host ∧ heeded.cidr = rule.cidr ∨ KeepsAny rule heeded

theorem Heeds.refl (rule : Rule) : Heeds rule rule := ⟨⟨rfl, rfl, rfl, rfl, rfl⟩, .inl rfl, .inl ⟨rfl, rfl, rfl⟩⟩

theorem Heeds.keepsAny (heeds : Heeds rule heeded) (any : rule.host = some "any" ∨ "any" ∈ rule.groups) :
    KeepsAny rule heeded := by
  rcases heeds.peer with ⟨groups, host, -⟩ | kept
  · by_cases hostAny : rule.host = some "any"
    · exact .inl ⟨hostAny, host.trans hostAny⟩
    · exact .inr ⟨hostAny, any.resolve_left hostAny, groups ▸ any.resolve_left hostAny⟩
  · exact kept

/-- Each warning may be heeded after others. -/
theorem Heeds.heed (heeds : Heeds rule heeded) {warning : RuleWarning} (holds : warning.HoldsOf rule) :
    Heeds rule (warning.heed heeded) := by
  cases warning with
  | groupsShadowedByAny side =>
    obtain ⟨-, any, -⟩ := holds
    refine ⟨heeds.rest, heeds.port, .inr ?_⟩
    rcases heeds.keepsAny (.inr any) with kept | ⟨named, groups, -⟩
    · exact .inl kept
    · exact .inr ⟨named, groups, List.mem_cons_self⟩
  | hostAnyShadowsGroups side groups =>
    obtain ⟨-, any, -⟩ := holds
    refine ⟨heeds.rest, heeds.port, .inr (.inl ?_)⟩
    rcases heeds.keepsAny (.inl any) with kept | ⟨named, -⟩
    · exact kept
    · exact absurd any named
  | hostAnyShadowsCidr side cidr =>
    obtain ⟨-, any, -⟩ := holds
    exact ⟨heeds.rest, heeds.port, .inr (heeds.keepsAny (.inl any))⟩
  | groupsAnyShadowsCidr side cidr =>
    obtain ⟨-, any, -⟩ := holds
    exact ⟨heeds.rest, heeds.port, .inr (heeds.keepsAny (.inr any))⟩
  | groupsAnyShadowsHost side host =>
    obtain ⟨-, any, found, other⟩ := holds
    refine ⟨heeds.rest, heeds.port, .inr (.inr ?_)⟩
    rcases heeds.keepsAny (.inr any) with ⟨named, -⟩ | kept
    · exact absurd (Option.some.inj (found.symm.trans named)) other
    · exact kept
  | icmpPortIgnored side port =>
    obtain ⟨-, icmp, -, -⟩ := holds
    unfold RuleWarning.heed
    dsimp only
    split
    · exact ⟨heeds.rest, .inr ⟨icmp, rfl⟩, heeds.peer⟩
    · exact heeds

theorem Heeds.heeding (heeds : Heeds rule heeded) {warnings : List RuleWarning}
    (hold : ∀ warning ∈ warnings, warning.HoldsOf rule) : Heeds rule (heeded.heeding warnings) := by
  induction warnings generalizing heeded with
  | nil => exact heeds
  | cons warning rest ih =>
    rw [List.forall_mem_cons] at hold
    exact ih (heeds.heed hold.1) hold.2

theorem Heeds.admits (heeds : Heeds rule heeded) :
    heeded.Admits contains default packet incoming remote ↔ rule.Admits contains default packet incoming remote := by
  obtain ⟨rest, port, peer⟩ := heeds
  have ported : heeded.PortAdmits packet incoming ↔ rule.PortAdmits packet incoming := by
    unfold Rule.PortAdmits Rule.PortCovers
    rw [rest.2.1]
    rcases port with same | ⟨icmp, -⟩
    · rw [same]
    · exact iff_of_true (.inl icmp) (.inl icmp)
  have peered : heeded.PeerAdmits contains packet remote ↔ rule.PeerAdmits contains packet remote := by
    unfold Rule.PeerAdmits Rule.AnyPeer
    rcases peer with ⟨groups, host, cidr⟩ | ⟨was, now⟩ | ⟨-, was, now⟩
    · rw [groups, host, cidr]
    · exact iff_of_true (.inl (.inr (.inr now))) (.inl (.inr (.inr was)))
    · exact iff_of_true (.inl (.inr (.inl now))) (.inl (.inr (.inl was)))
  unfold Rule.Admits Rule.EndpointsAdmit
  rw [ported, peered]
  unfold Rule.ProtoAdmits Rule.CaAdmits Rule.LocalAdmits
  rw [rest.1, rest.2.1, rest.2.2.1, rest.2.2.2.1, rest.2.2.2.2]

theorem Heeds.accepted (heeds : Heeds rule heeded) (accepted : rule.Accepted) : heeded.Accepted := by
  rw [accepted_iff] at accepted ⊢
  rw [heeds.rest.2.1]
  refine ⟨?_, accepted.2⟩
  rcases heeds.port with same | ⟨-, any⟩
  · rw [same]
    exact accepted.1
  · rw [any]
    exact ⟨_, rfl⟩

end Heeding

/-! ## Heeding all of them -/

section All

variable {rule : Rule}

/-- The rule without the selectors that an `"any"` beside them makes useless. -/
def Rule.withoutShadowed (rule : Rule) : Rule :=
  if rule.host = some "any" then { rule with groups := [], cidr := none }
  else if "any" ∈ rule.groups then { rule with groups := ["any"], host := none, cidr := none }
  else rule

def Rule.withoutPort (rule : Rule) : Rule := if portIgnored rule then { rule with port := .any } else rule

theorem heeding_checkSanity (rule : Rule) : rule.heeding (checkSanity rule) = rule.withoutShadowed := by
  obtain ⟨side, proto, port, groups, host, cidr, localCidr, caName, caSha⟩ := rule
  have contains : groups.any (· == "any") = decide ("any" ∈ groups) := by
    rw [Bool.eq_iff_iff]
    simp
  unfold checkSanity Rule.withoutShadowed Rule.heeding
  dsimp only
  rw [contains]
  by_cases groupsAny : "any" ∈ groups
  · have several : 1 < groups.length ∨ groups = ["any"] := by
      cases groups with
      | nil => cases groupsAny
      | cons group rest =>
        cases rest with
        | nil => exact .inr (by rw [List.mem_singleton.mp groupsAny])
        | cons => exact .inl (by simp)
    have isEmpty : groups.isEmpty = false := by cases groups <;> simp_all
    rcases several with several | rfl
    · cases host with
      | none => cases cidr <;> simp [groupsAny, several, RuleWarning.heed, Option.filter]
      | some name =>
        by_cases other : name = "any"
        · cases cidr <;> simp [groupsAny, several, other, isEmpty, RuleWarning.heed, Option.filter]
        · cases cidr <;> simp [groupsAny, several, other, RuleWarning.heed, Option.filter]
    · cases host with
      | none => cases cidr <;> simp [RuleWarning.heed, Option.filter]
      | some name =>
        by_cases other : name = "any"
        · cases cidr <;> simp [other, RuleWarning.heed, Option.filter]
        · cases cidr <;> simp [other, RuleWarning.heed, Option.filter]
  · by_cases hostAny : host = some "any"
    · subst hostAny
      cases groups with
      | nil => cases cidr <;> simp [RuleWarning.heed, Option.filter]
      | cons group rest =>
        generalize several : group :: rest = groups at groupsAny
        have isEmpty : groups.isEmpty = false := by rw [← several]; rfl
        cases cidr <;> simp [groupsAny, isEmpty, RuleWarning.heed, Option.filter]
    · simp [groupsAny, hostAny]

theorem heeding_warnings (rule : Rule) : rule.heeding rule.warnings = rule.withoutPort.withoutShadowed := by
  rw [Rule.warnings, Rule.heeding, List.foldl_append]
  have ported : (if portIgnored rule then [RuleWarning.icmpPortIgnored rule.incoming rule.port] else []).foldl
      RuleWarning.heed rule = rule.withoutPort := by
    unfold Rule.withoutPort
    split
    · exact if_pos rfl
    · rfl
  have same : checkSanity rule = checkSanity rule.withoutPort := by
    unfold Rule.withoutPort
    split
    · rfl
    · rfl
  rw [ported, same]
  exact heeding_checkSanity rule.withoutPort

/-- Nothing is left to warn about. -/
theorem warnings_heeding (rule : Rule) : (rule.heeding rule.warnings).warnings = [] := by
  rw [heeding_warnings]
  have unported : portIgnored rule.withoutPort = false := by
    unfold Rule.withoutPort
    split
    · exact Bool.and_false _
    next kept => exact eq_false_of_ne_true kept
  generalize rule.withoutPort = rule at unported
  refine List.eq_nil_iff_forall_not_mem.mpr fun warning warned => ?_
  have holds := (mem_warnings_iff warning).mp warned
  unfold portIgnored at unported
  unfold Rule.withoutShadowed at holds
  split at holds
  next hostAny => cases warning <;> simp_all [RuleWarning.HoldsOf]
  next named =>
    split at holds
    · cases warning <;> simp_all [RuleWarning.HoldsOf]
    · cases warning <;> simp_all [RuleWarning.HoldsOf]

/-- Every warning names something that is there. -/
theorem heeding_eq_self_iff (rule : Rule) : rule.heeding rule.warnings = rule ↔ rule.warnings = [] := by
  constructor
  · intro same
    rw [← same]
    exact warnings_heeding rule
  · intro none
    rw [none]
    rfl

end All

/-! ## The whole builder -/

namespace RuleSetBuilder

variable {b : RuleSetBuilder} {rule : Rule}

/-- What a call does to the warnings, if it is accepted. -/
theorem addRule_warnings (b : RuleSetBuilder) (rule : Rule) :
    (¬ rule.Accepted ∧ ∃ error, b.addRule rule = .error error) ∨
      rule.Accepted ∧ ∃ after, b.addRule rule = .ok after ∧ after.warnings = b.warnings ++ rule.warnings := by
  cases added : b.addRule rule with
  | error error =>
    refine .inl ⟨fun accepted => ?_, error, rfl⟩
    obtain ⟨after, ok⟩ := accepted b
    rw [added] at ok
    cases ok
  | ok after =>
    obtain ⟨bounds, ports, known, same⟩ := (addRule_eq_ok_iff _ _ _).mp added
    refine .inr ⟨(accepted_iff rule).mpr ⟨⟨bounds, ports⟩, known⟩, after, rfl, ?_⟩
    rw [← same, file, Rule.warnings, ← List.append_assoc]
    split
    · rfl
    · rfl

theorem mem_addRules_warnings (b : RuleSetBuilder) (rules : List Rule) (warning : RuleWarning) :
    warning ∈ (b.addRules rules).warnings ↔
      warning ∈ b.warnings ∨ ∃ rule ∈ rules, rule.Accepted ∧ warning ∈ rule.warnings := by
  induction rules generalizing b with
  | nil => simp [addRules]
  | cons rule rest ih =>
    rcases addRule_warnings b rule with ⟨refused, error, added⟩ | ⟨accepted, after, added, recorded⟩
    · have skip : b.addRules (rule :: rest) = b.addRules rest := by simp [addRules, added]
      simp only [skip, ih, List.mem_cons, exists_eq_or_imp, refused, false_and, false_or]
    · have go : b.addRules (rule :: rest) = after.addRules rest := by simp [addRules, added]
      simp only [go, ih, recorded, List.mem_append, List.mem_cons, exists_eq_or_imp, accepted, true_and, or_assoc]

open Classical in
/-- The warnings of a call do not depend on the calls before it. -/
theorem heed_eq_map (b : RuleSetBuilder) (rules : List Rule) :
    b.heed rules = rules.map fun rule => if rule.Accepted then rule.heeding rule.warnings else rule := by
  induction rules generalizing b with
  | nil => rfl
  | cons rule rest ih =>
    rw [List.map_cons, heed]
    rcases addRule_warnings b rule with ⟨refused, error, added⟩ | ⟨accepted, after, added, recorded⟩
    · simp only [added, ih, if_neg refused]
    · simp only [added, ih, if_pos accepted, recorded, List.drop_left]

theorem mem_heed_iff (b : RuleSetBuilder) (rules : List Rule) (heeded : Rule) :
    heeded ∈ b.heed rules ∧ heeded.Accepted ↔
      ∃ rule ∈ rules, rule.Accepted ∧ rule.heeding rule.warnings = heeded := by
  rw [heed_eq_map, List.mem_map]
  constructor
  · rintro ⟨⟨rule, member, rfl⟩, accepted⟩
    split at accepted
    next was => exact ⟨rule, member, was, (if_pos was).symm⟩
    next refused => exact absurd accepted refused
  · rintro ⟨rule, member, accepted, rfl⟩
    refine ⟨⟨rule, member, if_pos accepted⟩, ?_⟩
    exact ((Heeds.refl rule).heeding fun warning => (mem_warnings_iff warning).mp).accepted accepted

/-- The warnings are those that are true of the accepted rules. What they name can be removed: the rules match
the same packets without it, and nothing is left to warn about. Each of them names something that is there. -/
theorem warnings_name_what_is_useless (contains : Contains) (assigned : List IpNet) (hasUnsafe defaultAny : Bool)
    (rules : List Rule) :
    let b := new assigned hasUnsafe defaultAny
    let built := b.addRules rules
    let heeded := b.addRules (b.heed rules)
    (∀ warning, warning ∈ built.warnings ↔ ∃ rule ∈ rules, rule.Accepted ∧ warning.HoldsOf rule) ∧
      (∀ packet incoming remote, heeded.build.matches contains packet incoming remote =
        built.build.matches contains packet incoming remote) ∧
      heeded.warnings = [] ∧
      (b.heed rules = rules ↔ built.warnings = []) := by
  intro b built heeded
  have recorded (rules : List Rule) (warning : RuleWarning) :
      warning ∈ (b.addRules rules).warnings ↔ ∃ rule ∈ rules, rule.Accepted ∧ warning ∈ rule.warnings :=
    (mem_addRules_warnings b rules warning).trans (or_iff_right List.not_mem_nil)
  have gone (rule : Rule) : ∀ warning, warning ∉ (rule.heeding rule.warnings).warnings := by
    rw [warnings_heeding]
    exact fun _ => List.not_mem_nil
  refine ⟨fun warning => ?_, fun packet incoming remote => ?_, ?_, ?_⟩
  · simp only [built, recorded, mem_warnings_iff]
  · have same (rule : Rule) : (rule.heeding rule.warnings).Admits contains b.defaultLocalCidr packet incoming remote ↔
        rule.Admits contains b.defaultLocalCidr packet incoming remote :=
      ((Heeds.refl rule).heeding fun warning => (mem_warnings_iff warning).mp).admits
    rw [Bool.eq_iff_iff, addRules_matches, addRules_matches]
    refine or_congr_right ?_
    constructor
    · rintro ⟨rule', left, kept, admits⟩
      obtain ⟨rule, member, accepted, rfl⟩ := (mem_heed_iff b rules rule').mp ⟨left, kept⟩
      exact ⟨rule, member, accepted, (same rule).mp admits⟩
    · rintro ⟨rule, member, accepted, admits⟩
      obtain ⟨left, kept⟩ := (mem_heed_iff b rules _).mpr ⟨rule, member, accepted, rfl⟩
      exact ⟨_, left, kept, (same rule).mpr admits⟩
  · refine List.eq_nil_iff_forall_not_mem.mpr fun warning member => ?_
    obtain ⟨rule', member, accepted, warned⟩ := (recorded _ warning).mp member
    obtain ⟨rule, -, -, rfl⟩ := (mem_heed_iff b rules rule').mp ⟨member, accepted⟩
    exact gone rule warning warned
  · rw [heed_eq_map, List.eq_nil_iff_forall_not_mem]
    constructor
    · intro same warning member
      obtain ⟨rule, member, accepted, warned⟩ := (recorded rules warning).mp member
      have kept := List.map_inj_left.mp (same.trans (List.map_id rules).symm) rule member
      rw [if_pos accepted] at kept
      rw [(heeding_eq_self_iff rule).mp kept] at warned
      cases warned
    · intro none
      refine (List.map_congr_left fun rule member => ?_).trans (List.map_id rules)
      split
      next accepted =>
        refine (heeding_eq_self_iff rule).mpr (List.eq_nil_iff_forall_not_mem.mpr fun warning warned => ?_)
        exact none warning ((recorded rules warning).mpr ⟨rule, member, accepted, warned⟩)
      · rfl

end RuleSetBuilder

end Nebula
