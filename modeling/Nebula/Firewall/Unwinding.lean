import Nebula.Firewall.Ownership

/-! # When a call of the firewall unwinds

The timeouts are the caller's, and the sum of the time and a timeout is formed inside `record`, under the
lock of the table. A call unwinds exactly if it admits its packet and that sum is no instant; the lock is
then poisoned, and every call after it unwinds as well.
-/

namespace Nebula

open Rust Machine

namespace Firewall

section Call

variable (contains : Contains) (latest : Instant)

/-- The call admits its packet: it finds a flow that the ruleset in force carries, or the three checks pass. -/
def Admitted (fw : Firewall) (now : Instant) (packet : Packet) (incoming : Bool) (remote : PeerIdentity) : Prop :=
  (∃ entry, (fw.conntrack.value.purgeExpired now).conns.get packet = some entry ∧
      (entry.rulesVersion = fw.rules.version ∨
        fw.rules.rules.matches contains packet entry.incoming remote = true)) ∨
    check contains fw.routableNetworks fw.rules.rules packet incoming remote = .ok ()

/-- The call admits its packet until a time that is no instant. -/
def Overflows (fw : Firewall) : Call → Prop
  | .evaluate now packet incoming remote =>
    fw.Admitted contains now packet incoming remote ∧ latest < now + timeoutFor fw.options packet.protocol
  | .reload _ => False

/-- The call returns and leaves the lock of the table sound. -/
def Settles (fw : Firewall) (call : Call) : Prop :=
  (∀ answer, ((system contains latest).step fw call).2 = some answer → ∃ result, answer = .ok result) ∧
    ((system contains latest).step fw call).1.conntrack.poisoned = false

variable {contains latest} {fw : Firewall}

theorem PassedOver.not_carried {snapshot : VersionedRules} {packet : Packet} {remote : PeerIdentity}
    {table table' : Conntrack} (passed : PassedOver contains snapshot packet remote table table') :
    ¬ ∃ entry, table.conns.get packet = some entry ∧
      (entry.rulesVersion = snapshot.version ∨
        snapshot.rules.matches contains packet entry.incoming remote = true) := by
  rintro ⟨entry, found, carried⟩
  cases passed with
  | untracked absent => cases absent.symm.trans found
  | evicted entry' found' stale unmatched =>
    obtain rfl := Option.some.inj (found.symm.trans found')
    rcases carried with current | matched
    · exact stale current
    · cases unmatched.symm.trans matched

/-- Under a sound lock a call returns, or it overflows and poisons the lock. -/
theorem evaluate_settles_or_overflows (sound : fw.conntrack.poisoned = false) (now : Instant) (packet : Packet)
    (incoming : Bool) (remote : PeerIdentity) :
    (¬ fw.Overflows contains latest (.evaluate now packet incoming remote) ∧
        (∃ result, (fw.evaluate contains latest now packet incoming remote).2 = .ok result) ∧
        (fw.evaluate contains latest now packet incoming remote).1.conntrack.poisoned = false) ∨
      (fw.Overflows contains latest (.evaluate now packet incoming remote) ∧
        (fw.evaluate contains latest now packet incoming remote).1.conntrack.poisoned = true) := by
  have fits {table after : Conntrack} {direction : Bool}
      (recorded : table.record latest packet direction fw.rules.version now
        (timeoutFor fw.options packet.protocol) = .ok after) :
      ¬ fw.Overflows contains latest (.evaluate now packet incoming remote) :=
    fun overflows => absurd overflows.2 (Nat.not_lt.mpr (Conntrack.fits_of_record recorded))
  unfold evaluate
  dsimp only
  rcases locked_lookup contains latest sound fw.options fw.rules packet remote now with
    ⟨table, passed, same⟩ | ⟨entry, found, carried, ⟨unwinds, same⟩ | ⟨after, recorded, same⟩⟩ <;> rw [same]
  · rcases checked : check contains fw.routableNetworks fw.rules.rules packet incoming remote with reason | _
    · refine .inl ⟨?_, ⟨.error reason, rfl⟩, rfl⟩
      rintro ⟨carried | admitted, -⟩
      · exact passed.not_carried carried
      · cases checked.symm.trans admitted
    · dsimp only
      rcases @locked_record latest { value := table } rfl fw.options packet incoming fw.rules.version now with
        ⟨unwinds, same⟩ | ⟨after, recorded, same⟩ <;> rw [same]
      · exact .inr ⟨⟨.inr checked, unwinds⟩, rfl⟩
      · exact .inl ⟨fits recorded, ⟨.ok (), rfl⟩, rfl⟩
  · exact .inr ⟨⟨.inl ⟨entry, found, carried⟩, unwinds⟩, rfl⟩
  · exact .inl ⟨fits recorded, ⟨.ok (), rfl⟩, rfl⟩

/-- Under a sound lock a call settles, or it overflows and poisons the lock. -/
theorem settles_or_overflows (sound : fw.conntrack.poisoned = false) (call : Call) :
    (¬ fw.Overflows contains latest call ∧ fw.Settles contains latest call) ∨
      (fw.Overflows contains latest call ∧
        ((system contains latest).step fw call).1.conntrack.poisoned = true) := by
  cases call with
  | reload rules => exact .inl ⟨id, by rintro answer ⟨⟩, sound⟩
  | evaluate now packet incoming remote =>
    refine (evaluate_settles_or_overflows sound now packet incoming remote).imp_left ?_
    rintro ⟨fits, ⟨result, returned⟩, sound'⟩
    refine ⟨fits, ?_, sound'⟩
    rintro answer ⟨⟩
    exact ⟨result, returned⟩

theorem sound_step_iff (sound : fw.conntrack.poisoned = false) (call : Call) :
    ((system contains latest).step fw call).1.conntrack.poisoned = false ↔
      ¬ fw.Overflows contains latest call := by
  rcases @settles_or_overflows contains latest fw sound call with ⟨fits, settles⟩ | ⟨overflows, poisoned⟩
  · exact iff_of_true settles.2 fits
  · refine iff_of_false ?_ (not_not.mpr overflows)
    intro sound'
    cases poisoned.symm.trans sound'

end Call

section Run

variable (contains : Contains) (latest : Instant)

/-- Every call of a run returns and leaves the lock sound exactly if none of them overflows. -/
theorem settles_iff_never_overflows (rules : RuleSet) (options : FirewallOptions)
    (assigned unsafeNets : List IpNet) (calls : List Call) :
    let fw := new rules options assigned unsafeNets
    (∀ before call after, calls = before ++ call :: after →
        ((system contains latest).exec fw before).Settles contains latest call) ↔
      ∀ before call after, calls = before ++ call :: after →
        ¬ ((system contains latest).exec fw before).Overflows contains latest call := by
  intro fw
  have sound := (system contains latest).throughout_iff (fun fw => fw.conntrack.poisoned = false)
    (fun fw call => ¬ fw.Overflows contains latest call) (s := fw) rfl
    (fun before call sound => sound_step_iff sound call) calls
  constructor
  · intro settled
    refine sound.mp fun before after split => ?_
    rcases List.eq_nil_or_concat before with rfl | ⟨earlier, call, rfl⟩
    · rfl
    · rw [List.concat_eq_append] at split ⊢
      rw [System.exec_concat]
      exact (settled earlier call after (by rw [split, List.append_assoc, List.singleton_append])).2
  · intro fits before call after split
    have here := sound.mpr fits before (call :: after) split
    rcases @settles_or_overflows contains latest _ here call with ⟨-, settles⟩ | ⟨overflows, -⟩
    · exact settles
    · exact absurd overflows (fits before call after split)

end Run

/-! ## A timeout without end -/

/-- `Duration::MAX`, in nanoseconds. -/
def maxDuration : Duration := (2 ^ 64 - 1) * 10 ^ 9 + 999999999

/-- The last instant of a clock that counts 64-bit signed seconds, in nanoseconds. -/
def lastInstant : Instant := (2 ^ 63 - 1) * 10 ^ 9 + 999999999

/-- A firewall that is to keep TCP flows for good. -/
def endless : Firewall :=
  new inboundAny ⟨maxDuration, 10 ^ 10, 10 ^ 10⟩ [.host (.v4 (.new 10 0 0 1))] []

def tcpFlow : Packet := { sharedFlow with protocol := .tcp }

/-- The first TCP packet that is admitted unwinds the call, and every call after it unwinds too, such as the one
for a packet that would have been let through. -/
theorem endless_timeout_disables_firewall :
    ¬ endless.Settles prefixContains lastInstant (.evaluate 0 tcpFlow true owner) ∧
      ((system prefixContains lastInstant).log endless
          [.evaluate 0 tcpFlow true owner, .evaluate 1 sharedFlow true owner]).map Prod.snd =
        [some (.error .overflow), some (.error .poisoned)] ∧
      (endless.evaluate prefixContains lastInstant 1 sharedFlow true owner).2 = .ok (.ok ()) := by
  have poisoned : ((system prefixContains lastInstant).step endless
      (.evaluate 0 tcpFlow true owner)).1.conntrack.poisoned = true := by decide +kernel
  refine ⟨?_, by decide +kernel, by decide +kernel⟩
  rintro ⟨-, sound⟩
  cases poisoned.symm.trans sound

end Firewall

end Nebula
