import Nebula.Firewall.Ownership

/-! # How many slots a flow has

A purge takes a due slot of a flow away and gives at most one back, and a refresh gives none, so a flow
keeps the slot of its first record. A removal leaves the slot behind: if the flow is then admitted again
before the slot is due, it has two, and both are put back at every purge for as long as it lasts. The
heap has one slot for each packet, in every state of a run, exactly if no call admits a packet like that.
-/

namespace Nebula

open Rust Machine

namespace Conntrack

variable {ct ct' : Conntrack} {now : Instant}

/-- No packet has two slots. -/
def OneSlotEach (ct : Conntrack) : Prop := ct.expiryHeap.values.Nodup

theorem OneSlotEach.of_heap (each : ct.OneSlotEach) (same : ct'.expiryHeap = ct.expiryHeap) :
    ct'.OneSlotEach := by
  rw [OneSlotEach, same]
  exact each

/-- Every tracked flow has a slot. -/
def Slotted (ct : Conntrack) : Prop :=
  ∀ packet entry, ct.conns.get packet = some entry → packet ∈ ct.expiryHeap.values

/-! ## Purges -/

theorem oneSlotEach_purgeExpired (each : ct.OneSlotEach) (now : Instant) :
    (ct.purgeExpired now).OneSlotEach := by
  refine (purge_induction now (P := OneSlotEach) each ?_).1
  intro mid expires packet held next expired
  unfold OneSlotEach at held ⊢
  rw [MinHeap.values_of_peek next, List.nodup_cons] at held
  rcases settle_cases { mid with expiryHeap := mid.expiryHeap.pop } now packet with
    ⟨-, same⟩ | ⟨entry, -, ⟨-, same⟩ | ⟨-, same⟩⟩ <;>
    rw [same]
  · exact held.2
  · exact held.2
  · rw [(MinHeap.perm_values_push ..).nodup_iff, List.nodup_cons]
    exact held

theorem slotted_purgeExpired (slotted : ct.Slotted) (now : Instant) : (ct.purgeExpired now).Slotted := by
  refine (purge_induction now (P := Slotted) slotted ?_).1
  intro mid expires packet held next expired other entry found
  -- the slots of the other flows survive the pop
  have kept (distinct : other ≠ packet) (tracked : mid.conns.get other = some entry) :
      other ∈ mid.expiryHeap.pop.values := by
    have member := held other entry tracked
    rw [MinHeap.values_of_peek next] at member
    exact (List.mem_cons.mp member).resolve_left distinct
  rcases settle_cases { mid with expiryHeap := mid.expiryHeap.pop } now packet with
    ⟨gone, same⟩ | ⟨here, tracked, ⟨-, same⟩ | ⟨-, same⟩⟩ <;>
    rw [same] at found ⊢
  · refine kept ?_ found
    rintro rfl
    cases gone.symm.trans found
  · obtain ⟨distinct, found⟩ := HashMap.of_get_remove found
    exact kept distinct found
  · rw [(MinHeap.perm_values_push ..).mem_iff, List.mem_cons]
    by_cases distinct : other = packet
    · exact .inl distinct
    · exact .inr (kept distinct found)

/-- A slot that is not due stays. -/
theorem mem_purgeExpired {slot : Instant} {packet : Packet} (member : (slot, packet) ∈ ct.expiryHeap.slots)
    (late : now < slot) : (slot, packet) ∈ (ct.purgeExpired now).expiryHeap.slots := by
  refine (purge_induction now (P := fun mid => (slot, packet) ∈ mid.expiryHeap.slots) member ?_).1
  intro mid expires other held next expired
  have kept : (slot, packet) ∈ mid.expiryHeap.pop.slots := by
    refine (MinHeap.mem_pop next held).resolve_left ?_
    rintro ⟨⟩
    exact absurd late (Nat.not_lt.mpr expired)
  rcases settle_cases { mid with expiryHeap := mid.expiryHeap.pop } now other with
    ⟨-, same⟩ | ⟨entry, -, ⟨-, same⟩ | ⟨-, same⟩⟩ <;>
    rw [same]
  · exact kept
  · exact kept
  · exact MinHeap.mem_push.mpr (.inr kept)

/-- What has a slot after a purge but is not tracked had a slot that was not due. -/
theorem slot_of_purgeExpired {packet : Packet} (member : packet ∈ (ct.purgeExpired now).expiryHeap.values)
    (untracked : (ct.purgeExpired now).conns.get packet = none) :
    ∃ slot, (slot, packet) ∈ ct.expiryHeap.slots ∧ now < slot := by
  -- a slot that the purge puts back belongs to a flow that is not expired, which stays tracked
  have origins := purge_induction now
    (P := fun mid => (∀ slot, (slot, packet) ∈ mid.expiryHeap.slots → (slot, packet) ∈ ct.expiryHeap.slots) ∨
      ∃ entry, mid.conns.get packet = some entry ∧ now < entry.expires)
    (.inl fun (slot : Instant) (here : (slot, packet) ∈ ct.expiryHeap.slots) => here) ?_
  · obtain ⟨origin, late⟩ := origins
    obtain ⟨⟨slot, packet⟩, member', rfl⟩ := List.mem_map.mp member
    rcases origin with origin | ⟨entry, tracked, -⟩
    · exact ⟨slot, origin slot member', late _ member'⟩
    · cases untracked.symm.trans tracked
  · intro mid expires other held next expired
    have popped (slot : Instant) (member : (slot, packet) ∈ mid.expiryHeap.pop.slots) :
        (slot, packet) ∈ mid.expiryHeap.slots := by
      rw [MinHeap.slots_of_peek next]
      exact List.mem_cons_of_mem _ member
    rcases settle_cases { mid with expiryHeap := mid.expiryHeap.pop } now other with
      ⟨-, same⟩ | ⟨here, tracked, ⟨gone, same⟩ | ⟨live, same⟩⟩ <;>
      rw [same]
    · exact held.imp_left fun origin slot member => origin slot (popped slot member)
    · refine held.imp (fun origin slot member => origin slot (popped slot member)) ?_
      rintro ⟨entry, tracked', live⟩
      refine ⟨entry, ?_, live⟩
      rw [HashMap.get_remove_of_ne, tracked']
      rintro rfl
      obtain rfl := Option.some.inj (tracked.symm.trans tracked')
      exact absurd live (Nat.not_lt.mpr gone)
    · by_cases distinct : other = packet
      · subst distinct
        exact .inr ⟨here, tracked, live⟩
      · refine held.imp_left fun origin slot member => ?_
        rcases MinHeap.mem_push.mp member with pushed | member
        · exact absurd (Prod.mk.inj pushed).2.symm distinct
        · exact origin slot (popped slot member)

/-! ## Records -/

section Record

variable {latest : Instant} {packet : Packet} {incoming : Bool} {version : UInt16} {timeout : Duration}

theorem heap_of_record (recorded : ct.record latest packet incoming version now timeout = .ok ct') :
    ct'.expiryHeap =
      if ct.conns.get packet = none then ct.expiryHeap.push (now + timeout) packet else ct.expiryHeap := by
  unfold record at recorded
  split at recorded
  · cases recorded
  · cases recorded
    rcases tracked : ct.conns.get packet with _ | entry <;> simp [HashMap.containsKey, tracked]

/-- A flow that is recorded anew gets a slot in addition to those it has. -/
theorem oneSlotEach_record_iff (recorded : ct.record latest packet incoming version now timeout = .ok ct')
    (untracked : ct.conns.get packet = none) :
    ct'.OneSlotEach ↔ packet ∉ ct.expiryHeap.values ∧ ct.OneSlotEach := by
  rw [OneSlotEach, heap_of_record recorded, if_pos untracked, (MinHeap.perm_values_push ..).nodup_iff,
    List.nodup_cons, OneSlotEach]

theorem slotted_record (slotted : ct.Slotted)
    (recorded : ct.record latest packet incoming version now timeout = .ok ct') : ct'.Slotted := by
  intro other entry found
  rw [conns_of_record recorded] at found
  rw [heap_of_record recorded]
  split
  · rw [(MinHeap.perm_values_push ..).mem_iff, List.mem_cons]
    rw [HashMap.get_insert] at found
    split at found
    · next same => exact .inl same
    · exact .inr (slotted other entry found)
  · next tracked =>
    obtain ⟨before, tracked⟩ := Option.ne_none_iff_exists'.mp tracked
    rw [HashMap.get_insert] at found
    split at found
    · next same => exact same ▸ slotted packet before tracked
    · exact slotted other entry found

theorem slotted_remove (slotted : ct.Slotted) (packet : Packet) : (ct.remove packet).Slotted := by
  intro other entry found
  exact slotted other entry (HashMap.of_get_remove found).2

end Record

end Conntrack

namespace Firewall

section Run

variable (contains : Contains) (latest : Instant)

/-- The call admits its packet anew, and the packet has a slot that the purge leaves: that of the flow
which this call evicts, or that of one which was evicted before. -/
def Readmits (fw : Firewall) : Call → Prop
  | .evaluate now packet incoming remote =>
    fw.conntrack.poisoned = false ∧
      check contains fw.routableNetworks fw.rules.rules packet incoming remote = .ok () ∧
      now + timeoutFor fw.options packet.protocol ≤ latest ∧
      match (fw.conntrack.value.get packet now).2 with
      | some (connIncoming, connVersion) =>
        connVersion ≠ fw.rules.version ∧ fw.rules.rules.matches contains packet connIncoming remote = false
      | none => ∃ slot, (slot, packet) ∈ fw.conntrack.value.expiryHeap.slots ∧ now < slot
  | .reload _ => False

variable {contains latest}

theorem PassedOver.heap {snapshot : VersionedRules} {packet : Packet} {remote : PeerIdentity}
    {table table' : Conntrack} (passed : PassedOver contains snapshot packet remote table table') :
    table'.expiryHeap = table.expiryHeap := by
  cases passed with
  | untracked => rfl
  | evicted => rfl

theorem PassedOver.slotted {snapshot : VersionedRules} {packet : Packet} {remote : PeerIdentity}
    {table table' : Conntrack} (passed : PassedOver contains snapshot packet remote table table')
    (slotted : table.Slotted) : table'.Slotted := by
  cases passed with
  | untracked => exact slotted
  | evicted => exact Conntrack.slotted_remove slotted packet

theorem slotted_step {fw : Firewall} (slotted : fw.conntrack.value.Slotted) (call : Call) :
    ((system contains latest).step fw call).1.conntrack.value.Slotted := by
  cases call with
  | reload => exact slotted
  | evaluate now packet incoming remote =>
    change (fw.evaluate contains latest now packet incoming remote).1.conntrack.value.Slotted
    have purged := Conntrack.slotted_purgeExpired slotted now
    have evaluated := evaluated_evaluate contains latest fw now packet incoming remote
    generalize fw.evaluate contains latest now packet incoming remote = result at *
    obtain ⟨next, answer⟩ := result
    cases evaluated with
    | poisoned => exact slotted
    | refreshed _ entry after found admitted recorded => exact Conntrack.slotted_record purged recorded
    | refused _ table reason passed => exact passed.slotted purged
    | entered _ table after passed checked recorded =>
      exact Conntrack.slotted_record (passed.slotted purged) recorded
    | unwound _ table unrepresentable passed =>
      rcases passed with rfl | passed
      · exact purged
      · exact passed.slotted purged

/-- From a state with one slot for each packet, a call leads to another exactly if it does not readmit its
packet. -/
theorem oneSlotEach_step_iff {fw : Firewall} (slotted : fw.conntrack.value.Slotted)
    (each : fw.conntrack.value.OneSlotEach) (call : Call) :
    ((system contains latest).step fw call).1.conntrack.value.OneSlotEach ↔
      ¬ Readmits contains latest fw call := by
  cases call with
  | reload => exact iff_of_true each id
  | evaluate now packet incoming remote =>
    have purged := Conntrack.oneSlotEach_purgeExpired each now
    change (fw.evaluate contains latest now packet incoming remote).1.conntrack.value.OneSlotEach ↔ _
    have evaluated := evaluated_evaluate contains latest fw now packet incoming remote
    generalize fw.evaluate contains latest now packet incoming remote = result at *
    obtain ⟨next, answer⟩ := result
    cases evaluated with
    | poisoned broken =>
      refine iff_of_true each ?_
      rintro ⟨sound, -⟩
      cases broken.symm.trans sound
    | refreshed sound entry after found admitted recorded =>
      have tracked : (fw.conntrack.value.purgeExpired now).conns.get packet ≠ none := by simp [found]
      refine iff_of_true (purged.of_heap ((Conntrack.heap_of_record recorded).trans (if_neg tracked))) ?_
      rintro ⟨-, -, -, stale⟩
      simp only [Conntrack.get, found, Option.map_some] at stale
      rcases admitted with current | matched
      · exact stale.1 current
      · cases stale.2.symm.trans matched
    | refused sound table reason passed failed =>
      refine iff_of_true (purged.of_heap passed.heap) ?_
      rintro ⟨-, checked, -⟩
      cases failed.symm.trans checked
    | unwound sound table unrepresentable passed =>
      have same : table.expiryHeap = (fw.conntrack.value.purgeExpired now).expiryHeap := by
        rcases passed with rfl | passed
        · rfl
        · exact passed.heap
      refine iff_of_true (purged.of_heap same) ?_
      rintro ⟨-, -, fits, -⟩
      exact absurd unrepresentable (Nat.not_lt.mpr fits)
    | entered sound table after passed checked recorded =>
      have fits := Conntrack.fits_of_record recorded
      cases passed with
      | untracked absent =>
        rw [Conntrack.oneSlotEach_record_iff recorded absent, and_iff_left purged, not_iff_not]
        simp only [Readmits, Conntrack.get, absent, Option.map_none, sound, checked, fits, true_and]
        constructor
        · intro member
          exact Conntrack.slot_of_purgeExpired member absent
        · rintro ⟨slot, member, late⟩
          exact List.mem_map.mpr ⟨(slot, packet), Conntrack.mem_purgeExpired member late, rfl⟩
      | evicted entry found stale unmatched =>
        have left := Conntrack.slotted_purgeExpired slotted now packet entry found
        refine iff_of_false ?_ (not_not.mpr ?_)
        · rw [Conntrack.oneSlotEach_record_iff recorded (HashMap.get_remove_self _ _)]
          exact fun unslotted => unslotted.1 left
        · simp only [Readmits, Conntrack.get, found, Option.map_some]
          exact ⟨sound, checked, fits, stale, unmatched⟩

/-- The heap has at most one slot for each packet in every state of a run exactly if no call of the run
readmits a packet that still has a slot. -/
theorem oneSlotEach_iff_never_readmits (contains : Contains) (latest : Instant) (rules : RuleSet)
    (options : FirewallOptions) (assigned unsafeNets : List IpNet) (calls : List Call) :
    let fw := new rules options assigned unsafeNets
    (∀ before after, calls = before ++ after →
        ((system contains latest).exec fw before).conntrack.value.OneSlotEach) ↔
      ∀ before call after, calls = before ++ call :: after →
        ¬ Readmits contains latest ((system contains latest).exec fw before) call := by
  intro fw
  have slotted (before : List Call) : ((system contains latest).exec fw before).conntrack.value.Slotted := by
    refine (system contains latest).state_invariant (fun fw => fw.conntrack.value.Slotted) ?_ ?_ before
    · intro fw call slotted
      exact slotted_step slotted call
    · rintro packet entry ⟨⟩
  have start : fw.conntrack.value.OneSlotEach := List.nodup_nil
  refine (system contains latest).throughout_iff (fun fw => fw.conntrack.value.OneSlotEach)
    (fun fw call => ¬ Readmits contains latest fw call) start ?_ calls
  intro before call each
  exact oneSlotEach_step_iff (slotted before) each call

end Run

/-! ## A flow that changes its direction at each reload -/

/-- The one rule `outbound any any`, open to every peer. -/
def outboundAny : RuleSet :=
  ((RuleSetBuilder.new [] false false).addRules
    [{ incoming := false, proto := .any, port := .any, groups := ["any"], host := none, cidr := none,
       localCidr := .unset, caName := none, caSha := none }]).build

/-- The slots after a run. -/
def slotsAfter (calls : List Call) : List (Instant × Packet) :=
  ((system prefixContains 1000).exec firewall calls).conntrack.value.expiryHeap.slots

/-- A flow that is evicted after a reload and admitted in the other direction has two slots, and three after
the next reload; they are all put back when they are due. -/
theorem readmitted_flow_accumulates_slots :
    let turned : List Call :=
      [.evaluate 0 sharedFlow true owner, .reload outboundAny, .evaluate 1 sharedFlow false owner]
    let twice := turned ++ [.reload inboundAny, .evaluate 2 sharedFlow true owner]
    ¬ ((system prefixContains 1000).exec firewall turned).conntrack.value.OneSlotEach ∧
      slotsAfter turned = [(10, sharedFlow), (11, sharedFlow)] ∧
      slotsAfter twice = [(10, sharedFlow), (11, sharedFlow), (12, sharedFlow)] ∧
      slotsAfter (twice ++ [.evaluate 9 sharedFlow true owner, .evaluate 15 sharedFlow true owner]) =
        [(19, sharedFlow), (19, sharedFlow), (19, sharedFlow)] := by
  intro turned twice
  have slots : slotsAfter turned = [(10, sharedFlow), (11, sharedFlow)] := by decide +kernel
  refine ⟨?_, slots, by decide +kernel, by decide +kernel⟩
  intro each
  have doubled : ((slotsAfter turned).map Prod.snd).Nodup := each
  rw [slots] at doubled
  cases doubled with
  | cons distinct rest => exact distinct sharedFlow (List.mem_singleton_self _) rfl

end Firewall

end Nebula
