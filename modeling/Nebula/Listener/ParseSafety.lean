import Nebula.Listener.Packet

/-! # No packet stops the parser

Every checked read of `parse` stands behind a check that covers it: the minimum length and the header
length of IPv4, the length check of each arm of the IPv6 walk. The walk steps over at least eight
bytes at a turn and reads inside each header it steps over, so it ends within the buffer's length, and
the sums it forms stay close to that length.
-/

namespace Nebula.Listener

open Rust

/-! ## Reads behind their checks -/

section Reads

variable {raw : Bytes}

theorem returns_readU16 {i : ℕ} (bound : i + 2 ≤ raw.length) : Returns (readU16 raw i) := by
  apply (returns_index (by omega)).bind
  intro high _
  apply (returns_index (by omega)).bind
  intro low _
  exact returns_ok _

/-- `read_ports` checks the length itself. -/
theorem returns_readPorts (l4 : Bytes) : Returns (readPorts l4) := by
  unfold readPorts
  split
  · exact returns_ok _
  · apply (returns_readU16 (by omega)).bind
    intro srcPort _
    apply (returns_readU16 (by omega)).bind
    intro dstPort _
    exact returns_ok _

theorem returns_readIpv4 {i : ℕ} (bound : i + 4 ≤ raw.length) : Returns (readIpv4 raw i) := by
  apply (returns_index (by omega)).bind
  intro a _
  apply (returns_index (by omega)).bind
  intro b _
  apply (returns_index (by omega)).bind
  intro c _
  apply (returns_index (by omega)).bind
  intro d _
  exact returns_ok _

theorem returns_readIpv6 {start stop : ℕ} (sixteen : stop = start + 16) (bound : stop ≤ raw.length) :
    Returns (readIpv6 raw start stop) := by
  apply (returns_slice (by omega) bound).bind
  intro octets sliced
  rw [slice_eq_ok (by omega) bound] at sliced
  cases sliced
  have size : ((raw.take stop).drop start).length = 16 := by
    rw [List.length_drop, List.length_take]
    omega
  rw [Arr.copyFromSlice_eq_ok size]
  exact returns_ok _

end Reads

/-! ## IPv4 -/

theorem returns_parseIpv4Body {raw : Bytes} {ihl : ℕ} (inside : ihl ≤ raw.length) (src dst : IpAddr)
    (protocol : Protocol) (fragOffset : UInt16) :
    Returns (parseIpv4Body raw ihl src dst protocol fragOffset) := by
  unfold parseIpv4Body
  by_cases first : fragOffset = 0
  · rw [if_pos first]
    by_cases short : raw.length < ihl + if protocol = .icmp then 6 else 4
    · rw [if_pos short]
      exact returns_ok _
    · rw [if_neg short]
      by_cases ports : protocol = .tcp ∨ protocol = .udp
      · have plain : protocol ≠ .icmp := by rintro rfl; simp at ports
        simp only [if_pos ports, if_neg plain]
        apply (returns_sliceFrom inside).bind
        intro l4 _
        apply (returns_readPorts l4).bind
        intro found _
        exact returns_ok _
      · simp only [if_neg ports]
        apply (returns_ok (0, 0)).bind
        intro found _
        split_ifs at short ⊢ with icmp
        · apply ((returns_readU16 (by omega)).map some).bind
          intro id _
          exact returns_ok _
        · exact returns_ok _
  · rw [if_neg first]
    exact returns_ok _

theorem returns_parseIpv4 (raw : Bytes) : Returns (parseIpv4 raw) := by
  unfold parseIpv4
  split
  · exact returns_ok _
  · next minimum =>
    apply (returns_index (by omega)).bind
    intro first _
    dsimp only
    split
    · exact returns_ok _
    · next inside =>
      refine (returns_index (by omega)).bind fun number _ => ?_
      refine (returns_readU16 (by omega)).bind fun word _ => ?_
      refine (returns_readIpv4 (by omega)).bind fun src _ => ?_
      refine (returns_readIpv4 (by omega)).bind fun dst _ => ?_
      exact returns_parseIpv4Body (by omega) src dst _ _

/-! ## IPv6 -/

section Walk

variable {raw : Bytes} {src dst : IpAddr}

/-- No turn leaves the walk by unwinding. -/
theorem headerTurn_returns {c : Cursor} {result : Exec (Option FiveTuple)}
    (turn : headerTurn raw src dst c = .done result) : Returns result := by
  unfold headerTurn at turn
  split at turn
  · cases turn
    exact returns_ok _
  next nextHeader _ =>
    dsimp only at turn
    split_ifs at turn with ended icmp short ports short fragment short auth
    · cases turn
      exact returns_ok _
    · cases turn
      exact returns_ok _
    · cases turn
      apply (returns_index (by omega)).bind
      intro kind _
      split
      · apply ((returns_readU16 (by omega)).map some).bind
        intro id _
        exact returns_ok _
      · exact returns_ok _
    · cases turn
      exact returns_ok _
    · cases turn
      apply (returns_sliceFrom (by omega)).bind
      intro l4 _
      exact (returns_readPorts l4).bind fun ports _ => returns_ok _
    · cases turn
      exact returns_ok _
    · obtain ⟨word, read⟩ := returns_readU16 (show c.offset + 2 + 2 ≤ raw.length by omega)
      obtain ⟨name, named⟩ := returns_index (show c.offset < raw.length by omega)
      simp only [read, named, bind, Except.bind] at turn
      split_ifs at turn
      · cases turn
      · cases turn
        exact returns_ok _
    · split at turn <;> cases turn
      exact returns_ok _
    · split at turn <;> cases turn
      exact returns_ok _

namespace Stride

variable {offset size : ℕ} {number : UInt8}

/-- Each extension header is at least 8 bytes. -/
theorem eight_le (stride : Stride raw offset number size) : 8 ≤ size := by
  cases stride with
  | fragment => exact le_refl 8
  | auth => omega
  | standard => omega

theorem size_le (stride : Stride raw offset number size) : size ≤ 2048 := by
  cases stride with
  | fragment => decide
  | @auth len read =>
    have bound := len.toNat_lt
    omega
  | @standard _ len unnamed read =>
    have bound := len.toNat_lt
    omega

/-- A header is stepped over only if its first two bytes are there. -/
theorem inside (stride : Stride raw offset number size) : offset + 2 ≤ raw.length := by
  cases stride with
  | fragment fits => omega
  | auth read =>
    have bound := (List.getElem?_eq_some_iff.mp read).1
    omega
  | standard unnamed read =>
    have bound := (List.getElem?_eq_some_iff.mp read).1
    omega

end Stride

/-- A walk moves forward by eight bytes or more at a turn, and never far behind the buffer. -/
theorem turns_forward {s t : Cursor} {visited : List Cursor}
    (turns : (headerWalk raw src dst).Turns s visited t) :
    ((visited ++ [t]).map (·.offset)).Pairwise (· < ·) ∧ s.offset ≤ t.offset ∧
      t.offset ≤ max s.offset (raw.length + 2046) ∧
      (visited = [] ∨ s.offset + 8 * visited.length ≤ raw.length + 6) ∧
      ∀ c ∈ visited, s.offset ≤ c.offset ∧ c.offset + 2 ≤ raw.length := by
  induction turns with
  | nil s =>
    refine ⟨?_, le_refl _, le_max_left _ _, .inl rfl, ?_⟩
    · exact List.pairwise_singleton _ _
    · intro c member
      cases member
  | @cons s mid t visited turn rest ih =>
    obtain ⟨number, size, forward, -, stride, rfl⟩ := headerTurn_next turn
    have eight := stride.eight_le
    have most := stride.size_le
    have inside := stride.inside
    obtain ⟨ascending, far, near, bounded, within⟩ := ih
    change s.offset + size ≤ _ at far
    change _ ≤ max (s.offset + size) _ at near
    change _ ∨ s.offset + size + _ ≤ _ at bounded
    have ahead (c : Cursor) (member : c ∈ visited) : s.offset + size ≤ c.offset := (within c member).1
    refine ⟨?_, ?_, ?_, ?_, ?_⟩
    · rw [List.cons_append, List.map_cons, List.pairwise_cons]
      refine ⟨?_, ascending⟩
      intro offset listed
      obtain ⟨c, member, rfl⟩ := List.mem_map.mp listed
      rcases List.mem_append.mp member with earlier | last
      · have := ahead c earlier
        omega
      · obtain rfl := List.mem_singleton.mp last
        omega
    · omega
    · omega
    · right
      rw [List.length_cons]
      rcases bounded with rfl | bounded
      · rw [List.length_nil]
        omega
      · omega
    · intro c member
      rcases List.mem_cons.mp member with rfl | later
      · exact ⟨le_refl _, inside⟩
      · exact ⟨le_trans (Nat.le_add_right _ _) (ahead c later), (within c later).2⟩

end Walk

theorem returns_parseIpv6 (raw : Bytes) : Returns (parseIpv6 raw) := by
  unfold parseIpv6
  split
  · exact returns_ok _
  · apply (returns_readIpv6 rfl (by omega)).bind
    intro src _
    apply (returns_readIpv6 rfl (by omega)).bind
    intro dst _
    obtain ⟨visited, t, -, left⟩ := (headerWalk raw src dst).exists_turns .start
    exact headerTurn_returns left

theorem returns_parse (raw : Bytes) (incoming : Bool) : Returns (parse raw incoming) := by
  unfold parse
  split
  · exact returns_ok _
  · split
    · exact (returns_parseIpv4 raw).bind fun found _ => returns_ok _
    · exact (returns_parseIpv6 raw).bind fun found _ => returns_ok _
    · exact returns_ok _

/-- No read of `parse` is out of bounds. The walk is left after a number of turns that the buffer's length
bounds; each turn moved forward and read inside the buffer, and no offset is past the buffer by more than
the largest header. -/
theorem parse_reads_in_bounds (raw : Bytes) (incoming : Bool) :
    Returns (parse raw incoming) ∧
      ∀ src dst, ∃ visited t result, (headerWalk raw src dst).Turns .start visited t ∧
        headerTurn raw src dst t = .done result ∧ Returns result ∧
        ((visited ++ [t]).map (·.offset)).Pairwise (· < ·) ∧ (∀ c ∈ visited, c.offset + 2 ≤ raw.length) ∧
        8 * visited.length ≤ raw.length ∧ t.offset ≤ max 40 (raw.length + 2046) := by
  refine ⟨returns_parse raw incoming, ?_⟩
  intro src dst
  obtain ⟨visited, t, turns, left⟩ := (headerWalk raw src dst).exists_turns .start
  obtain ⟨ascending, -, near, bounded, within⟩ := turns_forward turns
  refine ⟨visited, t, _, turns, left, headerTurn_returns left, ascending, fun c member => (within c member).2, ?_,
    near⟩
  rcases bounded with rfl | bounded
  · exact Nat.zero_le _
  · change 40 + _ ≤ _ at bounded
    omega

end Nebula.Listener
