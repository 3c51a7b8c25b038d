import Nebula.Protocol.ReplayHistory

/-! # What an unauthenticated packet does to a transport

`Transport::decrypt` marks the counter before it authenticates the packet. A failing packet
therefore leaves the transport alone exactly when the window refuses its counter anyway; any other
failing packet takes a counter away from the genuine sender, and one far ahead of the high-water
mark takes away every counter below it. A stream in which each forged packet carries a refused
counter is answered as if the forged packets were not there.
-/

namespace Nebula

open Rust Machine

namespace ReplayWindow

/-- The window is past this counter: it is out of reach or already marked. -/
def Refuses (w : ReplayWindow) (counter : UInt64) : Prop :=
  counter ≤ w.current ∧
    (windowSize ≤ (w.current - counter).toNat ∨ w.bit (w.current - counter).toNat = true)

instance (w : ReplayWindow) (counter : UInt64) : Decidable (w.Refuses counter) :=
  inferInstanceAs (Decidable (_ ∧ _))

theorem checkAndUpdate_of_refuses {w : ReplayWindow} {counter : UInt64} (refuses : w.Refuses counter) :
    w.checkAndUpdate counter = (w, false) := by
  obtain ⟨behind, stale | marked⟩ := refuses
  · exact checkAndUpdate_stale behind (by omega)
  · by_cases inside : (w.current - counter).toNat < windowSize
    · rw [checkAndUpdate_behind behind inside, if_pos marked]
    · exact checkAndUpdate_stale behind inside

/-- A counter that is not refused is accepted, and marking it changes the window. -/
theorem checkAndUpdate_of_not_refuses {w : ReplayWindow} {counter : UInt64}
    (fresh : ¬ w.Refuses counter) :
    (w.checkAndUpdate counter).2 = true ∧ (w.checkAndUpdate counter).1 ≠ w := by
  by_cases above : w.current < counter
  · rw [checkAndUpdate_above above]
    refine ⟨rfl, fun same => ?_⟩
    have current : counter = w.current := congrArg ReplayWindow.current same
    exact UInt64.lt_irrefl _ (current ▸ above)
  · have behind : counter ≤ w.current := UInt64.not_lt.mp above
    have clear : ¬ (windowSize ≤ (w.current - counter).toNat ∨ w.bit (w.current - counter).toNat = true) :=
      fun refused => fresh ⟨behind, refused⟩
    rw [not_or, Nat.not_le] at clear
    rw [checkAndUpdate_behind behind clear.1, if_neg clear.2]
    refine ⟨rfl, fun same => clear.2 ?_⟩
    rw [← same, bit_mark]
    simp only [current_mark, decide_true, Bool.or_true]

end ReplayWindow

/-- The arguments of one `decrypt` call. -/
structure SealedPacket where
  counter : UInt64
  aad : Bytes
  ciphertext : Bytes
  out : Bytes
deriving DecidableEq, Repr

namespace Transport

variable (aead : Aead)

/-- `decrypt`, on the arguments of one packet. -/
def receive (t : Transport) (p : SealedPacket) : Transport × Res (ℕ × Bytes) :=
  t.decrypt aead p.counter p.aad p.ciphertext p.out

/-- The AEAD opens the packet under the receiving key. -/
def Authentic (t : Transport) (p : SealedPacket) : Prop :=
  (aead.decrypt t.recvCipher.cipher t.recvCipher.key (t.recvCipher.nonce p.counter) p.aad p.ciphertext).isSome

/-- An error of this packet would leave the whole transport as it was. -/
def Undisturbed (t : Transport) (p : SealedPacket) : Prop :=
  ∀ error, (t.receive aead p).2 = .error (.err error) → (t.receive aead p).1 = t

theorem receive_of_refuses {t : Transport} {p : SealedPacket} (refuses : t.replay.Refuses p.counter) :
    t.receive aead p = (t, .error (.err .replayedPacket)) := by
  simp only [receive, decrypt, ReplayWindow.checkAndUpdate_of_refuses refuses, Bool.not_false, if_true]

theorem receive_of_not_refuses {t : Transport} {p : SealedPacket} (fresh : ¬ t.replay.Refuses p.counter) :
    t.receive aead p = ({ t with replay := (t.replay.checkAndUpdate p.counter).1 },
      (t.recvCipher.decrypt aead p.counter p.aad p.ciphertext).bind (copyOut p.out)) := by
  have accepted := (ReplayWindow.checkAndUpdate_of_not_refuses fresh).1
  simp only [receive, decrypt, accepted, Bool.not_true, Bool.false_eq_true, if_false]
  rfl

/-- An error leaves the transport alone exactly when its counter is refused or there is no error. -/
theorem undisturbed_iff (t : Transport) (p : SealedPacket) :
    Undisturbed aead t p ↔ t.replay.Refuses p.counter ∨ Authentic aead t p := by
  by_cases refuses : t.replay.Refuses p.counter
  · refine iff_of_true (fun error _ => ?_) (.inl refuses)
    rw [receive_of_refuses aead refuses]
  · rw [or_iff_right refuses, Undisturbed, receive_of_not_refuses aead refuses, Authentic,
      CipherImpl.decrypt]
    cases opened : aead.decrypt t.recvCipher.cipher t.recvCipher.key (t.recvCipher.nonce p.counter)
        p.aad p.ciphertext with
    | none =>
      refine iff_of_false (fun kept => ?_) (by simp)
      have same := kept .decryptFailed rfl
      exact (ReplayWindow.checkAndUpdate_of_not_refuses refuses).2 (congrArg Transport.replay same)
    | some plaintext =>
      refine iff_of_true (fun error failed => ?_) rfl
      change copyOut p.out plaintext = _ at failed
      rw [copyOut] at failed
      split at failed <;> cases failed

/-! ## Runs and streams -/

inductive Call where
  | nextCounter
  | encrypt (counter : UInt64) (aad plaintext out : Bytes)
  | decrypt (packet : SealedPacket)

inductive Answer where
  | counter (value : UInt64)
  | written (result : Res (ℕ × Bytes))

/-- A transport driven by any sequence of its public calls. -/
def system : System Transport Call Answer where
  step
    | t, .nextCounter => ((t.nextCounter).1, .counter (t.nextCounter).2)
    | t, .encrypt counter aad plaintext out => (t, .written (t.encrypt aead counter aad plaintext out))
    | t, .decrypt packet => ((t.receive aead packet).1, .written (t.receive aead packet).2)

/-- The results of a stream of packets, in order. -/
def receiveAll : Transport → List SealedPacket → List (Res (ℕ × Bytes))
  | _, [] => []
  | t, p :: rest => (t.receive aead p).2 :: receiveAll (t.receive aead p).1 rest

/-- A packet of a stream, and whether it was inserted into it. -/
structure Arrival where
  packet : SealedPacket
  inserted : Bool
deriving DecidableEq, Repr

/-- The results of the genuine packets of a stream that also carries inserted ones. -/
def genuineResults : Transport → List Arrival → List (Res (ℕ × Bytes))
  | _, [] => []
  | t, a :: rest =>
      if a.inserted then genuineResults (t.receive aead a.packet).1 rest
      else (t.receive aead a.packet).2 :: genuineResults (t.receive aead a.packet).1 rest

/-- Every inserted packet fails authentication and arrives when its counter is already refused. -/
def InsertedRefused : Transport → List Arrival → Prop
  | _, [] => True
  | t, a :: rest =>
      (a.inserted = true → ¬ Authentic aead t a.packet ∧ t.replay.Refuses a.packet.counter) ∧
        InsertedRefused (t.receive aead a.packet).1 rest

/-- Inserted packets with refused counters are invisible to the genuine ones. -/
theorem genuineResults_eq (t : Transport) (stream : List Arrival) (refused : InsertedRefused aead t stream) :
    genuineResults aead t stream =
      receiveAll aead t ((stream.filter (!·.inserted)).map Arrival.packet) := by
  induction stream generalizing t with
  | nil => rfl
  | cons a rest ih =>
    obtain ⟨here, later⟩ := refused
    rw [genuineResults, List.filter_cons]
    cases inserted : a.inserted with
    | true =>
      have same : (t.receive aead a.packet).1 = t := by rw [receive_of_refuses aead (here inserted).2]
      rw [same] at later
      simpa [same] using ih t later
    | false => simpa [receiveAll] using ih _ later

/-- In every reachable transport, an erroring `decrypt` leaves the transport unchanged if and only
if the window refuses the counter or the AEAD accepts the packet; and a stream whose inserted
packets all carry refused counters answers its genuine packets as the stream without them. -/
theorem decrypt_undisturbed_iff (cipher : Cipher) (sendKey recvKey : Key) (calls : List Call) :
    (∀ p, Undisturbed aead ((system aead).exec (.new cipher sendKey recvKey) calls) p ↔
      ((system aead).exec (.new cipher sendKey recvKey) calls).replay.Refuses p.counter ∨
        Authentic aead ((system aead).exec (.new cipher sendKey recvKey) calls) p) ∧
    (∀ stream, InsertedRefused aead ((system aead).exec (.new cipher sendKey recvKey) calls) stream →
      genuineResults aead ((system aead).exec (.new cipher sendKey recvKey) calls) stream =
        receiveAll aead ((system aead).exec (.new cipher sendKey recvKey) calls)
          ((stream.filter (!·.inserted)).map Arrival.packet)) :=
  ⟨fun p => undisturbed_iff aead _ p, fun stream => genuineResults_eq aead _ stream⟩

/-! ## One forged packet shuts the genuine sender out -/

/-- An AEAD that opens one packet only: counter 3, an empty header and a bare tag. -/
def oneTagAead : Aead where
  encrypt _ _ _ _ _ := some (List.replicate 16 7)
  decrypt _ _ nonce aad ciphertext :=
    if nonce = List.replicate 11 0 ++ [3] ∧ aad = [] ∧ ciphertext = List.replicate 16 7 then some [] else none

def zeroKeys : Transport := .new .aesGcm (.replicate 32 0) (.replicate 32 0)

def genuinePacket : SealedPacket := ⟨3, [], List.replicate 16 7, []⟩

def farAhead : SealedPacket := ⟨5000, [], List.replicate 16 0, []⟩

/-- The forged packet is refused as unauthentic, yet the window jumps to its counter, and the
genuine packet that a fresh transport accepts is now taken for a replay. -/
theorem forged_packet_shuts_out_genuine :
    (zeroKeys.receive oneTagAead farAhead).2 = .error (.err .decryptFailed) ∧
    (zeroKeys.receive oneTagAead farAhead).1 ≠ zeroKeys ∧
    genuineResults oneTagAead zeroKeys [⟨genuinePacket, false⟩] = [.ok (0, [])] ∧
    genuineResults oneTagAead zeroKeys [⟨farAhead, true⟩, ⟨genuinePacket, false⟩] =
      [.error (.err .replayedPacket)] := by
  decide

/-- A forged copy of a packet that was already accepted is harmless. -/
theorem forged_copy_is_harmless :
    InsertedRefused oneTagAead zeroKeys [⟨genuinePacket, false⟩, ⟨{ genuinePacket with aad := [1] }, true⟩] ∧
    genuineResults oneTagAead zeroKeys [⟨genuinePacket, false⟩, ⟨{ genuinePacket with aad := [1] }, true⟩] =
      receiveAll oneTagAead zeroKeys [genuinePacket] := by
  have refused : InsertedRefused oneTagAead zeroKeys
      [⟨genuinePacket, false⟩, ⟨{ genuinePacket with aad := [1] }, true⟩] := by
    refine ⟨fun inserted => absurd inserted (by decide), fun _ => ⟨?_, ?_⟩, trivial⟩
    · unfold Authentic
      decide
    · decide
  exact ⟨refused,
    (decrypt_undisturbed_iff oneTagAead .aesGcm (.replicate 32 0) (.replicate 32 0) []).2 _ refused⟩

end Transport

end Nebula
