/-
# Cortex.Chunks -- one answer, however the transport splits it

`recv` delivers as much as it likes of what it is asked for.  The body is read with as
many `recv`s as it takes; the header is read with one, and a header that comes in two
pieces is taken for the end of the stream.

`readExact_split`: however the bytes are split, the body is read whole.
`sendFrame_chunks_iff`: a whole answer is returned as it was sent exactly if its header
comes in one piece and its body is UTF-8.
-/
import CentaurApex.Theory.JsonReader
import CentaurApex.Cortex.ConstitutionClient

namespace CentaurApex.Cortex.ConstitutionIpcClient

open CentaurApex.Theory
open CentaurApex.Theory.Python
open CentaurApex.Theory.JsonTree (fromUtf8)

set_option autoImplicit false

/-- `raw.decode("utf-8")`. -/
def decodeUtf8 (raw : List UInt8) : Except PyError String :=
  match fromUtf8 raw with
  | some text => .ok (String.ofList text)
  | none => .error .decodeError

/-- What `_send_frame` returns, on an open session and once the frame is sent. -/
def sendFrame (unread : List UInt8) (outcomes : List RecvOutcome) : Except PyError String :=
  (receiveFrame unread outcomes).1.bind decodeUtf8

/-! ## Splittings -/

/-- The next `n` `recv`s: the `i`-th delivers up to `sizes i + 1` bytes.  After them,
whatever happens. -/
def splitting (sizes : ℕ → ℕ) (n : ℕ) (ending : List RecvOutcome) : List RecvOutcome :=
  (List.range n).map (fun i => .delivers (sizes i)) ++ ending

theorem splitting_succ (sizes : ℕ → ℕ) (n : ℕ) (ending : List RecvOutcome) :
    splitting sizes (n + 1) ending =
      .delivers (sizes 0) :: splitting (fun i => sizes (i + 1)) n ending := by
  rw [splitting, splitting, List.range_succ_eq_map, List.map_cons, List.map_map, List.cons_append]
  rfl

theorem readExact_zero (chunks unread : List UInt8) (outcomes : List RecvOutcome) :
    readExact 0 chunks unread outcomes = (.ok chunks, unread) := by
  cases outcomes <;> rfl

/-- **The body is read whole, however it is split**: a `recv` for each byte is enough. -/
theorem readExact_split (ending : List RecvOutcome) (m : ℕ) :
    ∀ (sizes : ℕ → ℕ) (n : ℕ) (chunks unread : List UInt8), n ≤ unread.length → n ≤ m →
      readExact n chunks unread (splitting sizes m ending) =
        (.ok (chunks ++ unread.take n), unread.drop n) := by
  induction m with
  | zero =>
      intro sizes n chunks unread _ few
      obtain rfl := Nat.le_zero.mp few
      rw [readExact_zero, List.take_zero, List.drop_zero, List.append_nil]
  | succ m ih =>
      intro sizes n chunks unread enough few
      cases n with
      | zero => rw [readExact_zero, List.take_zero, List.drop_zero, List.append_nil]
      | succ n =>
          obtain ⟨b, rest, rfl⟩ : ∃ b rest, unread = b :: rest :=
            List.exists_cons_of_length_pos (by omega)
          have size : min (sizes 0 + 1) (n + 1) = min (sizes 0) n + 1 := Nat.succ_min_succ _ _
          have there : min (sizes 0) n ≤ rest.length := by
            rw [List.length_cons] at enough
            omega
          have length : (b :: rest.take (min (sizes 0) n)).length = min (sizes 0) n + 1 := by
            rw [List.length_cons, List.length_take, Nat.min_eq_left there]
          have left : n + 1 - (min (sizes 0) n + 1) = n - min (sizes 0) n := by omega
          rw [splitting_succ, readExact, if_neg (Nat.succ_ne_zero n),
            recv_delivers (List.cons_ne_nil b rest), size, List.take_succ_cons, List.drop_succ_cons]
          simp only [length, left]
          rw [ih _ _ _ _ (by rw [List.length_drop, List.length_cons] at *; omega) (by omega),
            List.drop_drop, List.append_assoc, List.cons_append, ← List.take_add]
          have whole : min (sizes 0) n + (n - min (sizes 0) n) = n := by omega
          rw [whole, List.take_succ_cons, List.drop_succ_cons]

/-! ## Streams -/

/-- The length a stream announces. -/
def announced (bytes : List UInt8) : ℕ := unpackU32 (bytes.take 4)

def EndsEarly (bytes : List UInt8) : Prop := bytes.length < 4 + announced bytes

def IllegalLength (bytes : List UInt8) : Prop := announced bytes = 0 ∨ announced bytes > maxFrameBytes

instance (bytes : List UInt8) : Decidable (EndsEarly bytes) := inferInstanceAs (Decidable (_ < _))

instance (bytes : List UInt8) : Decidable (IllegalLength bytes) := inferInstanceAs (Decidable (_ ∨ _))

/-- The body of the answer a stream begins with. -/
def answerBody (bytes : List UInt8) : List UInt8 := (bytes.drop 4).take (announced bytes)

/-- What reading an answer is meant to do: return a whole one of legal length as the text
it is, and raise on nothing else than a stream that ends early or a length out of bounds. -/
structure ReadsAnswer (bytes : List UInt8) (outcomes : List RecvOutcome) : Prop where
  returned : ¬ EndsEarly bytes → ¬ IllegalLength bytes →
    ∃ text, fromUtf8 (answerBody bytes) = some text ∧
      sendFrame bytes outcomes = .ok (String.ofList text)
  raised : ∀ e, sendFrame bytes outcomes = .error e → EndsEarly bytes ∨ IllegalLength bytes

section Stream

variable {bytes : List UInt8} {sizes : ℕ → ℕ} {ending : List RecvOutcome}

theorem four_le_of_not_endsEarly (whole : ¬ EndsEarly bytes) : 4 ≤ bytes.length := by
  unfold EndsEarly at whole
  omega

/-- With the header in one piece, the answer is read. -/
theorem receiveFrame_whole (whole : ¬ EndsEarly bytes) (legal : ¬ IllegalLength bytes)
    (header : 3 ≤ sizes 0) :
    (receiveFrame bytes (splitting sizes bytes.length ending)).1 = .ok (answerBody bytes) := by
  have four := four_le_of_not_endsEarly whole
  have more : announced bytes + 4 ≤ bytes.length := by
    unfold EndsEarly at whole
    omega
  obtain ⟨n, length⟩ := Nat.exists_eq_add_one_of_ne_zero (show bytes.length ≠ 0 by omega)
  have some_ : bytes ≠ [] := by
    rintro rfl
    exact absurd four (by decide)
  have size : min (sizes 0 + 1) 4 = 4 := by omega
  have headerLength : ¬ (bytes.take 4).length ≠ 4 := by
    rw [List.length_take, Nat.min_eq_left four]
    exact not_not.mpr rfl
  rw [length, splitting_succ, receiveFrame]
  simp only [recv_delivers some_, size, if_neg headerLength]
  refine (congrArg Prod.fst (if_neg legal)).trans ?_
  have body := readExact_split ending n (fun i => sizes (i + 1)) (announced bytes) [] (bytes.drop 4)
    (by rw [List.length_drop]; omega) (by omega)
  exact congrArg Prod.fst body

/-- With the header in two pieces, it is not. -/
theorem receiveFrame_split (whole : ¬ EndsEarly bytes) (header : sizes 0 < 3) :
    (receiveFrame bytes (splitting sizes bytes.length ending)).1 =
      .error (.connectionError "Constitution closed connection early") := by
  have four := four_le_of_not_endsEarly whole
  obtain ⟨n, length⟩ := Nat.exists_eq_add_one_of_ne_zero (show bytes.length ≠ 0 by omega)
  have some_ : bytes ≠ [] := by
    rintro rfl
    exact absurd four (by decide)
  have short : (bytes.take (min (sizes 0 + 1) 4)).length ≠ 4 := by
    rw [List.length_take]
    omega
  rw [length, splitting_succ, receiveFrame]
  simp only [recv_delivers some_, if_pos short]

/-- **An answer is read however it is split** exactly if the first `recv` delivers the
whole header, and the body is UTF-8 -- or there is no whole answer of legal length. -/
theorem sendFrame_chunks_iff (bytes : List UInt8) (sizes : ℕ → ℕ) (ending : List RecvOutcome) :
    ReadsAnswer bytes (splitting sizes bytes.length ending) ↔
      EndsEarly bytes ∨ IllegalLength bytes ∨
        3 ≤ sizes 0 ∧ (fromUtf8 (answerBody bytes)).isSome := by
  by_cases early : EndsEarly bytes
  · exact ⟨fun _ => .inl early, fun _ => ⟨fun whole => absurd early whole, fun _ _ => .inl early⟩⟩
  by_cases illegal : IllegalLength bytes
  · exact ⟨fun _ => .inr (.inl illegal),
      fun _ => ⟨fun _ legal => absurd illegal legal, fun _ _ => .inr illegal⟩⟩
  constructor
  · intro reads
    obtain ⟨text, decoded, returned⟩ := reads.returned early illegal
    refine .inr (.inr ⟨?_, by rw [decoded]; rfl⟩)
    by_contra split
    rw [sendFrame, receiveFrame_split early (not_le.mp split)] at returned
    cases returned
  · intro condition
    obtain ⟨header, utf8⟩ := (condition.resolve_left early).resolve_left illegal
    obtain ⟨text, decoded⟩ := Option.isSome_iff_exists.mp utf8
    have returned : sendFrame bytes (splitting sizes bytes.length ending) =
        .ok (String.ofList text) := by
      rw [sendFrame, receiveFrame_whole early illegal header, Except.bind, decodeUtf8, decoded]
    refine ⟨fun _ _ => ⟨text, decoded, returned⟩, fun e raised => ?_⟩
    rw [returned] at raised
    cases raised

end Stream

/-- Refuting pole: the same answer byte by byte. -/
theorem bytewise_header_raises :
    ¬ ∀ (f : Frame) (sizes : ℕ → ℕ), 0 < f.body.length → f.body.length ≤ maxFrameBytes →
      ∀ text, fromUtf8 f.body = some text →
        sendFrame f.wire (splitting sizes f.wire.length []) = .ok (String.ofList text) := by
  intro always
  have returned := always LateAnswer.heartbeatAnswer (fun _ => 0) (by decide +kernel)
    (by decide +kernel) "\x7b\"alive\":true,\"protocol_version\":1\x7d".toList (by decide +kernel)
  have raised : sendFrame LateAnswer.heartbeatAnswer.wire
      (splitting (fun _ => 0) LateAnswer.heartbeatAnswer.wire.length []) =
        .error (.connectionError "Constitution closed connection early") := by decide +kernel
  rw [raised] at returned
  cases returned

end CentaurApex.Cortex.ConstitutionIpcClient
