/-
# Gateway.DataEvents -- one response, however the socket splits it

The promise of an `rpc` is resolved by the listener of the socket's data events.  The
listener keeps every chunk, reads the length of the response once four bytes have come,
and resolves with the body once it is there.  It reads the length from the first chunk
alone, and the read throws where that chunk is shorter than the length.

`delivered_iff`: a response is delivered, with no event throwing, exactly if its first
event has at least four bytes.
-/
import CentaurApex.Theory.Framing
import CentaurApex.Theory.Machine

namespace CentaurApex.Gateway

open CentaurApex.Theory

set_option autoImplicit false

namespace RustBridgeService

/-! ## The listener -/

/-- What the listener holds, and the value its promise was resolved with first. -/
structure Reader where
  chunks : List (List UInt8)
  responseLength : Option ℕ
  resolved : Option String

/-- How a data event ends. -/
inductive DataOutcome where
  | handled
  | rangeError
  deriving DecidableEq, Repr

def Reader.new : Reader := ⟨[], none, none⟩

/-- `buffer.readUInt32BE(0)`. -/
def readUInt32BE (buffer : List UInt8) : Option ℕ :=
  if 4 ≤ buffer.length then some (unpackU32 (buffer.take 4)) else none

section Listener

-- `body.toString('utf-8')`
variable (decode : List UInt8 → String)

/-- The second half of the listener: the body is there, or not yet. -/
def Reader.settle (reader : Reader) : Reader :=
  match reader.responseLength with
  | some responseLength =>
      if responseLength + 4 ≤ reader.chunks.flatten.length then
        let body := (reader.chunks.flatten.drop 4).take responseLength
        { reader with resolved := reader.resolved.or (some (decode body)) }
      else reader
  | none => reader

def onData (reader : Reader) (data : List UInt8) : DataOutcome × Reader :=
  let reader := { reader with chunks := reader.chunks ++ [data] }
  if reader.responseLength.isNone ∧ 4 ≤ reader.chunks.flatten.length then
    match readUInt32BE (reader.chunks.headD []) with
    | some responseLength =>
        (.handled, { reader with responseLength := some responseLength }.settle decode)
    | none => (.rangeError, reader)
  else (.handled, reader.settle decode)

def listener : Machine Reader (List UInt8) DataOutcome := ⟨onData decode⟩

end Listener

/-! ## Responses -/

/-- A response as it arrives: its frame and whatever follows it, in data events none of
which is empty. -/
structure Arrival where
  frame : Frame
  later : List UInt8
  events : List (List UInt8)
  inhabited : ∀ data ∈ events, data ≠ []
  whole : events.flatten = frame.wire ++ later

/-- The promise is resolved with the body, and no event throws. -/
structure Delivered (decode : List UInt8 → String) (arrival : Arrival) : Prop where
  resolved : ((listener decode).run .new arrival.events).resolved = some (decode arrival.frame.body)
  handled : ∀ e ∈ (listener decode).trace .new arrival.events, e.reply = .handled

section Whole

variable {decode : List UInt8 → String} {frame : Frame} {later : List UInt8}

/-- The listener has read the length, and what has come so far. -/
structure Reading (decode : List UInt8 → String) (frame : Frame) (seen : List UInt8)
    (reader : Reader) : Prop where
  chunks : reader.chunks.flatten = seen
  responseLength : reader.responseLength = some frame.body.length
  resolved : reader.resolved =
    if frame.body.length + 4 ≤ seen.length then some (decode frame.body) else none

/-- Once the body is there, it is what follows the length. -/
theorem body_of_prefix {seen rest : List UInt8} (whole : seen ++ rest = frame.wire ++ later)
    (there : frame.body.length + 4 ≤ seen.length) :
    (seen.drop 4).take frame.body.length = frame.body := by
  have front : seen.take (frame.body.length + 4) = frame.wire := by
    have length : frame.wire.length = frame.body.length + 4 := by
      rw [frame.length_wire, Nat.add_comm]
    have more : (seen ++ rest).take (frame.body.length + 4) = seen.take (frame.body.length + 4) :=
      List.take_append_of_le_length there
    rw [← more, whole, ← length, List.take_left]
  rw [List.take_drop, Nat.add_comm 4, front, frame.drop_wire]

/-- The first four bytes of a response are its length. -/
theorem length_of_prefix {seen rest : List UInt8} (whole : seen ++ rest = frame.wire ++ later)
    (four : 4 ≤ seen.length) : readUInt32BE seen = some frame.body.length := by
  have front : seen.take 4 = packU32 frame.body.length := by
    have wire : 4 ≤ frame.wire.length := by
      rw [frame.length_wire]
      omega
    have more : (seen ++ rest).take 4 = seen.take 4 := List.take_append_of_le_length four
    rw [← more, whole, List.take_append_of_le_length wire, frame.take_wire]
  rw [readUInt32BE, if_pos four, front, unpackU32_packU32 frame.short]

/-- The body is resolved with when it is there, and not twice with different ones. -/
theorem settle_reading {reader : Reader} {seen rest : List UInt8} {before : ℕ}
    (whole : seen ++ rest = frame.wire ++ later) (chunks : reader.chunks.flatten = seen)
    (responseLength : reader.responseLength = some frame.body.length)
    (grown : before ≤ seen.length)
    (resolved : reader.resolved =
      if frame.body.length + 4 ≤ before then some (decode frame.body) else none) :
    Reading decode frame seen (reader.settle decode) := by
  simp only [Reader.settle, responseLength, chunks]
  by_cases there : frame.body.length + 4 ≤ seen.length
  · rw [if_pos there, body_of_prefix whole there]
    refine ⟨chunks, rfl, ?_⟩
    rw [if_pos there, resolved]
    split_ifs <;> rfl
  · rw [if_neg there]
    refine ⟨chunks, responseLength, ?_⟩
    rw [if_neg there, resolved, if_neg (by omega)]

/-- An event after the length has been read. -/
theorem onData_reading {reader : Reader} {seen data rest : List UInt8}
    (whole : seen ++ data ++ rest = frame.wire ++ later)
    (reading : Reading decode frame seen reader) :
    (onData decode reader data).1 = .handled ∧
      Reading decode frame (seen ++ data) (onData decode reader data).2 := by
  have known : ¬ (reader.responseLength.isNone ∧
      4 ≤ (reader.chunks ++ [data]).flatten.length) := by
    rw [reading.responseLength]
    exact fun both => nomatch both.1
  rw [onData, if_neg known]
  refine ⟨rfl, settle_reading whole ?_ reading.responseLength ?_ reading.resolved⟩
  · rw [List.flatten_append, reading.chunks, List.flatten_singleton]
  · rw [List.length_append]
    exact Nat.le_add_right _ _

variable (decode) in
/-- The first event, if it has the length. -/
theorem onData_first {data rest : List UInt8} (whole : data ++ rest = frame.wire ++ later)
    (four : 4 ≤ data.length) :
    (onData decode .new data).1 = .handled ∧
      Reading decode frame data (onData decode .new data).2 := by
  have chunks : ([] ++ [data] : List (List UInt8)).flatten = data := by
    rw [List.nil_append, List.flatten_singleton]
  have unknown : (none : Option ℕ).isNone ∧
      4 ≤ ([] ++ [data] : List (List UInt8)).flatten.length := by
    rw [chunks]
    exact ⟨rfl, four⟩
  have length : readUInt32BE (([] ++ [data] : List (List UInt8)).headD []) =
      some frame.body.length := length_of_prefix whole four
  simp only [onData, Reader.new, if_pos unknown, length]
  refine ⟨trivial, settle_reading whole chunks rfl (Nat.zero_le _) ?_⟩
  rw [if_neg (by omega)]

/-- The events after it. -/
theorem run_reading {events : List (List UInt8)} :
    ∀ {seen : List UInt8} {reader : Reader}, seen ++ events.flatten = frame.wire ++ later →
      Reading decode frame seen reader →
      Reading decode frame (frame.wire ++ later) ((listener decode).run reader events) ∧
        ∀ e ∈ (listener decode).trace reader events, e.reply = .handled := by
  induction events with
  | nil =>
      intro seen reader whole reading
      rw [List.flatten_nil, List.append_nil] at whole
      exact ⟨whole ▸ reading, fun e member => absurd member List.not_mem_nil⟩
  | cons data events ih =>
      intro seen reader whole reading
      rw [List.flatten_cons, ← List.append_assoc] at whole
      obtain ⟨handled, next⟩ := onData_reading whole reading
      obtain ⟨last, others⟩ := ih whole next
      exact ⟨last, List.forall_mem_cons.mpr ⟨handled, others⟩⟩

end Whole

/-! ## Short first events -/

section Short

variable {decode : List UInt8 → String}

/-- The listener waits for a length it will never read. -/
structure Stuck (reader : Reader) : Prop where
  short : ∃ first rest, reader.chunks = first :: rest ∧ first.length < 4
  responseLength : reader.responseLength = none
  resolved : reader.resolved = none

/-- Whatever comes then, the length is not read. -/
theorem onData_stuck {reader : Reader} (stuck : Stuck reader) (data : List UInt8) :
    Stuck (onData decode reader data).2 := by
  obtain ⟨⟨first, rest, chunks, short⟩, responseLength, resolved⟩ := stuck
  have more : reader.chunks ++ [data] = first :: (rest ++ [data]) := by
    rw [chunks, List.cons_append]
  have unread : readUInt32BE ((reader.chunks ++ [data]).headD []) = none := by
    rw [more]
    exact if_neg (not_le.mpr short)
  unfold onData
  simp only [unread]
  split
  · exact ⟨⟨first, _, more, short⟩, responseLength, resolved⟩
  · simp only [Reader.settle, responseLength]
    exact ⟨⟨first, _, more, short⟩, rfl, resolved⟩

/-- With four bytes in all, the event throws. -/
theorem onData_throws {reader : Reader} (stuck : Stuck reader) {data : List UInt8}
    (four : 4 ≤ (reader.chunks ++ [data]).flatten.length) :
    (onData decode reader data).1 = .rangeError := by
  obtain ⟨⟨first, rest, chunks, short⟩, responseLength, -⟩ := stuck
  have unread : readUInt32BE ((reader.chunks ++ [data]).headD []) = none := by
    rw [chunks, List.cons_append]
    exact if_neg (not_le.mpr short)
  have unknown : reader.responseLength.isNone = true := by rw [responseLength]; rfl
  rw [onData, if_pos ⟨unknown, four⟩]
  simp only [unread]

variable (decode) in
/-- Every chunk is kept. -/
theorem run_chunks (events : List (List UInt8)) (reader : Reader) :
    ((listener decode).run reader events).chunks = reader.chunks ++ events := by
  induction events generalizing reader with
  | nil => exact (List.append_nil _).symm
  | cons data events ih =>
      have kept : (onData decode reader data).2.chunks = reader.chunks ++ [data] := by
        have settled (reader : Reader) : (reader.settle decode).chunks = reader.chunks := by
          unfold Reader.settle
          split
          · split <;> rfl
          · rfl
        unfold onData
        dsimp only
        split
        · split
          · rw [settled]
          · rfl
        · rw [settled]
      have step : ((listener decode).step reader data).2.chunks = reader.chunks ++ [data] := kept
      rw [Machine.run, ih, step, List.append_assoc, List.singleton_append]

theorem onData_short {data : List UInt8} (short : data.length < 4) :
    Stuck (onData decode .new data).2 := by
  have few : ¬ ((none : Option ℕ).isNone ∧
      4 ≤ ([] ++ [data] : List (List UInt8)).flatten.length) := by
    rw [List.nil_append, List.flatten_singleton]
    exact fun both => absurd both.2 (not_le.mpr short)
  have kept : onData decode .new data = (.handled, ⟨[] ++ [data], none, none⟩) := if_neg few
  rw [kept]
  exact ⟨⟨data, [], rfl, short⟩, rfl, rfl⟩

end Short

/-- **A response is delivered**, and no event throws, exactly if the first event has the
four bytes of its length. -/
theorem delivered_iff (decode : List UInt8 → String) (arrival : Arrival) :
    Delivered decode arrival ↔ 4 ≤ (arrival.events.headD []).length := by
  obtain ⟨frame, later, events, inhabited, whole⟩ := arrival
  cases events with
  | nil =>
      have length := congrArg List.length whole
      rw [List.flatten_nil, List.length_append, frame.length_wire, List.length_nil] at length
      omega
  | cons data events =>
      show _ ↔ 4 ≤ data.length
      rw [List.flatten_cons] at whole
      constructor
      · intro delivered
        by_contra few
        have stuck : Stuck ((listener decode).run .new (data :: events)) :=
          (listener decode).run_invariant (P := Stuck) (fun _ data stuck => onData_stuck stuck data)
            (onData_short (not_le.mp few)) events
        have resolved := delivered.resolved
        rw [stuck.resolved] at resolved
        cases resolved
      · intro four
        obtain ⟨handled, first⟩ := onData_first decode whole four
        obtain ⟨last, others⟩ := run_reading whole first
        refine ⟨last.resolved.trans (if_pos ?_), List.forall_mem_cons.mpr ⟨handled, others⟩⟩
        rw [List.length_append, frame.length_wire]
        omega

/-- With a shorter first event, one of the events throws. -/
theorem throws_of_short (decode : List UInt8 → String) (arrival : Arrival)
    (short : (arrival.events.headD []).length < 4) :
    ∃ e ∈ (listener decode).trace .new arrival.events, e.reply = .rangeError := by
  have length := congrArg List.length arrival.whole
  rw [List.length_append, arrival.frame.length_wire] at length
  generalize arrival.events = events at short length
  cases events with
  | nil =>
      rw [List.flatten_nil, List.length_nil] at length
      omega
  | cons data events =>
      have few : data.length < 4 := short
      obtain rfl | ⟨before, last, rfl⟩ := events.eq_nil_or_concat
      · rw [List.flatten_singleton] at length
        omega
      · have stuck : Stuck ((listener decode).run .new (data :: before)) :=
          (listener decode).run_invariant (P := Stuck) (fun _ data stuck => onData_stuck stuck data)
            (onData_short few) before
        have kept := run_chunks decode (data :: before) .new
        refine ⟨(listener decode).event ((listener decode).run .new (data :: before)) last, ?_, ?_⟩
        · rw [List.concat_eq_append, ← List.cons_append, Machine.trace_append]
          exact List.mem_append_right _ (List.mem_singleton.mpr rfl)
        · refine onData_throws stuck ?_
          rw [kept]
          rw [List.concat_eq_append] at length
          simp only [Reader.new, List.nil_append, List.cons_append]
          omega

/-! ## Poles -/

theorem emptyObject_short : [123, 125].length < 2 ^ 32 := by decide

theorem bytewise_inhabited :
    ∀ data ∈ ([[0], [0], [0], [2], [123], [125]] : List (List UInt8)), data ≠ [] := by decide

theorem bytewise_whole :
    ([[0], [0], [0], [2], [123], [125]] : List (List UInt8)).flatten =
      (Frame.mk [123, 125] emptyObject_short).wire ++ [] := by decide

/-- An empty object, one byte after the other. -/
def bytewise : Arrival where
  frame := ⟨[123, 125], emptyObject_short⟩
  later := []
  events := [[0], [0], [0], [2], [123], [125]]
  inhabited := bytewise_inhabited
  whole := bytewise_whole

/-- Refuting pole: the fourth byte throws, and the promise stays open. -/
theorem bytewise_not_delivered :
    ¬ ∀ (decode : List UInt8 → String) (arrival : Arrival), Delivered decode arrival := by
  intro always
  obtain ⟨e, member, throws⟩ := throws_of_short (fun _ => "") bytewise (by decide)
  rw [(always (fun _ => "") bytewise).handled e member] at throws
  cases throws

end RustBridgeService

end CentaurApex.Gateway
