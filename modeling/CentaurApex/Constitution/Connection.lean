/-
# Constitution.Connection -- the bytes of one connection

`constitutiond` reads a connection as frames: a four-byte length, then that many
bytes.  TCP delivers the stream in pieces of its own choosing (`TcpStream`);
`read_full` puts them together again, so the pieces do not matter
(`readFull_eq`).

What matters is where the stream ends.  `read_full` returns what there was, and
`handle_connection` looks at the count only to see whether it is zero: a header
that breaks off is completed by the bytes of the header before it, a body that
breaks off by zeros, and the result is handled and answered (`unfinished`).
`complete_frames_iff` says for which streams exactly the complete frames are
handled.

The kernel is shared by all connections and locked per frame, so between two
frames of one connection the frames of others may have been handled
(`sharedServer`).
-/
import CentaurApex.Theory.Framing
import CentaurApex.Constitution.Ipc

namespace CentaurApex.Constitution

open CentaurApex.Theory

set_option autoImplicit false

/-! ## Reading -/

/-- The bytes a client has sent before it closed its side, and how many each of
the reads to come delivers at most, less one. -/
structure TcpStream where
  unread : List UInt8
  chunks : Nat → Nat

namespace TcpStream

/-- `read(buf)` into a buffer of `n` bytes: no bytes only at the end. -/
def read (s : TcpStream) (n : Nat) : List UInt8 × TcpStream :=
  (s.unread.take (min (s.chunks 0 + 1) n),
    { unread := s.unread.drop (min (s.chunks 0 + 1) n), chunks := fun i => s.chunks (i + 1) })

theorem read_append (s : TcpStream) (n : Nat) : (s.read n).1 ++ (s.read n).2.unread = s.unread :=
  List.take_append_drop _ _

theorem length_read_le (s : TcpStream) (n : Nat) : (s.read n).1.length ≤ n := by
  rw [read, List.length_take]
  omega

/-- A read with room for a byte comes back empty at the end of the stream only. -/
theorem read_eq_nil {s : TcpStream} {n : Nat} (room : n ≠ 0) (empty : (s.read n).1 = []) :
    s.unread = [] := by
  rcases List.take_eq_nil_iff.mp empty with none_ | ended
  · omega
  · exact ended

end TcpStream

/-- `read_full`: read until the buffer of `n` bytes is full or the stream ends. -/
def readFull (n : Nat) (s : TcpStream) : List UInt8 × TcpStream :=
  if n = 0 then ([], s)
  else
    match s.read n with
    | ([], s) => ([], s)
    | (b :: chunk, s) =>
        let more := readFull (n - (b :: chunk).length) s
        (b :: chunk ++ more.1, more.2)
termination_by n
decreasing_by
  rw [List.length_cons]
  omega

/-- **The pieces do not matter**: `read_full` takes the front of the stream. -/
theorem readFull_eq (n : Nat) (s : TcpStream) :
    (readFull n s).1 = s.unread.take n ∧ (readFull n s).2.unread = s.unread.drop n := by
  induction n using Nat.strong_induction_on generalizing s with
  | _ n ih =>
      rw [readFull]
      split
      · rename_i full
        rw [full]
        exact ⟨rfl, rfl⟩
      · rename_i room
        have whole := s.read_append n
        have le := s.length_read_le n
        split
        · rename_i s' got
          have ended := TcpStream.read_eq_nil room (congrArg Prod.fst got)
          rw [got] at whole
          rw [ended, List.take_nil, List.drop_nil]
          exact ⟨rfl, (List.append_eq_nil_iff.mp (whole.trans ended)).2⟩
        · rename_i b chunk s' got
          rw [got] at whole le
          obtain ⟨taken, left⟩ := ih (n - (b :: chunk).length)
            (by rw [List.length_cons]; omega) s'
          dsimp only at whole le ⊢
          rw [taken, left, ← whole, List.take_append, List.drop_append,
            List.take_of_length_le le, List.drop_eq_nil_of_le le, List.nil_append]
          exact ⟨rfl, rfl⟩

/-! ## The connection -/

/-- What `handle_connection` has done when it returns. -/
structure Served (σ ο : Type) where
  /-- The frames it handed to `handle_frame`. -/
  handled : List (List UInt8)
  /-- The responses it wrote. -/
  written : List ο
  server : σ
  /-- It returned an error, for a length out of bounds. -/
  invalid : Bool

section Connection

variable {σ ο : Type} (server : Machine σ (List UInt8) ο)

/-- The loop of `handle_connection`, over a header buffer that keeps its bytes. -/
def connectionLoop (header : List UInt8) (stream : TcpStream) (state : σ) : Served σ ο :=
  let read := readFull 4 stream
  if read.1.length = 0 then { handled := [], written := [], server := state, invalid := false }
  else
    let header := read.1 ++ header.drop read.1.length
    let frameLen := unpackU32 header
    if frameLen = 0 ∨ frameLen > maxFrameBytes then
      { handled := [], written := [], server := state, invalid := true }
    else
      let body := readFull frameLen read.2
      let frame := body.1 ++ List.replicate (frameLen - body.1.length) 0
      let answer := server.step state frame
      let rest := connectionLoop header body.2 answer.2
      { rest with handled := frame :: rest.handled, written := answer.1 :: rest.written }
termination_by stream.unread.length
decreasing_by
  rename_i some_ _
  rw [(readFull_eq _ _).2, (readFull_eq _ _).2, List.length_drop, List.length_drop]
  rw [(readFull_eq _ _).1, List.length_take] at some_
  omega

def handleConnection (stream : TcpStream) (state : σ) : Served σ ο :=
  connectionLoop server [0, 0, 0, 0] stream state

end Connection

/-- The server behind its lock: before each frame of this connection, some frames
of other connections may be handled. -/
def sharedServer (codec : Codec) :
    Machine (IpcServer × List (List (List UInt8))) (List UInt8) (Except IpcError IpcResponse) where
  step state frame :=
    let locked := (ipcMachine codec).run state.1 (state.2.headD [])
    ((locked.handleFrame codec frame).1, ((locked.handleFrame codec frame).2, state.2.tail))

/-! ## What is handled -/

/-- The length of the last of the complete frames, or `last` where there is none. -/
def lastLength (last : Nat) (frames : List (List UInt8)) : Nat :=
  (frames.getLast?.map List.length).getD last

/-- What is handled of a stream that holds no complete frame any more, after a
frame of length `last`. -/
def unfinished (last : Nat) (rest : List UInt8) : List (List UInt8) :=
  let frameLen := unpackU32 (rest.take 4 ++ (packU32 last).drop (rest.take 4).length)
  if rest = [] ∨ frameLen = 0 ∨ frameLen > maxFrameBytes then []
  else [(rest.drop 4).take frameLen ++
    List.replicate (frameLen - ((rest.drop 4).take frameLen).length) 0]

/-- The complete frames of a stream. -/
def completeFrames (stream : List UInt8) : List (List UInt8) :=
  (splitFrames maxFrameBytes stream).1

section Handled

variable {σ ο : Type} (server : Machine σ (List UInt8) ο)

/-- One response for each frame handled, in order. -/
theorem connectionLoop_written (header : List UInt8) (stream : TcpStream) (state : σ) :
    (connectionLoop server header stream state).written =
      (server.trace state (connectionLoop server header stream state).handled).map Event.reply := by
  fun_induction connectionLoop server header stream state with
  | case1 => rfl
  | case2 => rfl
  | case3 header stream state read some_ header' frameLen legal body frame answer rest ih =>
      simp only [Machine.trace, List.map_cons]
      exact congrArg (answer.1 :: ·) ih

theorem connectionLoop_server (header : List UInt8) (stream : TcpStream) (state : σ) :
    (connectionLoop server header stream state).server =
      server.run state (connectionLoop server header stream state).handled := by
  fun_induction connectionLoop server header stream state with
  | case1 => rfl
  | case2 => rfl
  | case3 header stream state read some_ header' frameLen legal body frame answer rest ih =>
      exact ih

theorem connectionLoop_ended (header : List UInt8) {stream : TcpStream} (state : σ)
    (ended : stream.unread = []) : (connectionLoop server header stream state).handled = [] := by
  have nothing : (readFull 4 stream).1.length = 0 := by
    rw [(readFull_eq 4 stream).1, ended]
    rfl
  rw [connectionLoop]
  simp only [nothing, if_true]

theorem lastLength_cons (last : Nat) (frame : List UInt8) (frames : List (List UInt8)) :
    lastLength last (frame :: frames) = lastLength frame.length frames := by
  rw [lastLength, lastLength, List.getLast?_cons]
  cases frames.getLast? <;> rfl

/-- The header buffer after a read: whole, or completed by what it held before. -/
theorem header_eq (last : Nat) (stream : TcpStream) :
    (readFull 4 stream).1 ++ (packU32 last).drop (readFull 4 stream).1.length =
      stream.unread.take 4 ++ (packU32 last).drop (stream.unread.take 4).length := by
  rw [(readFull_eq 4 stream).1]

theorem header_whole (last : Nat) {stream : List UInt8} (whole : 4 ≤ stream.length) :
    stream.take 4 ++ (packU32 last).drop (stream.take 4).length = stream.take 4 := by
  have four : (stream.take 4).length = 4 := by
    rw [List.length_take]
    omega
  rw [four, List.drop_of_length_le (length_packU32 last).le, List.append_nil]

/-- The body that follows the header, and what is left of the stream behind it. -/
theorem readBody_eq (n : Nat) (stream : TcpStream) :
    (readFull n (readFull 4 stream).2).1 = (stream.unread.drop 4).take n ∧
      (readFull n (readFull 4 stream).2).2.unread = stream.unread.drop (4 + n) := by
  obtain ⟨body, left⟩ := readFull_eq n (readFull 4 stream).2
  rw [(readFull_eq 4 stream).2] at body left
  rw [List.drop_drop] at left
  exact ⟨body, left⟩

section Pass

variable {last n : Nat} {stream : TcpStream}
  (spelt : unpackU32 (stream.unread.take 4 ++
    (packU32 last).drop (stream.unread.take 4).length) = n)
include spelt

/-- A length out of bounds ends the connection. -/
theorem connectionLoop_illegal (illegal : n = 0 ∨ n > maxFrameBytes) (state : σ) :
    (connectionLoop server (packU32 last) stream state).handled = [] := by
  rw [connectionLoop]
  dsimp only
  rw [header_eq, spelt, if_pos illegal]
  split <;> rfl

/-- One pass of the loop: what it has read of the frame is filled up and handled. -/
theorem connectionLoop_legal (legal : ¬ (n = 0 ∨ n > maxFrameBytes)) (some_ : stream.unread ≠ [])
    (state : σ) :
    ∃ state', (connectionLoop server (packU32 last) stream state).handled =
      ((stream.unread.drop 4).take n ++
          List.replicate (n - ((stream.unread.drop 4).take n).length) 0) ::
        (connectionLoop server
          (stream.unread.take 4 ++ (packU32 last).drop (stream.unread.take 4).length)
          (readFull n (readFull 4 stream).2).2 state').handled := by
  have read : (readFull 4 stream).1.length ≠ 0 := by
    rw [(readFull_eq 4 stream).1, List.length_take]
    have := List.length_pos_iff.mpr some_
    omega
  rw [connectionLoop]
  dsimp only
  rw [header_eq, spelt, if_neg read, if_neg legal, (readBody_eq n stream).1]
  exact ⟨_, rfl⟩

/-- A stream in which the spelt frame is not legal and whole holds no complete frame. -/
theorem splitFrames_stops (stops : ¬ (0 < n ∧ n ≤ maxFrameBytes ∧ 4 + n ≤ stream.unread.length)) :
    splitFrames maxFrameBytes stream.unread = ([], stream.unread) := by
  refine splitFrames_rest fun ⟨positive, bounded, whole⟩ => ?_
  rw [header_whole last (by omega)] at spelt
  omega

/-- A legal and whole frame is the first of the complete frames. -/
theorem splitFrames_first (positive : 0 < n) (bounded : n ≤ maxFrameBytes)
    (whole : 4 + n ≤ stream.unread.length) :
    stream.unread.take 4 = packU32 n ∧ splitFrames maxFrameBytes stream.unread =
      ((stream.unread.drop 4).take n ::
        (splitFrames maxFrameBytes (stream.unread.drop (4 + n))).1,
          (splitFrames maxFrameBytes (stream.unread.drop (4 + n))).2) := by
  rw [header_whole last (by omega)] at spelt
  have header : packU32 (unpackU32 (stream.unread.take 4)) = stream.unread.take 4 := by
    refine packU32_unpackU32 ?_
    rw [List.length_take]
    omega
  rw [spelt] at header
  have complete : splitFrames maxFrameBytes stream.unread = _ :=
    splitFrames_whole (by omega) (by omega) (by omega)
  rw [spelt] at complete
  exact ⟨header.symm, complete⟩

end Pass

/-- Where no complete frame is left, the broken end is all that is handled. -/
theorem handled_of_stops {stream : List UInt8} (last : Nat)
    (stops : splitFrames maxFrameBytes stream = ([], stream)) :
    completeFrames stream ++ unfinished (lastLength last (completeFrames stream))
      (splitFrames maxFrameBytes stream).2 = unfinished last stream := by
  rw [completeFrames, stops]
  rfl

/-- **What is handled**: the complete frames, and what the broken end is taken for. -/
theorem connectionLoop_handled (stream : TcpStream) :
    ∀ (last : Nat) (state : σ), (connectionLoop server (packU32 last) stream state).handled =
      completeFrames stream.unread ++
        unfinished (lastLength last (completeFrames stream.unread))
          (splitFrames maxFrameBytes stream.unread).2 := by
  induction length : stream.unread.length using Nat.strong_induction_on generalizing stream with
  | _ m ih =>
      intro last state
      by_cases ended : stream.unread = []
      · have stops : splitFrames maxFrameBytes stream.unread = ([], stream.unread) :=
          splitFrames_rest (by rw [ended]; simp)
        rw [connectionLoop_ended server _ _ ended, handled_of_stops last stops, unfinished,
          if_pos (Or.inl ended)]
      generalize spelt : unpackU32
        (stream.unread.take 4 ++ (packU32 last).drop (stream.unread.take 4).length) = n
      by_cases illegal : n = 0 ∨ n > maxFrameBytes
      · -- an invalid length ends the connection, and the frames of the stream
        rw [connectionLoop_illegal server spelt illegal,
          handled_of_stops last (splitFrames_stops spelt (by omega)), unfinished]
        simp only [spelt, if_pos (Or.inr illegal)]
      obtain ⟨state', handled⟩ := connectionLoop_legal server spelt illegal ended state
      obtain ⟨_, left⟩ := readBody_eq n stream
      rw [handled]
      by_cases whole : 4 + n ≤ stream.unread.length
      · -- a complete frame: its header spells its length
        obtain ⟨header, complete⟩ := splitFrames_first spelt (by omega) (by omega) whole
        have bodyLength : ((stream.unread.drop 4).take n).length = n := by
          rw [List.length_take, List.length_drop]
          omega
        have shorter : (readFull n (readFull 4 stream).2).2.unread.length < m := by
          rw [left, List.length_drop]
          omega
        rw [header_whole last (by omega), header, ih _ shorter _ rfl, left, bodyLength,
          Nat.sub_self, List.replicate_zero, List.append_nil, completeFrames, completeFrames,
          complete, lastLength_cons, bodyLength]
        rfl
      · -- a broken header or body: what was read of it is completed, and handled
        have drained : (readFull n (readFull 4 stream).2).2.unread = [] := by
          rw [left]
          exact List.drop_of_length_le (by omega)
        rw [connectionLoop_ended server _ _ drained,
          handled_of_stops last (splitFrames_stops spelt (by omega)), unfinished]
        simp only [spelt, if_neg (not_or.mpr ⟨ended, illegal⟩)]

theorem handleConnection_handled (stream : TcpStream) (state : σ) :
    (handleConnection server stream state).handled =
      completeFrames stream.unread ++
        unfinished (lastLength 0 (completeFrames stream.unread))
          (splitFrames maxFrameBytes stream.unread).2 :=
  connectionLoop_handled server stream 0 state

/-- A connection that carries one frame has it handled and answered. -/
theorem handleConnection_wire (f : Frame) (positive : 0 < f.body.length)
    (bounded : f.body.length ≤ maxFrameBytes) (chunks : Nat → Nat) (state : σ) :
    (handleConnection server ⟨f.wire, chunks⟩ state).written = [(server.step state f.body).1] ∧
      (handleConnection server ⟨f.wire, chunks⟩ state).server = (server.step state f.body).2 := by
  have handled : (handleConnection server ⟨f.wire, chunks⟩ state).handled = [f.body] := by
    rw [handleConnection_handled, completeFrames, splitFrames_wire f positive bounded]
    rfl
  have written := connectionLoop_written server [0, 0, 0, 0] ⟨f.wire, chunks⟩ state
  have after := connectionLoop_server server [0, 0, 0, 0] ⟨f.wire, chunks⟩ state
  rw [handleConnection] at handled ⊢
  rw [written, after, handled]
  exact ⟨rfl, rfl⟩

/-- Of the frames of a client, the first whose length is out of bounds ends the
connection with an error, and nothing else does. -/
theorem connectionLoop_invalid_iff (frames : List Frame) :
    ∀ (header : List UInt8) (stream : TcpStream) (state : σ), header.length = 4 →
      stream.unread = frames.flatMap Frame.wire →
      ((connectionLoop server header stream state).invalid = true ↔
        ∃ f ∈ frames, f.body.length = 0 ∨ f.body.length > maxFrameBytes) := by
  induction frames with
  | nil =>
      intro header stream state _ ended
      have nothing : (readFull 4 stream).1.length = 0 := by
        rw [(readFull_eq 4 stream).1, ended]
        rfl
      rw [connectionLoop]
      simp [nothing]
  | cons f frames ih =>
      intro header stream state four spelt
      rw [List.flatMap_cons, Frame.wire, List.append_assoc] at spelt
      have read : (readFull 4 stream).1 = packU32 f.body.length := by
        rw [(readFull_eq 4 stream).1, spelt]
        exact List.take_left' (length_packU32 _)
      have whole : packU32 f.body.length ++ header.drop 4 = packU32 f.body.length := by
        rw [List.drop_of_length_le four.le, List.append_nil]
      have left : (readFull f.body.length (readFull 4 stream).2).2.unread =
          frames.flatMap Frame.wire := by
        rw [(readBody_eq f.body.length stream).2, spelt, ← List.append_assoc]
        exact List.drop_left' (by rw [List.length_append, length_packU32])
      rw [connectionLoop]
      simp only [read, length_packU32, whole, unpackU32_packU32 f.short, List.exists_mem_cons_iff]
      by_cases illegal : f.body.length = 0 ∨ f.body.length > maxFrameBytes
      · simp only [if_pos illegal, four_ne_zero, if_false]
        exact iff_of_true trivial (.inl illegal)
      · simp only [if_neg illegal, four_ne_zero, if_false]
        rw [or_iff_right illegal]
        exact ih _ _ _ (length_packU32 _) left

/-- The same of a whole connection. -/
theorem handleConnection_invalid_iff (frames : List Frame) (chunks : Nat → Nat) (state : σ) :
    (handleConnection server ⟨frames.flatMap Frame.wire, chunks⟩ state).invalid = true ↔
      ∃ f ∈ frames, f.body.length = 0 ∨ f.body.length > maxFrameBytes :=
  connectionLoop_invalid_iff server frames _ _ _ rfl rfl

end Handled

/-! ## When exactly the complete frames are handled -/

/-- The stream ends with a complete frame, or at a length that is out of bounds.
A header that breaks off counts as the length it spells with the bytes of the
header before it (of zeros, where there was none). -/
def EndsCleanly (stream : List UInt8) : Prop :=
  let rest := (splitFrames maxFrameBytes stream).2
  let header := rest.take 4 ++
    (packU32 (lastLength 0 (completeFrames stream))).drop (rest.take 4).length
  rest = [] ∨ unpackU32 header = 0 ∨ unpackU32 header > maxFrameBytes

instance (stream : List UInt8) : Decidable (EndsCleanly stream) :=
  inferInstanceAs (Decidable (_ ∨ _))

/-- Exactly the complete frames are handled, and each is answered once. -/
def HandlesCompleteFrames (codec : Codec)
    (state : IpcServer × List (List (List UInt8))) (stream : TcpStream) : Prop :=
  (handleConnection (sharedServer codec) stream state).handled = completeFrames stream.unread ∧
    (handleConnection (sharedServer codec) stream state).written =
      ((sharedServer codec).trace state (completeFrames stream.unread)).map Event.reply

theorem endsCleanly_iff (stream : List UInt8) :
    EndsCleanly stream ↔ unfinished (lastLength 0 (completeFrames stream))
      (splitFrames maxFrameBytes stream).2 = [] := by
  unfold EndsCleanly unfinished
  dsimp only
  split
  · rename_i ends
    exact iff_of_true ends rfl
  · rename_i goesOn
    exact iff_of_false goesOn (List.cons_ne_nil _ _)

/-- **Exactly the complete frames are handled when the stream ends cleanly**,
whatever the pieces it is read in, and whatever other connections do. -/
theorem complete_frames_iff (codec : Codec) (state : IpcServer × List (List (List UInt8)))
    (stream : TcpStream) :
    HandlesCompleteFrames codec state stream ↔ EndsCleanly stream.unread := by
  have written : (handleConnection (sharedServer codec) stream state).written =
      ((sharedServer codec).trace state
        (handleConnection (sharedServer codec) stream state).handled).map Event.reply :=
    connectionLoop_written _ _ _ _
  rw [endsCleanly_iff, HandlesCompleteFrames, written, handleConnection_handled]
  constructor
  · exact fun exact_ => List.append_right_eq_self.mp exact_.1
  · intro none_
    rw [none_, List.append_nil]
    exact ⟨rfl, rfl⟩

/-! ## Poles -/

/-- Refuting pole: a body of two bytes that breaks off after the first is handled
with a zero for the second. -/
theorem broken_body_handled :
    ¬ ∀ (codec : Codec) (state : IpcServer × List (List (List UInt8))) (stream : TcpStream),
      HandlesCompleteFrames codec state stream := by
  intro always
  obtain ⟨handled, _⟩ := always ⟨fun _ => none, fun _ => none, fun _ => none⟩
    (.new (.new .default), []) ⟨[0, 0, 0, 2, 123], fun _ => 0⟩
  have broken : splitFrames maxFrameBytes [0, 0, 0, 2, 123] = ([], [0, 0, 0, 2, 123]) :=
    splitFrames_rest (by decide +kernel)
  rw [handleConnection_handled] at handled
  have none_ := List.append_right_eq_self.mp handled
  simp only [completeFrames, broken] at none_
  exact absurd none_ (by decide +kernel)

end CentaurApex.Constitution
