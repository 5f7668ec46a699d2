/-
# Constitution.Clients -- the threads of the daemon

`main` gives each connection a thread of its own, and all threads share one kernel
behind a mutex, locked for a frame at a time.  `handleConnection` says what a thread
does in one go; here it goes byte by byte, as the network and the scheduler let it
(`ConnectionThread.goes`), and any number of threads go at once (`Theory.SharedObject`).

`clients_served`: whatever the schedule, the kernel is where one sequential run of it over
the frames, in the order of the lock, takes it; a connection's frames in that order are
those `handle_connection` reads from its bytes, less at most one, and what is written on it
are the answers to them, in order, of which the last may be cut short.
`client_not_blocked`: a frame that has been read is answered without a byte from any other
client.
-/
import CentaurApex.Theory.SharedObject
import CentaurApex.Constitution.ResponseText
import CentaurApex.Constitution.Connection

namespace CentaurApex.Constitution

open CentaurApex.Theory

set_option autoImplicit false

/-! ## One thread -/

/-- How `handle_connection` has returned. -/
inductive Ending where
  /-- The client closed its side between two frames. -/
  | finished
  /-- A length out of bounds. -/
  | invalidLength
  /-- A read or a write raised. -/
  | broken
  deriving DecidableEq, Repr

/-- Where a thread is in the loop of `handle_connection`. -/
inductive Phase where
  | header (got : List UInt8)
  | body (frameLen : Nat) (got : List UInt8)
  /-- It waits for the mutex, with a frame to hand to `handle_frame`. -/
  | evaluating (frame : List UInt8)
  | writing (unsent : List UInt8)
  | returned (ending : Ending)
  deriving DecidableEq, Repr

/-- A thread and its socket: what has arrived there, how much of that the thread has
read, whether the client has closed its side, and what has been written. -/
structure ConnectionThread where
  phase : Phase
  header : List UInt8
  arrived : List UInt8
  taken : Nat
  closed : Bool
  sent : List UInt8
  deriving DecidableEq, Repr

/-- What happens to a connection: bytes arrive, the client closes its side, the thread
goes on (with at most `k + 1` bytes read or written), or its read or write raises. -/
inductive Happening where
  | arrives (bytes : List UInt8)
  | closes
  | goes (k : Nat)
  | breaks
  deriving DecidableEq, Repr

namespace ConnectionThread

/-- The thread that `accept` has just spawned. -/
def accepted : ConnectionThread :=
  { phase := .header [], header := [0, 0, 0, 0], arrived := [], taken := 0, closed := false
    sent := [] }

def unread (t : ConnectionThread) : List UInt8 := t.arrived.drop t.taken

/-- `stream.read` with room for `room` bytes: nothing while there is nothing to read and
the client may still send. -/
def read (t : ConnectionThread) (room k : Nat) : Option (List UInt8) :=
  if t.unread = [] then if t.closed then some [] else none
  else some (t.unread.take (min (k + 1) room))

/-- What follows the header's `read_full`. -/
def afterHeader (t : ConnectionThread) (got : List UInt8) : ConnectionThread :=
  if got.length = 0 then { t with phase := .returned .finished }
  else
    let header := got ++ t.header.drop got.length
    let frameLen := unpackU32 header
    if frameLen = 0 ∨ frameLen > maxFrameBytes then
      { t with header, phase := .returned .invalidLength }
    else { t with header, phase := .body frameLen [] }

/-- What follows the body's `read_full`: the frame, with zeros where it broke off. -/
def afterBody (t : ConnectionThread) (frameLen : Nat) (got : List UInt8) : ConnectionThread :=
  { t with phase := .evaluating (got ++ List.replicate (frameLen - got.length) 0) }

/-- One round of the loop of `read_full`, or of `write_all`. -/
def goes (t : ConnectionThread) (k : Nat) : ConnectionThread :=
  match t.phase with
  | .header got =>
      match t.read (4 - got.length) k with
      | none => t
      | some [] => t.afterHeader got
      | some (b :: chunk) =>
          let t := { t with taken := t.taken + (b :: chunk).length }
          let got := got ++ b :: chunk
          if got.length < 4 then { t with phase := .header got } else t.afterHeader got
  | .body frameLen got =>
      match t.read (frameLen - got.length) k with
      | none => t
      | some [] => t.afterBody frameLen got
      | some (b :: chunk) =>
          let t := { t with taken := t.taken + (b :: chunk).length }
          let got := got ++ b :: chunk
          if got.length < frameLen then { t with phase := .body frameLen got }
          else t.afterBody frameLen got
  | .evaluating _ => t
  | .writing unsent =>
      let rest := unsent.drop (k + 1)
      { t with
        sent := t.sent ++ unsent.take (k + 1)
        phase := if rest = [] then .header [] else .writing rest }
  | .returned _ => t

/-- A read or a write that raises ends the thread; one that waits for the mutex is in
neither. -/
def breaks (t : ConnectionThread) : ConnectionThread :=
  match t.phase with
  | .evaluating _ => t
  | .returned _ => t
  | _ => { t with phase := .returned .broken }

end ConnectionThread

/-- `write_frame`: the length of the payload as a `u32`, then the payload. -/
def writeFrame (payload : List UInt8) : List UInt8 := packU32 payload.length ++ payload

/-- `handle_connection` on a thread of its own. -/
def connectionThread : Thread ConnectionThread Happening (List UInt8) (List UInt8) where
  own t
    | .arrives bytes => if t.closed then t else { t with arrived := t.arrived ++ bytes }
    | .closes => { t with closed := true }
    | .goes k => t.goes k
    | .breaks => t.breaks
  asks t :=
    match t.phase with
    | .evaluating frame => some frame
    | _ => none
  told t payload := { t with phase := .writing (writeFrame payload) }

/-- `main`, over any server behind the mutex: connections are numbered as they are
accepted. -/
abbrev daemon {σ : Type} (server : Machine σ (List UInt8) (List UInt8)) :
    Machine (Shared ℕ σ ConnectionThread) (Act ℕ Happening)
      (Option (Asked ℕ (List UInt8) (List UInt8))) :=
  sharing server connectionThread

def Daemon.start {σ : Type} (state : σ) : Shared ℕ σ ConnectionThread :=
  { object := state, holder := none, threads := fun _ => .accepted }

/-- The kernel of `constitutiond`, and the payloads it answers with. -/
def constitutiond (codec : Codec) (number : F64 → List UInt8) :
    Machine IpcServer (List UInt8) (List UInt8) where
  step server frame :=
    (responseBytes number (server.handleFrame codec frame).1, (server.handleFrame codec frame).2)

/-! ## The frames of a stream, one after the other -/

/-- What `handle_connection` reads from a stream after a header that spelt `last`. -/
def framesOf (last : Nat) (stream : List UInt8) : List (List UInt8) :=
  completeFrames stream ++
    unfinished (lastLength last (completeFrames stream)) (splitFrames maxFrameBytes stream).2

/-- The front of a stream as a frame of `n` bytes. -/
def filledUp (n : Nat) (stream : List UInt8) : List UInt8 :=
  stream.take n ++ List.replicate (n - (stream.take n).length) 0

theorem handled_eq_framesOf {σ ο : Type} (server : Machine σ (List UInt8) ο) (last : Nat)
    (stream : TcpStream) (state : σ) :
    (connectionLoop server (packU32 last) stream state).handled = framesOf last stream.unread :=
  connectionLoop_handled server stream last state

theorem framesOf_nil (last : Nat) : framesOf last [] = [] := by
  rw [← handled_eq_framesOf (⟨fun s _ => ((), s)⟩ : Machine Unit (List UInt8) Unit) last
    ⟨[], fun _ => 0⟩ ()]
  exact connectionLoop_ended _ _ _ rfl

section Frames

variable {last n : Nat} {stream : List UInt8}
  (spelt : unpackU32 (stream.take 4 ++ (packU32 last).drop (stream.take 4).length) = n)
include spelt

theorem framesOf_illegal (illegal : n = 0 ∨ n > maxFrameBytes) : framesOf last stream = [] := by
  rw [← handled_eq_framesOf (⟨fun s _ => ((), s)⟩ : Machine Unit (List UInt8) Unit) last
    ⟨stream, fun _ => 0⟩ ()]
  exact connectionLoop_illegal _ spelt illegal ()

theorem framesOf_legal (legal : ¬ (n = 0 ∨ n > maxFrameBytes)) (some_ : stream ≠ []) :
    framesOf last stream = filledUp n (stream.drop 4) :: framesOf n (stream.drop (4 + n)) := by
  rw [← handled_eq_framesOf (⟨fun s _ => ((), s)⟩ : Machine Unit (List UInt8) Unit) last
    ⟨stream, fun _ => 0⟩ ()]
  let whole : TcpStream := ⟨stream, fun _ => 0⟩
  have spelt' : unpackU32 (whole.unread.take 4 ++
      (packU32 last).drop (whole.unread.take 4).length) = n := spelt
  obtain ⟨_, handled⟩ := connectionLoop_legal
    (⟨fun s _ => ((), s)⟩ : Machine Unit (List UInt8) Unit) spelt' legal some_ ()
  have header : stream.take 4 ++ (packU32 last).drop (stream.take 4).length = packU32 n := by
    rw [← spelt]
    refine (packU32_unpackU32 ?_).symm
    rw [List.length_append, List.length_drop, length_packU32, List.length_take]
    omega
  refine handled.trans ?_
  rw [show whole.unread = stream from rfl, header, handled_eq_framesOf, (readBody_eq n _).2]
  rfl

end Frames

/-! ## What a thread still has before it -/

namespace ConnectionThread

/-- The bytes the thread has read. -/
def seen (t : ConnectionThread) : List UInt8 := t.arrived.take t.taken

/-- What can follow the bytes read: nothing, once the client has closed its side and all that
arrived is read. -/
def Follows (t : ConnectionThread) (rest : List UInt8) : Prop :=
  t.closed = true → t.unread = [] → rest = []

/-- The frames a thread will hand over, if `rest` follows the bytes it has read. -/
def future (t : ConnectionThread) (rest : List UInt8) : List (List UInt8) :=
  let last := unpackU32 t.header
  match t.phase with
  | .header got => framesOf last (got ++ rest)
  | .body frameLen got =>
      filledUp frameLen (got ++ rest) :: framesOf last ((got ++ rest).drop frameLen)
  | .evaluating frame => frame :: framesOf last rest
  | .writing _ => framesOf last rest
  | .returned _ => []

/-- What the buffers of a thread hold, at each phase. -/
structure Buffers (t : ConnectionThread) : Prop where
  header : t.header.length = 4
  taken : t.taken ≤ t.arrived.length
  phase : match t.phase with
    | .header got => got.length < 4
    | .body frameLen got => got.length < frameLen ∧ unpackU32 t.header = frameLen
    | _ => True

section Reads

variable {t : ConnectionThread} {room k : Nat}

theorem read_end (positive : 0 < room) (ended : t.read room k = some []) :
    t.unread = [] ∧ t.closed = true := by
  unfold read at ended
  split at ended
  · rename_i empty
    split at ended
    · exact ⟨empty, ‹_›⟩
    · cases ended
  · rename_i some_
    rcases List.take_eq_nil_iff.mp (Option.some.inj ended) with none_ | empty
    · omega
    · exact absurd empty some_

/-- The next bytes of the socket are these, up to the `n`th that arrived. -/
structure Took (t : ConnectionThread) (n : Nat) (chunk : List UInt8) : Prop where
  bound : n ≤ t.arrived.length
  unread : t.unread = chunk ++ t.arrived.drop n

theorem took_nothing (bound : t.taken ≤ t.arrived.length) : t.Took t.taken [] := ⟨bound, rfl⟩

theorem read_chunk {b : UInt8} {chunk : List UInt8} (bound : t.taken ≤ t.arrived.length)
    (got : t.read room k = some (b :: chunk)) :
    (b :: chunk).length ≤ room ∧ t.Took (t.taken + (b :: chunk).length) (b :: chunk) := by
  unfold read at got
  split at got
  · split at got <;> cases got
  · have front := Option.some.inj got
    have pre : b :: chunk <+: t.unread := by
      rw [← front]
      exact List.take_prefix _ _
    have fits : (b :: chunk).length ≤ t.unread.length := pre.length_le
    obtain ⟨rest, whole⟩ := pre
    have room_ : (b :: chunk).length ≤ room := by
      rw [← front, List.length_take]
      omega
    refine ⟨room_, ?_, ?_⟩
    · rw [unread, List.length_drop] at fits
      omega
    · rw [← List.drop_drop]
      show t.unread = b :: chunk ++ t.unread.drop (b :: chunk).length
      rw [← whole, List.drop_left]

theorem Took.seen {n : Nat} {chunk : List UInt8} (took : t.Took n chunk) :
    t.arrived.take n = t.seen ++ chunk := by
  have whole : t.seen ++ t.unread = t.arrived := List.take_append_drop _ _
  rw [took.unread, ← List.append_assoc] at whole
  exact List.append_cancel_right ((List.take_append_drop n t.arrived).trans whole.symm)

theorem Took.follows {n : Nat} {chunk rest : List UInt8} (took : t.Took n chunk)
    (follows : t.closed = true → t.arrived.drop n = [] → rest = []) :
    t.Follows (chunk ++ rest) := by
  intro closed empty
  obtain ⟨none_, back⟩ := List.append_eq_nil_iff.mp (took.unread.symm.trans empty)
  rw [none_, follows closed back]
  rfl

end Reads

/-! ## What a round leaves to do -/

section After

variable {t : ConnectionThread} {got rest : List UInt8}

/-- A read that stopped at `n` bytes, or where nothing is to come, has the front of
what is ahead. -/
theorem take_ahead {n : Nat} (fits : got.length ≤ n) (ends : got.length < n → rest = []) :
    (got ++ rest).take n = got ∧ (got ++ rest).drop n = rest := by
  rcases Nat.lt_or_eq_of_le fits with short | full
  · obtain rfl := ends short
    rw [List.append_nil]
    exact ⟨List.take_of_length_le fits, List.drop_of_length_le fits⟩
  · exact ⟨List.take_left' full, List.drop_left' full⟩

/-- The header that some bytes make with what is left of the last one. -/
theorem spelt_by (four : t.header.length = 4) (front : (got ++ rest).take 4 = got) :
    unpackU32 ((got ++ rest).take 4 ++ (packU32 (unpackU32 t.header)).drop
      ((got ++ rest).take 4).length) = unpackU32 (got ++ t.header.drop got.length) := by
  rw [front, packU32_unpackU32 four]

theorem future_afterHeader (four : t.header.length = 4) (fits : got.length ≤ 4)
    (ends : got.length < 4 → rest = []) :
    (t.afterHeader got).future rest = framesOf (unpackU32 t.header) (got ++ rest) := by
  obtain ⟨front, back⟩ := take_ahead fits ends
  by_cases none_ : got.length = 0
  · obtain rfl := List.length_eq_zero_iff.mp none_
    obtain rfl := ends (by decide)
    rw [afterHeader, if_pos none_]
    exact (framesOf_nil _).symm
  · have some_ : got ++ rest ≠ [] := by
      intro nothing
      rw [nothing, List.take_nil] at front
      exact none_ (congrArg List.length front.symm)
    have spelt := spelt_by four front
    rw [afterHeader, if_neg none_]
    dsimp only
    split
    · rename_i illegal
      exact (framesOf_illegal spelt illegal).symm
    · rename_i legal
      rw [framesOf_legal spelt legal some_, ← List.drop_drop, back]
      rfl

theorem future_afterBody {n : Nat} (fits : got.length ≤ n) (ends : got.length < n → rest = []) :
    (t.afterBody n got).future rest =
      filledUp n (got ++ rest) :: framesOf (unpackU32 t.header) ((got ++ rest).drop n) := by
  obtain ⟨front, back⟩ := take_ahead fits ends
  rw [filledUp, front, back]
  rfl

/-- What has been read and not handed over is of one frame. -/
theorem future_nil (buffers : t.Buffers) : (t.future []).length ≤ 1 := by
  have phase := buffers.phase
  unfold future
  dsimp only
  split
  · rename_i got at_
    rw [at_] at phase
    by_cases none_ : got = []
    · rw [none_, List.nil_append, framesOf_nil]
      exact Nat.zero_le 1
    · have some_ : got ++ [] ≠ [] := by rwa [List.append_nil]
      obtain ⟨front, back⟩ : (got ++ []).take 4 = got ∧ (got ++ []).drop 4 = [] :=
        take_ahead phase.le fun _ => rfl
      have spelt := spelt_by buffers.header front
      by_cases illegal : unpackU32 (got ++ t.header.drop got.length) = 0 ∨
          unpackU32 (got ++ t.header.drop got.length) > maxFrameBytes
      · rw [framesOf_illegal spelt illegal]
        exact Nat.zero_le 1
      · rw [framesOf_legal spelt illegal some_, ← List.drop_drop, back, List.drop_nil,
          framesOf_nil]
        exact Nat.le_refl 1
  · rename_i frameLen got at_
    rw [at_] at phase
    have back : (got ++ []).drop frameLen = [] := (take_ahead phase.1.le fun _ => rfl).2
    rw [back, framesOf_nil]
    exact Nat.le_refl 1
  · rw [framesOf_nil]
    exact Nat.le_refl 1
  · rw [framesOf_nil]
    exact Nat.zero_le 1
  · exact Nat.zero_le 1

theorem buffers_afterHeader (four : t.header.length = 4) (fits : got.length ≤ 4)
    (taken : t.taken ≤ t.arrived.length) : (t.afterHeader got).Buffers := by
  unfold afterHeader
  split
  · exact ⟨four, taken, trivial⟩
  · have header : (got ++ t.header.drop got.length).length = 4 := by
      rw [List.length_append, List.length_drop]
      omega
    dsimp only
    split
    · exact ⟨header, taken, trivial⟩
    · exact ⟨header, taken, by simp only [List.length_nil]; omega, rfl⟩

end After

/-! ## One round -/

/-- What is still to be written of the last answer. -/
def unsent (t : ConnectionThread) : List UInt8 :=
  match t.phase with
  | .writing unsent => unsent
  | _ => []

/-- What a round keeps: the buffers, the frames to come, and the bytes of the answers. -/
structure Keeps (t t' : ConnectionThread) : Prop where
  buffers : t'.Buffers
  arrived : t'.arrived = t.arrived
  future : ∃ chunk, t'.seen = t.seen ++ chunk ∧ ∀ rest, t'.Follows rest →
    t.Follows (chunk ++ rest) ∧ t'.future rest = t.future (chunk ++ rest)
  answers : t'.sent ++ t'.unsent = t.sent ++ t.unsent
  unsent : t'.unsent <:+ t.unsent
  stuck : t.phase = .returned .broken → t' = t

section Round

variable {t : ConnectionThread}

theorem keeps_refl (buffers : t.Buffers) : t.Keeps t :=
  ⟨buffers, rfl, ⟨[], (List.append_nil _).symm, fun _ follows => ⟨follows, rfl⟩⟩, rfl,
    List.suffix_rfl, fun _ => rfl⟩

/-- A header that goes on keeps its socket, and has nothing to write. -/
theorem afterHeader_socket (u : ConnectionThread) (got : List UInt8) :
    (u.afterHeader got).arrived = u.arrived ∧ (u.afterHeader got).taken = u.taken ∧
      (u.afterHeader got).closed = u.closed ∧ (u.afterHeader got).sent = u.sent ∧
      (u.afterHeader got).unsent = [] := by
  unfold afterHeader
  split
  · exact ⟨rfl, rfl, rfl, rfl, rfl⟩
  · dsimp only
    split <;> exact ⟨rfl, rfl, rfl, rfl, rfl⟩

/-- A thread in another phase is not broken. -/
theorem not_broken {phase : Phase} {P : Prop} (at_ : t.phase = phase)
    (other : phase ≠ .returned .broken) : t.phase = .returned .broken → P :=
  fun broken => absurd (at_.symm.trans broken) other

/-- The header's `read_full` is over: it has read four bytes, or the stream ended. -/
theorem keeps_afterHeader {before chunk : List UInt8} {n : Nat} (at_ : t.phase = .header before)
    (buffers : t.Buffers) (took : t.Took n chunk) (fits : (before ++ chunk).length ≤ 4)
    (ends : (before ++ chunk).length < 4 → t.closed = true ∧ t.arrived.drop n = []) :
    t.Keeps ({ t with taken := n }.afterHeader (before ++ chunk)) := by
  obtain ⟨arrived, taken, closed, sent, unsent_⟩ :=
    afterHeader_socket { t with taken := n } (before ++ chunk)
  refine ⟨buffers_afterHeader buffers.header fits took.bound, arrived, ⟨chunk, ?_, ?_⟩, ?_, ?_,
    not_broken at_ (by simp)⟩
  · rw [seen, arrived, taken]
    exact took.seen
  · intro rest follows
    rw [Follows, unread, closed, arrived, taken] at follows
    refine ⟨took.follows follows, ?_⟩
    rw [future_afterHeader (t := { t with taken := n }) buffers.header fits
      (fun short => follows (ends short).1 (ends short).2), future, at_, List.append_assoc]
  · rw [sent, unsent_, unsent, at_]
  · rw [unsent_]
    exact List.nil_suffix

/-- The body's `read_full` is over. -/
theorem keeps_afterBody {frameLen n : Nat} {before chunk : List UInt8}
    (at_ : t.phase = .body frameLen before) (buffers : t.Buffers) (took : t.Took n chunk)
    (fits : (before ++ chunk).length ≤ frameLen)
    (ends : (before ++ chunk).length < frameLen → t.closed = true ∧ t.arrived.drop n = []) :
    t.Keeps ({ t with taken := n }.afterBody frameLen (before ++ chunk)) := by
  refine ⟨⟨buffers.header, took.bound, trivial⟩, rfl,
    ⟨chunk, took.seen, fun rest follows => ⟨took.follows follows, ?_⟩⟩, ?_, List.nil_suffix,
    not_broken at_ (by simp)⟩
  · rw [future_afterBody (t := { t with taken := n }) fits
      (fun short => follows (ends short).1 (ends short).2), future, at_, List.append_assoc]
  · rw [unsent, unsent, at_]
    rfl

/-- **A round keeps what is to come**: the frames, and the bytes of the answers. -/
theorem keeps_goes (buffers : t.Buffers) (k : Nat) : t.Keeps (t.goes k) := by
  have phase := buffers.phase
  unfold goes
  split
  · rename_i got at_
    rw [at_] at phase
    split
    · exact keeps_refl buffers
    · rename_i ended
      obtain ⟨empty, closed⟩ := read_end (by omega) ended
      have done := keeps_afterHeader at_ buffers (took_nothing buffers.taken)
        (by rw [List.append_nil]; exact phase.le) fun _ => ⟨closed, empty⟩
      rwa [List.append_nil] at done
    · rename_i b chunk read
      obtain ⟨room, took⟩ := read_chunk buffers.taken read
      have length : (got ++ b :: chunk).length = got.length + (b :: chunk).length :=
        List.length_append
      dsimp only
      split
      · rename_i short
        refine ⟨⟨buffers.header, took.bound, short⟩, rfl, ⟨_, took.seen, fun rest follows =>
          ⟨took.follows follows, ?_⟩⟩, ?_, List.nil_suffix, not_broken at_ (by simp)⟩
        · rw [future, future, at_]
          dsimp only
          rw [List.append_assoc]
        · rw [unsent, unsent, at_]
      · rename_i full
        exact keeps_afterHeader at_ buffers took (by omega) fun short => absurd short full
  · rename_i frameLen got at_
    rw [at_] at phase
    split
    · exact keeps_refl buffers
    · rename_i ended
      obtain ⟨empty, closed⟩ := read_end (by omega) ended
      have done := keeps_afterBody at_ buffers (took_nothing buffers.taken)
        (by rw [List.append_nil]; exact phase.1.le) fun _ => ⟨closed, empty⟩
      rwa [List.append_nil] at done
    · rename_i b chunk read
      obtain ⟨room, took⟩ := read_chunk buffers.taken read
      have length : (got ++ b :: chunk).length = got.length + (b :: chunk).length :=
        List.length_append
      dsimp only
      split
      · rename_i short
        refine ⟨⟨buffers.header, took.bound, short, phase.2⟩, rfl,
          ⟨_, took.seen, fun rest follows => ⟨took.follows follows, ?_⟩⟩, ?_, List.nil_suffix,
          not_broken at_ (by simp)⟩
        · rw [future, future, at_]
          dsimp only
          rw [List.append_assoc]
        · rw [unsent, unsent, at_]
      · rename_i full
        exact keeps_afterBody at_ buffers took (by omega) fun short => absurd short full
  · exact keeps_refl buffers
  · rename_i unsent_ at_
    have split_ := List.take_append_drop (k + 1) unsent_
    have same : ∃ chunk, t.seen = t.seen ++ chunk ∧ ∀ rest, t.Follows rest →
        t.Follows (chunk ++ rest) ∧
          framesOf (unpackU32 t.header) rest = t.future (chunk ++ rest) := by
      refine ⟨[], (List.append_nil _).symm, fun rest follows => ⟨follows, ?_⟩⟩
      rw [future, at_]
      rfl
    dsimp only
    split
    · rename_i written
      refine ⟨⟨buffers.header, buffers.taken, Nat.zero_lt_succ 3⟩, rfl, same, ?_,
        List.nil_suffix, not_broken at_ (by simp)⟩
      rw [written, List.append_nil] at split_
      rw [unsent, unsent, at_, split_]
      exact List.append_nil _
    · refine ⟨⟨buffers.header, buffers.taken, trivial⟩, rfl, same, ?_, ?_,
        not_broken at_ (by simp)⟩
      · rw [unsent, unsent, at_]
        dsimp only
        rw [List.append_assoc, split_]
      · rw [unsent, unsent, at_]
        exact List.drop_suffix _ _
  · exact keeps_refl buffers

end Round

end ConnectionThread

/-! ## A whole connection -/

/-- A step of a thread on its own. -/
abbrev ThreadEvent : Type :=
  Event ConnectionThread (Happening ⊕ List UInt8) (Option (List UInt8 × List UInt8))

/-- The bytes the answers of a list of calls travel as. -/
def answerBytes (history : List (List UInt8 × List UInt8)) : List UInt8 :=
  history.flatMap fun exchange => writeFrame exchange.2

/-- What is missing of the answers is the end of the last one. -/
def CutShort (history : List (List UInt8 × List UInt8)) (cut : List UInt8) : Prop :=
  cut = [] ∨ ∃ last, history.getLast? = some last ∧ cut <:+ writeFrame last.2

/-- Of a thread and its past: it has handed over the first frames of what it reads, all but at
most one, and has written the answers to them, but for what it is about to write. -/
structure OnTrack (past : List ThreadEvent) (t : ConnectionThread) : Prop where
  buffers : t.Buffers
  frames : t.phase ≠ .returned .broken → ∀ rest, t.Follows rest →
    (exchanges past).map Prod.fst ++ t.future rest = framesOf 0 (t.seen ++ rest)
  asked : ∀ rest, t.Follows rest →
    (exchanges past).map Prod.fst <+: framesOf 0 (t.seen ++ rest)
  waiting : ∃ waiting, waiting.length ≤ 1 ∧
    (exchanges past).map Prod.fst ++ waiting = framesOf 0 t.seen
  written : ∃ cut, t.sent ++ cut = answerBytes (exchanges past) ∧
    CutShort (exchanges past) cut ∧ (t.phase ≠ .returned .broken → cut = t.unsent)

section Connection

variable {past : List ThreadEvent} {t t' : ConnectionThread}

/-- A thread that will hand over the frames still to come is on track. -/
theorem OnTrack.of_frames (buffers : t.Buffers)
    (frames : ∀ rest, t.Follows rest →
      (exchanges past).map Prod.fst ++ t.future rest = framesOf 0 (t.seen ++ rest))
    (written : t.sent ++ t.unsent = answerBytes (exchanges past))
    (cut : CutShort (exchanges past) t.unsent) : OnTrack past t := by
  refine ⟨buffers, fun _ => frames, fun rest follows => ⟨_, frames rest follows⟩,
    ⟨t.future [], ConnectionThread.future_nil buffers, ?_⟩, ⟨_, written, cut, fun _ => rfl⟩⟩
  rw [frames [] fun _ _ => rfl, List.append_nil]

theorem onTrack_accepted : OnTrack [] .accepted :=
  .of_frames ⟨rfl, le_refl 0, Nat.zero_lt_succ 3⟩ (fun _ _ => rfl) rfl (.inl rfl)

theorem exchanges_concat (past : List ThreadEvent) (e : ThreadEvent) :
    exchanges (past ++ [e]) = exchanges past ++ e.reply.toList := by
  rw [exchanges, List.flatMap_append, List.flatMap_singleton]
  rfl

/-- A step without an exchange adds nothing to the past. -/
theorem OnTrack.of_quiet {e : ThreadEvent} (quiet : e.reply = none) (onTrack : OnTrack past t) :
    OnTrack (past ++ [e]) t := by
  have history : exchanges (past ++ [e]) = exchanges past := by
    rw [exchanges_concat, quiet, Option.toList_none, List.append_nil]
  obtain ⟨buffers, frames, asked, waiting, written⟩ := onTrack
  rw [← history] at frames asked waiting written
  exact ⟨buffers, frames, asked, waiting, written⟩

/-- A step that keeps what is to come stays on track. -/
theorem OnTrack.of_keeps (onTrack : OnTrack past t) (keeps : t.Keeps t') : OnTrack past t' := by
  by_cases broken : t.phase = .returned .broken
  · rw [keeps.stuck broken]
    exact onTrack
  · obtain ⟨cut, written, short, same⟩ := onTrack.written
    obtain rfl := same broken
    refine .of_frames keeps.buffers (fun rest follows => ?_) (keeps.answers.trans written) ?_
    · obtain ⟨chunk, seen, keep⟩ := keeps.future
      obtain ⟨before, future⟩ := keep rest follows
      rw [future, seen, List.append_assoc]
      exact onTrack.frames broken _ before
    · rcases short with nothing | ⟨last, latest, suffix⟩
      · have shorter := keeps.unsent
        rw [nothing] at shorter
        exact .inl (List.suffix_nil.mp shorter)
      · exact .inr ⟨last, latest, keeps.unsent.trans suffix⟩

/-- More bytes arrive. -/
theorem onTrack_arrives (onTrack : OnTrack past t) (bytes : List UInt8) :
    OnTrack past (connectionThread.own t (.arrives bytes)) := by
  simp only [connectionThread]
  split
  · exact onTrack
  · rename_i open_
    have seen : ({ t with arrived := t.arrived ++ bytes } : ConnectionThread).seen = t.seen :=
      List.take_append_of_le_length onTrack.buffers.taken
    have follows : ∀ rest, t.Follows rest := fun _ closed => absurd closed open_
    refine ⟨⟨onTrack.buffers.header, ?_, onTrack.buffers.phase⟩, fun whole rest _ => ?_,
      fun rest _ => ?_, ?_, onTrack.written⟩
    · rw [List.length_append]
      exact onTrack.buffers.taken.trans (Nat.le_add_right _ _)
    · rw [seen]
      exact onTrack.frames whole rest (follows rest)
    · rw [seen]
      exact onTrack.asked rest (follows rest)
    · rw [seen]
      exact onTrack.waiting

/-- The client closes its side. -/
theorem onTrack_closes (onTrack : OnTrack past t) :
    OnTrack past (connectionThread.own t .closes) :=
  ⟨⟨onTrack.buffers.header, onTrack.buffers.taken, onTrack.buffers.phase⟩,
    fun whole rest follows => onTrack.frames whole rest fun _ => follows rfl,
    fun rest follows => onTrack.asked rest fun _ => follows rfl, onTrack.waiting,
    onTrack.written⟩

/-- A read or a write raises: the answer that was being written stays cut short. -/
theorem onTrack_breaks (onTrack : OnTrack past t) : OnTrack past t.breaks := by
  unfold ConnectionThread.breaks
  split
  · exact onTrack
  · exact onTrack
  · obtain ⟨cut, written, short, -⟩ := onTrack.written
    exact ⟨⟨onTrack.buffers.header, onTrack.buffers.taken, trivial⟩, fun whole => absurd rfl whole,
      onTrack.asked, onTrack.waiting, ⟨cut, written, short, fun whole => absurd rfl whole⟩⟩

theorem asks_eq_some {frame : List UInt8} (asks : connectionThread.asks t = some frame) :
    t.phase = .evaluating frame := by
  simp only [connectionThread] at asks
  split at asks
  · rename_i at_
    rw [at_, Option.some.inj asks]
  · cases asks

/-- A frame is handed over, and its answer taken back. -/
theorem onTrack_told {frame : List UInt8} (onTrack : OnTrack past t)
    (at_ : t.phase = .evaluating frame) (answer : List UInt8) {e : ThreadEvent}
    (exchange : e.reply = some (frame, answer)) :
    OnTrack (past ++ [e]) (connectionThread.told t answer) := by
  have whole : t.phase ≠ .returned .broken := by
    rw [at_]
    simp
  have history : exchanges (past ++ [e]) = exchanges past ++ [(frame, answer)] := by
    rw [exchanges_concat, exchange]
    rfl
  refine .of_frames ⟨onTrack.buffers.header, onTrack.buffers.taken, trivial⟩
    (fun rest follows => ?_) ?_ (.inr ⟨(frame, answer), ?_, List.suffix_rfl⟩)
  · have before := onTrack.frames whole rest follows
    rw [ConnectionThread.future, at_] at before
    rw [history, List.map_append, List.append_assoc]
    exact before
  · obtain ⟨cut, before, -, same⟩ := onTrack.written
    rw [same whole, ConnectionThread.unsent, at_, List.append_nil] at before
    rw [history, answerBytes, List.flatMap_append, List.flatMap_singleton]
    exact congrArg (· ++ _) before
  · rw [history, List.getLast?_concat]

/-- **What a thread does keeps it on track.** -/
theorem onTrack_step (past : List ThreadEvent) (t : ConnectionThread)
    (given : Happening ⊕ List UInt8) (onTrack : OnTrack past t) :
    OnTrack (past ++ [connectionThread.alone.event t given])
      (connectionThread.alone.step t given).2 := by
  cases given with
  | inl happening =>
      refine OnTrack.of_quiet rfl ?_
      cases happening with
      | arrives bytes => exact onTrack_arrives onTrack bytes
      | closes => exact onTrack_closes onTrack
      | goes k => exact onTrack.of_keeps (ConnectionThread.keeps_goes onTrack.buffers k)
      | breaks => exact onTrack_breaks onTrack
  | inr answer =>
      cases asks : connectionThread.asks t with
      | none =>
          have step : connectionThread.alone.step t (.inr answer) = (none, t) := by
            simp only [Thread.alone, asks]
          rw [step]
          exact onTrack.of_quiet (congrArg Prod.fst step)
      | some frame =>
          have step : connectionThread.alone.step t (.inr answer) =
              (some (frame, answer), connectionThread.told t answer) := by
            simp only [Thread.alone, asks]
          rw [step]
          exact onTrack_told onTrack (asks_eq_some asks) answer (congrArg Prod.fst step)

end Connection

/-! ## All connections -/

section Daemon

variable {σ : Type} (server : Machine σ (List UInt8) (List UInt8)) (state : σ)

/-- What a connection has of its calls.  They are on the frames that `handle_connection` reads
from the bytes read so far, all but at most one, and so on the first of those it reads from all
bytes that arrived; on all of these, once the thread has returned and nothing has raised.  What has
been written are the answers, whole and in order, but for the end of the last one, where that is
still being written or the write has failed. -/
structure ServedInOrder (t : ConnectionThread) (history : List (List UInt8 × List UInt8)) :
    Prop where
  asked : ∃ waiting, waiting.length ≤ 1 ∧ ∀ chunks, history.map Prod.fst ++ waiting =
    (handleConnection server ⟨t.seen, chunks⟩ state).handled
  first : ∀ chunks,
    history.map Prod.fst <+: (handleConnection server ⟨t.arrived, chunks⟩ state).handled
  returned : t.phase = .returned .finished ∨ t.phase = .returned .invalidLength →
    ∀ chunks, history.map Prod.fst = (handleConnection server ⟨t.arrived, chunks⟩ state).handled
  written : ∃ cut, t.sent ++ cut = answerBytes history ∧ CutShort history cut ∧
    (cut ≠ [] → t.phase = .writing cut ∨ t.phase = .returned .broken)

/-- A thread on track is served in order. -/
theorem OnTrack.servedInOrder {past : List ThreadEvent} {t : ConnectionThread}
    (onTrack : OnTrack past t) : ServedInOrder server state t (exchanges past) := by
  have whole : t.seen ++ t.unread = t.arrived := List.take_append_drop _ _
  have handled : ∀ bytes chunks, (handleConnection server ⟨bytes, chunks⟩ state).handled =
      framesOf 0 bytes := fun bytes chunks => handleConnection_handled server _ state
  refine ⟨?_, fun chunks => ?_, fun done chunks => ?_, ?_⟩
  · obtain ⟨waiting, one, all⟩ := onTrack.waiting
    refine ⟨waiting, one, fun chunks => ?_⟩
    rw [handled]
    exact all
  · rw [handled, ← whole]
    exact onTrack.asked t.unread fun _ empty => empty
  · have unbroken : t.phase ≠ .returned .broken := by
      rcases done with at_ | at_ <;>
      · rw [at_]
        simp
    have all := onTrack.frames unbroken t.unread fun _ empty => empty
    have nothing : t.future t.unread = [] := by
      rw [ConnectionThread.future]
      rcases done with at_ | at_ <;> rw [at_]
    rw [handled, ← whole, ← all, nothing, List.append_nil]
  · obtain ⟨cut, written, short, same⟩ := onTrack.written
    refine ⟨cut, written, short, fun some_ => ?_⟩
    by_cases broken : t.phase = .returned .broken
    · exact .inr broken
    · rw [same broken, ConnectionThread.unsent] at some_ ⊢
      split at some_
      · exact .inl ‹_›
      · exact absurd rfl some_

/-- **Every schedule is one sequential run**, of the frames in the order in which their
threads had the lock; and each connection is served as if it were alone. -/
theorem clients_served (acts : List (Act ℕ Happening)) :
    let history := calls ((daemon server).trace (Daemon.start state) acts)
    let after := (daemon server).run (Daemon.start state) acts
    after.object = server.run state (history.map Asked.asked) ∧
      history.map Asked.told =
        (server.trace state (history.map Asked.asked)).map Event.reply ∧
      ∀ c, ServedInOrder server state (after.threads c)
        ((callsOf c history).map Asked.exchange) := by
  obtain ⟨object, answers⟩ := object_run server connectionThread acts (Daemon.start state)
  refine ⟨object, answers, fun c => ?_⟩
  obtain ⟨thread, asked⟩ := threads_run server connectionThread c acts (Daemon.start state)
  have onTrack := connectionThread.alone.history_invariant onTrack_step onTrack_accepted
    (seenBy c ((daemon server).trace (Daemon.start state) acts))
  rw [show (daemon server).run (Daemon.start state) acts =
    (sharing server connectionThread).run (Daemon.start state) acts from rfl, thread, asked]
  exact onTrack.servedInOrder server state

/-! ## Nobody waits for another client -/

/-- A thread that waits for the mutex does nothing else. -/
theorem connectionThread_waits : connectionThread.Waits := by
  intro t given asking
  obtain ⟨frame, asks⟩ := Option.isSome_iff_exists.mp asking
  have at_ := asks_eq_some asks
  have same : (connectionThread.own t given).phase = t.phase := by
    cases given with
    | arrives bytes =>
        simp only [connectionThread]
        split <;> rfl
    | closes => rfl
    | goes k => simp only [connectionThread, ConnectionThread.goes, at_]
    | breaks => simp only [connectionThread, ConnectionThread.breaks, at_]
  rw [asks]
  show (match (connectionThread.own t given).phase with
    | .evaluating frame => some frame
    | _ => none) = some frame
  rw [same, at_]

/-- **A frame that has been read is answered without a byte from any client**, wherever
the other threads are: at most one other frame is handled before it. -/
theorem client_not_blocked (acts : List (Act ℕ Happening)) (c : ℕ) (frame : List UInt8)
    (waiting : (((daemon server).run (Daemon.start state) acts).threads c).phase =
      .evaluating frame) :
    ∃ locking : List (Act ℕ Happening), locking.length ≤ 3 ∧
      (∀ act ∈ locking, act.isLocking = true) ∧ ∃ answer,
        (calls ((daemon server).trace (Daemon.start state) (acts ++ locking))).getLast? =
          some ⟨c, frame, answer⟩ := by
  have asks : HolderAsks connectionThread ((daemon server).run (Daemon.start state) acts) :=
    holderAsks_run server connectionThread_waits (fun k held => by cases held) acts
  have asking : connectionThread.asks
      (((daemon server).run (Daemon.start state) acts).threads c) = some frame := by
    simp only [connectionThread, waiting]
  obtain ⟨locking, few, locks, answer, last⟩ := asker_served server asks asking
  refine ⟨locking, few, locks, answer, ?_⟩
  rw [(daemon server).trace_append, calls, List.flatMap_append, List.getLast?_append]
  rw [calls] at last
  rw [last]
  rfl

/-- Satisfiable pole: one client stalls in the middle of a header, and the one-byte
frame of another is answered. -/
theorem stalled_client_blocks_nobody :
    let acts : List (Act ℕ Happening) := [.own 0 (.arrives [0]), .own 0 (.goes 3),
      .own 1 (.arrives [0, 0, 0, 1, 7]), .own 1 (.goes 3), .own 1 (.goes 0)]
    let server := constitutiond ⟨fun _ => none, fun _ => none, fun _ => none⟩ fun _ => []
    ∃ locking : List (Act ℕ Happening), locking.length ≤ 3 ∧
      (∀ act ∈ locking, act.isLocking = true) ∧ ∃ answer,
        (calls ((daemon server).trace (Daemon.start (.new (.new .default)))
          (acts ++ locking))).getLast? = some ⟨1, [7], answer⟩ :=
  client_not_blocked _ _ _ 1 [7] (by decide +kernel)

end Daemon

end CentaurApex.Constitution
