/-
# Theory.Framing -- length-prefixed frames on a byte stream

A frame travels as a four-byte big-endian length and then its body, so a body is
a list of fewer than `2 ^ 32` bytes (`Frame`).  The reader at the other end sees
a stream of bytes and takes it in pieces: one `recv` raises, sees the end of the
stream, or delivers some bytes from the front (`RecvOutcome`).

* `unpackU32_packU32`, `packU32_unpackU32`: the length is read back.
* `splitFrames`: the frames a stream consists of, up to the first length that is
  out of bounds, and what is left of the stream.
* `recv_eq`: whatever a `recv` delivers is a prefix of what was unread, and the
  rest stays unread.
-/
import Mathlib.Data.List.Basic
import Mathlib.Tactic.Linarith

namespace CentaurApex.Theory

set_option autoImplicit false

/-! ## Frames -/

/-- Four bytes, most significant first. -/
def packU32 (n : Nat) : List UInt8 :=
  [.ofNat (n / 16777216), .ofNat (n / 65536), .ofNat (n / 256), .ofNat n]

def unpackU32 (bytes : List UInt8) : Nat := bytes.foldl (fun n b => 256 * n + b.toNat) 0

@[simp] theorem length_packU32 (n : Nat) : (packU32 n).length = 4 := rfl

theorem unpackU32_packU32 {n : Nat} (h : n < 2 ^ 32) : unpackU32 (packU32 n) = n := by
  simp only [packU32, unpackU32, List.foldl_cons, List.foldl_nil, UInt8.toNat_ofNat']
  omega

/-- Four bytes are the header of the number they spell. -/
theorem packU32_unpackU32 {bytes : List UInt8} (four : bytes.length = 4) :
    packU32 (unpackU32 bytes) = bytes := by
  obtain ⟨a, b, c, d, rfl⟩ : ∃ a b c d, bytes = [a, b, c, d] := List.length_eq_four.mp four
  simp only [packU32, unpackU32, List.foldl_cons, List.foldl_nil, List.cons.injEq,
    ← UInt8.toNat_inj, UInt8.toNat_ofNat']
  have := a.toNat_lt
  have := b.toNat_lt
  have := c.toNat_lt
  have := d.toNat_lt
  refine ⟨?_, ?_, ?_, ?_, trivial⟩ <;> omega

/-- The body of a frame: short enough for its length to be written. -/
structure Frame where
  body : List UInt8
  short : body.length < 2 ^ 32

namespace Frame

def ofBytes? (body : List UInt8) : Option Frame :=
  if short : body.length < 2 ^ 32 then some ⟨body, short⟩ else none

/-- The bytes a frame travels as. -/
def wire (f : Frame) : List UInt8 := packU32 f.body.length ++ f.body

@[simp] theorem take_wire (f : Frame) : f.wire.take 4 = packU32 f.body.length :=
  List.take_left' (length_packU32 _)

@[simp] theorem drop_wire (f : Frame) : f.wire.drop 4 = f.body :=
  List.drop_left' (length_packU32 _)

theorem length_wire (f : Frame) : f.wire.length = 4 + f.body.length := by
  rw [wire, List.length_append, length_packU32]

end Frame

/-! ## The frames of a stream -/

/-- The frames a stream starts with, as long as their lengths are from `1` to
`limit`, and what is left of it. -/
def splitFrames (limit : Nat) (stream : List UInt8) : List (List UInt8) × List UInt8 :=
  let n := unpackU32 (stream.take 4)
  if 0 < n ∧ n ≤ limit ∧ 4 + n ≤ stream.length then
    let rest := splitFrames limit (stream.drop (4 + n))
    ((stream.drop 4).take n :: rest.1, rest.2)
  else ([], stream)
termination_by stream.length
decreasing_by
  rw [List.length_drop]
  omega

section Split

variable {limit : Nat} {stream : List UInt8}

theorem splitFrames_whole (positive : 0 < unpackU32 (stream.take 4))
    (bounded : unpackU32 (stream.take 4) ≤ limit)
    (whole : 4 + unpackU32 (stream.take 4) ≤ stream.length) :
    splitFrames limit stream =
      ((stream.drop 4).take (unpackU32 (stream.take 4)) ::
          (splitFrames limit (stream.drop (4 + unpackU32 (stream.take 4)))).1,
        (splitFrames limit (stream.drop (4 + unpackU32 (stream.take 4)))).2) := by
  rw [splitFrames]
  exact if_pos ⟨positive, bounded, whole⟩

theorem splitFrames_rest (stops : ¬ (0 < unpackU32 (stream.take 4) ∧
      unpackU32 (stream.take 4) ≤ limit ∧ 4 + unpackU32 (stream.take 4) ≤ stream.length)) :
    splitFrames limit stream = ([], stream) := by
  rw [splitFrames]
  exact if_neg stops

end Split

/-- A frame that travels alone is the only frame of its stream. -/
theorem splitFrames_wire {limit : Nat} (f : Frame) (positive : 0 < f.body.length)
    (bounded : f.body.length ≤ limit) : splitFrames limit f.wire = ([f.body], []) := by
  have spelt : unpackU32 (f.wire.take 4) = f.body.length := by
    rw [f.take_wire, unpackU32_packU32 f.short]
  have ended : f.wire.drop (4 + f.body.length) = [] :=
    List.drop_of_length_le f.length_wire.le
  have nothing : splitFrames limit [] = ([], []) := splitFrames_rest (by simp)
  rw [splitFrames_whole (by omega) (by omega) (by rw [spelt, f.length_wire]), spelt, ended,
    nothing, f.drop_wire, List.take_length]

/-! ## Reading a stream -/

/-- What one `recv` does: it raises (a timeout, a reset), sees the end of the
stream, or delivers up to `k + 1` bytes. -/
inductive RecvOutcome where
  | raises
  | closed
  | delivers (k : Nat)
  deriving DecidableEq, Repr

/-- One `recv(n)` with `unread` bytes in flight: the bytes delivered, and the
bytes still unread.  Where nothing is in flight there is nothing to deliver. -/
def recv (n : Nat) (unread : List UInt8) : RecvOutcome → Option (List UInt8) × List UInt8
  | .raises => (none, unread)
  | .closed => (some [], unread)
  | .delivers k =>
      if unread.isEmpty then (none, unread)
      else (some (unread.take (min (k + 1) n)), unread.drop (min (k + 1) n))

/-- **A `recv` delivers a prefix and leaves the rest.** -/
theorem recv_eq {n : Nat} {unread chunk rest : List UInt8} {outcome : RecvOutcome}
    (delivered : recv n unread outcome = (some chunk, rest)) :
    chunk ++ rest = unread ∧ chunk.length ≤ n := by
  cases outcome with
  | raises => simp [recv] at delivered
  | closed =>
      simp only [recv, Prod.mk.injEq, Option.some.injEq] at delivered
      obtain ⟨rfl, rfl⟩ := delivered
      exact ⟨rfl, Nat.zero_le n⟩
  | delivers k =>
      simp only [recv] at delivered
      split at delivered
      · simp at delivered
      · simp only [Prod.mk.injEq, Option.some.injEq] at delivered
        obtain ⟨rfl, rfl⟩ := delivered
        refine ⟨List.take_append_drop _ _, ?_⟩
        rw [List.length_take]
        omega

/-- A `recv` with bytes in flight delivers at least one. -/
theorem recv_delivers {n k : Nat} {unread : List UInt8} (some_ : unread ≠ []) :
    recv n unread (.delivers k) =
      (some (unread.take (min (k + 1) n)), unread.drop (min (k + 1) n)) := by
  cases unread with
  | nil => exact absurd rfl some_
  | cons b unread => rfl

end CentaurApex.Theory
