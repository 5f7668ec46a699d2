/-
# Mesh.Signatures -- which strings verify

What is offered as a signature is any string, and so is the message.

* A placeholder engine compares the string with the one it would write itself.  The
  comparison takes ASCII only, and what it would write needs a message that can be
  encoded: `verify_exact_iff` says when the call has an answer, and that the answer is
  then the right one.
* The two schemes share a prefix and nothing else (`separated_iff`): envelopes are read
  back by every engine that holds its signer, and neither scheme accepts what the other
  writes.  An engine that was closed still counts as post-quantum and is of the other
  scheme.
-/
import CentaurApex.Mesh.PqcWrapper

namespace CentaurApex.Mesh

open CentaurApex.Theory

set_option autoImplicit false

/-! ## The placeholder -/

/-- The string that a placeholder engine writes for the bytes of a message. -/
def placeholder (hmacSha3_512 : Bytes → Bytes → Bytes) (masterSecret bytes : Bytes) : PyStr :=
  PyStr.ofString (sigPrefix ++ "placeholder-") ++
    PyStr.ofChars (hexdigest (hmacSha3_512 masterSecret bytes))

theorem digitChar_ascii {n : Nat} (small : n < 16) : (Nat.digitChar n).toNat < 128 := by
  have all : ∀ n : Fin 16, (Nat.digitChar n.val).toNat < 128 := by decide
  exact all ⟨n, small⟩

theorem hexdigest_ascii (digest : Bytes) : (PyStr.ofChars (hexdigest digest)).IsAscii := by
  refine PyStr.isAscii_ofChars.mpr (List.all_eq_true.mpr fun c member => decide_eq_true ?_)
  obtain ⟨b, -, digit⟩ := List.mem_flatMap.mp member
  have byte := b.toNat_lt
  rcases List.mem_cons.mp digit with rfl | low
  · exact digitChar_ascii (by omega)
  · rw [List.mem_singleton.mp low]
    exact digitChar_ascii (by omega)

section Placeholder

variable (hmacSha3_512 : Bytes → Bytes → Bytes) (masterSecret bytes : Bytes)

theorem placeholder_isPlaceholder : IsPlaceholder (placeholder hmacSha3_512 masterSecret bytes) :=
  List.prefix_append _ _

theorem IsPlaceholder.starts {signature : PyStr} (labelled : IsPlaceholder signature) :
    signature.StartsWith sigPrefix := by
  obtain ⟨rest, rfl⟩ := labelled
  rw [PyStr.ofString_append, List.append_assoc]
  exact List.prefix_append _ _

theorem placeholder_ascii : (placeholder hmacSha3_512 masterSecret bytes).IsAscii := by
  refine PyStr.isAscii_append.mpr ⟨PyStr.isAscii_ofChars.mpr ?_, hexdigest_ascii _⟩
  decide +kernel

variable {signature : PyStr}

/-- A string in ASCII is compared. -/
theorem compare_ascii (ascii : signature.IsAscii) :
    compareDigest (placeholder hmacSha3_512 masterSecret bytes) signature =
      .ok (decide (placeholder hmacSha3_512 masterSecret bytes = signature)) :=
  if_pos ⟨placeholder_ascii hmacSha3_512 masterSecret bytes, ascii⟩

theorem compare_accented (accented : ¬ signature.IsAscii) :
    compareDigest (placeholder hmacSha3_512 masterSecret bytes) signature = .error .typeError :=
  if_neg fun both => accented both.2

end Placeholder

/-! ## An engine that does not sign natively -/

namespace PostQuantumCryptoEngine

section Released

variable {hmacSha3_512 : Bytes → Bytes → Bytes} {engine : PostQuantumCryptoEngine}
variable (released : ¬ (engine.isPostQuantum = true ∧ engine.signer = true))
include released

theorem generate_released (native : Native) (message : PyStr) :
    engine.generatePqcSignature hmacSha3_512 native message =
      match message.encode with
      | none => .error .unicodeEncodeError
      | some bytes => .ok (placeholder hmacSha3_512 engine.masterSecret bytes) := by
  simp only [generatePqcSignature, if_neg released]
  rfl

theorem verify_released (native : Native) (message signature : PyStr) :
    engine.verifyPqcSignature hmacSha3_512 native message (some signature) =
      if ¬ signature.StartsWith sigPrefix then .ok false
      else
        match message.encode with
        | none => .error .unicodeEncodeError
        | some bytes =>
            compareDigest (placeholder hmacSha3_512 engine.masterSecret bytes) signature := by
  simp only [verifyPqcSignature, if_neg released, generate_released released]
  cases message.encode <;> rfl

/-- It accepts what it writes. -/
theorem accepts_placeholder (native : Native) {message : PyStr} {bytes : Bytes}
    (encoded : message.encode = some bytes) :
    engine.verifyPqcSignature hmacSha3_512 native message
      (some (placeholder hmacSha3_512 engine.masterSecret bytes)) = .ok true := by
  have starts := (placeholder_isPlaceholder hmacSha3_512 engine.masterSecret bytes).starts
  rw [verify_released released, if_neg (not_not.mpr starts), encoded]
  simp [compare_ascii, placeholder_ascii]

/-- Whatever it accepts is a placeholder. -/
theorem accepted_released {native : Native} {message signature : PyStr}
    (accepted : engine.verifyPqcSignature hmacSha3_512 native message (some signature) = .ok true) :
    IsPlaceholder signature := by
  rw [verify_released released] at accepted
  split at accepted
  · cases accepted
  · split at accepted
    · cases accepted
    · unfold compareDigest at accepted
      split at accepted
      · rw [← of_decide_eq_true (Except.ok.inj accepted)]
        exact placeholder_isPlaceholder _ _ _
      · cases accepted

end Released

end PostQuantumCryptoEngine

/-! ## Exactness of the placeholder -/

section Exact

variable (hmacSha3_512 : Bytes → Bytes → Bytes)

theorem released_of_placeholder {engine : PostQuantumCryptoEngine}
    (provider : engine.provider = .placeholder) :
    ¬ (engine.isPostQuantum = true ∧ engine.signer = true) := by
  rintro ⟨postQuantum, -⟩
  rw [PostQuantumCryptoEngine.isPostQuantum, provider] at postQuantum
  cases postQuantum

/-- **A placeholder engine answers, and exactly**: `True` for what an engine of the same
seed writes for the message and `False` for the rest.  It has an answer if the string has
another prefix, or if it is ASCII and the message can be encoded. -/
theorem verify_exact_iff (engine signer : PostQuantumCryptoEngine)
    (provider : engine.provider = .placeholder) (provider' : signer.provider = .placeholder)
    (seed : signer.masterSecret = engine.masterSecret) (native native' : Native)
    (message signature : PyStr) :
    (∃ verified,
      engine.verifyPqcSignature hmacSha3_512 native message (some signature) = .ok verified ∧
      (verified = true ↔
        signer.generatePqcSignature hmacSha3_512 native' message = .ok signature)) ↔
      ¬ signature.StartsWith sigPrefix ∨ message.IsText ∧ signature.IsAscii := by
  rw [PostQuantumCryptoEngine.verify_released (released_of_placeholder provider),
    PostQuantumCryptoEngine.generate_released (released_of_placeholder provider'), seed,
    ← PyStr.encode_isSome_iff]
  by_cases starts : signature.StartsWith sigPrefix
  · rw [if_neg (not_not.mpr starts)]
    cases message.encode with
    | none =>
        refine iff_of_false ?_ (by simp [starts])
        rintro ⟨verified, failed, -⟩
        cases failed
    | some bytes =>
        by_cases ascii : signature.IsAscii
        · refine iff_of_true ⟨_, compare_ascii _ _ _ ascii, ?_⟩ (.inr ⟨rfl, ascii⟩)
          rw [decide_eq_true_eq, Except.ok.injEq]
        · refine iff_of_false ?_ (by simp [starts, ascii])
          rintro ⟨verified, failed, -⟩
          cases failed.symm.trans (compare_accented _ _ _ ascii)
  · rw [if_pos starts]
    refine iff_of_true ⟨false, rfl, ?_⟩ (.inl starts)
    refine iff_of_false Bool.false_ne_true fun written => starts ?_
    cases encoded : message.encode with
    | none =>
        rw [encoded] at written
        cases written
    | some bytes =>
        rw [encoded] at written
        rw [← Except.ok.inj written]
        exact (placeholder_isPlaceholder _ _ _).starts

end Exact

/-! ## Separation of the schemes -/

/-- What an engine on the native binding owes: it reads every envelope back and hands its
parts to the binding, so that what an open engine signs verifies there wherever the
binding is complete; and neither scheme accepts what the other writes. -/
structure Separated (hmacSha3_512 : Bytes → Bytes → Bytes) (verifier : PostQuantumCryptoEngine) :
    Prop where
  readBack : ∀ native message bytes publicKey raw, PyStr.encode message = some bytes →
    verifier.verifyPqcSignature hmacSha3_512 native message (some (envelope publicKey raw)) =
      .ok (match native.verify bytes raw publicKey with
        | .ok verified => verified
        | .error _ => false)
  complete : ∀ (signer : PostQuantumCryptoEngine) (native native' : Native) message signature,
    signer.Live →
    (∀ bytes raw, native.sign bytes signer.secretKey = .ok raw →
      native'.verify bytes raw signer.publicKey = .ok true) →
    signer.generatePqcSignature hmacSha3_512 native message = .ok signature →
      verifier.verifyPqcSignature hmacSha3_512 native' message (some signature) = .ok true
  noPlaceholder : ∀ native message signature, IsPlaceholder signature →
    verifier.verifyPqcSignature hmacSha3_512 native message (some signature) ≠ .ok true
  noEnvelope : ∀ engine : PostQuantumCryptoEngine, engine.provider = .placeholder →
    ∀ native message publicKey raw, engine.verifyPqcSignature hmacSha3_512 native message
      (some (envelope publicKey raw)) ≠ .ok true

section Separated

variable (hmacSha3_512 : Bytes → Bytes → Bytes) (verifier : PostQuantumCryptoEngine)

/-- **The schemes are separated** for an engine on the native binding exactly as long as
it holds its signer. -/
theorem separated_iff (liboqs : verifier.provider = .liboqs) :
    Separated hmacSha3_512 verifier ↔ verifier.signer = true := by
  constructor
  · intro separated
    by_contra closed
    have released : ¬ (verifier.isPostQuantum = true ∧ verifier.signer = true) :=
      fun live => closed live.2
    have empty : PyStr.encode [] = some [] := rfl
    exact separated.noPlaceholder ⟨fun _ _ => .ok [], fun _ _ _ => .ok false⟩ [] _
      (placeholder_isPlaceholder _ _ _)
      (PostQuantumCryptoEngine.accepts_placeholder released _ empty)
  · intro open_
    have live : verifier.Live := ⟨decide_eq_true liboqs, open_⟩
    refine ⟨fun native message bytes publicKey raw encoded =>
        PostQuantumCryptoEngine.verify_envelope live native encoded publicKey raw,
      fun signer native native' message signature signs complete generated => ?_,
      fun native message signature labelled accepted =>
        PostQuantumCryptoEngine.verify_placeholder live accepted labelled,
      fun engine provider native message publicKey raw accepted =>
        envelope_not_placeholder publicKey raw
          (PostQuantumCryptoEngine.accepted_released (released_of_placeholder provider) accepted)⟩
    obtain ⟨bytes, raw, encoded, signed, rfl⟩ :=
      PostQuantumCryptoEngine.generate_dilithium signs generated
    rw [PostQuantumCryptoEngine.verify_envelope live native' encoded, complete bytes raw signed]

end Separated

/-! ### Poles -/

namespace Sealing

def sandbox : PostQuantumCryptoEngine :=
  ⟨utf8 "genesis-quantum-seed-secure".toList, .placeholder, [], [], false⟩

/-- The prefix of a signature, and a letter that is not ASCII. -/
def accented : PyStr := PyStr.ofString "pqc-dilithium3-é"

end Sealing

/-- Satisfiable pole: garbage in ASCII. -/
theorem garbage_refused :
    ∃ verified, Sealing.sandbox.verifyPqcSignature (fun _ _ => Sealing.digest) Sealing.native
        Sealing.hello (some (PyStr.ofString sigPrefix)) = .ok verified ∧
      (verified = true ↔ Sealing.sandbox.generatePqcSignature (fun _ _ => Sealing.digest)
        Sealing.native Sealing.hello = .ok (PyStr.ofString sigPrefix)) :=
  (verify_exact_iff (fun _ _ => Sealing.digest) Sealing.sandbox Sealing.sandbox rfl rfl rfl
    Sealing.native Sealing.native Sealing.hello (PyStr.ofString sigPrefix)).mpr
    (.inr ⟨PyStr.isText_ofChars _, PyStr.isAscii_ofChars.mpr (by decide +kernel)⟩)

/-- Refuting pole: a letter that is not ASCII makes the comparison raise. -/
theorem accented_signature_raises :
    ¬ ∀ (hmacSha3_512 : Bytes → Bytes → Bytes) (engine : PostQuantumCryptoEngine),
      engine.provider = .placeholder → ∀ (native : Native) (message signature : PyStr),
      ∃ verified,
        engine.verifyPqcSignature hmacSha3_512 native message (some signature) = .ok verified ∧
        (verified = true ↔
          engine.generatePqcSignature hmacSha3_512 native message = .ok signature) := by
  intro exact_
  obtain ⟨verified, answered, -⟩ := exact_ (fun _ _ => Sealing.digest) Sealing.sandbox rfl
    Sealing.native Sealing.hello Sealing.accented
  have starts : Sealing.accented.StartsWith sigPrefix := by decide +kernel
  have accent : ¬ Sealing.accented.IsAscii := mt PyStr.isAscii_ofChars.mp (by decide +kernel)
  have encoded : Sealing.hello.encode = some (utf8 "hello".toList) := by decide +kernel
  rw [PostQuantumCryptoEngine.verify_released (released_of_placeholder rfl),
    if_neg (not_not.mpr starts), encoded] at answered
  cases answered.symm.trans (compare_accented _ _ _ accent)

/-- Satisfiable pole: the engine of the drill. -/
theorem open_engine_separated : Separated (fun _ _ => Sealing.digest) Sealing.engine :=
  (separated_iff (fun _ _ => Sealing.digest) Sealing.engine rfl).mpr rfl

/-- Refuting pole: the same engine, closed, accepts a placeholder. -/
theorem closed_engine_not_separated :
    ¬ ∀ (hmacSha3_512 : Bytes → Bytes → Bytes) (verifier : PostQuantumCryptoEngine),
      verifier.provider = .liboqs → Separated hmacSha3_512 verifier := by
  intro separated
  have refused := (separated (fun _ _ => Sealing.digest) Sealing.engine.close rfl).noPlaceholder
    Sealing.native Sealing.hello _ (placeholder_isPlaceholder (fun _ _ => Sealing.digest)
      Sealing.engine.masterSecret (utf8 "hello".toList))
  have encoded : Sealing.hello.encode = some (utf8 "hello".toList) := by decide +kernel
  exact refused (PostQuantumCryptoEngine.accepts_placeholder
    (fun live => Bool.false_ne_true live.2) Sealing.native encoded)

end CentaurApex.Mesh
