/-
# Mesh.PqcWrapper -- post-quantum signatures and their placeholder

The engine signs with Dilithium3 through the native binding, or, where that is
missing, leaves a placeholder: an HMAC that says what it is.  Which of the two it
does is decided by two things, the provider it was made with and the native signer
it holds; `is_post_quantum` reports the first alone.

* `envelope_not_placeholder`, `verify_placeholder`: while the signer is held no
  placeholder is written or accepted, and what is in an envelope is handed to the native
  verifier as it was (`verify_envelope`);
* `no_downgrade_iff`: a run of calls stays honest exactly as long as the engine is
  not closed.  A closed engine still reports that it is post-quantum, and writes and
  accepts placeholders.

The HMAC is a parameter, and so is, at every call, what the native binding answers.
-/
import CentaurApex.Theory.Base64
import CentaurApex.Theory.Machine
import CentaurApex.Theory.PyText

namespace CentaurApex.Mesh

open CentaurApex.Theory

set_option autoImplicit false

abbrev Bytes : Type := List UInt8

inductive EngineError where
  | runtimeError (message : String)
  | unicodeEncodeError
  | typeError
  | native (message : String)
  deriving DecidableEq, Repr

/-- What the native binding answers at a call: to a message and the secret key, and to
a message, a raw signature and a public key. -/
structure Native where
  sign : Bytes → Bytes → Except EngineError Bytes
  verify : Bytes → Bytes → Bytes → Except EngineError Bool

inductive Provider where
  | placeholder
  | liboqs
  deriving DecidableEq, Repr

def Provider.value : Provider → String
  | .placeholder => "placeholder-hmac-sha3-512"
  | .liboqs => "liboqs-crystals-dilithium3"

def sigPrefix : String := "pqc-dilithium3-"

structure PostQuantumCryptoEngine where
  masterSecret : Bytes
  provider : Provider
  publicKey : Bytes
  secretKey : Bytes
  /-- The native signer is held. -/
  signer : Bool
  deriving DecidableEq, Repr

def hexDigits (n : Nat) : List Char := [Nat.digitChar (n / 16), Nat.digitChar (n % 16)]

def hexdigest (digest : Bytes) : List Char := digest.flatMap fun b => hexDigits b.toNat

/-- The two parts of a string around its first separator. -/
def splitOnce (separator : CodePoint) : PyStr → Option (PyStr × PyStr)
  | [] => none
  | c :: s =>
      if c = separator then some ([], s)
      else (splitOnce separator s).map fun parts => (c :: parts.1, parts.2)

/-- `base64.b64decode(s, validate=True)` of a string. -/
def b64decode (s : PyStr) : Option Bytes := s.chars?.bind Base64.decode

/-- `hmac.compare_digest` of two strings. -/
def compareDigest (a b : PyStr) : Except EngineError Bool :=
  if a.IsAscii ∧ b.IsAscii then .ok (decide (a = b)) else .error .typeError

/-- A Dilithium3 signature with its public key. -/
def envelope (publicKey raw : Bytes) : PyStr :=
  PyStr.ofString sigPrefix ++ PyStr.ofChars (Base64.encode publicKey) ++ PyStr.ofString "." ++
    PyStr.ofChars (Base64.encode raw)

namespace PostQuantumCryptoEngine

/-- A provider that is not given, or empty, is chosen by what can be imported. -/
def requestedProvider (liboqsAvailable : Bool) (provider : Option String) : String :=
  let default := if liboqsAvailable then Provider.liboqs.value else Provider.placeholder.value
  match provider with
  | none => default
  | some name => if name = "" then default else name

def new (liboqsAvailable : Bool) (masterSeed : PyStr) (provider : Option String)
    (keypair : Bytes × Bytes) : Except EngineError PostQuantumCryptoEngine :=
  match masterSeed.encode with
  | none => .error .unicodeEncodeError
  | some masterSecret =>
      let requested := requestedProvider liboqsAvailable provider
      if requested = Provider.liboqs.value ∧ liboqsAvailable then
        .ok ⟨masterSecret, .liboqs, keypair.1, keypair.2, true⟩
      else if requested = Provider.liboqs.value then
        .error (.runtimeError ("liboqs (oqs-python) requested but not importable on this platform; "
          ++ "refusing to silently fall back to placeholder cryptography."))
      else .ok ⟨masterSecret, .placeholder, [], [], false⟩

def isPostQuantum (engine : PostQuantumCryptoEngine) : Bool := engine.provider = .liboqs

def close (engine : PostQuantumCryptoEngine) : PostQuantumCryptoEngine :=
  { engine with signer := false, secretKey := [] }

section Hmac

variable (hmacSha3_512 : Bytes → Bytes → Bytes)

def generatePqcSignature (engine : PostQuantumCryptoEngine) (native : Native) (message : PyStr) :
    Except EngineError PyStr :=
  match message.encode with
  | none => .error .unicodeEncodeError
  | some bytes =>
      if engine.isPostQuantum ∧ engine.signer then
        match native.sign bytes engine.secretKey with
        | .error e => .error e
        | .ok raw => .ok (envelope engine.publicKey raw)
      else
        .ok (PyStr.ofString (sigPrefix ++ "placeholder-") ++
          PyStr.ofChars (hexdigest (hmacSha3_512 engine.masterSecret bytes)))

/-- What is no string, or has another prefix, does not verify. -/
def verifyPqcSignature (engine : PostQuantumCryptoEngine) (native : Native) (message : PyStr)
    (signature : Option PyStr) : Except EngineError Bool :=
  match signature with
  | none => .ok false
  | some signature =>
      if ¬ signature.StartsWith sigPrefix then .ok false
      else if engine.isPostQuantum ∧ engine.signer then
        match splitOnce (.ofChar '.') (signature.drop sigPrefix.length) with
        | none => .ok false
        | some (pub, sig) =>
            match b64decode sig, b64decode pub, message.encode with
            | some rawSig, some pubKey, some bytes =>
                match native.verify bytes rawSig pubKey with
                | .ok verified => .ok verified
                | .error _ => .ok false
            | _, _, _ => .ok false
      else
        match engine.generatePqcSignature hmacSha3_512 native message with
        | .error e => .error e
        | .ok expected => compareDigest expected signature

end Hmac

end PostQuantumCryptoEngine

/-! ## The engine as a machine -/

inductive EngineCall where
  | generate (native : Native) (message : PyStr)
  | verify (native : Native) (message : PyStr) (signature : Option PyStr)
  | close

inductive EngineReply where
  | signed (result : Except EngineError PyStr)
  | verified (result : Except EngineError Bool)
  | closed

def engineMachine (hmacSha3_512 : Bytes → Bytes → Bytes) :
    Machine PostQuantumCryptoEngine EngineCall EngineReply where
  step engine
    | .generate native message =>
        (.signed (engine.generatePqcSignature hmacSha3_512 native message), engine)
    | .verify native message signature =>
        (.verified (engine.verifyPqcSignature hmacSha3_512 native message signature), engine)
    | .close => (.closed, engine.close)

/-! ## Placeholders and envelopes -/

/-- A placeholder artifact, by its label. -/
def IsPlaceholder (signature : PyStr) : Prop := signature.StartsWith (sigPrefix ++ "placeholder-")

instance (signature : PyStr) : Decidable (IsPlaceholder signature) :=
  inferInstanceAs (Decidable (PyStr.StartsWith _ _))

/-- A Dilithium3 signature of the engine's own key. -/
def IsDilithium (engine : PostQuantumCryptoEngine) (native : Native) (message signature : PyStr) :
    Prop :=
  ∃ bytes raw, message.encode = some bytes ∧ native.sign bytes engine.secretKey = .ok raw ∧
    signature = envelope engine.publicKey raw

/-- A hyphen is no digit of base64. -/
theorem hyphen_not_mem_encode (bytes : Bytes) : '-' ∉ Base64.encode bytes := by
  intro member
  rcases Base64.encode_alphabet bytes _ member with digit | padding
  · exact absurd digit (by decide)
  · exact absurd padding (by decide)

theorem dot_not_mem_encode (bytes : Bytes) : '.' ∉ Base64.encode bytes := by
  intro member
  rcases Base64.encode_alphabet bytes _ member with digit | padding
  · exact absurd digit (by decide)
  · exact absurd padding (by decide)

/-- The body of a placeholder has a hyphen. -/
theorem IsPlaceholder.hyphen {signature : PyStr} (placeholder : IsPlaceholder signature) :
    CodePoint.ofChar '-' ∈ (signature.drop sigPrefix.length).take 12 := by
  obtain ⟨rest, rfl⟩ := placeholder
  have body : (PyStr.ofString (sigPrefix ++ "placeholder-") ++ rest).drop sigPrefix.length =
      PyStr.ofString "placeholder-" ++ rest := by
    rw [PyStr.ofString_append, List.append_assoc]
    exact List.drop_left' rfl
  have label : (PyStr.ofString "placeholder-" ++ rest).take 12 = PyStr.ofString "placeholder-" :=
    List.take_left' rfl
  rw [body, label]
  decide +kernel

/-- **What the signer writes is no placeholder.** -/
theorem envelope_not_placeholder (publicKey raw : Bytes) :
    ¬ IsPlaceholder (envelope publicKey raw) := by
  intro placeholder
  have body : (envelope publicKey raw).drop sigPrefix.length =
      PyStr.ofChars (Base64.encode publicKey ++ ['.'] ++ Base64.encode raw) := by
    simp only [envelope, PyStr.ofChars_append, List.append_assoc]
    exact List.drop_left' rfl
  have hyphen := List.mem_of_mem_take placeholder.hyphen
  rw [body, PyStr.ofChar_mem_ofChars] at hyphen
  simp [hyphen_not_mem_encode] at hyphen

/-- The string is its parts and the separator between. -/
theorem splitOnce_eq {separator : CodePoint} : ∀ {s first second : PyStr},
    splitOnce separator s = some (first, second) → s = first ++ separator :: second
  | [], _, _, split => by cases split
  | c :: s, first, second, split => by
      rw [splitOnce] at split
      split at split
      · rename_i here
        cases split
        rw [here]
        rfl
      · obtain ⟨parts, found, same⟩ := Option.map_eq_some_iff.mp split
        cases same
        rw [splitOnce_eq found]
        rfl

theorem splitOnce_append {separator : CodePoint} : ∀ {first : PyStr} (second : PyStr),
    separator ∉ first → splitOnce separator (first ++ separator :: second) = some (first, second)
  | [], second, _ => if_pos rfl
  | c :: first, second, absent => by
      have other : c ≠ separator := (List.ne_of_not_mem_cons absent).symm
      rw [List.cons_append, splitOnce, if_neg other,
        splitOnce_append second (List.not_mem_of_not_mem_cons absent)]
      rfl

/-- The characters of a string that decodes are of the alphabet. -/
theorem hyphen_not_mem_of_b64decode {s : PyStr} {bytes : Bytes} (decoded : b64decode s = some bytes) :
    CodePoint.ofChar '-' ∉ s := by
  obtain ⟨text, chars, decoded'⟩ := Option.bind_eq_some_iff.mp decoded
  intro member
  have same := PyStr.eq_ofChars chars
  rw [same, PyStr.ofChar_mem_ofChars] at member
  rcases Base64.decode_alphabet decoded' _ member with digit | padding
  · exact absurd digit (by decide)
  · exact absurd padding (by decide)

/-! ## While the signer is held -/

namespace PostQuantumCryptoEngine

/-- The engine is post-quantum and can sign. -/
structure Live (engine : PostQuantumCryptoEngine) : Prop where
  provider : engine.isPostQuantum = true
  signer : engine.signer = true

variable {hmacSha3_512 : Bytes → Bytes → Bytes} {engine : PostQuantumCryptoEngine}

theorem live_new {liboqsAvailable : Bool} {masterSeed : PyStr} {provider : Option String}
    {keypair : Bytes × Bytes} (made : new liboqsAvailable masterSeed provider keypair = .ok engine)
    (liboqs : engine.provider = .liboqs) : Live engine := by
  unfold new at made
  split at made
  · cases made
  · dsimp only at made
    split at made
    · cases made
      exact ⟨rfl, rfl⟩
    · split at made
      · cases made
      · cases made
        cases liboqs

section Live

variable (live : Live engine)
include live

theorem generate_live (native : Native) (message : PyStr) :
    engine.generatePqcSignature hmacSha3_512 native message =
      match message.encode with
      | none => .error .unicodeEncodeError
      | some bytes =>
          match native.sign bytes engine.secretKey with
          | .error e => .error e
          | .ok raw => .ok (envelope engine.publicKey raw) := by
  unfold generatePqcSignature
  simp only [live.provider, live.signer, and_self, if_true]

/-- **What a live engine writes is a Dilithium3 signature.** -/
theorem generate_dilithium {native : Native} {message signature : PyStr}
    (generated : engine.generatePqcSignature hmacSha3_512 native message = .ok signature) :
    IsDilithium engine native message signature := by
  rw [generate_live live] at generated
  cases encoded : message.encode with
  | none =>
      rw [encoded] at generated
      cases generated
  | some bytes =>
      simp only [encoded] at generated
      cases signed : native.sign bytes engine.secretKey with
      | error e =>
          rw [signed] at generated
          cases generated
      | ok raw =>
          rw [signed] at generated
          exact ⟨bytes, raw, encoded, signed, (Except.ok.inj generated).symm⟩

/-- What a live engine accepts is an envelope that decodes. -/
theorem verify_parts {native : Native} {message : PyStr} {signature : Option PyStr}
    (accepted : engine.verifyPqcSignature hmacSha3_512 native message signature = .ok true) :
    ∃ s pub sig rawSig pubKey, signature = some s ∧
      splitOnce (.ofChar '.') (s.drop sigPrefix.length) = some (pub, sig) ∧
      b64decode sig = some rawSig ∧ b64decode pub = some pubKey := by
  cases signature with
  | none => cases accepted
  | some s =>
      simp only [verifyPqcSignature, live.provider, live.signer, and_self, if_true] at accepted
      split at accepted
      · cases accepted
      · split at accepted
        · cases accepted
        · rename_i pub sig parts
          split at accepted
          · rename_i rawSig pubKey bytes decoded decoded' encoded
            exact ⟨s, pub, sig, rawSig, pubKey, rfl, parts, decoded, decoded'⟩
          · cases accepted

/-- **A live engine accepts no placeholder.** -/
theorem verify_placeholder {native : Native} {message signature : PyStr}
    (accepted : engine.verifyPqcSignature hmacSha3_512 native message (some signature) = .ok true) :
    ¬ IsPlaceholder signature := by
  intro placeholder
  obtain ⟨s, pub, sig, rawSig, pubKey, same, parts, decoded, decoded'⟩ := verify_parts live accepted
  obtain rfl := Option.some.inj same
  have hyphen := List.mem_of_mem_take placeholder.hyphen
  rw [splitOnce_eq parts, List.mem_append, List.mem_cons] at hyphen
  rcases hyphen with first | separator | second
  · exact hyphen_not_mem_of_b64decode decoded' first
  · exact absurd separator (by decide)
  · exact hyphen_not_mem_of_b64decode decoded second

/-- An envelope is read back: the native verifier is handed what was put into it. -/
theorem verify_envelope (native : Native) {message : PyStr} {bytes : Bytes}
    (encoded : message.encode = some bytes) (publicKey raw : Bytes) :
    engine.verifyPqcSignature hmacSha3_512 native message (some (envelope publicKey raw)) =
      .ok (match native.verify bytes raw publicKey with
        | .ok verified => verified
        | .error _ => false) := by
  have starts : (envelope publicKey raw).StartsWith sigPrefix := by
    simp only [envelope, List.append_assoc]
    exact List.prefix_append _ _
  have body : (envelope publicKey raw).drop sigPrefix.length =
      PyStr.ofChars (Base64.encode publicKey) ++
        CodePoint.ofChar '.' :: PyStr.ofChars (Base64.encode raw) := by
    simp only [envelope, List.append_assoc]
    exact List.drop_left' rfl
  have whole : CodePoint.ofChar '.' ∉ PyStr.ofChars (Base64.encode publicKey) := by
    rw [PyStr.ofChar_mem_ofChars]
    exact dot_not_mem_encode _
  simp only [verifyPqcSignature, live.provider, live.signer, and_self, if_true,
    if_neg (not_not.mpr starts), body, splitOnce_append _ whole, b64decode, PyStr.chars?_ofChars,
    Option.bind_some, Base64.decode_encode, encoded]
  cases native.verify bytes raw publicKey <;> rfl

end Live

/-! ## Closed -/

/-- A closed engine still reports the provider it was made with. -/
@[simp] theorem isPostQuantum_close (engine : PostQuantumCryptoEngine) :
    engine.close.isPostQuantum = engine.isPostQuantum := rfl

theorem generate_closed (native : Native) {message : PyStr} {bytes : Bytes}
    (encoded : message.encode = some bytes) :
    engine.close.generatePqcSignature hmacSha3_512 native message =
      .ok (PyStr.ofString (sigPrefix ++ "placeholder-") ++
        PyStr.ofChars (hexdigest (hmacSha3_512 engine.masterSecret bytes))) := by
  have released : ¬ (engine.close.isPostQuantum = true ∧ engine.close.signer = true) :=
    fun live => Bool.false_ne_true live.2
  simp only [generatePqcSignature, encoded, if_neg released]
  rfl

end PostQuantumCryptoEngine

/-! ## Runs -/

section Runs

variable {hmacSha3_512 : Bytes → Bytes → Bytes} {engine : PostQuantumCryptoEngine}

/-- A run that never passes off a placeholder: none is returned, none is accepted, and
whenever the engine reports that it is post-quantum, what it would sign next is a
Dilithium3 signature or an error. -/
structure NoDowngrade (hmacSha3_512 : Bytes → Bytes → Bytes) (engine : PostQuantumCryptoEngine)
    (calls : List EngineCall) : Prop where
  returned : ∀ e ∈ (engineMachine hmacSha3_512).trace engine calls, ∀ signature,
    e.reply = .signed (.ok signature) → ¬ IsPlaceholder signature
  accepted : ∀ e ∈ (engineMachine hmacSha3_512).trace engine calls, ∀ native message signature,
    e.input = .verify native message (some signature) → e.reply = .verified (.ok true) →
      ¬ IsPlaceholder signature
  next : ∀ first, first <+: calls →
    ((engineMachine hmacSha3_512).run engine first).isPostQuantum = true →
      ∀ native message signature, ((engineMachine hmacSha3_512).run engine first).generatePqcSignature
          hmacSha3_512 native message = .ok signature →
        IsDilithium ((engineMachine hmacSha3_512).run engine first) native message signature

/-- Only closing changes an engine. -/
theorem step_open {call : EngineCall} (notClose : call ≠ .close) :
    ((engineMachine hmacSha3_512).step engine call).2 = engine := by
  cases call with
  | generate native message => rfl
  | verify native message signature => rfl
  | close => exact absurd rfl notClose

theorem live_of_open (live : engine.Live) {calls : List EngineCall}
    (opened : ∀ call ∈ calls, call ≠ .close) :
    ((engineMachine hmacSha3_512).run engine calls).Live :=
  (engineMachine hmacSha3_512).run_invariant_of (P := PostQuantumCryptoEngine.Live)
    (fun engine call notClose live => by rwa [step_open notClose]) live opened

theorem isPostQuantum_run (pq : engine.isPostQuantum = true) (calls : List EngineCall) :
    ((engineMachine hmacSha3_512).run engine calls).isPostQuantum = true :=
  (engineMachine hmacSha3_512).run_invariant (P := fun engine => engine.isPostQuantum = true)
    (fun engine call pq => by cases call <;> exact pq) pq calls

/-- **The engine is honest until it is closed**, and from then on it is not. -/
theorem no_downgrade_iff (hmacSha3_512 : Bytes → Bytes → Bytes) (liboqsAvailable : Bool)
    (masterSeed : PyStr) (provider : Option String) (keypair : Bytes × Bytes)
    (engine : PostQuantumCryptoEngine)
    (made : PostQuantumCryptoEngine.new liboqsAvailable masterSeed provider keypair = .ok engine)
    (liboqs : engine.provider = .liboqs) (calls : List EngineCall) :
    NoDowngrade hmacSha3_512 engine calls ↔ ∀ call ∈ calls, call ≠ .close := by
  have live := PostQuantumCryptoEngine.live_new made liboqs
  constructor
  · rintro ⟨-, -, next⟩ call member rfl
    obtain ⟨first, later, rfl⟩ := List.append_of_mem member
    have closed : (engineMachine hmacSha3_512).run engine (first ++ [.close]) =
        ((engineMachine hmacSha3_512).run engine first).close := by
      rw [Machine.run_append]
      rfl
    have provider_ : ((engineMachine hmacSha3_512).run engine first).isPostQuantum = true :=
      isPostQuantum_run live.provider first
    have signed : ((engineMachine hmacSha3_512).run engine first).close.generatePqcSignature
        hmacSha3_512 ⟨fun _ _ => .ok [], fun _ _ _ => .ok false⟩ [] = _ :=
      PostQuantumCryptoEngine.generate_closed _ rfl
    have dilithium := next (first ++ [.close]) ⟨later, by simp⟩ (by rw [closed]; exact provider_)
      _ [] _ (by rw [closed]; exact signed)
    obtain ⟨bytes, raw, -, -, same⟩ := dilithium
    have placeholder : IsPlaceholder (envelope
        ((engineMachine hmacSha3_512).run engine (first ++ [.close])).publicKey raw) := by
      rw [← same]
      exact List.prefix_append _ _
    exact envelope_not_placeholder _ _ placeholder
  · intro opened
    have events := (engineMachine hmacSha3_512).trace_invariant_of
      (P := PostQuantumCryptoEngine.Live)
      (fun engine call notClose live => by rwa [step_open notClose]) live opened
    refine ⟨fun e member signature reply => ?_,
      fun e member native message signature input reply => ?_, fun first before _ => ?_⟩
    · obtain ⟨live, -, step⟩ := events e member
      rw [step] at reply
      cases call : e.input with
      | generate native message =>
          rw [call] at reply
          obtain ⟨bytes, raw, -, -, same⟩ := PostQuantumCryptoEngine.generate_dilithium live
            (EngineReply.signed.inj reply)
          rw [same]
          exact envelope_not_placeholder _ _
      | verify native message signature =>
          rw [call] at reply
          cases reply
      | close =>
          rw [call] at reply
          cases reply
    · obtain ⟨live, -, step⟩ := events e member
      rw [step, input] at reply
      exact PostQuantumCryptoEngine.verify_placeholder live (EngineReply.verified.inj reply)
    · intro native message signature generated
      have live : ((engineMachine hmacSha3_512).run engine first).Live :=
        live_of_open live fun call member => opened call (before.subset member)
      exact PostQuantumCryptoEngine.generate_dilithium live generated

end Runs

/-! ### Poles -/

namespace Sealing

def seed : PyStr := PyStr.ofString "genesis-quantum-seed-secure"

def hello : PyStr := PyStr.ofString "hello"

/-- The digest of `hello` under the seed. -/
def digest : Bytes :=
  [242, 202, 38, 182, 136, 11, 248, 239, 15, 114, 105, 68, 238, 117, 126, 34, 141, 179, 239, 189,
    25, 180, 239, 82, 214, 144, 66, 165, 246, 240, 143, 167, 141, 222, 87, 71, 165, 38, 172, 203,
    26, 244, 21, 254, 198, 221, 84, 195, 240, 117, 69, 145, 75, 116, 52, 249, 165, 93, 215, 103,
    57, 183, 200, 50]

/-- A binding that signs by tagging the message, and verifies the tag. -/
def native : Native where
  sign message _ := .ok (7 :: message)
  verify message raw _ := .ok (decide (raw = 7 :: message))

def engine : PostQuantumCryptoEngine :=
  ⟨(utf8 "genesis-quantum-seed-secure".toList), .liboqs, [1, 2, 3, 4], [5, 6], true⟩

def placeholder : PyStr :=
  PyStr.ofString ("pqc-dilithium3-placeholder-" ++ String.ofList (hexdigest digest))

theorem made : PostQuantumCryptoEngine.new true seed none ([1, 2, 3, 4], [5, 6]) = .ok engine := by
  decide +kernel

end Sealing

/-- Satisfiable pole: an engine that signs, verifies its signature and refuses a placeholder. -/
theorem no_downgrade_drill :
    NoDowngrade (fun _ _ => Sealing.digest) Sealing.engine
      [.generate Sealing.native Sealing.hello,
        .verify Sealing.native Sealing.hello (some Sealing.placeholder)] :=
  (no_downgrade_iff _ true Sealing.seed none ([1, 2, 3, 4], [5, 6]) Sealing.engine Sealing.made rfl
    _).mpr (by simp)

/-- Refuting pole: after `close` the engine signs with a placeholder. -/
theorem closed_engine_downgrades :
    ¬ ∀ (hmacSha3_512 : Bytes → Bytes → Bytes) (masterSeed : PyStr) (keypair : Bytes × Bytes)
        (engine : PostQuantumCryptoEngine),
      PostQuantumCryptoEngine.new true masterSeed none keypair = .ok engine →
      engine.provider = .liboqs → ∀ calls, NoDowngrade hmacSha3_512 engine calls := by
  intro honest
  have run := honest (fun _ _ => Sealing.digest) Sealing.seed _ Sealing.engine Sealing.made rfl
    [.close, .generate Sealing.native Sealing.hello]
  have signed : (Sealing.engine.close.generatePqcSignature (fun _ _ => Sealing.digest) Sealing.native
      Sealing.hello) = .ok Sealing.placeholder := by decide +kernel
  have placeholder : IsPlaceholder Sealing.placeholder := by decide +kernel
  exact run.returned ((engineMachine _).event Sealing.engine.close
    (.generate Sealing.native Sealing.hello)) (List.mem_cons_of_mem _ (List.mem_singleton_self _))
    Sealing.placeholder (congrArg EngineReply.signed signed) placeholder

end CentaurApex.Mesh
