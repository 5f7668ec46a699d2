/-
# Doomsday.BlindOrders -- what a submission is bound to

An order is to be submitted against a quote that the oracle has issued, and a quote is bound
to what was asked for by its reference.  The oracle looks at neither: a submission takes any
quote there is, and a reference is the digest of the fields with a colon between them.

* **What was issued** (`issuedIn_eq`) depends on the calls alone, not on the book.
* **A reference is shared** by two quotes exactly where quantity and joined names are
  (`ref_eq_iff`), as long as the digest is injective on the texts hashed.
* **No order is blind exactly while** every submitted quote is one that was asked for before,
  and no two requests differ only in where the colon stands (`never_blind_iff`).

Refuting pole `blind_order_taken`: an order on an empty history.  Satisfiable pole
`bound_order_drill`: a request and its submission.
-/
import CentaurApex.Doomsday.Oracle

namespace CentaurApex.Doomsday

open CentaurApex.Theory
open CentaurApex.Theory.ExtNum (fin)

set_option autoImplicit false

/-! ## Texts with a separator -/

/-- Where the last separator of a text is, its parts are determined. -/
theorem split_last {α : Type} {x : α} {a b a' b' : List α} (clean : x ∉ b) (clean' : x ∉ b')
    (same : a ++ x :: b = a' ++ x :: b') : a = a' ∧ b = b' := by
  rcases List.append_eq_append_iff.mp same with ⟨rest, rfl, tail⟩ | ⟨rest, rfl, tail⟩
  · cases rest with
    | nil => exact ⟨(List.append_nil a).symm, (List.cons.inj tail).2⟩
    | cons y rest =>
        obtain ⟨-, rfl⟩ := List.cons.inj tail
        exact absurd (List.mem_append_right _ List.mem_cons_self) clean
  · cases rest with
    | nil => exact ⟨List.append_nil a', (List.cons.inj tail).2.symm⟩
    | cons y rest =>
        obtain ⟨-, rfl⟩ := List.cons.inj tail
        exact absurd (List.mem_append_right _ List.mem_cons_self) clean'

/-! ## Quotes -/

/-- The two agree in what an order is made of. -/
structure ConversionQuote.Same (q q' : ConversionQuote) : Prop where
  assetIn : q.assetIn = q'.assetIn
  assetOut : q.assetOut = q'.assetOut
  quantityIn : q.quantityIn = q'.quantityIn
  quoteRef : q.quoteRef = q'.quoteRef

/-- The two names with the colon between them. -/
def ConversionQuote.names (q : ConversionQuote) : String := q.assetIn ++ ":" ++ q.assetOut

/-- The quote that is issued, if one is. -/
def OracleReply.issued? : OracleReply → Option ConversionQuote
  | .quoted answer => answer.toOption
  | _ => none

/-- The quotes that the oracle issued along a run. -/
def issuedIn (events : List (Event SimulationOracle OracleCall OracleReply)) :
    List ConversionQuote :=
  events.filterMap fun e => e.reply.issued?

/-- The quote that a call asks for and gets, from the request and the fee. -/
def OracleCall.asked? (texts : Texts) (feeBps : ℤ) : OracleCall → Option ConversionQuote
  | .quote _ assetIn assetOut quantityIn =>
      ((SimulationOracle.new feeBps).quote texts assetIn assetOut quantityIn).toOption
  | _ => none

def asked (texts : Texts) (feeBps : ℤ) (calls : List OracleCall) : List ConversionQuote :=
  calls.filterMap (OracleCall.asked? texts feeBps)

namespace SimulationOracle

section Issued

variable {texts : Texts} {feeBps : ℤ}

theorem call_feeBps (oracle : SimulationOracle) (call : OracleCall) :
    (oracle.call texts call).2.feeBps = oracle.feeBps := by
  cases call with
  | quote route => cases route <;> rfl
  | submit route => cases route <;> rfl
  | status route => cases route <;> rfl
  | settle orderId =>
      show (oracle.settle orderId).2.feeBps = _
      unfold settle
      split
      · rfl
      · split <;> rfl

theorem call_issued (oracle : SimulationOracle) (call : OracleCall) :
    (oracle.call texts call).1.issued? = call.asked? texts oracle.feeBps := by
  cases call with
  | quote route => cases route <;> rfl
  | submit route => cases route <;> rfl
  | status route => cases route <;> rfl
  | settle orderId => rfl

/-- **What was issued** along a run is what the calls asked for. -/
theorem issuedIn_eq {oracle : SimulationOracle} (fee : oracle.feeBps = feeBps)
    (calls : List OracleCall) :
    issuedIn ((oracleMachine texts).trace oracle calls) = asked texts feeBps calls := by
  induction calls generalizing oracle with
  | nil => rfl
  | cons call calls ih =>
      have rest : issuedIn ((oracleMachine texts).trace (oracle.call texts call).2 calls) =
          asked texts feeBps calls := ih ((oracle.call_feeBps call).trans fee)
      have here : ((oracleMachine texts).event oracle call).reply.issued? =
          call.asked? texts feeBps := fee ▸ oracle.call_issued call
      show List.filterMap _ (_ :: _) = _
      unfold asked at rest ⊢
      rw [List.filterMap_cons, List.filterMap_cons, here, ← rest]
      rfl

/-- What an issued quote is made of. -/
theorem quote_fields {oracle : SimulationOracle} {assetIn assetOut : PyStr}
    {quantityIn : ExtNum ℚ} {q : ConversionQuote}
    (issued : oracle.quote texts assetIn assetOut quantityIn = .ok q) :
    q.quoteRef = refOf texts (oracle.quoteText texts q.assetIn q.assetOut q.quantityIn) := by
  unfold quote at issued
  split at issued
  · cases issued
  · split at issued
    · cases issued
    · split at issued
      · dsimp only at issued
        split at issued
        · obtain rfl := Except.ok.inj issued
          rfl
        · cases issued
      · cases issued

theorem ref_of_asked {calls : List OracleCall} {q : ConversionQuote}
    (member : q ∈ asked texts feeBps calls) :
    q.quoteRef =
      refOf texts ((new feeBps).quoteText texts q.assetIn q.assetOut q.quantityIn) := by
  obtain ⟨call, -, gets⟩ := List.mem_filterMap.mp member
  cases call with
  | quote route assetIn assetOut quantityIn =>
      have gets : ((new feeBps).quote texts assetIn assetOut quantityIn).toOption = some q := gets
      cases answer : (new feeBps).quote texts assetIn assetOut quantityIn with
      | error e =>
          rw [answer] at gets
          cases gets
      | ok issued =>
          rw [answer] at gets
          obtain rfl := Option.some.inj gets
          exact quote_fields answer
  | _ => cases gets

end Issued

end SimulationOracle

/-! ## References -/

section References

open SimulationOracle

variable {texts : Texts} {feeBps : ℤ} {calls : List OracleCall}

/-- The digest tells the texts of some quotes apart, and so does the text of a number, which
has no colon. -/
structure Faithful (texts : Texts) (feeBps : ℤ) (quotes : List ConversionQuote) : Prop where
  digest : ∀ q ∈ quotes, ∀ q' ∈ quotes,
    refOf texts ((new feeBps).quoteText texts q.assetIn q.assetOut q.quantityIn) =
      refOf texts ((new feeBps).quoteText texts q'.assetIn q'.assetOut q'.quantityIn) →
    (new feeBps).quoteText texts q.assetIn q.assetOut q.quantityIn =
      (new feeBps).quoteText texts q'.assetIn q'.assetOut q'.quantityIn
  number : ∀ q ∈ quotes, ∀ q' ∈ quotes,
    texts.ofFloat q.quantityIn = texts.ofFloat q'.quantityIn → q.quantityIn = q'.quantityIn
  clean : ∀ q ∈ quotes, ':' ∉ (texts.ofFloat q.quantityIn).toList

/-- The texts are joined names, then the number and the fee. -/
theorem quoteText_inj {q q' : ConversionQuote}
    (clean : ':' ∉ (texts.ofFloat q.quantityIn).toList)
    (clean' : ':' ∉ (texts.ofFloat q'.quantityIn).toList)
    (same : (new feeBps).quoteText texts q.assetIn q.assetOut q.quantityIn =
      (new feeBps).quoteText texts q'.assetIn q'.assetOut q'.quantityIn) :
    q.names = q'.names ∧ texts.ofFloat q.quantityIn = texts.ofFloat q'.quantityIn := by
  have text (q : ConversionQuote) :
      ((new feeBps).quoteText texts q.assetIn q.assetOut q.quantityIn).toList =
        q.names.toList ++ ':' :: (texts.ofFloat q.quantityIn).toList ++
          (":" ++ toString feeBps).toList := by
    unfold quoteText ConversionQuote.names
    simp [new]
  have chars := congrArg String.toList same
  rw [text, text] at chars
  obtain ⟨names, number⟩ := split_last clean clean' (List.append_cancel_right chars)
  exact ⟨String.toList_inj.mp names, String.toList_inj.mp number⟩

/-- **A reference is shared** exactly where the quantity and the joined names are. -/
theorem ref_eq_iff (faithful : Faithful texts feeBps (asked texts feeBps calls))
    {q q' : ConversionQuote} (member : q ∈ asked texts feeBps calls)
    (member' : q' ∈ asked texts feeBps calls) :
    q.quoteRef = q'.quoteRef ↔ q.quantityIn = q'.quantityIn ∧ q.names = q'.names := by
  rw [ref_of_asked member, ref_of_asked member']
  constructor
  · intro same
    obtain ⟨names, number⟩ := quoteText_inj (faithful.clean q member) (faithful.clean q' member')
      (faithful.digest q member q' member' same)
    exact ⟨faithful.number q member q' member' number, names⟩
  · rintro ⟨quantity, names⟩
    unfold ConversionQuote.names at names
    rw [quoteText, quoteText, names, quantity]

/-- The names may differ where they are the same joined. -/
example : (ConversionQuote.mk "a:b" "c" 1 1 "" true).names =
    (ConversionQuote.mk "a" "b:c" 1 1 "" true).names := by decide +kernel

end References

/-! ## Orders -/

section Orders

open SimulationOracle

/-- The order is made of what the quote says. -/
structure ConversionOrder.Of (order : ConversionOrder) (q : ConversionQuote) : Prop where
  assetIn : order.assetIn = q.assetIn
  assetOut : order.assetOut = q.assetOut
  quantityIn : order.quantityIn = q.quantityIn
  quoteRef : order.quoteRef = q.quoteRef

/-- Every order is made of a quote that was issued before, and a reference is that of one
conversion. -/
structure NeverBlind (texts : Texts) (feeBps : ℤ) (calls : List OracleCall) : Prop where
  known : ∀ earlier event later,
    (oracleMachine texts).trace (.new feeBps) calls = earlier ++ event :: later →
    ∀ order, event.reply = .submitted order → ∃ issued ∈ issuedIn earlier, order.Of issued
  binding : ∀ q ∈ issuedIn ((oracleMachine texts).trace (.new feeBps) calls),
    ∀ q' ∈ issuedIn ((oracleMachine texts).trace (.new feeBps) calls), q.quoteRef = q'.quoteRef →
    q.assetIn = q'.assetIn ∧ q.assetOut = q'.assetOut ∧ q.quantityIn = q'.quantityIn

/-- Every quote that is submitted was asked for before, and no two requests for one quantity
differ only in where the colon stands. -/
structure Bound (texts : Texts) (feeBps : ℤ) (calls : List OracleCall) : Prop where
  asked : ∀ earlier route quote later, calls = earlier ++ .submit route quote :: later →
    ∃ issued ∈ asked texts feeBps earlier, issued.Same quote
  apart : ∀ q ∈ Doomsday.asked texts feeBps calls, ∀ q' ∈ Doomsday.asked texts feeBps calls,
    q.quantityIn = q'.quantityIn → q.names = q'.names →
    q.assetIn = q'.assetIn ∧ q.assetOut = q'.assetOut

variable {texts : Texts} {feeBps : ℤ} {calls : List OracleCall}

theorem reply_submitted {oracle : SimulationOracle} {call : OracleCall} {order : ConversionOrder}
    (made : (oracle.call texts call).1 = .submitted order) :
    ∃ route quote, call = .submit route quote ∧ order = orderOf quote := by
  cases call with
  | submit route quote =>
      refine ⟨route, quote, rfl, ?_⟩
      rw [call_submit] at made
      exact (OracleReply.submitted.inj made).symm
  | quote route => cases route <;> cases made
  | status route => cases route <;> cases made
  | settle => cases made

/-- An order is of an issued quote where its quote was asked for. -/
theorem known_iff :
    (∀ earlier event later,
      (oracleMachine texts).trace (.new feeBps) calls = earlier ++ event :: later →
      ∀ order, event.reply = .submitted order → ∃ issued ∈ issuedIn earlier, order.Of issued) ↔
    ∀ earlier route quote later, calls = earlier ++ .submit route quote :: later →
      ∃ issued ∈ asked texts feeBps earlier, issued.Same quote := by
  constructor
  · rintro known earlier route quote later rfl
    have split := (oracleMachine texts).trace_append (.new feeBps) earlier
      (.submit route quote :: later)
    obtain ⟨issued, member, of⟩ := known _ _ _ split (orderOf quote)
      (congrArg Prod.fst (call_submit route quote))
    rw [issuedIn_eq rfl] at member
    exact ⟨issued, member, of.assetIn.symm, of.assetOut.symm, of.quantityIn.symm, of.quoteRef.symm⟩
  · intro asked_ earlier event later split order made
    obtain ⟨before, after, rfl, rfl, rest⟩ := (oracleMachine texts).trace_eq_append split
    obtain ⟨same, others, rfl, -⟩ := (oracleMachine texts).trace_eq_cons rest
    rw [same] at made
    obtain ⟨route, quote, input, rfl⟩ := reply_submitted made
    rw [input] at asked_
    obtain ⟨issued, member, agrees⟩ := asked_ before route quote others rfl
    rw [issuedIn_eq rfl]
    exact ⟨issued, member, agrees.assetIn.symm, agrees.assetOut.symm, agrees.quantityIn.symm,
      agrees.quoteRef.symm⟩

/-- **No order is blind** exactly while every submitted quote was asked for before, and no two
requests differ only in where the colon stands. -/
theorem never_blind_iff (faithful : Faithful texts feeBps (asked texts feeBps calls)) :
    NeverBlind texts feeBps calls ↔ Bound texts feeBps calls := by
  constructor
  · rintro ⟨known, binding⟩
    refine ⟨known_iff.mp known, fun q member q' member' quantity names => ?_⟩
    rw [issuedIn_eq rfl] at binding
    obtain ⟨assetIn, assetOut, -⟩ := binding q member q' member'
      ((ref_eq_iff faithful member member').mpr ⟨quantity, names⟩)
    exact ⟨assetIn, assetOut⟩
  · rintro ⟨asked_, apart⟩
    refine ⟨known_iff.mpr asked_, ?_⟩
    rw [issuedIn_eq rfl]
    intro q member q' member' ref
    obtain ⟨quantity, names⟩ := (ref_eq_iff faithful member member').mp ref
    obtain ⟨assetIn, assetOut⟩ := apart q member q' member' quantity names
    exact ⟨assetIn, assetOut, quantity⟩

theorem faithful_singleton {q : ConversionQuote}
    (clean : ':' ∉ (texts.ofFloat q.quantityIn).toList) : Faithful texts feeBps [q] := by
  refine ⟨?_, ?_, ?_⟩
  · simp
  · simp
  · simpa using clean

/-- Satisfiable pole: a request, its submission and its settlement. -/
theorem bound_order_drill : NeverBlind Epochs.texts 0 Epochs.first := by
  have one : asked Epochs.texts 0 Epochs.first = [Epochs.quote] := by decide +kernel
  have clean : ':' ∉ (Epochs.texts.ofFloat Epochs.quote.quantityIn).toList := by decide +kernel
  refine (never_blind_iff (one ▸ faithful_singleton clean)).mpr ⟨?_, ?_⟩
  · intro earlier route quote later split
    unfold Epochs.first at split
    obtain - | ⟨first, - | ⟨second, - | ⟨third, earlier⟩⟩⟩ := earlier
    · cases split
    · cases split
      refine ⟨Epochs.quote, ?_, rfl, rfl, rfl, rfl⟩
      decide +kernel
    · cases split
    · simp at split
  · rw [one]
    simp

/-- Refuting pole: an order against a quote that nobody asked for. -/
theorem blind_order_taken :
    ¬ ∀ (texts : Texts) (feeBps : ℤ) (calls : List OracleCall),
      Faithful texts feeBps (asked texts feeBps calls) → NeverBlind texts feeBps calls := by
  intro always
  have faithful : Faithful Epochs.texts 0 (asked Epochs.texts 0 [.submit .direct Epochs.quote]) :=
    ⟨fun _ none_ => (by cases none_), fun _ none_ => (by cases none_),
      fun _ none_ => (by cases none_)⟩
  obtain ⟨issued, member, -⟩ := (always Epochs.texts 0 [.submit .direct Epochs.quote] faithful).known
    [] _ [] rfl _ rfl
  cases member

end Orders

end CentaurApex.Doomsday
