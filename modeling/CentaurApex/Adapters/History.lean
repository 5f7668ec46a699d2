/-
# Adapters.History -- a history that is fetched page by page

`fetchHistory` asks for the newest klines first.  From the oldest of a page it steps back by
one timeframe, and asks for the page that ends there, until what it was asked to cover is behind
the cursor.  A venue (`Venue`) holds its klines at multiples of the timeframe; what a page leaves
out on the far side is therefore before the next cursor, and nothing is before it twice.

* **The loop returns** (`fetchBack_spec`): with more fuel than there are klines, either the
  newest of them, as many as are `Asked` for, or the error of one that is not decoded.
* **The history is one gapless slice, exactly when** (`gapless_iff`) every kline that is asked
  for is decoded, and the milliseconds to cover are finite, at least one, and not a fraction
  that ends at a kline on the far side of a page.

Refuting pole `fraction_short`: one minute and a half millisecond, in pages of one kline.
-/
import CentaurApex.Adapters.LiveFeed

namespace CentaurApex.Adapters

open CentaurApex.Theory
open CentaurApex.Theory.Python
open CentaurApex.Theory.ExtNum (fin)
open CentaurApex.Cortex (lastN)

set_option autoImplicit false

/-! ## A venue -/

/-- The klines of a symbol at a supported timeframe, the oldest first. -/
structure Venue (timeframeS : ℚ) where
  interval : String
  supported : intervalMap.lookup (truncate timeframeS) = some interval
  klines : List Kline
  ascending : klines.Pairwise fun a b => a.openMs < b.openMs
  aligned : ∀ k ∈ klines, truncate timeframeS * 1000 ∣ k.openMs

/-- A timeframe in milliseconds. -/
def frameMs (timeframeS : ℚ) : ℤ := truncate timeframeS * 1000

namespace Venue

variable {timeframeS : ℚ} (V : Venue timeframeS)

/-- The klines that open at or before a time. -/
def upTo (t : ℤ) : List Kline := V.klines.filter fun k => k.openMs ≤ t

/-- The last `limit` klines that open at or before `endTime`. -/
def http : HttpJson := fun query =>
  .ok (.arr ((lastN query.limit.toNat (query.endTime.elim V.klines V.upTo)).map Kline.row))

section

include V

theorem supported_cases : truncate timeframeS ∈ intervalMap.map Prod.fst := by
  have found := V.supported
  rw [List.mem_map]
  obtain ⟨entry, member, same⟩ : ∃ entry ∈ intervalMap, entry.1 = truncate timeframeS := by
    by_contra absent
    push Not at absent
    rw [List.lookup_eq_none_iff.mpr fun entry member => by
      simpa using (absent entry member).symm] at found
    cases found
  exact ⟨entry, member, same⟩

theorem frame_pos : 0 < frameMs timeframeS := by
  have cases_ := V.supported_cases
  simp only [intervalMap, List.map_cons, List.map_nil, List.mem_cons, List.not_mem_nil,
    or_false] at cases_
  unfold frameMs
  omega

/-- The timeframe is in `TIMEFRAME_MS` too. -/
theorem frame_lookup : (timeframeMs.lookup (truncate timeframeS)).getD 60000 =
    frameMs timeframeS := by
  have cases_ := V.supported_cases
  simp only [intervalMap, List.map_cons, List.map_nil, List.mem_cons, List.not_mem_nil,
    or_false] at cases_
  unfold frameMs
  rcases cases_ with same | same | same | same | same | same <;> rw [same] <;> rfl

end

/-- Two klines are at least a timeframe apart. -/
theorem spaced : V.klines.Pairwise fun a b => a.openMs + frameMs timeframeS ≤ b.openMs := by
  refine V.ascending.imp_of_mem fun {a b} older newer lt => ?_
  have apart : frameMs timeframeS ∣ b.openMs - a.openMs :=
    Int.dvd_sub (V.aligned b newer) (V.aligned a older)
  have := Int.le_of_dvd (by omega) apart
  omega

/-- What opens a timeframe before a kline, or earlier, is what the venue holds before it. -/
theorem upTo_step {older newer : List Kline} {k : Kline}
    (split : V.klines = older ++ k :: newer) : V.upTo (k.openMs - frameMs timeframeS) = older := by
  have spaced := V.spaced
  have pos := V.frame_pos
  rw [split, List.pairwise_append, List.pairwise_cons] at spaced
  obtain ⟨-, ⟨after, -⟩, across⟩ := spaced
  unfold upTo
  rw [split, List.filter_append, List.filter_eq_self.mpr, List.filter_eq_nil_iff.mpr,
    List.append_nil]
  · intro b member
    rw [decide_eq_true_eq]
    rcases List.mem_cons.mp member with rfl | later
    · omega
    · have := after b later
      omega
  · intro a member
    have := across a member k List.mem_cons_self
    rw [decide_eq_true_eq]
    omega

/-- What opens up to a time comes first. -/
theorem klines_eq (t : ℤ) : V.klines = V.upTo t ++ V.klines.filter fun k => t < k.openMs := by
  have ascending := V.ascending
  unfold upTo
  revert ascending
  induction V.klines with
  | nil => exact fun _ => rfl
  | cons k rest ih =>
      intro ascending
      obtain ⟨after, ascending⟩ := List.pairwise_cons.mp ascending
      by_cases early : k.openMs ≤ t
      · rw [List.filter_cons_of_pos (by simpa using early),
          List.filter_cons_of_neg (by simpa using early), List.cons_append, ← ih ascending]
      · have late (b : Kline) (member : b ∈ rest) : t < b.openMs :=
          (not_le.mp early).trans (after b member)
        rw [List.filter_cons_of_neg (by simpa using early),
          List.filter_cons_of_pos (by simpa using early), List.filter_eq_nil_iff.mpr,
          List.nil_append, List.filter_eq_self.mpr]
        · exact fun b member => by simpa using late b member
        · exact fun b member => by simpa using late b member

end Venue

/-! ## Pages -/

section Pages

variable {ofText : String → Option (ExtNum ℚ)}

variable (ofText) in
/-- The klines are decoded to these candles. -/
def Decoded (page : List Kline) (candles : List FeedCandle) : Prop :=
  List.Forall₂ (fun k candle => parseKline ofText k.row = .ok candle) page candles

theorem exists_decoded {page : List Kline} (accepted : ∀ k ∈ page, k.Accepted ofText) :
    ∃ candles, Decoded ofText page candles := by
  induction page with
  | nil => exact ⟨[], .nil⟩
  | cons k page ih =>
      obtain ⟨first, others⟩ := List.forall_mem_cons.mp accepted
      obtain ⟨candle, parsed⟩ := first
      obtain ⟨candles, decoded⟩ := ih others
      exact ⟨candle :: candles, .cons parsed decoded⟩

theorem Decoded.accepted {page : List Kline} {candles : List FeedCandle}
    (decoded : Decoded ofText page candles) : ∀ k ∈ page, k.Accepted ofText := by
  induction decoded with
  | nil => simp
  | cons parsed _ ih => exact List.forall_mem_cons.mpr ⟨⟨_, parsed⟩, ih⟩

theorem tOpen_of_parse {k : Kline} {candle : FeedCandle}
    (parsed : parseKline ofText k.row = .ok candle) : candle.tOpen = fin ((k.openMs : ℚ) / 1000) := by
  obtain ⟨_, _, _, _, _, -, -, -, -, -, rfl⟩ := k.parse_ok_iff.mp parsed
  rfl

/-- The candles of klines in order are in order. -/
theorem Decoded.sorted {page : List Kline} {candles : List FeedCandle}
    (decoded : Decoded ofText page candles)
    (ascending : page.Pairwise fun a b => a.openMs < b.openMs) :
    candles.insertionSort NotAfter = candles := by
  have times : candles.map FeedCandle.tOpen = page.map fun k => fin ((k.openMs : ℚ) / 1000) := by
    induction decoded with
    | nil => rfl
    | cons parsed _ ih =>
        rw [List.map_cons, List.map_cons, tOpen_of_parse parsed,
          ih (List.pairwise_cons.mp ascending).2]
  apply List.Pairwise.insertionSort_eq
  have ordered : (candles.map FeedCandle.tOpen).Pairwise fun s t => ¬ t < s := by
    rw [times, List.pairwise_map]
    refine ascending.imp fun {a b} lt => ?_
    have le : (a.openMs : ℚ) ≤ b.openMs := by exact_mod_cast lt.le
    rw [ExtNum.fin_lt_fin, not_lt]
    exact div_le_div_of_nonneg_right le (by norm_num)
  rw [List.pairwise_map] at ordered
  exact ordered

/-- A page is decoded when its rows are. -/
theorem klinesOf_page {page : List Kline} {candles : List FeedCandle}
    (ascending : page.Pairwise fun a b => a.openMs < b.openMs) :
    klinesOf ofText (.arr (page.map Kline.row)) = .ok candles ↔ Decoded ofText page candles := by
  rw [klinesOf_ok_iff]
  simp only [List.forall₂_map_left_iff]
  constructor
  · rintro ⟨rows, decoded, rfl⟩
    rw [Decoded.sorted decoded ascending]
    exact decoded
  · intro decoded
    exact ⟨candles, decoded, (decoded.sorted ascending).symm⟩

variable {timeframeS : ℚ} {V : Venue timeframeS} {symbol : String} {batch : ℤ}

/-- What a request is answered. -/
theorem fetchKlines_page (pageable : 1 ≤ batch ∧ batch ≤ 1000) (cursor : ℤ) :
    fetchKlines ofText V.http symbol timeframeS batch (some cursor) =
      klinesOf ofText (.arr ((lastN batch.toNat (V.upTo cursor)).map Kline.row)) := by
  rw [fetchKlines, V.supported]
  exact if_neg (not_not.mpr pageable)

theorem lastN_ascending (n : ℕ) (t : ℤ) :
    (lastN n (V.upTo t)).Pairwise fun a b => a.openMs < b.openMs :=
  (V.ascending.filter _).sublist (List.drop_sublist _ _)

end Pages

/-! ## The loop -/

/-- The `j`-th kline from the newest is on a page that is asked for: on the first, if there is
anything to cover, or on one whose predecessor ends before all is covered. -/
def Asked (n : ℕ) (frame oldest cursor : ℤ) (newest : List Kline) (j : ℕ) : Prop :=
  oldest < cursor ∧ (j < n ∨ ∃ k, newest[j / n * n - 1]? = some k ∧ oldest < k.openMs - frame)

section Loop

variable {n : ℕ} {frame oldest cursor : ℤ}

/-- Past the first page, the others are asked for from its end. -/
theorem asked_step {page rest : List Kline} {k : Kline} (positive : 0 < n)
    (full : page.length = n) (last : page[n - 1]? = some k)
    (before : ∀ k' ∈ rest, k'.openMs ≤ k.openMs) (ahead : oldest < cursor) (j : ℕ) :
    Asked n frame oldest cursor (page ++ rest) (j + n) ↔
      Asked n frame oldest (k.openMs - frame) rest j := by
  have far : ¬ j + n < n := by omega
  unfold Asked
  rw [Nat.add_div_right j positive, Nat.succ_mul]
  by_cases near : j < n
  · have index : j / n * n + n - 1 = n - 1 := by
      rw [Nat.div_eq_of_lt near]
      omega
    have here : (page ++ rest)[n - 1]? = some k := by
      rw [List.getElem?_append_left (by omega), last]
    rw [index, here]
    simp only [ahead, far, near, false_or, true_and, true_or, and_true, Option.some.injEq,
      exists_eq_left']
  · have quotient : 1 ≤ j / n := (Nat.one_le_div_iff positive).mpr (by omega)
    have whole : n ≤ j / n * n := Nat.le_mul_of_pos_left n quotient
    have there : (page ++ rest)[j / n * n + n - 1]? = rest[j / n * n - 1]? := by
      rw [List.getElem?_append_right (by omega)]
      congr 1
      omega
    rw [there]
    simp only [ahead, far, near, false_or, true_and]
    constructor
    · rintro ⟨k', found, covers⟩
      have := before k' (List.mem_of_getElem? found)
      exact ⟨by omega, k', found, covers⟩
    · exact And.right

/-- A member of the last `n` is one of the first `n` from the end. -/
theorem exists_newest {α : Type} {x : α} {xs : List α} {n : ℕ} (member : x ∈ lastN n xs) :
    ∃ j < n, xs.reverse[j]? = some x := by
  have reversed : x ∈ xs.reverse.take n := by
    rw [List.take_reverse, List.mem_reverse]
    exact member
  obtain ⟨j, found⟩ := List.mem_iff_getElem?.mp reversed
  rw [List.getElem?_take] at found
  split at found
  · rename_i near
    exact ⟨j, near, found⟩
  · cases found

theorem mem_lastN_of_newest {α : Type} {x : α} {xs : List α} {j n : ℕ}
    (found : xs.reverse[j]? = some x) (near : j < n) : x ∈ lastN n xs := by
  have reversed : x ∈ xs.reverse.take n := by
    refine List.mem_iff_getElem?.mpr ⟨j, ?_⟩
    rw [List.getElem?_take, if_pos near, found]
  rw [List.take_reverse, List.mem_reverse] at reversed
  exact reversed

/-- A page is empty if it is of nothing, or there is nothing. -/
theorem lastN_eq_nil_iff {α : Type} {n : ℕ} {xs : List α} :
    lastN n xs = [] ↔ n = 0 ∨ xs = [] := by
  rw [lastN, List.drop_eq_nil_iff, ← List.length_eq_zero_iff]
  omega

theorem lastN_add {α : Type} (m n : ℕ) (xs : List α) :
    lastN (m + n) xs = lastN m (xs.take (xs.length - n)) ++ lastN n xs := by
  unfold lastN
  have short : xs.length - (m + n) ≤ (xs.take (xs.length - n)).length := by
    rw [List.length_take]
    omega
  conv_lhs => rw [← List.take_append_drop (xs.length - n) xs]
  rw [List.length_append, List.length_take, List.length_drop, List.drop_append_of_le_length]
  · congr 2
    omega
  · rw [List.length_take]
    omega

variable {ofText : String → Option (ExtNum ℚ)} {timeframeS : ℚ} {V : Venue timeframeS}
variable {symbol : String} {batch : ℤ}

/-- A page with a kline that is not decoded is refused. -/
theorem fetch_refused (pageable : 1 ≤ batch ∧ batch ≤ 1000) {cursor : ℤ} {k : Kline}
    (member : k ∈ lastN batch.toNat (V.upTo cursor)) (refused : ¬ k.Accepted ofText) :
    ∃ e, fetchKlines ofText V.http symbol timeframeS batch (some cursor) = .error e := by
  cases fetched : fetchKlines ofText V.http symbol timeframeS batch (some cursor) with
  | error e => exact ⟨e, rfl⟩
  | ok candles =>
      rw [fetchKlines_page pageable, klinesOf_page (lastN_ascending _ _)] at fetched
      exact absurd (fetched.accepted k member) refused

theorem fetch_decoded (pageable : 1 ≤ batch ∧ batch ≤ 1000) {cursor : ℤ}
    {candles : List FeedCandle}
    (decoded : Decoded ofText (lastN batch.toNat (V.upTo cursor)) candles) :
    fetchKlines ofText V.http symbol timeframeS batch (some cursor) = .ok candles := by
  rw [fetchKlines_page pageable, klinesOf_page (lastN_ascending _ _)]
  exact decoded

/-- A page that is decoded is put in front, and the next one ends before its oldest. -/
theorem fetchBack_page {fuel : ℕ} {cursor : ℤ} {out candles : List FeedCandle}
    {candle : FeedCandle} {k : Kline} (ahead : oldest < cursor)
    (fetched : fetchKlines ofText V.http symbol timeframeS batch (some cursor) =
      .ok (candle :: candles))
    (parsed : parseKline ofText k.row = .ok candle) :
    fetchBack ofText V.http symbol timeframeS batch oldest frame (fuel + 1) cursor out =
      fetchBack ofText V.http symbol timeframeS batch oldest frame fuel (k.openMs - frame)
        (candle :: candles ++ out) := by
  have opened : intOfFloat (candle.tOpen * fin 1000) = .ok k.openMs := by
    rw [tOpen_of_parse parsed, ExtNum.fin_mul_fin, div_mul_cancel₀ _ (by norm_num), intOfFloat,
      truncate_intCast]
  rw [fetchBack, if_neg (not_le.mpr ahead), fetched]
  dsimp only
  rw [opened]

variable (frame oldest ofText batch) in
/-- What the loop makes of what is before the cursor. -/
def Walked (older : List Kline) (cursor : ℤ) (out : List FeedCandle)
    (result : Except FeedError (List FeedCandle)) : Prop :=
  (∃ m candles, result = .ok (candles ++ out) ∧ Decoded ofText (lastN m older) candles ∧
    ∀ j < older.length, Asked batch.toNat frame oldest cursor older.reverse j ↔ j < m) ∨
  ∃ e j k, result = .error e ∧ Asked batch.toNat frame oldest cursor older.reverse j ∧
    older.reverse[j]? = some k ∧ ¬ k.Accepted ofText

theorem Walked.stop {cursor : ℤ} (older : List Kline) (out : List FeedCandle)
    (behind : cursor ≤ oldest) : Walked frame oldest ofText batch older cursor out (.ok out) := by
  refine .inl ⟨0, [], rfl, ?_, fun j _ => ?_⟩
  · rw [lastN, Nat.sub_zero, List.drop_length]
    exact .nil
  · constructor
    · intro asked
      exact absurd asked.1 (not_lt.mpr behind)
    · intro none_
      exact absurd none_ (Nat.not_lt_zero j)

theorem Walked.nothing {cursor : ℤ} (out : List FeedCandle) :
    Walked frame oldest ofText batch [] cursor out (.ok out) :=
  .inl ⟨0, [], rfl, .nil, fun j inside => absurd inside (Nat.not_lt_zero j)⟩

/-- A page, and what the loop makes of what is before it. -/
theorem Walked.page {older page : List Kline} {cursor : ℤ} {k : Kline}
    {out candles : List FeedCandle} {result : Except FeedError (List FeedCandle)}
    (positive : 0 < batch.toNat) (ahead : oldest < cursor)
    (ascending : older.Pairwise fun a b => a.openMs < b.openMs)
    (newest : lastN batch.toNat older = k :: page) (decoded : Decoded ofText (k :: page) candles)
    (walked : Walked frame oldest ofText batch (older.take (older.length - batch.toNat))
      (k.openMs - frame) (candles ++ out) result) :
    Walked frame oldest ofText batch older cursor out result := by
  obtain ⟨rest, taken⟩ : ∃ rest, older.take (older.length - batch.toNat) = rest := ⟨_, rfl⟩
  have split : older = rest ++ k :: page := by
    rw [← newest, ← taken]
    exact (List.take_append_drop _ older).symm
  have size : (k :: page).length = older.length - (older.length - batch.toNat) := by
    rw [← newest, lastN, List.length_drop]
  have before (k' : Kline) (member : k' ∈ rest.reverse) : k'.openMs ≤ k.openMs := by
    rw [split, List.pairwise_append] at ascending
    exact (ascending.2.2 k' (List.mem_reverse.mp member) k List.mem_cons_self).le
  have back : older.reverse = (k :: page).reverse ++ rest.reverse := by
    rw [split, List.reverse_append]
  have far (j : ℕ) (inside : j + batch.toNat < older.length) :
      Asked batch.toNat frame oldest cursor older.reverse (j + batch.toNat) ↔
        Asked batch.toNat frame oldest (k.openMs - frame) rest.reverse j := by
    have full : (k :: page).length = batch.toNat := by omega
    rw [back]
    refine asked_step positive ?_ ?_ before ahead j
    · rw [List.length_reverse, full]
    · rw [← full, List.getElem?_reverse (by rw [full]; omega)]
      simp
  rw [taken] at walked
  rcases walked with ⟨m, candles', rfl, decoded', asked⟩ | ⟨e, j, k', rfl, asked, found, refused⟩
  · refine .inl ⟨m + batch.toNat, candles' ++ candles, ?_, ?_, fun j inside => ?_⟩
    · rw [List.append_assoc]
    · rw [lastN_add, taken, newest]
      exact List.rel_append decoded' decoded
    · rcases lt_or_ge j batch.toNat with near | near
      · exact iff_of_true ⟨ahead, .inl near⟩ (by omega)
      · obtain ⟨j, rfl⟩ := Nat.exists_eq_add_of_le' near
        have short : j < rest.length := by
          have := congrArg List.length split
          rw [List.length_append] at this
          omega
        rw [far j inside, asked j short]
        omega
  · have short : j < rest.length := by
      have := (List.getElem?_eq_some_iff.mp found).1
      rwa [List.length_reverse] at this
    have whole := congrArg List.length split
    rw [List.length_append] at whole
    refine .inr ⟨e, j + batch.toNat, k', rfl, (far j (by omega)).mpr asked, ?_, refused⟩
    rw [back, List.getElem?_append_right] <;> rw [List.length_reverse]
    · rw [← found]
      congr 1
      omega
    · omega

variable (symbol) in
/-- With more fuel than there are klines, the loop returns. -/
theorem fetchBack_spec (pageable : 1 ≤ batch ∧ batch ≤ 1000) (fuel : ℕ) :
    ∀ (older newer : List Kline) (cursor : ℤ) (out : List FeedCandle),
      V.klines = older ++ newer → V.upTo cursor = older → older.length < fuel →
        ∃ result, fetchBack ofText V.http symbol timeframeS batch oldest (frameMs timeframeS) fuel
          cursor out = some result ∧
            Walked (frameMs timeframeS) oldest ofText batch older cursor out result := by
  have positive : 0 < batch.toNat := by omega
  induction fuel with
  | zero =>
      intro older newer cursor out split held enough
      exact absurd enough (Nat.not_lt_zero _)
  | succ fuel ih =>
      intro older newer cursor out split held enough
      rcases le_or_gt cursor oldest with behind | ahead
      · exact ⟨.ok out, by rw [fetchBack, if_pos behind], .stop older out behind⟩
      · by_cases accepted : ∀ k ∈ lastN batch.toNat older, k.Accepted ofText
        · obtain ⟨candles, decoded⟩ := exists_decoded accepted
          have fetched : fetchKlines ofText V.http symbol timeframeS batch (some cursor) =
              .ok candles := fetch_decoded pageable (held ▸ decoded)
          cases newest : lastN batch.toNat older with
          | nil =>
              have none_ : older = [] := (lastN_eq_nil_iff.mp newest).resolve_left positive.ne'
              rw [newest] at decoded
              obtain rfl := List.forall₂_nil_left_iff.mp decoded
              refine ⟨.ok out, by rw [fetchBack, if_neg (not_le.mpr ahead), fetched], ?_⟩
              rw [none_]
              exact .nothing out
          | cons k page =>
              rw [newest] at decoded
              obtain ⟨candle, candles, parsed, others, rfl⟩ :=
                List.forall₂_cons_left_iff.mp decoded
              have parts : V.klines =
                  older.take (older.length - batch.toNat) ++ k :: (page ++ newer) := by
                rw [split, ← List.cons_append, ← newest, ← List.append_assoc]
                exact congrArg (· ++ newer) (List.take_append_drop _ older).symm
              have fewer : (older.take (older.length - batch.toNat)).length < fuel := by
                have := congrArg List.length newest
                rw [lastN, List.length_drop, List.length_cons] at this
                rw [List.length_take]
                omega
              obtain ⟨result, returns, walked⟩ := ih _ _ (k.openMs - frameMs timeframeS)
                (candle :: candles ++ out) parts (V.upTo_step parts) fewer
              refine ⟨result, (fetchBack_page ahead fetched parsed).trans returns, ?_⟩
              refine .page positive ahead ?_ newest decoded walked
              rw [← held]
              exact V.ascending.filter _
        · push Not at accepted
          obtain ⟨k, member, refused⟩ := accepted
          have page : k ∈ lastN batch.toNat (V.upTo cursor) := held ▸ member
          obtain ⟨e, fetched⟩ : ∃ e, fetchKlines ofText V.http symbol timeframeS batch
            (some cursor) = .error e := fetch_refused pageable page refused
          refine ⟨.error e, by rw [fetchBack, if_neg (not_le.mpr ahead), fetched], ?_⟩
          obtain ⟨j, near, found⟩ := exists_newest member
          exact .inr ⟨e, j, k, rfl, ⟨ahead, .inl near⟩, found, refused⟩

/-- More fuel changes nothing. -/
theorem fetchBack_mono {http : HttpJson} {fuel : ℕ} :
    ∀ {more : ℕ} {cursor : ℤ} {out : List FeedCandle}
      {result : Except FeedError (List FeedCandle)}, fuel ≤ more →
        fetchBack ofText http symbol timeframeS batch oldest frame fuel cursor out = some result →
          fetchBack ofText http symbol timeframeS batch oldest frame more cursor out =
            some result := by
  induction fuel with
  | zero =>
      intro more cursor out result _ returns
      cases returns
  | succ fuel ih =>
      intro more cursor out result le returns
      obtain ⟨more, rfl⟩ : ∃ m, more = m + 1 := ⟨more - 1, by omega⟩
      have le : fuel ≤ more := Nat.le_of_succ_le_succ le
      rw [fetchBack] at returns ⊢
      split at returns
      · rename_i behind
        rw [if_pos behind]
        exact returns
      · rename_i ahead
        rw [if_neg ahead]
        split at returns
        · exact returns
        · exact returns
        · split at returns
          · exact returns
          · exact ih le returns

end Loop

/-! ## A history -/

namespace Venue

variable {timeframeS : ℚ} (V : Venue timeframeS) (ofText : String → Option (ExtNum ℚ))

/-- What is fetched is a run of the klines that ends at the last that opens by the end, and has
every one that opens after the start. -/
def Gapless (symbol : String) (historyMs : ExtNum ℚ) (batch : ℤ) (endMs : Option ℤ)
    (nowMs : ℚ) : Prop :=
  ∃ fuel candles older page newer,
    fetchHistory ofText V.http symbol timeframeS historyMs batch endMs nowMs fuel =
      some (.ok candles) ∧
    V.klines = older ++ page ++ newer ∧ Decoded ofText page candles ∧
    (∀ k ∈ page, k.openMs ≤ lastMs endMs nowMs) ∧
    (∀ k ∈ newer, lastMs endMs nowMs < k.openMs) ∧ (page = [] → older = []) ∧
    ∀ k ∈ V.klines, k.openMs ≤ lastMs endMs nowMs →
      fin ((lastMs endMs nowMs - k.openMs : ℤ) : ℚ) < historyMs → k ∈ page

/-- The history to cover, up to `last`, is fetched whole. -/
structure Fetchable (history : ℚ) (batch last : ℤ) : Prop where
  begun : history < 1 → V.upTo last = []
  accepted : ∀ j k, (V.upTo last).reverse[j]? = some k →
    Asked batch.toNat (frameMs timeframeS) (last - ⌊history⌋) last (V.upTo last).reverse j →
      k.Accepted ofText
  /-- no page ends right after the kline that a fraction of a millisecond is for -/
  covered : ∀ j k k', history ≠ ⌊history⌋ → batch.toNat ∣ j + 1 →
    (V.upTo last).reverse[j]? = some k' → (V.upTo last).reverse[j + 1]? = some k →
      k.openMs = last - ⌊history⌋ → k'.openMs ≠ k.openMs + frameMs timeframeS

variable {V ofText} {symbol : String} {history : ℚ} {batch last : ℤ} {endMs : Option ℤ}
variable {nowMs : ℚ}

theorem newest_spaced {i j : ℕ} {a b : Kline} (before : i < j)
    (newer : (V.upTo last).reverse[i]? = some a) (older : (V.upTo last).reverse[j]? = some b) :
    b.openMs + frameMs timeframeS ≤ a.openMs := by
  have spaced : (V.upTo last).reverse.Pairwise
      fun a b => b.openMs + frameMs timeframeS ≤ a.openMs := by
    rw [List.pairwise_reverse]
    exact V.spaced.filter _
  obtain ⟨inside, rfl⟩ := List.getElem?_eq_some_iff.mp newer
  obtain ⟨inside', rfl⟩ := List.getElem?_eq_some_iff.mp older
  exact List.pairwise_iff_getElem.mp spaced i j inside inside' before

/-- A kline stands at one place. -/
theorem newest_index {i j : ℕ} {k : Kline} (first : (V.upTo last).reverse[i]? = some k)
    (second : (V.upTo last).reverse[j]? = some k) : i = j := by
  have frame := V.frame_pos
  rcases lt_trichotomy i j with less | same | more
  · have := newest_spaced less first second
    omega
  · exact same
  · have := newest_spaced more second first
    omega

/-- What opens after the start is asked for, but for one kline. -/
theorem asked_of_after {j : ℕ} {k : Kline} (pageable : 1 ≤ batch) (enough : 1 ≤ history)
    (found : (V.upTo last).reverse[j]? = some k) (after : (last - k.openMs : ℤ) < history)
    (covered : ∀ j k k', history ≠ ⌊history⌋ → batch.toNat ∣ j + 1 →
      (V.upTo last).reverse[j]? = some k' → (V.upTo last).reverse[j + 1]? = some k →
        k.openMs = last - ⌊history⌋ → k'.openMs ≠ k.openMs + frameMs timeframeS) :
    Asked batch.toNat (frameMs timeframeS) (last - ⌊history⌋) last (V.upTo last).reverse j := by
  have positive : 0 < batch.toNat := by omega
  have begun : 1 ≤ ⌊history⌋ := Int.le_floor.mpr (by exact_mod_cast enough)
  have started : last - k.openMs ≤ ⌊history⌋ := Int.le_floor.mpr after.le
  have frame := V.frame_pos
  refine ⟨by omega, ?_⟩
  rcases lt_or_ge j batch.toNat with near | far
  · exact .inl near
  · have quotient : 1 ≤ j / batch.toNat := (Nat.one_le_div_iff positive).mpr far
    have whole : batch.toNat ≤ j / batch.toNat * batch.toNat :=
      Nat.le_mul_of_pos_left _ quotient
    have least : j / batch.toNat * batch.toNat ≤ j := Nat.div_mul_le_self _ _
    have divides : batch.toNat ∣ j / batch.toNat * batch.toNat := Nat.dvd_mul_left _ _
    obtain ⟨i, end_⟩ : ∃ i, j / batch.toNat * batch.toNat = i + 1 :=
      ⟨j / batch.toNat * batch.toNat - 1, by omega⟩
    rw [end_] at whole least divides ⊢
    obtain ⟨inside, -⟩ := List.getElem?_eq_some_iff.mp found
    obtain ⟨k', there⟩ : ∃ k', (V.upTo last).reverse[i]? = some k' :=
      ⟨_, List.getElem?_eq_getElem (by omega)⟩
    have apart := newest_spaced (by omega) there found
    refine .inr ⟨k', there, ?_⟩
    by_contra short
    have adjacent : i + 1 = j := by
      by_contra between
      obtain ⟨k'', middle⟩ : ∃ k'', (V.upTo last).reverse[i + 1]? = some k'' :=
        ⟨_, List.getElem?_eq_getElem (by omega)⟩
      have first := newest_spaced (Nat.lt_succ_self i) there middle
      have second := newest_spaced (by omega) middle found
      omega
    have fraction : history ≠ ⌊history⌋ := by
      intro same
      rw [same] at after
      have := Int.cast_lt.mp after
      omega
    exact covered i k k' fraction divides there (adjacent ▸ found) (by omega) (by omega)

/-- The kline that a fraction of a millisecond is for is left out after a page that ends right
before it. -/
theorem not_asked_after {j : ℕ} {k k' : Kline} (divides : batch.toNat ∣ j + 1)
    (there : (V.upTo last).reverse[j]? = some k') (here : k.openMs = last - ⌊history⌋)
    (next : k'.openMs = k.openMs + frameMs timeframeS) :
    ¬ Asked batch.toNat (frameMs timeframeS) (last - ⌊history⌋) last (V.upTo last).reverse
      (j + 1) := by
  have size : batch.toNat ≤ j + 1 := Nat.le_of_dvd (Nat.succ_pos j) divides
  rintro ⟨-, near | ⟨k'', found, ahead⟩⟩
  · omega
  · rw [Nat.div_mul_cancel divides, Nat.add_sub_cancel, there] at found
    obtain rfl := Option.some.inj found
    omega

/-- What `fetchHistory` returns, if it has a finite time to cover. -/
theorem fetchHistory_spec (pageable : 1 ≤ batch ∧ batch ≤ 1000) (positive : 0 < history) :
    ∃ result, (∀ fuel, V.klines.length < fuel → fetchHistory ofText V.http symbol timeframeS
        (fin history) batch endMs nowMs fuel = some result) ∧
      Walked (frameMs timeframeS) (lastMs endMs nowMs - ⌊history⌋) ofText batch
        (V.upTo (lastMs endMs nowMs)) (lastMs endMs nowMs) [] result := by
  have short : (V.upTo (lastMs endMs nowMs)).length ≤ V.klines.length := List.length_filter_le _ _
  obtain ⟨result, returns, walked⟩ := fetchBack_spec symbol pageable
    (V.klines.length + 1) _ _ (lastMs endMs nowMs) [] (V.klines_eq _) rfl (by omega)
  refine ⟨result, fun fuel enough => ?_, walked⟩
  have whole : intOfFloat (fin history) = .ok ⌊history⌋ := by
    rw [intOfFloat, truncate, if_pos positive.le]
  rw [fetchHistory, whole]
  dsimp only
  rw [V.frame_lookup]
  exact fetchBack_mono enough returns

theorem fetchHistory_mono {historyMs : ExtNum ℚ} {fuel more : ℕ}
    {result : Except FeedError (List FeedCandle)} (le : fuel ≤ more)
    (returned : fetchHistory ofText V.http symbol timeframeS historyMs batch endMs nowMs fuel =
      some result) :
    fetchHistory ofText V.http symbol timeframeS historyMs batch endMs nowMs more =
      some result := by
  unfold fetchHistory at returned ⊢
  split at returned
  · exact returned
  · exact fetchBack_mono le returned

/-- A run of the klines that ends at the last one up to a time is the end of those. -/
theorem upTo_of_split {older page newer : List Kline}
    (split : V.klines = older ++ page ++ newer) (early : ∀ k ∈ page, k.openMs ≤ last)
    (late : ∀ k ∈ newer, last < k.openMs) (empty : page = [] → older = []) :
    V.upTo last = older ++ page := by
  have ascending := V.ascending
  rw [split, List.append_assoc, List.pairwise_append] at ascending
  unfold upTo
  rw [split, List.filter_append, List.filter_eq_self.mpr, List.filter_eq_nil_iff.mpr,
    List.append_nil]
  · intro k member
    simpa using late k member
  · intro k member
    rw [decide_eq_true_eq]
    rcases List.mem_append.mp member with first | second
    · cases page with
      | nil =>
          rw [empty rfl] at first
          cases first
      | cons k' page =>
          have before := ascending.2.2 k first k' (by simp)
          have := early k' List.mem_cons_self
          omega
    · exact early k second

theorem gapless_of_fetchable (pageable : 1 ≤ batch ∧ batch ≤ 1000) (positive : 0 < history)
    (fetchable : V.Fetchable ofText history batch (lastMs endMs nowMs)) :
    V.Gapless ofText symbol (fin history) batch endMs nowMs := by
  obtain ⟨result, returns, walked⟩ : ∃ result, (∀ fuel, V.klines.length < fuel →
      fetchHistory ofText V.http symbol timeframeS (fin history) batch endMs nowMs fuel =
        some result) ∧ Walked (frameMs timeframeS) (lastMs endMs nowMs - ⌊history⌋) ofText batch
          (V.upTo (lastMs endMs nowMs)) (lastMs endMs nowMs) [] result :=
    fetchHistory_spec pageable positive
  obtain ⟨m, candles, rfl, decoded, asked⟩ | ⟨e, j, k, rfl, asked, found, refused⟩ := walked
  · have covers (j : ℕ) (k : Kline) (found : (V.upTo (lastMs endMs nowMs)).reverse[j]? = some k)
        (after : (lastMs endMs nowMs - k.openMs : ℤ) < history) :
        k ∈ lastN m (V.upTo (lastMs endMs nowMs)) := by
      have inside := (List.getElem?_eq_some_iff.mp found).1
      rw [List.length_reverse] at inside
      have enough : 1 ≤ history := by
        by_contra short
        rw [fetchable.begun (not_le.mp short)] at inside
        exact absurd inside (Nat.not_lt_zero j)
      refine mem_lastN_of_newest found ((asked j inside).mp ?_)
      exact asked_of_after pageable.1 enough found after fetchable.covered
    have parts : V.klines = (V.upTo (lastMs endMs nowMs)).take
        ((V.upTo (lastMs endMs nowMs)).length - m) ++ lastN m (V.upTo (lastMs endMs nowMs)) ++
          V.klines.filter fun k => lastMs endMs nowMs < k.openMs := by
      rw [lastN, List.take_append_drop]
      exact V.klines_eq _
    rw [List.append_nil] at returns
    refine ⟨_, candles, _, _, _, returns _ (Nat.lt_succ_self _), parts, decoded, fun k member => ?_,
      fun k member => ?_, fun empty => ?_, fun k member early after => ?_⟩
    · simpa using (List.mem_filter.mp (List.mem_of_mem_drop member)).2
    · simpa using (List.mem_filter.mp member).2
    · have none_ : V.upTo (lastMs endMs nowMs) = [] := by
        rcases lt_or_ge history 1 with short | enough
        · exact fetchable.begun short
        · by_contra some_
          have inside := List.length_pos_iff.mpr some_
          have begun : 1 ≤ ⌊history⌋ := Int.le_floor.mpr (by exact_mod_cast enough)
          have first := (asked 0 inside).mp ⟨by omega, .inl (by omega)⟩
          rcases lastN_eq_nil_iff.mp empty with none_ | none_
          · omega
          · exact some_ none_
      rw [none_, List.take_nil]
    · have held : k ∈ (V.upTo (lastMs endMs nowMs)).reverse :=
        List.mem_reverse.mpr (List.mem_filter.mpr ⟨member, by simpa using early⟩)
      obtain ⟨j, found⟩ := List.mem_iff_getElem?.mp held
      exact covers j k found after
  · exact absurd (fetchable.accepted j k found asked) refused

theorem fetchable_of_gapless (pageable : 1 ≤ batch ∧ batch ≤ 1000) (positive : 0 < history)
    (gapless : V.Gapless ofText symbol (fin history) batch endMs nowMs) :
    V.Fetchable ofText history batch (lastMs endMs nowMs) := by
  obtain ⟨fuel, candles, older, page, newer, returned, parts, decoded, early, late, empty,
    covers⟩ := gapless
  have held := upTo_of_split parts early late empty
  obtain ⟨result, returns, walked⟩ : ∃ result, (∀ fuel, V.klines.length < fuel →
      fetchHistory ofText V.http symbol timeframeS (fin history) batch endMs nowMs fuel =
        some result) ∧ Walked (frameMs timeframeS) (lastMs endMs nowMs - ⌊history⌋) ofText batch
          (V.upTo (lastMs endMs nowMs)) (lastMs endMs nowMs) [] result :=
    fetchHistory_spec pageable positive
  obtain rfl : result = .ok candles := by
    have more := fetchHistory_mono (Nat.le_max_left fuel (V.klines.length + 1)) returned
    rw [returns _ (by omega)] at more
    exact Option.some.inj more
  obtain ⟨m, candles', same, decoded', asked⟩ | ⟨_, _, _, refused, -⟩ := walked
  · obtain rfl : candles = candles' := by
      rw [List.append_nil] at same
      exact Except.ok.inj same
    have newest : lastN m (V.upTo (lastMs endMs nowMs)) = page := by
      have size := decoded'.length_eq.trans decoded.length_eq.symm
      rw [held, lastN, List.length_drop, List.length_append] at size
      rw [held, lastN, List.length_append]
      exact List.drop_left' (by omega)
    rw [← newest] at decoded covers empty held
    refine ⟨fun short => ?_, fun j k found asked_ => ?_,
      fun j k k' fraction divides there found here next => ?_⟩
    · have whole : ⌊history⌋ = 0 := Int.floor_eq_zero_iff.mpr ⟨positive.le, short⟩
      by_contra some_
      have inside := List.length_pos_iff.mpr some_
      have unasked : ¬ 0 < m := by
        intro first
        have ahead := ((asked 0 inside).mpr first).1
        omega
      have none_ : lastN m (V.upTo (lastMs endMs nowMs)) = [] :=
        lastN_eq_nil_iff.mpr (.inl (Nat.eq_zero_of_not_pos unasked))
      rw [empty none_, none_] at held
      exact some_ held
    · refine decoded.accepted k (mem_lastN_of_newest found ((asked j ?_).mp asked_))
      have inside := (List.getElem?_eq_some_iff.mp found).1
      rwa [List.length_reverse] at inside
    · obtain ⟨member, early⟩ :=
        List.mem_filter.mp (List.mem_reverse.mp (List.mem_of_getElem? found))
      have after : (lastMs endMs nowMs - k.openMs : ℤ) < history := by
        have below := lt_of_le_of_ne (Int.floor_le history) fraction.symm
        rw [here]
        simpa using below
      obtain ⟨j', near, found'⟩ := exists_newest (covers k member (by simpa using early) after)
      obtain rfl : j' = j + 1 := newest_index found' found
      have inside := (List.getElem?_eq_some_iff.mp found).1
      rw [List.length_reverse] at inside
      exact not_asked_after divides there here next ((asked _ inside).mpr near)
  · cases refused

/-- **A history is one gapless run of the klines, exactly when** the time to cover is finite, at
least a millisecond if there is a kline, and not a fraction that ends right after a page, and
every kline that is asked for is decoded. -/
theorem gapless_iff (V : Venue timeframeS) (ofText : String → Option (ExtNum ℚ))
    (symbol : String) (historyMs : ExtNum ℚ) (batch : ℤ) (endMs : Option ℤ) (nowMs : ℚ)
    (pageable : 1 ≤ batch ∧ batch ≤ 1000) (positive : fin 0 < historyMs) :
    V.Gapless ofText symbol historyMs batch endMs nowMs ↔
      ∃ history, historyMs = fin history ∧
        V.Fetchable ofText history batch (lastMs endMs nowMs) := by
  constructor
  · intro gapless
    cases historyMs with
    | fin history => exact ⟨history, rfl, fetchable_of_gapless pageable positive gapless⟩
    | posInf =>
        obtain ⟨fuel, candles, older, page, newer, returned, -⟩ := gapless
        cases returned
    | negInf => exact positive.elim
    | nan => exact absurd positive (ExtNum.not_lt_nan _)
  · rintro ⟨history, rfl, fetchable⟩
    exact gapless_of_fetchable pageable positive fetchable

end Venue

/-! ## Two minutes -/

/-- The minute that opens at a time, at a price of one. -/
def minuteAt (openMs : ℤ) (opens : |openMs| < 2 ^ 53) (closes : |openMs + 59999| < 2 ^ 53) :
    Kline where
  openMs := openMs
  open_ := .str "1"
  high := .str "1"
  low := .str "1"
  close := .str "1"
  volume := .str "1"
  closeMs := openMs + 59999
  rest := []
  open_exact := floatOfInt_small opens
  close_exact := floatOfInt_small closes

/-- The first two minutes of the epoch. -/
def twoMinutes : Venue 60 where
  interval := "1m"
  supported := by decide +kernel
  klines := [minuteAt 0 (by decide) (by decide), minuteAt 60000 (by decide) (by decide)]
  ascending := by decide
  aligned := by decide +kernel

theorem minuteAt_accepted {openMs : ℤ} (opens : |openMs| < 2 ^ 53)
    (closes : |openMs + 59999| < 2 ^ 53) :
    (minuteAt openMs opens closes).Accepted fun text => parseFloat text.toList := by
  have one : ReadsPositive (fun text => parseFloat text.toList) (.str "1") :=
    ⟨fin 1, by decide +kernel, by decide +kernel⟩
  refine (Kline.accepted_iff _).mpr fun v member => ?_
  simp only [minuteAt, Kline.prices, List.cons_append, List.nil_append, List.mem_cons,
    List.not_mem_nil, or_false, or_self] at member
  exact member ▸ one

/-- One minute of history, one kline a page. -/
theorem minute_gapless :
    twoMinutes.Gapless (fun text => parseFloat text.toList) "BTCUSDT" (fin 60000) 1 (some 60000)
      0 := by
  refine (twoMinutes.gapless_iff _ _ _ _ _ _ (by decide) (by decide +kernel)).mpr
    ⟨60000, rfl, fun short => ?_, fun j k found _ => ?_, fun j k k' fraction => ?_⟩
  · norm_num at short
  · have member := List.mem_of_getElem? found
    rw [List.mem_reverse] at member
    have held := (List.mem_filter.mp member).1
    simp only [twoMinutes, List.mem_cons, List.not_mem_nil, or_false] at held
    rcases held with rfl | rfl <;> exact minuteAt_accepted _ _
  · exact absurd (by norm_num) fraction

/-- Refuting pole: half a millisecond more reaches the minute before, and it is left out. -/
theorem fraction_short :
    ¬ ∀ (timeframeS : ℚ) (V : Venue timeframeS) (ofText : String → Option (ExtNum ℚ))
      (symbol : String) (historyMs : ExtNum ℚ) (batch : ℤ) (endMs : Option ℤ) (nowMs : ℚ),
      1 ≤ batch ∧ batch ≤ 1000 → fin 0 < historyMs →
        V.Gapless ofText symbol historyMs batch endMs nowMs := by
  intro always
  have gapless := always 60 twoMinutes (fun text => parseFloat text.toList) "BTCUSDT"
    (fin (120001 / 2)) 1 (some 60000) 0 (by decide) (by decide +kernel)
  have fetchable := Venue.fetchable_of_gapless (by decide) (by norm_num) gapless
  have whole : ⌊(120001 / 2 : ℚ)⌋ = 60000 := by norm_num
  exact fetchable.covered 0 (minuteAt 0 (by decide) (by decide))
    (minuteAt 60000 (by decide) (by decide)) (by norm_num) (by decide) rfl rfl
    (by rw [whole]; rfl) (by decide +kernel)

end CentaurApex.Adapters
