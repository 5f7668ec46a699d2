/-
# Theory.Regex -- backtracking patterns, and words in a text

A pattern is run the way a backtracking engine runs it: `runs` lists the ways in which it
matches a front of the text, in the order in which the engine tries them, and the first of
the first position that has one is what `search` finds.  Letters are compared after
folding, so that a pattern can be told to ignore case.

A pattern that lists words is found exactly where one of them stands in the text
(`found_words`).  Whether a word stands in a text put together from pieces is a matter of
the pieces, if the word cannot cross from one to the next (`infix_append_sep`,
`infix_append_pair`), and it does not depend on what is trimmed from its ends
(`infix_dropWhile`, `infix_rdropWhile`).
-/
import Mathlib.Data.List.DropRight
import Mathlib.Data.List.Infix

namespace CentaurApex.Theory

set_option autoImplicit false

variable {α : Type}

/-! ## Words in a text -/

section Infix

variable {w a b : List α} {x y : α}

/-- A word without the separator does not cross it. -/
theorem infix_append_sep (free : x ∉ w) : w <:+: a ++ x :: b ↔ w <:+: a ∨ w <:+: b := by
  rw [List.infix_append_iff_ne_nil, List.infix_cons_iff]
  constructor
  · rintro (left | (front | right) | ⟨u, v, -, more, rfl, -, front⟩)
    · exact .inl left
    · rcases List.prefix_cons_iff.mp front with rfl | ⟨v, rfl, -⟩
      · exact .inl (List.nil_infix)
      · exact absurd List.mem_cons_self free
    · exact .inr right
    · rcases List.prefix_cons_iff.mp front with rfl | ⟨v, rfl, -⟩
      · exact absurd rfl more
      · exact absurd (List.mem_append_right _ List.mem_cons_self) free
  · rintro (left | right)
    · exact .inl left
    · exact .inr (.inl (.inr right))

/-- A word that does not have the two letters in a row does not cross where they meet. -/
theorem infix_append_pair (apart : ¬ [x, y] <:+: w) :
    w <:+: (a ++ [x]) ++ y :: b ↔ w <:+: a ++ [x] ∨ w <:+: y :: b := by
  rw [List.infix_append_iff_ne_nil]
  constructor
  · rintro (left | right | ⟨u, v, some_, more, rfl, behind, front⟩)
    · exact .inl left
    · exact .inr right
    · obtain rfl | ⟨u, z, rfl⟩ := u.eq_nil_or_concat
      · exact absurd rfl some_
      · rcases List.prefix_cons_iff.mp front with rfl | ⟨v, rfl, -⟩
        · exact absurd rfl more
        · have same : z = x := by simpa using behind.getLast (by simp)
          exact absurd ⟨u, v, by simp [same]⟩ apart
  · rintro (left | right)
    · exact .inl left
    · exact .inr (.inl right)

/-- A word has only letters of the text. -/
theorem not_infix_of_letter {β : Type} {w : List β} {l : List β} {d : β} (letter : d ∈ w)
    (absent : d ∉ l) : ¬ w <:+: l :=
  fun found => absent (found.subset letter)

/-- What is dropped from the front has no part in a word that does not begin with it. -/
theorem infix_dropWhile {β : Type} (f : α → β) {p : α → Bool} {w : List β}
    (head : ∀ c, p c = true → some (f c) ≠ w.head?) (some_ : w ≠ []) (l : List α) :
    w <:+: (l.dropWhile p).map f ↔ w <:+: l.map f := by
  induction l with
  | nil => rfl
  | cons c l ih =>
      cases drop : p c with
      | false => rw [List.dropWhile_cons_of_neg (by simp [drop])]
      | true =>
          rw [List.dropWhile_cons_of_pos drop, ih, List.map_cons, List.infix_cons_iff]
          refine ⟨.inr, fun found => found.resolve_left fun front => ?_⟩
          rcases List.prefix_cons_iff.mp front with rfl | ⟨v, rfl, -⟩
          · exact some_ rfl
          · exact head c drop rfl

/-- Nor has what is dropped from the end, in a word that does not end with it. -/
theorem infix_rdropWhile {β : Type} (f : α → β) {p : α → Bool} {w : List β}
    (last : ∀ c, p c = true → some (f c) ≠ w.getLast?) (some_ : w ≠ []) (l : List α) :
    w <:+: (l.rdropWhile p).map f ↔ w <:+: l.map f := by
  have turned := infix_dropWhile f (p := p) (w := w.reverse)
    (fun c drop => by rw [List.head?_reverse]; exact last c drop)
    (by simpa using some_) l.reverse
  rw [List.map_reverse] at turned
  rw [List.rdropWhile, List.map_reverse, ← List.reverse_infix, List.reverse_reverse, turned,
    List.reverse_infix]

end Infix

/-! ## Splitting -/

section Split

variable [DecidableEq α] {sep : α}

/-- What holds no separator stays with the first part of what follows. -/
theorem splitOn_append {front : List α} (free : sep ∉ front) (l : List α) :
    (front ++ l).splitOn sep = (l.splitOn sep).modifyHead (front ++ ·) := by
  induction front with
  | nil =>
      rw [List.nil_append]
      generalize l.splitOn sep = parts
      cases parts <;> rfl
  | cons c front ih =>
      obtain ⟨other, free⟩ := not_or.mp (mt List.mem_cons.mpr free)
      rw [List.cons_append, List.splitOn_cons_eq_if_modifyHead, ih free,
        if_neg (by simpa using Ne.symm other)]
      generalize l.splitOn sep = parts
      cases parts <;> rfl

theorem splitOn_of_not_mem {l : List α} (free : sep ∉ l) : l.splitOn sep = [l] := by
  have whole := splitOn_append free []
  rwa [List.append_nil, List.splitOn_nil, List.modifyHead_cons, List.append_nil] at whole

end Split

/-! ## Patterns -/

/-- A pattern. -/
inductive Regex (α : Type) where
  /-- These letters, one after the other. -/
  | text (word : List α)
  /-- As many letters of a class as there are, and then fewer. -/
  | many (ofClass : α → Bool) (least : ℕ) (most : Option ℕ)
  | seq (first second : Regex α)
  | alt (first second : Regex α)
  /-- The group whose text is asked for. -/
  | group (inner : Regex α)

/-- What a pattern matched, its group, and the text behind it. -/
structure Match (α : Type) where
  matched : List α
  group : Option (List α)
  rest : List α

namespace Regex

variable [DecidableEq α] (fold : α → α)

/-- The matches at the front of a text, the preferred ones first. -/
def runs : Regex α → List α → List (Match α)
  | text word, l =>
      if word.map fold <+: l.map fold then [⟨l.take word.length, none, l.drop word.length⟩] else []
  | many ofClass least most, l =>
      let longest := (l.takeWhile ofClass).length
      let top := match most with
        | some most => min most longest
        | none => longest
      ((List.range (top + 1)).reverse.filter (least ≤ ·)).map fun k => ⟨l.take k, none, l.drop k⟩
  | seq first second, l =>
      (runs first l).flatMap fun m =>
        (runs second m.rest).map fun n => ⟨m.matched ++ n.matched, m.group.or n.group, n.rest⟩
  | alt first second, l => runs first l ++ runs second l
  | group inner, l => (runs inner l).map fun m => { m with group := some m.matched }

/-- `re.match` -/
def match? (r : Regex α) (l : List α) : Option (Match α) := (r.runs fold l).head?

/-- `re.search` -/
def search (r : Regex α) : List α → Option (Match α)
  | [] => r.match? fold []
  | c :: l => (r.match? fold (c :: l)).or (search r l)

/-- Any of a list of words. -/
def words : List α → List (List α) → Regex α
  | w, [] => text w
  | w, v :: rest => alt (text w) (words v rest)

variable {fold}

theorem match?_isSome {r : Regex α} {l : List α} :
    (r.match? fold l).isSome ↔ r.runs fold l ≠ [] := by
  rw [match?, List.isSome_head?]

theorem match?_text_isSome {w l : List α} :
    ((text w).match? fold l).isSome ↔ w.map fold <+: l.map fold := by
  rw [match?_isSome, runs]
  split <;> simp_all

theorem match?_alt_isSome {first second : Regex α} {l : List α} :
    ((alt first second).match? fold l).isSome ↔
      (first.match? fold l).isSome ∨ (second.match? fold l).isSome := by
  simp only [match?_isSome, runs, ne_eq, List.append_eq_nil_iff, not_and_or]

theorem match?_words_isSome {w : List α} {rest : List (List α)} {l : List α} :
    ((words w rest).match? fold l).isSome ↔ ∃ v ∈ w :: rest, v.map fold <+: l.map fold := by
  induction rest generalizing w with
  | nil => simp [words, match?_text_isSome]
  | cons v rest ih => simp [words, match?_alt_isSome, match?_text_isSome, ih]

/-- **A list of words is found** exactly where one of them stands in the text. -/
theorem found_words {w : List α} {rest : List (List α)} {l : List α} :
    ((words w rest).search fold l).isSome ↔ ∃ v ∈ w :: rest, v.map fold <:+: l.map fold := by
  induction l with
  | nil => simp [search, match?_words_isSome]
  | cons c l ih =>
      rw [search, Option.isSome_or, Bool.or_eq_true, match?_words_isSome, ih]
      simp only [List.map_cons, List.infix_cons_iff, and_or_left, exists_or]

end Regex

/-! ## Replacing -/

/-- `text.replace(old, new, 1)` -/
def replaceFirst [DecidableEq α] (old new : List α) : List α → List α
  | [] => if old = [] then new else []
  | c :: l =>
      if old <+: c :: l then new ++ (c :: l).drop old.length else c :: replaceFirst old new l

end CentaurApex.Theory
