import Smpl.Proofs.Bisimulation
import Smpl.Value.Format

/-!
# Comparing and printing vectors that hold themselves

A vector can reach itself through its slots, directly, through other vectors, or through pairs and
lists. Neither comparing nor printing goes by the structure of the data alone, then. Both keep a
table of what they are inside of, and a vector (or a pair of vectors) that they enter is new to it;
there are finitely many, so both end. Between two vectors they go down into pairs and lists, which
are finite trees.

The bound that makes the two functions total plays no part in this: from a certain one on, every
bound gives the same result (`PrintsFrom`), with the table that was there at the start.

Main result: `comparing_and_printing_end`.
-/

namespace Smpl.Value

/-! ## Printing -/

/-- Printing that gives one text and its table back, whatever the bound, from some bound on. -/
def PrintsFrom (least : Nat) (print : Nat → FormatOutcome) (table : Printing) : Prop :=
  ∃ text, ∀ bound, least ≤ bound → print bound = some (text, table)

theorem PrintsFrom.mono {least least' : Nat} (le : least ≤ least') {print : Nat → FormatOutcome}
    {table : Printing} (h : PrintsFrom least print table) : PrintsFrom least' print table := by
  obtain ⟨text, prints⟩ := h
  exact ⟨text, fun bound enough => prints bound (Nat.le_trans le enough)⟩

theorem PrintsFrom.succ {least : Nat} {print : Nat → FormatOutcome} {table : Printing}
    (h : PrintsFrom least (fun bound => print (bound + 1)) table) :
    PrintsFrom (least + 1) print table := by
  obtain ⟨text, prints⟩ := h
  refine ⟨text, fun bound enough => ?_⟩
  obtain ⟨bound, rfl⟩ := Nat.exists_eq_add_of_le' (Nat.le_trans (Nat.le_add_left 1 least) enough)
  exact prints bound (Nat.le_of_succ_le_succ enough)

section Printing

variable {vectors : Vectors} {table : Printing} {least : Nat}

theorem formatBy_prints {visit : Nat → VectorId → Printing → FormatOutcome}
    (visits : ∀ id, PrintsFrom least (fun bound => visit bound id table) table) (inTail : Bool)
    (v : Value) : PrintsFrom least (fun bound => formatBy (visit bound) inTail v table) table := by
  induction v generalizing inTail with
  | pair _ a b ihFirst ihSecond =>
    obtain ⟨first, printsFirst⟩ := ihFirst false
    obtain ⟨second, printsSecond⟩ := ihSecond false
    refine ⟨dotted inTail ("(" ++ first ++ " . " ++ second ++ ")"), fun bound enough => ?_⟩
    simp only [formatBy, printsFirst bound enough, printsSecond bound enough]
  | cell _ a b ihHead ihTail =>
    obtain ⟨head, printsHead⟩ := ihHead false
    obtain ⟨tail, printsTail⟩ := ihTail true
    refine ⟨if inTail then " " ++ head ++ tail else "(" ++ head ++ tail ++ ")",
      fun bound enough => ?_⟩
    simp only [formatBy, printsHead bound enough, printsTail bound enough]
  | vector id =>
    obtain ⟨text, prints⟩ := visits id
    refine ⟨dotted inTail text, fun bound enough => ?_⟩
    simp only [formatBy, prints bound enough]
  | _ => exact ⟨_, fun _ _ => rfl⟩

theorem formatAll_prints {print : Nat → Value → Printing → FormatOutcome} {vs : List Value}
    (prints : ∀ v ∈ vs, PrintsFrom least (fun bound => print bound v table) table) :
    ∃ texts, ∀ bound, least ≤ bound → formatAll (print bound) vs table = some (texts, table) := by
  induction vs with
  | nil => exact ⟨[], fun _ _ => rfl⟩
  | cons v vs ih =>
    obtain ⟨text, here⟩ := prints v List.mem_cons_self
    obtain ⟨texts, rest⟩ := ih fun w hw => prints w (List.mem_cons_of_mem _ hw)
    refine ⟨text :: texts, fun bound enough => ?_⟩
    simp only [formatAll, here bound enough, rest bound enough]

/-- The vector goes into the table for the printing of its slots, and out of it again. -/
theorem formatVector_prints {print : Nat → Value → Printing → FormatOutcome} {id : VectorId}
    (prints : id ∉ table → ∀ v ∈ (vectors.slots id).toList,
      PrintsFrom least (fun bound => print bound v (id :: table)) (id :: table)) :
    PrintsFrom least (fun bound => formatVector vectors (print bound) id table) table := by
  by_cases member : id ∈ table
  · exact ⟨"[...]", fun bound _ => if_pos member⟩
  · obtain ⟨texts, slots⟩ := formatAll_prints (prints member)
    refine ⟨"[" ++ ", ".intercalate texts ++ "]", fun bound enough => ?_⟩
    simp only [formatVector, if_neg member, slots bound enough, List.erase_cons_head]

/-- Printing settles as soon as its bound exceeds the number of vectors that are not in its
table. -/
theorem formatWithin_prints (vectors : Vectors) (table : Printing) (v : Value) :
    PrintsFrom (unlisted (Finset.range vectors.size) table + 1)
      (fun bound => formatWithin vectors bound v table) table := by
  -- Induction on the number of vectors that are not in the table.
  generalize count : unlisted (Finset.range vectors.size) table = n
  induction n using Nat.strongRecOn generalizing table v with
  | _ n ih =>
    refine .succ (formatBy_prints (fun id => formatVector_prints fun new w hw => ?_) false v)
    have inside : id ∈ Finset.range vectors.size :=
      Finset.mem_range.mpr (Vectors.lt_of_mem_slots hw)
    have fewer := unlisted_cons_lt inside new
    rw [count] at fewer
    exact (ih _ fewer (id :: table) w rfl).mono fewer

theorem unlisted_lt_formatBound (vectors : Vectors) (table : Printing) :
    unlisted (Finset.range vectors.size) table < formatBound vectors := by
  have most := unlisted_le_card (Finset.range vectors.size) table
  rw [Finset.card_range] at most
  rw [formatBound]
  omega

end Printing

/-! ## Both end -/

/-- Comparing and printing end on every store of vectors, however they hold each other, and return
the table that they were given. The nesting never exceeds the bounds of `equal` and `format`, and no
greater bound changes the result, so these two answer as comparing and printing without any bound
would. -/
theorem comparing_and_printing_end (vectors : Vectors) :
    (∀ (v w : Value) (table : Comparing), ∃ answer, ∀ extra,
      equalWithin vectors (equalBound vectors + extra) v w table = some (answer, table)) ∧
    (∀ (v : Value) (table : Printing), ∃ text, ∀ extra,
      formatWithin vectors (formatBound vectors + extra) v table = some (text, table)) ∧
    (∀ v w : Value,
      equalWithin vectors (equalBound vectors) v w [] = some (v.equal vectors w, [])) ∧
    (∀ v : Value, formatWithin vectors (formatBound vectors) v [] = some (v.format vectors, [])) := by
  refine ⟨?_, ?_, ?_, ?_⟩
  · intro v w table
    have enough := unlisted_lt_equalBound vectors table
    obtain ⟨answer, ended, iff⟩ := equalWithin_settles enough v w
    refine ⟨answer, fun extra => ?_⟩
    -- The question that a comparison answers does not depend on its bound.
    obtain ⟨answer', ended', iff'⟩ := equalWithin_settles (Nat.lt_add_right extra enough) v w
    rw [ended', Bool.eq_iff_iff.mpr (iff'.trans iff.symm)]
  · intro v table
    obtain ⟨text, prints⟩ := formatWithin_prints vectors table v
    have enough := unlisted_lt_formatBound vectors table
    exact ⟨text, fun extra => prints _ (Nat.le_add_right_of_le enough)⟩
  · intro v w
    obtain ⟨answer, ended, _⟩ := equalWithin_settles (unlisted_lt_equalBound vectors []) v w
    rw [equal, ended]
  · intro v
    obtain ⟨text, prints⟩ := formatWithin_prints vectors [] v
    have ended : formatWithin vectors (formatBound vectors) v [] = some (text, []) :=
      prints _ (unlisted_lt_formatBound vectors [])
    rw [format, ended]

/-- A vector inside itself prints as dots, and its pairs and lists in full. -/
example : format #[#[.vector 0, .pair 0 .empty (.vector 0)]] (.vector 0) =
    "[[...], (() . [...])]" := by
  decide

end Smpl.Value
