import Smpl.Proofs.Conservation
import Smpl.Proofs.Numerals

/-!
# Integers read from a stream

The console reads integers from a text with no regard to its lines: what counts is the sequence of
its words (`Text.words`), the runs of characters between white space. A line feed is white space, and
so are the carriage return that is taken off a line and the blanks that are passed over, so a console
over a text has the words of the text (`Console.words_ofText`).

* Reading an integer takes the first word if it spells one (`Console.readInteger_of_words_cons`),
  and finds the end of input if there is none (`Console.readInteger_of_words_nil`).
* By induction the words of a console that spell integers are read in their order, then the input
  ends (`Console.serveAll_integers`).

Main result: `Console.reads_listed_integers`.
-/

namespace Smpl

/-! ## Words -/

namespace Text

/-- The runs of characters between white space. -/
def words (cs : List Char) : List (List Char) :=
  (cs.splitOnP isSpace).filter fun word => !word.isEmpty

theorem words_nil : words [] = [] := by
  rw [words, List.splitOnP_nil]
  rfl

/-- White space ends a word. -/
theorem words_append_space (cs ds : List Char) {c : Char} (space : isSpace c) :
    words (cs ++ c :: ds) = words cs ++ words ds := by
  rw [words, List.splitOnP_append_cons _ _ space, List.filter_append]
  rfl

theorem words_cons_space (cs : List Char) {c : Char} (space : isSpace c) :
    words (c :: cs) = words cs := by
  simpa [words_nil] using words_append_space [] cs space

theorem words_of_spaceless {word : List Char} (nonempty : word ≠ [])
    (spaceless : ∀ c ∈ word, isSpace c = false) : words word = [word] := by
  rw [words, List.splitOnP_eq_singleton spaceless]
  exact List.filter_cons_of_pos (by simpa using nonempty)

/-- A text that white space or nothing follows keeps its words. -/
theorem words_append (cs : List Char) {ds : List Char} (apart : ds.head?.all isSpace) :
    words (cs ++ ds) = words cs ++ words ds := by
  cases ds with
  | nil => rw [words_nil, List.append_nil, List.append_nil]
  | cons d ds =>
    have space : isSpace d := apart
    rw [words_append_space cs ds space, words_cons_space ds space]

theorem words_blank_append {blank : List Char} (spaces : isBlank blank) (cs : List Char) :
    words (blank ++ cs) = words cs := by
  induction blank with
  | nil => rfl
  | cons c blank ih =>
    obtain ⟨space, rest⟩ := Bool.and_eq_true_iff.mp spaces
    rw [List.cons_append, words_cons_space _ space, ih rest]

theorem words_blank {blank : List Char} (spaces : isBlank blank) : words blank = [] := by
  rw [← List.append_nil blank, words_blank_append spaces, words_nil]

theorem words_trimLeft (cs : List Char) : words (trimLeft cs) = words cs := by
  have blank : isBlank (cs.takeWhile isSpace) := List.all_takeWhile
  have parts : cs.takeWhile isSpace ++ trimLeft cs = cs := List.takeWhile_append_dropWhile
  rw [← words_blank_append blank, parts]

/-- The first word of a text that starts with one, and the words behind it. -/
theorem words_of_trimLeft_eq_cons {cs ds : List Char} {d : Char} (trimmed : trimLeft cs = d :: ds) :
    words cs =
      ((d :: ds).takeWhile fun x => !isSpace x) ::
        words ((d :: ds).dropWhile fun x => !isSpace x) := by
  have inked : isSpace d = false := isSpace_of_trimLeft_eq_cons trimmed
  have apart : ((d :: ds).dropWhile fun x => !isSpace x).head?.all isSpace := by
    have := List.head?_dropWhile_not (fun x => !isSpace x) (d :: ds)
    cases head : ((d :: ds).dropWhile fun x => !isSpace x).head? with
    | none => rfl
    | some x => simpa [head] using this
  have word : words ((d :: ds).takeWhile fun x => !isSpace x) =
      [(d :: ds).takeWhile fun x => !isSpace x] := by
    refine words_of_spaceless (by simp [inked]) fun c member => ?_
    simpa using List.all_eq_true.mp List.all_takeWhile c member
  calc words cs
    _ = words (d :: ds) := by rw [← words_trimLeft, trimmed]
    _ = words (((d :: ds).takeWhile fun x => !isSpace x) ++
          (d :: ds).dropWhile fun x => !isSpace x) := by rw [List.takeWhile_append_dropWhile]
    _ = _ := by rw [words_append _ apart, word, List.singleton_append]

end Text

/-! ## Integers as words -/

namespace Numeric

theorem isSpace_of_digitValue? {c : Char} {d : Nat} (digit : digitValue? c = some d) :
    Text.isSpace c = false := by
  unfold digitValue? at digit
  split at digit
  · next inside =>
    have least : 48 ≤ c.toNat := inside.1
    have greatest : c.toNat ≤ 57 := inside.2
    simp only [Text.isSpace, Bool.or_eq_false_iff, Bool.and_eq_false_iff, decide_eq_false_iff_not,
      beq_eq_false_iff_ne]
    omega
  · cases digit

theorem spaceless_of_readDigits {n m : Nat} {cs : List Char} (read : readDigits n cs = .ok m) :
    ∀ c ∈ cs, Text.isSpace c = false := by
  induction cs generalizing n with
  | nil => exact fun _ member => nomatch member
  | cons c cs ih =>
    unfold readDigits at read
    split at read
    · cases read
    · next digit =>
      simp only [] at read
      split at read
      · cases read
      · exact List.forall_mem_cons.mpr ⟨isSpace_of_digitValue? digit, ih read⟩

theorem readUnsigned_eq_ok {n : Nat} {cs : List Char} (read : readUnsigned cs = .ok n) :
    cs ≠ [] ∧ ∀ c ∈ cs, Text.isSpace c = false := by
  unfold readUnsigned at read
  split at read
  · cases read
  · next nonempty => exact ⟨by simpa using nonempty, spaceless_of_readDigits read⟩

/-- A text that spells an integer is one word. -/
theorem words_of_readInt64 {n : Int64} {cs : List Char} (read : readInt64 cs = .ok n) :
    Text.words cs = [cs] := by
  unfold readInt64 at read
  split at read
  · next digits =>
    cases unsigned : readUnsigned digits with
    | error => rw [unsigned] at read; cases read
    | ok m =>
      obtain ⟨-, spaceless⟩ := readUnsigned_eq_ok unsigned
      exact Text.words_of_spaceless (List.cons_ne_nil _ _)
        (List.forall_mem_cons.mpr ⟨by decide, spaceless⟩)
  · cases unsigned : readUnsigned (if cs.head? = some '+' then cs.tail else cs) with
    | error => rw [unsigned] at read; cases read
    | ok m =>
      obtain ⟨nonempty, spaceless⟩ := readUnsigned_eq_ok unsigned
      cases cs with
      | nil => exact absurd rfl nonempty
      | cons c cs =>
        refine Text.words_of_spaceless (List.cons_ne_nil _ _) ?_
        by_cases sign : c = '+'
        · subst sign
          exact List.forall_mem_cons.mpr ⟨by decide, spaceless⟩
        · simpa [sign] using spaceless

/-- The text lists the integers: their decimal forms in order, white space between any two of them,
and perhaps before the first and after the last. -/
inductive Listed : List Int64 → List Char → Prop
  | none {blank : List Char} : Text.isBlank blank → Listed [] blank
  | next (blank : List Char) (n : Int64) {ns : List Int64} {rest : List Char} :
      Text.isBlank blank → rest.head?.all Text.isSpace → Listed ns rest →
      Listed (n :: ns) (blank ++ (integerText n).toList ++ rest)

theorem Listed.words {ns : List Int64} {text : List Char} (listed : Listed ns text) :
    Text.words text = ns.map fun n => (integerText n).toList := by
  induction listed with
  | none blank => exact Text.words_blank blank
  | next _ n blank apart _ ih =>
    rw [List.append_assoc, Text.words_blank_append blank, Text.words_append _ apart, ih,
      words_of_readInt64 (readInt64_integerText n)]
    rfl

end Numeric

/-! ## The words of a console -/

namespace Console

/-- The words that the console still has to give. -/
def words (c : Console) : List (List Char) := Text.words c.pending ++ c.lines.flatMap Text.words

theorem words_dropReturn (line : List Char) : Text.words (dropReturn line) = Text.words line := by
  unfold dropReturn
  split
  · next ends =>
    obtain ⟨start, rfl⟩ := List.getLast?_eq_some_iff.mp ends
    rw [List.dropLast_concat, Text.words_append_space _ _ (by decide), Text.words_nil,
      List.append_nil]
  · rfl

theorem words_splitLines (started text : List Char) :
    (splitLines started text).flatMap Text.words = Text.words (started.reverse ++ text) := by
  induction text generalizing started with
  | nil =>
    cases started with
    | nil => exact Text.words_nil.symm
    | cons c cs =>
      rw [splitLines, List.flatMap_singleton, words_dropReturn, List.append_nil]
      simp
  | cons c cs ih =>
    rw [splitLines]
    split
    · next feed =>
      subst feed
      rw [List.flatMap_cons, words_dropReturn, ih, Text.words_append_space _ _ (by decide)]
      rfl
    · rw [ih, List.reverse_cons, List.append_assoc]
      rfl

theorem words_ofText (text : String) : (ofText text).words = Text.words text.toList := by
  rw [words, ofText, words_splitLines, Text.words_nil]
  rfl

/-- The next text that is not blank starts with the next word; if there is none, neither is there a
word. -/
theorem words_eq_of_nextInk? (pending : List Char) (lines : List (List Char)) :
    Text.words pending ++ lines.flatMap Text.words =
      match nextInk? pending lines with
      | none => []
      | some (text, rest) =>
        (text.takeWhile fun x => !Text.isSpace x) ::
          (Text.words (text.dropWhile fun x => !Text.isSpace x) ++ rest.flatMap Text.words) := by
  induction lines generalizing pending with
  | nil =>
    unfold nextInk?
    cases trimmed : Text.trimLeft pending with
    | nil => rw [← Text.words_trimLeft, trimmed, Text.words_nil]; rfl
    | cons d ds => rw [Text.words_of_trimLeft_eq_cons trimmed]; rfl
  | cons line rest ih =>
    unfold nextInk?
    cases trimmed : Text.trimLeft pending with
    | nil =>
      rw [← Text.words_trimLeft, trimmed, Text.words_nil, List.flatMap_cons]
      exact ih line
    | cons d ds => rw [Text.words_of_trimLeft_eq_cons trimmed]; rfl

theorem readInteger_of_words_nil {c : Console} (ended : c.words = []) :
    c.readInteger.1 = .endOfInput := by
  have found := words_eq_of_nextInk? c.pending c.lines
  rw [← words, ended] at found
  unfold readInteger
  split
  · rfl
  · next some => rw [some] at found; cases found

theorem readInteger_of_words_cons {c : Console} {token : List Char} {rest : List (List Char)}
    {n : Int64} (next : c.words = token :: rest) (spelled : Numeric.readInt64 token = .ok n) :
    c.readInteger.1 = .value n ∧ c.readInteger.2.words = rest := by
  have found := words_eq_of_nextInk? c.pending c.lines
  rw [← words, next] at found
  unfold readInteger
  split
  · next none => rw [none] at found; cases found
  · next text lines some =>
    rw [some] at found
    obtain ⟨token, rest⟩ := List.cons.inj found
    simp only [← token, spelled, true_and]
    exact rest.symm

/-! ## The run -/

theorem serveAll_integers {c : Console} {ns : List Int64}
    (spelled : c.words = ns.map fun n => (Numeric.integerText n).toList) :
    (c.serveAll (List.replicate (ns.length + 1) .integer)).1 =
      (ns.map fun n => .integer (.value n)) ++ [.integer .endOfInput] := by
  induction ns generalizing c with
  | nil =>
    have last := readInteger_of_words_nil spelled
    change [Reply.integer c.readInteger.1] = [.integer .endOfInput]
    rw [last]
  | cons n ns ih =>
    obtain ⟨first, others⟩ := readInteger_of_words_cons spelled (Numeric.readInt64_integerText n)
    change Reply.integer c.readInteger.1 ::
      (c.readInteger.2.serveAll (List.replicate (ns.length + 1) .integer)).1 = _
    rw [first, ih others]
    rfl

/-- From the console of a text that lists integers they are read in their order, however they are
spread over its lines, and then the input ends. -/
theorem reads_listed_integers {ns : List Int64} {text : String}
    (listed : Numeric.Listed ns text.toList) :
    ((ofText text).serveAll (List.replicate (ns.length + 1) .integer)).1 =
      (ns.map fun n => .integer (.value n)) ++ [.integer .endOfInput] := by
  apply serveAll_integers
  rw [words_ofText, listed.words]

/-- Blank lines, carriage returns, a no-break space, the least integer, no line feed at the end. -/
theorem reads_listed_integers_over_lines :
    Numeric.Listed [4, -9223372036854775808, 0]
        "\r\n 4\u00a0\t-9223372036854775808\r\n \n\n0".toList ∧
      ((ofText "\r\n 4\u00a0\t-9223372036854775808\r\n \n\n0").serveAll
          [.integer, .integer, .integer, .integer]).1 =
        [.integer (.value 4), .integer (.value (-9223372036854775808)), .integer (.value 0),
          .integer .endOfInput] := by
  have listed : Numeric.Listed [4, -9223372036854775808, 0]
      "\r\n 4\u00a0\t-9223372036854775808\r\n \n\n0".toList := by
    have spelled : "\r\n 4\u00a0\t-9223372036854775808\r\n \n\n0".toList =
        ['\r', '\n', ' '] ++ (Numeric.integerText 4).toList ++
          (['\u00a0', '\t'] ++ (Numeric.integerText (-9223372036854775808)).toList ++
            (['\r', '\n', ' ', '\n', '\n'] ++ (Numeric.integerText 0).toList ++ [])) := by
      decide +kernel
    rw [spelled]
    exact .next _ _ (by decide) (by decide) (.next _ _ (by decide) (by decide)
      (.next _ _ (by decide) (by decide) (.none (by decide))))
  exact ⟨listed, reads_listed_integers listed⟩

end Console

end Smpl
