import Mathlib.Data.List.Forall2
import Smpl.Console

/-!
# The console loses nothing

The two ways of reading share the rest of the current line, and both drop blanks: in front of a
token, in front of the rest of a line, at the end of a line, and whole lines of them. What is not
blank (`Text.inked`) is never dropped. After any requests, the characters of the input that are not
blank are those that were handed out, in the order of the requests, followed by those that are
pending and those of the lines not yet read.

A line hands itself out, an integer the token that spells it. A token that is no integer, and the
end of input, hand out nothing (`Console.HandsOut`).

One request keeps the account (`Console.serve_conserves`), so any number of them does
(`Console.serveAll_conserves`); at the start nothing is handed out and all of the text is unread
(`Console.ink_ofText`). Main result: `Console.ink_conserved`.
-/

namespace Smpl

/-! ## Ink -/

namespace Text

theorem inked_append (cs ds : List Char) : inked (cs ++ ds) = inked cs ++ inked ds :=
  List.filter_append cs ds

theorem inked_trimLeft (cs : List Char) : inked (trimLeft cs) = inked cs := by
  induction cs with
  | nil => rfl
  | cons c cs ih =>
    by_cases blank : isSpace c
    · have dropped : trimLeft (c :: cs) = trimLeft cs := List.dropWhile_cons_of_pos blank
      rw [dropped, ih, inked, inked, List.filter_cons_of_neg (by simp [blank])]
    · have kept : trimLeft (c :: cs) = c :: cs := List.dropWhile_cons_of_neg blank
      rw [kept]

theorem isSpace_of_trimLeft_eq_cons {cs ds : List Char} {d : Char}
    (trimmed : trimLeft cs = d :: ds) : isSpace d = false := by
  have head := List.head?_dropWhile_not isSpace cs
  rw [← trimLeft, trimmed] at head
  simpa using head

theorem inked_token (cs : List Char) :
    inked (cs.takeWhile fun c => !isSpace c) = cs.takeWhile fun c => !isSpace c :=
  List.filter_eq_self.mpr (List.all_eq_true.mp List.all_takeWhile)

theorem inked_token_append_rest (cs : List Char) :
    inked (cs.takeWhile fun c => !isSpace c) ++ inked (cs.dropWhile fun c => !isSpace c) =
      inked cs := by
  rw [← inked_append, List.takeWhile_append_dropWhile]

end Text

namespace Console

/-- The characters that the console still has to give, blanks left out. -/
def ink (c : Console) : List Char := Text.inked c.pending ++ Text.inked c.lines.flatten

/-! ## The console of a text -/

theorem inked_dropReturn (line : List Char) : Text.inked (dropReturn line) = Text.inked line := by
  unfold dropReturn
  split
  · next ends =>
    obtain ⟨start, rfl⟩ := List.getLast?_eq_some_iff.mp ends
    rw [List.dropLast_concat, Text.inked_append]
    exact (List.append_nil _).symm
  · rfl

theorem inked_splitLines (started text : List Char) :
    Text.inked (splitLines started text).flatten =
      Text.inked started.reverse ++ Text.inked text := by
  induction text generalizing started with
  | nil =>
    cases started with
    | nil => rfl
    | cons c cs =>
      rw [splitLines, List.flatten_singleton, inked_dropReturn]
      · exact (List.append_nil _).symm
      · simp
  | cons c cs ih =>
    rw [splitLines]
    split
    · next feed =>
      subst feed
      rw [List.flatten_cons, Text.inked_append, inked_dropReturn, ih]
      rfl
    · rw [ih, List.reverse_cons, Text.inked_append, List.append_assoc, ← Text.inked_append]
      rfl

theorem ink_ofText (text : String) : (ofText text).ink = Text.inked text.toList := by
  rw [ink, ofText, inked_splitLines]
  rfl

/-! ## Requests -/

/-- One of the two ways to read. -/
inductive Request where
  | line
  | integer
  deriving DecidableEq, Repr

/-- What reading gives. -/
inductive Reply where
  | line (text : Option (List Char))
  | integer (input : IntegerInput)
  deriving DecidableEq, Repr

/-- Serves one request. -/
def serve (c : Console) : Request → Reply × Console
  | .line => (.line c.readLine.1, c.readLine.2)
  | .integer => (.integer c.readInteger.1, c.readInteger.2)

/-- Serves requests one after the other. -/
def serveAll (c : Console) : List Request → List Reply × Console
  | [] => ([], c)
  | request :: rest =>
    let served := c.serve request
    let later := served.2.serveAll rest
    (served.1 :: later.1, later.2)

/-- The text that leaves the console with a reply. -/
inductive HandsOut : Reply → List Char → Prop
  | line {text : List Char} : HandsOut (.line (some text)) text
  | noLine : HandsOut (.line none) []
  /-- The token that spells the integer; no blank is in it. -/
  | value {n : Int64} {token : List Char} :
      Numeric.readInt64 token = .ok n → Text.inked token = token →
      HandsOut (.integer (.value n)) token
  | rejected {token : List Char} : HandsOut (.integer (.rejected token)) []
  | endOfInput : HandsOut (.integer .endOfInput) []

theorem readLine_conserves (c : Console) :
    ∃ text, HandsOut (.line c.readLine.1) text ∧ c.ink = Text.inked text ++ c.readLine.2.ink := by
  have pending := Text.inked_trimLeft c.pending
  cases trimmed : Text.trimLeft c.pending with
  | nil =>
    rw [trimmed] at pending
    cases lines : c.lines with
    | nil =>
      have atEnd : c.readLine = (none, ⟨[], []⟩) := by simp only [readLine, trimmed, lines]
      rw [atEnd]
      refine ⟨[], .noLine, ?_⟩
      rw [ink, lines, ← pending]
      rfl
    | cons line rest =>
      have next : c.readLine = (some line, ⟨[], rest⟩) := by simp only [readLine, trimmed, lines]
      rw [next]
      refine ⟨line, .line, ?_⟩
      rw [ink, lines, ← pending, List.flatten_cons, Text.inked_append]
      rfl
  | cons d ds =>
    have rest : c.readLine = (some (d :: ds), ⟨[], c.lines⟩) := by simp only [readLine, trimmed]
    rw [rest]
    refine ⟨d :: ds, .line, ?_⟩
    rw [ink, ← pending, trimmed]
    rfl

/-- Looking for the next token passes over blanks only. -/
theorem nextInk?_conserves (pending : List Char) (lines : List (List Char)) :
    Text.inked pending ++ Text.inked lines.flatten =
      match nextInk? pending lines with
      | none => []
      | some (text, rest) => Text.inked text ++ Text.inked rest.flatten := by
  induction lines generalizing pending with
  | nil =>
    have same := Text.inked_trimLeft pending
    unfold nextInk?
    cases trimmed : Text.trimLeft pending with
    | nil =>
      rw [← same, trimmed]
      rfl
    | cons d ds => rw [← same, trimmed]
  | cons line rest ih =>
    have same := Text.inked_trimLeft pending
    unfold nextInk?
    cases trimmed : Text.trimLeft pending with
    | nil =>
      rw [← same, trimmed, List.flatten_cons, Text.inked_append]
      exact ih line
    | cons d ds => rw [← same, trimmed]

theorem readInteger_conserves (c : Console) :
    ∃ text, HandsOut (.integer c.readInteger.1) text ∧
      c.ink = Text.inked text ++ c.readInteger.2.ink := by
  have kept := nextInk?_conserves c.pending c.lines
  unfold readInteger
  split
  · next none =>
    rw [none] at kept
    exact ⟨[], .endOfInput, kept⟩
  · next text lines found =>
    rw [found] at kept
    simp only []
    split
    · next n spelled =>
      refine ⟨_, .value spelled (Text.inked_token text), ?_⟩
      rw [ink, ink, ← List.append_assoc, Text.inked_token_append_rest]
      exact kept
    · exact ⟨[], .rejected, kept⟩

theorem serve_conserves (c : Console) (request : Request) :
    ∃ text, HandsOut (c.serve request).1 text ∧
      c.ink = Text.inked text ++ (c.serve request).2.ink := by
  cases request with
  | line => exact c.readLine_conserves
  | integer => exact c.readInteger_conserves

theorem serveAll_conserves (c : Console) (requests : List Request) :
    ∃ texts, List.Forall₂ HandsOut (c.serveAll requests).1 texts ∧
      c.ink = Text.inked texts.flatten ++ (c.serveAll requests).2.ink := by
  induction requests generalizing c with
  | nil => exact ⟨[], .nil, rfl⟩
  | cons request rest ih =>
    obtain ⟨text, handed, here⟩ := c.serve_conserves request
    obtain ⟨texts, handedLater, later⟩ := ih (c.serve request).2
    refine ⟨text :: texts, .cons handed handedLater, ?_⟩
    rw [here, later, List.flatten_cons, Text.inked_append, List.append_assoc]
    rfl

/-- Whatever is requested of the console of a text, the characters of the text that are no blanks
are, in their order, those handed out by the replies so far, those pending and those of the lines
still to be read. -/
theorem ink_conserved (text : String) (requests : List Request) :
    ∃ texts, List.Forall₂ HandsOut ((ofText text).serveAll requests).1 texts ∧
      Text.inked text.toList =
        Text.inked texts.flatten ++
          Text.inked ((ofText text).serveAll requests).2.pending ++
          Text.inked ((ofText text).serveAll requests).2.lines.flatten := by
  obtain ⟨texts, handed, kept⟩ := (ofText text).serveAll_conserves requests
  refine ⟨texts, handed, ?_⟩
  rw [← ink_ofText, kept, List.append_assoc]
  rfl

/-- The word is rejected as an integer and still there for the line. -/
example : ((ofText " 7 x\r\n\n8").serveAll [.integer, .integer, .line, .integer]).1 =
    [.integer (.value 7), .integer (.rejected ['x']), .line (some ['x']), .integer (.value 8)] := by
  decide

end Console

end Smpl
