import Smpl.Proofs.Conservation

/-!
# A rejected integer stays

A token that is no integer is not taken from the console: asking for an integer again rejects it
again, and the next line that is read starts with it.

The console keeps no text behind its position, so the position is a relation between it and what is
left of the text (`Console.Stands`): it stands in front of a line, or within one, and then the rest of
the line is pending.

* A request moves the position forward (`Console.Stands.serve`), so any number of them does
  (`Console.Stands.serveAll`).
* What the console still has to give is, blanks apart, what is left of the text
  (`Console.Stands.ink`). With the account of what was handed out this says where the position is.
* A rejection leaves the console in front of the token (`Console.Stands.readInteger_rejected`), and
  there reading an integer changes nothing (`Console.readInteger_again`).

Main result: `Console.rejected_integer_stays`.
-/

namespace Smpl.Console

/-! ## The rest of a line -/

/-- The text starts with the rest of a line, which a line feed ends or else the text, and is given
without a carriage return at its end; the following line starts behind it. -/
inductive RestOfLine : List Char → List Char → List Char → Prop
  | fed {raw after : List Char} : '\n' ∉ raw →
      RestOfLine (raw ++ '\n' :: after) (dropReturn raw) after
  | last {raw : List Char} : '\n' ∉ raw → RestOfLine raw (dropReturn raw) []

/-- A line without its beginning. -/
theorem dropReturn_eq_append {raw start line : List Char} (split : dropReturn raw = start ++ line) :
    ∃ rest, raw = start ++ rest ∧ dropReturn rest = line := by
  by_cases ends : raw.getLast? = some '\r'
  · obtain ⟨kept, rfl⟩ := List.getLast?_eq_some_iff.mp ends
    rw [dropReturn, if_pos ends, List.dropLast_concat] at split
    subst split
    refine ⟨line ++ ['\r'], List.append_assoc _ _ _, ?_⟩
    rw [dropReturn, if_pos List.getLast?_concat, List.dropLast_concat]
  · rw [dropReturn, if_neg ends] at split
    subst split
    refine ⟨line, rfl, if_neg fun returns => ends ?_⟩
    rw [List.getLast?_append, returns]
    rfl

namespace RestOfLine

variable {unread start line after : List Char}

theorem drop (rest : RestOfLine unread (start ++ line) after) :
    ∃ unread', unread = start ++ unread' ∧ RestOfLine unread' line after := by
  generalize whole : start ++ line = wholeLine at rest
  cases rest with
  | fed noFeed =>
    obtain ⟨raw, rfl, rfl⟩ := dropReturn_eq_append whole.symm
    exact ⟨_, List.append_assoc _ _ _, .fed fun feed => noFeed (List.mem_append_right _ feed)⟩
  | last noFeed =>
    obtain ⟨raw, rfl, rfl⟩ := dropReturn_eq_append whole.symm
    exact ⟨raw, rfl, .last fun feed => noFeed (List.mem_append_right _ feed)⟩

theorem suffix (rest : RestOfLine unread line after) : after <:+ unread := by
  cases rest with
  | @fed raw _ _ => exact ⟨raw ++ ['\n'], by simp⟩
  | last => exact List.nil_suffix

theorem inked (rest : RestOfLine unread line after) :
    Text.inked unread = Text.inked line ++ Text.inked after := by
  cases rest with
  | fed =>
    rw [inked_dropReturn, Text.inked_append]
    rfl
  | last =>
    rw [inked_dropReturn]
    exact (List.append_nil _).symm

end RestOfLine

/-- The first line of a text that was begun before. -/
theorem splitLines_of_started {started text : List Char} (noFeed : '\n' ∉ started)
    (nonempty : started.reverse ++ text ≠ []) :
    ∃ line after, RestOfLine (started.reverse ++ text) line after ∧
      splitLines started text = line :: splitLines [] after := by
  induction text generalizing started with
  | nil =>
    have last : splitLines started [] = [dropReturn started.reverse] := by
      cases started with
      | nil => exact absurd rfl nonempty
      | cons => rfl
    rw [last, List.append_nil]
    exact ⟨_, _, .last (by simpa using noFeed), rfl⟩
  | cons c cs ih =>
    rw [splitLines]
    split
    · next feed =>
      subst feed
      exact ⟨_, _, .fed (by simpa using noFeed), rfl⟩
    · next other =>
      have noFeed : '\n' ∉ c :: started := by simp [noFeed, Ne.symm other]
      have longer := ih noFeed (by simp)
      rwa [List.reverse_cons, List.append_assoc] at longer

theorem exists_restOfLine {unread line : List Char} {lines : List (List Char)}
    (split : splitLines [] unread = line :: lines) :
    ∃ after, RestOfLine unread line after ∧ lines = splitLines [] after := by
  have nonempty : unread ≠ [] := by
    rintro rfl
    cases split
  obtain ⟨first, after, rest, same⟩ := splitLines_of_started List.not_mem_nil nonempty
  rw [split] at same
  obtain ⟨rfl, rfl⟩ := List.cons.inj same
  exact ⟨after, rest, rfl⟩

/-! ## The position of the console -/

/-- The console stands in front of what is left of the text. -/
inductive Stands : List Char → Console → Prop
  | inFront (unread : List Char) : Stands unread ⟨[], splitLines [] unread⟩
  | within {unread pending after : List Char} : RestOfLine unread pending after →
      Stands unread ⟨pending, splitLines [] after⟩

theorem stands_ofText (text : String) : Stands text.toList (ofText text) := .inFront _

namespace Stands

variable {unread : List Char} {c : Console}

/-- Blanks apart, the console still has to give what is left of the text. -/
theorem ink (stands : Stands unread c) : c.ink = Text.inked unread := by
  cases stands with
  | inFront =>
    rw [Console.ink, inked_splitLines]
    rfl
  | within rest =>
    rw [Console.ink, inked_splitLines, rest.inked]
    rfl

theorem exists_after (stands : Stands unread c) :
    ∃ after, after <:+ unread ∧ c.lines = splitLines [] after := by
  cases stands with
  | inFront => exact ⟨_, List.suffix_rfl, rfl⟩
  | within rest => exact ⟨_, rest.suffix, rfl⟩

/-- The pending text from its first character that is no blank is the rest of a line. -/
theorem trimLeft (stands : Stands unread c) (nonblank : Text.trimLeft c.pending ≠ []) :
    ∃ unread' after, unread' <:+ unread ∧ RestOfLine unread' (Text.trimLeft c.pending) after ∧
      c.lines = splitLines [] after := by
  cases stands with
  | inFront => exact absurd rfl nonblank
  | @within pending after rest =>
    have parts : pending.takeWhile Text.isSpace ++ Text.trimLeft pending = pending :=
      List.takeWhile_append_dropWhile
    rw [← parts] at rest
    obtain ⟨unread', rfl, trimmed⟩ := rest.drop
    exact ⟨unread', after, List.suffix_append _ _, trimmed, rfl⟩

theorem readLine (stands : Stands unread c) :
    ∃ unread', unread' <:+ unread ∧ Stands unread' c.readLine.2 := by
  unfold Console.readLine
  split
  · exact ⟨[], List.nil_suffix, .inFront []⟩
  · next line lines _ more =>
    obtain ⟨after, suffix, split⟩ := stands.exists_after
    obtain ⟨after', rest, rfl⟩ := exists_restOfLine (split.symm.trans more)
    exact ⟨after', rest.suffix.trans suffix, .inFront after'⟩
  · obtain ⟨after, suffix, split⟩ := stands.exists_after
    rw [split]
    exact ⟨after, suffix, .inFront after⟩

/-- The next text that is not blank is the rest of a line. -/
theorem nextInk? {pending text : List Char} {lines rest : List (List Char)}
    (stands : Stands unread ⟨pending, lines⟩)
    (found : Console.nextInk? pending lines = some (text, rest)) :
    ∃ unread' after, unread' <:+ unread ∧ RestOfLine unread' text after ∧
      rest = splitLines [] after := by
  fun_induction Console.nextInk? pending lines generalizing unread with
  | case1 => cases found
  | case2 pending line lines trimmed ih =>
    obtain ⟨after, suffix, split⟩ := stands.exists_after
    obtain ⟨after', rest, rfl⟩ := exists_restOfLine split.symm
    obtain ⟨unread', last, shorter, rest⟩ := ih (.within rest) found
    exact ⟨unread', last, shorter.trans suffix, rest⟩
  | case3 pending lines atEnd more =>
    obtain ⟨rfl, rfl⟩ := Prod.mk.inj (Option.some.inj found)
    refine stands.trimLeft fun blank => ?_
    cases lines with
    | nil => exact atEnd blank rfl
    | cons line lines => exact more line lines blank rfl

theorem readInteger (stands : Stands unread c) :
    ∃ unread', unread' <:+ unread ∧ Stands unread' c.readInteger.2 := by
  unfold Console.readInteger
  split
  · exact ⟨[], List.nil_suffix, .inFront []⟩
  · next text lines found =>
    obtain ⟨unread', after, suffix, rest, rfl⟩ := stands.nextInk? found
    simp only []
    split
    · rw [← List.takeWhile_append_dropWhile (p := fun x => !Text.isSpace x) (l := text)] at rest
      obtain ⟨unread'', rfl, untaken⟩ := rest.drop
      exact ⟨unread'', (List.suffix_append _ _).trans suffix, .within untaken⟩
    · exact ⟨unread', suffix, .within rest⟩

theorem serve (stands : Stands unread c) (request : Request) :
    ∃ unread', unread' <:+ unread ∧ Stands unread' (c.serve request).2 := by
  cases request with
  | line => exact stands.readLine
  | integer => exact stands.readInteger

theorem serveAll (stands : Stands unread c) (requests : List Request) :
    ∃ unread', unread' <:+ unread ∧ Stands unread' (c.serveAll requests).2 := by
  induction requests generalizing unread c with
  | nil => exact ⟨unread, List.suffix_rfl, stands⟩
  | cons request rest ih =>
    obtain ⟨unread', suffix, stands⟩ := stands.serve request
    obtain ⟨unread'', shorter, stands⟩ := ih stands
    exact ⟨unread'', shorter.trans suffix, stands⟩

end Stands

/-! ## Rejections -/

theorem readInteger_eq_rejected {c c' : Console} {token : List Char}
    (rejected : c.readInteger = (.rejected token, c')) :
    nextInk? c.pending c.lines = some (c'.pending, c'.lines) ∧
      token = (c'.pending.takeWhile fun x => !Text.isSpace x) ∧
      ∃ fault, Numeric.readInt64 token = .error fault := by
  unfold readInteger at rejected
  split at rejected
  · cases rejected
  · next found =>
    simp only [] at rejected
    split at rejected
    · cases rejected
    · next fault spelled =>
      cases rejected
      exact ⟨found, rfl, fault, spelled⟩

/-- The next text that is not blank starts with a character that is no blank. -/
theorem nextInk?_eq_some {pending text : List Char} {lines rest : List (List Char)}
    (found : nextInk? pending lines = some (text, rest)) :
    ∃ d ds, text = d :: ds ∧ Text.isSpace d = false := by
  fun_induction nextInk? pending lines with
  | case1 => cases found
  | case2 _ _ _ _ ih => exact ih found
  | case3 pending lines atEnd more =>
    obtain ⟨rfl, rfl⟩ := Prod.mk.inj (Option.some.inj found)
    cases trimmed : Text.trimLeft pending with
    | nil =>
      cases lines with
      | nil => exact absurd rfl (atEnd trimmed)
      | cons line lines => exact absurd rfl (more line lines trimmed)
    | cons d ds => exact ⟨d, ds, rfl, Text.isSpace_of_trimLeft_eq_cons trimmed⟩

/-- What was rejected is rejected again, and the console does not change. -/
theorem readInteger_again {c c' : Console} {token : List Char}
    (rejected : c.readInteger = (.rejected token, c')) :
    c'.readInteger = (.rejected token, c') := by
  obtain ⟨found, rfl, fault, spelled⟩ := readInteger_eq_rejected rejected
  obtain ⟨d, ds, pending, inked⟩ := nextInk?_eq_some found
  have trimmed : Text.trimLeft (d :: ds) = d :: ds := List.dropWhile_cons_of_neg (by simp [inked])
  have here : nextInk? c'.pending c'.lines = some (c'.pending, c'.lines) := by
    unfold nextInk?
    rw [pending, trimmed]
  simp only [readInteger, here, spelled]

theorem serveAll_of_rejected {c : Console} {token : List Char}
    (rejected : c.readInteger = (.rejected token, c)) (n : Nat) :
    c.serveAll (List.replicate n .integer) =
      (List.replicate n (.integer (.rejected token)), c) := by
  induction n with
  | zero => rfl
  | succ n ih =>
    rw [List.replicate_succ, serveAll, serve, rejected]
    simp only [ih]
    rfl

/-- After a rejection the console stands in front of the token, on the line that it stands on. -/
theorem Stands.readInteger_rejected {unread token : List Char} {c c' : Console}
    (stands : Stands unread c) (rejected : c.readInteger = (.rejected token, c')) :
    ∃ unread' after, unread' <:+ unread ∧ RestOfLine unread' c'.pending after ∧
      c'.lines = splitLines [] after ∧ token ≠ [] ∧
      c'.pending.takeWhile (fun x => !Text.isSpace x) = token ∧
      c'.readLine = (some c'.pending, ⟨[], c'.lines⟩) := by
  obtain ⟨found, rfl, -⟩ := readInteger_eq_rejected rejected
  obtain ⟨d, ds, pending, inked⟩ := nextInk?_eq_some found
  obtain ⟨unread', after, suffix, rest, lines⟩ := stands.nextInk? found
  refine ⟨unread', after, suffix, rest, lines, by simp [pending, inked], rfl, ?_⟩
  have trimmed : Text.trimLeft (d :: ds) = d :: ds := List.dropWhile_cons_of_neg (by simp [inked])
  simp only [Console.readLine, pending, trimmed]

/-- Whatever was requested of the console of a text, a token that is rejected as an integer is
rejected by every further request for one, and none of them changes the console. The next line is the
rest of the line from the token on, with all that follows on it; what is not blank in front of it was
handed out before, and the text behind the line is read next. -/
theorem rejected_integer_stays (text : String) (requests : List Request) {token : List Char}
    {c : Console}
    (rejected : ((ofText text).serveAll requests).2.readInteger = (.rejected token, c)) :
    (∀ n, c.serveAll (List.replicate n .integer) =
      (List.replicate n (.integer (.rejected token)), c)) ∧
    ∃ texts before unread line after,
      List.Forall₂ HandsOut ((ofText text).serveAll requests).1 texts ∧
      text.toList = before ++ unread ∧ Text.inked before = Text.inked texts.flatten ∧
      RestOfLine unread line after ∧
      token ≠ [] ∧ line.takeWhile (fun x => !Text.isSpace x) = token ∧
      c.readLine = (some line, ofText (String.ofList after)) := by
  refine ⟨serveAll_of_rejected (readInteger_again rejected), ?_⟩
  obtain ⟨unread', suffix, stands⟩ := (stands_ofText text).serveAll requests
  obtain ⟨unread, after, shorter, rest, lines, nonempty, starts, next⟩ :=
    stands.readInteger_rejected rejected
  obtain ⟨before, parts⟩ := shorter.trans suffix
  obtain ⟨texts, handed, kept⟩ := (ofText text).serveAll_conserves requests
  refine ⟨texts, before, unread, c.pending, after, handed, parts.symm, ?_, rest, nonempty, starts,
    ?_⟩
  · -- The rejection hands out nothing, so what is left is what was not handed out before.
    have taken : ((ofText text).serveAll requests).2.ink = c.ink := by
      obtain ⟨none, handed, same⟩ := readInteger_conserves ((ofText text).serveAll requests).2
      rw [rejected] at handed same
      cases handed
      exact same
    have whole : c = ⟨c.pending, splitLines [] after⟩ := lines ▸ rfl
    have position : Stands unread c := whole ▸ .within rest
    rw [ink_ofText, ← parts, Text.inked_append, taken, position.ink] at kept
    exact List.append_cancel_right kept
  · rw [next, lines, ofText, String.toList_ofList]

/-- The token is on a line that an integer was read from, with blanks around it and a carriage return
at the end of the line. -/
theorem rejected_integer_stays_on_shared_line :
    ((ofText " 7 x  y \r\n8").serveAll [.integer]).2.readInteger =
        (.rejected ['x'], ⟨['x', ' ', ' ', 'y', ' '], [['8']]⟩) ∧
      (⟨['x', ' ', ' ', 'y', ' '], [['8']]⟩ : Console).serveAll [.integer, .integer] =
        ([.integer (.rejected ['x']), .integer (.rejected ['x'])],
          ⟨['x', ' ', ' ', 'y', ' '], [['8']]⟩) :=
  have rejected : ((ofText " 7 x  y \r\n8").serveAll [.integer]).2.readInteger =
      (.rejected ['x'], ⟨['x', ' ', ' ', 'y', ' '], [['8']]⟩) := by decide
  ⟨rejected, (rejected_integer_stays " 7 x  y \r\n8" [.integer] rejected).1 2⟩

end Smpl.Console
