/-
# Layout

A text of three lines can be laid out in many ways (`LaysOut`): each line ends in a line feed
with or without a carriage return before it, the third one may be left open unless it is empty,
and blank text may follow it.  All of them are read alike, quotes and stray carriage returns
included (`parse_of_laysOut`).  For a carriage return at the end of a line leaves no trace: it
ends a row that has nothing behind it, or it is text at the end of a quoted field that is never
closed, and is trimmed away with the blanks there (`readLine_append_return`).

Every line is read on its own, so no quote reaches beyond its line, and a blank line counts as
one.  Hence a record is read exactly if each of its rows is read between empty ones
(`rows_are_independent`).
-/

import Rollup.Proofs.RowFormat.Grammar

namespace Rollup
namespace RowFormat

/-! ### A carriage return at the end of a line -/

/-- A character is read without regard to what follows it. -/
theorem exists_tokens_cons (position : Position) (c : Char) :
    ∃ before next, ∀ s, tokens position (c :: s) = before ++ tokens next s := by
  by_cases hquote : c = '"'
  · subst hquote
    cases position with
    | start => exact ⟨[.openingQuote], .quoted, fun _ => rfl⟩
    | plain => exact ⟨[.char '"'], .plain, fun _ => rfl⟩
    | quoted => exact ⟨[], .closing, fun _ => rfl⟩
    | closing => exact ⟨[.char '"'], .quoted, fun _ => rfl⟩
  by_cases hquoted : position = .quoted
  · subst hquoted
    exact ⟨[.char c], .quoted, fun s => by simp [tokens, hquote]⟩
  have htokens : ∀ s, tokens position (c :: s) = if c = ',' then .comma :: tokens .start s
      else if c = '\r' then .endOfRow :: tokens .start s else .char c :: tokens .plain s := by
    intro s
    cases position <;> simp_all [tokens]
  by_cases hcomma : c = ','
  · exact ⟨[.comma], .start, fun s => (htokens s).trans (if_pos hcomma)⟩
  by_cases hreturn : c = '\r'
  · exact ⟨[.endOfRow], .start, fun s => by rw [htokens, if_neg hcomma, if_pos hreturn]; rfl⟩
  · exact ⟨[.char c], .plain, fun s => by rw [htokens, if_neg hcomma, if_neg hreturn]; rfl⟩

/-- A carriage return at the end is one token more: it ends a row, or it is text in quotes. -/
theorem exists_tokens_append_return (position : Position) (s : List Char) :
    ∃ token, (token = .endOfRow ∨ token = .char '\r') ∧
      tokens position (s ++ ['\r']) = tokens position s ++ [token] := by
  induction s generalizing position with
  | nil =>
    cases position with
    | quoted => exact ⟨.char '\r', Or.inr rfl, rfl⟩
    | start | plain | closing => exact ⟨.endOfRow, Or.inl rfl, rfl⟩
  | cons c s ih =>
    obtain ⟨before, next, hnext⟩ := exists_tokens_cons position c
    obtain ⟨token, htoken, htokens⟩ := ih next
    refine ⟨token, htoken, ?_⟩
    rw [List.cons_append, hnext, hnext, htokens, List.append_assoc]

/-- A blank at the end of a row is trimmed away. -/
theorem fieldsOf_append_blank {c : Char} (h : Text.isBlank c = true) (row : List Token) :
    fieldsOf (row ++ [.char c]) = fieldsOf row := by
  have hmark : ∀ token ∈ [Token.char c], (token == Token.comma) = false := by simp
  obtain ⟨fields, last, hcut, hcut'⟩ := Text.exists_cut_append row hmark
  rw [fieldsOf, fieldsOf, hcut, hcut', List.map_append, List.map_append, List.map_singleton,
    List.map_singleton, List.filterMap_append]
  exact congrArg (fun field => _ ++ [field]) (Text.trim_concat_of_blank h _)

/-- The rows among the tokens of a line. -/
def rowsOfTokens (line : List Token) : List (List (List Char)) :=
  ((Text.cut (· == .endOfRow) line).filter (!·.isEmpty)).map fieldsOf

/-- Behind the end of a row there is nothing; a blank is trimmed away or is a blank row. -/
theorem rowsOfTokens_append {token : Token} (h : token = .endOfRow ∨ token = .char '\r')
    (line : List Token) : rowsOfTokens (line ++ [token]) = rowsOfTokens line ∨
      rowsOfTokens (line ++ [token]) = rowsOfTokens line ++ [[[]]] := by
  rcases h with rfl | rfl
  · left
    rw [rowsOfTokens, Text.cut_append_mark line [] rfl, List.filter_append]
    exact congrArg (List.map fieldsOf) (List.append_nil _)
  · have hmark : ∀ token ∈ [Token.char '\r'], (token == Token.endOfRow) = false := by simp
    obtain ⟨rows, last, hcut, hcut'⟩ := Text.exists_cut_append line hmark
    rw [rowsOfTokens, rowsOfTokens, hcut, hcut', List.filter_append, List.filter_append]
    cases last with
    | nil =>
      right
      simp [fieldsOf, Text.cut, Token.char?, Text.trim, Text.trimLeft, Text.trimRight, Text.isBlank]
    | cons token last =>
      left
      have hfields := fieldsOf_append_blank (by decide : Text.isBlank '\r' = true) (token :: last)
      simp [← hfields]

theorem dropMark_append_return (s : List Char) : dropMark (s ++ ['\r']) = dropMark s ++ ['\r'] := by
  cases s with
  | nil => rfl
  | cons c s =>
    by_cases hmark : c = '\uFEFF'
    · subst hmark
      rfl
    · simp [dropMark, hmark]

/-- **A carriage return at the end of a line does not matter**, in quotes or outside. -/
theorem readLine_append_return (n : Nat) (line : List Char) :
    readLine n (line ++ ['\r']) = readLine n line := by
  obtain ⟨token, htoken, htokens⟩ := exists_tokens_append_return .start (dropMark line)
  have hrows : ∀ line, rowsOfLine line = rowsOfTokens (tokens .start (dropMark line)) := fun _ => rfl
  unfold readLine
  rw [hrows, hrows, dropMark_append_return, htokens]
  rcases rowsOfTokens_append htoken (tokens .start (dropMark line)) with h | h <;> rw [h]
  cases rowsOfTokens (tokens .start (dropMark line)) with
  | nil => rfl
  | cons row more =>
    have hmore : (more ++ [[[]]]).all isBlankRow = more.all isBlankRow := by simp [isBlankRow]
    simp only [List.cons_append, hmore]

theorem readLine_dropReturn (n : Nat) (line : List Char) : readLine n (dropReturn line) = readLine n line := by
  unfold dropReturn
  split
  · rename_i hlast
    obtain ⟨line, rfl⟩ := List.getLast?_eq_some_iff.1 hlast
    rw [List.dropLast_concat, readLine_append_return]
  · rfl

/-! ### Layouts of three lines -/

/-- How a line ends. -/
inductive LineEnd where
  | feed
  | returnFeed
  deriving DecidableEq, Repr

def LineEnd.chars : LineEnd → List Char
  | .feed => ['\n']
  | .returnFeed => ['\r', '\n']

/-- The text holds three lines, and after them nothing but blanks.  Only an empty third line
needs an end. -/
inductive LaysOut (first second third : List Char) : List Char → Prop
  | closed (e₁ e₂ e₃ : LineEnd) {rest : List Char} (blank : Text.allBlank rest = true) :
      LaysOut first second third
        (first ++ (e₁.chars ++ (second ++ (e₂.chars ++ (third ++ (e₃.chars ++ rest))))))
  | unclosed (e₁ e₂ : LineEnd) (nonempty : third ≠ []) :
      LaysOut first second third (first ++ (e₁.chars ++ (second ++ (e₂.chars ++ third))))

/-- A line is read alike whatever its end. -/
theorem exists_lines_append {line : List Char} (h : '\n' ∉ line) (e : LineEnd) (rest : List Char) :
    ∃ line', lines (line ++ (e.chars ++ rest)) = line' :: lines rest ∧
      ∀ n, readLine n line' = readLine n line := by
  cases e with
  | feed => exact ⟨dropReturn line, lines_append_feed h rest, fun n => readLine_dropReturn n line⟩
  | returnFeed =>
    have hline : '\n' ∉ line ++ ['\r'] := by simpa using h
    refine ⟨dropReturn (line ++ ['\r']), ?_, fun n => ?_⟩
    · rw [← lines_append_feed hline, List.append_assoc]
      rfl
    · rw [readLine_dropReturn, readLine_append_return]

/-- Blank lines behind the third one hold nothing. -/
theorem readLines_of_blank {n : Nat} (hn : 3 ≤ n) {lines : List (List Char)}
    (h : ∀ line ∈ lines, Text.allBlank line = true) : readLines n lines = .ok [] := by
  induction lines generalizing n with
  | nil => rfl
  | cons line rest ih =>
    rw [readLines, if_neg (Nat.not_lt.2 hn), if_pos (h line (List.mem_cons_self ..))]
    exact ih (Nat.le_succ_of_le hn) fun other hother => h other (List.mem_cons_of_mem _ hother)

theorem allBlank_of_mem_lines {text line : List Char} (h : Text.allBlank text = true)
    (hline : line ∈ lines text) : Text.allBlank line = true :=
  List.all_eq_true.2 fun c hc => List.all_eq_true.1 h c (mem_of_mem_lines hline hc)

/-- The record that three lines hold, each of them read on its own. -/
def readThree (first second third : List Char) : Except FormatError Record := do
  let profiles ← readLine 1 first
  let counts ← readLine 2 second
  let stdevs ← readLine 3 third
  (readRows [profiles, counts, stdevs]).mapError .row

section Layouts

variable {first second third : List Char}

/-- **Every layout of three lines is read alike.** -/
theorem parse_of_laysOut (hfirst : '\n' ∉ first) (hsecond : '\n' ∉ second) (hthird : '\n' ∉ third)
    {text : String} (h : LaysOut first second third text.toList) :
    parse text = readThree first second third := by
  obtain ⟨line₁, line₂, line₃, blank, hlines, hread₁, hread₂, hread₃, hblank⟩ :
      ∃ line₁ line₂ line₃ blank, lines text.toList = line₁ :: line₂ :: line₃ :: blank ∧
        (∀ n, readLine n line₁ = readLine n first) ∧ (∀ n, readLine n line₂ = readLine n second) ∧
        (∀ n, readLine n line₃ = readLine n third) ∧ ∀ line ∈ blank, Text.allBlank line = true := by
    generalize text.toList = chars at h
    cases h with
    | @closed e₁ e₂ e₃ rest hblank =>
      obtain ⟨line₃, hlines₃, hread₃⟩ := exists_lines_append hthird e₃ rest
      obtain ⟨line₂, hlines₂, hread₂⟩ := exists_lines_append hsecond e₂ (third ++ (e₃.chars ++ rest))
      obtain ⟨line₁, hlines₁, hread₁⟩ := exists_lines_append hfirst e₁
        (second ++ (e₂.chars ++ (third ++ (e₃.chars ++ rest))))
      exact ⟨line₁, line₂, line₃, lines rest, by rw [hlines₁, hlines₂, hlines₃], hread₁, hread₂,
        hread₃, fun line => allBlank_of_mem_lines hblank⟩
    | unclosed e₁ e₂ hne =>
      obtain ⟨line₂, hlines₂, hread₂⟩ := exists_lines_append hsecond e₂ third
      obtain ⟨line₁, hlines₁, hread₁⟩ := exists_lines_append hfirst e₁ (second ++ (e₂.chars ++ third))
      exact ⟨line₁, line₂, third, [], by rw [hlines₁, hlines₂, lines_of_line hthird hne], hread₁,
        hread₂, fun _ => rfl, fun line hline => absurd hline List.not_mem_nil⟩
  have hrest := readLines_of_blank (n := 3) (Nat.le_refl 3) hblank
  rw [parse, hlines, readLines, readLines, readLines, hrest, if_pos (by decide), if_pos (by decide),
    if_pos (by decide), hread₁, hread₂, hread₃, readThree]
  cases readLine 1 first <;> cases readLine 2 second <;> cases readLine 3 third <;> rfl

/-! ### Rows apart -/

/-- The line holds the values of that row. -/
def HoldsRow {α : Type} (row : Row) (read : List Char → Option α) (line : List Char)
    (values : List α) : Prop :=
  ∃ fields, readLine (row.index + 1) line = .ok fields ∧
    readFields row (expected row) read 1 (fields.getD []) = .ok values

/-- An empty line is a row without values. -/
theorem holdsRow_nil_iff {α : Type} {row : Row} {read : List Char → Option α} {values : List α} :
    HoldsRow row read [] values ↔ values = [] := by
  constructor
  · rintro ⟨fields, hline, hfields⟩
    obtain rfl : none = fields := Except.ok.inj hline
    exact (Except.ok.inj hfields).symm
  · rintro rfl
    exact ⟨none, rfl, rfl⟩

/-- **Three lines hold a record exactly if each of them holds its row.** -/
theorem readThree_eq_ok_iff {r : Record} : readThree first second third = .ok r ↔
    HoldsRow .timeProfiles Bucket.read? first r.timeProfiles ∧
      HoldsRow .totalCounts readFinite? second r.totalCounts ∧
      HoldsRow .timeStdevs readFinite? third r.timeStdevs := by
  have hrows : ∀ rows, (readRows rows).mapError FormatError.row = .ok r ↔ readRows rows = .ok r := by
    intro rows
    cases readRows rows <;> simp [Except.mapError]
  simp only [readThree, bind_eq_ok_iff, hrows]
  simp only [readRows_eq, bind_eq_ok_iff]
  constructor
  · rintro ⟨profiles, hprofiles, counts, hcounts, stdevs, hstdevs, ps, hps, cs, hcs, ss, hss, hr⟩
    obtain rfl := Except.ok.inj hr
    exact ⟨⟨profiles, hprofiles, hps⟩, ⟨counts, hcounts, hcs⟩, ⟨stdevs, hstdevs, hss⟩⟩
  · rintro ⟨⟨profiles, hprofiles, hps⟩, ⟨counts, hcounts, hcs⟩, ⟨stdevs, hstdevs, hss⟩⟩
    exact ⟨profiles, hprofiles, counts, hcounts, stdevs, hstdevs, _, hps, _, hcs, _, hss, rfl⟩

/-- The plain layout of three lines. -/
def threeLines (first second third : List Char) : String :=
  String.ofList (first ++ '\n' :: (second ++ '\n' :: (third ++ ['\n'])))

theorem laysOut_threeLines : LaysOut first second third (threeLines first second third).toList := by
  rw [threeLines, String.toList_ofList]
  exact .closed .feed .feed .feed rfl

/-- **Rows are independent and layout does not matter.**  The lines may hold quotes, also ones
that are never closed, carriage returns and byte-order marks.  Every layout of them gives the same
record or the same error, and it gives a record exactly if each line, between two empty ones in
place of the others, gives its row. -/
theorem rows_are_independent (hfirst : '\n' ∉ first) (hsecond : '\n' ∉ second)
    (hthird : '\n' ∉ third) :
    (∀ text : String, LaysOut first second third text.toList →
      parse text = parse (threeLines first second third)) ∧
    ∀ a b c, parse (threeLines first second third) = .ok ⟨a, b, c⟩ ↔
      parse (threeLines first [] []) = .ok ⟨a, [], []⟩ ∧
      parse (threeLines [] second []) = .ok ⟨[], b, []⟩ ∧
      parse (threeLines [] [] third) = .ok ⟨[], [], c⟩ := by
  have hnil : '\n' ∉ ([] : List Char) := List.not_mem_nil
  constructor
  · intro text htext
    rw [parse_of_laysOut hfirst hsecond hthird htext,
      parse_of_laysOut hfirst hsecond hthird laysOut_threeLines]
  · intro a b c
    rw [parse_of_laysOut hfirst hsecond hthird laysOut_threeLines,
      parse_of_laysOut hfirst hnil hnil laysOut_threeLines,
      parse_of_laysOut hnil hsecond hnil laysOut_threeLines,
      parse_of_laysOut hnil hnil hthird laysOut_threeLines]
    simp only [readThree_eq_ok_iff, holdsRow_nil_iff, and_true, true_and]

end Layouts

/-- A quote that is never closed holds a carriage return, and a byte-order mark stands before a
quoted field: no line is drawn into another. -/
theorem rows_are_independent_quoted :
    let first := "\"1\r".toList
    let second := "\uFEFF\"0.5\", 2 ".toList
    let third := "\r3".toList
    let text := "\"1\r\r\n\uFEFF\"0.5\", 2 \n\r3\n \t\r\n\n"
    '\n' ∉ first ∧ '\n' ∉ second ∧ '\n' ∉ third ∧ LaysOut first second third text.toList ∧
      parse text = parse (threeLines first second third) ∧
      ∀ a b c, parse (threeLines first second third) = .ok ⟨a, b, c⟩ ↔
        parse (threeLines first [] []) = .ok ⟨a, [], []⟩ ∧
        parse (threeLines [] second []) = .ok ⟨[], b, []⟩ ∧
        parse (threeLines [] [] third) = .ok ⟨[], [], c⟩ := by
  intro first second third text
  have hfirst : '\n' ∉ first := by decide
  have hsecond : '\n' ∉ second := by decide
  have hthird : '\n' ∉ third := by decide
  have htext : LaysOut first second third text.toList := by
    have hrest : Text.allBlank " \t\r\n\n".toList = true := by decide
    have hsplit : text.toList = first ++ (LineEnd.returnFeed.chars ++ (second ++ (LineEnd.feed.chars ++
        (third ++ (LineEnd.feed.chars ++ " \t\r\n\n".toList))))) := by decide
    exact hsplit ▸ .closed .returnFeed .feed .feed hrest
  obtain ⟨hlayout, hrows⟩ := rows_are_independent hfirst hsecond hthird
  exact ⟨hfirst, hsecond, hthird, htext, hlayout text htext, hrows⟩

end RowFormat
end Rollup
