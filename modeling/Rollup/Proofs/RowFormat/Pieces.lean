/-
# The pieces of a line

A line without double quotes and byte-order marks is cut into pieces at its carriage returns
and the first piece into fields at its commas.  The automaton of `tokens` then does nothing but
name the marks (`tokens_eq_map`), so the rows of a line are its pieces that are not empty
(`rowsOfLine_eq`), and a row is blank exactly if its piece is (`isBlankRow_eq`).  Reading such
a line is refused exactly if it is not blank behind its first piece.
-/

import Rollup.RowFormat.Parse

namespace Rollup

/-! ### Cutting -/

namespace Text

variable {α β : Type} {p : α → Bool} {as part : List α}

theorem cut_map (p : β → Bool) (f : α → β) (as : List α) :
    cut p (as.map f) = (cut (p ∘ f) as).map (List.map f) := by
  induction as with
  | nil => rfl
  | cons a as ih =>
    rw [List.map_cons, cut, cut, ih, Function.comp_apply]
    cases p (f a) with
    | true => rfl
    | false => cases cut (p ∘ f) as <;> rfl

/-- A list with a mark is cut into two parts at least. -/
theorem cut_eq_singleton_iff : cut p as = [part] ↔ part = as ∧ ∀ a ∈ as, p a = false := by
  constructor
  · intro h
    have hmarks : ∀ a ∈ as, p a = false := by
      intro a ha
      refine Bool.eq_false_iff.2 fun hp => ?_
      obtain ⟨before, after, rfl⟩ := List.append_of_mem ha
      have hlength := congrArg List.length h
      have hbefore := List.length_pos_iff.2 (cut_ne_nil p before)
      have hafter := List.length_pos_iff.2 (cut_ne_nil p after)
      rw [cut_append_mark before after hp, List.length_append, List.length_singleton] at hlength
      omega
    rw [cut_eq_singleton hmarks] at h
    exact ⟨(List.cons.inj h).1.symm, hmarks⟩
  · rintro ⟨rfl, hmarks⟩
    exact cut_eq_singleton hmarks

theorem mem_of_mem_cut (h : part ∈ cut p as) {a : α} (ha : a ∈ part) : a ∈ as := by
  induction as generalizing part with
  | nil =>
    obtain rfl := List.mem_singleton.1 h
    exact ha
  | cons b as ih =>
    rw [cut] at h
    split at h
    · rcases List.mem_cons.1 h with rfl | h
      · exact absurd ha List.not_mem_nil
      · exact List.mem_cons_of_mem _ (ih h ha)
    · cases hcut : cut p as with
      | nil => exact absurd hcut (cut_ne_nil p as)
      | cons first parts =>
        rw [hcut] at h ih
        rcases List.mem_cons.1 h with rfl | h
        · rcases List.mem_cons.1 ha with rfl | ha
          · exact List.mem_cons_self ..
          · exact List.mem_cons_of_mem _ (ih (List.mem_cons_self ..) ha)
        · exact List.mem_cons_of_mem _ (ih (List.mem_cons_of_mem _ h) ha)

/-- What holds no mark goes to the last part. -/
theorem exists_cut_append {bs : List α} (as : List α) (h : ∀ b ∈ bs, p b = false) :
    ∃ parts last, cut p as = parts ++ [last] ∧ cut p (as ++ bs) = parts ++ [last ++ bs] := by
  induction as with
  | nil => exact ⟨[], [], rfl, cut_eq_singleton h⟩
  | cons a as ih =>
    obtain ⟨parts, last, hcut, hcut'⟩ := ih
    rw [List.cons_append, cut, cut, hcut, hcut']
    cases p a with
    | true => exact ⟨[] :: parts, last, rfl, rfl⟩
    | false =>
      cases parts with
      | nil => exact ⟨[], a :: last, rfl, rfl⟩
      | cons part parts => exact ⟨(a :: part) :: parts, last, rfl, rfl⟩

end Text

namespace RowFormat

/-! ### Lines -/

/-- The line before a line feed. -/
theorem lines_append_feed {line : List Char} (h : '\n' ∉ line) (rest : List Char) :
    lines (line ++ '\n' :: rest) = dropReturn line :: lines rest := by
  have hline : ∀ c ∈ line, (c == '\n') = false := fun c hc => beq_false_of_ne fun e => h (e ▸ hc)
  rw [lines, Text.cut_append_cons rest hline rfl, lines]
  cases hcut : Text.cut (· == '\n') rest with
  | nil => exact absurd hcut (Text.cut_ne_nil _ rest)
  | cons part parts => rfl

/-- A line without a line feed behind it. -/
theorem lines_of_line {line : List Char} (h : '\n' ∉ line) (hne : line ≠ []) : lines line = [line] := by
  have hline : ∀ c ∈ line, (c == '\n') = false := fun c hc => beq_false_of_ne fun e => h (e ▸ hc)
  rw [lines, Text.cut_eq_singleton hline, terminate, if_neg (by simpa using hne)]

theorem mem_of_mem_dropReturn {line : List Char} {c : Char} (h : c ∈ dropReturn line) : c ∈ line := by
  unfold dropReturn at h
  split at h
  · exact (List.dropLast_sublist line).subset h
  · exact h

theorem mem_of_mem_terminate {parts : List (List Char)} {line : List Char}
    (h : line ∈ terminate parts) {c : Char} (hc : c ∈ line) : ∃ part ∈ parts, c ∈ part := by
  induction parts with
  | nil => exact absurd h List.not_mem_nil
  | cons part rest ih =>
    cases rest with
    | nil =>
      rw [terminate] at h
      split at h
      · exact absurd h List.not_mem_nil
      · exact ⟨line, h, hc⟩
    | cons next rest =>
      rcases List.mem_cons.1 h with rfl | h
      · exact ⟨part, List.mem_cons_self .., mem_of_mem_dropReturn hc⟩
      · obtain ⟨other, hother, hc⟩ := ih h
        exact ⟨other, List.mem_cons_of_mem _ hother, hc⟩

theorem mem_of_mem_lines {text line : List Char} (hline : line ∈ lines text) {c : Char}
    (hc : c ∈ line) : c ∈ text := by
  obtain ⟨part, hpart, hc⟩ := mem_of_mem_terminate hline hc
  exact Text.mem_of_mem_cut hpart hc

/-! ### Pieces and fields -/

/-- The pieces of a line between its carriage returns, without empty ones. -/
def pieces (line : List Char) : List (List Char) :=
  (Text.cut (· == '\r') line).filter fun piece => !piece.isEmpty

/-- Behind its first piece the line is blank. -/
def IsWhole (line : List Char) : Prop := ∀ piece ∈ (pieces line).tail, Text.allBlank piece = true

/-- The fields of a line: those of its first piece, unless that is blank. -/
def lineFields (line : List Char) : List (List Char) :=
  match pieces line with
  | [] => []
  | piece :: _ =>
    if Text.allBlank piece then [] else (Text.cut (· == ',') piece).map Text.trim

/-! ### Plain lines -/

/-- No double quote and no byte-order mark. -/
def IsPlain (s : List Char) : Prop := '"' ∉ s ∧ '\uFEFF' ∉ s

theorem dropMark_eq_self {s : List Char} (h : '\uFEFF' ∉ s) : dropMark s = s := by
  unfold dropMark
  split
  · exact absurd List.mem_cons_self h
  · rfl

/-- What a character outside quotes counts as. -/
def plainToken (c : Char) : Token :=
  if c = ',' then .comma else if c = '\r' then .endOfRow else .char c

/-- Without quotes each character is a token of its own. -/
theorem tokens_eq_map {position : Position} (hp : position = .start ∨ position = .plain)
    {s : List Char} (h : '"' ∉ s) : tokens position s = s.map plainToken := by
  induction s generalizing position with
  | nil => rcases hp with rfl | rfl <;> rfl
  | cons c s ih =>
    obtain ⟨hc, hs⟩ := not_or.1 (mt List.mem_cons.2 h)
    have hquote : c ≠ '"' := Ne.symm hc
    rw [List.map_cons, plainToken]
    by_cases hcomma : c = ','
    · rw [if_pos hcomma, ← ih (Or.inl rfl) hs]
      rcases hp with rfl | rfl <;> simp [tokens, hcomma]
    · by_cases hreturn : c = '\r'
      · rw [if_neg hcomma, if_pos hreturn, ← ih (Or.inl rfl) hs]
        rcases hp with rfl | rfl <;> simp [tokens, hreturn]
      · rw [if_neg hcomma, if_neg hreturn, ← ih (Or.inr rfl) hs]
        rcases hp with rfl | rfl <;> simp [tokens, hquote, hcomma, hreturn]

theorem plainToken_beq_comma (c : Char) : (plainToken c == .comma) = (c == ',') := by
  unfold plainToken
  by_cases hcomma : c = ','
  · rw [hcomma]
    rfl
  · rw [if_neg hcomma, beq_false_of_ne hcomma]
    split <;> rfl

theorem plainToken_beq_endOfRow (c : Char) : (plainToken c == .endOfRow) = (c == '\r') := by
  unfold plainToken
  by_cases hreturn : c = '\r'
  · rw [hreturn]
    rfl
  · rw [if_neg hreturn, beq_false_of_ne hreturn]
    split <;> rfl

theorem filterMap_char (f : List Char) : (f.map Token.char).filterMap Token.char? = f := by
  induction f with
  | nil => rfl
  | cons c f ih => simpa [Token.char?] using ih

/-- The text of a field is the field itself. -/
theorem filterMap_plainToken {field : List Char} (hcomma : ',' ∉ field) (hreturn : '\r' ∉ field) :
    (field.map plainToken).filterMap Token.char? = field := by
  have hchars : field.map plainToken = field.map Token.char := by
    refine List.map_congr_left fun c hc => ?_
    have hc₁ : c ≠ ',' := fun e => hcomma (e ▸ hc)
    have hc₂ : c ≠ '\r' := fun e => hreturn (e ▸ hc)
    rw [plainToken, if_neg hc₁, if_neg hc₂]
  rw [hchars, filterMap_char]

/-- The fields of a piece. -/
theorem fieldsOf_map {piece : List Char} (hreturn : '\r' ∉ piece) :
    fieldsOf (piece.map plainToken) = (Text.cut (· == ',') piece).map Text.trim := by
  have hmark : (fun c => (plainToken c == Token.comma)) = (· == ',') :=
    funext plainToken_beq_comma
  rw [fieldsOf, Text.cut_map, List.map_map]
  show (Text.cut (fun c => plainToken c == Token.comma) piece).map _ = _
  rw [hmark]
  refine List.map_congr_left fun field hfield => ?_
  have hcomma : ',' ∉ field := fun hmem => by
    have := Text.eq_false_of_mem_cut hfield ',' hmem
    simp at this
  have hreturn : '\r' ∉ field := fun hmem => hreturn (Text.mem_of_mem_cut hfield hmem)
  rw [Function.comp_apply, filterMap_plainToken hcomma hreturn]

theorem return_not_mem_pieces {line piece : List Char} (h : piece ∈ pieces line) : '\r' ∉ piece :=
  fun hmem => by
    have := Text.eq_false_of_mem_cut (List.mem_filter.1 h).1 '\r' hmem
    simp at this

/-- **The rows of a plain line are its pieces.** -/
theorem rowsOfLine_eq {line : List Char} (h : IsPlain line) :
    rowsOfLine line = (pieces line).map fun piece => (Text.cut (· == ',') piece).map Text.trim := by
  have hmark : (fun c => (plainToken c == Token.endOfRow)) = (· == '\r') :=
    funext plainToken_beq_endOfRow
  have hcut : Text.cut (· == Token.endOfRow) (line.map plainToken) =
      (Text.cut (· == '\r') line).map (List.map plainToken) := by
    rw [Text.cut_map, ← hmark]
    rfl
  have hempty : (fun row : List Token => !row.isEmpty) ∘ List.map plainToken =
      fun piece => !piece.isEmpty := by
    funext piece
    cases piece <;> rfl
  rw [rowsOfLine, dropMark_eq_self h.2, tokens_eq_map (Or.inl rfl) h.1, hcut, List.filter_map, hempty,
    List.map_map]
  exact List.map_congr_left fun piece hpiece => fieldsOf_map (return_not_mem_pieces hpiece)

/-- **A row is blank exactly if its piece is.** -/
theorem isBlankRow_eq (piece : List Char) :
    isBlankRow ((Text.cut (· == ',') piece).map Text.trim) = Text.allBlank piece := by
  rw [Bool.eq_iff_iff, isBlankRow, beq_iff_eq, List.map_eq_singleton_iff]
  constructor
  · rintro ⟨field, hcut, htrim⟩
    obtain ⟨rfl, -⟩ := Text.cut_eq_singleton_iff.1 hcut
    exact Text.trim_eq_nil_iff.1 htrim
  · intro hblank
    refine ⟨piece, Text.cut_eq_singleton_iff.2 ⟨rfl, fun c hc => ?_⟩, Text.trim_eq_nil_iff.2 hblank⟩
    have hc := List.all_eq_true.1 hblank c hc
    refine beq_eq_false_iff_ne.2 ?_
    rintro rfl
    exact absurd hc (by decide)

/-- The lines of a plain text are plain. -/
theorem IsPlain.lines {text line : List Char} (h : IsPlain text) (hline : line ∈ lines text) :
    IsPlain line :=
  ⟨fun hquote => h.1 (mem_of_mem_lines hline hquote), fun hmark => h.2 (mem_of_mem_lines hline hmark)⟩

/-! ### Reading a line -/

theorem readLine_of_isWhole {line : List Char} (h : IsPlain line) (hwhole : IsWhole line)
    (number : Nat) :
    ∃ fields, readLine number line = .ok fields ∧ fields.getD [] = lineFields line := by
  unfold readLine IsWhole at *
  rw [rowsOfLine_eq h, lineFields]
  cases hpieces : pieces line with
  | nil => exact ⟨none, rfl, rfl⟩
  | cons piece more =>
    rw [hpieces, List.tail_cons] at hwhole
    have hmore : (more.map fun piece => (Text.cut (· == ',') piece).map Text.trim).all isBlankRow =
        true := by
      rw [List.all_map, List.all_eq_true]
      intro other hother
      rw [Function.comp_apply, isBlankRow_eq, hwhole other hother]
    refine ⟨_, if_pos hmore, ?_⟩
    rw [isBlankRow_eq]
    cases hblank : Text.allBlank piece <;> simp [hblank]

theorem readLine_of_not_isWhole {line : List Char} (h : IsPlain line) (hsplit : ¬IsWhole line)
    (number : Nat) : readLine number line = .error (.splitRow number) := by
  unfold readLine IsWhole at *
  rw [rowsOfLine_eq h]
  cases hpieces : pieces line with
  | nil =>
    rw [hpieces] at hsplit
    exact absurd (fun _ hmem => absurd hmem List.not_mem_nil) hsplit
  | cons piece more =>
    rw [hpieces, List.tail_cons] at hsplit
    rw [List.map_cons]
    refine if_neg fun hmore => hsplit fun other hother => ?_
    rw [List.all_map, List.all_eq_true] at hmore
    rw [← isBlankRow_eq]
    exact hmore other hother

end RowFormat
end Rollup
