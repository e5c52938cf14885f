/-
# What is written reads back

Written numbers hold no mark of the format: no quote, comma, blank or line break
(`Decimal.isNumeral`).  Through the stages of reading that gives, in turn: a text of
three lines is cut at the line feeds and nowhere else (`lines_of_three`), a line is
one row whose fields are the written numbers (`readLine_commaSeparated`), and the
empty row, which has no field at all, stays apart from a row that is missing.  The
fields are then read one by one, up to the first that does not read
(`readFields_map`, `readFields_stop`).

So a finite record reads back as it is, any other record is refused at its first
sample that is not finite, and since reading gives only finite records
(`isFinite_of_parse`), writing after reading is an idempotent normal form
(`parse_render_cases`).
-/

import Rollup.Proofs.Decimal.ReadBack
import Rollup.Proofs.Record.Finite
import Rollup.Proofs.RowFormat.Pieces
import Rollup.RowFormat.Render

namespace Rollup
namespace RowFormat

open Decimal (isNumeral)

/-! ### Characters of numbers are no marks -/

theorem isNumeral_ne {c d : Char} (hc : isNumeral c = true) (hd : isNumeral d = false) : c ≠ d := by
  rintro rfl
  rw [hc] at hd
  exact Bool.noConfusion hd

/-- Numbers are written with characters from the plus sign up to `z`. -/
theorem range_of_isNumeral {c : Char} (h : isNumeral c = true) :
    0x2B ≤ c.toNat ∧ c.toNat ≤ 0x7A := by
  replace h : decide (0x41 ≤ c.val ∧ c.val ≤ 0x5A) || (0x61 ≤ c.val && c.val ≤ 0x7A) ||
      (0x30 ≤ c.val && c.val ≤ 0x39) || c == '.' || c == '-' || c == '+' := h
  simp only [Bool.or_eq_true, Bool.and_eq_true, decide_eq_true_eq, beq_iff_eq,
    UInt32.le_iff_toNat_le] at h
  rcases h with ((h | rfl) | rfl) | rfl
  · rcases h with (h | h) | h <;> simp at h <;> omega
  all_goals decide

theorem isBlank_of_isNumeral {c : Char} (h : isNumeral c = true) : Text.isBlank c = false := by
  obtain ⟨hlow, hhigh⟩ := range_of_isNumeral h
  simp only [Text.isBlank, Bool.or_eq_false_iff, Bool.and_eq_false_iff, beq_eq_false_iff_ne,
    decide_eq_false_iff_not, UInt32.le_iff_toNat_le, ne_eq, ← UInt32.toNat_inj]
  simp
  omega

theorem trim_of_isNumeral {s : List Char} (h : s.all isNumeral) : Text.trim s = s :=
  Text.trim_eq_self fun c hc => isBlank_of_isNumeral (List.all_eq_true.1 h c hc)

/-! ### Rows -/

/-- The written form of a number. -/
structure IsField (s : List Char) : Prop where
  ne_nil : s ≠ []
  numeral : s.all isNumeral

theorem isField_writeReal (x : Binary64) : IsField (Decimal.writeReal x) :=
  ⟨Decimal.writeReal_ne_nil x, Decimal.all_isNumeral_writeReal x⟩

theorem isField_write (b : Bucket) : IsField b.write := by
  refine ⟨fun h => ?_, Decimal.all_isNumeral_writeInt _⟩
  have := Bucket.read?_write b
  rw [h] at this
  exact absurd this (by simp [Bucket.read?, Decimal.readInt?, Decimal.readNat?, Decimal.isDigits])

theorem mem_commaSeparated {fields : List (List Char)} {c : Char} (h : c ∈ commaSeparated fields) :
    c = ',' ∨ ∃ f ∈ fields, c ∈ f := by
  induction fields with
  | nil => simp [commaSeparated] at h
  | cons f rest ih =>
    cases rest with
    | nil => exact Or.inr ⟨f, by simp, h⟩
    | cons g rest =>
      rw [commaSeparated] at h
      · rcases List.mem_append.1 h with h | h
        · exact Or.inr ⟨f, by simp, h⟩
        · rcases List.mem_cons.1 h with h | h
          · exact Or.inl h
          · exact (ih h).imp_right fun ⟨k, hk, hc⟩ => ⟨k, List.mem_cons_of_mem _ hk, hc⟩
      · simp

/-- A mark other than the comma does not occur in a written row. -/
theorem not_mem_commaSeparated {fields : List (List Char)} (h : ∀ f ∈ fields, IsField f) {c : Char}
    (hcomma : c ≠ ',') (hc : isNumeral c = false) : c ∉ commaSeparated fields := by
  intro hmem
  rcases mem_commaSeparated hmem with rfl | ⟨f, hf, hcf⟩
  · exact hcomma rfl
  · exact isNumeral_ne (List.all_eq_true.1 (h f hf).numeral c hcf) hc rfl

/-- A written row is cut into its fields. -/
theorem cut_commaSeparated {fields : List (List Char)} (h : ∀ f ∈ fields, IsField f)
    (hne : fields ≠ []) : Text.cut (· == ',') (commaSeparated fields) = fields := by
  have hcomma : ∀ f, IsField f → ∀ c ∈ f, (c == ',') = false := fun f hf c hc =>
    beq_false_of_ne (isNumeral_ne (List.all_eq_true.1 hf.numeral c hc) (by decide))
  induction fields with
  | nil => exact absurd rfl hne
  | cons f rest ih =>
    have hf := hcomma f (h f (by simp))
    cases rest with
    | nil => exact Text.cut_eq_singleton hf
    | cons g rest =>
      have hrest := ih (fun k hk => h k (List.mem_cons_of_mem _ hk)) (by simp)
      rw [commaSeparated, Text.cut_append_cons _ hf rfl, hrest]
      simp

/-- **A written row is read as its fields**; the empty row is blank. -/
theorem readLine_commaSeparated {fields : List (List Char)} (h : ∀ f ∈ fields, IsField f) (n : Nat) :
    readLine n (commaSeparated fields) = .ok (if fields = [] then none else some fields) := by
  have hplain : IsPlain (commaSeparated fields) :=
    ⟨not_mem_commaSeparated h (by decide) (by decide), not_mem_commaSeparated h (by decide) (by decide)⟩
  have hreturn : ∀ c ∈ commaSeparated fields, (c == '\r') = false := fun c hc =>
    beq_false_of_ne fun e => not_mem_commaSeparated h (by decide) (by decide) (e ▸ hc)
  have hempty : [] ∉ fields := fun hmem => (h [] hmem).ne_nil rfl
  by_cases hne : fields = []
  · subst hne
    rfl
  · have hcut := cut_commaSeparated h hne
    have hline : commaSeparated fields ≠ [] := fun hnil => by
      rw [hnil] at hcut
      exact hempty (hcut ▸ List.mem_cons_self ..)
    have hpieces : pieces (commaSeparated fields) = [commaSeparated fields] := by
      rw [pieces, Text.cut_eq_singleton hreturn, List.filter_cons_of_pos (by simp [hline]),
        List.filter_nil]
    have htrim : fields.map Text.trim = fields :=
      (List.map_congr_left fun f hf => trim_of_isNumeral (h f hf).numeral).trans (List.map_id _)
    have hrows : rowsOfLine (commaSeparated fields) = [fields] := by
      rw [rowsOfLine_eq hplain, hpieces, List.map_singleton, hcut, htrim]
    have hblank : isBlankRow fields = false := by
      refine beq_false_of_ne ?_
      rintro rfl
      exact hempty (List.mem_cons_self ..)
    simp [readLine, hrows, hblank, hne]

/-! ### Lines -/

theorem dropReturn_eq_self {s : List Char} (h : '\r' ∉ s) : dropReturn s = s := by
  unfold dropReturn
  rw [if_neg]
  exact fun hlast => h (List.mem_of_getLast? hlast)

/-- A text of three lines, each ended by a line feed. -/
theorem lines_of_three {a b c : List Char} (h : ∀ l ∈ [a, b, c], '\n' ∉ l ∧ '\r' ∉ l) :
    lines (a ++ '\n' :: b ++ '\n' :: c ++ ['\n']) = [a, b, c] := by
  obtain ⟨ha, hb, hc⟩ : ('\n' ∉ a ∧ '\r' ∉ a) ∧ ('\n' ∉ b ∧ '\r' ∉ b) ∧ '\n' ∉ c ∧ '\r' ∉ c := by
    simpa using h
  simp only [List.append_assoc, List.cons_append]
  rw [lines_append_feed ha.1, lines_append_feed hb.1, lines_append_feed hc.1, dropReturn_eq_self ha.2,
    dropReturn_eq_self hb.2, dropReturn_eq_self hc.2]
  rfl

/-! ### Fields -/

section Fields

variable {α : Type} {row : Row} {expected : Expected} {read : List Char → Option α}
  {write : α → List Char}

/-- Fields that read back give their values. -/
theorem readFields_map {xs : List α} (h : ∀ x ∈ xs, read (write x) = some x) (n : Nat) :
    readFields row expected read n (xs.map write) = .ok xs := by
  induction xs generalizing n with
  | nil => rfl
  | cons x xs ih =>
    rw [List.map_cons, readFields, h x (by simp), ih fun y hy => h y (by simp [hy])]
    rfl

/-- The first field that does not read is the error. -/
theorem readFields_stop {xs : List α} (h : ∀ x ∈ xs, read (write x) = some x) {token : List Char}
    (htoken : read token = none) (rest : List (List Char)) (n : Nat) :
    readFields row expected read n (xs.map write ++ token :: rest) =
      .error (.malformed row (n + xs.length) (String.ofList token) expected) := by
  induction xs generalizing n with
  | nil => rw [List.map_nil, List.nil_append, readFields, htoken]; rfl
  | cons x xs ih =>
    rw [List.map_cons, List.cons_append, readFields, h x (by simp),
      ih fun y hy => h y (by simp [hy])]
    simp only [List.length_cons, Nat.add_assoc, Nat.add_comm 1]
    rfl

/-- Every value of a row has been read from some field. -/
theorem exists_field_of_readFields {fields : List (List Char)} {n : Nat} {xs : List α}
    (h : readFields row expected read n fields = .ok xs) {x : α} (hx : x ∈ xs) :
    ∃ token, read token = some x := by
  induction fields generalizing n xs with
  | nil =>
    obtain rfl := Except.ok.inj h
    exact absurd hx List.not_mem_nil
  | cons token rest ih =>
    rw [readFields] at h
    cases htoken : read token with
    | none => rw [htoken] at h; cases h
    | some y =>
      cases hrest : readFields row expected read (n + 1) rest with
      | error e => rw [htoken, hrest] at h; cases h
      | ok ys =>
        rw [htoken, hrest] at h
        obtain rfl : y :: ys = xs := Except.ok.inj h
        rcases List.mem_cons.1 hx with rfl | hx
        · exact ⟨token, htoken⟩
        · exact ih hrest hx

end Fields

theorem readFinite?_writeReal {x : Binary64} (hx : x.isFinite) :
    readFinite? (Decimal.writeReal x) = some x := by
  rw [readFinite?, Decimal.readReal?_writeReal hx, Option.filter_some, if_pos hx]

theorem readFinite?_writeReal_eq_none {x : Binary64} (hx : x.isFinite = false) :
    readFinite? (Decimal.writeReal x) = none := by
  obtain ⟨y, hy, hfin⟩ := Decimal.readReal?_writeReal_of_not_finite hx
  rw [readFinite?, hy, Option.filter_some, hfin, if_neg Bool.false_ne_true]

theorem isFinite_of_readFinite? {token : List Char} {x : Binary64} (h : readFinite? token = some x) :
    x.isFinite :=
  (Option.filter_eq_some_iff.1 h).2

/-! ### Records -/

theorem isField_of_mem_profiles {bs : List Bucket} {f : List Char} (h : f ∈ bs.map Bucket.write) :
    IsField f := by
  obtain ⟨b, -, rfl⟩ := List.mem_map.1 h
  exact isField_write b

theorem isField_of_mem_reals {xs : List Binary64} {f : List Char} (h : f ∈ xs.map Decimal.writeReal) :
    IsField f := by
  obtain ⟨x, -, rfl⟩ := List.mem_map.1 h
  exact isField_writeReal x

/-- Three lines, each closed by a line feed. -/
def HasThreeLines (text : String) : Prop :=
  ∃ first second third : List Char, '\n' ∉ first ∧ '\n' ∉ second ∧ '\n' ∉ third ∧
    text.toList = first ++ '\n' :: second ++ '\n' :: third ++ ['\n']

theorem hasThreeLines_render (r : Record) : HasThreeLines (render r) := by
  have hfeed : ∀ {fields : List (List Char)}, (∀ f ∈ fields, IsField f) →
      '\n' ∉ commaSeparated fields := fun h => not_mem_commaSeparated h (by decide) (by decide)
  exact ⟨_, _, _, hfeed fun _ => isField_of_mem_profiles, hfeed fun _ => isField_of_mem_reals,
    hfeed fun _ => isField_of_mem_reals, String.toList_ofList⟩

/-- Reading a written record leaves only the reals to be read. -/
theorem parse_render (r : Record) :
    parse (render r) = Except.mapError .row (do
      let counts ← readFields .totalCounts .real readFinite? 1 (r.totalCounts.map Decimal.writeReal)
      let stdevs ← readFields .timeStdevs .real readFinite? 1 (r.timeStdevs.map Decimal.writeReal)
      return ⟨r.timeProfiles, counts, stdevs⟩) := by
  have hprofiles : ∀ f ∈ r.timeProfiles.map Bucket.write, IsField f := fun _ => isField_of_mem_profiles
  have hreals : ∀ xs : List Binary64, ∀ f ∈ xs.map Decimal.writeReal, IsField f :=
    fun _ _ => isField_of_mem_reals
  have hmarks : ∀ fields : List (List Char), (∀ f ∈ fields, IsField f) →
      '\n' ∉ commaSeparated fields ∧ '\r' ∉ commaSeparated fields := fun fields h =>
    ⟨not_mem_commaSeparated h (by decide) (by decide), not_mem_commaSeparated h (by decide) (by decide)⟩
  have hlines : lines (render r).toList = [commaSeparated (r.timeProfiles.map Bucket.write),
      commaSeparated (r.totalCounts.map Decimal.writeReal),
      commaSeparated (r.timeStdevs.map Decimal.writeReal)] := by
    rw [render, String.toList_ofList, renderChars]
    refine lines_of_three fun l hl => ?_
    simp only [List.mem_cons, List.not_mem_nil, or_false] at hl
    rcases hl with rfl | rfl | rfl
    · exact hmarks _ hprofiles
    · exact hmarks _ (hreals r.totalCounts)
    · exact hmarks _ (hreals r.timeStdevs)
  have hgetD : ∀ fields : List (List Char),
      (if fields = [] then none else some fields).getD [] = fields := by
    intro fields
    split
    · simp [*]
    · rfl
  have hread : readIntegers .timeProfiles (if r.timeProfiles.map Bucket.write = [] then none
      else some (r.timeProfiles.map Bucket.write)) = .ok r.timeProfiles := by
    rw [readIntegers, hgetD, readFields_map fun b _ => Bucket.read?_write b]
  rw [parse, hlines]
  simp only [readLines, readLine_commaSeparated hprofiles, readLine_commaSeparated (hreals _)]
  simp only [bind, Except.bind, pure, Except.pure, Nat.reduceLT, Nat.reduceAdd, if_true, readRows, hread,
    readReals, hgetD]

theorem parse_render_of_isFinite {r : Record} (h : r.IsFinite) : parse (render r) = .ok r := by
  obtain ⟨hcounts, hstdevs⟩ := Record.isFinite_iff.1 h
  rw [parse_render, readFields_map fun x hx => readFinite?_writeReal (hcounts x hx),
    readFields_map fun x hx => readFinite?_writeReal (hstdevs x hx)]
  rfl

/-- Reading stops at the first sample that is not finite. -/
theorem parse_render_of_isFirstNonFinite {r : Record} {row : Row} {i : Nat} {x : Binary64}
    (h : r.IsFirstNonFinite row i x) : parse (render r) =
      .error (.row (.malformed row (i + 1) (String.ofList (Decimal.writeReal x)) .real)) := by
  obtain ⟨hi, hget⟩ := List.getElem?_eq_some_iff.1 h.sample
  have hsplit : r.samples row = (r.samples row).take i ++ x :: (r.samples row).drop (i + 1) := by
    rw [← hget, List.getElem_cons_drop, List.take_append_drop]
  have hstop : readFields row .real readFinite? 1 ((r.samples row).map Decimal.writeReal) =
      .error (.malformed row (i + 1) (String.ofList (Decimal.writeReal x)) .real) := by
    rw [hsplit, List.map_append, List.map_cons, readFields_stop
      (fun y hy => readFinite?_writeReal (h.finite_before y hy))
      (readFinite?_writeReal_eq_none h.not_finite),
      List.length_take, Nat.min_eq_left (Nat.le_of_lt hi), Nat.add_comm]
  cases row with
  | timeProfiles => exact absurd hi (Nat.not_lt_zero i)
  | totalCounts =>
    rw [Record.samples] at hstop
    rw [parse_render, hstop]
    rfl
  | timeStdevs =>
    rw [Record.samples] at hstop
    rw [parse_render, hstop, readFields_map fun y hy => readFinite?_writeReal (h.finite_above rfl y hy)]
    rfl

theorem isFinite_of_readReals {row : Row} {fields : Option (List (List Char))} {xs : List Binary64}
    (h : readReals row fields = .ok xs) : ∀ x ∈ xs, x.isFinite := by
  intro x hx
  obtain ⟨token, htoken⟩ := exists_field_of_readFields h hx
  exact isFinite_of_readFinite? htoken

theorem isFinite_of_readRows {rows : List (Option (List (List Char)))} {r : Record}
    (h : readRows rows = .ok r) : r.IsFinite := by
  match rows with
  | [] => cases h
  | profiles :: rest =>
    rw [readRows] at h
    cases hp : readIntegers .timeProfiles profiles with
    | error e => rw [hp] at h; cases h
    | ok ps =>
      rw [hp] at h
      match rest with
      | [] => cases h
      | counts :: rest =>
        cases hc : readReals .totalCounts counts with
        | error e => simp only [hc, bind, Except.bind] at h; cases h
        | ok cs =>
          match rest with
          | [] => simp only [hc, bind, Except.bind] at h; cases h
          | stdevs :: rest =>
            cases hs : readReals .timeStdevs stdevs with
            | error e => simp only [hc, hs, bind, Except.bind] at h; cases h
            | ok ss =>
              simp only [hc, hs, bind, Except.bind, pure, Except.pure] at h
              obtain rfl := Except.ok.inj h
              exact Record.isFinite_iff.2 ⟨isFinite_of_readReals hc, isFinite_of_readReals hs⟩

/-- **Reading gives only finite records.** -/
theorem isFinite_of_parse {content : String} {r : Record} (h : parse content = .ok r) :
    r.IsFinite := by
  unfold parse at h
  cases hlines : readLines 0 (lines content.toList) with
  | error e => rw [hlines] at h; cases h
  | ok rows =>
    rw [hlines] at h
    cases hrows : readRows rows with
    | error e => simp only [hrows, bind, Except.bind, Except.mapError] at h; cases h
    | ok s =>
      simp only [hrows, bind, Except.bind, Except.mapError] at h
      obtain rfl := Except.ok.inj h
      exact isFinite_of_readRows hrows

/-- What reading gives is written so that it reads back. -/
theorem parse_render_of_parse {content : String} {r : Record} (h : parse content = .ok r) :
    parse (render r) = .ok r :=
  parse_render_of_isFinite (isFinite_of_parse h)

/-- **Reading undoes writing.**  A finite record reads back as it is, bit for bit.
Any other record is refused, at its first sample that is not finite: the error
names the row, the place counted from one and the token.  What has been read is
finite, so writing it and reading again gives it back, and the text written after
reading is its own normal form. -/
theorem parse_render_cases :
    (∀ r : Record, r.IsFinite → parse (render r) = .ok r) ∧
    (∀ r : Record, ¬r.IsFinite → ∃ row i x, r.IsFirstNonFinite row i x ∧ parse (render r) =
      .error (.row (.malformed row (i + 1) (String.ofList (Decimal.writeReal x)) .real))) ∧
    (∀ content r, parse content = .ok r → parse (render r) = .ok r) ∧
    (∀ content text, (parse content).map render = .ok text → (parse text).map render = .ok text) := by
  refine ⟨fun r => parse_render_of_isFinite, fun r h => ?_, fun content r => parse_render_of_parse,
    fun content text h => ?_⟩
  · obtain ⟨row, i, x, hfirst⟩ := Record.exists_isFirstNonFinite h
    exact ⟨row, i, x, hfirst, parse_render_of_isFirstNonFinite hfirst⟩
  · cases hparse : parse content with
    | error e => rw [hparse] at h; cases h
    | ok r =>
      rw [hparse] at h
      obtain rfl : render r = text := Except.ok.inj h
      rw [parse_render_of_parse hparse]
      rfl

/-- The cases are inhabited: an empty row beside a row of one negative zero, and an
infinity behind a finite sample. -/
theorem parse_render_negative_zero :
    parse (render ⟨[], [.zero true], []⟩) = .ok ⟨[], [.zero true], []⟩ ∧
    ∃ row i x, Record.IsFirstNonFinite ⟨[], [.zero false, .inf true], []⟩ row i x ∧
      parse (render ⟨[], [.zero false, .inf true], []⟩) =
        .error (.row (.malformed row (i + 1) (String.ofList (Decimal.writeReal x)) .real)) :=
  ⟨parse_render_cases.1 _ (Record.isFinite_iff.2 (by decide)),
    parse_render_cases.2.1 _ fun h => absurd (Record.isFinite_iff.1 h).1 (by decide)⟩

end RowFormat
end Rollup
