/-
# The grammar of a record

Without double quotes and byte-order marks, reading a record comes down to cutting: a text
into lines, a line into pieces, a piece into fields (`Rollup.Proofs.RowFormat.Pieces`).
`Denotes` says which texts hold which records and `IsFault` which error any other text is
refused with: the first line that may not stand where it does, or else the first row that
is absent or holds a field that does not read.  Each stage of reading is shown to decide its
part of these (`readLines_of_sound`, `readFields_eq_error_iff`, `readRows_eq_error_iff`), and
so reading decides both (`parse_grammar`).
-/

import Mathlib.Data.List.Forall2
import Rollup.Proofs.RowFormat.Pieces

namespace Rollup

/-! ### Integers -/

namespace Decimal

/-- An optional sign and at least one digit, and the number that is written so. -/
inductive IsInteger : List Char → Int → Prop
  | unsigned {digits : List Char} (h : isDigits digits) : IsInteger digits (value digits)
  | plus {digits : List Char} (h : isDigits digits) : IsInteger ('+' :: digits) (value digits)
  | minus {digits : List Char} (h : isDigits digits) : IsInteger ('-' :: digits) (-value digits)

theorem readNat?_eq_some_iff {s : List Char} {n : Nat} :
    readNat? s = some n ↔ isDigits s = true ∧ value s = n := by
  unfold readNat?
  cases isDigits s <;> simp

theorem readInt?_eq_some_iff {s : List Char} {i : Int} : readInt? s = some i ↔ IsInteger s i := by
  constructor
  · intro h
    unfold readInt? at h
    split at h <;> obtain ⟨n, hn, rfl⟩ := Option.map_eq_some_iff.1 h <;>
      obtain ⟨hdigits, rfl⟩ := readNat?_eq_some_iff.1 hn
    · exact .minus hdigits
    · exact .plus hdigits
    · exact .unsigned hdigits
  · intro h
    cases h with
    | unsigned h => exact readInt?_of_isDigits h
    | plus h | minus h => rw [readInt?, readNat?_eq_some_iff.2 ⟨h, rfl⟩]; rfl

end Decimal

theorem Bucket.read?_eq_some_iff {field : List Char} {b : Bucket} :
    Bucket.read? field = some b ↔ Decimal.IsInteger field b.value := by
  rw [read?, Option.bind_eq_some_iff]
  constructor
  · rintro ⟨i, hi, hb⟩
    rw [Bucket.ofInt?_eq_some_iff.1 hb]
    exact Decimal.readInt?_eq_some_iff.1 hi
  · exact fun h => ⟨b.value, Decimal.readInt?_eq_some_iff.2 h, ofInt?_value b⟩

/-! ### What lines hold -/

/-- The row stands on the line with that index. -/
def Row.index : Row → Nat
  | .timeProfiles => 0
  | .totalCounts => 1
  | .timeStdevs => 2

namespace RowFormat

/-- What the fields of a row have to be. -/
def expected : Row → Expected
  | .timeProfiles => .integer
  | .totalCounts | .timeStdevs => .real

/-- A field that reads as a finite double. -/
def HoldsReal (field : List Char) (x : Binary64) : Prop :=
  Decimal.readReal? field = some x ∧ x.isFinite = true

/-- A field that may stand in a row: an integer of 64 bits, or a finite real. -/
def Reads (field : List Char) : Row → Prop
  | .timeProfiles => ∃ b : Bucket, Decimal.IsInteger field b.value
  | .totalCounts | .timeStdevs => ∃ x, HoldsReal field x

/-- The line may stand at that index: the first three lines hold a row each, and the other
ones are blank. -/
def IsSound (n : Nat) (line : List Char) : Prop :=
  if n < 3 then IsWhole line else Text.allBlank line = true

/-- The lines may stand where they do, if the first one has index `n`. -/
def AllSound (n : Nat) (lines : List (List Char)) : Prop :=
  ∀ i line, lines[i]? = some line → IsSound (n + i) line

/-- How a line is refused that may not stand at that index. -/
def lineFault (n : Nat) : FormatError := if n < 3 then .splitRow (n + 1) else .extraRow (n + 1)

/-- The lines hold a record: its values are those of the fields, in order. -/
structure Denotes (lines : List (List Char)) (r : Record) : Prop where
  sound : AllSound 0 lines
  timeProfiles : ∃ line, lines[0]? = some line ∧
    List.Forall₂ (fun field b => Decimal.IsInteger field b.value) (lineFields line) r.timeProfiles
  totalCounts : ∃ line, lines[1]? = some line ∧ List.Forall₂ HoldsReal (lineFields line) r.totalCounts
  timeStdevs : ∃ line, lines[2]? = some line ∧ List.Forall₂ HoldsReal (lineFields line) r.timeStdevs

/-- A row is at fault: its line is missing, or holds a field that does not read, of which the
first one counts. -/
inductive RowFault (lines : List (List Char)) (row : Row) : RowError → Prop
  | absent (missing : lines[row.index]? = none) : RowFault lines row (.absent row)
  | malformed {line field : List Char} {before after : List (List Char)}
      (present : lines[row.index]? = some line) (fields : lineFields line = before ++ field :: after)
      (reads : ∀ f ∈ before, Reads f row) (fails : ¬Reads field row) :
      RowFault lines row
        (.malformed row (before.length + 1) (String.ofList field) (expected row))

/-- Why the lines hold no record: the first line that may not stand where it does, or else
the first row at fault. -/
inductive IsFault (lines : List (List Char)) : FormatError → Prop
  | line {before after : List (List Char)} {line : List Char}
      (split : lines = before ++ line :: after) (sound : AllSound 0 before)
      (unsound : ¬IsSound before.length line) : IsFault lines (lineFault before.length)
  | row {row : Row} {e : RowError} (sound : AllSound 0 lines) (fault : RowFault lines row e)
      (first : ∀ row' e', row'.index < row.index → ¬RowFault lines row' e') : IsFault lines (.row e)

/-! ### Reading lines -/

theorem allSound_cons {n : Nat} {line : List Char} {rest : List (List Char)} :
    AllSound n (line :: rest) ↔ IsSound n line ∧ AllSound (n + 1) rest := by
  constructor
  · intro h
    refine ⟨h 0 line rfl, fun i other hother => ?_⟩
    rw [Nat.add_assoc, Nat.add_comm 1]
    exact h (i + 1) other hother
  · rintro ⟨hline, hrest⟩ i other hother
    cases i with
    | zero => exact Option.some.inj hother ▸ hline
    | succ i =>
      have := hrest i other hother
      rwa [Nat.add_assoc, Nat.add_comm 1] at this

/-- Lines stand where they may, or there is a first one that does not. -/
theorem sound_or_unsound (n : Nat) (lines : List (List Char)) :
    AllSound n lines ∨ ∃ before line after, lines = before ++ line :: after ∧ AllSound n before ∧
      ¬IsSound (n + before.length) line := by
  induction lines generalizing n with
  | nil => exact Or.inl fun i line h => by simp at h
  | cons first rest ih =>
    by_cases hfirst : IsSound n first
    · rcases ih (n + 1) with hrest | ⟨before, line, after, rfl, hbefore, hline⟩
      · exact Or.inl (allSound_cons.2 ⟨hfirst, hrest⟩)
      · refine Or.inr ⟨first :: before, line, after, rfl, allSound_cons.2 ⟨hfirst, hbefore⟩, ?_⟩
        rwa [List.length_cons, Nat.add_comm before.length, ← Nat.add_assoc]
    · exact Or.inr ⟨[], first, rest, rfl, fun i line h => by simp at h, hfirst⟩

/-- **Sound lines give their rows.** -/
theorem readLines_of_sound {lines : List (List Char)} (h : ∀ line ∈ lines, IsPlain line) {n : Nat}
    (hsound : AllSound n lines) : ∃ rows, readLines n lines = .ok rows ∧
      rows.map (·.getD []) = (lines.take (3 - n)).map lineFields := by
  induction lines generalizing n with
  | nil => exact ⟨[], rfl, by simp⟩
  | cons line rest ih =>
    obtain ⟨hline, hrest⟩ := allSound_cons.1 hsound
    obtain ⟨rows, hrows, hfields⟩ := ih (fun other hother => h other (by simp [hother])) hrest
    rw [readLines]
    unfold IsSound at hline
    by_cases hn : n < 3
    · rw [if_pos hn] at hline ⊢
      obtain ⟨fields, hread, hgetD⟩ := readLine_of_isWhole (h line (by simp)) hline (n + 1)
      refine ⟨fields :: rows, by rw [hread, hrows]; rfl, ?_⟩
      rw [show 3 - n = (3 - (n + 1)) + 1 by omega, List.take_succ_cons, List.map_cons, List.map_cons,
        hgetD, hfields]
    · rw [if_neg hn] at hline ⊢
      rw [if_pos hline]
      refine ⟨rows, hrows, ?_⟩
      rw [hfields, show 3 - (n + 1) = 0 by omega, show 3 - n = 0 by omega]
      rfl

/-- **The first line that may not stand where it does is refused.** -/
theorem readLines_of_unsound {before after : List (List Char)} {line : List Char}
    (h : ∀ other ∈ before ++ line :: after, IsPlain other) {n : Nat} (hsound : AllSound n before)
    (hline : ¬IsSound (n + before.length) line) :
    readLines n (before ++ line :: after) = .error (lineFault (n + before.length)) := by
  induction before generalizing n with
  | nil =>
    rw [List.length_nil, Nat.add_zero] at hline ⊢
    rw [List.nil_append, readLines, lineFault]
    unfold IsSound at hline
    by_cases hn : n < 3
    · rw [if_pos hn] at hline
      rw [if_pos hn, if_pos hn, readLine_of_not_isWhole (h line (by simp)) hline]
      rfl
    · rw [if_neg hn] at hline
      rw [if_neg hn, if_neg hn, if_neg hline]
  | cons first before ih =>
    obtain ⟨hfirst, hbefore⟩ := allSound_cons.1 hsound
    rw [List.length_cons, Nat.add_comm before.length, ← Nat.add_assoc] at hline ⊢
    have hrest := ih (fun other hother => h other (by simp at hother ⊢; tauto)) hbefore hline
    rw [List.cons_append, readLines]
    unfold IsSound at hfirst
    by_cases hn : n < 3
    · rw [if_pos hn] at hfirst ⊢
      obtain ⟨fields, hread, -⟩ := readLine_of_isWhole (h first (by simp)) hfirst (n + 1)
      rw [hread, hrest]
      rfl
    · rw [if_neg hn] at hfirst ⊢
      rw [if_pos hfirst, hrest]

/-! ### Reading fields -/

section Fields

variable {α : Type} {row : Row} {read : List Char → Option α} {fields : List (List Char)}

theorem readFields_of_none {expected : Expected} {field : List Char} (h : read field = none) (n : Nat)
    (rest : List (List Char)) : readFields row expected read n (field :: rest) =
      .error (.malformed row n (String.ofList field) expected) := by
  rw [readFields, h]

theorem readFields_of_some {expected : Expected} {field : List Char} {value : α}
    (h : read field = some value) (n : Nat) (rest : List (List Char)) :
    readFields row expected read n (field :: rest) =
      (readFields row expected read (n + 1) rest).map (value :: ·) := by
  rw [readFields, h]
  cases readFields row expected read (n + 1) rest <;> rfl

/-- **Fields read if each of them does.** -/
theorem readFields_eq_ok_iff {expected : Expected} {n : Nat} {values : List α} :
    readFields row expected read n fields = .ok values ↔
      List.Forall₂ (fun field value => read field = some value) fields values := by
  induction fields generalizing n values with
  | nil => rw [readFields, Except.ok.injEq, List.forall₂_nil_left_iff, eq_comm]
  | cons field rest ih =>
    constructor
    · intro h
      cases hfield : read field with
      | none =>
        rw [readFields_of_none hfield] at h
        cases h
      | some value =>
        rw [readFields_of_some hfield] at h
        cases hrest : readFields row expected read (n + 1) rest with
        | error e =>
          rw [hrest] at h
          cases h
        | ok others =>
          rw [hrest] at h
          obtain rfl := Except.ok.inj h
          exact .cons hfield (ih.1 hrest)
    · intro h
      cases h with
      | cons hfield hrest =>
        rw [readFields_of_some hfield, ih.2 hrest]
        rfl

/-- **The first field that does not read is the error.** -/
theorem readFields_eq_error_iff {expected : Expected} {n : Nat} {e : RowError} :
    readFields row expected read n fields = .error e ↔ ∃ before field after,
      fields = before ++ field :: after ∧ (∀ f ∈ before, ∃ value, read f = some value) ∧
      read field = none ∧ e = .malformed row (n + before.length) (String.ofList field) expected := by
  constructor
  · intro h
    induction fields generalizing n with
    | nil => cases h
    | cons field rest ih =>
      cases hfield : read field with
      | none =>
        rw [readFields_of_none hfield] at h
        exact ⟨[], field, rest, rfl, fun f hf => absurd hf List.not_mem_nil, hfield,
          (Except.error.inj h).symm⟩
      | some value =>
        rw [readFields_of_some hfield] at h
        cases hrest : readFields row expected read (n + 1) rest with
        | ok others =>
          rw [hrest] at h
          cases h
        | error e' =>
          rw [hrest] at h
          obtain rfl := Except.error.inj h
          obtain ⟨before, bad, after, rfl, hbefore, hbad, rfl⟩ := ih hrest
          refine ⟨field :: before, bad, after, rfl, ?_, hbad, ?_⟩
          · exact List.forall_mem_cons.2 ⟨⟨value, hfield⟩, hbefore⟩
          · rw [List.length_cons, Nat.add_comm before.length, Nat.add_assoc]
  · rintro ⟨before, bad, after, rfl, hbefore, hbad, rfl⟩
    induction before generalizing n with
    | nil => exact readFields_of_none hbad n after
    | cons field before ih =>
      obtain ⟨⟨value, hfield⟩, hrest⟩ := List.forall_mem_cons.1 hbefore
      rw [List.cons_append, readFields_of_some hfield, ih hrest, List.length_cons,
        Nat.add_comm before.length, Nat.add_assoc]
      rfl

end Fields

theorem readFinite?_eq_some_iff {field : List Char} {x : Binary64} :
    readFinite? field = some x ↔ HoldsReal field x := by
  rw [readFinite?, Option.filter_eq_some_iff]
  rfl

/-! ### Reading rows -/

section Binding

variable {ε α β : Type} {x : Except ε α} {f : α → Except ε β}

theorem bind_eq_ok_iff {b : β} : (x >>= f) = .ok b ↔ ∃ a, x = .ok a ∧ f a = .ok b := by
  cases x <;> simp [bind, Except.bind]

theorem bind_eq_error_iff {e : ε} :
    (x >>= f) = .error e ↔ x = .error e ∨ ∃ a, x = .ok a ∧ f a = .error e := by
  cases x <;> simp [bind, Except.bind]

end Binding

/-- The values of the row that stands among the given ones, if it does. -/
def valuesAt {α : Type} (rows : List (Option (List (List Char)))) (row : Row)
    (read : List Char → Option α) : Except RowError (List α) :=
  match rows[row.index]? with
  | none => .error (.absent row)
  | some fields => readFields row (expected row) read 1 (fields.getD [])

/-- The rows are read one after the other. -/
theorem readRows_eq (rows : List (Option (List (List Char)))) : readRows rows = do
    let timeProfiles ← valuesAt rows .timeProfiles Bucket.read?
    let totalCounts ← valuesAt rows .totalCounts readFinite?
    let timeStdevs ← valuesAt rows .timeStdevs readFinite?
    return { timeProfiles, totalCounts, timeStdevs } := by
  match rows with
  | [] => rfl
  | [_] => rfl
  | [_, _] => rfl
  | _ :: _ :: _ :: _ => rfl

/-- The rows are those of the first three lines. -/
def RowsOf (lines : List (List Char)) (rows : List (Option (List (List Char)))) : Prop :=
  ∀ row : Row, rows[row.index]?.map (·.getD []) = lines[row.index]?.map lineFields

section Rows

variable {α : Type} {lines : List (List Char)} {rows : List (Option (List (List Char)))} {row : Row}
  {read : List Char → Option α}

theorem valuesAt_eq_ok_iff (h : RowsOf lines rows) {values : List α} :
    valuesAt rows row read = .ok values ↔ ∃ line, lines[row.index]? = some line ∧
      List.Forall₂ (fun field value => read field = some value) (lineFields line) values := by
  have hrow := h row
  unfold valuesAt
  cases hfields : rows[row.index]? with
  | none =>
    rw [hfields, Option.map_none, eq_comm, Option.map_eq_none_iff] at hrow
    simp [hrow]
  | some fields =>
    rw [hfields, Option.map_some, eq_comm, Option.map_eq_some_iff] at hrow
    obtain ⟨line, hline, hgetD⟩ := hrow
    simp only [← hgetD, hline, readFields_eq_ok_iff, Option.some.injEq, exists_eq_left']

theorem valuesAt_eq_error_iff (h : RowsOf lines rows)
    (hread : ∀ field, Reads field row ↔ ∃ value, read field = some value) {e : RowError} :
    valuesAt rows row read = .error e ↔ RowFault lines row e := by
  have hrow := h row
  have hfails : ∀ field, ¬Reads field row ↔ read field = none := fun field => by
    rw [hread, Option.eq_none_iff_forall_ne_some, not_exists]
  unfold valuesAt
  cases hfields : rows[row.index]? with
  | none =>
    rw [hfields, Option.map_none, eq_comm, Option.map_eq_none_iff] at hrow
    constructor
    · intro he
      obtain rfl := Except.error.inj he
      exact .absent hrow
    · intro hfault
      cases hfault with
      | absent => rfl
      | malformed present =>
        rw [hrow] at present
        cases present
  | some fields =>
    rw [hfields, Option.map_some, eq_comm, Option.map_eq_some_iff] at hrow
    obtain ⟨line, hline, hgetD⟩ := hrow
    show readFields row (expected row) read 1 (fields.getD []) = .error e ↔ _
    rw [← hgetD, readFields_eq_error_iff]
    constructor
    · rintro ⟨before, field, after, hsplit, hbefore, hbad, rfl⟩
      rw [Nat.add_comm]
      exact .malformed hline hsplit (fun f hf => (hread f).2 (hbefore f hf)) ((hfails field).2 hbad)
    · intro hfault
      cases hfault with
      | absent missing =>
        rw [hline] at missing
        cases missing
      | @malformed line' field before after present hsplit hreads hbad =>
        obtain rfl := Option.some.inj (hline.symm.trans present)
        exact ⟨before, field, after, hsplit, fun f hf => (hread f).1 (hreads f hf),
          (hfails field).1 hbad, by rw [Nat.add_comm]⟩

end Rows

theorem reads_timeProfiles_iff (field : List Char) :
    Reads field .timeProfiles ↔ ∃ b, Bucket.read? field = some b := by
  simp only [Reads, Bucket.read?_eq_some_iff]

theorem reads_totalCounts_iff (field : List Char) :
    Reads field .totalCounts ↔ ∃ x, readFinite? field = some x := by
  simp only [Reads, readFinite?_eq_some_iff]

theorem reads_timeStdevs_iff (field : List Char) :
    Reads field .timeStdevs ↔ ∃ x, readFinite? field = some x := by
  simp only [Reads, readFinite?_eq_some_iff]

section Record

variable {lines : List (List Char)} {rows : List (Option (List (List Char)))}

/-- **Rows give a record whose values are those of their fields.** -/
theorem readRows_eq_ok_iff (h : RowsOf lines rows) (hsound : AllSound 0 lines) {r : Record} :
    readRows rows = .ok r ↔ Denotes lines r := by
  have hbucket : (fun field b => Bucket.read? field = some b) =
      fun field b => Decimal.IsInteger field b.value :=
    funext fun field => funext fun b => propext Bucket.read?_eq_some_iff
  have hreal : (fun field x => readFinite? field = some x) = HoldsReal :=
    funext fun field => funext fun x => propext readFinite?_eq_some_iff
  simp only [readRows_eq, bind_eq_ok_iff, valuesAt_eq_ok_iff h, hbucket, hreal]
  constructor
  · rintro ⟨profiles, hprofiles, counts, hcounts, stdevs, hstdevs, hr⟩
    obtain rfl := Except.ok.inj hr
    exact ⟨hsound, hprofiles, hcounts, hstdevs⟩
  · rintro ⟨-, hprofiles, hcounts, hstdevs⟩
    exact ⟨_, hprofiles, _, hcounts, _, hstdevs, rfl⟩

/-- A row that is not at fault has values. -/
theorem exists_valuesAt {α : Type} {read : List Char → Option α} {row : Row}
    (hrow : ∀ e, valuesAt rows row read = .error e ↔ RowFault lines row e)
    (hgood : ∀ e, ¬RowFault lines row e) : ∃ values, valuesAt rows row read = .ok values := by
  cases hvalues : valuesAt rows row read with
  | error e => exact absurd ((hrow e).1 hvalues) (hgood e)
  | ok values => exact ⟨values, rfl⟩

theorem not_rowFault_of_ok {α : Type} {read : List Char → Option α} {row : Row} {values : List α}
    (hrow : ∀ e, valuesAt rows row read = .error e ↔ RowFault lines row e)
    (hvalues : valuesAt rows row read = .ok values) (e : RowError) : ¬RowFault lines row e := by
  intro hbad
  rw [(hrow e).2 hbad] at hvalues
  cases hvalues

/-- **Rows are refused for the first of them that is at fault.** -/
theorem readRows_eq_error_iff (h : RowsOf lines rows) {e : RowError} :
    readRows rows = .error e ↔ ∃ row, RowFault lines row e ∧
      ∀ row' e', row'.index < row.index → ¬RowFault lines row' e' := by
  have hprofiles := fun e => valuesAt_eq_error_iff (e := e) h reads_timeProfiles_iff
  have hcounts := fun e => valuesAt_eq_error_iff (e := e) h reads_totalCounts_iff
  have hstdevs := fun e => valuesAt_eq_error_iff (e := e) h reads_timeStdevs_iff
  rw [readRows_eq, bind_eq_error_iff, hprofiles]
  constructor
  · rintro (hfault | ⟨profiles, hp, hrest⟩)
    · exact ⟨.timeProfiles, hfault, fun row' e' hlt => absurd hlt (Nat.not_lt_zero _)⟩
    have hfirst := not_rowFault_of_ok hprofiles hp
    rw [bind_eq_error_iff, hcounts] at hrest
    rcases hrest with hfault | ⟨counts, hc, hrest⟩
    · refine ⟨.totalCounts, hfault, fun row' e' hlt => ?_⟩
      cases row' with
      | timeProfiles => exact hfirst e'
      | totalCounts | timeStdevs => exact absurd hlt (by decide)
    have hsecond := not_rowFault_of_ok hcounts hc
    rw [bind_eq_error_iff, hstdevs] at hrest
    rcases hrest with hfault | ⟨stdevs, hs, hrest⟩
    · refine ⟨.timeStdevs, hfault, fun row' e' hlt => ?_⟩
      cases row' with
      | timeProfiles => exact hfirst e'
      | totalCounts => exact hsecond e'
      | timeStdevs => exact absurd hlt (by decide)
    · cases hrest
  · rintro ⟨row, hfault, hfirst⟩
    cases row with
    | timeProfiles => exact Or.inl hfault
    | totalCounts =>
      obtain ⟨profiles, hp⟩ := exists_valuesAt hprofiles fun e' => hfirst .timeProfiles e' (by decide)
      exact Or.inr ⟨profiles, hp, bind_eq_error_iff.2 (Or.inl ((hcounts e).2 hfault))⟩
    | timeStdevs =>
      obtain ⟨profiles, hp⟩ := exists_valuesAt hprofiles fun e' => hfirst .timeProfiles e' (by decide)
      obtain ⟨counts, hc⟩ := exists_valuesAt hcounts fun e' => hfirst .totalCounts e' (by decide)
      exact Or.inr ⟨profiles, hp, bind_eq_error_iff.2 (Or.inr ⟨counts, hc,
        bind_eq_error_iff.2 (Or.inl ((hstdevs e).2 hfault))⟩)⟩

end Record

/-! ### Reading texts -/

theorem rowsOf_take {lines : List (List Char)} {rows : List (Option (List (List Char)))}
    (h : rows.map (·.getD []) = (lines.take 3).map lineFields) : RowsOf lines rows := by
  intro row
  rw [← List.getElem?_map, h, List.getElem?_map, List.getElem?_take]
  cases row <;> rfl

/-- A text of sound lines is refused only for its rows. -/
theorem parse_of_sound {text : String} (h : IsPlain text.toList)
    (hsound : AllSound 0 (lines text.toList)) :
    ∃ rows, RowsOf (lines text.toList) rows ∧ parse text = (readRows rows).mapError .row := by
  obtain ⟨rows, hrows, hfields⟩ := readLines_of_sound (fun _ hline => h.lines hline) hsound
  refine ⟨rows, rowsOf_take hfields, ?_⟩
  rw [parse, hrows]
  rfl

theorem parse_of_unsound {text : String} (h : IsPlain text.toList) {before after : List (List Char)}
    {line : List Char} (hsplit : lines text.toList = before ++ line :: after)
    (hsound : AllSound 0 before) (hline : ¬IsSound before.length line) :
    parse text = .error (lineFault before.length) := by
  have hplain : ∀ other ∈ before ++ line :: after, IsPlain other := fun other hother =>
    h.lines (hsplit ▸ hother)
  have hread := readLines_of_unsound (n := 0) hplain hsound (by rwa [Nat.zero_add])
  rw [parse, hsplit, hread, Nat.zero_add]
  rfl

theorem not_allSound_of_unsound {before after : List (List Char)} {line : List Char}
    (hline : ¬IsSound before.length line) : ¬AllSound 0 (before ++ line :: after) := fun hsound => by
  have hall := hsound before.length line (by simp)
  rw [Nat.zero_add] at hall
  exact hline hall

/-- **The grammar of a record.**  A text without double quotes and byte-order marks is read as
a record exactly if its lines denote that record, and refused with an error exactly if that is
what is wrong with its lines. -/
theorem parse_grammar (text : String) (hquote : '"' ∉ text.toList) (hmark : '\uFEFF' ∉ text.toList) :
    (∀ r, parse text = .ok r ↔ Denotes (lines text.toList) r) ∧
      ∀ e, parse text = .error e ↔ IsFault (lines text.toList) e := by
  have hplain : IsPlain text.toList := ⟨hquote, hmark⟩
  rcases sound_or_unsound 0 (lines text.toList) with
    hsound | ⟨before, line, after, hsplit, hbefore, hline⟩
  · obtain ⟨rows, hrows, hparse⟩ := parse_of_sound hplain hsound
    have hok : ∀ r, parse text = .ok r ↔ readRows rows = .ok r := fun r => by
      rw [hparse]
      cases readRows rows <;> simp [Except.mapError]
    have herror : ∀ e, parse text = .error e ↔
        ∃ cause, readRows rows = .error cause ∧ .row cause = e := fun e => by
      rw [hparse]
      cases readRows rows <;> simp [Except.mapError]
    refine ⟨fun r => (hok r).trans (readRows_eq_ok_iff hrows hsound), fun e => (herror e).trans ?_⟩
    constructor
    · rintro ⟨cause, hcause, rfl⟩
      obtain ⟨row, hfault, hfirst⟩ := (readRows_eq_error_iff hrows).1 hcause
      exact .row hsound hfault hfirst
    · intro hfault
      cases hfault with
      | line hsplit _ hline => exact absurd (hsplit ▸ hsound) (not_allSound_of_unsound hline)
      | @row row cause _ hfault hfirst =>
        exact ⟨cause, (readRows_eq_error_iff hrows).2 ⟨row, hfault, hfirst⟩, rfl⟩
  · rw [Nat.zero_add] at hline
    have hparse := parse_of_unsound hplain hsplit hbefore hline
    have hunsound : ¬AllSound 0 (lines text.toList) := hsplit ▸ not_allSound_of_unsound hline
    refine ⟨fun r => ⟨fun hr => ?_, fun hr => absurd hr.sound hunsound⟩, fun e => ⟨fun he => ?_, ?_⟩⟩
    · rw [hparse] at hr
      cases hr
    · rw [hparse] at he
      obtain rfl := Except.error.inj he
      exact .line hsplit hbefore hline
    · intro hfault
      cases hfault with
      | line hsplit hsound hline => exact parse_of_unsound hplain hsplit hsound hline
      | row hsound => exact absurd hsound hunsound

/-- A carriage return before a blank piece, blanks around the fields, a sign, and blank lines
at the end. -/
theorem parse_grammar_blanks :
    let text := "+1 ,\t-2\r \n\n 0.5 \r\n \n"
    '"' ∉ text.toList ∧ '\uFEFF' ∉ text.toList ∧
    (∀ r, parse text = .ok r ↔ Denotes (lines text.toList) r) ∧
    ∀ e, parse text = .error e ↔ IsFault (lines text.toList) e := by
  intro text
  have hquote : '"' ∉ text.toList := by decide
  have hmark : '\uFEFF' ∉ text.toList := by decide
  exact ⟨hquote, hmark, parse_grammar text hquote hmark⟩

/-- Of several faults the first line that is split counts, not the field before it. -/
example : parse "x\n1\r2\n\n3\n" = .error (.splitRow 2) := by decide

end RowFormat
end Rollup
