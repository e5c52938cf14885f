/-
# Written reals read back

A real is written as a sign and a layout of decimal digits.  Reading splits the
text again: a run of digits ends where something else comes (`spanDigits_append`),
so the digits before and behind the point and the exponent are found
(`readUnsigned?_point`, `readUnsigned?_whole`).  Both forms of a layout put the
point where the exponent of the number says, up to added zeros, so a decimal number
keeps its double (`readUnsigned?_writeScientific`).  With the shortest decimal of a
finite double that gives the double itself (`readReal?_writeReal`), the sign of
zero included; the words for the other doubles read as something that is not finite
(`readReal?_writeReal_of_not_finite`).
-/

import Mathlib.Data.List.TakeDrop
import Rollup.Decimal.Layout
import Rollup.Proofs.Decimal.Nearest

namespace Rollup
namespace Decimal

variable {w f t : List Char} {e : Int}

/-- The text goes on with something other than a digit, if at all. -/
def EndsDigits (t : List Char) : Prop := ∀ c, t.head? = some c → c.isDigit = false

theorem endsDigits_nil : EndsDigits [] := fun _ h => by simp at h

theorem endsDigits_cons {c : Char} (h : c.isDigit = false) : EndsDigits (c :: t) :=
  fun d hd => by simp only [List.head?_cons, Option.some.injEq] at hd; exact hd ▸ h

theorem spanDigits_append {s : List Char} (hs : ∀ c ∈ s, c.isDigit = true) (ht : EndsDigits t) :
    spanDigits (s ++ t) = (s, t) := by
  have hstop : t.takeWhile Char.isDigit = [] ∧ t.dropWhile Char.isDigit = t := by
    cases t with
    | nil => exact ⟨rfl, rfl⟩
    | cons c t => simp [ht c rfl]
  rw [spanDigits, List.span_eq_takeWhile_dropWhile, List.takeWhile_append_of_pos hs,
    List.dropWhile_append_of_pos hs, hstop.1, hstop.2, List.append_nil]

theorem isDigit_of_isDigits {s : List Char} (h : isDigits s) : ∀ c ∈ s, c.isDigit = true := by
  simp only [isDigits, Bool.and_eq_true, List.all_eq_true] at h
  exact h.2

theorem ne_nil_of_isDigits {s : List Char} (h : isDigits s) : s ≠ [] := by
  rintro rfl
  simp [isDigits] at h

/-- A number with a point. -/
theorem readUnsigned?_point (negative : Bool) (hw : isDigits w)
    (hf : ∀ c ∈ f, c.isDigit = true) (ht : EndsDigits t)
    (he : readExponent? t = some e) :
    readUnsigned? negative (w ++ '.' :: (f ++ t)) =
      some (toBinary64 negative (value (w ++ f)) (e - f.length)) := by
  have hspan : spanDigits (w ++ '.' :: (f ++ t)) = (w, '.' :: (f ++ t)) :=
    spanDigits_append (isDigit_of_isDigits hw) (endsDigits_cons (by decide))
  unfold readUnsigned?
  simp only [hspan, spanDigits_append hf ht, he, Option.map_some]
  rw [if_neg]
  simp [ne_nil_of_isDigits hw]

/-- A number without a point. -/
theorem readUnsigned?_whole (negative : Bool) (hw : isDigits w) (ht : EndsDigits t)
    (hp : t.head? ≠ some '.') (he : readExponent? t = some e) :
    readUnsigned? negative (w ++ t) = some (toBinary64 negative (value w) e) := by
  unfold readUnsigned?
  simp only [spanDigits_append (isDigit_of_isDigits hw) ht]
  split
  · rename_i rest
    exact absurd rfl hp
  · simp [he, ne_nil_of_isDigits hw]

/-- The exponent that `exponential` writes. -/
theorem readExponent?_exponent (plus : Bool) (place : Int) :
    readExponent? ('e' :: ((if plus && 0 < place then ['+'] else []) ++ writeInt (place - 1))) =
      some (place - 1) := by
  unfold readExponent?
  by_cases hplus : plus = true ∧ 0 < place
  · have hnat : writeInt (place - 1) = writeNat (place - 1).natAbs := by
      rw [writeInt, if_neg (by omega)]
    simp only [hplus.1, hplus.2, decide_true, Bool.and_self, if_true, hnat, List.singleton_append,
      Bool.true_or, readInt?, readNat?_writeNat, Option.map_some, Option.some.injEq]
    show ((place - 1).natAbs : Int) = place - 1
    omega
  · have hnone : (plus && decide (0 < place)) = false := by
      cases plus with
      | false => rfl
      | true => simpa using hplus
    simp [hnone]

theorem value_writeNat (n : Nat) : value (writeNat n) = n := Nat.ofDigitChars_ten_toDigits

theorem value_append_zeros (s : List Char) (k : Nat) :
    value (s ++ List.replicate k '0') = value s * 10 ^ k := by
  rw [value, Nat.ofDigitChars_append, Nat.ofDigitChars_replicate_zero, Nat.mul_comm, value]

theorem value_zeros_append (k : Nat) (s : List Char) :
    value (List.replicate k '0' ++ s) = value s := by
  rw [value, Nat.ofDigitChars_append, Nat.ofDigitChars_replicate_zero, Nat.mul_zero, value]

theorem isDigits_writeNat_append_zeros (n k : Nat) :
    isDigits (writeNat n ++ List.replicate k '0') := by
  have hn := isDigits_writeNat n
  simp only [isDigits, Bool.and_eq_true, List.all_eq_true, Bool.not_eq_true',
    List.isEmpty_eq_false_iff] at hn ⊢
  refine ⟨by simp [hn.1], fun c hc => ?_⟩
  rcases List.mem_append.1 hc with hc | hc
  · exact hn.2 c hc
  · rw [(List.mem_replicate.1 hc).2]
    decide

/-- **Positional notation keeps the number.** -/
theorem readUnsigned?_positional (negative : Bool) (s : Scientific) :
    readUnsigned? negative (positional (writeNat s.digits) s.place) =
      some (toBinary64 negative s.digits s.exponent) := by
  have hlen : (writeNat s.digits).length = length s.digits := rfl
  have hplace : s.place = s.exponent + length s.digits := rfl
  have hdigit : ∀ c ∈ writeNat s.digits, c.isDigit = true := fun c hc => isDigit_of_mem_writeNat hc
  unfold positional
  split
  · -- The digits stand behind the point, after zeros.
    have hfraction : ∀ c ∈ zeros (-s.place) ++ writeNat s.digits, c.isDigit = true := by
      intro c hc
      rcases List.mem_append.1 hc with hc | hc
      · rw [(List.mem_replicate.1 hc).2]; decide
      · exact hdigit c hc
    have := readUnsigned?_point (w := ['0']) (e := 0) negative (by decide) hfraction endsDigits_nil rfl
    rw [List.append_nil] at this
    refine this.trans (congrArg some ?_)
    have hvalue : value (['0'] ++ (zeros (-s.place) ++ writeNat s.digits)) = s.digits := by
      rw [← List.append_assoc, show ['0'] ++ zeros (-s.place) =
        List.replicate ((-s.place).toNat + 1) '0' from rfl, value_zeros_append, value_writeNat]
    rw [hvalue]
    congr 1
    simp only [zeros, List.length_append, List.length_replicate, hlen]
    omega
  split
  · -- All digits stand before the point, and zeros follow them.
    rename_i _ hwhole
    rw [hlen] at hwhole ⊢
    have := readUnsigned?_point (f := ['0']) (e := 0) negative
      (isDigits_writeNat_append_zeros s.digits (s.place - length s.digits).toNat)
      (by simp) endsDigits_nil rfl
    rw [List.append_nil] at this
    refine this.trans (congrArg some ?_)
    have hvalue : value (writeNat s.digits ++ List.replicate (s.place - length s.digits).toNat '0' ++
        ['0']) = s.digits * 10 ^ ((s.place - length s.digits).toNat + 1) := by
      rw [List.append_assoc, ← List.replicate_succ', value_append_zeros, value_writeNat]
    have hexp : (0 : Int) - (['0'] : List Char).length =
        s.exponent - ((s.place - length s.digits).toNat + 1 : Nat) := by
      rw [List.length_singleton]; omega
    rw [hvalue, hexp, toBinary64_mul_pow]
  · -- The point stands among the digits.
    rename_i hpos hshort
    rw [hlen] at hshort
    have hlt : s.place.toNat < (writeNat s.digits).length := by omega
    have htake : isDigits ((writeNat s.digits).take s.place.toNat) := by
      have hne : (writeNat s.digits).take s.place.toNat ≠ [] := by
        rw [Ne, List.take_eq_nil_iff]
        have := isDigits_writeNat s.digits
        refine fun h => h.elim (by omega) (ne_nil_of_isDigits this)
      simp only [isDigits, Bool.and_eq_true, List.all_eq_true, Bool.not_eq_true',
        List.isEmpty_eq_false_iff]
      exact ⟨hne, fun c hc => hdigit c (List.mem_of_mem_take hc)⟩
    have := readUnsigned?_point (f := (writeNat s.digits).drop s.place.toNat) (e := 0)
      negative htake (fun c hc => hdigit c (List.mem_of_mem_drop hc)) endsDigits_nil rfl
    rw [List.append_nil] at this
    refine this.trans (congrArg some ?_)
    rw [List.take_append_drop, value_writeNat]
    congr 1
    rw [List.length_drop, hlen]
    omega

/-- **Exponential notation keeps the number.** -/
theorem readUnsigned?_exponential (negative plus : Bool) (s : Scientific) :
    readUnsigned? negative (exponential plus (writeNat s.digits) s.place) =
      some (toBinary64 negative s.digits s.exponent) := by
  have hplace : s.place = s.exponent + (writeNat s.digits).length := rfl
  have hdigits := isDigits_writeNat s.digits
  have he := readExponent?_exponent plus s.place
  have hvalue := value_writeNat s.digits
  unfold exponential
  rw [List.append_assoc]
  revert hplace hdigits hvalue
  generalize writeNat s.digits = digits
  intro hplace hdigits hvalue
  match digits, hplace, hdigits, hvalue with
  | [d], hplace, hdigits, hvalue =>
    refine (readUnsigned?_whole negative hdigits (endsDigits_cons (by decide)) (by simp) he).trans
      (congrArg some ?_)
    rw [hvalue]
    congr 1
    rw [hplace, List.length_singleton]
    omega
  | d :: c :: rest, hplace, hdigits, hvalue =>
    have hall := isDigit_of_isDigits hdigits
    have hd : isDigits [d] := by simp [isDigits, hall d]
    have := readUnsigned?_point (f := c :: rest) negative hd
      (fun x hx => hall x (List.mem_cons_of_mem _ hx)) (endsDigits_cons (by decide)) he
    refine this.trans (congrArg some ?_)
    rw [List.singleton_append, hvalue]
    congr 1
    rw [hplace, List.length_cons]
    omega

theorem readUnsigned?_writeScientific (negative : Bool) (l : Layout) (s : Scientific) :
    readUnsigned? negative (l.writeScientific s) =
      some (toBinary64 negative s.digits s.exponent) := by
  unfold Layout.writeScientific
  split
  · exact readUnsigned?_positional negative s
  · exact readUnsigned?_exponential negative l.plus s

/-- A number begins with a digit or a point. -/
theorem head_of_readUnsigned? {negative : Bool} {s : List Char} {x : Binary64}
    (h : readUnsigned? negative s = some x) : ∃ c t, s = c :: t ∧ (c.isDigit = true ∨ c = '.') := by
  cases s with
  | nil => simp [readUnsigned?, spanDigits] at h
  | cons c t =>
    refine ⟨c, t, rfl, ?_⟩
    by_cases hc : c.isDigit = true
    · exact Or.inl hc
    · have hspan : spanDigits (c :: t) = ([], c :: t) :=
        spanDigits_append (s := []) (by simp) (endsDigits_cons (by simpa using hc))
      by_cases hp : c = '.'
      · exact Or.inr hp
      · unfold readUnsigned? at h
        rw [hspan] at h
        simp [hp] at h

/-- What begins like a number is none of the special words. -/
theorem readMagnitude?_of_readUnsigned? {negative : Bool} {s : List Char} {x : Binary64}
    (h : readUnsigned? negative s = some x) : readMagnitude? negative s = some x := by
  obtain ⟨c, t, rfl, hc⟩ := head_of_readUnsigned? h
  have hlower : c.toLower = c := by
    rcases hc with hc | rfl
    · have hrange : c.val ≤ 57 := by simp [Char.isDigit] at hc; exact hc.2
      unfold Char.toLower
      rw [dif_neg]
      intro hup
      have := UInt32.le_trans hup.1 hrange
      exact absurd this (by decide)
    · rfl
  have hword : ∀ w : List Char, w.head? = some 'i' ∨ w.head? = some 'n' →
      String.ofList ((c :: t).map Char.toLower) ≠ String.ofList w := by
    intro w hw heq
    have hlist : c.toLower :: t.map Char.toLower = w := String.ofList_injective heq
    rw [← hlist, List.head?_cons, hlower] at hw
    rcases hw with hw | hw <;> obtain rfl := Option.some.inj hw <;> rcases hc with hc | hc <;>
      revert hc <;> decide
  have hinf : String.ofList ((c :: t).map Char.toLower) ≠ "inf" := hword ['i', 'n', 'f'] (Or.inl rfl)
  have hinfinity : String.ofList ((c :: t).map Char.toLower) ≠ "infinity" :=
    hword ['i', 'n', 'f', 'i', 'n', 'i', 't', 'y'] (Or.inl rfl)
  have hnan : String.ofList ((c :: t).map Char.toLower) ≠ "nan" := hword ['n', 'a', 'n'] (Or.inr rfl)
  unfold readMagnitude?
  simp only [hinf, hinfinity, hnan, decide_false, Bool.or_self, Bool.false_eq_true, if_false, h]

theorem readReal?_sign {negative : Bool} {s : List Char} {x : Binary64}
    (h : readUnsigned? negative s = some x) : readReal? (sign negative ++ s) = some x := by
  have hmag := readMagnitude?_of_readUnsigned? h
  cases negative with
  | true => exact hmag
  | false =>
    obtain ⟨c, t, rfl, hc⟩ := head_of_readUnsigned? h
    have hminus : c ≠ '-' := by rintro rfl; simp at hc
    have hplus : c ≠ '+' := by rintro rfl; simp at hc
    show readReal? (c :: t) = some x
    unfold readReal?
    split
    · rename_i heq; exact absurd (List.cons.inj heq).1 hminus
    · rename_i heq; exact absurd (List.cons.inj heq).1 hplus
    · exact hmag

/-- Only the zeros have no units. -/
theorem eq_zero_of_units {x : Binary64} (h : x.units = 0) : x = Binary64.zero x.negative := by
  obtain ⟨negative, m, hm⟩ := x
  have hzero : m = 0 := by
    unfold Binary64.units Binary64.unitsOf at h
    split at h
    · exact h
    · have hpos := Nat.two_pow_pos (m / 2 ^ 52 - 1)
      rcases Nat.mul_eq_zero.1 h with h | h
      · omega
      · exact absurd h (Nat.ne_of_gt hpos)
  subst hzero
  rfl

theorem readUnsigned?_writeMagnitude (l : Layout) {x : Binary64} (hx : x.isFinite) :
    readUnsigned? x.negative (l.writeMagnitude x) = some x := by
  unfold Layout.writeMagnitude
  split
  · rename_i hzero
    have := readUnsigned?_point (w := ['0']) (f := ['0']) (e := 0) x.negative (by decide)
      (by simp) endsDigits_nil rfl
    refine this.trans (congrArg some ?_)
    rw [show value (['0'] ++ ['0']) = 0 from rfl, eq_zero_of_units hzero]
    rfl
  · rename_i hunits
    rw [readUnsigned?_writeScientific]
    exact congrArg some (by simpa [Scientific.readsAs] using readsAs_shortest l.tie hx hunits)

theorem isNaN_eq_false {x : Binary64} (hx : x.isFinite) : x.isNaN = false := by
  simp only [Binary64.isFinite, Binary64.isNaN, decide_eq_true_eq, decide_eq_false_iff_not] at hx ⊢
  omega

/-- **A written real reads back**, bit for bit. -/
theorem readReal?_writeReal {x : Binary64} (hx : x.isFinite) : readReal? (writeReal x) = some x := by
  unfold writeReal writeWith
  rw [isNaN_eq_false hx, if_neg Bool.false_ne_true, if_pos hx]
  exact readReal?_sign (readUnsigned?_writeMagnitude Layout.record hx)

/-- What is written for any other double reads as something that is not finite. -/
theorem readReal?_writeReal_of_not_finite {x : Binary64} (hx : x.isFinite = false) :
    ∃ y, readReal? (writeReal x) = some y ∧ y.isFinite = false := by
  unfold writeReal writeWith
  split
  · exact ⟨Binary64.nan, by decide, by decide⟩
  · refine ⟨Binary64.inf x.negative, ?_, by cases x.negative <;> decide⟩
    rw [hx, if_neg Bool.false_ne_true]
    cases x.negative <;> decide

/-! ### Characters of written numbers -/

/-- Letters, digits, points and signs, of which written numbers consist. -/
def isNumeral (c : Char) : Bool := c.isAlphanum || c == '.' || c == '-' || c == '+'

theorem isNumeral_of_isDigit {c : Char} (h : c.isDigit = true) : isNumeral c := by
  simp [isNumeral, Char.isAlphanum, h]

theorem all_isNumeral_of_isDigit {s : List Char} (h : ∀ c ∈ s, c.isDigit = true) :
    s.all isNumeral :=
  List.all_eq_true.2 fun c hc => isNumeral_of_isDigit (h c hc)

theorem all_isNumeral_writeNat (n : Nat) : (writeNat n).all isNumeral :=
  all_isNumeral_of_isDigit fun _ hc => isDigit_of_mem_writeNat hc

theorem all_isNumeral_writeInt (i : Int) : (writeInt i).all isNumeral := by
  unfold writeInt
  split
  · rw [List.all_cons, all_isNumeral_writeNat]; decide
  · exact all_isNumeral_writeNat _

theorem all_isNumeral_zeros (n : Int) : (zeros n).all isNumeral := by
  refine List.all_eq_true.2 fun c hc => ?_
  rw [(List.mem_replicate.1 hc).2]
  decide

theorem all_isNumeral_positional {digits : List Char} (h : digits.all isNumeral) (place : Int) :
    (positional digits place).all isNumeral := by
  rw [List.all_eq_true] at h
  have hnumeral : isNumeral '0' = true ∧ isNumeral '.' = true := by decide
  unfold positional
  split
  · simp only [List.all_append, List.all_cons, hnumeral, all_isNumeral_zeros, Bool.true_and]
    exact List.all_eq_true.2 h
  split
  · simp only [List.all_append, List.all_cons, List.all_nil, hnumeral, all_isNumeral_zeros,
      Bool.and_true]
    exact List.all_eq_true.2 h
  · simp only [List.all_append, List.all_cons, hnumeral, Bool.true_and, Bool.and_eq_true,
      List.all_eq_true]
    exact ⟨fun c hc => h c (List.mem_of_mem_take hc), fun c hc => h c (List.mem_of_mem_drop hc)⟩

theorem all_isNumeral_exponential {digits : List Char} (h : digits.all isNumeral) (plus : Bool)
    (place : Int) : (exponential plus digits place).all isNumeral := by
  have hnumeral : isNumeral '.' = true ∧ isNumeral 'e' = true ∧ isNumeral '+' = true := by decide
  have hplus : (if plus && 0 < place then ['+'] else []).all isNumeral = true := by
    split <;> simp [hnumeral]
  unfold exponential
  simp only [List.all_append, List.all_cons, hnumeral, hplus, all_isNumeral_writeInt, Bool.and_true]
  split
  · exact h
  · exact h
  · simp only [List.all_cons, hnumeral, Bool.true_and] at h ⊢
    exact h

/-- **A written real has no comma, quote, blank or line break**, finite or not. -/
theorem all_isNumeral_writeReal (x : Binary64) : (writeReal x).all isNumeral := by
  unfold writeReal writeWith
  split
  · decide
  · have hsign : (sign x.negative).all isNumeral = true := by cases x.negative <;> decide
    rw [List.all_append, hsign, Bool.true_and]
    split
    · unfold Layout.writeMagnitude Layout.writeScientific
      split
      · decide
      split
      · exact all_isNumeral_positional (all_isNumeral_writeNat _) _
      · exact all_isNumeral_exponential (all_isNumeral_writeNat _) _ _
    · decide

theorem writeReal_ne_nil (x : Binary64) : writeReal x ≠ [] := by
  have hread : ∃ y, readReal? (writeReal x) = some y := by
    cases hx : x.isFinite with
    | true => exact ⟨x, readReal?_writeReal hx⟩
    | false => exact (readReal?_writeReal_of_not_finite hx).imp fun _ h => h.1
  intro h
  rw [h, show readReal? [] = none from rfl] at hread
  simp at hread

end Decimal
end Rollup
