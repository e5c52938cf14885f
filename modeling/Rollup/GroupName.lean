/-
# Names of groups

A group has the name of the file that holds its aggregate, so the empty text,
`.`, `..` and texts with a slash or a backslash name no group (`isUsable`).  A
published file belongs to the group before the last underscore of its name.
-/

import Rollup.Text.Quoted

namespace Rollup

/-- Why a name yields no group. -/
inductive NameError where
  /-- The file name has no underscore. -/
  | missingSuffix (file : String)
  /-- Nothing stands before the underscore, or the name is empty. -/
  | emptyGroup (name : String)
  | invalidGroup (group : String)
  deriving DecidableEq, Repr

def NameError.message : NameError → String
  | .missingSuffix file => "file name " ++ Text.quoted file ++ " has no `_<suffix>` segment"
  | .emptyGroup name => "file name " ++ Text.quoted name ++ " yields an empty group"
  | .invalidGroup group => "group " ++ Text.quoted group ++ " is not usable as a file name"

/-- Names a directory entry other than `.` and `..`, on its own. -/
def isUsableName (s : String) : Bool :=
  s != "" && s != "." && s != ".." && !s.contains '/' && !s.contains '\\'

/-- The name of a group. -/
structure GroupName where
  text : String
  usable : isUsableName text
  deriving DecidableEq, Repr

namespace GroupName

theorem ext_text {g h : GroupName} (e : g.text = h.text) : g = h := by
  cases g; cases h; cases e; rfl

/-- The group of that name. -/
def ofString (name : String) : Except NameError GroupName :=
  if name = "" then .error (.emptyGroup name)
  else if h : isUsableName name then .ok ⟨name, h⟩
  else .error (.invalidGroup name)

/-- The order of groups is the order of their names by bytes. -/
def compare (g h : GroupName) : Ordering := Utf8.compareText g.text h.text

instance : Std.TransCmp compare where
  eq_swap {g h} := @Std.OrientedCmp.eq_swap _ Utf8.compareText _ g.text h.text
  isLE_trans {g h k} := @Std.TransCmp.isLE_trans _ Utf8.compareText _ g.text h.text k.text

instance : Std.LawfulEqCmp compare where
  compare_self {g} := @Std.ReflCmp.compare_self _ Utf8.compareText _ g.text
  eq_of_compare h := ext_text (Std.LawfulEqCmp.eq_of_compare h)

/-- What stands before the last occurrence of `c`. -/
def beforeLast? (c : Char) : List Char → Option (List Char)
  | [] => none
  | d :: s =>
    match beforeLast? c s with
    | some t => some (d :: t)
    | none => if d = c then some [] else none

theorem beforeLast?_eq_none_iff {c : Char} {s : List Char} : beforeLast? c s = none ↔ c ∉ s := by
  induction s with
  | nil => simp [beforeLast?]
  | cons d s ih =>
    rw [beforeLast?]
    cases h : beforeLast? c s with
    | some t => simp_all
    | none =>
      have hs := ih.1 h
      by_cases hd : d = c
      · simp [hd]
      · simp [hd, Ne.symm hd, hs]

theorem beforeLast?_append {c : Char} {t u : List Char} (h : c ∉ u) :
    beforeLast? c (t ++ c :: u) = some t := by
  induction t with
  | nil => simp [beforeLast?, beforeLast?_eq_none_iff.2 h]
  | cons d t ih => simp [beforeLast?, ih]

theorem exists_of_beforeLast? {c : Char} {s t : List Char} (h : beforeLast? c s = some t) :
    ∃ u, s = t ++ c :: u ∧ c ∉ u := by
  induction s generalizing t with
  | nil => simp [beforeLast?] at h
  | cons d s ih =>
    rw [beforeLast?] at h
    cases hs : beforeLast? c s with
    | some t' =>
      rw [hs] at h
      obtain rfl := Option.some.inj h
      obtain ⟨u, rfl, hu⟩ := ih hs
      exact ⟨u, rfl, hu⟩
    | none =>
      rw [hs] at h
      by_cases hd : d = c
      · simp only [hd, if_true, Option.some.injEq] at h
        exact ⟨s, by simp [hd, ← h], beforeLast?_eq_none_iff.1 hs⟩
      · simp [hd] at h

/-- The group that a published file belongs to. -/
def ofFile (file : String) : Except NameError GroupName :=
  match beforeLast? '_' file.toList with
  | none => .error (.missingSuffix file)
  | some [] => .error (.emptyGroup file)
  | some group => ofString (String.ofList group)

end GroupName
end Rollup
