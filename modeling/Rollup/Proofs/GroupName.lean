/-
# The group of a file

The name of a published file is divided at its last underscore.  What stands before it is
the name of the group if it is usable, and each way in which there is no group has its own
error (`GroupName.Derives`, `GroupName.map_text_ofFile_eq_iff`).

A usable name is a plain component of a path (`GroupName.isPlain`): it holds no slash, and no
other character has the byte of a slash in its UTF-8 form.  So the aggregate of a group lies
in the directory of aggregates itself, whatever path that has, and different groups have
different files there (`GroupName.derived_and_confined`).
-/

import Rollup.Proofs.FileSystem.Components
import Rollup.Storage.Directory

namespace Rollup

/-! ### Bytes of characters -/

namespace Utf8

theorem encode_eq_flatMap (s : String) : encode s = s.toList.flatMap String.utf8EncodeChar := by
  have h : s.toByteArray = s.toList.utf8Encode := by
    rw [← String.toByteArray_ofList, String.ofList_toList]
  rw [encode, h, List.utf8Encode, List.data_toByteArray]

/-- The bytes of a character beyond ASCII are beyond ASCII. -/
theorem eq_of_mem_utf8EncodeChar {c d : Char} (hc : c.toNat < 128)
    (h : UInt8.ofNat c.toNat ∈ String.utf8EncodeChar d) : d = c := by
  have hbyte : ∀ n, UInt8.ofNat c.toNat = UInt8.ofNat n → c.toNat = n % 256 := by
    intro n hn
    have hsame := congrArg UInt8.toNat hn
    rw [UInt8.toNat_ofNat', UInt8.toNat_ofNat'] at hsame
    omega
  have hvalue : d.toNat = c.toNat := by
    show d.val.toNat = c.toNat
    unfold String.utf8EncodeChar at h
    simp only at h
    split at h
    · have hn := hbyte _ (List.mem_singleton.1 h)
      omega
    -- All other bytes are made by adding 128 or more.
    split at h
    · simp only [List.mem_cons, List.not_mem_nil, or_false] at h
      rcases h with h | h <;> have hn := hbyte _ h <;> omega
    split at h
    · simp only [List.mem_cons, List.not_mem_nil, or_false] at h
      rcases h with h | h | h <;> have hn := hbyte _ h <;> omega
    · simp only [List.mem_cons, List.not_mem_nil, or_false] at h
      rcases h with h | h | h | h <;> have hn := hbyte _ h <;> omega
  exact Char.toNat_inj.1 hvalue

/-- **An ASCII character occurs where its byte does.** -/
theorem mem_toList_of_mem_encode {c : Char} {s : String} (hc : c.toNat < 128)
    (h : UInt8.ofNat c.toNat ∈ encode s) : c ∈ s.toList := by
  rw [encode_eq_flatMap, List.mem_flatMap] at h
  obtain ⟨d, hd, hmem⟩ := h
  exact eq_of_mem_utf8EncodeChar hc hmem ▸ hd

end Utf8

/-! ### Names that are usable -/

/-- The text names an entry of a directory on its own. -/
structure IsUsable (text : String) : Prop where
  ne_empty : text ≠ ""
  ne_dot : text ≠ "."
  ne_dotDot : text ≠ ".."
  no_slash : '/' ∉ text.toList
  no_backslash : '\\' ∉ text.toList

theorem isUsableName_iff {text : String} : isUsableName text = true ↔ IsUsable text := by
  simp only [isUsableName, Bool.and_eq_true, bne_iff_ne, String.contains_char_eq,
    Bool.not_eq_true', decide_eq_false_iff_not]
  constructor
  · rintro ⟨⟨⟨⟨hne, hdot⟩, hup⟩, hslash⟩, hback⟩
    exact ⟨hne, hdot, hup, hslash, hback⟩
  · exact fun h => ⟨⟨⟨⟨h.ne_empty, h.ne_dot⟩, h.ne_dotDot⟩, h.no_slash⟩, h.no_backslash⟩

namespace GroupName

variable {name text suffix : String}

/-- What the name of a file says about its group, with the text that names the group. -/
inductive Derives (name : String) : Except NameError String → Prop
  | group {text suffix : String} (divided : name = text ++ "_" ++ suffix)
      (last : '_' ∉ suffix.toList) (usable : IsUsable text) : Derives name (.ok text)
  | missingSuffix (unmarked : '_' ∉ name.toList) : Derives name (.error (.missingSuffix name))
  | emptyGroup {suffix : String} (divided : name = "_" ++ suffix) (last : '_' ∉ suffix.toList) :
      Derives name (.error (.emptyGroup name))
  | invalidGroup {text suffix : String} (divided : name = text ++ "_" ++ suffix)
      (last : '_' ∉ suffix.toList) (named : text ≠ "") (unusable : ¬IsUsable text) :
      Derives name (.error (.invalidGroup text))

/-! ### Dividing a name -/

theorem beforeLast?_divided (last : '_' ∉ suffix.toList) :
    beforeLast? '_' (text ++ "_" ++ suffix).toList = some text.toList := by
  have hmark : "_".toList = ['_'] := rfl
  rw [String.toList_append, String.toList_append, hmark, List.append_assoc, List.singleton_append]
  exact beforeLast?_append last

/-- A name has no underscore, or it is divided at the last one. -/
theorem unmarked_or_divided (name : String) : '_' ∉ name.toList ∨
    ∃ text suffix, name = text ++ "_" ++ suffix ∧ '_' ∉ suffix.toList := by
  cases hbefore : beforeLast? '_' name.toList with
  | none => exact Or.inl (beforeLast?_eq_none_iff.1 hbefore)
  | some before =>
    obtain ⟨after, hname, hlast⟩ := exists_of_beforeLast? hbefore
    refine Or.inr ⟨String.ofList before, String.ofList after, ?_, by rwa [String.toList_ofList]⟩
    rw [← String.toList_inj, hname]
    simp

theorem ofFile_of_unmarked (h : '_' ∉ name.toList) : ofFile name = .error (.missingSuffix name) := by
  rw [ofFile, beforeLast?_eq_none_iff.2 h]

theorem ofFile_of_empty (last : '_' ∉ suffix.toList) :
    ofFile ("_" ++ suffix) = .error (.emptyGroup ("_" ++ suffix)) := by
  have hbefore : beforeLast? '_' ("" ++ "_" ++ suffix).toList = some "".toList :=
    beforeLast?_divided last
  rw [String.empty_append] at hbefore
  rw [ofFile, hbefore]
  rfl

theorem ofFile_of_divided (last : '_' ∉ suffix.toList) (hne : text ≠ "") :
    ofFile (text ++ "_" ++ suffix) = ofString text := by
  rw [ofFile, beforeLast?_divided last]
  split
  · rename_i h; cases h
  · rename_i h
    exact absurd (String.toList_eq_nil_iff.1 (Option.some.inj h)) hne
  · rename_i h
    rw [← Option.some.inj h, String.ofList_toList]

theorem map_text_ofString (hne : text ≠ "") :
    (ofString text).map GroupName.text =
      if isUsableName text then .ok text else .error (.invalidGroup text) := by
  rw [ofString, if_neg hne]
  split <;> simp_all [Except.map]

/-- Each name derives something. -/
theorem derives_ofFile (name : String) : Derives name ((ofFile name).map GroupName.text) := by
  rcases unmarked_or_divided name with hunmarked | ⟨text, suffix, hname, last⟩
  · rw [ofFile_of_unmarked hunmarked]
    exact .missingSuffix hunmarked
  by_cases hne : text = ""
  · rw [hne, String.empty_append] at hname
    rw [hname, ofFile_of_empty last]
    exact .emptyGroup rfl last
  · rw [hname, ofFile_of_divided last hne, map_text_ofString hne]
    split
    · rename_i husable
      exact .group rfl last (isUsableName_iff.1 husable)
    · rename_i husable
      exact .invalidGroup rfl last hne (mt isUsableName_iff.2 husable)

/-- **What a name derives** is what is made of it. -/
theorem map_text_ofFile_eq_iff {result : Except NameError String} :
    (ofFile name).map GroupName.text = result ↔ Derives name result := by
  constructor
  · rintro rfl
    exact derives_ofFile name
  intro h
  cases h with
  | group divided last usable =>
    rw [divided, ofFile_of_divided last usable.ne_empty, map_text_ofString usable.ne_empty,
      if_pos (isUsableName_iff.2 usable)]
  | missingSuffix unmarked => rw [ofFile_of_unmarked unmarked]; rfl
  | emptyGroup divided last => rw [divided, ofFile_of_empty last]; rfl
  | invalidGroup divided last named unusable =>
    rw [divided, ofFile_of_divided last named, map_text_ofString named,
      if_neg (mt isUsableName_iff.1 unusable)]

/-! ### The file of a group -/

/-- **The name of a group is a plain component.** -/
theorem isPlain (g : GroupName) : Path.IsPlain (Path.ofString g.text) := by
  have husable := isUsableName_iff.1 g.usable
  have hne : ∀ text, g.text ≠ text → Path.ofString g.text ≠ Utf8.encode text :=
    fun text h e => h (Utf8.encode_injective e)
  exact {
    ne_nil := hne "" husable.ne_empty
    ne_dot := hne "." husable.ne_dot
    ne_dotDot := hne ".." husable.ne_dotDot
    no_slash := fun h => husable.no_slash (Utf8.mem_toList_of_mem_encode (by decide) h) }

/-- The file of a group lies in the directory of aggregates and bears the name of the group. -/
structure Confined (s : DirectoryStore) (g : GroupName) : Prop where
  fileName : Path.fileName? (s.aggregatePath g) = some (Path.ofString g.text)
  parent : ∃ parent, Path.parent? (s.aggregatePath g) = some parent ∧
    Path.alike parent s.aggregate = true
  /-- It is not the directory itself. -/
  inside : Path.alike (s.aggregatePath g) s.aggregate = false
  /-- Only the same group has the same file. -/
  apart : ∀ h, Path.alike (s.aggregatePath g) (s.aggregatePath h) = true ↔ g = h

theorem confined (s : DirectoryStore) (g : GroupName) : Confined s g where
  fileName := Path.fileName?_join s.aggregate g.isPlain
  parent := Path.exists_parent?_join s.aggregate g.isPlain
  inside := Path.not_alike_join s.aggregate g.isPlain
  apart h := (Path.alike_join_iff s.aggregate g.isPlain h.isPlain).trans
    ⟨fun e => ext_text (Utf8.encode_injective e), fun e => e ▸ rfl⟩

/-- **Groups are derived exactly and stay confined.**  The name of a file gives the part before
its last underscore as its group if that part is usable, and otherwise the error that fits; and
for every group, and every path of the directory of aggregates, the file of the group lies right
in that directory under the name of the group, so no other group has it. -/
theorem derived_and_confined (name : String) (s : DirectoryStore) :
    (∀ result, (ofFile name).map GroupName.text = result ↔ Derives name result) ∧
      ∀ g, Confined s g :=
  ⟨fun _ => map_text_ofFile_eq_iff, confined s⟩

end GroupName
end Rollup
