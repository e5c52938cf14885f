/-
# Names as components

Two paths are alike if they have the same head and the same names in them
(`Path.alike_iff`).  A name that is one plain component, neither a dot nor a pair of dots,
stays what it is behind a directory, with whatever slashes and dots the directory is
written: it is the last component of the path (`Path.fileName?_join`), the rest is alike to
the directory (`Path.exists_parent?_join`), and different names give paths that are not
alike (`Path.alike_join_iff`).
-/

import Rollup.Proofs.FileSystem.Paths

namespace Rollup
namespace Path

variable {p q : Path} {directory name other : Bytes}

/-- The components of a path are its head and its names. -/
theorem components_eq (p : Path) : components p = (head p, names p) := by
  refine Prod.ext rfl ?_
  show names (p.drop (head p).length) = names p
  by_cases habs : isAbsolute p = true
  · obtain ⟨rest, rfl⟩ := exists_of_isAbsolute habs
    rw [head_of_isAbsolute habs, names_slash_cons]
    rfl
  have habs : isAbsolute p = false := Bool.eq_false_iff.2 habs
  by_cases hdot : (pieces p).head? = some dot
  · obtain ⟨rest, rfl, hrest⟩ := exists_of_head?_pieces hdot
    rw [head_of_dot habs hdot, List.drop_left, names_dot_append hrest]
  · rw [head_of_ne_dot habs hdot]
    rfl

theorem alike_iff : alike p q = true ↔ head p = head q ∧ names p = names q := by
  rw [alike, beq_iff_eq, components_eq, components_eq, Prod.mk.injEq]

/-- The head of a path tells whether it is absolute. -/
theorem isAbsolute_of_head_eq (h : head p = head q) : isAbsolute p = isAbsolute q := by
  have hslash : ∀ p, isAbsolute p = true ↔ head p = [slash] := fun p => by
    refine ⟨head_of_isAbsolute, fun hp => ?_⟩
    cases habs : isAbsolute p with
    | true => rfl
    | false =>
      by_cases hdot : (pieces p).head? = some dot
      · rw [head_of_dot habs hdot] at hp
        exact absurd hp (by decide)
      · rw [head_of_ne_dot habs hdot] at hp
        cases hp
  rw [Bool.eq_iff_iff, hslash, hslash, h]

/-- The name is a component that does not lead upwards. -/
structure IsPlain (name : Bytes) : Prop where
  ne_nil : name ≠ []
  ne_dot : name ≠ dot
  ne_dotDot : name ≠ dotDot
  no_slash : slash ∉ name

namespace IsPlain

variable (h : IsPlain name)

include h

theorem isComponent : isComponent name = true := by simp [Path.isComponent, h.ne_nil, h.ne_dot]

theorem isAbsolute : isAbsolute name = false := beq_false_of_ne fun e =>
  h.no_slash (List.mem_of_head? e)

theorem head : head name = [] := by
  refine head_of_ne_dot h.isAbsolute ?_
  rw [pieces_of_no_slash h.no_slash]
  exact mt Option.some.inj h.ne_dot

theorem names : names name = [name] := by
  rw [Path.names, pieces_of_no_slash h.no_slash, List.filter_cons_of_pos h.isComponent]
  rfl

end IsPlain

theorem join_nil (name : Bytes) : join [] name = name := by
  rw [join, List.isEmpty_nil, Bool.or_true]
  rfl

/-- **Joining adds a component** and changes nothing before it. -/
theorem components_join (directory : Path) (h : IsPlain name) :
    head (join directory name) = head directory ∧
      names (join directory name) = names directory ++ [name] := by
  by_cases hd : directory = []
  · rw [hd, join_nil]
    exact ⟨h.head, h.names⟩
  obtain ⟨q, hjoin, hq⟩ := exists_join_of_relative hd h.isAbsolute
  rw [hjoin, names_append_slash, h.names]
  by_cases hnil : q = []
  · obtain rfl : directory = [slash] := by simpa [hnil] using hq.resolve_left (hnil ▸ hd)
    rw [hnil]
    exact ⟨rfl, rfl⟩
  rcases hq with rfl | rfl
  · exact ⟨head_append_slash hnil name, rfl⟩
  · rw [head_append_slash hnil, head_append_slash hnil, names_append_slash, names_nil,
      List.append_nil]
    exact ⟨rfl, rfl⟩

/-- The end of a joined path, and what stands before it. -/
theorem exists_trimPieces (directory : Path) (h : IsPlain name) :
    ∃ before parent, trimPieces (body (join directory name)).reverse = name :: before ∧
      Path.head (join directory name) ++ joinPieces (trimPieces before).reverse = parent ∧
      alike parent directory = true := by
  by_cases hd : directory = []
  · have htrim : trimPieces (body name).reverse = [name] := by
      rw [body, h.head, List.length_nil, List.drop_zero, pieces_of_no_slash h.no_slash, trimPieces,
        List.reverse_singleton, List.dropWhile_cons_of_neg (by simp [h.isComponent])]
    rw [hd, join_nil, h.head]
    exact ⟨[], [], htrim, rfl, rfl⟩
  · obtain ⟨before, parent, htrim, hparent, -, -, hhead, hnames⟩ :=
      exists_trimPieces_join h.isComponent h.no_slash hd
    exact ⟨before, parent, htrim, hparent, alike_iff.2 ⟨hhead, hnames⟩⟩

/-- **The last component of a name in a directory is the name.** -/
theorem fileName?_join (directory : Path) (h : IsPlain name) :
    fileName? (join directory name) = some name := by
  obtain ⟨before, -, htrim, -⟩ := exists_trimPieces directory h
  rw [fileName?, htrim]
  exact if_neg h.ne_dotDot

/-- **The parent of a name in a directory is the directory.** -/
theorem exists_parent?_join (directory : Path) (h : IsPlain name) :
    ∃ parent, parent? (join directory name) = some parent ∧ alike parent directory = true := by
  obtain ⟨before, parent, htrim, hparent, halike⟩ := exists_trimPieces directory h
  refine ⟨parent, ?_, halike⟩
  rw [parent?, htrim]
  exact congrArg some hparent

/-- **Names in a directory are told apart.** -/
theorem alike_join_iff (directory : Path) (h : IsPlain name) (h' : IsPlain other) :
    alike (join directory name) (join directory other) = true ↔ name = other := by
  obtain ⟨hhead, hnames⟩ := components_join directory h
  obtain ⟨hhead', hnames'⟩ := components_join directory h'
  rw [alike_iff, hhead, hhead', hnames, hnames', List.append_cancel_left_eq, List.singleton_inj]
  exact and_iff_right rfl

/-- A name in a directory is not the directory. -/
theorem not_alike_join (directory : Path) (h : IsPlain name) :
    alike (join directory name) directory = false := by
  refine Bool.eq_false_iff.2 fun halike => ?_
  have hnames := (alike_iff.1 halike).2
  rw [(components_join directory h).2] at hnames
  simpa using congrArg List.length hnames

end Path
end Rollup
