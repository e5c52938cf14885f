/-
# Names behind directories

The path of a name in a directory (`Path.join`) takes the steps of the directory and
then the name, however the directory is written (`Path.steps_join`).  Its parent is a
piece of the directory's path that has the same names in it (`Path.exists_directoryOf?`),
and dots do not matter on a way (`FileSystem.Way.of_names`).
-/

import Rollup.FileSystem.Replacement
import Rollup.Proofs.FileSystem.Way

namespace Rollup

/-- The name of an entry of a directory. -/
structure IsEntryName (name : Bytes) : Prop extends FileSystem.IsNamed name where
  ne_nil : name ≠ []
  no_slash : Path.slash ∉ name
  no_nul : 0 ∉ name

theorem isEntryName_iff {name : Bytes} : IsEntryName name ↔
    (name ≠ Path.dot ∧ name ≠ Path.dotDot ∧ name.length ≤ FileSystem.nameLimit) ∧
      name ≠ [] ∧ Path.slash ∉ name ∧ 0 ∉ name :=
  ⟨fun h => ⟨⟨h.ne_dot, h.ne_dotDot, h.fits⟩, h.ne_nil, h.no_slash, h.no_nul⟩,
    fun ⟨⟨hdot, hup, hfits⟩, hnil, hslash, hnul⟩ => ⟨⟨hdot, hup, hfits⟩, hnil, hslash, hnul⟩⟩

instance (name : Bytes) : Decidable (IsEntryName name) := decidable_of_iff' _ isEntryName_iff

namespace Path

variable {p q : Path} {directory name piece : Bytes}

/-! ### Pieces and names -/

theorem pieces_append_slash (q r : Path) : pieces (q ++ slash :: r) = pieces q ++ pieces r :=
  Text.cut_append_mark q r (beq_self_eq_true slash)

theorem pieces_of_no_slash (h : slash ∉ name) : pieces name = [name] :=
  Text.cut_eq_singleton fun _ hb => beq_false_of_ne fun e => h (e ▸ hb)

theorem slash_not_mem_of_mem_pieces (h : piece ∈ pieces p) : slash ∉ piece := fun hs =>
  absurd (Text.eq_false_of_mem_cut h slash hs) (by decide)

theorem pieces_ne_nil (p : Path) : pieces p ≠ [] := Text.cut_ne_nil _ p

theorem steps_append_slash (q r : Path) : steps (q ++ slash :: r) = steps q ++ steps r := by
  rw [steps, pieces_append_slash, List.filter_append]
  rfl

/-- The steps other than dots. -/
def names (p : Path) : List Bytes := (pieces p).filter isComponent

theorem filter_steps (p : Path) : (steps p).filter (· != dot) = names p := by
  rw [steps, names, List.filter_filter]
  exact List.filter_congr fun piece _ => Bool.and_comm ..

theorem names_nil : names [] = [] := rfl

theorem names_append_slash (q r : Path) : names (q ++ slash :: r) = names q ++ names r := by
  rw [names, pieces_append_slash, List.filter_append]
  rfl

theorem names_slash_cons (r : Path) : names (slash :: r) = names r :=
  names_append_slash [] r

theorem exists_of_isAbsolute (h : isAbsolute p) : ∃ r, p = slash :: r :=
  List.head?_eq_some_iff.1 (beq_iff_eq.1 h)

theorem isAbsolute_append (hp : p ≠ []) : isAbsolute (p ++ q) = isAbsolute p := by
  cases p with
  | nil => exact absurd rfl hp
  | cons b p => rfl

theorem isAbsolute_of_isPrefix (hp : p = [] ∨ isAbsolute p) (h : q <+: p) :
    q = [] ∨ isAbsolute q := by
  obtain ⟨rest, rfl⟩ := h
  by_cases hq : q = []
  · exact Or.inl hq
  · rw [isAbsolute_append hq] at hp
    exact Or.inr (hp.resolve_left fun h => hq (List.append_eq_nil_iff.1 h).1)

/-- A dot in front adds no name. -/
theorem names_dot_append (h : p = [] ∨ isAbsolute p) : names (dot ++ p) = names p := by
  rcases h with rfl | h
  · rfl
  · obtain ⟨r, rfl⟩ := exists_of_isAbsolute h
    rw [names_append_slash, names_slash_cons]
    rfl

/-! ### Pieces put together -/

theorem joinPieces_cons {rest : List Bytes} (h : rest ≠ []) :
    joinPieces (piece :: rest) = piece ++ slash :: joinPieces rest := by
  cases rest with
  | nil => exact absurd rfl h
  | cons next rest => rfl

theorem joinPieces_append {ps qs : List Bytes} (hp : ps ≠ []) (hq : qs ≠ []) :
    joinPieces (ps ++ qs) = joinPieces ps ++ slash :: joinPieces qs := by
  induction ps with
  | nil => exact absurd rfl hp
  | cons piece rest ih =>
    cases rest with
    | nil => exact joinPieces_cons hq
    | cons next rest =>
      rw [List.cons_append, joinPieces_cons (by simp), joinPieces_cons (by simp), ih (by simp),
        List.append_assoc, List.cons_append]

theorem joinPieces_pieces (p : Path) : joinPieces (pieces p) = p := by
  induction p with
  | nil => rfl
  | cons b p ih =>
    by_cases hb : b = slash
    · subst hb
      have hcut : pieces (slash :: p) = [] :: pieces p := pieces_append_slash [] p
      rw [hcut, joinPieces_cons (pieces_ne_nil p), ih, List.nil_append]
    · cases hp : pieces p with
      | nil => exact absurd hp (pieces_ne_nil p)
      | cons part parts =>
        have hcut : pieces (b :: p) = (b :: part) :: parts := by
          rw [pieces, Text.cut, if_neg (by simpa using hb), ← pieces, hp]
        rw [hp] at ih
        rw [hcut, ← ih]
        cases parts with
        | nil => rfl
        | cons next parts => rfl

theorem pieces_joinPieces {ps : List Bytes} (hne : ps ≠ []) (h : ∀ piece ∈ ps, slash ∉ piece) :
    pieces (joinPieces ps) = ps := by
  induction ps with
  | nil => exact absurd rfl hne
  | cons piece rest ih =>
    have hpiece := pieces_of_no_slash (h piece (List.mem_cons_self ..))
    cases rest with
    | nil => exact hpiece
    | cons next rest =>
      rw [joinPieces_cons (by simp), pieces_append_slash, hpiece,
        ih (by simp) fun piece hp => h piece (List.mem_cons_of_mem _ hp)]
      rfl

/-- The text up to the last component. -/
def trim (p : Path) : Path := joinPieces (trimPieces (pieces p).reverse).reverse

/-- What is trimmed away holds no component. -/
theorem exists_pieces_eq (p : Path) :
    ∃ rest, pieces p = (trimPieces (pieces p).reverse).reverse ++ rest ∧
      ∀ piece ∈ rest, isComponent piece = false := by
  refine ⟨((pieces p).reverse.takeWhile (!isComponent ·)).reverse, ?_, fun piece h => ?_⟩
  · rw [← List.reverse_append, trimPieces, List.takeWhile_append_dropWhile, List.reverse_reverse]
  · have hall : ((pieces p).reverse.takeWhile (!isComponent ·)).all (!isComponent ·) :=
      List.all_takeWhile
    simpa using List.all_eq_true.1 hall piece (List.mem_reverse.1 h)

theorem trim_isPrefix (p : Path) : trim p <+: p := by
  obtain ⟨rest, hpieces, -⟩ := exists_pieces_eq p
  unfold trim
  generalize (trimPieces (pieces p).reverse).reverse = kept at hpieces ⊢
  by_cases hkept : kept = []
  · subst hkept
    exact List.nil_prefix
  · rw [← joinPieces_pieces p, hpieces]
    by_cases hrest : rest = []
    · simp [hrest]
    · exact ⟨_, (joinPieces_append hkept hrest).symm⟩

theorem names_trim (p : Path) : names (trim p) = names p := by
  obtain ⟨rest, hpieces, hrest⟩ := exists_pieces_eq p
  have hslash : ∀ piece ∈ (trimPieces (pieces p).reverse).reverse, slash ∉ piece := by
    intro piece h
    have hmem := List.mem_append_left rest h
    rw [← hpieces] at hmem
    exact slash_not_mem_of_mem_pieces hmem
  unfold trim
  generalize (trimPieces (pieces p).reverse).reverse = kept at hpieces hslash ⊢
  have hdropped : rest.filter isComponent = [] :=
    List.filter_eq_nil_iff.2 fun piece h => Bool.eq_false_iff.1 (hrest piece h)
  have hnames : names p = kept.filter isComponent := by
    rw [names, hpieces, List.filter_append, hdropped, List.append_nil]
  rw [hnames]
  by_cases hkept : kept = []
  · rw [hkept]
    rfl
  · rw [names, pieces_joinPieces hkept hslash]

/-! ### The path of a name -/

theorem isComponent_of_isEntryName (h : IsEntryName name) : isComponent name = true := by
  simp [isComponent, h.ne_nil, h.ne_dot]

theorem isAbsolute_of_isEntryName (h : IsEntryName name) : isAbsolute name = false := by
  refine beq_false_of_ne fun e => h.no_slash ?_
  exact List.mem_of_head? e

/-- The name stands behind a slash, and before the slash is the directory, whose own
slash at the end is not repeated. -/
theorem exists_join_of_relative (hd : directory ≠ []) (h : isAbsolute name = false) :
    ∃ q, join directory name = q ++ slash :: name ∧ (directory = q ∨ directory = q ++ [slash]) := by
  unfold join
  rw [h, Bool.false_or, if_neg (by simpa using hd)]
  by_cases hslash : endsInSlash directory = true
  · rw [if_pos hslash]
    have hlast : directory.getLast? = some slash := by simpa [endsInSlash] using hslash
    obtain ⟨q, rfl⟩ := List.getLast?_eq_some_iff.1 hlast
    exact ⟨q, by simp, Or.inr rfl⟩
  · rw [if_neg hslash]
    exact ⟨directory, rfl, Or.inl rfl⟩

theorem exists_join (hd : directory ≠ []) (h : IsEntryName name) :
    ∃ q, join directory name = q ++ slash :: name ∧ (directory = q ∨ directory = q ++ [slash]) :=
  exists_join_of_relative hd (isAbsolute_of_isEntryName h)

theorem steps_of_isEntryName (h : IsEntryName name) : steps name = [name] := by
  rw [steps, pieces_of_no_slash h.no_slash]
  simp [h.ne_nil]

/-- **The steps to a name are those to the directory and the name.** -/
theorem steps_join (hd : directory ≠ []) (h : IsEntryName name) :
    steps (join directory name) = steps directory ++ [name] := by
  obtain ⟨q, hjoin, rfl | rfl⟩ := exists_join hd h
  · rw [hjoin, steps_append_slash, steps_of_isEntryName h]
  · rw [hjoin, steps_append_slash, steps_append_slash, steps_of_isEntryName h]
    exact (congrArg (· ++ [name]) (List.append_nil _)).symm

theorem isAbsolute_join (hd : directory ≠ []) (h : IsEntryName name) :
    isAbsolute (join directory name) = isAbsolute directory := by
  obtain ⟨q, hjoin, rfl | rfl⟩ := exists_join hd h
  · rw [hjoin, isAbsolute_append hd]
  · rw [hjoin]
    cases q <;> rfl

theorem endsInSlash_join (hd : directory ≠ []) (h : IsEntryName name) :
    endsInSlash (join directory name) = false := by
  obtain ⟨q, hjoin, -⟩ := exists_join hd h
  have hlast : (q ++ slash :: name).getLast? = name.getLast? := by
    rw [List.getLast?_append, List.getLast?_cons, List.getLast?_eq_some_getLast h.ne_nil]
    rfl
  rw [hjoin, endsInSlash, hlast]
  exact beq_false_of_ne fun e => h.no_slash (List.mem_of_getLast? e)

theorem join_ne_nil (hd : directory ≠ []) (h : IsEntryName name) : join directory name ≠ [] := by
  obtain ⟨q, hjoin, -⟩ := exists_join hd h
  simp [hjoin]

theorem mem_join {b : UInt8} (hd : directory ≠ []) (h : IsEntryName name)
    (hb : b ∈ join directory name) : b ∈ directory ∨ b = slash ∨ b ∈ name := by
  obtain ⟨q, hjoin, rfl | rfl⟩ := exists_join hd h
  · simpa [hjoin] using hb
  · have hb : b ∈ q ∨ b = slash ∨ b ∈ name := by simpa [hjoin] using hb
    exact hb.imp_left fun h => List.mem_append_left _ h

theorem length_join_le (directory name : Bytes) :
    (join directory name).length ≤ directory.length + 1 + name.length := by
  unfold join
  split
  · omega
  split
  · rw [List.length_append]; omega
  · rw [List.length_append, List.length_cons]; omega

theorem le_length_join (directory : Path) (h : isAbsolute name = false) :
    directory.length + name.length ≤ (join directory name).length := by
  unfold join
  split
  · rename_i hnil
    have hnil : directory = [] := by simpa [h] using hnil
    simp [hnil]
  split
  · exact Nat.le_of_eq List.length_append.symm
  · rw [List.length_append, List.length_cons]; omega

theorem length_join_lt (directory : Path) (habs : isAbsolute p = isAbsolute q)
    (h : p.length < q.length) : (join directory p).length < (join directory q).length := by
  unfold join
  rw [habs]
  split
  · exact h
  split
  · rw [List.length_append, List.length_append]; omega
  · rw [List.length_append, List.length_append, List.length_cons, List.length_cons]; omega

/-- A name behind a piece of a path is no longer than behind the whole path. -/
theorem length_join_of_isPrefix (directory : Path) (hp : p ≠ []) (hpq : p <+: q)
    (h : isAbsolute name = false) :
    (join (join directory p) name).length ≤ (join (join directory q) name).length := by
  rcases Nat.eq_or_lt_of_le hpq.length_le with hlength | hlength
  · exact hpq.eq_of_length hlength ▸ Nat.le_refl _
  · obtain ⟨rest, rfl⟩ := hpq
    have hshorter := length_join_lt directory (isAbsolute_append (q := rest) hp).symm hlength
    have hup := length_join_le (join directory p) name
    have hlow := le_length_join (join directory (p ++ rest)) h
    omega

/-! ### The directory of a name -/

theorem head_of_isAbsolute (h : isAbsolute p) : head p = [slash] := if_pos h

theorem head_of_dot (habs : isAbsolute p = false) (hp : (pieces p).head? = some dot) :
    head p = dot := by
  rw [head, if_neg (by simp [habs]), if_pos hp]

theorem head_of_ne_dot (habs : isAbsolute p = false) (hp : (pieces p).head? ≠ some dot) :
    head p = [] := by
  rw [head, if_neg (by simp [habs]), if_neg hp]

theorem head?_pieces_append_slash (q r : Path) :
    (pieces (q ++ slash :: r)).head? = (pieces q).head? := by
  obtain ⟨piece, pieces', hpieces⟩ := List.exists_cons_of_ne_nil (pieces_ne_nil q)
  rw [pieces_append_slash, hpieces]
  rfl

/-- The head of a path is settled before its first slash. -/
theorem head_append_slash (hq : q ≠ []) (r : Path) : head (q ++ slash :: r) = head q := by
  rw [head, head, isAbsolute_append hq, head?_pieces_append_slash]

/-- A path whose first piece is a dot. -/
theorem exists_of_head?_pieces (h : (pieces p).head? = some dot) :
    ∃ rest, p = dot ++ rest ∧ (rest = [] ∨ isAbsolute rest) := by
  obtain ⟨pieces', hpieces⟩ := List.head?_eq_some_iff.1 h
  have hjoin := joinPieces_pieces p
  rw [hpieces] at hjoin
  cases pieces' with
  | nil => exact ⟨[], hjoin.symm, Or.inl rfl⟩
  | cons next pieces' => exact ⟨_, hjoin.symm, Or.inr rfl⟩

/-- A path that is not empty and has no head starts with a name. -/
theorem names_ne_nil (hp : p ≠ []) (habs : isAbsolute p = false)
    (hdot : (pieces p).head? ≠ some dot) : names p ≠ [] := by
  obtain ⟨piece, pieces', hpieces⟩ := List.exists_cons_of_ne_nil (pieces_ne_nil p)
  have hjoin := joinPieces_pieces p
  rw [hpieces] at hdot hjoin
  have hpiece : piece ≠ [] := by
    rintro rfl
    cases pieces' with
    | nil => exact hp hjoin.symm
    | cons next pieces' => rw [← hjoin] at habs; cases habs
  have hne : piece ≠ dot := fun e => hdot (congrArg some e)
  have hcomponent : isComponent piece = true := by simp [isComponent, hpiece, hne]
  rw [names, hpieces, List.filter_cons_of_pos hcomponent]
  exact List.cons_ne_nil _ _

/-- A path falls into its head and something whose beginnings with the same names leave the
head as it is. -/
theorem exists_head (hq : q ≠ []) : ∃ rest, q = head q ++ rest ∧
    ∀ r, r <+: rest → names r = names rest →
      head q ++ r ≠ [] ∧ head (head q ++ r) = head q ∧ names (head q ++ r) = names q := by
  by_cases habs : isAbsolute q = true
  · obtain ⟨rest, rfl⟩ := exists_of_isAbsolute habs
    rw [head_of_isAbsolute habs]
    refine ⟨rest, rfl, fun r _ hr => ⟨by simp, head_of_isAbsolute rfl, ?_⟩⟩
    exact (names_slash_cons r).trans (hr.trans (names_slash_cons rest).symm)
  have habs : isAbsolute q = false := Bool.eq_false_iff.2 habs
  by_cases hdot : (pieces q).head? = some dot
  · obtain ⟨rest, rfl, hrest⟩ := exists_of_head?_pieces hdot
    rw [head_of_dot habs hdot]
    refine ⟨rest, rfl, fun r hr hnames => ⟨by simp [dot], ?_, ?_⟩⟩
    · rcases isAbsolute_of_isPrefix hrest hr with rfl | hr
      · rfl
      · obtain ⟨r, rfl⟩ := exists_of_isAbsolute hr
        exact head_append_slash (by simp [dot]) r
    · rw [names_dot_append (isAbsolute_of_isPrefix hrest hr), names_dot_append hrest, hnames]
  · rw [head_of_ne_dot habs hdot]
    refine ⟨q, rfl, fun r hr hnames => ?_⟩
    have hne := names_ne_nil hq habs hdot
    have hr' : r ≠ [] := by
      rintro rfl
      exact hne hnames.symm
    refine ⟨hr', head_of_ne_dot ?_ fun h => ?_, hnames⟩
    · obtain ⟨rest, rfl⟩ := hr
      rwa [isAbsolute_append hr'] at habs
    · obtain ⟨rest, rfl, hrest⟩ := exists_of_head?_pieces h
      rcases hrest with rfl | hrest
      · exact hne (hnames.symm.trans rfl)
      · obtain ⟨rest, rfl⟩ := exists_of_isAbsolute hrest
        obtain ⟨more, rfl⟩ := hr
        rw [List.append_assoc, List.cons_append, head?_pieces_append_slash] at hdot
        exact hdot rfl

section Component

variable (hcomponent : isComponent name = true) (hslash : slash ∉ name)

include hcomponent hslash

/-- A component behind a slash ends the path. -/
theorem trimPieces_body_append {first rest : Path} (hhead : head (first ++ rest ++ slash :: name) = first) :
    trimPieces (body (first ++ rest ++ slash :: name)).reverse = name :: (pieces rest).reverse := by
  have hbody : body (first ++ rest ++ slash :: name) = pieces rest ++ [name] := by
    rw [body, hhead, List.append_assoc, List.drop_left, pieces_append_slash,
      pieces_of_no_slash hslash]
  rw [hbody, List.reverse_append, trimPieces]
  simp [hcomponent]

/-- **A path up to its last component**: for a name behind a directory this is a piece of
the directory's path, with the same head and the same names. -/
theorem exists_trimPieces_join (hd : directory ≠ []) :
    ∃ before parent, trimPieces (body (join directory name)).reverse = name :: before ∧
      head (join directory name) ++ joinPieces (trimPieces before).reverse = parent ∧
      parent ≠ [] ∧ parent <+: directory ∧ head parent = head directory ∧
      names parent = names directory := by
  have habs : isAbsolute name = false := beq_false_of_ne fun e => hslash (List.mem_of_head? e)
  obtain ⟨q, hjoin, hq⟩ := exists_join_of_relative hd habs
  by_cases hnil : q = []
  · obtain rfl : directory = [slash] := by simpa [hnil] using hq.resolve_left (hnil ▸ hd)
    -- The slash of the root is also the one before the name.
    have hbody : body (slash :: name) = [name] := pieces_of_no_slash hslash
    have htrim : trimPieces (body (join [slash] name)).reverse = [name] := by
      rw [hjoin, hnil, List.nil_append, hbody, trimPieces, List.reverse_singleton,
        List.dropWhile_cons_of_neg (by simp [hcomponent])]
    refine ⟨[], [slash], htrim, ?_, by simp, List.prefix_rfl, rfl, rfl⟩
    rw [hjoin, hnil]
    rfl
  · obtain ⟨rest, hsplit, hkept⟩ := exists_head hnil
    obtain ⟨hne, hhead, hnames⟩ := hkept (trim rest) (trim_isPrefix rest) (names_trim rest)
    have hbehind : head (head q ++ rest ++ slash :: name) = head q := by
      rw [← hsplit]
      exact head_append_slash hnil name
    have htrim := trimPieces_body_append hcomponent hslash hbehind
    rw [← hsplit, ← hjoin] at htrim
    have hpiece : head q ++ trim rest <+: head q ++ rest :=
      (List.prefix_append_right_inj _).2 (trim_isPrefix rest)
    rw [← hsplit] at hpiece
    refine ⟨_, _, htrim, by rw [hjoin, head_append_slash hnil]; rfl, hne, ?_, ?_, ?_⟩
    · rcases hq with rfl | rfl
      · exact hpiece
      · exact hpiece.trans (List.prefix_append ..)
    · rcases hq with rfl | rfl
      · exact hhead
      · rw [head_append_slash hnil]
        exact hhead
    · rcases hq with rfl | rfl
      · exact hnames
      · rw [names_append_slash, names_nil, List.append_nil]
        exact hnames

end Component

/-- **The directory of a name in a directory** is a piece of the directory's path, with
the same names. -/
theorem exists_directoryOf? (hd : directory ≠ []) (h : IsEntryName name) :
    ∃ parent, Replacement.directoryOf? (join directory name) = some parent ∧ parent ≠ [] ∧
      parent <+: directory ∧ names parent = names directory := by
  obtain ⟨before, parent, htrim, hparent, hne, hpiece, -, hnames⟩ :=
    exists_trimPieces_join (isComponent_of_isEntryName h) h.no_slash hd
  refine ⟨parent, ?_, hne, hpiece, hnames⟩
  rw [Replacement.directoryOf?, parent?, htrim]
  exact congrArg some ((if_neg (by simpa [hparent] using hne)).trans hparent)

end Path

namespace FileSystem

variable {fs : FileSystem} {n k : Nat} {d l : Location} {steps steps' : List Bytes}

theorem Way.dots {dots rest : List Bytes} (hdots : ∀ step ∈ dots, step = Path.dot)
    (h : Way fs n d rest k l) : Way fs n d (dots ++ rest) k l := by
  induction dots with
  | nil => exact h
  | cons step dots ih =>
    obtain rfl := hdots step (List.mem_cons_self ..)
    exact .dot (ih fun step hstep => hdots step (List.mem_cons_of_mem _ hstep))

/-- Dots do not matter on a way. -/
theorem Way.of_filter_eq (h : Way fs n d steps k l)
    (heq : steps'.filter (· != Path.dot) = steps.filter (· != Path.dot)) :
    Way fs n d steps' k l := by
  induction h generalizing steps' with
  | here =>
    have hdots : ∀ step ∈ steps', step = Path.dot := fun step hstep => by
      simpa using List.filter_eq_nil_iff.1 heq step hstep
    rw [← List.append_nil steps']
    exact .dots hdots .here
  | dot _ ih => exact ih heq
  | up _ ih =>
    obtain ⟨dots, rest', rfl, hdots, -, hrest⟩ := List.filter_eq_cons_iff.1 heq
    exact .dots (fun step hstep => by simpa using hdots step hstep) (.up (ih hrest))
  | down name entry _ ih =>
    rw [List.filter_cons_of_pos (by simpa using name.ne_dot)] at heq
    obtain ⟨dots, rest', rfl, hdots, -, hrest⟩ := List.filter_eq_cons_iff.1 heq
    exact .dots (fun step hstep => by simpa using hdots step hstep) (.down name entry (ih hrest))
  | link name entry _ ih =>
    rw [List.filter_cons_of_pos (by simpa using name.ne_dot)] at heq
    obtain ⟨dots, rest', rfl, hdots, -, hrest⟩ := List.filter_eq_cons_iff.1 heq
    refine .dots (fun step hstep => by simpa using hdots step hstep) (.link name entry (ih ?_))
    rw [List.filter_append, List.filter_append, hrest]

/-- **Paths with the same names lead the same way.** -/
theorem Way.of_names {p q : Path} (h : Way fs n d (Path.steps p) k l)
    (heq : Path.names q = Path.names p) : Way fs n d (Path.steps q) k l :=
  h.of_filter_eq (by rw [Path.filter_steps, Path.filter_steps, heq])

end FileSystem
end Rollup
