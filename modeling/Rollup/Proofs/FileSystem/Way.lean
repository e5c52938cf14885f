/-
# Ways to directories

A path that leads to a directory passes through directories and links only.  `Way`
says so step by step and counts the links that may still be followed.  Looking a path
up gives a directory exactly if there is a way (`Way.walk`, `exists_way_of_walk`), a way
can be cut in two and put together again (`Way.append`, `Way.exists_of_append`), and what
is behind a way is looked up from its end (`Way.walk_append`).  Every lookup that finds
something takes a way up to its last name, and from there it may go on along the target of
a link (`Leads`, `walk_eq_ok_iff`).

So a change of the tree matters to ways only if it touches a directory or a link that
leads to one.  A change that does neither keeps all ways (`sameWays_of_change`).
-/

import Rollup.FileSystem.Resolve

namespace Rollup
namespace FileSystem

/-- The step goes to a name of a directory, and the name is not too long. -/
structure IsNamed (step : Bytes) : Prop where
  ne_dot : step ≠ Path.dot
  ne_dotDot : step ≠ Path.dotDot
  fits : step.length ≤ nameLimit

/-- The steps lead from one directory to another; `n` links may be followed at first and
`k` are left at the end. -/
inductive Way (fs : FileSystem) : Nat → Location → List Bytes → Nat → Location → Prop
  | here {n : Nat} {d : Location} : Way fs n d [] n d
  | dot {n k : Nat} {d l : Location} {rest : List Bytes} (next : Way fs n d rest k l) :
      Way fs n d (Path.dot :: rest) k l
  | up {n k : Nat} {d l : Location} {rest : List Bytes} (next : Way fs n d.dropLast rest k l) :
      Way fs n d (Path.dotDot :: rest) k l
  | down {n k : Nat} {d l : Location} {step : Bytes} {rest : List Bytes} (name : IsNamed step)
      (entry : fs.entryAt? (d ++ [step]) = some .directory) (next : Way fs n (d ++ [step]) rest k l) :
      Way fs n d (step :: rest) k l
  | link {n k : Nat} {d l : Location} {step : Bytes} {target : Path} {rest : List Bytes}
      (name : IsNamed step) (entry : fs.entryAt? (d ++ [step]) = some (.link target))
      (next : Way fs n (Walk.ofPath d target).directory ((Walk.ofPath d target).steps ++ rest) k l) :
      Way fs (n + 1) d (step :: rest) k l

/-! ### Walks step by step -/

section Walks

variable {fs : FileSystem} {purpose : Purpose} {n : Nat} {d : Location} {step : Bytes}
  {rest : List Bytes} {slash : Bool}

theorem walk_nil : walk fs purpose n ⟨d, [], slash⟩ = .ok (.present d .directory) := by
  cases n <;> rfl

theorem walk_dot :
    walk fs purpose n ⟨d, Path.dot :: rest, slash⟩ = walk fs purpose n ⟨d, rest, slash⟩ := by
  cases n <;> simp [walk, walkSteps]

theorem walk_dotDot :
    walk fs purpose n ⟨d, Path.dotDot :: rest, slash⟩ =
      walk fs purpose n ⟨d.dropLast, rest, slash⟩ := by
  have hne : Path.dotDot ≠ Path.dot := by decide
  cases n <;> simp [walk, walkSteps, hne]

theorem walk_tooLong (hdot : step ≠ Path.dot) (hup : step ≠ Path.dotDot)
    (hlong : nameLimit < step.length) :
    walk fs .find n ⟨d, step :: rest, slash⟩ = .error (.system .nameTooLong) := by
  cases n <;> simp [walk, walkSteps, hdot, hup, hlong]

section Named

variable (h : IsNamed step)

include h

theorem walk_vacant (he : fs.entryAt? (d ++ [step]) = none) :
    walk fs .find n ⟨d, step :: rest, slash⟩ =
      if rest.isEmpty && !slash then .ok (.vacant d step) else .error (.system .noEntry) := by
  have hfits : ¬nameLimit < step.length := Nat.not_lt.2 h.fits
  cases n <;> simp [walk, walkSteps, h.ne_dot, h.ne_dotDot, hfits, he]

theorem walk_directory (he : fs.entryAt? (d ++ [step]) = some .directory) :
    walk fs .find n ⟨d, step :: rest, slash⟩ = walk fs .find n ⟨d ++ [step], rest, slash⟩ := by
  have hfits : ¬nameLimit < step.length := Nat.not_lt.2 h.fits
  cases n <;> simp [walk, walkSteps, h.ne_dot, h.ne_dotDot, hfits, he]

theorem walk_link {target : Path} (he : fs.entryAt? (d ++ [step]) = some (.link target)) :
    walk fs .find (n + 1) ⟨d, step :: rest, slash⟩ =
      walk fs .find n ((Walk.ofPath d target).followedBy rest slash) := by
  have hfits : ¬nameLimit < step.length := Nat.not_lt.2 h.fits
  simp [walk, walkSteps, h.ne_dot, h.ne_dotDot, hfits, he]

theorem walk_link_zero {target : Path} (he : fs.entryAt? (d ++ [step]) = some (.link target)) :
    walk fs .find 0 ⟨d, step :: rest, slash⟩ = .error (.system .tooManyLinks) := by
  have hfits : ¬nameLimit < step.length := Nat.not_lt.2 h.fits
  simp [walk, walkSteps, h.ne_dot, h.ne_dotDot, hfits, he]

theorem walk_leaf {entry : Entry} (he : fs.entryAt? (d ++ [step]) = some entry)
    (hdir : entry ≠ .directory) (hlink : ∀ target, entry ≠ .link target) :
    walk fs .find n ⟨d, step :: rest, slash⟩ =
      if rest.isEmpty && !slash then .ok (.present (d ++ [step]) entry)
      else .error (.system .notDirectory) := by
  have hfits : ¬nameLimit < step.length := Nat.not_lt.2 h.fits
  cases entry with
  | directory => exact absurd rfl hdir
  | link target => exact absurd rfl (hlink target)
  | file | socket | device => cases n <;> simp [walk, walkSteps, h.ne_dot, h.ne_dotDot, hfits, he]

end Named

end Walks

/-! ### Ways and walks -/

section Ways

variable {fs : FileSystem} {n k m : Nat} {d l c : Location} {steps rest : List Bytes} {slash : Bool}

/-- One way after another. -/
theorem Way.append (h : Way fs n d steps k l) (h' : Way fs k l rest m c) :
    Way fs n d (steps ++ rest) m c := by
  induction h with
  | here => exact h'
  | dot _ ih => exact .dot (ih h')
  | up _ ih => exact .up (ih h')
  | down name entry _ ih => exact .down name entry (ih h')
  | link name entry _ ih => exact .link name entry (List.append_assoc .. ▸ ih h')

/-- No link is followed back. -/
theorem Way.le (h : Way fs n d steps k l) : k ≤ n := by
  induction h with
  | here => exact Nat.le_refl _
  | dot _ ih | up _ ih | down _ _ _ ih => exact ih
  | link _ _ _ ih => exact Nat.le_trans ih (Nat.le_succ _)

/-- A way leads to a directory at the end of each part of its steps. -/
theorem Way.exists_of_append (h : Way fs n d (steps ++ rest) m c) :
    ∃ k l, Way fs n d steps k l ∧ Way fs k l rest m c := by
  generalize hall : steps ++ rest = all at h
  induction h generalizing steps with
  | here =>
    obtain ⟨rfl, rfl⟩ := List.append_eq_nil_iff.1 hall
    exact ⟨_, _, .here, .here⟩
  | dot next ih =>
    rcases List.append_eq_cons_iff.1 hall with ⟨rfl, rfl⟩ | ⟨steps, rfl, rfl⟩
    · exact ⟨_, _, .here, .dot next⟩
    · obtain ⟨k, l, hfirst, hlast⟩ := ih rfl
      exact ⟨k, l, .dot hfirst, hlast⟩
  | up next ih =>
    rcases List.append_eq_cons_iff.1 hall with ⟨rfl, rfl⟩ | ⟨steps, rfl, rfl⟩
    · exact ⟨_, _, .here, .up next⟩
    · obtain ⟨k, l, hfirst, hlast⟩ := ih rfl
      exact ⟨k, l, .up hfirst, hlast⟩
  | down name entry next ih =>
    rcases List.append_eq_cons_iff.1 hall with ⟨rfl, rfl⟩ | ⟨steps, rfl, rfl⟩
    · exact ⟨_, _, .here, .down name entry next⟩
    · obtain ⟨k, l, hfirst, hlast⟩ := ih rfl
      exact ⟨k, l, .down name entry hfirst, hlast⟩
  | link name entry next ih =>
    rcases List.append_eq_cons_iff.1 hall with ⟨rfl, rfl⟩ | ⟨steps, rfl, rfl⟩
    · exact ⟨_, _, .here, .link name entry next⟩
    · obtain ⟨k, l, hfirst, hlast⟩ := ih (List.append_assoc ..)
      exact ⟨k, l, .link name entry hfirst, hlast⟩

/-- Behind the target of a link the rest of the steps decides about the slash. -/
theorem Walk.followedBy_append (w : Walk) (hrest : rest ≠ []) :
    w.followedBy (steps ++ rest) slash = ⟨w.directory, w.steps ++ steps ++ rest, slash⟩ := by
  have hne : (steps ++ rest).isEmpty = false := by
    simp [List.isEmpty_eq_false_iff, hrest]
  simp [Walk.followedBy, hne]

/-- Behind the last name there is nothing but the target of the link. -/
theorem Walk.followedBy_nil (w : Walk) :
    w.followedBy [] slash = ⟨w.directory, w.steps, w.slash || slash⟩ := by
  rw [Walk.followedBy, List.append_nil]
  rfl

/-- **What is behind a way is looked up from its end.** -/
theorem Way.walk_append (h : Way fs n d steps k l) (hrest : rest ≠ []) :
    walk fs .find n ⟨d, steps ++ rest, slash⟩ = walk fs .find k ⟨l, rest, slash⟩ := by
  induction h with
  | here => rfl
  | dot _ ih => exact walk_dot.trans ih
  | up _ ih => exact walk_dotDot.trans ih
  | down name entry _ ih => exact (walk_directory name entry).trans ih
  | link name entry _ ih =>
    rw [List.cons_append, walk_link name entry, Walk.followedBy_append _ hrest]
    exact ih

/-- **A way is walked**, with a slash at the end or without one. -/
theorem Way.walk (h : Way fs n d steps k l) :
    walk fs .find n ⟨d, steps, slash⟩ = .ok (.present l .directory) := by
  induction h generalizing slash with
  | here => exact walk_nil
  | dot _ ih => exact walk_dot.trans ih
  | up _ ih => exact walk_dotDot.trans ih
  | down name entry _ ih => exact (walk_directory name entry).trans ih
  | link name entry _ ih =>
    rw [walk_link name entry]
    exact ih

/-- With another number of links, a walk along a way ends in the same directory or
follows too many of them. -/
theorem Way.walk_or_tooManyLinks (h : Way fs n d steps k l) (m : Nat) :
    FileSystem.walk fs .find m ⟨d, steps, slash⟩ = .ok (.present l .directory) ∨
      FileSystem.walk fs .find m ⟨d, steps, slash⟩ = .error (.system .tooManyLinks) := by
  induction h generalizing m slash with
  | here => exact Or.inl walk_nil
  | dot _ ih => rw [walk_dot]; exact ih m
  | up _ ih => rw [walk_dotDot]; exact ih m
  | down name entry _ ih => rw [walk_directory name entry]; exact ih m
  | link name entry _ ih =>
    cases m with
    | zero => exact Or.inr (walk_link_zero name entry)
    | succ m => rw [walk_link name entry]; exact ih m

/-- A way leads where it is walked to. -/
theorem Way.eq_of_walk (h : Way fs n d steps k l)
    (hwalk : FileSystem.walk fs .find m ⟨d, steps, slash⟩ = .ok (.present c .directory)) : l = c := by
  have hend : FileSystem.walk fs .find m ⟨d, steps, slash⟩ = .ok (.present l .directory) ∨ _ :=
    h.walk_or_tooManyLinks m
  rcases hend with hend | hend
  · exact (Place.present.inj (Except.ok.inj (hend.symm.trans hwalk))).1
  · cases hend.symm.trans hwalk

/-- **A walk that goes on took a way**, whatever it ends in. -/
theorem exists_way_of_walk_append {place : Place} (hrest : rest ≠ [])
    (h : walk fs .find n ⟨d, steps ++ rest, slash⟩ = .ok place) : ∃ k l, Way fs n d steps k l := by
  -- For each number of links by induction on the steps; following a link lowers the number.
  induction n using Nat.strongRecOn generalizing d steps slash with
  | ind n ihn =>
  induction steps generalizing d with
  | nil => exact ⟨_, _, .here⟩
  | cons step between ih =>
    have hne : (between ++ rest).isEmpty = false := by simp [hrest]
    rw [List.cons_append] at h
    by_cases hdot : step = Path.dot
    · subst hdot
      rw [walk_dot] at h
      obtain ⟨k, l, hway⟩ := ih h
      exact ⟨k, l, .dot hway⟩
    by_cases hup : step = Path.dotDot
    · subst hup
      rw [walk_dotDot] at h
      obtain ⟨k, l, hway⟩ := ih h
      exact ⟨k, l, .up hway⟩
    by_cases hlong : nameLimit < step.length
    · rw [walk_tooLong hdot hup hlong] at h
      cases h
    have name : IsNamed step := ⟨hdot, hup, Nat.le_of_not_lt hlong⟩
    cases entry : fs.entryAt? (d ++ [step]) with
    | none =>
      rw [walk_vacant name entry, hne] at h
      cases h
    | some e =>
      cases e with
      | directory =>
        rw [walk_directory name entry] at h
        obtain ⟨k, l, hway⟩ := ih h
        exact ⟨k, l, .down name entry hway⟩
      | link target =>
        cases n with
        | zero =>
          rw [walk_link_zero name entry] at h
          cases h
        | succ n =>
          rw [walk_link name entry, Walk.followedBy_append _ hrest] at h
          obtain ⟨k, l, hway⟩ := ihn n (Nat.lt_succ_self n) h
          exact ⟨k, l, .link name entry hway⟩
      | file | socket | device =>
        rw [walk_leaf name entry Entry.noConfusion fun _ => Entry.noConfusion, hne] at h
        cases h

/-- Where steps lead: to the directory at the end of a way, from there to a name that is vacant or
stands for itself, or on to where the target of a link leads. -/
inductive Leads (fs : FileSystem) : Nat → Location → List Bytes → Bool → Place → Prop
  | directory {n k : Nat} {d l : Location} {steps : List Bytes} {slash : Bool}
      (way : Way fs n d steps k l) : Leads fs n d steps slash (.present l .directory)
  | vacant {n k : Nat} {d c : Location} {before : List Bytes} {name : Bytes}
      (way : Way fs n d before k c) (named : IsNamed name)
      (entry : fs.entryAt? (c ++ [name]) = none) :
      Leads fs n d (before ++ [name]) false (.vacant c name)
  | leaf {n k : Nat} {d c : Location} {before : List Bytes} {name : Bytes} {e : Entry}
      (way : Way fs n d before k c) (named : IsNamed name)
      (entry : fs.entryAt? (c ++ [name]) = some e) (no_directory : e ≠ .directory)
      (no_link : ∀ target, e ≠ .link target) :
      Leads fs n d (before ++ [name]) false (.present (c ++ [name]) e)
  | link {n k : Nat} {d c : Location} {before : List Bytes} {name : Bytes} {target : Path}
      {slash : Bool} {place : Place} (way : Way fs n d before (k + 1) c) (named : IsNamed name)
      (entry : fs.entryAt? (c ++ [name]) = some (.link target))
      (next : Leads fs k (Walk.ofPath c target).directory (Walk.ofPath c target).steps
        ((Walk.ofPath c target).slash || slash) place) :
      Leads fs n d (before ++ [name]) slash place

theorem Leads.walk {place : Place} (h : Leads fs n d steps slash place) :
    FileSystem.walk fs .find n ⟨d, steps, slash⟩ = .ok place := by
  induction h with
  | directory way => exact way.walk
  | vacant way named entry =>
    rw [way.walk_append (List.cons_ne_nil _ _), walk_vacant named entry]
    rfl
  | leaf way named entry no_directory no_link =>
    rw [way.walk_append (List.cons_ne_nil _ _), walk_leaf named entry no_directory no_link]
    rfl
  | link way named entry _ ih =>
    rw [way.walk_append (List.cons_ne_nil _ _), walk_link named entry, Walk.followedBy_nil]
    exact ih

/-- **A path is found where it leads.** -/
theorem walk_eq_ok_iff {place : Place} :
    walk fs .find n ⟨d, steps, slash⟩ = .ok place ↔ Leads fs n d steps slash place := by
  refine ⟨fun h => ?_, Leads.walk⟩
  -- By induction on the links left, since a link may have any target.
  induction n using Nat.strongRecOn generalizing d steps slash with
  | ind n ih =>
  rcases List.eq_nil_or_concat steps with rfl | ⟨before, name, rfl⟩
  · obtain rfl := Except.ok.inj (walk_nil.symm.trans h)
    exact .directory .here
  rw [List.concat_eq_append] at h ⊢
  obtain ⟨k, c, way⟩ := exists_way_of_walk_append (List.cons_ne_nil _ _) h
  rw [way.walk_append (List.cons_ne_nil _ _)] at h
  by_cases hdot : name = Path.dot
  · subst hdot
    obtain rfl := Except.ok.inj (walk_nil.symm.trans (walk_dot.symm.trans h))
    exact .directory (way.append (.dot .here))
  by_cases hup : name = Path.dotDot
  · subst hup
    obtain rfl := Except.ok.inj (walk_nil.symm.trans (walk_dotDot.symm.trans h))
    exact .directory (way.append (.up .here))
  by_cases hlong : nameLimit < name.length
  · rw [walk_tooLong hdot hup hlong] at h
    cases h
  have named : IsNamed name := ⟨hdot, hup, Nat.le_of_not_lt hlong⟩
  cases entry : fs.entryAt? (c ++ [name]) with
  | none =>
    rw [walk_vacant named entry] at h
    cases slash with
    | false => exact Except.ok.inj h ▸ .vacant way named entry
    | true => cases h
  | some e =>
    cases e with
    | directory =>
      rw [walk_directory named entry, walk_nil] at h
      exact Except.ok.inj h ▸ .directory (way.append (.down named entry .here))
    | link target =>
      cases k with
      | zero =>
        rw [walk_link_zero named entry] at h
        cases h
      | succ k =>
        rw [walk_link named entry, Walk.followedBy_nil] at h
        exact .link way named entry (ih k (Nat.lt_of_succ_le way.le) h)
    | file | socket | device =>
      rw [walk_leaf named entry Entry.noConfusion fun _ => Entry.noConfusion] at h
      cases slash with
      | false =>
        exact Except.ok.inj h ▸
          .leaf way named entry Entry.noConfusion fun _ => Entry.noConfusion
      | true => cases h

/-- Only ways lead to directories. -/
theorem Leads.exists_way {place : Place} (h : Leads fs n d steps slash place)
    (hplace : place = .present l .directory) : ∃ k, Way fs n d steps k l := by
  induction h with
  | directory way =>
    obtain ⟨rfl, -⟩ := Place.present.inj hplace
    exact ⟨_, way⟩
  | vacant => cases hplace
  | leaf _ _ _ no_directory => exact absurd (Place.present.inj hplace).2 no_directory
  | link way named entry _ ih =>
    obtain ⟨k, hway⟩ := ih hplace
    exact ⟨k, way.append (.link named entry (by rwa [List.append_nil]))⟩

theorem exists_way_of_walk (h : walk fs .find n ⟨d, steps, slash⟩ = .ok (.present l .directory)) :
    ∃ k, Way fs n d steps k l := (walk_eq_ok_iff.1 h).exists_way rfl

end Ways

/-! ### Trees with the same ways -/

/-- The same steps lead to the same directories. -/
def SameWays (fs fs' : FileSystem) : Prop :=
  ∀ n d steps k l, Way fs n d steps k l ↔ Way fs' n d steps k l

section Changes

variable {fs fs' fs'' : FileSystem} {place : Location}

theorem SameWays.refl (fs : FileSystem) : SameWays fs fs := fun _ _ _ _ _ => Iff.rfl

theorem SameWays.symm (h : SameWays fs fs') : SameWays fs' fs := fun _ _ _ _ _ => (h ..).symm

theorem SameWays.trans (h : SameWays fs fs') (h' : SameWays fs' fs'') : SameWays fs fs'' :=
  fun _ _ _ _ _ => (h ..).trans (h' ..)

/-- No directory stands at a place, nor a link that leads to one. -/
structure NoWayThrough (fs : FileSystem) (place : Location) : Prop where
  not_directory : fs.entryAt? place ≠ some .directory
  blind : ∀ target, fs.entryAt? place = some (.link target) → ∀ n k l,
    ¬Way fs n (Walk.ofPath place.dropLast target).directory
      (Walk.ofPath place.dropLast target).steps k l

theorem NoWayThrough.of_leaf (hdir : fs.entryAt? place ≠ some .directory)
    (hlink : ∀ target, fs.entryAt? place ≠ some (.link target)) : NoWayThrough fs place :=
  ⟨hdir, fun target h => absurd h (hlink target)⟩

theorem NoWayThrough.congr (h : NoWayThrough fs place) (hsame : SameWays fs fs')
    (he : fs'.entryAt? place = fs.entryAt? place) : NoWayThrough fs' place :=
  ⟨by rw [he]; exact h.not_directory, fun target ht n k l hway =>
    h.blind target (he ▸ ht) n k l ((hsame ..).2 hway)⟩

/-- A way is kept if all entries are, but for those that no way passes through. -/
theorem Way.of_change (hsame : ∀ l, fs'.entryAt? l = fs.entryAt? l ∨ NoWayThrough fs l) {n k : Nat}
    {d l : Location} {steps : List Bytes} (h : Way fs n d steps k l) : Way fs' n d steps k l := by
  induction h with
  | here => exact .here
  | dot _ ih => exact .dot ih
  | up _ ih => exact .up ih
  | @down n k d l step rest name entry _ ih =>
    rcases hsame (d ++ [step]) with hkept | hold
    · exact .down name (hkept.trans entry) ih
    · exact absurd entry hold.not_directory
  | @link n k d l step target rest name entry next ih =>
    rcases hsame (d ++ [step]) with hkept | hold
    · exact .link name (hkept.trans entry) ih
    · have hblind := hold.blind target entry
      rw [List.dropLast_concat] at hblind
      obtain ⟨k', l', hway, -⟩ := next.exists_of_append
      exact absurd hway (hblind _ _ _)

/-- **A change of entries keeps all ways** if there is no way through them before and
after. -/
theorem sameWays_of_change (h : ∀ l, fs'.entryAt? l = fs.entryAt? l ∨
    NoWayThrough fs l ∧ NoWayThrough fs' l) : SameWays fs fs' := fun _ _ _ _ _ =>
  ⟨.of_change fun l => (h l).imp_right And.left,
    .of_change fun l => (h l).imp Eq.symm And.right⟩

end Changes

end FileSystem
end Rollup
