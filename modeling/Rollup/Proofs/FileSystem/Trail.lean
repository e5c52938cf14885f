/-
# The trail of a lookup

A lookup takes a way up to its last name.  If a link stands there, it goes on along the target
of the link, up to the last name of that.  The places of these last names are its trail
(`FileSystem.Trail`).

In trees with the same ways only what stands on the trail decides what is found.  If the entries
on it are kept, the same is found as before (`FileSystem.Reaches.find_join_congr`).  Where links
go and none come, no place joins a trail (`FileSystem.Trail.of_links`), and what a published name
stands for lies on its trail (`Scan.StandsFor.trail`).
-/

import Rollup.Proofs.FileSystem.Scan

namespace Rollup
namespace FileSystem

/-- The places where a lookup of `steps` comes to a last name: that of the steps and, if a link
stands there, those of its target. -/
inductive Trail (fs : FileSystem) : Location → List Bytes → Location → Prop
  | last {n k : Nat} {d c : Location} {before : List Bytes} {name : Bytes}
      (way : Way fs n d before k c) (named : IsNamed name) :
      Trail fs d (before ++ [name]) (c ++ [name])
  | link {n k : Nat} {d c l : Location} {before : List Bytes} {name : Bytes} {target : Path}
      (way : Way fs n d before k c) (named : IsNamed name)
      (entry : fs.entryAt? (c ++ [name]) = some (.link target))
      (next : Trail fs (Walk.ofPath c target).directory (Walk.ofPath c target).steps l) :
      Trail fs d (before ++ [name]) l

variable {fs fs' : FileSystem} {n k m : Nat} {d c l : Location} {steps before : List Bytes}
  {name : Bytes} {slash : Bool} {place : Place} {entry : Entry} {p : Path}

/-! ### What lies on a trail -/

/-- What is found lies on the trail, unless it is a directory. -/
theorem Leads.trail (h : Leads fs n d steps slash place) (hplace : place = .present l entry)
    (hdir : entry ≠ .directory) : Trail fs d steps l := by
  induction h with
  | directory => exact absurd (Place.present.inj hplace).2.symm hdir
  | vacant => cases hplace
  | leaf way named =>
    obtain ⟨rfl, -⟩ := Place.present.inj hplace
    exact .last way named
  | link way named entry _ ih => exact .link way named entry (ih hplace)

/-- **A trail ends at its last name** or goes on at the link there. -/
theorem Trail.concat_cases (h : Trail fs d (before ++ [name]) l)
    (hwalk : walk fs .find m ⟨d, before, slash⟩ = .ok (.present c .directory)) :
    l = c ++ [name] ∨ ∃ target, fs.entryAt? (c ++ [name]) = some (.link target) ∧
      Trail fs (Walk.ofPath c target).directory (Walk.ofPath c target).steps l := by
  generalize hsteps : before ++ [name] = steps at h
  cases h with
  | last way named =>
    obtain ⟨rfl, hname⟩ := List.append_inj' hsteps rfl
    rw [way.eq_of_walk hwalk, List.singleton_inj.1 hname]
    exact Or.inl rfl
  | link way named entry next =>
    obtain ⟨rfl, hname⟩ := List.append_inj' hsteps rfl
    rw [way.eq_of_walk hwalk, ← List.singleton_inj.1 hname] at entry
    rw [way.eq_of_walk hwalk] at next
    exact Or.inr ⟨_, entry, next⟩

/-! ### Trees with the same ways -/

section Changes

variable (hsame : SameWays fs fs')

include hsame

/-- **No place joins a trail** if no link does. -/
theorem Trail.of_links (h : Trail fs' d steps l)
    (hlinks : ∀ c target, Trail fs d steps c → fs'.entryAt? c = some (.link target) →
      fs.entryAt? c = some (.link target)) : Trail fs d steps l := by
  induction h with
  | last way named => exact .last ((hsame ..).2 way) named
  | link way named entry _ ih =>
    have way := (hsame ..).2 way
    have entry := hlinks _ _ (.last way named) entry
    exact .link way named entry (ih fun c target hc => hlinks c target (.link way named entry hc))

/-- Steps lead where they led if the entries on the trail are kept. -/
theorem Leads.of_kept (h : Leads fs n d steps slash place)
    (hkept : ∀ l, Trail fs d steps l → fs'.entryAt? l = fs.entryAt? l) :
    Leads fs' n d steps slash place := by
  induction h with
  | directory way => exact .directory ((hsame ..).1 way)
  | vacant way named entry =>
    exact .vacant ((hsame ..).1 way) named ((hkept _ (.last way named)).trans entry)
  | leaf way named entry no_directory no_link =>
    exact .leaf ((hsame ..).1 way) named ((hkept _ (.last way named)).trans entry) no_directory no_link
  | link way named entry _ ih =>
    exact .link ((hsame ..).1 way) named ((hkept _ (.last way named)).trans entry)
      (ih fun l hl => hkept l (.link way named entry hl))

theorem leads_congr (hkept : ∀ l, Trail fs d steps l → fs'.entryAt? l = fs.entryAt? l) :
    Leads fs' n d steps slash place ↔ Leads fs n d steps slash place := by
  refine ⟨fun h => h.of_kept hsame.symm fun l hl => ?_, fun h => h.of_kept hsame hkept⟩
  exact (hkept l (hl.of_links hsame fun c target hc he => (hkept c hc).symm.trans he)).symm

end Changes

/-! ### Names in a directory -/

namespace Reaches

variable (h : Reaches fs p k d) (hname : IsEntryName name)

include h hname

/-- A name behind a directory is found where it leads to in the directory. -/
theorem find_join_eq_ok_iff : fs.find (Path.join p name) = .ok (l, entry) ↔
    checkPath (Path.join p name) = .ok () ∧ Leads fs k d [name] false (.present l entry) := by
  cases hcheck : checkPath (Path.join p name) with
  | error fault => simp [find_of_checkPath_error hcheck]
  | ok u =>
    rw [h.find_join hname hcheck, ← walk_eq_ok_iff]
    cases walk fs .find k ⟨d, [name], false⟩ with
    | error fault => simp
    | ok place => cases place <;> simp

/-- **The same is found** behind a name if the entries on its trail are kept. -/
theorem find_join_congr (hsame : SameWays fs fs')
    (hworking : fs'.workingDirectory = fs.workingDirectory)
    (hkept : ∀ l, Trail fs d [name] l → fs'.entryAt? l = fs.entryAt? l) (found : Location × Entry) :
    fs'.find (Path.join p name) = .ok found ↔ fs.find (Path.join p name) = .ok found := by
  rw [(h.of_sameWays hsame hworking).find_join_eq_ok_iff hname, h.find_join_eq_ok_iff hname,
    leads_congr hsame hkept]

end Reaches

end FileSystem

open FileSystem in
/-- **A file that a name stands for** lies on the trail of the name. -/
theorem Scan.StandsFor.trail {fs : FileSystem} {root : Path} {d l : Location} {name content : Bytes}
    (h : StandsFor fs root d name l (.file content)) (hreach : ∃ k, fs.Reaches root k d)
    (hname : IsEntryName name) : Trail fs d [name] l := by
  cases h with
  | itself => exact Trail.last (show Way fs 0 d [] 0 d from .here) hname.toIsNamed
  | link child leads =>
    obtain ⟨k, hreach⟩ := hreach
    obtain ⟨-, hleads⟩ := (hreach.find_join_eq_ok_iff hname).1 leads
    exact hleads.trail rfl Entry.noConfusion

end Rollup
