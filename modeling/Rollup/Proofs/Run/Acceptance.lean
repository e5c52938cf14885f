/-
# How a file is accepted

Processing a file has two halves.  First the file is accepted: its name yields a
group, the aggregate of the group and the content of the file can be read, and the
one can be merged into the other (`accept`).  A file that is refused changes nothing,
there are four causes (`Refused`), and none of them is taken for a file that was saved
and could not be removed (`Refused.isUnmerged`).  Then the merged record is settled
(`Aggregator.attempt_eq`).

The halves are told apart here once, so that what is proved of processing is a case
analysis over the causes.
-/

import Rollup.Aggregator

namespace Rollup

/-! ### Files that are saved but not removed -/

/-- How the reason begins that is given for a file which is saved and still there. -/
def undeletedReason : String := "aggregate saved but file not deleted: "

/-- The file was saved and could not be removed. -/
def Outcome.isUndeleted : Outcome → Bool
  | .failed reason => undeletedReason.toList.isPrefixOf reason.toList
  | _ => false

theorem isUndeleted_append (cause : String) :
    (Outcome.failed (undeletedReason ++ cause)).isUndeleted = true := by
  rw [Outcome.isUndeleted, String.toList_append, List.isPrefixOf_iff_prefix]
  exact List.prefix_append ..

theorem StorageError.head?_message_ne (e : StorageError) : e.message.toList.head? ≠ some 'a' := by
  cases e with
  | directoryMissing path =>
    show ("directory not found: " ++ Path.display path).toList.head? ≠ _
    simp
  | notFound path =>
    show ("file not found: " ++ Path.display path).toList.head? ≠ _
    simp
  | malformed path error =>
    show ("malformed file " ++ Path.display path ++ ": " ++ error.message).toList.head? ≠ _
    simp
  | io path fault =>
    show ("I/O error on " ++ Path.display path ++ ": " ++ fault.message).toList.head? ≠ _
    simp

/-- What a storage complains of is not taken for such a reason. -/
theorem StorageError.not_isUndeleted (e : StorageError) :
    (Outcome.failed e.message).isUndeleted = false := by
  refine Bool.eq_false_iff.2 fun hundeleted => e.head?_message_ne ?_
  rw [Outcome.isUndeleted, List.isPrefixOf_iff_prefix] at hundeleted
  obtain ⟨rest, hrest⟩ := hundeleted
  rw [← hrest, undeletedReason, List.head?_append]
  simp

/-- The file was skipped, or it failed before it was saved. -/
def Outcome.IsUnmerged (o : Outcome) : Prop :=
  o.isSkipped = true ∨ o.isFailed = true ∧ o.isUndeleted = false

/-! ### Accepting a file -/

section Acceptance

variable {load load' : GroupName → Except StorageError Record}
  {read read' : String → Except StorageError Record} {file : String}

/-- The group of a file, and the record of the group with the file merged into it; or
what prevents it. -/
def accept (load : GroupName → Except StorageError Record)
    (read : String → Except StorageError Record) (file : String) :
    Except Attempt (GroupName × Record) :=
  match GroupName.ofFile file with
  | .error e => .error (.unnamed e)
  | .ok g =>
    match load g with
    | .error e => .error (.rejected g e)
    | .ok existing =>
      match read file with
      | .error e => .error (.rejected g e)
      | .ok incoming =>
        match existing.merge incoming with
        | .error e => .error (.overflowed g e)
        | .ok r => .ok (g, r)

/-- Why a file is refused, and what becomes of it. -/
inductive Refused (load : GroupName → Except StorageError Record)
    (read : String → Except StorageError Record) (file : String) : Attempt → Prop
  | unnamed {e : NameError} (name : GroupName.ofFile file = .error e) :
      Refused load read file (.unnamed e)
  | unloaded {g : GroupName} {e : StorageError} (name : GroupName.ofFile file = .ok g)
      (loading : load g = .error e) : Refused load read file (.rejected g e)
  | unread {g : GroupName} {e : StorageError} {existing : Record}
      (name : GroupName.ofFile file = .ok g) (loading : load g = .ok existing)
      (reading : read file = .error e) : Refused load read file (.rejected g e)
  | overflow {g : GroupName} {e : MergeError} {existing incoming : Record}
      (name : GroupName.ofFile file = .ok g) (loading : load g = .ok existing)
      (reading : read file = .ok incoming) (merging : existing.merge incoming = .error e) :
      Refused load read file (.overflowed g e)

theorem accept_eq_ok_iff {g : GroupName} {r : Record} :
    accept load read file = .ok (g, r) ↔ GroupName.ofFile file = .ok g ∧
      ∃ existing incoming, load g = .ok existing ∧ read file = .ok incoming ∧
        existing.merge incoming = .ok r := by
  unfold accept
  constructor
  · intro h
    split at h
    · cases h
    rename_i k hg
    split at h
    · cases h
    rename_i existing hl
    split at h
    · cases h
    rename_i incoming hr
    split at h
    · cases h
    rename_i r' hm
    obtain ⟨rfl, rfl⟩ := Prod.mk.inj (Except.ok.inj h)
    exact ⟨hg, existing, incoming, hl, hr, hm⟩
  · rintro ⟨hg, existing, incoming, hl, hr, hm⟩
    simp only [hg, hl, hr, hm]

theorem accept_eq_error_iff {t : Attempt} :
    accept load read file = .error t ↔ Refused load read file t := by
  unfold accept
  constructor
  · intro h
    split at h
    · obtain rfl := Except.error.inj h
      exact .unnamed ‹_›
    split at h
    · obtain rfl := Except.error.inj h
      exact .unloaded ‹_› ‹_›
    split at h
    · obtain rfl := Except.error.inj h
      exact .unread ‹_› ‹_› ‹_›
    split at h
    · obtain rfl := Except.error.inj h
      exact .overflow ‹_› ‹_› ‹_› ‹_›
    · cases h
  · intro h
    cases h with
    | unnamed hg => simp only [hg]
    | unloaded hg hl => simp only [hg, hl]
    | unread hg hl hr => simp only [hg, hl, hr]
    | overflow hg hl hr hm => simp only [hg, hl, hr, hm]

/-- A file is refused or accepted. -/
theorem accept_cases (load : GroupName → Except StorageError Record)
    (read : String → Except StorageError Record) (file : String) :
    (∃ t, accept load read file = .error t ∧ Refused load read file t) ∨
      ∃ g r, accept load read file = .ok (g, r) := by
  cases h : accept load read file with
  | error t => exact Or.inl ⟨t, rfl, accept_eq_error_iff.1 h⟩
  | ok p => exact Or.inr ⟨p.1, p.2, rfl⟩

theorem accept_congr (hload : load = load') (hread : read file = read' file) :
    accept load read file = accept load' read' file := by
  unfold accept
  rw [hload, hread]

theorem Refused.group?_eq {t : Attempt} (h : Refused load read file t) :
    t.group? = (GroupName.ofFile file).toOption := by
  cases h with
  | unnamed hg => rw [hg]; rfl
  | unloaded hg | unread hg | overflow hg => rw [hg]; rfl

/-- What is refused is not merged. -/
theorem Refused.ne_merged {t : Attempt} (h : Refused load read file t) (g : GroupName) :
    t ≠ .merged g := by
  rintro rfl
  cases h

/-- A file that is refused is skipped or fails, and is not saved. -/
theorem Refused.isUnmerged {t : Attempt} (h : Refused load read file t) : t.outcome.IsUnmerged := by
  have hrejected : ∀ k e, (Attempt.rejected k e).outcome.IsUnmerged := by
    intro k e
    rw [Attempt.outcome]
    split
    · exact Or.inl rfl
    · exact Or.inr ⟨rfl, e.not_isUndeleted⟩
  cases h with
  | unnamed | overflow => exact Or.inl rfl
  | unloaded | unread => exact hrejected _ _

end Acceptance

namespace Aggregator

/-- **Processing a file is accepting it and settling the merged record.** -/
theorem attempt_eq {σ : Type} [Storage σ] (a : Aggregator σ) (file : String) :
    a.attempt file =
      match accept a.currentAggregate (Storage.readPublished a.storage) file with
      | .error t => (t, a)
      | .ok (g, r) => a.settle file g r := by
  rcases accept_cases a.currentAggregate (Storage.readPublished a.storage) file with
    ⟨t, ht, hrefused⟩ | ⟨g, r, h⟩
  · rw [ht]
    cases hrefused with
    | unnamed hg => simp only [attempt, hg]
    | unloaded hg hl => simp only [attempt, hg, hl]
    | unread hg hl hr => simp only [attempt, hg, hl, hr]
    | overflow hg hl hr hm => simp only [attempt, hg, hl, hr, hm]
  · obtain ⟨hg, existing, incoming, hl, hr, hm⟩ := accept_eq_ok_iff.1 h
    rw [h]
    simp only [attempt, hg, hl, hr, hm]

section

variable {σ : Type} [Storage σ] {a : Aggregator σ} {file : String}

theorem attempt_of_refused {t : Attempt}
    (h : accept a.currentAggregate (Storage.readPublished a.storage) file = .error t) :
    a.attempt file = (t, a) := by rw [attempt_eq, h]

theorem attempt_of_accepted {g : GroupName} {r : Record}
    (h : accept a.currentAggregate (Storage.readPublished a.storage) file = .ok (g, r)) :
    a.attempt file = a.settle file g r := by rw [attempt_eq, h]

end

end Aggregator
end Rollup
