/-
# A run that is cut short loses nothing

A real run over a storage in memory is stopped after any number of its storage calls.
At that point every file that was removed had been saved into the aggregate of its
group before, the aggregate of a group is the fold over exactly the files saved for
it so far, and what is still published is as it was (`MemoryStore.Intact`).  A file
that is saved but still there is locked, or it is the one whose save was the last
call: this is the one file that a later run would merge a second time.

Between two files the storage stands where the accounts say (`Aggregator.Tracks`),
and the calls made are those of the files in the accounts (`MemoryStore.Recorded`).
Within a file only the save and the removal change anything, so there is one more
point to look at, the one between them (`Intact.of_account` covers all of them).
-/

import Rollup.Proofs.Run.Calls
import Rollup.Proofs.Run.Outcomes

namespace Rollup

namespace Step

variable {σ : Type} {s : σ} {g : GroupName}

theorem savedFor_append (g : GroupName) (steps more : List (Step σ)) :
    savedFor g (steps ++ more) = savedFor g steps ++ savedFor g more := List.filterMap_append

theorem reached_append (s : σ) (steps more : List (Step σ)) :
    reached s (steps ++ more) = reached (reached s steps) more := by
  unfold reached
  rw [List.getLast?_append]
  cases more.getLast? <;> rfl

theorem reached_of_idle {steps : List (Step σ)} (h : ∀ step ∈ steps, step.IsIdle s) :
    reached s steps = s := by
  unfold reached
  cases hlast : steps.getLast? with
  | none => rfl
  | some step => exact (h step (List.mem_of_getLast? hlast)).after

theorem savedFor_of_idle {steps : List (Step σ)} (h : ∀ step ∈ steps, step.IsIdle s) :
    savedFor g steps = [] :=
  List.filterMap_eq_nil_iff.2 fun step hstep => (h step hstep).saved g

theorem savedFor?_save (file : String) (g k : GroupName) (r : Record) (ok : Bool) (s : σ) :
    savedFor? k ⟨.save file g r, ok, s⟩ = if ok = true ∧ g = k then some file else none := rfl

theorem savedFor_cons_of_none {step : Step σ} (h : step.savedFor? g = none) (steps : List (Step σ)) :
    savedFor g (step :: steps) = savedFor g steps := List.filterMap_cons_none h

theorem savedFor_cons_of_some {step : Step σ} {file : String} (h : step.savedFor? g = some file)
    (steps : List (Step σ)) : savedFor g (step :: steps) = file :: savedFor g steps :=
  List.filterMap_cons_some h

end Step

namespace MemoryStore

open Step

/-- The steps up to the save of a file that is merged and can be saved. -/
def stepsToSave (s : MemoryStore) (file : String) (g : GroupName) (r : Record) :
    List (Step MemoryStore) :=
  [⟨.load g, true, s⟩, ⟨.read file, true, s⟩,
    ⟨.save file g r, true, s.putAggregate g (RowFormat.render r)⟩]

/-- The file was saved for its group and removed after that. -/
def RemovedAfterSave (steps : List (Step MemoryStore)) (file : String) : Prop :=
  ∃ before step later g, steps = before ++ step :: later ∧ step.Removes file ∧
    GroupName.ofFile file = .ok g ∧ file ∈ savedFor g before

/-- Nothing of `s` is lost in the storage that a real run from `s` has reached by these
steps. -/
structure Intact (s : MemoryStore) (steps : List (Step MemoryStore)) : Prop where
  /-- Only pending files are saved, each for its own group. -/
  own : ∀ g, ∀ file ∈ savedFor g steps, file ∈ s.published ∧ GroupName.ofFile file = .ok g
  once : ∀ g, (savedFor g steps).Nodup
  /-- The aggregate of a group is the fold over exactly the files saved so far. -/
  saved : ∀ g, savedFor g steps ≠ [] → ∃ record, s.IsFold g (savedFor g steps) record ∧
    (reached s steps).aggregates[g]? = some (RowFormat.render record)
  unsaved : ∀ g, savedFor g steps = [] → (reached s steps).aggregates[g]? = s.aggregates[g]?
  /-- A file is as it was, or it was removed after it had been saved. -/
  published : ∀ file, (reached s steps).published[file]? = s.published[file]? ∨
    (reached s steps).published[file]? = none ∧ RemovedAfterSave steps file
  /-- A file that is saved but not removed is locked, or its save was the last call. -/
  remaining : ∀ g, ∀ file ∈ savedFor g steps, file ∈ (reached s steps).published →
    file ∈ s.locked ∨ ∃ step, steps.getLast? = some step ∧ step.savedFor? g = some file

/-- The steps are those of the files in the accounts. -/
structure Recorded (s : MemoryStore) (earlier : List String) (steps : List (Step MemoryStore)) :
    Prop where
  saved : ∀ g, savedFor g steps = (s.account false g earlier).files
  removed : ∀ file, s.Consumed false earlier file → RemovedAfterSave steps file

variable {s : MemoryStore} {earlier : List String} {steps more : List (Step MemoryStore)}
  {file : String} {g : GroupName} {r : Record}

theorem RemovedAfterSave.append (h : RemovedAfterSave steps file) (more : List (Step MemoryStore)) :
    RemovedAfterSave (steps ++ more) file := by
  obtain ⟨before, step, later, g, rfl, hstep⟩ := h
  exact ⟨before, step, later ++ more, g, by simp, hstep⟩

/-! ### Files in accounts -/

theorem account_files_sublist (dry : Bool) (g : GroupName) (files : List String) :
    (s.account dry g files).files.Sublist files := by
  induction files using List.reverseRecOn with
  | nil => exact .slnil
  | append_singleton files file ih =>
    rw [account_concat]
    cases hnext : s.next? dry g (s.account dry g files).record file with
    | none =>
      rw [enter_of_none hnext]
      exact ih.trans (List.sublist_append_left ..)
    | some r =>
      rw [enter_of_next? hnext]
      exact ih.append (List.Sublist.refl _)

theorem ofFile_of_mem_account {dry : Bool} {files : List String}
    (h : file ∈ (s.account dry g files).files) : GroupName.ofFile file = .ok g := by
  refine account_induction (P := fun acc => ∀ f ∈ acc.files, GroupName.ofFile f = .ok g)
    (fun _ hf => absurd hf List.not_mem_nil) (fun acc f r hacc hnext f' hf' => ?_) files file h
  rw [Account.files_add] at hf'
  rcases List.mem_append.1 hf' with hf' | hf'
  · exact hacc f' hf'
  · obtain rfl := List.mem_singleton.1 hf'
    exact (accept_eq_ok_iff.1 (next?_eq_some_iff.1 hnext).2).1

/-- A file that was merged in a real run is removed or locked. -/
theorem consumed_or_locked (h : file ∈ (s.account false g earlier).files) :
    s.Consumed false earlier file ∨ file ∈ s.locked := by
  induction earlier using List.reverseRecOn with
  | nil => cases h
  | append_singleton earlier last ih =>
    rw [account_concat] at h
    rw [consumed_concat]
    cases hnext : s.next? false g (s.account false g earlier).record last with
    | none =>
      rw [enter_of_none hnext] at h
      exact (ih h).imp_left Or.inl
    | some r =>
      rw [enter_of_next? hnext, Account.files_add] at h
      rcases List.mem_append.1 h with h | h
      · exact (ih h).imp_left Or.inl
      obtain rfl := List.mem_singleton.1 h
      obtain ⟨hw, haccept⟩ := next?_account_eq_some_iff.1 hnext
      have hw : g ∉ s.readOnly := hw.resolve_left Bool.false_ne_true
      by_cases hl : file ∈ s.locked
      · exact Or.inr hl
      · refine Or.inl (Or.inr ⟨rfl, g, ?_⟩)
        rw [forecast_of_accepted haccept, verdict, if_neg Bool.false_ne_true, if_neg hw, if_neg hl]

/-! ### Points of a run -/

theorem savedFor_stepsToSave (s : MemoryStore) (file : String) (g k : GroupName) (r : Record) :
    savedFor k (s.stepsToSave file g r) = if g = k then [file] else [] := by
  have hsave := savedFor?_save file g k r true (s.putAggregate g (RowFormat.render r))
  rw [stepsToSave, savedFor_cons_of_none rfl, savedFor_cons_of_none rfl]
  by_cases hk : g = k
  · rw [savedFor_cons_of_some (hsave.trans (if_pos ⟨rfl, hk⟩)), if_pos hk]
    rfl
  · rw [savedFor_cons_of_none (hsave.trans (if_neg fun h => hk h.2)), if_neg hk]
    rfl

theorem reached_stepsToSave (t : MemoryStore) :
    reached t (s.stepsToSave file g r) = s.putAggregate g (RowFormat.render r) := rfl

/-- A file in the account of its group is recorded by the steps up to its save. -/
theorem Recorded.savedFor_append_stepsToSave (h : s.Recorded earlier steps)
    (hnext : s.next? false g (s.account false g earlier).record file = some r) (t : MemoryStore)
    (k : GroupName) : savedFor k (steps ++ t.stepsToSave file g r) =
      (s.account false k (earlier ++ [file])).files := by
  rw [savedFor_append, h.saved, savedFor_stepsToSave, account_concat_of_next? hnext]
  by_cases hk : g = k
  · subst hk
    rw [if_pos rfl, if_pos rfl, Account.files_add]
  · rw [if_neg hk, if_neg hk, List.append_nil]

/-- **Where the accounts stand, nothing is lost.** -/
theorem Intact.of_account {accounted : List String} (hnodup : accounted.Nodup)
    (hpending : ∀ f ∈ accounted, f ∈ s.published)
    (hsaved : ∀ g, savedFor g steps = (s.account false g accounted).files)
    (hstored : ∀ g, (reached s steps).aggregates[g]? =
      (s.account false g accounted).text?.or s.aggregates[g]?)
    (hpublished : ∀ f, (reached s steps).published[f]? = s.published[f]? ∨
      (reached s steps).published[f]? = none ∧ RemovedAfterSave steps f)
    (hremaining : ∀ g, ∀ f ∈ savedFor g steps, f ∈ (reached s steps).published →
      f ∈ s.locked ∨ ∃ step, steps.getLast? = some step ∧ step.savedFor? g = some f) :
    s.Intact steps where
  own g f hf := by
    rw [hsaved] at hf
    exact ⟨hpending f ((account_files_sublist false g accounted).subset hf), ofFile_of_mem_account hf⟩
  once g := by
    rw [hsaved]
    exact hnodup.sublist (account_files_sublist false g accounted)
  saved g hne := by
    rw [hsaved] at hne ⊢
    rw [hstored, Account.text?_of_ne_nil hne, Option.some_or]
    exact ⟨_, isFold_account accounted, rfl⟩
  unsaved g hnil := by
    rw [hsaved] at hnil
    rw [hstored, Account.text?_of_nil hnil, Option.none_or]
  published := hpublished
  remaining := hremaining

end MemoryStore

namespace Aggregator

open MemoryStore Step Procedure

variable {s : MemoryStore} {earlier : List String} {steps : List (Step MemoryStore)}
  {file : String} {a : Aggregator MemoryStore}

theorem Tracks.published (h : Tracks s earlier a) (hreal : a.dryRun = false)
    (hrec : s.Recorded earlier steps) (f : String) :
    a.storage.published[f]? = s.published[f]? ∨
      a.storage.published[f]? = none ∧ RemovedAfterSave steps f := by
  by_cases hgone : s.Consumed a.dryRun earlier f
  · exact Or.inr ⟨h.consumed f hgone, hrec.removed f (hreal ▸ hgone)⟩
  · exact Or.inl (h.kept f hgone)

/-- A file that is merged and still there is locked. -/
theorem Tracks.locked_of_published (h : Tracks s earlier a) (hreal : a.dryRun = false)
    {g : GroupName} (hmerged : file ∈ (s.account false g earlier).files)
    (hthere : file ∈ a.storage.published) : file ∈ s.locked :=
  (consumed_or_locked hmerged).resolve_left (hreal ▸ (h.mem_published_iff.1 hthere).2)

/-- Between two files, and after calls that change nothing, nothing is lost. -/
theorem Tracks.intact (h : Tracks s earlier a) (hreal : a.dryRun = false)
    (hnodup : earlier.Nodup) (hpending : ∀ f ∈ earlier, f ∈ s.published)
    (hreached : reached s steps = a.storage) (hrec : s.Recorded earlier steps)
    {idle : List (Step MemoryStore)} (hidle : ∀ step ∈ idle, step.IsIdle a.storage) :
    s.Intact (steps ++ idle) := by
  have hsaved : ∀ g, savedFor g (steps ++ idle) = (s.account false g earlier).files := fun g => by
    rw [savedFor_append, savedFor_of_idle hidle, List.append_nil, hrec.saved]
  have hsame : reached s (steps ++ idle) = a.storage := by
    rw [reached_append, hreached, reached_of_idle hidle]
  refine .of_account hnodup hpending hsaved (fun g => ?_) (fun f => ?_) fun g f hf hthere => ?_
  · rw [hsame, h.stored hreal, hreal]
  · rw [hsame]
    exact (h.published hreal hrec f).imp_right fun hgone => ⟨hgone.1, hgone.2.append idle⟩
  · rw [hsaved] at hf
    rw [hsame] at hthere
    exact Or.inl (h.locked_of_published hreal hf hthere)

theorem Tracks.accept_loaded (h : Tracks s earlier a) (hreal : a.dryRun = false)
    (hnew : file ∉ earlier) :
    Rollup.accept (loaded a.storage) (Storage.readPublished a.storage) file =
      s.acceptAfter false earlier file := by
  rw [← currentAggregate_real hreal, h.accept hnew, hreal]

/-- The steps of a file in a real run: they change nothing, and the file enters no
account; or the file is saved and enters the account of its group, and then an
attempt is made to remove it. -/
theorem Tracks.steps_merging (h : Tracks s earlier a) (hreal : a.dryRun = false)
    (hnew : file ∉ earlier) :
    ((∀ step ∈ (merging file).steps a.storage, step.IsIdle a.storage) ∧
      ∀ g, s.next? false g (s.account false g earlier).record file = none) ∨
    ∃ g r removal, s.next? false g (s.account false g earlier).record file = some r ∧
      (merging file).steps a.storage = a.storage.stepsToSave file g r ++ [removal] ∧
      (∀ k, removal.savedFor? k = none) ∧
      (s.forecast false earlier file = .merged g → removal.Removes file) := by
  have hsame := h.accept_loaded hreal hnew
  cases haccept : s.acceptAfter false earlier file with
  | error t =>
    exact Or.inl ⟨isIdle_of_refused (hsame.trans haccept), next?_of_refused haccept⟩
  | ok p =>
    obtain ⟨g, r⟩ := p
    have hsteps := steps_of_accepted (hsame.trans haccept)
    rcases next?_of_accepted haccept with hnext | ⟨-, hro, hnone⟩
    · have hw := (next?_account_eq_some_iff.1 hnext).1.resolve_left Bool.false_ne_true
      have hsave := saveAggregate_of_writable (h.readOnly ▸ hw) r
      rw [hsave] at hsteps
      refine Or.inr ⟨g, r, _, hnext, hsteps, fun _ => rfl, fun hmerged => ⟨rfl, ?_⟩⟩
      -- The file is not locked, and it is still pending.
      rw [forecast_of_accepted haccept, verdict, if_neg Bool.false_ne_true, if_neg hw] at hmerged
      have hl : file ∉ s.locked := fun hl => by rw [if_pos hl] at hmerged; cases hmerged
      obtain ⟨-, -, incoming, hread, -⟩ := acceptAfter_eq_ok_iff.1 haccept
      have hpending := mem_of_readPublished ((h.readPublished hnew).trans hread)
      have hconsume := consume_of_pending
        (s := a.storage.putAggregate g (RowFormat.render r)) (h.locked ▸ hl) hpending
      show (Storage.consume (a.storage.putAggregate g (RowFormat.render r)) file).1.isOk = true
      rw [hconsume]
      rfl
    · rw [saveAggregate_of_readOnly (h.readOnly ▸ hro)] at hsteps
      refine Or.inl ⟨fun step hstep => ?_, hnone⟩
      rw [hsteps] at hstep
      simp only [List.mem_cons, List.not_mem_nil, or_false] at hstep
      rcases hstep with rfl | rfl | rfl
      · exact ⟨rfl, fun _ => rfl⟩
      · exact ⟨rfl, fun _ => rfl⟩
      · refine ⟨rfl, fun k => (savedFor?_save ..).trans (if_neg ?_)⟩
        exact fun hok => Bool.false_ne_true hok.1

/-- The steps of a file are recorded with it. -/
theorem Tracks.recorded (h : Tracks s earlier a) (hreal : a.dryRun = false) (hnew : file ∉ earlier)
    (hrec : s.Recorded earlier steps) :
    s.Recorded (earlier ++ [file]) (steps ++ (merging file).steps a.storage) := by
  rcases h.steps_merging hreal hnew with ⟨hidle, hnone⟩ |
    ⟨g, r, removal, hnext, hsteps, hother, hremoves⟩
  · refine ⟨fun g => ?_, fun f hf => ?_⟩
    · rw [savedFor_append, savedFor_of_idle hidle, List.append_nil, account_concat,
        enter_of_none (hnone g), hrec.saved]
    · exact (hrec.removed f ((consumed_concat_of_none hnone).1 hf)).append _
  · have hsaved := hrec.savedFor_append_stepsToSave hnext a.storage
    rw [hsteps, ← List.append_assoc]
    refine ⟨fun k => ?_, fun f hf => ?_⟩
    · rw [savedFor_append, hsaved, savedFor_cons_of_none (hother k)]
      exact List.append_nil _
    · rcases (consumed_concat_of_next? hnext).1 hf with hf | ⟨rfl, hmerged⟩
      · rw [List.append_assoc]
        exact (hrec.removed f hf).append _
      · refine ⟨_, removal, [], g, rfl, hremoves hmerged, ?_, ?_⟩
        · exact (acceptAfter_eq_ok_iff.1 (next?_account_eq_some_iff.1 hnext).2).1
        · rw [hsaved, account_concat_of_next? hnext, if_pos rfl]
          exact List.mem_append_right _ (List.mem_singleton_self f)

/-- Between the save and the removal of a file, nothing is lost. -/
theorem Tracks.intact_saved (h : Tracks s earlier a) (hreal : a.dryRun = false)
    (hnodup : (earlier ++ [file]).Nodup) (hpending : ∀ f ∈ earlier ++ [file], f ∈ s.published)
    (hrec : s.Recorded earlier steps) {g : GroupName}
    {r : Record} (hnext : s.next? false g (s.account false g earlier).record file = some r) :
    s.Intact (steps ++ a.storage.stepsToSave file g r) := by
  have haccount := account_concat_of_next? hnext
  have hsaved := hrec.savedFor_append_stepsToSave hnext a.storage
  have hsame : reached s (steps ++ a.storage.stepsToSave file g r) =
      a.storage.putAggregate g (RowFormat.render r) := by
    rw [reached_append, reached_stepsToSave]
  refine .of_account hnodup hpending hsaved (fun k => ?_) (fun f => ?_) fun k f hf hthere => ?_
  · rw [hsame, getElem?_putAggregate, haccount]
    by_cases hk : g = k
    · rw [if_pos hk, if_pos hk, Account.text?_add, Option.some_or]
    · rw [if_neg hk, if_neg hk, h.stored hreal, hreal]
  · rw [hsame]
    exact (h.published hreal hrec f).imp_right fun hgone => ⟨hgone.1, hgone.2.append _⟩
  · rw [hsaved, haccount] at hf
    rw [hsame] at hthere
    by_cases hk : g = k
    · subst hk
      rw [if_pos rfl, Account.files_add] at hf
      rcases List.mem_append.1 hf with hf | hf
      · exact Or.inl (h.locked_of_published hreal hf hthere)
      · obtain rfl := List.mem_singleton.1 hf
        refine Or.inr ⟨⟨.save f g r, true, a.storage.putAggregate g (RowFormat.render r)⟩, ?_, ?_⟩
        · simp [stepsToSave]
        · rw [savedFor?_save, if_pos ⟨rfl, rfl⟩]
    · rw [if_neg hk] at hf
      exact Or.inl (h.locked_of_published hreal hf hthere)

/-- Nothing is lost while a file is processed. -/
theorem Tracks.intact_take (h : Tracks s earlier a) (hreal : a.dryRun = false)
    (hnodup : (earlier ++ [file]).Nodup) (hpending : ∀ f ∈ earlier ++ [file], f ∈ s.published)
    (hreached : reached s steps = a.storage) (hrec : s.Recorded earlier steps) (n : Nat) :
    s.Intact (steps ++ ((merging file).steps a.storage).take n) := by
  have hnew : file ∉ earlier := fun hmem =>
    (List.nodup_append.1 hnodup).2.2 file hmem file (by simp) rfl
  have hbefore : ∀ {idle : List (Step MemoryStore)}, (∀ step ∈ idle, step.IsIdle a.storage) →
      s.Intact (steps ++ idle) := fun hidle =>
    h.intact hreal (List.nodup_append.1 hnodup).1 (fun f hf => hpending f (List.mem_append_left _ hf))
      hreached hrec hidle
  have hafter : s.Intact (steps ++ (merging file).steps a.storage) := by
    obtain ⟨-, hdry, htracks⟩ := h.attempt hnew
    have hend : reached s (steps ++ (merging file).steps a.storage) = (a.attempt file).2.storage := by
      rw [reached_append, hreached, reached_steps, ← attempt_eq_merging hreal]
    have hidle : ∀ step ∈ ([] : List (Step MemoryStore)), step.IsIdle (a.attempt file).2.storage :=
      fun _ hstep => absurd hstep List.not_mem_nil
    have hintact :=
      htracks.intact (hdry.trans hreal) hnodup hpending hend (h.recorded hreal hnew hrec) hidle
    rwa [List.append_nil] at hintact
  rcases h.steps_merging hreal hnew with ⟨hidle, -⟩ | ⟨g, r, removal, hnext, hsteps, -, -⟩
  · exact hbefore fun step hstep => hidle step (List.mem_of_mem_take hstep)
  · have hload : Step.IsIdle a.storage ⟨.load g, true, a.storage⟩ := ⟨rfl, fun _ => rfl⟩
    have hread : Step.IsIdle a.storage ⟨.read file, true, a.storage⟩ := ⟨rfl, fun _ => rfl⟩
    match n with
    | 0 => exact hbefore (by simp)
    | 1 => exact hbefore (by simp [hsteps, stepsToSave, hload])
    | 2 => exact hbefore (by simp [hsteps, stepsToSave, hload, hread])
    | 3 =>
      rw [hsteps]
      exact h.intact_saved hreal hnodup hpending hrec hnext
    | n + 4 =>
      rw [List.take_of_length_le (by simp [hsteps, stepsToSave])]
      exact hafter

/-- Nothing is lost while files are processed. -/
theorem Tracks.intact_take_all {files : List String} (h : Tracks s earlier a)
    (hreal : a.dryRun = false) (hnodup : (earlier ++ files).Nodup)
    (hpending : ∀ f ∈ earlier ++ files, f ∈ s.published) (hreached : reached s steps = a.storage)
    (hrec : s.Recorded earlier steps) (n : Nat) :
    s.Intact (steps ++ ((mergingAll files).steps a.storage).take n) := by
  induction files generalizing earlier a steps n with
  | nil =>
    rw [List.append_nil] at hnodup hpending
    exact h.intact hreal hnodup hpending hreached hrec (by simp [mergingAll, Procedure.steps])
  | cons file rest ih =>
    have hsplit : earlier ++ file :: rest = (earlier ++ [file]) ++ rest := by simp
    rw [hsplit] at hnodup hpending
    have hone : (earlier ++ [file]).Nodup := (List.nodup_append.1 hnodup).1
    have hnew : file ∉ earlier := fun hmem =>
      (List.nodup_append.1 hone).2.2 file hmem file (by simp) rfl
    have hsteps : (mergingAll (file :: rest)).steps a.storage =
        (merging file).steps a.storage ++ (mergingAll rest).steps (a.attempt file).2.storage := by
      rw [mergingAll, steps_bind, ← attempt_eq_merging hreal, steps_bind]
      simp [Procedure.steps]
    rw [hsteps, List.take_append]
    rcases Nat.le_total n ((merging file).steps a.storage).length with hn | hn
    · rw [Nat.sub_eq_zero_of_le hn, List.take_zero, List.append_nil]
      exact h.intact_take hreal hone (fun f hf => hpending f (List.mem_append_left _ hf)) hreached
        hrec n
    · rw [List.take_of_length_le hn, ← List.append_assoc]
      obtain ⟨-, hdry, htracks⟩ := h.attempt hnew
      refine ih htracks (hdry.trans hreal) hnodup hpending ?_ (h.recorded hreal hnew hrec) _
      rw [reached_append, hreached, reached_steps, ← attempt_eq_merging hreal]

/-- **A run that is cut short loses nothing.**  A real run over a storage in memory
makes the calls of `mergingAll`: they end where the run does, and what it saves and removes, as
the journal has it, is what they save and remove.  After any number of them every file that was
removed had been saved before, each aggregate is the fold over exactly the files saved
so far, and every file still published is as it was; of those that are saved and still
there only the one whose save was the last call is not locked. -/
theorem run_cut_short (a : Aggregator MemoryStore) (hreal : a.dryRun = false) (runDate : Moment)
    (duration : Binary64) :
    reached a.storage ((mergingAll a.storage.publishedNames).steps a.storage) =
      (a.run runDate duration).2.storage ∧
    (a.journaled.run runDate duration).2.storage = ⟨(a.run runDate duration).2.storage,
      changes ((mergingAll a.storage.publishedNames).steps a.storage)⟩ ∧
    ∀ n, a.storage.Intact (((mergingAll a.storage.publishedNames).steps a.storage).take n) := by
  have hlist : Storage.listPending a.storage =
      .ok ⟨a.storage.publishedNames, a.storage.unusable⟩ := rfl
  refine ⟨?_, storage_run_journaled hreal rfl hlist runDate duration, fun n => ?_⟩
  · obtain ⟨report, last, hrun, -, hlast⟩ := run_eq_mergingAll hreal rfl hlist runDate duration
    rw [hrun, reached_steps]
    exact hlast.symm
  · have hnodup : a.storage.publishedNames.Nodup := Std.TreeMap.nodup_keys
    have hnone : a.storage.Recorded [] [] := by
      refine ⟨fun _ => rfl, ?_⟩
      rintro file ⟨before, later, g, hnil, -⟩
      simp at hnil
    have hstart : reached a.storage [] = a.storage := rfl
    exact (tracks_start a).intact_take_all hreal hnodup (fun _ => Std.TreeMap.mem_keys.1) hstart
      hnone n

/-- A run is cut short between the save and the removal of a file. -/
theorem run_cut_short_saved :
    let a := new ((MemoryStore.empty.publish "web_1" "1\n\n\n").publish "web_2" "2\n\n\n") false
    let steps := ((mergingAll a.storage.publishedNames).steps a.storage).take 3
    a.dryRun = false ∧ a.storage.Intact steps ∧
      savedFor ⟨"web", by simp [isUsableName]⟩ steps = ["web_1"] ∧
      (reached a.storage steps).publishedNames = ["web_1", "web_2"] := by
  intro a steps
  have hnames : a.storage.publishedNames = ["web_1", "web_2"] := by decide +kernel
  have hfirst : GroupName.ofFile "web_1" = .ok ⟨"web", by simp [isUsableName]⟩ := by cbv
  have hsecond : GroupName.ofFile "web_2" = .ok ⟨"web", by simp [isUsableName]⟩ := by cbv
  have hend : savedFor ⟨"web", by simp [isUsableName]⟩ steps = ["web_1"] ∧
      (reached a.storage steps).publishedNames = ["web_1", "web_2"] := by
    simp only [steps, hnames, mergingAll, merging, hfirst, hsecond]
    decide +kernel
  exact ⟨rfl, (run_cut_short a rfl ⟨0, 0⟩ (.zero false)).2.2 3, hend⟩

end Aggregator
end Rollup
