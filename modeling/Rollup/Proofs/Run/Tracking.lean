/-
# Runs track the accounts of their groups

`Tracks` is the invariant that ties a run over a storage in memory to the accounts
of its groups: what is staged is the account, and what is stored is the account as
text.  One file keeps it and is processed as forecast (`Tracks.attempt`), because the
text of an account reads back as its record (`Tracks.currentAggregate`); so does a
list of different files (`Tracks.processAll`), and so a whole run (`run_memory`).
Both modes are covered: a dry run stages what it does not save, and its accounts pass
over nothing but files that are refused.
-/

import Rollup.Proofs.Run.Account

namespace Rollup

namespace Aggregator

variable {s : MemoryStore} {earlier : List String} {file : String} {a : Aggregator MemoryStore}

/-- A run that began on `s` stands where the accounts of the files processed so far
say. -/
structure Tracks (s : MemoryStore) (earlier : List String) (a : Aggregator MemoryStore) : Prop where
  unusable : a.storage.unusable = s.unusable
  readOnly : a.storage.readOnly = s.readOnly
  locked : a.storage.locked = s.locked
  staged : ∀ g, a.groups[g]? = (s.account a.dryRun g earlier).staged?
  /-- Saved accounts are stored as text, and the other aggregates as before. -/
  stored : a.dryRun = false →
    ∀ g, a.storage.aggregates[g]? = (s.account a.dryRun g earlier).text?.or s.aggregates[g]?
  untouched : a.dryRun = true → a.storage = s
  kept : ∀ file, ¬s.Consumed a.dryRun earlier file → a.storage.published[file]? = s.published[file]?
  consumed : ∀ file, s.Consumed a.dryRun earlier file → a.storage.published[file]? = none

/-- What is still pending is what was not merged. -/
theorem Tracks.mem_published_iff (h : Tracks s earlier a) :
    file ∈ a.storage.published ↔ file ∈ s.published ∧ ¬s.Consumed a.dryRun earlier file := by
  simp only [Std.TreeMap.mem_iff_isSome_getElem?]
  by_cases hgone : s.Consumed a.dryRun earlier file
  · rw [h.consumed file hgone]
    simp [hgone]
  · rw [h.kept file hgone]
    simp [hgone]

/-- A run that has processed nothing yet. -/
theorem tracks_start (a : Aggregator MemoryStore) : Tracks a.storage [] { a with groups := ∅ } where
  unusable := rfl
  readOnly := rfl
  locked := rfl
  staged g := by simp [Account.staged?]
  stored _ g := by simp [Account.text?]
  untouched _ := rfl
  kept _ _ := rfl
  consumed := by
    rintro file ⟨before, later, g, h, -⟩
    simp at h

theorem map_getD_loadAggregate (s : MemoryStore) (g : GroupName) :
    (s.loadAggregate g).map (fun o => o.getD .empty) =
      (s.loadAggregate g).map fun _ => s.baseline g := by
  cases hl : s.loadAggregate g with
  | error e => rfl
  | ok o => cases o <;> simp [Except.map, MemoryStore.baseline, hl]

/-- **What is stored for an account with files is loaded as its record**, in a real run. -/
theorem Tracks.loadAggregate (h : Tracks s earlier a) (hreal : a.dryRun = false) {g : GroupName}
    (hne : (s.account a.dryRun g earlier).files ≠ []) :
    a.storage.loadAggregate g = .ok (some (s.account a.dryRun g earlier).record) := by
  have hstored := h.stored hreal g
  rw [Account.text?_of_ne_nil hne, Option.some_or] at hstored
  exact MemoryStore.loadAggregate_of_render hstored (MemoryStore.isFinite_account _)

/-- **The aggregate that a file is merged into is the account of its group**: read
back from the text that was saved, or taken from what was staged. -/
theorem Tracks.currentAggregate (h : Tracks s earlier a) (g : GroupName) :
    a.currentAggregate g = (s.loadAggregate g).map fun _ => (s.account a.dryRun g earlier).record := by
  have hload : ∀ o : Except StorageError (Option Record), a.storage.loadAggregate g = o →
      a.staged? g = none → a.currentAggregate g = o.map (·.getD .empty) := by
    rintro o rfl hstaged
    rw [Aggregator.currentAggregate, hstaged]
    rfl
  by_cases hnil : (s.account a.dryRun g earlier).files = []
  · -- Nothing was merged: the aggregate is loaded as it was.
    have hsame : a.storage.loadAggregate g = s.loadAggregate g := by
      cases hd : a.dryRun with
      | true => rw [h.untouched hd]
      | false =>
        have hstored := h.stored hd g
        rw [Account.text?_of_nil hnil, Option.none_or] at hstored
        exact MemoryStore.loadAggregate_congr hstored
    have hstaged : a.staged? g = none := by
      rw [staged?, h.staged, Account.staged?_of_nil hnil]
      split <;> rfl
    rw [hload _ hsame hstaged, map_getD_loadAggregate, MemoryStore.account_record_of_nil hnil]
  · obtain ⟨o, hl⟩ := MemoryStore.loads_of_account_ne_nil hnil
    rw [hl]
    cases hd : a.dryRun with
    | true =>
      rw [hd] at hnil
      rw [Aggregator.currentAggregate, staged?, if_pos hd, h.staged, hd, Account.staged?_of_ne_nil hnil]
      rfl
    | false =>
      have hsaved := h.loadAggregate hd hnil
      rw [hd] at hsaved
      have hstaged : a.staged? g = none := by rw [staged?, hd, if_neg Bool.false_ne_true]
      rw [hload _ hsaved hstaged]
      rfl

theorem Tracks.not_consumed (h : file ∉ earlier) (dry : Bool) : ¬s.Consumed dry earlier file := by
  rintro ⟨before, later, g, rfl, -⟩
  exact h (by simp)

/-- A file that has not been processed yet is as it was. -/
theorem Tracks.readPublished (h : Tracks s earlier a) (hnew : file ∉ earlier) :
    a.storage.readPublished file = s.readPublished file :=
  MemoryStore.readPublished_congr (h.kept file (Tracks.not_consumed hnew _))

/-! ### One file -/

section Settle

variable {σ : Type} [Storage σ] {b : Aggregator σ} {g : GroupName} {r : Record} {e : StorageError}
  {saved rest : σ}

theorem settle_undeleted (hd : b.dryRun = false)
    (hsave : Storage.saveAggregate b.storage g r = (.ok (), saved))
    (hconsume : Storage.consume saved file = (.error e, rest)) :
    b.settle file g r = (.undeleted g e, { b with storage := rest }.stage g r) := by
  simp only [settle, hd, hsave, stage, hconsume]
  rfl

theorem settle_merged (hd : b.dryRun = false)
    (hsave : Storage.saveAggregate b.storage g r = (.ok (), saved))
    (hconsume : Storage.consume saved file = (.ok (), rest)) :
    b.settle file g r = (.merged g, { b with storage := rest }.stage g r) := by
  simp only [settle, hd, hsave, stage, hconsume]
  rfl

end Settle

theorem settle_unsaved {a : Aggregator MemoryStore} (hd : a.dryRun = false) {g : GroupName}
    (hro : g ∈ a.storage.readOnly) (file : String) (r : Record) :
    a.settle file g r = (.unsaved g (.io (Path.ofString g.text) .denied), a) := by
  have hreal : ¬a.dryRun = true := by simp [hd]
  simp only [settle, if_neg hreal, MemoryStore.saveAggregate_of_readOnly hro]

theorem getElem?_stage {σ : Type} [Storage σ] (a : Aggregator σ) (g k : GroupName) (r : Record) :
    (a.stage g r).groups[k]? =
      if g = k then some ⟨(a.groups[g]?.map Staged.files).getD 0 + 1, r⟩ else a.groups[k]? := by
  unfold stage
  simp only [Std.TreeMap.getElem?_insert, Std.LawfulEqCmp.compare_eq_iff_eq]
  cases a.groups[g]? <;> rfl

/-- A file that enters no account leaves everything as it is. -/
theorem Tracks.pass (h : Tracks s earlier a)
    (hnone : ∀ g, s.next? a.dryRun g (s.account a.dryRun g earlier).record file = none) :
    Tracks s (earlier ++ [file]) a := by
  have haccount : ∀ g, s.account a.dryRun g (earlier ++ [file]) = s.account a.dryRun g earlier :=
    fun g => by rw [MemoryStore.account_concat, MemoryStore.enter_of_none (hnone g)]
  exact {
    unusable := h.unusable
    readOnly := h.readOnly
    locked := h.locked
    staged := fun g => by rw [h.staged, haccount]
    stored := fun hd g => by rw [h.stored hd, haccount]
    untouched := h.untouched
    kept := fun f hf => h.kept f (mt (MemoryStore.consumed_concat_of_none hnone).2 hf)
    consumed := fun f hf => h.consumed f ((MemoryStore.consumed_concat_of_none hnone).1 hf) }

/-- A file that enters the account of its group is staged, in a real run saved as
text, and removed if the forecast says so. -/
theorem Tracks.enter {g : GroupName} {r : Record} {storage : MemoryStore} (h : Tracks s earlier a)
    (hnext : s.next? a.dryRun g (s.account a.dryRun g earlier).record file = some r)
    (hunusable : storage.unusable = a.storage.unusable)
    (hreadOnly : storage.readOnly = a.storage.readOnly) (hlocked : storage.locked = a.storage.locked)
    (hsaved : a.dryRun = false → ∀ k, storage.aggregates[k]? =
      if g = k then some (RowFormat.render r) else a.storage.aggregates[k]?)
    (hdry : a.dryRun = true → storage = a.storage)
    (hkept : ∀ f, ¬(f = file ∧ s.forecast a.dryRun earlier file = .merged g) →
      storage.published[f]? = a.storage.published[f]?)
    (hgone : s.forecast a.dryRun earlier file = .merged g → storage.published[file]? = none) :
    Tracks s (earlier ++ [file]) ({ a with storage }.stage g r) := by
  have haccount := MemoryStore.account_concat_of_next? hnext
  have hconsumed := fun f => @MemoryStore.consumed_concat_of_next? s a.dryRun g earlier f file r hnext
  exact {
    unusable := hunusable.trans h.unusable
    readOnly := hreadOnly.trans h.readOnly
    locked := hlocked.trans h.locked
    staged := fun k => by
      show _ = (s.account a.dryRun k (earlier ++ [file])).staged?
      rw [getElem?_stage, haccount]
      by_cases hk : g = k
      · rw [if_pos hk, if_pos hk, Account.staged?_add, ← Account.map_files_staged?, ← h.staged]
      · rw [if_neg hk, if_neg hk]
        exact h.staged k
    stored := fun hd k => by
      show storage.aggregates[k]? = (s.account a.dryRun k (earlier ++ [file])).text?.or _
      rw [hsaved hd, haccount]
      by_cases hk : g = k
      · rw [if_pos hk, if_pos hk, Account.text?_add, Option.some_or]
      · rw [if_neg hk, if_neg hk, h.stored hd]
    untouched := fun hd => (hdry hd).trans (h.untouched hd)
    kept := fun f hf => by
      obtain ⟨hbefore, hlast⟩ := not_or.1 (mt (hconsumed f).2 hf)
      exact (hkept f hlast).trans (h.kept f hbefore)
    consumed := fun f hf => by
      show storage.published[f]? = none
      by_cases hlast : f = file ∧ s.forecast a.dryRun earlier file = .merged g
      · rw [hlast.1]
        exact hgone hlast.2
      · rw [hkept f hlast]
        exact h.consumed f (((hconsumed f).1 hf).resolve_right hlast) }

/-- A file is accepted as the accounts say. -/
theorem Tracks.accept (h : Tracks s earlier a) (hnew : file ∉ earlier) :
    accept a.currentAggregate (Storage.readPublished a.storage) file =
      s.acceptAfter a.dryRun earlier file :=
  accept_congr (funext h.currentAggregate) (h.readPublished hnew)

/-- In a dry run, a file that enters the account of its group is only staged. -/
theorem Tracks.settle_dry (h : Tracks s earlier a) (hd : a.dryRun = true) {g : GroupName} {r : Record}
    (hnext : s.next? a.dryRun g (s.account a.dryRun g earlier).record file = some r) :
    (a.settle file g r).1 = s.verdict a.dryRun g file ∧
    (a.settle file g r).2.dryRun = a.dryRun ∧ Tracks s (earlier ++ [file]) (a.settle file g r).2 := by
  have haccept := (MemoryStore.next?_account_eq_some_iff.1 hnext).2
  have hsettle : a.settle file g r = (.planned g, a.stage g r) := by rw [settle, if_pos hd]
  have hverdict : s.verdict a.dryRun g file = .planned g := by rw [MemoryStore.verdict, if_pos hd]
  rw [hsettle, hverdict]
  refine ⟨rfl, rfl, h.enter hnext rfl rfl rfl (fun hreal => ?_) (fun _ => rfl) (fun _ _ => rfl)
    (fun hmerged => ?_)⟩
  · rw [hd] at hreal
    cases hreal
  · rw [MemoryStore.forecast_of_accepted haccept, hverdict] at hmerged
    cases hmerged

/-- In a real run it is saved, and removed unless it is locked. -/
theorem Tracks.settle_real (h : Tracks s earlier a) (hnew : file ∉ earlier) (hd : a.dryRun = false)
    {g : GroupName} {r : Record}
    (hnext : s.next? a.dryRun g (s.account a.dryRun g earlier).record file = some r) :
    (a.settle file g r).1 = s.verdict a.dryRun g file ∧
    (a.settle file g r).2.dryRun = a.dryRun ∧ Tracks s (earlier ++ [file]) (a.settle file g r).2 := by
  obtain ⟨hw, haccept⟩ := MemoryStore.next?_account_eq_some_iff.1 hnext
  obtain ⟨-, -, incoming, hread, -⟩ := MemoryStore.acceptAfter_eq_ok_iff.1 haccept
  have hreal : ¬a.dryRun = true := by simp [hd]
  have hwritable := hw.resolve_left hreal
  have hforecast := MemoryStore.forecast_of_accepted haccept
  have hverdict : s.verdict a.dryRun g file =
      if file ∈ s.locked then .undeleted g (.io (Path.ofString file) .denied) else .merged g := by
    rw [MemoryStore.verdict, if_neg hreal, if_neg hwritable]
  rw [hverdict] at hforecast ⊢
  have hsave := MemoryStore.saveAggregate_of_writable (h.readOnly ▸ hwritable) r
  have hput := @MemoryStore.getElem?_putAggregate a.storage g (RowFormat.render r)
  by_cases hl : file ∈ s.locked
  · rw [if_pos hl] at hforecast ⊢
    have hlocked : file ∈ (a.storage.putAggregate g (RowFormat.render r)).locked := h.locked ▸ hl
    rw [settle_undeleted hd hsave (MemoryStore.consume_of_locked hlocked)]
    refine ⟨rfl, rfl, h.enter hnext rfl rfl rfl (fun _ => hput) (fun hdry => absurd hdry hreal)
      (fun _ _ => rfl) (fun hmerged => ?_)⟩
    rw [hforecast] at hmerged
    cases hmerged
  · rw [if_neg hl] at hforecast ⊢
    have hlocked : file ∉ (a.storage.putAggregate g (RowFormat.render r)).locked := h.locked ▸ hl
    have hpending : file ∈ (a.storage.putAggregate g (RowFormat.render r)).published :=
      MemoryStore.mem_of_readPublished ((h.readPublished hnew).trans hread)
    rw [settle_merged hd hsave (MemoryStore.consume_of_pending hlocked hpending)]
    refine ⟨rfl, rfl, h.enter hnext rfl rfl rfl (fun _ => hput) (fun hdry => absurd hdry hreal)
      (fun f hf => ?_) (fun _ => Std.TreeMap.getElem?_erase_self)⟩
    have hne : file ≠ f := fun e => hf ⟨e.symm, hforecast⟩
    show (a.storage.published.erase file)[f]? = _
    rw [Std.TreeMap.getElem?_erase, if_neg (mt Std.LawfulEqCmp.compare_eq_iff_eq.1 hne)]

/-- **One file is processed as forecast**, and the run goes on tracking the accounts. -/
theorem Tracks.attempt (h : Tracks s earlier a) (hnew : file ∉ earlier) :
    (a.attempt file).1 = s.forecast a.dryRun earlier file ∧
    (a.attempt file).2.dryRun = a.dryRun ∧ Tracks s (earlier ++ [file]) (a.attempt file).2 := by
  have hsame := h.accept hnew
  cases haccept : s.acceptAfter a.dryRun earlier file with
  | error t =>
    rw [attempt_of_refused (hsame.trans haccept), MemoryStore.forecast_of_refused haccept]
    exact ⟨rfl, rfl, h.pass (MemoryStore.next?_of_refused haccept)⟩
  | ok p =>
    obtain ⟨g, r⟩ := p
    rw [attempt_of_accepted (hsame.trans haccept), MemoryStore.forecast_of_accepted haccept]
    rcases MemoryStore.next?_of_accepted haccept with hnext | ⟨hreal, hro, hnone⟩
    · cases hd : a.dryRun with
      | true => exact hd ▸ h.settle_dry hd hnext
      | false => exact hd ▸ h.settle_real hnew hd hnext
    · rw [settle_unsaved hreal (h.readOnly ▸ hro), MemoryStore.verdict, hreal,
        if_neg Bool.false_ne_true, if_pos hro]
      exact ⟨rfl, rfl, h.pass hnone⟩

/-! ### The whole run -/

/-- **Different files are processed as forecast**, one after the other. -/
theorem Tracks.processAll {files : List String} (h : Tracks s earlier a)
    (hnew : ∀ file ∈ files, file ∉ earlier) (hnodup : files.Nodup) :
    (a.processAll files).1 = s.forecasts a.dryRun earlier files ∧
    (a.processAll files).2.dryRun = a.dryRun ∧ Tracks s (earlier ++ files) (a.processAll files).2 := by
  induction files generalizing earlier a with
  | nil => exact ⟨rfl, rfl, (List.append_nil earlier).symm ▸ h⟩
  | cons file rest ih =>
    obtain ⟨hnot, hrest⟩ := List.nodup_cons.1 hnodup
    obtain ⟨hforecast, hdry, htracks⟩ := h.attempt (hnew file (by simp))
    have hlater : ∀ f ∈ rest, f ∉ earlier ++ [file] := by
      intro f hf hmem
      rcases List.mem_append.1 hmem with hmem | hmem
      · exact hnew f (by simp [hf]) hmem
      · rw [List.mem_singleton] at hmem
        exact hnot (hmem ▸ hf)
    obtain ⟨hresults, hsame, hall⟩ := ih htracks hlater hrest
    rw [hdry] at hresults hsame
    rw [List.append_assoc, List.singleton_append] at hall
    refine ⟨?_, hsame, hall⟩
    rw [MemoryStore.forecasts, ← hforecast, ← hresults]
    rfl

/-- **A run over a storage in memory**: it succeeds, its results are the forecasts,
and afterwards it has tracked the accounts of all pending files. -/
theorem run_memory (a : Aggregator MemoryStore) (runDate : Moment) (duration : Binary64) :
    ∃ report last, a.run runDate duration = (.ok report, { last with groups := ∅ }) ∧
      report.files = sortResults (a.storage.unusable.map unusableResult ++
        a.storage.forecasts a.dryRun [] a.storage.publishedNames) ∧
      report.groups = last.summaries ∧ last.dryRun = a.dryRun ∧
      Tracks a.storage a.storage.publishedNames last := by
  have hnodup : a.storage.publishedNames.Nodup := Std.TreeMap.nodup_keys
  obtain ⟨hresults, hdry, htracks⟩ :=
    (tracks_start a).processAll (fun _ _ => List.not_mem_nil) hnodup
  refine ⟨_, _, rfl, ?_, rfl, hdry, htracks⟩
  rw [← hresults]

end Aggregator
end Rollup
