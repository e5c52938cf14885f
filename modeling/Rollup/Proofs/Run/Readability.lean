/-
# Aggregates stay readable

Whatever is published, processed and run over a storage in memory, by real and by dry
aggregators in turn, the aggregate of a group is as it was at first, or it was written
by a merge.  What is written is three lines that load as a finite record with its
samples in ascending order (`MemoryStore.IsWritten`): reading admits only finite
samples, merging keeps them finite and sorts them, and a finite record reads back.  So
a group whose aggregate could be loaded at first can always be loaded
(`Aggregator.aggregates_stay_readable`).

The only call that writes an aggregate is the save of a real run, so the invariant is
shown call by call, and it holds at every point of a run as well as between them.
-/

import Rollup.Proofs.Record.Fold
import Rollup.Proofs.Run.Calls
import Rollup.Proofs.Storage.Memory

namespace Rollup

/-- The samples of each row are in ascending order. -/
def Record.IsAscending (r : Record) : Prop := ∀ row, (r.samples row).Pairwise fun x y => x.le y

namespace MemoryStore

variable {start s t : MemoryStore} {g : GroupName} {r : Record}

/-- The aggregate of a group is text that a merge has written. -/
def IsWritten (s : MemoryStore) (g : GroupName) : Prop :=
  ∃ text record, s.aggregates[g]? = some text ∧ RowFormat.HasThreeLines text ∧
    s.loadAggregate g = .ok (some record) ∧ record.IsFinite ∧ record.IsAscending

/-- Since `start`, aggregates have only been replaced by text that a merge has written. -/
def StaysReadable (start s : MemoryStore) : Prop :=
  ∀ g, s.aggregates[g]? = start.aggregates[g]? ∨ s.IsWritten g

theorem IsWritten.congr (h : s.IsWritten g) (hsame : t.aggregates[g]? = s.aggregates[g]?) :
    t.IsWritten g := by
  obtain ⟨text, record, htext, hlines, hload, hrecord⟩ := h
  exact ⟨text, record, hsame.trans htext, hlines, (loadAggregate_congr hsame).trans hload, hrecord⟩

/-- The text of a finite and ascending record is what a merge writes. -/
theorem isWritten_of_render (h : s.aggregates[g]? = some (RowFormat.render r)) (hf : r.IsFinite)
    (ha : r.IsAscending) : s.IsWritten g :=
  ⟨_, r, h, RowFormat.hasThreeLines_render r, loadAggregate_of_render h hf, hf, ha⟩

theorem StaysReadable.congr (h : StaysReadable start s) (hsame : t.aggregates = s.aggregates) :
    StaysReadable start t := fun g => by
  rcases h g with hg | hg
  · exact Or.inl (hsame ▸ hg)
  · exact Or.inr (hg.congr (by rw [hsame]))

theorem StaysReadable.putAggregate (h : StaysReadable start s) (hf : r.IsFinite)
    (ha : r.IsAscending) : StaysReadable start (s.putAggregate g (RowFormat.render r)) := fun k => by
  have hput := s.getElem?_putAggregate (g := g) (RowFormat.render r) k
  by_cases hk : g = k
  · rw [if_pos hk] at hput
    exact Or.inr (isWritten_of_render hput hf ha)
  · rw [if_neg hk] at hput
    rcases h k with hk | hk
    · exact Or.inl (hput.trans hk)
    · exact Or.inr (hk.congr hput)

/-- A group that could be loaded at the start is not blocked. -/
theorem StaysReadable.loads (h : StaysReadable start s) (hload : ∃ o, start.loadAggregate g = .ok o) :
    ∃ o, s.loadAggregate g = .ok o := by
  rcases h g with hg | ⟨-, record, -, -, hloaded, -⟩
  · rw [loadAggregate_congr hg]
    exact hload
  · exact ⟨_, hloaded⟩

/-! ### Calls -/

theorem aggregates_consume (s : MemoryStore) (file : String) :
    (Storage.consume s file).2.aggregates = s.aggregates := by
  show (s.consume file).2.aggregates = _
  unfold consume
  split
  · rfl
  split <;> rfl

/-- What a file is merged into is finite. -/
theorem isFinite_of_loaded (h : Procedure.loaded s g = .ok r) : r.IsFinite := by
  unfold Procedure.loaded at h
  cases hload : Storage.loadAggregate s g with
  | error e => rw [hload] at h; cases h
  | ok o =>
    rw [hload] at h
    obtain rfl := Except.ok.inj h
    cases o with
    | none => exact Record.isFinite_empty
    | some existing => exact isFinite_loadAggregate hload

/-- **A record that is accepted is finite and ascending.** -/
theorem isFinite_and_isAscending_of_accepted {file : String}
    (h : accept (Procedure.loaded s) (Storage.readPublished s) file = .ok (g, r)) :
    r.IsFinite ∧ r.IsAscending := by
  obtain ⟨-, existing, incoming, hload, hread, hmerge⟩ := accept_eq_ok_iff.1 h
  exact ⟨(isFinite_of_loaded hload).merge (isFinite_readPublished hread) hmerge,
    (Record.merge_eq_ok_iff_isMerge.1 hmerge).ascending⟩

/-- **Every call for a file keeps aggregates readable.** -/
theorem StaysReadable.step (h : StaysReadable start s) (file : String) :
    ∀ step ∈ (Procedure.merging file).steps s, StaysReadable start step.after := by
  intro step hstep
  rcases accept_cases (Procedure.loaded s) (Storage.readPublished s) file with
    ⟨t, hrefused, -⟩ | ⟨g, r, haccept⟩
  · rw [(Procedure.isIdle_of_refused hrefused step hstep).after]
    exact h
  · obtain ⟨hf, ha⟩ := isFinite_and_isAscending_of_accepted haccept
    rw [Procedure.steps_of_accepted haccept] at hstep
    by_cases hw : g ∈ s.readOnly
    · rw [saveAggregate_of_readOnly hw] at hstep
      simp only [List.mem_cons, List.not_mem_nil, or_false] at hstep
      rcases hstep with rfl | rfl | rfl <;> exact h
    · have hsaved := h.putAggregate (g := g) hf ha
      rw [saveAggregate_of_writable hw] at hstep
      simp only [List.mem_cons, List.not_mem_nil, or_false] at hstep
      rcases hstep with rfl | rfl | rfl | rfl
      · exact h
      · exact h
      · exact hsaved
      · exact hsaved.congr (aggregates_consume _ file)

theorem StaysReadable.reached {steps : List (Step MemoryStore)} (h : StaysReadable start s)
    (hsteps : ∀ step ∈ steps, StaysReadable start step.after) :
    StaysReadable start (Step.reached s steps) := by
  unfold Step.reached
  cases hlast : steps.getLast? with
  | none => exact h
  | some step => exact hsteps step (List.mem_of_getLast? hlast)

theorem StaysReadable.perform (h : StaysReadable start s) (file : String) :
    StaysReadable start ((Procedure.merging file).perform s).2 := by
  rw [← Procedure.reached_steps]
  exact h.reached (h.step file)

/-- Every call for files that are merged in order keeps aggregates readable. -/
theorem StaysReadable.steps (h : StaysReadable start s) (files : List String) :
    ∀ step ∈ (Procedure.mergingAll files).steps s, StaysReadable start step.after := by
  induction files generalizing s with
  | nil => exact fun _ hstep => absurd hstep List.not_mem_nil
  | cons file rest ih =>
    intro step hstep
    rw [Procedure.mergingAll, Procedure.steps_bind, Procedure.steps_bind] at hstep
    rcases List.mem_append.1 hstep with hstep | hstep
    · exact h.step file step hstep
    rcases List.mem_append.1 hstep with hstep | hstep
    · exact ih (h.perform file) step hstep
    · exact absurd hstep List.not_mem_nil

end MemoryStore

namespace Aggregator

open MemoryStore

variable {start : MemoryStore} {a b : Aggregator MemoryStore}

/-- **Processing a file keeps aggregates readable**, in either mode. -/
theorem staysReadable_attempt (h : StaysReadable start a.storage) (file : String) :
    StaysReadable start (a.attempt file).2.storage := by
  cases hmode : a.dryRun with
  | true =>
    rw [storage_attempt_of_dryRun hmode]
    exact h
  | false =>
    have hstorage : (a.attempt file).2.storage = ((Procedure.merging file).perform a.storage).2 :=
      congrArg Prod.snd (attempt_eq_merging hmode file)
    rw [hstorage]
    exact h.perform file

theorem staysReadable_processAll (h : StaysReadable start a.storage) (files : List String) :
    StaysReadable start (a.processAll files).2.storage := by
  induction files generalizing a with
  | nil => exact h
  | cons file rest ih => exact ih (staysReadable_attempt h file)

theorem staysReadable_run (h : StaysReadable start a.storage) (runDate : Moment)
    (duration : Binary64) : StaysReadable start (a.run runDate duration).2.storage := by
  have hlist : Storage.listPending a.storage =
      .ok ⟨a.storage.publishedNames, a.storage.unusable⟩ := rfl
  obtain ⟨report, hrun, -⟩ := run_of_listing rfl hlist runDate duration
  rw [hrun]
  exact staysReadable_processAll (a := { a with groups := ∅ }) h _

/-- What can become of an aggregator over a storage in memory. -/
inductive History (a : Aggregator MemoryStore) : Aggregator MemoryStore → Prop
  | start : History a a
  | publish {b : Aggregator MemoryStore} (name content : String) (before : History a b) :
      History a { b with storage := b.storage.publish name content }
  /-- Another aggregator takes over the storage. -/
  | renew {b : Aggregator MemoryStore} (dryRun : Bool) (before : History a b) :
      History a (new b.storage dryRun)
  | process {b : Aggregator MemoryStore} (file : String) (before : History a b) :
      History a (b.process file).2
  | run {b : Aggregator MemoryStore} (runDate : Moment) (duration : Binary64)
      (before : History a b) : History a (b.run runDate duration).2

theorem History.staysReadable (h : History a b) : StaysReadable a.storage b.storage := by
  induction h with
  | start => exact fun _ => Or.inl rfl
  | publish name content _ ih => exact ih.congr rfl
  | renew dryRun _ ih => exact ih
  | process file _ ih => exact staysReadable_attempt ih file
  | run runDate duration _ ih => exact staysReadable_run ih runDate duration

/-- **Aggregates stay readable.**  After any history, and at every point between the
storage calls of a real run or of files that are processed next, an aggregate is as it
was at first, or it is three lines that load as a finite and ascending record; so a
group whose aggregate was absent or could be read at first is never blocked. -/
theorem aggregates_stay_readable (history : History a b) :
    StaysReadable a.storage b.storage ∧
    (∀ g, (∃ o, a.storage.loadAggregate g = .ok o) → ∃ o, b.storage.loadAggregate g = .ok o) ∧
    ∀ files n, StaysReadable a.storage
      (Step.reached b.storage (((Procedure.mergingAll files).steps b.storage).take n)) := by
  have hb := history.staysReadable
  refine ⟨hb, fun g => hb.loads, fun files n => hb.reached fun step hstep => ?_⟩
  exact hb.steps files step (List.mem_of_mem_take hstep)

/-- A malformed aggregate beside one that is merged into, by a dry and then by a real
aggregator. -/
theorem aggregates_stay_readable_web :
    let s := ((MemoryStore.empty.putAggregate ⟨"web", by simp [isUsableName]⟩ "1\n0.5\n\n").putAggregate
      ⟨"app", by simp [isUsableName]⟩ "x\n\n\n")
    let a := { new s true with storage := s.publish "web_1" "2\n0.25\n\n" }
    let b := ((new (a.process "web_1").2.storage false).run ⟨0, 0⟩ (.zero false)).2
    History (new s true) b ∧ StaysReadable s b.storage ∧
    (∀ g, (∃ o, s.loadAggregate g = .ok o) → ∃ o, b.storage.loadAggregate g = .ok o) ∧
    ∀ files n, StaysReadable s
      (Step.reached b.storage (((Procedure.mergingAll files).steps b.storage).take n)) := by
  intro s a b
  have history : History (new s true) b :=
    .run _ _ (.renew false (.process "web_1" (.publish "web_1" "2\n0.25\n\n" .start)))
  exact ⟨history, aggregates_stay_readable history⟩

end Aggregator
end Rollup
