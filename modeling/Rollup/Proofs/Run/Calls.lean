/-
# The storage calls of a real run

A real run is a sequence of storage calls: for each file the aggregate of its group
is loaded, the file is read, the merged record is saved and the file removed, and
the next file is taken as soon as a call fails.  Here that sequence is written out as
a `Procedure`, which makes a call and goes on with the answer.  Over every storage
the procedure and the run do the same (`Aggregator.run_eq_mergingAll`), so the steps of
the procedure are the points at which a run can be cut short.

In particular this holds over a storage that keeps a journal of what it is asked to
save and to remove.  So the run's own changes are those among the steps, one by one and
in their order (`Aggregator.storage_run_journaled`).
-/

import Rollup.Proofs.Run.Acceptance

namespace Rollup

/-- A call of a storage; a record is saved for the file that was merged into it. -/
inductive Call where
  | load (group : GroupName)
  | read (file : String)
  | save (file : String) (group : GroupName) (record : Record)
  | consume (file : String)
  deriving DecidableEq, Repr

/-- What a call answers if it succeeds. -/
def Call.Answer : Call → Type
  | .load _ => Option Record
  | .read _ => Record
  | .save .. | .consume _ => Unit

/-- The answer of a storage to a call, and the storage after it. -/
def Call.perform {σ : Type} [Storage σ] (s : σ) : (c : Call) → Except StorageError c.Answer × σ
  | .load g => (Storage.loadAggregate s g, s)
  | .read file => (Storage.readPublished s file, s)
  | .save _ g r => Storage.saveAggregate s g r
  | .consume file => Storage.consume s file

/-- What is done over a storage, call by call. -/
inductive Procedure (α : Type) where
  | done (result : α)
  /-- Make a call and go on with its answer. -/
  | call (request : Call) (next : Except StorageError request.Answer → Procedure α)

/-- A call that was made. -/
structure Step (σ : Type) where
  call : Call
  succeeded : Bool
  /-- The storage after the call. -/
  after : σ

namespace Step

variable {σ : Type}

/-- The storage after some steps that began with `s`. -/
def reached (s : σ) (steps : List (Step σ)) : σ := (steps.getLast?.map Step.after).getD s

/-- The file whose record a step has saved in the aggregate of a group. -/
def savedFor? (g : GroupName) (step : Step σ) : Option String :=
  match step.call with
  | .save file h _ => if step.succeeded = true ∧ h = g then some file else none
  | _ => none

/-- The files saved for a group. -/
def savedFor (g : GroupName) (steps : List (Step σ)) : List String := steps.filterMap (savedFor? g)

/-- The step removes a file. -/
def Removes (file : String) (step : Step σ) : Prop :=
  step.call = .consume file ∧ step.succeeded = true

/-- The step leaves the storage as it is, and saves and removes nothing. -/
structure IsIdle (s : σ) (step : Step σ) : Prop where
  after : step.after = s
  saved : ∀ g, step.savedFor? g = none

end Step

namespace Procedure

variable {σ α β : Type} [Storage σ]

/-- The result of a procedure, and the storage after it. -/
def perform (s : σ) : Procedure α → α × σ
  | .done result => (result, s)
  | .call request next => (next (request.perform s).1).perform (request.perform s).2

/-- The calls that a procedure makes. -/
def steps (s : σ) : Procedure α → List (Step σ)
  | .done _ => []
  | .call request next =>
    ⟨request, (request.perform s).1.isOk, (request.perform s).2⟩ ::
      (next (request.perform s).1).steps (request.perform s).2

/-- One procedure after another. -/
def bind (p : Procedure α) (q : α → Procedure β) : Procedure β :=
  match p with
  | .done result => q result
  | .call request next => .call request fun answer => (next answer).bind q

theorem perform_bind (p : Procedure α) (q : α → Procedure β) (s : σ) :
    (p.bind q).perform s = (q (p.perform s).1).perform (p.perform s).2 := by
  induction p generalizing s with
  | done result => rfl
  | call request next ih => exact ih _ _

theorem steps_bind (p : Procedure α) (q : α → Procedure β) (s : σ) :
    (p.bind q).steps s = p.steps s ++ (q (p.perform s).1).steps (p.perform s).2 := by
  induction p generalizing s with
  | done result => rfl
  | call request next ih => exact congrArg _ (ih _ _)

/-- The last step ends where the procedure ends. -/
theorem reached_steps (p : Procedure α) (s : σ) : Step.reached s (p.steps s) = (p.perform s).2 := by
  induction p generalizing s with
  | done result => rfl
  | call request next ih =>
    rw [perform, ← ih, steps, Step.reached, Step.reached, List.getLast?_cons]
    cases ((next (request.perform s).1).steps (request.perform s).2).getLast? <;> rfl

/-- Merge one file into the aggregate of its group. -/
def merging (file : String) : Procedure Attempt :=
  match GroupName.ofFile file with
  | .error e => .done (.unnamed e)
  | .ok g => .call (.load g) fun
    | .error e => .done (.rejected g e)
    | .ok existing => .call (.read file) fun
      | .error e => .done (.rejected g e)
      | .ok incoming =>
        match Record.merge (Option.getD existing .empty) incoming with
        | .error e => .done (.overflowed g e)
        | .ok r => .call (.save file g r) fun
          | .error e => .done (.unsaved g e)
          | .ok () => .call (.consume file) fun
            | .error e => .done (.undeleted g e)
            | .ok () => .done (.merged g)

/-- Merge files one after the other. -/
def mergingAll : List String → Procedure (List FileResult)
  | [] => .done []
  | file :: rest => (merging file).bind fun attempt =>
      (mergingAll rest).bind fun results => .done (attempt.result file :: results)

section Merging

variable {s : σ} {file : String}

/-- Loading a group in a real run. -/
def loaded (s : σ) (g : GroupName) : Except StorageError Record :=
  (Storage.loadAggregate s g).map (·.getD .empty)

/-- The steps of a file that is refused change nothing. -/
theorem isIdle_of_refused {t : Attempt}
    (h : accept (loaded s) (Storage.readPublished s) file = .error t) :
    ∀ step ∈ (merging file).steps s, step.IsIdle s := by
  have hload : ∀ g ok, Step.IsIdle s ⟨.load g, ok, s⟩ := fun _ _ => ⟨rfl, fun _ => rfl⟩
  have hread : ∀ ok, Step.IsIdle s ⟨.read file, ok, s⟩ := fun _ => ⟨rfl, fun _ => rfl⟩
  unfold accept loaded at h
  unfold merging
  cases hg : GroupName.ofFile file with
  | error e => simp [steps]
  | ok g =>
    simp only [hg, steps, Call.perform] at h ⊢
    cases hl : Storage.loadAggregate s g with
    | error e => simp [steps, hload]
    | ok existing =>
      simp only [hl, Except.map, steps, Call.perform] at h ⊢
      cases hr : Storage.readPublished s file with
      | error e => simp [steps, hload, hread]
      | ok incoming =>
        simp only [hr] at h ⊢
        cases hm : (existing.getD .empty).merge incoming with
        | error e => simp [steps, hload, hread]
        | ok r =>
          rw [hm] at h
          cases h

/-- A file that is accepted is saved, and removed if that succeeds. -/
theorem steps_of_accepted {g : GroupName} {r : Record}
    (h : accept (loaded s) (Storage.readPublished s) file = .ok (g, r)) :
    (merging file).steps s = ⟨.load g, true, s⟩ :: ⟨.read file, true, s⟩ ::
      ⟨.save file g r, (Storage.saveAggregate s g r).1.isOk, (Storage.saveAggregate s g r).2⟩ ::
      match Storage.saveAggregate s g r with
      | (.error _, _) => []
      | (.ok (), saved) =>
        [⟨.consume file, (Storage.consume saved file).1.isOk, (Storage.consume saved file).2⟩] := by
  obtain ⟨hg, existing, incoming, hl, hr, hm⟩ := accept_eq_ok_iff.1 h
  unfold loaded at hl
  cases hload : Storage.loadAggregate s g with
  | error e => rw [hload] at hl; cases hl
  | ok o =>
    rw [hload] at hl
    obtain rfl := Except.ok.inj hl
    simp only [merging, hg, steps, Call.perform, hload, hr, hm]
    obtain ⟨_ | _, saved⟩ := Storage.saveAggregate s g r
    · rfl
    · simp only [steps, Call.perform]
      obtain ⟨_ | _, rest⟩ := Storage.consume saved file <;> rfl

end Merging

end Procedure

/-! ### A storage with a journal -/

/-- What a storage is asked to change. -/
inductive Request where
  | save (group : GroupName) (record : Record)
  | consume (file : String)
  deriving DecidableEq, Repr

/-- A change that was asked for. -/
structure Change (σ : Type) where
  request : Request
  succeeded : Bool
  /-- The storage after the request. -/
  after : σ

/-- A storage and the changes that it was asked for, in order.  Reading leaves no trace. -/
structure Journaled (σ : Type) where
  storage : σ
  journal : List (Change σ)

namespace Journaled

variable {σ : Type}

/-- Write down a request and what came of it. -/
def note (s : Journaled σ) (request : Request) (answer : Except StorageError Unit × σ) :
    Except StorageError Unit × Journaled σ :=
  (answer.1, ⟨answer.2, s.journal ++ [⟨request, answer.1.isOk, answer.2⟩]⟩)

instance [Storage σ] : Storage (Journaled σ) where
  locations s := Storage.locations s.storage
  ensureReady s := Storage.ensureReady s.storage
  listPending s := Storage.listPending s.storage
  readPublished s := Storage.readPublished s.storage
  loadAggregate s := Storage.loadAggregate s.storage
  saveAggregate s g r := s.note (.save g r) (Storage.saveAggregate s.storage g r)
  consume s file := s.note (.consume file) (Storage.consume s.storage file)
  listNotes s := Storage.listNotes s.storage
  loadNotes s := Storage.loadNotes s.storage
  saveNotes s := Storage.saveNotes s.storage

end Journaled

/-- The change that a step asks for. -/
def Step.change? {σ : Type} (step : Step σ) : Option (Change σ) :=
  match step.call with
  | .load _ | .read _ => none
  | .save _ g r => some ⟨.save g r, step.succeeded, step.after⟩
  | .consume file => some ⟨.consume file, step.succeeded, step.after⟩

/-- The changes among some steps. -/
def Step.changes {σ : Type} (steps : List (Step σ)) : List (Change σ) := steps.filterMap change?

/-- **A procedure over a storage with a journal** does what it does without one, and writes down the
changes among its steps. -/
theorem Procedure.perform_journaled {σ α : Type} [Storage σ] (p : Procedure α) (s : Journaled σ) :
    p.perform s = ((p.perform s.storage).1,
      ⟨(p.perform s.storage).2, s.journal ++ Step.changes (p.steps s.storage)⟩) := by
  induction p generalizing s with
  | done result => simp [perform, steps, Step.changes]
  | call request next ih =>
    rw [perform, ih]
    cases request with
    | load g | read file => rfl
    | save file g r | consume file =>
      exact congrArg (fun journal => (_, Journaled.mk _ journal)) (List.append_assoc ..)

namespace Aggregator

open Procedure

variable {σ : Type} [Storage σ] {a : Aggregator σ}

theorem currentAggregate_real (hreal : a.dryRun = false) : a.currentAggregate = loaded a.storage := by
  funext g
  rw [currentAggregate, staged?, hreal, if_neg Bool.false_ne_true, loaded]

theorem dryRun_settle (a : Aggregator σ) (file : String) (g : GroupName) (r : Record) :
    (a.settle file g r).2.dryRun = a.dryRun := by
  unfold settle
  split
  · rfl
  split
  · rfl
  · dsimp only
    split <;> rfl

theorem dryRun_attempt (a : Aggregator σ) (file : String) : (a.attempt file).2.dryRun = a.dryRun := by
  rw [attempt_eq]
  split
  · rfl
  · exact dryRun_settle ..

theorem dryRun_processAll (a : Aggregator σ) (files : List String) :
    (a.processAll files).2.dryRun = a.dryRun := by
  induction files generalizing a with
  | nil => rfl
  | cons file rest ih => exact (ih _).trans (dryRun_attempt a file)

/-- Each file has a result, in order. -/
theorem map_file_processAll (a : Aggregator σ) (files : List String) :
    (a.processAll files).1.map FileResult.file = files := by
  induction files generalizing a with
  | nil => rfl
  | cons file rest ih => exact congrArg (file :: ·) (ih _)

theorem storage_attempt_of_dryRun (hdry : a.dryRun = true) (file : String) :
    (a.attempt file).2.storage = a.storage := by
  rw [attempt_eq]
  split
  · rfl
  · rw [settle, if_pos hdry]
    rfl

theorem storage_processAll_of_dryRun (hdry : a.dryRun = true) (files : List String) :
    (a.processAll files).2.storage = a.storage := by
  induction files generalizing a with
  | nil => rfl
  | cons file rest ih =>
    show ((a.attempt file).2.processAll rest).2.storage = a.storage
    rw [ih ((dryRun_attempt a file).trans hdry), storage_attempt_of_dryRun hdry]

/-- **A real aggregator merges a file by the calls of `merging`.** -/
theorem attempt_eq_merging (hreal : a.dryRun = false) (file : String) :
    ((a.attempt file).1, (a.attempt file).2.storage) = (merging file).perform a.storage := by
  unfold attempt merging
  cases GroupName.ofFile file with
  | error e => rfl
  | ok g =>
    simp only [currentAggregate_real hreal, loaded, perform, Call.perform]
    cases Storage.loadAggregate a.storage g with
    | error e => rfl
    | ok existing =>
      simp only [Except.map, perform, Call.perform]
      cases Storage.readPublished a.storage file with
      | error e => rfl
      | ok incoming =>
        simp only
        cases (existing.getD .empty).merge incoming with
        | error e => rfl
        | ok r =>
          simp only [settle, hreal, perform, Call.perform, Bool.false_eq_true, if_false]
          obtain ⟨_ | _, saved⟩ := Storage.saveAggregate a.storage g r
          · rfl
          · simp only [stage, perform, Call.perform]
            obtain ⟨_ | _, rest⟩ := Storage.consume saved file <;> rfl

theorem processAll_eq_mergingAll (hreal : a.dryRun = false) (files : List String) :
    ((a.processAll files).1, (a.processAll files).2.storage) =
      (mergingAll files).perform a.storage := by
  induction files generalizing a with
  | nil => rfl
  | cons file rest ih =>
    have hfirst := attempt_eq_merging hreal file
    have hrest := ih ((dryRun_attempt a file).trans hreal)
    simp only [mergingAll, perform_bind, ← hfirst, ← hrest]
    rfl

/-- **A run over a storage that can be used**: its report is made of what is listed and
of the results of the pending files, which are processed in order. -/
theorem run_of_listing {listing : Listing} (hready : Storage.ensureReady a.storage = .ok ())
    (hlist : Storage.listPending a.storage = .ok listing) (runDate : Moment) (duration : Binary64) :
    ∃ report, a.run runDate duration =
        (.ok report, { ({ a with groups := ∅ }.processAll listing.pending).2 with groups := ∅ }) ∧
      report.files = sortResults (listing.unusable.map unusableResult ++
        ({ a with groups := ∅ }.processAll listing.pending).1) ∧
      report.groups = ({ a with groups := ∅ }.processAll listing.pending).2.summaries := by
  unfold run
  simp only [hready, hlist]
  exact ⟨_, rfl, rfl, rfl⟩

/-- A run leaves the storage as its pending files leave it. -/
theorem storage_run_of_listing {listing : Listing} (hready : Storage.ensureReady a.storage = .ok ())
    (hlist : Storage.listPending a.storage = .ok listing) (runDate : Moment) (duration : Binary64) :
    (a.run runDate duration).2.storage =
      ({ a with groups := ∅ }.processAll listing.pending).2.storage := by
  obtain ⟨report, hrun, -⟩ := run_of_listing hready hlist runDate duration
  rw [hrun]

/-- **A dry run leaves the storage as it is**, whatever the storage. -/
theorem storage_run_of_dryRun (hdry : a.dryRun = true) (runDate : Moment) (duration : Binary64) :
    (a.run runDate duration).2.storage = a.storage := by
  cases hready : Storage.ensureReady a.storage with
  | error e => simp only [run, hready]
  | ok u =>
    cases hlist : Storage.listPending a.storage with
    | error e => simp only [run, hready, hlist]
    | ok listing =>
      rw [storage_run_of_listing hready hlist]
      exact storage_processAll_of_dryRun (a := { a with groups := ∅ }) hdry _

/-- **A real run merges the pending files by the calls of `mergingAll`.** -/
theorem run_eq_mergingAll (hreal : a.dryRun = false) {listing : Listing}
    (hready : Storage.ensureReady a.storage = .ok ())
    (hlist : Storage.listPending a.storage = .ok listing) (runDate : Moment) (duration : Binary64) :
    ∃ report last, a.run runDate duration = (.ok report, last) ∧
      report.files = sortResults (listing.unusable.map unusableResult ++
        ((mergingAll listing.pending).perform a.storage).1) ∧
      last.storage = ((mergingAll listing.pending).perform a.storage).2 := by
  obtain ⟨report, hrun, hfiles, -⟩ := run_of_listing hready hlist runDate duration
  have hall := @processAll_eq_mergingAll σ _ { a with groups := ∅ } hreal listing.pending
  exact ⟨report, _, hrun, hall ▸ hfiles, congrArg Prod.snd hall⟩

/-- The aggregator over its storage with an empty journal. -/
def journaled (a : Aggregator σ) : Aggregator (Journaled σ) := ⟨⟨a.storage, []⟩, a.dryRun, a.groups⟩

/-- **The changes among the steps are the run's own.**  Over a storage with a journal a real run
leaves what it leaves without one, and the journal holds the changes among the steps. -/
theorem storage_run_journaled (hreal : a.dryRun = false) {listing : Listing}
    (hready : Storage.ensureReady a.storage = .ok ())
    (hlist : Storage.listPending a.storage = .ok listing) (runDate : Moment) (duration : Binary64) :
    (a.journaled.run runDate duration).2.storage = ⟨(a.run runDate duration).2.storage,
      Step.changes ((mergingAll listing.pending).steps a.storage)⟩ := by
  obtain ⟨report, last, hrun, -, hlast⟩ := run_eq_mergingAll hreal hready hlist runDate duration
  obtain ⟨report', last', hrun', -, hlast'⟩ :=
    run_eq_mergingAll (a := a.journaled) hreal hready hlist runDate duration
  rw [hrun, hrun', hlast, hlast', perform_journaled]
  rfl

end Aggregator
end Rollup
