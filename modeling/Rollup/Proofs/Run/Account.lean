/-
# The account of each group in a run

A run over a storage in memory re-reads the aggregate of a group for each of its
files, after saving it as text for the one before.  What comes of it can be told
from the storage as it is when the run starts.  Each group has an account
(`MemoryStore.account`): the files merged into it so far and the fold of `merge`
over them, which starts from the stored aggregate and goes on with every file that
is saved.  From the accounts follows what becomes of the next file
(`MemoryStore.forecast`).  That runs do as forecast is shown in
`Rollup.Proofs.Run.Tracking`.
-/

import Rollup.Proofs.Record.Fold
import Rollup.Proofs.Run.Acceptance
import Rollup.Proofs.Storage.Memory

namespace Rollup

/-- What a run has merged into a group. -/
structure Account where
  files : List String
  record : Record

namespace Account

/-- What is staged for a group with that account. -/
def staged? (acc : Account) : Option Staged :=
  if acc.files = [] then none else some ⟨acc.files.length, acc.record⟩

/-- What is stored for a group with that account; nothing new if no file was merged. -/
def text? (acc : Account) : Option String :=
  if acc.files = [] then none else some (RowFormat.render acc.record)

/-- The account with a further file, after which the record is `r`. -/
def add (acc : Account) (file : String) (r : Record) : Account := ⟨acc.files ++ [file], r⟩

variable {acc : Account}

@[simp] theorem files_add (file : String) (r : Record) :
    (acc.add file r).files = acc.files ++ [file] := rfl

@[simp] theorem record_add (file : String) (r : Record) : (acc.add file r).record = r := rfl

@[simp] theorem staged?_add (file : String) (r : Record) :
    (acc.add file r).staged? = some ⟨acc.files.length + 1, r⟩ := by simp [staged?]

@[simp] theorem text?_add (file : String) (r : Record) :
    (acc.add file r).text? = some (RowFormat.render r) := by simp [text?]

theorem staged?_of_nil (h : acc.files = []) : acc.staged? = none := if_pos h

theorem staged?_of_ne_nil (h : acc.files ≠ []) : acc.staged? = some ⟨acc.files.length, acc.record⟩ :=
  if_neg h

theorem text?_of_nil (h : acc.files = []) : acc.text? = none := if_pos h

theorem text?_of_ne_nil (h : acc.files ≠ []) : acc.text? = some (RowFormat.render acc.record) :=
  if_neg h

/-- The files of an account are counted by what is staged. -/
theorem map_files_staged? (acc : Account) :
    (acc.staged?.map Staged.files).getD 0 = acc.files.length := by
  by_cases h : acc.files = []
  · rw [staged?_of_nil h, h]
    rfl
  · rw [staged?_of_ne_nil h]
    rfl

end Account

namespace MemoryStore

/-- The record that merging into a group starts from: its aggregate, or the empty
record. -/
def baseline (s : MemoryStore) (g : GroupName) : Record :=
  match s.loadAggregate g with
  | .ok (some r) => r
  | _ => .empty

/-- `record` is the fold of `merge` over the contents of the files, from the baseline
of the group. -/
def IsFold (s : MemoryStore) (g : GroupName) (files : List String) (record : Record) : Prop :=
  ∃ records : List Record, files.map s.readPublished = records.map .ok ∧
    records.foldlM Record.merge (s.baseline g) = .ok record

/-- Loading the aggregate of a group when its fold stands at `running`. -/
def loadRunning (s : MemoryStore) (running : GroupName → Record) (g : GroupName) :
    Except StorageError Record := (s.loadAggregate g).map fun _ => running g

/-- The fold of a group after a file that is merged into it and saved; none for
other files.  A dry run goes on from the fold although it saves nothing. -/
def next? (s : MemoryStore) (dry : Bool) (g : GroupName) (running : Record) (file : String) :
    Option Record :=
  match accept (s.loadRunning fun _ => running) s.readPublished file with
  | .ok (h, r) => if h = g ∧ (dry ∨ g ∉ s.readOnly) then some r else none
  | .error _ => none

/-- Enter a file into the account of a group. -/
def enter (s : MemoryStore) (dry : Bool) (g : GroupName) (acc : Account) (file : String) : Account :=
  match s.next? dry g acc.record file with
  | some r => acc.add file r
  | none => acc

/-- The account of a group after the given files, in the order in which they are
processed. -/
def account (s : MemoryStore) (dry : Bool) (g : GroupName) (files : List String) : Account :=
  files.foldl (s.enter dry g) ⟨[], s.baseline g⟩

/-- Accepting a file that is processed after others. -/
def acceptAfter (s : MemoryStore) (dry : Bool) (earlier : List String) (file : String) :
    Except Attempt (GroupName × Record) :=
  accept (s.loadRunning fun g => (s.account dry g earlier).record) s.readPublished file

/-- What becomes of a file that is accepted. -/
def verdict (s : MemoryStore) (dry : Bool) (g : GroupName) (file : String) : Attempt :=
  if dry then .planned g
  else if g ∈ s.readOnly then .unsaved g (.io (Path.ofString g.text) .denied)
  else if file ∈ s.locked then .undeleted g (.io (Path.ofString file) .denied)
  else .merged g

/-- What becomes of a file that is processed after others. -/
def forecast (s : MemoryStore) (dry : Bool) (earlier : List String) (file : String) : Attempt :=
  match s.acceptAfter dry earlier file with
  | .error t => t
  | .ok (g, _) => s.verdict dry g file

/-- What becomes of files that are processed in order, after others. -/
def forecasts (s : MemoryStore) (dry : Bool) (earlier : List String) : List String → List FileResult
  | [] => []
  | file :: rest =>
    (s.forecast dry earlier file).result file :: s.forecasts dry (earlier ++ [file]) rest

/-- A file has been merged and removed. -/
def Consumed (s : MemoryStore) (dry : Bool) (earlier : List String) (file : String) : Prop :=
  ∃ before later g, earlier = before ++ file :: later ∧ s.forecast dry before file = .merged g

/-! ### Accounts -/

section Accounts

variable {s : MemoryStore} {dry : Bool} {g : GroupName}

theorem loadRunning_eq_ok_iff {running : GroupName → Record} {r : Record} :
    s.loadRunning running g = .ok r ↔ (∃ o, s.loadAggregate g = .ok o) ∧ running g = r := by
  unfold loadRunning
  cases s.loadAggregate g <;> simp [Except.map]

theorem loadRunning_eq_error_iff {running : GroupName → Record} {e : StorageError} :
    s.loadRunning running g = .error e ↔ s.loadAggregate g = .error e := by
  unfold loadRunning
  cases s.loadAggregate g <;> simp [Except.map]

theorem accept_loadRunning_eq_ok_iff {running : GroupName → Record} {file : String} {r : Record} :
    accept (s.loadRunning running) s.readPublished file = .ok (g, r) ↔ GroupName.ofFile file = .ok g ∧
      (∃ o, s.loadAggregate g = .ok o) ∧
      ∃ incoming, s.readPublished file = .ok incoming ∧ (running g).merge incoming = .ok r := by
  simp only [accept_eq_ok_iff, loadRunning_eq_ok_iff]
  constructor
  · rintro ⟨hg, _, incoming, ⟨hl, rfl⟩, hr, hm⟩
    exact ⟨hg, hl, incoming, hr, hm⟩
  · rintro ⟨hg, hl, incoming, hr, hm⟩
    exact ⟨hg, _, incoming, ⟨hl, rfl⟩, hr, hm⟩

theorem next?_eq_some_iff {running r : Record} {file : String} :
    s.next? dry g running file = some r ↔ (dry = true ∨ g ∉ s.readOnly) ∧
      accept (s.loadRunning fun _ => running) s.readPublished file = .ok (g, r) := by
  unfold next?
  cases accept (s.loadRunning fun _ => running) s.readPublished file with
  | error t => simp
  | ok p =>
    obtain ⟨h, r'⟩ := p
    by_cases hg : h = g
    · subst hg
      simp
    · simp [hg]

@[simp] theorem account_nil : s.account dry g [] = ⟨[], s.baseline g⟩ := rfl

theorem account_concat (earlier : List String) (file : String) :
    s.account dry g (earlier ++ [file]) = s.enter dry g (s.account dry g earlier) file := by
  rw [account, List.foldl_append]
  rfl

theorem enter_of_next? {acc : Account} {file : String} {r : Record}
    (h : s.next? dry g acc.record file = some r) :
    s.enter dry g acc file = acc.add file r := by rw [enter, h]

theorem enter_of_none {acc : Account} {file : String} (h : s.next? dry g acc.record file = none) :
    s.enter dry g acc file = acc := by rw [enter, h]

/-- What holds at first and is kept with every file entered holds of every account. -/
theorem account_induction {P : Account → Prop} (first : P ⟨[], s.baseline g⟩)
    (step : ∀ acc file r, P acc → s.next? dry g acc.record file = some r → P (acc.add file r))
    (files : List String) : P (s.account dry g files) := by
  have hfold : ∀ acc, P acc → P (files.foldl (s.enter dry g) acc) := by
    induction files with
    | nil => exact fun _ h => h
    | cons file rest ih =>
      intro acc hacc
      refine ih _ ?_
      cases h : s.next? dry g acc.record file with
      | none => rw [enter_of_none h]; exact hacc
      | some r => rw [enter_of_next? h]; exact step acc file r hacc h
  exact hfold _ first

theorem baseline_congr {t : MemoryStore} (h : t.aggregates[g]? = s.aggregates[g]?) :
    t.baseline g = s.baseline g := by rw [baseline, loadAggregate_congr h, ← baseline]

theorem isFinite_baseline (s : MemoryStore) (g : GroupName) : (s.baseline g).IsFinite := by
  unfold baseline
  split
  · rename_i r h
    exact isFinite_loadAggregate h
  · exact Record.isFinite_empty

/-- **An account is finite**, so its text reads back. -/
theorem isFinite_account (files : List String) : (s.account dry g files).record.IsFinite := by
  refine account_induction (P := fun acc => acc.record.IsFinite) (isFinite_baseline s g)
    (fun acc file r hacc h => ?_) files
  obtain ⟨-, haccept⟩ := next?_eq_some_iff.1 h
  obtain ⟨-, -, incoming, hread, hmerge⟩ := accept_loadRunning_eq_ok_iff.1 haccept
  exact hacc.merge (isFinite_readPublished hread) hmerge

/-- An account without files stands where it started. -/
theorem account_record_of_nil {files : List String} (h : (s.account dry g files).files = []) :
    (s.account dry g files).record = s.baseline g := by
  have := @account_induction s dry g
    (fun acc => acc.files = [] → acc.record = s.baseline g) (fun _ => rfl)
    (fun acc file r _ _ hnil => by simp at hnil) files
  exact this h

/-- Only a group whose aggregate can be read has files in its account. -/
theorem loads_of_account_ne_nil {files : List String} (h : (s.account dry g files).files ≠ []) :
    ∃ o, s.loadAggregate g = .ok o := by
  have := @account_induction s dry g
    (fun acc => acc.files ≠ [] → ∃ o, s.loadAggregate g = .ok o) (fun hne => absurd rfl hne)
    (fun acc file r _ hnext _ =>
      (accept_loadRunning_eq_ok_iff.1 (next?_eq_some_iff.1 hnext).2).2.1) files
  exact this h

/-- **An account is the fold over exactly its files**, from the stored aggregate. -/
theorem isFold_account (files : List String) :
    s.IsFold g (s.account dry g files).files (s.account dry g files).record := by
  refine account_induction (P := fun acc => s.IsFold g acc.files acc.record) ⟨[], rfl, rfl⟩ ?_ files
  rintro acc file r ⟨records, hfiles, hfold⟩ h
  obtain ⟨-, haccept⟩ := next?_eq_some_iff.1 h
  obtain ⟨-, -, incoming, hread, hmerge⟩ := accept_loadRunning_eq_ok_iff.1 haccept
  refine ⟨records ++ [incoming], ?_, ?_⟩
  · rw [Account.files_add, List.map_append, List.map_append, hfiles, List.map_singleton,
      List.map_singleton, hread]
  · exact Record.foldlM_merge_concat.2 ⟨_, hfold, hmerge⟩

/-- Files have one fold at most. -/
theorem IsFold.unique {files : List String} {r r' : Record} (h : s.IsFold g files r)
    (h' : s.IsFold g files r') : r = r' := by
  obtain ⟨records, hfiles, hfold⟩ := h
  obtain ⟨records', hfiles', hfold'⟩ := h'
  obtain rfl := (List.map_inj_right fun _ _ => Except.ok.inj).1 (hfiles.symm.trans hfiles')
  exact Except.ok.inj (hfold.symm.trans hfold')

/-! ### Forecasts -/

theorem acceptAfter_eq_ok_iff {earlier : List String} {file : String} {r : Record} :
    s.acceptAfter dry earlier file = .ok (g, r) ↔ GroupName.ofFile file = .ok g ∧
      (∃ o, s.loadAggregate g = .ok o) ∧ ∃ incoming, s.readPublished file = .ok incoming ∧
        (s.account dry g earlier).record.merge incoming = .ok r :=
  accept_loadRunning_eq_ok_iff

/-- A file enters the account of a group exactly if it is accepted to the group and the
group can be saved, or need not be. -/
theorem next?_account_eq_some_iff {earlier : List String} {file : String} {r : Record} :
    s.next? dry g (s.account dry g earlier).record file = some r ↔
      (dry = true ∨ g ∉ s.readOnly) ∧ s.acceptAfter dry earlier file = .ok (g, r) := by
  rw [next?_eq_some_iff, acceptAfter_eq_ok_iff, accept_loadRunning_eq_ok_iff]

theorem forecast_of_refused {earlier : List String} {file : String} {t : Attempt}
    (h : s.acceptAfter dry earlier file = .error t) : s.forecast dry earlier file = t := by
  rw [forecast, h]

theorem forecast_of_accepted {earlier : List String} {file : String} {r : Record}
    (h : s.acceptAfter dry earlier file = .ok (g, r)) :
    s.forecast dry earlier file = s.verdict dry g file := by
  rw [forecast, h]

theorem next?_of_refused {earlier : List String} {file : String} {t : Attempt}
    (h : s.acceptAfter dry earlier file = .error t) (g : GroupName) :
    s.next? dry g (s.account dry g earlier).record file = none := by
  refine Option.eq_none_iff_forall_ne_some.2 fun r hr => ?_
  have haccept := (next?_account_eq_some_iff.1 hr).2
  rw [h] at haccept
  cases haccept

theorem eq_of_verdict_eq_merged {file : String} {k : GroupName}
    (h : s.verdict dry g file = .merged k) : g = k := by
  unfold verdict at h
  split at h
  · cases h
  split at h
  · cases h
  split at h
  · cases h
  · exact Attempt.merged.inj h

/-- A file that is accepted enters the account of its group, or the group is read-only
and cannot be saved. -/
theorem next?_of_accepted {earlier : List String} {file : String} {r : Record}
    (h : s.acceptAfter dry earlier file = .ok (g, r)) :
    s.next? dry g (s.account dry g earlier).record file = some r ∨
      (dry = false ∧ g ∈ s.readOnly ∧
        ∀ k, s.next? dry k (s.account dry k earlier).record file = none) := by
  by_cases hw : dry = true ∨ g ∉ s.readOnly
  · exact Or.inl (next?_account_eq_some_iff.2 ⟨hw, h⟩)
  · obtain ⟨hdry, hro⟩ := not_or.1 hw
    refine Or.inr ⟨Bool.not_eq_true dry ▸ hdry, Classical.not_not.1 hro, fun k => ?_⟩
    refine Option.eq_none_iff_forall_ne_some.2 fun r' hr' => hw ?_
    obtain ⟨hk, haccept⟩ := next?_account_eq_some_iff.1 hr'
    obtain ⟨rfl, -⟩ := Prod.mk.inj (Except.ok.inj (h.symm.trans haccept))
    exact hk

/-- A file that enters no account is not removed. -/
theorem forecast_ne_merged {earlier : List String} {file : String}
    (h : ∀ g, s.next? dry g (s.account dry g earlier).record file = none) (g : GroupName) :
    s.forecast dry earlier file ≠ .merged g := by
  cases haccept : s.acceptAfter dry earlier file with
  | error t =>
    rw [forecast_of_refused haccept]
    exact (accept_eq_error_iff.1 haccept).ne_merged g
  | ok p =>
    rcases next?_of_accepted haccept with hnext | ⟨hdry, hro, -⟩
    · rw [h p.1] at hnext
      cases hnext
    · rw [forecast_of_accepted haccept, verdict, hdry, if_neg Bool.false_ne_true, if_pos hro]
      exact Attempt.noConfusion

theorem consumed_concat {earlier : List String} {file last : String} :
    s.Consumed dry (earlier ++ [last]) file ↔ s.Consumed dry earlier file ∨
      file = last ∧ ∃ g, s.forecast dry earlier last = .merged g := by
  constructor
  · rintro ⟨before, later, g, hsplit, hmerged⟩
    rcases List.eq_nil_or_concat later with rfl | ⟨later, x, rfl⟩
    · obtain ⟨rfl, hlast⟩ := List.append_inj' hsplit rfl
      obtain rfl := (List.cons.inj hlast).1
      exact Or.inr ⟨rfl, g, hmerged⟩
    · rw [List.concat_eq_append, ← List.cons_append, ← List.append_assoc] at hsplit
      obtain ⟨rfl, -⟩ := List.append_inj' hsplit rfl
      exact Or.inl ⟨before, later, g, rfl, hmerged⟩
  · rintro (⟨before, later, g, rfl, hmerged⟩ | ⟨rfl, g, hmerged⟩)
    · exact ⟨before, later ++ [last], g, by simp, hmerged⟩
    · exact ⟨earlier, [], g, rfl, hmerged⟩

/-- A file that is accepted and saved enters the account of its group, and no other. -/
theorem account_concat_of_next? {earlier : List String} {file : String} {r : Record}
    (h : s.next? dry g (s.account dry g earlier).record file = some r) (k : GroupName) :
    s.account dry k (earlier ++ [file]) =
      if g = k then (s.account dry g earlier).add file r else s.account dry k earlier := by
  by_cases hk : g = k
  · subst hk
    rw [if_pos rfl, account_concat, enter_of_next? h]
  · have hnone : s.next? dry k (s.account dry k earlier).record file = none := by
      refine Option.eq_none_iff_forall_ne_some.2 fun r' hr' => hk ?_
      have haccept := (next?_account_eq_some_iff.1 h).2.symm.trans (next?_account_eq_some_iff.1 hr').2
      exact (Prod.mk.inj (Except.ok.inj haccept)).1
    rw [if_neg hk, account_concat, enter_of_none hnone]

theorem consumed_concat_of_next? {earlier : List String} {file last : String} {r : Record}
    (h : s.next? dry g (s.account dry g earlier).record last = some r) :
    s.Consumed dry (earlier ++ [last]) file ↔ s.Consumed dry earlier file ∨
      file = last ∧ s.forecast dry earlier last = .merged g := by
  have hmerged : (∃ k, s.forecast dry earlier last = .merged k) ↔
      s.forecast dry earlier last = .merged g := by
    refine ⟨fun ⟨k, hk⟩ => ?_, fun hg => ⟨g, hg⟩⟩
    rw [forecast_of_accepted (next?_account_eq_some_iff.1 h).2] at hk ⊢
    rw [hk, eq_of_verdict_eq_merged hk]
  rw [consumed_concat, hmerged]

/-- A file that enters no account is not consumed. -/
theorem consumed_concat_of_none {earlier : List String} {file last : String}
    (h : ∀ g, s.next? dry g (s.account dry g earlier).record last = none) :
    s.Consumed dry (earlier ++ [last]) file ↔ s.Consumed dry earlier file := by
  rw [consumed_concat]
  exact ⟨fun h' => h'.elim id fun ⟨_, g, hg⟩ => absurd hg (forecast_ne_merged h g), Or.inl⟩

end Accounts

end MemoryStore
end Rollup
