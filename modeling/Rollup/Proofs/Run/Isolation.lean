/-
# Groups do not interfere

A run works on all groups in turn, in the order of the names of files, but what it does to one
group depends on that group alone.  Two storages that agree on the part of a group
(`MemoryStore.AgreesOn`), whatever else they hold and refuse, give it the same account: files
of other groups pass it by (`MemoryStore.account_filter`), and its own files are accepted alike.
So the results with that group are the same list, the other results between them left out, its
summary is the same, and the storages agree on its part again
(`Aggregator.groups_do_not_interfere`).
-/

import Rollup.Proofs.Run.Outcomes
import Rollup.Proofs.Run.Results

namespace Rollup

/-- The name is that of a file of the group. -/
def GroupName.owns (g : GroupName) (file : String) : Bool := ofFile file = .ok g

theorem GroupName.owns_iff {g : GroupName} {file : String} : g.owns file = true ↔ ofFile file = .ok g :=
  decide_eq_true_iff

/-- Accepting a file depends on its own group only. -/
theorem accept_congr_of_owns {g : GroupName} {load load' : GroupName → Except StorageError Record}
    {read read' : String → Except StorageError Record} {file : String} (hg : g.owns file = true)
    (hload : load g = load' g) (hread : read file = read' file) :
    accept load read file = accept load' read' file := by
  unfold accept
  rw [GroupName.owns_iff.1 hg, hread]
  simp only [hload]

namespace MemoryStore

variable {s t : MemoryStore} {g : GroupName} {dry : Bool} {file : String} {earlier later : List String}

/-- Two storages agree on the part of a group: its pending files and unusable entries, its
aggregate, and what is refused of these. -/
structure AgreesOn (g : GroupName) (s t : MemoryStore) : Prop where
  published : ∀ file, g.owns file → t.published[file]? = s.published[file]?
  unusable : (t.unusable.filter fun entry => g.owns entry.name) =
    s.unusable.filter fun entry => g.owns entry.name
  aggregate : t.aggregates[g]? = s.aggregates[g]?
  readOnly : g ∈ t.readOnly ↔ g ∈ s.readOnly
  locked : ∀ file ∈ s.published, g.owns file → (file ∈ t.locked ↔ file ∈ s.locked)

/-! ### Files of other groups pass an account by -/

theorem enter_of_not_owns (h : g.owns file = false) (acc : Account) : s.enter dry g acc file = acc := by
  refine enter_of_none (Option.eq_none_iff_forall_ne_some.2 fun r hr => ?_)
  have haccept := (next?_eq_some_iff.1 hr).2
  rw [GroupName.owns_iff.2 (accept_eq_ok_iff.1 haccept).1] at h
  cases h

/-- **The account of a group is that of its own files.** -/
theorem account_filter (s : MemoryStore) (dry : Bool) (g : GroupName) (files : List String) :
    s.account dry g (files.filter g.owns) = s.account dry g files := by
  induction files using List.reverseRecOn with
  | nil => rfl
  | append_singleton files file ih =>
    rw [List.filter_append, account_concat, ← ih]
    cases hown : g.owns file with
    | true => rw [List.filter_cons_of_pos hown, List.filter_nil, account_concat]
    | false =>
      rw [List.filter_cons_of_neg (by simp [hown]), List.filter_nil, List.append_nil,
        enter_of_not_owns hown]

theorem account_congr_of_filter (h : later.filter g.owns = earlier.filter g.owns) :
    s.account dry g later = s.account dry g earlier := by
  rw [← account_filter, h, account_filter]

/-! ### The part of a group -/

namespace AgreesOn

theorem readPublished (h : AgreesOn g s t) (hg : g.owns file = true) :
    t.readPublished file = s.readPublished file := readPublished_congr (h.published file hg)

theorem loadRunning (h : AgreesOn g s t) {running running' : GroupName → Record}
    (hrunning : running' g = running g) : t.loadRunning running' g = s.loadRunning running g := by
  unfold MemoryStore.loadRunning
  rw [loadAggregate_congr h.aggregate, hrunning]

theorem enter (h : AgreesOn g s t) (dry : Bool) : t.enter dry g = s.enter dry g := by
  funext acc file
  cases hg : g.owns file with
  | false => rw [enter_of_not_owns hg, enter_of_not_owns hg]
  | true =>
    unfold MemoryStore.enter next?
    rw [accept_congr_of_owns hg (h.loadRunning rfl) (h.readPublished hg)]
    simp only [h.readOnly]

/-- **Storages that agree on a group keep the same account of it.** -/
theorem account (h : AgreesOn g s t) (dry : Bool) (files : List String) :
    t.account dry g files = s.account dry g files := by
  rw [MemoryStore.account, MemoryStore.account, h.enter, baseline_congr h.aggregate]

/-- **A file of the group has the same fate**, whatever was processed before it in other
groups. -/
theorem forecast (h : AgreesOn g s t) (hg : g.owns file = true)
    (hlocked : file ∈ t.locked ↔ file ∈ s.locked)
    (hearlier : later.filter g.owns = earlier.filter g.owns) :
    t.forecast dry later file = s.forecast dry earlier file := by
  have haccount : t.account dry g later = s.account dry g earlier := by
    rw [h.account, account_congr_of_filter hearlier]
  have haccept : t.acceptAfter dry later file = s.acceptAfter dry earlier file :=
    accept_congr_of_owns hg (h.loadRunning (congrArg Account.record haccount)) (h.readPublished hg)
  cases hfate : s.acceptAfter dry earlier file with
  | error refusal => rw [forecast_of_refused (haccept.trans hfate), forecast_of_refused hfate]
  | ok p =>
    obtain ⟨k, r⟩ := p
    obtain rfl : k = g :=
      Except.ok.inj ((acceptAfter_eq_ok_iff.1 hfate).1.symm.trans (GroupName.owns_iff.1 hg))
    rw [forecast_of_accepted (haccept.trans hfate), forecast_of_accepted hfate, verdict, verdict]
    simp only [h.readOnly, hlocked]

/-- The results of files of the group. -/
theorem forecasts {files : List String} (h : AgreesOn g s t) (hg : ∀ file ∈ files, g.owns file)
    (hp : ∀ file ∈ files, file ∈ s.published)
    (hearlier : later.filter g.owns = earlier.filter g.owns) :
    t.forecasts dry later files = s.forecasts dry earlier files := by
  induction files generalizing earlier later with
  | nil => rfl
  | cons file rest ih =>
    have hrest : (later ++ [file]).filter g.owns = (earlier ++ [file]).filter g.owns := by
      rw [List.filter_append, List.filter_append, hearlier]
    rw [MemoryStore.forecasts, MemoryStore.forecasts,
      h.forecast (hg file (by simp)) (h.locked file (hp file (by simp)) (hg file (by simp))) hearlier,
      ih (fun f hf => hg f (by simp [hf])) (fun f hf => hp f (by simp [hf])) hrest]

/-- The pending files of the group, in order. -/
theorem filter_publishedNames (h : AgreesOn g s t) :
    t.publishedNames.filter g.owns = s.publishedNames.filter g.owns := by
  refine eq_of_ascending id ((ordered_publishedNames t).filter _)
    ((ordered_publishedNames s).filter _) fun file => ?_
  rw [List.mem_filter, List.mem_filter, mem_publishedNames, mem_publishedNames]
  refine and_congr_left fun hg => ?_
  rw [Std.TreeMap.mem_iff_isSome_getElem?, Std.TreeMap.mem_iff_isSome_getElem?, h.published file hg]

end AgreesOn

theorem AgreesOn.refl (g : GroupName) (s : MemoryStore) : AgreesOn g s s :=
  ⟨fun _ _ => rfl, rfl, rfl, .rfl, fun _ _ _ => .rfl⟩

/-! ### The results with a group -/

theorem group?_result_forecast (s : MemoryStore) (dry : Bool) (earlier : List String) (file : String) :
    decide (((s.forecast dry earlier file).result file).group? = some g) = g.owns file := by
  rw [Attempt.result, group?_forecast, GroupName.owns]
  cases GroupName.ofFile file <;> simp [Except.toOption]

/-- **The results with a group are those of its own files**, as if there were no others. -/
theorem filter_forecasts (s : MemoryStore) (dry : Bool) (g : GroupName) (earlier files : List String) :
    ((s.forecasts dry earlier files).filter fun r => r.group? = some g) =
      s.forecasts dry (earlier.filter g.owns) (files.filter g.owns) := by
  induction files generalizing earlier with
  | nil => rfl
  | cons file rest ih =>
    have hone := group?_result_forecast (g := g) s dry earlier file
    rw [forecasts, List.filter_cons, hone, List.filter_cons, ih, List.filter_append]
    cases hg : g.owns file with
    | false => simp [hg]
    | true =>
      have hfate : s.forecast dry (earlier.filter g.owns) file = s.forecast dry earlier file :=
        (AgreesOn.refl g s).forecast hg .rfl (by simp)
      simp [hg, forecasts, hfate]

/-- **Storages that agree on a group give the same results with it.** -/
theorem AgreesOn.filter_results (h : AgreesOn g s t) (dry : Bool) :
    ((t.forecasts dry [] t.publishedNames).filter fun r => r.group? = some g) =
      (s.forecasts dry [] s.publishedNames).filter fun r => r.group? = some g := by
  rw [filter_forecasts, filter_forecasts, h.filter_publishedNames]
  exact h.forecasts (fun file hfile => (List.mem_filter.1 hfile).2)
    (fun file hfile => mem_publishedNames.1 (List.mem_filter.1 hfile).1) rfl

/-- A file of the group is consumed exactly if a result with the group says so. -/
theorem consumed_iff_of_owns {files : List String} (hg : g.owns file = true) :
    s.Consumed dry files file ↔
      ∃ r ∈ (s.forecasts dry [] files).filter fun r => r.group? = some g,
        r.file = file ∧ r.outcome.isMerged := by
  rw [consumed_iff]
  refine exists_congr fun r => ?_
  rw [List.mem_filter]
  constructor
  · rintro ⟨hr, rfl, hmerged⟩
    obtain ⟨before, later, hsplit⟩ := List.append_of_mem hr
    have hresult := (List.cons.inj (forecasts_eq_append hsplit).2).1
    refine ⟨⟨hr, ?_⟩, rfl, hmerged⟩
    rw [hresult, group?_result_forecast]
    exact hg
  · rintro ⟨⟨hr, -⟩, hfile, hmerged⟩
    exact ⟨hr, hfile, hmerged⟩

theorem AgreesOn.consumed_iff (h : AgreesOn g s t) (dry : Bool) (hg : g.owns file = true) :
    t.Consumed dry t.publishedNames file ↔ s.Consumed dry s.publishedNames file := by
  rw [consumed_iff_of_owns hg, consumed_iff_of_owns hg, h.filter_results]

end MemoryStore

namespace Aggregator

open MemoryStore

variable {g : GroupName} {a b last last' : Aggregator MemoryStore} {s t : MemoryStore}

/-- A map of groups has one entry or none for a group. -/
theorem filter_toList {β : Type} (m : Std.TreeMap GroupName β GroupName.compare) (g : GroupName) :
    (m.toList.filter fun entry => entry.1 = g) = (m[g]?.map fun b => (g, b)).toList := by
  refine eq_of_ascending Prod.fst (Std.TreeMap.ordered_keys_toList.filter _) ?_ fun ⟨k, b⟩ => ?_
  · cases m[g]? <;> simp
  · rw [List.mem_filter, Std.TreeMap.mem_toList_iff_getElem?_eq_some, decide_eq_true_iff,
      Option.mem_toList, Option.map_eq_some_iff]
    constructor
    · rintro ⟨hb, rfl⟩
      exact ⟨b, hb, rfl⟩
    · rintro ⟨b', hb, he⟩
      obtain ⟨rfl, rfl⟩ := Prod.mk.inj he
      exact ⟨hb, rfl⟩

/-- The summary of a group is that of what is staged for it. -/
theorem filter_summaries (a : Aggregator MemoryStore) (g : GroupName) :
    (a.summaries.filter fun summary => summary.group = g) =
      (a.groups[g]?.map fun staged => GroupSummary.ofRecord g staged.files staged.record).toList := by
  rw [summaries, List.filter_map]
  show (List.filter (fun entry => decide (entry.1 = g)) a.groups.toList).map _ = _
  rw [filter_toList]
  cases a.groups[g]? <;> rfl

/-- **Runs keep an agreement on a group.** -/
theorem Tracks.agreesOn (h : Tracks s s.publishedNames last) (h' : Tracks t t.publishedNames last')
    (hmode : last'.dryRun = last.dryRun) (hagree : AgreesOn g s t) :
    AgreesOn g last.storage last'.storage where
  published file hg := by
    have hgone := hagree.consumed_iff last.dryRun hg
    by_cases hconsumed : s.Consumed last.dryRun s.publishedNames file
    · rw [h.consumed file hconsumed, h'.consumed file (hmode ▸ hgone.2 hconsumed)]
    · rw [h.kept file hconsumed, h'.kept file (hmode ▸ mt hgone.1 hconsumed), hagree.published file hg]
  unusable := by rw [h.unusable, h'.unusable, hagree.unusable]
  aggregate := by
    cases hd : last.dryRun with
    | true => rw [h.untouched hd, h'.untouched (hmode.trans hd), hagree.aggregate]
    | false =>
      rw [h.stored hd, h'.stored (hmode.trans hd), hmode, hagree.aggregate, hagree.account,
        ← account_filter, hagree.filter_publishedNames, account_filter]
  readOnly := by rw [h.readOnly, h'.readOnly, hagree.readOnly]
  locked file hfile hg := by
    rw [h.locked, h'.locked]
    exact hagree.locked file (h.mem_published_iff.1 hfile).1 hg

/-- **Groups do not interfere.**  Whatever else two storages hold and refuse, if they agree on
the part of a group then runs in one mode give the same results with the group in the same
order, the same summary of it or none, and storages that agree on its part again: its aggregate
and its remaining files are the same. -/
theorem groups_do_not_interfere (hagree : AgreesOn g a.storage b.storage)
    (hmode : b.dryRun = a.dryRun) (runDate runDate' : Moment) (duration duration' : Binary64) :
    ∃ report report' last last', a.run runDate duration = (.ok report, last) ∧
      b.run runDate' duration' = (.ok report', last') ∧
      (report'.files.filter fun r => r.group? = some g) =
        (report.files.filter fun r => r.group? = some g) ∧
      (report'.groups.filter fun summary => summary.group = g) =
        (report.groups.filter fun summary => summary.group = g) ∧
      AgreesOn g last.storage last'.storage := by
  obtain ⟨report, last, hrun, hfiles, hgroups, hdry, htracks⟩ := run_memory a runDate duration
  obtain ⟨report', last', hrun', hfiles', hgroups', hdry', htracks'⟩ :=
    run_memory b runDate' duration'
  have hsame : last'.dryRun = last.dryRun := (hdry'.trans hmode).trans hdry.symm
  have hafter : AgreesOn g last.storage last'.storage := htracks.agreesOn htracks' hsame hagree
  refine ⟨report, report', _, _, hrun, hrun', ?_, ?_, hafter⟩
  · have hunusable : ∀ entries : List Unusable,
        ((entries.map unusableResult).filter fun r => r.group? = some g) =
          (entries.filter fun entry => g.owns entry.name).map unusableResult := by
      intro entries
      rw [List.filter_map]
      refine congrArg _ (List.filter_congr fun entry _ => ?_)
      show decide ((GroupName.ofFile entry.name).toOption = some g) = _
      rw [GroupName.owns]
      cases GroupName.ofFile entry.name <;> simp [Except.toOption]
    rw [hfiles, hfiles', filter_sortResults, filter_sortResults, List.filter_append,
      List.filter_append, hunusable, hunusable, hagree.unusable, hmode, hagree.filter_results]
  · rw [hgroups, hgroups', filter_summaries, filter_summaries, htracks.staged, htracks'.staged, hsame,
      hagree.account, ← account_filter, hagree.filter_publishedNames, account_filter]

/-- A group alone, and beside a group that is blocked and read-only and a name without a
group. -/
theorem groups_do_not_interfere_web :
    let web : GroupName := ⟨"web", by simp [isUsableName]⟩
    let app : GroupName := ⟨"app", by simp [isUsableName]⟩
    let s := (MemoryStore.empty.putAggregate web "1\n0.5\n\n").publish "web_1" "2\n\n\n"
    let t := (((s.publish "app_1" "3\n\n\n").putAggregate app "x").setReadOnly app).addUnusable "web"
      "not a regular file"
    AgreesOn web s t ∧ (new t false).dryRun = (new s false).dryRun ∧ ∃ report report' last last',
      (new s false).run ⟨0, 0⟩ (.zero false) = (.ok report, last) ∧
      (new t false).run ⟨0, 0⟩ (.zero false) = (.ok report', last') ∧
      (report'.files.filter fun r => r.group? = some web) =
        (report.files.filter fun r => r.group? = some web) ∧
      (report'.groups.filter fun summary => summary.group = web) =
        (report.groups.filter fun summary => summary.group = web) ∧
      AgreesOn web last.storage last'.storage := by
  intro web app s t
  have hother : GroupName.ofFile "app_1" = .ok app := by cbv
  have happ : app ≠ web := by decide
  have hagree : AgreesOn web s t := {
    published := fun file hg => by
      show (s.publish "app_1" "3\n\n\n").published[file]? = s.published[file]?
      rw [getElem?_publish, if_neg]
      rintro rfl
      exact happ (Except.ok.inj (hother.symm.trans (GroupName.owns_iff.1 hg)))
    unusable := by decide +kernel
    aggregate := by
      show ((s.publish "app_1" "3\n\n\n").putAggregate app "x").aggregates[web]? = s.aggregates[web]?
      rw [getElem?_putAggregate, if_neg happ]
      rfl
    readOnly := by decide
    locked := fun _ _ _ => .rfl }
  exact ⟨hagree, rfl,
    groups_do_not_interfere (a := new s false) (b := new t false) hagree rfl _ _ _ _⟩

end Aggregator
end Rollup
