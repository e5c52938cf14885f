/-
# Schedules of publishing and merging

Files of a group are published under names that are not pending, and real runs merge
them, in any order (`Aggregator.Schedule`).  On a storage that denies nothing, and as
long as no sum overflows, a run merges every pending file of the group that parses
(`Aggregator.run_merges`).  So after a run the stored text is the fold over all the
contents published so far, in an order that depends on the schedule, and a fold that
fits does not depend on the order (`Record.foldlM_merge_perm`): two schedules with
the same contents end with the same text (`Aggregator.schedules_agree`).
-/

import Rollup.Proofs.Run.Calls
import Rollup.Proofs.Run.Tracking

namespace Rollup

namespace MemoryStore

variable {s : MemoryStore} {g : GroupName}

/-- The content of an entry, if it belongs to the group. -/
def contentIn? (g : GroupName) (entry : String × String) : Option String :=
  if GroupName.ofFile entry.1 = .ok g then some entry.2 else none

/-- The contents of the pending files of a group. -/
def pendingIn (s : MemoryStore) (g : GroupName) : List String :=
  s.published.toList.filterMap (contentIn? g)

/-- The records of texts; those that do not parse have none. -/
def recordsOf (texts : List String) : List Record :=
  texts.filterMap fun text => (RowFormat.parse text).toOption

/-- The record of a pending file, if it belongs to the group. -/
def recordIn? (s : MemoryStore) (g : GroupName) (file : String) : Option Record :=
  if GroupName.ofFile file = .ok g then (s.readPublished file).toOption else none

theorem recordIn?_eq_some_iff {file : String} {r : Record} :
    s.recordIn? g file = some r ↔ GroupName.ofFile file = .ok g ∧ s.readPublished file = .ok r := by
  unfold recordIn?
  by_cases hg : GroupName.ofFile file = .ok g
  · cases hread : s.readPublished file <;> simp [hg, Except.toOption]
  · simp [hg]

/-! ### Pending records -/

theorem filterMap_recordIn? (s : MemoryStore) (g : GroupName) :
    s.publishedNames.filterMap (s.recordIn? g) = recordsOf (s.pendingIn g) := by
  rw [publishedNames, ← Std.TreeMap.map_fst_toList_eq_keys, List.filterMap_map, pendingIn, recordsOf,
    List.filterMap_filterMap]
  refine List.filterMap_congr fun ⟨name, content⟩ hentry => ?_
  have hcontent := Std.TreeMap.mem_toList_iff_getElem?_eq_some.1 hentry
  have hdecode : (decode name content).toOption = (RowFormat.parse content).toOption := by
    unfold decode
    cases RowFormat.parse content <;> rfl
  simp only [Function.comp, recordIn?, contentIn?, readPublished, hcontent, hdecode]
  split <;> rfl

/-- Publishing a file under a name that is not pending adds its content to its group,
and nothing to other groups. -/
theorem pendingIn_publish (s : MemoryStore) (g : GroupName) {name : String} (content : String)
    (hfresh : GroupName.ofFile name = .ok g → name ∉ s.published) :
    ((s.publish name content).pendingIn g).Perm
      ((contentIn? g (name, content)).toList ++ s.pendingIn g) := by
  have hothers : (s.published.toList.filter fun entry => ¬name == entry.1).filterMap (contentIn? g) =
      s.pendingIn g := by
    rw [pendingIn, List.filterMap_filter]
    refine List.filterMap_congr fun entry hentry => ?_
    by_cases hname : name = entry.1
    · have hown : ¬GroupName.ofFile entry.1 = .ok g := by
        intro hg
        rw [← hname] at hg
        refine hfresh hg ?_
        have hpending := Std.TreeMap.mem_toList_iff_getElem?_eq_some.1 hentry
        rw [hname, Std.TreeMap.mem_iff_isSome_getElem?, hpending]
        rfl
      rw [contentIn?, if_neg hown]
      split <;> rfl
    · have hne : (¬(name == entry.1) = true) := by simpa using hname
      simp [hne]
  have hinsert := (@Std.TreeMap.toList_insert_perm _ _ _ s.published _ _ _ name content).filterMap
    (contentIn? g)
  rw [List.filterMap_cons, hothers] at hinsert
  refine hinsert.trans ?_
  cases contentIn? g (name, content) <;> exact .refl _

/-! ### One run -/

/-- A pending file of a group that can be read, saved and merged enters its account. -/
theorem exists_next? {earlier : List String} {file : String} {incoming : Record}
    (hload : ∃ o, s.loadAggregate g = .ok o) (hw : s.readOnly = [])
    (hrecord : s.recordIn? g file = some incoming)
    (hfits : ∀ e, s.forecast false earlier file ≠ .overflowed g e) :
    ∃ r, (s.account false g earlier).record.merge incoming = .ok r ∧
      s.next? false g (s.account false g earlier).record file = some r := by
  obtain ⟨hg, hread⟩ := recordIn?_eq_some_iff.1 hrecord
  cases hmerge : (s.account false g earlier).record.merge incoming with
  | error e =>
    have hrefused : s.acceptAfter false earlier file = .error (.overflowed g e) :=
      accept_eq_error_iff.2 (.overflow hg (loadRunning_eq_ok_iff.2 ⟨hload, rfl⟩) hread hmerge)
    exact absurd (forecast_of_refused hrefused) (hfits e)
  | ok r =>
    have hwritable : g ∉ s.readOnly := by simp [hw]
    have haccept := acceptAfter_eq_ok_iff.2 ⟨hg, hload, incoming, hread, hmerge⟩
    exact ⟨r, rfl, next?_account_eq_some_iff.2 ⟨Or.inr hwritable, haccept⟩⟩

/-- The fold of a group after files of which none overflows. -/
theorem fold_account {files : List String} (hload : ∃ o, s.loadAggregate g = .ok o)
    (hw : s.readOnly = [])
    (hfits : ∀ before file later, files = before ++ file :: later →
      ∀ e, s.forecast false before file ≠ .overflowed g e) :
    (files.filterMap (s.recordIn? g)).foldlM Record.merge (s.baseline g) =
      .ok (s.account false g files).record ∧
    ((s.account false g files).files = [] ↔ files.filterMap (s.recordIn? g) = []) := by
  induction files using List.reverseRecOn with
  | nil => exact ⟨rfl, by simp⟩
  | append_singleton files file ih =>
    obtain ⟨hfold, hnil⟩ := ih fun before f later he => hfits before f (later ++ [file]) (by simp [he])
    rw [List.filterMap_append, account_concat]
    cases hrecord : s.recordIn? g file with
    | none =>
      have hnone : s.next? false g (s.account false g files).record file = none := by
        refine Option.eq_none_iff_forall_ne_some.2 fun r hr => ?_
        obtain ⟨hg, -, incoming, hread, -⟩ :=
          acceptAfter_eq_ok_iff.1 (next?_account_eq_some_iff.1 hr).2
        rw [recordIn?_eq_some_iff.2 ⟨hg, hread⟩] at hrecord
        cases hrecord
      rw [enter_of_none hnone, List.filterMap_cons_none hrecord, List.filterMap_nil, List.append_nil]
      exact ⟨hfold, hnil⟩
    | some incoming =>
      obtain ⟨r, hmerge, hnext⟩ := exists_next? hload hw hrecord (hfits files file [] rfl)
      rw [enter_of_next? hnext, List.filterMap_cons_some hrecord, List.filterMap_nil]
      exact ⟨Record.foldlM_merge_concat.2 ⟨_, hfold, hmerge⟩, by simp⟩

end MemoryStore

namespace Aggregator

open MemoryStore

variable {g : GroupName} {a b : Aggregator MemoryStore}

/-- Real runs over a storage that denies nothing. -/
structure Unhindered (a : Aggregator MemoryStore) : Prop where
  real : a.dryRun = false
  readOnly : a.storage.readOnly = []
  locked : a.storage.locked = []

/-- What happens to files that are processed in order. -/
def attempts (a : Aggregator MemoryStore) : List String → List Attempt
  | [] => []
  | file :: rest => (a.attempt file).1 :: (a.attempt file).2.attempts rest

theorem attempt_mem_attempts (before later : List String) (file : String) :
    ((a.processAll before).2.attempt file).1 ∈ a.attempts (before ++ file :: later) := by
  induction before generalizing a with
  | nil => exact List.mem_cons_self ..
  | cons first before ih => exact List.mem_cons_of_mem _ ih

/-- A run would skip a file of the group because a sum of buckets does not fit. -/
def Overflows (a : Aggregator MemoryStore) (g : GroupName) : Prop :=
  ∃ e, .overflowed g e ∈ { a with groups := ∅ }.attempts a.storage.publishedNames

theorem overflows_of_forecast {before later : List String} {file : String} {e : MergeError}
    (hnames : a.storage.publishedNames = before ++ file :: later)
    (h : a.storage.forecast a.dryRun before file = .overflowed g e) : a.Overflows g := by
  have hnodup : a.storage.publishedNames.Nodup := Std.TreeMap.nodup_keys
  rw [hnames, List.nodup_append] at hnodup
  obtain ⟨hbefore, -, hdisjoint⟩ := hnodup
  have hnew : file ∉ before := fun hmem => hdisjoint file hmem file (List.mem_cons_self ..) rfl
  obtain ⟨-, hdry, htracks⟩ :=
    (tracks_start a).processAll (fun _ _ => List.not_mem_nil) hbefore
  rw [List.nil_append] at htracks
  have hattempt := (htracks.attempt hnew).1
  rw [hdry] at hattempt
  have hmem := @attempt_mem_attempts { a with groups := ∅ } before later file
  rw [hattempt, ← hnames] at hmem
  exact ⟨e, h ▸ hmem⟩

/-- No file of the group overflows if a run skips none for it. -/
theorem forecast_ne_overflowed (hreal : a.dryRun = false) (hfits : ¬a.Overflows g)
    (before : List String) (file : String) (later : List String)
    (hnames : a.storage.publishedNames = before ++ file :: later) (e : MergeError) :
    a.storage.forecast false before file ≠ .overflowed g e := fun hover =>
  hfits (overflows_of_forecast hnames (hreal ▸ hover))

/-- Nothing that parses is left of a group after a real run that has tracked the
accounts of all pending files, if nothing is denied and no sum overflows. -/
theorem Tracks.recordsOf_pendingIn {s : MemoryStore} {last : Aggregator MemoryStore}
    (h : Tracks s s.publishedNames last) (hreal : last.dryRun = false) (hw : s.readOnly = [])
    (hl : s.locked = []) (hload : ∃ o, s.loadAggregate g = .ok o)
    (hfits : ∀ before file later, s.publishedNames = before ++ file :: later →
      ∀ e, s.forecast false before file ≠ .overflowed g e) :
    recordsOf (last.storage.pendingIn g) = [] := by
  rw [← filterMap_recordIn?, List.filterMap_eq_nil_iff]
  intro file hfile
  refine Option.eq_none_iff_forall_ne_some.2 fun incoming hrecord => ?_
  obtain ⟨hg, hread⟩ := recordIn?_eq_some_iff.1 hrecord
  -- A file that is still there was not consumed, but it should have been.
  obtain ⟨hpending, hleft⟩ := h.mem_published_iff.1 (mem_publishedNames.1 hfile)
  have hrecord : s.recordIn? g file = some incoming :=
    recordIn?_eq_some_iff.2 ⟨hg, (readPublished_congr (h.kept file hleft)).symm.trans hread⟩
  obtain ⟨before, later, hnames⟩ := List.append_of_mem (mem_publishedNames.2 hpending)
  obtain ⟨r, -, hnext⟩ := exists_next? hload hw hrecord (hfits before file later hnames)
  refine hleft ⟨before, later, g, hnames, ?_⟩
  rw [hreal, forecast_of_accepted (next?_account_eq_some_iff.1 hnext).2, verdict]
  simp [hw, hl]

/-- **What a run does to a group** on a storage that denies nothing, if no sum
overflows: it merges every pending file that parses. -/
theorem run_merges (h : a.Unhindered) (hload : ∃ o, a.storage.loadAggregate g = .ok o)
    (hfits : ¬a.Overflows g) (runDate : Moment) (duration : Binary64) :
    ∃ b, (a.run runDate duration).2 = b ∧ b.Unhindered ∧
      (∃ o, b.storage.loadAggregate g = .ok o) ∧ recordsOf (b.storage.pendingIn g) = [] ∧
      (recordsOf (a.storage.pendingIn g)).foldlM Record.merge (a.storage.baseline g) =
        .ok (b.storage.baseline g) ∧
      b.storage.aggregates[g]? = if recordsOf (a.storage.pendingIn g) = [] then
        a.storage.aggregates[g]? else some (RowFormat.render (b.storage.baseline g)) := by
  obtain ⟨report, last, hrun, -, -, hdry, htracks⟩ := run_memory a runDate duration
  have hreal : last.dryRun = false := hdry.trans h.real
  have hforecast := forecast_ne_overflowed h.real hfits
  obtain ⟨hfold, hnil⟩ := fold_account hload h.readOnly hforecast
  rw [filterMap_recordIn?] at hfold hnil
  have hpending := htracks.recordsOf_pendingIn hreal h.readOnly h.locked hload hforecast
  have htext := htracks.stored hreal g
  rw [hreal] at htext
  refine ⟨{ last with groups := ∅ }, by rw [hrun], ⟨hreal, htracks.readOnly.trans h.readOnly,
    htracks.locked.trans h.locked⟩, ?_⟩
  by_cases hnone : recordsOf (a.storage.pendingIn g) = []
  · rw [Account.text?_of_nil (hnil.2 hnone), Option.none_or] at htext
    rw [hnone] at hfold ⊢
    refine ⟨?_, hpending, ?_, ?_⟩
    · show ∃ o, last.storage.loadAggregate g = .ok o
      rw [loadAggregate_congr htext]
      exact hload
    · show _ = Except.ok (last.storage.baseline g)
      rw [baseline_congr htext]
      rfl
    · rw [if_pos rfl]
      exact htext
  · rw [Account.text?_of_ne_nil (mt hnil.1 hnone), Option.some_or] at htext
    have hloaded := loadAggregate_of_render htext (isFinite_account _)
    have hbaseline : last.storage.baseline g =
        (a.storage.account false g a.storage.publishedNames).record := by rw [baseline, hloaded]
    refine ⟨⟨_, hloaded⟩, hpending, ?_, ?_⟩
    · show _ = Except.ok (last.storage.baseline g)
      rw [hbaseline]
      exact hfold
    · rw [if_neg hnone]
      show last.storage.aggregates[g]? = some (RowFormat.render (last.storage.baseline g))
      rw [hbaseline]
      exact htext

/-! ### Schedules -/

/-- The schedules of a group that start from `a`: the contents published in the group
so far, and where things stand after them. -/
inductive Schedule (g : GroupName) (a : Aggregator MemoryStore) :
    List String → Aggregator MemoryStore → Prop
  | start : Schedule g a [] a
  /-- A file of the group is published under a name that is not pending. -/
  | publish {contents : List String} {b : Aggregator MemoryStore} {name : String}
      (content : String) (before : Schedule g a contents b) (group : GroupName.ofFile name = .ok g)
      (fresh : name ∉ b.storage.published) :
      Schedule g a (contents ++ [content]) { b with storage := b.storage.publish name content }
  /-- A file that does not belong to the group is published. -/
  | elsewhere {contents : List String} {b : Aggregator MemoryStore} {name : String}
      (content : String) (before : Schedule g a contents b) (other : GroupName.ofFile name ≠ .ok g) :
      Schedule g a contents { b with storage := b.storage.publish name content }
  /-- A run skips no file of the group for overflow. -/
  | run {contents : List String} {b : Aggregator MemoryStore} (runDate : Moment)
      (duration : Binary64) (before : Schedule g a contents b) (fits : ¬b.Overflows g) :
      Schedule g a contents (b.run runDate duration).2

/-- The records merged into a group since the storage was `start`. -/
structure HasMerged (start : MemoryStore) (g : GroupName) (merged : List Record) (s : MemoryStore) :
    Prop where
  loads : ∃ o, s.loadAggregate g = .ok o
  fold : merged.foldlM Record.merge (start.baseline g) = .ok (s.baseline g)
  text : s.aggregates[g]? =
    if merged = [] then start.aggregates[g]? else some (RowFormat.render (s.baseline g))

theorem HasMerged.run {start : MemoryStore} {merged : List Record}
    (hm : HasMerged start g merged a.storage) (h : a.Unhindered) (hfits : ¬a.Overflows g)
    (runDate : Moment) (duration : Binary64) :
    ∃ b, (a.run runDate duration).2 = b ∧ b.Unhindered ∧ recordsOf (b.storage.pendingIn g) = [] ∧
      HasMerged start g (merged ++ recordsOf (a.storage.pendingIn g)) b.storage := by
  obtain ⟨b, hrun, hb, hloads, hpending, hfold, htext⟩ := run_merges h hm.loads hfits runDate duration
  refine ⟨b, hrun, hb, hpending, hloads, ?_, ?_⟩
  · rw [List.foldlM_append, hm.fold]
    exact hfold
  · rw [htext, hm.text]
    by_cases hnone : recordsOf (a.storage.pendingIn g) = []
    · rw [hnone] at hfold ⊢
      obtain hbaseline := Except.ok.inj hfold
      rw [if_pos rfl, List.append_nil, hbaseline]
    · rw [if_neg hnone, if_neg fun he => hnone (List.append_eq_nil_iff.1 he).2]

theorem recordsOf_append (texts texts' : List String) :
    recordsOf (texts ++ texts') = recordsOf texts ++ recordsOf texts' := List.filterMap_append

/-- **What a schedule keeps**: the records still pending and those merged so far are
those that were pending at first or were published since. -/
theorem Schedule.hasMerged {contents : List String} (schedule : Schedule g a contents b)
    (h : a.Unhindered) (hload : ∃ o, a.storage.loadAggregate g = .ok o) :
    b.Unhindered ∧ ∃ merged, HasMerged a.storage g merged b.storage ∧
      (recordsOf (b.storage.pendingIn g) ++ merged).Perm
        (recordsOf (a.storage.pendingIn g ++ contents)) := by
  induction schedule with
  | start => exact ⟨h, [], ⟨hload, rfl, rfl⟩, by simp⟩
  | @publish contents b name content before group fresh ih =>
    obtain ⟨hb, merged, hm, hperm⟩ := ih
    refine ⟨⟨hb.real, hb.readOnly, hb.locked⟩, merged, ⟨hm.loads, hm.fold, hm.text⟩, ?_⟩
    have hpending : (recordsOf ((b.storage.publish name content).pendingIn g)).Perm
        (recordsOf [content] ++ recordsOf (b.storage.pendingIn g)) := by
      have hpublish := pendingIn_publish b.storage g content fun _ => fresh
      rw [contentIn?, if_pos group, Option.toList_some] at hpublish
      rw [← recordsOf_append]
      exact hpublish.filterMap _
    have hcontents : recordsOf (a.storage.pendingIn g ++ (contents ++ [content])) =
        recordsOf (a.storage.pendingIn g ++ contents) ++ recordsOf [content] := by
      rw [← recordsOf_append, List.append_assoc]
    rw [hcontents]
    refine (hpending.append_right merged).trans ?_
    rw [List.append_assoc]
    exact List.perm_append_comm.trans (hperm.append_right _)
  | @elsewhere contents b name content before other ih =>
    obtain ⟨hb, merged, hm, hperm⟩ := ih
    refine ⟨⟨hb.real, hb.readOnly, hb.locked⟩, merged, ⟨hm.loads, hm.fold, hm.text⟩, ?_⟩
    have hpublish := pendingIn_publish b.storage g content fun he => absurd he other
    rw [contentIn?, if_neg other, Option.toList_none, List.nil_append] at hpublish
    exact ((hpublish.filterMap _).append_right _).trans hperm
  | run runDate duration before fits ih =>
    obtain ⟨hb, merged, hm, hperm⟩ := ih
    obtain ⟨after, hrun, hafter, hpending, hm⟩ := hm.run hb fits runDate duration
    rw [hrun]
    refine ⟨hafter, _, hm, ?_⟩
    rw [hpending, List.nil_append]
    exact List.perm_append_comm.trans hperm

/-- **Naming and batching do not matter.**  Two schedules of a group that start with
the same aggregate, and in which the same contents are pending at first or published,
store the same text when they end with a run, if no run of theirs skips a file of the
group for overflow. -/
theorem schedules_agree {a' b' : Aggregator MemoryStore} {contents contents' : List String}
    (schedule : Schedule g a contents b) (schedule' : Schedule g a' contents' b')
    (h : a.Unhindered) (h' : a'.Unhindered)
    (haggregate : a'.storage.aggregates[g]? = a.storage.aggregates[g]?)
    (hload : ∃ o, a.storage.loadAggregate g = .ok o)
    (hcontents : (a.storage.pendingIn g ++ contents).Perm (a'.storage.pendingIn g ++ contents'))
    (hfits : ¬b.Overflows g) (hfits' : ¬b'.Overflows g) (runDate runDate' : Moment)
    (duration duration' : Binary64) :
    (b.run runDate duration).2.storage.aggregates[g]? =
      (b'.run runDate' duration').2.storage.aggregates[g]? := by
  have hload' : ∃ o, a'.storage.loadAggregate g = .ok o := by
    rw [loadAggregate_congr haggregate]
    exact hload
  obtain ⟨hb, merged, hm, hperm⟩ := schedule.hasMerged h hload
  obtain ⟨hb', merged', hm', hperm'⟩ := schedule'.hasMerged h' hload'
  obtain ⟨c, hrun, -, -, hc⟩ := hm.run hb hfits runDate duration
  obtain ⟨c', hrun', -, -, hc'⟩ := hm'.run hb' hfits' runDate' duration'
  have hall : (merged ++ recordsOf (b.storage.pendingIn g)).Perm
      (merged' ++ recordsOf (b'.storage.pendingIn g)) :=
    (List.perm_append_comm.trans hperm).trans
      ((hcontents.filterMap _).trans (List.perm_append_comm.trans hperm').symm)
  have hfold' := hc'.fold
  rw [baseline_congr haggregate] at hfold'
  have hbaseline : c.storage.baseline g = c'.storage.baseline g :=
    Record.foldlM_merge_perm hall hc.fold hfold'
  have hnil : merged ++ recordsOf (b.storage.pendingIn g) = [] ↔
      merged' ++ recordsOf (b'.storage.pendingIn g) = [] :=
    ⟨fun he => (he ▸ hall).symm.eq_nil, fun he => (he ▸ hall).eq_nil⟩
  rw [hrun, hrun', hc.text, hc'.text, hbaseline, haggregate]
  simp only [hnil]

/-- Two contents published at once, or one after the other under the same name. -/
theorem schedules_agree_web :
    let g : GroupName := ⟨"web", by simp [isUsableName]⟩
    let a := new MemoryStore.empty false
    let b : Aggregator MemoryStore :=
      { a with storage := (a.storage.publish "web_1" "1\n\n\n").publish "web_2" "2\n\n\n" }
    let c := (run { a with storage := a.storage.publish "web_1" "2\n\n\n" } ⟨0, 0⟩ (.zero false)).2
    let b' : Aggregator MemoryStore := { c with storage := c.storage.publish "web_1" "1\n\n\n" }
    Schedule g a ["1\n\n\n", "2\n\n\n"] b ∧ Schedule g a ["2\n\n\n", "1\n\n\n"] b' ∧
      a.Unhindered ∧ (∃ o, a.storage.loadAggregate g = .ok o) ∧
      (a.storage.pendingIn g ++ ["1\n\n\n", "2\n\n\n"]).Perm
        (a.storage.pendingIn g ++ ["2\n\n\n", "1\n\n\n"]) ∧ ¬b.Overflows g ∧ ¬b'.Overflows g ∧
      (b.run ⟨0, 0⟩ (.zero false)).2.storage.aggregates[g]? =
        (b'.run ⟨0, 0⟩ (.zero false)).2.storage.aggregates[g]? := by
  intro g a b c b'
  let start : Aggregator MemoryStore := { a with storage := a.storage.publish "web_1" "2\n\n\n" }
  have hfirst : GroupName.ofFile "web_1" = .ok g := by cbv
  have hsecond : GroupName.ofFile "web_2" = .ok g := by cbv
  have hempty : "web_1" ∉ a.storage.published := by decide +kernel
  have hfresh : "web_2" ∉ (a.storage.publish "web_1" "1\n\n\n").published := by decide +kernel
  have hstart : Storage.listPending start.storage = .ok ⟨["web_1"], []⟩ := by decide +kernel
  have hc : c = { (start.attempt "web_1").2 with groups := ∅ } := by
    obtain ⟨report, hrun, -⟩ := run_of_listing rfl hstart ⟨0, 0⟩ (.zero false)
    exact congrArg Prod.snd hrun
  have hreused : "web_1" ∉ c.storage.published := by
    simp only [hc, attempt, hfirst]
    decide +kernel
  have hfits : ∀ x : Aggregator MemoryStore, ∀ files n, x.storage.publishedNames = files →
      { x with groups := ∅ }.attempts files = List.replicate n (.merged g) → ¬x.Overflows g := by
    rintro x files n rfl hattempts ⟨e, he⟩
    rw [hattempts] at he
    cases List.eq_of_mem_replicate he
  have hstarted : ¬start.Overflows g := hfits start ["web_1"] 1 (by decide +kernel) (by
    simp only [attempts, attempt, hfirst]
    decide +kernel)
  have hb : Schedule g a ["1\n\n\n", "2\n\n\n"] b :=
    .publish _ (.publish _ .start hfirst hempty) hsecond hfresh
  have hb' : Schedule g a ["2\n\n\n", "1\n\n\n"] b' :=
    .publish _ (.run _ _ (.publish _ .start hfirst hempty) hstarted) hfirst hreused
  have ha : a.Unhindered := ⟨rfl, rfl, rfl⟩
  have hfinal : ¬b.Overflows g := hfits b ["web_1", "web_2"] 2 (by decide +kernel) (by
    simp only [attempts, attempt, hfirst, hsecond]
    decide +kernel)
  have hfinal' : ¬b'.Overflows g := hfits b' ["web_1"] 1
    (by simp only [b', hc, attempt, hfirst]; decide +kernel)
    (by simp only [attempts, b', hc, attempt, hfirst]; decide +kernel)
  have hload : ∃ o, a.storage.loadAggregate g = .ok o := ⟨none, rfl⟩
  have hcontents : (a.storage.pendingIn g ++ ["1\n\n\n", "2\n\n\n"]).Perm
      (a.storage.pendingIn g ++ ["2\n\n\n", "1\n\n\n"]) := (List.Perm.swap ..).append_left _
  exact ⟨hb, hb', ha, hload, hcontents, hfinal, hfinal',
    schedules_agree hb hb' ha ha rfl hload hcontents hfinal hfinal' _ _ _ _⟩

end Aggregator
end Rollup
