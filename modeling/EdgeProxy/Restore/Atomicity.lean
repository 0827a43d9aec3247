import EdgeProxy.Restore.Commit

/-! # Which tree a recovery keeps

Once the journal is written, the disk is in one of two classes: the old tree is complete at the
target or in the rollback copy and the stage has not been published, or the staged tree is complete
at the target. A recovery stays in the class it starts in and reports it, unless the configuration
of the target cannot be read.
-/

namespace EdgeProxy

open Rust Rust.Action List

/-- The journal does not say that the stage was published, and it was not. -/
def Undone (publisher : ReplacePublisher) (input : ReplaceInput) (old : DataTree) (disk : Disk) :
    Prop :=
  ∃ tx, disk.journal = some tx ∧ tx.Belongs publisher input ∧ tx.state ≠ .stagePublished ∧
    Unmoved old disk

/-- The journal says that the target was moved, and the target is `tree`. -/
def Committed (publisher : ReplacePublisher) (input : ReplaceInput) (tree : DataTree)
    (disk : Disk) : Prop :=
  ∃ tx, disk.journal = some tx ∧ tx.Belongs publisher input ∧ tx.state ≠ .prepared ∧
    disk.target = some tree

section Recovery

variable {publisher : ReplacePublisher} {input : ReplaceInput} {old tree : DataTree}
  {tx : RestoreTransaction} {disk : Disk} {fates : RecoverStep → Fate DataFile} {timestamp : ℕ}

theorem RestoreTransaction.Belongs.requireTransaction (h : tx.Belongs publisher input)
    (hj : disk.journal = some tx) :
    requireTransaction input.operationId disk = (.ok tx, disk) := by
  have hload : load input.operationId disk = (.ok (some tx), disk) := by
    rw [load, read_bind, hj]
    dsimp only
    rw [ofExcept_ok_bind h.values, if_neg (by simp [h.operation])]
    rfl
  rw [EdgeProxy.requireTransaction, bind_ok hload]
  rfl

theorem ends_moveBack (fates : ReplacePublisher.RollbackFates) (hb : tx.Belongs publisher input)
    (ht : disk.target = none) (hr : disk.rollback = some old) :
    Ends (fun outcome s => outcome ≠ .commitCompleted ∧ s = ⟨some old, none, none, disk.journal⟩)
      (fun _ s => fates.allDone = false ∧ s.journal = disk.journal ∧ Unmoved old s)
      ((publisher.rollbackAfterFailure fates tx >>= fun
        | .restored => pure RecoveryOutcome.rollbackRestored
        | .notRequired => raise transactionAmbiguous) disk) := by
  refine ends_then (ReplacePublisher.ends_rollbackAfterFailure hb.identities ht hr) ?_ ?_
  · rintro _ _ ⟨hf, stage, rfl | rfl⟩
    · exact ⟨hf, rfl, .inr ⟨ht, hr⟩⟩
    · exact ⟨hf, rfl, .inl ⟨rfl, rfl⟩⟩
  · rintro _ _ ⟨rfl, rfl⟩
    exact ⟨by decide, rfl⟩

theorem ends_settle_undone (hb : tx.Belongs publisher input) (hs : tx.state ≠ .stagePublished)
    (hu : Unmoved old disk) {target rollback : Bool}
    (ht : target = true → disk.target.any DataTree.valid = true)
    (hr : rollback = true → disk.rollback.any DataTree.valid = true) :
    Ends (fun outcome s => outcome ≠ .commitCompleted ∧
        s = ⟨some old, none, none, disk.journal⟩)
      (fun _ s => s.journal = disk.journal ∧ Unmoved old s)
      (settle publisher fates tx target rollback disk) := by
  rcases hu with ⟨htarget, hrollback⟩ | ⟨htarget, hrollback⟩
  · -- the target is in place, so only an abort is possible
    have hr : rollback = false := by
      rw [hrollback] at hr
      simpa using hr
    subst hr
    have hkeep : ∀ s : Disk, s = disk → s.journal = disk.journal ∧ Unmoved old s := by
      rintro _ rfl
      exact ⟨rfl, .inl ⟨htarget, hrollback⟩⟩
    rcases hstate : tx.state
    · rcases target
      · simp only [settle, hstate]
        exact hkeep disk rfl
      · simp only [settle, hstate]
        refine ends_then (ReplacePublisher.ends_cleanupCommitted hb.identities) ?_ ?_
        · rintro _ _ ⟨_, rollback, stage, rfl, h⟩
          exact ⟨rfl, .inl ⟨htarget, h hrollback⟩⟩
        · rintro _ _ rfl
          exact ⟨by decide, by rw [htarget]⟩
    · rcases target <;> simp only [settle, hstate] <;> exact hkeep disk rfl
    · exact absurd hstate hs
  · have ht : target = false := by
      rw [htarget] at ht
      simpa using ht
    subst ht
    have hundo := ends_moveBack ⟨fates .removeTarget, fates .moveBack, fates .discardStage,
      fates .syncMovedBack⟩ hb htarget hrollback
    rcases hstate : tx.state <;> rcases rollback
    all_goals simp only [settle, hstate]
    all_goals first
      | exact ends_mono hundo (fun _ _ h => h) fun _ _ h => h.2
      | exact ⟨rfl, .inr ⟨htarget, hrollback⟩⟩

theorem ends_settle_committed (hb : tx.Belongs publisher input) (hs : tx.state ≠ .prepared)
    {rollback : Bool} :
    Ends (fun outcome s => outcome = .commitCompleted ∧
        s = { disk with rollback := none, stage := none })
      (fun _ s => s.journal = disk.journal ∧ s.target = disk.target)
      (settle publisher fates tx true rollback disk) := by
  have hcommit : Ends (fun outcome s => outcome = RecoveryOutcome.commitCompleted ∧
        s = { disk with rollback := none, stage := none })
      (fun _ s => s.journal = disk.journal ∧ s.target = disk.target)
      ((publisher.cleanupCommitted ⟨fates .removeRollback, fates .removeStage,
        fates .syncCommitted⟩ tx >>= fun _ => pure RecoveryOutcome.commitCompleted) disk) := by
    refine ends_then (ReplacePublisher.ends_cleanupCommitted hb.identities) ?_ ?_
    · rintro _ _ ⟨_, _, _, rfl, _⟩
      exact ⟨rfl, rfl⟩
    · rintro _ _ rfl
      exact ⟨rfl, rfl⟩
  rcases hstate : tx.state
  · exact absurd hstate hs
  · rcases rollback <;> simp only [settle, hstate]
    · exact ⟨rfl, rfl⟩
    · exact hcommit
  · rcases rollback <;> simp only [settle, hstate] <;> exact hcommit

theorem recordOutcome_of_ne {outcome : RecoveryOutcome} (h : outcome ≠ .commitCompleted)
    (operationId : Text) :
    recordOutcome fates tx operationId timestamp outcome = transition .provenanceNotRequired := by
  cases outcome with
  | commitCompleted => exact absurd rfl h
  | _ => rfl

theorem ends_recover {Q : RestoreRecoveryReceipt → Disk → Prop} {E : Stop AppError → Disk → Prop}
    (hj : disk.journal = some tx) (hb : tx.Belongs publisher input)
    (hkeep : (fates .readTarget).isDone = false ∨ (fates .readRollback).isDone = false →
      ∀ stop, E stop disk)
    (h : ∀ target rollback,
      target = ((fates .readTarget).isDone && disk.target.any DataTree.valid) →
      ((fates .readTarget).isDone ∨ (fates .readTarget).isFailed) →
      rollback = ((fates .readRollback).isDone && disk.rollback.any DataTree.valid) →
      Ends (fun outcome s => Ends (fun receipt run => Q receipt run.disk)
          (fun stop run => E stop run.disk)
          (finishRecovery fates tx input.operationId timestamp outcome
            { disk := s, machine := .recordingProvenance }))
        E (settle publisher fates tx target rollback disk)) :
    Ends Q E (RecoverRestore.execute publisher fates input.operationId timestamp disk) := by
  have hinner : Ends (fun receipt run => Q receipt run.disk) (fun stop run => E stop run.disk)
      (recoverInner publisher fates input.operationId timestamp { disk }) := by
    rw [recoverInner, transition_bind rfl]
    refine ends_bind (ends_zoom ?_) fun _ _ h => h
    rw [hb.requireTransaction hj]
    refine ends_onDisk (ReplacePublisher.ends_treeValid hb.identities) ?_ ?_
    · rintro stop s ⟨hs, hread⟩
      obtain rfl : s = disk := hs
      exact hkeep (.inl hread) stop
    rintro target s ⟨hs, htarget, hread⟩
    obtain rfl : s = disk := hs
    refine ends_onDisk (ReplacePublisher.ends_treeValid hb.identities) ?_ ?_
    · rintro stop t ⟨ht, hread⟩
      obtain rfl : t = s := ht
      exact hkeep (.inr hread) stop
    rintro rollback t ⟨ht, hrollback, _⟩
    obtain rfl : t = s := ht
    refine ends_onDisk (h target rollback htarget hread hrollback) (fun _ _ h => h) ?_
    intro outcome u hfinish
    rw [transition_bind rfl, transition_bind rfl]
    exact hfinish
  rw [RecoverRestore.execute]
  rcases hrun : recoverInner publisher fates input.operationId timestamp { disk } with ⟨_ | _, _⟩
  · rw [hrun] at hinner
    exact hinner
  · rw [hrun] at hinner
    exact hinner

theorem recover_of_undone (fates : RecoverStep → Fate DataFile) (timestamp : ℕ)
    (hj : disk.journal = some tx) (hb : tx.Belongs publisher input)
    (hs : tx.state ≠ .stagePublished) (hu : Unmoved old disk) :
    Ends (fun receipt s => receipt.outcome ≠ .commitCompleted ∧ s = ⟨some old, none, none, none⟩)
      (fun _ s => s.journal = none ∨ s.journal = some tx ∧ Unmoved old s)
      (RecoverRestore.execute publisher fates input.operationId timestamp disk) := by
  refine ends_recover hj hb (fun _ _ => .inr ⟨hj, hu⟩) ?_
  intro target rollback htarget _ hrollback
  refine ends_mono (ends_settle_undone hb hs hu (by simp_all) (by simp_all)) ?_ ?_
  · rintro outcome s ⟨hne, rfl⟩
    rw [finishRecovery, recordOutcome_of_ne hne, transition_bind rfl]
    refine ends_onDisk ends_deleteJournal ?_ ?_
    · rintro _ _ ⟨_, rfl | rfl⟩
      · exact .inr ⟨hj, .inl ⟨rfl, rfl⟩⟩
      · exact .inl rfl
    · rintro _ _ rfl
      exact ⟨hne, rfl⟩
  · rintro _ s ⟨hjournal, hu⟩
    exact .inr ⟨hjournal.trans hj, hu⟩

theorem recover_of_committed (timestamp : ℕ) (hj : disk.journal = some tx)
    (hb : tx.Belongs publisher input) (hs : tx.state ≠ .prepared) (ht : disk.target = some tree)
    (hvalid : tree.valid = true)
    (hread : (fates .readTarget).isFailed = false) :
    Ends (fun receipt s => receipt.outcome = .commitCompleted ∧ tree.torn = false ∧ ∃ record,
        provenanceRecord input.operationId input.summary.archiveId none timestamp = .ok record ∧
          s = ⟨some (tree.append record), none, none, none⟩)
      (fun _ s => s.journal = none ∨ s.journal = some tx ∧ (s.target = some tree ∨
        (∃ left, Tears (fates .provenance) tree left ∧ s.target = some left) ∨
        ((fates .provenance).leavesChange = true ∨ (fates .deleteJournal).isDone = false) ∧
          ∃ record, provenanceRecord input.operationId input.summary.archiveId none timestamp =
            .ok record ∧ s.target = some (tree.append record)))
      (RecoverRestore.execute publisher fates input.operationId timestamp disk) := by
  refine ends_recover hj hb (fun _ _ => .inr ⟨hj, .inl ht⟩) ?_
  intro target rollback htarget hor _
  obtain rfl : target = true := by
    rw [htarget, ht]
    rcases hor with hor | hor
    · simp [hor, hvalid]
    · rw [hread] at hor
      cases hor
  refine ends_mono (ends_settle_committed hb hs) ?_ ?_
  · rintro outcome s ⟨rfl, rfl⟩
    rw [finishRecovery, recordOutcome, hb.archive]
    refine ends_then (ends_appendRestoreProvenance rfl ht) ?_ ?_
    · rintro _ r ⟨_, _, hr | ⟨left, htears, hr⟩ | ⟨hleft, record, hrecord, hr⟩⟩
      · exact .inr ⟨by rw [hr]; exact hj, .inl (by rw [hr]; exact ht)⟩
      · exact .inr ⟨by rw [hr]; exact hj, .inr (.inl ⟨left, htears, by rw [hr]⟩)⟩
      · exact .inr ⟨by rw [hr]; exact hj, .inr (.inr ⟨.inl hleft, record, hrecord, by rw [hr]⟩)⟩
    · rintro _ r ⟨_, hwhole, record, hrecord, hr⟩
      refine ends_onDisk ends_deleteJournal ?_ ?_
      · rintro _ _ ⟨hdone, rfl | rfl⟩
        · exact .inr ⟨by rw [hr]; exact hj,
            .inr (.inr ⟨.inr hdone, record, hrecord, by rw [hr]⟩)⟩
        · exact .inl rfl
      · rintro _ _ rfl
        exact ⟨rfl, hwhole, record, hrecord, by rw [hr]⟩
  · rintro _ s ⟨hjournal, htree⟩
    exact .inr ⟨hjournal.trans hj, .inl (htree.trans ht)⟩

end Recovery

section Runs

structure Recovery where
  fates : RecoverStep → Fate DataFile := fun _ => .done
  timestamp : ℕ := 0

def Recovery.run (publisher : ReplacePublisher) (operationId : Text) (recovery : Recovery) :
    DiskAction RestoreRecoveryReceipt :=
  RecoverRestore.execute publisher recovery.fates operationId recovery.timestamp

def afterRecoveries (publisher : ReplacePublisher) (operationId : Text)
    (recoveries : List Recovery) (disk : Disk) : Disk :=
  recoveries.foldl (fun disk recovery => (recovery.run publisher operationId disk).2) disk

variable {publisher : ReplacePublisher} {input : ReplaceInput} {old : DataTree} {disk : Disk}
  {recovery : Recovery}

theorem run_of_no_journal (hj : disk.journal = none) (operationId : Text) :
    recovery.run publisher operationId disk =
      (.error (.error restoreTransactionUnresolved), disk) := by
  have hrequire : requireTransaction operationId disk =
      (.error (.error restoreTransactionUnresolved), disk) := by
    rw [requireTransaction, load, bind_apply, read_bind, hj]
    rfl
  rw [Recovery.run, RecoverRestore.execute, recoverInner, transition_bind rfl, bind_apply, onDisk,
    zoom_apply, hrequire]

/-- The target is a valid published tree with `P`. -/
def Keeps (publisher : ReplacePublisher) (input : ReplaceInput) (P : DataTree → Prop)
    (disk : Disk) : Prop :=
  ∃ tree, P tree ∧ tree.valid = true ∧ Committed publisher input tree disk

/-- `P` outlives a recovery that records the import, or a part of it, and leaves the journal. -/
structure Recovery.Preserves (recovery : Recovery) (input : ReplaceInput) (P : DataTree → Prop) :
    Prop where
  append : ((recovery.fates .provenance).leavesChange = true ∨
      (recovery.fates .deleteJournal).isDone = false) →
    ∀ tree record, provenanceRecord input.operationId input.summary.archiveId none
      recovery.timestamp = .ok record → P tree → P (tree.append record)
  tear : ∀ tree left, Tears (recovery.fates .provenance) tree left → P tree → P left

/-- The journal is gone, or the disk is in a class. -/
abbrev ClosedOr (K : Disk → Prop) (disk : Disk) : Prop := disk.journal = none ∨ K disk

theorem Undone.after_run (h : Undone publisher input old disk) (recovery : Recovery) :
    ClosedOr (Undone publisher input old) (recovery.run publisher input.operationId disk).2 := by
  obtain ⟨tx, hj, hb, hs, hu⟩ := h
  refine state_of_ends
    (ends_mono (recover_of_undone recovery.fates recovery.timestamp hj hb hs hu) ?_ ?_)
  · rintro _ _ ⟨_, rfl⟩
    exact .inl rfl
  · exact fun _ _ => .imp_right fun ⟨hj, hu⟩ => ⟨tx, hj, hb, hs, hu⟩

theorem Keeps.after_run {P : DataTree → Prop} (h : Keeps publisher input P disk)
    (hread : (recovery.fates .readTarget).isFailed = false) (hP : recovery.Preserves input P) :
    ClosedOr (Keeps publisher input P) (recovery.run publisher input.operationId disk).2 := by
  obtain ⟨tree, htree, hvalid, tx, hj, hb, hs, ht⟩ := h
  refine state_of_ends
    (ends_mono (recover_of_committed recovery.timestamp hj hb hs ht hvalid hread) ?_ ?_)
  · rintro _ _ ⟨_, _, _, _, rfl⟩
    exact .inl rfl
  · rintro _ _ (h | ⟨hj, h | ⟨left, htears, h⟩ | ⟨hearly, record, hrecord, h⟩⟩)
    · exact .inl h
    · exact .inr ⟨tree, htree, hvalid, tx, hj, hb, hs, h⟩
    · exact .inr ⟨left, hP.tear tree left htears htree, htears.valid.trans hvalid, tx, hj, hb,
        hs, h⟩
    · exact .inr ⟨_, hP.append hearly tree record hrecord htree, hvalid, tx, hj, hb, hs, h⟩

theorem journal_afterRecoveries (recoveries : List Recovery) (hj : disk.journal = none) :
    (afterRecoveries publisher input.operationId recoveries disk).journal = none := by
  refine foldlRecOn (motive := (Disk.journal · = none)) recoveries _ hj fun disk hj recovery _ => ?_
  rwa [run_of_no_journal hj]

theorem afterRecoveries_keeps {K : Disk → Prop} {recoveries : List Recovery}
    (hrun : ∀ recovery ∈ recoveries, ∀ disk, K disk →
      ClosedOr K (recovery.run publisher input.operationId disk).2) (h : K disk) :
    ClosedOr K (afterRecoveries publisher input.operationId recoveries disk) := by
  refine foldlRecOn (motive := ClosedOr K) recoveries _ (.inr h) fun disk h recovery hr => ?_
  rcases h with hj | h
  · exact .inl (by rwa [run_of_no_journal hj])
  · exact hrun recovery hr disk h

theorem Undone.afterRecoveries (recoveries : List Recovery) (h : Undone publisher input old disk) :
    ClosedOr (Undone publisher input old)
      (afterRecoveries publisher input.operationId recoveries disk) :=
  afterRecoveries_keeps (fun recovery _ _ h => h.after_run recovery) h

theorem Keeps.afterRecoveries {P : DataTree → Prop} {recoveries : List Recovery}
    (h : Keeps publisher input P disk)
    (hall : ∀ recovery ∈ recoveries, (recovery.fates .readTarget).isFailed = false ∧
      recovery.Preserves input P) :
    ClosedOr (Keeps publisher input P)
      (afterRecoveries publisher input.operationId recoveries disk) :=
  afterRecoveries_keeps
    (fun recovery hr _ h => h.after_run (hall recovery hr).1 (hall recovery hr).2) h

end Runs

end EdgeProxy
