import EdgeProxy.Restore.Protocol

/-! # What the steps of a restore and of a recovery can leave behind

One rule for each action on the disk: what holds when it returns, and what holds when it fails or
the process stops in it.
-/

namespace EdgeProxy

open Rust Rust.Action

variable {α β : Type}

section Runs

variable {run : RestoreRun} {Q : α → RestoreRun → Prop} {E : Stop AppError → RestoreRun → Prop}

theorem ends_zoom {x : DiskAction α}
    (h : Ends (fun a disk => Q a { run with disk }) (fun stop disk => E stop { run with disk })
      (x run.disk)) : Ends Q E (onDisk x run) := by
  rw [onDisk, zoom_apply]
  rcases hx : x run.disk with ⟨_ | _, _⟩
  · rw [hx] at h
    exact h
  · rw [hx] at h
    exact h

theorem ends_onDisk {x : DiskAction β} {k : β → RestoreAction α} {P : β → Disk → Prop}
    {R : Stop AppError → Disk → Prop} (hx : Ends P R (x run.disk))
    (herror : ∀ stop disk, R stop disk → E stop { run with disk })
    (hk : ∀ b disk, P b disk → Ends Q E (k b { run with disk })) :
    Ends Q E ((onDisk x >>= k) run) :=
  ends_bind (ends_zoom (ends_mono hx hk herror)) fun _ _ h => h

theorem transition_bind {event : RestoreEvent} {machine : RestoreState}
    {k : PUnit → RestoreAction α}
    (h : run.machine.transition event = .ok machine) :
    (transition event >>= k) run = k ⟨⟩ { run with machine } := by
  rw [bind_apply, transition, read_bind, h]
  rfl

end Runs

variable {fate : Fate DataFile}

section DiskActions

variable {disk : Disk} {Q : α → Disk → Prop} {E : Stop AppError → Disk → Prop}

theorem ends_removeTree {get : Disk → Option DataTree}
    {set : Option DataTree → Disk → Disk} {e : AppError} (hset : set (get disk) disk = disk) :
    Ends (fun _ s => s = set none disk)
      (fun _ s => fate.isDone = false ∧
        ∃ kept, s = set ((get disk).map fun tree => tree.restrict kept) disk)
      (ReplacePublisher.removeTree fate get set e disk) := by
  rw [ReplacePublisher.removeTree, read_bind]
  split
  · rcases fate with _ | extent | extent
    · rfl
    · exact ⟨rfl, extent.kept, rfl⟩
    · exact ⟨rfl, extent.kept, rfl⟩
  · next h =>
    have h : get disk = none := by simpa using h
    exact (h ▸ hset).symm

theorem ends_removeStage {e : AppError} :
    Ends (fun _ s => s = { disk with stage := none })
      (fun _ s => fate.isDone = false ∧ ∃ stage, s = { disk with stage })
      (ReplacePublisher.removeStage fate e disk) :=
  ends_mono (ends_removeTree (by rfl)) (fun _ _ h => h) (fun _ _ ⟨hf, _, h⟩ => ⟨hf, _, h⟩)

end DiskActions

namespace ReplacePublisher

variable {publisher : ReplacePublisher} {tx : RestoreTransaction} {disk : Disk}

def CleanupFates.allDone (fates : CleanupFates) : Bool :=
  fates.removeRollback.isDone && fates.removeStage.isDone && fates.sync.isDone

variable (hv : publisher.validate tx = .ok ())

include hv

theorem ends_cleanupCommitted {fates : CleanupFates} :
    Ends (fun _ s => s = { disk with rollback := none, stage := none })
      (fun _ s => fates.allDone = false ∧ ∃ rollback stage, s = { disk with rollback, stage } ∧
        (disk.rollback = none → rollback = none))
      (publisher.cleanupCommitted fates tx disk) := by
  rw [cleanupCommitted, ofExcept_ok_bind hv]
  refine ends_then (ends_removeTree (by rfl)) ?_ ?_
  · rintro _ _ ⟨hf, kept, rfl⟩
    exact ⟨by simp [CleanupFates.allDone, hf], _, _, rfl, fun h => by rw [h]; rfl⟩
  · rintro _ _ rfl
    refine ends_then ends_removeStage ?_ ?_
    · rintro _ _ ⟨hf, stage, rfl⟩
      exact ⟨by simp [CleanupFates.allDone, hf], _, _, rfl, fun _ => rfl⟩
    · rintro _ _ rfl
      refine ends_mono touch_keeps (fun _ _ h => h) ?_
      rintro _ _ ⟨rfl, hf, _⟩
      exact ⟨by simp [CleanupFates.allDone, hf], _, _, rfl, fun _ => rfl⟩

def RollbackFates.allDone (fates : RollbackFates) : Bool :=
  fates.removeTarget.isDone && fates.moveBack.isDone && fates.discardStage.isDone &&
    fates.sync.isDone

theorem ends_rollbackAfterFailure {fates : RollbackFates} {old : DataTree}
    (ht : disk.target = none) (hr : disk.rollback = some old) :
    Ends (fun outcome s => outcome = .restored ∧
        s = { disk with target := some old, rollback := none, stage := none })
      (fun _ s => fates.allDone = false ∧ ∃ stage, s = { disk with stage } ∨
        s = { disk with target := some old, rollback := none, stage })
      (publisher.rollbackAfterFailure fates tx disk) := by
  rw [rollbackAfterFailure, ofExcept_ok_bind hv, read_bind, if_neg (by simp [hr])]
  have hremove : removeTree fates.removeTarget Disk.target
      (fun tree disk => { disk with target := tree }) restoreRollbackFailed disk =
        (.ok ⟨⟩, disk) := by
    rw [removeTree, read_bind, if_neg (by simp [ht])]
    rfl
  rw [bind_ok hremove]
  refine ends_atomically ?_ (fun _ hf => ⟨by simp [RollbackFates.allDone, hf], _, .inl rfl⟩) ?_
  case refine_2 =>
    intro hf
    have hf : fates.allDone = false := by simp [RollbackFates.allDone, hf]
    exact ⟨⟨hf, _, .inl rfl⟩, ⟨hf, disk.stage, .inr (by rw [hr])⟩⟩
  refine ends_then ends_removeStage ?_ ?_
  · rintro _ _ ⟨hf, stage, rfl⟩
    exact ⟨by simp [RollbackFates.allDone, hf], stage, .inr (by rw [hr])⟩
  · rintro _ _ rfl
    refine ends_then touch_keeps ?_ ?_
    · rintro _ _ ⟨rfl, hf, _⟩
      exact ⟨by simp [RollbackFates.allDone, hf], none, .inr (by rw [hr])⟩
    · rintro _ _ rfl
      exact ⟨rfl, by rw [hr]⟩

theorem rollbackAfterFailure_notRequired {fates : RollbackFates} (hr : disk.rollback = none) :
    publisher.rollbackAfterFailure fates tx disk = (.ok .notRequired, disk) := by
  rw [rollbackAfterFailure, ofExcept_ok_bind hv, read_bind, if_pos (by simp [hr])]
  rfl

theorem ends_moveTargetToRollback {move sync : Fate DataFile} :
    Ends (fun _ s => s = { disk with target := none, rollback := disk.target })
      (fun _ s => s = disk ∨ s = { disk with target := none, rollback := disk.target })
      (publisher.moveTargetToRollback move sync tx disk) := by
  rw [moveTargetToRollback, ofExcept_ok_bind hv]
  refine ends_atomically ?_ (fun _ _ => .inl rfl) (fun _ => ⟨.inl rfl, .inr rfl⟩)
  exact ends_mono touch_keeps (fun _ _ h => h) fun _ _ h => .inr h.1

theorem ends_publishStage {move sync : Fate DataFile} :
    Ends (fun _ s => s = { disk with stage := none, target := disk.stage })
      (fun stop s => s = disk ∧ (stop ≠ .crash → move.isFailed) ∨
        s = { disk with stage := none, target := disk.stage } ∧ (stop ≠ .crash → sync.isFailed))
      (publisher.publishStage move sync tx disk) := by
  rw [publishStage, ofExcept_ok_bind hv]
  refine ends_atomically ?_ (fun hf _ => .inl ⟨rfl, fun _ => hf⟩)
    (fun _ => ⟨.inl ⟨rfl, fun h => absurd rfl h⟩, .inr ⟨rfl, fun h => absurd rfl h⟩⟩)
  exact ends_mono touch_keeps (fun _ _ h => h) fun _ _ h => .inr ⟨h.1, h.2.2⟩

theorem ends_verifyTarget {read : Fate DataFile} {summary : RestoreStageSummary}
    (ht : holdsRevision summary disk.target = true) :
    Ends (fun _ s => s = disk) (fun stop s => s = disk ∧ (stop ≠ .crash → read.isFailed))
      (publisher.verifyTarget read tx summary disk) := by
  rw [verifyTarget, ofExcept_ok_bind hv]
  refine ends_then touch_keeps (fun _ _ h => ⟨h.1, h.2.2⟩) ?_
  rintro _ _ rfl
  rw [read_bind, if_pos ht]
  rfl

omit hv in
theorem ends_prepareReplace {operationId : Text} {summary : RestoreStageSummary} :
    Ends (fun tx s => s = disk ∧ disk.target.isSome ∧ disk.rollback = none ∧
        tx = ⟨operationId, summary.archiveId, publisher.name, publisher.stageName,
          publisher.rollbackName, .prepared⟩ ∧ validateTransactionValues tx = .ok ())
      (fun _ s => s = disk) (publisher.prepareReplace operationId summary disk) := by
  rw [prepareReplace, read_bind]
  split
  · rfl
  · next h =>
    push Not at h
    rcases hv : validateTransactionValues ⟨operationId, summary.archiveId, publisher.name,
      publisher.stageName, publisher.rollbackName, .prepared⟩ with e | u
    all_goals
      dsimp only
      rw [hv]
    · rfl
    · exact ⟨rfl, Option.isSome_iff_ne_none.mpr (by simpa using h.1), by simpa using h.2.2, rfl, hv⟩

theorem ends_treeValid {read : Fate DataFile} {get : Disk → Option DataTree} :
    Ends (fun valid s => s = disk ∧ valid = (read.isDone && (get disk).any DataTree.valid) ∧
        (read.isDone ∨ read.isFailed))
      (fun _ s => s = disk ∧ read.isDone = false) (publisher.treeValid read get tx disk) := by
  rw [treeValid, ofExcept_ok_bind hv]
  rcases read with _ | _ | _
  · exact ⟨rfl, rfl, .inl rfl⟩
  · exact ⟨rfl, rfl, .inr rfl⟩
  · exact ⟨rfl, rfl⟩

end ReplacePublisher

section Journal

variable {disk : Disk} {Q : PUnit → Disk → Prop} {E : Stop AppError → Disk → Prop}

theorem ends_deleteJournal :
    Ends (fun _ s => s = { disk with journal := none })
      (fun _ s => fate.isDone = false ∧ (s = disk ∨ s = { disk with journal := none }))
      (deleteJournal fate disk) :=
  ends_mono ends_durably (fun _ _ h => h) fun _ _ h => ⟨h.1, h.2.2⟩

theorem ends_persist {tx : RestoreTransaction} (hv : validateTransactionValues tx = .ok ()) :
    Ends (fun _ s => s = { disk with journal := some tx })
      (fun stop s => (stop ≠ .crash → fate.isFailed) ∧
        (s = disk ∨ s = { disk with journal := some tx }))
      (persist fate tx disk) := by
  rw [persist, ofExcept_ok_bind hv]
  exact ends_mono ends_durably (fun _ _ h => h) fun _ _ h => h.2

end Journal

end EdgeProxy
