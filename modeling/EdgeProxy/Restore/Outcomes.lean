import EdgeProxy.Restore.Atomicity

/-! # What a recovered restore has done

A restore is run, and then recoveries, each of them interrupted anywhere, until one returns a
receipt. The receipt says which tree is at the target, and the ledger of that tree says it too.
-/

namespace EdgeProxy

open Rust ReplaceRestoreBackup List
open Rust.Action hiding bind_eq_ok

def IsImport (operationId : Text) (record : AuditRecord) : Prop :=
  record.action = .maintenanceRestoreImported ∧ record.context.operationId.value = operationId

instance (operationId : Text) : DecidablePred (IsImport operationId) :=
  fun _ => inferInstanceAs (Decidable (_ ∧ _))

def DataTree.imports (operationId : Text) (tree : DataTree) : List AuditRecord :=
  tree.ledger.filter (IsImport operationId ·)

theorem isImport_of_provenanceRecord {operationId archiveId : Text} {revisionId : Option Text}
    {timestamp : ℕ} {record : AuditRecord}
    (h : provenanceRecord operationId archiveId revisionId timestamp = .ok record) :
    IsImport operationId record := by
  rw [provenanceRecord] at h
  obtain ⟨_, hoperation, h⟩ := Rust.bind_eq_ok.mp h
  obtain ⟨_, _, h⟩ := Rust.bind_eq_ok.mp h
  obtain ⟨_, _, h⟩ := Rust.bind_eq_ok.mp h
  obtain ⟨_, _, h⟩ := Rust.bind_eq_ok.mp h
  cases h
  refine ⟨rfl, ?_⟩
  rw [auditIdentity] at hoperation
  rcases hparse : AuditIdentifier.parse operationId with e | id
  · rw [hparse] at hoperation
    cases hoperation
  · rw [hparse] at hoperation
    cases hoperation
    exact AuditIdentifier.parse_eq_ok hparse

/-- The staged tree, with nothing but records of this import after its own ledger. -/
structure Imported (input : ReplaceInput) (tree : DataTree) : Prop where
  files : tree.files = input.staged.files
  ledger : ∃ records, tree.ledger = input.staged.ledger ++ records ∧
    ∀ record ∈ records, IsImport input.operationId record

theorem imported_staged (input : ReplaceInput) : Imported input input.staged :=
  ⟨rfl, [], by simp, by simp⟩

variable {tree : DataTree}

theorem Imported.append {input : ReplaceInput} {record : AuditRecord}
    (h : Imported input tree) (hr : IsImport input.operationId record) :
    Imported input (tree.append record) := by
  obtain ⟨records, hledger, hall⟩ := h.ledger
  refine ⟨h.files, records ++ [record], ?_, ?_⟩
  · rw [DataTree.append, hledger, append_assoc]
  · intro r hmem
    rcases mem_append.mp hmem with hmem | hmem
    · exact hall r hmem
    · rw [mem_singleton.mp hmem]
      exact hr

theorem Imported.tear {input : ReplaceInput} {fate : Fate DataFile} {left : DataTree}
    (h : Imported input tree) (htears : Tears fate tree left) : Imported input left := by
  obtain ⟨_, _, _, rfl⟩ := htears
  exact ⟨h.files, h.ledger⟩

/-- Where nothing of the frame is there, the tree is as before. -/
theorem Tears.eq_of_whole {fate : Fate DataFile} {left : DataTree} (h : Tears fate tree left)
    (hwhole : left.torn = false) : left = tree := by
  obtain ⟨htorn, kept, _, rfl⟩ := h
  obtain ⟨files, ledger, torn⟩ := tree
  exact congrArg (DataTree.mk files ledger) (Eq.trans hwhole htorn.symm)

section Outcome

variable {publisher : ReplacePublisher} {input : ReplaceInput} {old : DataTree} {start : Disk}
  {fates : ReplaceStep → Fate DataFile} {recoveries : List Recovery} {last : Recovery}
  {receipt : RestoreRecoveryReceipt} {disk final : Disk} {P : DataTree → Prop}

section Run

variable (hrun : last.run publisher input.operationId disk = (.ok receipt, final))

include hrun

theorem run_eq_ok_of_undone (h : Undone publisher input old disk) :
    receipt.outcome ≠ .commitCompleted ∧ final = ⟨some old, none, none, none⟩ := by
  obtain ⟨_, hj, hb, hs, hu⟩ := h
  have hends := recover_of_undone last.fates last.timestamp hj hb hs hu
  rw [Recovery.run] at hrun
  rw [hrun] at hends
  exact hends

theorem run_eq_ok_of_keeps (h : Keeps publisher input P disk)
    (hread : (last.fates .readTarget).isFailed = false) :
    receipt.outcome = .commitCompleted ∧ ∃ tree record, (P tree ∧ tree.torn = false) ∧
      IsImport input.operationId record ∧
        final = ⟨some (tree.append record), none, none, none⟩ := by
  obtain ⟨tree, htree, hvalid, _, hj, hb, hs, ht⟩ := h
  have hends := recover_of_committed last.timestamp hj hb hs ht hvalid hread
  rw [Recovery.run] at hrun
  rw [hrun] at hends
  obtain ⟨hreceipt, hwhole, record, hrecord, hfinal⟩ := hends
  exact ⟨hreceipt, tree, record, ⟨htree, hwhole⟩, isImport_of_provenanceRecord hrecord, hfinal⟩

theorem journal_ne_none_of_run_eq_ok : disk.journal ≠ none := by
  intro hj
  rw [run_of_no_journal hj] at hrun
  cases hrun

end Run

theorem afterRecoveries_append (operationId : Text) (l₁ l₂ : List Recovery) (disk : Disk) :
    afterRecoveries publisher operationId (l₁ ++ l₂) disk = afterRecoveries publisher operationId l₂
        (afterRecoveries publisher operationId l₁ disk) := foldl_append

/-- The classes that the disk is in, from the end of the restore on. -/
def Classed (publisher : ReplacePublisher) (input : ReplaceInput) (old : DataTree)
    (P : DataTree → Prop) (disk : Disk) : Prop :=
  disk.journal = none ∨ Undone publisher input old disk ∨ Keeps publisher input P disk

theorem Published.valid (h : Published input fates tree) : tree.valid = true := by
  rcases h with ⟨hvalid, rfl | h | ⟨_, _, _, rfl⟩⟩
  · exact hvalid
  · exact h.valid.trans hvalid
  · exact hvalid

theorem leaves_undone_or_keeps (hP : ∀ tree, Published input fates tree → P tree) :
    Leaves publisher input old fates (· ≠ .stagePublished) (Classed publisher input old P) where
  noJournal _ h := .inl h
  pending := by
    rintro disk ⟨hu, h | ⟨tx, hj, hb, hs⟩⟩
    · exact .inl h
    · exact .inr (.inl ⟨tx, hj, hb, hs, hu⟩)
  stage _ _ h := h
  stopped := by
    intro tx hb hs hvalid point
    have hstaged : P input.staged := hP _ ⟨hvalid, .inl rfl⟩
    cases point
    · exact .inr (.inl ⟨tx, rfl, hb, by simp [hs], .inl ⟨rfl, rfl⟩⟩)
    · exact .inr (.inl ⟨tx, rfl, hb, by simp [hs], .inr ⟨rfl, rfl⟩⟩)
    · exact .inr (.inl ⟨_, rfl, hb.withState _, by simp, .inr ⟨rfl, rfl⟩⟩)
    · exact .inr (.inr ⟨_, hstaged, hvalid, _, rfl, hb.withState _, by simp, rfl⟩)
    · exact .inr (.inr ⟨_, hstaged, hvalid, _, rfl, hb.withState _, by simp, rfl⟩)
  failed := by
    intro tx hb hs point hundone _
    cases point
    · exact ⟨.inl ⟨rfl, rfl⟩, .inr ⟨tx, rfl, hb, by simp [hs]⟩⟩
    · exact ⟨.inr ⟨rfl, rfl⟩, .inr ⟨tx, rfl, hb, by simp [hs]⟩⟩
    · exact ⟨.inr ⟨rfl, rfl⟩, .inr ⟨_, rfl, hb.withState _, by simp⟩⟩
    · cases hundone
    · cases hundone
  committed := by
    intro tx tree disk hb hs hpublished hj ht
    exact .inr (.inr ⟨tree, hP tree hpublished, hpublished.valid, tx, hj, hb, by simp [hs], ht⟩)

theorem left_by_execute {allowed : RestoreTransactionState → Prop} {left : Disk → Prop}
    (hleaves : Leaves publisher input old fates allowed left) (hj : start.journal = none)
    (hstart : start.target = some old) (hfates : PublishesUndisturbed fates) :
    left (execute publisher fates input start).2 :=
  state_of_ends (ends_mono (ends_execute hleaves hj (by simp [hstart]) hfates)
    (fun _ => hleaves.noJournal) fun _ _ h => h)

theorem published_imported (h : Published input fates tree) : Imported input tree := by
  rcases h with ⟨_, rfl | h | ⟨_, _, hrecord, rfl⟩⟩
  · exact imported_staged input
  · exact (imported_staged input).tear h
  · exact (imported_staged input).append (isImport_of_provenanceRecord hrecord)

theorem Recovery.preserves_imported (recovery : Recovery) :
    recovery.Preserves input (Imported input) :=
  ⟨fun _ _ _ hrecord h => h.append (isImport_of_provenanceRecord hrecord),
    fun _ _ htears h => h.tear htears⟩

def HoldsOld (start disk : Disk) : Prop :=
  disk.target = start.target ∨ disk.rollback = start.target

def HoldsStaged (input : ReplaceInput) (disk : Disk) : Prop :=
  ∃ tree, (disk.target = some tree ∨ disk.stage = some tree) ∧ Imported input tree

/-- The target is one of the two trees, the receipt says which, and the ledger of the staged tree
has a record of the import. The other copy is gone, and it was not touched before every later
receipt had to say what this one says. -/
structure Atomic (input : ReplaceInput) (start : Disk) (between : List Disk)
    (receipt : RestoreRecoveryReceipt) (final : Disk) : Prop where
  target : receipt.outcome = .commitCompleted ∧ (∃ tree, final.target = some tree ∧
        Imported input tree ∧ tree.ledger ≠ input.staged.ledger) ∨
      receipt.outcome ≠ .commitCompleted ∧ final.target = start.target
  others : final.rollback = none ∧ final.stage = none
  oldLost : ∀ disk ∈ between, ¬ HoldsOld start disk → receipt.outcome = .commitCompleted
  stagedLost : ∀ disk ∈ between, ¬ HoldsStaged input disk → receipt.outcome ≠ .commitCompleted

/-- The disks that the restore and the recoveries after it leave. -/
def disksBetween (publisher : ReplacePublisher) (operationId : Text) (recoveries : List Recovery)
    (disk : Disk) : List Disk :=
  recoveries.inits.map fun done => afterRecoveries publisher operationId done disk

variable {P : DataTree → Prop} (h : Classed publisher input old P disk)

include h

theorem Classed.afterRecoveries (hall : ∀ recovery ∈ recoveries,
      (recovery.fates .readTarget).isFailed = false ∧ recovery.Preserves input P) :
    Classed publisher input old P
      (afterRecoveries publisher input.operationId recoveries disk) := by
  rcases h with h | h | h
  · exact .inl (journal_afterRecoveries recoveries h)
  · exact (h.afterRecoveries recoveries).imp id .inl
  · exact (h.afterRecoveries hall).imp id .inr

theorem Classed.outcome (hall : ∀ recovery ∈ recoveries ++ [last],
      (recovery.fates .readTarget).isFailed = false ∧ recovery.Preserves input P)
    (hrun : last.run publisher input.operationId
      (EdgeProxy.afterRecoveries publisher input.operationId recoveries disk) =
        (.ok receipt, final)) :
    Unmoved old disk ∧ receipt.outcome ≠ .commitCompleted ∧
        final = ⟨some old, none, none, none⟩ ∨
      (∃ tree, disk.target = some tree ∧ P tree) ∧ receipt.outcome = .commitCompleted ∧
        ∃ tree record, (P tree ∧ tree.torn = false) ∧ IsImport input.operationId record ∧
          final = ⟨some (tree.append record), none, none, none⟩ := by
  have hjournal := journal_ne_none_of_run_eq_ok hrun
  rcases h with h | h | h
  · exact absurd (journal_afterRecoveries recoveries h) hjournal
  · rcases h.afterRecoveries recoveries with hj | hend
    · exact absurd hj hjournal
    · obtain ⟨_, _, _, _, hu⟩ := h
      exact .inl ⟨hu, run_eq_ok_of_undone hrun hend⟩
  · rcases h.afterRecoveries fun r hr => hall r (mem_append_left _ hr) with hj | hend
    · exact absurd hj hjournal
    · obtain ⟨tree, htree, _, _, _, _, _, ht⟩ := h
      exact .inr ⟨⟨tree, ht, htree⟩, run_eq_ok_of_keeps hrun hend (hall last (by simp)).1⟩

omit h

/-- A recovery that returns a receipt ends with exactly one of the two trees. -/
theorem restore_atomic (recoveries : List Recovery) (hj : start.journal = none)
    (hstart : start.target = some old) (hfates : PublishesUndisturbed fates)
    (hread : ∀ recovery ∈ recoveries ++ [last], (recovery.fates .readTarget).isFailed = false)
    (hrun : last.run publisher input.operationId (afterRecoveries publisher input.operationId
      recoveries (ReplaceRestoreBackup.execute publisher fates input start).2) =
        (.ok receipt, final)) :
    Atomic input start (disksBetween publisher input.operationId recoveries
      (ReplaceRestoreBackup.execute publisher fates input start).2) receipt final := by
  have hclass : Classed publisher input old (Imported input)
      (execute publisher fates input start).2 :=
    left_by_execute (leaves_undone_or_keeps fun _ => published_imported) hj hstart hfates
  have hall : ∀ recovery ∈ recoveries ++ [last], (recovery.fates .readTarget).isFailed = false ∧
      recovery.Preserves input (Imported input) := fun recovery hmem =>
    ⟨hread recovery hmem, recovery.preserves_imported⟩
  have hbetween : ∀ disk ∈ disksBetween publisher input.operationId recoveries
      (execute publisher fates input start).2,
      HoldsOld start disk ∧ receipt.outcome ≠ .commitCompleted ∨
        HoldsStaged input disk ∧ receipt.outcome = .commitCompleted := by
    intro disk hdisk
    obtain ⟨done, hdone, rfl⟩ := mem_map.mp hdisk
    obtain ⟨rest, hrest⟩ := (mem_inits _ _).mp hdone
    rw [← hrest, afterRecoveries_append] at hrun
    rw [← hrest, append_assoc] at hall
    have hmid := hclass.afterRecoveries fun r hr => hall r (mem_append_left _ hr)
    rcases hmid.outcome (fun r hr => hall r (mem_append_right _ hr)) hrun with
      ⟨⟨h, _⟩ | ⟨_, h⟩, hout, _⟩ | ⟨⟨tree, h, htree⟩, hout, _⟩
    · exact .inl ⟨.inl (h.trans hstart.symm), hout⟩
    · exact .inl ⟨.inr (h.trans hstart.symm), hout⟩
    · exact .inr ⟨⟨tree, .inl h, htree⟩, hout⟩
  have hend := hclass.outcome hall hrun
  refine ⟨?_, ?_, ?_, ?_⟩
  · rcases hend with ⟨_, hout, rfl⟩ | ⟨_, hout, _, _, ⟨htree, _⟩, hrecord, rfl⟩
    · exact .inr ⟨hout, hstart.symm⟩
    · refine .inl ⟨hout, _, rfl, htree.append hrecord, ?_⟩
      obtain ⟨_, hledger, _⟩ := htree.ledger
      rw [DataTree.append, hledger]
      simp
  · rcases hend with ⟨_, _, rfl⟩ | ⟨_, _, _, _, _, _, rfl⟩
    · exact ⟨rfl, rfl⟩
    · exact ⟨rfl, rfl⟩
  · intro disk hdisk hlost
    rcases hbetween disk hdisk with ⟨h, _⟩ | ⟨_, h⟩
    · exact absurd h hlost
    · exact h
  · intro disk hdisk hlost
    rcases hbetween disk hdisk with ⟨_, h⟩ | ⟨h, _⟩
    · exact h
    · exact absurd h hlost

/-- The ledger of the tree that a recovery keeps has one record of the import more than the archive
when the staged tree was committed, and the old tree is as it was: with a new operation id that is
one record or none. -/
theorem import_recorded_once (recoveries : List Recovery) (hj : start.journal = none)
    (hstart : start.target = some old) (hfates : PublishesUndisturbed fates)
    (hearly : ¬ RecordsEarly fates)
    (hrecoveries : ∀ recovery ∈ recoveries ++ [last],
      (recovery.fates .readTarget).isFailed = false ∧
        (recovery.fates .provenance).leavesChange = false ∧
          (recovery.fates .deleteJournal).isDone = true)
    (hrun : last.run publisher input.operationId (afterRecoveries publisher input.operationId
      recoveries (ReplaceRestoreBackup.execute publisher fates input start).2) =
        (.ok receipt, final)) :
    (receipt.outcome = .commitCompleted ∧ (∃ record, IsImport input.operationId record ∧
        final.target = some (input.staged.append record)) ∨
      receipt.outcome ≠ .commitCompleted ∧ final.target = some old) ∧
    (input.staged.imports input.operationId = [] → old.imports input.operationId = [] →
      ∃ tree, final.target = some tree ∧ (tree.imports input.operationId).length =
        if receipt.outcome = .commitCompleted then 1 else 0) := by
  have hpublished : ∀ tree, Published input fates tree → tree.torn = false →
      tree = input.staged := by
    rintro tree ⟨_, h | h | ⟨h, _⟩⟩ hwhole
    · exact h
    · exact h.eq_of_whole hwhole
    · exact absurd h hearly
  have hclass : Classed publisher input old (fun tree => tree.torn = false → tree = input.staged)
      (execute publisher fates input start).2 :=
    left_by_execute (leaves_undone_or_keeps hpublished) hj hstart hfates
  have hall : ∀ recovery ∈ recoveries ++ [last], (recovery.fates .readTarget).isFailed = false ∧
      recovery.Preserves input fun tree => tree.torn = false → tree = input.staged := by
    intro recovery hmem
    obtain ⟨hread, hprovenance, hdelete⟩ := hrecoveries recovery hmem
    refine ⟨hread, fun hleft => ?_, fun tree left htears h hwhole => ?_⟩
    · rw [hprovenance, hdelete] at hleft
      simp at hleft
    · exact (htears.eq_of_whole hwhole).trans (h htears.1)
  rcases hclass.outcome hall hrun with ⟨_, hout, rfl⟩ |
    ⟨_, hout, _, record, ⟨h, hwhole⟩, hrecord, rfl⟩
  · exact ⟨.inr ⟨hout, rfl⟩, fun _ hold => ⟨old, rfl, by rw [hold, if_neg hout]; rfl⟩⟩
  · refine ⟨.inl ⟨hout, record, hrecord, by rw [h hwhole]⟩, fun hstaged _ => ⟨_, rfl, ?_⟩⟩
    rw [DataTree.imports] at hstaged
    rw [h hwhole, if_pos hout, DataTree.imports, DataTree.append, filter_append, hstaged]
    simp [hrecord]

end Outcome

def sampleTree (certificate : String) : DataTree where
  files := [(.current, "seed".toList), (.revision "seed".toList, "schema_version = 1".toList),
    (.other "certs/site".toList, certificate.toList)]
  ledger := []

def samplePublisher : ReplacePublisher := ⟨"data".toList⟩

def sampleInput : ReplaceInput where
  operationId := "operation".toList
  summary := ⟨"archive".toList, "seed".toList, 1, 0⟩
  staged := sampleTree "new"

def sampleStart : Disk := ⟨some (sampleTree "old"), none, none, none⟩

def fatesWith {step : Type} [DecidableEq step] (faults : List (step × Fate DataFile)) (s : step) :
    Fate DataFile :=
  (faults.find? fun fault => fault.1 == s).elim .done Prod.snd

/-- The process stops after the stage was published and before the journal says so. -/
def stoppedAfterPublish : ReplaceStep → Fate DataFile :=
  fatesWith [(.persistPublished, .stopped ⟨false, fun _ => true⟩)]

/-- The journal cannot be written after the publication, and the process stops while the published
tree is removed again. -/
def stoppedInUndo : ReplaceStep → Fate DataFile :=
  fatesWith [(.persistPublished, .failed ⟨false, fun _ => true⟩),
    (.removeTarget, .stopped ⟨false, fun file => file ≠ .other "certs/site".toList⟩)]

def sampleCrash (fates : ReplaceStep → Fate DataFile) : Disk :=
  (ReplaceRestoreBackup.execute samplePublisher fates sampleInput sampleStart).2

def sampleRecovery (disk : Disk) : Except (Stop AppError) RestoreRecoveryReceipt × Disk :=
  Recovery.run samplePublisher sampleInput.operationId {} disk

/-- The process stops after the record of the import and before the journal is removed. -/
def stoppedAfterProvenance : ReplaceStep → Fate DataFile :=
  fatesWith [(.deleteJournal, .stopped ⟨false, fun _ => true⟩)]

theorem stopped_publish_recovers :
    ∃ receipt final, sampleRecovery (sampleCrash stoppedAfterPublish) = (.ok receipt, final) ∧
      Atomic sampleInput sampleStart (disksBetween samplePublisher sampleInput.operationId []
        (sampleCrash stoppedAfterPublish)) receipt final := by
  have hok : (sampleRecovery (sampleCrash stoppedAfterPublish)).1 =
      .ok ⟨"operation".toList, .commitCompleted⟩ := by decide +kernel
  exact ⟨_, _, Prod.ext hok rfl, restore_atomic [] rfl rfl
    (by simp [PublishesUndisturbed, stoppedAfterPublish, fatesWith, Fate.isFailed])
    (by simp [Fate.isFailed]) (Prod.ext hok rfl)⟩

/-- The recovery completes the commit of a tree that has lost a file, and removes the old one. -/
theorem interrupted_undo_commits_part :
    ∃ receipt final, sampleRecovery (sampleCrash stoppedInUndo) = (.ok receipt, final) ∧
      ¬ Atomic sampleInput sampleStart (disksBetween samplePublisher sampleInput.operationId []
        (sampleCrash stoppedInUndo)) receipt final := by
  have hok : (sampleRecovery (sampleCrash stoppedInUndo)).1 =
      .ok ⟨"operation".toList, .commitCompleted⟩ := by decide +kernel
  have hfiles : (sampleRecovery (sampleCrash stoppedInUndo)).2.target.map DataTree.files ≠
      some sampleInput.staged.files := by decide +kernel
  refine ⟨_, (sampleRecovery (sampleCrash stoppedInUndo)).2, Prod.ext hok rfl, ?_⟩
  rintro ⟨⟨_, _, htree, himported, _⟩ | ⟨hout, _⟩, _⟩
  · rw [htree, Option.map_some, himported.files] at hfiles
    exact hfiles rfl
  · exact hout rfl

theorem stopped_publish_records_once :
    ∃ receipt final, sampleRecovery (sampleCrash stoppedAfterPublish) = (.ok receipt, final) ∧
      (receipt.outcome = .commitCompleted ∧ (∃ record, IsImport sampleInput.operationId record ∧
          final.target = some (sampleInput.staged.append record)) ∨
        receipt.outcome ≠ .commitCompleted ∧ final.target = some (sampleTree "old")) ∧
      ∃ tree, final.target = some tree ∧ (tree.imports sampleInput.operationId).length = 1 := by
  have hok : (sampleRecovery (sampleCrash stoppedAfterPublish)).1 =
      .ok ⟨"operation".toList, .commitCompleted⟩ := by decide +kernel
  exact ⟨_, _, Prod.ext hok rfl, (import_recorded_once [] rfl rfl
    (by simp [PublishesUndisturbed, stoppedAfterPublish, fatesWith, Fate.isFailed])
    (by simp [RecordsEarly, stoppedAfterPublish, fatesWith, Fate.isDone, Fate.leavesChange])
    (by simp [Fate.isFailed, Fate.leavesChange, Fate.isDone]) (Prod.ext hok rfl)).imp_right
    fun h => h rfl rfl⟩

/-- The recovery of a restore that had already recorded its import records it again. -/
theorem recovery_records_twice :
    ∃ receipt final, sampleRecovery (sampleCrash stoppedAfterProvenance) = (.ok receipt, final) ∧
      receipt.outcome = .commitCompleted ∧
      (final.target.elim [] (DataTree.imports sampleInput.operationId)).length = 2 := by
  have hok : (sampleRecovery (sampleCrash stoppedAfterProvenance)).1 =
      .ok ⟨"operation".toList, .commitCompleted⟩ := by decide +kernel
  exact ⟨_, _, Prod.ext hok rfl, rfl, by decide +kernel⟩

end EdgeProxy
