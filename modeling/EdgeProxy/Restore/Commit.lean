import EdgeProxy.Restore.Rules

/-! # What an interrupted restore leaves on the disk

A commit passes six points, and when it is interrupted the disk is at one of them. An error before
the publication is handled by moving the old tree back; once the stage is published, the effects up
to the end of the verification are assumed not to fail, so that only a stop ends the commit there.
`Leaves` says what a class of disks has to contain so that every restore ends in it.
-/

namespace EdgeProxy

open Rust Rust.Action ReplacePublisher

structure RestoreTransaction.Belongs (tx : RestoreTransaction) (publisher : ReplacePublisher)
    (input : ReplaceInput) : Prop where
  operation : tx.operationId = input.operationId
  archive : tx.archiveId = input.summary.archiveId
  identities : publisher.validate tx = .ok ()
  values : validateTransactionValues tx = .ok ()

/-- The old tree is complete, at the target or in the rollback copy. -/
def Unmoved (old : DataTree) (disk : Disk) : Prop :=
  disk.target = some old ∧ disk.rollback = none ∨ disk.target = none ∧ disk.rollback = some old

variable {fate : Fate DataFile}

section Provenance

variable {tree : DataTree} {timestamp : ℕ}

/-- The write of the provenance was cut off and made the one tree of the other. -/
def Tears (fate : Fate DataFile) (tree left : DataTree) : Prop :=
  tree.torn = false ∧ ∃ kept, (fate = .failed ⟨false, kept⟩ ∨ fate = .stopped ⟨false, kept⟩) ∧
    left = tree.tear kept

theorem Tears.valid {left : DataTree} (h : Tears fate tree left) : left.valid = tree.valid := by
  obtain ⟨_, _, _, rfl⟩ := h
  rfl

theorem ends_appendRestoreProvenance {run : RestoreRun}
    {operationId archiveId : Text} {revisionId : Option Text}
    (hm : run.machine = .recordingProvenance) (ht : run.disk.target = some tree) :
    Ends (fun _ r => r.machine.rollsBack = false ∧ tree.torn = false ∧ ∃ record,
        provenanceRecord operationId archiveId revisionId timestamp = .ok record ∧
          r.disk = { run.disk with target := some (tree.append record) })
      (fun _ r => r.machine.rollsBack = false ∧ (fate.isDone = true → tree.torn = false →
          ∃ e, provenanceRecord operationId archiveId revisionId timestamp = .error e) ∧
        (r.disk = run.disk ∨ (∃ left, Tears fate tree left ∧
          r.disk = { run.disk with target := some left }) ∨
        fate.leavesChange = true ∧ ∃ record,
          provenanceRecord operationId archiveId revisionId timestamp = .ok record ∧
            r.disk = { run.disk with target := some (tree.append record) }))
      (appendRestoreProvenance fate operationId archiveId revisionId timestamp run) := by
  obtain ⟨disk, machine, _⟩ := run
  obtain rfl : machine = .recordingProvenance := hm
  have ht : disk.target = some tree := ht
  rw [appendRestoreProvenance]
  refine ends_rescue (ends_zoom ?_)
  rw [appendProvenance]
  rcases hrec : provenanceRecord operationId archiveId revisionId timestamp with e | record
  · exact ⟨rfl, fun _ _ => ⟨e, rfl⟩, .inl rfl⟩
  · rw [ofExcept_ok_bind rfl, writeProvenance, read_bind, ht, Option.getD_some]
    dsimp only
    rcases htorn : tree.torn
    · rw [if_neg Bool.false_ne_true]
      rcases fate with _ | ⟨_ | _, kept⟩ | ⟨_ | _, kept⟩
      · exact ⟨rfl, rfl, record, rfl, rfl⟩
      · exact ⟨rfl, nofun, .inr (.inl ⟨_, ⟨htorn, kept, .inl rfl, rfl⟩, rfl⟩)⟩
      · exact ⟨rfl, nofun, .inr (.inr ⟨rfl, record, rfl, rfl⟩)⟩
      · exact ⟨rfl, nofun, .inr (.inl ⟨_, ⟨htorn, kept, .inr rfl, rfl⟩, rfl⟩)⟩
      · exact ⟨rfl, nofun, .inr (.inr ⟨rfl, record, rfl, rfl⟩)⟩
    · rw [if_pos rfl]
      exact ⟨rfl, nofun, .inl rfl⟩

end Provenance

section Commit

variable {publisher : ReplacePublisher} {input : ReplaceInput} {old : DataTree} {disk : Disk}
  {fates : ReplaceStep → Fate DataFile} {allowed : RestoreTransactionState → Prop}

/-- The old tree is complete, and the journal is in one of the allowed states, if there is one. -/
def Pending (publisher : ReplacePublisher) (input : ReplaceInput) (old : DataTree)
    (allowed : RestoreTransactionState → Prop) (disk : Disk) : Prop :=
  Unmoved old disk ∧ (disk.journal = none ∨ ∃ tx, disk.journal = some tx ∧
    tx.Belongs publisher input ∧ allowed tx.state)

variable {tx : RestoreTransaction} {summary : RestoreStageSummary} {run : RestoreRun}

theorem ends_undoCommit (h : Pending publisher input old allowed disk)
    (hb : tx.Belongs publisher input) (original : AppError) :
    Ends (fun _ => Pending publisher input old allowed)
      (fun _ => Pending publisher input old allowed)
      (undoCommit publisher fates tx original disk) := by
  obtain ⟨hu, hj⟩ := h
  have hdelete : ∀ s : Disk, Unmoved old s → s.journal = disk.journal →
      Ends (fun _ => Pending publisher input old allowed)
        (fun _ => Pending publisher input old allowed)
        ((rescue (deleteJournal (fates .abandonJournal)) >>= fun _ => pure original :
          DiskAction AppError) s) := by
    intro s hs hjournal
    have hkeep : Pending publisher input old allowed s := ⟨hs, by rw [hjournal]; exact hj⟩
    refine ends_rescue (ends_mono ends_deleteJournal ?_ ?_)
    · rintro _ _ rfl
      exact ⟨hs, .inl rfl⟩
    · rintro (_ | _) _ ⟨_, rfl | rfl⟩
      · exact hkeep
      · exact ⟨hs, .inl rfl⟩
      · exact hkeep
      · exact ⟨hs, .inl rfl⟩
  rw [undoCommit]
  rcases hu with ⟨ht, hr⟩ | ⟨ht, hr⟩
  · refine ends_rescue ?_
    rw [rollbackAfterFailure_notRequired hb.identities hr]
    exact hdelete disk (.inl ⟨ht, hr⟩) rfl
  · refine ends_rescue (ends_mono
      (ends_rollbackAfterFailure hb.identities ht hr) ?_ ?_)
    · rintro _ _ ⟨rfl, rfl⟩
      exact hdelete _ (.inl ⟨rfl, rfl⟩) rfl
    · rintro (_ | _) _ ⟨_, stage, rfl | rfl⟩
      · exact ⟨.inr ⟨ht, hr⟩, hj⟩
      · exact ⟨.inl ⟨rfl, rfl⟩, hj⟩
      · exact ⟨.inr ⟨ht, hr⟩, hj⟩
      · exact ⟨.inl ⟨rfl, rfl⟩, hj⟩

inductive CommitPoint where
  | prepared | moved | journaledMove | published | journaledPublish

namespace CommitPoint

def image (old staged : DataTree) (tx : RestoreTransaction) : CommitPoint → Disk
  | prepared => ⟨some old, none, some staged, some tx⟩
  | moved => ⟨none, some old, some staged, some tx⟩
  | journaledMove => ⟨none, some old, some staged, some { tx with state := .targetMoved }⟩
  | published => ⟨some staged, some old, none, some { tx with state := .targetMoved }⟩
  | journaledPublish => ⟨some staged, some old, none, some { tx with state := .stagePublished }⟩

def isUndone : CommitPoint → Bool
  | prepared | moved | journaledMove => true
  | published | journaledPublish => false

end CommitPoint

/-- The effects between the publication of the stage and the end of its verification do not fail;
the process may stop in any of them. -/
def PublishesUndisturbed (fates : ReplaceStep → Fate DataFile) : Prop :=
  ∀ step ∈ [ReplaceStep.syncPublished, .persistPublished, .verifyTarget],
    (fates step).isFailed = false

/-- An effect after the journal said that the target was moved, and before the publication,
fails. -/
def FailsMoved (fates : ReplaceStep → Fate DataFile) : Prop :=
  (fates .persistMoved).isFailed = true ∨ (fates .publishStage).isFailed = true

/-- The restore is cut off between the record of the import and the removal of the journal. -/
def RecordsEarly (fates : ReplaceStep → Fate DataFile) : Prop :=
  (fates .provenance).leavesChange = true ∨
    ∃ step ∈ [ReplaceStep.removeRollback, .removeStage, .syncCommitted, .deleteJournal],
      (fates step).isDone = false

/-- The tree that an interrupted restore has published: the staged tree, which may already have the
record of the import or a part of it. -/
def Published (input : ReplaceInput) (fates : ReplaceStep → Fate DataFile) (tree : DataTree) :
    Prop :=
  input.staged.valid = true ∧ (tree = input.staged ∨
    Tears (fates .provenance) input.staged tree ∨
    RecordsEarly fates ∧ ∃ record,
    provenanceRecord input.operationId input.summary.archiveId (some input.summary.revisionId)
      input.timestamp = .ok record ∧ tree = input.staged.append record)

theorem valid_of_holdsRevision {tree : DataTree}
    (h : holdsRevision summary (some tree) = true) : tree.valid = true := by
  unfold DataTree.valid
  rw [holdsRevision, Option.map_some] at h
  rcases hcurrent : tree.current with _ | _ | record
  · simp [hcurrent] at h
  · simp [hcurrent] at h
  · rfl

/-- What a class of disks has to contain so that every restore that is interrupted ends in it. -/
structure Leaves (publisher : ReplacePublisher) (input : ReplaceInput) (old : DataTree)
    (fates : ReplaceStep → Fate DataFile) (allowed : RestoreTransactionState → Prop)
    (left : Disk → Prop) : Prop where
  noJournal : ∀ disk, disk.journal = none → left disk
  pending : ∀ disk, Pending publisher input old allowed disk → left disk
  stage : ∀ disk stage, left disk → left { disk with stage }
  stopped : ∀ tx : RestoreTransaction, tx.Belongs publisher input → tx.state = .prepared →
    input.staged.valid = true →
    ∀ point : CommitPoint, left (point.image old input.staged tx)
  failed : ∀ tx : RestoreTransaction, tx.Belongs publisher input → tx.state = .prepared →
    ∀ point : CommitPoint, point.isUndone = true → (point = .journaledMove → FailsMoved fates) →
      Pending publisher input old allowed (point.image old input.staged tx)
  committed : ∀ (tx : RestoreTransaction) tree (disk : Disk), tx.Belongs publisher input →
    tx.state = .stagePublished →
    Published input fates tree → disk.journal = some tx → disk.target = some tree → left disk

variable {left : Disk → Prop}

/-- How `execute_inner` may end with an error. -/
def Interrupted (publisher : ReplacePublisher) (input : ReplaceInput) (old : DataTree)
    (allowed : RestoreTransactionState → Prop) (left : Disk → Prop) (run : RestoreRun) : Prop :=
  Pending publisher input old allowed run.disk ∧
      (∀ tx, run.transaction = some tx → tx.Belongs publisher input) ∨
    run.machine.rollsBack = false ∧ left run.disk

variable (hleaves : Leaves publisher input old fates allowed left)

include hleaves in
theorem Interrupted.holds (h : Interrupted publisher input old allowed left run) :
    left run.disk := by
  rcases h with ⟨h, _⟩ | ⟨_, h⟩
  · exact hleaves.pending _ h
  · exact h

include hleaves in
theorem ends_handleFailure (h : Interrupted publisher input old allowed left run)
    (original : AppError) :
    Ends (fun _ _ => False) (fun _ s => left s)
      (handleFailure publisher fates run.machine run.transaction original run.disk) := by
  have hcleanup : ∀ s failure, left s → Ends (fun _ _ => False) (fun _ s => left s)
      ((rescue (removeStage (fates .cleanup) restoreStageFailed) >>= fun _ =>
        raise failure : DiskAction RestoreReceipt) s) := by
    intro s failure hs
    refine ends_rescue (ends_mono ends_removeStage ?_ ?_)
    · rintro _ _ rfl
      exact hleaves.stage s none hs
    · rintro (_ | _) _ ⟨_, stage, rfl⟩
      · exact hleaves.stage s stage hs
      · exact hleaves.stage s stage hs
  have hundo : Ends (fun _ s => left s) (fun _ s => left s)
      (failureToReport publisher fates run.machine run.transaction original run.disk) := by
    rcases hrolls : run.machine.rollsBack
    · simp only [failureToReport, hrolls]
      exact h.holds hleaves
    · rcases htx : run.transaction with _ | tx
      · simp only [failureToReport, hrolls]
        exact h.holds hleaves
      · simp only [failureToReport, hrolls]
        rcases h with ⟨h, hbelongs⟩ | ⟨h, _⟩
        · exact ends_mono (ends_undoCommit h (hbelongs tx htx) original)
            (fun _ s h => hleaves.pending s h) (fun _ s h => hleaves.pending s h)
        · rw [hrolls] at h
          cases h
  exact ends_bind hundo fun failure s hs => hcleanup s failure hs

theorem ends_extract {staged : DataTree} :
    Ends (fun _ s => s = { disk with stage := some staged } ∧ disk.stage = none)
      (fun _ s => ∃ stage, s = { disk with stage }) (extract fate staged disk) := by
  rw [extract, read_bind]
  split
  · exact ⟨disk.stage, rfl⟩
  · next h =>
    rcases fate with _ | extent | extent
    · exact ⟨rfl, by simpa using h⟩
    all_goals
      rcases happlied : extent.applied
      · exact ⟨disk.stage, if_neg (by simp [happlied])⟩
      · exact ⟨_, if_pos happlied⟩

theorem ends_validateConfig :
    Ends (fun _ s => s = disk ∧ holdsRevision summary disk.stage = true)
      (fun _ s => s = disk) (validateConfig summary disk) := by
  rw [validateConfig, read_bind]
  split
  · next h => exact ⟨rfl, h⟩
  · rfl

theorem ends_preflight {check : PreflightCheck} :
    Ends (fun _ s => s = disk) (fun _ s => s = disk) (preflight input check disk) := by
  unfold preflight
  rcases input.rejects check
  · rfl
  · rfl

theorem ends_stageArchive :
    Ends (fun _ run => run = ⟨{ disk with stage := some input.staged }, .preparingCommit, none⟩ ∧
        disk.stage = none ∧
          holdsRevision input.summary (some input.staged) = true)
      (fun _ run => run.machine.rollsBack = false ∧ run.disk.journal = disk.journal)
      (stageArchive fates input { disk, machine := .locking }) := by
  rw [stageArchive]
  refine ends_onDisk touch_keeps (fun _ _ ⟨h, _⟩ => ⟨rfl, by rw [h]⟩) ?_
  rintro _ _ rfl
  rw [transition_bind rfl]
  refine ends_onDisk ends_extract (fun _ _ ⟨_, h⟩ => ⟨rfl, by rw [h]⟩) ?_
  rintro _ _ ⟨rfl, hstage⟩
  rw [bind_ok (show transitions _ _ = (.ok ⟨⟩, _) from rfl)]
  refine ends_onDisk ends_validateConfig (fun _ _ h => ⟨rfl, by rw [h]⟩) ?_
  rintro _ _ ⟨rfl, hrevision⟩
  rw [transition_bind rfl]
  refine ends_onDisk ends_preflight (fun _ _ h => ⟨rfl, by rw [h]⟩) ?_
  rintro _ _ rfl
  rw [transition_bind rfl]
  refine ends_onDisk ends_preflight (fun _ _ h => ⟨rfl, by rw [h]⟩) ?_
  rintro _ _ rfl
  rw [transition_bind rfl]
  refine ends_onDisk ends_preflight (fun _ _ h => ⟨rfl, by rw [h]⟩) ?_
  rintro _ _ rfl
  rw [transition_bind rfl]
  refine ends_onDisk ends_preflight (fun _ _ h => ⟨rfl, by rw [h]⟩) ?_
  rintro _ _ rfl
  exact ⟨rfl, hstage, hrevision⟩

theorem RestoreTransaction.Belongs.withState (h : tx.Belongs publisher input)
    (state : RestoreTransactionState) :
    RestoreTransaction.Belongs { tx with state } publisher input :=
  ⟨h.operation, h.archive, h.identities, h.values⟩

/-- A commit was interrupted at a point; unless the process stopped, that was before the
publication. -/
def CommitInterrupted (publisher : ReplacePublisher) (input : ReplaceInput) (old : DataTree)
    (fates : ReplaceStep → Fate DataFile) (stop : Stop AppError) (run : RestoreRun) : Prop :=
  run.machine.rollsBack = false ∧ run.disk.journal = none ∨
    ∃ tx, ∃ point : CommitPoint, tx.Belongs publisher input ∧ tx.state = .prepared ∧
      run.disk = point.image old input.staged tx ∧
      (stop ≠ .crash → point.isUndone = true ∧ (point = .journaledMove → FailsMoved fates) ∧
        ∀ tx, run.transaction = some tx → tx.Belongs publisher input)

theorem ends_commitStage (hj : disk.journal = none) (hold : ∀ tree ∈ disk.target, tree = old)
    (hrevision : holdsRevision input.summary (some input.staged) = true)
    (hfates : PublishesUndisturbed fates) :
    Ends (fun tx run => run.disk = ⟨some input.staged, some old, none, some tx⟩ ∧
        tx.Belongs publisher input ∧ tx.state = .stagePublished ∧
        run.machine = .recordingProvenance)
      (CommitInterrupted publisher input old fates)
      (commitStage publisher fates input
        ⟨{ disk with stage := some input.staged }, .preparingCommit, none⟩) := by
  have hnever {P : Prop} {step : ReplaceStep}
      (hstep : step ∈ [ReplaceStep.syncPublished, .persistPublished, .verifyTarget])
      (h : (fates step).isFailed = true) : P := by
    rw [hfates step hstep] at h
    cases h
  rw [commitStage]
  refine ends_onDisk ends_prepareReplace ?_ ?_
  · rintro _ _ rfl
    exact .inl ⟨rfl, hj⟩
  rintro tx _ ⟨rfl, htarget, hrollback, htx, hvalues⟩
  obtain ⟨target, htarget⟩ := Option.isSome_iff_exists.mp htarget
  obtain rfl : target = old := hold target htarget
  have hb : tx.Belongs publisher input :=
    ⟨by rw [htx], by rw [htx], by rw [htx]; exact if_pos ⟨rfl, rfl, rfl⟩, hvalues⟩
  have hs : tx.state = .prepared := by rw [htx]
  have hmoved := hb.withState .targetMoved
  have hpublished := hb.withState .stagePublished
  have hbelongs : ∀ {own : RestoreTransaction}, own.Belongs publisher input →
      ∀ tx, some own = some tx → tx.Belongs publisher input := by
    rintro own hown _ ⟨⟩
    exact hown
  obtain ⟨_, _, _, _⟩ := disk
  dsimp only at htarget hrollback hj
  subst htarget hrollback hj
  rw [transition_bind rfl]
  refine ends_onDisk (ends_persist hb.values) ?_ ?_
  · rintro _ _ ⟨_, rfl | rfl⟩
    · exact .inl ⟨rfl, rfl⟩
    · exact .inr ⟨tx, .prepared, hb, hs, rfl, fun _ => ⟨rfl, fun h => (by cases h), by simp⟩⟩
  rintro _ _ rfl
  rw [transition_bind rfl, setTransaction, bind_ok (modify_apply _ _)]
  dsimp only
  refine ends_onDisk (ends_moveTargetToRollback hb.identities) ?_ ?_
  · rintro _ _ (rfl | rfl)
    · exact .inr ⟨tx, .prepared, hb, hs, rfl, fun _ => ⟨rfl, fun h => (by cases h), hbelongs hb⟩⟩
    · exact .inr ⟨tx, .moved, hb, hs, rfl, fun _ => ⟨rfl, fun h => (by cases h), hbelongs hb⟩⟩
  rintro _ _ rfl
  refine ends_onDisk (ends_persist hmoved.values) ?_ ?_
  · rintro stop _ ⟨hstop, rfl | rfl⟩
    · exact .inr ⟨tx, .moved, hb, hs, rfl, fun _ => ⟨rfl, fun h => (by cases h), hbelongs hb⟩⟩
    · exact .inr ⟨tx, .journaledMove, hb, hs, rfl,
        fun h => ⟨rfl, fun _ => .inl (hstop h), hbelongs hb⟩⟩
  rintro _ _ rfl
  rw [setTransaction, bind_ok (modify_apply _ _), transition_bind rfl]
  dsimp only
  refine ends_onDisk (ends_publishStage hmoved.identities) ?_ ?_
  · rintro stop _ (⟨rfl, hstop⟩ | ⟨rfl, hstop⟩)
    · exact .inr ⟨tx, .journaledMove, hb, hs, rfl,
        fun h => ⟨rfl, fun _ => .inr (hstop h), hbelongs hmoved⟩⟩
    · exact .inr ⟨tx, .published, hb, hs, rfl, fun h => hnever (by simp) (hstop h)⟩
  rintro _ _ rfl
  refine ends_onDisk (ends_persist hpublished.values) ?_ ?_
  · rintro stop _ ⟨hstop, rfl | rfl⟩
    · exact .inr ⟨tx, .published, hb, hs, rfl, fun h => hnever (by simp) (hstop h)⟩
    · exact .inr ⟨tx, .journaledPublish, hb, hs, rfl, fun h => hnever (by simp) (hstop h)⟩
  rintro _ _ rfl
  rw [setTransaction, bind_ok (modify_apply _ _), transition_bind rfl]
  dsimp only
  refine ends_onDisk (ends_verifyTarget hpublished.identities hrevision) ?_ ?_
  · rintro stop _ ⟨rfl, hstop⟩
    exact .inr ⟨tx, .journaledPublish, hb, hs, rfl, fun h => hnever (by simp) (hstop h)⟩
  rintro _ _ rfl
  rw [transition_bind rfl, pure_apply, ends_ok_iff]
  exact ⟨rfl, hpublished, rfl, rfl⟩

include hleaves

theorem ends_finish (hdisk : run.disk = ⟨some input.staged, some old, none, some tx⟩)
    (hb : tx.Belongs publisher input) (hs : tx.state = .stagePublished)
    (hm : run.machine = .recordingProvenance) (hvalid : input.staged.valid = true)
    {k : RestoreAction RestoreReceipt} (hk : ∀ run, Ends (fun _ r => r.disk = run.disk)
      (fun _ _ => False) (k run)) :
    Ends (fun _ r => r.disk.journal = none)
      (fun stop r => stop = .crash ∧ left r.disk ∨
        Interrupted publisher input old allowed left r)
      ((do
        appendRestoreProvenance (fates .provenance) input.operationId input.summary.archiveId
          (some input.summary.revisionId) input.timestamp
        onDisk (publisher.cleanupCommitted
          ⟨fates .removeRollback, fates .removeStage, fates .syncCommitted⟩ tx)
        onDisk (deleteJournal (fates .deleteJournal))
        k : RestoreAction RestoreReceipt) run) := by
  refine ends_then (ends_appendRestoreProvenance hm (by rw [hdisk])) ?_ ?_
  · rintro _ r ⟨hrolls, _, hr | ⟨_, htears, hr⟩ | ⟨hleft, record, hrecord, hr⟩⟩
    · exact .inr (.inr ⟨hrolls, hleaves.committed tx input.staged _ hb hs ⟨hvalid, .inl rfl⟩
        (by rw [hr, hdisk]) (by rw [hr, hdisk])⟩)
    · exact .inr (.inr ⟨hrolls, hleaves.committed tx _ _ hb hs
        ⟨hvalid, .inr (.inl htears)⟩ (by rw [hr, hdisk]) (by rw [hr])⟩)
    · exact .inr (.inr ⟨hrolls, hleaves.committed tx _ _ hb hs
        ⟨hvalid, .inr (.inr ⟨.inl hleft, record, hrecord, rfl⟩)⟩ (by rw [hr, hdisk]) (by rw [hr])⟩)
  rintro _ r ⟨hrolls, _, record, hrecord, hr⟩
  have hearly : RecordsEarly fates → Published input fates (input.staged.append record) :=
    fun h => ⟨hvalid, .inr (.inr ⟨h, record, hrecord, rfl⟩)⟩
  refine ends_onDisk (ends_cleanupCommitted hb.identities) ?_ ?_
  · rintro _ _ ⟨hdone, _, _, rfl, _⟩
    refine .inr (.inr ⟨hrolls, hleaves.committed tx _ _ hb hs (hearly (.inr ?_))
      (by rw [hr, hdisk]) (by rw [hr])⟩)
    simp only [ReplacePublisher.CleanupFates.allDone, Bool.and_eq_false_iff, or_assoc] at hdone
    rcases hdone with h | h | h
    · exact ⟨_, by simp, h⟩
    · exact ⟨_, by simp, h⟩
    · exact ⟨_, by simp, h⟩
  rintro _ _ rfl
  refine ends_onDisk ends_deleteJournal ?_ ?_
  · rintro _ _ ⟨hdone, rfl | rfl⟩
    · exact .inr (.inr ⟨hrolls, hleaves.committed tx _ _ hb hs
        (hearly (.inr ⟨.deleteJournal, by simp, hdone⟩)) (by rw [hr, hdisk]) (by rw [hr])⟩)
    · exact .inr (.inr ⟨hrolls, hleaves.noJournal _ rfl⟩)
  rintro _ _ rfl
  refine ends_mono (hk _) ?_ fun _ _ h => h.elim
  intro _ s hs
  rw [hs]

theorem ends_execute (hj : disk.journal = none) (hold : ∀ tree ∈ disk.target, tree = old)
    (hfates : PublishesUndisturbed fates) :
    Ends (fun _ s => s.journal = none) (fun _ s => left s)
      (ReplaceRestoreBackup.execute publisher fates input disk) := by
  have hinner : Ends (fun _ run => run.disk.journal = none)
      (fun stop run => stop = .crash ∧ left run.disk ∨
        Interrupted publisher input old allowed left run)
      ((do transition .start; executeInner publisher fates input : RestoreAction RestoreReceipt)
        { disk }) := by
    rw [transition_bind rfl, executeInner]
    refine ends_then ends_stageArchive ?_ ?_
    · rintro _ run ⟨hrolls, hjournal⟩
      exact .inr (.inr ⟨hrolls, hleaves.noJournal _ (hjournal.trans hj)⟩)
    rintro _ _ ⟨rfl, _, hrevision⟩
    have hvalid := valid_of_holdsRevision hrevision
    refine ends_then (ends_commitStage hj hold hrevision hfates) ?_ ?_
    · rintro stop run (⟨hrolls, h⟩ | ⟨tx, point, hb, hs, hdisk, herror⟩)
      · exact .inr (.inr ⟨hrolls, hleaves.noJournal _ h⟩)
      · by_cases hstop : stop = .crash
        · exact .inl ⟨hstop, hdisk ▸ hleaves.stopped tx hb hs hvalid point⟩
        · obtain ⟨hundone, hmoved, htx⟩ := herror hstop
          exact .inr (.inl ⟨hdisk ▸ hleaves.failed tx hb hs point hundone hmoved, htx⟩)
    rintro tx run ⟨hdisk, hb, hs, hm⟩
    exact ends_finish hleaves hdisk hb hs hm hvalid fun _ => rfl
  rw [ReplaceRestoreBackup.execute]
  revert hinner
  rcases (do transition .start; executeInner publisher fates input :
    RestoreAction RestoreReceipt) { disk } with ⟨(e | _) | receipt, run⟩
  · rintro (⟨h, _⟩ | h)
    · cases h
    · exact ends_mono (ends_handleFailure hleaves h e) (fun _ _ h => h.elim) fun _ _ h => h
  · rintro (⟨_, h⟩ | h)
    · exact h
    · exact h.holds hleaves
  · exact id

end Commit

end EdgeProxy
