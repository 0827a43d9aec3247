import EdgeProxy.Restore.Outcomes

/-! # When a recovery can be run again

A recovery that runs to its end decides and removes the journal, as long as the two directories
still show what the journal speaks of and the ledger of the target takes the record of the import.
While the journal says that the target was moved, a recovery changes the very directories it decides
by before it removes the journal, so from there it has to run to its end.
-/

namespace EdgeProxy

open Rust Rust.Action ReplaceRestoreBackup

variable {publisher : ReplacePublisher} {input : ReplaceInput} {old : DataTree} {disk : Disk}
  {tx : RestoreTransaction}

/-- The ids of the restore and of its archive can be recorded in the ledger. -/
def Recordable (input : ReplaceInput) : Prop :=
  validateAuditIdentifier input.operationId = .ok () ∧
    validateAuditIdentifier input.summary.archiveId = .ok ()

theorem auditIdentity_eq_ok {value : Text} (h : validateAuditIdentifier value = .ok ()) :
    auditIdentity value = .ok ⟨value, h⟩ :=
  congrArg (Except.mapError fun _ => restoreIdentityInvalid)
    (AuditIdentifier.parse_value ⟨value, h⟩)

theorem Recordable.provenanceRecord_ne_error (h : Recordable input) (timestamp : ℕ) (e : AppError) :
    provenanceRecord input.operationId input.summary.archiveId none timestamp ≠ .error e := by
  rw [provenanceRecord, auditIdentity_eq_ok h.1]
  simp only [bind, Except.bind]
  rw [auditIdentity_eq_ok h.1]
  dsimp only
  rw [auditIdentity_eq_ok h.2]
  rintro ⟨⟩

def Ready (publisher : ReplacePublisher) (input : ReplaceInput) (old : DataTree) (disk : Disk) :
    Prop :=
  ∃ tx, disk.journal = some tx ∧ tx.Belongs publisher input ∧
    match tx.state with
    | .prepared => Unmoved old disk
    | .targetMoved => disk.rollback = some old ∧
        ∀ tree, disk.target = some tree → tree.valid = true ∧ tree.torn = false
    | .stagePublished => ∃ tree, disk.target = some tree ∧ tree.valid = true ∧ tree.torn = false

section Done

variable {recovery : Recovery}

/-- The journal is as before, and a completed commit kept the target, which was valid. -/
def Settled (tx : RestoreTransaction) (disk : Disk) (target : Bool) (outcome : RecoveryOutcome)
    (s : Disk) : Prop :=
  s.journal = disk.journal ∧ (outcome = .commitCompleted →
    tx.state ≠ .prepared ∧ target = true ∧ s.target = disk.target)

theorem ends_settle_done (hdone : ∀ step, recovery.fates step = .done)
    (hb : tx.Belongs publisher input) {target rollback : Bool}
    (h : (target = true ∧ (tx.state = .prepared → rollback = false) ∧
        (tx.state = .targetMoved → rollback = true)) ∨
      (target = false ∧ rollback = true ∧ disk.target = none ∧ disk.rollback = some old)) :
    Ends (Settled tx disk target) (fun _ _ => False)
      (settle publisher recovery.fates tx target rollback disk) := by
  have hcleanup : ∀ outcome : RecoveryOutcome, target = true →
      (outcome = .commitCompleted → tx.state ≠ .prepared) →
      Ends (Settled tx disk target) (fun _ _ => False)
        ((publisher.cleanupCommitted ⟨recovery.fates .removeRollback, recovery.fates .removeStage,
          recovery.fates .syncCommitted⟩ tx >>= fun _ => pure outcome) disk) := by
    intro outcome htarget hcommit
    refine ends_then (ReplacePublisher.ends_cleanupCommitted hb.identities) ?_ ?_
    · rintro _ _ ⟨hf, _⟩
      simp [ReplacePublisher.CleanupFates.allDone, hdone, Fate.isDone] at hf
    · rintro _ _ rfl
      exact ⟨rfl, fun h => ⟨hcommit h, htarget, rfl⟩⟩
  rcases h with ⟨rfl, hprepared, hmoved⟩ | ⟨rfl, rfl, ht, hr⟩
  · rcases hstate : tx.state
    · obtain rfl := hprepared hstate
      simp only [settle, hstate]
      exact hcleanup _ rfl (by simp)
    · obtain rfl := hmoved hstate
      simp only [settle, hstate]
      exact hcleanup _ rfl (by simp [hstate])
    · rcases rollback
      all_goals
        simp only [settle, hstate]
        exact hcleanup _ rfl (by simp [hstate])
  · rcases hstate : tx.state
    all_goals
      simp only [settle, hstate]
      refine ends_mono (ends_moveBack _ hb ht hr) ?_ ?_
      · rintro outcome _ ⟨hne, rfl⟩
        exact ⟨rfl, fun h => absurd h hne⟩
      · rintro _ _ ⟨hf, _⟩
        simp [ReplacePublisher.RollbackFates.allDone, hdone, Fate.isDone] at hf

theorem Ready.run_done (h : Ready publisher input old disk) (recovery : Recovery)
    (hold : old.valid = true) (hids : Recordable input)
    (hdone : ∀ step, recovery.fates step = .done) :
    Ends (fun _ s => s.journal = none) (fun _ _ => False)
      (recovery.run publisher input.operationId disk) := by
  obtain ⟨tx, hj, hb, hstate⟩ := h
  refine ends_recover hj hb (by simp [hdone, Fate.isDone]) ?_
  intro target rollback htarget _ hrollback
  rw [hdone, Fate.isDone, Bool.true_and] at htarget hrollback
  have hdecides : (target = true ∧ (tx.state = .prepared → rollback = false) ∧
        (tx.state = .targetMoved → rollback = true)) ∨
      (target = false ∧ rollback = true ∧ disk.target = none ∧ disk.rollback = some old) := by
    rcases hs : tx.state <;> simp only [hs] at hstate
    · rcases hstate with ⟨ht, hr⟩ | ⟨ht, hr⟩ <;> simp_all
    · obtain ⟨hr, ht⟩ := hstate
      rcases hd : disk.target with _ | tree
      · simp_all
      · have := (ht tree hd).1
        simp_all
    · obtain ⟨tree, ht, hvalid, _⟩ := hstate
      simp_all
  refine ends_mono (ends_settle_done hdone hb hdecides) ?_ fun _ _ h => h
  rintro outcome s ⟨hjournal, htree⟩
  rw [finishRecovery]
  refine ends_bind (Q := fun _ _ => True) ?_ ?_
  · by_cases hcommit : outcome = .commitCompleted
    · obtain ⟨hmoved, ht, hsame⟩ := htree hcommit
      subst hcommit
      obtain ⟨tree, hd⟩ : ∃ tree, disk.target = some tree := by
        rcases hd : disk.target with _ | tree
        · simp [hd, ht] at htarget
        · exact ⟨tree, rfl⟩
      have hwhole : tree.torn = false := by
        rcases hs : tx.state <;> simp only [hs] at hstate
        · exact absurd hs hmoved
        · exact (hstate.2 tree hd).2
        · obtain ⟨_, hd', _, hwhole⟩ := hstate
          rw [hd] at hd'
          cases hd'
          exact hwhole
      rw [recordOutcome, hb.archive]
      refine ends_mono (ends_appendRestoreProvenance rfl (hsame.trans hd)) (fun _ _ _ => trivial) ?_
      rintro _ _ ⟨_, herror, _⟩
      obtain ⟨e, he⟩ := herror (by rw [hdone]; rfl) hwhole
      exact hids.provenanceRecord_ne_error _ e he
    · rw [recordOutcome_of_ne hcommit]
      trivial
  · intro _ run _
    refine ends_onDisk ends_deleteJournal ?_ ?_
    · rintro _ _ ⟨hf, _⟩
      rw [hdone] at hf
      cases hf
    · rintro _ _ rfl
      rfl

end Done

section Runs

variable {fates : ReplaceStep → Fate DataFile} {start : Disk}

/-- The write of the record of the import leaves no part of it. -/
def Untorn (fate : Fate DataFile) : Prop :=
  ∀ tree left, Tears fate tree left → left.torn = false

/-- A recovery can read the target and leaves no part of a record, and it runs to its end when it
finds that the target was moved. -/
def Recovery.Steady (recovery : Recovery) (disk : Disk) : Prop :=
  (recovery.fates .readTarget).isFailed = false ∧ Untorn (recovery.fates .provenance) ∧
    ((∃ tx, disk.journal = some tx ∧ tx.state = .targetMoved) →
      ∀ step, recovery.fates step = .done)

theorem Ready.after_run {recovery : Recovery} (h : Ready publisher input old disk)
    (hold : old.valid = true) (hids : Recordable input) (hsteady : recovery.Steady disk) :
    ClosedOr (Ready publisher input old) (recovery.run publisher input.operationId disk).2 := by
  refine state_of_ends ?_
  obtain ⟨tx, hj, hb, hstate⟩ := h
  rcases hs : tx.state <;> simp only [hs] at hstate
  · refine ends_mono (recover_of_undone recovery.fates recovery.timestamp hj hb (by simp [hs])
      hstate) (fun _ _ h => .inl (by rw [h.2])) ?_
    rintro _ s (h | ⟨hj, hu⟩)
    · exact .inl h
    · exact .inr ⟨tx, hj, hb, by rw [hs]; exact hu⟩
  · exact ends_mono (Ready.run_done ⟨tx, hj, hb, by rw [hs]; exact hstate⟩ recovery hold
      hids (hsteady.2.2 ⟨tx, hj, hs⟩)) (fun _ _ h => .inl h) (fun _ _ h => h.elim)
  · obtain ⟨tree, ht, hvalid, hwhole⟩ := hstate
    refine ends_mono (recover_of_committed recovery.timestamp hj hb (by simp [hs]) ht hvalid
      hsteady.1) ?_ ?_
    · rintro _ _ ⟨_, _, _, _, rfl⟩
      exact .inl rfl
    · rintro _ s (h | ⟨hj, h | ⟨left, htears, h⟩ | ⟨_, record, _, h⟩⟩)
      · exact .inl h
      · exact .inr ⟨tx, hj, hb, by rw [hs]; exact ⟨tree, h, hvalid, hwhole⟩⟩
      · refine .inr ⟨tx, hj, hb, ?_⟩
        rw [hs]
        exact ⟨left, h, htears.valid.trans hvalid, hsteady.2.1 _ _ htears⟩
      · exact .inr ⟨tx, hj, hb, by rw [hs]; exact ⟨_, h, hvalid, hwhole⟩⟩

def AllSteady (publisher : ReplacePublisher) (operationId : Text) : List Recovery → Disk → Prop
  | [], _ => True
  | recovery :: rest, disk => recovery.Steady disk ∧
      AllSteady publisher operationId rest (recovery.run publisher operationId disk).2

theorem Ready.afterRecoveries {recoveries : List Recovery}
    (h : ClosedOr (Ready publisher input old) disk) (hold : old.valid = true)
    (hids : Recordable input) (hsteady : AllSteady publisher input.operationId recoveries disk) :
    ClosedOr (Ready publisher input old)
      (afterRecoveries publisher input.operationId recoveries disk) := by
  induction recoveries generalizing disk with
  | nil => exact h
  | cons _ rest ih =>
    rw [EdgeProxy.afterRecoveries, List.foldl_cons]
    rcases h with h | h
    · rw [run_of_no_journal h]
      exact .inl (journal_afterRecoveries rest h)
    · exact ih (h.after_run hold hids hsteady.1) hsteady.2

def unrecorded : Recovery where
  fates := fatesWith [(.provenance, .failed ⟨false, fun _ => false⟩)]

end Runs

end EdgeProxy
