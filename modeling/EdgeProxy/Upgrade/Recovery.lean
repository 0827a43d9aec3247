import EdgeProxy.Upgrade.Protocol

/-! # Recovering an interrupted upgrade

Once the staged artifact has been switched to, the journal names the operation, but it may still
say `Stopped`, and a recovery leaves `RollingBack` and `RolledBack` in it. A recovery takes none of
the three for what it is. So a further recovery is sound only if the upgrade got to its last
journal entry.
-/

namespace EdgeProxy

open Rust Rust.Action List

variable {fate : Fate Unit}

section Rules

variable {P F : UpgradeWorld → Prop} {Q : PUnit → UpgradeWorld → Prop}
  {E : Stop AppError → UpgradeWorld → Prop}

def UpgradeWorld.ran (command : OfflineUpgradeCommand) (world : UpgradeWorld) : UpgradeWorld :=
  { world with commands := world.commands ++ [command] }

theorem holds_durably {change : UpgradeWorld → UpgradeWorld} {e : AppError}
    (hdone : ∀ w, P w → Q ⟨⟩ (change w)) (hkept : ∀ stop w, P w → E stop w)
    (happlied : ∀ stop w, P w → E stop (change w)) : Holds P (durably fate change e) Q E := by
  refine holds_of_ends fun w hw => ends_mono ends_durably ?_ ?_
  · rintro _ _ rfl
    exact hdone w hw
  · rintro stop _ ⟨-, -, rfl | rfl⟩
    · exact hkept stop _ hw
    · exact happlied stop w hw

theorem holds_command {command : OfflineUpgradeCommand}
    (hdone : ∀ w, P w → Q ⟨⟩ (w.ran command)) (hkept : ∀ stop w, P w → E stop w)
    (happlied : ∀ stop w, P w → E stop (w.ran command)) :
    Holds P (runUpgradeCommand fate command) Q E :=
  holds_durably hdone hkept happlied

theorem ensures_command (fate : Fate Unit) {command : OfflineUpgradeCommand}
    (h : ∀ w, P w → P (w.ran command)) : Ensures P (runUpgradeCommand fate command) P :=
  holds_command h (fun _ _ hw => hw) fun _ => h

theorem holds_ofExcept {α : Type} {R : α → UpgradeWorld → Prop} {result : Except AppError α}
    (hok : ∀ a w, result = .ok a → P w → R a w) (herror : ∀ stop w, P w → E stop w) :
    Holds P (ofExcept result) R E := by
  rcases result with e | a
  · exact holds_fail (herror _)
  · exact holds_pure fun w hw => hok a w rfl hw

theorem holds_rescue {α β : Type} {R : α → UpgradeWorld → Prop} {S : β → UpgradeWorld → Prop}
    {x : UpgradeAction α} {f : Except AppError α → UpgradeAction β} (hx : Holds P x R fun _ => F)
    (hcrash : ∀ w, F w → E .crash w) (hok : ∀ a, Holds (R a) (f (.ok a)) S E)
    (herror : ∀ e, Holds F (f (.error e)) S E) : Holds P (rescue x >>= f) S E := by
  refine holds_of_ends fun w hw => ends_rescue (ends_mono (hx.ends hw) ?_ ?_)
  · exact fun a w hw => (hok a).ends hw
  · rintro (e | _) w hw
    · exact (herror e).ends hw
    · exact hcrash w hw

theorem holds_persistJournal {journal : OfflineUpgradeJournal}
    (hdone : ∀ w, P w → Q ⟨⟩ { w with journal := some journal }) (hkept : ∀ stop w, P w → E stop w)
    (happlied : ∀ stop w, P w → E stop { w with journal := some journal }) :
    Holds P (persistJournal fate journal) Q E :=
  Holds.bind (holds_ofExcept (fun _ _ _ hw => hw) hkept) fun _ =>
    holds_durably hdone hkept happlied

end Rules

section Execution

variable {env : UpgradeEnv} {request : OfflineUpgradeRequest}

variable (receipt : OfflineUpgradeBackupReceipt)

def journalOf (digest : Text) (state : OfflineUpgradeState) : OfflineUpgradeJournal :=
  ⟨operationIdOf receipt, state, receipt.backupId, receipt.previousArtifactDigest, digest⟩

/-- The journal tells of the operation, and says `Committed` only with the new artifact in place. -/
def Journaled (digest : Text) (w : UpgradeWorld) : Prop :=
  ∃ state, w.journal = some (journalOf receipt digest state) ∧
    (journalOf receipt digest state).validate = .ok () ∧
      (state = .committed → w.artifact = .new)

def Unswitched (w : UpgradeWorld) : Prop := .switchToStagedArtifact ∉ w.commands

/-- How an upgrade may end: if the switch took effect, with a journal that tells of it. -/
def Interruptible (digest : Text) (w : UpgradeWorld) : Prop :=
  .switchToStagedArtifact ∈ w.commands → Journaled receipt digest w

theorem Unswitched.interruptible {receipt : OfflineUpgradeBackupReceipt} {digest : Text}
    {w : UpgradeWorld} (h : Unswitched w) : Interruptible receipt digest w :=
  fun hswitch => absurd hswitch h

variable {command : OfflineUpgradeCommand} {Q : PUnit → UpgradeWorld → Prop}
  {P : UpgradeWorld → Prop} {x : UpgradeAction PUnit} {state : OfflineUpgradeState}

theorem Unswitched.ran {w : UpgradeWorld} (h : Unswitched w)
    (hcommand : command ≠ .switchToStagedArtifact) : Unswitched (w.ran command) := by
  rw [Unswitched, UpgradeWorld.ran, mem_append, mem_singleton, not_or]
  exact ⟨h, hcommand.symm⟩

theorem holds_command_unswitched (hcommand : command ≠ .switchToStagedArtifact) :
    Ensures Unswitched (runUpgradeCommand fate command) Unswitched :=
  ensures_command fate fun _ hw => hw.ran hcommand

theorem holds_prepareOfflineUpgrade :
    Holds Unswitched (prepareOfflineUpgrade env request)
      (fun backup w => backup = env.receipt ∧ Unswitched w) fun _ => Unswitched := by
  have hraise {α : Type} (R : α → UpgradeWorld → Prop) (e : AppError) :
      Holds Unswitched (startAndWaitReady env >>= fun _ => raise e) R fun _ => Unswitched :=
    (holds_command_unswitched (by simp)).bind fun _ => holds_fail fun _ hw => hw
  refine (holds_ofExcept (fun _ _ _ hw => hw) fun _ _ hw => hw).bind fun _ => ?_
  refine (holds_command_unswitched (by simp)).bind fun _ => ?_
  refine (holds_command_unswitched (by simp)).bind fun _ => ?_
  refine holds_rescue (holds_command_unswitched (by simp)) (fun _ hw => hw) (fun _ => ?_)
    fun e => hraise _ e
  refine holds_rescue (R := fun backup w => backup = env.receipt ∧ Unswitched w) ?_
    (fun _ hw => hw) (fun backup => holds_pure fun _ hw => hw) fun e => hraise _ e
  exact (holds_command_unswitched (by simp)).bind fun _ => holds_pure fun _ hw => ⟨rfl, hw⟩

theorem holds_orStart (hx : Holds P x Q fun _ => Unswitched) :
    Holds P (orStart env x) Q fun _ => Unswitched :=
  holds_rescue hx (fun _ hw => hw) (fun _ => holds_pure fun _ hw => hw) fun _ =>
    (holds_command_unswitched (by simp)).bind fun _ => holds_fail fun _ hw => hw

/-- The journal tells of the operation and does not say `Committed`. -/
def Undecided (digest : Text) (w : UpgradeWorld) : Prop :=
  ∃ state, state ≠ .committed ∧ w.journal = some (journalOf receipt digest state) ∧
    (journalOf receipt digest state).validate = .ok ()

def Switched (digest : Text) (w : UpgradeWorld) : Prop :=
  Undecided receipt digest w ∧ w.artifact = .new

variable {receipt : OfflineUpgradeBackupReceipt} {digest : Text} {w : UpgradeWorld}

theorem Undecided.journaled (h : Undecided receipt digest w) : Journaled receipt digest w := by
  obtain ⟨state, hstate, hjournal, hvalid⟩ := h
  exact ⟨state, hjournal, hvalid, fun h => absurd h hstate⟩

theorem Undecided.interruptible (h : Undecided receipt digest w) :
    Interruptible receipt digest w :=
  fun _ => h.journaled

theorem undecided_entry (hstate : state ≠ .committed)
    (hvalid : (journalOf receipt digest state).validate = .ok ()) :
    Undecided receipt digest { w with journal := some (journalOf receipt digest state) } :=
  ⟨state, hstate, rfl, hvalid⟩

theorem artifact_ran (w : UpgradeWorld) (command : OfflineUpgradeCommand) :
    (w.ran command).artifact = command.place w.artifact := by
  rw [UpgradeWorld.artifact, UpgradeWorld.ran, foldl_append]
  rfl

theorem holds_persist {E : Stop AppError → UpgradeWorld → Prop}
    {backup : OfflineUpgradeBackupReceipt} {digest : Text}
    (hdone : ∀ w, P w → (journalOf backup digest state).validate = .ok () →
      Q ⟨⟩ { w with journal := some (journalOf backup digest state) })
    (hkept : ∀ stop w, P w → E stop w)
    (happlied : ∀ stop w, P w → (journalOf backup digest state).validate = .ok () →
      E stop { w with journal := some (journalOf backup digest state) }) :
    Holds P (persistUpgradeJournal env state backup digest) Q E := by
  refine Holds.bind (Q := fun _ w => (journalOf backup digest state).validate = .ok () ∧ P w)
    (holds_ofExcept (fun _ w hvalid hw => ⟨hvalid, hw⟩) hkept) fun _ => ?_
  exact holds_persistJournal (fun w hw => hdone w hw.2 hw.1) (fun stop w hw => hkept stop w hw.2)
    fun stop w hw => happlied stop w hw.2 hw.1

theorem holds_rollbackJournaledUpgrade (e : AppError) :
    Holds (Undecided receipt digest) (rollbackJournaledUpgrade env receipt digest e) Q
      fun _ => Undecided receipt digest := by
  have hentry {state : OfflineUpgradeState} (hstate : state ≠ .committed) :
      Ensures (Undecided receipt digest) (persistUpgradeJournal env state receipt digest)
        (Undecided receipt digest) :=
    holds_persist (fun _ _ hvalid => undecided_entry hstate hvalid) (fun _ _ hw => hw)
      fun _ _ _ hvalid => undecided_entry hstate hvalid
  refine (hentry (by simp)).bind fun _ => ?_
  refine (ensures_command _ fun _ hw => hw).bind fun _ => ?_
  exact (hentry (by simp)).bind fun _ => holds_fail fun _ hw => hw

theorem holds_orRollback (hx : Holds P x Q fun _ => Undecided receipt digest) :
    Holds P (orRollback env receipt digest x) Q fun _ => Interruptible receipt digest := by
  refine holds_rescue hx (fun _ hw => hw.interruptible) (fun _ => holds_pure fun _ hw => hw)
    fun e => ?_
  exact (holds_rollbackJournaledUpgrade e).weakenError fun _ _ hw => hw.interruptible

theorem holds_enter (hstate : state ≠ .committed) :
    Holds Unswitched (orStart env (persistUpgradeJournal env state receipt digest))
      (fun _ w => Unswitched w ∧ Undecided receipt digest w) fun _ => Unswitched :=
  holds_orStart (holds_persist (fun _ hw hvalid => ⟨hw, undecided_entry hstate hvalid⟩)
    (fun _ _ hw => hw) fun _ _ hw _ => hw)

theorem holds_enterSwitched (hstate : state ≠ .committed) :
    Holds (Switched receipt digest) (persistUpgradeJournal env state receipt digest)
      (fun _ => Switched receipt digest) fun _ => Undecided receipt digest :=
  holds_persist (fun _ hw hvalid => ⟨undecided_entry hstate hvalid, hw.2⟩) (fun _ _ hw => hw.1)
    fun _ _ _ hvalid => undecided_entry hstate hvalid

theorem holds_executeJournaledOfflineUpgrade (env : UpgradeEnv) (request : OfflineUpgradeRequest) :
    Ensures Unswitched (executeJournaledOfflineUpgrade env request)
      (Interruptible env.receipt request.imageDigest) := by
  have hearly {α : Type} {P : UpgradeWorld → Prop} {x : UpgradeAction α}
      {Q : α → UpgradeWorld → Prop} (h : Holds P x Q fun _ => Unswitched) :
      Holds P x Q fun _ => Interruptible env.receipt request.imageDigest :=
    h.weakenError fun _ _ hw => hw.interruptible
  refine (hearly holds_prepareOfflineUpgrade).bind fun backup => ?_
  refine holds_of_fact fun hbackup => ?_
  subst hbackup
  refine (hearly (holds_enter (by simp))).bind fun _ => ?_
  refine (hearly (holds_orStart (holds_command_unswitched (by simp)))).pre (fun _ hw => hw.1)
    |>.bind fun _ => ?_
  refine (hearly (holds_enter (by simp))).bind fun _ => ?_
  refine ((hearly (holds_enter (by simp))).pre fun _ hw => hw.1).bind fun _ => ?_
  refine (holds_orRollback (Q := fun _ => Switched env.receipt request.imageDigest) ?_).bind
    fun _ => ?_
  · exact holds_command (fun w hw => ⟨hw.2, by rw [artifact_ran]; rfl⟩) (fun _ _ hw => hw.2)
      fun _ _ hw => hw.2
  refine (holds_orRollback (holds_enterSwitched (by simp))).bind fun _ => ?_
  refine (holds_orRollback (Q := fun _ => Switched env.receipt request.imageDigest) ?_).bind
    fun _ => ?_
  · exact holds_command (fun w hw => ⟨hw.1, by rw [artifact_ran]; exact hw.2⟩)
      (fun _ _ hw => hw.1) fun _ _ hw => hw.1
  refine ((holds_enterSwitched (by simp)).weakenError fun _ _ hw => hw.interruptible).bind
    fun _ => ?_
  refine (holds_persist (Q := fun _ => Interruptible env.receipt request.imageDigest)
    (fun w hw hvalid => ?_) (fun _ _ hw => hw.1.interruptible) fun _ w hw hvalid => ?_).bind
    fun _ => holds_pure fun _ hw => hw
  · exact fun _ => ⟨.committed, rfl, hvalid, fun _ => hw.2⟩
  · exact fun _ => ⟨.committed, rfl, hvalid, fun _ => hw.2⟩

end Execution

section Recovery

variable {request : OfflineUpgradeRequest} {receipt : OfflineUpgradeBackupReceipt} {digest : Text}
  {w : UpgradeWorld}

/-- The worlds in which a recovery may find an upgrade after its switch took effect: those in which
a run of it can stop, and those in which a recovery that was itself interrupted can stop. -/
inductive UpgradeInterrupted (request : OfflineUpgradeRequest)
    (receipt : OfflineUpgradeBackupReceipt) :
    UpgradeWorld → Prop
  | executed (fate : UpgradeEffect → Fate Unit) (journal : Option OfflineUpgradeJournal)
      (hswitched : .switchToStagedArtifact ∈
        (executeJournaledOfflineUpgrade ⟨fate, receipt⟩ request ⟨[], journal⟩).2.commands) :
      UpgradeInterrupted request receipt
        (executeJournaledOfflineUpgrade ⟨fate, receipt⟩ request ⟨[], journal⟩).2
  | recovered (env : UpgradeEnv) (w : UpgradeWorld) (h : UpgradeInterrupted request receipt w) :
      UpgradeInterrupted request receipt (recoverOfflineUpgrade env (operationIdOf receipt) w).2

def workingEnv (receipt : OfflineUpgradeBackupReceipt) : UpgradeEnv := ⟨fun _ => .done, receipt⟩

/-- An uninterrupted recovery ends in a terminal state that says which artifact is in place, and
another one returns the same without further effects. -/
def Recovers (receipt : OfflineUpgradeBackupReceipt) (w : UpgradeWorld) : Prop :=
  ∃ state after, recoverOfflineUpgrade (workingEnv receipt) (operationIdOf receipt) w =
      (.ok state, after) ∧
    (state = .committed ∧ after.artifact = .new ∨ state = .rolledBack ∧ after.artifact = .old) ∧
      ∃ again, recoverOfflineUpgrade (workingEnv receipt) (operationIdOf receipt) after =
        (.ok state, again) ∧ again.commands = after.commands

variable {journal : OfflineUpgradeJournal}

theorem loadUpgradeJournal_ok (hjournal : w.journal = some journal)
    (hvalid : journal.validate = .ok ()) (hlength : byteLen journal.body ≤ 4096) :
    loadUpgradeJournal journal.operationId w = (.ok (some journal), w) := by
  rw [loadUpgradeJournal, read_bind, hjournal]
  simp only
  rw [if_neg (Nat.not_lt.mpr hlength), hvalid]
  exact congrFun (if_neg (not_not.mpr rfl)) w

variable (env : UpgradeEnv)

theorem recoverOfflineUpgrade_cases (hjournal : w.journal = some journal)
    (hvalid : journal.validate = .ok ()) (hlength : byteLen journal.body ≤ 4096) :
    journal.state = .committed ∧
        recoverOfflineUpgrade env journal.operationId w = (.ok .committed, w) ∨
      (journal.state ≠ .committed ∧ journal.state ≠ .rolledBack) ∧
        recoverOfflineUpgrade env journal.operationId w = rollBack env journal w ∨
      journal.state ≠ .committed ∧
        recoverOfflineUpgrade env journal.operationId w = (.error (.error manualRecovery), w) := by
  rw [recoverOfflineUpgrade, bind_ok (loadUpgradeJournal_ok hjournal hvalid hlength)]
  simp only
  rw [ofExcept_ok_bind hvalid]
  rcases journal with ⟨_, state, _, _, _⟩
  cases state with
  | committed => exact .inl ⟨rfl, rfl⟩
  | switched | ready => exact .inr (.inl ⟨⟨nofun, nofun⟩, rfl⟩)
  | prepared | draining | stopped | rollingBack | rolledBack => exact .inr (.inr ⟨nofun, rfl⟩)

theorem recoverOfflineUpgrade_unread (hjournal : w.journal = some journal)
    (hlength : ¬ byteLen journal.body ≤ 4096) (operationId : Text) :
    recoverOfflineUpgrade env operationId w = (.error (.error journalInvalid), w) := by
  have hload : loadUpgradeJournal operationId w = (.error (.error journalInvalid), w) := by
    rw [loadUpgradeJournal, read_bind, hjournal]
    simp only
    rw [if_pos (Nat.lt_of_not_le hlength)]
    rfl
  rw [recoverOfflineUpgrade, bind_error hload]

theorem holds_rollBack {state : OfflineUpgradeState}
    (hvalid : (journalOf receipt digest state).validate = .ok ()) :
    Ensures (Undecided receipt digest) (rollBack env (journalOf receipt digest state))
      (Undecided receipt digest) := by
  have hentry {next : OfflineUpgradeState} (hnext : next ≠ .committed) (fate : Fate Unit) :
      Ensures (Undecided receipt digest) (persistJournal fate (journalOf receipt digest next))
        (Undecided receipt digest) :=
    holds_persistJournal (fun _ _ => undecided_entry hnext hvalid) (fun _ _ hw => hw)
      fun _ _ _ => undecided_entry hnext hvalid
  refine (hentry (by simp) _).bind fun _ => ?_
  refine (ensures_command _ fun _ hw => hw).bind fun _ => ?_
  exact (hentry (by simp) _).bind fun _ => holds_pure fun _ hw => hw

theorem Journaled.recovered (h : Journaled receipt digest w) (env : UpgradeEnv) :
    Journaled receipt digest (recoverOfflineUpgrade env (operationIdOf receipt) w).2 := by
  obtain ⟨state, hjournal, hvalid, hcommitted⟩ := h
  have hsame : Journaled receipt digest w := ⟨state, hjournal, hvalid, hcommitted⟩
  by_cases hlength : byteLen (journalOf receipt digest state).body ≤ 4096
  · rcases recoverOfflineUpgrade_cases env hjournal hvalid hlength with
      ⟨-, hrun⟩ | ⟨hstate, hrun⟩ | ⟨-, hrun⟩
    · exact hrun ▸ hsame
    · have hends := (holds_rollBack env hvalid).ends ⟨state, hstate.1, hjournal, hvalid⟩
      exact (state_of_ends (hrun ▸ hends)).journaled
    · exact hrun ▸ hsame
  · rw [recoverOfflineUpgrade_unread env hjournal hlength]
    exact hsame

theorem UpgradeInterrupted.journaled (h : UpgradeInterrupted request receipt w) :
    Journaled receipt request.imageDigest w := by
  induction h with
  | executed fate journal hswitched =>
    have hunswitched : Unswitched ⟨[], journal⟩ := by simp [Unswitched]
    exact state_of_ends
      ((holds_executeJournaledOfflineUpgrade ⟨fate, receipt⟩ request).ends hunswitched) hswitched
  | recovered env _ _ ih => exact ih.recovered env

theorem rollBack_working (hvalid : journal.validate = .ok ()) :
    rollBack (workingEnv receipt) journal w = (.ok .rolledBack,
      ⟨w.commands ++ [.rollback journal.backupId journal.previousArtifactDigest],
        some { journal with state := .rolledBack }⟩) := by
  have hpersist (next : OfflineUpgradeState) (w : UpgradeWorld) :
      persistJournal .done { journal with state := next } w =
        (.ok ⟨⟩, { w with journal := some { journal with state := next } }) := by
    rw [persistJournal]
    exact ofExcept_ok_bind (a := ()) (by
      change journal.validate.mapError _ = _
      rw [hvalid]
      rfl)
  rw [rollBack]
  change (persistJournal .done _ >>= fun _ => _) w = _
  rw [bind_ok (hpersist .rollingBack w)]
  change (persistJournal .done _ >>= fun _ => _) _ = _
  rw [bind_ok (hpersist .rolledBack _)]
  rfl

theorem recover_rolledBack (hjournal : w.journal = some journal)
    (hvalid : journal.validate = .ok ()) (hstate : journal.state = .rolledBack) :
    ∃ e, recoverOfflineUpgrade env journal.operationId w = (.error (.error e), w) := by
  by_cases hlength : byteLen journal.body ≤ 4096
  · rcases recoverOfflineUpgrade_cases env hjournal hvalid hlength with
      ⟨h, -⟩ | ⟨h, -⟩ | ⟨-, hrun⟩
    · exact nomatch hstate.symm.trans h
    · exact absurd hstate h.2
    · exact ⟨_, hrun⟩
  · exact ⟨_, recoverOfflineUpgrade_unread env hjournal hlength _⟩

/-- A recovery with working commands is sound exactly when the journal says `Committed`, and can be
read. -/
theorem upgrade_recovers_iff (h : UpgradeInterrupted request receipt w) :
    Recovers receipt w ↔ ∃ journal, w.journal = some journal ∧ journal.state = .committed ∧
      byteLen journal.body ≤ 4096 := by
  obtain ⟨state, hjournal, hvalid, hcommitted⟩ := h.journaled
  constructor
  · rintro ⟨_, _, hrun, -, _, hagain, -⟩
    by_cases hlength : byteLen (journalOf receipt request.imageDigest state).body ≤ 4096
    · rcases recoverOfflineUpgrade_cases (workingEnv receipt) hjournal hvalid hlength with
        ⟨hstate, -⟩ | ⟨-, hrollBack⟩ | ⟨-, hmanual⟩
      · exact ⟨_, hjournal, hstate, hlength⟩
      · cases hrun.symm.trans (hrollBack.trans (rollBack_working hvalid))
        obtain ⟨_, herror⟩ := recover_rolledBack (workingEnv receipt)
          (w := ⟨_, some { journalOf receipt request.imageDigest state with state := .rolledBack }⟩)
          rfl hvalid rfl
        exact nomatch hagain.symm.trans herror
      · exact nomatch hrun.symm.trans hmanual
    · exact nomatch hrun.symm.trans
        (recoverOfflineUpgrade_unread (workingEnv receipt) hjournal hlength _)
  · rintro ⟨_, hsome, hstate, hlength⟩
    cases hjournal.symm.trans hsome
    have hrun : recoverOfflineUpgrade (workingEnv receipt) (operationIdOf receipt) w =
        (.ok .committed, w) := by
      rcases recoverOfflineUpgrade_cases (workingEnv receipt) hjournal hvalid hlength with
        ⟨-, hrun⟩ | ⟨h, -⟩ | ⟨h, -⟩
      · exact hrun
      · exact absurd hstate h.1
      · exact absurd hstate h
    exact ⟨.committed, w, hrun, .inl ⟨rfl, hcommitted hstate⟩, w, hrun, rfl⟩

def sampleRequest : OfflineUpgradeRequest where
  targetVersion := "v1.2.3".toList
  imageDigest := replicate 64 'b'
  artifactFile := "/root/edge-proxy-1.2.3".toList
  passphraseFile := "/secure/upgrade.passphrase".toList

def sampleReceipt : OfflineUpgradeBackupReceipt := ⟨"backup-1".toList, replicate 64 'a'⟩

/-- The upgrade that runs to its end. -/
theorem upgrade_recovers_committed :
    Recovers sampleReceipt (executeJournaledOfflineUpgrade ⟨fun _ => .done, sampleReceipt⟩
      sampleRequest ⟨[], none⟩).2 := by
  refine (upgrade_recovers_iff (.executed (fun _ => .done) none ?_)).mpr ?_
  · decide +kernel
  · refine ⟨journalOf sampleReceipt sampleRequest.imageDigest .committed, ?_, rfl, ?_⟩
    · decide +kernel
    · decide +kernel

/-- The process stops right after the switch took effect: the journal says `Stopped`. Or it stops
after the journal entry, and the recovery is asked for a second time. -/
theorem upgrade_needs_manual_recovery :
    let stopping (effect : UpgradeEffect) : UpgradeEnv :=
      ⟨fun e => if e = effect then .stopped ⟨true, fun _ => true⟩ else .done, sampleReceipt⟩
    let crashed (effect : UpgradeEffect) :=
      (executeJournaledOfflineUpgrade (stopping effect) sampleRequest ⟨[], none⟩).2
    let recover := recoverOfflineUpgrade (workingEnv sampleReceipt) (operationIdOf sampleReceipt)
    UpgradeInterrupted sampleRequest sampleReceipt (crashed .switch) ∧
      (recover (crashed .switch)).1 = .error (.error manualRecovery) ∧
      UpgradeInterrupted sampleRequest sampleReceipt (crashed .start) ∧
      (recover (crashed .start)).1 = .ok .rolledBack ∧
      (recover (recover (crashed .start)).2).1 = .error (.error manualRecovery) := by
  intro stopping crashed recover
  refine ⟨.executed _ none ?_, ?_, .executed _ none ?_, ?_⟩
  all_goals decide +kernel

end Recovery

end EdgeProxy
