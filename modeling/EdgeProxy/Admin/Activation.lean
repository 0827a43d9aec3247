import EdgeProxy.Admin.Lifecycle

/-! # What is persisted, what the core runs and what the Admin server shows

The Admin server keeps two snapshots: the one it takes for the persisted revision and the one it
takes for the active one. It refreshes them from the files after a request that was answered with
200. A request resolves to a call, which is planned against the persisted revision, not against
what the core runs.
-/

namespace EdgeProxy

open Rust Action FileRevisionRepository List Option

inductive ConfigActivationState where
  | aligned | pendingRestart

def configActivationState (active desired : ConfigSnapshot) : ConfigActivationState :=
  if (restartWarnings active desired).isEmpty then .aligned else .pendingRestart

structure AdminServer where
  lifecycle : LifecycleState
  snapshot : ConfigSnapshot
  activeSnapshot : ConfigSnapshot

structure AdminStep where
  operation : AdminOperation
  env : OperationEnv := {}
  audit : AuditAnswers := {}
  refreshFails : Bool := false

namespace AdminServer

variable {server : AdminServer} {step : AdminStep}

def refreshAdminSnapshot (readFails : Bool) (server : AdminServer) : AdminServer :=
  match (current readFails server.lifecycle.repository).1 with
  | .ok (some record) =>
    { server with
      snapshot := record.snapshot
      activeSnapshot :=
        match configActivationState server.activeSnapshot record.snapshot with
        | .aligned => record.snapshot
        | .pendingRestart => server.activeSnapshot }
  | _ => server

/-- One request: the snapshots are refreshed only if it is answered with 200. -/
def handle (step : AdminStep) (server : AdminServer) : AdminServer :=
  let outcome := handleAuditedLifecycleRequest step.audit (step.operation.run step.env)
    server.lifecycle
  let server := { server with lifecycle := outcome.state }
  match outcome.result with
  | .ok _ => server.refreshAdminSnapshot step.refreshFails
  | .error _ => server

def after (steps : List AdminStep) (server : AdminServer) : AdminServer :=
  steps.foldl (fun server step => server.handle step) server

/-- No command asked the core for a restart-only change, and the server knows what is active and
what is persisted. -/
structure Consistent (server : AdminServer) : Prop where
  sent : ∀ command ∈ server.lifecycle.sent, restartWarnings command.1 command.2 = []
  active : server.activeSnapshot = server.lifecycle.active
  current : ∃ id, current false server.lifecycle.repository =
    (.ok (some ⟨id, server.snapshot⟩), server.lifecycle.repository)

def prepared (step : AdminStep) (server : AdminServer) :
    Option (Activation × FileRevisionRepository) :=
  match step.operation.resolve step.env server.lifecycle.repository with
  | (.error _, _) => none
  | (.ok call, r) =>
    match call.prepare step.env r with
    | (.error _, _) => none
    | (.ok activation, r') => some (activation, r')

/-- The core and the persisted revision agree on whether the requested snapshot needs a restart;
and if the core takes it, nothing fails afterwards and its file reads back as the snapshot. -/
structure Orderly (step : AdminStep) (server : AdminServer) (activation : Activation)
    (r : FileRevisionRepository) : Prop where
  agree : restartWarnings server.lifecycle.active activation.snapshot = [] ↔
    restartWarnings server.snapshot activation.snapshot = []
  settable : activation.Accepted step.env → Settable step.env activation.revisionId r
  recorded : activation.Accepted step.env → step.env.auditFails = false ∧
    step.audit.terminalError = none ∧ step.refreshFails = false
  readBack : activation.Accepted step.env → trim activation.revisionId = activation.revisionId ∧
    r.findRevision activation.revisionId = .ok (some ⟨activation.revisionId, activation.snapshot⟩)

def afterRun (step : AdminStep) (outcome : Except AppError ApplyResponse × LifecycleState)
    (server : AdminServer) : AdminServer :=
  let server := { server with lifecycle := outcome.2 }
  match outcome.1, step.audit.terminalError with
  | .ok _, none => server.refreshAdminSnapshot step.refreshFails
  | _, _ => server

theorem handle_cases (step : AdminStep) (server : AdminServer) :
    server.handle step = server ∨ server.handle step =
      server.afterRun step (step.operation.run step.env server.lifecycle) := by
  rw [handle, handleAuditedLifecycleRequest]
  rcases step.audit.invalidOperation with _ | error
  · rcases step.audit.beginError with _ | error
    · refine .inr ?_
      rw [afterRun]
      rcases step.operation.run step.env server.lifecycle with ⟨_ | _, _⟩
      · rcases step.audit.terminalError with _ | error'
        · rfl
        · rfl
      · rcases step.audit.terminalError with _ | error'
        · rfl
        · rfl
    · exact .inl rfl
  · exact .inl rfl

theorem Consistent.plan_commands (h : server.Consistent) {activation : Activation}
    (hplanned : activation.PlannedAgainst server.lifecycle.repository) :
    activation.plan.commands = [] ↔ restartWarnings server.snapshot activation.snapshot ≠ [] := by
  obtain ⟨current, hcurrent, hplan⟩ := hplanned
  obtain ⟨_, hpersisted⟩ := h.current
  rw [hpersisted] at hcurrent
  cases hcurrent
  rw [hplan, planApplyWithCurrent]
  rcases hwarnings : restartWarnings server.snapshot activation.snapshot with _ | ⟨warning, rest⟩
  · simp [hwarnings]
  · simp [hwarnings]

theorem current_congr {r r' : FileRevisionRepository} (hfile : r'.currentFile = r.currentFile)
    (hlookup : ∀ id, r.currentRevisionId = some id →
      r'.revisions.lookup id = r.revisions.lookup id) :
    (current false r').1 = (current false r).1 := by
  have hid : r'.currentRevisionId = r.currentRevisionId := by
    rw [currentRevisionId, hfile]
    rfl
  rw [current, current, hid]
  rcases hcurrent : r.currentRevisionId with _ | id
  · rfl
  · simp [findRevision, hlookup id hcurrent]

theorem Consistent.refreshed (h : server.Consistent) {activation : Activation}
    {r : FileRevisionRepository} (hplanned : activation.PlannedAgainst server.lifecycle.repository)
    (horderly : server.Orderly step activation r) (haccepted : activation.Accepted step.env) :
    (refreshAdminSnapshot false { server with
      lifecycle := activation.pointed { server.lifecycle with repository := r } }).Consistent := by
  obtain ⟨htrim, hread⟩ := horderly.readBack haccepted
  have hcurrent : FileRevisionRepository.current false
      { r with currentFile := some activation.revisionId } =
        (.ok (some ⟨activation.revisionId, activation.snapshot⟩),
          { r with currentFile := some activation.revisionId }) := by
    rw [FileRevisionRepository.current, currentRevisionId]
    simp only [Bool.false_eq_true, if_false, map_some, htrim]
    exact congrArg (·, _) hread
  have hcommands := h.plan_commands hplanned
  rw [refreshAdminSnapshot, hcurrent]
  rcases hwarnings : restartWarnings server.snapshot activation.snapshot with _ | ⟨warning, rest⟩
  · -- the core was sent the snapshot
    have hactive := horderly.agree.mpr hwarnings
    have hsome : activation.plan.commands ≠ [] := fun hnone => hcommands.mp hnone hwarnings
    refine ⟨?_, ?_, activation.revisionId, hcurrent⟩
    · simp only [Activation.dispatched, if_neg hsome, mem_append, mem_singleton]
      rintro command (hcommand | rfl)
      · exact h.sent command hcommand
      · exact hactive
    · simp [configActivationState, h.active, hactive, Activation.dispatched, if_neg hsome]
  · -- a restart is pending: nothing was sent and the active snapshot stays
    have hactive : restartWarnings server.lifecycle.active activation.snapshot ≠ [] :=
      fun hnone => by simp [horderly.agree.mp hnone] at hwarnings
    have hnone : activation.plan.commands = [] := hcommands.mpr (by simp [hwarnings])
    refine ⟨?_, ?_, activation.revisionId, hcurrent⟩
    · simp only [Activation.dispatched, if_pos hnone]
      exact h.sent
    · simp [configActivationState, h.active, hactive, Activation.dispatched, if_pos hnone]

theorem Consistent.handle (h : server.Consistent)
    (horderly : ∀ activation r, server.prepared step = some (activation, r) →
      server.Orderly step activation r) : (server.handle step).Consistent := by
  rcases handle_cases step server with hsame | hrun
  · rw [hsame]
    exact h
  rw [hrun]
  rcases step.operation.run_cases step.env server.lifecycle with ⟨error, hfailed⟩ |
    ⟨call, activation, r, hresolve, hprepare, hextends, hprepared, hactivates⟩
  · rw [hfailed]
    exact h
  rw [hactivates]
  have horderly := horderly activation r (by simp [prepared, hresolve, hprepare])
  have hran := Activation.ran step.env hprepared.planned.planned
    { server.lifecycle with repository := r }
  generalize activation.run step.env { server.lifecycle with repository := r } = outcome at hran
  cases hran with
  | rejected _ hrejected =>
    -- the revision was saved under an id that is not the current one
    have hsome : activation.plan.commands ≠ [] := fun hnone => hrejected (.inl hnone)
    have hwarnings : restartWarnings server.snapshot activation.snapshot = [] := by
      by_contra hne
      exact hsome ((h.plan_commands hprepared.planned).mpr hne)
    obtain ⟨id, hcurrent⟩ := h.current
    have hsame := current_congr hprepared.current fun id hid =>
      (hprepared.kept id).resolve_right fun happlied => by
        obtain ⟨hcall, hid'⟩ := happlied
        have htarget := hprepared.target
        rw [hcall, LifecycleCall.target, some.injEq, Prod.mk.injEq] at htarget
        obtain ⟨current, suffix, hcurrent, hsuffix, hextended⟩ := hextends _ hcall
        rw [hid, hid', ← htarget.1, hextended, some.injEq] at hcurrent
        exact step.operation.suffix_ne_nil hsuffix (append_right_eq_self.mp hcurrent)
    refine ⟨?_, h.active, id, ?_⟩
    · simp only [afterRun, mem_append, mem_singleton]
      rintro command (hcommand | rfl)
      · exact h.sent command hcommand
      · exact horderly.agree.mpr hwarnings
    · have hstate := current_state false r
      rw [hcurrent] at hsame
      exact Prod.ext hsame hstate
  | unset _ haccepted hset => exact absurd (horderly.settable haccepted) hset
  | unrecorded _ haccepted _ haudit =>
    exact absurd (haudit.symm.trans (horderly.recorded haccepted).1) (by decide)
  | done haccepted =>
    obtain ⟨_, hterminal, hrefresh⟩ := horderly.recorded haccepted
    have := h.refreshed hprepared.planned horderly haccepted
    simpa only [afterRun, hterminal, hrefresh] using this

/-- In every run of orderly requests, commands are sent only for snapshots that the core can take
without a restart, and the server knows what is active and what is persisted. -/
theorem restart_pending_consistent (server : AdminServer) (steps : List AdminStep)
    (hstart : server.Consistent) (horderly : ∀ p step, p ++ [step] <+: steps →
      ∀ activation r, (server.after p).prepared step = some (activation, r) →
        (server.after p).Orderly step activation r) : (server.after steps).Consistent := by
  induction steps using reverseRecOn with
  | nil => exact hstart
  | append_singleton steps step ih =>
    rw [after, foldl_concat]
    refine Consistent.handle (ih fun p step' hp => ?_) (horderly steps step (prefix_refl _))
    exact horderly p step' (hp.trans (prefix_append _ _))

def seedServer : AdminServer where
  lifecycle := seedState
  snapshot := seedSnapshot "bootstrap-seed".toList
  activeSnapshot := seedSnapshot "bootstrap-seed".toList

theorem seedServer_consistent : seedServer.Consistent where
  sent := nofun
  active := rfl
  current := ⟨"bootstrap-seed".toList, Prod.ext (by decide +kernel) rfl⟩

def applying (source : String) : AdminStep where
  operation := .applyConfigSource source.toList

def lowerLimit : AdminStep := applying "schema_version = 1\n[runtime]\nmax_connections = 512"

def sameSource : AdminStep := applying "schema_version = 1"

/-- An apply that is activated, and one that waits for a restart. -/
theorem restart_pending_consistent_seed :
    seedServer.Consistent ∧ (seedServer.after [sameSource, lowerLimit]).Consistent := by
  refine ⟨seedServer_consistent, restart_pending_consistent seedServer _ seedServer_consistent ?_⟩
  intro p step hp activation r hprepared
  have hchecks : ∀ run ∈ [([], sameSource), ([sameSource], lowerLimit)],
      ∀ x ∈ (seedServer.after run.1).prepared run.2,
        (restartWarnings (seedServer.after run.1).lifecycle.active x.1.snapshot = [] ↔
          restartWarnings (seedServer.after run.1).snapshot x.1.snapshot = []) ∧
        trim x.1.revisionId = x.1.revisionId ∧
        x.2.findRevision x.1.revisionId = .ok (some ⟨x.1.revisionId, x.1.snapshot⟩) := by
    decide +kernel
  have hrun : (p, step) ∈ [([], sameSource), ([sameSource], lowerLimit)] := by
    obtain ⟨_, hrest⟩ := hp
    rcases p with _ | ⟨_, _ | ⟨_, _⟩⟩
    · cases hrest
      simp
    · cases hrest
      simp
    · simp at hrest
  obtain ⟨hagree, hread⟩ := hchecks _ hrun (activation, r) hprepared
  obtain ⟨source, rfl⟩ : ∃ source, step = applying source := by
    simp only [mem_cons, Prod.mk.injEq, not_mem_nil, or_false] at hrun
    rcases hrun with ⟨-, rfl⟩ | ⟨-, rfl⟩
    · exact ⟨_, rfl⟩
    · exact ⟨_, rfl⟩
  exact ⟨hagree, fun _ => ⟨rfl, rfl, _, hread.2⟩, fun _ => ⟨rfl, rfl, rfl⟩, fun _ => hread⟩

/-- The second of two applies of a lower connection limit is planned against the first, which is
persisted but waits for a restart. It is sent to a core that still has the old limit, and the
server goes on showing the old snapshot as active. -/
theorem pending_apply_sent_to_core :
    let server := seedServer.after [lowerLimit, lowerLimit]
    (∃ command ∈ server.lifecycle.sent, restartWarnings command.1 command.2 ≠ []) ∧
      server.lifecycle.active.runtime.maxConnections = 512 ∧
      server.activeSnapshot.runtime.maxConnections = 1024 := by
  decide +kernel

end AdminServer

end EdgeProxy
