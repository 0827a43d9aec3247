import EdgeProxy.Core.Rejection

/-! # Fencing of availability updates

Availability comes from the health checks in its own time, a generation number on each update. The
selector keeps the number of the update it uses and forgets it when the revision changes. Here the
core runs beside the list of all updates it accepted.
-/

namespace EdgeProxy

open Rust RuntimeUpstreamSelector List

variable {F G : Type}

inductive AvailabilityCommand (F G : Type) where
  | activate (command : ActivationCommand F G)
  | applyConfigSnapshot (next : ConfigSnapshot)
  | publishUpstreamAvailability (availability : HealthAvailabilitySnapshot)

def CoreRuntime.publishUpstreamAvailability (availability : HealthAvailabilitySnapshot)
    (core : CoreRuntime F G) : CommandAck × CoreRuntime F G :=
  match core.upstreamSelector.applyAvailability core.snapshot availability with
  | .error error => (.rejected error, core)
  | .ok selector => (.accepted, { core with upstreamSelector := selector })

/-- The selector uses one of the updates with the greatest generation, or none if there is none. -/
def RuntimeUpstreamSelector.UsesNewest (selector : RuntimeUpstreamSelector)
    (updates : List HealthAvailabilitySnapshot) : Prop :=
  (updates = [] ∧ selector.availability = ∅ ∧ selector.availabilityGeneration = none) ∨
    ∃ a ∈ updates, selector.HasAvailability a ∧ ∀ b ∈ updates, b.generation ≤ a.generation

namespace AvailabilityCommand

def run (core : CoreRuntime F G) : AvailabilityCommand F G → CommandAck × CoreRuntime F G
  | activate command => command.run core
  | applyConfigSnapshot next => core.applyConfigSnapshot next
  | publishUpstreamAvailability availability => core.publishUpstreamAvailability availability

def next (core : CoreRuntime F G) : AvailabilityCommand F G → ConfigSnapshot
  | activate command => command.next
  | applyConfigSnapshot next => next
  | publishUpstreamAvailability _ => core.snapshot

def availability : AvailabilityCommand F G → Option HealthAvailabilitySnapshot
  | activate command => some command.availability
  | applyConfigSnapshot _ => none
  | publishUpstreamAvailability availability => some availability

/-- An accepted update belongs to the configuration and is not older than the one in use, if the
revision stays; without an update the selector keeps what it has with the revision. -/
structure Accepted (command : AvailabilityCommand F G) (core core' : CoreRuntime F G) : Prop where
  snapshot : core'.snapshot = command.next core
  updated : ∀ a ∈ command.availability, core'.upstreamSelector.HasAvailability a ∧
    a.revisionId = (command.next core).revisionId ∧
    (core.snapshot.revisionId = (command.next core).revisionId →
      ∀ generation ∈ core.upstreamSelector.availabilityGeneration, generation ≤ a.generation)
  kept : command.availability = none →
    if core.snapshot.revisionId = (command.next core).revisionId then
      core'.upstreamSelector.availability = core.upstreamSelector.availability ∧
        core'.upstreamSelector.availabilityGeneration = core.upstreamSelector.availabilityGeneration
    else core'.upstreamSelector.availability = ∅ ∧
      core'.upstreamSelector.availabilityGeneration = none

inductive Ran (command : AvailabilityCommand F G) (core : CoreRuntime F G) :
    CommandAck × CoreRuntime F G → Prop
  | rejected (error : AppError) {core' : CoreRuntime F G}
      (hsnapshot : core'.snapshot = core.snapshot)
      (hselector : core'.upstreamSelector = core.upstreamSelector) :
      Ran command core (.rejected error, core')
  | accepted {core' : CoreRuntime F G} (h : command.Accepted core core') :
      Ran command core (.accepted, core')

theorem ran_applyConfigSnapshot (core : CoreRuntime F G) (next : ConfigSnapshot) :
    (applyConfigSnapshot next).Ran core (core.applyConfigSnapshot next) := by
  rw [CoreRuntime.applyConfigSnapshot]
  rcases hmap : normalizedEndpointMap next with error | endpoints
  · rw [reconcile, hmap]
    exact .rejected error rfl rfl
  · rw [reconcile, hmap, ok_bind]
    simp only
    split_ifs with hrevision
    · refine .accepted ⟨rfl, by rintro _ ⟨⟩, fun _ => ?_⟩
      rw [AvailabilityCommand.next, if_neg hrevision]
      exact ⟨rfl, rfl⟩
    · refine .accepted ⟨rfl, by rintro _ ⟨⟩, fun _ => ?_⟩
      rw [AvailabilityCommand.next, if_pos (not_not.mp hrevision)]
      exact ⟨rfl, rfl⟩

theorem ran (command : AvailabilityCommand F G) (core : CoreRuntime F G) :
    command.Ran core (command.run core) := by
  cases command with
  | activate command =>
    have hran := command.ran core
    rw [run]
    generalize command.run core = outcome at hran
    cases hran with
    | unreconciled error => exact .rejected error rfl rfl
    | unfit error => exact .rejected error rfl rfl
    | accepted _ _ hfits hactivated =>
      refine .accepted ⟨hactivated.snapshot, ?_, nofun⟩
      rintro _ ⟨⟩
      exact ⟨hactivated.availability, hfits.1.revision, hfits.1.fresh⟩
  | applyConfigSnapshot next => exact ran_applyConfigSnapshot core next
  | publishUpstreamAvailability a =>
    rw [run, CoreRuntime.publishUpstreamAvailability]
    rcases happly : core.upstreamSelector.applyAvailability core.snapshot a with error | selector
    · exact .rejected error rfl rfl
    · obtain ⟨hrevision, hfresh, -⟩ :=
        applyAvailability_ok_iff.mp ⟨selector, happly⟩
      refine .accepted ⟨rfl, ?_, nofun⟩
      rintro _ ⟨⟩
      exact ⟨hasAvailability_of_apply happly, hrevision, fun _ => hfresh⟩

end AvailabilityCommand

structure FencedRuntime (F G : Type) where
  core : CoreRuntime F G
  accepted : List HealthAvailabilitySnapshot

namespace FencedRuntime

def start (core : CoreRuntime F G) : FencedRuntime F G :=
  ⟨core, [initialAvailabilitySnapshot core.snapshot]⟩

variable (s : FencedRuntime F G)

def step (command : AvailabilityCommand F G) : FencedRuntime F G :=
  match command.run s.core with
  | (.rejected _, core) => ⟨core, s.accepted⟩
  | (.accepted, core) => ⟨core, command.availability.toList ++ s.accepted⟩

def acceptedFor (revision : Text) : List HealthAvailabilitySnapshot :=
  s.accepted.filter (·.revisionId = revision)

def Fenced : Prop :=
  s.core.upstreamSelector.UsesNewest (s.acceptedFor s.core.snapshot.revisionId)

/-- The command brings an update for another revision, or an older one. -/
def Stale (command : AvailabilityCommand F G) : Prop :=
  ∃ a ∈ command.availability, a.revisionId ≠ (command.next s.core).revisionId ∨
    ∃ b ∈ s.acceptedFor (command.next s.core).revisionId, a.generation < b.generation

/-- A command that changes the revision brings the newest update for it, or there was none yet. -/
def InOrder (command : AvailabilityCommand F G) : Prop :=
  s.core.snapshot.revisionId ≠ (command.next s.core).revisionId →
    ∀ b ∈ s.acceptedFor (command.next s.core).revisionId,
      ∃ a ∈ command.availability, b.generation ≤ a.generation

variable {s : FencedRuntime F G} {command : AvailabilityCommand F G}

theorem Fenced.le_generation (h : s.Fenced) {b : HealthAvailabilitySnapshot}
    (hb : b ∈ s.acceptedFor s.core.snapshot.revisionId) :
    ∃ generation ∈ s.core.upstreamSelector.availabilityGeneration, b.generation ≤ generation := by
  rcases h with ⟨hnil, -⟩ | ⟨a, -, hused, hmax⟩
  · rw [hnil] at hb
    exact absurd hb not_mem_nil
  · exact ⟨a.generation, hused.2, hmax b hb⟩

theorem Fenced.le_of_accepted (h : s.Fenced) (horder : s.InOrder command)
    {core' : CoreRuntime F G} (haccepted : command.Accepted s.core core')
    {a b : HealthAvailabilitySnapshot} (ha : a ∈ command.availability)
    (hb : b ∈ s.acceptedFor (command.next s.core).revisionId) : b.generation ≤ a.generation := by
  by_cases hsame : s.core.snapshot.revisionId = (command.next s.core).revisionId
  · rw [← hsame] at hb
    obtain ⟨generation, hgeneration, hle⟩ := h.le_generation hb
    exact hle.trans ((haccepted.updated a ha).2.2 hsame generation hgeneration)
  · obtain ⟨_, ha', hle⟩ := horder hsame b hb
    rwa [Option.mem_unique ha ha']

theorem Fenced.accepted (h : s.Fenced) (horder : s.InOrder command) {core' : CoreRuntime F G}
    (haccepted : command.Accepted s.core core') :
    Fenced ⟨core', command.availability.toList ++ s.accepted⟩ := by
  rw [Fenced, acceptedFor, haccepted.snapshot]
  rcases hcommand : command.availability with _ | a
  · have hkept := haccepted.kept hcommand
    split_ifs at hkept with hsame
    · rw [← hsame]
      simp only [RuntimeUpstreamSelector.UsesNewest, RuntimeUpstreamSelector.HasAvailability,
        hkept.1, hkept.2]
      exact h
    · refine .inl ⟨eq_nil_iff_forall_not_mem.mpr fun b hb => ?_, hkept⟩
      obtain ⟨a, ha, -⟩ := horder hsame b hb
      rw [hcommand] at ha
      nomatch ha
  · obtain ⟨hused, hrevision, -⟩ := haccepted.updated a hcommand
    have hfilter : (a :: s.accepted).filter (·.revisionId = (command.next s.core).revisionId) =
        a :: s.acceptedFor (command.next s.core).revisionId :=
      filter_cons_of_pos (decide_eq_true hrevision)
    rw [Option.toList_some, singleton_append, hfilter]
    refine .inr ⟨a, mem_cons_self, hused, fun b hb => ?_⟩
    rcases mem_cons.mp hb with rfl | hb
    · exact le_rfl
    · exact h.le_of_accepted horder haccepted hcommand hb

theorem Fenced.step (h : s.Fenced) (horder : s.InOrder command) : (s.step command).Fenced := by
  have hran := command.ran s.core
  rw [FencedRuntime.step]
  generalize command.run s.core = outcome at hran
  cases hran with
  | rejected _ hsnapshot hselector =>
    rw [Fenced, acceptedFor, hsnapshot, hselector]
    exact h
  | accepted haccepted => exact h.accepted horder haccepted

theorem Fenced.ignores_stale (h : s.Fenced) (horder : s.InOrder command)
    (hstale : s.Stale command) :
    (s.step command).core.upstreamSelector = s.core.upstreamSelector := by
  have hran := command.ran s.core
  rw [FencedRuntime.step]
  generalize command.run s.core = outcome at hran
  cases hran with
  | rejected _ _ hselector => exact hselector
  | accepted haccepted =>
    obtain ⟨a, ha, hrevision | ⟨_, hb, hlt⟩⟩ := hstale
    · exact absurd (haccepted.updated a ha).2.1 hrevision
    · exact absurd (h.le_of_accepted horder haccepted ha hb) (not_le.mpr hlt)

inductive Runs (s : FencedRuntime F G) : FencedRuntime F G → Prop
  | start : Runs s s
  | step {t : FencedRuntime F G} {command : AvailabilityCommand F G} (h : Runs s t)
      (horder : t.InOrder command) : Runs s (t.step command)

/-- `from_snapshot`, and a status publisher installed or not. -/
def Starts (core : CoreRuntime F G) : Prop :=
  RuntimeUpstreamSelector.fromSnapshot core.snapshot =
    .ok { core.upstreamSelector with runtimeStatusPublisher := false }

theorem fenced_start {core : CoreRuntime F G} (h : Starts core) : (start core).Fenced := by
  obtain ⟨_, -, happly⟩ := bind_eq_ok.mp h
  have hused := hasAvailability_of_apply happly
  have hnewest : core.upstreamSelector.UsesNewest [initialAvailabilitySnapshot core.snapshot] := by
    refine .inr ⟨_, mem_singleton_self _, hused, fun b hb => ?_⟩
    rw [mem_singleton.mp hb]
  have hfilter : (start core).acceptedFor core.snapshot.revisionId =
      [initialAvailabilitySnapshot core.snapshot] :=
    filter_cons_of_pos (decide_eq_true rfl)
  rw [← hfilter] at hnewest
  exact hnewest

end FencedRuntime

open FencedRuntime

/-- In every run in which a command that returns to a revision brings the newest update for it, the
selector uses the newest update of the active revision, and stale updates do not reach it. -/
theorem availability_fenced {core : CoreRuntime F G} (h : Starts core)
    {s : FencedRuntime F G} (hruns : (start core).Runs s) :
    s.Fenced ∧ ∀ command, s.InOrder command → s.Stale command →
      (s.step command).core.upstreamSelector = s.core.upstreamSelector := by
  have hfenced : s.Fenced := by
    induction hruns with
    | start => exact fenced_start h
    | step _ horder ih => exact ih.step horder
  exact ⟨hfenced, fun command horder hstale => hfenced.ignores_stale horder hstale⟩

def startedCore : CoreRuntime Unit Unit :=
  { observedCore with upstreamSelector :=
    { observedCore.upstreamSelector with availabilityGeneration := some 0 } }

theorem availability_fenced_start :
    ((start startedCore).step
      (.publishUpstreamAvailability ⟨"active".toList, 5, ∅⟩)).Fenced := by
  have hruns : (start startedCore).Runs ((start startedCore).step
      (.publishUpstreamAvailability ⟨"active".toList, 5, ∅⟩)) :=
    .step .start fun h => absurd rfl h
  exact (availability_fenced (show Starts startedCore from rfl) hruns).1

/-- After an update of generation 5 the configuration changes and is rolled back with its initial
availability: generation 0 is accepted and used. -/
theorem rollback_unfenced :
    let s := (start startedCore).step (.publishUpstreamAvailability ⟨"active".toList, 5, ∅⟩)
    let t := (s.step (.activate (.activateSnapshot (seedSnapshot "next".toList)
      (initialAvailabilitySnapshot (seedSnapshot "next".toList))))).step
      (.activate (.activateSnapshot (seedSnapshot "active".toList)
        (initialAvailabilitySnapshot (seedSnapshot "active".toList))))
    s.core.upstreamSelector.availabilityGeneration = some 5 ∧
      t.core.snapshot.revisionId = s.core.snapshot.revisionId ∧
      t.core.upstreamSelector.availabilityGeneration = some 0 ∧
      (t.acceptedFor "active".toList).map (·.generation) = [0, 5, 0] := by
  decide

end EdgeProxy
