import EdgeProxy.Lib.Dictionary
import EdgeProxy.Lib.Text

/-! # Log samplers

Two samplers limit how often a failure is written to the log, one for TLS failures and one for
refused resources. They are one program over two kinds of keys: a map with the time at which each
key was last emitted, and a queue of its keys in the order of their insertion.
-/

namespace EdgeProxy

open Rust List

structure LogSampler (κ : Type) where
  ttlSeconds : ℕ
  capacity : ℕ
  emittedAt : Dictionary κ ℕ
  insertionOrder : List κ

namespace LogSampler

variable {κ β : Type} [DecidableEq κ]

def new (ttlSeconds capacity : ℕ) : LogSampler κ := ⟨ttlSeconds, max capacity 1, ∅, []⟩

/-- The loop that makes room for a key. It does not end if the queue is empty and the map is full:
then nothing changes any more. -/
def evict (capacity : ℕ) : Dictionary κ ℕ → List κ → Option (Dictionary κ ℕ × List κ)
  | emittedAt, [] => if emittedAt.keys.length < capacity then some (emittedAt, []) else none
  | emittedAt, oldest :: order =>
    if emittedAt.keys.length < capacity then some (emittedAt, oldest :: order)
    else evict capacity (emittedAt.erase oldest) order

/-- The body that the two samplers share: whether the key is emitted. -/
def emit (s : LogSampler κ) (key : κ) (now : ℕ) : Option (Bool × LogSampler κ) :=
  if (s.emittedAt.lookup key).any fun emittedAt => now - emittedAt < s.ttlSeconds then
    some (false, s)
  else do
    let order := if key ∈ s.emittedAt then s.insertionOrder.filter (· != key) else s.insertionOrder
    let (emittedAt, order) ← evict s.capacity (s.emittedAt.erase key) order
    some (true, { s with
      emittedAt := emittedAt.insert key now, insertionOrder := order ++ [key] })

/-- The observations one after the other, with the keys emitted and their times, the last first. -/
def run (observe : LogSampler κ → κ → ℕ → Option (β × LogSampler κ)) (emits : β → Bool) :
    List (κ × ℕ) × LogSampler κ → List (κ × ℕ) → Option (List (κ × ℕ) × LogSampler κ)
  | state, [] => some state
  | (log, s), (key, now) :: observations => do
    let (result, s) ← observe s key now
    run observe emits (if emits result then (key, now) :: log else log, s) observations

/-- The keys of a log, each once, in the order of their last emission. -/
def recent : List (κ × ℕ) → List κ
  | [] => []
  | (key, _) :: log => key :: (recent log).filter (· != key)

/-- Between two emissions of a key within the time, at least `capacity` other keys are emitted. -/
def Spaced (ttlSeconds capacity : ℕ) (log : List (κ × ℕ)) : Prop :=
  ∀ after key time' between time before,
    log = after ++ (key, time') :: (between ++ (key, time) :: before) →
    key ∉ between.map Prod.fst → time' - time < ttlSeconds → capacity ≤ (recent between).length

section Recent

theorem nodup_recent (log : List (κ × ℕ)) : (recent log).Nodup := by
  induction log with
  | nil => exact nodup_nil
  | cons _ _ ih => exact nodup_cons.mpr ⟨by simp, ih.filter _⟩

theorem recent_append_cons {key : κ} {log : List (κ × ℕ)} (h : key ∉ log.map Prod.fst) (time : ℕ)
    (before : List (κ × ℕ)) :
    ∃ keys, recent (log ++ (key, time) :: before) = recent log ++ key :: keys := by
  induction log with
  | nil => exact ⟨_, rfl⟩
  | cons e _ ih =>
    rw [map_cons, mem_cons, not_or] at h
    obtain ⟨keys, hkeys⟩ := ih h.2
    refine ⟨keys.filter (· != e.1), ?_⟩
    rw [cons_append, recent, hkeys, filter_append, filter_cons_of_pos (by simpa using h.1)]
    rfl

theorem filter_ne_self {l : List κ} {key : κ} (h : key ∉ l) : l.filter (· != key) = l :=
  filter_eq_self.mpr fun _ hmem => bne_iff_ne.mpr fun heq => h (heq ▸ hmem)

theorem take_filter_take {l : List κ} (h : l.Nodup) (key : κ) (n : ℕ) :
    ((l.take (n + 1)).filter (· != key)).take n = (l.filter (· != key)).take n := by
  induction l generalizing n with
  | nil => rfl
  | cons a l ih =>
    obtain ⟨hfresh, hl⟩ := nodup_cons.mp h
    by_cases hkey : a = key
    · subst hkey
      simp [filter_ne_self hfresh, filter_ne_self (mt mem_of_mem_take hfresh)]
    · cases n with
      | zero => simp
      | succ n => simp [hkey, ih hl]

end Recent

section Queue

variable {ttl n : ℕ} {s : LogSampler κ} {log : List (κ × ℕ)} {key : κ} {order : List κ}
  {emittedAt : Dictionary κ ℕ}

/-- The queue lists the keys of the map, each once. -/
structure Lists (order : List κ) (emittedAt : Dictionary κ ℕ) : Prop where
  nodup : order.Nodup
  mem_iff : ∀ key, key ∈ order ↔ key ∈ emittedAt

omit [DecidableEq κ] in
theorem Lists.length (h : Lists order emittedAt) : emittedAt.keys.length = order.length :=
  ((perm_ext_iff_of_nodup (AList.keys_nodup _) h.nodup).mpr fun key => by
    rw [h.mem_iff, AList.mem_keys]).length_eq

theorem Lists.erase (h : Lists order emittedAt) (key : κ) :
    Lists (order.filter (· != key)) (emittedAt.erase key) := by
  refine ⟨h.nodup.filter _, fun other => ?_⟩
  rw [mem_filter, AList.mem_erase, h.mem_iff, bne_iff_ne, and_comm]

theorem evict_spec (n : ℕ) (h : Lists order emittedAt) :
    ∃ emittedAt', evict (n + 1) emittedAt order = some (emittedAt', order.rtake n) ∧
      Lists (order.rtake n) emittedAt' ∧
      ∀ key ∈ order.rtake n, emittedAt'.lookup key = emittedAt.lookup key := by
  induction order generalizing emittedAt with
  | nil =>
    rw [evict, h.length, rtake_nil]
    exact ⟨emittedAt, rfl, h, fun _ _ => rfl⟩
  | cons oldest order ih =>
    rw [evict, h.length, length_cons]
    split_ifs with hroom
    · have hall : (oldest :: order).rtake n = oldest :: order := by
        rw [rtake, length_cons, Nat.sub_eq_zero_of_le (Nat.le_of_lt_succ hroom), drop_zero]
      rw [hall]
      exact ⟨emittedAt, rfl, h, fun _ _ => rfl⟩
    · have hrest : (oldest :: order).rtake n = order.rtake n := by
        rw [rtake, length_cons, Nat.succ_sub (by omega), drop_succ_cons, ← rtake]
      have hfresh := (nodup_cons.mp h.nodup).1
      have herased : Lists order (emittedAt.erase oldest) := by
        simpa [filter_ne_self hfresh] using h.erase oldest
      obtain ⟨emittedAt', heq, hlists, hlookup⟩ := ih herased
      rw [hrest]
      refine ⟨emittedAt', heq, hlists, fun key hkey => ?_⟩
      have hne : key ≠ oldest := fun heq => hfresh (heq ▸ mem_of_mem_drop hkey)
      rw [hlookup key hkey, AList.lookup_erase_ne hne]

/-- The sampler after the emissions of a log: the queue holds the last keys of the log, as many as
there is room for, and the map the time of their last emission. -/
structure Follows (ttl n : ℕ) (s : LogSampler κ) (log : List (κ × ℕ)) : Prop where
  ttlSeconds : s.ttlSeconds = ttl
  capacity : s.capacity = n + 1
  lists : Lists s.insertionOrder s.emittedAt
  queue : s.insertionOrder = ((recent log).take (n + 1)).reverse
  last : ∀ after key time before, log = after ++ (key, time) :: before →
    key ∉ after.map Prod.fst → key ∈ s.emittedAt → s.emittedAt.lookup key = some time
  spaced : Spaced ttl (n + 1) log

theorem follows_new (ttl n : ℕ) : (⟨ttl, n + 1, ∅, []⟩ : LogSampler κ).Follows ttl n [] where
  ttlSeconds := rfl
  capacity := rfl
  lists := ⟨nodup_nil, by simp⟩
  queue := rfl
  last := by simp
  spaced := by simp [Spaced]

theorem Follows.capacity_le (h : s.Follows ttl n log) (hgone : key ∉ s.emittedAt)
    {after before : List (κ × ℕ)} {time : ℕ} (hlog : log = after ++ (key, time) :: before)
    (hafter : key ∉ after.map Prod.fst) : n + 1 ≤ (recent after).length := by
  by_contra hlt
  obtain ⟨keys, hkeys⟩ := recent_append_cons hafter time before
  obtain ⟨m, hm⟩ := Nat.exists_eq_add_of_lt (not_le.mp hlt)
  refine hgone ((h.lists.mem_iff key).mp ?_)
  rw [h.queue, hlog, hkeys, hm, Nat.add_assoc, take_length_add_append]
  simp

theorem Follows.emit (h : s.Follows ttl n log) (key : κ) (now : ℕ) :
    ∃ emitted s', s.emit key now = some (emitted, s') ∧
      s'.Follows ttl n (if emitted then (key, now) :: log else log) := by
  have horder : (if key ∈ s.emittedAt then s.insertionOrder.filter (· != key)
      else s.insertionOrder) = s.insertionOrder.filter (· != key) := by
    split_ifs with hmem
    · rfl
    · exact (filter_ne_self (mt (h.lists.mem_iff key).mp hmem)).symm
  have herased := h.lists.erase key
  rw [LogSampler.emit]
  split
  · exact ⟨false, s, rfl, h⟩
  next hrecent =>
  obtain ⟨emittedAt, hevict, hlists, hlookup⟩ := evict_spec n herased
  rw [← h.capacity] at hevict
  have hqueue : (s.insertionOrder.filter (· != key)).rtake n ++ [key] =
      ((recent ((key, now) :: log)).take (n + 1)).reverse := by
    rw [rtake_eq_reverse_take_reverse, h.queue, filter_reverse, reverse_reverse,
      take_filter_take (nodup_recent log), recent, take_succ_cons, reverse_cons]
  refine ⟨true, { s with
    emittedAt := emittedAt.insert key now
    insertionOrder := (s.insertionOrder.filter (· != key)).rtake n ++ [key] }, ?_,
    h.ttlSeconds, h.capacity, ⟨?_, fun other => ?_⟩, hqueue, ?_, ?_⟩
  · simp only [horder, hevict]
    rfl
  · rw [hqueue]
    exact nodup_reverse.mpr ((nodup_recent _).sublist (take_sublist _ _))
  · rw [AList.mem_insert, ← hlists.mem_iff, mem_append, mem_singleton, or_comm]
  · rintro (_ | ⟨_, after⟩) other time before hlog hafter hheld
    · cases hlog
      exact AList.lookup_insert _
    · cases hlog
      obtain ⟨hne, hafter⟩ := not_or.mp (mt mem_cons.mpr hafter)
      have hkept := (hlists.mem_iff other).mpr ((AList.mem_insert _).mp hheld |>.resolve_left hne)
      have hold := AList.mem_erase.mp ((herased.mem_iff other).mp (mem_of_mem_drop hkept))
      rw [AList.lookup_insert_ne hne, hlookup other hkept, AList.lookup_erase_ne hne]
      exact h.last after other time before rfl hafter hold.2
  · rintro (_ | ⟨_, after⟩) other time' between time before hlog hbetween hsoon
    · cases hlog
      refine h.capacity_le (fun hheld => ?_) rfl hbetween
      have hlast := h.last between key time before rfl hbetween hheld
      simp [hlast, h.ttlSeconds, hsoon] at hrecent
    · cases hlog
      exact h.spaced after other time' between time before rfl hbetween hsoon

section Runs

variable {observe : LogSampler κ → κ → ℕ → Option (β × LogSampler κ)} {emits : β → Bool}
  (hemit : ∀ s key now, (observe s key now).map (Prod.map emits id) = s.emit key now)

include hemit

theorem Follows.run (h : s.Follows ttl n log) (observations : List (κ × ℕ)) :
    ∃ log' s', run observe emits (log, s) observations = some (log', s') ∧
      s'.Follows ttl n log' := by
  induction observations generalizing s log with
  | nil => exact ⟨log, s, rfl, h⟩
  | cons observation observations ih =>
    obtain ⟨key, now⟩ := observation
    obtain ⟨_, _, hstep, hfollows⟩ := h.emit key now
    obtain ⟨_, hresult, heq⟩ := Option.map_eq_some_iff.mp ((hemit s key now).trans hstep)
    cases heq
    rw [LogSampler.run, hresult]
    exact ih hfollows

/-- What a sampler is to keep, whatever it has emitted. -/
structure Disciplined (ttlSeconds capacity : ℕ) (s : LogSampler κ) (log : List (κ × ℕ)) : Prop where
  bounded : s.emittedAt.keys.length ≤ capacity
  lists : Lists s.insertionOrder s.emittedAt
  spaced : Spaced ttlSeconds capacity log

theorem run_disciplined (ttlSeconds capacity : ℕ) (observations : List (κ × ℕ)) :
    ∃ log s, run observe emits ([], new ttlSeconds capacity) observations = some (log, s) ∧
      Disciplined ttlSeconds (max capacity 1) s log := by
  obtain ⟨n, hn⟩ := Nat.exists_eq_add_of_le (le_max_right capacity 1)
  rw [new, hn, Nat.add_comm]
  obtain ⟨log, s, hrun, h⟩ := (follows_new ttlSeconds n).run hemit observations
  refine ⟨log, s, hrun, ?_, h.lists, h.spaced⟩
  rw [h.lists.length, h.queue, length_reverse]
  exact length_take_le _ _

end Runs

end Queue

end LogSampler

inductive TlsFailureComponent where
  | listener | upstream
  deriving DecidableEq

structure TlsFailureObservation where
  component : TlsFailureComponent
  resourceId : Text
  errorCode : Text
  deriving DecidableEq

structure StructuredLogEvent where
  component : String
  event : String
  fields : List (String × Text)

def structuredTlsFailureLog (observation : TlsFailureObservation) : StructuredLogEvent :=
  let (event, resourceField) := match observation.component with
    | .listener => ("client_auth.handshake.failure", "listener_id")
    | .upstream => ("upstream_tls.handshake.failure", "upstream_id")
  { component := "edge-application", event
    fields := [(resourceField, observation.resourceId), ("error_code", observation.errorCode)] }

abbrev TlsFailureProductSampler := LogSampler TlsFailureObservation

def TlsFailureProductSampler.observe (s : TlsFailureProductSampler)
    (observation : TlsFailureObservation) (now : ℕ) :
    Option (Option StructuredLogEvent × TlsFailureProductSampler) := do
  let (emitted, s) ← s.emit observation now
  some (if emitted then some (structuredTlsFailureLog observation) else none, s)

inductive ResourceMetricKind where
  | connection | payload
  deriving DecidableEq

inductive ResourceRejectionReason where
  | connectionLimit | payloadPressure | failedClosed
  deriving DecidableEq

inductive RequestedBytesBucket where
  | notApplicable | upTo4KiB | kiB4To64 | kiB64To1024 | over1MiB
  deriving DecidableEq

structure ResourceAdmissionLogKey where
  resourceKind : ResourceMetricKind
  reason : ResourceRejectionReason
  requestedBytesBucket : RequestedBytesBucket
  deriving DecidableEq

abbrev ResourceAdmissionLogSampler := LogSampler ResourceAdmissionLogKey

def ResourceAdmissionLogSampler.shouldEmit :
    ResourceAdmissionLogSampler → ResourceAdmissionLogKey → ℕ →
      Option (Bool × ResourceAdmissionLogSampler) :=
  LogSampler.emit

/-- Whatever the two samplers observe, their loops end, they hold no more keys than they have room
for, the queue lists exactly the keys held, and a key that is emitted again too soon has seen the
emission of as many other keys. -/
theorem log_samplers_disciplined (ttlSeconds capacity : ℕ) :
    (∀ observations, ∃ log s, LogSampler.run TlsFailureProductSampler.observe Option.isSome
        ([], .new ttlSeconds capacity) observations = some (log, s) ∧
      s.Disciplined ttlSeconds (max capacity 1) log) ∧
    ∀ observations, ∃ log s, LogSampler.run ResourceAdmissionLogSampler.shouldEmit id
        ([], .new ttlSeconds capacity) observations = some (log, s) ∧
      s.Disciplined ttlSeconds (max capacity 1) log := by
  refine ⟨LogSampler.run_disciplined (fun s key now => ?_) ttlSeconds capacity,
    LogSampler.run_disciplined (fun s key now => ?_) ttlSeconds capacity⟩
  · rw [TlsFailureProductSampler.observe]
    rcases s.emit key now with _ | ⟨_ | _, _⟩ <;> rfl
  · exact congrFun Option.map_id _

end EdgeProxy
