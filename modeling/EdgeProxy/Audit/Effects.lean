import EdgeProxy.Audit.Reopen

/-! # The effects of an append on the files

An append creates a file, writes frames and removes files, one effect after the other. When it
succeeds, the effects in this order turn the old directory into the new one. A process that stops
inside an append leaves the effects before some point, and of a write any front.
-/

namespace EdgeProxy

open Rust List

namespace FileAuditLedger

inductive FileEffect where
  | create (number : ℕ)
  | write (number : ℕ) (bytes : Bytes)
  | remove (number : ℕ)

def FileEffect.apply (directory : Directory) : FileEffect → Directory
  | create number => directory ++ [(number, [])]
  | write number bytes => Directory.write directory number bytes
  | remove number => directory.filter fun file => file.1 ≠ number

section Effects

variable (options : AuditLedgerOptions)

def retentionEffects (nextFrameBytes timestamp : ℕ) (ledger : FileAuditLedger) : List FileEffect :=
  match retentionRecord timestamp ledger.currentSegment with
  | .error _ => []
  | .ok template =>
    match removalCount options ledger template nextFrameBytes ledger.segments.length 0 with
    | .error _ => []
    | .ok count =>
      let payload := encodeRecordWithRetention template (some (ledger.removedRange count))
      match checkCheckpoint options payload nextFrameBytes with
      | .error _ => []
      | .ok () =>
        .write ledger.currentSegment (encodeFrame ledger.link payload) ::
          (ledger.segments.take count).map fun segment => .remove segment.number

def prepareEffects (nextFrameBytes timestamp : ℕ) (store : LedgerStore) : List FileEffect :=
  if store.ledger.currentSegmentBytes = 0 ∨
      store.ledger.currentSegmentBytes + nextFrameBytes ≤ options.maxSegmentBytes then []
  else
    match rotateSegment store with
    | (.error _, _) => []
    | (.ok _, rotated) =>
      .create rotated.ledger.currentSegment ::
        if rotated.ledger.retentionRequired options nextFrameBytes then
          retentionEffects options nextFrameBytes timestamp rotated.ledger
        else []

def appendEffects (record : AuditRecord) (store : LedgerStore) : List FileEffect :=
  match (ensureWritable store).1, checkRecord options record with
  | .ok _, .ok payload =>
    prepareEffects options (frameBytes payload) record.context.receivedAtEpochSeconds store ++
      match prepareStorage options (frameBytes payload) record.context.receivedAtEpochSeconds
        store with
      | (.error _, _) => []
      | (.ok _, prepared) =>
        [.write prepared.ledger.currentSegment (encodeFrame prepared.ledger.link payload)]
  | _, _ => []

end Effects

section Applied

variable {options : AuditLedgerOptions} {store store' : LedgerStore}

variable {record : AuditRecord} {head : AuditLedgerHead}

theorem appendEncoded_directory {payload : Bytes}
    (h : appendEncoded record payload store = (.ok head, store')) :
    store'.directory = Directory.write store.directory store.ledger.currentSegment
      (encodeFrame store.ledger.link payload) := by
  rcases appendEncoded_cases record payload store with ⟨error, herror⟩ | ⟨_, hok⟩
  · rw [herror] at h
    cases h
  · rw [hok] at h
    cases h
    rfl

theorem numbers_published (record : AuditRecord) (payload : Bytes) (store : LedgerStore) :
    (published record payload store).ledger.segments.map AuditSegment.number =
      store.ledger.segments.map AuditSegment.number := by
  rw [published, extended]
  rcases hlast : store.ledger.segments.getLast? with _ | segment
  · rw [getLast?_eq_none_iff.mp hlast]
    rfl
  · obtain ⟨front, hfront⟩ := getLast?_eq_some_iff.mp hlast
    simp [hfront, extendSegment]

theorem appendEncoded_numbers {payload : Bytes}
    (h : appendEncoded record payload store = (.ok head, store')) :
    store'.ledger.segments.map AuditSegment.number =
      store.ledger.segments.map AuditSegment.number := by
  rcases appendEncoded_cases record payload store with ⟨error, herror⟩ | ⟨_, hok⟩
  · rw [herror] at h
    cases h
  · rw [hok] at h
    cases h
    exact numbers_published record payload store

theorem foldl_remove (numbers : List ℕ) (directory : Directory) :
    (numbers.map FileEffect.remove).foldl FileEffect.apply directory =
      directory.filter fun file => file.1 ∉ numbers := by
  induction numbers generalizing directory with
  | nil => simp
  | cons _ _ ih =>
    rw [map_cons, foldl_cons, ih, FileEffect.apply, filter_filter]
    congr 1
    funext file
    simp [not_or, Bool.and_comm]

theorem retainFor_directory {nextFrameBytes timestamp : ℕ}
    (h : retainFor options nextFrameBytes timestamp store = (.ok ⟨⟩, store')) :
    store'.directory = (retentionEffects options nextFrameBytes timestamp store.ledger).foldl
      FileEffect.apply store.directory := by
  rw [retainFor, Action.read_bind] at h
  obtain ⟨template, _, hlift, hcounted⟩ := Action.bind_eq_ok.mp h
  obtain ⟨htemplate, hsame⟩ := liftLedger_eq_ok hlift
  rw [hsame] at hcounted
  obtain ⟨count, _, hlift, hchecked⟩ := Action.bind_eq_ok.mp hcounted
  obtain ⟨hcount, hsame⟩ := liftLedger_eq_ok hlift
  rw [hsame] at hchecked
  obtain ⟨_, _, hlift, hstored⟩ := Action.bind_eq_ok.mp hchecked
  obtain ⟨hcheck, hsame⟩ := liftLedger_eq_ok hlift
  rw [hsame] at hstored
  obtain ⟨head, stored, happend, hdropped⟩ := Action.bind_eq_ok.mp hstored
  have hdirectory := appendEncoded_directory happend
  have hnumbers := appendEncoded_numbers happend
  obtain ⟨-, rfl⟩ := Prod.mk.inj hdropped
  have hremoved : ((store.ledger.segments.take count).map fun segment =>
      FileEffect.remove segment.number) =
        ((stored.ledger.segments.take count).map AuditSegment.number).map FileEffect.remove := by
    have htake : (stored.ledger.segments.take count).map AuditSegment.number =
        (store.ledger.segments.take count).map AuditSegment.number := by
      rw [map_take, map_take, hnumbers]
    rw [htake, map_map]
    rfl
  rw [retentionEffects, htemplate]
  simp only [hcount, hcheck, foldl_cons]
  rw [hremoved, foldl_remove, FileEffect.apply, ← hdirectory]
  rfl

theorem prepareStorage_directory {nextFrameBytes timestamp : ℕ}
    (h : prepareStorage options nextFrameBytes timestamp store = (.ok ⟨⟩, store')) :
    store'.directory = (prepareEffects options nextFrameBytes timestamp store).foldl
      FileEffect.apply store.directory := by
  rw [prepareStorage] at h
  rw [prepareEffects]
  split_ifs at h ⊢ with hkept
  · obtain ⟨-, rfl⟩ := Prod.mk.inj h
    rfl
  · obtain ⟨_, rotated, hrotate, h⟩ := Action.bind_eq_ok.mp h
    have hrotated := orDegrade_eq_ok hrotate
    have hdirectory : rotated.directory =
        store.directory ++ [(rotated.ledger.currentSegment, [])] := by
      rw [rotateSegment] at hrotated
      split_ifs at hrotated
      · cases hrotated
      · obtain ⟨-, rfl⟩ := Prod.mk.inj hrotated
        rfl
    rw [hrotated]
    simp only [foldl_cons, FileEffect.apply, ← hdirectory]
    rw [retainIfRequired] at h
    split_ifs at h ⊢ with hrequired
    · exact retainFor_directory (orDegrade_eq_ok h)
    · obtain ⟨-, rfl⟩ := Prod.mk.inj h
      rfl

/-- The effects of a successful append are what it does to the directory. -/
theorem append_directory (h : append options record store = (.ok head, store')) :
    store'.directory =
      (appendEffects options record store).foldl FileEffect.apply store.directory := by
  rw [append] at h
  obtain ⟨_, checked, hwritable, hrest⟩ := Action.bind_eq_ok.mp h
  have hsame : checked = store := by
    rw [ensureWritable] at hwritable
    split_ifs at hwritable
    · cases hwritable
    · exact (Prod.mk.inj hwritable).2.symm
  rw [hsame] at hrest
  obtain ⟨payload, _, hlift, hpreparing⟩ := Action.bind_eq_ok.mp hrest
  obtain ⟨hcheck, hsame⟩ := liftLedger_eq_ok hlift
  rw [hsame] at hpreparing
  obtain ⟨_, prepared, hprepare, happend⟩ := Action.bind_eq_ok.mp hpreparing
  rw [appendEffects, hwritable, hcheck]
  simp only [hprepare, foldl_append, foldl_cons, foldl_nil, FileEffect.apply]
  rw [← prepareStorage_directory hprepare]
  exact appendEncoded_directory happend

end Applied

inductive Stops : List FileEffect → Directory → Directory → Prop
  | before (effects : List FileEffect) (directory : Directory) : Stops effects directory directory
  | within {number : ℕ} {bytes front : Bytes} {effects : List FileEffect} {directory : Directory} :
      front <+: bytes →
      Stops (.write number bytes :: effects) directory (Directory.write directory number front)
  | after {effect : FileEffect} {effects : List FileEffect} {directory left : Directory} :
      Stops effects (effect.apply directory) left → Stops (effect :: effects) directory left

theorem stops_foldl (effects : List FileEffect) (directory : Directory) :
    Stops effects directory (effects.foldl FileEffect.apply directory) := by
  induction effects generalizing directory with
  | nil => exact .before _ _
  | cons _ _ ih => exact .after (ih _)

end FileAuditLedger

end EdgeProxy
