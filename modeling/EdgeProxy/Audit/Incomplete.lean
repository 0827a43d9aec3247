import EdgeProxy.Audit.Room
import EdgeProxy.Lib.Dictionary

/-! # Incomplete operations

An operation is incomplete when no record after its intent closes it. `incomplete_operations` finds
them with one pass over the records in memory. Appending keeps the records in the order of their
segments, so removing the oldest segments removes the oldest records: an intent never outlives the
record that closes it.
-/

namespace EdgeProxy

open Rust Action List Prod

def LedgerRecord.operationId (item : LedgerRecord) : AuditOperationId :=
  item.record.context.operationId

namespace FileAuditLedger

def trackOpen (opened : List AuditOperationId) (item : LedgerRecord) : List AuditOperationId :=
  match item.record.recordKind with
  | .intent => opened.insert item.operationId
  | .terminal | .reconciliation => opened.filter (· ≠ item.operationId)
  | _ => opened

def incompleteOperations (ledger : FileAuditLedger) : List AuditRecord :=
  let opened := ledger.records.foldl trackOpen []
  (ledger.records.filter fun item =>
    item.record.recordKind = .intent && opened.contains item.operationId).map
      LedgerRecord.record

def trackUnresolved (unresolved : Dictionary AuditOperationId AuditRecord) (item : LedgerRecord) :
    Dictionary AuditOperationId AuditRecord :=
  if item.record.recordKind = .reconciliation then
    match item.record.outcome with
    | some .reconciliationUnknown => unresolved.insert item.operationId item.record
    | some .reconciledCommitted | some .reconciledNotCommitted =>
      unresolved.erase item.operationId
    | _ => unresolved
  else unresolved

/-- In the order of insertion; the callers ask only whether there are any. -/
def unresolvedReconciliations (ledger : FileAuditLedger) : List AuditRecord :=
  (ledger.records.foldl trackUnresolved ∅).entries.map Sigma.snd

variable {ledger : FileAuditLedger}

section Unclosed

def Closes (record : AuditRecord) (id : AuditOperationId) : Prop :=
  (record.recordKind = .terminal ∨ record.recordKind = .reconciliation) ∧
    record.context.operationId = id

instance (record : AuditRecord) (id : AuditOperationId) : Decidable (Closes record id) :=
  inferInstanceAs (Decidable (_ ∧ _))

def unclosed : List LedgerRecord → List LedgerRecord
  | [] => []
  | item :: items =>
    if item.record.recordKind = .intent ∧
        ∀ later ∈ items, ¬ Closes later.record item.operationId then
      item :: unclosed items
    else unclosed items

variable {items : List LedgerRecord} {item last : LedgerRecord}

theorem not_closes_of_intent {record : AuditRecord} (h : record.recordKind = .intent)
    (id : AuditOperationId) : ¬ Closes record id := by
  rw [Closes, h]
  simp

theorem unclosed_concat : unclosed (items ++ [last]) =
    (unclosed items).filter (fun item => ¬ Closes last.record item.operationId) ++
      unclosed [last] := by
  induction items with
  | nil => rfl
  | cons first items ih =>
    have hcons (l : List LedgerRecord) : unclosed (first :: l) =
        if first.record.recordKind = .intent ∧ ∀ later ∈ l, ¬ Closes later.record first.operationId
        then first :: unclosed l else unclosed l := rfl
    rw [cons_append, hcons, hcons, ih]
    simp only [forall_mem_append, forall_mem_singleton, ← and_assoc]
    by_cases hfirst : first.record.recordKind = .intent ∧
      ∀ later ∈ items, ¬ Closes later.record first.operationId
    · rw [if_pos hfirst]
      by_cases hlast : Closes last.record first.operationId
      · rw [if_neg fun h => h.2 hlast, filter_cons_of_neg (by simpa using hlast)]
      · rw [if_pos ⟨hfirst, hlast⟩, filter_cons_of_pos (by simpa using hlast), cons_append]
    · rw [if_neg fun h => hfirst h.1, if_neg hfirst]

theorem mem_unclosed_concat : item ∈ unclosed (items ++ [last]) ↔
    item ∈ unclosed items ∧ ¬ Closes last.record item.operationId ∨
      item = last ∧ last.record.recordKind = .intent := by
  have hlast : item ∈ unclosed [last] ↔ item = last ∧ last.record.recordKind = .intent := by
    by_cases h : last.record.recordKind = .intent <;> simp [unclosed, h]
  rw [unclosed_concat, mem_append, mem_filter, hlast, decide_eq_true_eq]

theorem unclosed_suffix {kept : List LedgerRecord} (h : kept <:+ items) :
    unclosed kept <:+ unclosed items := by
  obtain ⟨front, rfl⟩ := h
  induction front with
  | nil => exact suffix_rfl
  | cons _ _ ih =>
    rw [cons_append, unclosed]
    split_ifs
    · exact ih.trans (suffix_cons _ _)
    · exact ih

theorem mem_of_mem_unclosed (h : item ∈ unclosed items) :
    item ∈ items ∧ item.record.recordKind = .intent := by
  induction items with
  | nil => cases h
  | cons _ _ ih =>
    rw [unclosed] at h
    split_ifs at h with hfirst
    · rcases mem_cons.mp h with rfl | h
      · exact ⟨mem_cons_self, hfirst.1⟩
      · exact ⟨mem_cons_of_mem _ (ih h).1, (ih h).2⟩
    · exact ⟨mem_cons_of_mem _ (ih h).1, (ih h).2⟩

theorem mem_foldl_trackOpen {id : AuditOperationId} : id ∈ items.foldl trackOpen [] ↔
    ∃ item ∈ unclosed items, item.operationId = id := by
  induction items using reverseRecOn with
  | nil => simp [unclosed]
  | append_singleton _ last ih =>
    rw [foldl_append, foldl_cons, foldl_nil, trackOpen]
    simp only [mem_unclosed_concat, or_and_right, exists_or]
    rcases hkind : last.record.recordKind
    all_goals simp only [mem_insert_iff, mem_filter, ih, Closes, hkind]
    all_goals simp [LedgerRecord.operationId]
    all_goals grind

theorem mem_incompleteOperations {record : AuditRecord} :
    record ∈ ledger.incompleteOperations ↔ ∃ item ∈ ledger.records, item.record = record ∧
      record.recordKind = .intent ∧
      ∃ opened ∈ unclosed ledger.records, opened.operationId = record.context.operationId := by
  simp only [incompleteOperations, mem_map, mem_filter, Bool.and_eq_true,
    decide_eq_true_eq, contains_iff_mem, mem_foldl_trackOpen]
  constructor
  · rintro ⟨item, ⟨hmem, hkind, hopen⟩, rfl⟩
    exact ⟨item, hmem, rfl, hkind, hopen⟩
  · rintro ⟨item, hmem, rfl, hkind, hopen⟩
    exact ⟨item, ⟨hmem, hkind, hopen⟩, rfl⟩

theorem record_mem_incompleteOperations
    (h : item ∈ unclosed ledger.records) : item.record ∈ ledger.incompleteOperations :=
  mem_incompleteOperations.mpr
    ⟨item, (mem_of_mem_unclosed h).1, rfl, (mem_of_mem_unclosed h).2, item, h, rfl⟩

theorem incompleteOperations_eq_nil_iff :
    ledger.incompleteOperations = [] ↔ unclosed ledger.records = [] := by
  constructor
  · intro h
    refine eq_nil_iff_forall_not_mem.mpr fun item hitem => ?_
    have hrecord := record_mem_incompleteOperations hitem
    rw [h] at hrecord
    cases hrecord
  · intro h
    refine eq_nil_iff_forall_not_mem.mpr fun record hrecord => ?_
    obtain ⟨_, _, _, _, _, hitem, _⟩ := mem_incompleteOperations.mp hrecord
    rw [h] at hitem
    cases hitem

end Unclosed

section Exact

/-- Whether a record closes the operation before its next intent. -/
def closedNext (id : AuditOperationId) : List LedgerRecord → Bool
  | [] => false
  | item :: items =>
    if item.record.recordKind = .intent ∧ item.operationId = id then false
    else Closes item.record id || closedNext id items

/-- The intents that no record closes before the next intent of their operation. -/
def openIntents : List LedgerRecord → List AuditRecord
  | [] => []
  | item :: items =>
    if item.record.recordKind = .intent ∧ closedNext item.operationId items = false then
      item.record :: openIntents items
    else openIntents items

/-- For each intent of the operation, whether it is closed before the next one. -/
def fates (id : AuditOperationId) : List LedgerRecord → List Bool
  | [] => []
  | item :: items =>
    if item.record.recordKind = .intent ∧ item.operationId = id then
      closedNext id items :: fates id items
    else fates id items

variable {items : List LedgerRecord} {id : AuditOperationId}

theorem operationId_record (item : LedgerRecord) :
    item.record.context.operationId = item.operationId := rfl

theorem mem_foldl_trackOpen_iff (opened : List AuditOperationId) :
    id ∈ items.foldl trackOpen opened ↔
      (fates id items).getLast? = some false ∨
        fates id items = [] ∧ closedNext id items = false ∧ id ∈ opened := by
  induction items generalizing opened with
  | nil => simp [fates, closedNext]
  | cons item items ih =>
    rw [foldl_cons, ih, fates, closedNext]
    by_cases hintent : item.record.recordKind = .intent ∧ item.operationId = id
    · rw [if_pos hintent, trackOpen, hintent.1, hintent.2]
      rcases fates id items with _ | ⟨fate, fates⟩
      · simp
      · simp [getLast?_cons_cons]
    · rw [if_neg hintent, if_neg hintent, trackOpen]
      rcases hkind : item.record.recordKind
      all_goals simp only [mem_insert_iff, mem_filter, Closes, hkind]
      all_goals simp [LedgerRecord.operationId] at hintent ⊢
      all_goals grind

theorem countP_openIntents (id : AuditOperationId) (items : List LedgerRecord) :
    (openIntents items).countP (·.context.operationId = id) = (fates id items).count false := by
  induction items with
  | nil => rfl
  | cons item items ih =>
    rw [openIntents, fates]
    by_cases hid : item.operationId = id
    · subst hid
      by_cases hkind : item.record.recordKind = .intent
      · rcases closedNext item.operationId items
        · simpa [hkind, operationId_record] using ih
        · simp [hkind, ih]
      · simp [hkind, ih]
    · rw [if_neg fun h : _ ∧ item.operationId = id => hid h.2, ← ih]
      split_ifs
      · exact countP_cons_of_neg fun h => hid (of_decide_eq_true h)
      · rfl

theorem countP_filter_open (opened : List AuditOperationId) (id : AuditOperationId)
    (items : List LedgerRecord) :
    ((items.filter fun item => item.record.recordKind = .intent &&
        opened.contains item.operationId).map LedgerRecord.record).countP
      (·.context.operationId = id) = if id ∈ opened then (fates id items).length else 0 := by
  induction items with
  | nil => simp [fates]
  | cons item _ ih =>
    rw [filter_cons, fates]
    by_cases hid : item.operationId = id
    · subst hid
      by_cases hkind : item.record.recordKind = .intent
      · by_cases hopen : item.operationId ∈ opened
        · simpa [hkind, hopen, operationId_record] using ih
        · simpa [hkind, hopen] using ih
      · simpa [hkind] using ih
    · rw [if_neg fun h : _ ∧ item.operationId = id => hid h.2, ← ih]
      split_ifs
      · exact countP_cons_of_neg fun h => hid (of_decide_eq_true h)
      · rfl

theorem filter_open_eq {opened : List AuditOperationId}
    (h : ∀ id, ∀ fate ∈ fates id items, fate = false ↔ id ∈ opened) :
    (items.filter fun item => item.record.recordKind = .intent &&
      opened.contains item.operationId).map LedgerRecord.record = openIntents items := by
  induction items with
  | nil => rfl
  | cons item items ih =>
    have hrest := ih fun id fate hfate => h id fate (by
      rw [fates]
      split_ifs
      · exact mem_cons_of_mem _ hfate
      · exact hfate)
    rw [filter_cons, openIntents, ← hrest]
    by_cases hkind : item.record.recordKind = .intent
    · have hfate := h item.operationId (closedNext item.operationId items) (by simp [fates, hkind])
      by_cases hopen : item.operationId ∈ opened
      · simp [hkind, hopen, hfate.mpr hopen]
      · simp [hkind, hopen, mt hfate.mp hopen]
    · simp [hkind]

/-- `incomplete_operations` returns the open intents, each once, exactly for the ledgers in which
the intents of one operation are all closed before the next one or all left open. -/
theorem incomplete_operations_exact_iff (ledger : FileAuditLedger) :
    ledger.incompleteOperations = openIntents ledger.records ↔
      ∀ id, ∀ fate ∈ fates id ledger.records, ∀ other ∈ fates id ledger.records, fate = other := by
  have hopen (id : AuditOperationId) : id ∈ ledger.records.foldl trackOpen [] ↔
      (fates id ledger.records).getLast? = some false := by
    rw [mem_foldl_trackOpen_iff]
    simp
  constructor
  · intro h id
    have hcount := (countP_openIntents id ledger.records).symm
    rw [← h, incompleteOperations, countP_filter_open] at hcount
    split_ifs at hcount
    · intro fate hfate other hother
      have hopen := count_eq_length.mp hcount
      exact (hopen fate hfate).symm.trans (hopen other hother)
    · have hclosed (fate : Bool) (hfate : fate ∈ fates id ledger.records) : fate = true := by
        by_contra hfalse
        rw [Bool.not_eq_true] at hfalse
        exact count_eq_zero.mp hcount (hfalse ▸ hfate)
      intro fate hfate other hother
      rw [hclosed fate hfate, hclosed other hother]
  · intro h
    refine filter_open_eq fun id fate hfate => ?_
    obtain ⟨last, hlast⟩ := Option.isSome_iff_exists.mp
      (getLast?_isSome.mpr (ne_nil_of_mem hfate))
    rw [hopen, hlast, Option.some.injEq, h id fate hfate last (mem_of_getLast? hlast)]

def applyRecord (recordKind : AuditRecordKind) : AuditRecord :=
  ⟨1, recordKind, ⟨sampleId, sampleId, .bootstrapAdmin, 0⟩, .configApply, .configRevision,
    sampleId, none, none, if recordKind = .terminal then some .succeeded else none, none⟩

/-- Two requests with one id: the first is completed, the second has begun. -/
def reusedId : LedgerStore :=
  [.intent, .terminal, .intent].foldl (fun store kind => (append {} (applyRecord kind) store).2)
    ⟨emptyLedger, [(1, [])]⟩

theorem completed_intent_returned :
    reusedId.ledger.records.map LedgerRecord.record =
        [applyRecord .intent, applyRecord .terminal, applyRecord .intent] ∧
      openIntents reusedId.ledger.records = [applyRecord .intent] ∧
      reusedId.ledger.incompleteOperations = [applyRecord .intent, applyRecord .intent] := by
  have hrecords : reusedId.ledger.records = [⟨1, applyRecord .intent, 1⟩,
      ⟨2, applyRecord .terminal, 1⟩, ⟨3, applyRecord .intent, 1⟩] := by decide +kernel
  rw [incompleteOperations, hrecords]
  decide +kernel

end Exact

section Ordered

/-- The records stand in the order of their segments, the last of which is the current one. -/
structure Ordered (ledger : FileAuditLedger) : Prop where
  records : ledger.records.Pairwise fun earlier later => earlier.segment ≤ later.segment
  segments : (ledger.segments.map AuditSegment.number).Pairwise (· < ·)
  known : ∀ item ∈ ledger.records, item.segment ∈ ledger.segments.map AuditSegment.number
  current : (ledger.segments.map AuditSegment.number).getLast? = some ledger.currentSegment

variable {ledger : FileAuditLedger} {store : LedgerStore}

theorem le_of_getLast?_eq {numbers : List ℕ} {last : ℕ} (hsorted : numbers.Pairwise (· < ·))
    (hlast : numbers.getLast? = some last) : ∀ number ∈ numbers, number ≤ last := by
  obtain ⟨_, rfl⟩ := getLast?_eq_some_iff.mp hlast
  intro number hnumber
  rcases mem_append.mp hnumber with hfront | hsame
  · exact ((pairwise_append.mp hsorted).2.2 number hfront last
      (mem_singleton_self last)).le
  · exact (mem_singleton.mp hsame).le

theorem Ordered.segment_le (h : Ordered ledger) {item : LedgerRecord}
    (hitem : item ∈ ledger.records) :
    item.segment ≤ ledger.currentSegment :=
  le_of_getLast?_eq h.segments h.current _ (h.known item hitem)

theorem map_number_extended (record : AuditRecord) (payload : Bytes) :
    (extended record payload store).ledger.segments.map AuditSegment.number =
      store.ledger.segments.map AuditSegment.number := by
  rw [extended]
  rcases eq_nil_or_concat' store.ledger.segments with hnil | ⟨front, last, hsegments⟩
  · simp [hnil]
  · simp [hsegments, extendSegment]

theorem Ordered.extended (h : Ordered store.ledger) (record : AuditRecord) (payload : Bytes) :
    Ordered (extended record payload store).ledger := by
  refine ⟨?_, ?_, ?_, ?_⟩
  · refine pairwise_append.mpr ⟨h.records, pairwise_singleton _ _, ?_⟩
    intro earlier hearlier later hlater
    rw [mem_singleton.mp hlater]
    exact h.segment_le hearlier
  · rw [map_number_extended]
    exact h.segments
  · rw [map_number_extended]
    intro item hitem
    rcases mem_append.mp hitem with hitem | hitem
    · exact h.known item hitem
    · rw [mem_singleton.mp hitem]
      exact mem_of_getLast? h.current
  · rw [map_number_extended]
    exact h.current

theorem Ordered.rotated (h : Ordered ledger) : Ordered (rotated ledger) := by
  have hnumbers : (FileAuditLedger.rotated ledger).segments.map AuditSegment.number =
      ledger.segments.map AuditSegment.number ++ [ledger.currentSegment + 1] := by
    rw [FileAuditLedger.rotated, map_append]
    rfl
  refine ⟨h.records, ?_, ?_, ?_⟩
  · rw [hnumbers]
    refine pairwise_append.mpr ⟨h.segments, pairwise_singleton _ _, ?_⟩
    intro number hnumber later hlater
    rw [mem_singleton.mp hlater]
    exact Nat.lt_succ_of_le (le_of_getLast?_eq h.segments h.current number hnumber)
  · rw [hnumbers]
    exact fun item hitem => mem_append_left _ (h.known item hitem)
  · rw [hnumbers, getLast?_concat]
    rfl

theorem filter_suffix {α : Type} {R : α → α → Prop} {p : α → Bool} {l : List α}
    (h : l.Pairwise R) (hp : ∀ a ∈ l, ∀ b ∈ l, R a b → p a → p b) : l.filter p <:+ l := by
  induction l with
  | nil => exact suffix_rfl
  | cons a l ih =>
    obtain ⟨hfirst, hrest⟩ := pairwise_cons.mp h
    by_cases ha : p a
    · have hall : (a :: l).filter p = a :: l := by
        refine filter_eq_self.mpr fun b hb => ?_
        rcases mem_cons.mp hb with rfl | hmem
        · exact ha
        · exact hp a mem_cons_self b hb (hfirst b hmem) ha
      rw [hall]
    · rw [filter_cons_of_neg ha]
      refine (ih hrest fun b hb c hc => ?_).trans (suffix_cons a l)
      exact hp b (mem_cons_of_mem _ hb) c (mem_cons_of_mem _ hc)

theorem Ordered.records_dropSegments (h : Ordered store.ledger) (count : ℕ) :
    (dropSegments count store).ledger.records <:+ store.ledger.records := by
  refine filter_suffix h.records fun earlier hearlier later _ hle hkept => ?_
  rw [decide_eq_true_eq] at hkept ⊢
  intro hremoved
  refine hkept ?_
  have hsplit : store.ledger.segments.map AuditSegment.number =
      (store.ledger.segments.take count).map AuditSegment.number ++
        (store.ledger.segments.drop count).map AuditSegment.number := by
    rw [← map_append, take_append_drop]
  have hknown := h.known earlier hearlier
  have hsorted := h.segments
  rw [hsplit] at hknown hsorted
  rcases mem_append.mp hknown with hfront | hback
  · exact hfront
  · have hlt := (pairwise_append.mp hsorted).2.2 _ hremoved _ hback
    omega

theorem Ordered.dropSegments (h : Ordered store.ledger) {count : ℕ}
    (hcount : count < store.ledger.segments.length) :
    Ordered (dropSegments count store).ledger := by
  have hnumbers : (FileAuditLedger.dropSegments count store).ledger.segments.map
      AuditSegment.number = (store.ledger.segments.map AuditSegment.number).drop count :=
    map_drop
  refine ⟨h.records.sublist (h.records_dropSegments count).sublist, ?_, ?_, ?_⟩
  · rw [hnumbers]
    exact h.segments.sublist (drop_sublist _ _)
  · intro item hitem
    obtain ⟨hmem, hkept⟩ := mem_filter.mp hitem
    rw [decide_eq_true_eq, map_take] at hkept
    have hknown := h.known item hmem
    rw [← take_append_drop count (store.ledger.segments.map AuditSegment.number)] at hknown
    rw [hnumbers]
    exact (mem_append.mp hknown).resolve_left hkept
  · rw [hnumbers, getLast?_drop, if_neg (by rw [length_map]; omega)]
    exact h.current

end Ordered

section Append

variable {options : AuditLedgerOptions} {P : LedgerRecord → Prop} {floor : ℕ} {store : LedgerStore}
  {record : AuditRecord}

/-- The ledger is past `floor`, and only operations that `P` allows are open. -/
structure Tracks (P : LedgerRecord → Prop) (floor : ℕ) (store : LedgerStore) : Prop where
  ordered : Ordered store.ledger
  floor : floor ≤ store.ledger.head.sequence
  unclosed : ∀ item ∈ unclosed store.ledger.records, P item

theorem Tracks.mono {Q : LedgerRecord → Prop} (h : Tracks P floor store)
    (hP : ∀ item ∈ FileAuditLedger.unclosed store.ledger.records, P item → Q item) :
    Tracks Q floor store :=
  ⟨h.ordered, h.floor, fun item hitem => hP item hitem (h.unclosed item hitem)⟩

variable {payload : Bytes} (hnew : ∀ item : LedgerRecord, item.record = record →
  record.recordKind = .intent → floor < item.sequence → P item)

include hnew in
theorem Tracks.published (h : Tracks P floor store) :
    Tracks (fun item => P item ∧ ¬ Closes record item.operationId) floor
      (published record payload store) := by
  have hordered := h.ordered.extended record payload
  refine ⟨⟨hordered.records, hordered.segments, hordered.known, hordered.current⟩,
    h.floor.trans (Nat.le_succ _), fun item hitem => ?_⟩
  rcases mem_unclosed_concat.mp hitem with ⟨hmem, hopen⟩ | ⟨rfl, hintent⟩
  · exact ⟨h.unclosed item hmem, hopen⟩
  · exact ⟨hnew _ rfl hintent (Nat.lt_succ_of_le h.floor), not_closes_of_intent hintent _⟩

include hnew in
theorem holds_appendEncoded :
    Holds (Tracks P floor) (appendEncoded record payload)
      (fun _ store => Tracks (fun item => P item ∧ ¬ Closes record item.operationId) floor store ∧
        store.ledger.state = .publishedHead)
      fun _ => Tracks P floor := by
  refine holds_of_ends fun store hstore => ?_
  rcases appendEncoded_cases record payload store with ⟨_, h⟩ | ⟨_, h⟩
  · rw [h]
    exact hstore
  · rw [h]
    exact ⟨hstore.published hnew, rfl⟩

theorem Tracks.state (h : Tracks P floor store) (state : AuditLedgerIoState) :
    Tracks P floor { store with ledger.state := state } :=
  ⟨⟨h.ordered.records, h.ordered.segments, h.ordered.known, h.ordered.current⟩, h.floor, h.unclosed⟩

theorem Tracks.retained (h : Tracks P floor store) (payload : Bytes)
    (hkind : record.recordKind = .retentionCheckpoint) {count : ℕ}
    (hlt : count < store.ledger.segments.length) :
    Tracks P floor (dropSegments count (FileAuditLedger.published record payload store)) := by
  have hpublished : Tracks (fun item => P item ∧ ¬ Closes record item.operationId) floor
      (FileAuditLedger.published record payload store) := h.published (by simp [hkind])
  have hlength : (FileAuditLedger.published record payload store).ledger.segments.length =
      store.ledger.segments.length := by
    rw [← length_map AuditSegment.number, ← length_map AuditSegment.number]
    exact congrArg length (map_number_extended record payload)
  refine ⟨hpublished.ordered.dropSegments (by rwa [hlength]), hpublished.floor,
    fun item hitem => ?_⟩
  have hsuffix := unclosed_suffix (hpublished.ordered.records_dropSegments count)
  exact (hpublished.unclosed item (hsuffix.subset hitem)).1

theorem holds_prepareStorage (nextFrameBytes timestamp : ℕ) :
    Ensures (Tracks P floor) (prepareStorage options nextFrameBytes timestamp)
      (Tracks P floor) := by
  have hrotate : Ensures (Tracks P floor) rotateSegment (Tracks P floor) := by
    refine holds_of_ends fun store hstore => ?_
    rcases rotateSegment_cases store with ⟨_, h⟩ | ⟨_, h⟩
    · rw [h]
      exact hstore
    · rw [h]
      exact ⟨hstore.ordered.rotated, hstore.floor, hstore.unclosed⟩
  have hretain : Ensures (Tracks P floor) (retainIfRequired options nextFrameBytes timestamp)
      (Tracks P floor) :=
    ensures_retainIfRequired (fun _ _ _ payload htemplate hcount ht =>
      ht.retained payload (retentionRecord_eq_ok htemplate).2.1 (removalCount_eq_ok hcount).2.1)
      fun _ ht => ht.state .degraded
  refine holds_of_ends fun store hstore => ?_
  rw [prepareStorage]
  split_ifs
  · exact hstore
  · have hbegun := holds_orDegrade hrotate fun _ _ ht => ht.state .degraded
    exact (hbegun.bind fun _ => hretain).ends hstore

include hnew in
theorem holds_append (options : AuditLedgerOptions) :
    Holds (Tracks P floor) (append options record)
      (fun _ store => Tracks (fun item => P item ∧ ¬ Closes record item.operationId) floor store ∧
        store.ledger.state = .publishedHead)
      fun _ => Tracks P floor :=
  holds_append_of holds_prepareStorage (fun _ => holds_appendEncoded hnew) fun _ _ => id

end Append

section Open

variable {options : AuditLedgerOptions} {first number : ℕ} {state next : ScanState} {bytes : Bytes}

theorem AddsFrom.sorted {added : List ScannedRecord} (h : ∀ item ∈ added, item.segment = number) :
    added.Pairwise fun earlier later => earlier.segment ≤ later.segment := by
  refine pairwise_of_forall_mem_list fun earlier hearlier later hlater => ?_
  rw [h earlier hearlier, h later hlater]

variable {files : Directory}

theorem scanFiles_ordered {scan : DirectoryScan} (hfiles : (files.map fst).Pairwise (· < ·))
    (h : scanFiles options first files state = .ok scan) :
    scan.segments.map AuditSegment.number = files.map fst ∧
      scan.directory.map fst = files.map fst ∧
      ∃ added, scan.state.records = state.records ++ added ∧
        (added.Pairwise fun earlier later => earlier.segment ≤ later.segment) ∧
        ∀ item ∈ added, item.segment ∈ files.map fst := by
  induction files generalizing state scan with
  | nil =>
    cases h
    exact ⟨rfl, rfl, [], (append_nil _).symm, List.Pairwise.nil, by simp⟩
  | cons file _ ih =>
    obtain ⟨number, bytes⟩ := file
    rw [map_cons, pairwise_cons] at hfiles
    rw [scanFiles] at h
    rcases hscan : scanSegment options first number state bytes with next | ⟨next, left⟩ | error
    · rw [hscan] at h
      obtain ⟨_, hrest, h⟩ := bind_eq_ok.mp h
      cases h
      obtain ⟨hsegments, hdirectory, later, hrecords, hsorted, hknown⟩ := ih hfiles.2 hrest
      obtain ⟨added, hnext, hadded⟩ := addsFrom_of_scanFrames (congrArg SegmentScan.last hscan)
      refine ⟨congrArg (number :: ·) hsegments, congrArg (number :: ·) hdirectory, added ++ later,
        ?_, pairwise_append.mpr ⟨?_, hsorted, ?_⟩, ?_⟩
      · rw [← append_assoc, ← hnext]
        exact hrecords
      · exact AddsFrom.sorted hadded
      · intro item hitem item' hitem'
        rw [hadded item hitem]
        exact (hfiles.1 _ (hknown item' hitem')).le
      · intro item hitem
        rcases mem_append.mp hitem with hitem | hitem
        · rw [hadded item hitem]
          exact mem_cons_self
        · exact mem_cons_of_mem _ (hknown item hitem)
    · rw [hscan] at h
      simp only at h
      split_ifs at h with hlast
      obtain ⟨added, hnext, hadded⟩ := addsFrom_of_scanFrames (congrArg SegmentScan.last hscan)
      cases h
      obtain rfl := hlast.2
      refine ⟨rfl, rfl, added, hnext, AddsFrom.sorted hadded, fun item hitem => ?_⟩
      rw [hadded item hitem]
      exact mem_cons_self
    · rw [hscan] at h
      cases h

theorem ordered_ofScan {scan : DirectoryScan} (start : ℕ) (hnil : files ≠ [])
    (hfiles : (files.map fst).Pairwise (· < ·))
    (h : scanFiles options first files ScanState.initial = .ok scan) :
    Ordered (ofScan start scan) := by
  obtain ⟨hsegments, hdirectory, added, hrecords, hsorted, hknown⟩ := scanFiles_ordered hfiles h
  have hadded : scan.state.records = added := hrecords
  refine ⟨?_, ?_, ?_, ?_⟩
  · change (scan.state.records.map _).Pairwise _
    rw [hadded]
    exact pairwise_map.mpr hsorted
  · change (scan.segments.map AuditSegment.number).Pairwise (· < ·)
    rwa [hsegments]
  · change ∀ item ∈ scan.state.records.map _,
      LedgerRecord.segment item ∈ scan.segments.map AuditSegment.number
    rw [hsegments, hadded]
    intro item hitem
    obtain ⟨scanned, hscanned, rfl⟩ := mem_map.mp hitem
    exact hknown scanned hscanned
  · change (scan.segments.map AuditSegment.number).getLast? =
      some ((scan.directory.getLast?.map fst).getD 1)
    rw [hsegments, ← getLast?_map, hdirectory]
    rcases hlast : (files.map fst).getLast? with _ | last
    · exact absurd (map_eq_nil_iff.mp (getLast?_eq_none_iff.mp hlast)) hnil
    · rfl

variable {directory : Directory}

theorem pairwise_of_discoverSegments
    (h : discoverSegments directory = .ok files) : (files.map fst).Pairwise (· < ·) := by
  rw [discoverSegments] at h
  split_ifs at h with _ hnumbers
  cases h
  rw [not_not.mp hnumbers]
  exact pairwise_lt_range'

theorem takes_ofScan (scan : DirectoryScan) : Takes (ofScan first scan).state := by
  rw [ofScan, Takes]
  split_ifs
  · exact .inr (.inr rfl)
  · exact .inl rfl

theorem recordRecovery_ordered {context : AuditContext} {store store' : LedgerStore}
    {head : AuditLedgerHead} (hordered : Ordered store.ledger)
    (h : recordRecovery options context store = (.ok head, store')) :
    Ordered store'.ledger ∧ Takes store'.ledger.state := by
  obtain ⟨record, begun, hlift, happend⟩ := Action.bind_eq_ok.mp h
  obtain ⟨_, rfl⟩ := liftLedger_eq_ok hlift
  have htracks : Tracks (fun _ => True) 0 begun := ⟨hordered, Nat.zero_le _, fun _ _ => trivial⟩
  have hnew (item : LedgerRecord) (_ : item.record = record) (_ : record.recordKind = .intent)
      (_ : 0 < item.sequence) : True := trivial
  have hends := (holds_append hnew options).ends htracks
  rw [happend] at hends
  exact ⟨hends.1.ordered, .inr (.inl hends.2)⟩

theorem finishOpen_ordered (hnil : files ≠ []) (hfiles : (files.map fst).Pairwise (· < ·))
    (h : finishOpen options files = (.ok ledger, directory)) :
    Ordered ledger ∧ Takes ledger.state := by
  rcases hscan : scanFiles options (firstNumber files) files ScanState.initial with error | scan
  · rw [finishOpen, scanSegments, hscan] at h
    cases h
  · have hordered (start : ℕ) := ordered_ofScan start hnil hfiles hscan
    by_cases hanchor : anchorValid scan.state
    · have hsegments : scanSegments options files = (.ok scan, scan.directory) := by
        rw [scanSegments, hscan]
        exact if_pos hanchor
      rw [finishOpen, hsegments] at h
      rcases hcontext : options.recoveryContext with _ | context
      · rw [hcontext] at h
        cases h
        exact ⟨hordered _, takes_ofScan scan⟩
      · simp only [hcontext] at h
        split_ifs at h
        · generalize hrecovery : recordRecovery options context _ = recovery at h
          obtain ⟨error | head, _⟩ := recovery
          · cases h
          · cases h
            exact recordRecovery_ordered (hordered _) hrecovery
        · cases h
          exact ⟨hordered _, takes_ofScan scan⟩
    · have hsegments : ∃ error, scanSegments options files = (.error error, scan.directory) := by
        rw [scanSegments, hscan]
        exact ⟨_, if_neg hanchor⟩
      obtain ⟨_, hsegments⟩ := hsegments
      rw [finishOpen, hsegments] at h
      cases h

theorem openLedger_ordered {directory' : Directory}
    (h : openLedger options directory = (.ok ledger, directory')) :
    Ordered ledger ∧ Takes ledger.state := by
  rw [openLedger] at h
  split_ifs at h
  · rcases hfiles : discoverSegments directory with error | files
    · rw [hfiles] at h
      cases h
    · rw [hfiles] at h
      rcases files with _ | ⟨file, files⟩
      · exact finishOpen_ordered (by simp) (by simp) h
      · exact finishOpen_ordered (by simp) (pairwise_of_discoverSegments hfiles) h
  · cases h

end Open

end FileAuditLedger

end EdgeProxy
