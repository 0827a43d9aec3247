import EdgeProxy.Core.Charges
import EdgeProxy.Core.Conservation

/-! # Who owns the live charges

Every live charge of the ledger is installed in one slot of one connection, or it is a replacement
for an upstream charge that was reserved and is neither committed nor released. `Owned` says this
for one connection, with the charges of everyone else as a set that its operations leave alone; the
rules for it follow the operations of `ConnectionPayloadCharges`. `Balanced` says it for all
connections that share the ledger.
-/

namespace EdgeProxy

open Rust Action PayloadBudgetLedger ConnectionPayloadCharges Option AList

namespace PayloadBudgetLedger

variable {G : ℕ} {S : Set ℕ}

/-- The accounts are in order, the live charges are those of `S`, and each can be released. -/
structure Sound (G : ℕ) (S : Set ℕ) (l : PayloadBudgetLedger) : Prop where
  conserved : Conserved l
  generation : l.generation = G
  live : ∀ id, id ∈ l.charges ↔ id ∈ S
  current : ∀ id charge, l.charges.lookup id = some charge →
    charge.generation = G ∧ charge.state.isTerminal = false

section Rules

theorem Sound.pressure {l : PayloadBudgetLedger} (h : Sound G S l)
    (pressureState : ResourcePressureState) : Sound G S { l with pressureState } :=
  ⟨(refused_pressure pressureState).conserved h.conserved, h.generation, h.live, h.current⟩

theorem Sound.replaced {l : PayloadBudgetLedger} (h : Sound G S l) {id usedBytes : ℕ}
    {old : PayloadCharge} (new : PayloadCharge) {pressureState : ResourcePressureState}
    (hlookup : l.charges.lookup id = some old)
    (hdone : Done l none { l with usedBytes, charges := l.charges.insert id new, pressureState })
    (hnew : new.generation = G ∧ new.state.isTerminal = false) :
    Sound G S { l with usedBytes, charges := l.charges.insert id new, pressureState } := by
  have hmem : id ∈ l.charges := lookup_isSome.mp (by rw [hlookup]; rfl)
  refine ⟨hdone.conserved h.conserved, h.generation, fun id' => ?_, fun id' charge hc => ?_⟩
  · rw [mem_insert, ← h.live]
    exact ⟨fun h => h.elim (fun h => h ▸ hmem) fun h => h, .inr⟩
  · by_cases hid : id' = id
    · subst hid
      rw [lookup_insert] at hc
      exact some.inj hc ▸ hnew
    · rw [lookup_insert_ne hid] at hc
      exact h.current id' charge hc

/-- A method that leaves the live charges and the total as they are. -/
abbrev Adjusts {α : Type} (x : LedgerAction α) : Prop :=
  ∀ G S, Action.Ensures (Sound G S) x (Sound G S)

variable (id : ResourceChargeId) (bytes generation : ℕ)

theorem adjusts_replaceChargeBytes (bytes : ℕ) : Adjusts (replaceChargeBytes id bytes) := by
  refine fun G S => holds_of_ends fun l h => ?_
  rw [replaceChargeBytes]
  rcases hlookup : l.charges.lookup id with _ | charge
  · split_ifs
    · exact h.pressure _
    · exact h.pressure _
  · simp only
    split_ifs with hzero hbelow hword hlimit
    · exact h.pressure _
    · exact h.pressure _
    · exact h
    · exact h.pressure _
    · have hused : l.usedBytes - charge.chargedBytes + bytes + charge.chargedBytes =
          l.usedBytes + bytes := by omega
      exact h.replaced { charge with chargedBytes := bytes } hlookup
        (.replaced id charge _ _ _ hlookup (fun _ => Nat.pos_of_ne_zero hzero) hused fun _ =>
          Nat.le_of_not_lt hlimit) (h.current id charge hlookup)

theorem adjusts_setState {state : ResourceChargeState} (message : String)
    (hstate : state.isTerminal = false) : Adjusts (setState id state message) := by
  refine fun G S => holds_of_ends fun l h => ?_
  rw [setState]
  rcases hlookup : l.charges.lookup id with _ | charge
  · exact h.pressure _
  · exact h.replaced { charge with state } hlookup
      (.replaced id charge _ _ _ hlookup (fun hpos => hpos) rfl fun hroom => hroom)
      ⟨(h.current id charge hlookup).1, hstate⟩

theorem adjusts_resize : Adjusts (resize id bytes generation) := by
  refine fun G S => holds_of_ends fun l h => (holds_acting (fun _ => h.pressure _) ?_).ends rfl
  refine fun charge _ => holds_unless (fun _ => h.pressure _) ?_
  exact (adjusts_replaceChargeBytes _ _ G S).pre fun _ hs => hs ▸ h

theorem adjusts_commit : Adjusts (commit id bytes generation) := by
  refine fun G S => holds_of_ends fun l h => (holds_acting (fun _ => h.pressure _) ?_).ends rfl
  refine fun charge _ => holds_unless (fun _ => h.pressure _) ?_
  refine Holds.pre (P := Sound G S) ?_ fun _ hs => hs ▸ h
  exact (adjusts_replaceChargeBytes _ _ G S).bind fun _ => adjusts_setState _ _ rfl G S

theorem adjusts_grow (additionalBytes generation : ℕ) :
    Adjusts (grow id additionalBytes generation) := by
  refine fun G S => holds_of_ends fun l h => Holds.ends (P := (· = l)) ?_ rfl
  refine (holds_requireGeneration (fun _ => h.pressure _) _).bind fun _ => ?_
  refine Holds.ite (fun _ => holds_pure fun _ hs => hs ▸ h) fun _ => ?_
  refine (holds_liveCharge (fun _ => h.pressure _) _ _).bind fun charge => ?_
  refine Holds.pre (P := Sound G S) ?_ fun _ hs => hs.1 ▸ h
  exact Holds.ite (fun _ _ h => h.pressure _) fun _ => adjusts_resize _ _ _ G S

theorem sound_reserve (connectionId : ℕ) (payloadClass : PayloadClass) (bytes generation : ℕ) :
    Holds (Sound generation S) (reserve connectionId payloadClass bytes generation)
      (fun id l => id ∉ S ∧ Sound generation (insert id S) l) fun _ => Sound generation S := by
  refine holds_of_ends fun l h => ?_
  rw [reserve]
  split_ifs with _ _ hzero _ hlimit
  · exact h
  · exact h.pressure _
  · exact h.pressure _
  · exact h
  · exact h.pressure _
  · exact h.pressure _
  · have hfresh : l.nextChargeId ∉ S := fun hmem =>
      (h.conserved.fresh _ ((h.live _).mpr hmem)).false
    let charge : PayloadCharge := ⟨connectionId, payloadClass, bytes, generation, .granted⟩
    have hdone := Done.admitted (l := l) charge (refreshedPressure { l with
      nextChargeId := l.nextChargeId + 1
      usedBytes := l.usedBytes + bytes
      charges := l.charges.insert l.nextChargeId charge })
      (Nat.pos_of_ne_zero hzero) (Nat.le_of_not_lt hlimit)
    refine ⟨hfresh, hdone.conserved h.conserved, h.generation, fun id => ?_, fun id c hc => ?_⟩
    · exact (mem_insert _).trans (or_congr Iff.rfl (h.live id))
    · by_cases hid : id = l.nextChargeId
      · subst hid
        have hcharge : some charge = some c := (lookup_insert _).symm.trans hc
        cases hcharge
        exact ⟨rfl, rfl⟩
      · exact h.current id c ((lookup_insert_ne hid).symm.trans hc)

theorem sound_release {id : ResourceChargeId} (hid : id ∈ S) (generation : ℕ) :
    Holds (Sound generation S) (release id generation)
      (fun _ => Sound generation (S \ {id})) fun _ _ => False := by
  refine holds_of_ends fun l h => ?_
  obtain ⟨charge, hlookup⟩ : ∃ charge, l.charges.lookup id = some charge :=
    isSome_iff_exists.mp (lookup_isSome.mpr ((h.live id).mpr hid))
  obtain ⟨hgeneration, hterminal⟩ := h.current id charge hlookup
  have hused : charge.chargedBytes ≤ l.usedBytes := by
    rw [h.conserved.used]
    exact Table.le_total hlookup
  obtain rfl := h.generation
  have hremove : removeLiveCharge id l.generation l = (.ok ⟨⟩, refreshPressureAfterUsageChange
      { l with charges := l.charges.erase id, usedBytes := l.usedBytes - charge.chargedBytes }) :=
    (bind_ok (liveCharge_ok hlookup hgeneration hterminal)).trans
      (if_neg (Nat.not_lt.mpr hused))
  rw [release, bind_ok requireGeneration_self, hremove]
  have hdone := Done.removed id charge (l.usedBytes - charge.chargedBytes)
    (refreshedPressure { l with
    charges := l.charges.erase id
    usedBytes := l.usedBytes - charge.chargedBytes }) hlookup (Nat.sub_add_cancel hused)
  refine ⟨hdone.conserved h.conserved, rfl, fun id' => ?_, fun id' c hc => ?_⟩
  · exact mem_erase.trans ((and_congr Iff.rfl (h.live id')).trans and_comm)
  · by_cases hid' : id' = id
    · subst hid'
      have hnone : none = some c := (lookup_erase _ _).symm.trans hc
      cases hnone
    · exact h.current id' c ((lookup_erase_ne hid').symm.trans hc)

theorem sound_release_dead {id : ResourceChargeId} (hid : id ∉ S) (generation : ℕ) :
    Holds (Sound generation S) (release id generation) (fun _ _ => False)
      fun _ => Sound generation S := by
  refine holds_of_ends fun l h => ?_
  have hlookup : l.charges.lookup id = none :=
    lookup_eq_none.mpr fun hmem => hid ((h.live id).mp hmem)
  have hremove : removeLiveCharge id generation l =
    failAccounting "resource charge is not live" l :=
    bind_error (by simp only [liveCharge, hlookup]; rfl)
  obtain rfl := h.generation
  rw [release, bind_ok requireGeneration_self, hremove]
  exact h.pressure _

end Rules

end PayloadBudgetLedger

namespace ConnectionPayloadCharges

variable {c : ConnectionPayloadCharges} {p : PayloadClass} {id : ResourceChargeId} {O : Set ℕ}

def ids (c : ConnectionPayloadCharges) : Set ℕ := {id | ∃ p, c.slot p = some id}

/-- No charge is installed twice, and none belongs to `O`. -/
structure Apart (c : ConnectionPayloadCharges) (O : Set ℕ) : Prop where
  once : ∀ p p' id, c.slot p = some id → c.slot p' = some id → p = p'
  disjoint : ∀ p id, c.slot p = some id → id ∉ O

theorem slot_set_ne {p' : PayloadClass} (h : p' ≠ p) (id : Option ResourceChargeId) :
    (c.set p id).slot p' = c.slot p' := by
  simp [set, h]

theorem set_set (c : ConnectionPayloadCharges) (p : PayloadClass)
    (id id' : Option ResourceChargeId) : (c.set p id).set p id' = c.set p id' := by
  simp [set]

theorem slot_set_eq_some {p' : PayloadClass} {next : Option ResourceChargeId} :
    (c.set p next).slot p' = some id ↔ p' = p ∧ next = some id ∨ p' ≠ p ∧ c.slot p' = some id := by
  by_cases h : p' = p
  · subst h
    simp
  · simp [slot_set_ne h, h]

theorem Apart.clear (h : c.Apart O) (p : PayloadClass) : (c.set p none).Apart O := by
  refine ⟨fun p₁ p₂ id h₁ h₂ => ?_, fun p₁ id h₁ => ?_⟩
  · simp only [slot_set_eq_some, reduceCtorEq, and_false, false_or] at h₁ h₂
    exact h.once p₁ p₂ id h₁.2 h₂.2
  · simp only [slot_set_eq_some, reduceCtorEq, and_false, false_or] at h₁
    exact h.disjoint p₁ id h₁.2

theorem Apart.install (h : c.Apart O) (p : PayloadClass) (hid : id ∈ O) :
    (c.set p (some id)).Apart (O \ {id}) := by
  refine ⟨fun p₁ p₂ id' h₁ h₂ => ?_, fun p₁ id' h₁ hmem => ?_⟩
  · rcases slot_set_eq_some.mp h₁ with ⟨rfl, hid₁⟩ | ⟨_, hslot₁⟩
    · rcases slot_set_eq_some.mp h₂ with ⟨rfl, _⟩ | ⟨_, hslot₂⟩
      · rfl
      · cases hid₁
        exact absurd hid (h.disjoint p₂ id hslot₂)
    · rcases slot_set_eq_some.mp h₂ with ⟨rfl, hid₂⟩ | ⟨_, hslot₂⟩
      · cases hid₂
        exact absurd hid (h.disjoint p₁ id hslot₁)
      · exact h.once p₁ p₂ id' hslot₁ hslot₂
  · rcases slot_set_eq_some.mp h₁ with ⟨rfl, hid₁⟩ | ⟨_, hslot₁⟩
    · cases hid₁
      exact hmem.2 rfl
    · exact h.disjoint p₁ id' hslot₁ hmem.1

theorem ids_clear (h : c.Apart O) (hslot : c.slot p = some id) :
    (c.set p none).ids ∪ O = (c.ids ∪ O) \ {id} := by
  ext id'
  simp only [ids, Set.mem_union, Set.mem_ofPred_eq, Set.mem_sdiff, Set.mem_singleton_iff,
    slot_set_eq_some, reduceCtorEq, and_false, false_or]
  constructor
  · rintro (⟨p', hne, hslot'⟩ | hmem)
    · exact ⟨.inl ⟨p', hslot'⟩, fun heq => hne (h.once p' p id (heq ▸ hslot') hslot)⟩
    · exact ⟨.inr hmem, fun heq => h.disjoint p id hslot (heq ▸ hmem)⟩
  · rintro ⟨⟨p', hslot'⟩ | hmem, hne⟩
    · refine .inl ⟨p', fun heq => ?_, hslot'⟩
      subst heq
      exact hne (some.inj (hslot'.symm.trans hslot))
    · exact .inr hmem

theorem ids_install (hslot : c.slot p = none) (hid : id ∈ O) :
    (c.set p (some id)).ids ∪ O \ {id} = c.ids ∪ O := by
  ext id'
  simp only [ids, Set.mem_union, Set.mem_ofPred_eq, Set.mem_sdiff, Set.mem_singleton_iff,
    slot_set_eq_some, some.injEq]
  constructor
  · rintro (⟨p', ⟨_, rfl⟩ | ⟨_, hslot'⟩⟩ | ⟨hmem, _⟩)
    · exact .inr hid
    · exact .inl ⟨p', hslot'⟩
    · exact .inr hmem
  · rintro (⟨p', hslot'⟩ | hmem)
    · refine .inl ⟨p', .inr ⟨fun heq => ?_, hslot'⟩⟩
      subst heq
      rw [hslot] at hslot'
      cases hslot'
    · by_cases heq : id' = id
      · exact .inl ⟨p, .inl ⟨rfl, heq.symm⟩⟩
      · exact .inr ⟨hmem, heq⟩

end ConnectionPayloadCharges

namespace PayloadAccounts

variable {G : ℕ} {O : Set ℕ} {c : ConnectionPayloadCharges} {p : PayloadClass}
  {id : ResourceChargeId}

open PayloadBudgetLedger (Sound Adjusts)

/-- The live charges are those of the slots `c` and those of `O`, without overlap. -/
structure Owned (G : ℕ) (O : Set ℕ) (c : ConnectionPayloadCharges)
    (a : PayloadAccounts) : Prop where
  slots : a.charges = c
  sound : Sound G (c.ids ∪ O) a.ledger
  apart : c.Apart O

section Rules

variable {α : Type} {Q : α → PayloadAccounts → Prop} {E : AppError → PayloadAccounts → Prop}

variable {x : LedgerAction α}

theorem holds_onLedger {P : PayloadBudgetLedger → Prop} {Q : α → PayloadBudgetLedger → Prop}
    {E : AppError → PayloadBudgetLedger → Prop} (h : Holds P x Q E) (c : ConnectionPayloadCharges) :
    Holds (fun a => a.charges = c ∧ P a.ledger) (onLedger x)
      (fun r a => a.charges = c ∧ Q r a.ledger) fun e a => a.charges = c ∧ E e a.ledger := by
  refine holds_of_ends fun a ha => ?_
  have hends := h.ends ha.2
  rw [onLedger, zoom_apply]
  rcases hx : x a.ledger with ⟨_ | _, _⟩
  · rw [hx] at hends
    exact ⟨ha.1, hends⟩
  · rw [hx] at hends
    exact ⟨ha.1, hends⟩

/-- A rule of the ledger, seen from a connection: the slots stay as they are. -/
theorem owned_onLedger {Q' : α → PayloadBudgetLedger → Prop}
    {E' : AppError → PayloadBudgetLedger → Prop} (h : Holds (Sound G (c.ids ∪ O)) x Q' E')
    (hQ : c.Apart O → ∀ r l, Q' r l → Q r ⟨c, l⟩) (hE : c.Apart O → ∀ e l, E' e l → E e ⟨c, l⟩) :
    Holds (Owned G O c) (onLedger x) Q E := by
  refine holds_of_ends fun a ha => ?_
  have hends := (holds_onLedger h c).ends ⟨ha.slots, ha.sound⟩
  revert hends
  rcases onLedger x a with ⟨e | r, ⟨_, l⟩⟩
  · rintro ⟨rfl, hl⟩
    exact hE ha.apart e l hl
  · rintro ⟨rfl, hl⟩
    exact hQ ha.apart r l hl

theorem owned_adjust (h : Adjusts x) : Ensures (Owned G O c) (onLedger x) (Owned G O c) :=
  owned_onLedger (h G _) (fun ha _ _ h => ⟨rfl, h, ha⟩) fun ha _ _ h => ⟨rfl, h, ha⟩

theorem owned_fail (message : String) (Q : α → PayloadAccounts → Prop) :
    Holds (Owned G O c) (onLedger (failAccounting message)) Q
      fun _ => Owned G O c := by
  refine holds_of_ends fun a ha => ?_
  exact ⟨ha.slots, ha.sound.pressure _, ha.apart⟩

theorem owned_reserve (connectionId : ℕ) (payloadClass : PayloadClass) (bytes : ℕ) :
    Holds (Owned G O c)
      (onLedger (reserve connectionId payloadClass bytes G))
      (fun id a => id ∉ O ∧ Owned G (insert id O) c a) fun _ => Owned G O c := by
  refine owned_onLedger (sound_reserve connectionId payloadClass bytes G) ?_
    fun ha _ _ h => ⟨rfl, h, ha⟩
  rintro ha id l ⟨hfresh, hsound⟩
  rw [Set.mem_union, not_or] at hfresh
  refine ⟨hfresh.2, rfl, ?_, ha.once, fun p id' hslot hmem => ?_⟩
  · rwa [Set.union_insert]
  · rcases hmem with rfl | hmem
    · exact hfresh.1 ⟨p, hslot⟩
    · exact ha.disjoint p id' hslot hmem

theorem owned_release (hid : id ∈ O) :
    Holds (Owned G O c) (onLedger (release id G))
      (fun _ => Owned G (O \ {id}) c) fun _ _ => False := by
  refine owned_onLedger (sound_release (.inr hid) G) (fun ha _ l hsound => ?_) fun _ _ _ h => h
  refine ⟨rfl, ?_, ha.once, fun p id' hslot hmem => ha.disjoint p id' hslot hmem.1⟩
  have hids : c.ids \ {id} = c.ids := Set.sdiff_singleton_eq_self fun ⟨p, hslot⟩ =>
    ha.disjoint p id hslot hid
  rwa [Set.union_sdiff_distrib, hids] at hsound

theorem owned_install (hslot : c.slot p = none) (hid : id ∈ O) :
    Holds (Owned G O c) (setSlot p (some id))
      (fun _ => Owned G (O \ {id}) (c.set p (some id))) E := by
  refine holds_modify fun a ha => ⟨?_, ?_, ha.apart.install p hid⟩
  · rw [← ha.slots]
  · rw [ids_install hslot hid]
    exact ha.sound

def Vacated (G : ℕ) (O : Set ℕ) (c : ConnectionPayloadCharges) (p : PayloadClass)
    (a : PayloadAccounts) : Prop :=
  a.charges = c ∧ Owned G O (c.set p none) { a with charges := c.set p none }

theorem released_slot (hslot : c.slot p = some id) :
    Holds (Owned G O c) (onLedger (release id G))
      (fun _ => Vacated G O c p) fun _ _ => False := by
  refine owned_onLedger (sound_release (.inl ⟨p, hslot⟩) G) (fun ha _ l hsound => ?_)
    fun _ _ _ h => h
  rw [← ids_clear ha hslot] at hsound
  exact ⟨rfl, rfl, hsound, ha.clear p⟩

theorem owned_forget :
    Holds (Vacated G O c p) (setSlot p none) (fun _ => Owned G O (c.set p none)) E := by
  refine holds_modify fun a ha => ?_
  rw [ha.1]
  exact ha.2

theorem owned_clear (hslot : c.slot p = some id) :
    Holds (Owned G O c) (do onLedger (release id G); setSlot p none)
      (fun _ => Owned G O (c.set p none)) fun _ _ => False :=
  (released_slot hslot).bind fun _ => owned_forget

theorem owned_read {k : PayloadAccounts → AccountAction α}
    (h : ∀ a, Owned G O c a → Holds (Owned G O c) (k a) Q E) :
    Holds (Owned G O c) (Action.read >>= k) Q E :=
  holds_read fun a ha => (h a ha).pre fun _ heq => heq ▸ ha

end Rules

/-- The operation keeps the ledger balanced, and when it fails the slots stay as they were. -/
abbrev Settles {α : Type} (G : ℕ) (O : Set ℕ) (c : ConnectionPayloadCharges)
    (x : AccountAction α) : Prop :=
  Action.Holds (Owned G O c) x (fun _ a => ∃ c', Owned G O c' a) fun _ => Owned G O c

theorem settles_adjust {α : Type} {x : LedgerAction α} (h : Adjusts x) :
    Settles G O c (onLedger x) :=
  (owned_adjust h).post fun _ _ ha => ⟨c, ha⟩

theorem settles_pure {α : Type} (r : α) : Settles G O c (pure r) :=
  holds_pure fun _ ha => ⟨c, ha⟩

/-- An operation that does not fail may leave any slots. -/
theorem settles_total {α : Type} {x : AccountAction α} {c₁ c₂ : ConnectionPayloadCharges}
    (h : Holds (Owned G O c₁) x (fun _ => Owned G O c₂) fun _ _ => False) :
    Holds (Owned G O c₁) x (fun _ a => ∃ c', Owned G O c' a) fun _ => Owned G O c :=
  (h.post fun _ _ ha => ⟨_, ha⟩).weakenError fun _ _ h => h.elim

theorem settles_install {E : AppError → PayloadAccounts → Prop} (hslot : c.slot p = none)
    (hid : id ∉ O) :
    Holds (Owned G (insert id O) c) (setSlot p (some id))
      (fun _ a => ∃ c', Owned G O c' a) E := by
  refine (owned_install hslot (Set.mem_insert id O)).post fun _ a ha => ?_
  rw [Set.insert_sdiff_self_of_notMem hid] at ha
  exact ⟨_, ha⟩

theorem owned_releaseSlot (p : PayloadClass) :
    Holds (Owned G O c) (releaseSlot p) (fun _ => Owned G O (c.set p none))
      fun _ _ => False := by
  refine owned_read fun a ha => ?_
  rw [ha.slots, ha.sound.generation]
  rcases hslot : c.slot p with _ | id
  · refine holds_pure fun a ha => ?_
    have hself : c.set p none = c := by
      rw [ConnectionPayloadCharges.set, ← hslot, Function.update_eq_self]
    rwa [hself]
  · exact owned_clear hslot

theorem settles_releaseSlot (p : PayloadClass) : Settles G O c (releaseSlot p) :=
  settles_total (owned_releaseSlot p)

theorem owned_giveBack (hid : id ∉ O) :
    Holds (Owned G (insert id O) c) (onLedger (release id G))
      (fun _ => Owned G O c) fun _ _ => False := by
  refine (owned_release (Set.mem_insert id O)).post fun _ a ha => ?_
  rwa [Set.insert_sdiff_self_of_notMem hid] at ha

variable (connectionId : ℕ)

theorem settles_growRequest (additionalBytes : ℕ) :
    Settles G O c (growRequest connectionId additionalBytes) := by
  refine Holds.ite (fun _ => settles_pure _) fun _ => owned_read fun a ha => ?_
  rw [ha.slots, ha.sound.generation]
  rcases hslot : c.slot .request with _ | id
  · refine (owned_reserve connectionId .request additionalBytes).bind fun id => ?_
    exact holds_of_fact fun hid => settles_install hslot hid
  · exact settles_adjust (adjusts_grow _ _ _)

theorem settles_sync (p : PayloadClass) (connectionId nextBytes : ℕ) :
    Settles G O c (sync p connectionId nextBytes) := by
  refine owned_read fun a ha => ?_
  refine Holds.ite (fun _ => settles_pure _) fun _ => ?_
  refine Holds.ite (fun _ => ?_) fun _ => ?_
  · refine (settles_releaseSlot p).bind fun _ => holds_pure fun _ ha => ha
  · rw [ha.slots, ha.sound.generation]
    rcases hslot : c.slot p with _ | id
    · refine (owned_reserve connectionId p nextBytes).bind fun id => holds_of_fact fun hid => ?_
      refine (holds_attempt
        (owned_adjust (adjusts_commit _ _ _))).bind fun result => ?_
      rcases result with error | _
      · refine (holds_attempt (owned_giveBack hid)).bind fun result => ?_
        rcases result with _ | _
        · exact fun _ h => h.elim
        · exact holds_fail fun _ ha => ha
      · exact (settles_install hslot hid).bind fun _ => holds_pure fun _ ha => ha
    · exact (settles_adjust (adjusts_resize _ _ _)).bind fun _ =>
        holds_pure fun _ ha => ha

theorem settles_resizeClientResponseInUse (nextBytes : ℕ) :
    Settles G O c (resizeClientResponseInUse nextBytes) := by
  refine owned_read fun a ha => ?_
  rw [ha.slots, ha.sound.generation]
  rcases hslot : c.slot .clientResponse with _ | id
  · exact owned_fail _ _
  · refine Holds.ite (fun _ => ?_) fun _ =>
      settles_adjust (adjusts_resize _ _ _)
    exact settles_total (owned_clear hslot)

theorem settles_prepareClientResponseBytes (nextBytes : ℕ) :
    Settles G O c (prepareClientResponseBytes connectionId nextBytes) := by
  refine owned_read fun a ha => ?_
  simp only [ha.slots, ha.sound.generation]
  rcases hslot : c.slot .clientResponse with _ | id
  · refine (owned_reserve connectionId .clientResponse nextBytes).bind fun id => ?_
    exact holds_of_fact fun hid => (settles_install hslot hid).bind fun _ =>
      holds_pure fun _ ha => ha
  · simp only
    rcases a.ledger.charges.lookup id with _ | charge
    · exact holds_fail fun _ ha => ha
    · exact (settles_adjust (adjusts_resize _ _ _)).bind fun _ =>
        holds_pure fun _ ha => ha

theorem settles_commitClientResponseBytes (change : ClientResponseChargeChange) :
    Settles G O c (commitClientResponseBytes change) := by
  refine owned_read fun a ha => ?_
  refine Holds.ite (fun _ => owned_fail _ _) fun _ => ?_
  exact Holds.ite (fun _ => settles_adjust (adjusts_commit _ _ _))
    fun _ => settles_pure _

theorem settles_rollbackClientResponseAllocation (change : ClientResponseChargeChange) :
    Settles G O c (rollbackClientResponseAllocation change) := by
  refine owned_read fun a ha => ?_
  rw [ha.slots, ha.sound.generation]
  refine Holds.ite (fun _ => owned_fail _ _) fun hslot => ?_
  rcases change.previousBytes with _ | previousBytes
  · exact settles_total (owned_clear (not_not.mp hslot))
  · exact settles_adjust (adjusts_resize _ _ _)

theorem settles_reserveUpstreamAndRetry (upstreamBytes retryReplayBytes : ℕ) :
    Settles G O c (reserveUpstreamAndRetry connectionId upstreamBytes retryReplayBytes) := by
  refine owned_read fun a ha => ?_
  rw [ha.slots, ha.sound.generation]
  refine Holds.ite (fun _ => owned_fail _ _) fun hslots => ?_
  obtain ⟨hupstream, hretry⟩ : c.slot .upstreamRequest = none ∧ c.slot .retryReplay = none := by
    simpa using hslots
  refine (owned_reserve connectionId .upstreamRequest upstreamBytes).bind fun upstream => ?_
  refine holds_of_fact fun hid => ?_
  refine (holds_attempt (owned_reserve connectionId .retryReplay retryReplayBytes)).bind
    fun result => ?_
  rcases result with error | retry
  · exact ((owned_giveBack hid).weakenError fun _ _ h => h.elim).bind fun _ =>
      holds_fail fun _ ha => ha
  · refine holds_of_fact fun hretryId => ?_
    rw [Set.mem_insert_iff, not_or] at hretryId
    have hslot : (c.set .upstreamRequest (some upstream)).slot .retryReplay = none := by
      rwa [slot_set_ne (by decide)]
    have hrest : insert retry (insert upstream O) \ {upstream} = insert retry O := by
      rw [Set.insert_sdiff_of_notMem _ (by simpa using hretryId.1),
        Set.insert_sdiff_self_of_notMem hid]
    refine (owned_install hupstream (Set.mem_insert_of_mem _ (Set.mem_insert _ _))).bind fun _ => ?_
    rw [hrest]
    exact settles_install hslot hretryId.2

theorem settles_commitUpstreamAndRetry (upstreamBytes retryReplayBytes : ℕ) :
    Settles G O c (commitUpstreamAndRetry upstreamBytes retryReplayBytes) := by
  refine owned_read fun a ha => ?_
  simp only
  rcases a.charges.slot .upstreamRequest with _ | upstream
  · exact owned_fail _ _
  · rcases a.charges.slot .retryReplay with _ | retryReplay
    · exact owned_fail _ _
    · exact (owned_adjust (adjusts_commit _ _ _)).bind fun _ =>
        settles_adjust (adjusts_commit _ _ _)

theorem owned_reserveUpstreamReplacement (upstreamBytes : ℕ) :
    Holds (Owned G O c) (reserveUpstreamReplacement connectionId upstreamBytes)
      (fun id a => id ∉ O ∧ Owned G (insert id O) c a) fun _ => Owned G O c := by
  refine owned_read fun a ha => ?_
  rw [ha.sound.generation]
  exact Holds.ite (fun _ => owned_fail _ _) fun _ => owned_reserve _ _ _

/-- The charge is in no slot but, perhaps, the one of the upstream request. -/
def Replacement (c : ConnectionPayloadCharges) (id : ResourceChargeId) : Prop :=
  ∀ p, c.slot p = some id → p = .upstreamRequest

theorem owned_commitUpstreamReplacement {replacement : ResourceChargeId}
    (hreplacement : Replacement c replacement) (upstreamBytes : ℕ) :
    Holds (Owned G O c) (commitUpstreamReplacement replacement upstreamBytes)
      (fun _ a => ∃ c', Owned G (O \ {replacement}) c' a) fun _ => Owned G O c := by
  refine owned_read fun a ha => ?_
  simp only [ha.slots, ha.sound.generation]
  rcases hslot : c.slot .upstreamRequest with _ | current
  · exact owned_fail _ _
  · refine Holds.ite (fun _ => owned_fail _ _) fun hdistinct => ?_
    rcases hlookup : a.ledger.charges.lookup replacement with _ | charge
    · exact owned_fail _ _
    · refine Holds.ite (fun _ => owned_fail _ _) fun _ => ?_
      -- a live charge that no other slot holds is a pending replacement
      have hmem : replacement ∈ O := by
        have hlive := (ha.sound.live replacement).mp
          (lookup_isSome.mp (by rw [hlookup]; rfl))
        rcases hlive with ⟨p, hp⟩ | hmem
        · obtain rfl := hreplacement p hp
          rw [hslot] at hp
          exact absurd (some.inj hp) hdistinct
        · exact hmem
      refine (owned_adjust (adjusts_commit _ _ _)).bind fun _ => ?_
      refine (holds_attempt (released_slot hslot)).bind fun result => ?_
      rcases result with _ | _
      · exact fun _ h => h.elim
      · refine holds_modify fun a ⟨hslots, hcleared⟩ => ?_
        have hempty : (c.set .upstreamRequest none).slot .upstreamRequest = none := by simp
        have hinstall : Ends (fun _ => Owned G (O \ {replacement}) _) (fun _ _ => False) _ :=
          (owned_install hempty hmem).ends hcleared
        refine ⟨c.set .upstreamRequest (some replacement), ?_⟩
        rw [hslots, ← set_set c .upstreamRequest none]
        exact hinstall

theorem owned_releaseUpstreamReplacement {replacement : ResourceChargeId}
    (hreplacement : Replacement c replacement) :
    Holds (Owned G O c) (releaseUpstreamReplacementAfterAllocationFailure replacement)
      (fun _ => Owned G (O \ {replacement}) c) fun _ => Owned G O c := by
  refine owned_read fun a ha => ?_
  rw [ha.slots, ha.sound.generation]
  refine Holds.ite (fun _ => owned_fail _ _) fun hdistinct => ?_
  by_cases hmem : replacement ∈ O
  · exact (owned_release hmem).weakenError fun _ _ h => h.elim
  · have hdead : replacement ∉ c.ids ∪ O := by
      rintro (⟨p, hp⟩ | h)
      · obtain rfl := hreplacement p hp
        exact hdistinct hp
      · exact hmem h
    exact owned_onLedger (sound_release_dead hdead G) (fun _ _ _ h => h.elim)
      fun ha _ _ h => ⟨rfl, h, ha⟩

theorem settles_releaseUpstreamAllocationFailure :
    Settles G O c releaseUpstreamAllocationFailure := by
  refine owned_read fun a ha => ?_
  simp only [ha.slots, ha.sound.generation]
  rcases hretry : c.slot .retryReplay with _ | retryReplay <;>
    rcases hslot : c.slot .upstreamRequest with _ | upstream
  · exact holds_pure fun _ ha => ⟨c, ha⟩
  · refine ((released_slot hslot).weakenError fun _ _ h => h.elim).bind fun _ => ?_
    exact owned_forget.bind fun _ => holds_pure fun _ ha => ⟨_, ha⟩
  · exact settles_total (owned_clear hretry)
  · refine ((released_slot hslot).weakenError fun _ _ h => h.elim).bind fun _ => ?_
    exact owned_forget.bind fun _ =>
      settles_total (owned_clear (by rw [slot_set_ne (by decide), hretry]))

theorem owned_releaseAll :
    Holds (Owned G O c) releaseAll (fun _ => Owned G O {}) fun _ _ => False := by
  have hempty : ((((((c.set .request none).set .upstreamRequest none).set .retryReplay none).set
      .clientResponse none).set .tlsPending none).set .webSocketClientToUpstream none).set
      .webSocketUpstreamToClient none = {} := by
    refine congrArg ConnectionPayloadCharges.mk (funext fun p => ?_)
    cases p <;> simp [ConnectionPayloadCharges.set]
  rw [← hempty]
  exact (owned_releaseSlot _).bind fun _ => (owned_releaseSlot _).bind fun _ =>
    (owned_releaseSlot _).bind fun _ => (owned_releaseSlot _).bind fun _ =>
    (owned_releaseSlot _).bind fun _ => (owned_releaseSlot _).bind fun _ => owned_releaseSlot _

end PayloadAccounts

inductive ChargeOperation where
  | growRequest (additionalBytes : ℕ)
  | syncTlsPending (nextBytes : ℕ)
  | syncWebSocketClientToUpstream (nextBytes : ℕ)
  | syncWebSocketUpstreamToClient (nextBytes : ℕ)
  | resizeClientResponseInUse (nextBytes : ℕ)
  | prepareClientResponseBytes (nextBytes : ℕ)
  | commitClientResponseBytes (change : ClientResponseChargeChange)
  | rollbackClientResponseAllocation (change : ClientResponseChargeChange)
  | reserveUpstreamAndRetry (upstreamBytes retryReplayBytes : ℕ)
  | commitUpstreamAndRetry (upstreamBytes retryReplayBytes : ℕ)
  | reserveUpstreamReplacement (upstreamBytes : ℕ)
  | commitUpstreamReplacement (replacement : ResourceChargeId) (upstreamBytes : ℕ)
  | releaseUpstreamReplacementAfterAllocationFailure (replacement : ResourceChargeId)
  | releaseUpstreamAllocationFailure
  | releaseRequest
  | releaseAll

namespace ChargeOperation

open PayloadAccounts

/-- An operation that reserves no replacement. -/
def plain {α : Type} (x : AccountAction α) : AccountAction (Option ResourceChargeId) := do
  let _ ← x
  return none

def run (connectionId : ℕ) : ChargeOperation → AccountAction (Option ResourceChargeId)
  | .growRequest additionalBytes => plain (PayloadAccounts.growRequest connectionId additionalBytes)
  | .syncTlsPending nextBytes => plain (sync .tlsPending connectionId nextBytes)
  | .syncWebSocketClientToUpstream nextBytes =>
    plain (sync .webSocketClientToUpstream connectionId nextBytes)
  | .syncWebSocketUpstreamToClient nextBytes =>
    plain (sync .webSocketUpstreamToClient connectionId nextBytes)
  | .resizeClientResponseInUse nextBytes =>
    plain (PayloadAccounts.resizeClientResponseInUse nextBytes)
  | .prepareClientResponseBytes nextBytes =>
    plain (PayloadAccounts.prepareClientResponseBytes connectionId nextBytes)
  | .commitClientResponseBytes change => plain (PayloadAccounts.commitClientResponseBytes change)
  | .rollbackClientResponseAllocation change =>
    plain (PayloadAccounts.rollbackClientResponseAllocation change)
  | .reserveUpstreamAndRetry upstreamBytes retryReplayBytes =>
    plain (PayloadAccounts.reserveUpstreamAndRetry connectionId upstreamBytes retryReplayBytes)
  | .commitUpstreamAndRetry upstreamBytes retryReplayBytes =>
    plain (PayloadAccounts.commitUpstreamAndRetry upstreamBytes retryReplayBytes)
  | .reserveUpstreamReplacement upstreamBytes => do
    let replacement ← PayloadAccounts.reserveUpstreamReplacement connectionId upstreamBytes
    return some replacement
  | .commitUpstreamReplacement replacement upstreamBytes =>
    plain (PayloadAccounts.commitUpstreamReplacement replacement upstreamBytes)
  | .releaseUpstreamReplacementAfterAllocationFailure replacement =>
    plain (PayloadAccounts.releaseUpstreamReplacementAfterAllocationFailure replacement)
  | .releaseUpstreamAllocationFailure => plain PayloadAccounts.releaseUpstreamAllocationFailure
  | .releaseRequest => plain PayloadAccounts.releaseRequest
  | .releaseAll => plain PayloadAccounts.releaseAll

def replacement? : ChargeOperation → Option ResourceChargeId
  | .commitUpstreamReplacement replacement _
  | .releaseUpstreamReplacementAfterAllocationFailure replacement => some replacement
  | _ => none

def settled (operation : ChargeOperation) (reserved : Option ResourceChargeId) (O : Set ℕ) :
    Set ℕ :=
  match reserved, operation.replacement? with
  | some id, _ => insert id O
  | none, some replacement => O \ {replacement}
  | none, none => O

variable {G : ℕ} {O : Set ℕ} {c : ConnectionPayloadCharges}

theorem owned_run (connectionId : ℕ) (operation : ChargeOperation)
    (hnames : ∀ replacement ∈ operation.replacement?, Replacement c replacement) :
    Holds (Owned G O c) (operation.run connectionId)
      (fun reserved a => (∀ id ∈ reserved, id ∉ O) ∧
        ∃ c', Owned G (operation.settled reserved O) c' a) fun _ => Owned G O c := by
  have hsettles {α : Type} {x : AccountAction α} (h : Settles G O c x) {other : ChargeOperation}
      (hother : other.replacement? = none) :
      Holds (Owned G O c) (plain x)
        (fun reserved a => (∀ id ∈ reserved, id ∉ O) ∧
          ∃ c', Owned G (other.settled reserved O) c' a)
        fun _ => Owned G O c := by
    refine h.bind fun _ => holds_pure fun _ ha => ⟨nofun, ?_⟩
    simpa only [settled, hother] using ha
  cases operation with
  | growRequest => exact hsettles (settles_growRequest _ _) rfl
  | syncTlsPending => exact hsettles (settles_sync _ _ _) rfl
  | syncWebSocketClientToUpstream => exact hsettles (settles_sync _ _ _) rfl
  | syncWebSocketUpstreamToClient => exact hsettles (settles_sync _ _ _) rfl
  | resizeClientResponseInUse => exact hsettles (settles_resizeClientResponseInUse _) rfl
  | prepareClientResponseBytes => exact hsettles (settles_prepareClientResponseBytes _ _) rfl
  | commitClientResponseBytes => exact hsettles (settles_commitClientResponseBytes _) rfl
  | rollbackClientResponseAllocation =>
    exact hsettles (settles_rollbackClientResponseAllocation _) rfl
  | reserveUpstreamAndRetry => exact hsettles (settles_reserveUpstreamAndRetry _ _ _) rfl
  | commitUpstreamAndRetry => exact hsettles (settles_commitUpstreamAndRetry _ _) rfl
  | reserveUpstreamReplacement =>
    refine (owned_reserveUpstreamReplacement _ _).bind fun id => holds_pure fun a ha => ?_
    exact ⟨fun id' hid => some.inj hid ▸ ha.1, c, ha.2⟩
  | commitUpstreamReplacement replacement =>
    exact (owned_commitUpstreamReplacement (hnames replacement rfl) _).bind fun _ =>
      holds_pure fun _ ha => ⟨nofun, ha⟩
  | releaseUpstreamReplacementAfterAllocationFailure replacement =>
    exact (owned_releaseUpstreamReplacement (hnames replacement rfl)).bind fun _ =>
      holds_pure fun _ ha => ⟨nofun, c, ha⟩
  | releaseUpstreamAllocationFailure => exact hsettles settles_releaseUpstreamAllocationFailure rfl
  | releaseRequest => exact hsettles (settles_releaseSlot _) rfl
  | releaseAll => exact hsettles (settles_total owned_releaseAll) rfl

end ChargeOperation

/-- The connections that share a ledger, and the replacements that were reserved and neither
committed nor released. -/
structure SharedAccounts where
  slots : ℕ → ConnectionPayloadCharges
  ledger : PayloadBudgetLedger
  pending : Finset ResourceChargeId

namespace SharedAccounts

variable {G : ℕ} {w : SharedAccounts} {operation : ChargeOperation} {connectionId : ℕ}

def new (policy : RuntimeResourcePolicy) (generation : ℕ) : SharedAccounts where
  slots _ := {}
  ledger := .new policy generation
  pending := ∅

def settle (operation : ChargeOperation) (reserved : Option ResourceChargeId)
    (pending : Finset ResourceChargeId) : Finset ResourceChargeId :=
  match reserved, operation.replacement? with
  | some id, _ => insert id pending
  | none, some replacement => pending.erase replacement
  | none, none => pending

def step (connectionId : ℕ) (operation : ChargeOperation) (w : SharedAccounts) :
    Except AppError (Option ResourceChargeId) × SharedAccounts :=
  match operation.run connectionId ⟨w.slots connectionId, w.ledger⟩ with
  | (.ok reserved, a) =>
    (.ok reserved, ⟨Function.update w.slots connectionId a.charges, a.ledger,
        settle operation reserved w.pending⟩)
  | (.error error, a) =>
    (.error error, ⟨Function.update w.slots connectionId a.charges, a.ledger, w.pending⟩)

def Names (w : SharedAccounts) (connectionId : ℕ) (operation : ChargeOperation) : Prop :=
  ∀ replacement ∈ operation.replacement?, ∀ c p, (w.slots c).slot p = some replacement →
    c = connectionId ∧ p = .upstreamRequest

/-- The states that connections reach by any interleaving of operations, failed ones included. -/
inductive Reached (policy : RuntimeResourcePolicy) (generation : ℕ) : SharedAccounts → Prop
  | new : Reached policy generation (new policy generation)
  | step {w : SharedAccounts} (connectionId : ℕ) (operation : ChargeOperation) :
      Reached policy generation w → w.Names connectionId operation →
      Reached policy generation (w.step connectionId operation).2

/-- Every live charge has one owner: a slot, or the pending replacements. -/
structure Balanced (G : ℕ) (w : SharedAccounts) : Prop where
  sound : w.ledger.Sound G {id | (∃ c p, (w.slots c).slot p = some id) ∨ id ∈ w.pending}
  once : ∀ c p c' p' id, (w.slots c).slot p = some id → (w.slots c').slot p' = some id →
    c = c' ∧ p = p'
  disjoint : ∀ c p id, (w.slots c).slot p = some id → id ∉ w.pending

def others (w : SharedAccounts) (connectionId : ℕ) (pending : Finset ResourceChargeId) : Set ℕ :=
  {id | (∃ c p, c ≠ connectionId ∧ (w.slots c).slot p = some id) ∨ id ∈ pending}

theorem slot_update {c : ConnectionPayloadCharges} {d : ℕ} {p : PayloadClass} {id : ℕ} :
    (Function.update w.slots connectionId c d).slot p = some id ↔
      d = connectionId ∧ c.slot p = some id ∨ d ≠ connectionId ∧ (w.slots d).slot p = some id := by
  by_cases hd : d = connectionId
  · simp [hd]
  · simp [hd, Function.update_of_ne]

theorem ids_union_others (c : ConnectionPayloadCharges) (pending : Finset ResourceChargeId) :
    c.ids ∪ w.others connectionId pending =
      {id | (∃ d p, (Function.update w.slots connectionId c d).slot p = some id) ∨
        id ∈ pending} := by
  ext id
  simp only [ids, others, Set.mem_union, Set.mem_ofPred_eq, slot_update]
  constructor
  · rintro (⟨p, hp⟩ | ⟨d, p, hd, hp⟩ | hmem)
    · exact .inl ⟨_, p, .inl ⟨rfl, hp⟩⟩
    · exact .inl ⟨d, p, .inr ⟨hd, hp⟩⟩
    · exact .inr hmem
  · rintro (⟨d, p, ⟨_, hp⟩ | ⟨hd, hp⟩⟩ | hmem)
    · exact .inl ⟨p, hp⟩
    · exact .inr (.inl ⟨d, p, hd, hp⟩)
    · exact .inr (.inr hmem)

theorem Balanced.owned (h : Balanced G w) (connectionId : ℕ) :
    PayloadAccounts.Owned G (w.others connectionId w.pending) (w.slots connectionId)
      ⟨w.slots connectionId, w.ledger⟩ := by
  refine ⟨rfl, ?_, fun p p' id hp hp' => (h.once _ p _ p' id hp hp').2, fun p id hp => ?_⟩
  · rw [ids_union_others, Function.update_eq_self]
    exact h.sound
  · rintro (⟨c, p', hc, hp'⟩ | hmem)
    · exact hc (h.once _ p' _ p id hp' hp).1
    · exact h.disjoint _ p id hp hmem

theorem Balanced.update (h : Balanced G w) {c' : ConnectionPayloadCharges}
    {pending : Finset ResourceChargeId}
    (hpending : ∀ c p id, c ≠ connectionId → (w.slots c).slot p = some id → id ∉ pending)
    {a : PayloadAccounts} (howned : PayloadAccounts.Owned G (w.others connectionId pending) c' a) :
    Balanced G ⟨Function.update w.slots connectionId a.charges, a.ledger, pending⟩ := by
  obtain ⟨rfl, hsound, honce, hdisjoint⟩ := howned
  refine ⟨?_, fun c p c' p' id hp hp' => ?_, fun c p id hp hmem => ?_⟩
  · rw [← ids_union_others]
    exact hsound
  · rcases slot_update.mp hp with ⟨rfl, hs⟩ | ⟨hc, hs⟩
    · rcases slot_update.mp hp' with ⟨rfl, hs'⟩ | ⟨hc', hs'⟩
      · exact ⟨rfl, honce p p' id hs hs'⟩
      · exact absurd (.inl ⟨c', p', hc', hs'⟩) (hdisjoint p id hs)
    · rcases slot_update.mp hp' with ⟨rfl, hs'⟩ | ⟨hc', hs'⟩
      · exact absurd (.inl ⟨c, p, hc, hs⟩) (hdisjoint p' id hs')
      · exact h.once c p c' p' id hs hs'
  · rcases slot_update.mp hp with ⟨_, hs⟩ | ⟨hc, hs⟩
    · exact hdisjoint p id hs (.inr hmem)
    · exact hpending c p id hc hs hmem

theorem others_settle (hnames : w.Names connectionId operation)
    (reserved : Option ResourceChargeId) :
    w.others connectionId (settle operation reserved w.pending) =
      operation.settled reserved (w.others connectionId w.pending) := by
  ext id
  rcases reserved with _ | new
  · rcases hreplacement : operation.replacement? with _ | replacement
    · simp only [settle, ChargeOperation.settled, hreplacement]
    · simp only [settle, ChargeOperation.settled, hreplacement, others, Set.mem_ofPred_eq,
        Finset.mem_erase, Set.mem_sdiff, Set.mem_singleton_iff]
      constructor
      · rintro (⟨c, p, hc, hp⟩ | ⟨hne, hmem⟩)
        · refine ⟨.inl ⟨c, p, hc, hp⟩, fun heq => ?_⟩
          exact hc (hnames replacement hreplacement c p (heq ▸ hp)).1
        · exact ⟨.inr hmem, hne⟩
      · rintro ⟨hslot | hmem, hne⟩
        · exact .inl hslot
        · exact .inr ⟨hne, hmem⟩
  · simp only [settle, ChargeOperation.settled, others, Set.mem_ofPred_eq, Finset.mem_insert,
      Set.mem_insert_iff]
    exact or_left_comm

theorem settle_none_subset (operation : ChargeOperation) (pending : Finset ResourceChargeId) :
    settle operation none pending ⊆ pending := by
  rcases hreplacement : operation.replacement? with _ | replacement
  · simp [settle, hreplacement]
  · simpa [settle, hreplacement] using Finset.erase_subset _ _

theorem Balanced.step (h : Balanced G w) (hnames : w.Names connectionId operation) :
    Balanced G (w.step connectionId operation).2 ∧ ∀ e w', w.step connectionId operation =
      (.error e, w') → w'.slots = w.slots ∧ w'.pending = w.pending := by
  have hreplacement (replacement : ResourceChargeId) (hr : replacement ∈ operation.replacement?) :
      PayloadAccounts.Replacement (w.slots connectionId) replacement :=
    fun p hp => (hnames replacement hr connectionId p hp).2
  have hends := (operation.owned_run connectionId hreplacement).ends (h.owned connectionId)
  rw [SharedAccounts.step]
  rcases hrun : operation.run connectionId ⟨w.slots connectionId, w.ledger⟩
    with ⟨error | reserved, a⟩
  · rw [hrun] at hends
    refine ⟨h.update (fun c p id _ hp => h.disjoint c p id hp) hends, fun e w' heq => ?_⟩
    cases heq
    exact ⟨by rw [hends.slots, Function.update_eq_self], rfl⟩
  · rw [hrun] at hends
    obtain ⟨hfresh, _, howned⟩ := hends
    rw [← others_settle hnames] at howned
    refine ⟨h.update (fun c p id hc hp hmem => ?_) howned, nofun⟩
    rcases reserved with _ | new
    · exact h.disjoint c p id hp (settle_none_subset operation w.pending hmem)
    · rcases Finset.mem_insert.mp hmem with rfl | hmem
      · exact hfresh id rfl (.inl ⟨c, p, hc, hp⟩)
      · exact h.disjoint c p id hp hmem

theorem balanced_new (policy : RuntimeResourcePolicy) (generation : ℕ) :
    Balanced generation (new policy generation) := by
  refine ⟨⟨conserved_new policy generation, rfl, fun id => ?_, nofun⟩, nofun, nofun⟩
  simp [new, PayloadBudgetLedger.new]

theorem Reached.balanced {policy : RuntimeResourcePolicy} {generation : ℕ}
    (h : Reached policy generation w) : Balanced generation w := by
  induction h with
  | new => exact balanced_new policy generation
  | step _ _ _ hnames ih => exact (ih.step hnames).1

theorem Balanced.releaseAll (h : Balanced G w) (connectionId : ℕ) :
    ∃ w', w.step connectionId .releaseAll = (.ok none, w') ∧
      w'.slots = Function.update w.slots connectionId {} ∧ w'.pending = w.pending ∧
      Balanced G w' := by
  have hends := PayloadAccounts.owned_releaseAll.ends (h.owned connectionId)
  rcases hrun : PayloadAccounts.releaseAll ⟨w.slots connectionId, w.ledger⟩ with ⟨_ | _, a⟩
  · rw [hrun] at hends
    exact hends.elim
  · rw [hrun] at hends
    have hop : ChargeOperation.releaseAll.run connectionId ⟨w.slots connectionId, w.ledger⟩ =
        (.ok none, a) := bind_ok hrun
    refine ⟨⟨Function.update w.slots connectionId a.charges, a.ledger, w.pending⟩, ?_, ?_, rfl,
      h.update (fun c p id _ hp => h.disjoint c p id hp) hends⟩
    · rw [SharedAccounts.step, hop]
      rfl
    · rw [hends.slots]

/-- Over every interleaving of the operations of any number of connections, each live charge has
exactly one owner; a failed operation adds and removes none; `release_all` removes the charges of
its connection and no others; and nothing is charged once no slot and no replacement is left. -/
theorem no_payload_charge_leak {policy : RuntimeResourcePolicy} {generation : ℕ}
    (h : Reached policy generation w) :
    (∀ id, id ∈ w.ledger.charges ↔
        (∃ c p, (w.slots c).slot p = some id) ∨ id ∈ w.pending) ∧
      (∀ c p c' p' id, (w.slots c).slot p = some id → (w.slots c').slot p' = some id →
        c = c' ∧ p = p') ∧
      (∀ c p id, (w.slots c).slot p = some id → id ∉ w.pending) ∧
      (∀ connectionId operation e w', w.Names connectionId operation →
        w.step connectionId operation = (.error e, w') →
        ∀ id, id ∈ w'.ledger.charges ↔ id ∈ w.ledger.charges) ∧
      (∀ connectionId, ∃ w', w.step connectionId .releaseAll = (.ok none, w') ∧
        w'.slots = Function.update w.slots connectionId {} ∧
        ∀ id, id ∈ w'.ledger.charges ↔
          id ∈ w.ledger.charges ∧ ∀ p, (w.slots connectionId).slot p ≠ some id) ∧
      ((∀ c p, (w.slots c).slot p = none) → w.pending = ∅ → w.ledger.usedBytes = 0) := by
  have hbalanced := h.balanced
  refine ⟨hbalanced.sound.live, hbalanced.once, hbalanced.disjoint, ?_, ?_, ?_⟩
  · intro connectionId operation e w' hnames hstep id
    obtain ⟨hnext, hkept⟩ := hbalanced.step hnames
    obtain ⟨hslots, hpending⟩ := hkept e w' hstep
    rw [hstep] at hnext
    rw [hnext.sound.live, hbalanced.sound.live, hslots, hpending]
  · intro connectionId
    obtain ⟨w', hstep, hslots, hpending, hnext⟩ := hbalanced.releaseAll connectionId
    refine ⟨w', hstep, hslots, fun id => ?_⟩
    rw [hnext.sound.live, hbalanced.sound.live, hslots, hpending, Set.mem_ofPred_eq,
      Set.mem_ofPred_eq]
    constructor
    · rintro (⟨c, p, hp⟩ | hmem)
      · by_cases hc : c = connectionId
        · subst hc
          simp at hp
        · rw [Function.update_of_ne hc] at hp
          exact ⟨.inl ⟨c, p, hp⟩, fun p' hp' => hc (hbalanced.once c p _ p' id hp hp').1⟩
      · exact ⟨.inr hmem, fun p hp => hbalanced.disjoint _ p id hp hmem⟩
    · rintro ⟨⟨c, p, hp⟩ | hmem, hnone⟩
      · refine .inl ⟨c, p, ?_⟩
        rwa [Function.update_of_ne]
        rintro rfl
        exact hnone p hp
      · exact .inr hmem
  · intro hslots hpending
    rw [hbalanced.sound.conserved.used]
    refine Table.total_of_forall_notMem fun id hid => ?_
    rcases (hbalanced.sound.live id).mp hid with ⟨c, p, hp⟩ | hmem
    · rw [hslots c p] at hp
      cases hp
    · rw [hpending] at hmem
      exact Finset.notMem_empty id hmem

theorem no_payload_charge_leak_grown :
    Reached .least 0 ((new .least 0).step 1 (.growRequest 1024)).2 ∧
      ((new .least 0).step 1 (.growRequest 1024)).2.ledger.usedBytes = 1024 ∧
      ∀ id, id ∈ ((new .least 0).step 1 (.growRequest 1024)).2.ledger.charges ↔
        (∃ c p, (((new .least 0).step 1 (.growRequest 1024)).2.slots c).slot p = some id) ∨
          id ∈ ((new .least 0).step 1 (.growRequest 1024)).2.pending := by
  have hreached := Reached.step 1 (.growRequest 1024) (.new : Reached .least 0 _) nofun
  exact ⟨hreached, by decide, (no_payload_charge_leak hreached).1⟩

end SharedAccounts

end EdgeProxy
