import EdgeProxy.Core.Ownership

/-! # What a synchronised slot holds

`sync` makes one slot of a connection hold exactly the bytes that the connection owns, and leaves
the other slots alone: no two slots share a charge.
-/

namespace EdgeProxy

open Rust Action Option

namespace PayloadBudgetLedger

variable {l l' : PayloadBudgetLedger} {id n : ℕ}

def Only (id : ℕ) (l l' : PayloadBudgetLedger) : Prop :=
  ∀ id', id' ≠ id → l'.charges.lookup id' = l.charges.lookup id'

def Charged (id n : ℕ) (l l' : PayloadBudgetLedger) : Prop :=
  Only id l l' ∧ (l'.charges.lookup id).map PayloadCharge.chargedBytes = some n

theorem only_refl (id : ℕ) (l : PayloadBudgetLedger) : Only id l l := fun _ _ => rfl

theorem Only.insert (h : Only id l l') (charge : PayloadCharge) {charges : Table PayloadCharge}
    (hcharges : charges = l'.charges.insert id charge) :
    ∀ id', id' ≠ id → charges.lookup id' = l.charges.lookup id' := by
  intro id' hne
  rw [hcharges, AList.lookup_insert_ne hne]
  exact h id' hne

/-- The errors of the operations do not matter here. -/
abbrev Yields {α : Type} (P : PayloadBudgetLedger → Prop) (x : LedgerAction α)
    (Q : α → PayloadBudgetLedger → Prop) : Prop :=
  Action.Holds P x Q fun _ _ => True

theorem yields_replaceChargeBytes (id n : ℕ) :
    Yields (Only id l) (replaceChargeBytes id n) fun _ => Charged id n l := by
  refine holds_of_ends fun s hs => ?_
  unfold replaceChargeBytes
  split_ifs
  · trivial
  · split
    · trivial
    · dsimp only
      split_ifs
      any_goals trivial
      refine ⟨hs.insert _ rfl, ?_⟩
      simp [refreshPressureAfterUsageChange]

theorem yields_setState (id n : ℕ) (state : ResourceChargeState) (message : String) :
    Yields (Charged id n l) (setState id state message) fun _ => Charged id n l := by
  refine holds_of_ends fun s hs => ?_
  unfold setState
  split
  · trivial
  · next charge hlookup =>
    refine ⟨hs.1.insert _ rfl, ?_⟩
    have hbytes := hs.2
    rw [hlookup] at hbytes
    simpa using hbytes

theorem yields_resize (id n generation : ℕ) :
    Yields (Only id l) (resize id n generation) fun _ => Charged id n l := by
  refine holds_of_ends fun s hs => (holds_acting (fun _ => True.intro) fun charge _ => ?_).ends rfl
  exact holds_unless (fun _ => True.intro) ((yields_replaceChargeBytes id n).pre fun _ h => h ▸ hs)

theorem yields_commit (id n generation : ℕ) :
    Yields (Only id l) (commit id n generation) fun _ => Charged id n l := by
  refine holds_of_ends fun s hs => (holds_acting (fun _ => True.intro) fun charge _ => ?_).ends rfl
  refine holds_unless (fun _ => True.intro) (Holds.pre (P := Only id l) ?_ fun _ h => h ▸ hs)
  exact (yields_replaceChargeBytes id n).bind fun _ => yields_setState id n _ _

theorem yields_reserve (connectionId : ℕ) (payloadClass : PayloadClass) (n generation : ℕ) :
    Yields (· = l) (reserve connectionId payloadClass n generation)
      fun id l' => id = l.nextChargeId ∧ Only id l l' := by
  refine holds_of_ends ?_
  rintro s rfl
  unfold reserve
  split_ifs
  any_goals trivial
  exact ⟨rfl, (only_refl _ s).insert _ rfl⟩

theorem yields_release (id generation : ℕ) :
    Yields (· = l) (release id generation) fun _ => Only id l := by
  refine holds_acting (fun _ => True.intro) fun charge _ => holds_of_ends ?_
  rintro s rfl
  split
  · trivial
  · intro id' hne
    exact AList.lookup_erase_ne hne

end PayloadBudgetLedger

namespace PayloadAccounts

open PayloadBudgetLedger

variable {G : ℕ} {O : Set ℕ} {c : ConnectionPayloadCharges} {a a' : PayloadAccounts}
  {p q : PayloadClass} {id n : ℕ}

/-- The slot `p` holds `n` bytes, and the others what they held in `a`. -/
structure Synced (p : PayloadClass) (n : ℕ) (a a' : PayloadAccounts) : Prop where
  bytes : a'.bytes p = n
  others : ∀ q, q ≠ p → a'.bytes q = a.bytes q

theorem Owned.fresh (h : Owned G O c a) (q : PayloadClass) :
    a.charges.slot q ≠ some a.ledger.nextChargeId := by
  intro hslot
  have hlive : a.ledger.nextChargeId ∈ a.ledger.charges :=
    (h.sound.live _).mpr (.inl ⟨q, by rw [← h.slots, hslot]⟩)
  exact (h.sound.conserved.fresh _ hlive).false

theorem bytes_of_only {id : ℕ} (honly : Only id a.ledger a'.ledger)
    (hslot : a'.charges.slot q = a.charges.slot q) (hne : a.charges.slot q ≠ some id) :
    a'.bytes q = a.bytes q := by
  unfold bytes chargeBytes
  rw [hslot]
  rcases hq : a.charges.slot q with _ | id'
  · rfl
  · have hid : id' ≠ id := by
      rintro rfl
      exact hne hq
    simp only [bind_some, honly id' hid]

theorem yields_onLedger {α : Type} {P : PayloadBudgetLedger → Prop}
    {Q : α → PayloadBudgetLedger → Prop} {x : LedgerAction α} (h : Yields P x Q)
    (c : ConnectionPayloadCharges) :
    Holds (fun a => a.charges = c ∧ P a.ledger) (onLedger x)
      (fun r a => a.charges = c ∧ Q r a.ledger) fun _ _ => True :=
  (holds_onLedger h c).weakenError fun _ _ _ => trivial

theorem yields_onLedger_at {α : Type} {Q : α → PayloadBudgetLedger → Prop} {x : LedgerAction α}
    (h : Yields (· = a.ledger) x Q) :
    Holds (· = a) (onLedger x) (fun r a' => a'.charges = a.charges ∧ Q r a'.ledger)
      fun _ _ => True := by
  refine (yields_onLedger h a.charges).pre fun s hs => ?_
  subst hs
  exact ⟨rfl, rfl⟩

theorem synced_of_charged (hcharged : Charged id n a.ledger a'.ledger)
    (hslot : a'.charges.slot p = some id)
    (hsame : ∀ q, q ≠ p → a'.charges.slot q = a.charges.slot q)
    (hne : ∀ q, q ≠ p → a.charges.slot q ≠ some id) : Synced p n a a' where
  bytes := by
    unfold bytes chargeBytes
    rw [hslot]
    simp only [bind_some, hcharged.2, getD_some]
  others q hq := bytes_of_only hcharged.1 (hsame q hq) (hne q hq)

theorem Owned.apart_slot (ha : Owned G O c a) (hslot : a.charges.slot p = some id)
    (q : PayloadClass)
    (hq : q ≠ p) : a.charges.slot q ≠ some id :=
  fun hq' => hq (ha.apart.once q p id (ha.slots ▸ hq') (ha.slots ▸ hslot))

theorem holds_releaseSlot_synced (ha : Owned G O c a) :
    Holds (· = a) (releaseSlot p) (fun _ => Synced p 0 a) fun _ _ => True := by
  refine holds_read_at ?_
  rcases hslot : a.charges.slot p with _ | id
  · refine holds_pure fun t ht => ?_
    subst ht
    exact ⟨by simp [bytes, chargeBytes, hslot], fun _ _ => rfl⟩
  · refine (yields_onLedger_at (yields_release id _)).bind fun _ => holds_modify ?_
    rintro t ⟨hcharges, honly⟩
    refine ⟨by simp [bytes, chargeBytes], fun q hq => ?_⟩
    refine bytes_of_only honly ?_ (ha.apart_slot hslot q hq)
    simp only [hcharges, ConnectionPayloadCharges.slot_set_ne hq]

theorem holds_install_synced (ha : Owned G O c a) :
    Holds (fun s => s.charges = a.charges ∧
      Charged a.ledger.nextChargeId n a.ledger s.ledger)
      (setSlot p (some a.ledger.nextChargeId)) (fun _ => Synced p n a) fun _ _ => True := by
  refine holds_modify ?_
  rintro s ⟨hcharges, hcharged⟩
  refine synced_of_charged hcharged (by simp) (fun q hq => ?_) fun q _ => ha.fresh q
  simp only [hcharges, ConnectionPayloadCharges.slot_set_ne hq]

theorem holds_sync_synced (ha : Owned G O c a) (p : PayloadClass) (connectionId n : ℕ) :
    Holds (· = a) (sync p connectionId n) (fun _ => Synced p n a) fun _ _ => True := by
  refine holds_read_at ?_
  refine Holds.ite (fun hbytes => ?_) fun _ => Holds.ite (fun hzero => ?_) fun _ => ?_
  · refine holds_pure fun t ht => ?_
    subst ht
    exact ⟨hbytes, fun _ _ => rfl⟩
  · subst hzero
    exact (holds_releaseSlot_synced ha).bind fun _ => holds_pure fun _ h => h
  · rcases hslot : a.charges.slot p with _ | id
    · refine (yields_onLedger_at (yields_reserve connectionId p n _)).bind fun id => ?_
      refine Holds.pre (holds_of_fact fun hid : id = a.ledger.nextChargeId => ?_)
        fun t ht => And.intro ht.2.1 (And.intro ht.1 ht.2.2)
      subst hid
      refine (holds_attempt (yields_onLedger (yields_commit _ n _) a.charges)).bind
        fun result => ?_
      rcases result with e | _
      · refine (holds_attempt holds_trivial).bind fun _ => holds_fail ?_
        exact fun _ _ => trivial
      · exact (holds_install_synced ha).bind fun _ => holds_pure fun _ h => h
    · have hresize : Yields (· = a.ledger) (resize id n a.ledger.generation)
          fun _ => Charged id n a.ledger := by
        refine (yields_resize id n _).pre fun l hl => ?_
        subst hl
        exact only_refl id _
      refine (yields_onLedger_at hresize).bind fun _ => holds_pure ?_
      rintro t ⟨hcharges, hcharged⟩
      exact synced_of_charged hcharged (hcharges ▸ hslot) (fun q _ => by rw [hcharges])
        (ha.apart_slot hslot)

theorem holds_sync (ha : Owned G O c a) (p : PayloadClass) (connectionId n : ℕ) :
    Holds (· = a) (sync p connectionId n)
      (fun _ a' => (∃ c', Owned G O c' a') ∧ Synced p n a a') fun _ _ => True := by
  have howned : Holds (· = a) (sync p connectionId n) _ _ :=
    (settles_sync p connectionId n : Settles G O c _).pre fun _ hs => hs ▸ ha
  exact (howned.and (holds_sync_synced ha p connectionId n)).weakenError fun _ _ _ => trivial

end PayloadAccounts

end EdgeProxy
