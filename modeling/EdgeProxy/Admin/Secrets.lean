import EdgeProxy.Admin.Session
import EdgeProxy.Audit.Codec
import EdgeProxy.Lib.Dictionary

/-! # Secrets on disk

A secret is a file of its own, named after the secret or, if the name does not make a file name,
after its hexadecimal form. Reading it back takes the white space from both ends.
-/

namespace EdgeProxy

open Rust Action SecretStore Option AList

/-- The directory of the secrets, by file name; its operations succeed. -/
structure FileSecretStore where
  files : Dictionary Text Text

def isPlainName (name : Text) : Bool :=
  !name.isEmpty && name.all fun c => isAsciiAlphanumeric c || c == '-' || c == '_'

def hexEncode (value : Text) : Text := encodeHash (encode value)

def secretFileStem (name : Text) : Text := if isPlainName name then name else hexEncode name

def secretPath (name : Text) : Text := secretFileStem name ++ ".secret".toList

instance : SecretStore FileSecretStore where
  saveSecret secret :=
    modify fun store => ⟨store.files.insert (secretPath secret.name) secret.value⟩
  loadSecret store name :=
    .ok ((store.files.lookup (secretPath name)).map fun value => ⟨name, trim value⟩)

def loadOptionalAdminPasswordHash (store : FileSecretStore) : Except AppError (Option Text) := do
  return (← loadSecret store "admin-password-hash".toList).map SecretRecord.value

theorem hexEncode_injective {s t : Text} (h : hexEncode s = hexEncode t) : s = t := by
  have hbytes := congrArg decodePairs h
  rw [hexEncode, hexEncode, decodePairs_encodeHash, decodePairs_encodeHash,
    some_inj] at hbytes
  simpa using congrArg decode hbytes

/-- A name shares its file exactly if one of the two names is the hexadecimal form of the other. -/
theorem secretPath_apart_iff {name : Text} :
    (∀ other ≠ name, secretPath other ≠ secretPath name) ↔
      if isPlainName name then ∀ other, isPlainName other = false → hexEncode other ≠ name
      else isPlainName (hexEncode name) = false := by
  simp only [secretPath, ne_eq, List.append_left_inj, secretFileStem]
  cases hname : isPlainName name with
  | false =>
    simp only [Bool.false_eq_true, if_false]
    constructor
    · intro h
      by_contra hplain
      rw [Bool.not_eq_false] at hplain
      refine h (hexEncode name) (fun heq => ?_) (if_pos hplain)
      rw [heq, hname] at hplain
      cases hplain
    · intro hhex other hne heq
      split_ifs at heq with hother
      · rw [heq, hhex] at hother
        cases hother
      · exact hne (hexEncode_injective heq)
  | true =>
    simp only [if_true]
    constructor
    · intro h other hother heq
      refine h other ?_ (by rwa [hother])
      rintro rfl
      rw [hname] at hother
      cases hother
    · intro h other hne heq
      split_ifs at heq with hother
      · exact hne heq
      · exact h other (by simpa using hother) heq

/-- A secret is read back as it was saved, and no other is touched, so that the password that was
set up is the one that logs in after a restart: exactly if the value has no white space at its ends
and the name shares its file with no other. -/
theorem credentials_survive_restart_iff (secret : SecretRecord) :
    ((∀ store : FileSecretStore,
      loadSecret (saveSecret secret store).2 secret.name = .ok (some secret) ∧
        ∀ other ≠ secret.name, loadSecret (saveSecret secret store).2 other =
          loadSecret store other) ∧
      ∀ (request : AdminHttpRequest) (state : AdminState FileSecretStore),
        state.authenticator = none →
        loadSecret state.secrets "admin-password-hash".toList = .ok none →
        jsonStringField request.body "password_hash".toList = some secret.value →
        ∃ authenticator passwordHash,
          (handleSetup request state).2.authenticator = some authenticator ∧
          loadOptionalAdminPasswordHash (handleSetup request state).2.secrets =
            .ok (some passwordHash) ∧
          ∀ attempt sessions, (AdminAuthenticator.login attempt (.new passwordHash, sessions)).1 =
            (AdminAuthenticator.login attempt (authenticator, sessions)).1) ↔
      trim secret.value = secret.value ∧
        if isPlainName secret.name then
          ∀ other, isPlainName other = false → hexEncode other ≠ secret.name
        else isPlainName (hexEncode secret.name) = false := by
  have hload (secret : SecretRecord) (store : FileSecretStore) (other : Text) :
      loadSecret (saveSecret secret store).2 other =
        .ok (((store.files.insert (secretPath secret.name) secret.value).lookup
          (secretPath other)).map fun value => ⟨other, trim value⟩) := rfl
  simp only [hload]
  rw [← secretPath_apart_iff]
  constructor
  · rintro ⟨h, -⟩
    obtain ⟨hsame, hothers⟩ := h ⟨∅⟩
    rw [lookup_insert] at hsame
    refine ⟨congrArg SecretRecord.value (some.inj (Except.ok.inj hsame)), ?_⟩
    intro other hne hpath
    have hother := hothers other hne
    rw [hpath, lookup_insert] at hother
    cases hother
  · rintro ⟨hvalue, hapart⟩
    refine ⟨fun store => ⟨?_, fun other hne => ?_⟩, ?_⟩
    · rw [lookup_insert, map_some, hvalue]
    · rw [lookup_insert_ne (hapart other hne)]
      rfl
    · intro request state hnone hempty hfield
      have hsetup : (handleSetup request state).2 = { state with
          secrets := (saveSecret ⟨"admin-password-hash".toList, secret.value⟩ state.secrets).2
          authenticator := some (.new secret.value) } := by
        rw [handleSetup, hnone, hempty, hfield]
        rfl
      rw [hsetup]
      refine ⟨.new secret.value, secret.value, rfl, ?_, fun _ _ => rfl⟩
      simp only [loadOptionalAdminPasswordHash, hload, lookup_insert, map_some, hvalue]
      rfl

theorem blank_and_hex_secrets_lost :
    let saved := (saveSecret ⟨"a b".toList, " x".toList⟩ (⟨∅⟩ : FileSecretStore)).2
    loadSecret saved "a b".toList = .ok (some ⟨"a b".toList, "x".toList⟩) ∧
      loadSecret saved "612062".toList = .ok (some ⟨"612062".toList, "x".toList⟩) ∧
      (AdminAuthenticator.login " x".toList (.new "x".toList, ∅)).1.toOption = none := by
  decide

end EdgeProxy
