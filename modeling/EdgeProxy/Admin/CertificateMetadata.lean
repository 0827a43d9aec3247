import EdgeProxy.Admin.Secrets
import EdgeProxy.Config.Reread
import EdgeProxy.Core.Routing

/-! # The metadata of a stored certificate

The metadata are four lines with escaped strings, in a directory named after the reference. The
array of the domains is split at its commas, also at those inside a string.
-/

namespace EdgeProxy

open Rust List

structure CertificateMetadata where
  certificateRef : Text
  domains : List Text
  notAfterEpochSeconds : UInt64
  source : Text
  deriving DecidableEq

def certificateMetadataError (message : String) : AppError := ⟨.certificateStoreFailed, message⟩

def tomlEscapeCharacter : Char → Text
  | '"' => "\\\"".toList
  | '\\' => "\\\\".toList
  | '\n' => "\\n".toList
  | '\r' => "\\r".toList
  | '\t' => "\\t".toList
  | c => [c]

def tomlEscape (value : Text) : Text := value.flatMap tomlEscapeCharacter

def tomlUnescapeCharacter : Char → Except AppError Char
  | '"' => .ok '"'
  | '\\' => .ok '\\'
  | 'n' => .ok '\n'
  | 'r' => .ok '\r'
  | 't' => .ok '\t'
  | _ => .error (certificateMetadataError "metadata escape is invalid")

/-- The loop of `parse_toml_string`, with its flag for a character after a backslash. -/
def tomlUnescape : Bool → Text → Except AppError Text
  | false, [] => .ok []
  | true, [] => .error (certificateMetadataError "metadata string has trailing escape")
  | true, c :: t => do return (← tomlUnescapeCharacter c) :: (← tomlUnescape false t)
  | false, c :: t => if c = '\\' then tomlUnescape true t else (tomlUnescape false t).map (c :: ·)

def parseTomlString (value : Text) : Except AppError Text :=
  let value := trim value
  if value.head? ≠ some '"' ∨ value.getLast? ≠ some '"' ∨ value.length < 2 then
    .error (certificateMetadataError "metadata string is invalid")
  else tomlUnescape false value.tail.dropLast

def parseTomlStringArray (value : Text) : Except AppError (List Text) :=
  let value := trim value
  if value.head? ≠ some '[' ∨ value.getLast? ≠ some ']' then
    .error (certificateMetadataError "metadata array is invalid")
  else
    let inner := trim value.tail.dropLast
    if inner.isEmpty then .ok []
    else (inner.splitOn ',').mapM fun item => parseTomlString (trim item)

def renderCertificateMetadata (certificate : CertificateMetadata) : Text :=
  [Render.stringLine "certificate_ref" (tomlEscape certificate.certificateRef),
    Render.arrayLine "domains" (certificate.domains.map tomlEscape),
    Render.natLine "not_after_epoch_seconds" certificate.notAfterEpochSeconds.toNat,
    Render.stringLine "source" (tomlEscape certificate.source)].flatMap (· ++ ['\n'])

structure MetadataFields where
  certificateRef : Option Text := none
  domains : Option (List Text) := none
  notAfterEpochSeconds : Option UInt64 := none
  source : Option Text := none

def applyMetadataValue (found : MetadataFields) (key value : Text) :
    Except AppError MetadataFields := do
  if key = "certificate_ref".toList then
    return { found with certificateRef := ← parseTomlString value }
  else if key = "domains".toList then
    return { found with domains := ← parseTomlStringArray value }
  else if key = "not_after_epoch_seconds".toList then
    match parseUnsigned 10 UInt64.size value with
    | some n => return { found with notAfterEpochSeconds := UInt64.ofNat n }
    | none => .error (certificateMetadataError "not_after_epoch_seconds must be an integer")
  else if key = "source".toList then
    return { found with source := ← parseTomlString value }
  else return found

def parseMetadataLine (found : MetadataFields) (line : Text) : Except AppError MetadataFields :=
  let line := trim line
  if line.isEmpty then .ok found
  else
    match splitOnce '=' line with
    | none => .error (certificateMetadataError "metadata line is missing '='")
    | some (key, value) => applyMetadataValue found (trim key) (trim value)

def required {α : Type} (name : String) : Option α → Except AppError α
  | some a => .ok a
  | none => .error (certificateMetadataError (name ++ " is missing"))

def parseCertificateMetadata (source : Text) : Except AppError CertificateMetadata := do
  let found ← (lines source).foldlM parseMetadataLine {}
  return ⟨← required "certificate_ref" found.certificateRef, ← required "domains" found.domains,
    ← required "not_after_epoch_seconds" found.notAfterEpochSeconds,
    ← required "source" found.source⟩

def certificateRefDirName (certificateRef : Text) : Text :=
  if isPlainName certificateRef then certificateRef else ".ref-".toList ++ hexEncode certificateRef

/-- The check that the manual import makes of one domain. -/
def importDomain (domain : Text) : Except AppError Text :=
  let domain := normalizeHost domain
  if domain.isEmpty || domain.any isWhitespace || domain.contains '/' || domain.contains '*' then
    .error ⟨.certificateInvalid, "certificate domain is invalid or unsupported"⟩
  else .ok domain

section Escapes

theorem tomlUnescape_escape (c : Char) (t : Text) :
    tomlUnescape false (tomlEscapeCharacter c ++ t) = (tomlUnescape false t).map (c :: ·) := by
  unfold tomlEscapeCharacter
  split
  case h_6 hslash _ _ _ => rw [singleton_append, tomlUnescape, if_neg hslash]
  all_goals rfl

theorem parseTomlString_quoted (v : Text) : parseTomlString (quoted (tomlEscape v)) = .ok v := by
  rw [parseTomlString, quoted, (trimmed_bracketed rfl rfl _).trim_eq, getLast?_bracketed,
    tail_dropLast_bracketed, if_neg (by simp)]
  induction v with
  | nil => rfl
  | cons _ _ ih =>
    rw [tomlEscape, flatMap_cons, tomlUnescape_escape, ← tomlEscape, ih]
    rfl

theorem mem_tomlEscape {v : Text} {c : Char} (h : c ∈ tomlEscape v) :
    c ≠ '\n' ∧ (c = ',' → c ∈ v) := by
  obtain ⟨d, hd, hc⟩ := mem_flatMap.mp h
  unfold tomlEscapeCharacter at hc
  split at hc
  case h_6 hn _ _ =>
    rw [mem_singleton.mp hc]
    exact ⟨hn, fun _ => hd⟩
  all_goals exact ⟨by rintro rfl; exact absurd hc (by decide),
    by rintro rfl; exact absurd hc (by decide)⟩

theorem mem_of_tomlUnescape {escaped : Bool} {t v : Text} (h : tomlUnescape escaped t = .ok v)
    (hv : ',' ∈ v) : ',' ∈ t := by
  induction t generalizing escaped v with
  | nil =>
    cases escaped
    · cases h
      cases hv
    · cases h
  | cons c t ih =>
    cases escaped with
    | false =>
      rw [tomlUnescape] at h
      split_ifs at h
      · exact mem_cons_of_mem _ (ih h hv)
      · obtain ⟨_, ht, rfl⟩ := map_eq_ok.mp h
        exact mem_cons.mpr ((mem_cons.mp hv).imp_right (ih ht))
    | true =>
      obtain ⟨d, hd, h⟩ := bind_eq_ok.mp h
      obtain ⟨_, ht, h⟩ := bind_eq_ok.mp h
      cases h
      rcases mem_cons.mp hv with rfl | hv
      · unfold tomlUnescapeCharacter at hd
        split at hd <;> simp at hd
      · exact mem_cons_of_mem _ (ih ht hv)

end Escapes

theorem parseTomlStringArray_eq_ok_iff {vs : List Text} :
    parseTomlStringArray ('[' :: Render.quotedArray (vs.map tomlEscape) ++ [']']) = .ok vs ↔
      ∀ v ∈ vs, ',' ∉ v := by
  rw [parseTomlStringArray, (trimmed_bracketed rfl rfl _).trim_eq, getLast?_bracketed,
    tail_dropLast_bracketed, if_neg (by simp)]
  constructor
  · intro h v hv
    simp only at h
    split_ifs at h
    · cases h
      cases hv
    · obtain ⟨item, hitem, hparse⟩ := exists_of_mem_mapM_ok h hv
      rw [parseTomlString] at hparse
      split_ifs at hparse
      intro hcomma
      have hmem := mem_of_tomlUnescape hparse hcomma
      have hin := mem_of_mem_trim (mem_of_mem_trim (mem_of_mem_tail (dropLast_subset _ hmem)))
      exact absurd (mem_splitOnP hitem _ hin).2 (by decide)
  · intro h
    cases vs with
    | nil => rfl
    | cons v vs =>
      obtain ⟨hne, hitems⟩ := mapM_quotedArray parseTomlString
        (by simp : (v :: vs).map tomlEscape ≠ [])
        (forall_mem_map.mpr fun u hu hcomma => h u hu ((mem_tomlEscape hcomma).2 rfl))
      have hread : (fun w => parseTomlString (quoted w)) ∘ tomlEscape = fun w => pure (id w) :=
        funext parseTomlString_quoted
      simp only [hne, hitems, Bool.false_eq_true, if_false, mapM_map, hread, mapM_pure, map_id]
      rfl

theorem parseMetadataLine_pair {key t : Text} (hkey : IsKey key)
    (ht : Reads (fun _ => .ok ()) t ()) (found : MetadataFields) :
    parseMetadataLine found (pairLine key t) = applyMetadataValue found key t := by
  obtain ⟨hsplit, htrim⟩ := splitOnce_pairLine hkey t
  have hempty : (pairLine key t).isEmpty = false := by simp [pairLine]
  simp only [parseMetadataLine, (oneLine_pairLine hkey ht).2.trim_eq, hempty, hsplit, htrim,
    trim_blank_cons, ht.trimmed.trim_eq]
  rfl

theorem parseCertificateMetadata_render (c : CertificateMetadata) :
    parseCertificateMetadata (renderCertificateMetadata c) =
      (parseTomlStringArray ('[' :: Render.quotedArray (c.domains.map tomlEscape) ++ [']'])).map
        fun domains => { c with domains } := by
  have hstring (v : Text) : Reads (fun _ => .ok ()) (quoted (tomlEscape v)) () :=
    { reads_quoted fun h => (mem_tomlEscape h).1 rfl with read_eq := rfl }
  have harray : Reads (fun _ => .ok ())
      ('[' :: Render.quotedArray (c.domains.map tomlEscape) ++ [']']) () := by
    refine ⟨by simp, trimmed_bracketed rfl rfl _, ?_, rfl⟩
    simpa using notMem_quotedArray (forall_mem_map.mpr fun v _ h => (mem_tomlEscape h).1 rfl)
  have hnumber : Reads (fun _ => .ok ()) (toString c.notAfterEpochSeconds.toNat).toList () :=
    reads_toString rfl
  have hnotAfter : parseUnsigned 10 UInt64.size (toString c.notAfterEpochSeconds.toNat).toList =
      some c.notAfterEpochSeconds.toNat := parseUnsigned_toString c.notAfterEpochSeconds.toNat_lt
  rw [parseCertificateMetadata, renderCertificateMetadata]
  simp only [stringLine_eq, arrayLine_eq, Render.natLine, scalarLine_eq]
  rw [lines_flatMap]
  · simp only [foldlM_cons,
      parseMetadataLine_pair (by decide : IsKey "certificate_ref".toList) (hstring _),
      parseMetadataLine_pair (by decide : IsKey "domains".toList) harray,
      parseMetadataLine_pair (by decide : IsKey "not_after_epoch_seconds".toList) hnumber,
      parseMetadataLine_pair (by decide : IsKey "source".toList) (hstring _)]
    simp only [applyMetadataValue, parseTomlString_quoted, hnotAfter, UInt64.ofNat_toNat]
    rcases parseTomlStringArray ('[' :: Render.quotedArray (c.domains.map tomlEscape) ++ [']'])
      with error | domains
    · rfl
    · rfl
  · simp only [forall_mem_cons]
    exact ⟨oneLine_pairLine (by decide) (hstring _), oneLine_pairLine (by decide) harray,
      oneLine_pairLine (by decide) hnumber, oneLine_pairLine (by decide) (hstring _), by simp⟩

theorem certificateRefDirName_injective {a b : Text}
    (h : certificateRefDirName a = certificateRefDirName b) : a = b := by
  have hdot (t : Text) : isPlainName (".ref-".toList ++ t) = false := rfl
  rw [certificateRefDirName, certificateRefDirName] at h
  split_ifs at h with ha hb hb
  · exact h
  · rw [h, hdot] at ha
    cases ha
  · rw [← h, hdot] at hb
    cases hb
  · exact hexEncode_injective (append_cancel_left h)

/-- The metadata are read back as they were written, in a directory of their own, exactly if no
domain holds a comma. -/
theorem certificate_metadata_read_back_iff (c : CertificateMetadata) :
    (parseCertificateMetadata (renderCertificateMetadata c) = .ok c ∧
      ∀ other ≠ c.certificateRef,
        certificateRefDirName other ≠ certificateRefDirName c.certificateRef) ↔
      ∀ domain ∈ c.domains, ',' ∉ domain := by
  rw [parseCertificateMetadata_render, map_eq_ok, ← parseTomlStringArray_eq_ok_iff]
  constructor
  · rintro ⟨⟨domains, h, hc⟩, -⟩
    rw [h, ← congrArg CertificateMetadata.domains hc]
  · exact fun h =>
      ⟨⟨_, h, rfl⟩, fun other hne heq => hne (certificateRefDirName_injective heq)⟩

theorem comma_domain_not_read_back : importDomain "a,b".toList = .ok "a,b".toList ∧
    parseCertificateMetadata (renderCertificateMetadata
      ⟨"c".toList, ["a,b".toList], 0, "manual".toList⟩) =
        .error (certificateMetadataError "metadata string is invalid") := by
  decide

end EdgeProxy
