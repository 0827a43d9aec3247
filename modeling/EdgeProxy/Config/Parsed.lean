import EdgeProxy.Config.Reread

/-! # What a parsed configuration is made of

Every text of a parsed configuration is a part of one line of the source, every host and path is a
part of one item of an array, and every number was checked by its type or its policy. So the
parser only returns snapshots that can be rendered and read back line by line.
-/

namespace EdgeProxy

open Rust List

variable {value : Text}

theorem parseString_subset {v : Text} (h : parseString value = .ok v) : ∀ c ∈ v, c ∈ value := by
  unfold parseString at h
  simp only at h
  split_ifs at h
  obtain rfl := Except.ok.inj h
  exact fun c hc => mem_of_mem_trim (mem_of_mem_tail (dropLast_subset _ hc))

theorem parseString_unbroken {v : Text} (hvalue : '\n' ∉ value)
    (h : parseString value = .ok v) : '\n' ∉ v :=
  fun hmem => hvalue (parseString_subset h _ hmem)

theorem parseStringArray_listable {vs : List Text} (hvalue : '\n' ∉ value)
    (h : parseStringArray value = .ok vs) : ∀ v ∈ vs, Listable v := by
  unfold parseStringArray at h
  simp only at h
  split_ifs at h
  · obtain rfl := Except.ok.inj h
    simp
  · intro v hv
    obtain ⟨item, hitem, hparse⟩ := exists_of_mem_mapM_ok h hv
    have hsub : ∀ c ∈ v, c ∈ item := fun c hc => mem_of_mem_trim (parseString_subset hparse c hc)
    have hinner : ∀ c ∈ item, c ∈ value ∧ (c == ',') = false := by
      intro c hc
      obtain ⟨hmem, hcomma⟩ := mem_splitOnP hitem c hc
      exact ⟨mem_of_mem_trim (mem_of_mem_tail (dropLast_subset _ (mem_of_mem_trim hmem))), hcomma⟩
    exact ⟨fun hc => hvalue (hinner _ (hsub _ hc)).1,
      fun hc => absurd (hinner _ (hsub _ hc)).2 (by decide)⟩

variable {t : Text}

theorem notMem_toAsciiLowercase {c : Char} (hc : isAsciiAlphanumeric c = false)
    (h : c ∉ t) : c ∉ toAsciiLowercase t := by
  rintro hmem
  obtain ⟨d, hd, rfl⟩ := mem_map.mp hmem
  rcases toLower_eq_or d with heq | halnum
  · exact h (heq.symm ▸ hd)
  · exact absurd halnum (by simp [hc])

theorem listable_normalizeHost (h : Listable t) : Listable (normalizeHost t) := by
  have hsub : ∀ c ∈ trimEndMatches '.' (trim t), c ∈ t :=
    fun c hc => mem_of_mem_trim (( rdropWhile_prefix _ _).subset hc)
  exact ⟨notMem_toAsciiLowercase rfl fun hc => h.1 (hsub _ hc),
    notMem_toAsciiLowercase rfl fun hc => h.2 (hsub _ hc)⟩

theorem listable_normalizePath (h : Listable t) : Listable (normalizePath t) := by
  have hsub : ∀ c ∈ normalizePath t, c = '/' ∨ c ∈ t := by
    have hslash : ∀ c ∈ (if (trim t).head? = some '/' then trim t else '/' :: trim t),
        c = '/' ∨ c ∈ t := by
      split
      · exact fun c hc => .inr (mem_of_mem_trim hc)
      · exact fun c hc => (mem_cons.mp hc).imp_right mem_of_mem_trim
    rw [normalizePath]
    generalize (if (trim t).head? = some '/' then trim t else '/' :: trim t) = w at hslash
    intro c hc
    split at hc
    · exact hslash c (( rdropWhile_prefix _ _).subset hc)
    · exact hslash c hc
  exact ⟨fun hc => (hsub _ hc).elim (by decide) h.1, fun hc => (hsub _ hc).elim (by decide) h.2⟩

section Drafts

/-- The texts and numbers of a draft that no constructor checks again. -/
structure MvpConfigDraft.Clean (d : MvpConfigDraft) : Prop where
  adminBind : ∀ bind ∈ d.adminBind, '\n' ∉ bind
  metricsBind : ∀ bind ∈ d.metricsBind, '\n' ∉ bind
  maxConnections : ∀ n ∈ d.maxConnections, n < usizeBound
  maxInflightPayloadBytes : ∀ n ∈ d.maxInflightPayloadBytes, n < usizeBound
  upstreamReadTimeoutMs : ∀ n ∈ d.upstreamReadTimeoutMs, n < 2 ^ 64
  listeners : ∀ l ∈ d.listeners, '\n' ∉ l.id ∧ '\n' ∉ l.bind
  services : ∀ s ∈ d.services, '\n' ∉ s.id ∧
    ∀ u ∈ s.upstreams, '\n' ∉ u.id ∧ ∀ name ∈ u.serverName, '\n' ∉ name
  routes : ∀ r ∈ d.routes, r.Readable

theorem parseNumber_lt {what : String} {bound n : ℕ}
    (h : parseNumber what bound value = .ok n) : n < bound := by
  unfold parseNumber at h
  split at h
  · next m hm =>
    obtain rfl := Except.ok.inj h
    exact parseUnsigned_lt hm
  · cases h

section Lists

variable {α : Type} {P : α → Prop} {l l' : List α}

theorem forall_mem_modifyLast {f : α → α} (hf : ∀ a, P a → P (f a)) (h : ∀ a ∈ l, P a) :
    ∀ a ∈ modifyLast f l, P a := by
  induction l using modifyLast.induct with
  | case1 => exact h
  | case2 a => simpa [modifyLast] using hf a (h a (by simp))
  | case3 a as hne ih =>
    rw [modifyLast.eq_3 f a as hne]
    obtain ⟨ha, has⟩ := forall_mem_cons.mp h
    exact forall_mem_cons.mpr ⟨ha, ih has⟩

theorem forall_mem_updateLast {f : α → Except AppError α} (hf : ∀ a b, f a = .ok b → P a → P b)
    (h : ∀ a ∈ l, P a) (hl : updateLast f l = .ok l') : ∀ a ∈ l', P a := by
  induction l using updateLast.induct generalizing l' with
  | case1 =>
    cases hl
    simp
  | case2 a =>
    obtain ⟨b, hb, rfl⟩ := map_eq_ok.mp hl
    simpa using hf a b hb (h a (by simp))
  | case3 a as hne ih =>
    rw [updateLast.eq_3 f a as hne] at hl
    obtain ⟨_, hbs, rfl⟩ := map_eq_ok.mp hl
    obtain ⟨ha, has⟩ := forall_mem_cons.mp h
    exact forall_mem_cons.mpr ⟨ha, ih has hbs⟩

end Lists

variable {d d' : MvpConfigDraft} {key value : Text}

theorem unbroken_of_return {α : Type} {f : Text → α} {a : α} {P : α → Prop} (hvalue : '\n' ∉ value)
    (h : (do return f (← parseString value)) = (.ok a : Except AppError α))
    (hf : ∀ v, '\n' ∉ v → P (f v)) : P a :=
  of_return h fun v hv => hf v (parseString_unbroken hvalue hv)

abbrev ListenerDraft.Unbroken (l : ListenerDraft) : Prop := '\n' ∉ l.id ∧ '\n' ∉ l.bind

theorem applyListenerValue_clean (hvalue : '\n' ∉ value) {l l' : ListenerDraft}
    (h : (applyListenerValue key value l).getD (.ok l) = .ok l')
    (hl : l.Unbroken) : l'.Unbroken := by
  unfold applyListenerValue at h
  split_ifs at h
  · exact unbroken_of_return hvalue h fun v hv => ⟨hv, hl.2⟩
  · exact unbroken_of_return hvalue h fun v hv => ⟨hl.1, hv⟩
  · obtain ⟨v, -, h⟩ := bind_eq_ok.mp h
    split_ifs at h
    all_goals
      cases h
      exact hl
  · exact unbroken_of_return hvalue h fun _ _ => hl
  · exact unbroken_of_return hvalue h fun _ _ => hl
  · cases h
    exact hl

abbrev UpstreamDraft.Unbroken (u : UpstreamDraft) : Prop :=
  '\n' ∉ u.id ∧ ∀ name ∈ u.serverName, '\n' ∉ name

theorem applyUpstreamValue_clean (hvalue : '\n' ∉ value) {u u' : UpstreamDraft}
    (h : ((applyUpstreamValue key value u).map Prod.snd).getD (.ok u) = .ok u')
    (hu : u.Unbroken) : u'.Unbroken := by
  unfold applyUpstreamValue at h
  simp only at h
  split_ifs at h
  · exact unbroken_of_return hvalue h fun v hv => ⟨hv, hu.2⟩
  · exact unbroken_of_return hvalue h fun _ _ => hu
  · obtain ⟨v, -, h⟩ := bind_eq_ok.mp h
    split_ifs at h
    all_goals
      cases h
      exact hu
  · exact unbroken_of_return hvalue h fun v hv => ⟨hu.1, by simpa using hv⟩
  · exact unbroken_of_return hvalue h fun _ _ => hu
  · exact unbroken_of_return hvalue h fun _ _ => hu
  · cases h
    exact hu

theorem listable_append {ps qs : List PathMatch} (hps : ∀ p ∈ ps, Listable p.pathText)
    (hqs : ∀ q ∈ qs, Listable q.pathText) : ∀ p ∈ ps ++ qs, Listable p.pathText :=
  forall_mem_append.mpr ⟨hps, hqs⟩

theorem applyRouteValue_clean (hvalue : '\n' ∉ value) {r r' : Route}
    (h : (applyRouteValue key value r).getD (.ok r) = .ok r') (hr : r.Readable) :
    r'.Readable := by
  unfold applyRouteValue at h
  split_ifs at h
  · exact unbroken_of_return hvalue h fun v hv => { hr with id := hv }
  · exact of_return h fun _ hvs => { hr with
      hosts := forall_mem_map.mpr fun v hv =>
        listable_normalizeHost (parseStringArray_listable hvalue hvs v hv) }
  · exact of_return h fun _ hvs => { hr with
      paths := listable_append hr.paths (forall_mem_map.mpr fun v hv =>
        listable_normalizePath (parseStringArray_listable hvalue hvs v hv)) }
  · exact of_return h fun _ hvs => { hr with
      paths := listable_append hr.paths (forall_mem_map.mpr fun v hv =>
        listable_normalizePath (parseStringArray_listable hvalue hvs v hv)) }
  · exact unbroken_of_return hvalue h fun v hv => { hr with serviceId := hv }
  · exact of_return h fun _ _ => { hr with }
  · exact of_return h fun _ _ => { hr with }
  · exact of_return h fun _ _ => { hr with }
  · exact unbroken_of_return hvalue h fun _ hv => { hr with certificateRef := by simpa using hv }
  · cases h
    exact hr

theorem MvpConfigDraft.Clean.unknownField {section_ : Section} (hd : d.Clean)
    (h : (.ok (unknownField d section_ key) : Except AppError _) = .ok d') : d'.Clean := by
  cases h
  exact { hd with }

theorem applyServicePolicyValue_clean {α : Type} {section_ : Section} {message : String}
    {get : ServiceDraft → Option α} {empty : α} {set : ServiceDraft → α → ServiceDraft}
    {apply : α → Option (Except AppError α)} (hd : d.Clean)
    (h : applyServicePolicyValue d section_ key message get empty set apply = .ok d')
    (hset : ∀ s p, (set s p).id = s.id ∧ (set s p).upstreams = s.upstreams) : d'.Clean := by
  unfold applyServicePolicyValue at h
  split_ifs at h
  split at h
  · cases h
    refine { hd with services := forall_mem_modifyLast (fun s hs => ?_) hd.services }
    rwa [(hset _ _).1, (hset _ _).2]
  · obtain ⟨services, hservices, h⟩ := bind_eq_ok.mp h
    cases h
    refine { hd with
      services := forall_mem_updateLast (fun s s' hs hclean => ?_) hd.services hservices }
    obtain ⟨_, -, hs⟩ := bind_eq_ok.mp hs
    cases hs
    rwa [(hset _ _).1, (hset _ _).2]

theorem applyMvpConfigValue_clean (hvalue : '\n' ∉ value) (hd : d.Clean) (section_ : Section)
    (h : applyMvpConfigValue d section_ key value = .ok d') : d'.Clean := by
  unfold applyMvpConfigValue at h
  cases section_ with
  | top =>
    simp only at h
    split_ifs at h
    · exact of_return h fun _ _ => { hd with }
    · exact hd.unknownField h
  | admin =>
    simp only at h
    split_ifs at h
    · exact unbroken_of_return hvalue h fun v hv => { hd with adminBind := by simpa using hv }
    · cases h
      exact hd
    · exact hd.unknownField h
  | logging =>
    simp only at h
    split_ifs at h
    · obtain ⟨v, -, h⟩ := bind_eq_ok.mp h
      exact of_return h fun _ _ => { hd with }
    · exact hd.unknownField h
  | storage =>
    simp only at h
    split_ifs at h
    · cases h
      exact hd
    · exact hd.unknownField h
  | runtime =>
    simp only at h
    split_ifs at h
    · exact of_return h fun n hn => { hd with maxConnections := by simpa using parseNumber_lt hn }
    · exact of_return h fun n hn =>
        { hd with maxInflightPayloadBytes := by simpa using parseNumber_lt hn }
    · exact of_return h fun n hn =>
        { hd with upstreamReadTimeoutMs := by simpa using parseNumber_lt hn }
    · exact hd.unknownField h
  | metrics =>
    simp only at h
    split_ifs at h
    · exact of_return h fun _ _ => { hd with }
    · exact unbroken_of_return hvalue h fun v hv => { hd with metricsBind := by simpa using hv }
    · exact hd.unknownField h
  | listeners =>
    simp only [applyListenersValue] at h
    split at h
    · exact hd.unknownField h
    · split_ifs at h
      exact of_return h fun _ hlisteners => { hd with
        listeners := forall_mem_updateLast (fun l l' hl => applyListenerValue_clean hvalue hl)
          hd.listeners hlisteners }
  | services =>
    simp only [applyServicesValue] at h
    split_ifs at h
    · cases h
      exact hd
    · exact unbroken_of_return hvalue h fun v hv => { hd with
        services := forall_mem_modifyLast (fun s hs => ⟨hv, hs.2⟩) hd.services }
    · cases h
      exact hd
    · obtain ⟨_, -, h⟩ := bind_eq_ok.mp h
      exact of_return h fun _ _ =>
        { hd with services := forall_mem_modifyLast (fun s hs => hs) hd.services }
    · exact hd.unknownField h
  | servicesHealthCheck | servicesRetry | servicesPassiveHealth =>
    simp only at h
    exact applyServicePolicyValue_clean hd h fun _ _ => ⟨rfl, rfl⟩
  | servicesUpstreams =>
    simp only [applyUpstreamsValue] at h
    split at h
    · exact hd.unknownField h
    · split_ifs at h
      obtain ⟨services, hservices, h⟩ := bind_eq_ok.mp h
      cases h
      refine { hd with
        services := forall_mem_updateLast (fun s s' hs hclean => ?_) hd.services hservices }
      obtain ⟨_, hupstreams, hs⟩ := bind_eq_ok.mp hs
      cases hs
      exact ⟨hclean.1, forall_mem_updateLast (fun u u' hu => applyUpstreamValue_clean hvalue hu)
        hclean.2 hupstreams⟩
  | routes =>
    simp only [applyRoutesValue] at h
    split at h
    · exact hd.unknownField h
    · exact of_return h fun _ hroutes => { hd with
        routes := forall_mem_updateLast (fun r r' hr => applyRouteValue_clean hvalue hr)
          hd.routes hroutes }
  | other =>
    exact hd.unknownField h

theorem readable_empty : Route.empty.Readable where
  id := by decide
  serviceId := by decide
  certificateRef := by simp [Route.empty]
  hosts := by simp [Route.empty]
  paths := by simp [Route.empty]

theorem startItem_clean {name : Text} (hd : d.Clean) (h : startItem name d = .ok d') :
    d'.Clean := by
  unfold startItem at h
  split at h
  · cases h
    exact { hd with listeners := by simpa [or_imp, forall_and] using hd.listeners }
  · cases h
    refine { hd with services := forall_mem_append.mpr ⟨hd.services, by simp⟩ }
  · split_ifs at h
    cases h
    refine { hd with services := forall_mem_modifyLast (fun s hs => ⟨hs.1, ?_⟩) hd.services }
    exact forall_mem_append.mpr ⟨hs.2, by simp⟩
  · cases h
    refine { hd with routes := forall_mem_append.mpr ⟨hd.routes, ?_⟩ }
    simpa using readable_empty
  · cases h
    exact { hd with }

theorem startTable_clean {name : Text} (hd : d.Clean) (h : startTable name d = .ok d') :
    d'.Clean := by
  unfold startTable startServicePolicy at h
  simp only at h
  split at h
  case h_4 =>
    cases h
    exact { hd with }
  all_goals
    split_ifs at h
    cases h
    exact { hd with services := forall_mem_modifyLast (fun s hs => hs) hd.services }

theorem parseLine_clean {state state' : ParserState} {line : Text} (hline : '\n' ∉ line)
    (hd : state.draft.Clean) (h : parseLine state line = .ok state') : state'.draft.Clean := by
  unfold parseLine at h
  simp only at h
  split_ifs at h
  · cases h
    exact hd
  · exact of_return (P := fun s => s.draft.Clean) h fun _ => startItem_clean hd
  · exact of_return (P := fun s => s.draft.Clean) h fun _ => startTable_clean hd
  · split at h
    · cases h
    · next key value hsplit =>
      obtain ⟨_, happly, h⟩ := bind_eq_ok.mp h
      cases h
      refine applyMvpConfigValue_clean (fun hmem => hline (mem_of_mem_trim ?_)) hd _ happly
      rw [(splitOnce_eq_some hsplit).1]
      exact mem_append_right _ (mem_cons_of_mem _ (mem_of_mem_trim hmem))

theorem mem_lines {l : Text} (h : l ∈ lines t) : '\n' ∉ l := by
  have hparts : ∀ p ∈ t.splitOn '\n', '\n' ∉ p :=
    fun p hp hmem => absurd (mem_splitOnP hp _ hmem).2 (by decide)
  rcases mem_append.mp h with h | h
  · obtain ⟨p, hp, rfl⟩ := mem_map.mp h
    have hp := hparts p (dropLast_subset _ hp)
    rw [stripSuffix]
    split_ifs
    · exact fun hmem => hp (( take_prefix _ _).subset hmem)
    · exact hp
  · exact hparts l (mem_of_getLast? (Option.filter_eq_some_iff.mp (Option.mem_toList.mp h)).1)

theorem parseLines_clean {ls : List Text} {state state' : ParserState} (hls : ∀ l ∈ ls, '\n' ∉ l)
    (hd : state.draft.Clean) (h : parseLines ls state = .ok state') : state'.draft.Clean := by
  induction ls generalizing state with
  | nil =>
    cases h
    exact hd
  | cons _ _ ih =>
    obtain ⟨hl, hls⟩ := forall_mem_cons.mp hls
    obtain ⟨_, hmid, h⟩ := bind_eq_ok.mp h
    exact ih hls (parseLine_clean hl hd hmid) h

end Drafts

section Checked

theorem TrustBundleRef.parse_unbroken {ref : TrustBundleRef}
    (h : TrustBundleRef.parse value = .ok ref) : '\n' ∉ ref.value := by
  unfold TrustBundleRef.parse at h
  split_ifs at h with hv
  cases h
  intro hmem
  simp only [Bool.or_eq_true, not_or, Bool.not_eq_true', all_eq_false, not_exists, not_and,
    Bool.not_eq_true, Bool.not_eq_false] at hv
  exact absurd (hv.2 _ hmem) (by decide)

theorem TlsServerName.parse_unbroken {name : TlsServerName} (hvalue : '\n' ∉ value)
    (h : TlsServerName.parse value = .ok name) : '\n' ∉ name.value := by
  unfold TlsServerName.parse at h
  simp only at h
  split_ifs at h
  cases h
  exact notMem_toAsciiLowercase rfl fun hmem => hvalue (( rdropWhile_prefix _ _).subset hmem)

theorem UpstreamEndpoint.parse_unbroken {url : Text} {endpoint : UpstreamEndpoint}
    (h : UpstreamEndpoint.parse url = .ok endpoint) : '\n' ∉ url := by
  unfold UpstreamEndpoint.parse at h
  split_ifs at h with hv
  intro hmem
  simp only [Bool.or_eq_true, not_or, any_eq_true, not_exists, not_and, Bool.not_eq_true] at hv
  exact absurd (hv.1 _ hmem) (by decide)

theorem liftValidation_eq_ok {α : Type} {x : Except ValidationError α} {a : α} :
    liftValidation x = .ok a ↔ x = .ok a := by
  cases x <;> simp [liftValidation]

variable {schemaVersion : UInt32} {draft : ServiceDraft}

theorem normalizeListener_readable {draft : ListenerDraft} {l : Listener}
    (hdraft : draft.Unbroken) (h : normalizeListener schemaVersion draft = .ok l) : l.Readable := by
  obtain ⟨auth, hauth, h⟩ := bind_eq_ok.mp h
  cases h
  refine ⟨hdraft.1, hdraft.2, fun ref href => ?_⟩
  rw [liftValidation_eq_ok, show auth = .required ref from href] at hauth
  unfold normalizeClientAuthPolicy at hauth
  split at hauth
  · split_ifs at hauth
    cases hauth
  · split_ifs at hauth
    cases hauth
  · split_ifs at hauth
    obtain ⟨ref', hparse, heq⟩ := map_eq_ok.mp hauth
    obtain rfl : ref' = ref := by simpa using heq
    exact TrustBundleRef.parse_unbroken hparse
  · cases hauth

theorem normalizeUpstreamTlsPolicy_eq_ok {url : Text} {serverName httpHost bundle : Option Text}
    {tls : UpstreamTlsPolicy} :
    normalizeUpstreamTlsPolicy schemaVersion url serverName httpHost bundle = .ok tls ↔
      ∃ endpoint, UpstreamEndpoint.parse url = .ok endpoint ∧ match tls with
        | .disabled => (schemaVersion = 1 ∨ schemaVersion = 2) ∧ endpoint.scheme = .http ∧
            serverName = none ∧ httpHost = none ∧ bundle = none
        | .serverAuthenticated name host ref => schemaVersion = 2 ∧ endpoint.scheme = .https ∧
            (∃ v ∈ serverName, TlsServerName.parse v = .ok name) ∧
            (∃ v ∈ httpHost, UpstreamHttpHost.parse v = .ok host) ∧
            ∃ v ∈ bundle, TrustBundleRef.parse v = .ok ref := by
  rw [normalizeUpstreamTlsPolicy.eq_def, bind_eq_ok]
  refine exists_congr fun endpoint => and_congr_right fun _ => ?_
  by_cases h₁ : schemaVersion = 1 <;> by_cases h₂ : schemaVersion = 2 <;>
    cases hs : endpoint.scheme <;> rcases serverName with _ | serverName <;>
    rcases httpHost with _ | httpHost <;> rcases bundle with _ | bundle <;> cases tls <;>
    simp_all [bind_eq_ok, pure, Except.pure, -bind_pure_comp]

theorem normalizeUpstream_readable {draft : UpstreamDraft} {u : Upstream}
    (hdraft : draft.Unbroken) (h : normalizeUpstream schemaVersion draft = .ok u) : u.Readable := by
  obtain ⟨tls, htls, h⟩ := bind_eq_ok.mp h
  cases h
  rw [liftValidation_eq_ok, normalizeUpstreamTlsPolicy_eq_ok] at htls
  obtain ⟨_, hendpoint, htls⟩ := htls
  refine ⟨hdraft.1, UpstreamEndpoint.parse_unbroken hendpoint, fun name host ref hsome => ?_⟩
  rw [show tls = .serverAuthenticated name host ref from hsome] at htls
  obtain ⟨-, -, ⟨v, hv, hname⟩, ⟨_, -, hhost⟩, _, -, href⟩ := htls
  exact ⟨TlsServerName.parse_unbroken (hdraft.2 v hv) hname,
    fun hmem => absurd ((UpstreamHttpHost.parse_ok hhost).2 _ hmem).2 (by decide),
    TrustBundleRef.parse_unbroken href⟩

theorem HttpHealthCheckPolicy.readable_of_new {p q : HttpHealthCheckPolicy} (h : p.new = .ok q) :
    q.Readable := by
  unfold HttpHealthCheckPolicy.new at h
  split_ifs at h with hpath htimes hthresholds hstatus
  cases h
  refine ⟨fun hmem => ?_, ?_, ?_, ?_, ?_, ?_, ?_⟩
  · simp only [Bool.or_eq_true, not_or, any_eq_true, not_exists, not_and, Bool.not_eq_true] at hpath
    exact absurd (hpath.2 _ hmem) (by decide)
  all_goals omega

theorem normalizeUpstreamIds_readable {stage stage' : ServiceStage} (hid : '\n' ∉ stage.draft.id)
    (hstage : ∀ u ∈ stage.upstreams, u.Readable) (h : normalizeUpstreamIds stage = .ok stage') :
    stage'.draft = stage.draft ∧ ∀ u ∈ stage'.upstreams, u.Readable := by
  unfold normalizeUpstreamIds at h
  split at h
  · next u hu =>
    split_ifs at h
    · cases h
      have hread := hstage u (by simp [hu])
      refine ⟨rfl, forall_mem_singleton.mpr { hread with id := ?_ }⟩
      simp only [mem_append, not_or]
      exact ⟨hid, by decide⟩
    · cases h
      exact ⟨rfl, hstage⟩
  · split_ifs at h
    cases h
    exact ⟨rfl, hstage⟩

theorem normalizeHealthCheck_readable {check : HealthCheckPolicy}
    (h : normalizeHealthCheck draft = .ok check) {p : HttpHealthCheckPolicy}
    (hp : check = .http p) : p.Readable := by
  subst hp
  unfold normalizeHealthCheck at h
  split at h
  · cases h
  · split_ifs at h
    · cases h
    · obtain ⟨_, hq, heq⟩ := map_eq_ok.mp h
      cases heq
      exact HttpHealthCheckPolicy.readable_of_new (liftValidation_eq_ok.mp hq)

theorem normalizeRetry_inRange {retry : RetryPolicy} (h : normalizeRetry draft = .ok retry) :
    retry.maxRetries < 2 ^ 8 ∧ retry.maxReplayBytes < 2 ^ 64 := by
  unfold normalizeRetry at h
  split at h
  · cases h
    decide
  · rw [liftValidation_eq_ok, RetryPolicy.new, ite_error_eq_ok] at h
    obtain ⟨hchecks, h⟩ := h
    cases h
    omega

theorem normalizePassiveHealth_inRange {mode : PassiveHealthMode}
    (h : normalizePassiveHealth draft = .ok mode) {p : PassiveHealthPolicy}
    (hp : mode = .enabled p) : p.failureThreshold < 2 ^ 8 ∧ p.ejectionMs < 2 ^ 64 := by
  subst hp
  unfold normalizePassiveHealth at h
  split at h
  · cases h
  · split_ifs at h
    · obtain ⟨_, hq, heq⟩ := map_eq_ok.mp h
      cases heq
      rw [liftValidation_eq_ok, PassiveHealthPolicy.new, ite_error_eq_ok] at hq
      obtain ⟨hchecks, hq⟩ := hq
      cases hq
      omega
    · cases h

theorem normalizeServices_readable {drafts : List ServiceDraft} {services : List Service}
    (hdrafts : ∀ s ∈ drafts, '\n' ∉ s.id ∧ ∀ u ∈ s.upstreams, u.Unbroken)
    (h : normalizeServices schemaVersion drafts = .ok services) :
    ∀ service ∈ services, service.Readable := by
  obtain ⟨_, hstages, h⟩ := bind_eq_ok.mp h
  obtain ⟨_, hstages', h⟩ := bind_eq_ok.mp h
  obtain ⟨_, hchecks, h⟩ := bind_eq_ok.mp h
  obtain ⟨_, hretries, h⟩ := bind_eq_ok.mp h
  obtain ⟨_, hpassives, h⟩ := bind_eq_ok.mp h
  cases h
  intro service hservice
  obtain ⟨⟨stage, _, _, _⟩, hmem, rfl⟩ := mem_map.mp hservice
  obtain ⟨hstage, hmem⟩ := of_mem_zip hmem
  obtain ⟨hcheck, hmem⟩ := of_mem_zip hmem
  obtain ⟨hretry, hpassive⟩ := of_mem_zip hmem
  obtain ⟨_, hstage₀, hids⟩ := exists_of_mem_mapM_ok hstages' hstage
  obtain ⟨draft, hdraft, hstage₀⟩ := exists_of_mem_mapM_ok hstages hstage₀
  obtain ⟨upstreams, hupstreams, hstage₀⟩ := bind_eq_ok.mp hstage₀
  cases hstage₀
  obtain ⟨hid, hnames⟩ := hdrafts draft hdraft
  have hread : ∀ u ∈ upstreams, u.Readable := by
    intro u hu
    obtain ⟨u₀, hu₀, hu⟩ := exists_of_mem_mapM_ok hupstreams hu
    exact normalizeUpstream_readable (hnames u₀ hu₀) hu
  obtain ⟨hsame, hread⟩ := normalizeUpstreamIds_readable hid hread hids
  obtain ⟨_, -, hcheck⟩ := exists_of_mem_mapM_ok hchecks hcheck
  obtain ⟨_, -, hretry⟩ := exists_of_mem_mapM_ok hretries hretry
  obtain ⟨_, -, hpassive⟩ := exists_of_mem_mapM_ok hpassives hpassive
  refine ⟨?_, fun p hp => normalizeHealthCheck_readable hcheck hp,
    normalizeRetry_inRange hretry, fun p hp => normalizePassiveHealth_inRange hpassive hp, hread⟩
  change '\n' ∉ stage.draft.id
  rw [hsame]
  exact hid

theorem parseMvpConfig_readable {source revisionId : Text} {parsed : ConfigSource}
    (h : parseMvpConfig source revisionId = .ok parsed) : parsed.snapshot.Readable := by
  obtain ⟨state, hstate, h⟩ := bind_eq_ok.mp h
  have hclean : state.draft.Clean := by
    refine parseLines_clean (fun l hl => mem_lines hl) ?_ hstate
    constructor <;> simp
  obtain ⟨listeners, hlisteners, h⟩ := bind_eq_ok.mp h
  obtain ⟨services, hservices, h⟩ := bind_eq_ok.mp h
  cases h
  have hdefault {α : Type} {P : α → Prop} {o : Option α} {a : α} (ha : P a) (ho : ∀ b ∈ o, P b) :
      P (o.getD a) := by
    cases o with
    | none => exact ha
    | some b => exact ho b rfl
  constructor
  · exact hdefault (by decide) hclean.adminBind
  · exact fun _ => hdefault (by decide) hclean.metricsBind
  · exact hdefault (by decide) hclean.maxConnections
  · exact hdefault (by decide) hclean.maxInflightPayloadBytes
  · exact hdefault (by decide) hclean.upstreamReadTimeoutMs
  · intro l hl
    obtain ⟨draft, hdraft, hl⟩ := exists_of_mem_mapM_ok hlisteners hl
    exact normalizeListener_readable (hclean.listeners draft hdraft) hl
  · exact normalizeServices_readable hclean.services hservices
  · exact hclean.routes

end Checked

end EdgeProxy
