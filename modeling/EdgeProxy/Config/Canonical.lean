import EdgeProxy.Config.Parsed

/-! # Snapshots that survive a rendering

A rendered snapshot is read back to itself exactly when it is canonical: its texts stand on their
lines, the parts that the renderer leaves out have the values the parser fills in, hosts and paths
are normalized with the exact paths last, and every policy is one its constructor accepts.
-/

namespace EdgeProxy

open Rust Render List

def ClientAuthPolicy.Normal (schemaVersion : UInt32) (protocol : ListenerProtocol) :
    ClientAuthPolicy → Prop
  | .disabled => schemaVersion = 1 ∨ schemaVersion = 2
  | .required ref => schemaVersion = 2 ∧ protocol = .https ∧
      TrustBundleRef.parse ref.value = .ok ref

def UpstreamTlsPolicy.Normal (schemaVersion : UInt32) (scheme : UpstreamScheme) :
    UpstreamTlsPolicy → Prop
  | .disabled => (schemaVersion = 1 ∨ schemaVersion = 2) ∧ scheme = .http
  | .serverAuthenticated name host ref => schemaVersion = 2 ∧ scheme = .https ∧
      TlsServerName.parse name.value = .ok name ∧ UpstreamHttpHost.parse host.value = .ok host ∧
      TrustBundleRef.parse ref.value = .ok ref

structure Upstream.Normal (schemaVersion : UInt32) (u : Upstream) : Prop where
  id : u.id ≠ []
  tls : ∃ endpoint, UpstreamEndpoint.parse u.url = .ok endpoint ∧
    u.tls.Normal schemaVersion endpoint.scheme

structure Service.Normal (schemaVersion : UInt32) (service : Service) : Prop where
  upstreams : ∀ u ∈ service.upstreams, u.Normal schemaVersion
  healthCheck : ∀ p, service.policy.healthCheck = .http p → p.new = .ok p
  retry : service.policy.retry.new = .ok service.policy.retry
  passiveHealth : ∀ p, service.policy.passiveHealth = .enabled p → p.new = .ok p

structure Route.Normal (r : Route) : Prop where
  hosts : ∀ host ∈ r.routeMatch.hosts, normalizeHost host.normalized = host.normalized
  paths : ∀ path ∈ r.routeMatch.paths, normalizePath path.pathText = path.pathText
  exactLast : r.routeMatch.paths.filter (·.isExact == false) ++
    r.routeMatch.paths.filter (·.isExact == true) = r.routeMatch.paths
  certificateResolverId : r.certificateResolverId = none

/-- What the parser makes of the parts that are not written, or written in one form only. -/
structure ConfigSnapshot.Normal (s : ConfigSnapshot) : Prop where
  admin : s.admin.authRequired = true
  metrics : s.runtime.metrics.enabled = false → s.runtime.metrics.bind = "127.0.0.1:9464".toList
  maxRequestHeaderBytes : s.runtime.maxRequestHeaderBytes = fixedRequestHeaderReserveBytes
  maxRequestBodyBytes : s.runtime.maxRequestBodyBytes = defaultMaxRequestBodyBytes
  certificateResolvers : s.certificateResolvers = []
  listeners : ∀ l ∈ s.listeners, l.clientAuth.Normal s.schemaVersion l.protocol
  services : ∀ v ∈ s.services, v.Normal s.schemaVersion
  routes : ∀ r ∈ s.routes, r.Normal

structure ConfigSnapshot.Canonical (s : ConfigSnapshot) : Prop where
  readable : s.Readable
  normal : s.Normal

section Fixed

theorem mapM_cons_eq_ok {α β ε : Type} {f : α → Except ε β} {a : α} {l : List α} {r : List β} :
    (a :: l).mapM f = .ok r ↔ ∃ b bs, f a = .ok b ∧ l.mapM f = .ok bs ∧ r = b :: bs := by
  simp only [mapM_cons, bind_eq_ok]
  constructor
  · rintro ⟨b, hb, bs, hbs, h⟩
    exact ⟨b, bs, hb, hbs, (Except.ok.inj h).symm⟩
  · rintro ⟨b, bs, hb, hbs, rfl⟩
    exact ⟨b, hb, bs, hbs, rfl⟩

theorem mapM_map_eq_ok_iff {α β ε : Type} {f : β → Except ε α} {g : α → β} {l : List α} :
    (l.map g).mapM f = .ok l ↔ ∀ a ∈ l, f (g a) = .ok a := by
  induction l with
  | nil => simp [pure, Except.pure]
  | cons _ _ ih =>
    rw [map_cons, mapM_cons_eq_ok, forall_mem_cons, ← ih]
    simp

variable {schemaVersion : UInt32} {service : Service} {s : ConfigSnapshot}

theorem normalizeListener_ofListener {l : Listener} :
    normalizeListener schemaVersion (.ofListener l) = .ok l ↔
      l.clientAuth.Normal schemaVersion l.protocol := by
  obtain ⟨_, _, protocol, auth⟩ := l
  simp only [normalizeListener, bind_eq_ok, liftValidation_eq_ok]
  cases auth with
  | disabled =>
    simp [ListenerDraft.ofListener, normalizeClientAuthPolicy, ClientAuthPolicy.Normal, pure,
      Except.pure, or_iff_not_imp_left]
  | required =>
    by_cases h₁ : schemaVersion = 2 <;> by_cases h₂ : protocol = .https <;>
      simp [ListenerDraft.ofListener, normalizeClientAuthPolicy, ClientAuthPolicy.Normal, pure,
        Except.pure, map_eq_ok, h₁, h₂]

theorem normalizeUpstream_ofUpstream {u : Upstream} :
    normalizeUpstream schemaVersion (.ofUpstream u) = .ok u ↔
      ∃ endpoint, UpstreamEndpoint.parse u.url = .ok endpoint ∧
        u.tls.Normal schemaVersion endpoint.scheme := by
  obtain ⟨_, _, _, tls⟩ := u
  simp only [normalizeUpstream, bind_eq_ok, liftValidation_eq_ok, normalizeUpstreamTlsPolicy_eq_ok]
  cases tls with
  | disabled =>
    simp [UpstreamDraft.ofUpstream, UpstreamTlsPolicy.Normal, pure, Except.pure]
  | serverAuthenticated =>
    simp [UpstreamDraft.ofUpstream, UpstreamTlsPolicy.Normal, pure, Except.pure]

/-- One service at a time: the passes of `normalizeServices` agree with it when they succeed. -/
def normalizeService (schemaVersion : UInt32) (draft : ServiceDraft) : Except AppError Service := do
  let stage ← normalizeUpstreams schemaVersion draft
  let stage ← normalizeUpstreamIds stage
  let healthCheck ← normalizeHealthCheck draft
  let retry ← normalizeRetry draft
  let passiveHealth ← normalizePassiveHealth draft
  return ⟨stage.draft.id, stage.upstreams, stage.draft.loadBalancing, healthCheck, retry,
    passiveHealth⟩

theorem normalizeServices_eq_ok {drafts : List ServiceDraft} {services : List Service} :
    normalizeServices schemaVersion drafts = .ok services ↔
      drafts.mapM (normalizeService schemaVersion) = .ok services := by
  induction drafts generalizing services with
  | nil => rfl
  | cons _ _ ih =>
    simp only [mapM_cons_eq_ok, ← ih, normalizeServices, normalizeService, bind_eq_ok]
    constructor
    · rintro ⟨_, ⟨stage, stages, hstage, hstages, rfl⟩, _, hids,
        _, ⟨check, checks, hcheck, hchecks, rfl⟩, _, ⟨retry, retries, hretry, hretries, rfl⟩,
        _, ⟨passive, passives, hpassive, hpassives, rfl⟩, h⟩
      obtain ⟨named, nameds, hnamed, hnameds, rfl⟩ := mapM_cons_eq_ok.mp hids
      exact ⟨_, _, ⟨stage, hstage, named, hnamed, check, hcheck, retry, hretry, passive, hpassive,
        rfl⟩, ⟨stages, hstages, nameds, hnameds, checks, hchecks, retries, hretries, passives,
        hpassives, rfl⟩, (Except.ok.inj h).symm⟩
    · rintro ⟨_, _, ⟨stage, hstage, named, hnamed, check, hcheck, retry, hretry, passive, hpassive,
        h⟩, ⟨stages, hstages, nameds, hnameds, checks, hchecks, retries, hretries, passives,
        hpassives, hs⟩, rfl⟩
      cases h
      cases hs
      exact ⟨_, ⟨stage, stages, hstage, hstages, rfl⟩, _,
        mapM_cons_eq_ok.mpr ⟨named, nameds, hnamed, hnameds, rfl⟩, _,
        ⟨check, checks, hcheck, hchecks, rfl⟩, _, ⟨retry, retries, hretry, hretries, rfl⟩, _,
        ⟨passive, passives, hpassive, hpassives, rfl⟩, rfl⟩

theorem normalizeUpstreamIds_same {stage stage' : ServiceStage}
    (hids : stage'.upstreams.map Upstream.id = stage.upstreams.map Upstream.id) :
    normalizeUpstreamIds stage = .ok stage' ↔
      stage' = stage ∧ ∀ u ∈ stage.upstreams, u.id ≠ [] := by
  obtain ⟨_, upstreams⟩ := stage
  unfold normalizeUpstreamIds
  split
  · next u hu =>
    obtain rfl : upstreams = [u] := hu
    split_ifs with hempty
    · have hid : u.id = [] := List.isEmpty_iff.mp hempty
      simp only [forall_mem_singleton, hid, ne_eq, not_true_eq_false, and_false, iff_false]
      intro h
      cases h
      simp [hid] at hids
    · simp [List.isEmpty_iff] at hempty
      simp [hempty, eq_comm]
  · split_ifs with hany
    · simp only [List.any_eq_true, List.isEmpty_iff] at hany
      obtain ⟨u, hu, hid⟩ := hany
      simp only [false_iff, not_and, not_forall]
      exact fun _ => ⟨u, hu, by simp [hid]⟩
    · have hnames : ∀ u ∈ upstreams, u.id ≠ [] := by simpa using hany
      exact ⟨fun h => ⟨(Except.ok.inj h).symm, hnames⟩, fun h => congrArg Except.ok h.1.symm⟩

theorem normalizeUpstream_id {draft : UpstreamDraft} {u : Upstream}
    (h : normalizeUpstream schemaVersion draft = .ok u) : u.id = draft.id := by
  obtain ⟨_, -, h⟩ := bind_eq_ok.mp h
  cases h
  rfl

theorem UpstreamDraft.id_ofUpstream (u : Upstream) : (UpstreamDraft.ofUpstream u).id = u.id := by
  unfold UpstreamDraft.ofUpstream
  cases u.tls <;> rfl

theorem normalizeHealthCheck_ofService :
    normalizeHealthCheck (.ofService service) = .ok service.policy.healthCheck ↔
      ∀ p, service.policy.healthCheck = .http p → p.new = .ok p := by
  unfold normalizeHealthCheck ServiceDraft.ofService
  cases service.policy.healthCheck with
  | disabled => simp
  | http =>
    simp [HttpHealthCheckDraft.ofPolicy, map_eq_ok, liftValidation_eq_ok]

theorem normalizePassiveHealth_ofService :
    normalizePassiveHealth (.ofService service) = .ok service.policy.passiveHealth ↔
      ∀ p, service.policy.passiveHealth = .enabled p → p.new = .ok p := by
  unfold normalizePassiveHealth ServiceDraft.ofService
  cases service.policy.passiveHealth with
  | disabled => simp [PassiveHealthPolicyDraft.ofMode, PassiveHealthMode.written]
  | enabled =>
    simp [PassiveHealthPolicyDraft.ofMode, PassiveHealthMode.written, map_eq_ok,
      liftValidation_eq_ok]

theorem normalizeService_ofService :
    normalizeService schemaVersion (.ofService service) = .ok service ↔
      service.Normal schemaVersion := by
  have hids : ∀ us, (service.upstreams.map UpstreamDraft.ofUpstream).mapM
      (normalizeUpstream schemaVersion) = .ok us →
      us.map Upstream.id = service.upstreams.map Upstream.id := by
    intro us hus
    rw [map_of_mapM_ok (fun _ _ => normalizeUpstream_id) hus, map_map]
    exact map_congr_left fun u _ => UpstreamDraft.id_ofUpstream u
  constructor
  · intro h
    obtain ⟨_, hstage, h⟩ := bind_eq_ok.mp h
    obtain ⟨us, hus, hstage⟩ := bind_eq_ok.mp hstage
    cases hstage
    obtain ⟨named, hnamed, h⟩ := bind_eq_ok.mp h
    obtain ⟨check, hcheck, h⟩ := bind_eq_ok.mp h
    obtain ⟨retry, hretry, h⟩ := bind_eq_ok.mp h
    obtain ⟨passive, hpassive, h⟩ := bind_eq_ok.mp h
    have h := Except.ok.inj h
    have hupstreams : named.upstreams = service.upstreams := congrArg Service.upstreams h
    have hpolicy := congrArg Service.policy h
    have hcheckEq : check = service.policy.healthCheck := congrArg ServicePolicy.healthCheck hpolicy
    have hretryEq : retry = service.policy.retry := congrArg ServicePolicy.retry hpolicy
    have hpassiveEq : passive = service.policy.passiveHealth :=
      congrArg ServicePolicy.passiveHealth hpolicy
    obtain ⟨rfl, hnames⟩ := (normalizeUpstreamIds_same (by rw [hupstreams, hids us hus])).mp hnamed
    obtain rfl : us = service.upstreams := hupstreams
    refine ⟨fun u hu => ⟨hnames u hu, ?_⟩, normalizeHealthCheck_ofService.mp (hcheckEq ▸ hcheck),
      ?_,
      normalizePassiveHealth_ofService.mp (hpassiveEq ▸ hpassive)⟩
    · exact normalizeUpstream_ofUpstream.mp (mapM_map_eq_ok_iff.mp hus u hu)
    · subst hretryEq
      exact liftValidation_eq_ok.mp hretry
  · intro h
    have hus := mapM_map_eq_ok_iff.mpr fun u hu =>
      normalizeUpstream_ofUpstream.mpr (h.upstreams u hu).tls
    have hstage : normalizeUpstreams schemaVersion (.ofService service) =
        .ok ⟨.ofService service, service.upstreams⟩ := by
      rw [normalizeUpstreams]
      change (service.upstreams.map UpstreamDraft.ofUpstream).mapM _ >>= _ = _
      rw [hus]
      rfl
    have hnamed : normalizeUpstreamIds ⟨.ofService service, service.upstreams⟩ =
        .ok ⟨.ofService service, service.upstreams⟩ :=
      (normalizeUpstreamIds_same rfl).mpr ⟨rfl, fun u hu => (h.upstreams u hu).id⟩
    have hretry : normalizeRetry (.ofService service) = .ok service.policy.retry :=
      liftValidation_eq_ok.mpr h.retry
    rw [normalizeService, hstage, ok_bind, hnamed, ok_bind,
      normalizeHealthCheck_ofService.mpr h.healthCheck, ok_bind, hretry, ok_bind,
      normalizePassiveHealth_ofService.mpr h.passiveHealth, ok_bind]
    rfl

theorem paths_reread_iff {paths : List PathMatch} :
    (pathTexts false paths).map PathMatch.below ++ (pathTexts true paths).map PathMatch.exact =
        paths ↔
      (∀ path ∈ paths, normalizePath path.pathText = path.pathText) ∧
        paths.filter (·.isExact == false) ++ paths.filter (·.isExact == true) = paths := by
  have hself : ∀ isExact, (∀ p ∈ paths, normalizePath p.pathText = p.pathText) →
      (pathTexts isExact paths).map (fun t => ⟨normalizePath t, isExact⟩) =
        paths.filter (·.isExact == isExact) := by
    intro isExact h
    rw [pathTexts, map_map]
    conv_rhs => rw [← map_id (paths.filter _)]
    refine map_congr_left fun p hp => ?_
    obtain ⟨hmem, hexact⟩ := mem_filter.mp hp
    obtain ⟨t, e⟩ := p
    obtain rfl : e = isExact := by simpa using hexact
    exact congrArg (PathMatch.mk · e) (h _ hmem)
  constructor
  · intro h
    -- the paths of each kind are read back to themselves
    have hkind : ∀ isExact, (pathTexts isExact paths).map (fun t => ⟨normalizePath t, isExact⟩) =
        paths.filter (·.isExact == isExact) := by
      intro isExact
      conv_rhs => rw [← h]
      cases isExact <;>
        simp [filter_append, filter_map, Function.comp_def, PathMatch.below, PathMatch.exact]
    have hnormal : ∀ p ∈ paths, normalizePath p.pathText = p.pathText := by
      intro p hp
      have h := hkind p.isExact
      rw [pathTexts, map_map] at h
      conv_rhs at h => rw [← map_id (paths.filter _)]
      exact congrArg PathMatch.pathText (map_inj_left.mp h p (by simp [hp]))
    refine ⟨hnormal, ?_⟩
    rw [← hself false hnormal, ← hself true hnormal]
    exact h
  · rintro ⟨hnormal, hlast⟩
    rw [← hself false hnormal, ← hself true hnormal] at hlast
    exact hlast

theorem Route.reread_eq_self_iff {r : Route} : r.reread = r ↔ r.Normal := by
  obtain ⟨_, ⟨hosts, _⟩, _, _, _, _, _, _⟩ := r
  have hhosts : (hosts.map HostMatch.normalized).map HostMatch.exact = hosts ↔
      ∀ host ∈ hosts, normalizeHost host.normalized = host.normalized := by
    rw [map_map]
    conv_lhs => rhs; rw [← map_id hosts]
    rw [map_inj_left]
    exact forall₂_congr fun host _ =>
      ⟨fun h => congrArg HostMatch.normalized h, fun h => congrArg HostMatch.mk h⟩
  simp only [Route.reread, Route.mk.injEq, RouteMatch.mk.injEq, hhosts, paths_reread_iff, true_and,
    and_true]
  constructor
  · rintro ⟨⟨h₁, h₂, h₃⟩, rfl⟩
    exact ⟨h₁, h₂, h₃, rfl⟩
  · rintro ⟨h₁, h₂, h₃, h₄⟩
    exact ⟨⟨h₁, h₂, h₃⟩, h₄.symm⟩

theorem finishDraft_ofSnapshot {parsed : ConfigSource}
    (h : finishDraft (.ofSnapshot s) s.revisionId = .ok parsed) :
    parsed = ⟨parsed.snapshot, true, []⟩ := by
  obtain ⟨_, -, h⟩ := bind_eq_ok.mp h
  obtain ⟨_, -, h⟩ := bind_eq_ok.mp h
  cases h
  rfl

theorem parse_render_eq_iff :
    parseMvpConfig (renderMvpConfigSnapshot s) s.revisionId = .ok ⟨s, true, []⟩ ↔ s.Canonical := by
  have hfinish : finishDraft (.ofSnapshot s) s.revisionId = .ok ⟨s, true, []⟩ ↔ s.Normal := by
    obtain ⟨_, _, ⟨_, _⟩, listeners, routes, services, resolvers, mode,
      ⟨connections, inflight, header, body, timeout, ⟨enabled, metrics⟩⟩⟩ := s
    simp only [finishDraft, bind_eq_ok, normalizeServices_eq_ok, MvpConfigDraft.ofSnapshot,
      Option.getD_some]
    constructor
    · rintro ⟨_, hls, _, hss, h⟩
      have h := Except.ok.inj h
      simp only [ConfigSource.mk.injEq, ConfigSnapshot.mk.injEq, AdminConfig.mk.injEq,
        RuntimeOptions.mk.injEq, MetricsConfig.mk.injEq] at h
      obtain ⟨⟨-, -, ⟨-, rfl⟩, rfl, hroutes, rfl, rfl, -, -, -, rfl, rfl, -, hmetrics⟩, -⟩ := h
      refine ⟨rfl, fun hoff => ?_, rfl, rfl, rfl, fun l hl => ?_, fun v hv => ?_, fun r hr => ?_⟩
      · obtain rfl : enabled = false := hoff
        exact hmetrics.2.symm
      · exact normalizeListener_ofListener.mp (mapM_map_eq_ok_iff.mp hls l hl)
      · exact normalizeService_ofService.mp (mapM_map_eq_ok_iff.mp hss v hv)
      · conv_rhs at hroutes => rw [← map_id routes]
        exact Route.reread_eq_self_iff.mp (map_inj_left.mp hroutes r hr)
    · rintro ⟨hauth, hmetrics, hheader, hbody, hresolvers, hlisteners, hservices, hroutes⟩
      refine ⟨listeners, mapM_map_eq_ok_iff.mpr fun l hl =>
        normalizeListener_ofListener.mpr (hlisteners l hl), services, mapM_map_eq_ok_iff.mpr
        fun v hv => normalizeService_ofService.mpr (hservices v hv), ?_⟩
      have hreread : routes.map Route.reread = routes := by
        conv_rhs => rw [← map_id routes]
        exact map_congr_left fun r hr => Route.reread_eq_self_iff.mpr (hroutes r hr)
      subst hauth hheader hbody hresolvers
      rw [hreread]
      cases enabled with
      | true => rfl
      | false =>
        obtain rfl : metrics = _ := hmetrics rfl
        rfl
  constructor
  · intro h
    have hreadable : s.Readable := parseMvpConfig_readable h
    rw [hreadable.parse_render] at h
    exact ⟨hreadable, hfinish.mp h⟩
  · rintro ⟨hreadable, hnormal⟩
    rw [hreadable.parse_render]
    exact hfinish.mpr hnormal

theorem reread_iff :
    (∃ parsed, parseMvpConfig (renderMvpConfigSnapshot s) s.revisionId = .ok parsed ∧
      parsed.snapshot = s) ↔ s.Canonical := by
  rw [← parse_render_eq_iff]
  constructor
  · rintro ⟨parsed, hparsed, rfl⟩
    have hreadable : parsed.snapshot.Readable := parseMvpConfig_readable hparsed
    have hfinish := hparsed
    rw [hreadable.parse_render] at hfinish
    rw [← finishDraft_ofSnapshot hfinish]
    exact hparsed
  · exact fun h => ⟨_, h, rfl⟩

end Fixed

end EdgeProxy
