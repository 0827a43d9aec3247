import EdgeProxy.Core.Runnable

/-! # Choosing a route

A request goes to the greatest of the enabled routes that match it: by priority, then by the length
of the longest matching path, then exact before prefix. Of equal routes the last would be taken, but
the keys that the validator compares leave no two equal.
-/

namespace EdgeProxy

open Rust List ConfigValidator Bool

def HostMatch.matchesHost (host : Text) (m : HostMatch) : Bool := m.normalized == normalizeHost host

def PathMatch.matchesPath (path : Text) (m : PathMatch) : Bool :=
  if m.isExact then normalizePath path == m.pathText
  else if m.pathText == "/".toList then true
  else normalizePath path == m.pathText ||
    (stripPrefix m.pathText (normalizePath path)).any (·.head? == some '/')

def PathMatch.specificity (m : PathMatch) : ℕ ×ₗ Bool :=
  toLex ((encode m.pathText).length, m.isExact)

def RouteMatch.matchesRequest (host path : Text) (m : RouteMatch) : Bool :=
  m.hosts.any (·.matchesHost host) && m.paths.any (·.matchesPath path)

def RouteMatch.bestPathSpecificity (path : Text) (m : RouteMatch) : ℕ ×ₗ Bool :=
  ((m.paths.filter (·.matchesPath path)).map PathMatch.specificity).maximum.unbotD
    (toLex (0, false))

def Route.matchesRequest (host path : Text) (r : Route) : Bool :=
  r.enabled && r.routeMatch.matchesRequest host path

instance rankPreorder : Preorder (ℤ ×ₗ (ℕ ×ₗ Bool)) :=
  (Prod.Lex.instLinearOrder ℤ (ℕ ×ₗ Bool)).toPreorder

/-- The key of `max_by_key`. -/
def Route.rank (path : Text) (r : Route) : ℤ ×ₗ (ℕ ×ₗ Bool) :=
  toLex (r.priority.toInt, r.routeMatch.bestPathSpecificity path)

/-- `max_by_key` takes the last of equal elements. -/
def ConfigSnapshot.selectRoute (snapshot : ConfigSnapshot) (host path : Text) : Option Route :=
  (snapshot.routes.filter (·.matchesRequest host path)).reverse.argmax (Route.rank path)

section Unique

variable {host path t : Text} {m m' : PathMatch} {r r' : Route}

theorem eq_of_prefix_of_length {l l' t : Text} (h : l <+: t) (h' : l' <+: t)
    (hlength : (encode l).length = (encode l').length) : l = l' := by
  wlog hle : l.length ≤ l'.length generalizing l l'
  · exact (this h' h hlength.symm (not_le.mp hle).le).symm
  · obtain ⟨_, rfl⟩ := prefix_of_prefix_length_le h h' hle
    rw [encode_append, length_append, left_eq_add, length_eq_zero_iff, encode_eq_nil_iff] at hlength
    rw [hlength, append_nil]

/-- A path is normalised with a slash before it. -/
theorem normalizePath_slashed (s : Text) : ∃ t, Trimmed ('/' :: t) ∧
    normalizePath s = normalizePath ('/' :: t) ∧
      (trim s = '/' :: t ∨ trim s = t ∧ t.head? ≠ some '/') := by
  by_cases hhead : (trim s).head? = some '/'
  · obtain ⟨t, ht⟩ := head?_eq_some_iff.mp hhead
    have hs : Trimmed ('/' :: t) := ht ▸ trimmed_trim s
    exact ⟨t, hs, by rw [normalizePath, normalizePath, ht, hs.trim_eq], .inl ht⟩
  · have hs : Trimmed ('/' :: trim s) := by
      refine ⟨by simpa using by decide, ?_⟩
      cases ht : trim s with
      | nil => simpa using by decide
      | cons => simpa [ht] using (trimmed_trim s).last
    refine ⟨trim s, hs, ?_, .inr ⟨rfl, hhead⟩⟩
    rw [normalizePath, normalizePath, if_neg hhead, hs.trim_eq]
    rfl

theorem normalizePath_slash (h : Trimmed ('/' :: t)) : normalizePath ('/' :: t) =
    if t = [] then ['/'] else trimEndMatches '/' ('/' :: t) := by
  rw [normalizePath, h.trim_eq]
  cases t <;> simp

theorem slash_prefix_normalizePath (hne : normalizePath path ≠ []) :
    ['/'] <+: normalizePath path := by
  obtain ⟨t, ht, heq, -⟩ := normalizePath_slashed path
  rw [heq, normalizePath_slash ht] at hne ⊢
  split_ifs at hne ⊢
  · exact prefix_rfl
  · have hpre : trimEndMatches '/' ('/' :: t) <+: '/' :: t := rdropWhile_prefix _ _
    obtain ⟨_, s, hpath⟩ := exists_cons_of_ne_nil hne
    rw [hpath, cons_prefix_cons] at hpre
    rw [hpath, hpre.1]
    exact ⟨s, rfl⟩

/-- The text that every matching prefix starts: the path, or the root if the path is only
slashes. -/
def matchedText (path : Text) : Text :=
  if normalizePath path = [] then ['/'] else normalizePath path

theorem PathMatch.prefix_of_matchesPath (h : m.matchesPath path = true)
    (hexact : m.isExact = false) :
    m.pathText <+: matchedText path := by
  have hroot : ['/'] <+: matchedText path := by
    rw [matchedText]
    split_ifs with hnil
    · exact prefix_rfl
    · exact slash_prefix_normalizePath hnil
  have hself : normalizePath path <+: matchedText path := by
    rw [matchedText]
    split_ifs with hnil
    · exact hnil ▸ nil_prefix
    · exact prefix_rfl
  rw [matchesPath, hexact, if_neg Bool.false_ne_true] at h
  split_ifs at h with hslash
  · exact beq_iff_eq.mp hslash ▸ hroot
  · rw [or_eq_true, beq_iff_eq, Option.any_eq_true] at h
    rcases h with heq | ⟨rest, hstrip, -⟩
    · exact heq ▸ hself
    · exact List.IsPrefix.trans ⟨rest, (stripPrefix_eq_some hstrip).symm⟩ hself

theorem PathMatch.eq_of_specificity (h : m.matchesPath path = true)
    (h' : m'.matchesPath path = true)
    (hsame : m.specificity = m'.specificity) : m.pathText = m'.pathText := by
  obtain ⟨hlength, hexact⟩ := Prod.mk.inj (toLex.injective hsame)
  cases hm : m.isExact with
  | true =>
    rw [matchesPath, hm, if_pos rfl, beq_iff_eq] at h
    rw [matchesPath, ← hexact, hm, if_pos rfl, beq_iff_eq] at h'
    exact h.symm.trans h'
  | false =>
    exact eq_of_prefix_of_length (prefix_of_matchesPath h hm)
      (prefix_of_matchesPath h' (hexact ▸ hm)) hlength

variable {snapshot : ConfigSnapshot} {routes : List Route}

theorem RouteMatch.exists_specificity {m : RouteMatch}
    (h : m.paths.any (·.matchesPath path) = true) :
    ∃ p ∈ m.paths, p.matchesPath path = true ∧ m.bestPathSpecificity path = p.specificity := by
  obtain ⟨_, hq, hmatch⟩ := any_eq_true.mp h
  have hne : (m.paths.filter (·.matchesPath path)).map PathMatch.specificity ≠ [] :=
    ne_nil_of_mem (mem_map_of_mem (mem_filter.mpr ⟨hq, hmatch⟩))
  obtain ⟨_, hbest⟩ := WithBot.ne_bot_iff_exists.mp (maximum_ne_bot_of_ne_nil hne)
  obtain ⟨p, hp, rfl⟩ := mem_map.mp (maximum_mem hbest.symm)
  obtain ⟨hmem, hp⟩ := mem_filter.mp hp
  refine ⟨p, hmem, hp, ?_⟩
  rw [bestPathSpecificity, ← hbest, WithBot.unbotD_coe]

theorem exists_key_of_rank (h : r.matchesRequest host path = true)
    (h' : r'.matchesRequest host path = true) (hsame : r.rank path = r'.rank path) :
    ∃ key, key ∈ routeKeys r ∧ key ∈ routeKeys r' := by
  rw [Route.matchesRequest, RouteMatch.matchesRequest, and_eq_true, and_eq_true] at h h'
  obtain ⟨-, hhost, hpath⟩ := h
  obtain ⟨-, hhost', hpath'⟩ := h'
  obtain ⟨a, ha, hmatch⟩ := any_eq_true.mp hhost
  obtain ⟨a', ha', hmatch'⟩ := any_eq_true.mp hhost'
  obtain ⟨p, hp, hpmatch, hbest⟩ := RouteMatch.exists_specificity hpath
  obtain ⟨p', hp', hpmatch', hbest'⟩ := RouteMatch.exists_specificity hpath'
  have hspecificity : p.specificity = p'.specificity := by
    rw [← hbest, ← hbest']
    exact (Prod.mk.inj (toLex.injective hsame)).2
  have htext := PathMatch.eq_of_specificity hpmatch hpmatch' hspecificity
  have hnames : a.normalized = a'.normalized :=
    (beq_iff_eq.mp hmatch).trans (beq_iff_eq.mp hmatch').symm
  refine ⟨a.normalized ++ p.pathText, ?_, ?_⟩
  · exact mem_flatMap.mpr ⟨a, ha, mem_map.mpr ⟨p, hp, rfl⟩⟩
  · exact mem_flatMap.mpr ⟨a', ha', mem_map.mpr ⟨p', hp', by rw [hnames, htext]⟩⟩

theorem duplicateKeyErrors_eq_nil {seen keys : List Text}
    (h : duplicateKeyErrors seen keys = []) : ∀ key ∈ keys, key ∉ seen := by
  induction keys generalizing seen with
  | nil => nofun
  | cons _ _ ih =>
    rw [duplicateKeyErrors, append_eq_nil_iff, reportIf_eq_nil] at h
    rintro _ (_ | ⟨_, hmem⟩)
    · simpa using h.1
    · exact fun hseen => ih h.2 _ hmem (mem_cons_of_mem _ hseen)

theorem routeErrors_eq_nil {ids keys : List Text} (h : routeErrors snapshot ids keys routes = []) :
    (∀ r ∈ routes, ∀ r' ∈ routes, ∀ key ∈ routeKeys r, key ∈ routeKeys r' → r = r') ∧
      ∀ r ∈ routes, ∀ key ∈ routeKeys r, key ∉ keys := by
  induction routes generalizing ids keys with
  | nil => exact ⟨nofun, nofun⟩
  | cons _ _ ih =>
    rw [routeErrors] at h
    simp only [append_eq_nil_iff] at h
    obtain ⟨⟨⟨-, hkeys⟩, -⟩, hrest⟩ := h
    obtain ⟨hshared, hfresh⟩ := ih hrest
    constructor
    · rintro r (_ | ⟨_, hr⟩) r' (_ | ⟨_, hr'⟩) key hkey hkey'
      · rfl
      · exact absurd (mem_append_left _ hkey) (hfresh r' hr' key hkey')
      · exact absurd (mem_append_left _ hkey') (hfresh r hr key hkey)
      · exact hshared r hr r' hr' key hkey hkey'
    · rintro _ (_ | ⟨_, hother⟩) key hkey
      · exact duplicateKeyErrors_eq_nil hkeys key hkey
      · exact fun hmem => hfresh _ hother key hkey (mem_append_right _ hmem)

/-- No two routes that match the request have one rank. -/
def ConfigSnapshot.Ranked (snapshot : ConfigSnapshot) (host path : Text) : Prop :=
  ∀ r ∈ snapshot.routes, ∀ r' ∈ snapshot.routes, r.matchesRequest host path = true →
    r'.matchesRequest host path = true → r.rank path = r'.rank path → r = r'

theorem ranked_of_valid {validator : ConfigValidator} (h : validator.validateSnapshot snapshot = [])
    (host path : Text) : snapshot.Ranked host path := by
  intro r hr r' hr' hmatch hmatch' hrank
  obtain ⟨key, hkey, hkey'⟩ := exists_key_of_rank hmatch hmatch' hrank
  exact (routeErrors_eq_nil (append_eq_nil_iff.mp h).2).1 r hr r' hr' key hkey hkey'

theorem selectRoute_eq_some_iff (h : snapshot.Ranked host path) :
    snapshot.selectRoute host path = some r ↔
      (r ∈ snapshot.routes ∧ r.matchesRequest host path = true) ∧
        ∀ r' ∈ snapshot.routes, r'.matchesRequest host path = true → r' ≠ r →
          r'.rank path < r.rank path := by
  have hmem {a : Route} : a ∈ (snapshot.routes.filter (·.matchesRequest host path)).reverse ↔
      a ∈ snapshot.routes ∧ a.matchesRequest host path = true := by
    rw [mem_reverse, mem_filter]
  constructor
  · intro hselect
    have hr := hmem.mp (argmax_mem hselect)
    refine ⟨hr, fun r' hr' hmatch hne => ?_⟩
    refine lt_of_le_of_ne (le_of_mem_argmax (hmem.mpr ⟨hr', hmatch⟩) hselect) fun hrank => ?_
    exact hne (h r' hr' r hr.1 hmatch hr.2 hrank)
  · rintro ⟨hr, hgreatest⟩
    rcases hselect : snapshot.selectRoute host path with _ | r'
    · rw [ConfigSnapshot.selectRoute, argmax_eq_none] at hselect
      exact absurd (hselect ▸ hmem.mpr hr) not_mem_nil
    · have hr' := hmem.mp (argmax_mem hselect)
      by_contra hne
      have hlt := hgreatest r' hr'.1 hr'.2 fun heq => hne (congrArg some heq)
      exact absurd (le_of_mem_argmax (hmem.mpr hr) hselect) (not_le.mpr hlt)

theorem selectRoute_eq_none_iff : snapshot.selectRoute host path = none ↔
    ∀ r ∈ snapshot.routes, r.matchesRequest host path = false := by
  simp [ConfigSnapshot.selectRoute, argmax_eq_none, filter_eq_nil_iff]

end Unique

/-- The selection of a validated configuration does not depend on the order of its routes: it is the
one greatest route that matches the request, if there is any. -/
theorem selectRoute_greatest {validator : ConfigValidator} {snapshot : ConfigSnapshot}
    (h : validator.validateSnapshot snapshot = []) (host path : Text) :
    (∀ routes, routes.Perm snapshot.routes →
        { snapshot with routes }.selectRoute host path = snapshot.selectRoute host path) ∧
      (∀ r, snapshot.selectRoute host path = some r ↔
        (r ∈ snapshot.routes ∧ r.matchesRequest host path = true) ∧
          ∀ r' ∈ snapshot.routes, r'.matchesRequest host path = true → r' ≠ r →
            r'.rank path < r.rank path) ∧
      (snapshot.selectRoute host path = none ↔
        ∀ r ∈ snapshot.routes, r.matchesRequest host path = false) := by
  have hranked := ranked_of_valid h host path
  refine ⟨fun routes hperm => ?_, fun r => selectRoute_eq_some_iff hranked, selectRoute_eq_none_iff⟩
  have hranked' : { snapshot with routes }.Ranked host path := fun r hr r' hr' =>
    hranked r (hperm.mem_iff.mp hr) r' (hperm.mem_iff.mp hr')
  ext r
  rw [selectRoute_eq_some_iff hranked, selectRoute_eq_some_iff hranked']
  simp only [hperm.mem_iff]

def routeBelow (id path : String) : Route :=
  ⟨id.toList, ⟨[.exact "h".toList], [.below path.toList]⟩, "web".toList, 0, true, false, none, none⟩

def routed (routes : List Route) : ConfigSnapshot :=
  { snapshotOf [localService "web".toList] with routes }

/-- Both routes match `/a/b`, and the longer prefix wins in either order. -/
theorem selectRoute_greatest_longer :
    (routed [routeBelow "root" "/", routeBelow "a" "/a"]).selectRoute "h".toList "/a/b".toList =
        some (routeBelow "a" "/a") ∧
      (routed [routeBelow "a" "/a", routeBelow "root" "/"]).selectRoute "h".toList "/a/b".toList =
        some (routeBelow "a" "/a") := by
  have h : validateSnapshot {} (routed [routeBelow "root" "/", routeBelow "a" "/a"]) = [] := by
    decide
  obtain ⟨hperm, hgreatest, -⟩ := selectRoute_greatest h "h".toList "/a/b".toList
  have hlonger := (hgreatest (routeBelow "a" "/a")).mpr (by decide)
  exact ⟨hlonger, (hperm _ (.swap ..)).trans hlonger⟩

theorem normalizeHost_fixed_iff (s : Text) :
    normalizeHost (normalizeHost s) = normalizeHost s ↔ ¬ BlankBefore '.' (trim s) := by
  rw [← trimmed_trimEndMatches_iff (by decide) (trimmed_trim s), normalizeHost, normalizeHost,
    trim_toAsciiLowercase, trimEndMatches_toAsciiLowercase, toAsciiLowercase_toAsciiLowercase]
  constructor
  · intro h
    have hlength := congrArg length h
    rw [toAsciiLowercase, toAsciiLowercase, length_map, length_map] at hlength
    exact trimmed_of_length_le (hlength ▸ ( rdropWhile_prefix _ _).length_le)
  · intro h
    rw [h.trim_eq, trimEndMatches, trimEndMatches, rdropWhile_idempotent]

theorem normalizePath_fixed_iff (s : Text) :
    normalizePath (normalizePath s) = normalizePath s ∧ (normalizePath s).head? = some '/' ↔
      ¬ BlankBefore '/' (trim s) ∧ ∀ n, trim s ≠ replicate (n + 2) '/' := by
  obtain ⟨t, h, hsame, hs⟩ := normalizePath_slashed s
  have hcond : (¬ BlankBefore '/' (trim s) ∧ ∀ n, trim s ≠ replicate (n + 2) '/') ↔
      Trimmed (trimEndMatches '/' ('/' :: t)) ∧ ∀ n, t ≠ replicate (n + 1) '/' := by
    rw [trimmed_trimEndMatches_iff (by decide) h, blankBefore_cons_iff (by decide)]
    rcases hs with hs | ⟨hs, hhead⟩
    · rw [hs, blankBefore_cons_iff (by decide)]
      simp [replicate_succ]
    · have hne (n : ℕ) : t ≠ replicate (n + 1) '/' := by
        rintro rfl
        exact hhead rfl
      simp [hs, hne]
  rw [hcond, hsame, normalizePath_slash h]
  cases t with
  | nil =>
    have htrimmed : Trimmed (trimEndMatches '/' ['/']) := trimmed_of_forall (by decide)
    simp [normalizePath_slash h, htrimmed, replicate_succ]
  | cons a t =>
    rw [if_neg (cons_ne_nil _ _)]
    constructor
    · rintro ⟨hfixed, hhead⟩
      obtain ⟨v, hv⟩ := head?_eq_some_iff.mp hhead
      have hle : (normalizePath ('/' :: v)).length ≤ (trim ('/' :: v)).length := by
        rw [normalizePath, if_pos (head?_trim_cons (by decide))]
        split_ifs
        · exact ( rdropWhile_prefix _ _).length_le
        · exact le_rfl
      rw [hv] at hfixed ⊢
      rw [hfixed] at hle
      refine ⟨trimmed_of_length_le hle, fun n hn => ?_⟩
      simp [hn, trimEndMatches, rdropWhile_eq_nil_iff.mpr] at hv
    · rintro ⟨htrimmed, hnone⟩
      have hpre : trimEndMatches '/' ('/' :: a :: t) <+: '/' :: a :: t := rdropWhile_prefix _ _
      cases hv : trimEndMatches '/' ('/' :: a :: t) with
      | nil =>
        refine absurd (eq_replicate_of_mem fun b hb => ?_) (hnone t.length)
        simpa using rdropWhile_eq_nil_iff.mp hv b (mem_cons_of_mem _ hb)
      | cons b v =>
        have hidem : trimEndMatches '/' (b :: v) = b :: v := by
          rw [← hv]
          exact rdropWhile_idempotent _ _
        rw [hv, cons_prefix_cons] at hpre
        obtain ⟨rfl, -⟩ := hpre
        rw [normalizePath_slash (hv ▸ htrimmed), hidem]
        cases v <;> simp

/-- Normalising a second time changes nothing, so that matching does not see it and the keys of two
routes stay apart, exactly if the host has no white space before its last dots, the path none before
its last slashes, and the path is not only slashes. -/
theorem normalization_stable_iff (hosts paths : List Text) :
    ((∀ s ∈ hosts, normalizeHost (normalizeHost s) = normalizeHost s ∧
        ∀ p, (HostMatch.exact p).matchesHost s =
          (HostMatch.exact p).matchesHost (normalizeHost s)) ∧
      (∀ s ∈ paths, (normalizePath (normalizePath s) = normalizePath s ∧
          (normalizePath s).head? = some '/') ∧ ∀ p, ∀ m ∈ [PathMatch.below p, .exact p],
            m.matchesPath s = m.matchesPath (normalizePath s)) ∧
      ∀ s ∈ hosts, ∀ s' ∈ hosts, ∀ q ∈ paths, ∀ q' ∈ paths,
        (normalizeHost s, normalizePath q) ≠ (normalizeHost s', normalizePath q') →
          (normalizeHost (normalizeHost s), normalizePath (normalizePath q)) ≠
            (normalizeHost (normalizeHost s'), normalizePath (normalizePath q'))) ↔
      (∀ s ∈ hosts, ¬ BlankBefore '.' (trim s)) ∧
        ∀ s ∈ paths, ¬ BlankBefore '/' (trim s) ∧ ∀ n, trim s ≠ replicate (n + 2) '/' := by
  simp only [← normalizeHost_fixed_iff, ← normalizePath_fixed_iff]
  constructor
  · rintro ⟨hhosts, hpaths, -⟩
    exact ⟨fun s hs => (hhosts s hs).1, fun s hs => (hpaths s hs).1⟩
  · rintro ⟨hhosts, hpaths⟩
    refine ⟨fun s hs => ⟨hhosts s hs, fun p => ?_⟩, fun s hs => ⟨hpaths s hs, fun p m _ => ?_⟩, ?_⟩
    · rw [HostMatch.matchesHost, HostMatch.matchesHost, hhosts s hs]
    · rw [PathMatch.matchesPath, PathMatch.matchesPath, (hpaths s hs).1]
    · intro s hs s' hs' q hq q' hq' hne
      rwa [hhosts s hs, hhosts s' hs', (hpaths q hq).1, (hpaths q' hq').1]

theorem normalization_second_pass : normalizeHost "a .".toList = "a ".toList ∧
    normalizeHost "a ".toList = "a".toList ∧ normalizeHost "a".toList = "a".toList ∧
    (HostMatch.exact "a".toList).matchesHost "a .".toList = false ∧
    (HostMatch.exact "a".toList).matchesHost (normalizeHost "a .".toList) = true ∧
    normalizePath "//".toList = [] ∧ normalizePath [] = "/".toList := by
  decide

end EdgeProxy
