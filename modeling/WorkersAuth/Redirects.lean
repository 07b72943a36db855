import WorkersAuth.AuthRoutes
import WorkersAuth.Urls.References

/-! Where a login through `GET /callback` may be sent on to.
The filter refuses a second slash, backslashes and newlines, but not tabs, which a browser takes
out of a reference before it looks for a second slash.
-/

namespace WorkersAuth

open Atomic Urls
open Atomic.Program (Evaluates evaluates_bind evaluates_pure)

/-- Only same-site relative paths may be redirect targets. -/
def safeRedirectPath (candidate : Option String) (fallback : String) : String :=
  match candidate with
  | none => fallback
  | some candidate =>
      let chars := candidate.toList
      if chars = [] then fallback
      else if ¬['/'] <+: chars then fallback
      else if ['/', '/'] <+: chars ∨ ['/', '\\'] <+: chars then fallback
      else if '\\' ∈ chars ∨ '\n' ∈ chars ∨ '\r' ∈ chars then fallback
      else candidate

/-- The configuration of the routes once credentials may come in a URL. -/
structure CallbackConfig extends ResolvedAuthConfig where
  callbackProviders : List AuthProvider
  callbackRedirect : String

inductive CallbackAnswer where
  | body (response : Response)
  | redirect (location : String) (status : Nat)

/-- `GET /callback`: the providers of URL-borne credentials, a session, and on to the target. -/
def getCallback (platform : Platform) (config : CallbackConfig) (req : HttpRequest)
    (redirectTo : Option String)
    : Handler CallbackAnswer := do
  match ← verifyProviders req config.callbackProviders with
  | none =>
      host.onEvent (.authFailed "callback_rejected" none)
      return .body (.error 401 "unauthenticated")
  | some user =>
      match ← createSessionFor platform config.toAuthConfig req user {} with
      | .error _ => return .body .uncaught
      | .ok _ => return .redirect (safeRedirectPath redirectTo config.callbackRedirect) 302

-----------------------------------------------------------------------------------------
-- What stays on the site
-----------------------------------------------------------------------------------------

section

variable {Host : Type} {parser : UrlParser Host} {base : WebBase Host} {fallback path : String}
  {candidate : Option String}

/-- The target is the fallback, or leads to the scheme, host and port of the base. -/
def StaysOnSite (parser : UrlParser Host) (base : WebBase Host) (fallback target : String) : Prop :=
  target = fallback ∨ resolve parser base target.toList = some base.toOrigin

instance [DecidableEq Host] (target : String)
    : Decidable (StaysOnSite parser base fallback target) :=
  inferInstanceAs (Decidable (_ ∨ _))

/-- A path whose second slash stands behind tabs, without anything the filter refuses. -/
structure TabbedSlash (path : String) : Prop where
  tabbed : ∃ count, '/' :: (List.replicate (count + 1) '\t' ++ ['/']) <+: path.toList
  passes : ∀ c ∈ path.toList, c ≠ '\\' ∧ c ≠ '\n' ∧ c ≠ '\r'

/-- Tabs apart, a text begins with a slash exactly when some tabs and a slash stand in front. -/
theorem beginsWithSlash_tabbed {rest : List Char}
    (passes : ∀ c ∈ rest, c ≠ '\\' ∧ c ≠ '\n' ∧ c ≠ '\r')
    : beginsWithSlash (rest.filter (fun c => !isTabOrNewline c)) = true
      ↔ ∃ count, List.replicate count '\t' ++ ['/'] <+: rest := by
  induction rest with
  | nil => simp [beginsWithSlash]
  | cons head tail ih =>
      have later := ih (fun c member => passes c (List.mem_cons_of_mem head member))
      have head_passes := passes head List.mem_cons_self
      by_cases tab : head = '\t'
      · subst tab
        rw [List.filter_cons_of_neg (by decide), later]
        constructor
        · rintro ⟨count, leads⟩
          exact ⟨count + 1, by simpa [List.replicate_succ] using leads⟩
        · rintro ⟨count, leads⟩
          cases count with
          | zero => simp at leads
          | succ count => exact ⟨count, by simpa [List.replicate_succ] using leads⟩
      · rw [List.filter_cons_of_pos (by simp [isTabOrNewline, tab, head_passes])]
        have slash : beginsWithSlash (head :: tail.filter (fun c => !isTabOrNewline c)) = true
            ↔ head = '/' := by
          simp [beginsWithSlash, isSlash, head_passes]
        rw [slash]
        constructor
        · rintro rfl
          exact ⟨0, by simp⟩
        · rintro ⟨count, leads⟩
          cases count with
          | zero => simpa [eq_comm] using leads
          | succ count =>
              simp only [List.replicate_succ, List.cons_append, List.cons_prefix_cons] at leads
              exact absurd leads.1.symm tab

/-- What the filter lets through: one slash in front, no backslash and no newline. -/
structure Filtered (path : String) (rest : List Char) : Prop where
  slash : path.toList = '/' :: rest
  single : ¬['/'] <+: rest
  passes : ∀ c ∈ path.toList, c ≠ '\\' ∧ c ≠ '\n' ∧ c ≠ '\r'

theorem Filtered.rest_passes {rest : List Char} (filtered : Filtered path rest)
    : ∀ c ∈ rest, c ≠ '\\' ∧ c ≠ '\n' ∧ c ≠ '\r' := by
  intro c member
  exact filtered.passes c (by rw [filtered.slash]; exact List.mem_cons_of_mem _ member)

/-- A filtered path is returned as it is. -/
theorem Filtered.returned {rest : List Char} (filtered : Filtered path rest) (fallback : String)
    : safeRedirectPath (some path) fallback = path := by
  have second : ¬['/', '\\'] <+: path.toList := by
    rintro ⟨tail, split⟩
    exact (filtered.passes '\\' (by rw [← split]; simp)).1 rfl
  have none_refused : ¬('\\' ∈ path.toList ∨ '\n' ∈ path.toList ∨ '\r' ∈ path.toList) := by
    rintro (member | member | member)
    · exact (filtered.passes _ member).1 rfl
    · exact (filtered.passes _ member).2.1 rfl
    · exact (filtered.passes _ member).2.2 rfl
  have first : ['/'] <+: path.toList := by simp [filtered.slash]
  have single : ¬['/', '/'] <+: path.toList := by
    rw [filtered.slash, List.cons_prefix_cons]
    exact fun leads => filtered.single leads.2
  have there : path.toList ≠ [] := by simp [filtered.slash]
  simp only [safeRedirectPath, there, first, single, second, none_refused, not_true, or_self,
    if_false]

/-- Either the fallback is returned, or the candidate, which the filter has let through. -/
theorem safeRedirectPath_cases (candidate : Option String) (fallback : String)
    : safeRedirectPath candidate fallback = fallback
      ∨ ∃ path rest, candidate = some path ∧ Filtered path rest := by
  cases candidate with
  | none => exact .inl rfl
  | some path =>
      by_cases passed : (∃ rest, path.toList = '/' :: rest ∧ ¬['/'] <+: rest)
          ∧ ∀ c ∈ path.toList, c ≠ '\\' ∧ c ≠ '\n' ∧ c ≠ '\r'
      · obtain ⟨⟨rest, slash, single⟩, passes⟩ := passed
        exact .inr ⟨path, rest, rfl, slash, single, passes⟩
      · left
        simp only [safeRedirectPath]
        split
        · rfl
        · split
          · rfl
          · split
            · rfl
            · split
              · rfl
              · exfalso
                rename_i first second clean
                apply passed
                rw [not_not] at first
                obtain ⟨rest, split⟩ := first
                refine ⟨⟨rest, split.symm, ?_⟩, ?_⟩
                · intro leads
                  exact second (.inl (by rw [← split]; simpa using leads))
                · intro c member
                  refine ⟨?_, ?_, ?_⟩
                  · rintro rfl
                    exact clean (.inl member)
                  · rintro rfl
                    exact clean (.inr (.inl member))
                  · rintro rfl
                    exact clean (.inr (.inr member))

/-- A tabbed slash passes the filter: a tab stands where the filter looks for a slash. -/
theorem TabbedSlash.filtered (tabbed : TabbedSlash path) : ∃ rest, Filtered path rest := by
  obtain ⟨⟨count, tail, split⟩, passes⟩ := tabbed
  exact ⟨List.replicate (count + 1) '\t' ++ ['/'] ++ tail, by simpa using split.symm,
    by simp [List.replicate_succ], passes⟩

/-- What the filter lets through names an authority exactly when it has a tabbed slash. -/
theorem Filtered.resolve_eq {rest : List Char} (filtered : Filtered path rest)
    (parser : UrlParser Host) (base : WebBase Host)
    : (TabbedSlash path ∧ resolve parser base path.toList = namedAuthority parser base path.toList)
      ∨ (¬TabbedSlash path ∧ resolve parser base path.toList = some base.toOrigin) := by
  have tabs : TabbedSlash path
      ↔ beginsWithSlash (rest.filter (fun c => !isTabOrNewline c)) = true := by
    rw [beginsWithSlash_tabbed filtered.rest_passes]
    constructor
    · rintro ⟨⟨count, leads⟩, -⟩
      rw [filtered.slash, List.cons_prefix_cons] at leads
      exact ⟨count + 1, leads.2⟩
    · rintro ⟨count, leads⟩
      cases count with
      | zero => exact absurd (by simpa using leads) filtered.single
      | succ count =>
          refine ⟨⟨count, ?_⟩, filtered.passes⟩
          rw [filtered.slash, List.cons_prefix_cons]
          exact ⟨rfl, leads⟩
  by_cases tabbed : TabbedSlash path
  · exact .inl ⟨tabbed, by rw [filtered.slash, resolve_slash, if_pos (tabs.mp tabbed)]⟩
  · exact .inr ⟨tabbed, by rw [filtered.slash, resolve_slash, if_neg (tabbed ∘ tabs.mpr)]⟩

/-- The returned target stays on the site unless the candidate hides its second slash behind
tabs, is not the fallback, and names the authority of another site after the slashes.
-/
theorem safeRedirectPath_staysOnSite (parser : UrlParser Host) (base : WebBase Host)
    (candidate : Option String) (fallback : String)
    : StaysOnSite parser base fallback (safeRedirectPath candidate fallback)
      ↔ ∀ path, candidate = some path → TabbedSlash path →
          path = fallback ∨ namedAuthority parser base path.toList = some base.toOrigin := by
  constructor
  · rintro stays path rfl tabbed
    obtain ⟨rest, filtered⟩ := tabbed.filtered
    rw [filtered.returned] at stays
    rcases stays with same | resolved
    · exact .inl same
    · rcases filtered.resolve_eq parser base with ⟨-, named⟩ | ⟨untabbed, -⟩
      · exact .inr (named ▸ resolved)
      · exact absurd tabbed untabbed
  · intro condition
    rcases safeRedirectPath_cases candidate fallback with refused | ⟨path, rest, rfl, filtered⟩
    · exact .inl refused
    · rw [filtered.returned]
      rcases filtered.resolve_eq parser base with ⟨tabbed, named⟩ | ⟨-, kept⟩
      · rcases condition path rfl tabbed with same | own
        · exact .inl same
        · exact .inr (named.trans own)
      · exact .inr kept

/-- Where at least two sites can be named, the candidates that stay on every site, whatever the
fallback, are those without a tabbed slash.
-/
theorem safeRedirectPath_staysOnEverySite [Nontrivial Host] (parser : UrlParser Host) (path : String)
    : (∀ (base : WebBase Host) fallback,
        StaysOnSite parser base fallback (safeRedirectPath (some path) fallback))
      ↔ ¬TabbedSlash path := by
  constructor
  · intro stays tabbed
    obtain ⟨one, other, different⟩ := exists_pair_ne Host
    let site (host : Host) : WebBase Host := ⟨⟨"https", host, none⟩, .inr rfl⟩
    have elsewhere : path ++ "/" ≠ path := by
      intro same
      have lengths := congrArg String.length same
      simp [String.length_append] at lengths
    have named (host : Host)
        : namedAuthority parser (site host) path.toList = some (site host).toOrigin :=
      (((safeRedirectPath_staysOnSite parser (site host) (some path) (path ++ "/")).mp
        (stays _ _)) path rfl tabbed).resolve_left elsewhere.symm
    have same : (site one).toOrigin = (site other).toOrigin :=
      Option.some.inj ((named one).symm.trans (named other))
    exact different (congrArg Origin.host same)
  · intro untabbed base fallback
    rw [safeRedirectPath_staysOnSite]
    rintro _ ⟨⟩ tabbed
    exact absurd tabbed untabbed

/-- A login that `GET /callback` sends on goes where `safeRedirectPath` says. -/
theorem getCallback_target {σ : Type} {exec : (op : Op) → σ → op.Reply → σ → Prop}
    {platform : Platform} {config : CallbackConfig} {req : HttpRequest} {start finish : σ}
    {location : String} {status : Nat}
    (answers : Evaluates exec (getCallback platform config req candidate) start
      (.redirect location status) finish)
    : location = safeRedirectPath candidate config.callbackRedirect := by
  simp only [getCallback, evaluates_bind] at answers
  obtain ⟨verified, middle, -, answers⟩ := answers
  cases verified with
  | none =>
      obtain ⟨_, _, -, refused⟩ := evaluates_bind.mp answers
      exact absurd (evaluates_pure.mp refused).1 (by simp)
  | some user =>
      obtain ⟨created, _, -, sent⟩ := evaluates_bind.mp answers
      cases created with
      | error text => exact absurd (evaluates_pure.mp sent).1 (by simp)
      | ok session => exact (CallbackAnswer.redirect.inj (evaluates_pure.mp sent).1).1

end

namespace Sample

/-- Domains in lower case are hosts as they stand. -/
def domains : UrlParser String where
  parseHost host :=
    if host.all (fun c => c.isLower || c = '.') then some (String.ofList host) else none
  parseAbsolute _ := none

def site : WebBase String := ⟨⟨"https", "app.example.com", none⟩, .inr rfl⟩

/-- A tab between the slashes leads to another host. -/
theorem safeRedirectPath_leaves_site
    : ¬StaysOnSite domains site "/" (safeRedirectPath (some "/\t/evil.example.com/") "/") := by
  decide +kernel

end Sample

end WorkersAuth
