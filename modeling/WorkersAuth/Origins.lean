import WorkersAuth.DeviceAuth.Deployment
import WorkersAuth.Http

/-! Which origins the Origin check takes to be the same.
The check compares serialised origins. Those of the web schemes name scheme, host and port;
every other scheme's origin is opaque, and all opaque origins are serialised alike.
-/

namespace WorkersAuth

open DeviceAuth

-----------------------------------------------------------------------------------------
-- What the URL standard says of origins
-----------------------------------------------------------------------------------------

/-- The schemes whose origin is made of scheme, host and port. -/
def tupleSchemes : List String := ["http:", "https:", "ftp:", "ws:", "wss:"]

/-- `URL` follows its standard: an accepted URL with a host has the origin that its scheme, host
and port make, or an opaque one, serialised as `null`, when its scheme is not of that kind.
-/
def Platform.FollowsUrlStandard (platform : Platform) : Prop :=
  ∀ value url, platform.parseUrl value = some url → url.host ≠ ""
    → url.origin
      = if url.protocol ∈ tupleSchemes then url.protocol ++ "//" ++ url.host else "null"

/-- Equal schemes, hosts and ports: `host` names the port unless it is the scheme's default. -/
structure Url.SameOrigin (first second : Url) : Prop where
  protocol : first.protocol = second.protocol
  host : first.host = second.host

/-- A URL with a host whose scheme is none of the web's. -/
structure Url.Opaque (url : Url) : Prop where
  protocol_ne : url.protocol ≠ ""
  host_ne : url.host ≠ ""
  scheme : url.protocol ∉ tupleSchemes

/-- The origins of the web schemes are those of their scheme, host and port, by cases on the two
schemes.
-/
theorem tupleOrigin_injective {first second firstHost secondHost : String}
    (first_tuple : first ∈ tupleSchemes) (second_tuple : second ∈ tupleSchemes)
    (same : first ++ "//" ++ firstHost = second ++ "//" ++ secondHost)
    : first = second ∧ firstHost = secondHost := by
  simp only [tupleSchemes, List.mem_cons, List.not_mem_nil, or_false] at first_tuple second_tuple
  have chars := congrArg String.toList same
  simp only [String.toList_append] at chars
  rcases first_tuple with rfl | rfl | rfl | rfl | rfl <;>
    rcases second_tuple with rfl | rfl | rfl | rfl | rfl <;>
      simp_all

/-- None of them is serialised as an opaque origin is. -/
theorem tupleOrigin_ne_null {protocol host : String} (tuple : protocol ∈ tupleSchemes)
    : protocol ++ "//" ++ host ≠ "null" := by
  simp only [tupleSchemes, List.mem_cons, List.not_mem_nil, or_false] at tuple
  intro same
  have chars := congrArg String.toList same
  simp only [String.toList_append] at chars
  rcases tuple with rfl | rfl | rfl | rfl | rfl <;> simp at chars

-----------------------------------------------------------------------------------------
-- The check
-----------------------------------------------------------------------------------------

/-- The Origin header, unless it is missing, empty or `null`. -/
def presentedOrigin (req : HttpRequest) : Option String :=
  (req.header "origin").filter (fun raw => raw ≠ "" ∧ raw ≠ "null")

variable {platform : Platform} {req : HttpRequest} {trustedOrigins : List String}
  {value origin : String}

/-- A value has a canonical origin when it is a URL with a scheme and a host. -/
theorem canonicalOrigin_eq_some
    : canonicalOrigin platform value = some origin
      ↔ ∃ url, platform.parseUrl value = some url ∧ url.protocol ≠ "" ∧ url.host ≠ ""
          ∧ url.origin = origin := by
  unfold canonicalOrigin
  cases platform.parseUrl value with
  | none => simp
  | some url =>
      by_cases missing : url.protocol = "" ∨ url.host = ""
      · simp only [missing, if_true]
        grind
      · simp only [missing, if_false]
        grind

/-- The check passes exactly when the presented origin is, by its serialisation, that of the
request or of a trusted entry.
-/
theorem checkOrigin_eq_none
    : checkOrigin platform req trustedOrigins = none
      ↔ ∃ raw origin, presentedOrigin req = some raw ∧ canonicalOrigin platform raw = some origin
          ∧ origin ≠ "" ∧ ∃ allowed ∈ req.url :: trustedOrigins,
            canonicalOrigin platform allowed = some origin := by
  unfold checkOrigin presentedOrigin
  cases req.header "origin" with
  | none => simp
  | some raw =>
      by_cases missing : raw = "" ∨ raw = "null"
      · have absent : ¬(raw ≠ "" ∧ raw ≠ "null") := by tauto
        simp [missing, Option.filter, absent]
      · have there : raw ≠ "" ∧ raw ≠ "null" := by tauto
        simp only [if_neg missing]
        rw [Option.filter_some, if_pos (by simpa using there)]
        cases canonical : canonicalOrigin platform raw with
        | none => simp [canonical]
        | some origin =>
            by_cases empty : origin = ""
            · simp [canonical, empty]
            · by_cases own : canonicalOrigin platform req.url = some origin
              · simp [canonical, empty, own]
              · simp [canonical, empty, own]

/-- Only exact origins pass: an accepted Origin header is a URL of the same scheme, host and port
as the request or a trusted entry, and the header is taken for no other origin.
-/
structure OriginExact (platform : Platform) (req : HttpRequest) (trustedOrigins : List String)
    : Prop where
  accepted : checkOrigin platform req trustedOrigins = none
    → ∃ raw url allowed other, req.header "origin" = some raw
      ∧ platform.parseUrl raw = some url ∧ allowed ∈ req.url :: trustedOrigins
      ∧ platform.parseUrl allowed = some other ∧ url.SameOrigin other
  compared : ∀ raw url allowed other origin, presentedOrigin req = some raw
    → platform.parseUrl raw = some url → allowed ∈ req.url :: trustedOrigins
    → platform.parseUrl allowed = some other
    → canonicalOrigin platform raw = some origin → canonicalOrigin platform allowed = some origin
    → url.SameOrigin other

/-- An opaque origin is presented only where every opaque origin it is compared with is of the
same scheme, host and port.
-/
def OpaqueOnce (platform : Platform) (req : HttpRequest) (trustedOrigins : List String) : Prop :=
  ∀ raw url allowed other, presentedOrigin req = some raw → platform.parseUrl raw = some url
    → allowed ∈ req.url :: trustedOrigins → platform.parseUrl allowed = some other
    → url.Opaque → other.Opaque → url.SameOrigin other

/-- A web origin is told from every other one by its serialisation. -/
theorem sameOrigin_of_origin_eq (standard : platform.FollowsUrlStandard) {first second : Url}
    {firstValue secondValue : String} (first_parsed : platform.parseUrl firstValue = some first)
    (second_parsed : platform.parseUrl secondValue = some second) (first_host : first.host ≠ "")
    (second_host : second.host ≠ "") (same : first.origin = second.origin)
    : first.SameOrigin second
      ∨ first.protocol ∉ tupleSchemes ∧ second.protocol ∉ tupleSchemes := by
  rw [standard firstValue first first_parsed first_host,
    standard secondValue second second_parsed second_host] at same
  by_cases first_tuple : first.protocol ∈ tupleSchemes
  · rw [if_pos first_tuple] at same
    by_cases second_tuple : second.protocol ∈ tupleSchemes
    · rw [if_pos second_tuple] at same
      obtain ⟨protocol, host⟩ := tupleOrigin_injective first_tuple second_tuple same
      exact .inl ⟨protocol, host⟩
    · rw [if_neg second_tuple] at same
      exact absurd same (tupleOrigin_ne_null first_tuple)
  · rw [if_neg first_tuple] at same
    by_cases second_tuple : second.protocol ∈ tupleSchemes
    · rw [if_pos second_tuple] at same
      exact absurd same.symm (tupleOrigin_ne_null second_tuple)
    · exact .inr ⟨first_tuple, second_tuple⟩

/-- The Origin check is exact precisely where opaque origins do not meet different ones. -/
theorem originExact_iff (standard : platform.FollowsUrlStandard) (req : HttpRequest)
    (trustedOrigins : List String)
    : OriginExact platform req trustedOrigins ↔ OpaqueOnce platform req trustedOrigins := by
  constructor
  · intro exact_ raw url allowed other presented parsed listed other_parsed url_opaque other_opaque
    refine exact_.compared raw url allowed other "null" presented parsed listed other_parsed
      (canonicalOrigin_eq_some.mpr ?_) (canonicalOrigin_eq_some.mpr ?_)
    · refine ⟨url, parsed, url_opaque.protocol_ne, url_opaque.host_ne, ?_⟩
      rw [standard raw url parsed url_opaque.host_ne, if_neg url_opaque.scheme]
    · refine ⟨other, other_parsed, other_opaque.protocol_ne, other_opaque.host_ne, ?_⟩
      rw [standard allowed other other_parsed other_opaque.host_ne, if_neg other_opaque.scheme]
  · intro once
    have compared : ∀ raw url allowed other origin, presentedOrigin req = some raw
        → platform.parseUrl raw = some url → allowed ∈ req.url :: trustedOrigins
        → platform.parseUrl allowed = some other → canonicalOrigin platform raw = some origin
        → canonicalOrigin platform allowed = some origin → url.SameOrigin other := by
      intro raw url allowed other origin presented parsed listed other_parsed canonical other_canonical
      obtain ⟨_, found, protocol, host, rfl⟩ := canonicalOrigin_eq_some.mp canonical
      obtain ⟨_, other_found, other_protocol, other_host, same⟩ :=
        canonicalOrigin_eq_some.mp other_canonical
      cases parsed.symm.trans found
      cases other_parsed.symm.trans other_found
      rcases sameOrigin_of_origin_eq standard parsed other_parsed host other_host same.symm with
        equal | ⟨scheme, other_scheme⟩
      · exact equal
      · exact once raw url allowed other presented parsed listed other_parsed
          ⟨protocol, host, scheme⟩ ⟨other_protocol, other_host, other_scheme⟩
    refine ⟨fun accepted => ?_, compared⟩
    obtain ⟨raw, origin, presented, canonical, _, allowed, listed, other_canonical⟩ :=
      checkOrigin_eq_none.mp accepted
    obtain ⟨url, parsed, _⟩ := canonicalOrigin_eq_some.mp canonical
    obtain ⟨other, other_parsed, _⟩ := canonicalOrigin_eq_some.mp other_canonical
    exact ⟨raw, url, allowed, other, (Option.filter_eq_some_iff.mp presented).1, parsed, listed,
      other_parsed, compared raw url allowed other origin presented parsed listed other_parsed
        canonical other_canonical⟩

-----------------------------------------------------------------------------------------
-- Two browser extensions
-----------------------------------------------------------------------------------------

namespace Sample

/-- The URLs that are parsed here, as the URL standard parses them. -/
def urls : List (String × Url) :=
  [
    ("https://app.example.com/auth/session",
      ⟨"https:", "app.example.com", "https://app.example.com"⟩),
    ("https://app.example.com", ⟨"https:", "app.example.com", "https://app.example.com"⟩),
    ("chrome-extension://hfjkbcdnmpaalpegihoakjhgifpbcdnm",
      ⟨"chrome-extension:", "hfjkbcdnmpaalpegihoakjhgifpbcdnm", "null"⟩),
    ("chrome-extension://pomlkjihgfedcbaponmlkjihgfedcbap",
      ⟨"chrome-extension:", "pomlkjihgfedcbaponmlkjihgfedcbap", "null"⟩)
  ]

def browser : Platform := { Sample.platform with parseUrl value := urls.lookup value }

/-- A `POST /session` from a page or an extension of this origin. -/
def crossRequest (origin : String) : HttpRequest where
  method := "POST"
  url := "https://app.example.com/auth/session"
  header name := if name = "origin" then some origin else none
  cookie _ := none
  body := .body none

/-- The extension that may make requests. -/
def trustedExtension : String := "chrome-extension://hfjkbcdnmpaalpegihoakjhgifpbcdnm"

/-- Another extension. -/
def otherExtension : String := "chrome-extension://pomlkjihgfedcbaponmlkjihgfedcbap"

theorem browser_followsUrlStandard : browser.FollowsUrlStandard := by
  intro value url parsed host
  obtain ⟨before, after, split, _⟩ := List.lookup_eq_some_iff.mp parsed
  have member : (value, url) ∈ urls := by simp [split]
  simp only [urls, List.mem_cons, List.not_mem_nil, or_false, Prod.mk.injEq] at member
  rcases member with ⟨_, rfl⟩ | ⟨_, rfl⟩ | ⟨_, rfl⟩ | ⟨_, rfl⟩ <;> decide

end Sample

open Sample in
/-- The application's own page is told from an extension. -/
theorem originExact_iff_ownPage
    : OriginExact browser (crossRequest "https://app.example.com") [trustedExtension] := by
  rw [originExact_iff browser_followsUrlStandard]
  intro raw url allowed other presented parsed _ _ url_opaque _
  obtain rfl : raw = "https://app.example.com" := by
    have header := (Option.filter_eq_some_iff.mp presented).1
    exact (Option.some.inj header).symm
  cases parsed
  exact absurd (by decide) url_opaque.scheme

open Sample in
/-- Trusting one extension lets every other one pass. -/
theorem originExact_otherExtension
    : browser.FollowsUrlStandard
      ∧ checkOrigin browser (crossRequest otherExtension) [trustedExtension] = none
      ∧ ¬OriginExact browser (crossRequest otherExtension) [trustedExtension] := by
  have passes : checkOrigin browser (crossRequest otherExtension) [trustedExtension] = none := by
    decide +kernel
  refine ⟨browser_followsUrlStandard, passes, fun exact_ => ?_⟩
  obtain ⟨raw, url, allowed, other, header, parsed, listed, other_parsed, same⟩ :=
    exact_.accepted passes
  cases header
  cases parsed
  rcases List.mem_cons.mp listed with rfl | last
  · cases other_parsed
    exact absurd same.protocol (by decide)
  · cases List.mem_singleton.mp last
    cases other_parsed
    exact absurd same.host (by decide)

end WorkersAuth
