import WorkersAuth.Cookies.Serialization

/-! Reading cookies, on the server and in the client.
The server collects the pairs of a header in a plain object, whose lookups also see what every
object inherits; the client returns at the first pair with the name.
-/

namespace WorkersAuth.Cookies

open Encodings

-----------------------------------------------------------------------------------------
-- Plain objects
-----------------------------------------------------------------------------------------

/-- The properties of `Object.prototype`. -/
def objectPrototype : List Utf16 :=
  [
    "constructor", "__defineGetter__", "__defineSetter__", "hasOwnProperty", "__lookupGetter__",
    "__lookupSetter__", "isPrototypeOf", "propertyIsEnumerable", "toString", "valueOf",
    "__proto__", "toLocaleString"
  ].map ascii

/-- A plain object with strings for properties of its own. -/
structure Jar where
  own : List (Utf16 × Utf16) := []

/-- What a property of an object is read as. -/
inductive Lookup where
  | undefined
  | value (text : Utf16)
  | inherited
deriving DecidableEq

namespace Jar

/-- The property of the object itself. -/
def own? (jar : Jar) (name : Utf16) : Option Utf16 :=
  (jar.own.find? (fun entry => entry.1 = name)).map Prod.snd

/-- `name in jar`. -/
def has (jar : Jar) (name : Utf16) : Bool := (jar.own? name).isSome || name ∈ objectPrototype

/-- `jar[name]`. -/
def get (jar : Jar) (name : Utf16) : Lookup :=
  match jar.own? name with
  | some text => .value text
  | none => if name ∈ objectPrototype then .inherited else .undefined

/-- `jar[name] = text`, for a name that the object does not have. -/
def add (jar : Jar) (name text : Utf16) : Jar := { own := jar.own ++ [(name, text)] }

end Jar

-----------------------------------------------------------------------------------------
-- `parseCookies` and `readCookie`
-----------------------------------------------------------------------------------------

/-- `text.slice(0, idx)` and `text.slice(idx + 1)` at the first equals sign. -/
def splitPair (pair : Utf16) : Option (Utf16 × Utf16) :=
  (pair.idxOf? 0x3D).map (fun idx => (pair.take idx, pair.drop (idx + 1)))

/-- The decoded value, or the raw one when that throws. -/
def decoded (raw : Utf16) : Utf16 := (decodeURIComponent raw).getD raw

/-- One round of the loop of `parseCookies`. -/
def addPair (out : Jar) (pair : Utf16) : Jar :=
  match splitPair pair with
  | none => out
  | some (before, after) =>
      let key := trim before
      if key = [] then out
      -- The first occurrence wins.
      else if out.has key then out
      else out.add key (decoded (trim after))

def parseCookies (header : Option Utf16) : Jar :=
  match header with
  | none | some [] => {}
  | some header => (header.splitOn 0x3B).foldl addPair {}

def getCookie (header : Option Utf16) (name : Utf16) : Lookup := (parseCookies header).get name

/-- The loop of `readCookie`. -/
def readFirst (name : Utf16) : List Utf16 → Option Utf16
  | [] => none
  | pair :: rest =>
      match splitPair pair with
      | none => readFirst name rest
      | some (before, after) =>
          if trim before ≠ name then readFirst name rest else some (decoded (trim after))

/-- `readCookie` of the client, which reads `document.cookie`. -/
def readCookie (jar : Option Utf16) (name : Utf16) : Option Utf16 :=
  match jar with
  | none | some [] => none
  | some jar => readFirst name (jar.splitOn 0x3B)

-----------------------------------------------------------------------------------------
-- What the server collects
-----------------------------------------------------------------------------------------

/-- A name that no object inherits is read from the properties of the object itself. -/
theorem Jar.get_of_not_inherited {jar : Jar} {name : Utf16} (plain : name ∉ objectPrototype)
    : jar.get name = match jar.own? name with
      | some text => .value text
      | none => .undefined := by
  rw [Jar.get, if_neg plain]

/-- A property that is added is there, and the others are as they were. -/
theorem Jar.own?_add {jar : Jar} {name other text : Utf16}
    : (jar.add other text).own? name
      = (jar.own? name).or (if other = name then some text else none) := by
  simp only [own?, add, List.find?_append, List.find?_cons, List.find?_nil]
  cases jar.own.find? (fun entry => entry.1 = name) with
  | some entry => rfl
  | none =>
      by_cases same : other = name
      · simp [same]
      · simp [same]

/-- A round keeps the pair's value under its name, unless the name is empty, inherited or there. -/
theorem own?_addPair {name : Utf16} (nonempty : name ≠ []) (plain : name ∉ objectPrototype)
    (out : Jar) (pair : Utf16)
    : (addPair out pair).own? name = (out.own? name).or (readFirst name [pair]) := by
  unfold addPair
  simp only [readFirst]
  cases splitPair pair with
  | none => simp
  | some parts =>
      obtain ⟨before, after⟩ := parts
      dsimp only
      by_cases same : trim before = name
      · rw [same, if_neg nonempty, if_neg (not_not.mpr rfl)]
        cases present : out.own? name with
        | some text => simp [Jar.has, present]
        | none =>
            rw [if_neg (by simp [Jar.has, present, plain]), Jar.own?_add, present]
            simp
      · rw [if_pos same]
        split
        · simp
        split
        · simp
        · rw [Jar.own?_add, if_neg same]

/-- The client's loop is the first pair, or the others. -/
theorem readFirst_cons (name pair : Utf16) (rest : List Utf16)
    : readFirst name (pair :: rest) = (readFirst name [pair]).or (readFirst name rest) := by
  simp only [readFirst]
  cases splitPair pair with
  | none => rfl
  | some parts =>
      dsimp only
      split
      · rfl
      · rfl

/-- The object's own property is that of the first pair with the name, by induction on the pairs. -/
theorem own?_foldl_addPair {name : Utf16} (nonempty : name ≠ []) (plain : name ∉ objectPrototype)
    (pairs : List Utf16) (out : Jar)
    : (pairs.foldl addPair out).own? name = (out.own? name).or (readFirst name pairs) := by
  induction pairs generalizing out with
  | nil => simp [readFirst]
  | cons pair rest ih =>
      rw [List.foldl_cons, ih, own?_addPair nonempty plain, Option.or_assoc,
        readFirst_cons name pair rest]

/-- What the server collects under a name that no object inherits is what the client reads. -/
theorem own?_parseCookies {name : Utf16} (nonempty : name ≠ []) (plain : name ∉ objectPrototype)
    (header : Option Utf16) : (parseCookies header).own? name = readCookie header name := by
  match header with
  | none => rfl
  | some [] => rfl
  | some (unit :: rest) => exact own?_foldl_addPair nonempty plain _ {}

/-- Looking the name up gives what the client reads. -/
theorem getCookie_eq_readCookie {name : Utf16} (nonempty : name ≠ [])
    (plain : name ∉ objectPrototype) (header : Option Utf16)
    : getCookie header name = match readCookie header name with
      | some text => .value text
      | none => .undefined := by
  rw [getCookie, Jar.get_of_not_inherited plain, own?_parseCookies nonempty plain]

-----------------------------------------------------------------------------------------
-- Client and server agree
-----------------------------------------------------------------------------------------

/-- For every cookie string and every name that begins with a prefix, the client reads nothing
exactly when the server's object has no such entry, and otherwise both read the same value. No
object inherits a name with a prefix.
-/
theorem readCookie_agrees {name : Utf16}
    (prefixed : hostPrefix.isPrefixOf name ∨ securePrefix.isPrefixOf name)
    (cookies : Option Utf16)
    : (readCookie cookies name = none ↔ (parseCookies cookies).has name = false)
      ∧ (readCookie cookies name = none ↔ getCookie cookies name = .undefined)
      ∧ ∀ value, readCookie cookies name = some value ↔ getCookie cookies name = .value value := by
  have unlike : ∀ other ∈ objectPrototype,
      ¬ (hostPrefix.isPrefixOf other ∨ securePrefix.isPrefixOf other) := by decide
  have plain : name ∉ objectPrototype := fun inherited => unlike name inherited prefixed
  have nonempty : name ≠ [] := by
    rintro rfl
    revert prefixed
    decide
  have looked := getCookie_eq_readCookie nonempty plain cookies
  have collected := own?_parseCookies nonempty plain cookies
  refine ⟨?_, ?_, ?_⟩
  · rw [Jar.has, collected, decide_eq_false plain, Bool.or_false]
    simp
  · rw [looked]
    cases readCookie cookies name with
    | none => simp
    | some text => simp
  · intro value
    rw [looked]
    cases readCookie cookies name with
    | none => simp
    | some text => simp

/-- The token of the default cookie, after a malformed part and before a duplicate. -/
theorem readCookie_agrees_default
    : readCookie (some (ascii "x; __Host-csrf = a%zz ;__Host-csrf=b")) (ascii "__Host-csrf")
        = some (ascii "a%zz")
      ∧ (readCookie (some (ascii "x; __Host-csrf = a%zz ;__Host-csrf=b")) (ascii "__Host-csrf")
          = none
        ↔ (parseCookies (some (ascii "x; __Host-csrf = a%zz ;__Host-csrf=b"))).has
            (ascii "__Host-csrf")
          = false) :=
  ⟨by decide +kernel, (readCookie_agrees (.inl (by decide)) _).1⟩

-----------------------------------------------------------------------------------------
-- Parsing undoes serialization
-----------------------------------------------------------------------------------------

/-- A cookie in a header, with the spaces around it: its name is a token, and its value can be
encoded.
-/
structure Listed where
  before : Nat
  name : Utf16
  value : Utf16
  after : Nat
  token : isToken name
  wellFormed : isWellFormed value

namespace Listed

/-- `encodeURIComponent(value)`. -/
def encoded (listed : Listed) : Utf16 :=
  (encodeURIComponent listed.value).get
    ((encodeURIComponent_isSome listed.value).trans listed.wellFormed)

/-- `name=encodeURIComponent(value)`, with its spaces. -/
def pair (listed : Listed) : Utf16 :=
  spaces listed.before ++ (listed.name ++ ascii "=" ++ listed.encoded) ++ spaces listed.after

end Listed

/-- The pairs joined by semicolons. -/
def header (cookies : List Listed) : Utf16 := [0x3B].intercalate (cookies.map Listed.pair)

/-- The value of the first cookie with the name. -/
def expected (cookies : List Listed) (name : Utf16) : Lookup :=
  match cookies.find? (fun listed => listed.name = name) with
  | some listed => .value listed.value
  | none => .undefined

/-- A text is split at its first equals sign, by induction on what is before it. -/
theorem splitPair_append {before after : Utf16} (absent : (0x3D : UInt16) ∉ before)
    : splitPair (before ++ 0x3D :: after) = some (before, after) := by
  have found : (before ++ 0x3D :: after).idxOf? 0x3D = some before.length := by
    induction before with
    | nil => rfl
    | cons unit rest ih =>
        rw [List.mem_cons, not_or] at absent
        rw [List.cons_append, List.idxOf?_cons, if_neg (by simpa using Ne.symm absent.1),
          ih absent.2]
        rfl
  simp [splitPair, found]

/-- A pair is split at the equals sign that follows its name. -/
theorem Listed.splitPair_pair (listed : Listed)
    : splitPair listed.pair
      = some (spaces listed.before ++ listed.name, listed.encoded ++ spaces listed.after) := by
  have absent : (0x3D : UInt16) ∉ spaces listed.before ++ listed.name := by
    rw [List.mem_append]
    rintro (blank | unit)
    · have wrong := List.eq_of_mem_replicate blank
      revert wrong
      decide
    · have token := List.all_eq_true.mp (isToken.units listed.token) _ unit
      revert token
      decide
  have text : listed.pair = (spaces listed.before ++ listed.name)
      ++ 0x3D :: (listed.encoded ++ spaces listed.after) := by
    simp [Listed.pair, ascii]
  rw [text, splitPair_append absent]

/-- A pair is read as its value under its name, and as nothing under another. -/
theorem Listed.readFirst_pair (listed : Listed) (name : Utf16)
    : readFirst name [listed.pair] = if listed.name = name then some listed.value else none := by
  have encoding : encodeURIComponent listed.value = some listed.encoded := (Option.some_get _).symm
  have key : trim (spaces listed.before ++ listed.name) = listed.name := by
    have units := List.all_eq_true.mp (isToken.units listed.token)
    have solid := trim_spaces (fun unit member => isWhitespace_of_token (units unit member))
      listed.before 0
    simpa [spaces] using solid
  have raw : trim (listed.encoded ++ spaces listed.after) = listed.encoded := by
    have units := isEncodedUnit_of_encoded encoding
    have solid := trim_spaces (fun unit member => isWhitespace_of_encoded (units unit member))
      0 listed.after
    simpa [spaces] using solid
  simp only [readFirst, listed.splitPair_pair, key, raw, decoded,
    decodeURIComponent_encodeURIComponent encoding, Option.getD_some]
  by_cases same : listed.name = name
  · simp [same]
  · simp [same]

/-- The client's loop finds the first cookie with the name, by induction on the cookies. -/
theorem readFirst_map_pair (name : Utf16) (cookies : List Listed)
    : readFirst name (cookies.map Listed.pair)
      = (cookies.find? (fun listed => listed.name = name)).map Listed.value := by
  induction cookies with
  | nil => rfl
  | cons listed rest ih =>
      rw [List.map_cons, readFirst_cons, ih, listed.readFirst_pair]
      by_cases same : listed.name = name
      · simp [same]
      · simp [same]

/-- A header with cookies splits into their pairs, since no pair has a semicolon. -/
theorem splitOn_header {cookies : List Listed} (nonempty : cookies ≠ [])
    : (header cookies).splitOn 0x3B = cookies.map Listed.pair := by
  refine List.splitOn_intercalate _ ?_ (by simpa using nonempty)
  intro pair member separator
  obtain ⟨listed, -, rfl⟩ := List.mem_map.mp member
  have encoding : encodeURIComponent listed.value = some listed.encoded :=
    (Option.some_get _).symm
  simp only [Listed.pair, List.mem_append] at separator
  rcases separator with (blank | (unit | equals) | unit) | blank
  · have wrong := List.eq_of_mem_replicate blank
    revert wrong
    decide
  · have token := List.all_eq_true.mp (isToken.units listed.token) _ unit
    revert token
    decide
  · revert equals
    decide
  · have written := isEncodedUnit_of_encoded encoding _ unit
    revert written
    decide
  · have wrong := List.eq_of_mem_replicate blank
    revert wrong
    decide

/-- A name that is empty or inherited is never a property of the server's object, by induction on
the pairs.
-/
theorem own?_parseCookies_skipped {name : Utf16} (skipped : name = [] ∨ name ∈ objectPrototype)
    (header : Option Utf16) : (parseCookies header).own? name = none := by
  have round : ∀ (out : Jar) (pair : Utf16), out.own? name = none
      → (addPair out pair).own? name = none := by
    intro out pair absent
    unfold addPair
    cases splitPair pair with
    | none => exact absent
    | some parts =>
        dsimp only
        split
        · exact absent
        · next nonempty =>
          split
          · exact absent
          · next missing =>
            rw [Jar.own?_add, absent, Option.none_or, if_neg]
            intro same
            rw [same] at nonempty missing
            rcases skipped with empty | inherited
            · exact nonempty empty
            · simp [Jar.has, inherited] at missing
  have rounds : ∀ (pairs : List Utf16) (out : Jar), out.own? name = none
      → (pairs.foldl addPair out).own? name = none := by
    intro pairs
    induction pairs with
    | nil => exact fun out absent => absent
    | cons pair rest ih => exact fun out absent => ih _ (round out pair absent)
  match header with
  | none => rfl
  | some [] => rfl
  | some (unit :: rest) => exact rounds _ {} rfl

/-- The client finds the first cookie with the name in the header. -/
theorem readCookie_header (cookies : List Listed) (name : Utf16)
    : readCookie (some (header cookies)) name
      = (cookies.find? (fun listed => listed.name = name)).map Listed.value := by
  cases cookies with
  | nil => rfl
  | cons listed rest =>
      have nonempty : header (listed :: rest) ≠ [] := by
        intro empty
        have split := splitOn_header (List.cons_ne_nil listed rest)
        rw [empty, List.map_cons] at split
        have first : listed.pair = [] := by
          have heads := congrArg List.head? split
          simpa using heads.symm
        simp [Listed.pair, ascii] at first
      rw [readCookie]
      · rw [splitOn_header (List.cons_ne_nil _ _), readFirst_map_pair]
      · simpa using nonempty

/-- For every list of cookies and every name, `getCookie` gives the value of the first cookie with
the name, or nothing when it is not listed, exactly when no object inherits the name.
-/
theorem getCookie_header_iff (cookies : List Listed) (name : Utf16)
    : getCookie (some (header cookies)) name = expected cookies name ↔ name ∉ objectPrototype := by
  constructor
  · intro read inherited
    have absent := own?_parseCookies_skipped (.inr inherited) (some (header cookies))
    have seen : getCookie (some (header cookies)) name = .inherited := by
      rw [getCookie, Jar.get, absent]
      exact if_pos inherited
    rw [seen, expected] at read
    split at read
    · cases read
    · cases read
  · intro plain
    by_cases empty : name = []
    · have absent := own?_parseCookies_skipped (.inl empty) (some (header cookies))
      have unlisted : cookies.find? (fun listed => listed.name = name) = none := by
        rw [List.find?_eq_none]
        intro listed _ same
        have token := listed.token
        rw [of_decide_eq_true same, empty] at token
        cases token
      rw [getCookie, Jar.get_of_not_inherited plain, absent, expected, unlisted]
    · rw [getCookie_eq_readCookie empty plain, readCookie_header, expected]
      cases cookies.find? (fun listed => listed.name = name) with
      | none => rfl
      | some listed => rfl

/-- A cookie named like an inherited property is not read, and without any cookie such a name is
not undefined.
-/
theorem constructor_not_read
    : getCookie (some (ascii "constructor=x")) (ascii "constructor") ≠ .value (ascii "x")
      ∧ getCookie (some (ascii "a=b")) (ascii "toString") ≠ .undefined := by
  decide +kernel

end WorkersAuth.Cookies
