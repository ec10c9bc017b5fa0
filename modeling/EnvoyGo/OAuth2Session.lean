import EnvoyGo.OAuth2

/-!
The round trip of a session: the cookies an issuing path sets, the client that stores them
and sends them back, and the validation of what arrives.
-/

namespace EnvoyGo.OAuth2

/-- A client's reading of one `Set-Cookie`: name and value, up to the first semicolon. -/
def storeCookie (setCookie : String) : Option (String × String) :=
  (Text.cut '=' ((Text.split ';' setCookie.toList).headD [])).map (fun pair =>
    (String.ofList (Text.trimString pair.1), String.ofList (Text.trimString pair.2)))

def pairText (c : String × String) : List Char := c.1.toList ++ '=' :: c.2.toList

def cookieLine : List (String × String) → List Char
  | [] => []
  | [c] => pairText c
  | c :: d :: rest => pairText c ++ ';' :: ' ' :: cookieLine (d :: rest)

def presented (setCookies : List String) : String :=
  String.ofList (cookieLine (setCookies.filterMap storeCookie))

structure PlainCookie (c : String × String) : Prop where
  name : isToken c.1.toList = true
  value : ∀ ch ∈ c.2.toList, Base64.isURLSafe ch = true

section Characters

theorem ne_of_class {p : Char → Bool} {c d : Char} (hc : p c = true) (hd : p d = false) :
    c ≠ d := by
  rintro rfl
  rw [hc] at hd
  exact absurd hd Bool.noConfusion

def isBlank (c : Char) : Bool := c == ' ' || c == '\t' || c == '\n' || c == '\r'

theorem isBlank_eq_false {p : Char → Bool} {c : Char} (hc : p c = true)
    (hblank : p ' ' = false ∧ p '\t' = false ∧ p '\n' = false ∧ p '\r' = false) :
    isBlank c = false := by
  simp only [isBlank, Bool.or_eq_false_iff, beq_eq_false_iff_ne]
  exact ⟨⟨⟨ne_of_class hc hblank.1, ne_of_class hc hblank.2.1⟩, ne_of_class hc hblank.2.2.1⟩,
    ne_of_class hc hblank.2.2.2⟩

theorem validCookieValueByte_of_isURLSafe (c : Char) (h : Base64.isURLSafe c = true) :
    validCookieValueByte c = true := by
  have hquote := ne_of_class (d := '"') h (by decide)
  have hsemi := ne_of_class (d := ';') h (by decide)
  have hslash := ne_of_class (d := '\\') h (by decide)
  have hlo : 0x20 ≤ c.toNat ∧ c.toNat < 0x7f := by
    -- A letter or a digit is one of three ranges of code points.
    change (((decide (c.val ≥ 'A'.val ∧ c.val ≤ 'Z'.val) ||
      (decide (c.val ≥ 'a'.val) && decide (c.val ≤ 'z'.val))) ||
      (decide (c.val ≥ '0'.val) && decide (c.val ≤ '9'.val)) || c == '-') || c == '_') = true at h
    simp only [Bool.or_eq_true, Bool.and_eq_true, decide_eq_true_eq, beq_iff_eq,
      UInt32.le_iff_toNat_le, ge_iff_le] at h
    rcases h with (((h | h) | h) | rfl) | rfl
    · exact ⟨le_trans (by decide) h.1, lt_of_le_of_lt h.2 (by decide)⟩
    · exact ⟨le_trans (by decide) h.1, lt_of_le_of_lt h.2 (by decide)⟩
    · exact ⟨le_trans (by decide) h.1, lt_of_le_of_lt h.2 (by decide)⟩
    · decide
    · decide
  simp only [validCookieValueByte, Bool.and_eq_true, decide_eq_true_eq, bne_iff_ne, ne_eq]
  exact ⟨⟨⟨hlo, hquote⟩, hsemi⟩, hslash⟩

end Characters

variable {c : String × String}

theorem PlainCookie.name_valid (h : PlainCookie c) :
    c.1.toList ≠ [] ∧ ∀ ch ∈ c.1.toList, validHeaderFieldByte ch = true := by
  have hname := h.name
  rw [isToken, Bool.and_eq_true, bne_iff_ne, List.all_eq_true] at hname
  exact hname

theorem PlainCookie.not_mem_name (h : PlainCookie c) (ch : Char)
    (hch : validHeaderFieldByte ch = false) : ch ∉ c.1.toList :=
  fun hmem => ne_of_class (h.name_valid.2 ch hmem) hch rfl

theorem PlainCookie.not_mem_value (h : PlainCookie c) (ch : Char)
    (hch : Base64.isURLSafe ch = false) : ch ∉ c.2.toList :=
  fun hmem => ne_of_class (h.value ch hmem) hch rfl

theorem PlainCookie.semicolon_not_mem (h : PlainCookie c) : ';' ∉ pairText c := by
  rw [pairText, List.mem_append, List.mem_cons]
  rintro (hname | heq | hvalue)
  · exact h.not_mem_name ';' (by decide) hname
  · exact absurd heq (by decide)
  · exact h.not_mem_value ';' (by decide) hvalue

theorem PlainCookie.edged_name (h : PlainCookie c) : Text.Edged isBlank c.1.toList :=
  Text.Edged.of_forall isBlank _ (fun ch hch =>
    isBlank_eq_false (h.name_valid.2 ch hch) (by decide))

theorem PlainCookie.edged_value (h : PlainCookie c) : Text.Edged isBlank c.2.toList :=
  Text.Edged.of_forall isBlank _ (fun ch hch => isBlank_eq_false (h.value ch hch) (by decide))

theorem PlainCookie.edged_pairText (h : PlainCookie c) : Text.Edged isBlank (pairText c) := by
  refine Text.Edged.of_forall isBlank _ ?_
  intro ch hch
  rw [pairText, List.mem_append, List.mem_cons] at hch
  rcases hch with hname | rfl | hvalue
  · exact isBlank_eq_false (h.name_valid.2 ch hname) (by decide)
  · decide
  · exact isBlank_eq_false (h.value ch hvalue) (by decide)

theorem pairText_ne_nil (c : String × String) : pairText c ≠ [] := by
  rw [pairText]
  exact List.append_ne_nil_of_right_ne_nil _ (List.cons_ne_nil _ _)

theorem cut_pairText (h : PlainCookie c) :
    Text.cut '=' (pairText c) = some (c.1.toList, c.2.toList) :=
  Text.cut_append_cons '=' _ _ (h.not_mem_name '=' (by decide))

theorem storeCookie_formatSetCookie (name value : String) (attrs : SetCookieAttrs)
    (h : PlainCookie (name, value)) :
    storeCookie (formatSetCookie name value attrs) = some (name, value) := by
  obtain ⟨rest, hrest⟩ : ∃ rest, (formatSetCookie name value attrs).toList =
      pairText (name, value) ++ ';' :: rest := by
    simp only [formatSetCookie, String.toList_append, pairText, List.append_assoc]
    exact ⟨_, rfl⟩
  have hsplit := Text.split_append_cons ';' (pairText (name, value)) rest h.semicolon_not_mem
  have hname : Text.trimString name.toList = name.toList :=
    Text.trim_eq_self isBlank name.toList h.edged_name
  have hvalue : Text.trimString value.toList = value.toList :=
    Text.trim_eq_self isBlank value.toList h.edged_value
  rw [storeCookie, hrest, hsplit, List.headD_cons, cut_pairText h, Option.map_some, hname, hvalue,
    String.ofList_toList, String.ofList_toList]

theorem parseCookieValue_plain (v : List Char) (h : ∀ ch ∈ v, Base64.isURLSafe ch = true) :
    parseCookieValue v = some v := by
  have hquote : ¬(v.length > 1 ∧ v.head? = some '"' ∧ v.getLast? = some '"') := by
    rintro ⟨-, hhead, -⟩
    exact ne_of_class (h '"' (List.mem_of_head? hhead)) (by decide) rfl
  have hall : v.all validCookieValueByte = true :=
    List.all_eq_true.mpr (fun ch hch => validCookieValueByte_of_isURLSafe ch (h ch hch))
  rw [parseCookieValue]
  simp only [if_neg hquote, hall, if_true]

theorem readCookie_pairText (h : PlainCookie c) : readCookie (pairText c) = some c := by
  have hpart : Text.trimString (pairText c) = pairText c :=
    Text.trim_eq_self isBlank _ h.edged_pairText
  have hname : Text.trimString c.1.toList = c.1.toList :=
    Text.trim_eq_self isBlank _ h.edged_name
  rw [readCookie]
  simp only [hpart, if_neg (pairText_ne_nil c), cut_pairText h, Option.getD_some, hname, h.name,
    if_true, parseCookieValue_plain _ h.value, Option.map_some, String.ofList_toList]

theorem readCookie_blank (part : List Char) : readCookie (' ' :: part) = readCookie part := by
  have htrim : Text.trimString (' ' :: part) = Text.trimString part :=
    Text.trim_cons _ ' ' part (by decide)
  rw [readCookie, readCookie, htrim]

theorem readCookies_blank (line : List Char) :
    (Text.split ';' (' ' :: line)).filterMap readCookie =
      (Text.split ';' line).filterMap readCookie := by
  obtain ⟨first, rest, hsplit⟩ := List.exists_cons_of_ne_nil (Text.split_ne_nil ';' line)
  have hblank : Text.split ';' (' ' :: line) = (' ' :: first) :: rest := by
    simp only [Text.split, hsplit]
    exact if_neg (by decide)
  simp only [hblank, hsplit, List.filterMap_cons, readCookie_blank]

theorem readCookies_cookieLine (cs : List (String × String)) (h : ∀ c ∈ cs, PlainCookie c) :
    (Text.split ';' (cookieLine cs)).filterMap readCookie = cs := by
  fun_induction cookieLine cs with
  | case1 => rfl
  | case2 c =>
    have hc := h c (List.mem_singleton_self c)
    rw [Text.split_of_not_mem ';' _ hc.semicolon_not_mem, List.filterMap_cons_some
      (readCookie_pairText hc), List.filterMap_nil]
  | case3 c d rest ih =>
    have hc := h c List.mem_cons_self
    have hrest := ih (fun x hx => h x (List.mem_cons_of_mem c hx))
    rw [Text.split_append_cons ';' _ _ hc.semicolon_not_mem, List.filterMap_cons_some
      (readCookie_pairText hc), readCookies_blank, hrest]

theorem edged_cookieLine (cs : List (String × String)) (hne : cs ≠ [])
    (h : ∀ c ∈ cs, PlainCookie c) :
    cookieLine cs ≠ [] ∧ Text.Edged isBlank (cookieLine cs) := by
  fun_induction cookieLine cs with
  | case1 => exact absurd rfl hne
  | case2 c => exact ⟨pairText_ne_nil c, (h c (List.mem_singleton_self c)).edged_pairText⟩
  | case3 c d rest ih =>
    have hc := h c List.mem_cons_self
    obtain ⟨hnil, hedged⟩ := ih (List.cons_ne_nil d rest)
      (fun x hx => h x (List.mem_cons_of_mem c hx))
    refine ⟨List.append_ne_nil_of_left_ne_nil (pairText_ne_nil c) _, ?_⟩
    have happend := Text.Edged.append isBlank (pairText c) [';', ' '] (cookieLine (d :: rest))
      (pairText_ne_nil c) hnil hc.edged_pairText hedged
    simpa only [List.append_assoc, List.cons_append, List.nil_append] using happend

theorem cookies_cookieLine (h : Header) (cs : List (String × String)) (hne : cs ≠ [])
    (hplain : ∀ c ∈ cs, PlainCookie c)
    (hcookie : h.lookup "Cookie" = some [String.ofList (cookieLine cs)]) : cookies h = cs := by
  have htrim : Text.trimString (cookieLine cs) = cookieLine cs :=
    Text.trim_eq_self isBlank _ (edged_cookieLine cs hne hplain).2
  simp only [cookies, hcookie, Option.getD_some, List.flatMap_cons, List.flatMap_nil,
    List.append_nil, String.toList_ofList, htrim, readCookies_cookieLine cs hplain]

/-- Five different tokens for names, and token encryption on, as the configuration parser
leaves it. -/
structure CompiledConfig.WellFormed (cc : CompiledConfig) : Prop where
  encrypted : cc.disableTokenEncryption = false
  tokens : ∀ name ∈ [cc.cookieNames.bearerToken, cc.cookieNames.oauthHMAC,
    cc.cookieNames.oauthExpires, cc.cookieNames.idToken, cc.cookieNames.refreshToken],
    isToken name.toList = true
  distinct : [cc.cookieNames.bearerToken, cc.cookieNames.oauthHMAC, cc.cookieNames.oauthExpires,
    cc.cookieNames.idToken, cc.cookieNames.refreshToken].Nodup

theorem isURLSafe_formatInt (n : Int) : ∀ c ∈ Text.formatInt n, Base64.isURLSafe c = true := by
  have hdigits : ∀ c ∈ Text.digitChars (Nat.digits 10 n.natAbs), Base64.isURLSafe c = true := by
    intro c hc
    have hdigit := Text.isDigit_of_mem_digitChars _
      (fun d hd => Nat.digits_lt_base (by decide) hd) c hc
    simp only [Base64.isURLSafe, Char.isAlphanum, hdigit, Bool.or_true, Bool.true_or]
  have hbody : ∀ c ∈ (if n = 0 then ['0'] else Text.digitChars (Nat.digits 10 n.natAbs)),
      Base64.isURLSafe c = true := by
    split
    · intro c hc
      obtain rfl := List.mem_singleton.mp hc
      decide
    · exact hdigits
  intro c hc
  rw [Text.formatInt] at hc
  split at hc
  · rcases List.mem_cons.mp hc with rfl | hc
    · decide
    · exact hbody c hc
  · exact hbody c hc

theorem isURLSafe_rawURLEncode (bs : Bytes) :
    ∀ c ∈ (String.ofList (Base64.rawURLEncode bs)).toList, Base64.isURLSafe c = true := by
  rw [String.toList_ofList]
  exact Base64.isURLSafe_of_mem_rawURLEncode bs

def sessionPairs (names : CookieNames) (tok hmac : String) (epoch : Int) (ref : String) :
    List (String × String) :=
  [(names.bearerToken, tok), (names.oauthHMAC, hmac),
   (names.oauthExpires, formatExpiresValue epoch)] ++
  (if ref ≠ "" then [(names.refreshToken, ref)] else [])

section RoundTrip

variable {cc : CompiledConfig} (hcc : cc.WellFormed) {tok hmac ref : String} (epoch : Int)
  (htok : ∀ c ∈ tok.toList, Base64.isURLSafe c = true)
  (hhmac : ∀ c ∈ hmac.toList, Base64.isURLSafe c = true)
  (href : ∀ c ∈ ref.toList, Base64.isURLSafe c = true)

include hcc htok hhmac href

theorem sessionPairs_plain :
    ∀ c ∈ sessionPairs cc.cookieNames tok hmac epoch ref, PlainCookie c := by
  have hexp : ∀ c ∈ (formatExpiresValue epoch).toList, Base64.isURLSafe c = true := by
    rw [formatExpiresValue, String.toList_ofList]
    exact isURLSafe_formatInt epoch
  intro c hc
  rw [sessionPairs, List.mem_append] at hc
  rcases hc with hc | hc
  · simp only [List.mem_cons, List.not_mem_nil, or_false] at hc
    rcases hc with rfl | rfl | rfl
    · exact ⟨hcc.tokens _ (by simp), htok⟩
    · exact ⟨hcc.tokens _ (by simp), hhmac⟩
    · exact ⟨hcc.tokens _ (by simp), hexp⟩
  · split at hc
    · obtain rfl := List.mem_singleton.mp hc
      exact ⟨hcc.tokens _ (by simp), href⟩
    · exact absurd hc List.not_mem_nil

theorem stored_sessionPairs :
    (emitCategoryB_PostCallback cc.cookieNames cc.cookieAttrs tok hmac epoch ref).filterMap
        storeCookie = sessionPairs cc.cookieNames tok hmac epoch ref := by
  have hplain := sessionPairs_plain hcc epoch htok hhmac href
  have hstore : ∀ c ∈ sessionPairs cc.cookieNames tok hmac epoch ref,
      storeCookie (formatSetCookie c.1 c.2 cc.cookieAttrs) = some c :=
    fun c hc => storeCookie_formatSetCookie c.1 c.2 cc.cookieAttrs (hplain c hc)
  have hemit : emitCategoryB_PostCallback cc.cookieNames cc.cookieAttrs tok hmac epoch ref =
      (sessionPairs cc.cookieNames tok hmac epoch ref).map
        (fun c => formatSetCookie c.1 c.2 cc.cookieAttrs) := by
    rw [emitCategoryB_PostCallback, sessionPairs, List.map_append]
    congr 1
    split
    · rw [List.map_singleton]
    · rw [List.map_nil]
  have hsame : ∀ cs : List (String × String),
      (∀ c ∈ cs, storeCookie (formatSetCookie c.1 c.2 cc.cookieAttrs) = some c) →
      (cs.map (fun c => formatSetCookie c.1 c.2 cc.cookieAttrs)).filterMap storeCookie = cs := by
    intro cs hcs
    induction cs with
    | nil => rfl
    | cons c cs ih =>
      rw [List.map_cons, List.filterMap_cons_some (hcs c List.mem_cons_self),
        ih (fun x hx => hcs x (List.mem_cons_of_mem c hx))]
  rw [hemit]
  exact hsame _ hstore

omit htok hhmac href in
theorem envelope_sessionPairs :
    (sessionPairs cc.cookieNames tok hmac epoch ref).foldl (CookieEnvelope.put cc.cookieNames) {} =
      { bearerToken := tok
        oauthHMAC := hmac
        oauthExpires := formatExpiresValue epoch
        idToken := ""
        refreshToken := ref } := by
  have hdistinct := hcc.distinct
  simp only [List.nodup_cons, List.mem_cons, List.not_mem_nil, or_false, not_or] at hdistinct
  obtain ⟨⟨h12, h13, h14, h15⟩, ⟨h23, h24, h25⟩, ⟨h34, h35⟩, h45, -⟩ := hdistinct
  by_cases href : ref = ""
  · simp [sessionPairs, CookieEnvelope.put, href, Ne.symm h12, Ne.symm h13, Ne.symm h23]
  · simp [sessionPairs, CookieEnvelope.put, href, Ne.symm h12, Ne.symm h13, Ne.symm h23,
      Ne.symm h15, Ne.symm h25, Ne.symm h35, Ne.symm h45]

theorem parseAllCookies_presented (h : Header)
    (hcookie : h.lookup "Cookie" = some [presented
      (emitCategoryB_PostCallback cc.cookieNames cc.cookieAttrs tok hmac epoch ref)]) :
    parseAllCookies h cc.cookieNames =
      { bearerToken := tok
        oauthHMAC := hmac
        oauthExpires := formatExpiresValue epoch
        idToken := ""
        refreshToken := ref } := by
  have hplain := sessionPairs_plain hcc epoch htok hhmac href
  rw [presented, stored_sessionPairs hcc epoch htok hhmac href] at hcookie
  have hne : sessionPairs cc.cookieNames tok hmac epoch ref ≠ [] := List.cons_ne_nil _ _
  rw [parseAllCookies, cookies_cookieLine h _ hne hplain hcookie]
  exact envelope_sessionPairs hcc epoch

end RoundTrip

theorem length_rawHMAC (domain expires token idToken refreshToken : String) (secret : Bytes) :
    (rawHMAC domain expires token idToken refreshToken secret).length = 32 :=
  Crypto.length_sha256 _

theorem validateHMAC_rawURLEncode (domain expires token idToken refreshToken : String)
    (secret mac : Bytes) (hmac : mac.length = 32) :
    validateHMAC domain expires token idToken refreshToken secret
        (String.ofList (Base64.rawURLEncode mac)) = true ↔
      mac = rawHMAC domain expires token idToken refreshToken secret := by
  have hne : String.ofList (Base64.rawURLEncode mac) ≠ "" := by
    intro heq
    have hlen := Base64.length_rawURLEncode mac
    have hnil : Base64.rawURLEncode mac = [] := by
      simpa only [String.toList_ofList, String.toList_empty] using congrArg String.toList heq
    rw [hnil, hmac] at hlen
    exact absurd hlen (by decide)
  have hurl : Base64.urlDecode (Base64.rawURLEncode mac) = none :=
    Base64.urlDecode_rawURLEncode mac (by rw [hmac]; decide)
  have hnested : ∀ inner, nestedHex mac = some inner → inner.length ≠ 32 := by
    intro inner hinner
    rw [nestedHex] at hinner
    split at hinner
    · cases hinner
    · have hlen := Base64.length_hexDecode mac inner hinner
      omega
  rw [validateHMAC, if_neg hne, decodeDualEncoding]
  simp only [String.toList_ofList, Base64.rawURLDecode_rawURLEncode, hurl, Option.toList_some,
    Option.toList_none, List.append_nil, List.any_append, List.any_cons, List.any_nil,
    Bool.or_false, Bool.or_eq_true, Bool.and_eq_true, beq_iff_eq, hmacOutputLen, hmac, true_and]
  constructor
  · rintro (heq | hany)
    · exact heq
    · -- the hex reading of 32 bytes has 16, so it is never compared
      obtain ⟨inner, hmem, hboth⟩ := List.any_eq_true.mp hany
      obtain ⟨outer, houter, hinner⟩ := List.mem_filterMap.mp hmem
      obtain rfl := List.mem_singleton.mp houter
      rw [Bool.and_eq_true, beq_iff_eq] at hboth
      exact absurd hboth.1 (hnested inner hinner)
  · exact Or.inl

theorem isExpired_formatExpiresValue (epoch now : Int) (hlo : -2^63 ≤ epoch)
    (hhi : epoch < 2^63) : isExpired (formatExpiresValue epoch) now = decide (epoch ≤ now) := by
  have hparse := Text.parseInt64_formatInt epoch hlo hhi
  have hne : formatExpiresValue epoch ≠ "" := by
    intro heq
    have hempty : Text.parseInt64 "" = none := by decide
    rw [← formatExpiresValue, heq, hempty] at hparse
    cases hparse
  rw [isExpired, if_neg hne, formatExpiresValue, hparse]

theorem epochAfter_range (now duration : Int) :
    -2^63 ≤ epochAfter now duration ∧ epochAfter now duration < 2^63 := by
  have hpos : 0 < 2^64 := by decide
  have hlo := @Int.le_bmod ((now + Int.bmod duration (2^64)) / 10^9) (2^64) hpos
  have hhi := @Int.bmod_lt ((now + Int.bmod duration (2^64)) / 10^9) (2^64) hpos
  rw [epochAfter]
  omega

/-- The two ways a session is issued, with what the token endpoint answered. -/
inductive Issuance
  | callback (status : Int) (tr : TokenEndpointResponse) (ivs : Bytes × Bytes)
  | refresh (status : Int) (body : Option TokenEndpointResponse)

def Issuance.Successful : Issuance → Prop
  | .callback status tr _ => 200 ≤ status ∧ status < 300 ∧ tr.accessToken ≠ ""
  | .refresh status _ => 200 ≤ status ∧ status < 300

def setCookiesOf (headers : OrderedHeaders) : List String :=
  (headers.filter (fun hf => hf.name == "Set-Cookie")).map HeaderField.value

section Issue
variable (cc : CompiledConfig) (cipher : BlockCipher) (secret : Bytes)

/-- The cookies on the reply of a callback, or left pending by a refresh. -/
def issuedCookies (now : Int) : Issuance → List String
  | .callback status tr ivs =>
    setCookiesOf (applyTokenEndpointResponse cc cipher secret ivs now
      (.response status (some tr))).headers
  | .refresh status body =>
    match applyRefreshTokenResponse cc now (.response status body) with
    | .inl reply => setCookiesOf reply.headers
    | .inr pending => setCookiesOf pending

def recordedExpiry (now : Int) : Issuance → Int
  | .callback _ tr _ => callbackExpiry cc tr now
  | .refresh _ _ => refreshExpiry cc now

/-- The HMAC signed at the callback, over an empty domain and the ID token, is the one
rebuilt over the authority and no ID token. -/
def SameHMAC (issuedAt : Int) (authority : String) (tr : TokenEndpointResponse)
    (ivs : Bytes × Bytes) : Prop :=
  let enc := encodedTokens cc cipher secret ivs tr
  let expires := formatExpiresValue (callbackExpiry cc tr issuedAt)
  rawHMAC "" expires enc.1 tr.idToken enc.2 secret =
    rawHMAC authority expires enc.1 "" enc.2 secret

/-- There is neither an authority nor an ID token, or two different messages collide.  A
refresh signs nothing. -/
def SignedForRequest (issuedAt : Int) (authority : String) : Issuance → Prop
  | .callback _ tr ivs =>
    (authority = "" ∧ tr.idToken = "") ∨
      (¬(authority = "" ∧ tr.idToken = "") ∧ SameHMAC cc cipher secret issuedAt authority tr ivs)
  | .refresh _ _ => False

def Accepts (now : Int) (h : Header) : Prop :=
  ∃ h', handleCookieValidate cc cipher secret now h = .accepted h'

end Issue

theorem setCookiesOf_setCookieFields (cs : List String) :
    setCookiesOf (setCookieFields cs) = cs := by
  rw [setCookiesOf, setCookieFields]
  induction cs with
  | nil => rfl
  | cons c cs ih =>
    rw [List.map_cons, List.filter_cons_of_pos rfl, List.map_cons, ih]

section Accept
variable (cc : CompiledConfig) (cipher : BlockCipher) (secret : Bytes)

theorem issuedCookies_callback (now status : Int) (tr : TokenEndpointResponse)
    (ivs : Bytes × Bytes) (h : (Issuance.callback status tr ivs).Successful) :
    issuedCookies cc cipher secret now (.callback status tr ivs) =
      callbackCookies cc cipher secret ivs now tr := by
  obtain ⟨hlo, hhi, htok⟩ := h
  rw [issuedCookies, applyTokenEndpointResponse, if_pos ⟨hlo, hhi⟩]
  simp only [if_neg htok, emitCategoryB_PostCallbackLocked]
  exact setCookiesOf_setCookieFields _

theorem issuedCookies_refresh (now status : Int) (body : Option TokenEndpointResponse)
    (h : (Issuance.refresh status body).Successful) :
    issuedCookies cc cipher secret now (.refresh status body) = refreshCookies cc now := by
  have hok : ¬(status < 200 ∨ status ≥ 300) := by
    have hlo := h.1
    have hhi := h.2
    omega
  rw [issuedCookies, applyRefreshTokenResponse, if_neg hok]
  exact setCookiesOf_setCookieFields _

theorem isURLSafe_encodedTokens (hcc : cc.WellFormed) (ivs : Bytes × Bytes)
    (tr : TokenEndpointResponse) :
    (∀ c ∈ (encodedTokens cc cipher secret ivs tr).1.toList, Base64.isURLSafe c = true) ∧
    (∀ c ∈ (encodedTokens cc cipher secret ivs tr).2.toList, Base64.isURLSafe c = true) := by
  simp only [encodedTokens, hcc.encrypted, Bool.false_eq_true, if_false]
  refine ⟨isURLSafe_rawURLEncode _, ?_⟩
  split
  · exact isURLSafe_rawURLEncode _
  · intro c hc
    exact absurd hc List.not_mem_nil

theorem accepts_iff_validateHMAC (now : Int) (h : Header) (env : CookieEnvelope) (epoch : Int)
    (henv : parseAllCookies h cc.cookieNames = env)
    (hexp : env.oauthExpires = formatExpiresValue epoch) (hlo : -2^63 ≤ epoch)
    (hhi : epoch < 2^63) (hfresh : now / 10^9 < epoch) :
    Accepts cc cipher secret now h ↔
      validateHMAC (requestDomain h) env.oauthExpires env.bearerToken env.idToken
        env.refreshToken secret env.oauthHMAC = true := by
  have hvalid : isExpired env.oauthExpires (now / 10^9) = false := by
    rw [hexp, isExpired_formatExpiresValue epoch _ hlo hhi, decide_eq_false_iff_not]
    omega
  rw [Accepts, handleCookieValidate, henv]
  simp only [hvalid]
  by_cases hmac : validateHMAC (requestDomain h) env.oauthExpires env.bearerToken env.idToken
      env.refreshToken secret env.oauthHMAC = true
  · simp [hmac]
  · simp [hmac]

theorem accepts_callback_iff (hcc : cc.WellFormed) (status : Int) (tr : TokenEndpointResponse)
    (ivs : Bytes × Bytes) (hok : (Issuance.callback status tr ivs).Successful)
    (issuedAt now : Int) (h : Header)
    (hcookie : h.lookup "Cookie" = some [presented
      (issuedCookies cc cipher secret issuedAt (.callback status tr ivs))])
    (hfresh : now / 10^9 < callbackExpiry cc tr issuedAt) :
    Accepts cc cipher secret now h ↔
      SameHMAC cc cipher secret issuedAt (requestDomain h) tr ivs := by
  have hsafe := isURLSafe_encodedTokens cc cipher secret hcc ivs tr
  rw [issuedCookies_callback cc cipher secret issuedAt status tr ivs hok] at hcookie
  have henv := parseAllCookies_presented hcc (callbackExpiry cc tr issuedAt) hsafe.1
    (isURLSafe_rawURLEncode _) hsafe.2 h hcookie
  have hrange := epochAfter_range issuedAt
    ((if tr.expiresIn ≤ 0 then Int.tdiv cc.defaultExpiresIn (10^9) else tr.expiresIn) * 10^9)
  rw [accepts_iff_validateHMAC cc cipher secret now h _ (callbackExpiry cc tr issuedAt) henv rfl
    hrange.1 hrange.2 hfresh]
  exact validateHMAC_rawURLEncode _ _ _ _ _ _ _ (length_rawHMAC _ _ _ _ _ _)

theorem sameHMAC_iff_signedForRequest (issuedAt : Int) (authority : String) (status : Int)
    (tr : TokenEndpointResponse) (ivs : Bytes × Bytes) :
    SameHMAC cc cipher secret issuedAt authority tr ivs ↔
      SignedForRequest cc cipher secret issuedAt authority (.callback status tr ivs) := by
  rw [SignedForRequest]
  by_cases hempty : authority = "" ∧ tr.idToken = ""
  · refine iff_of_true ?_ (Or.inl hempty)
    rw [SameHMAC, hempty.1, hempty.2]
  · simp only [hempty, not_false_eq_true, true_and, false_or]

theorem not_accepts_refresh (hcc : cc.WellFormed) (status : Int)
    (body : Option TokenEndpointResponse) (hok : (Issuance.refresh status body).Successful)
    (issuedAt now : Int) (h : Header)
    (hcookie : h.lookup "Cookie" = some [presented
      (issuedCookies cc cipher secret issuedAt (.refresh status body))])
    (hfresh : now / 10^9 < refreshExpiry cc issuedAt) : ¬Accepts cc cipher secret now h := by
  have hempty : ∀ c ∈ "".toList, Base64.isURLSafe c = true :=
    fun c hc => absurd hc List.not_mem_nil
  rw [issuedCookies_refresh cc cipher secret issuedAt status body hok] at hcookie
  have henv := parseAllCookies_presented hcc (refreshExpiry cc issuedAt) hempty hempty hempty
    h hcookie
  have hrange := epochAfter_range issuedAt cc.defaultExpiresIn
  rw [accepts_iff_validateHMAC cc cipher secret now h _ (refreshExpiry cc issuedAt) henv rfl
    hrange.1 hrange.2 hfresh]
  -- the HMAC cookie of a refresh is empty
  simp only [validateHMAC, if_true, Bool.false_eq_true, not_false_eq_true]

/-- Cookies presented before the recorded expiry are accepted exactly when they come from a
callback and the HMAC signed there is the one rebuilt for the request's authority. -/
theorem issued_session_accepted_iff (hcc : cc.WellFormed) (issue : Issuance)
    (hok : issue.Successful) (issuedAt now : Int) (h : Header)
    (hcookie : h.lookup "Cookie" = some [presented
      (issuedCookies cc cipher secret issuedAt issue)])
    (hfresh : now / 10^9 < recordedExpiry cc issuedAt issue) :
    Accepts cc cipher secret now h ↔
      SignedForRequest cc cipher secret issuedAt (requestDomain h) issue := by
  cases issue with
  | callback status tr ivs =>
    have hcallback := accepts_callback_iff cc cipher secret hcc status tr ivs hok issuedAt now h
      hcookie hfresh
    exact hcallback.trans
      (sameHMAC_iff_signedForRequest cc cipher secret issuedAt (requestDomain h) status tr ivs)
  | refresh status body =>
    have hno := not_accepts_refresh cc cipher secret hcc status body hok issuedAt now h hcookie
      hfresh
    exact iff_of_false hno not_false

end Accept

def plainCipher : BlockCipher where
  cbcEncrypt _ _ padded := padded
  cbcDecrypt _ _ ct := ct

theorem defaults_wellFormed : ({} : CompiledConfig).WellFormed where
  encrypted := rfl
  tokens := by decide
  distinct := by decide

def loginIssue : Issuance :=
  .callback 200 { accessToken := "a", expiresIn := 3600 } (List.replicate 16 0, [])

def returningRequest (authority : String) : Header :=
  let h := AList.insert "Cookie" [presented
    (issuedCookies {} plainCipher (textBytes "secret") 0 loginIssue)] ∅
  if authority = "" then h else h.insert ":authority" [authority]

/-- The cookies of a login are presented at once, to the authority that set them, and are
not accepted. -/
theorem login_loops :
    loginIssue.Successful ∧ (0 : Int) / 10^9 < recordedExpiry {} 0 loginIssue ∧
    requestDomain (returningRequest "example.com") = "example.com" ∧
    (returningRequest "example.com").lookup "Cookie" = some [presented
      (issuedCookies {} plainCipher (textBytes "secret") 0 loginIssue)] ∧
    ¬Accepts {} plainCipher (textBytes "secret") 0 (returningRequest "example.com") := by
  have hok : loginIssue.Successful := ⟨by decide, by decide, by decide⟩
  have hfresh : (0 : Int) / 10^9 < recordedExpiry {} 0 loginIssue := by decide +kernel
  have hdomain : requestDomain (returningRequest "example.com") = "example.com" := rfl
  have hcookie : (returningRequest "example.com").lookup "Cookie" = some [presented
      (issuedCookies {} plainCipher (textBytes "secret") 0 loginIssue)] := rfl
  refine ⟨hok, hfresh, hdomain, hcookie, ?_⟩
  rw [accepts_callback_iff {} plainCipher (textBytes "secret") defaults_wellFormed 200 _ _ hok 0 0
    (returningRequest "example.com") hcookie hfresh, hdomain, SameHMAC]
  decide +kernel

theorem login_without_authority_accepted :
    Accepts {} plainCipher (textBytes "secret") 0 (returningRequest "") := by
  have hfresh : (0 : Int) / 10^9 < recordedExpiry {} 0 loginIssue := by decide +kernel
  exact (issued_session_accepted_iff {} plainCipher (textBytes "secret") defaults_wellFormed
    loginIssue ⟨by decide, by decide, by decide⟩ 0 0 (returningRequest "") rfl hfresh).mpr
      (Or.inl ⟨rfl, rfl⟩)

end EnvoyGo.OAuth2
