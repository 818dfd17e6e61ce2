import WlanpiCore.Auth.Endpoints
import WlanpiCore.Lib.Urlencode

/-!
# The string a signature is over

`verify_hmac` joins the method, the path of the URL, the query and the body of a request with
newlines. None of the first three has a newline in it, so the string can be taken apart again
(`canonicalString_eq_iff`). Two of them say less than the request does, though. The query is the
re-encoded mapping view of the parameters, which has one value for each key: what a later value of
the same key replaces is not signed. The path is that of a URL that is put together from the Host
header and the decoded path, and parsed again: what follows a decoded `?` or `#` is not signed, and
the handlers get it (`canonicalString_binds_iff`).
-/

namespace WlanpiCore.Auth

open Urlencode

/-- What `verify_hmac` signs of a request. A method is a token, without a newline. -/
structure HttpRequest where
  method : Text
  /-- The Host header. -/
  host : Text
  /-- The path as the handlers get it, percent-decoded. -/
  path : Text
  /-- The raw query string. -/
  query : Text
  body : Bytes
  method_line : '\n' ∉ method

/-- What Starlette makes of a request. -/
structure Starlette where
  /-- The decoded parameters of a raw query, in order. -/
  parseQuery : Text → List (Text × Text)
  /-- `request.url.path`, by the Host header and the decoded path; `none` is the `ValueError` of
  `urlsplit` for a host that is none. -/
  urlPath : (host path : Text) → Option Text
  /-- `urlsplit` takes every newline out of a URL. -/
  urlPath_line : ∀ host path p, urlPath host path = some p → '\n' ∉ p

/-- `d[key] = value` -/
def setItem (d : List (Text × Text)) (item : Text × Text) : List (Text × Text) :=
  if item.1 ∈ d.map Prod.fst then d.map fun p => if p.1 = item.1 then item else p
  else d ++ [item]

/-- `{key: value for key, value in items}`: what the mapping view of `QueryParams` is over. -/
def mappingView (items : List (Text × Text)) : List (Text × Text) := items.foldl setItem []

section

variable (S : Starlette)

/-- The string that `verify_hmac` signs; `none` is the `UnicodeDecodeError` for the body, or the
`ValueError` for the URL. -/
def canonicalString (r : HttpRequest) : Option Text := do
  let params := mappingView (S.parseQuery r.query)
  let queryString := if params ≠ [] then urlencode params else []
  let path ← S.urlPath r.host r.path
  let body ← Text.decode r.body
  return r.method ++ '\n' :: (path ++ '\n' :: (queryString ++ '\n' :: body))

/-- A request from `peer` with the signature it carries, as the authentication reads it. -/
def HttpRequest.present (r : HttpRequest) (peer signature : Text) : Option Request :=
  (canonicalString S r).map fun canonical =>
    { peerHost := some peer, signature := some signature, canonical }

/-- When the strings of two requests are equal, so are the requests. -/
def Binds (r r' : HttpRequest) : Prop :=
  ∀ canonical, canonicalString S r = some canonical → canonicalString S r' = some canonical →
    r.method = r'.method ∧ r.path = r'.path ∧ S.parseQuery r.query = S.parseQuery r'.query ∧
      r.body = r'.body

/-- Two requests, with a body in UTF-8, that differ only in what their paths lose in the URL, or in
values that a later value of the same key replaces. -/
structure DifferInReplaced (r r' : HttpRequest) : Prop where
  text : (Text.decode r.body).isSome
  url : (S.urlPath r.host r.path).isSome
  method : r.method = r'.method
  path : S.urlPath r.host r.path = S.urlPath r'.host r'.path
  body : r.body = r'.body
  view : mappingView (S.parseQuery r.query) = mappingView (S.parseQuery r'.query)
  differ : r.path ≠ r'.path ∨ S.parseQuery r.query ≠ S.parseQuery r'.query

end

/-! ## The mapping view -/

theorem foldl_setItem {items : List (Text × Text)} : ∀ {d : List (Text × Text)},
    ((d ++ items).map Prod.fst).Nodup → items.foldl setItem d = d ++ items := by
  induction items with
  | nil =>
    intro d _
    simp
  | cons item items ih =>
    intro d h
    have hnew : item.1 ∉ d.map Prod.fst := by
      rw [List.map_append, List.map_cons, List.nodup_append] at h
      intro hmem
      exact h.2.2 _ hmem _ List.mem_cons_self rfl
    rw [List.foldl_cons, setItem, if_neg hnew, ih (by simpa using h), List.append_assoc,
      List.singleton_append]

/-- Without a repeated key the mapping view is the whole list. -/
theorem mappingView_of_nodup {items : List (Text × Text)} (h : (items.map Prod.fst).Nodup) :
    mappingView items = items := by
  rw [mappingView, foldl_setItem (by simpa using h), List.nil_append]

/-! ## Taking the string apart -/

variable {S : Starlette} {r r' : HttpRequest}

/-- A text is read up to its first separator in one way. -/
theorem append_separator_inj {c : Char} : ∀ {s s' t t' : Text}, c ∉ s → c ∉ s' →
    s ++ c :: t = s' ++ c :: t' → s = s' ∧ t = t'
  | [], [], t, t', _, _, h => ⟨rfl, by simpa using h⟩
  | [], d :: s', t, t', _, hs', h => by
    simp only [List.nil_append, List.cons_append, List.cons.injEq] at h
    exact absurd (h.1 ▸ List.mem_cons_self) hs'
  | d :: s, [], t, t', hs, _, h => by
    simp only [List.nil_append, List.cons_append, List.cons.injEq] at h
    exact absurd (h.1 ▸ List.mem_cons_self) hs
  | d :: s, d' :: s', t, t', hs, hs', h => by
    simp only [List.cons_append, List.cons.injEq] at h
    obtain ⟨rfl, h⟩ := h
    obtain ⟨rfl, rfl⟩ := append_separator_inj (fun hc => hs (List.mem_cons_of_mem _ hc))
      (fun hc => hs' (List.mem_cons_of_mem _ hc)) h
    exact ⟨rfl, rfl⟩

theorem canonicalString_eq (r : HttpRequest) :
    canonicalString S r = (S.urlPath r.host r.path).bind fun path =>
      (Text.decode r.body).map fun body => r.method ++ '\n' :: (path ++ '\n' ::
        (urlencode (mappingView (S.parseQuery r.query)) ++ '\n' :: body)) := by
  have hquery : (if mappingView (S.parseQuery r.query) ≠ [] then
      urlencode (mappingView (S.parseQuery r.query)) else []) =
        urlencode (mappingView (S.parseQuery r.query)) := by
    split_ifs with h
    · rfl
    · rw [not_not.1 h]
      rfl
  unfold canonicalString
  dsimp only
  rw [hquery]
  cases S.urlPath r.host r.path with
  | none => rfl
  | some path => cases Text.decode r.body <;> rfl

/-- There is a string for a path that makes a URL and a body in UTF-8. -/
theorem canonicalString_isSome_iff (r : HttpRequest) : (canonicalString S r).isSome ↔
    (S.urlPath r.host r.path).isSome ∧ (Text.decode r.body).isSome := by
  rw [canonicalString_eq]
  cases S.urlPath r.host r.path with
  | none => simp
  | some path => simp

/-- What two requests with the same string have in common, and no more. -/
theorem canonicalString_eq_iff (h : (canonicalString S r).isSome) :
    canonicalString S r = canonicalString S r' ↔
      r.method = r'.method ∧ S.urlPath r.host r.path = S.urlPath r'.host r'.path ∧
        mappingView (S.parseQuery r.query) = mappingView (S.parseQuery r'.query) ∧
          r.body = r'.body := by
  obtain ⟨hurl, htext⟩ := (canonicalString_isSome_iff r).1 h
  obtain ⟨path, hpath⟩ := Option.isSome_iff_exists.1 hurl
  obtain ⟨body, hbody⟩ := Option.isSome_iff_exists.1 htext
  rw [canonicalString_eq, canonicalString_eq]
  constructor
  · intro heq
    rw [hpath, hbody, Option.bind_some, Option.map_some, eq_comm, Option.bind_eq_some_iff] at heq
    obtain ⟨path', hpath', heq⟩ := heq
    obtain ⟨body', hbody', heq⟩ := Option.map_eq_some_iff.1 heq
    obtain ⟨hmethod, heq⟩ := append_separator_inj r'.method_line r.method_line heq
    obtain ⟨hline, heq⟩ := append_separator_inj (S.urlPath_line _ _ _ hpath')
      (S.urlPath_line _ _ _ hpath) heq
    obtain ⟨hquery, heq⟩ := append_separator_inj (newline_not_mem_urlencode _)
      (newline_not_mem_urlencode _) heq
    refine ⟨hmethod.symm, by rw [hpath, hpath', hline], (urlencode_injective hquery).symm, ?_⟩
    rw [← Text.encode_of_decode hbody, ← Text.encode_of_decode hbody', heq]
  · rintro ⟨hmethod, hsame, hview, hbytes⟩
    rw [hmethod, hsame, hview, hbytes]

/-- A string binds a request against another exactly where the two do not differ only in what their
paths lose in the URL, or in values that their mapping views leave out. No two do that repeat no key
and whose paths are those of their URLs. -/
theorem canonicalString_binds_iff (S : Starlette) (r r' : HttpRequest) :
    (Binds S r r' ↔ ¬ DifferInReplaced S r r') ∧
      (((S.parseQuery r.query).map Prod.fst).Nodup → ((S.parseQuery r'.query).map Prod.fst).Nodup →
        S.urlPath r.host r.path = some r.path → S.urlPath r'.host r'.path = some r'.path →
        Binds S r r') := by
  have hiff : Binds S r r' ↔ ¬ DifferInReplaced S r r' := by
    constructor
    · intro h hdiffer
      have hsome := (canonicalString_isSome_iff r).2 ⟨hdiffer.url, hdiffer.text⟩
      obtain ⟨canonical, hcanonical⟩ := Option.isSome_iff_exists.1 hsome
      have heq := (canonicalString_eq_iff hsome).2
        ⟨hdiffer.method, hdiffer.path, hdiffer.view, hdiffer.body⟩
      obtain ⟨-, hpath, hparams, -⟩ := h canonical hcanonical (heq ▸ hcanonical)
      exact hdiffer.differ.elim (fun hne => hne hpath) fun hne => hne hparams
    · intro h canonical hr hr'
      have hsome : (canonicalString S r).isSome := by rw [hr, Option.isSome_some]
      obtain ⟨hmethod, hpath, hview, hbytes⟩ := (canonicalString_eq_iff hsome).1 (hr.trans hr'.symm)
      obtain ⟨hurl, htext⟩ := (canonicalString_isSome_iff r).1 hsome
      have hsame : ¬ (r.path ≠ r'.path ∨ S.parseQuery r.query ≠ S.parseQuery r'.query) :=
        fun hdiffer => h ⟨htext, hurl, hmethod, hpath, hbytes, hview, hdiffer⟩
      push Not at hsame
      exact ⟨hmethod, hsame.1, hsame.2, hbytes⟩
  refine ⟨hiff, fun hnodup hnodup' hurl hurl' => hiff.2 fun hdiffer => ?_⟩
  have hview := hdiffer.view
  rw [mappingView_of_nodup hnodup, mappingView_of_nodup hnodup'] at hview
  have hpath := hdiffer.path
  rw [hurl, hurl', Option.some.injEq] at hpath
  exact hdiffer.differ.elim (fun hne => hne hpath) fun hne => hne hview

/-! ## Two pairs of requests -/

/-- `parse_qsl` where nothing is percent-encoded, and `urlsplit` of a URL with a plain host:
newlines and tabs go, the path starts at the first slash and ends before a `?` or `#`. -/
def plain : Starlette where
  parseQuery query := ((query.splitOn '&').filter (· ≠ [])).map fun field =>
    (field.takeWhile (· ≠ '='), (field.dropWhile (· ≠ '=')).drop 1)
  urlPath host path :=
    let url := (host ++ path).filter (· ∉ ['\n', '\r', '\t'])
    some ((url.dropWhile (· ∉ ['/', '?', '#'])).takeWhile (· ∉ ['?', '#']))
  urlPath_line host path p h := by
    cases h
    intro hmem
    have hfilter := (List.dropWhile_suffix _).subset ((List.takeWhile_prefix _).subset hmem)
    simp at hfilter

/-- A local request without a body. -/
def bareRequest (method path query : String) (h : '\n' ∉ method.toList) : HttpRequest where
  method := method.toList
  host := "localhost".toList
  path := path.toList
  query := query.toList
  body := []
  method_line := h

/-- `GET` on the reachability tests. -/
def reachabilityRequest (query : String) : HttpRequest :=
  bareRequest "GET" "/api/v1/utils/reachability" query (by decide)

/-- `DELETE` of a configuration, whose name is percent-encoded in the request line. -/
def deleteRequest (name : String) : HttpRequest :=
  bareRequest "DELETE" ("/api/v1/network/config/" ++ name) "" (by decide)

/-- A signature for a test of two targets is one for a test of the second of them, and one for the
deletion of `lab` is one for that of `lab?x`. -/
theorem canonicalString_binds_not_all :
    (¬ Binds plain (reachabilityRequest "targets=8.8.8.8&targets=1.1.1.1")
        (reachabilityRequest "targets=1.1.1.1") ∧
      ¬ Binds plain (deleteRequest "lab") (deleteRequest "lab?x")) ∧
    ∀ (crypto : Crypto) (request request' : Request) (peer signature : Text),
      (reachabilityRequest "targets=8.8.8.8&targets=1.1.1.1").present plain peer signature =
        some request →
      (reachabilityRequest "targets=1.1.1.1").present plain peer signature = some request' →
      verifyHmac crypto request' = verifyHmac crypto request := by
  have htargets : canonicalString plain (reachabilityRequest "targets=8.8.8.8&targets=1.1.1.1") =
      canonicalString plain (reachabilityRequest "targets=1.1.1.1") := by
    rw [canonicalString_eq, canonicalString_eq]
    decide +kernel
  have hnames : canonicalString plain (deleteRequest "lab") =
      canonicalString plain (deleteRequest "lab?x") := by
    rw [canonicalString_eq, canonicalString_eq]
    decide +kernel
  refine ⟨⟨fun h => ?_, fun h => ?_⟩, ?_⟩
  · have hparams := (h _ rfl (htargets ▸ rfl)).2.2.1
    revert hparams
    decide +kernel
  · have hpath := (h _ rfl (hnames ▸ rfl)).2.1
    revert hpath
    decide +kernel
  · intro crypto request request' peer signature h h'
    unfold HttpRequest.present at h h'
    rw [htargets, h'] at h
    rw [Option.some.inj h]

end WlanpiCore.Auth
