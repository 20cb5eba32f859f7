import Mathlib.Data.List.DropRight
import Hermo.Auth.Url
import Hermo.Rpc.Frames

/-!
# Pairing

The endpoint of a gateway and the texts it goes through (`auth/endpoint.rs`): the payload of a pairing code, as the fake
gateway prints it (`pairing_payload`), the file the core keeps it in (`save_endpoint`, `load_endpoint`), and the address
of the WebSocket with its ticket.  `pairing_round_trip` says that nothing is lost on the way.
-/

namespace Hermo.Auth

open Rpc (trim trimEnd trimEnd_append trim_of_ends isWhitespace)

section

variable [UrlCrate]

/-! ### The endpoint -/

/-- A path without the slashes at its end, down to the root. -/
def trimmedPath (p : List Char) : List Char :=
  let trimmed := trimEnd (· == '/') p
  if trimmed = [] then ['/'] else trimmed

def stripTrailingSlashes (url : Url) : Url :=
  let trimmed := trimmedPath (path url).toList
  if trimmed = (path url).toList then url else setPath url (String.ofList trimmed)

structure GatewayEndpoint where
  baseUrl : Url
  username : String
  displayName : String

def GatewayEndpoint.new (base : Url) (username displayName : String) : GatewayEndpoint :=
  ⟨stripTrailingSlashes base, username, displayName⟩

/-! ### The payload -/

/-- `percent_decode`. -/
def percentDecode (raw : List Char) : String := String.ofList (Percent.fromUtf8Lossy (Percent.decode raw))

/-- The values of the keys that are known. -/
structure QrFields where
  version : Option String := none
  base : Option String := none
  user : Option String := none
  name : Option String := none
  deriving DecidableEq

namespace QrFields

def put (fields : QrFields) (key value : String) : QrFields :=
  if key = "v" then { fields with version := some value }
  else if key = "url" then { fields with base := some value }
  else if key = "user" then { fields with user := some value }
  else if key = "name" then { fields with name := some value }
  else fields

/-- A pair is cut at its first equals sign. -/
def read (fields : QrFields) (pair : List Char) : QrFields :=
  fields.put (percentDecode (pair.takeWhile (· != '='))) (percentDecode (pair.dropWhile (· != '=')).tail)

end QrFields

/-- `parse_qr_payload`; `none` is `CoreError::InvalidQr`. -/
def parseQrPayload (payload : String) : Option GatewayEndpoint := do
  let url ← parse (String.ofList (trim payload.toList))
  if scheme url ≠ "hermes" then none
  else if (hostStr url).map (fun h => String.ofList (h.toList.map Char.toLower)) ≠ some "connect" then none
  else
    let fields := ((((query url).getD "").toList.splitOn '&').foldl QrFields.read {})
    if fields.version ≠ some "1" then none
    else
      let rawBase ← fields.base
      let baseUrl ← parse rawBase
      if scheme baseUrl ≠ "http" ∧ scheme baseUrl ≠ "https" then none
      else if username baseUrl ≠ "" ∨ (password baseUrl).isSome then none
      else some ⟨stripTrailingSlashes baseUrl, fields.user.getD "", fields.name.getD ""⟩

/-- `PAIRING_VALUE`, by the characters it leaves as they are. -/
def pairingKeep (c : Char) : Bool := Percent.isAlphanumeric c || "-._~".toList.contains c

/-- `utf8_percent_encode` of a value. -/
def pairingValue (value : String) : List Char := Percent.encode pairingKeep value.toList

/-- What follows the question mark. -/
def pairingQuery (baseUrl user name : String) : List Char :=
  "v=1".toList ++ "&url=".toList ++ pairingValue baseUrl ++ "&user=".toList ++ pairingValue user ++ "&name=".toList ++
    pairingValue name

def pairingPayload (baseUrl user name : String) : String :=
  String.ofList ("hermes://connect?".toList ++ pairingQuery baseUrl user name)

/-! ### The file -/

/-- `save_endpoint`, by the text it writes. -/
def saveEndpoint [Serializer] (ep : GatewayEndpoint) : String :=
  toCompactString (.object [("base_url", .string (asStr ep.baseUrl)), ("username", .string ep.username),
    ("display_name", .string ep.displayName)])

/-- `load_endpoint`; a file that cannot be read is `none`. -/
def loadEndpoint [JsonReader] (file : Option String) : Option GatewayEndpoint := do
  let raw ← file
  let v ← fromStr raw
  let base ← parse (v.strAt "base_url")
  return GatewayEndpoint.new base (v.strAt "username") (v.strAt "display_name")

/-! ### The WebSocket -/

/-- What `append_pair` writes. -/
def formPair (key value : String) : List Char :=
  Percent.formEncode key.toList ++ '=' :: Percent.formEncode value.toList

/-- `ws_url`; `none` is the panic of the `expect`. -/
def wsUrl (base : Url) (ticket : String) : Option Url :=
  (setScheme base (if scheme base = "https" then "wss" else "ws")).map fun out =>
    let out := setPath out (String.ofList (trimEnd (· == '/') (path out).toList ++ "/api/ws".toList))
    setFragment (setQueryText out (String.ofList (formPair "ticket" ticket))) none

end

/-! ### Slashes -/

theorem trimEnd_idem (p : Char → Bool) (text : List Char) : trimEnd p (trimEnd p text) = trimEnd p text :=
  List.rdropWhile_idempotent p text

theorem trimmedPath_idem (p : List Char) : trimmedPath (trimmedPath p) = trimmedPath p := by
  unfold trimmedPath
  dsimp only
  by_cases h : trimEnd (· == '/') p = []
  · rw [if_pos h]
    decide
  · rw [if_neg h, trimEnd_idem, if_neg h]

section

variable [UrlCrate] [LawfulUrl]

theorem path_stripTrailingSlashes {url : Url} (h : IsHttp url) :
    (path (stripTrailingSlashes url)).toList = trimmedPath (path url).toList := by
  unfold stripTrailingSlashes
  dsimp only
  split
  · rename_i hsame
    exact hsame.symm
  · by_cases hroot : trimEnd (· == '/') (path url).toList = []
    · have hpath : trimmedPath (path url).toList = ['/'] := if_pos hroot
      rw [hpath, LawfulUrl.path_setPath_root h]
      rfl
    · have hpath : trimmedPath (path url).toList = trimEnd (· == '/') (path url).toList := if_neg hroot
      obtain ⟨slashes, happend, hslashes⟩ := trimEnd_append (· == '/') (path url).toList
      have hcut : path url = String.ofList (trimEnd (· == '/') (path url).toList ++ slashes) := by
        rw [happend, String.ofList_toList]
      rw [hpath, LawfulUrl.path_setPath_cut h hcut hroot fun c hc => beq_iff_eq.1 (hslashes c hc), String.toList_ofList]

theorem scheme_stripTrailingSlashes {url : Url} (h : IsHttp url) :
    scheme (stripTrailingSlashes url) = scheme url := by
  unfold stripTrailingSlashes
  dsimp only
  split
  · rfl
  · exact LawfulUrl.scheme_setPath h _

theorem isHttp_stripTrailingSlashes {url : Url} (h : IsHttp url) : IsHttp (stripTrailingSlashes url) := by
  unfold IsHttp
  rw [scheme_stripTrailingSlashes h]
  exact h

/-- The slashes are stripped when the payload is parsed, and again when the file is loaded. -/
theorem stripTrailingSlashes_idem {url : Url} (h : IsHttp url) :
    stripTrailingSlashes (stripTrailingSlashes url) = stripTrailingSlashes url := by
  have hpath := path_stripTrailingSlashes h
  have hsame : trimmedPath (path (stripTrailingSlashes url)).toList = (path (stripTrailingSlashes url)).toList := by
    rw [hpath, trimmedPath_idem]
  exact if_pos hsame

end

/-! ### Characters -/

/-- What stays in a query is no white space. -/
theorem not_white_of_queryKeep {c : Char} (h : queryKeep c = true) : isWhitespace c = false := by
  unfold queryKeep at h
  rcases Bool.or_eq_true _ _ ▸ h with halnum | hmark
  · have hcode := Percent.isAlphanumeric_iff.1 halnum
    unfold isWhitespace
    simp
    omega
  · have hall : ∀ d ∈ "-._~*+%=&".toList, isWhitespace d = false := Uri.forall_mem_of_all (by decide)
    exact hall c (List.contains_iff_mem.1 hmark)

theorem queryKeep_of_mem_encode {keep : Char → Bool} (hkeep : ∀ c, keep c = true → queryKeep c = true)
    {text : List Char} {c : Char} (hc : c ∈ Percent.encode keep text) : queryKeep c = true := by
  rcases Percent.mem_encode hc with h | rfl | h
  · exact hkeep c h
  · decide
  · unfold queryKeep
    rw [Percent.isAlphanumeric_of_isHexDigit h, Bool.true_or]

/-! ### The payload is read -/

theorem pairingKeep_queryKeep (c : Char) (h : pairingKeep c = true) : queryKeep c = true := by
  unfold pairingKeep at h
  unfold queryKeep
  rcases Bool.or_eq_true _ _ ▸ h with halnum | hmark
  · rw [halnum, Bool.true_or]
  · have hall : ∀ d ∈ "-._~".toList, "-._~*+%=&".toList.contains d = true :=
      Uri.forall_mem_of_all (by decide)
    rw [hall c (List.contains_iff_mem.1 hmark), Bool.or_true]

/-- The characters that cut a query are encoded. -/
theorem not_mem_pairingValue {c : Char} (hc : c = '&' ∨ c = '=') (value : String) : c ∉ pairingValue value := by
  intro hmem
  rcases hc with rfl | rfl
  · rcases Percent.mem_encode hmem with h | h | h <;> revert h <;> decide
  · rcases Percent.mem_encode hmem with h | h | h <;> revert h <;> decide

theorem percentDecode_pairingValue (value : String) : percentDecode (pairingValue value) = value := by
  unfold percentDecode pairingValue
  rw [Percent.decode_encode (by decide), Percent.fromUtf8Lossy_utf8, String.ofList_toList]

theorem percentDecode_of_not_mem {raw : List Char} (h : '%' ∉ raw) : percentDecode raw = String.ofList raw := by
  unfold percentDecode
  rw [Percent.decode_of_not_mem h, Percent.fromUtf8Lossy_utf8]

theorem read_pair (fields : QrFields) {key : List Char} (hkey : '=' ∉ key ∧ '%' ∉ key) (value : List Char) :
    fields.read (key ++ '=' :: value) = fields.put (String.ofList key) (percentDecode value) := by
  obtain ⟨htake, hdrop⟩ := Uri.takeWhile_append_cut (p := (· != '=')) (a := key) (b := '=' :: value)
    (fun c hc => bne_iff_ne.2 fun heq => hkey.1 (heq ▸ hc)) (fun c hc => by cases hc; rfl)
  unfold QrFields.read
  rw [htake, hdrop, percentDecode_of_not_mem hkey.2, List.tail_cons]

/-- Every value comes back under its key. -/
theorem read_pairingQuery (baseUrl user name : String) :
    ((pairingQuery baseUrl user name).splitOn '&').foldl QrFields.read {} =
      ⟨some "1", some baseUrl, some user, some name⟩ := by
  have hpair {key : List Char} (hkey : '&' ∉ key) (value : String) : '&' ∉ key ++ '=' :: pairingValue value := by
    rw [List.mem_append, List.mem_cons]
    rintro (h | h | h)
    · exact hkey h
    · cases h
    · exact not_mem_pairingValue (.inl rfl) value h
  have hsplit : (pairingQuery baseUrl user name).splitOn '&' =
      ["v=1".toList, "url".toList ++ '=' :: pairingValue baseUrl, "user".toList ++ '=' :: pairingValue user,
        "name".toList ++ '=' :: pairingValue name] := by
    refine Eq.trans ?_ (List.splitOn_intercalate '&' ?_ (List.cons_ne_nil _ _))
    · unfold pairingQuery
      simp only [List.intercalate_cons_cons, List.intercalate_singleton, List.append_assoc]
      rfl
    · intro l hl
      simp only [List.mem_cons, List.not_mem_nil, or_false] at hl
      rcases hl with rfl | rfl | rfl | rfl
      · decide
      · exact hpair (by decide) baseUrl
      · exact hpair (by decide) user
      · exact hpair (by decide) name
  have hversion : QrFields.read {} "v=1".toList = { version := some "1" } := by decide
  rw [hsplit, List.foldl_cons, List.foldl_cons, List.foldl_cons, List.foldl_cons, List.foldl_nil, hversion,
    read_pair _ (by decide), read_pair _ (by decide), read_pair _ (by decide), percentDecode_pairingValue,
    percentDecode_pairingValue, percentDecode_pairingValue]
  rfl

section

variable [UrlCrate] [LawfulUrl]

theorem parseQrPayload_pairingPayload {base : String} {url : Url} (hbase : parse base = some url) (hhttp : IsHttp url)
    (hcredentials : ¬ HasCredentials url) (user name : String) :
    parseQrPayload (pairingPayload base user name) = some ⟨stripTrailingSlashes url, user, name⟩ := by
  have hkeep : ∀ c ∈ pairingQuery base user name, queryKeep c = true := by
    have hvalue (value : String) : ∀ c ∈ pairingValue value, queryKeep c = true :=
      fun c hc => queryKeep_of_mem_encode pairingKeep_queryKeep hc
    intro c hc
    unfold pairingQuery at hc
    rw [List.mem_append, List.mem_append, List.mem_append, List.mem_append, List.mem_append, List.mem_append] at hc
    rcases hc with (((((hc | hc) | hc) | hc) | hc) | hc) | hc
    · exact (Uri.forall_mem_of_all (by decide) : ∀ c ∈ "v=1".toList, queryKeep c = true) c hc
    · exact (Uri.forall_mem_of_all (by decide) : ∀ c ∈ "&url=".toList, queryKeep c = true) c hc
    · exact hvalue base c hc
    · exact (Uri.forall_mem_of_all (by decide) : ∀ c ∈ "&user=".toList, queryKeep c = true) c hc
    · exact hvalue user c hc
    · exact (Uri.forall_mem_of_all (by decide) : ∀ c ∈ "&name=".toList, queryKeep c = true) c hc
    · exact hvalue name c hc
  have hwhite : ∀ c ∈ "hermes://connect?".toList ++ pairingQuery base user name, isWhitespace c = false := by
    intro c hc
    rcases List.mem_append.1 hc with hc | hc
    · exact (Uri.forall_mem_of_all (by decide) : ∀ c ∈ "hermes://connect?".toList, isWhitespace c = false) c hc
    · exact not_white_of_queryKeep (hkeep c hc)
  have htrim : trim (pairingPayload base user name).toList =
      "hermes://connect?".toList ++ pairingQuery base user name := by
    unfold pairingPayload
    rw [String.toList_ofList]
    exact trim_of_ends (fun c hc => hwhite c (List.mem_of_mem_head? hc))
      fun c hc => hwhite c (List.mem_of_mem_getLast? hc)
  obtain ⟨outer, hparse, hscheme, hhost, hquery⟩ := LawfulUrl.parse_connect _ hkeep
  have hconnect : (hostStr outer).map (fun h => String.ofList (h.toList.map Char.toLower)) = some "connect" := by
    rw [hhost]
    decide
  have hfields : (((query outer).getD "").toList.splitOn '&').foldl QrFields.read {} =
      ⟨some "1", some base, some user, some name⟩ := by
    rw [hquery, Option.getD_some, String.toList_ofList, read_pairingQuery]
  have hweb : ¬ (scheme url ≠ "http" ∧ scheme url ≠ "https") := by
    rintro ⟨hplain, hsecure⟩
    exact hhttp.elim hplain hsecure
  unfold parseQrPayload
  rw [htrim, hparse, Option.bind_eq_bind, Option.bind_some, if_neg (not_not_intro hscheme),
    if_neg (not_not_intro hconnect), hfields]
  dsimp only
  rw [if_neg (not_not_intro rfl), Option.bind_eq_bind, Option.bind_some, hbase, Option.bind_some, if_neg hweb]
  exact if_neg hcredentials

/-- The slashes that are stripped on loading were stripped before. -/
theorem loadEndpoint_saveEndpoint [Serializer] [JsonReader] [LawfulJson] {ep : GatewayEndpoint}
    (hhttp : IsHttp ep.baseUrl) (hstripped : stripTrailingSlashes ep.baseUrl = ep.baseUrl) :
    loadEndpoint (some (saveEndpoint ep)) = some ep := by
  obtain ⟨baseUrl, username, displayName⟩ := ep
  have hread := LawfulJson.fromStr_toCompactString (.object [("base_url", .string (asStr baseUrl)),
    ("username", .string username), ("display_name", .string displayName)]) rfl
    (by simp [Value.depth, Value.depthFields])
  unfold loadEndpoint saveEndpoint
  rw [Option.bind_eq_bind, Option.bind_some, hread, Option.bind_eq_bind, Option.bind_some]
  change (parse (asStr baseUrl)).bind (fun base => some (GatewayEndpoint.new base username displayName)) = _
  rw [LawfulUrl.parse_asStr hhttp, Option.bind_some]
  unfold GatewayEndpoint.new
  rw [hstripped]

theorem query_wsUrl {url : Url} (h : IsHttp url) (ticket : String) :
    ∃ out, wsUrl url ticket = some out ∧ query out = some (String.ofList (formPair "ticket" ticket)) := by
  have hscheme : (setScheme url (if scheme url = "https" then "wss" else "ws")).isSome := by
    refine LawfulUrl.setScheme_ws h ?_
    split
    · exact .inr rfl
    · exact .inl rfl
  obtain ⟨ws, hws⟩ := Option.isSome_iff_exists.1 hscheme
  have hkeep : ∀ c ∈ formPair "ticket" ticket, queryKeep c = true := by
    have hform (text : List Char) : ∀ c ∈ Percent.formEncode text, queryKeep c = true := by
      intro c hc
      rcases Percent.mem_formEncode hc with hkept | rfl | rfl | hhex
      · unfold Percent.formKeep at hkept
        unfold queryKeep
        simp only [Bool.or_eq_true, beq_iff_eq] at hkept
        rcases hkept with (((halnum | rfl) | rfl) | rfl) | rfl
        · rw [halnum, Bool.true_or]
        all_goals decide
      · decide
      · decide
      · unfold queryKeep
        rw [Percent.isAlphanumeric_of_isHexDigit hhex, Bool.true_or]
    intro c hc
    rcases List.mem_append.1 hc with hc | hc
    · exact hform _ c hc
    · rcases List.mem_cons.1 hc with rfl | hc
      · decide
      · exact hform _ c hc
  refine ⟨_, congrArg _ hws, ?_⟩
  rw [LawfulUrl.query_setFragment, LawfulUrl.query_setQueryText _ hkeep]

theorem queryPairs_wsUrl {url : Url} (h : IsHttp url) (ticket : String) :
    ∃ out, wsUrl url ticket = some out ∧ queryPairs out = [("ticket", ticket)] := by
  obtain ⟨out, hout, hquery⟩ := query_wsUrl h ticket
  refine ⟨out, hout, ?_⟩
  unfold queryPairs
  rw [hquery, Option.getD_some, String.toList_ofList]
  unfold formPair
  rw [Percent.parsePairs_pair, List.map_singleton, String.ofList_toList, String.ofList_toList]

end

section

attribute [local instance] UrlCrate.plain lawful_plain Serializer.compact JsonReader.compact lawful_compact

end

end Hermo.Auth
