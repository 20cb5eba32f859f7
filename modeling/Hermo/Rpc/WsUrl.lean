import Mathlib.Data.List.Basic
import Hermo.Library.Uri

/-!
# The address of the WebSocket

`to_ws_url` cuts the base URL by hand (`rpc/client.rs`).  It looks for a path by the first slash behind the scheme, so
it takes `/api/ws` where there is none, but puts it behind a query (`keepsAddress_iff`).
-/

namespace Hermo.Rpc

/-- `str::strip_prefix`. -/
def stripPrefix (before text : List Char) : Option (List Char) :=
  if before <+: text then some (text.drop before.length) else none

/-- The path and the query of the result, for those of the base URL. -/
def wsPath (pathAndQuery : List Char) : List Char :=
  match pathAndQuery.dropWhile (· != '?') with
  | [] => if pathAndQuery = [] then "/api/ws".toList else pathAndQuery
  | q => if pathAndQuery.takeWhile (· != '?') = [] then "/api/ws".toList ++ q else pathAndQuery

/-- `to_ws_url`; the error is the text of a `ClientError::Transport`. -/
def toWsUrl (url : String) : Except String String :=
  let text := url.toList
  if "ws://".toList <+: text ∨ "wss://".toList <+: text then .ok url
  else
    match (stripPrefix "https://".toList text).or (stripPrefix "http://".toList text) with
    | none => .error ("unsupported url scheme: " ++ url)
    | some rest =>
      let scheme := if "https://".toList <+: text then "wss" else "ws"
      let authority := rest.takeWhile (· != '/')
      let pathAndQuery := rest.dropWhile (· != '/')
      .ok (String.ofList (scheme.toList ++ "://".toList ++ authority ++ wsPath pathAndQuery))

def httpScheme (secure : Bool) : List Char := if secure then "https".toList else "http".toList

def wsScheme (secure : Bool) : List Char := if secure then "wss".toList else "ws".toList

/-- A path begins with its slash, so what was found to stand there is never a query alone. -/
theorem wsPath_slash (more : List Char) : wsPath ('/' :: more) = '/' :: more := by
  unfold wsPath
  split
  · exact if_neg (List.cons_ne_nil _ _)
  · exact if_neg (List.cons_ne_nil _ _)

theorem not_ws {text : List Char} (h : text.head? = some 'h') :
    ¬ ("ws://".toList <+: text ∨ "wss://".toList <+: text) := by
  rintro (⟨tail, rfl⟩ | ⟨tail, rfl⟩) <;> cases h

/-- The path is sought by its first character alone. -/
theorem toWsUrl_http (secure : Bool) (rest : List Char) :
    toWsUrl (String.ofList (httpScheme secure ++ "://".toList ++ rest)) = .ok (String.ofList
      (wsScheme secure ++ "://".toList ++ (rest ++ if '/' ∈ rest then [] else "/api/ws".toList))) := by
  have hpath : rest.takeWhile (· != '/') ++ wsPath (rest.dropWhile (· != '/')) =
      rest ++ if '/' ∈ rest then [] else "/api/ws".toList := by
    split
    · rename_i hslash
      obtain ⟨authority, more, rfl, hauthority⟩ := List.eq_append_cons_of_mem hslash
      have hcut := Uri.takeWhile_append_cut (p := (· != '/')) (a := authority) (b := '/' :: more)
        (fun c hc => bne_iff_ne.2 fun heq => hauthority (heq ▸ hc)) (fun c hc => by cases hc; rfl)
      rw [hcut.1, hcut.2, wsPath_slash, List.append_nil]
    · rename_i hslash
      have hall : ∀ c ∈ rest, (c != '/') = true := fun c hc => bne_iff_ne.2 fun heq => hslash (heq ▸ hc)
      rw [List.takeWhile_eq_self_iff.2 hall, List.dropWhile_eq_nil_iff.2 hall]
      rfl
  unfold toWsUrl
  cases secure with
  | true =>
    have hprefix : "https://".toList <+: httpScheme true ++ "://".toList ++ rest := ⟨rest, rfl⟩
    have hstrip : stripPrefix "https://".toList (httpScheme true ++ "://".toList ++ rest) = some rest := if_pos hprefix
    rw [String.toList_ofList, if_neg (not_ws rfl), hstrip]
    dsimp only [Option.some_or]
    rw [if_pos hprefix, List.append_assoc, hpath]
    rfl
  | false =>
    have hno : ¬ "https://".toList <+: httpScheme false ++ "://".toList ++ rest := by
      rintro ⟨tail, htail⟩
      cases htail
    have hstrip : stripPrefix "http://".toList (httpScheme false ++ "://".toList ++ rest) = some rest :=
      if_pos ⟨rest, rfl⟩
    have hstrip' : stripPrefix "https://".toList (httpScheme false ++ "://".toList ++ rest) = none := if_neg hno
    rw [String.toList_ofList, if_neg (not_ws rfl), hstrip, hstrip']
    dsimp only [Option.none_or]
    rw [if_neg hno, List.append_assoc, hpath]
    rfl

/-- An `http` or `https` URL, with the scheme in any case. -/
def IsHttp (u : Uri) (secure : Bool) : Prop := u.scheme.map Char.toLower = httpScheme secure

/-- The URL of the WebSocket has the scheme for it, the same authority and query, and the same path, or `/api/ws` in
the place of an empty one. -/
def KeepsAddress (u : Uri) (secure : Bool) : Prop :=
  ∃ url v, toWsUrl (String.ofList u.text) = .ok url ∧ Uri.split url.toList = some v ∧ v.scheme = wsScheme secure ∧
    v.authority = u.authority ∧ v.query = u.query ∧ v.path = if u.path = [] then "/api/ws".toList else u.path

theorem scheme_lower {u : Uri} {secure : Bool} (h : IsHttp u secure) {url : String}
    (hok : toWsUrl (String.ofList u.text) = .ok url) : u.scheme = httpScheme secure := by
  have hscheme : ∀ scheme : List Char, ':' ∉ scheme → scheme ++ "://".toList <+: u.text →
      scheme.map Char.toLower = httpScheme secure ∧ u.scheme = scheme := by
    intro scheme hends hprefix
    have heq := Uri.scheme_of_prefix hends hprefix
    exact ⟨heq ▸ h, heq⟩
  have hws : ¬ ("ws://".toList <+: u.text ∨ "wss://".toList <+: u.text) := by
    rintro (hws | hwss)
    · cases secure <;> cases (hscheme "ws".toList (by decide) hws).1
    · cases secure <;> cases (hscheme "wss".toList (by decide) hwss).1
  unfold toWsUrl at hok
  rw [String.toList_ofList, if_neg hws] at hok
  by_cases hsecure : "https://".toList <+: u.text
  · obtain ⟨hlower, heq⟩ := hscheme "https".toList (by decide) hsecure
    rw [heq, ← hlower]
    decide
  · by_cases hplain : "http://".toList <+: u.text
    · obtain ⟨hlower, heq⟩ := hscheme "http".toList (by decide) hplain
      rw [heq, ← hlower]
      decide
    · unfold stripPrefix at hok
      rw [if_neg hsecure, if_neg hplain] at hok
      cases hok

/-- The result, cut into its parts. -/
theorem split_toWsUrl {u : Uri} {secure : Bool} (h : u.scheme = httpScheme secure) :
    ∃ url, toWsUrl (String.ofList u.text) = .ok url ∧ ∃ hends : ':' ∉ wsScheme secure, Uri.split url.toList =
      some (Uri.ofRest (wsScheme secure) hends (u.rest ++ if '/' ∈ u.rest then [] else "/api/ws".toList)) := by
  have hends : ':' ∉ wsScheme secure := by cases secure <;> decide
  have hurl := toWsUrl_http secure u.rest
  rw [← h] at hurl
  refine ⟨_, hurl, hends, ?_⟩
  rw [String.toList_ofList]
  exact Uri.split_scheme hends _

/-- What stands behind the authority where there is no path. -/
theorem rest_of_empty {u : Uri} (h : u.path = []) : u.rest = u.authority ++ Uri.tail u.query u.fragment := by
  unfold Uri.rest
  rw [h, List.append_nil]

/-- The address is kept where there is a path, and where there is nothing behind the authority. -/
theorem keepsAddress_iff {u : Uri} {secure : Bool} (h : IsHttp u secure) :
    KeepsAddress u secure ↔
      u.scheme = httpScheme secure ∧ (u.path = [] → u.query = none ∧ u.fragment = none) := by
  constructor
  · rintro ⟨url, v, hok, hsplit, -, -, -, hpath⟩
    have hscheme := scheme_lower h hok
    refine ⟨hscheme, fun hempty => ?_⟩
    obtain ⟨url', hok', hends, hsplit'⟩ := split_toWsUrl hscheme
    have hurl : url' = url := Except.ok.inj (hok'.symm.trans hok)
    rw [hurl, hsplit, Option.some_inj] at hsplit'
    rw [if_pos hempty, hsplit', rest_of_empty hempty, List.append_assoc] at hpath
    by_contra hno
    -- the query or the fragment comes before all else
    have hbehind : ∀ more : List Char, ∀ c ∈ (Uri.tail u.query u.fragment ++ more).head?, Uri.endsPath c = true := by
      intro more c hc
      have htail : Uri.tail u.query u.fragment ≠ [] := by
        intro hnil
        cases hquery : u.query <;> cases hfragment : u.fragment <;> rw [hquery, hfragment] at hnil hno <;>
          first | exact hno ⟨rfl, rfl⟩ | cases hnil
      rw [List.head?_append_of_ne_nil _ htail] at hc
      rcases u.tail_head c hc with rfl | rfl <;> rfl
    rw [Uri.ofRest_path hends u.authority_ends (hbehind _)] at hpath
    cases hpath
  · rintro ⟨hscheme, hbehind⟩
    obtain ⟨url, hok, hends, hsplit⟩ := split_toWsUrl hscheme
    refine ⟨url, _, hok, hsplit, rfl, ?_⟩
    rcases u.path_begins with hempty | hslash
    · obtain ⟨hquery, hfragment⟩ := hbehind hempty
      have hrest : u.rest = u.authority := by
        rw [rest_of_empty hempty, hquery, hfragment]
        exact List.append_nil _
      have hno : '/' ∉ u.authority := fun hmem => (u.authority_ends _ hmem).1 rfl
      let w : Uri :=
        { u with
          path := "/api/ws".toList
          path_begins := .inr rfl
          path_ends := Uri.forall_mem_of_all (by decide) }
      have hw : w.rest = u.authority ++ "/api/ws".toList := by
        change u.authority ++ "/api/ws".toList ++ Uri.tail u.query u.fragment = _
        rw [hquery, hfragment]
        exact List.append_nil _
      rw [hrest, if_neg hno, if_pos hempty, ← hw, w.ofRest_rest]
      exact ⟨rfl, rfl, rfl⟩
    · have hmem : '/' ∈ u.rest := by
        unfold Uri.rest
        exact List.mem_append_left _ (List.mem_append_right _ (List.mem_of_mem_head? hslash))
      have hne : u.path ≠ [] := by
        intro hnil
        rw [hnil] at hslash
        cases hslash
      rw [if_pos hmem, List.append_nil, if_neg hne, u.ofRest_rest]
      exact ⟨rfl, rfl, rfl⟩

/-- The parts of `http://host:9119/agent?token=x`. -/
theorem keepsAddress_iff_agent :
    let u : Uri :=
      { scheme := "http".toList
        authority := "host:9119".toList
        path := "/agent".toList
        query := some "token=x".toList
        scheme_ends := by decide
        authority_ends := Uri.forall_mem_of_all (by decide)
        path_begins := .inr rfl
        path_ends := Uri.forall_mem_of_all (by decide)
        query_ends := by rintro q ⟨⟩; decide }
    KeepsAddress u false := by
  intro u
  have hhttp : IsHttp u false := rfl
  exact (keepsAddress_iff hhttp).2 ⟨rfl, nofun⟩

/-- The base URL with a token of the loopback path. -/
theorem token_is_moved :
    let u : Uri :=
      { scheme := "http".toList
        authority := "host:9119".toList
        query := some "token=x".toList
        scheme_ends := by decide
        authority_ends := Uri.forall_mem_of_all (by decide)
        path_begins := .inl rfl
        path_ends := nofun
        query_ends := by rintro q ⟨⟩; decide }
    toWsUrl (String.ofList u.text) = .ok "ws://host:9119?token=x/api/ws" ∧ ¬ KeepsAddress u false := by
  intro u
  refine ⟨by decide, ?_⟩
  rintro ⟨url, v, hok, hsplit, -, -, -, hpath⟩
  have hurl : url = "ws://host:9119?token=x/api/ws" := Except.ok.inj (hok.symm.trans (by decide))
  have hempty : (Uri.split "ws://host:9119?token=x/api/ws".toList).map Uri.path = some [] := by decide
  rw [hurl] at hsplit
  rw [hsplit, Option.map_some, hpath] at hempty
  cases hempty

end Hermo.Rpc
