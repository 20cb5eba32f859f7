import Hermo.Library.PercentEncoding
import Hermo.Library.Uri

/-!
# The `url` crate

What the pairing asks of `url::Url`, and the laws it relies on (`LawfulUrl`).  `UrlCrate.plain` writes a URL as it was
read, up to the path it cannot do without; it is lawful.
-/

namespace Hermo.Auth

class UrlCrate where
  Url : Type
  /-- `Url::parse`; `none` is the error. -/
  parse : String → Option Url
  asStr : Url → String
  scheme : Url → String
  hostStr : Url → Option String
  username : Url → String
  password : Url → Option String
  path : Url → String
  query : Url → Option String
  setPath : Url → String → Url
  setScheme : Url → String → Option Url
  /-- What `query_pairs_mut` leaves, once the text it writes stands. -/
  setQueryText : Url → String → Url
  setFragment : Url → Option String → Url

export UrlCrate (Url parse asStr scheme hostStr username password path query setPath setScheme setQueryText setFragment)

section

variable [UrlCrate]

/-- A web address. -/
def IsHttp (url : Url) : Prop := scheme url = "http" ∨ scheme url = "https"

instance (url : Url) : Decidable (IsHttp url) := instDecidableOr

def HasCredentials (url : Url) : Prop := username url ≠ "" ∨ (password url).isSome

instance (url : Url) : Decidable (HasCredentials url) := instDecidableOr

/-- `Url::query_pairs`. -/
def queryPairs (url : Url) : List (String × String) :=
  (Percent.parsePairs ((query url).getD "").toList).map fun pair => (String.ofList pair.1, String.ofList pair.2)

end

/-- The characters that stay as they are in any query. -/
def queryKeep (c : Char) : Bool := Percent.isAlphanumeric c || "-._~*+%=&".toList.contains c

/-- What the code relies on; each law is of the WHATWG URL Standard, which the crate implements. -/
class LawfulUrl [UrlCrate] : Prop where
  parse_asStr {url : Url} (h : IsHttp url) : parse (asStr url) = some url
  parse_connect (q : List Char) (h : ∀ c ∈ q, queryKeep c = true) :
    ∃ url, parse (String.ofList ("hermes://connect?".toList ++ q)) = some url ∧ scheme url = "hermes" ∧
      hostStr url = some "connect" ∧ query url = some (String.ofList q)
  scheme_setPath {url : Url} (h : IsHttp url) (p : String) : scheme (setPath url p) = scheme url
  path_setPath_root {url : Url} (h : IsHttp url) : path (setPath url "/") = "/"
  /-- A path that is cut off at a slash is one. -/
  path_setPath_cut {url : Url} (h : IsHttp url) {kept slashes : List Char}
    (hpath : path url = String.ofList (kept ++ slashes)) (hkept : kept ≠ []) (hslashes : ∀ c ∈ slashes, c = '/') :
    path (setPath url (String.ofList kept)) = String.ofList kept
  setScheme_ws {url : Url} (h : IsHttp url) {s : String} (hs : s = "ws" ∨ s = "wss") : (setScheme url s).isSome
  query_setQueryText (url : Url) {q : List Char} (h : ∀ c ∈ q, queryKeep c = true) :
    query (setQueryText url (String.ofList q)) = some (String.ofList q)
  query_setFragment (url : Url) (fragment : Option String) : query (setFragment url fragment) = query url

/-! ### A plain reader -/

open Percent

namespace PlainUrl

/-- The schemes whose URLs have a path. -/
def special (s : List Char) : Bool :=
  ["http".toList, "https".toList, "ws".toList, "wss".toList, "ftp".toList].contains s

def pathKeep (c : Char) : Bool := c != '?' && c != '#'

/-- The path of a text, which begins with a slash. -/
def pathOf (p : List Char) : List Char := encode pathKeep (if p.head? = some '/' then p else '/' :: p)

def fragmentKeep (c : Char) : Bool := c != '#'

theorem encode_of_keep {keep : Char → Bool} {text : List Char} (h : ∀ c ∈ text, keep c = true) :
    encode keep text = text := by
  unfold encode
  induction text with
  | nil => rfl
  | cons c text ih =>
    have hc : encodeChar keep c = [c] := if_pos (h c List.mem_cons_self)
    rw [List.flatMap_cons, hc, ih fun d hd => h d (List.mem_cons_of_mem c hd), List.singleton_append]

theorem pathOf_head (p : List Char) : (pathOf p).head? = some '/' := by
  have hslash (rest : List Char) : (encode pathKeep ('/' :: rest)).head? = some '/' := rfl
  unfold pathOf
  split
  · rename_i h
    obtain ⟨rest, rfl⟩ := List.head?_eq_some_iff.1 h
    exact hslash rest
  · exact hslash p

theorem pathOf_ends (p : List Char) : ∀ c ∈ pathOf p, c ≠ '?' ∧ c ≠ '#' := by
  intro c hc
  rcases mem_encode hc with h | rfl | h
  · simpa [pathKeep] using h
  · decide
  · constructor <;> rintro rfl <;> revert h <;> decide

end PlainUrl

open PlainUrl

/-- A special URL has a path. -/
def PlainUrl : Type := { u : Uri // special u.scheme = true → u.path ≠ [] }

namespace PlainUrl

def withPath (u : Uri) (p : List Char) : Uri :=
  { u with path := pathOf p, path_begins := .inr (pathOf_head p), path_ends := pathOf_ends p }

theorem withPath_ne_nil (u : Uri) (p : List Char) : (withPath u p).path ≠ [] := by
  intro h
  have hhead := pathOf_head p
  rw [show pathOf p = [] from h] at hhead
  cases hhead

def ofUri (u : Uri) : PlainUrl :=
  if h : special u.scheme = true → u.path ≠ [] then ⟨u, h⟩ else ⟨withPath u [], fun _ => withPath_ne_nil u []⟩

def userInfo (u : Uri) : List Char := if '@' ∈ u.authority then u.authority.takeWhile (· != '@') else []

def hostAndPort (u : Uri) : List Char :=
  if '@' ∈ u.authority then (u.authority.dropWhile (· != '@')).tail else u.authority

def rescheme (u : PlainUrl) (s : List Char) : Option PlainUrl :=
  if h : ':' ∉ s ∧ special s = special u.1.scheme then
    some ⟨{ u.1 with scheme := s, scheme_ends := h.1 }, fun hs => u.2 (h.2 ▸ hs)⟩
  else none

def requery (u : PlainUrl) (q : List Char) : PlainUrl :=
  ⟨{ u.1 with
      query := some (encode fragmentKeep q)
      query_ends := by
        rintro _ ⟨⟩ hmem
        rcases Percent.mem_encode hmem with h | h | h <;> revert h <;> decide }, u.2⟩

end PlainUrl

@[reducible] def UrlCrate.plain : UrlCrate where
  Url := PlainUrl
  parse text := (Uri.split text.toList).map ofUri
  asStr u := String.ofList u.1.text
  scheme u := String.ofList u.1.scheme
  hostStr u := some (String.ofList ((hostAndPort u.1).takeWhile (· != ':')))
  username u := String.ofList ((userInfo u.1).takeWhile (· != ':'))
  password u := ((userInfo u.1).dropWhile (· != ':')).tail?.map String.ofList
  path u := String.ofList u.1.path
  query u := u.1.query.map String.ofList
  setPath u p := ⟨withPath u.1 p.toList, fun _ => withPath_ne_nil u.1 p.toList⟩
  setScheme u s := rescheme u s.toList
  setQueryText u q := requery u q.toList
  setFragment u f := ⟨{ u.1 with fragment := f.map String.toList }, u.2⟩

section

attribute [local instance] UrlCrate.plain

theorem special_of_isHttp {u : PlainUrl} (h : IsHttp u) : special u.1.scheme = true := by
  have hscheme {s : String} (hs : scheme u = s) : u.1.scheme = s.toList := by
    rw [← hs]
    exact String.toList_ofList.symm
  rcases h with h | h
  · rw [hscheme h]
    decide
  · rw [hscheme h]
    decide

theorem ofUri_of_special (u : PlainUrl) : ofUri u.1 = u := dif_pos u.2

theorem plain_parse_connect (q : List Char) (h : ∀ c ∈ q, queryKeep c = true) :
    ∃ url, parse (String.ofList ("hermes://connect?".toList ++ q)) = some url ∧ scheme url = "hermes" ∧
      hostStr url = some "connect" ∧ query url = some (String.ofList q) := by
  let u : Uri :=
    { scheme := "hermes".toList
      authority := "connect".toList
      query := some q
      scheme_ends := by decide
      authority_ends := Uri.forall_mem_of_all (by decide)
      path_begins := .inl rfl
      path_ends := by nofun
      query_ends := by
        rintro _ ⟨⟩ hmem
        exact absurd (h '#' hmem) (by decide) }
  have htext : "hermes://connect?".toList ++ q = u.text := by
    refine congrArg ("hermes://connect?".toList ++ ·) (List.append_nil q).symm
  have hparse : parse (String.ofList u.text) = some (ofUri u) := by
    change (Uri.split (String.ofList u.text).toList).map ofUri = _
    rw [String.toList_ofList, Uri.split_text, Option.map_some]
  have hspecial : special u.scheme = true → u.path ≠ [] :=
    fun h => absurd (show special "hermes".toList = true from h) (by decide)
  have hkeep : ofUri u = ⟨u, hspecial⟩ := dif_pos hspecial
  have hhost : hostAndPort u = "connect".toList := if_neg (show '@' ∉ "connect".toList by decide)
  rw [htext, hparse, hkeep]
  refine ⟨_, rfl, (by decide : String.ofList "hermes".toList = "hermes"), ?_, rfl⟩
  change some (String.ofList ((hostAndPort u).takeWhile (· != ':'))) = _
  rw [hhost]
  decide

theorem plain_path_setPath_cut {u : PlainUrl} {kept slashes : List Char}
    (hpath : path u = String.ofList (kept ++ slashes)) (hkept : kept ≠ []) :
    path (setPath u (String.ofList kept)) = String.ofList kept := by
  have hp : u.1.path = kept ++ slashes := String.ofList_injective hpath
  have hhead : kept.head? = some '/' := by
    have hbegins := u.1.path_begins
    rw [hp, List.head?_append_of_ne_nil _ hkept] at hbegins
    exact hbegins.resolve_left fun hnil => hkept (List.append_eq_nil_iff.1 hnil).1
  have hkeep : encode pathKeep kept = kept := by
    refine encode_of_keep fun c hc => ?_
    have hends := u.1.path_ends c (hp ▸ List.mem_append_left slashes hc)
    simpa [pathKeep] using hends
  change String.ofList (pathOf (String.ofList kept).toList) = _
  rw [String.toList_ofList]
  unfold pathOf
  rw [if_pos hhead, hkeep]

theorem plain_setScheme_ws {u : PlainUrl} (h : IsHttp u) {s : String} (hs : s = "ws" ∨ s = "wss") :
    (setScheme u s).isSome := by
  have hspecial := special_of_isHttp h
  change (rescheme u s.toList).isSome = true
  unfold rescheme
  have hok : ':' ∉ s.toList ∧ special s.toList = true := by rcases hs with rfl | rfl <;> decide
  rw [dif_pos ⟨hok.1, hok.2.trans hspecial.symm⟩]
  rfl

/-- The laws are those of a reader that keeps what it reads. -/
theorem lawful_plain : LawfulUrl where
  parse_asStr := by
    intro u h
    change (Uri.split (String.ofList u.1.text).toList).map ofUri = _
    rw [String.toList_ofList, Uri.split_text, Option.map_some, ofUri_of_special]
  parse_connect := plain_parse_connect
  scheme_setPath _ _ := rfl
  path_setPath_root _ := rfl
  path_setPath_cut := by
    intro u _ kept slashes hpath hkept _
    exact plain_path_setPath_cut hpath hkept
  setScheme_ws := plain_setScheme_ws
  query_setQueryText := by
    intro u q h
    have hkeep : encode fragmentKeep q = q := by
      refine encode_of_keep fun c hc => ?_
      have hkept := h c hc
      unfold fragmentKeep
      rw [bne_iff_ne]
      rintro rfl
      revert hkept
      decide
    change (some (encode fragmentKeep (String.ofList q).toList)).map String.ofList = _
    rw [String.toList_ofList, hkeep, Option.map_some]
  query_setFragment _ _ := rfl

end

end Hermo.Auth
