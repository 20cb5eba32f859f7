import Mathlib.Data.List.TakeWhile

/-!
# The parts of a URI

The generic syntax of a URI with an authority: a text is cut at the first colon, slash, question mark and number sign
that can end a part.  `split_text` says that the parts are read back from the text they are written in.
-/

/-- A URI with an authority, cut into its parts. -/
@[ext]
structure Uri where
  scheme : List Char
  authority : List Char
  path : List Char := []
  query : Option (List Char) := none
  fragment : Option (List Char) := none
  scheme_ends : ':' ∉ scheme
  authority_ends : ∀ c ∈ authority, c ≠ '/' ∧ c ≠ '?' ∧ c ≠ '#'
  path_begins : path = [] ∨ path.head? = some '/'
  path_ends : ∀ c ∈ path, c ≠ '?' ∧ c ≠ '#'
  query_ends : ∀ q ∈ query, '#' ∉ q

namespace Uri

/-- Each character of a given text is looked at. -/
theorem forall_mem_of_all {p : Char → Prop} [DecidablePred p] {text : List Char} (h : text.all (p ·) = true) :
    ∀ c ∈ text, p c := fun c hc => of_decide_eq_true (List.all_eq_true.1 h c hc)

/-- The parts behind the path. -/
def tail (query fragment : Option (List Char)) : List Char :=
  (query.map ('?' :: ·)).getD [] ++ (fragment.map ('#' :: ·)).getD []

/-- What follows the scheme. -/
def rest (u : Uri) : List Char := u.authority ++ u.path ++ tail u.query u.fragment

def text (u : Uri) : List Char := u.scheme ++ "://".toList ++ u.rest

/-! ### Reading -/

def endsAuthority (c : Char) : Bool := c == '/' || c == '?' || c == '#'

def endsPath (c : Char) : Bool := c == '?' || c == '#'

/-- Query and fragment. -/
def splitTail : List Char → Option (List Char) × Option (List Char)
  | '?' :: more => (some (more.takeWhile (· != '#')), (more.dropWhile (· != '#')).tail?)
  | '#' :: more => (none, some more)
  | _ => (none, none)

theorem takeWhile_append_cut {α : Type} {p : α → Bool} {a b : List α} (ha : ∀ x ∈ a, p x = true)
    (hb : ∀ x ∈ b.head?, p x = false) : (a ++ b).takeWhile p = a ∧ (a ++ b).dropWhile p = b := by
  rw [List.takeWhile_append_of_pos ha, List.dropWhile_append_of_pos ha]
  cases b with
  | nil => exact ⟨List.append_nil a, rfl⟩
  | cons x b =>
    have hx : ¬ p x = true := Bool.eq_false_iff.1 (hb x rfl)
    exact ⟨by rw [List.takeWhile_cons_of_neg hx, List.append_nil], List.dropWhile_cons_of_neg hx⟩

theorem splitTail_tail {query : Option (List Char)} (h : ∀ q ∈ query, '#' ∉ q) (fragment : Option (List Char)) :
    splitTail (tail query fragment) = (query, fragment) := by
  cases query with
  | none => cases fragment <;> rfl
  | some q =>
    have hq : ∀ c ∈ q, (c != '#') = true := by
      intro c hc
      rw [bne_iff_ne]
      rintro rfl
      exact h q rfl hc
    have hfragment : ∀ c ∈ ((fragment.map ('#' :: ·)).getD []).head?, (c != '#') = false := by
      cases fragment with
      | none => nofun
      | some f =>
        rintro c ⟨⟩
        rfl
    obtain ⟨htake, hdrop⟩ := takeWhile_append_cut hq hfragment
    unfold tail
    rw [Option.map_some, Option.getD_some, List.cons_append, splitTail, htake, hdrop]
    cases fragment <;> rfl

theorem takeWhile_ends (d : Char) (text : List Char) : d ∉ text.takeWhile (· != d) :=
  fun h => by simpa using List.mem_takeWhile_imp h

theorem takeWhile_authority (rest : List Char) :
    ∀ c ∈ rest.takeWhile (!endsAuthority ·), c ≠ '/' ∧ c ≠ '?' ∧ c ≠ '#' := by
  intro c hc
  have hends := List.mem_takeWhile_imp hc
  simpa [endsAuthority, and_assoc] using hends

theorem takeWhile_path (behind : List Char) : ∀ c ∈ behind.takeWhile (!endsPath ·), c ≠ '?' ∧ c ≠ '#' := by
  intro c hc
  have hends := List.mem_takeWhile_imp hc
  simpa [endsPath] using hends

/-- Behind the authority there is a path, or there is none and something else. -/
theorem path_head (rest : List Char) :
    (rest.dropWhile (!endsAuthority ·)).takeWhile (!endsPath ·) = [] ∨
      ((rest.dropWhile (!endsAuthority ·)).takeWhile (!endsPath ·)).head? = some '/' := by
  have hhead := List.head?_dropWhile_not (!endsAuthority ·) rest
  cases hbehind : rest.dropWhile (!endsAuthority ·) with
  | nil => exact .inl rfl
  | cons c more =>
    rw [hbehind] at hhead
    by_cases hpath : endsPath c = true
    · exact .inl (List.takeWhile_cons_of_neg (by simpa using hpath))
    · right
      rw [List.takeWhile_cons_of_pos (by simpa using hpath), List.head?_cons]
      have hslash : endsAuthority c = true := by simpa using hhead
      unfold endsAuthority at hslash
      unfold endsPath at hpath
      rw [Bool.or_assoc, Bool.or_eq_true] at hslash
      exact congrArg some (beq_iff_eq.1 (hslash.resolve_right hpath))

theorem splitTail_query (text : List Char) : ∀ q ∈ (splitTail text).1, '#' ∉ q := by
  intro q hq
  unfold splitTail at hq
  split at hq
  · cases hq
    exact takeWhile_ends '#' _
  · cases hq
  · cases hq

/-- The parts of what follows the scheme. -/
def ofRest (scheme : List Char) (h : ':' ∉ scheme) (rest : List Char) : Uri :=
  let behind := rest.dropWhile (!endsAuthority ·)
  let parts := splitTail (behind.dropWhile (!endsPath ·))
  { scheme := scheme
    authority := rest.takeWhile (!endsAuthority ·)
    path := behind.takeWhile (!endsPath ·)
    query := parts.1
    fragment := parts.2
    scheme_ends := h
    authority_ends := takeWhile_authority rest
    path_begins := path_head rest
    path_ends := takeWhile_path behind
    query_ends := splitTail_query _ }

/-- The parts of a text. -/
def split (text : List Char) : Option Uri :=
  match text.dropWhile (· != ':') with
  | ':' :: '/' :: '/' :: rest => some (ofRest (text.takeWhile (· != ':')) (takeWhile_ends ':' text) rest)
  | _ => none

theorem tail_head (u : Uri) : ∀ c ∈ (tail u.query u.fragment).head?, c = '?' ∨ c = '#' := by
  intro c hc
  unfold tail at hc
  cases hquery : u.query with
  | some q =>
    rw [hquery] at hc
    cases hc
    exact .inl rfl
  | none =>
    cases hfragment : u.fragment with
    | some f =>
      rw [hquery, hfragment] at hc
      cases hc
      exact .inr rfl
    | none =>
      rw [hquery, hfragment] at hc
      cases hc

/-- What ends the authority. -/
theorem behind_head (u : Uri) : ∀ c ∈ (u.path ++ tail u.query u.fragment).head?, endsAuthority c = true := by
  intro c hc
  rcases u.path_begins with hnil | hslash
  · rw [hnil, List.nil_append] at hc
    rcases u.tail_head c hc with rfl | rfl <;> rfl
  · rw [List.head?_append, hslash] at hc
    cases hc
    rfl

theorem ofRest_rest (u : Uri) {scheme : List Char} (h : ':' ∉ scheme) :
    ofRest scheme h u.rest = { u with scheme := scheme, scheme_ends := h } := by
  have hauthority := takeWhile_append_cut (p := (!endsAuthority ·)) (a := u.authority)
    (b := u.path ++ tail u.query u.fragment)
    (fun c hc => by simp [endsAuthority, u.authority_ends c hc]) (fun c hc => by simp [u.behind_head c hc])
  have hpath := takeWhile_append_cut (p := (!endsPath ·)) (a := u.path) (b := tail u.query u.fragment)
    (fun c hc => by simp [endsPath, u.path_ends c hc])
    (fun c hc => by rcases u.tail_head c hc with rfl | rfl <;> rfl)
  have htail := splitTail_tail u.query_ends u.fragment
  have hrest : u.rest = u.authority ++ (u.path ++ tail u.query u.fragment) := List.append_assoc _ _ _
  rw [← hrest] at hauthority
  unfold ofRest
  refine Uri.ext rfl hauthority.1 ?_ ?_ ?_
  · dsimp only
    rw [hauthority.2, hpath.1]
  · dsimp only
    rw [hauthority.2, hpath.2, htail]
  · dsimp only
    rw [hauthority.2, hpath.2, htail]

/-- There is no path where something else ends the authority. -/
theorem ofRest_path {scheme : List Char} (h : ':' ∉ scheme) {authority behind : List Char}
    (hauthority : ∀ c ∈ authority, c ≠ '/' ∧ c ≠ '?' ∧ c ≠ '#') (hbehind : ∀ c ∈ behind.head?, endsPath c = true) :
    (ofRest scheme h (authority ++ behind)).path = [] := by
  have hcut := takeWhile_append_cut (p := (!endsAuthority ·)) (a := authority) (b := behind)
    (fun c hc => by simp [endsAuthority, hauthority c hc]) (fun c hc => by
      have hends := hbehind c hc
      unfold endsPath at hends
      unfold endsAuthority
      rw [Bool.or_assoc, hends, Bool.or_true]
      rfl)
  unfold ofRest
  dsimp only
  rw [hcut.2]
  cases behind with
  | nil => rfl
  | cons c more => exact List.takeWhile_cons_of_neg (by simp [hbehind c rfl])

theorem split_scheme {scheme : List Char} (h : ':' ∉ scheme) (rest : List Char) :
    split (scheme ++ "://".toList ++ rest) = some (ofRest scheme h rest) := by
  have hcut := takeWhile_append_cut (p := (· != ':')) (a := scheme) (b := "://".toList ++ rest)
    (fun c hc => bne_iff_ne.2 fun heq => h (heq ▸ hc)) (fun c hc => by cases hc; rfl)
  rw [← List.append_assoc] at hcut
  have hdrop : (scheme ++ "://".toList ++ rest).dropWhile (· != ':') = ':' :: '/' :: '/' :: rest := hcut.2
  unfold split
  rw [hdrop]
  refine congrArg some ?_
  simp only [hcut.1]

/-- The parts come back. -/
theorem split_text (u : Uri) : split u.text = some u :=
  (split_scheme u.scheme_ends u.rest).trans (congrArg some (u.ofRest_rest u.scheme_ends))

/-- The scheme is what stands before the first colon. -/
theorem scheme_of_prefix {u : Uri} {scheme : List Char} (h : ':' ∉ scheme) (hp : scheme ++ "://".toList <+: u.text) :
    u.scheme = scheme := by
  obtain ⟨rest, hrest⟩ := hp
  have hsplit := split_scheme h rest
  rw [hrest, split_text, Option.some_inj] at hsplit
  exact congrArg Uri.scheme hsplit

end Uri
