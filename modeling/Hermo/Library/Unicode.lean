import Mathlib.Data.List.Basic

/-!
# Grapheme clusters and canonical equivalence

The segmentation rules GB1 to GB999 and the canonical decomposition of the Unicode standard, over the tables of any of
its versions.  A text may be cut in front of a line end (`clusters_append_end`), `\r\n` is one cluster (`clusters_crlf`),
and a cluster is canonically equivalent to a line end only when it is one (`same_cr`, `same_lf`).
-/

namespace Unicode

/-- The property `Grapheme_Cluster_Break`. -/
inductive Break where
  | other
  | cr
  | lf
  | control
  | extend
  | zwj
  | regional
  | prepend
  | spacing
  | l
  | v
  | t
  | lv
  | lvt
  deriving DecidableEq, Repr

/-- The property `Indic_Conjunct_Break`. -/
inductive Conjunct where
  | none
  | consonant
  | linker
  | extend
  deriving DecidableEq, Repr

/-- The tables; `decomposition` is the full one, the character itself where it has none. -/
class Tables where
  breakOf : Char → Break
  pictographic : Char → Bool
  conjunctOf : Char → Conjunct
  decomposition : Char → List Char
  combiningClass : Char → Nat
  breakOf_cr : ∀ c, breakOf c = .cr ↔ c = '\r'
  breakOf_lf : ∀ c, breakOf c = .lf ↔ c = '\n'
  decomposition_ne_nil : ∀ c, decomposition c ≠ []
  decomposition_cr : ∀ c, decomposition c = ['\r'] ↔ c = '\r'
  decomposition_lf : ∀ c, decomposition c = ['\n'] ↔ c = '\n'

open Tables

variable [Tables]

/-! ### Grapheme clusters -/

/-- GB9c, for a cluster given from its end. -/
def joinsConjunct (cluster : List Char) (next : Char) : Bool :=
  let inner := fun c => conjunctOf c == .linker || conjunctOf c == .extend
  conjunctOf next == .consonant && (cluster.takeWhile inner).any (conjunctOf · == .linker) &&
    (cluster.dropWhile inner).head?.any (conjunctOf · == .consonant)

/-- GB11. -/
def joinsEmoji (cluster : List Char) (next : Char) : Bool :=
  pictographic next && cluster.head?.any (breakOf · == .zwj) &&
    (cluster.tail.dropWhile (breakOf · == .extend)).head?.any pictographic

/-- GB12 and GB13: flags are pairs. -/
def joinsRegional (cluster : List Char) (next : Char) : Bool :=
  breakOf next == .regional && (cluster.takeWhile (breakOf · == .regional)).length % 2 == 1

/-- The rules that look at the two characters alone; `none` where they leave it to the others. -/
def joinsPair : Break → Break → Option Bool
  | .cr, .lf => some true
  | .cr, _ | .lf, _ | .control, _ => some false
  | _, .cr | _, .lf | _, .control => some false
  | .l, .l | .l, .v | .l, .lv | .l, .lvt => some true
  | .lv, .v | .lv, .t | .v, .v | .v, .t => some true
  | .lvt, .t | .t, .t => some true
  | _, .extend | _, .zwj | _, .spacing => some true
  | .prepend, _ => some true
  | _, _ => none

/-- No boundary between the cluster, given from its end, and the next character. -/
def joins (cluster : List Char) (next : Char) : Bool :=
  match cluster with
  | [] => true
  | last :: _ =>
    (joinsPair (breakOf last) (breakOf next)).getD
      (joinsConjunct cluster next || joinsEmoji cluster next || joinsRegional cluster next)

/-- The clusters from within one, given from its end. -/
def segment (cluster : List Char) : List Char → List (List Char)
  | [] => [cluster.reverse]
  | c :: rest => if joins cluster c then segment (c :: cluster) rest else cluster.reverse :: segment [c] rest

def clusters : List Char → List (List Char)
  | [] => []
  | c :: rest => segment [c] rest

theorem flatten_segment (cluster text : List Char) : (segment cluster text).flatten = cluster.reverse ++ text := by
  induction text generalizing cluster with
  | nil => rw [segment, List.flatten_singleton, List.append_nil]
  | cons c text ih =>
    rw [segment]
    split
    · rw [ih, List.reverse_cons, List.append_assoc, List.singleton_append]
    · rw [List.flatten_cons, ih, List.reverse_singleton, List.singleton_append]

/-- Nothing is lost. -/
theorem flatten_clusters (text : List Char) : (clusters text).flatten = text := by
  cases text with
  | nil => rfl
  | cons c rest =>
    rw [clusters, flatten_segment, List.reverse_singleton, List.singleton_append]

theorem segment_append {last next : Char} (h : ∀ cluster, joins (last :: cluster) next = false)
    (cluster text rest : List Char) (hlast : (text.reverse ++ cluster).head? = some last) :
    segment cluster (text ++ next :: rest) = segment cluster text ++ clusters (next :: rest) := by
  induction text generalizing cluster with
  | nil =>
    obtain ⟨tail, rfl⟩ := List.head?_eq_some_iff.1 hlast
    have hbreak : segment (last :: tail) (next :: rest) = (last :: tail).reverse :: segment [next] rest := by
      rw [segment, if_neg (Bool.eq_false_iff.1 (h tail))]
    rw [List.nil_append, hbreak]
    rfl
  | cons c text ih =>
    rw [List.cons_append, segment, segment]
    split
    · refine ih (c :: cluster) ?_
      rw [List.reverse_cons, List.append_assoc, List.singleton_append] at hlast
      exact hlast
    · rw [ih [c] ?_, List.cons_append]
      rw [List.reverse_cons] at hlast
      rw [List.head?_append_of_ne_nil _ (by simp)] at hlast
      exact hlast

/-- Where two characters never join, the text may be cut. -/
theorem clusters_append {last next : Char} (h : ∀ cluster, joins (last :: cluster) next = false)
    (text rest : List Char) :
    clusters (text ++ [last] ++ next :: rest) = clusters (text ++ [last]) ++ clusters (next :: rest) := by
  cases text with
  | nil => exact segment_append h [last] [] rest rfl
  | cons c text =>
    refine segment_append h [c] (text ++ [last]) rest ?_
    rw [List.reverse_append]
    rfl

/-! ### Line ends -/

theorem joins_of_pair {last next : Char} {b : Bool} (h : joinsPair (breakOf last) (breakOf next) = some b)
    (cluster : List Char) : joins (last :: cluster) next = b := by
  change (joinsPair (breakOf last) (breakOf next)).getD _ = b
  rw [h, Option.getD_some]

/-- A line end joins nothing that follows, but for the two of `\r\n`. -/
theorem joins_lf (cluster : List Char) (next : Char) : joins ('\n' :: cluster) next = false := by
  refine joins_of_pair ?_ cluster
  rw [(breakOf_lf '\n').2 rfl]
  rfl

theorem joins_cr {next : Char} (h : next ≠ '\n') (cluster : List Char) : joins ('\r' :: cluster) next = false := by
  have hnext : breakOf next ≠ .lf := fun hlf => h ((breakOf_lf next).1 hlf)
  refine joins_of_pair ?_ cluster
  rw [(breakOf_cr '\r').2 rfl]
  cases hbreak : breakOf next with
  | lf => exact absurd hbreak hnext
  | _ => rfl

/-- Nothing joins a line end that follows. -/
theorem joins_before {last next : Char} (hlast : last ≠ '\r') (hnext : next = '\r' ∨ next = '\n')
    (cluster : List Char) : joins (last :: cluster) next = false := by
  have hne : breakOf last ≠ .cr := fun hcr => hlast ((breakOf_cr last).1 hcr)
  refine joins_of_pair ?_ cluster
  rcases hnext with rfl | rfl
  · rw [(breakOf_cr '\r').2 rfl]
    cases breakOf last <;> rfl
  · rw [(breakOf_lf '\n').2 rfl]
    cases hbreak : breakOf last with
    | cr => exact absurd hbreak hne
    | _ => rfl

theorem clusters_single {c : Char} {rest : List Char} (h : ∀ next ∈ rest.head?, joins [c] next = false) :
    clusters (c :: rest) = [c] :: clusters rest := by
  cases rest with
  | nil => rfl
  | cons next rest =>
    change segment [c] (next :: rest) = [c] :: segment [next] rest
    rw [segment, if_neg (Bool.eq_false_iff.1 (h next rfl))]
    rfl

theorem clusters_lf (rest : List Char) : clusters ('\n' :: rest) = ['\n'] :: clusters rest :=
  clusters_single fun next _ => joins_lf [] next

theorem clusters_cr {rest : List Char} (h : rest.head? ≠ some '\n') :
    clusters ('\r' :: rest) = ['\r'] :: clusters rest := by
  refine clusters_single fun next hnext => joins_cr ?_ []
  rintro rfl
  exact h hnext

theorem clusters_crlf (rest : List Char) : clusters ('\r' :: '\n' :: rest) = ['\r', '\n'] :: clusters rest := by
  have hjoin : joins ['\r'] '\n' = true := by
    refine joins_of_pair ?_ []
    rw [(breakOf_cr '\r').2 rfl, (breakOf_lf '\n').2 rfl]
    rfl
  have hfirst : clusters ('\r' :: '\n' :: rest) = segment ['\n', '\r'] rest := by
    change segment ['\r'] ('\n' :: rest) = _
    rw [segment, if_pos hjoin]
  rw [hfirst]
  cases rest with
  | nil => rfl
  | cons next rest =>
    rw [segment, if_neg (Bool.eq_false_iff.1 (joins_lf ['\r'] next))]
    rfl

/-- A text is cut in front of a line end. -/
theorem clusters_append_end {text : List Char} (htext : '\r' ∉ text) {c : Char} (hc : c = '\r' ∨ c = '\n')
    (rest : List Char) : clusters (text ++ c :: rest) = clusters text ++ clusters (c :: rest) := by
  cases hnil : text.reverse with
  | nil =>
    rw [List.reverse_eq_nil_iff.1 hnil]
    rfl
  | cons last front =>
    have hlast : text = front.reverse ++ [last] := by
      rw [← List.reverse_reverse text, hnil, List.reverse_cons]
    subst hlast
    refine clusters_append (joins_before ?_ hc) front.reverse rest
    rintro rfl
    exact htext (List.mem_append_right _ (List.mem_singleton_self _))

/-! ### Canonical equivalence -/

/-- A mark moves behind those of a lower class. -/
def insertMark (c : Char) : List Char → List Char
  | [] => [c]
  | d :: rest =>
    if 0 < combiningClass d ∧ combiningClass d < combiningClass c then d :: insertMark c rest else c :: d :: rest

/-- The canonical ordering. -/
def reorder : List Char → List Char
  | [] => []
  | c :: rest => insertMark c (reorder rest)

def decompose (text : List Char) : List Char := reorder (text.flatMap decomposition)

/-- Canonical equivalence. -/
def Same (text text' : List Char) : Prop := decompose text = decompose text'

instance (text text' : List Char) : Decidable (Same text text') :=
  inferInstanceAs (Decidable (decompose text = decompose text'))

theorem length_insertMark (c : Char) (text : List Char) : (insertMark c text).length = text.length + 1 := by
  induction text with
  | nil => rfl
  | cons d rest ih =>
    unfold insertMark
    split
    · rw [List.length_cons, ih, List.length_cons]
    · rfl

theorem length_reorder (text : List Char) : (reorder text).length = text.length := by
  induction text with
  | nil => rfl
  | cons c rest ih => rw [reorder, length_insertMark, ih, List.length_cons]

theorem length_le_decompose (text : List Char) : text.length ≤ (decompose text).length := by
  unfold decompose
  rw [length_reorder]
  induction text with
  | nil => exact Nat.le_refl _
  | cons c rest ih =>
    have hpos := List.length_pos_iff.2 (decomposition_ne_nil c)
    rw [List.flatMap_cons, List.length_append, List.length_cons]
    omega

/-- Only the empty text is equivalent to it. -/
theorem same_nil {text : List Char} : Same text [] ↔ text = [] := by
  constructor
  · intro h
    have hle := length_le_decompose text
    rw [h] at hle
    exact List.length_eq_zero_iff.1 (Nat.le_zero.1 hle)
  · rintro rfl
    rfl

/-- Equivalent to a character without a decomposition are the characters that decompose to it. -/
theorem same_singleton_iff {d : Char} (h : decomposition d = [d]) {text : List Char} :
    Same text [d] ↔ ∃ c, text = [c] ∧ decomposition c = [d] := by
  have hself : decompose [d] = [d] := by
    unfold decompose
    rw [List.flatMap_singleton, h]
    rfl
  constructor
  · intro hsame
    have hle := length_le_decompose text
    have hdecompose : decompose text = [d] := Eq.trans hsame hself
    rw [hdecompose, List.length_singleton] at hle
    cases text with
    | nil => cases hdecompose
    | cons c rest =>
      have hrest : rest = [] := List.length_eq_zero_iff.1 (Nat.le_zero.1 (Nat.le_of_succ_le_succ hle))
      subst hrest
      unfold decompose at hdecompose
      rw [List.flatMap_singleton] at hdecompose
      have hlength := length_reorder (decomposition c)
      rw [hdecompose] at hlength
      obtain ⟨e, he⟩ := List.length_eq_one_iff.1 hlength.symm
      rw [he] at hdecompose
      exact ⟨c, rfl, he.trans hdecompose⟩
  · rintro ⟨c, rfl, hc⟩
    refine Eq.trans ?_ hself.symm
    unfold decompose
    rw [List.flatMap_singleton, hc]
    rfl

/-- A character that no other decomposes to is equivalent to nothing else. -/
theorem same_singleton {d : Char} (h : ∀ c, decomposition c = [d] ↔ c = d) {text : List Char} :
    Same text [d] ↔ text = [d] := by
  rw [same_singleton_iff ((h d).2 rfl)]
  constructor
  · rintro ⟨c, rfl, hc⟩
    rw [(h c).1 hc]
  · intro htext
    exact ⟨d, htext, (h d).2 rfl⟩

/-- The tables on the line ends and on what the acute and the grave accent are part of. -/
@[reducible] def latin : Tables where
  breakOf c :=
    if c = '\r' then .cr else if c = '\n' then .lf else if c.toNat < 0x20 then .control
    else if c = '\u0301' then .extend else .other
  pictographic _ := false
  conjunctOf c := if c = '\u0301' then .extend else .none
  decomposition c :=
    if c = 'é' then ['e', '\u0301'] else if c = 'ń' then ['n', '\u0301'] else if c = '\u1FEF' then ['\x60'] else [c]
  combiningClass c := if c = '\u0301' then 230 else 0
  breakOf_cr c := by
    constructor
    · intro h
      split at h
      · assumption
      · split at h
        · cases h
        · split at h
          · cases h
          · split at h <;> cases h
    · rintro rfl
      rfl
  breakOf_lf c := by
    constructor
    · intro h
      split at h
      · cases h
      · split at h
        · assumption
        · split at h
          · cases h
          · split at h <;> cases h
    · rintro rfl
      rfl
  decomposition_ne_nil c := by
    split
    · nofun
    · split
      · nofun
      · split <;> nofun
  decomposition_cr c := by
    constructor
    · intro h
      split at h
      · cases h
      · split at h
        · cases h
        · split at h
          · cases h
          · exact List.singleton_inj.1 h
    · rintro rfl
      rfl
  decomposition_lf c := by
    constructor
    · intro h
      split at h
      · cases h
      · split at h
        · cases h
        · split at h
          · cases h
          · exact List.singleton_inj.1 h
    · rintro rfl
      rfl

theorem same_cr {text : List Char} : Same text ['\r'] ↔ text = ['\r'] := same_singleton decomposition_cr

theorem same_lf {text : List Char} : Same text ['\n'] ↔ text = ['\n'] := same_singleton decomposition_lf

end Unicode
