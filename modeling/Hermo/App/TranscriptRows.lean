import Hermo.Library.Unicode

/-!
# The rows parsed so far

`TranscriptRows.of` parses a row only when its text is not the one it had at the call before.  Kotlin compares texts
character by character, and before that the lists by reference; for Swift a text is the same when it is canonically
equivalent.  A row is whatever `parseChatRow` returns, which it does for every text.
-/

namespace Hermo

variable {ChatRow : Type} (parseChatRow : Nat → String → ChatRow)

/-- The entry of a row; the empty texts pad a gap. -/
def parseEntry (index : Nat) (json : String) : Option ChatRow :=
  if json = "" then none else some (parseChatRow index json)

/-- All entries, without a row of the call before. -/
def parseEntries (raw : List String) : List (Option ChatRow) :=
  raw.zipIdx.map fun (json, index) => parseEntry parseChatRow index json

/-- The rows of a list that was never seen before. -/
def freshRows (raw : List String) : List ChatRow := (parseEntries parseChatRow raw).filterMap id

/-- The loop over a list, for a comparison of texts; the entries are as many as the texts they come from. -/
def reparse (same : String → String → Bool) (lastRaw : List String) (lastParsed : List (Option ChatRow))
    (raw : List String) : List (Option ChatRow) :=
  raw.zipIdx.map fun (json, index) =>
    if lastRaw[index]?.any fun last => same last json then lastParsed[index]?.join
    else parseEntry parseChatRow index json

/-! ### The app of Android -/

namespace Android

/-- The list objects, by reference; nothing writes to one that was passed on. -/
structure Lists where
  items : Nat → List String
  /-- `emptyList()` -/
  items_zero : items 0 = []

structure TranscriptRows (ChatRow : Type) where
  lastRaw : Nat := 0
  lastParsed : List (Option ChatRow) := []
  lastVisible : List ChatRow := []

def TranscriptRows.of (lists : Lists) (s : TranscriptRows ChatRow) (raw : Nat) :
    TranscriptRows ChatRow × List ChatRow :=
  if raw = s.lastRaw then (s, s.lastVisible)
  else
    let parsed := reparse parseChatRow (· == ·) (lists.items s.lastRaw) s.lastParsed (lists.items raw)
    let visible := parsed.filterMap id
    (⟨raw, parsed, visible⟩, visible)

/-- What the calls return, one after the other. -/
def TranscriptRows.results (lists : Lists) (s : TranscriptRows ChatRow) : List Nat → List (List ChatRow)
  | [] => []
  | raw :: calls => (s.of parseChatRow lists raw).2 :: (s.of parseChatRow lists raw).1.results lists calls

end Android

/-! ### The app of iOS -/

namespace Ios

variable [Unicode.Tables]

/-- `==` of two strings. -/
def equal (text text' : String) : Bool := decide (Unicode.Same text.toList text'.toList)

structure TranscriptRows (ChatRow : Type) where
  lastRaw : List String := []
  lastParsed : List (Option ChatRow) := []

def TranscriptRows.of (s : TranscriptRows ChatRow) (raw : List String) : TranscriptRows ChatRow × List ChatRow :=
  let parsed := reparse parseChatRow equal s.lastRaw s.lastParsed raw
  (⟨raw, parsed⟩, parsed.filterMap id)

def TranscriptRows.results (s : TranscriptRows ChatRow) : List (List String) → List (List ChatRow)
  | [] => []
  | raw :: calls => (s.of parseChatRow raw).2 :: (s.of parseChatRow raw).1.results calls

end Ios

/-! ### The entries kept -/

section

variable {parseChatRow : Nat → String → ChatRow} {same : String → String → Bool} {lastRaw raw : List String}

theorem parseEntries_getElem (raw : List String) (i : Nat) :
    (parseEntries parseChatRow raw)[i]? = raw[i]?.map (parseEntry parseChatRow i) := by
  unfold parseEntries
  rw [List.getElem?_map, List.getElem?_zipIdx, Option.map_map, Nat.zero_add]
  rfl

/-- An entry of the loop: that of the call before where the texts count as the same. -/
theorem reparse_getElem (i : Nat) :
    (reparse parseChatRow same lastRaw (parseEntries parseChatRow lastRaw) raw)[i]? = raw[i]?.map fun json =>
      parseEntry parseChatRow i ((lastRaw[i]?.filter fun last => same last json).getD json) := by
  unfold reparse
  rw [List.getElem?_map, List.getElem?_zipIdx, Option.map_map, Nat.zero_add]
  congr 1
  funext json
  dsimp only [Function.comp]
  rw [parseEntries_getElem]
  cases lastRaw[i]? with
  | none => rfl
  | some last =>
    rw [Option.any_some, Option.filter_some, Option.map_some]
    split <;> rfl

theorem reparse_eq_iff :
    reparse parseChatRow same lastRaw (parseEntries parseChatRow lastRaw) raw = parseEntries parseChatRow raw ↔
      ∀ i last json, lastRaw[i]? = some last → raw[i]? = some json → same last json = true →
        parseEntry parseChatRow i last = parseEntry parseChatRow i json := by
  constructor
  · intro heq i last json hlast hjson hsame
    have hentry := congrArg (·[i]?) heq
    rw [reparse_getElem, parseEntries_getElem, hjson, hlast, Option.map_some, Option.filter_some,
      if_pos hsame] at hentry
    exact Option.some_inj.1 hentry
  · intro h
    refine List.ext_getElem? fun i => ?_
    rw [reparse_getElem, parseEntries_getElem]
    cases hjson : raw[i]? with
    | none => rfl
    | some json =>
      cases hlast : lastRaw[i]? with
      | none => rfl
      | some last =>
        rw [Option.map_some, Option.map_some, Option.filter_some]
        split
        · rename_i hsame
          exact congrArg some (h i last json hlast hjson hsame)
        · rfl

end

/-- Lists of entries with their gaps in the same places are told apart by what is in between. -/
theorem filterMap_id_inj {α : Type} {xs ys : List (Option α)} (hgaps : xs.map Option.isNone = ys.map Option.isNone)
    (h : xs.filterMap id = ys.filterMap id) : xs = ys := by
  induction xs generalizing ys with
  | nil => exact (List.map_eq_nil_iff.1 hgaps.symm).symm
  | cons x xs ih =>
    cases ys with
    | nil => cases hgaps
    | cons y ys =>
      rw [List.map_cons, List.map_cons, List.cons.injEq] at hgaps
      cases x with
      | none =>
        have hy : y = none := Option.isNone_iff_eq_none.1 hgaps.1.symm
        subst hy
        exact congrArg (none :: ·) (ih hgaps.2 h)
      | some a =>
        cases y with
        | none => cases hgaps.1
        | some b =>
          have hcons : a :: xs.filterMap id = b :: ys.filterMap id := h
          rw [List.cons.injEq] at hcons
          rw [hcons.1, ih hgaps.2 hcons.2]

/-! ### Android -/

namespace Android

/-- What is kept belongs to the last list. -/
structure TranscriptRows.Current (lists : Lists) (s : TranscriptRows ChatRow) : Prop where
  parsed : s.lastParsed = parseEntries parseChatRow (lists.items s.lastRaw)
  visible : s.lastVisible = freshRows parseChatRow (lists.items s.lastRaw)

variable {parseChatRow} {lists : Lists} {s : TranscriptRows ChatRow}

theorem TranscriptRows.Current.of (h : s.Current parseChatRow lists) (raw : Nat) :
    (s.of parseChatRow lists raw).1.Current parseChatRow lists ∧
      (s.of parseChatRow lists raw).2 = freshRows parseChatRow (lists.items raw) := by
  unfold TranscriptRows.of
  split
  · rename_i hsame
    rw [hsame]
    exact ⟨h, h.visible⟩
  · have hparsed : reparse parseChatRow (· == ·) (lists.items s.lastRaw) s.lastParsed (lists.items raw) =
        parseEntries parseChatRow (lists.items raw) := by
      rw [h.parsed, reparse_eq_iff]
      intro i last json _ _ hsame
      rw [beq_iff_eq.1 hsame]
    exact ⟨⟨hparsed, congrArg (List.filterMap id) hparsed⟩, congrArg (List.filterMap id) hparsed⟩

theorem TranscriptRows.Current.results (h : s.Current parseChatRow lists) (calls : List Nat) :
    s.results parseChatRow lists calls = calls.map fun raw => freshRows parseChatRow (lists.items raw) := by
  induction calls generalizing s with
  | nil => rfl
  | cons raw calls ih =>
    obtain ⟨hcurrent, hresult⟩ := h.of raw
    rw [TranscriptRows.results, hresult, ih hcurrent]
    rfl

end Android

/-! ### iOS -/

namespace Ios

variable [Unicode.Tables]

/-- A text that takes the place of one that is the same to Swift parses to the same row. -/
def Unmistaken (lastRaw raw : List String) : Prop :=
  ∀ (i : Nat) (last json : String), lastRaw[i]? = some last → raw[i]? = some json → equal last json = true →
    parseChatRow i last = parseChatRow i json

/-- So at every call. -/
def UnmistakenRun : List String → List (List String) → Prop
  | _, [] => True
  | lastRaw, raw :: calls => Unmistaken parseChatRow lastRaw raw ∧ UnmistakenRun raw calls

theorem empty_of_equal {last json : String} (h : equal last json = true) : last = "" ↔ json = "" := by
  have hsame : Unicode.Same last.toList json.toList := of_decide_eq_true h
  rw [← String.toList_eq_nil_iff, ← String.toList_eq_nil_iff]
  constructor
  · intro hlast
    rw [hlast] at hsame
    exact Unicode.same_nil.1 (Eq.symm hsame)
  · intro hjson
    rw [hjson] at hsame
    exact Unicode.same_nil.1 hsame

variable {parseChatRow}

theorem unmistaken_iff {lastRaw raw : List String} :
    Unmistaken parseChatRow lastRaw raw ↔
      reparse parseChatRow equal lastRaw (parseEntries parseChatRow lastRaw) raw = parseEntries parseChatRow raw := by
  rw [reparse_eq_iff]
  refine forall₅_congr fun i last json _ _ => forall_congr' fun hequal => ?_
  have hempty := empty_of_equal hequal
  unfold parseEntry
  by_cases hjson : json = ""
  · rw [if_pos hjson, if_pos (hempty.2 hjson), hjson, hempty.2 hjson]
    exact iff_of_true rfl rfl
  · rw [if_neg hjson, if_neg (mt hempty.1 hjson)]
    exact Option.some_inj.symm

/-- The gaps are where the texts are empty, whatever is kept. -/
theorem gaps_reparse (lastRaw raw : List String) :
    (reparse parseChatRow equal lastRaw (parseEntries parseChatRow lastRaw) raw).map Option.isNone =
      (parseEntries parseChatRow raw).map Option.isNone := by
  have hgap : ∀ (i : Nat) (json : String), (parseEntry parseChatRow i json).isNone = decide (json = "") := by
    intro i json
    unfold parseEntry
    split
    · rename_i hjson
      exact (decide_eq_true hjson).symm
    · rename_i hjson
      exact (decide_eq_false hjson).symm
  refine List.ext_getElem? fun i => ?_
  rw [List.getElem?_map, List.getElem?_map, reparse_getElem, parseEntries_getElem, Option.map_map, Option.map_map]
  congr 1
  funext json
  dsimp only [Function.comp]
  rw [hgap, hgap]
  cases lastRaw[i]? with
  | none => rfl
  | some last =>
    rw [Option.filter_some]
    split
    · rename_i hequal
      exact decide_eq_decide.2 (empty_of_equal hequal)
    · rfl

theorem results_iff (lastRaw : List String) (calls : List (List String)) :
    TranscriptRows.results parseChatRow ⟨lastRaw, parseEntries parseChatRow lastRaw⟩ calls =
        calls.map (freshRows parseChatRow) ↔ UnmistakenRun parseChatRow lastRaw calls := by
  induction calls generalizing lastRaw with
  | nil => exact iff_of_true rfl trivial
  | cons raw calls ih =>
    rw [TranscriptRows.results, List.map_cons, List.cons.injEq, UnmistakenRun, unmistaken_iff]
    unfold TranscriptRows.of
    dsimp only
    constructor
    · rintro ⟨hresult, hrest⟩
      have hparsed := filterMap_id_inj (gaps_reparse lastRaw raw) hresult
      rw [hparsed] at hrest
      exact ⟨hparsed, (ih raw).1 hrest⟩
    · rintro ⟨hparsed, hrest⟩
      rw [hparsed]
      exact ⟨rfl, (ih raw).2 hrest⟩

end Ios

/-- On Android every call returns what parsing its list afresh would; on iOS, where a text that replaces an equivalent
one parses to the same row. -/
theorem rows_of (parseChatRow : Nat → String → ChatRow) [Unicode.Tables] :
    (∀ (lists : Android.Lists) (calls : List Nat), Android.TranscriptRows.results parseChatRow lists {} calls =
        calls.map fun raw => freshRows parseChatRow (lists.items raw)) ∧
      ∀ calls : List (List String), Ios.TranscriptRows.results parseChatRow {} calls =
        calls.map (freshRows parseChatRow) ↔ Ios.UnmistakenRun parseChatRow [] calls := by
  refine ⟨fun lists calls => ?_, fun calls => Ios.results_iff [] calls⟩
  refine Android.TranscriptRows.Current.results ⟨?_, ?_⟩ calls
  · change [] = parseEntries parseChatRow (lists.items 0)
    rw [lists.items_zero]
    rfl
  · change [] = freshRows parseChatRow (lists.items 0)
    rw [lists.items_zero]
    rfl

section

attribute [local instance] Unicode.latin

/-- Behind a backslash, `n` and a combining accent are an escape and a character, `ń` is neither: `parseChatRow` makes
a user row of the first text, and an unknown one of the second. -/
theorem accent_is_kept :
    let escaped := "\x7b\"kind\":\"user\",\"text\":\"\\n\u0301\"\x7d"
    let broken := "\x7b\"kind\":\"user\",\"text\":\"\\ń\"\x7d"
    let parse : Nat → String → String × Nat × String :=
      fun i json => if json = escaped then ("user", i, "\n\u0301") else ("unknown", i, "")
    Ios.TranscriptRows.results parse {} [[escaped], [broken]] =
        [[("user", 0, "\n\u0301")], [("user", 0, "\n\u0301")]] ∧
      [[escaped], [broken]].map (freshRows parse) = [[("user", 0, "\n\u0301")], [("unknown", 0, "")]] := by
  decide

end

end Hermo
