import Hermo.App.MarkdownIos

/-!
# The open flag

Which blocks end as plain text, as a closed fence, and as one that is still open (`endings`).  The core's flag of a fence
says so; the apps finish a block before they take the flag back, so theirs does only where no fence is closed
(`open_flags`).
-/

namespace Hermo.Markdown

/-- How a block ends. -/
inductive Ending where
  | plain
  | closed
  | unterminated
  deriving DecidableEq, Repr

/-- The block at hand, when a mark ends it; `some true` is a fence. -/
def cut : Option Bool → List Ending
  | none => []
  | some isFence => [if isFence then .closed else .plain]

/-- The block at hand, when the text ends. -/
def left : Option Bool → List Ending
  | none => []
  | some isFence => [if isFence then .unterminated else .plain]

/-- How the blocks end, from the one at hand on. -/
def endings (current : Option Bool) : List Mark → List Ending
  | [] => left current
  | .opens _ :: marks => cut current ++ endings (some true) marks
  | .closes :: marks => cut current ++ endings none marks
  | .content _ :: marks => endings (some (current.getD false)) marks

/-- Only the last block is unterminated. -/
theorem unterminated_last (current : Option Bool) (marks : List Mark) {i : Nat}
    (h : (endings current marks)[i]? = some .unterminated) : i + 1 = (endings current marks).length := by
  have hcut (current : Option Bool) : Ending.unterminated ∉ cut current := by
    cases current with
    | none => exact List.not_mem_nil
    | some fence => cases fence <;> decide
  have happend {current : Option Bool} {rest : List Ending} {i : Nat}
      (ih : ∀ {i : Nat}, rest[i]? = some .unterminated → i + 1 = rest.length)
      (h : (cut current ++ rest)[i]? = some .unterminated) : i + 1 = (cut current ++ rest).length := by
    by_cases hi : i < (cut current).length
    · rw [List.getElem?_append_left hi] at h
      exact absurd (List.mem_of_getElem? h) (hcut current)
    · rw [List.getElem?_append_right (Nat.le_of_not_lt hi)] at h
      have hlast := ih h
      rw [List.length_append]
      omega
  induction marks generalizing current i with
  | nil =>
    cases current with
    | none => cases h
    | some isFence =>
      have hlt := (List.getElem?_eq_some_iff.1 h).1
      have hone : (endings (some isFence) []).length = 1 := rfl
      omega
  | cons m marks ih =>
    cases m with
    | opens language =>
      rw [endings] at h ⊢
      exact happend (fun h => ih _ h) h
    | closes =>
      rw [endings] at h ⊢
      exact happend (fun h => ih _ h) h
    | content line =>
      rw [endings] at h ⊢
      exact ih _ h

/-! ### Readers -/

/-- A fence is opened outside of one, and closed inside. -/
structure Reader.Lawful (read : Reader) : Prop where
  opens {fence fence' : Fence} {line language : String} (h : read fence line = .opens language fence') :
    fence = {} ∧ fence' ≠ {}
  closes {fence : Fence} {line : String} (h : read fence line = .closes) : fence ≠ {}

/-- The block at hand is a fence within a fence. -/
def Within (fence : Fence) (current : Option Bool) : Prop := fence ≠ {} ↔ current = some true

theorem within_outside : Within {} none := iff_of_false (fun h => h rfl) nofun

theorem within_content {fence : Fence} {current : Option Bool} (h : Within fence current) :
    Within fence (some (current.getD false)) := by
  unfold Within at h ⊢
  rw [h]
  cases current with
  | none => decide
  | some fence => exact Iff.rfl

theorem closed_mem_endings {read : Reader} (hread : read.Lawful) {fence : Fence} {current : Option Bool}
    (h : Within fence current) (lines : List String) :
    .closed ∈ endings current (marksBy read fence lines) ↔ .closes ∈ marksBy read fence lines := by
  induction lines generalizing fence current with
  | nil =>
    have hleft : Ending.closed ∉ left current := by
      cases current with
      | none => exact List.not_mem_nil
      | some isFence => cases isFence <;> decide
    exact iff_of_false hleft List.not_mem_nil
  | cons line lines ih =>
    cases hline : read fence line with
    | opens language fence' =>
      obtain ⟨houtside, hinside⟩ := hread.opens hline
      have hcut : Ending.closed ∉ cut current := by
        cases current with
        | none => exact List.not_mem_nil
        | some isFence =>
          cases isFence with
          | false => decide
          | true => exact absurd houtside (h.2 rfl)
      rw [marksBy_opens hline, endings, List.mem_append, or_iff_right hcut,
        ih (iff_of_true hinside rfl), List.mem_cons, or_iff_right nofun]
    | closes =>
      have hcurrent := h.1 (hread.closes hline)
      rw [marksBy_closes hline, endings, hcurrent]
      exact iff_of_true List.mem_cons_self List.mem_cons_self
    | content =>
      rw [marksBy_content hline, endings, ih (within_content h), List.mem_cons, or_iff_right nofun]

theorem lawful_apply {marker : String → Option (Nat × Bool)} {language : String → Nat → String}
    (h : ∀ line m, marker line = some m → minFence ≤ m.1) :
    Reader.Lawful fun fence line => fence.apply (marker line) (language line) where
  opens := by
    intro fence fence' line opened hread
    obtain ⟨houtside, len, isTick, hmarker, -, rfl⟩ := Fence.apply_opens hread
    have hlen : 3 ≤ len := h line (len, isTick) hmarker
    refine ⟨houtside, ?_⟩
    cases isTick with
    | true =>
      rintro ⟨⟩
      omega
    | false =>
      rintro ⟨⟩
      omega
  closes := by
    intro fence line hread
    exact (Fence.apply_closes hread).1

theorem lawful_white (white : Char → Bool) : Reader.Lawful (·.read white) :=
  lawful_apply fun _ _ hmarker => fenceMarker_min hmarker

theorem lawful_ios [Unicode.Tables] : Reader.Lawful Ios.read :=
  lawful_apply fun _ _ hmarker => Ios.fenceMarker_min hmarker

/-! ### The apps -/

/-- The kind and the flag of a block. -/
def Android.Block.flags (b : Block) : Bool × Bool := (b.isFence, b.isOpen)

/-- Every fence has the flag. -/
def Ending.raised (e : Ending) : Bool × Bool := (e != .plain, e != .plain)

theorem flags_blocks (read : Reader) {s : Android.Splitter} (h : s.current.isSome → s.isOpen = s.currentIsFence)
    (lines : List String) :
    (s.blocksBy read lines).map Android.Block.flags = s.blocks.map Android.Block.flags ++
      (endings (s.current.map fun _ => s.currentIsFence) (marksBy read s.fence lines)).map Ending.raised := by
  have hpending {s : Android.Splitter} (h : s.isOpen = s.currentIsFence) (text : String) {e : Ending}
      (he : (e != .plain) = s.currentIsFence) : (s.pending text).flags = e.raised := by
    unfold Android.Splitter.pending Android.Block.flags Ending.raised
    rw [h, he, Bool.and_self]
  have hflush {s : Android.Splitter} (h : s.current.isSome → s.isOpen = s.currentIsFence) :
      s.flush.blocks.map Android.Block.flags = s.blocks.map Android.Block.flags ++
          (cut (s.current.map fun _ => s.currentIsFence)).map Ending.raised ∧
        s.flush.blocks.map Android.Block.flags = s.blocks.map Android.Block.flags ++
          (left (s.current.map fun _ => s.currentIsFence)).map Ending.raised := by
    cases hcurrent : s.current with
    | none =>
      unfold Android.Splitter.flush
      rw [hcurrent]
      exact ⟨List.map_append, List.map_append⟩
    | some text =>
      have hopen := h (by rw [hcurrent]; rfl)
      rw [Android.Splitter.flush_some hcurrent, List.map_append]
      constructor
      · refine congrArg (_ ++ [·]) (hpending hopen text ?_)
        cases s.currentIsFence <;> rfl
      · refine congrArg (_ ++ [·]) (hpending hopen text ?_)
        cases s.currentIsFence <;> rfl
  induction lines generalizing s with
  | nil => exact (hflush h).2
  | cons line lines ih =>
    rw [Android.Splitter.blocksBy_cons]
    cases hread : read s.fence line with
    | opens language fence =>
      rw [marksBy_opens hread, endings, List.map_append, ← List.append_assoc, ← (hflush h).1]
      exact ih fun _ => rfl
    | closes =>
      rw [marksBy_closes hread, endings, List.map_append, ← List.append_assoc, ← (hflush h).1]
      exact ih nofun
    | content =>
      rw [marksBy_content hread, endings]
      cases hcurrent : s.current with
      | none =>
        rw [Android.Splitter.take_content_none hcurrent]
        exact ih fun _ => rfl
      | some text =>
        rw [Android.Splitter.take_content_some hcurrent]
        exact ih fun _ => h (by rw [hcurrent]; rfl)

/-! ### The flags of a text -/

/-- The flag of each block says that it is a fence that was not closed. -/
structure Flagged (blocks : List Android.Block) (endings : List Ending) : Prop where
  kinds : blocks.map (·.isFence) = endings.map (· != .plain)
  flags : blocks.map (·.isOpen) = endings.map (· == .unterminated)
  last : ∀ i b, blocks[i]? = some b → b.isOpen = true → i + 1 = blocks.length

/-- The marks that a splitter makes of a text. -/
def textMarks (read : Reader) (lines : String → List String) (text : String) : List Mark :=
  if text = "" then [] else marksBy read {} (lines text)

def Android.textMarks (text : String) : List Mark := Markdown.textMarks (·.read isWhitespace) lines text

def Ios.textMarks [Unicode.Tables] (text : String) : List Mark := Markdown.textMarks read lines text

theorem flagged_of_flags {blocks : List Android.Block} {current : Option Bool} {marks : List Mark}
    (hkinds : blocks.map (·.isFence) = (endings current marks).map (· != .plain))
    (hflags : blocks.map (·.isOpen) = (endings current marks).map (· == .unterminated)) :
    Flagged blocks (endings current marks) where
  kinds := hkinds
  flags := hflags
  last := by
    intro i b hb hopen
    have hlength : blocks.length = (endings current marks).length := by simpa using congrArg List.length hflags
    have hget : (blocks.map (·.isOpen))[i]? = some true := by rw [List.getElem?_map, hb, Option.map_some, hopen]
    rw [hflags, List.getElem?_map] at hget
    obtain ⟨e, he, hunterminated⟩ := Option.map_eq_some_iff.1 hget
    rw [beq_iff_eq] at hunterminated
    subst hunterminated
    rw [hlength]
    exact unterminated_last current marks he

/-- A fence that is closed is flagged nevertheless. -/
theorem flagged_blocksBy {read : Reader} (hread : read.Lawful) (lines : List String) :
    Flagged (Android.Splitter.blocksBy read {} lines) (endings none (marksBy read {} lines)) ↔
      .closes ∉ marksBy read {} lines := by
  have hblocks := flags_blocks read (s := {}) nofun lines
  have hkinds := congrArg (List.map Prod.fst) hblocks
  have hflags := congrArg (List.map Prod.snd) hblocks
  simp only [List.map_map, List.map_nil, List.nil_append] at hkinds hflags
  have hclosed : .closed ∈ endings none (marksBy read {} lines) ↔ .closes ∈ marksBy read {} lines :=
    closed_mem_endings hread within_outside lines
  have hagree (e : Ending) : e.raised.2 = (e == .unterminated) ↔ e ≠ .closed := by cases e <;> decide
  rw [← hclosed]
  constructor
  · intro h hmem
    have heq := hflags.symm.trans h.flags
    exact (hagree .closed).1 (List.map_inj_left.1 heq .closed hmem) rfl
  · intro h
    refine flagged_of_flags hkinds (hflags.trans (List.map_inj_left.2 fun e he => ?_))
    exact (hagree e).2 fun hclosed => h (hclosed ▸ he)

theorem flagged_textMarks {read : Reader} (hread : read.Lawful) {lines : String → List String} {text : String}
    {blocks : List Android.Block}
    (h : blocks = if text = "" then [] else Android.Splitter.blocksBy read {} (lines text)) :
    Flagged blocks (endings none (textMarks read lines text)) ↔ .closes ∉ textMarks read lines text := by
  unfold textMarks
  by_cases htext : text = ""
  · rw [if_pos htext] at h ⊢
    rw [h]
    exact iff_of_true (flagged_of_flags rfl rfl) List.not_mem_nil
  · rw [if_neg htext] at h ⊢
    rw [h]
    exact flagged_blocksBy hread (lines text)

/-! ### The core -/

/-- Plain text is open, and so is a fence until it is closed. -/
theorem open_cut {current : Option Bool} (h : current ≠ some true) :
    (cut current).map (· != .closed) = (current.map fun _ => true).toList := by
  cases current with
  | none => rfl
  | some isFence =>
    cases isFence with
    | false => rfl
    | true => exact absurd rfl h

theorem open_left (current : Option Bool) : (left current).map (· != .closed) = (current.map fun _ => true).toList := by
  cases current with
  | none => rfl
  | some isFence => cases isFence <;> rfl

/-- The core closes a block before it pushes it. -/
theorem isOpen_run {s : Splitter} {current : Option Bool}
    (hopen : s.current.map (·.isOpen) = current.map fun _ => true) (h : Within s.fence current) (lines : List String) :
    (lines.foldl Splitter.step s).finish.map (·.isOpen) =
      s.blocks.map (·.isOpen) ++ (endings current (marks isWhiteSpace s.fence lines)).map (· != .closed) := by
  have hread : Reader.Lawful (·.read isWhiteSpace) := lawful_white isWhiteSpace
  have hlist {s : Splitter} {current : Option Bool} (hopen : s.current.map (·.isOpen) = current.map fun _ => true) :
      s.current.toList.map (·.isOpen) = (current.map fun _ => true).toList := by
    rw [← hopen, Option.toList_map]
  induction lines generalizing s current with
  | nil =>
    change (s.blocks ++ s.current.toList).map (·.isOpen) = _
    rw [List.map_append, hlist hopen, ← open_left]
    rfl
  | cons line lines ih =>
    rw [List.foldl_cons]
    cases hline : s.fence.read isWhiteSpace line with
    | opens language fence =>
      obtain ⟨houtside, hinside⟩ := hread.opens hline
      have hcut := open_cut fun htrue => h.2 htrue houtside
      rw [Splitter.step_opens hline, marks_opens hline, endings, List.map_append, ← List.append_assoc, hcut,
        ← hlist hopen, ← List.map_append]
      exact ih rfl (iff_of_true hinside rfl)
    | closes =>
      have hfence := h.1 (hread.closes hline)
      subst hfence
      obtain ⟨b, hb, -⟩ := Option.map_eq_some_iff.1 hopen
      let closed : MarkdownBlock := { b with isOpen := false }
      have hclosed : (s.blocks ++ [closed]).map (·.isOpen) =
          s.blocks.map (·.isOpen) ++ (cut (some true)).map (· != .closed) := List.map_append
      rw [Splitter.step_closes hline, marks_closes hline, endings, List.map_append, ← List.append_assoc, hb, ← hclosed]
      exact ih rfl within_outside
    | content =>
      rw [Splitter.step_content hline, marks_content hline, endings]
      refine ih ?_ (within_content h)
      cases hs : s.current with
      | none => rfl
      | some b =>
        have hb : b.isOpen = true := by
          have hmem : b.isOpen ∈ (current.map fun _ => true).toList := by
            rw [← hlist hopen, hs]
            exact List.mem_cons_self
          obtain ⟨x, -, hx⟩ := Option.map_eq_some_iff.1 (Option.mem_toList.1 hmem)
          exact hx.symm
        exact congrArg some hb

/-- The flag of a block says that it is a fence without its closing line exactly in the texts where no line closes one;
for the fences of the core it always does. -/
theorem open_flags [Unicode.Tables] (text : String) :
    (Flagged (Android.split text) (endings none (Android.textMarks text)) ↔ .closes ∉ Android.textMarks text) ∧
      (Flagged (Ios.split text) (endings none (Ios.textMarks text)) ↔ .closes ∉ Ios.textMarks text) ∧
        (splitBlocks text).map (·.isOpen) =
          (endings none (marks isWhiteSpace {} (lines text))).map (· != .closed) := by
  refine ⟨flagged_textMarks (lawful_white _) ?_, flagged_textMarks lawful_ios ?_, ?_⟩
  · split
    · rename_i htext
      exact if_pos htext
    · rename_i htext
      exact Android.split_eq htext
  · split
    · rename_i htext
      exact if_pos htext
    · rename_i htext
      exact Ios.split_eq htext
  · exact isOpen_run (s := {}) rfl within_outside (lines text)

section

attribute [local instance] Unicode.latin

/-- A closed fence in front of a line of text. -/
theorem closed_flagged :
    let text := "\x60\x60\x60\nx\n\x60\x60\x60\ny"
    (Android.split text).map (·.isOpen) = [true, false] ∧ endings none (Android.textMarks text) = [.closed, .plain] ∧
      ¬ Flagged (Android.split text) (endings none (Android.textMarks text)) ∧
        (Ios.split text).map (·.isOpen) = [true, false] ∧ endings none (Ios.textMarks text) = [.closed, .plain] ∧
          ¬ Flagged (Ios.split text) (endings none (Ios.textMarks text)) := by
  intro text
  have hsplit : (Android.split text).map (·.isOpen) = [true, false] := by decide +kernel
  have hends : endings none (Android.textMarks text) = [.closed, .plain] := by decide +kernel
  have hsplit' : (Ios.split text).map (·.isOpen) = [true, false] := by decide +kernel
  have hends' : endings none (Ios.textMarks text) = [.closed, .plain] := by decide +kernel
  refine ⟨hsplit, hends, ?_, hsplit', hends', ?_⟩
  · intro h
    have hflags := h.flags
    rw [hsplit, hends] at hflags
    exact absurd hflags (by decide)
  · intro h
    have hflags := h.flags
    rw [hsplit', hends'] at hflags
    exact absurd hflags (by decide)

end

end Hermo.Markdown
