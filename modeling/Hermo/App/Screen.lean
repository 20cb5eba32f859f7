import Mathlib.Data.List.Find
import Mathlib.Data.List.Infix
import Hermo.App.ClarifyQuestions
import Hermo.App.PlainJson
import Hermo.App.TranscriptRows

/-!
# From the core to the screen

A row of the core goes through `row_json`, the sink, `parseChatRow` and, for a clarify card, `parseClarifyQuestions`
before an app shows it.  Both apps show the same.
-/

namespace Hermo

open Rfc8259 (Json Token)

private theorem find_blank {white white' : Char → Bool} {texts : List String}
    (h : ∀ s ∈ texts, isBlank white s = isBlank white' s) :
    texts.find? (fun s => !isBlank white s) = texts.find? fun s => !isBlank white' s :=
  List.find?_congr fun s hs => by rw [h s hs]

section

variable [Serializer] [JsonReader] [OrgJson] [LawfulOrgJson] [Foundation] [LawfulFoundation] [SerdeText]

/-! ### One row -/

omit [JsonReader] [OrgJson] [LawfulOrgJson] [Foundation] [LawfulFoundation] [SerdeText] in
/-- What is blank matters for the choices of an approval and for the diff of a tool only. -/
theorem RowKind.chatRow_congr {white white' : Char → Bool} {kind : RowKind} {result : List (String × Json Number)}
    (h : ∀ s ∈ kind.judged result, isBlank white s = isBlank white' s) (id : ℕ) (duration : Double)
    (questions : String) :
    kind.chatRow white id duration result questions = kind.chatRow white' id duration result questions := by
  cases kind with
  | tool card =>
    have hfind := find_blank h
    rw [judged] at hfind
    rw [chatRow, chatRow, diffOf, diffOf, hfind]
  | approval card =>
    have hfilter : card.choices.filter (fun s => !isBlank white s) = card.choices.filter fun s => !isBlank white' s :=
      List.filter_congr fun s hs => by rw [h s hs]
    rw [chatRow, chatRow, hfilter]
  | _ => rfl

omit [LawfulOrgJson] [LawfulFoundation] in
private theorem rowText_ne_empty (row : Row) : rowText row ≠ "" := by
  intro hempty
  have hread := read_rowText row
  rw [hempty] at hread
  cases hread

omit [LawfulOrgJson] [LawfulFoundation] in
private theorem freshRows_rowText (parse : ℕ → String → ChatRow) (rows : List Row) :
    freshRows parse (rows.map rowText) = rows.zipIdx.map fun (row, i) => parse i (rowText row) := by
  have hentry : ∀ entry ∈ rows.zipIdx, parseEntry parse entry.2 (rowText entry.1) = some (parse entry.2 (rowText entry.1)) :=
    fun entry _ => if_neg (rowText_ne_empty entry.1)
  unfold freshRows parseEntries
  rw [List.zipIdx_map, List.map_map, List.filterMap_map]
  exact List.filterMap_eq_map_iff_forall_eq_some.2 hentry

end

/-! ### A tool row and a clarify card -/

section

attribute [local instance] Serializer.plain JsonReader.plain OrgJson.plain OrgJson.lawful_plain Foundation.plain
  Foundation.lawful_plain serdeText_plain

private def diffFields : List (String × Json Number) := [("diff", .string "+a"), ("exit_code", .number (.int 0))]

private def diffText : String := toCompactString (.object [("diff", .string "+a"), ("exit_code", .number (.int 0))])

private def patched : Row := ⟨3, .tool ⟨"t1", "patch", true, "", "", diffText, ⟨3, -1⟩⟩⟩

private def seconds : Double := ⟨3 / 2, 3, -1, by decide, by decide, by decide, by norm_num⟩

private theorem readable_patched : Readable patched.kind seconds diffFields := by
  have hread : Rfc8259.read diffText.toList = some ((Json.object diffFields).map numberToken) :=
    SerdeText.read_toCompactString _
  have horg := LawfulOrgJson.numberOf_int 0 (by decide)
  have hfoundation := LawfulFoundation.doubleValue_int 0 0 rfl (by decide)
  constructor
  · rintro _ ⟨⟩
    norm_num [seconds, F64.toRat]
  · rintro _ ⟨⟩
    refine .object diffFields hread ?_ ?_ ?_ ?_ ?_
    · refine .object (by simp [diffFields]) ?_
      simp [diffFields, Json.Distinct.string, Json.Distinct.number]
    · exact Nat.le_trans (Json.depth_object_le (n := 0) (by simp [diffFields, Json.depth])) (by decide)
    · refine .object (List.forall_mem_cons.2 ⟨.string _, List.forall_mem_singleton.2 (.number ?_)⟩)
      exact Option.isSome_iff_exists.2 ⟨_, horg⟩
    · refine .object (List.forall_mem_cons.2 ⟨.string _, List.forall_mem_singleton.2 (.number ?_)⟩)
      exact Option.isSome_iff_exists.2 ⟨_, hfoundation⟩
    · constructor
      · simp [diffFields, List.lookup_cons]
      · rintro _ ⟨⟩
        exact .inr ⟨0, rfl, by decide, by decide⟩

private def picking : ClarifyCard := ⟨"r1", [⟨"q0", " Which? ", ["a", " b", " "], true⟩, ⟨"q1", " ", [], false⟩], false⟩

private def greeted : List Action := [.openSession (.created ⟨"live", "chat", ""⟩) none 80, .appendUserRow "chat" "hi" 1]

end

end Hermo
