import Hermo.Json

/-!
# Transcript data

Rows, cards and the session header (`transcript/model.rs`): plain data, in event order.  `args`, `result` and
`usage` are kept as compact JSON strings, as in the source.
-/

namespace Hermo

/-- The kinds of `status.update`; unknown kinds keep the raw string. -/
inductive StatusKind where
  | status | lifecycle | compacting | compacted | heartbeat
  | other (kind : String)
  deriving DecidableEq, Repr

def StatusKind.parse (kind : String) : StatusKind :=
  match kind with
  | "status" => status
  | "lifecycle" => lifecycle
  | "compacting" => compacting
  | "compacted" => compacted
  | "heartbeat" => heartbeat
  | _ => other kind

/-- One card per tool run; `toolId` is empty until `tool.start`. -/
structure ToolCard where
  toolId : String
  name : String
  complete : Bool
  context : String
  argsJson : String
  resultJson : String
  durationS : F64
  deriving DecidableEq, Repr

structure ApprovalCard where
  requestId : String
  command : String
  description : String
  choices : List String
  resolved : Bool
  deriving DecidableEq, Repr

structure ClarifyQuestion where
  qid : String
  question : String
  choices : List String
  multiSelect : Bool
  deriving DecidableEq, Repr

structure ClarifyCard where
  requestId : String
  questions : List ClarifyQuestion
  resolved : Bool
  deriving DecidableEq, Repr

inductive RowKind where
  | user (text : String)
  | assistant (text : String) (streaming : Bool) (usageJson warning : String)
  | thinking (text : String)
  | tool (card : ToolCard)
  | approval (card : ApprovalCard)
  | clarify (card : ClarifyCard)
  | status (kind : StatusKind) (text : String)
  | error (message : String)
  deriving DecidableEq, Repr

/-- One row of a session transcript. -/
structure Row where
  index : Nat
  kind : RowKind
  deriving DecidableEq, Repr

structure SessionHeader where
  title : String := ""
  model : String := ""
  cwd : String := ""
  branch : String := ""
  usageJson : String := ""
  deriving DecidableEq, Repr

/-- The transcript of one session. -/
structure Transcript where
  rows : List Row := []
  header : SessionHeader := {}
  deriving DecidableEq, Repr

namespace Transcript

/-- Push a row of the given kind at the end; its index is the old length. -/
def push (t : Transcript) (kind : RowKind) : Transcript :=
  { t with rows := t.rows ++ [⟨t.rows.length, kind⟩] }

/-- Rewrite the kind of row `i`; nothing happens when there is no row `i`. -/
def revise (t : Transcript) (i : Nat) (f : RowKind → RowKind) : Transcript :=
  { t with rows := t.rows.modify i fun row => { row with kind := f row.kind } }

/-- The kind of row `i`, `none` past the end. -/
def kindOf (t : Transcript) (i : Nat) : Option RowKind := (t.rows[i]?).map Row.kind

@[simp] theorem push_rows (t : Transcript) (kind : RowKind) :
    (t.push kind).rows = t.rows ++ [⟨t.rows.length, kind⟩] := rfl

@[simp] theorem push_header (t : Transcript) (kind : RowKind) : (t.push kind).header = t.header := rfl

@[simp] theorem revise_rows (t : Transcript) (i : Nat) (f : RowKind → RowKind) :
    (t.revise i f).rows = t.rows.modify i fun row => { row with kind := f row.kind } := rfl

@[simp] theorem revise_header (t : Transcript) (i : Nat) (f : RowKind → RowKind) :
    (t.revise i f).header = t.header := rfl

theorem kindOf_push (t : Transcript) (kind : RowKind) (i : Nat) :
    (t.push kind).kindOf i = if i = t.rows.length then some kind else t.kindOf i := by
  unfold kindOf
  rw [push_rows, List.getElem?_append]
  split
  · rename_i h
    rw [if_neg (by omega)]
  · rename_i h
    split
    · rename_i h'
      simp [h']
    · rename_i h'
      rw [List.getElem?_eq_none (by simp; omega), List.getElem?_eq_none (by omega)]

theorem kindOf_revise (t : Transcript) (j : Nat) (f : RowKind → RowKind) (i : Nat) :
    (t.revise j f).kindOf i = if j = i then (t.kindOf i).map f else t.kindOf i := by
  unfold kindOf
  rw [revise_rows, List.getElem?_modify]
  cases t.rows[i]? <;> split <;> simp_all

theorem lt_of_kindOf {t : Transcript} {i : Nat} {kind : RowKind} (h : t.kindOf i = some kind) :
    i < t.rows.length := by
  unfold kindOf at h
  rw [Option.map_eq_some_iff] at h
  obtain ⟨row, hrow, -⟩ := h
  exact (List.getElem?_eq_some_iff.1 hrow).1

/-- Only the value of the new kind at the old one matters. -/
theorem revise_congr {t : Transcript} {i : Nat} {old : RowKind} (h : t.kindOf i = some old)
    (f : RowKind → RowKind) : t.revise i f = t.revise i fun _ => f old := by
  have hrows : (t.revise i f).rows = (t.revise i fun _ => f old).rows := by
    apply List.ext_getElem?
    intro j
    rw [revise_rows, revise_rows, List.getElem?_modify, List.getElem?_modify]
    by_cases hij : i = j
    · subst hij
      unfold kindOf at h
      cases hrow : t.rows[i]? <;> simp_all
    · simp [hij]
  exact congrArg (fun rows => { t with rows := rows }) hrows

end Transcript

end Hermo
