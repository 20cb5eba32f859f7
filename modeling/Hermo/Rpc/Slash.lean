import Hermo.Rpc.Client

/-!
# The slash ladder and the bot chat

The pure parts of `run_slash` (`rpc/slash.rs`) and `open_bot_chat` (`bot_chat.rs`): what follows on an answer of
`slash.exec`, on an answer of `command.dispatch`, and on a list of the sessions.  Errors are told apart by their code.
-/

namespace Hermo.Rpc

/-- `MAX_ALIAS_HOPS`. -/
def maxAliasHops : Nat := 8

/-- `ALIAS_LOOP_CODE`. -/
def aliasLoopCode : Int := 4091

/-- What follows on a `slash.exec`. -/
inductive SlashPlan where
  | output (text : String)
  | empty
  | dispatch (name arg : String)
  deriving DecidableEq, Repr

/-- `split_name_arg`. -/
def splitNameArg (command : String) : String × String :=
  let trimmed := command.toList.dropWhile (· == '/')
  (String.ofList (trimmed.takeWhile (· != ' ')), String.ofList ((trimmed.dropWhile (· != ' ')).drop 1))

/-- `plan_after_slash_exec`. -/
def planAfterSlashExec (command : String) : Outcome → Except ClientError SlashPlan
  | .ok value =>
    let body := value.strAt "output"
    let warning := value.strAt "warning"
    .ok (.output (if warning = "" then body else "warning: " ++ warning ++ "\n" ++ body))
  | .error (.rpc 4004 _) => .ok .empty
  | .error (.rpc 4018 _) => .ok (.dispatch (splitNameArg command).1 (splitNameArg command).2)
  | .error e => .error e

/-- The answer of `command.dispatch`. -/
inductive DispatchOutcome where
  | output (text : String)
  | alias (target : String)
  | skill (name message display : String)
  | send (message : String)
  | prefill (text : String)
  | unknown
  deriving DecidableEq, Repr

def DispatchOutcome.ofValue (value : Value) : DispatchOutcome :=
  match value.strAt "type" with
  | "exec" | "plugin" => .output (value.strAt "output")
  | "alias" => .alias (value.strAt "target")
  | "skill" => .skill (value.strAt "name") (value.strAt "message") (value.strAt "display")
  | "send" => .send (value.strAt "message")
  | "prefill" => .prefill (value.strAt "message")
  | _ => .unknown

/-- What follows on a `command.dispatch`. -/
inductive SlashDispatch where
  | output (text : String)
  | prefill (text : String)
  | submit (message display : String)
  | alias (target : String)
  | unknown
  deriving DecidableEq, Repr

/-- `plan_from_dispatch`. -/
def planFromDispatch : DispatchOutcome → SlashDispatch
  | .output text => .output text
  | .prefill text => .prefill text
  | .send message => .submit message ""
  | .skill _ message display => .submit message display
  | .alias target => .alias target
  | .unknown => .unknown

/-- The command an alias stands for: its target, with a leading `/`. -/
def aliasCommand (target : String) : String := if target.startsWith "/" then target else "/" ++ target

/-- `BOT_CHAT_TITLE`. -/
def botChatTitle : String := "Bot Chat"

inductive BotChatResolution where
  | resume (storedId : String)
  | create
  deriving DecidableEq, Repr

/-- `resolve_bot_chat`: the first row with exactly the title and a durable id. -/
def resolveBotChat : List (String × String) → BotChatResolution
  | [] => .create
  | (title, id) :: rows => if title = botChatTitle ∧ id ≠ "" then .resume id else resolveBotChat rows

/-- A row the bot chat can be resumed from. -/
def isBotChat (row : String × String) : Bool := row.1 = botChatTitle ∧ row.2 ≠ ""

theorem resolveBotChat_eq (rows : List (String × String)) :
    resolveBotChat rows = (rows.find? isBotChat).elim .create fun row => .resume row.2 := by
  induction rows with
  | nil => rfl
  | cons row rows ih =>
    obtain ⟨title, id⟩ := row
    unfold resolveBotChat
    by_cases h : title = botChatTitle ∧ id ≠ ""
    · rw [if_pos h, List.find?_cons_of_pos (by simpa [isBotChat] using h)]
      rfl
    · rw [if_neg h, ih, List.find?_cons_of_neg (by simpa [isBotChat] using h)]

theorem resolveBotChat_create {rows : List (String × String)} :
    resolveBotChat rows = .create ↔ rows.filter isBotChat = [] := by
  rw [resolveBotChat_eq, List.filter_eq_nil_iff]
  cases h : rows.find? isBotChat with
  | none => exact iff_of_true rfl fun row hrow => by simpa using List.find?_eq_none.1 h row hrow
  | some row =>
    refine iff_of_false nofun ?_
    exact fun hnone => hnone row (List.mem_of_find?_eq_some h) (List.find?_some h)

theorem resolveBotChat_resume {rows : List (String × String)} {id : String} (h : resolveBotChat rows = .resume id) :
    (botChatTitle, id) ∈ rows.filter isBotChat := by
  rw [resolveBotChat_eq] at h
  cases hfind : rows.find? isBotChat with
  | none =>
    rw [hfind] at h
    cases h
  | some row =>
    rw [hfind] at h
    obtain ⟨title, id'⟩ := row
    cases h
    have hbot := List.find?_some hfind
    have htitle : title = botChatTitle ∧ id' ≠ "" := by simpa [isBotChat] using hbot
    rw [← htitle.1]
    exact List.mem_filter.2 ⟨List.mem_of_find?_eq_some hfind, hbot⟩

example : splitNameArg "/deploy prod now" = ("deploy", "prod now") := by decide

end Hermo.Rpc
