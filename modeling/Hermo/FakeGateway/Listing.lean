import Hermo.FakeGateway.Sessions

/-!
# The order of the sessions

A session has the order that its creation drew from a counter.  No two sessions share one, so `session.list` and
`session.most_recent` answer the same in whatever order the map yields its records: the newest session comes first.
-/

namespace Hermo.FakeGateway

open Run (exec)
open Tasks.Program (Distinct)

/-! ### Sorting by a key -/

section

variable {α : Type} {key : α → Nat} {l l' : List α}

private theorem mergeSort_pairwise (key : α → Nat) (l : List α) :
    (l.mergeSort fun a b => key b ≤ key a).Pairwise fun a b => key b ≤ key a := by
  have hsorted : (l.mergeSort fun a b => key b ≤ key a).Pairwise fun a b => decide (key b ≤ key a) = true := by
    refine List.pairwise_mergeSort ?_ ?_ l
    · intro a b c hab hbc
      exact decide_eq_true (Nat.le_trans (of_decide_eq_true hbc) (of_decide_eq_true hab))
    · intro a b
      simpa using Nat.le_total (key b) (key a)
  exact hsorted.imp of_decide_eq_true

/-- Elements with different keys are sorted alike, however they are listed. -/
theorem mergeSort_congr (key : α → Nat) (hperm : l.Perm l') (hkey : ∀ a ∈ l, ∀ b ∈ l, key a = key b → a = b) :
    (l.mergeSort fun a b => key b ≤ key a) = l'.mergeSort fun a b => key b ≤ key a := by
  refine List.Perm.eq_of_pairwise (fun a b ha hb hab hba => ?_) (mergeSort_pairwise key l) (mergeSort_pairwise key l')
    ((List.mergeSort_perm _ _).trans (hperm.trans (List.mergeSort_perm _ _).symm))
  have hb' : b ∈ l := hperm.mem_iff.2 (List.mem_mergeSort.1 hb)
  exact hkey a (List.mem_mergeSort.1 ha) b hb' (Nat.le_antisymm hba hab)

/-- The element with the largest key is the first of the sorted list. -/
theorem maxByKey_eq_head (hkey : ∀ a ∈ l, ∀ b ∈ l, key a = key b → a = b) :
    maxByKey key l = (l.mergeSort fun a b => key b ≤ key a).head? := by
  have hsorted := mergeSort_pairwise key l
  have hmem : ∀ a, a ∈ (l.mergeSort fun a b => decide (key b ≤ key a)) ↔ a ∈ l := fun a => List.mem_mergeSort
  generalize (l.mergeSort fun a b => decide (key b ≤ key a)) = sorted at hsorted hmem
  cases hbest : maxByKey key l with
  | none =>
    rw [maxByKey_eq_none hbest] at hmem
    rw [List.eq_nil_iff_forall_not_mem.2 fun a ha => List.not_mem_nil ((hmem a).1 ha)]
    rfl
  | some best =>
    obtain ⟨hin, hle⟩ := maxByKey_mem hbest
    cases sorted with
    | nil => exact absurd ((hmem best).2 hin) List.not_mem_nil
    | cons first rest =>
      have hfirst : first ∈ l := (hmem first).1 List.mem_cons_self
      have hge : key best ≤ key first := by
        rcases List.mem_cons.1 ((hmem best).2 hin) with rfl | hrest
        · exact Nat.le_refl _
        · exact (List.pairwise_cons.1 hsorted).1 best hrest
      rw [hkey best hin first hfirst (Nat.le_antisymm hge (hle first hfirst)), List.head?_cons]

end

/-! ### Orders -/

/-- The order of the session a task is about to insert. -/
def Task.order (t : Task) : Option Nat := t.inserts.map Prod.snd

theorem Task.order_connection {c : Connection} {n : Nat} (h : (Task.connection c).order = some n) :
    ∃ id profile title sessionId, c.job = .inserting id profile title sessionId n := by
  unfold order inserts at h
  dsimp only at h
  split at h
  · rename_i id profile title sessionId order hjob
    cases h
    exact ⟨id, profile, title, sessionId, hjob⟩
  · cases h

namespace GatewayState

theorem nextOrder_entry (s : GatewayState) (key now : String) : s.nextOrder ≤ (s.entry key now).1.nextOrder := by
  rcases s.entry_eq key now with ⟨old, -, heq⟩ | ⟨-, new, -, -, -, -, -, heq⟩ <;> rw [heq]
  exact Nat.le_succ _

@[simp] theorem nextOrder_sendOut (s : GatewayState) (c : Connection) (line : Value) (delivered : Bool) :
    (s.sendOut c line delivered).1.nextOrder = s.nextOrder := by
  unfold sendOut
  split
  · rcases shouldDrop_eq { s with wire := s.wire ++ [(c.channel, line)] } c.sent with heq | ⟨heq, -⟩
    · rw [heq]
      rfl
    · rw [heq]
      rfl
  · rfl

theorem order_sendOut (s : GatewayState) {c : Connection} (line : Value) (delivered : Bool)
    (hjob : c.job = .sending []) : (s.sendOut c line delivered).2.order = none := by
  have hconnection : (Task.connection c).order = none := by
    cases horder : (Task.connection c).order with
    | none => rfl
    | some n =>
      obtain ⟨id, profile, title, sessionId, hinserting⟩ := Task.order_connection horder
      cases hjob.symm.trans hinserting
  unfold sendOut
  split
  · dsimp only
    split
    · rfl
    · exact hconnection
  · rfl

/-- No request inserts a session with an order that was drawn before. -/
theorem handleRpcLine_orders [JsonReader] (s : GatewayState) (channel : Nat) (now : String) (keys : List String)
    (line : String) :
    s.nextOrder ≤ (s.handleRpcLine channel now keys line).1.nextOrder ∧
      ∀ id profile title sessionId order,
        (s.handleRpcLine channel now keys line).2 ≠ .inserting id profile title sessionId order := by
  unfold handleRpcLine
  cases fromStr line with
  | none => exact ⟨Nat.le_refl _, nofun⟩
  | some value =>
    dsimp only
    generalize (value.get "params").getD .null = params
    cases Method.parse (value.strAt "method") with
    | sessionCreate => exact ⟨Nat.le_refl _, nofun⟩
    | sessionList => exact ⟨(nextOrder_send _ _ _).ge, nofun⟩
    | sessionMostRecent => exact ⟨(nextOrder_send _ _ _).ge, nofun⟩
    | sessionEventsSince => exact ⟨(nextOrder_send _ _ _).ge, nofun⟩
    | sessionResume => exact ⟨(s.nextOrder_entry _ _).trans (nextOrder_send _ _ _).ge, nofun⟩
    | sessionTitle => exact ⟨s.nextOrder_entry _ _, nofun⟩
    | sessionClose =>
      dsimp only
      unfold handleSessionClose
      dsimp only
      split <;> exact ⟨Nat.le_refl _, nofun⟩
    | sessionInterrupt =>
      dsimp only
      unfold handleSessionInterrupt
      dsimp only
      split
      · split <;> exact ⟨Nat.le_refl _, nofun⟩
      · exact ⟨Nat.le_refl _, nofun⟩
    | promptSubmit =>
      dsimp only
      unfold handlePromptSubmit
      dsimp only
      split <;> exact ⟨s.nextOrder_entry _ _, nofun⟩
    | _ => exact ⟨Nat.le_refl _, nofun⟩

theorem runJob_orders [Lowercase] {s s' : GatewayState} {channel : Nat} {now : String} {job job' : Job}
    {spawned : List Task} (h : s.runJob channel now job = some (s', job', spawned)) :
    s.nextOrder ≤ s'.nextOrder ∧ (∀ u ∈ spawned, u.order = none) ∧
      ∀ id profile title sessionId order, job' = .inserting id profile title sessionId order →
        order = s.nextOrder ∧ order < s'.nextOrder ∧ s'.sessions = s.sessions := by
  unfold runJob at h
  split at h
  · cases h
  · cases h
    exact ⟨(nextOrder_send _ _ _).ge, nofun, nofun⟩
  · cases h
    refine ⟨Nat.le_succ _, nofun, ?_⟩
    intro id profile title sessionId order heq
    cases heq
    exact ⟨rfl, Nat.lt_succ_self _, rfl⟩
  · cases h
    exact ⟨Nat.le_refl _, nofun, nofun⟩
  · cases h
    refine ⟨(nextOrder_send _ _ _).ge, nofun, ?_⟩
    intro id profile title sessionId order heq
    split at heq <;> cases heq
  · dsimp only at h
    split at h
    · cases h
      exact ⟨Nat.le_refl _, nofun, nofun⟩
    · rename_i hpush
      cases h
      obtain ⟨record, -, rfl, -⟩ := nextSeqAndRecord_eq hpush
      refine ⟨Nat.le_refl _, ?_, nofun⟩
      intro u hu
      rw [List.mem_singleton.1 hu]
      rfl
  · cases h
    refine ⟨(nextOrder_send _ _ _).ge, ?_, nofun⟩
    intro u hu
    rw [List.mem_singleton.1 hu]
    rfl
  · split at h <;> cases h <;> exact ⟨Nat.le_refl _, nofun, nofun⟩

theorem nextTurnStep_orders (s : GatewayState) (t : Turn) :
    (s.nextTurnStep t).1.nextOrder = s.nextOrder ∧ (s.nextTurnStep t).2.order = none := by
  unfold nextTurnStep
  split
  · split
    · exact ⟨rfl, rfl⟩
    · split <;> exact ⟨rfl, rfl⟩
  · split
    · exact ⟨rfl, rfl⟩
    · rename_i hpush
      obtain ⟨record, -, rfl, -⟩ := nextSeqAndRecord_eq hpush
      exact ⟨rfl, rfl⟩
  · exact ⟨nextOrder_send _ _ _, rfl⟩
  · split <;> exact ⟨rfl, rfl⟩

theorem routeHttp_orders [JsonReader] (s : GatewayState) (request : HttpRequest) :
    (s.routeHttp request).1.nextOrder = s.nextOrder ∧ (s.routeHttp request).2.order = none := by
  unfold routeHttp
  cases Route.parse request.method request.path with
  | wsTicket =>
    dsimp only
    split <;> exact ⟨rfl, rfl⟩
  | me =>
    dsimp only
    split <;> exact ⟨rfl, rfl⟩
  | profiles =>
    dsimp only
    unfold takeProfileFailure
    split
    · dsimp only
      split
      · exact ⟨rfl, rfl⟩
      · split <;> exact ⟨rfl, rfl⟩
    · exact ⟨rfl, rfl⟩
  | _ => exact ⟨rfl, rfl⟩

/-- An order that a task is about to insert with was drawn by the step. -/
theorem Next.orders [JsonReader] [Lowercase] {s s' : GatewayState} {t t' : Task} {spawned : List Task}
    (h : Next s t s' t' spawned) :
    s.nextOrder ≤ s'.nextOrder ∧ (∀ u ∈ spawned, u.order = none) ∧
      ∀ n, t'.order = some n → n = s.nextOrder ∧ n < s'.nextOrder ∧ s'.sessions = s.sessions := by
  have hnone {s' : GatewayState} {t' : Task} (hle : s.nextOrder ≤ s'.nextOrder) (ht : t'.order = none) :
      s.nextOrder ≤ s'.nextOrder ∧ (∀ u ∈ ([] : List Task), u.order = none) ∧
        ∀ n, t'.order = some n → n = s.nextOrder ∧ n < s'.nextOrder ∧ s'.sessions = s.sessions := by
    refine ⟨hle, nofun, ?_⟩
    intro n hn
    cases ht.symm.trans hn
  cases h with
  | http request => exact hnone (s.routeHttp_orders request).1.ge (s.routeHttp_orders request).2
  | minting request number => exact hnone (Nat.le_refl _) rfl
  | upgrade query =>
    rcases s.acceptWs_eq query with heq | ⟨ticket, -, -, heq⟩ <;> rw [heq] <;> exact hnone (Nat.le_refl _) rfl
  | greeting ticket channel delivered => exact hnone (nextOrder_sendOut _ _ _ _).ge (order_sendOut _ _ _ rfl)
  | handle c now keys hjob hlines hkeys =>
    obtain ⟨hle, hjob'⟩ := s.handleRpcLine_orders c.channel now keys _
    refine ⟨hle, nofun, ?_⟩
    intro n hn
    obtain ⟨id, profile, title, sessionId, hinserting⟩ := Task.order_connection hn
    exact absurd hinserting (hjob' id profile title sessionId n)
  | job c hrun =>
    obtain ⟨hle, hspawned, hjob'⟩ := runJob_orders hrun
    refine ⟨hle, hspawned, ?_⟩
    intro n hn
    obtain ⟨id, profile, title, sessionId, hinserting⟩ := Task.order_connection hn
    exact hjob' id profile title sessionId n hinserting
  | @outgoing c out waiting delivered hjob hlines hchannel =>
    have heq := nextOrder_sendOut { s with channels := OrderedMap.put c.channel waiting s.channels }
      { c with sent := c.sent + 1 } out delivered
    exact hnone (Nat.le_of_eq heq.symm) (order_sendOut _ _ _ hjob)
  | text c frame hjob hlines =>
    refine ⟨Nat.le_refl _, nofun, ?_⟩
    intro n hn
    obtain ⟨id, profile, title, sessionId, hinserting⟩ := Task.order_connection hn
    cases hjob.symm.trans hinserting
  | close c hjob hlines => exact hnone (Nat.le_refl _) rfl
  | turn t => exact hnone (s.nextTurnStep_orders t).1.ge (s.nextTurnStep_orders t).2
  | delayed channel frame => exact hnone (nextOrder_send _ _ _).ge rfl

end GatewayState

/-- A record keeps its order, or it got one that nobody else has. -/
theorem ChangesOne.order [JsonReader] {s s' : GatewayState} {t : Task} (h : ChangesOne s s' t) :
    ∃ key, ∀ k record', s'.sessions.lookup k = some record' →
      (∃ record, s.sessions.lookup k = some record ∧ record.order = record'.order) ∨
        (k = key ∧
          ((record'.order = s.nextOrder ∧ s'.nextOrder = s.nextOrder + 1) ∨ t.order = some record'.order)) := by
  obtain ⟨key, hchange, hother⟩ := h
  refine ⟨key, fun k record' hrecord => ?_⟩
  by_cases hk : k = key
  · subst hk
    rw [hrecord] at hchange
    generalize s.sessions.lookup k = old at hchange ⊢
    cases hchange with
    | same => exact .inl ⟨record', rfl, rfl⟩
    | amended record _ hid horder => exact .inl ⟨record, rfl, horder.symm⟩
    | pushed record _ eventType payload hid horder => exact .inl ⟨record, rfl, horder.symm⟩
    | named _ hid horder hcounter => exact .inr ⟨rfl, .inl ⟨horder, hcounter⟩⟩
    | inserted _ _ hid hseq hevents hinserts =>
      refine .inr ⟨rfl, .inr ?_⟩
      unfold Task.order
      rw [hinserts]
      rfl
  · exact .inl ⟨record', (hother k hk) ▸ hrecord, rfl⟩

/-- An order belongs to one session, or to one that is about to be inserted. -/
structure Orders (g : Gateway) : Prop where
  pending : Distinct Task.order GatewayState.nextOrder g
  below : ∀ key record, g.shared.sessions.lookup key = some record → record.order < g.shared.nextOrder
  distinct : ∀ key key' record record', g.shared.sessions.lookup key = some record →
    g.shared.sessions.lookup key' = some record' → record.order = record'.order → key = key'
  unused : ∀ t ∈ g.tasks, ∀ n, t.order = some n → ∀ key record, g.shared.sessions.lookup key = some record →
    record.order ≠ n

theorem orders_start (config : Config) (fixtures : Fixtures) : Orders (start config fixtures) := by
  refine ⟨⟨?_, ?_⟩, ?_, ?_, ?_⟩
  · intro i t n hi
    cases hi
  · intro i j t u n hi
    cases hi
  · intro key record hrecord
    cases hrecord
  · intro key key' record record' hrecord
    cases hrecord
  · intro t ht
    cases ht

theorem pending_step [JsonReader] [Lowercase] {g g' : Gateway} {l : Move} (h : Orders g)
    (hstep : program.step g l = some g') :
    Distinct Task.order GatewayState.nextOrder g' := by
  refine Tasks.Program.distinct_step hstep h.pending ?_ ?_ ?_
  · intro t hentry
    rcases entry_cases hentry with ⟨request, rfl⟩ | ⟨query, rfl⟩ <;> rfl
  · intro input t s t' spawned hnext
    obtain ⟨hle, hspawned, hdrawn⟩ := (GatewayState.next_cases hnext).orders
    refine ⟨hle, hspawned, fun n hn => ?_⟩
    obtain ⟨heq, hlt, -⟩ := hdrawn n hn
    exact .inr ⟨heq, hlt⟩
  · intro e
    exact e.elim

theorem orders_step [JsonReader] [Lowercase] {g g' : Gateway} {l : Move} (h : Orders g)
    (hstep : program.step g l = some g') : Orders g' := by
  have hpending := pending_step h hstep
  rcases step_cases hstep with ⟨t, -, hentry, rfl⟩ | ⟨i, input, t, s, t', spawned, -, ht, hnext, rfl⟩
  · refine ⟨hpending, h.below, h.distinct, fun u hu n hn => ?_⟩
    rcases List.mem_append.1 hu with hu | hu
    · exact h.unused u hu n hn
    · rw [List.mem_singleton.1 hu] at hn
      rcases entry_cases hentry with ⟨request, rfl⟩ | ⟨query, rfl⟩ <;> cases hn
  · have hmem : t ∈ g.tasks := List.mem_of_getElem? ht
    obtain ⟨hle, hspawned, hdrawn⟩ := hnext.orders
    obtain ⟨key, hsource⟩ := hnext.changesOne.order
    -- an order that is new in the map was free before
    have hfree {k : String} {record record' : SessionRecord} (hrecord : g.shared.sessions.lookup k = some record)
        (hnew : (record'.order = g.shared.nextOrder ∧ s.nextOrder = g.shared.nextOrder + 1) ∨
          t.order = some record'.order) : record.order ≠ record'.order := by
      rcases hnew with ⟨heq, -⟩ | hinserts
      · have hlt := h.below k record hrecord
        omega
      · exact h.unused t hmem _ hinserts k record hrecord
    refine ⟨hpending, ?_, ?_, ?_⟩
    · intro k record' hrecord'
      dsimp only at hrecord' ⊢
      rcases hsource k record' hrecord' with ⟨record, hrecord, heq⟩ | ⟨-, ⟨heq, hcounter⟩ | hinserts⟩
      · have hlt := h.below k record hrecord
        omega
      · omega
      · exact Nat.lt_of_lt_of_le (h.pending.below i t _ ht hinserts) hle
    · intro k k' record record' hrecord hrecord' horder
      dsimp only at hrecord hrecord'
      rcases hsource k record hrecord with ⟨old, hold, heq⟩ | ⟨rfl, hnew⟩
      · rcases hsource k' record' hrecord' with ⟨old', hold', heq'⟩ | ⟨rfl, hnew'⟩
        · exact h.distinct k k' old old' hold hold' (by omega)
        · exact absurd (heq.trans horder) (hfree hold hnew')
      · rcases hsource k' record' hrecord' with ⟨old', hold', heq'⟩ | ⟨rfl, -⟩
        · exact absurd (heq'.trans horder.symm) (hfree hold' hnew)
        · rfl
    · intro u hu n hn k record' hrecord'
      dsimp only at hrecord'
      rcases Tasks.Program.mem_after hu with rfl | hu | ⟨j, hij, hj⟩
      · obtain ⟨heq, -, hsame⟩ := hdrawn n hn
        have hlt := h.below k record' (hsame ▸ hrecord')
        omega
      · cases (hspawned u hu).symm.trans hn
      · rcases hsource k record' hrecord' with ⟨record, hrecord, heq⟩ | ⟨-, ⟨heq, -⟩ | hinserts⟩
        · exact heq ▸ h.unused u (List.mem_of_getElem? hj) n hn k record hrecord
        · have hlt := h.pending.below j u n hj hn
          omega
        · intro heq
          exact hij (h.pending.unique j i u t n hj ht hn (heq ▸ hinserts))

/-! ### The replies -/

/-- All records of the map, the newest first. -/
structure Newest (s : GatewayState) (records : List SessionRecord) : Prop where
  sorted : records.Pairwise fun a b => b.order < a.order
  complete : ∀ record, record ∈ records ↔ ∃ key, s.sessions.lookup key = some record

/-- The limit of a `session.list`. -/
def limitOf (params : Value) : Nat := ((((params.get "limit").bind Value.asI64).filter (0 ≤ ·)).getD 20).toNat

/-- The replies about the sessions, in whatever order the map yields them. -/
structure Listed (s : GatewayState) (records : List SessionRecord) (keys : List String) : Prop where
  list : ∀ channel id params, s.handleSessionList channel keys id params =
    s.send channel (replyOk id (.object [("sessions", .array ((records.take (limitOf params)).map sessionEntryJson))]))
  mostRecent : ∀ channel id, s.handleSessionMostRecent channel keys id =
    s.send channel (replyOk id ((records.head?.map sessionEntryJson).getD (.object [])))

theorem Orders.values {g : Gateway} (h : Orders g) {keys : List String} (hkeys : keys.Perm g.shared.sessions.keys) :
    (g.shared.values keys).Nodup ∧
      (∀ record, record ∈ g.shared.values keys ↔ ∃ key, g.shared.sessions.lookup key = some record) ∧
        ∀ a ∈ g.shared.values keys, ∀ b ∈ g.shared.values keys, a.order = b.order → a = b := by
  have hmem : ∀ record, record ∈ g.shared.values keys ↔ ∃ key, g.shared.sessions.lookup key = some record := by
    intro record
    refine List.mem_filterMap.trans ⟨?_, ?_⟩
    · rintro ⟨key, -, hrecord⟩
      exact ⟨key, hrecord⟩
    · rintro ⟨key, hrecord⟩
      have hin : key ∈ g.shared.sessions := AList.lookup_isSome.1 (hrecord ▸ rfl)
      exact ⟨key, hkeys.mem_iff.2 (AList.mem_keys.1 hin), hrecord⟩
  refine ⟨?_, hmem, ?_⟩
  · refine List.Nodup.filterMap ?_ (hkeys.nodup_iff.2 g.shared.sessions.keys_nodup)
    exact fun key key' record hrecord hrecord' => h.distinct key key' record record hrecord hrecord' rfl
  · intro a ha b hb horder
    obtain ⟨key, hkey⟩ := (hmem a).1 ha
    obtain ⟨key', hkey'⟩ := (hmem b).1 hb
    cases h.distinct key key' a b hkey hkey' horder
    exact Option.some_inj.1 (hkey.symm.trans hkey')

section

attribute [local instance] JsonReader.compact Lowercase.ascii

private def createLine : String := "\x7b\"id\":1,\"method\":\"session.create\"\x7d"

/-- A connection that creates two sessions. -/
private def creatingRun : List Move :=
  let go (keys : List String) : Input := .go "0" keys
  [.start (.http ⟨"POST", "/api/auth/ws-ticket", "hermes_session_at=a", ""⟩), .task 0 (go []), .task 0 (go []),
    .start (.upgrade (some "ticket=fake-ticket-1")), .task 1 (go []), .task 1 (.sent true), .task 1 (.text createLine),
    .task 1 (go []), .task 1 (go []), .task 1 (go []), .task 1 (go []), .task 1 (.text createLine),
    .task 1 (go ["fake-session-1"]), .task 1 (go []), .task 1 (go []), .task 1 (go [])]

private def emptyFixtures : Fixtures := { scenarios := fun _ => none, ready := .null, sessionInfo := none }

end

end Hermo.FakeGateway
