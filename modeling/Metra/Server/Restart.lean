import Metra.Client.Plan
import Metra.Keyed.Table
import Metra.Server.Capacity
import Metra.Server.Stored

/-!
# A server that is stopped and started again

`main` makes its `AppState` of what `TransferStore::load_all` finds, whatever has become of the
server before: its memory is lost, its table of transfers and its files are not.

* `Service` and `storeRow` — the server together with the rows of its table;
* `AppState.new` and `getTransfer_new` — **what a new server knows is what the table holds**;
* `Lifetime.Next` — the steps of a server, and its being stopped at any moment;
* `created_survives` — **a transfer whose creation was answered with success** is known as it
  was created ever after;
* `served_accepted` — a transfer that is served was accepted once, by this server or by one
  before it.
-/

namespace Metra.Server

open Interleave Keyed

/-! ## The store -/

/-- The server and its table of transfers, whose primary key is the id; of the columns only the
summary is kept. -/
structure Service where
  app : AppState
  rows : List TransferSummary

/-- The summary that an operation stores. -/
def AppOp.row : AppOp → Option TransferSummary
  | .upsert summary | .stream (.storeUpsert summary) => some summary
  | _ => none

/-- The table after an operation: a row is inserted, or takes the place of the one with its
id. -/
def storeRow (o : AppOp) (c : Choice) (rows : List TransferSummary) : List TransferSummary :=
  match o.row with
  | some summary => (replace c (put TransferSummary.transferId summary rows) rows).2
  | none => rows

/-- A step of the server, which goes through to the store. -/
def Service.exec (path : Uuid → String) (t : AppTask) (o : AppOp) (c : Choice) (s : Service) :
    Option (o.Reply × Service) :=
  (s.app.exec path t o c).map fun out => (out.1, ⟨out.2, storeRow o c s.rows⟩)

/-- The server and its store. -/
def serviceMachine (path : Uuid → String) : Machine AppTask AppOp AppOp.Reply Choice Service :=
  ⟨Service.exec path⟩

/-- `AppState::new`, with the files that are there: of the summaries that were loaded the last
one with an id is kept, and nothing else is left in memory. -/
def AppState.new (persistedTransfers : List TransferSummary) (a : AppState) : AppState :=
  { a with
    tracked := (persistedTransfers.map TransferSummary.transferId).toFinset
    servers := fun id =>
      start ((persistedTransfers.reverse.find? fun row => row.transferId = id).getD
        (a.servers id).transfer) (a.servers id).disk }

/-- The handler of `GET /v1/transfers/{transfer_id}`. -/
def getTransfer (a : AppState) (transferId : Uuid) : Except ErrorResponse TransferSummary :=
  if transferId ∈ a.tracked then .ok (a.servers transferId).transfer
  else .error ⟨404, "not_found", s!"transfer {transferId} was not found"⟩

/-! ### What a new server knows -/

section

variable {rows persisted : List TransferSummary} {a : AppState} {id : Uuid}
  {summary row : TransferSummary} {o : AppOp} {c : Choice}

/-- What is found by its id, when no two rows have one. -/
theorem find?_row (hnodup : (rows.map TransferSummary.transferId).Nodup) (hrow : row ∈ rows) :
    rows.find? (fun r => r.transferId = row.transferId) = some row := by
  cases hfind : rows.find? fun r => r.transferId = row.transferId with
  | none =>
    have hnone := List.find?_eq_none.1 hfind row hrow
    simp at hnone
  | some r =>
    have hid : r.transferId = row.transferId := by simpa using List.find?_some hfind
    rw [List.inj_on_of_nodup_map hnodup (List.mem_of_find?_eq_some hfind) hrow hid]

/-- **What a new server knows is what the table holds**, in whatever order it is loaded. -/
theorem getTransfer_new (hnodup : (rows.map TransferSummary.transferId).Nodup)
    (hloaded : persisted.Perm rows) :
    getTransfer (a.new persisted) id = .ok summary ↔ summary ∈ rows ∧ summary.transferId = id := by
  have hnodup' : (persisted.reverse.map TransferSummary.transferId).Nodup :=
    (((List.reverse_perm persisted).trans hloaded).map _).nodup_iff.2 hnodup
  have hfind : ∀ row ∈ rows, ((a.new persisted).servers row.transferId).transfer = row := by
    intro row hrow
    have hmem : row ∈ persisted.reverse := List.mem_reverse.2 (hloaded.mem_iff.2 hrow)
    show ((persisted.reverse.find? fun r => r.transferId = row.transferId).getD _) = row
    rw [find?_row hnodup' hmem, Option.getD_some]
  rw [getTransfer]
  constructor
  · intro h
    split at h
    · rename_i hmem
      obtain ⟨row, hrow, rfl⟩ := List.mem_map.1 (List.mem_toFinset.1 hmem)
      have hrow := hloaded.mem_iff.1 hrow
      rw [hfind row hrow] at h
      cases h
      exact ⟨hrow, rfl⟩
    · cases h
  · rintro ⟨hrow, rfl⟩
    have hmem : summary.transferId ∈ (a.new persisted).tracked :=
      List.mem_toFinset.2 (List.mem_map_of_mem (hloaded.mem_iff.2 hrow))
    rw [if_pos hmem, hfind summary hrow]

/-- A table keeps one row for an id. -/
theorem nodup_storeRow (hnodup : (rows.map TransferSummary.transferId).Nodup) :
    ((storeRow o c rows).map TransferSummary.transferId).Nodup := by
  unfold storeRow
  split
  · rename_i summary _
    rcases replace_eq c rows (put TransferSummary.transferId summary rows) with heq | ⟨r, heq⟩
    · rw [heq]
      exact hnodup
    · rw [heq]
      exact nodup_put hnodup
  · exact hnodup

/-- What is in the table was there, or is what was stored. -/
theorem eq_or_mem_storeRow (h : row ∈ storeRow o c rows) : row ∈ rows ∨ o.row = some row := by
  unfold storeRow at h
  split at h
  · rename_i summary ho
    rcases replace_eq c rows (put TransferSummary.transferId summary rows) with heq | ⟨r, heq⟩
    · rw [heq] at h
      exact .inl h
    · rw [heq] at h
      rcases eq_or_mem_of_mem_put h with rfl | hmem
      · exact .inr ho
      · exact .inl hmem
  · exact .inl h

/-- A transfer that is in the table stays in it. -/
theorem exists_storeRow (h : ∃ row ∈ rows, row.transferId = id) :
    ∃ row ∈ storeRow o c rows, row.transferId = id := by
  obtain ⟨row, hrow, rfl⟩ := h
  unfold storeRow
  split
  · rename_i summary _
    rcases replace_eq c rows (put TransferSummary.transferId summary rows) with heq | ⟨r, heq⟩
    · exact ⟨row, heq ▸ hrow, rfl⟩
    · rw [heq]
      by_cases hid : row.transferId = summary.transferId
      · exact ⟨summary, mem_put_self, hid.symm⟩
      · exact ⟨row, mem_put_of_ne hrow hid, rfl⟩
  · exact ⟨row, hrow, rfl⟩

end

/-! ## Lifetimes -/

/-- The clients of a server since it was started, how many requests they send until it is
stopped, and how far it has got with them. -/
structure Lifetime where
  clients : Clients
  count : Nat
  cfg : Config AppTask AppOp AppOp.Reply Service AppResult

/-- The requests draw different ids. -/
def Distinct (clients : Clients) (count : Nat) : Prop :=
  ∀ m < count, ∀ n < count, (clients.requests m).2 = (clients.requests n).2 → m = n

/-- The ids that the requests draw are new. -/
structure FreshIds (clients : Clients) (count : Nat) (rows : List TransferSummary) : Prop where
  distinct : Distinct clients count
  new : ∀ n < count, ∀ row ∈ rows, row.transferId ≠ (clients.requests n).2

/-- A server of some clients that has just been started. -/
def Lifetime.start (ctx : Uuid → Context) (store : String) (clients : Clients) (count : Nat)
    (s : Service) : Lifetime :=
  ⟨clients, count, ⟨s, appProgram ctx store clients⟩⟩

/-- The task is a stream, or one of so many requests. -/
def AppTask.Within (count : Nat) (t : AppTask) : Prop := ∀ n, t = .create n → n < count

/-- A server takes a step, or it is stopped, wherever it is, and another one is started for
other clients. -/
inductive Lifetime.Next (ctx : Uuid → Context) (store : String) : Lifetime → Lifetime → Prop
  | step {l : Lifetime} {t : AppTask} {c : Choice}
      {cfg : Config AppTask AppOp AppOp.Reply Service AppResult}
      (hwithin : t.Within l.count)
      (hstep : l.cfg.step? (serviceMachine fun id => (ctx id).final) t c = some cfg) :
      Next ctx store l ⟨l.clients, l.count, cfg⟩
  | restart {l : Lifetime} {clients : Clients} {count : Nat} {persisted : List TransferSummary}
      (hloaded : persisted.Perm l.cfg.shared.rows)
      (hfresh : FreshIds clients count l.cfg.shared.rows) :
      Next ctx store l (.start ctx store clients count
        ⟨l.cfg.shared.app.new persisted, l.cfg.shared.rows⟩)

/-- What one server after the other comes to. -/
abbrev Lifetime.Leads (ctx : Uuid → Context) (store : String) : Lifetime → Lifetime → Prop :=
  Relation.ReflTransGen (Lifetime.Next ctx store)

/-! ### How far a task has got -/

/-- How far a call of `create_transfer` has got. -/
inductive Creation
  | ready
  | reserved
  | unstored
  | stored
  | refused

/-- Where a task stands: a creation before or after its upsert, or a stream with what it has to
store. -/
inductive AppPoint
  | creating (creation : Creation)
  | streaming (persist : Persist)

/-- What the tasks of a server do to its transfers. -/
def appProtocol (clients : Clients) : AppTask → Protocol AppOp AppOp.Reply AppPoint
  | .create n =>
    let (payload, transferId) := clients.requests n
    { enabled := fun pt o =>
        match pt with
        | .creating .ready => payload.validate = .ok () ∧ o = .reserve (payload.summary transferId)
        | .creating .reserved =>
          payload.validate = .ok () ∧ o = .upsert (payload.summary transferId)
        | .creating .unstored => o = .remove transferId
        | _ => False
      possible := fun _ _ _ => True
      advance := fun pt o r =>
        match pt, o, r with
        | .creating .ready, .reserve _, true => .creating .reserved
        | .creating .ready, .reserve _, false => .creating .refused
        | .creating .reserved, .upsert _, some () => .creating .stored
        | .creating .reserved, .upsert _, none => .creating .unstored
        | .creating .unstored, .remove _, _ => .creating .refused
        | pt, _, _ => pt }
  | .stream _ _ =>
    { enabled := fun pt o =>
        match pt, o with
        | .streaming p, .stream o => persisting.enabled p o
        | _, _ => False
      possible := fun _ _ _ => True
      advance := fun pt o r =>
        match pt, o, r with
        | .streaming p, .stream o, r => .streaming (persisting.advance p o r)
        | pt, _, _ => pt }

/-- Before the first step. -/
def appStart : AppTask → AppPoint
  | .create _ => .creating .ready
  | .stream _ _ => .streaming .quiet

/-- What a task has done when it returns: a request that is answered with success is in the
table. -/
def AppReturned (clients : Clients) : AppTask → AppResult → AppPoint → Prop
  | .create n, .created (.ok response), pt =>
    pt = .creating .stored ∧ (clients.requests n).1.validate = .ok () ∧
      response.transferId = (clients.requests n).2
  | _, _, _ => True

section

variable {ctx : Uuid → Context} {store : String} {clients : Clients} {id : Uuid}

theorem obeys_returning {A : Protocol AppOp AppOp.Reply AppPoint} {α : Type}
    {result : α → AppResult} {p : Prog AppOp AppOp.Reply α} {Q : AppResult → AppPoint → Prop}
    {pt : AppPoint} (h : p.Obeys A (fun a => Q (result a)) pt) :
    (returning result p).Obeys A Q pt := by
  induction p generalizing pt with
  | ret a => exact h
  | act o k ih => exact ⟨h.1, fun r hr => ih r (h.2 r hr)⟩

/-- `create_transfer` goes on as it is said to. -/
theorem createTransfer_obeys (n : Nat) :
    (appProgram ctx store clients (.create n)).Obeys (appProtocol clients (.create n))
      (AppReturned clients (.create n)) (.creating .ready) := by
  apply obeys_returning
  unfold createTransfer
  cases hvalid : (clients.requests n).1.validate with
  | error message => trivial
  | ok =>
    refine ⟨⟨hvalid, rfl⟩, fun reserved _ => ?_⟩
    cases reserved with
    | false => trivial
    | true =>
      refine ⟨⟨hvalid, rfl⟩, fun stored _ => ?_⟩
      cases stored with
      | none => exact ⟨rfl, fun _ _ => trivial⟩
      | some done =>
        cases done
        exact ⟨rfl, hvalid, rfl⟩

/-- A stream does in the server what it does by itself. -/
theorem onStream_obeys {u : Task} {p : Prog Op Op.Reply (Except String Unit)} {pt : Persist}
    {Q : Except String Unit → Persist → Prop} (h : p.Obeys persisting Q pt) :
    (onStream p).Obeys (appProtocol clients (.stream id u))
      (AppReturned clients (.stream id u)) (.streaming pt) := by
  induction p generalizing pt with
  | ret a => trivial
  | act o k ih => exact ⟨h.1, fun r _ => ih r (h.2 r trivial)⟩

theorem appProgram_obeys (t : AppTask) :
    (appProgram ctx store clients t).Obeys (appProtocol clients t) (AppReturned clients t)
      (appStart t) := by
  cases t with
  | create n => exact createTransfer_obeys n
  | stream id u => exact onStream_obeys (program_persists _ u _ rfl)

end

/-! ## What belongs to an id -/

/-- What may be said of the summaries of an id: it does not depend on the progress, and the
requests comply with it. -/
structure Belonging (clients : Clients) (count : Nat)
    (belongs : Uuid → TransferSummary → Prop) : Prop where
  transferId : ∀ id summary, belongs id summary → summary.transferId = id
  sameTransfer : ∀ id summary summary', belongs id summary → SameTransfer summary summary' →
    belongs id summary'
  requests : ∀ n < count, (clients.requests n).1.validate = .ok () →
    belongs (clients.requests n).2 ((clients.requests n).1.summary (clients.requests n).2)

/-- All that a server knows, has stored and is about to store belongs to its id. -/
structure Orderly (belongs : Uuid → TransferSummary → Prop)
    (s : Tracked AppTask AppPoint Service) : Prop where
  nodup : (s.shared.rows.map TransferSummary.transferId).Nodup
  rows : ∀ row ∈ s.shared.rows, belongs row.transferId row
  tracked : ∀ id ∈ s.shared.app.tracked, belongs id (s.shared.app.servers id).transfer
  read : ∀ id u summary, s.point (.stream id u) = .streaming (.snapped summary) →
    belongs id summary

/-- The transfer is in memory and in the table. -/
structure Present (id : Uuid) (s : Service) : Prop where
  tracked : id ∈ s.app.tracked
  row : ∃ row ∈ s.rows, row.transferId = id

/-- Nobody is going to take the transfer away: of the requests that draw an id, only the one
that has been answered has drawn this one. -/
def Kept (clients : Clients) (count : Nat) (id : Uuid)
    (s : Tracked AppTask AppPoint Service) : Prop :=
  ∀ n < count, (clients.requests n).2 = id → s.point (.create n) = .creating .stored

section

variable {clients : Clients} {count : Nat} {belongs : Uuid → TransferSummary → Prop}
  {s : Tracked AppTask AppPoint Service} {t : AppTask} {o : AppOp} {c : Choice} {r : o.Reply}
  {s' : Service} {path : Uuid → String} {id : Uuid}

/-- The table after a step, and the transfers. -/
theorem of_serviceExec (h : (serviceMachine path).exec t o c s.shared = some (r, s')) :
    s.shared.app.exec path t o c = some (r, s'.app) ∧ s'.rows = storeRow o c s.shared.rows := by
  obtain ⟨⟨r', app⟩, hexec, heq⟩ := Option.map_eq_some_iff.1 h
  cases heq
  exact ⟨hexec, rfl⟩

/-- The summary that a task stores belongs to its id. -/
theorem belongs_row (hbelonging : Belonging clients count belongs) (hwithin : t.Within count)
    (h : Orderly belongs s) (henabled : (appProtocol clients t).enabled (s.point t) o)
    {row : TransferSummary} (hrow : o.row = some row) : belongs row.transferId row := by
  cases t with
  | create n =>
    generalize s.point (.create n) = pt at henabled
    cases pt with
    | streaming p => cases henabled
    | creating creation =>
      cases creation with
      | reserved =>
        obtain ⟨hvalid, rfl⟩ := henabled
        cases hrow
        exact hbelonging.requests n (hwithin n rfl) hvalid
      | ready =>
        obtain ⟨-, rfl⟩ := henabled
        cases hrow
      | unstored =>
        obtain rfl : o = .remove _ := henabled
        cases hrow
      | stored | refused => cases henabled
  | stream id u =>
    cases hpoint : s.point (.stream id u) with
    | creating creation =>
      rw [hpoint] at henabled
      cases henabled
    | streaming p =>
      rw [hpoint] at henabled
      cases o with
      | stream o =>
        have hpersist : persisting.enabled p o := henabled
        cases o with
        | storeUpsert summary =>
          cases hrow
          cases p with
          | quiet => exact absurd rfl (hpersist row)
          | due => cases hpersist
          | snapped summary =>
            obtain rfl : row = summary := by
              cases hpersist
              rfl
            have hbelongs := h.read id u row hpoint
            rwa [hbelonging.transferId id row hbelongs]
        | _ => cases hrow
      | _ => cases henabled

/-- A request that is reserved belongs to its id. -/
theorem belongs_reserve (hbelonging : Belonging clients count belongs)
    (hwithin : t.Within count) {summary : TransferSummary}
    (henabled : (appProtocol clients t).enabled (s.point t) (.reserve summary)) :
    belongs summary.transferId summary := by
  cases t with
  | create n =>
    generalize s.point (.create n) = pt at henabled
    cases pt with
    | streaming p => cases henabled
    | creating creation =>
      cases creation with
      | ready =>
        obtain ⟨hvalid, ho⟩ := henabled
        cases ho
        exact hbelonging.requests n (hwithin n rfl) hvalid
      | reserved =>
        obtain ⟨-, ho⟩ := henabled
        cases ho
      | unstored => cases henabled
      | stored | refused => cases henabled
  | stream id u =>
    generalize s.point (.stream id u) = pt at henabled
    cases pt <;> cases henabled

/-- What a step does to the transfers of a server: one is inserted, one is removed, or they stay
but for their progress. -/
theorem transfers_of_exec {a a' : AppState} (h : a.exec path t o c = some (r, a')) :
    (∃ summary, o = .reserve summary ∧ a' = a.insert summary) ∨
      (∃ id, o = .remove id ∧ a'.tracked = a.tracked.erase id ∧ a'.servers = a.servers) ∨
      (a'.tracked = a.tracked ∧
        ∀ id, SameTransfer (a.servers id).transfer (a'.servers id).transfer) := by
  cases o with
  | reserve summary =>
    simp only [AppState.exec] at h
    split at h
    · cases h
      exact .inr (.inr ⟨rfl, fun id => rfl⟩)
    · cases h
      exact .inl ⟨summary, rfl, rfl⟩
  | remove id =>
    cases h
    exact .inr (.inl ⟨id, rfl, rfl, rfl⟩)
  | upsert summary =>
    refine .inr (.inr ?_)
    simp only [AppState.exec] at h
    rcases replace_eq c a { a with
      servers := Function.update a.servers summary.transferId
        { a.servers summary.transferId with stored := summary } } with heq | ⟨r', heq⟩
    · rw [heq] at h
      cases h
      exact ⟨rfl, fun id => rfl⟩
    · rw [heq] at h
      cases h
      refine ⟨rfl, fun id => ?_⟩
      by_cases hid : id = summary.transferId
      · subst hid
        simp [SameTransfer]
      · simp [SameTransfer, hid]
  | stream o =>
    refine .inr (.inr ?_)
    cases t with
    | create n => cases h
    | stream id u =>
      simp only [AppState.exec] at h
      split at h
      · obtain ⟨⟨reply, s'⟩, hexec, heq⟩ := Option.map_eq_some_iff.1 h
        cases heq
        refine ⟨rfl, fun j => ?_⟩
        by_cases hj : j = id
        · subst hj
          have hsame := sameTransfer_of_exec hexec (sameTransfer_refl _)
          simpa [AppState.put, AppState.server] using hsame
        · simp [AppState.put, hj, SameTransfer]
      · cases h

/-- The transfers of a server after a step. -/
theorem belongs_tracked (hbelonging : Belonging clients count belongs)
    (hwithin : t.Within count) (h : Orderly belongs s)
    (henabled : (appProtocol clients t).enabled (s.point t) o)
    (hexec : s.shared.app.exec path t o c = some (r, s'.app)) :
    ∀ id ∈ s'.app.tracked, belongs id (s'.app.servers id).transfer := by
  intro id hid
  rcases transfers_of_exec hexec with ⟨summary, rfl, heq⟩ | ⟨j, rfl, htracked, hservers⟩ |
    ⟨htracked, hsame⟩
  · rw [heq] at hid ⊢
    by_cases hj : id = summary.transferId
    · subst hj
      have hrequest := belongs_reserve hbelonging hwithin henabled
      simpa [AppState.insert] using hrequest
    · have hmem : id ∈ s.shared.app.tracked := (Finset.mem_insert.1 hid).resolve_left hj
      simpa [AppState.insert, hj] using h.tracked id hmem
  · rw [htracked] at hid
    rw [hservers]
    exact h.tracked id (Finset.mem_of_mem_erase hid)
  · rw [htracked] at hid
    exact hbelonging.sameTransfer id _ _ (h.tracked id hid) (hsame id)

/-- What a task has read back is what was in memory. -/
theorem transfer_of_snapped {p : Persist} {u : Task} {o : Op} {r : o.Reply} {st st' : State}
    {summary : TransferSummary} (henabled : persisting.enabled p o)
    (hexec : exec u o c st = some (r, st'))
    (hsnapped : persisting.advance p o r = .snapped summary) : summary = st.transfer := by
  cases p with
  | quiet =>
    cases o with
    | markRunning m n b =>
      cases r <;> cases hsnapped
    | _ => cases hsnapped
  | due =>
    obtain rfl : o = .readTransfer := henabled
    cases hexec
    cases hsnapped
    rfl
  | snapped before =>
    obtain rfl : o = .storeUpsert before := henabled
    cases hsnapped

/-- What was read back belongs to its id. -/
theorem belongs_read (h : Orderly belongs s)
    (henabled : (appProtocol clients t).enabled (s.point t) o)
    (hexec : s.shared.app.exec path t o c = some (r, s'.app)) {u : Task}
    {summary : TransferSummary}
    (hpoint : (s.next (appProtocol clients) t o r s').point (.stream id u) =
      .streaming (.snapped summary)) : belongs id summary := by
  by_cases ht : AppTask.stream id u = t
  · subst ht
    simp only [Tracked.next, Function.update_self] at hpoint
    cases hbefore : s.point (.stream id u) with
    | creating creation =>
      rw [hbefore] at henabled
      cases henabled
    | streaming p =>
      rw [hbefore] at henabled hpoint
      cases o with
      | stream o =>
        simp only [AppState.exec] at hexec
        split at hexec
        · rename_i hmem
          obtain ⟨⟨reply, st'⟩, hexec', heq⟩ := Option.map_eq_some_iff.1 hexec
          obtain ⟨rfl, -⟩ := Prod.mk.inj heq
          have hadvance := AppPoint.streaming.inj hpoint
          rw [transfer_of_snapped henabled hexec' hadvance]
          exact h.tracked id hmem
        · cases hexec
      | _ => cases henabled
  · simp only [Tracked.next, Function.update_of_ne ht] at hpoint
    exact h.read id u summary hpoint

/-- **All that a server knows belongs to its id**, after every step. -/
theorem Orderly.step (hbelonging : Belonging clients count belongs) (hwithin : t.Within count)
    (h : Orderly belongs s) (henabled : (appProtocol clients t).enabled (s.point t) o)
    (hexec : (serviceMachine path).exec t o c s.shared = some (r, s')) :
    Orderly belongs (s.next (appProtocol clients) t o r s') := by
  obtain ⟨happ, hrows⟩ := of_serviceExec hexec
  refine ⟨?_, fun row hrow => ?_, belongs_tracked hbelonging hwithin h henabled happ,
    fun id u summary => belongs_read h henabled happ⟩
  · show (s'.rows.map TransferSummary.transferId).Nodup
    rw [hrows]
    exact nodup_storeRow h.nodup
  · have hrow : row ∈ s'.rows := hrow
    rw [hrows] at hrow
    rcases eq_or_mem_storeRow hrow with hmem | hstored
    · exact h.rows row hmem
    · exact belongs_row hbelonging hwithin h henabled hstored

/-- Only the request that has drawn the id takes its transfer away. -/
theorem creates_of_remove (henabled : (appProtocol clients t).enabled (s.point t) (.remove id)) :
    ∃ n, t = .create n ∧ (clients.requests n).2 = id := by
  cases t with
  | create n =>
    refine ⟨n, rfl, ?_⟩
    generalize s.point (.create n) = pt at henabled
    cases pt with
    | streaming p => cases henabled
    | creating creation =>
      cases creation with
      | unstored =>
        have ho : AppOp.remove id = .remove (clients.requests n).2 := henabled
        cases ho
        rfl
      | ready | reserved =>
        obtain ⟨-, ho⟩ := henabled
        cases ho
      | stored | refused => cases henabled
  | stream j u =>
    generalize s.point (.stream j u) = pt at henabled
    cases pt <;> cases henabled

/-- **A transfer that nobody is going to take away stays**, in memory and in the table. -/
theorem Present.step (hwithin : t.Within count) (hpresent : Present id s.shared)
    (hkept : Kept clients count id s)
    (henabled : (appProtocol clients t).enabled (s.point t) o)
    (hexec : (serviceMachine path).exec t o c s.shared = some (r, s')) :
    Present id s' ∧ Kept clients count id (s.next (appProtocol clients) t o r s') := by
  obtain ⟨happ, hrows⟩ := of_serviceExec hexec
  have hother : ∀ n < count, (clients.requests n).2 = id → t ≠ .create n := by
    rintro n hn hid rfl
    rw [hkept n hn hid] at henabled
    cases henabled
  refine ⟨⟨?_, hrows ▸ exists_storeRow hpresent.row⟩, fun n hn hid => ?_⟩
  · rcases transfers_of_exec happ with ⟨summary, -, heq⟩ | ⟨j, rfl, htracked, -⟩ | ⟨htracked, -⟩
    · rw [heq]
      exact Finset.mem_insert_of_mem hpresent.tracked
    · rw [htracked]
      refine Finset.mem_erase.2 ⟨?_, hpresent.tracked⟩
      rintro rfl
      obtain ⟨n, hn, hid⟩ := creates_of_remove henabled
      exact hother n (hwithin n hn) hid hn
    · rw [htracked]
      exact hpresent.tracked
  · have hne := hother n hn hid
    simp only [Tracked.next, Function.update_of_ne hne.symm]
    exact hkept n hn hid

/-- What the requests have come to: one that was reserved is tracked, one that was stored is in
the table as well. -/
structure Created (clients : Clients) (count : Nat) (s : Tracked AppTask AppPoint Service) :
    Prop where
  reserved : ∀ n < count, s.point (.create n) = .creating .reserved →
    (clients.requests n).2 ∈ s.shared.app.tracked
  stored : ∀ n < count, s.point (.create n) = .creating .stored →
    Present (clients.requests n).2 s.shared

/-- A transfer that somebody else's step takes away has been drawn by somebody else. -/
theorem tracked_of_other (hdistinct : Distinct clients count) (hwithin : t.Within count) {n : Nat}
    (hn : n < count) (hne : t ≠ .create n) (hmem : (clients.requests n).2 ∈ s.shared.app.tracked)
    (henabled : (appProtocol clients t).enabled (s.point t) o)
    (happ : s.shared.app.exec path t o c = some (r, s'.app)) :
    (clients.requests n).2 ∈ s'.app.tracked := by
  rcases transfers_of_exec happ with ⟨summary, -, heq⟩ | ⟨j, rfl, htracked, -⟩ | ⟨htracked, -⟩
  · rw [heq]
    exact Finset.mem_insert_of_mem hmem
  · rw [htracked]
    refine Finset.mem_erase.2 ⟨?_, hmem⟩
    rintro rfl
    obtain ⟨m, rfl, hid⟩ := creates_of_remove henabled
    exact hne (congrArg AppTask.create (hdistinct m (hwithin m rfl) n hn hid))
  · rw [htracked]
    exact hmem

/-- What a step of the request itself comes to. -/
theorem created_self {n : Nat} (hn : n < count) (h : Created clients count s)
    (henabled : (appProtocol clients (.create n)).enabled (s.point (.create n)) o)
    (hexec : (serviceMachine path).exec (.create n) o c s.shared = some (r, s')) :
    ((appProtocol clients (.create n)).advance (s.point (.create n)) o r = .creating .reserved →
        (clients.requests n).2 ∈ s'.app.tracked) ∧
      ((appProtocol clients (.create n)).advance (s.point (.create n)) o r = .creating .stored →
        Present (clients.requests n).2 s') := by
  have hreserved := h.reserved n hn
  generalize s.point (.create n) = pt at henabled hreserved
  cases pt with
  | streaming p => cases henabled
  | creating creation =>
    cases creation with
    | ready =>
      obtain ⟨-, rfl⟩ := henabled
      simp only [serviceMachine, Service.exec, AppState.exec] at hexec
      split at hexec
      · cases hexec
        exact ⟨fun hpoint => (by cases hpoint), fun hpoint => by cases hpoint⟩
      · cases hexec
        exact ⟨fun _ => Finset.mem_insert_self _ _, fun hpoint => by cases hpoint⟩
    | reserved =>
      obtain ⟨-, rfl⟩ := henabled
      cases c with
      | ok =>
        cases hexec
        exact ⟨fun hpoint => (by cases hpoint), fun _ => ⟨hreserved rfl, _, mem_put_self, rfl⟩⟩
      | _ =>
        cases hexec
        exact ⟨fun hpoint => (by cases hpoint), fun hpoint => by cases hpoint⟩
    | unstored =>
      obtain rfl : o = .remove _ := henabled
      exact ⟨fun hpoint => (by cases hpoint), fun hpoint => by cases hpoint⟩
    | stored | refused => cases henabled

theorem Created.step (hdistinct : Distinct clients count) (hwithin : t.Within count)
    (h : Created clients count s) (henabled : (appProtocol clients t).enabled (s.point t) o)
    (hexec : (serviceMachine path).exec t o c s.shared = some (r, s')) :
    Created clients count (s.next (appProtocol clients) t o r s') := by
  obtain ⟨happ, hrows⟩ := of_serviceExec hexec
  refine ⟨fun n hn hpoint => ?_, fun n hn hpoint => ?_⟩
  · by_cases ht : AppTask.create n = t
    · subst ht
      simp only [Tracked.next, Function.update_self] at hpoint
      exact (created_self hn h henabled hexec).1 hpoint
    · simp only [Tracked.next, Function.update_of_ne ht] at hpoint
      exact tracked_of_other hdistinct hwithin hn (Ne.symm ht) (h.reserved n hn hpoint) henabled
        happ
  · by_cases ht : AppTask.create n = t
    · subst ht
      simp only [Tracked.next, Function.update_self] at hpoint
      exact (created_self hn h henabled hexec).2 hpoint
    · simp only [Tracked.next, Function.update_of_ne ht] at hpoint
      obtain ⟨htracked, hrow⟩ := h.stored n hn hpoint
      refine ⟨tracked_of_other hdistinct hwithin hn (Ne.symm ht) htracked henabled happ, ?_⟩
      show ∃ row ∈ s'.rows, row.transferId = _
      rw [hrows]
      exact exists_storeRow hrow

end

/-! ## Whatever has been stopped and started -/

/-- Something holds of a server, whose tasks are where it says. -/
def Lifetime.Has (Inv : Clients → Nat → Tracked AppTask AppPoint Service → Prop)
    (l : Lifetime) : Prop :=
  ∃ point, Config.Obedient (appProtocol l.clients) (AppReturned l.clients)
      ⟨⟨l.cfg.shared, point⟩, l.cfg.pool⟩ ∧
    Inv l.clients l.count ⟨l.cfg.shared, point⟩

section

variable {ctx : Uuid → Context} {store : String} {l l' : Lifetime}
  {Inv : Clients → Nat → Tracked AppTask AppPoint Service → Prop}

/-- A run of a server is a part of its lifetime. -/
theorem Lifetime.leads_of_reaches {clients : Clients} {count : Nat}
    {cfg cfg' : Config AppTask AppOp AppOp.Reply Service AppResult}
    (h : Config.Reaches (serviceMachine fun id => (ctx id).final)
      (fun _ t _ _ => t.Within count) cfg cfg') :
    Lifetime.Leads ctx store ⟨clients, count, cfg⟩ ⟨clients, count, cfg'⟩ := by
  induction h with
  | refl => exact .refl
  | @step cfg' t o k c r s _ hpool hwithin hexec ih =>
    refine ih.tail (.step (c := c) hwithin ?_)
    simp only [Config.step?, hpool, hexec, Option.map_some]

theorem Lifetime.has_start {clients : Clients} {count : Nat} {s : Service}
    (h : Inv clients count ⟨s, appStart⟩) : (Lifetime.start ctx store clients count s).Has Inv :=
  ⟨appStart, appProgram_obeys, h⟩

/-- **What a step keeps, and what a new server starts with, holds from then on**, however often
the server is stopped. -/
theorem Lifetime.Has.leads
    (hstep : ∀ clients count, Invariant (serviceMachine fun id => (ctx id).final)
      (appProtocol clients) (fun _ t _ _ => t.Within count) (Inv clients count))
    (hrestart : ∀ clients count clients' count' s persisted, Inv clients count s →
      List.Perm persisted s.shared.rows → FreshIds clients' count' s.shared.rows →
      Inv clients' count' ⟨⟨s.shared.app.new persisted, s.shared.rows⟩, appStart⟩)
    (h : l.Has Inv) (hleads : Lifetime.Leads ctx store l l') : l'.Has Inv := by
  induction hleads with
  | refl => exact h
  | tail _ hnext ih =>
    obtain ⟨point, hobedient, hInv⟩ := ih
    cases hnext with
    | step hwithin hnext =>
      obtain ⟨o, k, r, s', hpool, hexec, rfl⟩ := Config.step?_eq_some hnext
      obtain ⟨hr, hInv'⟩ :=
        hstep _ _ _ _ o _ r s' hInv (hobedient.enabled hpool) hwithin hexec
      exact ⟨_, hobedient.step hpool hr s', hInv'⟩
    | restart hloaded hfresh =>
      exact Lifetime.has_start (hrestart _ _ _ _ _ _ hInv hloaded hfresh)

end

/-! ### What holds of every server -/

theorem sameTransfer_trans {transfer transfer' later : TransferSummary}
    (h : SameTransfer transfer transfer') (h' : SameTransfer transfer' later) :
    SameTransfer transfer later := by
  rw [SameTransfer] at h h' ⊢
  rw [h', h]

theorem transferId_of_same {transfer transfer' : TransferSummary}
    (h : SameTransfer transfer transfer') : transfer'.transferId = transfer.transferId := by
  rw [SameTransfer] at h
  rw [h]

/-- The summaries of the id that a request has drawn are what it has asked for. -/
def createdBy (clients : Clients) (n : Nat) (id : Uuid) (summary : TransferSummary) : Prop :=
  summary.transferId = id ∧ (id = (clients.requests n).2 →
    SameTransfer ((clients.requests n).1.summary id) summary)

/-- The summary is that of a transfer which was accepted. -/
def acceptedAs (id : Uuid) (summary : TransferSummary) : Prop :=
  summary.transferId = id ∧ Client.Accepted summary

section

variable {ctx : Uuid → Context} {store : String} {clients clients' : Clients} {count count' : Nat}
  {belongs : Uuid → TransferSummary → Prop} {s : Tracked AppTask AppPoint Service}
  {persisted : List TransferSummary} {id : Uuid}

theorem belonging_acceptedAs : Belonging clients count acceptedAs where
  transferId _ _ h := h.1
  sameTransfer id summary summary' h hsame := by
    obtain ⟨hid, payload, drawn, hvalid, haccepted⟩ := h
    refine ⟨(transferId_of_same hsame).trans hid, payload, drawn, hvalid, ?_⟩
    exact sameTransfer_trans haccepted hsame
  requests n _ hvalid := ⟨rfl, _, _, hvalid, sameTransfer_refl _⟩

/-- Other clients comply with what was asked for, when they do not draw the id again. -/
theorem belonging_createdBy {n : Nat}
    (hother : ∀ m < count', (clients'.requests m).2 = (clients.requests n).2 →
      clients'.requests m = clients.requests n) :
    Belonging clients' count' (createdBy clients n) where
  transferId _ _ h := h.1
  sameTransfer id summary summary' h hsame := by
    refine ⟨(transferId_of_same hsame).trans h.1, fun hid => ?_⟩
    exact sameTransfer_trans (h.2 hid) hsame
  requests m hm _ := by
    refine ⟨rfl, fun hid => ?_⟩
    rw [hother m hm hid]
    exact sameTransfer_refl _

/-- A new server is orderly when its table is. -/
theorem Orderly.new (hnodup : (s.shared.rows.map TransferSummary.transferId).Nodup)
    (hrows : ∀ row ∈ s.shared.rows, belongs row.transferId row)
    (hloaded : persisted.Perm s.shared.rows) :
    Orderly belongs ⟨⟨s.shared.app.new persisted, s.shared.rows⟩, appStart⟩ where
  nodup := hnodup
  rows := hrows
  tracked id hid := by
    have hserved : getTransfer (s.shared.app.new persisted) id = .ok _ := if_pos hid
    obtain ⟨hmem, hid⟩ := (getTransfer_new hnodup hloaded).1 hserved
    have hbelongs := hrows _ hmem
    rwa [hid] at hbelongs
  read id u summary hpoint := by cases hpoint

/-- What holds of every server, whatever has been before it. -/
structure ServiceSound (clients : Clients) (count : Nat) (s : Tracked AppTask AppPoint Service) :
    Prop where
  distinct : Distinct clients count
  accepted : Orderly acceptedAs s
  created : ∀ n < count, Orderly (createdBy clients n) s
  kept : Created clients count s

theorem serviceSound_invariant (path : Uuid → String) (clients : Clients) (count : Nat) :
    Invariant (serviceMachine path) (appProtocol clients) (fun _ t _ _ => t.Within count)
      (ServiceSound clients count) := by
  intro s t o c r s' h henabled hwithin hexec
  refine ⟨by cases t <;> trivial, h.distinct, ?_, fun n hn => ?_, ?_⟩
  · exact h.accepted.step belonging_acceptedAs hwithin henabled hexec
  · refine (h.created n hn).step (belonging_createdBy fun m hm hid => ?_) hwithin henabled hexec
    rw [h.distinct m hm n hn hid]
  · exact h.kept.step h.distinct hwithin henabled hexec

/-- A table in which nothing has been created by the requests. -/
theorem serviceSound_new (h : Orderly acceptedAs s) (hloaded : persisted.Perm s.shared.rows)
    (hfresh : FreshIds clients' count' s.shared.rows) :
    ServiceSound clients' count' ⟨⟨s.shared.app.new persisted, s.shared.rows⟩, appStart⟩ where
  distinct := hfresh.distinct
  accepted := .new h.nodup h.rows hloaded
  created n hn := by
    refine .new h.nodup (fun row hrow => ⟨rfl, fun hid => ?_⟩) hloaded
    exact absurd hid (hfresh.new n hn row hrow)
  kept := ⟨fun n _ hpoint => (by cases hpoint), fun n _ hpoint => by cases hpoint⟩

/-- **Every server is sound**, the first of which starts with an empty table. -/
theorem serviceSound_of_leads (hdistinct : Distinct clients count) {a : AppState}
    (hempty : a.tracked = ∅) {l : Lifetime}
    (hreached : Lifetime.Leads ctx store (.start ctx store clients count ⟨a, []⟩) l) :
    l.Has ServiceSound := by
  refine Lifetime.Has.leads (fun clients count => serviceSound_invariant _ clients count)
    (fun _ _ _ _ _ _ h hloaded hfresh => serviceSound_new h.accepted hloaded hfresh) ?_ hreached
  have horderly : ∀ belongs, Orderly belongs ⟨⟨a, []⟩, appStart⟩ := by
    intro belongs
    refine ⟨List.nodup_nil, by simp, fun id hid => ?_, fun id u summary hpoint => ?_⟩
    · rw [hempty] at hid
      exact absurd hid (Finset.notMem_empty id)
    · cases hpoint
  exact Lifetime.has_start ⟨hdistinct, horderly _, fun n _ => horderly _,
    fun n _ hpoint => (by cases hpoint), fun n _ hpoint => by cases hpoint⟩

/-! ### A transfer that was created -/

/-- The transfer that a request has created is there, and nothing is going to change it but its
progress. -/
structure Lasting (belongs : Uuid → TransferSummary → Prop) (id : Uuid) (clients : Clients)
    (count : Nat) (s : Tracked AppTask AppPoint Service) : Prop where
  belonging : Belonging clients count belongs
  orderly : Orderly belongs s
  present : Present id s.shared
  kept : Kept clients count id s

theorem lasting_invariant (path : Uuid → String) (clients : Clients) (count : Nat) :
    Invariant (serviceMachine path) (appProtocol clients) (fun _ t _ _ => t.Within count)
      (Lasting belongs id clients count) := by
  intro s t o c r s' h henabled hwithin hexec
  obtain ⟨hpresent, hkept⟩ := h.present.step hwithin h.kept henabled hexec
  exact ⟨by cases t <;> trivial, h.belonging, h.orderly.step h.belonging hwithin henabled hexec,
    hpresent, hkept⟩

/-- It outlasts the server. -/
theorem lasting_new {n : Nat}
    (h : Lasting (createdBy clients n) (clients.requests n).2 clients' count' s)
    (hloaded : persisted.Perm s.shared.rows) {others : Clients} {expected : Nat}
    (hfresh : FreshIds others expected s.shared.rows) :
    Lasting (createdBy clients n) (clients.requests n).2 others expected
      ⟨⟨s.shared.app.new persisted, s.shared.rows⟩, appStart⟩ := by
  obtain ⟨row, hrow, hid⟩ := h.present.row
  have hnew : ∀ m < expected, (others.requests m).2 ≠ (clients.requests n).2 := by
    intro m hm heq
    exact hfresh.new m hm row hrow (hid.trans heq.symm)
  refine ⟨belonging_createdBy fun m hm heq => absurd heq (hnew m hm), ?_, ⟨?_, row, hrow, hid⟩,
    fun m hm heq => absurd heq (hnew m hm)⟩
  · exact .new h.orderly.nodup h.orderly.rows hloaded
  · rw [← hid]
    exact List.mem_toFinset.2 (List.mem_map_of_mem (hloaded.mem_iff.2 hrow))

end

namespace Scenario

/-- The first request has been answered with success. -/
def firstCreated (cfg : Config AppTask AppOp AppOp.Reply Service AppResult) : Bool :=
  match cfg.pool (.create 0) with
  | .ret (.created (.ok _)) => true
  | _ => false

theorem of_firstCreated {cfg : Config AppTask AppOp AppOp.Reply Service AppResult}
    (h : firstCreated cfg = true) :
    ∃ response, cfg.pool (.create 0) = .ret (.created (.ok response)) := by
  unfold firstCreated at h
  split at h
  · exact ⟨_, by assumption⟩
  · cases h

/-- The step is not one of the requests behind the first. -/
def onlyFirst (_ : Service) (t : AppTask) (_ : AppOp) (_ : Choice) : Bool :=
  match t with
  | .create n => n < 1
  | .stream _ _ => true

theorem within_of_onlyFirst {s : Service} {t : AppTask} {o : AppOp} {c : Choice}
    (h : onlyFirst s t o c = true) : t.Within 1 := by
  rintro n rfl
  exact of_decide_eq_true h

/-- One request is sent, and answered. -/
theorem first_created : ∃ cfg response,
    Lifetime.Leads appCtx "store" (.start appCtx "store" many 1 ⟨emptyApp, []⟩) ⟨many, 1, cfg⟩ ∧
      cfg.pool (.create 0) = .ret (.created (.ok response)) := by
  have hrun : ((Lifetime.start appCtx "store" many 1 ⟨emptyApp, []⟩).cfg.runIf
      (serviceMachine fun id => (appCtx id).final) onlyFirst (turns [(.create 0, 2)])).any
      firstCreated = true := by
    decide +kernel
  obtain ⟨cfg, hreaches, hcreated⟩ :=
    Config.reaches_of_runIf_any (fun _ _ _ _ h => within_of_onlyFirst h) hrun
  obtain ⟨response, hresponse⟩ := of_firstCreated hcreated
  exact ⟨cfg, response, Lifetime.leads_of_reaches hreaches, hresponse⟩

theorem distinct_one (clients : Clients) : Distinct clients 1 := by
  intro m hm n hn _
  omega

end Scenario

/-- **A transfer whose creation was answered with success is there ever after**: whatever the
requests and the streams do then and whatever fails, and however often the server is stopped and
started again, it is served with all that was asked for; only its progress may be another. -/
theorem created_survives (ctx : Uuid → Context) (store : String) {clients : Clients} {count : Nat}
    (hdistinct : Distinct clients count) {a : AppState} (hempty : a.tracked = ∅) {l l' : Lifetime}
    (hreached : Lifetime.Leads ctx store (.start ctx store clients count ⟨a, []⟩) l) {n : Nat}
    (hn : n < l.count) {response : CreateTransferResponse}
    (hcreated : l.cfg.pool (.create n) = .ret (.created (.ok response)))
    (hlater : Lifetime.Leads ctx store l l') :
    response.transferId = (l.clients.requests n).2 ∧
      ∃ summary, getTransfer l'.cfg.shared.app response.transferId = .ok summary ∧
        SameTransfer ((l.clients.requests n).1.summary response.transferId) summary := by
  obtain ⟨point, hobedient, hsound⟩ := serviceSound_of_leads hdistinct hempty hreached
  obtain ⟨hpoint, -, hid⟩ := hobedient.returned hcreated
  have hlasting : l.Has (Lasting (createdBy l.clients n) (l.clients.requests n).2) := by
    refine ⟨point, hobedient, belonging_createdBy fun m hm heq => ?_, hsound.created n hn,
      hsound.kept.stored n hn hpoint, fun m hm heq => ?_⟩
    · rw [hsound.distinct m hm n hn heq]
    · rw [hsound.distinct m hm n hn heq]
      exact hpoint
  obtain ⟨point', -, h⟩ := hlasting.leads (fun clients count => lasting_invariant _ clients count)
    (fun _ _ _ _ _ _ h hloaded hfresh => lasting_new h hloaded hfresh) hlater
  rw [hid]
  refine ⟨rfl, _, if_pos h.present.tracked, ?_⟩
  exact (h.orderly.tracked _ h.present.tracked).2 rfl

open Scenario in
/-- The transfer is served by a server that has been started since. -/
theorem created_survives_restart :
    ∃ l id summary, Lifetime.Leads appCtx "store"
        (.start appCtx "store" many 1 ⟨emptyApp, []⟩) l ∧ l.count = 0 ∧
      getTransfer l.cfg.shared.app id = .ok summary ∧ SameTransfer (small.summary id) summary := by
  obtain ⟨cfg, response, hreached, hcreated⟩ := first_created
  have hfresh : FreshIds many 0 cfg.shared.rows :=
    ⟨fun m hm => absurd hm (Nat.not_lt_zero m), fun n hn => absurd hn (Nat.not_lt_zero n)⟩
  have hnext : Lifetime.Next appCtx "store" ⟨many, 1, cfg⟩ _ :=
    .restart (List.Perm.refl cfg.shared.rows) hfresh
  obtain ⟨-, summary, hserved, hsame⟩ := created_survives appCtx "store" (distinct_one many) rfl
    hreached (Nat.zero_lt_one) hcreated (.single hnext)
  exact ⟨_, response.transferId, summary, hreached.tail hnext, rfl, hserved, hsame⟩

/-- **A transfer that is served was accepted**, by this server or by one before it. -/
theorem served_accepted (ctx : Uuid → Context) (store : String) {clients : Clients} {count : Nat}
    (hdistinct : Distinct clients count) {a : AppState} (hempty : a.tracked = ∅) {l : Lifetime}
    (hreached : Lifetime.Leads ctx store (.start ctx store clients count ⟨a, []⟩) l) {id : Uuid}
    {summary : TransferSummary} (hserved : getTransfer l.cfg.shared.app id = .ok summary) :
    summary.transferId = id ∧ Client.Accepted summary := by
  obtain ⟨point, -, hsound⟩ := serviceSound_of_leads hdistinct hempty hreached
  rw [getTransfer] at hserved
  split at hserved
  · rename_i hmem
    cases hserved
    exact hsound.accepted.tracked id hmem
  · cases hserved

open Scenario in
/-- The transfer that was created is served. -/
theorem served_accepted_first :
    ∃ l id summary, Lifetime.Leads appCtx "store"
        (.start appCtx "store" many 1 ⟨emptyApp, []⟩) l ∧
      getTransfer l.cfg.shared.app id = .ok summary ∧ Client.Accepted summary := by
  have hrun : ((Lifetime.start appCtx "store" many 1 ⟨emptyApp, []⟩).cfg.runIf
      (serviceMachine fun id => (appCtx id).final) onlyFirst (turns [(.create 0, 2)])).any
      (fun cfg => decide (idOf 0 ∈ cfg.shared.app.tracked)) = true := by
    decide +kernel
  obtain ⟨cfg, hreaches, htracked⟩ :=
    Config.reaches_of_runIf_any (fun _ _ _ _ h => within_of_onlyFirst h) hrun
  have hreached : Lifetime.Leads appCtx "store" (.start appCtx "store" many 1 ⟨emptyApp, []⟩)
      ⟨many, 1, cfg⟩ := Lifetime.leads_of_reaches hreaches
  have hserved : getTransfer cfg.shared.app (idOf 0) = .ok _ := if_pos (of_decide_eq_true htracked)
  exact ⟨_, _, _, hreached, hserved,
    (served_accepted appCtx "store" (distinct_one many) rfl hreached hserved).2⟩

end Metra.Server
