import Mathlib.Data.Finset.Card
import Mathlib.Data.Finset.Image
import Metra.Api
import Metra.Server.Completed

/-!
# The number of active transfers

`create_transfer` refuses a transfer when so many are queued or running already; every
other write of a status is made without such a look.  An `AppState` is what the server
keeps of all its transfers: the map, and for each of them what the lane streams share.

* `createTransfer` — the handler, from the checks to the answer;
* `capacity_kept` — in a run in which a transfer that has ended is marked as running only
  while there is room, the active transfers are never too many;
* `capacity_exceeded` — a failed transfer that is opened again when the server is full.
-/

namespace Metra.Server

open Interleave

/-- How many transfers may be active at a time. -/
def maxTrackedTransfers : Nat := 1024

/-! ## All transfers -/

/-- The transfers that the server tracks, what it keeps of each, and the files, of which
transfers with one final path share that. -/
structure AppState where
  tracked : Finset Uuid
  servers : Uuid → State
  inode : Nat → Inode
  nextInode : Nat
  final : String → Option Nat

/-- A transfer that has not ended. -/
def isActive : TransferStatus → Bool
  | .queued | .running => true
  | .completed | .failed => false

namespace AppState

/-- What the streams of a transfer see, when the final path is `path`. -/
def server (a : AppState) (path : Uuid → String) (id : Uuid) : State :=
  { a.servers id with disk := { (a.servers id).disk with
      inode := a.inode, nextInode := a.nextInode, final := a.final (path id) } }

/-- Write back what a step has done to the server of a transfer and to the files it shares. -/
def put (a : AppState) (path : Uuid → String) (id : Uuid) (s : State) : AppState :=
  { a with
    servers := Function.update a.servers id s
    inode := s.disk.inode
    nextInode := s.disk.nextInode
    final := Function.update a.final (path id) s.disk.final }

/-- The status of a transfer. -/
def statusOf (a : AppState) (id : Uuid) : TransferStatus := (a.servers id).transfer.status

/-- How many transfers are active. -/
def activeTransfers (a : AppState) : Nat :=
  (a.tracked.filter fun id => isActive (a.statusOf id) = true).card

/-- Track a transfer. -/
def insert (a : AppState) (summary : TransferSummary) : AppState :=
  { a with
    tracked := Insert.insert summary.transferId a.tracked
    servers := Function.update a.servers summary.transferId
      { a.servers summary.transferId with transfer := summary } }

end AppState

/-- A call of `create_transfer`, or a task of a stream. -/
inductive AppTask
  | create (n : Nat)
  | stream (id : Uuid) (task : Task)
  deriving DecidableEq

/-- What a task of the whole server does: the steps of `create_transfer`, and those of a stream. -/
inductive AppOp
  /-- Count the active transfers and insert one more, under one guard of the map. -/
  | reserve (summary : TransferSummary)
  | upsert (summary : TransferSummary)
  | remove (transferId : Uuid)
  | stream (o : Op)

/-- What these operations give back. -/
@[reducible] def AppOp.Reply : AppOp → Type
  | .reserve _ => Bool
  | .upsert _ => Option Unit
  | .remove _ => Unit
  | .stream o => o.Reply

/-- The streams of a transfer that is not tracked do not go on. -/
def AppState.exec (path : Uuid → String) :
    AppTask → (o : AppOp) → Choice → AppState → Option (o.Reply × AppState)
  | _, .reserve summary, _, a =>
    if a.activeTransfers ≥ maxTrackedTransfers then some (false, a)
    else some (true, a.insert summary)
  | _, .upsert summary, c, a =>
    some (replace c { a with
      servers := Function.update a.servers summary.transferId
        { a.servers summary.transferId with stored := summary } } a)
  | _, .remove id, _, a => some ((), { a with tracked := a.tracked.erase id })
  | .stream id t, .stream o, c, a =>
    if id ∈ a.tracked then
      (Server.exec t o c (a.server path id)).map fun out => (out.1, a.put path id out.2)
    else none
  | .create _, .stream _, _, _ => none

/-- The server, with all its transfers. -/
def appMachine (path : Uuid → String) : Machine AppTask AppOp AppOp.Reply Choice AppState :=
  ⟨AppState.exec path⟩

/-! ## The programs -/

/-- How a request is refused. -/
structure ErrorResponse where
  statusCode : Nat
  code : String
  message : String

/-- How a request is answered that has been accepted. -/
structure CreateTransferResponse where
  transferId : Uuid
  status : TransferStatus
  resumeChunkSizeBytes : Nat

/-- What the tasks of the server end with. -/
inductive AppResult
  | created (response : Except ErrorResponse CreateTransferResponse)
  | streamed (result : Except String Unit)

/-- The handler of `POST /v1/transfers`, with the id that it draws. -/
def createTransfer (store : String) (payload : CreateTransferRequest) (transferId : Uuid) :
    Prog AppOp AppOp.Reply (Except ErrorResponse CreateTransferResponse) :=
  match payload.validate with
  | .error message => .ret (.error ⟨400, "validation_error", message⟩)
  | .ok () =>
    .act (.reserve (payload.summary transferId)) fun
      | false => .ret (.error ⟨429, "transfer_limit_reached",
          s!"server is at capacity (max {maxTrackedTransfers} active transfers)"⟩)
      | true => .act (.upsert (payload.summary transferId)) fun
        | none => .act (.remove transferId) fun _ => .ret (.error ⟨500, "internal_error",
            s!"failed persisting transfer {transferId}: failed upserting transfer in {store}"⟩)
        | some () => .ret (.ok ⟨transferId, .queued, payload.resumeChunkSizeBytes⟩)

/-- A program that gives its result another form. -/
def returning {α : Type} (result : α → AppResult) :
    Prog AppOp AppOp.Reply α → Prog AppOp AppOp.Reply AppResult
  | .ret a => .ret (result a)
  | .act o k => .act o fun r => returning result (k r)

/-- A program of a stream among those of the whole server. -/
def onStream : Prog Op Op.Reply (Except String Unit) → Prog AppOp AppOp.Reply AppResult
  | .ret a => .ret (.streamed a)
  | .act o k => .act (.stream o) fun r => onStream (k r)

/-- What the clients send: any number of requests, each with the id that it gets, and any
number of streams for every transfer. -/
structure Clients where
  requests : Nat → CreateTransferRequest × Uuid
  streams : Uuid → Nat → Option LaneStream

/-- The programs of a server. -/
def appProgram (ctx : Uuid → Context) (store : String) (clients : Clients) :
    AppTask → Prog AppOp AppOp.Reply AppResult
  | .create n => returning .created
      (createTransfer store (clients.requests n).1 (clients.requests n).2)
  | .stream id t => onStream (program (ctx id) (clients.streams id) t)

/-! ## The condition -/

/-- A transfer that has ended is marked as running only while there is room for it. -/
def ReactivatesWithRoom (a : AppState) (t : AppTask) (o : AppOp) (_ : Choice) : Prop :=
  ∀ id u, t = .stream id u →
    ((∃ m n b, o = .stream (.markRunning m n b)) ∨
      ∃ status b, o = .stream (.setStatus status b) ∧ isActive status = true) →
    isActive (a.statusOf id) = false → a.activeTransfers < maxTrackedTransfers

/-! ## The bound -/

section

variable {a a' : AppState} {path : Uuid → String} {t : AppTask} {o : AppOp} {c : Choice}
  {r : o.Reply} {id : Uuid}

/-- One transfer at most is active that was not. -/
theorem active_le_succ (id : Uuid)
    (h : ∀ j ∈ a'.tracked, j ≠ id → isActive (a'.statusOf j) = true →
      j ∈ a.tracked ∧ isActive (a.statusOf j) = true) :
    a'.activeTransfers ≤ a.activeTransfers + 1 := by
  unfold AppState.activeTransfers
  refine le_trans (Finset.card_le_card ?_) (Finset.card_insert_le id _)
  intro j hj
  obtain ⟨hmem, hactive⟩ := Finset.mem_filter.1 hj
  by_cases hid : j = id
  · subst hid
    exact Finset.mem_insert_self _ _
  · exact Finset.mem_insert_of_mem (Finset.mem_filter.2 (h j hmem hid hactive))

/-- No transfer is active that was not. -/
theorem active_le
    (h : ∀ j ∈ a'.tracked, isActive (a'.statusOf j) = true →
      j ∈ a.tracked ∧ isActive (a.statusOf j) = true) :
    a'.activeTransfers ≤ a.activeTransfers := by
  refine Finset.card_le_card fun j hj => ?_
  obtain ⟨hmem, hactive⟩ := Finset.mem_filter.1 hj
  exact Finset.mem_filter.2 (h j hmem hactive)

theorem statusOf_insert_of_ne {summary : TransferSummary} {j : Uuid}
    (hj : j ≠ summary.transferId) : (a.insert summary).statusOf j = a.statusOf j := by
  simp [AppState.statusOf, AppState.insert, hj]

theorem statusOf_put_of_ne {s : State} {j : Uuid} (hj : j ≠ id) :
    (a.put path id s).statusOf j = a.statusOf j := by
  simp [AppState.statusOf, AppState.put, hj]

theorem statusOf_put_self {s : State} : (a.put path id s).statusOf id = s.transfer.status := by
  simp [AppState.statusOf, AppState.put]

/-- Storing a summary changes no status. -/
theorem statusOf_upsert {summary : TransferSummary} {j : Uuid} :
    AppState.statusOf { a with
      servers := Function.update a.servers summary.transferId
        { a.servers summary.transferId with stored := summary } } j = a.statusOf j := by
  by_cases hj : j = summary.transferId
  · subst hj
    simp [AppState.statusOf]
  · simp [AppState.statusOf, hj]

/-- A transfer becomes active by being marked as running, or by its status being set. -/
theorem active_of_exec {u : Task} {o : Op} {r : o.Reply} {s s' : State}
    (h : exec u o c s = some (r, s')) (hactive : isActive s'.transfer.status = true) :
    isActive s.transfer.status = true ∨ (∃ m n b, o = .markRunning m n b) ∨
      ∃ status b, o = .setStatus status b ∧ isActive status = true := by
  rcases status_of_exec h with heq | ⟨m, n, b, ho, -⟩ | ⟨status, b, ho, heq⟩
  · rw [heq] at hactive
    exact .inl hactive
  · exact .inr (.inl ⟨m, n, b, ho⟩)
  · rw [heq] at hactive
    exact .inr (.inr ⟨status, b, ho, hactive⟩)

/-- A step of a stream that makes no transfer active, or one while there is room. -/
theorem active_put_le {u : Task} {o : Op} {r : o.Reply} {s' : State}
    (hallowed : ReactivatesWithRoom a (.stream id u) (.stream o) c)
    (hexec : exec u o c (a.server path id) = some (r, s'))
    (hle : a.activeTransfers ≤ maxTrackedTransfers) :
    (a.put path id s').activeTransfers ≤ maxTrackedTransfers := by
  by_cases hnew : isActive s'.transfer.status = true ∧ isActive (a.statusOf id) = false
  · have hroom : a.activeTransfers < maxTrackedTransfers := by
      refine hallowed id u rfl ?_ hnew.2
      rcases active_of_exec hexec hnew.1 with hbefore | ⟨m, n, b, rfl⟩ | ⟨status, b, rfl, hst⟩
      · have hsame : (a.server path id).transfer.status = a.statusOf id := rfl
        rw [hsame, hnew.2] at hbefore
        cases hbefore
      · exact .inl ⟨m, n, b, rfl⟩
      · exact .inr ⟨status, b, rfl, hst⟩
    have hsucc : (a.put path id s').activeTransfers ≤ a.activeTransfers + 1 := by
      refine active_le_succ id fun j hmem hj hactive => ?_
      rw [statusOf_put_of_ne hj] at hactive
      exact ⟨hmem, hactive⟩
    omega
  · have hsame : (a.put path id s').activeTransfers ≤ a.activeTransfers := by
      refine active_le fun j hmem hactive => ⟨hmem, ?_⟩
      by_cases hj : j = id
      · subst hj
        rw [statusOf_put_self] at hactive
        by_contra hended
        exact hnew ⟨hactive, by simpa using hended⟩
      · rwa [statusOf_put_of_ne hj] at hactive
    omega

/-- **A step keeps the bound.** -/
theorem capacity_step (hallowed : ReactivatesWithRoom a t o c)
    (hexec : (appMachine path).exec t o c a = some (r, a'))
    (hle : a.activeTransfers ≤ maxTrackedTransfers) :
    a'.activeTransfers ≤ maxTrackedTransfers := by
  cases o with
  | reserve summary =>
    simp only [appMachine, AppState.exec] at hexec
    split at hexec
    · cases hexec
      exact hle
    · rename_i hroom
      cases hexec
      have hsucc : (a.insert summary).activeTransfers ≤ a.activeTransfers + 1 := by
        refine active_le_succ summary.transferId fun j hmem hj hactive => ?_
        rw [statusOf_insert_of_ne hj] at hactive
        exact ⟨(Finset.mem_insert.1 hmem).resolve_left hj, hactive⟩
      omega
  | upsert summary =>
    simp only [appMachine, AppState.exec] at hexec
    rcases replace_eq c a { a with
      servers := Function.update a.servers summary.transferId
        { a.servers summary.transferId with stored := summary } } with heq | ⟨r', heq⟩
    · rw [heq] at hexec
      cases hexec
      exact hle
    · rw [heq] at hexec
      cases hexec
      refine le_trans (active_le fun j hmem hactive => ?_) hle
      rw [statusOf_upsert] at hactive
      exact ⟨hmem, hactive⟩
  | remove id =>
    cases hexec
    exact le_trans (active_le fun j hmem hactive => ⟨Finset.mem_of_mem_erase hmem, hactive⟩) hle
  | stream o =>
    cases t with
    | create n => cases hexec
    | stream id u =>
      simp only [appMachine, AppState.exec] at hexec
      split at hexec
      · obtain ⟨⟨reply, s'⟩, hexec', heq⟩ := Option.map_eq_some_iff.1 hexec
        cases heq
        exact active_put_le hallowed hexec' hle
      · cases hexec

end

/-- A server that has just been started, with nothing stored. -/
def startApp (ctx : Uuid → Context) (store : String) (clients : Clients) (a : AppState) :
    Config AppTask AppOp AppOp.Reply AppState AppResult :=
  ⟨a, appProgram ctx store clients⟩

/-- **The active transfers are never too many**, in runs that mark a transfer that has
ended as running only while there is room. -/
theorem capacity_kept (ctx : Uuid → Context) (store : String) (clients : Clients) {a : AppState}
    (hempty : a.tracked = ∅) {cfg : Config AppTask AppOp AppOp.Reply AppState AppResult}
    (hreaches : Config.Reaches (appMachine fun id => (ctx id).final) ReactivatesWithRoom
      (startApp ctx store clients a) cfg) :
    cfg.shared.activeTransfers ≤ maxTrackedTransfers := by
  induction hreaches with
  | refl =>
    show (a.tracked.filter _).card ≤ maxTrackedTransfers
    rw [hempty]
    exact Nat.zero_le _
  | step _ _ hallowed hexec ih => exact capacity_step hallowed hexec ih

/-! ## A full server -/

namespace Scenario

/-- The id that the `n`-th request gets. -/
def idOf (n : Nat) : Uuid := ⟨Bytes.toLeBytes 16 n, Bytes.length_toLeBytes 16 n⟩

theorem idOf_inj {m n : Nat} (hm : m < 256 ^ 16) (hn : n < 256 ^ 16) (h : idOf m = idOf n) :
    m = n := by
  have hbytes : Bytes.toLeBytes 16 m = Bytes.toLeBytes 16 n := congrArg Uuid.bytes h
  rw [← Bytes.ofLeBytes_toLeBytes hm, ← Bytes.ofLeBytes_toLeBytes hn, hbytes]

/-- A request for 2 bytes. -/
def small : CreateTransferRequest where
  tenantId := "t"
  userId := "u"
  sourceUri := "file:///a.bin"
  destinationUri := "file:///a.bin"
  fileName := "a.bin"
  fileSizeBytes := 2
  resumeChunkSizeBytes := resumeChunkSizeBytes
  overwrite := true
  immutableDestination := false

/-- Requests for one small file each, the first of which is sent twice. -/
def many : Clients where
  requests n := (small, idOf n)
  streams id i := if id = idOf 0 then [lane [7, 8] 1 0, lane [7, 8] 1 0][i]? else none

/-- A server that tracks no transfer. -/
def emptyApp : AppState where
  tracked := ∅
  servers id := start (small.summary id) noFiles
  inode _ := ⟨[], []⟩
  nextInode := 0
  final _ := none

/-- All transfers go to the same path. -/
abbrev appCtx : Uuid → Context := fun _ => ctx

/-- The server with that path. -/
abbrev oneMachine : Machine AppTask AppOp AppOp.Reply Choice AppState :=
  appMachine fun id => (appCtx id).final

/-- Runs of the streams of one transfer are runs of the whole server. -/
theorem reaches_onStream {path : Uuid → String} {id : Uuid}
    {c c' : Config Task Op Op.Reply State (Except String Unit)}
    {cfg : Config AppTask AppOp AppOp.Reply AppState AppResult}
    (h : Config.Reaches machine (fun _ _ _ _ => True) c c') (hmem : id ∈ cfg.shared.tracked)
    (hserver : cfg.shared.server path id = c.shared)
    (hpool : ∀ u, cfg.pool (.stream id u) = onStream (c.pool u)) :
    ∃ cfg', Config.Reaches (appMachine path) (fun _ _ _ _ => True) cfg cfg' ∧
      cfg'.shared.tracked = cfg.shared.tracked ∧
      (∀ j, j ≠ id → cfg'.shared.statusOf j = cfg.shared.statusOf j) ∧
      cfg'.shared.server path id = c'.shared ∧
      (∀ u, cfg'.pool (.stream id u) = onStream (c'.pool u)) ∧
      ∀ n, cfg'.pool (.create n) = cfg.pool (.create n) := by
  induction h with
  | refl => exact ⟨cfg, .refl, rfl, fun _ _ => rfl, hserver, hpool, fun _ => rfl⟩
  | @step c' t o k choice r s' _ hpool' _ hexec ih =>
    obtain ⟨cfg', hto, htracked, hothers, hserver', hpools, hcreate⟩ := ih
    have hact : cfg'.pool (.stream id t) = .act (.stream o) fun r => onStream (k r) := by
      rw [hpools, hpool']
      rfl
    have hexec' : (appMachine path).exec (.stream id t) (.stream o) choice cfg'.shared =
        some (r, cfg'.shared.put path id s') := by
      have hrun : exec t o choice (cfg'.shared.server path id) = some (r, s') := by
        rw [hserver']
        exact hexec
      simp only [appMachine, AppState.exec, htracked, if_pos hmem, hrun, Option.map_some]
    refine ⟨_, hto.step hact trivial hexec', htracked, fun j hj => ?_, ?_, fun u => ?_,
      fun n => ?_⟩
    · rw [← hothers j hj]
      exact statusOf_put_of_ne hj
    · simp [AppState.server, AppState.put]
    · by_cases hu : u = t
      · subst hu
        simp
      · have hne : AppTask.stream id u ≠ .stream id t := by simpa using hu
        show Function.update cfg'.pool _ _ (AppTask.stream id u) =
          onStream (Function.update c'.pool t (k r) u)
        rw [Function.update_of_ne hne, Function.update_of_ne hu]
        exact hpools u
    · have hne : AppTask.create n ≠ .stream id t := by simp
      exact (Config.pool_update_of_ne hne).trans (hcreate n)

/-- So many of the requests have been taken, of which the first transfer has failed and the
others are queued. -/
structure Filled (n : Nat) (server : State)
    (pool : Task → Prog Op Op.Reply (Except String Unit))
    (cfg : Config AppTask AppOp AppOp.Reply AppState AppResult) : Prop where
  tracked : cfg.shared.tracked = (Finset.range (n + 1)).image idOf
  queued : ∀ m, 0 < m → m ≤ n → cfg.shared.statusOf (idOf m) = .queued
  first : cfg.shared.server (fun id => (appCtx id).final) (idOf 0) = server
  streams : ∀ u, cfg.pool (.stream (idOf 0) u) = onStream (pool u)
  requests : ∀ m, n < m → cfg.pool (.create m) = appProgram appCtx "store" many (.create m)

theorem activeTransfers_le_of_filled {n : Nat} {server : State}
    {pool : Task → Prog Op Op.Reply (Except String Unit)}
    {cfg : Config AppTask AppOp AppOp.Reply AppState AppResult} (h : Filled n server pool cfg)
    (hfailed : server.transfer.status = .failed) : cfg.shared.activeTransfers ≤ n := by
  have hsub : (cfg.shared.tracked.filter fun id => isActive (cfg.shared.statusOf id) = true) ⊆
      (Finset.range n).image fun m => idOf (m + 1) := by
    intro id hid
    obtain ⟨hmem, hactive⟩ := Finset.mem_filter.1 hid
    rw [h.tracked] at hmem
    obtain ⟨m, hm, rfl⟩ := Finset.mem_image.1 hmem
    have hlt := Finset.mem_range.1 hm
    rcases Nat.eq_zero_or_pos m with rfl | hpos
    · have hstatus : cfg.shared.statusOf (idOf 0) = .failed := by
        rw [← hfailed, ← h.first]
        rfl
      rw [hstatus] at hactive
      cases hactive
    · exact Finset.mem_image.2 ⟨m - 1, Finset.mem_range.2 (by omega), by
        rw [Nat.sub_add_cancel hpos]⟩
  calc cfg.shared.activeTransfers
      ≤ ((Finset.range n).image fun m => idOf (m + 1)).card := Finset.card_le_card hsub
    _ ≤ (Finset.range n).card := Finset.card_image_le
    _ = n := Finset.card_range n

/-- As long as there is room, one more request is taken. -/
theorem filled_succ {n : Nat} {server : State}
    {pool : Task → Prog Op Op.Reply (Except String Unit)}
    {cfg : Config AppTask AppOp AppOp.Reply AppState AppResult} (h : Filled n server pool cfg)
    (hfailed : server.transfer.status = .failed) (hroom : n < maxTrackedTransfers) :
    ∃ cfg', Config.Reaches oneMachine (fun _ _ _ _ => True) cfg cfg' ∧
      Filled (n + 1) server pool cfg' := by
  have hle := activeTransfers_le_of_filled h hfailed
  have hvalid : small.validate = .ok () := by decide +kernel
  obtain ⟨k, hact⟩ : ∃ k, cfg.pool (.create (n + 1)) =
      .act (.reserve (small.summary (idOf (n + 1)))) k := by
    rw [h.requests (n + 1) (Nat.lt_succ_self n)]
    simp only [appProgram, many, createTransfer, hvalid]
    exact ⟨_, rfl⟩
  have hexec : oneMachine.exec (.create (n + 1)) (.reserve (small.summary (idOf (n + 1)))) .ok
      cfg.shared = some (true, cfg.shared.insert (small.summary (idOf (n + 1)))) := by
    simp only [appMachine, AppState.exec]
    rw [if_neg (by omega)]
  have hne : ∀ m, m ≤ n → idOf m ≠ idOf (n + 1) := by
    intro m hm heq
    have hbig : maxTrackedTransfers < 256 ^ 16 := by decide
    have := idOf_inj (by omega) (by omega) heq
    omega
  refine ⟨_, .step .refl hact trivial hexec, ?_, fun m hpos hm => ?_, ?_, fun u => ?_,
    fun m hm => ?_⟩
  · show Insert.insert (idOf (n + 1)) cfg.shared.tracked = _
    rw [h.tracked, Finset.range_add_one (n := n + 1), Finset.image_insert]
  · rcases Nat.lt_or_ge n m with hlt | hge
    · obtain rfl : m = n + 1 := by omega
      simp [AppState.statusOf, AppState.insert, CreateTransferRequest.summary]
    · rw [← h.queued m hpos hge]
      exact statusOf_insert_of_ne (hne m hge)
  · rw [← h.first]
    simp [AppState.server, AppState.insert, CreateTransferRequest.summary, hne 0 (Nat.zero_le n)]
  · have hstream : AppTask.stream (idOf 0) u ≠ .create (n + 1) := by simp
    exact (Config.pool_update_of_ne hstream).trans (h.streams u)
  · have hcreate : AppTask.create m ≠ .create (n + 1) := by
      simp
      omega
    exact (Config.pool_update_of_ne hcreate).trans (h.requests m (by omega))

/-- The server takes requests until it is full. -/
theorem filled_max {server : State} {pool : Task → Prog Op Op.Reply (Except String Unit)}
    {cfg : Config AppTask AppOp AppOp.Reply AppState AppResult} (h : Filled 0 server pool cfg)
    (hfailed : server.transfer.status = .failed) {n : Nat} (hn : n ≤ maxTrackedTransfers) :
    ∃ cfg', Config.Reaches oneMachine (fun _ _ _ _ => True) cfg cfg' ∧
      Filled n server pool cfg' := by
  induction n with
  | zero => exact ⟨cfg, .refl, h⟩
  | succ n ih =>
    obtain ⟨cfg', hto, hfilled⟩ := ih (by omega)
    obtain ⟨cfg'', hto', hfilled'⟩ := filled_succ hfilled hfailed hn
    exact ⟨cfg'', hto.trans hto', hfilled'⟩

/-- All of the transfers are active when the first one is as well. -/
theorem activeTransfers_of_filled {n : Nat} {server : State}
    {pool : Task → Prog Op Op.Reply (Except String Unit)}
    {cfg : Config AppTask AppOp AppOp.Reply AppState AppResult} (h : Filled n server pool cfg)
    (hactive : isActive server.transfer.status = true) (hn : n < 256 ^ 16) :
    cfg.shared.activeTransfers = n + 1 := by
  have hall : (cfg.shared.tracked.filter fun id => isActive (cfg.shared.statusOf id) = true) =
      cfg.shared.tracked := by
    refine Finset.filter_true_of_mem fun id hid => ?_
    rw [h.tracked] at hid
    obtain ⟨m, hm, rfl⟩ := Finset.mem_image.1 hid
    have hlt := Finset.mem_range.1 hm
    rcases Nat.eq_zero_or_pos m with rfl | hpos
    · have hstatus : cfg.shared.statusOf (idOf 0) = server.transfer.status := by
        rw [← h.first]
        rfl
      rw [hstatus]
      exact hactive
    · rw [h.queued m hpos (by omega)]
      rfl
  have hinj : Set.InjOn idOf (Finset.range (n + 1)) := by
    intro m hm m' hm' heq
    have hlt := Finset.mem_range.1 hm
    have hlt' := Finset.mem_range.1 hm'
    exact idOf_inj (by omega) (by omega) heq
  show (Finset.filter _ _).card = _
  rw [hall, h.tracked, Finset.card_image_of_injOn hinj, Finset.card_range]

/-- The streams of the first transfer go on. -/
theorem Filled.onStream {n : Nat} {c c' : Config Task Op Op.Reply State (Except String Unit)}
    {cfg : Config AppTask AppOp AppOp.Reply AppState AppResult} (hn : n ≤ maxTrackedTransfers)
    (h : Filled n c.shared c.pool cfg) (hto : Config.Reaches machine (fun _ _ _ _ => True) c c') :
    ∃ cfg', Config.Reaches oneMachine (fun _ _ _ _ => True) cfg cfg' ∧
      Filled n c'.shared c'.pool cfg' := by
  have hmem : idOf 0 ∈ cfg.shared.tracked := by
    rw [h.tracked]
    exact Finset.mem_image_of_mem _ (Finset.mem_range.2 (Nat.succ_pos n))
  obtain ⟨cfg', hreaches, htracked, hothers, hserver, hpools, hcreate⟩ :=
    reaches_onStream hto hmem h.first h.streams
  refine ⟨cfg', hreaches, htracked.trans h.tracked, fun m hpos hm => ?_, hserver, hpools,
    fun m hm => (hcreate m).trans (h.requests m hm)⟩
  have hne : idOf m ≠ idOf 0 := by
    intro heq
    have hbig : maxTrackedTransfers < 256 ^ 16 := by decide
    have := idOf_inj (by omega) (by omega) heq
    omega
  exact (hothers _ hne).trans (h.queued m hpos hm)

/-- The first request has been taken. -/
theorem filled_zero :
    ∃ cfg, Config.Reaches oneMachine (fun _ _ _ _ => True)
        (startApp appCtx "store" many emptyApp) cfg ∧
      Filled 0 (start (transfer [7, 8] true .queued) noFiles)
        (program ctx fun i => [lane [7, 8] 1 0, lane [7, 8] 1 0][i]?) cfg := by
  have hvalid : small.validate = .ok () := by decide +kernel
  have hsummary : small.summary (idOf 0) = transfer [7, 8] true .queued := by decide +kernel
  obtain ⟨k, hact⟩ : ∃ k, (startApp appCtx "store" many emptyApp).pool (.create 0) =
      .act (.reserve (small.summary (idOf 0))) k := by
    show ∃ k, appProgram appCtx "store" many (.create 0) = _
    simp only [appProgram, many, createTransfer, hvalid]
    exact ⟨_, rfl⟩
  have hexec : oneMachine.exec (.create 0) (.reserve (small.summary (idOf 0))) .ok emptyApp =
      some (true, emptyApp.insert (small.summary (idOf 0))) := rfl
  refine ⟨_, .step .refl hact trivial hexec, rfl, fun m hpos hm => by omega, ?_, fun u => ?_,
    fun m hm => ?_⟩
  · have hservers : (emptyApp.insert (small.summary (idOf 0))).servers (idOf 0) =
        start (small.summary (idOf 0)) noFiles := by
      show Function.update emptyApp.servers (idOf 0) _ (idOf 0) = _
      rw [Function.update_self]
      rfl
    show AppState.server (emptyApp.insert (small.summary (idOf 0))) _ (idOf 0) = _
    rw [AppState.server, hservers, hsummary]
    rfl
  · have hstream : AppTask.stream (idOf 0) u ≠ .create 0 := by simp
    refine (Config.pool_update_of_ne hstream).trans ?_
    simp [startApp, appProgram, many]
  · have hcreate : AppTask.create m ≠ .create 0 := by
      simp
      omega
    exact Config.pool_update_of_ne hcreate

/-- The stream of a transfer fails, and the lane is opened again. -/
theorem reopened_after_failed :
    ∃ c c', Config.Reaches machine (fun _ _ _ _ => True)
        (server (transfer [7, 8] true .queued) noFiles [lane [7, 8] 1 0, lane [7, 8] 1 0]) c ∧
      decide (c.shared.transfer.status = .failed) = true ∧
      Config.Reaches machine (fun _ _ _ _ => True) c c' ∧
      decide (c'.shared.transfer.status = .running) = true :=
  Config.exists_run_then (fun _ _ _ _ => true)
    (turns [(.handler 0, 7)] ++ [(.handler 0, .ioError)] ++ turns [(.handler 0, 7)])
    (turns [(.handler 1, 5)]) (fun _ _ _ _ _ => trivial) (by decide +kernel) (by decide +kernel)

end Scenario

open Scenario in
/-- A transfer fails, the server takes requests until it is full, and the failed transfer is
opened again. -/
theorem capacity_exceeded :
    ∃ cfg, Config.Reaches oneMachine (fun _ _ _ _ => True)
        (startApp appCtx "store" many emptyApp) cfg ∧
      emptyApp.tracked = ∅ ∧ cfg.shared.activeTransfers = maxTrackedTransfers + 1 := by
  obtain ⟨c, c', hto, hfailed, hto', hrunning⟩ := reopened_after_failed
  obtain ⟨one, hcreated, hzero⟩ := filled_zero
  obtain ⟨two, hfails, hzero'⟩ := hzero.onStream (Nat.zero_le _) hto
  obtain ⟨three, hfills, hmax⟩ := filled_max hzero' (of_decide_eq_true hfailed) le_rfl
  obtain ⟨cfg, hopens, hmax'⟩ := hmax.onStream le_rfl hto'
  refine ⟨cfg, ((hcreated.trans hfails).trans hfills).trans hopens, rfl, ?_⟩
  refine activeTransfers_of_filled hmax' ?_ (by decide)
  rw [of_decide_eq_true hrunning]
  rfl

/-- A status is written only while there is room. -/
def Scenario.marksWithRoom (a : AppState) (_ : AppTask) (o : AppOp) (_ : Choice) : Bool :=
  match o with
  | .stream (.markRunning ..) | .stream (.setStatus ..) =>
    decide (a.activeTransfers < maxTrackedTransfers)
  | _ => true

open Scenario in
/-- Two requests are taken; a stream of the first transfer fails, and with it the transfer, and
another one is opened. -/
theorem capacity_kept_sample :
    ∃ cfg cfg', Config.Reaches oneMachine ReactivatesWithRoom
        (startApp appCtx "store" many emptyApp) cfg ∧
      decide (cfg.shared.statusOf (idOf 0) = .failed) = true ∧
      Config.Reaches oneMachine ReactivatesWithRoom cfg cfg' ∧
      decide (cfg'.shared.tracked.card = 2 ∧ cfg'.shared.statusOf (idOf 0) = .running) = true ∧
      cfg'.shared.activeTransfers ≤ maxTrackedTransfers := by
  have hstep : ∀ a t o c, marksWithRoom a t o c = true → ReactivatesWithRoom a t o c := by
    intro a t o c h id u _ hmarks _
    rcases hmarks with ⟨m, n, b, rfl⟩ | ⟨status, b, rfl, -⟩
    · exact of_decide_eq_true h
    · exact of_decide_eq_true h
  have hrun : ((startApp appCtx "store" many emptyApp).runIf oneMachine marksWithRoom
      (turns [(.create 0, 2), (.create 1, 2), (.stream (idOf 0) (.handler 0), 7)] ++
        [(.stream (idOf 0) (.handler 0), .ioError)] ++
        turns [(.stream (idOf 0) (.handler 0), 7)])).any
      (fun cfg => decide (cfg.shared.statusOf (idOf 0) = .failed) &&
        (cfg.runIf oneMachine marksWithRoom (turns [(.stream (idOf 0) (.handler 1), 5)])).any
          (fun cfg' => decide (cfg'.shared.tracked.card = 2 ∧
            cfg'.shared.statusOf (idOf 0) = .running))) = true := by
    decide +kernel
  obtain ⟨cfg, hto, hnext⟩ := Config.reaches_of_runIf_any hstep hrun
  obtain ⟨hfailed, hnext⟩ := Bool.and_eq_true_iff.1 hnext
  obtain ⟨cfg', hto', hrunning⟩ := Config.reaches_of_runIf_any hstep hnext
  exact ⟨cfg, cfg', hto, hfailed, hto', hrunning, capacity_kept _ _ _ rfl (hto.trans hto')⟩

end Metra.Server
