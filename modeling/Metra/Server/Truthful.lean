import Metra.Client.SendReport
import Metra.Server.Destination

/-!
# No false success

What a server says of a transfer whose payload it is to keep, in runs in which anything may fail
and the streams are anybody's.

* `Setup.Truthful` — the transfer is completed, is about to be, or has been reported so, only
  once a file was moved to the final path;
* `truthful_of_reaches` — it holds in every run;
* `report_truthful` — **a client that is told `Completed` was told so by a server that has moved
  a file to the final path**.
-/

namespace Metra.Server

open Interleave

/-- The phases from which a transfer is reported as completed. -/
def Phase.Completes : Phase → Prop
  | .placed | .settling .completed | .reported .completed => True
  | _ => False

/-- Whatever says that the transfer is completed says so of a file that was moved. -/
structure Setup.Truthful (setup : Setup) (s : Tracked Task Point State) : Prop where
  status : s.shared.transfer.status = .completed → s.shared.disk.placements ≠ []
  phase : ∀ t, (s.point t).phase.Completes → s.shared.disk.placements ≠ []
  ack : ∀ i ack, s.shared.acks i = some ack → ack.status = .completed →
    s.shared.disk.placements ≠ []

section

variable {setup : Setup} {s : Tracked Task Point State} {t : Task} {stream : LaneStream}
  {pt : Point} {o : Op} {c : Choice} {r : o.Reply} {s' : State} {ph : Phase}

/-- The ways to a phase that completes the transfer: a renaming that was made, or a look at the
status. -/
theorem completes_of_moves (hdisk : setup.discards = false) (h : Moves setup stream t pt o r ph)
    (hexec : exec t o c s.shared = some (r, s')) (hph : ph.Completes) :
    pt.phase.Completes ∨ s.shared.transfer.status = .completed ∨ s'.disk.placements ≠ [] := by
  cases h with
  | alreadyDone =>
    have hreply := congrArg (fun out => out.1.1) (Option.some.inj hexec)
    exact .inr (.inl (of_decide_eq_true hreply))
  | @placed i f =>
    exact .inr (.inr (placements_of_moves (@Moves.placed setup stream i f) hexec))
  | setDiscarded hdiscards =>
    rw [hdisk] at hdiscards
    cases hdiscards
  | setPlaced => exact .inl trivial
  | @reported i st r hterminal =>
    cases st with
    | completed => exact .inl trivial
    | _ => exact hph.elim
  | _ => exact hph.elim

/-- A file that was moved has been moved. -/
theorem placements_kept (hexec : exec t o c s.shared = some (r, s'))
    (h : s.shared.disk.placements ≠ []) : s'.disk.placements ≠ [] := by
  rcases names_of_exec hexec with ⟨-, -, hp, -⟩ | ⟨-, -, -, -, -, hp⟩ | ⟨-, -, -, -, hp⟩ |
    ⟨f, -, -, -, -, -, hp⟩
  all_goals
    rw [hp]
  · exact h
  · exact h
  · exact h
  · simp

theorem completes_of_ack {ack : QuicTransferCompleteAck}
    (h : Enabled setup t pt (.sendCompleteAck ack)) (hack : ack.status = .completed) :
    pt.phase.Completes := by
  cases h with
  | sendSettled hst | sendReported hst =>
    rw [← hst, hack]
    trivial

theorem Setup.Truthful.step (h : setup.Truthful s) (hdisk : setup.discards = false)
    (hstream : setup.streams t.stream = some stream) (henabled : Enabled setup t (s.point t) o)
    (hexec : exec t o c s.shared = some (r, s')) :
    setup.Truthful (moved s t (advance setup stream (s.point t) o r) s') where
  status hstatus := by
    rw [moved_shared] at hstatus ⊢
    rcases status_of_exec hexec with heq | ⟨m, n, b, -, heq⟩ | ⟨st, b, rfl, heq⟩
    · exact placements_kept hexec (h.status (heq ▸ hstatus))
    · rw [heq] at hstatus
      cases hstatus
    · obtain rfl : st = .completed := heq.symm.trans hstatus
      rcases discards_or_placed henabled with hdiscards | hplaced
      · rw [hdisk] at hdiscards
        cases hdiscards
      · exact placements_kept hexec (h.phase t (hplaced ▸ trivial))
  phase u hu := by
    rw [moved_shared]
    rcases henabled.moves_moved hstream r s' u with hsame | ⟨rfl, hmoves⟩
    · exact placements_kept hexec (h.phase u (hsame ▸ hu))
    · rcases completes_of_moves hdisk hmoves hexec hu with hbefore | hdone | hplaced
      · exact placements_kept hexec (h.phase u hbefore)
      · exact placements_kept hexec (h.status hdone)
      · exact hplaced
  ack i ack hack hstatus := by
    rw [moved_shared] at hack ⊢
    rcases acks_of_exec hexec with heq | ⟨sent, rfl, heq⟩
    · exact placements_kept hexec (h.ack i ack (heq ▸ hack) hstatus)
    · rw [heq] at hack
      by_cases hi : i = t.stream
      · subst hi
        rw [Function.update_self, Option.some.injEq] at hack
        subst hack
        exact placements_kept hexec (h.phase t (completes_of_ack henabled hstatus))
      · rw [Function.update_of_ne hi] at hack
        exact placements_kept hexec (h.ack i ack hack hstatus)

end

/-- What a server says of a transfer in any run in which anything may fail. -/
theorem truthful_of_reaches (ctx : Context) {transfer : TransferSummary}
    (streams : Nat → Option LaneStream) (hdisk : isNullSinkUri transfer.destinationUri = false)
    {stored : TransferSummary} (hstored : SameTransfer transfer stored)
    (hstatus : stored.status ≠ .completed) (disk : Disk)
    {cfg : Config Task Op Op.Reply State (Except String Unit)}
    (hreaches : Config.Reaches machine (fun _ _ _ _ => True)
      ⟨start stored disk, program ctx streams⟩ cfg) :
    ∃ point, (unreliable ctx transfer streams).Truthful ⟨cfg.shared, point⟩ := by
  obtain ⟨point, hto⟩ := hreaches.tracked (protocol (unreliable ctx transfer streams)) startPoint
  have hstart : (unreliable ctx transfer streams).Truthful ⟨start stored disk, startPoint⟩ := by
    refine ⟨fun h => absurd h hstatus, fun u hu => ?_, fun i ack h => by cases h⟩
    cases u <;> exact hu.elim
  obtain ⟨-, -, h⟩ := reaches_invariant trivial
    (fun _ _ _ _ _ _ _ _ h hstream henabled _ hexec => h.step hdisk hstream henabled hexec)
    hstored hstart hto
  exact ⟨point, h⟩

/-- **No false success**: when the client reports a transfer as completed, by acks that the server
has sent it, the server has moved a file to the final path, whatever has failed on the way and
whatever the streams have carried. -/
theorem report_truthful (ctx : Context) {transfer : TransferSummary}
    (streams : Nat → Option LaneStream) (hdisk : isNullSinkUri transfer.destinationUri = false)
    {stored : TransferSummary} (hstored : SameTransfer transfer stored)
    (hstatus : stored.status ≠ .completed) (disk : Disk)
    {cfg : Config Task Op Op.Reply State (Except String Unit)}
    (hreaches : Config.Reaches machine (fun _ _ _ _ => True)
      ⟨start stored disk, program ctx streams⟩ cfg)
    {F : Type} (ops : Client.FloatOps F) (args : Client.TransferArgs) (calls : Client.TransferCalls)
    (hacks : ∀ result, .ok result ∈ calls.joined →
      ∃ i, cfg.shared.acks i = some result.completeAck.toQuicTransferCompleteAck)
    {report : Client.SendTransferReport F}
    (hreport : Client.sendTransferWithSource ops args calls = .ok report)
    (hcompleted : report.finalStatus = "Completed") : cfg.shared.disk.placements ≠ [] := by
  obtain ⟨point, h⟩ := truthful_of_reaches ctx streams hdisk hstored hstatus disk hreaches
  obtain ⟨acks, hanswered⟩ := Client.answered_of_report hreport
  obtain ⟨report', hreport', hiff⟩ := @Client.report_of_answered F ops args calls acks hanswered
  obtain rfl := Except.ok.inj (hreport'.symm.trans hreport)
  obtain ⟨⟨ack, hmem, hack⟩, -⟩ := hiff.1 hcompleted
  obtain ⟨-, results, hjoined, -, -, -, rfl⟩ := hanswered
  obtain ⟨result, hresult, rfl⟩ := List.mem_map.1 hmem
  obtain ⟨i, hi⟩ := hacks result (hjoined ▸ List.mem_map_of_mem hresult)
  exact h.ack i _ hi hack

namespace Scenario

/-- The client of a transfer of two bytes over one lane that has got this ack. -/
def answered (ack : QuicTransferCompleteAck) : Client.TransferCalls where
  status := .ok (transfer [7, 8] true .queued)
  fileLen := .ok 2
  protocolVersion := .ok Client.quicProtocolVersion
  quicAddr := .ok ()
  connection := .ok ()
  joined := [.ok ⟨2, 0, ⟨ack, 0⟩⟩]
  elapsedMs := 0

/-- An upload of two bytes over a single lane. -/
def sendsOneLane : Client.TransferArgs := ⟨"a.bin", true, 2, 1, none, none⟩

end Scenario

open Scenario in
/-- A single lane that is received, and reported as completed. -/
theorem report_truthful_single :
    ∃ cfg ack report, Config.Reaches machine (fun _ _ _ _ => True)
        (server (transfer [7, 8] true .queued) noFiles [lane [7, 8] 1 0]) cfg ∧
      cfg.shared.acks 0 = some ack ∧
      Client.sendTransferWithSource Client.exactOps sendsOneLane (answered ack) = .ok report ∧
      report.finalStatus = "Completed" ∧ cfg.shared.disk.placements ≠ [] := by
  have hrun : ((server (transfer [7, 8] true .queued) noFiles [lane [7, 8] 1 0]).runIf machine
      (fun _ _ _ _ => true) (turns [(.handler 0, 10), (.writer 0, 6), (.handler 0, 12)])).any
      (fun cfg => (cfg.shared.acks 0).any fun ack => decide (ack.status = .completed)) = true := by
    decide +kernel
  obtain ⟨cfg, hreaches, hsent⟩ := Config.reaches_of_runIf_any (fun _ _ _ _ _ => trivial) hrun
  obtain ⟨ack, hack, hstatus⟩ := (Option.any_eq_true _ _).1 hsent
  have hreport : ∃ report,
      Client.sendTransferWithSource Client.exactOps sendsOneLane (answered ack) = .ok report ∧
        report.finalStatus = Client.statusText ack.status := ⟨_, rfl, rfl⟩
  obtain ⟨report, hreport, hfinal⟩ := hreport
  rw [of_decide_eq_true hstatus] at hfinal
  refine ⟨cfg, ack, report, hreaches, hack, hreport, hfinal, ?_⟩
  refine report_truthful ctx (fun i => [lane [7, 8] 1 0][i]?) (by decide +kernel)
    (sameTransfer_refl (transfer [7, 8] true .queued)) (by decide) noFiles hreaches
    Client.exactOps sendsOneLane (answered ack) (fun result hmem => ⟨0, ?_⟩) hreport hfinal
  obtain rfl := Except.ok.inj (List.mem_singleton.1 hmem)
  exact hack

end Metra.Server
