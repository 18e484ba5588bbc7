import Metra.Server.SingleLane
import Metra.Server.Striped

/-!
# An interrupted upload is completed

An upload of a single lane that is sent again when nothing fails: it resumes where the staging
file ends, whatever servers have stopped before, and delivers the source.

* `Setup.SoleLane` — the transfer, and its only stream;
* `Setup.OnCourse` — the invariant: the handler meets no error, and once it has renamed the
  staging file the source is at the final path;
* `resumed_delivers` — **when the handler has returned, the source has been delivered** and the
  lane has been told so.
-/

namespace Metra.Server

open Interleave

/-- A disk-backed transfer of a source over a single lane, which is opened once and sent up to
its end. -/
structure Setup.SoleLane (setup : Setup) (source : List UInt8) : Prop where
  size : setup.size = source.length
  nonempty : 0 < source.length
  disk : setup.discards = false
  opens : setup.ctx.crypto.OpensSealed
  tenantId : isValidStorageIdSegment setup.transfer.tenantId = true
  userId : isValidStorageIdSegment setup.transfer.userId = true
  sends : ∃ stream, setup.streams 0 = some stream ∧
    stream.SendsLane setup.ctx.crypto setup.transfer source 1 0
  only : ∀ i, 1 ≤ i → setup.streams i = none

/-- The phases of a task that meets no error on the way of a single lane. -/
def Phase.OnCourse : Phase → Prop
  | .presizing .. | .presized _ | .broken | .deciding | .incomplete | .refused | .failing => False
  | .settling st | .reported st => st = .completed
  | _ => True

/-- The staging file is open, or has been received. -/
def Phase.Holds : Phase → Prop
  | .receiving .. | .draining _ | .received .. | .ready | .checking _ | .clearing | .vacant => True
  | _ => False

/-- The handler has delivered the file. -/
def Phase.Past : Phase → Prop
  | .placed | .settling _ | .reported _ | .over | .released => True
  | _ => False

/-- The handler has set the status. -/
def Phase.Settled : Phase → Prop
  | .settling _ | .reported _ | .over | .released => True
  | _ => False

/-- The handler has sent its answer. -/
def Phase.Answered : Phase → Prop
  | .over | .released => True
  | _ => False

/-- What holds of the only handler and its files while nothing fails, if so many bytes were in
the staging file when the server was started. -/
structure Setup.OnCourse (setup : Setup) (source : List UInt8) (staged : Nat)
    (s : Tracked Task Point State) : Prop where
  upright : setup.Upright source s
  phases : ∀ u, (s.point u).phase.OnCourse
  outside : ∀ u kind, (s.point u).stage kind = .out
  unchanged : (s.point (.handler 0)).phase.rank ≤ 8 → s.shared.disk.stagedBytes = staged
  resumes : ∀ resume, (s.point (.handler 0)).phase.resume? = some resume → resume = staged
  leases : (s.point (.handler 0)).phase.rank ≤ 1 → s.shared.activeLaneWriters = []
  joined : ∀ i result, s.shared.writers i = .finished result → ∃ written, result = .ok written
  fine : ∀ i, s.shared.writeFailed i = false
  holds : (s.point (.handler 0)).phase.Holds → s.shared.disk.staging ≠ none
  clears : (s.point (.handler 0)).phase = .clearing → s.shared.disk.final ≠ none
  checks : ∀ g, (s.point (.handler 0)).phase = .checking (g + 1) → setup.keepsExisting = true
  vacant : setup.keepsExisting = true → ¬ (s.point (.handler 0)).phase.Past →
    s.shared.disk.final = none
  placed : (s.point (.handler 0)).phase.Past →
    ∃ p ∈ s.shared.disk.placements, s.shared.disk.final = some p.file
  settled : (s.point (.handler 0)).phase.Settled → s.shared.transfer.status = .completed
  answered : (s.point (.handler 0)).phase.Answered →
    ∃ ack, s.shared.acks 0 = some ack ∧ ack.status = .completed

section

variable {setup : Setup} {source : List UInt8} {staged : Nat} {s : Tracked Task Point State}
  {t : Task} {stream : LaneStream} {o : Op} {r : o.Reply} {s' : State} {pt : Point} {ph : Phase}

/-! ## The stream -/

theorem Setup.SoleLane.lane (h : setup.SoleLane source) {i : Nat}
    (hstream : setup.streams i = some stream) :
    i = 0 ∧ stream.SendsLane setup.ctx.crypto setup.transfer source 1 0 := by
  obtain rfl : i = 0 := by
    by_contra hne
    rw [h.only i (Nat.one_le_iff_ne_zero.2 hne)] at hstream
    cases hstream
  obtain ⟨stream', hstream', hsends⟩ := h.sends
  obtain rfl := Option.some.inj (hstream'.symm.trans hstream)
  exact ⟨rfl, hsends⟩

theorem Setup.SoleLane.honest (h : setup.SoleLane source) : setup.Honest source where
  size := h.size
  disk := h.disk
  opens := h.opens
  streams _ _ hstream := (h.lane hstream).2.honest

theorem Setup.SoleLane.singleLane (h : setup.SoleLane source) : setup.SingleLane := by
  intro i stream hstream
  obtain ⟨-, hsends⟩ := h.lane hstream
  have hnot : isStriped stream.request ≠ true := by
    rw [Ne, hsends.honest.isStriped_iff, hsends.requestedLanes_eq]
    exact Nat.lt_irrefl 1
  simpa using hnot

theorem Setup.SoleLane.regular (h : setup.SoleLane source) {i : Nat}
    (hstream : setup.streams i = some stream) : setup.Regular stream :=
  (h.lane hstream).2.regular Nat.one_pos (by decide) (h.size ▸ h.nonempty) h.size h.disk h.opens
    h.tenantId h.userId

/-- The handler that takes a step is that of the only stream. -/
theorem Setup.SoleLane.handler (h : setup.SoleLane source)
    (hstream : setup.streams t.stream = some stream) {i : Nat} (ht : t = .handler i) :
    t = .handler 0 := by
  subst ht
  exact congrArg Task.handler (h.lane hstream).1

theorem admitted_of_acquire {lane : Nat}
    (henabled : Enabled setup t pt (.tryAcquireLaneWriter lane)) :
    ∃ i b, t = .handler i ∧ pt.phase = .admitted b := by
  cases henabled
  exact ⟨_, _, rfl, rfl⟩

/-! ## The replies -/

/-- The checkpoint is not read. -/
theorem Setup.OnCourse.not_reads (h : setup.OnCourse source staged s) :
    ¬ Enabled setup t (s.point t) .readCheckpoint := by
  intro henabled
  have houtside := h.outside t .checkpoint
  generalize s.point t = pt at henabled houtside
  cases henabled <;> cases houtside

/-- **Nothing is in the way of the only handler**: a step that comes out well gets the replies
that it reckons with. -/
theorem Setup.OnCourse.possible (hsole : setup.SoleLane source) (hbase : Baseline setup s)
    (h : setup.OnCourse source staged s) (hstream : setup.streams t.stream = some stream)
    (henabled : Enabled setup t (s.point t) o) (hexec : exec t o .ok s.shared = some (r, s')) :
    Possible setup stream (s.point t) o r := by
  by_cases hmeasures : o = .stagingLen
  · subst hmeasures
    cases hexec
    refine .inl ⟨_, rfl, ?_⟩
    show s.shared.disk.stagedBytes ≤ setup.size
    cases hf : s.shared.disk.staging with
    | none =>
      rw [Disk.stagedBytes_of_none hf]
      exact Nat.zero_le _
    | some f =>
      rw [Disk.stagedBytes_of_some hf, hsole.size]
      exact (h.upright.appending.beginning f hf).length_le
  refine hbase.possible_of (.inr ⟨rfl, ?_⟩) hstream henabled hexec
  refine ⟨?_, ?_, hmeasures, ?_, ?_, ?_, h.fine _⟩
  · rintro lane rfl
    obtain ⟨i, b, ht, hadmitted⟩ := admitted_of_acquire henabled
    obtain rfl := hsole.handler hstream ht
    rw [h.leases (by rw [hadmitted]; exact Nat.le_refl 1)]
    exact List.not_mem_nil
  · rintro rfl
    exact absurd henabled h.not_reads
  · rintro rfl
    obtain ⟨i, ht, hclearing⟩ := clearing_of_removeFinal henabled
    obtain rfl := hsole.handler hstream ht
    exact h.clears hclearing
  · rintro rfl
    obtain ⟨i, ht, hvacant⟩ := vacant_of_renameStaging henabled
    obtain rfl := hsole.handler hstream ht
    refine Option.ne_none_iff_exists'.1 (h.holds ?_)
    rw [hvacant]
    trivial
  · rintro rfl result hw
    exact h.joined _ result hw

/-! ## The phases -/

/-- **The handler meets no error.** -/
theorem onCourse_of_moves (hfaults : ¬ setup.faults)
    (hsingle : isStriped stream.request = false) (h : Moves setup stream t pt o r ph)
    (hpt : pt.phase.OnCourse) (houtside : pt.finalize = .out)
    (hjoins : ∀ err : String, o = .joinWriter → ¬ HEq r (.error err : Except String Nat))
    (hvacant : ∀ g, pt.phase = .checking (g + 1) → o = .finalExists →
      ¬ HEq r (some true : Option Bool)) : ph.OnCourse := by
  cases h with
  | presizing hstriped =>
    rw [hsingle] at hstriped
    cases hstriped
  | broken => exact absurd HEq.rfl (hjoins _ rfl)
  | refused => exact absurd HEq.rfl (hvacant _ rfl rfl)
  | deciding => cases houtside
  | abandoned hph => exact absurd hph.1 hfaults
  | failing hfaults' => exact absurd hfaults' hfaults
  | presized | incomplete | setIncomplete | setRefused | setFailed => exact hpt.elim
  | setDiscarded | setPlaced | alreadyDone => exact rfl
  | reported => exact hpt
  | _ => trivial

/-- Who holds the staging file has opened it. -/
theorem holds_of_moves (hdisk : setup.discards = false) (h : Moves setup stream t pt o r ph)
    (hpt : pt.phase.OnCourse) (hph : ph.Holds) : pt.phase.Holds ∨ o = .openStaging := by
  cases h with
  | receiving => exact .inr rfl
  | draining | received | checking | passed | vacant | clearing | cleared => exact .inl trivial
  | ready => exact hpt.elim
  | @readySingle _ _ ph _ hfinalizes =>
    obtain ⟨resume, written, rfl⟩ := received_of_finalizes hdisk hfinalizes
    exact .inl trivial
  | _ => exact hph.elim

/-- Who is past the delivery has renamed the staging file. -/
theorem past_of_moves (hfaults : ¬ setup.faults) (hdisk : setup.discards = false)
    (h : Moves setup stream t pt o r ph) (hpt : pt.phase.OnCourse)
    (houtside : pt.finalize = .out) (hph : ph.Past) :
    pt.phase.Past ∨ o = .renameStaging ∧ HEq r (some () : Option Unit) := by
  cases h with
  | placed => exact .inr ⟨rfl, HEq.rfl⟩
  | setPlaced | reported | sentSettled | sentReported => exact .inl trivial
  | setIncomplete | setRefused | setFailed => exact hpt.elim
  | alreadyDone => cases houtside
  | setDiscarded hdiscards =>
    rw [hdisk] at hdiscards
    cases hdiscards
  | notRunning hfaults' => exact absurd hfaults' hfaults
  | released hph' =>
    rcases hph' with rfl | ⟨hfaults', -⟩
    · exact .inl trivial
    · exact absurd hfaults' hfaults
  | _ => exact hph.elim

/-- The delivery is not taken back. -/
theorem past_kept (hfaults : ¬ setup.faults) (h : Moves setup stream t pt o r ph)
    (hpt : pt.phase.Past) : ph.Past := by
  cases h with
  | failing hfaults' => exact absurd hfaults' hfaults
  | abandoned hph => exact absurd hph.1 hfaults
  | notRunning => trivial
  | setPlaced | reported | sentSettled | sentReported | released => trivial
  | alreadyDone hph | deciding hph | readySingle _ hph =>
    unfold Setup.Finalizes at hph
    split at hph
    · exact hpt.elim
    · exact hpt.elim
    · exact hph.elim
  | _ => exact hpt.elim

/-- Who is past the delivery has set the status, or is about to. -/
theorem settled_of_moves (hfaults : ¬ setup.faults) (h : Moves setup stream t pt o r ph)
    (hpt : pt.phase.OnCourse) (houtside : pt.finalize = .out) (hph : ph.Settled) :
    pt.phase.Settled ∨ ∃ b, o = .setStatus .completed b := by
  cases h with
  | setPlaced | setDiscarded => exact .inr ⟨_, rfl⟩
  | reported | sentSettled | sentReported => exact .inl trivial
  | setIncomplete | setRefused | setFailed => exact hpt.elim
  | alreadyDone => cases houtside
  | notRunning hfaults' => exact absurd hfaults' hfaults
  | released hph' =>
    rcases hph' with rfl | ⟨hfaults', -⟩
    · exact .inl trivial
    · exact absurd hfaults' hfaults
  | _ => exact hph.elim

/-- Who sets the status has not done so yet. -/
theorem not_settled_of_sets (henabled : Enabled setup t pt o)
    (ho : (∃ m n b, o = .markRunning m n b) ∨ ∃ st b, o = .setStatus st b) :
    ∃ i, t = .handler i ∧ ¬ pt.phase.Settled := by
  rcases ho with ⟨m, n, b, rfl⟩ | ⟨st, b, rfl⟩
  · cases henabled <;> exact ⟨_, rfl, id⟩
  · cases henabled <;> exact ⟨_, rfl, id⟩

/-- Who has sent the answer has sent that the transfer is completed. -/
theorem answered_of_moves (hfaults : ¬ setup.faults) (h : Moves setup stream t pt o r ph)
    (hpt : pt.phase.OnCourse) (hph : ph.Answered) : pt.phase.Answered ∨
      ∃ ack, o = .sendCompleteAck ack ∧ ack.status = .completed ∧
        HEq r (some () : Option Unit) := by
  cases h with
  | sentSettled hack => exact .inr ⟨_, rfl, hack.trans hpt, HEq.rfl⟩
  | sentReported hack => exact .inr ⟨_, rfl, hack.trans hpt, HEq.rfl⟩
  | notRunning hfaults' => exact absurd hfaults' hfaults
  | released hph' =>
    rcases hph' with rfl | ⟨hfaults', -⟩
    · exact .inl trivial
    · exact absurd hfaults' hfaults
  | _ => exact hph.elim

end

/-! ## The steps -/

section

variable {setup : Setup} {source : List UInt8} {staged : Nat} {s : Tracked Task Point State}
  {t : Task} {stream : LaneStream} {o : Op} {r : o.Reply} {s' : State}
  (hsole : setup.SoleLane source) (hfaults : ¬ setup.faults) (h : setup.OnCourse source staged s)
  (hstream : setup.streams t.stream = some stream) (henabled : Enabled setup t (s.point t) o)
  (hexec : exec t o .ok s.shared = some (r, s'))

include hsole h hstream henabled

/-- The final path changes at the hands of a handler that clears it or renames to it. -/
theorem final_of_exec (hexec : exec t o .ok s.shared = some (r, s')) :
    (s'.disk.final = s.shared.disk.final ∧ s'.disk.placements = s.shared.disk.placements ∧
        (s.shared.disk.staging ≠ none → s'.disk.staging ≠ none)) ∨
      (t = .handler 0 ∧ (s.point t).phase = .clearing ∧
        (advance setup stream (s.point t) o r).phase = .vacant ∧
        s'.disk.staging = s.shared.disk.staging ∧ s'.disk.final = none) ∨
      (t = .handler 0 ∧ (s.point t).phase = .vacant ∧
        (advance setup stream (s.point t) o r).phase = .placed ∧
        ∃ p ∈ s'.disk.placements, s'.disk.final = some p.file) := by
  by_cases hrenames : o = .renameStaging
  · subst hrenames
    obtain ⟨i, ht, hvacant⟩ := vacant_of_renameStaging henabled
    obtain rfl := hsole.handler hstream ht
    rcases renameStaging_of_exec hexec with ⟨rfl, rfl⟩ | ⟨rfl, f, -, rfl⟩
    · exact .inl ⟨rfl, rfl, id⟩
    · exact .inr (.inr ⟨rfl, hvacant, rfl, _, List.mem_append_right _ (List.mem_singleton_self _),
        rfl⟩)
  by_cases hremoves : o = .removeFinal
  · subst hremoves
    obtain ⟨i, ht, hclearing⟩ := clearing_of_removeFinal henabled
    obtain rfl := hsole.handler hstream ht
    obtain ⟨f, hf⟩ := Option.ne_none_iff_exists'.1 (h.clears hclearing)
    simp only [exec, State.withDisk, attempt, hf, Option.map_some] at hexec
    cases hexec
    exact .inr (.inl ⟨rfl, hclearing, rfl, rfl, rfl⟩)
  refine .inl ?_
  rcases names_of_exec hexec with ⟨hs, hf, hp, -⟩ | ⟨-, hnone, hs, -, hf, hp⟩ | ⟨ho, -⟩ |
    ⟨f, ho, -⟩
  · exact ⟨hf, hp, fun hsome => by rwa [hs]⟩
  · exact ⟨hf, hp, fun hsome => absurd hnone hsome⟩
  · exact absurd ho hremoves
  · exact absurd ho hrenames

omit henabled in
/-- A single lane needs no lock. -/
theorem not_lockFor (hbase : Baseline setup s) (kind : LockKind) :
    ¬ Enabled setup t (s.point t) (.lockFor kind) := by
  intro henabled
  have hsingle := hsole.singleLane
  have hphase := h.phases t
  generalize hpt : s.point t = pt at henabled hphase
  cases henabled with
  | wantResume hstream' hstriped =>
    rw [hsingle _ _ hstream'] at hstriped
    cases hstriped
  | wantDiscarded hstream' hstriped =>
    rw [hsingle _ _ hstream'] at hstriped
    cases hstriped
  | wantFinalize hstream' hstriped =>
    rw [hsingle _ _ hstream'] at hstriped
    cases hstriped
  | wantDeciding => exact hphase
  | @wantWriting i _ _ args _ hstriped =>
    have hstream' : setup.streams i = some stream := hstream
    obtain ⟨-, ⟨admission, -, hargs⟩, -⟩ :=
      running_of_writing hbase hstream' (congrArg Point.phase hpt)
    rw [hargs] at hstriped
    have hplain := hsingle i stream hstream'
    rw [show isStriped stream.request = true from hstriped] at hplain
    cases hplain

theorem outside_step (hbase : Baseline setup s) (u : Task) (kind : LockKind) :
    ((moved s t (advance setup stream (s.point t) o r) s').point u).stage kind = .out := by
  by_cases hu : u = t
  · subst hu
    rw [moved_point_self, stage_advance, h.outside u kind]
    unfold stageAfter
    split
    · exact absurd henabled (not_lockFor hsole h hstream hbase _)
    · have hwanted := stage_of_lock henabled
      rw [h.outside] at hwanted
      cases hwanted
    · split <;> rfl
    · rfl
  · rw [moved_point_of_ne hu]
    exact h.outside u kind

include hfaults

theorem phases_step (hexec : exec t o .ok s.shared = some (r, s')) (u : Task) :
    ((moved s t (advance setup stream (s.point t) o r) s').point u).phase.OnCourse := by
  rcases henabled.moves_moved hstream r s' u with hsame | ⟨rfl, hmoves⟩
  · rw [hsame]
    exact h.phases u
  · refine onCourse_of_moves hfaults (hsole.singleLane _ _ hstream) hmoves (h.phases u)
      (h.outside u .finalize) ?_ ?_
    · rintro err rfl hr
      obtain rfl := eq_of_heq hr
      obtain ⟨written, hok⟩ := h.joined _ _ (joinWriter_of_exec hexec).1
      cases hok
    · rintro g hchecking rfl hr
      obtain rfl := eq_of_heq hr
      have hpresent := (finalExists_of_exec hexec).1
      have hu : ∃ i, u = .handler i := by
        generalize s.point u = pt at henabled
        cases henabled
        exact ⟨_, rfl⟩
      obtain ⟨i, hu⟩ := hu
      obtain rfl := hsole.handler hstream hu
      rw [h.vacant (h.checks g hchecking) (by rw [hchecking]; exact id)] at hpresent
      cases hpresent

omit hfaults in
/-- Before the writer is spawned, the staging file keeps its length. -/
theorem unchanged_step (hbase : Baseline setup s) (hexec : exec t o .ok s.shared = some (r, s'))
    (hrank : ((moved s t (advance setup stream (s.point t) o r) s').point
      (.handler 0)).phase.rank ≤ 8) : s'.disk.stagedBytes = staged := by
  have hrank' : (s.point (.handler 0)).phase.rank ≤ 8 :=
    Nat.le_trans (rank_le_moved hstream henabled r 0) hrank
  rw [← h.unchanged hrank']
  have hsame : s'.disk.staging = s.shared.disk.staging ∨
      s.shared.disk.staging = none ∧ s'.disk.stagedBytes = 0 := by
    rcases names_of_exec hexec with ⟨hs, -⟩ | ⟨rfl, hnone, hs, -⟩ | ⟨-, -, hs, -⟩ | ⟨f, rfl, -⟩
    · exact .inl hs
    · refine .inr ⟨hnone, ?_⟩
      rw [Disk.stagedBytes_of_some hs, made_empty hexec hnone hs]
      rfl
    · exact .inl hs
    · obtain ⟨i, ht, hvacant⟩ := vacant_of_renameStaging henabled
      obtain rfl := hsole.handler hstream ht
      rw [hvacant] at hrank'
      exact absurd hrank' (by decide)
  rcases hsame with hs | ⟨hnone, hzero⟩
  · cases hf : s.shared.disk.staging with
    | none => rw [Disk.stagedBytes_of_none hf, Disk.stagedBytes_of_none (hs.trans hf)]
    | some f =>
      rw [Disk.stagedBytes_of_some hf, Disk.stagedBytes_of_some (hs.trans hf)]
      rcases h.upright.data_of_exec hbase hstream henabled hexec hf with
        ⟨-, heq⟩ | ⟨i, args, _, _, _, _, _, _, rfl, hw, -⟩
      · rw [heq]
      · -- a writer is spawned behind these phases
        have hzero : i = 0 := (hsole.lane hstream).1
        subst hzero
        have hstream' : setup.streams 0 = some stream := hstream
        rw [(hbase.writers 0 stream hstream').absent hrank'] at hw
        cases hw
  · rw [hzero, Disk.stagedBytes_of_none hnone]

omit hfaults in
/-- The handler resumes where the staging file ended when the server was started. -/
theorem resumes_kept (hexec : exec t o .ok s.shared = some (r, s')) {resume : Nat}
    (hph : ((moved s t (advance setup stream (s.point t) o r) s').point
      (.handler 0)).phase.resume? = some resume) : resume = staged := by
  rcases henabled.moves_moved hstream r s' (.handler 0) with hsame | ⟨rfl, hmoves⟩
  · rw [hsame] at hph
    exact h.resumes resume hph
  · rcases resume_of_moves hmoves hph hsole.disk with
      hbefore | ⟨_, found, _, -, hfound, -⟩ | ⟨b, len, hleased, -, -, rfl, hr, rfl⟩
    · exact h.resumes resume hbefore
    · exact absurd hfound (h.upright.appending.unloaded _ _)
    · obtain rfl := eq_of_heq hr
      have hrank : (s.point (.handler 0)).phase.rank ≤ 8 := by
        rw [hleased]
        exact Nat.le_of_ble_eq_true rfl
      rw [← h.unchanged hrank, (stagingLen_of_exec hexec).2 len rfl]
      rfl

omit hfaults in
theorem leases_kept (hexec : exec t o .ok s.shared = some (r, s'))
    (hrank : ((moved s t (advance setup stream (s.point t) o r) s').point
      (.handler 0)).phase.rank ≤ 1) : s'.activeLaneWriters = [] := by
  have hbefore := h.leases (Nat.le_trans (rank_le_moved hstream henabled r 0) hrank)
  rcases activeLaneWriters_of_exec hexec with heq | ⟨lane, rfl⟩ | ⟨lane, rfl⟩
  · rw [heq]
    exact hbefore
  · -- the lease is free, and so the handler has got it
    obtain ⟨i, b, ht, hadmitted⟩ := admitted_of_acquire henabled
    obtain rfl := hsole.handler hstream ht
    simp only [exec, hbefore, List.not_mem_nil, if_false] at hexec
    cases hexec
    rw [moved_point_self] at hrank
    simp only [advance, hadmitted, Point.goto, Phase.rank] at hrank
    omega
  · cases hexec
    simp only [hbefore, List.filter_nil]

omit hsole h hstream in
theorem joined_ok (h : setup.OnCourse source staged s)
    (hexec : exec t o .ok s.shared = some (r, s')) :
    ∀ i result, s'.writers i = .finished result → ∃ written, result = .ok written := by
  intro i result hw
  rcases finished_of_exec hexec hw with hbefore | ⟨-, rfl⟩
  · exact h.joined i result hbefore
  · generalize s.point t = pt at henabled
    cases henabled with
    | finishOk => exact ⟨_, rfl⟩
    | finishError herror => exact absurd herror hfaults

omit hfaults in
theorem holds_step (hexec : exec t o .ok s.shared = some (r, s'))
    (hph : ((moved s t (advance setup stream (s.point t) o r) s').point
      (.handler 0)).phase.Holds) : s'.disk.staging ≠ none := by
  have hbefore : (s.point (.handler 0)).phase.Holds ∨ o = .openStaging := by
    rcases henabled.moves_moved hstream r s' (.handler 0) with hsame | ⟨rfl, hmoves⟩
    · rw [hsame] at hph
      exact .inl hph
    · exact holds_of_moves hsole.disk hmoves (h.phases _) hph
  rcases hbefore with hbefore | rfl
  · rcases final_of_exec hsole h hstream henabled hexec with
      ⟨-, -, hkept⟩ | ⟨-, -, -, hs, -⟩ | ⟨rfl, -, hplaced, -⟩
    · exact hkept (h.holds hbefore)
    · rw [hs]
      exact h.holds hbefore
    · rw [moved_point_self, hplaced] at hph
      exact hph.elim
  · cases hexec
    rw [Disk.openStaging_staging]
    exact Option.some_ne_none _

omit hfaults in
theorem clears_step (hexec : exec t o .ok s.shared = some (r, s'))
    (hph : ((moved s t (advance setup stream (s.point t) o r) s').point (.handler 0)).phase =
      .clearing) : s'.disk.final ≠ none := by
  rcases final_of_exec hsole h hstream henabled hexec with
    ⟨hf, -⟩ | ⟨rfl, -, hvacant, -⟩ | ⟨rfl, -, hplaced, -⟩
  · rw [hf]
    exact henabled.clears_moved hstream hexec h.clears hph
  · rw [moved_point_self, hvacant] at hph
    cases hph
  · rw [moved_point_self, hplaced] at hph
    cases hph

theorem vacant_kept (hexec : exec t o .ok s.shared = some (r, s'))
    (hkeeps : setup.keepsExisting = true)
    (hph : ¬ ((moved s t (advance setup stream (s.point t) o r) s').point
      (.handler 0)).phase.Past) : s'.disk.final = none := by
  have hbefore : ¬ (s.point (.handler 0)).phase.Past := by
    intro hpast
    rcases henabled.moves_moved hstream r s' (.handler 0) with hsame | ⟨rfl, hmoves⟩
    · rw [hsame] at hph
      exact hph hpast
    · exact hph (past_kept hfaults hmoves hpast)
  rcases final_of_exec hsole h hstream henabled hexec with
    ⟨hf, -⟩ | ⟨-, -, -, -, hf⟩ | ⟨rfl, -, hplaced, -⟩
  · rw [hf]
    exact h.vacant hkeeps hbefore
  · exact hf
  · rw [moved_point_self, hplaced] at hph
    exact absurd trivial hph

/-- **What was delivered stays at the final path.** -/
theorem placed_kept_past (hexec : exec t o .ok s.shared = some (r, s'))
    (hph : ((moved s t (advance setup stream (s.point t) o r) s').point
      (.handler 0)).phase.Past) :
    ∃ p ∈ s'.disk.placements, s'.disk.final = some p.file := by
  have hcases : (s.point (.handler 0)).phase.Past ∨
      o = .renameStaging ∧ HEq r (some () : Option Unit) := by
    rcases henabled.moves_moved hstream r s' (.handler 0) with hsame | ⟨rfl, hmoves⟩
    · rw [hsame] at hph
      exact .inl hph
    · exact past_of_moves hfaults hsole.disk hmoves (h.phases _) (h.outside _ .finalize) hph
  rcases hcases with hbefore | ⟨rfl, hr⟩
  · rcases final_of_exec hsole h hstream henabled hexec with
      ⟨hf, hp, -⟩ | ⟨rfl, hclearing, -⟩ | ⟨-, -, -, hplaced⟩
    · rw [hf, hp]
      exact h.placed hbefore
    · rw [hclearing] at hbefore
      exact hbefore.elim
    · exact hplaced
  · cases hr
    rcases renameStaging_of_exec hexec with ⟨hr, -⟩ | ⟨-, f, -, rfl⟩
    · cases hr
    · exact ⟨_, List.mem_append_right _ (List.mem_singleton_self _), rfl⟩

theorem settled_kept (hexec : exec t o .ok s.shared = some (r, s'))
    (hph : ((moved s t (advance setup stream (s.point t) o r) s').point
      (.handler 0)).phase.Settled) : s'.transfer.status = .completed := by
  have hcases : (s.point (.handler 0)).phase.Settled ∨ ∃ b, o = .setStatus .completed b := by
    rcases henabled.moves_moved hstream r s' (.handler 0) with hsame | ⟨rfl, hmoves⟩
    · rw [hsame] at hph
      exact .inl hph
    · exact settled_of_moves hfaults hmoves (h.phases _) (h.outside _ .finalize) hph
  rcases hcases with hbefore | ⟨b, rfl⟩
  · rw [← h.settled hbefore]
    rcases status_of_exec hexec with heq | ⟨m, n, b, rfl, -⟩ | ⟨st, b, rfl, -⟩
    · exact heq
    · obtain ⟨i, ht, hnot⟩ := not_settled_of_sets henabled (.inl ⟨_, _, _, rfl⟩)
      obtain rfl := hsole.handler hstream ht
      exact absurd hbefore hnot
    · obtain ⟨i, ht, hnot⟩ := not_settled_of_sets henabled (.inr ⟨_, _, rfl⟩)
      obtain rfl := hsole.handler hstream ht
      exact absurd hbefore hnot
  · cases hexec
    rfl

theorem answered_kept (hexec : exec t o .ok s.shared = some (r, s'))
    (hph : ((moved s t (advance setup stream (s.point t) o r) s').point
      (.handler 0)).phase.Answered) : ∃ ack, s'.acks 0 = some ack ∧ ack.status = .completed := by
  have hcases : (s.point (.handler 0)).phase.Answered ∨
      t = .handler 0 ∧ ∃ ack, o = .sendCompleteAck ack ∧ ack.status = .completed ∧
        HEq r (some () : Option Unit) := by
    rcases henabled.moves_moved hstream r s' (.handler 0) with hsame | ⟨rfl, hmoves⟩
    · rw [hsame] at hph
      exact .inl hph
    · exact (answered_of_moves hfaults hmoves (h.phases _) hph).imp_right fun hsent =>
        ⟨rfl, hsent⟩
  rcases hcases with hbefore | ⟨rfl, ack, rfl, hstatus, hr⟩
  · obtain ⟨ack, hack, hstatus⟩ := h.answered hbefore
    refine ⟨ack, ?_, hstatus⟩
    rcases acks_of_exec hexec with heq | ⟨ack', rfl, -⟩
    · rw [heq]
      exact hack
    · -- the answer is sent before the handler has answered
      obtain ⟨i, ht, st, hphase, -⟩ := of_sendCompleteAck henabled
      obtain rfl := hsole.handler hstream ht
      rcases hphase with hphase | hphase
      · rw [hphase] at hbefore
        exact hbefore.elim
      · rw [hphase] at hbefore
        exact hbefore.elim
  · cases hexec
    refine ⟨ack, ?_, hstatus⟩
    show Function.update s.shared.acks 0 (some ack) 0 = some ack
    rw [Function.update_self]

/-- **A step that comes out well keeps the only handler on its course.** -/
theorem Setup.OnCourse.step (hbase : Baseline setup s)
    (hexec : exec t o .ok s.shared = some (r, s')) :
    setup.OnCourse source staged (moved s t (advance setup stream (s.point t) o r) s') where
  upright := h.upright.step hsole.honest hsole.singleLane hbase hstream henabled hexec
  phases := phases_step hsole hfaults h hstream henabled hexec
  outside := outside_step hsole h hstream henabled hbase
  unchanged := unchanged_step hsole h hstream henabled hbase hexec
  resumes _ := resumes_kept hsole h hstream henabled hexec
  leases := leases_kept hsole h hstream henabled hexec
  joined := joined_ok hfaults henabled h hexec
  fine := fine_of_ok hexec h.fine
  holds := holds_step hsole h hstream henabled hexec
  clears := clears_step hsole h hstream henabled hexec
  checks _ := henabled.checks_moved hstream h.checks
  vacant := vacant_kept hsole hfaults h hstream henabled hexec
  placed := placed_kept_past hsole hfaults h hstream henabled hexec
  settled := settled_kept hsole hfaults h hstream henabled hexec
  answered := answered_kept hsole hfaults h hstream henabled hexec

end

/-! ## Runs -/

section

variable {ctx : Context} {transfer stored : TransferSummary}
  {streams : Nat → Option LaneStream} {source : List UInt8} {disk : Disk}

theorem onCourse_start {setup : Setup} (hdisk : disk.Resumable source)
    (hvacant : setup.keepsExisting = true → disk.final = none) :
    setup.OnCourse source disk.stagedBytes ⟨start stored disk, startPoint⟩ where
  upright := upright_start hdisk
  phases u := by cases u <;> trivial
  outside u kind := by cases u <;> cases kind <;> rfl
  unchanged _ := rfl
  resumes resume hph := by cases hph
  leases _ := rfl
  joined i result hw := by cases hw
  fine _ := rfl
  holds hph := hph.elim
  clears hph := by cases hph
  checks g hph := by cases hph
  vacant hkeeps _ := hvacant hkeeps
  placed hph := hph.elim
  settled hph := hph.elim
  answered hph := hph.elim

/-- What holds wherever an upload of a single lane leads in which nothing fails. -/
theorem onCourse_of_reaches (hsole : (reliable ctx transfer streams).SoleLane source)
    (hstored : SameTransfer transfer stored) (hdisk : disk.Resumable source)
    (hvacant : (reliable ctx transfer streams).keepsExisting = true → disk.final = none)
    {cfg : Config Task Op Op.Reply State (Except String Unit)}
    (hreaches : Config.Reaches machine (fun _ _ _ c => c = .ok)
      ⟨start stored disk, program ctx streams⟩ cfg) :
    ∃ point, Config.Obedient (protocol (reliable ctx transfer streams))
        (fun t _ pt => TaskReturned (reliable ctx transfer streams) t pt)
        ⟨⟨cfg.shared, point⟩, cfg.pool⟩ ∧
      Baseline (reliable ctx transfer streams) ⟨cfg.shared, point⟩ ∧
      (reliable ctx transfer streams).OnCourse source disk.stagedBytes ⟨cfg.shared, point⟩ := by
  have hInv : Invariant machine (protocol (reliable ctx transfer streams))
      (fun _ _ _ c => c = .ok) fun s => Baseline (reliable ctx transfer streams) s ∧
        (reliable ctx transfer streams).OnCourse source disk.stagedBytes s := by
    refine invariant_of ?_
    rintro s t stream o c r s' ⟨hbase, h⟩ hstream henabled rfl hexec
    exact ⟨h.possible hsole hbase hstream henabled hexec, hbase.step hstream henabled hexec,
      h.step hsole id hstream henabled hbase hexec⟩
  obtain ⟨point, hto⟩ := hreaches.tracked (protocol (reliable ctx transfer streams)) startPoint
  refine ⟨point, hInv.reaches ?_ ⟨baseline_start disk hstored, onCourse_start hdisk hvacant⟩ hto⟩
  exact program_obeys _ fun _ i stream hstream => hsole.regular hstream

/-- The source was delivered, and the only lane has been told so. -/
structure ToldDelivered (source : List UInt8) (s : State) : Prop where
  status : s.transfer.status = .completed
  content : s.disk.finalContent = some source
  ack : ∃ ack, s.acks 0 = some ack ∧ ack.status = .completed

/-- **When the handler has returned, the source has been delivered**, of which only what was not
in the staging file was written; a run goes on until then, and not forever. -/
theorem resumed_delivers (hsole : (reliable ctx transfer streams).SoleLane source)
    (hstored : SameTransfer transfer stored) (hdisk : disk.Resumable source)
    (hvacant : (reliable ctx transfer streams).keepsExisting = true → disk.final = none) :
    (∀ cfg, Config.Reaches machine (fun _ _ _ c => c = .ok)
        ⟨start stored disk, program ctx streams⟩ cfg →
      (∀ args, cfg.shared.writers 0 = .running args → args.resumeOffset = disk.stagedBytes) ∧
      ((∀ t, cfg.step? machine t .ok = none) → AllReturned 1 cfg) ∧
      (AllReturned 1 cfg → ToldDelivered source cfg.shared)) ∧
    ∀ f : Nat → Config Task Op Op.Reply State (Except String Unit),
      f 0 = ⟨start stored disk, program ctx streams⟩ →
      ∃ n, ∀ t c, (f n).step? machine t c ≠ some (f (n + 1)) := by
  refine ⟨fun cfg hreaches => ?_, fun f hf => ?_⟩
  · obtain ⟨point, hobedient, hbase, h⟩ := onCourse_of_reaches hsole hstored hdisk hvacant hreaches
    obtain ⟨stream, hstream, -⟩ := hsole.sends
    refine ⟨fun args hw => ?_, fun hstuck i _ => ?_, fun hreturned => ?_⟩
    · obtain ⟨resume, hdraining⟩ := h.upright.draining hstream hw
      rw [((hbase.writers 0 stream hstream).running args hw).2.1 resume hdraining]
      exact h.resumes resume (by rw [hdraining]; rfl)
    · refine returned_of_stuck hobedient hbase h.upright.others (fun t o k hpool => ?_) i
      have hnone := hstuck t
      have hpool' : cfg.pool t = .act o k := hpool
      simp only [Config.step?, hpool'] at hnone
      exact Option.map_eq_none_iff.1 hnone
    · obtain ⟨a, ha⟩ := hreturned 0 Nat.one_pos
      have hreleased : (point (.handler 0)).phase = .released := by
        rcases hobedient.returned ha with hnone | hreleased | ⟨hfaults, -⟩
        · have hnone' : (reliable ctx transfer streams).streams 0 = none := hnone
          rw [hstream] at hnone'
          cases hnone'
        · exact congrArg Point.phase hreleased
        · exact hfaults.elim
      have hpast : (point (.handler 0)).phase.Past := by
        rw [hreleased]
        trivial
      have hsettled : (point (.handler 0)).phase.Settled := by
        rw [hreleased]
        trivial
      have hanswered : (point (.handler 0)).phase.Answered := by
        rw [hreleased]
        trivial
      refine ⟨h.settled hsettled, ?_, h.answered hanswered⟩
      obtain ⟨p, hp, hfinal⟩ := h.placed hpast
      rw [Disk.finalContent, hfinal, Option.map_some, h.upright.delivered.placements p hp]
  · refine Config.exists_stop (f := f) machine fun t (ht : t ∉ laneTasks 1) => ?_
    rw [hf]
    exact returned_of_not_mem hsole.only ht

end

end Metra.Server
