import Metra.Server.Delivery
import Metra.Server.LastLane

/-!
# A striped upload is delivered once

Once the transfer of a session is completed, the file has been delivered, and nothing is
left but answers to be sent.

* `Setup.Finished` — what holds from then on;
* `Setup.Flawless.step` — **a session in which nothing fails is under way or finished after
  every step**;
* `striped_delivered_once` — whatever the interleaving, the staging file is renamed once,
  when it is the source and synced, and every lane is answered;
* `striped_delivered_once_pair` — two lanes.
-/

namespace Metra.Server

open Interleave

/-- What holds once the transfer is completed. -/
structure Setup.Finished (setup : Setup) (source : List UInt8) (lanes : Nat)
    (s : Tracked Task Point State) : Prop where
  status : s.shared.transfer.status = .completed
  done : ∀ i < lanes, setup.LaneDone lanes s i
  nobody : ∀ u, ¬ (s.point u).phase.Finalizing
  placed : ∃ p, s.shared.disk.placements = [p] ∧ s.shared.disk.final = some p.file ∧
    p.inode = ⟨source, source⟩
  answered : ∃ i < lanes, (s.point (.handler i)).phase = .settling .completed ∨
    (s.point (.handler i)).phase = .reported .completed ∨
    ∃ ack, s.shared.acks i = some ack ∧ ack.status = .completed

/-- The operations that a completed transfer sees no more. -/
def Op.Precedes : Op → Prop
  | .readCheckpoint | .openStaging | .finalExists | .removeFinal | .renameStaging
  | .markRunning .. | .setStatus .. => True
  | _ => False

section

variable {setup : Setup} {source : List UInt8} {lanes : Nat} {s : Tracked Task Point State}
  {t : Task} {stream : LaneStream} {o : Op} {r : o.Reply} {s' : State}
  (hsession : setup.Session source lanes) (hfaults : ¬ setup.faults) (hbase : Baseline setup s)
  (hsteady : setup.Steady lanes s) (h : setup.Finished source lanes s)
  (hstream : setup.streams t.stream = some stream) (henabled : Enabled setup t (s.point t) o)
  (hexec : exec t o .ok s.shared = some (r, s'))

/-! ## After the transfer is completed -/

section

include hsession hbase hsteady h hstream henabled

/-- **When all lanes are done, nothing is left but answers to be sent.** -/
theorem Setup.Finished.not_precedes : ¬ o.Precedes := by
  have hi := (hsession.lane hstream).1
  have hlate := rank_of_done hsession hbase hi (h.done _ hi)
  have hnobody := h.nobody t
  have hphase := hsteady.phases t
  generalize hpt : s.point t = pt at henabled hnobody hphase
  cases henabled with
  | @loadWriting i =>
    have hpoint := congrArg Point.phase hpt
    have hstream' : setup.streams i = some stream := hstream
    obtain ⟨-, -, -, hend⟩ := writing_bounds hsession hbase hsteady.inLanes hstream' hpoint
    have hpending := hsteady.inLanes.writers i
    have hdone := h.done i hi
    rw [Setup.LaneDone, Setup.durable, hpt] at hdone
    rw [hpt] at hpending
    have hlt := hpending.2.2 (by simp) rfl
    simp only [Phase.durable] at hdone
    omega
  | fail => exact hphase.elim
  | loadDeciding | setIncomplete | completeDiscarded | finalExists | removeFinal | rename |
    complete | refuse => exact absurd trivial hnobody
  | loadExisting | markRunning | markRunningDiscard | presizeOpen | openStaging | loadDiscarded =>
    rw [Task.stream, hpt] at hlate
    exact absurd hlate (by simp [Phase.rank])
  | _ => exact id

theorem Setup.Finished.undeterred : setup.Undeterred lanes s t o where
  finds b found hphase := by
    have hi := (hsession.lane hstream).1
    have hlate := rank_of_done hsession hbase hi (h.done _ hi)
    cases t with
    | handler i =>
      rw [Task.stream, hphase] at hlate
      exact absurd hlate (by simp [Phase.rank])
    | writer i =>
      have hstream' : setup.streams i = some stream := hstream
      rcases phase_of_writer hbase hstream' with heq | ⟨_, _, _, _, _, heq⟩ | ⟨_, _, heq⟩ | heq
      all_goals
        rw [hphase] at heq
        cases heq
  reads ho := by
    subst ho
    exact absurd trivial (h.not_precedes hsession hbase hsteady hstream henabled)
  passes ho := by
    subst ho
    exact absurd trivial (h.not_precedes hsession hbase hsteady hstream henabled)
  clears ho := by
    subst ho
    exact absurd trivial (h.not_precedes hsession hbase hsteady hstream henabled)
  renames ho := by
    subst ho
    exact absurd trivial (h.not_precedes hsession hbase hsteady hstream henabled)

theorem Setup.Finished.careful : setup.Careful source s t o where
  trusts ho := by
    have hsmooth := hsteady.smooth hsession
      (h.undeterred hsession hbase hsteady hstream henabled) hstream henabled
    exact absurd ho hsmooth.measures
  makes ho := by
    subst ho
    exact absurd trivial (h.not_precedes hsession hbase hsteady hstream henabled)
  removes ho := by
    subst ho
    exact absurd trivial (h.not_precedes hsession hbase hsteady hstream henabled)
  agrees ho := by
    subst ho
    exact absurd trivial (h.not_precedes hsession hbase hsteady hstream henabled)
  vouches _ i _ _ := hsteady.inLanes.fine i

end

/-- Who has completed the transfer goes on to answer that it is. -/
theorem answered_of_goes {ph ph' : Phase} (h : Goes t ph o r ph')
    (hph : ph = .settling .completed ∨ ph = .reported .completed) :
    ph' = .reported .completed ∨ ∃ ack, o = .sendCompleteAck ack ∧ ack.status = .completed := by
  cases h with
  | reported =>
    rcases hph with hph | hph
    · cases hph
      exact .inl rfl
    · cases hph
  | sentSettled hack =>
    rcases hph with hph | hph
    · cases hph
      exact .inr ⟨_, rfl, hack⟩
    · cases hph
  | sentReported hack =>
    rcases hph with hph | hph
    · cases hph
    · cases hph
      exact .inr ⟨_, rfl, hack⟩
  | _ => rcases hph with hph | hph <;> cases hph

/-- An answer that was sent is not sent again. -/
theorem ack_kept (hsteady : setup.Steady lanes s) (henabled : Enabled setup t (s.point t) o)
    (hexec : exec t o .ok s.shared = some (r, s')) {i : Nat} {ack : QuicTransferCompleteAck}
    (hack : s.shared.acks i = some ack) : s'.acks i = some ack := by
  rcases acks_of_exec hexec with heq | ⟨ack', rfl, heq⟩
  · rw [heq]
    exact hack
  · have hne : i ≠ t.stream := by
      rintro rfl
      obtain ⟨j, rfl, st, hphase, -⟩ := of_sendCompleteAck henabled
      have hended := (hsteady.ended j).2 ⟨ack, hack⟩
      rcases hphase with hphase | hphase
      · rw [hphase] at hended
        exact hended
      · rw [hphase] at hended
        exact hended
    rw [heq, Function.update_of_ne hne]
    exact hack

include hsession hfaults hbase hsteady h hstream henabled hexec

/-- A lane answers that the transfer is completed. -/
theorem answered_step : ∃ i < lanes,
    ((moved s t (advance setup stream (s.point t) o r) s').point (.handler i)).phase =
        .settling .completed ∨
      ((moved s t (advance setup stream (s.point t) o r) s').point (.handler i)).phase =
        .reported .completed ∨
      ∃ ack, s'.acks i = some ack ∧ ack.status = .completed := by
  obtain ⟨i, hi, hanswers⟩ := h.answered
  refine ⟨i, hi, ?_⟩
  by_cases ht : Task.handler i = t
  · subst ht
    rw [moved_point_self]
    rw [← or_assoc] at hanswers
    rcases hanswers with hph | ⟨ack, hack, hcompleted⟩
    · rcases hsession.goes hfaults hbase hstream henabled r with hsame | hgoes
      · rw [hsame]
        exact hph.imp_right .inl
      · rcases answered_of_goes hgoes hph with hreported | ⟨ack, rfl, hcompleted⟩
        · exact .inr (.inl hreported)
        · cases hexec
          exact .inr (.inr ⟨ack, Function.update_self _ _ _, hcompleted⟩)
    · exact .inr (.inr ⟨ack, ack_kept hsteady henabled hexec hack, hcompleted⟩)
  · rw [moved_point_of_ne ht]
    exact hanswers.imp_right (Or.imp_right fun ⟨ack, hack, hcompleted⟩ =>
      ⟨ack, ack_kept hsteady henabled hexec hack, hcompleted⟩)

/-- **A transfer that is completed stays so.** -/
theorem Setup.Finished.step :
    setup.Finished source lanes (moved s t (advance setup stream (s.point t) o r) s') where
  status := by
    have hpast := h.not_precedes hsession hbase hsteady hstream henabled
    rcases status_of_exec hexec with heq | ⟨_, _, _, rfl, -⟩ | ⟨_, _, rfl, -⟩
    · rw [moved_shared, heq]
      exact h.status
    · exact absurd trivial hpast
    · exact absurd trivial hpast
  done i hi := Setup.LaneDone.step hsession hfaults hbase hsteady.inLanes hstream henabled hexec hi
    (h.done i hi)
  nobody := by
    refine forall_moved (P := fun _ pt => ¬ pt.phase.Finalizing) ?_ fun u _ => h.nobody u
    intro hph
    rcases finalizing_of_advance hstream henabled hph with hbefore | ⟨rfl, -⟩ | ⟨hsingle, -⟩
    · exact h.nobody t hbefore
    · cases hexec
      simp [advance, h.status, Point.goto, Phase.Finalizing] at hph
    · rw [hsession.isStriped_eq hstream] at hsingle
      cases hsingle
  placed := by
    have hpast := h.not_precedes hsession hbase hsteady hstream henabled
    rw [moved_shared]
    rcases names_of_exec hexec with ⟨-, hf, hp, -⟩ | ⟨rfl, -⟩ | ⟨rfl, -⟩ | ⟨_, rfl, -⟩
    · rw [hf, hp]
      exact h.placed
    · exact absurd trivial hpast
    · exact absurd trivial hpast
    · exact absurd trivial hpast
  answered := answered_step hsession hfaults hbase hsteady h hstream henabled hexec

end

/-! ## All steps -/

section

variable {setup : Setup} {source : List UInt8} {lanes : Nat} {s : Tracked Task Point State}
  {t : Task} {stream : LaneStream} {o : Op} {r : o.Reply} {s' : State}

/-- **Who has delivered the file completes the transfer.** -/
theorem Setup.Underway.finish (hsession : setup.Session source lanes) (hfaults : ¬ setup.faults)
    (hbase : Baseline setup s) (hsteady : setup.Steady lanes s)
    (h : setup.Underway source lanes s) (hstream : setup.streams t.stream = some stream) {b : Nat}
    (henabled : Enabled setup t (s.point t) (.setStatus .completed b)) {r : Unit}
    (hexec : exec t (.setStatus .completed b) .ok s.shared = some (r, s')) :
    setup.Finished source lanes
      (moved s t (advance setup stream (s.point t) (.setStatus .completed b) r) s') := by
  have hphase : (s.point t).phase = .placed := by
    generalize s.point t = pt at henabled
    cases henabled with
    | completeDiscarded hdiscards =>
      rw [hsession.disk] at hdiscards
      cases hdiscards
    | complete => rfl
  have hhandler : ∃ i, t = .handler i := by
    generalize s.point t = pt at henabled
    cases henabled <;> exact ⟨_, rfl⟩
  have hdelivers : (s.point t).phase.Delivers := by
    rw [hphase]
    trivial
  have hcompleted : s'.transfer.status = .completed := by
    cases hexec
    rfl
  have hdisk : s'.disk = s.shared.disk := by
    cases hexec
    rfl
  refine ⟨hcompleted, fun i hi => ?_, ?_, ?_, ?_⟩
  · exact Setup.LaneDone.step hsession hfaults hbase hsteady.inLanes hstream henabled hexec hi
      (h.decided t hdelivers i hi)
  · exact completed_preserved h.exclusive hstream henabled (h.orderly hsession hbase henabled) hexec
      hcompleted
  · rw [moved_shared, hdisk]
    exact h.placed t hphase
  · obtain ⟨i, rfl⟩ := hhandler
    refine ⟨i, (hsession.lane hstream).1, .inl ?_⟩
    rw [moved_point_self]
    rfl

/-- What holds in every run of a session in which nothing fails. -/
structure Setup.Flawless (setup : Setup) (source : List UInt8) (lanes : Nat)
    (s : Tracked Task Point State) : Prop where
  base : Baseline setup s
  delivered : setup.Delivered source s
  staged : setup.Staged source s
  steady : setup.Steady lanes s
  stage : setup.Underway source lanes s ∨ setup.Finished source lanes s

section

variable (hsession : setup.Session source lanes) (h : setup.Flawless source lanes s)
  (hstream : setup.streams t.stream = some stream) (henabled : Enabled setup t (s.point t) o)

include hsession h hstream henabled

theorem Setup.Flawless.undeterred : setup.Undeterred lanes s t o := by
  rcases h.stage with hunderway | hfinished
  · exact hunderway.undeterred hsession h.base hstream henabled
  · exact hfinished.undeterred hsession h.base h.steady hstream henabled

theorem Setup.Flawless.careful : setup.Careful source s t o := by
  rcases h.stage with hunderway | hfinished
  · exact hunderway.careful hsession h.base h.steady hstream henabled
  · exact hfinished.careful hsession h.base h.steady hstream henabled

/-- **A session in which nothing fails is under way or finished after every step.** -/
theorem Setup.Flawless.step (hfaults : ¬ setup.faults)
    (hexec : exec t o .ok s.shared = some (r, s')) :
    setup.Flawless source lanes (moved s t (advance setup stream (s.point t) o r) s') where
  base := h.base.step hstream henabled hexec
  delivered := delivered_step hsession.honest h.base h.delivered
    (.inr ⟨h.staged, h.careful hsession hstream henabled⟩) hstream henabled hexec
  staged := staged_step hsession.honest h.base h.delivered h.staged
    (h.careful hsession hstream henabled) hstream henabled hexec
  steady := h.steady.step hsession hfaults h.base (h.undeterred hsession hstream henabled) hstream
    henabled hexec
  stage := by
    rcases h.stage with hunderway | hfinished
    · by_cases hcompletes : ∃ b, o = .setStatus .completed b
      · obtain ⟨b, rfl⟩ := hcompletes
        exact .inr (hunderway.finish hsession hfaults h.base h.steady hstream henabled hexec)
      · push Not at hcompletes
        exact .inl (hunderway.step hsession hfaults h.base h.steady hstream henabled hexec h.staged
          hcompletes)
    · exact .inr (hfinished.step hsession hfaults h.base h.steady hstream henabled hexec)

end

end

/-! ## The start -/

section

variable {setup : Setup} {source : List UInt8} {lanes : Nat} {disk : Disk}

theorem steady_start {stored : TransferSummary} :
    setup.Steady lanes ⟨start stored disk, startPoint⟩ where
  others _ _ := rfl
  phases u := by cases u <;> trivial
  leases lane hlane := by cases hlane
  ended i := by
    refine iff_of_false id ?_
    rintro ⟨ack, hack⟩
    cases hack
  answers i ack hack := by cases hack
  inLanes := by
    refine ⟨fun i stream resume _ hlive => ?_, fun i => trivial, fun i result hw => ?_,
      fun i hrank => ?_, fun i => rfl⟩
    · rcases hlive with ⟨-, hphase | ⟨args, hw, -⟩⟩
      · cases hphase
      · cases hw
    · cases hw
    · simp [startPoint, Point.free, Phase.rank] at hrank

theorem underway_start (hsession : setup.Session source lanes) {stored : TransferSummary}
    (hstatus : stored.status ≠ .completed) (hfresh : disk.Fresh)
    (hvacant : setup.keepsExisting = true → disk.final = none) :
    setup.Underway source lanes ⟨start stored disk, startPoint⟩ where
  status := hstatus
  entries _ := .inr rfl
  exclusive := exclusive_start (hfresh.recoverable setup.transfer source).sound hfresh.placements
  recorded := recorded_start (by simp [hfresh.versions]) (by simp [hfresh.versions])
  sees u hsees := by cases u <;> exact hsees.elim
  record := by
    refine .inl ⟨?_, fun i _ => Nat.zero_le _⟩
    show disk.checkpoint = none
    rw [Disk.checkpoint, hfresh.versions]
    rfl
  staging _ := .inr fun i _ => Nat.zero_le _
  synced := by
    have hnone : ∀ f, disk.staging ≠ some f := by simp [hfresh.staging]
    exact ⟨fun f hf => absurd hf (hnone f), fun f hf => absurd hf (hnone f)⟩
  decided u hu := by cases u <;> exact hu.elim
  pending := .inl ⟨0, hsession.pos, Nat.zero_le _⟩
  checks u _ hu := by cases u <;> cases hu
  clears u hu := by cases u <;> cases hu
  vacant _ := ⟨hvacant, hfresh.placements⟩
  placed u hu := by cases u <;> cases hu
  settled u st hu := by
    rcases hu with hu | hu
    · cases u <;> cases hu
    · cases u <;> cases hu

theorem flawless_start (hsession : setup.Session source lanes)
    (hstatus : setup.transfer.status ≠ .completed) (hfresh : disk.Fresh)
    (hvacant : setup.keepsExisting = true → disk.final = none) :
    setup.Flawless source lanes ⟨start setup.transfer disk, startPoint⟩ where
  base := baseline_start disk (sameTransfer_refl _)
  delivered := delivered_start (hfresh.recoverable setup.transfer source)
  staged := staged_of_recorded (by simp [hfresh.staging])
  steady := steady_start
  stage := .inl (underway_start hsession hstatus hfresh hvacant)

end

/-! ## The runs -/

/-- All lanes have returned. -/
def AllReturned (lanes : Nat) (cfg : Config Task Op Op.Reply State (Except String Unit)) : Prop :=
  ∀ i < lanes, ∃ a, cfg.pool (.handler i) = .ret a

/-- The source was delivered by one renaming, and all lanes have been answered. -/
structure DeliveredOnce (source : List UInt8) (lanes : Nat) (s : State) : Prop where
  status : s.transfer.status = .completed
  once : ∃ p, s.disk.placements = [p] ∧ p.inode = ⟨source, source⟩
  content : s.disk.finalContent = some source
  acks : ∀ i < lanes, ∃ ack, s.acks i = some ack ∧
    (ack.status = .running ∨ ack.status = .completed)
  completed : ∃ i < lanes, ∃ ack, s.acks i = some ack ∧ ack.status = .completed

section

variable {setup : Setup} {source : List UInt8} {lanes : Nat} {s : Tracked Task Point State}

/-- What has been renamed was the source, all of it synced, and only once. -/
theorem Setup.Flawless.placements (h : setup.Flawless source lanes s) :
    s.shared.disk.placements.length ≤ 1 ∧
      ∀ p ∈ s.shared.disk.placements, p.inode = ⟨source, source⟩ := by
  have hone : s.shared.disk.placements = [] ∨
      ∃ p, s.shared.disk.placements = [p] ∧ p.inode = ⟨source, source⟩ := by
    rcases h.stage with hunderway | hfinished
    · by_cases hplaced : ∃ u, (s.point u).phase = .placed
      · obtain ⟨u, hu⟩ := hplaced
        obtain ⟨p, hp, -, hinode⟩ := hunderway.placed u hu
        exact .inr ⟨p, hp, hinode⟩
      · push Not at hplaced
        exact .inl (hunderway.vacant hplaced).2
    · obtain ⟨p, hp, -, hinode⟩ := hfinished.placed
      exact .inr ⟨p, hp, hinode⟩
  rcases hone with hnil | ⟨p, hp, hinode⟩
  · simp [hnil]
  · simp [hp, hinode]

/-- **When all handlers have released their lanes, the transfer is finished**: somebody would
have to deliver the file, and nobody is left. -/
theorem Setup.Flawless.finished (hsession : setup.Session source lanes)
    (h : setup.Flawless source lanes s)
    (hreleased : ∀ i < lanes, (s.point (.handler i)).phase = .released) :
    setup.Finished source lanes s := by
  refine h.stage.resolve_left fun hunderway => ?_
  rcases hunderway.pending with ⟨i, hi, hundecided⟩ | ⟨u, hu⟩
  · rw [hreleased i hi] at hundecided
    exact absurd hundecided (by simp [Phase.Undecided, Phase.rank])
  · obtain ⟨stream, hstream, -⟩ := hunderway.exclusive.inside u hu.finalizing
    have hi := (hsession.lane hstream).1
    cases u with
    | handler i =>
      rw [hreleased i hi] at hu
      exact hu
    | writer i =>
      have hdone : (s.point (.writer i)).phase = .done := by
        refine h.steady.inLanes.drained i ?_
        rw [hreleased i hi]
        exact Nat.le_succ 10
      rw [hdone] at hu
      exact hu

theorem Setup.Flawless.deliveredOnce (hsession : setup.Session source lanes)
    (h : setup.Flawless source lanes s)
    (hreleased : ∀ i < lanes, (s.point (.handler i)).phase = .released) :
    DeliveredOnce source lanes s.shared := by
  have hfinished := h.finished hsession hreleased
  obtain ⟨p, hp, hfinal, hinode⟩ := hfinished.placed
  refine ⟨hfinished.status, ⟨p, hp, hinode⟩, ?_, fun i hi => ?_, ?_⟩
  · rw [Disk.finalContent, hfinal, Option.map_some, h.delivered.placements p (by simp [hp])]
  · have hended : (s.point (.handler i)).phase.Ended := by
      rw [hreleased i hi]
      trivial
    obtain ⟨ack, hack⟩ := (h.steady.ended i).1 hended
    exact ⟨ack, hack, h.steady.answers i ack hack⟩
  · obtain ⟨i, hi, hsettling | hreported | hanswered⟩ := hfinished.answered
    · rw [hreleased i hi] at hsettling
      cases hsettling
    · rw [hreleased i hi] at hreported
      cases hreported
    · exact ⟨i, hi, hanswered⟩

end

/-- The tasks of the lanes. -/
def laneTasks (lanes : Nat) : Finset Task :=
  (Finset.range lanes).image .handler ∪ (Finset.range lanes).image .writer

theorem returned_of_not_mem {ctx : Context} {streams : Nat → Option LaneStream} {lanes : Nat}
    (honly : ∀ i, lanes ≤ i → streams i = none) {t : Task} (ht : t ∉ laneTasks lanes) :
    ∃ a, program ctx streams t = .ret a := by
  have hnone : streams t.stream = none := by
    refine honly _ (not_lt.1 fun hlt => ht ?_)
    cases t <;> simpa [laneTasks, Task.stream] using hlt
  cases t with
  | handler i =>
    have hi : streams i = none := hnone
    exact ⟨.ok (), by simp only [program, hi]; rfl⟩
  | writer i =>
    have hi : streams i = none := hnone
    exact ⟨.ok (), by simp only [program, hi]; rfl⟩

/-- What holds wherever a session leads in which nothing fails. -/
theorem flawless_of_reaches {ctx : Context} {transfer : TransferSummary}
    {streams : Nat → Option LaneStream} {source : List UInt8} {lanes : Nat}
    (hsession : (reliable ctx transfer streams).Session source lanes)
    (hstatus : transfer.status ≠ .completed) {disk : Disk} (hfresh : disk.Fresh)
    (hvacant : (reliable ctx transfer streams).keepsExisting = true → disk.final = none)
    {cfg : Config Task Op Op.Reply State (Except String Unit)}
    (hreaches : Config.Reaches machine (fun _ _ _ c => c = .ok)
      ⟨start transfer disk, program ctx streams⟩ cfg) :
    ∃ point, Config.Obedient (protocol (reliable ctx transfer streams))
        (fun t _ pt => TaskReturned (reliable ctx transfer streams) t pt)
        ⟨⟨cfg.shared, point⟩, cfg.pool⟩ ∧
      (reliable ctx transfer streams).Flawless source lanes ⟨cfg.shared, point⟩ := by
  have hInv : Invariant machine (protocol (reliable ctx transfer streams))
      (fun _ _ _ c => c = .ok) ((reliable ctx transfer streams).Flawless source lanes) := by
    refine invariant_of ?_
    rintro s t stream o c r s' h hstream henabled rfl hexec
    refine ⟨h.base.possible_of (.inr ⟨rfl, ?_⟩) hstream henabled hexec,
      h.step hsession hstream henabled id hexec⟩
    exact h.steady.smooth hsession (h.undeterred hsession hstream henabled) hstream henabled
  obtain ⟨point, hto⟩ :=
    hreaches.tracked (protocol (reliable ctx transfer streams)) startPoint
  refine ⟨point, hInv.reaches ?_ (flawless_start hsession hstatus hfresh hvacant) hto⟩
  exact program_obeys _ fun _ i stream hstream => hsession.regular hstream

/-- **A striped upload is delivered once**: in whatever order the tasks of its lanes take
their steps, none of which fails, the staging file is renamed at most once, and then it is the
source, all of it written and synced.  A run goes on until all lanes have returned, it cannot
go on forever, and in the end the file has been delivered. -/
theorem striped_delivered_once (ctx : Context) (transfer : TransferSummary)
    (streams : Nat → Option LaneStream) (source : List UInt8) (lanes : Nat)
    (hsession : (reliable ctx transfer streams).Session source lanes)
    (hstatus : transfer.status ≠ .completed) {disk : Disk} (hfresh : disk.Fresh)
    (hvacant : disk.final = none) :
    (∀ cfg, Config.Reaches machine (fun _ _ _ c => c = .ok)
        ⟨start transfer disk, program ctx streams⟩ cfg →
      (cfg.shared.disk.placements.length ≤ 1 ∧
        ∀ p ∈ cfg.shared.disk.placements, p.inode = ⟨source, source⟩) ∧
      (∀ i ack, cfg.shared.acks i = some ack →
        ack.status = .running ∨ ack.status = .completed) ∧
      ((∀ t, cfg.step? machine t .ok = none) → AllReturned lanes cfg) ∧
      (AllReturned lanes cfg → DeliveredOnce source lanes cfg.shared)) ∧
    ∀ f : Nat → Config Task Op Op.Reply State (Except String Unit),
      f 0 = ⟨start transfer disk, program ctx streams⟩ →
      ∃ n, ∀ t c, (f n).step? machine t c ≠ some (f (n + 1)) := by
  refine ⟨fun cfg hreaches => ?_, fun f hf => ?_⟩
  · obtain ⟨point, hobedient, h⟩ :=
      flawless_of_reaches hsession hstatus hfresh (fun _ => hvacant) hreaches
    refine ⟨h.placements, h.steady.answers, fun hstuck i _ => ?_, fun hreturned => ?_⟩
    · refine returned_of_stuck hobedient h.base h.steady.others (fun t o k hpool => ?_) i
      have hnone := hstuck t
      have hpool' : cfg.pool t = .act o k := hpool
      simp only [Config.step?, hpool'] at hnone
      exact Option.map_eq_none_iff.1 hnone
    · refine h.deliveredOnce hsession fun i hi => ?_
      obtain ⟨a, ha⟩ := hreturned i hi
      obtain ⟨stream, hstream, -⟩ := hsession.sends i hi
      rcases hobedient.returned ha with hnone | hreleased | ⟨hfaults, -⟩
      · have hnone' : (reliable ctx transfer streams).streams i = none := hnone
        rw [hstream] at hnone'
        cases hnone'
      · exact congrArg Point.phase hreleased
      · exact hfaults.elim
  · refine Config.exists_stop (f := f) machine fun t (ht : t ∉ laneTasks lanes) => ?_
    rw [hf]
    exact returned_of_not_mem hsession.only ht

/-! ## Two lanes -/

/-- The task has returned. -/
def Scenario.returned (cfg : Config Task Op Op.Reply State (Except String Unit))
    (t : Task) : Bool :=
  match cfg.pool t with
  | .ret _ => true
  | .act .. => false

theorem of_returned {cfg : Config Task Op Op.Reply State (Except String Unit)} {t : Task}
    (h : Scenario.returned cfg t = true) : ∃ a, cfg.pool t = .ret a := by
  unfold Scenario.returned at h
  split at h
  · exact ⟨_, by assumption⟩
  · cases h

open Scenario in
theorem session_bothLanes :
    (reliable ctx (transfer [7, 8] true .queued) fun i => bothLanes[i]?).Session [7, 8] 2 where
  size := rfl
  disk := by
    show isNullSinkUri "file:///a.bin" = false
    decide +kernel
  opens := Metra.Sample.crypto_opensSealed
  tenantId := by decide +kernel
  userId := by decide +kernel
  striped := Nat.le_refl 2
  le_max := by decide
  le_size := Nat.le_refl 2
  sends i hi := by
    refine ⟨lane [7, 8] 2 i, ?_, sends_lane hi (by decide) true .queued⟩
    match i, hi with
    | 0, _ => rfl
    | 1, _ => rfl
  only i hi := List.getElem?_eq_none hi

open Scenario in
/-- One lane finds that the other is not complete, which then delivers the file. -/
theorem striped_delivered_once_pair :
    ∃ cfg, Config.Reaches machine (fun _ _ _ c => c = .ok)
        (server (transfer [7, 8] true .queued) noFiles bothLanes) cfg ∧
      AllReturned 2 cfg ∧ DeliveredOnce [7, 8] 2 cfg.shared := by
  have hrun : ((server (transfer [7, 8] true .queued) noFiles bothLanes).runIf machine
      (fun _ _ _ c => decide (c = .ok))
      (turns [(.handler 0, 17), (.handler 1, 17), (.writer 0, 11), (.handler 0, 14),
        (.writer 1, 11), (.handler 1, 20)])).any
      (fun cfg => returned cfg (.handler 0) && returned cfg (.handler 1)) = true := by
    decide +kernel
  have hfresh : noFiles.Fresh := ⟨rfl, rfl, rfl, fun f hf => by cases hf⟩
  obtain ⟨cfg, hreaches, hreturned⟩ :=
    Config.reaches_of_runIf_any (fun _ _ _ _ h => of_decide_eq_true h) hrun
  obtain ⟨hfirst, hsecond⟩ := Bool.and_eq_true_iff.1 hreturned
  have hall : AllReturned 2 cfg := by
    intro i hi
    match i, hi with
    | 0, _ => exact of_returned hfirst
    | 1, _ => exact of_returned hsecond
  obtain ⟨-, -, -, hdelivered⟩ := (striped_delivered_once ctx (transfer [7, 8] true .queued)
    (fun i => bothLanes[i]?) [7, 8] 2 session_bothLanes (by decide) hfresh rfl).1 cfg hreaches
  exact ⟨cfg, hreaches, hall, hdelivered hall⟩

end Metra.Server
