import Metra.Server.Steady
import Metra.Server.Synced

/-!
# The last lane

Every lane that has been received enters the guarded section of `finalize_if_ready` and reads
there, from the checkpoint, whether it is the last one.  In a run in which nothing fails, one
lane finds that it is, and delivers the file.

* `Setup.Underway` — what holds until the transfer is completed: somebody has still to
  decide, or delivers the file;
* `pending_step` — **the last handler to read the checkpoint finds all lanes complete**;
* `Setup.Underway.step` — until the transfer is completed, it stays under way.
-/

namespace Metra.Server

open Interleave

/-! ## The phases -/

/-- The handler is going to deliver the file, or has just delivered it. -/
def Phase.Delivers : Phase → Prop
  | .placed => True
  | ph => ph.Whole

/-- The handler has not found out yet whether its lane is the last one. -/
def Phase.Undecided : Phase → Prop
  | .received .. | .deciding => True
  | ph => ph.rank ≤ 9

/-- The task has seen a checkpoint. -/
def Loaded.Sees : Loaded → Prop
  | .present | .found _ => True
  | _ => False

theorem Phase.Delivers.finalizing {ph : Phase} (h : ph.Delivers) : ph.Finalizing := by
  cases ph <;> trivial

/-! ## The invariants -/

/-- What holds until the transfer is completed. -/
structure Setup.Underway (setup : Setup) (source : List UInt8) (lanes : Nat)
    (s : Tracked Task Point State) : Prop where
  status : s.shared.transfer.status ≠ .completed
  entries : ∀ kind, (s.shared.locks kind).entry ≠ none ∨ (s.shared.locks kind).fresh = 0
  exclusive : setup.Exclusive s
  recorded : setup.Recorded s
  sees : ∀ u, (s.point u).loaded.Sees → s.shared.disk.checkpoint ≠ none
  record : (s.shared.disk.checkpoint = none ∧
      ∀ i < lanes, (s.point (.handler i)).phase.rank ≤ 2) ∨
    ∃ found, s.shared.disk.checkpoint = some found ∧ setup.OnRecord lanes s found
  staging : s.shared.disk.staging = none → (∃ u, (s.point u).phase = .placed) ∨
    ∀ i < lanes, (s.point (.handler i)).phase.rank ≤ 4
  synced : setup.Synced source lanes s
  decided : ∀ u, (s.point u).phase.Delivers → ∀ i < lanes, setup.LaneDone lanes s i
  pending : (∃ i < lanes, (s.point (.handler i)).phase.Undecided) ∨
    ∃ u, (s.point u).phase.Delivers
  checks : ∀ u g, (s.point u).phase = .checking (g + 1) → setup.keepsExisting = true
  clears : ∀ u, (s.point u).phase = .clearing → s.shared.disk.final ≠ none
  vacant : (∀ u, (s.point u).phase ≠ .placed) →
    (setup.keepsExisting = true → s.shared.disk.final = none) ∧ s.shared.disk.placements = []
  placed : ∀ u, (s.point u).phase = .placed → ∃ p, s.shared.disk.placements = [p] ∧
    s.shared.disk.final = some p.file ∧ p.inode = ⟨source, source⟩
  settled : ∀ u st, (s.point u).phase = .settling st ∨ (s.point u).phase = .reported st →
    st = .running

section

variable {setup : Setup} {source : List UInt8} {lanes : Nat} {s : Tracked Task Point State}
  {t : Task} {stream : LaneStream} {o : Op} {c : Choice} {r : o.Reply} {s' : State}

/-! ## Lanes and ranks -/

/-- A lane whose writer is not born is not done. -/
theorem not_done_of_unborn (hsession : setup.Session source lanes) {i : Nat} (hi : i < lanes)
    (hunborn : (s.point (.writer i)).phase = .unborn) : ¬ setup.LaneDone lanes s i := by
  have hlt := hsession.start_lt hi
  rw [Setup.LaneDone, Setup.durable, hunborn]
  exact Nat.ne_of_lt hlt

/-- A lane is done only after its writer was spawned. -/
theorem rank_of_done (hsession : setup.Session source lanes) (hbase : Baseline setup s) {i : Nat}
    (hi : i < lanes) (hdone : setup.LaneDone lanes s i) :
    9 ≤ (s.point (.handler i)).phase.rank := by
  obtain ⟨stream, hstream, -⟩ := hsession.sends i hi
  by_contra hrank
  exact not_done_of_unborn hsession hi (unborn_of_rank hbase hstream (by omega)) hdone

/-- A lane whose handler is past its writer is done. -/
theorem done_of_rank (h : setup.InLanes lanes s) {i : Nat}
    (hrank : 10 ≤ (s.point (.handler i)).phase.rank) : setup.LaneDone lanes s i := by
  rw [Setup.LaneDone, Setup.durable, h.drained i hrank]
  rfl

/-- Who has found out whether its lane is the last one is past its writer. -/
theorem rank_of_decided {ph : Phase} (h : ¬ ph.Undecided) : 10 ≤ ph.rank := by
  cases ph <;> simp [Phase.Undecided, Phase.rank] at h ⊢

/-! ## Steps between the phases -/

/-- A handler comes to deliver the file by finding all lanes complete. -/
theorem delivers_of_goes {ph ph' : Phase} (h : Goes t ph o r ph') (hph : ph'.Delivers)
    (hexec : exec t o c s.shared = some (r, s')) : ph.Delivers ∨ (ph = .deciding ∧
      ∃ found, s.shared.disk.checkpoint = some found ∧ found.allLanesComplete = true) := by
  cases h with
  | ready hfound => exact .inr ⟨rfl, _, (readCheckpoint_of_exec hexec).1, hfound⟩
  | checking => exact .inl trivial
  | passed => exact .inl trivial
  | vacant => exact .inl trivial
  | clearing => exact .inl trivial
  | cleared => exact .inl trivial
  | placed => exact .inl trivial
  | _ => exact hph.elim

/-- Who delivers the file goes on to complete the transfer. -/
theorem delivers_kept {ph ph' : Phase} (h : Goes t ph o r ph') (hph : ph.Delivers)
    (hsteady : ph'.Steady) : ph'.Delivers ∨ ∃ b, o = .setStatus .completed b := by
  cases h with
  | checking => exact .inl trivial
  | passed => exact .inl trivial
  | vacant => exact .inl trivial
  | clearing => exact .inl trivial
  | cleared => exact .inl trivial
  | placed => exact .inl trivial
  | refused => exact hsteady.elim
  | setPlaced => exact .inr ⟨_, rfl⟩
  | _ => exact hph.elim

/-- A handler finds out whether its lane is the last one by reading the checkpoint. -/
theorem undecided_kept {i : Nat} {ph ph' : Phase} (h : Goes (.handler i) ph o r ph')
    (hph : ph.Undecided) (hsteady : ph'.Steady)
    (hstatus : s.shared.transfer.status ≠ .completed)
    (hexec : exec (.handler i) o c s.shared = some (r, s')) :
    ph'.Undecided ∨ ph'.Delivers ∨ ph = .deciding ∧
      ∃ found, s.shared.disk.checkpoint = some found ∧ found.allLanesComplete = false := by
  cases h with
  | ready => exact .inr (.inl trivial)
  | incomplete hfound => exact .inr (.inr ⟨rfl, _, (readCheckpoint_of_exec hexec).1, hfound⟩)
  | received => exact .inl trivial
  | deciding => exact .inl trivial
  | broken => exact hsteady.elim
  | alreadyDone =>
    have hreply := congrArg (fun out => out.1.1) (Option.some.inj hexec)
    exact absurd (of_decide_eq_true hreply) hstatus
  | _ =>
    first
    | exact .inl (Nat.le_of_ble_eq_true rfl)
    | simp [Phase.Undecided, Phase.rank] at hph

end

/-! ## Before the transfer is completed -/

section

variable {setup : Setup} {source : List UInt8} {lanes : Nat} {s : Tracked Task Point State}
  {t : Task} {stream : LaneStream} {o : Op} {r : o.Reply} {s' : State}

/-- A checkpoint that is there is on record. -/
theorem Setup.Underway.onRecord (h : setup.Underway source lanes s)
    (hsome : s.shared.disk.checkpoint ≠ none) :
    ∃ found, s.shared.disk.checkpoint = some found ∧ setup.OnRecord lanes s found :=
  h.record.resolve_left fun hnone => hsome hnone.1

/-- A checkpoint that a task has read is on record. -/
theorem Setup.Underway.onRecord_of_found (h : setup.Underway source lanes s) {u : Task}
    {found : TransferCheckpoint} (hfound : (s.point u).loaded = .found found) :
    s.shared.disk.checkpoint = some found ∧ setup.OnRecord lanes s found := by
  have hsome : s.shared.disk.checkpoint ≠ none := by
    refine h.sees u ?_
    rw [hfound]
    trivial
  have hagrees := h.recorded.loaded u
  rw [hfound] at hagrees
  obtain ⟨found', hfound', honRecord⟩ := h.onRecord hsome
  rcases hagrees with hnil | hsame
  · rw [Disk.checkpoint, hnil] at hsome
    exact absurd rfl hsome
  · obtain rfl := Option.some.inj (hsame.symm.trans hfound')
    exact ⟨hsame, honRecord⟩

/-- The lock that is looked up has its entry, or never had one. -/
theorem Setup.Underway.undisturbed (h : setup.Underway source lanes s) (hlocks : LocksAgree s)
    (kind : LockKind) : Undisturbed kind s t o :=
  undisturbed_of_entry hlocks (h.entries kind)

/-- While a task is finalizing, no other one has delivered the file. -/
theorem Setup.Underway.not_placed (h : setup.Underway source lanes s) (t : Task)
    (hfinalizing : (s.point t).phase.Finalizing) (hne : (s.point t).phase ≠ .placed) :
    ∀ u, (s.point u).phase ≠ .placed := by
  intro u hu
  have hsame : u = t := by
    refine h.exclusive.alone u t ?_ hfinalizing
    rw [hu]
    trivial
  rw [← hsame] at hne
  exact hne hu

variable (hsession : setup.Session source lanes) (hbase : Baseline setup s)
  (h : setup.Underway source lanes s) (hstream : setup.streams t.stream = some stream)
  (henabled : Enabled setup t (s.point t) o)

include hsession hbase h hstream henabled

/-- A task that reads the checkpoint finds it. -/
theorem Setup.Underway.reads (ho : o = .readCheckpoint) :
    ∃ found, s.shared.disk.checkpoint = some found ∧ setup.OnRecord lanes s found := by
  subst ho
  have hi := (hsession.lane hstream).1
  rcases h.record with ⟨hnone, hrank⟩ | hrecord
  · exfalso
    have hearly := hrank _ hi
    generalize hpt : s.point t = pt at henabled
    cases henabled with
    | @loadExisting i =>
      refine h.sees (.handler i) ?_ hnone
      rw [hpt]
      trivial
    | loadWriting =>
      have hunborn := unborn_of_rank hbase hstream (Nat.le_trans hearly (by decide))
      rw [Task.stream, hpt] at hunborn
      cases hunborn
    | loadDiscarded =>
      rw [Task.stream, hpt] at hearly
      exact absurd hearly (by simp [Phase.rank])
    | loadDeciding =>
      rw [Task.stream, hpt] at hearly
      exact absurd hearly (by simp [Phase.rank])
  · exact hrecord

/-- Nothing is in the way of a step. -/
theorem Setup.Underway.undeterred : setup.Undeterred lanes s t o where
  finds _ _ _ hfound := (h.onRecord_of_found hfound).2
  reads := h.reads hsession hbase hstream henabled
  passes _ g hphase := by
    refine (h.vacant (h.not_placed t ?_ ?_)).1 (h.checks t g hphase)
    · rw [hphase]
      trivial
    · rw [hphase]
      simp
  clears ho := by
    subst ho
    obtain ⟨i, rfl, hclearing⟩ := clearing_of_removeFinal henabled
    exact h.clears _ hclearing
  renames ho := by
    subst ho
    have hphase : ∃ i, t = .handler i ∧ (s.point t).phase = .vacant := by
      generalize s.point t = pt at henabled
      cases henabled
      exact ⟨_, rfl, rfl⟩
    obtain ⟨i, rfl, hphase⟩ := hphase
    cases hstaging : s.shared.disk.staging with
    | some f => exact ⟨f, rfl⟩
    | none =>
      exfalso
      rcases h.staging hstaging with ⟨u, hu⟩ | hrank
      · refine h.not_placed (.handler i) ?_ ?_ u hu
        · rw [hphase]
          trivial
        · rw [hphase]
          simp
      · have hearly := hrank i (hsession.lane hstream).1
        rw [hphase] at hearly
        exact absurd hearly (by simp [Phase.rank])

/-- When the staging file is made, nothing has been received yet. -/
theorem Setup.Underway.early (ho : o = .openStaging) (hnone : s.shared.disk.staging = none) :
    ∀ i < lanes, (s.point (.handler i)).phase.rank ≤ 4 := by
  subst ho
  rcases h.staging hnone with ⟨u, hu⟩ | hrank
  · have hi := (hsession.lane hstream).1
    have hdone : setup.LaneDone lanes s t.stream := by
      refine h.decided u ?_ _ hi
      rw [hu]
      trivial
    have hlate := rank_of_done hsession hbase hi hdone
    generalize hpt : s.point t = pt at henabled
    cases henabled <;> rw [Task.stream, hpt] at hlate <;> simp [Phase.rank] at hlate
  · exact hrank

end

section

variable {setup : Setup} {source : List UInt8} {lanes : Nat} {s : Tracked Task Point State}
  {t : Task} {stream : LaneStream} {o : Op} {r : o.Reply} {s' : State}

/-- Before anything is received nobody counts on the staging file. -/
theorem unused_of_early (hsession : setup.Session source lanes) (hbase : Baseline setup s)
    (hin : setup.InLanes lanes s) (h : setup.Underway source lanes s)
    (hearly : ∀ i < lanes, (s.point (.handler i)).phase.rank ≤ 4) : setup.Unused s := by
  have hunborn : ∀ i stream, setup.streams i = some stream →
      (s.point (.writer i)).phase = .unborn := by
    intro i stream hstream
    have hrank := hearly i (hsession.lane hstream).1
    exact unborn_of_rank hbase hstream (by omega)
  have hnothing : ∀ found, setup.OnRecord lanes s found → ∀ p, ¬ found.Records p := by
    rintro found ⟨transferId, rfl⟩ p hrecords
    obtain ⟨i, hi, hle, hlt⟩ := TransferCheckpoint.records_ofOffsets.1 hrecords
    obtain ⟨stream, hstream, -⟩ := hsession.sends i hi
    rw [Setup.ledger, Setup.durable, hunborn i stream hstream] at hlt
    have hstart := durableResumeOffset_start (laneStart_le_succ setup.size lanes i)
    simp only [Phase.durable] at hlt
    omega
  refine ⟨fun p _ hcounts => ?_, fun i stream f hstream hopen => ?_⟩
  · cases hcounts with
    | recorded hfound hrecords =>
      obtain ⟨found', hfound', honRecord⟩ := h.onRecord (by simp [hfound])
      obtain rfl := Option.some.inj (hfound.symm.trans hfound')
      exact hnothing _ honRecord p hrecords
    | loaded _ hfound hrecords => exact hnothing _ (h.onRecord_of_found hfound).2 p hrecords
    | @live i resume stream hstream hlive hle hlt =>
      have hresume := hin.resumes i stream resume hstream hlive
      have hstart := hsession.rangeStart_eq hstream
      omega
    | @reached i n stream hstream hreached =>
      cases hreached with
      | written hphase =>
        rw [hunborn i stream hstream] at hphase
        cases hphase
      | flushed hphase =>
        rw [hunborn i stream hstream] at hphase
        cases hphase
      | joined hsingle =>
        rw [hsession.isStriped_eq hstream] at hsingle
        cases hsingle
      | received hsingle =>
        rw [hsession.isStriped_eq hstream] at hsingle
        cases hsingle
    | @whole u stream hstream hwhole =>
      have hi := (hsession.lane hstream).1
      have hdelivers : (s.point u).phase.Delivers := by
        generalize (s.point u).phase = ph at hwhole
        cases ph <;> trivial
      exact not_done_of_unborn hsession hi (hunborn _ stream hstream) (h.decided u hdelivers _ hi)
  · have hrank := hearly i (hsession.lane hstream).1
    rcases hopen with ⟨resume, hphase⟩ | ⟨args, hw, -⟩
    · rw [hphase] at hrank
      simp [Phase.rank] at hrank
    · have habsent := (hbase.writers i stream hstream).absent (by omega)
      rw [hw] at habsent
      cases habsent

/-- The steps of a run that is under way are careful. -/
theorem Setup.Underway.careful (hsession : setup.Session source lanes) (hbase : Baseline setup s)
    (hsteady : setup.Steady lanes s) (h : setup.Underway source lanes s)
    (hstream : setup.streams t.stream = some stream) (henabled : Enabled setup t (s.point t) o) :
    setup.Careful source s t o where
  trusts ho := by
    have hsmooth := hsteady.smooth hsession (h.undeterred hsession hbase hstream henabled)
      hstream henabled
    exact absurd ho hsmooth.measures
  makes ho hnone := unused_of_early hsession hbase hsteady.inLanes h
    (h.early hsession hbase hstream henabled ho hnone)
  removes ho := by
    subst ho
    obtain ⟨i, rfl, hclearing⟩ := clearing_of_removeFinal henabled
    refine h.not_placed (.handler i) ?_ ?_
    · rw [hclearing]
      trivial
    · rw [hclearing]
      simp
  agrees ho i stream' found _ hstream' hfound := by
    obtain ⟨found', hfound', transferId, rfl⟩ :=
      h.reads hsession hbase hstream henabled ho
    obtain rfl := Option.some.inj (hfound.symm.trans hfound')
    exact (hsession.requestedLanes_eq hstream').symm
  vouches _ i _ _ := hsteady.inLanes.fine i

end

/-! ### The locks and the checkpoint -/

section

variable {setup : Setup} {source : List UInt8} {lanes : Nat} {s : Tracked Task Point State}
  {t : Task} {stream : LaneStream} {o : Op} {c : Choice} {r : o.Reply} {s' : State}

/-- Nobody removes the checkpoint or clears a lock before the transfer is completed. -/
theorem Setup.Underway.not_terminal (h : setup.Underway source lanes s)
    (henabled : Enabled setup t (s.point t) o) :
    o ≠ .removeCheckpoint ∧ ∀ kind, o ≠ .clearLock kind := by
  have hsettled := h.settled t
  refine ⟨?_, ?_⟩
  · rintro rfl
    generalize s.point t = pt at henabled hsettled
    cases henabled with
    | removeCheckpoint hterminal =>
      rw [hsettled _ (.inl rfl)] at hterminal
      cases hterminal
  · rintro kind rfl
    generalize s.point t = pt at henabled hsettled
    cases henabled with
    | clearLock hterminal =>
      rw [hsettled _ (.inl rfl)] at hterminal
      cases hterminal

theorem entries_step (h : setup.Underway source lanes s)
    (henabled : Enabled setup t (s.point t) o) (hexec : exec t o c s.shared = some (r, s'))
    (kind : LockKind) : (s'.locks kind).entry ≠ none ∨ (s'.locks kind).fresh = 0 := by
  have hbefore := h.entries kind
  have hupdate : ∀ k l, (l.entry ≠ none ∨ l.fresh = 0) →
      ((s.shared.updateLock k l).locks kind).entry ≠ none ∨
        ((s.shared.updateLock k l).locks kind).fresh = 0 := by
    intro k l hl
    by_cases hk : kind = k
    · subst hk
      simpa [State.updateLock] using hl
    · simpa [State.updateLock, hk] using hbefore
  by_cases honLock : ∃ k, o.IsOnLock k
  · obtain ⟨k, rfl | rfl | rfl | rfl⟩ := honLock
    · cases hexec
      refine hupdate k _ (.inl ?_)
      unfold NamedLock.lookup
      split
      · rename_i m hm
        simp [hm]
      · simp
    · obtain ⟨l, hl, heq⟩ := Option.map_eq_some_iff.1 hexec
      cases heq
      obtain ⟨m, -, -, rfl⟩ := NamedLock.lock_eq_some hl
      exact hupdate k _ (h.entries k)
    · cases hexec
      refine hupdate k _ ?_
      unfold NamedLock.unlock
      split
      · exact h.entries k
      · exact h.entries k
    · exact absurd rfl ((h.not_terminal henabled).2 k)
  · push Not at honLock
    rw [locks_of_exec hexec honLock]
    exact hbefore

/-- The streams of a session are orderly until the transfer is completed. -/
theorem Setup.Underway.orderly (hsession : setup.Session source lanes) (hbase : Baseline setup s)
    (h : setup.Underway source lanes s) (henabled : Enabled setup t (s.point t) o) :
    setup.Orderly s t o c where
  lookup := h.undisturbed hbase.locks .finalize
  running _ _ _ _ := h.status
  failed _ _ := h.status
  single b ho := by
    subst ho
    generalize s.point t = pt at henabled
    cases henabled with
    | recordReceived hstream hsingle =>
      rw [hsession.isStriped_eq hstream] at hsingle
      cases hsingle
  striped _ u stream hstream hsingle := by
    rw [hsession.isStriped_eq hstream] at hsingle
    cases hsingle

/-- The checkpoint changes when it is stored, and only then. -/
theorem Setup.Underway.checkpoint_of_exec (h : setup.Underway source lanes s)
    (henabled : Enabled setup t (s.point t) o) (hexec : exec t o .ok s.shared = some (r, s')) :
    ((∀ next, o ≠ .persistCheckpoint next) ∧
        s'.disk.checkpoint = s.shared.disk.checkpoint) ∨
      ∃ next, o = .persistCheckpoint next ∧ s'.disk.checkpoint = some next := by
  by_cases hpersist : ∃ next, o = .persistCheckpoint next
  · obtain ⟨next, rfl⟩ := hpersist
    cases hexec
    exact .inr ⟨next, rfl, List.getLast?_concat ..⟩
  · refine .inl ⟨fun next ho => hpersist ⟨next, ho⟩, ?_⟩
    rcases versions_of_exec hexec with heq | ⟨next, ho, -⟩ | ⟨ho, -⟩
    · rw [Disk.checkpoint, Disk.checkpoint, heq]
    · exact absurd ⟨next, ho⟩ hpersist
    · exact absurd ho (h.not_terminal henabled).1

/-- A task that has seen the checkpoint saw it before, looked at it, or stored it. -/
theorem sees_of_advance (hexec : exec t o .ok s.shared = some (r, s'))
    (hsees : (advance setup stream (s.point t) o r).loaded.Sees) :
    (s.point t).loaded.Sees ∨ s.shared.disk.checkpoint ≠ none ∨
      ∃ next, o = .persistCheckpoint next := by
  by_cases ho : o.LeavesLoaded
  · rw [loaded_advance ho] at hsees
    exact .inl hsees
  · simp only [Op.LeavesLoaded, not_and_or, not_not, not_forall] at ho
    rcases ho with rfl | rfl | ⟨next, rfl⟩ | rfl
    · cases hcheckpoint : s.shared.disk.checkpoint with
      | none =>
        simp only [exec, attempt, hcheckpoint, Option.isSome_none] at hexec
        cases hexec
        exact hsees.elim
      | some found => exact .inr (.inl (by simp))
    · cases r with
      | none => exact .inl hsees
      | some found =>
        rw [(readCheckpoint_of_exec hexec).1]
        exact .inr (.inl (by simp))
    · exact .inr (.inr ⟨next, rfl⟩)
    · exact hsees.elim

theorem sees_step (h : setup.Underway source lanes s)
    (henabled : Enabled setup t (s.point t) o) (hexec : exec t o .ok s.shared = some (r, s')) :
    ∀ u, ((moved s t (advance setup stream (s.point t) o r) s').point u).loaded.Sees →
      s'.disk.checkpoint ≠ none := by
  have hcheckpoint := h.checkpoint_of_exec henabled hexec
  have hkept : s.shared.disk.checkpoint ≠ none → s'.disk.checkpoint ≠ none := by
    intro hsome
    rcases hcheckpoint with ⟨-, heq⟩ | ⟨next, -, heq⟩
    · rw [heq]
      exact hsome
    · simp [heq]
  refine forall_moved (P := fun _ pt => pt.loaded.Sees → s'.disk.checkpoint ≠ none) ?_
    fun u _ hu => hkept (h.sees u hu)
  intro hsees
  rcases sees_of_advance hexec hsees with hbefore | hsome | ⟨next, rfl⟩
  · exact hkept (h.sees t hbefore)
  · exact hkept hsome
  · rcases hcheckpoint with ⟨hnot, -⟩ | ⟨next', -, heq⟩
    · exact absurd rfl (hnot next)
    · simp [heq]

/-- A handler gets to its resume offset by storing the checkpoint. -/
theorem resumes_of_goes {i : Nat} {ph ph' : Phase} (h : Goes (.handler i) ph o r ph')
    (hrank : ph.rank ≤ 2) : ph'.rank ≤ 2 ∨ ∃ next, o = .persistCheckpoint next := by
  cases h with
  | resumed => exact .inr ⟨_, rfl⟩
  | _ =>
    first
    | exact .inl (Nat.le_of_ble_eq_true rfl)
    | simp [Phase.rank] at hrank

/-- A handler gets past the opening of its lane by opening the staging file. -/
theorem opens_of_goes {i : Nat} {ph ph' : Phase} (h : Goes (.handler i) ph o r ph')
    (hrank : ph.rank ≤ 4) : ph'.rank ≤ 4 ∨ o = .openStaging := by
  cases h with
  | presizing => exact .inr rfl
  | _ =>
    first
    | exact .inl (Nat.le_of_ble_eq_true rfl)
    | simp [Phase.rank] at hrank

/-! ### The files -/

/-- Until the transfer is completed, who has delivered the file stays where it is. -/
theorem placed_kept (hstream : setup.streams t.stream = some stream)
    (henabled : Enabled setup t (s.point t) o) (hnot : ∀ b, o ≠ .setStatus .completed b) {u : Task}
    (hu : (s.point u).phase = .placed) :
    ((moved s t (advance setup stream (s.point t) o r) s').point u).phase = .placed := by
  rcases henabled.moves_moved hstream r s' u with hsame | ⟨rfl, hmoves⟩
  · rw [hsame]
    exact hu
  · obtain ⟨b, ho⟩ := placed_of_moves hmoves hu
    exact absurd ho (hnot b)

/-- What a step does to the names of the files. -/
theorem names_step (h : setup.Underway source lanes s) (stream : LaneStream)
    (henabled : Enabled setup t (s.point t) o) (hexec : exec t o .ok s.shared = some (r, s')) :
    s.shared.disk.SameNames s'.disk ∨
    (o = .openStaging ∧ s'.disk.staging ≠ none ∧ s'.disk.final = s.shared.disk.final ∧
      s'.disk.placements = s.shared.disk.placements) ∨
    (s'.disk.staging = s.shared.disk.staging ∧ s'.disk.final = none ∧
      s'.disk.placements = s.shared.disk.placements ∧ (s.point t).phase = .clearing ∧
      ((moved s t (advance setup stream (s.point t) o r) s').point t).phase = .vacant) ∨
    ∃ f, o = .renameStaging ∧ s.shared.disk.staging = some f ∧ s'.disk.final = some f ∧
      s'.disk.placements = s.shared.disk.placements ++ [⟨t, f, s.shared.disk.inode f⟩] ∧
      (s.point t).phase = .vacant ∧
      ((moved s t (advance setup stream (s.point t) o r) s').point t).phase = .placed := by
  rcases names_of_exec hexec with hsame | ⟨ho, -, hs, -, hf, hp⟩ | ⟨rfl, -⟩ |
    ⟨f, rfl, hsome, hnone, hf, -, hp⟩
  · exact .inl hsame
  · exact .inr (.inl ⟨ho, by simp [hs], hf, hp⟩)
  · obtain ⟨i, rfl, hclearing⟩ := clearing_of_removeFinal henabled
    obtain ⟨f, hf⟩ := Option.ne_none_iff_exists'.1 (h.clears _ hclearing)
    simp only [exec, State.withDisk, attempt, hf, Option.map_some] at hexec
    cases hexec
    refine .inr (.inr (.inl ⟨rfl, rfl, rfl, hclearing, ?_⟩))
    rw [moved_point_self]
    rfl
  · obtain ⟨i, rfl, hvacant⟩ := vacant_of_renameStaging henabled
    refine .inr (.inr (.inr ⟨f, rfl, hsome, hf, hp, hvacant, ?_⟩))
    · rw [moved_point_self]
      rcases renameStaging_of_exec hexec with ⟨-, rfl⟩ | ⟨rfl, -⟩
      · rw [hsome] at hnone
        cases hnone
      · rfl

/-- What is delivered is the source, all of it synced. -/
theorem inode_of_vacant (hsession : setup.Session source lanes) (hbase : Baseline setup s)
    (hsteady : setup.Steady lanes s) (h : setup.Underway source lanes s)
    (hstream : setup.streams t.stream = some stream) (hstaged : setup.Staged source s)
    (hphase : (s.point t).phase = .vacant) {f : Nat} (hf : s.shared.disk.staging = some f) :
    s.shared.disk.inode f = ⟨source, source⟩ := by
  have hwhole : (s.point t).phase.Whole := by
    rw [hphase]
    trivial
  have hdata := source_of_whole hsession.honest hstaged hstream hwhole hf
  have hsynced : (s.shared.disk.inode f).synced = source := by
    refine Bytes.Covers.eq (fun p _ hp => ?_) (h.synced.short f hf)
    rw [← hsession.size] at hp
    obtain ⟨i, hi, hle, hlt⟩ := TransferCheckpoint.exists_lane hp hsession.pos
    have hdelivers : (s.point t).phase.Delivers := by
      rw [hphase]
      trivial
    have hdone := h.decided t hdelivers i hi
    have hto := (durable_le_syncedTo hsession hbase hsteady.inLanes hi).1
    rw [hdone] at hto
    exact h.synced.right f hf i hi p hle (Nat.lt_of_lt_of_le hlt hto)
  generalize s.shared.disk.inode f = inode at hdata hsynced
  cases inode
  exact congrArg₂ Inode.mk hdata hsynced

end

section

variable {setup : Setup} {source : List UInt8} {lanes : Nat} {s : Tracked Task Point State}
  {t : Task} {stream : LaneStream} {o : Op} {r : o.Reply} {s' : State}
  (hsession : setup.Session source lanes) (hbase : Baseline setup s)
  (hsteady : setup.Steady lanes s) (h : setup.Underway source lanes s)
  (hstream : setup.streams t.stream = some stream) (henabled : Enabled setup t (s.point t) o)
  (hexec : exec t o .ok s.shared = some (r, s'))

include hsession hbase hsteady h hstream henabled hexec

omit hsession hbase hsteady in
/-- A file that is to be removed stays until it is. -/
theorem clears_kept {u : Task} (hph :
    ((moved s t (advance setup stream (s.point t) o r) s').point u).phase = .clearing) :
    s'.disk.final ≠ none := by
  have hbefore := henabled.clears_moved hstream hexec (h.clears u) hph
  rcases names_step h stream henabled hexec with
    ⟨-, hf, -⟩ | ⟨-, -, hf, -⟩ | ⟨-, -, -, hclearing, hvacant⟩ | ⟨f, -, -, hf, -⟩
  · rwa [hf]
  · rwa [hf]
  · exfalso
    by_cases hu : u = t
    · rw [hu, hvacant] at hph
      cases hph
    · rw [moved_point_of_ne hu] at hph
      refine hu (h.exclusive.alone u t ?_ ?_)
      · rw [hph]
        trivial
      · rw [hclearing]
        trivial
  · rw [hf]
    exact Option.some_ne_none f

omit hsession hbase hsteady in
/-- Until the file is delivered, nothing is at the final path that must be kept. -/
theorem vacant_step (hnot : ∀ b, o ≠ .setStatus .completed b)
    (hnobody : ∀ u,
      ((moved s t (advance setup stream (s.point t) o r) s').point u).phase ≠ .placed) :
    (setup.keepsExisting = true → s'.disk.final = none) ∧ s'.disk.placements = [] := by
  obtain ⟨hfinal, hplacements⟩ :=
    h.vacant fun u hu => hnobody u (placed_kept hstream henabled hnot hu)
  rcases names_step h stream henabled hexec with
    ⟨-, hf, hp, -⟩ | ⟨-, -, hf, hp⟩ | ⟨-, hf, hp, -⟩ | ⟨f, -, -, -, -, -, hplaced⟩
  · rw [hf, hp]
    exact ⟨hfinal, hplacements⟩
  · rw [hf, hp]
    exact ⟨hfinal, hplacements⟩
  · rw [hp]
    exact ⟨fun _ => hf, hplacements⟩
  · exact absurd hplaced (hnobody t)

/-- **Who has delivered the file has delivered it once**, and it is the source. -/
theorem placed_once_step (hstaged : setup.Staged source s) (hnot : ∀ b, o ≠ .setStatus .completed b)
    {u : Task} (hu :
      ((moved s t (advance setup stream (s.point t) o r) s').point u).phase = .placed) :
    ∃ p, s'.disk.placements = [p] ∧ s'.disk.final = some p.file ∧ p.inode = ⟨source, source⟩ := by
  have hbefore : (∃ u, (s.point u).phase = .placed) ∨
      o = .renameStaging ∧ s'.disk.staging = none := by
    rcases placed_of_advance hstream henabled hu with hplaced | ⟨rfl, hr⟩
    · exact .inl ⟨u, hplaced⟩
    · cases hr
      rcases renameStaging_of_exec hexec with ⟨hr, -⟩ | ⟨-, f, -, rfl⟩
      · cases hr
      · exact .inr ⟨rfl, rfl⟩
  rcases names_step h stream henabled hexec with
    ⟨hs, hf, hp, -⟩ | ⟨rfl, -, hf, hp⟩ | ⟨hs, -, -, hclearing, -⟩ |
    ⟨f, rfl, hsome, hf, hp, hphase, -⟩
  · rcases hbefore with ⟨v, hplaced⟩ | ⟨rfl, hnone⟩
    · rw [hf, hp]
      exact h.placed v hplaced
    · have hsmooth := hsteady.smooth hsession (h.undeterred hsession hbase hstream henabled)
        hstream henabled
      obtain ⟨f, hsome⟩ := hsmooth.renames rfl
      rw [hs, hsome] at hnone
      cases hnone
  · rcases hbefore with ⟨v, hplaced⟩ | ⟨ho, -⟩
    · rw [hf, hp]
      exact h.placed v hplaced
    · cases ho
  · have hnobody : ∀ u, (s.point u).phase ≠ .placed := by
      refine h.not_placed t ?_ ?_
      · rw [hclearing]
        trivial
      · simp [hclearing]
    rcases hbefore with ⟨v, hplaced⟩ | ⟨rfl, hnone⟩
    · exact absurd hplaced (hnobody v)
    · obtain ⟨i, rfl, hvacant⟩ := vacant_of_renameStaging henabled
      rw [hclearing] at hvacant
      cases hvacant
  · have hnobody : ∀ u, (s.point u).phase ≠ .placed := by
      refine h.not_placed t ?_ ?_
      · rw [hphase]
        trivial
      · simp [hphase]
    refine ⟨⟨t, f, s.shared.disk.inode f⟩, ?_, hf, ?_⟩
    · rw [hp, (h.vacant hnobody).2]
      rfl
    · exact inode_of_vacant hsession hbase hsteady h hstream hstaged hphase hsome

end

/-! ### The steps -/

section

variable {setup : Setup} {source : List UInt8} {lanes : Nat} {s : Tracked Task Point State}
  {t : Task} {stream : LaneStream} {o : Op} {r : o.Reply} {s' : State}
  (hsession : setup.Session source lanes) (hfaults : ¬ setup.faults) (hbase : Baseline setup s)
  (hsteady : setup.Steady lanes s) (h : setup.Underway source lanes s)
  (hstream : setup.streams t.stream = some stream) (henabled : Enabled setup t (s.point t) o)
  (hexec : exec t o .ok s.shared = some (r, s'))

include hsession hfaults hbase hsteady h hstream henabled hexec

/-- The checkpoint stays on record. -/
theorem record_step : (s'.disk.checkpoint = none ∧ ∀ i < lanes,
      ((moved s t (advance setup stream (s.point t) o r) s').point (.handler i)).phase.rank ≤ 2) ∨
    ∃ found, s'.disk.checkpoint = some found ∧
      setup.OnRecord lanes (moved s t (advance setup stream (s.point t) o r) s') found := by
  rcases h.checkpoint_of_exec henabled hexec with ⟨hnot, heq⟩ | ⟨next, rfl, heq⟩
  · rw [heq]
    rcases h.record with ⟨hnone, hrank⟩ | ⟨found, hfound, honRecord⟩
    · refine .inl ⟨hnone, fun i hi => ?_⟩
      rcases hsession.goes_moved hfaults hbase hstream henabled r s' (.handler i) with
        hsame | ⟨rfl, hgoes⟩
      · rw [hsame]
        exact hrank i hi
      · exact (resumes_of_goes hgoes (hrank i hi)).resolve_right fun ⟨next, ho⟩ => hnot next ho
    · refine .inr ⟨found, hfound, honRecord.of_durable fun i => ?_⟩
      refine (durable_step hsession hfaults hbase hsteady.inLanes hstream henabled hexec
        i).resolve_right
        ?_
      rintro ⟨-, _, _, _, _, next, -, ho, -⟩
      exact hnot next ho
  · refine .inr ⟨next, heq, ?_⟩
    cases hexec
    refine onRecord_persist hsession hbase hsteady.inLanes hstream henabled
      (fun found hfound => (h.onRecord_of_found hfound).2) fun habsent i hi => ?_
    have hagrees := h.recorded.loaded t
    rw [habsent] at hagrees
    have hnone : s.shared.disk.checkpoint = none := by
      have hnil : s.shared.disk.versions = [] := hagrees
      rw [Disk.checkpoint, hnil]
      rfl
    rcases h.record with ⟨-, hrank⟩ | ⟨found, hfound, -⟩
    · obtain ⟨stream', hstream', -⟩ := hsession.sends i hi
      exact unborn_of_rank hbase hstream' (Nat.le_trans (hrank i hi) (by decide))
    · rw [hnone] at hfound
      cases hfound

omit hsteady in
/-- Where there is no staging file, the file has been delivered, or nobody needs it yet. -/
theorem staging_step (hnot : ∀ b, o ≠ .setStatus .completed b) (hnone : s'.disk.staging = none) :
    (∃ u, ((moved s t (advance setup stream (s.point t) o r) s').point u).phase = .placed) ∨
      ∀ i < lanes,
        ((moved s t (advance setup stream (s.point t) o r) s').point (.handler i)).phase.rank ≤
          4 := by
  have hkept : s'.disk.staging = s.shared.disk.staging →
      (∃ u, ((moved s t (advance setup stream (s.point t) o r) s').point u).phase = .placed) ∨
        ∀ i < lanes,
          ((moved s t (advance setup stream (s.point t) o r) s').point (.handler i)).phase.rank ≤
            4 := by
    intro hs
    rw [hs] at hnone
    rcases h.staging hnone with ⟨u, hu⟩ | hrank
    · exact .inl ⟨u, placed_kept hstream henabled hnot hu⟩
    · refine .inr fun i hi => ?_
      rcases hsession.goes_moved hfaults hbase hstream henabled r s' (.handler i) with
        hsame | ⟨rfl, hgoes⟩
      · rw [hsame]
        exact hrank i hi
      · refine (opens_of_goes hgoes (hrank i hi)).resolve_right fun ho => ?_
        subst ho
        cases hexec
        rw [Disk.openStaging_staging] at hs
        rw [hnone] at hs
        cases hs
  rcases names_step h stream henabled hexec with
    ⟨hs, -⟩ | ⟨-, hsome, -⟩ | ⟨hs, -⟩ | ⟨f, -, -, -, -, -, hplaced⟩
  · exact hkept hs
  · exact absurd hnone hsome
  · exact hkept hs
  · exact .inl ⟨t, hplaced⟩

/-- What the lanes have synced stays synced. -/
theorem synced_step (hstaged : setup.Staged source s) :
    setup.Synced source lanes (moved s t (advance setup stream (s.point t) o r) s') := by
  refine Setup.Synced.step hsession hfaults hbase hsteady.inLanes hstaged (fun i hi hdone => ?_)
    h.synced hstream henabled hexec fun ho hnone i hi => ?_
  · rcases h.record with ⟨-, hrank⟩ | hrecord
    · obtain ⟨stream', hstream', -⟩ := hsession.sends i hi
      rw [unborn_of_rank hbase hstream' (Nat.le_trans (hrank i hi) (by decide))] at hdone
      cases hdone
    · exact hrecord
  · obtain ⟨stream', hstream', -⟩ := hsession.sends i hi
    have hearly := h.early hsession hbase hstream henabled ho hnone i hi
    exact unborn_of_rank hbase hstream' (Nat.le_trans hearly (by decide))

/-- Who delivers the file has found all lanes done. -/
theorem decided_step (u : Task)
    (hu : ((moved s t (advance setup stream (s.point t) o r) s').point u).phase.Delivers) :
    ∀ i < lanes,
      setup.LaneDone lanes (moved s t (advance setup stream (s.point t) o r) s') i := by
  intro i hi
  refine Setup.LaneDone.step hsession hfaults hbase hsteady.inLanes hstream henabled hexec hi ?_
  rcases hsession.goes_moved hfaults hbase hstream henabled r s' u with hsame | ⟨rfl, hgoes⟩
  · rw [hsame] at hu
    exact h.decided u hu i hi
  · rcases delivers_of_goes hgoes hu hexec with hbefore | ⟨-, found, hfound, hcomplete⟩
    · exact h.decided u hbefore i hi
    · obtain ⟨found', hfound', honRecord⟩ := h.onRecord (by simp [hfound])
      obtain rfl := Option.some.inj (hfound.symm.trans hfound')
      exact (honRecord.complete_iff hsession hbase hsteady.inLanes).1 hcomplete i hi

/-- **Somebody has still to decide, or delivers the file.** The last handler to read the
checkpoint finds all others past their writers, and so all lanes complete. -/
theorem pending_step (hnot : ∀ b, o ≠ .setStatus .completed b)
    (hafter : (advance setup stream (s.point t) o r).phase.Steady) :
    (∃ i < lanes, ((moved s t (advance setup stream (s.point t) o r) s').point
        (.handler i)).phase.Undecided) ∨
      ∃ u, ((moved s t (advance setup stream (s.point t) o r) s').point u).phase.Delivers := by
  rcases h.pending with ⟨i, hi, hundecided⟩ | ⟨u, hu⟩
  · by_cases ht : Task.handler i = t
    · subst ht
      rcases hsession.goes hfaults hbase hstream henabled r with hsame | hgoes
      · refine .inl ⟨i, hi, ?_⟩
        rw [moved_point_self, hsame]
        exact hundecided
      · rcases undecided_kept hgoes hundecided hafter h.status hexec with
          hstill | hdelivers | ⟨hdeciding, found, hfound, hincomplete⟩
        · refine .inl ⟨i, hi, ?_⟩
          rw [moved_point_self]
          exact hstill
        · refine .inr ⟨.handler i, ?_⟩
          rw [moved_point_self]
          exact hdelivers
        · by_contra hnobody
          push Not at hnobody
          obtain ⟨found', hfound', honRecord⟩ := h.onRecord (by simp [hfound])
          obtain rfl := Option.some.inj (hfound.symm.trans hfound')
          have hall : found.allLanesComplete = true := by
            refine (honRecord.complete_iff hsession hbase hsteady.inLanes).2 fun j hj => ?_
            refine done_of_rank hsteady.inLanes ?_
            by_cases hji : j = i
            · rw [hji, hdeciding]
              exact Nat.le_refl 10
            · have hne : Task.handler j ≠ .handler i := by simpa using hji
              have hdecided := hnobody.1 j hj
              rw [moved_point_of_ne hne] at hdecided
              exact rank_of_decided hdecided
          rw [hincomplete] at hall
          cases hall
    · refine .inl ⟨i, hi, ?_⟩
      rw [moved_point_of_ne ht]
      exact hundecided
  · refine .inr ⟨u, ?_⟩
    rcases hsession.goes_moved hfaults hbase hstream henabled r s' u with hsame | ⟨rfl, hgoes⟩
    · rw [hsame]
      exact hu
    · rw [moved_point_self] at hgoes ⊢
      exact (delivers_kept hgoes hu hafter).resolve_right fun ⟨b, ho⟩ => hnot b ho

end

/-- A handler that has decided not to deliver the file answers that the transfer goes on. -/
theorem settled_of_goes {t : Task} {ph ph' : Phase} {o : Op} {r : o.Reply} (h : Goes t ph o r ph')
    {st : TransferStatus} (hph : ph' = .settling st ∨ ph' = .reported st) :
    (ph = .settling st ∨ ph = .reported st) ∨ (∃ b, o = .setStatus st b) ∨
      st = .completed ∧ ∃ b : Nat, o = .checkFinalized ∧ HEq r (true, b) := by
  cases h with
  | setIncomplete | setPlaced | setRefused | setFailed =>
    rcases hph with hph | hph <;> cases hph
    exact .inr (.inl ⟨_, rfl⟩)
  | reported =>
    rcases hph with hph | hph <;> cases hph
    exact .inl (.inl rfl)
  | alreadyDone =>
    rcases hph with hph | hph <;> cases hph
    exact .inr (.inr ⟨rfl, _, rfl, HEq.rfl⟩)
  | _ => rcases hph with hph | hph <;> cases hph

section

variable {setup : Setup} {source : List UInt8} {lanes : Nat} {s : Tracked Task Point State}
  {t : Task} {stream : LaneStream} {o : Op} {r : o.Reply} {s' : State}
  (hsession : setup.Session source lanes) (hfaults : ¬ setup.faults) (hbase : Baseline setup s)
  (hsteady : setup.Steady lanes s) (h : setup.Underway source lanes s)
  (hstream : setup.streams t.stream = some stream) (henabled : Enabled setup t (s.point t) o)
  (hexec : exec t o .ok s.shared = some (r, s'))

include hsession hfaults hbase hsteady h hstream henabled hexec

theorem settled_step (hnot : ∀ b, o ≠ .setStatus .completed b) {st : TransferStatus}
    (hph : (advance setup stream (s.point t) o r).phase = .settling st ∨
      (advance setup stream (s.point t) o r).phase = .reported st) : st = .running := by
  have hafter := steady_step hsession hfaults hbase hsteady
    (h.undeterred hsession hbase hstream henabled).passes hstream henabled hexec
  rcases hsession.goes hfaults hbase hstream henabled r with hsame | hgoes
  · rw [hsame] at hph
    exact h.settled t st hph
  · rcases settled_of_goes hgoes hph with hbefore | ⟨b, rfl⟩ | ⟨-, b, rfl, hr⟩
    · exact h.settled t st hbefore
    · have hst : st = .running ∨ st = .completed := by
        rw [setStatus_point] at hafter
        exact hafter
      refine hst.resolve_right ?_
      rintro rfl
      exact hnot b rfl
    · cases hr
      have hreply := congrArg (fun out => out.1.1) (Option.some.inj hexec)
      exact absurd (of_decide_eq_true hreply) h.status

omit hsession hfaults hbase hsteady hstream henabled in
theorem status_step (hnot : ∀ b, o ≠ .setStatus .completed b) :
    s'.transfer.status ≠ .completed := by
  rcases status_of_exec hexec with heq | ⟨m, n, b, -, heq⟩ | ⟨st, b, rfl, heq⟩
  · rw [heq]
    exact h.status
  · simp [heq]
  · rw [heq]
    rintro rfl
    exact hnot b rfl

/-- **Until the transfer is completed, it stays under way.** -/
theorem Setup.Underway.step (hstaged : setup.Staged source s)
    (hnot : ∀ b, o ≠ .setStatus .completed b) :
    setup.Underway source lanes (moved s t (advance setup stream (s.point t) o r) s') where
  status := status_step h hexec hnot
  entries := entries_step h henabled hexec
  exclusive := exclusive_step h.exclusive hbase.locks hstream henabled
    (h.orderly hsession hbase henabled) hexec
  recorded := recorded_step h.recorded hbase.locks henabled (h.undisturbed hbase.locks .checkpoint)
    hexec
  sees := sees_step h henabled hexec
  record := record_step hsession hfaults hbase hsteady h hstream henabled hexec
  staging := staging_step hsession hfaults hbase h hstream henabled hexec hnot
  synced := synced_step hsession hfaults hbase hsteady h hstream henabled hexec hstaged
  decided := decided_step hsession hfaults hbase hsteady h hstream henabled hexec
  pending := pending_step hsession hfaults hbase hsteady h hstream henabled hexec hnot
    (steady_step hsession hfaults hbase hsteady
      (h.undeterred hsession hbase hstream henabled).passes hstream henabled hexec)
  checks u _ := henabled.checks_moved hstream (h.checks u)
  clears _ := clears_kept h hstream henabled hexec
  vacant := vacant_step h hstream henabled hexec hnot
  placed _ := placed_once_step hsession hbase hsteady h hstream henabled hexec hstaged hnot
  settled := forall_moved (P := fun _ pt => ∀ st, pt.phase = .settling st ∨
      pt.phase = .reported st → st = .running)
    (fun _ => settled_step hsession hfaults hbase hsteady h hstream henabled hexec hnot)
    fun u _ => h.settled u

end

end Metra.Server
