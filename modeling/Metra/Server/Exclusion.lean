import Metra.Server.Completed

/-!
# One finalization at a time

`finalize_if_ready` is guarded by a lock that is looked up in a table; every
terminal status empties the table, also while tasks are inside the lock or wait
for it.

* `exclusive` — a lock whose entry is never found missing while another task still
  has a clone excludes;
* `finalize_exclusive` — if moreover no stream writes another status over
  `Completed`, and single lanes, which take no lock, finalize on their own, then no
  file that was renamed to the final path is removed or replaced;
* `finalized_twice` — three lanes, one of which fails after its data was received:
  two tasks are in the guarded section, and one removes the file of the other.
-/

namespace Metra.Server

open Interleave

/-! ## Locks that are looked up in peace -/

/-- A task that looks the lock up finds its entry, or nobody else has a clone. -/
def Undisturbed (kind : LockKind) (s : Tracked Task Point State) (t : Task) (o : Op) : Prop :=
  o = .lockFor kind →
    (s.shared.locks kind).entry ≠ none ∨ ∀ u, u ≠ t → (s.shared.locks kind).clone u = none

section

variable {kind : LockKind} {s : Tracked Task Point State} {t u : Task} {o : Op} {c : Choice}
  {r : o.Reply} {s' : State}

/-- A lock is looked up in peace when its entry is there, or never was. -/
theorem undisturbed_of_entry (hlocks : LocksAgree s)
    (h : (s.shared.locks kind).entry ≠ none ∨ (s.shared.locks kind).fresh = 0) :
    Undisturbed kind s t o := by
  refine fun _ => h.imp id fun hfresh u _ => ?_
  cases hu : (s.shared.locks kind).clone u with
  | none => rfl
  | some m =>
    have hlt := (hlocks.wf kind).clone_lt u m hu
    omega

/-- All clones stay clones of one mutex. -/
theorem single_of_exec (hsingle : (s.shared.locks kind).Single) (hlookup : Undisturbed kind s t o)
    (hexec : exec t o c s.shared = some (r, s')) : (s'.locks kind).Single := by
  have hupdate : ∀ k l, ((s.shared.updateLock k l).locks kind).Single ↔
      (if kind = k then l else s.shared.locks kind).Single := by
    intro k l
    by_cases hk : kind = k
    · subst hk
      simp [State.updateLock]
    · simp [State.updateLock, hk]
  by_cases honLock : ∃ k, o.IsOnLock k
  · obtain ⟨k, rfl | rfl | rfl | rfl⟩ := honLock
    · cases hexec
      rw [hupdate]
      split
      · rename_i hk
        subst hk
        exact hsingle.lookup (hlookup rfl)
      · exact hsingle
    · obtain ⟨l, hl, heq⟩ := Option.map_eq_some_iff.1 hexec
      cases heq
      rw [hupdate]
      split
      · rename_i hk
        subst hk
        exact hsingle.lock hl
      · exact hsingle
    · cases hexec
      rw [hupdate]
      split
      · rename_i hk
        subst hk
        exact hsingle.unlock
      · exact hsingle
    · cases hexec
      rw [hupdate]
      split
      · rename_i hk
        subst hk
        exact hsingle.clear
      · exact hsingle
  · push Not at honLock
    rw [locks_of_exec hexec honLock]
    exact hsingle

/-- **Exclusion**: two tasks inside a lock are one. -/
theorem exclusive (hlocks : LocksAgree s) (hsingle : (s.shared.locks kind).Single)
    (ht : (s.point t).stage kind = .inside) (hu : (s.point u).stage kind = .inside) : t = u := by
  have hholds : ∀ v, (s.point v).stage kind = .inside → (s.shared.locks kind).Holds v := by
    intro v hv
    have hstage := hlocks.stage v kind
    rw [hv] at hstage
    exact hstage
  exact hsingle.exclusive (hholds t ht) (hholds u hu)

end

/-! ## Files -/

/-- Files are numbered as they are made, and the staging path never names a file that
is or was at the final path. -/
structure Disk.Sound (d : Disk) : Prop where
  staging_lt : ∀ f, d.staging = some f → f < d.nextInode
  final_lt : ∀ f, d.final = some f → f < d.nextInode
  final_ne : ∀ f, d.staging = some f → d.final ≠ some f
  placed_lt : ∀ p ∈ d.placements, p.file < d.nextInode
  placed_ne : ∀ p ∈ d.placements, d.staging ≠ some p.file

section

variable {t : Task} {o : Op} {c : Choice} {s s' : State} {r : o.Reply}

theorem Disk.Sound.of_exec (h : s.disk.Sound) (hexec : exec t o c s = some (r, s')) :
    s'.disk.Sound := by
  obtain ⟨h1, h2, h3, h4, h5⟩ := h
  rcases names_of_exec hexec with ⟨hs, hf, hp, hn⟩ | ⟨-, hnone, hs, hn, hf, hp⟩ |
    ⟨-, hf, hs, hn, hp⟩ | ⟨f, -, hsome, hs, hf, hn, hp⟩
  · constructor <;> simp only [hs, hf, hp, hn] <;> assumption
  · constructor <;> grind
  · constructor <;> grind
  · constructor <;> grind

end

/-! ## The condition -/

/-- From the look at the status, or from the receipt of a single lane, to the status
that is set. -/
def Phase.Finalizing : Phase → Prop
  | .deciding | .incomplete | .ready | .checking _ | .clearing | .vacant | .placed | .refused =>
    True
  | _ => False

/-- The steps that keep finalizations apart.  A single lane takes no lock and does not
look at the status. -/
structure Setup.Orderly (setup : Setup) (s : Tracked Task Point State) (t : Task) (o : Op)
    (_ : Choice) : Prop where
  lookup : Undisturbed .finalize s t o
  running : ∀ m n b, o = .markRunning m n b → s.shared.transfer.status ≠ .completed
  failed : ∀ b, o = .setStatus .failed b → s.shared.transfer.status ≠ .completed
  single : ∀ b, o = .recordReceived b → s.shared.transfer.status ≠ .completed ∧
    ∀ u, ¬ (s.point u).phase.Finalizing
  striped : o = .checkFinalized → ∀ u stream, setup.streams u.stream = some stream →
    isStriped stream.request = false → ¬ (s.point u).phase.Finalizing

/-! ## The invariant -/

/-- At most one stream finalizes at a time, and none once the transfer is completed. -/
structure Setup.Exclusive (setup : Setup) (s : Tracked Task Point State) : Prop where
  single : (s.shared.locks .finalize).Single
  sound : s.shared.disk.Sound
  inside : ∀ u, (s.point u).phase.Finalizing → ∃ stream, setup.streams u.stream = some stream ∧
    (isStriped stream.request = true → (s.point u).finalize = .inside)
  alone : ∀ t u, (s.point t).phase.Finalizing → (s.point u).phase.Finalizing → t = u
  completed : s.shared.transfer.status = .completed → ∀ u, ¬ (s.point u).phase.Finalizing
  placed : ∀ p ∈ s.shared.disk.placements, s.shared.disk.final = some p.file →
    s.shared.transfer.status = .completed ∨ (s.point p.task).phase = .placed

section

variable {setup : Setup} {s : Tracked Task Point State} {t : Task} {stream : LaneStream} {o : Op}
  {c : Choice} {r : o.Reply} {s' : State} {pt : Point} {ph : Phase}

/-- A task starts to finalize by looking at the status in the guarded section, or as a
single lane that was received. -/
theorem finalizing_of_moves (h : Moves setup stream t pt o r ph) (hph : ph.Finalizing) :
    pt.phase.Finalizing ∨ (o = .checkFinalized ∧ pt.finalize = .inside) ∨
      isStriped stream.request = false ∧ ∃ b, o = .recordReceived b := by
  cases h with
  | deciding => exact .inr (.inl ⟨rfl, rfl⟩)
  | readySingle hstriped => exact .inr (.inr ⟨hstriped, _, rfl⟩)
  | incomplete => exact .inl trivial
  | ready => exact .inl trivial
  | checking => exact .inl trivial
  | passed => exact .inl trivial
  | refused => exact .inl trivial
  | vacant => exact .inl trivial
  | clearing => exact .inl trivial
  | cleared => exact .inl trivial
  | placed => exact .inl trivial
  | _ => exact hph.elim

/-- Of a task that finalizes after a step. -/
theorem finalizing_of_advance (hstream : setup.streams t.stream = some stream)
    (henabled : Enabled setup t (s.point t) o)
    (hph : (advance setup stream (s.point t) o r).phase.Finalizing) :
    (s.point t).phase.Finalizing ∨ (o = .checkFinalized ∧ (s.point t).finalize = .inside) ∨
      isStriped stream.request = false ∧ ∃ b, o = .recordReceived b := by
  rcases henabled.moves hstream r with hsame | hmoves
  · rw [hsame] at hph
    exact .inl hph
  · exact finalizing_of_moves hmoves hph

/-- A task that finalizes does not leave the guarded section. -/
theorem finalize_of_advance (henabled : Enabled setup t (s.point t) o)
    (hinside : (s.point t).finalize = .inside)
    (hph : (advance setup stream (s.point t) o r).phase.Finalizing) :
    (advance setup stream (s.point t) o r).finalize = .inside := by
  have hstage := stage_advance setup stream (s.point t) r .finalize
  simp only [Point.stage] at hstage
  rw [hstage, hinside]
  unfold stageAfter
  split
  · rename_i k
    split
    · rename_i hk
      subst hk
      have hout := stage_of_lockFor henabled
      simp only [Point.stage] at hout
      rw [hinside] at hout
      cases hout
    · rfl
  · split <;> rfl
  · rename_i k
    split
    · rename_i hk
      subst hk
      simp only [advance, Phase.leaveGuarded] at hph
      revert hph
      generalize (s.point t).phase = ph
      intro hph
      cases ph <;> exact hph.elim
    · rfl
  · rfl

theorem inside_step (h : setup.Exclusive s) (hstream : setup.streams t.stream = some stream)
    (henabled : Enabled setup t (s.point t) o)
    (hph : (advance setup stream (s.point t) o r).phase.Finalizing) :
    isStriped stream.request = true →
      (advance setup stream (s.point t) o r).finalize = .inside := by
  intro hstriped
  refine finalize_of_advance henabled ?_ hph
  rcases finalizing_of_advance hstream henabled hph with hbefore | ⟨-, hinside⟩ | ⟨hsingle, -⟩
  · obtain ⟨stream', hstream', hinside⟩ := h.inside t hbefore
    obtain rfl := Option.some.inj (hstream'.symm.trans hstream)
    exact hinside hstriped
  · exact hinside
  · rw [hsingle] at hstriped
    cases hstriped

/-- When a task finalizes after a step, no other task does. -/
theorem alone_step (h : setup.Exclusive s) (hlocks : LocksAgree s)
    (hstream : setup.streams t.stream = some stream) (henabled : Enabled setup t (s.point t) o)
    (hallowed : setup.Orderly s t o c)
    (hph : (advance setup stream (s.point t) o r).phase.Finalizing) :
    ∀ u, (s.point u).phase.Finalizing → u = t := by
  intro u hu
  rcases finalizing_of_advance hstream henabled hph with
    hbefore | ⟨hlook, hinside⟩ | ⟨-, b, hrecord⟩
  · exact h.alone u t hu hbefore
  · obtain ⟨stream', hstream', hinside'⟩ := h.inside u hu
    cases hstriped : isStriped stream'.request with
    | true => exact exclusive hlocks h.single (hinside' hstriped) hinside
    | false => exact absurd hu (hallowed.striped hlook u stream' hstream' hstriped)
  · exact absurd hu ((hallowed.single b hrecord).2 u)

/-- A transfer is not being finalized when it is completed already. -/
theorem not_completed_of_advance (h : setup.Exclusive s)
    (hstream : setup.streams t.stream = some stream) (henabled : Enabled setup t (s.point t) o)
    (hallowed : setup.Orderly s t o c) (hexec : exec t o c s.shared = some (r, s'))
    (hph : (advance setup stream (s.point t) o r).phase.Finalizing) :
    s.shared.transfer.status ≠ .completed := by
  intro hc
  rcases finalizing_of_advance hstream henabled hph with hbefore | ⟨rfl, -⟩ | ⟨-, b, rfl⟩
  · exact h.completed hc t hbefore
  · cases hexec
    simp [advance, hc, Point.goto, Phase.Finalizing] at hph
  · exact (hallowed.single b rfl).1 hc

/-- The task that sets the status stops finalizing. -/
theorem setStatus_point {st : TransferStatus} {b : Nat} {r : Unit} :
    (advance setup stream pt (.setStatus st b) r).phase = .settling st := rfl

/-- The transfer is completed only by a task that was finalizing. -/
theorem finalizing_of_setCompleted {b : Nat}
    (henabled : Enabled setup t pt (.setStatus .completed b)) :
    pt.phase.Finalizing := by
  cases henabled with
  | completeDiscarded => trivial
  | complete => trivial

theorem completed_preserved (h : setup.Exclusive s)
    (hstream : setup.streams t.stream = some stream) (henabled : Enabled setup t (s.point t) o)
    (hallowed : setup.Orderly s t o c) (hexec : exec t o c s.shared = some (r, s'))
    (hc : s'.transfer.status = .completed) :
    ∀ u, ¬ ((moved s t (advance setup stream (s.point t) o r) s').point u).phase.Finalizing := by
  rcases status_of_exec hexec with heq | ⟨m, n, b, rfl, heq⟩ | ⟨st, b, rfl, heq⟩
  · have hbefore := hc
    rw [heq] at hbefore
    refine forall_moved (P := fun _ pt => ¬ pt.phase.Finalizing) ?_ fun u _ =>
      h.completed hbefore u
    intro hph
    exact not_completed_of_advance h hstream henabled hallowed hexec hph hbefore
  · rw [heq] at hc
    cases hc
  · rw [heq] at hc
    subst hc
    refine forall_moved (P := fun _ pt => ¬ pt.phase.Finalizing) id fun u hu hph => ?_
    exact hu (h.alone u t hph (finalizing_of_setCompleted henabled))

/-- Nobody writes another status over `Completed`. -/
theorem completed_kept (h : setup.Exclusive s) (henabled : Enabled setup t (s.point t) o)
    (hallowed : setup.Orderly s t o c) (hexec : exec t o c s.shared = some (r, s'))
    (hc : s.shared.transfer.status = .completed) : s'.transfer.status = .completed := by
  rcases status_of_exec hexec with heq | ⟨m, n, b, rfl, -⟩ | ⟨st, b, rfl, heq⟩
  · rw [heq]
    exact hc
  · exact absurd hc (hallowed.running m n b rfl)
  · rw [heq]
    have hnot := h.completed hc t
    revert henabled hnot hallowed
    generalize s.point t = pt
    intro henabled hallowed hnot
    cases henabled with
    | setIncomplete => exact absurd trivial hnot
    | completeDiscarded => rfl
    | complete => rfl
    | refuse => exact absurd hc (hallowed.failed b rfl)
    | fail => exact absurd hc (hallowed.failed b rfl)

/-- The task that has renamed the file goes on to complete the transfer. -/
theorem placed_of_moves (h : Moves setup stream t pt o r ph) (hpt : pt.phase = .placed) :
    ∃ b, o = .setStatus .completed b := by
  cases h with
  | setPlaced => exact ⟨_, rfl⟩
  | setDiscarded => exact ⟨_, rfl⟩
  | alreadyDone hph =>
    subst hpt
    exact hph.elim
  | deciding hph =>
    subst hpt
    exact hph.elim
  | readySingle _ hph =>
    subst hpt
    exact hph.elim
  | abandoned hph =>
    subst hpt
    exact hph.2.elim
  | notRunning _ hph =>
    subst hpt
    rcases hph with hph | ⟨_, _, hph, -⟩
    · exact hph.elim
    · cases hph
  | failing _ hph =>
    subst hpt
    rcases hph with hph | ⟨_, _, hph, -⟩
    · exact hph.elim
    · cases hph
  | released hph =>
    subst hpt
    rcases hph with hph | hph
    · cases hph
    · exact hph.2.elim
  | _ => cases hpt

theorem placed_preserved (h : setup.Exclusive s) (hstream : setup.streams t.stream = some stream)
    (henabled : Enabled setup t (s.point t) o) (hallowed : setup.Orderly s t o c)
    (hexec : exec t o c s.shared = some (r, s')) :
    ∀ p ∈ s'.disk.placements, s'.disk.final = some p.file → s'.transfer.status = .completed ∨
      ((moved s t (advance setup stream (s.point t) o r) s').point p.task).phase = .placed := by
  -- a file that was at the final path before the step
  have hold : ∀ p ∈ s.shared.disk.placements, s.shared.disk.final = some p.file →
      s'.transfer.status = .completed ∨
        ((moved s t (advance setup stream (s.point t) o r) s').point p.task).phase = .placed := by
    intro p hp hfinal
    rcases h.placed p hp hfinal with hc | hpt
    · exact .inl (completed_kept h henabled hallowed hexec hc)
    · rcases henabled.moves_moved hstream r s' p.task with hsame | ⟨hu, hmoves⟩
      · rw [hsame]
        exact .inr hpt
      · rw [hu] at hpt
        obtain ⟨b, rfl⟩ := placed_of_moves hmoves hpt
        cases hexec
        exact .inl rfl
  intro p hp hfinal
  rcases names_of_exec hexec with ⟨-, hf, hps, -⟩ | ⟨-, -, -, -, hf, hps⟩ | ⟨-, hf, -⟩ |
    ⟨f, rfl, hsome, hnone, hf, -, hps⟩
  · rw [hps] at hp
    rw [hf] at hfinal
    exact hold p hp hfinal
  · rw [hps] at hp
    rw [hf] at hfinal
    exact hold p hp hfinal
  · rw [hf] at hfinal
    cases hfinal
  · rw [hps] at hp
    rw [hf] at hfinal
    rcases List.mem_append.1 hp with hp | hp
    · refine absurd ?_ (h.sound.placed_ne p hp)
      rw [hsome, hfinal]
    · obtain rfl := List.mem_singleton.1 hp
      rw [moved_point_self]
      rcases renameStaging_of_exec hexec with ⟨-, rfl⟩ | ⟨rfl, -⟩
      · rw [hsome] at hnone
        cases hnone
      · exact .inr rfl

theorem exclusive_step (h : setup.Exclusive s) (hlocks : LocksAgree s)
    (hstream : setup.streams t.stream = some stream) (henabled : Enabled setup t (s.point t) o)
    (hallowed : setup.Orderly s t o c) (hexec : exec t o c s.shared = some (r, s')) :
    setup.Exclusive (moved s t (advance setup stream (s.point t) o r) s') where
  single := single_of_exec h.single hallowed.lookup hexec
  sound := h.sound.of_exec hexec
  inside := forall_moved (P := fun u pt => pt.phase.Finalizing → ∃ stream,
      setup.streams u.stream = some stream ∧
        (isStriped stream.request = true → pt.finalize = .inside))
    (fun hph => ⟨stream, hstream, inside_step h hstream henabled hph⟩) fun u _ => h.inside u
  alone := by
    intro u v hu hv
    by_cases hut : u = t
    · by_cases hvt : v = t
      · rw [hut, hvt]
      · subst hut
        rw [moved_point_self] at hu
        rw [moved_point_of_ne hvt] at hv
        exact (alone_step h hlocks hstream henabled hallowed hu v hv).symm
    · rw [moved_point_of_ne hut] at hu
      by_cases hvt : v = t
      · subst hvt
        rw [moved_point_self] at hv
        exact alone_step h hlocks hstream henabled hallowed hv u hu
      · rw [moved_point_of_ne hvt] at hv
        exact h.alone u v hu hv
  completed := completed_preserved h hstream henabled hallowed hexec
  placed := placed_preserved h hstream henabled hallowed hexec

/-- A task about to touch the final path finds no file there that was renamed to it. -/
theorem not_placed_of_touches (h : setup.Exclusive s) (henabled : Enabled setup t (s.point t) o)
    (ho : o = .removeFinal ∨ o = .renameStaging) :
    ∀ p ∈ s.shared.disk.placements, s.shared.disk.final ≠ some p.file := by
  have hphase : (s.point t).phase.Finalizing ∧ (s.point t).phase ≠ .placed := by
    revert henabled
    generalize s.point t = pt
    intro henabled
    rcases ho with rfl | rfl
    · cases henabled
      exact ⟨trivial, by simp⟩
    · cases henabled
      exact ⟨trivial, by simp⟩
  intro p hp hfinal
  rcases h.placed p hp hfinal with hc | hplaced
  · exact h.completed hc t hphase.1
  · have hfinalizing : (s.point p.task).phase.Finalizing := by
      rw [hplaced]
      trivial
    rw [h.alone p.task t hfinalizing hphase.1] at hplaced
    exact hphase.2 hplaced

theorem exclusive_start {stored : TransferSummary} {disk : Disk} (hsound : disk.Sound)
    (hplacements : disk.placements = []) : setup.Exclusive ⟨start stored disk, startPoint⟩ := by
  have hidle : ∀ u, ¬ (startPoint u).phase.Finalizing := by
    intro u
    cases u <;> exact id
  refine ⟨NamedLock.single_empty, hsound, fun u hu => absurd hu (hidle u),
    fun t u ht => absurd ht (hidle t), fun _ => hidle, ?_⟩
  intro p hp
  have hnil : p ∈ disk.placements := hp
  rw [hplacements] at hnil
  cases hnil

end

/-- **One finalization at a time**, in orderly runs: two tasks in the guarded section
are one, and nobody removes or replaces a file that was renamed to the final path. -/
theorem finalize_exclusive (ctx : Context) (transfer : TransferSummary)
    (streams : Nat → Option LaneStream) (disk : Disk) (hsound : disk.Sound)
    (hplacements : disk.placements = [])
    {cfg : Config Task Op Op.Reply (Tracked Task Point State) (Except String Unit)}
    (hrun : RunsTo (unreliable ctx transfer streams) (unreliable ctx transfer streams).Orderly
      (starting (unreliable ctx transfer streams) transfer disk) cfg) :
    (∀ t u, (cfg.shared.shared.locks .finalize).Holds t →
      (cfg.shared.shared.locks .finalize).Holds u → t = u) ∧
    ∀ t o k, cfg.pool t = .act o k → o = .removeFinal ∨ o = .renameStaging →
      ∀ p ∈ cfg.shared.shared.disk.placements, cfg.shared.shared.disk.final ≠ some p.file := by
  obtain ⟨hobedient, -, hInv⟩ := reaches_invariant trivial
    (fun _ _ _ _ _ _ _ hbase hInv hstream henabled hallowed hexec =>
      exclusive_step hInv hbase.locks hstream henabled hallowed hexec)
    (sameTransfer_refl transfer) (exclusive_start hsound hplacements) hrun
  refine ⟨fun t u => hInv.single.exclusive, fun t o k hpool ho => ?_⟩
  exact not_placed_of_touches hInv (hobedient.enabled hpool).2 ho

/-- Steps of striped streams of a transfer that is not completed, which look the locks up
before these are first cleared. -/
def Scenario.uploads (s : Tracked Task Point State) (_ : Task) (o : Op) (_ : Choice) : Bool :=
  match o with
  | .lockFor kind =>
    decide ((s.shared.locks kind).entry ≠ none ∨ (s.shared.locks kind).fresh = 0)
  | .recordReceived _ => false
  | .markRunning .. | .setStatus .. => decide (s.shared.transfer.status ≠ .completed)
  | _ => true

/-- The three lanes of a source. -/
def Scenario.threeLanes : Setup :=
  unreliable ctx (transfer [7, 8, 9] true .queued)
    fun i => [lane [7, 8, 9] 3 0, lane [7, 8, 9] 3 1, lane [7, 8, 9] 3 2][i]?

open Scenario in
theorem isStriped_threeLanes {i : Nat} {stream : LaneStream}
    (h : threeLanes.streams i = some stream) : isStriped stream.request = true := by
  have hmem := List.mem_of_getElem? h
  simp only [List.mem_cons, List.not_mem_nil, or_false] at hmem
  rcases hmem with rfl | rfl | rfl <;> decide

open Scenario in
theorem orderly_of_uploads (s : Tracked Task Point State) (t : Task) (o : Op) (c : Choice)
    (hbase : Baseline threeLanes s) (h : uploads s t o c = true) : threeLanes.Orderly s t o c where
  lookup ho := by
    subst ho
    exact undisturbed_of_entry hbase.locks (of_decide_eq_true h) rfl
  running m n b ho := by
    subst ho
    exact of_decide_eq_true h
  failed b ho := by
    subst ho
    exact of_decide_eq_true h
  single b ho := by
    subst ho
    cases h
  striped ho u stream hstream hsingle := by
    rw [isStriped_threeLanes hstream] at hsingle
    cases hsingle

open Scenario in
/-- All three lanes are received, one after the other, and the last one delivers the
file. -/
theorem finalize_exclusive_sample :
    ∃ cfg, RunsTo threeLanes threeLanes.Orderly
        (starting threeLanes (transfer [7, 8, 9] true .queued) noFiles) cfg ∧
      decide (cfg.shared.shared.disk.finalContent = some [7, 8, 9]) = true ∧
      ∀ t u, (cfg.shared.shared.locks .finalize).Holds t →
        (cfg.shared.shared.locks .finalize).Holds u → t = u := by
  have hrun : ((starting threeLanes (transfer [7, 8, 9] true .queued) noFiles).runIf
      (machine.track (protocol threeLanes)) uploads
      (turns [(.handler 0, 17), (.handler 1, 17), (.writer 0, 11), (.writer 1, 11),
        (.handler 0, 14), (.handler 2, 17), (.writer 2, 11), (.handler 2, 11)])).any
      (fun cfg => decide (cfg.shared.shared.disk.finalContent = some [7, 8, 9])) = true := by
    decide +kernel
  obtain ⟨cfg, htest, hfinal⟩ := Config.reaches_of_runIf_any (fun _ _ _ _ h => h) hrun
  have hto := runsTo_of_baseline trivial orderly_of_uploads (sameTransfer_refl _) htest
  exact ⟨cfg, hto, hfinal, (finalize_exclusive _ _ _ noFiles
    (by constructor <;> simp [noFiles]) rfl hto).1⟩

/-! ## Three lanes -/

open Scenario in
/-- Lane 2 fails when its data is recorded, after lane 0 has found all lanes complete and
before lane 1 looks the lock up: both get into the guarded section, and lane 1 removes
what lane 0 has delivered. -/
theorem finalized_twice :
    ∃ cfg cfg', Config.Reaches machine (fun _ _ _ _ => True)
        (server (transfer [7, 8, 9] true .queued) noFiles
          [lane [7, 8, 9] 3 0, lane [7, 8, 9] 3 1, lane [7, 8, 9] 3 2]) cfg ∧
      decide ((cfg.shared.locks .finalize).Holds (.handler 0) ∧
        (cfg.shared.locks .finalize).Holds (.handler 1) ∧
        cfg.shared.disk.placements.map (fun p => (p.task, p.file)) = [(.handler 0, 0)] ∧
        cfg.shared.disk.final = some 0) = true ∧
      Config.Reaches machine (fun _ t _ _ => t = .handler 1) cfg cfg' ∧
      decide (cfg'.shared.disk.final = none ∧ cfg'.shared.disk.staging = none) = true :=
  Config.exists_run_then (fun _ t _ _ => decide (t = .handler 1))
    (turns [(.handler 0, 17), (.handler 1, 17), (.handler 2, 17), (.writer 0, 11), (.writer 1, 11),
      (.writer 2, 9)] ++ [(.writer 2, .ioError)] ++ turns [(.writer 2, 1), (.handler 0, 9),
      (.handler 2, 8), (.handler 1, 9), (.handler 0, 2)])
    (turns [(.handler 1, 2)]) (fun _ _ _ _ h => of_decide_eq_true h)
    (by decide +kernel) (by decide +kernel)

end Metra.Server
