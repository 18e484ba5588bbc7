import Metra.Server.Exclusion

/-!
# Whether an update of the checkpoint can get lost

The checkpoint file is read, changed and replaced as a whole, by every lane in turn;
what keeps an update from overwriting another is the checkpoint lock, which is looked
up like the finalize lock.

* `Setup.Recorded` — the invariant: the versions of the file extend each other, and
  what a task has read inside the lock is what the file holds, unless it was removed;
* `update_kept` — **no update is lost** in runs that look the lock up in peace;
* `update_lost` — a failing lane empties the table while another one is inside the
  lock, and the offset that one stores is overwritten.
-/

namespace Metra.Server

open Interleave

/-- A checkpoint of a transfer, whatever its number of lanes. -/
def Setup.WfCheckpoint (setup : Setup) (c : TransferCheckpoint) : Prop :=
  ∃ lanes, c.Wf setup.size lanes

/-- What a task has read inside the lock is what the file holds. -/
def Loaded.Agrees (loaded : Loaded) (d : Disk) : Prop :=
  match loaded with
  | .nothing | .present => True
  | .absent => d.versions = []
  | .found c => d.versions = [] ∨ d.checkpoint = some c

/-! ## Well-formed checkpoints -/

/-- The checkpoints that are stored, and those that tasks have read, are well formed. -/
structure Setup.StoredWf (setup : Setup) (s : Tracked Task Point State) : Prop where
  versions : ∀ c ∈ s.shared.disk.versions, setup.WfCheckpoint c
  loaded : ∀ u c, (s.point u).loaded = .found c → setup.WfCheckpoint c

/-! ## The invariant -/

/-- Under the checkpoint lock each version extends the one before it, and what a task has read is
the latest. -/
structure Setup.Recorded (setup : Setup) (s : Tracked Task Point State) : Prop where
  single : (s.shared.locks .checkpoint).Single
  wf : ∀ c ∈ s.shared.disk.versions, setup.WfCheckpoint c
  extend : s.shared.disk.versions.Pairwise TransferCheckpoint.Extends
  inside : ∀ u, (s.point u).loaded ≠ .nothing → (s.point u).checkpoint = .inside
  loaded_wf : ∀ u c, (s.point u).loaded = .found c → setup.WfCheckpoint c
  loaded : ∀ u, (s.point u).loaded.Agrees s.shared.disk

section

variable {setup : Setup} {s : Tracked Task Point State} {t : Task} {stream : LaneStream} {o : Op}
  {c : Choice} {r : o.Reply} {s' : State} {pt : Point}

theorem Setup.WfCheckpoint.advanceLane {found next : TransferCheckpoint} {i offset : Nat}
    (h : setup.WfCheckpoint found) (hadvance : found.advanceLane i offset = some next) :
    setup.WfCheckpoint next ∧ found.Extends next := by
  obtain ⟨lanes, hwf⟩ := h
  exact ⟨⟨lanes, hwf.advanceLane hadvance⟩, hwf.advanceLane_extends hadvance⟩

theorem Setup.WfCheckpoint.roundLane {found next : TransferCheckpoint} {i offset : Nat}
    (h : setup.WfCheckpoint found) (hround : found.roundLane i = some (offset, next)) :
    next = found := by
  obtain ⟨lanes, hwf⟩ := h
  exact (hwf.roundLane_eq hround).1

/-- What a task stores is new, or extends what it has read. -/
theorem stored_extends {next : TransferCheckpoint}
    (h : Enabled setup t pt (.persistCheckpoint next))
    (hwf : ∀ found, pt.loaded = .found found → setup.WfCheckpoint found) :
    pt.checkpoint = .inside ∧ setup.WfCheckpoint next ∧
      (pt.loaded = .absent ∨ ∃ found, pt.loaded = .found found ∧ found.Extends next) := by
  cases h with
  | persistFresh =>
    exact ⟨rfl, ⟨_, TransferCheckpoint.wf_newCheckpoint _ _ _⟩, .inl rfl⟩
  | persistRounded _ _ _ hround =>
    have hfound := hwf _ rfl
    rw [hfound.roundLane hround]
    exact ⟨rfl, hfound, .inr ⟨_, rfl, TransferCheckpoint.extends_refl _⟩⟩
  | persistDiscarded _ _ hadvance =>
    obtain ⟨hnext, hextends⟩ := (hwf _ rfl).advanceLane hadvance
    exact ⟨rfl, hnext, .inr ⟨_, rfl, hextends⟩⟩
  | persistWriting _ hadvance =>
    obtain ⟨hnext, hextends⟩ := (hwf _ rfl).advanceLane hadvance
    exact ⟨rfl, hnext, .inr ⟨_, rfl, hextends⟩⟩

/-- An operation that does not read or write the checkpoint file under the lock. -/
def Op.LeavesLoaded (o : Op) : Prop :=
  o ≠ .checkpointExists ∧ o ≠ .readCheckpoint ∧ (∀ next, o ≠ .persistCheckpoint next) ∧
    o ≠ .unlock .checkpoint

theorem loaded_advance (ho : o.LeavesLoaded) :
    (advance setup stream pt o r).loaded = pt.loaded := by
  obtain ⟨hexists, hread, hpersist, hunlock⟩ := ho
  unfold advance
  split <;> (try simp only [Point.goto, Point.openedStaging, Point.sawFinal]) <;>
    (repeat' split) <;>
    first
    | rfl
    | simp_all

/-- All checkpoints that are stored, and those that tasks have read, have a property. -/
structure Stored (P : TransferCheckpoint → Prop) (s : Tracked Task Point State) : Prop where
  versions : ∀ c ∈ s.shared.disk.versions, P c
  loaded : ∀ u c, (s.point u).loaded = .found c → P c

/-- The checkpoint that a task has found is the one it read or stored. -/
theorem loaded_of_advance (hexec : exec t o c s.shared = some (r, s')) {found : TransferCheckpoint}
    (hfound : (advance setup stream (s.point t) o r).loaded = .found found) :
    (s.point t).loaded = .found found ∨
      (o = .readCheckpoint ∧ s.shared.disk.checkpoint = some found) ∨
      o = .persistCheckpoint found := by
  by_cases ho : o.LeavesLoaded
  · rw [loaded_advance ho] at hfound
    exact .inl hfound
  · simp only [Op.LeavesLoaded, not_and_or, not_not, not_forall] at ho
    rcases ho with rfl | rfl | ⟨next, rfl⟩ | rfl
    · cases r with
      | none => exact .inl hfound
      | some present => cases present <;> cases hfound
    · cases r with
      | none => exact .inl hfound
      | some found' =>
        have hread := (readCheckpoint_of_exec hexec).1
        simp only [advance, Point.loadedCheckpoint] at hfound
        split at hfound
        · exact .inl hfound
        · cases hfound
          exact .inr (.inl ⟨rfl, hread⟩)
    · cases r with
      | none => cases hfound
      | some _ =>
        have hloaded : (advance setup stream (s.point t) (.persistCheckpoint next)
            (some ())).loaded = .found next := by
          simp only [advance, Point.storedCheckpoint]
          split
          · split <;> rfl
          · rfl
          · rfl
        rw [hloaded] at hfound
        cases hfound
        exact .inr (.inr rfl)
    · cases hfound

section

variable {P : TransferCheckpoint → Prop}

theorem found_of_advance (h : Stored P s) (hnext : ∀ next, o = .persistCheckpoint next → P next)
    (hexec : exec t o c s.shared = some (r, s')) {found : TransferCheckpoint}
    (hfound : (advance setup stream (s.point t) o r).loaded = .found found) : P found := by
  rcases loaded_of_advance hexec hfound with hbefore | ⟨-, hread⟩ | ho
  · exact h.loaded t found hbefore
  · exact h.versions found (List.mem_of_getLast? hread)
  · exact hnext found ho

theorem Stored.step (h : Stored P s) (hnext : ∀ next, o = .persistCheckpoint next → P next)
    (hexec : exec t o c s.shared = some (r, s')) :
    Stored P (moved s t (advance setup stream (s.point t) o r) s') where
  versions := by
    rw [moved_shared]
    rcases versions_of_exec hexec with heq | ⟨next, ho, heq⟩ | ⟨-, hnil⟩
    · rw [heq]
      exact h.versions
    · rw [heq]
      intro found hfound
      rcases List.mem_append.1 hfound with hfound | hfound
      · exact h.versions found hfound
      · obtain rfl := List.mem_singleton.1 hfound
        exact hnext found ho
    · simp [hnil]
  loaded := forall_moved (P := fun _ pt => ∀ found, pt.loaded = .found found → P found)
    (fun _ hfound => found_of_advance h hnext hexec hfound) fun u _ => h.loaded u

end

theorem Setup.StoredWf.step (h : setup.StoredWf s) (henabled : Enabled setup t (s.point t) o)
    (hexec : exec t o c s.shared = some (r, s')) :
    setup.StoredWf (moved s t (advance setup stream (s.point t) o r) s') := by
  have hstored : Stored setup.WfCheckpoint s := ⟨h.versions, h.loaded⟩
  have hnext : ∀ next, o = .persistCheckpoint next → setup.WfCheckpoint next := by
    rintro next rfl
    exact (stored_extends henabled (h.loaded t)).2.1
  exact ⟨(hstored.step hnext hexec).versions, (hstored.step hnext hexec).loaded⟩

/-- The checkpoint has the lanes of the file, and at least one. -/
def Setup.Counts (setup : Setup) (c : TransferCheckpoint) : Prop :=
  ∃ lanes, 0 < lanes ∧ c.Wf setup.size lanes

/-- What a task stores has the lanes of the file, if what it has read has them. -/
theorem counts_of_persist {next : TransferCheckpoint}
    (h : Enabled setup t pt (.persistCheckpoint next))
    (hfound : ∀ found, pt.loaded = .found found → setup.Counts found) : setup.Counts next := by
  cases h with
  | @persistFresh _ _ stream =>
    exact ⟨requestedLanes stream.request, Nat.lt_of_lt_of_le Nat.one_pos (le_max_right _ _),
      TransferCheckpoint.wf_newCheckpoint _ _ _⟩
  | persistRounded _ _ _ hround =>
    obtain ⟨lanes, hpos, hwf⟩ := hfound _ rfl
    rw [(hwf.roundLane_eq hround).1]
    exact ⟨lanes, hpos, hwf⟩
  | persistDiscarded _ _ hadvance =>
    obtain ⟨lanes, hpos, hwf⟩ := hfound _ rfl
    exact ⟨lanes, hpos, hwf.advanceLane hadvance⟩
  | persistWriting _ hadvance =>
    obtain ⟨lanes, hpos, hwf⟩ := hfound _ rfl
    exact ⟨lanes, hpos, hwf.advanceLane hadvance⟩

theorem counts_step (h : Stored setup.Counts s) (henabled : Enabled setup t (s.point t) o)
    (hexec : exec t o c s.shared = some (r, s')) :
    Stored setup.Counts (moved s t (advance setup stream (s.point t) o r) s') := by
  refine h.step ?_ hexec
  intro next ho
  subst ho
  exact counts_of_persist henabled (h.loaded t)

/-- What holds of the checkpoints in every run. -/
theorem counts_invariant (hfaults : setup.faults) :
    Invariant machine (protocol setup) (fun _ _ _ _ => True)
      fun s => Baseline setup s ∧ Stored setup.Counts s := by
  refine invariant_of_step hfaults ?_
  intro s t stream o c r s' _ h _ henabled _ hexec
  exact counts_step h henabled hexec

/-- A task keeps what it has read only inside the lock. -/
theorem inside_of_advance (h : pt.loaded ≠ .nothing → pt.checkpoint = .inside)
    (henabled : Enabled setup t pt o)
    (hloaded : (advance setup stream pt o r).loaded ≠ .nothing) :
    (advance setup stream pt o r).checkpoint = .inside := by
  have hstage := stage_advance setup stream pt r .checkpoint
  simp only [Point.stage] at hstage
  rw [hstage]
  by_cases ho : o.LeavesLoaded
  · rw [loaded_advance ho] at hloaded
    rw [h hloaded]
    unfold stageAfter
    split
    · rename_i k
      split
      · rename_i hk
        subst hk
        have hout := stage_of_lockFor henabled
        simp only [Point.stage, h hloaded] at hout
        cases hout
      · rfl
    · split <;> rfl
    · rename_i k
      split
      · rename_i hk
        subst hk
        exact absurd rfl ho.2.2.2
      · rfl
    · rfl
  · simp only [Op.LeavesLoaded, not_and_or, not_not, not_forall] at ho
    rcases ho with rfl | rfl | ⟨next, rfl⟩ | rfl
    · cases henabled
      rfl
    · cases henabled with
      | loadDeciding =>
        exfalso
        revert hloaded
        cases r <;> simp [advance, Point.loadedCheckpoint, Point.goto]
      | _ => rfl
    · cases henabled <;> rfl
    · exact absurd rfl hloaded

/-- The last version comes after all others. -/
theorem pairwise_append {α : Type} {R : α → α → Prop} (hR : ∀ x y z, R x y → R y z → R x z)
    {l : List α} {last next : α} (hl : l.Pairwise R) (hlast : l.getLast? = some last)
    (hnext : R last next) : (l ++ [next]).Pairwise R := by
  obtain ⟨front, rfl⟩ := List.getLast?_eq_some_iff.1 hlast
  refine List.pairwise_append.2 ⟨hl, List.pairwise_singleton R next, fun x hx y hy => ?_⟩
  obtain rfl := List.mem_singleton.1 hy
  rcases List.mem_append.1 hx with hx | hx
  · exact hR _ _ _ ((List.pairwise_append.1 hl).2.2 x hx last (List.mem_singleton_self _)) hnext
  · obtain rfl := List.mem_singleton.1 hx
    exact hnext

theorem Loaded.Agrees.of_versions {loaded : Loaded} {d d' : Disk} (h : loaded.Agrees d)
    (hversions : d'.versions = d.versions ∨ d'.versions = []) : loaded.Agrees d' := by
  cases loaded with
  | nothing => trivial
  | present => trivial
  | absent =>
    rcases hversions with heq | hnil
    · exact heq.trans h
    · exact hnil
  | found c =>
    rcases hversions with heq | hnil
    · simp only [Loaded.Agrees, Disk.checkpoint, heq]
      exact h
    · exact .inl hnil

/-- An operation of a task leaves what the others have read as it was. -/
theorem others_agree (h : setup.Recorded s) (hlocks : LocksAgree s)
    (henabled : Enabled setup t (s.point t) o) (hexec : exec t o c s.shared = some (r, s')) :
    ∀ u, u ≠ t → (s.point u).loaded.Agrees s'.disk := by
  intro u hu
  rcases versions_of_exec hexec with heq | ⟨next, rfl, -⟩ | ⟨-, hnil⟩
  · exact (h.loaded u).of_versions (.inl heq)
  · have ht := (stored_extends henabled (h.loaded_wf t)).1
    by_cases hnothing : (s.point u).loaded = .nothing
    · rw [hnothing]
      trivial
    · exact absurd (exclusive hlocks h.single (h.inside u hnothing) ht) hu
  · exact (h.loaded u).of_versions (.inr hnil)

theorem checkpoint_mem {d : Disk} {found : TransferCheckpoint} (h : d.checkpoint = some found) :
    found ∈ d.versions := List.mem_of_getLast? h

/-- What a task has read after a step is what the file holds. -/
theorem self_agrees (h : setup.Recorded s) (henabled : Enabled setup t (s.point t) o)
    (hexec : exec t o c s.shared = some (r, s')) :
    (advance setup stream (s.point t) o r).loaded.Agrees s'.disk ∧
      ∀ found, (advance setup stream (s.point t) o r).loaded = .found found →
        setup.WfCheckpoint found := by
  by_cases ho : o.LeavesLoaded
  · rw [loaded_advance ho]
    refine ⟨(h.loaded t).of_versions ?_, h.loaded_wf t⟩
    rcases versions_of_exec hexec with heq | ⟨next, hnext, -⟩ | ⟨-, hnil⟩
    · exact .inl heq
    · exact absurd hnext (ho.2.2.1 next)
    · exact .inr hnil
  · simp only [Op.LeavesLoaded, not_and_or, not_not, not_forall] at ho
    rcases ho with rfl | rfl | ⟨next, rfl⟩ | rfl
    · rcases attempt_eq c (some (s.shared.disk.checkpoint.isSome, s.shared)) s.shared with
        heq | ⟨present, s'', hdone, heq⟩
      · simp only [exec, heq] at hexec
        cases hexec
        exact ⟨h.loaded t, h.loaded_wf t⟩
      · simp only [exec, heq] at hexec
        cases hexec
        cases hdone
        cases hcheckpoint : s.shared.disk.checkpoint with
        | none =>
          exact ⟨List.getLast?_eq_none_iff.1 hcheckpoint, fun found hfound => by cases hfound⟩
        | some found => exact ⟨trivial, fun found hfound => by cases hfound⟩
    · rcases attempt_eq c (s.shared.disk.checkpoint.map fun found => (found, s.shared))
          s.shared with
        heq | ⟨found, s'', hdone, heq⟩
      · simp only [exec, heq] at hexec
        cases hexec
        exact ⟨h.loaded t, h.loaded_wf t⟩
      · simp only [exec, heq] at hexec
        cases hexec
        obtain ⟨found', hfound', heq'⟩ := Option.map_eq_some_iff.1 hdone
        cases heq'
        have hwf := h.wf _ (checkpoint_mem hfound')
        simp only [advance, Point.loadedCheckpoint]
        split
        · exact ⟨h.loaded t, h.loaded_wf t⟩
        · refine ⟨.inr hfound', fun found'' hfound'' => ?_⟩
          cases hfound''
          exact hwf
    · obtain ⟨-, hwf, -⟩ := stored_extends henabled (h.loaded_wf t)
      cases r with
      | none => exact ⟨trivial, fun found hfound => by cases hfound⟩
      | some _ =>
        have hloaded :
            (advance setup stream (s.point t) (.persistCheckpoint next) (some ())).loaded =
            .found next := by
          simp only [advance, Point.storedCheckpoint]
          split
          · split <;> rfl
          · rfl
          · rfl
        rw [hloaded]
        refine ⟨.inr ?_, fun found hfound => ?_⟩
        · cases c with
          | ok =>
            cases hexec
            exact List.getLast?_concat ..
          | _ => cases hexec
        · cases hfound
          exact hwf
    · exact ⟨trivial, fun found hfound => by cases hfound⟩

theorem recorded_step (h : setup.Recorded s) (hlocks : LocksAgree s)
    (henabled : Enabled setup t (s.point t) o) (hlookup : Undisturbed .checkpoint s t o)
    (hexec : exec t o c s.shared = some (r, s')) :
    setup.Recorded (moved s t (advance setup stream (s.point t) o r) s') where
  single := single_of_exec h.single hlookup hexec
  wf := by
    rw [moved_shared]
    rcases versions_of_exec hexec with heq | ⟨next, rfl, heq⟩ | ⟨-, hnil⟩
    · rw [heq]
      exact h.wf
    · rw [heq]
      intro found hfound
      rcases List.mem_append.1 hfound with hfound | hfound
      · exact h.wf found hfound
      · obtain rfl := List.mem_singleton.1 hfound
        exact (stored_extends henabled (h.loaded_wf t)).2.1
    · simp [hnil]
  extend := by
    rw [moved_shared]
    rcases versions_of_exec hexec with heq | ⟨next, rfl, heq⟩ | ⟨-, hnil⟩
    · rw [heq]
      exact h.extend
    · rw [heq]
      have hagrees := h.loaded t
      have hsingleton : ∀ l : List TransferCheckpoint, l = [] →
          (l ++ [next]).Pairwise TransferCheckpoint.Extends := by
        intro l hl
        subst hl
        exact List.pairwise_singleton _ next
      obtain ⟨-, -, habsent | ⟨found, hfound, hextends⟩⟩ := stored_extends henabled (h.loaded_wf t)
      · rw [habsent] at hagrees
        exact hsingleton _ hagrees
      · rw [hfound] at hagrees
        rcases hagrees with hnil | hlast
        · exact hsingleton _ hnil
        · exact pairwise_append (fun _ _ _ hxy hyz => hxy.trans hyz) h.extend hlast hextends
    · simp [hnil]
  inside := forall_moved (P := fun _ pt => pt.loaded ≠ .nothing → pt.checkpoint = .inside)
    (inside_of_advance (h.inside t) henabled) fun u _ => h.inside u
  loaded_wf := forall_moved (P := fun _ pt => ∀ found, pt.loaded = .found found →
      setup.WfCheckpoint found)
    (self_agrees h henabled hexec).2 fun u _ => h.loaded_wf u
  loaded := forall_moved (P := fun _ pt => pt.loaded.Agrees s'.disk)
    (self_agrees h henabled hexec).1 (others_agree h hlocks henabled hexec)

end

/-- The steps that look the checkpoint lock up in peace. -/
def Peaceful (s : Tracked Task Point State) (t : Task) (o : Op) (_ : Choice) : Prop :=
  Undisturbed .checkpoint s t o

/-- Peaceful steps other than the removal of the checkpoint file. -/
def KeepsCheckpoint (s : Tracked Task Point State) (t : Task) (o : Op) (c : Choice) : Prop :=
  Peaceful s t o c ∧ ¬ (o = .removeCheckpoint ∧ c = .ok)

/-- From `cfg`, a task stores a checkpoint with an offset for a lane, and is told that it
has. -/
def Stores (setup : Setup)
    (cfg cfg' : Config Task Op Op.Reply (Tracked Task Point State) (Except String Unit))
    (laneIndex offset : Nat) : Prop :=
  ∃ t c next k s lane, cfg.pool t = .act (.persistCheckpoint next) k ∧
    (machine.track (protocol setup)).exec t (.persistCheckpoint next) c cfg.shared =
      some (some (), s) ∧
    cfg' = ⟨s, Function.update cfg.pool t (k (some ()))⟩ ∧
    next.lane? laneIndex = some lane ∧ lane.offset = offset

section

variable {setup : Setup}
  {cfg cfg' : Config Task Op Op.Reply (Tracked Task Point State) (Except String Unit)}

theorem Stores.spec {laneIndex offset : Nat} (h : Stores setup cfg cfg' laneIndex offset) :
    RunsTo setup Peaceful cfg cfg' ∧ ∃ found lane,
      cfg'.shared.shared.disk.checkpoint = some found ∧ found.lane? laneIndex = some lane ∧
        lane.offset = offset := by
  obtain ⟨t, c, next, k, s, lane, hpool, hexec, rfl, hlane, hoffset⟩ := h
  refine ⟨.step .refl hpool (fun ho => by cases ho) hexec, next, lane, ?_, hlane, hoffset⟩
  obtain ⟨shared, hexec', rfl⟩ := Machine.track_exec_eq_some hexec
  cases c with
  | ok =>
    cases hexec'
    exact List.getLast?_concat ..
  | _ => cases hexec'

/-- Where the file is not removed, its versions stay the first ones. -/
theorem versions_isPrefix (h : RunsTo setup KeepsCheckpoint cfg cfg') :
    cfg.shared.shared.disk.versions <+: cfg'.shared.shared.disk.versions := by
  induction h with
  | refl => exact List.prefix_rfl
  | @step cfg' t o k c r s _ _ hallowed hexec ih =>
    obtain ⟨shared, hexec', rfl⟩ := Machine.track_exec_eq_some hexec
    refine ih.trans ?_
    show _ <+: shared.disk.versions
    by_cases ho : o = .removeCheckpoint
    · subst ho
      cases c with
      | ok => exact absurd ⟨rfl, rfl⟩ hallowed.2
      | _ =>
        cases hexec'
        exact List.prefix_rfl
    · rcases versions_of_exec hexec' with heq | ⟨next, -, heq⟩ | ⟨hremove, -⟩
      · rw [heq]
      · rw [heq]
        exact List.prefix_append _ _
      · exact absurd hremove ho

theorem recorded_start {stored : TransferSummary} {disk : Disk}
    (hwf : ∀ found ∈ disk.versions, setup.WfCheckpoint found)
    (hextend : disk.versions.Pairwise TransferCheckpoint.Extends) :
    setup.Recorded ⟨start stored disk, startPoint⟩ := by
  have hnothing : ∀ u, (startPoint u).loaded = .nothing := by
    intro u
    cases u <;> rfl
  refine ⟨NamedLock.single_empty, hwf, hextend, fun u hu => absurd (hnothing u) hu,
    fun u found hu => ?_, fun u => ?_⟩
  · rw [hnothing u] at hu
    cases hu
  · show (startPoint u).loaded.Agrees disk
    rw [hnothing u]
    trivial

end

/-- **No update is lost**, in peaceful runs: when an offset was stored for a lane, the
file holds no smaller one for it as long as it is not removed. -/
theorem update_kept (ctx : Context) (transfer : TransferSummary)
    (streams : Nat → Option LaneStream) (disk : Disk)
    (hwf : ∀ found ∈ disk.versions, ∃ lanes, found.Wf transfer.fileSizeBytes lanes)
    (hextend : disk.versions.Pairwise TransferCheckpoint.Extends)
    {cfg cfg' cfg'' : Config Task Op Op.Reply (Tracked Task Point State) (Except String Unit)}
    (hbefore : RunsTo (unreliable ctx transfer streams) Peaceful
      (starting (unreliable ctx transfer streams) transfer disk) cfg)
    {laneIndex offset : Nat}
    (hstores : Stores (unreliable ctx transfer streams) cfg cfg' laneIndex offset)
    (hafter : RunsTo (unreliable ctx transfer streams) KeepsCheckpoint cfg' cfg'') :
    ∃ found lane, cfg''.shared.shared.disk.checkpoint = some found ∧
      found.lane? laneIndex = some lane ∧ offset ≤ lane.offset := by
  obtain ⟨hstep, found, lane, hfound, hlane, rfl⟩ := hstores.spec
  have hto := (hbefore.trans hstep).trans (hafter.mono fun _ _ _ _ h => h.1)
  obtain ⟨-, -, hInv⟩ := reaches_invariant trivial
    (fun _ _ _ _ _ _ _ hbase hInv _ henabled hallowed hexec =>
      recorded_step hInv hbase.locks henabled hallowed hexec)
    (sameTransfer_refl transfer) (recorded_start hwf hextend) hto
  obtain ⟨later, hlater⟩ := versions_isPrefix hafter
  have hextends := hInv.extend
  rw [← hlater] at hextends
  -- the version of then is the last one, or comes before it
  rcases List.eq_nil_or_concat later with rfl | ⟨front, last, rfl⟩
  · rw [List.append_nil] at hlater
    refine ⟨found, lane, ?_, hlane, Nat.le_refl _⟩
    rw [Disk.checkpoint, ← hlater]
    exact hfound
  · have hlast : found.Extends last :=
      (List.pairwise_append.1 hextends).2.2 found (checkpoint_mem hfound) last (by simp)
    obtain ⟨lane', hlane', hle⟩ := hlast.lane? hlane
    refine ⟨last, lane', ?_, hlane', hle⟩
    rw [Disk.checkpoint, ← hlater, List.concat_eq_append, ← List.append_assoc]
    exact List.getLast?_concat ..

/-- A task is about to store an offset for a lane. -/
def Scenario.storesNext
    (cfg : Config Task Op Op.Reply (Tracked Task Point State) (Except String Unit)) (t : Task)
    (laneIndex offset : Nat) : Bool :=
  match cfg.pool t with
  | .act (.persistCheckpoint next) _ =>
    decide ((next.lane? laneIndex).map LaneCheckpoint.offset = some offset)
  | _ => false

theorem Scenario.stores_of_next {setup : Setup}
    {cfg : Config Task Op Op.Reply (Tracked Task Point State) (Except String Unit)} {t : Task}
    {laneIndex offset : Nat} (h : storesNext cfg t laneIndex offset = true) :
    ∃ cfg', Stores setup cfg cfg' laneIndex offset := by
  unfold storesNext at h
  split at h
  · rename_i next k hpool
    obtain ⟨lane, hlane, hoffset⟩ := Option.map_eq_some_iff.1 (of_decide_eq_true h)
    exact ⟨_, t, .ok, next, k, _, lane, hpool, rfl, rfl, hlane, hoffset⟩
  · cases h

theorem Scenario.peaceful_of_uploads (s : Tracked Task Point State) (t : Task) (o : Op)
    (c : Choice) (hbase : Baseline threeLanes s) (h : uploads s t o c = true) :
    Peaceful s t o c := by
  intro ho
  subst ho
  exact undisturbed_of_entry hbase.locks (of_decide_eq_true h) rfl

open Scenario in
/-- Two lanes are opened, and the offset of one of them is stored. -/
theorem update_kept_sample :
    ∃ cfg cfg', RunsTo threeLanes Peaceful
        (starting threeLanes (transfer [7, 8, 9] true .queued) noFiles) cfg ∧
      Stores threeLanes cfg cfg' 0 1 ∧
      ∃ found lane, cfg'.shared.shared.disk.checkpoint = some found ∧
        found.lane? 0 = some lane ∧ 1 ≤ lane.offset := by
  have hrun : ((starting threeLanes (transfer [7, 8, 9] true .queued) noFiles).runIf
      (machine.track (protocol threeLanes)) uploads
      (turns [(.handler 0, 17), (.handler 1, 17), (.writer 0, 6)])).any
      (fun cfg => storesNext cfg (.writer 0) 0 1) = true := by
    decide +kernel
  obtain ⟨cfg, htest, hnext⟩ := Config.reaches_of_runIf_any (fun _ _ _ _ h => h) hrun
  have hto := runsTo_of_baseline trivial peaceful_of_uploads (sameTransfer_refl _) htest
  obtain ⟨cfg', hstores⟩ := stores_of_next hnext
  exact ⟨cfg, cfg', hto, hstores,
    update_kept _ _ _ noFiles (by simp [noFiles]) (by simp [noFiles]) hto hstores .refl⟩

/-! ## A lost update -/

/-- Steps of one task that do not remove the checkpoint file. -/
def Scenario.only (u t : Task) (o : Op) : Bool :=
  match o with
  | .removeCheckpoint => false
  | _ => decide (t = u)

theorem Scenario.of_only {u t : Task} {o : Op} (h : only u t o = true) :
    t = u ∧ o ≠ .removeCheckpoint := by
  refine ⟨?_, fun ho => ?_⟩
  · unfold only at h
    split at h
    · cases h
    · exact of_decide_eq_true h
  · subst ho
    cases h

/-- The offsets of the lanes in the checkpoint file. -/
def Scenario.offsets (s : State) : Option (List Nat) :=
  s.disk.checkpoint.map fun found => found.lanes.map LaneCheckpoint.offset

open Scenario in
/-- Lane 2 fails while the writer of lane 0 is inside the lock: the writer of lane 1 gets
in as well, and overwrites the offset of lane 0. -/
theorem update_lost :
    ∃ cfg cfg', Config.Reaches machine (fun _ _ _ _ => True)
        (server (transfer [7, 8, 9] true .queued) noFiles
          [lane [7, 8, 9] 3 0, lane [7, 8, 9] 3 1, lane [7, 8, 9] 3 2]) cfg ∧
      decide (offsets cfg.shared = some [1, 1, 2]) = true ∧
      Config.Reaches machine (fun _ t o _ => t = .writer 1 ∧ o ≠ .removeCheckpoint) cfg cfg' ∧
      decide (offsets cfg'.shared = some [0, 2, 2]) = true :=
  Config.exists_run_then (fun _ t o _ => only (.writer 1) t o)
    (turns [(.handler 0, 17), (.handler 1, 17), (.handler 2, 17), (.writer 0, 6), (.writer 2, 1)] ++
      [(.writer 2, .ioError)] ++ turns [(.writer 2, 1), (.handler 2, 8), (.writer 1, 6),
      (.writer 0, 2)])
    (turns [(.writer 1, 1)]) (fun _ _ _ _ h => of_only h)
    (by decide +kernel) (by decide +kernel)

end Metra.Server
