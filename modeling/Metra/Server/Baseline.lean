import Metra.Server.Conforms
import Metra.Server.Effects
import Metra.Server.Moves

/-!
# What holds in every run

The facts about the server that no failure and no schedule can break, and on which
the invariants of the following modules build: the metadata of the transfer stays
what it was, the locks know who is inside and who waits, and a writer task writes
what its stream handed to it.
-/

namespace Metra.Server

open Interleave

/-- The state after task `t` got to the point `pt`. -/
def moved (s : Tracked Task Point State) (t : Task) (pt : Point) (s' : State) :
    Tracked Task Point State :=
  ⟨s', Function.update s.point t pt⟩

section

variable {s : Tracked Task Point State} {t u : Task} {pt : Point} {s' : State}

@[simp] theorem moved_shared : (moved s t pt s').shared = s' := rfl

@[simp] theorem moved_point_self : (moved s t pt s').point t = pt := Function.update_self _ _ _

theorem moved_point_of_ne (h : u ≠ t) : (moved s t pt s').point u = s.point u :=
  Function.update_of_ne h _ _

/-- What holds of a task's point after a step holds of all tasks' points, if it held
of the others' before. -/
theorem forall_moved {P : Task → Point → Prop} (ht : P t pt) (h : ∀ u, u ≠ t → P u (s.point u)) :
    ∀ u, P u ((moved s t pt s').point u) := by
  intro u
  by_cases hu : u = t
  · subst hu
    rw [moved_point_self]
    exact ht
  · rw [moved_point_of_ne hu]
    exact h u hu

/-- After a step a task is in the phase it was in, or it is the task that the step takes on. -/
theorem Enabled.moves_moved {setup : Setup} {stream : LaneStream} {o : Op}
    (henabled : Enabled setup t (s.point t) o) (hstream : setup.streams t.stream = some stream)
    (r : o.Reply) (s' : State) (u : Task) :
    ((moved s t (advance setup stream (s.point t) o r) s').point u).phase = (s.point u).phase ∨
      u = t ∧ Moves setup stream t (s.point t) o r
        ((moved s t (advance setup stream (s.point t) o r) s').point u).phase := by
  by_cases hu : u = t
  · subst hu
    rw [moved_point_self]
    exact (henabled.moves hstream r).imp_right fun hmoves => ⟨rfl, hmoves⟩
  · rw [moved_point_of_ne hu]
    exact .inl rfl

/-- Who has a check of the destination before it must keep what is there. -/
theorem Enabled.checks_moved {setup : Setup} {stream : LaneStream} {o : Op} {r : o.Reply}
    {s' : State} (henabled : Enabled setup t (s.point t) o)
    (hstream : setup.streams t.stream = some stream)
    (h : ∀ g, (s.point u).phase = .checking (g + 1) → setup.keepsExisting = true) {g : Nat}
    (hph : ((moved s t (advance setup stream (s.point t) o r) s').point u).phase =
      .checking (g + 1)) : setup.keepsExisting = true := by
  rcases henabled.moves_moved hstream r s' u with hsame | ⟨rfl, hmoves⟩
  · exact h g (hsame.symm.trans hph)
  · rw [hph] at hmoves
    generalize s.point u = pt at hmoves h
    generalize hg : g + 1 = g' at hmoves
    cases hmoves with
    | checking => exact setup.guards_pos_iff.1 (hg ▸ Nat.succ_pos g)
    | passed => exact h _ rfl

/-- Who has to clear the destination has found a file there. -/
theorem Enabled.clears_moved {setup : Setup} {stream : LaneStream} {o : Op} {c : Choice}
    {r : o.Reply} {s' : State} (henabled : Enabled setup t (s.point t) o)
    (hstream : setup.streams t.stream = some stream)
    (hexec : exec t o c s.shared = some (r, s'))
    (h : (s.point u).phase = .clearing → s.shared.disk.final ≠ none)
    (hph : ((moved s t (advance setup stream (s.point t) o r) s').point u).phase = .clearing) :
    s.shared.disk.final ≠ none := by
  rcases henabled.moves_moved hstream r s' u with hsame | ⟨rfl, hmoves⟩
  · exact h (hsame.symm.trans hph)
  · rw [hph] at hmoves
    generalize s.point u = pt at hmoves
    cases hmoves with
    | clearing =>
      have hpresent := (finalExists_of_exec hexec).1
      rw [eq_comm, Option.isSome_iff_ne_none] at hpresent
      exact hpresent

theorem clearing_of_removeFinal {setup : Setup} {pt : Point}
    (henabled : Enabled setup t pt .removeFinal) : ∃ i, t = .handler i ∧ pt.phase = .clearing := by
  cases henabled
  exact ⟨_, rfl, rfl⟩

theorem vacant_of_renameStaging {setup : Setup} {pt : Point}
    (henabled : Enabled setup t pt .renameStaging) : ∃ i, t = .handler i ∧ pt.phase = .vacant := by
  cases henabled
  exact ⟨_, rfl, rfl⟩

end

/-- The invariant rule for the server's tasks. -/
theorem invariant_of {setup : Setup}
    {allowed : Tracked Task Point State → Task → Op → Choice → Prop}
    {Inv : Tracked Task Point State → Prop}
    (h : ∀ (s : Tracked Task Point State) (t : Task) (stream : LaneStream) (o : Op) (c : Choice)
      (r : o.Reply) (s' : State),
      Inv s → setup.streams t.stream = some stream → Enabled setup t (s.point t) o →
      allowed s t o c → exec t o c s.shared = some (r, s') →
      Possible setup stream (s.point t) o r ∧
        Inv (moved s t (advance setup stream (s.point t) o r) s')) :
    Invariant machine (protocol setup) allowed Inv := by
  rintro s t o c r s' hInv ⟨⟨stream, hstream⟩, henabled⟩ hallowed hexec
  obtain ⟨hpossible, hnext⟩ := h s t stream o c r s' hInv hstream henabled hallowed hexec
  refine ⟨fun stream' hstream' => ?_, ?_⟩
  · rw [hstream] at hstream'
    cases hstream'
    exact hpossible
  · rw [Tracked.next, advance_of_stream hstream]
    exact hnext

/-! ## The locks -/

/-- Where a task stands with respect to a lock, as far as the lock knows. -/
def AtStage (t : Task) (l : NamedLock Task) : Stage → Prop
  | .out => l.clone t = none
  | .wanted => (∃ m, l.clone t = some m) ∧ ¬ l.Holds t
  | .inside => l.Holds t

section

variable {t u : Task} {l l' : NamedLock Task} {st : Stage}

theorem atStage_congr (hclone : l'.clone u = l.clone u) (hholds : l'.Holds u ↔ l.Holds u) :
    AtStage u l' st ↔ AtStage u l st := by
  cases st with
  | out => simp [AtStage, hclone]
  | wanted => simp [AtStage, hclone, hholds]
  | inside => simp [AtStage, hholds]

theorem not_holds_of_clone (h : l.clone t = none) : ¬ l.Holds t := by
  rintro ⟨m, hm, -⟩
  rw [h] at hm
  cases hm

theorem atStage_lookup (hwf : l.Wf) (hout : l.clone t = none) :
    AtStage t (l.lookup t) .wanted := by
  refine ⟨NamedLock.clone_lookup_self, ?_⟩
  rw [NamedLock.holds_lookup_iff hout hwf]
  exact not_holds_of_clone hout

theorem AtStage.lookup (h : AtStage u l st) (hne : u ≠ t) (hwf : l.Wf) (hout : l.clone t = none) :
    AtStage u (l.lookup t) st :=
  (atStage_congr (NamedLock.clone_lookup_of_ne hne) (NamedLock.holds_lookup_iff hout hwf)).2 h

theorem AtStage.lock (h : AtStage u l st) (hne : u ≠ t) (hl : l.lock t = some l') :
    AtStage u l' st := by
  refine (atStage_congr (by rw [NamedLock.clone_lock hl]) ?_).2 h
  rw [NamedLock.holds_lock_iff hl]
  simp [hne]

theorem AtStage.unlock (h : AtStage u l st) (hne : u ≠ t) (hheld : l.Holds t) :
    AtStage u (l.unlock t) st := by
  refine (atStage_congr (NamedLock.clone_unlock_of_ne hne) ?_).2 h
  rw [NamedLock.holds_unlock_iff hheld]
  simp [hne]

end

/-- The locks are well formed, and every task stands where its point says. -/
structure LocksAgree (s : Tracked Task Point State) : Prop where
  wf : ∀ kind, (s.shared.locks kind).Wf
  stage : ∀ t kind, AtStage t (s.shared.locks kind) ((s.point t).stage kind)

section

variable {setup : Setup} {t : Task} {stream : LaneStream} {pt : Point}

theorem stage_of_lockFor {kind : LockKind} (h : Enabled setup t pt (.lockFor kind)) :
    pt.stage kind = .out := by
  cases h <;> rfl

theorem stage_of_lock {kind : LockKind} (h : Enabled setup t pt (.lock kind)) :
    pt.stage kind = .wanted := by
  cases h <;> rfl

theorem stage_of_unlock {kind : LockKind} (h : Enabled setup t pt (.unlock kind)) :
    pt.stage kind = .inside := by
  cases h <;> rfl

/-- Where an operation takes a task with respect to a lock. -/
def stageAfter (o : Op) (kind : LockKind) (st : Stage) : Stage :=
  match o with
  | .lockFor k => if k = kind then .wanted else st
  | .lock k => if k = kind then .inside else st
  | .unlock k => if k = kind then .out else st
  | _ => st

@[simp] theorem stage_goto (ph : Phase) (kind : LockKind) :
    (pt.goto ph).stage kind = pt.stage kind := by
  cases kind <;> rfl

@[simp] theorem stage_setLoaded (loaded : Loaded) (kind : LockKind) :
    ({ pt with loaded := loaded } : Point).stage kind = pt.stage kind := by
  cases kind <;> rfl

theorem stage_advance (setup : Setup) (stream : LaneStream) (pt : Point) {o : Op} (r : o.Reply)
    (kind : LockKind) :
    (advance setup stream pt o r).stage kind = stageAfter o kind (pt.stage kind) := by
  unfold advance
  split <;> simp only [stageAfter, Point.loadedCheckpoint, Point.storedCheckpoint,
    Point.openedStaging, Point.sawFinal] <;> (repeat' split) <;>
    first
    | simp
    | (cases kind <;> simp_all [Point.stage])

end

section

variable {setup : Setup} {s : Tracked Task Point State} {t : Task} {stream : LaneStream} {o : Op}
  {c : Choice} {r : o.Reply} {s' : State}

/-- An operation on one lock of a task, which takes the task to `st'`. -/
theorem LocksAgree.update (h : LocksAgree s) {kind : LockKind} {l : NamedLock Task} {pt' : Point}
    {st' : Stage} (hwf : l.Wf)
    (hothers : ∀ u st, u ≠ t → AtStage u (s.shared.locks kind) st → AtStage u l st)
    (hself : AtStage t l st')
    (hpt : ∀ k, pt'.stage k = if k = kind then st' else (s.point t).stage k) :
    LocksAgree (moved s t pt' (s.shared.updateLock kind l)) := by
  have hlocks : ∀ k, (s.shared.updateLock kind l).locks k =
      if k = kind then l else s.shared.locks k := by
    intro k
    by_cases hk : k = kind
    · simp [State.updateLock, hk]
    · simp [State.updateLock, hk]
  refine ⟨fun k => ?_, fun u k => ?_⟩
  · rw [moved_shared, hlocks]
    split
    · exact hwf
    · exact h.wf k
  · rw [moved_shared, hlocks]
    by_cases hu : u = t
    · subst hu
      rw [moved_point_self, hpt]
      split
      · exact hself
      · exact h.stage u k
    · rw [moved_point_of_ne hu]
      split
      · rename_i hk
        subst hk
        exact hothers u _ hu (h.stage u k)
      · exact h.stage u k

theorem LocksAgree.step (h : LocksAgree s) (henabled : Enabled setup t (s.point t) o)
    (hexec : exec t o c s.shared = some (r, s')) :
    LocksAgree (moved s t (advance setup stream (s.point t) o r) s') := by
  have hpt := stage_advance setup stream (s.point t) r
  by_cases honLock : ∃ kind, o.IsOnLock kind
  · obtain ⟨kind, rfl | rfl | rfl | rfl⟩ := honLock
    · cases hexec
      have hout := h.stage t kind
      rw [stage_of_lockFor henabled] at hout
      refine h.update ((h.wf kind).lookup hout) (fun u st hu hst => hst.lookup hu (h.wf kind) hout)
        (atStage_lookup (h.wf kind) hout) fun k => ?_
      rw [hpt k]
      simp [stageAfter, eq_comm]
    · obtain ⟨l, hl, heq⟩ := Option.map_eq_some_iff.1 hexec
      cases heq
      have hinside : AtStage t l .inside := (NamedLock.holds_lock_iff hl).2 (.inr rfl)
      refine h.update ((h.wf kind).lock hl) (fun u st hu hst => hst.lock hu hl)
        hinside fun k => ?_
      rw [hpt k]
      simp [stageAfter, eq_comm]
    · cases hexec
      have hheld := h.stage t kind
      rw [stage_of_unlock henabled] at hheld
      have hout : AtStage t ((s.shared.locks kind).unlock t) .out := NamedLock.clone_unlock_self
      refine h.update ((h.wf kind).unlock hheld) (fun u st hu hst => hst.unlock hu hheld)
        hout fun k => ?_
      rw [hpt k]
      simp [stageAfter, eq_comm]
    · cases hexec
      refine h.update (h.wf kind).clear (fun u st _ hst => (atStage_congr rfl Iff.rfl).2 hst)
        ((atStage_congr rfl Iff.rfl).2 (h.stage t kind)) fun k => ?_
      rw [hpt k]
      simp only [stageAfter]
      split
      · rename_i hk
        rw [hk]
      · rfl
  · push Not at honLock
    have hlocks := locks_of_exec hexec honLock
    have hafter : ∀ kind st, stageAfter o kind st = st := by
      intro kind st
      unfold stageAfter
      split
      · rename_i k
        exact absurd (.inl rfl) (honLock k)
      · rename_i k
        exact absurd (.inr (.inl rfl)) (honLock k)
      · rename_i k
        exact absurd (.inr (.inr (.inl rfl))) (honLock k)
      · rfl
    refine ⟨fun kind => ?_, ?_⟩
    · rw [moved_shared, hlocks]
      exact h.wf kind
    · intro u kind
      rw [moved_shared, hlocks]
      have hsame : ((moved s t (advance setup stream (s.point t) o r) s').point u).stage kind =
          (s.point u).stage kind := by
        by_cases hu : u = t
        · subst hu
          rw [moved_point_self, hpt, hafter]
        · rw [moved_point_of_ne hu]
      rw [hsame]
      exact h.stage u kind

end

/-! ## The order of the phases -/

/-- How far a handler has got with opening and receiving; the writer is spawned on
the way from 8 to 9. -/
def Phase.rank : Phase → Nat
  | .idle => 0
  | .admitted _ => 1
  | .leased _ => 2
  | .resumed _ => 3
  | .opened _ => 4
  | .presizing .. => 5
  | .presized _ => 6
  | .accepted _ => 7
  | .receiving .. => 8
  | .draining _ => 9
  | .released => 11
  | _ => 10

section

variable {setup : Setup} {t : Task} {stream : LaneStream} {pt : Point} {o : Op} {r : o.Reply}
  {ph ph' : Phase}

theorem rank_le_ten (h : ph ≠ .released) : ph.rank ≤ 10 := by
  cases ph <;> simp [Phase.rank] at h ⊢

theorem Phase.MayFail.rank_le (h : ph.MayFail) : ph.rank ≤ 10 := by
  refine rank_le_ten ?_
  rintro rfl
  exact h

theorem Setup.Finalizes.rank_le (h : setup.Finalizes stream ph) : ph.rank ≤ 10 := by
  refine rank_le_ten ?_
  rintro rfl
  exact h

/-- A handler never goes back. -/
theorem Moves.rank_le {i : Nat} (h : Moves setup stream (.handler i) pt o r ph') :
    pt.phase.rank ≤ ph'.rank := by
  cases h with
  | alreadyDone hph => exact hph.rank_le
  | deciding hph => exact hph.rank_le
  | readySingle _ hph => exact hph.rank_le
  | notRunning _ hph =>
    rcases hph with hph | ⟨resume, admission, rfl, -⟩
    · exact hph.rank_le
    · exact Nat.le_succ 9
  | failing _ hph =>
    rcases hph with hph | ⟨resume, admission, rfl, -⟩
    · exact hph.rank_le
    · exact Nat.le_succ 9
  | abandoned hph => exact hph.2.rank_le
  | released hph =>
    rcases hph with rfl | ⟨-, hph⟩
    · exact Nat.le_succ 10
    · refine Nat.le_trans (rank_le_ten ?_) (Nat.le_succ 10)
      rintro rfl
      exact hph
  | _ => exact Nat.le_of_ble_eq_true rfl

theorem rank_le_advance {i : Nat} (h : Enabled setup (.handler i) pt o)
    (hstream : setup.streams i = some stream) (r : o.Reply) :
    pt.phase.rank ≤ (advance setup stream pt o r).phase.rank := by
  rcases h.moves hstream r with hsame | hmoves
  · rw [hsame]
  · exact hmoves.rank_le

end

/-! ## The writers -/

/-- How the writer task of a stream, the phase of the handler and that of the writer
fit together. -/
structure WriterAgrees (setup : Setup) (stream : LaneStream) (w : WriterTask) (hp wp : Phase) :
    Prop where
  absent : hp.rank ≤ 8 → w = .absent
  unborn : w = .absent → wp = .unborn ∧ ∀ resume, hp ≠ .draining resume
  running : ∀ args, w = .running args → setup.IsWriterArgs stream args ∧
    (∀ resume, hp = .draining resume → args.resumeOffset = resume) ∧
    (wp = .unborn ∨
      (∃ written rest d synced, wp = .writing args written rest d synced ∧
        ∃ front, args.chunks = front ++ rest ∧ front.flatten.length = written) ∨
      wp = .flushed args args.chunks.flatten.length)
  finished : ∀ result, w = .finished result → wp = .done ∧
    ∀ n resume, result = .ok n → hp = .draining resume → n = setup.chunkBytes stream resume

section

variable {setup : Setup} {i : Nat} {stream : LaneStream} {pt : Point} {o : Op} {r : o.Reply}
  {w : WriterTask} {hp wp ph' : Phase}

theorem chunkBytes_eq {args : WriterArgs} (h : setup.IsWriterArgs stream args) :
    setup.chunkBytes stream args.resumeOffset = args.chunks.flatten.length := by
  obtain ⟨admission, hrequest, heq⟩ := h
  rw [Setup.chunkBytes, hrequest]
  rw [heq]

/-- A step of the handler that does not spawn the writer. -/
theorem WriterAgrees.handler (h : WriterAgrees setup stream w hp wp)
    (hrank : hp.rank ≤ ph'.rank) (hdraining : ∀ resume, ph' = .draining resume → hp = ph') :
    WriterAgrees setup stream w ph' wp where
  absent h' := h.absent (Nat.le_trans hrank h')
  unborn hw := by
    refine ⟨(h.unborn hw).1, fun resume heq => ?_⟩
    refine (h.unborn hw).2 resume ?_
    rw [hdraining resume heq, heq]
  running args hw := by
    obtain ⟨hargs, hresume, hwriter⟩ := h.running args hw
    refine ⟨hargs, fun resume heq => hresume resume ?_, hwriter⟩
    rw [hdraining resume heq, heq]
  finished result hw := by
    obtain ⟨hdone, hcount⟩ := h.finished result hw
    refine ⟨hdone, fun n resume hresult heq => hcount n resume hresult ?_⟩
    rw [hdraining resume heq, heq]

/-- The writer is spawned. -/
theorem WriterAgrees.spawn {args : WriterArgs}
    (h : WriterAgrees setup stream w (.receiving args.resumeOffset args.file) wp)
    (hargs : setup.IsWriterArgs stream args) :
    WriterAgrees setup stream (.running args) (.draining args.resumeOffset) wp where
  absent h' := by
    simp [Phase.rank] at h'
  unborn hw := by
    cases hw
  running args' hw := by
    cases hw
    refine ⟨hargs, ?_, .inl (h.unborn (h.absent (Nat.le_refl _))).1⟩
    rintro resume ⟨⟩
    rfl
  finished result hw := by
    cases hw

/-- A step of the writer that does not end it. -/
theorem WriterAgrees.write {args : WriterArgs} {n n' d d' : Nat} {rest rest' : List (List UInt8)}
    {synced synced' : Bool}
    (h : WriterAgrees setup stream w hp (.writing args n rest d synced))
    (hrest : n' = n ∧ rest' = rest ∨ ∃ chunk, rest = chunk :: rest' ∧ n' = n + chunk.length) :
    WriterAgrees setup stream w hp (.writing args n' rest' d' synced') where
  absent := h.absent
  unborn hw := by
    cases (h.unborn hw).1
  running args' hw := by
    obtain ⟨hargs, hresume, hwriter⟩ := h.running args' hw
    refine ⟨hargs, hresume, ?_⟩
    obtain hunborn | ⟨n₀, rest₀, d₀, synced₀, heq, front, hfront, hn⟩ | hflushed := hwriter
    · cases hunborn
    · cases heq
      rcases hrest with ⟨rfl, rfl⟩ | ⟨chunk, rfl, rfl⟩
      · exact .inr (.inl ⟨_, _, _, _, rfl, front, hfront, hn⟩)
      · exact .inr (.inl ⟨_, _, _, _, rfl, front ++ [chunk], by simp [hfront], by simp [hn]⟩)
    · cases hflushed
  finished result hw := by
    cases (h.finished result hw).1

/-- The writer has flushed the file after its last chunk. -/
theorem WriterAgrees.flush {args : WriterArgs} {n d : Nat} {synced : Bool}
    (h : WriterAgrees setup stream w hp (.writing args n [] d synced)) :
    WriterAgrees setup stream w hp (.flushed args n) where
  absent := h.absent
  unborn hw := by
    cases (h.unborn hw).1
  running args' hw := by
    obtain ⟨hargs, hresume, hwriter⟩ := h.running args' hw
    refine ⟨hargs, hresume, ?_⟩
    obtain hunborn | ⟨n₀, rest₀, d₀, synced₀, heq, front, hfront, hn⟩ | hflushed := hwriter
    · cases hunborn
    · cases heq
      rw [List.append_nil] at hfront
      exact .inr (.inr (by rw [hfront, hn]))
    · cases hflushed
  finished result hw := by
    cases (h.finished result hw).1

/-- The writer ends: with an error, or with as many bytes as it was handed. -/
theorem WriterAgrees.finish {result : Except String Nat}
    (h : WriterAgrees setup stream w hp wp) (hborn : wp ≠ .unborn)
    (hok : ∀ n, result = .ok n → ∃ args, wp = .flushed args n) :
    WriterAgrees setup stream (.finished result) hp .done where
  absent h' := absurd (h.unborn (h.absent h')).1 hborn
  unborn hw := by
    cases hw
  running args' hw := by
    cases hw
  finished result' hw := by
    cases hw
    refine ⟨rfl, fun n resume hn hdraining => ?_⟩
    obtain ⟨args, rfl⟩ := hok n hn
    cases hw : w with
    | absent => exact absurd (h.unborn hw).1 hborn
    | finished result' =>
      cases (h.finished result' hw).1
    | running args' =>
      obtain ⟨hargs, hresume, hunborn | ⟨n₀, rest₀, d₀, synced₀, heq, -⟩ | hflushed⟩ :=
        h.running args' hw
      · cases hunborn
      · cases heq
      · cases hflushed
        rw [← hresume resume hdraining, chunkBytes_eq hargs]

end

/-! ## The baseline -/

/-- What holds in every run. -/
structure Baseline (setup : Setup) (s : Tracked Task Point State) : Prop where
  transfer : SameTransfer setup.transfer s.shared.transfer
  stored : SameTransfer setup.transfer s.shared.stored
  locks : LocksAgree s
  writers : ∀ i stream, setup.streams i = some stream →
    WriterAgrees setup stream (s.shared.writers i) (s.point (.handler i)).phase
      (s.point (.writer i)).phase

section

variable {setup : Setup} {s : Tracked Task Point State} {t : Task} {stream : LaneStream} {o : Op}
  {c : Choice} {r : o.Reply} {s' : State}

theorem writerAgrees_handler {i : Nat} (h : WriterAgrees setup stream (s.shared.writers i)
      (s.point (.handler i)).phase (s.point (.writer i)).phase)
    (hstream : setup.streams i = some stream)
    (henabled : Enabled setup (.handler i) (s.point (.handler i)) o)
    (hexec : exec (.handler i) o c s.shared = some (r, s')) :
    WriterAgrees setup stream (s'.writers i) (advance setup stream (s.point (.handler i)) o r).phase
      (s.point (.writer i)).phase := by
  have hrank := rank_le_advance henabled hstream r
  have hmoves := henabled.moves hstream r
  revert h henabled hrank hmoves
  generalize s.point (.handler i) = pt
  intro h henabled hrank hmoves
  by_cases hspawn : ∃ args, o = .spawnWriter args
  · obtain ⟨args, rfl⟩ := hspawn
    cases hexec
    simp only [State.setWriter, Task.stream, Function.update_self]
    cases henabled with
    | spawn hstream' hargs hresume =>
      subst hresume
      obtain rfl := Option.some.inj (hstream'.symm.trans hstream)
      exact h.spawn hargs
  · have hw : s'.writers i = s.shared.writers i := by
      rcases writers_of_exec hexec with heq | ⟨args, rfl, -⟩ | ⟨result, rfl, -⟩
      · rw [heq]
      · exact absurd ⟨args, rfl⟩ hspawn
      · cases henabled
    rw [hw]
    refine h.handler hrank fun resume heq => ?_
    rcases hmoves with hsame | hmoves
    · rw [hsame]
    · rw [heq] at hmoves
      cases hmoves with
      | draining => exact absurd ⟨_, rfl⟩ hspawn

theorem writerAgrees_writer {i : Nat} (h : WriterAgrees setup stream (s.shared.writers i)
      (s.point (.handler i)).phase (s.point (.writer i)).phase)
    (hstream : setup.streams i = some stream)
    (henabled : Enabled setup (.writer i) (s.point (.writer i)) o)
    (hexec : exec (.writer i) o c s.shared = some (r, s')) :
    WriterAgrees setup stream (s'.writers i) (s.point (.handler i)).phase
      (advance setup stream (s.point (.writer i)) o r).phase := by
  have hmoves := henabled.moves hstream r
  revert h henabled hmoves
  generalize s.point (.writer i) = pt
  intro h henabled hmoves
  by_cases hfinish : ∃ result, o = .finishWriter result
  · obtain ⟨result, rfl⟩ := hfinish
    cases hexec
    simp only [State.setWriter, Task.stream, Function.update_self]
    rcases hmoves with hsame | hmoves
    · cases henabled <;> cases hsame
    · cases hmoves with
      | @done _ _ args =>
        refine h.finish (by simp) fun n hn => ⟨args, ?_⟩
        cases hn
        rfl
      | gaveUp => exact h.finish (by simp) nofun
  · have hw : s'.writers i = s.shared.writers i := by
      rcases writers_of_exec hexec with heq | ⟨args, rfl, -⟩ | ⟨result, rfl, -⟩
      · rw [heq]
      · cases henabled
      · exact absurd ⟨result, rfl⟩ hfinish
    rw [hw]
    rcases hmoves with hsame | hmoves
    · rw [hsame]
      exact h
    · generalize (advance setup stream pt o r).phase = ph' at hmoves
      cases hmoves with
      | @writing _ args =>
        have hrunning : s.shared.writers i = .running args := (awaitWriter_of_exec hexec).1
        rw [hrunning] at h ⊢
        obtain ⟨hargs, hresume, -⟩ := h.running _ rfl
        refine ⟨h.absent, fun hw' => (by cases hw'), ?_, fun result hw' => (by cases hw')⟩
        rintro args' ⟨⟩
        exact ⟨hargs, hresume, .inr (.inl ⟨_, _, _, _, rfl, [], rfl, rfl⟩)⟩
      | wrote => exact h.write (.inr ⟨_, rfl, rfl⟩)
      | synced => exact h.write (.inl ⟨rfl, rfl⟩)
      | recorded => exact h.write (.inl ⟨rfl, rfl⟩)
      | stored => exact h.write (.inl ⟨rfl, rfl⟩)
      | flushed => exact h.flush
      | done => exact absurd ⟨_, rfl⟩ hfinish
      | gaveUp => exact absurd ⟨_, rfl⟩ hfinish

theorem writersAgree_step (h : Baseline setup s) (hstream : setup.streams t.stream = some stream)
    (henabled : Enabled setup t (s.point t) o) (hexec : exec t o c s.shared = some (r, s')) :
    ∀ i stream', setup.streams i = some stream' →
      WriterAgrees setup stream' (s'.writers i)
        ((moved s t (advance setup stream (s.point t) o r) s').point (.handler i)).phase
        ((moved s t (advance setup stream (s.point t) o r) s').point (.writer i)).phase := by
  intro i stream' hstream'
  have hbefore := h.writers i stream' hstream'
  by_cases hi : i = t.stream
  · subst hi
    obtain rfl : stream' = stream := Option.some.inj (hstream'.symm.trans hstream)
    cases t with
    | handler i =>
      have hne : Task.writer i ≠ .handler i := by simp
      simp only [Task.stream]
      rw [moved_point_self, moved_point_of_ne hne]
      exact writerAgrees_handler hbefore hstream henabled hexec
    | writer i =>
      have hne : Task.handler i ≠ .writer i := by simp
      simp only [Task.stream]
      rw [moved_point_self, moved_point_of_ne hne]
      exact writerAgrees_writer hbefore hstream henabled hexec
  · have hne : ∀ u : Task, u.stream = i → u ≠ t := by
      rintro u hu rfl
      exact hi hu.symm
    rw [writers_of_ne hexec hi, moved_point_of_ne (hne (.handler i) rfl),
      moved_point_of_ne (hne (.writer i) rfl)]
    exact hbefore

theorem Baseline.step (h : Baseline setup s) (hstream : setup.streams t.stream = some stream)
    (henabled : Enabled setup t (s.point t) o) (hexec : exec t o c s.shared = some (r, s')) :
    Baseline setup (moved s t (advance setup stream (s.point t) o r) s') where
  transfer := sameTransfer_of_exec hexec h.transfer
  stored := by
    rw [moved_shared]
    rcases stored_of_exec hexec with heq | ⟨summary, rfl, heq⟩
    · rw [heq]
      exact h.stored
    · rw [heq]
      revert henabled
      generalize s.point t = pt
      intro henabled
      cases henabled with
      | upsertOpened hsame => exact hsame
      | upsertSettling hsame => exact hsame
  locks := h.locks.step henabled hexec
  writers := writersAgree_step h hstream henabled hexec

/-- The writer that is writing has been spawned, and has not got past what it was handed. -/
theorem running_of_writing (hbase : Baseline setup s) {i : Nat} {args : WriterArgs} {n d : Nat}
    {rest : List (List UInt8)} {synced : Bool} (hstream : setup.streams i = some stream)
    (hwriting : (s.point (.writer i)).phase = .writing args n rest d synced) :
    s.shared.writers i = .running args ∧ setup.IsWriterArgs stream args ∧
      ∃ front, args.chunks = front ++ rest ∧ front.flatten.length = n := by
  have hagrees := hbase.writers i stream hstream
  rw [hwriting] at hagrees
  cases hw : s.shared.writers i with
  | absent => cases (hagrees.unborn hw).1
  | finished result => cases (hagrees.finished result hw).1
  | running args' =>
    obtain ⟨hargs, -, hunborn | ⟨n', rest', d', synced', heq, hfront⟩ | hflushed⟩ :=
      hagrees.running args' hw
    · cases hunborn
    · cases heq
      exact ⟨rfl, hargs, hfront⟩
    · cases hflushed

/-- The writer that has flushed the file has been spawned, and has written what it was handed. -/
theorem running_of_flushed (hbase : Baseline setup s) {i : Nat} {args : WriterArgs} {n : Nat}
    (hstream : setup.streams i = some stream)
    (hflushed : (s.point (.writer i)).phase = .flushed args n) :
    s.shared.writers i = .running args ∧ setup.IsWriterArgs stream args ∧
      n = args.chunks.flatten.length := by
  have hagrees := hbase.writers i stream hstream
  rw [hflushed] at hagrees
  cases hw : s.shared.writers i with
  | absent => cases (hagrees.unborn hw).1
  | finished result => cases (hagrees.finished result hw).1
  | running args' =>
    obtain ⟨hargs, -, hunborn | ⟨n', rest', d', synced', heq, -⟩ | hall⟩ :=
      hagrees.running args' hw
    · cases hunborn
    · cases heq
    · cases hall
      exact ⟨rfl, hargs, rfl⟩

/-- A writer waits to be spawned, writes, has flushed the file, or has ended. -/
theorem phase_of_writer (hbase : Baseline setup s) {i : Nat}
    (hstream : setup.streams i = some stream) : (s.point (.writer i)).phase = .unborn ∨
      (∃ args w rest d synced, (s.point (.writer i)).phase = .writing args w rest d synced) ∨
      (∃ args w, (s.point (.writer i)).phase = .flushed args w) ∨
      (s.point (.writer i)).phase = .done := by
  have hagrees := hbase.writers i stream hstream
  cases hw : s.shared.writers i with
  | absent => exact .inl (hagrees.unborn hw).1
  | running args =>
    rcases (hagrees.running args hw).2.2 with hunborn | ⟨w, rest, d, synced, hwriting, -⟩ | hflushed
    · exact .inl hunborn
    · exact .inr (.inl ⟨args, w, rest, d, synced, hwriting⟩)
    · exact .inr (.inr (.inl ⟨args, _, hflushed⟩))
  | finished result => exact .inr (.inr (.inr (hagrees.finished result hw).1))

/-- Nothing is in the way of a step: the lane's lease is free, the checkpoint fits, what is to be
removed, renamed or joined is there, and no write has failed. -/
structure Setup.Smooth (setup : Setup) (s : Tracked Task Point State) (stream : LaneStream)
    (t : Task) (o : Op) : Prop where
  acquires : ∀ lane, o = .tryAcquireLaneWriter lane → lane ∉ s.shared.activeLaneWriters
  reads : o = .readCheckpoint → ∃ found, s.shared.disk.checkpoint = some found ∧
    setup.Fits stream found
  measures : o ≠ .stagingLen
  removes : o = .removeFinal → s.shared.disk.final ≠ none
  renames : o = .renameStaging → ∃ f, s.shared.disk.staging = some f
  joins : o = .joinWriter → ∀ result, s.shared.writers t.stream = .finished result →
    ∃ written, result = .ok written
  writes : s.shared.writeFailed t.stream = false

/-- **The replies that tasks reckon with** are those that they get when anything may fail,
and those of a step that comes out well when nothing is in its way. -/
theorem Baseline.possible_of (h : Baseline setup s)
    (hok : setup.faults ∨ c = .ok ∧ setup.Smooth s stream t o)
    (hstream : setup.streams t.stream = some stream)
    (henabled : Enabled setup t (s.point t) o) (hexec : exec t o c s.shared = some (r, s')) :
    Possible setup stream (s.point t) o r := by
  have htransfer := h.transfer
  have hpoint : o = .joinWriter → t = .handler t.stream := by
    rintro rfl
    cases t with
    | handler i => rfl
    | writer i =>
      generalize s.point (Task.writer i) = pt at henabled
      cases henabled
  cases o with
  | readTransfer =>
    cases hexec
    exact htransfer
  | markRunning m n b =>
    simp only [exec] at hexec
    split at hexec
    · rename_i hne
      refine .inr ?_
      rw [htransfer] at hne
      exact hne.imp Ne.symm Ne.symm
    · cases hexec
      exact .inl rfl
  | readPolicy =>
    cases hexec
    rw [htransfer]
    exact ⟨rfl, rfl⟩
  | recordReceived b =>
    cases hexec
    rw [htransfer]
    rfl
  | awaitWriter => exact ((h.writers _ _ hstream).running _ (awaitWriter_of_exec hexec).1).1
  | joinWriter =>
    have hw := (joinWriter_of_exec hexec).1
    refine ⟨fun n resume hdraining hresult => ?_, ?_⟩
    · refine ((h.writers _ _ hstream).finished _ hw).2 n resume hresult ?_
      rw [← hpoint rfl]
      exact hdraining
    · exact hok.symm.imp_left fun hsmooth => hsmooth.2.joins rfl _ hw
  | readCheckpoint =>
    rcases hok with hfaults | ⟨rfl, hsmooth⟩
    · exact .inl hfaults
    · obtain ⟨found, hfound, hfits⟩ := hsmooth.reads rfl
      simp only [exec, attempt, hfound, Option.map_some] at hexec
      cases hexec
      exact .inr ⟨found, rfl, hfits⟩
  | tryAcquireLaneWriter lane =>
    rcases hok with hfaults | ⟨rfl, hsmooth⟩
    · exact .inr hfaults
    · simp only [exec, if_neg (hsmooth.acquires lane rfl)] at hexec
      cases hexec
      exact .inl rfl
  | renameStaging =>
    rcases hok with hfaults | ⟨rfl, hsmooth⟩
    · exact .inr hfaults
    · obtain ⟨f, hf⟩ := hsmooth.renames rfl
      simp only [exec, State.withDisk, attempt, Disk.renameStaging, hf, Option.map_some] at hexec
      cases hexec
      exact .inl fun hnone => by cases hnone
  | writeAll f offset buffer =>
    rcases hok with hfaults | ⟨rfl, hsmooth⟩
    · exact .inr hfaults
    · simp only [exec, State.writeAll, hsmooth.writes, Bool.false_eq_true, if_false] at hexec
      cases hexec
      exact .inl fun hnone => by cases hnone
  | flush f =>
    rcases hok with hfaults | ⟨rfl, hsmooth⟩
    · exact .inr hfaults
    · simp only [exec, attempt, hsmooth.writes, Bool.false_eq_true, if_false] at hexec
      cases hexec
      exact .inl fun hnone => by cases hnone
  | stagingLen => exact .inr (hok.resolve_right fun hsmooth => hsmooth.2.measures rfl)
  | removeFinal =>
    rcases hok with hfaults | ⟨rfl, hsmooth⟩
    · exact .inr hfaults
    · obtain ⟨f, hf⟩ := Option.ne_none_iff_exists'.1 (hsmooth.removes rfl)
      simp only [exec, State.withDisk, attempt, hf, Option.map_some] at hexec
      cases hexec
      exact .inl fun hnone => by cases hnone
  | checkFinalized | checkRunning | recordProgress _ | setStatus _ _ | releaseLaneWriter _
  | lockFor _ | lock _ | unlock _ | clearLock _ | removeCheckpoint | spawnWriter _
  | finishWriter _ => trivial
  | _ =>
    rcases hok with hfaults | ⟨rfl, -⟩
    · exact .inr hfaults
    · cases hexec
      exact .inl fun hnone => by cases hnone

/-- When anything may fail, tasks reckon with no more than what holds of the metadata
and the writers. -/
theorem Baseline.possible (h : Baseline setup s) (hfaults : setup.faults)
    (hstream : setup.streams t.stream = some stream)
    (henabled : Enabled setup t (s.point t) o) (hexec : exec t o c s.shared = some (r, s')) :
    Possible setup stream (s.point t) o r :=
  h.possible_of (.inl hfaults) hstream henabled hexec

end

/-- A server in which anything may fail. -/
def unreliable (ctx : Context) (transfer : TransferSummary)
    (streams : Nat → Option LaneStream) : Setup :=
  ⟨ctx, transfer, streams, True⟩

theorem sameTransfer_refl (transfer : TransferSummary) : SameTransfer transfer transfer := rfl

/-- The runs of a server of unreliable parts, step by step allowed. -/
abbrev RunsTo (setup : Setup) (allowed : Tracked Task Point State → Task → Op → Choice → Prop)
    (cfg cfg' : Config Task Op Op.Reply (Tracked Task Point State) (Except String Unit)) : Prop :=
  Config.Reaches (machine.track (protocol setup)) allowed cfg cfg'

/-- A server with its streams, when it has just been started. -/
def starting (setup : Setup) (stored : TransferSummary) (disk : Disk) :
    Config Task Op Op.Reply (Tracked Task Point State) (Except String Unit) :=
  ⟨⟨start stored disk, startPoint⟩, program setup.ctx setup.streams⟩

theorem baseline_start {setup : Setup} {stored : TransferSummary} (disk : Disk)
    (hstored : SameTransfer setup.transfer stored) :
    Baseline setup ⟨start stored disk, startPoint⟩ where
  transfer := hstored
  stored := hstored
  locks := by
    refine ⟨fun kind => NamedLock.wf_empty, ?_⟩
    rintro (i | i) (_ | _) <;> rfl
  writers i stream _ := by
    refine ⟨fun _ => rfl, fun _ => ⟨rfl, ?_⟩, ?_, ?_⟩
    · intro resume h
      cases h
    · rintro args ⟨⟩
    · rintro result ⟨⟩

/-- **The rule for runs in which anything may fail**: an invariant on top of the
baseline needs no reply to be checked. -/
theorem invariant_of_step {setup : Setup} (hfaults : setup.faults)
    {allowed : Tracked Task Point State → Task → Op → Choice → Prop}
    {Inv : Tracked Task Point State → Prop}
    (hstep : ∀ (s : Tracked Task Point State) (t : Task) (stream : LaneStream) (o : Op)
      (c : Choice) (r : o.Reply) (s' : State),
      Baseline setup s → Inv s → setup.streams t.stream = some stream →
      Enabled setup t (s.point t) o → allowed s t o c → exec t o c s.shared = some (r, s') →
      Inv (moved s t (advance setup stream (s.point t) o r) s')) :
    Invariant machine (protocol setup) allowed fun s => Baseline setup s ∧ Inv s := by
  refine invariant_of ?_
  rintro s t stream o c r s' ⟨hbase, hInv⟩ hstream henabled hallowed hexec
  exact ⟨hbase.possible hfaults hstream henabled hexec, hbase.step hstream henabled hexec,
    hstep s t stream o c r s' hbase hInv hstream henabled hallowed hexec⟩

/-- It holds wherever the allowed steps lead. -/
theorem reaches_invariant {setup : Setup} (hfaults : setup.faults)
    {allowed : Tracked Task Point State → Task → Op → Choice → Prop}
    {Inv : Tracked Task Point State → Prop}
    (hstep : ∀ (s : Tracked Task Point State) (t : Task) (stream : LaneStream) (o : Op)
      (c : Choice) (r : o.Reply) (s' : State),
      Baseline setup s → Inv s → setup.streams t.stream = some stream →
      Enabled setup t (s.point t) o → allowed s t o c → exec t o c s.shared = some (r, s') →
      Inv (moved s t (advance setup stream (s.point t) o r) s'))
    {stored : TransferSummary} {disk : Disk} (hstored : SameTransfer setup.transfer stored)
    (hstart : Inv ⟨start stored disk, startPoint⟩)
    {cfg : Config Task Op Op.Reply (Tracked Task Point State) (Except String Unit)}
    (hreaches : Config.Reaches (machine.track (protocol setup)) allowed
      (starting setup stored disk) cfg) :
    cfg.Obedient (protocol setup) (fun t _ pt => TaskReturned setup t pt) ∧
      Baseline setup cfg.shared ∧ Inv cfg.shared := by
  refine (invariant_of_step hfaults hstep).reaches ?_ ⟨baseline_start disk hstored, hstart⟩
    hreaches
  exact fun t => program_obeys setup (fun h => absurd hfaults h) t

/-- What the steps of a run may do follows from what holds before each of them. -/
theorem runsTo_of_baseline {setup : Setup} (hfaults : setup.faults)
    {allowed allowed' : Tracked Task Point State → Task → Op → Choice → Prop}
    (hall : ∀ s t o c, Baseline setup s → allowed s t o c → allowed' s t o c)
    {stored : TransferSummary} {disk : Disk} (hstored : SameTransfer setup.transfer stored)
    {cfg : Config Task Op Op.Reply (Tracked Task Point State) (Except String Unit)}
    (hreaches : RunsTo setup allowed (starting setup stored disk) cfg) :
    RunsTo setup allowed' (starting setup stored disk) cfg := by
  induction hreaches with
  | refl => exact .refl
  | step hto hpool hallowed hexec ih =>
    obtain ⟨-, hbase, -⟩ := @reaches_invariant setup hfaults allowed (fun _ => True)
      (fun _ _ _ _ _ _ _ _ _ _ _ _ _ => trivial) _ _ hstored trivial _ hto
    exact .step ih hpool (hall _ _ _ _ hbase hallowed) hexec

end Metra.Server
