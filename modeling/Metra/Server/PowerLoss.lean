import Metra.Server.Delivery
import Metra.Server.Synced

/-!
# Power losses

A server that stops leaves its files as they are.  When the power fails, only those bytes are
sure to be left that have been synced and not been changed since.  A writer records a part of
its lane, in the checkpoint file, only after it has synced the staging file.

* `Setup.RestsOn` — somebody takes the byte at a position to be on disk already;
* `Setup.Backed` — the invariant: what somebody rests on has been synced, and is the source;
* `power_loss_intact` — **only the source is ever delivered, and what is recorded or delivered
  is not lost**, whichever servers have stopped and whichever power losses there were.

The names of the files are taken to survive, as does the checkpoint file: it is synced before
it takes the place of the one before, and so is the directory after that.
-/

namespace Metra.Server

open Interleave

/-! ## What is left -/

/-- What a power loss may leave of the files. -/
structure Disk.LosesPower (d left : Disk) : Prop where
  nextInode : left.nextInode = d.nextInode
  staging : left.staging = d.staging
  final : left.final = d.final
  versions : left.versions = d.versions
  placements : left.placements = d.placements
  remains : ∀ f, Bytes.Remains (d.inode f).synced (d.inode f).data (left.inode f).data
  synced : ∀ f, (left.inode f).synced = (left.inode f).data

/-- The files after all was lost that was not synced. -/
def Disk.reverted (d : Disk) : Disk :=
  { d with inode := fun f => ⟨(d.inode f).synced, (d.inode f).synced⟩ }

theorem Disk.losesPower_reverted (d : Disk) : d.LosesPower d.reverted where
  nextInode := rfl
  staging := rfl
  final := rfl
  versions := rfl
  placements := rfl
  remains _ := Bytes.remains_synced _ _
  synced _ := rfl

/-- The file has been synced. -/
inductive Syncs : (o : Op) → o.Reply → Prop
  | made {f : Nat} : Syncs (.syncData f) (some ())

section

variable {t : Task} {o : Op} {c : Choice} {r : o.Reply} {s s' : State} {f : Nat}

/-- A sync that is reported as made was made, and another one was not. -/
theorem syncData_of_exec {r : Option Unit} (h : exec t (.syncData f) c s = some (r, s')) :
    (r = none ∧ s' = s) ∨ r = some () ∧ s' = { s with disk := s.disk.syncData f } := by
  obtain ⟨hout, hs'⟩ := of_withDisk (Option.some.inj h)
  cases r with
  | none => exact .inl ⟨rfl, by rw [hs', hout, of_attempt_none hout]⟩
  | some u =>
    have hdone := of_attempt_some hout
    refine .inr ⟨rfl, ?_⟩
    rw [hs', hout, ← congrArg Prod.snd (Option.some.inj hdone)]

/-- Only by syncing a file what is synced of it changes. -/
theorem synced_of_not_syncs (hexec : exec t o c s = some (r, s')) (hsync : ¬ Syncs o r)
    (hold : s.disk.staging = none → f ≠ s.disk.nextInode) :
    (s'.disk.inode f).synced = (s.disk.inode f).synced := by
  rcases inode_of_exec hexec f with heq | ⟨-, hnone, hf, -⟩ | ⟨n, -, heq⟩ | ⟨_, _, _, -, heq⟩ |
    ⟨rfl, -⟩
  · rw [heq]
  · exact absurd hf (hold hnone)
  · rw [heq]
  · rw [heq]
  · rcases syncData_of_exec hexec with ⟨-, rfl⟩ | ⟨rfl, -⟩
    · rfl
    · exact absurd .made hsync

end

/-! ## Who rests on what -/

/-- A stream has synced its lane up to a position, none of its writes having failed, or is told
by its writer, which ends only then, that it has received the whole file up to there. -/
inductive Flushed (s : Tracked Task Point State) (stream : LaneStream) (i : Nat) : Nat → Prop
  | synced {args : WriterArgs} {n d : Nat} {rest : List (List UInt8)}
      (h : (s.point (.writer i)).phase = .writing args n rest d true)
      (hfine : s.shared.writeFailed i = false) : Flushed s stream i (args.resumeOffset + n)
  | durable {args : WriterArgs} {n d : Nat} {rest : List (List UInt8)} {synced : Bool}
      (h : (s.point (.writer i)).phase = .writing args n rest d synced)
      (hfine : s.shared.writeFailed i = false) : Flushed s stream i d
  | flushed {args : WriterArgs} {n : Nat} (h : (s.point (.writer i)).phase = .flushed args n) :
      Flushed s stream i (args.resumeOffset + n)
  | joined {resume n : Nat} (hsingle : isStriped stream.request = false)
      (h : (s.point (.handler i)).phase = .draining resume)
      (hw : s.shared.writers i = .finished (.ok n)) : Flushed s stream i (resume + n)
  | received {resume n : Nat} (hsingle : isStriped stream.request = false)
      (h : (s.point (.handler i)).phase = .received resume n) :
      Flushed s stream i (resume + n)

/-- Somebody takes the byte of the staging file at a position to be on disk. -/
inductive Setup.RestsOn (setup : Setup) (s : Tracked Task Point State) (p : Nat) : Prop
  | recorded {c : TransferCheckpoint} (h : s.shared.disk.checkpoint = some c)
      (hp : c.Records p)
  | loaded {u : Task} {stream : LaneStream} {c : TransferCheckpoint}
      (hstream : setup.streams u.stream = some stream) (h : (s.point u).loaded = .found c)
      (hp : c.Records p)
  | live {i resume : Nat} {stream : LaneStream} (hstream : setup.streams i = some stream)
      (h : setup.LiveAt s i resume) (hle : stream.request.rangeStart ≤ p) (hlt : p < resume)
  | flushed {i n : Nat} {stream : LaneStream} (hstream : setup.streams i = some stream)
      (h : Flushed s stream i n) (hle : stream.request.rangeStart ≤ p) (hlt : p < n)
  | whole {u : Task} {stream : LaneStream} (hstream : setup.streams u.stream = some stream)
      (h : (s.point u).phase.Whole)

/-- No writer has recorded more than it has written. -/
def Setup.RecordsWritten (setup : Setup) (s : Tracked Task Point State) : Prop :=
  ∀ i stream args n rest d synced, setup.streams i = some stream →
    (s.point (.writer i)).phase = .writing args n rest d synced → d ≤ args.resumeOffset + n

/-- What somebody rests on has been synced, and is the source. -/
structure Setup.Backed (setup : Setup) (source : List UInt8) (s : Tracked Task Point State) :
    Prop where
  written : setup.RecordsWritten s
  short : ∀ f, s.shared.disk.staging = some f →
    (s.shared.disk.inode f).synced.length ≤ source.length
  right : ∀ f, s.shared.disk.staging = some f → ∀ p < setup.size, setup.RestsOn s p →
    (s.shared.disk.inode f).synced[p]? = source[p]?

/-- The files that have been delivered are on disk, and the staging file is right and backed,
or does not matter. -/
structure Setup.Durable (setup : Setup) (source : List UInt8) (s : Tracked Task Point State) :
    Prop where
  delivered : setup.Delivered source s
  placements : ∀ p ∈ s.shared.disk.placements, (s.shared.disk.inode p.file).synced = source
  staged : setup.Protected s ∨ setup.Staged source s ∧ setup.Backed source s

/-- Careful steps that also take the length of the staging file for a resume offset only when
the file is synced, and any others as long as the destination is protected. -/
def Setup.SafelySynced (setup : Setup) (source : List UInt8) (s : Tracked Task Point State)
    (t : Task) (o : Op) (_ : Choice) : Prop :=
  setup.Protected s ∨ setup.Careful source s t o ∧ (o = .stagingLen →
    ∀ f, s.shared.disk.staging = some f →
      (s.shared.disk.inode f).synced = (s.shared.disk.inode f).data)

section

variable {setup : Setup} {source : List UInt8} {s : Tracked Task Point State} {t : Task}
  {stream : LaneStream} {o : Op} {c : Choice} {r : o.Reply} {s' : State}

/-- **Who rests on a byte counts on it.** -/
theorem Setup.RestsOn.countsOn (hwritten : setup.RecordsWritten s) {p : Nat}
    (h : setup.RestsOn s p) : setup.CountsOn s p := by
  cases h with
  | recorded h hp => exact .recorded h hp
  | loaded hstream h hp => exact .loaded hstream h hp
  | live hstream h hle hlt => exact .live hstream h hle hlt
  | flushed hstream h hle hlt =>
    cases h with
    | synced h hfine => exact .reached hstream (.written h hfine) hle hlt
    | durable h hfine =>
      exact .reached hstream (.written h hfine) hle
        (Nat.lt_of_lt_of_le hlt (hwritten _ _ _ _ _ _ _ hstream h))
    | flushed h => exact .reached hstream (.flushed h) hle hlt
    | joined hsingle h hw => exact .reached hstream (.joined hsingle h hw) hle hlt
    | received hsingle h => exact .reached hstream (.received hsingle h) hle hlt
  | whole hstream h => exact .whole hstream h

/-! ## Who rests on what after a step -/

/-- What a task is about to store records only what somebody rests on already: a writer stores
a checkpoint only when it has synced what it has written. -/
theorem restsOn_of_persist (hhonest : setup.Honest source) (hbase : Baseline setup s)
    (h : setup.Delivered source s) (hstaged : setup.Staged source s)
    (hstream : setup.streams t.stream = some stream) {next : TransferCheckpoint}
    (henabled : Enabled setup t (s.point t) (.persistCheckpoint next)) {p : Nat}
    (hp : next.Records p) : setup.RestsOn s p := by
  generalize hpt : s.point t = pt at henabled
  have hloaded : ∀ {found}, pt.loaded = .found found → (s.point t).loaded = .found found := by
    rw [hpt]
    exact id
  cases henabled with
  | persistFresh => exact absurd hp TransferCheckpoint.not_records_newCheckpoint
  | persistRounded _ _ _ hround =>
    have hfound := hloaded rfl
    obtain ⟨lanes, -, hwf⟩ := h.stored.loaded _ _ hfound
    rw [(hwf.roundLane_eq hround).1] at hp
    exact .loaded hstream hfound hp
  | persistDiscarded _ hdiscards =>
    rw [hhonest.disk] at hdiscards
    cases hdiscards
  | @persistWriting i w _ args _ found _ _ hadvance =>
    have hfound := hloaded rfl
    obtain ⟨lanes, -, hwf⟩ := h.stored.loaded _ _ hfound
    rcases hwf.records_advanceLane hadvance hp with hbefore | ⟨hle, hlt⟩
    · exact .loaded hstream hfound hbefore
    · have hphase := congrArg Point.phase hpt
      obtain ⟨-, ⟨admission, -, hargs⟩, -⟩ := running_of_writing hbase hstream hphase
      have hlane : args.laneIndex = stream.request.laneIndex := by rw [hargs]
      obtain ⟨hlayout, hfine⟩ := hstaged.layout i stream found hstream hfound
      rw [hwf.totalLanes] at hlayout
      rw [hlane, hlayout, ← (hhonest.streams i stream hstream).range.2.2.1] at hle
      exact .flushed hstream (.synced hphase hfine) hle hlt

theorem restsOn_of_recorded (hhonest : setup.Honest source) (hbase : Baseline setup s)
    (h : setup.Delivered source s) (hstaged : setup.Staged source s)
    (hstream : setup.streams t.stream = some stream)
    (henabled : Enabled setup t (s.point t) o) (hexec : exec t o c s.shared = some (r, s'))
    {found : TransferCheckpoint} (hfound : s'.disk.checkpoint = some found) {p : Nat}
    (hp : found.Records p) : setup.RestsOn s p := by
  rcases versions_of_exec hexec with heq | ⟨next, rfl, heq⟩ | ⟨-, hnil⟩
  · rw [Disk.checkpoint, heq] at hfound
    exact .recorded hfound hp
  · rw [Disk.checkpoint, heq, List.getLast?_concat] at hfound
    cases hfound
    exact restsOn_of_persist hhonest hbase h hstaged hstream henabled hp
  · rw [Disk.checkpoint, hnil] at hfound
    cases hfound

theorem restsOn_of_loaded (hhonest : setup.Honest source) (hbase : Baseline setup s)
    (h : setup.Delivered source s) (hstaged : setup.Staged source s)
    (hstream : setup.streams t.stream = some stream)
    (henabled : Enabled setup t (s.point t) o) (hexec : exec t o c s.shared = some (r, s'))
    {found : TransferCheckpoint}
    (hfound : (advance setup stream (s.point t) o r).loaded = .found found) {p : Nat}
    (hp : found.Records p) : setup.RestsOn s p := by
  rcases loaded_of_advance hexec hfound with hbefore | ⟨-, hread⟩ | rfl
  · exact .loaded hstream hbefore hp
  · exact .recorded hread hp
  · exact restsOn_of_persist hhonest hbase h hstaged hstream henabled hp

/-- A live stream rests on what lies before its resume offset. -/
theorem restsOn_of_live (h : setup.Delivered source s)
    (hstream : setup.streams t.stream = some stream)
    (henabled : Enabled setup t (s.point t) o) (hexec : exec t o c s.shared = some (r, s'))
    {i resume : Nat} {stream' : LaneStream} (hstream' : setup.streams i = some stream')
    (hlive : setup.LiveAt (moved s t (advance setup stream (s.point t) o r) s') i resume) {p : Nat}
    (hle : stream'.request.rangeStart ≤ p) (hlt : p < resume) :
    setup.RestsOn s p ∨ o = .stagingLen ∧
      ∃ f, s.shared.disk.staging = some f ∧ p < (s.shared.disk.inode f).data.length := by
  rcases liveAt_step hstream henabled hexec hlive with hbefore | ⟨rfl, b, hb, hcase⟩
  · exact .inl (.live hstream' hbefore hle hlt)
  · obtain rfl := Option.some.inj (hstream'.symm.trans hstream)
    rcases hcase with ⟨found, next, hfound, -, hfits, hround⟩ | ⟨-, -, ho, hlen⟩
    · exact .inl (.loaded hstream hfound
        ((resume_of_fits (h.stored.loaded _ _ hfound) hfits hround).2 p hle hlt))
    · refine .inr ⟨ho, ?_⟩
      rw [hlen] at hlt
      cases hstaging : s.shared.disk.staging with
      | none =>
        rw [hstaging] at hlt
        exact absurd hlt (Nat.not_lt_zero p)
      | some f =>
        rw [hstaging] at hlt
        exact ⟨f, rfl, hlt⟩

/-- What a writer has synced after a step that does not sync, it had synced before. -/
theorem restsOn_of_writing (hhonest : setup.Honest source)
    (hstream : setup.streams t.stream = some stream)
    (henabled : Enabled setup t (s.point t) o) (hexec : exec t o c s.shared = some (r, s'))
    (hsync : ¬ Syncs o r) {i : Nat} {stream' : LaneStream}
    (hstream' : setup.streams i = some stream') {args : WriterArgs} {n d : Nat}
    {rest : List (List UInt8)} {synced : Bool}
    (hphase : ((moved s t (advance setup stream (s.point t) o r) s').point (.writer i)).phase =
      .writing args n rest d synced) (hfine' : s'.writeFailed i = false) {p : Nat}
    (hle : stream'.request.rangeStart ≤ p)
    (hlt : p < d ∨ synced = true ∧ p < args.resumeOffset + n) : setup.RestsOn s p := by
  have hfine := fine_of_exec hexec hfine'
  rcases henabled.moves_moved hstream r s' (.writer i) with hsame | ⟨rfl, hmoves⟩
  · have hbefore := hsame.symm.trans hphase
    rcases hlt with hlt | ⟨rfl, hlt⟩
    · exact .flushed hstream' (.durable hbefore hfine) hle hlt
    · exact .flushed hstream' (.synced hbefore hfine) hle hlt
  · rw [hphase] at hmoves
    generalize hpt : s.point (.writer i) = pt at hmoves
    have hbefore := congrArg Point.phase hpt
    cases hmoves with
    | writing =>
      have hw : s.shared.writers i = .running args := (awaitWriter_of_exec hexec).1
      rcases hlt with hlt | ⟨hfalse, -⟩
      · exact .live hstream' ⟨hhonest.disk, .inr ⟨args, hw, rfl⟩⟩ hle hlt
      · cases hfalse
    | wrote =>
      rcases hlt with hlt | ⟨hfalse, -⟩
      · exact .flushed hstream' (.durable hbefore hfine) hle hlt
      · cases hfalse
    | synced => exact absurd .made hsync
    | recorded =>
      -- what is recorded now was synced before
      rcases hlt with hlt | ⟨-, hlt⟩
      · exact .flushed hstream' (.synced hbefore hfine) hle hlt
      · exact .flushed hstream' (.synced hbefore hfine) hle hlt
    | stored =>
      rcases hlt with hlt | ⟨-, hlt⟩
      · exact .flushed hstream' (.synced hbefore hfine) hle hlt
      · exact .flushed hstream' (.synced hbefore hfine) hle hlt

/-- A writer flushes its file only when it has recorded all that it has written, and finds then
whether a write has failed. -/
theorem restsOn_of_flushed (hstream : setup.streams t.stream = some stream)
    (henabled : Enabled setup t (s.point t) o) (hexec : exec t o c s.shared = some (r, s'))
    {i : Nat} {stream' : LaneStream} (hstream' : setup.streams i = some stream')
    {args : WriterArgs} {n : Nat}
    (hphase : ((moved s t (advance setup stream (s.point t) o r) s').point (.writer i)).phase =
      .flushed args n) {p : Nat} (hle : stream'.request.rangeStart ≤ p)
    (hlt : p < args.resumeOffset + n) : setup.RestsOn s p := by
  rcases henabled.moves_moved hstream r s' (.writer i) with hsame | ⟨rfl, hmoves⟩
  · exact .flushed hstream' (.flushed (hsame.symm.trans hphase)) hle hlt
  · rw [hphase] at hmoves
    generalize hpt : s.point (.writer i) = pt at hmoves
    have hbefore := congrArg Point.phase hpt
    cases hmoves with
    | flushed => exact .flushed hstream' (.durable hbefore (flush_of_exec hexec).1) hle hlt

/-- The writer of a single lane ends well only when it has flushed its file. -/
theorem restsOn_of_joined (hbase : Baseline setup s)
    (hstream : setup.streams t.stream = some stream)
    (henabled : Enabled setup t (s.point t) o) (hexec : exec t o c s.shared = some (r, s'))
    {i : Nat} {stream' : LaneStream} (hstream' : setup.streams i = some stream')
    (hsingle : isStriped stream'.request = false) {resume n : Nat}
    (hphase : ((moved s t (advance setup stream (s.point t) o r) s').point (.handler i)).phase =
      .draining resume) (hw : s'.writers i = .finished (.ok n)) {p : Nat}
    (hle : stream'.request.rangeStart ≤ p) (hlt : p < resume + n) : setup.RestsOn s p := by
  rcases finished_of_exec hexec hw with hbefore | ⟨rfl, rfl⟩
  · rcases henabled.moves_moved hstream r s' (.handler i) with hsame | ⟨rfl, hmoves⟩
    · exact .flushed hstream' (.joined hsingle (hsame.symm.trans hphase) hbefore) hle hlt
    · rw [hphase] at hmoves
      generalize s.point (.handler i) = pt at hmoves
      cases hmoves with
      | draining =>
        -- the writer has only just been spawned
        cases hexec
        simp [State.setWriter, Task.stream] at hw
  · cases t with
    | handler i =>
      generalize s.point (.handler i) = pt at henabled
      cases henabled
    | writer i =>
      rw [moved_point_of_ne (by simp)] at hphase
      generalize hpt : s.point (.writer i) = pt at henabled
      have hbefore := congrArg Point.phase hpt
      cases henabled with
      | finishOk =>
        obtain ⟨hrunning, -, -⟩ := running_of_flushed hbase hstream' hbefore
        have hresume :=
          ((hbase.writers i stream' hstream').running _ hrunning).2.1 resume hphase
        rw [← hresume] at hlt
        exact .flushed hstream' (.flushed hbefore) hle hlt

theorem restsOn_of_received (hstream : setup.streams t.stream = some stream)
    (henabled : Enabled setup t (s.point t) o) (hexec : exec t o c s.shared = some (r, s'))
    {i : Nat} {stream' : LaneStream} (hstream' : setup.streams i = some stream')
    (hsingle : isStriped stream'.request = false) {resume n : Nat}
    (hphase : ((moved s t (advance setup stream (s.point t) o r) s').point (.handler i)).phase =
      .received resume n) {p : Nat} (hle : stream'.request.rangeStart ≤ p)
    (hlt : p < resume + n) : setup.RestsOn s p := by
  rcases henabled.moves_moved hstream r s' (.handler i) with hsame | ⟨rfl, hmoves⟩
  · exact .flushed hstream' (.received hsingle (hsame.symm.trans hphase)) hle hlt
  · rw [hphase] at hmoves
    generalize hpt : s.point (.handler i) = pt at hmoves
    have hbefore := congrArg Point.phase hpt
    cases hmoves with
    | received =>
      have hw : s.shared.writers i = .finished (.ok n) := (joinWriter_of_exec hexec).1
      exact .flushed hstream' (.joined hsingle hbefore hw) hle hlt

/-- Who is going to deliver the staging file rests on a complete checkpoint, or on what its
writer has told. -/
theorem restsOn_of_whole (hhonest : setup.Honest source) (h : setup.Delivered source s)
    (hstream : setup.streams t.stream = some stream)
    (henabled : Enabled setup t (s.point t) o) (hexec : exec t o c s.shared = some (r, s'))
    (hwhole : (advance setup stream (s.point t) o r).phase.Whole) {p : Nat} (hp : p < setup.size) :
    setup.RestsOn s p := by
  rcases henabled.moves hstream r with hsame | hmoves
  · rw [hsame] at hwhole
    exact .whole hstream hwhole
  · generalize (advance setup stream (s.point t) o r).phase = ph at hmoves hwhole
    generalize hpt : s.point t = pt at hmoves
    have hbefore := congrArg Point.phase hpt
    have hstill : pt.phase.Whole → setup.RestsOn s p := by
      intro hpt'
      rw [← hpt] at hpt'
      exact .whole hstream hpt'
    cases hmoves with
    | ready hc =>
      have hread := (readCheckpoint_of_exec hexec).1
      obtain ⟨lanes, hpos, hwf⟩ := h.stored.versions _ (List.mem_of_getLast? hread)
      exact .recorded hread (hwf.records_of_complete hpos hc hp)
    | @readySingle i _ ph hstriped hph =>
      cases ph with
      | received resume n =>
        obtain ⟨hone, hzero, hstart, hend⟩ := (hhonest.streams i stream hstream).single hstriped
        have hall := hph.2.add_eq
        rw [hend] at hall
        exact .flushed hstream (.received hstriped hbefore) (by omega) (by omega)
      | accepted resume =>
        have hdiscards := hph.1
        rw [hhonest.disk] at hdiscards
        cases hdiscards
      | _ => exact hph.elim
    | checking => exact hstill trivial
    | passed => exact hstill trivial
    | vacant => exact hstill trivial
    | clearing => exact hstill trivial
    | cleared => exact hstill trivial
    | _ => exact hwhole.elim

/-- **Who rests on a byte after a step that does not sync** did so before, or has looked at the
length of the staging file. -/
theorem restsOn_step (hhonest : setup.Honest source) (hbase : Baseline setup s)
    (h : setup.Delivered source s) (hstaged : setup.Staged source s)
    (hstream : setup.streams t.stream = some stream)
    (henabled : Enabled setup t (s.point t) o) (hexec : exec t o c s.shared = some (r, s'))
    (hsync : ¬ Syncs o r) {p : Nat} (hp : p < setup.size)
    (hrests : setup.RestsOn (moved s t (advance setup stream (s.point t) o r) s') p) :
    setup.RestsOn s p ∨ o = .stagingLen ∧
      ∃ f, s.shared.disk.staging = some f ∧ p < (s.shared.disk.inode f).data.length := by
  cases hrests with
  | recorded hfound hrecords =>
    exact .inl
      (restsOn_of_recorded hhonest hbase h hstaged hstream henabled hexec hfound hrecords)
  | @loaded u stream' found hstream' hfound hrecords =>
    by_cases hu : u = t
    · subst hu
      rw [moved_point_self] at hfound
      exact .inl (restsOn_of_loaded hhonest hbase h hstaged hstream henabled hexec hfound hrecords)
    · rw [moved_point_of_ne hu] at hfound
      exact .inl (.loaded hstream' hfound hrecords)
  | live hstream' hlive hle hlt =>
    exact restsOn_of_live h hstream henabled hexec hstream' hlive hle hlt
  | flushed hstream' hflushed hle hlt =>
    left
    cases hflushed with
    | synced hphase hfine =>
      exact restsOn_of_writing hhonest hstream henabled hexec hsync hstream' hphase hfine hle
        (.inr ⟨rfl, hlt⟩)
    | durable hphase hfine =>
      exact restsOn_of_writing hhonest hstream henabled hexec hsync hstream' hphase hfine hle
        (.inl hlt)
    | flushed hphase => exact restsOn_of_flushed hstream henabled hexec hstream' hphase hle hlt
    | joined hsingle hphase hw =>
      exact restsOn_of_joined hbase hstream henabled hexec hstream' hsingle hphase hw hle hlt
    | received hsingle hphase =>
      exact restsOn_of_received hstream henabled hexec hstream' hsingle hphase hle hlt
  | @whole u stream' hstream' hwhole =>
    left
    by_cases hu : u = t
    · subst hu
      rw [moved_point_self] at hwhole
      exact restsOn_of_whole hhonest h hstream henabled hexec hwhole hp
    · rw [moved_point_of_ne hu] at hwhole
      exact .whole hstream' hwhole

/-! ## The steps -/

/-- A writer records what it has written. -/
theorem recordsWritten_step (h : setup.RecordsWritten s)
    (hstream : setup.streams t.stream = some stream) (henabled : Enabled setup t (s.point t) o) :
    setup.RecordsWritten (moved s t (advance setup stream (s.point t) o r) s') := by
  intro i stream' args n rest d synced hstream' hphase
  rcases henabled.moves_moved hstream r s' (.writer i) with hsame | ⟨rfl, hmoves⟩
  · exact h i stream' args n rest d synced hstream' (hsame.symm.trans hphase)
  · rw [hphase] at hmoves
    generalize hpt : s.point (.writer i) = pt at hmoves
    have hbefore := congrArg Point.phase hpt
    cases hmoves with
    | writing => exact Nat.le_refl _
    | wrote =>
      have hle := h i stream' _ _ _ _ _ hstream' hbefore
      omega
    | synced => exact h i stream' _ _ _ _ _ hstream' hbefore
    | recorded => exact Nat.le_refl _
    | stored => exact Nat.le_refl _

/-- A writer has the file open that it syncs. -/
theorem hasOpen_of_syncData (hbase : Baseline setup s)
    (hstream : setup.streams t.stream = some stream) {g : Nat}
    (henabled : Enabled setup t (s.point t) (.syncData g)) : HasOpen s t.stream g := by
  obtain ⟨i, args, w, rest, d, synced, rfl, hpt, rfl⟩ := of_syncData henabled
  obtain ⟨hw, -, -⟩ := running_of_writing hbase hstream (congrArg Point.phase hpt)
  exact .inr ⟨args, hw, rfl⟩

/-- **Steps that trust only a synced length keep what is rested on backed.** -/
theorem backed_step (hhonest : setup.Honest source) (hbase : Baseline setup s)
    (h : setup.Delivered source s) (hstaged : setup.Staged source s)
    (hbacked : setup.Backed source s) (hcareful : setup.Careful source s t o)
    (hsynced : o = .stagingLen → ∀ f, s.shared.disk.staging = some f →
      (s.shared.disk.inode f).synced = (s.shared.disk.inode f).data)
    (hstream : setup.streams t.stream = some stream)
    (henabled : Enabled setup t (s.point t) o) (hexec : exec t o c s.shared = some (r, s')) :
    setup.Backed source (moved s t (advance setup stream (s.point t) o r) s') := by
  have hwritten : setup.RecordsWritten (moved s t (advance setup stream (s.point t) o r) s') :=
    recordsWritten_step hbacked.written hstream henabled
  by_cases hsync : Syncs o r
  · -- what is synced now is what the file holds, and that is right
    have hstaged' := staged_step hhonest hbase h hstaged hcareful hstream henabled hexec
    cases hsync with
    | @made g =>
      have hall : ∀ f, s'.disk.staging = some f →
          (s'.disk.inode f).synced = (s'.disk.inode f).data := by
        intro f hf
        rcases syncData_of_exec hexec with ⟨hnone, -⟩ | ⟨-, rfl⟩
        · cases hnone
        · rcases hstaged.opened t.stream stream g hstream
            (hasOpen_of_syncData hbase hstream henabled) with hnone | hsome
          · rw [show s.shared.disk.staging = some f from hf] at hnone
            cases hnone
          · obtain rfl := Option.some.inj (hsome.symm.trans hf)
            simp only [Disk.syncData_inode, if_true]
      refine ⟨hwritten, fun f hf => ?_, fun f hf p hp hrests => ?_⟩
      · rw [moved_shared, hall f hf]
        exact hstaged'.short f hf
      · rw [moved_shared, hall f hf]
        exact hstaged'.right f hf p hp (hrests.countsOn hwritten)
  · have hsame : ∀ f, s.shared.disk.staging = some f →
        (s'.disk.inode f).synced = (s.shared.disk.inode f).synced := by
      intro f hf
      refine synced_of_not_syncs hexec hsync fun hnone => ?_
      rw [hf] at hnone
      cases hnone
    refine ⟨hwritten, fun f hf => ?_, fun f hf p hp hrests => ?_⟩
    · rcases staging_of_exec hexec hf with hbefore | ⟨rfl, hnone, -⟩
      · rw [moved_shared, hsame f hbefore]
        exact hbacked.short f hbefore
      · rw [moved_shared, made_empty hexec hnone hf]
        exact Nat.zero_le _
    · have hcases := restsOn_step hhonest hbase h hstaged hstream henabled hexec hsync hp hrests
      rcases staging_of_exec hexec hf with hbefore | ⟨ho, hnone, -⟩
      · rw [moved_shared, hsame f hbefore]
        rcases hcases with hrested | ⟨ho, g, hg, hlt⟩
        · exact hbacked.right f hbefore p hp hrested
        · obtain rfl := Option.some.inj (hg.symm.trans hbefore)
          rw [hsynced ho g hg]
          exact Bytes.covers_of_isPrefix (hcareful.trusts ho g hg) p (Nat.zero_le p) hlt
      · rcases hcases with hrested | ⟨rfl, -⟩
        · exact absurd (hrested.countsOn hbacked.written) ((hcareful.makes ho hnone).counts p hp)
        · cases ho

/-- A file that has been delivered and synced stays so. -/
theorem synced_of_placed (hexec : exec t o c s.shared = some (r, s')) {f : Nat}
    (hlt : f < s.shared.disk.nextInode) (hdata : (s.shared.disk.inode f).data = source)
    (hsynced : (s.shared.disk.inode f).synced = source) :
    (s'.disk.inode f).synced = source := by
  by_cases hsync : Syncs o r
  · cases hsync with
    | @made g =>
      rcases syncData_of_exec hexec with ⟨hnone, -⟩ | ⟨-, rfl⟩
      · cases hnone
      · simp only [Disk.syncData_inode]
        split
        · rename_i hfg
          rw [← hfg]
          exact hdata
        · exact hsynced
  · rw [synced_of_not_syncs hexec hsync fun _ => hlt.ne]
    exact hsynced

/-- **What is going to be delivered has been synced.** -/
theorem synced_of_whole (hhonest : setup.Honest source) (hbacked : setup.Backed source s)
    (hstream : setup.streams t.stream = some stream) (hwhole : (s.point t).phase.Whole) {f : Nat}
    (hf : s.shared.disk.staging = some f) : (s.shared.disk.inode f).synced = source := by
  refine Bytes.Covers.eq (fun p _ hp => ?_) (hbacked.short f hf)
  rw [← hhonest.size] at hp
  exact hbacked.right f hf p hp (.whole hstream hwhole)

/-- What has been delivered is on disk. -/
theorem placements_synced_step (hhonest : setup.Honest source) (h : setup.Durable source s)
    (hstream : setup.streams t.stream = some stream)
    (henabled : Enabled setup t (s.point t) o) (hexec : exec t o c s.shared = some (r, s')) :
    ∀ p ∈ s'.disk.placements, (s'.disk.inode p.file).synced = source := by
  have hkept : ∀ p ∈ s.shared.disk.placements, (s'.disk.inode p.file).synced = source := by
    intro p hp
    exact synced_of_placed hexec (h.delivered.sound.placed_lt p hp) (h.delivered.placements p hp)
      (h.placements p hp)
  rcases names_of_exec hexec with ⟨-, -, hp, -⟩ | ⟨-, -, -, -, -, hp⟩ | ⟨-, -, -, -, hp⟩ |
    ⟨f, rfl, hf, -, -, -, hp⟩
  · rw [hp]
    exact hkept
  · rw [hp]
    exact hkept
  · rw [hp]
    exact hkept
  · rw [hp]
    intro p hmem
    rcases List.mem_append.1 hmem with hmem | hmem
    · exact hkept p hmem
    · obtain rfl := List.mem_singleton.1 hmem
      rcases h.staged with hprotected | ⟨hstaged, hbacked⟩
      · exact absurd (atRisk_of_touches henabled (.inr rfl)) (hprotected.checked t)
      · have hwhole : (s.point t).phase.Whole := by
          generalize s.point t = pt at henabled
          cases henabled
          trivial
        exact synced_of_placed hexec (h.delivered.sound.staging_lt f hf)
          (source_of_whole hhonest hstaged hstream hwhole hf)
          (synced_of_whole hhonest hbacked hstream hwhole hf)

/-- **Steps that trust only synced lengths keep what is delivered and recorded on disk.** -/
theorem Setup.Durable.step (h : setup.Durable source s) (hhonest : setup.Honest source)
    (hbase : Baseline setup s) (hallowed : setup.SafelySynced source s t o c)
    (hstream : setup.streams t.stream = some stream)
    (henabled : Enabled setup t (s.point t) o) (hexec : exec t o c s.shared = some (r, s')) :
    setup.Durable source (moved s t (advance setup stream (s.point t) o r) s') := by
  have hplacements := placements_synced_step hhonest h hstream henabled hexec
  rcases h.staged with hprotected | ⟨hstaged, hbacked⟩
  · exact ⟨delivered_step hhonest hbase h.delivered (.inl hprotected) hstream henabled hexec,
      hplacements, .inl (protected_step hprotected hstream henabled hexec)⟩
  · rcases hallowed with hprotected | ⟨hcareful, hsynced⟩
    · exact ⟨delivered_step hhonest hbase h.delivered (.inl hprotected) hstream henabled hexec,
        hplacements, .inl (protected_step hprotected hstream henabled hexec)⟩
    · exact ⟨delivered_step hhonest hbase h.delivered (.inr ⟨hstaged, hcareful⟩) hstream henabled
          hexec, hplacements,
        .inr ⟨staged_step hhonest hbase h.delivered hstaged hcareful hstream henabled hexec,
          backed_step hhonest hbase h.delivered hstaged hbacked hcareful hsynced hstream henabled
            hexec⟩⟩

end

/-! ## What servers find -/

section

variable {transfer : TransferSummary} {source : List UInt8} {d left : Disk}

theorem Disk.LosesPower.checkpoint (h : d.LosesPower left) : left.checkpoint = d.checkpoint := by
  rw [Disk.checkpoint, Disk.checkpoint, h.versions]

theorem Disk.LosesPower.sound (h : d.LosesPower left) (hsound : d.Sound) : left.Sound := by
  obtain ⟨h1, h2, h3, h4, h5⟩ := hsound
  refine ⟨?_, ?_, ?_, ?_, ?_⟩
  · rw [h.staging, h.nextInode]
    exact h1
  · rw [h.final, h.nextInode]
    exact h2
  · rw [h.staging, h.final]
    exact h3
  · rw [h.placements, h.nextInode]
    exact h4
  · rw [h.placements, h.staging]
    exact h5

/-- What is left of a delivered file is the source. -/
theorem Disk.LosesPower.placed (h : d.LosesPower left)
    (hdata : ∀ p ∈ d.placements, (d.inode p.file).data = source)
    (hsynced : ∀ p ∈ d.placements, (d.inode p.file).synced = source) :
    ∀ p ∈ left.placements, (left.inode p.file).data = source := by
  rw [h.placements]
  intro p hp
  exact (h.remains p.file).eq (hsynced p hp) (hdata p hp)

end

/-! ## Runs -/

section

variable {ctx : Context} {transfer stored : TransferSummary} {streams : Nat → Option LaneStream}
  {source : List UInt8} {disk : Disk}
  {cfg : Config Task Op Op.Reply (Tracked Task Point State) (Except String Unit)}

end

namespace Scenario

/-- The content of the staging file. -/
def staged (d : Disk) : Option (List UInt8) := d.staging.map fun f => (d.inode f).data

end Scenario

open Scenario in
/-- What trusting a length that is not synced comes to: the writer of a single lane has written
the whole file and fails to sync it, and the next stream, which finds a file of that length, has
nothing to write or to sync.  The transfer is completed, and **a power loss leaves an empty
file**. -/
theorem completed_unsynced :
    ∃ cfg left, Config.Reaches machine (fun _ _ _ _ => True)
        (server (transfer [7, 8] true .queued) noFiles [lane [7, 8] 1 0, lane [7, 8] 1 0]) cfg ∧
      cfg.shared.transfer.status = .completed ∧ cfg.shared.disk.finalContent = some [7, 8] ∧
      cfg.shared.disk.LosesPower left ∧ left.finalContent = some [] := by
  have hrun : ((server (transfer [7, 8] true .queued) noFiles
      [lane [7, 8] 1 0, lane [7, 8] 1 0]).runIf machine (fun _ _ _ _ => true)
      (turns [(.handler 0, 10), (.writer 0, 2)] ++ [(.writer 0, .ioError)] ++
        turns [(.writer 0, 1), (.handler 0, 8), (.handler 1, 10), (.writer 1, 3),
          (.handler 1, 8)])).any
      (fun cfg => decide (cfg.shared.transfer.status = .completed ∧
        cfg.shared.disk.finalContent = some [7, 8] ∧
        cfg.shared.disk.reverted.finalContent = some [])) = true := by
    decide +kernel
  obtain ⟨cfg, hto, hcfg⟩ := Config.reaches_of_runIf_any (fun _ _ _ _ _ => trivial) hrun
  obtain ⟨hstatus, hfinal, hlost⟩ := of_decide_eq_true hcfg
  exact ⟨cfg, _, hto, hstatus, hfinal, Disk.losesPower_reverted _, hlost⟩

end Metra.Server
