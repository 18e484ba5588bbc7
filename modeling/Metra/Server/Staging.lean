import Metra.Server.Destination
import Metra.Server.Honest
import Metra.Server.Overlap

/-!
# The staging file

What is received goes to the staging file, and what of it can be relied on is known from
three places: the checkpoint file, the length of the staging file itself, and the tasks
that have been told, or have written, up to which position it is there.  A session of
several lanes makes the file as long as the source at once.

* `Setup.CountsOn` — somebody relies on the byte at a position;
* `Setup.Careful` — the steps that leave everybody right: the length is trusted only where
  the file is a beginning of the source, and a file is made only when nobody counts on it;
* `Setup.Staged` — the invariant: what is counted on is there;
* `Setup.Protected` — the destination is there and must be kept, so nothing that happens to
  the staging file matters any more.
-/

namespace Metra.Server

open Interleave

/-! ## Who counts on what -/

/-- The phases in which a handler is going to deliver the staging file. -/
def Phase.Whole : Phase → Prop
  | .ready | .checking _ | .clearing | .vacant => True
  | _ => False

/-- The stream has an open staging file that it may write to. -/
def HasOpen (s : Tracked Task Point State) (i f : Nat) : Prop :=
  (∃ resume, (s.point (.handler i)).phase = .receiving resume f) ∨
    ∃ args, s.shared.writers i = .running args ∧ args.file = f

/-- A stream has written its lane up to a position, none of its writes having failed, and may
still record it, or has received the whole file up to there. -/
inductive Reached (s : Tracked Task Point State) (stream : LaneStream) (i : Nat) : Nat → Prop
  | written {args : WriterArgs} {n d : Nat} {rest : List (List UInt8)} {synced : Bool}
      (h : (s.point (.writer i)).phase = .writing args n rest d synced)
      (hfine : s.shared.writeFailed i = false) : Reached s stream i (args.resumeOffset + n)
  | flushed {args : WriterArgs} {n : Nat} (h : (s.point (.writer i)).phase = .flushed args n) :
      Reached s stream i (args.resumeOffset + n)
  | joined {resume n : Nat} (hsingle : isStriped stream.request = false)
      (h : (s.point (.handler i)).phase = .draining resume)
      (hw : s.shared.writers i = .finished (.ok n)) : Reached s stream i (resume + n)
  | received {resume n : Nat} (hsingle : isStriped stream.request = false)
      (h : (s.point (.handler i)).phase = .received resume n) :
      Reached s stream i (resume + n)

/-- Somebody counts on the byte of the staging file at a position. -/
inductive Setup.CountsOn (setup : Setup) (s : Tracked Task Point State) (p : Nat) : Prop
  | recorded {c : TransferCheckpoint} (h : s.shared.disk.checkpoint = some c)
      (hp : c.Records p)
  | loaded {u : Task} {stream : LaneStream} {c : TransferCheckpoint}
      (hstream : setup.streams u.stream = some stream) (h : (s.point u).loaded = .found c)
      (hp : c.Records p)
  | live {i resume : Nat} {stream : LaneStream} (hstream : setup.streams i = some stream)
      (h : setup.LiveAt s i resume) (hle : stream.request.rangeStart ≤ p) (hlt : p < resume)
  | reached {i n : Nat} {stream : LaneStream} (hstream : setup.streams i = some stream)
      (h : Reached s stream i n) (hle : stream.request.rangeStart ≤ p) (hlt : p < n)
  | whole {u : Task} {stream : LaneStream} (hstream : setup.streams u.stream = some stream)
      (h : (s.point u).phase.Whole)

/-! ## The condition -/

/-- Nobody counts on the staging file or has it open. -/
structure Setup.Unused (setup : Setup) (s : Tracked Task Point State) : Prop where
  counts : ∀ p < setup.size, ¬ setup.CountsOn s p
  opened : ∀ i stream f, setup.streams i = some stream → ¬ HasOpen s i f

/-- The steps that leave everybody who counts on the staging file right: its length is
taken for a resume offset only where it is a beginning of the source; it is made only when
it is unused; what has been delivered is not removed before the transfer is completed; and
a writer that is to record its offset finds the checkpoint of as many lanes as its own stream
has, and has had no write fail. -/
structure Setup.Careful (setup : Setup) (source : List UInt8) (s : Tracked Task Point State)
    (t : Task) (o : Op) : Prop where
  trusts : o = .stagingLen → ∀ f, s.shared.disk.staging = some f →
    (s.shared.disk.inode f).data <+: source
  makes : o = .openStaging → s.shared.disk.staging = none → setup.Unused s
  removes : o = .removeFinal → ∀ u, (s.point u).phase ≠ .placed
  agrees : o = .readCheckpoint → ∀ i stream found, t = .writer i →
    setup.streams i = some stream → s.shared.disk.checkpoint = some found →
    found.totalLanes = requestedLanes stream.request
  vouches : o = .readCheckpoint → ∀ i, t = .writer i → s.shared.disk.checkpoint ≠ none →
    s.shared.writeFailed i = false

/-- The destination exists and must be kept, and nobody is past the check that it does
not. -/
structure Setup.Protected (setup : Setup) (s : Tracked Task Point State) : Prop where
  keeps : setup.keepsExisting = true
  present : s.shared.disk.final ≠ none
  checked : ∀ u, ¬ (s.point u).phase.AtRisk

/-- Careful steps, and any others as long as the destination is protected. -/
def Setup.Safe (setup : Setup) (source : List UInt8) (s : Tracked Task Point State) (t : Task)
    (o : Op) (_ : Choice) : Prop :=
  setup.Protected s ∨ setup.Careful source s t o

/-! ## The invariants -/

/-- Who counts on the staging file is right. -/
structure Setup.Staged (setup : Setup) (source : List UInt8) (s : Tracked Task Point State) :
    Prop where
  opened : ∀ i stream f, setup.streams i = some stream → HasOpen s i f →
    s.shared.disk.staging = none ∨ s.shared.disk.staging = some f
  short : ∀ f, s.shared.disk.staging = some f →
    (s.shared.disk.inode f).data.length ≤ source.length
  right : ∀ f, s.shared.disk.staging = some f → ∀ p < setup.size, setup.CountsOn s p →
    (s.shared.disk.inode f).data[p]? = source[p]?
  layout : ∀ i stream found, setup.streams i = some stream →
    (s.point (.writer i)).loaded = .found found →
    found.totalLanes = requestedLanes stream.request ∧ s.shared.writeFailed i = false

/-- The files that have been delivered hold the source, and who has delivered one finds it
at the final path. -/
structure Setup.Delivered (setup : Setup) (source : List UInt8) (s : Tracked Task Point State) :
    Prop where
  sound : s.shared.disk.Sound
  stored : Stored setup.Counts s
  resumes : ∀ i stream resume, setup.streams i = some stream → setup.LiveAt s i resume →
    resume ≤ requestedEnd stream.request
  placements : ∀ p ∈ s.shared.disk.placements, (s.shared.disk.inode p.file).data = source
  placed : ∀ u, (s.point u).phase = .placed →
    ∃ p ∈ s.shared.disk.placements, s.shared.disk.final = some p.file

/-- The staging file is right, or does not matter. -/
structure Setup.Intact (setup : Setup) (source : List UInt8) (s : Tracked Task Point State) :
    Prop where
  delivered : setup.Delivered source s
  staged : setup.Protected s ∨ setup.Staged source s

section

variable {setup : Setup} {source : List UInt8} {s : Tracked Task Point State} {t : Task}
  {stream : LaneStream} {o : Op} {c : Choice} {r : o.Reply} {s' : State} {pt : Point} {ph : Phase}

/-! ## What a step does to a file -/

/-- A lane that is found in the checkpoint gives a resume offset in its range, up to which the
checkpoint records it. -/
theorem resume_of_fits {found next : TransferCheckpoint} {offset : Nat}
    (hcounts : setup.Counts found) (hfits : setup.Fits stream found)
    (hround : found.roundLane stream.request.laneIndex = some (offset, next)) :
    offset ≤ requestedEnd stream.request ∧
      ∀ p, stream.request.rangeStart ≤ p → p < offset → found.Records p := by
  obtain ⟨lanes, -, hwf⟩ := hcounts
  obtain ⟨-, -, lane, hlane, hstart, hend⟩ := TransferCheckpoint.of_validateLayout hfits
  obtain ⟨-, lane', hlane', rfl⟩ := hwf.roundLane_eq hround
  obtain rfl := Option.some.inj (hlane.symm.trans hlane')
  rw [← hstart, ← hend]
  exact ⟨(hwf.offset_mem _ (List.mem_of_find?_eq_some hlane)).2,
    fun p hle hlt => TransferCheckpoint.records_of_lane? hlane hle hlt⟩

/-- A live stream resumes in its range. -/
theorem resumes_step (hhonest : setup.Honest source) (h : setup.Delivered source s)
    (hstream : setup.streams t.stream = some stream)
    (henabled : Enabled setup t (s.point t) o) (hexec : exec t o c s.shared = some (r, s')) :
    ∀ i stream' resume, setup.streams i = some stream' →
      setup.LiveAt (moved s t (advance setup stream (s.point t) o r) s') i resume →
      resume ≤ requestedEnd stream'.request := by
  intro i stream' resume hstream' hlive
  rcases liveAt_step hstream henabled hexec hlive with hbefore | ⟨rfl, b, hb, hcase⟩
  · exact h.resumes i stream' resume hstream' hbefore
  · obtain rfl := Option.some.inj (hstream'.symm.trans hstream)
    rcases hcase with ⟨found, next, hfound, -, hfits, hround⟩ | ⟨hstriped, hle, -⟩
    · exact (resume_of_fits (h.stored.loaded _ _ hfound) hfits hround).1
    · rw [((hhonest.streams i stream' hstream').single hstriped).2.2.2]
      exact hle

/-- An honest writer's next chunk, or a part of it, is what the source has at that place. -/
theorem chunk_of_writing (hhonest : setup.Honest source) (hbase : Baseline setup s)
    (h : setup.Delivered source s) {i : Nat} {args : WriterArgs} {n d : Nat}
    {chunk : List UInt8} {rest : List (List UInt8)} {synced : Bool}
    (hstream : setup.streams i = some stream)
    (hwriting : (s.point (.writer i)).phase = .writing args n (chunk :: rest) d synced) (k : Nat) :
    args.resumeOffset + n + chunk.length ≤ source.length ∧
      chunk.take k = Bytes.slice source (args.resumeOffset + n)
        (args.resumeOffset + n + min k chunk.length) := by
  obtain ⟨hw, hargs, front, hchunks, rfl⟩ := running_of_writing hbase hstream hwriting
  have hclient := hhonest.streams i stream hstream
  have hresume := h.resumes i stream args.resumeOffset hstream
    ⟨hhonest.disk, .inr ⟨args, hw, rfl⟩⟩
  obtain ⟨hend, hslice⟩ := hhonest.chunk hclient hargs hresume hchunks k
  have hle := hclient.rangeEnd_le
  rw [hhonest.size] at hle
  exact ⟨by omega, hslice⟩

/-- **A step of an honest stream does a file no harm**, but for making it. -/
theorem tracks_of_exec (hhonest : setup.Honest source) (hbase : Baseline setup s)
    (h : setup.Delivered source s) (hstream : setup.streams t.stream = some stream)
    (henabled : Enabled setup t (s.point t) o) (hexec : exec t o c s.shared = some (r, s'))
    {f : Nat} (hold : s.shared.disk.staging = none → f ≠ s.shared.disk.nextInode) :
    Bytes.Tracks source (s.shared.disk.inode f).data (s'.disk.inode f).data := by
  rcases inode_of_exec hexec f with heq | ⟨-, hnone, hf, -⟩ | ⟨n, rfl, heq⟩ |
    ⟨offset, buffer, k, rfl, heq⟩ | ⟨-, heq⟩
  · rw [heq]
    exact Bytes.tracks_self _ _
  · exact absurd hf (hold hnone)
  · rw [heq]
    have hn : n = source.length := by
      rw [← hhonest.size]
      revert henabled
      generalize s.point t = pt
      intro henabled
      cases henabled
      rfl
    rw [hn]
    exact Bytes.tracks_setLen _ _
  · rw [heq]
    cases t with
    | handler i =>
      revert henabled
      generalize s.point (.handler i) = pt
      intro henabled
      cases henabled
    | writer i =>
      have hwriting : ∃ args n rest d synced, (s.point (.writer i)).phase =
          .writing args n (buffer :: rest) d synced ∧ offset = args.resumeOffset + n := by
        revert henabled
        generalize s.point (.writer i) = pt
        intro henabled
        cases henabled with
        | write => exact ⟨_, _, _, _, _, rfl, rfl⟩
      obtain ⟨args, n, rest, d, synced, hphase, rfl⟩ := hwriting
      obtain ⟨hend, hslice⟩ := chunk_of_writing hhonest hbase h hstream hphase k
      rw [hslice]
      exact Bytes.tracks_writeAt _ (by omega)
  · rw [heq]
    exact Bytes.tracks_self _ _

/-! ## Who counts on what after a step -/

/-- What a task is about to store records only what somebody counts on already. -/
theorem countsOn_of_persist (hhonest : setup.Honest source) (hbase : Baseline setup s)
    (h : setup.Delivered source s) (hstaged : setup.Staged source s)
    (hstream : setup.streams t.stream = some stream) {next : TransferCheckpoint}
    (henabled : Enabled setup t (s.point t) (.persistCheckpoint next)) {p : Nat}
    (hp : next.Records p) : setup.CountsOn s p := by
  generalize hpt : s.point t = pt at henabled
  have hloaded : ∀ {found}, pt.loaded = .found found → (s.point t).loaded = .found found := by
    rw [hpt]
    exact id
  cases henabled with
  | persistFresh => exact absurd hp TransferCheckpoint.not_records_newCheckpoint
  | persistRounded _ _ _ hround =>
    have hfound := hloaded rfl
    obtain ⟨lanes, -, hwf⟩ := h.stored.loaded _ _ hfound
    rw [(hwf.roundLane_eq hround).1] at hp
    exact .loaded hstream hfound hp
  | persistDiscarded _ hdiscards =>
    rw [hhonest.disk] at hdiscards
    cases hdiscards
  | @persistWriting i w _ args _ found _ _ hadvance =>
    have hfound := hloaded rfl
    obtain ⟨lanes, -, hwf⟩ := h.stored.loaded _ _ hfound
    rcases hwf.records_advanceLane hadvance hp with hbefore | ⟨hle, hlt⟩
    · exact .loaded hstream hfound hbefore
    · have hphase := congrArg Point.phase hpt
      obtain ⟨-, ⟨admission, -, hargs⟩, -⟩ := running_of_writing hbase hstream hphase
      have hlane : args.laneIndex = stream.request.laneIndex := by rw [hargs]
      obtain ⟨hlayout, hfine⟩ := hstaged.layout i stream found hstream hfound
      rw [hwf.totalLanes] at hlayout
      rw [hlane, hlayout, ← (hhonest.streams i stream hstream).range.2.2.1] at hle
      exact .reached hstream (.written hphase hfine) hle hlt

theorem countsOn_of_recorded (hhonest : setup.Honest source) (hbase : Baseline setup s)
    (h : setup.Delivered source s) (hstaged : setup.Staged source s)
    (hstream : setup.streams t.stream = some stream)
    (henabled : Enabled setup t (s.point t) o) (hexec : exec t o c s.shared = some (r, s'))
    {found : TransferCheckpoint} (hfound : s'.disk.checkpoint = some found) {p : Nat}
    (hp : found.Records p) : setup.CountsOn s p := by
  rcases versions_of_exec hexec with heq | ⟨next, rfl, heq⟩ | ⟨-, hnil⟩
  · rw [Disk.checkpoint, heq] at hfound
    exact .recorded hfound hp
  · rw [Disk.checkpoint, heq, List.getLast?_concat] at hfound
    cases hfound
    exact countsOn_of_persist hhonest hbase h hstaged hstream henabled hp
  · rw [Disk.checkpoint, hnil] at hfound
    cases hfound

theorem countsOn_of_loaded (hhonest : setup.Honest source) (hbase : Baseline setup s)
    (h : setup.Delivered source s) (hstaged : setup.Staged source s)
    (hstream : setup.streams t.stream = some stream)
    (henabled : Enabled setup t (s.point t) o) (hexec : exec t o c s.shared = some (r, s'))
    {found : TransferCheckpoint}
    (hfound : (advance setup stream (s.point t) o r).loaded = .found found) {p : Nat}
    (hp : found.Records p) : setup.CountsOn s p := by
  rcases loaded_of_advance hexec hfound with hbefore | ⟨-, hread⟩ | rfl
  · exact .loaded hstream hbefore hp
  · exact .recorded hread hp
  · exact countsOn_of_persist hhonest hbase h hstaged hstream henabled hp

/-- A live stream counts on what lies before its resume offset, which it has from a
checkpoint or is the length of the staging file. -/
theorem countsOn_of_live (h : setup.Delivered source s)
    (hstream : setup.streams t.stream = some stream)
    (henabled : Enabled setup t (s.point t) o) (hexec : exec t o c s.shared = some (r, s'))
    {i resume : Nat} {stream' : LaneStream} (hstream' : setup.streams i = some stream')
    (hlive : setup.LiveAt (moved s t (advance setup stream (s.point t) o r) s') i resume) {p : Nat}
    (hle : stream'.request.rangeStart ≤ p) (hlt : p < resume) :
    setup.CountsOn s p ∨ o = .stagingLen ∧
      ∃ f, s.shared.disk.staging = some f ∧ p < (s.shared.disk.inode f).data.length := by
  rcases liveAt_step hstream henabled hexec hlive with hbefore | ⟨rfl, b, hb, hcase⟩
  · exact .inl (.live hstream' hbefore hle hlt)
  · obtain rfl := Option.some.inj (hstream'.symm.trans hstream)
    rcases hcase with ⟨found, next, hfound, -, hfits, hround⟩ | ⟨-, -, ho, hlen⟩
    · exact .inl (.loaded hstream hfound
        ((resume_of_fits (h.stored.loaded _ _ hfound) hfits hround).2 p hle hlt))
    · refine .inr ⟨ho, ?_⟩
      cases hstaging : s.shared.disk.staging with
      | none =>
        rw [hlen, hstaging] at hlt
        simp at hlt
      | some f =>
        rw [hlen, hstaging] at hlt
        exact ⟨f, rfl, hlt⟩

/-- A chunk that was written in full is there, when its write has not failed late. -/
theorem right_of_wrote (hhonest : setup.Honest source) (hbase : Baseline setup s)
    (h : setup.Delivered source s) {i : Nat} {args : WriterArgs} {n d : Nat}
    {chunk : List UInt8} {rest : List (List UInt8)} {synced : Bool}
    (hstream : setup.streams i = some stream)
    (hwriting : (s.point (.writer i)).phase = .writing args n (chunk :: rest) d synced)
    (hexec : exec (.writer i) (.writeAll args.file (args.resumeOffset + n) chunk) c s.shared =
      some (some (), s')) (hfine : s'.writeFailed i = false) {p : Nat}
    (hle : args.resumeOffset + n ≤ p) (hlt : p < args.resumeOffset + (n + chunk.length)) :
    (s'.disk.inode args.file).data[p]? = source[p]? := by
  obtain ⟨k, hs', hk, -⟩ := writeAll_of_exec hexec
  obtain rfl : k = chunk.length := hk rfl hfine
  obtain ⟨hend, hslice⟩ := chunk_of_writing hhonest hbase h hstream hwriting chunk.length
  rw [Nat.min_self] at hslice
  rw [hs']
  simp only [State.written, Disk.modify, Function.update_self]
  rw [hslice]
  exact Bytes.covers_writeAt_slice _ hend p hle (by omega)

/-- What a writer counts on after a step, it counted on before, or has just written. -/
theorem countsOn_of_written (hhonest : setup.Honest source) (hbase : Baseline setup s)
    (h : setup.Delivered source s) (hstream : setup.streams t.stream = some stream)
    (henabled : Enabled setup t (s.point t) o) (hexec : exec t o c s.shared = some (r, s'))
    {i : Nat} {stream' : LaneStream} (hstream' : setup.streams i = some stream')
    {args : WriterArgs} {n d : Nat} {rest : List (List UInt8)} {synced : Bool}
    (hphase : ((moved s t (advance setup stream (s.point t) o r) s').point (.writer i)).phase =
      .writing args n rest d synced) (hfine : s'.writeFailed i = false) {p : Nat}
    (hle : stream'.request.rangeStart ≤ p) (hlt : p < args.resumeOffset + n) :
    setup.CountsOn s p ∨
      ∃ f, HasOpen s t.stream f ∧ (s'.disk.inode f).data[p]? = source[p]? := by
  have hfine' := fine_of_exec hexec hfine
  rcases henabled.moves_moved hstream r s' (.writer i) with hsame | ⟨rfl, hmoves⟩
  · exact .inl (.reached hstream' (.written (hsame.symm.trans hphase) hfine') hle hlt)
  · rw [hphase] at hmoves
    generalize hpt : s.point (.writer i) = pt at hmoves
    have hbefore := congrArg Point.phase hpt
    cases hmoves with
    | writing =>
      have hw : s.shared.writers i = .running args := (awaitWriter_of_exec hexec).1
      exact .inl (.live hstream' ⟨hhonest.disk, .inr ⟨args, hw, rfl⟩⟩ hle hlt)
    | @wrote _ w =>
      by_cases hold : p < args.resumeOffset + w
      · exact .inl (.reached hstream' (.written hbefore hfine') hle hold)
      · obtain ⟨hw, -, -⟩ := running_of_writing hbase hstream' hbefore
        exact .inr ⟨args.file, .inr ⟨args, hw, rfl⟩,
          right_of_wrote hhonest hbase h hstream' hbefore hexec hfine (not_lt.1 hold) hlt⟩
    | synced => exact .inl (.reached hstream' (.written hbefore hfine') hle hlt)
    | recorded => exact .inl (.reached hstream' (.written hbefore hfine') hle hlt)
    | stored => exact .inl (.reached hstream' (.written hbefore hfine') hle hlt)

/-- A writer whose file was flushed has written what it counts on. -/
theorem countsOn_of_flushed (hstream : setup.streams t.stream = some stream)
    (henabled : Enabled setup t (s.point t) o) (hexec : exec t o c s.shared = some (r, s'))
    {i : Nat} {stream' : LaneStream} (hstream' : setup.streams i = some stream')
    {args : WriterArgs} {n : Nat}
    (hphase : ((moved s t (advance setup stream (s.point t) o r) s').point (.writer i)).phase =
      .flushed args n) {p : Nat} (hle : stream'.request.rangeStart ≤ p)
    (hlt : p < args.resumeOffset + n) : setup.CountsOn s p := by
  rcases henabled.moves_moved hstream r s' (.writer i) with hsame | ⟨rfl, hmoves⟩
  · exact .reached hstream' (.flushed (hsame.symm.trans hphase)) hle hlt
  · rw [hphase] at hmoves
    generalize hpt : s.point (.writer i) = pt at hmoves
    have hbefore := congrArg Point.phase hpt
    cases hmoves with
    | flushed => exact .reached hstream' (.written hbefore (flush_of_exec hexec).1) hle hlt

/-- The writer of a single lane that has ended well has written what it says. -/
theorem countsOn_of_joined (hbase : Baseline setup s)
    (hstream : setup.streams t.stream = some stream)
    (henabled : Enabled setup t (s.point t) o) (hexec : exec t o c s.shared = some (r, s'))
    {i : Nat} {stream' : LaneStream} (hstream' : setup.streams i = some stream')
    (hsingle : isStriped stream'.request = false) {resume n : Nat}
    (hphase : ((moved s t (advance setup stream (s.point t) o r) s').point (.handler i)).phase =
      .draining resume) (hw : s'.writers i = .finished (.ok n)) {p : Nat}
    (hle : stream'.request.rangeStart ≤ p) (hlt : p < resume + n) : setup.CountsOn s p := by
  rcases finished_of_exec hexec hw with hbefore | ⟨rfl, rfl⟩
  · rcases henabled.moves_moved hstream r s' (.handler i) with hsame | ⟨rfl, hmoves⟩
    · exact .reached hstream' (.joined hsingle (hsame.symm.trans hphase) hbefore) hle hlt
    · rw [hphase] at hmoves
      generalize s.point (.handler i) = pt at hmoves
      cases hmoves with
      | draining =>
        -- the writer has only just been spawned
        cases hexec
        simp [State.setWriter, Task.stream] at hw
  · cases t with
    | handler i =>
      generalize s.point (.handler i) = pt at henabled
      cases henabled
    | writer i =>
      rw [moved_point_of_ne (by simp)] at hphase
      generalize hpt : s.point (.writer i) = pt at henabled
      have hbefore := congrArg Point.phase hpt
      cases henabled with
      | finishOk =>
        obtain ⟨hrunning, -, -⟩ := running_of_flushed hbase hstream' hbefore
        have hresume :=
          ((hbase.writers i stream' hstream').running _ hrunning).2.1 resume hphase
        rw [← hresume] at hlt
        exact .reached hstream' (.flushed hbefore) hle hlt

/-- The handler of a single lane is told by its writer what was written. -/
theorem countsOn_of_received (hstream : setup.streams t.stream = some stream)
    (henabled : Enabled setup t (s.point t) o) (hexec : exec t o c s.shared = some (r, s'))
    {i : Nat} {stream' : LaneStream} (hstream' : setup.streams i = some stream')
    (hsingle : isStriped stream'.request = false) {resume n : Nat}
    (hphase : ((moved s t (advance setup stream (s.point t) o r) s').point (.handler i)).phase =
      .received resume n) {p : Nat} (hle : stream'.request.rangeStart ≤ p)
    (hlt : p < resume + n) : setup.CountsOn s p := by
  rcases henabled.moves_moved hstream r s' (.handler i) with hsame | ⟨rfl, hmoves⟩
  · exact .reached hstream' (.received hsingle (hsame.symm.trans hphase)) hle hlt
  · rw [hphase] at hmoves
    generalize hpt : s.point (.handler i) = pt at hmoves
    have hbefore := congrArg Point.phase hpt
    cases hmoves with
    | received =>
      have hw : s.shared.writers i = .finished (.ok n) := (joinWriter_of_exec hexec).1
      exact .reached hstream' (.joined hsingle hbefore hw) hle hlt

/-- Who is going to deliver the staging file has read a complete checkpoint, or has received
the whole file. -/
theorem countsOn_of_whole (hhonest : setup.Honest source) (h : setup.Delivered source s)
    (hstream : setup.streams t.stream = some stream)
    (henabled : Enabled setup t (s.point t) o) (hexec : exec t o c s.shared = some (r, s'))
    (hwhole : (advance setup stream (s.point t) o r).phase.Whole) {p : Nat} (hp : p < setup.size) :
    setup.CountsOn s p := by
  rcases henabled.moves hstream r with hsame | hmoves
  · rw [hsame] at hwhole
    exact .whole hstream hwhole
  · generalize (advance setup stream (s.point t) o r).phase = ph at hmoves hwhole
    generalize hpt : s.point t = pt at hmoves
    have hbefore := congrArg Point.phase hpt
    have hstill : pt.phase.Whole → setup.CountsOn s p := by
      intro hpt'
      rw [← hpt] at hpt'
      exact .whole hstream hpt'
    cases hmoves with
    | ready hc =>
      have hread := (readCheckpoint_of_exec hexec).1
      obtain ⟨lanes, hpos, hwf⟩ := h.stored.versions _ (List.mem_of_getLast? hread)
      exact .recorded hread (hwf.records_of_complete hpos hc hp)
    | @readySingle i _ ph hstriped hph =>
      cases ph with
      | received resume n =>
        obtain ⟨hone, hzero, hstart, hend⟩ := (hhonest.streams i stream hstream).single hstriped
        have hall := hph.2.add_eq
        rw [hend] at hall
        exact .reached hstream (.received hstriped hbefore) (by omega) (by omega)
      | accepted resume =>
        have hdiscards := hph.1
        rw [hhonest.disk] at hdiscards
        cases hdiscards
      | _ => exact hph.elim
    | checking => exact hstill trivial
    | passed => exact hstill trivial
    | vacant => exact hstill trivial
    | clearing => exact hstill trivial
    | cleared => exact hstill trivial
    | _ => exact hwhole.elim

/-- **Who counts on a byte after a step** did so before, or has looked at the length of the
staging file, or has written it. -/
theorem countsOn_step (hhonest : setup.Honest source) (hbase : Baseline setup s)
    (h : setup.Delivered source s) (hstaged : setup.Staged source s)
    (hstream : setup.streams t.stream = some stream)
    (henabled : Enabled setup t (s.point t) o) (hexec : exec t o c s.shared = some (r, s'))
    {p : Nat} (hp : p < setup.size)
    (hcounts : setup.CountsOn (moved s t (advance setup stream (s.point t) o r) s') p) :
    setup.CountsOn s p ∨
      (o = .stagingLen ∧
        ∃ f, s.shared.disk.staging = some f ∧ p < (s.shared.disk.inode f).data.length) ∨
      ∃ f, HasOpen s t.stream f ∧ (s'.disk.inode f).data[p]? = source[p]? := by
  cases hcounts with
  | recorded hfound hrecords =>
    exact .inl (countsOn_of_recorded hhonest hbase h hstaged hstream henabled hexec hfound hrecords)
  | @loaded u stream' found hstream' hfound hrecords =>
    by_cases hu : u = t
    · subst hu
      rw [moved_point_self] at hfound
      exact .inl
        (countsOn_of_loaded hhonest hbase h hstaged hstream henabled hexec hfound hrecords)
    · rw [moved_point_of_ne hu] at hfound
      exact .inl (.loaded hstream' hfound hrecords)
  | live hstream' hlive hle hlt =>
    rcases countsOn_of_live h hstream henabled hexec hstream' hlive hle hlt with hbefore | hlen
    · exact .inl hbefore
    · exact .inr (.inl hlen)
  | reached hstream' hreached hle hlt =>
    cases hreached with
    | written hphase hfine =>
      rcases countsOn_of_written hhonest hbase h hstream henabled hexec hstream' hphase hfine hle
        hlt with hbefore | hwrote
      · exact .inl hbefore
      · exact .inr (.inr hwrote)
    | flushed hphase =>
      exact .inl (countsOn_of_flushed hstream henabled hexec hstream' hphase hle hlt)
    | joined hsingle hphase hw =>
      exact .inl
        (countsOn_of_joined hbase hstream henabled hexec hstream' hsingle hphase hw hle hlt)
    | received hsingle hphase =>
      exact .inl (countsOn_of_received hstream henabled hexec hstream' hsingle hphase hle hlt)
  | @whole u stream' hstream' hwhole =>
    by_cases hu : u = t
    · subst hu
      rw [moved_point_self] at hwhole
      exact .inl (countsOn_of_whole hhonest h hstream henabled hexec hwhole hp)
    · rw [moved_point_of_ne hu] at hwhole
      exact .inl (.whole hstream' hwhole)

/-! ## The steps -/

/-- Who has a staging file open after a step had it open before, or opens it. -/
theorem hasOpen_step (hstream : setup.streams t.stream = some stream)
    (henabled : Enabled setup t (s.point t) o) (hexec : exec t o c s.shared = some (r, s'))
    {i f : Nat}
    (hopen : HasOpen (moved s t (advance setup stream (s.point t) o r) s') i f) :
    HasOpen s i f ∨ o = .openStaging ∧ s'.disk.staging = some f := by
  rcases hopen with ⟨resume, hphase⟩ | ⟨args, hw, rfl⟩
  · rcases henabled.moves_moved hstream r s' (.handler i) with hsame | ⟨rfl, hmoves⟩
    · exact .inl (.inl ⟨resume, hsame.symm.trans hphase⟩)
    · rw [hphase] at hmoves
      generalize s.point (.handler i) = pt at hmoves
      cases hmoves with
      | receiving =>
        rcases openStaging_of_exec hexec with ⟨hr, -⟩ | ⟨hr, rfl⟩
        · cases hr
        · cases hr
          exact .inr ⟨rfl, Disk.openStaging_staging _⟩
  · rw [moved_shared] at hw
    refine .inl ?_
    rcases running_of_exec hexec hw with hbefore | ⟨rfl, rfl⟩
    · exact .inr ⟨args, hbefore, rfl⟩
    · generalize hpt : s.point t = pt at henabled
      cases henabled with
      | spawn => exact .inl ⟨_, congrArg Point.phase hpt⟩

variable (stream) in
/-- While a writer has the checkpoint in its hands no write of it fails. -/
theorem fine_of_loaded (henabled : Enabled setup t (s.point t) o)
    (hexec : exec t o c s.shared = some (r, s')) {i : Nat} {found : TransferCheckpoint}
    (hfound : ((moved s t (advance setup stream (s.point t) o r) s').point (.writer i)).loaded =
      .found found) (hfine : s.shared.writeFailed i = false) : s'.writeFailed i = false := by
  rcases writeFailed_of_exec hexec with heq | ⟨⟨f, offset, buffer, rfl⟩, heq⟩
  · rw [heq]
    exact hfine
  · cases t with
    | handler j =>
      generalize s.point (.handler j) = pt at henabled
      cases henabled
    | writer j =>
      rw [heq, Function.update_of_ne, hfine]
      -- the writer that writes has no checkpoint in its hands
      rintro rfl
      rw [moved_point_self] at hfound
      generalize s.point (.writer i) = pt at henabled hfound
      cases henabled
      cases r <;> cases hfound

/-- A writer finds the checkpoint of as many lanes as its stream has, and stores such a one. -/
theorem layout_step (hstaged : setup.Staged source s) (hcareful : setup.Careful source s t o)
    (henabled : Enabled setup t (s.point t) o) (hexec : exec t o c s.shared = some (r, s')) :
    ∀ i stream' found, setup.streams i = some stream' →
      ((moved s t (advance setup stream (s.point t) o r) s').point (.writer i)).loaded =
        .found found →
      found.totalLanes = requestedLanes stream'.request ∧ s'.writeFailed i = false := by
  intro i stream' found hstream' hfound
  have hfine := fine_of_loaded stream henabled hexec hfound
  by_cases ht : Task.writer i = t
  · subst ht
    rw [moved_point_self] at hfound
    rcases loaded_of_advance hexec hfound with hbefore | ⟨ho, hread⟩ | rfl
    · exact (hstaged.layout i stream' found hstream' hbefore).imp_right hfine
    · exact ⟨hcareful.agrees ho i stream' found rfl hstream' hread,
        hfine (hcareful.vouches ho i rfl (by simp [hread]))⟩
    · generalize hpt : s.point (.writer i) = pt at henabled
      cases henabled with
      | persistWriting _ hadvance =>
        rw [TransferCheckpoint.totalLanes_of_advanceLane hadvance]
        exact (hstaged.layout i stream' _ hstream' (congrArg Point.loaded hpt)).imp_right hfine
  · rw [moved_point_of_ne ht] at hfound
    exact (hstaged.layout i stream' found hstream' hfound).imp_right hfine

/-- Whether the staging path names the file before the step, or the step makes it. -/
theorem staging_of_exec (hexec : exec t o c s.shared = some (r, s')) {f : Nat}
    (hf : s'.disk.staging = some f) : s.shared.disk.staging = some f ∨
      o = .openStaging ∧ s.shared.disk.staging = none ∧ f = s.shared.disk.nextInode := by
  rcases names_of_exec hexec with ⟨hs, -⟩ | ⟨ho, hnone, hs, -⟩ | ⟨-, -, hs, -⟩ |
    ⟨g, -, -, hs, -⟩
  · rw [hs] at hf
    exact .inl hf
  · rw [hs] at hf
    exact .inr ⟨ho, hnone, (Option.some.inj hf).symm⟩
  · rw [hs] at hf
    exact .inl hf
  · rw [hs] at hf
    cases hf

/-- A file that is made is empty. -/
theorem made_empty {s : State} {r : Option Nat} (hexec : exec t .openStaging c s = some (r, s'))
    (hnone : s.disk.staging = none) {f : Nat} (hf : s'.disk.staging = some f) :
    s'.disk.inode f = ⟨[], []⟩ := by
  rcases openStaging_of_exec hexec with ⟨-, rfl⟩ | ⟨-, rfl⟩
  · rw [hnone] at hf
    cases hf
  · simp only [Disk.openStaging, hnone] at hf ⊢
    cases hf
    simp

/-- **Careful steps keep the staging file right.** -/
theorem staged_step (hhonest : setup.Honest source) (hbase : Baseline setup s)
    (h : setup.Delivered source s) (hstaged : setup.Staged source s)
    (hcareful : setup.Careful source s t o) (hstream : setup.streams t.stream = some stream)
    (henabled : Enabled setup t (s.point t) o) (hexec : exec t o c s.shared = some (r, s')) :
    setup.Staged source (moved s t (advance setup stream (s.point t) o r) s') where
  opened i stream' f hstream' hopen := by
    rw [moved_shared]
    rcases hasOpen_step hstream henabled hexec hopen with hbefore | ⟨-, hsome⟩
    · cases hs : s'.disk.staging with
      | none => exact .inl rfl
      | some g =>
        rcases staging_of_exec hexec hs with hg | ⟨ho, hnone, -⟩
        · have hf := hstaged.opened i stream' f hstream' hbefore
          rw [hg] at hf
          exact hf
        · exact absurd hbefore ((hcareful.makes ho hnone).opened i stream' f hstream')
    · exact .inr hsome
  short f hf := by
    rw [moved_shared] at hf ⊢
    rcases staging_of_exec hexec hf with hbefore | ⟨rfl, hnone, -⟩
    · have hold : s.shared.disk.staging = none → f ≠ s.shared.disk.nextInode := by
        rw [hbefore]
        exact fun h => by cases h
      exact (tracks_of_exec hhonest hbase h hstream henabled hexec hold
        (hstaged.short f hbefore)).1
    · rw [made_empty hexec hnone hf]
      exact Nat.zero_le _
  right f hf p hp hcounts := by
    rw [moved_shared] at hf ⊢
    have hcases := countsOn_step hhonest hbase h hstaged hstream henabled hexec hp hcounts
    rcases staging_of_exec hexec hf with hbefore | ⟨ho, hnone, -⟩
    · have hold : s.shared.disk.staging = none → f ≠ s.shared.disk.nextInode := by
        rw [hbefore]
        exact fun h => by cases h
      have hkeeps := (tracks_of_exec hhonest hbase h hstream henabled hexec hold
        (hstaged.short f hbefore)).2 p (hhonest.size ▸ hp)
      rcases hcases with hsame | ⟨ho, g, hg, hlt⟩ | ⟨g, hopen, hwrote⟩
      · exact hkeeps (hstaged.right f hbefore p hp hsame)
      · obtain rfl := Option.some.inj (hg.symm.trans hbefore)
        exact hkeeps (Bytes.covers_of_isPrefix (hcareful.trusts ho g hg) p (Nat.zero_le p) hlt)
      · rcases hstaged.opened t.stream stream g hstream hopen with hnone | hg
        · rw [hnone] at hbefore
          cases hbefore
        · obtain rfl := Option.some.inj (hg.symm.trans hbefore)
          exact hwrote
    · have hunused := hcareful.makes ho hnone
      rcases hcases with hsame | ⟨rfl, -⟩ | ⟨g, hopen, -⟩
      · exact absurd hsame (hunused.counts p hp)
      · cases ho
      · exact absurd hopen (hunused.opened t.stream stream g hstream)
  layout := layout_step hstaged hcareful henabled hexec

/-- **What is going to be delivered is the source.** -/
theorem source_of_whole (hhonest : setup.Honest source) (hstaged : setup.Staged source s)
    (hstream : setup.streams t.stream = some stream) (hwhole : (s.point t).phase.Whole) {f : Nat}
    (hf : s.shared.disk.staging = some f) :
    (s.shared.disk.inode f).data = source := by
  refine Bytes.Covers.eq (fun p _ hp => ?_) (hstaged.short f hf)
  rw [← hhonest.size] at hp
  exact hstaged.right f hf p hp (.whole hstream hwhole)

/-- A task that renames or removes files is past the check of the destination. -/
theorem atRisk_of_touches (henabled : Enabled setup t (s.point t) o)
    (ho : o = .removeFinal ∨ o = .renameStaging) : (s.point t).phase.AtRisk := by
  generalize s.point t = pt at henabled
  rcases ho with rfl | rfl
  · cases henabled
    trivial
  · cases henabled
    trivial

/-- What has been delivered is left alone, and it is the source. -/
theorem placements_step (hhonest : setup.Honest source) (hbase : Baseline setup s)
    (h : setup.Delivered source s) (hmode : setup.Protected s ∨ setup.Staged source s)
    (hstream : setup.streams t.stream = some stream)
    (henabled : Enabled setup t (s.point t) o) (hexec : exec t o c s.shared = some (r, s')) :
    ∀ p ∈ s'.disk.placements, (s'.disk.inode p.file).data = source := by
  have hkept : ∀ p ∈ s.shared.disk.placements, (s'.disk.inode p.file).data = source := by
    intro p hp
    have hlt := h.sound.placed_lt p hp
    exact (tracks_of_exec hhonest hbase h hstream henabled hexec fun _ => hlt.ne).eq
      (h.placements p hp)
  rcases names_of_exec hexec with ⟨-, -, hp, -⟩ | ⟨-, -, -, -, -, hp⟩ | ⟨-, -, -, -, hp⟩ |
    ⟨f, rfl, hf, -, -, -, hp⟩
  · rw [hp]
    exact hkept
  · rw [hp]
    exact hkept
  · rw [hp]
    exact hkept
  · rw [hp]
    intro p hmem
    rcases List.mem_append.1 hmem with hmem | hmem
    · exact hkept p hmem
    · obtain rfl := List.mem_singleton.1 hmem
      rcases hmode with hprotected | hstaged
      · exact absurd (atRisk_of_touches henabled (.inr rfl)) (hprotected.checked t)
      · have hwhole : (s.point t).phase.Whole := by
          generalize s.point t = pt at henabled
          cases henabled
          trivial
        refine (tracks_of_exec hhonest hbase h hstream henabled hexec fun hnone => ?_).eq
          (source_of_whole hhonest hstaged hstream hwhole hf)
        rw [hnone] at hf
        cases hf

/-- Who has delivered a file after a step had done so before, or has renamed it. -/
theorem placed_of_advance (hstream : setup.streams t.stream = some stream)
    (henabled : Enabled setup t (s.point t) o) {u : Task} (hplaced :
      ((moved s t (advance setup stream (s.point t) o r) s').point u).phase = .placed) :
    (s.point u).phase = .placed ∨ o = .renameStaging ∧ HEq r (some () : Option Unit) := by
  rcases henabled.moves_moved hstream r s' u with hsame | ⟨rfl, hmoves⟩
  · exact .inl (hsame.symm.trans hplaced)
  · rw [hplaced] at hmoves
    generalize s.point u = pt at hmoves
    cases hmoves
    exact .inr ⟨rfl, HEq.rfl⟩

/-- Who has delivered a file still finds it, or one that was delivered since, at the final
path. -/
theorem placed_step (h : setup.Delivered source s)
    (hmode : setup.Protected s ∨ setup.Careful source s t o)
    (hstream : setup.streams t.stream = some stream)
    (henabled : Enabled setup t (s.point t) o) (hexec : exec t o c s.shared = some (r, s')) :
    ∀ u, ((moved s t (advance setup stream (s.point t) o r) s').point u).phase = .placed →
      ∃ p ∈ s'.disk.placements, s'.disk.final = some p.file := by
  intro u hplaced
  rcases placed_of_advance hstream henabled hplaced with hbefore | ⟨rfl, hr⟩
  · obtain ⟨p, hmem, hfinal⟩ := h.placed u hbefore
    rcases names_of_exec hexec with ⟨-, hf, hp, -⟩ | ⟨-, -, -, -, hf, hp⟩ |
      ⟨ho, -⟩ | ⟨f, -, -, -, hf, -, hp⟩
    · rw [hf, hp]
      exact ⟨p, hmem, hfinal⟩
    · rw [hf, hp]
      exact ⟨p, hmem, hfinal⟩
    · rcases hmode with hprotected | hcareful
      · exact absurd (atRisk_of_touches henabled (.inl ho)) (hprotected.checked t)
      · exact absurd hbefore (hcareful.removes ho u)
    · rw [hf, hp]
      exact ⟨_, List.mem_append_right _ (List.mem_singleton_self _), rfl⟩
  · cases hr
    rcases renameStaging_of_exec hexec with ⟨hr, -⟩ | ⟨-, f, -, rfl⟩
    · cases hr
    · exact ⟨_, List.mem_append_right _ (List.mem_singleton_self _), rfl⟩

theorem delivered_step (hhonest : setup.Honest source) (hbase : Baseline setup s)
    (h : setup.Delivered source s)
    (hmode : setup.Protected s ∨ setup.Staged source s ∧ setup.Careful source s t o)
    (hstream : setup.streams t.stream = some stream)
    (henabled : Enabled setup t (s.point t) o) (hexec : exec t o c s.shared = some (r, s')) :
    setup.Delivered source (moved s t (advance setup stream (s.point t) o r) s') where
  sound := h.sound.of_exec hexec
  stored := counts_step h.stored henabled hexec
  resumes := resumes_step hhonest h hstream henabled hexec
  placements := placements_step hhonest hbase h (hmode.imp_right And.left) hstream henabled hexec
  placed := placed_step h (hmode.imp_right And.right) hstream henabled hexec

/-- A destination that nobody is about to touch stays. -/
theorem present_step (h : setup.Protected s) (henabled : Enabled setup t (s.point t) o)
    (hexec : exec t o c s.shared = some (r, s')) : s'.disk.final ≠ none := by
  rcases names_of_exec hexec with ⟨-, hf, -⟩ | ⟨-, -, -, -, hf, -⟩ | ⟨ho, -⟩ | ⟨f, -, -, -, hf, -⟩
  · rw [hf]
    exact h.present
  · rw [hf]
    exact h.present
  · exact absurd (atRisk_of_touches henabled (.inl ho)) (h.checked t)
  · rw [hf]
    exact Option.some_ne_none f

/-- A destination that must be kept stays protected. -/
theorem protected_step (h : setup.Protected s) (hstream : setup.streams t.stream = some stream)
    (henabled : Enabled setup t (s.point t) o) (hexec : exec t o c s.shared = some (r, s')) :
    setup.Protected (moved s t (advance setup stream (s.point t) o r) s') where
  keeps := h.keeps
  present := present_step h henabled hexec
  checked := by
    refine forall_moved (P := fun _ pt => ¬ pt.phase.AtRisk) ?_ fun u _ => h.checked u
    intro hrisk
    rcases henabled.moves hstream r with hsame | hmoves
    · rw [hsame] at hrisk
      exact h.checked t hrisk
    · have hnone : s'.disk.final = none := by
        refine free_of_moves hmoves h.keeps hrisk (fun hbefore => ?_) hexec
        exact absurd hbefore (h.checked t)
      exact present_step h henabled hexec hnone

/-- **Safe steps keep what is delivered intact.** -/
theorem Setup.Intact.step (h : setup.Intact source s) (hhonest : setup.Honest source)
    (hbase : Baseline setup s) (hallowed : setup.Safe source s t o c)
    (hstream : setup.streams t.stream = some stream)
    (henabled : Enabled setup t (s.point t) o) (hexec : exec t o c s.shared = some (r, s')) :
    setup.Intact source (moved s t (advance setup stream (s.point t) o r) s') := by
  have hmode : setup.Protected s ∨ setup.Staged source s ∧ setup.Careful source s t o := by
    rcases h.staged with hprotected | hstaged
    · exact .inl hprotected
    · exact hallowed.imp_right fun hcareful => ⟨hstaged, hcareful⟩
  refine ⟨delivered_step hhonest hbase h.delivered hmode hstream henabled hexec, ?_⟩
  rcases hmode with hprotected | ⟨hstaged, hcareful⟩
  · exact .inl (protected_step hprotected hstream henabled hexec)
  · exact .inr (staged_step hhonest hbase h.delivered hstaged hcareful hstream henabled hexec)

end

end Metra.Server
