import Metra.Server.Accepted
import Metra.Server.Delivery
import Metra.Server.Lease
import Metra.Server.Progress

/-!
# Uploads of a single lane

A stream of a single lane has no checkpoint: it resumes where the staging file ends.  That is
right as long as all streams of the transfer are of a single lane, for then what is received
goes to the end of a file that is a beginning of the source.

* `Setup.Appending` — the invariant, and `Setup.Appending.careful` — **every step of such
  streams is careful**;
* `single_lane_intact` — whatever fails, and whichever servers have stopped before, the staging
  file is a beginning of the source, and a completed transfer has delivered it.
-/

namespace Metra.Server

open Interleave

/-- All streams send the file over a single lane. -/
def Setup.SingleLane (setup : Setup) : Prop :=
  ∀ i stream, setup.streams i = some stream → isStriped stream.request = false

/-- How much of what it was handed a writer has written. -/
def Phase.written : Phase → Nat
  | .writing _ w _ _ _ => w
  | _ => 0

/-- What is received goes to the end of the staging file, which is a beginning of the source. -/
structure Setup.Appending (setup : Setup) (source : List UInt8) (s : Tracked Task Point State) :
    Prop where
  beginning : ∀ f, s.shared.disk.staging = some f → (s.shared.disk.inode f).data <+: source
  unrecorded : s.shared.disk.versions = []
  unloaded : ∀ u found, (s.point u).loaded ≠ .found found
  plain : ∀ u resume file, (s.point u).phase ≠ .presizing resume file
  resumes : ∀ i stream resume, setup.streams i = some stream →
    (s.point (.handler i)).phase.resume? = some resume → s.shared.writers i = .absent →
    s.shared.disk.stagedBytes = resume
  opened : ∀ i stream f, setup.streams i = some stream → HasOpen s i f →
    s.shared.disk.staging = some f
  appends : ∀ i stream args, setup.streams i = some stream →
    s.shared.writers i = .running args →
    s.shared.writeFailed i = false →
    args.resumeOffset + (s.point (.writer i)).phase.written ≤ s.shared.disk.stagedBytes

/-- What holds of streams of a single lane. -/
structure Setup.Upright (setup : Setup) (source : List UInt8) (s : Tracked Task Point State) :
    Prop where
  delivered : setup.Delivered source s
  staged : setup.Staged source s
  held : setup.Held s
  others : setup.OthersIdle s
  appending : setup.Appending source s

section

variable {setup : Setup} {source : List UInt8} {s : Tracked Task Point State} {t : Task}
  {stream : LaneStream} {o : Op} {c : Choice} {r : o.Reply} {s' : State} {pt : Point} {ph : Phase}

theorem Disk.stagedBytes_of_some {d : Disk} {f : Nat} (h : d.staging = some f) :
    d.stagedBytes = (d.inode f).data.length := by
  rw [Disk.stagedBytes, h]
  rfl

theorem Disk.stagedBytes_of_none {d : Disk} (h : d.staging = none) : d.stagedBytes = 0 := by
  rw [Disk.stagedBytes, h]
  rfl

/-! ## One handler at a time -/

/-- Two handlers of single lanes do not hold a lease at the same time. -/
theorem Setup.Upright.alone (h : setup.Upright source s) (hhonest : setup.Honest source)
    (hsingle : setup.SingleLane) {i j : Nat} {stream' : LaneStream}
    (hstream : setup.streams i = some stream) (hstream' : setup.streams j = some stream')
    (hi : (s.point (.handler i)).phase.HasLease) (hj : (s.point (.handler j)).phase.HasLease) :
    i = j := by
  have hlane := ((hhonest.streams i stream hstream).single (hsingle i stream hstream)).2.1
  have hlane' := ((hhonest.streams j stream' hstream').single (hsingle j stream' hstream')).2.1
  exact h.held.leased.alone i j stream stream' hstream hstream' (hlane.trans hlane'.symm) hi hj

/-- A handler whose writer is running is waiting for it. -/
theorem Setup.Upright.draining (h : setup.Upright source s) {i : Nat}
    (hstream : setup.streams i = some stream) {args : WriterArgs}
    (hw : s.shared.writers i = .running args) :
    ∃ resume, (s.point (.handler i)).phase = .draining resume :=
  h.held.joined i stream hstream ⟨args, hw⟩

/-- Who has the staging file open is receiving. -/
theorem Setup.Upright.resume_of_open (h : setup.Upright source s) {i f : Nat}
    (hstream : setup.streams i = some stream) (hopen : HasOpen s i f) :
    ∃ resume, (s.point (.handler i)).phase.resume? = some resume := by
  rcases hopen with ⟨resume, hphase⟩ | ⟨args, hw, -⟩
  · exact ⟨resume, by rw [hphase]; rfl⟩
  · obtain ⟨resume, hdraining⟩ := h.draining hstream hw
    exact ⟨resume, by rw [hdraining]; rfl⟩

/-- The receive pipeline of an honest stream is left by joining the writer: all its frames
open. -/
theorem joinsWriter_of_honest (hhonest : setup.Honest source) (h : setup.Delivered source s)
    (henabled : Enabled setup t (s.point t) o) : JoinsWriter s t o c := by
  rintro resume hphase rfl
  exfalso
  have hresumes := fun i stream => h.resumes i stream resume
  generalize hpt : s.point t = pt at henabled
  rw [hpt] at hphase
  cases henabled with
  | checkRunning _ hph =>
    obtain rfl : _ = Phase.draining resume := hphase
    exact hph
  | @checkRunningDraining i _ stream' _ _ hstream' hrequest hdecode =>
    cases hphase
    have hlive : setup.LiveAt s i resume := by
      refine ⟨hhonest.disk, .inl ?_⟩
      rw [hpt]
      rfl
    have hclient := hhonest.streams i stream' hstream'
    exact hdecode (hhonest.receipt hclient hrequest (hresumes i stream' hstream' hlive)).1

/-! ## What a step does to the staging file -/

/-- A writer that has not been spawned was not before. -/
theorem absent_of_exec {i : Nat} (hexec : exec t o c s.shared = some (r, s'))
    (hw : s'.writers i = .absent) : s.shared.writers i = .absent := by
  by_cases hi : i = t.stream
  · rcases writers_of_exec hexec with heq | ⟨args, -, heq⟩ | ⟨result, -, heq⟩
    · rwa [heq] at hw
    · rw [heq, hi, Function.update_self] at hw
      cases hw
    · rw [heq, hi, Function.update_self] at hw
      cases hw
  · rwa [writers_of_ne hexec hi] at hw

/-- While a handler is receiving, nobody delivers the staging file. -/
theorem Setup.Upright.not_renames (h : setup.Upright source s) (hhonest : setup.Honest source)
    (hsingle : setup.SingleLane) {i resume : Nat} {stream' : LaneStream}
    (hstream' : setup.streams i = some stream')
    (hphase : (s.point (.handler i)).phase.resume? = some resume)
    (hstream : setup.streams t.stream = some stream) (henabled : Enabled setup t (s.point t) o) :
    o ≠ .renameStaging := by
  rintro rfl
  obtain ⟨j, rfl, hvacant⟩ := vacant_of_renameStaging henabled
  have hlease : (s.point (.handler j)).phase.HasLease := by
    rw [hvacant]
    trivial
  have hsame : j = i :=
    h.alone hhonest hsingle hstream hstream' hlease (hasLease_of_resume hphase)
  rw [← hsame, hvacant] at hphase
  cases hphase

/-- While a handler is receiving, the staging file is the same, or is made. -/
theorem Setup.Upright.staging_kept (h : setup.Upright source s) (hhonest : setup.Honest source)
    (hsingle : setup.SingleLane) {i resume : Nat} {stream' : LaneStream}
    (hstream' : setup.streams i = some stream')
    (hphase : (s.point (.handler i)).phase.resume? = some resume)
    (hstream : setup.streams t.stream = some stream) (henabled : Enabled setup t (s.point t) o)
    (hexec : exec t o c s.shared = some (r, s')) :
    s'.disk.staging = s.shared.disk.staging ∨
      o = .openStaging ∧ s.shared.disk.staging = none ∧ s'.disk.stagedBytes = 0 := by
  rcases names_of_exec hexec with ⟨hs, -⟩ | ⟨rfl, hnone, hs, -⟩ | ⟨-, -, hs, -⟩ | ⟨f, ho, -⟩
  · exact .inl hs
  · refine .inr ⟨rfl, hnone, ?_⟩
    rw [Disk.stagedBytes_of_some hs, made_empty hexec hnone hs]
    rfl
  · exact .inl hs
  · exact absurd ho (h.not_renames hhonest hsingle hstream' hphase hstream henabled)

/-- What a step does to the staging file: it appends what a writer has been handed, none of
whose writes has failed. -/
theorem Setup.Upright.data_of_exec (h : setup.Upright source s) (hbase : Baseline setup s)
    (hstream : setup.streams t.stream = some stream) (henabled : Enabled setup t (s.point t) o)
    (hexec : exec t o c s.shared = some (r, s')) {f : Nat}
    (hf : s.shared.disk.staging = some f) :
    (((∀ g offset buffer, o ≠ .writeAll g offset buffer) ∨
          s.shared.writeFailed t.stream = true) ∧
        (s'.disk.inode f).data = (s.shared.disk.inode f).data) ∨
      ∃ i args w d chunk rest synced k, t = .writer i ∧ s.shared.writers i = .running args ∧
        (s.point (.writer i)).phase = .writing args w (chunk :: rest) d synced ∧
        o = .writeAll args.file (args.resumeOffset + w) chunk ∧
        s.shared.writeFailed i = false ∧
        (HEq r (some () : Option Unit) → s'.writeFailed i = false → k = chunk.length) ∧
        (s'.disk.inode f).data = Bytes.writeAt (args.resumeOffset + w) (chunk.take k)
          (s.shared.disk.inode f).data := by
  by_cases hwrites : ∃ g offset buffer, o = .writeAll g offset buffer
  · obtain ⟨g, offset, buffer, rfl⟩ := hwrites
    obtain ⟨k, hs', hk, hfailed, -⟩ := writeAll_of_exec hexec
    have hwriting : ∃ i args w d rest synced, t = .writer i ∧ args.file = g ∧
        args.resumeOffset + w = offset ∧
        (s.point t).phase = .writing args w (buffer :: rest) d synced := by
      generalize s.point t = pt at henabled
      cases henabled
      exact ⟨_, _, _, _, _, _, rfl, rfl, rfl, rfl⟩
    obtain ⟨i, args, w, d, rest, synced, rfl, rfl, rfl, hphase⟩ := hwriting
    have hstream' : setup.streams i = some stream := hstream
    obtain ⟨hw, -⟩ := running_of_writing hbase hstream' hphase
    have hopen := h.appending.opened i stream args.file hstream' (.inr ⟨args, hw, rfl⟩)
    obtain rfl := Option.some.inj (hf.symm.trans hopen)
    cases hfine : s.shared.writeFailed i with
    | true =>
      obtain ⟨rfl, -⟩ := hfailed hfine
      rw [List.take_zero, written_nil] at hs'
      exact .inl ⟨.inr hfine, by rw [hs']⟩
    | false =>
      refine .inr ⟨i, args, w, d, buffer, rest, synced, k, rfl, hw, hphase, rfl, hfine,
        fun hr => hk (eq_of_heq hr), ?_⟩
      rw [hs']
      simp only [State.written, Disk.modify_inode, if_pos]
  · push Not at hwrites
    refine .inl ⟨.inl hwrites, ?_⟩
    rcases inode_of_exec hexec f with heq | ⟨-, hnone, -⟩ | ⟨n, rfl, -⟩ |
      ⟨offset, buffer, k, ho, -⟩ | ⟨-, heq⟩
    · rw [heq]
    · rw [hf] at hnone
      cases hnone
    · -- only a striped upload sets the length of the file
      have hplain := h.appending.plain t
      generalize s.point t = pt at henabled hplain
      cases henabled
      exact absurd rfl (hplain _ _)
    · exact absurd ho (hwrites _ _ _)
    · rw [heq]

/-- While a handler is receiving and has no writer yet, the staging file has the same length. -/
theorem Setup.Upright.stagedBytes_kept (h : setup.Upright source s) (hhonest : setup.Honest source)
    (hsingle : setup.SingleLane) (hbase : Baseline setup s) {i resume : Nat}
    {stream' : LaneStream} (hstream' : setup.streams i = some stream')
    (hphase : (s.point (.handler i)).phase.resume? = some resume)
    (habsent : s.shared.writers i = .absent) (hstream : setup.streams t.stream = some stream)
    (henabled : Enabled setup t (s.point t) o) (hexec : exec t o c s.shared = some (r, s')) :
    s'.disk.stagedBytes = s.shared.disk.stagedBytes := by
  rcases h.staging_kept hhonest hsingle hstream' hphase hstream henabled hexec with
    hs | ⟨-, hnone, hzero⟩
  · cases hf : s.shared.disk.staging with
    | none => rw [Disk.stagedBytes_of_none hf, Disk.stagedBytes_of_none (hs.trans hf)]
    | some f =>
      rw [Disk.stagedBytes_of_some hf, Disk.stagedBytes_of_some (hs.trans hf)]
      rcases h.data_of_exec hbase hstream henabled hexec hf with
        ⟨-, heq⟩ | ⟨j, args, _, _, _, _, _, _, rfl, hw, -⟩
      · rw [heq]
      · -- the handler of that writer is receiving, too
        have hstream'' : setup.streams j = some stream := hstream
        obtain ⟨resume', hdraining⟩ := h.draining hstream'' hw
        have hlease : (s.point (.handler j)).phase.HasLease := by
          rw [hdraining]
          trivial
        obtain rfl := h.alone hhonest hsingle hstream'' hstream' hlease (hasLease_of_resume hphase)
        rw [habsent] at hw
        cases hw
  · rw [hzero, Disk.stagedBytes_of_none hnone]

/-! ## No checkpoint is made -/

theorem Setup.Appending.not_persists (h : setup.Appending source s) (hsingle : setup.SingleLane)
    {next : TransferCheckpoint} : ¬ Enabled setup t (s.point t) (.persistCheckpoint next) := by
  intro henabled
  have hunloaded := h.unloaded t
  generalize s.point t = pt at henabled hunloaded
  cases henabled with
  | persistFresh hstream hstriped =>
    rw [hsingle _ _ hstream] at hstriped
    cases hstriped
  | persistRounded => exact hunloaded _ rfl
  | persistDiscarded => exact hunloaded _ rfl
  | persistWriting => exact hunloaded _ rfl

theorem Setup.Appending.not_found (h : setup.Appending source s) {found : TransferCheckpoint} :
    s.shared.disk.checkpoint ≠ some found := by
  rw [Disk.checkpoint, h.unrecorded]
  exact fun heq => by cases heq

theorem unrecorded_step (h : setup.Appending source s) (hsingle : setup.SingleLane)
    (henabled : Enabled setup t (s.point t) o) (hexec : exec t o c s.shared = some (r, s')) :
    s'.disk.versions = [] := by
  rcases versions_of_exec hexec with heq | ⟨next, rfl, -⟩ | ⟨-, heq⟩
  · rw [heq]
    exact h.unrecorded
  · exact absurd henabled (h.not_persists hsingle)
  · exact heq

theorem unloaded_step (h : setup.Appending source s) (hsingle : setup.SingleLane)
    (henabled : Enabled setup t (s.point t) o) (hexec : exec t o c s.shared = some (r, s')) :
    ∀ u found, ((moved s t (advance setup stream (s.point t) o r) s').point u).loaded ≠
      .found found := by
  refine forall_moved (P := fun _ pt => ∀ found, pt.loaded ≠ .found found) ?_
    fun u _ => h.unloaded u
  intro found hfound
  rcases loaded_of_advance hexec hfound with hbefore | ⟨-, hread⟩ | rfl
  · exact h.unloaded t found hbefore
  · exact h.not_found hread
  · exact h.not_persists hsingle henabled

theorem striped_of_presizing {resume file : Nat}
    (h : Moves setup stream t pt o r (.presizing resume file)) :
    isStriped stream.request = true := by
  cases h with
  | presizing hstriped => exact hstriped

theorem plain_step (h : setup.Appending source s) (hsingle : setup.SingleLane)
    (hstream : setup.streams t.stream = some stream) (henabled : Enabled setup t (s.point t) o) :
    ∀ u resume file,
      ((moved s t (advance setup stream (s.point t) o r) s').point u).phase ≠
        .presizing resume file := by
  intro u resume file hphase
  rcases henabled.moves_moved hstream r s' u with hsame | ⟨rfl, hmoves⟩
  · exact h.plain u resume file (hsame.symm.trans hphase)
  · rw [hphase] at hmoves
    have hstriped := striped_of_presizing hmoves
    rw [hsingle _ _ hstream] at hstriped
    cases hstriped

/-! ## The steps -/

section

variable (hhonest : setup.Honest source) (hsingle : setup.SingleLane) (hbase : Baseline setup s)
  (h : setup.Upright source s) (hstream : setup.streams t.stream = some stream)
  (henabled : Enabled setup t (s.point t) o) (hexec : exec t o c s.shared = some (r, s'))

include hbase h hstream henabled in
/-- **What a writer writes** goes to the end of the staging file, and is what the source has
there. -/
theorem beginning_step (hhonest : setup.Honest source)
    (hexec : exec t o c s.shared = some (r, s')) :
    ∀ f, s'.disk.staging = some f → (s'.disk.inode f).data <+: source := by
  intro f hf
  rcases staging_of_exec hexec hf with hbefore | ⟨rfl, hnone, -⟩
  · have hprefix := h.appending.beginning f hbefore
    rcases h.data_of_exec hbase hstream henabled hexec hbefore with
      ⟨-, heq⟩ | ⟨i, args, w, d, chunk, rest, synced, k, rfl, hw, hphase, -, hfine, -, heq⟩
    · rw [heq]
      exact hprefix
    · have hstream' : setup.streams i = some stream := hstream
      have hle := h.appending.appends i stream args hstream' hw hfine
      rw [hphase, Disk.stagedBytes_of_some hbefore] at hle
      obtain ⟨hend, hslice⟩ := chunk_of_writing hhonest hbase h.delivered hstream' hphase k
      rw [heq, hslice]
      exact Bytes.isPrefix_writeAt hprefix hle (by omega)
  · rw [made_empty hexec hnone hf]
    exact List.nil_prefix

include hhonest hsingle hbase h hstream henabled hexec

theorem resumes_append : ∀ i stream' resume, setup.streams i = some stream' →
    ((moved s t (advance setup stream (s.point t) o r) s').point (.handler i)).phase.resume? =
      some resume → s'.writers i = .absent → s'.disk.stagedBytes = resume := by
  intro i stream' resume hstream' hphase habsent
  have hbefore := absent_of_exec hexec habsent
  rcases liveAt_step hstream henabled hexec ⟨hhonest.disk, .inl hphase⟩ with
    ⟨-, hlive | ⟨args, hw, -⟩⟩ | ⟨rfl, b, -, ⟨found, next, hfound, -⟩ | ⟨-, -, rfl, hlen⟩⟩
  · rw [h.stagedBytes_kept hhonest hsingle hbase hstream' hlive hbefore hstream henabled hexec]
    exact h.appending.resumes i stream' resume hstream' hlive hbefore
  · rw [hbefore] at hw
    cases hw
  · exact absurd hfound (h.appending.unloaded _ _)
  · rw [(stagingLen_of_exec hexec).1, hlen]
    rfl

omit hbase in
theorem opened_step : ∀ i stream' f, setup.streams i = some stream' →
    HasOpen (moved s t (advance setup stream (s.point t) o r) s') i f →
    s'.disk.staging = some f := by
  intro i stream' f hstream' hopen
  rcases hasOpen_step hstream henabled hexec hopen with hbefore | ⟨-, hsome⟩
  · have hf := h.appending.opened i stream' f hstream' hbefore
    obtain ⟨resume, hphase⟩ := h.resume_of_open hstream' hbefore
    rcases h.staging_kept hhonest hsingle hstream' hphase hstream henabled hexec with
      hs | ⟨-, hnone, -⟩
    · exact hs.trans hf
    · rw [hf] at hnone
      cases hnone
  · exact hsome

omit hhonest hsingle hbase h hstream henabled hexec in
/-- A writer gets on by writing. -/
theorem written_le_of_moves (hmoves : Moves setup stream t pt o r ph)
    (hnot : ∀ g offset buffer, o ≠ .writeAll g offset buffer) :
    ph.written ≤ pt.phase.written := by
  cases hmoves with
  | wrote => exact absurd rfl (hnot _ _ _)
  | _ => first | exact Nat.le_refl _ | exact Nat.zero_le _

/-- A writer goes on where the staging file ends, or before, as long as no write has failed. -/
theorem appends_step : ∀ i stream' args, setup.streams i = some stream' →
    s'.writers i = .running args → s'.writeFailed i = false →
    args.resumeOffset +
        ((moved s t (advance setup stream (s.point t) o r) s').point (.writer i)).phase.written ≤
      s'.disk.stagedBytes := by
  intro i stream' args hstream' hw' hfine
  rcases running_of_exec hexec hw' with hw | ⟨hi, rfl⟩
  · have hbefore := fine_of_exec hexec hfine
    have hle := h.appending.appends i stream' args hstream' hw hbefore
    obtain ⟨resume, hdraining⟩ := h.draining hstream' hw
    have hresume : (s.point (.handler i)).phase.resume? = some resume := by
      rw [hdraining]
      rfl
    have hopen := h.appending.opened i stream' args.file hstream' (.inr ⟨args, hw, rfl⟩)
    have hopen' : s'.disk.staging = some args.file := by
      rcases h.staging_kept hhonest hsingle hstream' hresume hstream henabled hexec with
        hs | ⟨-, hnone, -⟩
      · exact hs.trans hopen
      · rw [hopen] at hnone
        cases hnone
    rw [Disk.stagedBytes_of_some hopen] at hle
    rw [Disk.stagedBytes_of_some hopen']
    rcases h.data_of_exec hbase hstream henabled hexec hopen with
      ⟨hnot, heq⟩ |
        ⟨j, args', w, d, chunk, rest, synced, k, rfl, hw'', hphase, rfl, -, hk, heq⟩
    · rw [heq]
      refine Nat.le_trans (Nat.add_le_add_left ?_ _) hle
      rcases henabled.moves_moved hstream r s' (.writer i) with hsame | ⟨rfl, hmoves⟩
      · rw [hsame]
      · rcases hnot with hnot | hfailed
        · exact written_le_of_moves hmoves hnot
        · rw [Task.stream, hbefore] at hfailed
          cases hfailed
    · -- the writer that writes is the one that is running
      have hstream'' : setup.streams j = some stream := hstream
      obtain ⟨resume', hdraining'⟩ := h.draining hstream'' hw''
      have hlease : (s.point (.handler j)).phase.HasLease := by
        rw [hdraining']
        trivial
      obtain rfl := h.alone hhonest hsingle hstream'' hstream' hlease
        (hasLease_of_resume hresume)
      obtain rfl := WriterTask.running.inj (hw.symm.trans hw'')
      rw [hphase] at hle
      rw [moved_point_self, heq]
      obtain ⟨hgrows, hreaches⟩ := Bytes.le_length_writeAt (args.resumeOffset + w)
        (chunk.take k) (s.shared.disk.inode args.file).data
      cases r with
      | none =>
        show args.resumeOffset + (s.point (.writer j)).phase.written ≤ _
        rw [hphase]
        exact Nat.le_trans hle hgrows
      | some done =>
        have hnext : (advance setup stream (s.point (.writer j))
            (.writeAll args.file (args.resumeOffset + w) chunk) (some done)).phase.written =
            w + chunk.length := by
          simp only [advance, hphase, Point.goto, Phase.written]
        rw [hnext]
        rw [hk HEq.rfl hfine, List.take_length] at hgrows hreaches ⊢
        by_cases hempty : chunk = []
        · rw [hempty] at hgrows ⊢
          exact Nat.le_trans hle hgrows
        · rw [← Nat.add_assoc]
          exact hreaches hempty
  · -- the writer is spawned where the staging file ends
    have hspawn : t = .handler i ∧ (s.point t).phase = .receiving args.resumeOffset args.file := by
      cases t with
      | handler j =>
        generalize s.point (.handler j) = pt at henabled
        cases henabled with
        | spawn _ _ hresume =>
          subst hresume
          exact ⟨congrArg Task.handler hi.symm, rfl⟩
      | writer j =>
        generalize s.point (.writer j) = pt at henabled
        cases henabled
    obtain ⟨rfl, hphase⟩ := hspawn
    have hagrees := hbase.writers i stream' hstream'
    have habsent : s.shared.writers i = .absent := by
      refine hagrees.absent ?_
      rw [hphase]
      exact Nat.le_refl _
    have hne : Task.writer i ≠ .handler i := by simp
    have hlen := h.appending.resumes i stream' args.resumeOffset hstream' (by rw [hphase]; rfl)
      habsent
    cases hexec
    rw [moved_point_of_ne hne, (hagrees.unborn habsent).1]
    exact Nat.le_of_eq hlen.symm

end

/-! ## Every step is careful -/

/-- Who delivers the file, or has delivered it, is a handler that holds its lease. -/
theorem handler_of_delivers (hbase : Baseline setup s) {u : Task}
    (hstream : setup.streams u.stream = some stream)
    (hphase : (s.point u).phase.Whole ∨ (s.point u).phase = .placed) :
    ∃ i, u = .handler i ∧ (s.point (.handler i)).phase.HasLease := by
  cases u with
  | handler i =>
    refine ⟨i, rfl, ?_⟩
    generalize (s.point (.handler i)).phase = ph at hphase
    rcases hphase with hwhole | rfl
    · cases ph <;> first | exact hwhole.elim | trivial
    · trivial
  | writer i =>
    have hstream' : setup.streams i = some stream := hstream
    rcases phase_of_writer hbase hstream' with heq | ⟨_, _, _, _, _, heq⟩ | ⟨_, _, heq⟩ | heq
    all_goals
      rw [heq] at hphase
      rcases hphase with hwhole | hplaced
      · exact hwhole.elim
      · cases hplaced

/-- A handler that makes the staging file has not begun to receive. -/
theorem accepted_of_openStaging (hsingle : setup.SingleLane)
    (henabled : Enabled setup t pt .openStaging) :
    ∃ i resume, t = .handler i ∧ pt.phase = .accepted resume := by
  cases henabled with
  | presizeOpen hstream hstriped =>
    rw [hsingle _ _ hstream] at hstriped
    cases hstriped
  | openStaging => exact ⟨_, _, rfl, rfl⟩

/-- While there is no staging file nobody counts on it. -/
theorem Setup.Upright.unused (h : setup.Upright source s) (hhonest : setup.Honest source)
    (hsingle : setup.SingleLane) (hbase : Baseline setup s)
    (hnone : s.shared.disk.staging = none) {i resume : Nat}
    (hstream : setup.streams i = some stream)
    (hphase : (s.point (.handler i)).phase = .accepted resume) : setup.Unused s := by
  have hlease : (s.point (.handler i)).phase.HasLease := by
    rw [hphase]
    trivial
  have hnotOpen : ∀ j stream' f, setup.streams j = some stream' → ¬ HasOpen s j f := by
    intro j stream' f hstream' hopen
    have hf := h.appending.opened j stream' f hstream' hopen
    rw [hnone] at hf
    cases hf
  -- whoever else has a lease is this handler itself
  have hself : ∀ j stream', setup.streams j = some stream' →
      (s.point (.handler j)).phase.HasLease → (s.point (.handler j)).phase = .accepted resume := by
    intro j stream' hstream' hlease'
    rw [← h.alone hhonest hsingle hstream hstream' hlease hlease']
    exact hphase
  refine ⟨fun p _ hcounts => ?_, hnotOpen⟩
  cases hcounts with
  | recorded hfound => exact h.appending.not_found hfound
  | loaded _ hfound => exact h.appending.unloaded _ _ hfound
  | @live j resume' stream' hstream' hlive hle hlt =>
    obtain ⟨-, hresume | ⟨args, hw, -⟩⟩ := hlive
    · have haccepted := hself j stream' hstream' (hasLease_of_resume hresume)
      have habsent : s.shared.writers j = .absent := by
        refine (hbase.writers j stream' hstream').absent ?_
        rw [haccepted]
        exact Nat.le_succ 7
      have hlen := h.appending.resumes j stream' resume' hstream' hresume habsent
      rw [Disk.stagedBytes_of_none hnone] at hlen
      omega
    · exact hnotOpen j stream' args.file hstream' (.inr ⟨args, hw, rfl⟩)
  | @reached j n stream' hstream' hreached =>
    cases hreached with
    | written hwriting =>
      obtain ⟨hw, -⟩ := running_of_writing hbase hstream' hwriting
      exact hnotOpen j stream' _ hstream' (.inr ⟨_, hw, rfl⟩)
    | flushed hflushed =>
      obtain ⟨hw, -⟩ := running_of_flushed hbase hstream' hflushed
      exact hnotOpen j stream' _ hstream' (.inr ⟨_, hw, rfl⟩)
    | joined _ hdraining =>
      have haccepted := hself j stream' hstream' (by rw [hdraining]; trivial)
      rw [hdraining] at haccepted
      cases haccepted
    | received _ hreceived =>
      have haccepted := hself j stream' hstream' (by rw [hreceived]; trivial)
      rw [hreceived] at haccepted
      cases haccepted
  | @whole u stream' hstream' hwhole =>
    obtain ⟨j, rfl, hlease'⟩ := handler_of_delivers hbase hstream' (.inl hwhole)
    rw [hself j stream' hstream' hlease'] at hwhole
    exact hwhole

/-- **The steps of streams of a single lane are careful.** -/
theorem Setup.Upright.careful (h : setup.Upright source s) (hhonest : setup.Honest source)
    (hsingle : setup.SingleLane) (hbase : Baseline setup s)
    (hstream : setup.streams t.stream = some stream) (henabled : Enabled setup t (s.point t) o) :
    setup.Careful source s t o where
  trusts _ f hf := h.appending.beginning f hf
  makes ho hnone := by
    subst ho
    obtain ⟨i, resume, rfl, hphase⟩ := accepted_of_openStaging hsingle henabled
    exact h.unused hhonest hsingle hbase hnone hstream hphase
  removes ho u hplaced := by
    subst ho
    obtain ⟨i, rfl, hclearing⟩ := clearing_of_removeFinal henabled
    cases hother : setup.streams u.stream with
    | none =>
      rw [h.others u hother] at hplaced
      cases u <;> cases hplaced
    | some stream' =>
      obtain ⟨j, rfl, hlease⟩ := handler_of_delivers hbase hother (.inr hplaced)
      have hlease' : (s.point (.handler i)).phase.HasLease := by
        rw [hclearing]
        trivial
      have hsame : i = j := h.alone hhonest hsingle hstream hother hlease' hlease
      rw [hsame, hplaced] at hclearing
      cases hclearing
  agrees _ _ _ found _ _ hfound := absurd hfound h.appending.not_found
  vouches _ _ _ hsome := by
    obtain ⟨found, hfound⟩ := Option.ne_none_iff_exists'.1 hsome
    exact absurd hfound h.appending.not_found

/-- **A step of streams of a single lane leaves them upright.** -/
theorem Setup.Upright.step (h : setup.Upright source s) (hhonest : setup.Honest source)
    (hsingle : setup.SingleLane) (hbase : Baseline setup s)
    (hstream : setup.streams t.stream = some stream) (henabled : Enabled setup t (s.point t) o)
    (hexec : exec t o c s.shared = some (r, s')) :
    setup.Upright source (moved s t (advance setup stream (s.point t) o r) s') where
  delivered := delivered_step hhonest hbase h.delivered
    (.inr ⟨h.staged, h.careful hhonest hsingle hbase hstream henabled⟩) hstream henabled hexec
  staged := staged_step hhonest hbase h.delivered h.staged
    (h.careful hhonest hsingle hbase hstream henabled) hstream henabled hexec
  held := h.held.step hstream henabled (joinsWriter_of_honest hhonest h.delivered henabled) hexec
  others := h.others.step hstream
  appending :=
    { beginning := beginning_step hbase h hstream henabled hhonest hexec
      unrecorded := unrecorded_step h.appending hsingle henabled hexec
      unloaded := unloaded_step h.appending hsingle henabled hexec
      plain := plain_step h.appending hsingle hstream henabled
      resumes := resumes_append hhonest hsingle hbase h hstream henabled hexec
      opened := opened_step hhonest hsingle h hstream henabled hexec
      appends := appends_step hhonest hsingle hbase h hstream henabled hexec }

end

/-! ## Runs -/

/-- What a server finds that goes on with uploads of a single lane: no checkpoint, and a
beginning of the source in the staging file. -/
structure Disk.Resumable (d : Disk) (source : List UInt8) : Prop where
  sound : d.Sound
  versions : d.versions = []
  placements : ∀ p ∈ d.placements, (d.inode p.file).data = source
  beginning : ∀ f, d.staging = some f → (d.inode f).data <+: source

theorem Disk.Fresh.resumable {d : Disk} (h : d.Fresh) (transfer : TransferSummary)
    (source : List UInt8) : d.Resumable source where
  sound := (h.recoverable transfer source).sound
  versions := h.versions
  placements := (h.recoverable transfer source).placements
  beginning f hf := by
    rw [h.staging] at hf
    cases hf

section

variable {setup : Setup} {source : List UInt8} {disk : Disk}

theorem Disk.Resumable.recoverable (h : disk.Resumable source) (transfer : TransferSummary) :
    Recoverable transfer source disk where
  sound := h.sound
  counts := by
    rw [h.versions]
    simp
  placements := h.placements
  staged := by
    refine .inr fun f hf => ⟨(h.beginning f hf).length_le, fun found hfound => ?_⟩
    rw [Disk.checkpoint, h.versions] at hfound
    cases hfound

theorem upright_start {stored : TransferSummary} (h : disk.Resumable source) :
    setup.Upright source ⟨start stored disk, startPoint⟩ where
  delivered := delivered_start (h.recoverable setup.transfer)
  staged := by
    refine staged_of_recorded fun f hf => ⟨(h.beginning f hf).length_le, fun found hfound => ?_⟩
    rw [Disk.checkpoint, h.versions] at hfound
    cases hfound
  held := held_start
  others _ _ := rfl
  appending :=
    { beginning := h.beginning
      unrecorded := h.versions
      unloaded := fun u found hfound => by cases u <;> cases hfound
      plain := fun u resume file hphase => by cases u <;> cases hphase
      resumes := fun i stream resume _ hphase _ => by cases hphase
      opened := fun i stream f _ hopen => by
        rcases hopen with ⟨resume, hphase⟩ | ⟨args, hw, -⟩
        · cases hphase
        · cases hw
      appends := fun i stream args _ hw _ => by cases hw }

theorem Setup.Upright.resumable {s : Tracked Task Point State} (h : setup.Upright source s) :
    s.shared.disk.Resumable source where
  sound := h.delivered.sound
  versions := h.appending.unrecorded
  placements := h.delivered.placements
  beginning := h.appending.beginning

end

/-- What holds wherever a server leads that has streams of a single lane. -/
theorem upright_of_reaches {ctx : Context} {transfer stored : TransferSummary}
    {streams : Nat → Option LaneStream} {source : List UInt8} {disk : Disk}
    (hhonest : (unreliable ctx transfer streams).Honest source)
    (hsingle : (unreliable ctx transfer streams).SingleLane) (hdisk : disk.Resumable source)
    (hstored : SameTransfer transfer stored)
    {cfg : Config Task Op Op.Reply State (Except String Unit)}
    (hreaches : Config.Reaches machine (fun _ _ _ _ => True)
      ⟨start stored disk, program ctx streams⟩ cfg) :
    ∃ point, Config.Obedient (protocol (unreliable ctx transfer streams))
        (fun t _ pt => TaskReturned (unreliable ctx transfer streams) t pt)
        ⟨⟨cfg.shared, point⟩, cfg.pool⟩ ∧
      (unreliable ctx transfer streams).Upright source ⟨cfg.shared, point⟩ := by
  obtain ⟨point, hto⟩ :=
    hreaches.tracked (protocol (unreliable ctx transfer streams)) startPoint
  obtain ⟨hobedient, -, h⟩ := reaches_invariant trivial
    (fun _ _ _ _ _ _ _ hbase h hstream henabled _ hexec =>
      Setup.Upright.step h hhonest hsingle hbase hstream henabled hexec)
    hstored (upright_start hdisk) hto
  exact ⟨point, hobedient, h⟩

/-- The files that are left of a transfer after some servers have run and stopped, each at any
moment and whatever has failed, that have had streams of a single lane. -/
inductive Interrupted (ctx : Context) (transfer : TransferSummary) (source : List UInt8) :
    Disk → Prop
  | fresh {disk : Disk} (hfresh : disk.Fresh) : Interrupted ctx transfer source disk
  | stopped {streams : Nat → Option LaneStream} {stored : TransferSummary} {disk : Disk}
      {cfg : Config Task Op Op.Reply State (Except String Unit)}
      (h : Interrupted ctx transfer source disk) (hstored : SameTransfer transfer stored)
      (hhonest : (unreliable ctx transfer streams).Honest source)
      (hsingle : (unreliable ctx transfer streams).SingleLane)
      (hreaches : Config.Reaches machine (fun _ _ _ _ => True)
        ⟨start stored disk, program ctx streams⟩ cfg) :
      Interrupted ctx transfer source cfg.shared.disk

theorem Interrupted.resumable {ctx : Context} {transfer : TransferSummary} {source : List UInt8}
    {disk : Disk} (h : Interrupted ctx transfer source disk) : disk.Resumable source := by
  induction h with
  | fresh hfresh => exact hfresh.resumable transfer source
  | stopped _ hstored hhonest hsingle hreaches ih =>
    obtain ⟨point, -, hupright⟩ := upright_of_reaches hhonest hsingle ih hstored hreaches
    exact hupright.resumable

/-- **Uploads of a single lane are resumed where they stopped**: whichever servers have stopped
before, and whatever fails, the staging file is a beginning of the source, every file that was
renamed to the final path is the source, and the source is there when a stream sets the status
to `Completed`. -/
theorem single_lane_intact (ctx : Context) (transfer : TransferSummary) (source : List UInt8)
    {disk : Disk} (hdisk : Interrupted ctx transfer source disk) {stored : TransferSummary}
    (hstored : SameTransfer transfer stored) (streams : Nat → Option LaneStream)
    (hhonest : (unreliable ctx transfer streams).Honest source)
    (hsingle : (unreliable ctx transfer streams).SingleLane)
    {cfg : Config Task Op Op.Reply State (Except String Unit)}
    (hreaches : Config.Reaches machine (fun _ _ _ _ => True)
      ⟨start stored disk, program ctx streams⟩ cfg) :
    (∀ f, cfg.shared.disk.staging = some f → (cfg.shared.disk.inode f).data <+: source) ∧
      (∀ p ∈ cfg.shared.disk.placements, (cfg.shared.disk.inode p.file).data = source) ∧
      ∀ t bytes k, cfg.pool t = .act (.setStatus .completed bytes) k →
        cfg.shared.disk.finalContent = some source := by
  obtain ⟨point, hobedient, h⟩ :=
    upright_of_reaches hhonest hsingle hdisk.resumable hstored hreaches
  refine ⟨h.appending.beginning, h.delivered.placements, fun t bytes k hpool => ?_⟩
  exact source_of_completing h.delivered hhonest hobedient hpool

namespace Scenario

/-- The only stream of a transfer of two bytes. -/
def wholeLane : List LaneStream := [lane [7, 8] 1 0]

theorem honest_wholeLane : (pair wholeLane).Honest [7, 8] := by
  refine honest_pair fun stream hstream => ?_
  obtain rfl := List.mem_singleton.1 hstream
  exact honest_lane (by decide) (by decide)

theorem singleLane_wholeLane : (pair wholeLane).SingleLane := by
  intro i stream hstream
  obtain rfl := List.mem_singleton.1 (List.mem_of_getElem? hstream)
  rfl

end Scenario

open Scenario in
/-- A server stops when its writer has failed after the first byte.  The next one receives the
second byte. -/
theorem single_lane_intact_resumed :
    ∃ disk cfg bytes k, Interrupted ctx (transfer [7, 8] true .queued) [7, 8] disk ∧
      disk.stagedBytes = 1 ∧
      Config.Reaches machine (fun _ _ _ _ => True)
        (server (transfer [7, 8] true .queued) disk wholeLane) cfg ∧
      cfg.pool (.handler 0) = .act (.setStatus .completed bytes) k ∧
      cfg.shared.disk.finalContent = some [7, 8] := by
  have hrun : ((server (transfer [7, 8] true .queued) noFiles wholeLane).runIf machine
      (fun _ _ _ _ => true)
      (turns [(.handler 0, 10), (.writer 0, 1)] ++ [(.writer 0, .ioPartial 1)])).any
      (fun cfg => decide (cfg.shared.disk.stagedBytes = 1) &&
        ((server (transfer [7, 8] true .queued) cfg.shared.disk wholeLane).runIf machine
          (fun _ _ _ _ => true)
          (turns [(.handler 0, 10), (.writer 0, 6), (.handler 0, 5)])).any
          (Config.nextIs completes (.handler 0))) = true := by
    decide +kernel
  have hfresh : noFiles.Fresh := ⟨rfl, rfl, rfl, fun f hf => by cases hf⟩
  obtain ⟨cfg, hto, hnext⟩ := Config.reaches_of_runIf_any (fun _ _ _ _ _ => trivial) hrun
  obtain ⟨hstaged, hnext⟩ := Bool.and_eq_true_iff.1 hnext
  obtain ⟨cfg', hto', hcompletes⟩ :=
    Config.reaches_of_runIf_any (fun _ _ _ _ _ => trivial) hnext
  obtain ⟨o, k, hpool, ho⟩ := Config.of_nextIs hcompletes
  obtain ⟨bytes, rfl⟩ := of_completes ho
  have hinterrupted : Interrupted ctx (transfer [7, 8] true .queued) [7, 8] cfg.shared.disk :=
    .stopped (.fresh hfresh) (sameTransfer_refl _) honest_wholeLane singleLane_wholeLane hto
  obtain ⟨-, -, hdelivered⟩ := single_lane_intact ctx _ [7, 8] hinterrupted (sameTransfer_refl _) _
    honest_wholeLane singleLane_wholeLane hto'
  exact ⟨_, cfg', bytes, k, hinterrupted, of_decide_eq_true hstaged, hto', hpool,
    hdelivered _ _ _ hpool⟩

end Metra.Server
