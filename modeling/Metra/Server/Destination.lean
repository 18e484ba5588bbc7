import Metra.Server.Exclusion

/-!
# Several transfers with one final path

Nothing in the server says that the final path of a transfer is its own, and the finalize
lock is one per transfer.  A `Host` runs the servers of any number of transfers that
share the final path.

* `host_reaches` — **the rule for hosts**: what holds of each server in every run does,
  and so does an invariant on top of it;
* `policies_kept` — a transfer that must keep what exists never touches a file at the
  final path, in runs in which no file is renamed to it between another such
  transfer's last check and its own renaming; and then at most one transfer completes,
  if all are of this kind and the path was empty;
* `policies_broken` — two transfers that check in turn, and both complete.
-/

namespace Metra.Server

open Interleave

/-! ## The host -/

/-- The servers of some transfers, but for the files and the final path they share. -/
structure Host where
  servers : Nat → State
  inode : Nat → Inode
  nextInode : Nat
  final : Option Nat

namespace Host

/-- What the server of a transfer sees. -/
def server (h : Host) (i : Nat) : State :=
  { h.servers i with disk :=
    { (h.servers i).disk with inode := h.inode, nextInode := h.nextInode, final := h.final } }

/-- Write back what a step has done to a server and to the files that all share. -/
def put (h : Host) (i : Nat) (s : State) : Host :=
  ⟨Function.update h.servers i s, s.disk.inode, s.disk.nextInode, s.disk.final⟩

variable {h : Host} {i j : Nat} {s : State}

@[simp] theorem server_put_self : (h.put i s).server i = s := by
  simp [server, put]

theorem servers_put_of_ne (hij : j ≠ i) : (h.put i s).servers j = h.servers j :=
  Function.update_of_ne hij _ _

@[simp] theorem servers_put_self : (h.put i s).servers i = s := Function.update_self _ _ _

end Host

/-- A task of the server of a transfer. -/
abbrev HostTask : Type := Nat × Task

/-- The servers of several transfers that go to one path. -/
def hostMachine : Machine HostTask Op Op.Reply Choice Host where
  exec t o c h := (exec t.2 o c (h.server t.1)).map fun out => (out.1, h.put t.1 out.2)

/-- Each server keeps its own protocol. -/
def hostProtocol (setup : Nat → Setup) (t : HostTask) : Protocol Op Op.Reply Point :=
  protocol (setup t.1) t.2

/-- The server of one transfer, with the points of its tasks. -/
def Tracked.ofHost (s : Tracked HostTask Point Host) (i : Nat) : Tracked Task Point State :=
  ⟨s.shared.server i, fun t => s.point (i, t)⟩

/-- The host after a step of one of the servers. -/
def hostMoved (s : Tracked HostTask Point Host) (t : HostTask) (pt : Point) (s' : State) :
    Tracked HostTask Point Host :=
  ⟨s.shared.put t.1 s', Function.update s.point t pt⟩

section

variable {setup : Setup} {s s' : Tracked Task Point State}

/-- The baseline is not about the files. -/
theorem Baseline.of_files (h : Baseline setup s) (hpoint : s'.point = s.point)
    (htransfer : s'.shared.transfer = s.shared.transfer)
    (hstored : s'.shared.stored = s.shared.stored)
    (hlocks : s'.shared.locks = s.shared.locks) (hwriters : s'.shared.writers = s.shared.writers) :
    Baseline setup s' where
  transfer := by rw [htransfer]; exact h.transfer
  stored := by rw [hstored]; exact h.stored
  locks := by
    refine ⟨fun kind => ?_, fun t kind => ?_⟩
    · rw [hlocks]
      exact h.locks.wf kind
    · rw [hlocks, hpoint]
      exact h.locks.stage t kind
  writers i stream hstream := by
    rw [hwriters, hpoint]
    exact h.writers i stream hstream

end

section

variable {setup : Nat → Setup} {s : Tracked HostTask Point Host} {t : HostTask}
  {pt : Point} {s' : State}

theorem ofHost_hostMoved_self :
    Tracked.ofHost (hostMoved s t pt s') t.1 = moved (Tracked.ofHost s t.1) t.2 pt s' := by
  have hpoint : (fun u => Function.update s.point t pt (t.1, u)) =
      Function.update (fun u => s.point (t.1, u)) t.2 pt := by
    funext u
    by_cases hu : u = t.2
    · subst hu
      simp
    · have hne : (t.1, u) ≠ t := fun heq => hu (congrArg Prod.snd heq)
      rw [Function.update_of_ne hne, Function.update_of_ne hu]
  simp only [Tracked.ofHost, hostMoved, moved, Host.server_put_self, hpoint]

theorem point_hostMoved_of_ne {u : HostTask} (hu : u ≠ t) :
    (hostMoved s t pt s').point u = s.point u := Function.update_of_ne hu _ _

@[simp] theorem point_hostMoved_self : (hostMoved s t pt s').point t = pt :=
  Function.update_self _ _ _

/-- The servers of the other transfers see a change of the files only. -/
theorem baseline_hostMoved_of_ne {i : Nat} (hi : i ≠ t.1)
    (h : Baseline (setup i) (Tracked.ofHost s i)) :
    Baseline (setup i) (Tracked.ofHost (hostMoved s t pt s') i) := by
  have hserver : (hostMoved s t pt s').shared.servers i = s.shared.servers i :=
    Host.servers_put_of_ne hi
  refine h.of_files ?_ ?_ ?_ ?_ ?_
  · funext u
    have hne : (i, u) ≠ t := fun heq => hi (congrArg Prod.fst heq)
    exact Function.update_of_ne hne _ _
  · simp only [Tracked.ofHost, Host.server, hserver]
  · simp only [Tracked.ofHost, Host.server, hserver]
  · simp only [Tracked.ofHost, Host.server, hserver]
  · simp only [Tracked.ofHost, Host.server, hserver]

end

/-- A host that has just been started. -/
def startHost (setup : Nat → Setup) (host : Host) :
    Config HostTask Op Op.Reply (Tracked HostTask Point Host) (Except String Unit) :=
  ⟨⟨host, fun t => startPoint t.2⟩, fun t => program (setup t.1).ctx (setup t.1).streams t.2⟩

/-- The servers of the host have just been started, with what they find. -/
def Host.Fresh (host : Host) (transfers : Nat → TransferSummary) : Prop :=
  ∀ i, ∃ disk, host.servers i = start (transfers i) disk ∧ disk.placements = []

/-- **The rule for hosts.** -/
theorem host_reaches {setup : Nat → Setup} (hfaults : ∀ i, (setup i).faults)
    {allowed : Tracked HostTask Point Host → HostTask → Op → Choice → Prop}
    {Inv : Tracked HostTask Point Host → Prop}
    (hstep : ∀ (s : Tracked HostTask Point Host) (t : HostTask) (stream : LaneStream) (o : Op)
      (c : Choice) (r : o.Reply) (s' : State),
      Inv s → (setup t.1).streams t.2.stream = some stream →
      Enabled (setup t.1) t.2 (s.point t) o → allowed s t o c →
      exec t.2 o c (s.shared.server t.1) = some (r, s') →
      Inv (hostMoved s t (advance (setup t.1) stream (s.point t) o r) s'))
    {host : Host} (hfresh : host.Fresh fun i => (setup i).transfer)
    (hstart : Inv ⟨host, fun t => startPoint t.2⟩)
    {cfg : Config HostTask Op Op.Reply (Tracked HostTask Point Host) (Except String Unit)}
    (hreaches : Config.Reaches (hostMachine.track (hostProtocol setup)) allowed
      (startHost setup host) cfg) :
    cfg.Obedient (hostProtocol setup) (fun t _ pt => TaskReturned (setup t.1) t.2 pt) ∧
      Inv cfg.shared := by
  have hinvariant : Invariant hostMachine (hostProtocol setup) allowed
      fun s => (∀ i, Baseline (setup i) (Tracked.ofHost s i)) ∧ Inv s := by
    intro s t o c r host' hboth henabled hallowed hexec
    obtain ⟨hbase, hInv⟩ := hboth
    obtain ⟨⟨stream, hstream⟩, henabled⟩ := henabled
    obtain ⟨⟨reply, s'⟩, hexec', heq⟩ := Option.map_eq_some_iff.1 hexec
    cases heq
    have hadvance : (hostProtocol setup t).advance (s.point t) o reply =
        advance (setup t.1) stream (s.point t) o reply := by
      simp [hostProtocol, protocol, hstream]
    have hnext : s.next (hostProtocol setup) t o reply (s.shared.put t.1 s') =
        hostMoved s t (advance (setup t.1) stream (s.point t) o reply) s' := by
      rw [Tracked.next, hadvance]
      rfl
    refine ⟨fun stream' hstream' => ?_, ?_, ?_⟩
    · obtain rfl := Option.some.inj (hstream'.symm.trans hstream)
      exact (hbase t.1).possible (hfaults t.1) hstream henabled hexec'
    · rw [hnext]
      intro i
      by_cases hi : i = t.1
      · subst hi
        rw [ofHost_hostMoved_self]
        exact (hbase t.1).step hstream henabled hexec'
      · exact baseline_hostMoved_of_ne hi (hbase i)
    · rw [hnext]
      exact hstep s t stream o c reply s' hInv hstream henabled hallowed hexec'
  have hbase : ∀ i, Baseline (setup i) (Tracked.ofHost ⟨host, fun t => startPoint t.2⟩ i) := by
    intro i
    obtain ⟨disk, hserver, -⟩ := hfresh i
    refine (@baseline_start (setup i) _ disk (sameTransfer_refl _)).of_files rfl ?_ ?_ ?_ ?_
    · simp only [Tracked.ofHost, Host.server, hserver]
    · simp only [Tracked.ofHost, Host.server, hserver]
    · simp only [Tracked.ofHost, Host.server, hserver]
    · simp only [Tracked.ofHost, Host.server, hserver]
  have hobedient : (startHost setup host).Obedient (hostProtocol setup)
      (fun t _ pt => TaskReturned (setup t.1) t.2 pt) :=
    fun t => program_obeys (setup t.1) (fun h => absurd (hfaults t.1) h) t.2
  obtain ⟨hobeys, -, hInv⟩ := hinvariant.reaches hobedient ⟨hbase, hstart⟩ hreaches
  exact ⟨hobeys, hInv⟩

/-! ## The condition -/

/-- The last check has found nothing at the final path, and the file has not been renamed
to it. -/
def Phase.AtRisk : Phase → Prop
  | .checking 0 | .clearing | .vacant => True
  | _ => False

/-- No file is renamed to the final path while another task, of a transfer that must keep
what exists, has made its last check. -/
def RenamesApart (setup : Nat → Setup) (s : Tracked HostTask Point Host) (t : HostTask) (o : Op)
    (_ : Choice) : Prop :=
  o = .renameStaging → ∀ u, u ≠ t → (setup u.1).keepsExisting = true → ¬ (s.point u).phase.AtRisk

/-! ## The policies are kept -/

/-- The final path is empty when a transfer that must keep what exists goes on. -/
def PathFree (setup : Nat → Setup) (s : Tracked HostTask Point Host) : Prop :=
  ∀ u, (setup u.1).keepsExisting = true → (s.point u).phase.AtRisk → s.shared.final = none

section

variable {t : Task} {o : Op} {c : Choice} {r : o.Reply} {s s' : State}

theorem final_none_of_exec (h : exec t o c s = some (r, s')) (hnone : s.disk.final = none)
    (ho : o ≠ .renameStaging) : s'.disk.final = none := by
  rcases names_of_exec h with ⟨-, hf, -⟩ | ⟨-, -, -, -, hf, -⟩ | ⟨-, hf, -⟩ | ⟨f, hrename, -⟩
  · exact hf.trans hnone
  · exact hf.trans hnone
  · exact hf
  · exact absurd hrename ho

end

section

variable {setup : Nat → Setup} {s : Tracked HostTask Point Host} {t : HostTask}
  {stream : LaneStream} {o : Op} {c : Choice} {r : o.Reply} {s' : State}

/-- A task that goes on after its last check has found the final path empty. -/
theorem free_of_moves {setup : Setup} {shared : State} {t : Task} {pt : Point} {ph : Phase}
    (h : Moves setup stream t pt o r ph) (hkeeps : setup.keepsExisting = true) (hph : ph.AtRisk)
    (hbefore : pt.phase.AtRisk → shared.disk.final = none)
    (hexec : exec t o c shared = some (r, s')) : s'.disk.final = none := by
  cases h with
  | checking hdisk =>
    obtain ⟨g, hg⟩ := Nat.exists_eq_succ_of_ne_zero (setup.guards_pos_iff.2 hkeeps).ne'
    rw [hg] at hph
    exact hph.elim
  | @passed _ g =>
    obtain ⟨hpresent, rfl⟩ := finalExists_of_exec hexec
    exact Option.isSome_eq_false_iff.1 hpresent.symm |> Option.isNone_iff_eq_none.1
  | vacant =>
    obtain ⟨-, rfl⟩ := finalExists_of_exec hexec
    exact hbefore trivial
  | clearing =>
    obtain ⟨-, rfl⟩ := finalExists_of_exec hexec
    exact hbefore trivial
  | cleared => exact removeFinal_of_exec hexec
  | _ => exact hph.elim

theorem pathFree_step (h : PathFree setup s)
    (hstream : (setup t.1).streams t.2.stream = some stream)
    (henabled : Enabled (setup t.1) t.2 (s.point t) o) (hallowed : RenamesApart setup s t o c)
    (hexec : exec t.2 o c (s.shared.server t.1) = some (r, s')) :
    PathFree setup (hostMoved s t (advance (setup t.1) stream (s.point t) o r) s') := by
  intro u hkeeps hrisk
  show s'.disk.final = none
  by_cases hu : u = t
  · subst hu
    rw [point_hostMoved_self] at hrisk
    rcases henabled.moves hstream r with hsame | hmoves
    · rw [hsame] at hrisk
      have hnone : (s.shared.server u.1).disk.final = none := h u hkeeps hrisk
      by_cases ho : o = .renameStaging
      · subst ho
        rcases renameStaging_of_exec hexec with ⟨-, rfl⟩ | ⟨rfl, -⟩
        · exact hnone
        · rw [← hsame] at hrisk
          exact hrisk.elim
      · exact final_none_of_exec hexec hnone ho
    · exact free_of_moves hmoves hkeeps hrisk (fun hph => h u hkeeps hph) hexec
  · rw [point_hostMoved_of_ne hu] at hrisk
    refine final_none_of_exec hexec (h u hkeeps hrisk) fun ho => ?_
    exact hallowed ho u hu hkeeps hrisk

end

/-! ## One transfer completes -/

/-- The files that the server of a transfer has renamed to the final path. -/
abbrev placementsOf (s : Tracked HostTask Point Host) (i : Nat) : List Placement :=
  (s.shared.servers i).disk.placements

/-- When every transfer must keep what exists, one of them at most gets to the final
path. -/
structure Once (s : Tracked HostTask Point Host) : Prop where
  completed : ∀ i, (s.shared.servers i).transfer.status = .completed → placementsOf s i ≠ []
  placed : ∀ u, (s.point u).phase = .placed → placementsOf s u.1 ≠ []
  present : ∀ i, placementsOf s i ≠ [] → s.shared.final ≠ none
  one : ∀ i j, placementsOf s i ≠ [] → placementsOf s j ≠ [] → i = j

section

variable {setup : Nat → Setup} {s : Tracked HostTask Point Host} {t : HostTask}
  {stream : LaneStream} {o : Op} {c : Choice} {r : o.Reply} {s' : State} {pt : Point}

theorem placementsOf_hostMoved_self :
    placementsOf (hostMoved s t pt s') t.1 = s'.disk.placements := by
  simp [placementsOf, hostMoved]

theorem placementsOf_hostMoved_of_ne {i : Nat} (hi : i ≠ t.1) :
    placementsOf (hostMoved s t pt s') i = placementsOf s i := by
  simp only [placementsOf, hostMoved, Host.servers_put_of_ne hi]

/-- A task that is about to touch the final path, or does, has found it empty. -/
theorem final_none_of_touches (h : PathFree setup s) (hkeeps : (setup t.1).keepsExisting = true)
    (henabled : Enabled (setup t.1) t.2 (s.point t) o)
    (ho : o = .removeFinal ∨ o = .renameStaging) : s.shared.final = none := by
  refine h t hkeeps ?_
  revert henabled
  generalize s.point t = pt, t.2 = u
  intro henabled
  rcases ho with rfl | rfl
  · cases henabled
    trivial
  · cases henabled
    trivial

/-- A transfer is completed without a file, or by the task that has renamed it. -/
theorem discards_or_placed {setup : Setup} {t : Task} {b : Nat}
    (h : Enabled setup t pt (.setStatus .completed b)) :
    setup.discards = true ∨ pt.phase = .placed := by
  cases h with
  | completeDiscarded hdiscards => exact .inl hdiscards
  | complete => exact .inr rfl

theorem placements_of_moves {setup : Setup} {t : Task} {shared : State}
    (h : Moves setup stream t pt o r .placed) (hexec : exec t o c shared = some (r, s')) :
    s'.disk.placements ≠ [] := by
  cases h with
  | placed =>
    rcases renameStaging_of_exec hexec with ⟨hr, -⟩ | ⟨-, f, -, rfl⟩
    · cases hr
    · simp

/-- What a step does to the files at the final path, and to those who brought them
there. -/
theorem placementsOf_step (h : PathFree setup s) (hkeeps : ∀ i, (setup i).keepsExisting = true)
    (henabled : Enabled (setup t.1) t.2 (s.point t) o)
    (hexec : exec t.2 o c (s.shared.server t.1) = some (r, s')) :
    (s'.disk.placements = placementsOf s t.1 ∧
        (s'.disk.final = s.shared.final ∨ s.shared.final = none)) ∨
      o = .renameStaging ∧ s.shared.final = none ∧ s'.disk.placements ≠ [] ∧
        s'.disk.final ≠ none := by
  rcases names_of_exec hexec with ⟨-, hf, hp, -⟩ | ⟨-, -, -, -, hf, hp⟩ | ⟨ho, -, -, -, hp⟩ |
    ⟨f, ho, -, -, hf, -, hp⟩
  · exact .inl ⟨hp, .inl hf⟩
  · exact .inl ⟨hp, .inl hf⟩
  · exact .inl ⟨hp, .inr (final_none_of_touches h (hkeeps t.1) henabled (.inl ho))⟩
  · refine .inr ⟨ho, final_none_of_touches h (hkeeps t.1) henabled (.inr ho), ?_, ?_⟩
    · rw [hp]
      simp
    · rw [hf]
      simp

theorem once_step (h : Once s) (hfree : PathFree setup s)
    (hkeeps : ∀ i, (setup i).keepsExisting = true) (hdisk : ∀ i, (setup i).discards = false)
    (hstream : (setup t.1).streams t.2.stream = some stream)
    (henabled : Enabled (setup t.1) t.2 (s.point t) o)
    (hexec : exec t.2 o c (s.shared.server t.1) = some (r, s')) :
    Once (hostMoved s t (advance (setup t.1) stream (s.point t) o r) s') := by
  have hstep := placementsOf_step hfree hkeeps henabled hexec
  -- who has renamed a file keeps having done so
  have hgrow : ∀ i, placementsOf s i ≠ [] →
      placementsOf (hostMoved s t (advance (setup t.1) stream (s.point t) o r) s') i ≠ [] := by
    intro i hi
    by_cases hit : i = t.1
    · subst hit
      rw [placementsOf_hostMoved_self]
      rcases hstep with ⟨hp, -⟩ | ⟨-, -, hp, -⟩
      · rwa [hp]
      · exact hp
    · rwa [placementsOf_hostMoved_of_ne hit]
  -- and nobody else has, unless this step renames
  have hshrink : ∀ i, placementsOf (hostMoved s t
        (advance (setup t.1) stream (s.point t) o r) s') i ≠ [] →
      placementsOf s i ≠ [] ∨ i = t.1 ∧ s.shared.final = none ∧ s'.disk.final ≠ none := by
    intro i hi
    by_cases hit : i = t.1
    · subst hit
      rw [placementsOf_hostMoved_self] at hi
      rcases hstep with ⟨hp, -⟩ | ⟨-, hnone, -, hsome⟩
      · rw [hp] at hi
        exact .inl hi
      · exact .inr ⟨rfl, hnone, hsome⟩
    · rw [placementsOf_hostMoved_of_ne hit] at hi
      exact .inl hi
  refine ⟨fun i hi => ?_, fun u hu => ?_, fun i hi => ?_, fun i j hi hj => ?_⟩
  · by_cases hit : i = t.1
    · subst hit
      have hi' : s'.transfer.status = .completed := by
        simpa [hostMoved] using hi
      refine hgrow _ ?_
      rcases status_of_exec hexec with heq | ⟨m, n, b, -, heq⟩ | ⟨st, b, rfl, heq⟩
      · rw [heq] at hi'
        exact h.completed _ hi'
      · rw [heq] at hi'
        cases hi'
      · rw [heq] at hi'
        subst hi'
        rcases discards_or_placed henabled with hdiscards | hplaced
        · rw [hdisk t.1] at hdiscards
          cases hdiscards
        · exact h.placed t hplaced
    · refine hgrow i (h.completed i ?_)
      rwa [show (hostMoved s t (advance (setup t.1) stream (s.point t) o r) s').shared.servers i =
        s.shared.servers i from Host.servers_put_of_ne hit] at hi
  · by_cases hut : u = t
    · subst hut
      rw [point_hostMoved_self] at hu
      rcases henabled.moves hstream r with hsame | hmoves
      · rw [hsame] at hu
        exact hgrow _ (h.placed u hu)
      · rw [hu] at hmoves
        rw [placementsOf_hostMoved_self]
        exact placements_of_moves hmoves hexec
    · rw [point_hostMoved_of_ne hut] at hu
      exact hgrow _ (h.placed u hu)
  · show s'.disk.final ≠ none
    rcases hshrink i hi with hbefore | ⟨-, -, hsome⟩
    · have hsome := h.present i hbefore
      rcases hstep with ⟨-, hf | hf⟩ | ⟨-, hf, -⟩
      · rwa [hf]
      · exact absurd hf hsome
      · exact absurd hf hsome
    · exact hsome
  · rcases hshrink i hi with hi' | ⟨rfl, hnone, -⟩
    · rcases hshrink j hj with hj' | ⟨rfl, hnone, -⟩
      · exact h.one i j hi' hj'
      · exact absurd hnone (h.present i hi')
    · rcases hshrink j hj with hj' | ⟨rfl, -, -⟩
      · exact absurd hnone (h.present j hj')
      · rfl

end

/-- The setups of some transfers. -/
def setups (ctx : Nat → Context) (transfers : Nat → TransferSummary)
    (streams : Nat → Nat → Option LaneStream) (i : Nat) : Setup :=
  unreliable (ctx i) (transfers i) (streams i)

/-- **The policies are kept** in runs that keep the renamings apart: a transfer that must
keep what exists finds the final path empty when it touches it.  If all transfers are
of this kind and the path was empty, at most one of them completes. -/
theorem policies_kept (ctx : Nat → Context) (transfers : Nat → TransferSummary)
    (streams : Nat → Nat → Option LaneStream) (host : Host) (hfresh : host.Fresh transfers)
    {cfg : Config HostTask Op Op.Reply (Tracked HostTask Point Host) (Except String Unit)}
    (hrun : Config.Reaches (hostMachine.track (hostProtocol (setups ctx transfers streams)))
      (RenamesApart (setups ctx transfers streams))
      (startHost (setups ctx transfers streams) host) cfg) :
    (∀ i t o k, (setups ctx transfers streams i).keepsExisting = true →
      cfg.pool (i, t) = .act o k → o = .removeFinal ∨ o = .renameStaging →
        cfg.shared.shared.final = none) ∧
    ((∀ i, (setups ctx transfers streams i).keepsExisting = true ∧
        (setups ctx transfers streams i).discards = false ∧ (transfers i).status ≠ .completed) →
      host.final = none → ∀ i j, (cfg.shared.shared.servers i).transfer.status = .completed →
        (cfg.shared.shared.servers j).transfer.status = .completed → i = j) := by
  have hpath : PathFree (setups ctx transfers streams) ⟨host, fun t => startPoint t.2⟩ := by
    intro u _ hrisk
    obtain ⟨i, t⟩ := u
    cases t <;> exact hrisk.elim
  refine ⟨fun i t o k hkeeps hpool ho => ?_, fun hall hnone i j hi hj => ?_⟩
  · obtain ⟨hobedient, hInv⟩ := host_reaches (fun _ => trivial)
      (fun _ _ _ _ _ _ _ hInv hstream henabled hallowed hexec =>
        pathFree_step hInv hstream henabled hallowed hexec) hfresh hpath hrun
    exact final_none_of_touches hInv hkeeps (hobedient.enabled hpool).2 ho
  · have honce : Once ⟨host, fun t => startPoint t.2⟩ := by
      have hplacements : ∀ i, (host.servers i).disk.placements = [] := by
        intro i
        obtain ⟨disk, hserver, hplacements⟩ := hfresh i
        rw [hserver]
        exact hplacements
      refine ⟨fun i hi => ?_, fun u hu => ?_, fun i hi => absurd (hplacements i) hi,
        fun i j hi => absurd (hplacements i) hi⟩
      · obtain ⟨disk, hserver, -⟩ := hfresh i
        refine absurd ?_ (hall i).2.2
        rw [show (host.servers i) = start (transfers i) disk from hserver] at hi
        exact hi
      · obtain ⟨i, t⟩ := u
        cases t <;> cases hu
    obtain ⟨-, -, hInv⟩ := @host_reaches _ (fun _ => trivial) _ (fun s => PathFree _ s ∧ Once s)
      (fun _ _ _ _ _ _ _ hInv hstream henabled hallowed hexec =>
        ⟨pathFree_step hInv.1 hstream henabled hallowed hexec,
          once_step hInv.2 hInv.1 (fun i => (hall i).1) (fun i => (hall i).2.1) hstream henabled
            hexec⟩) _ hfresh ⟨hpath, honce⟩ _ hrun
    exact hInv.one i j (hInv.completed i hi) (hInv.completed j hj)

namespace Scenario

/-- Two uploads of one byte that must not overwrite anything, and no files. -/
def emptyHost : Host :=
  ⟨fun i => start (transfer [i.toUInt8] false .queued) noFiles, fun _ => ⟨[], []⟩, 0, none⟩

/-- The only lane of each transfer, with a byte of its own. -/
def oneLane (i j : Nat) : Option LaneStream := [lane [i.toUInt8] 1 0][j]?

/-- Two transfers that must not overwrite anything. -/
def hosts : Nat → Setup :=
  setups (fun _ => ctx) (fun i => transfer [i.toUInt8] false .queued) oneLane

/-- The tasks of the two uploads. -/
def hostTasks : List HostTask :=
  [(0, .handler 0), (0, .writer 0), (1, .handler 0), (1, .writer 0)]

/-- A file is renamed while all other tasks are calm. -/
def renamesAlone (s : Tracked HostTask Point Host) (t : HostTask) (o : Op) (_ : Choice) : Bool :=
  match o with
  | .renameStaging => hostTasks.all fun u => decide (u = t) || isCalm (s.point u).phase
  | _ => true

theorem renamesApart_of_renamesAlone (s : Tracked HostTask Point Host) (t : HostTask) (o : Op)
    (c : Choice) (hothers : ∀ u, u ∉ hostTasks → s.point u = startPoint u.2)
    (h : renamesAlone s t o c = true) : RenamesApart hosts s t o c := by
  rintro rfl u hut - hrisk
  have hcalm : isCalm (s.point u).phase = true := by
    by_cases hu : u ∈ hostTasks
    · have := List.all_eq_true.1 h u hu
      rwa [decide_eq_false hut, Bool.false_or] at this
    · rw [hothers u hu]
      obtain ⟨i, t⟩ := u
      cases t <;> rfl
  revert hcalm hrisk
  cases (s.point u).phase <;> simp [isCalm, Phase.AtRisk]

end Scenario

open Scenario in
/-- The first of two uploads delivers its file, and the second, which finds it, fails. -/
theorem policies_kept_sample :
    ∃ cfg, Config.Reaches (hostMachine.track (hostProtocol hosts)) (RenamesApart hosts)
        (startHost hosts emptyHost) cfg ∧
      decide ((cfg.shared.shared.servers 0).transfer.status = .completed ∧
        (cfg.shared.shared.servers 1).transfer.status = .failed ∧
        cfg.shared.shared.final = some 0) = true ∧
      ∀ i j, (cfg.shared.shared.servers i).transfer.status = .completed →
        (cfg.shared.shared.servers j).transfer.status = .completed → i = j := by
  have hrun : ((startHost hosts emptyHost).runIf (hostMachine.track (hostProtocol hosts))
      (fun s t o c => decide (t ∈ hostTasks) && renamesAlone s t o c)
      (turns [((0, .handler 0), 10), ((0, .writer 0), 6), ((0, .handler 0), 12),
        ((1, .handler 0), 10), ((1, .writer 0), 6), ((1, .handler 0), 9)])).any
      (fun cfg => decide ((cfg.shared.shared.servers 0).transfer.status = .completed ∧
        (cfg.shared.shared.servers 1).transfer.status = .failed ∧
        cfg.shared.shared.final = some 0)) = true := by
    decide +kernel
  obtain ⟨cfg, hto, hends⟩ := Config.reaches_of_runIf_any (fun s t o c h =>
    show t ∈ hostTasks ∧ renamesAlone s t o c = true by simpa using h) hrun
  have hreaches : Config.Reaches (hostMachine.track (hostProtocol hosts)) (RenamesApart hosts)
      (startHost hosts emptyHost) cfg :=
    (hto.ofTasks fun s t o c hsame _ h => renamesApart_of_renamesAlone s t o c hsame h).1
  have hfresh : emptyHost.Fresh fun i => transfer [i.toUInt8] false .queued :=
    fun i => ⟨noFiles, rfl, rfl⟩
  have hdisk : isNullSinkUri "file:///a.bin" = false := by decide +kernel
  exact ⟨cfg, hreaches, hends, (policies_kept _ _ _ _ hfresh hreaches).2
    (fun i => ⟨rfl, hdisk, nofun⟩) rfl⟩

open Scenario in
/-- Two uploads that must not overwrite anything check the destination in turn; the
second removes what the first has delivered, and both complete. -/
theorem policies_broken :
    ∃ cfg cfg', Config.Reaches hostMachine (fun _ _ _ _ => True)
        ⟨emptyHost, fun t => program ctx (oneLane t.1) t.2⟩ cfg ∧
      decide ((cfg.shared.servers 0).transfer.status = .completed ∧
        cfg.shared.final = some 0) = true ∧
      Config.Reaches hostMachine (fun _ t _ _ => t.1 = 1) cfg cfg' ∧
      decide ((cfg'.shared.servers 0).transfer.status = .completed ∧
        (cfg'.shared.servers 1).transfer.status = .completed ∧
        cfg'.shared.final = some 1) = true :=
  Config.exists_run_then (fun _ t _ _ => decide (t.1 = 1))
    (turns [((0, .handler 0), 10), ((0, .writer 0), 6), ((1, .handler 0), 10), ((1, .writer 0), 6),
      ((1, .handler 0), 4), ((0, .handler 0), 13)])
    (turns [((1, .handler 0), 4)]) (fun _ _ _ _ h => of_decide_eq_true h)
    (by decide +kernel) (by decide +kernel)

end Metra.Server
