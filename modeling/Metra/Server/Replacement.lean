import Metra.Server.Completed

/-!
# Replacing the destination

`finalize_transfer_on_disk` makes room at the final path before it renames the staging
file to it.  It may be stopped between any two of its operations, and each of them may
fail.

* `replacement_intact_iff` — what was at the final path is there in full, or the new
  content is, **unless the function is cut short right after the removal**;
* `destination_lost` — a run that is: the old content is gone and the new one is still
  in the staging file.
-/

namespace Metra.Server

open Interleave

/-- The final path holds in full what it held before, or the content of the staging file,
and is not missing if it was there. -/
def Disk.Intact (d d' : Disk) : Prop :=
  (d'.finalContent = d.finalContent ∨
    ∃ f, d.staging = some f ∧ d'.finalContent = some (d.inode f).data) ∧
  (d.final ≠ none → d'.final ≠ none)

/-- There is a destination to be replaced, its existence is noticed and it is removed, and
that is the end, or the renaming fails. -/
def CutShort (s : State) (choices : List Choice) : Prop :=
  s.transfer.immutableDestination = false ∧ s.disk.final ≠ none ∧
    ∃ c rest, choices = c :: .ok :: .ok :: rest ∧ (rest.head? = some .ok → s.disk.staging = none)

section

variable {ctx : Context} {t : Task} {o : Op} {c : Choice} {r : o.Reply} {s s' : State} {d : Disk}
  {cs : List Choice}

theorem Disk.intact_self (d : Disk) : d.Intact d := ⟨.inl rfl, id⟩

/-- Where the destination is lost, nothing is intact. -/
theorem Disk.not_intact {d' : Disk} (h : d.final ≠ none) (h' : d'.final = none) : ¬ d.Intact d' :=
  fun hintact => hintact.2 h h'

/-! ## Setting the status -/

/-- The operations that set and store a status. -/
def Op.IsOnStatus : Op → Prop
  | .setStatus .. | .readTransfer | .storeUpsert _ | .clearLock _ => True
  | _ => False

theorem disk_of_exec (ho : o.IsOnStatus) (h : exec t o c s = some (r, s')) : s'.disk = s.disk := by
  cases o with
  | setStatus status bytes =>
    cases h
    rfl
  | readTransfer =>
    cases h
    rfl
  | storeUpsert summary =>
    rcases replace_eq c s { s with stored := summary } with heq | ⟨r', heq⟩
    · simp only [exec, heq] at h
      cases h
      rfl
    · simp only [exec, heq] at h
      cases h
      rfl
  | clearLock kind =>
    cases h
    rfl
  | _ => exact ho.elim

theorem finishWith_onStatus (status : TransferStatus) (bytesTransferred : Nat) (message : String) :
    (finishWith ctx status bytesTransferred message).toProg.All Op.IsOnStatus := by
  refine ⟨trivial, fun _ => ⟨trivial, fun summary => ⟨trivial, fun stored => ?_⟩⟩⟩
  cases stored with
  | none => trivial
  | some _ =>
    cases status with
    | completed => exact ⟨trivial, fun _ => ⟨trivial, fun _ => trivial⟩⟩
    | failed => exact ⟨trivial, fun _ => ⟨trivial, fun _ => trivial⟩⟩
    | queued => trivial
    | running => trivial

theorem finishWith_disk {status : TransferStatus} {bytesTransferred : Nat} {message : String}
    (h : Prog.stop? machine t cs (finishWith ctx status bytesTransferred message).toProg s =
      some s') : s'.disk = s.disk :=
  (finishWith_onStatus status bytesTransferred message).stop? (f := State.disk)
    (fun _ _ _ _ _ ho hexec => disk_of_exec ho hexec) h

/-! ## Moving the staging file -/

/-- The end of `moveIntoPlace`, once there is nothing at the final path. -/
def renameIntoPlace (ctx : Context) (bytesTransferred : Nat) : Task.Program FinalizeResult := do
  fallible s!"failed moving staging file {ctx.staging} to {ctx.final}" (perform .renameStaging)
  finishWith ctx .completed bytesTransferred s!"transfer finalized at {ctx.final}"

/-- Renaming puts the new content in place, or leaves everything. -/
theorem stop_renameIntoPlace {bytesTransferred : Nat}
    (h : Prog.stop? machine t cs (renameIntoPlace ctx bytesTransferred).toProg s = some s') :
    (s'.disk = s.disk ∧ (cs.head? = some .ok → s.disk.staging = none)) ∨
      cs.head? = some .ok ∧ ∃ f, s.disk.staging = some f ∧ s'.disk.final = some f ∧
        s'.disk.inode = s.disk.inode := by
  cases cs with
  | nil =>
    cases h
    exact .inl ⟨rfl, fun hhead => by cases hhead⟩
  | cons c cs =>
    obtain ⟨⟨r, s₁⟩, hexec, hrest⟩ := Option.bind_eq_some_iff.1 h
    rcases renameStaging_of_exec hexec with ⟨rfl, hs⟩ | ⟨rfl, f, hf, rfl⟩
    · -- the renaming failed, and with it the function
      cases cs with
      | cons c' cs => cases hrest
      | nil =>
        cases hrest
        refine .inl ⟨by rw [hs], fun hhead => ?_⟩
        cases hhead
        cases hstaging : s.disk.staging with
        | none => rfl
        | some f =>
          simp [machine, exec, State.withDisk, Disk.renameStaging, hstaging, attempt] at hexec
    · have hok : c = .ok := by
        cases c <;> first | rfl | (simp [machine, exec, State.withDisk, attempt] at hexec)
      have hdisk := finishWith_disk hrest
      exact .inr ⟨by rw [hok]; rfl, f, hf, by rw [hdisk], by rw [hdisk]⟩

/-- With nothing at the final path there is nothing to lose. -/
theorem intact_of_rename {bytesTransferred : Nat}
    (h : Prog.stop? machine t cs (renameIntoPlace ctx bytesTransferred).toProg s = some s') :
    s.disk.Intact s'.disk := by
  rcases stop_renameIntoPlace h with ⟨hdisk, -⟩ | ⟨-, f, hf, hfinal, hinode⟩
  · rw [hdisk]
    exact Disk.intact_self _
  · refine ⟨.inr ⟨f, hf, ?_⟩, fun _ hnone => ?_⟩
    · rw [Disk.finalContent, hfinal, hinode]
      rfl
    · rw [hfinal] at hnone
      cases hnone

/-- Once the destination is removed, all depends on the renaming. -/
theorem intact_iff_of_removed {bytesTransferred f : Nat} (hfinal : s.disk.final = some f)
    (h : Prog.stop? machine t cs (renameIntoPlace ctx bytesTransferred).toProg
      { s with disk := { s.disk with final := none } } = some s') :
    s.disk.Intact s'.disk ↔ ¬ (cs.head? = some .ok → s.disk.staging = none) := by
  have hpresent : s.disk.final ≠ none := by
    rw [hfinal]
    exact Option.some_ne_none f
  rcases stop_renameIntoPlace h with ⟨hdisk, hfails⟩ | ⟨hok, g, hg, hfinal', hinode⟩
  · refine iff_of_false (Disk.not_intact hpresent ?_) (not_not_intro hfails)
    rw [hdisk]
  · refine iff_of_true ⟨.inr ⟨g, hg, ?_⟩, fun _ hnone => ?_⟩ fun hfails => ?_
    · rw [Disk.finalContent, hfinal', hinode]
      rfl
    · rw [hfinal'] at hnone
      cases hnone
    · exact absurd (hfails hok) (by rw [hg]; exact Option.some_ne_none g)

/-- What is there is removed, unless that fails, and then the staging file is renamed. -/
theorem stop_moveIntoPlace {bytesTransferred : Nat}
    (h : Prog.stop? machine t cs (moveIntoPlace ctx bytesTransferred).toProg s = some s') :
    s.disk.Intact s'.disk ↔ ¬ (s.disk.final ≠ none ∧ ∃ rest, cs = .ok :: .ok :: rest ∧
      (rest.head? = some .ok → s.disk.staging = none)) := by
  have hsame : s' = s → (∀ rest, cs ≠ .ok :: .ok :: rest) → (s.disk.Intact s'.disk ↔
      ¬ (s.disk.final ≠ none ∧ ∃ rest, cs = .ok :: .ok :: rest ∧
        (rest.head? = some .ok → s.disk.staging = none))) := by
    rintro rfl hne
    refine iff_of_true (Disk.intact_self _) ?_
    rintro ⟨-, rest, heq, -⟩
    exact hne rest heq
  cases cs with
  | nil =>
    cases h
    exact hsame rfl fun rest heq => by cases heq
  | cons c cs =>
    obtain ⟨⟨r, s₁⟩, hexec, hrest⟩ := Option.bind_eq_some_iff.1 h
    cases c with
    | ok =>
      cases hexec
      cases hfinal : s.disk.final with
      | none =>
        simp only [hfinal] at hrest
        exact iff_of_true (intact_of_rename hrest) fun hlost => hlost.1 rfl
      | some f =>
        simp only [hfinal] at hrest
        cases cs with
        | nil =>
          cases hrest
          exact (hsame rfl fun rest heq => by cases heq).trans (by simp [hfinal])
        | cons c' cs =>
          obtain ⟨⟨r, s₂⟩, hexec, hrest⟩ := Option.bind_eq_some_iff.1 hrest
          cases c' with
          | ok =>
            have hout : some () = r ∧ { s with disk := { s.disk with final := none } } = s₂ := by
              simpa [machine, exec, State.withDisk, attempt, hfinal] using hexec
            obtain ⟨rfl, rfl⟩ := hout
            rw [intact_iff_of_removed hfinal hrest]
            refine not_congr ⟨fun hfails => ⟨by simp, cs, rfl, hfails⟩, ?_⟩
            rintro ⟨-, rest, heq, hfails⟩
            cases heq
            exact hfails
          | _ =>
            cases hexec
            cases cs with
            | nil =>
              cases hrest
              exact (hsame rfl fun rest heq => by cases heq).trans (by simp [hfinal])
            | cons c'' cs => cases hrest
    | _ =>
      cases hexec
      cases cs with
      | nil =>
        cases hrest
        exact hsame rfl fun rest heq => by cases heq
      | cons c' cs => cases hrest

/-! ## The whole function -/

/-- A destination that must not change is only ever looked at. -/
theorem intact_of_immutable (hoverwrite : s.transfer.overwrite = true)
    (himmutable : s.transfer.immutableDestination = true)
    (hstop : Prog.stop? machine t (c :: cs) (finalizeTransferOnDisk ctx).toProg s = some s') :
    s.disk.Intact s'.disk := by
  obtain ⟨⟨policy, s₁⟩, hexec, hrest⟩ := Option.bind_eq_some_iff.1 hstop
  cases hexec
  simp only [hoverwrite, himmutable] at hrest
  cases cs with
  | nil =>
    cases hrest
    exact Disk.intact_self _
  | cons c' cs =>
    obtain ⟨⟨r, s₂⟩, hexec, hrest⟩ := Option.bind_eq_some_iff.1 hrest
    cases c' with
    | ok =>
      cases hexec
      cases hfinal : s.disk.final with
      | none =>
        simp only [hfinal] at hrest
        exact (stop_moveIntoPlace hrest).2 fun hlost => hlost.1 hfinal
      | some f =>
        simp only [hfinal] at hrest
        have hdisk := finishWith_disk hrest
        rw [hdisk]
        exact Disk.intact_self _
    | _ =>
      cases hexec
      cases cs with
      | nil =>
        cases hrest
        exact Disk.intact_self _
      | cons c'' cs => cases hrest

/-- **The destination is replaced or kept as a whole**, wherever the function is stopped and
whatever of it fails, unless it is cut short between the removal and the renaming. -/
theorem replacement_intact_iff (ctx : Context) (t : Task) (choices : List Choice) (s s' : State)
    (hoverwrite : s.transfer.overwrite = true)
    (hstop : Prog.stop? machine t choices (finalizeTransferOnDisk ctx).toProg s = some s') :
    s.disk.Intact s'.disk ↔ ¬ CutShort s choices := by
  cases choices with
  | nil =>
    cases hstop
    refine iff_of_true (Disk.intact_self _) ?_
    rintro ⟨-, -, c, rest, heq, -⟩
    cases heq
  | cons c cs =>
    cases himmutable : s.transfer.immutableDestination with
    | true =>
      refine iff_of_true (intact_of_immutable hoverwrite himmutable hstop) ?_
      rintro ⟨hmutable, -⟩
      rw [himmutable] at hmutable
      cases hmutable
    | false =>
      obtain ⟨⟨policy, s₁⟩, hexec, hrest⟩ := Option.bind_eq_some_iff.1 hstop
      cases hexec
      simp only [hoverwrite, himmutable] at hrest
      rw [stop_moveIntoPlace hrest]
      refine not_congr ⟨?_, ?_⟩
      · rintro ⟨hfinal, rest, rfl, hfails⟩
        exact ⟨himmutable, hfinal, c, rest, rfl, hfails⟩
      · rintro ⟨-, hfinal, c', rest, heq, hfails⟩
        cases heq
        exact ⟨hfinal, rest, rfl, hfails⟩

end

/-! ## The run that loses the destination -/

namespace Scenario

/-- A staging file that is complete, and an older file at the final path. -/
def olderFile : Disk :=
  ⟨fun f => if f = 0 then ⟨[1, 2, 3], [1, 2, 3]⟩ else ⟨[7, 8], [7, 8]⟩, 2, some 1, some 0, [], []⟩

/-- A transfer that may overwrite what exists. -/
def overwriting : State := start (transfer [7, 8] true .running) olderFile

/-- The state in which `finalize_transfer_on_disk` is left after some of its operations. -/
def finalizeStopped (choices : List Choice) : Option State :=
  Prog.stop? machine (.handler 0) choices (finalizeTransferOnDisk ctx).toProg overwriting

end Scenario

open Scenario in
/-- Stopped after the renaming, `finalize_transfer_on_disk` has replaced the destination. -/
theorem replacement_intact_sample :
    ∃ s', finalizeStopped [.ok, .ok, .ok, .ok] = some s' ∧
      (overwriting.disk.Intact s'.disk ↔ ¬ CutShort overwriting [.ok, .ok, .ok, .ok]) := by
  obtain ⟨s', hstop⟩ := Option.isSome_iff_exists.1
    (show (finalizeStopped [.ok, .ok, .ok, .ok]).isSome = true by decide +kernel)
  exact ⟨s', hstop, replacement_intact_iff ctx _ _ _ _ rfl hstop⟩

open Scenario in
/-- What is left when the finalization stops with nothing at the final path. -/
theorem Scenario.lost_of_stopped {choices : List Choice}
    (h : (finalizeStopped choices).map (fun s' => s'.disk.final) = some none) :
    ∃ s', finalizeStopped choices = some s' ∧ s'.disk.final = none ∧
      ¬ overwriting.disk.Intact s'.disk := by
  obtain ⟨s', hs', hnone⟩ := Option.map_eq_some_iff.1 h
  exact ⟨s', hs', hnone, Disk.not_intact (Option.some_ne_none 0) hnone⟩

open Scenario in
/-- Stopped after the removal, or failing to rename: the older file is gone. -/
theorem destination_lost :
    overwriting.disk.finalContent = some [1, 2, 3] ∧
      (∃ s', finalizeStopped [.ok, .ok, .ok] = some s' ∧ s'.disk.final = none ∧
        ¬ overwriting.disk.Intact s'.disk) ∧
      ∃ s', finalizeStopped [.ok, .ok, .ok, .ioError] = some s' ∧ s'.disk.final = none ∧
        ¬ overwriting.disk.Intact s'.disk :=
  ⟨by decide +kernel, lost_of_stopped (by decide +kernel), lost_of_stopped (by decide +kernel)⟩

end Metra.Server
