import Mathlib.Data.Int.ConditionallyCompleteOrder
import Mathlib.Data.List.MinMax
import Mathlib.Data.Prod.Lex
import Mathlib.Order.ConditionallyCompleteLattice.Basic
import Metra.Proto

/-!
# The answer that a session reports

Every lane of a session ends with an ack of its own, and they come in any order.
`choose_preferred_complete_ack` keeps one of two.

* `ackKey` — what it compares, as one key of a linear order;
* `preferredAck_eq_argmax` — the ack that is kept in the end is one with the greatest key;
* `preferredAck_max` — **which lane finishes first makes no difference** to its key, and a
  lane that failed is not passed over.
-/

namespace Metra.Client

/-- A completion ack, with the time at which the server made it. -/
structure CompleteAck extends QuicTransferCompleteAck where
  updatedAt : Int
  deriving DecidableEq

/-- The higher one wins when the acks of several lanes differ. -/
def transferStatusPriority : TransferStatus → Nat
  | .queued => 0
  | .running => 1
  | .completed => 2
  | .failed => 3

/-- Of two acks the one with the higher status is kept, then the one with more bytes, then the
later. -/
def choosePreferredCompleteAck (current : Option CompleteAck) (candidate : CompleteAck) :
    CompleteAck :=
  match current with
  | none => candidate
  | some existing =>
    let candidatePriority := transferStatusPriority candidate.status
    let existingPriority := transferStatusPriority existing.status
    if candidatePriority > existingPriority ∨
        (candidatePriority = existingPriority ∧
          (candidate.bytesReceived > existing.bytesReceived ∨
            (candidate.bytesReceived = existing.bytesReceived ∧
              candidate.updatedAt > existing.updatedAt))) then
      candidate
    else existing

/-- The ack that is kept of those of the lanes, in the order in which they are joined. -/
def preferredAck (acks : List CompleteAck) : Option CompleteAck :=
  acks.foldl (fun best ack => some (choosePreferredCompleteAck best ack)) none

/-! ## The key -/

/-- What acks are compared by. -/
def ackKey (ack : CompleteAck) : ℕ ×ₗ ℕ ×ₗ ℤ :=
  toLex (transferStatusPriority ack.status, toLex (ack.bytesReceived, ack.updatedAt))

theorem ackKey_lt_iff {existing candidate : CompleteAck} :
    ackKey existing < ackKey candidate ↔
      transferStatusPriority existing.status < transferStatusPriority candidate.status ∨
        (transferStatusPriority existing.status = transferStatusPriority candidate.status ∧
          (existing.bytesReceived < candidate.bytesReceived ∨
            (existing.bytesReceived = candidate.bytesReceived ∧
              existing.updatedAt < candidate.updatedAt))) := by
  simp only [ackKey, Prod.Lex.toLex_lt_toLex]

/-- Of two acks the later one is taken when its key is greater, and only then. -/
theorem choosePreferredCompleteAck_eq (existing candidate : CompleteAck) :
    choosePreferredCompleteAck (some existing) candidate =
      if ackKey existing < ackKey candidate then candidate else existing := by
  rw [choosePreferredCompleteAck]
  refine if_congr ?_ rfl rfl
  rw [ackKey_lt_iff]
  simp only [gt_iff_lt, eq_comm]

/-- **The ack that is kept is one with the greatest key.** -/
theorem preferredAck_eq_argmax (acks : List CompleteAck) :
    preferredAck acks = acks.argmax ackKey := by
  rw [preferredAck, List.argmax]
  congr 1
  funext best ack
  cases best with
  | none => rfl
  | some existing =>
    rw [choosePreferredCompleteAck_eq]
    exact apply_ite some (ackKey existing < ackKey ack) ack existing

/-- No status comes before `Failed`. -/
theorem failed_of_le {ack best : CompleteAck} (hfailed : ack.status = .failed)
    (hle : ackKey ack ≤ ackKey best) : best.status = .failed := by
  have hpriority : transferStatusPriority ack.status ≤ transferStatusPriority best.status := by
    rcases Prod.Lex.le_iff.1 hle with hlt | ⟨heq, -⟩
    · exact Nat.le_of_lt hlt
    · exact Nat.le_of_eq heq
  rw [hfailed] at hpriority
  cases hstatus : best.status with
  | failed => rfl
  | _ =>
    rw [hstatus] at hpriority
    exact absurd hpriority (by decide)

/-! ## Any order -/

/-- **The ack that a session reports has the greatest key of all**, in whatever order the
lanes are joined, and it says that the transfer failed when a lane says so. -/
theorem preferredAck_max (acks : List CompleteAck) (hne : acks ≠ []) :
    ∃ best, preferredAck acks = some best ∧ best ∈ acks ∧
      (∀ ack ∈ acks, ackKey ack ≤ ackKey best) ∧
      (∀ acks', acks'.Perm acks → ∃ best', preferredAck acks' = some best' ∧
        ackKey best' = ackKey best ∧ best'.status = best.status ∧
        best'.bytesReceived = best.bytesReceived) ∧
      ((∃ ack ∈ acks, ack.status = .failed) → best.status = .failed) := by
  have hsome : ∀ l : List CompleteAck, l ≠ [] → ∃ best, preferredAck l = some best ∧ best ∈ l ∧
      ∀ ack ∈ l, ackKey ack ≤ ackKey best := by
    intro l hl
    rw [preferredAck_eq_argmax]
    cases hbest : l.argmax ackKey with
    | none => exact absurd (List.argmax_eq_none.1 hbest) hl
    | some best =>
      exact ⟨best, rfl, List.argmax_mem hbest, fun ack hack => List.le_of_mem_argmax hack hbest⟩
  obtain ⟨best, hbest, hmem, hmax⟩ := hsome acks hne
  refine ⟨best, hbest, hmem, hmax, fun acks' hperm => ?_, fun ⟨ack, hack, hfailed⟩ => ?_⟩
  · have hne' : acks' ≠ [] := by
      rintro rfl
      exact hne hperm.nil_eq.symm
    obtain ⟨best', hbest', hmem', hmax'⟩ := hsome acks' hne'
    have hkey : ackKey best' = ackKey best :=
      le_antisymm (hmax best' (hperm.mem_iff.1 hmem')) (hmax' best (hperm.mem_iff.2 hmem))
    refine ⟨best', hbest', hkey, ?_, congrArg (fun key => (ofLex (ofLex key).2).1) hkey⟩
    have hpriority : transferStatusPriority best'.status = transferStatusPriority best.status :=
      congrArg (fun key => (ofLex key).1) hkey
    revert hpriority
    cases best'.status <;> cases best.status <;> simp [transferStatusPriority]
  · exact failed_of_le hfailed (hmax ack hack)

/-- Two lanes, of which the second one to be joined has failed. -/
theorem preferredAck_max_pair :
    ∃ best, preferredAck [⟨⟨true, .completed, 2, "a"⟩, 1⟩, ⟨⟨false, .failed, 1, "b"⟩, 0⟩] =
        some best ∧ best.status = .failed := by
  obtain ⟨best, hbest, -, -, -, hfailed⟩ :=
    preferredAck_max [⟨⟨true, .completed, 2, "a"⟩, 1⟩, ⟨⟨false, .failed, 1, "b"⟩, 0⟩] (by simp)
  exact ⟨best, hbest, hfailed ⟨⟨⟨false, .failed, 1, "b"⟩, 0⟩, by simp, rfl⟩⟩

end Metra.Client
