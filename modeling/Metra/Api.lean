import Metra.Proto

/-!
# The control plane

What `create_transfer` makes of a request that it accepts, but for the look at the
other transfers (`Server/Capacity.lean`).

* `sanitizeFileName` — a file name without any characters but letters, digits and
  `.`, `-`, `_`;
* `mem_sanitizeFileName` and `sanitizeFileName_eq_iff` — what is left of a name, and
  which names come out as a given one.
-/

namespace Metra

/-- The characters that a file name keeps. -/
def keepsChar (ch : Char) : Bool := ch.isAlphanum || ch == '.' || ch == '-' || ch == '_'

/-- A requested file name, with every character that is not kept replaced; an empty one gets a name.
-/
def sanitizeFileName (fileName : String) : String :=
  let output := fileName.toList.map fun ch => if keepsChar ch then ch else '_'
  if output = [] then "transfer.bin" else String.ofList output

/-- The transfer that an accepted request creates. -/
def CreateTransferRequest.summary (payload : CreateTransferRequest) (transferId : Uuid) :
    TransferSummary where
  transferId := transferId
  tenantId := payload.tenantId
  userId := payload.userId
  destinationUri := payload.destinationUri
  fileName := sanitizeFileName payload.fileName
  fileSizeBytes := payload.fileSizeBytes
  overwrite := payload.overwrite
  immutableDestination := payload.immutableDestination
  status := .queued
  resumeChunkSizeBytes := payload.resumeChunkSizeBytes
  bytesTransferred := 0

/-! ## What an accepted request has -/

theorem CreateTransferRequest.of_validate {payload : CreateTransferRequest}
    (h : payload.validate = .ok ()) :
    isValidStorageIdSegment payload.tenantId = true ∧
      isValidStorageIdSegment payload.userId = true ∧ isBlank payload.fileName = false ∧
      0 < payload.fileSizeBytes ∧ payload.fileSizeBytes ≤ transferFileSizeMaxBytes ∧
      payload.resumeChunkSizeBytes = Metra.resumeChunkSizeBytes := by
  unfold CreateTransferRequest.validate at h
  split at h
  · cases h
  rename_i htenant
  split at h
  · cases h
  rename_i huser
  split at h
  · cases h
  split at h
  · cases h
  split at h
  · cases h
  rename_i hname
  split at h
  · cases h
  rename_i hpos
  split at h
  · cases h
  rename_i hmax
  split at h
  · cases h
  rename_i hchunk
  exact ⟨by simpa using htenant, by simpa using huser, by simpa using hname, by omega, by omega,
    by omega⟩

/-- A valid id segment has neither dots nor slashes. -/
theorem of_isValidStorageIdSegment {value : String} (h : isValidStorageIdSegment value = true) :
    value.toList ≠ [] ∧ ∀ c ∈ value.toList, c ≠ '.' ∧ c ≠ '/' := by
  simp only [isValidStorageIdSegment, Bool.and_eq_true, List.all_eq_true] at h
  obtain ⟨⟨hne, -⟩, hall⟩ := h
  refine ⟨fun hnil => ?_, fun c hc => ?_⟩
  · rw [String.toList_eq_nil_iff] at hnil
    subst hnil
    cases hne
  · have hcharset := hall c hc
    constructor
    · rintro rfl
      exact absurd hcharset (by decide)
    · rintro rfl
      exact absurd hcharset (by decide)

/-! ## File names -/

/-- A name of which something is left. -/
theorem sanitizeFileName_of_ne_nil {fileName : String} (h : fileName.toList ≠ []) :
    (sanitizeFileName fileName).toList =
      fileName.toList.map fun ch => if keepsChar ch then ch else '_' := by
  have hne : (fileName.toList.map fun ch => if keepsChar ch then ch else '_') ≠ [] := by
    simpa using h
  simp only [sanitizeFileName, if_neg hne, String.toList_ofList]

theorem toList_ne_nil_of_not_blank {fileName : String} (h : isBlank fileName = false) :
    fileName.toList ≠ [] := by
  intro hnil
  rw [isBlank, hnil] at h
  cases h

/-- Nothing but the characters that are kept is left of a name. -/
theorem mem_sanitizeFileName {fileName : String} (h : isBlank fileName = false) :
    (sanitizeFileName fileName).toList ≠ [] ∧
      ∀ c ∈ (sanitizeFileName fileName).toList, keepsChar c = true := by
  have hne := toList_ne_nil_of_not_blank h
  rw [sanitizeFileName_of_ne_nil hne]
  refine ⟨by simpa using hne, fun c hc => ?_⟩
  obtain ⟨ch, -, rfl⟩ := List.mem_map.1 hc
  split
  · assumption
  · decide

/-- Only a name itself comes out as a name without underscores. -/
theorem sanitizeFileName_eq_iff {fileName : String} (h : isBlank fileName = false)
    {name : List Char} (hkeeps : ∀ c ∈ name, keepsChar c = true ∧ c ≠ '_') :
    (sanitizeFileName fileName).toList = name ↔ fileName.toList = name := by
  rw [sanitizeFileName_of_ne_nil (toList_ne_nil_of_not_blank h)]
  have hself : (∀ c ∈ fileName.toList, keepsChar c = true) →
      (fileName.toList.map fun ch => if keepsChar ch then ch else '_') = fileName.toList := by
    intro hall
    refine (List.map_congr_left fun c hc => ?_).trans (List.map_id _)
    rw [if_pos (hall c hc)]
    rfl
  constructor
  · intro heq
    rw [← heq, hself]
    intro c hc
    by_contra hdrop
    have hmem := List.mem_map_of_mem (f := fun ch => if keepsChar ch then ch else '_') hc
    rw [heq, if_neg hdrop] at hmem
    exact (hkeeps '_' hmem).2 rfl
  · rintro rfl
    exact hself fun c hc => (hkeeps c hc).1

end Metra
