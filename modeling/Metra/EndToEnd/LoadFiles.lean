import Metra.Client.LoadTuning
import Metra.Server.Storage

/-!
# The files of a load tuning

The jobs of a load tuning run at the same time, for one tenant's user, and overwrite what they
find.  The server makes the final path of a transfer from the file name, of which it keeps some
characters only, and the other two from the id.

* `sanitize_loadFileName_injective` — a job can be told from what is left of its file name;
* `load_files_apart` — **no two jobs have a file of the server in common**.
-/

namespace Metra.EndToEnd

open Client Server Text

/-! ## The files of two transfers -/

section

variable {crypto : AeadCrypto} {dataDir store : String} {payload payload' : CreateTransferRequest}
  {id id' : Uuid}

/-- The staging files and the checkpoints of two transfers are apart. -/
theorem uploads_apart (hid : id ≠ id') {path : String}
    (hpath : path = (Context.ofTransfer crypto dataDir store (payload.summary id)).staging ∨
      path = (Context.ofTransfer crypto dataDir store (payload.summary id)).checkpoint) :
    ApartFrom path (.ofTransfer crypto dataDir store (payload'.summary id')) := by
  rcases hpath with rfl | rfl
  · constructor
    · intro heq
      exact hid (upload_named_inj (toList_stagingName id) (toList_stagingName id')
        (isName_stagingName id) (isName_stagingName id') heq)
    · intro heq
      exact hid (upload_named_inj (toList_stagingName id) (toList_checkpointName id')
        (isName_stagingName id) (isName_checkpointName id') heq)
  · constructor
    · intro heq
      exact hid (upload_named_inj (toList_checkpointName id) (toList_stagingName id')
        (isName_checkpointName id) (isName_stagingName id') heq)
    · intro heq
      exact hid (upload_named_inj (toList_checkpointName id) (toList_checkpointName id')
        (isName_checkpointName id) (isName_checkpointName id') heq)

/-- Two transfers have no file in common if their final paths are apart and neither file is named
like a staging file or a checkpoint of the other. -/
theorem files_apart (h : payload.validate = .ok ()) (h' : payload'.validate = .ok ())
    (hid : id ≠ id') (hcollides : ¬ CollidesWith payload payload' id')
    (hcollides' : ¬ CollidesWith payload' payload id)
    (hfinal : named (Context.ofTransfer crypto dataDir store (payload.summary id)).final ≠
      named (Context.ofTransfer crypto dataDir store (payload'.summary id')).final) :
    ∀ path ∈ (Context.ofTransfer crypto dataDir store (payload.summary id)).paths,
      ∀ path' ∈ (Context.ofTransfer crypto dataDir store (payload'.summary id')).paths,
        named path ≠ named path' := by
  have hnot : ApartFrom (Context.ofTransfer crypto dataDir store (payload.summary id)).final
      (.ofTransfer crypto dataDir store (payload'.summary id')) :=
    (final_apart_iff h h').2 hcollides
  have hnot' : ApartFrom (Context.ofTransfer crypto dataDir store (payload'.summary id')).final
      (.ofTransfer crypto dataDir store (payload.summary id)) :=
    (final_apart_iff h' h).2 hcollides'
  intro path hpath path' hpath'
  simp only [Context.paths, List.mem_cons, List.not_mem_nil, or_false] at hpath hpath'
  rcases hpath with rfl | hpath
  · rcases hpath' with rfl | rfl | rfl
    · exact hfinal
    · exact hnot.1
    · exact hnot.2
  · obtain ⟨hstaging, hcheckpoint⟩ : ApartFrom path
        (.ofTransfer crypto dataDir store (payload'.summary id')) := uploads_apart hid hpath
    rcases hpath' with rfl | rfl | rfl
    · rcases hpath with rfl | rfl
      · exact hnot'.1.symm
      · exact hnot'.2.symm
    · exact hstaging
    · exact hcheckpoint

end

/-! ## Names -/

/-- The texts that stand after the numbers of a name. -/
def loadTexts : List Str := ["g-l".toList, "-it".toList, "-job".toList, ".bin".toList]

theorem loadTexts_separate : ∀ text ∈ loadTexts, Separates text = true := by
  decide +kernel

theorem loadTexts_keep : ∀ text ∈ loadTexts, ∀ c ∈ text, keepsChar c = true := by
  have hall : (loadTexts.all fun text => text.all keepsChar) = true := by decide
  simpa only [List.all_eq_true] using hall

section

variable {args : TuneLanesArgs} {point point' : LoadPoint}

/-- The numbers of a name. -/
def loadNumbers (args : TuneLanesArgs) (point : LoadPoint) : List Nat :=
  [args.sizeGib, point.lanes, point.iteration, point.job]

theorem loadFileName_toList : (loadFileName args point).toList =
    args.filePrefix.toList ++ '-' :: filled (loadNumbers args point) loadTexts := by
  have hname : loadFileName args point = args.filePrefix ++ "-" ++ toString args.sizeGib ++ "g-l" ++
      toString point.lanes ++ "-it" ++ toString point.iteration ++ "-job" ++
      toString point.job ++ ".bin" := rfl
  rw [hname]
  simp [loadTexts, loadNumbers, filled, digits]

theorem keepsChar_of_isDigit {c : Char} (h : c.isDigit = true) : keepsChar c = true := by
  simp [keepsChar, Char.isAlphanum, h]

/-- Nothing but the prefix is changed by the server. -/
theorem sanitize_loadFileName : (sanitizeFileName (loadFileName args point)).toList =
    (args.filePrefix.toList.map fun ch => if keepsChar ch then ch else '_') ++
      '-' :: filled (loadNumbers args point) loadTexts := by
  have hne : (loadFileName args point).toList ≠ [] := by
    rw [loadFileName_toList]
    simp
  have hkept : ((filled (loadNumbers args point) loadTexts).map fun ch =>
      if keepsChar ch then ch else '_') = filled (loadNumbers args point) loadTexts := by
    refine (List.map_congr_left fun c hc => ?_).trans (List.map_id _)
    apply if_pos
    rcases mem_filled hc with hdigit | ⟨text, htext, hc⟩
    · exact keepsChar_of_isDigit hdigit
    · exact loadTexts_keep text htext c hc
  rw [sanitizeFileName_of_ne_nil hne, loadFileName_toList, List.map_append, List.map_cons, hkept]
  rfl

/-- **A job can be told from what is left of its file name.** -/
theorem sanitize_loadFileName_injective (h : (sanitizeFileName (loadFileName args point)).toList =
    (sanitizeFileName (loadFileName args point')).toList) : point = point' := by
  rw [sanitize_loadFileName, sanitize_loadFileName] at h
  have hfilled := List.tail_eq_of_cons_eq (List.append_cancel_left h)
  have hnumbers := filled_injective loadTexts_separate rfl rfl hfilled
  obtain ⟨lanes, iteration, job⟩ := point
  obtain ⟨lanes', iteration', job'⟩ := point'
  simpa [loadNumbers] using hnumbers

/-- How a name ends. -/
theorem loadFileName_ends : ∃ start, (loadFileName args point).toList = start ++ ".bin".toList := by
  obtain ⟨start, hname⟩ : ∃ start : String, loadFileName args point = start ++ ".bin" := ⟨_, rfl⟩
  rw [hname, String.toList_append]
  exact ⟨_, rfl⟩

theorem loadFileName_ne {name : String} {start suffix : List Char}
    (hname : name.toList = start ++ suffix) (hlength : suffix.length = 4)
    (hsuffix : suffix ≠ ".bin".toList) : loadFileName args point ≠ name := by
  intro heq
  obtain ⟨start', hends⟩ := @loadFileName_ends args point
  rw [heq, hname] at hends
  exact hsuffix (List.append_inj' hends hlength).2

/-- A name is not one of those that a directory goes by. -/
theorem loadFileName_ne_dots : loadFileName args point ≠ "." ∧ loadFileName args point ≠ ".." := by
  have hdash : '-' ∈ (loadFileName args point).toList := by
    rw [loadFileName_toList]
    simp
  constructor
  · intro heq
    rw [heq] at hdash
    exact absurd hdash (by decide)
  · intro heq
    rw [heq] at hdash
    exact absurd hdash (by decide)

/-- No job's file is named like a staging file or a checkpoint. -/
theorem not_collides {payload' : CreateTransferRequest} {id' : Uuid} :
    ¬ CollidesWith (loadRequest args point) payload' id' := by
  have hstaging : (stagingName id').toList =
      ((toString id').toList ++ ".".toList) ++ "part".toList := by
    rw [toList_stagingName, List.append_assoc]
    rfl
  have hcheckpoint : (checkpointName id').toList =
      ((toString id').toList ++ ".part.meta.".toList) ++ "json".toList := by
    rw [toList_checkpointName, List.append_assoc]
    rfl
  rintro ⟨-, -, heq | heq⟩
  · exact loadFileName_ne hstaging rfl (by decide) heq
  · exact loadFileName_ne hcheckpoint rfl (by decide) heq

variable {crypto : AeadCrypto} {dataDir store : String} {id id' : Uuid}

/-- The final paths of two jobs are apart. -/
theorem final_ne (h : (loadRequest args point).validate = .ok ())
    (h' : (loadRequest args point').validate = .ok ()) (hne : point ≠ point') :
    named (Context.ofTransfer crypto dataDir store ((loadRequest args point).summary id)).final ≠
      named (Context.ofTransfer crypto dataDir store
        ((loadRequest args point').summary id')).final := by
  have hname := isName_fileName h loadFileName_ne_dots.1 loadFileName_ne_dots.2
  have hname' := isName_fileName h' loadFileName_ne_dots.1 loadFileName_ne_dots.2
  show named (pathJoin _ (sanitizeFileName _)) ≠ named (pathJoin _ (sanitizeFileName _))
  rw [named_join hname, named_join hname', Ne, UnixPath.Resolved.child_inj]
  rintro ⟨-, heq⟩
  exact hne (sanitize_loadFileName_injective heq)

end

/-- **No two jobs of a load tuning have a file of the server in common**: neither the final path,
which each of them may overwrite, nor a staging file or a checkpoint. -/
theorem load_files_apart (crypto : AeadCrypto) (dataDir store : String) (args : TuneLanesArgs) :
    (loadPoints args).Pairwise fun point point' => ∀ id id' : Uuid, id ≠ id' →
      (loadRequest args point).validate = .ok () → (loadRequest args point').validate = .ok () →
      ∀ path ∈ (Context.ofTransfer crypto dataDir store
          ((loadRequest args point).summary id)).paths,
        ∀ path' ∈ (Context.ofTransfer crypto dataDir store
          ((loadRequest args point').summary id')).paths, named path ≠ named path' := by
  refine (nodup_loadPoints args).imp ?_
  intro point point' hne id id' hid h h'
  exact files_apart h h' hid not_collides not_collides (final_ne h h' hne)

/-- Two jobs at a time, once with one lane and once with two. -/
def LoadSample.pairs : TuneLanesArgs :=
  { Client.LoadSample.args with
    lanes := [1, 2], concurrency := 2, noDisk := false, concurrency_lt := by decide }

open LoadSample Server.Scenario in
/-- The four jobs of such a tuning. -/
theorem load_files_apart_four :
    (loadPoints pairs).length = 4 ∧
      (loadPoints pairs).Pairwise fun point point' =>
        ∀ path ∈ (Context.ofTransfer Metra.Sample.crypto "data" "store"
            ((loadRequest pairs point).summary firstId)).paths,
          ∀ path' ∈ (Context.ofTransfer Metra.Sample.crypto "data" "store"
            ((loadRequest pairs point').summary secondId)).paths, named path ≠ named path' := by
  have hvalid : ∀ point ∈ loadPoints pairs, (loadRequest pairs point).validate = .ok () := by
    decide +kernel
  refine ⟨by decide, (load_files_apart Metra.Sample.crypto "data" "store" pairs).imp_of_mem ?_⟩
  intro point point' hmem hmem' happart
  exact happart firstId secondId (by decide) (hvalid point hmem) (hvalid point' hmem')

end Metra.EndToEnd
