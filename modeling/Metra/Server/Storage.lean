import Metra.Api
import Metra.Paths.UnixPath
import Metra.Receive.Upload
import Metra.Server.Stream

/-!
# Where a transfer is stored

The directory of a tenant's user and the three paths that `handle_quic_stream` works
with, from the data directory and the names in a transfer.

* `paths_confined_iff` — they are entries of that directory, **unless the file name is
  one of the two that name a directory**;
* `finalization_apart_iff` — the final path of a transfer is apart from the staging and
  the checkpoint path of another, **unless the file is named like one of those**.
-/

namespace Metra.Server

/-- `Path::join`. -/
def pathJoin (base name : String) : String := String.ofList (UnixPath.join base.toList name.toList)

/-- The directory of a tenant and a user. -/
def tenantDirFor (dataDir : String) (transfer : TransferSummary) : String :=
  pathJoin (pathJoin dataDir transfer.tenantId) transfer.userId

/-- The staging file is named after the transfer. -/
def stagingName (transferId : Uuid) : String := s!"{transferId}.part"

/-- So is the checkpoint file. -/
def checkpointName (transferId : Uuid) : String := s!"{transferId}.part.meta.json"

/-- Where the staging file is. -/
def stagingPathFor (tenantDir : String) (transferId : Uuid) : String :=
  pathJoin tenantDir (stagingName transferId)

/-- Where the checkpoint file is. -/
def checkpointPathFor (tenantDir : String) (transferId : Uuid) : String :=
  pathJoin tenantDir (checkpointName transferId)

/-- What the streams of a transfer work with. -/
def Context.ofTransfer (crypto : AeadCrypto) (dataDir store : String)
    (transfer : TransferSummary) : Context where
  crypto := crypto
  tenantDir := tenantDirFor dataDir transfer
  staging := stagingPathFor (tenantDirFor dataDir transfer) transfer.transferId
  final := pathJoin (tenantDirFor dataDir transfer) transfer.fileName
  checkpoint := checkpointPathFor (tenantDirFor dataDir transfer) transfer.transferId
  store := store

/-- The files of a transfer. -/
def Context.paths (ctx : Context) : List String := [ctx.final, ctx.staging, ctx.checkpoint]

/-- What a path names. -/
def named (path : String) : UnixPath.Resolved := UnixPath.resolve path.toList

/-! ## The names -/

/-- The characters of a displayed id. -/
theorem mem_hexText {bytes : List UInt8} {c : Char} (h : c ∈ hexText bytes) :
    keepsChar c = true ∧ c ≠ '_' ∧ c ≠ '.' ∧ c ≠ '/' := by
  have hdigit : ∀ n < 16, keepsChar (hexDigit n) = true ∧ hexDigit n ≠ '_' ∧ hexDigit n ≠ '.' ∧
      hexDigit n ≠ '/' := by decide
  obtain ⟨b, -, hb⟩ := List.mem_flatMap.1 h
  have hlt := b.toNat_lt
  rcases List.mem_cons.1 hb with rfl | hb
  · exact hdigit _ (by omega)
  · obtain rfl := List.mem_singleton.1 hb
    exact hdigit _ (by omega)

theorem hexDigit_inj {m n : Nat} (hm : m < 16) (hn : n < 16) (h : hexDigit m = hexDigit n) :
    m = n := by
  have hall : ∀ m < 16, ∀ n < 16, hexDigit m = hexDigit n → m = n := by decide
  exact hall m hm n hn h

theorem hexText_inj {bytes bytes' : List UInt8} (h : hexText bytes = hexText bytes') :
    bytes = bytes' := by
  induction bytes generalizing bytes' with
  | nil =>
    cases bytes' with
    | nil => rfl
    | cons b' bytes' => cases h
  | cons b bytes ih =>
    cases bytes' with
    | nil => cases h
    | cons b' bytes' =>
      simp only [hexText, List.flatMap_cons, List.cons_append, List.nil_append,
        List.cons.injEq] at h
      obtain ⟨hhigh, hlow, hrest⟩ := h
      have hlt := b.toNat_lt
      have hlt' := b'.toNat_lt
      have hdiv := hexDigit_inj (by omega) (by omega) hhigh
      have hmod := hexDigit_inj (by omega) (by omega) hlow
      have hb : b = b' := UInt8.toNat_inj.1 (by omega)
      rw [hb, ih hrest]

theorem length_hexText (bytes : List UInt8) : (hexText bytes).length = 2 * bytes.length := by
  induction bytes with
  | nil => rfl
  | cons b bytes ih =>
    simp only [hexText, List.flatMap_cons, List.length_append, List.length_cons,
      List.length_nil] at ih ⊢
    omega

/-- Some of the bytes of an id, as they are displayed. -/
def Uuid.group (id : Uuid) (start len : Nat) : List Char :=
  hexText ((id.bytes.drop start).take len)

theorem toList_uuid (id : Uuid) : (toString id).toList =
    Uuid.group id 0 4 ++ '-' :: (Uuid.group id 4 2 ++ '-' :: (Uuid.group id 6 2 ++ '-' ::
      (Uuid.group id 8 2 ++ '-' :: Uuid.group id 10 6))) := by
  show ("-".intercalate _).toList = _
  rw [String.toList_intercalate]
  simp [Uuid.group]

theorem mem_uuid {id : Uuid} {c : Char} (h : c ∈ (toString id).toList) :
    keepsChar c = true ∧ c ≠ '_' ∧ c ≠ '.' ∧ c ≠ '/' := by
  rw [toList_uuid] at h
  simp only [List.mem_append, List.mem_cons, Uuid.group] at h
  have hdash : keepsChar '-' = true ∧ '-' ≠ '_' ∧ '-' ≠ '.' ∧ '-' ≠ '/' := by decide
  rcases h with h | rfl | h | rfl | h | rfl | h | rfl | h
  · exact mem_hexText h
  · exact hdash
  · exact mem_hexText h
  · exact hdash
  · exact mem_hexText h
  · exact hdash
  · exact mem_hexText h
  · exact hdash
  · exact mem_hexText h

/-- An id is displayed in its own way. -/
theorem uuid_inj {id id' : Uuid} (h : (toString id).toList = (toString id').toList) : id = id' := by
  have hlen : ∀ start len,
      (Uuid.group id start len).length = (Uuid.group id' start len).length := by
    intro start len
    simp only [Uuid.group, length_hexText, List.length_take, List.length_drop, id.size, id'.size]
  rw [toList_uuid, toList_uuid] at h
  obtain ⟨h₀, h⟩ := List.append_inj h (hlen 0 4)
  obtain ⟨h₁, h⟩ := List.append_inj (List.cons.inj h).2 (hlen 4 2)
  obtain ⟨h₂, h⟩ := List.append_inj (List.cons.inj h).2 (hlen 6 2)
  obtain ⟨h₃, h⟩ := List.append_inj (List.cons.inj h).2 (hlen 8 2)
  have h₄ := (List.cons.inj h).2
  have hjoin : ∀ start len, (id.bytes.drop start).take len = (id'.bytes.drop start).take len →
      id.bytes.drop (start + len) = id'.bytes.drop (start + len) →
      id.bytes.drop start = id'.bytes.drop start := by
    intro start len htake hdrop
    rw [← List.take_append_drop len (id.bytes.drop start),
      ← List.take_append_drop len (id'.bytes.drop start), List.drop_drop, List.drop_drop, htake,
      hdrop]
  have hend : id.bytes.drop 16 = id'.bytes.drop 16 := by
    rw [List.drop_eq_nil_of_le id.size.le, List.drop_eq_nil_of_le id'.size.le]
  have hbytes := hjoin 0 4 (hexText_inj h₀) (hjoin 4 2 (hexText_inj h₁) (hjoin 6 2 (hexText_inj h₂)
    (hjoin 8 2 (hexText_inj h₃) (hjoin 10 6 (hexText_inj h₄) hend))))
  obtain ⟨bytes, hsize⟩ := id
  obtain ⟨bytes', hsize'⟩ := id'
  simpa using hbytes

/-- The names of the files that belong to an upload. -/
theorem isName_of_uuid (id : Uuid) {suffix : List Char} (hne : suffix ≠ [])
    (hsuffix : '/' ∉ suffix) (hlong : 2 < suffix.length) :
    UnixPath.IsName ((toString id).toList ++ suffix) where
  ne_nil h := hne (List.append_eq_nil_iff.1 h).2
  ne_dot h := by
    have hlen := congrArg List.length h
    simp only [List.length_append, UnixPath.dot, List.length_cons, List.length_nil] at hlen
    omega
  ne_dotDot h := by
    have hlen := congrArg List.length h
    simp only [List.length_append, UnixPath.dotDot, List.length_cons, List.length_nil] at hlen
    omega
  no_slash h := by
    rcases List.mem_append.1 h with h | h
    · exact (mem_uuid h).2.2.2 rfl
    · exact hsuffix h

theorem toList_stagingName (id : Uuid) :
    (stagingName id).toList = (toString id).toList ++ ".part".toList := by
  show (toString id ++ ".part").toList = _
  rw [String.toList_append]

theorem toList_checkpointName (id : Uuid) :
    (checkpointName id).toList = (toString id).toList ++ ".part.meta.json".toList := by
  show (toString id ++ ".part.meta.json").toList = _
  rw [String.toList_append]

theorem isName_stagingName (id : Uuid) : UnixPath.IsName (stagingName id).toList := by
  rw [toList_stagingName]
  exact isName_of_uuid id (by decide) (by decide) (by decide)

theorem isName_checkpointName (id : Uuid) : UnixPath.IsName (checkpointName id).toList := by
  rw [toList_checkpointName]
  exact isName_of_uuid id (by decide) (by decide) (by decide)

theorem isName_segment {value : String} (h : isValidStorageIdSegment value = true) :
    UnixPath.IsName value.toList := by
  obtain ⟨hne, hchars⟩ := of_isValidStorageIdSegment h
  refine ⟨hne, fun heq => ?_, fun heq => ?_, fun hslash => (hchars _ hslash).2 rfl⟩
  · exact (hchars '.' (by rw [heq]; decide)).1 rfl
  · exact (hchars '.' (by rw [heq]; decide)).1 rfl

/-! ## The paths -/

@[simp] theorem toList_pathJoin (base name : String) :
    (pathJoin base name).toList = UnixPath.join base.toList name.toList := String.toList_ofList

theorem named_join {base name : String} (h : UnixPath.IsName name.toList) :
    named (pathJoin base name) = (named base).child name.toList := by
  rw [named, toList_pathJoin, UnixPath.resolve_join_name h]
  rfl

variable {crypto : AeadCrypto} {dataDir store : String} {payload : CreateTransferRequest}
  {id : Uuid}

/-- The directory of an accepted transfer. -/
theorem named_tenantDir (dataDir : String) (id : Uuid) (h : payload.validate = .ok ()) :
    named (tenantDirFor dataDir (payload.summary id)) =
      ((named dataDir).child payload.tenantId.toList).child payload.userId.toList := by
  obtain ⟨htenant, huser, -⟩ := CreateTransferRequest.of_validate h
  show named (pathJoin (pathJoin dataDir payload.tenantId) payload.userId) = _
  rw [named_join (isName_segment huser), named_join (isName_segment htenant)]

/-- The paths of a transfer are entries of its directory. -/
def Confined (dataDir : String) (ctx : Context) (transfer : TransferSummary) : Prop :=
  ∀ path ∈ ctx.paths, UnixPath.IsChildOf path.toList (tenantDirFor dataDir transfer).toList

section

theorem keeps_of_all {l : List Char} (h : (l.all fun c => keepsChar c && c != '_') = true) :
    ∀ c ∈ l, keepsChar c = true ∧ c ≠ '_' := by
  simpa using h

/-- The names that a directory goes by. -/
theorem sanitizeFileName_dot_iff (h : payload.validate = .ok ()) :
    (sanitizeFileName payload.fileName).toList = UnixPath.dot ↔ payload.fileName = "." := by
  obtain ⟨-, -, hname, -⟩ := CreateTransferRequest.of_validate h
  rw [sanitizeFileName_eq_iff hname (keeps_of_all (by decide))]
  exact (String.toList_inj : payload.fileName.toList = ".".toList ↔ _)

theorem sanitizeFileName_dotDot_iff (h : payload.validate = .ok ()) :
    (sanitizeFileName payload.fileName).toList = UnixPath.dotDot ↔ payload.fileName = ".." := by
  obtain ⟨-, -, hname, -⟩ := CreateTransferRequest.of_validate h
  rw [sanitizeFileName_eq_iff hname (keeps_of_all (by decide))]
  exact (String.toList_inj : payload.fileName.toList = "..".toList ↔ _)

/-- What is left of a file name is the name of a file, or it was one of the two. -/
theorem isName_fileName (h : payload.validate = .ok ()) (hdot : payload.fileName ≠ ".")
    (hdotDot : payload.fileName ≠ "..") :
    UnixPath.IsName (sanitizeFileName payload.fileName).toList := by
  obtain ⟨-, -, hname, -⟩ := CreateTransferRequest.of_validate h
  obtain ⟨hne, hchars⟩ := mem_sanitizeFileName hname
  refine ⟨hne, ?_, ?_, fun hslash => absurd (hchars _ hslash) (by decide)⟩
  · rwa [Ne, sanitizeFileName_dot_iff h]
  · rwa [Ne, sanitizeFileName_dotDot_iff h]

/-- Where the final path of an accepted transfer leads. -/
inductive FinalName (dataDir : String) (payload : CreateTransferRequest) (id : Uuid) : Prop where
  | name (hname : UnixPath.IsName (sanitizeFileName payload.fileName).toList)
      (hnamed : named (pathJoin (tenantDirFor dataDir (payload.summary id))
        (sanitizeFileName payload.fileName)) =
          (named (tenantDirFor dataDir (payload.summary id))).child
            (sanitizeFileName payload.fileName).toList)
  | dot (hdot : payload.fileName = ".")
      (hnamed : named (pathJoin (tenantDirFor dataDir (payload.summary id))
        (sanitizeFileName payload.fileName)) = named (tenantDirFor dataDir (payload.summary id)))
  | dotDot (hdotDot : payload.fileName = "..")
      (hnamed : named (pathJoin (tenantDirFor dataDir (payload.summary id))
        (sanitizeFileName payload.fileName)) = (named dataDir).child payload.tenantId.toList)

theorem finalName (dataDir : String) (id : Uuid) (h : payload.validate = .ok ()) :
    FinalName dataDir payload id := by
  by_cases hdot : payload.fileName = "."
  · refine .dot hdot ?_
    rw [named, toList_pathJoin, (sanitizeFileName_dot_iff h).2 hdot, UnixPath.resolve_join_dot,
      named]
  · by_cases hdotDot : payload.fileName = ".."
    · refine .dotDot hdotDot ?_
      obtain ⟨-, huser, -⟩ := CreateTransferRequest.of_validate h
      have hparent : (((named dataDir).child payload.tenantId.toList).child
          payload.userId.toList).parent = (named dataDir).child payload.tenantId.toList :=
        UnixPath.Resolved.parent_child (isName_segment huser).ne_dotDot
      rw [named, toList_pathJoin, (sanitizeFileName_dotDot_iff h).2 hdotDot,
        UnixPath.resolve_join_dotDot]
      show (named (tenantDirFor dataDir (payload.summary id))).parent = _
      rw [named_tenantDir dataDir id h, hparent]
    · have hname := isName_fileName h hdot hdotDot
      exact .name hname (named_join hname)

/-- The number of names on the way to a file. -/
def depth (path : UnixPath.Resolved) : Nat := path.names.length

@[simp] theorem depth_child (dir : UnixPath.Resolved) (name : List Char) :
    depth (dir.child name) = depth dir + 1 := rfl

/-- A transfer keeps to its directory, unless its file name is one that a directory goes
by. -/
theorem confined_iff (h : payload.validate = .ok ()) :
    Confined dataDir (.ofTransfer crypto dataDir store (payload.summary id)) (payload.summary id) ↔
      payload.fileName ≠ "." ∧ payload.fileName ≠ ".." := by
  have hdir := named_tenantDir dataDir id h
  constructor
  · intro hconfined
    obtain ⟨name, -, hchild⟩ := hconfined _ (List.mem_cons_self ..)
    have hdepth : depth (named (pathJoin (tenantDirFor dataDir (payload.summary id))
        (sanitizeFileName payload.fileName))) = depth (named dataDir) + 3 := by
      refine (congrArg depth hchild).trans ?_
      rw [depth_child]
      show depth (named _) + 1 = _
      rw [hdir]
      rfl
    rcases finalName dataDir id h with ⟨hname, -⟩ | ⟨-, hnamed⟩ | ⟨-, hnamed⟩
    · constructor
      · intro hdot
        exact hname.ne_dot ((sanitizeFileName_dot_iff h).2 hdot)
      · intro hdotDot
        exact hname.ne_dotDot ((sanitizeFileName_dotDot_iff h).2 hdotDot)
    · rw [hnamed, hdir] at hdepth
      simp at hdepth
    · rw [hnamed] at hdepth
      simp at hdepth
  · rintro ⟨hdot, hdotDot⟩ path hpath
    simp only [Context.paths, List.mem_cons, List.not_mem_nil, or_false] at hpath
    rcases hpath with rfl | rfl | rfl
    · exact ⟨_, isName_fileName h hdot hdotDot, named_join (isName_fileName h hdot hdotDot)⟩
    · exact ⟨_, isName_stagingName _, named_join (isName_stagingName _)⟩
    · exact ⟨_, isName_checkpointName _, named_join (isName_checkpointName _)⟩

/-- Where the paths of a transfer lead: into its directory, but for a final path with a
name that a directory goes by. -/
theorem named_of_mem_paths (h : payload.validate = .ok ()) {path : String}
    (hpath : path ∈ (Context.ofTransfer crypto dataDir store (payload.summary id)).paths) :
    (∃ name, named path =
      (((named dataDir).child payload.tenantId.toList).child payload.userId.toList).child name) ∨
    (payload.fileName = "." ∧ named path =
      ((named dataDir).child payload.tenantId.toList).child payload.userId.toList) ∨
    (payload.fileName = ".." ∧ named path = (named dataDir).child payload.tenantId.toList) := by
  have hdir := named_tenantDir dataDir id h
  simp only [Context.paths, List.mem_cons, List.not_mem_nil, or_false] at hpath
  rcases hpath with rfl | rfl | rfl
  · rcases finalName dataDir id h with ⟨-, hnamed⟩ | ⟨hdot, hnamed⟩ | ⟨hdotDot, hnamed⟩
    · exact .inl ⟨_, hnamed.trans (by rw [hdir])⟩
    · exact .inr (.inl ⟨hdot, hnamed.trans hdir⟩)
    · exact .inr (.inr ⟨hdotDot, hnamed⟩)
  · exact .inl ⟨_, (named_join (isName_stagingName _)).trans (by rw [hdir])⟩
  · exact .inl ⟨_, (named_join (isName_checkpointName _)).trans (by rw [hdir])⟩

/-- A tenant's user shares no path with another, unless both go by the directory of the
tenant. -/
theorem apart_iff {payload' : CreateTransferRequest} {id' : Uuid} (h : payload.validate = .ok ())
    (h' : payload'.validate = .ok ())
    (hne : payload.tenantId ≠ payload'.tenantId ∨ payload.userId ≠ payload'.userId) :
    (∀ path ∈ (Context.ofTransfer crypto dataDir store (payload.summary id)).paths,
      ∀ path' ∈ (Context.ofTransfer crypto dataDir store (payload'.summary id')).paths,
        named path ≠ named path') ↔
      ¬ (payload.tenantId = payload'.tenantId ∧ payload.fileName = ".." ∧
        payload'.fileName = "..") := by
  have hdirs : ((named dataDir).child payload.tenantId.toList).child payload.userId.toList ≠
      ((named dataDir).child payload'.tenantId.toList).child payload'.userId.toList := by
    rw [Ne, UnixPath.Resolved.child_inj, UnixPath.Resolved.child_inj, String.toList_inj,
      String.toList_inj]
    rintro ⟨⟨-, htenant⟩, huser⟩
    rcases hne with hne | hne
    · exact hne htenant
    · exact hne huser
  constructor
  · rintro happart ⟨htenant, hdotDot, hdotDot'⟩
    refine happart _ (List.mem_cons_self ..) _ (List.mem_cons_self ..) ?_
    rcases finalName dataDir id h with ⟨hname, -⟩ | ⟨hdot, -⟩ | ⟨-, hnamed⟩
    · exact absurd ((sanitizeFileName_dotDot_iff h).2 hdotDot) hname.ne_dotDot
    · rw [hdot] at hdotDot
      exact absurd hdotDot (by decide)
    rcases finalName dataDir id' h' with ⟨hname, -⟩ | ⟨hdot, -⟩ | ⟨-, hnamed'⟩
    · exact absurd ((sanitizeFileName_dotDot_iff h').2 hdotDot') hname.ne_dotDot
    · rw [hdot] at hdotDot'
      exact absurd hdotDot' (by decide)
    exact hnamed.trans ((congrArg _ (by rw [htenant])).trans hnamed'.symm)
  · intro hnot path hpath path' hpath' heq
    have hdepth := congrArg depth heq
    -- entries, directories of users and directories of tenants are at different depths
    rcases named_of_mem_paths h hpath with ⟨name, hp⟩ | ⟨-, hp⟩ | ⟨hdotDot, hp⟩ <;>
      rcases named_of_mem_paths h' hpath' with ⟨name', hp'⟩ | ⟨-, hp'⟩ | ⟨hdotDot', hp'⟩ <;>
      rw [hp, hp'] at heq hdepth <;> simp only [depth_child] at hdepth <;> try omega
    · exact hdirs (UnixPath.Resolved.child_inj.1 heq).1
    · exact hdirs heq
    · exact hnot ⟨String.toList_inj.1 (UnixPath.Resolved.child_inj.1 heq).2, hdotDot, hdotDot'⟩

/-- **Storage confinement and tenant isolation**: a transfer keeps to the directory of its
tenant's user unless its file name is `.` or `..`, and shares no path with another tenant's
user unless both are of one tenant and have the file name `..`. -/
theorem paths_confined_iff (crypto : AeadCrypto) (dataDir store : String)
    (payload payload' : CreateTransferRequest) (id id' : Uuid) (h : payload.validate = .ok ())
    (h' : payload'.validate = .ok ()) :
    (Confined dataDir (.ofTransfer crypto dataDir store (payload.summary id))
        (payload.summary id) ↔ payload.fileName ≠ "." ∧ payload.fileName ≠ "..") ∧
    (payload.tenantId ≠ payload'.tenantId ∨ payload.userId ≠ payload'.userId →
      ((∀ path ∈ (Context.ofTransfer crypto dataDir store (payload.summary id)).paths,
        ∀ path' ∈ (Context.ofTransfer crypto dataDir store (payload'.summary id')).paths,
          named path ≠ named path') ↔
        ¬ (payload.tenantId = payload'.tenantId ∧ payload.fileName = ".." ∧
          payload'.fileName = ".."))) :=
  ⟨confined_iff h, apart_iff h h'⟩

/-! ## The files of other transfers -/

theorem length_uuid (id : Uuid) : (toString id).toList.length = 36 := by
  rw [toList_uuid]
  simp only [List.length_append, List.length_cons, Uuid.group, length_hexText, List.length_take,
    List.length_drop, id.size]
  omega

/-- The names that belong to an upload tell its id. -/
theorem suffixed_inj {id' : Uuid} {suffix suffix' : List Char}
    (h : (toString id).toList ++ suffix = (toString id').toList ++ suffix') :
    id = id' ∧ suffix = suffix' := by
  obtain ⟨hid, hsuffix⟩ := List.append_inj h (by rw [length_uuid, length_uuid])
  exact ⟨uuid_inj hid, hsuffix⟩

/-- Only a file name itself is stored as a name that belongs to an upload. -/
theorem sanitizeFileName_suffixed_iff (h : payload.validate = .ok ()) (id : Uuid) {name : String}
    {suffix : List Char} (hname : name.toList = (toString id).toList ++ suffix)
    (hsuffix : ∀ c ∈ suffix, keepsChar c = true ∧ c ≠ '_') :
    (sanitizeFileName payload.fileName).toList = name.toList ↔ payload.fileName = name := by
  obtain ⟨-, -, hblank, -⟩ := CreateTransferRequest.of_validate h
  rw [sanitizeFileName_eq_iff hblank, String.toList_inj]
  intro c hc
  rw [hname] at hc
  rcases List.mem_append.1 hc with hc | hc
  · exact ⟨(mem_uuid hc).1, (mem_uuid hc).2.1⟩
  · exact hsuffix c hc

/-- The final path of a transfer is that of a file of an upload when the directories and
the names are the same. -/
theorem named_final_eq_iff (dataDir : String) (id : Uuid) {payload' : CreateTransferRequest}
    {id' : Uuid} (h : payload.validate = .ok ()) (h' : payload'.validate = .ok ()) {name : String}
    {suffix : List Char} (hname : name.toList = (toString id').toList ++ suffix)
    (hsuffix : ∀ c ∈ suffix, keepsChar c = true ∧ c ≠ '_') (hisName : UnixPath.IsName name.toList) :
    named (pathJoin (tenantDirFor dataDir (payload.summary id))
        (sanitizeFileName payload.fileName)) =
        named (pathJoin (tenantDirFor dataDir (payload'.summary id')) name) ↔
      payload.tenantId = payload'.tenantId ∧ payload.userId = payload'.userId ∧
        payload.fileName = name := by
  have hdir := named_tenantDir dataDir id h
  have hdir' := named_tenantDir dataDir id' h'
  rw [named_join hisName, hdir']
  rcases finalName dataDir id h with ⟨-, hnamed⟩ | ⟨hdot, hnamed⟩ | ⟨hdotDot, hnamed⟩
  · rw [hnamed, hdir, UnixPath.Resolved.child_inj, UnixPath.Resolved.child_inj,
      UnixPath.Resolved.child_inj, sanitizeFileName_suffixed_iff h id' hname hsuffix,
      String.toList_inj, String.toList_inj, and_assoc, and_assoc]
    exact and_iff_right rfl
  · rw [hnamed, hdir]
    refine iff_of_false (fun heq => ?_) ?_
    · have hdepth := congrArg depth heq
      simp at hdepth
    · rintro ⟨-, -, heq⟩
      rw [← heq, hdot] at hisName
      exact hisName.ne_dot rfl
  · rw [hnamed]
    refine iff_of_false (fun heq => ?_) ?_
    · have hdepth := congrArg depth heq
      simp at hdepth
    · rintro ⟨-, -, heq⟩
      rw [← heq, hdotDot] at hisName
      exact hisName.ne_dotDot rfl

/-- Files that belong to uploads are of one upload when they are the same. -/
theorem upload_named_inj {dir dir' name name' : String} {id' : Uuid} {suffix suffix' : List Char}
    (hname : name.toList = (toString id).toList ++ suffix)
    (hname' : name'.toList = (toString id').toList ++ suffix')
    (hisName : UnixPath.IsName name.toList)
    (hisName' : UnixPath.IsName name'.toList)
    (h : named (pathJoin dir name) = named (pathJoin dir' name')) : id = id' := by
  rw [named_join hisName, named_join hisName', UnixPath.Resolved.child_inj, hname, hname'] at h
  exact (suffixed_inj h.2).1

/-- A file that is named like the staging file or the checkpoint of another upload of the
same tenant's user. -/
def CollidesWith (payload payload' : CreateTransferRequest) (id' : Uuid) : Prop :=
  payload.tenantId = payload'.tenantId ∧ payload.userId = payload'.userId ∧
    (payload.fileName = stagingName id' ∨ payload.fileName = checkpointName id')

/-- The path is apart from the staging and the checkpoint path of a transfer. -/
def ApartFrom (path : String) (ctx : Context) : Prop :=
  named path ≠ named ctx.staging ∧ named path ≠ named ctx.checkpoint

theorem final_apart_iff {payload' : CreateTransferRequest} {id' : Uuid}
    (h : payload.validate = .ok ()) (h' : payload'.validate = .ok ()) :
    ApartFrom (Context.ofTransfer crypto dataDir store (payload.summary id)).final
        (.ofTransfer crypto dataDir store (payload'.summary id')) ↔
      ¬ CollidesWith payload payload' id' := by
  have hstaging := named_final_eq_iff dataDir id h h'
    (toList_stagingName id') (keeps_of_all (by decide)) (isName_stagingName id')
  have hcheckpoint := named_final_eq_iff dataDir id h h'
    (toList_checkpointName id') (keeps_of_all (by decide)) (isName_checkpointName id')
  rw [CollidesWith, and_or_left, and_or_left, ← hstaging, ← hcheckpoint, not_or]
  exact Iff.rfl

/-- **What finalizing a transfer removes or renames** is apart from the staging file and
the checkpoint of another one, unless its file is named like one of those. -/
theorem finalization_apart_iff (crypto : AeadCrypto) (dataDir store : String)
    (payload payload' : CreateTransferRequest) (id id' : Uuid) (h : payload.validate = .ok ())
    (h' : payload'.validate = .ok ()) :
    (ApartFrom (Context.ofTransfer crypto dataDir store (payload.summary id)).final
        (.ofTransfer crypto dataDir store (payload'.summary id')) ↔
      ¬ CollidesWith payload payload' id') ∧
    (id ≠ id' →
      ((∀ path ∈ (Context.ofTransfer crypto dataDir store (payload.summary id)).paths,
        ApartFrom path (.ofTransfer crypto dataDir store (payload'.summary id'))) ↔
      ¬ CollidesWith payload payload' id')) := by
  refine ⟨final_apart_iff h h', fun hid => ⟨fun happart => ?_, fun hnot path hpath => ?_⟩⟩
  · exact (final_apart_iff h h').1 (happart _ (List.mem_cons_self ..))
  · simp only [Context.paths, List.mem_cons, List.not_mem_nil, or_false] at hpath
    rcases hpath with rfl | rfl | rfl
    · exact (final_apart_iff h h').2 hnot
    · refine ⟨fun heq => ?_, fun heq => ?_⟩
      · exact hid (upload_named_inj (toList_stagingName id) (toList_stagingName id')
          (isName_stagingName id) (isName_stagingName id') heq)
      · exact hid (upload_named_inj (toList_stagingName id) (toList_checkpointName id')
          (isName_stagingName id) (isName_checkpointName id') heq)
    · refine ⟨fun heq => ?_, fun heq => ?_⟩
      · exact hid (upload_named_inj (toList_checkpointName id) (toList_stagingName id')
          (isName_checkpointName id) (isName_stagingName id') heq)
      · exact hid (upload_named_inj (toList_checkpointName id) (toList_checkpointName id')
          (isName_checkpointName id) (isName_checkpointName id') heq)

end

/-! ## Names that lead elsewhere -/

namespace Scenario

/-- A request of a tenant's user for a file. -/
def request (tenantId userId fileName : String) : CreateTransferRequest where
  tenantId := tenantId
  userId := userId
  sourceUri := "file:///a.bin"
  destinationUri := "file:///a.bin"
  fileName := fileName
  fileSizeBytes := 2
  resumeChunkSizeBytes := Metra.resumeChunkSizeBytes
  overwrite := true
  immutableDestination := false

theorem validate_request {tenantId userId fileName : String}
    (htenant : isValidStorageIdSegment tenantId = true)
    (huser : isValidStorageIdSegment userId = true) (hname : isBlank fileName = false) :
    (request tenantId userId fileName).validate = .ok () := by
  have hsource : isBlank "file:///a.bin" = false := by decide
  simp [CreateTransferRequest.validate, request, htenant, huser, hname, hsource,
    transferFileSizeMaxBytes]

/-- Two ids of version 4. -/
def firstId : Uuid := ⟨[0xc2, 0x40, 0x19, 0xd3, 0x55, 0x6e, 0x4b, 0x0f, 0x8a, 0x77, 0x03, 0x91,
  0xee, 0x2c, 0x64, 0xb8], rfl⟩

/-- Another one. -/
def secondId : Uuid := ⟨[0x5c, 0x1f, 0x0b, 0x7e, 0x6b, 0x0a, 0x4d, 0x52, 0x9c, 0x3e, 0x2f, 0x8a,
  0x1d, 0x4e, 0x7b, 0x90], rfl⟩

/-- What the streams of a transfer work with that a request has created. -/
def created (payload : CreateTransferRequest) (id : Uuid) : Context :=
  .ofTransfer Metra.Sample.crypto "data" "store" (payload.summary id)

end Scenario

open Scenario in
/-- Plain file names of two users. -/
theorem paths_confined_sample :
    Confined "data" (created (request "t" "u" "a.bin") firstId)
        ((request "t" "u" "a.bin").summary firstId) ∧
      ∀ path ∈ (created (request "t" "u" "a.bin") firstId).paths,
        ∀ path' ∈ (created (request "t" "v" "a.bin") secondId).paths,
          named path ≠ named path' := by
  have hall := paths_confined_iff Metra.Sample.crypto "data" "store" (request "t" "u" "a.bin")
    (request "t" "v" "a.bin") firstId secondId
    (validate_request (by decide) (by decide) (by decide))
    (validate_request (by decide) (by decide) (by decide))
  exact ⟨hall.1.2 (by decide), (hall.2 (by decide)).2 (by decide)⟩

open Scenario in
/-- The file name `..` is accepted, and two users of a tenant have one final path: the
directory of the tenant. -/
theorem final_path_outside :
    (request "t" "u" "..").validate = .ok () ∧ (request "t" "v" "..").validate = .ok () ∧
      ¬ Confined "data" (created (request "t" "u" "..") firstId)
        ((request "t" "u" "..").summary firstId) ∧
      named (created (request "t" "u" "..") firstId).final =
        named (created (request "t" "v" "..") secondId).final := by
  have h : (request "t" "u" "..").validate = .ok () :=
    validate_request (by decide) (by decide) (by decide)
  refine ⟨h, validate_request (by decide) (by decide) (by decide), fun hconfined => ?_, ?_⟩
  · exact absurd ((confined_iff h).1 hconfined) (by decide)
  · decide +kernel

open Scenario in
/-- A file that is named after nobody's upload. -/
theorem finalization_apart_sample :
    ApartFrom (created (request "t" "u" "a.part") firstId).final
      (created (request "t" "u" "a.bin") secondId) := by
  refine (finalization_apart_iff Metra.Sample.crypto "data" "store" (request "t" "u" "a.part")
    (request "t" "u" "a.bin") firstId secondId
    (validate_request (by decide) (by decide) (by decide))
    (validate_request (by decide) (by decide) (by decide))).1.2 ?_
  rintro ⟨-, -, h | h⟩
  · exact absurd h (by decide +kernel)
  · exact absurd h (by decide +kernel)

open Scenario in
/-- A file that is named like the staging file of another upload: finalizing it removes
that file and takes its place. -/
theorem finalized_over_staging :
    (request "t" "u" "5c1f0b7e-6b0a-4d52-9c3e-2f8a1d4e7b90.part").validate = .ok () ∧
      (request "t" "u" "a.bin").validate = .ok () ∧
      ¬ ApartFrom (created (request "t" "u" "5c1f0b7e-6b0a-4d52-9c3e-2f8a1d4e7b90.part")
          firstId).final
        (created (request "t" "u" "a.bin") secondId) := by
  refine ⟨validate_request (by decide) (by decide) (by decide),
    validate_request (by decide) (by decide) (by decide), fun happart => happart.1 ?_⟩
  decide +kernel

end Metra.Server
