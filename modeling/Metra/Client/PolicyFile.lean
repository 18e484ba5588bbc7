import Metra.Bytes.FileData
import Metra.Client.Policy
import Metra.Interleave.Protocol
import Metra.Keyed.Table

/-!
# The policy files

`upsert_lane_policy_entry` and `upsert_runtime_policy_entry`: read the whole
store, put an entry into it, and write the whole store back, over the
operations of the file system that this takes (`PolicyOp`).  Nothing keeps two
processes from doing so at once.

* `sound_upsertPolicyEntry` — a call that returns has put its entry into the
  store that it found;
* `upserts_stored` — after calls one after the other the file holds the table that they make;
* `policies_are_maps` — **the stores are finite maps**, which what is selected shows.
-/

namespace Metra.Client

open Interleave Keyed

/-! ## The file -/

/-- The operations of a call; creating the file empties it. -/
inductive PolicyOp
  | read
  | now
  | createDirAll
  | create
  | writeAll (payload : List UInt8)

/-- What keeps a file from being read (`io::ErrorKind`). -/
inductive PolicyReadError
  | notFound
  | other

/-- What the calls to a policy file give back. -/
@[reducible] def PolicyOp.Reply : PolicyOp → Type
  | .read => Except PolicyReadError (List UInt8)
  | .now => Int
  | _ => Option Unit

/-- How an operation ends, and what the clock shows; a failing write has written some bytes,
but not all. -/
structure PolicyChoice where
  now : Int
  ioError : Option Nat
  deriving DecidableEq

/-- The policy file, what every process has found in it, the processes that have emptied
it and not written it since, and those that have written it, in their order. -/
structure PolicyDisk where
  file : Option (List UInt8)
  seen : Nat → Option (List UInt8)
  unfinished : List Nat
  written : List Nat

namespace PolicyDisk

/-- A disk on which no process has done anything yet. -/
def start (file : Option (List UInt8)) : PolicyDisk := ⟨file, fun _ => none, [], []⟩

/-- What a process finds that reads the file. -/
def found (d : PolicyDisk) : Except PolicyReadError (List UInt8) :=
  match d.file with
  | some payload => .ok payload
  | none => .error .notFound

/-- Write at the beginning of the file. -/
def write (d : PolicyDisk) (payload : List UInt8) : PolicyDisk :=
  { d with file := d.file.map (Bytes.writeAt 0 payload) }

end PolicyDisk

/-- What the calls do to the disk; a write that fails may have written a part. -/
def policyExec (t : Nat) : (o : PolicyOp) → PolicyChoice → PolicyDisk →
    Option (o.Reply × PolicyDisk)
  | .read, ⟨_, none⟩, d =>
    some (d.found, { d with seen := Function.update d.seen t d.file })
  | .read, ⟨_, some _⟩, d => some (.error .other, d)
  | .now, c, d => some (c.now, d)
  | .createDirAll, ⟨_, none⟩, d => some (some (), d)
  | .create, ⟨_, none⟩, d =>
    some (some (), { d with file := some [], unfinished := t :: d.unfinished })
  | .writeAll payload, ⟨_, none⟩, d =>
    some (some (), { d.write payload with
      unfinished := d.unfinished.erase t, written := d.written ++ [t] })
  | .writeAll payload, ⟨_, some n⟩, d =>
    some (none, d.write (payload.take (min n (payload.length - 1))))
  | .createDirAll, ⟨_, some _⟩, d | .create, ⟨_, some _⟩, d => some (none, d)

/-- The disk, with any number of processes. -/
def policyMachine : Machine Nat PolicyOp PolicyOp.Reply PolicyChoice PolicyDisk := ⟨policyExec⟩

/-! ## The calls -/

/-- How the path of the store is displayed, and its parent, if it has one. -/
structure PolicyPath where
  display : String
  parent : Option String

section

variable {Entry Profile : Type} (kind : PolicyKind Entry Profile)

/-- The comparator that the entries are sorted by. -/
def comparePolicyEntries (left right : Entry) : Ordering :=
  ((((compare (kind.noDisk (kind.profile left)) (kind.noDisk (kind.profile right))).then
    (compare (kind.count (kind.profile left)) (kind.count (kind.profile right)))).then
    (compare (kind.sizeGib (kind.profile left)) (kind.sizeGib (kind.profile right)))).then
    (compare (kind.ioChunkBytes (kind.profile left)) (kind.ioChunkBytes (kind.profile right)))).then
    (compare (kind.tunedAt right) (kind.tunedAt left))

/-- The entries with one put in the place of that of its workload, in the order of the file. -/
def putPolicyEntry [DecidableEq Profile] (entry : Entry) (entries : List Entry) : List Entry :=
  sortBy (comparePolicyEntries kind) (put kind.profile entry entries)

/-- The store of a file that is not there. -/
def defaultPolicyStore (now : Int) : PolicyStore Entry := ⟨kind.schemaVersion, now, []⟩

variable (serde : Serde (PolicyStore Entry)) (path : PolicyPath)

/-- A call that does not fail. -/
def performPolicy (o : PolicyOp) : TryProg PolicyOp PolicyOp.Reply String o.Reply :=
  liftM (Prog.perform o : Prog PolicyOp PolicyOp.Reply o.Reply)

/-- The store that a call starts from. -/
def loadPolicyStore : TryProg PolicyOp PolicyOp.Reply String (PolicyStore Entry) := do
  let found ← performPolicy .read
  match found with
  | .ok payload =>
    TryProg.ofExcept
      (okOr s!"failed parsing {kind.name} JSON {path.display}" (serde.fromSlice payload))
  | .error .notFound => do
    let now ← performPolicy .now
    pure (defaultPolicyStore kind now)
  | .error .other => TryProg.fail s!"failed reading {kind.name} {path.display}"

/-- The directory of the file is made, if the path has one. -/
def createPolicyDir : TryProg PolicyOp PolicyOp.Reply String Unit :=
  match path.parent with
  | some parent => TryProg.orFail s!"failed creating {parent}" (Prog.perform PolicyOp.createDirAll)
  | none => pure ()

/-- `fs::write`: create the file, or empty it, and write the payload. -/
def writePolicyFile (payload : List UInt8) : TryProg PolicyOp PolicyOp.Reply String Unit := do
  TryProg.orFail s!"failed writing {kind.name} {path.display}" (Prog.perform PolicyOp.create)
  TryProg.orFail s!"failed writing {kind.name} {path.display}"
    (Prog.perform (PolicyOp.writeAll payload))

/-- **What an update does**: the file is read, and written anew with the entry put in. -/
def upsertPolicyEntry [DecidableEq Profile] (entry : Entry) :
    TryProg PolicyOp PolicyOp.Reply String Unit := do
  TryProg.ofExcept (kind.validate entry)
  let store ← loadPolicyStore kind serde path
  let updatedAt ← performPolicy .now
  createPolicyDir path
  let payload ← TryProg.ofExcept (okOr s!"failed serializing {kind.name} JSON"
    (serde.toVec ⟨kind.schemaVersion, updatedAt, putPolicyEntry kind entry store.entries⟩))
  writePolicyFile kind path payload

end

/-- The update of the lane policy file. -/
def upsertLanePolicyEntry (serde : Serde LanePolicyStore) (path : PolicyPath)
    (entry : LanePolicyEntry) : TryProg PolicyOp PolicyOp.Reply String Unit :=
  upsertPolicyEntry lanePolicy serde path entry

/-- The update of the runtime policy file. -/
def upsertRuntimePolicyEntry (serde : Serde RuntimePolicyStore) (path : PolicyPath)
    (entry : RuntimePolicyEntry) : TryProg PolicyOp PolicyOp.Reply String Unit :=
  upsertPolicyEntry runtimePolicy serde path entry

/-! ## What a call does -/

section

variable {Entry Profile : Type} [DecidableEq Profile] (kind : PolicyKind Entry Profile)
  (serde : Serde (PolicyStore Entry))

/-- The entries that a call finds in the file, if there is one. -/
def entriesOf : Option (List UInt8) → Option (List Entry)
  | none => some []
  | some payload => (serde.fromSlice payload).map PolicyStore.entries

/-- `payload` is what a call for `entry` makes of what it has found. -/
def Makes (entry : Entry) (found : Option (List UInt8)) (payload : List UInt8) : Prop :=
  ∃ now entries, entriesOf serde found = some entries ∧
    serde.toVec ⟨kind.schemaVersion, now, putPolicyEntry kind entry entries⟩ = some payload

/-- How far a call has got, with what it has found. -/
inductive PolicyPoint
  | start
  | loaded (found : Option (List UInt8))
  | emptied (found : Option (List UInt8))
  | written (found : Option (List UInt8))
  | failed

/-- What a call for `entry` may do at its points. -/
def policyProtocol (entry : Entry) : Protocol PolicyOp PolicyOp.Reply PolicyPoint where
  enabled
    | .start, .read => True
    | .loaded _, .now | .loaded _, .createDirAll => True
    | .loaded found, .create => ∃ entries, entriesOf serde found = some entries
    | .emptied found, .writeAll payload => Makes kind serde entry found payload
    | _, _ => False
  possible _ _ _ := True
  advance
    | .start, .read, .ok payload => .loaded (some payload)
    | .start, .read, .error .notFound => .loaded none
    | .loaded found, .create, some _ => .emptied found
    | .emptied found, .writeAll _, some _ => .written found
    | .loaded found, .now, _ | .loaded found, .createDirAll, some _ => .loaded found
    | _, _, _ => .failed

theorem advance_found (entry : Entry) (d : PolicyDisk) :
    (policyProtocol kind serde entry).advance .start .read d.found = .loaded d.file := by
  unfold PolicyDisk.found
  cases d.file <;> rfl

/-- Where a call ends. -/
def PolicyEnds (entry : Entry) : Except String Unit → PolicyPoint → Prop
  | .ok _, pt => kind.validate entry = .ok () ∧ ∃ found, pt = .written found
  | .error _, _ => True

variable {kind serde} {path : PolicyPath} {entry : Entry}

theorem obeys_loadPolicyStore :
    (loadPolicyStore kind serde path).toProg.Obeys (policyProtocol kind serde entry)
      (fun r pt => ∀ store, r = .ok store →
        ∃ found, pt = .loaded found ∧ entriesOf serde found = some store.entries) .start := by
  refine Prog.Obeys.liftBind trivial fun found _ => ?_
  cases found with
  | ok payload =>
    intro store hstore
    refine ⟨some payload, rfl, ?_⟩
    cases hparse : serde.fromSlice payload with
    | none =>
      rw [hparse] at hstore
      cases hstore
    | some store' =>
      rw [hparse] at hstore
      cases hstore
      rw [entriesOf, hparse]
      rfl
  | error e =>
    cases e with
    | notFound =>
      refine Prog.Obeys.liftBind trivial fun now _ => ?_
      rintro store ⟨⟩
      exact ⟨none, rfl, rfl⟩
    | other =>
      rintro store ⟨⟩

theorem obeys_createPolicyDir {found : Option (List UInt8)} :
    (createPolicyDir path).toProg.Obeys (policyProtocol kind serde entry)
      (fun r pt => r = .ok () → pt = .loaded found) (.loaded found) := by
  unfold createPolicyDir
  cases path.parent with
  | none => exact fun _ => rfl
  | some parent =>
    refine Prog.Obeys.orFail ⟨trivial, fun r _ => ?_⟩
    cases r with
    | none => rintro ⟨⟩
    | some _ => exact fun _ => rfl

theorem obeys_writePolicyFile {found : Option (List UInt8)} {entries : List Entry}
    {payload : List UInt8} (hfound : entriesOf serde found = some entries)
    (hmakes : Makes kind serde entry found payload) :
    (writePolicyFile kind path payload).toProg.Obeys (policyProtocol kind serde entry)
      (fun r pt => r = .ok () → pt = .written found) (.loaded found) := by
  refine Prog.Obeys.tryBind (Q := fun r pt => r = .ok () → pt = .emptied found)
    (Prog.Obeys.orFail ⟨⟨entries, hfound⟩, fun r _ => ?_⟩) ?_ ?_
  · cases r with
    | none => rintro ⟨⟩
    | some _ => exact fun _ => rfl
  · intro _ pt hpt
    cases hpt rfl
    refine Prog.Obeys.orFail ⟨hmakes, fun r _ => ?_⟩
    cases r with
    | none => rintro ⟨⟩
    | some _ => exact fun _ => rfl
  · rintro _ _ _ ⟨⟩

/-- **A call keeps to the protocol**, and has written the file when it returns. -/
theorem obeys_upsertPolicyEntry :
    (upsertPolicyEntry kind serde path entry).toProg.Obeys (policyProtocol kind serde entry)
      (PolicyEnds kind entry) .start := by
  refine Prog.Obeys.tryBind
    (Q := fun r pt => pt = .start ∧ (r = .ok () → kind.validate entry = .ok ()))
    ⟨rfl, fun h => h⟩ ?_ fun _ _ _ => trivial
  rintro _ _ ⟨rfl, hvalid⟩
  refine Prog.Obeys.tryBind obeys_loadPolicyStore ?_ fun _ _ _ => trivial
  intro store pt hloaded
  obtain ⟨found, rfl, hfound⟩ := hloaded store rfl
  refine Prog.Obeys.liftBind trivial fun updatedAt _ => ?_
  refine Prog.Obeys.tryBind obeys_createPolicyDir ?_ fun _ _ _ => trivial
  intro _ pt hpt
  cases hpt rfl
  refine Prog.Obeys.tryBind
    (Q := fun r pt => pt = .loaded found ∧
      ∀ payload, r = .ok payload → Makes kind serde entry found payload)
    ⟨rfl, fun payload hpayload => ?_⟩ ?_ fun _ _ _ => trivial
  · refine ⟨updatedAt, store.entries, hfound, ?_⟩
    cases hjson : serde.toVec ⟨kind.schemaVersion, updatedAt,
        putPolicyEntry kind entry store.entries⟩ with
    | none =>
      rw [hjson] at hpayload
      cases hpayload
    | some json =>
      rw [hjson] at hpayload
      cases hpayload
      rfl
  · rintro payload _ ⟨rfl, hmakes⟩
    refine (obeys_writePolicyFile hfound (hmakes payload rfl)).mono fun r pt hpt => ?_
    cases r with
    | ok _ => exact ⟨hvalid rfl, found, hpt rfl⟩
    | error _ => trivial

/-- What is known of the file at a point of a call that runs alone, from what it found. -/
def PolicyAt (kind : PolicyKind Entry Profile) (serde : Serde (PolicyStore Entry)) (entry : Entry)
    (file : Option (List UInt8)) : PolicyPoint → PolicyDisk → Prop
  | .start, d => d.file = file
  | .loaded found, d => found = file ∧ d.file = file
  | .emptied found, d => found = file ∧ d.file = some []
  | .written found, d => found = file ∧
    ∃ payload, Makes kind serde entry file payload ∧ d.file = some payload
  | .failed, _ => True

theorem writeAt_zero_nil (payload : List UInt8) : Bytes.writeAt 0 payload [] = payload := by
  cases payload with
  | nil => rfl
  | cons b payload => simp [Bytes.writeAt]

/-- **A call that runs alone and returns** has written what it makes of what it found. -/
theorem sound_upsertPolicyEntry {t : Nat} {file : Option (List UInt8)} :
    (upsertPolicyEntry kind serde path entry).toProg.Sound policyMachine t (fun d => d.file = file)
      fun r d => r = .ok () → kind.validate entry = .ok () ∧
        ∃ payload, Makes kind serde entry file payload ∧ d.file = some payload := by
  have hobeys : (upsertPolicyEntry kind serde path entry).toProg.Obeys
    (policyProtocol kind serde entry) (PolicyEnds kind entry) .start := obeys_upsertPolicyEntry
  refine (hobeys.sound (I := PolicyAt kind serde entry file) ?_).post ?_
  · rintro pt o ⟨now, ioError⟩ d r d' hat henabled hexec
    refine ⟨trivial, ?_⟩
    cases pt with
    | start =>
      cases o with
      | read =>
        cases ioError with
        | none =>
          cases hexec
          rw [advance_found]
          exact ⟨hat, hat⟩
        | some _ =>
          cases hexec
          trivial
      | _ => cases henabled
    | loaded found =>
      cases o with
      | now =>
        cases hexec
        exact hat
      | createDirAll =>
        cases ioError <;> cases hexec
        · exact hat
        · trivial
      | create =>
        cases ioError <;> cases hexec
        · exact ⟨hat.1, rfl⟩
        · trivial
      | _ => cases henabled
    | emptied found =>
      cases o with
      | writeAll payload =>
        cases ioError <;> cases hexec
        · obtain ⟨rfl, hfile⟩ := hat
          refine ⟨rfl, payload, henabled, ?_⟩
          simp only [PolicyDisk.write, hfile, Option.map_some, writeAt_zero_nil]
        · trivial
      | _ => cases henabled
    | _ => cases o <;> cases henabled
  · rintro r d ⟨pt, hends, hat⟩ rfl
    obtain ⟨hvalid, found, rfl⟩ := hends
    exact ⟨hvalid, hat.2⟩

end

/-! ## Calls one after the other -/

section

variable {Entry Profile : Type} (kind : PolicyKind Entry Profile)

/-- The four fields of a profile, in the order in which entries are sorted by them. -/
def profileKey (p : Profile) : ((Bool ×ₗ ℕ) ×ₗ ℕ) ×ₗ ℕ :=
  toLex (toLex (toLex (kind.noDisk p, kind.count p), kind.sizeGib p), kind.ioChunkBytes p)

/-- What entries are sorted by: their profile, and of one profile the newest first. -/
def policyRank (e : Entry) : (((Bool ×ₗ ℕ) ×ₗ ℕ) ×ₗ ℕ) ×ₗ ℤᵒᵈ :=
  toLex (profileKey kind (kind.profile e), OrderDual.toDual (kind.tunedAt e))

theorem comparePolicyEntries_comparesBy :
    ComparesBy (comparePolicyEntries kind) (policyRank kind) :=
  ((((ComparesBy.field _).andThen (ComparesBy.field _)).andThen
    (ComparesBy.field _)).andThen (ComparesBy.field _)).andThen (ComparesBy.field _).swap

variable {kind}

theorem profileKey_inj {p q : Profile} (h : profileKey kind p = profileKey kind q) : p = q := by
  simp only [profileKey, toLex_inj, Prod.mk.injEq] at h
  obtain ⟨⟨⟨hdisk, hcount⟩, hsize⟩, hchunk⟩ := h
  exact kind.profile_ext p q hsize hcount hchunk hdisk

theorem profile_eq_of_policyRank {a b : Entry} (h : policyRank kind a = policyRank kind b) :
    kind.profile a = kind.profile b :=
  profileKey_inj (congrArg (fun rank => (ofLex rank).1) h)

variable [DecidableEq Profile]

/-- The table that storing entries one after the other makes. -/
def policyTable (kind : PolicyKind Entry Profile) (es : List Entry) :
    Table kind.profile (policyRank kind) :=
  Table.upsertAll (comparePolicyEntries_comparesBy kind) Table.empty es

theorem policyTable_append (es : List Entry) (e : Entry) :
    (policyTable kind (es ++ [e])).entries =
      putPolicyEntry kind e (policyTable kind es).entries := by
  rw [policyTable, Table.upsertAll, List.foldl_append]
  rfl

/-- The profiles of the table are strictly ascending. -/
theorem policyTable_ascending (es : List Entry) :
    (policyTable kind es).entries.Pairwise fun a b =>
      profileKey kind (kind.profile a) < profileKey kind (kind.profile b) := by
  have hnodup := List.pairwise_map.1 (policyTable kind es).nodup
  refine ((policyTable kind es).sorted.and hnodup).imp fun {a b} h => ?_
  rcases Prod.Lex.le_iff.1 h.1 with hlt | ⟨heq, -⟩
  · exact hlt
  · exact absurd (profileKey_inj heq) h.2

/-- Calls of `upsert` one after the other, which all return, of any processes; before the
first one there is no file. -/
inductive Upserts (upsert : Entry → TryProg PolicyOp PolicyOp.Reply String Unit) :
    List Entry → PolicyDisk → Prop
  | start : Upserts upsert [] (PolicyDisk.start none)
  | snoc {es : List Entry} {e : Entry} {d d' : PolicyDisk} {t : Nat} (h : Upserts upsert es d)
      (hcall : Prog.Eval policyMachine t (upsert e).toProg d (.ok ()) d') :
      Upserts upsert (es ++ [e]) d'

variable {serde : Serde (PolicyStore Entry)} {path : PolicyPath}

/-- A call that returns has put its entry into the entries it has found. -/
theorem entriesOf_upsert (hserde : serde.RoundTrips) {t : Nat} {e : Entry} {d d' : PolicyDisk}
    (hcall : Prog.Eval policyMachine t (upsertPolicyEntry kind serde path e).toProg d (.ok ()) d') :
    ∃ entries, entriesOf serde d.file = some entries ∧
      entriesOf serde d'.file = some (putPolicyEntry kind e entries) ∧
      kind.validate e = .ok () := by
  obtain ⟨hvalid, payload, ⟨now, entries, hentries, hjson⟩, hfile⟩ :=
    sound_upsertPolicyEntry d _ d' rfl hcall rfl
  refine ⟨entries, hentries, ?_, hvalid⟩
  rw [hfile, entriesOf, hserde.fromSlice_toVec _ _ hjson]
  rfl

/-- **The file holds the table that the calls make.** -/
theorem upserts_stored (hserde : serde.RoundTrips) {es : List Entry} {d : PolicyDisk}
    (h : Upserts (upsertPolicyEntry kind serde path) es d) :
    entriesOf serde d.file = some (policyTable kind es).entries := by
  induction h with
  | start => rfl
  | snoc _ hcall ih =>
    obtain ⟨entries, hentries, hput, -⟩ := entriesOf_upsert hserde hcall
    rw [ih] at hentries
    cases hentries
    rw [hput, policyTable_append]

/-- Without a failure of the file system a call for a valid entry returns. -/
theorem exists_upsert {t : Nat} {e : Entry} {d : PolicyDisk} {entries : List Entry} {now : Int}
    {payload : List UInt8} (hvalid : kind.validate e = .ok ())
    (hentries : entriesOf serde d.file = some entries)
    (hjson : serde.toVec ⟨kind.schemaVersion, now, putPolicyEntry kind e entries⟩ = some payload) :
    ∃ d', Prog.Eval policyMachine t (upsertPolicyEntry kind serde path e).toProg d (.ok ()) d' := by
  obtain ⟨file, seen, unfinished, written⟩ := d
  obtain ⟨store, d₁, hload, hstore⟩ : ∃ store d₁, Prog.Eval policyMachine t
      (loadPolicyStore kind serde path).toProg ⟨file, seen, unfinished, written⟩ (.ok store) d₁ ∧
      store.entries = entries := by
    cases file with
    | none =>
      cases hentries
      exact ⟨defaultPolicyStore kind now, _,
        .tryBind (.lift (.perform (c := ⟨now, none⟩) rfl))
          (.tryBind (.lift (.perform (c := ⟨now, none⟩) rfl)) (.ret _ _)), rfl⟩
    | some found =>
      obtain ⟨store, hparse, rfl⟩ := Option.map_eq_some_iff.1 hentries
      have hread : Prog.Eval policyMachine t (performPolicy .read).toProg
          ⟨some found, seen, unfinished, written⟩ (.ok (.ok found))
          ⟨some found, Function.update seen t (some found), unfinished, written⟩ :=
        .lift (.perform (c := ⟨now, none⟩) rfl)
      have hparsed : Prog.Eval policyMachine t
          (TryProg.ofExcept (okOr s!"failed parsing {kind.name} JSON {path.display}"
            (serde.fromSlice found)) : TryProg PolicyOp PolicyOp.Reply String _).toProg
          ⟨some found, Function.update seen t (some found), unfinished, written⟩ (.ok store)
          ⟨some found, Function.update seen t (some found), unfinished, written⟩ := by
        rw [hparse]
        exact .ret _ _
      exact ⟨store, _, .tryBind hread hparsed, rfl⟩
  subst hstore
  have hnow : Prog.Eval policyMachine t (performPolicy .now).toProg d₁ (.ok now) d₁ :=
    .lift (.perform (c := ⟨now, none⟩) rfl)
  have hdir : Prog.Eval policyMachine t (createPolicyDir path).toProg d₁ (.ok ()) d₁ := by
    unfold createPolicyDir
    cases path.parent with
    | none => exact .ret _ _
    | some parent => exact .orFail (.perform (c := ⟨now, none⟩) rfl)
  obtain ⟨d', hwrite⟩ : ∃ d', Prog.Eval policyMachine t
      (writePolicyFile kind path payload).toProg d₁ (.ok ()) d' :=
    ⟨_, .tryBind (.orFail (.perform (c := ⟨now, none⟩) rfl))
      (.orFail (.perform (c := ⟨now, none⟩) rfl))⟩
  refine ⟨d', .tryBind (a := ()) ?_ (.tryBind hload (.tryBind hnow (.tryBind hdir
    (.tryBind (a := payload) ?_ hwrite))))⟩
  · rw [hvalid]
    exact .ret _ _
  · rw [hjson]
    exact .ret _ _

/-- A kind of policies, kept in a file, is a finite map from profiles to entries. -/
structure FiniteMap (kind : PolicyKind Entry Profile) (serde : Serde (PolicyStore Entry))
    (upsert : Entry → TryProg PolicyOp PolicyOp.Reply String Unit)
    (select : PolicyStore Entry → Profile → Option (PolicySelection Entry)) : Prop where
  sorted : ∀ es d, Upserts upsert es d → ∃ entries, entriesOf serde d.file = some entries ∧
    (entries.map kind.profile).Nodup ∧ entries.Pairwise fun a b =>
      profileKey kind (kind.profile a) < profileKey kind (kind.profile b)
  /-- The entry for a profile is the one that was stored last. -/
  last : ∀ es d entries, Upserts upsert es d → entriesOf serde d.file = some entries →
    ∀ p, (entries.find? fun e => kind.profile e = p) =
      es.reverse.find? fun e => kind.profile e = p
  unchanged : ∀ es d t e d' entries entries', Upserts upsert es d →
    Prog.Eval policyMachine t (upsert e).toProg d (.ok ()) d' →
    entriesOf serde d.file = some entries → entriesOf serde d'.file = some entries' →
    ∀ e', kind.profile e' ≠ kind.profile e → (e' ∈ entries' ↔ e' ∈ entries)
  commute : ∀ es e e' d d', Upserts upsert (es ++ [e] ++ [e']) d →
    Upserts upsert (es ++ [e'] ++ [e]) d' → kind.profile e ≠ kind.profile e' →
    entriesOf serde d.file = entriesOf serde d'.file
  selected : ∀ es e d, Upserts upsert (es ++ [e]) d → ∃ payload store, d.file = some payload ∧
    serde.fromSlice payload = some store ∧ select store (kind.profile e) = some ⟨e, true⟩
  /-- Unless the file system fails, a call for a valid entry returns. -/
  returns : ∀ es d t e entries now payload, Upserts upsert es d → kind.validate e = .ok () →
    entriesOf serde d.file = some entries →
    serde.toVec ⟨kind.schemaVersion, now, putPolicyEntry kind e entries⟩ = some payload →
    ∃ d', Prog.Eval policyMachine t (upsert e).toProg d (.ok ()) d'

/-- Entries that were stored were valid. -/
theorem Upserts.valid (hserde : serde.RoundTrips) {es : List Entry} {d : PolicyDisk}
    (h : Upserts (upsertPolicyEntry kind serde path) es d) :
    ∀ e ∈ es, kind.validate e = .ok () := by
  induction h with
  | start => exact fun e he => absurd he List.not_mem_nil
  | snoc _ hcall ih =>
    obtain ⟨-, -, -, hvalid⟩ := entriesOf_upsert hserde hcall
    intro e he
    rcases List.mem_append.1 he with he | he
    · exact ih e he
    · rw [List.mem_singleton.1 he]
      exact hvalid

/-- **What was stored last for a profile is what is selected for it**, as an exact match. -/
theorem selectPolicy_of_mem {store : PolicyStore Entry} {e : Entry}
    (hnodup : (store.entries.map kind.profile).Nodup) (he : e ∈ store.entries)
    (husable : kind.usable e = true) :
    selectPolicy kind store (kind.profile e) = some ⟨e, true⟩ := by
  cases hselect : selectPolicy kind store (kind.profile e) with
  | none =>
    have hnone := (selectPolicy_nearest.none_iff store _).1 hselect e he
    rw [husable] at hnone
    cases hnone
  | some selection =>
    have hexact := (selectPolicy_nearest.exact_iff _ _ _ hselect).2 ⟨e, he, husable, rfl⟩
    have hprofile := (selectPolicy_nearest.newest _ _ _ hselect hexact).1
    have hmem := (selectPolicy_nearest.usable _ _ _ hselect).1
    obtain ⟨entry, exactMatch⟩ := selection
    cases List.inj_on_of_nodup_map hnodup hmem he hprofile
    cases hexact
    rfl

theorem policy_is_map (hserde : serde.RoundTrips) :
    FiniteMap kind serde (upsertPolicyEntry kind serde path) (selectPolicy kind) where
  sorted := fun es d h => ⟨_, upserts_stored hserde h, (policyTable kind es).nodup,
    policyTable_ascending es⟩
  last := by
    intro es d entries h hentries p
    rw [upserts_stored hserde h] at hentries
    cases hentries
    exact Table.lookup_upsertAll es
  unchanged := by
    intro es d t e d' entries entries' h hcall hentries hentries' e' hne
    rw [upserts_stored hserde h] at hentries
    cases hentries
    rw [upserts_stored hserde (.snoc h hcall), policyTable_append] at hentries'
    cases hentries'
    rw [putPolicyEntry, (sortBy_perm _ _).mem_iff, mem_put_iff (policyTable kind es).nodup]
    constructor
    · rintro (rfl | ⟨hmem, -⟩)
      · exact absurd rfl hne
      · exact hmem
    · exact fun hmem => .inr ⟨hmem, hne⟩
  commute := by
    intro es e e' d d' h h' hne
    rw [upserts_stored hserde h, upserts_stored hserde h']
    have hcomm : policyTable kind (es ++ [e] ++ [e']) = policyTable kind (es ++ [e'] ++ [e]) := by
      simp only [policyTable, Table.upsertAll, List.foldl_append, List.foldl_cons, List.foldl_nil]
      exact Table.upsert_comm (fun _ _ => profile_eq_of_policyRank) hne
    rw [hcomm]
  selected := by
    intro es e d h
    have hstored := upserts_stored hserde h
    have he : e ∈ (policyTable kind (es ++ [e])).entries := by
      rw [policyTable_append, putPolicyEntry, (sortBy_perm _ _).mem_iff]
      exact mem_put_self
    have hvalid := h.valid hserde e (List.mem_append_right es (List.mem_singleton_self e))
    cases hfile : d.file with
    | none =>
      rw [hfile] at hstored
      rw [← Option.some.inj hstored] at he
      cases he
    | some payload =>
      rw [hfile] at hstored
      obtain ⟨store, hparse, hentries⟩ := Option.map_eq_some_iff.1 hstored
      refine ⟨payload, store, rfl, hparse, selectPolicy_of_mem ?_ ?_ ?_⟩
      · rw [hentries]
        exact (policyTable kind (es ++ [e])).nodup
      · rw [hentries]
        exact he
      · exact kind.usable_of_validate e hvalid
  returns := fun es d t e entries now payload _ hvalid hentries hjson =>
    exists_upsert hvalid hentries hjson

end

/-- **The policy stores are finite maps** that are kept in files: an entry takes the place of
the one for its profile, leaves the others alone, and is what is selected for its profile. -/
theorem policies_are_maps (laneSerde : Serde LanePolicyStore)
    (runtimeSerde : Serde RuntimePolicyStore) (path : PolicyPath)
    (hlane : laneSerde.RoundTrips) (hruntime : runtimeSerde.RoundTrips) :
    FiniteMap lanePolicy laneSerde (upsertLanePolicyEntry laneSerde path) selectLanePolicy ∧
      FiniteMap runtimePolicy runtimeSerde (upsertRuntimePolicyEntry runtimeSerde path)
        selectRuntimePolicy :=
  ⟨policy_is_map hlane, policy_is_map hruntime⟩

/-! ## The texts of some stores -/

namespace PolicySample

/-- A time in the first seconds of the epoch. -/
def timeText (time : Int) : String := "\"1970-01-01T00:00:0" ++ toString time ++ "Z\""

/-- Values between brackets, each on a line of its own. -/
def blockText (opening closing indent : String) (values : List String) : String :=
  opening ++ "\n" ++ ",\n".intercalate (values.map fun value => indent ++ "  " ++ value) ++
    "\n" ++ indent ++ closing

/-- An object, with a line for each of its fields. -/
def objectText (indent : String) (fields : List (String × String)) : String :=
  blockText "\x7b" "\x7d" indent (fields.map fun field => "\"" ++ field.1 ++ "\": " ++ field.2)

/-- An array, with a line for each of its values. -/
def listText (indent : String) (values : List String) : String :=
  if values = [] then "[]" else blockText "[" "]" indent values

/-- What `serde_json` writes for a store of entries with the given texts. -/
def storeText (schemaVersion : Nat) (updatedAt : Int) (entries : List String) : List UInt8 :=
  (objectText "" [("schema_version", toString schemaVersion), ("updated_at", timeText updatedAt),
    ("entries", listText "  " entries)]).toUTF8.data.toList

theorem storeText_ne_nil (schemaVersion : Nat) (updatedAt : Int) (entries : List String) :
    storeText schemaVersion updatedAt entries ≠ [] := by
  intro h
  simp only [storeText, objectText, blockText, String.toUTF8_eq_toByteArray,
    String.toByteArray_append, ByteArray.data_append, Array.toList_append,
    List.append_eq_nil_iff] at h
  exact absurd h.2 (by decide +kernel)

/-- An entry whose throughputs are zero. -/
def laneEntryText (entry : LanePolicyEntry) : String :=
  objectText "    " [
    ("profile", objectText "      " [("size_gib", toString entry.profile.sizeGib),
      ("concurrency", toString entry.profile.concurrency),
      ("io_chunk_bytes", toString entry.profile.ioChunkBytes),
      ("no_disk", toString entry.profile.noDisk)]),
    ("recommended_lanes", toString entry.recommendedLanes),
    ("source", "\"" ++ entry.source ++ "\""), ("tuned_at", timeText entry.tunedAt),
    ("aggregate_p50_gbps", "0.0"), ("aggregate_p95_gbps", "0.0")]

/-- A lane policy file. -/
def laneStoreText (store : LanePolicyStore) : List UInt8 :=
  storeText store.schemaVersion store.updatedAt (store.entries.map laneEntryText)

/-- An entry of a runtime policy file. -/
def runtimeEntryText (entry : RuntimePolicyEntry) : String :=
  objectText "    " [
    ("profile", objectText "      " [("size_gib", toString entry.profile.sizeGib),
      ("lanes", toString entry.profile.lanes),
      ("io_chunk_bytes", toString entry.profile.ioChunkBytes),
      ("no_disk", toString entry.profile.noDisk)]),
    ("recommended_profile", "\"" ++ entry.recommendedProfile ++ "\""),
    ("effective_io_chunk_bytes", toString entry.effectiveIoChunkBytes),
    ("file_read_pipeline_depth", toString entry.fileReadPipelineDepth),
    ("source", "\"" ++ entry.source ++ "\""), ("tuned_at", timeText entry.tunedAt),
    ("throughput_p50_gbps", "0.0"), ("throughput_p95_gbps", "0.0")]

/-- A runtime policy file. -/
def runtimeStoreText (store : RuntimePolicyStore) : List UInt8 :=
  storeText store.schemaVersion store.updatedAt (store.entries.map runtimeEntryText)

/-- `serde_json` on some stores. -/
def laneSerde (stores : List LanePolicyStore) : Serde LanePolicyStore :=
  .table (stores.map fun store => (store, laneStoreText store))

/-- A serde that knows the texts of some runtime policy files. -/
def runtimeSerde (stores : List RuntimePolicyStore) : Serde RuntimePolicyStore :=
  .table (stores.map fun store => (store, runtimeStoreText store))

/-- Two entries for one workload, and one for another. -/
def older : LanePolicyEntry := ⟨⟨1, 2, 1024, false⟩, 4, "benchmark", 0, 0, 0⟩

/-- A later entry for the same workload. -/
def newer : LanePolicyEntry := { older with recommendedLanes := 8, tunedAt := 2 }

/-- An entry for another workload. -/
def other : LanePolicyEntry := ⟨⟨1, 2, 1024, true⟩, 16, "benchmark", 1, 0, 0⟩

/-- The stores that they make one after the other. -/
def serde : Serde LanePolicyStore :=
  laneSerde [⟨1, 0, [older]⟩, ⟨1, 0, [older, other]⟩, ⟨1, 0, [newer, other]⟩]

theorem serde_roundTrips : serde.RoundTrips :=
  Serde.table_roundTrips (by decide +kernel) (by decide +kernel)

theorem runtimeSerde_roundTrips : (runtimeSerde []).RoundTrips :=
  Serde.table_roundTrips (by decide) (by decide)

end PolicySample

open PolicySample in
/-- Two workloads are stored, and the first of them again: it is selected as it was stored last,
and the other one is still there. -/
theorem policies_are_maps_first :
    ∃ d payload store, Upserts (upsertLanePolicyEntry serde ⟨"p", none⟩) [older, other, newer] d ∧
      d.file = some payload ∧ serde.fromSlice payload = some store ∧
      store.entries = [newer, other] ∧
      selectLanePolicy store older.profile = some ⟨newer, true⟩ ∧
      selectLanePolicy store other.profile = some ⟨other, true⟩ := by
  have hmap := (policies_are_maps serde (runtimeSerde []) ⟨"p", none⟩ serde_roundTrips
    runtimeSerde_roundTrips).1
  have hstored := fun {es : List LanePolicyEntry} {d : PolicyDisk}
    (h : Upserts (upsertLanePolicyEntry serde ⟨"p", none⟩) es d) =>
      upserts_stored serde_roundTrips h
  obtain ⟨d₁, hfirst⟩ := hmap.returns [] _ 0 older _ 0 (laneStoreText ⟨1, 0, [older]⟩) .start rfl
    (hstored .start) (by decide +kernel)
  have hone : Upserts _ [older] d₁ := .snoc .start hfirst
  obtain ⟨d₂, hsecond⟩ := hmap.returns [older] d₁ 0 other _ 0
    (laneStoreText ⟨1, 0, [older, other]⟩) hone rfl (hstored hone) (by decide +kernel)
  have htwo : Upserts _ [older, other] d₂ := .snoc hone hsecond
  obtain ⟨d₃, hthird⟩ := hmap.returns [older, other] d₂ 0 newer _ 0
    (laneStoreText ⟨1, 0, [newer, other]⟩) htwo rfl (hstored htwo) (by decide +kernel)
  have hthree : Upserts _ [older, other, newer] d₃ := .snoc htwo hthird
  obtain ⟨payload, store, hfile, hparse, hselect⟩ := hmap.selected [older, other] newer d₃ hthree
  have hentries := hstored hthree
  rw [hfile, entriesOf, hparse] at hentries
  have hall : store.entries = [newer, other] :=
    (Option.some.inj hentries).trans (by decide +kernel)
  refine ⟨d₃, payload, store, hthree, hfile, hparse, hall, hselect, ?_⟩
  have hnodup : (store.entries.map lanePolicy.profile).Nodup := by
    rw [hall]
    decide
  have hmem : other ∈ store.entries := by
    rw [hall]
    exact List.mem_cons_of_mem _ (List.mem_singleton_self _)
  have hother : selectPolicy lanePolicy store (lanePolicy.profile other) = some ⟨other, true⟩ :=
    selectPolicy_of_mem hnodup hmem (by decide)
  exact hother

end Metra.Client
