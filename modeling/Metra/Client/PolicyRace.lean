import Metra.Client.PolicyFile

/-!
# Policy files that several processes update

Nothing orders the calls of different processes, and a call empties the file
before it writes it.

* `unraced_reflects` — as long as a process empties the file only while it still holds what
  this process has found there, no update is lost;
* `policy_updates_intact_iff` — in such runs the file is intact **exactly when no process has
  emptied it and not written it since**;
* `policy_update_lost` — otherwise two calls may return, and the entry of one is gone.
-/

namespace Metra.Client

open Interleave Keyed

section

variable {Entry Profile : Type} [DecidableEq Profile] (kind : PolicyKind Entry Profile)
  (serde : Serde (PolicyStore Entry)) (entry : Nat → Entry)

/-- `serde_json` does not read a text that breaks off. -/
def NoPrefixParses {α : Type} (serde : Serde α) : Prop :=
  ∀ a json n, serde.toVec a = some json → n < json.length → serde.fromSlice (json.take n) = none

/-- Every process makes one call, for an entry of its own. -/
def policyPool (upsert : Entry → TryProg PolicyOp PolicyOp.Reply String Unit)
    (entry : Nat → Entry) (file : Option (List UInt8)) :
    Config Nat PolicyOp PolicyOp.Reply PolicyDisk (Except String Unit) :=
  ⟨PolicyDisk.start file, fun t => (upsert (entry t)).toProg⟩

/-- The entry of `t`, or that of a process which has stored one for the same profile later,
is among the entries. -/
def Reflected (written : List Nat) (entries : List Entry) (t : Nat) : Prop :=
  ∃ u, entry u ∈ entries ∧ kind.profile (entry u) = kind.profile (entry t) ∧
    (u = t ∨ [t, u].Sublist written)

/-- The file can be read, and every call that has returned is reflected in it. -/
def Intact (cfg : Config Nat PolicyOp PolicyOp.Reply PolicyDisk (Except String Unit)) : Prop :=
  ∃ entries, entriesOf serde cfg.shared.file = some entries ∧
    ∀ t, cfg.pool t = .ret (.ok ()) → Reflected kind entry cfg.shared.written entries t

/-- A process empties the file only while it still holds what the process has found. -/
def Unraced (d : PolicyDisk) (t : Nat) (o : PolicyOp) : Prop :=
  match o with
  | .create => d.file = d.seen t
  | _ => True

/-- What has been written is reflected in what the file holds. -/
def Reflects (file : Option (List UInt8)) (written : List Nat) : Prop :=
  ∃ entries, entriesOf serde file = some entries ∧
    ∀ t ∈ written, Reflected kind entry written entries t

/-- Nothing is lost as yet: the file reflects what was written, or a single process has
emptied it, which had found what reflects it. -/
structure Unlost (s : Tracked Nat PolicyPoint PolicyDisk) : Prop where
  seen : ∀ t found, s.point t = .loaded found → s.shared.seen t = found
  written : ∀ t found, s.point t = .written found → t ∈ s.shared.written
  file : (s.shared.unfinished = [] ∧ (∀ t found, s.point t ≠ .emptied found) ∧
      Reflects kind serde entry s.shared.file s.shared.written) ∨
    ∃ t, s.shared.unfinished = [t] ∧ entriesOf serde s.shared.file = none ∧
      ∀ u found, s.point u = .emptied found →
        u = t ∧ s.shared.file = some [] ∧ Reflects kind serde entry found s.shared.written

variable {kind serde entry}

/-- **Writing what was made of what was found** reflects one call more. -/
theorem Reflects.write (hserde : serde.RoundTrips) {found : Option (List UInt8)}
    {written : List Nat} {t : Nat} {payload : List UInt8}
    (h : Reflects kind serde entry found written)
    (hmakes : Makes kind serde (entry t) found payload) :
    Reflects kind serde entry (some payload) (written ++ [t]) := by
  obtain ⟨entries, hentries, hwritten⟩ := h
  obtain ⟨now, entries', hentries', hjson⟩ := hmakes
  rw [hentries] at hentries'
  cases hentries'
  refine ⟨putPolicyEntry kind (entry t) entries, ?_, fun u hu => ?_⟩
  · rw [entriesOf, hserde.fromSlice_toVec _ _ hjson]
    rfl
  have hself : entry t ∈ putPolicyEntry kind (entry t) entries :=
    (sortBy_perm _ _).mem_iff.2 mem_put_self
  rcases List.mem_append.1 hu with hu | hu
  · obtain ⟨v, hv, hprofile, hlater⟩ := hwritten u hu
    by_cases hreplaced : kind.profile (entry v) = kind.profile (entry t)
    · refine ⟨t, hself, hreplaced.symm.trans hprofile, .inr ?_⟩
      exact (List.singleton_sublist.2 hu).append (List.Sublist.refl [t])
    · refine ⟨v, (sortBy_perm _ _).mem_iff.2 (mem_put_of_ne hv hreplaced), hprofile, ?_⟩
      exact hlater.imp_right fun hsub => hsub.trans (List.sublist_append_left _ _)
  · rw [List.mem_singleton.1 hu]
    exact ⟨t, hself, rfl, .inl rfl⟩

/-- Where a process is, after one has moved. -/
theorem moved_or {point : Nat → PolicyPoint} {t u : Nat} {pt pt' : PolicyPoint}
    (h : Function.update point t pt u = pt') : u = t ∧ pt = pt' ∨ u ≠ t ∧ point u = pt' := by
  by_cases hut : u = t
  · subst hut
    exact .inl ⟨rfl, (Function.update_self _ _ _).symm.trans h⟩
  · exact .inr ⟨hut, (Function.update_of_ne hut _ _).symm.trans h⟩

omit [DecidableEq Profile] in
/-- A process that neither empties nor writes the file. -/
theorem Unlost.aside {s : Tracked Nat PolicyPoint PolicyDisk} (h : Unlost kind serde entry s)
    {t : Nat} {pt : PolicyPoint} {seen : Nat → Option (List UInt8)}
    (hloaded : ∀ found, pt = .loaded found → seen t = found)
    (hothers : ∀ u, u ≠ t → seen u = s.shared.seen u) (hemptied : ∀ found, pt ≠ .emptied found)
    (hwritten : ∀ found, pt ≠ .written found) :
    Unlost kind serde entry ⟨{ s.shared with seen := seen }, Function.update s.point t pt⟩ := by
  have hold : ∀ u found, Function.update s.point t pt u = .emptied found →
      s.point u = .emptied found := by
    intro u found hu
    rcases moved_or hu with ⟨-, hpt⟩ | ⟨-, hu⟩
    · exact absurd hpt (hemptied found)
    · exact hu
  refine ⟨fun u found hu => ?_, fun u found hu => ?_, ?_⟩
  · rcases moved_or hu with ⟨rfl, hpt⟩ | ⟨hut, hu⟩
    · exact hloaded found hpt
    · exact (hothers u hut).trans (h.seen u found hu)
  · rcases moved_or hu with ⟨-, hpt⟩ | ⟨-, hu⟩
    · exact absurd hpt (hwritten found)
    · exact h.written u found hu
  · rcases h.file with ⟨hnone, hclosed, hreflects⟩ | ⟨v, hv, hbroken, hone⟩
    · exact .inl ⟨hnone, fun u found hu => hclosed u found (hold u found hu), hreflects⟩
    · exact .inr ⟨v, hv, hbroken, fun u found hu => hone u found (hold u found hu)⟩

omit [DecidableEq Profile] in
/-- A process empties the file that holds what it has found. -/
theorem Unlost.create (hserde : serde.RoundTrips) {s : Tracked Nat PolicyPoint PolicyDisk}
    (h : Unlost kind serde entry s) {t : Nat} {found : Option (List UInt8)}
    (hpt : s.point t = .loaded found) (hfound : ∃ entries, entriesOf serde found = some entries)
    (hunraced : s.shared.file = s.shared.seen t) :
    Unlost kind serde entry
      ⟨{ s.shared with file := some [], unfinished := t :: s.shared.unfinished },
        Function.update s.point t (.emptied found)⟩ := by
  rw [h.seen t found hpt] at hunraced
  subst hunraced
  obtain ⟨entries, hentries⟩ := hfound
  rcases h.file with ⟨hnone, hclosed, hreflects⟩ | ⟨v, hv, hbroken, hone⟩
  · refine ⟨fun u found hu => ?_, fun u found hu => ?_, .inr ⟨t, ?_, ?_, fun u found hu => ?_⟩⟩
    · rcases moved_or hu with ⟨-, ⟨⟩⟩ | ⟨-, hu⟩
      exact h.seen u found hu
    · rcases moved_or hu with ⟨-, ⟨⟩⟩ | ⟨-, hu⟩
      exact h.written u found hu
    · rw [hnone]
    · rw [entriesOf, hserde.fromSlice_nil]
      rfl
    · rcases moved_or hu with ⟨rfl, ⟨⟩⟩ | ⟨-, hu⟩
      · exact ⟨rfl, rfl, hreflects⟩
      · exact absurd hu (hclosed u found)
  · rw [hbroken] at hentries
    cases hentries

/-- The process that has emptied the file writes it. -/
theorem Unlost.write (hserde : serde.RoundTrips) {s : Tracked Nat PolicyPoint PolicyDisk}
    (h : Unlost kind serde entry s) {t : Nat} {found : Option (List UInt8)}
    {payload : List UInt8} (hpt : s.point t = .emptied found)
    (hmakes : Makes kind serde (entry t) found payload) :
    Unlost kind serde entry
      ⟨{ s.shared.write payload with
          unfinished := s.shared.unfinished.erase t, written := s.shared.written ++ [t] },
        Function.update s.point t (.written found)⟩ := by
  rcases h.file with ⟨hnone, hclosed, hreflects⟩ | ⟨v, hv, hbroken, hone⟩
  · exact absurd hpt (hclosed t found)
  obtain ⟨rfl, hfile, hreflects⟩ := hone t found hpt
  refine ⟨fun u found hu => ?_, fun u found hu => ?_, .inl ⟨?_, fun u found hu => ?_, ?_⟩⟩
  · rcases moved_or hu with ⟨-, ⟨⟩⟩ | ⟨-, hu⟩
    exact h.seen u found hu
  · rcases moved_or hu with ⟨rfl, -⟩ | ⟨-, hu⟩
    · exact List.mem_append_right _ (List.mem_singleton_self u)
    · exact List.mem_append_left _ (h.written u found hu)
  · show s.shared.unfinished.erase t = []
    rw [hv, List.erase_cons_head]
  · rcases moved_or hu with ⟨-, ⟨⟩⟩ | ⟨hut, hu⟩
    exact hut (hone u found hu).1
  · simp only [PolicyDisk.write, hfile, Option.map_some, writeAt_zero_nil]
    exact hreflects.write hserde hmakes

/-- The process that has emptied the file writes some of it. -/
theorem Unlost.writeSome (hserde : serde.RoundTrips) (hcut : NoPrefixParses serde)
    {s : Tracked Nat PolicyPoint PolicyDisk} (h : Unlost kind serde entry s) {t n : Nat}
    {found : Option (List UInt8)} {payload : List UInt8} (hpt : s.point t = .emptied found)
    (hmakes : Makes kind serde (entry t) found payload) :
    Unlost kind serde entry
      ⟨s.shared.write (payload.take (min n (payload.length - 1))),
        Function.update s.point t .failed⟩ := by
  rcases h.file with ⟨hnone, hclosed, hreflects⟩ | ⟨v, hv, hbroken, hone⟩
  · exact absurd hpt (hclosed t found)
  obtain ⟨rfl, hfile, -⟩ := hone t found hpt
  obtain ⟨now, entries, -, hjson⟩ := hmakes
  have hpos : 0 < payload.length := List.length_pos_iff.2 (hserde.ne_nil hjson)
  refine ⟨fun u found hu => ?_, fun u found hu => ?_, .inr ⟨t, hv, ?_, fun u found hu => ?_⟩⟩
  · rcases moved_or hu with ⟨-, ⟨⟩⟩ | ⟨-, hu⟩
    exact h.seen u found hu
  · rcases moved_or hu with ⟨-, ⟨⟩⟩ | ⟨-, hu⟩
    exact h.written u found hu
  · simp only [PolicyDisk.write, hfile, Option.map_some, writeAt_zero_nil, entriesOf,
      hcut _ _ _ hjson (show min n (payload.length - 1) < payload.length by omega),
      Option.map_none]
  · rcases moved_or hu with ⟨-, ⟨⟩⟩ | ⟨hut, hu⟩
    exact absurd (hone u found hu).1 hut

/-- **What an operation of an unraced run leaves.** -/
theorem unlost_step (hserde : serde.RoundTrips) (hcut : NoPrefixParses serde)
    {s : Tracked Nat PolicyPoint PolicyDisk} {t : Nat} {o : PolicyOp} {c : PolicyChoice}
    {r : o.Reply} {d' : PolicyDisk} (h : Unlost kind serde entry s)
    (henabled : (policyProtocol kind serde (entry t)).enabled (s.point t) o)
    (hunraced : Unraced s.shared t o) (hexec : policyMachine.exec t o c s.shared = some (r, d')) :
    Unlost kind serde entry (s.next (fun t => policyProtocol kind serde (entry t)) t o r d') := by
  unfold Tracked.next
  obtain ⟨now, ioError⟩ := c
  have hfailed : Unlost kind serde entry ⟨s.shared, Function.update s.point t .failed⟩ :=
    h.aside (by simp) (fun _ _ => rfl) (by simp) (by simp)
  have hloaded : ∀ found, s.point t = .loaded found →
      Unlost kind serde entry ⟨s.shared, Function.update s.point t (.loaded found)⟩ :=
    fun found hpt =>
      h.aside (by simpa using h.seen t found hpt) (fun _ _ => rfl) (by simp) (by simp)
  cases hpt : s.point t with
  | start =>
    rw [hpt] at henabled
    cases o with
    | read =>
      cases ioError with
      | none =>
        cases hexec
        show Unlost kind serde entry
          ⟨_, Function.update s.point t ((policyProtocol kind serde (entry t)).advance _ _ _)⟩
        rw [advance_found]
        exact h.aside (by simp) (fun u hut => Function.update_of_ne hut _ _) (by simp) (by simp)
      | some _ =>
        cases hexec
        exact hfailed
    | _ => cases henabled
  | loaded found =>
    rw [hpt] at henabled
    cases o with
    | now =>
      cases hexec
      exact hloaded found hpt
    | createDirAll =>
      cases ioError <;> cases hexec
      · exact hloaded found hpt
      · exact hfailed
    | create =>
      cases ioError <;> cases hexec
      · exact h.create hserde hpt henabled hunraced
      · exact hfailed
    | _ => cases henabled
  | emptied found =>
    rw [hpt] at henabled
    cases o with
    | writeAll payload =>
      cases ioError <;> cases hexec
      · exact h.write hserde hpt henabled
      · exact h.writeSome hserde hcut hpt henabled
    | _ => cases henabled
  | _ =>
    rw [hpt] at henabled
    cases o <;> cases henabled

/-- **Nothing is lost as yet**, wherever an unraced run leads. -/
theorem unraced_unlost (hserde : serde.RoundTrips) (hcut : NoPrefixParses serde)
    {path : PolicyPath} {file : Option (List UInt8)}
    {cfg : Config Nat PolicyOp PolicyOp.Reply PolicyDisk (Except String Unit)}
    (hfile : ∃ entries, entriesOf serde file = some entries)
    (h : Config.Reaches policyMachine (fun d t o _ => Unraced d t o)
      (policyPool (upsertPolicyEntry kind serde path) entry file) cfg) :
    ∃ point, Unlost kind serde entry ⟨cfg.shared, point⟩ ∧
      ∀ t, cfg.pool t = .ret (.ok ()) → t ∈ cfg.shared.written := by
  obtain ⟨point, hto⟩ :=
    h.tracked (fun t => policyProtocol kind serde (entry t)) fun _ => PolicyPoint.start
  obtain ⟨entries, hentries⟩ := hfile
  have hstart : Unlost kind serde entry ⟨PolicyDisk.start file, fun _ => .start⟩ :=
    ⟨by simp, by simp, .inl ⟨rfl, by simp, entries, hentries, by simp [PolicyDisk.start]⟩⟩
  have hInv : Invariant policyMachine (fun t => policyProtocol kind serde (entry t))
      (fun s t o _ => Unraced s.shared t o) (Unlost kind serde entry) :=
    fun s t o c r s' hs henabled hunraced hexec =>
      ⟨trivial, unlost_step hserde hcut hs henabled hunraced hexec⟩
  obtain ⟨hobedient, hunlost⟩ := hInv.reaches (Q := fun t => PolicyEnds kind (entry t))
    (fun t => obeys_upsertPolicyEntry) hstart hto
  refine ⟨point, hunlost, fun t ht => ?_⟩
  obtain ⟨-, found, hpt⟩ := hobedient.returned ht
  exact hunlost.written t found hpt

/-- **A policy file is intact exactly when nobody has emptied it and not written it since.** -/
theorem intact_iff (hserde : serde.RoundTrips) (hcut : NoPrefixParses serde)
    {path : PolicyPath} {file : Option (List UInt8)}
    {cfg : Config Nat PolicyOp PolicyOp.Reply PolicyDisk (Except String Unit)}
    (hfile : ∃ entries, entriesOf serde file = some entries)
    (h : Config.Reaches policyMachine (fun d t o _ => Unraced d t o)
      (policyPool (upsertPolicyEntry kind serde path) entry file) cfg) :
    Intact kind serde entry cfg ↔ cfg.shared.unfinished = [] := by
  obtain ⟨point, hunlost, hreturned⟩ := unraced_unlost hserde hcut hfile h
  rcases hunlost.file with ⟨hnone, -, entries, hentries, hreflects⟩ | ⟨t, hone, hbroken, -⟩
  · refine iff_of_true ⟨entries, hentries, fun t ht => hreflects t (hreturned t ht)⟩ hnone
  · refine iff_of_false ?_ ?_
    · rintro ⟨entries, hentries, -⟩
      rw [hbroken] at hentries
      cases hentries
    · rw [hone]
      simp

end

/-- **As long as no process empties a policy file that another has changed**, the file is intact
exactly when no process has emptied it and not written it since. -/
theorem policy_updates_intact_iff (laneSerde : Serde LanePolicyStore)
    (runtimeSerde : Serde RuntimePolicyStore) (path : PolicyPath)
    (hlane : laneSerde.RoundTrips) (hlaneCut : NoPrefixParses laneSerde)
    (hruntime : runtimeSerde.RoundTrips) (hruntimeCut : NoPrefixParses runtimeSerde) :
    (∀ entry file cfg, (∃ entries, entriesOf laneSerde file = some entries) →
      Config.Reaches policyMachine (fun d t o _ => Unraced d t o)
        (policyPool (upsertLanePolicyEntry laneSerde path) entry file) cfg →
      (Intact lanePolicy laneSerde entry cfg ↔ cfg.shared.unfinished = [])) ∧
    ∀ entry file cfg, (∃ entries, entriesOf runtimeSerde file = some entries) →
      Config.Reaches policyMachine (fun d t o _ => Unraced d t o)
        (policyPool (upsertRuntimePolicyEntry runtimeSerde path) entry file) cfg →
      (Intact runtimePolicy runtimeSerde entry cfg ↔ cfg.shared.unfinished = []) :=
  ⟨fun _ _ _ hfile h => intact_iff hlane hlaneCut hfile h,
    fun _ _ _ hfile h => intact_iff hruntime hruntimeCut hfile h⟩

/-! ## An update that is lost -/

namespace PolicyScenario

/-- Two processes store entries for different profiles. -/
def entry (t : Nat) : LanePolicyEntry :=
  if t = 0 then ⟨⟨1, 2, 1024, false⟩, 4, "benchmark", 0, 0, 0⟩
  else ⟨⟨1, 2, 1024, true⟩, 8, "benchmark", 0, 0, 0⟩

/-- A serde that knows the files that two updates can make. -/
def serde : Serde LanePolicyStore :=
  PolicySample.laneSerde [⟨1, 0, [entry 0]⟩, ⟨1, 0, [entry 1]⟩, ⟨1, 0, [entry 0, entry 1]⟩]

/-- Two processes, each with an entry of its own. -/
def pool : Config Nat PolicyOp PolicyOp.Reply PolicyDisk (Except String Unit) :=
  policyPool (upsertLanePolicyEntry serde ⟨"p", none⟩) entry none

/-- The steps of a call, as far as they are taken at once. -/
def turn (t n : Nat) : List (Nat × PolicyChoice) := List.replicate n (t, ⟨0, none⟩)

/-- Whether a call has returned. -/
def returned : Prog PolicyOp PolicyOp.Reply (Except String Unit) → Bool
  | .ret (.ok _) => true
  | _ => false

theorem eq_of_returned {p : Prog PolicyOp PolicyOp.Reply (Except String Unit)}
    (h : returned p = true) : p = .ret (.ok ()) := by
  cases p with
  | ret r =>
    cases r with
    | ok a => rfl
    | error e => cases h
  | act o k => cases h

theorem serde_roundTrips : serde.RoundTrips :=
  Serde.table_roundTrips (by decide +kernel) (by decide +kernel)

/-- None of some texts is the beginning of another. -/
theorem noPrefixParses_table {α : Type} [DecidableEq α] {texts : List (α × List UInt8)}
    (h : ∀ x ∈ texts, ∀ y ∈ texts, x.2 <+: y.2 → x.2.length = y.2.length) :
    NoPrefixParses (Serde.table texts) := by
  intro a json n hjson hn
  refine Option.map_eq_none_iff.2 (List.find?_eq_none.2 fun pair hpair hkey => ?_)
  have hlength : pair.2.length = json.length := h pair hpair _ (Serde.mem_of_table_toVec hjson)
    (of_decide_eq_true hkey ▸ List.take_prefix n json)
  rw [of_decide_eq_true hkey, List.length_take] at hlength
  omega

theorem serde_noPrefixParses : NoPrefixParses serde := noPrefixParses_table (by decide +kernel)

/-- `Unraced`, as a test. -/
def unraced (d : PolicyDisk) (t : Nat) : PolicyOp → Bool
  | .create => d.file = d.seen t
  | _ => true

theorem unraced_of_test {d : PolicyDisk} {t : Nat} {o : PolicyOp} (h : unraced d t o = true) :
    Unraced d t o := by
  cases o with
  | create => exact of_decide_eq_true (p := d.file = d.seen t) h
  | _ => trivial

end PolicyScenario

open PolicyScenario in
/-- Both processes have found no file; the one that writes first loses its entry. And a process
that stops after it has emptied the file leaves one that cannot be read. -/
theorem policy_update_lost :
    serde.RoundTrips ∧ NoPrefixParses serde ∧
      (∃ cfg, Config.Reaches policyMachine (fun _ _ _ _ => True) pool cfg ∧
        cfg.pool 0 = .ret (.ok ()) ∧ cfg.pool 1 = .ret (.ok ()) ∧
        ¬ Intact lanePolicy serde entry cfg) ∧
      ∃ cfg, Config.Reaches policyMachine (fun _ _ _ _ => True) pool cfg ∧
        cfg.shared.file = some [] ∧ ¬ Intact lanePolicy serde entry cfg := by
  refine ⟨serde_roundTrips, serde_noPrefixParses, ?_, ?_⟩
  · have hrun : (pool.runIf policyMachine (fun _ _ _ _ => true)
        (turn 0 3 ++ turn 1 3 ++ turn 0 2 ++ turn 1 2)).any (fun cfg =>
          returned (cfg.pool 0) && returned (cfg.pool 1) &&
            entriesOf serde cfg.shared.file = some [entry 1]) = true := by
      decide +kernel
    obtain ⟨cfg, hto, hfinal⟩ := Config.reaches_of_runIf_any (fun _ _ _ _ _ => trivial) hrun
    simp only [Bool.and_eq_true, decide_eq_true_eq] at hfinal
    obtain ⟨⟨hfirst, hsecond⟩, hfile⟩ := hfinal
    refine ⟨cfg, hto, eq_of_returned hfirst, eq_of_returned hsecond, ?_⟩
    rintro ⟨entries, hentries, hreflected⟩
    rw [hfile] at hentries
    cases hentries
    obtain ⟨u, hu, hprofile, -⟩ := hreflected 0 (eq_of_returned hfirst)
    rw [List.mem_singleton.1 hu] at hprofile
    exact absurd hprofile (by decide)
  · have hrun : (pool.runIf policyMachine (fun _ _ _ _ => true) (turn 0 4)).any
        (fun cfg => cfg.shared.file = some []) = true := by
      decide +kernel
    obtain ⟨cfg, hto, hfile⟩ := Config.reaches_of_runIf_any (fun _ _ _ _ _ => trivial) hrun
    refine ⟨cfg, hto, of_decide_eq_true hfile, ?_⟩
    rintro ⟨entries, hentries, -⟩
    rw [of_decide_eq_true hfile, entriesOf, serde_roundTrips.fromSlice_nil] at hentries
    cases hentries

open PolicyScenario in
/-- One process after the other, neither of which loses its entry. -/
theorem policy_updates_intact_iff_turns :
    ∃ cfg, Config.Reaches policyMachine (fun d t o _ => Unraced d t o) pool cfg ∧
      cfg.pool 0 = .ret (.ok ()) ∧ cfg.pool 1 = .ret (.ok ()) ∧
      entriesOf serde cfg.shared.file = some [entry 0, entry 1] ∧
      Intact lanePolicy serde entry cfg := by
  have hrun : (pool.runIf policyMachine (fun d t o _ => unraced d t o)
      (turn 0 5 ++ turn 1 4)).any (fun cfg => returned (cfg.pool 0) && returned (cfg.pool 1) &&
        (cfg.shared.unfinished = [] &&
          entriesOf serde cfg.shared.file = some [entry 0, entry 1])) = true := by
    decide +kernel
  obtain ⟨cfg, hto, hfinal⟩ := Config.reaches_of_runIf_any
    (fun _ _ _ _ h => unraced_of_test h) hrun
  simp only [Bool.and_eq_true, decide_eq_true_eq] at hfinal
  obtain ⟨⟨hfirst, hsecond⟩, hunfinished, hfile⟩ := hfinal
  refine ⟨cfg, hto, eq_of_returned hfirst, eq_of_returned hsecond, hfile, ?_⟩
  exact ((policy_updates_intact_iff serde (PolicySample.runtimeSerde []) ⟨"p", none⟩
    serde_roundTrips serde_noPrefixParses PolicySample.runtimeSerde_roundTrips
    (noPrefixParses_table (by decide))).1 entry none cfg ⟨[], rfl⟩ hto).2 hunfinished

end Metra.Client
