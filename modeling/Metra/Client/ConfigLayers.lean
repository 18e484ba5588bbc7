import Metra.Client.Metrarc
import Metra.Keyed.Layers

/-!
# The order of the configuration layers

What is documented: built-in defaults, `~/.metrarc`, `~/.metra/.metrarc`, `./.metrarc` and
the environment, from the lowest to the highest priority.  A `Setting` is a key of the files
with its variable, and with the proof that the code reads either into the same field.

* `Setting.follows` — every setting that is one value follows the order;
* `destinations_eq` — of the files, the last line for an account counts;
* `followsPriority_iff` — the accounts follow the order **exactly when no account has
  one base in the files and another one in the environment**, since the files go first.
-/

namespace Metra.Client

open Text Keyed

/-! ## Entries -/

/-- The key and the value of a line that has them. -/
def entryOf (rawLine : Str) : Option (Str × Str) :=
  if trim rawLine = [] ∨ (trim rawLine).head? = some '#' then none
  else
    (splitOnce '=' (trim rawLine)).bind fun parts =>
      (stripQuoteWrappers parts.2).bind fun stripped =>
        if trim parts.1 = [] ∨ trim stripped = [] then none
        else some (trim parts.1, trim stripped)

section

variable {F : Type} {ops : FloatOps F} {defaults defaults' : ClientDefaults F} {rawLine : Str}

/-- **A line without an entry changes nothing**, and one with an entry assigns its key. -/
theorem applyMetrarcLine_eq (h : applyMetrarcLine ops defaults rawLine = some defaults') :
    defaults' = ((entryOf rawLine).map fun entry =>
      assignKey ops defaults entry.1 entry.2).getD defaults := by
  rw [applyMetrarcLine] at h
  rw [entryOf]
  by_cases hskip : trim rawLine = [] ∨ (trim rawLine).head? = some '#'
  · rw [if_pos hskip] at h ⊢
    cases h
    rfl
  · rw [if_neg hskip] at h ⊢
    cases hsplit : splitOnce '=' (trim rawLine) with
    | none =>
      rw [hsplit] at h
      cases h
      rfl
    | some parts =>
      rw [hsplit] at h
      cases hstrip : stripQuoteWrappers parts.2 with
      | none => simp [hstrip] at h
      | some stripped =>
        simp only [hstrip, Option.bind_eq_bind, Option.bind_some] at h ⊢
        split at h
        · rename_i hempty
          cases h
          simp [hempty]
        · rename_i hempty
          cases h
          simp [hempty]

end

/-! ## Settings -/

/-- A key with a value of type `α`, and the variable that overrides it. -/
structure Setting {F : Type} (ops : FloatOps F) (α : Type) where
  key : Str
  envVar : Str
  /-- The value that a line gives the key, if it can be read. -/
  read : Str → Option α
  /-- The value of the variable, if it is valid. -/
  readEnv : Str → Option α
  get : ClientDefaults F → α
  get_assignKey : ∀ defaults key' value, get (assignKey ops defaults key' value) =
    (if key' = key then read value else none).getD (get defaults)
  get_applyEnvOverrides : ∀ env defaults, get (applyEnvOverrides ops env defaults) =
    ((env.var envVar).bind readEnv).getD (get defaults)

section

variable {F : Type} (ops : FloatOps F)

/-- **A line leaves the settings of other keys alone.** -/
theorem assignKey_keeps (defaults : ClientDefaults F) (key value : Str) :
    (key ≠ "tenant_id".toList →
      (assignKey ops defaults key value).tenantId = defaults.tenantId) ∧
    (key ≠ "user_id".toList →
      (assignKey ops defaults key value).userId = defaults.userId) ∧
    (key ≠ "runtime_policy_path".toList →
      (assignKey ops defaults key value).runtimePolicyPath = defaults.runtimePolicyPath) ∧
    (key ≠ "lane_policy_path".toList →
      (assignKey ops defaults key value).lanePolicyPath = defaults.lanePolicyPath) ∧
    (key ≠ "auto_policy_update".toList →
      (assignKey ops defaults key value).autoPolicyUpdate = defaults.autoPolicyUpdate) ∧
    (key ≠ "cpu_guardrail_percent".toList →
      (assignKey ops defaults key value).cpuGuardrailPercent = defaults.cpuGuardrailPercent) := by
  rw [assignKey]
  cases stripPrefix "destination.".toList key with
  | some account => simp
  | none =>
    dsimp only
    split_ifs <;> simp_all

/-- What a line does to a setting, from its own key and from the others. -/
theorem get_assignKey_of {α : Type} {get : ClientDefaults F → α} {read : Str → Option α} {key : Str}
    (hself : ∀ defaults value,
      get (assignKey ops defaults key value) = (read value).getD (get defaults))
    (hother : ∀ defaults key' value, key' ≠ key →
      get (assignKey ops defaults key' value) = get defaults)
    (defaults : ClientDefaults F) (key' value : Str) :
    get (assignKey ops defaults key' value) =
      (if key' = key then read value else none).getD (get defaults) := by
  by_cases h : key' = key
  · rw [if_pos h, h]
    exact hself defaults value
  · rw [if_neg h]
    exact hother defaults key' value h

namespace Setting

/-- The tenant. -/
def tenantId : Setting ops Str where
  key := "tenant_id".toList
  envVar := "METRA_TENANT_ID".toList
  read := some
  readEnv := nonBlank
  get := ClientDefaults.tenantId
  get_assignKey := get_assignKey_of ops (fun _ _ => rfl) fun defaults key value =>
    (assignKey_keeps ops defaults key value).1
  get_applyEnvOverrides _ _ := rfl

/-- The user. -/
def userId : Setting ops Str where
  key := "user_id".toList
  envVar := "METRA_USER_ID".toList
  read := some
  readEnv := nonBlank
  get := ClientDefaults.userId
  get_assignKey := get_assignKey_of ops (fun _ _ => rfl) fun defaults key value =>
    (assignKey_keeps ops defaults key value).2.1
  get_applyEnvOverrides _ _ := rfl

/-- Where the runtime policy file is. -/
def runtimePolicyPath : Setting ops UnixPath.Path where
  key := "runtime_policy_path".toList
  envVar := "METRA_RUNTIME_POLICY_PATH".toList
  read := some
  readEnv := nonBlank
  get := ClientDefaults.runtimePolicyPath
  get_assignKey := get_assignKey_of ops (fun _ _ => rfl) fun defaults key value =>
    (assignKey_keeps ops defaults key value).2.2.1
  get_applyEnvOverrides _ _ := rfl

/-- Where the lane policy file is. -/
def lanePolicyPath : Setting ops UnixPath.Path where
  key := "lane_policy_path".toList
  envVar := "METRA_LANE_POLICY_PATH".toList
  read := some
  readEnv := nonBlank
  get := ClientDefaults.lanePolicyPath
  get_assignKey := get_assignKey_of ops (fun _ _ => rfl) fun defaults key value =>
    (assignKey_keeps ops defaults key value).2.2.2.1
  get_applyEnvOverrides _ _ := rfl

/-- Whether runs put what they find into the policy files. -/
def autoPolicyUpdate : Setting ops Bool where
  key := "auto_policy_update".toList
  envVar := "METRA_AUTO_POLICY_UPDATE".toList
  read := parseBool
  readEnv := parseBool
  get := ClientDefaults.autoPolicyUpdate
  get_assignKey := get_assignKey_of ops (fun _ _ => rfl) fun defaults key value =>
    (assignKey_keeps ops defaults key value).2.2.2.2.1
  get_applyEnvOverrides _ _ := rfl

/-- How busy the host may be before a run takes the low-cpu profile. -/
def cpuGuardrailPercent : Setting ops F where
  key := "cpu_guardrail_percent".toList
  envVar := "METRA_CPU_GUARDRAIL_PERCENT".toList
  read := parsePercent ops
  readEnv := parsePercent ops
  get := ClientDefaults.cpuGuardrailPercent
  get_assignKey := get_assignKey_of ops (fun _ _ => rfl) fun defaults key value =>
    (assignKey_keeps ops defaults key value).2.2.2.2.2
  get_applyEnvOverrides _ _ := rfl

end Setting

end

/-! ## Layers -/

section

variable {F α : Type} {ops : FloatOps F} {env : Environment} {before after : ClientDefaults F}
  {defaults : ClientDefaults F} {rawLine : Str}

namespace Setting

/-- What a line assigns to the setting: nothing if it is blank, a comment or malformed, if it
is about another key, or if its value cannot be read. -/
def assigned (setting : Setting ops α) (rawLine : Str) : Option α :=
  (entryOf rawLine).bind fun entry =>
    if entry.1 = setting.key then setting.read entry.2 else none

/-- What the documentation says that the setting is. -/
def layered (setting : Setting ops α) (env : Environment) : α :=
  ((env.var setting.envVar).bind setting.readEnv).getD
    ((lastAssigned setting.assigned (metrarcLines env)).getD (setting.get (.builtIn ops env)))

/-- The setting is what is documented, and a line that assigns nothing to it leaves it alone. -/
structure Follows (setting : Setting ops α) (env : Environment) (defaults : ClientDefaults F) :
    Prop where
  value : setting.get defaults = setting.layered env
  frame : ∀ before after rawLine, applyMetrarcLine ops before rawLine = some after →
    setting.assigned rawLine = none → setting.get after = setting.get before

/-- One line. -/
theorem get_applyMetrarcLine (setting : Setting ops α)
    (h : applyMetrarcLine ops before rawLine = some after) :
    setting.get after = (setting.assigned rawLine).getD (setting.get before) := by
  rw [applyMetrarcLine_eq h, assigned]
  cases entryOf rawLine with
  | none => rfl
  | some entry => exact setting.get_assignKey before entry.1 entry.2

/-- **A setting with one value follows the documented order.** -/
theorem follows (setting : Setting ops α) (h : loadClientDefaults ops env = some defaults) :
    setting.Follows env defaults where
  value := by
    rw [loadClientDefaults_eq] at h
    obtain ⟨read, hread, rfl⟩ := Option.map_eq_some_iff.1 h
    rw [layered, setting.get_applyEnvOverrides]
    congr 1
    apply foldlM_lastAssigned _ hread
    intro before rawLine after hline
    exact setting.get_applyMetrarcLine hline
  frame := by
    intro before after rawLine hline hnone
    rw [setting.get_applyMetrarcLine hline, hnone, Option.getD_none]

end Setting

/-! ## Accounts -/

/-- What a line assigns to an account. -/
def accountAssigned (account rawLine : Str) : Option Str :=
  (entryOf rawLine).bind fun entry =>
    (stripPrefix "destination.".toList entry.1).bind fun name =>
      if normalizeDestinationAccount name = account then some entry.2 else none

/-- The base of an account in the files. -/
def fileBase (env : Environment) (account : Str) : Option Str :=
  lastAssigned (accountAssigned account) (metrarcLines env)

/-- The base of an account in the environment. -/
def envBase (env : Environment) (account : Str) : Option Str :=
  (env.var (envDestinationVarName account)).bind fun value =>
    if trim value ≠ [] then some (trim value) else none

/-- The argument names an account: it is neither blank nor a URI. -/
def IsAccount (destination : Str) : Prop :=
  trim destination ≠ [] ∧ containsStr (trim destination) "://".toList = false

/-- One line. -/
theorem destinations_applyMetrarcLine (account : Str)
    (h : applyMetrarcLine ops before rawLine = some after) :
    after.destinations account =
      ((accountAssigned account rawLine).map some).getD (before.destinations account) := by
  rw [applyMetrarcLine_eq h, accountAssigned]
  cases entryOf rawLine with
  | none => rfl
  | some entry =>
    simp only [Option.map_some, Option.getD_some, Option.bind_some, assignKey]
    cases stripPrefix "destination.".toList entry.1 with
    | none =>
      dsimp only
      split_ifs <;> rfl
    | some name =>
      by_cases hname : normalizeDestinationAccount name = account
      · simp [hname]
      · simp [hname, Function.update_of_ne (Ne.symm hname)]

/-- **Of the files, the last line for an account counts.** -/
theorem destinations_eq (h : loadClientDefaults ops env = some defaults) (account : Str) :
    defaults.destinations account = fileBase env account := by
  rw [loadClientDefaults_eq] at h
  obtain ⟨read, hread, rfl⟩ := Option.map_eq_some_iff.1 h
  have hlast := @foldlM_lastAssigned _ _ _
    (fun rawLine => (accountAssigned account rawLine).map some) (applyMetrarcLine ops)
    (fun read => read.destinations account)
    (fun before rawLine after hline => destinations_applyMetrarcLine account hline) _ _ _ hread
  rw [lastAssigned_map] at hlast
  show read.destinations account = _
  rw [hlast, fileBase]
  cases lastAssigned (accountAssigned account) (metrarcLines env) <;> rfl

/-- The base that is used: that of the files, if there is one. -/
theorem destinationBase_eq (h : loadClientDefaults ops env = some defaults) (account : Str) :
    destinationBase env defaults account = (fileBase env account).or (envBase env account) := by
  rw [destinationBase, destinations_eq h, envBase]
  cases fileBase env account with
  | some base => rfl
  | none => cases env.var (envDestinationVarName account) <;> rfl

/-- What a lookup of an account comes to. -/
theorem resolveDestinationUri_account {destination : Str} (h : IsAccount destination)
    (fileName : Str) :
    (∀ base, destinationBase env defaults (normalizeDestinationAccount destination) = some base →
      resolveDestinationUri env (some destination) fileName defaults =
        .ok (composeDestinationUri base fileName)) ∧
    (destinationBase env defaults (normalizeDestinationAccount destination) = none →
      ∃ msg, resolveDestinationUri env (some destination) fileName defaults = .error msg) := by
  obtain ⟨hblank, huri⟩ := h
  have hkey : normalizeDestinationAccount (trim destination) =
      normalizeDestinationAccount destination :=
    congrArg toAsciiLowercase (trimBy_trimBy isWhitespace destination)
  have hfilter : ((some destination).map trim).filter (fun value => value ≠ []) =
      some (trim destination) := by
    simp [hblank]
  simp only [resolveDestinationUri, hfilter, huri, hkey]
  constructor
  · intro base hbase
    simp [hbase]
  · intro hnone
    simp [hnone]

/-! ## The documented order -/

/-- The client's defaults and destinations follow the documented order. -/
structure FollowsPriority {F : Type} (ops : FloatOps F) (env : Environment)
    (defaults : ClientDefaults F) : Prop where
  tenantId : (Setting.tenantId ops).Follows env defaults
  userId : (Setting.userId ops).Follows env defaults
  runtimePolicyPath : (Setting.runtimePolicyPath ops).Follows env defaults
  lanePolicyPath : (Setting.lanePolicyPath ops).Follows env defaults
  autoPolicyUpdate : (Setting.autoPolicyUpdate ops).Follows env defaults
  cpuGuardrailPercent : (Setting.cpuGuardrailPercent ops).Follows env defaults
  accounts : ∀ destination, IsAccount destination →
    destinationBase env defaults (normalizeDestinationAccount destination) =
      (envBase env (normalizeDestinationAccount destination)).or
        (fileBase env (normalizeDestinationAccount destination))
  resolves : ∀ destination fileName, IsAccount destination →
    (∀ base, destinationBase env defaults (normalizeDestinationAccount destination) = some base →
      resolveDestinationUri env (some destination) fileName defaults =
        .ok (composeDestinationUri base fileName)) ∧
    (destinationBase env defaults (normalizeDestinationAccount destination) = none →
      ∃ msg, resolveDestinationUri env (some destination) fileName defaults = .error msg)
  accountFrame : ∀ account before after rawLine,
    applyMetrarcLine ops before rawLine = some after → accountAssigned account rawLine = none →
      after.destinations account = before.destinations account

/-- **The configuration follows the documented order exactly when no account has one base in
the files and another one in the environment.** -/
theorem followsPriority_iff {F : Type} (ops : FloatOps F) (env : Environment)
    (hquotes : ∀ rawLine ∈ metrarcLines env, ¬ LoneQuote rawLine) :
    ∃ defaults, loadClientDefaults ops env = some defaults ∧
      (FollowsPriority ops env defaults ↔
        ∀ destination, IsAccount destination → ∀ fromEnv fromFile,
          envBase env (normalizeDestinationAccount destination) = some fromEnv →
          fileBase env (normalizeDestinationAccount destination) = some fromFile →
            fromEnv = fromFile) := by
  obtain ⟨defaults, hload⟩ := Option.isSome_iff_exists.1
    ((loadClientDefaults_isSome_iff env).2 hquotes)
  refine ⟨defaults, hload, ?_, ?_⟩
  · intro h destination haccount fromEnv fromFile henv hfile
    have hbase := h.accounts destination haccount
    rw [destinationBase_eq hload, henv, hfile] at hbase
    exact (Option.some.inj hbase).symm
  · intro hsame
    constructor
    · exact Setting.follows _ hload
    · exact Setting.follows _ hload
    · exact Setting.follows _ hload
    · exact Setting.follows _ hload
    · exact Setting.follows _ hload
    · exact Setting.follows _ hload
    · intro destination haccount
      rw [destinationBase_eq hload]
      cases hfile : fileBase env (normalizeDestinationAccount destination) with
      | none => simp
      | some fromFile =>
        cases henv : envBase env (normalizeDestinationAccount destination) with
        | none => rfl
        | some fromEnv =>
          rw [hsame destination haccount fromEnv fromFile henv hfile]
    · intro destination fileName haccount
      exact resolveDestinationUri_account haccount fileName
    · intro account before after rawLine hline hnone
      rw [destinations_applyMetrarcLine account hline, hnone]
      rfl

end

namespace MetrarcSample

/-- A file and a variable that are about different settings. -/
def agreeing : Environment :=
  home "tenant_id=acme\ndestination.home=local://a/\n" [("METRA_USER_ID", "ana")]

/-- A file and a variable with different bases for one account. -/
def conflicting : Environment :=
  home "destination.home=local://a/\n" [("METRA_DESTINATION_HOME", "local://b/")]

end MetrarcSample

open MetrarcSample in
theorem followsPriority_iff_agreeing :
    ∃ defaults, loadClientDefaults exactOps agreeing = some defaults ∧
      (FollowsPriority exactOps agreeing defaults ↔
        ∀ destination, IsAccount destination → ∀ fromEnv fromFile,
          envBase agreeing (normalizeDestinationAccount destination) = some fromEnv →
          fileBase agreeing (normalizeDestinationAccount destination) = some fromFile →
            fromEnv = fromFile) := by
  apply followsPriority_iff exactOps
  apply (@loadClientDefaults_isSome_iff _ exactOps agreeing).1
  decide +kernel

open MetrarcSample in
/-- The base of the file is used, and not that of the environment. -/
theorem conflicting_uses_file :
    ∃ defaults, loadClientDefaults exactOps conflicting = some defaults ∧
      resolveDestinationUri conflicting (some "Home".toList) "x.bin".toList defaults =
        .ok "local://a/x.bin".toList ∧
      ¬ FollowsPriority exactOps conflicting defaults := by
  have hisSome : (loadClientDefaults exactOps conflicting).isSome = true := by decide +kernel
  obtain ⟨defaults, hload⟩ := Option.isSome_iff_exists.1 hisSome
  have haccount : IsAccount "Home".toList := ⟨by decide +kernel, by decide +kernel⟩
  refine ⟨defaults, hload, ?_, ?_⟩
  · apply (resolveDestinationUri_account haccount "x.bin".toList).1 "local://a/".toList
    rw [destinationBase_eq hload]
    decide +kernel
  · intro h
    have hbase := h.accounts "Home".toList haccount
    rw [destinationBase_eq hload] at hbase
    revert hbase
    decide +kernel

end Metra.Client
