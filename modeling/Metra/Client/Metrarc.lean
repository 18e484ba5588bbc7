import Metra.Client.Float
import Metra.Paths.UnixPath
import Metra.Proto

/-!
# The client's configuration files

What `load_client_defaults` reads: the built-in defaults, then three `.metrarc` files one
after the other, then the environment; and how a destination account is looked up.  `none`
is a panic, which only a slice of a string can raise.

* `applyMetrarcLine`, `applyMetrarcFile`, `loadClientDefaults`, `resolveDestinationUri` — the
  code;
* `loadClientDefaults_eq` — the files are one sequence of lines;
* `loadClientDefaults_completes_iff` — reading them panics **exactly when some line has a
  single quote character for its value**.
-/

namespace Metra.Client

open Text

/-! ## Values -/

/-- The double quote. -/
def doubleQuote : Char := Char.ofNat 34

/-- The single quote. -/
def singleQuote : Char := Char.ofNat 39

/-- Without white space at both ends. -/
def trim (value : Str) : Str := trimBy isWhitespace value

/-- In lower case, as far as the letters are ASCII. -/
def toAsciiLowercase (value : Str) : Str := value.map Char.toLower

/-- A switch, in one of its four spellings. -/
def parseBool (value : Str) : Option Bool :=
  let value := toAsciiLowercase (trim value)
  if value ∈ ["1".toList, "true".toList, "yes".toList, "on".toList] then some true
  else if value ∈ ["0".toList, "false".toList, "no".toList, "off".toList] then some false
  else none

/-- The value starts and ends with the character. -/
def wrappedIn (quote : Char) (value : Str) : Bool :=
  value.head? = some quote && value.getLast? = some quote

/-- A trimmed value without the quotes it is wrapped in; a slice that falls out of order panics. -/
def stripQuoteWrappers (value : Str) : Option Str :=
  let trimmed := trim value
  if wrappedIn doubleQuote trimmed || wrappedIn singleQuote trimmed then
    slice? trimmed 1 (utf8Len trimmed - 1)
  else some trimmed

/-- Accounts are looked up trimmed and in lower case. -/
def normalizeDestinationAccount (value : Str) : Str := toAsciiLowercase (trim value)

/-! ## Defaults -/

/-- What a program sees of its environment and of the files. -/
structure Environment where
  /-- `env::var`, for variables that are set to Unicode. -/
  var : Str → Option Str
  /-- `env::var_os("HOME")`. -/
  home : Option UnixPath.Path
  currentDir : Option UnixPath.Path
  /-- `read_to_string`, for files that can be read. -/
  readToString : UnixPath.Path → Option Str

/-- The home directory, or else the current one. -/
def Environment.homeDir (env : Environment) : UnixPath.Path :=
  (env.home.or env.currentDir).getD UnixPath.dot

/-- The client's own directory. -/
def metraHomeDir (env : Environment) : UnixPath.Path := UnixPath.join env.homeDir ".metra".toList

/-- What the client takes where the command line says nothing. -/
structure ClientDefaults (F : Type) where
  tenantId : Str
  userId : Str
  runtimePolicyPath : UnixPath.Path
  lanePolicyPath : UnixPath.Path
  autoPolicyUpdate : Bool
  cpuGuardrailPercent : F
  destinations : Str → Option Str

section

variable {F : Type} (ops : FloatOps F)

/-- What it takes when no file and no variable says anything. -/
def ClientDefaults.builtIn (env : Environment) : ClientDefaults F where
  tenantId := "default-tenant".toList
  userId := "default-user".toList
  runtimePolicyPath := UnixPath.join (metraHomeDir env) "runtime-policy.json".toList
  lanePolicyPath := UnixPath.join (metraHomeDir env) "lane-policy.json".toList
  autoPolicyUpdate := true
  cpuGuardrailPercent := ops.ofNat 80
  destinations := fun _ => none

/-- `value.parse::<f64>()`, at least zero. -/
def parsePercent (value : Str) : Option F := (ops.parse value).map fun parsed =>
  ops.max parsed (ops.ofNat 0)

/-! ## Files -/

/-- What a line with a key and a value does. -/
def assignKey (defaults : ClientDefaults F) (key value : Str) : ClientDefaults F :=
  match stripPrefix "destination.".toList key with
  | some account =>
    { defaults with
      destinations :=
        Function.update defaults.destinations (normalizeDestinationAccount account) (some value) }
  | none =>
    if key = "tenant_id".toList then { defaults with tenantId := value }
    else if key = "user_id".toList then { defaults with userId := value }
    else if key = "runtime_policy_path".toList then { defaults with runtimePolicyPath := value }
    else if key = "lane_policy_path".toList then { defaults with lanePolicyPath := value }
    else if key = "auto_policy_update".toList then
      { defaults with autoPolicyUpdate := (parseBool value).getD defaults.autoPolicyUpdate }
    else if key = "cpu_guardrail_percent".toList then
      { defaults with
        cpuGuardrailPercent := (parsePercent ops value).getD defaults.cpuGuardrailPercent }
    else defaults

/-- A line of a `.metrarc`: comments, and lines without a key or a value, change nothing. -/
def applyMetrarcLine (defaults : ClientDefaults F) (rawLine : Str) : Option (ClientDefaults F) :=
  let line := trim rawLine
  if line = [] ∨ line.head? = some '#' then some defaults
  else
    match splitOnce '=' line with
    | none => some defaults
    | some (rawKey, rawValue) => do
      let key := trim rawKey
      let value := trim (← stripQuoteWrappers rawValue)
      if key = [] ∨ value = [] then return defaults
      return assignKey ops defaults key value

/-- The lines of a file, one after another; a file that cannot be read changes nothing. -/
def applyMetrarcFile (env : Environment) (defaults : ClientDefaults F) (path : UnixPath.Path) :
    Option (ClientDefaults F) :=
  match env.readToString path with
  | none => some defaults
  | some contents => (lines contents).foldlM (applyMetrarcLine ops) defaults

/-! ## The environment -/

/-- A variable that is set to more than whitespace. -/
def nonBlank (value : Str) : Option Str := if trim value = [] then none else some value

/-- The variables of the environment, above all files. -/
def applyEnvOverrides (env : Environment) (defaults : ClientDefaults F) : ClientDefaults F where
  tenantId := ((env.var "METRA_TENANT_ID".toList).bind nonBlank).getD defaults.tenantId
  userId := ((env.var "METRA_USER_ID".toList).bind nonBlank).getD defaults.userId
  runtimePolicyPath :=
    ((env.var "METRA_RUNTIME_POLICY_PATH".toList).bind nonBlank).getD defaults.runtimePolicyPath
  lanePolicyPath :=
    ((env.var "METRA_LANE_POLICY_PATH".toList).bind nonBlank).getD defaults.lanePolicyPath
  autoPolicyUpdate :=
    ((env.var "METRA_AUTO_POLICY_UPDATE".toList).bind parseBool).getD defaults.autoPolicyUpdate
  cpuGuardrailPercent :=
    ((env.var "METRA_CPU_GUARDRAIL_PERCENT".toList).bind (parsePercent ops)).getD
      defaults.cpuGuardrailPercent
  destinations := defaults.destinations

/-- The built-in values, the three files from the farthest to the nearest, and the environment. -/
def loadClientDefaults (env : Environment) : Option (ClientDefaults F) := do
  let defaults := ClientDefaults.builtIn ops env
  let home := env.homeDir
  let defaults ← applyMetrarcFile ops env defaults (UnixPath.join home ".metrarc".toList)
  let defaults ← applyMetrarcFile ops env defaults
    (UnixPath.join (UnixPath.join home ".metra".toList) ".metrarc".toList)
  let defaults ←
    match env.currentDir with
    | some cwd => applyMetrarcFile ops env defaults (UnixPath.join cwd ".metrarc".toList)
    | none => some defaults
  return applyEnvOverrides ops env defaults

/-! ## Destinations -/

/-- The variable that holds the destination of an account. -/
def envDestinationVarName (account : Str) : Str :=
  "METRA_DESTINATION_".toList ++
    account.map fun ch => if ch.isAlphanum then ch.toUpper else '_'

/-- The place of the file name in a base URI. -/
def fileNamePattern : Str := "\x7bfile_name\x7d".toList

/-- A base is completed with the file name: at its pattern, or behind its slash. -/
def composeDestinationUri (base fileName : Str) : Str :=
  if containsStr base fileNamePattern then replace base fileNamePattern fileName
  else if endsWith base "/".toList || endsWith base "://".toList then base ++ fileName
  else base

/-- The base URI of an account, from the files and otherwise from the environment. -/
def destinationBase (env : Environment) (defaults : ClientDefaults F) (accountKey : Str) :
    Option Str :=
  match defaults.destinations accountKey with
  | some configured => some configured
  | none =>
    match env.var (envDestinationVarName accountKey) with
    | some configured => if trim configured ≠ [] then some (trim configured) else none
    | none => none

/-- A destination is a URI, or else an account whose base is looked up. -/
def resolveDestinationUri (env : Environment) (destination : Option Str) (fileName : Str)
    (defaults : ClientDefaults F) : Except String Str :=
  match (destination.map trim).filter fun value => value ≠ [] with
  | none => .error "destination is required unless --transfer-id is provided"
  | some destination =>
    if containsStr destination "://".toList then .ok (composeDestinationUri destination fileName)
    else
      let accountKey := normalizeDestinationAccount destination
      match destinationBase env defaults accountKey with
      | some configured => .ok (composeDestinationUri configured fileName)
      | none =>
        let name := String.ofList destination
        let envKey := String.ofList (envDestinationVarName accountKey)
        .error (s!"unknown destination account '{name}'; define destination.{name} in .metrarc " ++
          s!"(or set {envKey}) or provide a full destination URI")

end

/-! ## Completion -/

section

variable {F : Type} {ops : FloatOps F} {env : Environment}

/-- **A value is stripped of its quotes except when it is a single quote character**, where the
slice would end before its start. -/
theorem stripQuoteWrappers_eq_none_iff (value : Str) :
    stripQuoteWrappers value = none ↔ trim value = [doubleQuote] ∨ trim value = [singleQuote] := by
  have hwrapped : ∀ quote : Char, quote.utf8Size = 1 → wrappedIn quote (trim value) = true →
      (slice? (trim value) 1 (utf8Len (trim value) - 1) = none ↔ trim value = [quote]) := by
    intro quote hsize hwrap
    simp only [wrappedIn, Bool.and_eq_true, decide_eq_true_eq] at hwrap
    obtain ⟨hhead, hlast⟩ := hwrap
    obtain ⟨rest, hrest⟩ := List.head?_eq_some_iff.1 hhead
    rw [hrest] at hlast ⊢
    rcases List.eq_nil_or_concat rest with rfl | ⟨mid, last, rfl⟩
    · rw [slice?_eq_none_of_lt (by simp [utf8Len, hsize])]
      simp
    · rw [List.concat_eq_append] at hlast ⊢
      rw [← List.cons_append, List.getLast?_append_cons] at hlast
      rw [List.getLast?_singleton, Option.some.injEq] at hlast
      subst hlast
      rw [slice?_inner hsize hsize]
      simp
  have hdouble := hwrapped doubleQuote (by decide)
  have hsingle := hwrapped singleQuote (by decide)
  rw [stripQuoteWrappers]
  by_cases hd : wrappedIn doubleQuote (trim value) = true
  · rw [hd, Bool.true_or, if_pos rfl, hdouble hd]
    constructor
    · intro h
      exact .inl h
    · rintro (h | h)
      · exact h
      · rw [h] at hd
        exact absurd hd (by decide)
  · rw [Bool.not_eq_true] at hd
    rw [hd, Bool.false_or]
    by_cases hs : wrappedIn singleQuote (trim value) = true
    · rw [if_pos hs, hsingle hs]
      constructor
      · intro h
        exact .inr h
      · rintro (h | h)
        · rw [h] at hs
          exact absurd hs (by decide)
        · exact h
    · rw [if_neg hs]
      constructor
      · intro h
        cases h
      · rintro (h | h)
        · rw [h] at hd
          exact absurd hd (by decide)
        · rw [h] at hs
          exact absurd (show wrappedIn singleQuote [singleQuote] = true by decide) hs

/-- A line that gives a key the value of a single quote character. -/
def LoneQuote (rawLine : Str) : Prop :=
  trim rawLine ≠ [] ∧ (trim rawLine).head? ≠ some '#' ∧
    ∃ key value, splitOnce '=' (trim rawLine) = some (key, value) ∧
      (trim value = [doubleQuote] ∨ trim value = [singleQuote])

/-- **A line panics exactly when its value is a single quote character.** -/
theorem applyMetrarcLine_eq_none_iff (defaults : ClientDefaults F) (rawLine : Str) :
    applyMetrarcLine ops defaults rawLine = none ↔ LoneQuote rawLine := by
  rw [applyMetrarcLine, LoneQuote]
  dsimp only
  by_cases hskip : trim rawLine = [] ∨ (trim rawLine).head? = some '#'
  · rw [if_pos hskip]
    constructor
    · intro h
      cases h
    · rintro ⟨hnil, hcomment, -⟩
      rcases hskip with h | h
      · exact absurd h hnil
      · exact absurd h hcomment
  · rw [if_neg hskip]
    obtain ⟨hnil, hcomment⟩ := not_or.1 hskip
    cases hsplit : splitOnce '=' (trim rawLine) with
    | none => simp
    | some parts =>
      obtain ⟨rawKey, rawValue⟩ := parts
      have hlone : (∃ key value, some (rawKey, rawValue) = some (key, value) ∧
          (trim value = [doubleQuote] ∨ trim value = [singleQuote])) ↔
            stripQuoteWrappers rawValue = none := by
        rw [stripQuoteWrappers_eq_none_iff]
        constructor
        · rintro ⟨key, value, heq, h⟩
          cases heq
          exact h
        · intro h
          exact ⟨rawKey, rawValue, rfl, h⟩
      rw [hlone]
      simp only [ne_eq, hnil, not_false_eq_true, hcomment, true_and]
      cases hstrip : stripQuoteWrappers rawValue with
      | none => simp
      | some stripped =>
        simp only [Option.bind_eq_bind, Option.bind_some]
        split <;> simp

/-- The files that are read, in this order. -/
def metrarcFiles (env : Environment) : List UnixPath.Path :=
  [UnixPath.join env.homeDir ".metrarc".toList,
    UnixPath.join (UnixPath.join env.homeDir ".metra".toList) ".metrarc".toList] ++
  (env.currentDir.map fun cwd => UnixPath.join cwd ".metrarc".toList).toList

/-- The lines of the files that can be read. -/
def metrarcLines (env : Environment) : List Str :=
  (metrarcFiles env).flatMap fun path => ((env.readToString path).map lines).getD []

theorem applyMetrarcFile_eq (defaults : ClientDefaults F) (path : UnixPath.Path) :
    applyMetrarcFile ops env defaults path =
      (((env.readToString path).map lines).getD []).foldlM (applyMetrarcLine ops) defaults := by
  rw [applyMetrarcFile]
  cases env.readToString path with
  | none => rfl
  | some contents => rfl

/-- **The files are one sequence of lines**, behind which the environment is looked at. -/
theorem loadClientDefaults_eq (env : Environment) :
    loadClientDefaults ops env =
      ((metrarcLines env).foldlM (applyMetrarcLine ops) (.builtIn ops env)).map
        (applyEnvOverrides ops env) := by
  rw [loadClientDefaults, metrarcLines, metrarcFiles]
  cases env.currentDir with
  | none => simp [applyMetrarcFile_eq, Option.map_eq_bind, Option.bind_assoc]
  | some cwd => simp [applyMetrarcFile_eq, Option.map_eq_bind, Option.bind_assoc]

theorem foldlM_eq_none_iff (rawLines : List Str) (defaults : ClientDefaults F) :
    rawLines.foldlM (applyMetrarcLine ops) defaults = none ↔
      ∃ line ∈ rawLines, LoneQuote line := by
  induction rawLines generalizing defaults with
  | nil => simp
  | cons line rawLines ih =>
    rw [List.foldlM_cons, List.exists_mem_cons_iff, ← applyMetrarcLine_eq_none_iff defaults]
    cases hline : applyMetrarcLine ops defaults line with
    | none => simp
    | some next => simp [ih next]

theorem loadClientDefaults_isSome_iff (env : Environment) :
    (loadClientDefaults ops env).isSome = true ↔
      ∀ rawLine ∈ metrarcLines env, ¬ LoneQuote rawLine := by
  rw [Option.isSome_iff_ne_none, ne_eq, loadClientDefaults_eq, Option.map_eq_none_iff,
    foldlM_eq_none_iff]
  simp

/-- **Configuration parsing completes exactly when no line gives a key the value of a single
quote character**: of a line, of all the files, and of the slice that is taken. -/
theorem loadClientDefaults_completes_iff {F : Type} (ops : FloatOps F) :
    (∀ value, (stripQuoteWrappers value).isSome = true ↔
      ¬ (trim value = [doubleQuote] ∨ trim value = [singleQuote])) ∧
    (∀ (defaults : ClientDefaults F) rawLine,
      (applyMetrarcLine ops defaults rawLine).isSome = true ↔ ¬ LoneQuote rawLine) ∧
    ∀ env, (loadClientDefaults ops env).isSome = true ↔
      ∀ rawLine ∈ metrarcLines env, ¬ LoneQuote rawLine := by
  refine ⟨?_, ?_, ?_⟩
  · intro value
    rw [Option.isSome_iff_ne_none, ne_eq, stripQuoteWrappers_eq_none_iff]
  · intro defaults rawLine
    rw [Option.isSome_iff_ne_none, ne_eq, applyMetrarcLine_eq_none_iff]
  · intro env
    exact loadClientDefaults_isSome_iff env

end

namespace MetrarcSample

/-- A home directory with one file, and an environment. -/
def home (metrarc : String) (vars : List (String × String)) : Environment where
  var name := (vars.map fun entry => (entry.1.toList, entry.2.toList)).lookup name
  home := some "/home/a".toList
  currentDir := none
  readToString path :=
    if path = "/home/a/.metrarc".toList then some metrarc.toList else none

end MetrarcSample

open MetrarcSample in
/-- A value whose closing quote was forgotten together with the text. -/
theorem loadClientDefaults_panics :
    applyMetrarcLine exactOps (.builtIn exactOps (home "" [])) "user_id='".toList = none ∧
      loadClientDefaults exactOps (home "tenant_id=acme\nuser_id='\n" []) = none := by
  decide +kernel

end Metra.Client
