import Kakoi.Policy.Layers
import Kakoi.Policy.Wildcard

/-! The environment inside the isolation, assembled in seven stages. -/

namespace Kakoi

open Std (ExtTreeMap ExtTreeSet)

/-- Environment variables by name, both as bytes. -/
abbrev Values := ExtTreeMap Name Name

/-- The most bytes a secret's value may have. -/
def secretValueLimit : Nat := 64 * 1024

/-- What the outer layer found at a secret's file. -/
inductive SecretFile where
  | absent
  | bytes (bytes : Name)
  | unreadable (reason : Text)
  | readFailure (reason : Text) (cause : IoCause)

/-- The final environment, with the names of the secrets so that their values are masked. -/
structure Environment where
  values : Values := ∅
  secretNames : ExtTreeSet Name := ∅

structure Assembled where
  environment : Environment
  warnings : List Warning

/-- Stage 1: the host environment, or the `pass` variables alone. -/
def initialValues (policy : Policy) (host : Values) : Values :=
  match policy.envMode with
  | .inherit => host
  | .clear =>
    policy.envPass.foldl (fun values name =>
      match host[utf8 name]? with
      | some value => values.insert (utf8 name) value
      | none => values) ∅

/-- Stage 2: `unset`, with wildcards. -/
def unset (values : Values) (patterns : List String) : Values :=
  values.filter fun name _ => !patterns.any fun pattern => wildcardMatches pattern name

def lineFeed : UInt8 := 10

def carriageReturn : UInt8 := 13

/-- The content of a secret file without one trailing newline, LF or CR LF. -/
def withoutNewline (bytes : Name) : Name :=
  if [carriageReturn, lineFeed].isSuffixOf bytes then bytes.dropLast.dropLast
  else if [lineFeed].isSuffixOf bytes then bytes.dropLast
  else bytes

def secretValue (name : String) (bytes : Name) : Except Diagnostic Name :=
  let value := withoutNewline bytes
  if value = [] then .error (.secret ["the file of secret `", name, "` is empty"])
  else if value.contains 0 then
    .error (.secret ["the file of secret `", name, "` contains a NUL byte"])
  else if secretValueLimit < value.length then
    .error (.secret ["the value of secret `", name, "` is longer than ",
      toString secretValueLimit, " bytes"])
  else .ok value

structure SecretStage where
  values : Values
  secretNames : ExtTreeSet Name := ∅
  warnings : List Warning := []

/-- One secret of stage 4: removed whatever its origin, then set from its file. -/
def applySecret (secrets : ExtTreeMap String SecretFile) (stage : SecretStage)
    (secret : String × PolicyPath) : Except Diagnostic SecretStage :=
  let (name, path) := secret
  let values := stage.values.erase (utf8 name)
  let failed (reason : Text) : Diagnostic :=
    .secret (format ["the file of secret `", name, "` (", path.text, ") ", reason])
  match secrets[name]?.getD .absent with
  | .bytes bytes => do
    let value ← secretValue name bytes
    return { stage with
      values := values.insert (utf8 name) value
      secretNames := stage.secretNames.insert (utf8 name) }
  | .absent =>
    .ok { stage with
      values
      warnings := stage.warnings ++ [⟨format
        ["the file of secret `", name, "` (", path.text,
          ") does not exist; the variable is not set"]⟩] }
  | .unreadable reason => .error (failed reason)
  | .readFailure reason cause => .error ((failed reason).withIoCause cause)

def applySecrets (values : Values) (policy : Policy) (secrets : ExtTreeMap String SecretFile) :
    Except Diagnostic SecretStage :=
  policy.secrets.toList.foldlM (applySecret secrets) { values }

def isDigit (byte : UInt8) : Bool := 48 ≤ byte && byte ≤ 57

/-- One more than `usize::MAX`. -/
def usizeLimit : Nat := 18446744073709551616

/-- `str::parse::<usize>` of a text of digits. -/
def parseCount (text : Name) : Option Nat :=
  if text ≠ [] && text.all isDigit then
    let number := text.foldl (fun number byte => 10 * number + (byte.toNat - 48)) 0
    if number < usizeLimit then some number else none
  else none

def gitConfigCount : Name := utf8 "GIT_CONFIG_COUNT"

/-- Stage 5: the git rewrite as numbered pairs after the pairs already there. -/
def applyInsteadOf (values : Values) (insteadOf : ExtTreeMap String String) :
    Except Diagnostic Values := do
  if insteadOf.isEmpty then return values
  let count ←
    match values[gitConfigCount]? with
    | none => .ok 0
    | some text =>
      match parseCount text with
      | some count => .ok count
      | none => .error (.env ["GIT_CONFIG_COUNT is not a number"])
  let total := count + insteadOf.size
  if usizeLimit ≤ total then throw (.env ["GIT_CONFIG_COUNT is too large"])
  let numbered := insteadOf.toList.zipIdx.foldl (fun values ((original, replacement), index) =>
    let number := toString (count + index)
    (values.insert (utf8 ("GIT_CONFIG_KEY_" ++ number))
        (utf8 ("url." ++ replacement ++ ".insteadof"))).insert
      (utf8 ("GIT_CONFIG_VALUE_" ++ number)) (utf8 original)) values
  return numbered.insert gitConfigCount (utf8 (toString total))

def colon : UInt8 := 58

def pathVariable : Name := utf8 "PATH"

/-- Stage 6: `path-prepend` in front of `PATH`. -/
def prependPath (values : Values) (pathPrepend : List Path) : Values :=
  if pathPrepend.isEmpty then values
  else
    let front := [colon].intercalate (pathPrepend.map Path.bytes)
    values.insert pathVariable
      (match values[pathVariable]? with
       | some existing => front ++ colon :: existing
       | none => front)

/-- Assembles the environment in the seven stages. -/
def assembleEnvironment (policy : Policy) (host : Values) (secrets : ExtTreeMap String SecretFile)
    (pathPrepend : List Path) : Except Diagnostic Assembled := do
  let inherited := unset (initialValues policy host) policy.envUnset
  let written := policy.envSet.foldl (fun values name value =>
    values.insert (utf8 name) (utf8 value)) inherited
  let stage ← applySecrets written policy secrets
  let rewritten ← applyInsteadOf stage.values policy.insteadOf
  let values := (prependPath rewritten pathPrepend).insert (utf8 "KAKOI") (utf8 "1")
  return { environment := { values, secretNames := stage.secretNames }, warnings := stage.warnings }

/-- The environment as it may be shown: a secret's value is `none`. -/
def Environment.shown (environment : Environment) : ExtTreeMap Name (Option Name) :=
  environment.values.map fun name value =>
    if environment.secretNames.contains name then none else some value

/-- How the final environment differs from the host's, for the summary of the plan. -/
structure EnvironmentChanges where
  inherited : Bool
  kept : Nat := 0
  unset : List Name := []
  set : List (Name × Text) := []
  secrets : List Name := []
  deriving DecidableEq

/-- Bytes shown as text, decoded like a path only when printed. -/
def lossy (bytes : Name) : Text := [.path ⟨bytes⟩]

/-- The whole value or, when it ends in the host's after a colon, the part in front of it and
a placeholder for the host's value. -/
def shownChange (name : Name) (before : Option Name) (value : Name) : Text :=
  match before with
  | none => lossy value
  | some before =>
    if before = [] then lossy value
    else
      match (value.dropSuffix? before).bind (·.dropSuffix? [colon]) with
      | some front => format [lossy front, ":<the host's ", lossy name, ">"]
      | none => lossy value

/-- One variable of the final environment, compared with the host's. -/
def addChange (host : Values) (changes : EnvironmentChanges) :
    Name × Option Name → EnvironmentChanges
  | (name, none) => { changes with secrets := changes.secrets ++ [name] }
  | (name, some value) =>
    if host[name]? = some value then { changes with kept := changes.kept + 1 }
    else { changes with set := changes.set ++ [(name, shownChange name host[name]? value)] }

/-- The changes of `environment` against `host`. -/
def environmentChanges (policy : Policy) (host : Values) (environment : Environment) :
    EnvironmentChanges :=
  let inherited := decide (policy.envMode = .inherit)
  let changes := environment.shown.toList.foldl (addChange host) { inherited }
  if inherited then
    { changes with unset := host.keys.filter fun name => !environment.values.contains name }
  else changes

end Kakoi
