import Kakoi.Base.Collecting
import Kakoi.Plan.IsolatedEnv

/-! What is shown of an environment, for two contents of the same secret files: the one value read
again is `GIT_CONFIG_COUNT`. -/

namespace Kakoi

open Std (ExtTreeMap ExtTreeSet)

/-- What is known of a secret file without its content. -/
inductive Presence where
  | absent
  | bytes
  | unreadable
  deriving DecidableEq

def SecretFile.presence : SecretFile → Presence
  | .absent => .absent
  | .bytes _ => .bytes
  | .unreadable _ => .unreadable
  | .readFailure _ _ => .unreadable

def secretFile (secrets : ExtTreeMap String SecretFile) (name : String) : SecretFile :=
  secrets[name]?.getD .absent

/-- Two maps of secret files that may differ in the bytes only. -/
def AlikeSecrets (left right : ExtTreeMap String SecretFile) : Prop :=
  ∀ name, (secretFile left name).presence = (secretFile right name).presence

/-- The environment after `set`, before the secrets. -/
def writtenValues (policy : Policy) (host : Values) : Values :=
  policy.envSet.foldl (fun values name value => values.insert (utf8 name) (utf8 value))
    (unset (initialValues policy host) policy.envUnset)

/-- The same without the variables of the secrets. -/
def withoutSecrets (policy : Policy) (host : Values) : Values :=
  policy.secrets.toList.foldl (fun values secret => values.erase (utf8 secret.1))
    (writtenValues policy host)

/-- The variables of the secrets that are set from the bytes of their files. -/
def IsSecret (listed : List (String × PolicyPath)) (secrets : ExtTreeMap String SecretFile)
    (name : Name) : Prop :=
  ∃ secret ∈ listed, utf8 secret.1 = name ∧ (secretFile secrets secret.1).presence = .bytes

theorem secretValue_ok (valid : secretValue name bytes = .ok value) :
    value = withoutNewline bytes := by
  simp only [secretValue] at valid
  split at valid
  · cases valid
  · split at valid
    · cases valid
    · split at valid
      · cases valid
      · cases valid
        rfl

/-- The two ways a secret is applied without an error. -/
theorem applySecret_ok (applied : applySecret secrets stage secret = .ok next) :
    (∃ bytes, secretFile secrets secret.1 = .bytes bytes ∧
        next.values =
          (stage.values.erase (utf8 secret.1)).insert (utf8 secret.1) (withoutNewline bytes) ∧
        next.secretNames = stage.secretNames.insert (utf8 secret.1)) ∨
      (secretFile secrets secret.1 = .absent ∧
        next.values = stage.values.erase (utf8 secret.1) ∧
        next.secretNames = stage.secretNames) := by
  obtain ⟨name, path⟩ := secret
  simp only [applySecret] at applied
  split at applied
  · rename_i bytes present
    obtain ⟨value, valid, made⟩ := Except.bind_eq_ok.mp applied
    cases made
    exact .inl ⟨bytes, present, by rw [secretValue_ok valid], rfl⟩
  · rename_i missing
    cases applied
    exact .inr ⟨missing, rfl, rfl⟩
  · cases applied
  · cases applied

/-- The environment with the secrets of `listed`, over one without them. -/
structure SecretsSet (listed : List (String × PolicyPath)) (secrets : ExtTreeMap String SecretFile)
    (base : Values) (stage : SecretStage) : Prop where
  names : ∀ name, name ∈ stage.secretNames ↔ IsSecret listed secrets name
  value : ∀ secret ∈ listed, ∀ bytes, secretFile secrets secret.1 = .bytes bytes →
    stage.values[utf8 secret.1]? = some (withoutNewline bytes)
  others : ∀ name, ¬ IsSecret listed secrets name → stage.values[name]? = base[name]?

theorem SecretsSet.step (set : SecretsSet listed secrets base stage)
    (applied : applySecret secrets stage secret = .ok next) :
    SecretsSet (listed ++ [secret]) secrets (base.erase (utf8 secret.1)) next := by
  have grown : ∀ name, IsSecret (listed ++ [secret]) secrets name ↔
      IsSecret listed secrets name ∨
        (utf8 secret.1 = name ∧ (secretFile secrets secret.1).presence = .bytes) := by
    intro name
    simp [IsSecret, or_and_right, exists_or]
  obtain ⟨bytes, present, values, names⟩ | ⟨missing, values, names⟩ := applySecret_ok applied
  · refine ⟨fun name => ?_, fun other member found contents => ?_, fun name plain => ?_⟩
    · rw [names, ExtTreeSet.mem_insert, grown, set.names]
      simp [present, SecretFile.presence, or_comm]
    · rw [values, ExtTreeMap.getElem?_insert]
      by_cases same : utf8 secret.1 = utf8 other.1
      · rw [utf8_injective same, contents] at present
        cases present
        simp [same]
      · rcases mem_concat.mp member with earlier | rfl
        · simp [same, ExtTreeMap.getElem?_erase, set.value other earlier found contents]
        · exact absurd rfl same
    · have different : utf8 secret.1 ≠ name := fun same =>
        plain ((grown name).mpr (.inr ⟨same, by rw [present]; rfl⟩))
      have earlier : ¬ IsSecret listed secrets name := fun secret =>
        plain ((grown name).mpr (.inl secret))
      simp [values, ExtTreeMap.getElem?_insert, ExtTreeMap.getElem?_erase, different,
        set.others name earlier]
  · refine ⟨fun name => ?_, fun other member found contents => ?_, fun name plain => ?_⟩
    · rw [names, grown, set.names]
      simp [missing, SecretFile.presence]
    · have different : utf8 secret.1 ≠ utf8 other.1 := by
        intro same
        rw [utf8_injective same, contents] at missing
        cases missing
      rcases mem_concat.mp member with earlier | rfl
      · simp [values, ExtTreeMap.getElem?_erase, different,
          set.value other earlier found contents]
      · exact absurd rfl different
    · have earlier : ¬ IsSecret listed secrets name := fun secret =>
        plain ((grown name).mpr (.inl secret))
      rw [values, ExtTreeMap.getElem?_erase, ExtTreeMap.getElem?_erase, set.others name earlier]

theorem SecretsSet.run (set : SecretsSet listed secrets base stage) :
    ∀ rest : List (String × PolicyPath),
      rest.foldlM (applySecret secrets) stage = .ok final →
        SecretsSet (listed ++ rest) secrets
          (rest.foldl (fun values secret => values.erase (utf8 secret.1)) base) final := by
  intro rest
  induction rest generalizing listed base stage with
  | nil =>
    intro done
    cases done
    simpa using set
  | cons secret rest ih =>
    intro done
    rw [List.foldlM_cons] at done
    obtain ⟨next, applied, later⟩ := Except.bind_eq_ok.mp done
    simpa using ih (set.step applied) later

theorem applySecrets_set
    (applied : applySecrets (writtenValues policy host) policy secrets = .ok stage) :
    SecretsSet policy.secrets.toList secrets (withoutSecrets policy host) stage := by
  have empty : SecretsSet [] secrets (writtenValues policy host)
      { values := writtenValues policy host } :=
    ⟨fun name => by simp [IsSecret], by simp, fun _ _ => rfl⟩
  exact empty.run _ applied

theorem isSecret_congr (alike : AlikeSecrets left right) :
    IsSecret listed left name ↔ IsSecret listed right name := by
  simp only [IsSecret, alike _]

/-- The variables the git rewrite adds, numbered from `first`. -/
def rewritePairs (insteadOf : ExtTreeMap String String) (first : Nat) : List (Name × Name) :=
  insteadOf.toList.zipIdx.flatMap fun ((original, replacement), index) =>
    [(utf8 ("GIT_CONFIG_KEY_" ++ toString (first + index)),
        utf8 ("url." ++ replacement ++ ".insteadof")),
      (utf8 ("GIT_CONFIG_VALUE_" ++ toString (first + index)), utf8 original)]

/-- What a variable is after the pairs have been set one after the other. -/
def overwritten (pairs : List (Name × Name)) (name : Name) (before : Option Name) : Option Name :=
  pairs.foldl (fun value pair => if pair.1 = name then some pair.2 else value) before

theorem getElem?_insertPairs (pairs : List (Name × Name)) (values : Values) (name : Name) :
    (pairs.foldl (fun values pair => values.insert pair.1 pair.2) values)[name]? =
      overwritten pairs name values[name]? := by
  induction pairs generalizing values with
  | nil => rfl
  | cons pair rest ih => simp [overwritten, ih, ExtTreeMap.getElem?_insert]

theorem overwritten_absent (absent : ∀ pair ∈ pairs, pair.1 ≠ name) :
    overwritten pairs name before = before := by
  induction pairs with
  | nil => rfl
  | cons pair rest ih =>
    have others := ih fun other member => absent other (by simp [member])
    simpa [overwritten, absent pair (by simp)] using others

theorem overwritten_isSome (present : before.isSome) : (overwritten pairs name before).isSome := by
  induction pairs generalizing before with
  | nil => exact present
  | cons pair rest ih =>
    refine ih ?_
    by_cases same : pair.1 = name
    · simp [same]
    · simpa [same] using present

/-- The names that are added are told from every other name by their first bytes. -/
theorem rewritePairs_name (member : pair ∈ rewritePairs insteadOf first) :
    utf8 "GIT_CONFIG_KEY_" <+: pair.1 ∨ utf8 "GIT_CONFIG_VALUE_" <+: pair.1 := by
  obtain ⟨entry, -, added⟩ := List.mem_flatMap.mp member
  rcases List.mem_pair.mp added with rfl | rfl
  · exact .inl ⟨_, (utf8_append _ _).symm⟩
  · exact .inr ⟨_, (utf8_append _ _).symm⟩

theorem rewritePairs_other (key : ¬ utf8 "GIT_CONFIG_KEY_" <+: name)
    (value : ¬ utf8 "GIT_CONFIG_VALUE_" <+: name) :
    ∀ pair ∈ rewritePairs insteadOf first, pair.1 ≠ name := by
  rintro pair member rfl
  exact (rewritePairs_name member).elim key value

theorem overwritten_path :
    overwritten (rewritePairs insteadOf first) pathVariable before = before :=
  overwritten_absent (rewritePairs_other (by decide) (by decide))

/-- The value of `GIT_CONFIG_COUNT` that the git rewrite finds. -/
def countBefore (policy : Policy) (host : Values) (secrets : ExtTreeMap String SecretFile) :
    Option Name :=
  match policy.secrets["GIT_CONFIG_COUNT"]?, secretFile secrets "GIT_CONFIG_COUNT" with
  | some _, .bytes bytes => some (withoutNewline bytes)
  | _, _ => (withoutSecrets policy host)[gitConfigCount]?

/-- The number the git rewrite starts from. -/
def firstNumber (policy : Policy) (host : Values) (secrets : ExtTreeMap String SecretFile) : Nat :=
  ((countBefore policy host secrets).bind parseCount).getD 0

theorem SecretsSet.count
    (set : SecretsSet policy.secrets.toList secrets (withoutSecrets policy host) stage) :
    stage.values[gitConfigCount]? = countBefore policy host secrets := by
  have plain (shown : ∀ path, policy.secrets["GIT_CONFIG_COUNT"]? = some path →
      (secretFile secrets "GIT_CONFIG_COUNT").presence ≠ .bytes) :
      stage.values[gitConfigCount]? = (withoutSecrets policy host)[gitConfigCount]? := by
    refine set.others _ ?_
    rintro ⟨⟨name, path⟩, member, same, present⟩
    cases @utf8_injective name "GIT_CONFIG_COUNT" same
    exact shown path (ExtTreeMap.mem_toList_iff_getElem?_eq_some.mp member) present
  unfold countBefore
  split
  · rename_i path bytes listed present
    exact set.value ("GIT_CONFIG_COUNT", path)
      (ExtTreeMap.mem_toList_iff_getElem?_eq_some.mpr listed) bytes present
  · rename_i other
    refine plain fun path listed present => ?_
    cases file : secretFile secrets "GIT_CONFIG_COUNT" with
    | bytes bytes => exact other path bytes listed file
    | absent | unreadable | readFailure => simp [file, SecretFile.presence] at present

/-- What `path-prepend` makes of `PATH`. -/
def prependedPath (pathPrepend : List Path) (before : Option Name) : Option Name :=
  if pathPrepend.isEmpty then before
  else
    let front := [colon].intercalate (pathPrepend.map Path.bytes)
    some (before.elim front fun existing => front ++ colon :: existing)

/-- What the stages after the secrets make of one variable. -/
def finalValue (policy : Policy) (pathPrepend : List Path) (first : Nat) (name : Name)
    (before : Option Name) : Option Name :=
  if name = utf8 "KAKOI" then some (utf8 "1")
  else if name = pathVariable then prependedPath pathPrepend before
  else if name = gitConfigCount ∧ ¬ policy.insteadOf.isEmpty then
    some (utf8 (toString (first + policy.insteadOf.size)))
  else overwritten (rewritePairs policy.insteadOf first) name before

theorem rewritePairs_empty (empty : insteadOf.isEmpty) : rewritePairs insteadOf first = [] := by
  have none : insteadOf.toList = [] := by
    rw [← List.isEmpty_iff, ExtTreeMap.isEmpty_toList, empty]
  simp [rewritePairs, none]

theorem foldl_rewritePairs (insteadOf : ExtTreeMap String String) (values : Values) :
    insteadOf.toList.zipIdx.foldl (fun values ((original, replacement), index) =>
      (values.insert (utf8 ("GIT_CONFIG_KEY_" ++ toString (first + index)))
          (utf8 ("url." ++ replacement ++ ".insteadof"))).insert
        (utf8 ("GIT_CONFIG_VALUE_" ++ toString (first + index))) (utf8 original)) values =
      (rewritePairs insteadOf first).foldl (fun values pair => values.insert pair.1 pair.2)
        values := by
  rw [rewritePairs, List.foldl_flatMap]
  rfl

/-- The number of pairs that a value of `GIT_CONFIG_COUNT` announces, if it is a number. -/
def previousCount : Option Name → Option Nat
  | none => some 0
  | some text => parseCount text

theorem getD_of_previousCount (counted : previousCount before = some count) :
    (before.bind parseCount).getD 0 = count := by
  cases before with
  | none => exact Option.some.inj counted
  | some text =>
    have parsed : parseCount text = some count := counted
    rw [Option.bind_some, parsed, Option.getD_some]

/-- The rewrite with entries: the pairs from the number read, then the new count. -/
theorem applyInsteadOf_ok (rewritten : applyInsteadOf values insteadOf = .ok result)
    (filled : ¬ insteadOf.isEmpty) :
    ∃ count, previousCount values[gitConfigCount]? = some count ∧
      count + insteadOf.size < usizeLimit ∧
      result =
        ((rewritePairs insteadOf count).foldl
          (fun values pair => values.insert pair.1 pair.2) values).insert gitConfigCount
          (utf8 (toString (count + insteadOf.size))) := by
  unfold applyInsteadOf at rewritten
  simp only [filled, Bool.false_eq_true, if_false] at rewritten
  split at rewritten
  · rename_i missing
    refine ⟨0, by rw [missing]; rfl, ?_⟩
    rw [← foldl_rewritePairs]
    simp only [bind, Except.bind] at rewritten
    split at rewritten
    · cases rewritten
    · rename_i fits
      cases rewritten
      exact ⟨Nat.lt_of_not_le fits, rfl⟩
  · rename_i text found
    split at rewritten
    · rename_i number parsed
      refine ⟨number, by rw [found]; exact parsed, ?_⟩
      rw [← foldl_rewritePairs]
      simp only [bind, Except.bind] at rewritten
      split at rewritten
      · cases rewritten
      · rename_i fits
        cases rewritten
        exact ⟨Nat.lt_of_not_le fits, rfl⟩
    · cases rewritten

theorem applyInsteadOf_value (rewritten : applyInsteadOf values insteadOf = .ok result)
    (name : Name) :
    result[name]? =
      if name = gitConfigCount ∧ ¬ insteadOf.isEmpty then
        some (utf8 (toString ((values[gitConfigCount]?.bind parseCount).getD 0 + insteadOf.size)))
      else
        overwritten (rewritePairs insteadOf ((values[gitConfigCount]?.bind parseCount).getD 0)) name
          values[name]? := by
  by_cases empty : insteadOf.isEmpty
  · simp only [applyInsteadOf, empty, if_true] at rewritten
    cases rewritten
    simp [empty, rewritePairs_empty, overwritten]
  · obtain ⟨count, counted, -, made⟩ := applyInsteadOf_ok rewritten empty
    rw [made, getD_of_previousCount counted, ExtTreeMap.getElem?_insert, getElem?_insertPairs]
    by_cases same : name = gitConfigCount
    · simp [same, empty]
    · simp [same, Ne.symm same]

theorem prependPath_value (values : Values) (pathPrepend : List Path) (name : Name) :
    (prependPath values pathPrepend)[name]? =
      if name = pathVariable then prependedPath pathPrepend values[name]? else values[name]? := by
  unfold prependPath prependedPath
  by_cases empty : pathPrepend.isEmpty
  · simp [empty]
  · rw [if_neg empty, if_neg empty, ExtTreeMap.getElem?_insert]
    by_cases same : name = pathVariable
    · subst same
      cases found : values[pathVariable]? <;> simp
    · simp [same, Ne.symm same]

theorem assembleEnvironment_ok
    (assembled : assembleEnvironment policy host secrets pathPrepend = .ok result) :
    ∃ stage, SecretsSet policy.secrets.toList secrets (withoutSecrets policy host) stage ∧
      result.environment.secretNames = stage.secretNames ∧
      ∀ name, result.environment.values[name]? =
        finalValue policy pathPrepend (firstNumber policy host secrets) name
          stage.values[name]? := by
  obtain ⟨stage, applied, later⟩ := Except.bind_eq_ok.mp assembled
  obtain ⟨rewritten, numbered, made⟩ := Except.bind_eq_ok.mp later
  have set := applySecrets_set applied
  cases made
  refine ⟨stage, set, rfl, fun name => ?_⟩
  have value := applyInsteadOf_value numbered name
  rw [set.count] at value
  rw [ExtTreeMap.getElem?_insert, prependPath_value, value]
  by_cases marker : name = utf8 "KAKOI"
  · simp [finalValue, marker]
  · by_cases path : name = pathVariable
    · subst path
      have other : ¬ pathVariable = gitConfigCount := by decide
      simp [finalValue, Ne.symm marker, marker, other, overwritten_path]
    · simp [finalValue, Ne.symm marker, marker, path, firstNumber]

theorem shown_value (environment : Environment) (name : Name) :
    environment.shown[name]? = environment.values[name]?.map fun value =>
      if environment.secretNames.contains name then none else some value := by
  rw [Environment.shown, ExtTreeMap.getElem?_map]

theorem environmentChanges_shown (same : left.shown = right.shown) :
    environmentChanges policy host left = environmentChanges policy host right := by
  have present : ∀ name, left.values.contains name = right.values.contains name := by
    intro name
    have shown := congrArg (fun shown => shown[name]?.isSome) same
    simpa [shown_value] using shown
  simp only [environmentChanges, same, present]

theorem finalValue_isSome (present : before.isSome) :
    (finalValue policy pathPrepend first name before).isSome := by
  unfold finalValue
  split
  · rfl
  · split
    · unfold prependedPath
      split
      · exact present
      · rfl
    · split
      · rfl
      · exact overwritten_isSome present

/-- The number in the file of the count, where it has bytes in both, is the same. -/
def SameCount (left right : ExtTreeMap String SecretFile) : Prop :=
  ∀ one other, secretFile left "GIT_CONFIG_COUNT" = .bytes one →
    secretFile right "GIT_CONFIG_COUNT" = .bytes other →
    parseCount (withoutNewline one) = parseCount (withoutNewline other)

theorem firstNumber_alike (alike : AlikeSecrets left right)
    (known : policy.secrets["GIT_CONFIG_COUNT"]? = none ∨ SameCount left right) :
    firstNumber policy host left = firstNumber policy host right := by
  have present := alike "GIT_CONFIG_COUNT"
  unfold firstNumber countBefore
  cases listed : policy.secrets["GIT_CONFIG_COUNT"]? with
  | none => rfl
  | some path =>
    have same : SameCount left right := known.resolve_left (by simp [listed])
    -- Only bytes are read, and both files hold some or neither does.
    cases one : secretFile left "GIT_CONFIG_COUNT" <;>
      cases other : secretFile right "GIT_CONFIG_COUNT" <;>
      simp_all [SecretFile.presence]
    rw [same _ _ one other]

/-- The last stages read the number only to number the entries of the git rewrite. -/
theorem finalValue_alike
    (known : policy.insteadOf.isEmpty ∨ first = second) (before : Option Name) :
    finalValue policy pathPrepend first name before =
      finalValue policy pathPrepend second name before := by
  rcases known with empty | rfl
  · simp [finalValue, empty, rewritePairs_empty]
  · rfl

theorem shown_secret (assembled : assembleEnvironment policy host secrets pathPrepend = .ok result)
    (secret : IsSecret policy.secrets.toList secrets name) :
    result.environment.shown[name]? = some none := by
  obtain ⟨stage, set, names, values⟩ := assembleEnvironment_ok assembled
  have listed : result.environment.secretNames.contains name := by
    rw [names]
    exact ExtTreeSet.contains_iff_mem.mpr ((set.names name).mpr secret)
  obtain ⟨entry, member, rfl, present⟩ := secret
  have found : stage.values[utf8 entry.1]?.isSome := by
    cases file : secretFile secrets entry.1 with
    | bytes bytes => rw [set.value entry member bytes file]; rfl
    | absent | unreadable | readFailure => simp [file, SecretFile.presence] at present
  obtain ⟨value, last⟩ := Option.isSome_iff_exists.mp (finalValue_isSome found)
  rw [shown_value, values, last, Option.map_some, if_pos listed]

theorem shown_plain (assembled : assembleEnvironment policy host secrets pathPrepend = .ok result)
    (plain : ¬ IsSecret policy.secrets.toList secrets name) :
    result.environment.shown[name]? =
      (finalValue policy pathPrepend (firstNumber policy host secrets) name
        (withoutSecrets policy host)[name]?).map some := by
  obtain ⟨stage, set, names, values⟩ := assembleEnvironment_ok assembled
  have unlisted : ¬ result.environment.secretNames.contains name := by
    rw [names, ExtTreeSet.contains_iff_mem, set.names]
    exact plain
  rw [shown_value, values, set.others name plain]
  simp only [if_neg unlisted]

/-- The content of secret files is not shown when the git rewrite has no entries, is not numbered
from a secret, or finds the same number in both. -/
theorem shown_alike (alike : AlikeSecrets left right)
    (known : policy.insteadOf.isEmpty ∨ policy.secrets["GIT_CONFIG_COUNT"]? = none ∨
      SameCount left right)
    (first : assembleEnvironment policy host left pathPrepend = .ok one)
    (second : assembleEnvironment policy host right pathPrepend = .ok other) :
    one.environment.shown = other.environment.shown ∧
      environmentChanges policy host one.environment =
        environmentChanges policy host other.environment := by
  have shown : one.environment.shown = other.environment.shown := by
    refine ExtTreeMap.ext_getElem? fun name => ?_
    by_cases secret : IsSecret policy.secrets.toList left name
    · rw [shown_secret first secret, shown_secret second ((isSecret_congr alike).mp secret)]
    · have plain : ¬ IsSecret policy.secrets.toList right name :=
        fun hidden => secret ((isSecret_congr alike).mpr hidden)
      rw [shown_plain first secret, shown_plain second plain,
        finalValue_alike (known.imp_right (firstNumber_alike alike))]
  exact ⟨shown, environmentChanges_shown shown⟩

/-- A policy whose secret is the count that the git rewrite is numbered from. -/
def countPolicy : Policy where
  secrets := (∅ : ExtTreeMap String PolicyPath).insert "GIT_CONFIG_COUNT"
    (.absolute (.ofString "/tokens/count"))
  insteadOf := (∅ : ExtTreeMap String String).insert "git@host:" "https://host/"

def countSecrets (content : String) : ExtTreeMap String SecretFile :=
  (∅ : ExtTreeMap String SecretFile).insert "GIT_CONFIG_COUNT" (.bytes (utf8 content))

theorem countSecrets_alike (left right : String) :
    AlikeSecrets (countSecrets left) (countSecrets right) := by
  intro name
  by_cases same : name = "GIT_CONFIG_COUNT"
  · simp [secretFile, countSecrets, same, SecretFile.presence]
  · simp [secretFile, countSecrets, Ne.symm same]

theorem padded_count_shown_alike :
    ∃ one other, assembleEnvironment countPolicy ∅ (countSecrets "1") [] = .ok one ∧
      assembleEnvironment countPolicy ∅ (countSecrets "01") [] = .ok other ∧
      one.environment.shown = other.environment.shown ∧
      environmentChanges countPolicy ∅ one.environment =
        environmentChanges countPolicy ∅ other.environment := by
  have started : ∃ one, assembleEnvironment countPolicy ∅ (countSecrets "1") [] = .ok one := by
    decide +kernel
  have padded : ∃ other, assembleEnvironment countPolicy ∅ (countSecrets "01") [] = .ok other := by
    decide +kernel
  obtain ⟨one, first⟩ := started
  obtain ⟨other, second⟩ := padded
  have same : SameCount (countSecrets "1") (countSecrets "01") := by
    intro left right held padded
    have held : utf8 "1" = left := by simpa [secretFile, countSecrets] using held
    have padded : utf8 "01" = right := by simpa [secretFile, countSecrets] using padded
    rw [← held, ← padded]
    decide
  exact ⟨one, other, first, second,
    shown_alike (countSecrets_alike "1" "01") (.inr (.inr same)) first second⟩

/-- The names that are added give the number away. -/
theorem secret_count_shown :
    ∃ one other, AlikeSecrets (countSecrets "1") (countSecrets "2") ∧
      assembleEnvironment countPolicy ∅ (countSecrets "1") [] = .ok one ∧
      assembleEnvironment countPolicy ∅ (countSecrets "2") [] = .ok other ∧
      one.environment.shown ≠ other.environment.shown := by
  have named : ∃ one, assembleEnvironment countPolicy ∅ (countSecrets "1") [] = .ok one ∧
      one.environment.shown.contains (utf8 "GIT_CONFIG_KEY_1") = true := by decide +kernel
  have unnamed : ∃ other, assembleEnvironment countPolicy ∅ (countSecrets "2") [] = .ok other ∧
      other.environment.shown.contains (utf8 "GIT_CONFIG_KEY_1") = false := by decide +kernel
  obtain ⟨one, first, present⟩ := named
  obtain ⟨other, second, missing⟩ := unnamed
  refine ⟨one, other, countSecrets_alike "1" "2", first, second, fun same => ?_⟩
  rw [same, missing] at present
  cases present

end Kakoi
