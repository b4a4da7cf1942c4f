import Kakoi.Plan.MaskedSecrets

/-! The value of each variable of the assembled environment, told without the stages. -/

namespace Kakoi

open Std (ExtTreeMap)

/-- The value of a secret whose file was read. -/
def SecretFile.value : SecretFile → Option Name
  | .bytes content => some (withoutNewline content)
  | .absent | .unreadable _ | .readFailure _ _ => none

/-- Whether a variable of the host is inherited or passed, and not unset. -/
def Policy.keepsFromHost (policy : Policy) (name : Name) : Bool :=
  (policy.envMode = .inherit || policy.envPass.any (utf8 · = name)) &&
    !policy.envUnset.any (wildcardMatches · name)

/-- The value a variable has by the policy and the host, the secrets aside. -/
def plainValue (policy : Policy) (host : Values) (name : Name) : Option Name :=
  match policy.envSet.toList.find? (utf8 ·.1 = name) with
  | some entry => some (utf8 entry.2)
  | none => if policy.keepsFromHost name then host[name]? else none

/-- The value a variable has by the policy, the host and the secret files. -/
def ruledValue (policy : Policy) (host : Values) (secrets : ExtTreeMap String SecretFile)
    (name : Name) : Option Name :=
  match policy.secrets.toList.find? (utf8 ·.1 = name) with
  | some secret => (secretFile secrets secret.1).value
  | none => plainValue policy host name

def gitConfigKey (number : Nat) : Name := utf8 ("GIT_CONFIG_KEY_" ++ toString number)

def gitConfigValue (number : Nat) : Name := utf8 ("GIT_CONFIG_VALUE_" ++ toString number)

/-- The variables that the git rewrite writes when it counts on from `count`. -/
def GitWritten (insteadOf : ExtTreeMap String String) (count : Nat) (name : Name) : Prop :=
  ¬ insteadOf.isEmpty ∧ (name = gitConfigCount ∨
    ∃ index < insteadOf.size, name = gitConfigKey (count + index) ∨ name = gitConfigValue (count + index))

/-- The git rewrite with entries, numbered from the count that the rule gives. -/
structure Numbered (policy : Policy) (host : Values) (secrets : ExtTreeMap String SecretFile)
    (count : Nat) (values : Values) : Prop where
  counted : previousCount (ruledValue policy host secrets gitConfigCount) = some count
  fits : count + policy.insteadOf.size < usizeLimit
  untouched : ∀ number < count,
    values[gitConfigKey number]? = ruledValue policy host secrets (gitConfigKey number) ∧
      values[gitConfigValue number]? = ruledValue policy host secrets (gitConfigValue number)
  rewrites : ∀ index original replacement,
    policy.insteadOf.toList[index]? = some (original, replacement) →
      values[gitConfigKey (count + index)]? = some (utf8 ("url." ++ replacement ++ ".insteadof")) ∧
        values[gitConfigValue (count + index)]? = some (utf8 original)
  total : values[gitConfigCount]? = some (utf8 (toString (count + policy.insteadOf.size)))

/-- One variable of `pass`. -/
def passOne (host : Values) (values : Values) (name : String) : Values :=
  host[utf8 name]?.elim values (values.insert (utf8 name))

theorem passOne_value (host values : Values) (passed : String) (name : Name) :
    (passOne host values passed)[name]? =
      if utf8 passed = name then host[name]?.or values[name]? else values[name]? := by
  unfold passOne
  by_cases same : utf8 passed = name
  · subst same
    cases found : host[utf8 passed]? <;> simp
  · cases found : host[utf8 passed]? <;> simp [ExtTreeMap.getElem?_insert, same]

theorem passAll_value (host : Values) (passed : List String) (name : Name) :
    (passed.foldl (passOne host) ∅)[name]? =
      if passed.any (utf8 · = name) then host[name]? else none := by
  induction passed using List.reverseRecOn with
  | nil => simp
  | append_singleton front last ih =>
    rw [List.foldl_append, List.foldl_cons, List.foldl_nil, passOne_value, ih]
    by_cases same : utf8 last = name
    · by_cases before : front.any (utf8 · = name)
      · simp [same, before]
      · simp [same, before]
    · simp [same]

theorem initialValues_value (policy : Policy) (host : Values) (name : Name) :
    (initialValues policy host)[name]? =
      if policy.envMode = .inherit || policy.envPass.any (utf8 · = name) then host[name]?
      else none := by
  cases mode : policy.envMode with
  | inherit => simp [initialValues, mode]
  | clear =>
    have passed : initialValues policy host = policy.envPass.foldl (passOne host) ∅ := by
      simp only [initialValues, mode]
      congr 1
      funext values name
      unfold passOne
      cases host[utf8 name]? <;> rfl
    rw [passed, passAll_value]
    simp

theorem unset_value (values : Values) (patterns : List String) (name : Name) :
    (unset values patterns)[name]? =
      if patterns.any (wildcardMatches · name) then none else values[name]? := by
  unfold unset
  rw [ExtTreeMap.getElem?_filter']
  cases values[name]? <;> cases patterns.any (wildcardMatches · name) <;> simp

/-- A variable that the pairs set, and set to one value only. -/
theorem overwritten_unique (listed : (name, value) ∈ pairs)
    (alike : ∀ pair ∈ pairs, pair.1 = name → pair.2 = value) :
    overwritten pairs name before = some value := by
  induction pairs using List.reverseRecOn with
  | nil => cases listed
  | append_singleton front last ih =>
    have step : overwritten (front ++ [last]) name before =
        if last.1 = name then some last.2 else overwritten front name before := by
      simp [overwritten]
    rw [step]
    by_cases same : last.1 = name
    · rw [if_pos same, alike last (by simp) same]
    · rw [if_neg same]
      refine ih ?_ fun pair member => alike pair (List.mem_append_left _ member)
      rcases mem_concat.mp listed with inside | final
      · exact inside
      · exact absurd (congrArg Prod.fst final).symm same

/-- Of a map whose names are written in bytes, at most one entry has a name. -/
theorem find_named {entries : ExtTreeMap String α} (member : (key, value) ∈ entries.toList) :
    entries.toList.find? (utf8 ·.1 = utf8 key) = some (key, value) := by
  cases found : entries.toList.find? (utf8 ·.1 = utf8 key) with
  | none =>
    have apart := List.find?_eq_none.mp found _ member
    simp at apart
  | some entry =>
    obtain ⟨other, held⟩ := entry
    have same : other = key := utf8_injective (by simpa using List.find?_some found)
    subst same
    have first := ExtTreeMap.mem_toList_iff_getElem?_eq_some.mp member
    have second := ExtTreeMap.mem_toList_iff_getElem?_eq_some.mp (List.mem_of_find?_eq_some found)
    rw [first] at second
    rw [Option.some.inj second]

theorem unnamed_of_find {entries : ExtTreeMap String α}
    (missing : entries.toList.find? (utf8 ·.1 = name) = none) :
    ∀ entry ∈ entries.toList, utf8 entry.1 ≠ name := by
  intro entry member same
  exact List.find?_eq_none.mp missing entry member (decide_eq_true same)

theorem writtenValues_value (policy : Policy) (host : Values) (name : Name) :
    (writtenValues policy host)[name]? = plainValue policy host name := by
  have pairs : writtenValues policy host =
      (policy.envSet.toList.map fun entry => (utf8 entry.1, utf8 entry.2)).foldl
        (fun values pair => values.insert pair.1 pair.2)
        (unset (initialValues policy host) policy.envUnset) := by
    rw [writtenValues, ExtTreeMap.foldl_eq_foldl_toList, List.foldl_map]
  rw [pairs, getElem?_insertPairs]
  unfold plainValue
  split
  · rename_i entry found
    have member := List.mem_of_find?_eq_some found
    have named : utf8 entry.1 = name := by simpa using List.find?_some found
    refine overwritten_unique (List.mem_map.mpr ⟨entry, member, by rw [named]⟩) ?_
    intro pair listed same
    obtain ⟨other, present, rfl⟩ := List.mem_map.mp listed
    have again := find_named present
    rw [show utf8 other.1 = name from same, found] at again
    rw [Option.some.inj again]
  · rename_i missing
    rw [overwritten_absent, unset_value, initialValues_value]
    · unfold Policy.keepsFromHost
      cases policy.envUnset.any (wildcardMatches · name) <;> simp
    · intro pair listed
      obtain ⟨entry, member, rfl⟩ := List.mem_map.mp listed
      exact unnamed_of_find missing entry member

theorem eraseAll_value (listed : List (String × PolicyPath)) (values : Values) (name : Name) :
    (listed.foldl (fun values secret => values.erase (utf8 secret.1)) values)[name]? =
      if listed.any (utf8 ·.1 = name) then none else values[name]? := by
  induction listed using List.reverseRecOn with
  | nil => simp
  | append_singleton front last ih =>
    rw [List.foldl_append, List.foldl_cons, List.foldl_nil, ExtTreeMap.getElem?_erase, ih,
      List.any_append]
    by_cases same : utf8 last.1 = name
    · simp [same]
    · have other : decide (utf8 last.1 = name) = false := decide_eq_false same
      rw [List.any_cons, List.any_nil, other, Bool.or_false, Bool.or_false]
      simp [same]

/-- After the secrets each variable has the value of the rule. -/
theorem SecretsSet.ruled
    (set : SecretsSet policy.secrets.toList secrets (withoutSecrets policy host) stage)
    (name : Name) : stage.values[name]? = ruledValue policy host secrets name := by
  unfold ruledValue
  split
  · rename_i secret found
    have member := List.mem_of_find?_eq_some found
    have named : utf8 secret.1 = name := by simpa using List.find?_some found
    subst named
    cases file : secretFile secrets secret.1 with
    | bytes content => exact set.value secret member content file
    | absent | unreadable | readFailure =>
      rw [set.others, withoutSecrets, eraseAll_value]
      · have erased : policy.secrets.toList.any (utf8 ·.1 = utf8 secret.1) = true :=
          List.any_eq_true.mpr ⟨secret, member, by simp⟩
        rw [if_pos erased]
        rfl
      · rintro ⟨other, present, same, read⟩
        rw [utf8_injective same, file] at read
        cases read
  · rename_i missing
    have unnamed := unnamed_of_find missing
    rw [set.others, withoutSecrets, eraseAll_value, writtenValues_value]
    · have kept : policy.secrets.toList.any (utf8 ·.1 = name) = false := by
        simpa using fun key path member => unnamed (key, path) member
      rw [kept]
      rfl
    · rintro ⟨other, present, same, -⟩
      exact unnamed other present same

/-- A name with a number at its end tells the number. -/
theorem numbered_injective {start : String} {left right : Nat}
    (same : utf8 (start ++ toString left) = utf8 (start ++ toString right)) : left = right := by
  rw [utf8_append, utf8_append] at same
  exact number_injective (List.append_cancel_left same)

theorem gitConfigKey_ne_value (left right : Nat) : gitConfigKey left ≠ gitConfigValue right := by
  unfold gitConfigKey gitConfigValue
  rw [utf8_append, utf8_append]
  intro same
  have eleventh := congrArg (·[11]?) same
  rw [List.getElem?_append_left (by decide), List.getElem?_append_left (by decide)] at eleventh
  revert eleventh
  decide

theorem mem_rewritePairs :
    pair ∈ rewritePairs insteadOf first ↔
      ∃ index original replacement, insteadOf.toList[index]? = some (original, replacement) ∧
        (pair = (gitConfigKey (first + index), utf8 ("url." ++ replacement ++ ".insteadof")) ∨
          pair = (gitConfigValue (first + index), utf8 original)) := by
  unfold rewritePairs
  rw [List.mem_flatMap]
  constructor
  · rintro ⟨⟨⟨original, replacement⟩, index⟩, member, added⟩
    exact ⟨index, original, replacement, List.mk_mem_zipIdx_iff_getElem?.mp member,
      List.mem_pair.mp added⟩
  · rintro ⟨index, original, replacement, listed, added⟩
    exact ⟨((original, replacement), index), List.mk_mem_zipIdx_iff_getElem?.mpr listed,
      List.mem_pair.mpr added⟩

theorem index_lt_size {insteadOf : ExtTreeMap String String}
    (listed : insteadOf.toList[index]? = some entry) : index < insteadOf.size := by
  rw [← ExtTreeMap.length_toList]
  exact (List.getElem?_eq_some_iff.mp listed).1

/-- What the git rewrite does not write it leaves. -/
theorem overwritten_unwritten (other : ¬ GitWritten insteadOf first name) :
    overwritten (rewritePairs insteadOf first) name before = before := by
  refine overwritten_absent ?_
  intro pair member same
  obtain ⟨index, original, replacement, listed, added⟩ := mem_rewritePairs.mp member
  have filled : ¬ insteadOf.isEmpty := by
    intro empty
    rw [rewritePairs_empty empty] at member
    cases member
  refine other ⟨filled, .inr ⟨index, index_lt_size listed, ?_⟩⟩
  subst same
  rcases added with rfl | rfl
  · exact .inl rfl
  · exact .inr rfl

theorem overwritten_rewrite (listed : insteadOf.toList[index]? = some (original, replacement)) :
    overwritten (rewritePairs insteadOf first) (gitConfigKey (first + index)) before =
        some (utf8 ("url." ++ replacement ++ ".insteadof")) ∧
      overwritten (rewritePairs insteadOf first) (gitConfigValue (first + index)) before =
        some (utf8 original) := by
  refine ⟨overwritten_unique (mem_rewritePairs.mpr ⟨index, original, replacement, listed, .inl rfl⟩) ?_,
    overwritten_unique (mem_rewritePairs.mpr ⟨index, original, replacement, listed, .inr rfl⟩) ?_⟩
  · intro pair member same
    obtain ⟨other, source, target, present, rfl | rfl⟩ := mem_rewritePairs.mp member
    · have equal : other = index := by
        have numbers := numbered_injective same
        omega
      subst equal
      rw [listed] at present
      cases present
      rfl
    · exact absurd same.symm (gitConfigKey_ne_value _ _)
  · intro pair member same
    obtain ⟨other, source, target, present, rfl | rfl⟩ := mem_rewritePairs.mp member
    · exact absurd same (gitConfigKey_ne_value _ _)
    · have equal : other = index := by
        have numbers := numbered_injective same
        omega
      subst equal
      rw [listed] at present
      cases present
      rfl

theorem numbered_plain (numbered : name = gitConfigKey number ∨ name = gitConfigValue number) :
    name ≠ utf8 "KAKOI" ∧ name ≠ pathVariable ∧ name ≠ gitConfigCount := by
  have starts : utf8 "GIT_CONFIG_KEY_" <+: name ∨ utf8 "GIT_CONFIG_VALUE_" <+: name := by
    rcases numbered with rfl | rfl
    · exact .inl ⟨_, (utf8_append _ _).symm⟩
    · exact .inr ⟨_, (utf8_append _ _).symm⟩
  refine ⟨?_, ?_, ?_⟩ <;>
  · rintro rfl
    revert starts
    decide

theorem gitWritten_number (written : GitWritten insteadOf count name)
    (numbered : name = gitConfigKey number ∨ name = gitConfigValue number) : count ≤ number := by
  obtain ⟨-, rfl | ⟨index, -, rfl | rfl⟩⟩ := written
  · exact absurd rfl (numbered_plain numbered).2.2
  · rcases numbered with same | same
    · exact (numbered_injective same) ▸ Nat.le_add_right _ _
    · exact absurd same (gitConfigKey_ne_value _ _)
  · rcases numbered with same | same
    · exact absurd same.symm (gitConfigKey_ne_value _ _)
    · exact (numbered_injective same) ▸ Nat.le_add_right _ _

theorem gitWritten_starts (written : GitWritten insteadOf count name) :
    utf8 "GIT_CONFIG_" <+: name := by
  obtain ⟨-, rfl | ⟨index, -, rfl | rfl⟩⟩ := written
  · decide
  · exact List.IsPrefix.trans (by decide) ⟨_, (utf8_append "GIT_CONFIG_KEY_" _).symm⟩
  · exact List.IsPrefix.trans (by decide) ⟨_, (utf8_append "GIT_CONFIG_VALUE_" _).symm⟩

theorem assembled_value (assembled : assembleEnvironment policy host secrets pathPrepend = .ok result)
    (name : Name) :
    result.environment.values[name]? =
      finalValue policy pathPrepend (firstNumber policy host secrets) name
        (ruledValue policy host secrets name) := by
  obtain ⟨stage, set, -, value⟩ := assembleEnvironment_ok assembled
  rw [value name, set.ruled name]

/-- With entries to write, the count is a number and leaves room for them. -/
theorem assembled_counted (assembled : assembleEnvironment policy host secrets pathPrepend = .ok result)
    (filled : ¬ policy.insteadOf.isEmpty) :
    ∃ count, previousCount (ruledValue policy host secrets gitConfigCount) = some count ∧
      count + policy.insteadOf.size < usizeLimit ∧ firstNumber policy host secrets = count := by
  obtain ⟨stage, applied, later⟩ := Except.bind_eq_ok.mp assembled
  obtain ⟨rewritten, numbered, -⟩ := Except.bind_eq_ok.mp later
  have set := applySecrets_set applied
  obtain ⟨count, counted, fits, -⟩ := applyInsteadOf_ok numbered filled
  refine ⟨count, set.ruled gitConfigCount ▸ counted, fits, ?_⟩
  rw [set.count] at counted
  exact getD_of_previousCount counted

theorem finalValue_plain (marker : name ≠ utf8 "KAKOI") (path : name ≠ pathVariable)
    (other : ¬ GitWritten policy.insteadOf first name) :
    finalValue policy pathPrepend first name before = before := by
  have uncounted : ¬ (name = gitConfigCount ∧ ¬ policy.insteadOf.isEmpty) :=
    fun counted => other ⟨counted.2, .inl counted.1⟩
  rw [finalValue, if_neg marker, if_neg path, if_neg uncounted, overwritten_unwritten other]

theorem finalValue_path : finalValue policy pathPrepend first pathVariable before =
    prependedPath pathPrepend before := by
  rw [finalValue, if_neg (by decide), if_pos rfl]

theorem finalValue_numbered (numbered : name = gitConfigKey number ∨ name = gitConfigValue number) :
    finalValue policy pathPrepend first name before =
      overwritten (rewritePairs policy.insteadOf first) name before := by
  obtain ⟨marker, path, other⟩ := numbered_plain numbered
  rw [finalValue, if_neg marker, if_neg path, if_neg fun counted => other counted.1]

theorem finalValue_untouched (numbered : name = gitConfigKey number ∨ name = gitConfigValue number)
    (below : number < first) : finalValue policy pathPrepend first name before = before := by
  rw [finalValue_numbered numbered]
  exact overwritten_unwritten fun written =>
    absurd (gitWritten_number written numbered) (Nat.not_le_of_lt below)

/-- The final value of every variable of an environment that was assembled. -/
theorem environment_follows_rule
    (assembled : assembleEnvironment policy host secrets pathPrepend = .ok result) :
    (∀ name, name ≠ utf8 "KAKOI" → name ≠ pathVariable →
      ¬ GitWritten policy.insteadOf (firstNumber policy host secrets) name →
        result.environment.values[name]? = ruledValue policy host secrets name) ∧
    result.environment.values[pathVariable]? =
      prependedPath pathPrepend (ruledValue policy host secrets pathVariable) ∧
    (¬ policy.insteadOf.isEmpty →
      Numbered policy host secrets (firstNumber policy host secrets) result.environment.values) := by
  have value := assembled_value assembled
  refine ⟨?_, ?_, ?_⟩
  · intro name marker path other
    rw [value, finalValue_plain marker path other]
  · rw [value, finalValue_path]
  · intro filled
    obtain ⟨count, counted, fits, same⟩ := assembled_counted assembled filled
    rw [same] at value ⊢
    refine ⟨counted, fits, ?_, ?_, ?_⟩
    · intro number below
      exact ⟨(value _).trans (finalValue_untouched (.inl rfl) below),
        (value _).trans (finalValue_untouched (.inr rfl) below)⟩
    · intro index original replacement listed
      exact ⟨(value _).trans ((finalValue_numbered (.inl rfl)).trans (overwritten_rewrite listed).1),
        (value _).trans ((finalValue_numbered (.inr rfl)).trans (overwritten_rewrite listed).2)⟩
    · rw [value, finalValue, if_neg (by decide), if_neg (by decide), if_pos ⟨rfl, filled⟩]

/-- A token from a file, `set` over a host variable, and two rewrites behind one pair of the
host. -/
def ruledPolicy : Policy where
  envSet := (∅ : ExtTreeMap String String).insert "EDITOR" "vi"
  envUnset := ["AWS_*"]
  secrets := (∅ : ExtTreeMap String PolicyPath).insert "TOKEN" (.absolute (.ofString "/tokens/t"))
  insteadOf := ((∅ : ExtTreeMap String String).insert "b:" "https://b/").insert "a:" "https://a/"

def ruledHost : Values :=
  (((∅ : Values).insert (utf8 "GIT_CONFIG_COUNT") (utf8 "1")).insert (utf8 "AWS_KEY") (utf8 "k")).insert
    (utf8 "EDITOR") (utf8 "ed")

def ruledSecrets : ExtTreeMap String SecretFile :=
  (∅ : ExtTreeMap String SecretFile).insert "TOKEN" (.bytes (utf8 "t"))

theorem two_rewrites_follow_rule :
    ∃ result, assembleEnvironment ruledPolicy ruledHost ruledSecrets [.ofString "/opt"] = .ok result ∧
      result.environment.values[utf8 "EDITOR"]? = some (utf8 "vi") ∧
      result.environment.values[utf8 "AWS_KEY"]? = none ∧
      result.environment.values[utf8 "TOKEN"]? = some (utf8 "t") ∧
      result.environment.values[gitConfigValue 2]? = some (utf8 "b:") := by
  have made : ∃ result, assembleEnvironment ruledPolicy ruledHost ruledSecrets
      [.ofString "/opt"] = .ok result := by decide +kernel
  obtain ⟨result, assembled⟩ := made
  have first : firstNumber ruledPolicy ruledHost ruledSecrets = 1 := by decide +kernel
  obtain ⟨plain, -, numbered⟩ := environment_follows_rule assembled
  rw [first] at plain numbered
  have listed : ruledPolicy.insteadOf.toList[1]? = some ("b:", "https://b/") := by decide +kernel
  refine ⟨result, assembled, ?_, ?_, ?_, ((numbered (by decide +kernel)).rewrites 1 _ _ listed).2⟩
  · rw [plain _ (by decide) (by decide) fun written => absurd (gitWritten_starts written) (by decide)]
    decide +kernel
  · rw [plain _ (by decide) (by decide) fun written => absurd (gitWritten_starts written) (by decide)]
    decide +kernel
  · rw [plain _ (by decide) (by decide) fun written => absurd (gitWritten_starts written) (by decide)]
    decide +kernel

def unreadHost : Values := (∅ : Values).insert gitConfigCount (utf8 "abc")

/-- Without entries the git rewrite reads nothing: a count that is no number stays. -/
theorem unread_count_kept :
    (assembleEnvironment {} unreadHost ∅ []).toOption.map (·.environment.values[gitConfigCount]?) =
        some (some (utf8 "abc")) ∧
      previousCount (ruledValue {} unreadHost ∅ gitConfigCount) = none := by
  constructor
  · decide +kernel
  · decide +kernel

end Kakoi
