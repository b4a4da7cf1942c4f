import Kakoi.Policy.Layers
import Kakoi.Policy.Wildcard
import Mathlib.Data.List.ReduceOption

/-! The rules of the command guard, as they judge one run of their program. -/

namespace Kakoi

open Std (ExtTreeMap)

/-- The word that ends the options of a command line. -/
def endOfOptions : Name := utf8 "--"

/-- An operand as text, unless it is not UTF-8. -/
def toStr (word : Name) : Option String := String.fromUTF8? ⟨word.toArray⟩

def Position.words : Position → List String
  | .word single => [single]
  | .alternatives words => words

/-- The inner text of a pattern that is a regular expression: one between two slashes. -/
def regularExpression (pattern : String) : Option String :=
  match pattern.toList with
  | '/' :: rest => if rest.getLast? = some '/' then some (String.ofList rest.dropLast) else none
  | _ => none

/-- A word that is the flag, or a bundle of letters that has a one-letter flag among them,
both up to the first `=`. -/
def flagMatches (flag word : String) : Bool :=
  let head := ((splitOnce '=' word).map (·.1)).getD word
  if head = flag then true
  else
    match flag.toList with
    | ['-', letter] =>
      letter ≠ '-' && head.toList.head? = some '-' && head.toList.tail.head? ≠ some '-' &&
        head.toList.tail.contains letter
    | _ => false

/-- The leading words that are global options, each with its value where it takes one. -/
def skippedWords (takesValue : Name → Bool) : List Name → Nat
  | [] => 0
  | [word] =>
    if word = endOfOptions then 1
    else if word.head? ≠ some 45 then 0
    else if takesValue word then 2 else 1
  | word :: next :: rest =>
    if word = endOfOptions then 1
    else if word.head? ≠ some 45 then 0
    else if takesValue word then 2 + skippedWords takesValue rest
    else 1 + skippedWords takesValue (next :: rest)

structure Denial where
  program : String
  matched : Text
  reason : String
  deriving DecidableEq

section Evaluation

/- How a regular expression, compiled alone and then anchored to the whole word, judges a
word; one that does not compile matches none. -/
variable (isMatch : String → String → Bool)

def wordMatches (pattern word : String) : Bool :=
  match regularExpression pattern with
  | some inner => isMatch inner word
  | none => pattern = word

/-- The words a sequence matches from the front, joined by spaces. -/
def prefixOf (sequence : Sequence) (rest : List (Option String)) : Option String :=
  if rest.length < sequence.length then none
  else do
    let matched ← (sequence.zip rest).mapM fun (position, word) => do
      let word ← word
      if position.words.any fun pattern => wordMatches isMatch pattern word then some word
      else none
    some (" ".intercalate matched)

/-- The first option with a denied value among the words before the first `--`. -/
def optionValue (values : ExtTreeMap String (List String)) : List (Option String) → Option String
  | [] => none
  | none :: rest => optionValue values rest
  | some word :: rest =>
    let denied (name value : String) : Bool :=
      values[name]?.any fun patterns => patterns.any fun pattern => wordMatches isMatch pattern value
    if (splitOnce '=' word).any fun (name, value) => denied name value then some word
    else
      match rest.head? with
      | some (some value) =>
        if denied word value then some (word ++ " " ++ value) else optionValue values rest
      | _ => optionValue values rest

namespace GuardRule

/-- Whether a run matches `for`, or the rule has none. -/
def applies (rule : GuardRule) (rest : List (Option String)) : Bool :=
  rule.for_.all fun sequences => sequences.any fun sequence => (prefixOf isMatch sequence rest).isSome

def takesValue (rule : GuardRule) (word : Name) : Bool :=
  (rule.optionsWithValue.getD []).any fun name => word = utf8 name

def skipped (rule : GuardRule) (arguments : List Name) : Nat :=
  min (skippedWords rule.takesValue arguments) arguments.length

/-- The word a run that `only` denies is shown by. -/
def outsideOnly (rule : GuardRule) (arguments : List Name) (words : List (Option String)) :
    Option Text := do
  let only ← rule.only
  let rest := words.drop (rule.skipped arguments)
  if !rule.applies isMatch rest ||
      only.any fun sequence => (prefixOf isMatch sequence rest).isSome then none
  else
    match arguments[rule.skipped arguments]? with
    | some word => some [.path ⟨word⟩]
    | none => some [.text rule.program]

def deniedEnv (rule : GuardRule) (environment : List Name) : Option Text := do
  let patterns ← rule.denyEnv
  environment.findSome? fun name =>
    if patterns.any fun pattern => wildcardMatches pattern name then some [.path ⟨name⟩] else none

def deniedSequence (rule : GuardRule) (rest : List (Option String)) : Option Text := do
  let sequences ← rule.deny
  let matched ← sequences.findSome? fun sequence => prefixOf isMatch sequence rest
  some [.text matched]

def deniedFlag (rule : GuardRule) (beforeSeparator : List (Option String)) : Option Text := do
  let flags ← rule.denyFlags
  let flag ← beforeSeparator.reduceOption.findSome? fun word =>
    flags.find? fun flag => flagMatches flag word
  some [.text flag]

def deniedOptionValue (rule : GuardRule) (beforeSeparator : List (Option String)) :
    Option Text := do
  let values ← rule.denyOptionValues
  let matched ← optionValue isMatch values beforeSeparator
  some [.text matched]

def denial (rule : GuardRule) (arguments : List Name) (words : List (Option String))
    (environment : List Name) : Option Text :=
  let rest := words.drop (rule.skipped arguments)
  let beforeSeparator := words.take (arguments.findIdx (· = endOfOptions))
  if rule.applies isMatch rest then
    rule.deniedEnv environment <|> rule.deniedSequence isMatch rest <|>
      rule.deniedFlag beforeSeparator <|> rule.deniedOptionValue isMatch beforeSeparator
  else rule.deniedSequence isMatch rest

end GuardRule

/-- Whether rules deny a run: every rule is tried in order, then every `only`. -/
def evaluate (rules : List GuardRule) (arguments environment : List Name) : Option Denial :=
  let words := arguments.map toStr
  let denial (rule : GuardRule) (matched : Text) : Denial :=
    { program := rule.program, matched, reason := rule.reason }
  (rules.findSome? fun rule =>
      (rule.denial isMatch arguments words environment).map (denial rule)) <|>
    rules.findSome? fun rule => (rule.outsideOnly isMatch arguments words).map (denial rule)

/-- A rule denies a run, by what it denies or by its `only`. -/
def GuardRule.Denies (rule : GuardRule) (arguments environment : List Name) : Prop :=
  (rule.denial isMatch arguments (arguments.map toStr) environment).isSome ∨
    (rule.outsideOnly isMatch arguments (arguments.map toStr)).isSome

end Evaluation

/-- A run is denied when some rule denies it. -/
theorem evaluate_isSome :
    (evaluate isMatch rules arguments environment).isSome ↔
      ∃ rule ∈ rules, rule.Denies isMatch arguments environment := by
  simp only [evaluate, GuardRule.Denies, Option.orElse_eq_orElse, Option.orElse_eq_or,
    Option.isSome_or, Bool.or_eq_true, List.findSome?_isSome_iff, Option.isSome_map]
  constructor
  · rintro (⟨rule, member, denied⟩ | ⟨rule, member, outside⟩)
    · exact ⟨rule, member, .inl denied⟩
    · exact ⟨rule, member, .inr outside⟩
  · rintro ⟨rule, member, denied | outside⟩
    · exact .inl ⟨rule, member, denied⟩
    · exact .inr ⟨rule, member, outside⟩

/-- Words put in front of a run that every rule skips. -/
inductive Skippable (rules : List GuardRule) : List Name → Prop where
  | flag {word : Name} (dash : word.head? = some 45) (other : word ≠ endOfOptions)
      (alone : ∀ rule ∈ rules, rule.takesValue word = false) : Skippable rules [word]
  | valued {word value : Name} (dash : word.head? = some 45) (other : word ≠ endOfOptions)
      (taken : ∀ rule ∈ rules, rule.takesValue word = true) (kept : value ≠ endOfOptions) :
      Skippable rules [word, value]

namespace Skippable

theorem skipped (skippable : Skippable rules extra) (member : rule ∈ rules)
    (arguments : List Name) :
    rule.skipped (extra ++ arguments) = extra.length + rule.skipped arguments := by
  cases skippable with
  | flag dash other alone =>
    cases arguments with
    | nil => simp [GuardRule.skipped, skippedWords, dash, other, alone rule member]
    | cons next rest =>
      simp only [GuardRule.skipped, skippedWords, List.cons_append, List.nil_append, other,
        if_false, dash, ne_eq, not_true_eq_false, alone rule member, Bool.false_eq_true,
        List.length_cons, List.length_nil]
      omega
  | valued dash other taken kept =>
    simp only [GuardRule.skipped, skippedWords, List.cons_append, List.nil_append, other,
      if_false, dash, ne_eq, not_true_eq_false, taken rule member, if_true, List.length_cons,
      List.length_nil]
    omega

theorem rest (skippable : Skippable rules extra) (member : rule ∈ rules)
    (arguments : List Name) :
    ((extra ++ arguments).map toStr).drop (rule.skipped (extra ++ arguments)) =
      (arguments.map toStr).drop (rule.skipped arguments) := by
  rw [skippable.skipped member, List.map_append, ← List.length_map toStr, List.drop_length_add_append]

/-- None of the words ends the options. -/
theorem beforeSeparator (skippable : Skippable rules extra) (arguments : List Name) :
    ((extra ++ arguments).map toStr).take ((extra ++ arguments).findIdx (· = endOfOptions)) =
      extra.map toStr ++ (arguments.map toStr).take (arguments.findIdx (· = endOfOptions)) := by
  cases skippable with
  | flag dash other alone => simp [List.findIdx_cons, other]
  | valued dash other taken kept => simp [List.findIdx_cons, other, kept]

end Skippable

/-- A denied option stays among more words. -/
theorem optionValue_append (denied : (optionValue isMatch values words).isSome)
    (extra : List (Option String)) : (optionValue isMatch values (extra ++ words)).isSome := by
  induction extra with
  | nil => exact denied
  | cons first extra ih =>
    cases first with
    | none => exact ih
    | some word =>
      rw [List.cons_append, optionValue]
      simp only
      split
      · rfl
      · split
        · split
          · rfl
          · exact ih
        · exact ih

theorem deniedOptionValue_append {rule : GuardRule}
    (denied : (rule.deniedOptionValue isMatch words).isSome) (extra : List (Option String)) :
    (rule.deniedOptionValue isMatch (extra ++ words)).isSome := by
  unfold GuardRule.deniedOptionValue at denied ⊢
  simp only [Option.bind_eq_bind, Option.isSome_bind, Option.isSome_some, Option.any_true,
    Option.any_eq_true] at denied ⊢
  obtain ⟨values, written, found⟩ := denied
  exact ⟨values, written, optionValue_append found extra⟩

theorem deniedFlag_append {rule : GuardRule} (denied : (rule.deniedFlag words).isSome)
    (extra : List (Option String)) : (rule.deniedFlag (extra ++ words)).isSome := by
  unfold GuardRule.deniedFlag at denied ⊢
  simp only [Option.bind_eq_bind, Option.isSome_bind, Option.isSome_some, Option.any_true,
    Option.any_eq_true, List.findSome?_isSome_iff, List.reduceOption_append, List.mem_append]
    at denied ⊢
  obtain ⟨flags, written, word, member, found⟩ := denied
  exact ⟨flags, written, word, .inr member, found⟩

theorem denial_isSome {rule : GuardRule} {words : List (Option String)} :
    (rule.denial isMatch arguments words environment).isSome ↔
      (rule.deniedSequence isMatch (words.drop (rule.skipped arguments))).isSome ∨
      rule.applies isMatch (words.drop (rule.skipped arguments)) = true ∧
        ((rule.deniedEnv environment).isSome ∨
          (rule.deniedFlag (words.take (arguments.findIdx (· = endOfOptions)))).isSome ∨
          (rule.deniedOptionValue isMatch
            (words.take (arguments.findIdx (· = endOfOptions)))).isSome) := by
  unfold GuardRule.denial
  simp only
  split
  · rename_i applies
    simp only [Option.orElse_eq_orElse, Option.orElse_eq_or, Option.isSome_or, Bool.or_eq_true]
    tauto
  · rename_i other
    simp [other]

theorem GuardRule.Denies.with_skippable {rules : List GuardRule}
    (denies : rule.Denies isMatch arguments environment) (skippable : Skippable rules extra)
    (member : rule ∈ rules) : rule.Denies isMatch (extra ++ arguments) environment := by
  rcases denies with denied | outside
  · refine .inl (denial_isSome.mpr ?_)
    rw [skippable.rest member, skippable.beforeSeparator]
    rcases denial_isSome.mp denied with sequence | ⟨applies, env | flag | value⟩
    · exact .inl sequence
    · exact .inr ⟨applies, .inl env⟩
    · exact .inr ⟨applies, .inr (.inl (deniedFlag_append flag _))⟩
    · exact .inr ⟨applies, .inr (.inr (deniedOptionValue_append value _))⟩
  · refine .inr ?_
    unfold GuardRule.outsideOnly at outside ⊢
    rw [skippable.rest member]
    cases written : rule.only with
    | none => simp [written] at outside
    | some only =>
      simp only [written, Option.bind_eq_bind, Option.bind_some] at outside ⊢
      split
      · rename_i passed
        rw [if_pos passed] at outside
        cases outside
      · split <;> rfl

/-- Whether a run is denied does not depend on the order of the rules; one rule more and
leading options every rule skips keep a denial. -/
theorem denial_stable (isMatch : String → String → Bool) (rules : List GuardRule)
    (arguments environment : List Name) :
    (∀ reordered, rules.Perm reordered →
      (evaluate isMatch reordered arguments environment).isSome =
        (evaluate isMatch rules arguments environment).isSome) ∧
    ((evaluate isMatch rules arguments environment).isSome →
      (∀ front back, rules = front ++ back → ∀ rule,
        (evaluate isMatch (front ++ rule :: back) arguments environment).isSome) ∧
      ∀ extra, Skippable rules extra →
        (evaluate isMatch rules (extra ++ arguments) environment).isSome) := by
  refine ⟨?_, ?_⟩
  · intro reordered same
    rw [Bool.eq_iff_iff, evaluate_isSome, evaluate_isSome]
    simp only [same.mem_iff]
  · intro denied
    obtain ⟨rule, member, denies⟩ := evaluate_isSome.mp denied
    refine ⟨?_, ?_⟩
    · rintro front back rfl more
      refine evaluate_isSome.mpr ⟨rule, ?_, denies⟩
      rw [List.mem_append] at member
      rw [List.mem_append, List.mem_cons]
      exact member.imp_right .inr
    · intro extra skippable
      exact evaluate_isSome.mpr ⟨rule, member, denies.with_skippable skippable member⟩

/-- Denies pushes, with a global option that takes a value. -/
def noPush : GuardRule where
  program := "git"
  reason := "ask first"
  optionsWithValue := some ["-C"]
  deny := some [[.word "push"]]

/-- A push stays denied behind an option with its value. -/
theorem push_elsewhere_denied :
    (evaluate (fun _ _ => false) [noPush] ([utf8 "-C", utf8 "push"] ++ [utf8 "push"]) []).isSome := by
  have denied : (evaluate (fun _ _ => false) [noPush] [utf8 "push"] []).isSome := by decide +kernel
  refine ((denial_stable _ _ _ _).2 denied).2 _ (.valued (by decide) (by decide) ?_ (by decide))
  intro rule member
  cases List.mem_singleton.mp member
  decide +kernel

end Kakoi
