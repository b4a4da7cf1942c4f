import Kakoi.Policy.Wildcard

/-! What a wildcard pattern means, and that the loop finds out exactly that in a bounded number of
rounds. -/

namespace Kakoi

/-- The text can be split among the bytes of the pattern: `*` stands for any run of bytes,
`?` for one byte and any other byte for itself. -/
inductive Wildcard : Name → Name → Prop where
  | nil : Wildcard [] []
  | star (run : Name) : Wildcard pattern rest → Wildcard (42 :: pattern) (run ++ rest)
  | any (byte : UInt8) : Wildcard pattern rest → Wildcard (63 :: pattern) (byte :: rest)
  | literal : byte ≠ 42 → byte ≠ 63 → Wildcard pattern rest →
      Wildcard (byte :: pattern) (byte :: rest)

theorem wildcard_star : Wildcard (42 :: pattern) text ↔
    ∃ count ≤ text.length, Wildcard pattern (text.drop count) := by
  constructor
  · intro found
    generalize shape : 42 :: pattern = whole at found
    cases found with
    | nil => cases shape
    | star run found =>
      cases shape
      exact ⟨run.length, by simp, by simpa using found⟩
    | any byte found => cases shape
    | literal notStar notAny found =>
      cases shape
      exact absurd rfl notStar
  · rintro ⟨count, -, found⟩
    have whole := found.star (text.take count)
    rwa [List.take_append_drop] at whole

theorem wildcard_cons (plain : wanted ≠ 42) : Wildcard (wanted :: pattern) (byte :: text) ↔
    (wanted = 63 ∨ wanted = byte) ∧ Wildcard pattern text := by
  constructor
  · intro found
    generalize shape : wanted :: pattern = whole, shown : byte :: text = given at found
    cases found with
    | nil => cases shape
    | star run found =>
      cases shape
      exact absurd rfl plain
    | any other found =>
      cases shape
      cases shown
      exact ⟨.inl rfl, found⟩
    | literal notStar notAny found =>
      cases shape
      cases shown
      exact ⟨.inr rfl, found⟩
  · rintro ⟨one, found⟩
    by_cases question : wanted = 63
    · subst question
      exact found.any byte
    · cases one.resolve_left question
      exact found.literal plain question

theorem wildcard_nil_left : Wildcard [] text ↔ text = [] := by
  constructor
  · intro found
    cases found
    rfl
  · rintro rfl
    exact .nil

theorem not_wildcard_cons_nil (plain : wanted ≠ 42) : ¬ Wildcard (wanted :: pattern) [] := by
  intro found
  generalize shape : wanted :: pattern = whole, shown : ([] : Name) = given at found
  cases found with
  | nil => cases shape
  | star run found =>
    cases shape
    exact absurd rfl plain
  | any other found => cases shown
  | literal notStar notAny found => cases shown

/-- Nothing is left for anything but stars. -/
theorem wildcard_nil_right : Wildcard pattern [] ↔ pattern.all (· == 42) = true := by
  induction pattern with
  | nil => simp [wildcard_nil_left]
  | cons wanted pattern ih =>
    by_cases star : wanted = 42
    · subst star
      simp [wildcard_star, ih]
    · simp [not_wildcard_cons_nil star, star]

/-- A stretch of pattern without stars takes as many bytes as it has. -/
theorem wildcard_stretch (starless : 42 ∉ stretch) (found : Wildcard (stretch ++ pattern) text) :
    stretch.length ≤ text.length ∧ Wildcard pattern (text.drop stretch.length) := by
  induction stretch generalizing text with
  | nil => exact ⟨Nat.zero_le _, found⟩
  | cons wanted stretch ih =>
    have plain : wanted ≠ 42 := fun same => starless (by simp [same])
    have rest : 42 ∉ stretch := fun member => starless (List.mem_cons_of_mem _ member)
    cases text with
    | nil => exact absurd found (not_wildcard_cons_nil plain)
    | cons byte text =>
      obtain ⟨fits, behind⟩ := ih rest ((wildcard_cons plain).mp found).2
      exact ⟨Nat.succ_le_succ fits, behind⟩

section Loop

variable {pattern text : Name} {star : Star}

/-- The variables of the loop: what is left of the pattern and of the text, and the run of
the last `*`. -/
structure MatchState where
  pattern : Name
  text : Name
  star : Option Star

/-- One more byte for the last `*`, when there is one. -/
def retryStar : Option Star → Bool ⊕ MatchState
  | some star => .inr ⟨star.pattern, star.text.tail, some { star with text := star.text.tail }⟩
  | none => .inl false

/-- One round of the loop, or its end. -/
def matchStep (state : MatchState) : Bool ⊕ MatchState :=
  match state.text, state.pattern with
  | [], pattern => .inl (pattern.all (· == 42))
  | _ :: _, [] => retryStar state.star
  | byte :: rest, wanted :: more =>
    if wanted = 42 then .inr ⟨more, byte :: rest, some ⟨more, byte :: rest⟩⟩
    else if wanted = 63 || wanted = byte then .inr ⟨more, rest, state.star⟩
    else retryStar state.star

/-- The loop from a state on: how many rounds it makes, and its result. -/
inductive MatchRun : MatchState → Nat → Bool → Prop where
  | ended : state.text = [] → matchStep state = .inl result → MatchRun state 0 result
  | failed : state.text ≠ [] → matchStep state = .inl result → MatchRun state 1 result
  | again : matchStep state = .inr next → MatchRun next rounds result →
      MatchRun state (rounds + 1) result

/-- The loop with a count of rounds is the one that makes these steps. -/
theorem matchLoop_step (steps : Nat) (state : MatchState) :
    matchLoop (steps + 1) state.pattern state.text state.star =
      (matchStep state).elim id fun next => matchLoop steps next.pattern next.text next.star := by
  obtain ⟨pattern, text, star⟩ := state
  cases text with
  | nil => rfl
  | cons byte rest =>
    cases pattern with
    | nil => cases star <;> rfl
    | cons wanted more =>
      simp only [matchLoop, matchStep]
      split
      · rfl
      · split
        · rfl
        · cases star <;> rfl

theorem MatchRun.matchLoop (run : MatchRun state rounds result) (enough : rounds < steps) :
    matchLoop steps state.pattern state.text state.star = result := by
  induction run generalizing steps with
  | ended _ stop =>
    obtain ⟨steps, rfl⟩ := Nat.exists_eq_succ_of_ne_zero (Nat.ne_of_gt enough)
    rw [matchLoop_step, stop]
    rfl
  | failed _ stop =>
    obtain ⟨steps, rfl⟩ := Nat.exists_eq_succ_of_ne_zero (Nat.ne_of_gt (Nat.zero_lt_of_lt enough))
    rw [matchLoop_step, stop]
    rfl
  | again step _ ih =>
    obtain ⟨steps, rfl⟩ := Nat.exists_eq_succ_of_ne_zero (Nat.ne_of_gt (Nat.zero_lt_of_lt enough))
    rw [matchLoop_step, step]
    exact ih (Nat.lt_of_succ_lt_succ enough)

/-- The text matches once the last `*` takes a longer run than it has. -/
def Star.Longer (star : Star) : Prop :=
  ∃ count ≤ star.text.length, 0 < count ∧ Wildcard star.pattern (star.text.drop count)

/-- Since the last `*`, pattern and text went on byte for byte, with no `*` between. -/
def Star.Behind (star : Star) (pattern text : Name) : Prop :=
  ∃ stretch run : Name, star.pattern = stretch ++ pattern ∧ star.text = run ++ text ∧
    stretch.length = run.length ∧ 42 ∉ stretch

/-- What can still match: the rest as it is, or the rest after a longer run. -/
def MatchState.Open (state : MatchState) : Prop :=
  Wildcard state.pattern state.text ∨ ∃ star, state.star = some star ∧ star.Longer

/-- The last `*` is where the loop has come from. -/
def MatchState.Coherent (state : MatchState) : Prop :=
  ∀ star, state.star = some star → star.Behind state.pattern state.text

theorem Star.Behind.advance {wanted byte : UInt8}
    (behind : star.Behind (wanted :: pattern) (byte :: text)) (plain : wanted ≠ 42) :
    star.Behind pattern text := by
  obtain ⟨stretch, run, patternParts, textParts, long, starless⟩ := behind
  refine ⟨stretch ++ [wanted], run ++ [byte], by simp [patternParts], by simp [textParts],
    by simp [long], ?_⟩
  simp [starless, Ne.symm plain]

/-- A longer run of the last `*` moves what is left of the text on by as much. -/
theorem Star.Behind.longer (behind : star.Behind pattern text) (longer : star.Longer) :
    ∃ count ≤ text.length, 0 < count ∧ Wildcard pattern (text.drop count) := by
  obtain ⟨stretch, run, patternParts, textParts, long, starless⟩ := behind
  obtain ⟨count, within, some, found⟩ := longer
  rw [patternParts] at found
  obtain ⟨fits, rest⟩ := wildcard_stretch starless found
  rw [List.length_drop] at fits
  have lengths : star.text.length = run.length + text.length := by simp [textParts]
  have shift : count + stretch.length = run.length + count := by omega
  rw [List.drop_drop, shift, textParts, ← List.drop_drop, List.drop_left] at rest
  exact ⟨count, by omega, some, rest⟩

theorem Star.longer_iff (left : star.text ≠ []) :
    star.Longer ↔ Wildcard star.pattern star.text.tail ∨
      Star.Longer { star with text := star.text.tail } := by
  obtain ⟨pattern, text⟩ := star
  cases text with
  | nil => exact absurd rfl left
  | cons byte text =>
    constructor
    · rintro ⟨count, within, some, found⟩
      obtain ⟨count, rfl⟩ := Nat.exists_eq_succ_of_ne_zero (Nat.ne_of_gt some)
      cases count with
      | zero => exact .inl found
      | succ count =>
        exact .inr ⟨count + 1, Nat.le_of_succ_le_succ within, Nat.succ_pos _, found⟩
    · rintro (found | ⟨count, within, some, found⟩)
      · exact ⟨1, Nat.succ_le_succ (Nat.zero_le _), Nat.one_pos, found⟩
      · exact ⟨count + 1, Nat.succ_le_succ within, Nat.succ_pos _, found⟩

theorem wildcard_star_iff : Wildcard (42 :: pattern) text ↔
    Wildcard pattern text ∨ Star.Longer ⟨pattern, text⟩ := by
  rw [wildcard_star]
  constructor
  · rintro ⟨count, within, found⟩
    cases count with
    | zero => exact .inl found
    | succ count => exact .inr ⟨count + 1, within, Nat.succ_pos _, found⟩
  · rintro (found | ⟨count, within, -, found⟩)
    · exact ⟨0, Nat.zero_le _, found⟩
    · exact ⟨count, within, found⟩

/-- The new `*` takes over what a longer run of the one before it would have skipped: the
earlier one never has to be tried again. -/
theorem open_at_star (coherent : MatchState.Coherent ⟨42 :: pattern, text, last⟩) :
    MatchState.Open ⟨42 :: pattern, text, last⟩ ↔ Wildcard (42 :: pattern) text := by
  refine ⟨?_, .inl⟩
  rintro (found | ⟨star, here, longer⟩)
  · exact found
  · obtain ⟨count, -, -, found⟩ := (coherent star here).longer longer
    obtain ⟨more, -, found⟩ := wildcard_star.mp found
    rw [List.drop_drop] at found
    have whole := found.star (text.take (count + more))
    rwa [List.take_append_drop] at whole

/-- Going back to the last `*` drops nothing but the rest as it is. -/
theorem retryStar_spec {state : MatchState} (coherent : state.Coherent) (left : state.text ≠ [])
    (mismatch : ¬ Wildcard state.pattern state.text) :
    (retryStar state.star = .inl false ∧ ¬ state.Open) ∨
      ∃ next, retryStar state.star = .inr next ∧ next.Coherent ∧ (state.Open ↔ next.Open) := by
  cases last : state.star with
  | none => exact .inl ⟨rfl, by simp [MatchState.Open, mismatch, last]⟩
  | some star =>
    obtain ⟨stretch, run, -, textParts, -⟩ := coherent star last
    have some : star.text ≠ [] := by simp [textParts, left]
    refine .inr ⟨_, rfl, ?_, ?_⟩
    · rintro star ⟨⟩
      exact ⟨[], [], rfl, rfl, rfl, List.not_mem_nil⟩
    · simp [MatchState.Open, mismatch, last, Star.longer_iff some]

/-- One step of the loop keeps what can still match; an end of the loop decides it. -/
theorem matchStep_spec {state : MatchState} (coherent : state.Coherent) :
    (∃ result, matchStep state = .inl result ∧ (result = true ↔ state.Open)) ∨
      ∃ next, matchStep state = .inr next ∧ next.Coherent ∧ (state.Open ↔ next.Open) := by
  have retried (left : state.text ≠ []) (mismatch : ¬ Wildcard state.pattern state.text)
      (step : matchStep state = retryStar state.star) :
      (∃ result, matchStep state = .inl result ∧ (result = true ↔ state.Open)) ∨
        ∃ next, matchStep state = .inr next ∧ next.Coherent ∧ (state.Open ↔ next.Open) := by
    rw [step]
    refine (retryStar_spec coherent left mismatch).imp_left ?_
    rintro ⟨failed, closed⟩
    exact ⟨false, failed, by simp [closed]⟩
  obtain ⟨pattern, text, last⟩ := state
  cases text with
  | nil =>
    refine .inl ⟨_, rfl, ?_⟩
    rw [← wildcard_nil_right]
    refine ⟨.inl, ?_⟩
    rintro (found | ⟨star, here, longer⟩)
    · exact found
    · obtain ⟨count, within, some, -⟩ := (coherent star here).longer longer
      exact absurd within (Nat.not_le_of_lt some)
  | cons byte rest =>
    cases pattern with
    | nil => exact retried (List.cons_ne_nil _ _) (by simp [wildcard_nil_left]) rfl
    | cons wanted more =>
      by_cases star : wanted = 42
      · subst star
        refine .inr ⟨_, rfl, ?_, ?_⟩
        · rintro star ⟨⟩
          exact ⟨[], [], rfl, rfl, rfl, List.not_mem_nil⟩
        · rw [open_at_star coherent, wildcard_star_iff]
          simp [MatchState.Open]
      · by_cases one : wanted = 63 ∨ wanted = byte
        · refine .inr ⟨⟨more, rest, last⟩, by simp [matchStep, star, one], ?_, ?_⟩
          · intro before here
            exact (coherent before here).advance star
          · simp [MatchState.Open, wildcard_cons star, one]
        · exact retried (List.cons_ne_nil _ _) (by simp [wildcard_cons star, one])
            (by simp [matchStep, star, one])

/-- How often the last `*`, or one still to come, can take a byte more. -/
def MatchState.retries (state : MatchState) : Nat :=
  (state.star.elim state.text fun star => star.text).length

/-- The rounds left: the rest of the pattern, and the pattern again for each retry. -/
def MatchState.roundsLeft (state : MatchState) (limit : Nat) : Nat :=
  state.pattern.length + 1 + state.retries * (limit + 1)

/-- No pattern the loop goes back to is longer than the limit. -/
def MatchState.Within (state : MatchState) (limit : Nat) : Prop :=
  state.pattern.length ≤ limit ∧ ∀ star, state.star = some star → star.pattern.length ≤ limit

theorem retryStar_rounds {state next : MatchState} (coherent : state.Coherent)
    (left : state.text ≠ []) (within : state.Within limit)
    (step : retryStar state.star = .inr next) :
    next.Within limit ∧ next.roundsLeft limit < state.roundsLeft limit := by
  cases last : state.star with
  | none =>
    rw [last] at step
    cases step
  | some star =>
    rw [last] at step
    cases step
    obtain ⟨stretch, run, -, textParts, -⟩ := coherent star last
    have short := within.2 star last
    refine ⟨⟨short, ?_⟩, ?_⟩
    · rintro star ⟨⟩
      exact short
    · obtain ⟨count, long⟩ : ∃ count, star.text.length = count + 1 := by
        refine Nat.exists_eq_succ_of_ne_zero ?_
        simp [textParts, left]
      simp only [MatchState.roundsLeft, MatchState.retries, last, Option.elim_some,
        List.length_tail, long, Nat.add_sub_cancel, Nat.add_one_mul]
      omega

theorem MatchState.Coherent.text_le_retries {state : MatchState} (coherent : state.Coherent) :
    state.text.length ≤ state.retries := by
  cases last : state.star with
  | none => simp [MatchState.retries, last]
  | some star =>
    obtain ⟨stretch, run, -, textParts, -⟩ := coherent star last
    simp [MatchState.retries, last, textParts]

/-- A step that uses up pattern and gives no retry back leaves fewer rounds. -/
theorem MatchState.roundsLeft_lt {state next : MatchState}
    (shorter : next.pattern.length < state.pattern.length)
    (fewer : next.retries ≤ state.retries) : next.roundsLeft limit < state.roundsLeft limit := by
  have again := Nat.mul_le_mul_right (limit + 1) fewer
  unfold MatchState.roundsLeft
  omega

theorem matchStep_rounds {state next : MatchState} (coherent : state.Coherent)
    (within : state.Within limit) (step : matchStep state = .inr next) :
    next.Within limit ∧ next.roundsLeft limit < state.roundsLeft limit := by
  have retried (left : state.text ≠ []) (same : matchStep state = retryStar state.star) :=
    retryStar_rounds coherent left within (same.symm.trans step)
  obtain ⟨pattern, text, last⟩ := state
  cases text with
  | nil => cases step
  | cons byte rest =>
    cases pattern with
    | nil => exact retried (List.cons_ne_nil _ _) rfl
    | cons wanted more =>
      have short : more.length ≤ limit := Nat.le_of_succ_le within.1
      by_cases star : wanted = 42
      · subst star
        cases step
        refine ⟨⟨short, ?_⟩, ?_⟩
        · rintro star ⟨⟩
          exact short
        · exact MatchState.roundsLeft_lt (Nat.lt_succ_self _) coherent.text_le_retries
      · by_cases one : wanted = 63 ∨ wanted = byte
        · simp only [matchStep, star, one, if_false, Bool.or_eq_true, decide_eq_true_eq,
            if_true] at step
          cases step
          refine ⟨⟨short, within.2⟩, ?_⟩
          refine MatchState.roundsLeft_lt (Nat.lt_succ_self _) ?_
          cases last with
          | none => exact Nat.le_succ _
          | some star => exact Nat.le_refl _
        · exact retried (List.cons_ne_nil _ _) (by simp [matchStep, star, one])

/-- The loop ends within the rounds left, with whether anything could still match. -/
theorem match_runs (state : MatchState) (coherent : state.Coherent)
    (within : state.Within limit) :
    ∃ rounds result, MatchRun state rounds result ∧ rounds ≤ state.roundsLeft limit ∧
      (result = true ↔ state.Open) := by
  induction bound : state.roundsLeft limit using Nat.strongRecOn generalizing state with
  | ind bound ih =>
    subst bound
    obtain ⟨result, stop, right⟩ | ⟨next, step, kept, same⟩ := matchStep_spec coherent
    · by_cases done : state.text = []
      · exact ⟨0, result, .ended done stop, Nat.zero_le _, right⟩
      · refine ⟨1, result, .failed done stop, ?_, right⟩
        unfold MatchState.roundsLeft
        omega
    · obtain ⟨inside, fewer⟩ := matchStep_rounds coherent within step
      obtain ⟨rounds, result, run, few, right⟩ := ih _ fewer next kept inside rfl
      exact ⟨rounds + 1, result, .again step run, Nat.succ_le_of_lt (few.trans_lt fewer),
        right.trans same.symm⟩

end Loop

/-- `matches_bytes`. -/
def matchesBytes (pattern text : Name) : Bool :=
  matchLoop (matchSteps pattern text) pattern text none

theorem wildcardMatches_eq (pattern : String) (text : Name) :
    wildcardMatches pattern text = matchesBytes (utf8 pattern) text := rfl

/-- The start of the loop: what is left of the pattern is the longest it ever is. -/
theorem matchesBytes_run (pattern text : Name) :
    ∃ rounds ≤ (text.length + 1) * (pattern.length + 1),
      MatchRun ⟨pattern, text, none⟩ rounds (matchesBytes pattern text) ∧
        (matchesBytes pattern text = true ↔ Wildcard pattern text) := by
  have coherent : MatchState.Coherent ⟨pattern, text, none⟩ := fun _ here => nomatch here
  have within : MatchState.Within ⟨pattern, text, none⟩ pattern.length :=
    ⟨Nat.le_refl _, fun _ here => nomatch here⟩
  obtain ⟨rounds, result, run, few, right⟩ := match_runs _ coherent within
  have bound : rounds ≤ (text.length + 1) * (pattern.length + 1) := by
    rw [Nat.add_one_mul, Nat.add_comm]
    exact few
  have enough : rounds < matchSteps pattern text := by
    refine Nat.lt_of_le_of_lt bound ?_
    unfold matchSteps
    rw [Nat.mul_comm]
    exact Nat.mul_lt_mul_of_lt_of_lt (by omega) (by omega)
  have same : matchesBytes pattern text = result := run.matchLoop enough
  rw [same]
  refine ⟨rounds, bound, run, right.trans ?_⟩
  simp [MatchState.Open]

/-- A text matches exactly when it can be split among the bytes of the pattern. -/
theorem matchesBytes_iff {pattern text : Name} :
    matchesBytes pattern text = true ↔ Wildcard pattern text := by
  obtain ⟨rounds, -, -, right⟩ := matchesBytes_run pattern text
  exact right

/-- The loop decides the meaning of the pattern, in at most as many rounds as there are pairs of
places in the text and the pattern, ends included. -/
theorem matches_bytes_decides (pattern text : Name) :
    (matchesBytes pattern text = true ↔ Wildcard pattern text) ∧
      ∃ rounds ≤ (text.length + 1) * (pattern.length + 1),
        MatchRun ⟨pattern, text, none⟩ rounds (matchesBytes pattern text) := by
  obtain ⟨rounds, bound, run, right⟩ := matchesBytes_run pattern text
  exact ⟨right, rounds, bound, run⟩

end Kakoi
