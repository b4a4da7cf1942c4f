import Mathlib.Data.List.Induction
import Kakoi.Base.Collecting

/-! Elements written in layers, lower ones first, for one place: another layer replaces what
stands there, the same layer leaves it or conflicts with it. -/

namespace Kakoi

variable [DecidableEq ℓ]

/-- What stands at the place after one more element. -/
def pick (layer : α → ℓ) : Option α → α → Option α
  | none, next => some next
  | some standing, next => if layer standing = layer next then some standing else some next

/-- What stands at the place in the end. -/
def winner (layer : α → ℓ) (elements : List α) : Option α := elements.foldl (pick layer) none

/-- No element says something different from what its own layer left standing. -/
def Harmonious (layer : α → ℓ) (content : α → δ) (elements : List α) : Prop :=
  ∀ front next back, elements = front ++ next :: back → ∀ standing,
    winner layer front = some standing → layer standing = layer next → content standing = content next

/-- An element says something different from what its own layer left standing before it. -/
def Disputed (layer : α → ℓ) (content : α → δ) (elements : List α) (standing next : α) : Prop :=
  ∃ front back, elements = front ++ next :: back ∧ winner layer front = some standing ∧
    layer standing = layer next ∧ content standing ≠ content next

/-- Blocks written one after the other, each of a layer of its own. -/
structure OwnLayers (layer : α → ℓ) (blocks : List (List α)) : Prop where
  shared : ∀ block ∈ blocks, ∀ element ∈ block, ∀ other ∈ block, layer element = layer other
  apart : blocks.Pairwise fun lower upper =>
    ∀ element ∈ lower, ∀ other ∈ upper, layer element ≠ layer other

section Winner

variable {layer : α → ℓ}

theorem winner_nil : winner layer ([] : List α) = none := rfl

theorem winner_concat (elements : List α) (next : α) :
    winner layer (elements ++ [next]) = pick layer (winner layer elements) next := by
  simp [winner]

theorem pick_isSome (layer : α → ℓ) (standing : Option α) (next : α) :
    (pick layer standing next).isSome = true := by
  cases standing with
  | none => rfl
  | some element =>
    rw [pick]
    split <;> rfl

theorem winner_eq_none (layer : α → ℓ) : winner layer elements = none ↔ elements = [] := by
  cases elements using List.reverseRecOn with
  | nil => simp [winner_nil]
  | append_singleton front next =>
    have stands := pick_isSome layer (winner layer front) next
    rw [← winner_concat] at stands
    constructor
    · intro none
      rw [none] at stands
      cases stands
    · simp

theorem harmonious_nil : Harmonious layer content ([] : List α) := by
  intro front next back same
  simp at same

theorem harmonious_iff : Harmonious layer content elements ↔
    ∀ standing next, ¬ Disputed layer content elements standing next := by
  constructor
  · intro harmonious standing next ⟨front, back, split, won, same, different⟩
    exact different (harmonious front next back split standing won same)
  · intro quiet front next back split standing won same
    by_contra different
    exact quiet standing next ⟨front, back, split, won, same, different⟩

theorem disputed_concat : Disputed layer content (front ++ [last]) standing next ↔
    Disputed layer content front standing next ∨
      (next = last ∧ winner layer front = some standing ∧ layer standing = layer last ∧
        content standing ≠ content last) := by
  constructor
  · intro ⟨start, rest, split, won, same, different⟩
    rcases List.eq_nil_or_concat rest with rfl | ⟨kept, final, rfl⟩
    · obtain ⟨rfl, tail⟩ := List.append_inj' split rfl
      cases tail
      exact .inr ⟨rfl, won, same, different⟩
    · have folded : front ++ [last] = (start ++ next :: kept) ++ [final] := by simpa using split
      exact .inl ⟨start, kept, (List.append_inj' folded rfl).1, won, same, different⟩
  · rintro (⟨start, rest, rfl, won, same, different⟩ | ⟨rfl, won, same, different⟩)
    · exact ⟨start, rest ++ [last], by simp, won, same, different⟩
    · exact ⟨front, [], rfl, won, same, different⟩

theorem harmonious_concat (harmonious : Harmonious layer content front)
    (agreed : ∀ standing, winner layer front = some standing → layer standing = layer next →
      content standing = content next) :
    Harmonious layer content (front ++ [next]) := by
  rw [harmonious_iff] at harmonious ⊢
  intro standing later disputed
  rcases disputed_concat.mp disputed with before | ⟨rfl, won, same, different⟩
  · exact harmonious standing later before
  · exact different (agreed standing won same)

/-- Where the winner stands: everything behind it is of its layer, and what stood before
it was not. -/
theorem winner_block (won : winner layer elements = some chosen) :
    ∃ front back, elements = front ++ chosen :: back ∧ (∀ later ∈ back, layer later = layer chosen) ∧
      ∀ standing, winner layer front = some standing → layer standing ≠ layer chosen := by
  induction elements using List.reverseRecOn with
  | nil => cases won
  | append_singleton rest next ih =>
    rw [winner_concat] at won
    cases before : winner layer rest with
    | none =>
      rw [before, pick] at won
      cases won
      refine ⟨rest, [], rfl, by simp, ?_⟩
      intro standing stood
      rw [before] at stood
      cases stood
    | some standing =>
      rw [before, pick] at won
      split at won
      · rename_i same
        cases won
        obtain ⟨front, back, split, block, apart⟩ := ih before
        refine ⟨front, back ++ [next], by simp [split], ?_, apart⟩
        intro later member
        rcases mem_concat.mp member with old | new
        · exact block later old
        · rw [new, same]
      · rename_i different
        cases won
        refine ⟨rest, [], rfl, by simp, ?_⟩
        intro other stood
        rw [before] at stood
        cases stood
        exact different

theorem winner_mem (won : winner layer elements = some chosen) : chosen ∈ elements := by
  obtain ⟨front, back, same, -, -⟩ := winner_block won
  simp [same]

/-- What is written first for a layer stands for as long as its block goes on. -/
theorem winner_block_first (below : ∀ element ∈ front, layer element ≠ layer first)
    (own : ∀ element ∈ rest, layer element = layer first) :
    winner layer (front ++ first :: rest) = some first := by
  induction rest using List.reverseRecOn with
  | nil =>
    rw [winner_concat]
    cases before : winner layer front with
    | none => rfl
    | some standing => rw [pick, if_neg (below standing (winner_mem before))]
  | append_singleton kept last ih =>
    have stands := ih fun element member => own element (List.mem_append_left _ member)
    have split : front ++ first :: (kept ++ [last]) = (front ++ first :: kept) ++ [last] := by simp
    rw [split, winner_concat, stands, pick, if_pos (own last (by simp)).symm]

end Winner

namespace OwnLayers

variable {layer : α → ℓ}

omit [DecidableEq ℓ] in
theorem inside (own : OwnLayers layer (lower ++ block :: upper)) (member : element ∈ block)
    (present : other ∈ block) : layer element = layer other :=
  own.shared block (by simp) element member other present

omit [DecidableEq ℓ] in
theorem below (own : OwnLayers layer (lower ++ block :: upper)) (member : element ∈ lower.flatten)
    (present : other ∈ block) : layer element ≠ layer other := by
  obtain ⟨under, inside, within⟩ := List.mem_flatten.mp member
  exact (List.pairwise_append.mp own.apart).2.2 under inside block List.mem_cons_self
    element within other present

theorem winner_first (own : OwnLayers layer (lower ++ (first :: rest) :: upper))
    (start : List α) (back : List α) (split : rest = start ++ back) :
    winner layer (lower.flatten ++ first :: start) = some first := by
  refine winner_block_first (fun element member => own.below member List.mem_cons_self) ?_
  intro element member
  exact own.inside (List.mem_cons_of_mem _ (by simp [split, member])) List.mem_cons_self

omit [DecidableEq ℓ] in
theorem last_filled (filled : ∃ block ∈ blocks, block ≠ []) : ∃ lower block upper,
    blocks = lower ++ block :: upper ∧ block ≠ [] ∧ ∀ above ∈ upper, above = [] := by
  induction blocks using List.reverseRecOn with
  | nil => simp at filled
  | append_singleton front last ih =>
    by_cases hollow : last = []
    · obtain ⟨block, member, full⟩ := filled
      have inside : block ∈ front := (mem_concat.mp member).resolve_right fun single =>
        full (single.trans hollow)
      obtain ⟨lower, found, upper, rfl, whole, empty⟩ := ih ⟨block, inside, full⟩
      refine ⟨lower, found, upper ++ [last], by simp, whole, ?_⟩
      intro above present
      exact (mem_concat.mp present).elim (empty above) fun single => single.trans hollow
    · exact ⟨front, last, [], rfl, hollow, by simp⟩

/-- In the end the first element of the last layer that has one stands. -/
theorem winner_iff (own : OwnLayers layer blocks) :
    winner layer blocks.flatten = some chosen ↔
      ∃ lower block upper, blocks = lower ++ block :: upper ∧ (∀ above ∈ upper, above = []) ∧
        block.head? = some chosen := by
  have ends : ∀ lower block upper first, blocks = lower ++ block :: upper →
      (∀ above ∈ upper, above = []) → block.head? = some first →
      winner layer blocks.flatten = some first := by
    intro lower block upper first split empty head
    obtain ⟨rest, rfl⟩ := List.head?_eq_some_iff.mp head
    subst split
    have nothing : upper.flatten = [] := List.flatten_eq_nil_iff.mpr empty
    simpa [nothing] using own.winner_first rest [] (by simp)
  constructor
  · intro won
    obtain ⟨filled, member, inside⟩ := List.mem_flatten.mp (winner_mem won)
    obtain ⟨lower, block, upper, split, full, empty⟩ :=
      last_filled ⟨filled, member, List.ne_nil_of_mem inside⟩
    obtain ⟨first, rest, rfl⟩ := List.exists_cons_of_ne_nil full
    have stands := ends lower (first :: rest) upper first split empty rfl
    rw [won] at stands
    cases stands
    exact ⟨lower, _, upper, split, empty, rfl⟩
  · intro ⟨lower, block, upper, split, empty, head⟩
    exact ends lower block upper chosen split empty head

omit [DecidableEq ℓ] in
theorem flatten_around (split : blocks.flatten = front ++ next :: back) :
    ∃ lower start rest upper,
      blocks = lower ++ (start ++ next :: rest) :: upper ∧ front = lower.flatten ++ start := by
  induction blocks generalizing front with
  | nil => simp at split
  | cons block others ih =>
    rw [List.flatten_cons] at split
    rcases List.append_eq_append_iff.mp split with ⟨more, rfl, later⟩ | ⟨more, rfl, earlier⟩
    · obtain ⟨lower, start, rest, upper, rfl, rfl⟩ := ih later
      exact ⟨block :: lower, start, rest, upper, rfl, by simp⟩
    · cases more with
      | nil =>
        have later : others.flatten = [] ++ next :: back := by simpa using earlier.symm
        obtain ⟨lower, start, rest, upper, rfl, begins⟩ := ih later
        refine ⟨front :: lower, start, rest, upper, by simp, ?_⟩
        rw [List.flatten_cons, List.append_assoc, ← begins, List.append_nil]
      | cons head tail =>
        cases earlier
        exact ⟨[], front, tail, others, rfl, rfl⟩

/-- An element is disputed by the first one of its block. -/
theorem disputed_iff (own : OwnLayers layer blocks) :
    Disputed layer content blocks.flatten standing next ↔
      ∃ block ∈ blocks, next ∈ block ∧ block.head? = some standing ∧ content standing ≠ content next := by
  constructor
  · intro ⟨front, back, split, won, same, different⟩
    obtain ⟨lower, start, rest, upper, rfl, rfl⟩ := flatten_around split
    refine ⟨start ++ next :: rest, by simp, by simp, ?_, different⟩
    cases start with
    | nil =>
      rw [List.append_nil] at won
      exact absurd same (own.below (winner_mem won) (by simp))
    | cons first more =>
      rw [own.winner_first more (next :: rest) rfl] at won
      exact won
  · intro ⟨block, member, inside, head, different⟩
    obtain ⟨rest, rfl⟩ := List.head?_eq_some_iff.mp head
    obtain ⟨lower, upper, rfl⟩ := List.append_of_mem member
    rcases List.mem_cons.mp inside with rfl | later
    · exact absurd rfl different
    · obtain ⟨start, back, rfl⟩ := List.append_of_mem later
      refine ⟨lower.flatten ++ standing :: start, back ++ upper.flatten, by simp,
        own.winner_first start (next :: back) rfl, ?_, different⟩
      exact own.inside List.mem_cons_self inside

end OwnLayers

end Kakoi
