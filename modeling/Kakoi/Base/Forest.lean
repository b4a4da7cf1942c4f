import Mathlib.Data.List.Infix
import Mathlib.Logic.Function.Basic
import Kakoi.Base.Collecting

/-! Trees of named nodes, as first child and next sibling: their preorder, sorting siblings by
name, and building a tree again node by node. -/

namespace Kakoi

inductive Forest (κ β α : Type) where
  | nil
  | leaf (name : κ) (value : α) (rest : Forest κ β α)
  | branch (name : κ) (value : β) (children rest : Forest κ β α)

namespace Forest

/-- The names of the nodes at the top. -/
def names : Forest κ β α → List κ
  | .nil => []
  | .leaf name _ rest => name :: rest.names
  | .branch name _ _ rest => name :: rest.names

/-- Siblings have different names, at every level. -/
def Distinct : Forest κ β α → Prop
  | .nil => True
  | .leaf name _ rest => name ∉ rest.names ∧ rest.Distinct
  | .branch name _ children rest => name ∉ rest.names ∧ children.Distinct ∧ rest.Distinct

/-- Every name of a node, at every level, is one of a kind. -/
def AllNamed (kind : κ → Prop) : Forest κ β α → Prop
  | .nil => True
  | .leaf name _ rest => kind name ∧ rest.AllNamed kind
  | .branch name _ children rest => kind name ∧ children.AllNamed kind ∧ rest.AllNamed kind

/-- The nodes under a place, each branch in front of what is under it. -/
def preorder (place : List κ) : Forest κ β α → List (List κ × (β ⊕ α))
  | .nil => []
  | .leaf name value rest => (place ++ [name], .inr value) :: rest.preorder place
  | .branch name value children rest =>
    (place ++ [name], .inl value) :: (children.preorder (place ++ [name]) ++ rest.preorder place)

section Places

variable {forest : Forest κ β α}

theorem mem_preorder (member : entry ∈ forest.preorder place) :
    ∃ name ∈ forest.names, ∃ below, entry.1 = place ++ name :: below := by
  induction forest generalizing place with
  | nil => cases member
  | leaf name value rest ih =>
    rcases List.mem_cons.mp member with rfl | later
    · exact ⟨name, List.mem_cons_self, [], rfl⟩
    · obtain ⟨other, present, below, same⟩ := ih later
      exact ⟨other, List.mem_cons_of_mem _ present, below, same⟩
  | branch name value children rest ihChildren ih =>
    rcases List.mem_cons.mp member with rfl | later
    · exact ⟨name, List.mem_cons_self, [], rfl⟩
    · rcases List.mem_append.mp later with inside | beside
      · obtain ⟨other, -, below, same⟩ := ihChildren inside
        exact ⟨name, List.mem_cons_self, other :: below, by simp [same]⟩
      · obtain ⟨other, present, below, same⟩ := ih beside
        exact ⟨other, List.mem_cons_of_mem _ present, below, same⟩

/-- A place that starts with another node's place is under that node's name. -/
theorem not_under (name : κ) (below : List κ) (different : other ≠ name) :
    ¬ place ++ other :: rest <+: place ++ name :: below := by
  rw [List.prefix_append_right_inj, List.cons_prefix_cons]
  exact fun under => different under.1

/-- No node comes before a node it is under, or that has its place. -/
theorem preorder_pairwise (distinct : forest.Distinct) :
    (forest.preorder place).Pairwise fun earlier later => ¬ later.1 <+: earlier.1 := by
  induction forest generalizing place with
  | nil => exact .nil
  | leaf name value rest ih =>
    refine List.pairwise_cons.mpr ⟨fun entry member => ?_, ih distinct.2⟩
    obtain ⟨other, present, below, same⟩ := mem_preorder member
    rw [same]
    exact not_under name [] fun alike => distinct.1 (alike ▸ present)
  | branch name value children rest ihChildren ih =>
    obtain ⟨fresh, distinctChildren, distinctRest⟩ := distinct
    have beside : ∀ entry ∈ rest.preorder place, ∀ below,
        ¬ entry.1 <+: place ++ name :: below := by
      intro entry member below
      obtain ⟨other, present, deeper, same⟩ := mem_preorder member
      rw [same]
      exact not_under name below fun alike => fresh (alike ▸ present)
    refine List.pairwise_cons.mpr ⟨fun entry member => ?_,
      List.pairwise_append.mpr ⟨ihChildren distinctChildren, ih distinctRest, ?_⟩⟩
    · rcases List.mem_append.mp member with inside | later
      · obtain ⟨other, -, below, same⟩ := mem_preorder inside
        intro under
        have longer := under.length_le
        rw [same] at longer
        simp at longer
      · exact beside entry later []
    · intro entry inside next later
      obtain ⟨other, -, below, same⟩ := mem_preorder inside
      rw [same, List.append_assoc]
      exact beside next later _

/-- Each node is at the top, or the branch it is in comes before it. -/
theorem preorder_parent (split : forest.preorder place = before ++ entry :: after) :
    entry.1.dropLast = place ∨ ∃ value, (entry.1.dropLast, .inl value) ∈ before := by
  induction forest generalizing place before after with
  | nil => simp [preorder] at split
  | leaf name value rest ih =>
    cases before with
    | nil =>
      obtain ⟨rfl, -⟩ := List.cons.inj split
      exact .inl (List.dropLast_concat)
    | cons first before =>
      rcases ih (List.cons.inj split).2 with top | ⟨parent, member⟩
      · exact .inl top
      · exact .inr ⟨parent, List.mem_cons_of_mem _ member⟩
  | branch name value children rest ihChildren ih =>
    cases before with
    | nil =>
      obtain ⟨rfl, -⟩ := List.cons.inj split
      exact .inl (List.dropLast_concat)
    | cons first before =>
      obtain ⟨rfl, others⟩ := List.cons.inj split
      rcases List.append_eq_append_iff.mp others with ⟨between, front, back⟩ | ⟨between, front, back⟩
      · -- the node is beside the branch
        rcases ih back with top | ⟨parent, member⟩
        · exact .inl top
        · refine .inr ⟨parent, List.mem_cons_of_mem _ ?_⟩
          rw [front]
          exact List.mem_append_right _ member
      · -- the node is among the children, or the first behind them
        cases between with
        | nil =>
          rw [List.append_nil] at front
          have beside : rest.preorder place = [] ++ entry :: after := back.symm
          rcases ih beside with top | ⟨parent, member⟩
          · exact .inl top
          · cases member
        | cons next between =>
          obtain ⟨rfl, -⟩ := List.cons.inj back
          rcases ihChildren front with top | ⟨parent, member⟩
          · rw [top]
            exact .inr ⟨value, List.mem_cons_self⟩
          · exact .inr ⟨parent, List.mem_cons_of_mem _ member⟩

theorem preorder_named (named : forest.AllNamed kind) (above : ∀ name ∈ place, kind name) :
    ∀ entry ∈ forest.preorder place, ∀ name ∈ entry.1, kind name := by
  have deeper : ∀ {place : List κ} {name : κ}, (∀ name ∈ place, kind name) → kind name →
      ∀ other ∈ place ++ [name], kind other := by
    intro place name above own other member
    rcases mem_concat.mp member with inside | last
    · exact above other inside
    · rw [last]
      exact own
  induction forest generalizing place with
  | nil => simp [preorder]
  | leaf name value rest ih =>
    exact List.forall_mem_cons.mpr ⟨deeper above named.1, ih named.2 above⟩
  | branch name value children rest ihChildren ih =>
    refine List.forall_mem_cons.mpr ⟨deeper above named.1, fun entry member => ?_⟩
    rcases List.mem_append.mp member with inside | beside
    · exact ihChildren named.2.1 (deeper above named.1) entry inside
    · exact ih named.2.2 above entry beside

end Places

section Sorting

variable (le : κ → κ → Bool)

/-- One more node in front. -/
def cons (name : κ) (node : α ⊕ (β × Forest κ β α)) (rest : Forest κ β α) : Forest κ β α :=
  match node with
  | .inl value => .leaf name value rest
  | .inr (value, children) => .branch name value children rest

/-- One more node, in front of the first that its name is not after. -/
def insert (name : κ) (node : α ⊕ (β × Forest κ β α)) : Forest κ β α → Forest κ β α
  | .nil => cons name node .nil
  | .leaf other value rest =>
    if le name other then cons name node (.leaf other value rest)
    else .leaf other value (rest.insert name node)
  | .branch other value children rest =>
    if le name other then cons name node (.branch other value children rest)
    else .branch other value children (rest.insert name node)

/-- Siblings sorted by name, at every level. -/
def inOrder : Forest κ β α → Forest κ β α
  | .nil => .nil
  | .leaf name value rest => rest.inOrder.insert le name (.inl value)
  | .branch name value children rest =>
    rest.inOrder.insert le name (.inr (value, children.inOrder))

variable {le} {forest : Forest κ β α}

/-- The nodes one node adds. -/
def nodePreorder (place : List κ) (name : κ) :
    α ⊕ (β × Forest κ β α) → List (List κ × (β ⊕ α))
  | .inl value => [(place ++ [name], .inr value)]
  | .inr (value, children) => (place ++ [name], .inl value) :: children.preorder (place ++ [name])

theorem preorder_cons (place : List κ) (name : κ) (node : α ⊕ (β × Forest κ β α)) :
    (cons name node forest).preorder place =
      nodePreorder place name node ++ forest.preorder place := by
  cases node with
  | inl value => rfl
  | inr node => rfl

theorem preorder_insert (place : List κ) (name : κ) (node : α ⊕ (β × Forest κ β α)) :
    ((forest.insert le name node).preorder place).Perm
      (nodePreorder place name node ++ forest.preorder place) := by
  induction forest with
  | nil => exact .of_eq (preorder_cons place name node)
  | leaf other value rest ih =>
    rw [insert]
    split
    · exact .of_eq (preorder_cons place name node)
    · exact (ih.cons _).trans List.perm_middle.symm
  | branch other value children rest _ ih =>
    rw [insert]
    split
    · exact .of_eq (preorder_cons place name node)
    · rw [preorder, preorder]
      refine ((ih.append_left _).cons _).trans ?_
      refine .trans ?_ List.perm_middle.symm
      refine .cons _ ?_
      rw [← List.append_assoc, ← List.append_assoc]
      exact List.perm_append_comm.append_right _

/-- Sorting keeps the nodes and their places. -/
theorem preorder_inOrder (place : List κ) :
    ((forest.inOrder le).preorder place).Perm (forest.preorder place) := by
  induction forest generalizing place with
  | nil => exact .refl _
  | leaf name value rest ih => exact (preorder_insert _ _ _).trans ((ih place).cons _)
  | branch name value children rest ihChildren ih =>
    refine (preorder_insert _ _ _).trans ?_
    exact ((ihChildren (place ++ [name])).append (ih place)).cons _

theorem names_insert (name : κ) (node : α ⊕ (β × Forest κ β α)) :
    (forest.insert le name node).names.Perm (name :: forest.names) := by
  have front : ∀ rest : Forest κ β α, (cons name node rest).names = name :: rest.names := by
    intro rest
    cases node <;> rfl
  induction forest with
  | nil => exact .of_eq (front _)
  | leaf other value rest ih =>
    rw [insert]
    split
    · exact .of_eq (front _)
    · exact (ih.cons _).trans (.swap _ _ _)
  | branch other value children rest _ ih =>
    rw [insert]
    split
    · exact .of_eq (front _)
    · exact (ih.cons _).trans (.swap _ _ _)

/-- What the node's own children must satisfy. -/
def DistinctBelow : α ⊕ (β × Forest κ β α) → Prop
  | .inl _ => True
  | .inr (_, children) => children.Distinct

theorem distinct_insert {name : κ} (fresh : name ∉ forest.names) (below : DistinctBelow node)
    (distinct : forest.Distinct) : (forest.insert le name node).Distinct := by
  have front : ∀ rest : Forest κ β α, name ∉ rest.names → rest.Distinct →
      (cons name node rest).Distinct := by
    intro rest unused distinctRest
    cases node with
    | inl value => exact ⟨unused, distinctRest⟩
    | inr node => exact ⟨unused, below, distinctRest⟩
  have keep : ∀ {rest : Forest κ β α} {other : κ}, name ≠ other → other ∉ rest.names →
      other ∉ (rest.insert le name node).names := by
    intro rest other different unused member
    rcases List.mem_cons.mp ((names_insert name node).mem_iff.mp member) with same | inside
    · exact different same.symm
    · exact unused inside
  induction forest with
  | nil => exact front _ fresh distinct
  | leaf other value rest ih =>
    obtain ⟨different, unused⟩ := not_or.mp (List.mem_cons.not.mp fresh)
    rw [insert]
    split
    · exact front _ fresh distinct
    · exact ⟨keep different distinct.1, ih unused distinct.2⟩
  | branch other value children rest _ ih =>
    obtain ⟨different, unused⟩ := not_or.mp (List.mem_cons.not.mp fresh)
    rw [insert]
    split
    · exact front _ fresh distinct
    · exact ⟨keep different distinct.1, distinct.2.1, ih unused distinct.2.2⟩

theorem names_inOrder : (forest.inOrder le).names.Perm forest.names := by
  induction forest with
  | nil => exact .refl _
  | leaf name value rest ih => exact (names_insert _ _).trans (ih.cons _)
  | branch name value children rest _ ih => exact (names_insert _ _).trans (ih.cons _)

theorem distinct_inOrder (distinct : forest.Distinct) : (forest.inOrder le).Distinct := by
  induction forest with
  | nil => trivial
  | leaf name value rest ih =>
    exact distinct_insert (names_inOrder.mem_iff.not.mpr distinct.1) trivial (ih distinct.2)
  | branch name value children rest ihChildren ih =>
    exact distinct_insert (names_inOrder.mem_iff.not.mpr distinct.1) (ihChildren distinct.2.1)
      (ih distinct.2.2)

theorem allNamed_insert {name : κ}
    (own : ∀ rest : Forest κ β α, rest.AllNamed kind → (cons name node rest).AllNamed kind)
    (named : forest.AllNamed kind) : (forest.insert le name node).AllNamed kind := by
  induction forest with
  | nil => exact own _ named
  | leaf other value rest ih =>
    rw [insert]
    split
    · exact own _ named
    · exact ⟨named.1, ih named.2⟩
  | branch other value children rest _ ih =>
    rw [insert]
    split
    · exact own _ named
    · exact ⟨named.1, named.2.1, ih named.2.2⟩

theorem allNamed_inOrder (named : forest.AllNamed kind) : (forest.inOrder le).AllNamed kind := by
  induction forest with
  | nil => trivial
  | leaf name value rest ih =>
    exact allNamed_insert (fun _ others => ⟨named.1, others⟩) (ih named.2)
  | branch name value children rest ihChildren ih =>
    exact allNamed_insert (fun _ others => ⟨named.1, ihChildren named.2.1, others⟩) (ih named.2.2)

end Sorting

end Forest

section Building

variable [DecidableEq κ] (isBranch : ν → Bool)

/-- Makes a node where there is none, inside a branch that is there. -/
def create (nodes : List κ → Option ν) (entry : List κ × ν) : Option (List κ → Option ν) :=
  if (nodes entry.1.dropLast).any isBranch && (nodes entry.1).isNone then
    some (Function.update nodes entry.1 (some entry.2))
  else none

def build (nodes : List κ → Option ν) (entries : List (List κ × ν)) :
    Option (List κ → Option ν) :=
  entries.foldlM (create isBranch) nodes

variable {isBranch} {entries : List (List κ × ν)}

/-- Nodes at different, unused places, each behind the branch it goes into, can all be made,
and nothing else appears. -/
theorem build_some (top : (nodes place).any isBranch = true)
    (parents : ∀ before entry after, entries = before ++ entry :: after →
      entry.1.dropLast = place ∨
        ∃ parent ∈ before, parent.1 = entry.1.dropLast ∧ isBranch parent.2 = true)
    (distinct : (entries.map Prod.fst).Nodup) (unused : ∀ entry ∈ entries, nodes entry.1 = none) :
    ∃ built, build isBranch nodes entries = some built ∧
      ∀ place node, built place = some node ↔ (place, node) ∈ entries ∨
        nodes place = some node := by
  induction entries using List.reverseRecOn with
  | nil => exact ⟨nodes, rfl, by simp⟩
  | append_singleton entries last ih =>
    rw [List.map_append, List.nodup_append] at distinct
    obtain ⟨distinct, -, apart⟩ := distinct
    obtain ⟨built, made, holds⟩ := ih
      (fun before entry after split => parents before entry (after ++ [last]) (by simp [split]))
      distinct (fun entry member => unused entry (List.mem_append_left _ member))
    have inside : (built last.1.dropLast).any isBranch = true := by
      rcases parents entries last [] rfl with same | ⟨parent, member, same, branch⟩
      · obtain ⟨node, found, branch⟩ := Option.any_eq_true _ _ |>.mp top
        rw [same, (holds place node).mpr (.inr found)]
        exact branch
      · rw [← same, (holds parent.1 parent.2).mpr (.inl member)]
        exact branch
    have absent : built last.1 = none := by
      rw [Option.eq_none_iff_forall_ne_some]
      intro node present
      rcases (holds last.1 node).mp present with member | old
      · exact apart last.1 (List.mem_map.mpr ⟨_, member, rfl⟩) last.1 (by simp) rfl
      · rw [unused last (by simp)] at old
        cases old
    refine ⟨Function.update built last.1 (some last.2), ?_, fun place node => ?_⟩
    · rw [build, List.foldlM_append]
      have step : create isBranch built last =
          some (Function.update built last.1 (some last.2)) := by
        simp [create, inside, absent]
      rw [build] at made
      rw [made]
      exact (bind_pure _).trans step
    · by_cases same : place = last.1
      · subst same
        rw [Function.update_self]
        constructor
        · intro made
          exact .inl (by simp [← Option.some.inj made])
        · rintro (member | old)
          · rcases mem_concat.mp member with earlier | latest
            · exact absurd (List.mem_map.mpr ⟨_, earlier, rfl⟩)
                fun present => apart last.1 present last.1 (by simp) rfl
            · rw [← latest]
          · rw [unused last (by simp)] at old
            cases old
      · rw [Function.update_of_ne same, holds]
        simp only [List.mem_append, List.mem_singleton]
        have other : (place, node) ≠ last := fun alike => same (congrArg Prod.fst alike)
        simp [other]

end Building

end Kakoi
