import Kakoi.Plan.WrittenItems

/-! Items in the order they are mounted, in which the last item that covers a path is the deepest.
-/

namespace Kakoi

structure Ordered (items : List ResolvedItem) : Prop where
  distinct : (items.map ResolvedItem.place).Nodup
  sorted : items.Pairwise byRealPath
  real : ∀ item ∈ items, item.real.Canonical

instance : IsTrans ResolvedItem byRealPath :=
  ⟨fun _ _ _ lower upper => le_trans (α := List Nat) lower upper⟩

instance : Std.Total byRealPath := ⟨fun a b => le_total a.real.byteRank b.real.byteRank⟩

theorem mem_sortItems : item ∈ sortItems items ↔ item ∈ items :=
  (List.perm_insertionSort byRealPath items).mem_iff

theorem sortItems_ordered (distinct : (items.map ResolvedItem.place).Nodup)
    (real : ∀ item ∈ items, item.real.Canonical) : Ordered (sortItems items) where
  distinct := ((List.perm_insertionSort byRealPath items).map ResolvedItem.place).nodup_iff.mpr distinct
  sorted := List.pairwise_insertionSort byRealPath items
  real := fun item member => real item (mem_sortItems.mp member)

section Sorted

variable (ordered : Ordered items)

include ordered

theorem Ordered.filter (kept : ResolvedItem → Bool) :
    Ordered (items.filter kept) where
  distinct := (List.filter_sublist.map ResolvedItem.place).nodup ordered.distinct
  sorted := ordered.sorted.sublist List.filter_sublist
  real := fun item member => ordered.real item (List.mem_filter.mp member).1

theorem coveringItem_deepest (covering : coveringItem items path = some item) :
    item ∈ items ∧ path.startsWith item.real = true ∧
      ∀ other ∈ items, path.startsWith other.real = true → item.real.startsWith other.real = true := by
  obtain ⟨covers, later, earlier, split, passed⟩ := List.find?_eq_some_iff_append.mp covering
  have order : items = earlier.reverse ++ item :: later.reverse := by
    simpa using congrArg List.reverse split
  have present : item ∈ items := by simp [order]
  refine ⟨present, covers, ?_⟩
  intro other member covered
  rcases Path.startsWith_chain covered covers with nested | above
  · have before : other = item ∨ byRealPath other item := by
      rw [order, List.mem_append, List.mem_cons] at member
      rcases member with first | same | last
      · have sorted := ordered.sorted
        rw [order] at sorted
        exact .inr ((List.pairwise_append.mp sorted).2.2 other first item List.mem_cons_self)
      · exact .inl same
      · have apart := passed other (List.mem_reverse.mp last)
        simp [covered] at apart
    rcases before with rfl | lower
    · exact Path.startsWith_refl other.real
    · have upper := (ordered.real other member).byteLe_of_startsWith (ordered.real item present) nested
      rw [Path.byteLe_antisymm lower upper]
      exact Path.startsWith_refl item.real
  · exact above

end Sorted

end Kakoi
