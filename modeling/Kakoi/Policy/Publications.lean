import Kakoi.Base.Collecting
import Kakoi.Policy.Network

/-! Fixed publications put together: each endpoint is assigned once. -/

namespace Kakoi

/-- A port other than zero. -/
abbrev NonZeroPort := { port : UInt16 // port ≠ 0 }

/-- A fixed loopback publication. Both endpoints always have the same IP family. -/
structure FixedPublication where
  protocol : Protocol
  port : NonZeroPort
  hostPort : NonZeroPort
  family : IpFamily
  deriving DecidableEq

/-- One side of a publication. -/
abbrev Endpoint := Protocol × IpFamily × NonZeroPort

namespace FixedPublication

def target (entry : FixedPublication) : Endpoint := (entry.protocol, entry.family, entry.port)

def host (entry : FixedPublication) : Endpoint := (entry.protocol, entry.family, entry.hostPort)

end FixedPublication

/-- The names of the variants as they are printed for debugging. -/
def Protocol.debug : Protocol → String
  | .tcp => "Tcp"
  | .udp => "Udp"

def IpFamily.debug : IpFamily → String
  | .ipv4 => "Ipv4"
  | .ipv6 => "Ipv6"

def conflictingAssignment (entry : FixedPublication) : String :=
  "conflicting `network.publish` assignment: " ++ entry.protocol.debug ++ " " ++
    entry.family.debug ++ " port " ++ toString entry.port.val.toNat ++ " host-port " ++
    toString entry.hostPort.val.toNat

/-- What the loop keeps: the entries taken, and where the one with each endpoint is. -/
structure PublicationMerge where
  merged : List FixedPublication := []
  ports : List (Endpoint × Nat) := []
  hostPorts : List (Endpoint × Nat) := []

/-- One round of the loop. -/
def mergeEntry (state : PublicationMerge) (entry : FixedPublication) :
    Except String PublicationMerge :=
  if (state.ports.lookup entry.target).any fun index => state.merged[index]? = some entry then
    .ok state
  else if (state.ports.lookup entry.target).isSome || (state.hostPorts.lookup entry.host).isSome then
    .error (conflictingAssignment entry)
  else
    .ok
      { merged := state.merged ++ [entry]
        ports := (entry.target, state.merged.length) :: state.ports
        hostPorts := (entry.host, state.merged.length) :: state.hostPorts }

def mergePublications (entries : List FixedPublication) : Except String (List FixedPublication) :=
  (entries.foldlM mergeEntry {}).map PublicationMerge.merged

/-- An endpoint of the one is assigned by the other too. -/
def Conflicts (left right : FixedPublication) : Prop :=
  left.target = right.target ∨ left.host = right.host

instance : DecidableRel Conflicts := fun left right =>
  inferInstanceAs (Decidable (left.target = right.target ∨ left.host = right.host))

theorem Conflicts.symm {left right : FixedPublication} (conflict : Conflicts left right) :
    Conflicts right left := conflict.imp Eq.symm Eq.symm

section Indexed

/-- A table that says where the entry with a key is. -/
def Indexes (side : FixedPublication → Endpoint) (table : List (Endpoint × Nat))
    (merged : List FixedPublication) : Prop :=
  ∀ key index, table.lookup key = some index ↔
    ∃ entry, merged[index]? = some entry ∧ side entry = key

theorem Indexes.isSome_iff (indexes : Indexes side table merged) (key : Endpoint) :
    (table.lookup key).isSome = true ↔ ∃ entry ∈ merged, side entry = key := by
  rw [Option.isSome_iff_exists]
  constructor
  · rintro ⟨index, found⟩
    obtain ⟨entry, there, same⟩ := (indexes key index).mp found
    exact ⟨entry, List.mem_of_getElem? there, same⟩
  · rintro ⟨entry, member, same⟩
    obtain ⟨index, there⟩ := List.mem_iff_getElem?.mp member
    exact ⟨index, (indexes key index).mpr ⟨entry, there, same⟩⟩

theorem getElem?_concat_iff {entry other : FixedPublication} : (merged ++ [entry])[index]? = some other ↔
    merged[index]? = some other ∨ index = merged.length ∧ entry = other := by
  rw [List.getElem?_append]
  split
  next inside =>
    constructor
    · exact .inl
    · rintro (there | ⟨rfl, -⟩)
      · exact there
      · exact absurd inside (Nat.lt_irrefl _)
  next outside =>
    rw [List.getElem?_eq_none (Nat.not_lt.mp outside), List.getElem?_singleton]
    constructor
    · intro there
      split at there
      next last => exact .inr ⟨by omega, Option.some.inj there⟩
      · cases there
    · rintro (there | ⟨rfl, rfl⟩)
      · cases there
      · simp

theorem Indexes.push (indexes : Indexes side table merged) (entry : FixedPublication)
    (free : ∀ other ∈ merged, side other ≠ side entry) :
    Indexes side ((side entry, merged.length) :: table) (merged ++ [entry]) := by
  intro key index
  simp only [getElem?_concat_iff]
  rw [List.lookup_cons]
  by_cases same : key = side entry
  · subst same
    simp only [beq_self_eq_true, Option.some.injEq]
    constructor
    · rintro rfl
      exact ⟨entry, .inr ⟨rfl, rfl⟩, rfl⟩
    · rintro ⟨other, there | ⟨rfl, rfl⟩, alike⟩
      · exact absurd alike (free other (List.mem_of_getElem? there))
      · rfl
  · simp only [beq_eq_false_iff_ne.mpr same]
    rw [indexes key index]
    constructor
    · rintro ⟨other, there, alike⟩
      exact ⟨other, .inl there, alike⟩
    · rintro ⟨other, there | ⟨-, rfl⟩, alike⟩
      · exact ⟨other, there, alike⟩
      · exact absurd alike.symm same

/-- Both tables are right. -/
structure PublicationMerge.Indexed (state : PublicationMerge) : Prop where
  ports : Indexes FixedPublication.target state.ports state.merged
  hostPorts : Indexes FixedPublication.host state.hostPorts state.merged

variable {state : PublicationMerge}

theorem PublicationMerge.Indexed.present_iff (indexed : state.Indexed) (entry : FixedPublication) :
    ((state.ports.lookup entry.target).any fun index => state.merged[index]? = some entry) = true ↔
      entry ∈ state.merged := by
  simp only [Option.any_eq_true, decide_eq_true_eq]
  constructor
  · rintro ⟨index, -, there⟩
    exact List.mem_of_getElem? there
  · intro member
    obtain ⟨index, there⟩ := List.mem_iff_getElem?.mp member
    exact ⟨index, (indexed.ports _ _).mpr ⟨entry, there, rfl⟩, there⟩

theorem PublicationMerge.Indexed.taken_iff (indexed : state.Indexed) (entry : FixedPublication) :
    ((state.ports.lookup entry.target).isSome || (state.hostPorts.lookup entry.host).isSome) = true ↔
      ∃ other ∈ state.merged, Conflicts other entry := by
  rw [Bool.or_eq_true, indexed.ports.isSome_iff, indexed.hostPorts.isSome_iff]
  constructor
  · rintro (⟨other, member, same⟩ | ⟨other, member, same⟩)
    · exact ⟨other, member, .inl same⟩
    · exact ⟨other, member, .inr same⟩
  · rintro ⟨other, member, same | same⟩
    · exact .inl ⟨other, member, same⟩
    · exact .inr ⟨other, member, same⟩

/-- One round of the loop collects one entry and keeps the tables right. -/
theorem mergeEntry_collects (indexed : state.Indexed) (entry : FixedPublication) :
    (∃ next, mergeEntry state entry = .ok next ∧ next.Indexed ∧
        collectOne Conflicts conflictingAssignment state.merged entry = .ok next.merged) ∨
      ∃ failed, mergeEntry state entry = .error failed ∧
        collectOne Conflicts conflictingAssignment state.merged entry = .error failed := by
  have present := indexed.present_iff entry
  have taken := indexed.taken_iff entry
  unfold mergeEntry
  obtain ⟨member, kept⟩ | ⟨absent, conflict, refused⟩ | ⟨absent, apart, added⟩ :=
    collectOne_cases Conflicts conflictingAssignment state.merged entry
  · exact .inl ⟨state, if_pos (present.mpr member), indexed, kept⟩
  · refine .inr ⟨_, ?_, refused⟩
    rw [if_neg (mt present.mp absent), if_pos (taken.mpr conflict)]
  · refine .inl ⟨⟨state.merged ++ [entry], (entry.target, state.merged.length) :: state.ports,
      (entry.host, state.merged.length) :: state.hostPorts⟩, ?_, ?_, added⟩
    · rw [if_neg (mt present.mp absent), if_neg]
      rw [taken]
      rintro ⟨other, member, conflict⟩
      exact apart other member conflict
    · exact ⟨indexed.ports.push entry fun other member same => apart other member (.inl same),
        indexed.hostPorts.push entry fun other member same => apart other member (.inr same)⟩

theorem foldlM_mergeEntry (indexed : state.Indexed) (entries : List FixedPublication) :
    (entries.foldlM mergeEntry state).map PublicationMerge.merged =
      entries.foldlM (collectOne Conflicts conflictingAssignment) state.merged := by
  induction entries generalizing state with
  | nil => rfl
  | cons entry rest ih =>
    rw [List.foldlM_cons]
    obtain ⟨next, merged, kept, collected⟩ | ⟨failed, merged, collected⟩ :=
      mergeEntry_collects indexed entry
    · rw [foldlM_cons_ok collected, merged]
      exact ih kept
    · rw [foldlM_cons_error collected, merged]
      rfl

/-- The merge is the collecting of entries that do not conflict. -/
theorem mergePublications_eq (entries : List FixedPublication) :
    mergePublications entries = collect Conflicts conflictingAssignment entries := by
  refine foldlM_mergeEntry ⟨?_, ?_⟩ entries
  · intro key index
    simp
  · intro key index
    simp

end Indexed

/-- Publications are refused exactly when two different ones share an endpoint; otherwise each stays
where it first stands, and merging again changes nothing. -/
theorem publications_merge (entries : List FixedPublication) :
    ((∃ failed, mergePublications entries = .error failed) ↔
        ∃ left ∈ entries, ∃ right ∈ entries, left ≠ right ∧
          (left.target = right.target ∨ left.host = right.host)) ∧
      (∀ merged, mergePublications entries = .ok merged →
        merged = entries.eraseDups ∧ mergePublications merged = .ok merged) ∧
      ∀ others merged othersMerged, mergePublications entries = .ok merged →
        mergePublications others = .ok othersMerged →
        mergePublications (entries ++ others) = mergePublications (merged ++ othersMerged) := by
  have symmetric : ∀ left right, Conflicts left right → Conflicts right left :=
    fun _ _ conflict => conflict.symm
  simp only [mergePublications_eq]
  refine ⟨?_, ?_, ?_⟩
  · constructor
    · rintro ⟨failed, refused⟩
      by_contra none
      have clashless : Clashless Conflicts entries := fun left leftMember right rightMember
        different conflict => none ⟨left, leftMember, right, rightMember, different, conflict⟩
      rw [(collect_eq_ok symmetric).mpr ⟨clashless, rfl⟩] at refused
      cases refused
    · rintro ⟨left, leftMember, right, rightMember, different, conflict⟩
      cases collected : collect Conflicts conflictingAssignment entries with
      | error failed => exact ⟨failed, rfl⟩
      | ok merged =>
        have clashless := ((collect_eq_ok symmetric).mp collected).1
        exact absurd conflict (clashless left leftMember right rightMember different)
  · intro merged collected
    exact ⟨((collect_eq_ok symmetric).mp collected).2, collect_collected symmetric collected⟩
  · intro others merged othersMerged first second
    exact collect_append symmetric first second

def webPublication : FixedPublication := ⟨.tcp, ⟨80, by decide⟩, ⟨8080, by decide⟩, .ipv4⟩

theorem web_publications_merge :
    mergePublications [webPublication, webPublication] = .ok [webPublication] ∧
      mergePublications [webPublication] = .ok [webPublication] := by
  have merged : mergePublications [webPublication, webPublication] = .ok [webPublication] := by
    decide +kernel
  exact ⟨merged, ((publications_merge _).2.1 _ merged).2⟩

end Kakoi
