import Mathlib.Data.List.Induction
import QueryTree.Client.Namespace

/-!
# Looking operations up

Namespaces and their operations are kept sorted by name, so an insertion decides what is found under
one name and leaves the others alone. What a set made of descriptors finds is the first descriptor of
the namespace and the name (`NamespaceSet.operation_ofDescriptors`).
-/

namespace QueryTree

section Sorted
variable {α : Type} {f : α → String} {a : α} {l : List α} {key : String}

theorem lt_of_ne_of_not_lt {a b : String} (hne : a ≠ b) (h : ¬ a < b) : b < a :=
  Std.lt_of_le_of_ne (String.not_lt.1 h) hne.symm

theorem lt_of_lt_head (h : (a :: l).Pairwise fun b c => f b < f c) (hlt : key < f a) :
    ∀ b ∈ a :: l, key < f b := by
  intro b hb
  rcases List.mem_cons.1 hb with rfl | hb
  · exact hlt
  · exact String.lt_trans hlt ((List.pairwise_cons.1 h).1 b hb)

theorem ne_of_key_lt {b : α} (h : f a < f b) : f a ≠ f b := fun heq => String.lt_irrefl _ (heq ▸ h)

theorem find?_eq_none_of_lt (h : ∀ b ∈ l, key < f b) : l.find? (fun b => f b = key) = none := by
  refine List.find?_eq_none.2 fun b hb => ?_
  rw [decide_eq_true_eq]
  exact fun heq => String.lt_irrefl _ (heq ▸ h b hb)

theorem find?_eq_some_iff_of_sorted (h : l.Pairwise fun b c => f b < f c) :
    l.find? (fun b => f b = key) = some a ↔ a ∈ l ∧ f a = key := by
  constructor
  · intro hfind
    exact ⟨List.mem_of_find?_eq_some hfind, by simpa using List.find?_some hfind⟩
  · rintro ⟨ha, rfl⟩
    obtain ⟨before, after, rfl⟩ := List.append_of_mem ha
    have hbefore := (List.pairwise_append.1 h).2.2
    refine List.find?_eq_some_iff_append.2 ⟨decide_eq_true rfl, before, after, rfl, fun b hb => ?_⟩
    have hne := ne_of_key_lt (hbefore b hb a List.mem_cons_self)
    simpa using hne

theorem eq_of_sorted {l' : List α} (h : l.Pairwise fun b c => f b < f c)
    (h' : l'.Pairwise fun b c => f b < f c) (hmem : ∀ a, a ∈ l ↔ a ∈ l') : l = l' := by
  have hne : ∀ {b c : α}, f b < f c → b ≠ c := fun hlt heq => ne_of_key_lt hlt (congrArg f heq)
  have hperm : l.Perm l' := (List.perm_ext_iff_of_nodup (h.imp hne) (h'.imp hne)).2 hmem
  refine hperm.eq_of_pairwise (fun b c _ _ hbc hcb => ?_) h h'
  exact absurd (String.lt_trans hbc hcb) (String.lt_irrefl _)

end Sorted

namespace Operation
variable {o : Operation} {os : List Operation} {name : String}

def Sorted (os : List Operation) : Prop := os.Pairwise fun p q => p.name < q.name

theorem mem_insert {p : Operation} (h : p ∈ insert o os) : p = o ∨ p ∈ os := by
  induction os with
  | nil => exact .inl (List.mem_singleton.1 h)
  | cons q os ih =>
    rw [insert] at h
    split at h
    · exact .inr h
    split at h
    · exact List.mem_cons.1 h
    · rcases List.mem_cons.1 h with rfl | h
      · exact .inr List.mem_cons_self
      · exact (ih h).imp_right (List.mem_cons_of_mem q)

theorem sorted_insert (h : Sorted os) : Sorted (insert o os) := by
  induction os with
  | nil => exact List.pairwise_singleton _ _
  | cons q os ih =>
    rw [insert]
    split
    · exact h
    · next hne =>
      split
      · next hlt => exact List.pairwise_cons.2 ⟨lt_of_lt_head h hlt, h⟩
      · next hlt =>
        obtain ⟨hq, hos⟩ := List.pairwise_cons.1 h
        refine List.pairwise_cons.2 ⟨fun p hp => ?_, ih hos⟩
        rcases mem_insert hp with rfl | hp
        · exact lt_of_ne_of_not_lt hne hlt
        · exact hq p hp

/-- An operation is found under its name unless there was one, and the other names keep theirs. -/
theorem find?_insert (h : Sorted os) (name : String) :
    (insert o os).find? (fun p => p.name = name) =
      (os.find? fun p => p.name = name).or (if o.name = name then some o else none) := by
  induction os with
  | nil => simp [insert, List.find?_singleton]
  | cons q os ih =>
    rw [insert]
    split
    · next heq =>
      by_cases hname : q.name = name
      · simp [hname]
      · simp [heq, hname]
    split
    · next hne hlt =>
      by_cases hname : o.name = name
      · have hnone := find?_eq_none_of_lt (lt_of_lt_head h (hname ▸ hlt))
        simp [hnone, hname]
      · simp [hname]
    · by_cases hname : q.name = name
      · simp [hname]
      · simp [hname, ih (List.pairwise_cons.1 h).2]

/-- The operations of descriptors, put in one after the other. -/
def ofDescriptors (ds : List Descriptor) : List Operation :=
  ds.foldl (fun os d => insert (ofDescriptor d) os) []

theorem ofDescriptors_append_singleton (ds : List Descriptor) (d : Descriptor) :
    ofDescriptors (ds ++ [d]) = insert (ofDescriptor d) (ofDescriptors ds) := by
  rw [ofDescriptors, List.foldl_append]
  rfl

theorem sorted_ofDescriptors (ds : List Descriptor) : Sorted (ofDescriptors ds) := by
  induction ds using List.reverseRecOn with
  | nil => exact List.Pairwise.nil
  | append_singleton ds d ih =>
    rw [ofDescriptors_append_singleton]
    exact sorted_insert ih

theorem find?_ofDescriptors (ds : List Descriptor) (name : String) :
    (ofDescriptors ds).find? (fun p => p.name = name) =
      (ds.find? fun d => d.operation = name).map ofDescriptor := by
  induction ds using List.reverseRecOn with
  | nil => rfl
  | append_singleton ds d ih =>
    rw [ofDescriptors_append_singleton, find?_insert (sorted_ofDescriptors ds), ih,
      List.find?_append, Option.map_or, List.find?_singleton]
    congr 1
    by_cases hname : d.operation = name
    · simp [ofDescriptor, hname]
    · simp [ofDescriptor, hname]

theorem mem_ofDescriptors {ds : List Descriptor} :
    o ∈ ofDescriptors ds ↔ (ds.find? fun d => d.operation = o.name).map ofDescriptor = some o := by
  rw [← find?_ofDescriptors, find?_eq_some_iff_of_sorted (sorted_ofDescriptors ds)]
  exact ⟨fun h => ⟨h, rfl⟩, And.left⟩

end Operation

namespace Namespace
variable {o : Operation} {ns : List Namespace} {name : String}

def Sorted (ns : List Namespace) : Prop := ns.Pairwise fun m n => m.name < n.name

theorem name_of_mem_insert {n : Namespace} (h : n ∈ insert name o ns) :
    n.name = name ∨ ∃ m ∈ ns, m.name = n.name := by
  induction ns with
  | nil => exact .inl (List.mem_singleton.1 h ▸ rfl)
  | cons m ns ih =>
    rw [insert] at h
    split at h
    · next heq =>
      rcases List.mem_cons.1 h with rfl | h
      · exact .inl heq.symm
      · exact .inr ⟨n, List.mem_cons_of_mem m h, rfl⟩
    split at h
    · rcases List.mem_cons.1 h with rfl | h
      · exact .inl rfl
      · exact .inr ⟨n, h, rfl⟩
    · rcases List.mem_cons.1 h with rfl | h
      · exact .inr ⟨n, List.mem_cons_self, rfl⟩
      · exact (ih h).imp_right fun ⟨k, hk, heq⟩ => ⟨k, List.mem_cons_of_mem m hk, heq⟩

theorem sorted_insert (h : Sorted ns) : Sorted (insert name o ns) := by
  induction ns with
  | nil => exact List.pairwise_singleton _ _
  | cons m ns ih =>
    obtain ⟨hm, hns⟩ := List.pairwise_cons.1 h
    rw [insert]
    split
    · exact List.pairwise_cons.2 ⟨hm, hns⟩
    · next hne =>
      split
      · next hlt => exact List.pairwise_cons.2 ⟨lt_of_lt_head h hlt, h⟩
      · next hlt =>
        refine List.pairwise_cons.2 ⟨fun n hn => ?_, ih hns⟩
        rcases name_of_mem_insert hn with heq | ⟨k, hk, heq⟩
        · exact heq ▸ lt_of_ne_of_not_lt hne hlt
        · exact heq ▸ hm k hk

/-- The operations of the namespace of a name, if there is one. -/
def operationsOf (name : String) (ns : List Namespace) : List Operation :=
  ((ns.find? fun n => n.name = name).map Namespace.operations).getD []

/-- Under its name an insertion finds the operations from before with the new one, under other names
what was there. -/
theorem find?_insert (h : Sorted ns) (space : String) :
    (insert name o ns).find? (fun n => n.name = space) =
      if name = space then some ⟨name, Operation.insert o (operationsOf name ns)⟩
      else ns.find? fun n => n.name = space := by
  induction ns with
  | nil => simp [insert, operationsOf, Operation.insert, List.find?_singleton]
  | cons m ns ih =>
    rw [insert]
    split
    · next heq =>
      by_cases hspace : m.name = space
      · simp [operationsOf, heq, hspace]
      · simp [heq, hspace]
    split
    · next hne hlt =>
      by_cases hspace : name = space
      · have hnone := find?_eq_none_of_lt (lt_of_lt_head h hlt)
        simp [hspace ▸ hnone, hspace, operationsOf, Operation.insert]
      · simp [hspace]
    · next hne hlt =>
      by_cases hspace : m.name = space
      · simp [hspace, hspace ▸ hne]
      · simp only [List.find?_cons, hspace, decide_false, ih (List.pairwise_cons.1 h).2]
        by_cases hname : name = space
        · simp [operationsOf, hname, hspace]
        · simp [hname]

end Namespace

namespace NamespaceSet
variable {ds : List Descriptor} {space name : String}

theorem ofDescriptors_append_singleton (ds : List Descriptor) (d : Descriptor) :
    (ofDescriptors (ds ++ [d])).namespaces =
      Namespace.insert (Namespace.nameOf d) (.ofDescriptor d) (ofDescriptors ds).namespaces := by
  rw [ofDescriptors, List.foldl_append]
  rfl

theorem sorted_ofDescriptors (ds : List Descriptor) :
    Namespace.Sorted (ofDescriptors ds).namespaces := by
  induction ds using List.reverseRecOn with
  | nil => exact List.Pairwise.nil
  | append_singleton ds d ih =>
    rw [ofDescriptors_append_singleton]
    exact Namespace.sorted_insert ih

theorem nodup_names (ds : List Descriptor) : (ofDescriptors ds).names.Nodup :=
  List.pairwise_map.2 ((sorted_ofDescriptors ds).imp ne_of_key_lt)

/-- The descriptors that belong to a namespace. -/
def belonging (space : String) (ds : List Descriptor) : List Descriptor :=
  ds.filter fun d => Namespace.nameOf d = space

theorem find?_ofDescriptors (ds : List Descriptor) (space : String) :
    (ofDescriptors ds).namespaces.find? (fun n => n.name = space) =
      if belonging space ds = [] then none
      else some ⟨space, Operation.ofDescriptors (belonging space ds)⟩ := by
  induction ds using List.reverseRecOn with
  | nil => rfl
  | append_singleton ds d ih =>
    rw [ofDescriptors_append_singleton, Namespace.find?_insert (sorted_ofDescriptors ds)]
    by_cases hspace : Namespace.nameOf d = space
    · have hbelonging : belonging space (ds ++ [d]) = belonging space ds ++ [d] := by
        simp [belonging, hspace]
      have hbefore : Namespace.operationsOf space (ofDescriptors ds).namespaces =
          Operation.ofDescriptors (belonging space ds) := by
        rw [Namespace.operationsOf, ih]
        split
        · next hnil => rw [hnil]; rfl
        · rfl
      rw [if_pos hspace, hspace, hbefore, hbelonging, if_neg (by simp),
        Operation.ofDescriptors_append_singleton]
    · have hbelonging : belonging space (ds ++ [d]) = belonging space ds := by
        simp [belonging, hspace]
      rw [if_neg hspace, ih, hbelonging]

theorem mem_ofDescriptors {n : Namespace} :
    n ∈ (ofDescriptors ds).namespaces ↔
      belonging n.name ds ≠ [] ∧ n = ⟨n.name, Operation.ofDescriptors (belonging n.name ds)⟩ := by
  have hmem : n ∈ (ofDescriptors ds).namespaces ↔
      (ofDescriptors ds).namespaces.find? (fun m => m.name = n.name) = some n := by
    rw [find?_eq_some_iff_of_sorted (sorted_ofDescriptors ds)]
    exact ⟨fun h => ⟨h, rfl⟩, And.left⟩
  rw [hmem, find?_ofDescriptors]
  split
  · next hnil => simp [hnil]
  · next hne => simp [hne, eq_comm]

/-- The first descriptor of a name in a namespace. -/
def first? (space name : String) (ds : List Descriptor) : Option Descriptor :=
  ds.find? fun d => Namespace.nameOf d = space ∧ d.operation = name

theorem exists_first? {d : Descriptor} (h : d ∈ ds) :
    ∃ first, first? (Namespace.nameOf d) d.operation ds = some first :=
  Option.isSome_iff_exists.1 (List.find?_isSome.2 ⟨d, h, by simp⟩)

theorem of_first? {first : Descriptor} (h : first? space name ds = some first) :
    first ∈ ds ∧ Namespace.nameOf first = space ∧ first.operation = name :=
  ⟨List.mem_of_find?_eq_some h, by simpa using List.find?_some h⟩

theorem operation_ofDescriptors (ds : List Descriptor) (space name : String) :
    (ofDescriptors ds).operation space name =
      match first? space name ds with
      | some d => .ok (.ofDescriptor d)
      | none => .error (if belonging space ds = [] then .namespaceNotFound space
          else .operationNotFound space name) := by
  have hfirst : first? space name ds = (belonging space ds).find? fun d => d.operation = name := by
    rw [first?, belonging, List.find?_filter]
    simp only [Bool.decide_and, Bool.decide_eq_true]
  rw [operation, get, find?_ofDescriptors, hfirst]
  by_cases hnil : belonging space ds = []
  · simp only [hnil, if_true, List.find?_nil]
    rfl
  · simp only [hnil, if_false]
    show Namespace.operation _ name = _
    rw [Namespace.operation, Operation.find?_ofDescriptors]
    cases (belonging space ds).find? fun d => d.operation = name <;> rfl

end NamespaceSet
end QueryTree
