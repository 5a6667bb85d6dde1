import Mathlib.Algebra.GroupWithZero.Nat
import Mathlib.Data.Finset.Card
import QueryTree.Proofs.Client.Namespace
import QueryTree.Route.Naming

/-!
# Namespaces as a search in the routes

A set of namespaces is built by putting one route after the other into sorted maps of sorted maps. What
is found in it, and what is reported where nothing is found, is what a search for the first route of the
namespace and the name gives (`FirstMatch`). The set holds nothing else: its operations are the pairs of
a namespace and a name that occur among the routes, each once (`nodup_bindings`, `mem_bindings`).
-/

namespace QueryTree

/-- The namespace that a route is put into when sets are built. A route with a table that does not say
which would be put where its path below the base tells. -/
def Namespace.groupOf (base : String) (d : Descriptor) : String :=
  if d.isUniversal then system
  else (d.table.orElse fun _ => Naming.tableOfPath? d.path base).getD system

/-- A route with a table says which, so the base is of no account. -/
theorem Namespace.groupOf_eq (base : String) : groupOf base = nameOf := by
  funext d
  rw [groupOf, nameOf, Descriptor.isUniversal]
  cases d.table <;> rfl

theorem Operation.exists_mem_ofDescriptors {ds : List Descriptor} {name : String} :
    (∃ o ∈ ofDescriptors ds, o.name = name) ↔ ∃ d ∈ ds, d.operation = name := by
  have h : ((ofDescriptors ds).find? fun o => o.name = name).isSome =
      (ds.find? fun d => d.operation = name).isSome := by
    rw [find?_ofDescriptors, Option.isSome_map]
  rw [Bool.eq_iff_iff, List.find?_isSome, List.find?_isSome] at h
  simpa only [decide_eq_true_eq] using h

namespace NamespaceSet

/-- The set of namespaces of routes below a base. -/
def build (base : String) (routes : List Descriptor) : NamespaceSet :=
  ⟨routes.foldl (fun ns d => Namespace.insert (Namespace.groupOf base d) (.ofDescriptor d) ns) []⟩

theorem build_eq (base : String) (routes : List Descriptor) :
    build base routes = ofDescriptors routes := by
  rw [build, Namespace.groupOf_eq, ofDescriptors]

variable {ds : List Descriptor} {d : Descriptor} {op : Operation} {space name : String}

/-! ### What is found -/

theorem first?_eq_some_iff :
    first? space name ds = some d ↔
      (Namespace.nameOf d = space ∧ d.operation = name) ∧ ∃ before after, ds = before ++ d :: after ∧
        ∀ d' ∈ before, ¬ (Namespace.nameOf d' = space ∧ d'.operation = name) := by
  rw [first?, List.find?_eq_some_iff_append]
  simp only [decide_eq_true_eq, Bool.not_eq_true', decide_eq_false_iff_not]

theorem first?_eq_none_iff :
    first? space name ds = none ↔ ∀ d ∈ ds, Namespace.nameOf d = space → d.operation ≠ name := by
  rw [first?, List.find?_eq_none]
  simp only [decide_eq_true_eq, not_and, ne_eq]

theorem mem_belonging : d ∈ belonging space ds ↔ d ∈ ds ∧ Namespace.nameOf d = space := by
  rw [belonging, List.mem_filter, decide_eq_true_eq]

theorem belonging_eq_nil_iff :
    belonging space ds = [] ↔ ∀ d ∈ ds, Namespace.nameOf d ≠ space := by
  rw [belonging, List.filter_eq_nil_iff]
  simp only [decide_eq_true_eq, ne_eq]

theorem belonging_ne_nil_iff :
    belonging space ds ≠ [] ↔ ∃ d ∈ ds, Namespace.nameOf d = space := by
  rw [Ne, belonging_eq_nil_iff]
  push Not
  rfl

theorem operation_eq_ok_iff :
    (ofDescriptors ds).operation space name = .ok op ↔
      ∃ d, first? space name ds = some d ∧ op = .ofDescriptor d := by
  rw [operation_ofDescriptors]
  cases first? space name ds with
  | none => exact ⟨nofun, nofun⟩
  | some d =>
    constructor
    · rintro ⟨⟩
      exact ⟨d, rfl, rfl⟩
    · rintro ⟨d', ⟨⟩, rfl⟩
      rfl

/-- A search that fails tells whether there was anything of the namespace. -/
theorem operation_eq_error_iff {fault : DiscoveryFault} :
    (ofDescriptors ds).operation space name = .error fault ↔
      first? space name ds = none ∧
        fault = if belonging space ds = [] then .namespaceNotFound space
          else .operationNotFound space name := by
  rw [operation_ofDescriptors]
  cases first? space name ds with
  | none => rw [Except.error.injEq, eq_comm, and_iff_right rfl]
  | some d => exact ⟨nofun, nofun⟩

theorem operation_eq_namespaceNotFound_iff :
    (ofDescriptors ds).operation space name = .error (.namespaceNotFound space) ↔
      ∀ d ∈ ds, Namespace.nameOf d ≠ space := by
  rw [operation_eq_error_iff, first?_eq_none_iff, ← belonging_eq_nil_iff]
  constructor
  · rintro ⟨-, hfault⟩
    by_contra hne
    rw [if_neg hne] at hfault
    cases hfault
  · intro hnil
    rw [if_pos hnil]
    exact ⟨fun d hd hspace => absurd hspace (belonging_eq_nil_iff.1 hnil d hd), rfl⟩

theorem operation_eq_operationNotFound_iff :
    (ofDescriptors ds).operation space name = .error (.operationNotFound space name) ↔
      (∃ d ∈ ds, Namespace.nameOf d = space) ∧
        ∀ d ∈ ds, Namespace.nameOf d = space → d.operation ≠ name := by
  rw [operation_eq_error_iff, first?_eq_none_iff, ← belonging_ne_nil_iff, and_comm]
  refine and_congr_left fun _ => ⟨fun hfault hnil => ?_, fun hne => by rw [if_neg hne]⟩
  rw [if_pos hnil] at hfault
  cases hfault

/-! ### What there is -/

theorem mem_names : space ∈ (ofDescriptors ds).names ↔ ∃ d ∈ ds, Namespace.nameOf d = space := by
  rw [← belonging_ne_nil_iff, names, List.mem_map]
  constructor
  · rintro ⟨n, hn, rfl⟩
    exact (mem_ofDescriptors.1 hn).1
  · intro hne
    exact ⟨⟨space, Operation.ofDescriptors (belonging space ds)⟩, mem_ofDescriptors.2 ⟨hne, rfl⟩, rfl⟩

theorem sorted_names (ds : List Descriptor) : (ofDescriptors ds).names.Pairwise (· < ·) :=
  List.pairwise_map.2 (sorted_ofDescriptors ds)

/-- The operations of a set, each as its namespace and its name. -/
def bindings (s : NamespaceSet) : List (String × String) :=
  s.namespaces.flatMap fun n => n.operations.map fun o => (n.name, o.name)

theorem length_bindings (s : NamespaceSet) :
    s.bindings.length = (s.namespaces.map Namespace.size).sum := by
  rw [bindings, List.length_flatMap]
  simp only [List.length_map]
  rfl

theorem nodup_bindings (ds : List Descriptor) : (ofDescriptors ds).bindings.Nodup := by
  refine List.nodup_flatMap.2 ⟨fun n hn => ?_, (sorted_ofDescriptors ds).imp fun {m n} hlt => ?_⟩
  · rw [(mem_ofDescriptors.1 hn).2, List.Nodup, List.pairwise_map]
    refine (Operation.sorted_ofDescriptors _).imp fun {o p} hlt heq => ?_
    exact ne_of_key_lt (f := Operation.name) hlt (Prod.mk.inj heq).2
  · intro binding hm hn
    obtain ⟨o, -, rfl⟩ := List.mem_map.1 hm
    obtain ⟨p, -, heq⟩ := List.mem_map.1 hn
    exact ne_of_key_lt (f := Namespace.name) hlt (Prod.mk.inj heq).1.symm

theorem mem_bindings :
    (space, name) ∈ (ofDescriptors ds).bindings ↔
      ∃ d ∈ ds, Namespace.nameOf d = space ∧ d.operation = name := by
  have hbound : (space, name) ∈ (ofDescriptors ds).bindings ↔
      belonging space ds ≠ [] ∧ ∃ o ∈ Operation.ofDescriptors (belonging space ds), o.name = name := by
    rw [bindings, List.mem_flatMap]
    constructor
    · rintro ⟨n, hn, h⟩
      obtain ⟨o, ho, heq⟩ := List.mem_map.1 h
      obtain ⟨rfl, rfl⟩ := Prod.mk.inj heq
      obtain ⟨hne, hn⟩ := mem_ofDescriptors.1 hn
      exact ⟨hne, o, hn ▸ ho, rfl⟩
    · rintro ⟨hne, o, ho, rfl⟩
      exact ⟨⟨space, Operation.ofDescriptors (belonging space ds)⟩, mem_ofDescriptors.2 ⟨hne, rfl⟩,
        List.mem_map.2 ⟨o, ho, rfl⟩⟩
  rw [hbound, Operation.exists_mem_ofDescriptors]
  constructor
  · rintro ⟨-, d, hd, hname⟩
    obtain ⟨hd, hspace⟩ := mem_belonging.1 hd
    exact ⟨d, hd, hspace, hname⟩
  · rintro ⟨d, hd, hspace, hname⟩
    have hd := mem_belonging.2 ⟨hd, hspace⟩
    exact ⟨List.ne_nil_of_mem hd, d, hd, hname⟩

theorem sum_sizes (ds : List Descriptor) :
    ((ofDescriptors ds).namespaces.map Namespace.size).sum =
      (ds.map fun d => (Namespace.nameOf d, d.operation)).toFinset.card := by
  have hsame : (ofDescriptors ds).bindings.toFinset =
      (ds.map fun d => (Namespace.nameOf d, d.operation)).toFinset := by
    ext ⟨space, name⟩
    simp only [List.mem_toFinset, mem_bindings, List.mem_map, Prod.mk.injEq]
  rw [← length_bindings, ← hsame, List.toFinset_card_of_nodup (nodup_bindings ds)]

/-- What is found in the set is what a search in the routes finds. -/
structure FirstMatch (ds : List Descriptor) (s : NamespaceSet) : Prop where
  /-- The first route of the namespace and the name is found, with its method and its path. -/
  found : ∀ space name op, s.operation space name = .ok op ↔
    ∃ before d after, ds = before ++ d :: after ∧
      (Namespace.nameOf d = space ∧ d.operation = name) ∧
      (∀ d' ∈ before, ¬ (Namespace.nameOf d' = space ∧ d'.operation = name)) ∧
      op = ⟨name, d.method, d.path⟩
  noNamespace : ∀ space name, s.operation space name = .error (.namespaceNotFound space) ↔
    ∀ d ∈ ds, Namespace.nameOf d ≠ space
  noOperation : ∀ space name, s.operation space name = .error (.operationNotFound space name) ↔
    (∃ d ∈ ds, Namespace.nameOf d = space) ∧
      ∀ d ∈ ds, Namespace.nameOf d = space → d.operation ≠ name
  sorted : s.names.Pairwise (· < ·)
  mem_names : ∀ space, space ∈ s.names ↔ ∃ d ∈ ds, Namespace.nameOf d = space
  /-- The namespaces hold one operation for each pair of a namespace and a name that occurs. -/
  sizes : (s.namespaces.map Namespace.size).sum =
    (ds.map fun d => (Namespace.nameOf d, d.operation)).toFinset.card

/-- Whatever routes share a namespace or a name, and below every base, looking an operation up is
searching the routes from the front. -/
theorem firstMatch_build (base : String) (ds : List Descriptor) : FirstMatch ds (build base ds) := by
  rw [build_eq]
  refine ⟨fun space name op => ?_, fun _ _ => operation_eq_namespaceNotFound_iff,
    fun _ _ => operation_eq_operationNotFound_iff, sorted_names ds, fun _ => mem_names, sum_sizes ds⟩
  rw [operation_eq_ok_iff]
  constructor
  · rintro ⟨d, hfirst, rfl⟩
    obtain ⟨⟨hspace, rfl⟩, before, after, heq, hbefore⟩ := first?_eq_some_iff.1 hfirst
    exact ⟨before, d, after, heq, ⟨hspace, rfl⟩, hbefore, rfl⟩
  · rintro ⟨before, d, after, heq, ⟨hspace, rfl⟩, hbefore, rfl⟩
    exact ⟨d, first?_eq_some_iff.2 ⟨⟨hspace, rfl⟩, before, after, heq, hbefore⟩, rfl⟩

end NamespaceSet
end QueryTree
