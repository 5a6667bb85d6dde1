import QueryTree.Keyed
import QueryTree.Proofs.Distinct

/-!
# Keys of ordered maps

An ordered map is a list without repeated keys: putting keeps the keys distinct, and writing distinct
pairs one after the other, in either way, only appends them. A map that is put into another adds its new
keys at the end and gives all of its values (`keys_foldl_put`, `get?_foldl_put`). Of the pairs that a map is made from, the
last one with a key gives the value (`get?_ofList`) and the first one the place (`keys_ofList`,
`pairwise_keys_ofList`).
-/

namespace QueryTree.Keyed

variable {κ α : Type}

/-- The keys of a map, in order. -/
def keys (m : List (κ × α)) : List κ := m.map Prod.fst

@[simp] theorem keys_nil : keys ([] : List (κ × α)) = [] := rfl

@[simp] theorem keys_cons (p : κ × α) (m : List (κ × α)) : keys (p :: m) = p.1 :: keys m := rfl

@[simp] theorem keys_append (m l : List (κ × α)) : keys (m ++ l) = keys m ++ keys l :=
  List.map_append

variable {key : κ} {value : α} {m l : List (κ × α)}

theorem not_mem_keys_of_nodup {p : κ × α} (h : (keys (m ++ p :: l)).Nodup) : p.1 ∉ keys m := by
  rw [keys_append, keys_cons] at h
  intro hm
  exact (List.nodup_append.1 h).2.2 p.1 hm p.1 List.mem_cons_self rfl

/-- A way of writing pairs that appends every new key, used on new keys only, appends them all. -/
theorem foldl_eq_append {write : κ → α → List (κ × α) → List (κ × α)}
    (hw : ∀ {key value m}, key ∉ keys m → write key value m = m ++ [(key, value)])
    (h : (keys (m ++ l)).Nodup) :
    l.foldl (fun m p => write p.1 p.2 m) m = m ++ l := by
  induction l generalizing m with
  | nil => rw [List.foldl_nil, List.append_nil]
  | cons p l ih =>
    have hl : (keys ((m ++ [p]) ++ l)).Nodup := by
      rwa [List.append_assoc, List.singleton_append]
    rw [List.foldl_cons, hw (not_mem_keys_of_nodup h), ih hl, List.append_assoc,
      List.singleton_append]

variable [DecidableEq κ]

theorem put_of_not_mem (h : key ∉ keys m) : put key value m = m ++ [(key, value)] := by
  induction m with
  | nil => rfl
  | cons p m ih =>
    obtain ⟨k, v⟩ := p
    simp only [keys_cons, List.mem_cons, not_or] at h
    rw [put, if_neg (Ne.symm h.1), ih h.2, List.cons_append]

theorem keys_put_of_mem (h : key ∈ keys m) : keys (put key value m) = keys m := by
  induction m with
  | nil => cases h
  | cons p m ih =>
    obtain ⟨k, v⟩ := p
    rw [put]
    split
    · rfl
    · next hne =>
      rcases List.mem_cons.1 h with heq | h
      · exact absurd heq.symm hne
      · rw [keys_cons, keys_cons, ih h]

theorem mem_keys_put {key' : κ} : key' ∈ keys (put key value m) ↔ key' = key ∨ key' ∈ keys m := by
  by_cases hk : key ∈ keys m
  · rw [keys_put_of_mem hk]
    constructor
    · exact .inr
    · rintro (rfl | h)
      · exact hk
      · exact h
  · rw [put_of_not_mem hk, keys_append, List.mem_append, or_comm]
    exact or_congr_left List.mem_singleton

theorem nodup_keys_put (h : (keys m).Nodup) : (keys (put key value m)).Nodup := by
  by_cases hk : key ∈ keys m
  · rwa [keys_put_of_mem hk]
  · rw [put_of_not_mem hk, keys_append]
    refine List.nodup_append.2 ⟨h, by simp [keys], fun a ha b hb => ?_⟩
    rw [List.mem_singleton.1 hb]
    rintro rfl
    exact hk ha

theorem get?_eq_none (h : key ∉ keys m) : get? key m = none := by
  induction m with
  | nil => rfl
  | cons p m ih =>
    obtain ⟨k, v⟩ := p
    simp only [keys_cons, List.mem_cons, not_or] at h
    rw [get?, if_neg (Ne.symm h.1), ih h.2]

theorem get?_of_mem (h : key ∈ keys m) : ∃ value, get? key m = some value := by
  induction m with
  | nil => cases h
  | cons p m ih =>
    obtain ⟨k, v⟩ := p
    rw [get?]
    split
    · exact ⟨v, rfl⟩
    · next hne =>
      rcases List.mem_cons.1 h with heq | h
      · exact absurd heq.symm hne
      · exact ih h

theorem mem_keys_of_get? (h : get? key m = some value) : key ∈ keys m := by
  by_cases hk : key ∈ keys m
  · exact hk
  · rw [get?_eq_none hk] at h
    cases h

/-- In a map with distinct keys, the value of a key is the one it stands with. -/
theorem get?_eq_some_iff (h : (keys m).Nodup) : get? key m = some value ↔ (key, value) ∈ m := by
  induction m with
  | nil => simp [get?]
  | cons p m ih =>
    obtain ⟨k, v⟩ := p
    obtain ⟨hk, hm⟩ := List.nodup_cons.1 h
    rw [get?]
    split
    · next heq =>
      subst heq
      constructor
      · rintro ⟨⟩
        exact List.mem_cons_self
      · intro hmem
        rcases List.mem_cons.1 hmem with heq | hmem
        · cases heq; rfl
        · exact absurd (List.mem_map_of_mem hmem) hk
    · next hne =>
      rw [ih hm]
      constructor
      · exact List.mem_cons_of_mem _
      · intro hmem
        rcases List.mem_cons.1 hmem with heq | hmem
        · cases heq; exact absurd rfl hne
        · exact hmem

/-- A key of a map with distinct keys stands with one value only. -/
theorem eq_of_mem {value' : α} (h : (keys m).Nodup) (hv : (key, value) ∈ m)
    (hv' : (key, value') ∈ m) : value = value' := by
  rw [← get?_eq_some_iff h] at hv hv'
  exact Option.some.inj (hv.symm.trans hv')

/-- Where every key stands once, with its value, nothing else stands. -/
theorem eq_map_of_mem {f : κ → α} (hnodup : (keys m).Nodup) (h : ∀ key ∈ keys m, (key, f key) ∈ m) :
    m = (keys m).map fun key => (key, f key) := by
  have hself : ∀ p ∈ m, (p.1, f p.1) = p := fun p hp =>
    Prod.ext rfl (eq_of_mem hnodup (h p.1 (List.mem_map_of_mem hp)) hp)
  rw [keys, List.map_map]
  exact (List.map_id m).symm.trans (List.map_congr_left fun p hp => (hself p hp).symm)

theorem get?_perm (h : (keys m).Nodup) (hp : m.Perm l) : get? key m = get? key l := by
  have hl : (keys l).Nodup := (hp.map Prod.fst).nodup h
  refine Option.ext fun value => ?_
  rw [get?_eq_some_iff h, get?_eq_some_iff hl, hp.mem_iff]

theorem putNew_of_not_mem (h : key ∉ keys m) : putNew key value m = m ++ [(key, value)] := by
  rw [putNew, get?_eq_none h]

theorem keys_putNew :
    keys (putNew key value m) = if key ∈ keys m then keys m else keys m ++ [key] := by
  by_cases hk : key ∈ keys m
  · obtain ⟨v, hv⟩ := get?_of_mem hk
    rw [putNew, hv, if_pos hk]
  · rw [putNew_of_not_mem hk, keys_append, if_neg hk]
    rfl

theorem get?_append (key : κ) (m l : List (κ × α)) :
    get? key (m ++ l) = (get? key m).or (get? key l) := by
  induction m with
  | nil => rfl
  | cons p m ih =>
    obtain ⟨k, v⟩ := p
    rw [List.cons_append, get?, get?, ih]
    split <;> rfl

theorem get?_putNew (key key' : κ) (value : α) (m : List (κ × α)) :
    get? key' (putNew key value m) =
      (get? key' m).or (if key = key' then some value else none) := by
  by_cases hk : key ∈ keys m
  · obtain ⟨v, hv⟩ := get?_of_mem hk
    rw [putNew, hv]
    dsimp only
    by_cases heq : key = key'
    · rw [← heq, hv, Option.some_or]
    · rw [if_neg heq, Option.or_none]
  · rw [putNew_of_not_mem hk, get?_append]
    rfl

theorem foldl_put_eq_append (h : (keys (m ++ l)).Nodup) :
    l.foldl (fun m p => put p.1 p.2 m) m = m ++ l :=
  foldl_eq_append put_of_not_mem h

theorem foldl_putNew_eq_append (h : (keys (m ++ l)).Nodup) :
    l.foldl (fun m p => putNew p.1 p.2 m) m = m ++ l :=
  foldl_eq_append putNew_of_not_mem h

/-! ### One map put into another -/

/-- The keys of a map that are new go behind those of the one it is put into. -/
theorem keys_foldl_put (h : (keys l).Nodup) :
    keys (l.foldl (fun m p => put p.1 p.2 m) m) = keys m ++ (keys l).filter (· ∉ keys m) := by
  induction l using List.reverseRecOn with
  | nil => simp
  | append_singleton l p ih =>
    rw [keys_append] at h
    obtain ⟨hl, -, hdisjoint⟩ := List.nodup_append.1 h
    have hp : p.1 ∉ keys l := fun hmem => hdisjoint p.1 hmem p.1 List.mem_cons_self rfl
    have hmem : p.1 ∈ keys (l.foldl (fun m p => put p.1 p.2 m) m) ↔ p.1 ∈ keys m := by
      rw [ih hl, List.mem_append, List.mem_filter]
      exact or_iff_left fun hnew => hp hnew.1
    rw [List.foldl_append, List.foldl_cons, List.foldl_nil, keys_append, List.filter_append,
      ← List.append_assoc, ← ih hl]
    by_cases hold : p.1 ∈ keys m
    · rw [keys_put_of_mem (hmem.2 hold)]
      simp [hold]
    · rw [put_of_not_mem (mt hmem.1 hold), keys_append]
      simp [hold]

/-- A key that both maps have takes the value of the one that is put into the other. -/
theorem get?_foldl_put (h : (keys l).Nodup) (key : κ) :
    get? key (l.foldl (fun m p => put p.1 p.2 m) m) = (get? key l).or (get? key m) := by
  induction l using List.reverseRecOn with
  | nil => rfl
  | append_singleton l p ih =>
    obtain ⟨k, v⟩ := p
    have hk := not_mem_keys_of_nodup h
    rw [keys_append] at h
    rw [List.foldl_append, List.foldl_cons, List.foldl_nil, get?_put, ih (List.nodup_append.1 h).1,
      get?_append, get?, get?]
    by_cases heq : k = key
    · rw [if_pos heq, if_pos heq, ← heq, get?_eq_none hk]
      rfl
    · rw [if_neg heq, if_neg heq, Option.or_none]

/-! ### Maps of lists of pairs -/

theorem ofList_append_singleton (l : List (κ × α)) (p : κ × α) :
    ofList (l ++ [p]) = put p.1 p.2 (ofList l) := by
  rw [ofList, List.foldl_append]
  rfl

/-- The keys of a map stand in the order in which they first appeared. -/
theorem keys_ofList [BEq κ] [LawfulBEq κ] (l : List (κ × α)) :
    keys (ofList l) = (keys l).eraseDups := by
  induction l using List.reverseRecOn with
  | nil => rfl
  | append_singleton l p ih =>
    have hmem : p.1 ∈ keys (ofList l) ↔ p.1 ∈ keys l := by rw [ih, List.mem_eraseDups]
    rw [ofList_append_singleton, keys_append, keys_cons, keys_nil, eraseDups_append_singleton]
    by_cases hp : p.1 ∈ keys (ofList l)
    · rw [keys_put_of_mem hp, ih, if_pos (hmem.1 hp)]
    · rw [put_of_not_mem hp, keys_append, ih, if_neg fun h => hp (hmem.2 h)]
      rfl

theorem nodup_keys_ofList (l : List (κ × α)) : (keys (ofList l)).Nodup := by
  rw [keys_ofList]
  exact nodup_eraseDups _

theorem mem_keys_ofList : key ∈ keys (ofList l) ↔ key ∈ keys l := by
  rw [keys_ofList, List.mem_eraseDups]

theorem get?_ofList :
    get? key (ofList l) = some value ↔
      ∃ pre post, l = pre ++ (key, value) :: post ∧ key ∉ keys post := by
  -- the pair written last decides, so pairs are taken away at the end
  induction l using List.reverseRecOn with
  | nil => simp [ofList, get?]
  | append_singleton l p ih =>
    obtain ⟨k, v⟩ := p
    rw [ofList_append_singleton, get?_put]
    constructor
    · intro h
      split at h
      · next hk =>
        cases h
        cases hk
        exact ⟨l, [], rfl, List.not_mem_nil⟩
      · next hk =>
        obtain ⟨pre, post, rfl, hpost⟩ := ih.1 h
        refine ⟨pre, post ++ [(k, v)], by simp, ?_⟩
        rw [keys_append, List.mem_append, not_or]
        exact ⟨hpost, by simpa using Ne.symm hk⟩
    · rintro ⟨pre, post, hl, hpost⟩
      rcases List.eq_nil_or_concat post with rfl | ⟨post, p, rfl⟩
      · obtain ⟨-, h⟩ := List.append_inj' hl rfl
        cases h
        rw [if_pos rfl]
      · rw [List.concat_eq_append] at hl hpost
        rw [← List.cons_append, ← List.append_assoc] at hl
        obtain ⟨rfl, h⟩ := List.append_inj' hl rfl
        cases h
        rw [keys_append, List.mem_append, not_or] at hpost
        rw [if_neg fun hk => hpost.2 (List.mem_singleton.2 hk.symm)]
        exact ih.2 ⟨pre, post, rfl, hpost.1⟩

theorem pairwise_keys_ofList :
    (keys (ofList l)).Pairwise fun k k' =>
      ∃ pre post, keys l = pre ++ k :: post ∧ k' ≠ k ∧ k' ∉ pre := by
  induction l using List.reverseRecOn with
  | nil => exact .nil
  | append_singleton l p ih =>
    have hold : (keys (ofList l)).Pairwise fun k k' =>
        ∃ pre post, keys (l ++ [p]) = pre ++ k :: post ∧ k' ≠ k ∧ k' ∉ pre := by
      refine ih.imp ?_
      rintro k k' ⟨pre, post, hl, hne, hpre⟩
      exact ⟨pre, post ++ [p.1], by simp [hl], hne, hpre⟩
    rw [ofList_append_singleton]
    by_cases hp : p.1 ∈ keys (ofList l)
    · rwa [keys_put_of_mem hp]
    · rw [put_of_not_mem hp, keys_append (ofList l), List.pairwise_append]
      refine ⟨hold, List.pairwise_singleton _ _, fun k hk k' hk' => ?_⟩
      obtain rfl := List.mem_singleton.1 hk'
      rw [mem_keys_ofList] at hk hp
      obtain ⟨pre, post, hl⟩ := List.append_of_mem hk
      rw [hl, List.mem_append, List.mem_cons, not_or, not_or] at hp
      exact ⟨pre, post ++ [p.1], by simp [hl], hp.2.1, hp.1⟩

end QueryTree.Keyed
