import QueryTree.Client.Remote
import QueryTree.Proofs.Config.Loading

/-!
# Normalized bases

A normalized base is empty or stands behind one slash, and no slash is at its end (`IsBase`). Blanks are
trimmed before slashes are, so a blank in front of the last slashes stays (`BlankTail`). Normalizing
again takes it off, so a base is a fixed point, and a client of the server joins the same paths, exactly
if nothing of the kind is there (`normalizeBase_stable_iff`).
-/

namespace QueryTree.Config

open Text (isBlank trim trimEnd)

variable {s : List Char} {c : Char} {base : String}

/-- Empty, or behind exactly one slash and without one at the end. -/
def IsBase (s : List Char) : Prop :=
  s = [] ∨ ∃ c r, s = '/' :: c :: r ∧ c ≠ '/' ∧ s.getLast? ≠ some '/'

/-- The trimmed text has a blank in front of the slashes at its end. -/
def BlankTail (base : String) : Prop :=
  ∃ front c slashes, trim base.toList = front ++ c :: slashes ∧ isBlank c = true ∧
    ∀ d ∈ slashes, d = '/'

/-! ### Slashes at the ends -/

def isSlash (c : Char) : Bool := c == '/'

theorem isSlash_iff : isSlash c = true ↔ c = '/' := beq_iff_eq

theorem trimSlashes_eq (s : List Char) :
    trimSlashes s = (s.dropWhile isSlash).rdropWhile isSlash := rfl

theorem getLast?_trimSlashes (s : List Char) : (trimSlashes s).getLast? ≠ some '/' := by
  intro h
  have hlast : isSlash '/' = false := Text.getLast?_rdropWhile_not _ _ h
  exact Bool.false_ne_true (hlast.symm.trans (isSlash_iff.2 rfl))

theorem head?_trimSlashes (s : List Char) : (trimSlashes s).head? ≠ some '/' := by
  intro h
  have hhead := List.head?_dropWhile_not isSlash s
  rw [trimSlashes_eq] at h
  rw [Text.head?_rdropWhile h] at hhead
  exact Bool.false_ne_true (hhead.symm.trans (isSlash_iff.2 rfl))

theorem trimSlashes_append_cons (hc : c ≠ '/') (r s : List Char) :
    trimSlashes (r ++ c :: s) = r.dropWhile isSlash ++ c :: s.rdropWhile isSlash := by
  have hslash : isSlash c = false := beq_false_of_ne hc
  rw [trimSlashes_eq, Text.dropWhile_append_cons hslash, Text.rdropWhile_append_cons hslash]

theorem trimSlashes_cons_slash (h : s.head? ≠ some '/') :
    trimSlashes ('/' :: s) = s.rdropWhile isSlash := by
  rw [trimSlashes_eq, List.dropWhile_cons_of_pos (isSlash_iff.2 rfl)]
  cases s with
  | nil => rfl
  | cons d r =>
    have hd : ¬ isSlash d = true := fun hd => h (by rw [List.head?_cons, isSlash_iff.1 hd])
    rw [List.dropWhile_cons_of_neg hd]

theorem exists_append_trimSlashes (s : List Char) :
    ∃ b b', s = b ++ trimSlashes s ++ b' ∧ ∀ d ∈ b', d = '/' := by
  refine ⟨s.takeWhile isSlash, (s.dropWhile isSlash).rtakeWhile isSlash, ?_, fun d hd => ?_⟩
  · rw [trimSlashes_eq, List.append_assoc, List.rdropWhile_append_rtakeWhile,
      List.takeWhile_append_dropWhile]
  · exact isSlash_iff.1 (List.mem_rtakeWhile_imp hd)

theorem blankTail_iff :
    BlankTail base ↔ ∃ c, (trimSlashes (trim base.toList)).getLast? = some c ∧ isBlank c = true := by
  constructor
  · rintro ⟨front, c, slashes, heq, hc, hslashes⟩
    have hne : c ≠ '/' := by
      rintro rfl
      exact absurd hc (by decide)
    have hnone : slashes.rdropWhile isSlash = [] :=
      List.rdropWhile_eq_nil_iff.2 fun d hd => isSlash_iff.2 (hslashes d hd)
    exact ⟨c, by rw [heq, trimSlashes_append_cons hne, hnone, List.getLast?_concat], hc⟩
  · rintro ⟨c, hlast, hc⟩
    obtain ⟨b, b', heq, hb'⟩ := exists_append_trimSlashes (trim base.toList)
    obtain ⟨front, hfront⟩ := List.getLast?_eq_some_iff.1 hlast
    refine ⟨b ++ front, c, b', ?_, hc, hb'⟩
    rw [hfront] at heq
    rw [heq]
    simp

/-! ### Normalizing -/

theorem toList_normalizeBase (base : String) :
    (normalizeBase base).toList =
      if trimSlashes (trim base.toList) = [] then [] else '/' :: trimSlashes (trim base.toList) := by
  unfold normalizeBase
  cases trimSlashes (trim base.toList) with
  | nil => rfl
  | cons c r => rw [if_neg (List.cons_ne_nil c r), String.toList_ofList]

theorem isBase_normalizeBase (base : String) : IsBase (normalizeBase base).toList := by
  rw [toList_normalizeBase]
  have hhead := head?_trimSlashes (trim base.toList)
  have hlast := getLast?_trimSlashes (trim base.toList)
  cases hcore : trimSlashes (trim base.toList) with
  | nil => exact .inl rfl
  | cons c r =>
    rw [hcore] at hhead hlast
    rw [if_neg (List.cons_ne_nil c r)]
    refine .inr ⟨c, r, rfl, fun hc => hhead (by rw [hc, List.head?_cons]), ?_⟩
    rwa [List.getLast?_cons_cons]

theorem ends_blank_iff :
    (∃ c, (normalizeBase base).toList.getLast? = some c ∧ isBlank c = true) ↔ BlankTail base := by
  rw [blankTail_iff, toList_normalizeBase]
  cases trimSlashes (trim base.toList) with
  | nil => rfl
  | cons c r => rw [if_neg (List.cons_ne_nil c r), List.getLast?_cons_cons]

/-- The slash in front keeps the blanks behind it, so the second pass only cuts off the end. -/
theorem trimSlashes_trim_normalizeBase (base : String) :
    trimSlashes (trim (normalizeBase base).toList) =
      (trimEnd (trimSlashes (trim base.toList))).rdropWhile isSlash := by
  rw [toList_normalizeBase]
  split
  · next hnil =>
    rw [hnil]
    rfl
  · have hslash : isBlank '/' = false := by decide
    rw [trim, Text.trimStart_of_visible hslash, ← List.nil_append ('/' :: _),
      Text.trimEnd_append_cons hslash, List.nil_append, trimSlashes_cons_slash]
    exact fun h => head?_trimSlashes _ (Text.head?_trimEnd h)

/-- A blank at the end is cut off, so what is left is shorter. -/
theorem length_cut_lt (hc : isBlank c = true) (front : List Char) :
    ((trimEnd (front ++ [c])).rdropWhile isSlash).length < (front ++ [c]).length := by
  have htrim : trimEnd (front ++ [c]) = trimEnd front := List.rdropWhile_concat_pos isBlank front c hc
  calc
    ((trimEnd (front ++ [c])).rdropWhile isSlash).length
    _ ≤ (trimEnd front).length := by
      rw [htrim]
      exact (List.rdropWhile_prefix isSlash (trimEnd front)).length_le
    _ ≤ front.length := (List.rdropWhile_prefix isBlank front).length_le
    _ < (front ++ [c]).length := by
      rw [List.length_append]
      exact Nat.lt_succ_self _

theorem normalizeBase_normalizeBase_iff :
    normalizeBase (normalizeBase base) = normalizeBase base ↔ ¬ BlankTail base := by
  rw [blankTail_iff, ← String.toList_inj, toList_normalizeBase (normalizeBase base),
    trimSlashes_trim_normalizeBase, toList_normalizeBase base]
  have hlast := getLast?_trimSlashes (trim base.toList)
  generalize trimSlashes (trim base.toList) = core at hlast ⊢
  by_cases hblank : ∃ c, core.getLast? = some c ∧ isBlank c = true
  · refine iff_of_false (fun h => ?_) (not_not_intro hblank)
    obtain ⟨c, hc, hcb⟩ := hblank
    obtain ⟨front, rfl⟩ := List.getLast?_eq_some_iff.1 hc
    -- What the second pass leaves is shorter, and behind the same slash if it is not empty.
    have hshort := length_cut_lt hcb front
    rw [if_neg (List.append_ne_nil_of_right_ne_nil front (List.cons_ne_nil c []))] at h
    split at h
    · cases h
    · exact absurd (congrArg List.length (List.cons.inj h).2) (Nat.ne_of_lt hshort)
  · refine iff_of_true ?_ hblank
    have htrim : trimEnd core = core := Text.trimEnd_of_getLast? fun c hc => by
      simpa using fun hcb => hblank ⟨c, hc, hcb⟩
    have hslashes : core.rdropWhile isSlash = core := List.rdropWhile_eq_self_iff.2 fun hne h => by
      refine hlast ?_
      rw [List.getLast?_eq_some_getLast hne, isSlash_iff.1 h]
    rw [htrim, hslashes]

/-- What is normalized is a base. It ends in a blank, changes when it is normalized again, and is not
what a client of the server uses exactly if the text has a blank in front of its last slashes. -/
theorem normalizeBase_stable_iff (base : String) :
    IsBase (normalizeBase base).toList ∧
      ((∃ c, (normalizeBase base).toList.getLast? = some c ∧ isBlank c = true) ↔ BlankTail base) ∧
      (normalizeBase (normalizeBase base) = normalizeBase base ↔ ¬ BlankTail base) ∧
      ∀ lookup config, lookup "BASE_URL" = some base → load lookup = .ok config →
        ∀ client : Client,
          (client.withApiBase config.baseUrl).apiBase = config.baseUrl ↔ ¬ BlankTail base := by
  refine ⟨isBase_normalizeBase base, ends_blank_iff, normalizeBase_normalizeBase_iff, ?_⟩
  intro lookup config hkey hload client
  have hbase : config.baseUrl = normalizeBase base := by
    rw [((exact_load lookup).1 config |>.1 hload).baseUrl, hkey, Option.getD_some]
  have hclient : (client.withApiBase config.baseUrl).apiBase = normalizeBase config.baseUrl := rfl
  rw [hclient, hbase]
  exact normalizeBase_normalizeBase_iff

/-- A lookup with a base and no other key. -/
def baseOnly (base : String) : String → Option String := (Keyed.get? · [("BASE_URL", base)])

theorem normalizeBase_stable_iff_inner :
    baseOnly "//a /b/ " "BASE_URL" = some "//a /b/ " ∧
      load (baseOnly "//a /b/ ") = .ok { standard with baseUrl := "/a /b" } ∧
      ((Client.new "http://h").withApiBase "/a /b").apiBase = "/a /b" := by
  have hkey : baseOnly "//a /b/ " "BASE_URL" = some "//a /b/ " := rfl
  have hload : load (baseOnly "//a /b/ ") = .ok { standard with baseUrl := "/a /b" } := by
    decide +kernel
  have htail : ¬ BlankTail "//a /b/ " := by
    have hcore : trimSlashes (trim "//a /b/ ".toList) = ['a', ' ', '/', 'b'] := by decide +kernel
    rw [blankTail_iff, hcore]
    rintro ⟨c, ⟨⟩, hc⟩
    exact absurd hc (by decide)
  exact ⟨hkey, hload, ((normalizeBase_stable_iff _).2.2.2 _ _ hkey hload _).2 htail⟩

/-- The blank in front of the last slash is at the end of the server's base, and a client of the server
has it no more. -/
theorem normalizeBase_blank_tail :
    load (baseOnly "/a /") = .ok { standard with baseUrl := "/a " } ∧
      ((Client.new "http://h").withApiBase "/a ").apiBase = "/a" := by
  decide +kernel

end QueryTree.Config
