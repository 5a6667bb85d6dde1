import Mathlib.Data.Fintype.Basic
import QueryTree.Proofs.Http.Traffic

/-!
# No errand waits for ever

Whatever has happened, all errands can still be answered: whoever holds the lock comes to an end after
some engine calls (`Store.Work.calls`), and while nobody holds it each of the others can be brought to
its answer (`Traffic.exists_answered`).
-/

namespace QueryTree

namespace Store.Work

variable {σ ω : Type} [Engine σ] {s s' : Store σ} {work work' : Work ω}

/-- The engine calls that there may be still. -/
def calls : Work ω → Nat
  | .done _ => 0
  | .texts _ more _ => more.length + 1
  | .columns .. => 2
  | .rows .. | .change .. | .ping .. => 1

theorem calls_lt_of_call (h : work.call s = some (work', s')) : work'.calls < work.calls := by
  cases work with
  | done answer => cases h
  | texts text more answer =>
    rw [call] at h
    split at h
    · cases h
      cases more with
      | nil => exact Nat.zero_lt_one
      | cons text more => exact Nat.lt_succ_self _
    · cases h
      exact Nat.succ_pos _
  | columns sql args answer =>
    rw [call] at h
    split at h
    · cases h
      exact Nat.lt_succ_self 1
    · cases h
      exact Nat.succ_pos 1
  | rows | change | ping =>
    cases h
    exact Nat.zero_lt_one

theorem eq_done_of_call (h : work.call s = none) : ∃ answer, work = .done answer := by
  cases work with
  | done answer => exact ⟨answer, rfl⟩
  | texts | columns =>
    rw [call] at h
    split at h <;> cases h
  | rows | change | ping => cases h

end Store.Work

namespace Traffic

variable {σ ι : Type} [Engine σ] [DecidableEq ι] {t : Traffic σ ι} {s s' s'' : State σ ι}
  {event : Event ι} {i : ι}

/-- Some steps lead from one state to another. -/
def Leads (t : Traffic σ ι) (s s' : State σ ι) : Prop := ∃ events, t.run? events s = some s'

theorem Leads.refl (t : Traffic σ ι) (s : State σ ι) : t.Leads s s := ⟨[], rfl⟩

theorem Leads.trans (h : t.Leads s s') (h' : t.Leads s' s'') : t.Leads s s'' := by
  obtain ⟨events, hrun⟩ := h
  obtain ⟨events', hrun'⟩ := h'
  exact ⟨events ++ events', by rw [run?_append, hrun]; exact hrun'⟩

theorem leads_of_step? (h : t.step? s event = some s') : t.Leads s s' :=
  ⟨[event], by rw [run?, h]; rfl⟩

/-- The errand is answered and nobody holds the lock; the others stand where they stood. -/
structure Answers (i : ι) (s s' : State σ ι) : Prop where
  free : s'.holder = none
  answered : ∃ reply, s'.stage i = .answered reply
  others : ∀ j, j ≠ i → s'.stage j = s.stage j

/-- The errand comes to its answer by a step and then as from the state behind it. -/
theorem answers_of_step {stage : Stage} {store : Store σ} {holder : Option ι}
    (hstep : t.step? s event = some (State.move { s with store, holder } i stage))
    (h : ∃ s', t.Leads (State.move { s with store, holder } i stage) s' ∧
      Answers i (State.move { s with store, holder } i stage) s') :
    ∃ s', t.Leads s s' ∧ Answers i s s' := by
  obtain ⟨s', hleads, hfree, hanswered, hothers⟩ := h
  refine ⟨s', (leads_of_step? hstep).trans hleads, hfree, hanswered, fun j hj => ?_⟩
  exact (hothers j hj).trans (State.stage_move_of_ne hj _ stage)

theorem answers_of_released {reply : Errand.Reply} (hfree : s.holder = none)
    (hstage : s.stage i = .released reply) : ∃ s', t.Leads s s' ∧ Answers i s s' := by
  have hstep : t.step? s (.answer i) = some (s.move i (.answered reply)) := by rw [step?, hstage]
  refine answers_of_step hstep ⟨_, .refl t _, hfree, ⟨reply, ?_⟩, fun _ _ => rfl⟩
  exact State.stage_move_self ..

theorem answers_of_holding {work : Store.Work Errand.Reply} (hstage : s.stage i = .holding work) :
    ∃ s', t.Leads s s' ∧ Answers i s s' := by
  induction hn : work.calls using Nat.strong_induction_on generalizing s work with
  | _ n ih =>
    cases hcall : work.call s.store with
    | none =>
      obtain ⟨reply, rfl⟩ := Store.Work.eq_done_of_call hcall
      have hstep : t.step? s (.release i) =
          some (State.move { s with holder := none } i (.released reply)) := by rw [step?, hstage]
      exact answers_of_step hstep (answers_of_released rfl (State.stage_move_self ..))
    | some result =>
      obtain ⟨work', store⟩ := result
      have hstep : t.step? s (.call i) = some (State.move { s with store } i (.holding work')) := by
        rw [step?, hstage]
        exact Option.map_eq_some_iff.2 ⟨_, hcall, rfl⟩
      have hless : work'.calls < n := hn ▸ Store.Work.calls_lt_of_call hcall
      exact answers_of_step hstep (ih _ hless (State.stage_move_self ..) rfl)

theorem answers_of_waiting {need : Store.Need Errand.Reply} (hfree : s.holder = none)
    (hstage : s.stage i = .waiting need) : ∃ s', t.Leads s s' ∧ Answers i s s' := by
  have hstep : t.step? s (.take i) =
      some (State.move { s with store := (need.enter s.store).2, holder := some i } i
        (.holding (need.enter s.store).1)) := by rw [step?, hstage, hfree]
  exact answers_of_step hstep (answers_of_holding (State.stage_move_self ..))

/-- While nobody holds the lock, every errand can be brought to its answer. -/
theorem answers_of_free (t : Traffic σ ι) (hfree : s.holder = none)
    (hstage : ∀ work, s.stage i ≠ .holding work) : ∃ s', t.Leads s s' ∧ Answers i s s' := by
  cases hi : s.stage i with
  | arrived =>
    cases hplan : t.plan i with
    | answered reply =>
      have hstep : t.step? s (.prepare i) = some (s.move i (.released reply)) := by
        rw [step?, hi]
        simp only [hplan]
      exact answers_of_step hstep (answers_of_released hfree (State.stage_move_self ..))
    | needs need =>
      have hstep : t.step? s (.prepare i) = some (s.move i (.waiting need)) := by
        rw [step?, hi]
        simp only [hplan]
      exact answers_of_step hstep (answers_of_waiting hfree (State.stage_move_self ..))
  | waiting need => exact answers_of_waiting hfree hi
  | holding work => exact absurd hi (hstage work)
  | released reply => exact answers_of_released hfree hi
  | answered reply => exact ⟨s, .refl t s, hfree, ⟨reply, hi⟩, fun _ _ => rfl⟩

/-- All errands of a list, one after the other. -/
theorem exists_answered_list (t : Traffic σ ι) (l : List ι) (hfree : s.holder = none)
    (hstage : ∀ i work, s.stage i ≠ .holding work) :
    ∃ s', t.Leads s s' ∧ s'.holder = none ∧ (∀ i work, s'.stage i ≠ .holding work) ∧
      ∀ i ∈ l, ∃ reply, s'.stage i = .answered reply := by
  induction l with
  | nil => exact ⟨s, .refl t s, hfree, hstage, nofun⟩
  | cons i l ih =>
    obtain ⟨s₁, hleads, hfree₁, hstage₁, hall⟩ := ih
    obtain ⟨s₂, hleads', hfree₂, ⟨reply, hreply⟩, hothers⟩ := answers_of_free t hfree₁ (hstage₁ i)
    refine ⟨s₂, hleads.trans hleads', hfree₂, fun j work => ?_, fun j hj => ?_⟩
    · by_cases hji : j = i
      · rw [hji, hreply]
        exact nofun
      · rw [hothers j hji]
        exact hstage₁ j work
    · by_cases hji : j = i
      · exact ⟨reply, hji ▸ hreply⟩
      · rw [hothers j hji]
        exact hall j ((List.mem_cons.1 hj).resolve_left hji)

/-- However far the errands have come, they can all be answered. -/
theorem exists_answered [Fintype ι] {events : List (Event ι)} (h : t.run? events t.start = some s) :
    ∃ s', t.Leads s s' ∧ ∀ i, ∃ reply, s'.stage i = .answered reply := by
  have hserial := serial_of_run? h
  -- whoever holds the lock goes first
  obtain ⟨s₁, hleads, hfree⟩ : ∃ s₁, t.Leads s s₁ ∧ s₁.holder = none := by
    cases hholder : s.holder with
    | none => exact ⟨s, .refl t s, hholder⟩
    | some i =>
      obtain ⟨work, hwork⟩ := hserial.held i hholder
      obtain ⟨s₁, hleads, hanswers⟩ := answers_of_holding (t := t) hwork
      exact ⟨s₁, hleads, hanswers.free⟩
  have hstage : ∀ i work, s₁.stage i ≠ .holding work := by
    intro i work hwork
    obtain ⟨events', hrun⟩ := hleads
    have hagrees := (hserial.run hrun).agrees i
    rw [hwork, hfree] at hagrees
    cases hagrees.1
  obtain ⟨s₂, hleads', -, -, hall⟩ := exists_answered_list t Finset.univ.toList hfree hstage
  exact ⟨s₂, hleads.trans hleads', fun i => hall i (Finset.mem_toList.2 (Finset.mem_univ i))⟩

end Traffic
end QueryTree
